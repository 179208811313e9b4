import Mathlib.Logic.Function.Basic
import SwagOS.Mem.ChunkedFrames

/-!
# The page tables of a process

`thread_pagetables_t` with the functions of `mem/pmm.c` that write and walk it.  The
tables lie behind each other in the process, so an entry that points to one of them is
told by its physical address, and a walk reads the table at the address it finds.

A walk that is led elsewhere reads other memory; what it finds there, and what the kernel
tables map, is a `View` of the machine.
-/

namespace SwagOS.Mem

open SwagOS.Lib

def pagePresent : BitVec 64 := 1#64 <<< 0
def pageWrite : BitVec 64 := 1#64 <<< 1
def pageUser : BitVec 64 := 1#64 <<< 2
def pageHuge : BitVec 64 := 1#64 <<< 7

def ptAddrMask : BitVec 64 := BitVec.allOnes 64 <<< 12

def pml4tIndex (va : Nat) : Nat := va >>> 39 &&& 0x1FF
def pdptIndex (va : Nat) : Nat := va >>> 30 &&& 0x1FF
def pdtIndex (va : Nat) : Nat := va >>> 21 &&& 0x1FF
def ptIndex (va : Nat) : Nat := va >>> 12 &&& 0x1FF

/-- `thread_pagetables_t`, its arrays of tables in the order of their addresses. -/
structure ThreadPagetables where
  pml4t : Nat → BitVec 64
  pdpt : Nat → BitVec 64
  pdt : Nat → Nat → BitVec 64
  pd : Nat → Nat → BitVec 64

/-- What a walk depends on besides the tables of the process. -/
structure View where
  /-- The quadwords of the page at a physical address outside the tables. -/
  memory : Nat → Nat → BitVec 64
  /-- `is_frame_mapped_kernel` of the kernel tables. -/
  frameMappedKernel : Nat → Bool

namespace ThreadPagetables

def zero : ThreadPagetables :=
  ⟨fun _ => 0#64, fun _ => 0#64, fun _ _ => 0#64, fun _ _ => 0#64⟩

section Addresses

-- The physical address of the tables.
variable (base : Nat)

def pdptPhys : Nat := base + 0x1000
def pdtPhys (i : Nat) : Nat := base + 0x2000 + 0x1000 * i
def pdPhys (i : Nat) : Nat := base + 0x202000 + 0x1000 * i

def entry (address : Nat) (flags : BitVec 64) : BitVec 64 := BitVec.ofNat 64 address ||| flags

def uvaCopyKernel (pgdir : ThreadPagetables) : ThreadPagetables :=
  { pgdir with
    pml4t := Function.update pgdir.pml4t 511 (entry (pdptPhys base) (pagePresent ||| pageWrite))
    pdpt := Function.update pgdir.pdpt 510 (entry (pdtPhys base 0) (pagePresent ||| pageWrite))
    pdt := Function.update pgdir.pdt 0 fun i =>
      if i < 512 then entry (i * hugePgSize) (pageHuge ||| pagePresent ||| pageWrite)
      else pgdir.pdt 0 i }

/-- The writes of `map_4kb_page_user` to the tables.  The second check reads
`entry & (PTADDRMASK != NULL)`, which is the present bit. -/
def map4kbPageUser (pgdir : ThreadPagetables) (virtualAddress physicalAddress pdtTableIndex
    pdTableIndex : Nat) : Outcome ThreadPagetables :=
  let flags := pageUser ||| pageWrite ||| pagePresent
  let ptAddr := BitVec.ofNat 64 (pdPhys base pdTableIndex)
  let pgdir := { pgdir with
    pml4t := Function.update pgdir.pml4t (pml4tIndex virtualAddress) (entry (pdptPhys base) flags)
    pdpt := Function.update pgdir.pdpt (pdptIndex virtualAddress)
      (entry (pdtPhys base pdtTableIndex) flags) }
  let old := pgdir.pdt pdtTableIndex (pdtIndex virtualAddress) &&& ptAddrMask
  if old ≠ 0#64 ∧ old ≠ ptAddr then throw (.panic "pdt")
  else
    let pgdir := { pgdir with
      pdt := Function.update pgdir.pdt pdtTableIndex
        (Function.update (pgdir.pdt pdtTableIndex) (pdtIndex virtualAddress)
          (entry (pdPhys base pdTableIndex) flags)) }
    if pgdir.pd pdTableIndex (ptIndex virtualAddress) &&& 1#64 ≠ 0#64 then throw (.panic "pd")
    else
      pure { pgdir with
        pd := Function.update pgdir.pd pdTableIndex
          (Function.update (pgdir.pd pdTableIndex) (ptIndex virtualAddress)
            (entry physicalAddress flags)) }

def tableAt (view : View) (pgdir : ThreadPagetables) (address : Nat) : Nat → BitVec 64 :=
  if address = base then pgdir.pml4t
  else if address = pdptPhys base then pgdir.pdpt
  else if pdtPhys base 0 ≤ address ∧ address < pdPhys base 0 then
    pgdir.pdt ((address - pdtPhys base 0) / 0x1000)
  else if pdPhys base 0 ≤ address ∧ address < pdPhys base 512 then
    pgdir.pd ((address - pdPhys base 0) / 0x1000)
  else view.memory address

/-- The check of the entry of the page directory reads `entry & (PTADDRMASK == NULL)`, so it
never fails, and the last one reads the present bit. -/
def isFrameMappedThread (view : View) (pgdir : ThreadPagetables) (virtualAddress : Nat) : Bool :=
  let pdptEntry := pgdir.pml4t (pml4tIndex virtualAddress) &&& ptAddrMask
  if pdptEntry = 0#64 then false
  else
    let pdtEntry := pgdir.tableAt base view pdptEntry.toNat (pdptIndex virtualAddress) &&& ptAddrMask
    if pdtEntry = 0#64 then false
    else
      let ptEntry := pgdir.tableAt base view pdtEntry.toNat (pdtIndex virtualAddress)
      if ptEntry &&& pageHuge ≠ 0#64 then true
      else
        pgdir.tableAt base view (ptEntry &&& ptAddrMask).toNat (ptIndex virtualAddress) &&& 1#64 != 0#64

/-- Whether `FetchStruct` and `WriteStruct` copy; the tables are those of the caller. -/
def fetchStruct (view : View) (pgdir : ThreadPagetables) (addr size : Nat) : Bool :=
  pgdir.isFrameMappedThread base view addr &&
    pgdir.isFrameMappedThread base view ((addr + size - 1) % 2 ^ 64) &&
    !view.frameMappedKernel addr

/-- The tables that `CreatePageTables` and `CreatePageTableFromCopy` start from. -/
def create : ThreadPagetables := zero.uvaCopyKernel base

end Addresses

/-- A page that user code reaches: the entry in slot `b` of page table `a`. -/
def Maps (pgdir : ThreadPagetables) (a b frame : Nat) : Prop :=
  pgdir.pd a b &&& pagePresent ≠ 0#64 ∧ pgdir.pd a b &&& pageUser ≠ 0#64 ∧
    (pgdir.pd a b &&& ptAddrMask).toNat = frame

instance (pgdir : ThreadPagetables) (a b frame : Nat) : Decidable (pgdir.Maps a b frame) :=
  inferInstanceAs (Decidable (_ ∧ _ ∧ _))

def userFlags : BitVec 64 := pageUser ||| pageWrite ||| pagePresent

theorem entry_target {frame : Nat} (aligned : frame % pgSize = 0) (below : frame < 2 ^ 64) :
    (entry frame userFlags &&& ptAddrMask).toNat = frame := by
  have flags : userFlags &&& ptAddrMask = 0#64 := by decide
  have address : entry frame userFlags &&& ptAddrMask = BitVec.ofNat 64 frame >>> 12 <<< 12 := by
    rw [entry, BitVec.and_or_distrib_right, flags, BitVec.or_zero, ptAddrMask,
      BitVec.shiftLeft_ushiftRight]
  rw [pgSize] at aligned
  rw [address, BitVec.toNat_shiftLeft, BitVec.toNat_ushiftRight, BitVec.toNat_ofNat,
    Nat.shiftLeft_eq, Nat.shiftRight_eq_div_pow]
  omega

theorem entry_flag {frame : Nat} {flag : BitVec 64} (isFlag : flag = pagePresent ∨ flag = pageUser) :
    entry frame userFlags &&& flag ≠ 0#64 := by
  intro none
  have bit : ∀ i < 64, (entry frame userFlags &&& flag).getLsbD i = false := by
    intro i _
    rw [none, BitVec.getLsbD_zero]
  rcases isFlag with rfl | rfl
  · simpa [entry, userFlags, pageUser, pageWrite, pagePresent] using bit 0 (by decide)
  · simpa [entry, userFlags, pageUser, pageWrite, pagePresent] using bit 2 (by decide)

section Map

variable {base virtualAddress physicalAddress pdtTableIndex pdTableIndex : Nat}
  {pgdir next : ThreadPagetables}

/-- A mapping writes one entry of the page tables, which was not present. -/
theorem map4kbPageUser_ok
    (mapped : pgdir.map4kbPageUser base virtualAddress physicalAddress pdtTableIndex pdTableIndex =
      .ok next) :
    pgdir.pd pdTableIndex (ptIndex virtualAddress) &&& pagePresent = 0#64 ∧
      next.pd = Function.update pgdir.pd pdTableIndex
        (Function.update (pgdir.pd pdTableIndex) (ptIndex virtualAddress)
          (entry physicalAddress userFlags)) := by
  rw [map4kbPageUser] at mapped
  simp only at mapped
  split at mapped
  · cases mapped
  · split at mapped
    · cases mapped
    · next vacant =>
      cases mapped
      exact ⟨by simpa [pagePresent] using vacant, rfl⟩

/-- The pages of the tables after a mapping: the old ones and the new one. -/
theorem map4kbPageUser_maps (aligned : physicalAddress % pgSize = 0)
    (below : physicalAddress < 2 ^ 64)
    (mapped : pgdir.map4kbPageUser base virtualAddress physicalAddress pdtTableIndex pdTableIndex =
      .ok next) (a b frame : Nat) :
    next.Maps a b frame ↔ pgdir.Maps a b frame ∨
      a = pdTableIndex ∧ b = ptIndex virtualAddress ∧ frame = physicalAddress := by
  obtain ⟨vacant, tables⟩ := map4kbPageUser_ok mapped
  by_cases slot : a = pdTableIndex ∧ b = ptIndex virtualAddress
  · obtain ⟨rfl, rfl⟩ := slot
    have none : ¬pgdir.Maps a (ptIndex virtualAddress) frame := fun maps => maps.1 vacant
    rw [or_iff_right none, Maps, tables, Function.update_self, Function.update_self,
      entry_target aligned below]
    exact ⟨fun maps => ⟨rfl, rfl, maps.2.2.symm⟩, fun same =>
      ⟨entry_flag (.inl rfl), entry_flag (.inr rfl), same.2.2.symm⟩⟩
  · have same : next.pd a b = pgdir.pd a b := by
      rw [tables]
      by_cases table : a = pdTableIndex
      · subst table
        have other : b ≠ ptIndex virtualAddress := fun same => slot ⟨rfl, same⟩
        simp [other]
      · simp [table]
    rw [Maps, same]
    refine ⟨.inl, ?_⟩
    rintro (maps | ⟨rfl, rfl, -⟩)
    · exact maps
    · exact absurd ⟨rfl, rfl⟩ slot

theorem create_maps (base a b frame : Nat) : ¬(create base).Maps a b frame := by
  intro maps
  exact maps.1 (by simp [create, uvaCopyKernel, zero])

end Map

end ThreadPagetables

end SwagOS.Mem
