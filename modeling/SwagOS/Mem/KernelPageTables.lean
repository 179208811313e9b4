import SwagOS.Mem.PageTables.Walk

/-!
# The kernel's page tables

The tables that the kernel and all CPUs share lie in physical memory.  `pdt_kernel`, which
has one page directory for each kind of allocation, `smp_pdt` and the directory of the boot
code all hang below one `pdpt_kernel`.
-/

namespace SwagOS.Mem

open SwagOS.Lib

inductive PageAllocType where
  | kernelBinary
  | kernelHeap
  | kernelHeap2
  | dmIo
  | userBinary
  | userHeap
  | temporary
  deriving DecidableEq, Repr

def pageCacheDisable : BitVec 64 := 1#64 <<< 4

/-- The physical addresses of the tables. -/
structure KernelTables where
  pml4t : Nat
  pdpt : Nat
  pdt : PageAllocType → Nat
  bootPdt : Nat
  smpPdt : Nat
  pt : Nat → Nat
  smpPt : Nat

namespace KernelTables

variable (kernel : KernelTables) (memory : Paging.Tables)

def store (memory : Paging.Tables) (table i : Nat) (e : BitVec 64) : Paging.Tables :=
  Function.update memory table (Function.update (memory table) i e)

def pageFlags (type : PageAllocType) : BitVec 64 :=
  let flags := pagePresent ||| pageWrite ||| pageHuge
  if type = .dmIo then flags ||| pageCacheDisable else flags

def mapKernelPage (va pa : Nat) (type : PageAllocType) : Paging.Tables :=
  let flags := pagePresent ||| pageWrite
  let memory := store memory kernel.pml4t (pml4tIndex va)
    (ThreadPagetables.entry kernel.pdpt flags)
  let memory := store memory kernel.pdpt (pdptIndex va)
    (ThreadPagetables.entry (kernel.pdt type) flags)
  store memory (kernel.pdt type) (pdtIndex va) (ThreadPagetables.entry pa (pageFlags type))

def map4kbPageKernel (va pa : Nat) (type : PageAllocType) : Paging.Tables :=
  let flags := pagePresent ||| pageWrite
  let memory := store memory kernel.pml4t (pml4tIndex va)
    (ThreadPagetables.entry kernel.pdpt flags)
  let memory := store memory kernel.pdpt (pdptIndex va)
    (ThreadPagetables.entry (kernel.pdt type) flags)
  let memory := store memory (kernel.pdt type) (pdtIndex va)
    (ThreadPagetables.entry (kernel.pt (pdtIndex va)) flags)
  store memory (kernel.pt (pdtIndex va)) (ptIndex va) (ThreadPagetables.entry pa flags)

def map4kbPageSmp (va pa : Nat) (flags : BitVec 64) : Paging.Tables :=
  let memory := store memory kernel.pml4t (pml4tIndex va)
    (ThreadPagetables.entry kernel.pdpt flags)
  let memory := store memory kernel.pdpt (pdptIndex va)
    (ThreadPagetables.entry kernel.smpPdt flags)
  let memory := store memory kernel.smpPdt (pdtIndex va)
    (ThreadPagetables.entry kernel.smpPt flags)
  store memory kernel.smpPt (ptIndex va) (ThreadPagetables.entry pa flags)

/-- `is_frame_mapped_kernel` for `pml4t_kernel`; it does not look at the last table. -/
def isFrameMappedKernel (va : Nat) : Bool :=
  if memory kernel.pml4t (pml4tIndex va) &&& ptAddrMask = 0#64 then false
  else
    let pdt := memory kernel.pdpt (pdptIndex va) &&& ptAddrMask
    if pdt = 0#64 then false
    else
      let e := memory pdt.toNat (pdtIndex va)
      if e = 0#64 then false
      else if e &&& pageHuge ≠ 0#64 then true
      else e &&& ptAddrMask != 0#64

def Mapped (va : Nat) : Prop := (Paging.walk memory va kernel.pml4t).isSome = true

instance (va : Nat) : Decidable (kernel.Mapped memory va) := inferInstanceAs (Decidable (_ = _))

def pdts : Set Nat := {table | table = kernel.bootPdt ∨ table = kernel.smpPdt ∨
  ∃ type, table = kernel.pdt type}

/-- The tables lie on pages of their own. -/
structure Apart : Prop where
  page : ∀ table, table ∈ kernel.pdts ∨ table = kernel.pdpt ∨ table = kernel.pml4t ∨
    table = kernel.smpPt ∨ (∃ i, table = kernel.pt i) →
    table % 2 ^ 12 = 0 ∧ table < 2 ^ 52 ∧ table ≠ 0
  root : kernel.pml4t ≠ kernel.pdpt
  directories : ∀ table ∈ kernel.pdts, table ≠ kernel.pml4t ∧ table ≠ kernel.pdpt
  last : ∀ table, table = kernel.smpPt ∨ (∃ i, table = kernel.pt i) →
    table ≠ kernel.pml4t ∧ table ≠ kernel.pdpt ∧ table ∉ kernel.pdts

/-- How the tables are linked, as far as entries are present. -/
structure Linked : Prop where
  pml4t : ∀ i, Paging.present (memory kernel.pml4t i) = true →
    Paging.address (memory kernel.pml4t i) = kernel.pdpt ∧
      memory kernel.pml4t i &&& ptAddrMask ≠ 0#64
  pdpt : ∀ i, Paging.present (memory kernel.pdpt i) = true →
    Paging.large (memory kernel.pdpt i) = false ∧
      Paging.address (memory kernel.pdpt i) ∈ kernel.pdts ∧
      (memory kernel.pdpt i &&& ptAddrMask).toNat = Paging.address (memory kernel.pdpt i) ∧
      memory kernel.pdpt i &&& ptAddrMask ≠ 0#64
  pdt : ∀ table ∈ kernel.pdts, ∀ i, Paging.present (memory table i) = true →
    Paging.large (memory table i) = true ∨ memory table i &&& ptAddrMask ≠ 0#64

variable {kernel : KernelTables} {memory : Paging.Tables}

theorem store_entry {table i a j : Nat} {e : BitVec 64} :
    store memory table i e a j = e ∧ a = table ∨ store memory table i e a j = memory a j := by
  by_cases same : a = table
  · subst same
    rcases ThreadPagetables.update_entry₂ with new | old
    · exact .inl ⟨new, rfl⟩
    · exact .inr old
  · exact .inr (congrFun (Function.update_of_ne same _ _) j)

theorem store_other {table i a : Nat} {e : BitVec 64} (other : a ≠ table) :
    store memory table i e a = memory a := Function.update_of_ne other _ _

namespace Linked

variable (apart : kernel.Apart) (linked : kernel.Linked memory)
include apart linked

theorem storePml4t {i : Nat} {flags : BitVec 64} (low : flags.toNat < 2 ^ 12) :
    kernel.Linked (store memory kernel.pml4t i (ThreadPagetables.entry kernel.pdpt flags)) := by
  obtain ⟨aligned, below, notNull⟩ := apart.page kernel.pdpt (.inr (.inl rfl))
  obtain ⟨address, masked⟩ := ThreadPagetables.entry_address aligned below low
  constructor
  · intro j here
    rcases store_entry with ⟨new, -⟩ | old
    · rw [new]
      exact ⟨address, ThreadPagetables.masked_ne masked notNull⟩
    · rw [old] at here ⊢
      exact linked.pml4t j here
  · rw [store_other (Ne.symm apart.root)]
    exact linked.pdpt
  · intro table directory
    rw [store_other (apart.directories table directory).1]
    exact linked.pdt table directory

theorem storePdpt {i table : Nat} {flags : BitVec 64} (directory : table ∈ kernel.pdts)
    (low : flags.toNat < 2 ^ 12) (notLarge : flags.getLsbD 7 = false) :
    kernel.Linked (store memory kernel.pdpt i (ThreadPagetables.entry table flags)) := by
  obtain ⟨aligned, below, notNull⟩ := apart.page table (.inl directory)
  obtain ⟨address, masked⟩ := ThreadPagetables.entry_address aligned below low
  constructor
  · rw [store_other apart.root]
    exact linked.pml4t
  · intro j here
    rcases store_entry with ⟨new, -⟩ | old
    · rw [new, address]
      refine ⟨?_, directory, masked, ThreadPagetables.masked_ne masked notNull⟩
      exact (ThreadPagetables.entry_flag_eq aligned below low (by decide)).trans notLarge
    · rw [old] at here ⊢
      exact linked.pdpt j here
  · intro other isDirectory
    rw [store_other (apart.directories other isDirectory).2]
    exact linked.pdt other isDirectory

theorem storePdt {i table : Nat} {e : BitVec 64} (directory : table ∈ kernel.pdts)
    (leads : Paging.large e = true ∨ e &&& ptAddrMask ≠ 0#64) :
    kernel.Linked (store memory table i e) := by
  obtain ⟨notRoot, notPdpt⟩ := apart.directories table directory
  constructor
  · rw [store_other (Ne.symm notRoot)]
    exact linked.pml4t
  · rw [store_other (Ne.symm notPdpt)]
    exact linked.pdpt
  · intro other isDirectory j here
    rcases store_entry with ⟨new, -⟩ | old
    · rw [new]
      exact leads
    · rw [old] at here ⊢
      exact linked.pdt other isDirectory j here

theorem storePt {i table : Nat} {e : BitVec 64}
    (last : table = kernel.smpPt ∨ ∃ i, table = kernel.pt i) :
    kernel.Linked (store memory table i e) := by
  obtain ⟨notRoot, notPdpt, notDirectory⟩ := apart.last table last
  constructor
  · rw [store_other (Ne.symm notRoot)]
    exact linked.pml4t
  · rw [store_other (Ne.symm notPdpt)]
    exact linked.pdpt
  · intro other isDirectory
    have different : other ≠ table := by
      rintro rfl
      exact notDirectory isDirectory
    rw [store_other different]
    exact linked.pdt other isDirectory

/-- The tables stay linked when a large page is mapped. -/
theorem mapKernelPage {va pa : Nat} {type : PageAllocType} (aligned : pa % 2 ^ 12 = 0)
    (below : pa < 2 ^ 52) : kernel.Linked (kernel.mapKernelPage memory va pa type) := by
  have directory : kernel.pdt type ∈ kernel.pdts := .inr (.inr ⟨type, rfl⟩)
  have low : (pageFlags type).toNat < 2 ^ 12 ∧ (pageFlags type).getLsbD 7 = true := by
    cases type <;> decide
  apply (((linked.storePml4t apart _).storePdpt apart directory _ _).storePdt apart directory)
  · left
    exact (ThreadPagetables.entry_flag_eq aligned below low.1 (by decide)).trans low.2
  all_goals decide

theorem map4kbPageKernel {va pa : Nat} {type : PageAllocType} :
    kernel.Linked (kernel.map4kbPageKernel memory va pa type) := by
  have directory : kernel.pdt type ∈ kernel.pdts := .inr (.inr ⟨type, rfl⟩)
  obtain ⟨aligned, below, notNull⟩ := apart.page (kernel.pt (pdtIndex va))
    (.inr (.inr (.inr (.inr ⟨_, rfl⟩))))
  apply ((((linked.storePml4t apart _).storePdpt apart directory _ _).storePdt apart
    directory _).storePt apart (.inr ⟨_, rfl⟩))
  · decide
  · decide
  · decide
  · exact .inr (ThreadPagetables.masked_ne
      (ThreadPagetables.entry_address aligned below (by decide)).2 notNull)

theorem map4kbPageSmp {va pa : Nat} {flags : BitVec 64} (low : flags.toNat < 2 ^ 12)
    (notLarge : flags.getLsbD 7 = false) :
    kernel.Linked (kernel.map4kbPageSmp memory va pa flags) := by
  have directory : kernel.smpPdt ∈ kernel.pdts := .inr (.inl rfl)
  obtain ⟨aligned, below, notNull⟩ := apart.page kernel.smpPt (.inr (.inr (.inr (.inl rfl))))
  apply ((((linked.storePml4t apart low).storePdpt apart directory low notLarge).storePdt apart
    directory _).storePt apart (.inl rfl))
  exact .inr (ThreadPagetables.masked_ne (ThreadPagetables.entry_address aligned below low).2 notNull)

end Linked

/-- What the tables map, the kernel knows to be mapped. -/
theorem Linked.isFrameMappedKernel (linked : kernel.Linked memory) {va : Nat}
    (mapped : kernel.Mapped memory va) : kernel.isFrameMappedKernel memory va = true := by
  obtain ⟨t, walked⟩ := Option.isSome_iff_exists.mp mapped
  rw [Paging.walk] at walked
  split at walked
  · have here := Paging.present_of_walkFrom walked
    obtain ⟨address, notNull⟩ := linked.pml4t _ here
    rw [Paging.walkFrom, if_pos here, if_neg (by simp), address] at walked
    obtain ⟨below, walked, -⟩ := Option.map_eq_some_iff.mp walked
    have here := Paging.present_of_walkFrom walked
    obtain ⟨notLarge, directory, same, notNull'⟩ := linked.pdpt _ here
    rw [Paging.walkFrom_table here notLarge] at walked
    obtain ⟨below, walked, -⟩ := Option.map_eq_some_iff.mp walked
    have here := Paging.present_of_walkFrom walked
    have leads := linked.pdt _ directory _ here
    rw [KernelTables.isFrameMappedKernel, ThreadPagetables.pml4tIndex_eq,
      ThreadPagetables.pdptIndex_eq, ThreadPagetables.pdtIndex_eq, if_neg notNull]
    simp only [if_neg notNull', same]
    rw [if_neg]
    · split
      · rfl
      next notHuge =>
        rcases leads with isLarge | notNull''
        · exact absurd ((ThreadPagetables.and_pageHuge _).mpr isLarge) notHuge
        · exact bne_iff_ne.mpr notNull''
    · intro zero
      rw [zero] at here
      cases here
  · cases walked

end KernelTables

end SwagOS.Mem
