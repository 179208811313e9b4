import SwagOS.Mem.KernelPageTables.Built
import SwagOS.Mem.KernelPageTables.Transfer

/-!
# The walks of the kernel and of the processor

`is_frame_mapped_kernel` does not look at the last table, `is_frame_mapped_thread` goes on
from a null entry of a page directory, and `virtual_to_physical` tests its pointers after
`KERNEL_HH_START` was added.  Where an entry is null the last two read physical page 0
instead of a table, so what they answer depends on its contents.
-/

namespace SwagOS.Mem

open SwagOS.Lib ThreadPagetables

/-- Physical memory as the kernel reads it, through the first gigabyte at `KERNEL_HH_START`.
A pointer past that reads something else, or faults. -/
structure Window where
  memory : Paging.Tables
  beyond : Nat → Option (Nat → BitVec 64)

def unmapped : Nat × Nat := (2 ^ 64 - 1, 2 ^ 64 - 1)

namespace Window

variable (w : Window)

def read (table : Nat) : Option (Nat → BitVec 64) :=
  if table < 2 ^ 30 then some (w.memory table) else w.beyond table

/-- The part of `virtual_to_physical` from the entry of the page directory on. -/
def fromEntry (va : Nat) (e : BitVec 64) : Option (Nat × Nat) :=
  if e = 0#64 then some unmapped
  else if e &&& pageHuge ≠ 0#64 then some ((e &&& ptAddrMask).toNat, va &&& 0x1FFFFF)
  else
    let pt := e &&& ptAddrMask
    if (pt.toNat + kernelHhStart) % 2 ^ 64 = 0 then some unmapped
    else (w.read pt.toNat).map fun table =>
      ((table (ptIndex va) &&& ptAddrMask).toNat, va &&& 0xFFF)

def fromPointer (va : Nat) (e : BitVec 64) : Option (Nat × Nat) :=
  let pdt := e &&& ptAddrMask
  if (pdt.toNat + kernelHhStart) % 2 ^ 64 = 0 then some unmapped
  else (w.read pdt.toNat).bind fun table => w.fromEntry va (table (pdtIndex va))

/-- `virtual_to_physical`: the frame and the offset. -/
def virtualToPhysical (root va : Nat) : Option (Nat × Nat) :=
  let pdpt := w.memory root (pml4tIndex va) &&& ptAddrMask
  if (pdpt.toNat + kernelHhStart) % 2 ^ 64 = 0 then some unmapped
  else (w.read pdpt.toNat).bind fun table => w.fromPointer va (table (pdptIndex va))

end Window

theorem virtualToPhysical_readable (memory : Paging.Tables) (root va : Nat) :
    (Window.mk memory fun table => some (memory table)).virtualToPhysical root va =
      some (KernelTables.virtualToPhysical memory root va) := by
  have read : ∀ table, (Window.mk memory fun table => some (memory table)).read table =
      some (memory table) := by
    intro table
    rw [Window.read]
    split <;> rfl
  rw [Window.virtualToPhysical, KernelTables.virtualToPhysical]
  by_cases noPdpt : ((memory root (pml4tIndex va) &&& ptAddrMask).toNat + kernelHhStart) % 2 ^ 64 = 0
  · rw [if_pos noPdpt, if_pos noPdpt]
    rfl
  rw [if_neg noPdpt, if_neg noPdpt, read, Option.bind_some, Window.fromPointer]
  generalize memory (memory root (pml4tIndex va) &&& ptAddrMask).toNat (pdptIndex va) &&&
    ptAddrMask = pdt
  by_cases noPdt : (pdt.toNat + kernelHhStart) % 2 ^ 64 = 0
  · rw [if_pos noPdt, if_pos noPdt]
    rfl
  rw [if_neg noPdt, if_neg noPdt, read, Option.bind_some, Window.fromEntry]
  generalize memory pdt.toNat (pdtIndex va) = e
  by_cases null : e = 0#64
  · rw [if_pos null, if_pos null]
    rfl
  rw [if_neg null, if_neg null]
  by_cases huge : e &&& pageHuge ≠ 0#64
  · rw [if_pos huge, if_pos huge]
  rw [if_neg huge, if_neg huge]
  by_cases noPt : ((e &&& ptAddrMask).toNat + kernelHhStart) % 2 ^ 64 = 0
  · rw [if_pos noPt, if_pos noPt]
    rfl
  · rw [if_neg noPt, if_neg noPt, read]
    rfl

section Entry

variable {e : BitVec 64} {table : Nat}

theorem masked_eq (below : e.toNat < 2 ^ 52) : (e &&& ptAddrMask).toNat = Paging.address e := by
  rw [and_ptAddrMask, Paging.address]
  omega

theorem masked_points (points : Paging.Points e table) : (e &&& ptAddrMask).toNat = table :=
  (masked_eq points.below).trans points.address

theorem masked_aligned (e : BitVec 64) : (e &&& ptAddrMask).toNat % 2 ^ 12 = 0 := by
  rw [and_ptAddrMask]
  omega

theorem ne_null (present : Paging.present e = true) : e ≠ 0#64 := by
  rintro rfl
  cases present

theorem and_low_21 (va : Nat) : va &&& 0x1FFFFF = va % Paging.span 1 :=
  Nat.and_two_pow_sub_one_eq_mod va 21

theorem and_low_12 (va : Nat) : va &&& 0xFFF = va % Paging.span 0 :=
  Nat.and_two_pow_sub_one_eq_mod va 12

end Entry

section Conditions

variable (tables : Paging.Tables) (va root : Nat)

def Accepted : Prop := (Paging.pageFrom tables va 3 root).isSome = true → Paging.Canonical va

def TableHasPage : Prop := ∀ pd pt, Paging.directory tables va root = some pd →
  Paging.Points (tables pd (pdtIndex va)) pt → tables pt (ptIndex va) ≠ 0#64

/-- Where the entry of the page directory is null, the quadword of physical page 0 that is
read in place of the last entry is even. -/
def FirstPageEven : Prop := ∀ pd, Paging.directory tables va root = some pd →
  tables pd (pdtIndex va) = 0#64 → Paging.present (tables 0 (ptIndex va)) = false

/-- `virtual_to_physical` stops at an entry of a page directory: it is null, or with
`KERNEL_HH_START` it wraps around to null. -/
def StopsAt (e : BitVec 64) : Prop :=
  e = 0#64 ∨ Paging.large e = false ∧ (e &&& ptAddrMask).toNat = 2 ^ 31

/-- What `virtual_to_physical` needs of an address and of physical page 0. -/
structure Answered (w : Window) (root va : Nat) : Prop where
  accepted : Accepted w.memory va root
  tableHasPage : TableHasPage w.memory va root
  aligned : ∀ pd, Paging.directory w.memory va root = some pd →
    Paging.MapsLarge (w.memory pd (pdtIndex va)) →
      Paging.address (w.memory pd (pdtIndex va)) % hugePgSize = 0
  noPointers : w.memory root (pml4tIndex va) = 0#64 →
    (w.memory 0 (pdptIndex va) &&& ptAddrMask).toNat = 2 ^ 31 ∨
      ∃ table, w.read (w.memory 0 (pdptIndex va) &&& ptAddrMask).toNat = some table ∧
        StopsAt (table (pdtIndex va))
  noDirectory : ∀ pointers, Paging.Points (w.memory root (pml4tIndex va)) pointers →
    w.memory pointers (pdptIndex va) = 0#64 → StopsAt (w.memory 0 (pdtIndex va))

end Conditions

section VirtualToPhysical

variable {w : Window} {va root : Nat} {e : BitVec 64}

theorem wraps_iff {a : Nat} (below : a < 2 ^ 64) : (a + kernelHhStart) % 2 ^ 64 = 0 ↔ a = 2 ^ 31 := by
  rw [kernelHhStart]
  omega

theorem frame_ne_unmapped (e : BitVec 64) (offset : Nat) :
    ((e &&& ptAddrMask).toNat, offset) ≠ unmapped := by
  intro same
  have first : (e &&& ptAddrMask).toNat = 2 ^ 64 - 1 := congrArg Prod.fst same
  have aligned := masked_aligned e
  omega

theorem fromEntry_unmapped_iff : w.fromEntry va e = some unmapped ↔ StopsAt e := by
  rw [Window.fromEntry, StopsAt]
  by_cases null : e = 0#64
  · exact iff_of_true (if_pos null) (.inl null)
  rw [if_neg null, or_iff_right null]
  by_cases huge : Paging.large e = true
  · rw [if_pos ((and_pageHuge e).mpr huge), huge]
    refine iff_of_false ?_ fun both => Bool.noConfusion both.1
    intro same
    exact frame_ne_unmapped _ _ (Option.some.inj same)
  · rw [if_neg (mt (and_pageHuge e).mp huge)]
    have notHuge : Paging.large e = false := Bool.eq_false_of_not_eq_true huge
    by_cases wraps : (e &&& ptAddrMask).toNat = 2 ^ 31
    · exact iff_of_true (if_pos ((wraps_iff (BitVec.isLt _)).mpr wraps)) ⟨notHuge, wraps⟩
    · refine iff_of_false ?_ fun both => wraps both.2
      simp only
      rw [if_neg (mt (wraps_iff (BitVec.isLt _)).mp wraps)]
      intro same
      obtain ⟨table, -, same⟩ := Option.map_eq_some_iff.mp same
      exact frame_ne_unmapped _ _ same

theorem fromPointer_unmapped_iff : w.fromPointer va e = some unmapped ↔
    (e &&& ptAddrMask).toNat = 2 ^ 31 ∨
      ∃ table, w.read (e &&& ptAddrMask).toNat = some table ∧ StopsAt (table (pdtIndex va)) := by
  rw [Window.fromPointer]
  by_cases wraps : (e &&& ptAddrMask).toNat = 2 ^ 31
  · exact iff_of_true (if_pos ((wraps_iff (BitVec.isLt _)).mpr wraps)) (.inl wraps)
  · rw [if_neg (mt (wraps_iff (BitVec.isLt _)).mp wraps), or_iff_right wraps,
      Option.bind_eq_some_iff]
    simp only [fromEntry_unmapped_iff]

theorem read_points {table : Nat} (points : Paging.Points e table) (low : table < 2 ^ 30) :
    w.read (e &&& ptAddrMask).toNat = some (w.memory table) := by
  rw [masked_points points, Window.read, if_pos low]

theorem fromPointer_points {table : Nat} (points : Paging.Points e table) (low : table < 2 ^ 30) :
    w.fromPointer va e = w.fromEntry va (w.memory table (pdtIndex va)) := by
  have notWraps : (e &&& ptAddrMask).toNat ≠ 2 ^ 31 := by
    rw [masked_points points]
    omega
  rw [Window.fromPointer, if_neg (mt (wraps_iff (BitVec.isLt _)).mp notWraps),
    read_points points low, Option.bind_some]

theorem fromPointer_null : w.fromPointer va 0#64 = w.fromEntry va (w.memory 0 (pdtIndex va)) := by
  have zero : (0#64 &&& ptAddrMask).toNat = 0 := by decide
  rw [Window.fromPointer, zero, if_neg (by decide), Window.read, if_pos (by decide),
    Option.bind_some]

theorem virtualToPhysical_points {table : Nat}
    (points : Paging.Points (w.memory root (pml4tIndex va)) table) (low : table < 2 ^ 30) :
    w.virtualToPhysical root va = w.fromPointer va (w.memory table (pdptIndex va)) := by
  have notWraps : (w.memory root (pml4tIndex va) &&& ptAddrMask).toNat ≠ 2 ^ 31 := by
    rw [masked_points points]
    omega
  rw [Window.virtualToPhysical, if_neg (mt (wraps_iff (BitVec.isLt _)).mp notWraps),
    read_points points low, Option.bind_some]

theorem virtualToPhysical_null (null : w.memory root (pml4tIndex va) = 0#64) :
    w.virtualToPhysical root va = w.fromPointer va (w.memory 0 (pdptIndex va)) := by
  have zero : (0#64 &&& ptAddrMask).toNat = 0 := by decide
  rw [Window.virtualToPhysical, null, zero, if_neg (by decide), Window.read, if_pos (by decide),
    Option.bind_some]

theorem fromEntry_large (maps : Paging.MapsLarge e) :
    w.fromEntry va e = some (Paging.address e, va % Paging.span 1) := by
  rw [Window.fromEntry, if_neg (ne_null maps.present), if_pos ((and_pageHuge e).mpr maps.large),
    masked_eq maps.below, and_low_21]

theorem fromEntry_points {table : Nat} (points : Paging.Points e table) (low : table < 2 ^ 30) :
    w.fromEntry va e =
      some ((w.memory table (ptIndex va) &&& ptAddrMask).toNat, va % Paging.span 0) := by
  have notHuge : ¬e &&& pageHuge ≠ 0#64 := by
    rw [and_pageHuge, points.notLarge]
    exact Bool.false_ne_true
  have notWraps : (e &&& ptAddrMask).toNat ≠ 2 ^ 31 := by
    rw [masked_points points]
    omega
  rw [Window.fromEntry, if_neg (ne_null points.present), if_neg notHuge,
    if_neg (mt (wraps_iff (BitVec.isLt _)).mp notWraps), read_points points low, Option.map_some,
    and_low_12]

end VirtualToPhysical

section Walks

variable {layout : Paging.Layout} {w : Window} {tables : Paging.Tables} {va root pd : Nat}

theorem page_eq_none (nowhere : Paging.pageFrom tables va 3 root = none) :
    Paging.page tables va root = none := by
  rw [Paging.page, nowhere, ite_self]

theorem accepted_of_none (nowhere : Paging.pageFrom tables va 3 root = none) :
    Accepted tables va root := by
  rw [Accepted, nowhere]
  exact fun some => Bool.noConfusion some

theorem answered_noDirectory (nowhere : Paging.pageFrom w.memory va 3 root = none)
    (none : Paging.directory w.memory va root = none) :
    Answered w root va ↔
      (w.memory root (pml4tIndex va) = 0#64 →
        (w.memory 0 (pdptIndex va) &&& ptAddrMask).toNat = 2 ^ 31 ∨
          ∃ table, w.read (w.memory 0 (pdptIndex va) &&& ptAddrMask).toNat = some table ∧
            StopsAt (table (pdtIndex va))) ∧
      ∀ pointers, Paging.Points (w.memory root (pml4tIndex va)) pointers →
        w.memory pointers (pdptIndex va) = 0#64 → StopsAt (w.memory 0 (pdtIndex va)) := by
  constructor
  · intro answered
    exact ⟨answered.noPointers, answered.noDirectory⟩
  · rintro ⟨noPointers, noDirectory⟩
    constructor
    case accepted => exact accepted_of_none nowhere
    case tableHasPage =>
      intro pd pt found
      rw [none] at found
      cases found
    case aligned =>
      intro pd found
      rw [none] at found
      cases found
    case noPointers => exact noPointers
    case noDirectory => exact noDirectory

theorem answered_directory {pointers : Nat}
    (first : Paging.Points (w.memory root (pml4tIndex va)) pointers)
    (second : Paging.Points (w.memory pointers (pdptIndex va)) pd)
    (found : Paging.directory w.memory va root = some pd) :
    Answered w root va ↔ Accepted w.memory va root ∧
      (∀ pt, Paging.Points (w.memory pd (pdtIndex va)) pt → w.memory pt (ptIndex va) ≠ 0#64) ∧
      (Paging.MapsLarge (w.memory pd (pdtIndex va)) →
        Paging.address (w.memory pd (pdtIndex va)) % hugePgSize = 0) := by
  constructor
  · intro answered
    exact ⟨answered.accepted, fun pt => answered.tableHasPage pd pt found,
      answered.aligned pd found⟩
  · rintro ⟨accepted, hasPage, aligned⟩
    constructor
    case accepted => exact accepted
    case tableHasPage =>
      intro pd' pt found'
      cases found.symm.trans found'
      exact hasPage pt
    case aligned =>
      intro pd' found'
      cases found.symm.trans found'
      exact aligned
    case noPointers =>
      intro null
      exact absurd null (ne_null first.present)
    case noDirectory =>
      intro pointers' first' null
      have same : pointers = pointers' := first.address.symm.trans first'.address
      subst same
      exact absurd null (ne_null second.present)

theorem page_some_iff {frame : Nat × Nat} {e : BitVec 64} {offset : Nat}
    (reached : Paging.pageFrom tables va 3 root = some frame) :
    (some ((e &&& ptAddrMask).toNat, offset) = some ((Paging.page tables va root).getD unmapped) ↔
      Accepted tables va root ∧ ((e &&& ptAddrMask).toNat, offset) = frame) := by
  rw [Accepted, reached, Paging.page]
  by_cases canonical : Paging.Canonical va
  · rw [if_pos canonical, reached]
    constructor
    · intro same
      exact ⟨fun _ => canonical, Option.some.inj same⟩
    · rintro ⟨-, same⟩
      exact congrArg some same
  · rw [if_neg canonical]
    refine iff_of_false ?_ fun both => canonical (both.1 rfl)
    intro same
    exact frame_ne_unmapped _ _ (Option.some.inj same)

theorem span_div_mul {a level : Nat} (aligned : a % Paging.span level = 0) :
    a / Paging.span level * Paging.span level = a :=
  Nat.div_mul_cancel (Nat.dvd_of_mod_eq_zero aligned)

variable (formed : Paging.Formed layout w.memory) (isRoot : root ∈ layout 3)
  (inside : ∀ level, ∀ table ∈ layout level, table < 2 ^ 30)

include formed inside in
theorem fromEntry_iff (isDirectory : pd ∈ layout 1)
    (reached : Paging.pageFrom w.memory va 3 root = Paging.pageFrom w.memory va 1 pd) :
    w.fromEntry va (w.memory pd (pdtIndex va)) =
        some ((Paging.page w.memory va root).getD unmapped) ↔
      Accepted w.memory va root ∧
      (∀ pt, Paging.Points (w.memory pd (pdtIndex va)) pt → w.memory pt (ptIndex va) ≠ 0#64) ∧
      (Paging.MapsLarge (w.memory pd (pdtIndex va)) →
        Paging.address (w.memory pd (pdtIndex va)) % hugePgSize = 0) := by
  have huge : Paging.span 1 = hugePgSize := by decide
  rcases formed.lastWay isDirectory va with third | third | ⟨pt, third, isTable, last⟩ |
    ⟨pt, third, isTable, last⟩
  · rw [Paging.pageFrom_null third] at reached
    rw [pdtIndex_eq, third, page_eq_none reached]
    refine iff_of_true rfl ⟨accepted_of_none reached, ?_, ?_⟩
    · exact fun pt points => absurd rfl (ne_null points.present)
    · exact fun maps => absurd rfl (ne_null maps.present)
  · rw [Paging.pageFrom_large third, Paging.framed] at reached
    rw [pdtIndex_eq, fromEntry_large third, ← masked_eq third.below, page_some_iff reached,
      masked_eq third.below, Prod.mk.injEq, and_iff_left rfl]
    apply and_congr_right'
    constructor
    · intro same
      refine ⟨?_, fun _ => ?_⟩
      · intro pt points
        exact absurd (points.notLarge.symm.trans third.large) (by decide)
      · rw [← huge, same]
        exact Nat.mul_mod_left _ _
    · rintro ⟨-, aligned⟩
      rw [span_div_mul]
      rw [huge]
      exact aligned third
  · rw [Paging.pageFrom_points third, Paging.pageFrom_null last] at reached
    rw [pdtIndex_eq, fromEntry_points third (inside 0 pt isTable), page_eq_none reached]
    refine iff_of_false ?_ ?_
    · intro same
      exact frame_ne_unmapped _ _ (Option.some.inj same)
    · rintro ⟨-, hasPage, -⟩
      apply hasPage pt third
      rw [ptIndex_eq]
      exact last
  · rw [Paging.pageFrom_points third, Paging.pageFrom_page last, Paging.framed] at reached
    have whole : Paging.address (w.memory pt (Paging.index 0 va)) / Paging.span 0 *
        Paging.span 0 = Paging.address (w.memory pt (Paging.index 0 va)) := by
      apply span_div_mul
      rw [Paging.address, Paging.span]
      omega
    rw [pdtIndex_eq, fromEntry_points third (inside 0 pt isTable), page_some_iff reached,
      ptIndex_eq, masked_eq last.below, whole]
    apply and_congr_right'
    refine iff_of_true rfl ⟨?_, ?_⟩
    · intro pt' points
      have same : pt = pt' := third.address.symm.trans points.address
      subst same
      exact ne_null last.present
    · intro maps
      exact absurd (third.notLarge.symm.trans maps.large) (by decide)

include formed isRoot inside

/-- `virtual_to_physical` and the processor agree exactly if it is asked about such an
address. -/
theorem virtualToPhysical_iff (va : Nat) :
    w.virtualToPhysical root va = some ((Paging.page w.memory va root).getD unmapped) ↔
      Answered w root va := by
  rcases formed.way isRoot va with first | ⟨pointers, first, isTable, second⟩ |
    ⟨pointers, pd, first, isTable, second, isDirectory⟩
  · have nowhere := Paging.pageFrom_null first
    have none := Paging.directory_noPointers first
    rw [← pml4tIndex_eq] at first
    rw [virtualToPhysical_null first, page_eq_none nowhere, answered_noDirectory nowhere none]
    refine fromPointer_unmapped_iff.trans ?_
    constructor
    · intro stops
      refine ⟨fun _ => stops, ?_⟩
      intro pointers points
      exact absurd first (ne_null points.present)
    · exact fun both => both.1 first
  · have nowhere : Paging.pageFrom w.memory va 3 root = none :=
      (Paging.pageFrom_points first).trans (Paging.pageFrom_null second)
    have none := Paging.directory_noDirectory first second
    rw [← pml4tIndex_eq] at first
    rw [← pdptIndex_eq] at second
    rw [virtualToPhysical_points first (inside 2 pointers isTable), second, fromPointer_null,
      page_eq_none nowhere, answered_noDirectory nowhere none]
    refine fromEntry_unmapped_iff.trans ?_
    constructor
    · intro stops
      exact ⟨fun null => absurd null (ne_null first.present), fun _ _ _ => stops⟩
    · exact fun both => both.2 pointers first second
  · have reached : Paging.pageFrom w.memory va 3 root = Paging.pageFrom w.memory va 1 pd :=
      (Paging.pageFrom_points first).trans (Paging.pageFrom_points second)
    have found := Paging.directory_eq first second
    rw [← pml4tIndex_eq] at first
    rw [← pdptIndex_eq] at second
    rw [virtualToPhysical_points first (inside 2 pointers isTable),
      fromPointer_points second (inside 1 pd isDirectory), answered_directory first second found]
    exact fromEntry_iff formed inside isDirectory reached

end Walks

section Mapped

variable {tables memory : Paging.Tables} {va root pd : Nat} {answer : Bool}

theorem agree_of_none (nowhere : Paging.pageFrom tables va 3 root = none) :
    (answer = true ↔ (Paging.walk tables va root).isSome = true) ↔ answer = false := by
  rw [Paging.walk_isSome_iff, nowhere]
  cases answer <;> simp

/-- Where the entries lead to a page, the answer yes is right for canonical addresses. -/
theorem agree_of_some {page : Nat × Nat} (reached : Paging.pageFrom tables va 3 root = some page) :
    (true = true ↔ (Paging.walk tables va root).isSome = true) ↔ Accepted tables va root := by
  rw [Paging.walk_isSome_iff, Accepted, reached]
  simp

theorem masked_null : 0#64 &&& ptAddrMask = 0#64 := BitVec.zero_and

theorem masked_ne_null {e : BitVec 64} {table : Nat} (points : Paging.Points e table)
    (notNull : table ≠ 0) : e &&& ptAddrMask ≠ 0#64 := masked_ne (masked_points points) notNull

theorem tableHasPage_of_none (none : Paging.directory tables va root = none) :
    TableHasPage tables va root := by
  intro pd pt found
  rw [none] at found
  cases found

theorem firstPageEven_of_none (none : Paging.directory tables va root = none) :
    FirstPageEven tables va root := by
  intro pd found
  rw [none] at found
  cases found

theorem tableHasPage_iff (found : Paging.directory tables va root = some pd) :
    TableHasPage tables va root ↔
      ∀ pt, Paging.Points (tables pd (pdtIndex va)) pt → tables pt (ptIndex va) ≠ 0#64 := by
  constructor
  · exact fun hasPage pt => hasPage pd pt found
  · intro hasPage pd' pt found'
    cases found.symm.trans found'
    exact hasPage pt

theorem firstPageEven_iff (found : Paging.directory tables va root = some pd) :
    FirstPageEven tables va root ↔ (tables pd (pdtIndex va) = 0#64 →
      Paging.present (tables 0 (ptIndex va)) = false) := by
  constructor
  · exact fun even => even pd found
  · intro even pd' found'
    cases found.symm.trans found'
    exact even

theorem isFrameMappedKernel_directory {kernel : KernelTables} (apart : kernel.Apart)
    (first : Paging.Points (memory kernel.pml4t (pml4tIndex va)) kernel.pdpt)
    (second : Paging.Points (memory kernel.pdpt (pdptIndex va)) pd)
    (isDirectory : pd ∈ kernel.layout 1) :
    kernel.isFrameMappedKernel memory va =
      if memory pd (pdtIndex va) = 0#64 then false
      else if memory pd (pdtIndex va) &&& pageHuge ≠ 0#64 then true
      else memory pd (pdtIndex va) &&& ptAddrMask != 0#64 := by
  have pdpt := (KernelTables.layout_page apart 2 rfl).2.2
  have directory := (KernelTables.layout_page apart 1 isDirectory).2.2
  rw [KernelTables.isFrameMappedKernel, if_neg (masked_ne_null first pdpt)]
  simp only [if_neg (masked_ne_null second directory), masked_points second]

theorem kernelTest_points {e : BitVec 64} {table : Nat} (points : Paging.Points e table)
    (notNull : table ≠ 0) :
    (if e = 0#64 then false else if e &&& pageHuge ≠ 0#64 then true else e &&& ptAddrMask != 0#64) =
      true := by
  have notHuge : ¬e &&& pageHuge ≠ 0#64 := by
    rw [and_pageHuge, points.notLarge]
    exact Bool.false_ne_true
  rw [if_neg (ne_null points.present), if_neg notHuge]
  exact bne_iff_ne.mpr (masked_ne_null points notNull)

/-- `is_frame_mapped_kernel` and the processor agree exactly if the last table, where there
is one, has the page. -/
theorem isFrameMappedKernel_iff {kernel : KernelTables} (apart : kernel.Apart)
    (formed : Paging.Formed kernel.layout memory) (va : Nat) :
    (kernel.isFrameMappedKernel memory va = true ↔
        (Paging.walk memory va kernel.pml4t).isSome = true) ↔
      Accepted memory va kernel.pml4t ∧ TableHasPage memory va kernel.pml4t := by
  have isRoot : kernel.pml4t ∈ kernel.layout 3 := rfl
  rcases formed.way isRoot va with first |
    ⟨pointers, first, isTable, second⟩ | ⟨pointers, pd, first, isTable, second, isDirectory⟩
  · have nowhere := Paging.pageFrom_null first
    have no : kernel.isFrameMappedKernel memory va = false := by
      rw [KernelTables.isFrameMappedKernel, pml4tIndex_eq, first, if_pos masked_null]
    exact iff_of_true ((agree_of_none nowhere).mpr no)
      ⟨accepted_of_none nowhere, tableHasPage_of_none (Paging.directory_noPointers first)⟩
  · have nowhere : Paging.pageFrom memory va 3 kernel.pml4t = none :=
      (Paging.pageFrom_points first).trans (Paging.pageFrom_null second)
    have isPdpt : pointers = kernel.pdpt := isTable
    subst isPdpt
    have no : kernel.isFrameMappedKernel memory va = false := by
      rw [KernelTables.isFrameMappedKernel, pdptIndex_eq, second]
      simp only [masked_null, if_true, ite_self]
    exact iff_of_true ((agree_of_none nowhere).mpr no)
      ⟨accepted_of_none nowhere, tableHasPage_of_none (Paging.directory_noDirectory first second)⟩
  · have reached : Paging.pageFrom memory va 3 kernel.pml4t = Paging.pageFrom memory va 1 pd :=
      (Paging.pageFrom_points first).trans (Paging.pageFrom_points second)
    have found := Paging.directory_eq first second
    have isPdpt : pointers = kernel.pdpt := isTable
    subst isPdpt
    rw [← pml4tIndex_eq] at first
    rw [← pdptIndex_eq] at second
    rw [isFrameMappedKernel_directory apart first second isDirectory, tableHasPage_iff found,
      pdtIndex_eq, ptIndex_eq]
    rcases formed.lastWay isDirectory va with third | third | ⟨pt, third, isPt, last⟩ |
      ⟨pt, third, isPt, last⟩
    · rw [Paging.pageFrom_null third] at reached
      rw [if_pos third]
      refine iff_of_true ((agree_of_none reached).mpr rfl) ⟨accepted_of_none reached, ?_⟩
      exact fun pt points => absurd third (ne_null points.present)
    · rw [Paging.pageFrom_large third] at reached
      rw [if_neg (ne_null third.present), if_pos ((and_pageHuge _).mpr third.large),
        agree_of_some reached]
      refine (and_iff_left ?_).symm
      intro pt points
      exact absurd (points.notLarge.symm.trans third.large) (by decide)
    · rw [Paging.pageFrom_points third, Paging.pageFrom_null last] at reached
      rw [kernelTest_points third (KernelTables.layout_page apart 0 isPt).2.2, agree_of_none reached]
      exact iff_of_false (by decide) fun both => both.2 pt third last
    · rw [Paging.pageFrom_points third, Paging.pageFrom_page last] at reached
      rw [kernelTest_points third (KernelTables.layout_page apart 0 isPt).2.2, agree_of_some reached]
      refine (and_iff_left ?_).symm
      intro pt' points
      have same : pt = pt' := third.address.symm.trans points.address
      subst same
      exact ne_null last.present

section Thread

variable {base : Nat} {view : View} {pgdir : ThreadPagetables}

/-- `is_frame_mapped_thread` from the entry of the page directory on. -/
theorem isFrameMappedThread_directory {pointers : Nat}
    (first : Paging.Points (pgdir.tableAt base view base (pml4tIndex va)) pointers)
    (second : Paging.Points (pgdir.tableAt base view pointers (pdptIndex va)) pd)
    (notNull : pointers ≠ 0) (notNull' : pd ≠ 0) :
    pgdir.isFrameMappedThread base view va =
      if pgdir.tableAt base view pd (pdtIndex va) &&& pageHuge ≠ 0#64 then true
      else
        pgdir.tableAt base view (pgdir.tableAt base view pd (pdtIndex va) &&& ptAddrMask).toNat
          (ptIndex va) &&& 1#64 != 0#64 := by
  rw [tableAt_pml4t] at first
  rw [isFrameMappedThread, if_neg (masked_ne_null first notNull), masked_points first]
  simp only [if_neg (masked_ne_null second notNull'), masked_points second]

theorem presentBit (e : BitVec 64) : (e &&& 1#64 != 0#64) = Paging.present e := by
  apply Bool.eq_iff_iff.mpr
  rw [bne_iff_ne, and_pagePresent]

/-- `is_frame_mapped_thread` and the processor agree exactly if physical page 0 has an even
quadword where the entry of the page directory is null. -/
theorem isFrameMappedThread_iff (placed : Placed base)
    (formed : Paging.Formed (layout base) (pgdir.tableAt base view)) (va : Nat) :
    (pgdir.isFrameMappedThread base view va = true ↔
        (Paging.walk (pgdir.tableAt base view) va base).isSome = true) ↔
      Accepted (pgdir.tableAt base view) va base ∧
        FirstPageEven (pgdir.tableAt base view) va base := by
  have isRoot : base ∈ layout base 3 := rfl
  rcases formed.way isRoot va with first | ⟨pointers, first, isTable, second⟩ |
    ⟨pointers, pd, first, isTable, second, isDirectory⟩
  · have nowhere := Paging.pageFrom_null first
    have no : pgdir.isFrameMappedThread base view va = false := by
      rw [tableAt_pml4t, ← pml4tIndex_eq] at first
      rw [isFrameMappedThread, first, if_pos masked_null]
    exact iff_of_true ((agree_of_none nowhere).mpr no)
      ⟨accepted_of_none nowhere, firstPageEven_of_none (Paging.directory_noPointers first)⟩
  · have nowhere : Paging.pageFrom (pgdir.tableAt base view) va 3 base = none :=
      (Paging.pageFrom_points first).trans (Paging.pageFrom_null second)
    have none := Paging.directory_noDirectory first second
    have no : pgdir.isFrameMappedThread base view va = false := by
      rw [tableAt_pml4t, ← pml4tIndex_eq] at first
      rw [← pdptIndex_eq] at second
      rw [isFrameMappedThread, if_neg (masked_ne_null first (layout_inside placed isTable).2),
        masked_points first, second]
      exact if_pos masked_null
    exact iff_of_true ((agree_of_none nowhere).mpr no)
      ⟨accepted_of_none nowhere, firstPageEven_of_none none⟩
  · have reached : Paging.pageFrom (pgdir.tableAt base view) va 3 base =
        Paging.pageFrom (pgdir.tableAt base view) va 1 pd :=
      (Paging.pageFrom_points first).trans (Paging.pageFrom_points second)
    have found := Paging.directory_eq first second
    rw [← pml4tIndex_eq] at first
    rw [← pdptIndex_eq] at second
    rw [isFrameMappedThread_directory first second (layout_inside placed isTable).2
      (layout_inside placed isDirectory).2, firstPageEven_iff found, presentBit, pdtIndex_eq,
      ptIndex_eq]
    rcases formed.lastWay isDirectory va with third | third | ⟨pt, third, isPt, last⟩ |
      ⟨pt, third, isPt, last⟩
    · rw [Paging.pageFrom_null third] at reached
      have zero : (0#64 &&& ptAddrMask).toNat = 0 := by decide
      rw [third, if_neg (by decide), zero, agree_of_none reached]
      constructor
      · exact fun no => ⟨accepted_of_none reached, fun _ => no⟩
      · exact fun both => both.2 rfl
    · rw [Paging.pageFrom_large third] at reached
      rw [if_pos ((and_pageHuge _).mpr third.large), agree_of_some reached]
      exact (and_iff_left fun null => absurd null (ne_null third.present)).symm
    · rw [Paging.pageFrom_points third, Paging.pageFrom_null last] at reached
      have notHuge := mt (and_pageHuge _).mp (Bool.eq_false_iff.mp third.notLarge)
      rw [if_neg notHuge, masked_points third, last, agree_of_none reached]
      exact iff_of_true rfl
        ⟨accepted_of_none reached, fun null => absurd null (ne_null third.present)⟩
    · rw [Paging.pageFrom_points third, Paging.pageFrom_page last] at reached
      have notHuge := mt (and_pageHuge _).mp (Bool.eq_false_iff.mp third.notLarge)
      rw [if_neg notHuge, masked_points third, last.present, agree_of_some reached]
      exact (and_iff_left fun null => absurd null (ne_null third.present)).symm

end Thread

end Mapped

/-- The walks of the kernel over its own tables and over those of a process agree with those
of the processor. -/
structure WalkersAgree (kernel : KernelTables) (w : Window) (base : Nat)
    (pgdir : ThreadPagetables) (va : Nat) : Prop where
  kernelMapped : kernel.isFrameMappedKernel w.memory va = true ↔
    (Paging.walk w.memory va kernel.pml4t).isSome = true
  threadMapped :
    pgdir.isFrameMappedThread base ⟨w.memory, kernel.isFrameMappedKernel w.memory⟩ va = true ↔
      (Paging.walk w.memory va base).isSome = true
  kernelPhysical : w.virtualToPhysical kernel.pml4t va =
    some ((Paging.page w.memory va kernel.pml4t).getD unmapped)
  threadPhysical : w.virtualToPhysical base va =
    some ((Paging.page w.memory va base).getD unmapped)

structure WalkersAnswer (kernel : KernelTables) (w : Window) (base va : Nat) : Prop where
  kernel : Answered w kernel.pml4t va
  thread : Answered w base va
  even : FirstPageEven w.memory va base

/-- The walks agree exactly about addresses whose entries do not end in a table without the
page or in a large page off its boundary, and where physical page 0 stands for a null entry
and leads nowhere. -/
theorem walkersAgree_iff {kernel : KernelTables} {w : Window} {base va : Nat}
    {pgdir : ThreadPagetables} (apart : kernel.Apart) (inside : kernel.Inside)
    (placed : Placed base) (built : kernel.Built w.memory) (builtThread : Built base pgdir)
    (holds : pgdir.tableAt base ⟨w.memory, kernel.isFrameMappedKernel w.memory⟩ = w.memory) :
    WalkersAgree kernel w base pgdir va ↔ WalkersAnswer kernel w base va := by
  have formed := built.formed apart inside
  have formedThread := builtThread.formed placed
    ⟨w.memory, kernel.isFrameMappedKernel w.memory⟩
  have isRoot : kernel.pml4t ∈ kernel.layout 3 := rfl
  have isRootThread : base ∈ layout base 3 := rfl
  have insideThread : ∀ level, ∀ table ∈ layout base level, table < 2 ^ 30 :=
    fun level table isTable => (layout_inside placed isTable).1
  have kernelMapped := isFrameMappedKernel_iff apart formed va
  have threadMapped := isFrameMappedThread_iff placed formedThread va
  rw [holds] at formedThread threadMapped
  have kernelPhysical := virtualToPhysical_iff formed isRoot inside va
  have threadPhysical := virtualToPhysical_iff formedThread isRootThread insideThread va
  constructor
  · intro agree
    constructor
    case kernel => exact kernelPhysical.mp agree.kernelPhysical
    case thread => exact threadPhysical.mp agree.threadPhysical
    case even => exact (threadMapped.mp agree.threadMapped).2
  · intro answer
    constructor
    case kernelMapped =>
      exact kernelMapped.mpr ⟨answer.kernel.accepted, answer.kernel.tableHasPage⟩
    case threadMapped => exact threadMapped.mpr ⟨answer.thread.accepted, answer.even⟩
    case kernelPhysical => exact kernelPhysical.mpr answer.kernel
    case threadPhysical => exact threadPhysical.mpr answer.thread

theorem tableAt_eq_self {base : Nat} {view : View} {pgdir : ThreadPagetables}
    {memory : Paging.Tables} (mapped : Nat → Bool)
    (agree : ∀ address, base ≤ address → memory address = pgdir.tableAt base view address) :
    pgdir.tableAt base ⟨memory, mapped⟩ = memory := by
  funext address
  by_cases below : address < base
  · rw [tableAt, if_neg (by omega), if_neg (by rw [pdptPhys]; omega),
      if_neg (by rw [pdtPhys]; omega), if_neg (by rw [pdPhys]; omega)]
  · rw [tableAt]
    split_ifs with root pdpt pdt pd
    · rw [agree address (by omega), tableAt, if_pos root]
    · rw [agree address (by omega), tableAt, if_neg root, if_pos pdpt]
    · rw [agree address (by omega), tableAt, if_neg root, if_neg pdpt, if_pos pdt]
    · rw [agree address (by omega), tableAt, if_neg root, if_neg pdpt, if_neg pdt, if_pos pd]
    · rfl

namespace KernelTables

variable {kernel : KernelTables} {memory : Paging.Tables} {table : Nat}
  (notTable : ∀ level, table ∉ kernel.layout level)
include notTable

theorem boot_other : kernel.boot memory table = memory table := by
  have notRoot : table ≠ kernel.pml4t := notTable 3
  have notPdpt : table ≠ kernel.pdpt := notTable 2
  have notBoot : table ≠ kernel.bootPdt := fun same => notTable 1 (.inl same)
  have notBinary : table ≠ kernel.pdt .kernelBinary :=
    fun same => notTable 1 (.inr (.inr ⟨_, same⟩))
  rw [boot, higherHalfEntry, store_other notRoot, higherhalfStubentry,
    Function.update_of_ne notBinary, store_other notPdpt, store_other notRoot, pagetableSetup,
    Function.update_of_ne notBoot, store_other notPdpt, store_other notRoot]

theorem map4kbPageKernel_other {va pa : Nat} {type : PageAllocType} :
    kernel.map4kbPageKernel memory va pa type table = memory table := by
  have notRoot : table ≠ kernel.pml4t := notTable 3
  have notPdpt : table ≠ kernel.pdpt := notTable 2
  have notDirectory : table ≠ kernel.pdt type := fun same => notTable 1 (.inr (.inr ⟨_, same⟩))
  have notLast : table ≠ kernel.pt (pdtIndex va) := fun same => notTable 0 (.inr ⟨_, same⟩)
  rw [map4kbPageKernel, store_other notLast, store_other notDirectory, store_other notPdpt,
    store_other notRoot]

theorem unmap4kbPageKernel_other {va : Nat} :
    kernel.unmap4kbPageKernel memory va table = memory table :=
  store_other fun same => notTable 0 (.inr ⟨_, same⟩)

end KernelTables

/-- One quadword of physical page 0 is odd; there is nothing else. -/
def firstPage : View where
  memory := fun table i => if table = 0 ∧ i = 5 then 1#64 else 0#64
  frameMappedKernel := fun _ => false

def onePage : Outcome ThreadPagetables :=
  (create 0x900000).map4kbPageUser 0x900000 0x400000 0x700000 1 0

def bootedMemory (pgdir : ThreadPagetables) : Paging.Tables :=
  KernelTables.deviceKernel.boot (pgdir.tableAt 0x900000 firstPage)

def unmappedMemory (pgdir : ThreadPagetables) : Paging.Tables :=
  KernelTables.deviceKernel.unmap4kbPageKernel
    (KernelTables.deviceKernel.map4kbPageKernel (bootedMemory pgdir) 0x69000 0x800000 .temporary)
    0x69000

theorem deviceKernel_layout {level table : Nat}
    (isTable : table ∈ KernelTables.deviceKernel.layout level) :
    0x600000 ≤ table ∧ table < 0x80c000 := by
  match level, isTable with
  | 0, isLast =>
    have inside := KernelTables.deviceKernel_last isLast
    omega
  | 1, isDirectory =>
    have inside := KernelTables.deviceKernel_pdts isDirectory
    omega
  | 2, isPdpt =>
    have isPdpt : table = 0x601000 := isPdpt
    omega
  | 3, isRoot =>
    have isRoot : table = 0x600000 := isRoot
    omega
  | _ + 4, nowhere => exact False.elim nowhere

theorem deviceKernel_inside : KernelTables.deviceKernel.Inside := by
  intro level table isTable
  have inside := deviceKernel_layout isTable
  omega

theorem onePage_placed : Placed 0x900000 := by
  constructor <;> decide

theorem onePage_built {pgdir : ThreadPagetables} (done : onePage = .ok pgdir) :
    Built 0x900000 pgdir := by
  apply Built.map .create _ _ _ _ _ done
  all_goals decide

theorem notDeviceTable {address : Nat} (above : 0x900000 ≤ address) (level : Nat) :
    address ∉ KernelTables.deviceKernel.layout level := by
  intro isTable
  have inside := deviceKernel_layout isTable
  omega

theorem bootedMemory_built (pgdir : ThreadPagetables) :
    KernelTables.deviceKernel.Built (bootedMemory pgdir) := by
  apply KernelTables.Built.boot
  intro level table isTable
  have inside := deviceKernel_layout isTable
  funext i
  rw [tableAt, if_neg (by omega), if_neg (by rw [pdptPhys]; omega),
    if_neg (by rw [pdtPhys]; omega), if_neg (by rw [pdPhys]; omega)]
  exact if_neg fun both => by omega

theorem bootedMemory_holds (pgdir : ThreadPagetables) (mapped : Nat → Bool) :
    pgdir.tableAt 0x900000 ⟨bootedMemory pgdir, mapped⟩ = bootedMemory pgdir := by
  apply tableAt_eq_self
  intro address above
  exact KernelTables.boot_other (notDeviceTable above)

theorem unmappedMemory_holds (pgdir : ThreadPagetables) (mapped : Nat → Bool) :
    pgdir.tableAt 0x900000 ⟨unmappedMemory pgdir, mapped⟩ = unmappedMemory pgdir := by
  apply tableAt_eq_self
  intro address above
  have notTable := notDeviceTable above
  exact (KernelTables.unmap4kbPageKernel_other notTable).trans
    ((KernelTables.map4kbPageKernel_other notTable).trans (KernelTables.boot_other notTable))

/-- The comparisons of `WalkersAgree`. -/
def agreeAt (pgdir : ThreadPagetables) (va : Nat) : Bool :=
  let memory := bootedMemory pgdir
  let kernelMapped := KernelTables.deviceKernel.isFrameMappedKernel memory
  let w : Window := ⟨memory, fun _ => none⟩
  kernelMapped va = (Paging.walk memory va 0x600000).isSome ∧
    pgdir.isFrameMappedThread 0x900000 ⟨memory, kernelMapped⟩ va =
      (Paging.walk memory va 0x900000).isSome ∧
    w.virtualToPhysical 0x600000 va = some ((Paging.page memory va 0x600000).getD unmapped) ∧
    w.virtualToPhysical 0x900000 va = some ((Paging.page memory va 0x900000).getD unmapped)

theorem WalkersAgree.of_agreeAt {pgdir : ThreadPagetables} {va : Nat}
    (agree : agreeAt pgdir va = true) :
    WalkersAgree KernelTables.deviceKernel ⟨bootedMemory pgdir, fun _ => none⟩ 0x900000 pgdir va := by
  obtain ⟨kernelMapped, threadMapped, kernelPhysical, threadPhysical⟩ := of_decide_eq_true agree
  exact ⟨Bool.eq_iff_iff.mp kernelMapped, Bool.eq_iff_iff.mp threadMapped, kernelPhysical,
    threadPhysical⟩

/-- A page of the kernel binary is found in both tables, and a page of the process in its own. -/
theorem walkersAgree_iff_twoPages : ∃ pgdir, onePage = .ok pgdir ∧
    Paging.page (bootedMemory pgdir) 0xffffffff80123456 0x600000 = some (0, 0x123456) ∧
    Paging.page (bootedMemory pgdir) 0x400123 0x900000 = some (0x700000, 0x123) ∧
    ∀ va ∈ [0xffffffff80123456, 0x400123],
      WalkersAnswer KernelTables.deviceKernel ⟨bootedMemory pgdir, fun _ => none⟩ 0x900000 va := by
  obtain ⟨pgdir, done, passed⟩ := Outcome.of_test (by decide +kernel :
    onePage.test (fun pgdir => decide
      ((Paging.page (bootedMemory pgdir) 0xffffffff80123456 0x600000 = some (0, 0x123456) ∧
          Paging.page (bootedMemory pgdir) 0x400123 0x900000 = some (0x700000, 0x123)) ∧
        agreeAt pgdir 0xffffffff80123456 = true ∧ agreeAt pgdir 0x400123 = true)) = true)
  obtain ⟨⟨binary, process⟩, first, second⟩ := of_decide_eq_true passed
  refine ⟨pgdir, done, binary, process, fun va member => ?_⟩
  apply (walkersAgree_iff KernelTables.deviceKernel_apart deviceKernel_inside onePage_placed
    (bootedMemory_built pgdir) (onePage_built done) (bootedMemory_holds pgdir _)).mp
  rcases List.mem_pair.mp member with rfl | rfl
  · exact .of_agreeAt first
  · exact .of_agreeAt second

/-- A page that was unmapped counts as mapped and has frame 0; an address whose entry of the
page directory is null counts as mapped because of physical page 0. -/
theorem walkers_disagree : ∃ pgdir, onePage = .ok pgdir ∧ Built 0x900000 pgdir ∧
    KernelTables.deviceKernel.Built (unmappedMemory pgdir) ∧
    (∀ mapped, pgdir.tableAt 0x900000 ⟨unmappedMemory pgdir, mapped⟩ = unmappedMemory pgdir) ∧
    (KernelTables.deviceKernel.isFrameMappedKernel (unmappedMemory pgdir) 0x69000 = true ∧
      Paging.walk (unmappedMemory pgdir) 0x69000 0x600000 = none ∧
      (Window.mk (unmappedMemory pgdir) fun _ => none).virtualToPhysical 0x600000 0x69000 =
        some (0, 0)) ∧
    (pgdir.isFrameMappedThread 0x900000 ⟨unmappedMemory pgdir, fun _ => false⟩ 0x605000 = true ∧
      Paging.walk (unmappedMemory pgdir) 0x605000 0x900000 = none) ∧
    ¬WalkersAgree KernelTables.deviceKernel ⟨unmappedMemory pgdir, fun _ => none⟩ 0x900000 pgdir
      0x69000 := by
  obtain ⟨pgdir, done, passed⟩ := Outcome.of_test (by decide +kernel :
    onePage.test (fun pgdir => decide
      ((KernelTables.deviceKernel.isFrameMappedKernel (unmappedMemory pgdir) 0x69000 = true ∧
        Paging.walk (unmappedMemory pgdir) 0x69000 0x600000 = none ∧
        (Window.mk (unmappedMemory pgdir) fun _ => none).virtualToPhysical 0x600000 0x69000 =
          some (0, 0)) ∧
      (pgdir.isFrameMappedThread 0x900000 ⟨unmappedMemory pgdir, fun _ => false⟩ 0x605000 = true ∧
        Paging.walk (unmappedMemory pgdir) 0x605000 0x900000 = none))) = true)
  obtain ⟨unmapped, empty⟩ := of_decide_eq_true passed
  refine ⟨pgdir, done, onePage_built done, ?_, unmappedMemory_holds pgdir, unmapped, empty, ?_⟩
  · exact .unmap4kbPageKernel _ (.map4kbPageKernel _ _ _ (bootedMemory_built pgdir) (by decide)
      (by decide))
  · intro agree
    have walked := agree.kernelMapped.mp unmapped.1
    have none : Paging.walk (unmappedMemory pgdir) 0x69000 KernelTables.deviceKernel.pml4t = none :=
      unmapped.2.1
    rw [none] at walked
    cases walked

end SwagOS.Mem
