import SwagOS.Lib.Paging.Layout
import SwagOS.Mem.KernelPageTables.DirectMap

/-!
# The tables that the kernel builds

From boot on the tables of the kernel are written by `map_kernel_page` and its siblings only,
and those of a process by `uva_copy_kernel` and `map_4kb_page_user`.  Each of them writes
entries that fit the level of the table.
-/

namespace SwagOS.Mem

open SwagOS.Lib ThreadPagetables

section Entry

variable {a : Nat} {flags : BitVec 64} (aligned : a % 2 ^ 12 = 0) (below : a < 2 ^ 52)
  (low : flags.toNat < 2 ^ 12) (present : flags.getLsbD 0 = true)
include aligned below low present

theorem mapsPage_entry : Paging.MapsPage (entry a flags) where
  present := (entry_flag_eq aligned below low (by decide)).trans present
  below := by
    rw [entry_toNat aligned below low]
    omega

theorem mapsLarge_entry (large : flags.getLsbD 7 = true) : Paging.MapsLarge (entry a flags) where
  present := (mapsPage_entry aligned below low present).present
  large := (entry_flag_eq aligned below low (by decide)).trans large
  below := (mapsPage_entry aligned below low present).below

theorem points_entry (notLarge : flags.getLsbD 7 = false) : Paging.Points (entry a flags) a where
  present := (mapsPage_entry aligned below low present).present
  notLarge := (entry_flag_eq aligned below low (by decide)).trans notLarge
  address := (entry_address aligned below low).1
  below := (mapsPage_entry aligned below low present).below

end Entry

namespace KernelTables

variable (kernel : KernelTables) (memory : Paging.Tables)

def pagetableSetup : Paging.Tables :=
  let memory := store memory kernel.pml4t 0 (entry kernel.pdpt (pagePresent ||| pageWrite))
  let memory := store memory kernel.pdpt 0 (entry kernel.bootPdt (pagePresent ||| pageWrite))
  Function.update memory kernel.bootPdt fun i =>
    if i < 512 then entry (i * hugePgSize) (pagePresent ||| pageWrite ||| pageHuge)
    else memory kernel.bootPdt i

/-- `higher_half_entry`, which clears the lower half of the first entry. -/
def higherHalfEntry : Paging.Tables :=
  store memory kernel.pml4t 0 (memory kernel.pml4t 0 >>> 32 <<< 32)

def boot : Paging.Tables :=
  kernel.higherHalfEntry (kernel.higherhalfStubentry (kernel.pagetableSetup memory))

def unmap4kbPageKernel (va : Nat) : Paging.Tables :=
  store memory (kernel.pt (pdtIndex va)) (ptIndex va) 0#64

def layout : Paging.Layout
  | 0 => {table | table = kernel.smpPt ∨ ∃ i, table = kernel.pt i}
  | 1 => kernel.pdts
  | 2 => {table | table = kernel.pdpt}
  | 3 => {table | table = kernel.pml4t}
  | _ => {_table | False}

def Inside : Prop := ∀ level, ∀ table ∈ kernel.layout level, table < 2 ^ 30

/-- The tables that the functions of the kernel build, whatever else is in memory. -/
inductive Built : Paging.Tables → Prop where
  | boot {memory : Paging.Tables} :
      (∀ level, ∀ table ∈ kernel.layout level, memory table = fun _ => 0#64) →
      Built (kernel.boot memory)
  | mapKernelPage {memory : Paging.Tables} (va pa : Nat) (type : PageAllocType) :
      Built memory → pa % pgSize = 0 → pa < 2 ^ 52 →
      Built (kernel.mapKernelPage memory va pa type)
  | map4kbPageKernel {memory : Paging.Tables} (va pa : Nat) (type : PageAllocType) :
      Built memory → pa % pgSize = 0 → pa < 2 ^ 52 →
      Built (kernel.map4kbPageKernel memory va pa type)
  | map4kbPageSmp {memory : Paging.Tables} (va pa : Nat) (flags : BitVec 64) :
      Built memory → pa % pgSize = 0 → pa < 2 ^ 52 → flags.toNat < 2 ^ 12 →
      flags.getLsbD 0 = true → flags.getLsbD 7 = false →
      Built (kernel.map4kbPageSmp memory va pa flags)
  | unmap4kbPageKernel {memory : Paging.Tables} (va : Nat) :
      Built memory → Built (kernel.unmap4kbPageKernel memory va)

variable {kernel : KernelTables} {memory : Paging.Tables}

section Formed

variable (apart : kernel.Apart)
include apart

theorem layout_separate : kernel.layout.Separate := by
  intro level level' table isTable isTable'
  have directory : ∀ table ∈ kernel.pdts, table ≠ kernel.pml4t ∧ table ≠ kernel.pdpt :=
    apart.directories
  have last := apart.last
  have root := apart.root
  match level, level', isTable, isTable' with
  | 0, 0, _, _ => rfl
  | 0, 1, isLast, isDirectory => exact absurd isDirectory (last table isLast).2.2
  | 0, 2, isLast, isPdpt => exact absurd isPdpt (last table isLast).2.1
  | 0, 3, isLast, isRoot => exact absurd isRoot (last table isLast).1
  | 1, 0, isDirectory, isLast => exact absurd isDirectory (last table isLast).2.2
  | 1, 1, _, _ => rfl
  | 1, 2, isDirectory, isPdpt => exact absurd isPdpt (directory table isDirectory).2
  | 1, 3, isDirectory, isRoot => exact absurd isRoot (directory table isDirectory).1
  | 2, 0, isPdpt, isLast => exact absurd isPdpt (last table isLast).2.1
  | 2, 1, isPdpt, isDirectory => exact absurd isPdpt (directory table isDirectory).2
  | 2, 2, _, _ => rfl
  | 2, 3, isPdpt, isRoot => exact absurd (isRoot.symm.trans isPdpt) root
  | 3, 0, isRoot, isLast => exact absurd isRoot (last table isLast).1
  | 3, 1, isRoot, isDirectory => exact absurd isRoot (directory table isDirectory).1
  | 3, 2, isRoot, isPdpt => exact absurd (isRoot.symm.trans isPdpt) root
  | 3, 3, _, _ => rfl
  | _ + 4, _, nowhere, _ => exact False.elim nowhere
  | _, _ + 4, _, nowhere => exact False.elim nowhere

theorem layout_page {table : Nat} (level : Nat) (isTable : table ∈ kernel.layout level) :
    table % 2 ^ 12 = 0 ∧ table < 2 ^ 52 ∧ table ≠ 0 := by
  apply apart.page
  match level, isTable with
  | 0, .inl isSmp => exact .inr (.inr (.inr (.inl isSmp)))
  | 0, .inr isPt => exact .inr (.inr (.inr (.inr isPt)))
  | 1, isDirectory => exact .inl isDirectory
  | 2, isPdpt => exact .inr (.inl isPdpt)
  | 3, isRoot => exact .inr (.inr (.inl isRoot))
  | _ + 4, nowhere => exact False.elim nowhere

theorem fits_pointer {level table : Nat} {flags : BitVec 64} (isTable : table ∈ kernel.layout level)
    (low : flags.toNat < 2 ^ 12) (present : flags.getLsbD 0 = true)
    (notLarge : flags.getLsbD 7 = false) :
    Paging.Fits kernel.layout (level + 1) (entry table flags) := by
  obtain ⟨aligned, below, -⟩ := layout_page apart level isTable
  exact .inr (.inr ⟨table, isTable, points_entry aligned below low present notLarge⟩)

omit apart in
theorem fits_largePage {pa : Nat} {flags : BitVec 64} (aligned : pa % 2 ^ 12 = 0)
    (below : pa < 2 ^ 52) (low : flags.toNat < 2 ^ 12) (present : flags.getLsbD 0 = true)
    (large : flags.getLsbD 7 = true) :
    Paging.Fits kernel.layout 1 (entry pa flags) :=
  .inr (.inl ⟨rfl, mapsLarge_entry aligned below low present large⟩)

section Operations

variable {va pa : Nat} {type : PageAllocType} {flags : BitVec 64}
  (formed : Paging.Formed kernel.layout memory)
include formed

theorem formed_mapKernelPage (aligned : pa % pgSize = 0) (below : pa < 2 ^ 52) :
    Paging.Formed kernel.layout (kernel.mapKernelPage memory va pa type) := by
  have separate := layout_separate apart
  have directory : kernel.pdt type ∈ kernel.layout 1 := .inr (.inr ⟨type, rfl⟩)
  have flags : (pageFlags type).toNat < 2 ^ 12 ∧ (pageFlags type).getLsbD 0 = true ∧
      (pageFlags type).getLsbD 7 = true := by
    cases type <;> decide
  apply ((formed.store separate 3 rfl _ _).store separate 2 rfl _ _).store separate 1 directory
  · exact fits_largePage aligned below flags.1 flags.2.1 flags.2.2
  · exact fits_pointer apart rfl (by decide) (by decide) (by decide)
  · exact fits_pointer apart directory (by decide) (by decide) (by decide)

theorem formed_map4kbPageKernel (aligned : pa % pgSize = 0) (below : pa < 2 ^ 52) :
    Paging.Formed kernel.layout (kernel.map4kbPageKernel memory va pa type) := by
  have separate := layout_separate apart
  have directory : kernel.pdt type ∈ kernel.layout 1 := .inr (.inr ⟨type, rfl⟩)
  have last : kernel.pt (pdtIndex va) ∈ kernel.layout 0 := .inr ⟨_, rfl⟩
  apply (((formed.store separate 3 rfl _ _).store separate 2 rfl _ _).store separate 1 directory _
    _).store separate 0 last
  · exact .inr (mapsPage_entry aligned below (by decide) (by decide))
  · exact fits_pointer apart rfl (by decide) (by decide) (by decide)
  · exact fits_pointer apart directory (by decide) (by decide) (by decide)
  · exact fits_pointer apart last (by decide) (by decide) (by decide)

theorem formed_map4kbPageSmp (aligned : pa % pgSize = 0) (below : pa < 2 ^ 52)
    (low : flags.toNat < 2 ^ 12) (present : flags.getLsbD 0 = true)
    (notLarge : flags.getLsbD 7 = false) :
    Paging.Formed kernel.layout (kernel.map4kbPageSmp memory va pa flags) := by
  have separate := layout_separate apart
  have directory : kernel.smpPdt ∈ kernel.layout 1 := .inr (.inl rfl)
  have last : kernel.smpPt ∈ kernel.layout 0 := .inl rfl
  apply (((formed.store separate 3 rfl _ _).store separate 2 rfl _ _).store separate 1 directory _
    _).store separate 0 last
  · exact .inr (mapsPage_entry aligned below low present)
  · exact fits_pointer apart rfl low present notLarge
  · exact fits_pointer apart directory low present notLarge
  · exact fits_pointer apart last low present notLarge

theorem formed_unmap4kbPageKernel :
    Paging.Formed kernel.layout (kernel.unmap4kbPageKernel memory va) :=
  formed.store (layout_separate apart) 0 (.inr ⟨_, rfl⟩) _ (Paging.fits_null _ _)

theorem formed_window {table : Nat} (directory : table ∈ kernel.layout 1)
    (rest : Nat → BitVec 64) :
    Paging.Formed kernel.layout (Function.update memory table fun i =>
      if i < 512 then entry (i * hugePgSize) (pagePresent ||| pageWrite ||| pageHuge)
      else rest i) := by
  apply formed.update (layout_separate apart) 1 directory
  intro i inside
  rw [if_pos inside, hugePgSize]
  exact fits_largePage (by omega) (by omega) (by decide) (by decide) (by decide)

theorem formed_pagetableSetup :
    Paging.Formed kernel.layout (kernel.pagetableSetup memory) := by
  have separate := layout_separate apart
  have directory : kernel.bootPdt ∈ kernel.layout 1 := .inl rfl
  apply formed_window apart ((formed.store separate 3 rfl _ _).store separate 2 rfl _ _) directory
  · exact fits_pointer apart rfl (by decide) (by decide) (by decide)
  · exact fits_pointer apart directory (by decide) (by decide) (by decide)

theorem formed_higherhalfStubentry :
    Paging.Formed kernel.layout (kernel.higherhalfStubentry memory) := by
  have separate := layout_separate apart
  have directory : kernel.pdt .kernelBinary ∈ kernel.layout 1 := .inr (.inr ⟨_, rfl⟩)
  apply formed_window apart ((formed.store separate 3 rfl _ _).store separate 2 rfl _ _) directory
  · exact fits_pointer apart rfl (by decide) (by decide) (by decide)
  · exact fits_pointer apart directory (by decide) (by decide) (by decide)

end Operations

theorem formed_higherHalfEntry (inside : kernel.Inside)
    (formed : Paging.Formed kernel.layout memory)
    (first : memory kernel.pml4t 0 = entry kernel.pdpt kernelFlags) :
    Paging.Formed kernel.layout (kernel.higherHalfEntry memory) := by
  obtain ⟨aligned, below, -⟩ := apart.page kernel.pdpt (.inr (.inl rfl))
  have low : kernel.pdpt < 2 ^ 30 := inside 2 _ rfl
  have cleared : memory kernel.pml4t 0 >>> 32 <<< 32 = 0#64 := by
    apply BitVec.eq_of_toNat_eq
    have flags : kernelFlags.toNat = 3 := by decide
    rw [first, BitVec.toNat_shiftLeft, BitVec.toNat_ushiftRight,
      entry_toNat aligned below (by decide), flags, Nat.shiftRight_eq_div_pow, Nat.shiftLeft_eq,
      BitVec.toNat_ofNat]
    omega
  apply formed.store (layout_separate apart) 3 rfl
  rw [cleared]
  exact Paging.fits_null _ _

theorem formed_boot (inside : kernel.Inside)
    (null : ∀ level, ∀ table ∈ kernel.layout level, memory table = fun _ => 0#64) :
    Paging.Formed kernel.layout (kernel.boot memory) := by
  have empty : Paging.Formed kernel.layout memory := by
    intro level table isTable i _
    rw [null level table isTable]
    exact Paging.fits_null _ _
  apply formed_higherHalfEntry apart inside
    (formed_higherhalfStubentry apart (formed_pagetableSetup apart empty))
  have directory : kernel.bootPdt ∈ kernel.pdts := .inl rfl
  have notLast : (0 : Nat) ≠ pml4tIndex kernelHhStart := by decide
  rw [higherhalfStubentry, Function.update_of_ne (Ne.symm (directory_ne apart .kernelBinary).1),
    store_other apart.root, store, Function.update_self, Function.update_of_ne notLast,
    pagetableSetup, Function.update_of_ne (Ne.symm (apart.directories _ directory).1),
    store_other apart.root, store, Function.update_self, Function.update_self]
  rfl

/-- What the functions of the kernel build is formed. -/
theorem Built.formed (inside : kernel.Inside) (built : kernel.Built memory) :
    Paging.Formed kernel.layout memory := by
  induction built with
  | boot null => exact formed_boot apart inside null
  | mapKernelPage va pa type _ aligned below formed =>
    exact formed_mapKernelPage apart formed aligned below
  | map4kbPageKernel va pa type _ aligned below formed =>
    exact formed_map4kbPageKernel apart formed aligned below
  | map4kbPageSmp va pa flags _ aligned below low present notLarge formed =>
    exact formed_map4kbPageSmp apart formed aligned below low present notLarge
  | unmap4kbPageKernel va _ formed => exact formed_unmap4kbPageKernel apart formed

end Formed

end KernelTables

namespace ThreadPagetables

def layout (base : Nat) : Paging.Layout
  | 0 => {table | ∃ k < 512, table = pdPhys base k}
  | 1 => {table | ∃ j < 512, table = pdtPhys base j}
  | 2 => {table | table = pdptPhys base}
  | 3 => {table | table = base}
  | _ => {_table | False}

theorem layout_inside {base : Nat} (placed : Placed base) {level table : Nat}
    (isTable : table ∈ layout base level) : table < 2 ^ 30 ∧ table ≠ 0 := by
  have positive := placed.positive
  have low := placed.low
  match level, isTable with
  | 0, ⟨k, insideK, isPd⟩ =>
    rw [isPd, pdPhys]
    omega
  | 1, ⟨j, insideJ, isPdt⟩ =>
    rw [isPdt, pdtPhys]
    omega
  | 2, isPdpt =>
    have isPdpt : table = pdptPhys base := isPdpt
    rw [isPdpt, pdptPhys]
    omega
  | 3, isRoot =>
    have isRoot : table = base := isRoot
    omega
  | _ + 4, nowhere => exact False.elim nowhere

/-- What `uva_copy_kernel` and `map_4kb_page_user` build is formed. -/
theorem Built.formed {base : Nat} {pgdir : ThreadPagetables} (placed : Placed base)
    (built : Built base pgdir) (view : View) :
    Paging.Formed (layout base) (pgdir.tableAt base view) := by
  have shape := built.shape
  intro level table isTable i inside
  match level, isTable with
  | 3, isRoot =>
    obtain ⟨aligned, below, -⟩ := placed.pdpt
    have isRoot : table = base := isRoot
    rw [isRoot, tableAt_pml4t]
    rcases shape.pml4t i with null | supervisor | user
    · exact .inl null
    · rw [supervisor]
      exact .inr (.inr ⟨_, rfl, points_entry aligned below (by decide) (by decide) (by decide)⟩)
    · rw [user]
      exact .inr (.inr ⟨_, rfl, points_entry aligned below (by decide) (by decide) (by decide)⟩)
  | 2, isPdpt =>
    have isPdpt : table = pdptPhys base := isPdpt
    rw [isPdpt, tableAt_pdpt]
    rcases shape.pdpt i with null | supervisor | ⟨j, positive, insideJ, user⟩
    · exact .inl null
    · obtain ⟨aligned, below, -⟩ := placed.pdt (i := 0) (by decide)
      rw [supervisor]
      exact .inr (.inr ⟨_, ⟨0, by decide, rfl⟩,
        points_entry aligned below (by decide) (by decide) (by decide)⟩)
    · obtain ⟨aligned, below, -⟩ := placed.pdt insideJ
      rw [user]
      exact .inr (.inr ⟨_, ⟨j, insideJ, rfl⟩,
        points_entry aligned below (by decide) (by decide) (by decide)⟩)
  | 1, ⟨j, insideJ, isPdt⟩ =>
    rw [isPdt, tableAt_pdt _ _ insideJ]
    rcases Nat.eq_zero_or_pos j with rfl | positive
    · rw [shape.window i inside, hugePgSize]
      exact .inr (.inl ⟨rfl, mapsLarge_entry (by omega) (by omega) (by decide) (by decide)
        (by decide)⟩)
    · rcases shape.pdt j i positive with null | ⟨k, insideK, user⟩
      · exact .inl null
      · obtain ⟨aligned, below, -⟩ := placed.pd insideK
        rw [user]
        exact .inr (.inr ⟨_, ⟨k, insideK, rfl⟩,
          points_entry aligned below (by decide) (by decide) (by decide)⟩)
  | 0, ⟨k, insideK, isPd⟩ =>
    rw [isPd, tableAt_pd _ _ insideK]
    rcases shape.pd k i with null | ⟨frame, aligned, below, user⟩
    · exact .inl null
    · rw [user]
      exact .inr (mapsPage_entry aligned below (by decide) (by decide))
  | _ + 4, nowhere => exact False.elim nowhere

end ThreadPagetables

end SwagOS.Mem
