import SwagOS.Mem.KernelPageTables
import SwagOS.Mem.PageTables.Places
import SwagOS.Mem.PhysicalFrames.Safety

/-!
# Direct mappings of devices

The tables of ACPI, the APICs and the framebuffer are mapped at their physical addresses.
All of these mappings share one page directory, whichever entries of the `pml4t` and of the
`pdpt` their addresses have, so that only bits 29 to 21 of an address tell its page from
the others.
-/

namespace SwagOS.Mem.KernelTables

open SwagOS.Lib ThreadPagetables

def kernelHeapStart : Nat := 0xffffffff00000000

variable (kernel : KernelTables) (memory : Paging.Tables)

/-- The writes of `__higherhalf_stubentry` to the tables. -/
def higherhalfStubentry : Paging.Tables :=
  let memory := store memory kernel.pml4t (pml4tIndex kernelHhStart)
    (entry kernel.pdpt (pagePresent ||| pageWrite))
  let memory := store memory kernel.pdpt (pdptIndex kernelHhStart)
    (entry (kernel.pdt .kernelBinary) (pagePresent ||| pageWrite))
  Function.update memory (kernel.pdt .kernelBinary) fun i =>
    if i < 512 then entry (i * hugePgSize) (pagePresent ||| pageWrite ||| pageHuge)
    else memory (kernel.pdt .kernelBinary) i

def kheapInitPage (state : Paging.Tables × PhysicalMemoryManager) (i : Nat) :
    Outcome (Paging.Tables × PhysicalMemoryManager) := do
  if kernel.isFrameMappedKernel state.1
      (hugePgRoundDown (kernelHeapStart + i * hugePgSize + 1)) then
    throw (.panic "kheap_init() --> heap frame already mapped.\n")
  else
    let (freeFrame, pmm) ← state.2.physicalFrameRequest
    match freeFrame with
    | none =>
        throw (.panic
          "kheap_init() --> could not find free frame for kernel heap initialization.\n")
    | some freeFrame =>
        pure (kernel.mapKernelPage state.1 (hugePgRoundDown (kernelHeapStart + i * hugePgSize))
          freeFrame (if i ≥ 512 then .kernelHeap2 else .kernelHeap), pmm)

def kheapInit (pmm : PhysicalMemoryManager) : Outcome (Paging.Tables × PhysicalMemoryManager) :=
  (List.range 1024).foldlM kernel.kheapInitPage (memory, pmm)

/-- `map_kernel_page(a, a, ALLOC_TYPE_DM_IO)` for one address after the other. -/
def directMap (addresses : List Nat) : Paging.Tables :=
  addresses.foldl (fun memory a => kernel.mapKernelPage memory a a .dmIo) memory

def InWindow (va : Nat) : Prop := kernelHeapStart ≤ va ∧ va < kernelHhStart + 2 ^ 30

/-- The slots of the `pdpt` with the heap and the binary. -/
def windowSlot : PageAllocType → Option Nat
  | .kernelHeap => some 508
  | .kernelHeap2 => some 509
  | .kernelBinary => some 510
  | _ => none

/-- The kernel binary and the heap are mapped by large pages, to frames that the frame
manager knows. -/
structure WindowMapped : Prop where
  pml4t : memory kernel.pml4t 511 = entry kernel.pdpt kernelFlags
  pdpt : ∀ type slot, windowSlot type = some slot →
    memory kernel.pdpt slot = entry (kernel.pdt type) kernelFlags
  pdt : ∀ type slot, windowSlot type = some slot → ∀ i < 512, ∃ frame, frame % hugePgSize = 0 ∧
    frame < 2 ^ 36 ∧ memory (kernel.pdt type) i = entry frame windowFlags

variable {kernel : KernelTables} {memory : Paging.Tables} {va pa : Nat} {type : PageAllocType}

section Step

variable (apart : kernel.Apart)
include apart

theorem directory_ne (type : PageAllocType) :
    kernel.pdt type ≠ kernel.pml4t ∧ kernel.pdt type ≠ kernel.pdpt :=
  apart.directories _ (.inr (.inr ⟨type, rfl⟩))

theorem mapKernelPage_pml4t (memory : Paging.Tables) (va pa : Nat) (type : PageAllocType) :
    kernel.mapKernelPage memory va pa type kernel.pml4t =
      Function.update (memory kernel.pml4t) (pml4tIndex va) (entry kernel.pdpt kernelFlags) := by
  rw [mapKernelPage, store_other (Ne.symm (directory_ne apart type).1), store_other apart.root, store,
    Function.update_self]
  rfl

theorem mapKernelPage_pdpt (memory : Paging.Tables) (va pa : Nat) (type : PageAllocType) :
    kernel.mapKernelPage memory va pa type kernel.pdpt =
      Function.update (memory kernel.pdpt) (pdptIndex va) (entry (kernel.pdt type) kernelFlags) := by
  rw [mapKernelPage, store_other (Ne.symm (directory_ne apart type).2), store, Function.update_self,
    store_other (Ne.symm apart.root)]
  rfl

theorem mapKernelPage_pdt (memory : Paging.Tables) (va pa : Nat) (type : PageAllocType) :
    kernel.mapKernelPage memory va pa type (kernel.pdt type) =
      Function.update (memory (kernel.pdt type)) (pdtIndex va) (entry pa (pageFlags type)) := by
  rw [mapKernelPage, store, Function.update_self, store_other (directory_ne apart type).2,
    store_other (directory_ne apart type).1]

omit apart in
theorem mapKernelPage_other {table : Nat} (notRoot : table ≠ kernel.pml4t)
    (notPdpt : table ≠ kernel.pdpt) (notDirectory : table ≠ kernel.pdt type) :
    kernel.mapKernelPage memory va pa type table = memory table := by
  rw [mapKernelPage, store_other notDirectory, store_other notPdpt, store_other notRoot]

end Step

/-- The directory that `kheap_init` maps page `i` in. -/
def heapType (i : Nat) : PageAllocType := if i ≥ 512 then .kernelHeap2 else .kernelHeap

/-- The tables after some pages of the heap were mapped. -/
structure HeapMapped (kernel : KernelTables) (pages : Nat) (memory : Paging.Tables) : Prop where
  pml4t : memory kernel.pml4t 511 = entry kernel.pdpt kernelFlags
  pdpt : memory kernel.pdpt 510 = entry (kernel.pdt .kernelBinary) kernelFlags
  binary : ∀ i < 512, memory (kernel.pdt .kernelBinary) i = entry (i * hugePgSize) windowFlags
  slot : ∀ i < pages, memory kernel.pdpt (508 + i / 512) = entry (kernel.pdt (heapType i)) kernelFlags
  page : ∀ i < pages, ∃ frame, frame % hugePgSize = 0 ∧ frame < 2 ^ 36 ∧
    memory (kernel.pdt (heapType i)) (i % 512) = entry frame windowFlags

theorem heapPage_indices {i : Nat} (inside : i < 1024) :
    pml4tIndex (hugePgRoundDown (kernelHeapStart + i * hugePgSize)) = 511 ∧
      pdptIndex (hugePgRoundDown (kernelHeapStart + i * hugePgSize)) = 508 + i / 512 ∧
      pdtIndex (hugePgRoundDown (kernelHeapStart + i * hugePgSize)) = i % 512 := by
  have start : hugePgRoundDown (kernelHeapStart + i * hugePgSize) =
      kernelHeapStart + i * 2 ^ 21 := by
    rw [hugePgRoundDown, kernelHeapStart, hugePgSize]
    omega
  rw [start, pml4tIndex_eq, pdptIndex_eq, pdtIndex_eq, Paging.index, Paging.index, Paging.index,
    Paging.span, Paging.span, Paging.span, kernelHeapStart]
  omega

section Boot

variable (apart : kernel.Apart) (rows : Function.Injective kernel.pdt)
include apart rows

omit rows in
theorem heapMapped_stubentry (memory : Paging.Tables) :
    HeapMapped kernel 0 (kernel.higherhalfStubentry memory) := by
  obtain ⟨notRoot, notPdpt⟩ := directory_ne apart .kernelBinary
  have root : pml4tIndex kernelHhStart = 511 := by decide
  have window : pdptIndex kernelHhStart = 510 := by decide
  constructor
  case pml4t =>
    rw [higherhalfStubentry, Function.update_of_ne (Ne.symm notRoot), store_other apart.root, store,
      Function.update_self, root, Function.update_self]
    rfl
  case pdpt =>
    rw [higherhalfStubentry, Function.update_of_ne (Ne.symm notPdpt), store, Function.update_self,
      window, Function.update_self]
    rfl
  case binary =>
    intro i inside
    rw [higherhalfStubentry, Function.update_self, if_pos inside]
    rfl
  case slot => exact fun i none => absurd none (Nat.not_lt_zero i)
  case page => exact fun i none => absurd none (Nat.not_lt_zero i)

theorem HeapMapped.kheapInitPage {pages : Nat} {pmm pmm' : PhysicalMemoryManager}
    {next : Paging.Tables} (inside : pages < 1024) (mapped : HeapMapped kernel pages memory)
    (done : kernel.kheapInitPage (memory, pmm) pages = .ok (next, pmm')) :
    HeapMapped kernel (pages + 1) next := by
  rw [KernelTables.kheapInitPage] at done
  split at done
  · cases done
  obtain ⟨⟨frame, pmm₁⟩, requested, done⟩ := Outcome.bind_ok.mp done
  rcases physicalFrameRequest_ok requested with
    ⟨rfl, -⟩ | ⟨k, known, rfl, -, -, -⟩
  · cases done
  have isNext : kernel.mapKernelPage memory
      (hugePgRoundDown (kernelHeapStart + pages * hugePgSize)) (k * hugePgSize)
      (heapType pages) = next := by
    cases done
    rfl
  obtain ⟨root, slot, index⟩ := heapPage_indices inside
  have notBinary : kernel.pdt .kernelBinary ≠ kernel.pdt (heapType pages) := by
    apply rows.ne
    rw [heapType]
    split <;> decide
  obtain ⟨notRoot, notPdpt⟩ := directory_ne apart .kernelBinary
  subst isNext
  constructor
  case pml4t =>
    rw [mapKernelPage_pml4t apart, root, Function.update_self]
  case pdpt =>
    rw [mapKernelPage_pdpt apart, slot, Function.update_of_ne (by omega)]
    exact mapped.pdpt
  case binary =>
    rw [mapKernelPage_other notRoot notPdpt notBinary]
    exact mapped.binary
  case slot =>
    intro i before
    rw [mapKernelPage_pdpt apart, slot]
    by_cases same : i / 512 = pages / 512
    · have type : heapType i = heapType pages := by
        rw [heapType, heapType]
        congr 1
        apply propext
        omega
      rw [same, Function.update_self, type]
    · rw [Function.update_of_ne (by omega)]
      exact mapped.slot i (by omega)
  case page =>
    intro i before
    by_cases same : i = pages
    · subst same
      refine ⟨k * hugePgSize, Nat.mul_mod_left _ _, ?_, ?_⟩
      · rw [frameBound] at known
        rw [hugePgSize]
        omega
      · rw [mapKernelPage_pdt apart, index, Function.update_self]
        rw [heapType]
        split <;> rfl
    · obtain ⟨frame, aligned, below, here⟩ := mapped.page i (by omega)
      refine ⟨frame, aligned, below, ?_⟩
      by_cases directory : heapType i = heapType pages
      · have other : i % 512 ≠ pages % 512 := by
          rw [heapType, heapType] at directory
          split at directory <;> split at directory
          · omega
          · cases directory
          · cases directory
          · omega
        rw [directory, mapKernelPage_pdt apart, index, Function.update_of_ne other, ← directory]
        exact here
      · obtain ⟨notRoot', notPdpt'⟩ := directory_ne apart (heapType i)
        rw [mapKernelPage_other notRoot' notPdpt' (rows.ne directory)]
        exact here

theorem heapMapped_kheapInit {pmm pmm' : PhysicalMemoryManager} {next : Paging.Tables}
    (pages : Nat) (inside : pages ≤ 1024) (mapped : HeapMapped kernel 0 memory)
    (done : (List.range pages).foldlM kernel.kheapInitPage (memory, pmm) = .ok (next, pmm')) :
    HeapMapped kernel pages next := by
  induction pages generalizing next pmm' with
  | zero =>
    cases done
    exact mapped
  | succ pages inductionHypothesis =>
    rw [List.range_succ, List.foldlM_append] at done
    obtain ⟨⟨between, pmm₁⟩, first, done⟩ := Outcome.bind_ok.mp done
    rw [List.foldlM_cons] at done
    obtain ⟨⟨after, pmm₂⟩, step, done⟩ := Outcome.bind_ok.mp done
    cases done
    exact (inductionHypothesis (by omega) first).kheapInitPage apart rows inside step

theorem windowMapped_kheapInit {pmm pmm' : PhysicalMemoryManager} {next : Paging.Tables}
    (done : kernel.kheapInit (kernel.higherhalfStubentry memory) pmm = .ok (next, pmm')) :
    kernel.WindowMapped next := by
  rw [kheapInit] at done
  have mapped := heapMapped_kheapInit apart rows 1024 (by omega)
    (heapMapped_stubentry apart memory) done
  constructor
  case pml4t => exact mapped.pml4t
  case pdpt =>
    intro type slot isSlot
    cases type <;> cases isSlot
    · exact mapped.pdpt
    · have slot := mapped.slot 0 (by omega)
      rw [heapType, if_neg (by omega)] at slot
      exact slot
    · have slot := mapped.slot 512 (by omega)
      rw [heapType, if_pos le_rfl] at slot
      exact slot
  case pdt =>
    intro type slot isSlot i inside
    cases type <;> cases isSlot
    · refine ⟨i * hugePgSize, Nat.mul_mod_left _ _, ?_, mapped.binary i inside⟩
      rw [hugePgSize]
      omega
    · have page := mapped.page i (by omega)
      rw [heapType, if_neg (by omega), Nat.mod_eq_of_lt inside] at page
      exact page
    · have page := mapped.page (512 + i) (by omega)
      have index : (512 + i) % 512 = i := by omega
      rw [heapType, if_pos (by omega), index] at page
      exact page

end Boot

/-- The tables before and after a sequence of direct mappings.  An entry of the directory is
that of some address of the sequence with its index. -/
structure DirectMapped (kernel : KernelTables) (before : Paging.Tables) (addresses : List Nat)
    (after : Paging.Tables) : Prop where
  root : ∀ a ∈ addresses, after kernel.pml4t (pml4tIndex a) = entry kernel.pdpt kernelFlags
  pointer : ∀ a ∈ addresses,
    after kernel.pdpt (pdptIndex a) = entry (kernel.pdt .dmIo) kernelFlags
  page : ∀ a ∈ addresses, ∃ b ∈ addresses, pdtIndex b = pdtIndex a ∧
    after (kernel.pdt .dmIo) (pdtIndex a) = entry b (pageFlags .dmIo)
  pml4t : ∀ i, after kernel.pml4t i = entry kernel.pdpt kernelFlags ∨
    after kernel.pml4t i = before kernel.pml4t i
  pdpt : ∀ i, (∀ a ∈ addresses, pdptIndex a ≠ i) → after kernel.pdpt i = before kernel.pdpt i
  others : ∀ table, table ≠ kernel.pml4t → table ≠ kernel.pdpt → table ≠ kernel.pdt .dmIo →
    after table = before table

theorem DirectMapped.snoc {before after : Paging.Tables} {addresses : List Nat} {a : Nat}
    (apart : kernel.Apart) (mapped : DirectMapped kernel before addresses after) :
    DirectMapped kernel before (addresses ++ [a]) (kernel.mapKernelPage after a a .dmIo) := by
  have member : ∀ b, b ∈ addresses ++ [a] ↔ b ∈ addresses ∨ b = a := by
    intro b
    rw [List.mem_append, List.mem_singleton]
  constructor
  case root =>
    intro b isMember
    rw [mapKernelPage_pml4t apart]
    rcases (member b).mp isMember with earlier | rfl
    · rcases update_entry with new | old
      · exact new
      · exact old.trans (mapped.root b earlier)
    · exact Function.update_self _ _ _
  case pointer =>
    intro b isMember
    rw [mapKernelPage_pdpt apart]
    rcases (member b).mp isMember with earlier | rfl
    · rcases update_entry with new | old
      · exact new
      · exact old.trans (mapped.pointer b earlier)
    · exact Function.update_self _ _ _
  case page =>
    intro b isMember
    rw [mapKernelPage_pdt apart]
    by_cases same : pdtIndex b = pdtIndex a
    · refine ⟨a, (member a).mpr (.inr rfl), same.symm, ?_⟩
      rw [same, Function.update_self]
    · rw [Function.update_of_ne same]
      rcases (member b).mp isMember with earlier | rfl
      · obtain ⟨c, isMember, index, here⟩ := mapped.page b earlier
        exact ⟨c, (member c).mpr (.inl isMember), index, here⟩
      · exact absurd rfl same
  case pml4t =>
    intro i
    rw [mapKernelPage_pml4t apart]
    rcases update_entry with new | old
    · exact .inl new
    · rw [old]
      exact mapped.pml4t i
  case pdpt =>
    intro i other
    rw [mapKernelPage_pdpt apart,
      Function.update_of_ne (Ne.symm (other a ((member a).mpr (.inr rfl))))]
    exact mapped.pdpt i fun b earlier => other b ((member b).mpr (.inl earlier))
  case others =>
    intro table notRoot notPdpt notDirectory
    rw [mapKernelPage_other notRoot notPdpt notDirectory]
    exact mapped.others table notRoot notPdpt notDirectory

theorem directMapped (apart : kernel.Apart) (memory : Paging.Tables) (addresses : List Nat) :
    DirectMapped kernel memory addresses (kernel.directMap memory addresses) := by
  induction addresses using List.reverseRecOn with
  | nil =>
    constructor
    case root => exact fun a none => absurd none List.not_mem_nil
    case pointer => exact fun a none => absurd none List.not_mem_nil
    case page => exact fun a none => absurd none List.not_mem_nil
    case pml4t => exact fun i => .inr rfl
    case pdpt => exact fun i _ => rfl
    case others => exact fun table _ _ _ => rfl
  | append_singleton addresses a inductionHypothesis =>
    rw [directMap, List.foldl_append]
    exact inductionHypothesis.snoc apart

/-- Below entries of the kernel for a page directory only the directory counts. -/
theorem walk_directory {table : Nat} (apart : kernel.Apart)
    (isDirectory : table ∈ kernel.pdts) (canonical : Paging.Canonical va)
    (root : memory kernel.pml4t (pml4tIndex va) = entry kernel.pdpt kernelFlags)
    (pointer : memory kernel.pdpt (pdptIndex va) = entry table kernelFlags) :
    Paging.walk memory va kernel.pml4t =
      (Paging.walkFrom memory va 1 table).map fun t => { t with user := false } := by
  obtain ⟨aligned₁, below₁, -⟩ := apart.page kernel.pdpt (.inr (.inl rfl))
  obtain ⟨aligned₂, below₂, -⟩ := apart.page table (.inl isDirectory)
  rw [pml4tIndex_eq] at root
  rw [pdptIndex_eq] at pointer
  rw [Paging.walk, if_pos canonical, walkFrom_kernelFlags root aligned₁ below₁,
    walkFrom_kernelFlags pointer aligned₂ below₂, Option.map_map]
  rfl

theorem walkFrom_largePage {table frame : Nat} {flags : BitVec 64}
    (here : memory table (pdtIndex va) = entry frame flags) (aligned : frame % hugePgSize = 0)
    (below : frame < 2 ^ 52) (low : flags.toNat < 2 ^ 12) (present : flags.getLsbD 0 = true)
    (huge : flags.getLsbD 7 = true) :
    (Paging.walkFrom memory va 1 table).map Paging.Translation.physical =
      some (frame + va % hugePgSize) := by
  have aligned' : frame % 2 ^ 12 = 0 := by
    rw [hugePgSize] at aligned
    omega
  rw [pdtIndex_eq] at here
  have isPresent : Paging.present (entry frame flags) = true :=
    (entry_flag_eq aligned' below low (by decide)).trans present
  have isLarge : Paging.large (entry frame flags) = true :=
    (entry_flag_eq aligned' below low (by decide)).trans huge
  have span : Paging.span 1 = hugePgSize := by decide
  have whole : frame / hugePgSize * hugePgSize = frame :=
    Nat.div_mul_cancel (Nat.dvd_of_mod_eq_zero aligned)
  rw [Paging.walkFrom_large (by rw [here, isPresent]) (by rw [here, isLarge]) (by decide), here,
    Paging.leaf, (entry_address aligned' below low).1, span, whole]
  rfl

theorem walk_device {a : Nat} (apart : kernel.Apart) (canonical : Paging.Canonical va)
    (root : memory kernel.pml4t (pml4tIndex va) = entry kernel.pdpt kernelFlags)
    (pointer : memory kernel.pdpt (pdptIndex va) = entry (kernel.pdt .dmIo) kernelFlags)
    (here : memory (kernel.pdt .dmIo) (pdtIndex va) = entry a (pageFlags .dmIo))
    (aligned : a % hugePgSize = 0) (below : a < 2 ^ 52) :
    (Paging.walk memory va kernel.pml4t).map Paging.Translation.physical =
      some (a + va % hugePgSize) := by
  rw [walk_directory apart (.inr (.inr ⟨.dmIo, rfl⟩)) canonical root pointer, Option.map_map]
  exact walkFrom_largePage here aligned below (by decide) (by decide) (by decide)

theorem window_indices (inside : InWindow va) : Paging.Canonical va ∧ pml4tIndex va = 511 ∧
    ∃ type, windowSlot type = some (pdptIndex va) := by
  obtain ⟨above, below⟩ := inside
  rw [kernelHeapStart] at above
  rw [kernelHhStart] at below
  have root : pml4tIndex va = 511 := by
    rw [pml4tIndex_eq, Paging.index, Paging.span]
    omega
  have slot : pdptIndex va = 508 ∨ pdptIndex va = 509 ∨ pdptIndex va = 510 := by
    rw [pdptIndex_eq, Paging.index, Paging.span]
    omega
  refine ⟨by rw [Paging.Canonical]; omega, root, ?_⟩
  rcases slot with first | second | third
  · exact ⟨.kernelHeap, congrArg some first.symm⟩
  · exact ⟨.kernelHeap2, congrArg some second.symm⟩
  · exact ⟨.kernelBinary, congrArg some third.symm⟩

theorem windowSlot_inside {slot : Nat} (isSlot : windowSlot type = some slot) :
    508 ≤ slot ∧ slot ≤ 510 := by
  cases type <;> cases isSlot <;> decide

theorem exists_inWindow {slot i : Nat} (isSlot : windowSlot type = some slot) (inside : i < 512) :
    ∃ va, InWindow va ∧ pdptIndex va = slot ∧ pdtIndex va = i ∧ va % hugePgSize = 0 := by
  obtain ⟨atLeast, atMost⟩ := windowSlot_inside isSlot
  refine ⟨kernelHeapStart + (slot - 508) * 2 ^ 30 + i * 2 ^ 21, ?_, ?_, ?_, ?_⟩
  · rw [InWindow, kernelHeapStart, kernelHhStart]
    omega
  · rw [pdptIndex_eq, Paging.index, Paging.span, kernelHeapStart]
    omega
  · rw [pdtIndex_eq, Paging.index, Paging.span, kernelHeapStart]
    omega
  · rw [kernelHeapStart, hugePgSize]
    omega

/-- The kernel binary and the heap lie in frames that the frame manager knows. -/
theorem WindowMapped.walk (apart : kernel.Apart) (window : kernel.WindowMapped memory)
    (inside : InWindow va) : ∃ frame < 2 ^ 36,
      (Paging.walk memory va kernel.pml4t).map Paging.Translation.physical =
        some (frame + va % hugePgSize) := by
  obtain ⟨canonical, root, type, isSlot⟩ := window_indices inside
  have index : pdtIndex va < 512 := by
    rw [pdtIndex_eq, Paging.index]
    omega
  obtain ⟨frame, aligned, below, here⟩ := window.pdt type _ isSlot _ index
  refine ⟨frame, below, ?_⟩
  rw [walk_directory apart (.inr (.inr ⟨type, rfl⟩)) canonical (root ▸ window.pml4t)
    (window.pdpt type _ isSlot), Option.map_map]
  exact walkFrom_largePage here aligned (by omega) (by decide) (by decide) (by decide)

/-- After a sequence of direct mappings each address is translated to itself, and the kernel
binary and the heap are where they were. -/
structure Undisturbed (kernel : KernelTables) (memory : Paging.Tables) (addresses : List Nat) :
    Prop where
  device : ∀ a ∈ addresses,
    (Paging.walk (kernel.directMap memory addresses) a kernel.pml4t).map
      Paging.Translation.physical = some a
  window : ∀ va, InWindow va →
    Paging.walk (kernel.directMap memory addresses) va kernel.pml4t =
      Paging.walk memory va kernel.pml4t

/-- No two addresses have the same entry of the directory, and none has the slot of the
kernel in the `pdpt`. -/
structure OwnEntries (addresses : List Nat) : Prop where
  low : ∀ a ∈ addresses, a < 2 ^ 47
  directory : ∀ a ∈ addresses, ∀ b ∈ addresses, pdtIndex a = pdtIndex b → a = b
  pointer : ∀ a ∈ addresses, ∀ type, windowSlot type ≠ some (pdptIndex a)

section Disturbance

variable {addresses : List Nat} (apart : kernel.Apart) (rows : Function.Injective kernel.pdt)
  (window : kernel.WindowMapped memory) (aligned : ∀ a ∈ addresses, a % hugePgSize = 0)

namespace Undisturbed

variable (undisturbed : Undisturbed kernel memory addresses) {a b : Nat}
include undisturbed apart

omit apart in
/-- What is translated to itself is a physical and a virtual address. -/
theorem low (isMember : a ∈ addresses) : a < 2 ^ 47 := by
  obtain ⟨t, walked, same⟩ := Option.map_eq_some_iff.mp (undisturbed.device a isMember)
  obtain ⟨canonical, walked⟩ := Paging.walk_some walked
  have below : t.physical < 2 ^ 52 := Paging.walkFrom_physical_lt walked
  rw [Paging.Canonical] at canonical
  omega

include aligned

theorem entry_eq (isMember : a ∈ addresses) :
    kernel.directMap memory addresses (kernel.pdt .dmIo) (pdtIndex a) =
      entry a (pageFlags .dmIo) := by
  have mapped := directMapped apart memory addresses
  have low := undisturbed.low isMember
  obtain ⟨b, isMember', index, here⟩ := mapped.page a isMember
  have low' := undisturbed.low isMember'
  have physical := walk_device apart (.inl low) (mapped.root a isMember)
    (mapped.pointer a isMember) here (aligned b isMember') (by omega)
  rw [undisturbed.device a isMember, aligned a isMember] at physical
  cases physical
  exact here

theorem directory (isMember : a ∈ addresses) (isMember' : b ∈ addresses)
    (index : pdtIndex a = pdtIndex b) : a = b := by
  have low := undisturbed.low isMember
  have low' := undisturbed.low isMember'
  have first := undisturbed.entry_eq apart aligned isMember
  have second := undisturbed.entry_eq apart aligned isMember'
  rw [index, second] at first
  have physical : ∀ x ∈ addresses, x < 2 ^ 47 →
      Paging.address (entry x (pageFlags .dmIo)) = x := by
    intro x isAddress below
    have page := aligned x isAddress
    rw [hugePgSize] at page
    exact (entry_address (by omega) (by omega) (by decide)).1
  rw [← physical a isMember low, ← physical b isMember' low', first]

include window in
/-- An address in a slot of the kernel takes pages of the kernel away. -/
theorem pointer (isMember : a ∈ addresses) (type : PageAllocType) :
    windowSlot type ≠ some (pdptIndex a) := by
  intro isSlot
  have mapped := directMapped apart memory addresses
  have low := undisturbed.low isMember
  have index : pdtIndex a < 512 := by
    rw [pdtIndex_eq, Paging.index]
    omega
  obtain ⟨va, inside, slot, index', start⟩ := exists_inWindow isSlot index
  obtain ⟨canonical, root, -⟩ := window_indices inside
  have here : kernel.directMap memory addresses (kernel.pdt .dmIo) (pdtIndex va) =
      entry a (pageFlags .dmIo) := by
    rw [index']
    exact undisturbed.entry_eq apart aligned isMember
  have root' : kernel.directMap memory addresses kernel.pml4t (pml4tIndex va) =
      entry kernel.pdpt kernelFlags := by
    rw [root]
    rcases mapped.pml4t 511 with new | old
    · exact new
    · exact old.trans window.pml4t
  have after := walk_device apart canonical root' (slot ▸ mapped.pointer a isMember) here
    (aligned a isMember) (by omega)
  obtain ⟨frame, below, before⟩ := window.walk apart inside
  rw [undisturbed.window va inside, before] at after
  have same : frame + va % hugePgSize = a + va % hugePgSize := Option.some.inj after
  have high := windowSlot_inside isSlot
  rw [pdptIndex_eq, Paging.index, Paging.span] at high
  omega

end Undisturbed

include apart

theorem OwnEntries.device (own : OwnEntries addresses) {a : Nat} (isMember : a ∈ addresses)
    (page : a % hugePgSize = 0) :
    (Paging.walk (kernel.directMap memory addresses) a kernel.pml4t).map
      Paging.Translation.physical = some a := by
  have mapped := directMapped apart memory addresses
  have low := own.low a isMember
  obtain ⟨b, isMember', index, here⟩ := mapped.page a isMember
  have same : b = a := own.directory b isMember' a isMember index
  subst same
  rw [walk_device apart (.inl low) (mapped.root b isMember) (mapped.pointer b isMember) here page
    (by omega), page]
  rfl

include rows window in
theorem OwnEntries.windowKept (own : OwnEntries addresses) (inside : InWindow va) :
    Paging.walk (kernel.directMap memory addresses) va kernel.pml4t =
      Paging.walk memory va kernel.pml4t := by
  have mapped := directMapped apart memory addresses
  obtain ⟨canonical, root, type, isSlot⟩ := window_indices inside
  have isDirectory : kernel.pdt type ∈ kernel.pdts := .inr (.inr ⟨type, rfl⟩)
  have index : pdtIndex va < 512 := by
    rw [pdtIndex_eq, Paging.index]
    omega
  have before : memory kernel.pml4t (pml4tIndex va) = entry kernel.pdpt kernelFlags := by
    rw [root]
    exact window.pml4t
  have after : kernel.directMap memory addresses kernel.pml4t (pml4tIndex va) =
      entry kernel.pdpt kernelFlags := by
    rcases mapped.pml4t (pml4tIndex va) with new | old
    · exact new
    · exact old.trans before
  have slot : kernel.directMap memory addresses kernel.pdpt (pdptIndex va) =
      entry (kernel.pdt type) kernelFlags := by
    rw [mapped.pdpt (pdptIndex va)]
    · exact window.pdpt type _ isSlot
    · intro a isMember same
      exact own.pointer a isMember type (same ▸ isSlot)
  have notDevice : type ≠ .dmIo := by
    rintro rfl
    cases isSlot
  obtain ⟨notRoot, notPdpt⟩ := directory_ne apart type
  have directory := mapped.others (kernel.pdt type) notRoot notPdpt (rows.ne notDevice)
  obtain ⟨frame, aligned, below, here⟩ := window.pdt type _ isSlot _ index
  rw [pdtIndex_eq] at here
  rw [hugePgSize] at aligned
  obtain ⟨present, -, -, isLarge⟩ := entry_windowFlags (a := frame) (by omega) (by omega)
  have page : ∀ tables : Paging.Tables,
      tables (kernel.pdt type) (Paging.index 1 va) = entry frame windowFlags →
        Paging.walkFrom tables va 1 (kernel.pdt type) =
          some (Paging.leaf (entry frame windowFlags) 1 va) := by
    intro tables here
    rw [Paging.walkFrom_large (by rw [here, present]) (by rw [here, isLarge]) (by decide), here]
  rw [walk_directory apart isDirectory canonical after slot,
    walk_directory apart isDirectory canonical before (window.pdpt type _ isSlot),
    page memory here, page _ (by rw [directory, here])]

/-- Direct mappings of devices leave each other and the kernel alone exactly if their
addresses differ in bits 29 to 21 and keep off the slots of the kernel in the `pdpt`. -/
theorem directMap_undisturbed_iff (rows : Function.Injective kernel.pdt)
    (window : kernel.WindowMapped memory) (aligned : ∀ a ∈ addresses, a % hugePgSize = 0) :
    Undisturbed kernel memory addresses ↔ OwnEntries addresses := by
  constructor
  · intro undisturbed
    constructor
    case low => exact fun a isMember => undisturbed.low isMember
    case directory =>
      exact fun a isMember b isMember' => undisturbed.directory apart aligned isMember isMember'
    case pointer =>
      exact fun a isMember type => undisturbed.pointer apart window aligned isMember type
  · intro own
    constructor
    case device => exact fun a isMember => own.device apart isMember (aligned a isMember)
    case window => exact fun va inside => own.windowKept apart rows window inside

end Disturbance

def deviceKernel : KernelTables where
  pml4t := 0x600000
  pdpt := 0x601000
  pdt := fun type => 0x602000 + 0x1000 * type.ctorIdx
  bootPdt := 0x609000
  smpPdt := 0x60a000
  smpPt := 0x60b000
  pt := fun i => 0x60c000 + 0x1000 * (i % 512)

def deviceMemory : Paging.Tables := fun table i =>
  if table = 0x600000 then if i = 511 then entry 0x601000 kernelFlags else 0#64
  else if table = 0x601000 then
    if i = 508 then entry 0x603000 kernelFlags
    else if i = 509 then entry 0x604000 kernelFlags
    else if i = 510 then entry 0x602000 kernelFlags else 0#64
  else if table = 0x602000 then entry (i * hugePgSize) windowFlags
  else if table = 0x603000 then entry ((512 + i) * hugePgSize) windowFlags
  else if table = 0x604000 then entry ((1024 + i) * hugePgSize) windowFlags
  else 0#64

theorem deviceKernel_pdts {table : Nat} (directory : table ∈ deviceKernel.pdts) :
    0x602000 ≤ table ∧ table < 0x60b000 ∧ table % 0x1000 = 0 := by
  rcases directory with rfl | rfl | ⟨type, rfl⟩
  · decide
  · decide
  · cases type <;> decide

theorem deviceKernel_last {table : Nat}
    (last : table = deviceKernel.smpPt ∨ ∃ i, table = deviceKernel.pt i) :
    0x60b000 ≤ table ∧ table < 0x80c000 ∧ table % 0x1000 = 0 := by
  rcases last with rfl | ⟨i, rfl⟩
  · decide
  · simp only [deviceKernel]
    omega

theorem deviceKernel_apart : deviceKernel.Apart where
  page := by
    rintro table (directory | rfl | rfl | last)
    · have inside := deviceKernel_pdts directory
      omega
    · decide
    · decide
    · have inside := deviceKernel_last last
      omega
  root := by decide
  directories := by
    intro table directory
    have inside := deviceKernel_pdts directory
    change table ≠ 0x600000 ∧ table ≠ 0x601000
    omega
  last := by
    intro table last
    have above := deviceKernel_last last
    refine ⟨?_, ?_, ?_⟩
    · change table ≠ 0x600000
      omega
    · change table ≠ 0x601000
      omega
    · intro directory
      have below := deviceKernel_pdts directory
      omega

theorem deviceKernel_rows : Function.Injective deviceKernel.pdt := by
  intro type type' same
  cases type <;> cases type' <;> first | rfl | exact absurd same (by decide)

theorem deviceMemory_mapped : deviceKernel.WindowMapped deviceMemory where
  pml4t := rfl
  pdpt := by
    intro type slot isSlot
    cases type <;> cases isSlot <;> rfl
  pdt := by
    intro type slot isSlot i inside
    cases type <;> cases isSlot
    · refine ⟨i * hugePgSize, Nat.mul_mod_left _ _, ?_, rfl⟩
      rw [hugePgSize]
      omega
    · refine ⟨(512 + i) * hugePgSize, Nat.mul_mod_left _ _, ?_, rfl⟩
      rw [hugePgSize]
      omega
    · refine ⟨(1024 + i) * hugePgSize, Nat.mul_mod_left _ _, ?_, rfl⟩
      rw [hugePgSize]
      omega

theorem directMap_undisturbed_iff_apics :
    Undisturbed deviceKernel deviceMemory [0xFEC00000, 0xFEE00000] := by
  refine (directMap_undisturbed_iff deviceKernel_apart deviceKernel_rows deviceMemory_mapped
    (by decide)).mpr ?_
  constructor
  case low => decide
  case directory => decide
  case pointer =>
    intro a isMember type isSlot
    have high := windowSlot_inside isSlot
    rcases List.mem_pair.mp isMember with rfl | rfl
    · exact absurd high (by decide)
    · exact absurd high (by decide)

/-- A table of ACPI one gigabyte below the I/O APIC is reached no more. -/
theorem directMap_disturbs : [0xBEC00000, 0xFEC00000].Nodup ∧
    (∀ a ∈ [0xBEC00000, 0xFEC00000], a % hugePgSize = 0 ∧ ¬InWindow a) ∧
    deviceKernel.WindowMapped deviceMemory ∧
    (Paging.walk (deviceKernel.directMap deviceMemory [0xBEC00000, 0xFEC00000]) 0xBEC00000
      deviceKernel.pml4t).map Paging.Translation.physical = some 0xFEC00000 ∧
    ¬Undisturbed deviceKernel deviceMemory [0xBEC00000, 0xFEC00000] := by
  have walked : (Paging.walk (deviceKernel.directMap deviceMemory [0xBEC00000, 0xFEC00000])
      0xBEC00000 deviceKernel.pml4t).map Paging.Translation.physical = some 0xFEC00000 := by
    decide +kernel
  refine ⟨by decide, ?_, deviceMemory_mapped, walked, ?_⟩
  · intro a isMember
    rw [InWindow, kernelHeapStart]
    rcases List.mem_pair.mp isMember with rfl | rfl
    · exact ⟨by decide, by omega⟩
    · exact ⟨by decide, by omega⟩
  · intro undisturbed
    rw [undisturbed.device _ List.mem_cons_self] at walked
    cases walked

end SwagOS.Mem.KernelTables
