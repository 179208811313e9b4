import SwagOS.Fs.ElfLoad.Contents

/-!
# Files that are not to be trusted

No field of a file is checked.  The load reads where the offsets of the file point, stops the
kernel where two segments meet in the last directory, and maps user pages over the kernel's
half where the addresses say so.
-/

namespace SwagOS.Mem.ThreadPagetables

open SwagOS.Lib

/-- The tables of a process still lead to the kernel's window, and nothing from there on is
for user code. -/
structure KernelIntact (base : Nat) (view : View) (pgdir : ThreadPagetables) : Prop where
  pml4t : Paging.present (pgdir.pml4t 511) = true ∧
    Paging.address (pgdir.pml4t 511) = pdptPhys base
  pdpt : Paging.present (pgdir.pdpt 510) = true ∧
    Paging.address (pgdir.pdpt 510) = pdtPhys base 0
  supervisor : ∀ va, kernelHhStart ≤ va → va < 2 ^ 64 →
    ¬Paging.UserReaches (pgdir.tableAt base view) va 3 base

def lastGigabyte (pdtIndex ptIndex : Nat) : Nat :=
  0xffffffffc0000000 + pdtIndex * hugePgSize + ptIndex * pgSize

theorem lastGigabyte_index {a b : Nat} (first : a < 512) (second : b < 512) :
    pml4tIndex (lastGigabyte a b) = 511 ∧ pdptIndex (lastGigabyte a b) = 511 ∧
      pdtIndex (lastGigabyte a b) = a ∧ ptIndex (lastGigabyte a b) = b := by
  rw [pml4tIndex_eq, pdptIndex_eq, pdtIndex_eq, ptIndex_eq]
  simp only [Paging.index, Paging.span, lastGigabyte, hugePgSize, pgSize]
  omega

theorem kernel_index {va : Nat} (above : kernelHhStart ≤ va) (below : va < 2 ^ 64) :
    pml4tIndex va = 511 ∧ (pdptIndex va = 510 ∨ pdptIndex va = 511) := by
  rw [kernelHhStart] at above
  rw [pml4tIndex_eq, pdptIndex_eq]
  simp only [Paging.index, Paging.span]
  omega

variable {base : Nat} {pages : List ImagePage} {pgdir : ThreadPagetables}

theorem pdtIndex_lt (va : Nat) : pdtIndex va < 512 := by
  rw [pdtIndex_eq, Paging.index]
  omega

theorem ptIndex_lt (va : Nat) : ptIndex va < 512 := by
  rw [ptIndex_eq, Paging.index]
  omega

theorem create_kernel :
    (create base).pml4t 511 = entry (pdptPhys base) kernelFlags ∧
      (create base).pdpt 510 = entry (pdtPhys base 0) kernelFlags := by
  simp only [create, uvaCopyKernel, Function.update_self]
  exact ⟨rfl, rfl⟩

theorem Imaged.kernelIntact_iff (view : View) (placed : Placed base)
    (imaged : Imaged base pages pgdir) :
    KernelIntact base view pgdir ↔ ¬Touched pdptIndex pages 510 ∧
      (Touched pml4tIndex pages 511 → ¬Touched pdptIndex pages 511) := by
  obtain ⟨aligned, below, -⟩ := placed.pdpt
  obtain ⟨aligned₀, below₀, -⟩ := placed.pdt (i := 0) (by decide)
  obtain ⟨aligned₁, below₁, -⟩ := placed.pdt (i := 1) (by decide)
  have userLow : userFlags.toNat < 2 ^ 12 := by decide
  have kernelLow : kernelFlags.toNat < 2 ^ 12 := by decide
  constructor
  · rintro ⟨-, ⟨-, window⟩, supervisor⟩
    constructor
    · intro touched
      rw [imaged.pdpt, if_pos touched, (entry_address aligned₁ below₁ userLow).1, pdtPhys,
        pdtPhys] at window
      omega
    · intro highest upper
      obtain ⟨m, member, isHighest⟩ := highest
      obtain ⟨first, second, third, last⟩ :=
        lastGigabyte_index (pdtIndex_lt m.1) (ptIndex_lt m.1)
      have bounds := pdtIndex_lt m.1
      have bounds' := ptIndex_lt m.1
      refine supervisor (lastGigabyte (pdtIndex m.1) (ptIndex m.1)) ?_ ?_ ?_
      · rw [kernelHhStart, lastGigabyte, hugePgSize, pgSize]
        omega
      · rw [lastGigabyte, hugePgSize, pgSize]
        omega
      · rw [imaged.userReaches_iff view placed, first, second, third, last]
        exact ⟨⟨m, member, isHighest⟩, upper, ⟨m, member, rfl⟩, ⟨m, member, rfl⟩⟩
  · rintro ⟨window, upper⟩
    constructor
    case pml4t =>
      rw [imaged.pml4t]
      split
      · exact ⟨(entry_userFlags aligned below).1, (entry_address aligned below userLow).1⟩
      · rw [create_kernel.1]
        exact ⟨(entry_kernelFlags aligned below).1, (entry_address aligned below kernelLow).1⟩
    case pdpt =>
      rw [imaged.pdpt, if_neg window, create_kernel.2]
      exact ⟨(entry_kernelFlags aligned₀ below₀).1, (entry_address aligned₀ below₀ kernelLow).1⟩
    case supervisor =>
      intro va above inside reaches
      obtain ⟨highest, second, -⟩ := (imaged.userReaches_iff view placed va).mp reaches
      obtain ⟨isHighest, isWindow | isUpper⟩ := kernel_index above inside
      · exact window (isWindow ▸ second)
      · exact upper (isHighest ▸ highest) (isUpper ▸ second)

end SwagOS.Mem.ThreadPagetables

namespace SwagOS.Fs

open SwagOS.Lib SwagOS.DataStructures SwagOS.Mem SwagOS.Kernel ThreadPagetables

namespace ElfBuffer

variable (elf : ElfBuffer)

def Holds (p count : Nat) : Prop := ∀ k < count, (p + k) % 2 ^ 64 < elf.size

instance (p count : Nat) : Decidable (elf.Holds p count) :=
  inferInstanceAs (Decidable (∀ k < count, (p + k) % 2 ^ 64 < elf.size))

/-- A file that does no harm: what is looked at lies in it, no two segments have the same
last index, and none is mapped over the kernel. -/
structure Harmless : Prop where
  header : 58 ≤ elf.size
  memSize : ∀ i < elf.phNum, elf.Holds (elf.phStart i + 40) 8
  type : ∀ i < elf.phNum, (elf.programHeader i).memSize ≠ 0 → elf.Holds (elf.phStart i) 4
  segment : ∀ i < elf.phNum, elf.Loads i →
    elf.Holds (elf.phStart i + 32) 8 ∧ elf.Holds (elf.phStart i + 16) 8
  data : ∀ i < elf.phNum, elf.Loads i → 0 < (elf.programHeader i).fileSize →
    elf.Holds (elf.phStart i + 8) 8 ∧
      elf.Holds (elf.programHeader i).offset (min (elf.programHeader i).fileSize pgSize)
  apart : ∀ i < elf.phNum, elf.Loads i → ∀ j < elf.phNum, elf.Loads j → i ≠ j →
    ptIndex (elf.programHeader i).vaddr ≠ ptIndex (elf.programHeader j).vaddr
  window : ∀ i < elf.phNum, elf.Loads i → pdptIndex (elf.programHeader i).vaddr ≠ 510
  upper : ∀ i < elf.phNum, elf.Loads i → pml4tIndex (elf.programHeader i).vaddr = 511 →
    ∀ j < elf.phNum, elf.Loads j → pdptIndex (elf.programHeader j).vaddr ≠ 511

theorem holds_iff {p count : Nat} :
    elf.Holds p count ↔ ∀ q ∈ offsets p count, q < elf.size := by
  simp [Holds, offsets]

theorem header_iff : 58 ≤ elf.size ↔ ∀ q ∈ identReads ++ finalReads, q < elf.size := by
  have reads : identReads ++ finalReads = [0, 1, 2, 3, 4, 56, 57, 24, 25, 26, 27, 28, 29, 30, 31] :=
    by decide
  rw [reads]
  constructor
  · intro long q member
    have below : q < 58 := by
      revert q
      decide
    omega
  · intro inside
    have last := inside 57 (by decide)
    omega

theorem turnReads_iff (i : Nat) : (∀ q ∈ elf.turnReads i, q < elf.size) ↔
    (elf.Holds 56 2 ∧ elf.Holds 32 8 ∧ elf.Holds 54 2) ∧ elf.Holds (elf.phStart i + 40) 8 ∧
      ((elf.programHeader i).memSize ≠ 0 → elf.Holds (elf.phStart i) 4) ∧
      (elf.Loads i → elf.Holds (elf.phStart i + 32) 8 ∧ elf.Holds (elf.phStart i + 16) 8) ∧
      (elf.Loads i → 0 < (elf.programHeader i).fileSize →
        elf.Holds (elf.phStart i + 8) 8 ∧
          elf.Holds (elf.programHeader i).offset (min (elf.programHeader i).fileSize pgSize)) := by
  rw [turnReads]
  by_cases empty : (elf.programHeader i).memSize = 0
  · simp only [if_pos empty, List.append_nil, List.forall_mem_append, ← holds_iff]
    simp [Loads, empty, and_assoc]
  · by_cases load : (elf.programHeader i).type = ptLoad
    · by_cases filled : 0 < (elf.programHeader i).fileSize
      · simp only [if_neg empty, if_neg (not_not.mpr load), if_pos filled,
          List.forall_mem_append, ← holds_iff]
        simp only [Loads, empty, load, filled, copied, ne_eq, not_false_eq_true, and_self,
          forall_const]
        tauto
      · simp only [if_neg empty, if_neg (not_not.mpr load), if_neg filled, List.append_nil,
          List.forall_mem_append, ← holds_iff]
        simp [Loads, empty, load, filled, and_assoc]
    · simp only [if_neg empty, if_pos load, List.append_nil, List.forall_mem_append,
        ← holds_iff]
      simp [Loads, empty, load, and_assoc]

theorem reads_iff :
    (∀ q ∈ identReads ++ (List.range elf.phNum).flatMap elf.turnReads ++ finalReads,
      q < elf.size) ↔ 58 ≤ elf.size ∧ ∀ i < elf.phNum, ∀ q ∈ elf.turnReads i, q < elf.size := by
  rw [elf.header_iff]
  simp only [List.forall_mem_append, List.forall_mem_flatMap, List.mem_range]
  tauto

theorem apart_iff :
    (∀ i ∈ elf.loading (List.range elf.phNum), ∀ j ∈ elf.loading (List.range elf.phNum),
      elf.lastIndex i = elf.lastIndex j → i = j) ↔
      ∀ i < elf.phNum, elf.Loads i → ∀ j < elf.phNum, elf.Loads j → i ≠ j →
        ptIndex (elf.programHeader i).vaddr ≠ ptIndex (elf.programHeader j).vaddr := by
  simp only [mem_loading, List.mem_range, and_imp]
  constructor
  · intro apart i below loads j belowJ loadsJ differ same
    exact differ (apart i below loads j belowJ loadsJ same)
  · intro apart i below loads j belowJ loadsJ same
    by_contra differ
    exact apart i below loads j belowJ loadsJ differ same

end ElfBuffer

def LoadsSafely (site : LoadSite) (elf : ElfBuffer) (s : LoadState) (view : View) : Prop :=
  ∃ rip s', elfLoadSegments site elf s = .ok (rip, s') ∧ (∀ q ∈ s'.reads, q < elf.size) ∧
    KernelIntact site.base view s'.mem.pgdir

def ElfBuffer.Meets (elf : ElfBuffer) (index : Nat → Nat) (k : Nat) : Prop :=
  ∃ i < elf.phNum, elf.Loads i ∧ index (elf.programHeader i).vaddr = k

section Load

variable {site : LoadSite} {elf : ElfBuffer} {s : LoadState}

theorem touched_iff_meets {index : Nat → Nat} {k : Nat} {placements : List Placement}
    (numbers : placements.map Prod.fst = (elf.loading (List.range elf.phNum)).reverse) :
    Touched index (elf.pages placements) k ↔ elf.Meets index k := by
  have number : ∀ i, (∃ frame, (i, frame) ∈ placements) ↔ i < elf.phNum ∧ elf.Loads i := by
    intro i
    rw [← List.mem_range, ← elf.mem_loading, ← List.mem_reverse, ← numbers, List.mem_map]
    constructor
    · rintro ⟨frame, member⟩
      exact ⟨_, member, rfl⟩
    · rintro ⟨m, member, rfl⟩
      exact ⟨m.2, member⟩
  rw [elf.touched_pages]
  constructor
  · rintro ⟨m, member, same⟩
    obtain ⟨below, loads⟩ := (number m.1).mp ⟨m.2, member⟩
    exact ⟨m.1, below, loads, same⟩
  · rintro ⟨i, below, loads, same⟩
    obtain ⟨frame, member⟩ := (number i).mpr ⟨below, loads⟩
    exact ⟨_, member, same⟩

theorem loadsSafely_cases (sound : site.Sound) (passes : elf.Passes)
    (image : Image site elf [] s) (unread : s.reads = []) (view : View) :
    LoadsSafely site elf s view ↔
      (∃ s', (List.range elf.phNum).foldlM (loadSegment site elf)
        { s with reads := s.reads ++ identReads } = .ok s') ∧
      (∀ q ∈ identReads ++ (List.range elf.phNum).flatMap elf.turnReads ++ finalReads,
        q < elf.size) ∧
      ¬elf.Meets pdptIndex 510 ∧ (elf.Meets pml4tIndex 511 → ¬elf.Meets pdptIndex 511) := by
  have ended : ∀ s₁, (List.range elf.phNum).foldlM (loadSegment site elf)
      { s with reads := s.reads ++ identReads } = .ok s₁ →
      s₁.reads = identReads ++ (List.range elf.phNum).flatMap elf.turnReads ∧
      (KernelIntact site.base view s₁.mem.pgdir ↔ ¬elf.Meets pdptIndex 510 ∧
        (elf.Meets pml4tIndex 511 → ¬elf.Meets pdptIndex 511)) := by
    intro s₁ loop
    obtain ⟨new, final, numbers, reads⟩ := (image.read _).run sound loop
    rw [List.append_nil] at final
    rw [final.imaged.kernelIntact_iff view sound.placed, touched_iff_meets numbers,
      touched_iff_meets numbers, touched_iff_meets numbers, reads, unread, List.nil_append]
    exact ⟨rfl, Iff.rfl⟩
  rw [LoadsSafely, elfLoadSegments_passes passes]
  constructor
  · rintro ⟨rip, s', done, inside, intact⟩
    cases loop : (List.range elf.phNum).foldlM (loadSegment site elf)
        { s with reads := s.reads ++ identReads } with
    | error halt =>
      rw [loop] at done
      cases done
    | ok s₁ =>
      rw [loop] at done
      obtain ⟨rfl, rfl⟩ := Prod.mk.inj (Except.ok.inj done)
      obtain ⟨reads, kernel⟩ := ended s₁ loop
      rw [← reads]
      exact ⟨⟨s₁, rfl⟩, inside, kernel.mp intact⟩
  · rintro ⟨⟨s₁, loop⟩, inside, apart⟩
    obtain ⟨reads, kernel⟩ := ended s₁ loop
    rw [← reads] at inside
    rw [loop]
    exact ⟨elf.entry, _, rfl, inside, kernel.mpr apart⟩

/-- A load is safe if and only if the file is harmless and the frames suffice. -/
theorem elfLoadSegments_safe_iff (sound : site.Sound) (passes : elf.Passes)
    (valid : s.frames.Valid) (stacked : s.mem.usedPages.Stacked)
    (fresh : s.mem.pgdir = create site.base) (unread : s.reads = []) (view : View) :
    LoadsSafely site elf s view ↔
      elf.Harmless ∧ s.frames.Serves (elf.loading (List.range elf.phNum)).length := by
  have image : Image site elf [] s := Image.start valid stacked fresh
  rw [loadsSafely_cases sound passes image unread view, (image.read _).run_returns_iff sound,
    ElfBuffer.lastIndices_nodup List.nodup_range, elf.reads_iff, elf.apart_iff]
  constructor
  · rintro ⟨⟨serves, apart⟩, ⟨header, turns⟩, window, upper⟩
    refine ⟨?_, serves⟩
    constructor
    case header => exact header
    case memSize => exact fun i below => ((elf.turnReads_iff i).mp (turns i below)).2.1
    case type => exact fun i below => ((elf.turnReads_iff i).mp (turns i below)).2.2.1
    case segment => exact fun i below => ((elf.turnReads_iff i).mp (turns i below)).2.2.2.1
    case data => exact fun i below => ((elf.turnReads_iff i).mp (turns i below)).2.2.2.2
    case apart => exact apart
    case window => exact fun i below loads same => window ⟨i, below, loads, same⟩
    case upper =>
      intro i below loads same j belowJ loadsJ
      exact fun sameJ => upper ⟨i, below, loads, same⟩ ⟨j, belowJ, loadsJ, sameJ⟩
  · rintro ⟨harmless, serves⟩
    have long := harmless.header
    have fields : elf.Holds 56 2 ∧ elf.Holds 32 8 ∧ elf.Holds 54 2 := by
      refine ⟨?_, ?_, ?_⟩ <;>
      · intro k below
        omega
    refine ⟨⟨serves, harmless.apart⟩, ⟨long, ?_⟩, ?_, ?_⟩
    · intro i below
      exact (elf.turnReads_iff i).mpr ⟨fields, harmless.memSize i below, harmless.type i below,
        harmless.segment i below, harmless.data i below⟩
    · rintro ⟨i, below, loads, same⟩
      exact harmless.window i below loads same
    · rintro ⟨i, below, loads, same⟩ ⟨j, belowJ, loadsJ, sameJ⟩
      exact harmless.upper i below loads same j belowJ loadsJ sameJ

end Load

theorem elfLoadSegments_safe_short :
    LoadsSafely sampleSite (oneSegment 0x400000 16) sampleState sampleView := by
  have size : 16 = 16 ∨ 16 = 0x1001 := .inl rfl
  have image := sampleState_image (oneSegment 0x400000 16)
  have harmless : (oneSegment 0x400000 16).Harmless := by
    constructor
    case apart =>
      intro i below _ j belowJ _ differ
      rw [oneSegment_phNum size] at below belowJ
      omega
    case upper =>
      have low : ∀ i < (oneSegment 0x400000 16).phNum,
          pml4tIndex ((oneSegment 0x400000 16).programHeader i).vaddr ≠ 511 := by decide +kernel
      exact fun i below _ same => absurd same (low i below)
    all_goals decide +kernel
  exact (elfLoadSegments_safe_iff sampleSite_sound (oneSegment_wellFormed size).passes image.valid
    image.stacked rfl rfl sampleView).mpr 
    ⟨harmless, sampleState_serves (by decide +kernel)⟩

/-- A file whose segment is at the start of the kernel: the process loses the kernel's window
and gets the page. -/
theorem elfLoadSegments_over_kernel : ¬∀ (site : LoadSite) (elf : ElfBuffer) (s : LoadState)
    (view : View), site.Sound → elf.Passes → s.frames.Valid → s.mem.usedPages.Stacked →
      s.mem.pgdir = create site.base → s.reads = [] →
        s.frames.Serves (elf.loading (List.range elf.phNum)).length →
          LoadsSafely site elf s view := by
  intro claim
  have image := sampleState_image (oneSegment 0xffffffff80000000 16)
  have passes : (oneSegment 0xffffffff80000000 16).Passes := fun s => ⟨rfl, rfl⟩
  have safe := claim sampleSite _ sampleState sampleView sampleSite_sound passes image.valid
    image.stacked rfl rfl (sampleState_serves (by decide +kernel))
  obtain ⟨-, -, window, -⟩ :=
    (loadsSafely_cases sampleSite_sound passes image rfl sampleView).mp safe
  refine window ⟨0, ?_⟩
  decide +kernel

end SwagOS.Fs
