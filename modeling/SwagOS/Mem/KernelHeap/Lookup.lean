import SwagOS.Mem.KernelHeap.FirstFit
import SwagOS.Mem.KernelHeap.Reclamation

/-!
# The section of an offset

`heap_search_by_offset` stops at the first section in use on its way down.  A node that was
split is in use as well, and so is node `0` after any allocation: from then on the search
answers `0` for every offset.  Before that it finds nothing in the upper half, and never
comes back from the lower half, where node `0` is its own left child.
-/

namespace SwagOS.Mem

open SwagOS.Lib SwagOS.Lib.ArrayTree

def HeapSection.contains (node : HeapSection) (offset : Nat) : Prop :=
  node.offset ≤ offset ∧ offset < node.offset + node.size

/-- `addr - va_start`, as the `uint32_t` that the search takes. -/
def KernelHeap.offsetOf (heap : KernelHeap) (address : Nat) : Nat :=
  (address - heap.vaStart) % 2 ^ 32

/-- The answer is the allocated section that contains the offset, or `UINT32_MAX` if there is
none. -/
structure LookupRight (heap : KernelHeap) (offset : Nat) (answer : Outcome Nat) : Prop where
  found : ∀ i < kernelHeapLen, (heap.heapTree i).occupied = true →
    (heap.heapTree i).contains offset → answer = .ok i
  missing : (∀ i < kernelHeapLen, (heap.heapTree i).occupied = true →
    ¬(heap.heapTree i).contains offset) → answer = .ok uint32Max

section Search

variable {heap : KernelHeap} {offset : Nat}

theorem heapSearchByOffset_unused (unused : ∀ i < kernelHeapLen, (heap.heapTree i).inUse = false)
    {i : Nat} (positive : 0 < i) : heapSearchByOffset heap offset i = .ok uint32Max := by
  induction remaining : kernelHeapLen - i using Nat.strong_induction_on generalizing i with
  | _ n inductionHypothesis =>
    unfold heapSearchByOffset
    by_cases outside : kernelHeapLen ≤ i
    · rw [if_pos outside]
      rfl
    rw [if_neg outside]
    simp only [unused i (not_le.mp outside), Bool.false_eq_true, ↓reduceIte,
      Nat.pos_iff_ne_zero.mp positive]
    split
    · rfl
    · split
      · exact inductionHypothesis (kernelHeapLen - (i * 2 + 1)) (by omega) (by omega) rfl
      · exact inductionHypothesis (kernelHeapLen - i * 2) (by omega) (by omega) rfl

theorem HeapInv.root_contains (inv : HeapInv heap) (inside : offset < 2 ^ 31) :
    (heap.heapTree 0).contains offset := by
  have size : (heap.heapTree 0).size = 2 ^ 31 := inv.sizes 0 (by decide)
  have start : (heap.heapTree 0).offset = 0 := by
    rw [inv.offsets 0 (by decide), Nat.zero_mul]
  unfold HeapSection.contains
  omega

theorem heapSearchByOffset_upper (inv : HeapInv heap)
    (unused : ∀ i < kernelHeapLen, (heap.heapTree i).inUse = false) (inside : offset < 2 ^ 31)
    (upper : 2 ^ 30 ≤ offset) : heapSearchByOffset heap offset 0 = .ok uint32Max := by
  have size : (heap.heapTree 0).size = 2 ^ 31 := inv.sizes 0 (by decide)
  have start : (heap.heapTree 0).offset = 0 := by
    rw [inv.offsets 0 (by decide), Nat.zero_mul]
  have below : heapSearchByOffset heap offset 1 = .ok uint32Max :=
    heapSearchByOffset_unused unused (by decide)
  rw [heapSearchByOffset, if_neg (by decide)]
  simp only [size, start, unused 0 (by decide), Nat.zero_le, Nat.zero_add, inside, and_self,
    not_true_eq_false, Bool.false_eq_true, ↓reduceIte, Nat.zero_mul]
  rw [if_pos (show 2 ^ 31 / 2 ≤ offset by omega)]
  exact below

theorem heapSearchByOffset_lower (inv : HeapInv heap)
    (unused : ∀ i < kernelHeapLen, (heap.heapTree i).inUse = false) (lower : offset < 2 ^ 30) :
    heapSearchByOffset heap offset 0 = .error .hang := by
  have size : (heap.heapTree 0).size = 2 ^ 31 := inv.sizes 0 (by decide)
  have start : (heap.heapTree 0).offset = 0 := by
    rw [inv.offsets 0 (by decide), Nat.zero_mul]
  rw [heapSearchByOffset, if_neg (by decide)]
  simp only [size, start, unused 0 (by decide), Nat.zero_le, Nat.zero_add,
    show offset < 2 ^ 31 by omega, and_self, not_true_eq_false, Bool.false_eq_true, ↓reduceIte]
  rw [if_neg (show ¬2 ^ 31 / 2 ≤ offset by omega)]
  rfl

/-- The sections of the tree have the sizes and offsets of boot. -/
structure HeapShape (heap : KernelHeap) : Prop where
  sizes : ∀ i < kernelHeapLen, (heap.heapTree i).size = nodeSize i
  offsets : ∀ i < kernelHeapLen, (heap.heapTree i).offset = i * nodeSize i

theorem HeapInv.shape (inv : HeapInv heap) : HeapShape heap := ⟨inv.sizes, inv.offsets⟩

theorem Taken.shape {before after : KernelHeap} {size start j : Nat}
    (taken : Taken before after size start j) (shape : HeapShape before) : HeapShape after where
  sizes i inside := by rw [taken.sizes, shape.sizes i inside]
  offsets i inside := by rw [taken.offsets, shape.offsets i inside]

theorem HeapShape.contains_iff (shape : HeapShape heap) {i : Nat} (inside : i < kernelHeapLen) :
    (heap.heapTree i).contains offset ↔
      i * nodeSize i ≤ offset ∧ offset < (i + 1) * nodeSize i := by
  rw [HeapSection.contains, shape.offsets i inside, shape.sizes i inside, Nat.succ_mul]

theorem HeapShape.contains_above (shape : HeapShape heap) {k i : Nat} (positive : 0 < k)
    (above : Above k i) (inside : i < kernelHeapLen)
    (here : (heap.heapTree i).contains offset) : (heap.heapTree k).contains offset := by
  have insideK : k < kernelHeapLen := lt_of_le_of_lt above.le inside
  have level := log_lt_of_lt_len inside
  have le := above.le
  rw [shape.contains_iff inside] at here
  rw [shape.contains_iff insideK]
  rw [nodeSize_of_pos (by omega)] at here ⊢
  obtain ⟨lower, upper⟩ := above.cells positive (show Nat.log 2 i ≤ 30 by omega)
  omega

/-- Whatever the marks, a section in use that contains the offset makes the search end at a
section in use: below node `0` the halves lead to it. -/
theorem heapSearchByOffset_below (shape : HeapShape heap) {k i : Nat} (positive : 0 < k)
    (above : Above k i) (inside : i < kernelHeapLen) (used : (heap.heapTree i).inUse = true)
    (here : (heap.heapTree i).contains offset) :
    ∃ j < kernelHeapLen, heapSearchByOffset heap offset k = .ok j := by
  induction remaining : kernelHeapLen - k using Nat.strong_induction_on generalizing k with
  | _ n inductionHypothesis =>
    have insideK : k < kernelHeapLen := lt_of_le_of_lt above.le inside
    have hereK := shape.contains_above positive above inside here
    rw [heapSearchByOffset, if_neg (not_le.mpr insideK)]
    simp only [show (heap.heapTree k).offset ≤ offset ∧
      offset < (heap.heapTree k).offset + (heap.heapTree k).size from hereK, and_self,
      not_true_eq_false, ↓reduceIte]
    by_cases usedK : (heap.heapTree k).inUse = true
    · rw [if_pos usedK]
      exact ⟨k, insideK, rfl⟩
    rw [if_neg usedK, if_neg (Nat.pos_iff_ne_zero.mp positive)]
    rw [shape.offsets k insideK, shape.sizes k insideK, Nat.mul_comm k 2]
    have level := log_lt_of_lt_len insideK
    have half : nodeSize k = 2 * nodeSize (2 * k) := by
      rw [nodeSize_of_pos positive, nodeSize_of_pos (by omega)]
      exact size_left positive (by omega)
    have half' : nodeSize k = 2 * nodeSize (2 * k + 1) := by
      rw [nodeSize_of_pos positive, nodeSize_of_pos (by omega)]
      exact size_right positive (by omega)
    have middle : k * nodeSize k + nodeSize k / 2 = (2 * k + 1) * nodeSize (2 * k) := by
      rw [half, Nat.mul_div_cancel_left _ (by decide)]
      ring
    rcases above_iff.mp above with same | left | right
    · rw [same] at used
      exact absurd used usedK
    · have child := shape.contains_above (by omega) left inside here
      rw [shape.contains_iff (lt_of_le_of_lt left.le inside)] at child
      rw [if_neg (by omega)]
      exact inductionHypothesis (kernelHeapLen - 2 * k) (by omega) (by omega) left rfl
    · have child := shape.contains_above (by omega) right inside here
      rw [shape.contains_iff (lt_of_le_of_lt right.le inside),
        show nodeSize (2 * k + 1) = nodeSize (2 * k) by omega] at child
      rw [if_pos (by omega)]
      exact inductionHypothesis (kernelHeapLen - (2 * k + 1)) (by omega) (by omega) right rfl

theorem heapSearchByOffset_used (shape : HeapShape heap) {i : Nat} (inside : i < kernelHeapLen)
    (used : (heap.heapTree i).inUse = true) (here : (heap.heapTree i).contains offset) :
    ∃ j < kernelHeapLen, heapSearchByOffset heap offset 0 = .ok j := by
  have size : (heap.heapTree 0).size = 2 ^ 31 := shape.sizes 0 (by decide)
  have start : (heap.heapTree 0).offset = 0 := by
    rw [shape.offsets 0 (by decide), Nat.zero_mul]
  have last := node_end_le inside
  have inHeap : offset < 2 ^ 31 := by
    rw [shape.contains_iff inside] at here
    omega
  rw [heapSearchByOffset, if_neg (by decide)]
  simp only [size, start, Nat.zero_le, Nat.zero_add, inHeap, and_self, not_true_eq_false,
    ↓reduceIte]
  by_cases usedRoot : (heap.heapTree 0).inUse = true
  · rw [if_pos usedRoot]
    exact ⟨0, by decide, rfl⟩
  rw [if_neg usedRoot]
  have positive : 0 < i := by
    refine Nat.pos_of_ne_zero ?_
    rintro rfl
    exact usedRoot used
  have upper := shape.contains_above (by decide) (.root positive) inside here
  rw [shape.contains_iff (by decide)] at upper
  have one : nodeSize 1 = 2 ^ 30 := by decide
  rw [if_pos (by omega)]
  exact heapSearchByOffset_below shape (by decide) (.root positive) inside used here

/-- Without such a section the search fails, or never ends. -/
theorem heapSearchByOffset_none (none : ∀ i < kernelHeapLen, (heap.heapTree i).inUse = true →
    ¬(heap.heapTree i).contains offset) (k : Nat) :
    heapSearchByOffset heap offset k = .ok uint32Max ∨
      heapSearchByOffset heap offset k = .error .hang := by
  fun_induction heapSearchByOffset heap offset k with
  | case1 => exact .inl rfl
  | case2 => exact .inl rfl
  | case3 k inside node here used =>
    exact absurd (not_not.mp here) (none k (not_le.mp inside) used)
  | case4 k inside node here clear right inductionHypothesis => exact inductionHypothesis
  | case5 => exact .inr rfl
  | case6 k inside node here clear left notRoot inductionHypothesis => exact inductionHypothesis

theorem MarkInv.lookup_right_iff (inv : MarkInv heap) (inside : offset < 2 ^ 31) :
    LookupRight heap offset (heapSearchByOffset heap offset 0) ↔
      (heap.heapTree 0).occupied = true ∨
        (∀ i < kernelHeapLen, (heap.heapTree i).occupied = false) ∧ 2 ^ 30 ≤ offset := by
  have contains := inv.root_contains inside
  by_cases used : (heap.heapTree 0).inUse = true
  · -- Something is allocated, and the answer is node `0`.
    rw [heapSearchByOffset_root inv.toHeapInv used inside]
    obtain ⟨k, insideK, -, occupiedK⟩ := inv.marked 0 (by decide) used
    constructor
    · intro right
      left
      by_contra clear
      by_cases covered : ∃ i < kernelHeapLen, (heap.heapTree i).occupied = true ∧
          (heap.heapTree i).contains offset
      · obtain ⟨i, insideI, occupied, here⟩ := covered
        obtain rfl : 0 = i := Except.ok.inj (right.found i insideI occupied here)
        exact clear occupied
      · push Not at covered
        exact absurd (right.missing covered) (by decide)
    · rintro (occupied | ⟨none, -⟩)
      · refine ⟨?_, ?_⟩
        · intro i insideI occupiedI _
          by_cases same : i = 0
          · rw [same]
          · have free := inv.free_below (above_zero i) (Ne.symm same) insideI occupied
            rw [inv.occupiedInUse i insideI occupiedI] at free
            exact absurd free (by decide)
        · intro missing
          exact absurd contains (missing 0 (by decide) occupied)
      · rw [none k insideK] at occupiedK
        exact absurd occupiedK (by decide)
  · -- Nothing is in use.
    have unused : ∀ i < kernelHeapLen, (heap.heapTree i).inUse = false := by
      intro i insideI
      by_contra usedI
      exact used (inv.inUse_above (above_zero i) insideI (by simpa using usedI))
    have clear : ∀ i < kernelHeapLen, (heap.heapTree i).occupied = false := by
      intro i insideI
      by_contra occupied
      have usedI := inv.occupiedInUse i insideI (by simpa using occupied)
      rw [unused i insideI] at usedI
      exact absurd usedI (by decide)
    have nothing : ∀ i < kernelHeapLen, (heap.heapTree i).occupied = true →
        ¬(heap.heapTree i).contains offset := by
      intro i insideI occupied
      rw [clear i insideI] at occupied
      exact absurd occupied (by decide)
    constructor
    · intro right
      refine .inr ⟨clear, ?_⟩
      by_contra! lower
      have answer := right.missing nothing
      rw [heapSearchByOffset_lower inv.toHeapInv unused lower] at answer
      exact absurd answer (by decide)
    · rintro (occupied | ⟨-, upper⟩)
      · rw [clear 0 (by decide)] at occupied
        exact absurd occupied (by decide)
      · rw [heapSearchByOffset_upper inv.toHeapInv unused inside upper]
        refine ⟨?_, fun _ => rfl⟩
        intro i insideI occupied here
        exact absurd here (nothing i insideI occupied)

end Search

/-- On every heap that calls of `kalloc` and `kfree` lead to and for every offset in the heap,
the lookup gives the right answer exactly if the heap is allocated as one block, or nothing is
allocated and the offset lies in the upper half. -/
theorem heapSearchByOffset_right_iff {s : HeapState} (reached : Reachable HeapBoot HeapCall s)
    {offset : Nat} (inside : offset < 2 ^ 31) :
    LookupRight s.heap offset (heapSearchByOffset s.heap offset 0) ↔
      (s.heap.heapTree 0).occupied = true ∨
        (∀ i < kernelHeapLen, (s.heap.heapTree i).occupied = false) ∧ 2 ^ 30 ≤ offset :=
  (MarkInv.of_reachable reached).lookup_right_iff inside

theorem allTaken_lookup_right :
    LookupRight allTaken.heap 12345 (heapSearchByOffset allTaken.heap 12345 0) := by
  obtain ⟨address, called⟩ := bootRun_kalloc_all
  have reached : Reachable HeapBoot HeapCall allTaken :=
    (Reachable.base bootRun_boot).next (.kalloc (by decide) called)
  exact (heapSearchByOffset_right_iff reached (by decide)).mpr (.inl rfl)

/-- Right after boot, offset `0` is searched for ever.  With the first half of node `1`
allocated, the search for its first byte answers node `0`, not node `2`. -/
theorem heapSearchByOffset_wrong :
    Reachable HeapBoot HeapCall bootRun.state ∧
      ¬LookupRight bootRun.state.heap 0 (heapSearchByOffset bootRun.state.heap 0 0) ∧
      Reachable HeapBoot HeapCall ⟨oneTaken, false⟩ ∧
      ¬LookupRight oneTaken (2 ^ 30) (heapSearchByOffset oneTaken (2 ^ 30) 0) := by
  have booted : Reachable HeapBoot HeapCall bootRun.state := .base bootRun_boot
  obtain ⟨address, found⟩ := bootRun_finds
  have taken : Reachable HeapBoot HeapCall ⟨oneTaken, false⟩ :=
    booted.next (.kalloc (by decide) (kalloc_of_found rfl found))
  refine ⟨booted, ?_, taken, ?_⟩
  · rw [(MarkInv.of_reachable booted).lookup_right_iff (by decide)]
    rintro (occupied | ⟨-, upper⟩)
    · rw [bootRun_heapTree (i := 0) (by decide)] at occupied
      exact absurd occupied (by decide)
    · exact absurd upper (by decide)
  · have sections := oneTaken_heapTree
    rw [(MarkInv.of_reachable taken).lookup_right_iff (by decide)]
    rintro (occupied | ⟨clear, -⟩)
    · rw [sections.1] at occupied
      exact absurd occupied (by decide)
    · have := clear 2 (by decide)
      rw [sections.2.2.1] at this
      exact absurd this (by decide)

end SwagOS.Mem
