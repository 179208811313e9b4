import SwagOS.Lib.ArrayTree
import SwagOS.Mem.KernelHeap

/-!
# The tree built at boot

`kernel_heap_tree_init(.., 0, 2^31, 0)` writes every index below
`KERNEL_HEAP_LEN`.  From node `1` on, the nodes are a binary tree of height 30
in an array; node `0` covers twice as much and is above them all.
-/

namespace SwagOS.Mem

open SwagOS.Lib

def nodeSize (i : Nat) : Nat := if i = 0 then 2 ^ 31 else ArrayTree.size 30 i

theorem nodeSize_of_pos {i : Nat} (positive : 0 < i) : nodeSize i = ArrayTree.size 30 i := by
  rw [nodeSize, if_neg (by omega)]

theorem nodeSize_pos (i : Nat) : 0 < nodeSize i := by
  unfold nodeSize
  split
  · decide
  · exact ArrayTree.size_pos 30 i

theorem log_lt_of_lt_len {i : Nat} (inside : i < kernelHeapLen) : Nat.log 2 i < 20 :=
  Nat.log_lt_of_lt_pow' (by decide) (lt_trans inside (by decide))

theorem node_end_le {i : Nat} (inside : i < kernelHeapLen) : (i + 1) * nodeSize i ≤ 2 ^ 31 := by
  by_cases root : i = 0
  · rw [root]
    decide
  · rw [nodeSize_of_pos (by omega)]
    have level := log_lt_of_lt_len inside
    have upper : (i + 1) * ArrayTree.size 30 i ≤ (1 + 1) * ArrayTree.size 30 1 :=
      ((ArrayTree.Above.root (i := i) (by omega)).cells (by decide) (by omega)).2
    exact le_trans upper (by decide)

/-- The section that initialization writes at index `i`. -/
def initialSection (i : Nat) : HeapSection where
  size := nodeSize i
  offset := i * nodeSize i
  index := i
  inUse := false
  flags := 0x0

/-- Started at node `i` with that node's own block, initialization writes the
subtree of `i` and nothing else. -/
theorem kernelHeapTreeInit_subtree (heap : KernelHeap) {i : Nat} (positive : 0 < i) :
    let built := kernelHeapTreeInit heap i (nodeSize i) (i * nodeSize i)
    built.vaStart = heap.vaStart ∧
      (∀ j, ArrayTree.Above i j → j < kernelHeapLen → built.heapTree j = initialSection j) ∧
      ∀ j, ¬(ArrayTree.Above i j ∧ j < kernelHeapLen) → built.heapTree j = heap.heapTree j := by
  induction remaining : kernelHeapLen - i using Nat.strong_induction_on generalizing i heap with
  | _ n inductionHypothesis =>
    by_cases outside : kernelHeapLen ≤ i
    · rw [kernelHeapTreeInit, if_pos outside]
      refine ⟨rfl, fun j above inside => ?_, fun _ _ => rfl⟩
      have := above.le
      omega
    · have level := log_lt_of_lt_len (not_le.mp outside)
      have leftSize : nodeSize i = 2 * nodeSize (2 * i) := by
        rw [nodeSize_of_pos positive, nodeSize_of_pos (by omega)]
        exact ArrayTree.size_left positive (by omega)
      have rightSize : nodeSize i = 2 * nodeSize (2 * i + 1) := by
        rw [nodeSize_of_pos positive, nodeSize_of_pos (by omega)]
        exact ArrayTree.size_right positive (by omega)
      have leftOffset : i * nodeSize i = (2 * i) * nodeSize (2 * i) := by
        rw [leftSize]
        ring
      have rightOffset : (i * nodeSize i + nodeSize i / 2) % 2 ^ 32 =
          (2 * i + 1) * nodeSize (2 * i + 1) := by
        have whole := node_end_le (not_le.mp outside)
        have half : nodeSize i / 2 = nodeSize (2 * i + 1) := by omega
        rw [half]
        have sum : i * nodeSize i + nodeSize (2 * i + 1) = (2 * i + 1) * nodeSize (2 * i + 1) := by
          rw [rightSize]
          ring
        rw [Nat.mod_eq_of_lt _, sum]
        rw [Nat.add_mul, Nat.one_mul] at whole
        omega
      rw [kernelHeapTreeInit, if_neg outside]
      simp only [ne_eq, Nat.pos_iff_ne_zero.mp positive, not_false_eq_true, ↓reduceIte]
      rw [rightOffset, leftOffset, show nodeSize i / 2 = nodeSize (2 * i + 1) by omega,
        show i * 2 = 2 * i by omega]
      rw [show nodeSize (2 * i + 1) = nodeSize (2 * i) by omega]
      obtain ⟨leftVa, leftIn, leftOut⟩ := inductionHypothesis (kernelHeapLen - 2 * i) (by omega)
        (heap.write i ⟨nodeSize i, (2 * i) * nodeSize (2 * i), i, false, 0⟩)
        (i := 2 * i) (by omega) rfl
      generalize kernelHeapTreeInit _ (2 * i) _ _ = left at *
      obtain ⟨rightVa, rightIn, rightOut⟩ := inductionHypothesis (kernelHeapLen - (2 * i + 1))
        (by omega) left (i := 2 * i + 1) (by omega) rfl
      rw [show nodeSize (2 * i + 1) = nodeSize (2 * i) by omega] at rightVa rightIn rightOut
      generalize kernelHeapTreeInit left (2 * i + 1) _ _ = right at *
      refine ⟨by rw [rightVa, leftVa]; rfl, fun j above inside => ?_, fun j apart => ?_⟩
      · by_cases inRight : ArrayTree.Above (2 * i + 1) j
        · exact rightIn j inRight inside
        rw [rightOut j (by tauto)]
        by_cases inLeft : ArrayTree.Above (2 * i) j
        · exact leftIn j inLeft inside
        rw [leftOut j (by tauto), KernelHeap.write_heapTree]
        rcases ArrayTree.above_iff.mp above with same | below | below
        · subst same
          rw [if_pos rfl, ← leftOffset]
          rfl
        · exact absurd below inLeft
        · exact absurd below inRight
      · have notAbove : ¬ArrayTree.Above i j ∨ ¬j < kernelHeapLen := not_and_or.mp apart
        have notRight : ¬(ArrayTree.Above (2 * i + 1) j ∧ j < kernelHeapLen) :=
          fun found => apart ⟨ArrayTree.above_iff.mpr (.inr (.inr found.1)), found.2⟩
        have notLeft : ¬(ArrayTree.Above (2 * i) j ∧ j < kernelHeapLen) :=
          fun found => apart ⟨ArrayTree.above_iff.mpr (.inr (.inl found.1)), found.2⟩
        rw [rightOut j notRight, leftOut j notLeft, KernelHeap.write_heapTree, if_neg]
        rintro rfl
        exact apart ⟨.refl j, not_le.mp outside⟩

theorem kernelHeapTreeInit_boot (heap : KernelHeap) :
    (kernelHeapTreeInit heap 0 (2 ^ 31) 0).vaStart = heap.vaStart ∧
      ∀ i < kernelHeapLen,
        (kernelHeapTreeInit heap 0 (2 ^ 31) 0).heapTree i = initialSection i := by
  rw [kernelHeapTreeInit, if_neg (by decide)]
  simp only [ne_eq, not_true_eq_false, ↓reduceIte, Nat.zero_mul, Nat.zero_add]
  obtain ⟨va, within, apart⟩ :=
    kernelHeapTreeInit_subtree (heap.write 0 ⟨2 ^ 31, 0, 0, false, 0⟩) (i := 1) (by decide)
  have block : nodeSize 1 = 2 ^ 31 / 2 := by decide
  rw [block] at va within apart
  refine ⟨va, fun i inside => ?_⟩
  by_cases root : i = 0
  · have outside : ¬(ArrayTree.Above 1 i ∧ i < kernelHeapLen) := by
      rintro ⟨above, -⟩
      have := above.le
      omega
    apply (apart i outside).trans
    rw [KernelHeap.write_heapTree, if_pos root, root]
    rfl
  · exact within i (.root (by omega)) inside

end SwagOS.Mem
