import Mathlib.Data.Set.Lattice
import Mathlib.Order.CompletePartialOrder
import Mathlib.Order.Interval.Set.Basic
import SwagOS.Mem.KernelHeap.Tree

/-!
# The geometry of the heap tree

The closed form of the sections that `kernel_heap_tree_init` writes: from node `1` on, the
nodes of a level have one size and lie side by side in the upper half of the heap, and each
node that has two children is cut into them.
-/

namespace SwagOS.Mem

open SwagOS.Lib

def HeapSection.range (node : HeapSection) : Set Nat := Set.Ico node.offset (node.offset + node.size)

section Nodes

variable {i j : Nat}

theorem nodeSize_shift (positive : 0 < i) (inside : i < kernelHeapLen) :
    nodeSize i = 2 ^ 30 >>> Nat.log 2 i := by
  have level := log_lt_of_lt_len inside
  rw [nodeSize_of_pos positive, ArrayTree.size, Nat.shiftRight_eq_div_pow,
    Nat.pow_div (by omega) (by decide)]

theorem initialSection_offset (positive : 0 < i) (inside : i < kernelHeapLen) :
    (initialSection i).offset = 2 ^ 30 + (i - 2 ^ Nat.log 2 i) * (initialSection i).size := by
  have level := log_lt_of_lt_len inside
  have first : 2 ^ Nat.log 2 i ≤ i := Nat.pow_log_le_self 2 (Nat.ne_of_gt positive)
  have leftmost : 2 ^ Nat.log 2 i * nodeSize i = 2 ^ 30 := by
    rw [nodeSize_of_pos positive, ArrayTree.size, ← Nat.pow_add]
    congr 1
    omega
  calc i * nodeSize i
      = (2 ^ Nat.log 2 i + (i - 2 ^ Nat.log 2 i)) * nodeSize i := by
        rw [Nat.add_sub_cancel' first]
    _ = 2 ^ 30 + (i - 2 ^ Nat.log 2 i) * nodeSize i := by rw [Nat.add_mul, leftmost]

theorem initialSection_left (positive : 0 < i) (inside : 2 * i < kernelHeapLen) :
    (initialSection (2 * i)).range = Set.Ico (initialSection i).offset
      ((initialSection i).offset + (initialSection i).size / 2) := by
  have level := log_lt_of_lt_len (show i < kernelHeapLen by omega)
  have half : nodeSize i = 2 * nodeSize (2 * i) := by
    rw [nodeSize_of_pos positive, nodeSize_of_pos (by omega)]
    exact ArrayTree.size_left positive (by omega)
  have start : 2 * i * nodeSize (2 * i) = i * nodeSize i := by
    rw [half]
    ring
  change Set.Ico (2 * i * nodeSize (2 * i)) (2 * i * nodeSize (2 * i) + nodeSize (2 * i)) =
    Set.Ico (i * nodeSize i) (i * nodeSize i + nodeSize i / 2)
  rw [start, half, Nat.mul_div_cancel_left _ (by decide)]

theorem initialSection_right (positive : 0 < i) (inside : 2 * i + 1 < kernelHeapLen) :
    (initialSection (2 * i + 1)).range =
      Set.Ico ((initialSection i).offset + (initialSection i).size / 2)
        ((initialSection i).offset + (initialSection i).size) := by
  have level := log_lt_of_lt_len (show i < kernelHeapLen by omega)
  have half : nodeSize i = 2 * nodeSize (2 * i + 1) := by
    rw [nodeSize_of_pos positive, nodeSize_of_pos (by omega)]
    exact ArrayTree.size_right positive (by omega)
  have start : (2 * i + 1) * nodeSize (2 * i + 1) = i * nodeSize i + nodeSize i / 2 := by
    rw [half, Nat.mul_div_cancel_left _ (by decide)]
    ring
  change Set.Ico ((2 * i + 1) * nodeSize (2 * i + 1))
      ((2 * i + 1) * nodeSize (2 * i + 1) + nodeSize (2 * i + 1)) =
    Set.Ico (i * nodeSize i + nodeSize i / 2) (i * nodeSize i + nodeSize i)
  rw [start]
  congr 1
  omega

theorem initialSection_disjoint (positive : 0 < i) (positive' : 0 < j)
    (level : Nat.log 2 i = Nat.log 2 j) (different : i ≠ j) :
    Disjoint (initialSection i).range (initialSection j).range := by
  have size : nodeSize i = nodeSize j := by
    rw [nodeSize_of_pos positive, nodeSize_of_pos positive', ArrayTree.size, ArrayTree.size, level]
  have apart : ∀ a b : Nat, a < b → a * nodeSize j + nodeSize j ≤ b * nodeSize j := by
    intro a b less
    rw [← Nat.succ_mul]
    exact Nat.mul_le_mul_right _ less
  apply Set.disjoint_left.mpr
  rintro p ⟨above, below⟩ ⟨above', below'⟩
  change i * nodeSize i ≤ p at above
  change p < i * nodeSize i + nodeSize i at below
  change j * nodeSize j ≤ p at above'
  change p < j * nodeSize j + nodeSize j at below'
  rw [size] at above below
  rcases Nat.lt_or_gt_of_ne different with less | greater
  · have order := apart i j less
    omega
  · have order := apart j i greater
    omega

end Nodes

/-- Whatever the array held, every section is written, and from node `1` on the sections are
those of a binary tree over the upper half of the heap. -/
theorem kernelHeapTreeInit_geometry (heap : KernelHeap) :
    let tree := (kernelHeapTreeInit heap 0 (2 ^ 31) 0).heapTree
    (∀ i < kernelHeapLen, (tree i).index = i ∧ (tree i).inUse = false ∧ (tree i).flags = 0) ∧
      (∀ i, 1 ≤ i → i < kernelHeapLen → (tree i).size = 2 ^ 30 >>> Nat.log 2 i ∧
        (tree i).offset = 2 ^ 30 + (i - 2 ^ Nat.log 2 i) * (tree i).size) ∧
      (∀ i, 1 ≤ i → 2 * i + 1 < kernelHeapLen →
        (tree (2 * i)).range =
          Set.Ico (tree i).offset ((tree i).offset + (tree i).size / 2) ∧
        (tree (2 * i + 1)).range =
          Set.Ico ((tree i).offset + (tree i).size / 2) ((tree i).offset + (tree i).size)) ∧
      ∀ i j, 1 ≤ i → i < kernelHeapLen → 1 ≤ j → j < kernelHeapLen →
        Nat.log 2 i = Nat.log 2 j → i ≠ j → Disjoint (tree i).range (tree j).range := by
  obtain ⟨-, written⟩ := kernelHeapTreeInit_boot heap
  refine ⟨?_, ?_, ?_, ?_⟩
  · intro i inside
    rw [written i inside]
    exact ⟨rfl, rfl, rfl⟩
  · intro i positive inside
    rw [written i inside]
    exact ⟨nodeSize_shift positive inside, initialSection_offset positive inside⟩
  · intro i positive inside
    rw [written i (by omega), written (2 * i) (by omega), written (2 * i + 1) inside]
    exact ⟨initialSection_left positive (by omega), initialSection_right positive inside⟩
  · intro i j positive inside positive' inside' level different
    rw [written i inside, written j inside']
    exact initialSection_disjoint positive positive' level different

end SwagOS.Mem
