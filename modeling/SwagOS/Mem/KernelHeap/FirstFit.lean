import Mathlib.Order.Bounds.Basic
import SwagOS.Mem.KernelHeap.Safety

/-!
# First fit

The search of the heap is complete, and takes the lowest free block of its size.  The code
prunes subtrees by size and by the flag of a node, and never by `in_use`.  What a node in use
means for the search is an invariant of the whole tree: somewhere below it a node is occupied,
and occupied nodes are never smaller than `KERNEL_HEAP_MINBLOCK`.
-/

namespace SwagOS.Mem

open SwagOS.Lib SwagOS.Lib.ArrayTree

/-- The search comes down to the node and takes it. -/
structure Reaches (heap : KernelHeap) (size start j : Nat) : Prop where
  below : Above start j
  opened : ∀ k, Above start k → Above k j → Open heap size k
  loose : ∀ k, Above start k → Above k j → k ≠ j → ¬Fits heap size k
  fits : Fits heap size j

section Search

variable {heap : KernelHeap} {size i j : Nat}

theorem Reaches.inside (reaches : Reaches heap size i j) : j < kernelHeapLen :=
  (reaches.opened j reaches.below (.refl j)).1

theorem Reaches.here (opened : Open heap size i) (fits : Fits heap size i) :
    Reaches heap size i i where
  below := .refl i
  opened := by
    intro k lower upper
    rw [le_antisymm upper.le lower.le]
    exact opened
  loose := by
    intro k lower upper different
    exact absurd (le_antisymm upper.le lower.le) different
  fits := fits

/-- A search that ends in the subtree of a child has gone through that child. -/
theorem Reaches.down {child : Nat} (reaches : Reaches heap size i j) (step : Above i child)
    (below : Above child j) : Reaches heap size child j where
  below := below
  opened k lower upper := reaches.opened k (step.trans lower) upper
  loose k lower upper different := reaches.loose k (step.trans lower) upper different
  fits := reaches.fits

theorem Reaches.up {child : Nat} (reaches : Reaches heap size child j)
    (between : ∀ k, Above i k ∧ Above k j ↔ k = i ∨ Above child k ∧ Above k j)
    (opened : Open heap size i) (loose : ¬Fits heap size i) : Reaches heap size i j where
  below := by
    have start := (between i).mpr (.inl rfl)
    exact start.1.trans start.2
  opened k lower upper := by
    rcases (between k).mp ⟨lower, upper⟩ with rfl | ⟨lower', upper'⟩
    · exact opened
    · exact reaches.opened k lower' upper'
  loose k lower upper different := by
    rcases (between k).mp ⟨lower, upper⟩ with rfl | ⟨lower', upper'⟩
    · exact loose
    · exact reaches.loose k lower' upper' different
  fits := reaches.fits

/-- Below a node that is not taken, the search ends below one of its children. -/
theorem Reaches.children (reaches : Reaches heap size i j) (loose : ¬Fits heap size i) :
    i ≠ 0 ∧ Reaches heap size (i * 2) j ∨ Reaches heap size (i * 2 + 1) j := by
  have different : j ≠ i := by
    rintro rfl
    exact loose reaches.fits
  rcases Nat.eq_zero_or_pos i with rfl | positive
  · exact .inr (reaches.down (above_zero 1) (.root (Nat.pos_of_ne_zero different)))
  · rw [Nat.mul_comm]
    rcases above_iff.mp reaches.below with same | left | right
    · exact absurd same different
    · exact .inl ⟨Nat.pos_iff_ne_zero.mp positive, reaches.down (.left i) left⟩
    · exact .inr (reaches.down (.right i) right)

theorem offset_le_of_left {a b : Nat} (positive : 0 < i) (insideA : a < kernelHeapLen)
    (insideB : b < kernelHeapLen) (left : Above (2 * i) a) (right : Above (2 * i + 1) b) :
    a * nodeSize a ≤ b * nodeSize b := by
  have levelA := log_lt_of_lt_len insideA
  have levelB := log_lt_of_lt_len insideB
  have leftLe := left.le
  have rightLe := right.le
  have inner : Nat.log 2 i < 30 := by
    have := Nat.log_mono_right (b := 2) (show i ≤ a by omega)
    omega
  have halves : ArrayTree.size 30 (2 * i) = ArrayTree.size 30 (2 * i + 1) := by
    have l := size_left positive inner
    have r := size_right positive inner
    omega
  obtain ⟨-, upper⟩ := left.cells (by omega) (show Nat.log 2 a ≤ 30 by omega)
  obtain ⟨lower, -⟩ := right.cells (by omega) (show Nat.log 2 b ≤ 30 by omega)
  rw [nodeSize_of_pos (show 0 < a by omega), nodeSize_of_pos (show 0 < b by omega)]
  rw [halves] at upper
  calc a * ArrayTree.size 30 a ≤ (a + 1) * ArrayTree.size 30 a :=
        Nat.mul_le_mul_right _ (Nat.le_succ a)
    _ ≤ (2 * i + 1) * ArrayTree.size 30 (2 * i + 1) := upper
    _ ≤ b * ArrayTree.size 30 b := lower

/-- The result of the search, among all nodes that a search could end in. -/
theorem firstFit_spec (heap : KernelHeap) (size i : Nat) :
    match firstFit heap size i with
    | none => ∀ j, ¬Reaches heap size i j
    | some j => Reaches heap size i j ∧
        ∀ k, Reaches heap size i k → j * nodeSize j ≤ k * nodeSize k := by
  induction remaining : kernelHeapLen - i using Nat.strong_induction_on generalizing i with
  | _ n inductionHypothesis =>
    rw [firstFit]
    by_cases opened : Open heap size i
    swap
    · rw [dif_neg opened]
      intro j reaches
      exact opened (reaches.opened i (.refl i) reaches.below)
    have inside := opened.1
    rw [dif_pos opened]
    by_cases fits : Fits heap size i
    · rw [if_pos fits]
      refine ⟨.here opened fits, ?_⟩
      intro k reaches
      by_cases same : k = i
      · rw [same]
      · exact absurd fits (reaches.loose i (.refl i) reaches.below (Ne.symm same))
    rw [if_neg fits]
    have right := inductionHypothesis (kernelHeapLen - (i * 2 + 1)) (by omega) (i * 2 + 1) rfl
    rcases Nat.eq_zero_or_pos i with rfl | positive
    · rw [if_neg (not_not.mpr rfl), Option.none_or]
      cases found : firstFit heap size (0 * 2 + 1) with
      | none =>
        rw [found] at right
        intro j reaches
        exact right j ((reaches.children fits).resolve_left fun both => both.1 rfl)
      | some j =>
        rw [found] at right
        refine ⟨right.1.up (between_root j) opened fits, ?_⟩
        intro k reaches
        exact right.2 k ((reaches.children fits).resolve_left fun both => both.1 rfl)
    rw [if_pos (Nat.pos_iff_ne_zero.mp positive)]
    have left := inductionHypothesis (kernelHeapLen - i * 2) (by omega) (i * 2) rfl
    cases foundLeft : firstFit heap size (i * 2) with
    | some j =>
      rw [foundLeft] at left
      refine ⟨left.1.up (between_iff positive (by omega) left.1.below) opened fits, ?_⟩
      intro k reaches
      rcases reaches.children fits with ⟨-, here⟩ | there
      · exact left.2 k here
      · refine offset_le_of_left positive left.1.inside reaches.inside ?_ ?_
        · rw [Nat.mul_comm]
          exact left.1.below
        · rw [Nat.mul_comm 2]
          exact there.below
    | none =>
      rw [foundLeft] at left
      rw [Option.none_or]
      cases foundRight : firstFit heap size (i * 2 + 1) with
      | none =>
        rw [foundRight] at right
        intro j reaches
        rcases reaches.children fits with ⟨-, here⟩ | there
        · exact left j here
        · exact right j there
      | some j =>
        rw [foundRight] at right
        refine ⟨right.1.up (between_iff positive (by omega) right.1.below) opened fits, ?_⟩
        intro k reaches
        rcases reaches.children fits with ⟨-, here⟩ | there
        · exact absurd here (left k)
        · exact right.2 k there

theorem markInUse_index (heap : KernelHeap) (i k : Nat) :
    ((heap.markInUse i).heapTree k).index = (heap.heapTree k).index := by
  rw [KernelHeap.markInUse, KernelHeap.write_heapTree]
  split
  · next same => rw [same]
  · rfl

theorem findHeapFrame_index (heap : KernelHeap) (size i k : Nat) :
    ((findHeapFrame heap size i).2.heapTree k).index = (heap.heapTree k).index := by
  induction remaining : kernelHeapLen - i using Nat.strong_induction_on generalizing i with
  | _ n inductionHypothesis =>
    by_cases opened : Open heap size i
    swap
    · rw [findHeapFrame_closed opened]
    have inside := opened.1
    by_cases fits : Fits heap size i
    · rw [findHeapFrame_here opened fits, KernelHeap.write_heapTree]
      split
      · next same => rw [same]
      · rfl
    have searchRight (failed : i = 0 ∨ findHeapFrame heap size (i * 2) = (none, heap)) :
        ((findHeapFrame heap size i).2.heapTree k).index = (heap.heapTree k).index := by
      have right := inductionHypothesis (kernelHeapLen - (i * 2 + 1)) (by omega) (i * 2 + 1) rfl
      rw [findHeapFrame_right opened fits failed rfl]
      split
      · rw [markInUse_index, right]
      · exact right
    rcases Nat.eq_zero_or_pos i with root | positive
    · exact searchRight (.inl root)
    have left := inductionHypothesis (kernelHeapLen - i * 2) (by omega) (i * 2) rfl
    have searched := findHeapFrame_spec heap size (i * 2)
    rcases found : findHeapFrame heap size (i * 2) with ⟨_ | address, after⟩
    · rw [found] at searched
      exact searchRight (.inr (by rw [found, show after = heap from searched]))
    · rw [found] at left
      rw [findHeapFrame_left opened fits positive found, markInUse_index, left]

end Search

def sizeLog (i : Nat) : Nat := if i = 0 then 31 else 30 - Nat.log 2 i

theorem nodeSize_eq_pow (i : Nat) : nodeSize i = 2 ^ sizeLog i := by
  unfold nodeSize sizeLog
  split
  · rfl
  · rfl

theorem kernelHeapMinblock_eq_pow : kernelHeapMinblock = 2 ^ 16 := by decide

theorem nodeSize_le_iff {i e : Nat} : nodeSize i ≤ 2 ^ e ↔ sizeLog i ≤ e := by
  rw [nodeSize_eq_pow]
  exact Nat.pow_le_pow_iff_right (by decide)

theorem le_nodeSize_iff {i e : Nat} : 2 ^ e ≤ nodeSize i ↔ e ≤ sizeLog i := by
  rw [nodeSize_eq_pow]
  exact Nat.pow_le_pow_iff_right (by decide)

theorem nodeSize_half {i e : Nat} (smaller : e < sizeLog i) : 2 ^ e ≤ nodeSize i / 2 := by
  rw [Nat.le_div_iff_mul_le (by decide), ← Nat.pow_succ]
  exact le_nodeSize_iff.mpr smaller

theorem sizeLog_lt {k j : Nat} (above : Above k j) (different : k ≠ j) (inside : j < kernelHeapLen) :
    sizeLog j < sizeLog k := by
  have level := log_lt_of_lt_len inside
  have parent := (above.of_ne different).le
  have positive : 0 < j := by
    have := above.le
    omega
  unfold sizeLog
  rw [if_neg (show j ≠ 0 by omega)]
  split
  · omega
  · next positiveK =>
    have deeper : Nat.log 2 k ≤ Nat.log 2 (j / 2) := Nat.log_mono_right parent
    have halved := Nat.log_div_base 2 j
    have atLeast : 1 ≤ Nat.log 2 j := Nat.log_pos (by decide) (by omega)
    omega

theorem sizeLog_child {j : Nat} (larger : 16 < sizeLog j) :
    j * 2 + 1 < kernelHeapLen ∧ sizeLog (j * 2 + 1) + 1 = sizeLog j := by
  unfold sizeLog at larger ⊢
  rw [if_neg (show j * 2 + 1 ≠ 0 by omega)]
  split at larger
  · next root =>
    subst root
    exact ⟨by decide, by decide⟩
  · next positive =>
    have level : Nat.log 2 (2 * j + 1) = Nat.log 2 j + 1 := log_double_succ (by omega)
    have bound : j < 2 ^ 15 := by
      apply Nat.lt_pow_of_log_lt (by decide)
      omega
    rw [if_neg positive, Nat.mul_comm, level]
    refine ⟨?_, by omega⟩
    unfold kernelHeapLen
    omega

/-- What the marks say about the whole tree. -/
structure MarkInv (heap : KernelHeap) : Prop extends HeapInv heap where
  marked : ∀ i < kernelHeapLen, (heap.heapTree i).inUse = true →
    ∃ j < kernelHeapLen, Above i j ∧ (heap.heapTree j).occupied = true
  large : ∀ i < kernelHeapLen, (heap.heapTree i).occupied = true → 16 ≤ sizeLog i

theorem MarkInv.boot {heap : KernelHeap} (va : heap.vaStart = kernelHeapStart) :
    MarkInv (kernelHeapTreeInit heap 0 (2 ^ 31) 0) where
  toHeapInv := .boot va
  marked i inside used := by
    rw [(kernelHeapTreeInit_boot heap).2 i inside] at used
    exact absurd used (by simp [initialSection])
  large i inside occupied := by
    rw [(kernelHeapTreeInit_boot heap).2 i inside] at occupied
    exact absurd occupied (by simp [initialSection, HeapSection.occupied])

section Marks

variable {heap : KernelHeap} {size j : Nat}

theorem HeapInv.inUse_above (inv : HeapInv heap) {a i : Nat} (above : Above a i)
    (inside : i < kernelHeapLen) (used : (heap.heapTree i).inUse = true) :
    (heap.heapTree a).inUse = true := by
  induction i using Nat.strong_induction_on with
  | _ i inductionHypothesis =>
    by_cases same : a = i
    · rw [same]
      exact used
    · have positive : 0 < i := by
        have := above.le
        omega
      exact inductionHypothesis (i / 2) (by omega) (above.of_ne same) (by omega)
        (inv.inUseParent i inside positive used)

/-- A node in use that is not occupied itself has room for a smaller occupied node below it, so
it is larger than the smallest blocks. -/
theorem MarkInv.larger (inv : MarkInv heap) {i : Nat} (inside : i < kernelHeapLen)
    (used : (heap.heapTree i).inUse = true) (clear : (heap.heapTree i).occupied = false) :
    16 < sizeLog i := by
  obtain ⟨k, insideK, above, occupied⟩ := inv.marked i inside used
  have different : i ≠ k := by
    rintro rfl
    rw [clear] at occupied
    exact absurd occupied (by decide)
  exact lt_of_le_of_lt (inv.large k insideK occupied) (sizeLog_lt above different insideK)

/-- The search takes no block below the smallest size: it would have taken the block of that
size above it before. -/
theorem Reaches.large (inv : MarkInv heap) (reaches : Reaches heap size 0 j) : 16 ≤ sizeLog j := by
  by_contra! small
  have inside := reaches.inside
  have level := log_lt_of_lt_len inside
  have positive : j ≠ 0 := by
    rintro rfl
    exact absurd small (by decide)
  have deep : 14 < Nat.log 2 j := by
    unfold sizeLog at small
    rw [if_neg positive] at small
    omega
  -- the ancestor on the level of the smallest blocks
  obtain ⟨k, defK⟩ : ∃ k, k = j / 2 ^ (Nat.log 2 j - 14) := ⟨_, rfl⟩
  have above : Above k j := ⟨_, defK.symm⟩
  have levelK : Nat.log 2 k = 14 := by
    rw [defK, log_div_pow]
    omega
  have different : k ≠ j := by
    rintro rfl
    omega
  have logK : sizeLog k = 16 := by
    unfold sizeLog
    rw [if_neg, levelK]
    rintro rfl
    simp at levelK
  obtain ⟨insideK, -, clear⟩ := reaches.opened k (above_zero k) above
  apply reaches.loose k (above_zero k) above different
  refine ⟨.inr ?_, ?_⟩
  · rw [inv.sizes k insideK, nodeSize_eq_pow, logK, kernelHeapMinblock_eq_pow]
  · by_contra used
    have := inv.larger insideK (by simpa using used) clear
    omega

/-- The node is a free block of the smallest block size that serves the request: neither it
nor an ancestor nor a descendant is occupied. -/
structure FreeFor (heap : KernelHeap) (size j : Nat) : Prop where
  inside : j < kernelHeapLen
  smallest : IsLeast
    {block | (∃ i < kernelHeapLen, (heap.heapTree i).size = block) ∧
      max size kernelHeapMinblock ≤ block} (heap.heapTree j).size
  ancestors : ∀ k, Above k j → (heap.heapTree k).occupied = false
  descendants : ∀ k < kernelHeapLen, Above j k → (heap.heapTree k).occupied = false

theorem Reaches.freeFor (inv : MarkInv heap) (reaches : Reaches heap size 0 j) :
    FreeFor heap size j where
  inside := reaches.inside
  smallest := by
    have inside := reaches.inside
    have large := reaches.large inv
    have enough := (reaches.opened j reaches.below (.refl j)).2.1
    refine ⟨⟨⟨j, inside, rfl⟩, ?_⟩, ?_⟩
    · apply max_le enough
      rw [inv.sizes j inside, kernelHeapMinblock_eq_pow]
      exact le_nodeSize_iff.mpr large
    · rintro _ ⟨⟨i, insideI, rfl⟩, serves⟩
      obtain ⟨served, floor⟩ := max_le_iff.mp serves
      rcases reaches.fits.1 with tight | least
      · rw [inv.sizes j inside] at tight ⊢
        rw [inv.sizes i insideI] at served ⊢
        by_contra! smaller
        rw [nodeSize_eq_pow i] at smaller served
        have : sizeLog i < sizeLog j := by
          by_contra! le
          exact absurd (nodeSize_le_iff.mpr le) (not_le.mpr smaller)
        have := nodeSize_half this
        omega
      · rw [least]
        exact floor
  ancestors k above := (reaches.opened k (above_zero k) above).2.2
  descendants k inside below := by
    by_contra occupied
    have used := inv.occupiedInUse k inside (by simpa using occupied)
    have := inv.inUse_above below inside used
    rw [reaches.fits.2] at this
    exact absurd this (by decide)

theorem FreeFor.reaches (inv : MarkInv heap) (free : FreeFor heap size j) :
    Reaches heap size 0 j := by
  have inside := free.inside
  obtain ⟨⟨-, serves⟩, least⟩ := free.smallest
  obtain ⟨served, floor⟩ := max_le_iff.mp serves
  rw [inv.sizes j inside] at served floor least
  rw [kernelHeapMinblock_eq_pow, le_nodeSize_iff] at floor
  refine ⟨above_zero j, ?_, ?_, ?_, ?_⟩
  · intro k _ above
    have insideK : k < kernelHeapLen := lt_of_le_of_lt above.le inside
    refine ⟨insideK, ?_, free.ancestors k above⟩
    rw [inv.sizes k insideK]
    refine served.trans ?_
    rw [nodeSize_eq_pow j, le_nodeSize_iff]
    by_cases same : k = j
    · rw [same]
    · exact (sizeLog_lt above same inside).le
  · rintro k - above different ⟨tight | small, -⟩
    all_goals
      have larger := sizeLog_lt above different inside
      rw [inv.sizes k (lt_of_le_of_lt above.le inside)] at *
    · have := nodeSize_half larger
      rw [← nodeSize_eq_pow j] at this
      omega
    · rw [kernelHeapMinblock_eq_pow, nodeSize_eq_pow] at small
      have := Nat.pow_right_injective (le_refl 2) small
      omega
  · rw [inv.sizes j inside]
    by_contra! loose
    obtain ⟨halfServes, notSmallest⟩ := loose
    have larger : 16 < sizeLog j := by
      refine lt_of_le_of_ne floor ?_
      intro same
      apply notSmallest
      rw [nodeSize_eq_pow, ← same, kernelHeapMinblock_eq_pow]
    -- the right child would serve the request as well
    obtain ⟨insideChild, childLog⟩ := sizeLog_child larger
    have childSize : nodeSize j = nodeSize (j * 2 + 1) * 2 := by
      rw [nodeSize_eq_pow, nodeSize_eq_pow, ← childLog, Nat.pow_succ]
    have : nodeSize j ≤ nodeSize (j * 2 + 1) := by
      refine least ⟨⟨j * 2 + 1, insideChild, inv.sizes _ insideChild⟩, ?_⟩
      apply max_le
      · omega
      · rw [kernelHeapMinblock_eq_pow, le_nodeSize_iff]
        omega
    have := nodeSize_pos (j * 2 + 1)
    omega
  · by_contra used
    obtain ⟨k, insideK, below, occupied⟩ := inv.marked j inside (by simpa using used)
    rw [free.descendants k insideK below] at occupied
    exact absurd occupied (by decide)

/-- A node taken by the search keeps the meaning of the marks. -/
theorem MarkInv.taken {before after : KernelHeap} (inv : MarkInv before)
    (taken : Taken before after size 0 j) (large : 16 ≤ sizeLog j) : MarkInv after where
  toHeapInv := inv.toHeapInv.taken taken
  marked i inside used := by
    rcases (taken.inUse i).mp used with old | ⟨-, above⟩
    · obtain ⟨k, insideK, below, occupied⟩ := inv.marked i inside old
      exact ⟨k, insideK, below, (taken.occupied_iff k).mpr (.inl occupied)⟩
    · exact ⟨j, taken.inside, above, (taken.occupied_iff j).mpr (.inr rfl)⟩
  large i inside occupied := by
    rcases (taken.occupied_iff i).mp occupied with old | same
    · exact inv.large i inside old
    · rw [same]
      exact large

/-- The search is `firstFit`, and the node it takes is the lowest free block. -/
theorem findHeapFrame_taken (inv : MarkInv heap) (size : Nat) :
    match findHeapFrame heap size 0 with
    | (none, after) => after = heap ∧ ∀ j, ¬FreeFor heap size j
    | (some address, after) => ∃ j, FreeFor heap size j ∧
        (∀ k, FreeFor heap size k → j * nodeSize j ≤ k * nodeSize k) ∧
        Taken heap after size 0 j ∧ 16 ≤ sizeLog j ∧
        address = ((heap.heapTree j).offset + heap.vaStart) % 2 ^ 64 := by
  have finds := findHeapFrame_firstFit heap size 0
  have spec := firstFit_spec heap size 0
  cases found : firstFit heap size 0 with
  | none =>
    rw [found] at finds spec
    rw [show findHeapFrame heap size 0 = (none, heap) from finds]
    refine ⟨rfl, ?_⟩
    intro j free
    exact spec j (free.reaches inv)
  | some j =>
    rw [found] at finds spec
    obtain ⟨after, searched, taken⟩ := finds
    rw [searched]
    refine ⟨j, spec.1.freeFor inv, ?_, taken, spec.1.large inv, rfl⟩
    intro k free
    exact spec.2 k (free.reaches inv)

end Marks

def HeapBoot (s : HeapState) : Prop :=
  s.lockHeld = false ∧ ∃ memory : KernelHeap, memory.vaStart = kernelHeapStart ∧
    s.heap = kernelHeapTreeInit memory 0 (2 ^ 31) 0

inductive HeapCall : HeapState → HeapState → Prop
  | kalloc {s after : HeapState} {size : Nat} {result : Option Nat} (word : size < 2 ^ 64)
      (called : kalloc s size = .ok (result, after)) : HeapCall s after
  | kfree {s after : HeapState} {address : Nat} {result : Bool} (word : address < 2 ^ 64)
      (called : kfree s address = .ok (result, after)) : HeapCall s after

theorem MarkInv.call {s after : HeapState} (inv : MarkInv s.heap) (moved : HeapCall s after) :
    MarkInv after.heap := by
  cases moved with
  | @kalloc size result word called =>
    obtain ⟨-, searched, -⟩ := kalloc_ok called
    have spec := findHeapFrame_taken inv size
    rw [← searched] at spec
    cases result with
    | none =>
      rw [spec.1]
      exact inv
    | some address =>
      obtain ⟨j, -, -, taken, large, -⟩ := spec
      exact inv.taken taken large
  | kfree word called =>
    rw [kfree_heap called]
    exact inv

theorem MarkInv.of_reachable {s : HeapState} (reached : Reachable HeapBoot HeapCall s) :
    MarkInv s.heap := by
  have started : ∀ t, HeapBoot t → MarkInv t.heap := by
    rintro t ⟨-, memory, va, built⟩
    rw [built]
    exact .boot va
  exact reached.invariant started fun _ _ inv moved => inv.call moved

theorem HeapSection.eq_of_fields {a b : HeapSection} (size : a.size = b.size)
    (offset : a.offset = b.offset) (index : a.index = b.index) (inUse : a.inUse = b.inUse)
    (flags : a.flags = b.flags) : a = b := by
  cases a
  cases b
  simp_all

/-- The sections of the tree after node `j` was taken. -/
structure TakenExactly (before after : KernelHeap) (j : Nat) : Prop where
  vaStart : after.vaStart = before.vaStart
  node : after.heapTree j =
    { before.heapTree j with inUse := true, flags := heapFlagOccupied }
  ancestors : ∀ k, Above k j → k ≠ j →
    after.heapTree k = { before.heapTree k with inUse := true }
  others : ∀ k, ¬Above k j → after.heapTree k = before.heapTree k

theorem Taken.exactly {before after : KernelHeap} {size j : Nat}
    (taken : Taken before after size 0 j)
    (indices : ∀ k, (after.heapTree k).index = (before.heapTree k).index) :
    TakenExactly before after j where
  vaStart := taken.vaStart
  node := by
    refine HeapSection.eq_of_fields (taken.sizes j) (taken.offsets j) (indices j) ?_ ?_
    · exact (taken.inUse j).mpr (.inr ⟨taken.below, .refl j⟩)
    · rw [taken.flags, if_pos rfl]
  ancestors k above different := by
    refine HeapSection.eq_of_fields (taken.sizes k) (taken.offsets k) (indices k) ?_ ?_
    · exact (taken.inUse k).mpr (.inr ⟨above_zero k, above⟩)
    · rw [taken.flags, if_neg different]
  others k apart := by
    refine HeapSection.eq_of_fields (taken.sizes k) (taken.offsets k) (indices k) ?_ ?_
    · rw [Bool.eq_iff_iff, taken.inUse k]
      exact or_iff_left fun between => apart between.2
    · rw [taken.flags, if_neg]
      rintro rfl
      exact apart (.refl k)

/-- On every heap that calls of `kalloc` and `kfree` lead to, and for every size: a request
succeeds exactly when there is a free block of the smallest size that serves it, takes the one
at the lowest offset, and marks that node and its ancestors and no other.  A request that fails
leaves the heap as it was. -/
theorem kheapRequest_firstFit {s : HeapState} (reached : Reachable HeapBoot HeapCall s)
    (size : Nat) :
    ((kheapRequest s.heap size).1.isSome = true ↔ ∃ j, FreeFor s.heap size j) ∧
      (∀ address after, kheapRequest s.heap size = (some address, after) →
        ∃ j, FreeFor s.heap size j ∧
          (∀ k, FreeFor s.heap size k → (s.heap.heapTree j).offset ≤ (s.heap.heapTree k).offset) ∧
          address = s.heap.vaStart + (s.heap.heapTree j).offset ∧
          TakenExactly s.heap after j) ∧
      ∀ after, kheapRequest s.heap size = (none, after) → after = s.heap := by
  have inv := MarkInv.of_reachable reached
  have spec := findHeapFrame_taken inv size
  have indices := findHeapFrame_index s.heap size 0
  unfold kheapRequest
  rcases found : findHeapFrame s.heap size 0 with ⟨_ | address, after⟩
  · rw [found] at spec
    obtain ⟨unchanged, none⟩ := spec
    refine ⟨?_, ?_, ?_⟩
    · simpa using none
    · rintro _ _ ⟨⟩
    · rintro _ ⟨⟩
      exact unchanged
  · rw [found] at spec indices
    obtain ⟨j, free, lowest, taken, -, located⟩ := spec
    refine ⟨?_, ?_, ?_⟩
    · simpa using ⟨j, free⟩
    · rintro _ _ ⟨⟩
      refine ⟨j, free, ?_, ?_, taken.exactly indices⟩
      · intro k other
        rw [inv.offsets j free.inside, inv.offsets k other.inside]
        exact lowest k other
      · have last := node_end_le free.inside
        rw [Nat.add_mul] at last
        have wrap : kernelHeapStart + 2 ^ 31 < 2 ^ 64 := by decide
        have positive := nodeSize_pos j
        rw [located, inv.offsets j free.inside, inv.vaStart, Nat.mod_eq_of_lt (by omega)]
        exact Nat.add_comm _ _
    · rintro _ ⟨⟩

theorem bootRun_boot : HeapBoot bootRun.state := ⟨rfl, _, rfl, rfl⟩

theorem bootRun_freeFor : ∃ j, FreeFor bootRun.state.heap (2 ^ 29) j := by
  obtain ⟨address, found⟩ := bootRun_finds
  have taken := findHeapFrame_taken (MarkInv.of_reachable (.base bootRun_boot)) (2 ^ 29)
  rw [found] at taken
  obtain ⟨j, free, -⟩ := taken
  exact ⟨j, free⟩

theorem oneTaken_later {i : Nat} (later : 2 < i) (inside : i < kernelHeapLen) :
    oneTaken.heapTree i = initialSection i := by
  simp only [oneTaken, KernelHeap.markInUse, KernelHeap.write_heapTree]
  rw [if_neg (by omega), if_neg (by omega), if_neg (by omega), bootRun_heapTree inside]

/-- The heap after one more request for a quarter of node `1`: node `2` and half of node `3` are
taken. -/
def fragmented : KernelHeap :=
  (((oneTaken.write 6
    { oneTaken.heapTree 6 with flags := heapFlagOccupied, inUse := true }).markInUse 3).markInUse
      1).markInUse 0

theorem fragmented_heapTree : fragmented.heapTree 0 = { initialSection 0 with inUse := true } ∧
    fragmented.heapTree 1 = { initialSection 1 with inUse := true } ∧
    fragmented.heapTree 2 =
      { initialSection 2 with inUse := true, flags := heapFlagOccupied } ∧
    fragmented.heapTree 3 = { initialSection 3 with inUse := true } ∧
    fragmented.heapTree 6 =
      { initialSection 6 with inUse := true, flags := heapFlagOccupied } ∧
    fragmented.heapTree 7 = initialSection 7 := by
  obtain ⟨root, one, two, three⟩ := oneTaken_heapTree
  have six := @oneTaken_later 6 (by decide) (by decide)
  have seven := @oneTaken_later 7 (by decide) (by decide)
  simp only [fragmented, KernelHeap.markInUse, KernelHeap.write_heapTree, root, one, two, three,
    six, seven]
  exact ⟨rfl, rfl, rfl, rfl, rfl, rfl⟩

theorem oneTaken_finds_quarter : ∃ address,
    findHeapFrame oneTaken (2 ^ 28) 0 = (some address, fragmented) := by
  obtain ⟨root, one, two, three⟩ := oneTaken_heapTree
  have six := @oneTaken_later 6 (by decide) (by decide)
  exact ⟨_, findHeapFrame_right (by rw [Open, root]; decide) (by rw [Fits, root]; decide)
    (.inl rfl) (findHeapFrame_right (by rw [Open, one]; decide) (by rw [Fits, one]; decide)
    (.inr (findHeapFrame_closed (by rw [Open, two]; decide)))
    (findHeapFrame_left (by rw [Open, three]; decide) (by rw [Fits, three]; decide) (by decide)
    (findHeapFrame_here (by rw [Open, six]; decide) (by rw [Fits, six]; decide))))⟩

theorem fragmented_finds : ∃ address after,
    findHeapFrame fragmented (2 ^ 28) 0 = (some address, after) := by
  obtain ⟨root, one, two, three, six, seven⟩ := fragmented_heapTree
  exact ⟨_, _, findHeapFrame_right (by rw [Open, root]; decide) (by rw [Fits, root]; decide)
    (.inl rfl) (findHeapFrame_right (by rw [Open, one]; decide) (by rw [Fits, one]; decide)
    (.inr (findHeapFrame_closed (by rw [Open, two]; decide)))
    (findHeapFrame_right (by rw [Open, three]; decide) (by rw [Fits, three]; decide)
    (.inr (findHeapFrame_closed (by rw [Open, six]; decide)))
    (findHeapFrame_here (by rw [Open, seven]; decide) (by rw [Fits, seven]; decide))))⟩

theorem fragmented_reached : Reachable HeapBoot HeapCall ⟨fragmented, false⟩ := by
  obtain ⟨first, foundFirst⟩ := bootRun_finds
  obtain ⟨second, foundSecond⟩ := oneTaken_finds_quarter
  have half : kalloc bootRun.state (2 ^ 29) = .ok (some first, ⟨oneTaken, false⟩) :=
    kalloc_of_found rfl foundFirst
  have quarter : kalloc ⟨oneTaken, false⟩ (2 ^ 28) = .ok (some second, ⟨fragmented, false⟩) :=
    kalloc_of_found rfl foundSecond
  exact ((Reachable.base bootRun_boot).next (.kalloc (by decide) half)).next
    (.kalloc (by decide) quarter)

theorem kheapRequest_firstFit_fragmented : ∃ address after j,
    kheapRequest fragmented (2 ^ 28) = (some address, after) ∧ FreeFor fragmented (2 ^ 28) j ∧
      (∀ k, FreeFor fragmented (2 ^ 28) k →
        (fragmented.heapTree j).offset ≤ (fragmented.heapTree k).offset) ∧
      TakenExactly fragmented after j := by
  obtain ⟨address, after, found⟩ := fragmented_finds
  obtain ⟨-, first, -⟩ := kheapRequest_firstFit fragmented_reached (2 ^ 28)
  obtain ⟨j, free, lowest, -, taken⟩ := first address after found
  exact ⟨address, after, j, found, free, lowest, taken⟩

end SwagOS.Mem
