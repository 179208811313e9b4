import SwagOS.Mem.KernelHeap.Tree

/-!
# What a search does

`find_heap_frame` either leaves the heap alone or takes one free node below the
node it was started at and marks the nodes on the way down.  The rest of the
development uses this fact and never unfolds the search.
-/

namespace SwagOS.Mem

open SwagOS.Lib SwagOS.Lib.ArrayTree

def Open (heap : KernelHeap) (size index : Nat) : Prop :=
  index < kernelHeapLen ∧ size ≤ (heap.heapTree index).size ∧
    (heap.heapTree index).occupied = false

def Fits (heap : KernelHeap) (size index : Nat) : Prop :=
  ((heap.heapTree index).size / 2 < size ∨ (heap.heapTree index).size = kernelHeapMinblock) ∧
    (heap.heapTree index).inUse = false

theorem findHeapFrame_closed {heap : KernelHeap} {size index : Nat}
    (closed : ¬Open heap size index) : findHeapFrame heap size index = (none, heap) := by
  rw [findHeapFrame]
  by_cases outside : kernelHeapLen ≤ index
  · rw [if_pos outside]
  · rw [if_neg outside]
    have stop : size > (heap.heapTree index).size ∨ (heap.heapTree index).occupied = true := by
      by_contra go
      obtain ⟨fits, clear⟩ := not_or.mp go
      exact closed ⟨not_le.mp outside, not_lt.mp fits, by simpa using clear⟩
    simp only [stop, ↓reduceIte]

theorem findHeapFrame_here {heap : KernelHeap} {size index : Nat} (open' : Open heap size index)
    (fits : Fits heap size index) :
    findHeapFrame heap size index =
      (some (((heap.heapTree index).offset + heap.vaStart) % 2 ^ 64), heap.write index
        { heap.heapTree index with flags := heapFlagOccupied, inUse := true }) := by
  obtain ⟨inside, enough, clear⟩ := open'
  obtain ⟨tight, free⟩ := fits
  rw [findHeapFrame, if_neg (not_le.mpr inside)]
  simp [not_lt.mpr enough, enough, clear, tight, free]

theorem findHeapFrame_left {heap after : KernelHeap} {size index address : Nat}
    (open' : Open heap size index) (loose : ¬Fits heap size index) (positive : 0 < index)
    (found : findHeapFrame heap size (index * 2) = (some address, after)) :
    findHeapFrame heap size index = (some address, after.markInUse index) := by
  obtain ⟨inside, enough, clear⟩ := open'
  rw [findHeapFrame, if_neg (not_le.mpr inside)]
  unfold Fits at loose
  simp [not_lt.mpr enough, enough, clear, loose, Nat.ne_of_gt positive, found]

theorem findHeapFrame_right {heap after : KernelHeap} {size index : Nat} {result : Option Nat}
    (open' : Open heap size index) (loose : ¬Fits heap size index)
    (failed : index = 0 ∨ findHeapFrame heap size (index * 2) = (none, heap))
    (searched : findHeapFrame heap size (index * 2 + 1) = (result, after)) :
    findHeapFrame heap size index =
      (result, if result.isSome then after.markInUse index else after) := by
  obtain ⟨inside, enough, clear⟩ := open'
  have leftFails : (if index ≠ 0 then findHeapFrame heap size (index * 2)
      else (none, heap)) = (none, heap) := by
    split
    · next positive => exact failed.resolve_left positive
    · rfl
  rw [findHeapFrame, if_neg (not_le.mpr inside)]
  unfold Fits at loose
  simp only [gt_iff_lt, not_lt.mpr enough, clear, Bool.false_eq_true, or_self, ↓reduceIte,
    ge_iff_le, enough, loose, and_false, leftFails, searched]
  cases result <;> simp

/-- What a successful search from node `from` does: it takes a free node `j`
below, and marks the nodes on the way down to it. -/
structure Taken (before after : KernelHeap) (size start j : Nat) : Prop where
  below : Above start j
  inside : j < kernelHeapLen
  fits : size ≤ (before.heapTree j).size
  free : (before.heapTree j).inUse = false
  vaStart : after.vaStart = before.vaStart
  sizes : ∀ k, (after.heapTree k).size = (before.heapTree k).size
  offsets : ∀ k, (after.heapTree k).offset = (before.heapTree k).offset
  inUse : ∀ k, (after.heapTree k).inUse = true ↔
    (before.heapTree k).inUse = true ∨ Above start k ∧ Above k j
  flags : ∀ k, (after.heapTree k).flags =
    if k = j then heapFlagOccupied else (before.heapTree k).flags
  clear : ∀ k, Above start k → Above k j → (before.heapTree k).occupied = false

theorem Taken.here {heap : KernelHeap} {size index : Nat} (inside : index < kernelHeapLen)
    (fits : size ≤ (heap.heapTree index).size) (clear : (heap.heapTree index).occupied = false)
    (free : (heap.heapTree index).inUse = false) :
    Taken heap (heap.write index
      { heap.heapTree index with flags := heapFlagOccupied, inUse := true }) size index index where
  below := .refl index
  inside := inside
  fits := fits
  free := free
  vaStart := rfl
  sizes k := by rw [KernelHeap.write_heapTree]; split <;> simp_all
  offsets k := by rw [KernelHeap.write_heapTree]; split <;> simp_all
  inUse k := by
    rw [KernelHeap.write_heapTree]
    constructor
    · intro marked
      split at marked
      · next same => exact .inr (same ▸ ⟨.refl k, .refl k⟩)
      · exact .inl marked
    · rintro (marked | ⟨lower, upper⟩)
      · split
        · rfl
        · exact marked
      · rw [if_pos (le_antisymm upper.le lower.le)]
  flags k := by rw [KernelHeap.write_heapTree]; split <;> rfl
  clear k lower upper := by rw [le_antisymm upper.le lower.le]; exact clear

/-- A search that succeeded in a child is carried on by marking the parent. -/
theorem Taken.up {before after : KernelHeap} {size index child j : Nat}
    (taken : Taken before after size child j)
    (between : ∀ k, Above index k ∧ Above k j ↔ k = index ∨ Above child k ∧ Above k j)
    (clear : (before.heapTree index).occupied = false) :
    Taken before (after.markInUse index) size index j where
  below := ((between index).mpr (.inl rfl)).1.trans ((between index).mpr (.inl rfl)).2
  inside := taken.inside
  fits := taken.fits
  free := taken.free
  vaStart := taken.vaStart
  sizes k := by
    rw [← taken.sizes k, KernelHeap.markInUse, KernelHeap.write_heapTree]
    split <;> simp_all
  offsets k := by
    rw [← taken.offsets k, KernelHeap.markInUse, KernelHeap.write_heapTree]
    split <;> simp_all
  inUse k := by
    rw [between k, KernelHeap.markInUse, KernelHeap.write_heapTree]
    by_cases same : k = index
    · simp [same]
    · simpa [same] using taken.inUse k
  flags k := by
    rw [← taken.flags k, KernelHeap.markInUse, KernelHeap.write_heapTree]
    split <;> simp_all
  clear k lower upper := by
    rcases (between k).mp ⟨lower, upper⟩ with same | ⟨lower', upper'⟩
    · exact same ▸ clear
    · exact taken.clear k lower' upper'

theorem above_zero (i : Nat) : Above 0 i := ⟨i, Nat.div_eq_of_lt Nat.lt_two_pow_self⟩

theorem between_root (j k : Nat) :
    Above 0 k ∧ Above k j ↔ k = 0 ∨ Above 1 k ∧ Above k j := by
  constructor
  · rintro ⟨-, upper⟩
    rcases Nat.eq_zero_or_pos k with zero | positive
    · exact .inl zero
    · exact .inr ⟨.root positive, upper⟩
  · rintro (rfl | ⟨-, upper⟩)
    · exact ⟨.refl 0, above_zero j⟩
    · exact ⟨above_zero k, upper⟩

instance (heap : KernelHeap) (size index : Nat) : Decidable (Open heap size index) :=
  inferInstanceAs (Decidable (_ ∧ _ ∧ _))

instance (heap : KernelHeap) (size index : Nat) : Decidable (Fits heap size index) :=
  inferInstanceAs (Decidable (_ ∧ _))

/-- The node that a search takes.  A search that fails stores nothing, so that the one on the
right sees the heap of the one on the left. -/
def firstFit (heap : KernelHeap) (size index : Nat) : Option Nat :=
  if opened : Open heap size index then
    if Fits heap size index then some index
    else
      (if index ≠ 0 then firstFit heap size (index * 2) else none).or
        (firstFit heap size (index * 2 + 1))
  else none
termination_by kernelHeapLen - index
decreasing_by
  all_goals
    have inside := opened.1
    omega

/-- What the search returns: it leaves the heap alone, or takes the node and returns its
address. -/
def Finds (heap : KernelHeap) (size start : Nat) (found : Option Nat)
    (searched : Option Nat × KernelHeap) : Prop :=
  match found with
  | none => searched = (none, heap)
  | some j => ∃ after, searched = (some (((heap.heapTree j).offset + heap.vaStart) % 2 ^ 64), after) ∧
      Taken heap after size start j

theorem findHeapFrame_firstFit (heap : KernelHeap) (size index : Nat) :
    Finds heap size index (firstFit heap size index) (findHeapFrame heap size index) := by
  induction remaining : kernelHeapLen - index using Nat.strong_induction_on
      generalizing index with
  | _ n inductionHypothesis =>
    rw [firstFit]
    by_cases opened : Open heap size index
    swap
    · rw [dif_neg opened]
      exact findHeapFrame_closed opened
    obtain ⟨inside, enough, clear⟩ := id opened
    rw [dif_pos opened]
    by_cases fits : Fits heap size index
    · rw [if_pos fits]
      exact ⟨_, findHeapFrame_here opened fits, .here inside enough clear fits.2⟩
    rw [if_neg fits]
    have rightSpec : Finds heap size (index * 2 + 1) (firstFit heap size (index * 2 + 1))
        (findHeapFrame heap size (index * 2 + 1)) :=
      inductionHypothesis (kernelHeapLen - (index * 2 + 1)) (by omega) (index * 2 + 1) rfl
    -- The right search runs on an unchanged heap: a failed left search stores nothing.
    have searchRight : (index = 0 ∨ findHeapFrame heap size (index * 2) = (none, heap)) →
        Finds heap size index (firstFit heap size (index * 2 + 1))
          (findHeapFrame heap size index) := by
      intro failed
      cases found : firstFit heap size (index * 2 + 1) with
      | none =>
        rw [found] at rightSpec
        exact findHeapFrame_right opened fits failed rightSpec
      | some j =>
        rw [found] at rightSpec
        obtain ⟨after, searched, taken⟩ := rightSpec
        refine ⟨_, findHeapFrame_right opened fits failed searched, taken.up ?_ clear⟩
        rcases Nat.eq_zero_or_pos index with rfl | positive
        · exact between_root j
        · exact between_iff positive (by omega) taken.below
    rcases Nat.eq_zero_or_pos index with root | positive
    · rw [if_neg (not_not.mpr root), Option.none_or]
      exact searchRight (.inl root)
    · rw [if_pos (Nat.pos_iff_ne_zero.mp positive)]
      have leftSpec : Finds heap size (index * 2) (firstFit heap size (index * 2))
          (findHeapFrame heap size (index * 2)) :=
        inductionHypothesis (kernelHeapLen - index * 2) (by omega) (index * 2) rfl
      cases found : firstFit heap size (index * 2) with
      | none =>
        rw [found] at leftSpec
        exact searchRight (.inr leftSpec)
      | some j =>
        rw [found] at leftSpec
        obtain ⟨after, searched, taken⟩ := leftSpec
        exact ⟨_, findHeapFrame_left opened fits positive searched,
          taken.up (between_iff positive (by omega) taken.below) clear⟩

/-- What the search returns: it leaves the heap alone, or takes a node below its
start and returns that node's address. -/
def Searched (heap : KernelHeap) (size start : Nat) : Option Nat × KernelHeap → Prop
  | (none, after) => after = heap
  | (some address, after) => ∃ j, Taken heap after size start j ∧
      address = ((heap.heapTree j).offset + heap.vaStart) % 2 ^ 64

theorem findHeapFrame_spec (heap : KernelHeap) (size index : Nat) :
    Searched heap size index (findHeapFrame heap size index) := by
  have finds := findHeapFrame_firstFit heap size index
  cases found : firstFit heap size index with
  | none =>
    rw [found] at finds
    rw [show findHeapFrame heap size index = (none, heap) from finds]
    rfl
  | some j =>
    rw [found] at finds
    obtain ⟨after, searched, taken⟩ := finds
    rw [searched]
    exact ⟨j, taken, rfl⟩

end SwagOS.Mem
