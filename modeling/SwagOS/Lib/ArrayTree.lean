import Mathlib.Data.Nat.Log
import Mathlib.Tactic.Ring

/-!
# Binary trees in an array

Node `1` is the root and node `i` has the children `2i` and `2i + 1`, so the
ancestors of `i` are the quotients `i / 2^d`.  A tree of height `height` over a
block of `2^height` cells gives node `i` the cells from `i * size` up to
`(i + 1) * size`, with `size` halved on every level: the root covers the cells
from `2^height` to `2^(height + 1)`.  Nodes of which neither is an ancestor of
the other have disjoint cells.
-/

namespace SwagOS.Lib.ArrayTree

def Above (a i : Nat) : Prop := ∃ d, i / 2 ^ d = a

theorem Above.refl (i : Nat) : Above i i := ⟨0, by simp⟩

theorem Above.step {a i : Nat} (above : Above a (i / 2)) : Above a i := by
  obtain ⟨d, reached⟩ := above
  refine ⟨d + 1, ?_⟩
  rw [Nat.pow_succ, Nat.mul_comm, ← Nat.div_div_eq_div_mul]
  exact reached

theorem Above.of_ne {a i : Nat} (above : Above a i) (different : a ≠ i) : Above a (i / 2) := by
  obtain ⟨d, reached⟩ := above
  cases d with
  | zero => exact absurd (by simpa using reached.symm) different
  | succ d =>
    refine ⟨d, ?_⟩
    rw [Nat.pow_succ, Nat.mul_comm, ← Nat.div_div_eq_div_mul] at reached
    exact reached

theorem Above.le {a i : Nat} (above : Above a i) : a ≤ i := by
  obtain ⟨d, reached⟩ := above
  rw [← reached]
  exact Nat.div_le_self i _

theorem Above.trans {a b i : Nat} (upper : Above a b) (lower : Above b i) : Above a i := by
  obtain ⟨d, reachedA⟩ := upper
  obtain ⟨e, reachedB⟩ := lower
  refine ⟨e + d, ?_⟩
  rw [Nat.pow_add, ← Nat.div_div_eq_div_mul, reachedB, reachedA]

theorem Above.left (i : Nat) : Above i (2 * i) := Above.step (by
  rw [Nat.mul_div_cancel_left i (by decide)]
  exact .refl i)

theorem Above.right (i : Nat) : Above i (2 * i + 1) := Above.step (by
  rw [show (2 * i + 1) / 2 = i by omega]
  exact .refl i)

theorem Above.root {i : Nat} (positive : 0 < i) : Above 1 i := by
  induction i using Nat.strong_induction_on with
  | _ i inductionHypothesis =>
    by_cases root : i = 1
    · rw [root]
      exact .refl 1
    · exact Above.step (inductionHypothesis (i / 2) (by omega) (by omega))

/-- A subtree is its root with the subtrees of both children. -/
theorem above_iff {a i : Nat} :
    Above a i ↔ i = a ∨ Above (2 * a) i ∨ Above (2 * a + 1) i := by
  constructor
  · rintro ⟨d, reached⟩
    induction d generalizing a with
    | zero => exact .inl (by simpa using reached)
    | succ d _ =>
      right
      have halved : i / 2 ^ d / 2 = a := by
        rw [Nat.div_div_eq_div_mul, ← Nat.pow_succ]
        exact reached
      rcases Nat.mod_two_eq_zero_or_one (i / 2 ^ d) with even | odd
      · exact .inl ⟨d, by omega⟩
      · exact .inr ⟨d, by omega⟩
  · rintro (rfl | below | below)
    · exact .refl _
    · exact (Above.left a).trans below
    · exact (Above.right a).trans below

/-- Two nodes above one node are above each other one way or the other. -/
theorem Above.total {a b i : Nat} (aboveA : Above a i) (aboveB : Above b i) :
    Above a b ∨ Above b a := by
  obtain ⟨d, rfl⟩ := aboveA
  obtain ⟨e, rfl⟩ := aboveB
  rcases Nat.le_total d e with le | le
  · right
    refine ⟨e - d, ?_⟩
    rw [Nat.div_div_eq_div_mul, ← Nat.pow_add, Nat.add_sub_cancel' le]
  · left
    refine ⟨d - e, ?_⟩
    rw [Nat.div_div_eq_div_mul, ← Nat.pow_add, Nat.add_sub_cancel' le]

theorem not_above_sibling {a c c' : Nat} (positive : 0 < a) (child : c / 2 = a)
    (sibling : c' / 2 = a) (different : c ≠ c') : ¬Above c c' := by
  intro above
  have := (above.of_ne different).le
  omega

/-- The nodes between `a` and a node below its child `c` are `a` itself and those
below `c`. -/
theorem between_iff {a c j : Nat} (positive : 0 < a) (child : c / 2 = a) (below : Above c j)
    (k : Nat) : Above a k ∧ Above k j ↔ k = a ∨ Above c k ∧ Above k j := by
  have aboveChild : Above a c := Above.step (child ▸ .refl a)
  constructor
  · rintro ⟨lower, upper⟩
    have onlyChild : ∀ c', c' / 2 = a → Above c' k → Above c k := by
      intro c' isChild aboveK
      by_cases same : c' = c
      · exact same ▸ aboveK
      · exfalso
        rcases Above.total below (aboveK.trans upper) with above | above
        · exact not_above_sibling positive child isChild (Ne.symm same) above
        · exact not_above_sibling positive isChild child same above
    rcases above_iff.mp lower with same | left | right
    · exact .inl same
    · exact .inr ⟨onlyChild _ (by omega) left, upper⟩
    · exact .inr ⟨onlyChild _ (by omega) right, upper⟩
  · rintro (rfl | ⟨lower, upper⟩)
    · exact ⟨.refl k, aboveChild.trans below⟩
    · exact ⟨aboveChild.trans lower, upper⟩

/-- Cells of node `i` in a tree of the given height. -/
def size (height i : Nat) : Nat := 2 ^ (height - Nat.log 2 i)

theorem size_pos (height i : Nat) : 0 < size height i := Nat.two_pow_pos _

theorem log_double {i : Nat} (positive : 0 < i) : Nat.log 2 (2 * i) = Nat.log 2 i + 1 := by
  rw [Nat.mul_comm]
  exact Nat.log_mul_base (by decide) (by omega)

theorem log_double_succ {i : Nat} (positive : 0 < i) :
    Nat.log 2 (2 * i + 1) = Nat.log 2 i + 1 := by
  have halved := Nat.log_div_base 2 (2 * i + 1)
  have atLeast : 1 ≤ Nat.log 2 (2 * i + 1) := Nat.log_pos (by decide) (by omega)
  rw [show (2 * i + 1) / 2 = i by omega] at halved
  omega

theorem size_half {height i : Nat} (deep : 2 ≤ i) (inside : Nat.log 2 i ≤ height) :
    size height (i / 2) = 2 * size height i := by
  have halved := Nat.log_div_base 2 i
  have atLeast : 1 ≤ Nat.log 2 i := Nat.log_pos (by decide) deep
  unfold size
  rw [halved, ← Nat.pow_succ']
  congr 1
  omega

theorem size_left {height i : Nat} (positive : 0 < i) (inside : Nat.log 2 i < height) :
    size height i = 2 * size height (2 * i) := by
  have level := log_double positive
  rw [← size_half (by omega) (by omega), Nat.mul_div_cancel_left i (by decide)]

theorem size_right {height i : Nat} (positive : 0 < i) (inside : Nat.log 2 i < height) :
    size height i = 2 * size height (2 * i + 1) := by
  have level := log_double_succ positive
  rw [← size_half (by omega) (by omega), show (2 * i + 1) / 2 = i by omega]

/-- The cells of a node lie among those of every node above it. -/
theorem Above.cells {height a i : Nat} (above : Above a i) (positive : 0 < a)
    (inside : Nat.log 2 i ≤ height) :
    a * size height a ≤ i * size height i ∧
      (i + 1) * size height i ≤ (a + 1) * size height a := by
  induction i using Nat.strong_induction_on with
  | _ i inductionHypothesis =>
    by_cases same : a = i
    · subst same
      exact ⟨le_rfl, le_rfl⟩
    · have parent := above.of_ne same
      have deep : 2 ≤ i := by
        have := parent.le
        omega
      have halved := Nat.log_div_base 2 i
      obtain ⟨lower, upper⟩ := inductionHypothesis (i / 2) (by omega) parent (by omega)
      rw [size_half deep inside] at lower upper
      have split : i = 2 * (i / 2) + i % 2 := by omega
      have bit : i % 2 ≤ 1 := by omega
      generalize size height i = s at *
      generalize a * size height a = low at *
      generalize (a + 1) * size height a = high at *
      generalize i / 2 = q at *
      generalize i % 2 = r at *
      subst split
      constructor
      · calc low ≤ q * (2 * s) := lower
          _ ≤ (2 * q + r) * s := by
            rw [← Nat.mul_assoc, Nat.mul_comm q 2]
            exact Nat.mul_le_mul_right s (by omega)
      · calc (2 * q + r + 1) * s ≤ (2 * (q + 1)) * s := Nat.mul_le_mul_right s (by omega)
          _ = (q + 1) * (2 * s) := by ring
          _ ≤ high := upper

theorem log_div_pow (i d : Nat) : Nat.log 2 (i / 2 ^ d) = Nat.log 2 i - d := by
  induction d with
  | zero => simp
  | succ d inductionHypothesis =>
    rw [Nat.pow_succ, ← Nat.div_div_eq_div_mul, Nat.log_div_base, inductionHypothesis]
    omega

theorem cells_disjoint {height i j : Nat} (positiveI : 0 < i) (positiveJ : 0 < j)
    (insideI : Nat.log 2 i ≤ height) (insideJ : Nat.log 2 j ≤ height)
    (notAbove : ¬Above i j) (notBelow : ¬Above j i) :
    (i + 1) * size height i ≤ j * size height j ∨
      (j + 1) * size height j ≤ i * size height i := by
  -- Compare the node of the upper level with the ancestor of the other on that level.
  wlog levels : Nat.log 2 i ≤ Nat.log 2 j generalizing i j
  · exact (this positiveJ positiveI insideJ insideI notBelow notAbove (by omega)).symm
  obtain ⟨a, defA⟩ : ∃ a, a = j / 2 ^ (Nat.log 2 j - Nat.log 2 i) := ⟨_, rfl⟩
  have above : Above a j := ⟨_, defA.symm⟩
  have level : Nat.log 2 a = Nat.log 2 i := by
    rw [defA, log_div_pow]
    omega
  have sameSize : size height a = size height i := by
    unfold size
    rw [level]
  have positiveA : 0 < a := by
    rw [defA]
    apply Nat.div_pos _ (Nat.two_pow_pos _)
    exact le_trans (Nat.pow_le_pow_right (by decide) (Nat.sub_le _ _))
      (Nat.pow_log_le_self 2 (by omega))
  have different : a ≠ i := fun same => notAbove (same ▸ above)
  obtain ⟨lower, upper⟩ := above.cells positiveA insideJ
  rw [sameSize] at lower upper
  rcases Nat.lt_or_gt_of_ne different with less | greater
  · right
    exact le_trans upper (Nat.mul_le_mul_right _ (by omega))
  · left
    exact le_trans (Nat.mul_le_mul_right _ (by omega)) lower

end SwagOS.Lib.ArrayTree
