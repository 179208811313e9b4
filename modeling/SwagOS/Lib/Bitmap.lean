import Mathlib.Data.Finset.Card
import Mathlib.Data.Finset.Range

/-!
# Bitmaps in arrays of words

An array of `w`-bit words of which `per` bits each are used holds bit `k` at
position `k % per` of word `k / per`.  Setting and clearing go through a shifted
one, as in C.  The clear bits below a bound form a finite set, so that counters
kept next to a bitmap can be stated as its cardinality.
-/

namespace SwagOS.Lib.Bitmap

variable {w : Nat}

def test (per : Nat) (words : Nat → BitVec w) (k : Nat) : Bool :=
  (words (k / per)).getLsbD (k % per)

def set (per : Nat) (words : Nat → BitVec w) (k : Nat) : Nat → BitVec w :=
  Function.update words (k / per) (words (k / per) ||| 1#w <<< (k % per))

def clear (per : Nat) (words : Nat → BitVec w) (k : Nat) : Nat → BitVec w :=
  Function.update words (k / per) (words (k / per) &&& ~~~(1#w <<< (k % per)))

theorem getLsbD_one_shift {i j : Nat} (inside : i < w) :
    (1#w <<< j).getLsbD i = decide (i = j) := by
  simp only [BitVec.getLsbD_shiftLeft, inside, decide_true, Bool.true_and, BitVec.getLsbD_one]
  by_cases same : i = j
  · subst same
    simp
    omega
  · by_cases less : i < j
    · simp [same, less]
    · have : i - j ≠ 0 := by omega
      simp [same, this]

theorem and_one_shift_eq_zero {x : BitVec w} {j : Nat} (inside : j < w) :
    x &&& 1#w <<< j = 0#w ↔ x.getLsbD j = false := by
  constructor
  · intro zero
    have bit := congrArg (fun word => word.getLsbD j) zero
    simpa [BitVec.getLsbD_and, getLsbD_one_shift inside] using bit
  · intro unset
    apply BitVec.eq_of_getLsbD_eq
    intro i below
    rw [BitVec.getLsbD_and, getLsbD_one_shift below, BitVec.getLsbD_zero]
    by_cases same : i = j
    · simp [same, unset]
    · simp [same]

theorem shiftRight_and_one_eq_zero {x : BitVec w} {j : Nat} (inside : j < w) :
    x >>> j &&& 1#w = 0#w ↔ x.getLsbD j = false := by
  have positive : 0 < w := Nat.lt_of_le_of_lt (Nat.zero_le j) inside
  have low := and_one_shift_eq_zero (x := x >>> j) positive
  simpa using low

theorem eq_of_split {per j k : Nat} (sameWord : j / per = k / per)
    (sameBit : j % per = k % per) : j = k := by
  rw [← Nat.div_add_mod j per, ← Nat.div_add_mod k per, sameWord, sameBit]

variable {per : Nat}

theorem test_set (positive : 0 < per) (room : per ≤ w) (words : Nat → BitVec w) (k j : Nat) :
    test per (set per words k) j = (decide (j = k) || test per words j) := by
  have inside : j % per < w := lt_of_lt_of_le (Nat.mod_lt j positive) room
  unfold test set
  by_cases word : j / per = k / per
  · rw [word, Function.update_self, BitVec.getLsbD_or, getLsbD_one_shift inside, Bool.or_comm]
    congr 1
    exact decide_eq_decide.mpr ⟨eq_of_split word, fun same => by rw [same]⟩
  · have different : j ≠ k := fun same => word (by rw [same])
    rw [Function.update_of_ne word]
    simp [different]

theorem test_clear (positive : 0 < per) (room : per ≤ w) (words : Nat → BitVec w) (k j : Nat) :
    test per (clear per words k) j = (!decide (j = k) && test per words j) := by
  have inside : j % per < w := lt_of_lt_of_le (Nat.mod_lt j positive) room
  unfold test clear
  by_cases word : j / per = k / per
  · rw [word, Function.update_self, BitVec.getLsbD_and, BitVec.getLsbD_not,
      getLsbD_one_shift inside, Bool.and_comm]
    have same : decide (j % per = k % per) = decide (j = k) :=
      decide_eq_decide.mpr ⟨eq_of_split word, fun same => by rw [same]⟩
    simp [inside, same]
  · have different : j ≠ k := fun same => word (by rw [same])
    rw [Function.update_of_ne word]
    simp [different]

def clearBits (per bound : Nat) (words : Nat → BitVec w) : Finset Nat :=
  (Finset.range bound).filter fun k => test per words k = false

@[simp] theorem mem_clearBits {bound k : Nat} {words : Nat → BitVec w} :
    k ∈ clearBits per bound words ↔ k < bound ∧ test per words k = false := by
  simp [clearBits]

theorem clearBits_set (positive : 0 < per) (room : per ≤ w) (bound : Nat)
    (words : Nat → BitVec w) (k : Nat) :
    clearBits per bound (set per words k) = (clearBits per bound words).erase k := by
  ext j
  simp only [mem_clearBits, test_set positive room, Finset.mem_erase, Bool.or_eq_false_iff,
    decide_eq_false_iff_not, ne_eq]
  tauto

theorem clearBits_clear (positive : 0 < per) (room : per ≤ w) {bound k : Nat}
    (inside : k < bound) (words : Nat → BitVec w) :
    clearBits per bound (clear per words k) = insert k (clearBits per bound words) := by
  ext j
  simp only [mem_clearBits, test_clear positive room, Finset.mem_insert, Bool.and_eq_false_iff,
    Bool.not_eq_false', decide_eq_true_eq]
  constructor
  · rintro ⟨below, rfl | unset⟩
    · exact .inl rfl
    · exact .inr ⟨below, unset⟩
  · rintro (rfl | ⟨below, unset⟩)
    · exact ⟨inside, .inl rfl⟩
    · exact ⟨below, .inr unset⟩

def setBits (per bound : Nat) (words : Nat → BitVec w) : Finset Nat :=
  (Finset.range bound).filter fun k => test per words k = true

@[simp] theorem mem_setBits {bound k : Nat} {words : Nat → BitVec w} :
    k ∈ setBits per bound words ↔ k < bound ∧ test per words k = true := by
  simp [setBits]

theorem card_setBits_le (bound : Nat) (words : Nat → BitVec w) :
    (setBits per bound words).card ≤ bound := by
  have bound := Finset.card_filter_le (Finset.range bound) fun k => test per words k = true
  rwa [Finset.card_range] at bound

theorem setBits_set (positive : 0 < per) (room : per ≤ w) {bound k : Nat} (inside : k < bound)
    (words : Nat → BitVec w) :
    setBits per bound (set per words k) = insert k (setBits per bound words) := by
  ext j
  simp only [mem_setBits, test_set positive room, Finset.mem_insert, Bool.or_eq_true,
    decide_eq_true_eq]
  constructor
  · rintro ⟨below, rfl | isSet⟩
    · exact .inl rfl
    · exact .inr ⟨below, isSet⟩
  · rintro (rfl | ⟨below, isSet⟩)
    · exact ⟨inside, .inl rfl⟩
    · exact ⟨below, .inr isSet⟩

theorem setBits_clear (positive : 0 < per) (room : per ≤ w) (bound : Nat)
    (words : Nat → BitVec w) (k : Nat) :
    setBits per bound (clear per words k) = (setBits per bound words).erase k := by
  ext j
  simp only [mem_setBits, test_clear positive room, Finset.mem_erase, Bool.and_eq_true,
    Bool.not_eq_true', decide_eq_false_iff_not, ne_eq]
  exact and_left_comm

theorem findSome_range_some {α : Type*} {f : Nat → Option α} {n : Nat} {a : α}
    (found : (List.range n).findSome? f = some a) :
    ∃ i < n, f i = some a ∧ ∀ k < i, f k = none := by
  induction n with
  | zero => simp at found
  | succ n inductionHypothesis =>
    rw [List.range_succ, List.findSome?_append] at found
    cases before : (List.range n).findSome? f with
    | some b =>
      rw [before] at found
      obtain ⟨i, below, here, first⟩ := inductionHypothesis (before.trans (by simpa using found))
      exact ⟨i, by omega, here, first⟩
    | none =>
      rw [before] at found
      have none_before : ∀ k < n, f k = none := by simpa using before
      exact ⟨n, by omega, by simpa using found, none_before⟩

end SwagOS.Lib.Bitmap
