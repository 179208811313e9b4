import Mathlib.Data.BitVec

/-!
# Fields of a register

A field of a register is replaced by masking it out and putting the new value in its place.
The field then holds the value, and every other field what it held.
-/

namespace SwagOS.Lib.BitFields

variable {n w : Nat}

abbrev field (r : BitVec n) (s w : Nat) : BitVec w := r.extractLsb' s w

/-- `(r & ~(mask << s)) | (v << s)` -/
def replaceField (r : BitVec n) (s : Nat) (v : BitVec w) : BitVec n :=
  (r &&& ~~~((BitVec.allOnes w).setWidth n <<< s)) ||| (v.setWidth n <<< s)

variable {r : BitVec n} {v : BitVec w} {s t u i : Nat}

theorem masked (fits : w ≤ n) (r : BitVec n) (s : Nat) :
    ((r >>> s) &&& (BitVec.allOnes w).setWidth n).setWidth w = field r s w := by
  apply BitVec.eq_of_getLsbD_eq
  intro i less
  have inside : i < n := Nat.lt_of_lt_of_le less fits
  simp only [BitVec.getLsbD_setWidth, BitVec.getLsbD_and, BitVec.getLsbD_ushiftRight,
    BitVec.getLsbD_allOnes, BitVec.getLsbD_extractLsb', less, inside, decide_true, Bool.true_and,
    Bool.and_true]

theorem getLsbD_replaceField (inside : i < n) : (replaceField r s v).getLsbD i =
    if s ≤ i ∧ i < s + w then v.getLsbD (i - s) else r.getLsbD i := by
  simp only [replaceField, BitVec.getLsbD_or, BitVec.getLsbD_and, BitVec.getLsbD_not,
    BitVec.getLsbD_shiftLeft, BitVec.getLsbD_setWidth, BitVec.getLsbD_allOnes]
  by_cases low : i < s
  · simp [low, Nat.not_le.mpr low, inside]
  · by_cases high : i < s + w
    · have here : i - s < w := by omega
      simp [low, high, inside, here, Nat.le_of_not_lt low, Nat.lt_of_le_of_lt (Nat.sub_le i s)]
    · have beyond : ¬i - s < w := by omega
      have zero : v.getLsbD (i - s) = false := BitVec.getLsbD_of_ge v _ (Nat.le_of_not_lt beyond)
      simp [high, inside, beyond, zero]

theorem field_inside (inside : t + u ≤ w) (fits : s + w ≤ n) :
    field (replaceField r s v) (s + t) u = field v t u := by
  apply BitVec.eq_of_getLsbD_eq
  intro i less
  rw [BitVec.getLsbD_extractLsb', BitVec.getLsbD_extractLsb',
    getLsbD_replaceField (by omega), if_pos (by omega)]
  congr 2
  omega

theorem field_own (fits : s + w ≤ n) : field (replaceField r s v) s w = v := by
  have whole : field (replaceField r s v) (s + 0) w = field v 0 w := field_inside (by omega) fits
  rwa [Nat.add_zero, field, field, BitVec.extractLsb'_eq_self] at whole

theorem field_outside (outside : t + u ≤ s ∨ s + w ≤ t) (fits : t + u ≤ n) :
    field (replaceField r s v) t u = field r t u := by
  apply BitVec.eq_of_getLsbD_eq
  intro i less
  rw [BitVec.getLsbD_extractLsb', BitVec.getLsbD_extractLsb',
    getLsbD_replaceField (by omega), if_neg (by omega)]

theorem replaceField_whole {v : BitVec n} : replaceField r 0 v = v := by
  apply BitVec.eq_of_getLsbD_eq
  intro i less
  rw [getLsbD_replaceField less, if_pos (by omega), Nat.sub_zero]

/-- Nothing happens when a field is replaced by what it holds. -/
theorem replaceField_same (same : field r s w = v) : replaceField r s v = r := by
  apply BitVec.eq_of_getLsbD_eq
  intro i less
  rw [getLsbD_replaceField less]
  split
  next inside =>
    have here : i - s < w := by omega
    have place : s + (i - s) = i := by omega
    rw [← same, BitVec.getLsbD_extractLsb', place]
    simp [here]
  next => rfl

end SwagOS.Lib.BitFields
