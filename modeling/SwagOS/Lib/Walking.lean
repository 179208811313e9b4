import SwagOS.Lib.Transition

/-!
# Walking along records

Records of which each one tells where the next one is, up to a last one.  A walk looks for the
first record that is wanted.  It ends where it comes to such a record or to the last one, and then
its result is what a search of the list of the records gives.
-/

namespace SwagOS.Lib

variable {Place : Type} {next : Place → Place} {last wanted : Place → Prop}

inductive Trail (next : Place → Place) (last : Place → Prop) : Place → List Place → Prop where
  | nil {a : Place} : last a → Trail next last a []
  | cons {a : Place} {records : List Place} : ¬last a → Trail next last (next a) records →
      Trail next last a (a :: records)

section Walk

variable [DecidablePred last] [DecidablePred wanted]

/-- `for (a = first; !last(a); a = next(a)) if (wanted(a)) return a;` -/
def walk (next : Place → Place) (last wanted : Place → Prop) [DecidablePred last]
    [DecidablePred wanted] : Nat → Place → Outcome (Option Place)
  | 0, _ => throw .hang
  | fuel + 1, a =>
      if last a then pure none
      else if wanted a then pure (some a)
      else walk next last wanted fuel (next a)

theorem Trail.walk {a : Place} {records : List Place} (trail : Trail next last a records)
    {fuel : Nat} (enough : records.length < fuel) :
    walk next last wanted fuel a = .ok (records.find? fun place => wanted place) := by
  induction trail generalizing fuel with
  | nil ends =>
    obtain ⟨fuel, rfl⟩ := Nat.exists_eq_add_one_of_ne_zero (Nat.ne_zero_of_lt enough)
    exact if_pos ends
  | @cons a records goesOn _ inductionHypothesis =>
    obtain ⟨fuel, rfl⟩ := Nat.exists_eq_add_one_of_ne_zero (Nat.ne_zero_of_lt enough)
    rw [Lib.walk, if_neg goesOn]
    by_cases found : wanted a
    · rw [if_pos found, List.find?_cons, decide_eq_true found]
      rfl
    · rw [if_neg found, List.find?_cons, decide_eq_false found]
      exact inductionHypothesis (Nat.lt_of_succ_lt_succ enough)

end Walk

end SwagOS.Lib
