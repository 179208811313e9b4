import SwagOS.Lib.Transition

/-!
# What a computation writes before it ends

The values are written one after the other; the computation returns, or stops where it is.
Two outputs that differ in a value at the same place stay different, whatever follows.
-/

namespace SwagOS.Lib

@[ext] structure Output (α : Type) where
  written : List α
  /-- Memory was written that is not the computation's own. -/
  strayed : Bool
  /-- `none` if the computation returns. -/
  ended : Option Halt
  deriving DecidableEq

namespace Output

variable {α : Type}

def stop (ended : Option Halt) : Output α := ⟨[], false, ended⟩

def put (values : List α) (rest : Output α) : Output α :=
  { rest with written := values ++ rest.written }

def seq (first rest : Output α) : Output α :=
  match first.ended with
  | some _ => first
  | none => ⟨first.written ++ rest.written, first.strayed || rest.strayed, rest.ended⟩

variable {values : List α} {a b : α} {first rest rest' : Output α}

@[simp] theorem stop_written (ended : Option Halt) : (stop ended : Output α).written = [] := rfl

@[simp] theorem stop_ended (ended : Option Halt) : (stop ended : Output α).ended = ended := rfl

@[simp] theorem put_written : (rest.put values).written = values ++ rest.written := rfl

@[simp] theorem put_strayed : (rest.put values).strayed = rest.strayed := rfl

@[simp] theorem put_ended : (rest.put values).ended = rest.ended := rfl

@[simp] theorem put_nil : rest.put [] = rest := rfl

theorem put_put (more : List α) : (rest.put more).put values = rest.put (values ++ more) := by
  unfold put
  simp

theorem put_inj : rest.put values = rest'.put values ↔ rest = rest' := by
  constructor
  · intro same
    have written := congrArg Output.written same
    have strayed := congrArg Output.strayed same
    have ended := congrArg Output.ended same
    exact Output.ext (List.append_cancel_left written) strayed ended
  · intro same
    rw [same]

theorem seq_returns (returns : first.ended = none) :
    first.seq rest = ⟨first.written ++ rest.written, first.strayed || rest.strayed, rest.ended⟩ := by
  rw [seq, returns]

theorem seq_stops {why : Halt} (stops : first.ended = some why) : first.seq rest = first := by
  rw [seq, stops]

theorem seq_strayed (strayed : first.strayed = true) : (first.seq rest).strayed = true := by
  cases ended : first.ended with
  | none =>
    rw [seq_returns ended, strayed]
    rfl
  | some why =>
    rw [seq_stops ended, strayed]

theorem seq_strayed_iff (inside : first.strayed = false) :
    (first.seq rest).strayed = false ↔ (first.ended = none → rest.strayed = false) := by
  cases ended : first.ended with
  | none =>
    rw [seq_returns ended, inside, forall_prop_of_true rfl]
    rfl
  | some why =>
    rw [seq_stops ended]
    exact iff_of_true inside fun never => by cases never

theorem seq_put_strayed : (first.seq ((stop none).put values)).strayed = false ↔
    first.strayed = false := by
  cases strayed : first.strayed with
  | true => rw [seq_strayed strayed]
  | false => exact iff_of_true ((seq_strayed_iff strayed).mpr fun _ => rfl) rfl

theorem put_seq : (first.put values).seq rest = (first.seq rest).put values := by
  cases ended : first.ended with
  | none =>
    have ended' : (first.put values).ended = none := ended
    rw [seq_returns ended, seq_returns ended']
    simp [put]
  | some why =>
    have ended' : (first.put values).ended = some why := ended
    rw [seq_stops ended, seq_stops ended']

@[simp] theorem stop_seq : (stop none : Output α).seq rest = rest := by
  rw [seq_returns (stop_ended none)]
  simp [stop]

theorem stop_some_seq (why : Halt) : (stop (some why) : Output α).seq rest = stop (some why) :=
  seq_stops (stop_ended (some why))

/-- Before text that is always the same, outputs can be told apart. -/
theorem seq_left_inj : first.seq ((stop none).put values) = rest.seq ((stop none).put values) ↔
    first = rest := by
  refine ⟨?_, fun same => by rw [same]⟩
  intro same
  cases ended : first.ended with
  | none =>
    cases ended' : rest.ended with
    | none =>
      rw [seq_returns ended, seq_returns ended'] at same
      have written := congrArg Output.written same
      have strayed := congrArg Output.strayed same
      simp only [put_written, put_strayed, stop, List.append_nil, Bool.or_false] at written strayed
      exact Output.ext (List.append_cancel_right written) strayed (ended.trans ended'.symm)
    | some why =>
      rw [seq_returns ended, seq_stops ended'] at same
      have never := congrArg Output.ended same
      rw [ended'] at never
      cases never
  | some why =>
    cases ended' : rest.ended with
    | none =>
      rw [seq_stops ended, seq_returns ended'] at same
      have never := congrArg Output.ended same
      rw [ended] at never
      cases never
    | some why' =>
      rw [seq_stops ended, seq_stops ended'] at same
      exact same

theorem seq_nil (nothing : (first.seq rest).written = []) :
    first.written = [] ∧ (first.ended = none → rest.written = []) := by
  cases ended : first.ended with
  | none =>
    rw [seq_returns ended] at nothing
    obtain ⟨head, tail⟩ := List.append_eq_nil_iff.mp nothing
    exact ⟨head, fun _ => tail⟩
  | some why =>
    rw [seq_stops ended] at nothing
    exact ⟨nothing, fun never => by cases never⟩

end Output

end SwagOS.Lib
