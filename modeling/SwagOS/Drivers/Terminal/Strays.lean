import SwagOS.Drivers.Terminal.Disclosure

/-!
# Writes outside of the buffers of `printf`

Only a number with more digits than its buffer has room for is written outside of it, if
`printf` comes to it: a string before it may fault.
-/

namespace SwagOS.Drivers

open SwagOS.Lib PrintState

/-- The numbers that `printf` comes to fit into their buffers. -/
def NumbersFit (memory : PrintMemory) : Bool → (Nat → Nat) → List UInt8 → Prop
  | _, _, [] => True
  | percent, args, c :: rest =>
      if c = 0 then True
      else if percent ∧ c = 100 then NumbersFit memory false (fun i => args (i + 1)) rest
      else if percent ∧ c = 117 then
        ¬TooLong (.ofNat 64 (args 0)) ∧ NumbersFit memory false (fun i => args (i + 1)) rest
      else if percent ∧ c = 115 then
        (terminalPrintString memory.kernel stringFuel (args 0)).ended = none →
          NumbersFit memory false (fun i => args (i + 1)) rest
      else if c = 37 then NumbersFit memory true args rest
      else NumbersFit memory false args rest

variable {memory : PrintMemory} {percent : Bool} {args : Nat → Nat} {c : UInt8}
  {rest : List UInt8} {arg : BitVec 64} {next : Output UInt8}

theorem handleFormatLong_strayed (stack : Bytes) :
    ((handleFormatLong stack arg).seq next).strayed = false ↔
      ¬TooLong arg ∧ next.strayed = false := by
  by_cases long : TooLong arg
  · refine iff_of_false ?_ fun both => both.1 long
    obtain ⟨digits, n, -, printed⟩ := handleFormatLong_tooLong long
    have strayed : (handleFormatLong stack arg).strayed = true := by rw [printed]
    rw [Output.seq_strayed strayed]
    decide
  · rw [handleFormatLong_eq stack long, Output.put_seq, Output.stop_seq, and_iff_right long]
    rfl

/-- `printf` writes outside of a buffer only for a number that does not fit. -/
theorem printf_strayed_iff : (printf memory percent args rest).strayed = false ↔
    NumbersFit memory percent args rest := by
  induction rest generalizing percent args with
  | nil => exact iff_of_true rfl trivial
  | cons c rest inductionHypothesis =>
    cases character percent c with
    | nul =>
      rw [printf_nul, NumbersFit, if_pos rfl]
      exact iff_of_true rfl trivial
    | int =>
      rw [printf_int, NumbersFit, if_neg (by decide), if_pos (by decide), ← inductionHypothesis]
      rfl
    | long =>
      rw [printf_long, NumbersFit, if_neg (by decide), if_neg (by decide), if_pos (by decide),
        handleFormatLong_strayed, inductionHypothesis]
    | string =>
      rw [printf_string, NumbersFit, if_neg (by decide), if_neg (by decide), if_neg (by decide),
        if_pos (by decide), ← inductionHypothesis]
      exact Output.seq_strayed_iff terminalPrintString_strayed
    | percent =>
      rw [printf_percent, NumbersFit, if_neg (by decide), if_neg (by simp), if_neg (by simp),
        if_neg (by simp), if_pos rfl, inductionHypothesis]
    | plain notNul notPercent plain =>
      rw [printf_char notNul notPercent plain, NumbersFit, if_neg notNul, if_neg, if_neg, if_neg,
        if_neg notPercent, ← inductionHypothesis]
      · rfl
      · exact fun both => (plain both.1).2.2 both.2
      · exact fun both => (plain both.1).2.1 both.2
      · exact fun both => (plain both.1).1 both.2

end SwagOS.Drivers
