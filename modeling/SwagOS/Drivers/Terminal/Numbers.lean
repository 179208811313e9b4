import Mathlib.Data.List.Basic
import SwagOS.Drivers.Terminal

/-!
# Printing numbers

What `handle_format_int` and `handle_format_long` print: the decimal digits of a number that
fits into the buffer, and otherwise its first digits and then what lies above them in memory.
-/

namespace SwagOS.Drivers

open SwagOS.Lib

def decimal : Nat → Int → List UInt8
  | 0, _ => []
  | fuel + 1, arg => if arg = 0 then [] else decimal fuel (arg.tdiv 10) ++ [digitChar arg]

section Digits

variable {size fuel : Nat} {arg : Int} {b : NumberBuffer}

theorem digitChar_ne_zero (arg : Int) : digitChar arg ≠ 0 := by
  have above : -10 < arg.tmod 10 := Int.lt_tmod_of_pos arg (by decide)
  have below : arg.tmod 10 < 10 := Int.tmod_lt_of_pos arg (by decide)
  intro zero
  have value := congrArg UInt8.toNat zero
  rw [digitChar, UInt8.toNat_ofNat'] at value
  have none : UInt8.toNat 0 = 0 := rfl
  omega

theorem decimal_ne_zero {c : UInt8} (member : c ∈ decimal fuel arg) : c ≠ 0 := by
  induction fuel generalizing arg with
  | zero => cases member
  | succ fuel inductionHypothesis =>
    unfold decimal at member
    split at member
    · cases member
    · rcases List.mem_append.mp member with earlier | last
      · exact inductionHypothesis earlier
      · rw [List.mem_singleton.mp last]
        exact digitChar_ne_zero arg

theorem decimal_length_le {n : Nat} (enough : n < fuel) :
    (decimal fuel arg).length ≤ n ↔ arg.natAbs < 10 ^ n := by
  induction n generalizing fuel arg with
  | zero =>
    obtain ⟨fuel, rfl⟩ := Nat.exists_eq_succ_of_ne_zero (Nat.ne_of_gt enough)
    unfold decimal
    split
    next zero => simp [zero]
    next notZero =>
      simp
      omega
  | succ n inductionHypothesis =>
    obtain ⟨fuel, rfl⟩ := Nat.exists_eq_succ_of_ne_zero (Nat.ne_of_gt (Nat.zero_lt_of_lt enough))
    unfold decimal
    split
    next zero =>
      rw [zero]
      exact iff_of_true (Nat.zero_le _) (Nat.pow_pos (by decide))
    next notZero =>
      have shorter : (decimal fuel (arg.tdiv 10)).length ≤ n ↔ (arg.tdiv 10).natAbs < 10 ^ n :=
        inductionHypothesis (Nat.lt_of_succ_lt_succ enough)
      have quotient : (arg.tdiv 10).natAbs = arg.natAbs / 10 := Int.natAbs_tdiv arg 10
      rw [List.length_append, List.length_singleton, Nat.succ_le_succ_iff, shorter, quotient,
        Nat.div_lt_iff_lt_mul (by decide), Nat.pow_succ]

theorem decimal_head (notZero : arg ≠ 0) : decimal (fuel + 1) arg ≠ [] := by
  unfold decimal
  rw [if_neg notZero]
  exact List.append_ne_nil_of_right_ne_nil _ (List.cons_ne_nil _ _)

theorem writeDigits_nothing (empty : decimal fuel arg = []) : writeDigits size fuel arg b = b := by
  cases fuel with
  | zero => rfl
  | succ fuel =>
    unfold writeDigits
    split
    · rfl
    next notZero => exact absurd empty (decimal_head notZero)

theorem push_location (size : Nat) (positive : 0 < b.location) (small : b.location < 2 ^ 16)
    (c : UInt8) :
    (b.push size c).location = b.location - 1 := by
  change (b.location + (2 ^ 16 - 1)) % 2 ^ 16 = _
  omega

/-- Digits lie from an index on, and behind them what was there before. -/
structure NumberBuffer.Holds (b b' : NumberBuffer) (start : Nat) (digits : List UInt8) : Prop where
  location : (b'.location + 1) % 2 ^ 16 = start % 2 ^ 16
  written : ∀ j (inside : j < digits.length), b'.buf (start + j) = digits[j]
  behind : ∀ p, start + digits.length ≤ p → b'.buf p = b.buf p

theorem writeDigits_fits (small : b.location < 2 ^ 16)
    (fits : (decimal fuel arg).length ≤ b.location + 1) :
    b.Holds (writeDigits size fuel arg b) (b.location + 1 - (decimal fuel arg).length)
      (decimal fuel arg) := by
  induction fuel generalizing arg b with
  | zero =>
    refine ⟨rfl, ?_, fun _ _ => rfl⟩
    intro j inside
    cases inside
  | succ fuel inductionHypothesis =>
    unfold decimal at fits ⊢
    unfold writeDigits
    split
    next zero =>
      refine ⟨rfl, ?_, fun _ _ => rfl⟩
      intro j inside
      cases inside
    next notZero =>
      rw [if_neg notZero, List.length_append, List.length_singleton] at fits
      have split : (decimal fuel (arg.tdiv 10) ++ [digitChar arg]).length =
          (decimal fuel (arg.tdiv 10)).length + 1 := by simp
      by_cases first : b.location = 0
      · -- The last character that fits.
        have empty : decimal fuel (arg.tdiv 10) = [] := List.eq_nil_of_length_eq_zero (by omega)
        rw [writeDigits_nothing empty, empty, first]
        refine ⟨?_, ?_, ?_⟩
        · change ((b.location + (2 ^ 16 - 1)) % 2 ^ 16 + 1) % 2 ^ 16 = _
          simp [first]
        · intro j inside
          obtain rfl : j = 0 := by simpa using inside
          change Function.update b.buf b.location (digitChar arg) (0 + 1 - 1 + 0) = digitChar arg
          rw [first]
          exact Function.update_self _ _ _
        · intro p behind
          have apart : p ≠ b.location := by simp at behind; omega
          exact Function.update_of_ne apart _ _
      · have place := push_location size (Nat.pos_of_ne_zero first) small (digitChar arg)
        have holds : (b.push size (digitChar arg)).Holds
            (writeDigits size fuel (arg.tdiv 10) (b.push size (digitChar arg)))
            ((b.push size (digitChar arg)).location + 1 - (decimal fuel (arg.tdiv 10)).length)
            (decimal fuel (arg.tdiv 10)) := inductionHypothesis (by omega) (by omega)
        have start : (b.push size (digitChar arg)).location + 1 -
              (decimal fuel (arg.tdiv 10)).length =
            b.location + 1 - (decimal fuel (arg.tdiv 10) ++ [digitChar arg]).length := by omega
        rw [start] at holds
        refine ⟨holds.location, ?_, ?_⟩
        · intro j inside
          by_cases earlier : j < (decimal fuel (arg.tdiv 10)).length
          · rw [holds.written j earlier, List.getElem_append_left earlier]
          · have last : j = (decimal fuel (arg.tdiv 10)).length := by omega
            subst last
            rw [List.getElem_concat_length rfl, holds.behind _ (Nat.le_refl _)]
            have here : b.location + 1 - (decimal fuel (arg.tdiv 10) ++ [digitChar arg]).length +
                (decimal fuel (arg.tdiv 10)).length = b.location := by omega
            rw [here]
            exact Function.update_self _ _ _
        · intro p behind
          have apart : p ≠ b.location := by omega
          rw [holds.behind p (by omega)]
          exact Function.update_of_ne apart _ _

theorem writeDigits_wraps (small : b.location < 2 ^ 16)
    (long : b.location + 1 < (decimal fuel arg).length)
    (bounded : (decimal fuel arg).length ≤ 2 ^ 16) :
    b.Holds (writeDigits size fuel arg b)
      (2 ^ 16 - ((decimal fuel arg).length - (b.location + 1)))
      ((decimal fuel arg).take ((decimal fuel arg).length - (b.location + 1))) := by
  induction fuel generalizing arg b with
  | zero => cases long
  | succ fuel inductionHypothesis =>
    unfold decimal at long bounded ⊢
    unfold writeDigits
    split
    next zero =>
      rw [if_pos zero] at long
      cases long
    next notZero =>
      rw [if_neg notZero, List.length_append, List.length_singleton] at long bounded
      rw [List.length_append, List.length_singleton, Nat.add_sub_add_right,
        List.take_append_of_le_length (Nat.sub_le _ _)]
      by_cases first : b.location = 0
      · have place : (b.push size (digitChar arg)).location = 2 ^ 16 - 1 := by
          change (b.location + (2 ^ 16 - 1)) % 2 ^ 16 = _
          rw [first]
          rfl
        have holds : (b.push size (digitChar arg)).Holds
            (writeDigits size fuel (arg.tdiv 10) (b.push size (digitChar arg)))
            ((b.push size (digitChar arg)).location + 1 - (decimal fuel (arg.tdiv 10)).length)
            (decimal fuel (arg.tdiv 10)) := writeDigits_fits (by omega) (by omega)
        rw [place] at holds
        rw [first, Nat.sub_zero, List.take_length]
        refine ⟨holds.location, holds.written, ?_⟩
        intro p behind
        have apart : p ≠ b.location := by omega
        rw [holds.behind p behind]
        exact Function.update_of_ne apart _ _
      · have place := push_location size (Nat.pos_of_ne_zero first) small (digitChar arg)
        have before : (b.push size (digitChar arg)).location + 1 = b.location := by omega
        have holds : (b.push size (digitChar arg)).Holds
            (writeDigits size fuel (arg.tdiv 10) (b.push size (digitChar arg)))
            (2 ^ 16 - ((decimal fuel (arg.tdiv 10)).length -
              ((b.push size (digitChar arg)).location + 1)))
            ((decimal fuel (arg.tdiv 10)).take ((decimal fuel (arg.tdiv 10)).length -
              ((b.push size (digitChar arg)).location + 1))) :=
          inductionHypothesis (by omega) (by omega) (by omega)
        rw [before] at holds
        refine ⟨holds.location, holds.written, ?_⟩
        intro p behind
        have apart : p ≠ b.location := by
          rw [List.length_take] at behind
          omega
        rw [holds.behind p behind]
        exact Function.update_of_ne apart _ _

theorem writeDigits_inside (small : b.location < 2 ^ 16) (inside : b.location < size)
    (fits : (decimal fuel arg).length ≤ b.location + 1) :
    (writeDigits size fuel arg b).strayed = b.strayed := by
  induction fuel generalizing arg b with
  | zero => rfl
  | succ fuel inductionHypothesis =>
    unfold decimal at fits
    unfold writeDigits
    split
    · rfl
    next notZero =>
      rw [if_neg notZero, List.length_append, List.length_singleton] at fits
      have pushed : (b.push size (digitChar arg)).strayed = b.strayed := by
        change (b.strayed || decide (size ≤ b.location)) = b.strayed
        rw [decide_eq_false (Nat.not_le_of_lt inside), Bool.or_false]
      by_cases first : b.location = 0
      · have empty : decimal fuel (arg.tdiv 10) = [] := List.eq_nil_of_length_eq_zero (by omega)
        rw [writeDigits_nothing empty, pushed]
      · have place := push_location size (Nat.pos_of_ne_zero first) small (digitChar arg)
        rw [inductionHypothesis (by omega) (by omega) (by omega), pushed]

theorem writeDigits_strays (strayed : b.strayed = true) :
    (writeDigits size fuel arg b).strayed = true := by
  induction fuel generalizing arg b with
  | zero => exact strayed
  | succ fuel inductionHypothesis =>
    unfold writeDigits
    split
    · exact strayed
    · apply inductionHypothesis
      change (b.strayed || _) = true
      rw [strayed, Bool.true_or]

theorem writeDigits_outside (small : b.location < 2 ^ 16) (less : size < 2 ^ 16)
    (long : b.location + 1 < (decimal fuel arg).length) :
    (writeDigits size fuel arg b).strayed = true := by
  induction fuel generalizing arg b with
  | zero => cases long
  | succ fuel inductionHypothesis =>
    unfold decimal at long
    unfold writeDigits
    split
    next zero =>
      rw [if_pos zero] at long
      cases long
    next notZero =>
      rw [if_neg notZero, List.length_append, List.length_singleton] at long
      by_cases first : b.location = 0
      · have place : (b.push size (digitChar arg)).location = 2 ^ 16 - 1 := by
          change (b.location + (2 ^ 16 - 1)) % 2 ^ 16 = _
          rw [first]
          rfl
        cases fuel with
        | zero =>
          have none : (decimal 0 (arg.tdiv 10)).length = 0 := rfl
          omega
        | succ fuel =>
          unfold writeDigits
          split
          next zero =>
            rw [zero, decimal, if_pos rfl] at long
            simp at long
          next more =>
            apply writeDigits_strays
            change (_ || decide (size ≤ (b.push size (digitChar arg)).location)) = true
            rw [place, decide_eq_true (by omega), Bool.or_true]
      · have place := push_location size (Nat.pos_of_ne_zero first) small (digitChar arg)
        exact inductionHypothesis (by omega) (by omega)

end Digits

section Strings

variable {read read' : Nat → Option UInt8} {str fuel : Nat}

theorem terminalPrintString_put {l : List UInt8} (isString : ∀ c ∈ l, c ≠ 0)
    (here : ∀ j (inside : j < l.length), read (str + j) = some l[j]) :
    terminalPrintString read (l.length + fuel) str =
      (terminalPrintString read fuel (str + l.length)).put l := by
  induction l generalizing str with
  | nil =>
    rw [List.length_nil, Nat.zero_add]
    rfl
  | cons c rest inductionHypothesis =>
    have first : read str = some c := here 0 (Nat.succ_pos _)
    have behind : ∀ j (inside : j < rest.length), read (str + 1 + j) = some rest[j] := by
      intro j inside
      have place : str + 1 + j = str + (j + 1) := by omega
      rw [place]
      exact here (j + 1) (Nat.succ_lt_succ inside)
    have later := inductionHypothesis (fun c member => isString c (List.mem_cons_of_mem _ member))
      behind
    have length : (c :: rest).length + fuel = rest.length + fuel + 1 := by
      rw [List.length_cons]
      omega
    have next : str + 1 + rest.length = str + (c :: rest).length := by
      rw [List.length_cons]
      omega
    rw [length, terminalPrintString, first]
    dsimp only
    rw [if_neg (isString c List.mem_cons_self), later, next, Output.put_put]
    rfl

theorem terminalPrintString_congr (same : ∀ p, str ≤ p → read p = read' p) :
    terminalPrintString read fuel str = terminalPrintString read' fuel str := by
  induction fuel generalizing str with
  | zero => rfl
  | succ fuel inductionHypothesis =>
    have rest : terminalPrintString read fuel (str + 1) = terminalPrintString read' fuel (str + 1) :=
      inductionHypothesis fun p above => same p (Nat.le_of_succ_le above)
    unfold terminalPrintString
    rw [same str (Nat.le_refl _), rest]

theorem terminalPrintString_end (here : read str = some 0) :
    terminalPrintString read (fuel + 1) str = .stop none := by
  unfold terminalPrintString
  rw [here]
  rfl

theorem terminalPrintString_strayed : (terminalPrintString read fuel str).strayed = false := by
  induction fuel generalizing str with
  | zero => rfl
  | succ fuel inductionHypothesis =>
    unfold terminalPrintString
    cases read str with
    | none => rfl
    | some c =>
      dsimp only
      split
      · rfl
      · exact inductionHypothesis

theorem NumberBuffer.Holds.print {b b' : NumberBuffer} {start n : Nat} {digits : List UInt8}
    (holds : b.Holds b' start digits) (small : start < 2 ^ 16) (isString : ∀ c ∈ digits, c ≠ 0)
    (length : digits.length + n = stringFuel) :
    b'.next.print =
      { (terminalPrintString (fun p => some (b.buf p)) n (start + digits.length)).put digits with
        strayed := b'.strayed } := by
  have place : b'.next.location = start := holds.location.trans (Nat.mod_eq_of_lt small)
  have text : terminalPrintString (fun p => some (b'.buf p)) (digits.length + n) start =
      (terminalPrintString (fun p => some (b'.buf p)) n (start + digits.length)).put digits :=
    terminalPrintString_put isString fun j inside => congrArg some (holds.written j inside)
  have behind : terminalPrintString (fun p => some (b'.buf p)) n (start + digits.length) =
      terminalPrintString (fun p => some (b.buf p)) n (start + digits.length) :=
    terminalPrintString_congr fun p above => congrArg some (holds.behind p above)
  change { terminalPrintString (fun p => some (b'.buf p)) stringFuel b'.next.location with
    strayed := b'.strayed } = _
  rw [place, ← length, text, behind]

end Strings

def intText (arg : BitVec 32) : List UInt8 :=
  if arg = 0 then [48]
  else if arg.toInt < 0 then 45 :: decimal digitFuel (-arg).toInt
  else decimal digitFuel arg.toInt

/-- What `%u` prints of a number that is not too long. -/
def longText (arg : BitVec 64) : List UInt8 :=
  if arg = 0 then [48] else decimal digitFuel arg.toInt

theorem decimal_int_length (arg : BitVec 32) : (decimal digitFuel arg.toInt).length ≤ 10 := by
  apply (decimal_length_le (by decide)).mpr
  have above := arg.le_toInt
  have below := arg.toInt_lt
  have power : (2 : Int) ^ (32 - 1) = 2147483648 := by decide
  rw [power] at above below
  omega

section Buffers

variable {b b' : NumberBuffer} {start : Nat} {digits : List UInt8}

theorem NumberBuffer.Holds.print_end (holds : b.Holds b' start digits) (small : start < 2 ^ 16)
    (short : digits.length ≤ 20) (isString : ∀ c ∈ digits, c ≠ 0)
    (terminated : b.buf (start + digits.length) = 0) (inside : b'.strayed = false) :
    b'.next.print = (Output.stop none).put digits := by
  have length : digits.length + (stringFuel - 1 - digits.length + 1) = stringFuel := by
    rw [stringFuel]
    omega
  rw [holds.print small isString length, terminalPrintString_end (congrArg some terminated), inside]
  rfl

theorem NumberBuffer.Holds.push (holds : b.Holds b' start digits) (below : b'.location < 2 ^ 16)
    (positive : 0 < start) (small : start < 2 ^ 16) (size : Nat) (c : UInt8) :
    b.Holds (b'.push size c) (start - 1) (c :: digits) := by
  have place : b'.location = start - 1 := by
    have location := holds.location
    omega
  refine ⟨?_, ?_, ?_⟩
  · change ((b'.location + (2 ^ 16 - 1)) % 2 ^ 16 + 1) % 2 ^ 16 = _
    omega
  · intro j inside
    change Function.update b'.buf b'.location c (start - 1 + j) = _
    rw [place]
    cases j with
    | zero => exact Function.update_self _ _ _
    | succ j =>
      have index : start - 1 + (j + 1) = start + j := by omega
      have apart : start + j ≠ start - 1 := by omega
      rw [index, Function.update_of_ne apart]
      exact holds.written j (Nat.lt_of_succ_lt_succ inside)
  · intro p behind
    rw [List.length_cons] at behind
    have apart : p ≠ b'.location := by omega
    change Function.update b'.buf b'.location c p = _
    rw [Function.update_of_ne apart]
    exact holds.behind p (by omega)

theorem writeDigits_location (size fuel : Nat) (arg : Int) (below : b.location < 2 ^ 16) :
    (writeDigits size fuel arg b).location < 2 ^ 16 := by
  induction fuel generalizing arg b with
  | zero => exact below
  | succ fuel inductionHypothesis =>
    unfold writeDigits
    split
    · exact below
    · exact inductionHypothesis _ (Nat.mod_lt _ (by decide))

theorem push_next (below : b.location < 2 ^ 16) (size : Nat) (c : UInt8) :
    (b.push size c).next = { b with
      buf := Function.update b.buf b.location c
      strayed := b.strayed || decide (size ≤ b.location) } := by
  have location : ((b.location + (2 ^ 16 - 1)) % 2 ^ 16 + 1) % 2 ^ 16 = b.location := by omega
  unfold NumberBuffer.next NumberBuffer.push
  dsimp only
  rw [location]

section Terminated

variable {size fuel : Nat} {arg : Int}

/-- A buffer with its terminator and nothing else. -/
structure NumberBuffer.Empty (size : Nat) (b : NumberBuffer) : Prop where
  location : b.location + 2 = size
  terminator : b.buf (b.location + 1) = 0
  inside : b.strayed = false
  small : size < 20

theorem NumberBuffer.Empty.writeDigits (empty : b.Empty size)
    (fits : (decimal fuel arg).length < size) :
    b.Holds (writeDigits size fuel arg b) (size - 1 - (decimal fuel arg).length)
        (decimal fuel arg) ∧
      (Drivers.writeDigits size fuel arg b).strayed = false := by
  have place := empty.location
  have small := empty.small
  have start : size - 1 = b.location + 1 := by omega
  rw [start]
  refine ⟨writeDigits_fits (by omega) (by omega), ?_⟩
  rw [writeDigits_inside (by omega) (by omega) (by omega), empty.inside]

theorem NumberBuffer.Empty.below (empty : b.Empty size)
    (fits : (decimal fuel arg).length + 1 < size) :
    (Drivers.writeDigits size fuel arg b).location < size := by
  have place := empty.location
  have small := empty.small
  have location := (empty.writeDigits (Nat.lt_of_succ_lt fits)).1.location
  have inside := writeDigits_location size fuel arg (b := b) (by omega)
  omega

theorem NumberBuffer.Empty.print (empty : b.Empty size)
    (fits : (decimal fuel arg).length < size) :
    (Drivers.writeDigits size fuel arg b).next.print =
      (Output.stop none).put (decimal fuel arg) := by
  have place := empty.location
  have small := empty.small
  obtain ⟨holds, inside⟩ := empty.writeDigits fits
  have end_ : size - 1 - (decimal fuel arg).length + (decimal fuel arg).length =
      b.location + 1 := by omega
  refine holds.print_end (by omega) (by omega) (fun c => decimal_ne_zero) ?_ inside
  rw [end_, empty.terminator]

theorem NumberBuffer.Empty.print_sign (empty : b.Empty size)
    (fits : (decimal fuel arg).length + 1 < size) {c : UInt8} (isChar : c ≠ 0) :
    ((Drivers.writeDigits size fuel arg b).push size c).next.print =
      (Output.stop none).put (c :: decimal fuel arg) := by
  have place := empty.location
  have small := empty.small
  obtain ⟨holds, inside⟩ := empty.writeDigits (Nat.lt_of_succ_lt fits)
  have below := writeDigits_location size fuel arg (b := b) (by omega)
  have signed := holds.push below (by omega) (by omega) size c
  refine signed.print_end (by omega) (by rw [List.length_cons]; omega) ?_ ?_ ?_
  · intro d member
    rcases List.mem_cons.mp member with rfl | digit
    · exact isChar
    · exact decimal_ne_zero digit
  · have end_ : size - 1 - (decimal fuel arg).length - 1 + (c :: decimal fuel arg).length =
        b.location + 1 := by
      rw [List.length_cons]
      omega
    rw [end_, empty.terminator]
  · change (_ || decide (size ≤ _)) = false
    rw [inside, decide_eq_false (Nat.not_le_of_lt (empty.below fits)), Bool.or_false]

end Terminated

end Buffers

theorem handleFormatInt_eq (stack : Bytes) (arg : BitVec 32) :
    handleFormatInt stack arg = (Output.stop none).put (intText arg) := by
  have empty : NumberBuffer.Empty 13 ⟨11, Function.update stack 12 0, false⟩ :=
    ⟨rfl, Function.update_self 12 0 stack, rfl, by decide⟩
  unfold handleFormatInt intText
  split
  · rfl
  next notZero =>
    dsimp only
    split
    next negative =>
      have short := decimal_int_length (-arg)
      have fits : (decimal digitFuel (-arg).toInt).length + 1 < 13 := by omega
      have below := Nat.lt_trans (empty.below fits) (by decide : 13 < 2 ^ 16)
      rw [← push_next below]
      exact empty.print_sign fits (by decide)
    next positive =>
      have short := decimal_int_length arg
      exact empty.print (by omega)

theorem handleFormatLong_eq (stack : Bytes) {arg : BitVec 64} (short : ¬TooLong arg) :
    handleFormatLong stack arg = (Output.stop none).put (longText arg) := by
  have empty : NumberBuffer.Empty 14 ⟨12, Function.update stack 13 0, false⟩ :=
    ⟨rfl, Function.update_self 13 0 stack, rfl, by decide⟩
  unfold handleFormatLong longText
  split
  · rfl
  next notZero =>
    have fits : (decimal digitFuel arg.toInt).length ≤ 13 :=
      (decimal_length_le (by decide)).mpr (Nat.lt_of_not_le short)
    exact empty.print (Nat.lt_succ_of_le fits)

/-- A longer one ends in what lies on the stack behind the 64 kilobytes that the index reaches. -/
theorem handleFormatLong_tooLong {arg : BitVec 64} (long : TooLong arg) :
    ∃ digits n, digits ≠ [] ∧ ∀ stack, handleFormatLong stack arg =
      { (terminalPrintString (fun p => some (stack p)) (n + 1) (2 ^ 16)).put digits with
        strayed := true } := by
  have notZero : arg ≠ 0 := by
    rintro rfl
    cases long
  let digits := decimal digitFuel arg.toInt
  have many : 13 < digits.length := by
    have few : ¬(decimal digitFuel arg.toInt).length ≤ 13 :=
      (decimal_length_le (by decide)).not.mpr (Nat.not_lt_of_le long)
    exact Nat.lt_of_not_le few
  have bounded : digits.length ≤ 19 := by
    apply (decimal_length_le (by decide)).mpr
    have above := arg.le_toInt
    have below := arg.toInt_lt
    have power : (2 : Int) ^ (64 - 1) = 9223372036854775808 := by decide
    rw [power] at above below
    omega
  have taken : (digits.take (digits.length - 13)).length = digits.length - 13 :=
    List.length_take_of_le (Nat.sub_le _ _)
  refine ⟨digits.take (digits.length - 13), stringFuel - 1 - (digits.length - 13), ?_, ?_⟩
  · intro empty
    rw [empty, List.length_nil] at taken
    omega
  intro stack
  let b : NumberBuffer := ⟨12, Function.update stack 13 0, false⟩
  have small : b.location < 2 ^ 16 := Nat.lt_trans (by decide : 12 < 13) (by decide)
  have holds : b.Holds (writeDigits 14 digitFuel arg.toInt b) (2 ^ 16 - (digits.length - 13))
      (digits.take (digits.length - 13)) :=
    writeDigits_wraps small many (Nat.le_trans bounded (by decide))
  have strayed : (writeDigits 14 digitFuel arg.toInt b).strayed = true :=
    writeDigits_outside small (by decide) many
  have isString : ∀ c ∈ digits.take (digits.length - 13), c ≠ 0 :=
    fun c member => decimal_ne_zero (List.mem_of_mem_take member)
  have length : (digits.take (digits.length - 13)).length +
      (stringFuel - 1 - (digits.length - 13) + 1) = stringFuel := by
    rw [taken, stringFuel]
    omega
  have printed := holds.print (by omega) isString length
  have end_ : 2 ^ 16 - (digits.length - 13) + (digits.take (digits.length - 13)).length = 2 ^ 16 := by
    rw [taken]
    omega
  have behind : ∀ p, 2 ^ 16 ≤ p → some (b.buf p) = some (stack p) := by
    intro p above
    have apart : p ≠ 13 := by omega
    exact congrArg some (Function.update_of_ne apart 0 stack)
  rw [end_, strayed, terminalPrintString_congr behind] at printed
  rw [handleFormatLong, if_neg notZero]
  exact printed

theorem intText_ne_nil (arg : BitVec 32) : intText arg ≠ [] := by
  unfold intText
  split
  · exact List.cons_ne_nil _ _
  next notZero =>
    split
    · exact List.cons_ne_nil _ _
    · exact decimal_head fun zero => notZero (BitVec.eq_of_toInt_eq (zero.trans rfl))

/-- A number always prints something, and the function returns if it is not too long. -/
theorem handleFormatLong_written (stack : Bytes) (arg : BitVec 64) :
    (handleFormatLong stack arg).written ≠ [] := by
  by_cases long : TooLong arg
  · obtain ⟨digits, n, notNil, printed⟩ := handleFormatLong_tooLong long
    rw [printed]
    exact List.append_ne_nil_of_left_ne_nil notNil _
  · rw [handleFormatLong_eq stack long]
    simp only [Output.put_written, Output.stop_written, List.append_nil]
    unfold longText
    split
    · exact List.cons_ne_nil _ _
    next notZero =>
      exact decimal_head fun zero => notZero (BitVec.eq_of_toInt_eq (zero.trans rfl))

end SwagOS.Drivers
