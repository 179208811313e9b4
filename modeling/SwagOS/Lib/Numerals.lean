import Mathlib.Data.Nat.Digits.Lemmas

/-!
# Numerals

The text of a number in a base of at most 36, with the highest digit first and the lower-case
letters as the digits from ten on.  A text represents a number if reading it gives the number
and no digit in it is superfluous; there is one such text for each number.
-/

namespace SwagOS.Lib.Numerals

def digit (d : Nat) : UInt8 := .ofNat (if d < 10 then 48 + d else 87 + d)

def digitValue (c : UInt8) : Option Nat :=
  if 48 ≤ c.toNat ∧ c.toNat < 58 then some (c.toNat - 48)
  else if 97 ≤ c.toNat ∧ c.toNat < 123 then some (c.toNat - 87)
  else none

def parseFrom (base : Nat) : Nat → List UInt8 → Option Nat
  | n, [] => some n
  | n, c :: rest =>
      match digitValue c with
      | none => none
      | some d => if d < base then parseFrom base (base * n + d) rest else none

def parse (base : Nat) (text : List UInt8) : Option Nat :=
  if text = [] then none else parseFrom base 0 text

def lowDigits (base n : Nat) : List UInt8 := (Nat.digits base n).map digit

def numeral (base n : Nat) : List UInt8 := if n = 0 then [48] else (lowDigits base n).reverse

/-- The text consists of digits of the base, and none of them is superfluous. -/
structure Represents (base : Nat) (text : List UInt8) (n : Nat) : Prop where
  parses : parse base text = some n
  noLeadingZero : ∀ rest, text = 48 :: rest → rest = []

section Digits

variable {base n d : Nat} {c : UInt8}

theorem digit_toNat (small : d < 36) : (digit d).toNat = if d < 10 then 48 + d else 87 + d := by
  rw [digit, UInt8.toNat_ofNat']
  split <;> omega

theorem digitValue_digit (small : d < 36) : digitValue (digit d) = some d := by
  rw [digitValue, digit_toNat small]
  by_cases decimal : d < 10
  · rw [if_pos decimal, if_pos (by omega), Nat.add_sub_cancel_left]
  · rw [if_neg decimal, if_neg (by omega), if_pos (by omega), Nat.add_sub_cancel_left]

theorem digitValue_some (value : digitValue c = some d) : c = digit d := by
  have below := c.toNat_lt
  apply UInt8.toNat_inj.mp
  rw [digitValue] at value
  split at value
  next decimal =>
    cases value
    rw [digit_toNat (by omega), if_pos (by omega)]
    omega
  next notDecimal =>
    split at value
    next letter =>
      cases value
      rw [digit_toNat (by omega), if_neg (by omega)]
      omega
    next => cases value

theorem digit_ne_zero (small : d < 36) : digit d ≠ 0 := by
  intro zero
  have value := congrArg UInt8.toNat zero
  rw [digit_toNat small, UInt8.toNat_zero] at value
  split at value <;> omega

theorem digit_eq_zeroDigit (small : d < 36) : digit d = 48 ↔ d = 0 := by
  constructor
  · intro isZero
    have value := digitValue_digit small
    rw [isZero] at value
    exact (Option.some.inj value).symm
  · rintro rfl
    rfl

@[simp] theorem lowDigits_zero (base : Nat) : lowDigits base 0 = [] := by
  rw [lowDigits, Nat.digits_zero, List.map_nil]

theorem lowDigits_next (large : 2 ≤ base) (notZero : n ≠ 0) :
    lowDigits base n = digit (n % base) :: lowDigits base (n / base) := by
  rw [lowDigits, Nat.digits_def' large (Nat.pos_of_ne_zero notZero), List.map_cons, lowDigits]

theorem length_lowDigits_le (large : 2 ≤ base) (k : Nat) :
    (lowDigits base n).length ≤ k ↔ n < base ^ k := by
  rw [lowDigits, List.length_map, Nat.digits_length_le_iff large]

theorem lowDigits_ne_zero (large : 2 ≤ base) (small : base ≤ 36) (member : c ∈ lowDigits base n) :
    c ≠ 0 := by
  obtain ⟨d, inside, rfl⟩ := List.mem_map.mp member
  exact digit_ne_zero (Nat.lt_of_lt_of_le (Nat.digits_lt_base large inside) small)

end Digits

section Reading

variable {base n : Nat} {text : List UInt8}

theorem parseFrom_digits (small : base ≤ 36) {l : List Nat} (inside : ∀ d ∈ l, d < base) (n : Nat) :
    parseFrom base n (l.map digit) = some (Nat.ofDigits base (l.reverse ++ [n])) := by
  induction l generalizing n with
  | nil => rw [List.map_nil, parseFrom, List.reverse_nil, List.nil_append, Nat.ofDigits_singleton]
  | cons d rest inductionHypothesis =>
    have first : d < base := inside d List.mem_cons_self
    have later := inductionHypothesis fun d member => inside d (List.mem_cons_of_mem _ member)
    rw [List.map_cons, parseFrom, digitValue_digit (Nat.lt_of_lt_of_le first small)]
    dsimp only
    have two : Nat.ofDigits base [d, n] = Nat.ofDigits base [base * n + d] := by
      rw [Nat.ofDigits_cons, Nat.ofDigits_singleton, Nat.ofDigits_singleton, Nat.add_comm]
    rw [if_pos first, later, List.reverse_cons, List.append_assoc, Nat.ofDigits_append,
      Nat.ofDigits_append, List.singleton_append, two]

theorem parseFrom_some {m : Nat} (read : parseFrom base n text = some m) :
    ∃ l : List Nat, text = l.map digit ∧ ∀ d ∈ l, d < base := by
  induction text generalizing n with
  | nil => exact ⟨[], rfl, fun d never => absurd never List.not_mem_nil⟩
  | cons c rest inductionHypothesis =>
    rw [parseFrom] at read
    split at read
    next => cases read
    next d value =>
      split at read
      next inside =>
        obtain ⟨l, rfl, below⟩ := inductionHypothesis read
        refine ⟨d :: l, ?_, List.forall_mem_cons.mpr ⟨inside, below⟩⟩
        rw [List.map_cons, digitValue_some value]
      next => cases read

theorem parse_some (small : base ≤ 36) : parse base text = some n ↔
    text ≠ [] ∧ ∃ l : List Nat, text = l.map digit ∧ (∀ d ∈ l, d < base) ∧
      Nat.ofDigits base l.reverse = n := by
  rw [parse]
  split
  next empty => exact iff_of_false nofun fun both => both.1 empty
  next notEmpty =>
    rw [and_iff_right notEmpty]
    constructor
    · intro read
      obtain ⟨l, rfl, inside⟩ := parseFrom_some read
      rw [parseFrom_digits small inside, Nat.ofDigits_append_zero] at read
      exact ⟨l, rfl, inside, Option.some.inj read⟩
    · rintro ⟨l, rfl, inside, value⟩
      rw [parseFrom_digits small inside, Nat.ofDigits_append_zero, value]

end Reading

section Representation

variable {base n : Nat} {text : List UInt8}

theorem numeral_represents (large : 2 ≤ base) (small : base ≤ 36) (n : Nat) :
    Represents base (numeral base n) n := by
  by_cases zero : n = 0
  · rw [numeral, if_pos zero, zero]
    refine ⟨?_, fun rest same => (List.cons.inj same).2.symm⟩
    apply (parse_some small).mpr
    refine ⟨List.cons_ne_nil _ _, [0], rfl, ?_, rfl⟩
    intro d member
    rw [List.mem_singleton.mp member]
    omega
  · have notNil : Nat.digits base n ≠ [] := Nat.digits_ne_nil_iff_ne_zero.mpr zero
    have below : ∀ d ∈ (Nat.digits base n).reverse, d < base := by
      intro d member
      exact Nat.digits_lt_base large (List.mem_reverse.mp member)
    rw [numeral, if_neg zero, lowDigits, ← List.map_reverse]
    constructor
    · apply (parse_some small).mpr
      refine ⟨by simpa using notNil, _, rfl, below, ?_⟩
      rw [List.reverse_reverse, Nat.ofDigits_digits]
    · -- The highest digit is not zero.
      intro rest same
      have last := Nat.getLast_digit_ne_zero base zero
      have head : (Nat.digits base n).reverse =
          (Nat.digits base n).getLast notNil :: (Nat.digits base n).dropLast.reverse := by
        rw [← List.reverse_concat', List.dropLast_append_getLast]
      rw [head] at same below
      have isZero : digit ((Nat.digits base n).getLast notNil) = 48 := (List.cons.inj same).1
      have inside := below _ List.mem_cons_self
      exact absurd ((digit_eq_zeroDigit (Nat.lt_of_lt_of_le inside small)).mp isZero) last

theorem represents_iff (large : 2 ≤ base) (small : base ≤ 36) :
    Represents base text n ↔ text = numeral base n := by
  constructor
  · intro represents
    obtain ⟨notEmpty, l, rfl, inside, rfl⟩ := (parse_some small).mp represents.parses
    have notNil : l ≠ [] := fun empty => notEmpty (by rw [empty, List.map_nil])
    obtain ⟨d, rest, rfl⟩ := List.exists_cons_of_ne_nil notNil
    have first : d < 36 := Nat.lt_of_lt_of_le (inside d List.mem_cons_self) small
    by_cases zero : d = 0
    · subst zero
      have short := represents.noLeadingZero (rest.map digit) rfl
      obtain rfl : rest = [] := List.map_eq_nil_iff.mp short
      rfl
    · have digits : Nat.digits base (Nat.ofDigits base (d :: rest).reverse) =
          (d :: rest).reverse := by
        apply Nat.digits_ofDigits base large
        · exact fun e member => inside e (List.mem_reverse.mp member)
        · intro _
          simpa using zero
      have notZero : Nat.ofDigits base (d :: rest).reverse ≠ 0 := by
        intro isZero
        rw [isZero, Nat.digits_zero] at digits
        simp at digits
      rw [numeral, if_neg notZero, lowDigits, digits, ← List.map_reverse, List.reverse_reverse]
  · rintro rfl
    exact numeral_represents large small n

end Representation

example : numeral 16 48879 = [98, 101, 101, 102] := by decide

end SwagOS.Lib.Numerals
