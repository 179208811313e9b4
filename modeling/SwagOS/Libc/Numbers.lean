import SwagOS.Lib.Numerals
import SwagOS.Lib.Transition
import SwagOS.Libc.Strings

/-!
# `itoa` and `utoa`

`libc/itoa.c`, for bases other than zero.  Both functions write the digits from the lowest on
and reverse them.  The remainder of a negative number is negative, so that `itoa` writes what
is no digit unless it has changed the sign before.
-/

namespace SwagOS.Libc

open SwagOS.Lib SwagOS.Lib.Numerals

def reverseLoop (str : Bytes) (start end_ : Nat) : Bytes :=
  if start < end_ then
    let temp := str start
    let str := Function.update str start (str end_)
    let str := Function.update str end_ temp
    reverseLoop str (start + 1) (end_ - 1)
  else str
termination_by end_ - start

def reverse (str : Bytes) (length : Nat) : Bytes := reverseLoop str 0 (length - 1)

/-- `(rem > 9) ? (rem - 10) + 'a' : rem + '0'` -/
def digitChar (rem : Int) : UInt8 := .ofInt (if rem > 9 then rem - 10 + 97 else rem + 48)

/-- The loop over the digits, which both functions have; the remainder is an `int`. -/
def writeDigits (base : Int) : Nat → Int → Nat → Bytes → Outcome (Nat × Bytes)
  | 0, _, _, _ => throw .hang
  | fuel + 1, num, i, str =>
      if num = 0 then pure (i, str)
      else
        let rem := (num.tmod base).bmod (2 ^ 32)
        writeDigits base fuel (num.tdiv base) (i + 1) (Function.update str i (digitChar rem))

def itoa (fuel : Nat) (num : BitVec 32) (str : Bytes) (base : BitVec 32) : Outcome Bytes :=
  if num = 0 then pure (Function.update (Function.update str 0 48) 1 0)
  else do
    let isNegative := num.toInt < 0 ∧ base = 10
    let num := if isNegative then -num else num
    let (i, str) ← writeDigits base.toInt fuel num.toInt 0 str
    let (i, str) := if isNegative then (i + 1, Function.update str i 45) else (i, str)
    pure (reverse (Function.update str i 0) i)

def utoa (fuel : Nat) (num : BitVec 32) (str : Bytes) (base : BitVec 32) : Outcome Bytes :=
  if num = 0 then pure (Function.update (Function.update str 0 48) 1 0)
  else do
    let (i, str) ← writeDigits base.toNat fuel num.toNat 0 str
    pure (reverse (Function.update str i 0) i)

theorem reverseLoop_eq (str : Bytes) (start end_ p : Nat) :
    reverseLoop str start end_ p =
      if start ≤ p ∧ p ≤ end_ then str (start + end_ - p) else str p := by
  induction str, start, end_ using reverseLoop.induct with
  | case1 str start end_ less temp first second inductionHypothesis =>
    rw [reverseLoop, if_pos less]
    refine inductionHypothesis.trans ?_
    have sum : start + 1 + (end_ - 1) - p = start + end_ - p := by omega
    by_cases inner : start + 1 ≤ p ∧ p ≤ end_ - 1
    · rw [if_pos inner, if_pos (by omega), sum]
      dsimp only [second, first]
      rw [Function.update_of_ne (by omega), Function.update_of_ne (by omega)]
    · rw [if_neg inner]
      dsimp only [second, first, temp]
      by_cases last : p = end_
      · rw [last, Function.update_self, if_pos (by omega), Nat.add_sub_cancel]
      · rw [Function.update_of_ne last]
        by_cases isFirst : p = start
        · rw [isFirst, Function.update_self, if_pos (by omega), Nat.add_sub_cancel_left]
        · rw [Function.update_of_ne isFirst, if_neg (by omega)]
  | case2 str start end_ notLess =>
    rw [reverseLoop, if_neg notLess]
    split
    next here =>
      have middle : start + end_ - p = p := by omega
      rw [middle]
    next => rfl

def Starts (str : Bytes) (l : List UInt8) : Prop := ∀ j (inside : j < l.length), str j = l[j]

theorem Starts.append {str : Bytes} {l : List UInt8} (starts : Starts str l) (c : UInt8) :
    Starts (Function.update str l.length c) (l ++ [c]) := by
  intro j inside
  by_cases last : j = l.length
  · subst last
    rw [Function.update_self, List.getElem_concat_length rfl]
  · have earlier : j < l.length := by
      rw [List.length_append, List.length_singleton] at inside
      omega
    rw [Function.update_of_ne last, List.getElem_append_left earlier]
    exact starts j earlier

theorem Starts.reverse {str : Bytes} {l : List UInt8} (starts : Starts str l)
    (notEmpty : l ≠ []) (isString : IsString l) :
    HoldsString (Libc.reverse (Function.update str l.length 0) l.length) 0 l.reverse where
  isString member := isString (List.mem_reverse.mp member)
  bytes := by
    intro j inside
    rw [List.length_reverse] at inside
    have here : 0 ≤ 0 + j ∧ 0 + j ≤ l.length - 1 := by omega
    have place : 0 + (l.length - 1) - (0 + j) = l.length - 1 - j := by omega
    rw [Libc.reverse, reverseLoop_eq, if_pos here, place, Function.update_of_ne (by omega),
      starts _ (by omega), List.getElem_reverse]
  terminated := by
    have positive := List.length_pos_of_ne_nil notEmpty
    rw [List.length_reverse, Libc.reverse, reverseLoop_eq, if_neg (by omega), Nat.zero_add,
      Function.update_self]

/-- What the loop writes, the lowest digit first: the remainders have the sign of the number. -/
def digitChars (base : Nat) (num : Int) : List UInt8 :=
  (Nat.digits base num.natAbs).map fun d : Nat => digitChar (if num < 0 then -(d : Int) else d)

section Digits

variable {base d : Nat} {num : Int}

@[simp] theorem digitChars_zero (base : Nat) : digitChars base 0 = [] := by
  rw [digitChars, Int.natAbs_zero, Nat.digits_zero, List.map_nil]

theorem digitChars_next (large : 2 ≤ base) (notZero : num ≠ 0) :
    digitChars base num = digitChar (num.tmod base) :: digitChars base (num.tdiv base) := by
  have digits := Nat.digits_def' large (Int.natAbs_pos.mpr notZero)
  have quotient : (num.tdiv base).natAbs = num.natAbs / base := Int.natAbs_tdiv num base
  obtain ⟨n, rfl | rfl⟩ := num.eq_nat_or_neg
  · have notNegative : ¬(n : Int) < 0 := by omega
    have stays : ¬(n : Int).tdiv base < 0 := by
      rw [← Int.ofNat_tdiv]
      exact Int.not_lt.mpr (Int.natCast_nonneg _)
    rw [digitChars, digits, List.map_cons, digitChars, quotient, if_neg notNegative,
      Int.natAbs_natCast, Int.ofNat_tmod]
    simp only [notNegative, stays, if_false]
  · have negative : -(n : Int) < 0 := by omega
    rw [digitChars, digits, List.map_cons, digitChars, quotient, if_pos negative, Int.natAbs_neg,
      Int.natAbs_natCast, Int.neg_tmod, Int.ofNat_tmod]
    congr 1
    apply List.map_congr_left
    intro d member
    have more : n / base ≠ 0 := by
      intro none
      rw [none, Nat.digits_zero] at member
      cases member
    have stays : (-(n : Int)).tdiv base < 0 := by
      rw [Int.neg_tdiv, ← Int.ofNat_tdiv]
      exact Int.neg_neg_of_pos (Int.natCast_pos.mpr (Nat.pos_of_ne_zero more))
    rw [if_pos negative, if_pos stays]

theorem tmod_bmod (large : 2 ≤ base) (small : base ≤ 36) (num : Int) :
    (num.tmod base).bmod (2 ^ 32) = num.tmod base := by
  have above := Int.lt_tmod_of_pos num (by omega : 0 < (base : Int))
  have below := Int.tmod_lt_of_pos num (by omega : 0 < (base : Int))
  apply Int.bmod_eq_of_le <;> omega

theorem writeDigits_returns (large : 2 ≤ base) (small : base ≤ 36) (num : Int) (i : Nat)
    (str : Bytes) : ∃ str',
      Outcome.Returns (fun fuel => writeDigits base fuel num i str)
        (i + (digitChars base num).length, str') ∧
      (∀ p < i, str' p = str p) ∧
      ∀ j (inside : j < (digitChars base num).length), str' (i + j) = (digitChars base num)[j] := by
  induction bounded : num.natAbs using Nat.strong_induction_on generalizing num i str with
  | _ n inductionHypothesis =>
  subst bounded
  by_cases zero : num = 0
  · subst zero
    rw [digitChars_zero]
    refine ⟨str, ?_, fun _ _ => rfl, fun j inside => absurd inside (Nat.not_lt_zero j)⟩
    apply Outcome.Returns.succ
    apply Outcome.Returns.const
    rfl
  · have smaller : (num.tdiv base).natAbs < num.natAbs := by
      have quotient : (num.tdiv base).natAbs = num.natAbs / base := Int.natAbs_tdiv num base
      rw [quotient]
      exact Nat.div_lt_self (Int.natAbs_pos.mpr zero) large
    obtain ⟨str', returns, before, written⟩ := inductionHypothesis _ smaller (num.tdiv base)
      (i + 1) (Function.update str i (digitChar (num.tmod base))) rfl
    have digits := digitChars_next large zero
    refine ⟨str', ?_, ?_, ?_⟩
    · apply Outcome.Returns.succ
      simp only [writeDigits, if_neg zero, tmod_bmod large small, digits, List.length_cons]
      rw [← Nat.add_assoc, Nat.add_right_comm]
      exact returns
    · intro p earlier
      rw [before p (Nat.lt_succ_of_lt earlier), Function.update_of_ne (Nat.ne_of_lt earlier)]
    · simp only [digits]
      intro j inside
      cases j with
      | zero => exact (before i (Nat.lt_succ_self i)).trans (Function.update_self _ _ _)
      | succ j =>
        have place : i + (j + 1) = i + 1 + j := by omega
        rw [place]
        exact written j (Nat.lt_of_succ_lt_succ inside)

theorem digitChar_nat (inside : d < 36) : digitChar d = digit d := by
  rw [digitChar, digit, UInt8.ofInt]
  congr 1
  split <;> split <;> omega

theorem digitChars_nat (large : 2 ≤ base) (small : base ≤ 36) (n : Nat) :
    digitChars base n = lowDigits base n := by
  rw [digitChars, Int.natAbs_natCast, lowDigits]
  apply List.map_congr_left
  intro d member
  have inside : d < base := Nat.digits_lt_base large member
  rw [if_neg (by omega), digitChar_nat (by omega)]

theorem digitChar_neg (positive : 0 < d) (inside : d < 36) :
    (digitChar (-(d : Int))).toNat = 48 - d := by
  rw [digitChar, UInt8.ofInt, UInt8.toNat_ofNat', if_neg (by omega)]
  omega

theorem digitChars_isString (large : 2 ≤ base) (small : base ≤ 36) (num : Int) :
    IsString (digitChars base num) := by
  intro member
  obtain ⟨d, digit, isZero⟩ := List.mem_map.mp member
  have inside : d < base := Nat.digits_lt_base large digit
  by_cases negative : num < 0 ∧ 0 < d
  · have value := digitChar_neg negative.2 (by omega)
    rw [if_pos negative.1] at isZero
    rw [isZero, UInt8.toNat_zero] at value
    omega
  · have same : (if num < 0 then -(d : Int) else d) = d := by split <;> omega
    rw [same, digitChar_nat (by omega)] at isZero
    exact digit_ne_zero (by omega) isZero

theorem digitChars_negative (large : 2 ≤ base) (small : base ≤ 36) (negative : num < 0) :
    ∃ c rest, (digitChars base num).reverse = c :: rest ∧ digitValue c = none := by
  have notZero : num.natAbs ≠ 0 := by omega
  have notNil : Nat.digits base num.natAbs ≠ [] := Nat.digits_ne_nil_iff_ne_zero.mpr notZero
  have last := Nat.getLast_digit_ne_zero base notZero
  have inside : (Nat.digits base num.natAbs).getLast notNil < base :=
    Nat.digits_lt_base large (List.getLast_mem notNil)
  rw [digitChars, ← List.dropLast_append_getLast notNil, List.map_append, List.reverse_append]
  refine ⟨_, _, rfl, ?_⟩
  have value := digitChar_neg (Nat.pos_of_ne_zero last) (Nat.lt_of_lt_of_le inside small)
  dsimp only
  rw [if_pos negative, digitValue, value, if_neg (by omega), if_neg (by omega)]

end Digits

/-- The value of the string is the number, modulo `2^32` in bases other than ten. -/
def IntRepresents (base : Nat) (text : List UInt8) (m : BitVec 32) : Prop :=
  if base = 10 ∧ m.toInt < 0 then
    ∃ digits, text = 45 :: digits ∧ Represents 10 digits m.toInt.natAbs
  else Represents base text m.toNat

/-- `itoa` returns and leaves the string of the number. -/
def ItoaRight (base : Nat) (m : BitVec 32) : Prop :=
  ∀ str, ∃ str' text, Outcome.Returns (fun fuel => itoa fuel m str (.ofNat 32 base)) str' ∧
    HoldsString str' 0 text ∧ IntRepresents base text m

def UtoaRight (base : Nat) (n : BitVec 32) : Prop :=
  ∀ str, ∃ str' text, Outcome.Returns (fun fuel => utoa fuel n str (.ofNat 32 base)) str' ∧
    HoldsString str' 0 text ∧ Represents base text n.toNat

section Strings

variable {base : Nat} {num : Int}

theorem zero_holds (str : Bytes) :
    HoldsString (Function.update (Function.update str 0 48) 1 0) 0 [48] where
  isString := by decide
  bytes := by
    intro j inside
    obtain rfl : j = 0 := by simpa using inside
    rfl
  terminated := rfl

theorem reverse_holds (large : 2 ≤ base) (small : base ≤ 36) (notZero : num ≠ 0) {str : Bytes}
    (starts : Starts str (digitChars base num)) :
    HoldsString (reverse (Function.update str (digitChars base num).length 0)
      (digitChars base num).length) 0 (digitChars base num).reverse := by
  apply starts.reverse _ (digitChars_isString large small num)
  rw [digitChars_next large notZero]
  exact List.cons_ne_nil _ _

theorem digitChars_reverse (large : 2 ≤ base) (small : base ≤ 36) {n : Nat} (notZero : n ≠ 0) :
    (digitChars base n).reverse = numeral base n := by
  rw [digitChars_nat large small, numeral, if_neg notZero]

theorem isBase (small : base ≤ 36) : (BitVec.ofNat 32 base).toNat = base := by
  rw [BitVec.toNat_ofNat, Nat.mod_eq_of_lt (by omega)]

theorem isBase_int (small : base ≤ 36) : (BitVec.ofNat 32 base).toInt = base := by
  rw [BitVec.toInt_eq_toNat_of_lt, isBase small]
  rw [isBase small]
  omega

theorem utoa_numeral (large : 2 ≤ base) (small : base ≤ 36) (n : BitVec 32) (str : Bytes) :
    ∃ str', Outcome.Returns (fun fuel => utoa fuel n str (.ofNat 32 base)) str' ∧
      HoldsString str' 0 (numeral base n.toNat) := by
  by_cases zero : n = 0
  · subst zero
    refine ⟨_, Outcome.Returns.const ?_, zero_holds str⟩
    rfl
  · have notZero : n.toNat ≠ 0 := fun isZero => zero (BitVec.eq_of_toNat_eq isZero)
    obtain ⟨str', returns, -, starts⟩ := writeDigits_returns large small n.toNat 0 str
    simp only [Nat.zero_add] at returns starts
    refine ⟨_, ?_, digitChars_reverse large small notZero ▸
      reverse_holds large small (by omega) starts⟩
    simp only [utoa, if_neg zero, isBase small]
    exact returns.bind (.const rfl)

theorem itoa_plain (large : 2 ≤ base) (small : base ≤ 36) {m : BitVec 32} (notZero : m ≠ 0)
    (plain : ¬(m.toInt < 0 ∧ base = 10)) (str : Bytes) :
    ∃ str', Outcome.Returns (fun fuel => itoa fuel m str (.ofNat 32 base)) str' ∧
      HoldsString str' 0 (digitChars base m.toInt).reverse := by
  have notZero' : m.toInt ≠ 0 := fun isZero => notZero (BitVec.eq_of_toInt_eq isZero)
  have plain' : ¬(m.toInt < 0 ∧ BitVec.ofNat 32 base = 10) := by
    rintro ⟨negative, ten⟩
    have value := congrArg BitVec.toNat ten
    rw [isBase small] at value
    exact plain ⟨negative, value⟩
  obtain ⟨str', returns, -, starts⟩ := writeDigits_returns large small m.toInt 0 str
  simp only [Nat.zero_add] at returns starts
  refine ⟨_, ?_, reverse_holds large small notZero' starts⟩
  simp only [itoa, if_neg notZero, if_neg plain', isBase_int small]
  exact returns.bind (.const rfl)

theorem itoa_sign {m : BitVec 32} (negative : m.toInt < 0) (str : Bytes) :
    ∃ str', Outcome.Returns (fun fuel => itoa fuel m str 10) str' ∧
      HoldsString str' 0 (45 :: (digitChars 10 (-m).toInt).reverse) := by
  have notZero : m ≠ 0 := by
    rintro rfl
    exact absurd negative (by decide)
  have large : 2 ≤ 10 := by decide
  have small : 10 ≤ 36 := by decide
  obtain ⟨str', returns, -, starts⟩ := writeDigits_returns large small (-m).toInt 0 str
  simp only [Nat.zero_add] at returns starts
  have isString := digitChars_isString large small (-m).toInt
  have text : Starts _ (digitChars 10 (-m).toInt ++ [45]) := Starts.append starts 45
  have holds := text.reverse (by simp) (by simpa [IsString] using isString)
  rw [List.length_append, List.length_singleton, List.reverse_append] at holds
  refine ⟨_, ?_, holds⟩
  have ten : (10 : BitVec 32).toInt = (10 : Nat) := rfl
  simp only [itoa, if_neg notZero, negative, and_self, if_true, ten]
  exact returns.bind (.const rfl)

theorem not_represents_of_none {c : UInt8} {rest : List UInt8} (none : digitValue c = none)
    (n : Nat) : ¬Represents base (c :: rest) n := by
  intro represents
  have parsed := represents.parses
  simp [parse, parseFrom, none] at parsed

end Strings

theorem utoa_right {base : Nat} (large : 2 ≤ base) (small : base ≤ 36) (n : BitVec 32) :
    UtoaRight base n := by
  intro str
  obtain ⟨str', returns, holds⟩ := utoa_numeral large small n str
  exact ⟨str', _, returns, holds, numeral_represents large small n.toNat⟩

/-- The sign is what goes wrong: the digits of a negative number are none, in bases other than
ten and for the number that has no opposite. -/
theorem itoa_wrong {base : Nat} (large : 2 ≤ base) (small : base ≤ 36) {m : BitVec 32}
    (negative : m.toInt < 0) (unsigned : base ≠ 10 ∨ m = BitVec.intMin 32) :
    ¬ItoaRight base m := by
  intro right
  obtain ⟨str', text, returns, holds, represents⟩ := right fun _ => 0
  by_cases ten : base = 10
  · subst ten
    obtain rfl := unsigned.resolve_left fun not => not rfl
    obtain ⟨str'', returns', holds'⟩ := itoa_sign negative fun _ => 0
    have opposite : (-BitVec.intMin 32).toInt < 0 := by decide
    obtain ⟨c, rest, reversed, none⟩ := digitChars_negative large small opposite
    obtain rfl := returns.unique returns'
    obtain rfl := holds'.unique holds
    rw [IntRepresents, if_pos ⟨rfl, negative⟩] at represents
    obtain ⟨digits, same, represents⟩ := represents
    rw [← (List.cons.inj same).2, reversed] at represents
    exact not_represents_of_none none _ represents
  · have notZero : m ≠ 0 := by
      rintro rfl
      exact absurd negative (by decide)
    have plain : ¬(m.toInt < 0 ∧ base = 10) := fun both => ten both.2
    obtain ⟨str'', returns', holds'⟩ := itoa_plain large small notZero plain fun _ => 0
    obtain ⟨c, rest, reversed, none⟩ := digitChars_negative large small negative
    obtain rfl := returns.unique returns'
    obtain rfl := holds'.unique holds
    rw [IntRepresents, if_neg fun both => ten both.1, reversed] at represents
    exact not_represents_of_none none _ represents

theorem itoa_right_nonnegative {base : Nat} (large : 2 ≤ base) (small : base ≤ 36)
    {m : BitVec 32} (notNegative : 0 ≤ m.toInt) : ItoaRight base m := by
  intro str
  have unsigned : ¬(base = 10 ∧ m.toInt < 0) := fun both => Int.not_lt.mpr notNegative both.2
  by_cases zero : m = 0
  · subst zero
    refine ⟨_, _, Outcome.Returns.const rfl, zero_holds str, ?_⟩
    rw [IntRepresents, if_neg unsigned]
    exact numeral_represents large small 0
  · have plain : ¬(m.toInt < 0 ∧ base = 10) := fun both => unsigned both.symm
    obtain ⟨str', returns, holds⟩ := itoa_plain large small zero plain str
    have value : m.toInt = m.toNat := BitVec.toInt_eq_toNat_of_lt (by
      have cases := BitVec.toInt_eq_toNat_cond m
      have bound := m.isLt
      split at cases <;> omega)
    have notZero : m.toNat ≠ 0 := fun isZero => zero (BitVec.eq_of_toNat_eq isZero)
    rw [value, digitChars_reverse large small notZero] at holds
    refine ⟨str', _, returns, holds, ?_⟩
    rw [IntRepresents, if_neg unsigned]
    exact numeral_represents large small m.toNat

theorem itoa_right_negative {m : BitVec 32} (negative : m.toInt < 0)
    (notLeast : m ≠ BitVec.intMin 32) : ItoaRight 10 m := by
  intro str
  obtain ⟨str', returns, holds⟩ := itoa_sign negative str
  have value : (-m).toInt = m.toInt.natAbs := by
    rw [BitVec.toInt_neg_of_ne_intMin notLeast]
    omega
  rw [value, digitChars_reverse (by omega) (by omega) (by omega)] at holds
  refine ⟨str', _, returns, holds, ?_⟩
  rw [IntRepresents, if_pos ⟨rfl, negative⟩]
  exact ⟨_, rfl, numeral_represents (by omega) (by omega) _⟩

theorem itoa_right_iff {base : Nat} (large : 2 ≤ base) (small : base ≤ 36) (m : BitVec 32) :
    ItoaRight base m ↔ 0 ≤ m.toInt ∨ base = 10 ∧ m ≠ BitVec.intMin 32 := by
  by_cases notNegative : 0 ≤ m.toInt
  · exact iff_of_true (itoa_right_nonnegative large small notNegative) (.inl notNegative)
  · have negative : m.toInt < 0 := Int.not_le.mp notNegative
    rw [or_iff_right notNegative]
    constructor
    · intro right
      by_contra unsigned
      have either : base ≠ 10 ∨ m = BitVec.intMin 32 := by
        by_cases ten : base = 10
        · exact .inr (by_contra fun notLeast => unsigned ⟨ten, notLeast⟩)
        · exact .inl ten
      exact itoa_wrong large small negative either right
    · rintro ⟨rfl, notLeast⟩
      exact itoa_right_negative negative notLeast

/-- Which numbers the two functions write. -/
theorem itoa_utoa_right {base : Nat} (large : 2 ≤ base) (small : base ≤ 36) :
    (∀ n, UtoaRight base n) ∧
      ∀ m, ItoaRight base m ↔ 0 ≤ m.toInt ∨ base = 10 ∧ m ≠ BitVec.intMin 32 :=
  ⟨utoa_right large small, itoa_right_iff large small⟩

theorem itoa_utoa_right_sixteen : (∀ n, UtoaRight 16 n) ∧
    ∀ m, ItoaRight 16 m ↔ 0 ≤ m.toInt ∨ 16 = 10 ∧ m ≠ BitVec.intMin 32 :=
  itoa_utoa_right (by decide) (by decide)

/-- `itoa(-1, str, 16)` leaves `/`, the character before the digits. -/
theorem itoa_minus_one :
    (∃ str', Outcome.Returns (fun fuel => itoa fuel (-1) (fun _ => 0) 16) str' ∧
      HoldsString str' 0 [47]) ∧ ¬ItoaRight 16 (-1) := by
  constructor
  · have digits : digitChars 16 (-1 : BitVec 32).toInt = [47] := by
      have value : (-1 : BitVec 32).toInt = -1 := by decide
      rw [value, digitChars]
      simp
      decide
    have large : 2 ≤ 16 := by decide
    have written := itoa_plain large (by decide) (m := -1) (by decide) (by decide) fun _ => 0
    rwa [digits] at written
  · exact itoa_wrong (by decide) (by decide) (by decide) (.inl (by decide))

end SwagOS.Libc
