import SwagOS.Drivers.Terminal.Disclosure
import SwagOS.Lib.Numerals

/-!
# The conversions of `printf`

`%d` prints the decimal numeral of every number that has an opposite.  `%u` takes its argument
for a signed number and has room for 13 digits; what it prints is the numeral of the argument
only below that.
-/

namespace SwagOS.Drivers

open SwagOS.Lib SwagOS.Lib.Numerals

def Decimal (text : List UInt8) (n : Int) : Prop :=
  if n < 0 then ∃ digits, text = 45 :: digits ∧ Represents 10 digits n.natAbs
  else Represents 10 text n.natAbs

/-- `%d` prints the argument in any text, and stays in its buffer. -/
def IntConversionRight (arg : BitVec 32) : Prop :=
  ∀ memory args rest, BitVec.ofNat 32 (args 0) = arg → ∃ text,
    printf memory false args (37 :: 100 :: rest) =
      (printf memory false (fun i => args (i + 1)) rest).put text ∧
    Decimal text arg.toInt

def LongConversionRight (arg : BitVec 64) : Prop :=
  ∀ memory args rest, BitVec.ofNat 64 (args 0) = arg → ∃ text,
    printf memory false args (37 :: 117 :: rest) =
      (printf memory false (fun i => args (i + 1)) rest).put text ∧
    Represents 10 text arg.toNat

section Digits

variable {fuel n : Nat}

theorem digitChar_nat (n : Nat) : digitChar n = digit (n % 10) := by
  have below : n % 10 < 10 := Nat.mod_lt n (by decide)
  have remainder : (n : Int).tmod 10 = (n % 10 : Nat) := rfl
  have sum : (48 + ((n % 10 : Nat) : Int)).toNat = 48 + n % 10 := by omega
  rw [digitChar, digit, if_pos below, remainder, sum]

theorem decimal_nat (enough : n < 10 ^ fuel) : decimal fuel n = (lowDigits 10 n).reverse := by
  induction fuel generalizing n with
  | zero =>
    obtain rfl : n = 0 := by simpa using enough
    rfl
  | succ fuel inductionHypothesis =>
    by_cases zero : n = 0
    · subst zero
      rfl
    · have notZero : (n : Int) ≠ 0 := Int.natCast_ne_zero.mpr zero
      have shorter : n / 10 < 10 ^ fuel := by
        rw [Nat.div_lt_iff_lt_mul (by decide), ← Nat.pow_succ]
        exact enough
      have quotient : (n : Int).tdiv 10 = (n / 10 : Nat) := rfl
      rw [decimal, if_neg notZero, quotient, inductionHypothesis shorter, digitChar_nat,
        lowDigits_next (by decide) zero, List.reverse_cons]

theorem decimal_represents (positive : 0 < n) (small : n < 10 ^ 20) :
    Represents 10 (decimal digitFuel n) n := by
  have text : decimal digitFuel n = numeral 10 n := by
    rw [digitFuel, decimal_nat small, numeral, if_neg (Nat.ne_of_gt positive)]
  rw [text]
  exact numeral_represents (by decide) (by decide) n

end Digits

theorem printf_d (memory : PrintMemory) (args : Nat → Nat) (rest : List UInt8) :
    printf memory false args (37 :: 100 :: rest) =
      (printf memory false (fun i => args (i + 1)) rest).put (intText (.ofNat 32 (args 0))) := by
  rw [PrintState.printf_percent, PrintState.printf_int]

theorem intText_decimal {arg : BitVec 32} (opposite : arg ≠ BitVec.intMin 32) :
    Decimal (intText arg) arg.toInt := by
  have above := arg.le_toInt
  have below := arg.toInt_lt
  by_cases zero : arg = 0
  · subst zero
    exact numeral_represents (by decide) (by decide) 0
  · have notZero : arg.toInt ≠ 0 := fun isZero => zero (BitVec.eq_of_toInt_eq isZero)
    have bounded : arg.toInt.natAbs < 10 ^ 20 := by
      norm_num at above below
      omega
    have represents := decimal_represents (Int.natAbs_pos.mpr notZero) bounded
    unfold Decimal intText
    rw [if_neg zero]
    by_cases negative : arg.toInt < 0
    · have magnitude : (-arg).toInt = arg.toInt.natAbs := by
        rw [BitVec.toInt_neg_of_ne_intMin opposite]
        omega
      rw [if_pos negative, if_pos negative, magnitude]
      exact ⟨_, rfl, represents⟩
    · have magnitude : (arg.toInt.natAbs : Int) = arg.toInt := by omega
      rw [magnitude] at represents
      rw [if_neg negative, if_neg negative]
      exact represents

theorem intText_intMin : ¬Decimal (intText (BitVec.intMin 32)) (BitVec.intMin 32).toInt := by
  have text : intText (BitVec.intMin 32) = [45, 46, 47, 44, 41, 44, 40, 45, 42, 44, 40] := by
    decide
  rw [text]
  rintro ⟨digits, same, represents⟩
  rw [← (List.cons.inj same).2] at represents
  exact absurd represents.parses (by decide)

theorem intConversionRight_iff (arg : BitVec 32) :
    IntConversionRight arg ↔ arg ≠ BitVec.intMin 32 := by
  constructor
  · rintro right rfl
    obtain ⟨text, printed, decimal⟩ := right ⟨fun _ => none, fun _ => 0⟩ (fun _ => 2 ^ 31) [] rfl
    rw [printf_d] at printed
    have same : intText (BitVec.intMin 32) = text :=
      List.append_cancel_right (congrArg Output.written printed)
    exact intText_intMin (same ▸ decimal)
  · intro opposite memory args rest isArg
    subst isArg
    exact ⟨_, printf_d memory args rest, intText_decimal opposite⟩

theorem printf_u (memory : PrintMemory) (args : Nat → Nat) (rest : List UInt8) :
    printf memory false args (37 :: 117 :: rest) =
      (handleFormatLong memory.stack (.ofNat 64 (args 0))).seq
        (printf memory false (fun i => args (i + 1)) rest) := by
  rw [PrintState.printf_percent, PrintState.printf_long]

section Long

variable {arg : BitVec 64}

theorem longText_represents (small : arg.toNat < 10 ^ 13) :
    ¬TooLong arg ∧ Represents 10 (longText arg) arg.toNat := by
  have value : arg.toInt = arg.toNat := by
    apply BitVec.toInt_eq_toNat_of_lt
    omega
  constructor
  · rw [TooLong, value, Int.natAbs_natCast]
    exact Nat.not_le.mpr small
  · unfold longText
    by_cases zero : arg = 0
    · rw [if_pos zero, zero]
      exact numeral_represents (by decide) (by decide) 0
    · have positive : 0 < arg.toNat :=
        Nat.pos_of_ne_zero fun isZero => zero (BitVec.eq_of_toNat_eq isZero)
      rw [if_neg zero, value]
      exact decimal_represents positive (by omega)

theorem longText_short (short : ¬TooLong arg) (large : 10 ^ 13 ≤ arg.toNat) :
    ¬Represents 10 (longText arg) arg.toNat := by
  intro represents
  have notZero : arg ≠ 0 := by
    rintro rfl
    exact absurd large (by decide)
  have few : (decimal digitFuel arg.toInt).length ≤ 13 :=
    (decimal_length_le (by decide)).mpr (Nat.lt_of_not_le short)
  have text := (represents_iff (by decide) (by decide)).mp represents
  rw [longText, if_neg notZero] at text
  rw [text, numeral, if_neg (by omega), List.length_reverse,
    length_lowDigits_le (by decide)] at few
  omega

theorem longConversionRight_iff : LongConversionRight arg ↔ arg.toNat < 10 ^ 13 := by
  constructor
  · intro right
    by_contra large
    have isArg : BitVec.ofNat 64 arg.toNat = arg := BitVec.eq_of_toNat_eq (by simp)
    obtain ⟨text, printed, represents⟩ := right ⟨fun _ => none, fun _ => 0⟩ (fun _ => arg.toNat) []
      isArg
    rw [printf_u, isArg] at printed
    by_cases long : TooLong arg
    · obtain ⟨digits, n, -, stored⟩ := handleFormatLong_tooLong long
      have strays := congrArg Output.strayed printed
      rw [stored, Output.seq_strayed rfl] at strays
      cases strays
    · rw [handleFormatLong_eq _ long, Output.put_seq, Output.stop_seq] at printed
      have same : longText arg = text :=
        List.append_cancel_right (congrArg Output.written printed)
      exact longText_short long (Nat.le_of_not_lt large) (same ▸ represents)
  · intro small memory args rest isArg
    subst isArg
    obtain ⟨short, represents⟩ := longText_represents small
    refine ⟨_, ?_, represents⟩
    rw [printf_u, handleFormatLong_eq memory.stack short, Output.put_seq, Output.stop_seq]

end Long

/-- Which arguments the two conversions print right. -/
theorem conversions_right (int : BitVec 32) (long : BitVec 64) :
    (IntConversionRight int ↔ int ≠ BitVec.intMin 32) ∧
      (LongConversionRight long ↔ long.toNat < 10 ^ 13) :=
  ⟨intConversionRight_iff int, longConversionRight_iff⟩

def noMemory : PrintMemory := ⟨fun _ => none, fun _ => 0⟩

/-- The least number is printed as `-./,),(-*,(`, `%u` prints `/` for the largest one, and a
number of 14 digits is stored outside of the buffer. -/
theorem conversions_wrong :
    (printf noMemory false (fun _ => 2 ^ 31) [37, 100]).written =
        [45, 46, 47, 44, 41, 44, 40, 45, 42, 44, 40] ∧
      ¬IntConversionRight (BitVec.intMin 32) ∧
      (printf noMemory false (fun _ => 2 ^ 64 - 1) [37, 117]).written = [47] ∧
      ¬LongConversionRight (BitVec.allOnes 64) ∧
      (printf noMemory false (fun _ => 10 ^ 13) [37, 117]).strayed = true ∧
      ¬LongConversionRight (.ofNat 64 (10 ^ 13)) := by
  refine ⟨?_, ?_, ?_, ?_, ?_, ?_⟩
  · rw [printf_d]
    decide
  · rw [intConversionRight_iff]
    exact fun not => not rfl
  · rw [printf_u, handleFormatLong_eq _ (by decide)]
    decide
  · rw [longConversionRight_iff]
    decide
  · have long : TooLong (.ofNat 64 (10 ^ 13)) := by decide
    obtain ⟨digits, n, -, stored⟩ := handleFormatLong_tooLong long
    rw [printf_u, stored]
    exact Output.seq_strayed rfl
  · rw [longConversionRight_iff]
    decide

end SwagOS.Drivers
