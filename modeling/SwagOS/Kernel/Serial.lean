import SwagOS.Lib.Checked
import SwagOS.Lib.Numerals
import SwagOS.Libc.Strings

/-!
# Numbers on the serial line

`log_int_to_serial` and `log_hex_to_serial` of `arch/x86_64/serial.c`.  The digits are written
from index 19 of a buffer of 21 bytes downwards, and the index is an unsigned number: after a
digit at index 0 the text is looked for behind the buffer.
-/

namespace SwagOS.Kernel.Serial

open SwagOS.Lib SwagOS.Lib.Numerals SwagOS.Libc

/-- `char unsafe_buf[21]` -/
def bufSize : Nat := 21

/-- The loop over the digits of `x`, in both functions; `i` is a `uint32_t`. -/
def fill (div : Nat) (digit : Nat → UInt8) : Nat → Nat → Nat → Bytes → Checked Nat (Nat × Bytes)
  | 0, _, _, _ => throw (.halt .hang)
  | fuel + 1, x, i, unsafeBuf =>
      if x > 0 then do
        Checked.check (i < bufSize) i
        let unsafeBuf := Function.update unsafeBuf i (digit (x % div))
        fill div digit fuel ((x - x % div) / div) ((i + (2 ^ 32 - 1)) % 2 ^ 32) unsafeBuf
      else pure (i, unsafeBuf)

/-- `log_to_serial` from an offset of the buffer on: the bytes that go to the port. -/
def logToSerial (unsafeBuf : Bytes) : Nat → Nat → Checked Nat (List UInt8)
  | 0, _ => throw (.halt .hang)
  | fuel + 1, p => do
      Checked.check (p < bufSize) p
      if unsafeBuf p ≠ 0 then
        let rest ← logToSerial unsafeBuf fuel (p + 1)
        pure (unsafeBuf p :: rest)
      else pure []

def logIntToSerial (fuel : Nat) (num : BitVec 64) : Checked Nat (List UInt8) :=
  if num = 0 then pure [48]
  else do
    let (i, unsafeBuf) ← fill 10 (fun d => .ofNat (48 + d)) fuel num.toNat 19 fun _ => 0
    logToSerial unsafeBuf fuel (i + 1)

def logHexToSerial (fuel : Nat) (num : BitVec 64) : Checked Nat (List UInt8) :=
  if num = 0 then pure [48, 120, 48]
  else do
    let (i, unsafeBuf) ← fill 16 (fun ires => if ires < 10 then .ofNat (48 + ires) else
      .ofNat (97 + (ires - 10))) fuel num.toNat 19 fun _ => 0
    let text ← logToSerial unsafeBuf fuel (i + 1)
    pure (48 :: 120 :: text)

def LogIntRight (num : BitVec 64) : Prop :=
  ∃ text least, (∀ fuel ≥ least, logIntToSerial fuel num = .ok text) ∧
    Represents 10 text num.toNat

def LogHexRight (num : BitVec 64) : Prop :=
  ∃ text least, (∀ fuel ≥ least, logHexToSerial fuel num = .ok (48 :: 120 :: text)) ∧
    Represents 16 text num.toNat

section Loops

variable {div fuel x i : Nat} {char : Nat → UInt8} {unsafeBuf : Bytes} {text : List UInt8}

def down (i count : Nat) : Nat := (i + (2 ^ 32 - count)) % 2 ^ 32

theorem fill_zero (enough : 0 < fuel) : fill div char fuel 0 i unsafeBuf = .ok (i, unsafeBuf) := by
  obtain ⟨k, rfl⟩ := Nat.exists_eq_add_of_lt enough
  rfl

theorem fill_eq (large : 2 ≤ div) (digits : ∀ d < div, char d = digit d) (notZero : x ≠ 0)
    (room : (lowDigits div x).length ≤ i + 1) (inside : i < bufSize)
    (enough : (lowDigits div x).length < fuel) :
    ∃ unsafeBuf', fill div char fuel x i unsafeBuf =
        .ok (down i (lowDigits div x).length, unsafeBuf') ∧
      (∀ p > i, unsafeBuf' p = unsafeBuf p) ∧
      ∀ j (within : j < (lowDigits div x).length), unsafeBuf' (i - j) = (lowDigits div x)[j] := by
  induction fuel generalizing x i unsafeBuf with
  | zero => exact absurd enough (Nat.not_lt_zero _)
  | succ fuel inductionHypothesis =>
    have first : char (x % div) = digit (x % div) := digits _ (Nat.mod_lt x (by omega))
    have quotient : (x - x % div) / div = x / div := Nat.div_eq_sub_mod_div.symm
    have next : fill div char (fuel + 1) x i unsafeBuf = fill div char fuel (x / div) (down i 1)
        (Function.update unsafeBuf i (digit (x % div))) := by
      rw [fill, if_pos (Nat.pos_of_ne_zero notZero), quotient, first, Checked.check, if_pos inside]
      rfl
    have more := lowDigits_next large notZero
    simp only [next, more, List.length_cons] at room enough ⊢
    by_cases last : x / div = 0
    · simp only [last, lowDigits_zero, List.length_nil]
      refine ⟨_, fill_zero (by omega), ?_, ?_⟩
      · intro p above
        rw [Function.update_of_ne (by omega)]
      · intro j within
        obtain rfl : j = 0 := by simpa using within
        exact Function.update_self _ _ _
    · have some : 0 < (lowDigits div (x / div)).length := by
        rw [lowDigits_next large last]
        exact Nat.succ_pos _
      have below : down i 1 = i - 1 := by
        rw [down]
        rw [bufSize] at inside
        omega
      obtain ⟨unsafeBuf', done, above, written⟩ := @inductionHypothesis (x / div) (i - 1)
        (Function.update unsafeBuf i (digit (x % div))) last (by omega) (by omega) (by omega)
      refine ⟨unsafeBuf', ?_, ?_, ?_⟩
      · have place : down (i - 1) (lowDigits div (x / div)).length =
            down i ((lowDigits div (x / div)).length + 1) := by
          rw [bufSize] at inside
          have sum : i - 1 + (2 ^ 32 - (lowDigits div (x / div)).length) =
              i + (2 ^ 32 - ((lowDigits div (x / div)).length + 1)) := by omega
          rw [down, down, sum]
        rw [below, done, place]
      · intro p higher
        rw [above p (by omega), Function.update_of_ne (by omega)]
      · intro j within
        cases j with
        | zero => exact (above i (by omega)).trans (Function.update_self _ _ _)
        | succ j =>
          have place : i - (j + 1) = i - 1 - j := by omega
          rw [place]
          exact written j (Nat.lt_of_succ_lt_succ within)

theorem logToSerial_eq {p : Nat} (holds : HoldsString unsafeBuf p text)
    (inside : p + text.length < bufSize) (enough : text.length < fuel) :
    logToSerial unsafeBuf fuel p = .ok text := by
  induction text generalizing p fuel with
  | nil =>
    obtain ⟨k, rfl⟩ := Nat.exists_eq_add_of_lt enough
    have ended : unsafeBuf p = 0 := holds.terminated
    rw [logToSerial]
    refine Checked.check_bind_eq.mpr ⟨inside, ?_⟩
    rw [if_neg (not_not.mpr ended)]
    rfl
  | cons c rest inductionHypothesis =>
    rw [List.length_cons] at inside enough
    obtain ⟨k, rfl⟩ := Nat.exists_eq_add_of_lt enough
    have here : unsafeBuf p = c := holds.bytes 0 (Nat.succ_pos _)
    have notZero : c ≠ 0 := fun zero => holds.isString (zero ▸ List.mem_cons_self)
    rw [logToSerial]
    refine Checked.check_bind_eq.mpr ⟨Nat.lt_of_le_of_lt (Nat.le_add_right _ _) inside, ?_⟩
    rw [here, if_pos notZero]
    refine Checked.bind_eq.mpr ⟨rest, ?_, rfl⟩
    exact inductionHypothesis holds.tail (by omega) (by omega)

end Loops

section Numbers

variable {div num fuel : Nat} {char : Nat → UInt8}

theorem send_short (large : 2 ≤ div) (small : div ≤ 36) (digits : ∀ d < div, char d = digit d)
    (notZero : num ≠ 0) (short : (lowDigits div num).length ≤ 19) (enough : 20 < fuel) :
    ∃ i unsafeBuf, fill div char fuel num 19 (fun _ => 0) = .ok (i, unsafeBuf) ∧
      logToSerial unsafeBuf fuel (i + 1) = .ok (numeral div num) := by
  obtain ⟨unsafeBuf, done, above, written⟩ := @fill_eq div fuel num 19 char (fun _ => 0) large
    digits notZero (by omega) (by decide) (by omega)
  have start : down 19 (lowDigits div num).length + 1 = 20 - (lowDigits div num).length := by
    rw [down]
    omega
  refine ⟨_, unsafeBuf, done, ?_⟩
  have holds : HoldsString unsafeBuf (20 - (lowDigits div num).length) (numeral div num) := by
    rw [numeral, if_neg notZero]
    refine ⟨?_, ?_, ?_⟩
    · intro member
      exact lowDigits_ne_zero large small (List.mem_reverse.mp member) rfl
    · intro j inside
      rw [List.length_reverse] at inside
      have place : 20 - (lowDigits div num).length + j =
          19 - ((lowDigits div num).length - 1 - j) := by omega
      rw [place, written _ (by omega), List.getElem_reverse]
    · have place : 20 - (lowDigits div num).length + (lowDigits div num).length = 20 := by omega
      rw [List.length_reverse, place]
      exact above 20 (by decide)
  have length : (numeral div num).length = (lowDigits div num).length := by
    rw [numeral, if_neg notZero, List.length_reverse]
  rw [start]
  apply logToSerial_eq holds
  · rw [length, bufSize]
    omega
  · omega

theorem send_long (large : 2 ≤ div) (digits : ∀ d < div, char d = digit d)
    (long : (lowDigits div num).length = 20) (enough : 20 < fuel) :
    ∃ i unsafeBuf, fill div char fuel num 19 (fun _ => 0) = .ok (i, unsafeBuf) ∧
      logToSerial unsafeBuf fuel (i + 1) = .error (.violation (2 ^ 32)) := by
  have notZero : num ≠ 0 := by
    rintro rfl
    rw [lowDigits_zero] at long
    cases long
  obtain ⟨unsafeBuf, done, -, -⟩ := @fill_eq div fuel num 19 char (fun _ => 0) large digits
    notZero (by omega) (by decide) (by omega)
  refine ⟨_, unsafeBuf, done, ?_⟩
  obtain ⟨k, rfl⟩ := Nat.exists_eq_add_of_lt enough
  rw [long]
  rfl

end Numbers

theorem decimal_digits : ∀ d < 10, UInt8.ofNat (48 + d) = digit d := by decide

theorem hexadecimal_digits : ∀ d < 16, (if d < 10 then UInt8.ofNat (48 + d) else
    UInt8.ofNat (97 + (d - 10))) = digit d := by decide

section Functions

variable {num : BitVec 64} {fuel : Nat}

theorem toNat_ne_zero (notZero : num ≠ 0) : num.toNat ≠ 0 :=
  fun zero => notZero (BitVec.eq_of_toNat_eq zero)

theorem logIntToSerial_short (short : num.toNat < 10 ^ 19) (enough : 20 < fuel) :
    logIntToSerial fuel num = .ok (numeral 10 num.toNat) := by
  by_cases zero : num = 0
  · subst zero
    rfl
  · have length := (length_lowDigits_le (by decide) 19).mpr short
    obtain ⟨i, unsafeBuf, filled, sent⟩ := send_short (by decide) (by decide) decimal_digits
      (toNat_ne_zero zero) length enough
    rw [logIntToSerial, if_neg zero]
    exact Checked.bind_eq.mpr ⟨_, filled, sent⟩

theorem logIntToSerial_long (long : 10 ^ 19 ≤ num.toNat) (enough : 20 < fuel) :
    logIntToSerial fuel num = .error (.violation (2 ^ 32)) := by
  have notZero : num ≠ 0 := by
    rintro rfl
    exact absurd long (by decide)
  have atMost : (lowDigits 10 num.toNat).length ≤ 20 := by
    apply (length_lowDigits_le (by decide) 20).mpr
    have bound := num.isLt
    omega
  have more : ¬(lowDigits 10 num.toNat).length ≤ 19 := by
    rw [length_lowDigits_le (by decide)]
    exact Nat.not_lt.mpr long
  have length : (lowDigits 10 num.toNat).length = 20 := by omega
  obtain ⟨i, unsafeBuf, filled, lost⟩ := send_long (by decide) decimal_digits length enough
  rw [logIntToSerial, if_neg notZero, filled]
  exact lost

theorem logHexToSerial_eq (enough : 20 < fuel) :
    logHexToSerial fuel num = .ok (48 :: 120 :: numeral 16 num.toNat) := by
  by_cases zero : num = 0
  · subst zero
    rfl
  · have length : (lowDigits 16 num.toNat).length ≤ 19 := by
      apply (length_lowDigits_le (by decide) 19).mpr
      have bound := num.isLt
      omega
    obtain ⟨i, unsafeBuf, filled, sent⟩ := send_short (by decide) (by decide) hexadecimal_digits
      (toNat_ne_zero zero) length enough
    rw [logHexToSerial, if_neg zero]
    refine Checked.bind_eq.mpr ⟨_, filled, ?_⟩
    exact Checked.bind_eq.mpr ⟨_, sent, rfl⟩

end Functions

theorem logIntRight_iff (num : BitVec 64) : LogIntRight num ↔ num.toNat < 10 ^ 19 := by
  constructor
  · rintro ⟨text, least, sent, -⟩
    by_contra long
    have lost : logIntToSerial (least + 21) num = _ :=
      logIntToSerial_long (Nat.le_of_not_lt long) (by omega)
    rw [sent (least + 21) (by omega)] at lost
    cases lost
  · intro short
    refine ⟨_, 21, ?_, numeral_represents (by decide) (by decide) num.toNat⟩
    intro fuel enough
    exact logIntToSerial_short short (by omega)

theorem logHexRight (num : BitVec 64) : LogHexRight num := by
  refine ⟨_, 21, ?_, numeral_represents (by decide) (by decide) num.toNat⟩
  intro fuel enough
  exact logHexToSerial_eq (by omega)

/-- Hexadecimal numbers are right, and decimal ones below `10^19`. -/
theorem logNumbers_right (num : BitVec 64) :
    (LogIntRight num ↔ num.toNat < 10 ^ 19) ∧ LogHexRight num :=
  ⟨logIntRight_iff num, logHexRight num⟩

theorem logInt_largest :
    logIntToSerial 21 (BitVec.allOnes 64) = .error (.violation (2 ^ 32)) ∧
      ¬LogIntRight (BitVec.allOnes 64) := by
  refine ⟨logIntToSerial_long (by decide) (by decide), ?_⟩
  rw [logIntRight_iff]
  decide

end SwagOS.Kernel.Serial
