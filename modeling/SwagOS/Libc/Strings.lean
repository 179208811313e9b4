import Mathlib.Algebra.Group.Nat.Defs
import Mathlib.Data.List.TakeWhile
import SwagOS.Lib.Bytes

/-!
# Strings

The string functions of `libc/`.  A C string is the list of its bytes without the
terminator.
-/

namespace SwagOS.Libc

open SwagOS.Lib

def cstring (buffer : List UInt8) (p : Nat) : List UInt8 := (buffer.drop p).takeWhile (· != 0)

def strlen (buffer : List UInt8) (p : Nat) : Nat := (cstring buffer p).length

/-- The difference of the first bytes that differ, as a `size_t`. -/
def strcmp : List UInt8 → List UInt8 → Nat
  | [], [] => 0
  | [], b :: _ => (2 ^ 64 - b.toNat) % 2 ^ 64
  | a :: _, [] => a.toNat
  | a :: str1, b :: str2 =>
      if a = b then strcmp str1 str2 else (2 ^ 64 + a.toNat - b.toNat) % 2 ^ 64

def strsplit (str : List UInt8) (splitOn : UInt8) : List UInt8 × Nat :=
  (str.map fun c => if c = splitOn then 0 else c, str.count splitOn + 1)

def IsString (str : List UInt8) : Prop := 0 ∉ str

instance (str : List UInt8) : Decidable (IsString str) := inferInstanceAs (Decidable (0 ∉ str))

def laid (strs : List (List UInt8)) : List UInt8 := strs.flatMap (· ++ [0])

/-- A string lies in memory with its terminator. -/
structure HoldsString (m : Bytes) (p : Nat) (str : List UInt8) : Prop where
  isString : IsString str
  bytes : ∀ j (inside : j < str.length), m (p + j) = str[j]
  terminated : m (p + str.length) = 0

def Strings (buffer : List UInt8) : Nat → List (List UInt8) → Prop
  | _, [] => True
  | p, str :: rest => cstring buffer p = str ∧ Strings buffer (p + strlen buffer p + 1) rest

theorem strcmp_eq_zero {str1 str2 : List UInt8} (first : IsString str1) (second : IsString str2) :
    strcmp str1 str2 = 0 ↔ str1 = str2 := by
  have positive : ∀ {a : UInt8}, a ≠ 0 → 0 < a.toNat := by
    intro a notZero
    apply Nat.pos_of_ne_zero
    intro zero
    exact notZero (UInt8.toNat_inj.mp zero)
  induction str1 generalizing str2 with
  | nil =>
    cases str2 with
    | nil => simp [strcmp]
    | cons b rest =>
      have notZero : b ≠ 0 := fun zero => second (zero ▸ List.mem_cons_self)
      have above := positive notZero
      have below := b.toNat_lt
      simp only [strcmp, List.nil_eq, reduceCtorEq, iff_false]
      omega
  | cons a rest inductionHypothesis =>
    have notZero : a ≠ 0 := fun zero => first (zero ▸ List.mem_cons_self)
    cases str2 with
    | nil =>
      have above := positive notZero
      simp only [strcmp, reduceCtorEq, iff_false]
      omega
    | cons b more =>
      rw [strcmp]
      by_cases same : a = b
      · subst same
        have tails : strcmp rest more = 0 ↔ rest = more := by
          apply inductionHypothesis
          · exact fun zero => first (List.mem_cons_of_mem a zero)
          · exact fun zero => second (List.mem_cons_of_mem a zero)
        simpa using tails
      · rw [if_neg same]
        have belowA := a.toNat_lt
        have belowB := b.toNat_lt
        have different : a.toNat ≠ b.toNat := fun equal => same (UInt8.toNat_inj.mp equal)
        simp only [List.cons.injEq, same, false_and, iff_false]
        omega

theorem takeWhile_isString (l : List UInt8) : IsString (l.takeWhile (· != 0)) := by
  intro zero
  have all := List.all_eq_true.mp (List.all_takeWhile (p := (· != 0)) (l := l)) 0 zero
  simp at all

theorem IsString.ne_zero {str : List UInt8} (isString : IsString str) :
    ∀ c ∈ str, (c != 0) = true := by
  intro c member
  have notZero : c ≠ 0 := fun zero => isString (zero ▸ member)
  simpa using notZero

theorem IsString.takeWhile {str : List UInt8} (isString : IsString str) :
    str.takeWhile (· != 0) = str :=
  List.takeWhile_eq_self_iff.mpr isString.ne_zero

theorem takeWhile_append {str rest : List UInt8} (isString : IsString str) :
    (str ++ 0 :: rest).takeWhile (· != 0) = str := by
  rw [List.takeWhile_append_of_pos isString.ne_zero]
  simp

theorem cstring_append (before : List UInt8) {str : List UInt8} (rest : List UInt8)
    (isString : IsString str) : cstring (before ++ (str ++ 0 :: rest)) before.length = str := by
  rw [cstring, List.drop_left, takeWhile_append isString]

/-- A string ends in a zero byte, or with the buffer. -/
theorem getD_takeWhile (l : List UInt8) : l.getD (l.takeWhile (· != 0)).length 0 = 0 := by
  induction l with
  | nil => rfl
  | cons c rest inductionHypothesis =>
    by_cases zero : c = 0
    · subst zero
      rfl
    · rw [List.takeWhile_cons_of_pos (by simpa using zero)]
      exact inductionHypothesis

theorem cstring_getD {buffer str : List UInt8} {p : Nat} (here : cstring buffer p = str) :
    (∀ j (inside : j < str.length), buffer.getD (p + j) 0 = str[j]) ∧
      buffer.getD (p + str.length) 0 = 0 := by
  subst here
  have shift : ∀ j, buffer.getD (p + j) 0 = (buffer.drop p).getD j 0 := by
    intro j
    rw [List.getD_eq_getElem?_getD, List.getD_eq_getElem?_getD, List.getElem?_drop]
  constructor
  · intro j inside
    have start : cstring buffer p <+: buffer.drop p := List.takeWhile_prefix _
    have below := Nat.lt_of_lt_of_le inside start.length_le
    rw [shift, List.getD_eq_getElem?_getD, List.getElem?_eq_getElem below, Option.getD_some]
    exact (start.getElem inside).symm
  · rw [shift]
    exact getD_takeWhile _

section Splitting

variable {str : List UInt8} {splitOn : UInt8}

theorem mem_of_mem_splitOn {piece : List UInt8} (member : piece ∈ str.splitOn splitOn) {c : UInt8}
    (inside : c ∈ piece) : c ∈ str ∧ c ≠ splitOn := by
  induction str generalizing piece with
  | nil =>
    rw [List.splitOn_nil, List.mem_singleton] at member
    rw [member] at inside
    cases inside
  | cons d rest inductionHypothesis =>
    have later : ∀ piece ∈ rest.splitOn splitOn, c ∈ piece → c ∈ d :: rest ∧ c ≠ splitOn := by
      intro piece member inside
      obtain ⟨here, other⟩ := inductionHypothesis member inside
      exact ⟨List.mem_cons_of_mem d here, other⟩
    rw [List.splitOn_cons_eq_if_modifyHead] at member
    split at member
    next =>
      rcases List.mem_cons.mp member with rfl | behind
      · cases inside
      · exact later piece behind inside
    next other =>
      obtain ⟨first, more, pieces⟩ :=
        List.exists_cons_of_ne_nil (List.splitOn_ne_nil splitOn rest)
      rw [pieces, List.modifyHead_cons] at member
      rw [pieces] at later
      rcases List.mem_cons.mp member with rfl | behind
      · rcases List.mem_cons.mp inside with rfl | inside
        · exact ⟨List.mem_cons_self, by simpa using other⟩
        · exact later first List.mem_cons_self inside
      · exact later piece (List.mem_cons_of_mem first behind) inside

/-- What `strsplit` leaves are the pieces, one behind the other. -/
theorem strsplit_eq (str : List UInt8) (splitOn : UInt8) :
    (strsplit str splitOn).1 ++ [0] = laid (str.splitOn splitOn) ∧
      (strsplit str splitOn).2 = (str.splitOn splitOn).length := by
  induction str with
  | nil => exact ⟨rfl, rfl⟩
  | cons c rest inductionHypothesis =>
    obtain ⟨split, count⟩ := inductionHypothesis
    rw [strsplit] at split count
    dsimp only at split count
    rw [strsplit, List.map_cons, List.cons_append, split, List.splitOn_cons_eq_if_modifyHead]
    by_cases separates : c = splitOn
    · subst separates
      rw [if_pos rfl, if_pos (beq_self_eq_true c), List.count_cons_self, count, List.length_cons]
      exact ⟨rfl, rfl⟩
    · obtain ⟨first, more, pieces⟩ :=
        List.exists_cons_of_ne_nil (List.splitOn_ne_nil splitOn rest)
      have other : ¬(c == splitOn) = true := by simpa using separates
      rw [if_neg separates, if_neg other, List.count_cons_of_ne separates, count, pieces,
        List.modifyHead_cons]
      exact ⟨rfl, rfl⟩

theorem strings_laid (before : List UInt8) {strs : List (List UInt8)}
    (isString : ∀ str ∈ strs, IsString str) (rest : List UInt8) :
    Strings (before ++ (laid strs ++ rest)) before.length strs := by
  induction strs generalizing before with
  | nil => trivial
  | cons str more inductionHypothesis =>
    have first : before ++ (laid (str :: more) ++ rest) =
        before ++ (str ++ 0 :: (laid more ++ rest)) := by
      simp [laid]
    have second : before ++ (laid (str :: more) ++ rest) =
        (before ++ (str ++ [0])) ++ (laid more ++ rest) := by
      simp [laid]
    have here : cstring (before ++ (laid (str :: more) ++ rest)) before.length = str := by
      rw [first]
      exact cstring_append before _ (isString str List.mem_cons_self)
    have later := inductionHypothesis (before ++ (str ++ [0])) fun str member =>
      isString str (List.mem_cons_of_mem _ member)
    refine ⟨here, ?_⟩
    rw [strlen, here, second]
    rw [List.length_append, List.length_append, List.length_singleton, ← Nat.add_assoc] at later
    exact later

end Splitting

theorem HoldsString.tail {m : Bytes} {p : Nat} {c : UInt8} {rest : List UInt8}
    (holds : HoldsString m p (c :: rest)) : HoldsString m (p + 1) rest where
  isString member := holds.isString (List.mem_cons_of_mem c member)
  bytes := by
    intro j inside
    rw [Nat.add_assoc, Nat.add_comm 1]
    exact holds.bytes (j + 1) (Nat.succ_lt_succ inside)
  terminated := by
    rw [Nat.add_assoc, Nat.add_comm 1]
    exact holds.terminated

theorem HoldsString.unique {m : Bytes} {p : Nat} {str str' : List UInt8}
    (holds : HoldsString m p str) (holds' : HoldsString m p str') : str' = str := by
  have notLonger : ∀ {str str' : List UInt8}, HoldsString m p str → HoldsString m p str' →
      str.length ≤ str'.length := by
    intro str str' holds holds'
    by_contra longer
    have inside : str'.length < str.length := Nat.lt_of_not_le longer
    have ended := (holds.bytes _ inside).symm.trans holds'.terminated
    exact holds.isString (ended ▸ List.getElem_mem inside)
  have length : str'.length = str.length :=
    Nat.le_antisymm (notLonger holds' holds) (notLonger holds holds')
  apply List.ext_getElem length
  intro j inside inside'
  exact (holds'.bytes j inside).symm.trans (holds.bytes j inside')

end SwagOS.Libc
