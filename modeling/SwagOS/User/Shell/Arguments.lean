import SwagOS.Kernel.Exec.Reach
import SwagOS.User.Shell

/-!
# The array of the arguments

`exec` of `user/lib/userlib.c` builds an array of 16 entries, which is cleared before it is filled.
The first entry is the path, which is copied without a look at its length.
-/

namespace SwagOS.User

open SwagOS.Lib SwagOS.Libc SwagOS.Kernel

/-- `arg_array` of `exec`, with what `exec` is given. -/
def execArgArray (filepath : List UInt8) (argc : Nat) (args : List UInt8) : Bytes :=
  let argArray : Bytes := fun _ => 0
  let argArray := argArray.memcpy 0 (fun j => filepath.getD j 0) filepath.length
  (List.range' 1 (argc - 1)).foldl (fun argArray i =>
    let p := maxPath * (i - 1)
    argArray.memcpy (maxPath * i) (fun j => args.getD (p + j) 0) (strlen args p)) argArray

def execBlock (filepath : List UInt8) (argc : Nat) (args : List UInt8) : List UInt8 :=
  (execArgArray filepath argc args).slice 0 (maxPath * maxArgCount)

section Array

variable {strs : List (List UInt8)} {args : List UInt8} {m : Bytes} {n : Nat}

def HoldsStrings (m : Bytes) (strs : List (List UInt8)) (n : Nat) : Prop :=
  ∀ i, ∀ j < maxPath, m (maxPath * i + j) = ((strs.take n).getD i []).getD j 0

theorem getD_take (strs : List (List UInt8)) (n i : Nat) :
    (strs.take n).getD i [] = if i < n then strs.getD i [] else [] := by
  rw [List.getD_eq_getElem?_getD, List.getElem?_take, List.getD_eq_getElem?_getD]
  split <;> rfl

theorem HoldsStrings.copy (holds : HoldsStrings m strs n)
    (short : ((strs.getD n [])).length ≤ maxPath) {source : Bytes}
    (same : ∀ j < (strs.getD n []).length, source j = (strs.getD n []).getD j 0) :
    HoldsStrings (m.memcpy (maxPath * n) source (strs.getD n []).length) strs (n + 1) := by
  intro i j inside
  have before := holds i j inside
  rw [getD_take] at before ⊢
  rcases Nat.lt_trichotomy i n with earlier | rfl | later
  · have apart : maxPath * (i + 1) ≤ maxPath * n := Nat.mul_le_mul_left _ earlier
    rw [Nat.mul_add_one] at apart
    rw [Bytes.memcpy_outside (by omega), before, if_pos earlier, if_pos (by omega)]
  · rw [if_pos (Nat.lt_succ_self i)]
    by_cases copied : j < (strs.getD i []).length
    · rw [Bytes.memcpy_inside (by omega) (by omega), Nat.add_sub_cancel_left, same j copied]
    · rw [Bytes.memcpy_outside (by omega), before, if_neg (Nat.lt_irrefl i)]
      rw [List.getD_eq_default _ _ (Nat.le_of_not_lt copied)]
      rfl
  · have apart : maxPath * (n + 1) ≤ maxPath * i := Nat.mul_le_mul_left _ later
    rw [Nat.mul_add_one] at apart
    rw [Bytes.memcpy_outside (by omega), before, if_neg (by omega), if_neg (by omega)]

theorem execArgArray_holds (some : strs ≠ []) (short : ∀ str ∈ strs, str.length ≤ maxPath)
    (copied : ∀ i, 1 ≤ i → i < strs.length → cstring args (maxPath * (i - 1)) = strs.getD i []) :
    HoldsStrings (execArgArray (strs.headD []) strs.length args) strs strs.length := by
  obtain ⟨first, rest, rfl⟩ := List.exists_cons_of_ne_nil some
  have fits : ∀ n, ((first :: rest).getD n []).length ≤ maxPath := by
    intro n
    by_cases inside : n < (first :: rest).length
    · rw [List.getD_eq_getElem _ _ inside]
      exact short _ (List.getElem_mem inside)
    · rw [List.getD_eq_default _ _ (Nat.le_of_not_lt inside)]
      exact Nat.zero_le _
  have start : HoldsStrings (fun _ => 0) (first :: rest) 0 := fun i j _ => rfl
  have run : ∀ n ≤ rest.length, HoldsStrings ((List.range' 1 n).foldl (fun argArray i =>
      argArray.memcpy (maxPath * i) (fun j => args.getD (maxPath * (i - 1) + j) 0)
        (strlen args (maxPath * (i - 1))))
      (Bytes.memcpy (fun _ => 0) 0 (fun j => first.getD j 0) first.length)) (first :: rest)
        (n + 1) := by
    intro n
    induction n with
    | zero => exact fun _ => start.copy (fits 0) fun j _ => rfl
    | succ n inductionHypothesis =>
      intro inside
      have here := copied (n + 1) (Nat.succ_pos n) (Nat.succ_lt_succ inside)
      rw [List.range'_1_concat, List.foldl_append, List.foldl_cons, List.foldl_nil,
        Nat.add_comm 1 n, strlen, here]
      refine (inductionHypothesis (Nat.le_of_succ_le inside)).copy (fits (n + 1)) fun j below => ?_
      rw [(cstring_getD here).1 j below, List.getD_eq_getElem _ _ below]
  exact run rest.length le_rfl

end Array

section Strings

variable {m : Bytes} {p count : Nat} {str : List UInt8}

theorem slice_holds (holds : HoldsString m p str) (inside : p + str.length < count) :
    ∃ rest, (m.slice 0 count).drop p = str ++ 0 :: rest := by
  refine ⟨m.slice (p + str.length + 1) (count - (p + str.length + 1)), ?_⟩
  apply List.ext_getElem
  · rw [List.length_drop, Bytes.length_slice, List.length_append, List.length_cons,
      Bytes.length_slice]
    omega
  intro i inside₁ inside₂
  have byte : ((m.slice 0 count).drop p)[i] = m (p + i) := by
    simp [Bytes.slice]
  rw [byte, List.getElem_append]
  split
  next before => exact holds.bytes i before
  next behind =>
    rw [List.getElem_cons]
    split
    next last =>
      have here : i = str.length := by omega
      rw [here]
      exact holds.terminated
    next later =>
      have place : p + i = p + str.length + 1 + (i - str.length - 1) := by omega
      simp [Bytes.slice, ← place]

theorem cstring_slice (holds : HoldsString m p str) (inside : p + str.length < count) :
    cstring (m.slice 0 count) p = str := by
  obtain ⟨rest, bytes⟩ := slice_holds holds inside
  rw [cstring, bytes, takeWhile_append holds.isString]

end Strings

section Block

variable {strs : List (List UInt8)} {args : List UInt8}

def EmptyLast (strs : List (List UInt8)) : Prop :=
  ∀ i < strs.length, ∀ j < i, strs.getD i [] ≠ [] → strs.getD j [] ≠ []

instance (strs : List (List UInt8)) : Decidable (EmptyLast strs) :=
  inferInstanceAs (Decidable (∀ i < _, _))

theorem argument_execBlock (some : strs ≠ []) (isString : ∀ str ∈ strs, IsString str)
    (fits : ∀ str ∈ strs, Fits str)
    (copied : ∀ i, 1 ≤ i → i < strs.length → cstring args (maxPath * (i - 1)) = strs.getD i [])
    {i : Nat} (inside : i < maxArgCount) :
    argument (execBlock (strs.headD []) strs.length args) i = strs.getD i [] := by
  have short : ∀ str ∈ strs, str.length ≤ maxPath :=
    fun str member => (fits str member).trans (Nat.sub_le _ _)
  have holds := execArgArray_holds some short copied i
  rw [List.take_length] at holds
  have string : IsString (strs.getD i []) ∧ (strs.getD i []).length < maxPath := by
    by_cases known : i < strs.length
    · rw [List.getD_eq_getElem _ _ known]
      have member := List.getElem_mem known
      exact ⟨isString _ member, Nat.lt_of_le_of_lt (fits _ member) (by decide)⟩
    · rw [List.getD_eq_default _ _ (Nat.le_of_not_lt known)]
      exact ⟨List.not_mem_nil, by decide⟩
  have next : maxPath * (i + 1) ≤ maxPath * maxArgCount := Nat.mul_le_mul_left _ inside
  rw [Nat.mul_add_one] at next
  show cstring ((execArgArray (strs.headD []) strs.length args).slice 0 (maxPath * maxArgCount))
    (maxPath * i) = strs.getD i []
  apply cstring_slice
  · constructor
    case isString => exact string.1
    case bytes =>
      intro j below
      rw [holds j (below.trans string.2), List.getD_eq_getElem _ _ below]
    case terminated =>
      rw [holds _ string.2, List.getD_eq_default _ _ le_rfl]
  · have room := string.2
    omega

theorem range_getD (few : strs.length ≤ maxArgCount) :
    (List.range maxArgCount).map (fun i => strs.getD i []) =
      strs ++ List.replicate (maxArgCount - strs.length) [] := by
  apply List.ext_getElem
  · simp [few]
  intro i inside inside'
  rw [List.getElem_map, List.getElem_range, List.getElem_append]
  split
  next known => rw [List.getD_eq_getElem _ _ known]
  next behind => rw [List.getD_eq_default _ _ (Nat.le_of_not_lt behind), List.getElem_replicate]

/-- The arguments of the program are the strings that are not empty. -/
theorem arguments_execBlock (few : strs.length ≤ maxArgCount)
    (each : ∀ i < maxArgCount, argument args i = strs.getD i []) :
    arguments args = strs.filter fun str => !str.isEmpty := by
  have same : (List.range maxArgCount).map (argument args) =
      (List.range maxArgCount).map fun i => strs.getD i [] :=
    List.map_congr_left fun i member => each i (List.mem_range.mp member)
  rw [arguments, same, range_getD few, List.filter_append]
  simp

theorem nonEmptyFirst_execBlock (few : strs.length ≤ maxArgCount)
    (each : ∀ i < maxArgCount, argument args i = strs.getD i []) :
    NonEmptyFirst args ↔ EmptyLast strs := by
  constructor
  · intro first i inside j before
    have inside' := Nat.lt_of_lt_of_le inside few
    have order := first i inside' j before
    rwa [each i inside', each j (before.trans inside')] at order
  · intro last i inside j before
    rw [each i inside, each j (before.trans inside)]
    by_cases known : i < strs.length
    · exact last i known j before
    · rw [List.getD_eq_default _ _ (Nat.le_of_not_lt known)]
      exact fun never => absurd rfl never

end Block

end SwagOS.User
