import Mathlib.Data.List.GetD
import SwagOS.Lib.Commands
import SwagOS.User.Shell

/-!
# The line that is typed

`read_line` as an editor of a line: a backspace takes the last character away.  All that is
typed is echoed, up to the newline.
-/

namespace SwagOS.User

open SwagOS.Lib SwagOS.Libc

/-- A character at the end of a text; a backspace takes the last one away. -/
def edit (text : List UInt8) (c : UInt8) : List UInt8 :=
  if c = 8 then text.dropLast else text ++ [c]

/-- The line goes on with the character: it has room, and a backspace has something to take. -/
def Edits (text : List UInt8) (c : UInt8) : Prop :=
  text.length < maxLineSize - 1 ∧ c ≠ 10 ∧ (c = 8 → text ≠ [])

instance (text : List UInt8) (c : UInt8) : Decidable (Edits text c) :=
  inferInstanceAs (Decidable (_ ∧ _ ∧ _))

def HoldsLine (lineBuf : Bytes) (text : List UInt8) : Prop :=
  ∀ p < maxLineSize, lineBuf p = text.getD p 0

section Editing

variable {lineBuf : Bytes} {text chars rest printed : List UInt8} {c : UInt8}

theorem HoldsLine.edit (holds : HoldsLine lineBuf text) (edits : Edits text c) :
    HoldsLine (if c = 8 then Function.update lineBuf (text.length - 1) 0
      else Function.update lineBuf text.length c) (edit text c) := by
  obtain ⟨room, -, notEmpty⟩ := edits
  intro p inside
  rw [User.edit]
  split
  next backspace =>
    have some : text.length ≠ 0 := fun none => notEmpty backspace (List.length_eq_zero_iff.mp none)
    rw [Function.update_apply, holds p inside, List.dropLast_eq_take, List.getD_eq_getElem?_getD,
      List.getD_eq_getElem?_getD, List.getElem?_take]
    split
    next last => rw [if_neg (by omega)]; rfl
    next other =>
      split
      next => rfl
      next behind => rw [List.getElem?_eq_none (by omega)]
  next =>
    rw [Function.update_apply, holds p inside, List.getD_eq_getElem?_getD,
      List.getD_eq_getElem?_getD]
    split
    next last => rw [last, List.getElem?_concat_length]; rfl
    next other =>
      by_cases before : p < text.length
      · rw [List.getElem?_append_left before]
      · have below : (text ++ [c]).length ≤ p := by
          rw [List.length_append, List.length_singleton]
          omega
        rw [List.getElem?_eq_none below, List.getElem?_eq_none (by omega)]

/-- `read_line` edits what is typed, up to the newline, and echoes all of it. -/
theorem readFrom_edits (holds : HoldsLine lineBuf text)
    (typed : AllowedRun edit Edits text chars)
    (room : (chars.foldl edit text).length < maxLineSize - 1) :
    ∃ lineBuf', readFrom lineBuf text.length printed (chars ++ 10 :: rest) =
        .ok ⟨(chars.foldl edit text).length, lineBuf', printed ++ chars ++ [10]⟩ ∧
      HoldsLine lineBuf' (chars.foldl edit text) := by
  induction chars generalizing lineBuf text printed with
  | nil =>
    refine ⟨lineBuf, ?_, holds⟩
    have room : (text.length : Int) < maxLineSize - 1 := by
      have room : text.length < maxLineSize - 1 := room
      rw [maxLineSize] at *
      omega
    rw [List.nil_append, readFrom, if_pos room, if_pos rfl, List.append_nil]
    rfl
  | cons c more inductionHypothesis =>
    obtain ⟨edits, later⟩ := typed
    obtain ⟨lineBuf', reads, holds'⟩ := @inductionHypothesis _ _ (printed ++ [c]) (holds.edit edits)
      later room
    refine ⟨lineBuf', ?_, holds'⟩
    obtain ⟨here, goesOn, notEmpty⟩ := edits
    have here' : (text.length : Int) < maxLineSize - 1 := by
      rw [maxLineSize] at *
      omega
    rw [List.cons_append, readFrom, if_pos here', if_neg goesOn]
    by_cases backspace : c = 8
    · have some : 0 < text.length := List.length_pos_iff.mpr (notEmpty backspace)
      have index : (text.length : Int) - 1 = (edit text c).length := by
        rw [edit, if_pos backspace, List.length_dropLast]
        omega
      have stored : (0 : Int) ≤ (edit text c).length ∧ ((edit text c).length : Int) < maxLineSize := by
        rw [← index, maxLineSize]
        rw [maxLineSize] at here
        omega
      have place : text.length - 1 = (edit text c).length := by omega
      rw [if_pos backspace] at reads ⊢
      rw [place] at reads
      dsimp only
      rw [index, Checked.check_bind_eq]
      refine ⟨stored, ?_⟩
      rw [Int.toNat_natCast, reads, List.append_assoc printed, List.singleton_append]
      rfl
    · have index : (text.length : Int) + 1 = (edit text c).length := by
        rw [edit, if_neg backspace, List.length_append]
        rfl
      have stored : (0 : Int) ≤ text.length ∧ (text.length : Int) < maxLineSize := by
        rw [maxLineSize]
        rw [maxLineSize] at here
        omega
      rw [if_neg backspace] at reads ⊢
      rw [index, Checked.check_bind_eq]
      refine ⟨stored, ?_⟩
      rw [Int.toNat_natCast, reads, List.append_assoc printed, List.singleton_append]
      rfl

/-- The characters of the text that is left were typed. -/
theorem mem_edited (member : c ∈ chars.foldl edit text) : c ∈ text ∨ c ∈ chars := by
  induction chars generalizing text with
  | nil => exact .inl member
  | cons d more inductionHypothesis =>
    rcases inductionHypothesis member with here | later
    · rw [edit] at here
      split at here
      next => exact .inl (List.mem_of_mem_dropLast here)
      next =>
        rcases List.mem_append.mp here with before | last
        · exact .inl before
        · exact .inr (List.mem_cons.mpr (.inl (List.mem_singleton.mp last)))
    · exact .inr (List.mem_cons_of_mem d later)

theorem HoldsLine.string (holds : HoldsLine lineBuf text)
    (isString : IsString text) (room : text.length < maxLineSize) : HoldsString lineBuf 0 text where
  isString := isString
  bytes := by
    intro j inside
    rw [Nat.zero_add, holds j (inside.trans room), List.getD_eq_getElem _ _ inside]
  terminated := by
    rw [Nat.zero_add, holds _ room, List.getD_eq_default _ _ le_rfl]

end Editing

end SwagOS.User
