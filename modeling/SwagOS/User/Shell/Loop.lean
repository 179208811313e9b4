import SwagOS.User.Shell.Arguments
import SwagOS.User.Shell.Editing

/-!
# The loop of the shell

What is typed at the prompt is edited by `read_line`, split by `split_line`, put in the array of
the arguments, and handed to the program by the kernel.  No line ends the loop: the one that
would is given with a newline, which no line holds.
-/

namespace SwagOS.User

open SwagOS.Lib SwagOS.Libc SwagOS.Kernel

def lineBytes (lineBuf : Bytes) : List UInt8 := lineBuf.slice 0 maxLineSize

/-- What a turn of `loop` comes to: another prompt, the end of the loop, or a child that calls exec
with a path and a block of arguments. -/
inductive ShellTurn where
  | again
  | exit
  | runs (path block : List UInt8)
  deriving DecidableEq, Repr

/-- The variables of `loop`, and what will be typed. -/
structure ShellState where
  lineBuf : Bytes
  args : Bytes
  input : List UInt8

def exitString : List UInt8 := [101, 120, 105, 116, 10]

/-- A turn of `loop`.  Each character that is read is printed.  A `continue` leaves the line and
the arguments as they are. -/
def loopTurn (s : ShellState) : Checked Int (ShellTurn × ShellState) := do
  let read ← readLine s.lineBuf s.input
  let s := { s with lineBuf := read.lineBuf, input := s.input.drop read.printed.length }
  if read.ret ≤ 0 then pure (.again, s)
  else
    let line := lineBytes s.lineBuf
    let cleared := ⟨s.lineBuf.memcpy 0 (fun _ => 0) maxLineSize,
      s.args.memcpy 0 (fun _ => 0) (maxPath * maxArgs), s.input⟩
    if strcmp (cstring line 0) exitString = 0 then pure (.exit, cleared)
    else do
      let split ← (splitLine s.args line).mapViolation Int.ofNat
      if split.ret = -1 then
        pure (.again, { s with lineBuf := (split.line.getD · 0), args := split.argsOut })
      else
        let path := cstring split.line split.fileOut
        let args := split.argsOut.slice 0 (maxPath * maxArgs)
        pure (.runs path (execBlock path split.ret.toNat args), cleared)

def loop : Nat → ShellState → Checked Int (List ShellTurn)
  | 0, _ => pure []
  | turns + 1, s => do
      let (turn, s) ← loopTurn s
      if turn = .exit then pure [turn]
      else do
        let later ← loop turns s
        pure (turn :: later)

section Loop

/-- A line as it can be typed: it is edited within the buffer, and `split_line` gets along with
it. -/
structure Typed (chars : List UInt8) : Prop where
  edits : AllowedRun edit Edits [] chars
  isString : IsString chars
  room : (chars.foldl edit []).length < maxLineSize - 1
  splits : SplitsRight (chars.foldl edit [])

instance (line : List UInt8) : Decidable (Refused line) :=
  inferInstanceAs (Decidable (_ ∨ ∃ arg ∈ _, _))

/-- What the loop is to do with a line: nothing if it is empty or refused, and otherwise exec with
its pieces, of which the first is the path. -/
def TurnOf (line : List UInt8) (turn : ShellTurn) : Prop :=
  if line = [] ∨ Refused line then turn = .again
  else ∃ block, turn = .runs (firstPiece line) block ∧ (Fits (firstPiece line) →
    ∀ i < maxArgCount, argument block i = (pieces line).getD i [])

theorem typed_noNewline {text chars : List UInt8} (typed : AllowedRun edit Edits text chars) :
    10 ∉ chars := by
  induction chars generalizing text with
  | nil => exact List.not_mem_nil
  | cons c rest inductionHypothesis =>
    obtain ⟨⟨-, goesOn, -⟩, later⟩ := typed
    exact List.not_mem_cons_of_ne_of_not_mem goesOn.symm (inductionHypothesis later)

theorem strcmp_exitString {line : List UInt8} (isString : IsString line) (noNewline : 10 ∉ line) :
    strcmp line exitString ≠ 0 := by
  intro equal
  rw [strcmp_eq_zero isString (by decide)] at equal
  rw [equal] at noNewline
  exact noNewline (by decide)

theorem pieces_fit {line : List UInt8} (accepted : ¬Refused line) (path : Fits (firstPiece line)) :
    ∀ piece ∈ pieces line, Fits piece := by
  intro piece member
  rw [pieces_eq] at member
  rcases List.mem_cons.mp member with rfl | later
  · exact path
  · by_contra long
    exact accepted (.inr ⟨piece, later, long⟩)

theorem splitRight_args {line : List UInt8} {argsOut : Bytes} (accepted : ¬Refused line)
    (holds : ∀ i (positive : 1 ≤ i) (inside : i < (pieces line).length),
      HoldsString argsOut (maxPath * (i - 1)) (pieces line)[i]) (i : Nat) (positive : 1 ≤ i)
    (inside : i < (pieces line).length) :
    cstring (argsOut.slice 0 (maxPath * maxArgs)) (maxPath * (i - 1)) = (pieces line).getD i [] := by
  have few : (pieces line).length ≤ maxArgs := Nat.le_of_not_lt fun many => accepted (.inl many)
  have fit : Fits (pieces line)[i] := by
    by_contra long
    refine accepted (.inr ⟨_, ?_, long⟩)
    rw [← List.drop_one]
    exact List.mem_drop_iff_getElem.mpr ⟨i - 1, by omega, by simp [Nat.add_sub_cancel' positive]⟩
  have place : maxPath * (i - 1 + 1) ≤ maxPath * maxArgs := Nat.mul_le_mul_left _ (by omega)
  rw [Nat.mul_add_one] at place
  have short : maxPath - 1 < maxPath := by decide
  rw [Fits] at fit
  rw [List.getD_eq_getElem _ _ inside]
  exact cstring_slice (holds i positive inside) (by omega)

theorem loopTurn_typed {chars rest : List UInt8} (typed : Typed chars) (lineBuf args : Bytes) :
    ∃ turn s, loopTurn ⟨lineBuf, args, chars ++ 10 :: rest⟩ = .ok (turn, s) ∧
      TurnOf (chars.foldl edit []) turn ∧ s.input = rest := by
  have blank : HoldsLine (lineBuf.memcpy 0 (fun _ => 0) maxLineSize) [] := by
    intro p inside
    rw [Bytes.memcpy_inside (Nat.zero_le p) (by omega)]
    rfl
  obtain ⟨lineBuf', reads, holds⟩ := @readFrom_edits _ _ _ rest [] blank typed.edits typed.room
  have reads : readLine lineBuf (chars ++ 10 :: rest) =
      .ok ⟨(chars.foldl edit []).length, lineBuf', chars ++ [10]⟩ := reads
  have ofTyped : ∀ {c : UInt8}, c ∈ chars.foldl edit [] → c ∈ chars :=
    fun member => (mem_edited member).resolve_left List.not_mem_nil
  have lineString : IsString (chars.foldl edit []) := fun zero => typed.isString (ofTyped zero)
  have noNewline : 10 ∉ chars.foldl edit [] :=
    fun newline => typed_noNewline typed.edits (ofTyped newline)
  have room := typed.room
  have splits := typed.splits
  have consumed : (chars ++ 10 :: rest).drop (chars ++ [10]).length = rest := by
    rw [List.append_cons chars 10 rest, List.drop_left]
  generalize chars.foldl edit [] = line at *
  have positive : line ≠ [] → ¬(line.length : Int) ≤ 0 := by
    intro some
    have length : 0 < line.length := List.length_pos_iff.mpr some
    omega
  obtain ⟨more, buffer⟩ := slice_holds (holds.string lineString (by omega))
    (show 0 + line.length < maxLineSize by omega)
  rw [List.drop_zero] at buffer
  have notExit : strcmp (cstring (lineBytes lineBuf') 0) exitString ≠ 0 := by
    rw [lineBytes, buffer, cstring, List.drop_zero, takeWhile_append lineString]
    exact strcmp_exitString lineString noNewline
  obtain ⟨split, done, refuses, runs⟩ := (splitRight_iff lineString).mpr splits args more
  have done : (splitLine args (lineBytes lineBuf')).mapViolation Int.ofNat = .ok split := by
    rw [lineBytes, buffer, done]
    rfl
  by_cases none : line = []
  · refine ⟨.again, ⟨lineBuf', args, rest⟩, Checked.bind_eq.mpr ⟨_, reads, ?_⟩, ?_, rfl⟩
    · have empty : (line.length : Int) ≤ 0 := by
        rw [none]
        exact le_rfl
      dsimp only
      rw [consumed, if_pos empty]
      rfl
    · rw [TurnOf, if_pos (.inl none)]
  · have goesOn := positive none
    by_cases refused : Refused line
    · refine ⟨.again, ⟨(split.line.getD · 0), split.argsOut, rest⟩,
        Checked.bind_eq.mpr ⟨_, reads, ?_⟩, ?_, rfl⟩
      · dsimp only
        rw [consumed, if_neg goesOn, if_neg notExit]
        refine Checked.bind_eq.mpr ⟨split, done, ?_⟩
        rw [if_pos (refuses refused)]
        rfl
      · rw [TurnOf, if_pos (.inr refused)]
    · obtain ⟨ret, path, holds⟩ := runs refused
      have notMinus : split.ret ≠ -1 := by
        rw [ret]
        omega
      have length : split.ret.toNat = (pieces line).length := by rw [ret, Int.toNat_natCast]
      refine ⟨.runs (firstPiece line) (execBlock (firstPiece line) (pieces line).length
          (split.argsOut.slice 0 (maxPath * maxArgs))),
        ⟨lineBuf'.memcpy 0 (fun _ => 0) maxLineSize,
          args.memcpy 0 (fun _ => 0) (maxPath * maxArgs), rest⟩,
        Checked.bind_eq.mpr ⟨_, reads, ?_⟩, ?_, rfl⟩
      · dsimp only
        rw [consumed, if_neg goesOn, if_neg notExit]
        refine Checked.bind_eq.mpr ⟨split, done, ?_⟩
        rw [if_neg notMinus, path, length]
        rfl
      · rw [TurnOf, if_neg (not_or.mpr ⟨none, refused⟩)]
        refine ⟨_, rfl, fun fits i inside => ?_⟩
        have strings : ∀ str ∈ pieces line, IsString str :=
          fun str member zero => lineString (mem_of_mem_splitOn member zero).1
        exact argument_execBlock (List.splitOn_ne_nil 32 line) strings (pieces_fit refused fits)
          (splitRight_args refused holds) inside

/-- Each line that is typed takes one turn of the loop, which does with it what it is to do; none of
them ends the shell. -/
theorem loop_typed (lines : List (List UInt8)) (typed : ∀ chars ∈ lines, Typed chars)
    (lineBuf args : Bytes) (rest : List UInt8) : ∃ turns,
      loop lines.length ⟨lineBuf, args, lines.flatMap (· ++ [10]) ++ rest⟩ = .ok turns ∧
        List.Forall₂ (fun chars turn => TurnOf (chars.foldl edit []) turn) lines turns := by
  induction lines generalizing lineBuf args with
  | nil => exact ⟨[], rfl, .nil⟩
  | cons chars more inductionHypothesis =>
    obtain ⟨here, later⟩ := List.forall_mem_cons.mp typed
    obtain ⟨turn, ⟨lineBuf', args', input⟩, done, does, left⟩ := @loopTurn_typed chars
      (more.flatMap (· ++ [10]) ++ rest) here lineBuf args
    obtain ⟨turns, runs, each⟩ := inductionHypothesis later lineBuf' args'
    dsimp only at left
    subst left
    have notExit : turn ≠ .exit := by
      rintro rfl
      rw [TurnOf] at does
      split at does
      next => cases does
      next =>
        obtain ⟨block, never, -⟩ := does
        cases never
    have input : (chars :: more).flatMap (· ++ [10]) ++ rest =
        chars ++ 10 :: (more.flatMap (· ++ [10]) ++ rest) := by
      simp
    refine ⟨turn :: turns, ?_, .cons does each⟩
    rw [List.length_cons, input]
    refine Checked.bind_eq.mpr ⟨_, done, ?_⟩
    dsimp only
    rw [if_neg notExit]
    exact Checked.bind_eq.mpr ⟨turns, runs, rfl⟩

/-- An empty line, and the line `/h a`, in which a wrong letter was taken back. -/
theorem loop_typed_two : ∃ block,
    loop 2 ⟨fun _ => 0, fun _ => 0, [10, 47, 120, 8, 104, 32, 97, 10]⟩ =
        .ok [.again, .runs [47, 104] block] ∧
      argument block 0 = [47, 104] ∧ argument block 1 = [97] := by
  have typed : ∀ chars ∈ [[], [47, 120, 8, 104, 32, 97]], Typed chars := by
    refine List.forall_mem_cons.mpr ⟨?_, List.forall_mem_singleton.mpr ?_⟩
    · exact ⟨trivial, by decide, by decide, (splitsRight_iff_of_whole (by decide)).mpr (by decide)⟩
    · exact ⟨⟨by decide, by decide, by decide, by decide, by decide, by decide, trivial⟩,
        by decide, by decide, (splitsRight_iff_of_whole (by decide)).mpr (by decide)⟩
  obtain ⟨turns, runs, each⟩ := loop_typed _ typed (fun _ => 0) (fun _ => 0) []
  obtain _ | ⟨empty, _ | ⟨letter, _ | _⟩⟩ := each
  rw [TurnOf, if_pos (by decide)] at empty
  rw [TurnOf, if_neg (by decide)] at letter
  obtain ⟨block, rfl, argument⟩ := letter
  rw [empty] at runs
  exact ⟨block, runs, argument (by decide) 0 (by decide), argument (by decide) 1 (by decide)⟩

end Loop

/-- A call that succeeds with some arguments succeeds with others, if the image leaves room for
them. -/
theorem exec_otherArguments {site : ExecSite} {s s' : ExecState} {t : Nat}
    {filepath args args' : List UInt8} {elf : Fs.ElfBuffer} (sound : ExecSound site s)
    (terminated : Terminated args') (read : site.files.readFile filepath = .ok (some elf))
    (done : site.execUserProcess t filepath args s = .ok (0, s'))
    (keeps : KeepsStack elf (arrayPlace args')) :
    ∃ s', site.execUserProcess t filepath args' s = .ok (0, s') := by
  obtain ⟨⟨p, owner⟩, isFile, image⟩ := execUserProcess_ok read done
  obtain ⟨renewed, iRip, load, a, final, renew, loaded, ripMapped, rspMapped, -⟩ :=
    execImage_ok image
  obtain ⟨start, pages, top, second, onTop, new, frames, segments⟩ :=
    execImage_loaded sound image renew loaded
  obtain ⟨stack, laid⟩ := onTop.stack new frames segments keeps
  obtain ⟨s₁, done₁, -⟩ := execImage_handed site.stack t s (sound.stack terminated) terminated renew
    loaded ripMapped rspMapped laid
  refine ⟨s₁, ?_⟩
  rw [ExecSite.execUserProcess_file owner isFile read]
  exact done₁

theorem arrayPlace_congr {args args' : List UInt8}
    (same : ∀ i < maxArgCount, argument args i = argument args' i) :
    arrayPlace args = arrayPlace args' := by
  have sizes : (List.range' 0 (maxArgCount - 0)).map (argSize args) =
      (List.range' 0 (maxArgCount - 0)).map (argSize args') := by
    refine List.map_congr_left fun i member => ?_
    have inside : i < maxArgCount := by
      have range := (List.mem_range'_1.mp member).2
      omega
    rw [argSize, argSize, same i inside]
  rw [arrayPlace, arrayPlace, argPlace, argPlace, argRoom, argRoom, sizes]

def letterBlock : List UInt8 :=
  [47, 104] ++ List.replicate (maxPath - 2) 0 ++ [98]

theorem letterBlock_keeps : ∃ elf, programSite.files.readFile [47, 104] = .ok (some elf) ∧
    KeepsStack elf (arrayPlace letterBlock) := by
  have read : (programSite.files.readFile [47, 104]).test (fun file =>
      file.any fun elf => decide (KeepsStack elf (arrayPlace letterBlock))) = true := by
    decide +kernel
  obtain ⟨file, found, keeps⟩ := Outcome.of_test read
  obtain ⟨elf, rfl, keeps⟩ := (Option.any_eq_true _ _).mp keeps
  exact ⟨elf, found, of_decide_eq_true keeps⟩

end SwagOS.User
