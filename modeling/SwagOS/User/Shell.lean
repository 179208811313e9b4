import SwagOS.Lib.Checked
import SwagOS.Libc.Strings

/-!
# The input of the shell

`read_line` and `split_line` of `user/prog/shell.c`, with a check of each store.  A backspace
moves the index down before it stores, also on an empty line.  The arguments are copied before
they are counted, and newlines separate pieces within the first piece only.  A line is shorter
than `MAX_LINE_SIZE`, so that its lengths are numbers here.
-/

namespace SwagOS.User

open SwagOS.Lib SwagOS.Libc

def maxArgs : Nat := 15

def maxLineSize : Nat := 0x1000

def maxPath : Nat := 260

/-- What `read_line` returns and leaves, and what it prints. -/
structure ReadLine where
  ret : Int
  lineBuf : Bytes
  printed : List UInt8

/-- The loop, over the characters that `getchar` delivers; behind the last one it waits. -/
def readFrom (lineBuf : Bytes) (index : Int) (printed : List UInt8) :
    List UInt8 → Checked Int ReadLine
  | [] => if index < maxLineSize - 1 then throw (.halt .hang) else pure ⟨0, lineBuf, printed⟩
  | c :: rest =>
      if index < maxLineSize - 1 then
        if c = 10 then pure ⟨index, lineBuf, printed ++ [c]⟩
        else if c = 8 then do
          let index := index - 1
          Checked.check (0 ≤ index ∧ index < maxLineSize) index
          readFrom (Function.update lineBuf index.toNat 0) index (printed ++ [c]) rest
        else do
          Checked.check (0 ≤ index ∧ index < maxLineSize) index
          readFrom (Function.update lineBuf index.toNat c) (index + 1) (printed ++ [c]) rest
      else pure ⟨0, lineBuf, printed⟩

def readLine (lineBuf : Bytes) (chars : List UInt8) : Checked Int ReadLine :=
  readFrom (lineBuf.memcpy 0 (fun _ => 0) maxLineSize) 0 [] chars

def balance (chars : List UInt8) : Int := chars.length - 2 * chars.count 8

/-- A backspace that is read before the line ends or is full comes when the line is not
empty. -/
def BackspacesMeet (chars : List UInt8) : Prop :=
  ∀ before, before ++ [8] <+: chars → 10 ∉ before →
    (∀ start, start <+: before → balance start < maxLineSize - 1) → 0 < balance before

section Reading

variable {lineBuf : Bytes} {printed chars : List UInt8} {index : Int}

@[simp] theorem balance_nil : balance [] = 0 := rfl

theorem balance_backspace (rest : List UInt8) : balance (8 :: rest) = balance rest - 1 := by
  rw [balance, balance, List.count_cons_self, List.length_cons]
  omega

theorem balance_other {c : UInt8} (other : c ≠ 8) (rest : List UInt8) :
    balance (c :: rest) = balance rest + 1 := by
  rw [balance, balance, List.count_cons_of_ne other, List.length_cons]
  omega

def MeetFrom (index : Int) (chars : List UInt8) : Prop :=
  ∀ before, before ++ [8] <+: chars → 10 ∉ before →
    (∀ start, start <+: before → index + balance start < maxLineSize - 1) →
      0 < index + balance before

theorem meetFrom_full (full : ¬index < maxLineSize - 1) : MeetFrom index chars := by
  intro before _ _ room
  have start := room [] List.nil_prefix
  rw [balance_nil, Int.add_zero] at start
  exact absurd start full

theorem meetFrom_nil : MeetFrom index [] := by
  intro before start
  have empty := List.prefix_nil.mp start
  exact absurd empty (by simp)

theorem meetFrom_cons {c : UInt8} {next : Int} {rest : List UInt8}
    (room : index < maxLineSize - 1) (goesOn : c ≠ 10)
    (moves : ∀ l, index + balance (c :: l) = next + balance l) :
    MeetFrom index (c :: rest) ↔ (c = 8 → 0 < index) ∧ MeetFrom next rest := by
  constructor
  · intro meet
    constructor
    · rintro rfl
      have here := meet [] (by simp) List.not_mem_nil fun start isPrefix => by
        rw [List.prefix_nil.mp isPrefix, balance_nil, Int.add_zero]
        exact room
      rwa [balance_nil, Int.add_zero] at here
    · intro before start noNewline small
      have later := meet (c :: before) (List.cons_prefix_cons.mpr ⟨rfl, start⟩)
        (List.not_mem_cons_of_ne_of_not_mem goesOn.symm noNewline) fun part isPrefix => by
          cases part with
          | nil =>
            rw [balance_nil, Int.add_zero]
            exact room
          | cons d more =>
            obtain ⟨rfl, inside⟩ := List.cons_prefix_cons.mp isPrefix
            rw [moves]
            exact small more inside
      rwa [moves] at later
  · rintro ⟨first, meet⟩ before start noNewline small
    cases before with
    | nil =>
      obtain ⟨rfl, -⟩ := List.cons_prefix_cons.mp start
      rw [balance_nil, Int.add_zero]
      exact first rfl
    | cons d more =>
      obtain ⟨rfl, behind⟩ := List.cons_prefix_cons.mp start
      rw [moves]
      apply meet more behind (fun member => noNewline (List.mem_cons_of_mem d member))
      intro part isPrefix
      rw [← moves]
      exact small (d :: part) (List.cons_prefix_cons.mpr ⟨rfl, isPrefix⟩)

theorem meetFrom_newline {rest : List UInt8} : MeetFrom index (10 :: rest) := by
  intro before start noNewline
  cases before with
  | nil =>
    obtain ⟨never, -⟩ := List.cons_prefix_cons.mp start
    cases never
  | cons d more =>
    obtain ⟨rfl, -⟩ := List.cons_prefix_cons.mp start
    exact absurd List.mem_cons_self noNewline

/-- A character that is stored: the place, the byte, and the next index. -/
theorem readFrom_next {c : UInt8} {rest : List UInt8} (room : index < maxLineSize - 1)
    (goesOn : c ≠ 10) : ∃ (place next : Int) (d : UInt8), d ≠ 10 ∧
      (∀ l, index + balance (c :: l) = next + balance l) ∧
      (0 ≤ index → (0 ≤ place ∧ place < maxLineSize ↔ (c = 8 → 0 < index))) ∧
      (0 ≤ place → 0 ≤ next) ∧
      readFrom lineBuf index printed (c :: rest) = (do
        Checked.check (0 ≤ place ∧ place < maxLineSize) place
        readFrom (Function.update lineBuf place.toNat d) next (printed ++ [c]) rest) := by
  by_cases backspace : c = 8
  · subst backspace
    refine ⟨index - 1, index - 1, 0, by decide, ?_, ?_, id, ?_⟩
    · intro l
      rw [balance_backspace]
      omega
    · intro notBelow
      constructor
      · intro stored _
        omega
      · intro notEmpty
        have positive := notEmpty rfl
        omega
    · rw [readFrom, if_pos room, if_neg goesOn, if_pos rfl]
  · refine ⟨index, index + 1, c, goesOn, ?_, ?_, by omega, ?_⟩
    · intro l
      rw [balance_other backspace]
      omega
    · intro notBelow
      exact iff_of_true (by omega) fun never => absurd never backspace
    · rw [readFrom, if_pos room, if_neg goesOn, if_neg backspace]

theorem readFrom_meets (notBelow : 0 ≤ index) :
    (readFrom lineBuf index printed chars).Meets ↔ MeetFrom index chars := by
  induction chars generalizing lineBuf index printed with
  | nil =>
    refine iff_of_true ?_ meetFrom_nil
    rw [readFrom]
    split
    · exact Checked.meets_halt .hang
    · exact Checked.meets_pure _
  | cons c rest inductionHypothesis =>
    by_cases room : index < maxLineSize - 1
    · by_cases newline : c = 10
      · subst newline
        rw [readFrom, if_pos room, if_pos rfl]
        exact iff_of_true (Checked.meets_pure _) meetFrom_newline
      · obtain ⟨place, next, d, -, moves, inside, behind, computes⟩ :=
          @readFrom_next lineBuf printed index c rest room newline
        rw [computes, Checked.meets_check_bind, meetFrom_cons room newline moves, ← inside notBelow]
        exact and_congr_right fun stored => inductionHypothesis (behind stored.1)
    · rw [readFrom, if_neg room]
      exact iff_of_true (Checked.meets_pure _) (meetFrom_full room)

theorem readLine_meets_iff : (readLine lineBuf chars).Meets ↔ BackspacesMeet chars := by
  rw [readLine, readFrom_meets (Int.le_refl 0), MeetFrom, BackspacesMeet]
  simp only [Int.zero_add]

theorem readFrom_noNewline {result : ReadLine} (none : ∀ p < maxLineSize, lineBuf p ≠ 10)
    (done : readFrom lineBuf index printed chars = .ok result) :
    ∀ p < maxLineSize, result.lineBuf p ≠ 10 := by
  induction chars generalizing lineBuf index printed with
  | nil =>
    rw [readFrom] at done
    split at done
    next => cases done
    next =>
      obtain rfl := Checked.pure_eq.mp done
      exact none
  | cons c rest inductionHypothesis =>
    by_cases room : index < maxLineSize - 1
    · by_cases newline : c = 10
      · subst newline
        rw [readFrom, if_pos room, if_pos rfl] at done
        obtain rfl := Checked.pure_eq.mp done
        exact none
      · obtain ⟨place, next, d, other, -, -, -, computes⟩ :=
          @readFrom_next lineBuf printed index c rest room newline
        rw [computes, Checked.check_bind_eq] at done
        refine inductionHypothesis ?_ done.2
        intro p inside
        by_cases here : p = place.toNat
        · rw [here, Function.update_self]
          exact other
        · rw [Function.update_of_ne here]
          exact none p inside
    · rw [readFrom, if_neg room] at done
      obtain rfl := Checked.pure_eq.mp done
      exact none

theorem readLine_noNewline {result : ReadLine} (done : readLine lineBuf chars = .ok result) :
    ∀ p < maxLineSize, result.lineBuf p ≠ 10 := by
  refine readFrom_noNewline ?_ done
  intro p inside
  rw [Bytes.memcpy_inside (Nat.zero_le p) (by omega)]
  decide

end Reading

/-- `strsplit` of the string at the start of a buffer. -/
def splitBuffer (line : List UInt8) (splitOn : UInt8) : List UInt8 × Nat :=
  let str := cstring line 0
  let (split, num) := strsplit str splitOn
  (split ++ line.drop str.length, num)

/-- The loop over the arguments that are left, with the offset of the next one; `false` if one
of them is too long. -/
def copyArgs (line : List UInt8) : Nat → Nat → Nat → Bytes → Checked Nat (Bytes × Bool)
  | 0, _, _, argsOut => pure (argsOut, true)
  | left + 1, p, index, argsOut =>
      let len := strlen line p + 1
      if len > maxPath then pure (argsOut, false)
      else do
        Checked.check (index < maxArgs) index
        let argsOut := argsOut.memcpy (maxPath * index) (fun j => line.getD (p + j) 0) len
        copyArgs line left (p + len) (index + 1) argsOut

/-- What `split_line` returns and leaves, with `*file_out` as an offset of the line, and what it
prints. -/
structure SplitLine where
  ret : Int
  line : List UInt8
  fileOut : Nat
  argsOut : Bytes
  printed : String

def splitLine (argsOut : Bytes) (line : List UInt8) : Checked Nat SplitLine := do
  let (line, argc) := splitBuffer line 32
  let (line, _) := splitBuffer line 10
  let fileOut := 0
  let (argsOut, fits) ← copyArgs line (argc - 1) (strlen line fileOut + 1) 0 argsOut
  if fits = false then pure ⟨-1, line, fileOut, argsOut, "Argument exceeded MAX_PATH\n"⟩
  else if argc > maxArgs then pure ⟨-1, line, fileOut, argsOut, "argc exceeded MAX_ARGS\n"⟩
  else pure ⟨argc, line, fileOut, argsOut, ""⟩

section Pieces

variable (line : List UInt8)

def pieces : List (List UInt8) := line.splitOn 32

def firstPiece : List UInt8 := (pieces line).headD []

def fileName : List UInt8 := ((firstPiece line).splitOn 10).headD []

/-- An argument that is no longer than `MAX_PATH - 1`. -/
def Fits (arg : List UInt8) : Prop := arg.length ≤ maxPath - 1

instance (arg : List UInt8) : Decidable (Fits arg) := inferInstanceAs (Decidable (_ ≤ _))

def Refused : Prop := maxArgs < (pieces line).length ∨ ∃ arg ∈ (pieces line).tail, ¬Fits arg

/-- No store is outside of the arguments; a line that is to be refused is, and any other one is
split into its pieces. -/
def SplitRight : Prop := ∀ argsOut rest, ∃ result,
  splitLine argsOut (line ++ 0 :: rest) = .ok result ∧
    (Refused line → result.ret = -1) ∧
    (¬Refused line → result.ret = (pieces line).length ∧
      cstring result.line result.fileOut = firstPiece line ∧
      ∀ i (positive : 1 ≤ i) (inside : i < (pieces line).length),
        HoldsString result.argsOut (maxPath * (i - 1)) (pieces line)[i])

/-- The strings that the loop comes to: what newlines cut off the first piece, and the other
pieces. -/
def comesTo : List (List UInt8) :=
  (((firstPiece line).splitOn 10).tail ++ (pieces line).tail).take ((pieces line).length - 1)

/-- At most `MAX_ARGS` strings are copied, those that are too long are among those that the
loop comes to, and a line that is not refused has no newline in its first piece. -/
structure SplitsRight : Prop where
  room : ((comesTo line).takeWhile fun arg => Fits arg).length ≤ maxArgs
  refuses : Refused line → maxArgs < (pieces line).length ∨ ∃ arg ∈ comesTo line, ¬Fits arg
  whole : ¬Refused line → 10 ∉ firstPiece line

end Pieces

section Copying

variable {line : List UInt8} {l more : List (List UInt8)} {p index : Nat} {argsOut : Bytes}

theorem fits_iff {arg : List UInt8} : Fits arg ↔ arg.length + 1 ≤ maxPath := by
  rw [Fits, maxPath]
  omega

theorem copyArgs_next {arg : List UInt8} {rest : List (List UInt8)} (left : Nat)
    (strings : Strings line p (arg :: rest)) :
    (copyArgs line (left + 1) p index argsOut = if Fits arg then do
        Checked.check (index < maxArgs) index
        copyArgs line left (p + (arg.length + 1)) (index + 1)
          (argsOut.memcpy (maxPath * index) (fun j => line.getD (p + j) 0) (arg.length + 1))
      else pure (argsOut, false)) ∧
    Strings line (p + (arg.length + 1)) rest := by
  obtain ⟨here, later⟩ := strings
  have length : strlen line p = arg.length := by rw [strlen, here]
  rw [length, Nat.add_assoc] at later
  refine ⟨?_, later⟩
  rw [copyArgs, length]
  by_cases fits : Fits arg
  · rw [if_pos fits]
    exact if_neg (Nat.not_lt.mpr (fits_iff.mp fits))
  · rw [if_neg fits]
    exact if_pos (Nat.lt_of_not_le fun room => fits (fits_iff.mpr room))

theorem copyArgs_ok_iff (strings : Strings line p (l ++ more)) (inside : index ≤ maxArgs) :
    (∃ result, copyArgs line l.length p index argsOut = .ok result) ↔
      index + (l.takeWhile fun arg => Fits arg).length ≤ maxArgs := by
  induction l generalizing p index argsOut with
  | nil => exact iff_of_true ⟨_, rfl⟩ inside
  | cons arg rest inductionHypothesis =>
    obtain ⟨next, later⟩ := copyArgs_next rest.length strings
    rw [List.length_cons, next]
    by_cases fits : Fits arg
    · rw [if_pos fits, List.takeWhile_cons_of_pos (by simpa using fits), List.length_cons]
      simp only [Checked.check_bind_eq]
      by_cases room : index < maxArgs
      · have whole := @inductionHypothesis (p + (arg.length + 1)) (index + 1)
          (argsOut.memcpy (maxPath * index) (fun j => line.getD (p + j) 0) (arg.length + 1))
          later room
        simp only [room, true_and]
        rw [whole]
        omega
      · simp only [room, false_and, exists_false, false_iff]
        omega
    · rw [if_neg fits, List.takeWhile_cons_of_neg (by simpa using fits)]
      exact iff_of_true ⟨_, rfl⟩ inside

theorem copyArgs_fits {argsOut' : Bytes} {fits : Bool} (strings : Strings line p (l ++ more))
    (done : copyArgs line l.length p index argsOut = .ok (argsOut', fits)) :
    fits = false ↔ ∃ arg ∈ l, ¬Fits arg := by
  induction l generalizing p index argsOut with
  | nil =>
    obtain ⟨-, rfl⟩ := Prod.mk.inj (Checked.pure_eq.mp done)
    exact iff_of_false nofun nofun
  | cons arg rest inductionHypothesis =>
    obtain ⟨next, later⟩ := copyArgs_next rest.length strings
    rw [List.length_cons, next] at done
    by_cases short : Fits arg
    · rw [if_pos short, Checked.check_bind_eq] at done
      rw [inductionHypothesis later done.2]
      simp [short]
    · rw [if_neg short] at done
      obtain ⟨-, rfl⟩ := Prod.mk.inj (Checked.pure_eq.mp done)
      exact iff_of_true rfl ⟨arg, List.mem_cons_self, short⟩

theorem memcpy_holds {arg : List UInt8} (here : cstring line p = arg) (isString : IsString arg)
    (offset : Nat) : HoldsString
      (argsOut.memcpy offset (fun j => line.getD (p + j) 0) (arg.length + 1)) offset arg := by
  obtain ⟨bytes, ended⟩ := cstring_getD here
  refine ⟨isString, ?_, ?_⟩
  · intro j inside
    rw [Bytes.memcpy_inside (by omega) (by omega), Nat.add_sub_cancel_left]
    exact bytes j inside
  · rw [Bytes.memcpy_inside (by omega) (by omega), Nat.add_sub_cancel_left]
    exact ended

theorem copyArgs_holds {argsOut' : Bytes} (strings : Strings line p (l ++ more))
    (isString : ∀ arg ∈ l, IsString arg)
    (done : copyArgs line l.length p index argsOut = .ok (argsOut', true)) :
    (∀ j (inside : j < l.length), HoldsString argsOut' (maxPath * (index + j)) l[j]) ∧
      ∀ q < maxPath * index, argsOut' q = argsOut q := by
  induction l generalizing p index argsOut with
  | nil =>
    obtain ⟨rfl, -⟩ := Prod.mk.inj (Checked.pure_eq.mp done)
    exact ⟨nofun, fun _ _ => rfl⟩
  | cons arg rest inductionHypothesis =>
    obtain ⟨next, later⟩ := copyArgs_next rest.length strings
    rw [List.length_cons, next] at done
    by_cases short : Fits arg
    · rw [if_pos short, Checked.check_bind_eq] at done
      obtain ⟨holds, before⟩ := inductionHypothesis later
        (fun arg member => isString arg (List.mem_cons_of_mem _ member)) done.2
      have room := fits_iff.mp short
      rw [Nat.mul_succ] at before
      constructor
      · intro j inside
        cases j with
        | zero =>
          have copied : HoldsString _ (maxPath * index) arg :=
            @memcpy_holds line p argsOut arg strings.1 (isString arg List.mem_cons_self)
              (maxPath * index)
          rw [Nat.add_zero, List.getElem_cons_zero]
          refine ⟨copied.isString, ?_, ?_⟩
          · intro k within
            rw [before _ (by omega)]
            exact copied.bytes k within
          · rw [before _ (by omega)]
            exact copied.terminated
        | succ j =>
          have place : index + (j + 1) = index + 1 + j := by omega
          rw [place]
          exact holds j (Nat.lt_of_succ_lt_succ inside)
      · intro q earlier
        rw [before q (by omega), Bytes.memcpy_outside (.inl earlier)]
    · rw [if_neg short] at done
      cases (Prod.mk.inj (Checked.pure_eq.mp done)).2

end Copying

section Splitting

variable {line : List UInt8}

theorem pieces_ne_nil (line : List UInt8) : pieces line ≠ [] := List.splitOn_ne_nil 32 line

theorem pieces_eq (line : List UInt8) : pieces line = firstPiece line :: (pieces line).tail := by
  obtain ⟨first, more, split⟩ := List.exists_cons_of_ne_nil (pieces_ne_nil line)
  rw [firstPiece, split]
  rfl

theorem pieces_isString (isString : IsString line) : ∀ piece ∈ pieces line, IsString piece :=
  fun _ member zero => isString (mem_of_mem_splitOn member zero).1

theorem splitBuffer_eq (isString : IsString line) (rest : List UInt8) (splitOn : UInt8) :
    splitBuffer (line ++ 0 :: rest) splitOn =
      (laid (line.splitOn splitOn) ++ rest, (line.splitOn splitOn).length) := by
  have here : cstring (line ++ 0 :: rest) 0 = line := cstring_append [] rest isString
  obtain ⟨split, count⟩ := strsplit_eq line splitOn
  rw [splitBuffer, here]
  dsimp only
  rw [List.drop_left, count, ← split, List.append_assoc, List.singleton_append]

theorem firstPiece_splitOn (line : List UInt8) : (firstPiece line).splitOn 10 =
    fileName line :: ((firstPiece line).splitOn 10).tail := by
  obtain ⟨first, more, split⟩ :=
    List.exists_cons_of_ne_nil (List.splitOn_ne_nil 10 (firstPiece line))
  rw [fileName, split]
  rfl

theorem fileName_eq_iff : fileName line = firstPiece line ↔ 10 ∉ firstPiece line := by
  constructor
  · intro same inside
    have member : fileName line ∈ (firstPiece line).splitOn 10 := by
      rw [firstPiece_splitOn]
      exact List.mem_cons_self
    rw [← same] at inside
    exact (mem_of_mem_splitOn member inside).2 rfl
  · intro whole
    rw [fileName, List.splitOn_eq_singleton whole, List.headD_cons]

theorem length_comesTo (line : List UInt8) :
    (comesTo line).length = (pieces line).length - 1 := by
  rw [comesTo, List.length_take, List.length_append, List.length_tail (l := pieces line)]
  omega

theorem comesTo_of_whole (whole : 10 ∉ firstPiece line) : comesTo line = (pieces line).tail := by
  rw [comesTo, List.splitOn_eq_singleton whole, List.tail_cons, List.nil_append,
    ← List.length_tail, List.take_length]

theorem cut_isString (isString : IsString line) :
    ∀ str ∈ (firstPiece line).splitOn 10 ++ (pieces line).tail, IsString str := by
  have each := pieces_isString isString
  rw [pieces_eq] at each
  intro str member
  rcases List.mem_append.mp member with cut | later
  · exact fun zero => each _ List.mem_cons_self (mem_of_mem_splitOn cut zero).1
  · exact each str (List.mem_cons_of_mem _ later)

theorem comesTo_isString (isString : IsString line) : ∀ arg ∈ comesTo line, IsString arg := by
  intro arg member
  apply cut_isString isString
  rw [firstPiece_splitOn, List.cons_append]
  exact List.mem_cons_of_mem _ (List.mem_of_mem_take member)

theorem splitLine_eq (isString : IsString line) (argsOut : Bytes) (rest : List UInt8) :
    ∃ buffer p more, cstring buffer 0 = fileName line ∧
      Strings buffer p (comesTo line ++ more) ∧
      splitLine argsOut (line ++ 0 :: rest) = (do
        let (argsOut, fits) ← copyArgs buffer (comesTo line).length p 0 argsOut
        if fits = false then pure ⟨-1, buffer, 0, argsOut, "Argument exceeded MAX_PATH\n"⟩
        else if (pieces line).length > maxArgs then
          pure ⟨-1, buffer, 0, argsOut, "argc exceeded MAX_ARGS\n"⟩
        else pure ⟨(pieces line).length, buffer, 0, argsOut, ""⟩) := by
  let cut := (firstPiece line).splitOn 10
  let buffer := laid (cut ++ (pieces line).tail) ++ rest
  have first : splitBuffer (line ++ 0 :: rest) 32 =
      (firstPiece line ++ 0 :: (laid (pieces line).tail ++ rest), (pieces line).length) := by
    rw [splitBuffer_eq isString, ← pieces, pieces_eq]
    simp [laid]
  have second : splitBuffer (firstPiece line ++ 0 :: (laid (pieces line).tail ++ rest)) 10 =
      (buffer, cut.length) := by
    have each := pieces_isString isString
    rw [pieces_eq] at each
    rw [splitBuffer_eq (each _ List.mem_cons_self)]
    simp [laid, buffer, cut]
  have strings : Strings buffer 0 (cut ++ (pieces line).tail) :=
    strings_laid [] (cut_isString isString) rest
  have split := firstPiece_splitOn line
  change cut = _ at split
  rw [split, List.cons_append] at strings
  obtain ⟨name, later⟩ := strings
  rw [← List.take_append_drop ((pieces line).length - 1) (cut.tail ++ _)] at later
  refine ⟨buffer, _, _, name, later, ?_⟩
  rw [splitLine, first]
  dsimp only
  rw [second, length_comesTo]
  dsimp only
  rw [Nat.zero_add]

theorem splitLine_ok {argsOut : Bytes} {rest : List UInt8} {result : SplitLine}
    (isString : IsString line) (done : splitLine argsOut (line ++ 0 :: rest) = .ok result) :
    cstring result.line result.fileOut = fileName line ∧
      (result.ret = -1 ↔ maxArgs < (pieces line).length ∨ ∃ arg ∈ comesTo line, ¬Fits arg) ∧
      (result.ret ≠ -1 → result.ret = (pieces line).length ∧
        ∀ i (inside : i < (comesTo line).length),
          HoldsString result.argsOut (maxPath * i) (comesTo line)[i]) := by
  obtain ⟨buffer, p, more, name, strings, computes⟩ := splitLine_eq isString argsOut rest
  rw [computes, Checked.bind_eq] at done
  obtain ⟨⟨argsOut', fits⟩, copied, done⟩ := done
  have tooLong := copyArgs_fits strings copied
  dsimp only at done
  split at done
  next long =>
    obtain rfl := Checked.pure_eq.mp done
    exact ⟨name, iff_of_true rfl (.inr (tooLong.mp long)), fun never => absurd rfl never⟩
  next short =>
    split at done
    next many =>
      obtain rfl := Checked.pure_eq.mp done
      exact ⟨name, iff_of_true rfl (.inl many), fun never => absurd rfl never⟩
    next few =>
      obtain rfl := Checked.pure_eq.mp done
      have fit : fits = true := by simpa using short
      subst fit
      refine ⟨name, iff_of_false ?_ ?_, fun _ => ⟨rfl, ?_⟩⟩
      · intro never
        change ((pieces line).length : Int) = -1 at never
        omega
      · rintro (many | long)
        · exact few many
        · exact short (tooLong.mpr long)
      · intro i inside
        have holds := (copyArgs_holds strings (comesTo_isString isString) copied).1 i inside
        rwa [Nat.zero_add] at holds

theorem splitLine_ok_iff (isString : IsString line) (argsOut : Bytes) (rest : List UInt8) :
    (∃ result, splitLine argsOut (line ++ 0 :: rest) = .ok result) ↔
      ((comesTo line).takeWhile fun arg => Fits arg).length ≤ maxArgs := by
  obtain ⟨buffer, p, more, -, strings, computes⟩ := splitLine_eq isString argsOut rest
  have copies := @copyArgs_ok_iff buffer (comesTo line) more p 0 argsOut strings (Nat.zero_le _)
  rw [Nat.zero_add] at copies
  rw [← copies, computes]
  simp only [Checked.bind_eq]
  constructor
  · rintro ⟨_, copied, done, -⟩
    exact ⟨copied, done⟩
  · rintro ⟨⟨argsOut', fits⟩, done⟩
    by_cases long : fits = false
    · exact ⟨_, _, done, if_pos long⟩
    · by_cases many : (pieces line).length > maxArgs
      · exact ⟨_, _, done, (if_neg long).trans (if_pos many)⟩
      · exact ⟨_, _, done, (if_neg long).trans (if_neg many)⟩

theorem splitRight_iff (isString : IsString line) : SplitRight line ↔ SplitsRight line := by
  constructor
  · intro right
    obtain ⟨result, done, refuses, splits⟩ := right (fun _ => 0) []
    obtain ⟨name, refused, -⟩ := splitLine_ok isString done
    exact {
      room := (splitLine_ok_iff isString _ _).mp ⟨result, done⟩
      refuses := fun toRefuse => refused.mp (refuses toRefuse)
      whole := fun accepted => fileName_eq_iff.mp (name.symm.trans (splits accepted).2.1) }
  · rintro ⟨room, refuses, whole⟩ argsOut rest
    obtain ⟨result, done⟩ := (splitLine_ok_iff isString argsOut rest).mpr room
    obtain ⟨name, refused, returns⟩ := splitLine_ok isString done
    refine ⟨result, done, fun toRefuse => refused.mpr (refuses toRefuse), fun accepted => ?_⟩
    have noNewline := whole accepted
    have comes := comesTo_of_whole noNewline
    have notRefused : result.ret ≠ -1 := by
      intro ret
      apply accepted
      rcases refused.mp ret with many | long
      · exact .inl many
      · rw [comes] at long
        exact .inr long
    obtain ⟨ret, holds⟩ := returns notRefused
    refine ⟨ret, name.trans (fileName_eq_iff.mpr noNewline), ?_⟩
    intro i positive inside
    have below : i - 1 < (comesTo line).length := by
      rw [length_comesTo]
      omega
    have same : (comesTo line)[i - 1] = (pieces line)[i] := by
      simp [comes, Nat.sub_add_cancel positive]
    rw [← same]
    exact holds (i - 1) below

/-- A line whose first piece holds no newline, as `read_line` leaves them, is split right if not
more than `MAX_ARGS` of its arguments are copied. -/
theorem splitsRight_iff_of_whole (whole : 10 ∉ firstPiece line) : SplitsRight line ↔
    ((pieces line).tail.takeWhile fun arg => Fits arg).length ≤ maxArgs := by
  have comes := comesTo_of_whole whole
  constructor
  · intro right
    rw [← comes]
    exact right.room
  · intro room
    rw [← comes] at room
    refine ⟨room, ?_, fun _ => whole⟩
    rw [comes]
    exact id

end Splitting

/-- `read_line` stores inside of its buffer iff no backspace comes on an empty line, and
`split_line` does what it is for iff its line is one that it splits right. -/
theorem shellInput_right (lineBuf : Bytes) (chars : List UInt8) {line : List UInt8}
    (isString : IsString line) :
    ((readLine lineBuf chars).Meets ↔ BackspacesMeet chars) ∧
      (SplitRight line ↔ SplitsRight line) :=
  ⟨readLine_meets_iff, splitRight_iff isString⟩

/-- `ls a`, where a wrong character was taken back. -/
theorem shellInput_right_ls :
    (readLine (fun _ => 0) [108, 120, 8, 115, 32, 97, 10]).Meets ∧
      SplitRight [108, 115, 32, 97] := by
  obtain ⟨reads, splits⟩ := @shellInput_right (fun _ => 0) [108, 120, 8, 115, 32, 97, 10]
    [108, 115, 32, 97] (by decide)
  let chars : List UInt8 := [108, 120, 8, 115, 32, 97, 10]
  have onlyOne : ∀ n < 7, (chars.take (n + 1)).getLast? = some 8 → 0 < balance (chars.take n) := by
    decide
  constructor
  · apply reads.mpr
    intro before isPrefix _ _
    have inside := isPrefix.length_le
    have backspace := List.prefix_iff_eq_take.mp isPrefix
    rw [List.length_append, List.length_singleton] at inside backspace
    rw [List.prefix_iff_eq_take.mp ((List.prefix_append before [8]).trans isPrefix)]
    refine onlyOne before.length inside ?_
    rw [← backspace, List.getLast?_concat]
  · apply splits.mpr
    rw [splitsRight_iff_of_whole (by decide)]
    decide

/-- A line that starts with a backspace, and one of 16 spaces. -/
theorem shellInput_wrong :
    ¬(readLine (fun _ => 0) [8, 10]).Meets ∧
      IsString (List.replicate 16 32) ∧ ¬SplitRight (List.replicate 16 32) := by
  constructor
  · intro meets
    have room : ∀ start, start <+: [] → balance start < maxLineSize - 1 := by
      intro start isPrefix
      rw [List.prefix_nil.mp isPrefix]
      decide
    have notEmpty := readLine_meets_iff.mp meets [] ⟨[10], rfl⟩ List.not_mem_nil room
    exact absurd notEmpty (by decide)
  · refine ⟨by decide, ?_⟩
    rw [splitRight_iff (by decide), splitsRight_iff_of_whole (by decide)]
    decide

end SwagOS.User
