import SwagOS.Fs.Ext2.Contents
import SwagOS.Mem.PageTables

/-!
# The read system call

`SYSHANDLER_read` reads the whole file and copies it to the user in pieces, from the start
of the buffer: the offset is used to clamp the count and for nothing else.
-/

namespace SwagOS.Kernel

open SwagOS.Lib SwagOS.Fs SwagOS.Mem

/-- `enum ERROR` -/
inductive Error where
  | noError
  | fileNotFound
  | fileReadError
  deriving DecidableEq, Repr

/-- `file_descriptor`, the path up to its terminator. -/
structure FileDescriptor where
  inUse : Bool
  path : List UInt8

/-- What a call leaves: `rax`, `errno` if it is set, and the bytes written to user memory. -/
structure ReadResult where
  rax : Nat
  errno : Option Error
  written : List (Nat × UInt8)

def uint64Max : Nat := 2 ^ 64 - 1

def placed (dst count : Nat) (bytes : Nat → UInt8) : List (Nat × UInt8) :=
  (List.range count).map fun k => ((dst + k) % 2 ^ 64, bytes k)

def rwSize (toRead numRead : Nat) : Nat :=
  if toRead - numRead < 0x200 then toRead - numRead else 0x200

section Call

-- The tables of the caller, and the files.
variable (base : Nat) (view : View) (pgdir : ThreadPagetables) (fs : Ext2Driver)
  (mem : Ext2Memory) (fuel : Nat) (fd : Nat → FileDescriptor)

/-- The loop over the pieces: `rax` and what is written. -/
def copyPieces (buf : Bytes) (writeDst toRead numRead : Nat) : Nat × List (Nat × UInt8) :=
  if _more : numRead < toRead then
    let size := rwSize toRead numRead
    if pgdir.fetchStruct base view ((writeDst + numRead) % 2 ^ 64) size then
      let (rax, written) := copyPieces buf writeDst toRead (numRead + size)
      (rax, placed (writeDst + numRead) size (fun k => buf (numRead + k)) ++ written)
    else (uint64Max, [])
  else (0, [])
termination_by toRead - numRead
decreasing_by
  simp only [rwSize]
  split <;> omega

def clampCount (fileSize rcx r8 : Nat) : Nat :=
  if (r8 + rcx) % 2 ^ 64 > fileSize then (fileSize + (2 ^ 64 - r8)) % 2 ^ 64 else rcx

def syshandlerRead (rsi rdx rcx r8 : Nat) : Outcome ReadResult :=
  if (fd rsi).inUse = false then pure ⟨uint64Max, none, []⟩
  else do
    let fileSize ← fs.pathToFileSize mem fuel (fd rsi).path
    if fileSize = uint64Max then pure ⟨uint64Max, some .fileReadError, []⟩
    else
      match ← fs.ext2ReadFile mem fuel (fd rsi).path with
      | none => pure ⟨uint64Max, some .fileReadError, []⟩
      | some buf =>
          let (rax, written) := copyPieces base view pgdir buf rdx (clampCount fileSize rcx r8) 0
          pure ⟨rax, none, written⟩

/-- What a program has read that reads piece after piece into the same buffer, as `cat`
does; `none` if a call fails. -/
def readPieces (rsi rdx : Nat) : Nat → List Nat → Outcome (Option (List UInt8))
  | _, [] => pure (some [])
  | bytesRead, toRead :: rest => do
      let result ← syshandlerRead base view pgdir fs mem fuel fd rsi rdx toRead bytesRead
      if result.rax ≠ 0 then pure none
      else do
        let later ← readPieces rsi rdx (bytesRead + toRead) rest
        pure (later.map (result.written.map Prod.snd ++ ·))

end Call

theorem placed_append (dst n m : Nat) (bytes : Nat → UInt8) :
    placed dst (n + m) bytes =
      placed dst n bytes ++ placed (dst + n) m (fun k => bytes (n + k)) := by
  rw [placed, List.range_add, List.map_append, List.map_map]
  refine congrArg (placed dst n bytes ++ ·) (List.map_congr_left ?_)
  intro k _
  rw [Function.comp_apply, Nat.add_assoc]

theorem placed_inj {dst n m : Nat} {b c : Nat → UInt8} :
    placed dst n b = placed dst m c ↔ n = m ∧ ∀ k < n, b k = c k := by
  constructor
  · intro same
    have length := congrArg List.length same
    simp only [placed, List.length_map, List.length_range] at length
    obtain rfl := length
    refine ⟨rfl, ?_⟩
    intro k below
    have equal := List.map_inj_left.mp same k (List.mem_range.mpr below)
    exact congrArg Prod.snd equal
  · rintro ⟨rfl, same⟩
    apply List.map_congr_left
    intro k member
    rw [same k (List.mem_range.mp member)]

section Pieces

variable {base : Nat} {view : View} {pgdir : ThreadPagetables} {buf : Bytes} {dst toRead : Nat}

def PieceAccepted (base : Nat) (view : View) (pgdir : ThreadPagetables) (dst toRead numRead : Nat) :
    Prop :=
  pgdir.fetchStruct base view ((dst + numRead) % 2 ^ 64) (rwSize toRead numRead)

def Accepted (base : Nat) (view : View) (pgdir : ThreadPagetables) (dst toRead : Nat) : Prop :=
  ∀ j, 0x200 * j < toRead → PieceAccepted base view pgdir dst toRead (0x200 * j)

theorem copyPieces_accepted (accepted : Accepted base view pgdir dst toRead) {numRead j : Nat}
    (start : numRead = min (0x200 * j) toRead) :
    copyPieces base view pgdir buf dst toRead numRead =
      (0, placed (dst + numRead) (toRead - numRead) fun k => buf (numRead + k)) := by
  induction remaining : toRead - numRead using Nat.strong_induction_on generalizing numRead j with
  | _ left inductionHypothesis =>
    rw [copyPieces]
    split
    next more =>
      have here : numRead = 0x200 * j := by omega
      have pass := accepted j (by omega)
      rw [PieceAccepted, ← here] at pass
      have size : rwSize toRead numRead ≤ toRead - numRead ∧ 0 < rwSize toRead numRead ∧
          numRead + rwSize toRead numRead = min (0x200 * (j + 1)) toRead := by
        rw [rwSize]
        split <;> omega
      have rest := inductionHypothesis _ (by omega) size.2.2 rfl
      simp only [if_pos pass, rest]
      have split : left = rwSize toRead numRead + (toRead - (numRead + rwSize toRead numRead)) := by
        omega
      rw [split, placed_append, ← Nat.add_assoc dst]
      simp only [Nat.add_assoc]
    next done =>
      obtain rfl : left = 0 := by omega
      rfl

theorem copyPieces_refused {numRead j i : Nat} (start : numRead = min (0x200 * j) toRead)
    (behind : j ≤ i) (inside : 0x200 * i < toRead)
    (refused : ¬PieceAccepted base view pgdir dst toRead (0x200 * i)) :
    (copyPieces base view pgdir buf dst toRead numRead).1 = uint64Max := by
  induction remaining : toRead - numRead using Nat.strong_induction_on generalizing numRead j with
  | _ left inductionHypothesis =>
    have here : numRead = 0x200 * j := by omega
    rw [copyPieces, dif_pos (by omega)]
    rcases Nat.eq_or_lt_of_le behind with rfl | later
    · rw [PieceAccepted, ← here] at refused
      simp only [if_neg refused]
    · by_cases pass : pgdir.fetchStruct base view ((dst + numRead) % 2 ^ 64) (rwSize toRead numRead)
      · have size : 0 < rwSize toRead numRead ∧
            numRead + rwSize toRead numRead = min (0x200 * (j + 1)) toRead := by
          rw [rwSize]
          split <;> omega
        simp only [if_pos pass]
        exact inductionHypothesis _ (by omega) size.2 later rfl
      · simp only [if_neg pass]

end Pieces

section Right

variable {base : Nat} {view : View} {pgdir : ThreadPagetables} {fs : Ext2Driver}
  {mem : Ext2Memory} {fuel : Nat} {fd : Nat → FileDescriptor} {rsi rdx : Nat}
  {contents : List UInt8} {buf : Bytes}

/-- An open descriptor on a file with these contents, which `ext2_read_file` returns. -/
structure OpenFile (fs : Ext2Driver) (mem : Ext2Memory) (fuel : Nat) (fd : FileDescriptor)
    (contents : List UInt8) (buf : Bytes) : Prop where
  inUse : fd.inUse = true
  size : fs.pathToFileSize mem fuel fd.path = .ok contents.length
  file : fs.ext2ReadFile mem fuel fd.path = .ok (some buf)
  bytes : ∀ k < contents.length, buf k = contents.getD k 0
  small : contents.length < uint64Max

/-- A call that returns 0 has written the bytes of the file from the offset on, as many as were
asked for or as there are, and nothing else. -/
def AnswersRight (base : Nat) (view : View) (pgdir : ThreadPagetables) (fs : Ext2Driver)
    (mem : Ext2Memory) (fuel : Nat) (fd : Nat → FileDescriptor) (rsi rdx rcx r8 : Nat)
    (contents : List UInt8) : Prop :=
  ∀ result, syshandlerRead base view pgdir fs mem fuel fd rsi rdx rcx r8 = .ok result →
    result.rax = 0 → result.written =
      placed rdx (min (r8 + rcx) contents.length - r8) fun k => contents.getD (r8 + k) 0

theorem syshandlerRead_open (isOpen : OpenFile fs mem fuel (fd rsi) contents buf) (rcx r8 : Nat) :
    syshandlerRead base view pgdir fs mem fuel fd rsi rdx rcx r8 =
      .ok ⟨(copyPieces base view pgdir buf rdx (clampCount contents.length rcx r8) 0).1, none,
        (copyPieces base view pgdir buf rdx (clampCount contents.length rcx r8) 0).2⟩ := by
  have inUse : ¬(fd rsi).inUse = false := by
    rw [isOpen.inUse]
    decide
  rw [syshandlerRead, if_neg inUse, isOpen.size]
  refine Outcome.bind_ok.mpr ⟨_, rfl, ?_⟩
  rw [if_neg (Nat.ne_of_lt isOpen.small), isOpen.file]
  rfl

theorem syshandlerRead_accepted (isOpen : OpenFile fs mem fuel (fd rsi) contents buf) {rcx r8 : Nat}
    (accepted : Accepted base view pgdir rdx (clampCount contents.length rcx r8)) :
    syshandlerRead base view pgdir fs mem fuel fd rsi rdx rcx r8 =
      .ok ⟨0, none, placed rdx (clampCount contents.length rcx r8) buf⟩ := by
  have start : 0 = min (0x200 * 0) (clampCount contents.length rcx r8) := by omega
  rw [syshandlerRead_open isOpen, copyPieces_accepted accepted start]
  simp only [Nat.zero_add]
  rfl

theorem syshandlerRead_zero (isOpen : OpenFile fs mem fuel (fd rsi) contents buf) {rcx r8 : Nat}
    {result : ReadResult}
    (done : syshandlerRead base view pgdir fs mem fuel fd rsi rdx rcx r8 = .ok result)
    (success : result.rax = 0) :
    Accepted base view pgdir rdx (clampCount contents.length rcx r8) := by
  apply Classical.byContradiction
  intro refused
  rw [Accepted] at refused
  push Not at refused
  obtain ⟨j, inside, refused⟩ := refused
  have start : 0 = min (0x200 * 0) (clampCount contents.length rcx r8) := by omega
  have failed : (copyPieces base view pgdir buf rdx (clampCount contents.length rcx r8) 0).1 =
      uint64Max := copyPieces_refused start (Nat.zero_le j) inside refused
  rw [syshandlerRead_open isOpen] at done
  obtain rfl := Except.ok.inj done
  have never : uint64Max ≠ 0 := by decide
  exact never (failed.symm.trans success)

theorem clampCount_eq_iff {size rcx r8 : Nat} (small : size < uint64Max) (count : rcx < 2 ^ 64)
    (offset : r8 < 2 ^ 64) :
    clampCount size rcx r8 = min (r8 + rcx) size - r8 ↔ r8 ≤ size ∧ r8 + rcx < 2 ^ 64 := by
  rw [uint64Max] at small
  rw [clampCount]
  split <;> omega

def Repeats (contents : List UInt8) (offset count : Nat) : Prop :=
  ∀ k < count, contents.getD k 0 = contents.getD (offset + k) 0

def piecesFrom : Nat → List Nat → List (Nat × Nat)
  | _, [] => []
  | offset, count :: rest => (offset, count) :: piecesFrom (offset + count) rest

theorem answersRight_iff (isOpen : OpenFile fs mem fuel (fd rsi) contents buf) {rcx r8 : Nat}
    (count : rcx < 2 ^ 64) (offset : r8 < 2 ^ 64) :
    AnswersRight base view pgdir fs mem fuel fd rsi rdx rcx r8 contents ↔
      ¬Accepted base view pgdir rdx (clampCount contents.length rcx r8) ∨
        r8 ≤ contents.length ∧ r8 + rcx < 2 ^ 64 ∧
          Repeats contents r8 (min (r8 + rcx) contents.length - r8) := by
  have clamped := clampCount_eq_iff isOpen.small count offset
  have shorter : min (r8 + rcx) contents.length - r8 ≤ contents.length := by omega
  by_cases accepted : Accepted base view pgdir rdx (clampCount contents.length rcx r8)
  · -- All pieces are written, from the start of the buffer.
    rw [or_iff_right (not_not_intro accepted), ← and_assoc, ← clamped]
    have answer := syshandlerRead_accepted isOpen accepted
    constructor
    · intro right
      obtain ⟨length, same⟩ := placed_inj.mp (right _ answer rfl)
      refine ⟨length, ?_⟩
      intro k below
      rw [← isOpen.bytes k (by omega)]
      exact same k (length ▸ below)
    · rintro ⟨length, repeats⟩ result done _
      obtain rfl := Except.ok.inj (answer.symm.trans done)
      refine placed_inj.mpr ⟨length, ?_⟩
      intro k below
      rw [isOpen.bytes k (by omega)]
      exact repeats k (length ▸ below)
  · exact iff_of_true
      (fun result done success => absurd (syshandlerRead_zero isOpen done success) accepted)
      (.inl accepted)

theorem drop_eq (contents : List UInt8) (offset : Nat) : contents.drop offset =
    (List.range (contents.length - offset)).map fun k => contents.getD (offset + k) 0 := by
  apply List.ext_getElem
  · simp
  · intro k inside _
    rw [List.length_drop] at inside
    rw [List.getElem_drop, List.getElem_map, List.getElem_range,
      List.getD_eq_getElem _ _ (by omega)]

theorem readPieces_iff (isOpen : OpenFile fs mem fuel (fd rsi) contents buf) {counts : List Nat}
    {offset : Nat} (whole : offset + counts.sum = contents.length) {got : List UInt8}
    (done : readPieces base view pgdir fs mem fuel fd rsi rdx offset counts = .ok (some got)) :
    got = contents.drop offset ↔
      ∀ piece ∈ piecesFrom offset counts, Repeats contents piece.1 piece.2 := by
  induction counts generalizing offset got with
  | nil =>
    obtain rfl := Option.some.inj (Outcome.pure_ok.mp done)
    have all : contents.length ≤ offset := by
      rw [← whole]
      exact Nat.le_refl _
    rw [List.drop_eq_nil_of_le all]
    exact iff_of_true rfl fun piece member => absurd member List.not_mem_nil
  | cons count rest inductionHypothesis =>
    rw [List.sum_cons] at whole
    have small := isOpen.small
    rw [uint64Max] at small
    have clamped : clampCount contents.length count offset = count := by
      rw [clampCount, if_neg (by omega)]
    rw [readPieces] at done
    obtain ⟨result, called, done⟩ := Outcome.bind_ok.mp done
    split at done
    · cases Outcome.pure_ok.mp done
    next success =>
      obtain ⟨later, read, done⟩ := Outcome.bind_ok.mp done
      obtain ⟨got', rfl, rfl⟩ := Option.map_eq_some_iff.mp (Outcome.pure_ok.mp done)
      have accepted := syshandlerRead_zero isOpen called (not_not.mp success)
      rw [syshandlerRead_accepted isOpen accepted, clamped] at called
      obtain rfl := Except.ok.inj called
      have rest_iff := inductionHypothesis (by omega) read
      -- The piece holds the start of the file.
      have piece : (placed rdx count buf).map Prod.snd =
          (List.range count).map fun k => contents.getD k 0 := by
        rw [placed, List.map_map]
        apply List.map_congr_left
        intro k member
        exact isOpen.bytes k (by have := List.mem_range.mp member; omega)
      have split : contents.drop offset =
          ((List.range count).map fun k => contents.getD (offset + k) 0) ++
            contents.drop (offset + count) := by
        have length : contents.length - offset =
            count + (contents.length - (offset + count)) := by omega
        rw [drop_eq, drop_eq, length, List.range_add, List.map_append, List.map_map]
        simp only [Function.comp_def, Nat.add_assoc]
      rw [piece, split, piecesFrom, List.forall_mem_cons, ← rest_iff]
      constructor
      · intro same
        obtain ⟨first, second⟩ := List.append_inj same (by simp)
        refine ⟨?_, second⟩
        intro k below
        exact List.map_inj_left.mp first k (List.mem_range.mpr below)
      · rintro ⟨repeats, rfl⟩
        refine congrArg (· ++ _) (List.map_congr_left ?_)
        exact fun k member => repeats k (List.mem_range.mp member)

theorem openFile_of_readsRight {path : List (List UInt8)} {i size : Nat}
    (found : fs.FindsRight path) (resolves : fs.Resolves 2 path i)
    (file : fs.RegularFile (fs.inode i) size) (right : fs.ReadsRight path (fs.inode i) size)
    (small : size < 2 ^ 32) (noHigh : fs.extendedFieldsAvailable = false) (mem : Ext2Memory) :
    ∃ fuel buf, OpenFile fs mem fuel ⟨true, Ext2Driver.absolute path⟩
      ((List.range size).map (fs.fileByte (fs.inode i))) buf := by
  obtain ⟨buf, returns, same⟩ := right mem
  obtain ⟨least, read⟩ := returns
  obtain ⟨least', measured⟩ := found.size resolves file.type mem
  refine ⟨least + least', buf, rfl, ?_, read _ (by omega), ?_, ?_⟩
  · have low := file.low
    rw [Nat.mod_eq_of_lt small] at low
    refine (measured _ (by omega)).trans (congrArg Except.ok ?_)
    rw [Ext2Driver.ext2GetFileSize, if_neg (not_not_intro file.type), noHigh, ← low]
    simp
  · intro k below
    rw [List.length_map, List.length_range] at below
    rw [same k below, List.getD_eq_getElem _ _ (by simpa using below), List.getElem_map,
      List.getElem_range]
  · rw [List.length_map, List.length_range, uint64Max]
    omega

/-- A call answers rightly if and only if a piece is refused, so that it fails, or the offset
is inside the file and what is asked for is the same as the start of the file; and reading in
pieces yields the file only if all pieces are. -/
theorem syshandlerRead_right_iff (isOpen : OpenFile fs mem fuel (fd rsi) contents buf) :
    (∀ rdx rcx r8, rcx < 2 ^ 64 → r8 < 2 ^ 64 →
      (AnswersRight base view pgdir fs mem fuel fd rsi rdx rcx r8 contents ↔
        ¬Accepted base view pgdir rdx (clampCount contents.length rcx r8) ∨
          r8 ≤ contents.length ∧ r8 + rcx < 2 ^ 64 ∧
            Repeats contents r8 (min (r8 + rcx) contents.length - r8))) ∧
      ∀ rdx counts got, counts.sum = contents.length →
        readPieces base view pgdir fs mem fuel fd rsi rdx 0 counts = .ok (some got) →
        (got = contents ↔ ∀ piece ∈ piecesFrom 0 counts, Repeats contents piece.1 piece.2) := by
  constructor
  · intro rdx rcx r8 count offset
    exact answersRight_iff isOpen count offset
  · intro rdx counts got whole done
    have start : 0 + counts.sum = contents.length := by rw [Nat.zero_add, whole]
    exact readPieces_iff isOpen start done

end Right

def greeting : List UInt8 :=
  (List.range 1024).map (Ext2Driver.smallImage.fileByte (Ext2Driver.smallImage.inode 6))

def onePage : ThreadPagetables :=
  match (ThreadPagetables.create 0x100000).map4kbPageUser 0x100000 0x400000 0x5000 1 0 with
  | .ok pgdir => pgdir
  | .error _ => .zero

def quietView : View := ⟨fun _ _ => 0#64, fun _ => false⟩

def greetingFd : Nat → FileDescriptor := fun _ => ⟨true, Ext2Driver.absolute [[104]]⟩

theorem greeting_open : ∃ fuel buf, OpenFile Ext2Driver.smallImage Ext2Driver.smallImage.hostile
    fuel (greetingFd 0) greeting buf := by
  obtain ⟨-, found, resolves⟩ := Ext2Driver.smallImage_files
  have file := Ext2Driver.smallImage_oneBlock
  have right := file.readsRight Ext2Driver.smallImage_wellFormed found resolves
    Ext2Driver.smallImage_oneBlock_direct
  exact openFile_of_readsRight found resolves file right (by decide) rfl _

theorem syshandlerRead_right_iff_start : ∃ fuel, AnswersRight 0x100000 quietView onePage
    Ext2Driver.smallImage Ext2Driver.smallImage.hostile fuel
    greetingFd 0 0x400000 2 0 greeting := by
  obtain ⟨fuel, buf, isOpen⟩ := greeting_open
  refine ⟨fuel, ((syshandlerRead_right_iff isOpen).1 0x400000 2 0 (by decide) (by decide)).mpr
    (.inr ⟨Nat.zero_le _, by decide, ?_⟩)⟩
  intro k _
  rw [Nat.zero_add]

/-- Reading one byte at offset 1 returns 0 and the byte at offset 0. -/
theorem offset_ignored : ∃ fuel buf, OpenFile Ext2Driver.smallImage Ext2Driver.smallImage.hostile
      fuel (greetingFd 0) greeting buf ∧ greeting.getD 1 0 = 105 ∧
    syshandlerRead 0x100000 quietView onePage Ext2Driver.smallImage Ext2Driver.smallImage.hostile
      fuel greetingFd 0 0x400000 1 1 =
        .ok ⟨0, none, [(0x400000, 104)]⟩ := by
  obtain ⟨fuel, buf, isOpen⟩ := greeting_open
  refine ⟨fuel, buf, isOpen, by decide +kernel, ?_⟩
  have length : greeting.length = 1024 := by simp [greeting]
  have count : clampCount greeting.length 1 1 = 1 := by
    rw [length]
    decide
  have accepted : Accepted 0x100000 quietView onePage 0x400000 1 := by
    intro j inside
    obtain rfl : j = 0 := by omega
    rw [PieceAccepted]
    decide +kernel
  have first : greeting.getD 0 0 = 104 := by decide +kernel
  rw [syshandlerRead_accepted isOpen (count.symm ▸ accepted), count, placed, List.range_one,
    List.map_singleton, isOpen.bytes 0 (by omega), first]
  rfl

end SwagOS.Kernel
