import SwagOS.Lib.Bytes
import SwagOS.Lib.Output

/-!
# The terminal

`drivers/terminal.c`: the buffer of the terminal and `printf`.  What is drawn to the
framebuffer is left out.

`printf` is taken with what it reads besides its arguments: the memory of the kernel for `%s`,
and what lies on the stack above the buffer in which a number is written.  The index into
that buffer has 16 bits; a number of more than 13 digits goes on at its other end.
-/

namespace SwagOS.Drivers

open SwagOS.Lib

/-- `TerminalState`, the fields of the buffer. -/
structure Terminal where
  maxX : Nat
  terminalBuf : Bytes
  terminalBufSize : Nat
  bufferWriteLocation : Nat

namespace Terminal

variable (driver : Terminal)

/-- `row_size_in_chars` -/
def rowSize : Nat := driver.maxX / 16

def scrollDown : Terminal :=
  let row := driver.rowSize
  let size := driver.terminalBufSize
  { driver with
    terminalBuf := fun i =>
      if size - row ≤ i ∧ i < size then 32
      else if i + row < size then driver.terminalBuf (i + row)
      else driver.terminalBuf i
    bufferWriteLocation := size - row }

def handleEndline : Terminal :=
  let location := driver.bufferWriteLocation
  { driver with
    bufferWriteLocation := location + (driver.rowSize - location % driver.rowSize) }

def store (c : UInt8) : Terminal :=
  { driver with
    terminalBuf := Function.update driver.terminalBuf driver.bufferWriteLocation c
    bufferWriteLocation := driver.bufferWriteLocation + 1 }

def writeChar (driver : Terminal) (c : UInt8) : Terminal :=
  if c = 10 then
    let driver := driver.handleEndline
    if driver.bufferWriteLocation ≥ driver.terminalBufSize then driver.scrollDown else driver
  else if c = 8 then
    if driver.bufferWriteLocation = 0 then driver
    else { driver with bufferWriteLocation := driver.bufferWriteLocation - 1 }
  else if driver.bufferWriteLocation ≥ driver.terminalBufSize then driver.scrollDown.store c
  else driver.store c

def print (written : List UInt8) : Terminal := written.foldl writeChar driver

def text : List UInt8 := driver.terminalBuf.slice 0 driver.bufferWriteLocation

/-- A row fits into the buffer, and the cursor is in it or right behind it. -/
structure WellFormed : Prop where
  row : 0 < driver.rowSize
  fits : driver.rowSize ≤ driver.terminalBufSize
  inside : driver.bufferWriteLocation ≤ driver.terminalBufSize

/-- The same terminal, with nothing changed outside of its buffer. -/
structure Keeps (driver driver' : Terminal) : Prop where
  maxX : driver'.maxX = driver.maxX
  size : driver'.terminalBufSize = driver.terminalBufSize
  outside : ∀ i, driver.terminalBufSize ≤ i → driver'.terminalBuf i = driver.terminalBuf i

end Terminal

section Numbers

/-- `terminal_print_string`; the index has 32 bits. -/
def terminalPrintString (read : Nat → Option UInt8) : Nat → Nat → Output UInt8
  | 0, _ => .stop (some .hang)
  | fuel + 1, str =>
      match read str with
      | none => .stop (some (.panic "Page Fault Interrupt"))
      | some c => if c = 0 then .stop none else (terminalPrintString read fuel (str + 1)).put [c]

def stringFuel : Nat := 2 ^ 32

/-- `(arg % 10) + '0'` -/
def digitChar (arg : Int) : UInt8 := UInt8.ofNat (48 + arg.tmod 10).toNat

/-- The local buffer of a number with the memory above it, and `buf_write_loc`. -/
structure NumberBuffer where
  location : Nat
  buf : Bytes
  /-- A character was written outside of the buffer. -/
  strayed : Bool

/-- `buf[buf_write_loc--] = c`; the index is an `uint16_t`. -/
def NumberBuffer.push (size : Nat) (c : UInt8) (b : NumberBuffer) : NumberBuffer where
  location := (b.location + (2 ^ 16 - 1)) % 2 ^ 16
  buf := Function.update b.buf b.location c
  strayed := b.strayed || decide (size ≤ b.location)

def writeDigits (size : Nat) : Nat → Int → NumberBuffer → NumberBuffer
  | 0, _, b => b
  | fuel + 1, arg, b =>
      if arg = 0 then b else writeDigits size fuel (arg.tdiv 10) (b.push size (digitChar arg))

def digitFuel : Nat := 20

/-- `terminal_print_string(&buf[buf_write_loc])` -/
def NumberBuffer.print (b : NumberBuffer) : Output UInt8 :=
  { terminalPrintString (fun p => some (b.buf p)) stringFuel b.location with strayed := b.strayed }

/-- `buf_write_loc++` -/
def NumberBuffer.next (b : NumberBuffer) : NumberBuffer :=
  { b with location := (b.location + 1) % 2 ^ 16 }

def handleFormatInt (stack : Bytes) (arg : BitVec 32) : Output UInt8 :=
  if arg = 0 then (Output.stop none).put [48]
  else
    let useNegative := arg.toInt < 0
    let arg := if useNegative then -arg else arg
    let b := writeDigits 13 digitFuel arg.toInt ⟨11, Function.update stack 12 0, false⟩
    if useNegative then
      { b with
        buf := Function.update b.buf b.location 45
        strayed := b.strayed || decide (13 ≤ b.location) : NumberBuffer }.print
    else b.next.print

def TooLong (arg : BitVec 64) : Prop := 10 ^ 13 ≤ arg.toInt.natAbs

instance (arg : BitVec 64) : Decidable (TooLong arg) := inferInstanceAs (Decidable (_ ≤ _))

def handleFormatLong (stack : Bytes) (arg : BitVec 64) : Output UInt8 :=
  if arg = 0 then (Output.stop none).put [48]
  else (writeDigits 14 digitFuel arg.toInt ⟨12, Function.update stack 13 0, false⟩).next.print

end Numbers

structure PrintMemory where
  kernel : Nat → Option UInt8
  stack : Bytes

/-- `printf`, with the arguments from the next one on.  After a `%` that starts no conversion
the next character is looked at again. -/
def printf (memory : PrintMemory) : Bool → (Nat → Nat) → List UInt8 → Output UInt8
  | _, _, [] => .stop none
  | percent, args, c :: rest =>
      if c = 0 then .stop none
      else if percent ∧ c = 100 then
        (handleFormatInt memory.stack (.ofNat 32 (args 0))).seq
          (printf memory false (fun i => args (i + 1)) rest)
      else if percent ∧ c = 117 then
        (handleFormatLong memory.stack (.ofNat 64 (args 0))).seq
          (printf memory false (fun i => args (i + 1)) rest)
      else if percent ∧ c = 115 then
        (terminalPrintString memory.kernel stringFuel (args 0)).seq
          (printf memory false (fun i => args (i + 1)) rest)
      else if c = 37 then printf memory true args rest
      else (printf memory false args rest).put [c]

namespace Terminal

variable {driver driver' driver'' : Terminal}

theorem Keeps.refl : driver.Keeps driver where
  maxX := rfl
  size := rfl
  outside _ _ := rfl

theorem Keeps.trans (first : driver.Keeps driver') (second : driver'.Keeps driver'') :
    driver.Keeps driver'' where
  maxX := second.maxX.trans first.maxX
  size := second.size.trans first.size
  outside i behind := (second.outside i (first.size.symm ▸ behind)).trans (first.outside i behind)

theorem Keeps.rowSize (keeps : driver.Keeps driver') : driver'.rowSize = driver.rowSize := by
  unfold Terminal.rowSize
  rw [keeps.maxX]

theorem scrollDown_keeps (driver : Terminal) : driver.Keeps driver.scrollDown where
  maxX := rfl
  size := rfl
  outside := by
    intro i behind
    have notLast : ¬(driver.terminalBufSize - driver.rowSize ≤ i ∧ i < driver.terminalBufSize) := by
      omega
    have notMoved : ¬i + driver.rowSize < driver.terminalBufSize := by omega
    exact (if_neg notLast).trans (if_neg notMoved)

theorem store_keeps (c : UInt8) (inside : driver.bufferWriteLocation < driver.terminalBufSize) :
    driver.Keeps (driver.store c) where
  maxX := rfl
  size := rfl
  outside := by
    intro i behind
    have apart : i ≠ driver.bufferWriteLocation := by omega
    exact Function.update_of_ne apart c driver.terminalBuf

theorem WellFormed.scrollDown (wellFormed : driver.WellFormed) :
    driver.scrollDown.bufferWriteLocation < driver.scrollDown.terminalBufSize := by
  have row := wellFormed.row
  have fits := wellFormed.fits
  change driver.terminalBufSize - driver.rowSize < driver.terminalBufSize
  omega

/-- A character is written inside the buffer, and the cursor stays there. -/
theorem WellFormed.writeChar (wellFormed : driver.WellFormed) (c : UInt8) :
    driver.Keeps (driver.writeChar c) ∧ (driver.writeChar c).WellFormed := by
  have scrolled := wellFormed.scrollDown
  have kept : ∀ {after : Terminal}, driver.Keeps after →
      after.bufferWriteLocation ≤ driver.terminalBufSize →
        driver.Keeps after ∧ after.WellFormed := by
    intro after keeps inside
    refine ⟨keeps, ?_, ?_, ?_⟩
    · rw [keeps.rowSize]
      exact wellFormed.row
    · rw [keeps.rowSize, keeps.size]
      exact wellFormed.fits
    · rw [keeps.size]
      exact inside
  unfold Terminal.writeChar
  split
  · dsimp only
    split
    next behind =>
      -- The last row of the buffer, whatever the row before.
      have endline : driver.Keeps driver.handleEndline := ⟨rfl, rfl, fun _ _ => rfl⟩
      exact kept (endline.trans (scrollDown_keeps driver.handleEndline)) (Nat.sub_le _ _)
    next inside =>
      exact kept ⟨rfl, rfl, fun _ _ => rfl⟩ (Nat.le_of_not_le inside)
  · split
    · split
      · exact ⟨.refl, wellFormed⟩
      · exact kept ⟨rfl, rfl, fun _ _ => rfl⟩ (Nat.le_trans (Nat.sub_le _ _) wellFormed.inside)
    · split
      next full =>
        exact kept ((scrollDown_keeps driver).trans (store_keeps c scrolled)) scrolled
      next inside =>
        exact kept (store_keeps c (Nat.lt_of_not_le inside)) (Nat.lt_of_not_le inside)

theorem WellFormed.print (wellFormed : driver.WellFormed) (written : List UInt8) :
    driver.Keeps (driver.print written) ∧ (driver.print written).WellFormed := by
  induction written generalizing driver with
  | nil => exact ⟨.refl, wellFormed⟩
  | cons c rest inductionHypothesis =>
    obtain ⟨keeps, after⟩ := wellFormed.writeChar c
    obtain ⟨keeps', last⟩ := inductionHypothesis after
    exact ⟨keeps.trans keeps', last⟩

end Terminal

end SwagOS.Drivers
