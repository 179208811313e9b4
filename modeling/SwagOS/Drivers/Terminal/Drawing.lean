import SwagOS.Drivers.Terminal

/-!
# Drawing

`drivers/terminal.c` with its accesses to the buffer and what it draws, and the functions of
`drivers/video.c` that draw.  Numbers have 32 bits.  The session logs what the calls do, in
order; colours are left out.
-/

namespace SwagOS.Drivers

open SwagOS.Lib

/-- An access to `terminal_buf`, or a call of a function that draws. -/
inductive TerminalEffect where
  | read (i : Nat)
  | write (i : Nat)
  /-- `clear_screen` -/
  | clear
  /-- `draw_character` -/
  | character (x y key : Nat)
  /-- `draw_cursor_loc` -/
  | cursor (x y : Nat)
  deriving DecidableEq, Repr

def charCodeToFontcode (c : UInt8) : Nat := (c - 32).toNat

namespace Terminal

variable (driver : Terminal)

/-- `terminal_buf_location_to_xpixel` -/
def xPixel : Nat := driver.bufferWriteLocation * 16 % 2 ^ 32 % driver.maxX

/-- `terminal_buf_location_to_ypixel` -/
def yPixel : Nat :=
  16 * ((driver.bufferWriteLocation * 16 % 2 ^ 32 + 2 ^ 32 - driver.xPixel) % 2 ^ 32) % 2 ^ 32 /
    driver.maxX

/-- `init_terminal`, with what `kalloc` returns for the buffer. -/
def initTerminal (width height : Nat) (buf : Bytes) : Terminal where
  maxX := width
  terminalBuf := buf
  terminalBufSize := width * height % 2 ^ 32 / (16 * 16)
  bufferWriteLocation := 0

/-- `buffer_write_location = location` -/
def moveTo (location : Nat) : Terminal := { driver with bufferWriteLocation := location }

/-- The write location is in the buffer or right behind it, and the numbers are small. -/
structure Sized : Prop where
  row : 0 < driver.rowSize
  inside : driver.bufferWriteLocation ≤ driver.terminalBufSize
  small : driver.terminalBufSize + driver.rowSize < 2 ^ 32

end Terminal

/-- The terminal with what was done so far. -/
structure TerminalSession where
  driver : Terminal
  log : List TerminalEffect

namespace TerminalSession

variable (s : TerminalSession)

def emit (effect : TerminalEffect) : TerminalSession := { s with log := s.log ++ [effect] }

def moveTo (location : Nat) : TerminalSession := { s with driver := s.driver.moveTo location }

/-- `terminal_buf[i] = c` -/
def writeBuf (i : Nat) (c : UInt8) : TerminalSession where
  driver := { s.driver with terminalBuf := Function.update s.driver.terminalBuf i c }
  log := s.log ++ [.write i]

/-- `terminal_buf[j] = terminal_buf[i]` -/
def copyBuf (i j : Nat) : TerminalSession := (s.emit (.read i)).writeBuf j (s.driver.terminalBuf i)

def terminalScrollDown : TerminalSession :=
  let row := s.driver.rowSize
  let size := s.driver.terminalBufSize
  let s := (List.range' row (size - row)).foldl (fun s i => s.copyBuf i (i - row)) s
  let s := (List.range row).foldl (fun s i => s.writeBuf ((size + 2 ^ 32 - i - 1) % 2 ^ 32) 32) s
  s.moveTo ((size + 2 ^ 32 - row) % 2 ^ 32)

/-- `draw_character` at the place of the write location. -/
def drawCharacter (key : Nat) : TerminalSession :=
  s.emit (.character s.driver.xPixel s.driver.yPixel key)

def drawCursorLoc : TerminalSession := s.emit (.cursor s.driver.xPixel s.driver.yPixel)

def terminalReset : TerminalSession := (s.emit .clear).moveTo 0

/-- The body of the loop of `terminal_print_buffer`, with the step of the loop variable. -/
def printCell : TerminalSession :=
  let location := s.driver.bufferWriteLocation
  ((s.emit (.read location)).drawCharacter (charCodeToFontcode (s.driver.terminalBuf location))).moveTo
    ((location + 1) % 2 ^ 32)

/-- The loop of `terminal_print_buffer`.  It ends where the write location was. -/
def printCells (ogWriteLoc : Nat) : Nat → TerminalSession → TerminalSession
  | 0, s => s
  | left + 1, s =>
      if s.driver.bufferWriteLocation < ogWriteLoc then printCells ogWriteLoc left s.printCell else s

def terminalPrintBuffer : TerminalSession :=
  let ogWriteLoc := s.driver.bufferWriteLocation
  printCells ogWriteLoc ogWriteLoc ((s.emit .clear).moveTo 0)

def whiteoutCurLoc : TerminalSession := s.drawCharacter (charCodeToFontcode 32)

def handleEndline : TerminalSession :=
  let s := s.whiteoutCurLoc
  let location := s.driver.bufferWriteLocation
  s.moveTo ((location + (s.driver.rowSize - location % s.driver.rowSize)) % 2 ^ 32)

/-- `terminal_buf[buffer_write_location] = c; buffer_write_location++` -/
def store (c : UInt8) : TerminalSession :=
  let location := s.driver.bufferWriteLocation
  (s.writeBuf location c).moveTo ((location + 1) % 2 ^ 32)

def terminalWriteChar (c : UInt8) : TerminalSession :=
  if c = 10 then
    let s := s.handleEndline
    if s.driver.bufferWriteLocation ≥ s.driver.terminalBufSize then
      s.terminalScrollDown.terminalPrintBuffer.drawCursorLoc
    else s
  else if c = 8 then
    if s.driver.bufferWriteLocation = 0 then s
    else (s.whiteoutCurLoc.moveTo (s.driver.bufferWriteLocation - 1)).drawCursorLoc
  else if s.driver.bufferWriteLocation ≥ s.driver.terminalBufSize then
    (s.terminalScrollDown.store c).terminalPrintBuffer.drawCursorLoc
  else ((s.drawCharacter (charCodeToFontcode c)).store c).drawCursorLoc

end TerminalSession

inductive TerminalCall where
  | writeChar (c : UInt8)
  | reset
  deriving DecidableEq, Repr

namespace TerminalSession

def perform (s : TerminalSession) : TerminalCall → TerminalSession
  | .writeChar c => s.terminalWriteChar c
  | .reset => s.terminalReset

def start (width height : Nat) (buf : Bytes) : TerminalSession := ⟨.initTerminal width height buf, []⟩

section Fields

variable {s : TerminalSession} {effect : TerminalEffect} {i location key : Nat} {c : UInt8}

@[simp] theorem emit_driver : (s.emit effect).driver = s.driver := rfl

@[simp] theorem emit_log : (s.emit effect).log = s.log ++ [effect] := rfl

@[simp] theorem moveTo_driver : (s.moveTo location).driver = s.driver.moveTo location := rfl

@[simp] theorem moveTo_log : (s.moveTo location).log = s.log := rfl

@[simp] theorem drawCharacter_driver : (s.drawCharacter key).driver = s.driver := rfl

@[simp] theorem drawCursorLoc_driver : s.drawCursorLoc.driver = s.driver := rfl

@[simp] theorem whiteoutCurLoc_driver : s.whiteoutCurLoc.driver = s.driver := rfl

@[simp] theorem printCell_driver : s.printCell.driver =
    s.driver.moveTo ((s.driver.bufferWriteLocation + 1) % 2 ^ 32) := rfl

end Fields

/-- The accesses of `terminal_scroll_down` to the buffer. -/
def scrollAccesses (driver : Terminal) : List TerminalEffect :=
  (List.range' driver.rowSize (driver.terminalBufSize - driver.rowSize)).flatMap
      (fun i => [.read i, .write (i - driver.rowSize)]) ++
    (List.range driver.rowSize).map fun i => .write (driver.terminalBufSize - i - 1)

theorem copyRows_eq (s : TerminalSession) (row n : Nat) :
    (List.range' row n).foldl (fun s i => s.copyBuf i (i - row)) s =
      ⟨{ s.driver with
          terminalBuf := fun j =>
            if j < n then s.driver.terminalBuf (j + row) else s.driver.terminalBuf j },
        s.log ++ (List.range' row n).flatMap fun i => [.read i, .write (i - row)]⟩ := by
  induction n with
  | zero =>
    rw [List.range'_zero, List.flatMap_nil, List.append_nil]
    rfl
  | succ n inductionHypothesis =>
    have notMoved : ¬row + n < n := by omega
    have index : row + n - row = n := by omega
    rw [List.range'_1_concat, List.foldl_append, inductionHypothesis, List.flatMap_append,
      List.foldl_cons, List.foldl_nil, copyBuf, writeBuf, index]
    dsimp only [emit]
    rw [if_neg notMoved, List.append_assoc, List.append_assoc]
    congr 2
    · funext j
      rw [Function.update_apply]
      split
      next same => rw [same, if_pos (Nat.lt_succ_self n), Nat.add_comm]
      next other =>
        have same : j < n + 1 ↔ j < n := by omega
        simp only [same]
    · rw [List.flatMap_singleton, index]
      rfl

theorem clearRow_eq (s : TerminalSession) {size n : Nat} (inside : n ≤ size)
    (small : size < 2 ^ 32) :
    (List.range n).foldl (fun s i => s.writeBuf ((size + 2 ^ 32 - i - 1) % 2 ^ 32) 32) s =
      ⟨{ s.driver with
          terminalBuf := fun j =>
            if size - n ≤ j ∧ j < size then 32 else s.driver.terminalBuf j },
        s.log ++ (List.range n).map fun i => .write (size - i - 1)⟩ := by
  induction n with
  | zero =>
    have none : ∀ j, ¬(size - 0 ≤ j ∧ j < size) := by omega
    simp only [none, if_false, List.range_zero, List.map_nil, List.append_nil]
    rfl
  | succ n inductionHypothesis =>
    have index : (size + 2 ^ 32 - n - 1) % 2 ^ 32 = size - n - 1 := by omega
    rw [List.range_succ, List.foldl_append, inductionHypothesis (Nat.le_of_succ_le inside),
      List.map_append, List.foldl_cons, List.foldl_nil, writeBuf, index]
    dsimp only
    rw [List.append_assoc]
    congr 2
    funext j
    rw [Function.update_apply]
    split
    next same =>
      rw [if_pos]
      omega
    next other =>
      have same : size - (n + 1) ≤ j ∧ j < size ↔ size - n ≤ j ∧ j < size := by omega
      simp only [same]

theorem terminalScrollDown_eq (s : TerminalSession)
    (fits : s.driver.rowSize ≤ s.driver.terminalBufSize) (small : s.driver.terminalBufSize < 2 ^ 32) :
    s.terminalScrollDown = ⟨s.driver.scrollDown, s.log ++ scrollAccesses s.driver⟩ := by
  have location : (s.driver.terminalBufSize + 2 ^ 32 - s.driver.rowSize) % 2 ^ 32 =
      s.driver.terminalBufSize - s.driver.rowSize := by
    omega
  rw [terminalScrollDown, copyRows_eq, clearRow_eq _ fits small, location, moveTo, Terminal.moveTo,
    Terminal.scrollDown, scrollAccesses, List.append_assoc]
  congr 2
  funext j
  have moved : j < s.driver.terminalBufSize - s.driver.rowSize ↔
      j + s.driver.rowSize < s.driver.terminalBufSize := by
    omega
  simp only [moved]

def cellEffects (driver : Terminal) (i : Nat) : List TerminalEffect :=
  [.read i, .character (driver.moveTo i).xPixel (driver.moveTo i).yPixel
    (charCodeToFontcode (driver.terminalBuf i))]

theorem printCells_eq (s : TerminalSession) {ogWriteLoc left : Nat} (small : ogWriteLoc < 2 ^ 32)
    (rest : s.driver.bufferWriteLocation + left = ogWriteLoc) :
    printCells ogWriteLoc left s = ⟨s.driver.moveTo ogWriteLoc,
      s.log ++ (List.range' s.driver.bufferWriteLocation left).flatMap (cellEffects s.driver)⟩ := by
  induction left generalizing s with
  | zero =>
    rw [Nat.add_zero] at rest
    rw [printCells, List.range'_zero, List.flatMap_nil, List.append_nil, ← rest]
    rfl
  | succ left inductionHypothesis =>
    have before : s.driver.bufferWriteLocation < ogWriteLoc := by omega
    have next : (s.driver.bufferWriteLocation + 1) % 2 ^ 32 = s.driver.bufferWriteLocation + 1 := by
      omega
    have first : s.printCell.log = s.log ++ cellEffects s.driver s.driver.bufferWriteLocation :=
      List.append_assoc s.log [_] [_]
    have rest' : s.printCell.driver.bufferWriteLocation + left = ogWriteLoc := by
      rw [printCell_driver, next]
      exact (Nat.add_right_comm _ 1 left).trans rest
    rw [printCells, if_pos before, inductionHypothesis s.printCell rest', printCell_driver, next,
      first, List.append_assoc, List.range'_succ, List.flatMap_cons]
    rfl

theorem terminalPrintBuffer_eq (s : TerminalSession) (small : s.driver.bufferWriteLocation < 2 ^ 32) :
    s.terminalPrintBuffer = ⟨s.driver, s.log ++ .clear ::
      (List.range s.driver.bufferWriteLocation).flatMap (cellEffects s.driver)⟩ := by
  rw [terminalPrintBuffer,
    printCells_eq _ small (by rw [moveTo_driver, Terminal.moveTo, Nat.zero_add]), moveTo_driver,
    moveTo_log, emit_log, List.append_assoc, List.range_eq_range']
  rfl

def cursorEffect (driver : Terminal) : TerminalEffect := .cursor driver.xPixel driver.yPixel

def whiteoutEffect (driver : Terminal) : TerminalEffect :=
  .character driver.xPixel driver.yPixel (charCodeToFontcode 32)

def redrawEffects (driver : Terminal) : List TerminalEffect :=
  .clear :: ((List.range driver.bufferWriteLocation).flatMap (cellEffects driver) ++
    [cursorEffect driver])

def Scrolls (driver : Terminal) (c : UInt8) : Prop :=
  if c = 10 then driver.terminalBufSize ≤ driver.handleEndline.bufferWriteLocation
  else c ≠ 8 ∧ driver.terminalBufSize ≤ driver.bufferWriteLocation

instance (driver : Terminal) (c : UInt8) : Decidable (Scrolls driver c) :=
  inferInstanceAs (Decidable (if c = 10 then _ else _ ∧ _))

/-- What writing a character makes of a terminal, and what it does. -/
inductive Writes (driver : Terminal) : UInt8 → Terminal → List TerminalEffect → Prop where
  | newline : driver.handleEndline.bufferWriteLocation < driver.terminalBufSize →
      Writes driver 10 driver.handleEndline [whiteoutEffect driver]
  | newlineScrolls : driver.terminalBufSize ≤ driver.handleEndline.bufferWriteLocation →
      Writes driver 10 driver.scrollDown
        (whiteoutEffect driver :: (scrollAccesses driver ++ redrawEffects driver.scrollDown))
  | backspaceFirst : driver.bufferWriteLocation = 0 → Writes driver 8 driver []
  | backspace : driver.bufferWriteLocation ≠ 0 →
      Writes driver 8 (driver.moveTo (driver.bufferWriteLocation - 1))
        [whiteoutEffect driver, cursorEffect (driver.moveTo (driver.bufferWriteLocation - 1))]
  | character {c : UInt8} : c ≠ 10 → c ≠ 8 → driver.bufferWriteLocation < driver.terminalBufSize →
      Writes driver c (driver.store c)
        [.character driver.xPixel driver.yPixel (charCodeToFontcode c),
          .write driver.bufferWriteLocation, cursorEffect (driver.store c)]
  | characterScrolls {c : UInt8} : c ≠ 10 → c ≠ 8 →
      driver.terminalBufSize ≤ driver.bufferWriteLocation →
      Writes driver c (driver.scrollDown.store c)
        (scrollAccesses driver ++ .write driver.scrollDown.bufferWriteLocation ::
          redrawEffects (driver.scrollDown.store c))

theorem redraw_eq (s : TerminalSession) (small : s.driver.bufferWriteLocation < 2 ^ 32) :
    s.terminalPrintBuffer.drawCursorLoc = ⟨s.driver, s.log ++ redrawEffects s.driver⟩ := by
  rw [terminalPrintBuffer_eq s small, drawCursorLoc, emit]
  dsimp only
  rw [redrawEffects, List.append_assoc]
  rfl

theorem store_eq (s : TerminalSession) (c : UInt8) (small : s.driver.bufferWriteLocation + 1 < 2 ^ 32) :
    s.store c = ⟨s.driver.store c, s.log ++ [.write s.driver.bufferWriteLocation]⟩ := by
  rw [store, Nat.mod_eq_of_lt small]
  rfl

/-- Writing a character, if it scrolls only where the buffer has a row. -/
theorem terminalWriteChar_writes (s : TerminalSession) (c : UInt8) (sized : s.driver.Sized)
    (fits : Scrolls s.driver c → s.driver.rowSize ≤ s.driver.terminalBufSize) :
    ∃ effects, s.terminalWriteChar c = ⟨s.driver.writeChar c, s.log ++ effects⟩ ∧
      Writes s.driver c (s.driver.writeChar c) effects := by
  obtain ⟨row, inside, small⟩ := sized
  have smallSize : s.driver.terminalBufSize < 2 ^ 32 := by omega
  have endline : (s.driver.bufferWriteLocation +
      (s.driver.rowSize - s.driver.bufferWriteLocation % s.driver.rowSize)) % 2 ^ 32 =
      s.driver.handleEndline.bufferWriteLocation := by
    apply Nat.mod_eq_of_lt
    omega
  have endlined : s.handleEndline = ⟨s.driver.handleEndline, s.log ++ [whiteoutEffect s.driver]⟩ := by
    rw [handleEndline, whiteoutCurLoc_driver, endline]
    rfl
  rw [terminalWriteChar, Terminal.writeChar]
  by_cases newline : c = 10
  · subst newline
    rw [if_pos rfl, if_pos rfl, endlined]
    dsimp only
    by_cases scrolls : s.driver.terminalBufSize ≤ s.driver.handleEndline.bufferWriteLocation
    · have scrolled : s.driver.handleEndline.bufferWriteLocation ≥
          s.driver.handleEndline.terminalBufSize := scrolls
      have fits : s.driver.rowSize ≤ s.driver.terminalBufSize := fits ((if_pos rfl).mpr scrolls)
      rw [if_pos scrolled, if_pos scrolled, terminalScrollDown_eq
        ⟨s.driver.handleEndline, s.log ++ [whiteoutEffect s.driver]⟩ fits smallSize,
        redraw_eq _ (Nat.lt_of_le_of_lt (Nat.sub_le _ _) smallSize)]
      refine ⟨_, ?_, .newlineScrolls scrolls⟩
      rw [List.append_assoc, List.append_assoc]
      rfl
    · have notScrolled : ¬s.driver.handleEndline.bufferWriteLocation ≥
          s.driver.handleEndline.terminalBufSize := scrolls
      rw [if_neg notScrolled, if_neg notScrolled]
      exact ⟨_, rfl, .newline (Nat.lt_of_not_le scrolls)⟩
  rw [if_neg newline, if_neg newline]
  by_cases backspace : c = 8
  · subst backspace
    rw [if_pos rfl, if_pos rfl]
    by_cases first : s.driver.bufferWriteLocation = 0
    · rw [if_pos first, if_pos first]
      refine ⟨[], ?_, .backspaceFirst first⟩
      rw [List.append_nil]
    · rw [if_neg first, if_neg first]
      refine ⟨_, ?_, .backspace first⟩
      exact congrArg _ (List.append_assoc s.log [_] [_])
  rw [if_neg backspace, if_neg backspace]
  by_cases scrolls : s.driver.terminalBufSize ≤ s.driver.bufferWriteLocation
  · have fits := fits ((if_neg newline).mpr ⟨backspace, scrolls⟩)
    have last : s.driver.scrollDown.bufferWriteLocation + 1 < 2 ^ 32 := by
      have location : s.driver.scrollDown.bufferWriteLocation =
        s.driver.terminalBufSize - s.driver.rowSize := rfl
      omega
    rw [if_pos scrolls, if_pos scrolls, terminalScrollDown_eq _ fits smallSize, store_eq _ c last,
      redraw_eq _ last]
    refine ⟨_, ?_, .characterScrolls newline backspace scrolls⟩
    rw [List.append_assoc, List.append_assoc, List.append_assoc]
    rfl
  · rw [if_neg scrolls, if_neg scrolls, store_eq _ c (by rw [drawCharacter_driver]; omega)]
    refine ⟨_, ?_, .character newline backspace (Nat.lt_of_not_le scrolls)⟩
    rw [drawCharacter, drawCursorLoc, emit, emit]
    dsimp only
    rw [List.append_assoc, List.append_assoc]
    rfl

end TerminalSession

end SwagOS.Drivers
