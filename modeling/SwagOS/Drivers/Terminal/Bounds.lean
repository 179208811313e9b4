import SwagOS.Drivers.Terminal.Drawing

/-!
# The buffer of the terminal

Every access to the buffer is inside it, whatever is written: the write location is never
behind its end when a call returns, and scrolling leaves it a row before the end.
-/

namespace SwagOS.Drivers

open SwagOS.Lib

def TerminalEffect.InBuffer (size : Nat) : TerminalEffect → Prop
  | .read i => i < size
  | .write i => i < size
  | _ => True

namespace TerminalSession

section Effects

variable {driver driver' : Terminal} {size : Nat} {c : UInt8} {effects : List TerminalEffect}

theorem cellEffects_inBuffer {i : Nat} (inside : i < size) :
    ∀ effect ∈ cellEffects driver i, effect.InBuffer size := by
  rw [cellEffects, List.forall_mem_cons, List.forall_mem_singleton]
  exact ⟨inside, trivial⟩

theorem redrawEffects_inBuffer (inside : driver.bufferWriteLocation ≤ size) :
    ∀ effect ∈ redrawEffects driver, effect.InBuffer size := by
  rw [redrawEffects, List.forall_mem_cons, List.forall_mem_append, List.forall_mem_flatMap,
    List.forall_mem_singleton]
  refine ⟨trivial, ?_, trivial⟩
  intro i before
  exact cellEffects_inBuffer (Nat.lt_of_lt_of_le (List.mem_range.mp before) inside)

theorem scrollAccesses_inBuffer (fits : driver.rowSize ≤ driver.terminalBufSize) :
    ∀ effect ∈ scrollAccesses driver, effect.InBuffer driver.terminalBufSize := by
  rw [scrollAccesses, List.forall_mem_append, List.forall_mem_flatMap, List.forall_mem_map]
  constructor
  · intro i moved
    obtain ⟨-, behind⟩ := List.mem_range'_1.mp moved
    rw [List.forall_mem_cons, List.forall_mem_singleton]
    constructor
    · show i < driver.terminalBufSize
      omega
    · show i - driver.rowSize < driver.terminalBufSize
      omega
  · intro i last
    have inRow := List.mem_range.mp last
    show driver.terminalBufSize - i - 1 < driver.terminalBufSize
    omega

theorem Writes.inBuffer (wellFormed : driver.WellFormed) (writes : Writes driver c driver' effects) :
    ∀ effect ∈ effects, effect.InBuffer driver.terminalBufSize := by
  have scrolled : driver.scrollDown.bufferWriteLocation < driver.terminalBufSize :=
    wellFormed.scrollDown
  have accesses := scrollAccesses_inBuffer wellFormed.fits
  cases writes with
  | newline _ => exact List.forall_mem_singleton.mpr trivial
  | newlineScrolls _ =>
    rw [List.forall_mem_cons, List.forall_mem_append]
    exact ⟨trivial, accesses, redrawEffects_inBuffer (Nat.le_of_lt scrolled)⟩
  | backspaceFirst _ => exact fun _ => nofun
  | backspace _ =>
    rw [List.forall_mem_cons, List.forall_mem_singleton]
    exact ⟨trivial, trivial⟩
  | character _ _ inside =>
    rw [List.forall_mem_cons, List.forall_mem_cons, List.forall_mem_singleton]
    exact ⟨trivial, inside, trivial⟩
  | characterScrolls _ _ _ =>
    rw [List.forall_mem_append, List.forall_mem_cons]
    exact ⟨accesses, scrolled, redrawEffects_inBuffer scrolled⟩

end Effects

/-- What holds after each call, for a terminal whose buffer has the size. -/
structure InBounds (n : Nat) (s : TerminalSession) : Prop where
  wellFormed : s.driver.WellFormed
  small : s.driver.terminalBufSize + s.driver.rowSize < 2 ^ 32
  size : s.driver.terminalBufSize = n
  log : ∀ effect ∈ s.log, effect.InBuffer n

section Run

variable {s : TerminalSession} {n width height : Nat}

theorem InBounds.start (wide : 16 ≤ width) (high : 16 ≤ height) (product : width * height < 2 ^ 32)
    (buf : Bytes) : InBounds (width * height / 256) (start width height buf) := by
  have whole : width * height % 2 ^ 32 = width * height := Nat.mod_eq_of_lt product
  have row : width * 16 ≤ width * height := Nat.mul_le_mul_left width high
  have fits : width / 16 ≤ width * height / 256 := by omega
  constructor
  case wellFormed =>
    constructor
    · show 0 < width / 16
      omega
    · show width / 16 ≤ width * height % 2 ^ 32 / 256
      rw [whole]
      exact fits
    · exact Nat.zero_le _
  case small =>
    show width * height % 2 ^ 32 / 256 + width / 16 < 2 ^ 32
    omega
  case size =>
    show width * height % 2 ^ 32 / 256 = width * height / 256
    rw [whole]
  case log => exact fun _ => nofun

theorem InBounds.terminalWriteChar (bounds : s.InBounds n) (c : UInt8) :
    (s.terminalWriteChar c).InBounds n := by
  obtain ⟨wellFormed, small, rfl, log⟩ := bounds
  obtain ⟨effects, done, writes⟩ := terminalWriteChar_writes s c
    ⟨wellFormed.row, wellFormed.inside, small⟩ fun _ => wellFormed.fits
  obtain ⟨keeps, after⟩ := wellFormed.writeChar c
  rw [done]
  constructor
  case wellFormed => exact after
  case small =>
    dsimp only
    rw [keeps.size, keeps.rowSize]
    exact small
  case size => exact keeps.size
  case log => exact List.forall_mem_append.mpr ⟨log, writes.inBuffer wellFormed⟩

theorem InBounds.perform (bounds : s.InBounds n) (call : TerminalCall) :
    (s.perform call).InBounds n := by
  cases call with
  | writeChar c => exact bounds.terminalWriteChar c
  | reset =>
    obtain ⟨⟨row, fits, -⟩, small, sized, log⟩ := bounds
    refine ⟨⟨row, fits, Nat.zero_le _⟩, small, sized, ?_⟩
    exact List.forall_mem_append.mpr ⟨log, List.forall_mem_singleton.mpr trivial⟩

theorem InBounds.run (bounds : s.InBounds n) (calls : List TerminalCall) :
    (calls.foldl TerminalSession.perform s).InBounds n := by
  induction calls generalizing s with
  | nil => exact bounds
  | cons call rest inductionHypothesis => exact inductionHypothesis (bounds.perform call)

end Run

/-- The terminal keeps to its buffer. -/
theorem terminal_insideBuffer {width height : Nat} (wide : 16 ≤ width) (high : 16 ≤ height)
    (product : width * height < 2 ^ 32) (buf : Bytes) (calls : List TerminalCall) :
    let s := calls.foldl perform (start width height buf)
    s.driver.terminalBufSize = width * height / 256 ∧
      s.driver.bufferWriteLocation ≤ s.driver.terminalBufSize ∧
      (∀ effect ∈ s.log, effect.InBuffer s.driver.terminalBufSize) ∧
      (∀ effect ∈ s.terminalPrintBuffer.log, effect.InBuffer s.driver.terminalBufSize) ∧
      ∀ t : TerminalSession, t.driver.bufferWriteLocation < 2 ^ 32 →
        t.terminalPrintBuffer.driver = t.driver := by
  obtain ⟨wellFormed, small, size, log⟩ := (InBounds.start wide high product buf).run calls
  have inside := wellFormed.inside
  dsimp only
  refine ⟨size, inside, ?_, ?_, ?_⟩
  · rw [size]
    exact log
  · rw [terminalPrintBuffer_eq _ (by omega), size]
    refine List.forall_mem_append.mpr ⟨log, List.forall_mem_cons.mpr ⟨trivial, ?_⟩⟩
    rw [List.forall_mem_flatMap]
    intro i before
    exact cellEffects_inBuffer
      (Nat.lt_of_lt_of_le (List.mem_range.mp before) (size ▸ inside))
  · intro t location
    rw [terminalPrintBuffer_eq t location]

theorem terminal_insideBuffer_small :
    let s := [.writeChar 97, .writeChar 10, .writeChar 98, .writeChar 10, .writeChar 99].foldl perform
      (start 24 32 fun _ => 0)
    s.driver.terminalBufSize = 24 * 32 / 256 ∧
      s.driver.bufferWriteLocation ≤ s.driver.terminalBufSize ∧
      (∀ effect ∈ s.log, effect.InBuffer s.driver.terminalBufSize) ∧
      (∀ effect ∈ s.terminalPrintBuffer.log, effect.InBuffer s.driver.terminalBufSize) ∧
      ∀ t : TerminalSession, t.driver.bufferWriteLocation < 2 ^ 32 →
        t.terminalPrintBuffer.driver = t.driver :=
  terminal_insideBuffer (by decide) (by decide) (by decide) _ _

end TerminalSession

end SwagOS.Drivers
