import SwagOS.Drivers.Terminal.Drawing
import SwagOS.Lib.Commands

/-!
# The screen of the terminal

The write location is a cell of the screen, and the cursor is drawn there.  A character in the
last cell moves it behind the screen.  On a screen of 2^32 pixels and more the buffer is
shorter than the screen, and may be shorter than a row, by which scrolling moves it.
-/

namespace SwagOS.Drivers

open SwagOS.Lib

def characterPixels (x y : Nat) : List (Nat × Nat) :=
  (List.range' x 8).flatMap fun i => (List.range' y 16).map fun j => (i, j)

/-- The calls of `set_pixel` in `draw_character` and `draw_cursor_loc`. -/
def TerminalEffect.pixels : TerminalEffect → List (Nat × Nat)
  | .character x y key => if key ≥ 97 then [] else characterPixels x y
  | .cursor x y => characterPixels x y
  | _ => []

def TerminalEffect.OnScreen (width height : Nat) (effect : TerminalEffect) : Prop :=
  ∀ pixel ∈ effect.pixels, pixel.1 < width ∧ pixel.2 < height

instance (width height : Nat) (effect : TerminalEffect) : Decidable (effect.OnScreen width height) :=
  inferInstanceAs (Decidable (∀ pixel ∈ effect.pixels, _))

theorem characterPixels_onScreen {x y width height : Nat} :
    (∀ pixel ∈ characterPixels x y, pixel.1 < width ∧ pixel.2 < height) ↔
      x + 8 ≤ width ∧ y + 16 ≤ height := by
  simp only [characterPixels, List.forall_mem_flatMap, List.forall_mem_map, List.mem_range'_1]
  constructor
  · intro inside
    have last := inside (x + 7) (by omega) (y + 15) (by omega)
    omega
  · rintro ⟨wide, high⟩ i column j line
    omega

/-- A cell of a screen whose rows have `columns` cells. -/
theorem cell_pixels (driver : Terminal) {columns : Nat} (positive : 0 < columns)
    (width : driver.maxX = 16 * columns) (small : driver.bufferWriteLocation < 2 ^ 24) :
    driver.xPixel = 16 * (driver.bufferWriteLocation % columns) ∧
      driver.yPixel = 16 * (driver.bufferWriteLocation / columns) := by
  have whole : driver.bufferWriteLocation * 16 % 2 ^ 32 = 16 * driver.bufferWriteLocation := by
    omega
  have x : driver.xPixel = 16 * (driver.bufferWriteLocation % columns) := by
    rw [Terminal.xPixel, whole, width, Nat.mul_mod_mul_left]
  refine ⟨x, ?_⟩
  rw [Terminal.yPixel, whole, x, width]
  have split := Nat.div_add_mod driver.bufferWriteLocation columns
  generalize driver.bufferWriteLocation = location at split small
  generalize location / columns = line at split
  generalize location % columns = column at split
  have row : (16 * location + 2 ^ 32 - 16 * column) % 2 ^ 32 = 16 * (columns * line) := by
    omega
  have pixels : 16 * (16 * (columns * line)) % 2 ^ 32 = 16 * columns * (16 * line) := by
    rw [Nat.mod_eq_of_lt (by omega), Nat.mul_mul_mul_comm 16 columns 16 line]
    omega
  rw [row, pixels, Nat.mul_div_cancel_left _ (Nat.mul_pos (by decide) positive)]

theorem cell_onScreen {driver : Terminal} {columns lines : Nat} (positive : 0 < columns)
    (width : driver.maxX = 16 * columns) (small : driver.bufferWriteLocation < 2 ^ 24) :
    (∀ pixel ∈ characterPixels driver.xPixel driver.yPixel,
      pixel.1 < 16 * columns ∧ pixel.2 < 16 * lines) ↔
      driver.bufferWriteLocation < columns * lines := by
  obtain ⟨x, y⟩ := cell_pixels driver positive width small
  have column := Nat.mod_lt driver.bufferWriteLocation positive
  rw [characterPixels_onScreen, x, y, Nat.mul_comm columns, ← Nat.div_lt_iff_lt_mul positive]
  omega

namespace TerminalSession

section Cells

variable {columns lines : Nat}

theorem cursorEffect_onScreen (driver : Terminal) (positive : 0 < columns)
    (width : driver.maxX = 16 * columns)
    (small : driver.bufferWriteLocation < 2 ^ 24) :
    (cursorEffect driver).OnScreen (16 * columns) (16 * lines) ↔
      driver.bufferWriteLocation < columns * lines :=
  cell_onScreen positive width small

theorem character_onScreen (driver : Terminal) (positive : 0 < columns)
    (width : driver.maxX = 16 * columns)
    (small : driver.bufferWriteLocation < 2 ^ 24)
    (inside : driver.bufferWriteLocation < columns * lines) (key : Nat) :
    (TerminalEffect.character driver.xPixel driver.yPixel key).OnScreen (16 * columns)
      (16 * lines) := by
  rw [TerminalEffect.OnScreen, TerminalEffect.pixels]
  split
  next => exact fun _ => nofun
  next => exact (cell_onScreen positive width small).mpr inside

theorem read_onScreen (i width height : Nat) : (TerminalEffect.read i).OnScreen width height :=
  fun _ => nofun

theorem write_onScreen (i width height : Nat) : (TerminalEffect.write i).OnScreen width height :=
  fun _ => nofun

theorem clear_onScreen (width height : Nat) : TerminalEffect.clear.OnScreen width height :=
  fun _ => nofun

theorem scrollAccesses_onScreen (driver : Terminal) (width height : Nat) :
    ∀ effect ∈ scrollAccesses driver, effect.OnScreen width height := by
  rw [scrollAccesses, List.forall_mem_append, List.forall_mem_flatMap, List.forall_mem_map]
  constructor
  · intro i _
    rw [List.forall_mem_cons, List.forall_mem_singleton]
    exact ⟨read_onScreen _ _ _, write_onScreen _ _ _⟩
  · exact fun i _ => write_onScreen _ _ _

theorem redrawEffects_onScreen (driver : Terminal) (positive : 0 < columns)
    (width : driver.maxX = 16 * columns)
    (small : driver.bufferWriteLocation < 2 ^ 24)
    (inside : driver.bufferWriteLocation < columns * lines) :
    ∀ effect ∈ redrawEffects driver, effect.OnScreen (16 * columns) (16 * lines) := by
  rw [redrawEffects, List.forall_mem_cons, List.forall_mem_append, List.forall_mem_flatMap,
    List.forall_mem_singleton]
  refine ⟨clear_onScreen _ _, ?_, (cursorEffect_onScreen driver positive width small).mpr inside⟩
  intro i before
  have before : i < driver.bufferWriteLocation := List.mem_range.mp before
  rw [cellEffects, List.forall_mem_cons, List.forall_mem_singleton]
  exact ⟨read_onScreen _ _ _, character_onScreen (driver.moveTo i) positive width
    (before.trans small) (before.trans inside) _⟩

end Cells

/-- The screen, and that the write location is one of its cells. -/
structure Inside (columns lines : Nat) (s : TerminalSession) : Prop where
  width : s.driver.maxX = 16 * columns
  size : s.driver.terminalBufSize = 16 * columns * (16 * lines) % 2 ^ 32 / 256
  location : s.driver.bufferWriteLocation ≤ s.driver.terminalBufSize
  cell : s.driver.bufferWriteLocation < columns * lines

def KeepsOnScreen (columns lines : Nat) (s : TerminalSession) : TerminalCall → Prop
  | .writeChar c =>
      (c ≠ 10 → c ≠ 8 → s.driver.bufferWriteLocation + 1 ≠ columns * lines) ∧
        (Scrolls s.driver c → s.driver.rowSize ≤ s.driver.terminalBufSize)
  | .reset => True

def DrawsOnScreen (columns lines : Nat) (s : TerminalSession) : Prop :=
  ∀ effect ∈ s.log, effect.OnScreen (16 * columns) (16 * lines)

instance (columns lines : Nat) (s : TerminalSession) : Decidable (s.DrawsOnScreen columns lines) :=
  inferInstanceAs (Decidable (∀ effect ∈ s.log, _))

section Run

variable {s : TerminalSession} {columns lines : Nat}

theorem Inside.start (wide : 0 < columns) (high : 0 < lines) (buf : Bytes) :
    (start (16 * columns) (16 * lines) buf).Inside columns lines where
  width := rfl
  size := rfl
  location := Nat.zero_le _
  cell := Nat.mul_pos wide high

/-- The buffer is no larger than the screen, and it has no more than 2^24 cells. -/
theorem Inside.size_le (inside : s.Inside columns lines) :
    s.driver.terminalBufSize ≤ columns * lines ∧ s.driver.terminalBufSize < 2 ^ 24 := by
  have cells : 16 * columns * (16 * lines) = 256 * (columns * lines) := by
    rw [Nat.mul_mul_mul_comm]
  rw [inside.size, cells]
  omega

theorem Inside.row (inside : s.Inside columns lines) : s.driver.rowSize = columns := by
  rw [Terminal.rowSize, inside.width]
  omega

theorem Inside.sized (wide : 0 < columns) (narrow : 16 * columns < 2 ^ 32)
    (inside : s.Inside columns lines) : s.driver.Sized := by
  have size := inside.size_le
  have row := inside.row
  refine ⟨?_, inside.location, ?_⟩
  · rw [row]
    exact wide
  · omega

theorem Inside.perform (wide : 0 < columns) (narrow : 16 * columns < 2 ^ 32)
    (inside : s.Inside columns lines) (draws : s.DrawsOnScreen columns lines) {call : TerminalCall}
    (keeps : s.KeepsOnScreen columns lines call) :
    (s.perform call).Inside columns lines ∧ (s.perform call).DrawsOnScreen columns lines := by
  have width := inside.width
  have size := inside.size_le
  have location := inside.location
  have cell := inside.cell
  have small : s.driver.bufferWriteLocation < 2 ^ 24 := by omega
  cases call with
  | reset =>
    refine ⟨⟨width, inside.size, Nat.zero_le _, ?_⟩, ?_⟩
    · exact Nat.lt_of_le_of_lt (Nat.zero_le _) cell
    · exact List.forall_mem_append.mpr ⟨draws, List.forall_mem_singleton.mpr (clear_onScreen _ _)⟩
  | writeChar c =>
    obtain ⟨notLast, fits⟩ := keeps
    have row := inside.row
    obtain ⟨effects, done, writes⟩ := terminalWriteChar_writes s c (inside.sized wide narrow) fits
    have drawn : (∀ effect ∈ effects, effect.OnScreen (16 * columns) (16 * lines)) →
        (s.perform (.writeChar c)).DrawsOnScreen columns lines := by
      intro onScreen
      rw [TerminalSession.perform, done]
      exact List.forall_mem_append.mpr ⟨draws, onScreen⟩
    have here : (whiteoutEffect s.driver).OnScreen (16 * columns) (16 * lines) :=
      character_onScreen s.driver wide width small cell _
    have final : (s.perform (.writeChar c)).driver = s.driver.writeChar c := by
      rw [TerminalSession.perform, done]
    generalize s.driver.writeChar c = driver' at writes final
    -- The terminal afterwards has the same sizes.
    have after : driver'.maxX = s.driver.maxX → driver'.terminalBufSize = s.driver.terminalBufSize →
        driver'.bufferWriteLocation ≤ s.driver.terminalBufSize →
        driver'.bufferWriteLocation < columns * lines →
        (s.perform (.writeChar c)).Inside columns lines := by
      intro sameWidth sameSize below cell'
      rw [← final] at sameWidth sameSize below cell'
      exact ⟨sameWidth.trans width, sameSize.trans inside.size, sameSize ▸ below, cell'⟩
    cases writes with
    | newline before =>
      refine ⟨after rfl rfl (Nat.le_of_lt before) (Nat.lt_of_lt_of_le before size.1), drawn ?_⟩
      exact List.forall_mem_singleton.mpr here
    | newlineScrolls behind =>
      have fits := fits ((if_pos rfl).mpr behind)
      have scrolled : s.driver.scrollDown.bufferWriteLocation < s.driver.terminalBufSize := by
        show s.driver.terminalBufSize - s.driver.rowSize < s.driver.terminalBufSize
        omega
      have below : s.driver.scrollDown.bufferWriteLocation < columns * lines :=
        Nat.lt_of_lt_of_le scrolled size.1
      refine ⟨after rfl rfl (Nat.le_of_lt scrolled) below, drawn ?_⟩
      rw [List.forall_mem_cons, List.forall_mem_append]
      exact ⟨here, scrollAccesses_onScreen _ _ _,
        redrawEffects_onScreen _ wide width (scrolled.trans size.2) below⟩
    | backspaceFirst first =>
      exact ⟨after rfl rfl location cell, drawn fun _ => nofun⟩
    | backspace notFirst =>
      have below : s.driver.bufferWriteLocation - 1 < columns * lines := by omega
      have small' : s.driver.bufferWriteLocation - 1 < 2 ^ 24 := by omega
      refine ⟨after rfl rfl ((Nat.sub_le _ _).trans location) below, drawn ?_⟩
      rw [List.forall_mem_cons, List.forall_mem_singleton]
      exact ⟨here, (cursorEffect_onScreen (s.driver.moveTo (s.driver.bufferWriteLocation - 1)) wide
        width small').mpr below⟩
    | character newline backspace before =>
      have notLast := notLast newline backspace
      have below : s.driver.bufferWriteLocation + 1 < columns * lines := by omega
      have small' : s.driver.bufferWriteLocation + 1 < 2 ^ 24 := by omega
      refine ⟨after rfl rfl before below, drawn ?_⟩
      rw [List.forall_mem_cons, List.forall_mem_cons, List.forall_mem_singleton]
      exact ⟨character_onScreen s.driver wide width small cell _, write_onScreen _ _ _,
        (cursorEffect_onScreen (s.driver.store c) wide width small').mpr below⟩
    | characterScrolls newline backspace behind =>
      have fits := fits ((if_neg newline).mpr ⟨backspace, behind⟩)
      have scrolled : s.driver.scrollDown.bufferWriteLocation + 1 ≤ s.driver.terminalBufSize := by
        show s.driver.terminalBufSize - s.driver.rowSize + 1 ≤ s.driver.terminalBufSize
        omega
      -- The buffer is shorter than the screen.
      have below : s.driver.scrollDown.bufferWriteLocation + 1 < columns * lines := by omega
      have small' : s.driver.scrollDown.bufferWriteLocation + 1 < 2 ^ 24 := by omega
      refine ⟨after rfl rfl scrolled below, drawn ?_⟩
      rw [List.forall_mem_append, List.forall_mem_cons]
      exact ⟨scrollAccesses_onScreen _ _ _, write_onScreen _ _ _,
        redrawEffects_onScreen _ wide width small' below⟩

/-- On a screen of fewer than 2^32 pixels, only the calls that are allowed stay on it. -/
theorem Inside.allowed (wide : 0 < columns) (high : 0 < lines)
    (product : 16 * columns * (16 * lines) < 2 ^ 32) (inside : s.Inside columns lines)
    {call : TerminalCall} (draws : (s.perform call).DrawsOnScreen columns lines) :
    s.KeepsOnScreen columns lines call := by
  have cells : 16 * columns * (16 * lines) = 256 * (columns * lines) := by
    rw [Nat.mul_mul_mul_comm]
  have row := inside.row
  have more : columns ≤ columns * lines := Nat.le_mul_of_pos_right columns high
  have size : s.driver.terminalBufSize = columns * lines := by
    rw [inside.size, cells]
    omega
  have location := inside.location
  have cell := inside.cell
  have fits : s.driver.rowSize ≤ s.driver.terminalBufSize := by omega
  cases call with
  | reset => trivial
  | writeChar c =>
    refine ⟨?_, fun _ => fits⟩
    intro newline backspace last
    obtain ⟨effects, done, writes⟩ := terminalWriteChar_writes s c
      (inside.sized wide (by omega)) fun _ => fits
    rw [TerminalSession.perform, done] at draws
    obtain ⟨-, drawn⟩ := List.forall_mem_append.mp draws
    generalize s.driver.writeChar c = driver' at writes
    cases writes with
    | newline _ => exact newline rfl
    | newlineScrolls _ => exact newline rfl
    | backspaceFirst _ => exact backspace rfl
    | backspace _ => exact backspace rfl
    | characterScrolls _ _ behind => omega
    | character _ _ before =>
      have small : s.driver.bufferWriteLocation + 1 < 2 ^ 24 := by omega
      have cursor := drawn (cursorEffect (s.driver.store c)) (by simp)
      have below : s.driver.bufferWriteLocation + 1 < columns * lines :=
        (cursorEffect_onScreen (s.driver.store c) wide inside.width small).mp cursor
      omega

end Run

/-- A run draws on the screen alone if its calls are allowed; on a screen of fewer than 2^32
pixels, only then. -/
theorem drawing_onScreen {columns lines : Nat} (wide : 0 < columns) (high : 0 < lines)
    (narrow : 16 * columns < 2 ^ 32) (buf : Bytes) (calls : List TerminalCall) :
    let s := start (16 * columns) (16 * lines) buf
    (AllowedRun perform (KeepsOnScreen columns lines) s calls →
      (calls.foldl perform s).DrawsOnScreen columns lines) ∧
    (16 * columns * (16 * lines) < 2 ^ 32 →
      ((∀ before, before <+: calls → (before.foldl perform s).DrawsOnScreen columns lines) ↔
        AllowedRun perform (KeepsOnScreen columns lines) s calls)) := by
  have inside := Inside.start wide high buf
  have draws : (start (16 * columns) (16 * lines) buf).DrawsOnScreen columns lines := fun _ => nofun
  constructor
  · intro run
    exact (run.invariant (P := fun s => s.Inside columns lines ∧ s.DrawsOnScreen columns lines)
      (fun _ _ holds keeps => holds.1.perform wide narrow holds.2 keeps) ⟨inside, draws⟩).2
  · intro product
    apply allowedRun_iff (Inside columns lines) (DrawsOnScreen columns lines) (fun _ => True) _ _
      inside draws fun _ _ => trivial
    · exact fun _ _ inside draws _ keeps => (inside.perform wide narrow draws keeps).1
    · intro s call inside draws _
      exact ⟨inside.allowed wide high product,
        fun keeps => (inside.perform wide narrow draws keeps).2⟩

theorem drawing_onScreen_small :
    ([.writeChar 97, .writeChar 10].foldl perform (start 16 48 fun _ => 32)).DrawsOnScreen 1 3 := by
  apply (drawing_onScreen (by decide) (by decide) (by decide) _ _).1
  refine ⟨⟨fun _ _ => by decide, fun scrolls => ?_⟩, ⟨fun newline => absurd rfl newline, ?_⟩, trivial⟩
  · exact absurd scrolls (by decide)
  · exact fun _ => by decide

/-- On a screen of one cell the cursor behind a character is not on it. -/
theorem cursor_notOnScreen : ¬∀ (columns lines : Nat) (buf : Bytes) (calls : List TerminalCall),
    0 < columns → 0 < lines →
      (calls.foldl perform (start (16 * columns) (16 * lines) buf)).DrawsOnScreen columns lines := by
  intro onScreen
  have draws := onScreen 1 1 (fun _ => 32) [.writeChar 97] (by decide) (by decide)
  exact absurd draws (by decide +kernel)

end TerminalSession

end SwagOS.Drivers
