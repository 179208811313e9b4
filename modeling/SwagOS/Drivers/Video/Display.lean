import SwagOS.Drivers.Terminal.Redraw
import SwagOS.Drivers.Video

/-!
# The terminal in the framebuffer

What the calls of `drivers/terminal.c` write to the memory of the framebuffer, with the color
that `printf` draws characters in.  A call draws what the session logs for it.  Cells have 16 by
16 pixels, of which a character takes 8 columns.
-/

namespace SwagOS.Drivers

open SwagOS.Lib

/-- A call that changes the terminal, or `terminal_set_color`. -/
inductive DisplayCall where
  | terminal (call : TerminalCall)
  | setColor (r g b : BitVec 8)
  deriving DecidableEq, Repr

/-- The terminal, its color, and the memory of the framebuffer. -/
structure Display where
  session : TerminalSession
  color : BitVec 32
  screen : Bytes

/-- What the functions of `video.c` do to the framebuffer. -/
def TerminalEffect.draw (framebuffer : Framebuffer) (color : BitVec 32) (screen : Bytes) :
    TerminalEffect → Bytes
  | .clear => framebuffer.clearScreen 0 0 0 screen
  | .character x y key => framebuffer.drawCharacter x y color key screen
  | .cursor x y => framebuffer.drawCursorLoc x y screen
  | _ => screen

namespace Display

def ogColor : BitVec 32 := rgbColor 0xaa 0x61 0x3e

/-- After `init_terminal`, which leaves the screen as it is. -/
def start (framebuffer : Framebuffer) (buf screen : Bytes) : Display :=
  ⟨.start framebuffer.width framebuffer.height buf, ogColor, screen⟩

def perform (framebuffer : Framebuffer) (d : Display) : DisplayCall → Display
  | .terminal call =>
      let session := d.session.perform call
      let effects := session.log.drop d.session.log.length
      ⟨session, d.color, effects.foldl (TerminalEffect.draw framebuffer d.color) d.screen⟩
  | .setColor r g b => { d with color := rgbColor r g b }

def colors (calls : List DisplayCall) : List (BitVec 32) :=
  ogColor :: calls.filterMap fun
    | .setColor r g b => some (rgbColor r g b)
    | .terminal _ => none

def KeepsOnScreen (columns lines : Nat) (d : Display) : DisplayCall → Prop
  | .terminal call => d.session.KeepsOnScreen columns lines call
  | .setColor _ _ _ => True

end Display

abbrev Tint := Nat → Nat → BitVec 32

def TerminalEffect.tint (color : BitVec 32) (tint : Tint) : TerminalEffect → Tint
  | .character x y key =>
      if key ≥ 97 then tint else fun x' y' => if x' = x ∧ y' = y then color else tint x' y'
  | _ => tint

def Shown.pixel (color : BitVec 32) (column row : Nat) : Shown → BitVec 32
  | .glyph key => if glyphBit key column row then color else videoTerminalColor
  | .cursor => ~~~videoTerminalColor

def Screen.picture (screen : Screen) (tint : Tint) (pixel : Nat × Nat) : BitVec 32 :=
  let x := 16 * (pixel.1 / 16)
  let y := 16 * (pixel.2 / 16)
  if pixel.1 % 16 < 8 then (screen x y).pixel (tint x y) (pixel.1 % 16) (pixel.2 % 16)
  else videoTerminalColor

def TerminalEffect.InCell : TerminalEffect → Prop
  | .character x y _ => x % 16 = 0 ∧ y % 16 = 0
  | .cursor x y => x % 16 = 0 ∧ y % 16 = 0
  | _ => True

theorem blankScreen_picture (tint : Tint) :
    blankScreen.picture tint = fun _ => videoTerminalColor := by
  funext pixel
  rw [Screen.picture]
  split
  next inside =>
    have blank := glyphBit_space (pixel.2 % 16) (Nat.mod_lt _ (by decide)) (pixel.1 % 16) inside
    rw [blankScreen, Shown.pixel, blank]
    rfl
  next => rfl

theorem mem_cellPixels {x y : Nat} (aligned : x % 16 = 0 ∧ y % 16 = 0) (pixel : Nat × Nat) :
    pixel ∈ characterPixels x y ↔
      (16 * (pixel.1 / 16) = x ∧ 16 * (pixel.2 / 16) = y) ∧ pixel.1 % 16 < 8 := by
  rw [Framebuffer.Direct.mem_characterPixels]
  omega

theorem picture_draw {x y : Nat} (aligned : x % 16 = 0 ∧ y % 16 = 0) (screen : Screen) (tint : Tint)
    (shown : Shown) (color : BitVec 32) (pixel : Nat × Nat) :
    (screen.draw x y shown).picture (fun x' y' => if x' = x ∧ y' = y then color else tint x' y') pixel =
      if pixel ∈ characterPixels x y then shown.pixel color (pixel.1 - x) (pixel.2 - y)
      else screen.picture tint pixel := by
  simp only [mem_cellPixels aligned, Screen.picture, Screen.draw]
  by_cases here : 16 * (pixel.1 / 16) = x ∧ 16 * (pixel.2 / 16) = y
  · have column : pixel.1 - x = pixel.1 % 16 := by omega
    have row : pixel.2 - y = pixel.2 % 16 := by omega
    simp only [here, and_self, true_and, if_true, column, row]
    split <;> rfl
  · simp only [here, false_and, if_false]

section Draw

variable {framebuffer : Framebuffer} {direct : framebuffer.Direct} {screen : Bytes} {shown : Screen}
  {tint : Tint}

/-- One effect on the screen: the framebuffer goes on to show what the screen shows. -/
theorem shows_draw {effect : TerminalEffect}
    (shows_ : direct.raster.Shows screen (shown.picture tint)) (inCell : effect.InCell)
    (onScreen : effect.OnScreen framebuffer.width framebuffer.height) (color : BitVec 32) :
    direct.raster.Shows (effect.draw framebuffer color screen)
      ((effect.show shown).picture (effect.tint color tint)) := by
  cases effect with
  | read i => exact shows_
  | write i => exact shows_
  | clear =>
    refine (direct.shows_clearScreen 0 0 0 shows_).congr fun pixel _ => ?_
    rw [TerminalEffect.show, blankScreen_picture]
    rfl
  | character x y key =>
    by_cases known : key ≥ 97
    · rw [TerminalEffect.draw, Framebuffer.drawCharacter, TerminalEffect.show, TerminalEffect.tint,
        if_pos known, if_pos known, if_pos known]
      exact shows_
    · have inside : ∀ pixel ∈ characterPixels x y, direct.raster.Inside pixel := by
        rw [TerminalEffect.OnScreen, TerminalEffect.pixels, if_neg known] at onScreen
        exact onScreen
      refine (direct.shows_drawCharacter shows_ (Nat.lt_of_not_le known) inside color).congr
        fun pixel _ => ?_
      rw [TerminalEffect.show, TerminalEffect.tint, if_neg known, if_neg known, picture_draw inCell]
      rfl
  | cursor x y =>
    refine (direct.shows_drawCursorLoc shows_ onScreen).congr fun pixel _ => ?_
    have same : tint = fun x' y' => if x' = x ∧ y' = y then tint x y else tint x' y' := by
      funext x' y'
      split
      next here => rw [here.1, here.2]
      next => rfl
    have kept : TerminalEffect.tint color tint (.cursor x y) = tint := rfl
    rw [TerminalEffect.show, kept, same, picture_draw inCell, ← same]
    rfl

theorem shows_drawAll {effects : List TerminalEffect}
    (shows_ : direct.raster.Shows screen (shown.picture tint))
    (inCell : ∀ effect ∈ effects, effect.InCell)
    (onScreen : ∀ effect ∈ effects, effect.OnScreen framebuffer.width framebuffer.height)
    (color : BitVec 32) :
    direct.raster.Shows (effects.foldl (TerminalEffect.draw framebuffer color) screen)
      ((effects.foldl TerminalEffect.show shown).picture
        (effects.foldl (TerminalEffect.tint color) tint)) := by
  induction effects generalizing screen shown tint with
  | nil => exact shows_
  | cons effect rest inductionHypothesis =>
    obtain ⟨cell, cells⟩ := List.forall_mem_cons.mp inCell
    obtain ⟨here, later⟩ := List.forall_mem_cons.mp onScreen
    exact inductionHypothesis (shows_draw shows_ cell here color) cells later

def Framebuffer.Direct.Beside (direct : framebuffer.Direct) (i : Nat) : Prop :=
  ∀ pixel, direct.raster.Inside pixel →
    i < direct.raster.index pixel ∨ direct.raster.index pixel + 3 ≤ i

theorem draw_beside {effect : TerminalEffect} {i : Nat} (beside : direct.Beside i)
    (onScreen : effect.OnScreen framebuffer.width framebuffer.height) (color : BitVec 32) :
    effect.draw framebuffer color screen i = screen i := by
  have painted : ∀ {pixels : List (Nat × Nat)} (color : Nat × Nat → BitVec 32),
      (∀ pixel ∈ pixels, direct.raster.Inside pixel) →
        framebuffer.setPixels pixels color screen i = screen i := by
    intro pixels color inside
    rw [direct.setPixels_eq inside]
    exact Raster.paintAll_outside inside beside color
  cases effect with
  | read i => rfl
  | write i => rfl
  | clear => exact painted _ fun pixel member => Framebuffer.Direct.mem_screenPixels.mp member
  | character x y key =>
    rw [TerminalEffect.draw, Framebuffer.drawCharacter]
    split
    next => rfl
    next known =>
      rw [TerminalEffect.OnScreen, TerminalEffect.pixels, if_neg known] at onScreen
      exact painted _ onScreen
  | cursor x y => exact painted _ onScreen

theorem drawAll_beside {effects : List TerminalEffect} {i : Nat} (beside : direct.Beside i)
    (onScreen : ∀ effect ∈ effects, effect.OnScreen framebuffer.width framebuffer.height)
    (color : BitVec 32) :
    effects.foldl (TerminalEffect.draw framebuffer color) screen i = screen i := by
  induction effects generalizing screen with
  | nil => rfl
  | cons effect rest inductionHypothesis =>
    obtain ⟨here, later⟩ := List.forall_mem_cons.mp onScreen
    exact (inductionHypothesis later).trans (draw_beside beside here color)

theorem foldl_tint {P : BitVec 32 → Prop} {color : BitVec 32} (current : P color)
    (before : ∀ x y, P (tint x y)) (effects : List TerminalEffect) :
    ∀ x y, P (effects.foldl (TerminalEffect.tint color) tint x y) := by
  induction effects generalizing tint with
  | nil => exact before
  | cons effect rest inductionHypothesis =>
    apply inductionHypothesis
    intro x y
    cases effect with
    | character x' y' key =>
      rw [TerminalEffect.tint]
      split
      next => exact before x y
      next =>
        dsimp only
        split
        next => exact current
        next => exact before x y
    | _ => exact before x y

end Draw

section Cells

variable {columns lines : Nat}

theorem pixels_inCell (driver : Terminal) (wide : 0 < columns) (width : driver.maxX = 16 * columns)
    (small : driver.bufferWriteLocation < 2 ^ 24) :
    driver.xPixel % 16 = 0 ∧ driver.yPixel % 16 = 0 := by
  obtain ⟨x, y⟩ := cell_pixels driver wide width small
  rw [x, y]
  exact ⟨Nat.mul_mod_right _ _, Nat.mul_mod_right _ _⟩

theorem scrollAccesses_inCell (driver : Terminal) :
    ∀ effect ∈ TerminalSession.scrollAccesses driver, effect.InCell := by
  rw [TerminalSession.scrollAccesses, List.forall_mem_append, List.forall_mem_flatMap,
    List.forall_mem_map]
  constructor
  · intro i _
    rw [List.forall_mem_cons, List.forall_mem_singleton]
    exact ⟨trivial, trivial⟩
  · exact fun i _ => trivial

theorem redrawEffects_inCell (driver : Terminal) (wide : 0 < columns)
    (width : driver.maxX = 16 * columns) (small : driver.bufferWriteLocation < 2 ^ 24) :
    ∀ effect ∈ TerminalSession.redrawEffects driver, effect.InCell := by
  rw [TerminalSession.redrawEffects, List.forall_mem_cons, List.forall_mem_append,
    List.forall_mem_flatMap, List.forall_mem_singleton]
  refine ⟨trivial, fun i before => ?_, pixels_inCell driver wide width small⟩
  have before : i < driver.bufferWriteLocation := List.mem_range.mp before
  rw [TerminalSession.cellEffects, List.forall_mem_cons, List.forall_mem_singleton]
  exact ⟨trivial, pixels_inCell (driver.moveTo i) wide width (before.trans small)⟩

theorem writes_inCell {driver driver' : Terminal} {c : UInt8} {effects : List TerminalEffect}
    (wide : 0 < columns) (width : driver.maxX = 16 * columns)
    (location : driver.bufferWriteLocation ≤ driver.terminalBufSize)
    (size : driver.terminalBufSize < 2 ^ 24)
    (fits : TerminalSession.Scrolls driver c → driver.rowSize ≤ driver.terminalBufSize)
    (row : 0 < driver.rowSize) (writes : TerminalSession.Writes driver c driver' effects) :
    ∀ effect ∈ effects, effect.InCell := by
  have here := pixels_inCell driver wide width (Nat.lt_of_le_of_lt location size)
  cases writes with
  | newline _ => exact List.forall_mem_singleton.mpr here
  | newlineScrolls behind =>
    have fits := fits ((if_pos rfl).mpr behind)
    have small : driver.scrollDown.bufferWriteLocation < 2 ^ 24 :=
      Nat.lt_of_le_of_lt (Nat.sub_le _ _) size
    rw [List.forall_mem_cons, List.forall_mem_append]
    exact ⟨here, scrollAccesses_inCell driver, redrawEffects_inCell _ wide width small⟩
  | backspaceFirst _ => exact fun _ => nofun
  | backspace _ =>
    have small : driver.bufferWriteLocation - 1 < 2 ^ 24 := by omega
    rw [List.forall_mem_cons, List.forall_mem_singleton]
    exact ⟨here, pixels_inCell (driver.moveTo _) wide width small⟩
  | character _ _ before =>
    have small : driver.bufferWriteLocation + 1 < 2 ^ 24 := by omega
    rw [List.forall_mem_cons, List.forall_mem_cons, List.forall_mem_singleton]
    exact ⟨here, trivial, pixels_inCell (driver.store c) wide width small⟩
  | characterScrolls newline backspace behind =>
    have fits := fits ((if_neg newline).mpr ⟨backspace, behind⟩)
    have small : driver.terminalBufSize - driver.rowSize + 1 < 2 ^ 24 := by omega
    rw [List.forall_mem_append, List.forall_mem_cons]
    exact ⟨scrollAccesses_inCell driver, trivial,
      redrawEffects_inCell (driver.scrollDown.store c) wide width small⟩

end Cells

namespace Display

variable {framebuffer : Framebuffer} {direct : framebuffer.Direct} {columns lines : Nat}

/-- The session draws on the screen alone, and the framebuffer shows what it has drawn, in some of
the colors; beside the pixels the memory is as it was. -/
structure Showing (direct : framebuffer.Direct) (columns lines : Nat) (P : BitVec 32 → Prop)
    (before : Bytes) (d : Display) : Prop where
  inside : d.session.Inside columns lines
  draws : d.session.DrawsOnScreen columns lines
  color : P d.color
  shown : ∃ tint : Tint, (∀ x y, P (tint x y)) ∧
    direct.raster.Shows d.screen (d.session.shown.picture tint)
  beside : ∀ i, direct.Beside i → d.screen i = before i

theorem perform_log (wide : 0 < columns) (narrow : 16 * columns < 2 ^ 32) {s : TerminalSession}
    (inside : s.Inside columns lines) {call : TerminalCall}
    (keeps : s.KeepsOnScreen columns lines call) :
    ∃ effects, (s.perform call).log = s.log ++ effects ∧ ∀ effect ∈ effects, effect.InCell := by
  cases call with
  | reset => exact ⟨[.clear], rfl, List.forall_mem_singleton.mpr trivial⟩
  | writeChar c =>
    have sized := inside.sized wide narrow
    obtain ⟨effects, done, writes⟩ := TerminalSession.terminalWriteChar_writes s c sized keeps.2
    refine ⟨effects, congrArg TerminalSession.log done, ?_⟩
    exact writes_inCell wide inside.width inside.location inside.size_le.2 keeps.2 sized.row writes

theorem Showing.perform {P : BitVec 32 → Prop} {before : Bytes} {d : Display} (wide : 0 < columns)
    (narrow : 16 * columns < 2 ^ 32) (width : framebuffer.width = 16 * columns)
    (height : framebuffer.height = 16 * lines) (showing : d.Showing direct columns lines P before)
    {call : DisplayCall} (keeps : d.KeepsOnScreen columns lines call)
    (colored : ∀ r g b, call = .setColor r g b → P (rgbColor r g b)) :
    (d.perform framebuffer call).Showing direct columns lines P before := by
  obtain ⟨inside, draws, color, ⟨tint, tinted, shows_⟩, beside⟩ := showing
  cases call with
  | setColor r g b => exact ⟨inside, draws, colored r g b rfl, ⟨tint, tinted, shows_⟩, beside⟩
  | terminal call =>
    obtain ⟨inside', draws'⟩ := inside.perform wide narrow draws keeps
    obtain ⟨effects, log, inCell⟩ := perform_log wide narrow inside keeps
    have onScreen : ∀ effect ∈ effects, effect.OnScreen framebuffer.width framebuffer.height := by
      rw [TerminalSession.DrawsOnScreen, log, ← width, ← height] at draws'
      exact (List.forall_mem_append.mp draws').2
    have screen : (d.perform framebuffer (.terminal call)).screen =
        effects.foldl (TerminalEffect.draw framebuffer d.color) d.screen := by
      rw [Display.perform, log, List.drop_left]
    have shown : (d.session.perform call).shown =
        effects.foldl TerminalEffect.show d.session.shown := by
      rw [TerminalSession.shown, log, List.foldl_append]
      rfl
    refine ⟨inside', draws', color, ⟨effects.foldl (TerminalEffect.tint d.color) tint, ?_, ?_⟩, ?_⟩
    · exact foldl_tint color tinted effects
    · rw [screen]
      have after := shows_drawAll shows_ inCell onScreen d.color
      rw [← shown] at after
      exact after
    · intro i outside
      rw [screen, drawAll_beside outside onScreen, beside i outside]

end Display

end SwagOS.Drivers
