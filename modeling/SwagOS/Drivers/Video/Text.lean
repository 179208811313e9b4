import SwagOS.Drivers.Video.Display

/-!
# Reading the screen

The framebuffer shows what the session of the terminal has drawn.  Where a newline goes on over
spaces alone, the text of the buffer can be read off its pixels, cell by cell, as long as no
color in which characters were drawn is black.
-/

namespace SwagOS.Drivers

open SwagOS.Lib

def Framebuffer.lit (framebuffer : Framebuffer) (screen : Bytes) (x y : Nat) : Bool :=
  (List.range 3).any fun k => screen (framebuffer.getPixelIndex x y + k) != 0

def Framebuffer.readCell (framebuffer : Framebuffer) (columns : Nat) (screen : Bytes) (i : Nat) :
    UInt8 :=
  let x := 16 * (i % columns)
  let y := 16 * (i / columns)
  let code := (List.range 95).find? fun key =>
    (List.range 8).all fun column => (List.range 16).all fun row =>
      framebuffer.lit screen (x + column) (y + row) == glyphBit key column row
  32 + .ofNat (code.getD 95)

def Visible (color : BitVec 32) : Prop := ∃ k < 3, colorChannel color k ≠ 0

instance (color : BitVec 32) : Decidable (Visible color) := inferInstanceAs (Decidable (∃ k < 3, _))

namespace Display

/-- A newline goes on over spaces, as in `TerminalSession.SkipsSpaces`. -/
def SkipsSpaces (d : Display) : DisplayCall → Prop
  | .terminal call => d.session.SkipsSpaces call
  | .setColor _ _ _ => True

def Printable : DisplayCall → Prop
  | .terminal call => TerminalSession.Printable call
  | .setColor _ _ _ => True

/-- What the screen shows besides the cursor: the buffer up to the write location, and nothing from
there on. -/
def ShowsText (columns lines : Nat) (d : Display) : Prop :=
  d.session.ShowsText columns lines ∧ d.session.ShowsBuffer columns

theorem ShowsText.perform {framebuffer : Framebuffer} {columns lines : Nat} (wide : 0 < columns)
    (narrow : 16 * columns < 2 ^ 32) {d : Display} (text : d.ShowsText columns lines)
    {call : DisplayCall} (printable : Printable call) (skips : d.SkipsSpaces call) :
    (d.perform framebuffer call).ShowsText columns lines := by
  cases call with
  | setColor r g b => exact text
  | terminal call =>
    have fits : ∀ c, call = .writeChar c → TerminalSession.Scrolls d.session.driver c →
        d.session.driver.rowSize ≤ d.session.driver.terminalBufSize := by
      rintro c rfl
      exact skips.2
    obtain ⟨text', shows'⟩ := text.1.perform wide narrow text.2 printable fits
    exact ⟨text', shows'.mpr skips⟩

end Display

section Cell

variable {framebuffer : Framebuffer} {direct : framebuffer.Direct} {columns lines : Nat}
  {screen : Bytes} {shown : Screen} {tint : Tint}

theorem fontcode_printable {c : UInt8} (printable : 32 ≤ c ∧ c ≤ 126) :
    charCodeToFontcode c < 95 ∧ 32 + .ofNat (charCodeToFontcode c) = c := by
  obtain ⟨low, high⟩ := printable
  constructor
  · have tilde : c.toNat ≤ 126 := UInt8.le_iff_toNat_le.mp high
    have space : (32 : UInt8).toNat = 32 := rfl
    rw [charCodeToFontcode, UInt8.toNat_sub_of_le _ _ low]
    omega
  · rw [charCodeToFontcode, UInt8.ofNat_toNat, UInt8.add_comm, UInt8.sub_add_cancel]

theorem colorChannel_black (k : Nat) : colorChannel videoTerminalColor k = 0 := by
  rw [colorChannel, videoTerminalColor, BitVec.sshiftRight_eq_of_msb_false rfl]
  have shifted : (0 : BitVec 32) >>> (8 * k) = 0 := BitVec.zero_ushiftRight
  rw [shifted]
  rfl

theorem lit_iff {pixel : Nat × Nat} {picture : Nat × Nat → BitVec 32}
    (shows_ : direct.raster.Shows screen picture) (inside : direct.raster.Inside pixel) :
    framebuffer.lit screen pixel.1 pixel.2 = true ↔ Visible (picture pixel) := by
  have bytes : ∀ k < 3, screen (direct.raster.index pixel + k) = colorChannel (picture pixel) k :=
    shows_ pixel inside
  rw [Framebuffer.lit, direct.getPixelIndex_eq inside, List.any_eq_true, Visible]
  constructor
  · rintro ⟨k, member, other⟩
    have channel : k < 3 := List.mem_range.mp member
    rw [bytes k channel] at other
    exact ⟨k, channel, bne_iff_ne.mp other⟩
  · rintro ⟨k, channel, other⟩
    refine ⟨k, List.mem_range.mpr channel, bne_iff_ne.mpr ?_⟩
    rw [bytes k channel]
    exact other

theorem lit_glyph (wide : 0 < columns) (width : framebuffer.width = 16 * columns)
    (height : framebuffer.height = 16 * lines)
    (shows_ : direct.raster.Shows screen (shown.picture tint)) (visible : ∀ x y, Visible (tint x y))
    {i key : Nat} (cell : i < columns * lines)
    (glyph : TerminalSession.Screen.cell columns shown i = .glyph key)
    {column row : Nat} (inColumn : column < 8) (inRow : row < 16) :
    framebuffer.lit screen (16 * (i % columns) + column) (16 * (i / columns) + row) =
      glyphBit key column row := by
  have first := Nat.mod_lt i wide
  have line : i / columns < lines := Nat.div_lt_of_lt_mul cell
  have inside : direct.raster.Inside (16 * (i % columns) + column, 16 * (i / columns) + row) := by
    have widthEq : direct.raster.width = 16 * columns := width
    have heightEq : direct.raster.height = 16 * lines := height
    refine ⟨?_, ?_⟩
    · rw [widthEq]
      dsimp only
      omega
    · rw [heightEq]
      dsimp only
      omega
  have x : 16 * ((16 * (i % columns) + column) / 16) = 16 * (i % columns) := by omega
  have y : 16 * ((16 * (i / columns) + row) / 16) = 16 * (i / columns) := by omega
  have dx : (16 * (i % columns) + column) % 16 = column := by omega
  have dy : (16 * (i / columns) + row) % 16 = row := by omega
  have color : shown.picture tint (16 * (i % columns) + column, 16 * (i / columns) + row) =
      if glyphBit key column row then tint (16 * (i % columns)) (16 * (i / columns))
      else videoTerminalColor := by
    rw [Screen.picture]
    dsimp only
    rw [dx, dy, x, y, if_pos inColumn]
    exact congrArg (Shown.pixel _ column row) glyph
  rw [Bool.eq_iff_iff]
  refine (lit_iff shows_ inside).trans ?_
  rw [color]
  split
  next bit => exact iff_of_true (visible _ _) bit
  next noBit =>
    refine iff_of_false ?_ noBit
    rintro ⟨k, -, other⟩
    exact other (colorChannel_black k)

theorem readCell_glyph (wide : 0 < columns) (width : framebuffer.width = 16 * columns)
    (height : framebuffer.height = 16 * lines)
    (shows_ : direct.raster.Shows screen (shown.picture tint)) (visible : ∀ x y, Visible (tint x y))
    {i key : Nat} (cell : i < columns * lines) (known : key < 95)
    (glyph : TerminalSession.Screen.cell columns shown i = .glyph key) :
    framebuffer.readCell columns screen i = 32 + .ofNat key := by
  have pixels : ∀ {column row : Nat}, column < 8 → row < 16 →
      framebuffer.lit screen (16 * (i % columns) + column) (16 * (i / columns) + row) =
        glyphBit key column row :=
    fun inColumn inRow => lit_glyph wide width height shows_ visible cell glyph inColumn inRow
  have agrees : ∀ key', ((List.range 8).all fun column => (List.range 16).all fun row =>
      framebuffer.lit screen (16 * (i % columns) + column) (16 * (i / columns) + row) ==
        glyphBit key' column row) = true ↔
      ∀ column < 8, ∀ row < 16, glyphBit key column row = glyphBit key' column row := by
    intro key'
    simp only [List.all_eq_true, List.mem_range, beq_iff_eq]
    refine forall₂_congr fun column inColumn => forall₂_congr fun row inRow => ?_
    rw [pixels inColumn inRow]
  rw [Framebuffer.readCell]
  have found : ((List.range 95).find? fun key' => (List.range 8).all fun column =>
      (List.range 16).all fun row =>
        framebuffer.lit screen (16 * (i % columns) + column) (16 * (i / columns) + row) ==
          glyphBit key' column row) = some key := by
    generalize search : (List.range 95).find? _ = result
    cases result with
    | none =>
      rw [List.find?_eq_none] at search
      exact absurd ((agrees key).mpr fun _ _ _ _ => rfl) (search key (List.mem_range.mpr known))
    | some key' =>
      have below := List.mem_range.mp (List.mem_of_find?_eq_some search)
      have same := List.find?_some search
      rw [glyphBit_injective known below ((agrees key').mp same)]
  rw [found]
  rfl

end Cell

namespace Display

section Runs

variable {framebuffer : Framebuffer} {columns lines : Nat}

/-- The screen is that of the framebuffer, and it has a cell. -/
structure Sized (framebuffer : Framebuffer) (columns lines : Nat) : Prop where
  wide : 0 < columns
  high : 0 < lines
  width : framebuffer.width = 16 * columns
  height : framebuffer.height = 16 * lines

/-- A framebuffer that is direct has fewer than 2^32 pixels. -/
theorem Sized.product (sized : Sized framebuffer columns lines) (direct : framebuffer.Direct) :
    16 * columns < 2 ^ 32 ∧ 16 * columns * (16 * lines) < 2 ^ 32 := by
  obtain ⟨wide, high, width, height⟩ := sized
  have row := direct.row
  rw [width] at row
  have enough : 3 * (16 * columns) ≤ framebuffer.pitch :=
    (Nat.mul_le_mul_right _ direct.channels).trans row
  have size := direct.size
  rw [height] at size
  have rows := (Nat.mul_le_mul_right (16 * lines) enough).trans size
  rw [Nat.mul_assoc] at rows
  have one : 16 * columns ≤ 16 * columns * (16 * lines) := Nat.le_mul_of_pos_right _ (by omega)
  have some_ : 0 < 16 * columns := by omega
  omega

theorem Showing.start (direct : framebuffer.Direct) (sized : Sized framebuffer columns lines)
    {P : BitVec 32 → Prop} (color : P ogColor) (buf : Bytes) {screen : Bytes}
    (blank : direct.raster.Shows screen fun _ => videoTerminalColor) :
    (Display.start framebuffer buf screen).Showing direct columns lines P screen := by
  obtain ⟨wide, high, width, height⟩ := sized
  refine ⟨?_, fun _ => nofun, color, ⟨fun _ _ => ogColor, fun _ _ => color, ?_⟩, fun _ _ => rfl⟩
  · rw [Display.start, width, height]
    exact .start wide high buf
  · have nothing : (Display.start framebuffer buf screen).session.shown = blankScreen := rfl
    rw [nothing, blankScreen_picture]
    exact blank

theorem mem_colors {calls : List DisplayCall} {call : DisplayCall} (member : call ∈ calls) :
    ∀ r g b, call = .setColor r g b → rgbColor r g b ∈ colors calls := by
  rintro r g b rfl
  exact List.mem_cons_of_mem _ (List.mem_filterMap.mpr ⟨_, member, rfl⟩)

theorem showing_run (direct : framebuffer.Direct) (sized : Sized framebuffer columns lines)
    (buf : Bytes) {screen : Bytes} (blank : direct.raster.Shows screen fun _ => videoTerminalColor)
    {calls : List DisplayCall} (run : AllowedRun (perform framebuffer) (KeepsOnScreen columns lines)
      (start framebuffer buf screen) calls) :
    (calls.foldl (perform framebuffer) (start framebuffer buf screen)).Showing direct columns lines
      (· ∈ colors calls) screen := by
  have narrow := (sized.product direct).1
  refine (run.usual fun call member => mem_colors member).invariant
    (P := fun d => d.Showing direct columns lines (· ∈ colors calls) screen) ?_
    (.start direct sized List.mem_cons_self buf blank)
  rintro d call showing ⟨keeps, colored⟩
  exact showing.perform sized.wide narrow sized.width sized.height keeps colored

/-- After calls that stay on the screen the framebuffer shows what the session has drawn, each
character in one of the colors, and not a byte beside the pixels was written. -/
theorem framebuffer_shows_session (direct : framebuffer.Direct)
    (sized : Sized framebuffer columns lines) (buf screen : Bytes)
    (blank : direct.raster.Shows screen fun _ => videoTerminalColor) (calls : List DisplayCall)
    (run : AllowedRun (perform framebuffer) (KeepsOnScreen columns lines)
      (start framebuffer buf screen) calls) :
    let d := calls.foldl (perform framebuffer) (start framebuffer buf screen)
    (∃ tint : Tint, (∀ x y, tint x y ∈ colors calls) ∧
      direct.raster.Shows d.screen (d.session.shown.picture tint)) ∧
    ∀ i, direct.Beside i → d.screen i = screen i := by
  have showing := showing_run direct sized buf blank run
  exact ⟨showing.shown, showing.beside⟩

def narrowFramebuffer : Framebuffer := ⟨48, 16, 48, 24⟩

theorem narrowFramebuffer_direct : narrowFramebuffer.Direct := ⟨by decide, by decide, by decide⟩

theorem narrowFramebuffer_sized : Sized narrowFramebuffer 1 3 := ⟨by decide, by decide, rfl, rfl⟩

theorem narrowFramebuffer_blank :
    narrowFramebuffer_direct.raster.Shows (fun _ => 0) fun _ => videoTerminalColor :=
  fun _ _ k _ => (colorChannel_black k).symm

theorem framebuffer_shows_session_letter :
    let d := [.terminal (.writeChar 97)].foldl (perform narrowFramebuffer)
      (start narrowFramebuffer (fun _ => 32) fun _ => 0)
    (∃ tint : Tint, (∀ x y, tint x y ∈ colors [.terminal (.writeChar 97)]) ∧
      narrowFramebuffer_direct.raster.Shows d.screen (d.session.shown.picture tint)) ∧
    ∀ i, narrowFramebuffer_direct.Beside i → d.screen i = 0 := by
  apply framebuffer_shows_session narrowFramebuffer_direct narrowFramebuffer_sized (fun _ => 32)
    (fun _ => 0) narrowFramebuffer_blank [.terminal (.writeChar 97)]
  exact ⟨⟨fun _ _ => by decide, fun scrolls => absurd scrolls (by decide)⟩, trivial⟩

/-- The text of the buffer can be read off the framebuffer, and behind the cursor nothing. -/
theorem framebuffer_text (direct : framebuffer.Direct) (sized : Sized framebuffer columns lines)
    (buf screen : Bytes) (spaces : ∀ i < columns * lines, buf i = 32)
    (blank : direct.raster.Shows screen fun _ => videoTerminalColor) (calls : List DisplayCall)
    (printable : ∀ call ∈ calls, Printable call) (visible : ∀ color ∈ colors calls, Visible color)
    (run : AllowedRun (perform framebuffer) (fun d call => d.KeepsOnScreen columns lines call ∧
      d.SkipsSpaces call) (start framebuffer buf screen) calls) :
    let d := calls.foldl (perform framebuffer) (start framebuffer buf screen)
    ∀ i < columns * lines, i ≠ d.session.driver.bufferWriteLocation →
      framebuffer.readCell columns d.screen i =
        if i < d.session.driver.bufferWriteLocation then d.session.driver.terminalBuf i else 32 := by
  intro d i cell notCursor
  obtain ⟨narrow, product⟩ := sized.product direct
  have cells : 16 * columns * (16 * lines) % 2 ^ 32 / 256 = columns * lines := by
    have squares : 16 * columns * (16 * lines) = 256 * (columns * lines) := by
      rw [Nat.mul_mul_mul_comm]
    omega
  have text : d.ShowsText columns lines := by
    refine (run.usual printable).invariant (P := Display.ShowsText columns lines) ?_ ⟨?_, ?_⟩
    · rintro d call text ⟨⟨-, skips⟩, printable⟩
      exact text.perform sized.wide narrow printable skips
    · rw [Display.start, sized.width, sized.height]
      refine .start fun i below => spaces i ?_
      rwa [cells] at below
    · exact fun i before => absurd before (Nat.not_lt_zero i)
  have keeps : AllowedRun (perform framebuffer) (KeepsOnScreen columns lines)
      (start framebuffer buf screen) calls := run.mono fun _ _ => And.left
  obtain ⟨tint, tinted, shows_⟩ := (showing_run direct sized buf blank keeps).shown
  have seen : ∀ x y, Visible (tint x y) := fun x y => visible _ (tinted x y)
  have size : d.session.driver.terminalBufSize = columns * lines := text.1.size.trans cells
  split
  next before =>
    have glyph := text.2 i before
    obtain ⟨code, read⟩ := fontcode_printable (text.1.text i (by omega))
    rw [readCell_glyph sized.wide sized.width sized.height shows_ seen cell code glyph, read]
  next behind =>
    have glyph := text.1.behind i (by omega)
    exact readCell_glyph sized.wide sized.width sized.height shows_ seen cell (by decide) glyph

theorem framebuffer_text_letter :
    narrowFramebuffer.readCell 1 ([.setColor 0 255 0, .terminal (.writeChar 97)].foldl
      (perform narrowFramebuffer)
      (start narrowFramebuffer (fun _ => 32) fun _ => 0)).screen 0 = 97 := by
  have visible : ∀ color ∈ colors [.setColor 0 255 0, .terminal (.writeChar 97)], Visible color :=
    List.forall_mem_cons.mpr ⟨by decide, List.forall_mem_singleton.mpr (by decide)⟩
  have printable : ∀ call ∈ [.setColor 0 255 0, .terminal (.writeChar 97)], Printable call :=
    List.forall_mem_cons.mpr ⟨trivial, List.forall_mem_singleton.mpr (.inr (.inr (by decide)))⟩
  refine (framebuffer_text narrowFramebuffer_direct narrowFramebuffer_sized (fun _ => 32)
    (fun _ => 0) (fun _ _ => rfl) narrowFramebuffer_blank _ printable visible ?_ 0 (by decide)
    (by decide)).trans (by decide)
  refine ⟨⟨trivial, trivial⟩, ⟨⟨fun _ _ => by decide, fun scrolls => ?_⟩,
    fun newline => absurd newline (by decide), fun scrolls => ?_⟩, trivial⟩
  · exact absurd scrolls (by decide)
  · exact absurd scrolls (by decide)

end Runs

end Display

end SwagOS.Drivers
