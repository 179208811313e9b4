import SwagOS.Drivers.Terminal.OnScreen

/-!
# What the screen shows

Characters are drawn when they are written, and all of them again from the buffer when the
terminal scrolls.  Stepping back and resetting leave the buffer as it is, and a newline goes on
over cells of the buffer that the screen does not show.
-/

namespace SwagOS.Drivers

open SwagOS.Lib

inductive Shown where
  | glyph (key : Nat)
  | cursor
  deriving DecidableEq, Repr

abbrev Screen := Nat → Nat → Shown

def blankScreen : Screen := fun _ _ => .glyph 0

def Screen.draw (screen : Screen) (x y : Nat) (shown : Shown) : Screen :=
  fun x' y' => if x' = x ∧ y' = y then shown else screen x' y'

def TerminalEffect.show (screen : Screen) : TerminalEffect → Screen
  | .clear => blankScreen
  | .character x y key => if key ≥ 97 then screen else screen.draw x y (.glyph key)
  | .cursor x y => screen.draw x y .cursor
  | _ => screen

namespace TerminalSession

def shown (s : TerminalSession) : Screen := s.log.foldl TerminalEffect.show blankScreen

def shownAt (s : TerminalSession) (i : Nat) : Shown :=
  s.shown (s.driver.moveTo i).xPixel (s.driver.moveTo i).yPixel

def RedrawAgrees (s : TerminalSession) : Prop :=
  ∀ i < s.driver.bufferWriteLocation, s.shownAt i = s.terminalPrintBuffer.shownAt i

instance (s : TerminalSession) : Decidable s.RedrawAgrees :=
  inferInstanceAs (Decidable (∀ i < s.driver.bufferWriteLocation, _))

def SkipsSpaces (s : TerminalSession) : TerminalCall → Prop
  | .writeChar c =>
      (c = 10 → ¬Scrolls s.driver c → ∀ i, s.driver.bufferWriteLocation ≤ i →
        i < s.driver.handleEndline.bufferWriteLocation → s.driver.terminalBuf i = 32) ∧
        (Scrolls s.driver c → s.driver.rowSize ≤ s.driver.terminalBufSize)
  | .reset => True

def Printable : TerminalCall → Prop
  | .writeChar c => c = 10 ∨ c = 8 ∨ 32 ≤ c ∧ c ≤ 126
  | .reset => True

instance (call : TerminalCall) : Decidable (Printable call) := by
  cases call with
  | writeChar c => exact inferInstanceAs (Decidable (c = 10 ∨ c = 8 ∨ 32 ≤ c ∧ c ≤ 126))
  | reset => exact inferInstanceAs (Decidable True)

section Cells

variable {columns : Nat} (screen : Screen)

/-- What a screen shows in a cell, if its rows have `columns` cells. -/
def Screen.cell (columns : Nat) (screen : Screen) (i : Nat) : Shown :=
  screen (16 * (i % columns)) (16 * (i / columns))

theorem cell_draw (columns i j : Nat) (shown : Shown) :
    Screen.cell columns (screen.draw (16 * (j % columns)) (16 * (j / columns)) shown) i =
      if i = j then shown else Screen.cell columns screen i := by
  have same : 16 * (i % columns) = 16 * (j % columns) ∧ 16 * (i / columns) = 16 * (j / columns) ↔
      i = j := by
    constructor
    · rintro ⟨column, line⟩
      rw [← Nat.div_add_mod i columns, ← Nat.div_add_mod j columns]
      have column : i % columns = j % columns := by omega
      have line : i / columns = j / columns := by omega
      rw [column, line]
    · rintro rfl
      exact ⟨rfl, rfl⟩
  rw [Screen.cell, Screen.draw]
  simp only [same]
  rfl

variable (driver : Terminal) (positive : 0 < columns) (width : driver.maxX = 16 * columns)
  (small : driver.bufferWriteLocation < 2 ^ 24)
include positive width small

theorem cell_character {key : Nat} (known : key < 97) (i : Nat) :
    Screen.cell columns ((TerminalEffect.character driver.xPixel driver.yPixel key).show screen) i =
      if i = driver.bufferWriteLocation then .glyph key else Screen.cell columns screen i := by
  obtain ⟨x, y⟩ := cell_pixels driver positive width small
  rw [TerminalEffect.show, if_neg (Nat.not_le_of_lt known), x, y, cell_draw]

theorem cell_cursor (i : Nat) :
    Screen.cell columns ((cursorEffect driver).show screen) i =
      if i = driver.bufferWriteLocation then .cursor else Screen.cell columns screen i := by
  obtain ⟨x, y⟩ := cell_pixels driver positive width small
  rw [cursorEffect, TerminalEffect.show, x, y, cell_draw]

end Cells

section Redraw

variable {driver : Terminal} {columns : Nat}

theorem foldl_cellEffects (positive : 0 < columns) (width : driver.maxX = 16 * columns) {n : Nat}
    (small : n ≤ 2 ^ 24) (known : ∀ i < n, charCodeToFontcode (driver.terminalBuf i) < 97)
    (screen : Screen) (j : Nat) :
    Screen.cell columns
        (((List.range n).flatMap (cellEffects driver)).foldl TerminalEffect.show screen) j =
      if j < n then .glyph (charCodeToFontcode (driver.terminalBuf j))
      else Screen.cell columns screen j := by
  induction n with
  | zero => rfl
  | succ n inductionHypothesis =>
    have drawn := inductionHypothesis (Nat.le_of_succ_le small) fun i below =>
      known i (Nat.lt_succ_of_lt below)
    have here : ∀ screen : Screen, Screen.cell columns
        ((cellEffects driver n).foldl TerminalEffect.show screen) j =
          if j = n then .glyph (charCodeToFontcode (driver.terminalBuf n))
          else Screen.cell columns screen j := by
      intro screen
      have small : (driver.moveTo n).bufferWriteLocation < 2 ^ 24 := small
      exact cell_character screen (driver.moveTo n) positive width small
        (known n (Nat.lt_succ_self n)) j
    rw [List.range_succ, List.flatMap_append, List.flatMap_singleton, List.foldl_append, here, drawn]
    by_cases last : j = n
    · subst last
      rw [if_pos rfl, if_pos (Nat.lt_succ_self j)]
    · have before : j < n + 1 ↔ j < n := by omega
      rw [if_neg last]
      simp only [before]

theorem foldl_redrawEffects (positive : 0 < columns) (width : driver.maxX = 16 * columns)
    (small : driver.bufferWriteLocation < 2 ^ 24)
    (known : ∀ i < driver.bufferWriteLocation, charCodeToFontcode (driver.terminalBuf i) < 97)
    (screen : Screen) (j : Nat) :
    Screen.cell columns ((redrawEffects driver).foldl TerminalEffect.show screen) j =
      if j = driver.bufferWriteLocation then .cursor
      else if j < driver.bufferWriteLocation then
        .glyph (charCodeToFontcode (driver.terminalBuf j))
      else .glyph 0 := by
  rw [redrawEffects, List.foldl_cons, List.foldl_append, List.foldl_cons, List.foldl_nil,
    cell_cursor _ driver positive width small,
    foldl_cellEffects positive width (Nat.le_of_lt small) known]
  rfl

end Redraw

theorem fontcode_known {c : UInt8} (printable : 32 ≤ c ∧ c ≤ 126) : charCodeToFontcode c < 97 := by
  obtain ⟨low, high⟩ := printable
  rw [UInt8.le_iff_toNat_le] at low high
  rw [charCodeToFontcode, UInt8.toNat_sub_of_le _ _ (UInt8.le_iff_toNat_le.mpr low)]
  have space : (32 : UInt8).toNat = 32 := rfl
  have tilde : (126 : UInt8).toNat = 126 := rfl
  omega

theorem fontcode_eq_zero {c : UInt8} : charCodeToFontcode c = 0 ↔ c = 32 := by
  have below := c.toNat_lt
  have space : (32 : UInt8).toNat = 32 := rfl
  rw [charCodeToFontcode, UInt8.toNat_sub, ← UInt8.toNat_inj, space]
  omega

/-- The buffer holds text, and behind the write location the screen shows nothing. -/
structure ShowsText (columns lines : Nat) (s : TerminalSession) : Prop where
  width : s.driver.maxX = 16 * columns
  size : s.driver.terminalBufSize = 16 * columns * (16 * lines) % 2 ^ 32 / 256
  location : s.driver.bufferWriteLocation ≤ s.driver.terminalBufSize
  text : ∀ i < s.driver.terminalBufSize, 32 ≤ s.driver.terminalBuf i ∧ s.driver.terminalBuf i ≤ 126
  behind : ∀ i, s.driver.bufferWriteLocation < i → Screen.cell columns s.shown i = .glyph 0

def ShowsBuffer (columns : Nat) (s : TerminalSession) : Prop :=
  ∀ i < s.driver.bufferWriteLocation,
    Screen.cell columns s.shown i = .glyph (charCodeToFontcode (s.driver.terminalBuf i))

section Run

variable {s : TerminalSession} {columns lines : Nat}

theorem ShowsText.small (text : s.ShowsText columns lines) : s.driver.terminalBufSize < 2 ^ 24 := by
  rw [text.size]
  omega

theorem ShowsText.redrawAgrees_iff (wide : 0 < columns) (text : s.ShowsText columns lines) :
    s.RedrawAgrees ↔ s.ShowsBuffer columns := by
  have size := text.small
  have location := text.location
  have small : s.driver.bufferWriteLocation < 2 ^ 24 := by omega
  refine forall₂_congr fun i before => ?_
  have here : ∀ screen : Screen, screen (s.driver.moveTo i).xPixel (s.driver.moveTo i).yPixel =
      Screen.cell columns screen i := by
    intro screen
    obtain ⟨x, y⟩ := cell_pixels (s.driver.moveTo i) wide text.width (before.trans small)
    rw [x, y]
    rfl
  have known : ∀ i < s.driver.bufferWriteLocation,
      charCodeToFontcode (s.driver.terminalBuf i) < 97 := by
    intro i before
    exact fontcode_known (text.text i (by omega))
  have redrawn : s.terminalPrintBuffer.shownAt i =
      .glyph (charCodeToFontcode (s.driver.terminalBuf i)) := by
    rw [shownAt, terminalPrintBuffer_eq _ (by omega)]
    refine (here _).trans ?_
    rw [shown]
    dsimp only
    rw [List.foldl_append, List.foldl_cons, foldl_cellEffects wide text.width (Nat.le_of_lt small)
      known, if_pos before]
  rw [redrawn, shownAt, here s.shown]

theorem shown_redrawn (wide : 0 < columns) (lines : Nat) (driver : Terminal)
    (log accesses : List TerminalEffect) (width : driver.maxX = 16 * columns)
    (size : driver.terminalBufSize = 16 * columns * (16 * lines) % 2 ^ 32 / 256)
    (location : driver.bufferWriteLocation ≤ driver.terminalBufSize)
    (text : ∀ i < driver.terminalBufSize, 32 ≤ driver.terminalBuf i ∧ driver.terminalBuf i ≤ 126)
    (done : s = ⟨driver, log ++ (accesses ++ redrawEffects driver)⟩) :
    s.ShowsText columns lines ∧ s.ShowsBuffer columns := by
  have bound : driver.terminalBufSize < 2 ^ 24 := by
    rw [size]
    omega
  have known : ∀ i < driver.bufferWriteLocation, charCodeToFontcode (driver.terminalBuf i) < 97 := by
    intro i before
    exact fontcode_known (text i (by omega))
  have cells : ∀ i, Screen.cell columns s.shown i = if i = driver.bufferWriteLocation then .cursor
      else if i < driver.bufferWriteLocation then
        .glyph (charCodeToFontcode (driver.terminalBuf i))
      else .glyph 0 := by
    intro i
    rw [done, shown]
    dsimp only
    rw [List.foldl_append, List.foldl_append,
      foldl_redrawEffects wide width (by omega) known]
  subst done
  refine ⟨⟨width, size, location, text, ?_⟩, ?_⟩
  · intro i behind
    dsimp only at behind
    rw [cells, if_neg (by omega), if_neg (by omega)]
  · intro i before
    dsimp only at before
    rw [cells, if_neg (by omega), if_pos before]

theorem ShowsText.sized (wide : 0 < columns) (narrow : 16 * columns < 2 ^ 32)
    (text : s.ShowsText columns lines) : s.driver.Sized ∧ s.driver.rowSize = columns := by
  have size := text.small
  have row : s.driver.rowSize = columns := by
    rw [Terminal.rowSize, text.width]
    omega
  refine ⟨⟨?_, text.location, ?_⟩, row⟩
  · rw [row]
    exact wide
  · omega

theorem ShowsText.scrollDown (text : s.ShowsText columns lines) :
    ∀ i < s.driver.terminalBufSize,
      32 ≤ s.driver.scrollDown.terminalBuf i ∧ s.driver.scrollDown.terminalBuf i ≤ 126 := by
  intro i inside
  rw [Terminal.scrollDown]
  dsimp only
  split
  next => decide
  next =>
    split
    next moved => exact text.text _ moved
    next => exact text.text i inside

theorem text_update {buf : Bytes} {size j : Nat} {c : UInt8} (known : 32 ≤ c ∧ c ≤ 126)
    (text : ∀ i < size, 32 ≤ buf i ∧ buf i ≤ 126) :
    ∀ i < size, 32 ≤ Function.update buf j c i ∧ Function.update buf j c i ≤ 126 := by
  intro i inside
  rw [Function.update_apply]
  split
  next => exact known
  next => exact text i inside

section Cells

variable {s' : TerminalSession} (text : s.ShowsText columns lines)
  (shows_ : s.ShowsBuffer columns)
include text shows_

theorem ShowsText.newline {n : Nat} (moved : s'.driver = s.driver.moveTo n)
    (inside : n ≤ s.driver.terminalBufSize) (further : s.driver.bufferWriteLocation < n)
    (cells : ∀ i, Screen.cell columns s'.shown i =
      if i = s.driver.bufferWriteLocation then .glyph 0 else Screen.cell columns s.shown i) :
    s'.ShowsText columns lines ∧ (s'.ShowsBuffer columns ↔
      ∀ i, s.driver.bufferWriteLocation ≤ i → i < n → s.driver.terminalBuf i = 32) := by
  -- From the old location on the screen shows spaces.
  have skipped : ∀ i, s.driver.bufferWriteLocation ≤ i →
      Screen.cell columns s'.shown i = .glyph 0 := by
    intro i low
    rw [cells]
    split
    next => rfl
    next other => exact text.behind i (by omega)
  constructor
  · constructor
    case width => rw [moved]; exact text.width
    case size => rw [moved]; exact text.size
    case location => rw [moved]; exact inside
    case text => rw [moved]; exact text.text
    case behind =>
      rw [moved]
      intro i behind
      exact skipped i (further.trans behind).le
  · rw [ShowsBuffer, moved]
    constructor
    · intro agrees i low high
      have glyphs := agrees i high
      rw [skipped i low] at glyphs
      exact fontcode_eq_zero.mp (Shown.glyph.inj glyphs).symm
    · intro spaces i before
      by_cases old : i < s.driver.bufferWriteLocation
      · rw [cells, if_neg (Nat.ne_of_lt old), shows_ i old]
        rfl
      · have low : s.driver.bufferWriteLocation ≤ i := Nat.le_of_not_lt old
        rw [skipped i low]
        exact congrArg _ (fontcode_eq_zero.mpr (spaces i low before)).symm

theorem ShowsText.stepBack
    (moved : s'.driver = s.driver.moveTo (s.driver.bufferWriteLocation - 1))
    (cells : ∀ i, Screen.cell columns s'.shown i =
      if i = s.driver.bufferWriteLocation - 1 then .cursor
      else if i = s.driver.bufferWriteLocation then .glyph 0
      else Screen.cell columns s.shown i) :
    s'.ShowsText columns lines ∧ s'.ShowsBuffer columns := by
  constructor
  · constructor
    case width => rw [moved]; exact text.width
    case size => rw [moved]; exact text.size
    case location => rw [moved]; exact (Nat.sub_le _ _).trans text.location
    case text => rw [moved]; exact text.text
    case behind =>
      rw [moved]
      intro i behind
      have behind : s.driver.bufferWriteLocation - 1 < i := behind
      rw [cells, if_neg (by omega)]
      split
      next => rfl
      next other => exact text.behind i (by omega)
  · rw [ShowsBuffer, moved]
    intro i before
    have before : i < s.driver.bufferWriteLocation - 1 := before
    rw [cells, if_neg (by omega), if_neg (by omega), shows_ i (by omega)]
    rfl

/-- A character is drawn where it is stored, and the cursor behind it. -/
theorem ShowsText.store {c : UInt8} (known : 32 ≤ c ∧ c ≤ 126)
    (inside : s.driver.bufferWriteLocation < s.driver.terminalBufSize)
    (stored : s'.driver = s.driver.store c)
    (cells : ∀ i, Screen.cell columns s'.shown i =
      if i = s.driver.bufferWriteLocation + 1 then .cursor
      else if i = s.driver.bufferWriteLocation then .glyph (charCodeToFontcode c)
      else Screen.cell columns s.shown i) :
    s'.ShowsText columns lines ∧ s'.ShowsBuffer columns := by
  constructor
  · constructor
    case width => rw [stored]; exact text.width
    case size => rw [stored]; exact text.size
    case location => rw [stored]; exact inside
    case text => rw [stored]; exact text_update known text.text
    case behind =>
      rw [stored]
      intro i behind
      have behind : s.driver.bufferWriteLocation + 1 < i := behind
      rw [cells, if_neg (by omega), if_neg (by omega), text.behind i (by omega)]
  · rw [ShowsBuffer, stored]
    intro i before
    have before : i < s.driver.bufferWriteLocation + 1 := before
    rw [cells, if_neg (by omega), Terminal.store]
    dsimp only
    rw [Function.update_apply]
    split
    next => rfl
    next other => exact shows_ i (by omega)

end Cells

/-- One call: the text stays text, and the screen goes on to show the buffer if and only if the
call skips spaces alone. -/
theorem ShowsText.perform (wide : 0 < columns) (narrow : 16 * columns < 2 ^ 32)
    (text : s.ShowsText columns lines) (shows_ : s.ShowsBuffer columns) {call : TerminalCall}
    (printable : Printable call)
    (fits : ∀ c, call = .writeChar c → Scrolls s.driver c →
      s.driver.rowSize ≤ s.driver.terminalBufSize) :
    (s.perform call).ShowsText columns lines ∧
      ((s.perform call).ShowsBuffer columns ↔ s.SkipsSpaces call) := by
  have width := text.width
  have size := text.small
  have location := text.location
  have small : s.driver.bufferWriteLocation < 2 ^ 24 := by omega
  cases call with
  | reset =>
    refine ⟨⟨width, text.size, Nat.zero_le _, text.text, fun i _ => ?_⟩, iff_of_true ?_ trivial⟩
    · rw [TerminalSession.perform, terminalReset, shown, moveTo_log, emit_log, List.foldl_append]
      rfl
    · exact fun i never => absurd never (Nat.not_lt_zero i)
  | writeChar c =>
    have fits := fits c rfl
    obtain ⟨sized, row⟩ := text.sized wide narrow
    obtain ⟨effects, done, writes⟩ := terminalWriteChar_writes s c sized fits
    have shown' : (s.perform (.writeChar c)).shown = effects.foldl TerminalEffect.show s.shown := by
      rw [TerminalSession.perform, done, shown, List.foldl_append]
      rfl
    have skips : c ≠ 10 ∨ Scrolls s.driver c → s.SkipsSpaces (.writeChar c) := by
      intro noSkip
      refine ⟨fun newline noScroll => ?_, fits⟩
      exact absurd newline (noSkip.resolve_right noScroll)
    have spaces : charCodeToFontcode 32 < 97 := by decide
    have result : s.perform (.writeChar c) = ⟨s.driver.writeChar c, s.log ++ effects⟩ := done
    generalize s.perform (.writeChar c) = s' at shown' result
    generalize s.driver.writeChar c = driver' at writes result
    have scrolled : s.driver.rowSize ≤ s.driver.terminalBufSize →
        s.driver.scrollDown.bufferWriteLocation + 1 ≤ s.driver.terminalBufSize := by
      intro fits
      show s.driver.terminalBufSize - s.driver.rowSize + 1 ≤ s.driver.terminalBufSize
      omega
    cases writes with
    | newline inside =>
      have noScroll : ¬Scrolls s.driver 10 := fun scrolls =>
        absurd ((if_pos rfl).mp scrolls) (Nat.not_le_of_lt inside)
      have cells : ∀ i, Screen.cell columns s'.shown i =
          if i = s.driver.bufferWriteLocation then .glyph 0 else Screen.cell columns s.shown i := by
        intro i
        rw [shown']
        exact cell_character s.shown s.driver wide width small spaces i
      have further : s.driver.bufferWriteLocation < s.driver.handleEndline.bufferWriteLocation := by
        have column := Nat.mod_lt s.driver.bufferWriteLocation sized.row
        rw [Terminal.handleEndline]
        dsimp only
        omega
      have moved : s'.driver = s.driver.moveTo s.driver.handleEndline.bufferWriteLocation := by
        rw [result]
        rfl
      obtain ⟨text', shows'⟩ := text.newline shows_ moved inside.le further cells
      refine ⟨text', shows'.trans ?_⟩
      constructor
      · intro spaces
        exact ⟨fun _ _ => spaces, fits⟩
      · intro skipsSpaces
        exact skipsSpaces.1 rfl noScroll
    | newlineScrolls behind =>
      have scrolls : Scrolls s.driver 10 := (if_pos rfl).mpr behind
      have last := scrolled (fits scrolls)
      obtain ⟨text', shows'⟩ := shown_redrawn wide lines s.driver.scrollDown s.log
        (whiteoutEffect s.driver :: scrollAccesses s.driver) width text.size
        (Nat.le_of_succ_le last) text.scrollDown result
      exact ⟨text', iff_of_true shows' (skips (.inr scrolls))⟩
    | backspaceFirst first =>
      rw [List.append_nil] at result
      subst result
      exact ⟨text, iff_of_true shows_ (skips (.inl (by decide)))⟩
    | backspace notFirst =>
      have before : s.driver.bufferWriteLocation - 1 < 2 ^ 24 := by omega
      have cells : ∀ i, Screen.cell columns s'.shown i =
          if i = s.driver.bufferWriteLocation - 1 then .cursor
          else if i = s.driver.bufferWriteLocation then .glyph 0
          else Screen.cell columns s.shown i := by
        intro i
        rw [shown', List.foldl_cons, List.foldl_cons, List.foldl_nil, cell_cursor _
          (s.driver.moveTo (s.driver.bufferWriteLocation - 1)) wide width before]
        have whiteout := cell_character s.shown s.driver wide width small spaces i
        exact congrArg _ whiteout
      obtain ⟨text', shows'⟩ := text.stepBack shows_ (congrArg driver result) cells
      exact ⟨text', iff_of_true shows' (skips (.inl (by decide)))⟩
    | character newline backspace before =>
      have known : 32 ≤ c ∧ c ≤ 126 := (printable.resolve_left newline).resolve_left backspace
      have next : s.driver.bufferWriteLocation + 1 < 2 ^ 24 := by omega
      have cells : ∀ i, Screen.cell columns s'.shown i =
          if i = s.driver.bufferWriteLocation + 1 then .cursor
          else if i = s.driver.bufferWriteLocation then .glyph (charCodeToFontcode c)
          else Screen.cell columns s.shown i := by
        intro i
        rw [shown', List.foldl_cons, List.foldl_cons, List.foldl_cons, List.foldl_nil,
          cell_cursor _ (s.driver.store c) wide width next]
        have drawn := cell_character s.shown s.driver wide width small
          (fontcode_known known) i
        exact congrArg _ drawn
      obtain ⟨text', shows'⟩ := text.store shows_ known before (congrArg driver result) cells
      exact ⟨text', iff_of_true shows' (skips (.inl newline))⟩
    | characterScrolls newline backspace behind =>
      have known : 32 ≤ c ∧ c ≤ 126 := (printable.resolve_left newline).resolve_left backspace
      have scrolls : Scrolls s.driver c := (if_neg newline).mpr ⟨backspace, behind⟩
      have last := scrolled (fits scrolls)
      rw [List.append_cons] at result
      obtain ⟨text', shows'⟩ := shown_redrawn wide lines (s.driver.scrollDown.store c)
        s.log (scrollAccesses s.driver ++ [.write s.driver.scrollDown.bufferWriteLocation]) width
        text.size last (text_update known text.scrollDown) result
      exact ⟨text', iff_of_true shows' (skips (.inr scrolls))⟩

theorem ShowsText.start {buf : Bytes}
    (spaces : ∀ i < 16 * columns * (16 * lines) % 2 ^ 32 / 256, buf i = 32) :
    (start (16 * columns) (16 * lines) buf).ShowsText columns lines where
  width := rfl
  size := rfl
  location := Nat.zero_le _
  text := by
    intro i inside
    have space : buf i = 32 := spaces i inside
    show 32 ≤ buf i ∧ buf i ≤ 126
    rw [space]
    decide
  behind := fun _ _ => rfl

/-- On a screen of fewer than 2^32 pixels the buffer has a row. -/
theorem ShowsText.fits (narrow : 16 * columns < 2 ^ 32) (wide : 0 < columns) (high : 0 < lines)
    (product : 16 * columns * (16 * lines) < 2 ^ 32) (text : s.ShowsText columns lines) :
    s.driver.rowSize ≤ s.driver.terminalBufSize := by
  obtain ⟨-, row⟩ := text.sized wide narrow
  have cells : 16 * columns * (16 * lines) = 256 * (columns * lines) := by
    rw [Nat.mul_mul_mul_comm]
  have more : columns ≤ columns * lines := Nat.le_mul_of_pos_right columns high
  rw [row, text.size, cells]
  omega

end Run

/-- All along a run whose newlines skip only spaces a redraw would show what the screen shows; on a
screen of fewer than 2^32 pixels, only then. -/
theorem redraw_agrees {columns lines : Nat} (wide : 0 < columns) (high : 0 < lines)
    (narrow : 16 * columns < 2 ^ 32) (buf : Bytes)
    (spaces : ∀ i < 16 * columns * (16 * lines) % 2 ^ 32 / 256, buf i = 32)
    (calls : List TerminalCall) (printable : ∀ call ∈ calls, Printable call) :
    let s := start (16 * columns) (16 * lines) buf
    (AllowedRun perform SkipsSpaces s calls → (calls.foldl perform s).RedrawAgrees) ∧
    (16 * columns * (16 * lines) < 2 ^ 32 →
      ((∀ before, before <+: calls → (before.foldl perform s).RedrawAgrees) ↔
        AllowedRun perform SkipsSpaces s calls)) := by
  have text := ShowsText.start spaces
  have nothing : (start (16 * columns) (16 * lines) buf).RedrawAgrees :=
    fun i before => absurd before (Nat.not_lt_zero i)
  have step : ∀ (s : TerminalSession) call, s.ShowsText columns lines → s.RedrawAgrees →
      Printable call →
      (∀ c, call = .writeChar c → Scrolls s.driver c →
        s.driver.rowSize ≤ s.driver.terminalBufSize) →
      (s.perform call).ShowsText columns lines ∧
        ((s.perform call).RedrawAgrees ↔ s.SkipsSpaces call) := by
    intro s call text agrees printable fits
    have shows_ := (text.redrawAgrees_iff wide).mp agrees
    obtain ⟨text', shows'⟩ := text.perform wide narrow shows_ printable fits
    exact ⟨text', (text'.redrawAgrees_iff wide).trans shows'⟩
  constructor
  · intro run
    refine ((run.usual printable).invariant
      (P := fun s => s.ShowsText columns lines ∧ s.RedrawAgrees) ?_ ⟨text, nothing⟩).2
    rintro s call ⟨text, agrees⟩ ⟨skips, printable⟩
    have fits : ∀ c, call = .writeChar c → Scrolls s.driver c →
        s.driver.rowSize ≤ s.driver.terminalBufSize := by
      rintro c rfl
      exact skips.2
    obtain ⟨text', agrees'⟩ := step s call text agrees printable fits
    exact ⟨text', agrees'.mpr skips⟩
  · intro product
    refine allowedRun_iff (ShowsText columns lines) RedrawAgrees Printable ?_ ?_ text nothing
      printable
    · intro s call text agrees printable _
      exact (step s call text agrees printable fun _ _ _ => text.fits narrow wide high product).1
    · intro s call text agrees printable
      exact (step s call text agrees printable fun _ _ _ => text.fits narrow wide high product).2

theorem redraw_agrees_small : ([.writeChar 97, .writeChar 10].foldl perform
    (start 32 32 fun _ => 32)).RedrawAgrees := by
  apply (@redraw_agrees 2 2 (by decide) (by decide) (by decide)
    (fun _ => 32) (fun _ _ => rfl) _ (by decide)).1
  refine ⟨⟨fun newline => absurd newline (by decide), fun scrolls => ?_⟩,
    ⟨fun _ _ i low high => ?_, fun scrolls => ?_⟩, trivial⟩
  · exact absurd scrolls (by decide)
  · have second : i = 1 := by
      have low : 1 ≤ i := low
      have high : i < 2 := high
      omega
    rw [second]
    decide
  · exact absurd scrolls (by decide)

/-- After a character, a backspace and a newline, a redraw shows the character again. -/
theorem redraw_disagrees : ¬∀ (columns lines : Nat) (buf : Bytes) (calls : List TerminalCall),
    0 < columns → 0 < lines → (∀ i, buf i = 32) → (∀ call ∈ calls, Printable call) →
      (calls.foldl perform (start (16 * columns) (16 * lines) buf)).RedrawAgrees := by
  intro agrees
  have holds := agrees 2 2 (fun _ => 32) [.writeChar 97, .writeChar 8, .writeChar 10] (by decide)
    (by decide) (fun _ => rfl) (by decide)
  exact absurd holds (by decide +kernel)

end TerminalSession

end SwagOS.Drivers
