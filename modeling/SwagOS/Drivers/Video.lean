import SwagOS.Drivers.Terminal.OnScreen
import SwagOS.Drivers.Video.Font
import SwagOS.Lib.Raster

/-!
# The framebuffer

`drivers/video.c`: what drawing writes to the memory of the framebuffer.  Numbers have 32 bits,
also where a pixel lies.  The rows of a framebuffer that is direct do not overlap, and it has
fewer than 2^32 bytes; there a function that draws paints pixels of a picture.
-/

namespace SwagOS.Drivers

open SwagOS.Lib

/-- `multiboot_tag_framebuffer_common`, what drawing reads besides the address. -/
structure Framebuffer where
  pitch : Nat
  width : Nat
  height : Nat
  bpp : Nat

def rgbColor (r g b : BitVec 8) : BitVec 32 :=
  b.setWidth 32 ||| g.setWidth 32 <<< 8 ||| r.setWidth 32 <<< 16

/-- `(color >> (8 * k)) & 255` -/
def colorChannel (color : BitVec 32) (k : Nat) : UInt8 :=
  .ofBitVec ((color.sshiftRight (8 * k)).setWidth 8)

/-- `TERMINAL_COLOR` of `video.c`, a variable of its own. -/
def videoTerminalColor : BitVec 32 := 0

namespace Framebuffer

variable (framebuffer : Framebuffer)

def getPixelIndex (x y : Nat) : Nat :=
  (framebuffer.pitch * y + framebuffer.bpp / 8 * x) % 2 ^ 32

def setPixel (x y : Nat) (color : BitVec 32) (screen : Bytes) : Bytes :=
  let place := framebuffer.getPixelIndex x y
  let screen := Function.update screen place (colorChannel color 0)
  let screen := Function.update screen (place + 1) (colorChannel color 1)
  Function.update screen (place + 2) (colorChannel color 2)

def setPixels (pixels : List (Nat × Nat)) (color : Nat × Nat → BitVec 32) (screen : Bytes) : Bytes :=
  pixels.foldl (fun screen pixel => framebuffer.setPixel pixel.1 pixel.2 (color pixel) screen) screen

def characterColor (x y : Nat) (color : BitVec 32) (key : Nat) (pixel : Nat × Nat) : BitVec 32 :=
  if glyphBit key (pixel.1 - x) (pixel.2 - y) then color else videoTerminalColor

def drawCharacter (x y : Nat) (color : BitVec 32) (key : Nat) (screen : Bytes) : Bytes :=
  if key ≥ 97 then screen
  else framebuffer.setPixels (characterPixels x y) (characterColor x y color key) screen

def drawCursorLoc (x y : Nat) (screen : Bytes) : Bytes :=
  framebuffer.setPixels (characterPixels x y) (fun _ => ~~~videoTerminalColor) screen

def screenPixels : List (Nat × Nat) :=
  (List.range framebuffer.height).flatMap fun y =>
    (List.range framebuffer.width).map fun x => (x, y)

def clearScreen (r g b : BitVec 8) (screen : Bytes) : Bytes :=
  framebuffer.setPixels framebuffer.screenPixels (fun _ => rgbColor r g b) screen

/-- Pixels have the bytes that are written, and rows do not overlap. -/
structure Direct : Prop where
  channels : 3 ≤ framebuffer.bpp / 8
  row : framebuffer.bpp / 8 * framebuffer.width ≤ framebuffer.pitch
  size : framebuffer.pitch * framebuffer.height ≤ 2 ^ 32

end Framebuffer

namespace Framebuffer.Direct

variable {framebuffer : Framebuffer} (direct : framebuffer.Direct)

def raster : Raster (BitVec 32) where
  width := framebuffer.width
  height := framebuffer.height
  pitch := framebuffer.pitch
  stride := framebuffer.bpp / 8
  channels := 3
  encode := colorChannel
  pixel := direct.channels
  row := direct.row

variable {direct} {screen : Bytes} {picture : Nat × Nat → BitVec 32} {pixels : List (Nat × Nat)}
  {x y : Nat}

theorem getPixelIndex_eq {pixel : Nat × Nat} (inside : direct.raster.Inside pixel) :
    framebuffer.getPixelIndex pixel.1 pixel.2 = direct.raster.index pixel := by
  have last : direct.raster.index pixel + framebuffer.bpp / 8 ≤
      framebuffer.pitch * framebuffer.height := inside.index_end
  have channels := direct.channels
  have size := direct.size
  exact Nat.mod_eq_of_lt (show direct.raster.index pixel < 2 ^ 32 by omega)

theorem setPixel_eq {pixel : Nat × Nat} (inside : direct.raster.Inside pixel) (color : BitVec 32) :
    framebuffer.setPixel pixel.1 pixel.2 color screen = direct.raster.paint pixel color screen := by
  have channels : direct.raster.channels = 3 := rfl
  have encode : direct.raster.encode color = colorChannel color := rfl
  funext i
  rw [setPixel, getPixelIndex_eq inside, Raster.paint, Bytes.memcpy, channels, encode]
  simp only [Function.update_apply]
  split_ifs with third second first within within within within
  · congr 1; omega
  · omega
  · congr 1; omega
  · omega
  · congr 1; omega
  · omega
  · omega
  · rfl

theorem setPixels_eq (inside : ∀ pixel ∈ pixels, direct.raster.Inside pixel)
    (color : Nat × Nat → BitVec 32) :
    framebuffer.setPixels pixels color screen = direct.raster.paintAll pixels color screen := by
  induction pixels generalizing screen with
  | nil => rfl
  | cons pixel rest inductionHypothesis =>
    obtain ⟨here, later⟩ := List.forall_mem_cons.mp inside
    rw [setPixels, List.foldl_cons, setPixel_eq here]
    exact inductionHypothesis later

theorem mem_screenPixels {pixel : Nat × Nat} :
    pixel ∈ framebuffer.screenPixels ↔ direct.raster.Inside pixel := by
  obtain ⟨x, y⟩ := pixel
  simp [screenPixels, Raster.Inside, raster, and_comm]

theorem mem_characterPixels {pixel : Nat × Nat} :
    pixel ∈ characterPixels x y ↔
      x ≤ pixel.1 ∧ pixel.1 < x + 8 ∧ y ≤ pixel.2 ∧ pixel.2 < y + 16 := by
  obtain ⟨i, j⟩ := pixel
  simp [characterPixels, List.mem_range'_1, and_assoc]

theorem shows_clearScreen (r g b : BitVec 8) (shows_ : direct.raster.Shows screen picture) :
    direct.raster.Shows (framebuffer.clearScreen r g b screen) fun _ => rgbColor r g b := by
  have inside : ∀ pixel ∈ framebuffer.screenPixels, direct.raster.Inside pixel :=
    fun pixel member => mem_screenPixels.mp member
  rw [clearScreen, setPixels_eq inside]
  refine (shows_.paintAll inside _).congr fun pixel onScreen => ?_
  exact if_pos (mem_screenPixels.mpr onScreen)

/-- `draw_character` paints the glyph, if the screen has all of its place. -/
theorem shows_drawCharacter (shows_ : direct.raster.Shows screen picture) {key : Nat} (known : key < 97)
    (inside : ∀ pixel ∈ characterPixels x y, direct.raster.Inside pixel) (color : BitVec 32) :
    direct.raster.Shows (framebuffer.drawCharacter x y color key screen) fun pixel =>
      if pixel ∈ characterPixels x y then characterColor x y color key pixel
      else picture pixel := by
  rw [drawCharacter, if_neg (Nat.not_le_of_lt known), setPixels_eq inside]
  exact shows_.paintAll inside _

theorem shows_drawCursorLoc (shows_ : direct.raster.Shows screen picture)
    (inside : ∀ pixel ∈ characterPixels x y, direct.raster.Inside pixel) :
    direct.raster.Shows (framebuffer.drawCursorLoc x y screen) fun pixel =>
      if pixel ∈ characterPixels x y then ~~~videoTerminalColor else picture pixel := by
  rw [drawCursorLoc, setPixels_eq inside]
  exact shows_.paintAll inside _

end Framebuffer.Direct

end SwagOS.Drivers
