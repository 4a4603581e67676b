import LinApple.Memory.Types
import LinApple.Lib.Paint

/-!
# The video state

The display memory is what the scanner shows: a text page and a hi-res page,
each of main and of auxiliary memory and each twice. What the program has
asked for is in `video_mode` and a few flags beside it. The bitmap is drawn
from pictures of every character and every pattern of dots, prepared once
(`source_start_of_line`); drawing a cell copies a rectangle of them.
-/

namespace LinApple.Video

/-- `video_mode`, one field for each of its bits. -/
structure VideoMode where
  /-- `VF_80COL` -/
  col80 : Bool
  /-- `VF_DHIRES` -/
  dhires : Bool
  /-- `VF_HIRES` -/
  hires : Bool
  /-- `VF_MASK2` -/
  mask2 : Bool
  /-- `VF_MIXED` -/
  mixed : Bool
  /-- `VF_PAGE2` -/
  page2 : Bool
  /-- `VF_TEXT` -/
  text : Bool
deriving DecidableEq, Repr

/-- The mode `VF_TEXT` alone. -/
def VideoMode.initial : VideoMode where
  col80 := false
  dhires := false
  hires := false
  mask2 := false
  mixed := false
  page2 := false
  text := true

/-- `VideoType`, less `VT_COLOR_TVEMU`: its hi-res lines take a path of
their own and mix with the lines around them. -/
inductive VideoType where
  | monoCustom
  | colorStandard
  | colorTextOptimized
  | colorHalfShiftDim
  | monoAmber
  | monoGreen
  | monoWhite
deriving DecidableEq, Repr

/-- `VT_COLOR_TVEMU > videotype` -/
def VideoType.fillsLines : VideoType → Bool
  | .monoCustom | .colorStandard | .colorTextOptimized => true
  | _ => false

/-- A place on the screen: its column and its line. -/
abbrev Pixel := Nat × Nat

/-- `device_bitmap` -/
abbrev Bitmap := Pixel → UInt8

/-- What does not change while the machine runs: the places the lines are read from, the type of
the screen and the set of characters. -/
structure VideoConfig where
  /-- `source_start_of_line[y][x]`, at `(x, y)` -/
  source : Pixel → UInt8
  /-- `videotype` -/
  videotype : VideoType
  /-- `language_rocker_switch && multi_language_charset` -/
  language : Bool

/-- **The memory the scanner shows**: the pages of main memory or, where
`aux` is set, of auxiliary memory. -/
structure DisplayMemory where
  /-- A byte of text page 1, or of text page 2. -/
  text : (aux page2 : Bool) → Nat → UInt8
  /-- A byte of hi-res page 1, or of hi-res page 2. -/
  hires : (aux page2 : Bool) → Nat → UInt8

/-- **The state of the video.** -/
structure VideoState where
  /-- `video_mode` -/
  videoMode : VideoMode
  /-- Whether `alt_char_set_offset` is 256. -/
  altCharSet : Bool
  /-- `displaypage2` -/
  displaypage2 : Bool
  /-- `graphicsmode` -/
  graphicsmode : Bool
  /-- `text_flash_state` -/
  textFlashState : Bool
  /-- `text_flash_flag` -/
  textFlashFlag : Bool
  /-- `text_flash_cnt` -/
  textFlashCnt : Nat
  /-- `redrawfull` -/
  redrawfull : Bool
  /-- `vidlastmem` -/
  vidlastmem : Nat → UInt8
  /-- `device_bitmap` -/
  bitmap : Bitmap
  /-- The frames that have been drawn, each with the frame that a redraw of
  everything would have drawn. -/
  frames : List (Bitmap × Bitmap)

/-! ## Copying a picture -/

/-- The rectangle `w` wide and `h` high whose first place is `(x, y)`. -/
def rect (x y w h : Nat) (p : Pixel) : Prop :=
  (x ≤ p.1 ∧ p.1 < x + w) ∧ y ≤ p.2 ∧ p.2 < y + h

instance (x y w h : Nat) : DecidablePred (rect x y w h) :=
  fun _ => inferInstanceAs (Decidable (_ ∧ _))

/-- `copy_source` -/
def copySource (cfg : VideoConfig) (destx desty xsize ysize sourcex sourcey : Nat)
    (b : Bitmap) : Bitmap := fun p =>
  if rect destx desty xsize ysize p then
    let line := p.2 - desty
    -- the lines are counted down
    if (ysize - 1 - line) % 2 ≠ 0 ∨ cfg.videotype.fillsLines then
      cfg.source (sourcex + (p.1 - destx), sourcey + line)
    else 0
  else b p

/-- A copy paints its rectangle. -/
theorem copySource_paints (cfg : VideoConfig) (dx dy w h sx sy : Nat) :
    Paint.Paints (rect dx dy w h) (copySource cfg dx dy w h sx sy) where
  outside _ _ hp := if_neg hp
  inside b b' p hp := by
    unfold copySource
    rw [if_pos hp, if_pos hp]

end LinApple.Video
