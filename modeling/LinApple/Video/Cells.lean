import LinApple.Video.Types

/-!
# The cells of the screen

The screen is 40 by 24 cells, and a cell is drawn in parts: a character is
one part or, in 80 columns, one of two; a hi-res cell is eight pairs of
lines. Each renderer compares what a part is drawn from with the copy of
what was drawn last and skips the part where nothing has changed.
-/

namespace LinApple.Video

/-- **What a refresh draws from.** -/
structure Screen where
  /-- `vidmode_latched` -/
  mode : VideoMode
  /-- `text_bank0` -/
  textBank0 : Nat → UInt8
  /-- `text_bank1` -/
  textBank1 : Nat → UInt8
  /-- `hires_bank0` -/
  hiresBank0 : Nat → UInt8
  /-- `hires_bank1` -/
  hiresBank1 : Nat → UInt8
  /-- Whether `alt_char_set_offset` is 256. -/
  altCharSet : Bool
  /-- `text_flash_state` -/
  textFlashState : Bool

/-- What a refresh knows of the last one. -/
structure Refresh extends Screen where
  /-- `vidlastmem` -/
  vidlastmem : Nat → UInt8
  /-- `redrawfull` -/
  redrawfull : Bool
  /-- `text_flash_flag` -/
  textFlashFlag : Bool

/-- `SRCOFFS_40COL` -/
def srcoffs40col : Nat := 0
/-- `SRCOFFS_80COL` -/
def srcoffs80col : Nat := 256
/-- `SRCOFFS_LORES` -/
def srcoffsLores : Nat := 384
/-- `SRCOFFS_HIRES` -/
def srcoffsHires : Nat := 400
/-- `SRCOFFS_DHIRES` -/
def srcoffsDhires : Nat := 912

/-! ## Parts -/

/-- **A cell that is drawn in parts**, each of them where it has changed. -/
def updateParts (parts : Nat) (changed : Nat → Bool) (draw : Nat → Bitmap → Bitmap)
    (b : Bitmap) : Bitmap × Bool :=
  (List.range parts).foldl
    (fun (b, dirty) k => if changed k then (draw k b, true) else (b, dirty)) (b, false)

/-- What a cell drawn in parts leaves. -/
theorem updateParts_fst (parts : Nat) (changed : Nat → Bool)
    (draw : Nat → Bitmap → Bitmap) (b : Bitmap) :
    (updateParts parts changed draw b).1
      = Paint.paintDirty draw changed (List.range parts) b := by
  unfold updateParts Paint.paintDirty
  generalize false = dirty
  induction List.range parts generalizing b dirty with
  | nil => rfl
  | cons k ks ih =>
    rw [List.foldl_cons, List.foldl_cons]
    by_cases hk : changed k = true
    · rw [if_pos hk]
      simp only [hk, if_true]
      exact ih _ _
    · rw [if_neg hk]
      simp only [hk, Bool.false_eq_true, if_false]
      exact ih _ _

namespace Screen

variable (cfg : VideoConfig) (s : Screen)

/-! ## Text -/

/-- Whether a character flashes. -/
def isFlashing (ch : UInt8) : Bool := !s.altCharSet && 0x40 ≤ ch && ch ≤ 0x7F

/-- The line of the picture of a character. -/
def charLine (ch : UInt8) : Nat :=
  (ch &&& 0xF0).toNat + (if s.altCharSet then 256 else 0)
    + (if s.isFlashing ch && s.textFlashState then 0x40 else 0)
    + (if cfg.language then 512 else 0)

/-- A character of 40 columns is drawn. -/
def draw40col (xpixel ypixel offset : Nat) : Bitmap → Bitmap :=
  let ch := s.textBank0 offset
  copySource cfg xpixel ypixel 14 16
    (srcoffs40col + ((ch &&& 0x0F).toNat <<< 4)) (s.charLine cfg ch)

/-- `update_80column_cell` -/
def draw80column (c : UInt8) (xpixel ypixel : Nat) : Bitmap → Bitmap :=
  copySource cfg xpixel ypixel 7 16
    (srcoffs80col + ((c &&& 15).toNat <<< 3)) (s.charLine cfg c)

/-- The bank a character of 80 columns comes from: auxiliary memory has the
left of two. -/
def textBank (k : Nat) : Nat → UInt8 := if k = 0 then s.textBank1 else s.textBank0

/-! ## Blocks -/

/-- A block of low resolution is drawn: its upper half and its lower. -/
def drawBlock (val : UInt8) (x xpixel ypixel width : Nat) (b : Bitmap) : Bitmap :=
  copySource cfg xpixel (ypixel + 8) width 8 (srcoffsLores + ((x &&& 1) <<< 1))
    (val &&& 0xF0).toNat
    (copySource cfg xpixel ypixel width 8 (srcoffsLores + ((x &&& 1) <<< 1))
      ((val &&& 0xF).toNat <<< 4) b)

/-! ## Dots -/

/-- The byte left of an offset of a page, if its cell has one. -/
def byteLeft (bank : Nat → UInt8) (x o : Nat) : UInt8 :=
  if x > 0 then bank (o - 1) else 0

/-- The byte right of an offset of a page, if its cell has one. -/
def byteRight (bank : Nat → UInt8) (x o : Nat) : UInt8 :=
  if x < 39 then bank (o + 1) else 0

/-- Two lines of high resolution are drawn. -/
def drawHires (x xpixel ypixel o : Nat) : Bitmap → Bitmap :=
  let byteval1 := byteLeft s.hiresBank0 x o
  let byteval2 := s.hiresBank0 o
  let byteval3 := byteRight s.hiresBank0 x o
  let coloffs := ((byteval1 &&& 0x60).toNat <<< 2) ||| ((byteval3 &&& 0x03).toNat <<< 5)
  copySource cfg xpixel ypixel 14 2
    (srcoffsHires + coloffs + ((x &&& 1) <<< 4)) (byteval2.toNat <<< 1)

/-- `dwordval` -/
def dhiresDots (x o : Nat) : Nat :=
  (byteLeft s.hiresBank0 x o &&& 0x70).toNat
    ||| ((s.hiresBank1 o &&& 0x7F).toNat <<< 7)
    ||| ((s.hiresBank0 o &&& 0x7F).toNat <<< 14)
    ||| ((byteRight s.hiresBank1 x o &&& 0x07).toNat <<< 21)

/-- `render_dhires_segment` -/
def drawDhiresSegment (dots xpixel ypixel pixelOffset : Nat) : Bitmap → Bitmap :=
  let color := (xpixel + pixelOffset) &&& 3
  let value := dots >>> (4 + pixelOffset - color)
  copySource cfg (xpixel + pixelOffset) ypixel 7 2
    (srcoffsDhires + 10 * ((value >>> 8) % 0x100) + color) ((value % 0x100) <<< 1)

/-- Two lines of double high resolution are drawn. -/
def drawDhires (x xpixel ypixel o : Nat) (b : Bitmap) : Bitmap :=
  let dots := s.dhiresDots x o
  drawDhiresSegment cfg dots xpixel ypixel 7 (drawDhiresSegment cfg dots xpixel ypixel 0 b)

end Screen

/-! ## The renderers -/

section Renderers

variable (cfg : VideoConfig) (r : Refresh) (x xpixel ypixel offset : Nat)

/-- `update_40col_cell` -/
def update40colCell : Bitmap → Bitmap × Bool :=
  updateParts 1
    (fun _ =>
      let ch := r.textBank0 offset
      ch ≠ r.vidlastmem (offset + 0x400) || r.redrawfull
        || (r.isFlashing ch && r.textFlashFlag))
    (fun _ => r.draw40col cfg xpixel ypixel offset)

/-- `update_80col_cell` -/
def update80colCell : Bitmap → Bitmap × Bool :=
  updateParts 2
    (fun k =>
      let c := r.textBank k offset
      c ≠ r.vidlastmem (offset + 0x400 * k) || r.redrawfull
        || (r.isFlashing c && r.textFlashFlag))
    (fun k => r.draw80column cfg (r.textBank k offset) (xpixel + 7 * k) ypixel)

/-- `update_lores_cell` -/
def updateLoresCell : Bitmap → Bitmap × Bool :=
  updateParts 1
    (fun _ => r.textBank0 offset ≠ r.vidlastmem (offset + 0x400) || r.redrawfull)
    (fun _ => Screen.drawBlock cfg (r.textBank0 offset) x xpixel ypixel 14)

/-- `update_dlores_cell` -/
def updateDloresCell : Bitmap → Bitmap × Bool :=
  updateParts 1
    (fun _ =>
      r.textBank1 offset ≠ r.vidlastmem offset
        || r.textBank0 offset ≠ r.vidlastmem (offset + 0x400) || r.redrawfull)
    (fun _ b =>
      Screen.drawBlock cfg (r.textBank0 offset) x (xpixel + 7) ypixel 7
        (Screen.drawBlock cfg (r.textBank1 offset) x xpixel ypixel 7 b))

/-- `update_hires_cell` -/
def updateHiresCell : Bitmap → Bitmap × Bool :=
  updateParts 8
    (fun k =>
      let o := offset + 0x400 * k
      r.hiresBank0 o ≠ r.vidlastmem (o + 0x2000)
        || (x > 0 && Screen.byteLeft r.hiresBank0 x o &&& 0x60
          ≠ r.vidlastmem (o + 0x1FFF) &&& 0x60)
        || (x < 39 && Screen.byteRight r.hiresBank0 x o &&& 0x03
          ≠ r.vidlastmem (o + 0x2001) &&& 0x03)
        || r.redrawfull)
    (fun k => r.drawHires cfg x xpixel (ypixel + 2 * k) (offset + 0x400 * k))

/-- `update_dhires_cell` -/
def updateDhiresCell : Bitmap → Bitmap × Bool :=
  updateParts 8
    (fun k =>
      let o := offset + 0x400 * k
      r.hiresBank1 o ≠ r.vidlastmem o
        || r.hiresBank0 o ≠ r.vidlastmem (o + 0x2000)
        || (x > 0 && Screen.byteLeft r.hiresBank0 x o &&& 0x70
          ≠ r.vidlastmem (o + 0x1FFF) &&& 0x70)
        || (x < 39 && Screen.byteRight r.hiresBank1 x o &&& 0x07
          ≠ r.vidlastmem (o + 1) &&& 0x07)
        || r.redrawfull)
    (fun k => r.drawDhires cfg x xpixel (ypixel + 2 * k) (offset + 0x400 * k))

end Renderers

end LinApple.Video
