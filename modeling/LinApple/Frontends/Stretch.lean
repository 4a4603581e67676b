import LinApple.Lib.Draws
import LinApple.Lib.Keyed
import Mathlib.Algebra.Group.Nat.Defs
import Mathlib.Algebra.Group.Int.Defs

/-!
# Stretching pictures with a palette

`video_soft_stretch` copies a rectangle of an 8-bit surface to a rectangle of a 32-bit one,
larger or smaller. The colours are looked up in one table for all palettes, which is filled
again when a palette stands at another address than the last one. The rows of a call draw the
rectangle with the table it ends up with (`rows_draws`), and leave the one for its palette if
there is a row to fill it for (`rows_lut`).
-/

namespace LinApple.Frontends

open Drawing

/-! ## Surfaces -/

/-- `VideoColor` -/
structure VideoColor where
  r : UInt8
  g : UInt8
  b : UInt8
  a : UInt8
deriving DecidableEq, Repr

/-- A colour as a pixel of a 32-bit surface. -/
def VideoColor.packed (c : VideoColor) : UInt32 :=
  (c.r.toUInt32 <<< 16) ||| (c.g.toUInt32 <<< 8) ||| c.b.toUInt32

/-- The 256 colours of a surface. -/
abbrev Palette := UInt8 → VideoColor

/-- `VideoRect` -/
structure VideoRect where
  x : Int32
  y : Int32
  w : Int32
  h : Int32
deriving DecidableEq, Repr

/-- A `VideoSurfaceView` of an 8-bit surface: its bytes by their offset, and the address of its
palette. -/
structure IndexedView (A : Type*) where
  pixels : Int → UInt8
  w : Int32
  h : Int32
  pitch : Int32
  palette : A

/-- A `VideoSurfaceView` of a 32-bit surface: its pixels by their offset in bytes. A row is as
long as its pixels or longer. -/
structure TrueColorView where
  pixels : Int → UInt32
  w : Int32
  h : Int32
  pitch : Int32
  row_le_pitch : 4 * w.toInt ≤ pitch.toInt

/-- A pixel of an 8-bit surface. -/
def IndexedView.pixel {A : Type*} (src : IndexedView A) (x y : Int) : UInt8 :=
  src.pixels (y * src.pitch.toInt + x)

/-- The offset of a pixel of a 32-bit surface. -/
def TrueColorView.offset (dst : TrueColorView) (x y : Int) : Int := y * dst.pitch.toInt + 4 * x

/-- `surface_fader`, by what becomes of a byte of each colour when it is multiplied. -/
def surfaceFader (red green blue : UInt8 → UInt8) (palette : Palette) : Palette := fun i =>
  { palette i with r := red (palette i).r, g := green (palette i).g, b := blue (palette i).b }

/-! ## The table of colours -/

/-- `palette_lut` and `last_palette`. -/
abbrev PaletteLut (A : Type*) := Keyed A (UInt8 → UInt32)

/-- The colours of a palette as pixels. -/
def packedPalette (palette : Palette) (i : UInt8) : UInt32 := (palette i).packed

/-- `update_palette_lut` -/
def updatePaletteLut {A : Type*} [DecidableEq A] (palette : A) (colors : Palette)
    (lut : PaletteLut A) : PaletteLut A :=
  lut.load packedPalette palette colors

/-- What a call writes to: the table, and the pixels of the destination. -/
structure Canvas (A : Type*) where
  lut : PaletteLut A
  pixels : Int → UInt32

section Stretch

variable {A : Type*} [DecidableEq A]

/-- One pixel of a row is written, if it is on the surface. -/
def writePixel (base : Int) (curX maxW : Int32) (value : UInt32) (pixels : Int → UInt32) :
    Int → UInt32 :=
  if 0 ≤ curX ∧ curX < maxW then Function.update pixels (base + 4 * curX.toInt) value else pixels

/-- `copy_row1to4`, of the row of bytes at `srcp` to the row of pixels at `base`. -/
def copyRow1to4 (src : IndexedView A) (colors : Palette) (srcp : Int) (srcW : Int32) (base : Int)
    (dstX dstW maxW : Int32) (c : Canvas A) : Canvas A :=
  if dstW ≤ 0 ∨ srcW ≤ 0 then c
  else if dstX ≥ maxW ∨ dstX + dstW ≤ 0 then c
  else
    let lut := updatePaletteLut src.palette colors c.lut
    if srcW = dstW then
      { lut := lut
        pixels := (List.range dstW.toInt.toNat).foldl
          (fun pixels (i : Nat) =>
            writePixel base (dstX + Int32.ofNat i) maxW (lut.value (src.pixels (srcp + i))) pixels)
          c.pixels }
    else
      { lut := lut
        pixels := (List.range dstW.toInt.toNat).foldl
          (fun pixels (i : Nat) =>
            let srcX := Int32.ofInt ((i * srcW.toInt).tdiv dstW.toInt)
            let srcX := if srcX ≥ srcW then srcW - 1 else srcX
            writePixel base (dstX + Int32.ofNat i) maxW
              (lut.value (src.pixels (srcp + srcX.toInt))) pixels)
          c.pixels }

/-- `clip_source_rect`: the rectangle within the surface, if there is one. -/
def clipSourceRect (src : IndexedView A) (rect : VideoRect) : Option VideoRect :=
  if rect.x + rect.w ≤ 0 ∨ rect.y + rect.h ≤ 0 then none
  else
    let rect := if rect.x < 0 then { rect with w := rect.w + rect.x, x := 0 } else rect
    let rect := if rect.y < 0 then { rect with h := rect.h + rect.y, y := 0 } else rect
    if rect.x ≥ src.w ∨ rect.y ≥ src.h then none
    else
      let rect := if rect.x + rect.w > src.w then { rect with w := src.w - rect.x } else rect
      let rect := if rect.y + rect.h > src.h then { rect with h := src.h - rect.y } else rect
      if rect.w > 0 ∧ rect.h > 0 then some rect else none

/-- A turn of the loop of `video_soft_stretch_impl`, with `copy_row1to4` for a row. -/
def stretchRow (src : IndexedView A) (colors : Palette) (srcRect : VideoRect)
    (dst : TrueColorView) (dstRect : VideoRect) (c : Canvas A) (row : Nat) : Canvas A :=
  let curDstRow := dstRect.y + Int32.ofNat row
  if curDstRow < 0 ∨ curDstRow ≥ dst.h then c
  else
    let curSrcRow :=
      srcRect.y + Int32.ofInt ((row * srcRect.h.toInt).tdiv dstRect.h.toInt)
    if curSrcRow < 0 ∨ curSrcRow ≥ src.h then c
    else
      copyRow1to4 src colors (curSrcRow.toInt * src.pitch.toInt + srcRect.x.toInt) srcRect.w
        (curDstRow.toInt * dst.pitch.toInt) dstRect.x dstRect.w dst.w c

/-- **`video_soft_stretch`** of an 8-bit surface to a 32-bit one, with `video_soft_stretch_impl`:
what it returns, and the table and the pixels afterwards. A rectangle that is not given is that
of its surface. -/
def videoSoftStretch (colors : Palette) (src : IndexedView A) (srcRect : Option VideoRect)
    (dst : TrueColorView) (dstRect : Option VideoRect) (lut : PaletteLut A) : Int × Canvas A :=
  let fullSrc := srcRect.getD ⟨0, 0, src.w, src.h⟩
  let fullDst := dstRect.getD ⟨0, 0, dst.w, dst.h⟩
  if fullDst.h ≤ 0 ∨ fullSrc.h ≤ 0 ∨ fullDst.w ≤ 0 ∨ fullSrc.w ≤ 0 then (-1, ⟨lut, dst.pixels⟩)
  else
    match clipSourceRect src fullSrc with
    | none => (0, ⟨lut, dst.pixels⟩)
    | some fullSrc =>
      (0, (List.range fullDst.h.toInt.toNat).foldl
        (stretchRow src colors fullSrc dst fullDst) ⟨lut, dst.pixels⟩)

end Stretch

/-! ## Integers -/

section Integers

variable {a b : Int32}

theorem toInt_add_of_fits (hlow : -2 ^ 31 ≤ a.toInt + b.toInt)
    (hhigh : a.toInt + b.toInt < 2 ^ 31) : (a + b).toInt = a.toInt + b.toInt := by
  rw [Int32.toInt_add]
  exact Int.bmod_eq_of_le hlow hhigh

/-- A place in a loop behind a coordinate. -/
theorem toInt_add_ofNat {i : Nat} (hi : i < 2 ^ 31) (h : a.toInt + i < 2 ^ 31) :
    (a + Int32.ofNat i).toInt = a.toInt + i := by
  have hnat : (Int32.ofNat i).toInt = i := Int32.toInt_ofNat_of_lt hi
  have hlow := Int32.le_toInt a
  rw [toInt_add_of_fits (by omega) (by omega), hnat]

/-- What is scaled down lies below what it is scaled to. -/
theorem scaled_lt {i w n : Int} (hi : 0 ≤ i) (hin : i < n) (hw : 0 < w) :
    0 ≤ i * w / n ∧ i * w / n < w := by
  have hn : 0 < n := by omega
  refine ⟨Int.ediv_nonneg (Int.mul_nonneg hi (Int.le_of_lt hw)) (Int.le_of_lt hn), ?_⟩
  rw [Int.ediv_lt_iff_lt_mul hn, Int.mul_comm w n]
  exact Int.mul_lt_mul_of_pos_right hin hw

/-- It is an `int`. -/
theorem toInt_scaled {i : Nat} {w n : Int32} (hi : i < n.toInt) (hw : 0 < w.toInt) :
    (Int32.ofInt ((i * w.toInt).tdiv n.toInt)).toInt = i * w.toInt / n.toInt := by
  have hdiv : (i * w.toInt).tdiv n.toInt = i * w.toInt / n.toInt :=
    Int.tdiv_eq_ediv_of_nonneg (Int.mul_nonneg (Int.natCast_nonneg i) (Int.le_of_lt hw))
  obtain ⟨hlow, hhigh⟩ := scaled_lt (Int.natCast_nonneg i) hi hw
  have hlt := Int32.toInt_lt w
  rw [hdiv, Int32.toInt_ofInt_of_le (by omega) (by omega)]

end Integers

/-! ## What a row draws -/

/-- Pixels with one offset are the same. -/
theorem TrueColorView.offset_inj (dst : TrueColorView) {x y x' y' : Int} (hx : 0 ≤ x)
    (hxw : x < dst.w.toInt) (hx' : 0 ≤ x') (hxw' : x' < dst.w.toInt)
    (h : dst.offset x y = dst.offset x' y') : x = x' ∧ y = y' := by
  have hpitch := dst.row_le_pitch
  unfold offset at h
  have hrow : (y - y') * dst.pitch.toInt = 4 * (x' - x) := by
    rw [Int.sub_mul]
    omega
  have hy : y = y' := by
    rcases Int.lt_trichotomy (y - y') 0 with hneg | hzero | hpos
    · have hle : (y - y') * dst.pitch.toInt ≤ -1 * dst.pitch.toInt :=
        Int.mul_le_mul_of_nonneg_right (by omega) (by omega)
      omega
    · omega
    · have hle : 1 * dst.pitch.toInt ≤ (y - y') * dst.pitch.toInt :=
        Int.mul_le_mul_of_nonneg_right (by omega) (by omega)
      omega
  subst hy
  rw [Int.sub_self, Int.zero_mul] at hrow
  exact ⟨by omega, rfl⟩

/-- A pixel that is in a rectangle and on a surface. -/
structure VideoRect.Shows (rect : VideoRect) (w h : Int32) (x y : Int) : Prop where
  left : rect.x.toInt ≤ x
  right : x < rect.x.toInt + rect.w.toInt
  upper : rect.y.toInt ≤ y
  lower : y < rect.y.toInt + rect.h.toInt
  x_nonneg : 0 ≤ x
  x_lt : x < w.toInt
  y_nonneg : 0 ≤ y
  y_lt : y < h.toInt

/-- **The pixel of the source for a pixel of the destination.** -/
def sourcePixel {A : Type*} (src : IndexedView A) (srcRect dstRect : VideoRect) (q : Int × Int) :
    UInt8 :=
  src.pixel (srcRect.x.toInt + (q.1 - dstRect.x.toInt) * srcRect.w.toInt / dstRect.w.toInt)
    (srcRect.y.toInt + (q.2 - dstRect.y.toInt) * srcRect.h.toInt / dstRect.h.toInt)

/-- A pixel of one row of the loop. -/
def InRow (dstX dstW maxW : Int32) (y : Int) (q : Int × Int) : Prop :=
  q.2 = y ∧ dstX.toInt ≤ q.1 ∧ q.1 < dstX.toInt + dstW.toInt ∧ 0 ≤ q.1 ∧ q.1 < maxW.toInt

section Row

variable {dstX dstW maxW : Int32} {dst : TrueColorView} {y : Int} {value : Int × Int → UInt32}

/-- One pixel is drawn if it is on the surface. -/
theorem writePixel_draws {i : Nat} (hi : i < 2 ^ 31) (hfits : dstX.toInt + i < 2 ^ 31) {v : UInt32}
    (hv : v = value (dstX.toInt + i, y)) (pixels : Int → UInt32) :
    Draws (fun q : Int × Int => dst.offset q.1 q.2) value
      (fun q => q = (dstX.toInt + i, y) ∧ 0 ≤ q.1 ∧ q.1 < maxW.toInt) pixels
      (writePixel (y * dst.pitch.toInt) (dstX + Int32.ofNat i) maxW v pixels) := by
  have hcur := toInt_add_ofNat hi hfits
  have hiff : (0 ≤ dstX + Int32.ofNat i ∧ dstX + Int32.ofNat i < maxW) ↔
      0 ≤ dstX.toInt + i ∧ dstX.toInt + i < maxW.toInt := by
    rw [Int32.le_iff_toInt_le, Int32.lt_iff_toInt_lt, hcur]
    rfl
  unfold writePixel
  split
  · rename_i hon
    rw [hv, hcur]
    refine Draws.update (i := (dstX.toInt + i, y)) (fun q => ⟨And.left, ?_⟩) pixels
    rintro rfl
    exact ⟨rfl, hiff.1 hon⟩
  · rename_i hoff
    refine .refl (fun q hq => hoff (hiff.2 ?_)) _
    obtain ⟨rfl, hon⟩ := hq
    exact hon

/-- **The pixels of a row**, each with its value. -/
theorem row_draws (hfits : dstX.toInt + dstW.toInt < 2 ^ 31) (hmax : maxW = dst.w)
    {v : Nat → UInt32} (hv : ∀ i : Nat, i < dstW.toInt → v i = value (dstX.toInt + i, y))
    (pixels : Int → UInt32) :
    Draws (fun q : Int × Int => dst.offset q.1 q.2) value (InRow dstX dstW maxW y) pixels
      ((List.range dstW.toInt.toNat).foldl
        (fun pixels i =>
          writePixel (y * dst.pitch.toInt) (dstX + Int32.ofNat i) maxW (v i) pixels) pixels) := by
  subst hmax
  have hlt := Int32.toInt_lt dstW
  refine (draws_foldl_range id (I := fun _ => True)
    (p := fun i q => q = (dstX.toInt + i, y) ∧ 0 ≤ q.1 ∧ q.1 < dst.w.toInt)
    (fun pixels _ i hi => ⟨?_, trivial⟩) ?_ trivial).1.congr ?_
  · exact writePixel_draws (by omega) (by omega) (hv i (by omega)) pixels
  · rintro _ _ _ _ i j ⟨-, hi, hiw⟩ ⟨-, hj, hjw⟩ hsame
    obtain ⟨hx, hy⟩ := dst.offset_inj hi hiw hj hjw hsame
    rw [Prod.ext hx hy]
  · rintro ⟨x, y'⟩
    constructor
    · rintro ⟨i, hi, heq, hx, hxw⟩
      obtain ⟨rfl, rfl⟩ := Prod.mk.inj heq
      exact ⟨rfl, by dsimp only; omega, by dsimp only; omega, hx, hxw⟩
    · rintro ⟨rfl, hleft, hright, hx, hxw⟩
      dsimp only at hleft hright
      refine ⟨(x - dstX.toInt).toNat, by omega, Prod.ext ?_ rfl, hx, hxw⟩
      dsimp only
      omega

end Row

section CopyRow

variable {A : Type*} [DecidableEq A] {src : IndexedView A} {colors : Palette} {c : Canvas A}
  {srcp : Int} {srcW dstX dstW : Int32}

/-- The columns of a row and of the surface. -/
def FillsColumns (dstX dstW maxW : Int32) : Prop :=
  0 < dstW.toInt ∧ dstX.toInt < maxW.toInt ∧ 0 < dstX.toInt + dstW.toInt

/-- Both tests are passed for such columns. -/
theorem copyRow1to4_tests {maxW : Int32} (hw : 0 < srcW.toInt)
    (hfits : dstX.toInt < maxW.toInt → dstX.toInt + dstW.toInt < 2 ^ 31) :
    (¬(dstW ≤ 0 ∨ srcW ≤ 0) ∧ ¬(dstX ≥ maxW ∨ dstX + dstW ≤ 0))
      ↔ FillsColumns dstX dstW maxW := by
  have hzero : (0 : Int32).toInt = 0 := rfl
  unfold FillsColumns
  rw [ge_iff_le, Int32.le_iff_toInt_le, Int32.le_iff_toInt_le, Int32.le_iff_toInt_le,
    Int32.le_iff_toInt_le, hzero]
  by_cases hpos : 0 < dstW.toInt
  · by_cases hx : dstX.toInt < maxW.toInt
    · have hlow := Int32.le_toInt dstX
      rw [toInt_add_of_fits (by omega) (hfits hx)]
      omega
    · constructor
      · rintro ⟨-, hon⟩
        exact absurd (.inl (Int.not_lt.1 hx)) hon
      · rintro ⟨-, hx', -⟩
        exact absurd hx' hx
  · constructor
    · rintro ⟨hempty, -⟩
      exact absurd (.inl (Int.not_lt.1 hpos)) hempty
    · rintro ⟨hpos', -⟩
      exact absurd hpos' hpos

/-- Otherwise nothing is done. -/
theorem copyRow1to4_eq_self {base : Int} {maxW : Int32} (hw : 0 < srcW.toInt)
    (hfits : dstX.toInt < maxW.toInt → dstX.toInt + dstW.toInt < 2 ^ 31)
    (hout : ¬FillsColumns dstX dstW maxW) :
    copyRow1to4 src colors srcp srcW base dstX dstW maxW c = c := by
  rw [← copyRow1to4_tests hw hfits, not_and_or, not_not, not_not] at hout
  unfold copyRow1to4
  by_cases hempty : dstW ≤ 0 ∨ srcW ≤ 0
  · rw [if_pos hempty]
  · rw [if_neg hempty, if_pos (hout.resolve_left hempty)]

/-- The table is filled for such columns. -/
theorem copyRow1to4_lut {base : Int} {maxW : Int32} (hw : 0 < srcW.toInt)
    (hfits : dstX.toInt < maxW.toInt → dstX.toInt + dstW.toInt < 2 ^ 31)
    (hin : FillsColumns dstX dstW maxW) :
    (copyRow1to4 src colors srcp srcW base dstX dstW maxW c).lut
      = updatePaletteLut src.palette colors c.lut := by
  obtain ⟨hsome, hon⟩ := (copyRow1to4_tests hw hfits).2 hin
  unfold copyRow1to4
  rw [if_neg hsome, if_neg hon]
  split
  · rfl
  · rfl

/-- **A row is drawn** with the table that belongs to its palette. -/
theorem copyRow1to4_draws {dst : TrueColorView} {y : Int} {value : Int × Int → UInt32}
    (hw : 0 < srcW.toInt) (hfits : dstX.toInt < dst.w.toInt → dstX.toInt + dstW.toInt < 2 ^ 31)
    (hvalue : ∀ i : Nat, i < dstW.toInt → value (dstX.toInt + i, y)
      = (updatePaletteLut src.palette colors c.lut).value
          (src.pixels (srcp + i * srcW.toInt / dstW.toInt))) :
    Draws (fun q : Int × Int => dst.offset q.1 q.2) value (InRow dstX dstW dst.w y) c.pixels
      (copyRow1to4 src colors srcp srcW (y * dst.pitch.toInt) dstX dstW dst.w c).pixels := by
  by_cases hin : FillsColumns dstX dstW dst.w
  · obtain ⟨hsome, hon⟩ := (copyRow1to4_tests hw hfits).2 hin
    unfold copyRow1to4
    rw [if_neg hsome, if_neg hon]
    split
    · rename_i hsame
      refine row_draws (hfits hin.2.1) rfl (fun i hi => ?_) c.pixels
      rw [hvalue i hi, hsame, Int.mul_ediv_cancel _ (Int.ne_of_gt hin.1)]
    · refine row_draws (hfits hin.2.1) rfl (fun i hi => ?_) c.pixels
      have hscaled := toInt_scaled hi hw
      have hinside : ¬ Int32.ofInt ((i * srcW.toInt).tdiv dstW.toInt) ≥ srcW := by
        rw [ge_iff_le, Int32.le_iff_toInt_le, hscaled]
        exact Int.not_le.2 (scaled_lt (Int.natCast_nonneg i) hi hw).2
      rw [if_neg hinside, hscaled, hvalue i hi]
  · rw [copyRow1to4_eq_self hw hfits hin]
    refine .refl (fun q hq => hin ?_) _
    obtain ⟨-, hleft, hright, hx, hxw⟩ := hq
    exact ⟨by omega, by omega, by omega⟩

end CopyRow

/-! ## What a call draws -/

/-- A rectangle that is in a surface, and not empty. -/
structure VideoRect.Inside (rect : VideoRect) (w h : Int32) : Prop where
  x_nonneg : 0 ≤ rect.x.toInt
  y_nonneg : 0 ≤ rect.y.toInt
  w_pos : 0 < rect.w.toInt
  h_pos : 0 < rect.h.toInt
  right_le : rect.x.toInt + rect.w.toInt ≤ w.toInt
  lower_le : rect.y.toInt + rect.h.toInt ≤ h.toInt

/-- The sums that are worked out for a rectangle and a surface are `int`s. The right edge is only
worked out for a row that is on the surface, and only if the left one is; the last row is worked
out, and not the one behind it. -/
structure VideoRect.Fits (rect : VideoRect) (w h : Int32) : Prop where
  right : rect.x.toInt < w.toInt →
    (∃ row : Nat, row < rect.h.toInt ∧ 0 ≤ rect.y.toInt + row ∧ rect.y.toInt + row < h.toInt) →
      rect.x.toInt + rect.w.toInt < 2 ^ 31
  lower : rect.y.toInt + rect.h.toInt ≤ 2 ^ 31

/-- A rectangle and a surface that have a row in common, and columns on either side of the
first ones of each other. -/
structure VideoRect.Touches (rect : VideoRect) (w h : Int32) : Prop where
  w_pos : 0 < rect.w.toInt
  x_lt : rect.x.toInt < w.toInt
  right_pos : 0 < rect.x.toInt + rect.w.toInt
  h_pos : 0 < rect.h.toInt
  y_lt : rect.y.toInt < h.toInt
  lower_pos : 0 < rect.y.toInt + rect.h.toInt
  surface_pos : 0 < h.toInt

section Call

variable {A : Type*} {src : IndexedView A} {rect dstRect : VideoRect} {row : Nat}

/-- Of a rectangle in the surface nothing is cut off. -/
theorem clipSourceRect_of_inside (h : rect.Inside src.w src.h) :
    clipSourceRect src rect = some rect := by
  obtain ⟨hx, hy, hw, hh, hright, hlower⟩ := h
  have hwlt := Int32.toInt_lt src.w
  have hhlt := Int32.toInt_lt src.h
  have hxw : (rect.x + rect.w).toInt = rect.x.toInt + rect.w.toInt :=
    toInt_add_of_fits (by omega) (by omega)
  have hyh : (rect.y + rect.h).toInt = rect.y.toInt + rect.h.toInt :=
    toInt_add_of_fits (by omega) (by omega)
  have hzero : (0 : Int32).toInt = 0 := rfl
  have hsome : ¬(rect.x + rect.w ≤ 0 ∨ rect.y + rect.h ≤ 0) := by
    rw [Int32.le_iff_toInt_le, Int32.le_iff_toInt_le, hxw, hyh, hzero]
    omega
  have hleft : ¬rect.x < 0 := by
    rw [Int32.lt_iff_toInt_lt]
    exact Int.not_lt.2 hx
  have hupper : ¬rect.y < 0 := by
    rw [Int32.lt_iff_toInt_lt]
    exact Int.not_lt.2 hy
  have hon : ¬(rect.x ≥ src.w ∨ rect.y ≥ src.h) := by
    rw [ge_iff_le, ge_iff_le, Int32.le_iff_toInt_le, Int32.le_iff_toInt_le]
    omega
  have hright' : ¬rect.x + rect.w > src.w := by
    rw [gt_iff_lt, Int32.lt_iff_toInt_lt, hxw]
    exact Int.not_lt.2 hright
  have hlower' : ¬rect.y + rect.h > src.h := by
    rw [gt_iff_lt, Int32.lt_iff_toInt_lt, hyh]
    exact Int.not_lt.2 hlower
  have hpos : rect.w > 0 ∧ rect.h > 0 := by
    rw [gt_iff_lt, gt_iff_lt, Int32.lt_iff_toInt_lt, Int32.lt_iff_toInt_lt]
    exact ⟨hw, hh⟩
  unfold clipSourceRect
  rw [if_neg hsome]
  simp only [if_neg hleft, if_neg hupper, if_neg hon, if_neg hright', if_neg hlower', if_pos hpos]

/-- The row of the destination. -/
theorem toInt_curDstRow {w h : Int32} (hfits : dstRect.Fits w h) (hrow : row < dstRect.h.toInt) :
    (dstRect.y + Int32.ofNat row).toInt = dstRect.y.toInt + row := by
  have hlower := hfits.lower
  have hlt := Int32.toInt_lt dstRect.h
  exact toInt_add_ofNat (by omega) (by omega)

/-- The row of the source, which is one of its rows. -/
theorem toInt_curSrcRow (h : rect.Inside src.w src.h) (hrow : row < dstRect.h.toInt) :
    (rect.y + Int32.ofInt ((row * rect.h.toInt).tdiv dstRect.h.toInt)).toInt
        = rect.y.toInt + row * rect.h.toInt / dstRect.h.toInt
      ∧ 0 ≤ rect.y.toInt + row * rect.h.toInt / dstRect.h.toInt
      ∧ rect.y.toInt + row * rect.h.toInt / dstRect.h.toInt < src.h.toInt := by
  obtain ⟨-, hy, -, hh, -, hlower⟩ := h
  have hlt := Int32.toInt_lt src.h
  obtain ⟨hlow, hhigh⟩ := scaled_lt (Int.natCast_nonneg row) hrow hh
  refine ⟨?_, by omega, by omega⟩
  have hscaled := toInt_scaled hrow hh
  rw [toInt_add_of_fits (by omega) (by omega), hscaled]

variable [DecidableEq A] {colors : Palette} {dst : TrueColorView} {c : Canvas A}

/-- **A turn of the loop** is a row, if it is on the destination. -/
theorem stretchRow_eq (hin : rect.Inside src.w src.h) (hfits : dstRect.Fits dst.w dst.h)
    (hrow : row < dstRect.h.toInt) :
    stretchRow src colors rect dst dstRect c row
      = if 0 ≤ dstRect.y.toInt + row ∧ dstRect.y.toInt + row < dst.h.toInt then
          copyRow1to4 src colors
            ((rect.y.toInt + row * rect.h.toInt / dstRect.h.toInt) * src.pitch.toInt
              + rect.x.toInt)
            rect.w ((dstRect.y.toInt + row) * dst.pitch.toInt) dstRect.x dstRect.w dst.w c
        else c := by
  have hdst := toInt_curDstRow hfits hrow
  obtain ⟨hsrc, hlow, hhigh⟩ := toInt_curSrcRow hin hrow
  have hon : (dstRect.y + Int32.ofNat row < 0 ∨ dstRect.y + Int32.ofNat row ≥ dst.h)
      ↔ ¬(0 ≤ dstRect.y.toInt + row ∧ dstRect.y.toInt + row < dst.h.toInt) := by
    have hzero : (0 : Int32).toInt = 0 := rfl
    rw [ge_iff_le, Int32.lt_iff_toInt_lt, Int32.le_iff_toInt_le, hdst, hzero]
    omega
  have hsource : ¬(rect.y + Int32.ofInt ((row * rect.h.toInt).tdiv dstRect.h.toInt) < 0
      ∨ rect.y + Int32.ofInt ((row * rect.h.toInt).tdiv dstRect.h.toInt) ≥ src.h) := by
    have hzero : (0 : Int32).toInt = 0 := rfl
    rw [ge_iff_le, Int32.lt_iff_toInt_lt, Int32.le_iff_toInt_le, hsrc, hzero]
    omega
  unfold stretchRow
  simp only [hon, ite_not, if_neg hsource, hsrc, hdst]

/-- **A turn of the loop draws a row of the rectangle.** -/
theorem stretchRow_draws (hin : rect.Inside src.w src.h) (hfits : dstRect.Fits dst.w dst.h)
    (hrow : row < dstRect.h.toInt) :
    Draws (fun q : Int × Int => dst.offset q.1 q.2)
      (fun q => (updatePaletteLut src.palette colors c.lut).value (sourcePixel src rect dstRect q))
      (fun q => q.2 = dstRect.y.toInt + row ∧ dstRect.Shows dst.w dst.h q.1 q.2) c.pixels
      (stretchRow src colors rect dst dstRect c row).pixels := by
  rw [stretchRow_eq hin hfits hrow]
  split
  · rename_i hon
    refine (copyRow1to4_draws hin.w_pos (fun hx => hfits.right hx ⟨row, hrow, hon⟩)
      fun i hi => ?_).congr fun q => ?_
    · unfold sourcePixel IndexedView.pixel
      have hx : dstRect.x.toInt + (i : Int) - dstRect.x.toInt = i := by omega
      have hy : dstRect.y.toInt + (row : Int) - dstRect.y.toInt = row := by omega
      dsimp only
      rw [hx, hy, Int.add_assoc]
    · constructor
      · rintro ⟨hy, hleft, hright, hx, hxw⟩
        exact ⟨hy, hleft, hright, by omega, by omega, hx, hxw, by omega, by omega⟩
      · rintro ⟨hy, hshows⟩
        exact ⟨hy, hshows.left, hshows.right, hshows.x_nonneg, hshows.x_lt⟩
  · rename_i hoff
    refine .refl (fun q ⟨hy, hshows⟩ => hoff ?_) _
    rw [← hy]
    exact ⟨hshows.y_nonneg, hshows.y_lt⟩

/-- A row of the rectangle for which the table is filled. -/
def FillsRow (dst : TrueColorView) (dstRect : VideoRect) (row : Nat) : Prop :=
  (0 ≤ dstRect.y.toInt + row ∧ dstRect.y.toInt + row < dst.h.toInt)
    ∧ FillsColumns dstRect.x dstRect.w dst.w

omit [DecidableEq A] in
/-- Whether there is such a row. -/
theorem exists_fillsRow_iff :
    (∃ row : Nat, row < dstRect.h.toInt ∧ FillsRow dst dstRect row)
      ↔ dstRect.Touches dst.w dst.h := by
  constructor
  · rintro ⟨row, hrow, ⟨hlow, hhigh⟩, hw, hx, hright⟩
    exact ⟨hw, hx, hright, by omega, by omega, by omega, by omega⟩
  · rintro ⟨hw, hx, hright, hh, hy, hlower, hpos⟩
    exact ⟨(-dstRect.y.toInt).toNat, by omega, ⟨by omega, by omega⟩, hw, hx, hright⟩

/-- A row fills the table. -/
theorem stretchRow_lut (hin : rect.Inside src.w src.h) (hfits : dstRect.Fits dst.w dst.h)
    (hrow : row < dstRect.h.toInt) (hfills : FillsRow dst dstRect row) :
    (stretchRow src colors rect dst dstRect c row).lut
      = updatePaletteLut src.palette colors c.lut := by
  rw [stretchRow_eq hin hfits hrow, if_pos hfills.1]
  exact copyRow1to4_lut hin.w_pos (fun hx => hfits.right hx ⟨row, hrow, hfills.1⟩) hfills.2

/-- Another row does nothing. -/
theorem stretchRow_eq_self (hin : rect.Inside src.w src.h) (hfits : dstRect.Fits dst.w dst.h)
    (hrow : row < dstRect.h.toInt) (hfills : ¬FillsRow dst dstRect row) :
    stretchRow src colors rect dst dstRect c row = c := by
  rw [stretchRow_eq hin hfits hrow]
  split
  · rename_i hon
    exact copyRow1to4_eq_self hin.w_pos (fun hx => hfits.right hx ⟨row, hrow, hon⟩)
      fun hcols => hfills ⟨hon, hcols⟩
  · rfl

/-- A row leaves the table that it has filled. -/
theorem updatePaletteLut_stretchRow (hin : rect.Inside src.w src.h) (hfits : dstRect.Fits dst.w dst.h)
    (hrow : row < dstRect.h.toInt) :
    updatePaletteLut src.palette colors (stretchRow src colors rect dst dstRect c row).lut
      = updatePaletteLut src.palette colors c.lut := by
  by_cases hfills : FillsRow dst dstRect row
  · rw [stretchRow_lut hin hfits hrow hfills]
    exact Keyed.load_load colors
  · rw [stretchRow_eq_self hin hfits hrow hfills]

/-- **The rows of a call**: what they draw, with the table for their palette. -/
theorem rows_draws (hin : rect.Inside src.w src.h) (hfits : dstRect.Fits dst.w dst.h) :
    Draws (fun q : Int × Int => dst.offset q.1 q.2)
      (fun q => (updatePaletteLut src.palette colors c.lut).value (sourcePixel src rect dstRect q))
      (fun q => dstRect.Shows dst.w dst.h q.1 q.2) c.pixels
      ((List.range dstRect.h.toInt.toNat).foldl
        (stretchRow src colors rect dst dstRect) c).pixels := by
  refine (draws_foldl_range Canvas.pixels
    (I := fun c' => updatePaletteLut src.palette colors c'.lut
      = updatePaletteLut src.palette colors c.lut)
    (p := fun row q => q.2 = dstRect.y.toInt + row ∧ dstRect.Shows dst.w dst.h q.1 q.2)
    (fun c' hc' row hrow => ?_) ?_ rfl).1.congr ?_
  · rw [← hc']
    exact ⟨stretchRow_draws hin hfits (by omega),
      updatePaletteLut_stretchRow hin hfits (by omega)⟩
  · rintro _ _ _ _ q q' ⟨-, hq⟩ ⟨-, hq'⟩ hsame
    obtain ⟨hx, hy⟩ := dst.offset_inj hq.x_nonneg hq.x_lt hq'.x_nonneg hq'.x_lt hsame
    rw [Prod.ext hx hy]
  · rintro ⟨x, y⟩
    constructor
    · rintro ⟨row, hrow, hy, hshows⟩
      exact hshows
    · intro hshows
      have hupper := hshows.upper
      have hlower := hshows.lower
      exact ⟨(y - dstRect.y.toInt).toNat, by omega, by dsimp only; omega, hshows⟩

/-- **The table after the rows of a call.** -/
theorem rows_lut (hin : rect.Inside src.w src.h) (hfits : dstRect.Fits dst.w dst.h) {n : Nat}
    (hn : n ≤ dstRect.h.toInt) :
    ((∃ row < n, FillsRow dst dstRect row) →
        ((List.range n).foldl (stretchRow src colors rect dst dstRect) c).lut
          = updatePaletteLut src.palette colors c.lut)
      ∧ ((∀ row < n, ¬FillsRow dst dstRect row) →
        (List.range n).foldl (stretchRow src colors rect dst dstRect) c = c) := by
  induction n with
  | zero => exact ⟨fun ⟨row, hrow, _⟩ => absurd hrow (Nat.not_lt_zero row), fun _ => rfl⟩
  | succ n ih =>
    obtain ⟨hfilled, hleft⟩ := ih (by omega)
    rw [List.range_succ, List.foldl_append, List.foldl_cons, List.foldl_nil]
    constructor
    · rintro ⟨row, hrow, hfills⟩
      by_cases hbefore : ∃ row < n, FillsRow dst dstRect row
      · by_cases hlast : FillsRow dst dstRect n
        · rw [stretchRow_lut hin hfits (by omega) hlast, hfilled hbefore]
          exact Keyed.load_load colors
        · rw [stretchRow_eq_self hin hfits (by omega) hlast, hfilled hbefore]
      · have hnone : ∀ row < n, ¬FillsRow dst dstRect row :=
          fun row hrow hfills => hbefore ⟨row, hrow, hfills⟩
        have hlast : row = n := by
          rcases Nat.lt_succ_iff_lt_or_eq.1 hrow with hlt | heq
          · exact absurd hfills (hnone row hlt)
          · exact heq
        subst hlast
        rw [stretchRow_lut hin hfits (by omega) hfills, hleft hnone]
    · intro hnone
      rw [hleft fun row hrow => hnone row (by omega),
        stretchRow_eq_self hin hfits (by omega) (hnone n (by omega))]

end Call

end LinApple.Frontends
