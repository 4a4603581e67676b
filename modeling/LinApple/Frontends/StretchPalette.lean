import LinApple.Frontends.Stretch
import LinApple.Lib.Machine

/-!
# The palette of a stretched picture

Between calls of `video_soft_stretch` the colours of palettes are changed where they stand:
`surface_fader` does so, and another surface can come to have its palette at the same address. The
table of colours is not filled again then. So a call shows the palette it is given exactly when no
colour that it shows has been changed since the table was filled for this palette
(`StretchOp.stretch_uses_palette`), which can be told from the calls and the changes alone
(`StretchOp.history`).

The table is one for the whole program and holds what it was last filled with, and for which
address. Addresses are a type about which nothing is known but when two of them are equal, and the
colours at each of them are part of the state. The table is an instance of a value kept for a key
(`Keyed`): it is right as long as what is behind the key is what it was. The history says what
that was, and takes no colour from the table; it needs to know when the table is filled, which is
when a call has a row and a column on the surface and another address than the one before.

A call meets what is asked of it if each pixel in the rectangle and on the surface gets the colour
of its source pixel. The pixels are places in memory, reached by the pitch of the surface, and
which source pixel belongs to one is worked out for each of them (`Draws`), so the statement needs
no word about the order in which they are written. Only the colours that a call shows come into
the condition, so a change to another colour of the palette does no harm.

The source rectangle is inside its surface, as the callers see to. The other one is arbitrary,
also where the surface ends, except for those whose sums are more than an `int` can hold; and
there what is left out are the rows and columns for which the program would add them up, and no
others (`StretchCall.Fits`).
-/

namespace LinApple.Frontends

open Drawing

/-! ## Calls and changes to palettes -/

/-- A call of `video_soft_stretch` from an 8-bit surface to a 32-bit one. A rectangle that is not
given is that of its surface. -/
structure StretchCall (A : Type*) where
  src : IndexedView A
  srcRect : Option VideoRect
  dst : TrueColorView
  dstRect : Option VideoRect
  /-- The rectangle of the source is inside it. -/
  inside : (srcRect.getD ⟨0, 0, src.w, src.h⟩).Inside src.w src.h

namespace StretchCall

variable {A : Type*} [DecidableEq A]

/-- The rectangle of the source. -/
def source (call : StretchCall A) : VideoRect := call.srcRect.getD ⟨0, 0, call.src.w, call.src.h⟩

/-- The rectangle of the destination. -/
def target (call : StretchCall A) : VideoRect := call.dstRect.getD ⟨0, 0, call.dst.w, call.dst.h⟩

/-- The pixels of the destination that the call is to set. -/
def Shows (call : StretchCall A) (q : Int × Int) : Prop :=
  call.target.Shows call.dst.w call.dst.h q.1 q.2

/-- The pixel of the source for one of them. -/
def sourcePixel (call : StretchCall A) (q : Int × Int) : UInt8 :=
  Frontends.sourcePixel call.src call.source call.target q

/-- What is written. -/
def perform (call : StretchCall A) (colors : Palette) (lut : PaletteLut A) : Canvas A :=
  (videoSoftStretch colors call.src call.srcRect call.dst call.dstRect lut).2

/-- **The call does what it is for**: each pixel has the colour in the palette of its pixel of
the source, and the others are as they were. -/
def Meets (call : StretchCall A) (colors : Palette) (lut : PaletteLut A) : Prop :=
  Draws (fun q : Int × Int => call.dst.offset q.1 q.2)
    (fun q => packedPalette colors (call.sourcePixel q)) call.Shows call.dst.pixels
    (call.perform colors lut).pixels

omit [DecidableEq A] in
theorem shows_of_empty {call : StretchCall A} (h : call.target.h ≤ 0 ∨ call.target.w ≤ 0)
    (q : Int × Int) : ¬call.Shows q := by
  rintro ⟨hleft, hright, hupper, hlower, -⟩
  have hzero : (0 : Int32).toInt = 0 := rfl
  rw [Int32.le_iff_toInt_le, Int32.le_iff_toInt_le, hzero] at h
  omega

/-- A call is its rows, if it has any. -/
theorem perform_eq (call : StretchCall A) (colors : Palette) (lut : PaletteLut A) :
    call.perform colors lut = if call.target.h ≤ 0 ∨ call.target.w ≤ 0 then ⟨lut, call.dst.pixels⟩
      else (List.range call.target.h.toInt.toNat).foldl
        (stretchRow call.src colors call.source call.dst call.target) ⟨lut, call.dst.pixels⟩ := by
  have hsource : ¬call.source.h ≤ 0 ∧ ¬call.source.w ≤ 0 := by
    have hzero : (0 : Int32).toInt = 0 := rfl
    rw [Int32.le_iff_toInt_le, Int32.le_iff_toInt_le, hzero]
    exact ⟨Int.not_le.2 call.inside.h_pos, Int.not_le.2 call.inside.w_pos⟩
  have htest : (call.target.h ≤ 0 ∨ call.source.h ≤ 0 ∨ call.target.w ≤ 0 ∨ call.source.w ≤ 0)
      ↔ (call.target.h ≤ 0 ∨ call.target.w ≤ 0) := by
    simp only [hsource.1, hsource.2, false_or, or_false]
  have hclip : clipSourceRect call.src (call.srcRect.getD ⟨0, 0, call.src.w, call.src.h⟩)
      = some call.source := clipSourceRect_of_inside call.inside
  show (if call.target.h ≤ 0 ∨ call.source.h ≤ 0 ∨ call.target.w ≤ 0 ∨ call.source.w ≤ 0 then
      (-1, (⟨lut, call.dst.pixels⟩ : Canvas A)) else _ : Int × Canvas A).2 = _
  rw [hclip]
  simp only [htest]
  split
  · rfl
  · rfl

/-- What is worked out for a call's rectangle stays among the `int`s, if the rectangle has columns.
Nothing is worked out for one that has none. -/
def Fits (call : StretchCall A) : Prop :=
  0 < call.target.w.toInt → call.target.Fits call.dst.w call.dst.h

variable {call : StretchCall A} {colors : Palette} {lut : PaletteLut A}

/-- **What a call draws**, with the table for its palette. -/
theorem perform_draws (hfits : call.Fits) :
    Draws (fun q : Int × Int => call.dst.offset q.1 q.2)
      (fun q => (updatePaletteLut call.src.palette colors lut).value (call.sourcePixel q))
      call.Shows call.dst.pixels (call.perform colors lut).pixels := by
  rw [perform_eq]
  split
  · rename_i hempty
    exact .refl (shows_of_empty hempty) _
  · rename_i hsome
    have hin : call.source.Inside call.src.w call.src.h := call.inside
    have hw : 0 < call.target.w.toInt := by
      rw [not_or, Int32.le_iff_toInt_le, Int32.le_iff_toInt_le] at hsome
      exact Int.not_le.1 hsome.2
    exact rows_draws (c := ⟨lut, call.dst.pixels⟩) hin (hfits hw)

/-- **The table after a call**: that for its palette, if the rectangle touches the surface. -/
theorem perform_lut (hfits : call.Fits) :
    (call.target.Touches call.dst.w call.dst.h →
        (call.perform colors lut).lut = updatePaletteLut call.src.palette colors lut)
      ∧ (¬call.target.Touches call.dst.w call.dst.h → (call.perform colors lut).lut = lut) := by
  rw [perform_eq]
  have hzero : (0 : Int32).toInt = 0 := rfl
  split
  · rename_i hempty
    rw [Int32.le_iff_toInt_le, Int32.le_iff_toInt_le, hzero] at hempty
    refine ⟨fun htouches => ?_, fun _ => rfl⟩
    have hw := htouches.w_pos
    have hh := htouches.h_pos
    omega
  · rename_i hsome
    rw [not_or, Int32.le_iff_toInt_le, Int32.le_iff_toInt_le, hzero] at hsome
    have hfits := hfits (Int.not_le.1 hsome.2)
    have hrows : call.target.h.toInt.toNat ≤ call.target.h.toInt := by omega
    constructor
    · intro htouches
      obtain ⟨row, hrow, hfills⟩ := exists_fillsRow_iff.2 htouches
      exact (rows_lut call.inside hfits hrows).1 ⟨row, by omega, hfills⟩
    · intro htouches
      have hnone : ∀ row < call.target.h.toInt.toNat, ¬FillsRow call.dst call.target row :=
        fun row hrow hfills => htouches (exists_fillsRow_iff.1 ⟨row, by omega, hfills⟩)
      exact congrArg Canvas.lut ((rows_lut call.inside hfits hrows).2 hnone)

end StretchCall

/-! ## Runs -/

/-- What can happen to surfaces with palettes. An address is all that the stretching knows of a
palette, so a surface that comes to have another one's address is a change of the colours there. -/
inductive StretchOp (A : Type*)
  /-- A call of `video_soft_stretch`. -/
  | stretch (call : StretchCall A)
  /-- The colours at an address are set, also as those of another surface. -/
  | setColors (palette : A) (colors : Palette)
  /-- A call of `surface_fader` for the surface with a palette. -/
  | fader (palette : A) (red green blue : UInt8 → UInt8)

namespace StretchOp

variable {A : Type*} [DecidableEq A]

/-- The colours at each address. -/
abbrev Palettes (A : Type*) := A → Palette

/-- How an operation changes the palettes. -/
def palettes (op : StretchOp A) (p : Palettes A) : Palettes A :=
  match op with
  | stretch _ => p
  | setColors a colors => Function.update p a colors
  | fader a red green blue => Function.update p a (surfaceFader red green blue (p a))

/-- **The program**: the palettes, and the table of colours. -/
def machine : Machine (Palettes A × PaletteLut A) (StretchOp A) Unit where
  next s op := (op.palettes s.1, match op with
    | stretch call => (call.perform (s.1 call.src.palette) s.2).lut
    | _ => s.2)
  out _ _ := none

/-- Each call does what it is for. -/
def Meets (s : Palettes A × PaletteLut A) : StretchOp A → List (StretchOp A) → Prop
  | stretch call, _ => call.Meets (s.1 call.src.palette) s.2
  | _, _ => True

open Classical in
/-- **What is behind the table**: the palettes, and what the last one for which it was filled
was at that time. -/
noncomputable def history :
    Machine (Palettes A × Option (A × Palette)) (StretchOp A) Unit where
  next s op := (op.palettes s.1, match op with
    | stretch call => if call.target.Touches call.dst.w call.dst.h
        then Keyed.reload s.2 call.src.palette (s.1 call.src.palette) else s.2
    | _ => s.2)
  out _ _ := none

/-- **No colour that a call shows has been changed** since the table was filled for its
palette. -/
def Fresh (s : Palettes A × Option (A × Palette)) : StretchOp A → List (StretchOp A) → Prop
  | stretch call, _ => ∀ e ∈ s.2, e.1 = call.src.palette → ∀ q, call.Shows q →
      packedPalette e.2 (call.sourcePixel q)
        = packedPalette (s.1 call.src.palette) (call.sourcePixel q)
  | _, _ => True

/-- No sum that a call works out is too large for an `int`. -/
def Fits : StretchOp A → Prop
  | stretch call => call.Fits
  | _ => True

/-- The table is that of what is behind it. -/
def Behind (s : Palettes A × PaletteLut A) (t : Palettes A × Option (A × Palette)) : Prop :=
  t.1 = s.1 ∧ s.2.Holds packedPalette t.2

variable {s : Palettes A × PaletteLut A} {t : Palettes A × Option (A × Palette)}

/-- **A call does what it is for if no colour has been changed.** -/
theorem meets_iff (hbehind : Behind s t) {call : StretchCall A} (hfits : call.Fits)
    (rest : List (StretchOp A)) : Meets s (stretch call) rest ↔ Fresh t (stretch call) rest := by
  obtain ⟨hpalettes, hholds⟩ := hbehind
  obtain ⟨e, he, hkey, hvalue⟩ := hholds.load_value call.src.palette (s.1 call.src.palette)
  have hmeets : Meets s (stretch call) rest ↔ ∀ q, call.Shows q →
      packedPalette e.2 (call.sourcePixel q)
        = packedPalette (s.1 call.src.palette) (call.sourcePixel q) := by
    rw [← hvalue]
    exact (StretchCall.perform_draws hfits).value_iff
  rw [hmeets]
  unfold Fresh
  dsimp only
  rw [hpalettes]
  unfold Keyed.reload at he
  split at he
  · rw [he]
    constructor
    · intro h e' he' _ q hq
      obtain rfl := Option.some.inj he'
      exact h q hq
    · intro h q hq
      exact h e rfl hkey q hq
  · rename_i hother
    obtain rfl := Option.some.inj he
    constructor
    · intro h e' he' hkey'
      exact absurd (by rw [Option.mem_def.1 he', ← hkey']; rfl) hother
    · exact fun _ _ _ => rfl

/-- **One operation** keeps what is behind the table. -/
theorem Behind.next (hbehind : Behind s t) {op : StretchOp A} (hfits : op.Fits) :
    Behind (machine.next s op) (history.next t op) := by
  obtain ⟨hpalettes, hholds⟩ := hbehind
  refine ⟨congrArg op.palettes hpalettes, ?_⟩
  cases op with
  | stretch call =>
    by_cases htouches : call.target.Touches call.dst.w call.dst.h
    · simp only [machine, history, if_pos htouches, (StretchCall.perform_lut hfits).1 htouches,
        hpalettes]
      exact hholds.load _ _
    · simp only [machine, history, if_neg htouches, (StretchCall.perform_lut hfits).2 htouches]
      exact hholds
  | setColors a colors => exact hholds
  | fader a red green blue => exact hholds

/-- **Stretching uses the palette it is given** in a run from the start of the program exactly if
no call shows a colour that has been changed since the table was filled for its palette. -/
theorem stretch_uses_palette (p : Palettes A) (ops : List (StretchOp A))
    (hfits : ∀ op ∈ ops, op.Fits) :
    machine.Admits Meets (p, ⟨none, fun _ => 0⟩) ops ↔ history.Admits Fresh (p, none) ops := by
  refine machine.admits_iff_of_simulation history (R := Behind) (P := Fits)
    (fun s t op rest hbehind hop => ⟨?_, fun _ => hbehind.next hop⟩)
    ⟨rfl, rfl, fun e he => absurd he (Option.not_mem_none e)⟩ hfits
  cases op with
  | stretch call => exact meets_iff hbehind hop rest
  | setColors a colors => exact Iff.rfl
  | fader a red green blue => exact Iff.rfl

/-! ### Two surfaces of one pixel -/

section OnePixel

/-- A white pixel. -/
def onePixel : StretchCall Unit where
  src := ⟨fun _ => 0, 1, 1, 1, ()⟩
  srcRect := none
  dst := ⟨fun _ => 0, 1, 1, 4, by decide⟩
  dstRect := none
  inside := ⟨by decide, by decide, by decide, by decide, by decide, by decide⟩

/-- It is stretched, its colour is made black, and it is stretched again. -/
def blackened : List (StretchOp Unit) :=
  [stretch onePixel, fader () (fun _ => 0) (fun _ => 0) (fun _ => 0), stretch onePixel]

/-- A white palette. -/
def white : Palettes Unit := fun _ _ => ⟨255, 255, 255, 255⟩

/-- The rectangle fits. -/
theorem blackened_fits : ∀ op ∈ blackened, op.Fits := by
  have hone : onePixel.Fits := fun _ => ⟨fun _ _ => by decide, by decide⟩
  simp only [blackened, List.forall_mem_cons, List.not_mem_nil, false_implies, implies_true,
    and_true, Fits, true_and]
  exact ⟨hone, hone⟩

/-- **The pixel stays white**: the table is not filled again. -/
theorem blackened_stays_white :
    ¬ machine.Admits Meets (white, ⟨none, fun _ => 0⟩) blackened := by
  rintro ⟨-, -, hmeets, -⟩
  have hshows : onePixel.Shows (0, 0) :=
    ⟨by decide, by decide, by decide, by decide, by decide, by decide, by decide, by decide⟩
  have hblack := hmeets.drawn (0, 0) hshows
  revert hblack
  decide

/-- Before it is made black, it has its colour. -/
theorem white_is_stretched :
    machine.Admits Meets (white, ⟨none, fun _ => 0⟩) [stretch onePixel] :=
  (stretch_uses_palette white [stretch onePixel] fun op hop => blackened_fits op (by
    rw [List.mem_singleton.1 hop]
    exact List.mem_cons_self ..)).2 ⟨fun e he => absurd he (Option.not_mem_none e), trivial⟩

end OnePixel

end StretchOp

end LinApple.Frontends
