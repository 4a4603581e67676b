import LinApple.Video.Refresh

/-!
# The tiles of a frame

A frame is painted in tiles: the parts of its cells. What a renderer draws
in a part depends on the screen alone, and no two parts overlap. So a
refresh is a painting of the dirty tiles, and a redraw of everything one of
all of them.
-/

namespace LinApple.Video

/-- A part of a cell. -/
structure Tile where
  /-- The cell's column. -/
  x : Nat
  /-- The cell's row. -/
  y : Nat
  /-- The part. -/
  part : Nat
deriving DecidableEq, Repr

namespace UpdateFunc

variable (f : UpdateFunc)

/-- The number of parts a renderer draws a cell in. -/
def parts : Nat :=
  match f with
  | .text80 => 2
  | .hires | .dhires => 8
  | _ => 1

/-- What a renderer draws in a part. -/
def draw (cfg : VideoConfig) (s : Screen) (x xpixel ypixel offset k : Nat) :
    Bitmap → Bitmap :=
  match f with
  | .text40 => s.draw40col cfg xpixel ypixel offset
  | .text80 => s.draw80column cfg (s.textBank k offset) (xpixel + 7 * k) ypixel
  | .lores => Screen.drawBlock cfg (s.textBank0 offset) x xpixel ypixel 14
  | .dlores => fun b =>
    Screen.drawBlock cfg (s.textBank0 offset) x (xpixel + 7) ypixel 7
      (Screen.drawBlock cfg (s.textBank1 offset) x xpixel ypixel 7 b)
  | .hires => s.drawHires cfg x xpixel (ypixel + 2 * k) (offset + 0x400 * k)
  | .dhires => s.drawDhires cfg x xpixel (ypixel + 2 * k) (offset + 0x400 * k)

/-- Whether a renderer finds a part changed. -/
def changed (r : Refresh) (x offset k : Nat) : Bool :=
  let o := offset + 0x400 * k
  match f with
  | .text40 =>
    r.textBank0 offset ≠ r.vidlastmem (offset + 0x400) || r.redrawfull
      || (r.isFlashing (r.textBank0 offset) && r.textFlashFlag)
  | .text80 =>
    r.textBank k offset ≠ r.vidlastmem (offset + 0x400 * k) || r.redrawfull
      || (r.isFlashing (r.textBank k offset) && r.textFlashFlag)
  | .lores => r.textBank0 offset ≠ r.vidlastmem (offset + 0x400) || r.redrawfull
  | .dlores =>
    r.textBank1 offset ≠ r.vidlastmem offset
      || r.textBank0 offset ≠ r.vidlastmem (offset + 0x400) || r.redrawfull
  | .hires =>
    r.hiresBank0 o ≠ r.vidlastmem (o + 0x2000)
      || (x > 0 && Screen.byteLeft r.hiresBank0 x o &&& 0x60
        ≠ r.vidlastmem (o + 0x1FFF) &&& 0x60)
      || (x < 39 && Screen.byteRight r.hiresBank0 x o &&& 0x03
        ≠ r.vidlastmem (o + 0x2001) &&& 0x03)
      || r.redrawfull
  | .dhires =>
    r.hiresBank1 o ≠ r.vidlastmem o
      || r.hiresBank0 o ≠ r.vidlastmem (o + 0x2000)
      || (x > 0 && Screen.byteLeft r.hiresBank0 x o &&& 0x70
        ≠ r.vidlastmem (o + 0x1FFF) &&& 0x70)
      || (x < 39 && Screen.byteRight r.hiresBank1 x o &&& 0x07
        ≠ r.vidlastmem (o + 1) &&& 0x07)
      || r.redrawfull

/-- **Every renderer draws its parts where they have changed.** -/
theorem run_eq (cfg : VideoConfig) (r : Refresh) (x xpixel ypixel offset : Nat) :
    f.run cfg r x xpixel ypixel offset
      = updateParts f.parts (f.changed r x offset)
        (f.draw cfg r.toScreen x xpixel ypixel offset) := by
  cases f <;> rfl

/-- Where a renderer draws a part. -/
def region (t : Tile) : Pixel → Prop :=
  match f with
  | .text80 => rect (14 * t.x + 7 * t.part) (16 * t.y) 7 16
  | .hires | .dhires => rect (14 * t.x) (16 * t.y + 2 * t.part) 14 2
  | _ => rect (14 * t.x) (16 * t.y) 14 16

/-- The part of a cell a place is in. -/
def partAt (p : Pixel) : Nat :=
  match f with
  | .text80 => p.1 % 14 / 7
  | .hires | .dhires => p.2 % 16 / 2
  | _ => 0

end UpdateFunc

/-! ## What a part's renderer paints -/

section Paints

variable (cfg : VideoConfig)

/-- A block paints its rectangle. -/
theorem drawBlock_paints (val : UInt8) (x xpixel ypixel width : Nat) :
    Paint.Paints (rect xpixel ypixel width 16)
      (Screen.drawBlock cfg val x xpixel ypixel width) :=
  ((copySource_paints cfg xpixel ypixel width 8 _ _).comp
    (copySource_paints cfg xpixel (ypixel + 8) width 8 _ _)).congr fun p => by
      unfold rect
      omega

/-- Two segments of double high resolution paint the width of a cell. -/
theorem drawDhires_paints (s : Screen) (x xpixel ypixel o : Nat) :
    Paint.Paints (rect xpixel ypixel 14 2) (s.drawDhires cfg x xpixel ypixel o) :=
  ((copySource_paints cfg (xpixel + 0) ypixel 7 2 _ _).comp
    (copySource_paints cfg (xpixel + 7) ypixel 7 2 _ _)).congr fun p => by
      unfold rect
      omega

/-- **A renderer paints the region of the part.** -/
theorem UpdateFunc.draw_paints (f : UpdateFunc) (s : Screen) (t : Tile) (offset : Nat) :
    Paint.Paints (f.region t)
      (f.draw cfg s t.x (14 * t.x) (16 * t.y) offset t.part) := by
  cases f with
  | text40 => exact copySource_paints cfg _ _ _ _ _ _
  | text80 => exact copySource_paints cfg _ _ _ _ _ _
  | lores => exact drawBlock_paints cfg _ _ _ _ _
  | dlores =>
    refine ((drawBlock_paints cfg _ _ _ _ _).comp
      (drawBlock_paints cfg _ _ _ _ _)).congr fun p => ?_
    show rect _ _ _ _ p ∨ rect _ _ _ _ p ↔ rect _ _ _ _ p
    unfold rect
    omega
  | hires => exact copySource_paints cfg _ _ _ _ _ _
  | dhires => exact drawDhires_paints cfg _ _ _ _ _

/-- **A place is in one part of one cell.** -/
theorem UpdateFunc.eq_of_region (f : UpdateFunc) {t : Tile} {p : Pixel}
    (hpart : t.part < f.parts) (hp : f.region t p) :
    t.x = p.1 / 14 ∧ t.y = p.2 / 16 ∧ t.part = f.partAt p := by
  cases f <;> simp only [parts, region, partAt, rect] at hpart hp ⊢ <;> omega

end Paints

/-! ## A frame of tiles -/

section Frame

variable (cfg : VideoConfig)

/-- The parts a row's cells have. -/
def VideoMode.partsAt (m : VideoMode) (y : Nat) : Nat := (m.updateAt y).parts

/-- The tiles of a cell. -/
def VideoMode.cellTiles (m : VideoMode) (y x : Nat) : List Tile :=
  (List.range (m.partsAt y)).map fun k => ⟨x, y, k⟩

/-- The tiles of a row. -/
def VideoMode.rowTiles (m : VideoMode) (y : Nat) : List Tile :=
  (List.range 40).flatMap (m.cellTiles y)

/-- **The tiles of the screen.** -/
def VideoMode.tiles (m : VideoMode) : List Tile := (List.range 24).flatMap m.rowTiles

/-- What is drawn in a tile. -/
def Screen.tile (s : Screen) (t : Tile) : Bitmap → Bitmap :=
  if t.part < s.mode.partsAt t.y then
    (s.mode.updateAt t.y).draw cfg s t.x (14 * t.x) (16 * t.y) (rowOffset t.y + t.x)
      t.part
  else id

/-- Whether a tile is found changed. -/
def Refresh.dirty (r : Refresh) (t : Tile) : Bool :=
  (r.mode.updateAt t.y).changed r t.x (rowOffset t.y + t.x) t.part

/-- The region of a tile in a mode. -/
def VideoMode.region (m : VideoMode) (t : Tile) (p : Pixel) : Prop :=
  t.part < m.partsAt t.y ∧ (m.updateAt t.y).region t p

/-- **The tiles of a screen do not overlap.** -/
theorem Screen.tiling (s : Screen) : Paint.Tiling (s.tile cfg) := by
  refine @Paint.tiling_of_paints _ _ _ s.mode.region _ (fun t => ?_) ?_
  · unfold Screen.tile VideoMode.region
    split
    · next ht =>
      exact (UpdateFunc.draw_paints cfg _ s t _).congr fun p => by
        rw [and_iff_right ht]
    · next ht => exact ⟨fun _ _ _ => rfl, fun _ _ _ h => absurd h.1 ht⟩
  · intro i j hij p hi hj
    obtain ⟨hx, hy, hk⟩ := UpdateFunc.eq_of_region _ hi.1 hi.2
    obtain ⟨hx', hy', hk'⟩ := UpdateFunc.eq_of_region _ hj.1 hj.2
    have hyy : i.y = j.y := hy.trans hy'.symm
    rw [hyy] at hk
    apply hij
    cases i
    cases j
    simp only [Tile.mk.injEq]
    exact ⟨hx.trans hx'.symm, hyy, hk.trans hk'.symm⟩

/-! ## A refresh paints the dirty tiles -/

/-- A cell's renderer paints the cell's dirty tiles. -/
theorem run_fst (r : Refresh) (y x : Nat) (b : Bitmap) :
    ((r.mode.updateAt y).run cfg r x (14 * x) (16 * y) (rowOffset y + x) b).1
      = Paint.paintDirty (r.tile cfg) r.dirty (r.mode.cellTiles y x) b := by
  rw [UpdateFunc.run_eq, updateParts_fst, VideoMode.cellTiles, Paint.paintDirty_map]
  refine Paint.paintDirty_congr (fun k hk => ?_) (fun _ _ => rfl) b
  have hk' : k < r.mode.partsAt y := List.mem_range.mp hk
  unfold Screen.tile
  rw [if_pos hk']

theorem updateRow_fst (r : Refresh) (y : Nat) (acc : Bitmap × Bool) :
    (updateRow cfg r y acc).1
      = Paint.paintDirty (r.tile cfg) r.dirty (r.mode.rowTiles y) acc.1 := by
  unfold updateRow VideoMode.rowTiles
  rw [Paint.paintDirty_flatMap]
  induction List.range 40 generalizing acc with
  | nil => rfl
  | cons x xs ih =>
    rw [List.foldl_cons, List.foldl_cons, ih, ← run_fst]

/-- **A refresh paints the dirty tiles.** -/
theorem updateRows_fst (r : Refresh) (acc : Bitmap × Bool) :
    (updateRows cfg r acc).1
      = Paint.paintDirty (r.tile cfg) r.dirty r.mode.tiles acc.1 := by
  unfold updateRows VideoMode.tiles
  rw [Paint.paintDirty_flatMap]
  induction List.range 24 generalizing acc with
  | nil => rfl
  | cons y ys ih =>
    rw [List.foldl_cons, List.foldl_cons, ih, updateRow_fst]

/-- With `redrawfull` set every tile is dirty. -/
theorem Refresh.dirty_of_redrawfull {r : Refresh} (h : r.redrawfull = true) (t : Tile) :
    r.dirty t = true := by
  unfold Refresh.dirty UpdateFunc.changed
  cases r.mode.updateAt t.y <;> simp [h]

/-- **A redraw of everything paints every tile.** -/
theorem updateRows_fst_of_redrawfull {r : Refresh} (h : r.redrawfull = true)
    (acc : Bitmap × Bool) :
    (updateRows cfg r acc).1 = Paint.paintAll (r.tile cfg) r.mode.tiles acc.1 := by
  rw [updateRows_fst]
  exact Paint.paintDirty_of_dirty (fun t _ => r.dirty_of_redrawfull h t) _

/-- What a tile of a screen is. -/
theorem VideoMode.mem_tiles {m : VideoMode} {t : Tile} (h : t ∈ m.tiles) :
    t.y < 24 ∧ t.x < 40 ∧ t.part < m.partsAt t.y := by
  obtain ⟨y, hy, h⟩ := List.mem_flatMap.mp h
  obtain ⟨x, hx, h⟩ := List.mem_flatMap.mp h
  obtain ⟨k, hk, rfl⟩ := List.mem_map.mp h
  exact ⟨List.mem_range.mp hy, List.mem_range.mp hx, List.mem_range.mp hk⟩

/-- The offsets of a row's cells. -/
theorem rowOffset_add_lt {x y : Nat} (hx : x < 40) (hy : y < 24) :
    rowOffset y + x < 0x3FF := by
  have h : rowOffset y ≤ 7 * 128 + 2 * 40 := by
    unfold rowOffset
    have h7 : y &&& 7 ≤ 7 := Nat.and_le_right
    rw [Nat.shiftLeft_eq, Nat.shiftRight_eq_div_pow]
    omega
  omega

end Frame

end LinApple.Video
