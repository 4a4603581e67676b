import Mathlib.Tactic.Common

/-!
# Painting only what has changed

A picture is painted tile by tile. Where tiles do not overlap, a tile that
shows what it should may be left out, and painting the others gives the
picture that painting all of them gives.
-/

namespace LinApple.Paint

variable {ι β : Type*}

/-- **Painters of tiles that do not overlap**: painting a tile twice paints
it once, and different tiles may be painted in either order. -/
structure Tiling (paint : ι → β → β) : Prop where
  idem : ∀ i b, paint i (paint i b) = paint i b
  comm : ∀ {i j}, i ≠ j → ∀ b, paint i (paint j b) = paint j (paint i b)

/-- A tile that shows what it should: painting it changes nothing. -/
def Shows (paint : ι → β → β) (i : ι) (b : β) : Prop := paint i b = b

/-- Every tile is painted. -/
def paintAll (paint : ι → β → β) (tiles : List ι) (b : β) : β :=
  tiles.foldl (fun b i => paint i b) b

/-- The dirty tiles are painted. -/
def paintDirty (paint : ι → β → β) (dirty : ι → Bool) (tiles : List ι) (b : β) : β :=
  tiles.foldl (fun b i => if dirty i then paint i b else b) b

section Lists

variable {κ : Type*} {paint paint' : ι → β → β} {dirty dirty' : ι → Bool}

/-- Painting depends on the painters of the tiles that are painted. -/
theorem paintDirty_congr {tiles : List ι} (hpaint : ∀ i ∈ tiles, paint i = paint' i)
    (hdirty : ∀ i ∈ tiles, dirty i = dirty' i) (b : β) :
    paintDirty paint dirty tiles b = paintDirty paint' dirty' tiles b := by
  induction tiles generalizing b with
  | nil => rfl
  | cons i tiles ih =>
    unfold paintDirty
    rw [List.foldl_cons, List.foldl_cons, hpaint i List.mem_cons_self,
      hdirty i List.mem_cons_self]
    exact ih (fun j hj => hpaint j (List.mem_cons_of_mem i hj))
      (fun j hj => hdirty j (List.mem_cons_of_mem i hj)) _

theorem paintDirty_map (f : κ → ι) (ks : List κ) (b : β) :
    paintDirty paint dirty (ks.map f) b
      = paintDirty (fun k => paint (f k)) (fun k => dirty (f k)) ks b :=
  List.foldl_map

theorem paintDirty_flatMap (f : κ → List ι) (ks : List κ) (b : β) :
    paintDirty paint dirty (ks.flatMap f) b
      = ks.foldl (fun b k => paintDirty paint dirty (f k) b) b :=
  List.foldl_flatMap

/-- Where every tile is dirty, every tile is painted. -/
theorem paintDirty_of_dirty {tiles : List ι} (h : ∀ i ∈ tiles, dirty i = true) (b : β) :
    paintDirty paint dirty tiles b = paintAll paint tiles b := by
  rw [paintDirty_congr (fun _ _ => rfl) h]
  rfl

end Lists

section Tiling

variable {paint : ι → β → β} (h : Tiling paint)
include h

/-- What has been painted shows what it should. -/
theorem Tiling.shows_self (i : ι) (b : β) : Shows paint i (paint i b) := h.idem i b

/-- A tile goes on showing what it should while others are painted. -/
theorem Tiling.shows_paint {i : ι} (j : ι) {b : β} (hi : Shows paint i b) :
    Shows paint i (paint j b) := by
  by_cases hij : i = j
  · subst hij
    exact h.idem i b
  · show paint i (paint j b) = paint j b
    rw [h.comm hij, hi]

theorem Tiling.shows_paintAll (tiles : List ι) {i : ι} {b : β}
    (hi : Shows paint i b) : Shows paint i (paintAll paint tiles b) := by
  induction tiles generalizing b with
  | nil => exact hi
  | cons j tiles ih => exact ih (h.shows_paint j hi)

/-- **Every tile that has been painted shows what it should.** -/
theorem Tiling.shows_of_mem {tiles : List ι} {i : ι} (hi : i ∈ tiles) (b : β) :
    Shows paint i (paintAll paint tiles b) := by
  induction tiles generalizing b with
  | nil => cases hi
  | cons j tiles ih =>
    rcases List.mem_cons.mp hi with rfl | hi
    · exact h.shows_paintAll tiles (h.shows_self i b)
    · exact ih hi (paint j b)

/-- **A clean tile may be left out.** -/
theorem Tiling.paintDirty_eq (dirty : ι → Bool) {tiles : List ι} {b : β}
    (hclean : ∀ i ∈ tiles, dirty i = false → Shows paint i b) :
    paintDirty paint dirty tiles b = paintAll paint tiles b := by
  induction tiles generalizing b with
  | nil => rfl
  | cons j tiles ih =>
    have htail : ∀ i ∈ tiles, dirty i = false → Shows paint i (paint j b) :=
      fun i hi hd => h.shows_paint j (hclean i (List.mem_cons_of_mem j hi) hd)
    unfold paintDirty paintAll
    rw [List.foldl_cons, List.foldl_cons]
    by_cases hj : dirty j = true
    · rw [if_pos hj]
      exact ih htail
    · have hshow : paint j b = b :=
        hclean j List.mem_cons_self ((Bool.not_eq_true _).mp hj)
      rw [if_neg hj, hshow]
      rw [hshow] at htail
      exact ih htail

end Tiling

/-! ## Painting a region -/

section Region

variable {α γ ι : Type*}

/-- **A painter of a region**: it leaves the rest alone, and what it paints
does not depend on what was there. -/
structure Paints (region : α → Prop) (paint : (α → γ) → α → γ) : Prop where
  outside : ∀ b {a}, ¬ region a → paint b a = b a
  inside : ∀ b b' {a}, region a → paint b a = paint b' a

section Paints

variable {region region' : α → Prop} {paint paint' : (α → γ) → α → γ}

/-- One painter after another paints both regions. -/
theorem Paints.comp (h : Paints region paint) (h' : Paints region' paint') :
    Paints (fun a => region a ∨ region' a) fun b => paint' (paint b) where
  outside b a ha := by
    rw [not_or] at ha
    rw [h'.outside _ ha.2, h.outside _ ha.1]
  inside b b' a ha := by
    by_cases ha' : region' a
    · exact h'.inside _ _ ha'
    · rw [h'.outside _ ha', h'.outside _ ha', h.inside b b' (ha.resolve_right ha')]

/-- A painter of a region paints every larger one that it fills. -/
theorem Paints.congr (h : Paints region paint)
    (hregion : ∀ a, region a ↔ region' a) : Paints region' paint where
  outside b a ha := h.outside b (mt (hregion a).mp ha)
  inside b b' a ha := h.inside b b' ((hregion a).mpr ha)

theorem Paints.idem (h : Paints region paint) (b : α → γ) :
    paint (paint b) = paint b := by
  funext a
  by_cases ha : region a
  · exact h.inside _ _ ha
  · exact h.outside _ ha

/-- Regions that do not overlap are painted in either order. -/
theorem Paints.comm (h : Paints region paint) (h' : Paints region' paint')
    (hdisjoint : ∀ a, region a → ¬ region' a) (b : α → γ) :
    paint (paint' b) = paint' (paint b) := by
  funext a
  by_cases ha : region a
  · rw [h.inside _ b ha, h'.outside _ (hdisjoint a ha)]
  · rw [h.outside _ ha]
    by_cases ha' : region' a
    · exact h'.inside _ _ ha'
    · rw [h'.outside _ ha', h'.outside _ ha', h.outside _ ha]

end Paints

/-- **Painters of regions that do not overlap are a tiling.** -/
theorem tiling_of_paints {region : ι → α → Prop} {paint : ι → (α → γ) → α → γ}
    (h : ∀ i, Paints (region i) (paint i))
    (hdisjoint : ∀ {i j}, i ≠ j → ∀ a, region i a → ¬ region j a) :
    Tiling paint where
  idem i := (h i).idem
  comm hij := (h _).comm (h _) (hdisjoint hij)

end Region

end LinApple.Paint
