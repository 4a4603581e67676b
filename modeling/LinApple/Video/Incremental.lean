import LinApple.Video.Tiles

/-!
# A refresh is a redraw

A refresh skips what has not changed since the last one. It may, as long as the copy it compares
with is a copy of what was drawn. The copies share one buffer, and in a mode with both `VF_DHIRES`
and `VF_HIRES` the copy of the auxiliary hi-res page lies over those of the text pages; text shown
in such a mode, alone or below the picture, is compared with hi-res bytes. In every other mode a
refresh draws what a redraw of everything would.

Each frame of a run is kept twice: as it was drawn, and as a refresh with everything to be redrawn
would have drawn it from the same memory, latched mode and flash state. A run is right if the two
are the same for every frame (`frames_full`), those that a soft switch makes in the middle of a
frame included.

What carries the proof is `Drawn`. There is a screen, which need not be the one memory shows now,
such that every tile of its mode stands on the bitmap as this screen has it, and the copies are
copies of it (`Copied`). A refresh compares memory with the copies, so a tile it skips is one on
which the two screens agree, and after it the screen is the present one. `Copied` speaks only of
those parts of the buffer that the mode in question compares with, and asks nothing of the text
copies in the modes that clobber them. So a picture in double hi-res is harmless by itself, and
the condition on a run (`ComparesOwn`) forbids only what goes wrong: a refresh in such a mode that
shows text and is not a redraw. A switch that changes the picture draws everything at once, so the
mode of that screen is always the one in `video_mode`.
-/

namespace LinApple.Video

/-- **Whether the copies of what is shown lie over one another.** -/
def VideoMode.clobbers (m : VideoMode) : Bool := m.dhires && m.hires && m.showsText

/-! ## What has been copied -/

/-- **A copy of what was drawn.** -/
structure Copied (s : Screen) (last : Nat → UInt8) : Prop where
  text : ¬ (s.mode.dhires ∧ s.mode.hires) → ∀ o < 0x400,
    last (o + 0x400) = s.textBank0 o
  aux : ¬ (s.mode.dhires ∧ s.mode.hires) → s.mode.col80 → ∀ o < 0x400,
    last o = s.textBank1 o
  hires : s.mode.hires → ∀ o < 0x2000, last (o + 0x2000) = s.hiresBank0 o
  dhires : s.mode.dhires ∧ s.mode.hires → ∀ o < 0x2000, last o = s.hiresBank1 o

section Memcpy

variable {dst n a : Nat} {src last : Nat → UInt8}

theorem memcpy_add {o : Nat} (h : o < n) :
    memcpy dst src n last (o + dst) = src o := by
  unfold memcpy
  rw [if_pos ⟨Nat.le_add_left _ _, by omega⟩, Nat.add_sub_cancel]

theorem memcpy_of_lt (h : a < dst) : memcpy dst src n last a = last a :=
  if_neg fun h' => absurd h'.1 (Nat.not_le.mpr h)

theorem memcpy_of_le (h : dst + n ≤ a) : memcpy dst src n last a = last a :=
  if_neg fun h' => absurd h'.2 (Nat.not_lt.mpr h)

end Memcpy

/-- **The copy a refresh leaves is one of what it has drawn.** -/
theorem setLastDrawnImage_copied (s : Screen) (last : Nat → UInt8) :
    Copied s (setLastDrawnImage s last) := by
  constructor
  · intro hd o ho
    have hd' : (s.mode.dhires && s.mode.hires) = false := by
      rw [← Bool.not_eq_true, Bool.and_eq_true]
      exact hd
    have hhires (l : Nat → UInt8) :
        (if s.mode.hires then memcpy 0x2000 s.hiresBank0 0x2000 l else l) (o + 0x400)
          = l (o + 0x400) := by
      split
      · exact memcpy_of_lt (by omega)
      · rfl
    unfold setLastDrawnImage
    simp only [hd', Bool.false_eq_true, if_false]
    split
    · rw [memcpy_of_le (by omega), hhires, memcpy_add ho]
    · rw [hhires, memcpy_add ho]
  · intro hd h80 o ho
    have hd' : (s.mode.dhires && s.mode.hires) = false := by
      rw [← Bool.not_eq_true, Bool.and_eq_true]
      exact hd
    unfold setLastDrawnImage
    simp only [hd', Bool.false_eq_true, if_false, h80, if_true]
    exact memcpy_add ho
  · intro hh o ho
    unfold setLastDrawnImage
    simp only [hh, if_true]
    split
    · rw [memcpy_of_le (by omega), memcpy_add ho]
    · split
      · rw [memcpy_of_le (by omega), memcpy_add ho]
      · rw [memcpy_add ho]
  · intro hd o ho
    unfold setLastDrawnImage
    simp only [hd.1, hd.2, Bool.and_self, if_true]
    exact memcpy_add ho

/-! ## What does not need to be drawn again -/

/-- **The screen that is on the bitmap**: it was drawn in this mode, and the
copies are of it. -/
structure Drawn (cfg : VideoConfig) (v : VideoState) (s : Screen) : Prop where
  mode : s.mode.picture = v.videoMode.picture
  altCharSet : s.altCharSet = v.altCharSet
  flash : v.textFlashFlag = false → v.videoMode.showsText →
    s.textFlashState = v.textFlashState
  shows : ∀ t ∈ s.mode.tiles, Paint.Shows (s.tile cfg) t v.bitmap
  copied : Copied s v.vidlastmem

section Clean

variable {cfg : VideoConfig} {v : VideoState} {s : Screen} {memory : DisplayMemory}

/-- What of the mode decides the renderers. -/
theorem updateAt_congr {m m' : VideoMode} (h : m.picture = m'.picture) :
    m.updateAt = m'.updateAt := by
  unfold VideoMode.picture at h
  simp only [VideoMode.mk.injEq, true_and] at h
  obtain ⟨h80, hd, hh, hm, ht⟩ := h
  funext y
  simp only [VideoMode.updateAt, VideoMode.update, VideoMode.updateText, h80, hd, hh, hm, ht]

/-- The line of a character that does not have to be drawn again. -/
theorem charLine_congr (s s' : Screen) (cfg : VideoConfig) {ch : UInt8}
    (halt : s.altCharSet = s'.altCharSet)
    (hflash : s.isFlashing ch → s.textFlashState = s'.textFlashState) :
    s.charLine cfg ch = s'.charLine cfg ch := by
  have hf : s.isFlashing ch = s'.isFlashing ch := by
    unfold Screen.isFlashing
    rw [halt]
  unfold Screen.charLine
  rw [halt, ← hf]
  by_cases h : s.isFlashing ch = true
  · rw [hflash h]
  · rw [(Bool.not_eq_true _).mp h, Bool.false_and, Bool.false_and]

/-- The modes a renderer can be called in when no copy is lain over. -/
def UpdateFunc.Suits (f : UpdateFunc) (m : VideoMode) : Prop :=
  match f with
  | .text40 => ¬ (m.dhires ∧ m.hires) ∧ m.showsText
  | .text80 => (¬ (m.dhires ∧ m.hires) ∧ m.showsText) ∧ m.col80
  | .lores => ¬ (m.dhires ∧ m.hires)
  | .dlores => ¬ (m.dhires ∧ m.hires) ∧ m.col80
  | .hires => m.hires
  | .dhires => m.dhires ∧ m.hires

/-- **Unless the copies lie over one another, every renderer has its own.** -/
theorem updateAt_suits {m : VideoMode} (h : m.clobbers = false) (y : Nat) :
    (m.updateAt y).Suits m := by
  have htext (hs : m.showsText = true) : m.updateText.Suits m := by
    have hd : ¬ (m.dhires = true ∧ m.hires = true) := fun hd => by
      simp only [VideoMode.clobbers, hd.1, hd.2, hs, Bool.and_self,
        Bool.true_eq_false] at h
    unfold VideoMode.updateText
    split
    · next h80 => exact ⟨⟨hd, hs⟩, h80⟩
    · exact ⟨hd, hs⟩
  unfold VideoMode.updateAt
  split
  · next hm => exact htext (by rw [VideoMode.showsText, hm.2, Bool.or_true])
  unfold VideoMode.update
  split
  · next ht => exact htext (by rw [VideoMode.showsText, ht, Bool.true_or])
  split
  · next hh =>
    split
    · next hd => exact ⟨(Bool.and_eq_true_iff.mp hd).1, hh⟩
    · exact hh
  · next hh =>
    split
    · next hd => exact ⟨fun h' => hh h'.2, (Bool.and_eq_true_iff.mp hd).2⟩
    · exact fun h' => hh h'.2

/-- The copies, said of the mode the machine is in. -/
theorem Drawn.copied_of_mode (h : Drawn cfg v s) :
    Copied { s with mode := v.videoMode } v.vidlastmem := by
  have hm := h.mode
  unfold VideoMode.picture at hm
  simp only [VideoMode.mk.injEq, true_and] at hm
  obtain ⟨h80, hd, hh, -, -⟩ := hm
  have hc := h.copied
  constructor
  · rw [← hd, ← hh]
    exact hc.text
  · rw [← hd, ← hh, ← h80]
    exact hc.aux
  · rw [← hh]
    exact hc.hires
  · rw [← hd, ← hh]
    exact hc.dhires

/-- A flashing character that is not drawn again has not flashed. -/
theorem Drawn.charLine_eq (h : Drawn cfg v s) (hs : v.videoMode.showsText) {ch : UInt8}
    (hflash : ((v.screen memory).isFlashing ch && v.textFlashFlag) = false) :
    (v.screen memory).charLine cfg ch = s.charLine cfg ch := by
  refine charLine_congr _ _ cfg h.altCharSet.symm fun hf => ?_
  rw [hf, Bool.true_and] at hflash
  exact (h.flash hflash hs).symm

/-- The byte left of a part that is found unchanged. -/
theorem byteLeft_congr {bank bank' last : Nat → UInt8} {x o : Nat} {mask : UInt8}
    (hcopy : ∀ o < 0x2000, last (o + 0x2000) = bank' o) (ho : o < 0x2000) (hx : x ≤ o)
    (h : x > 0 → Screen.byteLeft bank x o &&& mask = last (o + 0x1FFF) &&& mask) :
    Screen.byteLeft bank x o &&& mask = Screen.byteLeft bank' x o &&& mask := by
  by_cases hx0 : x > 0
  · have hlast : last (o + 0x1FFF) = bank' (o - 1) := by
      rw [← hcopy (o - 1) (by omega)]
      exact congrArg last (by omega)
    rw [h hx0, hlast, Screen.byteLeft, if_pos hx0]
  · unfold Screen.byteLeft
    rw [if_neg hx0, if_neg hx0]

/-- The byte right of a part that is found unchanged, in a copy at `d`. -/
theorem byteRight_congr {bank bank' last : Nat → UInt8} {x o : Nat} (d : Nat)
    {mask : UInt8} (hcopy : ∀ o < 0x2000, last (o + d) = bank' o) (ho : o + 1 < 0x2000)
    (h : x < 39 → Screen.byteRight bank x o &&& mask = last (o + (d + 1)) &&& mask) :
    Screen.byteRight bank x o &&& mask = Screen.byteRight bank' x o &&& mask := by
  by_cases hx : x < 39
  · have hlast : last (o + (d + 1)) = bank' (o + 1) := by
      rw [← hcopy (o + 1) ho]
      exact congrArg last (by omega)
    rw [h hx, hlast, Screen.byteRight, if_pos hx]
  · unfold Screen.byteRight
    rw [if_neg hx, if_neg hx]

/-- **A part that is found unchanged is what was drawn.** -/
theorem Drawn.draw_eq (h : Drawn cfg v s) (f : UpdateFunc) (hf : f.Suits v.videoMode)
    {x offset k : Nat} (xpixel ypixel : Nat) (hoff : offset < 0x3FF)
    (hx : x ≤ offset) (hk : k < f.parts)
    (hclean : f.changed (v.beginRefresh memory) x offset k = false) :
    f.draw cfg (v.screen memory) x xpixel ypixel offset k
      = f.draw cfg s x xpixel ypixel offset k := by
  have hc := h.copied_of_mode
  have ho : offset < 0x400 := Nat.lt_of_lt_of_le hoff (by decide)
  -- one case per update function: its test for a changed cell reads what it is about to draw,
  -- so a cell that passes for clean shows the same
  cases f with
  | text40 =>
    simp only [UpdateFunc.changed, Bool.or_eq_false_iff, decide_eq_false_iff_not,
      not_not] at hclean
    have hch : (v.screen memory).textBank0 offset = s.textBank0 offset :=
      hclean.1.1.trans (hc.text hf.1 offset ho)
    have hline : (v.screen memory).charLine cfg ((v.screen memory).textBank0 offset)
        = s.charLine cfg ((v.screen memory).textBank0 offset) :=
      h.charLine_eq hf.2 hclean.2
    simp only [UpdateFunc.draw, Screen.draw40col]
    rw [hline, hch]
  | text80 =>
    simp only [UpdateFunc.changed, Bool.or_eq_false_iff, decide_eq_false_iff_not,
      not_not] at hclean
    have hch : (v.screen memory).textBank k offset = s.textBank k offset := by
      refine hclean.1.1.trans ?_
      have hk' : k < 2 := hk
      obtain rfl | rfl : k = 0 ∨ k = 1 := by omega
      · exact hc.aux hf.1.1 hf.2 offset ho
      · exact hc.text hf.1.1 offset ho
    have hline : (v.screen memory).charLine cfg ((v.screen memory).textBank k offset)
        = s.charLine cfg ((v.screen memory).textBank k offset) :=
      h.charLine_eq hf.1.2 hclean.2
    simp only [UpdateFunc.draw, Screen.draw80column]
    rw [hline, hch]
  | lores =>
    simp only [UpdateFunc.changed, Bool.or_eq_false_iff, decide_eq_false_iff_not,
      not_not] at hclean
    have hval : (v.screen memory).textBank0 offset = s.textBank0 offset :=
      hclean.1.trans (hc.text hf offset ho)
    show Screen.drawBlock _ _ _ _ _ _ = _
    rw [hval]
    rfl
  | dlores =>
    simp only [UpdateFunc.changed, Bool.or_eq_false_iff, decide_eq_false_iff_not,
      not_not] at hclean
    have haux : (v.screen memory).textBank1 offset = s.textBank1 offset :=
      hclean.1.1.trans (hc.aux hf.1 hf.2 offset ho)
    have hmain : (v.screen memory).textBank0 offset = s.textBank0 offset :=
      hclean.1.2.trans (hc.text hf.1 offset ho)
    unfold UpdateFunc.draw
    rw [haux, hmain]
  -- a graphics cell also shows the edges of its two neighbours, and the test covers only the bits
  -- of them that reach into it
  | hires =>
    have hk' : k < 8 := hk
    simp only [UpdateFunc.changed, Bool.or_eq_false_iff, decide_eq_false_iff_not,
      not_not, Bool.and_eq_false_imp, decide_eq_true_eq] at hclean
    obtain ⟨⟨⟨hbyte, hleft⟩, hright⟩, -⟩ := hclean
    have hcopy := hc.hires hf
    have h1 : Screen.byteLeft (v.screen memory).hiresBank0 x (offset + 0x400 * k) &&& 0x60
        = Screen.byteLeft s.hiresBank0 x (offset + 0x400 * k) &&& 0x60 :=
      byteLeft_congr hcopy (by omega) (by omega) hleft
    have h2 : (v.screen memory).hiresBank0 (offset + 0x400 * k)
        = s.hiresBank0 (offset + 0x400 * k) := hbyte.trans (hcopy _ (by omega))
    have h3 : Screen.byteRight (v.screen memory).hiresBank0 x (offset + 0x400 * k) &&& 0x03
        = Screen.byteRight s.hiresBank0 x (offset + 0x400 * k) &&& 0x03 :=
      byteRight_congr 0x2000 hcopy (by omega) hright
    simp only [UpdateFunc.draw, Screen.drawHires, h1, h2, h3]
  | dhires =>
    have hk' : k < 8 := hk
    simp only [UpdateFunc.changed, Bool.or_eq_false_iff, decide_eq_false_iff_not,
      not_not, Bool.and_eq_false_imp, decide_eq_true_eq] at hclean
    obtain ⟨⟨⟨⟨haux, hmain⟩, hleft⟩, hright⟩, -⟩ := hclean
    have hcopy := hc.hires hf.2
    have hcopy1 := hc.dhires hf
    have h1 : Screen.byteLeft (v.screen memory).hiresBank0 x (offset + 0x400 * k) &&& 0x70
        = Screen.byteLeft s.hiresBank0 x (offset + 0x400 * k) &&& 0x70 :=
      byteLeft_congr hcopy (by omega) (by omega) hleft
    have h2 : (v.screen memory).hiresBank1 (offset + 0x400 * k)
        = s.hiresBank1 (offset + 0x400 * k) := haux.trans (hcopy1 _ (by omega))
    have h3 : (v.screen memory).hiresBank0 (offset + 0x400 * k)
        = s.hiresBank0 (offset + 0x400 * k) := hmain.trans (hcopy _ (by omega))
    have h4 : Screen.byteRight (v.screen memory).hiresBank1 x (offset + 0x400 * k) &&& 0x07
        = Screen.byteRight s.hiresBank1 x (offset + 0x400 * k) &&& 0x07 :=
      byteRight_congr 0 hcopy1 (by omega) hright
    have hdots : (v.screen memory).dhiresDots x (offset + 0x400 * k)
        = s.dhiresDots x (offset + 0x400 * k) := by
      simp only [Screen.dhiresDots, h1, h2, h3, h4]
    funext b
    simp only [UpdateFunc.draw, Screen.drawDhires, hdots]

/-- **A tile that is found unchanged shows what it should.** -/
theorem Drawn.shows_of_clean (h : Drawn cfg v s) (hm : v.videoMode.clobbers = false)
    {t : Tile} (ht : t ∈ v.videoMode.tiles)
    (hclean : (v.beginRefresh memory).dirty t = false) :
    Paint.Shows ((v.screen memory).tile cfg) t v.bitmap := by
  obtain ⟨hy, hx, hk⟩ := VideoMode.mem_tiles ht
  have hat := updateAt_congr h.mode
  have hparts : s.mode.partsAt t.y = v.videoMode.partsAt t.y :=
    congrArg (fun f : Nat → UpdateFunc => (f t.y).parts) hat
  have htiles : t ∈ s.mode.tiles := by
    have hp : s.mode.partsAt = v.videoMode.partsAt :=
      congrArg (fun (f : Nat → UpdateFunc) y => (f y).parts) hat
    unfold VideoMode.tiles VideoMode.rowTiles VideoMode.cellTiles
    rw [hp]
    exact ht
  have hdraw := h.draw_eq _ (updateAt_suits hm t.y) (14 * t.x) (16 * t.y)
    (rowOffset_add_lt hx hy) (Nat.le_add_left _ _) hk hclean
  have htile : (v.screen memory).tile cfg t = s.tile cfg t := by
    unfold Screen.tile
    rw [hparts, hat]
    show (if t.part < v.videoMode.partsAt t.y then _ else id) = _
    rw [if_pos hk, if_pos hk]
    exact hdraw
  unfold Paint.Shows
  rw [htile]
  exact h.shows t htiles

end Clean

/-! ## A refresh is a redraw -/

/-- **What a refresh may rely on**: it draws everything, or it knows what is
on the bitmap. -/
def Sound (cfg : VideoConfig) (v : VideoState) : Prop :=
  v.redrawfull = true ∨ ∃ s, Drawn cfg v s

/-- Whether a refresh does not compare with a copy that has been lain over. -/
def VideoState.comparesOwn (v : VideoState) : Prop :=
  v.redrawfull = true ∨ v.videoMode.clobbers = false

section Refresh

variable {cfg : VideoConfig} {v : VideoState} (memory : DisplayMemory)

/-- A redraw of everything paints every tile. -/
theorem fullFrame_eq (cfg : VideoConfig) (v : VideoState) :
    v.fullFrame cfg memory
      = Paint.paintAll ((v.screen memory).tile cfg) v.videoMode.tiles v.bitmap := by
  have hr : (({ v with redrawfull := true }).beginRefresh memory).redrawfull = true := rfl
  have hs : (({ v with redrawfull := true }).beginRefresh memory).toScreen
      = v.screen memory := rfl
  unfold VideoState.fullFrame VideoState.frame
  rw [updateRows_fst_of_redrawfull cfg hr, hs]
  rfl

/-- **A refresh draws what a redraw of everything would.** -/
theorem Sound.frame_eq (h : Sound cfg v) (hown : v.comparesOwn) :
    (v.frame cfg memory).1 = v.fullFrame cfg memory := by
  by_cases hr : v.redrawfull = true
  · have hv : { v with redrawfull := true } = v := by rw [← hr]
    unfold VideoState.fullFrame
    rw [hv]
  · obtain ⟨s, hs⟩ := h.resolve_left hr
    rw [fullFrame_eq]
    have hs' : (v.beginRefresh memory).toScreen = v.screen memory := rfl
    unfold VideoState.frame
    rw [updateRows_fst, hs']
    exact (Screen.tiling cfg (v.screen memory)).paintDirty_eq _ fun t ht hd =>
      hs.shows_of_clean (hown.resolve_left hr) ht hd

/-- A refresh knows what it leaves on the bitmap. -/
theorem Sound.videoPerformRefresh (h : Sound cfg v) (hown : v.comparesOwn) :
    Sound cfg (v.videoPerformRefresh cfg memory) := by
  refine .inr ⟨v.screen memory, rfl, rfl, fun _ _ => rfl, fun t ht => ?_,
    setLastDrawnImage_copied _ _⟩
  rw [VideoState.bitmap_videoPerformRefresh, h.frame_eq memory hown, fullFrame_eq]
  exact (Screen.tiling cfg (v.screen memory)).shows_of_mem ht _

/-- The frames are those that redraws of everything would have drawn. -/
def AllFull (v : VideoState) : Prop := ∀ f ∈ v.frames, f.1 = f.2

theorem AllFull.videoPerformRefresh (hf : AllFull v) (h : Sound cfg v)
    (hown : v.comparesOwn) : AllFull (v.videoPerformRefresh cfg memory) := by
  intro f hmem
  rw [VideoState.frames_videoPerformRefresh] at hmem
  rcases List.mem_append.mp hmem with hmem | hmem
  · exact hf f hmem
  · have hfull := h.frame_eq memory hown
    rw [List.mem_singleton.mp hmem]
    dsimp only
    exact hfull

/-- A redraw of everything, whatever is on the bitmap. -/
theorem redraw (hf : AllFull v) (hr : v.redrawfull = true) :
    Sound cfg (v.videoPerformRefresh cfg memory) ∧
      AllFull (v.videoPerformRefresh cfg memory) :=
  have h : Sound cfg v := .inl hr
  ⟨h.videoPerformRefresh memory (.inl hr), hf.videoPerformRefresh memory h (.inl hr)⟩

/-- A switch that does not change the picture leaves what is known of it. -/
theorem Sound.of_picture {w : VideoState} (h : Sound cfg v)
    (hredraw : w.redrawfull = v.redrawfull) (halt : w.altCharSet = v.altCharSet)
    (hmode : w.videoMode.picture = v.videoMode.picture)
    (hflag : w.textFlashFlag = v.textFlashFlag)
    (hstate : w.textFlashState = v.textFlashState) (hbitmap : w.bitmap = v.bitmap)
    (hlast : w.vidlastmem = v.vidlastmem) : Sound cfg w := by
  rcases h with hr | ⟨s, hs⟩
  · exact .inl (hredraw.trans hr)
  · have htext : w.videoMode.showsText = v.videoMode.showsText := by
      have h := congrArg VideoMode.showsText hmode
      exact h
    exact .inr ⟨s, hs.mode.trans hmode.symm, hs.altCharSet.trans halt.symm,
      fun hf ht => (hs.flash (hflag ▸ hf) (htext ▸ ht)).trans hstate.symm,
      hbitmap ▸ hs.shows, hlast ▸ hs.copied⟩

/-- **A soft switch.** -/
theorem Sound.videoSetMode (h : Sound cfg v) (hf : AllFull v) (ty : Apple2Type)
    (addr : UInt16) :
    Sound cfg (v.videoSetMode cfg memory ty addr) ∧
      AllFull (v.videoSetMode cfg memory ty addr) := by
  have hpage {w : VideoState} (hw : Sound cfg w ∧ AllFull w) :
      Sound cfg (if w.displaypage2 ≠ w.videoMode.page2 then
        VideoState.videoPerformRefresh cfg memory
          { w with displaypage2 := w.videoMode.page2, redrawfull := true } else w) ∧
      AllFull (if w.displaypage2 ≠ w.videoMode.page2 then
        VideoState.videoPerformRefresh cfg memory
          { w with displaypage2 := w.videoMode.page2, redrawfull := true } else w) := by
    split
    · exact redraw memory hw.2 rfl
    · exact hw
  unfold VideoState.videoSetMode
  refine hpage ?_
  split
  · exact redraw memory hf rfl
  · next hsame =>
    rw [not_not, Prod.mk.injEq] at hsame
    exact ⟨h.of_picture rfl hsame.1.symm hsame.2.symm rfl rfl rfl rfl, hf⟩

/-- **The flash.** -/
theorem Sound.videoUpdateFlash (h : Sound cfg v) : Sound cfg v.videoUpdateFlash := by
  by_cases hc : v.textFlashCnt + 1 = 60 / 6
  · have hv : v.videoUpdateFlash = { v with
        textFlashCnt := 0
        textFlashState := !v.textFlashState
        textFlashFlag := if v.videoMode.showsText then true else v.textFlashFlag } :=
      if_pos hc
    rw [hv]
    rcases h with hr | ⟨s, hs⟩
    · exact .inl hr
    · refine .inr ⟨s, hs.mode, hs.altCharSet, fun hflag htext => ?_, hs.shows, hs.copied⟩
      -- where text is shown the flag is up, and the next refresh draws it
      rw [if_pos htext] at hflag
      cases hflag
  · have hv : v.videoUpdateFlash = { v with textFlashCnt := v.textFlashCnt + 1 } :=
      if_neg hc
    rw [hv]
    exact h.of_picture rfl rfl rfl rfl rfl rfl rfl

/-- The flash draws no frame. -/
theorem frames_videoUpdateFlash (v : VideoState) : v.videoUpdateFlash.frames = v.frames := by
  unfold VideoState.videoUpdateFlash
  by_cases hc : v.textFlashCnt + 1 = 60 / 6
  · simp only [hc, if_true]
  · simp only [hc, if_false]

end Refresh

/-! ## Runs -/

/-- **The guard of a step**: a refresh does not compare with a copy that has
been lain over. -/
def ComparesOwn (d : Display) (op : DisplayOp) (_ : List DisplayOp) : Prop :=
  match op with
  | .refresh => d.video.comparesOwn
  | _ => True

/-- **Every refresh draws what a redraw of everything would**, in every run from a reset: explicit
ones and those a soft switch makes. The frames are kept in pairs, as they were drawn and as a
redraw would draw them. Of the run it is asked that no refresh compares with a copy that has been
lain over since (`ComparesOwn`). -/
theorem frames_full (ty : Apple2Type) (cfg : VideoConfig) (v : VideoState)
    (hframes : v.frames = []) (memory : DisplayMemory) (ops : List DisplayOp)
    (hops : (displayMachine ty cfg).Admits ComparesOwn ⟨v.videoResetState, memory⟩ ops) :
    ∀ f ∈ ((displayMachine ty cfg).run ⟨v.videoResetState, memory⟩ ops).video.frames,
      f.1 = f.2 := by
  have hinit : Sound cfg v.videoResetState ∧ AllFull v.videoResetState :=
    ⟨.inl rfl, fun f hf => absurd (hframes ▸ hf : f ∈ []) List.not_mem_nil⟩
  refine (Machine.invariant_run (displayMachine ty cfg)
    (I := fun d => Sound cfg d.video ∧ AllFull d.video) ?_ hinit hops).2
  intro d op rest h hop
  cases op with
  | write hires aux page2 o val => exact h
  | access addr => exact h.1.videoSetMode d.memory h.2 ty addr
  | flash =>
    refine ⟨h.1.videoUpdateFlash, ?_⟩
    show ∀ f ∈ d.video.videoUpdateFlash.frames, f.1 = f.2
    rw [frames_videoUpdateFlash]
    exact h.2
  | refresh =>
    exact ⟨h.1.videoPerformRefresh d.memory hop, h.2.videoPerformRefresh d.memory h.1 hop⟩

/-- The pictures with dots in their seventeenth column alone, where the
character 1 begins. -/
def stripes : VideoConfig where
  source p := if p.1 = 16 then 1 else 0
  videotype := .colorStandard
  language := false

/-- A display memory that is zero but for a byte of the auxiliary hi-res
page. -/
def oneAuxByte : DisplayMemory where
  text _ _ _ := 0
  hires aux _ o := if aux ∧ o = 0x400 then 1 else 0

/-- A character that is written between two refreshes. -/
theorem frames_full_text :
    let d := (displayMachine .apple2e stripes).run
      ⟨VideoState.blank.videoResetState, oneAuxByte⟩
      [.refresh, .write false false false 0 1, .refresh]
    d.video.frames.length = 2 ∧ ∀ f ∈ d.video.frames, f.1 = f.2 := by
  refine ⟨?_, frames_full .apple2e stripes VideoState.blank rfl oneAuxByte _
    ⟨.inl rfl, trivial, .inr ?_, trivial⟩⟩
  · simp only [Machine.run_cons, Machine.run_nil, displayMachine, Display.step,
      VideoState.frames_videoPerformRefresh]
    rfl
  · simp only [displayMachine, Display.step, VideoState.videoPerformRefresh]
    rfl

/-- A character is written, beside the double hi-res switches, that equals
the byte of the auxiliary hi-res page its own is compared with. -/
def clobbered : Display :=
  (displayMachine .apple2e stripes).run ⟨VideoState.blank.videoResetState, oneAuxByte⟩
    [.access 0xC057, .access 0xC05E, .write false false false 0 1, .refresh]

/-- The first dot of its last frame. -/
theorem clobbered_dot : (clobbered.video.frames.map fun f => f.1 (0, 0))[2]? = some 0 := by
  decide +kernel

/-- The first dot that a redraw of everything would have drawn. -/
theorem redrawn_dot : (clobbered.video.frames.map fun f => f.2 (0, 0))[2]? = some 1 := by
  decide +kernel

/-- **The last of these frames does not show the character.** -/
theorem frames_not_full : ¬ ∀ f ∈ clobbered.video.frames, f.1 = f.2 := by
  intro h
  have hsame : (clobbered.video.frames.map fun f => f.1 (0, 0))
      = clobbered.video.frames.map fun f => f.2 (0, 0) :=
    List.map_congr_left fun f hf => congrFun (h f hf) (0, 0)
  have hdot := clobbered_dot
  rw [hsame, redrawn_dot] at hdot
  exact absurd hdot (by decide)

end LinApple.Video
