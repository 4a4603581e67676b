import LinApple.Frontends.TuiVideo
import LinApple.Lib.Draws

/-!
# What a frame does to a terminal

The loops of `tui_video_render_frame` go through the cells in their order, and write those that
have changed. Where the cursor is and which colours the terminal has is known at every turn
(`Rendered`): the cursor from the last cell of the row that was written, and the colours from
the first cell on that has not the colour which is taken for the first one. So a frame paints
the cells that have changed (`painted`), writes the status row, and leaves the others
(`frame_effect`).
-/

namespace LinApple.Frontends

open Terminal

/-! ## What is written -/

/-- The cells that the loops go through. -/
structure Covered (w h : Nat) (status : Bool) (c : Nat × Nat) : Prop where
  column : c.1 < w
  row : c.2 < h
  not_last : ¬(c.1 = w - 1 ∧ c.2 = h - 1)
  not_status : ¬(status = true ∧ c.2 = h - 1)

/-- The order in which they do. -/
def Before (c p : Nat × Nat) : Prop := c.2 < p.2 ∨ c.2 = p.2 ∧ c.1 < p.1

/-- The cells that are written. -/
def Changed (w h : Nat) (status refresh : Bool) (back next : TuiBuffer) (c : Nat × Nat) : Prop :=
  Covered w h status c ∧ (next c ≠ back c ∨ refresh = true)

/-- A colour other than the first one has been set before a cell. -/
def Tinted (color : TuiState → TuiPixel) (next : TuiBuffer) (changed : Nat × Nat → Prop)
    (p : Nat × Nat) : Prop :=
  ∃ c, changed c ∧ Before c p ∧ color (next c) ≠ firstPixel

open Classical in
/-- The colour that the terminal has then. -/
noncomputable def tint (tinted : Prop) (p : TuiPixel) : Color :=
  if tinted then p.color else .default

open Classical in
/-- **What the terminal shows for a cell that is written.** -/
noncomputable def painted (next : TuiBuffer) (changed : Nat × Nat → Prop) (c : Nat × Nat) :
    Cell Glyph where
  glyph := (next c).text
  fg := tint (Tinted TuiState.fg next changed c ∨ (next c).fg ≠ firstPixel) (next c).fg
  bg := tint (Tinted TuiState.bg next changed c ∨ (next c).bg ≠ firstPixel) (next c).bg

/-- The colour that the terminal has, and the one it is taken to have. -/
structure TintedBy (color : TuiState → TuiPixel) (next : TuiBuffer) (changed : Nat × Nat → Prop)
    (p : Nat × Nat) (has : Color) (curr : TuiPixel) : Prop where
  has_eq : has = tint (Tinted color next changed p) curr
  first : ¬Tinted color next changed p → curr = firstPixel

/-- **What has been rendered** before the turn for a cell. -/
structure Rendered (w h : Nat) (status : Bool) (t : Screen Glyph) (back next : TuiBuffer)
    (changed : Nat × Nat → Prop) (p : Nat × Nat) (s : Rendering) : Prop where
  drawn : ∀ c, changed c → Before c p →
    ((t.feed w h s.output).cells c) = painted next changed c
  kept : ∀ c, ¬(changed c ∧ Before c p) → (t.feed w h s.output).cells c = t.cells c
  back : ∀ c, (Covered w h status c ∧ Before c p → s.backBuffer c = next c)
    ∧ (¬(Covered w h status c ∧ Before c p) → s.backBuffer c = back c)
  cursor : ∀ x, s.cursorX = some x → x < w → (t.feed w h s.output).cursor = (x, p.2)
  fg : TintedBy TuiState.fg next changed p (t.feed w h s.output).fg s.currFg
  bg : TintedBy TuiState.bg next changed p (t.feed w h s.output).bg s.currBg

/-! ### The turn for a cell -/

section Turn

variable {w h : Nat} {status refresh : Bool} {back next : TuiBuffer} {x y : Nat}

/-- The cell is the one more that is behind. -/
theorem before_succ (c : Nat × Nat) : Before c (x + 1, y) ↔ Before c (x, y) ∨ c = (x, y) := by
  unfold Before
  rw [Prod.ext_iff]
  dsimp only
  omega

theorem not_before_self : ¬Before (x, y) (x, y) := by
  unfold Before
  dsimp only
  omega

/-- A colour set for the cell is one more. -/
theorem tinted_succ {color : TuiState → TuiPixel} {changed : Nat × Nat → Prop}
    (hchanged : changed (x, y)) :
    Tinted color next changed (x + 1, y)
      ↔ Tinted color next changed (x, y) ∨ color (next (x, y)) ≠ firstPixel := by
  unfold Tinted
  constructor
  · rintro ⟨c, hc, hbefore, hcolor⟩
    rcases (before_succ c).1 hbefore with hbefore | rfl
    · exact .inl ⟨c, hc, hbefore, hcolor⟩
    · exact .inr hcolor
  · rintro (⟨c, hc, hbefore, hcolor⟩ | hcolor)
    · exact ⟨c, hc, (before_succ c).2 (.inl hbefore), hcolor⟩
    · exact ⟨_, hchanged, (before_succ _).2 (.inr rfl), hcolor⟩

/-- A cell that is not written sets no colour. -/
theorem tinted_succ_of_not {color : TuiState → TuiPixel} {changed : Nat × Nat → Prop}
    (hchanged : ¬changed (x, y)) :
    Tinted color next changed (x + 1, y) ↔ Tinted color next changed (x, y) := by
  unfold Tinted
  constructor
  · rintro ⟨c, hc, hbefore, hcolor⟩
    rcases (before_succ c).1 hbefore with hbefore | rfl
    · exact ⟨c, hc, hbefore, hcolor⟩
    · exact absurd hc hchanged
  · rintro ⟨c, hc, hbefore, hcolor⟩
    exact ⟨c, hc, (before_succ c).2 (.inl hbefore), hcolor⟩

/-- **A colour is set only where it has to be.** -/
theorem TintedBy.succ {color : TuiState → TuiPixel} {changed : Nat × Nat → Prop} {has : Color}
    {curr : TuiPixel} (htinted : TintedBy color next changed (x, y) has curr)
    (hchanged : changed (x, y)) :
    TintedBy color next changed (x + 1, y)
      (if color (next (x, y)) = curr then has else (color (next (x, y))).color)
      (color (next (x, y))) := by
  obtain ⟨hhas, hfirst⟩ := htinted
  refine ⟨?_, fun hnot => ?_⟩
  · unfold tint at hhas ⊢
    rw [tinted_succ hchanged]
    by_cases hsame : color (next (x, y)) = curr
    · rw [if_pos hsame, hhas, hsame]
      by_cases hbefore : Tinted color next changed (x, y)
      · rw [if_pos hbefore, if_pos (.inl hbefore)]
      · rw [if_neg hbefore, if_neg (not_or.2 ⟨hbefore, not_not.2 (hfirst hbefore)⟩)]
    · have hafter : Tinted color next changed (x, y) ∨ color (next (x, y)) ≠ firstPixel := by
        by_cases hbefore : Tinted color next changed (x, y)
        · exact .inl hbefore
        · rw [hfirst hbefore] at hsame
          exact .inr hsame
      rw [if_neg hsame, if_pos hafter]
  · rw [tinted_succ hchanged, not_or, not_not] at hnot
    exact hnot.2

/-- A colour that is not set stays. -/
theorem TintedBy.succ_of_not {color : TuiState → TuiPixel} {changed : Nat × Nat → Prop}
    {has : Color} {curr : TuiPixel} (htinted : TintedBy color next changed (x, y) has curr)
    (hchanged : ¬changed (x, y)) : TintedBy color next changed (x + 1, y) has curr := by
  obtain ⟨hhas, hfirst⟩ := htinted
  have hsame : Tinted color next changed (x + 1, y) ↔ Tinted color next changed (x, y) :=
    tinted_succ_of_not hchanged
  exact ⟨hhas.trans (congrArg (tint · curr) (propext hsame.symm)),
    fun hnot => hfirst (hnot ∘ hsame.2)⟩

/-- **What is written for a cell** writes it, wherever the cursor is. -/
theorem feed_cell (cell : TuiState) (currFg currBg : TuiPixel) {t : Screen Glyph}
    {cursorX : Option Nat} (hcursor : cursorX = some x → t.cursor = (x, y)) (hx : x < w) (hy : y < h) :
    t.feed w h ((if cursorX = some x then [] else [.moveTo (x, y)])
        ++ (if cell.fg = currFg then [] else [.setFg cell.fg.color])
        ++ (if cell.bg = currBg then [] else [.setBg cell.bg.color]) ++ [.put cell.text])
      = { cells := Function.update t.cells (x, y)
            ⟨cell.text, if cell.fg = currFg then t.fg else cell.fg.color,
              if cell.bg = currBg then t.bg else cell.bg.color⟩
          cursor := (min (x + 1) (w - 1), y)
          fg := if cell.fg = currFg then t.fg else cell.fg.color
          bg := if cell.bg = currBg then t.bg else cell.bg.color } := by
  have hmove : t.feed w h (if cursorX = some x then [] else [.moveTo (x, y)])
      = { t with cursor := (x, y) } := by
    split
    · rename_i hsame
      rw [← hcursor hsame]
      rfl
    · show { t with cursor := (min x (w - 1), min y (h - 1)) } = _
      rw [Nat.min_eq_left (by omega), Nat.min_eq_left (by omega)]
  have hfg (u : Screen Glyph) :
      u.feed w h (if cell.fg = currFg then [] else [.setFg cell.fg.color])
        = { u with fg := if cell.fg = currFg then u.fg else cell.fg.color } := by
    split
    · rfl
    · rfl
  have hbg (u : Screen Glyph) :
      u.feed w h (if cell.bg = currBg then [] else [.setBg cell.bg.color])
        = { u with bg := if cell.bg = currBg then u.bg else cell.bg.color } := by
    split
    · rfl
    · rfl
  simp only [Screen.feed_append, hmove, hfg, hbg]
  rfl

/-- **The turn for a cell.** -/
theorem Rendered.cell {t : Screen Glyph} {s : Rendering}
    (hs : Rendered w h status t back next (Changed w h status refresh back next) (x, y) s)
    (hcovered : Covered w h status (x, y)) :
    Rendered w h status t back next (Changed w h status refresh back next) (x + 1, y)
      (renderCell next refresh y s x) := by
  have hold : s.backBuffer (x, y) = back (x, y) :=
    (hs.back (x, y)).2 fun hbefore => not_before_self hbefore.2
  -- a written cell moves the boundary of what is drawn past it; one that is not written was equal
  -- to the back buffer, so the boundary passes it for free
  by_cases hchanged : Changed w h status refresh back next (x, y)
  · have htest : next (x, y) ≠ s.backBuffer (x, y) ∨ refresh = true := by
      rw [hold]
      exact hchanged.2
    have hfg := hs.fg.succ hchanged
    have hbg := hs.bg.succ hchanged
    have hfeed := feed_cell (y := y) (next (x, y)) s.currFg s.currBg
      (fun hcur => hs.cursor x hcur hcovered.column) hcovered.column hcovered.row
    rw [← Screen.feed_append, ← List.append_assoc, ← List.append_assoc, ← List.append_assoc]
      at hfeed
    unfold renderCell
    rw [if_pos htest]
    refine ⟨fun c hc hbefore => ?_, fun c hc => ?_, fun c => ⟨fun hc => ?_, fun hc => ?_⟩,
      fun x' hx' hw => ?_, ?_, ?_⟩
    · dsimp only
      rw [hfeed]
      dsimp only
      rcases (before_succ c).1 hbefore with hbefore | rfl
      · have hne : c ≠ (x, y) := fun heq => not_before_self (heq ▸ hbefore)
        rw [Function.update_of_ne hne]
        exact hs.drawn c hc hbefore
      · rw [Function.update_self]
        unfold painted
        rw [hfg.has_eq, hbg.has_eq, tinted_succ hchanged, tinted_succ hchanged]
    · dsimp only
      have hne : c ≠ (x, y) := fun heq => hc (heq ▸ ⟨hchanged, (before_succ _).2 (.inr rfl)⟩)
      rw [hfeed]
      dsimp only
      rw [Function.update_of_ne hne]
      exact hs.kept c fun hbefore => hc ⟨hbefore.1, (before_succ c).2 (.inl hbefore.2)⟩
    · rcases (before_succ c).1 hc.2 with hbefore | rfl
      · have hne : c ≠ (x, y) := fun heq => not_before_self (heq ▸ hbefore)
        exact (Function.update_of_ne hne _ _).trans ((hs.back c).1 ⟨hc.1, hbefore⟩)
      · exact Function.update_self ..
    · have hne : c ≠ (x, y) := fun heq => hc (heq ▸ ⟨hcovered, (before_succ _).2 (.inr rfl)⟩)
      exact (Function.update_of_ne hne _ _).trans
        ((hs.back c).2 fun hbefore => hc ⟨hbefore.1, (before_succ c).2 (.inl hbefore.2)⟩)
    · dsimp only
      rw [hfeed, ← Option.some.inj hx']
      rw [← Option.some.inj hx'] at hw
      exact Prod.ext (Nat.min_eq_left (by omega)) rfl
    · dsimp only
      rw [hfeed]
      exact hfg
    · dsimp only
      rw [hfeed]
      exact hbg
  · have htest : ¬(next (x, y) ≠ s.backBuffer (x, y) ∨ refresh = true) := fun htest =>
      hchanged ⟨hcovered, hold ▸ htest⟩
    unfold renderCell
    rw [if_neg htest]
    have hearlier (c : Nat × Nat) (hc : Changed w h status refresh back next c) :
        Before c (x + 1, y) → Before c (x, y) := fun hbefore =>
      ((before_succ c).1 hbefore).resolve_right fun heq => hchanged (heq ▸ hc)
    refine ⟨fun c hc hbefore => hs.drawn c hc (hearlier c hc hbefore), fun c hc => hs.kept c ?_,
      fun c => ⟨fun hc => ?_, fun hc => (hs.back c).2 ?_⟩, hs.cursor, hs.fg.succ_of_not hchanged,
      hs.bg.succ_of_not hchanged⟩
    · exact fun hbefore => hc ⟨hbefore.1, (before_succ c).2 (.inl hbefore.2)⟩
    · rcases (before_succ c).1 hc.2 with hbefore | rfl
      · exact (hs.back c).1 ⟨hc.1, hbefore⟩
      · rw [hold]
        exact (not_not.1 (not_or.1 fun hor => hchanged ⟨hcovered, hor⟩).1).symm
    · exact fun hbefore => hc ⟨hbefore.1, (before_succ c).2 (.inl hbefore.2)⟩

end Turn

/-! ### The turn for a row -/

section Row

variable {w h : Nat} {status refresh : Bool} {back next : TuiBuffer} {y : Nat} {t : Screen Glyph}
  {s : Rendering}

/-- The cells of a row are all behind at its end. -/
theorem before_columns {c : Nat × Nat} (hc : Covered w h status c) :
    Before c (columns w h y, y) ↔ Before c (0, y + 1) := by
  obtain ⟨hcolumn, -, hlast, -⟩ := hc
  unfold Before columns
  dsimp only
  split
  · omega
  · omega

/-- What has been rendered at the end of a row is so before the next one, where the cursor is
not known. -/
theorem Rendered.next_row
    (hs : Rendered w h status t back next (Changed w h status refresh back next)
      (columns w h y, y) s) :
    Rendered w h status t back next (Changed w h status refresh back next) (0, y + 1)
      { s with cursorX := none } := by
  have hbefore (c : Nat × Nat) (hc : Changed w h status refresh back next c) :
      Before c (columns w h y, y) ↔ Before c (0, y + 1) := before_columns hc.1
  have htinted (color : TuiState → TuiPixel) :
      Tinted color next (Changed w h status refresh back next) (columns w h y, y)
        ↔ Tinted color next (Changed w h status refresh back next) (0, y + 1) :=
    exists_congr fun c => and_congr_right fun hc => and_congr_left fun _ => hbefore c hc
  have htintedBy {color : TuiState → TuiPixel} {has : Color} {curr : TuiPixel}
      (hby : TintedBy color next (Changed w h status refresh back next) (columns w h y, y) has
        curr) :
      TintedBy color next (Changed w h status refresh back next) (0, y + 1) has curr :=
    ⟨hby.has_eq.trans (congrArg (tint · curr) (propext (htinted color))),
      fun hnot => hby.first (hnot ∘ (htinted color).1)⟩
  refine ⟨fun c hc hb => hs.drawn c hc ((hbefore c hc).2 hb), fun c hc => hs.kept c fun hb => ?_,
    fun c => ⟨fun hc => ?_, fun hc => (hs.back c).2 fun hb => ?_⟩, fun x hx => (nomatch hx),
    htintedBy hs.fg, htintedBy hs.bg⟩
  · exact hc ⟨hb.1, (hbefore c hb.1).1 hb.2⟩
  · exact (hs.back c).1 ⟨hc.1, (before_columns hc.1).2 hc.2⟩
  · exact hc ⟨hb.1, (before_columns hb.1).1 hb.2⟩

/-- **The turn for a row** of cells. -/
theorem Rendered.row
    (hs : Rendered w h status t back next (Changed w h status refresh back next) (0, y)
      { s with cursorX := none })
    (hy : y < h) (hrow : ¬(y = h - 1 ∧ status = true)) :
    Rendered w h status t back next (Changed w h status refresh back next) (0, y + 1)
      { renderRow w h next status refresh s y with cursorX := none } := by
  unfold renderRow
  rw [if_neg hrow]
  refine Rendered.next_row (Drawing.foldl_range_induction
    (fun x s => Rendered w h status t back next (Changed w h status refresh back next) (x, y) s)
    (fun x hx s hs => hs.cell ?_) hs)
  unfold columns at hx
  split at hx
  · exact ⟨by dsimp only; omega, hy, fun hlast => absurd hlast.1 (by dsimp only; omega),
      fun hstatus => hrow ⟨hstatus.2, hstatus.1⟩⟩
  · exact ⟨hx, hy, fun hlast => by rename_i hne; exact hne hlast.2,
      fun hstatus => hrow ⟨hstatus.2, hstatus.1⟩⟩

end Row

/-! ### The whole frame -/

/-- The cells that the status row is written to. -/
def InStatus (w h : Nat) (status : Bool) (c : Nat × Nat) : Prop :=
  status = true ∧ c.2 = h - 1 ∧ c.1 < min w (statusGlyphs w h).length

/-- **What a frame does**: the cells that are changed are painted, those of the status row are
written over, and the others stay. -/
structure FrameEffect (w h : Nat) (status : Bool) (back next : TuiBuffer)
    (changed : Nat × Nat → Prop) (t t' : Screen Glyph) (back' : TuiBuffer) : Prop where
  drawn : ∀ c, changed c → t'.cells c = painted next changed c
  kept : ∀ c, ¬changed c → ¬InStatus w h status c → t'.cells c = t.cells c
  overwritten : ∀ c, InStatus w h status c → (t'.cells c).fg = .indexed 255
  fg : t'.fg = .default
  bg : t'.bg = .default
  back : ∀ c, (Covered w h status c → back' c = next c)
    ∧ (¬Covered w h status c → back' c = back c)

section Frame

variable {w h : Nat} {status refresh : Bool} {back next : TuiBuffer} {t : Screen Glyph}
  {s : Rendering}

/-- The status row is written over its cells. -/
theorem feed_statusRow (hw : 0 < w) (c : Nat × Nat) :
    (InStatus w h true c → ((t.feed w h (statusRow w h)).cells c).fg = .indexed 255)
      ∧ (¬InStatus w h true c → (t.feed w h (statusRow w h)).cells c = t.cells c) := by
  have hstart : t.feed w h [.moveTo (0, h - 1), .reset, .setBg (.indexed 240), .setFg (.indexed 255)]
      = ⟨t.cells, (0, h - 1), .indexed 255, .indexed 240⟩ := by
    show (⟨t.cells, (min 0 (w - 1), min (h - 1) (h - 1)), .indexed 255, .indexed 240⟩ :
      Screen Glyph) = _
    rw [Nat.zero_min, Nat.min_self]
  have hputs := Screen.feed_puts (h := h) (s := ⟨t.cells, (0, h - 1), .indexed 255, .indexed 240⟩)
    (statusGlyphs w h) hw
  have hcolors := hputs.colors c
  have hkept := hputs.kept c
  dsimp only at hcolors hkept
  rw [Nat.zero_add] at hcolors hkept
  unfold statusRow
  rw [Screen.feed_append, hstart]
  exact ⟨fun hc => (hcolors hc.2.1 (Nat.zero_le _) hc.2.2).1,
    fun hc => hkept fun hin => hc ⟨rfl, hin.1, hin.2.2⟩⟩

/-- Before the first row nothing has been rendered. -/
theorem rendered_start (hfg : t.fg = .default) (hbg : t.bg = .default) :
    Rendered w h status t back next (Changed w h status refresh back next) (0, 0)
      ⟨[.moveTo (0, 0)], back, none, firstPixel, firstPixel⟩ := by
  have hnone (c : Nat × Nat) : ¬Before c (0, 0) := by
    unfold Before
    dsimp only
    omega
  have htinted {color : TuiState → TuiPixel} {changed : Nat × Nat → Prop} :
      ¬Tinted color next changed (0, 0) := fun ⟨c, _, hbefore, _⟩ => hnone c hbefore
  exact ⟨fun c _ hbefore => absurd hbefore (hnone c), fun c _ => rfl,
    fun c => ⟨fun hc => absurd hc.2 (hnone c), fun _ => rfl⟩, fun x hx => (nomatch hx),
    ⟨hfg.trans (if_neg htinted).symm, fun _ => rfl⟩,
    ⟨hbg.trans (if_neg htinted).symm, fun _ => rfl⟩⟩

/-- The rows of cells. -/
theorem rendered_rows (hfg : t.fg = .default) (hbg : t.bg = .default) {n : Nat} (hn : n ≤ h)
    (hstatus : status = true → n ≤ h - 1) :
    Rendered w h status t back next (Changed w h status refresh back next) (0, n)
      { renderRows w h back next status refresh n with cursorX := none } := by
  refine Drawing.foldl_range_induction
    (fun y (s : Rendering) => Rendered w h status t back next
      (Changed w h status refresh back next) (0, y) { s with cursorX := none })
    (fun y hy s hs => hs.row (by omega) fun hrow => ?_) (rendered_start hfg hbg)
  have hle := hstatus hrow.2
  omega

theorem renderRows_succ (n : Nat) : renderRows w h back next status refresh (n + 1)
    = renderRow w h next status refresh (renderRows w h back next status refresh n) n := by
  unfold renderRows
  rw [List.range_succ, List.foldl_append, List.foldl_cons, List.foldl_nil]

/-- The last row with the status. -/
theorem renderRow_status : renderRow w h next true refresh s (h - 1)
    = { s with output := s.output ++ statusRow w h } := if_pos ⟨rfl, rfl⟩

/-- The loops of a frame, with what resets the colours at the end. -/
theorem frame_effect (hw : 1 < w) (hh : 1 < h) (hfg : t.fg = .default) (hbg : t.bg = .default) :
    FrameEffect w h status back next (Changed w h status refresh back next) t
      (t.feed w h ((renderRows w h back next status refresh h).output ++ [.reset]))
      (renderRows w h back next status refresh h).backBuffer := by
  -- with a status line the last row is drawn as that, and the cells end one row above it
  cases status with
  | false =>
    have hall (c : Nat × Nat) (hc : Covered w h false c) : Before c (0, h) := .inl hc.row
    have hrows : Rendered w h false t back next (Changed w h false refresh back next) (0, h)
        { renderRows w h back next false refresh h with cursorX := none } :=
      rendered_rows hfg hbg (Nat.le_refl h) (fun heq => (nomatch heq))
    rw [Screen.feed_append]
    refine ⟨fun c hc => hrows.drawn c hc (hall c hc.1), fun c hc _ => hrows.kept c fun h => hc h.1,
      fun c hc => absurd hc.1 Bool.false_ne_true, rfl, rfl, fun c => ⟨fun hc => ?_, fun hc => ?_⟩⟩
    · exact (hrows.back c).1 ⟨hc, hall c hc⟩
    · exact (hrows.back c).2 fun h => hc h.1
  | true =>
    have hall (c : Nat × Nat) (hc : Covered w h true c) : Before c (0, h - 1) := by
      have hrow := hc.row
      have hnot : c.2 ≠ h - 1 := fun heq => hc.not_status ⟨rfl, heq⟩
      exact .inl (by dsimp only; omega)
    have hrows : Rendered w h true t back next (Changed w h true refresh back next) (0, h - 1)
        { renderRows w h back next true refresh (h - 1) with cursorX := none } :=
      rendered_rows hfg hbg (Nat.sub_le h 1) (fun _ => Nat.le_refl _)
    have hlast : renderRows w h back next true refresh h
        = { renderRows w h back next true refresh (h - 1) with
            output := (renderRows w h back next true refresh (h - 1)).output ++ statusRow w h } := by
      have hturn : renderRows w h back next true refresh (h - 1 + 1) = _ := renderRows_succ (h - 1)
      rw [renderRow_status, Nat.sub_add_cancel (Nat.le_of_lt hh)] at hturn
      exact hturn
    have hstatus (c : Nat × Nat) := feed_statusRow (h := h) (t := t.feed w h
      (renderRows w h back next true refresh (h - 1)).output) (c := c) (Nat.lt_of_succ_lt hw)
    rw [hlast, Screen.feed_append, Screen.feed_append, Screen.feed_cons, Screen.feed_nil]
    generalize (t.feed w h (renderRows w h back next true refresh (h - 1)).output).feed w h
      (statusRow w h) = u at hstatus ⊢
    refine ⟨fun c hc => ?_, fun c hc hout => ?_, fun c hc => (hstatus c).1 hc, rfl, rfl,
      fun c => ⟨fun hc => ?_, fun hc => ?_⟩⟩
    · have hout : ¬InStatus w h true c := fun hin => hc.1.not_status ⟨rfl, hin.2.1⟩
      exact ((hstatus c).2 hout).trans (hrows.drawn c hc (hall c hc.1))
    · exact ((hstatus c).2 hout).trans (hrows.kept c fun h => hc h.1)
    · exact (hrows.back c).1 ⟨hc, hall c hc⟩
    · exact (hrows.back c).2 fun h => hc h.1

end Frame

end LinApple.Frontends
