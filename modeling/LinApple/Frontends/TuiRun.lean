import LinApple.Frontends.TuiCells
import LinApple.Lib.Machine

/-!
# Frames one after another

A frame is written as a difference from what the back buffer says was written before. A cell is
*stale* where the terminal shows something else: every cell that has not been written since the
terminal was cleared, as the back buffer starts with black blanks, and the cells under the status
row. The frames of a run are all shown exactly if each writes the stale cells that it has, and has
no cell that needs a colour which is wrongly taken to be set (`TuiRun.frames_shown_iff`).

The terminal is a screen of cells with a cursor and two colours, which obeys what is written to it
(`Screen`). It is not part of the program, and the program never reads it. Whether a frame is
shown is a question about the screen after everything so far has been written, and the history
answers it from the frames alone: which cells were ever written, with what, and how many frames
there were, since every sixtieth writes everything.

Two things go wrong, and the condition (`Renews`) has a clause for the one and two for the other.
A stale cell that equals the back buffer is not written. And each frame begins as if both colours
were set to a certain one (`firstPixel`), which the terminal need not have; a cell of that colour
gets no colour sequence, unless a cell before it has had another colour set. Foreground and
background are the same in this but that they come from different cells, so they share a
definition (`Tinted`).

Frames are of one size, for where the size changes the buffers are set up anew, and a run begins.
The size is arbitrary, and a terminal of one row or column is written nothing at all. What the
colours of a cleared terminal are is not known, only that they are none the program asks for.
-/

namespace LinApple.Frontends.TuiRun

open Terminal

variable (w h : Nat)

/-! ## The program and its terminal -/

/-- **The program with its terminal**, of `w` columns and `h` rows, frame after frame. -/
def machine : Machine (TuiVideo × Screen Glyph) TuiFrame Unit where
  next s f :=
    ((tuiVideoRenderFrame w h s.1 f).1, s.2.feed w h (tuiVideoRenderFrame w h s.1 f).2)
  out _ _ := none

/-- A cleared terminal, with whatever number of frames counted before. -/
def start (frameCount : UInt32) : TuiVideo × Screen Glyph :=
  (.onResize frameCount, .cleared [0x20])

/-- **The terminal shows the frame**: every cell that the loops go through. The bottom right cell
is not one of them, nor are those of the status row while it is there. -/
def Shows (s : TuiVideo × Screen Glyph) (f : TuiFrame) (_ : List TuiFrame) : Prop :=
  ∀ c, Covered w h (showStatus h f.fullscreen) c →
    ((machine w h).next s f).2.cells c = (f.nextBuffer c).shown

/-! ## Stale cells -/

/-- What is known of the frames before: the cells that were asked for last, how many frames there
were, and the stale cells. -/
structure History where
  back : TuiBuffer
  frameCount : UInt32
  stale : Nat × Nat → Prop

/-- The cells that a frame writes: those that have changed, or every sixtieth time all. -/
def Writes (t : History) (f : TuiFrame) (c : Nat × Nat) : Prop :=
  (1 < w ∧ 1 < h) ∧ Changed w h (showStatus h f.fullscreen)
    ((t.frameCount + 1) % refreshFullDivisor == 0) t.back f.nextBuffer c

open Classical in
/-- **The history of a run**, which the frames alone determine. -/
noncomputable def history : Machine History TuiFrame Unit where
  next t f := if 1 < w ∧ 1 < h then
      { back := fun c =>
          if Covered w h (showStatus h f.fullscreen) c then f.nextBuffer c else t.back c
        frameCount := t.frameCount + 1
        stale := fun c =>
          t.stale c ∧ ¬Writes w h t f c ∨ InStatus w h (showStatus h f.fullscreen) c }
    else t
  out _ _ := none

/-- In the beginning all cells are stale. -/
def History.start (frameCount : UInt32) : History := ⟨fun _ => emptyCell, frameCount, fun _ => True⟩

/-- **The frame renews what it has to**: it writes its stale cells, and writes none in a colour
that is taken to be set before it has been set. -/
structure Renews (t : History) (f : TuiFrame) (_ : List TuiFrame) : Prop where
  stale : ∀ c, Covered w h (showStatus h f.fullscreen) c → t.stale c → Writes w h t f c
  fg : ∀ c, Writes w h t f c → (f.nextBuffer c).fg = firstPixel →
    Tinted TuiState.fg f.nextBuffer (Writes w h t f) c
  bg : ∀ c, Writes w h t f c → (f.nextBuffer c).bg = firstPixel →
    Tinted TuiState.bg f.nextBuffer (Writes w h t f) c

/-! ## One frame -/

/-- **What is known of the terminal**: a cell that is not stale shows what the back buffer has,
and one that is stale shows no colour of a pixel. -/
structure Known (s : TuiVideo × Screen Glyph) (t : History) : Prop where
  back : s.1.backBuffer = t.back
  frameCount : s.1.frameCount = t.frameCount
  fg : s.2.fg = .default
  bg : s.2.bg = .default
  stale : ∀ c, t.stale c → ∀ p : TuiPixel, (s.2.cells c).fg ≠ p.color
  shown : ∀ c, ¬t.stale c → s.2.cells c = (t.back c).shown
  small : ¬(1 < w ∧ 1 < h) → ∀ c, t.stale c

variable {w h} {s : TuiVideo × Screen Glyph} {t : History} {f : TuiFrame}

theorem tint_eq_color {tinted : Prop} {p : TuiPixel} : tint tinted p = p.color ↔ tinted := by
  unfold tint
  split
  · rename_i h
    exact iff_of_true rfl h
  · rename_i h
    exact iff_of_false (fun heq => (nomatch heq)) h

/-- A cell is painted as it is to be shown if its colours are set. -/
theorem painted_eq_shown {next : TuiBuffer} {changed : Nat × Nat → Prop} {c : Nat × Nat} :
    painted next changed c = (next c).shown
      ↔ (Tinted TuiState.fg next changed c ∨ (next c).fg ≠ firstPixel)
        ∧ (Tinted TuiState.bg next changed c ∨ (next c).bg ≠ firstPixel) := by
  unfold painted TuiState.shown
  rw [Cell.mk.injEq, tint_eq_color, tint_eq_color]
  exact and_iff_right rfl

/-- **What a frame does**, with what is known before it. -/
theorem Known.effect (hknown : Known w h s t) (hsize : 1 < w ∧ 1 < h) :
    FrameEffect w h (showStatus h f.fullscreen) t.back f.nextBuffer (Writes w h t f) s.2
      ((machine w h).next s f).2 ((machine w h).next s f).1.backBuffer := by
  have hwrites : Writes w h t f = Changed w h (showStatus h f.fullscreen)
      ((t.frameCount + 1) % refreshFullDivisor == 0) t.back f.nextBuffer :=
    funext fun c => propext (and_iff_right hsize)
  have hrender : tuiVideoRenderFrame w h s.1 f
      = (let r := renderRows w h t.back f.nextBuffer (showStatus h f.fullscreen)
          ((t.frameCount + 1) % refreshFullDivisor == 0) h
        (⟨r.backBuffer, t.frameCount + 1⟩, r.output ++ [.reset])) := by
    unfold tuiVideoRenderFrame
    rw [if_neg (by omega), hknown.back, hknown.frameCount]
  unfold machine
  dsimp only
  rw [hwrites, hrender]
  exact frame_effect hsize.1 hsize.2 hknown.fg hknown.bg

/-- A terminal of one column or row is left. -/
theorem next_of_small (hsize : ¬(1 < w ∧ 1 < h)) : (machine w h).next s f = s := by
  unfold machine tuiVideoRenderFrame
  dsimp only
  rw [if_pos (by omega)]
  rfl

/-- A cell that is not written although the loops go through it is left. -/
theorem Known.next_cells_of_not (hknown : Known w h s t) {c : Nat × Nat}
    (hcovered : Covered w h (showStatus h f.fullscreen) c) (hwrites : ¬Writes w h t f c) :
    ((machine w h).next s f).2.cells c = s.2.cells c := by
  by_cases hsize : 1 < w ∧ 1 < h
  · exact (hknown.effect hsize).kept c hwrites
      fun hstatus => hcovered.not_status ⟨hstatus.1, hstatus.2.1⟩
  · rw [next_of_small hsize]

/-- Its entry in the back buffer is what the frame asks for. -/
theorem back_eq_of_not_writes {c : Nat × Nat} (hsize : 1 < w ∧ 1 < h)
    (hcovered : Covered w h (showStatus h f.fullscreen) c) (hwrites : ¬Writes w h t f c) :
    f.nextBuffer c = t.back c := by
  by_contra hne
  exact hwrites ⟨hsize, hcovered, .inl hne⟩

/-- **The terminal shows a frame exactly if the frame renews what it has to.** -/
theorem Known.shows_iff (hknown : Known w h s t) (rest : List TuiFrame) :
    Shows w h s f rest ↔ Renews w h t f rest := by
  have hpainted (c : Nat × Nat) (hwrites : Writes w h t f c) :
      ((machine w h).next s f).2.cells c = painted f.nextBuffer (Writes w h t f) c :=
    (hknown.effect hwrites.1).drawn c hwrites
  constructor
  · intro hshows
    refine ⟨fun c hcovered hstale => ?_, fun c hwrites hfirst => ?_, fun c hwrites hfirst => ?_⟩
    · by_contra hwrites
      have hcell := hshows c hcovered
      rw [hknown.next_cells_of_not hcovered hwrites] at hcell
      exact hknown.stale c hstale (f.nextBuffer c).fg (congrArg Cell.fg hcell)
    · have hcell := hshows c hwrites.2.1
      rw [hpainted c hwrites, painted_eq_shown] at hcell
      exact hcell.1.resolve_right (not_not.2 hfirst)
    · have hcell := hshows c hwrites.2.1
      rw [hpainted c hwrites, painted_eq_shown] at hcell
      exact hcell.2.resolve_right (not_not.2 hfirst)
  · intro hrenews c hcovered
    by_cases hwrites : Writes w h t f c
    · rw [hpainted c hwrites, painted_eq_shown]
      exact ⟨(em _).symm.imp_left fun hfirst => hrenews.fg c hwrites (not_not.1 hfirst),
        (em _).symm.imp_left fun hfirst => hrenews.bg c hwrites (not_not.1 hfirst)⟩
    · have hstale : ¬t.stale c := fun hstale => hwrites (hrenews.stale c hcovered hstale)
      have hsize : 1 < w ∧ 1 < h := by
        by_contra hsmall
        exact hstale (hknown.small hsmall c)
      rw [hknown.next_cells_of_not hcovered hwrites, hknown.shown c hstale,
        back_eq_of_not_writes hsize hcovered hwrites]

/-- **What is known stays known** after a frame that has renewed what it had to. -/
theorem Known.next (hknown : Known w h s t) {rest : List TuiFrame} (hrenews : Renews w h t f rest) :
    Known w h ((machine w h).next s f) ((history w h).next t f) := by
  -- on a terminal too small to draw on, neither the renderer nor the history moves
  by_cases hsize : 1 < w ∧ 1 < h
  · have heffect := hknown.effect (f := f) hsize
    have hshows := (hknown.shows_iff rest).2 hrenews
    have hhistory : (history w h).next t f = _ := if_pos hsize
    rw [hhistory]
    refine ⟨funext fun c => ?_, ?_, heffect.fg, heffect.bg, fun c hstale p => ?_,
      fun c hstale => ?_, fun hsmall => absurd hsize hsmall⟩
    · dsimp only
      split
      · rename_i hcovered
        exact (heffect.back c).1 hcovered
      · rename_i hcovered
        exact (heffect.back c).2 hcovered
    · unfold machine tuiVideoRenderFrame
      dsimp only
      rw [if_neg (by omega), ← hknown.frameCount]
    · by_cases hin : InStatus w h (showStatus h f.fullscreen) c
      · rw [heffect.overwritten c hin]
        exact fun heq => (nomatch heq)
      · obtain ⟨hold, hwrites⟩ := hstale.resolve_right hin
        rw [heffect.kept c hwrites hin]
        exact hknown.stale c hold p
    · obtain ⟨hold, hin⟩ := not_or.1 hstale
      dsimp only
      split
      · rename_i hcovered
        exact hshows c hcovered
      · rename_i hcovered
        have hwrites : ¬Writes w h t f c := fun hwrites => hcovered hwrites.2.1
        rw [heffect.kept c hwrites hin]
        exact hknown.shown c fun hstale => hold ⟨hstale, hwrites⟩
  · have hhistory : (history w h).next t f = t := if_neg hsize
    rw [next_of_small hsize, hhistory]
    exact hknown

/-- After the terminal was cleared it shows no colour of a pixel. -/
theorem known_start (frameCount : UInt32) : Known w h (start frameCount) (.start frameCount) :=
  ⟨rfl, rfl, rfl, rfl, fun _ _ _ heq => (nomatch heq), fun _ hstale => absurd trivial hstale,
    fun _ _ => trivial⟩

/-! ## Runs -/

/-- **The terminal shows every frame of a run** from a cleared terminal exactly if every frame
renews what it has to. The two machines run over the same frames. The one on the left has the
terminal in it, and the one on the right only what was asked to be shown so far; the count of
frames at the start is arbitrary, since it decides when everything is written. -/
theorem frames_shown_iff (w h : Nat) (frameCount : UInt32) (frames : List TuiFrame) :
    (machine w h).Admits (Shows w h) (start frameCount) frames
      ↔ (history w h).Admits (Renews w h) (.start frameCount) frames := by
  refine (machine w h).admits_iff_of_simulation (history w h) (R := Known w h)
    (P := fun _ => True) (fun s t f rest hknown _ => ?_) (known_start frameCount)
    fun _ _ => trivial
  have hiff : Shows w h s f rest ↔ Renews w h t f rest := hknown.shows_iff rest
  exact ⟨hiff, fun hshows => hknown.next (hiff.1 hshows)⟩

/-- A frame of black blanks, as a black picture is. -/
def blackFrame : TuiFrame := ⟨fun _ => emptyCell, false⟩

/-- **A black picture is not shown** by the first frame: its cells are taken to be there. -/
theorem blackFrame_not_shown : ¬ (machine 5 2).Admits (Shows 5 2) (start 0) [blackFrame] := by
  rintro ⟨hshows, -⟩
  have hcell := hshows (0, 0) ⟨by decide, by decide, by decide, by decide⟩
  revert hcell
  decide

end LinApple.Frontends.TuiRun
