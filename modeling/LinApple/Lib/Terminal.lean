import Mathlib.Logic.Function.Basic
import Mathlib.Tactic.Common

/-!
# Terminals

A terminal is a grid of cells with a cursor and current colours, and obeys commands: those of
the escape sequences that move the cursor and set colours, and glyphs, which take one cell each.
Its lines are not wrapped: what does not fit is written to the last column (`Screen.feed_puts`).
-/

namespace Terminal

/-- A colour. What the default one and those of the palette look like is not known. -/
inductive Color
  | default
  | indexed (n : UInt8)
  | rgb (r g b : UInt8)
deriving DecidableEq, Repr

/-- A glyph in its colours. -/
structure Cell (G : Type*) where
  glyph : G
  fg : Color
  bg : Color
deriving DecidableEq, Repr

/-- What a terminal can be told. -/
inductive Command (G : Type*)
  /-- `CUP`: the cursor moves to a column and a row. -/
  | moveTo (p : Nat × Nat)
  /-- `SGR 0` -/
  | reset
  /-- `SGR 38` -/
  | setFg (c : Color)
  /-- `SGR 48` -/
  | setBg (c : Color)
  | put (glyph : G)
deriving DecidableEq, Repr

/-- **A terminal**: its cells by column and row, where the cursor is, and the current colours. -/
structure Screen (G : Type*) where
  cells : Nat × Nat → Cell G
  cursor : Nat × Nat
  fg : Color
  bg : Color

namespace Screen

variable {G : Type*} (w h : Nat)

/-- A terminal of `w` columns and `h` rows obeys a command. -/
def exec (s : Screen G) : Command G → Screen G
  | .moveTo p => { s with cursor := (min p.1 (w - 1), min p.2 (h - 1)) }
  | .reset => { s with fg := .default, bg := .default }
  | .setFg c => { s with fg := c }
  | .setBg c => { s with bg := c }
  | .put glyph =>
    { s with
      cells := Function.update s.cells s.cursor ⟨glyph, s.fg, s.bg⟩
      cursor := (min (s.cursor.1 + 1) (w - 1), s.cursor.2) }

/-- It obeys commands one after another. -/
def feed (s : Screen G) (commands : List (Command G)) : Screen G := commands.foldl (exec w h) s

/-- A terminal all of whose cells show a blank. -/
def cleared (blank : G) : Screen G where
  cells _ := ⟨blank, .default, .default⟩
  cursor := (0, 0)
  fg := .default
  bg := .default

variable {w h} {s : Screen G} {commands : List (Command G)}

@[simp] theorem feed_nil : s.feed w h [] = s := rfl

@[simp] theorem feed_cons (c : Command G) :
    s.feed w h (c :: commands) = (s.exec w h c).feed w h commands := rfl

@[simp] theorem feed_append (commands' : List (Command G)) :
    s.feed w h (commands ++ commands') = (s.feed w h commands).feed w h commands' :=
  List.foldl_append

/-- **Glyphs that were written** from the cursor on: they have the current colours, as far as
they fit into the row, and everything else is as it was. -/
structure Written (w : Nat) (s s' : Screen G) (n : Nat) : Prop where
  fg : s'.fg = s.fg
  bg : s'.bg = s.bg
  colors : ∀ p, p.2 = s.cursor.2 → s.cursor.1 ≤ p.1 → p.1 < min w (s.cursor.1 + n) →
    (s'.cells p).fg = s.fg ∧ (s'.cells p).bg = s.bg
  kept : ∀ p, ¬(p.2 = s.cursor.2 ∧ s.cursor.1 ≤ p.1 ∧ p.1 < min w (s.cursor.1 + n)) →
    s'.cells p = s.cells p

/-- **Writing glyphs.** -/
theorem feed_puts (glyphs : List G) (hcursor : s.cursor.1 < w) :
    Written w s (s.feed w h (glyphs.map .put)) glyphs.length := by
  induction glyphs generalizing s with
  | nil => exact ⟨rfl, rfl, fun p _ hle hlt => absurd hlt (by simp; omega), fun p _ => rfl⟩
  | cons g gs ih =>
    have hnext : (s.exec w h (.put g)).cursor = (min (s.cursor.1 + 1) (w - 1), s.cursor.2) := rfl
    have hcells : (s.exec w h (.put g)).cells
        = Function.update s.cells s.cursor ⟨g, s.fg, s.bg⟩ := rfl
    have hlt : min (s.cursor.1 + 1) (w - 1) < w :=
      Nat.lt_of_le_of_lt (Nat.min_le_right _ _) (by omega)
    obtain ⟨hfg, hbg, hcolors, hkept⟩ := ih (s := s.exec w h (.put g)) hlt
    rw [hnext] at hcolors hkept
    dsimp only at hcolors hkept
    refine ⟨hfg, hbg, fun p hrow hle hlt => ?_, fun p hout => ?_⟩
    · rw [List.map_cons, feed_cons]
      by_cases hin : min (s.cursor.1 + 1) (w - 1) ≤ p.1
          ∧ p.1 < min w (min (s.cursor.1 + 1) (w - 1) + gs.length)
      · exact hcolors p hrow hin.1 hin.2
      · rw [hkept p fun hp => hin hp.2, hcells]
        rw [List.length_cons] at hlt
        have hp : p = s.cursor := Prod.ext (by omega) hrow
        rw [hp, Function.update_self]
        exact ⟨rfl, rfl⟩
    · rw [List.length_cons] at hout
      rw [List.map_cons, feed_cons, hkept p (fun hp => hout ⟨hp.1, by omega, by omega⟩), hcells]
      refine Function.update_of_ne (fun hp => hout ?_) _ _
      rw [hp]
      exact ⟨rfl, Nat.le_refl _, by omega⟩

end Screen

end Terminal
