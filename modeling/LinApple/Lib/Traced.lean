import Mathlib.Tactic.Common

/-!
# Computations that note what they do

A computation notes, on its way to a result or to a failure, what it has done.
`Meets x P E Q` says that whatever it notes keeps to `P`, that it fails in a way
`E` allows, and that `Q` holds of the result and of what was noted for it; the
rules follow the way computations are put together.
-/

/-- **A computation with notes.** -/
structure Traced (ω ε α : Type) where
  /-- What is noted, in order. -/
  trace : List ω
  /-- The result, or the failure. -/
  result : Except ε α

namespace Traced

variable {ω ε α β : Type}

/-- A computation fails. -/
def fail (e : ε) : Traced ω ε α := ⟨[], .error e⟩

/-- A note is taken. -/
def note (w : ω) : Traced ω ε Unit := ⟨[w], .ok ()⟩

instance : Monad (Traced ω ε) where
  pure a := ⟨[], .ok a⟩
  bind x f := match x.result with
    | .ok a => ⟨x.trace ++ (f a).trace, (f a).result⟩
    | .error e => ⟨x.trace, .error e⟩

/-- **A computation meets its specification.** -/
structure Meets (x : Traced ω ε α) (P : ω → Prop) (E : ε → Prop) (Q : α → List ω → Prop) :
    Prop where
  /-- What it notes. -/
  notes : ∀ w ∈ x.trace, P w
  /-- How it fails. -/
  fails : ∀ e, x.result = .error e → E e
  /-- What it results in. -/
  results : ∀ a, x.result = .ok a → Q a x.trace

namespace Meets

variable {P : ω → Prop} {E : ε → Prop} {Q : α → List ω → Prop} {R : β → List ω → Prop}

theorem pure {a : α} (h : Q a []) : Meets (Pure.pure a) P E Q where
  notes _ hw := nomatch hw
  fails _ he := nomatch he
  results _ ha := Except.ok.inj ha ▸ h

theorem fail {e : ε} (h : E e) : Meets (Traced.fail e) P E Q where
  notes _ hw := nomatch hw
  fails _ he := Except.error.inj he ▸ h
  results _ ha := nomatch ha

theorem note {w : ω} (h : P w) : Meets (Traced.note w) P E fun _ t => t = [w] where
  notes _ hw := List.mem_singleton.1 hw ▸ h
  fails _ he := nomatch he
  results _ _ := rfl

theorem mono {x : Traced ω ε α} {Q' : α → List ω → Prop} (h : x.Meets P E Q)
    (himp : ∀ a t, Q a t → Q' a t) : x.Meets P E Q' where
  notes := h.notes
  fails := h.fails
  results a ha := himp a _ (h.results a ha)

/-- **One computation after another.** -/
theorem bind {x : Traced ω ε α} {f : α → Traced ω ε β} (h : x.Meets P E Q)
    (hf : ∀ a t, Q a t → (f a).Meets P E fun b t' => R b (t ++ t')) : (x >>= f).Meets P E R := by
  obtain ⟨t, result⟩ := x
  cases result with
  | error e =>
    exact ⟨h.notes, fun e' he => h.fails e' (congrArg Except.error (Except.error.inj he)),
      fun _ ha => nomatch ha⟩
  | ok a =>
    have hrest := hf a t (h.results a rfl)
    refine ⟨fun w hw => ?_, hrest.fails, hrest.results⟩
    obtain hw | hw := List.mem_append.1 hw
    · exact h.notes w hw
    · exact hrest.notes w hw

end Meets

end Traced
