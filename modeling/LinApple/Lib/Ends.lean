import Mathlib.Tactic.Common

/-!
# Computations that may come to nothing

A step of a program that may run outside an array, or may never come back, is a
partial computation. `Ends x P` says that `x` comes to an end with a result of
which `P` holds, `Yields x P` that `P` holds of the result if there is one; the
rules follow the way computations are put together. `Allowed G f a l` says that
a run keeps to a rule about its steps.
-/

universe u

variable {α β : Type u} {γ : Type*}

/-- **A computation that ends, with a result of which `P` holds.** -/
def Ends (x : Option α) (P : α → Prop) : Prop := ∃ a, x = some a ∧ P a

/-- A step taken over and over. -/
def loopRounds (f : α → Option α) : Nat → α → Option α
  | 0, a => some a
  | n + 1, a => f a >>= loopRounds f n

namespace Ends

variable {P : α → Prop} {Q : β → Prop}

theorem pure {a : α} (h : P a) : Ends (some a) P := ⟨a, rfl, h⟩

theorem mono {x : Option α} {P' : α → Prop} (h : Ends x P) (himp : ∀ a, P a → P' a) :
    Ends x P' := by
  obtain ⟨a, ha, hP⟩ := h
  exact ⟨a, ha, himp a hP⟩

/-- **One computation after another.** -/
theorem bind {x : Option α} {f : α → Option β} (h : Ends x P)
    (hf : ∀ a, P a → Ends (f a) Q) : Ends (x >>= f) Q := by
  obtain ⟨a, rfl, hP⟩ := h
  exact hf a hP

theorem map {x : Option α} {f : α → β} (h : Ends x P) (hf : ∀ a, P a → Q (f a)) :
    Ends (f <$> x) Q := by
  obtain ⟨a, rfl, hP⟩ := h
  exact ⟨f a, rfl, hf a hP⟩

/-- **A loop ends if every round of it does.** -/
theorem rounds {f : α → Option α} {n : Nat} {a : α} (hf : ∀ a, P a → Ends (f a) P) (h : P a) :
    Ends (loopRounds f n a) P := by
  induction n generalizing a with
  | zero => exact pure h
  | succ n ih => exact (hf a h).bind fun b hb => ih hb

/-- **A fold ends if every round of it does.** -/
theorem foldlM {f : α → γ → Option α} {l : List γ} {a : α}
    (hf : ∀ a, ∀ c ∈ l, P a → Ends (f a c) P) (h : P a) : Ends (l.foldlM f a) P := by
  induction l generalizing a with
  | nil => exact pure h
  | cons c l ih =>
    rw [List.foldlM_cons]
    exact (hf a c List.mem_cons_self h).bind fun b hb =>
      ih (fun a c hc => hf a c (List.mem_cons_of_mem _ hc)) hb

end Ends

/-! ## Results, if there are any -/

/-- **A result of which `P` holds, if there is one.** -/
def Yields (x : Option α) (P : α → Prop) : Prop := ∀ a, x = some a → P a

theorem Ends.and_yields {x : Option α} {P Q : α → Prop} (h : Ends x P) (hy : Yields x Q) :
    Ends x fun a => P a ∧ Q a := by
  obtain ⟨a, ha, hP⟩ := h
  exact ⟨a, ha, hP, hy a ha⟩

namespace Yields

variable {P : α → Prop} {Q : β → Prop}

theorem pure {a : α} (h : P a) : Yields (some a) P := fun _ hb => Option.some.inj hb ▸ h

/-- There is no result. -/
theorem none : Yields (none : Option α) P := fun _ ha => nomatch ha

theorem mono {x : Option α} {P' : α → Prop} (h : Yields x P) (himp : ∀ a, P a → P' a) :
    Yields x P' := fun a ha => himp a (h a ha)

/-- **One computation after another.** -/
theorem bind {x : Option α} {f : α → Option β} (h : Yields x P)
    (hf : ∀ a, P a → Yields (f a) Q) : Yields (x >>= f) Q := by
  intro b hb
  obtain ⟨a, ha, hfa⟩ := Option.bind_eq_some_iff.mp hb
  exact hf a (h a ha) b hfa

theorem map {x : Option α} {f : α → β} (h : Yields x P) (hf : ∀ a, P a → Q (f a)) :
    Yields (f <$> x) Q := by
  intro b hb
  obtain ⟨a, ha, rfl⟩ := Option.map_eq_some_iff.mp hb
  exact hf a (h a ha)

/-- **What every round of a loop preserves.** -/
theorem rounds {f : α → Option α} {n : Nat} {a : α} (hf : ∀ a, P a → Yields (f a) P) (h : P a) :
    Yields (loopRounds f n a) P := by
  induction n generalizing a with
  | zero => exact pure h
  | succ n ih => exact (hf a h).bind fun b hb => ih hb

/-- **What every round of a fold preserves.** -/
theorem foldlM {f : α → γ → Option α} {l : List γ} {a : α}
    (hf : ∀ a c, P a → Yields (f a c) P) (h : P a) : Yields (l.foldlM f a) P := by
  induction l generalizing a with
  | nil => exact pure h
  | cons c l ih =>
    rw [List.foldlM_cons]
    exact (hf a c h).bind fun b hb => ih hb

end Yields

/-! ## Runs that keep to a rule -/

/-- **A run each step of which is one that `G` allows** where it is taken. -/
def Allowed (G : α → γ → Prop) (f : α → γ → Option α) : α → List γ → Prop
  | _, [] => True
  | a, c :: l => G a c ∧ ∀ b, f a c = some b → Allowed G f b l

/-- **The invariant rule**: what every allowed step preserves, every allowed run
preserves. -/
theorem Ends.foldlM_allowed {P : α → Prop} {G : α → γ → Prop} {f : α → γ → Option α}
    (hf : ∀ a c, P a → G a c → Ends (f a c) P) {l : List γ} {a : α} (h : P a)
    (hl : Allowed G f a l) : Ends (l.foldlM f a) P := by
  induction l generalizing a with
  | nil => exact .pure h
  | cons c l ih =>
    obtain ⟨b, hb, hP⟩ := hf a c h hl.1
    rw [List.foldlM_cons, hb]
    exact ih hP (hl.2 b hb)
