import Mathlib.Order.Basic
import Mathlib.Tactic.Common

/-!
# Loops that run events up to a horizon

A component that keeps the time of its next event is brought up to a moment by a loop:
as long as the next event is due by then, it is run. Such a loop need not end, so it is
given a number of rounds, and `EndsIn` says that some number is enough.

`EndsIn.cut_iff` is the point of it: stopping at an earlier horizon on the way changes
nothing, as long as the state is left alone there. What a component does to its state
when it stops – noting the time, say – is what has to be looked at, and `EndsIn.congr`
is the rule for that. It relates the states of two loops, so it also says that a loop
which sees only part of a component's state ends where the component's own loop does.

A statement about what a loop does on the way, and not only where it ends, quantifies
over the states it `Reaches`: those it has before one of its rounds, and the last.
-/

/-- **An event loop**: whether the next event is due by a horizon, and what it does. -/
structure EventLoop (S : Type*) where
  /-- The next event comes at the horizon or before. -/
  due : Nat → S → Bool
  /-- The next event. -/
  fire : S → S

namespace EventLoop

variable {S : Type*}

/-- **The loop up to a horizon**, in so many rounds; `none` if they are not enough. -/
def runTo (L : EventLoop S) (horizon : Nat) : Nat → S → Option S
  | 0, _ => none
  | rounds + 1, s => if L.due horizon s then L.runTo horizon rounds (L.fire s) else some s

/-- **The loop ends**, in some state. -/
def EndsIn (L : EventLoop S) (horizon : Nat) (s r : S) : Prop :=
  ∃ rounds, L.runTo horizon rounds s = some r

variable {L : EventLoop S} {t u : Nat} {s r m : S}

/-- More rounds do not matter. -/
theorem runTo_mono {n k : Nat} (h : L.runTo t n s = some r) (hle : n ≤ k) :
    L.runTo t k s = some r := by
  induction n generalizing s k with
  | zero => exact absurd h (by simp [runTo])
  | succ n ih =>
    obtain ⟨k, rfl⟩ := Nat.exists_eq_add_of_lt hle
    rw [runTo] at h ⊢
    split_ifs at h ⊢ with hdue
    · exact ih h (by omega)
    · exact h

namespace EndsIn

/-- Where nothing is due the loop ends at once. -/
theorem of_not_due (h : L.due t s = false) : L.EndsIn t s s := ⟨1, by simp [runTo, h]⟩

/-- A loop that starts with an event. -/
theorem fire_iff (h : L.due t s = true) : L.EndsIn t s r ↔ L.EndsIn t (L.fire s) r := by
  constructor
  · rintro ⟨_ | n, hn⟩
    · exact absurd hn (by simp [runTo])
    · exact ⟨n, by simpa [runTo, h] using hn⟩
  · rintro ⟨n, hn⟩
    exact ⟨n + 1, by simpa [runTo, h] using hn⟩

/-- A loop ends in one state only. -/
theorem unique (h : L.EndsIn t s r) (h' : L.EndsIn t s m) : r = m := by
  obtain ⟨n, hn⟩ := h
  obtain ⟨k, hk⟩ := h'
  have hn' := runTo_mono hn (Nat.le_max_left n k)
  rw [runTo_mono hk (Nat.le_max_right n k)] at hn'
  exact (Option.some.inj hn').symm

/-- Where nothing is due the loop ends where it starts. -/
theorem eq_of_not_due (h : L.EndsIn t s r) (hdue : L.due t s = false) : r = s :=
  h.unique (of_not_due hdue)

/-- **The induction over the rounds of a loop that ends**, from its end backwards. -/
theorem rounds {motive : S → Prop} (h : L.EndsIn t s r)
    (done : L.due t r = false → motive r)
    (round : ∀ s, L.due t s = true → motive (L.fire s) → motive s) : motive s := by
  obtain ⟨n, hn⟩ := h
  induction n generalizing s with
  | zero => exact absurd hn (by simp [runTo])
  | succ n ih =>
    rw [runTo] at hn
    split_ifs at hn with hdue
    · exact round s hdue (ih hn)
    · cases hn
      exact done (by simpa using hdue)

/-- Nothing is due where the loop ends. -/
theorem not_due (h : L.EndsIn t s r) : L.due t r = false :=
  h.rounds (motive := fun _ => L.due t r = false) id fun _ _ ih => ih

/-- **The invariant rule**: what every event that is due preserves holds at the end. -/
theorem invariant {P : S → Prop} (hstep : ∀ s, L.due t s = true → P s → P (L.fire s))
    (h : L.EndsIn t s r) (hs : P s) : P r :=
  h.rounds (motive := fun s => P s → P r) (fun _ => id)
    (fun s hdue ih hs => ih (hstep s hdue hs)) hs

/-- **A horizon on the way does not matter**: what is left to do up to the later horizon
is left to do from where the loop stops at the earlier one. -/
theorem cut_iff (hmono : ∀ s, L.due u s = true → L.due t s = true) (h : L.EndsIn u s m) :
    L.EndsIn t s r ↔ L.EndsIn t m r :=
  h.rounds (motive := fun s => L.EndsIn t s r ↔ L.EndsIn t m r) (fun _ => Iff.rfl)
    fun s hdue ih => (fire_iff (hmono s hdue)).trans ih

/-- **States two loops cannot tell apart** end in states they cannot tell apart. -/
theorem congr {S' : Type*} {K : EventLoop S'} {R : S → S' → Prop}
    (hdue : ∀ s s', R s s' → L.due t s = K.due t s')
    (hfire : ∀ s s', R s s' → L.due t s = true → R (L.fire s) (K.fire s'))
    (h : L.EndsIn t s r) {s' : S'} (hs : R s s') : ∃ r', K.EndsIn t s' r' ∧ R r r' :=
  h.rounds (motive := fun s => ∀ s', R s s' → ∃ r', K.EndsIn t s' r' ∧ R r r')
    (fun hend s' hs => ⟨s', of_not_due ((hdue _ _ hs).symm.trans hend), hs⟩)
    (fun s hd ih s' hs => by
      obtain ⟨r', hr', hrel⟩ := ih _ (hfire s s' hs hd)
      exact ⟨r', (fire_iff ((hdue s s' hs).symm.trans hd)).2 hr', hrel⟩) s' hs

end EndsIn

/-- **The loop gets to a state** on the way to its horizon: it has run some of the events
that are due, not necessarily all of them. -/
inductive Reaches (L : EventLoop S) (horizon : Nat) : S → S → Prop
  | refl (s : S) : Reaches L horizon s s
  | fire {s r : S} (hdue : L.due horizon s = true) (hrest : Reaches L horizon (L.fire s) r) :
    Reaches L horizon s r

/-- The state a loop ends in is one it gets to. -/
theorem EndsIn.reaches (h : L.EndsIn t s r) : L.Reaches t s r :=
  h.rounds (motive := fun s => L.Reaches t s r) (fun _ => .refl r) fun _ hdue ih => .fire hdue ih

/-- A loop with a later horizon gets to the same states, and to others. -/
theorem Reaches.mono (hmono : ∀ s, L.due u s = true → L.due t s = true)
    (h : L.Reaches u s r) : L.Reaches t s r := by
  induction h with
  | refl s => exact .refl s
  | fire hdue _ ih => exact .fire (hmono _ hdue) ih

/-- **The invariant rule for the way**: what every event that is due preserves holds of every
state the loop gets to. -/
theorem Reaches.invariant {P : S → Prop} (hstep : ∀ s, L.due t s = true → P s → P (L.fire s))
    (h : L.Reaches t s r) (hs : P s) : P r := by
  induction h with
  | refl s => exact hs
  | fire hdue _ ih => exact ih (hstep _ hdue hs)

/-- One round after a state the loop gets to. -/
theorem Reaches.fire_end (h : L.Reaches t s r) (hdue : L.due t r = true) :
    L.Reaches t s (L.fire r) := by
  induction h with
  | refl s => exact .fire hdue (.refl _)
  | fire hdue' _ ih => exact .fire hdue' (ih hdue)

/-- **A loop ends** if every event that is due makes a measure smaller. -/
theorem exists_endsIn {P : S → Prop} (μ : S → Nat)
    (hstep : ∀ s, L.due t s = true → P s → P (L.fire s) ∧ μ (L.fire s) < μ s) (hs : P s) :
    ∃ r, L.EndsIn t s r := by
  induction hn : μ s using Nat.strongRecOn generalizing s with
  | ind n ih =>
    cases hdue : L.due t s with
    | false => exact ⟨s, .of_not_due hdue⟩
    | true =>
      obtain ⟨hfire, hless⟩ := hstep s hdue hs
      obtain ⟨r, hr⟩ := ih _ (hn ▸ hless) hfire rfl
      exact ⟨r, (EndsIn.fire_iff hdue).2 hr⟩

end EventLoop
