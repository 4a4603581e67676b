import Mathlib.Tactic.Common

/-!
# Loops whose rounds can go wrong

A loop of a program goes on, returns, or does what it must not: it reads behind an array, say, or
divides by zero. It is given a number of rounds, of which there are enough where a measure goes
down in each (`Round.run_ne_unfinished`), and then it returns if and only if no state it reaches
goes wrong (`Round.returned_iff`).
-/

/-- **What a round comes to.** -/
inductive Round (S R : Type*) where
  /-- The loop goes on. -/
  | next (s : S)
  /-- It returns. -/
  | stop (r : R)
  /-- The round goes wrong. -/
  | wrong

/-- **What a loop comes to.** -/
inductive Ending (R : Type*) where
  | returned (r : R)
  | wrong
  /-- There were not enough rounds. -/
  | unfinished
deriving DecidableEq, Repr

namespace Round

variable {S R : Type*}

/-- **So many rounds of a loop.** -/
def run (step : S → Round S R) : Nat → S → Ending R
  | 0, _ => .unfinished
  | n + 1, s =>
    match step s with
    | .next s => run step n s
    | .stop r => .returned r
    | .wrong => .wrong

/-- **The states a loop comes to.** -/
inductive Reaches (step : S → Round S R) : S → S → Prop
  | refl (s : S) : Reaches step s s
  | head {s s' t : S} : step s = .next s' → Reaches step s' t → Reaches step s t

variable {step : S → Round S R} {P : S → Prop} {s t : S}

/-- What every round keeps holds of every state that is reached. -/
theorem Reaches.invariant (hkeep : ∀ s s', P s → step s = .next s' → P s')
    (h : Reaches step s t) : P s → P t := by
  induction h with
  | refl s => exact id
  | head hnext _ ih => exact fun hs => ih (hkeep _ _ hs hnext)

section Measure

variable (measure : S → Nat) (hkeep : ∀ s s', P s → step s = .next s' → P s')
  (hless : ∀ s s', P s → step s = .next s' → measure s' < measure s)

include hkeep hless

/-- **There are enough rounds** where a measure goes down in each. -/
theorem run_ne_unfinished {n : Nat} (hs : P s) (hn : measure s < n) :
    run step n s ≠ .unfinished := by
  induction n generalizing s with
  | zero => exact absurd hn (Nat.not_lt_zero _)
  | succ n ih =>
    rw [run]
    cases hstep : step s with
    | next s' =>
      have hdown := hless s s' hs hstep
      exact ih (hkeep s s' hs hstep) (by omega)
    | stop r => exact nofun
    | wrong => exact nofun

/-- **A loop returns if and only if no state it reaches goes wrong.** -/
theorem returned_iff {n : Nat} (hs : P s) (hn : measure s < n) :
    (∃ r, run step n s = .returned r) ↔ ∀ t, Reaches step s t → step t ≠ .wrong := by
  induction n generalizing s with
  | zero => exact absurd hn (Nat.not_lt_zero _)
  | succ n ih =>
    rw [run]
    cases hstep : step s with
    | next s' =>
      have hdown := hless s s' hs hstep
      refine (ih (hkeep s s' hs hstep) (by omega)).trans ⟨fun h t ht => ?_, fun h t ht => ?_⟩
      · cases ht with
        | refl =>
          rw [hstep]
          exact nofun
        | head hnext hrest =>
          obtain rfl := Round.next.inj (hstep.symm.trans hnext)
          exact h t hrest
      · exact h t (.head hstep ht)
    | stop r =>
      refine iff_of_true ⟨r, rfl⟩ fun t ht => ?_
      cases ht with
      | refl =>
        rw [hstep]
        exact nofun
      | head hnext _ => cases hstep.symm.trans hnext
    | wrong => exact iff_of_false (fun ⟨_, h⟩ => nomatch h) fun h => h s (.refl s) hstep

end Measure

/-- What a loop returns has what every round that returns gives. -/
theorem of_returned {Q : R → Prop} (hkeep : ∀ s s', P s → step s = .next s' → P s')
    (hstop : ∀ s r, P s → step s = .stop r → Q r) {n : Nat} {r : R} (hs : P s)
    (h : run step n s = .returned r) : Q r := by
  induction n generalizing s with
  | zero => cases h
  | succ n ih =>
    rw [run] at h
    cases hstep : step s with
    | next s' =>
      rw [hstep] at h
      exact ih (hkeep s s' hs hstep) h
    | stop r' =>
      rw [hstep] at h
      cases h
      exact hstop s r hs hstep
    | wrong =>
      rw [hstep] at h
      cases h

end Round
