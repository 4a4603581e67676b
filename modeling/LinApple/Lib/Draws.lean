import Mathlib.Logic.Function.Basic
import Mathlib.Tactic.Common

/-!
# Drawing in loops

A loop that writes to a store writes some values at some places and leaves the rest as it was.
What a step draws is stated once (`Draws`), drawings that agree where they meet are put
together (`Draws.comp`), and a loop draws what its steps draw (`draws_foldl_range`) – also if
it carries a state of its own along, of which an invariant is known.
-/

namespace Drawing

variable {ι α β S : Type*}

/-- **What has been drawn**: from the store `f` to the store `g`, of the items that satisfy
`p` each has its value at its place, and nothing else has changed. -/
structure Draws (place : ι → α) (value : ι → β) (p : ι → Prop) (f g : α → β) : Prop where
  drawn : ∀ i, p i → g (place i) = value i
  kept : ∀ a, (∀ i, p i → place i ≠ a) → g a = f a

variable {place : ι → α} {value : ι → β} {p q : ι → Prop} {f g h : α → β}

/-- Nothing is drawn. -/
theorem Draws.refl (hp : ∀ i, ¬ p i) (f : α → β) : Draws place value p f f where
  drawn i hi := absurd hi (hp i)
  kept _ _ := rfl

theorem Draws.congr (hd : Draws place value p f g) (hpq : ∀ i, p i ↔ q i) :
    Draws place value q f g where
  drawn i hi := hd.drawn i ((hpq i).2 hi)
  kept a ha := hd.kept a fun i hi => ha i ((hpq i).1 hi)

/-- **What has been drawn has other values too** where they are the same. -/
theorem Draws.value_iff {value' : ι → β} (hd : Draws place value p f g) :
    Draws place value' p f g ↔ ∀ i, p i → value i = value' i :=
  ⟨fun hd' i hi => (hd.drawn i hi).symm.trans (hd'.drawn i hi),
    fun h => ⟨fun i hi => (hd.drawn i hi).trans (h i hi), hd.kept⟩⟩

/-- One item is drawn. -/
theorem Draws.update [DecidableEq α] {i : ι} (hp : ∀ j, p j ↔ j = i) (f : α → β) :
    Draws place value p f (Function.update f (place i) (value i)) where
  drawn j hj := by
    obtain rfl := (hp j).1 hj
    exact Function.update_self ..
  kept a ha := Function.update_of_ne (ha i ((hp i).2 rfl)).symm _ _

/-- **One drawing after another** draws the items of both, if items with one place have one
value. -/
theorem Draws.comp (hf : Draws place value p f g) (hg : Draws place value q g h)
    (hagree : ∀ i j, p i → q j → place i = place j → value i = value j) :
    Draws place value (fun i => p i ∨ q i) f h where
  drawn i hi := by
    by_cases hq : ∃ j, q j ∧ place j = place i
    · obtain ⟨j, hj, hplace⟩ := hq
      rw [← hplace, hg.drawn j hj]
      rcases hi with hi | hi
      · exact (hagree i j hi hj hplace.symm).symm
      · rw [← hg.drawn j hj, hplace, hg.drawn i hi]
    · have hi' : p i := hi.resolve_right fun hqi => hq ⟨i, hqi, rfl⟩
      rw [hg.kept _ fun j hj hplace => hq ⟨j, hj, hplace⟩]
      exact hf.drawn i hi'
  kept a ha := by
    rw [hg.kept a fun i hi => ha i (.inr hi), hf.kept a fun i hi => ha i (.inl hi)]

/-- **The rule for a loop**: what holds before each turn, with the number of the turn. -/
theorem foldl_range_induction (I : Nat → S → Prop) {step : S → Nat → S} {n : Nat}
    (hstep : ∀ k < n, ∀ s, I k s → I (k + 1) (step s k)) {s : S} (hs : I 0 s) :
    I n ((List.range n).foldl step s) := by
  induction n with
  | zero => exact hs
  | succ n ih =>
    rw [List.range_succ, List.foldl_append, List.foldl_cons, List.foldl_nil]
    exact hstep n (Nat.lt_succ_self n) _ (ih fun k hk => hstep k (Nat.lt_succ_of_lt hk))

/-- **A loop draws what its steps draw.** The store is a part of what the loop carries along,
and the steps draw what they should where an invariant holds, which they keep. -/
theorem draws_foldl_range (store : S → α → β) {step : S → Nat → S} {I : S → Prop}
    {p : Nat → ι → Prop} {n : Nat}
    (hstep : ∀ s, I s → ∀ k < n, Draws place value (p k) (store s) (store (step s k))
      ∧ I (step s k))
    (hagree : ∀ k < n, ∀ l < n, ∀ i j, p k i → p l j → place i = place j → value i = value j)
    {s : S} (hs : I s) :
    Draws place value (fun i => ∃ k < n, p k i) (store s) (store ((List.range n).foldl step s))
      ∧ I ((List.range n).foldl step s) := by
  induction n with
  | zero => exact ⟨.refl (fun i ⟨k, hk, _⟩ => absurd hk (Nat.not_lt_zero k)) _, hs⟩
  | succ n ih =>
    obtain ⟨hdraws, hinv⟩ := ih (fun s hs k hk => hstep s hs k (Nat.lt_succ_of_lt hk))
      (fun k hk l hl => hagree k (Nat.lt_succ_of_lt hk) l (Nat.lt_succ_of_lt hl))
    obtain ⟨hlast, hnext⟩ := hstep _ hinv n (Nat.lt_succ_self n)
    rw [List.range_succ, List.foldl_append, List.foldl_cons, List.foldl_nil]
    refine ⟨(hdraws.comp hlast ?_).congr fun i => ?_, hnext⟩
    · rintro i j ⟨k, hk, hi⟩ hj
      exact hagree k (Nat.lt_succ_of_lt hk) n (Nat.lt_succ_self n) i j hi hj
    · constructor
      · rintro (⟨k, hk, hi⟩ | hi)
        · exact ⟨k, Nat.lt_succ_of_lt hk, hi⟩
        · exact ⟨n, Nat.lt_succ_self n, hi⟩
      · rintro ⟨k, hk, hi⟩
        rcases Nat.lt_succ_iff_lt_or_eq.1 hk with hk | rfl
        · exact .inl ⟨k, hk, hi⟩
        · exact .inr hi

end Drawing
