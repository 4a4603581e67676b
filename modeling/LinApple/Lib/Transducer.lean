import Mathlib.Tactic.Common

/-!
# Transducers

A transducer reads its input one item after another, and for each it changes its state and
writes some output. What it does in a whole run is `produce`; a run may be cut
(`produce_append`), and a transducer that takes several items at once does what one does that
takes them one by one, if it does so for each group (`produce_flatten`).
-/

namespace Transducer

variable {S A B : Type*}

/-- **What a transducer comes to**: its state, and all that it has written. -/
def produce (f : S → A → S × List B) : S → List A → S × List B
  | s, [] => (s, [])
  | s, a :: as => ((produce f (f s a).1 as).1, (f s a).2 ++ (produce f (f s a).1 as).2)

variable {f g : S → A → S × List B}

@[simp] theorem produce_nil (s : S) : produce f s [] = (s, []) := rfl

theorem produce_cons (s : S) (a : A) (as : List A) : produce f s (a :: as)
    = ((produce f (f s a).1 as).1, (f s a).2 ++ (produce f (f s a).1 as).2) := rfl

/-- One item is read as it is. -/
@[simp] theorem produce_singleton (s : S) (a : A) : produce f s [a] = f s a := by
  simp [produce_cons]

/-- **A run may be cut.** -/
theorem produce_append (s : S) (as bs : List A) : produce f s (as ++ bs)
    = ((produce f (produce f s as).1 bs).1,
        (produce f s as).2 ++ (produce f (produce f s as).1 bs).2) := by
  induction as generalizing s with
  | nil => rfl
  | cons a as ih =>
    rw [List.cons_append, produce_cons, ih, produce_cons, List.append_assoc]

/-- What each step preserves, a run does. -/
theorem produce_invariant {P : S → Prop} (hP : ∀ s a, P s → P (f s a).1) {s : S} (h : P s)
    (as : List A) : P (produce f s as).1 := by
  induction as generalizing s with
  | nil => exact h
  | cons a as ih => exact ih (hP s a h)

/-- **Two transducers do the same** if they do on the states that one of them reaches. -/
theorem produce_congr {P : S → Prop} (hP : ∀ s a, P s → P (f s a).1)
    (hsame : ∀ s a, P s → f s a = g s a) {s : S} (h : P s) (as : List A) :
    produce f s as = produce g s as := by
  induction as generalizing s with
  | nil => rfl
  | cons a as ih => rw [produce_cons, produce_cons, ← hsame s a h, ih (hP s a h)]

/-- **Groups of items are read as the items are.** -/
theorem produce_flatten {P : S → Prop} {F : S → List A → S × List B}
    (hP : ∀ s a, P s → P (f s a).1) (hgroup : ∀ s as, P s → F s as = produce f s as) {s : S}
    (h : P s) (groups : List (List A)) : produce F s groups = produce f s groups.flatten := by
  induction groups generalizing s with
  | nil => rfl
  | cons as groups ih =>
    rw [List.flatten_cons, produce_append, produce_cons, hgroup s as h,
      ih (produce_invariant hP h as)]

end Transducer
