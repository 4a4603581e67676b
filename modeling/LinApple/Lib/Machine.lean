import Mathlib.Tactic.Common

/-!
# Deterministic machines and their runs

A machine reads one action after another. Each action moves the state and
may show the observer something. Two machines are compared through what a
run shows, and a run is often only interesting where every action taken
was allowed where it was taken – sometimes because of the action that
comes *after* it, which is why `Admits` hands its guard the rest of the
run as well.

The rules at the end are the only inductions over runs: an invariant of one
step is one of every run (`Machine.invariant_run`), what every step shows
under it every run shows (`Machine.forall_mem_shows`), and a relation that
one step preserves makes two machines show the same (`Machine.simulation`).
-/

/-- **A deterministic machine**: how an action moves the state, and what it
shows in the state it is taken in. -/
structure Machine (S A O : Type*) where
  /-- The state after an action. -/
  next : S → A → S
  /-- What an action shows, if it shows anything. -/
  out : S → A → Option O

namespace Machine

variable {S S' A O : Type*}

/-- The state after a run. -/
def run (M : Machine S A O) : S → List A → S
  | s, [] => s
  | s, a :: as => M.run (M.next s a) as

/-- **What a run shows**: the outputs of its actions, in order. -/
def shows (M : Machine S A O) : S → List A → List O
  | _, [] => []
  | s, a :: as => (M.out s a).toList ++ M.shows (M.next s a) as

/-- **A run all of whose actions are allowed where they are taken**. The
guard sees the state, the action, and the actions still to come. -/
def Admits (M : Machine S A O) (G : S → A → List A → Prop) :
    S → List A → Prop
  | _, [] => True
  | s, a :: as => G s a as ∧ M.Admits G (M.next s a) as

@[simp] theorem run_nil (M : Machine S A O) (s : S) : M.run s [] = s := rfl

@[simp] theorem run_cons (M : Machine S A O) (s : S) (a : A) (as : List A) :
    M.run s (a :: as) = M.run (M.next s a) as := rfl

@[simp] theorem shows_nil (M : Machine S A O) (s : S) : M.shows s [] = [] :=
  rfl

@[simp] theorem shows_cons (M : Machine S A O) (s : S) (a : A) (as : List A) :
    M.shows s (a :: as) = (M.out s a).toList ++ M.shows (M.next s a) as := rfl

/-- A run may be taken in two parts. -/
theorem run_append (M : Machine S A O) (s : S) (as bs : List A) :
    M.run s (as ++ bs) = M.run (M.run s as) bs := by
  induction as generalizing s with
  | nil => rfl
  | cons a as ih => exact ih (M.next s a)

/-- A run taken in two parts shows what the parts show. -/
theorem shows_append (M : Machine S A O) (s : S) (as bs : List A) :
    M.shows s (as ++ bs) = M.shows s as ++ M.shows (M.run s as) bs := by
  induction as generalizing s with
  | nil => rfl
  | cons a as ih =>
    rw [List.cons_append, shows_cons, shows_cons, run_cons, ih,
      List.append_assoc]

/-- A run is a fold. -/
theorem run_eq_foldl (M : Machine S A O) (s : S) (as : List A) :
    M.run s as = as.foldl M.next s := by
  induction as generalizing s with
  | nil => rfl
  | cons a as ih => exact ih (M.next s a)

/-- **Actions that commute may be taken in any order.** -/
theorem run_perm (M : Machine S A O) {as bs : List A} (h : as.Perm bs)
    (hcomm : ∀ a ∈ as, ∀ b ∈ as, ∀ s,
      M.next (M.next s a) b = M.next (M.next s b) a) (s : S) :
    M.run s as = M.run s bs := by
  rw [run_eq_foldl, run_eq_foldl]
  exact h.foldl_eq' (fun a ha b hb s => hcomm a ha b hb s) s

/-- **The invariant rule**: what every allowed action preserves, every
allowed run preserves. -/
theorem invariant_run (M : Machine S A O) {G : S → A → List A → Prop}
    {I : S → Prop} (hstep : ∀ s a as, I s → G s a as → I (M.next s a))
    {s : S} (hs : I s) {as : List A} (has : M.Admits G s as) :
    I (M.run s as) := by
  induction as generalizing s with
  | nil => exact hs
  | cons a as ih => exact ih (hstep s a as hs has.1) has.2

/-- **The invariant rule without a guard.** -/
theorem invariant_run_of_forall (M : Machine S A O) {I : S → Prop}
    (hstep : ∀ s a, I s → I (M.next s a)) {s : S} (hs : I s)
    (as : List A) : I (M.run s as) := by
  induction as generalizing s with
  | nil => exact hs
  | cons a as ih => exact ih (hstep s a hs)

/-- **Two guards that ask the same under an invariant** allow the same runs. -/
theorem admits_congr (M : Machine S A O) {G H : S → A → List A → Prop} {I : S → Prop}
    (hstep : ∀ s a, I s → I (M.next s a)) (hsame : ∀ s a as, I s → (G s a as ↔ H s a as))
    {s : S} (hs : I s) (as : List A) : M.Admits G s as ↔ M.Admits H s as := by
  induction as generalizing s with
  | nil => exact Iff.rfl
  | cons a as ih => exact and_congr (hsame s a as hs) (ih (hstep s a hs))

/-- **Two machines allow the same runs** where a relation that every allowed action preserves
makes their guards ask the same. -/
theorem admits_iff_of_simulation {O' : Type*} (M : Machine S A O) (N : Machine S' A O')
    {G : S → A → List A → Prop} {H : S' → A → List A → Prop} {R : S → S' → Prop} {P : A → Prop}
    (hstep : ∀ s t a as, R s t → P a →
      (G s a as ↔ H t a as) ∧ (G s a as → R (M.next s a) (N.next t a)))
    {s : S} {t : S'} (hR : R s t) {as : List A} (has : ∀ a ∈ as, P a) :
    M.Admits G s as ↔ N.Admits H t as := by
  induction as generalizing s t with
  | nil => exact Iff.rfl
  | cons a as ih =>
    obtain ⟨hguard, hnext⟩ := hstep s t a as hR (has a (List.mem_cons_self ..))
    have hrest := fun ha => ih (hnext ha) fun b hb => has b (List.mem_cons_of_mem _ hb)
    exact ⟨fun h => ⟨hguard.1 h.1, (hrest h.1).1 h.2⟩,
      fun h => ⟨hguard.2 h.1, (hrest (hguard.2 h.1)).2 h.2⟩⟩

/-- **The rule for what a run shows**: where an invariant holds, what every
allowed action shows is as it should be, and so is all a run shows. -/
theorem forall_mem_shows (M : Machine S A O) {G : S → A → List A → Prop}
    {I : S → Prop} {P : O → Prop}
    (hstep : ∀ s a as, I s → G s a as →
      (∀ x ∈ M.out s a, P x) ∧ I (M.next s a))
    {s : S} (hs : I s) {as : List A} (has : M.Admits G s as) :
    ∀ x ∈ M.shows s as, P x := by
  induction as generalizing s with
  | nil => exact fun x hx => nomatch hx
  | cons a as ih =>
    obtain ⟨hout, hnext⟩ := hstep s a as hs has.1
    intro x hx
    rw [shows_cons, List.mem_append, Option.mem_toList] at hx
    exact hx.elim (hout x) (ih hnext has.2 x)

/-- **The simulation rule**: a relation that one allowed action preserves,
and under which it shows the same on both sides, makes the two machines
show the same over the whole run, and holds where the run ends. The
relation sees the actions still to come, because what the guard promised
about them at one action is needed at the next. -/
theorem simulation (M : Machine S A O) (N : Machine S' A O)
    {G : S → A → List A → Prop} {R : S → S' → List A → Prop}
    (hstep : ∀ s t a as, R s t (a :: as) → G s a as →
      M.out s a = N.out t a ∧ R (M.next s a) (N.next t a) as)
    {s : S} {t : S'} {as : List A} (hR : R s t as) (has : M.Admits G s as) :
    M.shows s as = N.shows t as ∧ R (M.run s as) (N.run t as) [] := by
  induction as generalizing s t with
  | nil => exact ⟨rfl, hR⟩
  | cons a as ih =>
    obtain ⟨hout, hnext⟩ := hstep s t a as hR has.1
    obtain ⟨hshows, hrun⟩ := ih hnext has.2
    exact ⟨by rw [shows_cons, shows_cons, hout, hshows], hrun⟩

/-- **The bisimulation rule**, for a relation that needs no guard. -/
theorem shows_eq_of_bisimulation (M : Machine S A O) (N : Machine S' A O)
    {R : S → S' → Prop}
    (hstep : ∀ s t a, R s t → M.out s a = N.out t a ∧
      R (M.next s a) (N.next t a))
    {s : S} {t : S'} (hR : R s t) (as : List A) :
    M.shows s as = N.shows t as := by
  induction as generalizing s t with
  | nil => rfl
  | cons a as ih =>
    obtain ⟨hout, hnext⟩ := hstep s t a hR
    rw [shows_cons, shows_cons, hout, ih hnext]

end Machine
