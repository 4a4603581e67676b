import Mathlib.Tactic.Common

/-!
# Streams that arrive in pieces

A stream of bytes is cut into frames from its start, where a queue of bytes that have arrived
either starts with a frame or has to wait for more (`Framing`). A loop takes frames off the
queue as long as there are any (`process`), and now and then asks whether more has arrived. It
is run again and again as pieces arrive (`polls`). A frame is *stable* if it is still the first
one when what is still to come has arrived; where all frames are, the pieces do not matter
(`polls_eq_of_cuts`).
-/

/-- **How a stream is cut into frames**: a queue starts with a frame, or waits. -/
structure Framing (α F : Type*) where
  frame : List α → Option F
  bytes : F → List α
  starts : ∀ {q f}, frame q = some f → bytes f ≠ [] ∧ ∃ rest, bytes f ++ rest = q

namespace Framing

variable {α F σ : Type*} (M : Framing α F)

/-- What is behind a frame. -/
def behind (q : List α) (f : F) : List α := q.drop (M.bytes f).length

/-- **The frames of a queue**, and what is left of it. -/
inductive Frames : List α → List F → List α → Prop
  | wait {q : List α} (h : M.frame q = none) : Frames q [] q
  | take {q left : List α} {f : F} {fs : List F} (h : M.frame q = some f)
      (hbehind : Frames (M.behind q f) fs left) : Frames q (f :: fs) left

variable {M} {q : List α} {f : F} {fs fs' : List F} {left left' : List α}

theorem behind_bytes_append (f : F) (rest : List α) : M.behind (M.bytes f ++ rest) f = rest :=
  List.drop_left

theorem bytes_append_behind (h : M.frame q = some f) : M.bytes f ++ M.behind q f = q := by
  obtain ⟨-, rest, rfl⟩ := M.starts h
  rw [behind_bytes_append]

theorem behind_append (h : M.frame q = some f) (r : List α) :
    M.behind (q ++ r) f = M.behind q f ++ r := by
  conv_lhs => rw [← bytes_append_behind h, List.append_assoc, behind_bytes_append]

theorem length_behind_lt (h : M.frame q = some f) : (M.behind q f).length < q.length := by
  have hlength := congrArg List.length (bytes_append_behind h)
  have hpos := List.length_pos_iff.2 (M.starts h).1
  rw [List.length_append] at hlength
  omega

@[simp] theorem frame_nil : M.frame [] = none := by
  cases h : M.frame [] with
  | none => rfl
  | some f =>
    obtain ⟨hne, rest, heq⟩ := M.starts h
    exact absurd (List.append_eq_nil_iff.1 heq).1 hne

/-- A queue has its frames. -/
theorem exists_frames (q : List α) : ∃ fs left, M.Frames q fs left := by
  induction hn : q.length using Nat.strongRecOn generalizing q with
  | ind n ih =>
    cases h : M.frame q with
    | none => exact ⟨[], q, .wait h⟩
    | some f =>
      obtain ⟨fs, left, hframes⟩ := ih _ (hn ▸ length_behind_lt h) _ rfl
      exact ⟨f :: fs, left, .take h hframes⟩

theorem Frames.unique (h : M.Frames q fs left) (h' : M.Frames q fs' left') :
    fs = fs' ∧ left = left' := by
  induction h generalizing fs' with
  | wait hwait =>
    cases h' with
    | wait _ => exact ⟨rfl, rfl⟩
    | take htake _ => exact absurd (hwait.symm.trans htake) nofun
  | take htake _ ih =>
    cases h' with
    | wait hwait => exact absurd (hwait.symm.trans htake) nofun
    | take htake' hbehind' =>
      obtain rfl := Option.some.inj (htake.symm.trans htake')
      obtain ⟨rfl, rfl⟩ := ih hbehind'
      exact ⟨rfl, rfl⟩

/-- **No byte is lost, and none is in two frames.** -/
theorem Frames.bytes (h : M.Frames q fs left) : fs.flatMap M.bytes ++ left = q := by
  induction h with
  | wait _ => rfl
  | take htake _ ih =>
    rw [List.flatMap_cons, List.append_assoc, ih, bytes_append_behind htake]

/-! ## The loop -/

variable (M) (asks : List α → Bool) (act : σ → F → σ)

/-- What has arrived after the loop has asked, if it asks: then it gets the next piece, which is
empty if nothing has arrived. -/
def more (q : List α) (source : List (List α)) : List α × List (List α) :=
  if asks q then (q ++ source.headD [], source.tail) else (q, source)

/-- **The loop** takes frames off a queue until it has to wait: what comes of them, what is left
of the queue, and the pieces that have still to arrive. -/
def process : Nat → σ → List α → List (List α) → σ × List α × List (List α)
  | 0, s, q, source => (s, q, source)
  | n + 1, s, q, source =>
    match M.frame (more asks q source).1 with
    | none => (s, more asks q source)
    | some f => process n (act s f) (M.behind (more asks q source).1 f) (more asks q source).2

/-- **Polls**, one after another: each takes the next piece, and does nothing if it is empty. -/
def polls : Nat → σ → List α → List (List α) → σ × List α
  | n + 1, s, q, piece :: source =>
    if piece.isEmpty then polls n s q source
    else
      let r := M.process asks act ((q ++ piece).length + source.flatten.length) s (q ++ piece) source
      polls n r.1 r.2.1 r.2.2
  | _, s, q, _ => (s, q)

variable {M} {source : List (List α)}

/-- Asking takes a piece from what is to come, or nothing. -/
theorem more_eq (q : List α) (source : List (List α)) : more asks q source = (q, source) ∨
    ∃ piece rest, source = piece :: rest ∧ more asks q source = (q ++ piece, rest) := by
  unfold more
  split
  · cases source with
    | nil => exact .inl (Prod.ext (List.append_nil q) rfl)
    | cons piece rest => exact .inr ⟨piece, rest, rfl, rfl⟩
  · exact .inl rfl

theorem more_append (q : List α) (source : List (List α)) : (more asks q source).1 ++ (more asks q source).2.flatten
    = q ++ source.flatten := by
  rcases more_eq asks q source with h | ⟨piece, rest, rfl, h⟩
  · rw [h]
  · rw [h, List.flatten_cons, List.append_assoc]

theorem length_more_le : (more asks q source).2.length ≤ source.length := by
  rcases more_eq asks q source with h | ⟨piece, rest, rfl, h⟩
  · exact Nat.le_of_eq (by rw [h])
  · rw [h]
    exact Nat.le_succ _

theorem process_none {n : Nat} (s : σ) (h : M.frame (more asks q source).1 = none) :
    M.process asks act (n + 1) s q source = (s, more asks q source) := by
  rw [process, h]

theorem process_some {n : Nat} (s : σ) (h : M.frame (more asks q source).1 = some f) :
    M.process asks act (n + 1) s q source
      = M.process asks act n (act s f) (M.behind (more asks q source).1 f)
        (more asks q source).2 := by
  rw [process, h]

/-- What is to be taken and to come gets less with each frame. -/
theorem measure_behind_le {n : Nat} (hn : q.length + source.flatten.length ≤ n + 1)
    (h : M.frame (more asks q source).1 = some f) :
    (M.behind (more asks q source).1 f).length + (more asks q source).2.flatten.length ≤ n := by
  have hlt := length_behind_lt h
  have htotal := congrArg List.length (more_append asks q source)
  rw [List.length_append, List.length_append] at htotal
  omega

/-- **The loop ends** where it has to wait, and no byte is lost or in two frames. -/
theorem process_takes {n : Nat} (s : σ) (hn : q.length + source.flatten.length ≤ n) :
    M.frame (M.process asks act n s q source).2.1 = none
      ∧ (M.process asks act n s q source).2.2.length ≤ source.length
      ∧ ∃ fs : List F, (M.process asks act n s q source).1 = fs.foldl act s
        ∧ fs.flatMap M.bytes ++ (M.process asks act n s q source).2.1
            ++ (M.process asks act n s q source).2.2.flatten = q ++ source.flatten := by
  induction n generalizing s q source with
  | zero =>
    have hq : q = [] := List.eq_nil_of_length_eq_zero (by omega)
    subst hq
    exact ⟨frame_nil, Nat.le_refl _, [], rfl, rfl⟩
  | succ n ih =>
    cases hframe : M.frame (more asks q source).1 with
    | none =>
      rw [process_none asks act s hframe]
      exact ⟨hframe, length_more_le asks, [], rfl, more_append asks q source⟩
    | some f =>
      rw [process_some asks act s hframe]
      obtain ⟨hnone, hlength, fs, hfs, hbytes⟩ := ih (act s f) (measure_behind_le asks hn hframe)
      refine ⟨hnone, Nat.le_trans hlength (length_more_le asks), f :: fs, hfs, ?_⟩
      rw [List.flatMap_cons, List.append_assoc, List.append_assoc, ← List.append_assoc (List.flatMap _ _),
        hbytes, ← List.append_assoc, bytes_append_behind hframe, more_append]

/-- **Polls lose no byte**, and have none in two frames. -/
theorem polls_takes {n : Nat} (s : σ) (hn : source.length ≤ n) :
    ∃ fs : List F, (M.polls asks act n s q source).1 = fs.foldl act s
      ∧ fs.flatMap M.bytes ++ (M.polls asks act n s q source).2 = q ++ source.flatten := by
  induction n generalizing s q source with
  | zero =>
    have hsource : source = [] := List.eq_nil_of_length_eq_zero (by omega)
    subst hsource
    exact ⟨[], rfl, (List.append_nil q).symm⟩
  | succ n ih =>
    cases source with
    | nil => exact ⟨[], rfl, (List.append_nil q).symm⟩
    | cons piece source =>
      rw [List.length_cons] at hn
      rw [polls, List.flatten_cons, ← List.append_assoc]
      split
      · rename_i hempty
        rw [List.isEmpty_iff.1 hempty, List.append_nil]
        exact ih s (by omega)
      · obtain ⟨-, hlength, fs, hfs, hbytes⟩ :=
          process_takes asks act (M := M) (q := q ++ piece) s (Nat.le_refl _)
        obtain ⟨fs', hfs', hbytes'⟩ := ih _ (Nat.le_trans hlength (Nat.le_of_succ_le_succ hn))
        refine ⟨fs ++ fs', by rw [List.foldl_append, ← hfs]; exact hfs', ?_⟩
        rw [List.flatMap_append, List.append_assoc, hbytes', ← List.append_assoc]
        exact hbytes

variable {I : List α → List (List α) → Prop}

section Rules

variable (hread : ∀ q piece source, I q (piece :: source) → I (q ++ piece) source)
  (hstable : ∀ q source f, I q source → M.frame q = some f →
    M.frame (q ++ source.flatten) = some f)
  (hbehind : ∀ q source f, I q source → M.frame q = some f → I (M.behind q f) source)

include hread

theorem more_invariant (hI : I q source) : I (more asks q source).1 (more asks q source).2 := by
  rcases more_eq asks q source with h | ⟨piece, rest, rfl, h⟩
  · rwa [h]
  · rw [h]
    exact hread q piece rest hI

include hstable hbehind

/-- **The rule for the loop**: it takes frames of the stream, and keeps the invariant under which
they are stable. -/
theorem process_frames {n : Nat} (s : σ) (hI : I q source)
    (hn : q.length + source.flatten.length ≤ n) :
    I (M.process asks act n s q source).2.1 (M.process asks act n s q source).2.2 ∧
      ∃ fs : List F, (M.process asks act n s q source).1 = fs.foldl act s ∧ ∀ fs' left,
        M.Frames ((M.process asks act n s q source).2.1
            ++ (M.process asks act n s q source).2.2.flatten) fs' left →
          M.Frames (q ++ source.flatten) (fs ++ fs') left := by
  induction n generalizing s q source with
  | zero => exact ⟨hI, [], rfl, fun _ _ h => h⟩
  | succ n ih =>
    have hI' := more_invariant asks hread hI
    rw [← more_append asks q source]
    cases hframe : M.frame (more asks q source).1 with
    | none =>
      rw [process_none asks act s hframe]
      exact ⟨hI', [], rfl, fun _ _ h => h⟩
    | some f =>
      rw [process_some asks act s hframe]
      obtain ⟨hI'', fs, hfs, hframes⟩ := ih (act s f) (hbehind _ _ f hI' hframe)
        (measure_behind_le asks hn hframe)
      refine ⟨hI'', f :: fs, hfs, fun fs' left h => .take (hstable _ _ f hI' hframe) ?_⟩
      rw [behind_append hframe]
      exact hframes fs' left h

/-- **The rule for polls**: they take the frames of the stream, one after another. -/
theorem polls_frames {n : Nat} (s : σ) (hI : I q source) (hq : M.frame q = none)
    (hn : source.length ≤ n) :
    ∃ fs left, M.Frames (q ++ source.flatten) fs left
      ∧ M.polls asks act n s q source = (fs.foldl act s, left) := by
  induction n generalizing s q source with
  | zero =>
    have hsource : source = [] := List.eq_nil_of_length_eq_zero (by omega)
    subst hsource
    rw [List.flatten_nil, List.append_nil]
    exact ⟨[], q, .wait hq, rfl⟩
  | succ n ih =>
    cases source with
    | nil =>
      rw [List.flatten_nil, List.append_nil]
      exact ⟨[], q, .wait hq, rfl⟩
    | cons piece source =>
      rw [List.length_cons] at hn
      rw [polls, List.flatten_cons, ← List.append_assoc]
      have hI' := hread q piece source hI
      split
      · rename_i hempty
        rw [List.isEmpty_iff.1 hempty, List.append_nil] at hI' ⊢
        exact ih s hI' hq (by omega)
      · have hturns : (q ++ piece).length + source.flatten.length
            ≤ (q ++ piece).length + source.flatten.length := Nat.le_refl _
        obtain ⟨hnone, hlength, -⟩ := process_takes (M := M) asks act s hturns
        obtain ⟨hI'', fs, hfs, hframes⟩ :=
          process_frames asks act hread hstable hbehind s hI' hturns
        obtain ⟨fs', left, hframes', hpolls⟩ := ih _ hI'' hnone (Nat.le_trans hlength (by omega))
        refine ⟨fs ++ fs', left, hframes fs' left hframes', hpolls.trans ?_⟩
        rw [List.foldl_append, ← hfs]

end Rules

/-- **A stream that arrives at once.** -/
theorem polls_singleton (s : σ) (stream : List α) :
    ∃ fs left, M.Frames stream fs left ∧ M.polls asks act 1 s [] [stream] = (fs.foldl act s, left) := by
  have hspec : ∃ fs left, M.Frames ([] ++ [stream].flatten) fs left
      ∧ M.polls asks act 1 s [] [stream] = (fs.foldl act s, left) := by
    refine polls_frames asks act (I := fun q source => q = [] ∧ source.length ≤ 1 ∨ source = [])
      (fun q piece source hI => ?_) (fun q source f hI hframe => ?_)
      (fun q source f hI hframe => ?_) s (.inl ⟨rfl, Nat.le_refl _⟩) frame_nil (Nat.le_refl _)
    · obtain ⟨-, hlength⟩ := hI.resolve_right (List.cons_ne_nil piece source)
      rw [List.length_cons] at hlength
      exact .inr (List.eq_nil_of_length_eq_zero (by omega))
    · rcases hI with ⟨rfl, -⟩ | rfl
      · exact absurd (frame_nil.symm.trans hframe) nofun
      · rwa [List.flatten_nil, List.append_nil]
    · rcases hI with ⟨rfl, -⟩ | rfl
      · exact absurd (frame_nil.symm.trans hframe) nofun
      · exact .inr rfl
  rwa [List.nil_append, List.flatten_cons, List.flatten_nil, List.append_nil] at hspec

/-! ## Cuts -/

/-- **What holds at the cuts** between pieces: of what has come before a cut, and what comes
after it. -/
def Cuts (P : List α → List α → Prop) : List α → List (List α) → Prop
  | _, [] => True
  | before, piece :: source => P before (piece ++ source.flatten) ∧ Cuts P (before ++ piece) source

variable {P : List α → List α → Prop}

theorem Cuts.and {Q : List α → List α → Prop} {source : List (List α)} (hP : Cuts P q source)
    (hQ : Cuts Q q source) : Cuts (fun before after => P before after ∧ Q before after) q source := by
  induction source generalizing q with
  | nil => trivial
  | cons piece source ih => exact ⟨⟨hP.1, hQ.1⟩, ih hP.2 hQ.2⟩

theorem Cuts.here (hend : ∀ q, P q []) {source : List (List α)} (h : Cuts P q source) :
    P q source.flatten := by
  cases source with
  | nil => exact hend q
  | cons piece source => exact h.1

theorem Cuts.behind
    (hbehind : ∀ f q r, M.frame (M.bytes f ++ q ++ r) = some f → P (M.bytes f ++ q) r → P q r)
    {source : List (List α)} (hframe : M.frame (M.bytes f ++ q ++ source.flatten) = some f)
    (h : Cuts P (M.bytes f ++ q) source) : Cuts P q source := by
  induction source generalizing q with
  | nil => trivial
  | cons piece source ih =>
    rw [List.flatten_cons] at hframe
    refine ⟨hbehind f q _ hframe h.1, ih ?_ ?_⟩
    · rw [← List.append_assoc] at hframe
      rwa [← List.append_assoc (M.bytes f)]
    · have hrest := h.2
      rwa [List.append_assoc] at hrest

/-- **The pieces do not matter** where frames are stable at every cut. -/
theorem polls_eq_of_cuts (hend : ∀ q, P q [])
    (hstable : ∀ q r f, P q r → M.frame q = some f → M.frame (q ++ r) = some f)
    (hbehind : ∀ f q r, M.frame (M.bytes f ++ q ++ r) = some f → P (M.bytes f ++ q) r → P q r)
    (s : σ) {pieces : List (List α)} (hcuts : Cuts P [] pieces) :
    M.polls asks act pieces.length s [] pieces = M.polls asks act 1 s [] [pieces.flatten] := by
  have hsteady (q : List α) (source : List (List α)) (f : F) (h : Cuts P q source) :
      M.frame q = some f → M.frame (q ++ source.flatten) = some f :=
    hstable q source.flatten f (h.here hend)
  have hnext (q : List α) (source : List (List α)) (f : F) (h : Cuts P q source)
      (hframe : M.frame q = some f) : Cuts P (M.behind q f) source := by
    have hq := bytes_append_behind hframe
    have hwhole := hsteady q source f h hframe
    rw [← hq] at h hwhole
    exact h.behind hbehind hwhole
  obtain ⟨fs, left, hframes, hpolls⟩ := polls_frames (M := M) asks act (fun _ _ _ h => h.2) hsteady
    hnext s hcuts frame_nil (Nat.le_refl _)
  obtain ⟨fs', left', hframes', hwhole⟩ := polls_singleton (M := M) asks act s pieces.flatten
  obtain ⟨rfl, rfl⟩ := hframes.unique hframes'
  exact hpolls.trans hwhole.symm

end Framing
