import LinApple.Debugger.RunControl
import Mathlib.Order.Lattice.Nat

/-!
# Where the stepping stops

Neither the stop address nor the table of breakpoints is looked at while the
debugger steps: without a range to skip, the steps of a `G` never run out, and
with one they run out after the first instruction outside the range. Stepping
over a subroutine executes 65535 instructions, wherever it returns in between.

A call executes one instruction or holds it back for the next call, so two
calls get on by one instruction at least. What a call leaves is read off once
for both (`debugContinueStepping_cases`), and every run is followed from there.
-/

namespace LinApple.Debugger

open Cpu (CpuRegisters CpuInstance Bus)

namespace Session

variable {W : Type*} {bus : Bus W} {cmos : Bool} {code : W → CodeMemory}

/-! ## One call -/

section Fields

variable (s : Session W)

@[simp] theorem skip_cpu : s.skip.cpu = s.cpu := by
  unfold skip
  split <;> rfl

@[simp] theorem skip_executed : s.skip.executed = s.executed := by
  unfold skip
  split <;> rfl

@[simp] theorem skip_force :
    s.skip.ctl.forceSingleStepNext = s.ctl.forceSingleStepNext := by
  unfold skip
  split <;> rfl

@[simp] theorem skip_skipStart : s.skip.ctl.debugSkipStart = s.ctl.debugSkipStart := by
  unfold skip
  split <;> rfl

@[simp] theorem skip_skipLen : s.skip.ctl.debugSkipLen = s.ctl.debugSkipLen := by
  unfold skip
  split <;> rfl

theorem skip_of_nonpos (h : s.ctl.debugSkipLen ≤ 0) : s.skip = s :=
  if_neg (by omega)

theorem skip_steps_of_pos (h : 0 < s.ctl.debugSkipLen) :
    s.skip.ctl.debugSteps = if isSkipped s.ctl s.cpu then -1 else 1 := by
  rw [skip, if_pos h]

theorem skip_mode_of_pos (h : 0 < s.ctl.debugSkipLen) : s.skip.ctl.mode = .stepping := by
  rw [skip, if_pos h]

@[simp] theorem finish_cpu : s.finish.cpu = s.cpu := by
  unfold finish
  split <;> rfl

@[simp] theorem finish_executed : s.finish.executed = s.executed := by
  unfold finish
  split <;> rfl

@[simp] theorem finish_steps : s.finish.ctl.debugSteps = s.ctl.debugSteps := by
  unfold finish
  split <;> rfl

@[simp] theorem finish_force :
    s.finish.ctl.forceSingleStepNext = s.ctl.forceSingleStepNext := by
  unfold finish
  split <;> rfl

@[simp] theorem finish_skipStart : s.finish.ctl.debugSkipStart = s.ctl.debugSkipStart := by
  unfold finish
  split <;> rfl

@[simp] theorem finish_skipLen : s.finish.ctl.debugSkipLen = s.ctl.debugSkipLen := by
  unfold finish
  split <;> rfl

end Fields

/-- The range to skip is the same. -/
structure SameRange (s t : Session W) : Prop where
  skipStart : t.ctl.debugSkipStart = s.ctl.debugSkipStart
  skipLen : t.ctl.debugSkipLen = s.ctl.debugSkipLen

/-- **A call that holds an instruction back**, which the next one executes. -/
structure Held (s t : Session W) : Prop extends SameRange s t where
  wasFree : s.ctl.forceSingleStepNext = false
  force : t.ctl.forceSingleStepNext = true
  cpu : t.cpu = s.cpu
  executed : t.executed = s.executed
  steps : t.ctl.debugSteps = s.skip.ctl.debugSteps
  mode : t.ctl.mode = s.skip.ctl.mode

/-- **A call that executes an instruction**, and ends the stepping when the
steps have run out. -/
structure Executed (bus : Bus W) (cmos : Bool) (s t : Session W) : Prop
    extends SameRange s t where
  force : t.ctl.forceSingleStepNext = false
  cpu : t.cpu = cpuStep bus cmos s.cpu
  executed : t.executed = s.executed + 1
  steps : t.ctl.debugSteps
    = if 0 < s.skip.ctl.debugSteps then s.skip.ctl.debugSteps - 1 else s.skip.ctl.debugSteps
  mode : t.ctl.mode
    = if t.ctl.debugSteps = 0 then .debug
      else if s.skip.ctl.mode = .debug then .stepping else s.skip.ctl.mode

/-- Whether an instruction is held back. -/
def heldBack (bus : Bus W) (code : W → CodeMemory) (s : Session W) : Prop :=
  s.ctl.forceSingleStepNext = false ∧ s.hit bus code ≠ 0

instance (s : Session W) : Decidable (heldBack bus code s) :=
  inferInstanceAs (Decidable (_ ∧ _))

@[simp] theorem skip_hit (s : Session W) : s.skip.hit bus code = s.hit bus code := by
  unfold skip
  split <;> rfl

/-- What a call does that holds an instruction back. -/
theorem held_of_heldBack (cmos : Bool) {s : Session W} (h : s.skip.ctl.debugSteps ≠ 0)
    (hhold : heldBack bus code s) : Held s (debugContinueStepping bus cmos code s) := by
  have hfree : (!s.skip.ctl.forceSingleStepNext) = true := by
    rw [skip_force, hhold.1]
    rfl
  unfold debugContinueStepping
  dsimp only
  rw [if_pos (.inl h), if_pos ⟨hfree, by simpa using hhold.2⟩]
  have hheld : finish (s.skip.holdBack bus code) = s.skip.holdBack bus code :=
    if_neg fun hno => Bool.false_ne_true hno.2
  rw [hheld]
  exact
    { skipStart := skip_skipStart s
      skipLen := skip_skipLen s
      wasFree := hhold.1
      force := rfl
      cpu := skip_cpu s
      executed := skip_executed s
      steps := rfl
      mode := rfl }

/-- What a call does that holds no instruction back. -/
theorem executed_of_not_heldBack (cmos : Bool) {s : Session W} (h : s.skip.ctl.debugSteps ≠ 0)
    (hhold : ¬ heldBack bus code s) :
    Executed bus cmos s (debugContinueStepping bus cmos code s) := by
  unfold debugContinueStepping
  dsimp only
  rw [if_pos (.inl h), if_neg fun hno => hhold ⟨by simpa using hno.1, by simpa using hno.2⟩]
  refine
    { skipStart := (finish_skipStart _).trans (skip_skipStart s)
      skipLen := (finish_skipLen _).trans (skip_skipLen s)
      force := finish_force _
      cpu := (finish_cpu _).trans (congrArg (cpuStep bus cmos) (skip_cpu s))
      executed := (finish_executed _).trans (congrArg (· + 1) (skip_executed s))
      steps := finish_steps _
      mode := ?_ }
  rw [finish_steps]
  unfold finish
  by_cases hzero : (s.skip.singleStep bus cmos).ctl.debugSteps = 0
  · rw [if_pos ⟨hzero, rfl⟩, if_pos hzero]
  · rw [if_neg fun hno => hzero hno.1, if_neg hzero]
    rfl

/-- **What a call does while there are steps left.** -/
theorem debugContinueStepping_cases (bus : Bus W) (cmos : Bool) (code : W → CodeMemory)
    (s : Session W) (h : s.skip.ctl.debugSteps ≠ 0) :
    Held s (debugContinueStepping bus cmos code s)
      ∨ Executed bus cmos s (debugContinueStepping bus cmos code s) := by
  by_cases hhold : heldBack bus code s
  · exact .inl (held_of_heldBack cmos h hhold)
  · exact .inr (executed_of_not_heldBack cmos h hhold)

/-- The processor after a number of instructions. -/
def after (bus : Bus W) (cmos : Bool) (n : Nat) (p : CpuInstance W) : CpuInstance W :=
  (cpuStep bus cmos)^[n] p

theorem after_succ (n : Nat) (p : CpuInstance W) :
    after bus cmos (n + 1) p = cpuStep bus cmos (after bus cmos n p) :=
  Function.iterate_succ_apply' _ _ _

theorem after_succ' (n : Nat) (p : CpuInstance W) :
    after bus cmos (n + 1) p = after bus cmos n (cpuStep bus cmos p) :=
  Function.iterate_succ_apply _ _ _

theorem calls_succ (s : Session W) (n : Nat) :
    s.calls bus cmos code (n + 1) = debugContinueStepping bus cmos code (s.calls bus cmos code n) :=
  Function.iterate_succ_apply' _ _ _

theorem calls_succ' (s : Session W) (n : Nat) :
    s.calls bus cmos code (n + 1) = (debugContinueStepping bus cmos code s).calls bus cmos code n :=
  Function.iterate_succ_apply _ _ _

/-! ## Without a range to skip -/

/-- **A run that does not end**: there is no range to skip, and no end to the
steps. -/
structure Endless (s : Session W) : Prop where
  steps : s.ctl.debugSteps = -1
  skipLen : s.ctl.debugSkipLen ≤ 0
  mode : s.ctl.mode = .stepping

theorem Endless.next {s : Session W} (h : s.Endless) :
    (debugContinueStepping bus cmos code s).Endless := by
  have hskip := skip_of_nonpos s h.skipLen
  have hsteps : s.skip.ctl.debugSteps = -1 := by rw [hskip, h.steps]
  have hmode : s.skip.ctl.mode = .stepping := by rw [hskip, h.mode]
  rcases debugContinueStepping_cases bus cmos code s
    (by rw [hsteps]; decide) with hheld | hdone
  · exact ⟨hheld.steps.trans hsteps, hheld.skipLen.trans_le h.skipLen,
      hheld.mode.trans hmode⟩
  · have hminus := hdone.steps
    rw [hsteps, if_neg (by decide)] at hminus
    refine ⟨hminus, hdone.skipLen.trans_le h.skipLen, ?_⟩
    rw [hdone.mode, hminus, hmode]
    rfl

theorem Endless.calls {s : Session W} (h : s.Endless) (n : Nat) :
    (s.calls bus cmos code n).Endless := by
  induction n with
  | zero => exact h
  | succ n ih =>
    rw [calls_succ]
    exact ih.next

/-! ## Calls while there are steps left -/

/-- **One session leads to another** by calls none of which is made with no
steps left. -/
inductive Steps (bus : Bus W) (cmos : Bool) (code : W → CodeMemory) :
    Session W → Session W → Prop where
  | refl (s : Session W) : Steps bus cmos code s s
  | step {s t : Session W} (hsteps : s.ctl.debugSteps ≠ 0)
    (ht : Steps bus cmos code (debugContinueStepping bus cmos code s) t) :
    Steps bus cmos code s t

theorem Steps.trans {s t u : Session W} (h : Steps bus cmos code s t)
    (hu : Steps bus cmos code t u) : Steps bus cmos code s u := by
  induction h with
  | refl s => exact hu
  | step hsteps _ ih => exact .step hsteps (ih hu)

theorem Steps.exists_calls {s t : Session W} (h : Steps bus cmos code s t) :
    ∃ k, s.calls bus cmos code k = t ∧
      ∀ j < k, (s.calls bus cmos code j).ctl.debugSteps ≠ 0 := by
  induction h with
  | refl s => exact ⟨0, rfl, fun j hj => absurd hj (Nat.not_lt_zero j)⟩
  | step hsteps _ ih =>
    obtain ⟨k, hk, hlt⟩ := ih
    refine ⟨k + 1, (calls_succ' _ k).trans hk, fun j hj => ?_⟩
    cases j with
    | zero => exact hsteps
    | succ j =>
      rw [calls_succ']
      exact hlt j (Nat.lt_of_succ_lt_succ hj)

/-- The loop ends where the steps have run out. -/
theorem Steps.exists_loop {s t : Session W} (h : Steps bus cmos code s t)
    (ht : t.ctl.debugSteps = 0) : ∃ fuel, stepLoop bus cmos code fuel s = some t := by
  induction h with
  | refl s => exact ⟨1, if_pos ht⟩
  | step hsteps _ ih =>
    obtain ⟨fuel, hfuel⟩ := ih ht
    exact ⟨fuel + 1, (if_neg hsteps).trans hfuel⟩

/-- Where the loop ends the steps have run out. -/
theorem steps_of_loop {fuel : Nat} {s t : Session W}
    (h : stepLoop bus cmos code fuel s = some t) :
    Steps bus cmos code s t ∧ t.ctl.debugSteps = 0 := by
  induction fuel generalizing s with
  | zero => cases h
  | succ fuel ih =>
    unfold stepLoop at h
    by_cases hzero : s.ctl.debugSteps = 0
    · rw [if_pos hzero, Option.some_inj] at h
      subst h
      exact ⟨.refl s, hzero⟩
    · rw [if_neg hzero] at h
      exact ⟨.step hzero (ih h).1, (ih h).2⟩

/-- There is one session the steps run out in. -/
theorem Steps.unique {s t u : Session W} (h : Steps bus cmos code s t)
    (ht : t.ctl.debugSteps = 0) (hu : Steps bus cmos code s u) (hu0 : u.ctl.debugSteps = 0) :
    t = u := by
  induction h with
  | refl s =>
    cases hu with
    | refl => rfl
    | step hsteps _ => exact absurd ht hsteps
  | step hsteps _ ih =>
    cases hu with
    | refl => exact absurd hu0 hsteps
    | step _ hnext => exact ih ht hnext

theorem SameRange.isSkipped {s t : Session W} (h : SameRange s t) (p : CpuInstance W) :
    isSkipped t.ctl p ↔ isSkipped s.ctl p := by
  unfold Session.isSkipped
  rw [h.skipStart, h.skipLen]

/-- What the call after an instruction was held back begins with. -/
theorem Held.skip_same {s t : Session W} (h : Held s t) :
    t.skip.ctl.debugSteps = s.skip.ctl.debugSteps
      ∧ t.skip.ctl.mode = s.skip.ctl.mode := by
  by_cases hpos : 0 < s.ctl.debugSkipLen
  · have htpos : 0 < t.ctl.debugSkipLen := h.skipLen.symm ▸ hpos
    rw [skip_steps_of_pos s hpos, skip_steps_of_pos t htpos, skip_mode_of_pos s hpos,
      skip_mode_of_pos t htpos, h.cpu]
    simp only [h.toSameRange.isSkipped, and_self]
  · rw [skip_of_nonpos t (h.skipLen.trans_le (not_lt.1 hpos))]
    exact ⟨h.steps, h.mode⟩

theorem skip_steps_ne_zero {s : Session W} (h : s.ctl.debugSteps ≠ 0) :
    s.skip.ctl.debugSteps ≠ 0 := by
  by_cases hpos : 0 < s.ctl.debugSkipLen
  · rw [skip_steps_of_pos s hpos]
    split <;> decide
  · rwa [skip_of_nonpos s (not_lt.1 hpos)]

/-- **Two calls execute an instruction at least.** -/
theorem exists_executed (bus : Bus W) (cmos : Bool) (code : W → CodeMemory)
    {s : Session W} (hsteps : s.ctl.debugSteps ≠ 0) :
    ∃ t, Executed bus cmos s t ∧ Steps bus cmos code s t := by
  have hskip := skip_steps_ne_zero hsteps
  rcases debugContinueStepping_cases bus cmos code s hskip
    with hfirst | hdone
  · obtain ⟨hsteps', hmode'⟩ := hfirst.skip_same
    have hleft := hfirst.steps.trans_ne hskip
    rcases debugContinueStepping_cases bus cmos code
      (debugContinueStepping bus cmos code s) (hsteps'.trans_ne hskip) with hno | hdone
    · exact absurd (hno.wasFree.symm.trans hfirst.force) Bool.false_ne_true
    · refine ⟨_, ?_, .step hsteps (.step hleft (.refl _))⟩
      exact
        { skipStart := hdone.skipStart.trans hfirst.skipStart
          skipLen := hdone.skipLen.trans hfirst.skipLen
          force := hdone.force
          cpu := hdone.cpu.trans (congrArg (cpuStep bus cmos) hfirst.cpu)
          executed := hdone.executed.trans (congrArg (· + 1) hfirst.executed)
          steps := by rw [hdone.steps, hsteps']
          mode := by rw [hdone.mode, hmode'] }
  · exact ⟨_, hdone, .step hsteps (.refl _)⟩

/-! ## Where a run ends -/

/-- **The calls end after a number of instructions**: the debugger is entered
then, and not before. -/
def EndsAt (bus : Bus W) (cmos : Bool) (code : W → CodeMemory) (s : Session W) (n : Nat) :
    Prop :=
  ∃ k, (s.calls bus cmos code k).ctl.mode = .debug
    ∧ (∀ j < k, (s.calls bus cmos code j).ctl.mode = .stepping)
    ∧ (s.calls bus cmos code k).cpu = after bus cmos n s.cpu
    ∧ (s.calls bus cmos code k).executed = s.executed + n

/-- The calls do not end. -/
def GoesOn (bus : Bus W) (cmos : Bool) (code : W → CodeMemory) (s : Session W) : Prop :=
  ∀ k, (s.calls bus cmos code k).ctl.mode = .stepping

/-- **The calls end after the least of some numbers of instructions**, and
where there is none they go on. -/
structure EndsAtLeast (bus : Bus W) (cmos : Bool) (code : W → CodeMemory) (s : Session W)
    (ends : Set Nat) : Prop where
  endsAt : ∀ n, IsLeast ends n → EndsAt bus cmos code s n
  goesOn : ends = ∅ → GoesOn bus cmos code s

theorem EndsAt.unique {s : Session W} {m n : Nat} (hm : EndsAt bus cmos code s m)
    (hn : EndsAt bus cmos code s n) : m = n := by
  obtain ⟨k, hk, hkbefore, -, hkexecuted⟩ := hm
  obtain ⟨l, hl, hlbefore, -, hlexecuted⟩ := hn
  have hkl : k = l := by
    rcases Nat.lt_trichotomy k l with hlt | heq | hgt
    · exact absurd (hk.symm.trans (hlbefore k hlt)) (by decide)
    · exact heq
    · exact absurd (hl.symm.trans (hkbefore l hgt)) (by decide)
  subst hkl
  exact Nat.add_left_cancel (hkexecuted.symm.trans hlexecuted)

theorem EndsAt.not_goesOn {s : Session W} {n : Nat} (h : EndsAt bus cmos code s n) :
    ¬ GoesOn bus cmos code s := fun hgo => by
  obtain ⟨k, hk, -⟩ := h
  exact absurd (hk.symm.trans (hgo k)) (by decide)

/-- A set of numbers that is not empty has a least one. -/
theorem exists_isLeast {ends : Set Nat} (h : ends ≠ ∅) : ∃ n, IsLeast ends n :=
  let hne := Set.nonempty_iff_ne_empty.2 h
  ⟨sInf ends, Nat.sInf_mem hne, fun _ => Nat.sInf_le⟩

/-- Where the calls end after one of the numbers, it is the least. -/
theorem EndsAtLeast.isLeast {s : Session W} {ends : Set Nat} {n : Nat}
    (h : EndsAtLeast bus cmos code s ends) (hn : EndsAt bus cmos code s n) :
    IsLeast ends n := by
  by_cases hempty : ends = ∅
  · exact absurd (h.goesOn hempty) hn.not_goesOn
  · obtain ⟨m, hm⟩ := exists_isLeast hempty
    rw [hn.unique (h.endsAt m hm)]
    exact hm

/-- **Two sets of numbers the calls end after the least of** have the same
least one, or none. -/
theorem EndsAtLeast.iff {s : Session W} {ends : Set Nat}
    (h : EndsAtLeast bus cmos code s ends) (stops : Set Nat) :
    EndsAtLeast bus cmos code s stops ↔ ∀ n, IsLeast stops n ↔ IsLeast ends n := by
  constructor
  · exact fun hstops n => ⟨fun hn => h.isLeast (hstops.endsAt n hn),
      fun hn => hstops.isLeast (h.endsAt n hn)⟩
  · refine fun hsame => ⟨fun n hn => h.endsAt n ((hsame n).1 hn), fun hempty => ?_⟩
    refine h.goesOn (by_contra fun hne => ?_)
    obtain ⟨n, hn⟩ := exists_isLeast hne
    have hmem := ((hsame n).2 hn).1
    rw [hempty] at hmem
    exact hmem

/-! ## With a range to skip -/

/-- The numbers of instructions after which the last one executed was outside
the range to skip. -/
def outside (bus : Bus W) (cmos : Bool) (s : Session W) : Set Nat :=
  {n | 1 ≤ n ∧ 0 < s.ctl.debugSkipLen ∧ ¬ isSkipped s.ctl (after bus cmos (n - 1) s.cpu)}

/-- **A session that has executed instructions in the range only.** -/
structure Skipped (bus : Bus W) (cmos : Bool) (s : Session W) (e : Nat) (t : Session W) :
    Prop extends SameRange s t where
  cpu : t.cpu = after bus cmos e s.cpu
  executed : t.executed = s.executed + e
  inRange : ∀ m < e, isSkipped s.ctl (after bus cmos m s.cpu)
  steps : t.ctl.debugSteps ≠ 0

/-- The next instruction of a session that skips. -/
theorem Executed.after_skipped {s t u : Session W} {e : Nat} (ht : Skipped bus cmos s e t)
    (hu : Executed bus cmos t u) :
    SameRange s u ∧ u.cpu = after bus cmos (e + 1) s.cpu
      ∧ u.executed = s.executed + (e + 1) := by
  refine ⟨⟨hu.skipStart.trans ht.skipStart, hu.skipLen.trans ht.skipLen⟩, ?_, ?_⟩
  · rw [hu.cpu, ht.cpu, after_succ]
  · rw [hu.executed, ht.executed, Nat.add_assoc]

/-- **Inside the range** the steps do not run out. -/
theorem Executed.skipped {s t u : Session W} {e : Nat} (hlen : 0 < s.ctl.debugSkipLen)
    (ht : Skipped bus cmos s e t) (hu : Executed bus cmos t u)
    (hin : isSkipped s.ctl (after bus cmos e s.cpu)) : Skipped bus cmos s (e + 1) u := by
  obtain ⟨hrange, hcpu, hexecuted⟩ := hu.after_skipped ht
  refine ⟨hrange, hcpu, hexecuted, fun m hm => ?_, ?_⟩
  · rcases Nat.lt_succ_iff_lt_or_eq.1 hm with hlt | rfl
    · exact ht.inRange m hlt
    · exact hin
  · have hpos : 0 < t.ctl.debugSkipLen := ht.skipLen.symm ▸ hlen
    have htin : isSkipped t.ctl t.cpu := by
      rw [ht.toSameRange.isSkipped, ht.cpu]
      exact hin
    rw [hu.steps, skip_steps_of_pos t hpos, if_pos htin]
    decide

/-- **Outside the range** the steps run out. -/
theorem Executed.steps_of_not_skipped {s t u : Session W} {e : Nat}
    (hlen : 0 < s.ctl.debugSkipLen) (ht : Skipped bus cmos s e t)
    (hu : Executed bus cmos t u) (hout : ¬ isSkipped s.ctl (after bus cmos e s.cpu)) :
    u.ctl.debugSteps = 0 := by
  have hpos : 0 < t.ctl.debugSkipLen := ht.skipLen.symm ▸ hlen
  have htout : ¬ isSkipped t.ctl t.cpu := by
    rw [ht.toSameRange.isSkipped, ht.cpu]
    exact hout
  rw [hu.steps, skip_steps_of_pos t hpos, if_neg htout]
  rfl

/-- **The instructions in the range are executed one after the other.** -/
theorem exists_skipped (code : W → CodeMemory) {s : Session W} (hlen : 0 < s.ctl.debugSkipLen)
    (hsteps : s.ctl.debugSteps ≠ 0) (e : Nat)
    (hin : ∀ m < e, isSkipped s.ctl (after bus cmos m s.cpu)) :
    ∃ t, Skipped bus cmos s e t ∧ Steps bus cmos code s t := by
  induction e with
  | zero => exact ⟨s, ⟨⟨rfl, rfl⟩, rfl, rfl, hin, hsteps⟩, .refl s⟩
  | succ e ih =>
    obtain ⟨t, ht, hst⟩ := ih fun m hm => hin m (Nat.lt_succ_of_lt hm)
    obtain ⟨u, hu, htu⟩ := exists_executed bus cmos code ht.steps
    exact ⟨u, hu.skipped hlen ht (hin e (Nat.lt_succ_self e)), hst.trans htu⟩

/-- **The steps run out after the first instruction outside the range.** -/
theorem exists_outside (code : W → CodeMemory) {s : Session W}
    (hsteps : s.ctl.debugSteps ≠ 0) {n : Nat} (hn : IsLeast (outside bus cmos s) n) :
    ∃ t, Steps bus cmos code s t ∧ t.ctl.debugSteps = 0 ∧ t.ctl.mode = .debug
      ∧ t.cpu = after bus cmos n s.cpu ∧ t.executed = s.executed + n := by
  obtain ⟨⟨hone, hlen, hout⟩, hleast⟩ := hn
  obtain ⟨e, rfl⟩ := Nat.exists_eq_add_of_le' hone
  have hin : ∀ m < e, isSkipped s.ctl (after bus cmos m s.cpu) := fun m hm =>
    by_contra fun hno => by
      have hle : e + 1 ≤ m + 1 := hleast ⟨Nat.le_add_left 1 m, hlen, hno⟩
      omega
  obtain ⟨t, ht, hst⟩ := exists_skipped code hlen hsteps e hin
  obtain ⟨u, hu, htu⟩ := exists_executed bus cmos code ht.steps
  have hzero : u.ctl.debugSteps = 0 := hu.steps_of_not_skipped hlen ht hout
  obtain ⟨-, hcpu, hexecuted⟩ := hu.after_skipped ht
  exact ⟨u, hst.trans htu, hzero, by rw [hu.mode, if_pos hzero], hcpu, hexecuted⟩

/-- While every instruction is in the range, every call leaves the session
skipping. -/
theorem Skipped.next (code : W → CodeMemory) {s t : Session W}
    (hlen : 0 < s.ctl.debugSkipLen)
    (hall : ∀ m, isSkipped s.ctl (after bus cmos m s.cpu)) {e : Nat}
    (ht : Skipped bus cmos s e t) :
    ∃ e', Skipped bus cmos s e' (debugContinueStepping bus cmos code t) := by
  have hskip := skip_steps_ne_zero ht.steps
  rcases debugContinueStepping_cases bus cmos code t hskip with hheld | hdone
  · exact ⟨e, ⟨hheld.skipStart.trans ht.skipStart, hheld.skipLen.trans ht.skipLen⟩,
      hheld.cpu.trans ht.cpu, hheld.executed.trans ht.executed, ht.inRange,
      hheld.steps.trans_ne hskip⟩
  · exact ⟨e + 1, hdone.skipped hlen ht (hall e)⟩

/-- **A run that is in the range for good** has steps left after every call. -/
theorem steps_calls_of_isSkipped (code : W → CodeMemory) {s : Session W}
    (hlen : 0 < s.ctl.debugSkipLen) (hsteps : s.ctl.debugSteps ≠ 0)
    (hall : ∀ m, isSkipped s.ctl (after bus cmos m s.cpu)) (k : Nat) :
    (s.calls bus cmos code k).ctl.debugSteps ≠ 0 := by
  have hskipped : ∃ e, Skipped bus cmos s e (s.calls bus cmos code k) := by
    induction k with
    | zero => exact ⟨0, ⟨rfl, rfl⟩, rfl, rfl, fun m hm => absurd hm (Nat.not_lt_zero m), hsteps⟩
    | succ k ih =>
      obtain ⟨e, he⟩ := ih
      rw [calls_succ]
      exact he.next code hlen hall
  obtain ⟨e, he⟩ := hskipped
  exact he.steps

/-- Where no instruction is outside the range, every one is in it. -/
theorem isSkipped_of_outside {s : Session W} (hlen : 0 < s.ctl.debugSkipLen)
    (hempty : outside bus cmos s = ∅) (m : Nat) :
    isSkipped s.ctl (after bus cmos m s.cpu) := by_contra fun hno => by
  have hmem : m + 1 ∈ outside bus cmos s := ⟨Nat.le_add_left 1 m, hlen, hno⟩
  rw [hempty] at hmem
  exact hmem

/-! ## Going on -/

/-- While there are steps left the debugger is not entered. -/
theorem mode_next {s : Session W} (hsteps : s.ctl.debugSteps ≠ 0)
    (hmode : s.ctl.mode = .stepping)
    (hleft : (debugContinueStepping bus cmos code s).ctl.debugSteps ≠ 0) :
    (debugContinueStepping bus cmos code s).ctl.mode = .stepping := by
  have hskipMode : s.skip.ctl.mode = .stepping := by
    by_cases hpos : 0 < s.ctl.debugSkipLen
    · exact skip_mode_of_pos s hpos
    · rwa [skip_of_nonpos s (not_lt.1 hpos)]
  rcases debugContinueStepping_cases bus cmos code s (skip_steps_ne_zero hsteps)
    with hheld | hdone
  · exact hheld.mode.trans hskipMode
  · rw [hdone.mode, if_neg hleft, hskipMode]
    rfl

theorem mode_calls {s : Session W} (hmode : s.ctl.mode = .stepping) {k : Nat}
    (hsteps : ∀ j ≤ k, (s.calls bus cmos code j).ctl.debugSteps ≠ 0) :
    (s.calls bus cmos code k).ctl.mode = .stepping := by
  induction k with
  | zero => exact hmode
  | succ k ih =>
    have hbefore := hsteps k (Nat.le_succ k)
    have hleft := hsteps (k + 1) le_rfl
    rw [calls_succ] at hleft ⊢
    exact mode_next hbefore (ih fun j hj => hsteps j (Nat.le_succ_of_le hj)) hleft

/-- **What ends the stepping is the range to skip**, if there is one, and
nothing else. -/
theorem endsAtLeast_outside (bus : Bus W) (cmos : Bool) (code : W → CodeMemory)
    {s : Session W} (hsteps : s.ctl.debugSteps = -1)
    (hmode : s.ctl.mode = .stepping) :
    EndsAtLeast bus cmos code s (outside bus cmos s) := by
  have hleft : s.ctl.debugSteps ≠ 0 := by
    rw [hsteps]
    decide
  refine ⟨fun n hn => ?_, fun hempty => ?_⟩
  · obtain ⟨t, hst, -, htmode, hcpu, hexecuted⟩ := exists_outside code hleft hn
    obtain ⟨k, rfl, hbefore⟩ := hst.exists_calls
    exact ⟨k, htmode, fun j hj => mode_calls hmode fun i hi => hbefore i (hi.trans_lt hj),
      hcpu, hexecuted⟩
  · by_cases hpos : 0 < s.ctl.debugSkipLen
    · exact fun k => mode_calls hmode fun j _ =>
        steps_calls_of_isSkipped code hpos hleft (isSkipped_of_outside hpos hempty) j
    · exact fun k => (Endless.calls ⟨hsteps, not_lt.1 hpos, hmode⟩ k).mode

/-- Without a range to skip, the steps count the instructions. -/
theorem exists_counted (bus : Bus W) (cmos : Bool) (code : W → CodeMemory) (n : Nat)
    {s : Session W} (hlen : s.ctl.debugSkipLen ≤ 0) (hsteps : s.ctl.debugSteps = n) :
    ∃ t, Steps bus cmos code s t ∧ t.ctl.debugSteps = 0 ∧ t.cpu = after bus cmos n s.cpu := by
  induction n generalizing s with
  | zero => exact ⟨s, .refl s, hsteps, rfl⟩
  | succ n ih =>
    have hleft : s.ctl.debugSteps ≠ 0 := by omega
    obtain ⟨t, ht, hst⟩ := exists_executed bus cmos code hleft
    have hcount : t.ctl.debugSteps = n := by
      rw [ht.steps, skip_of_nonpos s hlen, hsteps, if_pos (by omega)]
      omega
    obtain ⟨u, htu, hzero, hcpu⟩ := ih (ht.skipLen.trans_le hlen) hcount
    refine ⟨u, hst.trans htu, hzero, ?_⟩
    rw [hcpu, ht.cpu, after_succ']

/-- **How many instructions the loop of `CmdStepOver` executes**: up to the
first one outside the range to skip, and without one as many as it may. -/
def LoopEnds (bus : Bus W) (cmos : Bool) (s : Session W) (n : Nat) : Prop :=
  if 0 < s.ctl.debugSkipLen then IsLeast (outside bus cmos s) n else n = 0xFFFF

theorem LoopEnds.exists_steps (code : W → CodeMemory) {s : Session W} {n : Nat}
    (hsteps : s.ctl.debugSteps = 0xFFFF) (h : LoopEnds bus cmos s n) :
    ∃ t, Steps bus cmos code s t ∧ t.ctl.debugSteps = 0 ∧ t.cpu = after bus cmos n s.cpu := by
  unfold LoopEnds at h
  split at h
  · obtain ⟨t, hst, hzero, -, hcpu, -⟩ := exists_outside code (by rw [hsteps]; decide) h
    exact ⟨t, hst, hzero, hcpu⟩
  · subst h
    exact exists_counted bus cmos code _ (by omega) hsteps

/-- A loop that ends has executed a number of instructions. -/
theorem exists_loopEnds {s t : Session W} (hsteps : s.ctl.debugSteps = 0xFFFF)
    (hst : Steps bus cmos code s t) (hzero : t.ctl.debugSteps = 0) :
    ∃ n, LoopEnds bus cmos s n := by
  by_cases hpos : 0 < s.ctl.debugSkipLen
  · simp only [LoopEnds, if_pos hpos]
    refine exists_isLeast fun hempty => ?_
    obtain ⟨k, rfl, -⟩ := hst.exists_calls
    exact steps_calls_of_isSkipped code hpos (by rw [hsteps]; decide)
      (isSkipped_of_outside hpos hempty) k hzero
  · exact ⟨0xFFFF, by rw [LoopEnds, if_neg hpos]⟩

/-- **What the loop leaves**, where it ends. -/
theorem exists_stepLoop_iff (code : W → CodeMemory) {s : Session W}
    (hsteps : s.ctl.debugSteps = 0xFFFF) (P : CpuInstance W → Prop) :
    (∃ fuel t, stepLoop bus cmos code fuel s = some t ∧ P t.cpu)
      ↔ ∃ n, LoopEnds bus cmos s n ∧ P (after bus cmos n s.cpu) := by
  constructor
  · rintro ⟨fuel, t, hloop, hP⟩
    obtain ⟨hst, hzero⟩ := steps_of_loop hloop
    obtain ⟨n, hn⟩ := exists_loopEnds hsteps hst hzero
    obtain ⟨u, hsu, huzero, hcpu⟩ := hn.exists_steps code hsteps
    rw [hst.unique hzero hsu huzero, hcpu] at hP
    exact ⟨n, hn, hP⟩
  · rintro ⟨n, hn, hP⟩
    obtain ⟨t, hst, hzero, hcpu⟩ := hn.exists_steps code hsteps
    obtain ⟨fuel, hfuel⟩ := hst.exists_loop hzero
    exact ⟨fuel, t, hfuel, hcpu.symm ▸ hP⟩

end Session

end LinApple.Debugger
