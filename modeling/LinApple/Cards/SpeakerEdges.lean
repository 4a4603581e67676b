import LinApple.Cards.Speaker
import Mathlib.Data.List.Induction
import Mathlib.Data.Rat.Floor

/-!
# Speaker edges land on their cycle

Between two calls the queue holds the strobes since the last (`SpeakerRun.Following`), so the
level of a sample is what the flip-flop was after all strobes up to its cycle
(`synthesizeSamples_spec`). The state of the synthesizer after a call is that of the last event in
the queue, which every strobe sets, also in a full queue (`Speaker.Settled`).

Beside the card a run keeps every strobe there has been, with its cycle, and every sample that was
put out, with the cycle it stands for and the level it was drawn from. Nothing in the program has
these lists. They are what the statement needs: the level of a sample is the parity of the strobes
up to its cycle, however many calls ago they were (`flipFlop`).

There are three results, and they ask for different things. The first, that every sample has its
level and that no cycle is sampled twice, needs calls that are `Within` the bounds of the program:
a call of more cycles than there is room for in the buffer has to drop some, more strobes than the
queue holds cannot all be kept, and cycles are counted in doubles, which count one by one up to
2^53. The second is that a call samples every cycle since the last one, unless the speaker is at
rest, when it puts out none. The third is that the synthesizer and the flip-flop agree after a
call that hands over a cycle, and it needs no bounds at all.

What "at rest" means is the filter's own business. The filter is a parameter, with its state and a
test of its own, and nothing is assumed of either. A call that hands over no cycle returns at
once, which is an explicit guard; strobes may still be queued after it, and `not_edges_land` has
one.
-/

namespace LinApple.Cards

/-! ## Edges -/

/-- The edges of strobes, from a state. -/
def toggles : Bool → List Nat → List SpeakerEvent
  | _, [] => []
  | level, cycle :: cycles => ⟨cycle, !level⟩ :: toggles (!level) cycles

/-- The state after the strobes up to a cycle. -/
def levelAt (level : Bool) (cycles : List Nat) (cycle : Nat) : Bool :=
  xor level (flipFlop cycles cycle)

variable {level : Bool} {cycles : List Nat}

theorem length_toggles : (toggles level cycles).length = cycles.length := by
  induction cycles generalizing level with
  | nil => rfl
  | cons c cycles ih => rw [toggles, List.length_cons, List.length_cons, ih]

theorem toggles_concat (c : Nat) : toggles level (cycles ++ [c])
    = toggles level cycles ++ [⟨c, !(xor level cycles.length.bodd)⟩] := by
  induction cycles generalizing level with
  | nil => simp [toggles]
  | cons d cycles ih =>
    rw [List.cons_append, toggles, toggles, ih, List.length_cons, Nat.bodd_succ]
    simp

/-- The last edge leaves the state after all strobes. -/
theorem getLast_toggles : ((toggles level cycles).getLast?.map (·.state)).getD level
    = xor level cycles.length.bodd := by
  cases cycles using List.reverseRecOn with
  | nil => simp [toggles]
  | append_singleton cycles c => simp [toggles_concat]

theorem flipFlop_append (strobes later : List Nat) (cycle : Nat) :
    flipFlop (strobes ++ later) cycle = xor (flipFlop strobes cycle) (flipFlop later cycle) := by
  simp [flipFlop, List.countP_append, Nat.bodd_add]

/-- All of the strobes count from the last of them on. -/
theorem flipFlop_of_le {strobes : List Nat} {cycle : Nat} (h : ∀ c ∈ strobes, c ≤ cycle) :
    flipFlop strobes cycle = strobes.length.bodd := by
  rw [flipFlop, List.countP_eq_length.2 (by simpa using h)]

/-- None counts before the first. -/
theorem flipFlop_of_lt {strobes : List Nat} {cycle : Nat} (h : ∀ c ∈ strobes, cycle < c) :
    flipFlop strobes cycle = false := by
  rw [flipFlop, List.countP_eq_zero.2 (by simpa using h)]
  rfl

theorem levelAt_cons (c cycle : Nat) (h : c ≤ cycle) :
    levelAt level (c :: cycles) cycle = levelAt (!level) cycles cycle := by
  simp [levelAt, flipFlop, h, Nat.bodd_succ]

namespace Speaker

/-- **The edges up to the start of a sample are taken off the queue**, and the state follows
them. -/
theorem advance_toggles (start : Nat) (hsorted : cycles.Pairwise (· ≤ ·))
    (hexact : ∀ c ∈ cycles, c < 2 ^ 53) :
    ∃ later, later.Pairwise (· ≤ ·) ∧ (∀ c ∈ later, c < 2 ^ 53) ∧
      advance start level (toggles level cycles)
        = (levelAt level cycles start, toggles (levelAt level cycles start) later) ∧
      ∀ cycle, start ≤ cycle →
        levelAt (levelAt level cycles start) later cycle = levelAt level cycles cycle := by
  induction cycles generalizing level with
  | nil => exact ⟨[], .nil, hexact, by simp [toggles, advance, levelAt, flipFlop],
      by simp [levelAt, flipFlop]⟩
  | cons c cycles ih =>
    have hc : Doubles.ofNat c = c := Doubles.ofNat_of_lt (hexact c (List.mem_cons_self ..))
    by_cases hle : c ≤ start
    · obtain ⟨later, hlater, hlt, hadvance, hlevel⟩ := @ih (!level) (List.Pairwise.of_cons hsorted)
        (fun d hd => hexact d (List.mem_cons_of_mem _ hd))
      refine ⟨later, hlater, hlt, ?_, fun cycle hcycle => ?_⟩
      · rw [toggles, advance, hc, if_pos hle, hadvance, levelAt_cons _ _ hle]
      · rw [levelAt_cons _ _ hle, hlevel cycle hcycle, levelAt_cons _ _ (Nat.le_trans hle hcycle)]
    · have hnone : levelAt level (c :: cycles) start = level := by
        rw [levelAt, flipFlop_of_lt, Bool.xor_false]
        intro d hd
        rcases List.mem_cons.1 hd with rfl | hd
        · omega
        · have := (List.pairwise_cons.1 hsorted).1 d hd
          omega
      refine ⟨c :: cycles, hsorted, hexact, ?_, fun cycle _ => ?_⟩
      · rw [hnone, toggles, advance, hc, if_neg hle]
      · rw [hnone]

variable {F : Type*} {cone : Cone F} {speaker : Speaker F}

/-- What the synthesis leaves alone. -/
theorem synthesizeSamples_keeps (endCycle room : Nat) (events : List SpeakerEvent) :
    (synthesizeSamples cone endCycle room speaker events).1.events = speaker.events
      ∧ (synthesizeSamples cone endCycle room speaker events).1.currentState = speaker.currentState
      ∧ (events = [] → (synthesizeSamples cone endCycle room speaker events).1.lastSampleState
        = speaker.lastSampleState) := by
  induction room generalizing speaker events with
  | zero => exact ⟨rfl, rfl, fun _ => rfl⟩
  | succ room ih =>
    unfold synthesizeSamples
    split_ifs with hmore
    · obtain ⟨hevents, hcurrent, hlast⟩ := @ih
        { speaker with
          lastSampleState := (advance speaker.nextSampleCycle speaker.lastSampleState events).1
          filter := cone.drive (advance speaker.nextSampleCycle speaker.lastSampleState events).1
            speaker.filter
          nextSampleCycle := Doubles.ofNat (speaker.nextSampleCycle + 1) }
        (advance speaker.nextSampleCycle speaker.lastSampleState events).2
      refine ⟨hevents, hcurrent, fun hnone => ?_⟩
      subst hnone
      exact hlast rfl
    · exact ⟨rfl, rfl, fun _ => rfl⟩

/-- **Each cycle up to the end makes a sample**, with the state after the strobes up to it. -/
theorem synthesizeSamples_spec {endCycle room k : Nat} {events : List SpeakerEvent}
    (hend : endCycle + 1 < 2 ^ 53) (hcount : speaker.nextSampleCycle + k = endCycle)
    (hroom : k ≤ room) (hevents : events = toggles speaker.lastSampleState cycles)
    (hsorted : cycles.Pairwise (· ≤ ·)) (hexact : ∀ c ∈ cycles, c < 2 ^ 53) :
    (synthesizeSamples cone endCycle room speaker events).1.nextSampleCycle = endCycle
      ∧ (synthesizeSamples cone endCycle room speaker events).2.map (fun x => (x.cycle, x.level))
        = (List.range' speaker.nextSampleCycle k).map
          fun c => (c, levelAt speaker.lastSampleState cycles c) := by
  subst hevents
  have hnext : Doubles.ofNat (speaker.nextSampleCycle + 1) = speaker.nextSampleCycle + 1 :=
    Doubles.ofNat_of_lt (by omega)
  -- on the samples still to come; what is left of the events is again a run of toggles
  induction k generalizing room speaker cycles with
  | zero =>
    cases room with
    | zero => exact ⟨hcount, rfl⟩
    | succ room =>
      have hstop : ¬ speaker.nextSampleCycle + 1 ≤ endCycle := by omega
      rw [synthesizeSamples, hnext, Doubles.ofNat_of_lt (by omega), if_neg hstop]
      exact ⟨hcount, rfl⟩
  | succ k ih =>
    obtain ⟨room, rfl⟩ : ∃ r, room = r + 1 := ⟨room - 1, by omega⟩
    obtain ⟨later, hlater, hlt, hadvance, hlevel⟩ :=
      @advance_toggles speaker.lastSampleState cycles speaker.nextSampleCycle hsorted hexact
    have hmore : speaker.nextSampleCycle + 1 ≤ endCycle := by omega
    rw [synthesizeSamples, hnext, Doubles.ofNat_of_lt (by omega), if_pos hmore]
    dsimp only
    rw [hadvance]
    dsimp only
    generalize hspeaker : ({ speaker with
        lastSampleState := levelAt speaker.lastSampleState cycles speaker.nextSampleCycle
        filter := cone.drive (levelAt speaker.lastSampleState cycles speaker.nextSampleCycle)
          speaker.filter
        nextSampleCycle := speaker.nextSampleCycle + 1 } : Speaker F) = next
    have hnextCycle : next.nextSampleCycle = speaker.nextSampleCycle + 1 := by rw [← hspeaker]
    have hnextState : next.lastSampleState
        = levelAt speaker.lastSampleState cycles speaker.nextSampleCycle := by rw [← hspeaker]
    obtain ⟨hcycle, hsamples⟩ := @ih later next room (by omega) (by omega) hlater hlt
      (Doubles.ofNat_of_lt (by omega))
    rw [hnextState] at hcycle hsamples
    refine ⟨hcycle, ?_⟩
    rw [List.map_cons, hsamples, List.range'_succ, List.map_cons, hnextCycle]
    congr 1
    refine List.map_congr_left fun c hc => ?_
    rw [hlevel c (by have := List.mem_range'_1.1 hc; omega)]

/-- A call that hands over no cycles does nothing. -/
theorem speakerThink_zero (now : Nat) :
    speaker.speakerThink cone now 0 = ({ speaker with lastUpdateCycle := now }, []) := rfl

/-- Nor does a cone at rest make samples. -/
theorem speakerThink_rest {now elapsed : Nat} (hpos : 0 < elapsed)
    (hrest : speaker.events = [] ∧ cone.atRest speaker.filter) :
    speaker.speakerThink cone now elapsed
      = ({ speaker with lastUpdateCycle := now, filter := cone.settle speaker.filter }, []) := by
  unfold speakerThink generateSamples
  rw [if_neg (by omega), if_pos hrest]

/-- **What a call comes to** that hands over cycles, where the cone is not at rest: the samples
begin with the first of the cycles. -/
theorem speakerThink_eq {now elapsed : Nat} (hpos : 0 < elapsed) (hle : elapsed ≤ now)
    (hnow : now < 2 ^ 53) (hnext : speaker.nextSampleCycle ≤ now - elapsed)
    (hrest : ¬ (speaker.events = [] ∧ cone.atRest speaker.filter)) :
    speaker.speakerThink cone now elapsed
      = ({ (synthesizeSamples cone now speakerMaxSamplesPerUpdate
            { speaker with lastUpdateCycle := now, nextSampleCycle := now - elapsed }
            speaker.events).1 with
          lastSampleState := (synthesizeSamples cone now speakerMaxSamplesPerUpdate
            { speaker with lastUpdateCycle := now, nextSampleCycle := now - elapsed }
            speaker.events).1.lastState
          events := [] },
        (synthesizeSamples cone now speakerMaxSamplesPerUpdate
          { speaker with lastUpdateCycle := now, nextSampleCycle := now - elapsed }
          speaker.events).2) := by
  have hfirst : (if speaker.nextSampleCycle < now - elapsed ∨
      Doubles.ofNat (Doubles.ofNat now + 2) < speaker.nextSampleCycle then now - elapsed
      else speaker.nextSampleCycle) = now - elapsed := by
    split_ifs with hlate
    · rfl
    · omega
  unfold speakerThink generateSamples
  rw [if_neg (by omega), if_neg hrest, if_pos hle]
  dsimp only
  rw [Doubles.ofNat_of_lt (by omega : now - elapsed < 2 ^ 53), hfirst]

/-- A call leaves the flip-flop alone. -/
theorem speakerThink_currentState (now elapsed : Nat) :
    (speaker.speakerThink cone now elapsed).1.currentState = speaker.currentState := by
  unfold speakerThink generateSamples
  by_cases hzero : elapsed = 0
  · rw [if_pos hzero]
  by_cases hrest : speaker.events = [] ∧ cone.atRest speaker.filter
  · rw [if_neg hzero, if_pos hrest]
  · rw [if_neg hzero, if_neg hrest]
    exact (synthesizeSamples_keeps _ _ _).2.1

/-! ## The state after a call -/

/-- **The last edge in the queue is the state of the flip-flop**, and without edges the
synthesizer has it. -/
def Settled (speaker : Speaker F) : Prop := speaker.lastState = speaker.currentState

theorem Settled.speakerStrobe (now : Nat) : (speaker.speakerStrobe now).Settled := by
  unfold Settled lastState LinApple.Cards.Speaker.speakerStrobe
  split_ifs <;> simp

/-- **A call that hands over cycles leaves the synthesizer with the state of the flip-flop.** -/
theorem Settled.speakerThink (h : speaker.Settled) (now elapsed : Nat) :
    (speaker.speakerThink cone now elapsed).1.Settled
      ∧ (0 < elapsed → (speaker.speakerThink cone now elapsed).1.lastSampleState
        = (speaker.speakerThink cone now elapsed).1.currentState) := by
  unfold LinApple.Cards.Speaker.speakerThink generateSamples
  by_cases hzero : elapsed = 0
  · rw [if_pos hzero]
    exact ⟨h, fun hpos => absurd hzero (Nat.pos_iff_ne_zero.1 hpos)⟩
  rw [if_neg hzero]
  by_cases hrest : speaker.events = [] ∧ cone.atRest speaker.filter
  · rw [if_pos hrest]
    refine ⟨h, fun _ => ?_⟩
    have hlast : speaker.lastState = speaker.currentState := h
    rw [lastState, hrest.1] at hlast
    exact hlast
  rw [if_neg hrest]
  dsimp only
  generalize speakerMaxSamplesPerUpdate = room
  have hkeeps := fun next : Nat => @synthesizeSamples_keeps F cone
    { speaker with lastUpdateCycle := now, nextSampleCycle := next } now room speaker.events
  suffices hstate : ∀ next : Nat, (synthesizeSamples cone now room
      { speaker with lastUpdateCycle := now, nextSampleCycle := next } speaker.events).1.lastState
        = speaker.currentState by
    exact ⟨(hstate _).trans (hkeeps _).2.1.symm, fun _ => (hstate _).trans (hkeeps _).2.1.symm⟩
  intro next
  obtain ⟨hevents, -, hlast⟩ := hkeeps next
  rw [lastState, hevents]
  rcases List.eq_nil_or_concat speaker.events with hnone | ⟨front, last, hsome⟩
  · rw [hlast hnone, ← h, lastState]
  · rw [← h, lastState]
    simp [hsome]

end Speaker

/-! ## Runs -/

namespace SpeakerRun

variable {F : Type*} {cone : Cone F} {r : SpeakerRun F} {strobes pending : List Nat}

theorem settled_run (h : r.speaker.Settled) (steps : List (Nat × SpeakerAccess)) :
    (r.run cone steps).speaker.Settled := by
  induction steps generalizing r with
  | nil => exact h
  | cons s steps ih =>
    refine ih ?_
    obtain ⟨n, access⟩ := s
    cases access with
    | strobe => exact Speaker.Settled.speakerStrobe _
    | think => exact (h.speakerThink _ _).1

/-- **The flip-flop has flipped at every strobe.** -/
theorem currentState_run (h : r.speaker.currentState = r.strobes.length.bodd)
    (steps : List (Nat × SpeakerAccess)) :
    (r.run cone steps).speaker.currentState = (r.run cone steps).strobes.length.bodd := by
  induction steps generalizing r with
  | nil => exact h
  | cons s steps ih =>
    refine ih ?_
    obtain ⟨n, access⟩ := s
    cases access with
    | strobe =>
      dsimp only [step, Speaker.speakerStrobe]
      rw [h, List.length_append, List.length_singleton, Nat.bodd_succ]
    | think => exact (Speaker.speakerThink_currentState _ _).trans h

/-- **A card between calls**: so many strobes lie before the last call, and the others are in the
queue. -/
structure Following (r : SpeakerRun F) (strobes pending : List Nat) : Prop where
  /-- The strobes. -/
  strobes_eq : r.strobes = strobes ++ pending
  /-- Those before the last call. -/
  le_called : ∀ c ∈ strobes, c ≤ r.called
  /-- Those since. -/
  called_le : ∀ c ∈ pending, r.called ≤ c
  /-- They lie in the past, -/
  le_clock : ∀ c ∈ pending, c ≤ r.clock
  /-- in order, -/
  sorted : pending.Pairwise (· ≤ ·)
  /-- and are counted. -/
  since_eq : r.since = pending.length
  /-- The last call is in the past. -/
  called_le_clock : r.called ≤ r.clock
  /-- The synthesizer is where the flip-flop was at the last call. -/
  lastState : r.speaker.lastSampleState = strobes.length.bodd
  /-- The queue. -/
  events_eq : r.speaker.events = toggles r.speaker.lastSampleState pending
  /-- The flip-flop. -/
  currentState : r.speaker.currentState = xor strobes.length.bodd pending.length.bodd
  /-- The samples have not passed the last call. -/
  next_le : r.speaker.nextSampleCycle ≤ r.called
  /-- Nor have those that were made, -/
  sample_lt : ∀ x ∈ r.samples, x.cycle < r.speaker.nextSampleCycle
  /-- whose levels are those of the flip-flop, -/
  sample_level : ∀ x ∈ r.samples, x.level = flipFlop r.strobes x.cycle
  /-- each of a later cycle than those before. -/
  increasing : r.samples.Pairwise (fun x y => x.cycle < y.cycle)

theorem Following.strobe (h : r.Following strobes pending) (n : Nat)
    (hfits : r.since < speakerMaxEventsPerUpdate) :
    (r.step cone (n, .strobe)).Following strobes (pending ++ [r.clock + n]) := by
  have hcalled := h.called_le_clock
  refine
    { strobes_eq := by simp [step, h.strobes_eq]
      le_called := h.le_called
      called_le := ?_
      le_clock := ?_
      sorted := ?_
      since_eq := by simp [step, h.since_eq]
      called_le_clock := by dsimp only [step]; omega
      lastState := h.lastState
      events_eq := ?_
      currentState := ?_
      next_le := h.next_le
      sample_lt := h.sample_lt
      sample_level := fun x hx => ?_
      increasing := h.increasing }
  · intro c hc
    rcases List.mem_append.1 hc with hc | hc
    · exact h.called_le c hc
    · rw [List.mem_singleton.1 hc]
      dsimp only [step]
      omega
  · intro c hc
    dsimp only [step]
    rcases List.mem_append.1 hc with hc | hc
    · have := h.le_clock c hc
      omega
    · exact Nat.le_of_eq (List.mem_singleton.1 hc)
  · refine List.pairwise_append.2 ⟨h.sorted, List.pairwise_singleton _ _, fun c hc d hd => ?_⟩
    have := h.le_clock c hc
    rw [List.mem_singleton.1 hd]
    omega
  · have hroom : r.speaker.events.length < speakerMaxEventsPerUpdate := by
      rw [h.events_eq, length_toggles, ← h.since_eq]
      exact hfits
    dsimp only [step, Speaker.speakerStrobe]
    rw [if_pos hroom, toggles_concat, h.events_eq, h.currentState, h.lastState]
  · dsimp only [step, Speaker.speakerStrobe]
    rw [h.currentState, List.length_append, List.length_singleton, Nat.bodd_add]
    simp
  -- a sample taken before the strobe shows the level without it
  · have hlate : flipFlop [r.clock + n] x.cycle = false := by
      refine flipFlop_of_lt fun c hc => ?_
      have hlt := h.sample_lt x hx
      have hle := h.next_le
      rw [List.mem_singleton.1 hc]
      omega
    dsimp only [step]
    rw [flipFlop_append, hlate, Bool.xor_false, h.sample_level x hx]

/-- **A call that hands over cycles makes a sample of each of them**, if the cone is not at rest,
with the level of the flip-flop. -/
theorem Following.think_spec (h : r.Following strobes pending) {n : Nat}
    (hpos : r.called < r.clock + n) (hfits : r.clock + n - r.called ≤ speakerMaxSamplesPerUpdate)
    (hclock : r.clock + n + 2 < 2 ^ 53)
    (hrest : ¬ (r.speaker.events = [] ∧ cone.atRest r.speaker.filter)) :
    (r.speaker.speakerThink cone (r.clock + n) (r.clock + n - r.called)).1.nextSampleCycle
        = r.clock + n
      ∧ (r.speaker.speakerThink cone (r.clock + n) (r.clock + n - r.called)).1.events = []
      ∧ (r.speaker.speakerThink cone (r.clock + n) (r.clock + n - r.called)).1.currentState
        = r.speaker.currentState
      ∧ (r.speaker.speakerThink cone (r.clock + n) (r.clock + n - r.called)).2.map
          (fun x => (x.cycle, x.level))
        = (List.range' r.called (r.clock + n - r.called)).map fun c => (c, flipFlop r.strobes c) := by
  have hcalled := h.called_le_clock
  have hback : r.clock + n - (r.clock + n - r.called) = r.called := by omega
  have hpast : ∀ c ∈ pending, c < 2 ^ 53 := fun c hc => by
    have := h.le_clock c hc
    omega
  rw [Speaker.speakerThink_eq (by omega) (by omega) (by omega) (by rw [hback]; exact h.next_le) hrest,
    hback]
  generalize hspeaker : ({ r.speaker with
    lastUpdateCycle := r.clock + n, nextSampleCycle := r.called } : Speaker F) = speaker
  have hnext : speaker.nextSampleCycle = r.called := by rw [← hspeaker]
  have hstate : speaker.lastSampleState = r.speaker.lastSampleState := by rw [← hspeaker]
  have hcurrent : speaker.currentState = r.speaker.currentState := by rw [← hspeaker]
  obtain ⟨hcycle, hsamples⟩ := @Speaker.synthesizeSamples_spec pending F cone speaker (r.clock + n)
    speakerMaxSamplesPerUpdate (r.clock + n - r.called) r.speaker.events (by omega) (by omega) hfits
    (by rw [h.events_eq, hstate]) h.sorted hpast
  refine ⟨hcycle, rfl, (Speaker.synthesizeSamples_keeps _ _ _).2.1.trans hcurrent,
    hsamples.trans ?_⟩
  rw [hnext, hstate, h.lastState]
  refine List.map_congr_left fun c hc => ?_
  have hlate := (List.mem_range'_1.1 hc).1
  rw [h.strobes_eq, flipFlop_append, levelAt,
    flipFlop_of_le fun d hd => Nat.le_trans (h.le_called d hd) hlate]

theorem step_think (n : Nat) : r.step cone (n, .think)
    = { r with
        speaker := (r.speaker.speakerThink cone (r.clock + n) (r.clock + n - r.called)).1
        clock := r.clock + n
        called := r.clock + n
        since := if r.called < r.clock + n then 0 else r.since
        samples := r.samples
          ++ (r.speaker.speakerThink cone (r.clock + n) (r.clock + n - r.called)).2 } := rfl

/-- A call without cycles leaves the queue as it is. -/
theorem Following.think_zero (h : r.Following strobes pending) {n : Nat}
    (hzero : ¬ r.called < r.clock + n) :
    (r.step cone (n, .think)).Following strobes pending := by
  have hcalled := h.called_le_clock
  obtain rfl : n = 0 := by omega
  have hnow : r.clock = r.called := by omega
  rw [step_think, Nat.add_zero, hnow, Nat.sub_self, Speaker.speakerThink_zero,
    if_neg (Nat.lt_irrefl _), List.append_nil]
  exact { h with
    le_clock := fun c hc => by rw [← hnow]; exact h.le_clock c hc
    called_le_clock := Nat.le_refl _ }

/-- A cone at rest has no strobes to follow. -/
theorem Following.think_rest (h : r.Following strobes pending) {n : Nat}
    (hpos : r.called < r.clock + n)
    (hrest : r.speaker.events = [] ∧ cone.atRest r.speaker.filter) :
    (r.step cone (n, .think)).Following strobes [] := by
  have hnone : pending = [] := by
    rw [← List.length_eq_zero_iff, ← @length_toggles r.speaker.lastSampleState, ← h.events_eq,
      hrest.1, List.length_nil]
  subst hnone
  rw [step_think, Speaker.speakerThink_rest (by omega) hrest, if_pos hpos, List.append_nil]
  exact { h with
    le_called := fun c hc => Nat.le_trans (h.le_called c hc) (Nat.le_of_lt hpos)
    called_le := fun _ hc => nomatch hc
    le_clock := fun _ hc => nomatch hc
    since_eq := rfl
    called_le_clock := Nat.le_refl _
    next_le := Nat.le_trans h.next_le (Nat.le_of_lt hpos) }

/-- **A call that makes samples** leaves nothing in the queue, and the synthesizer with the state
of the flip-flop. -/
theorem Following.think_busy (h : r.Following strobes pending) {n : Nat}
    (hpos : r.called < r.clock + n) (hfits : r.clock + n - r.called ≤ speakerMaxSamplesPerUpdate)
    (hclock : r.clock + n + 2 < 2 ^ 53)
    (hrest : ¬ (r.speaker.events = [] ∧ cone.atRest r.speaker.filter)) :
    (r.step cone (n, .think)).Following r.strobes [] := by
  obtain ⟨hcycle, hevents, hcurrent, hsamples⟩ := h.think_spec hpos hfits hclock hrest
  have hsettled : r.speaker.Settled := by
    rw [Speaker.Settled, Speaker.lastState, h.events_eq, getLast_toggles, h.currentState,
      h.lastState]
  have hflip : r.speaker.currentState = r.strobes.length.bodd := by
    rw [h.currentState, h.strobes_eq, List.length_append, Nat.bodd_add]
  have hlast := (@Speaker.Settled.speakerThink F cone _ hsettled (r.clock + n)
    (r.clock + n - r.called)).2 (by omega)
  rw [hcurrent, hflip] at hlast
  rw [step_think, if_pos hpos]
  generalize r.speaker.speakerThink cone (r.clock + n) (r.clock + n - r.called) = result
    at hcycle hevents hcurrent hsamples hlast ⊢
  -- the new samples are one per cycle from the last call on, so they go on where the old end
  have hcycles : result.2.map (fun x => x.cycle)
      = List.range' r.called (r.clock + n - r.called) := by
    have hfst := congrArg (List.map Prod.fst) hsamples
    simpa [Function.comp_def] using hfst
  have hincreasing : result.2.Pairwise (fun x y => x.cycle < y.cycle) := by
    rw [← List.pairwise_map (f := fun x : SpeakerSample F => x.cycle), hcycles]
    exact List.pairwise_lt_range'
  have hnew : ∀ x ∈ result.2, r.called ≤ x.cycle ∧ x.cycle < r.clock + n
      ∧ x.level = flipFlop r.strobes x.cycle := fun x hx => by
    have hmem := List.mem_map_of_mem (f := fun x => (x.cycle, x.level)) hx
    rw [hsamples] at hmem
    obtain ⟨c, hc, heq⟩ := List.mem_map.1 hmem
    have hrange := List.mem_range'_1.1 hc
    obtain ⟨hcx, hlevel⟩ := Prod.mk.inj heq
    rw [← hcx, ← hlevel]
    exact ⟨hrange.1, by omega, rfl⟩
  have hold : ∀ x ∈ r.samples, x.cycle < r.called := fun x hx =>
    Nat.lt_of_lt_of_le (h.sample_lt x hx) h.next_le
  -- every strobe so far is now at or before the call, so none is pending after it
  have hpast : ∀ c ∈ r.strobes, c ≤ r.clock + n := fun c hc => by
    have hcalled := h.called_le_clock
    rw [h.strobes_eq] at hc
    rcases List.mem_append.1 hc with hc | hc
    · have := h.le_called c hc
      omega
    · have := h.le_clock c hc
      omega
  exact
    { strobes_eq := (List.append_nil _).symm
      le_called := hpast
      called_le := fun _ hc => nomatch hc
      le_clock := fun _ hc => nomatch hc
      sorted := .nil
      since_eq := rfl
      called_le_clock := Nat.le_refl _
      lastState := hlast
      events_eq := hevents
      currentState := by rw [hcurrent, hflip]; simp
      next_le := Nat.le_of_eq hcycle
      sample_lt := fun x hx => by
        dsimp only
        rw [hcycle]
        rcases List.mem_append.1 hx with hx | hx
        · exact Nat.lt_trans (hold x hx) hpos
        · exact (hnew x hx).2.1
      sample_level := fun x hx => by
        rcases List.mem_append.1 hx with hx | hx
        · exact h.sample_level x hx
        · exact (hnew x hx).2.2
      increasing := List.pairwise_append.2 ⟨h.increasing, hincreasing, fun x hx y hy =>
        Nat.lt_of_lt_of_le (hold x hx) (hnew y hy).1⟩ }

/-! ### What a card can take -/

theorem clock_le_step (s : Nat × SpeakerAccess) : r.clock ≤ (r.step cone s).clock := by
  obtain ⟨n, access⟩ := s
  cases access <;> exact Nat.le_add_right _ _

theorem Within.clock {steps : List (Nat × SpeakerAccess)} (h : r.Within cone steps) :
    r.clock + 2 < 2 ^ 53 := by
  induction steps generalizing r with
  | nil => exact h
  | cons s steps ih =>
    have hlater := ih h.2
    have hle := @clock_le_step F cone r s
    omega

theorem Within.append_left {steps later : List (Nat × SpeakerAccess)}
    (h : r.Within cone (steps ++ later)) : r.Within cone steps := by
  induction steps generalizing r with
  | nil => exact h.clock
  | cons s steps ih => exact ⟨h.1, ih h.2⟩

theorem Within.append_right {steps later : List (Nat × SpeakerAccess)}
    (h : r.Within cone (steps ++ later)) : (r.run cone steps).Within cone later := by
  induction steps generalizing r with
  | nil => exact h
  | cons s steps ih => exact ih h.2

/-- **A card follows its strobes through a whole run.** -/
theorem Following.run {steps : List (Nat × SpeakerAccess)} (h : r.Following strobes pending)
    (hwithin : r.Within cone steps) :
    ∃ strobes pending, (r.run cone steps).Following strobes pending := by
  induction steps generalizing r strobes pending with
  | nil => exact ⟨strobes, pending, h⟩
  | cons s steps ih =>
    obtain ⟨hfits, hlater⟩ := hwithin
    have hclock := hlater.clock
    obtain ⟨n, access⟩ := s
    cases access with
    | strobe => exact ih (h.strobe n hfits) hlater
    | think =>
      by_cases hpos : r.called < r.clock + n
      · by_cases hrest : r.speaker.events = [] ∧ cone.atRest r.speaker.filter
        · exact ih (h.think_rest hpos hrest) hlater
        · exact ih (h.think_busy hpos hfits hclock hrest) hlater
      · exact ih (h.think_zero hpos) hlater

theorem following_start {now : Nat} (hnow : now < 2 ^ 53) :
    (start cone now).Following [] [] where
  strobes_eq := rfl
  le_called := fun _ hc => nomatch hc
  called_le := fun _ hc => nomatch hc
  le_clock := fun _ hc => nomatch hc
  sorted := .nil
  since_eq := rfl
  called_le_clock := Nat.le_refl _
  lastState := rfl
  events_eq := rfl
  currentState := rfl
  next_le := Nat.le_of_eq (Doubles.ofNat_of_lt hnow)
  sample_lt := fun _ hx => nomatch hx
  sample_level := fun _ hx => nomatch hx
  increasing := .nil

theorem run_concat (steps : List (Nat × SpeakerAccess)) (s : Nat × SpeakerAccess) :
    r.run cone (steps ++ [s]) = (r.run cone steps).step cone s := by
  simp [SpeakerRun.run]

/-- **Edges land on their cycle.** In a run that the card can take, whatever the cone is and its
test for silence decides, the level of a sample is that of the flip-flop after all strobes up to
its cycle, no cycle is sampled twice, and a call samples every one of its cycles unless the cone is
at rest. In any run, a call that hands over cycles leaves the synthesizer with the state of the
flip-flop, however many strobes there were. -/
theorem edges_land (cone : Cone F) (now : Nat) (steps : List (Nat × SpeakerAccess)) :
    ((start cone now).Within cone steps →
        (∀ x ∈ ((start cone now).run cone steps).samples,
          x.level = flipFlop ((start cone now).run cone steps).strobes x.cycle)
        ∧ ((start cone now).run cone steps).samples.Pairwise (fun x y => x.cycle < y.cycle))
      ∧ (∀ n, (start cone now).Within cone (steps ++ [(n, .think)]) →
        ¬ (((start cone now).run cone steps).speaker.events = []
          ∧ cone.atRest ((start cone now).run cone steps).speaker.filter) →
        ∃ samples, ((start cone now).run cone (steps ++ [(n, .think)])).samples
            = ((start cone now).run cone steps).samples ++ samples
          ∧ samples.map (fun x => x.cycle) = List.range' ((start cone now).run cone steps).called
            (((start cone now).run cone steps).clock + n
              - ((start cone now).run cone steps).called))
      ∧ (∀ n, ((start cone now).run cone steps).called < ((start cone now).run cone steps).clock + n →
        ((start cone now).run cone (steps ++ [(n, .think)])).speaker.lastSampleState
            = ((start cone now).run cone (steps ++ [(n, .think)])).speaker.currentState
          ∧ ((start cone now).run cone (steps ++ [(n, .think)])).speaker.currentState
            = ((start cone now).run cone (steps ++ [(n, .think)])).strobes.length.bodd) := by
  -- the invariant carries the levels and their order; the rest is what one call says of itself
  refine ⟨fun hwithin => ?_, fun n hwithin hrest => ?_, fun n hpos => ?_⟩
  · have hnow : now + 2 < 2 ^ 53 := hwithin.clock
    obtain ⟨strobes, pending, h⟩ := (@following_start F cone now (by omega)).run hwithin
    exact ⟨h.sample_level, h.increasing⟩
  · have hnow : now + 2 < 2 ^ 53 := hwithin.clock
    obtain ⟨strobes, pending, h⟩ :=
      (@following_start F cone now (by omega)).run hwithin.append_left
    obtain ⟨hfits, hlater⟩ := hwithin.append_right
    have hclock := hlater.clock
    rw [run_concat, step_think]
    refine ⟨_, rfl, ?_⟩
    by_cases hpos : ((start cone now).run cone steps).called
        < ((start cone now).run cone steps).clock + n
    · have hsamples := (h.think_spec hpos hfits hclock hrest).2.2.2
      have hfst := congrArg (List.map Prod.fst) hsamples
      simpa [Function.comp_def] using hfst
    · rw [Nat.sub_eq_zero_of_le (Nat.le_of_not_lt hpos), Speaker.speakerThink_zero]
      rfl
  · have hsettled := @settled_run F cone (start cone now) (Eq.refl false) steps
    have hflip := @currentState_run F cone (start cone now) (by simp [start, Speaker.speakerReset])
      (steps ++ [(n, .think)])
    refine ⟨?_, hflip⟩
    rw [run_concat]
    exact (hsettled.speakerThink _ _).2 (by omega)

/-! ### The cone of the source -/

/-- The DC blocker, without rounding: its state and its previous input. -/
def dcBlocker : Cone (ℚ × ℚ) where
  reset := (0, -1)
  drive level s :=
    let drive := if level then 1 else -1
    let filtered := drive - s.2 + (1 - 1 / 23000) * s.1
    (if |filtered| < 1 / 1000 then 0 else filtered, drive)
  atRest s := |s.1| < 1 / 1000
  settle s := (0, s.2)

/-- **A strobe in the third of five cycles**: the cone is at rest no more, and the call samples
all five. -/
theorem edges_land_strobe :
    ((start dcBlocker 0).run dcBlocker ([(2, .strobe)] ++ [(3, .think)])).samples.map
        (fun x => x.cycle) = [0, 1, 2, 3, 4]
      ∧ (∀ x ∈ ((start dcBlocker 0).run dcBlocker [(2, .strobe), (3, .think)]).samples,
        x.level = flipFlop ((start dcBlocker 0).run dcBlocker [(2, .strobe), (3, .think)]).strobes
          x.cycle)
      ∧ ((start dcBlocker 0).run dcBlocker ([(2, .strobe)] ++ [(3, .think)])).speaker.lastSampleState
        = true := by
  have hwithin : (start dcBlocker 0).Within dcBlocker [(2, .strobe), (3, .think)] := by
    refine ⟨?_, ?_, ?_⟩ <;> decide +kernel
  obtain ⟨-, hcycles, hlast⟩ := edges_land dcBlocker 0 [(2, .strobe)]
  obtain ⟨samples, hsamples, hmap⟩ := hcycles 3 hwithin (by decide +kernel)
  refine ⟨?_, ((edges_land dcBlocker 0 [(2, .strobe), (3, .think)]).1 hwithin).1, ?_⟩
  · rw [hsamples]
    exact hmap
  · rw [(hlast 3 (by decide +kernel)).1, (hlast 3 (by decide +kernel)).2]
    rfl

theorem synthesizeSamples_two {endCycle room : Nat} {speaker : Speaker F}
    {events : List SpeakerEvent}
    (hfirst : Doubles.ofNat (speaker.nextSampleCycle + 1) ≤ Doubles.ofNat endCycle)
    (hsecond : Doubles.ofNat (Doubles.ofNat (speaker.nextSampleCycle + 1) + 1)
      ≤ Doubles.ofNat endCycle) :
    ∃ x y samples, (Speaker.synthesizeSamples cone endCycle (room + 2) speaker events).2
        = x :: y :: samples
      ∧ x.cycle = speaker.nextSampleCycle
      ∧ y.cycle = Doubles.ofNat (speaker.nextSampleCycle + 1) := by
  rw [Speaker.synthesizeSamples, if_pos hfirst]
  dsimp only
  rw [Speaker.synthesizeSamples, if_pos hsecond]
  exact ⟨_, _, _, rfl, rfl, rfl⟩

/-- **Where doubles do not count by ones, a cycle is sampled twice.** -/
theorem sampled_twice (cone : Cone F) {now : Nat} (hnow : Doubles.ofNat now = now)
    (hnext : Doubles.ofNat (now + 1) = now) (hend : now ≤ Doubles.ofNat (now + 2)) :
    ¬ ((start cone now).run cone [(0, .strobe), (2, .think)]).samples.Pairwise
      (fun x y => x.cycle < y.cycle) := by
  obtain ⟨room, hroom⟩ : ∃ room, speakerMaxSamplesPerUpdate = room + 2 :=
    ⟨23998, by unfold speakerMaxSamplesPerUpdate; rfl⟩
  generalize hspeaker : ({ (Speaker.speakerReset cone now).speakerStrobe now with
    lastUpdateCycle := now + 2 } : Speaker F) = speaker
  have hrun : ((start cone now).run cone [(0, .strobe), (2, .think)]).samples
      = (speaker.generateSamples cone (now + 2) 2).2 := by
    rw [run, List.foldl_cons, List.foldl_cons, List.foldl_nil, step_think, ← hspeaker]
    dsimp only [step, start, Speaker.speakerThink]
    simp only [List.nil_append, Nat.add_zero, Nat.add_sub_cancel_left]
  have hevents : speaker.events ≠ [] := by
    rw [← hspeaker]
    simp [Speaker.speakerStrobe, Speaker.speakerReset, speakerMaxEventsPerUpdate]
  have hcycle : speaker.nextSampleCycle = now := by
    rw [← hspeaker]
    exact hnow
  rw [Speaker.generateSamples, if_neg (by omega), if_neg (fun h => hevents h.1), if_pos (by omega),
    hroom, hcycle, Nat.add_sub_cancel] at hrun
  dsimp only at hrun
  rw [hnow, ite_self] at hrun
  obtain ⟨x, y, samples, hsamples, hx, hy⟩ :=
    @synthesizeSamples_two _ cone (now + 2) room { speaker with nextSampleCycle := now }
      speaker.events (by dsimp only; rw [hnext]; exact hend)
      (by dsimp only; rw [hnext, hnext]; exact hend)
  rw [hrun, hsamples]
  intro h
  have hlt := (List.pairwise_cons.1 h).1 y (List.mem_cons_self ..)
  rw [hx, hy] at hlt
  dsimp only at hlt
  omega

/-- **A call without cycles leaves the queue**, and the synthesizer behind the flip-flop; and the
cycle 2^53 is sampled twice. -/
theorem not_edges_land :
    ((start dcBlocker 0).run dcBlocker
          [(5, .think), (0, .strobe), (0, .think)]).speaker.lastSampleState
        ≠ ((start dcBlocker 0).run dcBlocker
          [(5, .think), (0, .strobe), (0, .think)]).speaker.currentState
      ∧ ¬ ((start dcBlocker (2 ^ 53)).run dcBlocker
          [(0, .strobe), (2, .think)]).samples.Pairwise (fun x y => x.cycle < y.cycle) :=
  ⟨by decide +kernel,
    sampled_twice dcBlocker (by decide +kernel) (by decide +kernel) (by decide +kernel)⟩

end SpeakerRun

end LinApple.Cards
