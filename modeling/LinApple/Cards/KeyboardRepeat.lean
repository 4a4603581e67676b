import LinApple.Cards.Keyboard

/-!
# Auto-repeat

A card is armed as long as keys are held that repeat (`Keyboard.Follows`), so what a wake-up
raises is told by the cycle alone (`Keyboard.raises_iff`). On a //e that cycle stays in the phase
of the last press (`Keyboard.InPhase`), since a late wake-up moves it on by whole periods
(`Keyboard.nextRepeat_spec`).

Which keys are held is not read off the card. The card keeps a list of them itself, and a
statement in terms of that list would be true of a card that never lets a key go. `heldKeys` is
computed from the steps alone: a press adds its key behind the others, and makes the card forget
the one held longest where there is no room, a release takes it away, a reset lets go of all of
them; `reptHeld` does the same for the REPT key. That the list of the card is the same is
a theorem (`held_run`), proved by a step lemma for each operation, and only behind it can the
invariant of the card be put in terms of what the user does.

The result comes in parts, since the repeats are timed differently on the three machines. An event
is armed exactly if there is a next strobe, and there is one exactly if a key is held, and REPT
with it where the machine has such a key. A strobe is raised by a press, by REPT on a II with
nothing held, and by a wake-up that is due, and by nothing else. The last two parts are those of a
//e: the first repeat after a press falls on a multiple of the frames that the firmware counts in
and comes no earlier than the delay allows, and every later one is a whole number of periods on,
however late the wake-ups are.

The host's clock is given with each step and need not go forward. Nothing here depends on its
doing so but the word "late".
-/

namespace LinApple.Cards

namespace Keyboard

variable {kp : Keyboard} {host : HostClock} {s : KeyboardStep}

/-! ## Cycles -/

/-- **A wake-up, however late, moves the next strobe on by whole periods**, to the first that
is still to come. -/
theorem nextRepeat_spec (now next : Nat) {period : Nat} (hperiod : 0 < period) :
    ∃ n, 0 < n ∧ nextRepeat now period next = next + n * period ∧
      now < nextRepeat now period next ∧
      (next ≤ now → nextRepeat now period next ≤ now + period) := by
  fun_induction nextRepeat now period next with
  | case1 next hlate ih =>
    obtain ⟨n, -, hnext, hafter, hfirst⟩ := ih
    exact ⟨n + 1, n.succ_pos, by rw [hnext, Nat.add_mul]; omega, hafter, fun _ => hfirst hlate.2⟩
  | case2 next hsoon =>
    have hlt : now < next + period := by
      by_contra hle
      exact hsoon ⟨hperiod, by omega⟩
    exact ⟨1, Nat.one_pos, by rw [Nat.one_mul], hlt, by omega⟩

theorem frameCycles_pos (kp : Keyboard) : 0 < kp.frameCycles := by
  unfold frameCycles ntscFrameCycles
  split_ifs <;> omega

theorem reptPeriod_pos (host : HostClock) : 0 < reptPeriod host := by
  unfold reptPeriod
  split_ifs <;> omega

/-- **The first repeat falls on a multiple of the phase**, more than 31 frames after the
press. -/
theorem firstRepeat_spec (now : Nat) {frame : Nat} (hframe : 0 < frame) :
    repeatPhaseFrames * frame ∣ firstRepeat now frame ∧
      now + (repeatDelayFrames - 1) * frame < firstRepeat now frame := by
  unfold firstRepeat repeatPhaseFrames repeatDelayFrames
  dsimp only
  constructor
  · refine Nat.mul_dvd_mul_right (Nat.dvd_of_mod_eq_zero ?_) frame
    omega
  · have hnow := Nat.div_add_mod now frame
    have hlt := Nat.mod_lt now hframe
    calc now + (32 - 1) * frame < (now / frame + 32) * frame := by
          rw [Nat.add_mul, Nat.mul_comm (now / frame)]
          omega
      _ ≤ (now / frame + 32 + (16 - now / frame % 16) % 16) * frame :=
          Nat.mul_le_mul_right frame (Nat.le_add_right _ _)

/-! ## The card follows the keys -/

/-- The keys that are held repeat: on a II, REPT is held with them. -/
def Repeats (kp : Keyboard) : Prop :=
  kp.logic.held.keys ≠ [] ∧ (kp.machine ≠ .apple2e → kp.logic.reptDown = true)

/-- **The card follows the keys**: it is armed as long as they repeat, and the host has its
event. -/
structure Follows (kp : Keyboard) : Prop where
  /-- Armed as long as the keys repeat. -/
  armed : kp.logic.nextStrobe ≠ 0 ↔ kp.Repeats
  /-- The event is the next strobe's. -/
  event : kp.event = if kp.logic.nextStrobe = 0 then none else some kp.logic.nextStrobe

theorem anyKeyDown_iff : kp.anyKeyDown = true ↔ kp.logic.held.keys ≠ [] := decide_eq_true_iff

theorem hold_ne_nil (h : HeldKeys) (key : UInt32) : (h.hold key).keys ≠ [] := by
  unfold HeldKeys.hold
  split_ifs with hkey hfull
  · exact List.ne_nil_of_mem hkey
  · simp
  · simp

theorem Follows.new (machine : PeripheralMachine) (frames : Nat) :
    (Keyboard.new machine frames).Follows where
  armed := by simp [Keyboard.new, Repeats, HeldKeys.none]
  event := rfl

/-- A card that is armed for keys that repeat follows them. -/
theorem Follows.arm (h : kp.Repeats) {atCycle : Nat} (hcycle : atCycle ≠ 0) :
    (kp.arm atCycle).Follows :=
  ⟨iff_of_true hcycle h, rfl⟩

/-- So does a card that is not armed and has none. -/
theorem Follows.disarm (h : ¬ kp.Repeats) : kp.disarm.Follows :=
  ⟨iff_of_false (fun hne => hne rfl) h, rfl⟩

/-- What the card is told of its keys and does not act on leaves it armed as it was. -/
theorem Follows.kept {kp' : Keyboard} (h : kp.Follows)
    (hnext : kp'.logic.nextStrobe = kp.logic.nextStrobe) (hevent : kp'.event = kp.event)
    (hrepeats : kp'.Repeats ↔ kp.Repeats) : kp'.Follows :=
  ⟨by rw [hnext, hrepeats, h.armed], by rw [hnext, hevent, h.event]⟩

/-- A card with a key down follows it, once it is armed if the key repeats. -/
theorem Follows.rearm (hkeys : kp.logic.held.keys ≠ [])
    (h : ¬ kp.Repeats → kp.logic.nextStrobe = 0 ∧ kp.event = none) (host : HostClock) :
    (if kp.machine = .apple2e then kp.armAutoRepeat host
      else if kp.logic.reptDown then kp.armRept host else kp).Follows := by
  split_ifs with hmachine hrept
  · have hfirst := (firstRepeat_spec host.cycles kp.frameCycles_pos).2
    exact .arm ⟨hkeys, fun hne => absurd hmachine hne⟩ (by omega)
  · have hperiod := reptPeriod_pos host
    exact .arm ⟨hkeys, fun _ => hrept⟩ (by omega)
  · have hnone : ¬ kp.Repeats := fun hr => hrept (hr.2 hmachine)
    obtain ⟨hnext, hevent⟩ := h hnone
    exact ⟨iff_of_false (fun hne => hne hnext) hnone, by rw [hevent, if_pos hnext]⟩

theorem Follows.pressKey (h : kp.Follows) (host : HostClock) (hostKey : UInt32) (code : UInt8) :
    (kp.pressKey host hostKey code).Follows := by
  refine .rearm (hold_ne_nil kp.logic.held hostKey) (fun hnone => ?_) host
  have hidle : kp.logic.nextStrobe = 0 := by
    by_contra hset
    exact hnone ⟨hold_ne_nil kp.logic.held hostKey, (h.armed.1 hset).2⟩
  exact ⟨hidle, h.event.trans (if_pos hidle)⟩

theorem Follows.releaseKey (h : kp.Follows) (hostKey : UInt32) :
    (kp.releaseKey hostKey).Follows := by
  unfold Keyboard.releaseKey
  dsimp only
  split_ifs with hnone
  · refine .disarm fun hr => ?_
    rw [Bool.not_eq_true', ← Bool.not_eq_true] at hnone
    exact hnone (anyKeyDown_iff.2 hr.1)
  · have hkeys : kp.logic.held.keys.erase hostKey ≠ [] := by
      simpa [anyKeyDown, HeldKeys.letGo] using hnone
    have hbefore : kp.logic.held.keys ≠ [] := fun hnil => hkeys (by rw [hnil]; rfl)
    exact h.kept rfl rfl ⟨fun hr => ⟨hbefore, hr.2⟩, fun hr => ⟨hkeys, hr.2⟩⟩

theorem Follows.setRept (h : kp.Follows) (host : HostClock) (down : Bool) :
    (kp.setRept host down).Follows := by
  unfold Keyboard.setRept
  dsimp only
  split_ifs with hmachine hup hkeys hold
  · refine h.kept rfl rfl (and_congr_right fun _ => ?_)
    exact ⟨fun _ hne => absurd hmachine hne, fun _ hne => absurd hmachine hne⟩
  · refine .disarm fun hr => ?_
    have hdown : down = true := hr.2 hmachine
    rw [hdown] at hup
    exact absurd hup (by decide)
  · refine .arm ⟨anyKeyDown_iff.1 hkeys, fun _ => ?_⟩ (by have := reptPeriod_pos host; omega)
    simpa using hup
  all_goals
    have hnone : ¬ kp.logic.held.keys ≠ [] := fun hne => hkeys (anyKeyDown_iff.2 hne)
    exact h.kept rfl rfl (iff_of_false (fun hr => hnone hr.1) fun hr => hnone hr.1)

/-- A wake-up of a card that is due raises the strobe, and arms the card again. -/
theorem keyboardAbiThink_due (h : kp.logic.nextStrobe ≠ 0 ↔ kp.Repeats)
    (hset : kp.logic.nextStrobe ≠ 0) (hdue : kp.logic.nextStrobe ≤ host.cycles) :
    kp.keyboardAbiThink host = kp.repeatStrobe host.cycles
      (if kp.machine = .apple2e then repeatPeriodFrames * kp.frameCycles else reptPeriod host) := by
  obtain ⟨hkeys, hrept⟩ := h.1 hset
  have hany : kp.anyKeyDown = true := anyKeyDown_iff.2 hkeys
  unfold keyboardAbiThink
  rw [if_neg hset, if_neg (Nat.not_lt.2 hdue), hany]
  by_cases hmachine : kp.machine = .apple2e
  · rw [if_pos hmachine, if_pos hmachine]
    rfl
  · rw [if_neg hmachine, if_neg hmachine, hrept hmachine]
    rfl

/-- A wake-up of a card that is not due does nothing. -/
theorem keyboardAbiThink_idle
    (hidle : kp.logic.nextStrobe = 0 ∨ host.cycles < kp.logic.nextStrobe) :
    kp.keyboardAbiThink host = kp := by
  unfold keyboardAbiThink
  split_ifs with hzero hsoon <;> first | rfl | omega

theorem Follows.repeatStrobe (h : kp.Repeats) (now : Nat) {period : Nat} (hperiod : 0 < period) :
    (kp.repeatStrobe now period).Follows := by
  obtain ⟨n, -, -, hafter, -⟩ := nextRepeat_spec now kp.logic.nextStrobe hperiod
  exact ⟨iff_of_true (by show nextRepeat _ _ _ ≠ 0; omega) h, rfl⟩

/-- The period of the repeats, which is not zero. -/
theorem period_pos (kp : Keyboard) (host : HostClock) :
    0 < if kp.machine = .apple2e then repeatPeriodFrames * kp.frameCycles else reptPeriod host := by
  split_ifs
  · exact Nat.mul_pos (by decide) kp.frameCycles_pos
  · exact reptPeriod_pos host

theorem Follows.keyboardAbiThink (h : kp.Follows) (host : HostClock) :
    (kp.keyboardAbiThink host).Follows := by
  by_cases hdue : kp.logic.nextStrobe ≠ 0 ∧ kp.logic.nextStrobe ≤ host.cycles
  · rw [keyboardAbiThink_due h.armed hdue.1 hdue.2]
    exact .repeatStrobe (h.armed.1 hdue.1) _ (kp.period_pos host)
  · rw [keyboardAbiThink_idle (by omega)]
    exact h

/-- **The host wakes the card as it would be called.** -/
theorem serviceEvents_eq (h : kp.Follows) (host : HostClock) :
    kp.serviceEvents host = kp.keyboardAbiThink host := by
  unfold serviceEvents
  rw [h.event]
  by_cases hset : kp.logic.nextStrobe = 0
  · rw [if_pos hset]
    exact (keyboardAbiThink_idle (.inl hset)).symm
  rw [if_neg hset]
  dsimp only
  by_cases hdue : kp.logic.nextStrobe ≤ host.cycles
  · rw [if_pos hdue, keyboardAbiThink_due h.armed hset hdue]
    exact keyboardAbiThink_due h.armed hset hdue
  · rw [if_neg hdue]
    exact (keyboardAbiThink_idle (.inr (Nat.lt_of_not_le hdue))).symm

/-- **What a command does**: nothing, or one of the keys' doings. -/
theorem step_command (kp : Keyboard) (host : HostClock) (cmdId : UInt32) (data : KeyboardData) :
    (∃ hostKey code, kp.step host (.command cmdId data) = kp.pressKey host hostKey code ∧
      (KeyboardStep.command cmdId data).IsPress) ∨
    (∃ down, kp.step host (.command cmdId data) = kp.setRept host down ∧
      ¬ (KeyboardStep.command cmdId data).IsPress ∧
      ((KeyboardStep.command cmdId data).IsRept ↔ down = true)) ∨
    (kp.step host (.command cmdId data) = kp ∨ kp.step host (.command cmdId data) = kp.releaseAll ∨
      ∃ hostKey, kp.step host (.command cmdId data) = kp.releaseKey hostKey) ∧
    ¬ (KeyboardStep.command cmdId data).IsPress ∧ ¬ (KeyboardStep.command cmdId data).IsRept := by
  -- a key, the REPT key, and what remains, which presses neither
  by_cases hkey : ∃ hostKey code isDown, cmdId = keyboardCmdKey ∧ data = .key hostKey code isDown ∧
      code ≤ keyCodeMask
  · obtain ⟨hostKey, code, isDown, rfl, rfl, hcode⟩ := hkey
    have hrept : ¬ (KeyboardStep.command keyboardCmdKey (.key hostKey code isDown)).IsRept := by
      rintro ⟨down, hrept, -⟩
      cases hrept
    have hvalid : ¬ keyCodeMask < code := UInt8.not_lt.2 hcode
    by_cases hup : isDown = 0
    · refine .inr (.inr ⟨.inr (.inr ⟨hostKey, ?_⟩), ?_, hrept⟩)
      · simp [step, keyboardAbiCommand, hvalid, hup]
      · rintro ⟨_, _, _, hpress, -, hdown⟩
        cases hpress
        exact hdown hup
    · refine .inl ⟨hostKey, code, ?_, hostKey, code, isDown, rfl, hcode, hup⟩
      simp [step, keyboardAbiCommand, hvalid, hup]
  have hpress : ¬ (KeyboardStep.command cmdId data).IsPress := by
    rintro ⟨hostKey, code, isDown, hpress, hcode, -⟩
    cases hpress
    exact hkey ⟨_, _, _, rfl, rfl, hcode⟩
  by_cases hrept : ∃ down, cmdId = keyboardCmdRept ∧ data = .byte down
  · obtain ⟨down, rfl, rfl⟩ := hrept
    refine .inr (.inl ⟨down ≠ 0, ?_, hpress, ?_⟩)
    · simp [step, keyboardAbiCommand, keyboardCmdRept, keyboardCmdKey, keyboardCmdReleaseAll]
    · simp [KeyboardStep.IsRept]
  have hnoRept : ¬ (KeyboardStep.command cmdId data).IsRept := by
    rintro ⟨down, hdown, -⟩
    cases hdown
    exact hrept ⟨_, rfl, rfl⟩
  refine .inr (.inr ⟨?_, hpress, hnoRept⟩)
  unfold step keyboardAbiCommand
  dsimp only
  split_ifs with h₁ h₂ h₃
  · cases data with
    | key hostKey code isDown =>
      have hrefused : keyCodeMask < code := by
        by_contra hle
        exact hkey ⟨_, _, _, h₁, rfl, UInt8.not_lt.1 hle⟩
      exact .inl (by dsimp only; rw [if_pos hrefused]; rfl)
    | _ => exact .inl rfl
  · cases data with
    | none => exact .inr (.inl rfl)
    | _ => exact .inl rfl
  · cases data with
    | byte down => exact absurd ⟨down, h₃, rfl⟩ hrept
    | _ => exact .inl rfl
  · exact .inl rfl

/-- **A step keeps the card at its keys.** -/
theorem Follows.step (h : kp.Follows) (host : HostClock) (s : KeyboardStep) :
    (kp.step host s).Follows := by
  cases s with
  | command cmdId data =>
    rcases kp.step_command host cmdId data with ⟨hostKey, code, hstep, -⟩ | ⟨down, hstep, -⟩ |
      ⟨hstep | hstep | ⟨hostKey, hstep⟩, -⟩
    · rw [hstep]
      exact h.pressKey host hostKey code
    · rw [hstep]
      exact h.setRept host down
    · rw [hstep]
      exact h
    · rw [hstep]
      exact .disarm fun hr => hr.1 rfl
    · rw [hstep]
      exact h.releaseKey hostKey
  | reset => exact .disarm fun hr => hr.1 rfl
  | service =>
    change (kp.serviceEvents host).Follows
    rw [serviceEvents_eq h]
    exact h.keyboardAbiThink host
  | think => exact h.keyboardAbiThink host
  | strobe bus => exact h.kept rfl rfl Iff.rfl

/-- **A run keeps the card at its keys.** -/
theorem Follows.run (h : kp.Follows) (steps : List (HostClock × KeyboardStep)) :
    (kp.run steps).Follows := by
  induction steps generalizing kp with
  | nil => exact h
  | cons s steps ih => exact ih (h.step s.1 s.2)

/-! ## What raises the strobe -/

theorem strobe_setRept (hdown : kp.logic.strobe = false) (host : HostClock) (down : Bool) :
    (kp.setRept host down).logic.strobe = true ↔
      down = true ∧ kp.machine = .apple2 ∧ kp.logic.held.keys = [] := by
  have hany : kp.anyKeyDown = true ↔ kp.logic.held.keys ≠ [] := anyKeyDown_iff
  unfold setRept
  dsimp only
  split_ifs with hmachine hup hkeys hold
  · rw [hmachine]
    exact iff_of_false (by simp [hdown]) fun h => absurd h.2.1 (by decide)
  · exact iff_of_false (by simp [disarm, scheduleEvent, hdown]) fun h => by simp [h.1] at hup
  · exact iff_of_false (by simp [armRept, arm, scheduleEvent, hdown]) fun h => hany.1 hkeys h.2.2
  · refine iff_of_true rfl ⟨by simpa using hup, hold, ?_⟩
    by_contra hne
    exact hkeys (hany.2 hne)
  · exact iff_of_false (by simp [hdown]) fun h => hold h.2.1

theorem strobe_pressKey (kp : Keyboard) (host : HostClock) (hostKey : UInt32) (code : UInt8) :
    (kp.pressKey host hostKey code).logic.strobe = true := by
  unfold pressKey
  dsimp only
  split_ifs <;> rfl

theorem strobe_releaseKey (kp : Keyboard) (hostKey : UInt32) :
    (kp.releaseKey hostKey).logic.strobe = kp.logic.strobe := by
  unfold releaseKey
  dsimp only
  split_ifs <;> rfl

theorem strobe_keyboardAbiThink (h : kp.Follows) (hdown : kp.logic.strobe = false)
    (host : HostClock) : (kp.keyboardAbiThink host).logic.strobe = true ↔
      kp.logic.nextStrobe ≠ 0 ∧ kp.logic.nextStrobe ≤ host.cycles := by
  by_cases hdue : kp.logic.nextStrobe ≠ 0 ∧ kp.logic.nextStrobe ≤ host.cycles
  · rw [keyboardAbiThink_due h.armed hdue.1 hdue.2]
    exact iff_of_true rfl hdue
  · rw [keyboardAbiThink_idle (by omega)]
    exact iff_of_false (by simp [hdown]) hdue

/-- **A press raises the strobe, REPT alone on a II, and a wake-up that is due**, and nothing
else does. -/
theorem raises_iff (h : kp.Follows) : kp.Raises host s ↔ s.IsPress ∨
    (s.IsRept ∧ kp.machine = .apple2 ∧ kp.logic.held.keys = []) ∨
    (s.IsWake ∧ kp.logic.nextStrobe ≠ 0 ∧ kp.logic.nextStrobe ≤ host.cycles) := by
  have hreset : { kp with logic := { kp.logic with strobe := false } : Keyboard }.Follows :=
    h.kept rfl rfl Iff.rfl
  unfold Raises
  -- with the strobe cleared first, what a step raises is what it sets
  cases s with
  | command cmdId data =>
    have hwake : ¬ (KeyboardStep.command cmdId data).IsWake := by
      rintro (hs | hs) <;> cases hs
    rcases step_command { kp with logic := { kp.logic with strobe := false } } host cmdId data with
      ⟨hostKey, code, hstep, hpress⟩ | ⟨down, hstep, hpress, hrept⟩ | ⟨hstep, hpress, hrept⟩
    · rw [hstep]
      exact iff_of_true (strobe_pressKey ..) (.inl hpress)
    · rw [hstep, strobe_setRept rfl, ← hrept]
      tauto
    · have hsame : ∀ kp' : Keyboard, kp' = { kp with logic := { kp.logic with strobe := false } } ∨
          kp' = releaseAll { kp with logic := { kp.logic with strobe := false } } ∨
          (∃ hostKey, kp' = releaseKey { kp with logic := { kp.logic with strobe := false } } hostKey) →
          kp'.logic.strobe = false := by
        rintro _ (rfl | rfl | ⟨hostKey, rfl⟩)
        · rfl
        · rfl
        · exact strobe_releaseKey ..
      rw [hsame _ hstep]
      exact iff_of_false Bool.false_ne_true (by tauto)
  | reset =>
    refine iff_of_false Bool.false_ne_true ?_
    rintro (⟨_, _, _, hs, -⟩ | ⟨⟨_, hs, -⟩, -⟩ | ⟨hs | hs, -⟩) <;> cases hs
  | service =>
    change (serviceEvents _ host).logic.strobe = true ↔ _
    rw [serviceEvents_eq hreset, strobe_keyboardAbiThink hreset rfl]
    simp [KeyboardStep.IsPress, KeyboardStep.IsRept, KeyboardStep.IsWake]
  | think =>
    change (keyboardAbiThink _ host).logic.strobe = true ↔ _
    rw [strobe_keyboardAbiThink hreset rfl]
    simp [KeyboardStep.IsPress, KeyboardStep.IsRept, KeyboardStep.IsWake]
  | strobe bus =>
    refine iff_of_false Bool.false_ne_true ?_
    rintro (⟨_, _, _, hs, -⟩ | ⟨⟨_, hs, -⟩, -⟩ | ⟨hs | hs, -⟩) <;> cases hs

/-! ## The phase of the repeats -/

/-- **What a step that is no press does to the next strobe of a //e**: it takes it away, or
leaves it, or a wake-up that is due moves it on. -/
theorem nextStrobe_step (host : HostClock) (h : kp.Follows) (hmachine : kp.machine = .apple2e) (hpress : ¬ s.IsPress) :
    (kp.step host s).logic.nextStrobe = 0 ∨
    (kp.step host s).logic.nextStrobe = kp.logic.nextStrobe ∧
      ¬ (s.IsWake ∧ kp.logic.nextStrobe ≠ 0 ∧ kp.logic.nextStrobe ≤ host.cycles) ∨
    (s.IsWake ∧ kp.logic.nextStrobe ≠ 0 ∧ kp.logic.nextStrobe ≤ host.cycles) ∧
      (kp.step host s).logic.nextStrobe
        = nextRepeat host.cycles (repeatPeriodFrames * kp.frameCycles) kp.logic.nextStrobe := by
  -- a wake moves the strobe on if it is due; every other step keeps it or clears it
  have hthink : ∀ kp' : Keyboard, kp' = kp.keyboardAbiThink host → s.IsWake →
      kp'.logic.nextStrobe = kp.logic.nextStrobe ∧
        ¬ (s.IsWake ∧ kp.logic.nextStrobe ≠ 0 ∧ kp.logic.nextStrobe ≤ host.cycles) ∨
      (s.IsWake ∧ kp.logic.nextStrobe ≠ 0 ∧ kp.logic.nextStrobe ≤ host.cycles) ∧
        kp'.logic.nextStrobe
          = nextRepeat host.cycles (repeatPeriodFrames * kp.frameCycles) kp.logic.nextStrobe := by
    rintro _ rfl hwake
    by_cases hdue : kp.logic.nextStrobe ≠ 0 ∧ kp.logic.nextStrobe ≤ host.cycles
    · refine .inr ⟨⟨hwake, hdue⟩, ?_⟩
      rw [keyboardAbiThink_due h.armed hdue.1 hdue.2, if_pos hmachine]
      rfl
    · exact .inl ⟨by rw [keyboardAbiThink_idle (by omega)], fun hs => hdue hs.2⟩
  cases s with
  | command cmdId data =>
    have hwake : ¬ (KeyboardStep.command cmdId data).IsWake := by
      rintro (hs | hs) <;> cases hs
    rcases kp.step_command host cmdId data with ⟨_, _, -, hdown⟩ | ⟨down, hstep, -⟩ |
      ⟨hstep | hstep | ⟨hostKey, hstep⟩, -⟩
    · exact absurd hdown hpress
    · refine .inr (.inl ⟨?_, fun hs => hwake hs.1⟩)
      rw [hstep, setRept]
      dsimp only
      rw [if_pos hmachine]
    · exact .inr (.inl ⟨by rw [hstep], fun hs => hwake hs.1⟩)
    · exact .inl (by rw [hstep]; rfl)
    · rw [hstep, releaseKey]
      dsimp only
      split_ifs
      · exact .inl rfl
      · exact .inr (.inl ⟨rfl, fun hs => hwake hs.1⟩)
  | reset => exact .inl rfl
  | service => exact .inr (hthink _ (serviceEvents_eq h host) (.inl rfl))
  | think => exact .inr (hthink _ rfl (.inr rfl))
  | strobe bus => exact .inr (.inl ⟨rfl, by rintro ⟨hs | hs, -⟩ <;> cases hs⟩)

/-- The machine stays as it is, and its video standard. -/
theorem step_machine (kp : Keyboard) (host : HostClock) (s : KeyboardStep) :
    (kp.step host s).machine = kp.machine ∧
      (kp.step host s).hostFrameCycles = kp.hostFrameCycles := by
  have hthink (kp : Keyboard) : (kp.keyboardAbiThink host).machine = kp.machine ∧
      (kp.keyboardAbiThink host).hostFrameCycles = kp.hostFrameCycles := by
    unfold keyboardAbiThink
    split_ifs <;> exact ⟨rfl, rfl⟩
  cases s with
  | command cmdId data =>
    rcases kp.step_command host cmdId data with ⟨hostKey, code, hstep, -⟩ | ⟨down, hstep, -⟩ |
      ⟨hstep | hstep | ⟨hostKey, hstep⟩, -⟩ <;> rw [hstep]
    · unfold pressKey
      dsimp only
      split_ifs <;> exact ⟨rfl, rfl⟩
    · unfold setRept
      dsimp only
      split_ifs <;> exact ⟨rfl, rfl⟩
    · exact ⟨rfl, rfl⟩
    · exact ⟨rfl, rfl⟩
    · unfold releaseKey
      dsimp only
      split_ifs <;> exact ⟨rfl, rfl⟩
  | reset => exact ⟨rfl, rfl⟩
  | service =>
    change (kp.serviceEvents host).machine = _ ∧ (kp.serviceEvents host).hostFrameCycles = _
    unfold serviceEvents
    split
    · split_ifs
      · exact hthink _
      · exact ⟨rfl, rfl⟩
    · exact ⟨rfl, rfl⟩
  | think => exact hthink kp
  | strobe bus => exact ⟨rfl, rfl⟩

theorem run_machine (kp : Keyboard) (steps : List (HostClock × KeyboardStep)) :
    (kp.run steps).machine = kp.machine ∧ (kp.run steps).hostFrameCycles = kp.hostFrameCycles := by
  induction steps generalizing kp with
  | nil => exact ⟨rfl, rfl⟩
  | cons s steps ih =>
    obtain ⟨hmachine, hframes⟩ := kp.step_machine s.1 s.2
    exact ⟨(ih _).1.trans hmachine, (ih _).2.trans hframes⟩

theorem frameCycles_congr {kp' : Keyboard} (h : kp'.hostFrameCycles = kp.hostFrameCycles) :
    kp'.frameCycles = kp.frameCycles := by
  unfold frameCycles
  rw [h]

/-- **The next strobe is in the phase of a first repeat**, if there is to be one. -/
def InPhase (kp : Keyboard) (first : Nat) : Prop :=
  kp.logic.nextStrobe ≠ 0 →
    ∃ n, kp.logic.nextStrobe = first + n * (repeatPeriodFrames * kp.frameCycles)

/-- No step of a run raises the strobe. It is how the statements say that a repeat is the next one
and none comes in between. -/
def RaisesNone (kp : Keyboard) : List (HostClock × KeyboardStep) → Prop
  | [] => True
  | s :: steps => ¬ kp.Raises s.1 s.2 ∧ (kp.step s.1 s.2).RaisesNone steps

variable {first : Nat}

/-- **Without a press a //e stays in phase.** -/
theorem InPhase.step (hphase : kp.InPhase first) (h : kp.Follows)
    (hmachine : kp.machine = .apple2e) (hpress : ¬ s.IsPress) : (kp.step host s).InPhase first := by
  intro hset
  rw [frameCycles_congr (kp.step_machine host s).2]
  rcases nextStrobe_step host h hmachine hpress with hgone | ⟨hkept, -⟩ | ⟨hdue, hnext⟩
  · exact absurd hgone hset
  · rw [hkept] at hset ⊢
    exact hphase hset
  · obtain ⟨n, hn⟩ := hphase hdue.2.1
    obtain ⟨m, -, hm, -⟩ := nextRepeat_spec host.cycles kp.logic.nextStrobe
      (Nat.mul_pos (by decide : 0 < repeatPeriodFrames) kp.frameCycles_pos)
    exact ⟨n + m, by rw [hnext, hm, hn, Nat.add_mul, Nat.add_assoc]⟩

theorem InPhase.run (hphase : kp.InPhase first) (h : kp.Follows) (hmachine : kp.machine = .apple2e)
    {steps : List (HostClock × KeyboardStep)} (hpress : ∀ s ∈ steps, ¬ s.2.IsPress) :
    (kp.run steps).InPhase first := by
  induction steps generalizing kp with
  | nil => exact hphase
  | cons s steps ih =>
    exact ih (hphase.step h hmachine (hpress s (List.mem_cons_self ..))) (h.step s.1 s.2)
      ((kp.step_machine s.1 s.2).1.trans hmachine) fun s hs => hpress s (List.mem_cons_of_mem _ hs)

/-- **Before the first repeat a //e waits for it.** -/
theorem run_first (hfirst : kp.logic.nextStrobe = 0 ∨ kp.logic.nextStrobe = first) (h : kp.Follows)
    (hmachine : kp.machine = .apple2e) {steps : List (HostClock × KeyboardStep)}
    (hpress : ∀ s ∈ steps, ¬ s.2.IsPress) (hquiet : kp.RaisesNone steps) :
    (kp.run steps).logic.nextStrobe = 0 ∨ (kp.run steps).logic.nextStrobe = first := by
  induction steps generalizing kp with
  | nil => exact hfirst
  | cons s steps ih =>
    obtain ⟨hraises, hquiet⟩ := hquiet
    refine ih ?_ (h.step s.1 s.2) ((kp.step_machine s.1 s.2).1.trans hmachine)
      (fun s hs => hpress s (List.mem_cons_of_mem _ hs)) hquiet
    rcases nextStrobe_step s.1 h hmachine (hpress s (List.mem_cons_self ..)) with
      hgone | ⟨hkept, -⟩ | ⟨hdue, -⟩
    · exact .inl hgone
    · rw [hkept]
      exact hfirst
    · exact absurd ((raises_iff h).2 (.inr (.inr hdue))) hraises

/-- A press of a //e arms it for the first repeat. -/
theorem nextStrobe_press (host : HostClock) (hmachine : kp.machine = .apple2e) (hpress : s.IsPress) :
    (kp.step host s).logic.nextStrobe = firstRepeat host.cycles kp.frameCycles := by
  obtain ⟨hostKey, code, isDown, rfl, hcode, hdown⟩ := hpress
  have hstep : kp.step host (.command keyboardCmdKey (.key hostKey code isDown))
      = kp.pressKey host hostKey code := by
    simp [step, keyboardAbiCommand, UInt8.not_lt.2 hcode, hdown]
  rw [hstep, pressKey]
  dsimp only
  rw [if_pos hmachine]
  rfl

/-- **A wake-up that is due moves the next strobe of a //e on by whole periods**, to the first
that is still to come. -/
theorem wake_moves (h : kp.Follows) (hmachine : kp.machine = .apple2e) (hwake : s.IsWake)
    (hraises : kp.Raises host s) :
    ∃ n, 0 < n ∧ (kp.step host s).logic.nextStrobe
        = kp.logic.nextStrobe + n * (repeatPeriodFrames * kp.frameCycles) ∧
      host.cycles < (kp.step host s).logic.nextStrobe ∧
      (kp.step host s).logic.nextStrobe ≤ host.cycles + repeatPeriodFrames * kp.frameCycles := by
  have hnoPress : ¬ s.IsPress := by
    rintro ⟨_, _, _, rfl, -⟩
    rcases hwake with hs | hs <;> cases hs
  have hnoRept : ¬ s.IsRept := by
    rintro ⟨_, rfl, -⟩
    rcases hwake with hs | hs <;> cases hs
  have hdue : s.IsWake ∧ kp.logic.nextStrobe ≠ 0 ∧ kp.logic.nextStrobe ≤ host.cycles := by
    rcases (raises_iff h).1 hraises with hpress | ⟨hrept, -⟩ | hdue
    · exact absurd hpress hnoPress
    · exact absurd hrept hnoRept
    · exact hdue
  obtain ⟨n, hn, hmoved, hafter, hsoon⟩ :=
    nextRepeat_spec host.cycles kp.logic.nextStrobe
      (Nat.mul_pos (by decide : 0 < repeatPeriodFrames) kp.frameCycles_pos)
  rcases nextStrobe_step host h hmachine hnoPress with hgone | ⟨-, hidle⟩ | ⟨-, hnext⟩
  · -- a wake-up that raises the strobe arms the card again
    have hstill := (h.step host s).armed
    have hthink : kp.step host s = kp.keyboardAbiThink host := by
      rcases hwake with rfl | rfl
      · exact serviceEvents_eq h host
      · rfl
    rw [hthink, keyboardAbiThink_due h.armed hdue.2.1 hdue.2.2, if_pos hmachine] at hgone
    change nextRepeat _ _ _ = 0 at hgone
    omega
  · exact absurd hdue hidle
  · rw [hnext]
    exact ⟨n, hn, hmoved, hafter, hsoon hdue.2.2⟩

/-- **The repeats after a press of a //e**: the first is at a multiple of the phase more than
31 frames after it, and the others are in its phase. -/
theorem repeats_after_press (h : kp.Follows) (hmachine : kp.machine = .apple2e) (hpress : s.IsPress)
    {later : List (HostClock × KeyboardStep)} (hlater : ∀ s ∈ later, ¬ s.2.IsPress)
    (hset : ((kp.step host s).run later).logic.nextStrobe ≠ 0) :
    ∃ first, repeatPhaseFrames * kp.frameCycles ∣ first ∧
      host.cycles + (repeatDelayFrames - 1) * kp.frameCycles < first ∧
      ((kp.step host s).RaisesNone later → ((kp.step host s).run later).logic.nextStrobe = first) ∧
      ∃ n, ((kp.step host s).run later).logic.nextStrobe
        = first + n * (repeatPeriodFrames * kp.frameCycles) := by
  obtain ⟨hdvd, hlong⟩ := firstRepeat_spec host.cycles kp.frameCycles_pos
  have hnext := nextStrobe_press host hmachine hpress
  have hafter := kp.step_machine host s
  have hframe : ((kp.step host s).run later).frameCycles = kp.frameCycles :=
    frameCycles_congr ((run_machine _ later).2.trans hafter.2)
  refine ⟨_, hdvd, hlong, fun hquiet => ?_, ?_⟩
  · exact (run_first (.inr hnext) (h.step host s) (hafter.1.trans hmachine) hlater
      hquiet).resolve_left hset
  · have hphase : (kp.step host s).InPhase (firstRepeat host.cycles kp.frameCycles) :=
      fun _ => ⟨0, by rw [hnext, Nat.zero_mul, Nat.add_zero]⟩
    have hrun := hphase.run (h.step host s) (hafter.1.trans hmachine) hlater hset
    rwa [hframe] at hrun

/-! ## The card has the keys that the steps say -/

theorem keys_letGo (h : HeldKeys) (key : UInt32) :
    (h.letGo key).keys = h.keys.filter (· ≠ key) := by
  show h.keys.erase key = _
  rw [h.nodup.erase_eq_filter]
  exact List.filter_congr fun k _ => by by_cases hk : k = key <;> simp [hk]

theorem keys_hold (h : HeldKeys) (key : UInt32) : (h.hold key).keys
    = if key ∈ h.keys then h.keys
      else (h.keys ++ [key]).drop (h.keys.length + 1 - heldKeyCapacity) := by
  have hle := h.length_le
  unfold HeldKeys.hold
  split_ifs with hkey hfull
  · rfl
  · have hne : h.keys ≠ [] := by
      intro hnil
      rw [hnil] at hfull
      exact absurd hfull (by decide)
    rw [hfull, Nat.add_sub_cancel_left, List.drop_one, List.tail_append_of_ne_nil hne]
  · rw [show h.keys.length + 1 - heldKeyCapacity = 0 by omega]
    rfl

theorem held_pressKey (kp : Keyboard) (host : HostClock) (hostKey : UInt32) (code : UInt8) :
    (kp.pressKey host hostKey code).logic.held = kp.logic.held.hold hostKey ∧
      (kp.pressKey host hostKey code).logic.reptDown = kp.logic.reptDown := by
  unfold pressKey
  dsimp only
  split_ifs <;> exact ⟨rfl, rfl⟩

theorem held_releaseKey (kp : Keyboard) (hostKey : UInt32) :
    (kp.releaseKey hostKey).logic.held = kp.logic.held.letGo hostKey ∧
      (kp.releaseKey hostKey).logic.reptDown = kp.logic.reptDown := by
  unfold releaseKey
  dsimp only
  split_ifs <;> exact ⟨rfl, rfl⟩

theorem held_setRept (kp : Keyboard) (host : HostClock) (down : Bool) :
    (kp.setRept host down).logic.held = kp.logic.held ∧
      (kp.setRept host down).logic.reptDown = down := by
  unfold setRept
  dsimp only
  split_ifs <;> exact ⟨rfl, rfl⟩

theorem held_keyboardAbiThink (kp : Keyboard) (host : HostClock) :
    (kp.keyboardAbiThink host).logic.held = kp.logic.held ∧
      (kp.keyboardAbiThink host).logic.reptDown = kp.logic.reptDown := by
  unfold keyboardAbiThink
  split_ifs <;> exact ⟨rfl, rfl⟩

theorem held_serviceEvents (kp : Keyboard) (host : HostClock) :
    (kp.serviceEvents host).logic.held = kp.logic.held ∧
      (kp.serviceEvents host).logic.reptDown = kp.logic.reptDown := by
  unfold serviceEvents
  split
  · split_ifs
    · exact held_keyboardAbiThink { kp with event := none } host
    · exact ⟨rfl, rfl⟩
  · exact ⟨rfl, rfl⟩

/-- A command changes the card's keys as it changes those the steps tell of. -/
theorem held_command (kp : Keyboard) (host : HostClock) (cmdId : UInt32) (data : KeyboardData) :
    (kp.step host (.command cmdId data)).logic.held.keys
        = KeyboardStep.heldAfter kp.logic.held.keys (.command cmdId data) ∧
      (kp.step host (.command cmdId data)).logic.reptDown
        = KeyboardStep.reptAfter kp.logic.reptDown (.command cmdId data) := by
  unfold step keyboardAbiCommand KeyboardStep.heldAfter KeyboardStep.reptAfter
  -- a payload of the wrong shape is dropped, and so is an identifier that fits none of the three
  cases data with
  | key hostKey code isDown =>
    dsimp only
    by_cases hkey : cmdId = keyboardCmdKey
    · rw [if_pos hkey]
      by_cases hcode : keyCodeMask < code
      · rw [if_pos hcode, if_pos (Or.inr hcode)]
        exact ⟨rfl, rfl⟩
      · have hvalid : ¬ (cmdId ≠ keyboardCmdKey ∨ keyCodeMask < code) :=
          fun h => h.elim (fun hne => hne hkey) hcode
        rw [if_neg hcode, if_neg hvalid]
        by_cases hup : isDown = 0
        · rw [if_pos hup, if_pos hup]
          obtain ⟨hheld, hrept⟩ := kp.held_releaseKey hostKey
          exact ⟨(congrArg HeldKeys.keys hheld).trans (keys_letGo _ _), hrept⟩
        · rw [if_neg hup, if_neg hup]
          obtain ⟨hheld, hrept⟩ := kp.held_pressKey host hostKey code
          exact ⟨(congrArg HeldKeys.keys hheld).trans (keys_hold _ _), hrept⟩
    · rw [if_neg hkey, if_pos (Or.inl hkey)]
      split_ifs <;> exact ⟨rfl, rfl⟩
  | none =>
    dsimp only
    by_cases hall : cmdId = keyboardCmdReleaseAll
    · rw [hall]
      exact ⟨rfl, rfl⟩
    · rw [if_neg hall, if_neg hall]
      split_ifs <;> exact ⟨rfl, rfl⟩
  | byte down =>
    dsimp only
    by_cases hrept : cmdId = keyboardCmdRept
    · rw [hrept]
      obtain ⟨hheld, hdown⟩ := kp.held_setRept host (down ≠ 0)
      exact ⟨congrArg HeldKeys.keys hheld, hdown⟩
    · rw [if_neg hrept, if_neg hrept]
      split_ifs <;> exact ⟨rfl, rfl⟩
  | other =>
    dsimp only
    split_ifs <;> exact ⟨rfl, rfl⟩

theorem held_step (kp : Keyboard) (host : HostClock) (s : KeyboardStep) :
    (kp.step host s).logic.held.keys = s.heldAfter kp.logic.held.keys ∧
      (kp.step host s).logic.reptDown = s.reptAfter kp.logic.reptDown := by
  cases s with
  | command cmdId data => exact kp.held_command host cmdId data
  | reset => exact ⟨rfl, rfl⟩
  | service =>
    obtain ⟨hheld, hrept⟩ := kp.held_serviceEvents host
    exact ⟨congrArg HeldKeys.keys hheld, hrept⟩
  | think =>
    obtain ⟨hheld, hrept⟩ := kp.held_keyboardAbiThink host
    exact ⟨congrArg HeldKeys.keys hheld, hrept⟩
  | strobe bus => exact ⟨rfl, rfl⟩

/-- **The card holds the keys that the steps say are held**, and knows of REPT what they say. -/
theorem held_run (kp : Keyboard) (steps : List (HostClock × KeyboardStep)) :
    (kp.run steps).logic.held.keys
        = steps.foldl (fun held s => s.2.heldAfter held) kp.logic.held.keys ∧
      (kp.run steps).logic.reptDown
        = steps.foldl (fun rept s => s.2.reptAfter rept) kp.logic.reptDown := by
  induction steps generalizing kp with
  | nil => exact ⟨rfl, rfl⟩
  | cons s steps ih =>
    obtain ⟨hheld, hrept⟩ := kp.held_step s.1 s.2
    obtain ⟨hkeys, hdown⟩ := ih (kp.step s.1 s.2)
    rw [hheld] at hkeys
    rw [hrept] at hdown
    exact ⟨hkeys, hdown⟩

/-! ## The repeats follow the keys -/

/-- **Auto-repeat follows the held keys.** Which keys are held, and whether REPT is, is taken from
the steps (`heldKeys`, `reptHeld`) and not from the card, so a card that did not hear of a press or
of a release would not do. In every run an event is armed exactly when the repeat time is set, and
for that cycle; the time is set exactly while a key is held, on a II with REPT. The strobe is raised
by a press, by REPT alone on the original II, and by a wake-up whose cycle has come, and by nothing
else, so with all keys up only the first two raise it. On a //e the repeats after a press begin at
a multiple of the phase that is more than 31 frames after it, and stay in that phase by whole
periods, each to the first to come, however late the wake-ups are. -/
theorem repeats_follow_keys (machine : PeripheralMachine) (frames : Nat)
    (steps : List (HostClock × KeyboardStep)) :
    let start := new machine frames
    let kp := start.run steps
    kp.event = (if kp.logic.nextStrobe = 0 then none else some kp.logic.nextStrobe) ∧
    (kp.logic.nextStrobe ≠ 0 ↔
      heldKeys steps ≠ [] ∧ (machine ≠ .apple2e → reptHeld steps = true)) ∧
    (∀ host s, kp.Raises host s ↔ s.IsPress ∨
      (s.IsRept ∧ machine = .apple2 ∧ heldKeys steps = []) ∨
      (s.IsWake ∧ kp.logic.nextStrobe ≠ 0 ∧ kp.logic.nextStrobe ≤ host.cycles)) ∧
    (∀ host s, heldKeys steps = [] → kp.Raises host s →
      s.IsPress ∨ s.IsRept ∧ machine = .apple2) ∧
    (machine = .apple2e → ∀ before host press later, steps = before ++ (host, press) :: later →
      press.IsPress → (∀ s ∈ later, ¬ s.2.IsPress) → heldKeys steps ≠ [] →
      ∃ first, repeatPhaseFrames * start.frameCycles ∣ first ∧
        host.cycles + (repeatDelayFrames - 1) * start.frameCycles < first ∧
        ((start.run (before ++ [(host, press)])).RaisesNone later → kp.logic.nextStrobe = first) ∧
        ∃ n, kp.logic.nextStrobe = first + n * (repeatPeriodFrames * start.frameCycles)) ∧
    (machine = .apple2e → ∀ host s, s.IsWake → kp.Raises host s →
      ∃ n, 0 < n ∧ (kp.step host s).logic.nextStrobe
          = kp.logic.nextStrobe + n * (repeatPeriodFrames * start.frameCycles) ∧
        host.cycles < (kp.step host s).logic.nextStrobe ∧
        (kp.step host s).logic.nextStrobe
          ≤ host.cycles + repeatPeriodFrames * start.frameCycles) := by
  intro start kp
  -- the invariant of the run: the pending event is the next strobe, which is set just while a key
  -- repeats; the keys are those the steps themselves have left down
  have h : kp.Follows := (Follows.new machine frames).run steps
  obtain ⟨hkp, hframes⟩ : kp.machine = machine ∧ kp.hostFrameCycles = start.hostFrameCycles :=
    start.run_machine steps
  obtain ⟨hheld, hrept⟩ : kp.logic.held.keys = heldKeys steps ∧ kp.logic.reptDown = reptHeld steps :=
    start.held_run steps
  have hframe : kp.frameCycles = start.frameCycles := frameCycles_congr hframes
  have harmed : kp.logic.nextStrobe ≠ 0 ↔
      heldKeys steps ≠ [] ∧ (machine ≠ .apple2e → reptHeld steps = true) := by
    rw [h.armed, Repeats, hkp, hheld, hrept]
  have hraise (host : HostClock) (s : KeyboardStep) : kp.Raises host s ↔ s.IsPress ∨
      (s.IsRept ∧ machine = .apple2 ∧ heldKeys steps = []) ∨
      (s.IsWake ∧ kp.logic.nextStrobe ≠ 0 ∧ kp.logic.nextStrobe ≤ host.cycles) := by
    rw [raises_iff h, hkp, hheld]
  refine ⟨h.event, harmed, hraise, fun host s hkeys hraises => ?_, ?_, ?_⟩
  · rcases (hraise host s).1 hraises with hpress | ⟨hdown, hmachine, -⟩ | ⟨-, hset, -⟩
    · exact .inl hpress
    · exact .inr ⟨hdown, hmachine⟩
    · exact absurd hkeys (harmed.1 hset).1
  · intro hmachine before host press later hsteps hpress hlater hkeys
    have hset : kp.logic.nextStrobe ≠ 0 := harmed.2 ⟨hkeys, fun hother => absurd hmachine hother⟩
    obtain ⟨hm, hf⟩ := start.run_machine before
    have hpressed : start.run (before ++ [(host, press)]) = (start.run before).step host press := by
      simp [run, List.foldl_append]
    have hrun : kp = ((start.run before).step host press).run later := by
      change start.run steps = _
      rw [hsteps]
      simp [run, List.foldl_append]
    rw [hrun] at hset
    rw [hpressed, hrun, ← frameCycles_congr hf]
    exact repeats_after_press ((Follows.new machine frames).run before) (hm.trans hmachine) hpress
      hlater hset
  · intro hmachine host s hwake hraises
    rw [← hframe]
    exact wake_moves h (hkp.trans hmachine) hwake hraises

end Keyboard

end LinApple.Cards
