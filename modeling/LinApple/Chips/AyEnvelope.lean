import LinApple.Chips.Ay8910
import LinApple.Lib.Bytes
import Mathlib.Algebra.GroupWithZero.Nat

/-!
# The envelope of the AY-3-8910

The shape in register 13 has four bits, and what they say of the envelope is said here step by
step: after `k` steps it goes up or down (`attackAt`), it is so far on its way (`stepAt`), or it
holds (`holdsAt`). The level that comes to is the one the data sheet draws for the shape
(`sheetLevel_eq`).

A tick of the chip brings the next step nearer or takes it (`tick_eq`), so the envelope is where
its ticks say (`EnvelopeAfter`), however they are cut into calls.

There are three accounts of the envelope, and they are needed apart. The data sheet draws a
picture: a level for each step, which repeats, turns round or stays. The chip has a counter, a
direction and a flag, and changes them at a step. The functions of `k` are in between; they tell
the chip's fields after any number of steps without running it, so that the chip's account is
proved by induction over steps, and the sheet's from the functions by cases over the sixteen
shapes. That is the only place where shapes are told apart.

The write of register 13 may come at any time, to a chip in any state, since it starts the
envelope anew; this is why the theorem asks nothing of the chip before it. What comes behind may
be any calls that leave the registers of the envelope alone, writes of the other registers among
them. The period is that of registers 11 and 12, and zero is taken for one, as on the chip.

The second half of the theorem, `LevelSound`, is what a save state rests on: the level can always
be told from the step and the direction, from a reset on and whatever is written.
-/

namespace LinApple.Chips

open Byte

/-! ## The data sheet -/

/-- The shape goes on after its first ramp. -/
def continues (shape : UInt8) : Bool := shape &&& 0x08 ≠ 0
/-- The first ramp goes up. -/
def attacks (shape : UInt8) : Bool := shape &&& 0x04 ≠ 0
/-- Every ramp but the first turns. -/
def alternates (shape : UInt8) : Bool := shape &&& 0x02 ≠ 0
/-- The first ramp is the last. -/
def holds (shape : UInt8) : Bool := shape &&& 0x01 ≠ 0

/-- A ramp of sixteen levels, after `k` steps. -/
def ramp (up : Bool) (k : Nat) : Nat := if up then k % 16 else 15 - k % 16

/-- **The envelope of the data sheet**: the level of a shape after `k` steps. -/
def sheetLevel (shape : UInt8) (k : Nat) : Nat :=
  if k < 16 then ramp (attacks shape) k
  else if shape ≤ 7 then 0
  else if shape = 8 ∨ shape = 12 then ramp (attacks shape) k
  else if shape = 10 ∨ shape = 14 then ramp (attacks shape != decide (k / 16 % 2 = 1)) k
  else if shape = 9 ∨ shape = 15 then 0
  else 15

/-- The period in registers 11 and 12, zero acting as one: half the ticks of a step. -/
def envelopePeriod (fine coarse : UInt8) : Nat := max 1 (coarse.toNat * 256 + fine.toNat)

/-! ### Where the envelope is -/

/-- After `k` steps a shape holds. -/
def holdsAt (shape : UInt8) (k : Nat) : Bool := decide (16 ≤ k) && (!continues shape || holds shape)

/-- After `k` steps the envelope goes up. -/
def attackAt (shape : UInt8) (k : Nat) : Bool :=
  attacks shape !=
    (continues shape && alternates shape && !holds shape && decide (k / 16 % 2 = 1))

/-- The level that a shape holds. -/
def heldLevel (shape : UInt8) : Nat :=
  if continues shape && attacks shape != alternates shape then 15 else 0

/-- How far the envelope is on its way after `k` steps. -/
def stepAt (shape : UInt8) (k : Nat) : Nat :=
  if holdsAt shape k then
    if attackAt shape k then heldLevel shape else 15 - heldLevel shape
  else k % 16

theorem stepAt_le (shape : UInt8) (k : Nat) : stepAt shape k ≤ 15 := by
  unfold stepAt heldLevel
  split_ifs <;> omega

/-- The names of the shapes, by their bits. -/
theorem shape_bits : ∀ shape : UInt8, shape &&& 0x0F = shape →
    (shape ≤ 7 ↔ continues shape = false)
    ∧ (shape = 8 ∨ shape = 12 ↔
      continues shape = true ∧ holds shape = false ∧ alternates shape = false)
    ∧ (shape = 10 ∨ shape = 14 ↔
      continues shape = true ∧ holds shape = false ∧ alternates shape = true)
    ∧ (shape = 9 ∨ shape = 15 ↔
      continues shape = true ∧ holds shape = true ∧ attacks shape = alternates shape) :=
  forall_byte (by decide +kernel)

/-- **The level that the step and the direction imply is the data sheet's.** -/
theorem sheetLevel_eq {shape : UInt8} (hshape : shape &&& 0x0F = shape) (k : Nat) :
    sheetLevel shape k
      = if attackAt shape k then stepAt shape k else 15 - stepAt shape k := by
  obtain ⟨hsilent, hrepeat, hturn, hhold⟩ := shape_bits shape hshape
  have hfirst (hk : k < 16) : k / 16 % 2 = 0 := by omega
  unfold sheetLevel stepAt attackAt heldLevel holdsAt ramp
  simp only [hsilent, hrepeat, hturn, hhold]
  by_cases hk : k < 16
  · simp [hk, hfirst hk, Nat.not_le.2 hk]
  · cases continues shape <;> cases holds shape <;> cases alternates shape <;>
      cases attacks shape <;> simp [hk, Nat.le_of_not_lt hk]

namespace Ay8910

variable {p : Ay8910}

/-! ## The chip -/

/-- **The level the chip has is the one its step and its direction imply.** The chip keeps all
three. That every call leaves them in agreement is what lets the level be read off the step. -/
structure LevelSound (p : Ay8910) : Prop where
  /-- The step is one of sixteen. -/
  step_le : p.envelopeStep ≤ 15
  /-- The level is the step's, up or down. -/
  vol_eq : p.envelopeVol = (if p.envAttack then p.envelopeStep else 15 - p.envelopeStep).toUInt8

theorem levelSound_new : new.LevelSound := ⟨by decide, by decide⟩

/-- A fresh level is sound. -/
theorem LevelSound.refresh (h : p.envelopeStep ≤ 15) : p.refreshEnvelopeVol.LevelSound := ⟨h, rfl⟩

/-- A step leaves a sound level. -/
theorem LevelSound.stepEnvelope (cont alt hold : Bool) : (p.stepEnvelope cont alt hold).LevelSound := by
  have hheld (q : Ay8910) (amplitude : UInt32) (ha : amplitude = 15 ∨ amplitude = 0) :
      (q.holdAt amplitude).envelopeStep ≤ 15 := by
    unfold holdAt
    rcases ha with rfl | rfl <;> dsimp only <;> split_ifs <;> decide
  unfold Ay8910.stepEnvelope
  dsimp only
  split_ifs with hstep
  · exact .refresh hstep
  · exact .refresh (hheld _ _ (.inr rfl))
  · exact .refresh (hheld _ _ (.inl rfl))
  · exact .refresh (hheld _ _ (.inr rfl))
  · exact .refresh (UInt32.zero_le)
  · exact .refresh (UInt32.zero_le)

/-- The divider of `ay8910_step` that the envelope's counter reaches. -/
def envDiv (p : Ay8910) : UInt32 :=
  2 * (if (p.regs 11).toUInt32 ||| ((p.regs 12).toUInt32 <<< (8 : UInt32)) ≠ 0 then
    (p.regs 11).toUInt32 ||| ((p.regs 12).toUInt32 <<< (8 : UInt32)) else 1)

/-- The envelope's part of two chips is the same. -/
structure SameEnvelope (p q : Ay8910) : Prop where
  /-- The registers. -/
  regs : q.regs = p.regs
  /-- `count_e` -/
  countE : q.countE = p.countE
  /-- `envelope_step` -/
  envelopeStep : q.envelopeStep = p.envelopeStep
  /-- `envelope_vol` -/
  envelopeVol : q.envelopeVol = p.envelopeVol
  /-- `env_holding` -/
  envHolding : q.envHolding = p.envHolding
  /-- `env_attack` -/
  envAttack : q.envAttack = p.envAttack

/-- What a tick does to the voices. -/
def tickVoices (p : Ay8910) : Ay8910 :=
  let noiseReg := (p.regs 6 &&& 0x1F).toUInt32
  let noiseDiv := 2 * (if noiseReg ≠ 0 then noiseReg else 1)
  let p := { p with
    tone := fun v => stepTone (p.tone v) <| match v with
      | 0 => tonePeriod (p.regs 0) (p.regs 1)
      | 1 => tonePeriod (p.regs 2) (p.regs 3)
      | 2 => tonePeriod (p.regs 4) (p.regs 5) }
  let p := { p with countN := p.countN + 1 }
  if p.countN ≥ noiseDiv then { p with countN := 0 }.advanceNoise else p

/-- The voices leave the envelope alone. -/
theorem sameEnvelope_tickVoices (p : Ay8910) : p.SameEnvelope p.tickVoices := by
  unfold tickVoices
  dsimp only
  split_ifs <;> exact ⟨rfl, rfl, rfl, rfl, rfl, rfl⟩

/-- **A tick**: the voices, and then the envelope holds, takes a step, or comes nearer
to one. -/
theorem tick_eq (p : Ay8910) : p.tick
    = if p.tickVoices.envHolding then p.tickVoices
      else if p.tickVoices.countE + 1 ≥ p.envDiv then
        { p.tickVoices with countE := 0 }.stepEnvelope (continues (p.regs 13))
          (alternates (p.regs 13)) (holds (p.regs 13))
      else { p.tickVoices with countE := p.tickVoices.countE + 1 } := rfl

/-- A tick leaves a sound level. -/
theorem LevelSound.tick (h : p.LevelSound) : p.tick.LevelSound := by
  have hsame := p.sameEnvelope_tickVoices
  have hvoices : p.tickVoices.LevelSound := by
    refine ⟨hsame.envelopeStep ▸ h.step_le, ?_⟩
    rw [hsame.envelopeVol, hsame.envelopeStep, hsame.envAttack]
    exact h.vol_eq
  rw [tick_eq]
  split_ifs
  · exact hvoices
  · exact .stepEnvelope ..
  · exact ⟨hvoices.step_le, hvoices.vol_eq⟩

/-- So does a register. -/
theorem LevelSound.write (h : p.LevelSound) (reg : Fin 16) (val : UInt8) :
    (p.ay8910Write reg val).LevelSound := by
  unfold ay8910Write
  split
  case h_8 => exact .refresh (UInt32.zero_le)
  all_goals exact ⟨h.step_le, h.vol_eq⟩

/-! ## Steps of the envelope -/

variable {shape : UInt8} {k : Nat}

/-- A shape that holds goes on holding. -/
theorem holdsAt_mono {l : Nat} (h : holdsAt shape k = true) (hle : k ≤ l) :
    holdsAt shape l = true := by
  simp only [holdsAt, Bool.and_eq_true, decide_eq_true_eq] at h ⊢
  exact ⟨Nat.le_trans h.1 hle, h.2⟩

/-- **The envelope is where `k` steps of the shape bring it.** -/
structure EnvelopeAt (shape : UInt8) (k : Nat) (p : Ay8910) : Prop where
  /-- It holds, or it does not. -/
  holding : p.envHolding = holdsAt shape k
  /-- It goes up, or down. -/
  attack : p.envAttack = attackAt shape k
  /-- It is so far on its way. -/
  step : p.envelopeStep.toNat = stepAt shape k
  /-- The level is the one these imply. -/
  level : p.LevelSound

/-- **There the level is the data sheet's.** -/
theorem EnvelopeAt.vol (h : p.EnvelopeAt shape k) (hshape : shape &&& 0x0F = shape) :
    p.envelopeVol.toNat = sheetLevel shape k := by
  have hle := stepAt_le shape k
  have hfalling : (15 - p.envelopeStep).toNat = 15 - stepAt shape k := by
    rw [UInt32.toNat_sub_of_le _ _ h.level.step_le, h.step]
    rfl
  rw [sheetLevel_eq hshape, h.level.vol_eq, h.attack]
  cases attackAt shape k with
  | true =>
    simp only [if_true, UInt32.toNat_toUInt8, h.step]
    omega
  | false =>
    simp only [Bool.false_eq_true, if_false, UInt32.toNat_toUInt8, hfalling]
    omega

/-- Where a shape holds, more steps change nothing. -/
theorem EnvelopeAt.held {l : Nat} (h : p.EnvelopeAt shape k) (hhold : holdsAt shape k = true)
    (hle : k ≤ l) : p.EnvelopeAt shape l := by
  have hlater := holdsAt_mono hhold hle
  have hattack : attackAt shape l = attackAt shape k := by
    have hlast := (Bool.and_eq_true _ _ ▸ hhold).2
    unfold attackAt
    revert hlast
    cases continues shape <;> cases holds shape <;> simp
  refine ⟨h.holding.trans (hhold.trans hlater.symm), h.attack.trans hattack.symm, ?_, h.level⟩
  rw [h.step, stepAt, stepAt, if_pos hhold, if_pos hlater, hattack]

/-- Inside a ramp the direction stays. -/
theorem attackAt_succ_of_lt (h : k % 16 < 15) : attackAt shape (k + 1) = attackAt shape k := by
  have hsame : (k + 1) / 16 = k / 16 := by omega
  unfold attackAt
  rw [hsame]

/-- At its end it turns, if the shape does. -/
theorem attackAt_succ_of_eq (h : k % 16 = 15) : attackAt shape (k + 1)
    = (attackAt shape k != (continues shape && alternates shape && !holds shape)) := by
  have hnext : (k + 1) / 16 = k / 16 + 1 := by omega
  have hodd : decide ((k / 16 + 1) % 2 = 1) = !decide (k / 16 % 2 = 1) := by
    rw [← decide_not, decide_eq_decide]
    omega
  unfold attackAt
  rw [hnext, hodd]
  cases attacks shape <;> cases continues shape <;> cases alternates shape <;>
    cases holds shape <;> simp

/-- **A step of the envelope.** -/
theorem EnvelopeAt.stepEnvelope (h : p.EnvelopeAt shape k) (hrun : holdsAt shape k = false) :
    (p.stepEnvelope (continues shape) (alternates shape) (holds shape)).EnvelopeAt shape
      (k + 1) := by
  have hstep : p.envelopeStep.toNat = k % 16 := by
    rw [h.step, stepAt, if_neg (by simp [hrun])]
  have hnext : (p.envelopeStep + 1).toNat = k % 16 + 1 := by
    rw [UInt32.toNat_add, hstep]
    exact Nat.mod_eq_of_lt (by rw [UInt32.toNat_one]; omega)
  have hsound := LevelSound.stepEnvelope (p := p) (continues shape) (alternates shape)
    (holds shape)
  by_cases hlast : k % 16 = 15
  · -- the ramp is over: the shape holds, or the next ramp begins
    have hover : ¬ p.envelopeStep + 1 ≤ 15 := by
      rw [UInt32.le_iff_toNat_le, hnext, hlast]
      decide
    have hholds : holdsAt shape (k + 1) = (!continues shape || holds shape) := by
      unfold holdsAt
      rw [decide_eq_true (by omega : 16 ≤ k + 1), Bool.true_and]
    have hattack : attackAt shape (k + 1) = _ := attackAt_succ_of_eq hlast
    have hstepAt : stepAt shape (k + 1) = if (!continues shape || holds shape) = true then
        (if attackAt shape (k + 1) then heldLevel shape else 15 - heldLevel shape) else 0 := by
      rw [stepAt, hholds, (by omega : (k + 1) % 16 = 0)]
    -- what the shape does at the end of a ramp, by two of its bits
    cases hcont : continues shape with
    | false =>
      have heq : p.stepEnvelope false (alternates shape) (holds shape)
          = (holdAt { p with envelopeStep := p.envelopeStep + 1 } 0).refreshEnvelopeVol :=
        (if_neg hover).trans (if_pos rfl)
      have hheld : heldLevel shape = 0 := by simp [heldLevel, hcont]
      rw [hcont] at hholds hattack hstepAt hsound
      have hsame : attackAt shape (k + 1) = p.envAttack := by simp [hattack, h.attack]
      refine ⟨heq ▸ hholds.symm, heq ▸ hsame.symm, ?_, hsound⟩
      rw [heq, hstepAt, hsame, hheld]
      change (if p.envAttack then (0 : UInt32) else 15 - 0).toNat = if p.envAttack then 0 else 15 - 0
      cases p.envAttack <;> rfl
    | true =>
      rw [hcont] at hholds hattack hstepAt hsound
      cases hhold : holds shape with
      | true =>
        rw [hhold] at hholds hattack hstepAt hsound
        have heq : p.stepEnvelope true (alternates shape) true
            = (holdAt { p with envelopeStep := p.envelopeStep + 1 }
              (if p.envAttack ≠ alternates shape then 15 else 0)).refreshEnvelopeVol :=
          (if_neg hover).trans ((if_neg (by decide)).trans (if_pos rfl))
        have hfirst : p.envAttack = attacks shape := by
          rw [h.attack]
          simp [attackAt, hhold]
        have hsame : attackAt shape (k + 1) = p.envAttack := by simp [hattack, h.attack]
        refine ⟨heq ▸ hholds.symm, heq ▸ hsame.symm, ?_, hsound⟩
        rw [heq, hstepAt, hsame]
        change (if p.envAttack then (if p.envAttack ≠ alternates shape then 15 else 0 : UInt32)
            else 15 - if p.envAttack ≠ alternates shape then 15 else 0).toNat
          = if p.envAttack then heldLevel shape else 15 - heldLevel shape
        rw [heldLevel, hcont, hfirst]
        cases attacks shape <;> cases alternates shape <;> rfl
      | false =>
        rw [hhold] at hholds hattack hstepAt hsound
        have heq : p.stepEnvelope true (alternates shape) false
            = refreshEnvelopeVol { p with
              envelopeStep := 0
              envAttack := if alternates shape then !p.envAttack else p.envAttack } :=
          (if_neg hover).trans ((if_neg (by decide)).trans (if_neg (by decide)))
        refine ⟨?_, ?_, ?_, hsound⟩
        · rw [heq, hholds]
          exact h.holding.trans hrun
        · rw [heq, hattack, ← h.attack]
          change (if alternates shape then !p.envAttack else p.envAttack) = _
          cases alternates shape <;> cases p.envAttack <;> rfl
        · rw [heq, hstepAt]
          rfl
  · have hin : p.envelopeStep + 1 ≤ 15 := by
      rw [UInt32.le_iff_toNat_le, hnext]
      change k % 16 + 1 ≤ 15
      omega
    have heq : p.stepEnvelope (continues shape) (alternates shape) (holds shape)
        = { p with envelopeStep := p.envelopeStep + 1 }.refreshEnvelopeVol := if_pos hin
    have hholds : holdsAt shape (k + 1) = false := by
      rw [← hrun]
      unfold holdsAt
      rw [decide_eq_decide.2 (by omega : 16 ≤ k + 1 ↔ 16 ≤ k)]
    refine ⟨?_, ?_, ?_, hsound⟩
    · rw [heq, hholds]
      exact h.holding.trans hrun
    · rw [heq, attackAt_succ_of_lt (by omega)]
      exact h.attack
    · rw [heq, stepAt, if_neg (by simp [hholds])]
      change (p.envelopeStep + 1).toNat = (k + 1) % 16
      omega

/-! ## The envelope in time -/

/-- **The envelope is where `n` ticks of the shape bring it**, at `d` ticks a step. -/
structure EnvelopeAfter (shape : UInt8) (d n : Nat) (p : Ay8910) : Prop
    extends p.EnvelopeAt shape (n / d) where
  /-- The ticks since the last step. -/
  count : holdsAt shape (n / d) = false → p.countE.toNat = n % d
  /-- Register 13 has the shape. -/
  reg_eq : p.regs 13 = shape
  /-- Registers 11 and 12 have the divider. -/
  div_eq : p.envDiv.toNat = d

/-- A step of the envelope leaves the registers and the counter alone. -/
theorem sameRegs_stepEnvelope (p : Ay8910) (cont alt hold : Bool) :
    (p.stepEnvelope cont alt hold).regs = p.regs
    ∧ (p.stepEnvelope cont alt hold).countE = p.countE := by
  unfold stepEnvelope
  dsimp only
  split_ifs <;> exact ⟨rfl, rfl⟩

/-- Chips with the same envelope are in the same place. -/
theorem EnvelopeAfter.same {d n : Nat} (h : p.EnvelopeAfter shape d n) {q : Ay8910}
    (hsame : p.SameEnvelope q) : q.EnvelopeAfter shape d n where
  holding := hsame.envHolding.trans h.holding
  attack := hsame.envAttack.trans h.attack
  step := hsame.envelopeStep ▸ h.step
  level := by
    refine ⟨hsame.envelopeStep ▸ h.level.step_le, ?_⟩
    rw [hsame.envelopeVol, hsame.envelopeStep, hsame.envAttack]
    exact h.level.vol_eq
  count := fun hrun => hsame.countE ▸ h.count hrun
  reg_eq := by rw [hsame.regs, h.reg_eq]
  div_eq := by
    unfold envDiv
    rw [hsame.regs]
    exact h.div_eq

/-- **A tick of the chip** is one for the envelope. -/
theorem EnvelopeAfter.tick {d n : Nat} (h : p.EnvelopeAfter shape d n) (hd : 0 < d) :
    p.tick.EnvelopeAfter shape d (n + 1) := by
  have hdiv : p.envDiv.toNat = d := h.div_eq
  have hshape : p.regs 13 = shape := h.reg_eq
  have hv := h.same p.sameEnvelope_tickVoices
  rw [tick_eq]
  generalize p.tickVoices = q at hv
  rw [hv.holding]
  -- a holding envelope stands; a running one counts, and steps when the count reaches the period
  by_cases hhold : holdsAt shape (n / d) = true
  · rw [if_pos hhold]
    have hle : n / d ≤ (n + 1) / d := Nat.div_le_div_right (Nat.le_succ n)
    exact ⟨hv.toEnvelopeAt.held hhold hle,
      fun hrun => absurd (holdsAt_mono hhold hle) (by simp [hrun]), hv.reg_eq, hv.div_eq⟩
  have hrun : holdsAt shape (n / d) = false := by simpa using hhold
  have hcount := hv.count hrun
  have hdlt : d < 2 ^ 32 := hdiv ▸ p.envDiv.toNat_lt
  have hmod := Nat.mod_lt n hd
  have hsplit := Nat.div_add_mod n d
  have hnext : (q.countE + 1).toNat = n % d + 1 := by
    rw [UInt32.toNat_add, hcount]
    exact Nat.mod_eq_of_lt (by rw [UInt32.toNat_one]; omega)
  rw [if_neg hhold]
  by_cases hstep : n % d + 1 = d
  · have hover : q.countE + 1 ≥ p.envDiv := by
      rw [ge_iff_le, UInt32.le_iff_toNat_le, hdiv, hnext]
      exact Nat.le_of_eq hstep.symm
    have hwhole : n + 1 = d * (n / d + 1) := by
      rw [Nat.mul_add, Nat.mul_one]
      omega
    have hquot : (n + 1) / d = n / d + 1 := by rw [hwhole, Nat.mul_div_cancel_left _ hd]
    have hrest : (n + 1) % d = 0 := by rw [hwhole, Nat.mul_mod_right]
    have hbefore : EnvelopeAt shape (n / d) { q with countE := 0 } :=
      ⟨hv.holding, hv.attack, hv.step, ⟨hv.level.step_le, hv.level.vol_eq⟩⟩
    have hkept := sameRegs_stepEnvelope { q with countE := 0 } (continues shape)
      (alternates shape) (holds shape)
    rw [if_pos hover, hshape]
    refine ⟨hquot ▸ hbefore.stepEnvelope hrun, fun _ => ?_, ?_, ?_⟩
    · rw [hkept.2, hrest]
      rfl
    · rw [hkept.1]
      exact hv.reg_eq
    · unfold envDiv
      rw [hkept.1]
      exact hv.div_eq
  · have hin : ¬ q.countE + 1 ≥ p.envDiv := by
      rw [ge_iff_le, UInt32.le_iff_toNat_le, hdiv, hnext]
      omega
    have hpart : n + 1 = n % d + 1 + d * (n / d) := by omega
    have hquot : (n + 1) / d = n / d := by
      rw [hpart, Nat.add_mul_div_left _ _ hd, Nat.div_eq_of_lt (by omega), Nat.zero_add]
    have hrest : (n + 1) % d = n % d + 1 := by
      rw [hpart, Nat.add_mul_mod_self_left, Nat.mod_eq_of_lt (by omega)]
    rw [if_neg hin]
    refine ⟨?_, ?_, hv.reg_eq, hv.div_eq⟩
    · rw [hquot]
      exact ⟨hv.holding, hv.attack, hv.step, ⟨hv.level.step_le, hv.level.vol_eq⟩⟩
    · rw [hrest]
      exact fun _ => hnext

/-! ## Calls -/

/-- **A call of the chip.** Registers are written by their number, so the envelope is started anew
by any write to the register of its shape, also of the same one. A step is a number of ticks, and
no more than the `max` that it is given are made. -/
inductive AyCall where
  /-- `ay8910_reset` -/
  | reset
  /-- `ay8910_write` -/
  | write (reg : Fin 16) (val : UInt8)
  /-- `ay8910_step` -/
  | step (ticks max : Nat)
deriving DecidableEq, Repr

/-- The chip after a call. -/
def call (p : Ay8910) : AyCall → Ay8910
  | .reset => new
  | .write reg val => p.ay8910Write reg val
  | .step ticks max => p.ay8910Step ticks max

/-- The ticks of a call. -/
def AyCall.ticks : AyCall → Nat
  | .step ticks max => min ticks max
  | _ => 0

/-- **A call leaves registers 11 to 13 unchanged**: it writes no shape, and no other
period. -/
def AyCall.KeepsEnvelope (fine coarse : UInt8) : AyCall → Prop
  | .reset => False
  | .write reg val => reg ≠ 13 ∧ (reg = 11 → val = fine) ∧ (reg = 12 → val = coarse)
  | .step _ _ => True

instance (fine coarse : UInt8) : (c : AyCall) → Decidable (c.KeepsEnvelope fine coarse)
  | .reset => .isFalse id
  | .write reg val =>
    inferInstanceAs (Decidable (reg ≠ 13 ∧ (reg = 11 → val = fine) ∧ (reg = 12 → val = coarse)))
  | .step _ _ => .isTrue trivial

/-- The period, as the chip puts it together. -/
theorem toNat_period (fine coarse : UInt8) :
    (fine.toUInt32 ||| (coarse.toUInt32 <<< (8 : UInt32))).toNat
      = coarse.toNat * 256 + fine.toNat := by
  have hfine := fine.toNat_lt
  have hcoarse := coarse.toNat_lt
  simp only [UInt32.toNat_or, UInt32.toNat_shiftLeft, Nat.shiftLeft_eq, UInt8.toNat_toUInt32,
    UInt32.reduceToNat, Nat.reduceMod, Nat.reducePow]
  rw [Nat.mod_eq_of_lt (by omega), Nat.or_comm, Nat.mul_comm]
  exact (Nat.two_pow_add_eq_or_of_lt (i := 8) hfine coarse.toNat).symm

/-- The ticks of a step, by the registers. -/
theorem envDiv_eq (p : Ay8910) : p.envDiv.toNat = 2 * envelopePeriod (p.regs 11) (p.regs 12) := by
  have hperiod := toNat_period (p.regs 11) (p.regs 12)
  have hfine := (p.regs 11).toNat_lt
  have hcoarse := (p.regs 12).toNat_lt
  unfold envDiv envelopePeriod
  rw [UInt32.toNat_mul]
  by_cases hzero : (p.regs 11).toUInt32 ||| ((p.regs 12).toUInt32 <<< (8 : UInt32)) = 0
  · rw [hzero] at hperiod
    rw [if_neg (not_not.2 hzero), ← hperiod]
    rfl
  · have hpos : (p.regs 12).toNat * 256 + (p.regs 11).toNat ≠ 0 := fun h =>
      hzero (UInt32.toNat_inj.1 (hperiod.trans h))
    rw [if_pos hzero, hperiod]
    change 2 * _ % 2 ^ 32 = _
    rw [Nat.mod_eq_of_lt (by omega), Nat.max_eq_right (by omega)]

/-- A shape that is written starts over. -/
theorem EnvelopeAfter.start (p : Ay8910) (val : UInt8) :
    (p.ay8910Write 13 val).EnvelopeAfter (val &&& 0x0F)
      (2 * envelopePeriod (p.regs 11) (p.regs 12)) 0 := by
  have hstart : holdsAt (val &&& 0x0F) (0 / (2 * envelopePeriod (p.regs 11) (p.regs 12))) = false := by
    rw [Nat.zero_div]
    rfl
  have hattack : attacks (val &&& 0x0F) = decide (val &&& 0x04 ≠ 0) := by
    unfold attacks
    rw [UInt8.and_assoc]
    rfl
  refine ⟨⟨hstart.symm, ?_, ?_, ⟨UInt32.zero_le, rfl⟩⟩, fun _ => ?_, rfl, envDiv_eq _⟩
  · rw [Nat.zero_div, attackAt, hattack, Nat.zero_div]
    change decide (val &&& 0x04 ≠ 0) = _
    simp
  · rw [stepAt, hstart, Nat.zero_div]
    rfl
  · rw [Nat.zero_mod]
    rfl

/-- Ticks of the chip are as many for the envelope. -/
theorem EnvelopeAfter.ticks {d n : Nat} (h : p.EnvelopeAfter shape d n) (hd : 0 < d) (m : Nat) :
    (Ay8910.tick^[m] p).EnvelopeAfter shape d (n + m) := by
  induction m with
  | zero => exact h
  | succ m ih =>
    rw [Function.iterate_succ_apply']
    exact ih.tick hd

/-- A tick leaves the registers alone. -/
theorem regs_tick (p : Ay8910) : p.tick.regs = p.regs := by
  have hvoices := p.sameEnvelope_tickVoices.regs
  rw [tick_eq]
  split_ifs
  · exact hvoices
  · exact (sameRegs_stepEnvelope ..).1.trans hvoices
  · exact hvoices

theorem regs_iterate_tick (p : Ay8910) (m : Nat) : (tick^[m] p).regs = p.regs := by
  induction m with
  | zero => rfl
  | succ m ih => rw [Function.iterate_succ_apply', regs_tick, ih]

/-- A register other than the shape's. -/
theorem ay8910Write_eq (p : Ay8910) {reg : Fin 16} (val : UInt8) (hreg : reg ≠ 13) :
    ∃ kept, p.ay8910Write reg val = { p with regs := Function.update p.regs reg kept }
      ∧ (reg = 11 ∨ reg = 12 → kept = val) := by
  unfold ay8910Write
  split
  case h_8 => exact absurd rfl hreg
  case h_9 => exact ⟨val, rfl, fun _ => rfl⟩
  all_goals exact ⟨_, rfl, fun h => absurd h (by decide)⟩

/-- **A call** is its ticks for the envelope. -/
theorem EnvelopeAfter.call {d n : Nat} {c : AyCall} (h : p.EnvelopeAfter shape d n) (hd : 0 < d)
    (hkeep : c.KeepsEnvelope (p.regs 11) (p.regs 12)) :
    (p.call c).EnvelopeAfter shape d (n + c.ticks)
    ∧ (p.call c).regs 11 = p.regs 11 ∧ (p.call c).regs 12 = p.regs 12 := by
  cases c with
  | reset => exact hkeep.elim
  | write reg val =>
    obtain ⟨hshape, hfine, hcoarse⟩ := hkeep
    obtain ⟨kept, hwrite, hkept⟩ := ay8910Write_eq p val hshape
    have h11 : Function.update p.regs reg kept 11 = p.regs 11 := by
      by_cases h11 : reg = 11
      · rw [h11, Function.update_self, hkept (.inl h11), hfine h11]
      · exact Function.update_of_ne (Ne.symm h11) ..
    have h12 : Function.update p.regs reg kept 12 = p.regs 12 := by
      by_cases h12 : reg = 12
      · rw [h12, Function.update_self, hkept (.inr h12), hcoarse h12]
      · exact Function.update_of_ne (Ne.symm h12) ..
    have hdiv : (envDiv { p with regs := Function.update p.regs reg kept }).toNat
        = p.envDiv.toNat := by
      rw [envDiv_eq, envDiv_eq]
      dsimp only
      rw [h11, h12]
    change (p.ay8910Write reg val).EnvelopeAfter shape d n ∧ _
    rw [Ay8910.call, hwrite]
    refine ⟨⟨⟨h.holding, h.attack, h.step, ⟨h.level.step_le, h.level.vol_eq⟩⟩, h.count, ?_, ?_⟩,
      h11, h12⟩
    · exact (Function.update_of_ne (Ne.symm hshape) ..).trans h.reg_eq
    · exact hdiv.trans h.div_eq
  | step ticks max =>
    have hcall : p.call (.step ticks max) = Ay8910.tick^[(AyCall.step ticks max).ticks] p := by
      change Ay8910.tick^[if ticks < max then ticks else max] p = Ay8910.tick^[min ticks max] p
      congr 1
      split_ifs <;> omega
    rw [hcall, regs_iterate_tick]
    exact ⟨h.ticks hd _, rfl, rfl⟩

/-- Calls that keep the envelope's registers are their ticks together. -/
theorem EnvelopeAfter.calls {d n : Nat} {calls : List AyCall} (h : p.EnvelopeAfter shape d n)
    (hd : 0 < d) (hkeep : ∀ c ∈ calls, c.KeepsEnvelope (p.regs 11) (p.regs 12)) :
    (calls.foldl Ay8910.call p).EnvelopeAfter shape d (n + (calls.map AyCall.ticks).sum) := by
  induction calls generalizing p n with
  | nil => exact h
  | cons c calls ih =>
    obtain ⟨hcall, hfine, hcoarse⟩ := h.call hd (hkeep c List.mem_cons_self)
    have hrest := ih hcall fun c hc => by
      rw [hfine, hcoarse]
      exact hkeep c (List.mem_cons_of_mem _ hc)
    rwa [Nat.add_assoc] at hrest

/-- Every call leaves a sound level. -/
theorem LevelSound.call (h : p.LevelSound) (c : AyCall) : (p.call c).LevelSound := by
  cases c with
  | reset => exact levelSound_new
  | write reg val => exact h.write reg val
  | step ticks max =>
    unfold Ay8910.call ay8910Step
    dsimp only
    generalize (if ticks < max then ticks else max) = m
    induction m with
    | zero => exact h
    | succ m ih =>
      rw [Function.iterate_succ_apply']
      exact ih.tick

/-- **The envelope follows its shape for ever**: after a shape is written, the level is
the data sheet's for the steps taken since, however the ticks are cut into calls; and in
every state the level is the one its step and its direction imply. -/
theorem envelope_follows_sheet :
    (∀ (p : Ay8910) (val : UInt8) (calls : List AyCall),
      (∀ c ∈ calls, c.KeepsEnvelope (p.regs 11) (p.regs 12)) →
      (calls.foldl call (p.ay8910Write 13 val)).envelopeVol.toNat
        = sheetLevel (val &&& 0x0F)
          ((calls.map AyCall.ticks).sum / (2 * envelopePeriod (p.regs 11) (p.regs 12))))
    ∧ ∀ calls : List AyCall, (calls.foldl call new).LevelSound := by
  refine ⟨fun p val calls hkeep => ?_, fun calls => ?_⟩
  · have hpos : 0 < 2 * envelopePeriod (p.regs 11) (p.regs 12) := by
      unfold envelopePeriod
      omega
    have hafter := (EnvelopeAfter.start p val).calls hpos hkeep
    rw [Nat.zero_add] at hafter
    exact hafter.vol (by rw [UInt8.and_assoc]; rfl)
  · exact List.foldlRecOn calls call levelSound_new fun p h c _ => h.call c

/-- Alternating ramps from a falling start, with a period of one. -/
theorem envelope_follows_sheet_turning :
    (List.foldl call (new.ay8910Write 13 10) [.step 30 100, .write 8 16, .step 7 7]).envelopeVol.toNat
      = sheetLevel 10 18 :=
  envelope_follows_sheet.1 new 10 [.step 30 100, .write 8 16, .step 7 7] (by decide)

end Ay8910

end LinApple.Chips
