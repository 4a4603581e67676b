import Mathlib.Logic.Function.Iterate
import Mathlib.Tactic.Common
import LinApple.Lib.Sizes

/-!
# The AY-3-8910

The registers of the sound chip and the counters behind its voices. A tick is
an eighth of the clock it is given; how many ticks have gone by is for the
card to say. What a voice sounds like is not modelled: only the counters it is
taken from are.
-/

namespace LinApple.Chips

/-- `count_a` and `out_a`, and those of the other voices. -/
structure AyTone where
  /-- `count_a` -/
  count : UInt16
  /-- `out_a` -/
  out : UInt8
deriving DecidableEq, Repr

/-- **`Ay8910`** -/
structure Ay8910 where
  /-- `regs` -/
  regs : Fin 16 → UInt8
  /-- The three tones. -/
  tone : Fin 3 → AyTone
  /-- `count_n` -/
  countN : UInt32
  /-- `rng` -/
  rng : UInt32
  /-- `out_n` -/
  outN : UInt8
  /-- `count_e` -/
  countE : UInt32
  /-- `envelope_step` -/
  envelopeStep : UInt32
  /-- `envelope_vol` -/
  envelopeVol : UInt8
  /-- `env_holding` -/
  envHolding : Bool
  /-- `env_attack` -/
  envAttack : Bool

/-- `tone_period` -/
def tonePeriod (fine coarse : UInt8) : UInt16 :=
  fine.toUInt16 ||| ((coarse &&& 0x0F).toUInt16 <<< (8 : UInt16))

/-- `step_tone` -/
def stepTone (t : AyTone) (period : UInt16) : AyTone :=
  if period = 0 then { t with out := 1 }
  else if t.count + 1 ≥ period then ⟨0, t.out ^^^ 1⟩
  else { t with count := t.count + 1 }

namespace Ay8910

/-- `Ay8910{}` -/
def new : Ay8910 where
  regs := fun _ => 0
  tone := fun _ => ⟨0, 0⟩
  countN := 0
  rng := 1
  outN := 0
  countE := 0
  envelopeStep := 0
  envelopeVol := 15
  envHolding := false
  envAttack := false

variable (p : Ay8910)

/-- `advance_noise` -/
def advanceNoise : Ay8910 :=
  { p with
    outN := if ((p.rng + 1) &&& 2) ^^^ (p.rng &&& 1) ≠ 0 then p.outN ^^^ 1 else p.outN
    rng := (p.rng >>> (1 : UInt32)) |||
      (((p.rng &&& 1) ^^^ ((p.rng >>> (3 : UInt32)) &&& 1)) <<< (16 : UInt32)) }

/-- `refresh_envelope_vol` -/
def refreshEnvelopeVol : Ay8910 :=
  { p with envelopeVol := (if p.envAttack then p.envelopeStep else 15 - p.envelopeStep).toUInt8 }

/-- `hold_at` -/
def holdAt (amplitude : UInt32) : Ay8910 :=
  { p with
    envHolding := true
    envelopeStep := if p.envAttack then amplitude else 15 - amplitude }

/-- `step_envelope` -/
def stepEnvelope (cont alt hold : Bool) : Ay8910 :=
  let p := { p with envelopeStep := p.envelopeStep + 1 }
  if p.envelopeStep ≤ 15 then p.refreshEnvelopeVol
  else if !cont then (p.holdAt 0).refreshEnvelopeVol
  else if hold then (p.holdAt (if p.envAttack ≠ alt then 15 else 0)).refreshEnvelopeVol
  else
    refreshEnvelopeVol
      { p with envelopeStep := 0, envAttack := if alt then !p.envAttack else p.envAttack }

/-- One round of the loop of `ay8910_step`. The registers stand still in the
loop, so what it takes from them beforehand is taken from them here. -/
def tick : Ay8910 :=
  let noiseReg := (p.regs 6 &&& 0x1F).toUInt32
  let noiseDiv := 2 * (if noiseReg ≠ 0 then noiseReg else 1)
  let envReg := (p.regs 11).toUInt32 ||| ((p.regs 12).toUInt32 <<< (8 : UInt32))
  let envDiv := 2 * (if envReg ≠ 0 then envReg else 1)
  let shape := p.regs 13
  let p := { p with
    tone := fun v => stepTone (p.tone v) <| match v with
      | 0 => tonePeriod (p.regs 0) (p.regs 1)
      | 1 => tonePeriod (p.regs 2) (p.regs 3)
      | 2 => tonePeriod (p.regs 4) (p.regs 5) }
  let p := { p with countN := p.countN + 1 }
  let p := if p.countN ≥ noiseDiv then { p with countN := 0 }.advanceNoise else p
  if p.envHolding then p
  else
    let p := { p with countE := p.countE + 1 }
    if p.countE ≥ envDiv then
      { p with countE := 0 }.stepEnvelope (shape &&& 0x08 ≠ 0) (shape &&& 0x02 ≠ 0)
        (shape &&& 0x01 ≠ 0)
    else p

/-- `ay8910_step`: no more ticks than the buffers hold. -/
def ay8910Step (ticks max : Nat) : Ay8910 := tick^[if ticks < max then ticks else max] p

/-- `ay8910_write`, which keeps of a register what the chip has of it. -/
def ay8910Write (reg : Fin 16) (val : UInt8) : Ay8910 :=
  match reg with
  | 1 | 3 | 5 => { p with regs := Function.update p.regs reg (val &&& 0x0F) }
  | 6 | 8 | 9 | 10 => { p with regs := Function.update p.regs reg (val &&& 0x1F) }
  | 13 =>
    refreshEnvelopeVol
      { p with
        regs := Function.update p.regs reg (val &&& 0x0F)
        countE := 0
        envelopeStep := 0
        envHolding := false
        envAttack := val &&& 0x04 ≠ 0 }
  | _ => { p with regs := Function.update p.regs reg val }

/-! ## Time -/

/-- As many ticks as the buffers hold are all taken. -/
theorem ay8910Step_eq_iterate {ticks max : Nat} (h : ticks ≤ max) :
    p.ay8910Step ticks max = tick^[ticks] p := by
  unfold ay8910Step
  rcases Nat.lt_or_eq_of_le h with hlt | rfl
  · rw [if_pos hlt]
  · rw [if_neg (Nat.lt_irrefl _)]

end Ay8910

end LinApple.Chips
