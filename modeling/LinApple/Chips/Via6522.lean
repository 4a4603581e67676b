import Mathlib.Algebra.Ring.Parity
import Mathlib.Data.Prod.Basic
import Mathlib.Logic.Function.Iterate
import Mathlib.Tactic.Common
import LinApple.Lib.Sizes

/-!
# The 6522

Two timers that count down and raise a flag when they pass zero, and the registers around them. A
timer is stepped from one underflow to the next, so that any number of cycles takes few steps;
`viaStep_eq_iterate` says that this comes to the same as stepping it cycle by cycle.

The statement is about every state of the chip, and not about those that a program can bring it
to. A counter may be anything in any phase, a latch may be smaller than what has been counted, and
a flag may be up that nobody has enabled; the code deals with all of it, and a caller need not
know which states are possible.

A timer is in one of three phases, and a cycle takes it to the next place in its phase or out of
it. So there is a lemma for what one cycle does, and one for what a stretch of cycles does that
ends at or before the next event; the loop of the code is then the second one over and over, and
the number of its rounds is bounded by the cycles that are left. Both timers are followed in one
way, with what an underflow does to the chip as a parameter: the first one also turns the pin PB7
and may go round for ever, and the second fires once.

What `via_step` returns is whether the interrupt has changed, and it looks at the two ends of the
stretch only. Stepped one by one it may change several times. So what is returned is not whether
any of the single cycles has changed it but whether an odd number of them has, and that is how
the theorem puts it.
-/

namespace LinApple.Chips

/-! ## The timers -/

/-- `ViaTimerPhase` -/
inductive ViaTimerPhase where
  | running
  | loadDelay
  | reloadPending
deriving DecidableEq, Repr

/-- **A timer**: `t1_counter`, `t1_latch`, `t1_phase` and `t1_fired`, or those
of timer 2. -/
structure ViaTimer where
  /-- `t1_counter` -/
  counter : UInt16
  /-- `t1_latch` -/
  latch : UInt16
  /-- `t1_phase` -/
  phase : ViaTimerPhase
  /-- `t1_fired` -/
  fired : Bool
deriving DecidableEq, Repr

namespace ViaTimer

variable (t : ViaTimer)

/-- `ticks_to_underflow` -/
def ticksToUnderflow : Nat :=
  match t.phase with
  | .loadDelay => t.counter.toNat + 2
  | .reloadPending => t.latch.toNat + 2
  | .running => t.counter.toNat + 1

/-- `advance` -/
def advance (ticks : Nat) : ViaTimer :=
  if ticks = 0 then t
  else
    match t.phase with
    | .reloadPending =>
      { t with counter := t.latch - UInt16.ofNat (ticks - 1), phase := .running }
    | .loadDelay =>
      { t with counter := t.counter - UInt16.ofNat (ticks - 1), phase := .running }
    | .running => { t with counter := t.counter - UInt16.ofNat ticks }

/-- The timer as an underflow leaves it. -/
def underflow (freeRun : Bool) : ViaTimer :=
  { t with fired := true, phase := if freeRun then .reloadPending else .running }

variable {S : Type}

/-- The loop of `step_timer1` and `step_timer2`. What an underflow does to the
flags is `onUnderflow`; every round takes a tick at least, so `fuel` rounds
are enough for as many ticks. -/
def stepLoop (freeRun : Bool) (onUnderflow : S → S) :
    Nat → Nat → ViaTimer × S → ViaTimer × S
  | 0, _, r => r
  | fuel + 1, remaining, (t, s) =>
    if remaining = 0 then (t, s)
    else if !freeRun && t.fired then (t.advance remaining, s)
    else if t.ticksToUnderflow > remaining then (t.advance remaining, s)
    else
      stepLoop freeRun onUnderflow fuel (remaining - t.ticksToUnderflow)
        ((t.advance t.ticksToUnderflow).underflow freeRun, onUnderflow s)

/-- **A timer is stepped**, with the flags it raises. -/
def step (freeRun : Bool) (onUnderflow : S → S) (cycles : Nat) (r : ViaTimer × S) :
    ViaTimer × S :=
  stepLoop freeRun onUnderflow cycles cycles r

/-! ### Stepping cycle by cycle -/

theorem ticksToUnderflow_pos : 0 < t.ticksToUnderflow := by
  unfold ticksToUnderflow
  split <;> omega

@[simp] theorem fired_advance (n : Nat) : (t.advance n).fired = t.fired := by
  unfold advance
  split_ifs
  · rfl
  · split <;> rfl

/-- Ticks add up. -/
theorem advance_add (m n : Nat) : t.advance (m + n) = (t.advance m).advance n := by
  rcases Nat.eq_zero_or_pos m with rfl | hm
  · rw [Nat.zero_add]
    rfl
  rcases Nat.eq_zero_or_pos n with rfl | hn
  · rfl
  -- the first tick sees the phase, the others a running timer
  have hrunning : ∀ (c : UInt16) (k : Nat), c - UInt16.ofNat (k + n)
      = c - UInt16.ofNat k - UInt16.ofNat n := fun c k => by
    rw [UInt16.ofNat_add]
    grind
  have hpred : m + n - 1 = m - 1 + n := by omega
  unfold advance
  rw [if_neg (by omega), if_neg (by omega : m ≠ 0), if_neg (by omega : n ≠ 0)]
  cases t.phase <;> simp only [hpred, hrunning]

/-- A tick brings the underflow nearer. -/
theorem ticksToUnderflow_advance {n : Nat} (hn : n < t.ticksToUnderflow) :
    (t.advance n).ticksToUnderflow = t.ticksToUnderflow - n := by
  rcases Nat.eq_zero_or_pos n with rfl | hpos
  · rfl
  have hsub : ∀ (c : UInt16) (k : Nat), k ≤ c.toNat →
      (c - UInt16.ofNat k).toNat = c.toNat - k := fun c k hk => by
    have hc := c.toNat_lt_size
    have hofNat : (UInt16.ofNat k).toNat = k := UInt16.toNat_ofNat_of_lt' (by omega)
    rw [UInt16.toNat_sub_of_le _ _ (by rw [UInt16.le_iff_toNat_le, hofNat]; exact hk), hofNat]
  unfold ticksToUnderflow at hn
  unfold advance
  rw [if_neg (by omega)]
  unfold ticksToUnderflow
  cases hphase : t.phase <;> simp only [hphase] at hn ⊢
  · rw [hsub _ _ (by omega)]
    omega
  · rw [hsub _ _ (by omega)]
    omega
  · rw [hsub _ _ (by omega)]
    omega

/-- More fuel than ticks is of no use. -/
theorem stepLoop_fuel (freeRun : Bool) (onUnderflow : S → S) {fuel remaining : Nat}
    (hfuel : remaining ≤ fuel) (r : ViaTimer × S) :
    stepLoop freeRun onUnderflow fuel remaining r = step freeRun onUnderflow remaining r := by
  induction fuel using Nat.strongRecOn generalizing remaining r with
  | _ fuel ih =>
    unfold step
    rcases Nat.eq_zero_or_pos remaining with rfl | hpos
    · cases fuel <;> rfl
    obtain ⟨fuel, rfl⟩ : ∃ k, fuel = k + 1 := ⟨fuel - 1, by omega⟩
    obtain ⟨rest, rfl⟩ : ∃ k, remaining = k + 1 := ⟨remaining - 1, by omega⟩
    obtain ⟨t, s⟩ := r
    have hspan := t.ticksToUnderflow_pos
    unfold stepLoop
    rw [ih fuel (by omega) (by omega)]
    rcases Nat.lt_or_ge rest fuel with hlt | hge
    · rw [ih rest (by omega) (by omega)]
    · obtain rfl : rest = fuel := by omega
      rw [ih rest (by omega) (by omega)]

/-- **What a step does**: nothing more fires, or the next underflow is not
reached, or it is and the rest is stepped from there. -/
theorem step_eq (freeRun : Bool) (onUnderflow : S → S) {cycles : Nat} (hpos : 0 < cycles)
    (t : ViaTimer) (s : S) : step freeRun onUnderflow cycles (t, s)
      = if (!freeRun && t.fired) = true ∨ cycles < t.ticksToUnderflow then
          (t.advance cycles, s)
        else step freeRun onUnderflow (cycles - t.ticksToUnderflow)
          ((t.advance t.ticksToUnderflow).underflow freeRun, onUnderflow s) := by
  obtain ⟨k, rfl⟩ : ∃ k, cycles = k + 1 := ⟨cycles - 1, by omega⟩
  have hspan := t.ticksToUnderflow_pos
  conv_lhs => unfold step
  unfold stepLoop
  rw [if_neg (by omega), stepLoop_fuel freeRun onUnderflow (by omega)]
  by_cases hfired : (!freeRun && t.fired) = true
  · rw [if_pos hfired, if_pos (.inl hfired)]
  rw [if_neg hfired]
  by_cases hlt : k + 1 < t.ticksToUnderflow
  · rw [if_pos hlt, if_pos (.inr hlt)]
  · rw [if_neg hlt, if_neg (not_or.mpr ⟨hfired, hlt⟩)]

/-- **A step of a cycle first, and then the others.** -/
theorem step_succ (freeRun : Bool) (onUnderflow : S → S) (n : Nat) (r : ViaTimer × S) :
    step freeRun onUnderflow (n + 1) r
      = step freeRun onUnderflow n (step freeRun onUnderflow 1 r) := by
  rcases Nat.eq_zero_or_pos n with rfl | hn
  · rfl
  obtain ⟨t, s⟩ := r
  have hspan := t.ticksToUnderflow_pos
  rw [step_eq freeRun onUnderflow (by omega : 0 < n + 1),
    step_eq freeRun onUnderflow Nat.one_pos]
  by_cases hfired : (!freeRun && t.fired) = true
  · rw [if_pos (.inl hfired), if_pos (.inl hfired), step_eq freeRun onUnderflow hn,
      fired_advance, if_pos (.inl hfired), Nat.add_comm n, advance_add]
  by_cases hone : 1 < t.ticksToUnderflow
  · -- the first cycle does not reach the underflow
    rw [@if_pos (_ ∨ 1 < t.ticksToUnderflow) _ (.inr hone), step_eq freeRun onUnderflow hn,
      fired_advance, ticksToUnderflow_advance t hone]
    by_cases hlt : n + 1 < t.ticksToUnderflow
    · rw [if_pos (.inr hlt), if_pos (.inr (by omega)), Nat.add_comm n, advance_add]
    · rw [if_neg (not_or.mpr ⟨hfired, hlt⟩), if_neg (not_or.mpr ⟨hfired, by omega⟩),
        ← advance_add]
      have hrest : n + 1 - t.ticksToUnderflow = n - (t.ticksToUnderflow - 1) := by omega
      have hwhole : 1 + (t.ticksToUnderflow - 1) = t.ticksToUnderflow := by omega
      rw [hrest, hwhole]
  · have hspan : t.ticksToUnderflow = 1 := by omega
    rw [if_neg (not_or.mpr ⟨hfired, by omega⟩), if_neg (not_or.mpr ⟨hfired, by omega⟩), hspan,
      Nat.add_sub_cancel]
    rfl

/-- What a step does to the timer does not depend on the flags, and it raises
them a number of times that does not either. -/
theorem step_underflows (freeRun : Bool) (onUnderflow : S → S) (n : Nat) (t : ViaTimer) :
    ∃ (t' : ViaTimer) (k : Nat),
      ∀ s, step freeRun onUnderflow n (t, s) = (t', onUnderflow^[k] s) := by
  induction n using Nat.strongRecOn generalizing t with
  | _ n ih =>
    rcases Nat.eq_zero_or_pos n with rfl | hpos
    · exact ⟨t, 0, fun _ => rfl⟩
    have hspan := t.ticksToUnderflow_pos
    by_cases hquiet : (!freeRun && t.fired) = true ∨ n < t.ticksToUnderflow
    · exact ⟨t.advance n, 0, fun s => by rw [step_eq freeRun onUnderflow hpos, if_pos hquiet]; rfl⟩
    · obtain ⟨t', k, hrest⟩ := ih (n - t.ticksToUnderflow) (by omega)
        ((t.advance t.ticksToUnderflow).underflow freeRun)
      refine ⟨t', k + 1, fun s => ?_⟩
      rw [step_eq freeRun onUnderflow hpos, if_neg hquiet, hrest, Function.iterate_succ_apply]

end ViaTimer

/-! ## The chip -/

/-- **`Via6522`**, with its timers as records of their own. -/
structure Via6522 where
  /-- `orb` -/
  orb : UInt8
  /-- `ora` -/
  ora : UInt8
  /-- `ddrb` -/
  ddrb : UInt8
  /-- `ddra` -/
  ddra : UInt8
  /-- `shift_register` -/
  shiftRegister : UInt8
  /-- `acr` -/
  acr : UInt8
  /-- `pcr` -/
  pcr : UInt8
  /-- `ifr` -/
  ifr : UInt8
  /-- `ier` -/
  ier : UInt8
  /-- `ora_no_handshake` -/
  oraNoHandshake : UInt8
  /-- Timer 1. -/
  t1 : ViaTimer
  /-- Timer 2. -/
  t2 : ViaTimer
  /-- `pb7` -/
  pb7 : Bool
deriving DecidableEq, Repr

/-- `via_ifr::timer2` -/
def ifrTimer2 : UInt8 := 0x20
/-- `via_ifr::timer1` -/
def ifrTimer1 : UInt8 := 0x40
/-- `via_ifr::any` -/
def ifrAny : UInt8 := 0x80
/-- `via_ifr::mask` -/
def ifrMask : UInt8 := 0x7F
/-- `via_acr::t2_pulse_count` -/
def acrT2PulseCount : UInt8 := 0x20
/-- `via_acr::t1_free_run` -/
def acrT1FreeRun : UInt8 := 0x40
/-- `via_acr::pb7_output` -/
def acrPb7Output : UInt8 := 0x80

/-- `lo` -/
def lo (w : UInt16) : UInt8 := (w &&& 0xFF).toUInt8

/-- `hi` -/
def hi (w : UInt16) : UInt8 := (w >>> 8).toUInt8

/-- `set_lo` -/
def setLo (w : UInt16) (v : UInt8) : UInt16 := (w &&& (0xFF00 : UInt16)) ||| v.toUInt16

/-- `set_hi` -/
def setHi (w : UInt16) (v : UInt8) : UInt16 := (w &&& (0x00FF : UInt16)) ||| (v.toUInt16 <<< (8 : UInt16))

namespace Via6522

/-- `Via6522{}`: no timer interrupts before it is armed. -/
def new : Via6522 where
  orb := 0
  ora := 0
  ddrb := 0
  ddra := 0
  shiftRegister := 0
  acr := 0
  pcr := 0
  ifr := 0
  ier := 0
  oraNoHandshake := 0
  t1 := ⟨0, 0, .running, true⟩
  t2 := ⟨0, 0, .running, true⟩
  pb7 := false

variable (v : Via6522)

/-- `step_timer1` -/
def stepTimer1 (cycles : Nat) : Via6522 :=
  let freeRun := decide (v.acr &&& acrT1FreeRun ≠ 0)
  let pb7Driven := decide (v.acr &&& acrPb7Output ≠ 0)
  let r := ViaTimer.step freeRun
    (Prod.map (· ||| ifrTimer1)
      fun pb7 => if pb7Driven then if freeRun then !pb7 else true else pb7)
    cycles (v.t1, v.ifr, v.pb7)
  { v with t1 := r.1, ifr := r.2.1, pb7 := r.2.2 }

/-- `step_timer2` -/
def stepTimer2 (cycles : Nat) : Via6522 :=
  if v.acr &&& acrT2PulseCount ≠ 0 then v
  else
    let r := ViaTimer.step false (· ||| ifrTimer2) cycles (v.t2, v.ifr)
    { v with t2 := r.1, ifr := r.2 }

/-- `via_irq` -/
def viaIrq : Bool := v.ifr &&& v.ier &&& ifrMask ≠ 0

/-- `via_step`, which says whether the interrupt has changed. -/
def viaStep (cycles : Nat) : Bool × Via6522 :=
  let v' := (v.stepTimer1 cycles).stepTimer2 cycles
  (v'.viaIrq ≠ v.viaIrq, v')

/-- `via_reset` -/
def viaReset : Via6522 :=
  { v with
    orb := 0
    ora := 0
    ddrb := 0
    ddra := 0
    acr := 0
    pcr := 0
    ifr := 0
    ier := 0
    oraNoHandshake := 0
    t1 := { v.t1 with phase := .running, fired := true }
    t2 := { v.t2 with phase := .running, fired := true }
    pb7 := false }

/-- `via_write` -/
def viaWrite (reg : Fin 16) (val : UInt8) : Via6522 :=
  match reg with
  | 0x0 => { v with orb := val }
  | 0x1 => { v with ora := val }
  | 0x2 => { v with ddrb := val }
  | 0x3 => { v with ddra := val }
  | 0x4 | 0x6 => { v with t1 := { v.t1 with latch := setLo v.t1.latch val } }
  | 0x5 =>
    let latch := setHi v.t1.latch val
    { v with
      t1 := ⟨latch, latch, .loadDelay, false⟩
      ifr := v.ifr &&& ~~~ifrTimer1
      pb7 := if v.acr &&& acrPb7Output ≠ 0 then false else v.pb7 }
  | 0x7 =>
    { v with
      t1 := { v.t1 with latch := setHi v.t1.latch val }
      ifr := v.ifr &&& ~~~ifrTimer1 }
  | 0x8 => { v with t2 := { v.t2 with latch := setLo v.t2.latch val } }
  | 0x9 =>
    { v with
      t2 := ⟨(val.toUInt16 <<< 8) ||| (lo v.t2.latch).toUInt16, v.t2.latch, .loadDelay, false⟩
      ifr := v.ifr &&& ~~~ifrTimer2 }
  | 0xA => { v with shiftRegister := val }
  | 0xB => { v with acr := val }
  | 0xC => { v with pcr := val }
  | 0xD => { v with ifr := v.ifr &&& ~~~(val &&& ifrMask) }
  | 0xE =>
    { v with
      ier := if val &&& ifrAny ≠ 0 then v.ier ||| (val &&& ifrMask)
        else v.ier &&& ~~~(val &&& ifrMask) }
  | _ => { v with oraNoHandshake := val }

/-- `via_read`: reading the low byte of a counter takes its flag back. -/
def viaRead (reg : Fin 16) : UInt8 × Via6522 :=
  match reg with
  | 0x0 =>
    (if v.acr &&& acrPb7Output ≠ 0 then (v.orb &&& 0x7F) ||| (if v.pb7 then 0x80 else 0x00)
      else v.orb, v)
  | 0x1 => (v.ora, v)
  | 0x2 => (v.ddrb, v)
  | 0x3 => (v.ddra, v)
  | 0x4 => (lo v.t1.counter, { v with ifr := v.ifr &&& ~~~ifrTimer1 })
  | 0x5 => (hi v.t1.counter, v)
  | 0x6 => (lo v.t1.latch, v)
  | 0x7 => (hi v.t1.latch, v)
  | 0x8 => (lo v.t2.counter, { v with ifr := v.ifr &&& ~~~ifrTimer2 })
  | 0x9 => (hi v.t2.counter, v)
  | 0xA => (v.shiftRegister, v)
  | 0xB => (v.acr, v)
  | 0xC => (v.pcr, v)
  | 0xD => (v.ifr ||| (if v.viaIrq then ifrAny else 0), v)
  | 0xE => (v.ier ||| ifrAny, v)
  | _ => (v.oraNoHandshake, v)

/-- No flag, no interrupt. -/
theorem viaIrq_of_ifr_eq_zero {v : Via6522} (h : v.ifr = 0) : v.viaIrq = false := by
  unfold viaIrq
  rw [h, UInt8.zero_and, UInt8.zero_and]
  decide

/-! ### Stepping cycle by cycle -/

/-- The chip a cycle later. -/
def tick : Via6522 := (v.viaStep 1).2

theorem stepTimer1_succ (n : Nat) : v.stepTimer1 (n + 1) = (v.stepTimer1 1).stepTimer1 n := by
  unfold stepTimer1
  dsimp only
  rw [ViaTimer.step_succ]

theorem stepTimer2_succ (n : Nat) : v.stepTimer2 (n + 1) = (v.stepTimer2 1).stepTimer2 n := by
  unfold stepTimer2
  by_cases hpulse : v.acr &&& acrT2PulseCount ≠ 0
  · rw [if_pos hpulse, if_pos hpulse, if_pos hpulse]
  · rw [if_neg hpulse, if_neg hpulse]
    dsimp only
    rw [if_neg hpulse, ViaTimer.step_succ]

/-- The flag a timer raises is kept apart from the other's. -/
theorem stepTimer1_stepTimer2 (m n : Nat) :
    (v.stepTimer2 m).stepTimer1 n = (v.stepTimer1 n).stepTimer2 m := by
  unfold stepTimer1 stepTimer2
  by_cases hpulse : v.acr &&& acrT2PulseCount ≠ 0
  · rw [if_pos hpulse, if_pos hpulse]
  rw [if_neg hpulse, if_neg hpulse]
  dsimp only
  obtain ⟨t1, k1, hstep1⟩ := ViaTimer.step_underflows (decide (v.acr &&& acrT1FreeRun ≠ 0))
    (Prod.map (· ||| ifrTimer1) fun pb7 =>
      if decide (v.acr &&& acrPb7Output ≠ 0) then
        if decide (v.acr &&& acrT1FreeRun ≠ 0) then !pb7 else true
      else pb7) n v.t1
  obtain ⟨t2, k2, hstep2⟩ := ViaTimer.step_underflows false (· ||| ifrTimer2) m v.t2
  have hcomm : Function.Commute (· ||| ifrTimer1 : UInt8 → UInt8) (· ||| ifrTimer2) :=
    fun f => by
      show f ||| ifrTimer2 ||| ifrTimer1 = f ||| ifrTimer1 ||| ifrTimer2
      rw [UInt8.or_assoc, UInt8.or_assoc, UInt8.or_comm ifrTimer1]
  simp only [hstep1, hstep2, Prod.map_iterate, Prod.map_apply]
  rw [(hcomm.iterate_iterate k1 k2) v.ifr]

theorem viaStep_zero : (v.viaStep 0).2 = v := by
  show (v.stepTimer1 0).stepTimer2 0 = v
  unfold stepTimer2
  split_ifs <;> rfl

/-- **Stepping the chip is stepping it cycle by cycle.** -/
theorem viaStep_eq_iterate (n : Nat) : (v.viaStep n).2 = tick^[n] v := by
  induction n generalizing v with
  | zero => exact viaStep_zero v
  | succ n ih =>
    rw [Function.iterate_succ_apply, ← ih]
    show (v.stepTimer1 (n + 1)).stepTimer2 (n + 1)
      = (((v.stepTimer1 1).stepTimer2 1).stepTimer1 n).stepTimer2 n
    rw [stepTimer1_succ, stepTimer2_succ, stepTimer1_stepTimer2]

/-- What a cycle reports: whether the interrupt changes in it. -/
theorem viaStep_fst (n : Nat) : (v.viaStep n).1 = decide ((v.viaStep n).2.viaIrq ≠ v.viaIrq) := rfl

/-- **A chip that is stepped by many cycles at once** is left in the state the single
cycles leave it in, and it reports a change of its interrupt exactly if an odd number
of them do. -/
theorem viaStep_cycleByCycle (n : Nat) :
    (v.viaStep n).2 = (fun w => (w.viaStep 1).2)^[n] v
    ∧ ((v.viaStep n).1 = true ↔
      Odd ((List.range n).countP fun i => (((fun w => (w.viaStep 1).2)^[i] v).viaStep 1).1)) := by
  refine ⟨viaStep_eq_iterate v n, ?_⟩
  rw [viaStep_fst, viaStep_eq_iterate]
  change (decide ((tick^[n] v).viaIrq ≠ v.viaIrq) = true
    ↔ Odd ((List.range n).countP fun i => ((tick^[i] v).viaStep 1).1))
  -- by induction on the cycles, the last of which changes the parity if it reports
  induction n with
  | zero => simp
  | succ n ih =>
    have hlast : ((tick^[n] v).viaStep 1).1
        = decide ((tick^[n + 1] v).viaIrq ≠ (tick^[n] v).viaIrq) := by
      rw [viaStep_fst, Function.iterate_succ_apply']
      rfl
    rw [List.range_succ, List.countP_append, List.countP_singleton, Nat.odd_add, ← ih, hlast]
    cases (tick^[n + 1] v).viaIrq <;> cases (tick^[n] v).viaIrq <;> cases v.viaIrq <;> simp

end Via6522

end LinApple.Chips
