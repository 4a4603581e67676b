import LinApple.Chips.Ay8910
import LinApple.Chips.Via6522

/-!
# The Mockingboard

Two 6522s, each with an AY-3-8910 on its ports. The card is brought up to date
when a register is accessed and when a batch of cycles ends, and keeps a count
of the cycles of the batch it has seen and of those not yet worth a tick of
the sound chips.
-/

namespace LinApple.Cards

open LinApple.Chips

/-! ## The card -/

/-- The chips of the card, and the registers latched for the sound chips. -/
structure MockingboardChips where
  /-- `via` -/
  via : Fin 2 → Via6522
  /-- `ay` -/
  ay : Fin 2 → Ay8910
  /-- `ay_latched_register` -/
  ayLatchedRegister : Fin 2 → Fin 16

/-- **`Mockingboard`**. `ticks` and `level` are what the outside has seen: the
ticks rendered, and what `AssertIrq` was last given. -/
structure Mockingboard extends MockingboardChips where
  /-- `synced` -/
  synced : Nat
  /-- `psg_remainder` -/
  psgRemainder : Nat
  /-- `irq_line` -/
  irqLine : Bool
  /-- The ticks rendered so far. -/
  ticks : Nat
  /-- What `AssertIrq` was last given. -/
  level : Bool

/-- `cycles_per_ay_tick` -/
def cyclesPerAyTick : Nat := 8
/-- `scratch_ticks` -/
def scratchTicks : Nat := 1024

/-- `ay_bus::bc1` -/
def ayBusBc1 : UInt8 := 0x01
/-- `ay_bus::bdir` -/
def ayBusBdir : UInt8 := 0x02
/-- `ay_bus::reset_n` -/
def ayBusResetN : UInt8 := 0x04

namespace MockingboardChips

variable (c : MockingboardChips)

/-- The interrupt output of the chips. -/
def irq : Bool := (c.via 0).viaIrq || (c.via 1).viaIrq

/-- `ay_bus_cycle` -/
def ayBusCycle (chip : Fin 2) (orb : UInt8) : MockingboardChips :=
  if orb &&& ayBusResetN = 0 then
    { c with
      ay := Function.update c.ay chip .new
      ayLatchedRegister := Function.update c.ayLatchedRegister chip 0 }
  else
    let bdir := decide (orb &&& ayBusBdir ≠ 0)
    let bc1 := decide (orb &&& ayBusBc1 ≠ 0)
    let portA := (c.via chip).ora
    if bdir && bc1 then
      -- an address above 15 selects no chip
      if h : portA.toNat < 16 then
        { c with ayLatchedRegister := Function.update c.ayLatchedRegister chip ⟨portA.toNat, h⟩ }
      else c
    else if bdir then
      { c with
        ay := Function.update c.ay chip ((c.ay chip).ay8910Write (c.ayLatchedRegister chip) portA) }
    else if bc1 then
      let driven := (c.via chip).ddra
      let value := (c.ay chip).regs (c.ayLatchedRegister chip)
      { c with
        via := Function.update c.via chip
          { c.via chip with ora := (portA &&& driven) ||| (value &&& ~~~driven) } }
    else c

/-- The chip that an address of the page selects, by `via_select_bit`. -/
def chipOf (addr : UInt16) : Fin 2 := if addr &&& 0x80 ≠ 0 then 1 else 0

/-- The register that an address of the page selects. -/
def regOf (addr : UInt16) : Fin 16 := Fin.ofNat 16 addr.toNat

/-- What `cx_read` reads of the chips. -/
def read (addr : UInt16) : UInt8 × MockingboardChips :=
  let r := (c.via (chipOf addr)).viaRead (regOf addr)
  (r.1, { c with via := Function.update c.via (chipOf addr) r.2 })

/-- What `cx_write` writes to the chips. -/
def write (addr : UInt16) (val : UInt8) : MockingboardChips :=
  let c' := { c with
    via := Function.update c.via (chipOf addr) ((c.via (chipOf addr)).viaWrite (regOf addr) val) }
  if regOf addr = 0 then c'.ayBusCycle (chipOf addr) val else c'

end MockingboardChips

namespace Mockingboard

variable (mb : Mockingboard)

/-- `update_irq` -/
def updateIrq : Mockingboard :=
  if mb.irq = mb.irqLine then mb else { mb with irqLine := mb.irq, level := mb.irq }

/-- `render_chunk`, as far as the chips go. -/
def renderChunk (ticks : Nat) : Mockingboard :=
  { mb with
    ay := fun i => (mb.ay i).ay8910Step ticks scratchTicks
    ticks := mb.ticks + ticks }

/-- The loop of `advance` over the chunks. -/
def renderChunks (ticks : Nat) (mb : Mockingboard) : Mockingboard :=
  if _h : ticks = 0 then mb
  else
    let count := if ticks < scratchTicks then ticks else scratchTicks
    renderChunks (ticks - count) (mb.renderChunk count)
termination_by ticks
decreasing_by
  unfold scratchTicks
  split_ifs <;> omega

/-- The first part of `advance`: both 6522s are stepped, and the line is looked
at when the output of one has changed. -/
def stepVias (cycles : Nat) : Mockingboard :=
  let r := fun i => (mb.via i).viaStep cycles
  let stepped := { mb with via := fun i => (r i).2 }
  if (r 0).1 || (r 1).1 then stepped.updateIrq else stepped

/-- **`advance`** -/
def advance (cycles : Nat) : Mockingboard :=
  if cycles = 0 then mb
  else
    let total := mb.psgRemainder + cycles
    renderChunks (total / cyclesPerAyTick)
      { mb.stepVias cycles with psgRemainder := total % cyclesPerAyTick }

/-- `sync_to` -/
def syncTo (executedCycles : Nat) : Mockingboard :=
  if executedCycles ≤ mb.synced then mb
  else { mb.advance (executedCycles - mb.synced) with synced := executedCycles }

/-- **`cx_read`** -/
def cxRead (addr : UInt16) (executedCycles : Nat) : UInt8 × Mockingboard :=
  let mb := mb.syncTo executedCycles
  let r := mb.read addr
  (r.1, { mb with toMockingboardChips := r.2 }.updateIrq)

/-- **`cx_write`** -/
def cxWrite (addr : UInt16) (val : UInt8) (executedCycles : Nat) : UInt8 × Mockingboard :=
  let mb := mb.syncTo executedCycles
  (0, { mb with toMockingboardChips := mb.write addr val }.updateIrq)

/-- `mb_abi_init` -/
def mbAbiInit (level : Bool) : Mockingboard where
  via := fun _ => .new
  ay := fun _ => .new
  ayLatchedRegister := fun _ => 0
  synced := 0
  psgRemainder := 0
  irqLine := false
  ticks := 0
  level := level

/-- `mb_abi_reset` -/
def mbAbiReset : Mockingboard :=
  { mb with
    via := fun i => (mb.via i).viaReset
    ay := fun _ => .new
    ayLatchedRegister := fun _ => 0
    synced := 0
    psgRemainder := 0
    irqLine := false
    level := false }

/-- `mb_abi_think` -/
def mbAbiThink (cycles : Nat) : Mockingboard :=
  { (if cycles > mb.synced then mb.advance (cycles - mb.synced) else mb) with synced := 0 }

end Mockingboard

/-! ## Save states -/

/-- **`MockingboardChipSaveState`** -/
structure MockingboardChipSaveState where
  /-- `orb` -/
  orb : UInt8
  /-- `ora` -/
  ora : UInt8
  /-- `ddrb` -/
  ddrb : UInt8
  /-- `ddra` -/
  ddra : UInt8
  /-- `t1_counter` -/
  t1Counter : UInt16
  /-- `t1_latch` -/
  t1Latch : UInt16
  /-- `t2_counter` -/
  t2Counter : UInt16
  /-- `t2_latch` -/
  t2Latch : UInt16
  /-- `serial_shift` -/
  serialShift : UInt8
  /-- `acr` -/
  acr : UInt8
  /-- `pcr` -/
  pcr : UInt8
  /-- `ifr` -/
  ifr : UInt8
  /-- `ier` -/
  ier : UInt8
  /-- `ora_no_hs` -/
  oraNoHs : UInt8
  /-- `via_flags` -/
  viaFlags : UInt8
  /-- `ay_regs` -/
  ayRegs : Fin 16 → UInt8
  /-- `count_a` and `out_a`, and those of the other voices. -/
  tone : Fin 3 → AyTone
  /-- `out_n` -/
  outN : UInt8
  /-- `count_n` -/
  countN : UInt32
  /-- `rng` -/
  rng : UInt32
  /-- `count_e` -/
  countE : UInt32
  /-- `envelope_step` -/
  envelopeStep : UInt32
  /-- `env_holding` -/
  envHolding : UInt8
  /-- `ay_current_register` -/
  ayCurrentRegister : UInt16
  /-- `env_attack` -/
  envAttack : UInt8

/-- **`MockingboardSaveState`**, with the size it is handed over with. -/
structure MockingboardSaveState where
  /-- The `size` of the buffer. -/
  size : Nat
  /-- `version` -/
  version : UInt32
  /-- `struct_size` -/
  structSize : UInt32
  /-- `chips` -/
  chips : Fin 2 → MockingboardChipSaveState
  /-- `psg_remainder` -/
  psgRemainder : UInt32

/-- `unpack_phase` -/
def unpackPhase (flags shift : UInt8) : ViaTimerPhase :=
  if (flags >>> shift) &&& 0x03 = 1 then .loadDelay
  else if (flags >>> shift) &&& 0x03 = 2 then .reloadPending
  else .running

namespace MockingboardChipSaveState

variable (src : MockingboardChipSaveState)

/-- The 6522 that `mb_abi_load_state` takes from a frame. -/
def loadVia : Via6522 where
  orb := src.orb
  ora := src.ora
  ddrb := src.ddrb
  ddra := src.ddra
  shiftRegister := src.serialShift
  acr := src.acr
  pcr := src.pcr
  ifr := src.ifr &&& ifrMask
  ier := src.ier &&& ifrMask
  oraNoHandshake := src.oraNoHs
  t1 := ⟨src.t1Counter, src.t1Latch, unpackPhase src.viaFlags 3, src.viaFlags &&& 0x01 ≠ 0⟩
  t2 := ⟨src.t2Counter, src.t2Latch, unpackPhase src.viaFlags 5, src.viaFlags &&& 0x02 ≠ 0⟩
  pb7 := src.viaFlags &&& 0x04 ≠ 0

/-- The sound chip that `mb_abi_load_state` takes from a frame: the registers
go in by the chip's own write. -/
def loadAy (psg : Ay8910) : Ay8910 :=
  let psg := (List.finRange 16).foldl (fun p r => p.ay8910Write r (src.ayRegs r)) psg
  let step := src.envelopeStep &&& 0x0F
  { psg with
    tone := src.tone
    outN := src.outN
    countN := src.countN
    rng := if src.rng ≠ 0 then src.rng else 1
    countE := src.countE
    envelopeStep := step
    envHolding := src.envHolding ≠ 0
    envAttack := src.envAttack ≠ 0
    envelopeVol := (if src.envAttack ≠ 0 then step else 15 - step).toUInt8 }

end MockingboardChipSaveState

/-- **`mb_abi_load_state`**: `none` when the frame is refused. -/
def Mockingboard.mbAbiLoadState (mb : Mockingboard) (ss : MockingboardSaveState) :
    Option Mockingboard :=
  if ss.size ≠ 232 then none
  else if ss.version ≠ 1 ∨ ss.structSize ≠ 232 then none
  else
    some <| updateIrq
      { mb with
        via := fun i => (ss.chips i).loadVia
        ay := fun i => (ss.chips i).loadAy (mb.ay i)
        ayLatchedRegister := fun i => Fin.ofNat 16 (ss.chips i).ayCurrentRegister.toNat
        psgRemainder := ss.psgRemainder.toNat % cyclesPerAyTick
        synced := 0 }

/-! ## The interrupt line -/

namespace Mockingboard

variable (mb : Mockingboard)

@[simp] theorem updateIrq_toMockingboardChips :
    mb.updateIrq.toMockingboardChips = mb.toMockingboardChips := by
  unfold updateIrq
  split_ifs <;> rfl

@[simp] theorem synced_updateIrq : mb.updateIrq.synced = mb.synced := by
  unfold updateIrq
  split_ifs <;> rfl

@[simp] theorem psgRemainder_updateIrq : mb.updateIrq.psgRemainder = mb.psgRemainder := by
  unfold updateIrq
  split_ifs <;> rfl

@[simp] theorem ticks_updateIrq : mb.updateIrq.ticks = mb.ticks := by
  unfold updateIrq
  split_ifs <;> rfl

@[simp] theorem stepVias_toMockingboardChips (cycles : Nat) :
    (mb.stepVias cycles).toMockingboardChips =
      { mb.toMockingboardChips with via := fun i => ((mb.via i).viaStep cycles).2 } := by
  unfold stepVias
  dsimp only
  split_ifs
  · exact updateIrq_toMockingboardChips _
  · rfl

@[simp] theorem synced_stepVias (cycles : Nat) : (mb.stepVias cycles).synced = mb.synced := by
  unfold stepVias
  dsimp only
  split_ifs
  · exact synced_updateIrq _
  · rfl

@[simp] theorem ticks_stepVias (cycles : Nat) : (mb.stepVias cycles).ticks = mb.ticks := by
  unfold stepVias
  dsimp only
  split_ifs
  · exact ticks_updateIrq _
  · rfl

/-- **`update_irq` makes the line say what the chips say.** -/
@[simp] theorem irqLine_updateIrq : mb.updateIrq.irqLine = mb.updateIrq.irq := by
  unfold updateIrq
  by_cases hirq : mb.irq = mb.irqLine
  · rw [if_pos hirq]
    exact hirq.symm
  · rw [if_neg hirq]

/-- The line keeps saying what the chips say when they are stepped. -/
theorem irqLine_stepVias {mb : Mockingboard} (h : mb.irqLine = mb.irq) (cycles : Nat) :
    (mb.stepVias cycles).irqLine = (mb.stepVias cycles).irq := by
  unfold stepVias
  dsimp only
  split_ifs with hchanged
  · exact irqLine_updateIrq _
  · -- no output has changed, so their disjunction has not either
    have hsame : ∀ i, ((mb.via i).viaStep cycles).1 = false →
        ((mb.via i).viaStep cycles).2.viaIrq = (mb.via i).viaIrq :=
      fun i hi => of_not_not (of_decide_eq_false hi)
    obtain ⟨h0, h1⟩ := Bool.or_eq_false_iff.mp (Bool.eq_false_iff.mpr hchanged)
    rw [h]
    show ((mb.via 0).viaIrq || (mb.via 1).viaIrq)
      = (((mb.via 0).viaStep cycles).2.viaIrq || ((mb.via 1).viaStep cycles).2.viaIrq)
    rw [hsame 0 h0, hsame 1 h1]

end Mockingboard

end LinApple.Cards
