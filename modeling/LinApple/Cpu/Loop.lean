import LinApple.Cpu.Tables

/-!
# The execution loop

One turn of the loop executes an instruction, packs the flags, and takes an
interrupt if one is requested. A slice is a run of turns up to a limit that
a handler may lower while it lasts; between slices the processor has no
context, only its registers. A loop that has not ended when its fuel is
spent has no result.
-/

namespace LinApple.Cpu

variable {W : Type*} (bus : Bus W) (cmos : Bool)

/-! ## One turn -/

/-- What an opcode's handler does. -/
def OpcodeDesc.run (d : OpcodeDesc) (s : CpuState W) : CpuState W :=
  d.op.run bus (d.mode.run bus s)

namespace CpuState

variable (s : CpuState W)

/-- The opcode at the program counter. -/
def opcode : UInt8 := (s.fetchOpcode bus).1

/-- `executed_cycles += cycles` -/
def charge (cycles : UInt32) : CpuState W :=
  { s with
    ctx := { s.ctx with executedCycles := s.ctx.executedCycles + cycles }
    host := { s.host with charges := s.host.charges ++ [cycles.toNat] } }

/-- `desc.base_cycles + ctx.extra_cycles` -/
def cycles (d : OpcodeDesc) : UInt32 :=
  d.baseCycles.toUInt32 + s.ctx.extraCycles.toUInt32

/-- The handler of an opcode that has been fetched, and its cycles. -/
def dispatch (d : OpcodeDesc) : CpuState W :=
  let s := d.run bus (s.setExtra 0)
  s.charge (s.cycles d)

/-- **One instruction**, up to `pack_ps`. -/
def execute : CpuState W :=
  let (opcode, s) := s.fetchOpcode bus
  (s.dispatch bus (opcodeDesc cmos opcode)).packPs

/-- The requests that arrive at the end of an instruction. -/
def arrive : CpuState W :=
  { s with host := { s.host with
      lines := (bus.requests s.host.turns).foldl InterruptLines.apply s.host.lines
      turns := s.host.turns + 1 } }

/-- The entry of an interrupt, up to its charge. -/
def enterInterrupt (vector : Nat) : CpuState W :=
  let s := (pushPc bus s).packPs
  let s := maskInterrupts (s.push bus (s.regs.ps &&& ~~~afBreak)) cmos
  jumpVector bus s vector

/-- The entry of an interrupt. -/
def interrupt (vector : Nat) : CpuState W :=
  (s.enterInterrupt bus cmos vector).charge 7

/-- `nmi_flank.exchange(false)` -/
def clearFlank : CpuState W :=
  { s with host := { s.host with lines := { s.host.lines with nmiFlank := false } } }

/-- `check_nmi` -/
def checkNmi : CpuState W :=
  if s.host.lines.nmiFlank then s.clearFlank.interrupt bus cmos nmiVectorAddr
  else s

/-- Whether `check_irq` finds a request that is not masked. -/
def irqPending : Prop :=
  s.host.lines.bmIrq ≠ 0 ∧ s.regs.ps &&& afInterrupt = 0

instance : Decidable s.irqPending := inferInstanceAs (Decidable (_ ∧ _))

/-- `check_irq` -/
def checkIrq : CpuState W :=
  if s.irqPending then s.interrupt bus cmos irqVectorAddr else s

/-- Whether `check_nmi` or `check_irq` finds a request. -/
def interruptPending : Prop := s.host.lines.nmiFlank ∨ s.irqPending

/-- **One turn of `cpu_execute_loop`.** -/
def turn : CpuState W :=
  (((s.execute bus cmos).arrive bus).checkNmi bus cmos).checkIrq bus cmos

/-- A turn without an interrupt is an instruction. -/
theorem turn_of_not_pending
    (h : ¬ ((s.execute bus cmos).arrive bus).interruptPending) :
    s.turn bus cmos = (s.execute bus cmos).arrive bus := by
  unfold interruptPending at h
  rw [not_or] at h
  unfold turn
  rw [checkNmi, if_neg h.1, checkIrq, if_neg h.2]

/-- `ctx.executed_cycles < cycles_limit` -/
def goesOn : Prop := s.ctx.executedCycles < s.host.clock.cyclesLimit

instance : Decidable s.goesOn := inferInstanceAs (Decidable (_ < _))

end CpuState

/-- `cpu_execute_loop`, from its first turn. -/
def cpuExecuteLoop : Nat → CpuState W → Option (CpuState W)
  | 0, _ => none
  | fuel + 1, s =>
    let s := s.turn bus cmos
    if s.goesOn then cpuExecuteLoop fuel s else some s

/-- **The turns of a loop that has not ended in between.** -/
inductive Turns : CpuState W → CpuState W → Prop where
  | last (s : CpuState W) : Turns s (s.turn bus cmos)
  | more {s t : CpuState W} (hs : (s.turn bus cmos).goesOn)
    (ht : Turns (s.turn bus cmos) t) : Turns s t

section Turns

variable {bus cmos} {s t u : CpuState W}

/-- The loop ends after turns it goes on after, at one it does not. -/
theorem turns_of_loop {fuel : Nat} (h : cpuExecuteLoop bus cmos fuel s = some t) :
    Turns bus cmos s t ∧ ¬ t.goesOn := by
  induction fuel generalizing s with
  | zero => cases h
  | succ fuel ih =>
    unfold cpuExecuteLoop at h
    by_cases hg : (s.turn bus cmos).goesOn
    · simp only [hg, if_true] at h
      exact ⟨.more hg (ih h).1, (ih h).2⟩
    · simp only [hg, if_false, Option.some.injEq] at h
      subst h
      exact ⟨.last s, hg⟩

/-- Where the loop ends does not depend on its fuel. -/
theorem Turns.loop_unique (h : Turns bus cmos s t) (ht : ¬ t.goesOn) {fuel : Nat}
    (hu : cpuExecuteLoop bus cmos fuel s = some u) : u = t := by
  induction h generalizing fuel with
  | last s =>
    cases fuel with
    | zero => cases hu
    | succ fuel =>
      unfold cpuExecuteLoop at hu
      simp only [ht, if_false, Option.some.injEq] at hu
      exact hu.symm
  | more hs _ ih =>
    cases fuel with
    | zero => cases hu
    | succ fuel =>
      unfold cpuExecuteLoop at hu
      simp only [hs, if_true] at hu
      exact ih ht hu

theorem Turns.append (h : Turns bus cmos s t) (ht : t.goesOn)
    (hu : Turns bus cmos t u) : Turns bus cmos s u := by
  induction h with
  | last s => exact .more ht hu
  | more hs _ ih => exact .more hs (ih ht hu)

end Turns

/-! ## Slices -/

/-- **The processor between slices.** The context of the loop is gone then: it is set up from the
registers when a slice begins, and packed back into them when it ends. -/
structure CpuInstance (W : Type*) where
  /-- `regs` -/
  regs : CpuRegisters
  /-- The rest of the machine. -/
  host : Host W

namespace CpuInstance

variable (p : CpuInstance W)

/-- A function of the cycle counts. -/
def mapClock (f : Clock → Clock) : CpuInstance W :=
  { p with host := { p.host with clock := f p.host.clock } }

/-- The context `cpu_execute_loop` begins with. -/
def enter : CpuState W :=
  CpuState.unpackPs
    { regs := p.regs
      ctx := ⟨0, 0, 0, 0, 0, 0, 0, p.host.clock.cyclesExecuted⟩
      host := p.host }

end CpuInstance

/-- The context is dropped, and the cycles that are left are counted. -/
def CpuState.leave (s : CpuState W) : CpuInstance W :=
  let remainingCycles := s.ctx.executedCycles - s.host.clock.cyclesExecuted
  { regs := s.regs
    host := { s.host with clock := { s.host.clock with
      cumulativeCycles := s.host.clock.cumulativeCycles + remainingCycles.toUInt64
      cyclesExecuted := s.ctx.executedCycles
      inSlice := false } } }

/-- `cpu_begin_frame` -/
def cpuBeginFrame (p : CpuInstance W) : CpuInstance W :=
  p.mapClock fun clock => { clock with cyclesExecuted := 0 }

/-- **`cpu_execute_slice`** -/
def cpuExecuteSlice (fuel : Nat) (frameCycles : UInt32) (untilCycle : UInt64)
    (p : CpuInstance W) : Option (CpuInstance W) :=
  let p := p.mapClock fun clock => cpuLimitCycles untilCycle
    { clock with inSlice := true, cyclesLimit := frameCycles }
  (cpuExecuteLoop bus cmos fuel p.enter).map CpuState.leave

/-- A frame cut into slices, until its cycles have been executed. -/
def runSlices (fuel : Nat) (frameCycles : UInt32) :
    List UInt64 → CpuInstance W → Option (CpuInstance W)
  | [], p => some p
  | untilCycle :: rest, p => do
    let p ← cpuExecuteSlice bus cmos fuel frameCycles untilCycle p
    if p.host.clock.cyclesExecuted < frameCycles then
      runSlices fuel frameCycles rest p
    else some p

/-! ## A machine of memory alone -/

/-- **A machine with 64 KiB of memory and nothing else.** -/
def Bus.flat : Bus (Nat → UInt8) where
  mem world i := world i
  poke world i v := fun j => if j = i then v else world j
  markDirty world _ := world
  store world a v := some fun j => if j = a.toNat then v else world j
  io world _ := (0, world, [])
  requests _ := []

/-- A program put at an address, in memory that is zero elsewhere. -/
def flatMemory (start : Nat) (program : List UInt8) (i : Nat) : UInt8 :=
  if i < start then 0 else program.getD (i - start) 0

/-- The processor in front of a program. -/
def CpuInstance.flat (start : UInt16) (program : List UInt8) (x : UInt8) :
    CpuInstance (Nat → UInt8) where
  regs := ⟨0, x, 0, afReserved ||| afBreak, start, stackEnd, false⟩
  host := ⟨flatMemory start.toNat program, ⟨0, 0, 0, false⟩, ⟨0, 0, false⟩, 0, [], [], []⟩

end LinApple.Cpu
