import Mathlib.Tactic.Common

/-!
# The processor's state

The registers, the context the execution loop keeps them in between two
packings of the flags, and everything the processor reaches outside itself:
the 64 KiB image it reads directly, the pages it writes through, the I/O
handlers, the interrupt lines and the cycle counts. The machine around the
processor is a parameter (`Bus`): any image, any handlers. What the
processor does is kept in three logs: the accesses the handlers saw, the
places of the image that were read, and the cycles that were charged.
-/

namespace LinApple.Cpu

/-! ## Registers -/

/-- `CpuRegisters` -/
structure CpuRegisters where
  /-- The accumulator. -/
  a : UInt8
  /-- An index register. -/
  x : UInt8
  /-- An index register. -/
  y : UInt8
  /-- The packed flags. -/
  ps : UInt8
  /-- The program counter. -/
  pc : UInt16
  /-- The address of the stack pointer, in page 1. -/
  sp : UInt16
  /-- Whether the processor has crashed. -/
  isJammed : Bool
deriving DecidableEq, Repr

/-- `CpuLoopContext` -/
structure CpuLoopContext where
  /-- The address an addressing mode has found. -/
  addr : UInt16
  /-- The address before indexing. -/
  base : UInt16
  /-- What an instruction is charged beyond its base cycles. -/
  extraCycles : UInt16
  /-- The carry, 0 or 1. -/
  flagc : UInt8
  /-- The sign, in bit 7. -/
  flagn : UInt8
  /-- The overflow, set if not 0. -/
  flagv : UInt8
  /-- The zero flag, set if not 0. -/
  flagz : UInt8
  /-- The cycles of the frame so far. -/
  executedCycles : UInt32
deriving DecidableEq, Repr

/-- `AF_OVERFLOW` -/
def afOverflow : UInt8 := 0x40
/-- `AF_SIGN` -/
def afSign : UInt8 := 0x80
/-- `AF_RESERVED` -/
def afReserved : UInt8 := 0x20
/-- `AF_BREAK` -/
def afBreak : UInt8 := 0x10
/-- `AF_DECIMAL` -/
def afDecimal : UInt8 := 0x08
/-- `AF_INTERRUPT` -/
def afInterrupt : UInt8 := 0x04
/-- `AF_ZERO` -/
def afZero : UInt8 := 0x02
/-- `AF_CARRY` -/
def afCarry : UInt8 := 0x01

/-- `NMI_VECTOR_ADDR` -/
def nmiVectorAddr : Nat := 0xFFFA
/-- `IRQ_VECTOR_ADDR` -/
def irqVectorAddr : Nat := 0xFFFE
/-- `STACK_BEGIN` -/
def stackBegin : UInt16 := 0x0100
/-- `STACK_END` -/
def stackEnd : UInt16 := 0x01FF

/-- An address in `IO_REGION_START`'s region. -/
def isIoRegion (a : UInt16) : Bool := a &&& 0xF000 == 0xC000

/-! ## The interrupt lines -/

/-- `bm_irq`, `bm_nmi` and `nmi_flank` -/
structure InterruptLines where
  /-- The devices that ask for an interrupt. -/
  bmIrq : UInt32
  /-- The devices that hold the line of the other interrupt. -/
  bmNmi : UInt32
  /-- Whether that line has become active. -/
  nmiFlank : Bool
deriving DecidableEq, Repr

/-- What a device, or another thread, does to the interrupt lines. -/
inductive LineCall where
  /-- `cpu_irq_assert` -/
  | irqAssert (device : UInt32)
  /-- `cpu_irq_deassert` -/
  | irqDeassert (device : UInt32)
  /-- `cpu_irq_reset` -/
  | irqReset
  /-- `cpu_nmi_assert` -/
  | nmiAssert (device : UInt32)
  /-- `cpu_nmi_deassert` -/
  | nmiDeassert (device : UInt32)
  /-- `cpu_nmi_reset` -/
  | nmiReset
deriving DecidableEq, Repr

/-- The lines after a call. -/
def InterruptLines.apply (lines : InterruptLines) : LineCall → InterruptLines
  | .irqAssert device => { lines with bmIrq := lines.bmIrq ||| (1 <<< device) }
  | .irqDeassert device =>
    { lines with bmIrq := lines.bmIrq &&& ~~~((1 : UInt32) <<< device) }
  | .irqReset => { lines with bmIrq := 0 }
  | .nmiAssert device =>
    { lines with
      nmiFlank := if lines.bmNmi = 0 then true else lines.nmiFlank
      bmNmi := lines.bmNmi ||| (1 <<< device) }
  | .nmiDeassert device =>
    { lines with bmNmi := lines.bmNmi &&& ~~~((1 : UInt32) <<< device) }
  | .nmiReset => { lines with bmNmi := 0, nmiFlank := false }

/-! ## The cycle counts -/

/-- `cumulative_cycles`, `cycles_executed`, `cycles_limit` and
`in_slice` -/
structure Clock where
  /-- The cycles since the machine was switched on. -/
  cumulativeCycles : UInt64
  /-- The cycles of the frame that are in that count. -/
  cyclesExecuted : UInt32
  /-- The count of the frame at which the running slice ends. -/
  cyclesLimit : UInt32
  /-- Whether a slice is running. -/
  inSlice : Bool
deriving DecidableEq, Repr

/-- `cpu_calc_cycles` -/
def cpuCalcCycles (executedCycles : UInt32) (clock : Clock) : Clock :=
  let cycles := executedCycles - clock.cyclesExecuted
  { clock with
    cyclesExecuted := clock.cyclesExecuted + cycles
    cumulativeCycles := clock.cumulativeCycles + cycles.toUInt64 }

/-- The bound `cpu_limit_cycles` computes, in cycles of the frame. -/
def Clock.bound (clock : Clock) (atCumulative : UInt64) : UInt64 :=
  clock.cyclesExecuted.toUInt64
    + (if atCumulative > clock.cumulativeCycles then
        atCumulative - clock.cumulativeCycles else 0)

/-- `cpu_limit_cycles` -/
def cpuLimitCycles (atCumulative : UInt64) (clock : Clock) : Clock :=
  if !clock.inSlice ∨ atCumulative = 0xFFFFFFFFFFFFFFFF then clock
  else
    { clock with
      cyclesLimit :=
        if clock.bound atCumulative < clock.cyclesLimit.toUInt64 then
          (clock.bound atCumulative).toUInt32
        else clock.cyclesLimit }

/-- The cycle the machine stands at when the frame has come this far. -/
def Clock.now (clock : Clock) (executedCycles : UInt32) : UInt64 :=
  clock.cumulativeCycles + (executedCycles - clock.cyclesExecuted).toUInt64

/-! ## The machine around the processor -/

/-- What a handler may ask of the processor. -/
inductive HostCall where
  /-- `cpu_calc_cycles`, with the count the handler was given. -/
  | calcCycles
  /-- `cpu_limit_cycles` -/
  | limitCycles (atCumulative : UInt64)
  /-- A call to the interrupt lines. -/
  | line (call : LineCall)
deriving DecidableEq, Repr

/-- An access that goes to the I/O handlers. -/
structure IoAccess where
  /-- The program counter. -/
  pc : UInt16
  /-- The address. -/
  addr : UInt16
  /-- Whether it is a write. -/
  isWrite : Bool
  /-- The byte written. -/
  value : UInt8
  /-- `executed_cycles` -/
  executedCycles : UInt32
  /-- The cycle it happens at. -/
  now : UInt64
deriving DecidableEq, Repr

/-- **The machine around the processor**: an image that can be read at any
place a pointer reaches, pages that can be written through, handlers for the
I/O region, and the interrupt requests that arrive at the boundaries between
instructions. -/
structure Bus (W : Type*) where
  /-- `mem` -/
  mem : W → Nat → UInt8
  /-- A byte put directly into the image. -/
  poke : W → Nat → UInt8 → W
  /-- A page of `memdirty` is marked. -/
  markDirty : W → UInt8 → W
  /-- A byte written through `memwrite`, if there is a page. -/
  store : W → UInt16 → UInt8 → Option W
  /-- `io_map_dispatch` -/
  io : W → IoAccess → UInt8 × W × List HostCall
  /-- The requests that arrive at the end of an instruction, by its
  number. -/
  requests : Nat → List LineCall

/-- **What the processor reaches outside itself**, with the logs. -/
structure Host (W : Type*) where
  /-- The machine's state. -/
  world : W
  /-- The cycle counts. -/
  clock : Clock
  /-- The interrupt lines. -/
  lines : InterruptLines
  /-- The number of instructions that have been executed. -/
  turns : Nat
  /-- The accesses the handlers saw. -/
  accesses : List IoAccess
  /-- The places of the image that were read. -/
  fetched : List Nat
  /-- What the instructions and the interrupt entries were charged. -/
  charges : List Nat

namespace Host

variable {W : Type*} (bus : Bus W) (h : Host W)

/-- A call of a handler that was given a count. -/
def call (executedCycles : UInt32) (h : Host W) : HostCall → Host W
  | .calcCycles => { h with clock := cpuCalcCycles executedCycles h.clock }
  | .limitCycles atCumulative =>
    { h with clock := cpuLimitCycles atCumulative h.clock }
  | .line c => { h with lines := h.lines.apply c }

/-- A place of the image is read. -/
def fetch (i : Nat) : UInt8 × Host W :=
  (bus.mem h.world i, { h with fetched := h.fetched ++ [i] })

/-- `read_u16_unaligned` of the image. -/
def fetch16 (i : Nat) : UInt16 × Host W :=
  ((bus.mem h.world i).toUInt16 ||| ((bus.mem h.world (i + 1)).toUInt16 <<< 8),
    { h with fetched := h.fetched ++ [i, i + 1] })

/-- `io_map_dispatch`, and what the handler asks of the processor. -/
def ioMapDispatch (pc a : UInt16) (isWrite : Bool) (value : UInt8)
    (executedCycles : UInt32) : UInt8 × Host W :=
  let access : IoAccess :=
    ⟨pc, a, isWrite, value, executedCycles, h.clock.now executedCycles⟩
  let (result, world, calls) := bus.io h.world access
  (result, calls.foldl (call executedCycles)
    { h with world, accesses := h.accesses ++ [access] })

/-- `read_byte` -/
def readByte (pc a : UInt16) (executedCycles : UInt32) : UInt8 × Host W :=
  if isIoRegion a then h.ioMapDispatch bus pc a false 0 executedCycles
  else h.fetch bus a.toNat

/-- `write_byte` -/
def writeByte (pc a : UInt16) (value : UInt8) (executedCycles : UInt32) :
    Host W :=
  let marked := bus.markDirty h.world (a >>> 8).toUInt8
  match bus.store marked a value with
  | some world => { h with world }
  | none =>
    if isIoRegion a then
      ({ h with world := marked }.ioMapDispatch bus pc a true value
        executedCycles).2
    else { h with world := marked }

/-- A byte put on the stack. -/
def poke (a : UInt16) (value : UInt8) : Host W :=
  { h with world := bus.poke h.world a.toNat value }

end Host

/-- **The processor** with what it reaches. -/
structure CpuState (W : Type*) where
  /-- `regs` -/
  regs : CpuRegisters
  /-- The loop's context. -/
  ctx : CpuLoopContext
  /-- The rest of the machine. -/
  host : Host W

end LinApple.Cpu
