import LinApple.Cpu.Loop
import LinApple.Debugger.Image
import LinApple.Debugger.Targets

/-!
# Run control

The commands that let a program run, from the debugger's side: each leaves
what it wants in a handful of variables – how many steps, until where, which
range to skip – and `DebugContinueStepping` is called over and over while the
debugger is stepping. An instruction that must not be executed yet is held
back once, and executed by the next call whatever it is.

Breakpoints are kept in a table of their own. The session carries a count of
the instructions that have been executed.
-/

namespace LinApple.Debugger

open Cpu (CpuRegisters CpuInstance Bus)

/-! ## What is stepped -/

section Machine

variable {W : Type*} (bus : Bus W) (cmos : Bool)

/-- `cpu_step`, which is `cpu_execute(0)`: the loop ends after its first turn,
as no count of cycles is below zero. -/
def cpuStep (p : CpuInstance W) : CpuInstance W :=
  let p := p.mapClock fun clock => { clock with cyclesExecuted := 0, cyclesLimit := 0 }
  let s := p.enter.turn bus cmos
  let remainingCycles := s.ctx.executedCycles - s.host.clock.cyclesExecuted
  { regs := s.regs
    host := { s.host with clock := { s.host.clock with
      cumulativeCycles := s.host.clock.cumulativeCycles + remainingCycles.toUInt64 } } }

/-- What `mem_is_addr_code_memory` looks at. -/
structure CodeMemory where
  /-- `is_apple2()` -/
  isApple2 : Bool
  /-- `sw_slotcxrom` -/
  slotcxrom : Bool
  /-- `sw_slotc3rom` -/
  slotc3rom : Bool
  /-- `bm_slot_init` -/
  bmSlotInit : UInt32
  /-- `expansion_rom_type == EXP_ROM_NULL` -/
  noExpansionRom : Bool
  /-- `io_select != 0` -/
  ioSelect : Bool
  /-- `io_select_internal_rom != 0` -/
  ioSelectInternalRom : Bool
deriving DecidableEq, Repr

/-- `mem_is_addr_code_memory` -/
def memIsAddrCodeMemory (m : CodeMemory) (addr : UInt16) : Bool :=
  if addr < 0xC000 ∨ addr > 0xCFFF then true
  else if addr < 0xC100 then false
  else if !m.isApple2 ∧ m.slotcxrom then true
  else if !m.isApple2 ∧ !m.slotc3rom ∧ addr >>> 8 = 0xC3 then true
  else if addr ≤ 0xC7FF then
    m.bmSlotInit &&& ((1 : UInt32) <<< ((addr >>> 8) &&& 7).toUInt32) != 0
  else if m.noExpansionRom then m.ioSelect || m.ioSelectInternalRom
  else true

end Machine

/-! ## Breakpoints -/

/-- `BreakpointSource`, for the registers and the flags. -/
inductive BreakpointSource where
  | regA | regX | regY | regPc | regS | regP
  | flagC | flagZ | flagI | flagD | flagB | flagR | flagV | flagN
deriving DecidableEq, Repr

/-- `BreakpointOperator`, for the registers and the flags. -/
inductive BreakpointOperator where
  | lessEqual | lessThan | equal | notEqual | greaterThan | greaterEqual
deriving DecidableEq, Repr

/-- `Breakpoint` -/
structure Breakpoint where
  /-- `address` -/
  address : UInt16
  /-- `nLength` -/
  length : UInt16
  /-- `eSource` -/
  source : BreakpointSource
  /-- `eOperator` -/
  operator : BreakpointOperator
  /-- `bSet` -/
  isSet : Bool
  /-- `bEnabled` -/
  isEnabled : Bool
  /-- `bTemp` -/
  isTemp : Bool
deriving DecidableEq, Repr

/-- A slot of the table that is free. -/
def Breakpoint.cleared : Breakpoint :=
  ⟨0, 0, .regA, .lessEqual, false, false, false⟩

/-- `breakpoints`, with none set. -/
def noBreakpoints : List Breakpoint := List.replicate 16 .cleared

/-- `CmdBreakpointAddCommonArg`: the table after it, if a slot was free. -/
def cmdBreakpointAddCommonArg (breakpoints : List Breakpoint) (value : UInt16)
    (source : BreakpointSource) (operator : BreakpointOperator) :
    Option (List Breakpoint) :=
  (breakpoints.findIdx? fun b => !b.isSet).map fun i =>
    breakpoints.set i ⟨value, 1, source, operator, true, true, false⟩

/-- **A condition the user gives**: a register, an operator and a value. -/
structure Condition where
  /-- The register. -/
  source : BreakpointSource
  /-- The operator. -/
  operator : BreakpointOperator
  /-- The value. -/
  value : UInt16
deriving DecidableEq, Repr

/-- The value of a register or a flag. -/
def BreakpointSource.read (regs : CpuRegisters) : BreakpointSource → UInt16
  | .regA => regs.a.toUInt16
  | .regX => regs.x.toUInt16
  | .regY => regs.y.toUInt16
  | .regPc => regs.pc
  | .regS => regs.sp
  | .regP => regs.ps.toUInt16
  | .flagC => if regs.ps &&& Cpu.afCarry ≠ 0 then 1 else 0
  | .flagZ => if regs.ps &&& Cpu.afZero ≠ 0 then 1 else 0
  | .flagI => if regs.ps &&& Cpu.afInterrupt ≠ 0 then 1 else 0
  | .flagD => if regs.ps &&& Cpu.afDecimal ≠ 0 then 1 else 0
  | .flagB => if regs.ps &&& Cpu.afBreak ≠ 0 then 1 else 0
  | .flagR => if regs.ps &&& Cpu.afReserved ≠ 0 then 1 else 0
  | .flagV => if regs.ps &&& Cpu.afOverflow ≠ 0 then 1 else 0
  | .flagN => if regs.ps &&& Cpu.afSign ≠ 0 then 1 else 0

/-- What an operator compares. -/
def BreakpointOperator.holds (v w : UInt16) : BreakpointOperator → Bool
  | .lessEqual => v ≤ w
  | .lessThan => v < w
  | .equal => v == w
  | .notEqual => v != w
  | .greaterThan => v > w
  | .greaterEqual => v ≥ w

/-- Whether a condition holds. -/
def Condition.holds (c : Condition) (regs : CpuRegisters) : Bool :=
  c.operator.holds (c.source.read regs) c.value

/-- **The commands that enter breakpoints**, with what their arguments say. -/
inductive Entry where
  /-- `CmdBreakpointAddPC` -/
  | pc (values : List UInt16)
  /-- `CmdBreakpointAddReg`, given a register, an operator and a value; the
  first argument has a value of its own. -/
  | reg (given : Condition) (value1 : UInt16)
deriving DecidableEq, Repr

/-- The table, and the conditions of the breakpoints in it. -/
structure Entered where
  /-- `breakpoints` -/
  breakpoints : List Breakpoint
  /-- What the user has given for them. -/
  conditions : List Condition
deriving DecidableEq, Repr

/-- A breakpoint entered, if a slot is free. -/
def Entered.add (e : Entered) (given : Condition) (value : UInt16)
    (source : BreakpointSource) (operator : BreakpointOperator) : Entered :=
  match cmdBreakpointAddCommonArg e.breakpoints value source operator with
  | some breakpoints => ⟨breakpoints, e.conditions ++ [given]⟩
  | none => e

/-- `CmdBreakpointAddPC` and `CmdBreakpointAddReg`: whichever register and
operator are given, the second stores the same two. -/
def Entered.enter (e : Entered) : Entry → Entered
  | .pc values =>
    values.foldl (fun e value => e.add ⟨.regPc, .equal, value⟩ value .regPc .equal) e
  | .reg given value1 => e.add given value1 .regA .equal

/-- A list of breakpoints entered into an empty table. -/
def enterAll (entries : List Entry) : Entered :=
  entries.foldl Entered.enter ⟨noBreakpoints, []⟩

/-! ## The variables -/

/-- `AppMode` -/
inductive AppMode where
  | logo | paused | running | debug | stepping | diskChoose | exit
deriving DecidableEq, Repr

/-- `BP_HIT_NONE` -/
def bpHitNone : UInt32 := 0
/-- `BP_HIT_INVALID` -/
def bpHitInvalid : UInt32 := 0x01
/-- `BP_HIT_OPCODE` -/
def bpHitOpcode : UInt32 := 0x02
/-- `BP_HIT_PC_READ_FLOATING_BUS_OR_IO_MEM` -/
def bpHitPcReadFloatingBusOrIoMem : UInt32 := 0x40

/-- **The variables of the run control.** -/
structure RunControl where
  /-- `debug_steps` -/
  debugSteps : Int
  /-- `debug_step_start` -/
  debugStepStart : Int
  /-- `debug_step_until` -/
  debugStepUntil : Int
  /-- `debug_skip_start` -/
  debugSkipStart : Int
  /-- `debug_skip_len` -/
  debugSkipLen : Int
  /-- `bForceSingleStepNext` -/
  forceSingleStepNext : Bool
  /-- `debug_breakpoint_hit` -/
  debugBreakpointHit : UInt32
  /-- `debug_break_on_invalid` -/
  debugBreakOnInvalid : UInt32
  /-- `debug_break_on_opcode` -/
  debugBreakOnOpcode : Nat
  /-- `breakpoints` -/
  breakpoints : List Breakpoint
  /-- `system_state.mode` -/
  mode : AppMode
deriving DecidableEq, Repr

/-- **A session of the debugger**: its variables, the processor, and how many
instructions have been executed. -/
structure Session (W : Type*) where
  /-- The variables. -/
  ctl : RunControl
  /-- The processor and the machine. -/
  cpu : CpuInstance W
  /-- How often `cpu_step` was called. -/
  executed : Nat

/-! ## Stepping -/

/-- `IsDebugBreakOnInvalid` -/
def RunControl.breakOnInvalid (ctl : RunControl) (opcodeType : UInt32) (hit : UInt32) :
    UInt32 :=
  hit ||| (if (ctl.debugBreakOnInvalid >>> opcodeType) &&& 1 ≠ 0 then bpHitInvalid else 0)

/-- The opcodes the table has a name in lower case for. -/
def isUndocumented (opcode : UInt8) : Bool := opcode ∉ documented true

/-- `CheckBreakOpcode` -/
def RunControl.checkBreakOpcode (ctl : RunControl) (opcode : UInt8) (hit : UInt32) :
    UInt32 :=
  let hit := if opcode = 0x00 then ctl.breakOnInvalid 0 hit else hit
  let hit := if isUndocumented opcode then ctl.breakOnInvalid 1 hit else hit
  if ctl.debugBreakOnOpcode ≠ 0 ∧ ctl.debugBreakOnOpcode = opcode.toNat then
    hit ||| bpHitOpcode
  else hit

namespace Session

variable {W : Type*} (bus : Bus W) (cmos : Bool) (code : W → CodeMemory) (s : Session W)

/-- `*(mem + cpu_get_registers()->pc)` -/
def opcode : UInt8 := bus.mem s.cpu.host.world s.cpu.regs.pc.toNat

/-- Whether the program counter is in the range that is skipped. -/
def isSkipped (ctl : RunControl) (p : CpuInstance W) : Prop :=
  ctl.debugSkipStart ≤ p.regs.pc.toNat
    ∧ p.regs.pc.toNat < ctl.debugSkipStart + ctl.debugSkipLen

instance (ctl : RunControl) (p : CpuInstance W) : Decidable (isSkipped ctl p) :=
  inferInstanceAs (Decidable (_ ∧ _))

/-- What `DebugContinueStepping` begins with: inside the range there is no end
to the steps, and outside it there is one left. -/
def skip : Session W :=
  if s.ctl.debugSkipLen > 0 then
    { s with ctl := { s.ctl with
      debugSteps := if isSkipped s.ctl s.cpu then -1 else 1
      mode := .stepping } }
  else s

/-- `debug_breakpoint_hit`, as it is found before an instruction. -/
def hit : UInt32 :=
  if memIsAddrCodeMemory (code s.cpu.host.world) s.cpu.regs.pc then
    s.ctl.checkBreakOpcode (s.opcode bus) bpHitNone
  else bpHitPcReadFloatingBusOrIoMem

/-- An instruction is held back. -/
def holdBack : Session W :=
  { s with ctl := { s.ctl with
    debugBreakpointHit := s.hit bus code, forceSingleStepNext := true } }

/-- An instruction is executed. -/
def singleStep : Session W :=
  { ctl := { s.ctl with
      debugSteps := if s.ctl.debugSteps > 0 then s.ctl.debugSteps - 1 else s.ctl.debugSteps
      debugBreakpointHit :=
        if s.ctl.forceSingleStepNext then s.ctl.debugBreakpointHit else bpHitNone
      forceSingleStepNext := false
      mode := if s.ctl.mode = .debug then .stepping else s.ctl.mode }
    cpu := cpuStep bus cmos s.cpu
    executed := s.executed + 1 }

/-- The steps have run out. -/
def finish : Session W :=
  if s.ctl.debugSteps = 0 ∧ !s.ctl.forceSingleStepNext then
    { s with ctl := { s.ctl with mode := .debug } }
  else s

/-- **`DebugContinueStepping`** -/
def debugContinueStepping : Session W :=
  let s := s.skip
  finish <|
    if s.ctl.debugSteps ≠ 0 ∨ s.ctl.forceSingleStepNext then
      if !s.ctl.forceSingleStepNext ∧ s.hit bus code ≠ 0 then s.holdBack bus code
      else s.singleStep bus cmos
    else s

/-- The session after a number of calls. -/
def calls (n : Nat) : Session W := (debugContinueStepping bus cmos code)^[n] s

/-! ## The commands -/

/-- The range to skip, from the second argument of `CmdGo` on, unless it shows
the help. -/
def goSkip (args : Nat → Arg) (nArgs : Nat) : Option (Int × Int) :=
  let start : Int := (args 2).value.toNat
  let len (nEnd : Int) : Int := (nEnd - start).natAbs % 0x10000
  if nArgs > 4 then none
  else if nArgs > 1 then
    if nArgs > 2 then
      match (args 3).token with
      | .comma =>
        if nArgs > 3 then
          some (start, len (min (start + (args 4).value.toNat) 0x10000))
        else none
      | .colon => some (start, len ((args 4).value.toNat + 1))
      | .other => none
    else none
  else some (-1, -1)

/-- `CmdGo` -/
def cmdGo (args : Nat → Arg) (nArgs : Nat) : Session W :=
  let ctl := { s.ctl with
    debugSteps := -1
    debugStepStart := s.cpu.regs.pc.toNat
    debugStepUntil := if nArgs ≠ 0 then ((args 1).value.toNat : Int) else -1
    debugSkipStart := -1
    debugSkipLen := -1 }
  match goSkip args nArgs with
  | none =>
    { s with ctl := { ctl with
      debugSkipStart := if 1 < nArgs ∧ nArgs ≤ 4 then ((args 2).value.toNat : Int) else -1 } }
  | some (start, len) =>
    { s with ctl := { ctl with
      debugSkipStart := start, debugSkipLen := len, mode := .stepping } }

/-- `CmdTrace` -/
def cmdTrace (args : Nat → Arg) (nArgs : Nat) : Session W :=
  debugContinueStepping bus cmos code
    { s with ctl := { s.ctl with
      debugSteps := if nArgs ≠ 0 then ((args 1).value.toNat : Int) else 1
      debugStepStart := s.cpu.regs.pc.toNat
      debugStepUntil := -1
      mode := .stepping } }

/-- `GetStackReturnAddress` -/
def getStackReturnAddress (p : CpuInstance W) : Option UInt16 :=
  let stack := p.regs.sp.toNat + 1
  if stack ≤ 0x1FE then
    some ((bus.mem p.host.world stack).toUInt16
      + ((bus.mem p.host.world (stack + 1)).toUInt16 <<< 8) + 1)
  else none

/-- `CmdStepOut`, which hands the address on as the argument of `CmdGo`. -/
def cmdStepOut : Session W :=
  match getStackReturnAddress bus s.cpu with
  | some address => s.cmdGo (fun _ => ⟨address, .other, false, false, []⟩) 1
  | none => s

/-- `while (debug_steps != 0) DebugContinueStepping(true)` -/
def stepLoop : Nat → Session W → Option (Session W)
  | 0, _ => none
  | fuel + 1, s =>
    if s.ctl.debugSteps = 0 then some s
    else stepLoop fuel (debugContinueStepping bus cmos code s)

/-- One turn of the loop of `CmdStepOver`. -/
def stepOver (fuel : Nat) : Option (Session W) :=
  let traced := s.cmdTrace bus cmos code (fun _ => ⟨0, .other, false, false, []⟩) 0
  if s.opcode bus = opcodeJsr then
    let out := traced.cmdStepOut bus
    stepLoop bus cmos code fuel { out with ctl := { out.ctl with debugSteps := 0xFFFF } }
  else some traced

/-- The loop of `CmdStepOver`. -/
def stepOverLoop (fuel : Nat) : Nat → Session W → Option (Session W)
  | 0, s => some s
  | n + 1, s => (s.stepOver bus cmos code fuel).bind (stepOverLoop fuel n)

/-- `CmdStepOver` -/
def cmdStepOver (fuel : Nat) (args : Nat → Arg) (nArgs : Nat) : Option (Session W) :=
  stepOverLoop bus cmos code fuel (if nArgs ≠ 0 then (args 1).value.toNat else 1) s

end Session

end LinApple.Debugger
