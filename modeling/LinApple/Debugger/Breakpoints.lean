import LinApple.Debugger.RunControl
import Mathlib.Data.Finset.Card
import Mathlib.Data.Finset.Range
import Mathlib.Logic.Function.Basic

/-!
# Breakpoints, watches and their counts

The breakpoints and the watches are two tables of the same kind, each with a count of its set
slots that every command keeps by hand. A table is a function of its slots here, so that a slot
outside it could be touched.
-/

namespace LinApple.Debugger

/-- `MAX_BREAKPOINTS` -/
def maxBreakpoints : Nat := 16

/-- `MAX_WATCHES` -/
def maxWatches : Nat := 16

/-- A table of breakpoints or watches, with its count. -/
structure BwzTable where
  /-- `breakpoints` or `watches` -/
  slots : Nat → Breakpoint
  /-- `breakpoints_count` or `watches_count` -/
  total : Int

namespace BwzTable

variable (t : BwzTable)

/-- A table with no slot set. -/
def blank : BwzTable := ⟨fun _ => .cleared, 0⟩

/-- `bwz_Clear` -/
def bwzClear (slots : Nat → Breakpoint) (slot : Nat) : Nat → Breakpoint :=
  Function.update slots slot .cleared

/-- **`bwz_RemoveOne`** -/
def bwzRemoveOne (slot : Nat) : BwzTable :=
  if (t.slots slot).isSet then ⟨bwzClear t.slots slot, t.total - 1⟩ else t

/-- `bwz_RemoveAll` -/
def bwzRemoveAll (max : Nat) : BwzTable := ⟨(List.range max).foldl bwzClear t.slots, 0⟩

/-- **`bwz_ClearViaArgs`** -/
def bwzClearViaArgs (args : List UInt16) (max : Nat) : BwzTable :=
  args.foldl (fun t arg => if arg.toNat < max then t.bwzRemoveOne arg.toNat else t) t

/-- `bwz_EnableDisableViaArgs` -/
def bwzEnableDisableViaArgs (args : List UInt16) (max : Nat) (enabled : Bool) : BwzTable :=
  args.foldl (fun t arg =>
    if arg.toNat < max then
      ⟨Function.update t.slots arg.toNat { t.slots arg.toNat with isEnabled := enabled }, t.total⟩
    else t) t

/-- The first slot that is not set, or the end of the table. -/
def firstFree (max : Nat) : Nat := ((List.range max).find? fun i => !(t.slots i).isSet).getD max

/-! ## Breakpoints -/

/-- `ClearTempBreakpoints` -/
def clearTempBreakpoints : BwzTable :=
  (List.range maxBreakpoints).foldl
    (fun t slot => if (t.slots slot).isSet && (t.slots slot).isTemp then
      ⟨bwzClear t.slots slot, t.total - 1⟩ else t) t

/-- **`CmdBreakpointAddCommonArg`** -/
def cmdBreakpointAddCommonArg (value : UInt16) (source : BreakpointSource)
    (operator : BreakpointOperator) (isTemp : Bool) : BwzTable :=
  if t.firstFree maxBreakpoints ≥ maxBreakpoints then t
  else
    ⟨Function.update t.slots (t.firstFree maxBreakpoints)
      ⟨value, 1, source, operator, true, true, isTemp⟩, t.total + 1⟩

/-- `CmdBreakpointAddPC` -/
def cmdBreakpointAddPC (args : List UInt16) : BwzTable :=
  args.foldl (fun t arg => t.cmdBreakpointAddCommonArg arg .regPc .equal false) t

/-- `CmdBreakpointAddReg` -/
def cmdBreakpointAddReg (args : List UInt16) : BwzTable :=
  match args with
  | arg :: _ :: _ :: _ => t.cmdBreakpointAddCommonArg arg .regA .equal false
  | _ => t

/-- `CmdBreakpointAddSmart`; `isRegister` is whether the first argument names a register. -/
def cmdBreakpointAddSmart (args : List UInt16) (isRegister : Bool) : BwzTable :=
  match args with
  | [] => t
  | [_] => t.cmdBreakpointAddPC args
  | _ => if isRegister then t.cmdBreakpointAddReg args else t.cmdBreakpointAddPC args

/-- `CmdBreakpointClear` -/
def cmdBreakpointClear (args : List UInt16) : BwzTable :=
  if t.total = 0 then t
  else if args = [] then t.bwzRemoveAll maxBreakpoints
  else t.bwzClearViaArgs args maxBreakpoints

/-- `CmdBreakpointEnable` and `CmdBreakpointDisable` -/
def cmdBreakpointEnable (args : List UInt16) (enabled : Bool) : BwzTable :=
  if t.total = 0 then t else t.bwzEnableDisableViaArgs args maxBreakpoints enabled

/-- **`GetBreakpointInfo`**: whether there is a breakpoint, and whether it is enabled. -/
def getBreakpointInfo (offset : UInt16) : Bool × Bool :=
  match (List.range t.total.toNat).find? fun i =>
      (t.slots i).isSet && (t.slots i).address == offset with
  | some i => (true, (t.slots i).isEnabled)
  | none => (false, false)

/-! ## Watches -/

/-- An address of the I/O page. -/
def isIo (address : UInt16) : Bool := 0xC000 ≤ address && address ≤ 0xC0FF

/-- A watch is put in a slot. -/
def setWatch (slot : Nat) (address : UInt16) : BwzTable :=
  ⟨Function.update t.slots slot
    { t.slots slot with isSet := true, isEnabled := true, address := address }, t.total + 1⟩

/-- The loop of `CmdWatchAdd`. No slot stands for `NO_6502_TARGET`. -/
def watchLoop (t : BwzTable) (watch : Option Nat) (added : Bool) : List UInt16 → BwzTable
  | [] => t
  | address :: args =>
    if isIo address then t
    else
      let slot := watch.getD (t.firstFree maxWatches)
      if slot ≥ maxWatches && !added then t
      else if slot < maxWatches && t.total < maxWatches then
        (t.setWatch slot address).watchLoop (some (slot + 1)) true args
      else t.watchLoop (some slot) added args

/-- **`CmdWatchAdd`**: of several arguments the first is the slot. -/
def cmdWatchAdd (args : List UInt16) : BwzTable :=
  match args with
  | [] => t
  | [address] => t.watchLoop none false [address]
  | slot :: addresses => t.watchLoop (some slot.toNat) false addresses

/-- `CmdWatchClear` -/
def cmdWatchClear (args : List UInt16) : BwzTable :=
  if t.total = 0 then t
  else if args = [] then t.bwzRemoveAll maxWatches
  else t.bwzClearViaArgs args maxWatches

/-- `CmdWatchEnable` and `CmdWatchDisable` -/
def cmdWatchEnable (args : List UInt16) (enabled : Bool) : BwzTable :=
  if t.total = 0 then t else t.bwzEnableDisableViaArgs args maxWatches enabled

end BwzTable

/-! ## Runs -/

/-- The two tables. -/
structure BwzTables where
  /-- `breakpoints` -/
  breakpoints : BwzTable
  /-- `watches` -/
  watches : BwzTable

/-- **A command**, with the values of its arguments. How these were parsed is left out, so a list
may be of any length and hold any values, also those that no line could give. -/
inductive BwzCommand where
  /-- `CmdBreakpointAddSmart` -/
  | add (args : List UInt16) (isRegister : Bool)
  /-- `CmdBreakpointAddPC` -/
  | addPC (args : List UInt16)
  /-- `CmdBreakpointAddReg` -/
  | addReg (args : List UInt16)
  /-- `CmdBreakpointAddCommonArg`, which can make the breakpoint a temporary one. -/
  | addCommonArg (value : UInt16) (source : BreakpointSource) (operator : BreakpointOperator)
      (isTemp : Bool)
  /-- `CmdBreakpointClear` -/
  | clear (args : List UInt16)
  /-- `CmdBreakpointEnable` or `CmdBreakpointDisable` -/
  | enable (args : List UInt16) (enabled : Bool)
  /-- `ClearTempBreakpoints` -/
  | clearTemp
  /-- `CmdWatchAdd` -/
  | watchAdd (args : List UInt16)
  /-- `CmdWatchClear` -/
  | watchClear (args : List UInt16)
  /-- `CmdWatchEnable` or `CmdWatchDisable` -/
  | watchEnable (args : List UInt16) (enabled : Bool)

namespace BwzTables

/-- Both tables as the debugger starts with them. -/
def blank : BwzTables := ⟨.blank, .blank⟩

/-- **One command.** -/
def step (s : BwzTables) : BwzCommand → BwzTables
  | .add args isRegister =>
    { s with breakpoints := s.breakpoints.cmdBreakpointAddSmart args isRegister }
  | .addPC args => { s with breakpoints := s.breakpoints.cmdBreakpointAddPC args }
  | .addReg args => { s with breakpoints := s.breakpoints.cmdBreakpointAddReg args }
  | .addCommonArg value source operator isTemp =>
    { s with
      breakpoints := s.breakpoints.cmdBreakpointAddCommonArg value source operator isTemp }
  | .clear args => { s with breakpoints := s.breakpoints.cmdBreakpointClear args }
  | .enable args enabled =>
    { s with breakpoints := s.breakpoints.cmdBreakpointEnable args enabled }
  | .clearTemp => { s with breakpoints := s.breakpoints.clearTempBreakpoints }
  | .watchAdd args => { s with watches := s.watches.cmdWatchAdd args }
  | .watchClear args => { s with watches := s.watches.cmdWatchClear args }
  | .watchEnable args enabled => { s with watches := s.watches.cmdWatchEnable args enabled }

/-- The tables after a run of commands. -/
def run (s : BwzTables) (commands : List BwzCommand) : BwzTables := commands.foldl step s

end BwzTables

end LinApple.Debugger
