import LinApple.Debugger.Stepping

/-!
# What the debugger was told, and where it stops

A `G` is told to stop at an address, and the table of breakpoints says where else to stop.
`CmdStepOver` is told to come back behind a subroutine. What is wanted of each is stated here
about the instructions of the machine alone; it is what happens in exactly those runs where the
instruction that is wanted is also the one at which the range to skip, or the count of steps, ends
by itself.

The processor runs as it would without a debugger, and for every number of instructions there is
the state it comes to (`after`). What was told picks one of these numbers, if any: the first one,
from one on, after which the program counter is at the address or a condition that was entered
holds; or behind a `JSR`, after which the stack pointer is back as well. `StopsRight` says that
the debugger stops after just that number, and if there is none, never. So it is a statement about
all calls of `DebugContinueStepping` together, and about runs that do not end.

The stop address that was told is stored and nothing reads it. Nor does anything read the table of
breakpoints while stepping. What does end a run is the count of steps that the command sets, and
for a `G` with a range to skip the first instruction outside of it. `RunsOutRight` names that
number in the same terms, and the theorem says that the debugger is right where the two numbers
are one. There is no simpler condition: what the program does decides it, and a range that the
program leaves exactly when it should stop would make the command do what it was told.

Breakpoints are given by what was entered for them, an address or a register with a comparison,
and not by a table, so that the table's own mistakes are kept out.
-/

namespace LinApple.Debugger

open Cpu (CpuRegisters CpuInstance Bus)

namespace Session

variable {W : Type*} {bus : Bus W} {cmos : Bool} {code : W → CodeMemory}

/-! ## Stop addresses and breakpoints -/

/-- The numbers of instructions after which the program counter is the stop
address, or the condition of a breakpoint holds. -/
def stops (bus : Bus W) (cmos : Bool) (stop : UInt16) (conditions : List Condition)
    (p : CpuInstance W) : Set Nat :=
  {n | 1 ≤ n ∧ ((after bus cmos n p).regs.pc = stop
    ∨ ∃ c ∈ conditions, c.holds (after bus cmos n p).regs = true)}

/-- A `G` that does not show the help leaves the steps without an end. -/
theorem cmdGo_of_accepted {s : Session W} {args : Nat → Arg} {nArgs : Nat}
    {range : Int × Int} (h : goSkip args nArgs = some range) :
    (s.cmdGo args nArgs).ctl.debugSteps = -1
      ∧ (s.cmdGo args nArgs).ctl.mode = .stepping
      ∧ (s.cmdGo args nArgs).ctl.debugSkipStart = range.1
      ∧ (s.cmdGo args nArgs).ctl.debugSkipLen = range.2
      ∧ (s.cmdGo args nArgs).cpu = s.cpu := by
  unfold cmdGo
  rw [h]
  exact ⟨rfl, rfl, rfl, rfl, rfl⟩

/-- The numbers of instructions after which the last one executed was outside
a range. -/
def leaves (bus : Bus W) (cmos : Bool) (range : Int × Int) (p : CpuInstance W) : Set Nat :=
  {n | 1 ≤ n ∧ 0 < range.2
    ∧ ¬ (range.1 ≤ (after bus cmos (n - 1) p).regs.pc.toNat
      ∧ (after bus cmos (n - 1) p).regs.pc.toNat < range.1 + range.2)}

theorem outside_cmdGo {s : Session W} {args : Nat → Arg} {nArgs : Nat} {range : Int × Int}
    (h : goSkip args nArgs = some range) :
    outside bus cmos (s.cmdGo args nArgs) = leaves bus cmos range s.cpu := by
  obtain ⟨-, -, hstart, hlen, hcpu⟩ := cmdGo_of_accepted (s := s) h
  unfold outside leaves isSkipped
  rw [hstart, hlen, hcpu]

/-! ## Stepping over -/

/-- The machine is behind the subroutine, its stack as it was. -/
def Returned (s : Session W) (p : CpuInstance W) : Prop :=
  p.regs.pc = s.cpu.regs.pc + 3 ∧ p.regs.sp = s.cpu.regs.sp

/-- The machine in front of the loop of `CmdStepOver`: the `JSR` has been
executed, unless it was held back. -/
def beforeLoop (bus : Bus W) (cmos : Bool) (code : W → CodeMemory) (s : Session W) :
    CpuInstance W :=
  if heldBack bus code s then s.cpu else cpuStep bus cmos s.cpu

/-- **How many instructions the loop executes**: 65535 of them, or up to the
first one outside a range to skip that is left over from a `G` before. It is left
over where there is no return address to be read. -/
def OverEnds (bus : Bus W) (cmos : Bool) (s : Session W) (p : CpuInstance W) (n : Nat) :
    Prop :=
  if 0 < s.ctl.debugSkipLen ∧ getStackReturnAddress bus p = none then
    IsLeast {n | 1 ≤ n ∧ ¬ isSkipped s.ctl (after bus cmos (n - 1) p)} n
  else n = 0xFFFF

/-- What `CmdTrace` is called for. -/
def traced (bus : Bus W) (cmos : Bool) (code : W → CodeMemory) (s : Session W) : Session W :=
  s.cmdTrace bus cmos code (fun _ => ⟨0, .other, false, false, []⟩) 0

/-- The session in front of the loop. -/
def looping (bus : Bus W) (cmos : Bool) (code : W → CodeMemory) (s : Session W) :
    Session W :=
  let out := (s.traced bus cmos code).cmdStepOut bus
  { out with ctl := { out.ctl with debugSteps := 0xFFFF } }

theorem traced_spec (bus : Bus W) (cmos : Bool) (code : W → CodeMemory) (s : Session W) :
    (s.traced bus cmos code).cpu = beforeLoop bus cmos code s
      ∧ SameRange s (s.traced bus cmos code) := by
  let s₁ : Session W :=
    { s with ctl := { s.ctl with
      debugSteps := 1
      debugStepStart := s.cpu.regs.pc.toNat
      debugStepUntil := -1
      mode := .stepping } }
  have htraced : s.traced bus cmos code = debugContinueStepping bus cmos code s₁ := rfl
  have hsame : heldBack bus code s₁ ↔ heldBack bus code s := Iff.rfl
  have hskip : s₁.skip.ctl.debugSteps ≠ 0 := skip_steps_ne_zero (show (1 : Int) ≠ 0 by decide)
  rw [htraced]
  unfold beforeLoop
  by_cases hhold : heldBack bus code s
  · have hheld := held_of_heldBack cmos hskip (hsame.2 hhold)
    rw [if_pos hhold]
    exact ⟨hheld.cpu, hheld.skipStart, hheld.skipLen⟩
  · have hdone := executed_of_not_heldBack cmos hskip (mt hsame.1 hhold)
    rw [if_neg hhold]
    exact ⟨hdone.cpu, hdone.skipStart, hdone.skipLen⟩

/-- `CmdStepOut` drops the range to skip where it can read an address. -/
theorem cmdStepOut_spec (bus : Bus W) (s : Session W) :
    (s.cmdStepOut bus).cpu = s.cpu
      ∧ (getStackReturnAddress bus s.cpu = none → s.cmdStepOut bus = s)
      ∧ (getStackReturnAddress bus s.cpu ≠ none
        → (s.cmdStepOut bus).ctl.debugSkipLen = -1) := by
  unfold cmdStepOut
  cases getStackReturnAddress bus s.cpu with
  | none => exact ⟨rfl, fun _ => rfl, fun hno => absurd rfl hno⟩
  | some address => exact ⟨rfl, fun hno => absurd hno (Option.some_ne_none _), fun _ => rfl⟩

theorem looping_cpu (s : Session W) :
    (s.looping bus cmos code).cpu = beforeLoop bus cmos code s :=
  (cmdStepOut_spec bus _).1.trans (traced_spec bus cmos code s).1

/-- **The loop ends where it is said to.** -/
theorem loopEnds_looping (s : Session W) (n : Nat) :
    LoopEnds bus cmos (s.looping bus cmos code) n
      ↔ OverEnds bus cmos s (beforeLoop bus cmos code s) n := by
  obtain ⟨hcpu, hrange⟩ := traced_spec bus cmos code s
  obtain ⟨-, hkept, hdropped⟩ := cmdStepOut_spec bus (s.traced bus cmos code)
  rw [hcpu] at hkept hdropped
  unfold LoopEnds OverEnds
  by_cases hread : getStackReturnAddress bus (beforeLoop bus cmos code s) = none
  · have hlen : (s.looping bus cmos code).ctl.debugSkipLen = s.ctl.debugSkipLen := by
      show ((s.traced bus cmos code).cmdStepOut bus).ctl.debugSkipLen = _
      rw [hkept hread, hrange.skipLen]
    have hsame : SameRange s (s.looping bus cmos code) := by
      refine ⟨?_, hlen⟩
      show ((s.traced bus cmos code).cmdStepOut bus).ctl.debugSkipStart = _
      rw [hkept hread, hrange.skipStart]
    by_cases hpos : 0 < s.ctl.debugSkipLen
    · have houtside : outside bus cmos (s.looping bus cmos code)
          = {n | 1 ≤ n
            ∧ ¬ isSkipped s.ctl (after bus cmos (n - 1) (beforeLoop bus cmos code s))} := by
        unfold outside
        simp only [hlen, hpos, true_and, hsame.isSkipped, looping_cpu]
      rw [if_pos (hlen.symm ▸ hpos), if_pos ⟨hpos, hread⟩, houtside]
    · rw [if_neg (hlen.symm ▸ hpos), if_neg fun hno => hpos hno.1]
  · have hlen : (s.looping bus cmos code).ctl.debugSkipLen = -1 := hdropped hread
    rw [if_neg (by omega), if_neg fun hno => hread hno.2]

/-- `CmdStepOver`, once, at a `JSR`. -/
theorem cmdStepOver_once (fuel : Nat) {s : Session W} {args : Nat → Arg} {nArgs : Nat}
    (honce : nArgs ≠ 0 → (args 1).value = 1) (hjsr : s.opcode bus = opcodeJsr) :
    s.cmdStepOver bus cmos code fuel args nArgs
      = stepLoop bus cmos code fuel (s.looping bus cmos code) := by
  have hcount : (if nArgs ≠ 0 then (args 1).value.toNat else 1) = 1 := by
    split
    next hgiven =>
      rw [honce hgiven]
      rfl
    next => rfl
  unfold cmdStepOver
  rw [hcount]
  unfold stepOverLoop stepOverLoop stepOver
  rw [if_pos hjsr]
  exact Option.bind_fun_some _

/-! ## What is wanted -/

/-- **A command that lets the program run**, its arguments evaluated. A range to be skipped is
part of it as the command has worked it out; the breakpoints were entered before, and are any
list. -/
inductive RunCommand where
  /-- `CmdGo`, given a stop address, with breakpoints entered before. -/
  | go (args : Nat → Arg) (nArgs : Nat) (given : 1 ≤ nArgs) (range : Int × Int)
    (accepted : goSkip args nArgs = some range) (entries : List Entry)
  /-- `CmdStepOver`, once. -/
  | stepOver (args : Nat → Arg) (nArgs : Nat) (once : nArgs ≠ 0 → (args 1).value = 1)

/-- The breakpoints of a list, entered. -/
def withBreakpoints (s : Session W) (entries : List Entry) : Session W :=
  { s with ctl := { s.ctl with breakpoints := (enterAll entries).breakpoints } }

/-- A subroutine that returns within 65535 instructions. -/
def Returns (bus : Bus W) (cmos : Bool) (s : Session W) : Prop :=
  ∃ n, 1 ≤ n ∧ n ≤ 0xFFFF ∧ s.Returned (after bus cmos (n + 1) s.cpu)

/-- **A command that stops where it was told**: a `G` executes instructions up
to the first one that is a stop, and enters the debugger there; where none is,
it goes on. Stepping over a subroutine that returns leads behind it. -/
def StopsRight (bus : Bus W) (cmos : Bool) (code : W → CodeMemory) (s : Session W) :
    RunCommand → Prop
  | .go args nArgs _ _ _ entries =>
    EndsAtLeast bus cmos code ((s.withBreakpoints entries).cmdGo args nArgs)
      (stops bus cmos (args 1).value (enterAll entries).conditions s.cpu)
  | .stepOver args nArgs _ =>
    s.opcode bus = opcodeJsr → s.Returns bus cmos →
      ∃ fuel t, s.cmdStepOver bus cmos code fuel args nArgs = some t ∧ s.Returned t.cpu

/-- **The program is where it should be when the steps run out by themselves.**
The first stop of a `G` comes right behind the first instruction outside the range to
skip – so without a range there is no stop at all – and after the instructions of
the loop the subroutine has returned. -/
def RunsOutRight (bus : Bus W) (cmos : Bool) (code : W → CodeMemory) (s : Session W) :
    RunCommand → Prop
  | .go args _ _ range _ entries =>
    ∀ n, IsLeast (stops bus cmos (args 1).value (enterAll entries).conditions s.cpu) n
      ↔ IsLeast (leaves bus cmos range s.cpu) n
  | .stepOver _ _ _ =>
    s.opcode bus = opcodeJsr → s.Returns bus cmos →
      ∃ n, OverEnds bus cmos s (beforeLoop bus cmos code s) n
        ∧ s.Returned (after bus cmos n (beforeLoop bus cmos code s))

/-- **A command stops where it was told exactly when the steps run out there.** While it steps,
the debugger looks neither at the stop address nor at the table of breakpoints; what ends a run is
the count of steps or the range to be skipped. Both sides are about the instructions that the
processor executes, which are the same with a debugger and without. There are no hypotheses, so a
command with nothing to stop it is a case as well. -/
theorem stopsRight_iff (bus : Bus W) (cmos : Bool) (code : W → CodeMemory) (s : Session W)
    (command : RunCommand) :
    StopsRight bus cmos code s command ↔ RunsOutRight bus cmos code s command := by
  cases command with
  | go args nArgs given range accepted entries =>
    obtain ⟨hsteps, hmode, -⟩ :=
      cmdGo_of_accepted (s := s.withBreakpoints entries) accepted
    have hends := endsAtLeast_outside bus cmos code hsteps hmode
    rw [outside_cmdGo accepted] at hends
    exact hends.iff _
  | stepOver args nArgs once =>
    refine imp_congr_right fun hjsr => imp_congr_right fun _ => ?_
    simp only [cmdStepOver_once _ once hjsr]
    rw [exists_stepLoop_iff code rfl s.Returned, looping_cpu]
    simp only [loopEnds_looping]

/-- A plain `G` goes past every stop. -/
theorem goesOn_cmdGo {s : Session W} {args : Nat → Arg} {nArgs : Nat} {range : Int × Int}
    (h : goSkip args nArgs = some range) (hrange : range.2 ≤ 0) :
    GoesOn bus cmos code (s.cmdGo args nArgs) := by
  obtain ⟨hsteps, hmode, -, hlen, -⟩ := cmdGo_of_accepted (s := s) h
  exact fun k => (Endless.calls ⟨hsteps, hlen.trans_le hrange, hmode⟩ k).mode

/-- The debugger in front of two instructions that do nothing. -/
def inFrontOfNops : Session (Nat → UInt8) where
  ctl := ⟨0, 0, -1, -1, -1, false, 0, 0, 0, noBreakpoints, .debug⟩
  cpu := .flat 0x300 [0xEA, 0xEA] 0
  executed := 0

/-- What no switch is set in. -/
def plainMemory : CodeMemory := ⟨false, false, false, 0, true, false, false⟩

/-- **`G 301` in front of two instructions** executes the second one, too, and
whatever comes after it. -/
theorem not_stopsRight_go :
    ¬ ∀ command : RunCommand,
      StopsRight Bus.flat true (fun _ => plainMemory) inFrontOfNops command := fun hall => by
  have hends := hall (.go (fun _ => ⟨0x301, .other, false, false, []⟩) 1 le_rfl (-1, -1) rfl [])
  have hpc : (after Bus.flat true 1 inFrontOfNops.cpu).regs.pc = 0x301 := by decide +kernel
  have hstop : IsLeast (stops Bus.flat true 0x301 [] inFrontOfNops.cpu) 1 :=
    ⟨⟨le_rfl, .inl hpc⟩, fun n hn => hn.1⟩
  exact (hends.endsAt 1 hstop).not_goesOn (goesOn_cmdGo rfl (by decide))

end Session

end LinApple.Debugger
