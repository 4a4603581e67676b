import Mathlib.Data.List.Perm.Basic
import Mathlib.Tactic.Common

/-!
# The keyboard

The keyboard latches a code and raises a strobe for it. A key that is held raises the strobe
again, on a //e by itself and on a II as long as REPT is held with it: the cycle of the next
strobe is what the card keeps, and what it has the host wake it for. The repeats follow the
keys (`LinApple.Cards.KeyboardRepeat`).

The cycles are a count that does not come to its end.
-/

namespace LinApple.Cards

/-! ## Constants of the source -/

/-- `key_code_mask` -/
def keyCodeMask : UInt8 := 0x7F
/-- `key_strobe_bit` -/
def keyStrobeBit : UInt8 := 0x80
/-- `repeat_delay_frames` -/
def repeatDelayFrames : Nat := 32
/-- `repeat_phase_frames` -/
def repeatPhaseFrames : Nat := 16
/-- `repeat_period_frames` -/
def repeatPeriodFrames : Nat := 4
/-- `ntsc_frame_cycles` -/
def ntscFrameCycles : Nat := 17030
/-- `held_key_capacity` -/
def heldKeyCapacity : Nat := 16

/-- `PeripheralMachine` -/
inductive PeripheralMachine where
  | apple2
  | apple2Plus
  | apple2e
deriving DecidableEq, Repr

/-- **The keys that are held**, the longest first: `held` and `held_count`. -/
structure HeldKeys where
  /-- The keys. -/
  keys : List UInt32
  /-- There is room for so many. -/
  length_le : keys.length ≤ heldKeyCapacity
  /-- A key is held once. -/
  nodup : keys.Nodup
deriving DecidableEq

/-- No key is held. -/
def HeldKeys.none : HeldKeys := ⟨[], Nat.zero_le _, List.nodup_nil⟩

/-- `KeyboardHardware` -/
structure KeyboardHardware where
  /-- `current_latch` -/
  currentLatch : UInt8
  /-- `strobe` -/
  strobe : Bool
  /-- `held` and `held_count` -/
  held : HeldKeys
  /-- `rept_down` -/
  reptDown : Bool
  /-- `next_strobe`: 0 when none is armed. -/
  nextStrobe : Nat
deriving DecidableEq

/-- **`KeyboardPeripheral`**, and the event that the host has for it, of which there is at
most one. -/
structure Keyboard where
  /-- `logic` -/
  logic : KeyboardHardware
  /-- `machine` -/
  machine : PeripheralMachine
  /-- What `GetFrameCycles` answers: the video standard is chosen when the program starts. -/
  hostFrameCycles : Nat
  /-- `event_cycle`: `none` is `no_event`. -/
  event : Option Nat
deriving DecidableEq

/-- What the host answers while the card is called. It is an input of each step: the rate of the
processor may change in between, and with it the period of REPT. -/
structure HostClock where
  /-- `GetCycles` -/
  cycles : Nat
  /-- `GetClockHz` over the rate of REPT, as an integer -/
  reptCycles : Nat
deriving DecidableEq, Repr

/-! ## The keys -/

/-- `hold_key`: when there is no more room the key held longest is forgotten. -/
def HeldKeys.hold (h : HeldKeys) (key : UInt32) : HeldKeys :=
  if hkey : key ∈ h.keys then h
  else if hfull : h.keys.length = heldKeyCapacity then
    { keys := h.keys.tail ++ [key]
      length_le := by simp [hfull, heldKeyCapacity]
      nodup := List.nodup_append.2 ⟨h.nodup.tail, (by simp), fun a ha b hb hab =>
        hkey (List.mem_of_mem_tail (List.mem_singleton.1 hb ▸ hab ▸ ha))⟩ }
  else
    { keys := h.keys ++ [key]
      length_le := by
        rw [List.length_append]
        exact Nat.lt_of_le_of_ne h.length_le hfull
      nodup := List.nodup_append.2 ⟨h.nodup, (by simp), fun a ha b hb hab =>
        hkey (List.mem_singleton.1 hb ▸ hab ▸ ha)⟩ }

/-- `let_go_key` -/
def HeldKeys.letGo (h : HeldKeys) (key : UInt32) : HeldKeys where
  keys := h.keys.erase key
  length_le := Nat.le_trans List.length_erase_le h.length_le
  nodup := h.nodup.erase key

namespace Keyboard

variable (kp : Keyboard)

/-- `any_key_down` -/
def anyKeyDown : Bool := kp.logic.held.keys ≠ []

/-! ## The repeat -/

/-- `frame_cycles` -/
def frameCycles : Nat := if kp.hostFrameCycles ≠ 0 then kp.hostFrameCycles else ntscFrameCycles

/-- `rept_period` -/
def reptPeriod (host : HostClock) : Nat := if host.reptCycles ≠ 0 then host.reptCycles else 1

/-- `host_schedule_event` -/
def scheduleEvent (atCycle : Nat) : Keyboard :=
  { kp with event := if atCycle = 0 then none else some atCycle }

/-- `arm` -/
def arm (atCycle : Nat) : Keyboard :=
  { kp with logic := { kp.logic with nextStrobe := atCycle } }.scheduleEvent atCycle

/-- `disarm` -/
def disarm : Keyboard :=
  { kp with logic := { kp.logic with nextStrobe := 0 } }.scheduleEvent 0

/-- The cycle for which `arm_auto_repeat` arms. -/
def firstRepeat (now frame : Nat) : Nat :=
  let pressFrame := now / frame
  let phase := (repeatPhaseFrames - pressFrame % repeatPhaseFrames) % repeatPhaseFrames
  (pressFrame + repeatDelayFrames + phase) * frame

/-- `arm_auto_repeat` -/
def armAutoRepeat (host : HostClock) : Keyboard := kp.arm (firstRepeat host.cycles kp.frameCycles)

/-- `arm_rept` -/
def armRept (host : HostClock) : Keyboard := kp.arm (host.cycles + reptPeriod host)

/-- **The loop of `repeat_strobe`**: the next strobe after a wake, however late it is. Both
callers have a period above zero. -/
def nextRepeat (now period next : Nat) : Nat :=
  if 0 < period ∧ next + period ≤ now then nextRepeat now period (next + period)
  else next + period
termination_by now - next

/-- `repeat_strobe` -/
def repeatStrobe (now period : Nat) : Keyboard :=
  let next := nextRepeat now period kp.logic.nextStrobe
  { kp with logic := { kp.logic with strobe := true, nextStrobe := next } }.scheduleEvent next

/-- **`keyboard_abi_think`** -/
def keyboardAbiThink (host : HostClock) : Keyboard :=
  if kp.logic.nextStrobe = 0 then kp
  else if host.cycles < kp.logic.nextStrobe then kp
  else if kp.machine = .apple2e then
    if !kp.anyKeyDown then kp.disarm
    else kp.repeatStrobe host.cycles (repeatPeriodFrames * kp.frameCycles)
  else if !kp.logic.reptDown || !kp.anyKeyDown then kp.disarm
  else kp.repeatStrobe host.cycles (reptPeriod host)

/-! ## Keys -/

/-- The code that the keyboard of a machine has for a key. -/
def codeOf (machine : PeripheralMachine) (code : UInt8) : UInt8 :=
  if machine ≠ .apple2e ∧ 0x61 ≤ code ∧ code ≤ 0x7A then code - 0x61 + 0x41 else code

/-- **`press_key`** -/
def pressKey (host : HostClock) (hostKey : UInt32) (code : UInt8) : Keyboard :=
  let kp := { kp with logic := { kp.logic with
    currentLatch := codeOf kp.machine code
    strobe := true
    held := kp.logic.held.hold hostKey } }
  if kp.machine = .apple2e then kp.armAutoRepeat host
  else if kp.logic.reptDown then kp.armRept host
  else kp

/-- **`release_key`** -/
def releaseKey (hostKey : UInt32) : Keyboard :=
  let kp := { kp with logic := { kp.logic with held := kp.logic.held.letGo hostKey } }
  if !kp.anyKeyDown then kp.disarm else kp

/-- **`set_rept`** -/
def setRept (host : HostClock) (down : Bool) : Keyboard :=
  let kp := { kp with logic := { kp.logic with reptDown := down } }
  if kp.machine = .apple2e then kp
  else if !down then kp.disarm
  else if kp.anyKeyDown then kp.armRept host
  else if kp.machine = .apple2 then { kp with logic := { kp.logic with strobe := true } }
  else kp

/-- `keyboard_cmd_release_all` -/
def releaseAll : Keyboard :=
  { kp with logic := { kp.logic with held := .none } }.disarm

end Keyboard

/-- The data of a command, told apart by its size. -/
inductive KeyboardData where
  /-- No data. -/
  | none
  /-- `KeyboardKeyEvent` -/
  | key (hostKey : UInt32) (appleCode isDown : UInt8)
  /-- A byte. -/
  | byte (value : UInt8)
  /-- A null pointer with a size, or data of any other size. -/
  | other
deriving DecidableEq, Repr

/-- `keyboard_cmd_key` -/
def keyboardCmdKey : UInt32 := 0x00010009
/-- `keyboard_cmd_release_all` -/
def keyboardCmdReleaseAll : UInt32 := 0x0001000A
/-- `keyboard_cmd_rept` -/
def keyboardCmdRept : UInt32 := 0x0001000B

namespace Keyboard

variable (kp : Keyboard)

/-- **`keyboard_abi_command`**: `none` is a refusal, which changes nothing. -/
def keyboardAbiCommand (host : HostClock) (cmdId : UInt32) (data : KeyboardData) :
    Option Keyboard :=
  if cmdId = keyboardCmdKey then
    match data with
    | .key hostKey appleCode isDown =>
      if keyCodeMask < appleCode then none
      else if isDown = 0 then some (kp.releaseKey hostKey)
      else some (kp.pressKey host hostKey appleCode)
    | _ => none
  else if cmdId = keyboardCmdReleaseAll then
    match data with
    | .none => some kp.releaseAll
    | _ => none
  else if cmdId = keyboardCmdRept then
    match data with
    | .byte down => some (kp.setRept host (down ≠ 0))
    | _ => none
  else none

/-! ## The card's life -/

/-- A card as it is made. -/
def new (machine : PeripheralMachine) (hostFrameCycles : Nat) : Keyboard where
  logic := ⟨0, false, .none, false, 0⟩
  machine := machine
  hostFrameCycles := hostFrameCycles
  event := none

/-- `keyboard_abi_reset` -/
def keyboardAbiReset : Keyboard :=
  { kp with logic := { kp.logic with
    currentLatch := 0
    strobe := false
    held := .none
    reptDown := false } }.disarm

/-- `keyboard_io_read_data` -/
def keyboardIoReadData : UInt8 :=
  (kp.logic.currentLatch &&& keyCodeMask) ||| if kp.logic.strobe then keyStrobeBit else 0

/-- `keyboard_io_strobe_apple2e` and `keyboard_io_strobe_apple2`, with what the host has on
the bus: what is read, and the card with its strobe reset. -/
def keyboardIoStrobe (bus : UInt8) : UInt8 × Keyboard :=
  let kp := { kp with logic := { kp.logic with strobe := false } }
  (if kp.machine = .apple2e then
      (kp.logic.currentLatch &&& keyCodeMask) ||| if kp.anyKeyDown then keyStrobeBit else 0
    else bus, kp)

/-- `peripheral_service_events`, of the card: an event that is due is over before the card
is woken. -/
def serviceEvents (host : HostClock) : Keyboard :=
  match kp.event with
  | some cycle =>
    if cycle ≤ host.cycles then { kp with event := none }.keyboardAbiThink host else kp
  | none => kp

end Keyboard

/-! ## Steps -/

/-- What happens to a keyboard. The host looks for due events when it likes, so a service is a
step of its own and may come late. -/
inductive KeyboardStep where
  /-- A command of the host: a key, all keys, REPT. -/
  | command (cmdId : UInt32) (data : KeyboardData)
  /-- A reset. -/
  | reset
  /-- The host looks for events that are due. -/
  | service
  /-- The card is called for another reason. -/
  | think
  /-- The strobe is reset. -/
  | strobe (bus : UInt8)
deriving DecidableEq, Repr

namespace Keyboard

variable (kp : Keyboard)

/-- A step of a card, with what the host answers at it. -/
def step (host : HostClock) : KeyboardStep → Keyboard
  | .command cmdId data => (kp.keyboardAbiCommand host cmdId data).getD kp
  | .reset => kp.keyboardAbiReset
  | .service => kp.serviceEvents host
  | .think => kp.keyboardAbiThink host
  | .strobe bus => (kp.keyboardIoStrobe bus).2

/-- A run. -/
def run (steps : List (HostClock × KeyboardStep)) : Keyboard :=
  steps.foldl (fun kp s => kp.step s.1 s.2) kp

/-- **A step raises the strobe**: after it the strobe is up, even if it was reset before. -/
def Raises (host : HostClock) (s : KeyboardStep) : Prop :=
  ({ kp with logic := { kp.logic with strobe := false } }.step host s).logic.strobe = true

instance (host : HostClock) (s : KeyboardStep) : Decidable (kp.Raises host s) :=
  inferInstanceAs (Decidable (_ = true))

end Keyboard

/-- A key goes down. A code behind `keyCodeMask` is refused by the card, so a command with one is
not a press, and there is nothing for it to repeat. -/
def KeyboardStep.IsPress (s : KeyboardStep) : Prop :=
  ∃ hostKey appleCode isDown, s = .command keyboardCmdKey (.key hostKey appleCode isDown) ∧
    appleCode ≤ keyCodeMask ∧ isDown ≠ 0

/-- REPT goes down. -/
def KeyboardStep.IsRept (s : KeyboardStep) : Prop :=
  ∃ down, s = .command keyboardCmdRept (.byte down) ∧ down ≠ 0

/-- The card is woken, or may take itself to be. A call of `think` for another reason is the same
call, and the card cannot tell the two apart but by the cycle. -/
def KeyboardStep.IsWake (s : KeyboardStep) : Prop := s = .service ∨ s = .think

/-! ## What is held, as the steps tell it

The card keeps a list of its own for the keys that are held, and a flag for REPT. What the two
should be is told by the commands alone, and is stated here without the card: a card that forgets
a release, or never hears of a press, does not have the keys that the steps say it has. -/

/-- The keys that are held after a step, the longest first: a press adds its key behind the others,
and where there is no room for it the one held longest is forgotten. -/
def KeyboardStep.heldAfter (held : List UInt32) : KeyboardStep → List UInt32
  | .command cmdId (.key hostKey appleCode isDown) =>
    if cmdId ≠ keyboardCmdKey ∨ keyCodeMask < appleCode then held
    else if isDown = 0 then held.filter (· ≠ hostKey)
    else if hostKey ∈ held then held
    else (held ++ [hostKey]).drop (held.length + 1 - heldKeyCapacity)
  | .command cmdId .none => if cmdId = keyboardCmdReleaseAll then [] else held
  | .reset => []
  | _ => held

/-- Whether REPT is held after a step. Letting go of all keys leaves it as it is. -/
def KeyboardStep.reptAfter (rept : Bool) : KeyboardStep → Bool
  | .command cmdId (.byte down) => if cmdId = keyboardCmdRept then decide (down ≠ 0) else rept
  | .reset => false
  | _ => rept

/-- **The keys that are held** after some steps. -/
def heldKeys (steps : List (HostClock × KeyboardStep)) : List UInt32 :=
  steps.foldl (fun held s => s.2.heldAfter held) []

/-- **Whether REPT is held** after some steps. -/
def reptHeld (steps : List (HostClock × KeyboardStep)) : Bool :=
  steps.foldl (fun rept s => s.2.reptAfter rept) false

end LinApple.Cards
