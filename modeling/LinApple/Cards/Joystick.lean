import Mathlib.Data.List.TakeWhile
import Mathlib.Logic.Function.Basic
import Mathlib.Data.Nat.Bitwise
import LinApple.Lib.Sizes

/-!
# Game port

Four timers, one for each paddle. A strobe starts the pulse of every timer whose output is low;
the pulse lasts as long as the paddle says, and a paddle moved while the output is high moves its
fall. The card keeps one trigger and one latched position for each timer.
-/

namespace LinApple.Cards

/-! ## The card -/

/-- `JoystickAxisPayload` -/
structure JoystickAxisPayload where
  /-- `joystick` -/
  joystick : UInt8
  /-- `axis` -/
  axis : UInt8
  /-- `value` -/
  value : UInt8
deriving DecidableEq

/-- `PeripheralStatus` -/
inductive JoystickStatus where
  /-- `peripheral_ok` -/
  | ok
  /-- `peripheral_error` -/
  | error
  /-- `peripheral_incompatible` -/
  | incompatible
deriving DecidableEq

/-- `GamePort` -/
structure GamePort where
  /-- `trigger_cycle`: 0 is never triggered. -/
  triggerCycle : Fin 4 → Nat
  /-- `position` -/
  position : Fin 4 → UInt8
  /-- `pulse_position`: the paddle as it stood at the accepted strobe, moved with the paddle only
  while the output is high. -/
  pulsePosition : Fin 4 → UInt8

namespace GamePort

/-- `centre_position` -/
def centrePosition : UInt8 := 127

/-- The card as `joystick_abi_init` makes it. -/
def joystickAbiInit : GamePort where
  triggerCycle _ := 0
  position _ := centrePosition
  pulsePosition _ := 0

/-- `pulse_cycles` -/
def pulseCycles (position : UInt8) : Nat := position.toNat * 11 + 10

/-- `JOYSTICK_CMD_SET_AXIS` -/
def joystickCmdSetAxis : UInt32 := 0x00020000

/-- `peripheral_cmd_is_mine` for `PERIPHERAL_SUBSYSTEM_JOYSTICK` -/
def peripheralCmdIsMine (commandId : UInt32) : Bool :=
  let owner := commandId &&& 0xFFFF0000
  owner = 0x00020000 || owner = 0

/-- The paddle that a read selects. Below `mux_paddle0` the difference wraps, past every paddle. -/
def muxPaddle (memoryAddress : UInt16) : Option (Fin 4) :=
  if h : 4 ≤ memoryAddress.toNat % 8 then some ⟨memoryAddress.toNat % 8 - 4, by omega⟩ else none

/-- The paddle that a payload names, if there is one. -/
def payloadPaddle (payload : JoystickAxisPayload) : Option (Fin 4) :=
  if h : payload.joystick.toNat < 2 ∧ payload.axis.toNat < 2 then
    some ⟨payload.joystick.toNat * 2 + payload.axis.toNat, by omega⟩
  else none

variable (port : GamePort)

/-- **`timer_expired`** -/
def timerExpired (paddle : Fin 4) (now : Nat) : Bool :=
  if port.triggerCycle paddle = 0 ∨ port.triggerCycle paddle > now then true
  else pulseCycles (port.pulsePosition paddle) ≤ now - port.triggerCycle paddle

/-- `joystick_io_read_paddle` -/
def joystickIoReadPaddle (now : Nat) (memoryAddress : UInt16) (floatingBus : UInt8) : UInt8 :=
  let result := floatingBus &&& 0x7F
  match muxPaddle memoryAddress with
  | none => result
  | some paddle => if !port.timerExpired paddle now then result ||| 0x80 else result

/-- **`joystick_strobe`** -/
def joystickStrobe (now : Nat) : GamePort :=
  { port with
    triggerCycle := fun paddle =>
      if port.timerExpired paddle now then max now 1 else port.triggerCycle paddle
    pulsePosition := fun paddle =>
      if port.timerExpired paddle now then port.position paddle else port.pulsePosition paddle }

/-- A paddle is moved: the end of `joystick_abi_command`. -/
def moveAxis (now : Nat) (paddle : Fin 4) (value : UInt8) : GamePort :=
  { port with
    position := Function.update port.position paddle value
    pulsePosition :=
      if !port.timerExpired paddle now then Function.update port.pulsePosition paddle value
      else port.pulsePosition }

/-- **`joystick_abi_command`**. No payload stands for a null pointer and for one of another
size. -/
def joystickAbiCommand (now : Nat) (commandId : UInt32) (payload : Option JoystickAxisPayload) :
    JoystickStatus × GamePort :=
  if !peripheralCmdIsMine commandId then (.incompatible, port)
  else if commandId ≠ joystickCmdSetAxis then (.incompatible, port)
  else match payload with
    | none => (.error, port)
    | some axis =>
      match payloadPaddle axis with
      | none => (.error, port)
      | some paddle => (.ok, port.moveAxis now paddle axis.value)

end GamePort

/-! ## Runs -/

/-- What can reach the card. A program strobes and reads, and the host moves the axes by commands.
The cycle at which it happens is given beside the access. -/
inductive GamePortAccess where
  /-- An access to $C070–$C07E. -/
  | strobe
  /-- A read of the multiplexer, at an address and over a byte of the floating bus. -/
  | read (memoryAddress : UInt16) (floatingBus : UInt8)
  /-- A command of the host. -/
  | command (commandId : UInt32) (payload : Option JoystickAxisPayload)

namespace GamePortAccess

/-- The position that an access gives a paddle, if it moves it. -/
def movement (paddle : Fin 4) : GamePortAccess → Option UInt8
  | command commandId (some payload) =>
    if commandId = GamePort.joystickCmdSetAxis ∧ GamePort.payloadPaddle payload = some paddle then
      some payload.value
    else none
  | _ => none

end GamePortAccess

namespace GamePort

/-- One access, in a cycle. -/
def step (port : GamePort) : Nat × GamePortAccess → GamePort
  | (now, .strobe) => port.joystickStrobe now
  | (_, .read _ _) => port
  | (now, .command commandId payload) => (port.joystickAbiCommand now commandId payload).2

/-- A run of accesses, each in its cycle. -/
def run (port : GamePort) (accesses : List (Nat × GamePortAccess)) : GamePort :=
  accesses.foldl step port

end GamePort

end LinApple.Cards
