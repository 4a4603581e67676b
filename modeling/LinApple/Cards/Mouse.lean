import LinApple.Chips.Pia6821
import LinApple.Lib.Bytes

/-!
# The mouse card

A 6821 whose port A carries bytes to and from the card's processor and whose
port B carries the strobes for them: a command comes in byte by byte, is carried
out at its last byte, and its reply goes out byte by byte. Interrupts wait for a
tick of the card's own. The frame that a card saves, and the check that its
loader makes of a frame, are here too.
-/

namespace LinApple.Cards

open LinApple.Chips Byte

/-! ## Constants of the source -/

/-- `default_clamp_min` -/
def defaultClampMin : Int16 := 0
/-- `default_clamp_max` -/
def defaultClampMax : Int16 := 1023

/-- The period of the tick at either rate: `tick_period_50hz`, `tick_period_60hz`. -/
def tickPeriodOf (rate50hz : Bool) : Nat := if rate50hz then 20280 else 17030

/-- `mode::tracking` -/
def modeTracking : UInt8 := 0x01
/-- `mode::movement_interrupts` -/
def modeMovementInterrupts : UInt8 := 0x02
/-- `mode::button_interrupts` -/
def modeButtonInterrupts : UInt8 := 0x04
/-- `mode::refresh_interrupts` -/
def modeRefreshInterrupts : UInt8 := 0x08
/-- `mode::mask` -/
def modeMask : UInt8 := 0x0F

/-- `status::movement_interrupt` -/
def statusMovementInterrupt : UInt8 := 0x02
/-- `status::button_interrupt` -/
def statusButtonInterrupt : UInt8 := 0x04
/-- `status::refresh_interrupt` -/
def statusRefreshInterrupt : UInt8 := 0x08
/-- `status::moved` -/
def statusMoved : UInt8 := 0x20
/-- `status::button_at_last_read` -/
def statusButtonAtLastRead : UInt8 := 0x40
/-- `status::button_down` -/
def statusButtonDown : UInt8 := 0x80
/-- `status::interrupt_sources` -/
def statusInterruptSources : UInt8 := 0x0E
/-- `frame_status_mask` -/
def frameStatusMask : UInt8 := 0x2E

/-- `port_b::read_strobe` -/
def readStrobe : UInt8 := 0x10
/-- `port_b::write_strobe` -/
def writeStrobe : UInt8 := 0x20
/-- `port_b::byte_ready` -/
def byteReady : UInt8 := 0x40
/-- `port_b::busy` -/
def busy : UInt8 := 0x80
/-- `port_b::card_driven` -/
def cardDriven : UInt8 := 0x3E
/-- `port_b::pia_inputs` -/
def piaInputs : UInt8 := 0xC1

/-- `low_byte` -/
def lowByte (value : Int16) : UInt8 := (value.toUInt16 &&& 0xFF).toUInt8

/-- `high_byte` -/
def highByte (value : Int16) : UInt8 := (value.toUInt16 >>> 8).toUInt8

/-- `word_of` -/
def wordOf (low high : UInt8) : Int16 := ⟨low.toUInt16 ||| (high.toUInt16 <<< 8)⟩

/-- `clamp_axis` -/
def clampAxis (value : Int) (low high : Int16) : Int16 :=
  Int16.ofInt (max low.toInt (min high.toInt value))

/-- `command_out_len` -/
def commandOutLen (cmd : UInt8) : Nat :=
  if cmd &&& 0xF0 = 0x40 ∨ cmd &&& 0xF0 = 0x60 then 5
  else if cmd &&& 0xF0 = 0x90 then
    if cmd &&& 0x0C = 0x08 then 2
    else if cmd &&& 0x0C = 0x04 then 3
    else if cmd &&& 0x0C = 0x0C then 4
    else 1
  else if cmd &&& 0xF0 = 0xA0 then 2
  else if cmd = 0xF0 then 3
  else if cmd = 0xF1 then 4
  else 1

/-- `command_in_len` -/
def commandInLen (cmd : UInt8) : Nat :=
  if cmd &&& 0xF0 = 0x10 then 5
  else if cmd &&& 0xF0 = 0x20 ∨ cmd &&& 0xF0 = 0x50 then 1
  else if cmd = 0xF0 then 1
  else 0

/-- `reply_levels` -/
def replyLevels (strobes : UInt8) : UInt8 :=
  (if strobes &&& readStrobe = 0 then byteReady else 0) |||
    (if strobes &&& writeStrobe ≠ 0 then busy else 0)

/-! ## The card -/

/-- **`MouseCard`**. `level` is what the outside has seen: what `AssertIrq` was
last given. -/
structure MouseCard where
  /-- `pia` -/
  pia : Pia6821
  /-- `port_a_shadow` -/
  portAShadow : UInt8
  /-- `port_b_shadow` -/
  portBShadow : UInt8
  /-- `buffer` -/
  buffer : Vector UInt8 8
  /-- `pos` -/
  pos : Nat
  /-- `out_len` -/
  outLen : Nat
  /-- `in_len` -/
  inLen : Nat
  /-- `reply_pos` -/
  replyPos : Nat
  /-- `mode` -/
  mode : UInt8
  /-- `position_x` -/
  positionX : Int16
  /-- `position_y` -/
  positionY : Int16
  /-- `min_x` -/
  minX : Int16
  /-- `max_x` -/
  maxX : Int16
  /-- `min_y` -/
  minY : Int16
  /-- `max_y` -/
  maxY : Int16
  /-- `read_x` -/
  readX : Int16
  /-- `read_y` -/
  readY : Int16
  /-- `button` -/
  button : Bool
  /-- `button_at_last_read` -/
  buttonAtLastRead : Bool
  /-- `status` -/
  status : UInt8
  /-- `pending` -/
  pending : UInt8
  /-- `irq_asserted` -/
  irqAsserted : Bool
  /-- `rate_50hz` -/
  rate50hz : Bool
  /-- `tick_period` -/
  tickPeriod : Nat
  /-- `next_tick` -/
  nextTick : Nat
  /-- What `AssertIrq` was last given. -/
  level : Bool
deriving DecidableEq

namespace MouseCard

variable (card : MouseCard)

/-! ## The tick -/

/-- `set_irq` -/
def setIrq (level : Bool) : MouseCard :=
  if card.irqAsserted = level then card else { card with irqAsserted := level, level := level }

/-- The sources that a tick reports, by the mode: bit 0 gates movement and
button, not the refresh. -/
def reportable : UInt8 :=
  (if card.mode &&& modeTracking ≠ 0 then
    card.pending &&& card.mode &&& (modeMovementInterrupts ||| modeButtonInterrupts)
  else 0) |||
    (if card.mode &&& modeRefreshInterrupts ≠ 0 then statusRefreshInterrupt else 0)

/-- `fire` -/
def fire : MouseCard :=
  if card.reportable = 0 then { card with pending := 0 }
  else
    { card with pending := 0, status := card.status ||| card.reportable }.setIrq true

/-- **`advance`**: ticks that were missed collapse into one. -/
def advance (now : Nat) : MouseCard :=
  let card := { card with nextTick := min (now + card.tickPeriod) card.nextTick }
  if card.nextTick ≤ now then
    { card.fire with
      nextTick :=
        card.nextTick + ((now - card.nextTick) / card.tickPeriod + 1) * card.tickPeriod }
  else card

/-- `restart_tick` -/
def restartTick (now : Nat) : MouseCard :=
  { card with
    tickPeriod := tickPeriodOf card.rate50hz
    nextTick := now + tickPeriodOf card.rate50hz }

/-! ## Commands of the guest -/

/-- `peek_byte` -/
def peekByte (address : UInt16) : UInt8 :=
  if address = 0x4E then lowByte card.maxY
  else if address = 0x4D then lowByte card.maxX
  else if address = 0x4C then highByte card.maxY
  else if address = 0x4B then highByte card.maxX
  else if address = 0x4A then lowByte card.minY
  else if address = 0x49 then lowByte card.minX
  else if address = 0x48 then highByte card.minY
  else if address = 0x47 then highByte card.minX
  else 0

/-- `execute_read_mouse` -/
def executeReadMouse : MouseCard :=
  let reply := (card.status &&& statusMoved)
    ||| (if card.button then statusButtonDown else 0)
    ||| (if card.buttonAtLastRead then statusButtonAtLastRead else 0)
  { card with
    readX := card.positionX
    readY := card.positionY
    buttonAtLastRead := card.button
    status := card.status &&& ~~~(statusMoved ||| statusInterruptSources)
    buffer := ((((card.buffer.set 1 (lowByte card.positionX)).set 2 (highByte card.positionX)).set
      3 (lowByte card.positionY)).set 4 (highByte card.positionY)).set 5 reply }

/-- `execute_init_mouse` -/
def executeInitMouse (now : Nat) : MouseCard :=
  let card := { card with
    mode := 0
    positionX := 0
    positionY := 0
    minX := defaultClampMin
    maxX := defaultClampMax
    minY := defaultClampMin
    maxY := defaultClampMax
    pending := 0
    status := card.status &&& ~~~statusInterruptSources }
  let card := (card.setIrq false).restartTick now
  { card with buffer := card.buffer.set 1 0xFF }

/-- `execute_clamp_mouse` -/
def executeClampMouse : MouseCard :=
  let low := wordOf card.buffer[1] card.buffer[3]
  let high := wordOf card.buffer[2] card.buffer[4]
  if card.buffer[0] &&& 0x01 ≠ 0 then { card with minY := low, maxY := high }
  else { card with minX := low, maxX := high }

/-- **`execute`** -/
def execute (now : Nat) : MouseCard :=
  let cmd := card.buffer[0]
  if cmd &&& 0xF0 = 0x00 then { card with mode := cmd &&& modeMask }
  else if cmd &&& 0xF0 = 0x10 then card.executeReadMouse
  else if cmd &&& 0xF0 = 0x20 then
    setIrq
      { card with
        buffer := card.buffer.set 1 (card.status &&& statusInterruptSources)
        status := card.status &&& ~~~statusInterruptSources }
      false
  else if cmd &&& 0xF0 = 0x30 then { card with positionX := 0, positionY := 0 }
  else if cmd &&& 0xF0 = 0x40 then
    { card with
      positionX := wordOf card.buffer[1] card.buffer[2]
      positionY := wordOf card.buffer[3] card.buffer[4] }
  else if cmd &&& 0xF0 = 0x50 then card.executeInitMouse now
  else if cmd &&& 0xF0 = 0x60 then card.executeClampMouse
  else if cmd &&& 0xF0 = 0x70 then { card with positionX := card.minX, positionY := card.minY }
  else if cmd &&& 0xF0 = 0x80 then
    if cmd = 0x80 then { card with mode := modeTracking, positionX := 0, positionY := 0 }
    else card
  else if cmd &&& 0xF0 = 0x90 then { card with rate50hz := cmd &&& 0x01 ≠ 0 }
  else if cmd = 0xF0 then
    { card with
      buffer := card.buffer.set 3
        (card.peekByte (card.buffer[1].toUInt16 ||| (card.buffer[2].toUInt16 <<< 8))) }
  else card

/-! ## The strobes

A `none` is an exception of `buffer.at`. -/

/-- `present_reply` -/
def presentReply : Option MouseCard :=
  if card.inLen ≤ card.replyPos then some card
  else
    card.buffer[card.outLen + card.replyPos]?.map fun byte =>
      { card with pia := card.pia.pia6821SetPortA byte }

/-- The buffer after the first part of `take_byte`. -/
def collect (byte : UInt8) : MouseCard :=
  if card.pos = 0 then
    { card with
      buffer := (Vector.replicate 8 0).set 0 byte
      outLen := commandOutLen byte
      inLen := commandInLen byte
      replyPos := 0
      pos := 1 }
  else if h : card.pos < 8 then
    { card with buffer := card.buffer.set card.pos byte h, pos := card.pos + 1 }
  else { card with pos := card.pos + 1 }

/-- **`take_byte`** -/
def takeByte (now : Nat) (byte : UInt8) : Option MouseCard :=
  let card := card.collect byte
  if card.pos < card.outLen then some card
  else { card.execute now with pos := 0 }.presentReply

/-- `on_write_strobe` -/
def onWriteStrobe (now : Nat) (data : UInt8) : Option MouseCard :=
  if data &&& writeStrobe ≠ 0 then some { card with portBShadow := card.portBShadow ||| busy }
  else
    (card.takeByte now card.portAShadow).map fun card =>
      { card with portBShadow := card.portBShadow &&& ~~~busy }

/-- `on_read_strobe` -/
def onReadStrobe (data : UInt8) : Option MouseCard :=
  if data &&& readStrobe ≠ 0 then
    some { card with portBShadow := card.portBShadow &&& ~~~byteReady }
  else
    let card :=
      if card.replyPos < card.inLen then { card with replyPos := card.replyPos + 1 } else card
    card.presentReply.map fun card =>
      { card with portBShadow := card.portBShadow ||| byteReady }

/-- `pia_listener_a` -/
def piaListenerA (data : UInt8) : MouseCard := { card with portAShadow := data }

/-- **`pia_listener_b`**; the bank of the ROM, which it also selects, is left
out. -/
def piaListenerB (now : Nat) (data : UInt8) : Option MouseCard :=
  let diff := (card.portBShadow ^^^ data) &&& cardDriven
  if diff = 0 then some card
  else do
    let card := { card with
      portBShadow := (card.portBShadow &&& ~~~cardDriven) ||| (data &&& cardDriven) }
    let card ← (if diff &&& writeStrobe ≠ 0 then card.onWriteStrobe now data else some card)
    let card ← (if diff &&& readStrobe ≠ 0 then card.onReadStrobe data else some card)
    return { card with pia := card.pia.pia6821SetPortB card.portBShadow }

/-- What the listeners do about an output of the 6821. -/
def listen (now : Nat) (out : Option PiaOutput) : Option MouseCard :=
  match out with
  | none => some card
  | some (.a data) => some (card.piaListenerA data)
  | some (.b data) => card.piaListenerB now data

/-- **`mouse_io`**, a read. -/
def mouseIoRead (now : Nat) (addr : UInt16) : UInt8 × MouseCard :=
  let card := card.advance now
  let r := card.pia.pia6821Read (Fin.ofNat 4 addr.toNat)
  (r.1, { card with pia := r.2 })

/-- **`mouse_io`**, a write. -/
def mouseIoWrite (now : Nat) (addr : UInt16) (val : UInt8) : Option MouseCard :=
  let card := card.advance now
  let r := card.pia.pia6821Write (Fin.ofNat 4 addr.toNat) val
  { card with pia := r.1 }.listen now r.2

/-! ## The card's life -/

/-- **`reset_card`** -/
def resetCard (now : Nat) : MouseCard :=
  let card := setIrq
    { card with
      pia := Pia6821.reset.pia6821SetPortB byteReady
      portAShadow := 0
      portBShadow := byteReady
      buffer := Vector.replicate 8 0
      pos := 0
      outLen := 1
      inLen := 0
      replyPos := 0
      mode := 0
      positionX := 0
      positionY := 0
      minX := defaultClampMin
      maxX := defaultClampMax
      minY := defaultClampMin
      maxY := defaultClampMax
      readX := 0
      readY := 0
      buttonAtLastRead := false
      status := 0
      pending := 0 }
    false
  { card with
    rate50hz := false
    tickPeriod := tickPeriodOf false
    nextTick := now + tickPeriodOf false }

/-- A `MouseCard` as it is constructed, in a slot whose line has a level. -/
def new (level : Bool) : MouseCard where
  pia := .reset
  portAShadow := 0
  portBShadow := 0
  buffer := Vector.replicate 8 0
  pos := 0
  outLen := 1
  inLen := 0
  replyPos := 0
  mode := 0
  positionX := 0
  positionY := 0
  minX := defaultClampMin
  maxX := defaultClampMax
  minY := defaultClampMin
  maxY := defaultClampMax
  readX := 0
  readY := 0
  button := false
  buttonAtLastRead := false
  status := 0
  pending := 0
  irqAsserted := false
  rate50hz := false
  tickPeriod := tickPeriodOf false
  nextTick := 0
  level := level

/-- **`mouse_abi_init`**, for a host that offers every member: `none` is no
card. -/
def mouseAbiInit (slot : Int) (now : Nat) (level : Bool) : Option MouseCard :=
  if slot < 1 ∨ slot > 7 then none else some ((new level).resetCard now)

/-- `mouse_abi_reset` -/
def mouseAbiReset (now : Nat) : MouseCard := card.resetCard now

/-- `mouse_abi_shutdown`: the level it leaves the slot's line with. -/
def mouseAbiShutdown : Bool := if card.irqAsserted then false else card.level

/-- `mouse_abi_think` -/
def mouseAbiThink (now : Nat) : MouseCard := card.advance now

end MouseCard

/-! ## Commands of the host -/

/-- The data of a command, told apart by its size. -/
inductive MouseData where
  /-- A null pointer. -/
  | null
  /-- `MouseButtonPayload` -/
  | button (button down : UInt8)
  /-- `MouseMovePayload` -/
  | move (dx dy : Int32)
  /-- Data of any other size. -/
  | other
deriving DecidableEq, Repr

namespace MouseCard

variable (card : MouseCard)

/-- The position along an axis after a motion. -/
def moved (position : Int16) (d : Int32) (low high : Int16) : Int16 :=
  clampAxis (position.toInt + max (-32768) (min 32767 d.toInt)) low high

/-- `mouse_cmd_move` -/
def cmdMove (dx dy : Int32) : MouseCard :=
  if card.mode &&& modeTracking = 0 then card
  else
    let x := moved card.positionX dx card.minX card.maxX
    let y := moved card.positionY dy card.minY card.maxY
    if x = card.positionX ∧ y = card.positionY then card
    else
      { card with
        positionX := x
        positionY := y
        status := card.status ||| statusMoved
        pending := card.pending ||| statusMovementInterrupt }

/-- `mouse_cmd_set_button` -/
def cmdSetButton (button down : UInt8) : MouseCard :=
  if button ≠ 0 then card
  else if card.button = decide (down ≠ 0) then card
  else if card.mode &&& modeTracking ≠ 0 then
    { card with button := down ≠ 0, pending := card.pending ||| statusButtonInterrupt }
  else { card with button := down ≠ 0 }

/-- **`mouse_abi_command`**: `none` is a refusal, which changes nothing. -/
def mouseAbiCommand (cmdId : UInt32) (data : MouseData) : Option MouseCard :=
  if cmdId &&& 0xFFFF0000 ≠ 0x00060000 ∧ cmdId &&& 0xFFFF0000 ≠ 0 then none
  else if cmdId = 0x00060002 then
    match data with
    | .move dx dy => some (card.cmdMove dx dy)
    | _ => none
  else if cmdId = 0x00060001 then
    match data with
    | .button button down => some (card.cmdSetButton button down)
    | _ => none
  else none

end MouseCard

/-! ## Frames -/

/-- **`MouseSaveState`** -/
structure MouseSaveState where
  /-- `version` -/
  version : UInt32
  /-- `struct_size` -/
  structSize : UInt32
  /-- `position_x` -/
  positionX : UInt32
  /-- `position_y` -/
  positionY : UInt32
  /-- `min_x` -/
  minX : UInt32
  /-- `max_x` -/
  maxX : UInt32
  /-- `min_y` -/
  minY : UInt32
  /-- `max_y` -/
  maxY : UInt32
  /-- `tick_phase` -/
  tickPhase : UInt32
  /-- `read_x` -/
  readX : UInt32
  /-- `read_y` -/
  readY : UInt32
  /-- `parser_pos` -/
  parserPos : UInt32
  /-- `parser_out_len` -/
  parserOutLen : UInt32
  /-- `pia_ora` -/
  piaOra : UInt8
  /-- `pia_orb` -/
  piaOrb : UInt8
  /-- `pia_ddra` -/
  piaDdra : UInt8
  /-- `pia_ddrb` -/
  piaDdrb : UInt8
  /-- `pia_cra` -/
  piaCra : UInt8
  /-- `pia_crb` -/
  piaCrb : UInt8
  /-- `pia_port_a_in` -/
  piaPortAIn : UInt8
  /-- `pia_port_b_in` -/
  piaPortBIn : UInt8
  /-- `rate_50hz` -/
  rate50hz : UInt8
  /-- `pending` -/
  pending : UInt8
  /-- `irq_asserted` -/
  irqAsserted : UInt8
  /-- `parser_in_len` -/
  parserInLen : UInt8
  /-- `parser_reply_pos` -/
  parserReplyPos : UInt8
  /-- `pia_port_a_shadow` -/
  piaPortAShadow : UInt8
  /-- `pia_port_b_shadow` -/
  piaPortBShadow : UInt8
  /-- `mode` -/
  mode : UInt8
  /-- `status` -/
  status : UInt8
  /-- `button_at_last_read` -/
  buttonAtLastRead : UInt8
  /-- `button` -/
  button : UInt8
  /-- `buffer` -/
  buffer : Vector UInt8 8
deriving DecidableEq

/-- A word of a frame: `static_cast<uint16_t>` of a position, widened. -/
def frameWord (value : Int16) : UInt32 := value.toUInt16.toUInt32

/-- A position from a word of a frame: `static_cast<int16_t>`. -/
def positionOfWord (word : UInt32) : Int16 := ⟨word.toUInt16⟩

/-- A flag of a frame. -/
def frameFlag (b : Bool) : UInt8 := if b then 1 else 0

/-- **`mouse_abi_save_state`**, for a buffer that is large enough. -/
def MouseCard.mouseAbiSaveState (card : MouseCard) (now : Nat) : MouseSaveState where
  version := 1
  structSize := 92
  positionX := frameWord card.positionX
  positionY := frameWord card.positionY
  minX := frameWord card.minX
  maxX := frameWord card.maxX
  minY := frameWord card.minY
  maxY := frameWord card.maxY
  tickPhase := UInt32.ofNat (if card.nextTick > now then card.nextTick - now else 0)
  readX := frameWord card.readX
  readY := frameWord card.readY
  parserPos := UInt32.ofNat card.pos
  parserOutLen := UInt32.ofNat card.outLen
  piaOra := card.pia.ora
  piaOrb := card.pia.orb
  piaDdra := card.pia.ddra
  piaDdrb := card.pia.ddrb
  piaCra := card.pia.cra
  piaCrb := card.pia.crb
  piaPortAIn := card.pia.portAIn
  piaPortBIn := card.pia.portBIn
  rate50hz := frameFlag card.rate50hz
  pending := card.pending
  irqAsserted := frameFlag card.irqAsserted
  parserInLen := UInt8.ofNat card.inLen
  parserReplyPos := UInt8.ofNat card.replyPos
  piaPortAShadow := card.portAShadow
  piaPortBShadow := card.portBShadow
  mode := card.mode
  status := card.status &&& frameStatusMask
  buttonAtLastRead := frameFlag card.buttonAtLastRead
  button := frameFlag card.button
  buffer := card.buffer

/-- **`frame_refusal`**: what a frame is refused for, if it is. -/
def frameRefusal (state : MouseSaveState) : Option String :=
  if state.version ≠ 1 ∨ state.structSize ≠ 92 then some "the header"
  else if ∃ word ∈ [state.positionX, state.positionY, state.minX, state.maxX, state.minY,
      state.maxY, state.readX, state.readY], word > 0xFFFF then
    some "a position or clamp above 16 bits"
  else if state.parserPos ≥ 8 ∨ state.parserOutLen < 1 ∨ state.parserOutLen > 8 then
    some "the parser's cursor or length"
  else if state.mode > modeMask ∨ state.pending &&& ~~~statusInterruptSources ≠ 0 then
    some "the mode or pending bits"
  else if state.rate50hz > 1 ∨ state.irqAsserted > 1 ∨ state.button > 1 ∨
      state.buttonAtLastRead > 1 then
    some "a flag above 1"
  else if state.parserInLen ≠ 0 ∧ state.parserInLen.toNat ≠ commandInLen state.buffer[0] then
    some "the reply length"
  else if state.parserReplyPos.toNat > commandInLen state.buffer[0] then some "the reply cursor"
  else if state.piaPortBShadow &&& piaInputs ≠ replyLevels state.piaPortBShadow then
    some "port B's replies against its strobes"
  else none

/-- The shadow of port B that a load takes: it gives way to the pins where it
disagrees with them. -/
def loadShadow (pins shadow : UInt8) : UInt8 :=
  if shadow &&& cardDriven ≠ pins &&& cardDriven then
    (pins &&& cardDriven) ||| replyLevels (pins &&& cardDriven)
  else shadow

/-- **`mouse_abi_load_state`** of a buffer of some size: the card as it is then,
whatever it was, or `none` when the frame is refused and the card stays as it
was. -/
def MouseCard.mouseAbiLoadState (now size : Nat) (state : MouseSaveState) :
    Option MouseCard :=
  if size < 92 then none
  else if (frameRefusal state).isSome then none
  else
    let shadow := loadShadow (state.piaOrb &&& state.piaDdrb) state.piaPortBShadow
    let rate50hz := decide (state.rate50hz ≠ 0)
    let irqAsserted := decide (state.irqAsserted ≠ 0)
    some
      { pia :=
          { Pia6821.reset with
            ora := state.piaOra
            orb := state.piaOrb
            ddra := state.piaDdra
            ddrb := state.piaDdrb
            cra := state.piaCra
            crb := state.piaCrb
            portAIn := state.piaPortAIn
            portBIn := shadow }
        portAShadow := state.piaPortAShadow
        portBShadow := shadow
        buffer := state.buffer
        pos := state.parserPos.toNat
        outLen := commandOutLen state.buffer[0]
        inLen := commandInLen state.buffer[0]
        replyPos := state.parserReplyPos.toNat
        mode := state.mode
        positionX := positionOfWord state.positionX
        positionY := positionOfWord state.positionY
        minX := positionOfWord state.minX
        maxX := positionOfWord state.maxX
        minY := positionOfWord state.minY
        maxY := positionOfWord state.maxY
        readX := positionOfWord state.readX
        readY := positionOfWord state.readY
        button := state.button ≠ 0
        buttonAtLastRead := state.buttonAtLastRead ≠ 0
        status :=
          if irqAsserted then state.status &&& frameStatusMask
          else state.status &&& frameStatusMask &&& ~~~statusInterruptSources
        pending := state.pending
        rate50hz := rate50hz
        tickPeriod := tickPeriodOf rate50hz
        nextTick := now + min state.tickPhase.toNat (tickPeriodOf rate50hz)
        irqAsserted := irqAsserted
        level := irqAsserted }

/-- **What a frame is not refused for.** -/
structure MouseSaveState.Accepted (state : MouseSaveState) : Prop where
  /-- The header. -/
  header : state.version = 1 ∧ state.structSize = 92
  /-- The positions and clamps have 16 bits. -/
  words : ∀ word ∈ [state.positionX, state.positionY, state.minX, state.maxX, state.minY,
    state.maxY, state.readX, state.readY], word ≤ 0xFFFF
  /-- The parser's cursor and length. -/
  parser : state.parserPos < 8 ∧ 1 ≤ state.parserOutLen ∧ state.parserOutLen ≤ 8
  /-- The mode and the pending bits. -/
  mode : state.mode ≤ modeMask ∧ state.pending &&& ~~~statusInterruptSources = 0
  /-- The flags. -/
  flags : state.rate50hz ≤ 1 ∧ state.irqAsserted ≤ 1 ∧ state.button ≤ 1 ∧
    state.buttonAtLastRead ≤ 1
  /-- The reply's length. -/
  inLen : state.parserInLen = 0 ∨ state.parserInLen.toNat = commandInLen state.buffer[0]
  /-- The reply's cursor. -/
  replyPos : state.parserReplyPos.toNat ≤ commandInLen state.buffer[0]
  /-- Port B's replies. -/
  handshake : state.piaPortBShadow &&& piaInputs = replyLevels state.piaPortBShadow

namespace MouseCard

variable (card : MouseCard)

/-! ## What a card keeps to -/

/-- **Orderly**: what the card's processor keeps to. -/
structure Orderly : Prop where
  /-- The length of the command is that of its first byte. -/
  outLen : card.outLen = commandOutLen card.buffer[0]
  /-- So is the length of its reply. -/
  inLen : card.inLen = commandInLen card.buffer[0]
  /-- The reply's cursor is inside the reply. -/
  replyPos : card.replyPos ≤ card.inLen
  /-- The mode has its four bits only. -/
  mode : card.mode &&& modeMask = card.mode
  /-- What is pending are interrupt sources. -/
  pending : card.pending &&& statusInterruptSources = card.pending
  /-- The status has the bits that a frame keeps. -/
  status : card.status &&& frameStatusMask = card.status
  /-- A source that is raised has raised the line. -/
  raised : card.status &&& statusInterruptSources ≠ 0 → card.irqAsserted = true
  /-- The line that is raised is asserted. -/
  level : card.irqAsserted = true → card.level = true

/-- **Consistent**: what every card keeps to between the operations. -/
structure Consistent : Prop extends card.Orderly where
  /-- The buffer's cursor is inside it. -/
  pos : card.pos < 8
  /-- The handshake bits answer the strobes. -/
  handshake : card.portBShadow &&& piaInputs = replyLevels card.portBShadow
  /-- The 6821 sees the shadow. -/
  portBIn : card.pia.portBIn = card.portBShadow

/-- The buffer may be written after its first byte. -/
theorem Orderly.answer {card : MouseCard} (h : card.Orderly) {buffer : Vector UInt8 8} (hfirst : buffer[0] = card.buffer[0]) :
    { card with buffer := buffer }.Orderly :=
  { h with outLen := hfirst ▸ h.outLen, inLen := hfirst ▸ h.inLen }

/-! ## What some commands do -/

/-- The high nibble chooses the command. -/
theorem execute_pos_mouse {c : MouseCard} (hcmd : c.buffer[0] &&& 0xF0 = 0x40) (now : Nat) :
    c.execute now = { c with
      positionX := wordOf c.buffer[1] c.buffer[2]
      positionY := wordOf c.buffer[3] c.buffer[4] } := by
  unfold execute
  dsimp only
  rw [hcmd]
  rfl

theorem execute_clamp_mouse {c : MouseCard} (hcmd : c.buffer[0] &&& 0xF0 = 0x60) (now : Nat) :
    c.execute now = c.executeClampMouse := by
  unfold execute
  dsimp only
  rw [hcmd]
  rfl

theorem execute_read_mouse {c : MouseCard} (hcmd : c.buffer[0] &&& 0xF0 = 0x10) (now : Nat) :
    c.execute now = c.executeReadMouse := by
  unfold execute
  dsimp only
  rw [hcmd]
  rfl

theorem execute_peek {c : MouseCard} (hcmd : c.buffer[0] = 0xF0) (now : Nat) :
    c.execute now = { c with
      buffer := c.buffer.set 3 (c.peekByte (word c.buffer[1] c.buffer[2])) } := by
  unfold execute
  dsimp only
  rw [hcmd]
  rfl

end MouseCard

end LinApple.Cards
