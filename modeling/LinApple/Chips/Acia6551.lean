import LinApple.Chips.SerialClock
import LinApple.Lib.Bytes

/-!
# The 6551

The serial chip of the Super Serial Card. Its transmitter has a data register and a
shifter, its receiver the same, and both keep the cycles at which a character is over.
`advance` runs the chip up to a cycle: in a loop, it takes the nearest of these cycles
and does what is due there.

Cycles are 64-bit counts, and the loop ends only if a next event after the cycle is
found. So `advance` is given a number of rounds, and is `none` if they are not enough.
-/

namespace LinApple.Chips

/-! ## Registers -/

namespace AciaReg

/-- `acia_reg::data` -/
def data : UInt8 := 0
/-- `acia_reg::status` -/
def status : UInt8 := 1
/-- `acia_reg::command` -/
def command : UInt8 := 2
/-- `acia_reg::control` -/
def control : UInt8 := 3
/-- `acia_reg::mask` -/
def mask : UInt8 := 0x03

end AciaReg

namespace AciaStatus

/-- `acia_status::parity_error` -/
def parityError : UInt8 := 0x01
/-- `acia_status::framing_error` -/
def framingError : UInt8 := 0x02
/-- `acia_status::overrun` -/
def overrun : UInt8 := 0x04
/-- `acia_status::tdre` -/
def tdre : UInt8 := 0x10
/-- `acia_status::dcd` -/
def dcd : UInt8 := 0x20
/-- `acia_status::dsr` -/
def dsr : UInt8 := 0x40
/-- `acia_status::irq` -/
def irq : UInt8 := 0x80

end AciaStatus

namespace AciaCommand

/-- `acia_command::dtr` -/
def dtr : UInt8 := 0x01
/-- `acia_command::rx_irq_disable` -/
def rxIrqDisable : UInt8 := 0x02
/-- `acia_command::tic_mask` -/
def ticMask : UInt8 := 0x0C
/-- `acia_command::tic_off` -/
def ticOff : UInt8 := 0x00
/-- `acia_command::tic_irq` -/
def ticIrq : UInt8 := 0x04
/-- `acia_command::tic_break` -/
def ticBreak : UInt8 := 0x0C
/-- `acia_command::echo` -/
def echo : UInt8 := 0x10
/-- `acia_command::parity_enable` -/
def parityEnable : UInt8 := 0x20
/-- `acia_command::parity_mode_mask` -/
def parityModeMask : UInt8 := 0xC0
/-- `acia_command::parity_mode_shift` -/
def parityModeShift : UInt8 := 6

end AciaCommand

namespace AciaControl

/-- `acia_control::baud_mask` -/
def baudMask : UInt8 := 0x0F
/-- `acia_control::receiver_clock_internal` -/
def receiverClockInternal : UInt8 := 0x10
/-- `acia_control::word_length_mask` -/
def wordLengthMask : UInt8 := 0x60
/-- `acia_control::word_length_shift` -/
def wordLengthShift : UInt8 := 5
/-- `acia_control::two_stop_bits` -/
def twoStopBits : UInt8 := 0x80

end AciaControl

namespace AciaLatch

/-- `acia_latch::error_mask` -/
def errorMask : UInt8 := 0x07
/-- `acia_latch::rdrf` -/
def rdrf : UInt8 := 0x08
/-- `acia_latch::tdr_full` -/
def tdrFull : UInt8 := 0x10
/-- `acia_latch::tx_busy` -/
def txBusy : UInt8 := 0x20
/-- `acia_latch::rx_busy` -/
def rxBusy : UInt8 := 0x40
/-- `acia_latch::reserved` -/
def reserved : UInt8 := 0x80

end AciaLatch

namespace AciaLineBit

/-- `acia_line::cts` -/
def cts : UInt8 := 0x01
/-- `acia_line::dsr` -/
def dsr : UInt8 := 0x02
/-- `acia_line::dcd` -/
def dcd : UInt8 := 0x04
/-- `acia_line::all_asserted` -/
def allAsserted : UInt8 := 0x07

end AciaLineBit

/-- **The chip**: `Acia6551`, without the pointer checks. -/
structure Acia6551 where
  /-- `control` -/
  control : UInt8 := 0
  /-- `command` -/
  command : UInt8 := 0
  /-- `status_latches` -/
  statusLatches : UInt8 := 0
  /-- `receive_data` -/
  receiveData : UInt8 := 0
  /-- `transmit_data` -/
  transmitData : UInt8 := 0
  /-- `shift_data` -/
  shiftData : UInt8 := 0
  /-- `shift_errors` -/
  shiftErrors : UInt8 := 0
  /-- `lines` -/
  lines : UInt8 := AciaLineBit.allAsserted
  /-- `irq` -/
  irq : Bool := false
  /-- `irq_from_lines` -/
  irqFromLines : Bool := false
  /-- `break_level` -/
  breakLevel : Bool := false
  /-- `rx_completed` -/
  rxCompleted : Bool := false
  /-- `clock_mhz` -/
  clockMhz : Nat := 0
  /-- `synced` -/
  synced : Nat := 0
  /-- `previous_synced` -/
  previousSynced : Nat := 0
  /-- `tx_busy_until` -/
  txBusyUntil : Nat := 0
  /-- `tx_anchor` -/
  txAnchor : Nat := 0
  /-- `rx_rdrf_at` -/
  rxRdrfAt : Nat := 0
  /-- `rx_free_at` -/
  rxFreeAt : Nat := 0
  /-- `rx_freed_cycle` -/
  rxFreedCycle : Nat := 0
  /-- `rdr_emptied_cycle` -/
  rdrEmptiedCycle : Nat := 0
  /-- `pending_out` -/
  pendingOut : UInt8 := 0
  /-- `has_pending_out` -/
  hasPendingOut : Bool := false
deriving DecidableEq, Repr

namespace Acia6551

variable (a : Acia6551)

/-! ## The character -/

/-- `divisors` -/
def divisors : List Nat :=
  [0, 2304, 1536, 1048, 856, 768, 384, 192, 96, 64, 48, 32, 24, 16, 12, 6]

/-- `crystal_millihertz` -/
def crystalMillihertz : Nat := 1843200000

/-- `divisor_of` -/
def divisorOf : Nat :=
  if a.control &&& AciaControl.receiverClockInternal = 0 then 0
  else divisors.getD (a.control &&& AciaControl.baudMask).toNat 0

/-- `has_clock` -/
def hasClock : Bool := a.clockMhz ≠ 0 && a.divisorOf ≠ 0

/-- `data_bits` -/
def dataBits : Nat :=
  8 - ((a.control &&& AciaControl.wordLengthMask) >>> AciaControl.wordLengthShift).toNat

/-- `parity_of` -/
def parityOf : Nat :=
  if a.command &&& AciaCommand.parityEnable = 0 then 0
  else 1 + ((a.command &&& AciaCommand.parityModeMask) >>> AciaCommand.parityModeShift).toNat

/-- `stop_half_bits` -/
def stopHalfBits : Nat :=
  if a.control &&& AciaControl.twoStopBits = 0 then 2
  else
    let parity := a.command &&& AciaCommand.parityEnable ≠ 0
    if a.dataBits = 8 ∧ parity then 2
    else if a.dataBits = 5 ∧ ¬ parity then 3
    else 4

/-- `tic` -/
def tic : UInt8 := a.command &&& AciaCommand.ticMask

/-- `dtr` -/
def dtr : Bool := a.command &&& AciaCommand.dtr ≠ 0

/-- The clear-to-send line is asserted. -/
def cts : Bool := a.lines &&& AciaLineBit.cts ≠ 0

/-- `transmitter_sends` -/
def transmitterSends : Bool :=
  a.hasClock && a.tic ≠ AciaCommand.ticOff && a.tic ≠ AciaCommand.ticBreak && a.cts

/-- **The cycles up to a point in a character**: `acia_cycles_for`. -/
def aciaCyclesFor (sixteenths : Nat) : Nat :=
  if !a.hasClock then 0
  else
    let numerator := u64 (a.clockMhz * a.divisorOf * sixteenths)
    u64 (numerator * 2 + crystalMillihertz) / (2 * crystalMillihertz)

/-- `acia_frame_sixteenths` -/
def aciaFrameSixteenths : Nat :=
  let parityBits := if a.parityOf = 0 then 0 else 1
  (1 + a.dataBits + parityBits) * 16 + a.stopHalfBits * 8

/-- `acia_rdrf_sixteenths` -/
def aciaRdrfSixteenths : Nat :=
  let parityBits := if a.parityOf = 0 then 0 else 1
  (1 + a.dataBits + parityBits) * 16 + 9

/-- `frame_cycles` -/
def frameCycles : Nat := a.aciaCyclesFor a.aciaFrameSixteenths

/-! ## Latches, interrupts and bytes out -/

/-- `latch` -/
def latch (bit : UInt8) : Bool := a.statusLatches &&& bit ≠ 0

/-- `set_latch` -/
def setLatch (bit : UInt8) (on : Bool) : Acia6551 :=
  { a with statusLatches := if on then a.statusLatches ||| bit else a.statusLatches &&& ~~~bit }

/-- `raise_irq` -/
def raiseIrq (fromLines : Bool) : Acia6551 :=
  if !a.irq then { a with irqFromLines := fromLines, irq := true }
  else if !fromLines then { a with irqFromLines := false, irq := true }
  else { a with irq := true }

/-- `emit` -/
def emit (byte : UInt8) : Acia6551 := { a with pendingOut := byte, hasPendingOut := true }

/-! ## The transmitter -/

/-- With `TIC` 01 and the terminal ready the transmitter interrupts. -/
def ticInterrupts : Bool := a.tic = AciaCommand.ticIrq && a.dtr

/-- `start_transmit` -/
def startTransmit (at' : Nat) : Acia6551 :=
  let a := ((a.emit a.transmitData).setLatch AciaLatch.tdrFull false).setLatch AciaLatch.txBusy true
  let a := { a with txAnchor := at', txBusyUntil := u64 (at' + a.frameCycles) }
  if a.ticInterrupts then a.raiseIrq false else a

/-- `try_start_transmit` -/
def tryStartTransmit (at' : Nat) : Acia6551 :=
  if a.latch AciaLatch.tdrFull && !a.latch AciaLatch.txBusy && a.transmitterSends then
    a.startTransmit at'
  else a

/-- `tx_boundary_armed` -/
def txBoundaryArmed : Bool :=
  if !a.hasClock || a.frameCycles = 0 then false
  else if a.latch AciaLatch.txBusy then true
  else if a.ticInterrupts && a.transmitterSends then true
  else a.tic = AciaCommand.ticBreak && !a.breakLevel

/-- `next_tx_boundary` -/
def nextTxBoundary : Nat :=
  if a.latch AciaLatch.txBusy then a.txBusyUntil
  else
    let anchor := if a.txAnchor ≤ a.synced then a.txAnchor else a.synced
    let elapsed := a.synced - anchor
    u64 (anchor + (elapsed / a.frameCycles + 1) * a.frameCycles)

/-- `on_tx_boundary` -/
def onTxBoundary (at' : Nat) : Acia6551 :=
  let a := a.setLatch AciaLatch.txBusy false
  if a.tic = AciaCommand.ticBreak then { a with breakLevel := true }
  else if a.latch AciaLatch.tdrFull && a.transmitterSends then a.startTransmit at'
  else
    let a := { a with txAnchor := at' }
    if a.ticInterrupts && a.transmitterSends then a.raiseIrq false else a

/-! ## The receiver -/

/-- A byte that is received goes out again. -/
def echoes : Bool :=
  a.command &&& AciaCommand.echo ≠ 0 && a.tic = AciaCommand.ticOff && a.hasClock && a.cts

/-- `on_rx_rdrf` -/
def onRxRdrf : Acia6551 :=
  let byte := a.shiftData
  let a := { a with rxCompleted := true, shiftData := 0 }
  if a.latch AciaLatch.rdrf then a.setLatch AciaStatus.overrun true
  else
    let a := ({ a with receiveData := byte }).setLatch AciaLatch.rdrf true
    let a := if a.shiftErrors = 0 then a.setLatch AciaLatch.errorMask false
      else a.setLatch a.shiftErrors true
    let a := if a.dtr && a.command &&& AciaCommand.rxIrqDisable = 0 then a.raiseIrq false else a
    if a.echoes then a.emit byte else a

/-- `on_rx_free` -/
def onRxFree (at' : Nat) : Acia6551 :=
  { a.setLatch AciaLatch.rxBusy false with rxFreedCycle := at' }

/-! ## Time -/

/-- The receiver's next event, while a byte comes in. -/
def rxNext : Nat := if a.rxCompleted then a.rxFreeAt else a.rxRdrfAt

/-- **The cycle of the next event**, 0 if there is none: `acia_next_event`. -/
def aciaNextEvent : Nat :=
  let next := if a.txBoundaryArmed then a.nextTxBoundary else 0
  if a.latch AciaLatch.rxBusy then
    if next = 0 ∨ a.rxNext < next then a.rxNext else next
  else next

/-- The transmitter's boundary is the next event: `tx_due`. -/
def txDue : Bool := a.txBoundaryArmed && a.nextTxBoundary = a.aciaNextEvent

/-- The receiver's part of a round of the loop of `advance`. -/
def rxEvents (next : Nat) : Acia6551 :=
  let a := if a.latch AciaLatch.rxBusy && !a.rxCompleted && a.rxRdrfAt = next then a.onRxRdrf
    else a
  if a.latch AciaLatch.rxBusy && a.rxFreeAt = next then a.onRxFree next else a

/-- **What is due next happens**: a round of the loop of `advance`. The transmitter's
part is decided on before the receiver's is done. -/
def advanceRound : Acia6551 :=
  let next := a.aciaNextEvent
  let received := ({ a with synced := next } : Acia6551).rxEvents next
  if a.txDue then received.onTxBoundary next else received

/-- The loop of `advance`. -/
def events : EventLoop Acia6551 where
  due now a := a.aciaNextEvent ≠ 0 && a.aciaNextEvent ≤ now
  fire := advanceRound

/-- `rebase` -/
def rebase (now : Nat) : Acia6551 :=
  let back := a.synced - now
  let shifted cycle floor := if back ≤ cycle then cycle - back else floor
  { a with
    synced := now
    previousSynced := now
    txAnchor := shifted a.txAnchor now
    txBusyUntil := shifted a.txBusyUntil now
    rxRdrfAt := shifted a.rxRdrfAt now
    rxFreeAt := shifted a.rxFreeAt now
    rxFreedCycle := shifted a.rxFreedCycle 0
    rdrEmptiedCycle := shifted a.rdrEmptiedCycle 0 }

/-- **The chip is brought up to a cycle**: `advance`. -/
def advance (rounds now : Nat) : Option Acia6551 :=
  if now < a.synced then some (a.rebase now)
  else if now = a.synced then some a
  else
    (events.runTo now rounds { a with previousSynced := a.synced }).map fun a =>
      { a with synced := now }

/-! ## What the card does with the chip -/

/-- `acia_set_clock_mhz` -/
def aciaSetClockMhz (clockMhz : Nat) : Acia6551 := { a with clockMhz := clockMhz }

/-- `acia_reset` -/
def aciaReset (now : Nat) : Acia6551 :=
  { a with
    control := 0
    command := 0
    statusLatches := 0
    irq := false
    irqFromLines := false
    breakLevel := false
    rxCompleted := false
    synced := now
    previousSynced := now
    txAnchor := now
    rxFreedCycle := now
    rdrEmptiedCycle := now
    hasPendingOut := false }

/-- The part of `acia_programmed_reset` after the chip is brought up to now. -/
def programmedReset : Acia6551 :=
  let wasBreak := a.tic = AciaCommand.ticBreak
  let a := { a with command := a.command &&& ~~~(AciaCommand.dtr ||| AciaCommand.rxIrqDisable
    ||| AciaCommand.ticMask ||| AciaCommand.echo) }
  let a := a.setLatch AciaStatus.overrun false
  let a := if a.irq && a.irqFromLines then { a with irq := false, irqFromLines := false } else a
  if wasBreak then { a with breakLevel := false } else a

/-- `acia_programmed_reset` -/
def aciaProgrammedReset (rounds now : Nat) : Option Acia6551 :=
  (a.advance rounds now).map programmedReset

/-- `acia_restart` -/
def aciaRestart (now : Nat) : Acia6551 :=
  let a := { a with statusLatches := a.statusLatches &&& ~~~AciaLatch.reserved }
  let a := if !a.hasClock then
      { a with statusLatches := a.statusLatches &&& ~~~(AciaLatch.txBusy ||| AciaLatch.rxBusy) }
    else a
  let a := { a with
    irqFromLines := false
    breakLevel := a.tic = AciaCommand.ticBreak
    rxCompleted := false
    shiftErrors := 0
    synced := now
    previousSynced := now
    txAnchor := now
    rxFreedCycle := now
    rdrEmptiedCycle := now
    hasPendingOut := false }
  let a := if a.latch AciaLatch.txBusy then { a with txBusyUntil := u64 (now + a.frameCycles) }
    else a
  if a.latch AciaLatch.rxBusy then
    { a with
      rxRdrfAt := u64 (now + a.aciaCyclesFor a.aciaRdrfSixteenths)
      rxFreeAt := u64 (now + a.frameCycles) }
  else a

/-- `acia_step`, with the byte it hands out. -/
def aciaStep (rounds now : Nat) : Option (Acia6551 × Option UInt8) := do
  let a ← if a.hasPendingOut then some a else a.advance rounds now
  if !a.hasPendingOut then some (a, none)
  else some ({ a with hasPendingOut := false }, some a.pendingOut)

/-- The status register as it is read. -/
def statusByte : UInt8 :=
  (a.statusLatches &&& (AciaLatch.errorMask ||| AciaLatch.rdrf))
    ||| (if a.latch AciaLatch.tdrFull then 0 else AciaStatus.tdre)
    ||| (if a.lines &&& AciaLineBit.dcd = 0 then AciaStatus.dcd else 0)
    ||| (if a.lines &&& AciaLineBit.dsr = 0 then AciaStatus.dsr else 0)
    ||| (if a.irq then AciaStatus.irq else 0)

/-- The part of `acia_read` after the chip is brought up to now. -/
def readRegister (reg : UInt8) (now : Nat) : Acia6551 × UInt8 :=
  if reg &&& AciaReg.mask = AciaReg.data then
    (if a.latch AciaLatch.rdrf then
        { a.setLatch AciaLatch.rdrf false with rdrEmptiedCycle := now }
      else a, a.receiveData)
  else if reg &&& AciaReg.mask = AciaReg.status then
    ({ a with irq := false, irqFromLines := false }, a.statusByte)
  else if reg &&& AciaReg.mask = AciaReg.command then (a, a.command)
  else (a, a.control)

/-- `acia_read` -/
def aciaRead (rounds : Nat) (reg : UInt8) (now : Nat) : Option (Acia6551 × UInt8) :=
  (a.advance rounds now).map fun a => a.readRegister reg now

/-- The part of `acia_write` between bringing the chip up to now and its last step,
without the programmed reset. -/
def writeRegister (reg value : UInt8) (now : Nat) : Acia6551 :=
  if reg &&& AciaReg.mask = AciaReg.data then
    (({ a with transmitData := value }).setLatch AciaLatch.tdrFull true).tryStartTransmit now
  else if reg &&& AciaReg.mask = AciaReg.command then
    let wasBreak := a.tic = AciaCommand.ticBreak
    let a := { a with command := value }
    let a := if wasBreak ∧ a.tic ≠ AciaCommand.ticBreak then { a with breakLevel := false } else a
    a.tryStartTransmit now
  else
    let hadClock := a.hasClock
    let a := { a with control := value }
    let a := if !hadClock && a.hasClock then { a with txAnchor := now } else a
    a.tryStartTransmit now

/-- `acia_write`, with the byte it hands out. -/
def aciaWrite (rounds : Nat) (reg value : UInt8) (now : Nat) :
    Option (Acia6551 × Option UInt8) := do
  let a ← a.advance rounds now
  let a ← if reg &&& AciaReg.mask = AciaReg.status then a.aciaProgrammedReset rounds now
    else some (a.writeRegister reg value now)
  a.aciaStep rounds now

/-- The part of `acia_set_lines` after the chip is brought up to now. -/
def setLines (lines : UInt8) (now : Nat) : Acia6551 :=
  let previous := a.lines
  let a := { a with lines := lines &&& AciaLineBit.allAsserted }
  let a := if (previous ^^^ a.lines) &&& (AciaLineBit.dsr ||| AciaLineBit.dcd) ≠ 0 ∧ a.dtr then
      a.raiseIrq true
    else a
  a.tryStartTransmit now

/-- `acia_set_lines` -/
def aciaSetLines (rounds : Nat) (lines : UInt8) (now : Nat) : Option Acia6551 :=
  (a.advance rounds now).map fun a => a.setLines lines now

/-- `acia_rx_ready` -/
def aciaRxReady : Bool :=
  a.hasClock && a.dtr && a.lines &&& AciaLineBit.dcd ≠ 0 && !a.latch AciaLatch.rxBusy
    && !a.latch AciaLatch.rdrf

/-- The start of a byte that comes in, in `acia_rx_start`. -/
def receive (byte errors : UInt8) (now : Nat) : Acia6551 :=
  let readySince := if a.rxFreedCycle > a.rdrEmptiedCycle then a.rxFreedCycle
    else a.rdrEmptiedCycle
  let start := if readySince > a.previousSynced ∧ readySince ≤ now then readySince else now
  let a := { a with
    shiftData := byte
    shiftErrors := errors &&& AciaLatch.errorMask &&& ~~~AciaStatus.overrun
    rxCompleted := false }
  let a := a.setLatch AciaLatch.rxBusy true
  { a with
    rxRdrfAt := u64 (start + a.aciaCyclesFor a.aciaRdrfSixteenths)
    rxFreeAt := u64 (start + a.frameCycles) }

/-- `acia_rx_start` -/
def aciaRxStart (rounds : Nat) (byte errors : UInt8) (now : Nat) : Option Acia6551 :=
  if !a.hasClock then some a
  else do
    let a ← a.advance rounds now
    if a.latch AciaLatch.rxBusy then some a
    else (a.receive byte errors now).advance rounds now

/-- The loop of `send_bytes`, with the bytes handed out. -/
def sendLoop (rounds now : Nat) : Nat → Acia6551 → Option (Acia6551 × List UInt8)
  | 0, _ => none
  | n + 1, a => do
    let (a, byte) ← a.aciaStep rounds now
    match byte with
    | none => some (a, [])
    | some byte =>
      let (a, bytes) ← sendLoop rounds now n a
      some (a, byte :: bytes)

/-- **The chip is brought up to a cycle, and hands out its bytes**: `send_bytes`. -/
def sendBytes (rounds now : Nat) : Option (Acia6551 × List UInt8) := a.sendLoop rounds now rounds

/-- The chip is brought up to one cycle after the other. -/
def sendAll (rounds : Nat) : List Nat → Acia6551 → Option (Acia6551 × List UInt8)
  | [], a => some (a, [])
  | now :: later, a => do
    let (a, bytes) ← a.sendBytes rounds now
    let (a, more) ← sendAll rounds later a
    some (a, bytes ++ more)

end Acia6551

/-! ## Runs -/

/-- What a save state keeps of the chip. -/
structure AciaSaved where
  /-- `control_byte` -/
  control : UInt8
  /-- `command_byte` -/
  command : UInt8
  /-- `is_irq_pending` -/
  irq : Bool
  /-- `status_latches` -/
  statusLatches : UInt8
  /-- `receive_data` -/
  receiveData : UInt8
  /-- `transmit_data` -/
  transmitData : UInt8
  /-- `shift_data` -/
  shiftData : UInt8

/-- The chip in `super_serial_abi_load_state`. -/
def Acia6551.load (a : Acia6551) (saved : AciaSaved) (now : Nat) : Acia6551 :=
  if saved.statusLatches &&& AciaLatch.reserved ≠ 0 then a
  else
    ({ a.aciaReset now with
      control := saved.control
      command := saved.command
      irq := saved.irq
      statusLatches := saved.statusLatches
      receiveData := saved.receiveData
      transmitData := saved.transmitData
      shiftData := saved.shiftData } : Acia6551).aciaRestart now

/-- **What a card may do with the chip.** -/
inductive AciaOp where
  | setClockMhz (clockMhz : UInt64)
  | reset (now : UInt64)
  | programmedReset (now : UInt64)
  | restart (now : UInt64)
  | load (saved : AciaSaved) (now : UInt64)
  | step (now : UInt64)
  | read (reg : UInt8) (now : UInt64)
  | write (reg value : UInt8) (now : UInt64)
  | setLines (lines : UInt8) (now : UInt64)
  | rxStart (byte errors : UInt8) (now : UInt64)

/-- The chip after an operation, if its loops end. -/
def AciaOp.apply (rounds : Nat) (a : Acia6551) : AciaOp → Option Acia6551
  | setClockMhz clockMhz => some (a.aciaSetClockMhz clockMhz.toNat)
  | reset now => some (a.aciaReset now.toNat)
  | programmedReset now => a.aciaProgrammedReset rounds now.toNat
  | restart now => some (a.aciaRestart now.toNat)
  | load saved now => some (a.load saved now.toNat)
  | step now => (a.aciaStep rounds now.toNat).map Prod.fst
  | read reg now => (a.aciaRead rounds reg now.toNat).map Prod.fst
  | write reg value now => (a.aciaWrite rounds reg value now.toNat).map Prod.fst
  | setLines lines now => a.aciaSetLines rounds lines now.toNat
  | rxStart byte errors now => a.aciaRxStart rounds byte errors now.toNat

/-- The chip after a list of operations. -/
def Acia6551.run (rounds : Nat) : List AciaOp → Acia6551 → Option Acia6551
  | [], a => some a
  | op :: ops, a => (op.apply rounds a).bind (run rounds ops)

end LinApple.Chips
