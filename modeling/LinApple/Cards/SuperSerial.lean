import LinApple.Chips.AciaReceiver
import LinApple.Chips.AciaTransmitter
import LinApple.Slots.ByteSink

/-!
# The Super Serial Card

A 6551 between the slot and a byte sink. Every access first brings the chip up to the cycle, with
the lines as the host has them, and lets its bytes out; afterwards a byte is taken from the host
where the receiver can hold it, and the host is told what has changed: the line's format, the
interrupt, the cycle to wake the card at.

What the host says during a call is an argument of the call, and what it is told is returned. So
the host has no state here. What it knows is computed from the calls it has had, the last one of
each kind, and the theorem is that this is how the chip stands (`host_knows_run`): the level of
the interrupt line as far as the switch lets it through, the format of the line, and the cycle of
the next event.

The card tells only what has changed, and compares with what it has told before. That is where it
could go wrong: a change that undoes itself within one call, a switch that is turned while the
interrupt is up, a reset that puts the chip back without a word, a frame that brings another
format. `Known` says that the card's own record of what it has told is what it has told, and it
holds of every card from `init` on; then it is enough to look at one operation at a time.

The operations are reads and writes of the registers, wakes, new settings of the switches, resets
and frames, taken or refused, with any cable and any bytes. A byte comes in without error bits,
since the card passes none on to the chip. The number of rounds that the loop of the chip may take
is a parameter, and a run that needs more comes to nothing; how many are enough is told with the
chip.
-/

namespace LinApple.Cards

open LinApple.Chips

/-! ## The line as the host sees it -/

/-- **`AciaLine`** -/
structure AciaLine where
  /-- `baud` -/
  baud : UInt32 := 0
  /-- `data_bits` -/
  dataBits : UInt8 := 8
  /-- `parity` -/
  parity : UInt8 := 0
  /-- `stop_half_bits` -/
  stopHalfBits : UInt8 := 2
  /-- `dtr` -/
  dtr : UInt8 := 0
  /-- `rts` -/
  rts : UInt8 := 0
  /-- `brk` -/
  brk : UInt8 := 0
deriving DecidableEq, Repr

/-- `bauds` -/
def bauds : List UInt32 :=
  [0, 50, 75, 110, 135, 150, 300, 600, 1200, 1800, 2400, 3600, 4800, 7200, 9600, 19200]

/-- `acia_line_view` -/
def aciaLineView (a : Acia6551) : AciaLine where
  baud := if a.hasClock then bauds.getD (a.control &&& AciaControl.baudMask).toNat 0 else 0
  dataBits := UInt8.ofNat a.dataBits
  parity := UInt8.ofNat a.parityOf
  stopHalfBits := UInt8.ofNat a.stopHalfBits
  dtr := if a.dtr then 1 else 0
  rts := if a.tic ≠ AciaCommand.ticOff then 1 else 0
  brk := if a.breakLevel then 1 else 0

/-! ## The card -/

/-- `SuperSerialSwitches` -/
structure SuperSerialSwitches where
  /-- `sw1` -/
  sw1 : UInt8
  /-- `sw2` -/
  sw2 : UInt8
deriving DecidableEq, Repr

/-- **`SuperSerialCard`** -/
structure SuperSerialCard where
  /-- `switches`, by default `default_switches_1` and `default_switches_2`. -/
  switches : SuperSerialSwitches := ⟨0x78, 0x2F⟩
  /-- `acia` -/
  acia : Acia6551 := {}
  /-- `line_sent` -/
  lineSent : AciaLine := {}
  /-- `slot_irq` -/
  slotIrq : Bool := false

/-- What the host is told. -/
inductive SerialCall where
  /-- `SinkWrite` -/
  | sinkWrite (byte : UInt8)
  /-- `SinkRead`, when it hands a byte over. -/
  | sinkRead (byte : UInt8)
  /-- `SinkSetLine` -/
  | sinkSetLine (line : Slots.PeripheralSerialLine)
  /-- `AssertIrq` -/
  | assertIrq (level : Bool)
  /-- `ScheduleEvent` -/
  | scheduleEvent (cycle : Nat)
deriving DecidableEq, Repr

/-- What the host says during a call. -/
structure SerialHost where
  /-- `GetCycles` -/
  now : UInt64
  /-- `SinkGetLines`, if there is a line. -/
  lines : Option UInt8
  /-- `SinkRead`, if there is a byte. -/
  byte : Option UInt8
  /-- `ReadFloatingBus` -/
  floatingBus : UInt8

/-- `host_lines`: without a cable all lines are asserted. -/
def hostLines (h : SerialHost) : UInt8 :=
  match h.lines with
  | some mask => mask &&& AciaLineBit.allAsserted
  | none => AciaLineBit.allAsserted

/-- `switch_2_6` -/
def switch26 : UInt8 := 0x20

/-- `switch_reads_0` -/
def switchReads0 (image : UInt8) (number : Nat) : Bool :=
  image &&& ((1 : UInt8) <<< UInt8.ofNat (number - 1)) ≠ 0

/-- A buffer's byte: what is not driven, and the bits of the open switches. -/
def switchesByte (image undriven : UInt8) (bits : List (Nat × UInt8)) : UInt8 :=
  bits.foldl (fun byte b => byte ||| if switchReads0 image b.1 then 0 else b.2) undriven

namespace SuperSerialCard

variable (card : SuperSerialCard)

/-- `switches_1_byte` -/
def switches1Byte : UInt8 :=
  switchesByte card.switches.sw1 0x0C
    [(1, 0x80), (2, 0x40), (3, 0x20), (4, 0x10), (5, 0x02), (6, 0x01)]

/-- `switches_2_byte` -/
def switches2Byte : UInt8 :=
  switchesByte card.switches.sw2 0x50 [(1, 0x80), (2, 0x20), (3, 0x08), (4, 0x04), (5, 0x02)]
    ||| if card.acia.lines &&& AciaLineBit.cts ≠ 0 then 0 else 0x01

/-- `send_bytes` -/
def sendBytes (rounds now : Nat) : Option (SuperSerialCard × List SerialCall) :=
  (card.acia.sendBytes rounds now).map fun r =>
    ({ card with acia := r.1 }, r.2.map SerialCall.sinkWrite)

/-- `pull_byte` -/
def pullByte (rounds : Nat) (h : SerialHost) : Option (SuperSerialCard × List SerialCall) :=
  if card.acia.aciaRxReady then
    match h.byte with
    | none => some (card, [])
    | some byte =>
      (card.acia.aciaRxStart rounds byte 0 h.now.toNat).map fun a =>
        ({ card with acia := a }, [.sinkRead byte])
  else some (card, [])

/-- `send_line` -/
def sendLine : SuperSerialCard × List SerialCall :=
  let line := aciaLineView card.acia
  ({ card with lineSent := line },
    [.sinkSetLine ⟨line.baud, line.dataBits, line.parity, line.stopHalfBits, line.dtr, line.rts,
      line.brk⟩])

/-- `follow_line` -/
def followLine : SuperSerialCard × List SerialCall :=
  if aciaLineView card.acia = card.lineSent then (card, []) else card.sendLine

/-- What the slot's interrupt line is to be. -/
def irqLevel : Bool := card.acia.irq && card.switches.sw2 &&& switch26 ≠ 0

/-- `follow_irq` -/
def followIrq : SuperSerialCard × List SerialCall :=
  if card.irqLevel = card.slotIrq then (card, [])
  else ({ card with slotIrq := card.irqLevel }, [.assertIrq card.irqLevel])

/-- `sync` -/
def sync (rounds : Nat) (h : SerialHost) : Option (SuperSerialCard × List SerialCall) := do
  let acia ← card.acia.aciaSetLines rounds (hostLines h) h.now.toNat
  { card with acia }.sendBytes rounds h.now.toNat

/-- The part of `settle` that tells the host: `follow_line`, `follow_irq`, `ScheduleEvent`. -/
def follow : SuperSerialCard × List SerialCall :=
  let r := card.followLine
  let q := r.1.followIrq
  (q.1, r.2 ++ q.2 ++ [.scheduleEvent q.1.acia.aciaNextEvent])

/-- `settle` -/
def settle (rounds : Nat) (h : SerialHost) : Option (SuperSerialCard × List SerialCall) := do
  let (card, sent) ← card.sendBytes rounds h.now.toNat
  let (card, taken) ← card.pullByte rounds h
  some (card.follow.1, sent ++ taken ++ card.follow.2)

/-- An address selects the 6551. -/
def selectsAcia (addr : UInt16) : Bool := addr &&& 0x0F &&& 0x0C = 0x08

/-- The register of the 6551 that an address selects. -/
def aciaReg (addr : UInt16) : UInt8 := (addr &&& 0x0F).toUInt8

/-- What `super_serial_io_read` reads, once the chip is up to date. -/
def readAt (rounds : Nat) (addr : UInt16) (h : SerialHost) : Option (SuperSerialCard × UInt8) :=
  if selectsAcia addr then
    (card.acia.aciaRead rounds (aciaReg addr) h.now.toNat).map fun r =>
      ({ card with acia := r.1 }, r.2)
  else if addr &&& 0x0F = 1 then some (card, card.switches1Byte)
  else if addr &&& 0x0F = 2 then some (card, card.switches2Byte)
  else some (card, h.floatingBus)

/-- What `super_serial_io_write` writes, once the chip is up to date. -/
def writeAt (rounds : Nat) (addr : UInt16) (value : UInt8) (h : SerialHost) :
    Option (SuperSerialCard × List SerialCall) :=
  if selectsAcia addr then
    (card.acia.aciaWrite rounds (aciaReg addr) value h.now.toNat).map fun r =>
      ({ card with acia := r.1 }, r.2.toList.map SerialCall.sinkWrite)
  else some (card, [])

/-- **`super_serial_io_read`** -/
def ioRead (rounds : Nat) (addr : UInt16) (h : SerialHost) :
    Option (UInt8 × SuperSerialCard × List SerialCall) := do
  let (card, sent) ← card.sync rounds h
  let (card, value) ← card.readAt rounds addr h
  let (card, calls) ← card.settle rounds h
  some (value, card, sent ++ calls)

/-- **`super_serial_io_write`** -/
def ioWrite (rounds : Nat) (addr : UInt16) (value : UInt8) (h : SerialHost) :
    Option (SuperSerialCard × List SerialCall) := do
  let (card, sent) ← card.sync rounds h
  let (card, written) ← card.writeAt rounds addr value h
  let (card, calls) ← card.settle rounds h
  some (card, sent ++ written ++ calls)

/-- **`super_serial_abi_think`** -/
def think (rounds : Nat) (h : SerialHost) : Option (SuperSerialCard × List SerialCall) := do
  let (card, sent) ← card.sync rounds h
  let (card, calls) ← card.settle rounds h
  some (card, sent ++ calls)

/-- **`super_serial_abi_init`**, with all of the host there: the clock is in millihertz. -/
def init (rounds clockMhz : Nat) (h : SerialHost) :
    Option (SuperSerialCard × List SerialCall) := do
  let acia := (({} : Acia6551).aciaSetClockMhz clockMhz).aciaReset h.now.toNat
  let acia ← acia.aciaSetLines rounds (hostLines h) h.now.toNat
  some ({ acia } : SuperSerialCard).sendLine

/-- **`super_serial_abi_reset`** -/
def reset (rounds : Nat) (h : SerialHost) : Option (SuperSerialCard × List SerialCall) := do
  let acia ← (card.acia.aciaReset h.now.toNat).aciaSetLines rounds (hostLines h) h.now.toNat
  let r := { card with acia }.sendLine
  let q := r.1.followIrq
  some (q.1, r.2 ++ q.2 ++ [.scheduleEvent 0])

/-- `super_serial_abi_command`, for `SUPER_SERIAL_CMD_SET_SWITCHES`: bit 7 is no switch. -/
def setSwitches (switches : SuperSerialSwitches) : SuperSerialCard × List SerialCall :=
  if switches.sw1 &&& 0x80 ≠ 0 ∨ switches.sw2 &&& 0x80 ≠ 0 then (card, [])
  else { card with switches }.followIrq

/-- `super_serial_abi_load_state`, for a frame of the version and the size: a latch that is
reserved refuses it. -/
def loadState (rounds : Nat) (saved : AciaSaved) (h : SerialHost) :
    Option (SuperSerialCard × List SerialCall) := do
  if saved.statusLatches &&& AciaLatch.reserved ≠ 0 then
    return (card, [])
  let acia ← (card.acia.load saved h.now.toNat).aciaSetLines rounds (hostLines h) h.now.toNat
  let r := { card with acia }.sendLine
  let q := r.1.followIrq
  some (q.1, r.2 ++ q.2 ++ [.scheduleEvent q.1.acia.aciaNextEvent])

end SuperSerialCard

/-! ## Runs -/

/-- **What happens to the card.** Each operation brings the host's answers with it: the cycle it
is at, and what there is to be received. They are arbitrary, so a host that goes back in time is
among them. -/
inductive SerialOp where
  /-- `super_serial_io_read` -/
  | read (addr : UInt16) (h : SerialHost)
  /-- `super_serial_io_write` -/
  | write (addr : UInt16) (value : UInt8) (h : SerialHost)
  /-- `super_serial_abi_think` -/
  | think (h : SerialHost)
  /-- `super_serial_abi_command` -/
  | setSwitches (switches : SuperSerialSwitches)
  /-- `super_serial_abi_reset` -/
  | reset (h : SerialHost)
  /-- `super_serial_abi_load_state` -/
  | loadState (saved : AciaSaved) (h : SerialHost)

/-- What an operation answers, and the calls it makes, with the card after it. -/
def SerialOp.perform (rounds : Nat) (card : SuperSerialCard) :
    SerialOp → Option (UInt8 × SuperSerialCard × List SerialCall)
  | read addr h => card.ioRead rounds addr h
  | write addr value h => (card.ioWrite rounds addr value h).map (Prod.mk 0)
  | think h => (card.think rounds h).map (Prod.mk 0)
  | setSwitches switches => some (0, card.setSwitches switches)
  | reset h => (card.reset rounds h).map (Prod.mk 0)
  | loadState saved h => (card.loadState rounds saved h).map (Prod.mk 0)

section Perform

variable {rounds : Nat} {card c : SuperSerialCard} {host : SerialHost} {answer : UInt8}
  {calls : List SerialCall}

/-- A read brings the chip up to date, and the host after it. -/
theorem SerialOp.perform_read {addr : UInt16}
    (hop : (SerialOp.read addr host).perform rounds card = some (answer, c, calls)) :
    ∃ c₁ sent c₂ told, card.sync rounds host = some (c₁, sent)
      ∧ c₁.readAt rounds addr host = some (c₂, answer)
      ∧ c₂.settle rounds host = some (c, told) ∧ calls = sent ++ told := by
  obtain ⟨⟨c₁, sent⟩, hsync, hop⟩ := Option.bind_eq_some_iff.1 hop
  obtain ⟨⟨c₂, value⟩, hread, hop⟩ := Option.bind_eq_some_iff.1 hop
  obtain ⟨⟨c₃, told⟩, hsettle, hop⟩ := Option.bind_eq_some_iff.1 hop
  obtain ⟨rfl, hrest⟩ := Prod.mk.inj (Option.some.inj hop)
  obtain ⟨rfl, rfl⟩ := Prod.mk.inj hrest
  exact ⟨c₁, sent, c₂, told, hsync, hread, hsettle, rfl⟩

/-- So does a write. -/
theorem SerialOp.perform_write {addr : UInt16} {value : UInt8}
    (hop : (SerialOp.write addr value host).perform rounds card = some (answer, c, calls)) :
    ∃ c₁ sent c₂ written told, card.sync rounds host = some (c₁, sent)
      ∧ c₁.writeAt rounds addr value host = some (c₂, written)
      ∧ c₂.settle rounds host = some (c, told) ∧ calls = sent ++ written ++ told := by
  obtain ⟨r, hop, hr⟩ := Option.map_eq_some_iff.1 hop
  obtain ⟨⟨c₁, sent⟩, hsync, hop⟩ := Option.bind_eq_some_iff.1 hop
  obtain ⟨⟨c₂, written⟩, hwrite, hop⟩ := Option.bind_eq_some_iff.1 hop
  obtain ⟨⟨c₃, told⟩, hsettle, hop⟩ := Option.bind_eq_some_iff.1 hop
  obtain rfl := Option.some.inj hop
  obtain ⟨rfl, rfl⟩ := Prod.mk.inj (Prod.mk.inj hr).2
  exact ⟨c₁, sent, c₂, written, told, hsync, hwrite, hsettle, rfl⟩

/-- And a wake. -/
theorem SerialOp.perform_think
    (hop : (SerialOp.think host).perform rounds card = some (answer, c, calls)) :
    ∃ c₁ sent told, card.sync rounds host = some (c₁, sent)
      ∧ c₁.settle rounds host = some (c, told) ∧ calls = sent ++ told := by
  obtain ⟨r, hop, hr⟩ := Option.map_eq_some_iff.1 hop
  obtain ⟨⟨c₁, sent⟩, hsync, hop⟩ := Option.bind_eq_some_iff.1 hop
  obtain ⟨⟨c₂, told⟩, hsettle, hop⟩ := Option.bind_eq_some_iff.1 hop
  obtain rfl := Option.some.inj hop
  obtain ⟨rfl, rfl⟩ := Prod.mk.inj (Prod.mk.inj hr).2
  exact ⟨c₁, sent, told, hsync, hsettle, rfl⟩

end Perform

/-- **An operation that was performed**: on which card, with what answer and what calls. -/
structure SerialStep where
  /-- The card before it. -/
  before : SuperSerialCard
  /-- The operation. -/
  op : SerialOp
  /-- What it has answered. -/
  answer : UInt8
  /-- What the host was told. -/
  calls : List SerialCall

/-- The card after a list of operations, and what was done. -/
def SuperSerialCard.run (rounds : Nat) :
    List SerialOp → SuperSerialCard → Option (SuperSerialCard × List SerialStep)
  | [], card => some (card, [])
  | op :: ops, card => do
    let (answer, after, calls) ← op.perform rounds card
    let (last, steps) ← after.run rounds ops
    some (last, ⟨card, op, answer, calls⟩ :: steps)

/-- A run is an operation and a run. -/
theorem SuperSerialCard.run_cons {rounds : Nat} {op : SerialOp} {ops : List SerialOp}
    {card last : SuperSerialCard} {steps : List SerialStep}
    (h : card.run rounds (op :: ops) = some (last, steps)) :
    ∃ answer after calls rest, op.perform rounds card = some (answer, after, calls)
      ∧ after.run rounds ops = some (last, rest) ∧ steps = ⟨card, op, answer, calls⟩ :: rest := by
  rw [SuperSerialCard.run] at h
  obtain ⟨⟨answer, after, calls⟩, hop, h⟩ := Option.bind_eq_some_iff.1 h
  obtain ⟨⟨last', rest⟩, hrest, h⟩ := Option.bind_eq_some_iff.1 h
  obtain ⟨rfl, rfl⟩ := Prod.mk.inj (Option.some.inj h)
  exact ⟨answer, after, calls, rest, hop, hrest, rfl⟩

/-! ## What the host knows -/

/-- **What the host was last told.** It is made of the calls alone. That it agrees with the card
is what is to be shown, so it takes nothing from there. -/
structure SerialView where
  /-- The line's format. -/
  line : Option Slots.PeripheralSerialLine
  /-- The level of the interrupt. -/
  irq : Bool
  /-- The cycle to wake the card at. -/
  wake : Nat

/-- A call is heard. -/
def SerialView.hear (view : SerialView) : SerialCall → SerialView
  | .sinkSetLine line => { view with line := some line }
  | .assertIrq level => { view with irq := level }
  | .scheduleEvent cycle => { view with wake := cycle }
  | .sinkWrite _ | .sinkRead _ => view

/-- A host that has heard nothing. -/
def SerialView.initial : SerialView := ⟨none, false, 0⟩

namespace SuperSerialCard

variable {card c : SuperSerialCard} {view : SerialView} {rounds : Nat} {host : SerialHost}
  {calls : List SerialCall}

/-- The line as `send_line` hands it over. -/
def peripheralLine (line : AciaLine) : Slots.PeripheralSerialLine :=
  ⟨line.baud, line.dataBits, line.parity, line.stopHalfBits, line.dtr, line.rts, line.brk⟩

/-- **The host knows what the card has noted.** -/
structure Told (card : SuperSerialCard) (view : SerialView) : Prop where
  /-- The line. -/
  line : view.line = some (peripheralLine card.lineSent)
  /-- The level. -/
  irq : view.irq = card.slotIrq

/-- **The host knows how the chip stands.** -/
structure Known (card : SuperSerialCard) (view : SerialView) : Prop extends card.Told view where
  /-- The line is the chip's. -/
  lineSent : card.lineSent = aciaLineView card.acia
  /-- The level is the chip's, where the switch lets it through. -/
  slotIrq : card.slotIrq = card.irqLevel
  /-- The card is woken at the chip's next event. -/
  wake : view.wake = card.acia.aciaNextEvent

/-- **Only bytes have passed**, and only the chip has changed. -/
structure OnlyBytes (card c : SuperSerialCard) (calls : List SerialCall) : Prop where
  /-- `switches` -/
  switches : c.switches = card.switches
  /-- `line_sent` -/
  lineSent : c.lineSent = card.lineSent
  /-- `slot_irq` -/
  slotIrq : c.slotIrq = card.slotIrq
  /-- The host is told nothing but bytes. -/
  bytes : ∀ view : SerialView, calls.foldl SerialView.hear view = view

theorem OnlyBytes.append {d : SuperSerialCard} {more : List SerialCall}
    (h : card.OnlyBytes c calls) (h' : c.OnlyBytes d more) : card.OnlyBytes d (calls ++ more) where
  switches := h'.switches.trans h.switches
  lineSent := h'.lineSent.trans h.lineSent
  slotIrq := h'.slotIrq.trans h.slotIrq
  bytes view := by
    rw [List.foldl_append, h.bytes, h'.bytes]

/-- The card with another chip. -/
theorem onlyBytes_acia (card : SuperSerialCard) (acia : Acia6551) :
    card.OnlyBytes { card with acia } [] := ⟨rfl, rfl, rfl, fun _ => rfl⟩

theorem hear_sinkWrites (bytes : List UInt8) (view : SerialView) :
    (bytes.map SerialCall.sinkWrite).foldl SerialView.hear view = view := by
  induction bytes with
  | nil => rfl
  | cons byte bytes ih => exact ih

theorem OnlyBytes.sendBytes {now : Nat} (h : card.sendBytes rounds now = some (c, calls)) :
    card.OnlyBytes c calls := by
  obtain ⟨r, -, hr⟩ := Option.map_eq_some_iff.1 h
  obtain ⟨rfl, rfl⟩ := Prod.mk.inj hr
  exact ⟨rfl, rfl, rfl, hear_sinkWrites _⟩

theorem OnlyBytes.sync (h : card.sync rounds host = some (c, calls)) : card.OnlyBytes c calls := by
  obtain ⟨acia, -, h⟩ := Option.bind_eq_some_iff.1 h
  have hsent := OnlyBytes.sendBytes h
  exact ⟨hsent.switches, hsent.lineSent, hsent.slotIrq, hsent.bytes⟩

theorem OnlyBytes.pullByte (h : card.pullByte rounds host = some (c, calls)) :
    card.OnlyBytes c calls := by
  unfold SuperSerialCard.pullByte at h
  split_ifs at h
  · cases hbyte : host.byte with
    | none =>
      rw [hbyte] at h
      obtain ⟨rfl, rfl⟩ := Prod.mk.inj (Option.some.inj h)
      exact onlyBytes_acia _ _
    | some byte =>
      rw [hbyte] at h
      obtain ⟨acia, -, hr⟩ := Option.map_eq_some_iff.1 h
      obtain ⟨rfl, rfl⟩ := Prod.mk.inj hr
      exact ⟨rfl, rfl, rfl, fun _ => rfl⟩
  · obtain ⟨rfl, rfl⟩ := Prod.mk.inj (Option.some.inj h)
    exact onlyBytes_acia _ _

theorem OnlyBytes.readAt {addr : UInt16} {value : UInt8}
    (h : card.readAt rounds addr host = some (c, value)) : card.OnlyBytes c [] := by
  unfold SuperSerialCard.readAt at h
  split_ifs at h
  · obtain ⟨r, -, hr⟩ := Option.map_eq_some_iff.1 h
    obtain ⟨rfl, -⟩ := Prod.mk.inj hr
    exact onlyBytes_acia _ _
  all_goals
    obtain ⟨rfl, -⟩ := Prod.mk.inj (Option.some.inj h)
    exact onlyBytes_acia _ _

theorem OnlyBytes.writeAt {addr : UInt16} {value : UInt8}
    (h : card.writeAt rounds addr value host = some (c, calls)) : card.OnlyBytes c calls := by
  unfold SuperSerialCard.writeAt at h
  split_ifs at h
  · obtain ⟨r, -, hr⟩ := Option.map_eq_some_iff.1 h
    obtain ⟨rfl, rfl⟩ := Prod.mk.inj hr
    exact ⟨rfl, rfl, rfl, hear_sinkWrites _⟩
  · obtain ⟨rfl, rfl⟩ := Prod.mk.inj (Option.some.inj h)
    exact onlyBytes_acia _ _

/-- `follow_irq` tells the level. -/
theorem Told.followIrq (h : card.Told view) :
    card.followIrq.1.Told (card.followIrq.2.foldl SerialView.hear view)
      ∧ card.followIrq.1.slotIrq = card.irqLevel
      ∧ card.followIrq.1.acia = card.acia ∧ card.followIrq.1.switches = card.switches
      ∧ card.followIrq.1.lineSent = card.lineSent
      ∧ (card.followIrq.2.foldl SerialView.hear view).wake = view.wake := by
  unfold SuperSerialCard.followIrq
  split_ifs with hsame
  · exact ⟨h, hsame.symm, rfl, rfl, rfl, rfl⟩
  · exact ⟨⟨h.line, rfl⟩, rfl, rfl, rfl, rfl, rfl⟩

/-- Where the line is known, that is all there is to tell. -/
theorem Told.known_followIrq (h : card.Told view) (hline : card.lineSent = aciaLineView card.acia)
    (hwake : view.wake = card.acia.aciaNextEvent) :
    card.followIrq.1.Known (card.followIrq.2.foldl SerialView.hear view) := by
  obtain ⟨htold, hlevel, hacia, hswitches, hsent, hsame⟩ := h.followIrq
  refine ⟨⟨htold.line, htold.irq⟩, ?_, ?_, ?_⟩
  · rw [hsent, hacia]
    exact hline
  · rw [hlevel]
    unfold irqLevel
    rw [hacia, hswitches]
  · rw [hsame, hacia]
    exact hwake

/-- `send_line` tells the line, whatever the host knew of it. -/
theorem told_sendLine (hirq : view.irq = c.slotIrq) :
    c.sendLine.1.Told (c.sendLine.2.foldl SerialView.hear view) := ⟨rfl, hirq⟩

/-- `follow_line` tells it where it has changed. -/
theorem Told.followLine (h : card.Told view) :
    card.followLine.1.Told (card.followLine.2.foldl SerialView.hear view)
      ∧ card.followLine.1.lineSent = aciaLineView card.acia
      ∧ card.followLine.1.acia = card.acia ∧ card.followLine.1.switches = card.switches := by
  unfold SuperSerialCard.followLine
  split_ifs with hsame
  · exact ⟨h, hsame.symm, rfl, rfl⟩
  · exact ⟨told_sendLine h.irq, rfl, rfl, rfl⟩

/-- **After it has settled the card has told everything.** -/
theorem Told.follow (h : card.Told view) :
    card.follow.1.Known (card.follow.2.foldl SerialView.hear view)
      ∧ card.follow.1.acia = card.acia := by
  obtain ⟨hline, hsent, hacia, -⟩ := h.followLine
  obtain ⟨hirq, hlevel, hacia', hswitches', hsent', -⟩ := hline.followIrq
  unfold SuperSerialCard.follow
  dsimp only
  rw [List.foldl_append, List.foldl_append]
  refine ⟨⟨⟨hirq.line, hirq.irq⟩, ?_, ?_, rfl⟩, hacia'.trans hacia⟩
  · rw [hsent', hsent, hacia', hacia]
  · rw [hlevel]
    unfold irqLevel
    rw [hacia', hswitches']

/-- The level is told after the line, and the chip is woken at its next event. -/
theorem known_sendLine_followIrq (hirq : view.irq = c.slotIrq) {cycle : Nat}
    (hcycle : cycle = c.acia.aciaNextEvent) :
    c.sendLine.1.followIrq.1.Known ((c.sendLine.2 ++ c.sendLine.1.followIrq.2
      ++ [SerialCall.scheduleEvent cycle]).foldl SerialView.hear view) := by
  obtain ⟨htold, hlevel, hacia, hswitches, hsent, -⟩ := (told_sendLine hirq).followIrq
  rw [List.foldl_append, List.foldl_append]
  refine ⟨⟨htold.line, htold.irq⟩, ?_, ?_, ?_⟩
  · rw [hsent, hacia]
    rfl
  · rw [hlevel]
    unfold irqLevel
    rw [hacia, hswitches]
  · rw [hacia]
    exact hcycle

/-- What only bytes have passed through, and then settles. -/
theorem OnlyBytes.settle {d : SuperSerialCard} {more : List SerialCall} (h : card.Told view)
    (hbytes : card.OnlyBytes c calls) (hsettle : c.settle rounds host = some (d, more)) :
    d.Known ((calls ++ more).foldl SerialView.hear view) := by
  obtain ⟨⟨c₁, sent⟩, hsent, hsettle⟩ := Option.bind_eq_some_iff.1 hsettle
  obtain ⟨⟨c₂, taken⟩, htaken, hsettle⟩ := Option.bind_eq_some_iff.1 hsettle
  obtain ⟨rfl, rfl⟩ := Prod.mk.inj (Option.some.inj hsettle)
  have hall := (hbytes.append (OnlyBytes.sendBytes hsent)).append (OnlyBytes.pullByte htaken)
  have htold : c₂.Told view := by
    refine ⟨?_, ?_⟩
    · rw [hall.lineSent]
      exact h.line
    · rw [hall.slotIrq]
      exact h.irq
  rw [← List.append_assoc, ← List.append_assoc, List.foldl_append, hall.bytes]
  exact htold.follow.1

/-- **A chip that was reset rests**: it has no event, and no interrupt. -/
theorem aciaSetLines_aciaReset {a b : Acia6551} {lines : UInt8} {now : Nat}
    (h : (a.aciaReset now).aciaSetLines rounds lines now = some b) :
    b = { a.aciaReset now with lines := lines &&& AciaLineBit.allAsserted } := by
  unfold Acia6551.aciaSetLines at h
  have hself : (a.aciaReset now).advance rounds now = some (a.aciaReset now) :=
    Acia6551.advance_self rfl
  rw [hself] at h
  obtain rfl := Option.some.inj h
  have hdtr (b : Acia6551) (hb : b.command = 0) : b.dtr = false := by
    unfold Acia6551.dtr
    rw [hb]
    decide
  have hfull (b : Acia6551) (hb : b.statusLatches = 0) (at' : Nat) : b.tryStartTransmit at' = b := by
    unfold Acia6551.tryStartTransmit Acia6551.latch
    rw [hb, UInt8.zero_and]
    rfl
  unfold Acia6551.setLines
  dsimp only
  rw [hdtr _ rfl, if_neg (fun hboth => absurd hboth.2 Bool.false_ne_true), hfull _ rfl]

theorem aciaNextEvent_aciaReset (a : Acia6551) (now : Nat) (lines : UInt8) :
    ({ a.aciaReset now with lines } : Acia6551).aciaNextEvent = 0 := by
  have hclock (b : Acia6551) (hb : b.control = 0) : b.hasClock = false := by
    unfold Acia6551.hasClock Acia6551.divisorOf
    rw [hb]
    simp
  have harmed : ({ a.aciaReset now with lines } : Acia6551).txBoundaryArmed = false := by
    unfold Acia6551.txBoundaryArmed
    rw [hclock _ rfl]
    rfl
  have hbusy : ({ a.aciaReset now with lines } : Acia6551).latch AciaLatch.rxBusy = false := by
    show decide ((0 : UInt8) &&& AciaLatch.rxBusy ≠ 0) = false
    decide
  unfold Acia6551.aciaNextEvent
  rw [harmed, hbusy]
  rfl

/-- **Every operation leaves the host knowing how the chip stands.** -/
theorem Known.perform {op : SerialOp} {answer : UInt8} (h : card.Known view)
    (hop : op.perform rounds card = some (answer, c, calls)) :
    c.Known (calls.foldl SerialView.hear view) := by
  -- bytes tell the host nothing of the lines, a reset and a load send both anew, and the switches
  -- follow the interrupt
  cases op with
  | read addr host =>
    obtain ⟨c₁, sent, c₂, told, hsync, hread, hsettle, rfl⟩ := SerialOp.perform_read hop
    have hbytes := (OnlyBytes.sync hsync).append (OnlyBytes.readAt hread)
    rw [List.append_nil] at hbytes
    exact hbytes.settle h.toTold hsettle
  | write addr value host =>
    obtain ⟨c₁, sent, c₂, written, told, hsync, hwrite, hsettle, rfl⟩ :=
      SerialOp.perform_write hop
    exact ((OnlyBytes.sync hsync).append (OnlyBytes.writeAt hwrite)).settle h.toTold hsettle
  | think host =>
    obtain ⟨c₁, sent, told, hsync, hsettle, rfl⟩ := SerialOp.perform_think hop
    exact (OnlyBytes.sync hsync).settle h.toTold hsettle
  | setSwitches switches =>
    obtain ⟨-, hrest⟩ := Prod.mk.inj (Option.some.inj hop)
    unfold setSwitches at hrest
    split_ifs at hrest
    · obtain ⟨rfl, rfl⟩ := Prod.mk.inj hrest
      exact h
    · have hsame : ({ card with switches } : SuperSerialCard).Told view := ⟨h.line, h.irq⟩
      have hknown := hsame.known_followIrq h.lineSent h.wake
      rw [hrest] at hknown
      exact hknown
  | reset host =>
    obtain ⟨r, hop, hr⟩ := Option.map_eq_some_iff.1 hop
    obtain ⟨acia, hlines, hop⟩ := Option.bind_eq_some_iff.1 hop
    obtain rfl := Option.some.inj hop
    obtain ⟨-, hrest⟩ := Prod.mk.inj hr
    obtain ⟨rfl, rfl⟩ := Prod.mk.inj hrest
    refine known_sendLine_followIrq (c := { card with acia }) h.irq ?_
    rw [aciaSetLines_aciaReset hlines]
    exact (aciaNextEvent_aciaReset _ _ _).symm
  | loadState saved host =>
    obtain ⟨r, hop, hr⟩ := Option.map_eq_some_iff.1 hop
    obtain ⟨-, hrest⟩ := Prod.mk.inj hr
    subst hrest
    unfold loadState at hop
    split_ifs at hop
    · obtain ⟨rfl, rfl⟩ := Prod.mk.inj (Option.some.inj hop)
      exact h
    · obtain ⟨acia, hlines, hop⟩ := Option.bind_eq_some_iff.1 hop
      obtain ⟨rfl, rfl⟩ := Prod.mk.inj (Option.some.inj hop)
      refine known_sendLine_followIrq (c := { card with acia }) h.irq ?_
      obtain ⟨-, -, hacia, -⟩ := (told_sendLine (c := { card with acia }) h.irq).followIrq
      exact congrArg Acia6551.aciaNextEvent hacia

/-- The card that was put in. -/
theorem known_init {clockMhz : Nat} (h : init rounds clockMhz host = some (card, calls)) :
    card.Known (calls.foldl SerialView.hear .initial) := by
  obtain ⟨acia, hlines, h⟩ := Option.bind_eq_some_iff.1 h
  have hacia := aciaSetLines_aciaReset hlines
  obtain ⟨rfl, rfl⟩ := Prod.mk.inj (Option.some.inj h)
  refine ⟨told_sendLine rfl, rfl, ?_, ?_⟩
  · show false = (acia.irq && _)
    rw [hacia]
    rfl
  · show 0 = acia.aciaNextEvent
    rw [hacia]
    exact (aciaNextEvent_aciaReset _ _ _).symm

/-- **The host always knows how the serial chip stands.** After any accesses, wakes, switch
settings, resets and save states, whatever the host says meanwhile, the level it was last told for
the slot is the chip's interrupt where the switch lets it through, the line it was last told is the
chip's, and the cycle it was last told to wake the card at is the chip's next event. -/
theorem host_knows_run {clockMhz : Nat} {ops : List SerialOp} {last : SuperSerialCard}
    {steps : List SerialStep} (hinit : init rounds clockMhz host = some (card, calls))
    (hrun : card.run rounds ops = some (last, steps)) :
    let view := (calls ++ steps.flatMap SerialStep.calls).foldl SerialView.hear .initial
    view.irq = last.irqLevel ∧ view.line = some (peripheralLine (aciaLineView last.acia))
      ∧ view.wake = last.acia.aciaNextEvent := by
  intro view
  have hknown : last.Known view := by
    have hstart := known_init hinit
    show last.Known ((calls ++ steps.flatMap SerialStep.calls).foldl SerialView.hear .initial)
    rw [List.foldl_append]
    generalize calls.foldl SerialView.hear .initial = known at hstart
    clear hinit view
    induction ops generalizing card steps known with
    | nil =>
      obtain ⟨rfl, rfl⟩ := Prod.mk.inj (Option.some.inj hrun)
      exact hstart
    | cons op ops ih =>
      obtain ⟨answer, after, told, rest, hop, hrest, rfl⟩ := run_cons hrun
      rw [List.flatMap_cons, List.foldl_append]
      exact ih hrest _ (hstart.perform hop)
  exact ⟨hknown.irq.trans hknown.slotIrq, hknown.lineSent ▸ hknown.line, hknown.wake⟩

/-- A host at a cycle, with a cable and a byte. -/
def cabled (now : UInt64) (byte : Option UInt8) : SerialHost := ⟨now, some 0x07, byte, 0⟩

/-- A card at 9600 baud in slot 2 that receives a byte with interrupts, and is reset. -/
def serialOps : List SerialOp :=
  [.write 0xC0AB 0x1E (cabled 100 none), .write 0xC0AA 0x09 (cabled 200 (some 0x41)),
    .think (cabled 1300 none), .read 0xC0A9 (cabled 1400 none), .read 0xC0A8 (cabled 1500 none),
    .write 0xC0A8 0x42 (cabled 1600 none), .setSwitches ⟨0x78, 0x0F⟩, .reset (cabled 3000 none)]

/-- The card's interrupt comes and goes, and the host knows. -/
theorem host_knows_run_serialOps : ∃ card calls last steps,
    init 9 1020484000 (cabled 0 none) = some (card, calls)
      ∧ card.run 9 serialOps = some (last, steps)
      ∧ (steps.flatMap SerialStep.calls).contains (.assertIrq true) = true
      ∧ (let view := (calls ++ steps.flatMap SerialStep.calls).foldl SerialView.hear .initial
        view.irq = last.irqLevel ∧ view.line = some (peripheralLine (aciaLineView last.acia))
          ∧ view.wake = last.acia.aciaNextEvent) := by
  have hruns : (init 9 1020484000 (cabled 0 none)).any (fun r => (r.1.run 9 serialOps).any
      fun q => (q.2.flatMap SerialStep.calls).contains (.assertIrq true)) = true := by
    decide +kernel
  obtain ⟨⟨card, calls⟩, hinit, hruns⟩ := (Option.any_eq_true _ _).1 hruns
  obtain ⟨⟨last, steps⟩, hrun, hirq⟩ := (Option.any_eq_true _ _).1 hruns
  exact ⟨card, calls, last, steps, hinit, hrun, hirq, host_knows_run hinit hrun⟩

end SuperSerialCard

end LinApple.Cards
