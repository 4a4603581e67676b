import LinApple.Cards.SuperSerial
import LinApple.Lib.Fifo

/-!
# The bytes of the Super Serial Card

In either direction the card is a queue of bytes. What it takes from the host the program reads,
in order and each byte once, because a byte is only taken where there is room for it
(`received_run`); what the program writes the host gets, in order and each byte once, unless the
program writes over a byte before the chip has taken it (`transmitted_run`).

A run is given operation by operation, with what each was told and what it told the host. For each
of them there is a list of events of a queue, and two things are said: that these events are what
the operation did (`Received`, `Transmitted`), and that all of them in a row are a history of one
queue that begins empty and ends with what the card still holds (`Fifo.Serves`). Neither would do
alone. A history could be served by events that have nothing to do with the run, and events that
fit each operation need not add up to a queue.

The queues are short. The card holds at most one byte that has come in, since it asks the host for
the next only when the receiver is free, and one that waits to go out. So what has to be proved is
less that the order is kept than that nothing is lost, by an overrun on the one side and by a byte
that is overwritten on the other. The first cannot happen and the second is the program's own
doing. A reset drops what is in the chip.

Bytes come with no errors, which is how the card hands them on. In the echo mode a byte that is
received goes out again, and only there may the host get a byte that the program did not write.
The loads of frames are left out: a frame brings bytes of its own. That the cycles go forward, and
that the clock is one a machine could have, is needed for the receiver only, whose times are
compared with the cycle.
-/

namespace LinApple.Cards

open LinApple.Chips

/-! ## What passes -/

/-- A byte that goes to the host. -/
def SerialCall.written : SerialCall → Option UInt8
  | sinkWrite byte => some byte
  | _ => none

/-- A byte that comes from the host. -/
def SerialCall.handedOver : SerialCall → Option UInt8
  | sinkRead byte => some byte
  | _ => none

namespace SerialOp

/-- What the host says during it. -/
def host : SerialOp → Option SerialHost
  | read _ h => some h
  | write _ _ h => some h
  | think h => some h
  | setSwitches _ => none
  | reset h => some h
  | loadState _ h => some h

/-- The card is reset. -/
def isReset : SerialOp → Bool
  | reset _ => true
  | _ => false

/-- A save state is loaded. -/
def isLoad : SerialOp → Bool
  | loadState _ _ => true
  | _ => false

/-- The register of the 6551 that is read. -/
def readRegister : SerialOp → Option UInt8
  | read addr _ =>
    if SuperSerialCard.selectsAcia addr then some (SuperSerialCard.aciaReg addr &&& AciaReg.mask)
    else none
  | _ => none

/-- The byte that the program has written to be sent. -/
def sends : SerialOp → Option UInt8
  | write addr value _ =>
    if SuperSerialCard.selectsAcia addr ∧ SuperSerialCard.aciaReg addr &&& AciaReg.mask = AciaReg.data
      then some value
    else none
  | _ => none

end SerialOp

namespace SerialStep

variable (step : SerialStep)

/-- The bytes that have gone to the host. -/
def written : List UInt8 := step.calls.filterMap SerialCall.written

/-- The bytes that have come from the host. -/
def handedOver : List UInt8 := step.calls.filterMap SerialCall.handedOver

/-- The status register would have told of a byte at the access. -/
def dataReady (rounds : Nat) : Bool :=
  step.op.host.any fun h => (step.before.sync rounds h).any fun r => r.1.acia.latch AciaLatch.rdrf

/-- **The byte the program has read out**: the data register's, where the status register told of
one. -/
def readOut (rounds : Nat) : List UInt8 :=
  if step.op.readRegister = some AciaReg.data ∧ step.dataReady rounds then [step.answer] else []

end SerialStep

namespace SuperSerialCard

variable {card c : SuperSerialCard} {rounds : Nat} {host : SerialHost} {calls : List SerialCall}

/-! ## The parts of an access -/

theorem filterMap_written (bytes : List UInt8) :
    (bytes.map SerialCall.sinkWrite).filterMap SerialCall.written = bytes := by
  induction bytes with
  | nil => rfl
  | cons byte bytes ih => exact congrArg (byte :: ·) ih

theorem filterMap_handedOver (bytes : List UInt8) :
    (bytes.map SerialCall.sinkWrite).filterMap SerialCall.handedOver = [] := by
  induction bytes with
  | nil => rfl
  | cons byte bytes ih => exact ih

/-- What the host is told of the line, the level and the next event is no byte. -/
structure NoBytes (calls : List SerialCall) : Prop where
  /-- None goes to the host. -/
  written : calls.filterMap SerialCall.written = []
  /-- None comes from it. -/
  handedOver : calls.filterMap SerialCall.handedOver = []

theorem NoBytes.append {more : List SerialCall} (h : NoBytes calls) (h' : NoBytes more) :
    NoBytes (calls ++ more) := by
  constructor
  · rw [List.filterMap_append, h.written, h'.written]
    rfl
  · rw [List.filterMap_append, h.handedOver, h'.handedOver]
    rfl

theorem noBytes_followIrq (card : SuperSerialCard) :
    NoBytes card.followIrq.2 ∧ card.followIrq.1.acia = card.acia := by
  unfold followIrq
  split_ifs <;> exact ⟨⟨rfl, rfl⟩, rfl⟩

theorem noBytes_follow (card : SuperSerialCard) :
    NoBytes card.follow.2 ∧ card.follow.1.acia = card.acia := by
  have hline : NoBytes card.followLine.2 ∧ card.followLine.1.acia = card.acia := by
    unfold followLine
    split_ifs <;> exact ⟨⟨rfl, rfl⟩, rfl⟩
  obtain ⟨hirq, hacia⟩ := noBytes_followIrq card.followLine.1
  exact ⟨(hline.1.append hirq).append ⟨rfl, rfl⟩, hacia.trans hline.2⟩

theorem noBytes_setSwitches {switches : SuperSerialSwitches}
    (h : card.setSwitches switches = (c, calls)) : NoBytes calls ∧ c.acia = card.acia := by
  unfold setSwitches at h
  split_ifs at h
  · obtain ⟨rfl, rfl⟩ := Prod.mk.inj h
    exact ⟨⟨rfl, rfl⟩, rfl⟩
  · have hirq := noBytes_followIrq { card with switches }
    rw [h] at hirq
    exact hirq

/-- **`super_serial_abi_reset`**: the chip is reset, and no byte passes. -/
theorem reset_eq {answer : UInt8}
    (h : (SerialOp.reset host).perform rounds card = some (answer, c, calls)) :
    NoBytes calls ∧ c.acia = { card.acia.aciaReset host.now.toNat with
      lines := hostLines host &&& AciaLineBit.allAsserted } := by
  obtain ⟨r, hreset, hr⟩ := Option.map_eq_some_iff.1 h
  obtain ⟨acia, hlines, hlast⟩ := Option.bind_eq_some_iff.1 hreset
  obtain rfl := Option.some.inj hlast
  obtain ⟨-, hboth⟩ := Prod.mk.inj hr
  obtain ⟨rfl, rfl⟩ := Prod.mk.inj hboth
  obtain ⟨hirq, hacia⟩ := noBytes_followIrq ({ card with acia } : SuperSerialCard).sendLine.1
  refine ⟨(NoBytes.append ⟨rfl, rfl⟩ hirq).append ⟨rfl, rfl⟩, ?_⟩
  rw [hacia]
  exact aciaSetLines_aciaReset hlines

/-- **`sync`**: the chip is brought up to the cycle, gets its lines, and hands on what waits. -/
theorem sync_eq (h : card.sync rounds host = some (c, calls)) :
    ∃ a b, card.acia.advance rounds host.now.toNat = some a ∧ a.synced = host.now.toNat
      ∧ b = a.setLines (hostLines host) host.now.toNat ∧ b.synced = host.now.toNat
      ∧ c.acia = b.handedOut ∧ calls = b.pending.map SerialCall.sinkWrite := by
  obtain ⟨b, hb, h⟩ := Option.bind_eq_some_iff.1 h
  obtain ⟨a, ha, hb⟩ := Option.map_eq_some_iff.1 hb
  obtain ⟨⟨d, bytes⟩, hd, hc⟩ := Option.map_eq_some_iff.1 h
  have hstands := Acia6551.synced_of_advance ha
  have hsynced : b.synced = host.now.toNat := by
    rw [← hb, Acia6551.synced_setLines]
    exact hstands
  obtain ⟨hacia, hbytes⟩ := Acia6551.sendBytes_eq hsynced hd
  obtain ⟨rfl, rfl⟩ := Prod.mk.inj hc
  exact ⟨a, b, ha, hstands, hb.symm, hsynced, hacia, by rw [hbytes]⟩

/-- **`settle`**: the chip hands on what waits, and may take a byte. -/
theorem settle_eq (hnow : card.acia.synced = host.now.toNat)
    (h : card.settle rounds host = some (c, calls)) :
    (c.acia = card.acia.handedOut ∧ calls.filterMap SerialCall.written = card.acia.pending
        ∧ calls.filterMap SerialCall.handedOver = [])
      ∨ ∃ byte, card.acia.handedOut.aciaRxReady = true
        ∧ c.acia = card.acia.handedOut.receive byte 0 host.now.toNat
        ∧ calls.filterMap SerialCall.written = card.acia.pending
        ∧ calls.filterMap SerialCall.handedOver = [byte] := by
  obtain ⟨⟨c₁, sent⟩, hsent, hrest⟩ := Option.bind_eq_some_iff.1 h
  obtain ⟨⟨c₂, taken⟩, htaken, hlast⟩ := Option.bind_eq_some_iff.1 hrest
  obtain ⟨⟨d, bytes⟩, hd, hc⟩ := Option.map_eq_some_iff.1 hsent
  obtain ⟨hacia, hbytes⟩ := Acia6551.sendBytes_eq hnow hd
  obtain ⟨rfl, rfl⟩ := Prod.mk.inj hc
  obtain ⟨hnone, hsame⟩ := noBytes_follow c₂
  obtain ⟨rfl, rfl⟩ := Prod.mk.inj (Option.some.inj hlast)
  dsimp only at hacia hbytes htaken
  subst hacia hbytes
  -- neither the byte pulled nor the lines told in between are written to the sink
  have hwritten (more : List SerialCall) (hmore : more.filterMap SerialCall.written = []) :
      (card.acia.pending.map SerialCall.sinkWrite ++ more ++ c₂.follow.2).filterMap
        SerialCall.written = card.acia.pending := by
    rw [List.filterMap_append, List.filterMap_append, filterMap_written, hmore, hnone.written,
      List.append_nil, List.append_nil]
  have hhanded (more : List SerialCall) :
      (card.acia.pending.map SerialCall.sinkWrite ++ more ++ c₂.follow.2).filterMap
        SerialCall.handedOver = more.filterMap SerialCall.handedOver := by
    rw [List.filterMap_append, List.filterMap_append, filterMap_handedOver, hnone.handedOver,
      List.append_nil, List.nil_append]
  rw [hsame, hhanded]
  unfold pullByte at htaken
  split_ifs at htaken with hready
  · cases hbyte : host.byte with
    | none =>
      rw [hbyte] at htaken
      obtain ⟨rfl, rfl⟩ := Prod.mk.inj (Option.some.inj htaken)
      exact .inl ⟨rfl, hwritten _ rfl, rfl⟩
    | some byte =>
      rw [hbyte] at htaken
      obtain ⟨a, ha, hc⟩ := Option.map_eq_some_iff.1 htaken
      obtain ⟨rfl, rfl⟩ := Prod.mk.inj hc
      exact .inr ⟨byte, hready,
        Acia6551.aciaRxStart_eq (a := card.acia.handedOut) hnow hready ha, hwritten _ rfl, rfl⟩
  · obtain ⟨rfl, rfl⟩ := Prod.mk.inj (Option.some.inj htaken)
    exact .inl ⟨rfl, hwritten _ rfl, rfl⟩

/-! ## What comes in -/

/-- **The card receives without errors**, and stands at a cycle. -/
structure Receives (card : SuperSerialCard) (t : Nat) : Prop where
  /-- The receiver has room for what comes in. -/
  clean : card.acia.receiver.Clean
  /-- A character's cycles fit. -/
  fits : card.acia.ClockFits
  /-- The chip stands at the cycle. -/
  synced : card.acia.synced = t

/-- **The bytes the card has taken and the program has not read.** -/
def held (card : SuperSerialCard) : List UInt8 := card.acia.receiver.held

variable {t : Nat} {more : List SerialCall} {d : SuperSerialCard}

theorem Receives.sync (h : card.Receives t) (hle : t ≤ host.now.toNat)
    (hsync : card.sync rounds host = some (c, calls)) : c.Receives host.now.toNat
      ∧ c.held = card.held ∧ calls.filterMap SerialCall.handedOver = [] := by
  obtain ⟨a, b, ha, -, hb, hsynced, hacia, rfl⟩ := sync_eq hsync
  have hadvance := Acia6551.sameBytes_advance h.clean (h.synced ▸ hle) ha
  have hlines := Acia6551.sameBytes_setLines hadvance.clean (hostLines host) host.now.toNat
  rw [← hb] at hlines
  have hsame : c.acia.receiver = b.receiver := hacia ▸ rfl
  refine ⟨⟨hsame ▸ hlines.clean, ?_, ?_⟩, ?_, filterMap_handedOver _⟩
  · have hclock : c.acia.clockMhz = card.acia.clockMhz :=
      (congrArg AciaReceiver.clockMhz hsame).trans (hlines.clockMhz.trans hadvance.clockMhz)
    unfold Acia6551.ClockFits
    rw [hclock]
    exact h.fits
  · rw [hacia]
    exact hsynced
  · exact (congrArg AciaReceiver.held hsame).trans (hlines.held.trans hadvance.held)

/-- **A byte is taken** behind those that are there. -/
theorem Receives.settle (h : card.Receives host.now.toNat) (hnow : host.now.toNat < 2 ^ 63)
    (hsettle : card.settle rounds host = some (c, calls)) : c.Receives host.now.toNat
      ∧ c.held = card.held ++ calls.filterMap SerialCall.handedOver := by
  have hout : card.acia.handedOut.receiver = card.acia.receiver := rfl
  rcases settle_eq h.synced hsettle with ⟨hacia, -, hnone⟩ | ⟨byte, hready, hacia, -, hbyte⟩
  · have hsame : c.acia.receiver = card.acia.receiver := hacia ▸ rfl
    refine ⟨⟨hsame ▸ h.clean, ?_, ?_⟩, ?_⟩
    · have hclock : c.acia.clockMhz = card.acia.clockMhz := congrArg AciaReceiver.clockMhz hsame
      unfold Acia6551.ClockFits
      rw [hclock]
      exact h.fits
    · rw [hacia]
      exact h.synced
    · rw [hnone, List.append_nil]
      exact congrArg AciaReceiver.held hsame
  · obtain ⟨hclean, hempty, hone, hclock⟩ := Acia6551.clean_receive (a := card.acia.handedOut)
      h.clean h.fits hready byte hnow
    refine ⟨⟨?_, ?_, ?_⟩, ?_⟩
    · rw [hacia]
      exact hclean
    · unfold Acia6551.ClockFits
      rw [hacia, hclock]
      exact h.fits
    · rw [hacia]
      exact h.synced
    · unfold held
      rw [hacia, hone, hbyte, ← hout, hempty]
      rfl

/-- **A register is read**: the byte that is there is taken out in front. -/
theorem Receives.readAt {addr : UInt16} {value : UInt8} (h : card.Receives host.now.toNat)
    (hread : card.readAt rounds addr host = some (c, value)) : c.Receives host.now.toNat
      ∧ card.held = (if selectsAcia addr ∧ aciaReg addr &&& AciaReg.mask = AciaReg.data
          ∧ card.acia.latch AciaLatch.rdrf then [value] else []) ++ c.held
      ∧ (selectsAcia addr = true → aciaReg addr &&& AciaReg.mask = AciaReg.status →
        value &&& AciaLatch.errorMask = 0) := by
  unfold SuperSerialCard.readAt at hread
  by_cases hselect : selectsAcia addr = true
  · rw [if_pos hselect] at hread
    obtain ⟨r, hr, hc⟩ := Option.map_eq_some_iff.1 hread
    obtain ⟨a, ha, rfl⟩ := Option.map_eq_some_iff.1 hr
    obtain rfl := Option.some.inj ((Acia6551.advance_self h.synced).symm.trans ha)
    obtain ⟨rfl, rfl⟩ := Prod.mk.inj hc
    have hsynced := (Acia6551.synced_readRegister (a := card.acia) (aciaReg addr)
      host.now.toNat).trans h.synced
    refine ⟨?_, ?_, fun _ hreg => Acia6551.readRegister_status h.clean hreg _⟩
    · by_cases hreg : aciaReg addr &&& AciaReg.mask = AciaReg.data
      · obtain ⟨hclean, hclock, -⟩ := Acia6551.readRegister_data h.clean hreg host.now.toNat
        exact ⟨hclean, by unfold Acia6551.ClockFits; rw [hclock]; exact h.fits, hsynced⟩
      · have hsame := Acia6551.sameBytes_readRegister h.clean hreg host.now.toNat
        exact ⟨hsame.clean, by unfold Acia6551.ClockFits; rw [hsame.clockMhz]; exact h.fits, hsynced⟩
    · by_cases hreg : aciaReg addr &&& AciaReg.mask = AciaReg.data
      · obtain ⟨-, -, hheld⟩ := Acia6551.readRegister_data h.clean hreg host.now.toNat
        simp only [hselect, hreg, true_and]
        exact hheld
      · have hsame := Acia6551.sameBytes_readRegister h.clean hreg host.now.toNat
        simp only [hreg, false_and, and_false, if_false, List.nil_append]
        exact hsame.held.symm
  · rw [if_neg hselect] at hread
    have hother : c = card := by
      split_ifs at hread <;> exact (Prod.mk.inj (Option.some.inj hread)).1.symm
    subst hother
    refine ⟨h, ?_, fun hno => absurd hno hselect⟩
    simp only [hselect, false_and, if_false, Bool.false_eq_true]
    rfl

/-- A register is written, which leaves what came in. -/
theorem Receives.writeAt {addr : UInt16} {value : UInt8} (h : card.Receives host.now.toNat)
    (hwrite : card.writeAt rounds addr value host = some (c, calls)) : c.Receives host.now.toNat
      ∧ c.held = card.held ∧ calls.filterMap SerialCall.handedOver = [] := by
  unfold SuperSerialCard.writeAt at hwrite
  split_ifs at hwrite
  · obtain ⟨⟨b, out⟩, hr, hc⟩ := Option.map_eq_some_iff.1 hwrite
    obtain ⟨a, ha, hb, -, hsynced⟩ := Acia6551.aciaWrite_eq h.synced hr
    obtain ⟨rfl, rfl⟩ := Prod.mk.inj hc
    have hsame : card.acia.SameBytes a := by
      rw [ha]
      split_ifs
      · exact Acia6551.sameBytes_programmedReset h.clean
      · exact Acia6551.sameBytes_writeRegister h.clean _ _ _
    subst hb
    refine ⟨⟨hsame.clean, ?_, hsynced⟩, hsame.held, filterMap_handedOver _⟩
    show a.clockMhz < 2 ^ 44
    rw [hsame.clockMhz]
    exact h.fits
  · obtain ⟨rfl, rfl⟩ := Prod.mk.inj (Option.some.inj hwrite)
    exact ⟨h, rfl, rfl⟩

/-- **What an operation tells of the bytes that come in.** The queue is given by its events, in
order: what is accepted, what is taken, what is dropped. An operation has all of them in a list of
its own, since time passes in it and several bytes may be complete before the program reads one. -/
structure Received (rounds : Nat) (step : SerialStep) (es : List (Fifo.Event UInt8)) : Prop where
  /-- What the host has handed over is taken, -/
  accepted : es.flatMap Fifo.Event.accepted = step.handedOver
  /-- and what the program reads comes out. -/
  taken : es.flatMap Fifo.Event.taken = step.readOut rounds
  /-- Only a reset drops bytes. -/
  gone : step.op.isReset = false → es.flatMap Fifo.Event.gone = step.readOut rounds
  /-- There is neither an overrun nor another error. -/
  status : step.op.readRegister = some AciaReg.status →
    step.answer &&& AciaLatch.errorMask = 0

/-- An access in which `out` is read and `taken` is taken. -/
theorem Received.access {step : SerialStep} {out taken : List UInt8}
    (hout : step.readOut rounds = out) (htaken : step.handedOver = taken)
    (hstatus : step.op.readRegister = some AciaReg.status → step.answer &&& AciaLatch.errorMask = 0) :
    Received rounds step [.take out, .accept taken] :=
  ⟨by simp [Fifo.Event.accepted, htaken], by simp [Fifo.Event.taken, hout],
    fun _ => by simp [Fifo.Event.gone, hout], hstatus⟩

/-- The queue at an access. -/
theorem serves_access {q m q' out taken : List UInt8} (hout : q = out ++ m) (htaken : q' = m ++ taken) :
    Fifo.Serves q [.take out, .accept taken] q' :=
  ⟨m, hout ▸ .take out m, q', htaken ▸ .accept m taken, rfl⟩

/-- Where nothing is read. -/
theorem readOut_of_ne {step : SerialStep} (h : step.op.readRegister ≠ some AciaReg.data) :
    step.readOut rounds = [] := if_neg fun hboth => h hboth.1

theorem readRegister_read (addr : UInt16) (host : SerialHost) :
    (SerialOp.read addr host).readRegister
      = if selectsAcia addr then some (aciaReg addr &&& AciaReg.mask) else none := rfl

/-- What is read out is what the register held once the chip was up to date. -/
theorem readOut_read {addr : UInt16} {answer : UInt8} (hsync : card.sync rounds host = some (c, calls)) :
    SerialStep.readOut ⟨card, .read addr host, answer, more⟩ rounds
      = if selectsAcia addr ∧ aciaReg addr &&& AciaReg.mask = AciaReg.data
          ∧ c.acia.latch AciaLatch.rdrf then [answer] else [] := by
  have hready : SerialStep.dataReady ⟨card, .read addr host, answer, more⟩ rounds
      = c.acia.latch AciaLatch.rdrf := by
    show (card.sync rounds host).any _ = _
    rw [hsync]
    rfl
  have hreg : (SerialOp.read addr host).readRegister = some AciaReg.data
      ↔ selectsAcia addr = true ∧ aciaReg addr &&& AciaReg.mask = AciaReg.data := by
    rw [readRegister_read]
    split_ifs with hselect <;> simp [hselect]
  refine if_congr ?_ rfl rfl
  rw [hready]
  exact (and_congr hreg Iff.rfl).trans and_assoc

/-- **An operation of a card that receives.** -/
theorem Receives.perform {op : SerialOp} {answer : UInt8} (h : card.Receives t)
    (hload : op.isLoad = false)
    (htime : ∀ host ∈ op.host, t ≤ host.now.toNat ∧ host.now.toNat < 2 ^ 63)
    (hop : op.perform rounds card = some (answer, c, calls)) :
    (∃ es, Received rounds ⟨card, op, answer, calls⟩ es ∧ Fifo.Serves card.held es c.held)
      ∧ c.Receives (op.host.elim t fun host => host.now.toNat) := by
  cases op with
  | read addr host =>
    obtain ⟨hle, hlt⟩ := htime host rfl
    obtain ⟨c₁, sent, c₂, told, hsync, hread, hsettle, rfl⟩ := SerialOp.perform_read hop
    obtain ⟨hfirst, hsame, hnone⟩ := h.sync hle hsync
    obtain ⟨hsecond, hout, hstatus⟩ := hfirst.readAt hread
    obtain ⟨hthird, htaken⟩ := hsecond.settle hlt hsettle
    refine ⟨⟨_, .access rfl rfl fun hreg => ?_, serves_access (m := c₂.held) ?_ ?_⟩, hthird⟩
    · have hreg := (readRegister_read addr host).symm.trans hreg
      split_ifs at hreg with hselect
      exact hstatus hselect (Option.some.inj hreg)
    · rw [readOut_read hsync, ← hout]
      exact hsame.symm
    · show c.held = c₂.held ++ (sent ++ told).filterMap SerialCall.handedOver
      rw [List.filterMap_append, hnone]
      exact htaken
  | write addr value host =>
    obtain ⟨hle, hlt⟩ := htime host rfl
    obtain ⟨c₁, sent, c₂, written, told, hsync, hwrite, hsettle, rfl⟩ :=
      SerialOp.perform_write hop
    obtain ⟨hfirst, hsame, hnone⟩ := h.sync hle hsync
    obtain ⟨hsecond, hsame', hnone'⟩ := hfirst.writeAt hwrite
    obtain ⟨hthird, htaken⟩ := hsecond.settle hlt hsettle
    have hnever : (SerialOp.write addr value host).readRegister = none := rfl
    refine ⟨⟨_, .access (readOut_of_ne (by rw [hnever]; exact Option.some_ne_none _ ∘ Eq.symm)) rfl
      fun hreg => absurd hreg (by rw [hnever]; exact Option.some_ne_none _ ∘ Eq.symm),
      serves_access (m := c₂.held) (hsame'.trans hsame).symm ?_⟩, hthird⟩
    show c.held = c₂.held ++ (sent ++ written ++ told).filterMap SerialCall.handedOver
    rw [List.filterMap_append, List.filterMap_append, hnone, hnone']
    exact htaken
  | think host =>
    obtain ⟨hle, hlt⟩ := htime host rfl
    obtain ⟨c₁, sent, told, hsync, hsettle, rfl⟩ := SerialOp.perform_think hop
    obtain ⟨hfirst, hsame, hnone⟩ := h.sync hle hsync
    obtain ⟨hthird, htaken⟩ := hfirst.settle hlt hsettle
    have hnever : (SerialOp.think host).readRegister = none := rfl
    refine ⟨⟨_, .access (readOut_of_ne (by rw [hnever]; exact Option.some_ne_none _ ∘ Eq.symm)) rfl
      fun hreg => absurd hreg (by rw [hnever]; exact Option.some_ne_none _ ∘ Eq.symm),
      serves_access (m := c₁.held) hsame.symm ?_⟩, hthird⟩
    show c.held = c₁.held ++ (sent ++ told).filterMap SerialCall.handedOver
    rw [List.filterMap_append, hnone]
    exact htaken
  | setSwitches switches =>
    obtain ⟨rfl, hset⟩ := Prod.mk.inj (Option.some.inj hop)
    obtain ⟨hnone, hacia⟩ := noBytes_setSwitches hset
    refine ⟨⟨[], ⟨?_, rfl, fun _ => rfl, fun hreg => absurd hreg (Option.some_ne_none _ ∘ Eq.symm)⟩, ?_⟩,
      ?_⟩
    · exact hnone.handedOver.symm
    · exact (congrArg (fun a => a.receiver.held) hacia).symm
    · exact ⟨by rw [hacia]; exact h.clean, by rw [hacia]; exact h.fits, by rw [hacia]; exact h.synced⟩
  | reset host =>
    obtain ⟨hnone, hreset⟩ := reset_eq hop
    obtain ⟨hclean, hempty⟩ := Acia6551.clean_aciaReset (a := card.acia) h.clean.shiftErrors
      host.now.toNat
    refine ⟨⟨[.clear card.held], ⟨hnone.handedOver.symm, rfl, fun hno => absurd hno Bool.noConfusion,
      fun hreg => absurd hreg (Option.some_ne_none _ ∘ Eq.symm)⟩, ?_⟩, ?_⟩
    · refine ⟨[], .clear _, ?_⟩
      show [] = c.acia.receiver.held
      rw [hreset]
      exact hempty.symm
    · exact ⟨by rw [hreset]; exact hclean, by rw [hreset]; exact h.fits, by rw [hreset]; rfl⟩
  | loadState saved host => exact absurd hload Bool.noConfusion

/-- **The cycles of a run do not go back**, and are far from the end of the count. -/
def InOrder (t : Nat) (ops : List SerialOp) : Prop :=
  (t :: (ops.filterMap SerialOp.host).map fun host => host.now.toNat).Pairwise (· ≤ ·)
    ∧ ∀ host ∈ ops.filterMap SerialOp.host, host.now.toNat < 2 ^ 63

instance (t : Nat) (ops : List SerialOp) : Decidable (InOrder t ops) := by
  unfold InOrder
  infer_instance

/-- The first operation, and the others. -/
theorem InOrder.cons {op : SerialOp} {ops : List SerialOp} (h : InOrder t (op :: ops)) :
    (∀ host ∈ op.host, t ≤ host.now.toNat ∧ host.now.toNat < 2 ^ 63)
      ∧ InOrder (op.host.elim t fun host => host.now.toNat) ops := by
  obtain ⟨hsorted, hbound⟩ := h
  cases hhost : op.host with
  | none =>
    rw [List.filterMap_cons_none hhost] at hsorted hbound
    exact ⟨fun host hh => absurd hh (by simp), hsorted, hbound⟩
  | some host =>
    rw [List.filterMap_cons_some hhost] at hsorted hbound
    rw [List.map_cons] at hsorted
    obtain ⟨hfirst, hrest⟩ := List.pairwise_cons.mp hsorted
    refine ⟨fun host' hh => ?_, hrest, fun host' hh => hbound host' (List.mem_cons_of_mem _ hh)⟩
    obtain rfl := Option.some.inj hh
    exact ⟨hfirst _ (List.mem_cons_self ..), hbound _ (List.mem_cons_self ..)⟩

/-- **What the host hands over the program reads**, in order and each byte once, until a reset.
The card never takes a byte it has no room for: it holds one at most, and the status register tells
of no overrun and of no other error. (The clock is below 17 GHz, the cycles below `2 ^ 63`, and no
save state is loaded.) -/
theorem received_run {clockMhz : Nat} {ops : List SerialOp} {last : SuperSerialCard}
    {steps : List SerialStep} (hclock : clockMhz < 2 ^ 44)
    (hinit : init rounds clockMhz host = some (card, calls))
    (hrun : card.run rounds ops = some (last, steps))
    (horder : InOrder host.now.toNat ops) (hload : ∀ op ∈ ops, op.isLoad = false) :
    (∃ ess, List.Forall₂ (Received rounds) steps ess ∧ Fifo.Serves [] ess.flatten last.held)
      ∧ last.held.length ≤ 1 := by
  have hstart : card.Receives host.now.toNat ∧ card.held = [] := by
    obtain ⟨acia, hlines, h⟩ := Option.bind_eq_some_iff.1 hinit
    have hacia := aciaSetLines_aciaReset hlines
    obtain ⟨hclean, hempty⟩ := Acia6551.clean_aciaReset
      (a := ({} : Acia6551).aciaSetClockMhz clockMhz) rfl host.now.toNat
    obtain ⟨rfl, rfl⟩ := Prod.mk.inj (Option.some.inj h)
    refine ⟨⟨?_, ?_, ?_⟩, ?_⟩
    · show acia.receiver.Clean
      rw [hacia]
      exact hclean
    · show acia.clockMhz < 2 ^ 44
      rw [hacia]
      exact hclock
    · show acia.synced = _
      rw [hacia]
      rfl
    · show acia.receiver.held = []
      rw [hacia]
      exact hempty
  obtain ⟨hreceives, hempty⟩ := hstart
  -- on the operations, the time of the last one generalised with them
  have hall : (∃ ess, List.Forall₂ (Received rounds) steps ess
      ∧ Fifo.Serves card.held ess.flatten last.held) ∧ ∃ t, last.Receives t := by
    clear hinit hempty hclock
    generalize host.now.toNat = t at hreceives horder
    induction ops generalizing card steps t with
    | nil =>
      obtain ⟨rfl, rfl⟩ := Prod.mk.inj (Option.some.inj hrun)
      exact ⟨⟨[], .nil, rfl⟩, t, hreceives⟩
    | cons op ops ih =>
      obtain ⟨answer, after, told, rest, hop, hrest, rfl⟩ := run_cons hrun
      obtain ⟨htime, horder⟩ := horder.cons
      obtain ⟨⟨es, hes, hserves⟩, hafter⟩ :=
        hreceives.perform (hload op (List.mem_cons_self ..)) htime hop
      obtain ⟨⟨ess, hess, hserves'⟩, hlast⟩ :=
        ih hrest (fun op hmem => hload op (List.mem_cons_of_mem _ hmem)) _ hafter horder
      refine ⟨⟨es :: ess, .cons hes hess, ?_⟩, hlast⟩
      rw [List.flatten_cons]
      exact hserves.append hserves'
  rw [hempty] at hall
  obtain ⟨hserves, t, hlast⟩ := hall
  refine ⟨hserves, ?_⟩
  have hroom := hlast.clean.room
  unfold held AciaReceiver.held
  -- a full data register leaves no byte on its way, so one byte at most is held
  cases hfull : last.acia.receiver.full with
  | false => cases last.acia.receiver.coming <;> simp
  | true =>
    rw [hroom hfull]
    exact le_rfl

/-- The byte that comes in, in `serialOps`, is the byte that is read. -/
theorem received_run_serialOps : ∃ card calls last steps,
    init 9 1020484000 (cabled 0 none) = some (card, calls)
      ∧ card.run 9 serialOps = some (last, steps)
      ∧ steps.flatMap SerialStep.handedOver = [0x41]
      ∧ steps.flatMap (fun step => step.readOut 9) = [0x41]
      ∧ (∃ ess, List.Forall₂ (Received 9) steps ess ∧ Fifo.Serves [] ess.flatten last.held)
      ∧ last.held.length ≤ 1 := by
  have hruns : (init 9 1020484000 (cabled 0 none)).any (fun r => (r.1.run 9 serialOps).any
      fun q => q.2.flatMap SerialStep.handedOver = [0x41]
        ∧ q.2.flatMap (fun step => step.readOut 9) = [0x41]) = true := by
    decide +kernel
  have horder : InOrder (cabled 0 none).now.toNat serialOps := by decide
  obtain ⟨⟨card, calls⟩, hinit, hruns⟩ := (Option.any_eq_true _ _).1 hruns
  obtain ⟨⟨last, steps⟩, hrun, hbytes⟩ := (Option.any_eq_true _ _).1 hruns
  obtain ⟨hin, hout⟩ := of_decide_eq_true hbytes
  exact ⟨card, calls, last, steps, hinit, hrun, hin, hout,
    received_run (by decide) hinit hrun horder (by decide)⟩

/-! ## What goes out -/

/-- **The card has handed on what the chip has sent.** -/
structure Transmits (card : SuperSerialCard) : Prop where
  /-- The errors are none of the latches. -/
  masked : card.acia.ErrorsMasked
  /-- Nothing waits to be handed on. -/
  quiet : card.acia.hasPendingOut = false

/-- **The bytes the program has written and the host has not got.** -/
def waiting (card : SuperSerialCard) : List UInt8 := card.acia.loaded

/-- **The chip hands on what it has sent on the way**, or a byte that it has echoed. -/
theorem Transmits.sync (h : card.Transmits) (hsync : card.sync rounds host = some (c, calls)) :
    c.Transmits ∧ c.acia.synced = host.now.toNat
      ∧ ∃ echoed taken, calls.filterMap SerialCall.written = echoed ++ taken
        ∧ (card.acia.echoing = false → echoed = []) ∧ echoed.length ≤ 1
        ∧ card.waiting = taken ++ c.waiting := by
  obtain ⟨a, b, ha, -, hb, hsynced, hacia, rfl⟩ := sync_eq hsync
  have hadvance := Acia6551.sameUnsent_advance h.masked
    (fun hp => absurd (h.quiet.symm.trans hp) Bool.false_ne_true) ha
  have hlines := Acia6551.sameUnsent_setLines hadvance.masked hadvance.waiting (hostLines host)
    host.now.toNat
  rw [← hb] at hlines
  have hall := hadvance.trans hlines
  have hecho : b.echoing = card.acia.echoing := by
    unfold Acia6551.echoing Acia6551.tic
    rw [hall.command]
  have hsplit := Acia6551.unsent_handedOut b
  rw [hall.unsent, Acia6551.unsent_of_not h.quiet, Acia6551.unsent_of_not (a := b.handedOut) rfl,
    hecho] at hsplit
  have hlength : b.pending.length ≤ 1 := by
    unfold Acia6551.pending
    split_ifs <;> simp
  have hwaiting : c.waiting = b.handedOut.loaded := congrArg Acia6551.loaded hacia
  refine ⟨⟨hacia ▸ hall.masked, hacia ▸ rfl⟩, hacia ▸ hsynced, ?_⟩
  rw [filterMap_written, hwaiting]
  cases hechoing : card.acia.echoing with
  | false =>
    rw [hechoing] at hsplit
    exact ⟨[], b.pending, rfl, fun _ => rfl, Nat.zero_le _, hsplit⟩
  | true =>
    rw [hechoing] at hsplit
    exact ⟨b.pending, [], (List.append_nil _).symm, fun hno => absurd hno Bool.noConfusion, hlength,
      hsplit⟩

/-- What comes in leaves what goes out. -/
theorem Transmits.settle (h : card.Transmits) (hnow : card.acia.synced = host.now.toNat)
    (hsettle : card.settle rounds host = some (c, calls)) :
    c.Transmits ∧ calls.filterMap SerialCall.written = [] ∧ c.waiting = card.waiting := by
  have hnone := Acia6551.pending_of_not h.quiet
  rcases settle_eq hnow hsettle with ⟨hacia, hwritten, -⟩ | ⟨byte, -, hacia, hwritten, -⟩
  · refine ⟨⟨hacia ▸ h.masked, hacia ▸ rfl⟩, hwritten.trans hnone, ?_⟩
    exact (congrArg Acia6551.loaded hacia).trans rfl
  · obtain ⟨hmasked, hout, hloaded⟩ := Acia6551.unsent_receive (a := card.acia.handedOut) byte
      host.now.toNat
    refine ⟨⟨hacia ▸ hmasked, hacia ▸ hout⟩, hwritten.trans hnone, ?_⟩
    exact (congrArg Acia6551.loaded hacia).trans hloaded

/-- So does reading a register. -/
theorem Transmits.readAt {addr : UInt16} {value : UInt8} (h : card.Transmits)
    (hnow : card.acia.synced = host.now.toNat)
    (hread : card.readAt rounds addr host = some (c, value)) :
    c.Transmits ∧ c.acia.synced = host.now.toNat ∧ c.waiting = card.waiting := by
  unfold SuperSerialCard.readAt at hread
  by_cases hselect : selectsAcia addr = true
  · rw [if_pos hselect] at hread
    obtain ⟨r, hr, hc⟩ := Option.map_eq_some_iff.1 hread
    obtain ⟨a, ha, rfl⟩ := Option.map_eq_some_iff.1 hr
    obtain rfl := Option.some.inj ((Acia6551.advance_self hnow).symm.trans ha)
    obtain ⟨rfl, rfl⟩ := Prod.mk.inj hc
    obtain ⟨hmasked, hout, hloaded⟩ := Acia6551.unsent_readRegister h.masked (aciaReg addr)
      host.now.toNat
    exact ⟨⟨hmasked, hout.trans h.quiet⟩, (Acia6551.synced_readRegister _ _).trans hnow, hloaded⟩
  · rw [if_neg hselect] at hread
    have hother : c = card := by
      split_ifs at hread <;> exact (Prod.mk.inj (Option.some.inj hread)).1.symm
    subst hother
    exact ⟨h, hnow, rfl⟩

/-- **What happens to the queue when a register is written**: a byte that is written takes the
place of one that waits, and may go out at once. -/
theorem Transmits.writeAt {addr : UInt16} {value : UInt8} (h : card.Transmits)
    (hnow : card.acia.synced = host.now.toNat)
    (hwrite : card.writeAt rounds addr value host = some (c, calls)) :
    c.Transmits ∧ c.acia.synced = host.now.toNat
      ∧ ∃ es, es.flatMap Fifo.Event.accepted = ((SerialOp.write addr value host).sends).toList
        ∧ es.flatMap Fifo.Event.taken = calls.filterMap SerialCall.written
        ∧ es.flatMap Fifo.Event.gone
          = (if (SerialOp.write addr value host).sends = none then [] else card.waiting)
            ++ es.flatMap Fifo.Event.taken
        ∧ Fifo.Serves card.waiting es c.waiting := by
  have hsends : (SerialOp.write addr value host).sends
      = if selectsAcia addr ∧ aciaReg addr &&& AciaReg.mask = AciaReg.data then some value
        else none := rfl
  unfold SuperSerialCard.writeAt at hwrite
  rw [hsends]
  split_ifs at hwrite with hselect
  · obtain ⟨⟨b, out⟩, hr, hc⟩ := Option.map_eq_some_iff.1 hwrite
    obtain ⟨a, ha, hb, hout, hsynced⟩ := Acia6551.aciaWrite_eq hnow hr
    obtain ⟨rfl, rfl⟩ := Prod.mk.inj hc
    subst hb
    have hwritten : (out.toList.map SerialCall.sinkWrite).filterMap SerialCall.written = a.pending :=
      (filterMap_written _).trans hout
    rw [hwritten]
    -- only the data register queues a byte, and it does so over the one still waiting there
    by_cases hdata : aciaReg addr &&& AciaReg.mask = AciaReg.data
    · have hother : ¬(aciaReg addr &&& AciaReg.mask = AciaReg.status) := by
        rw [hdata]
        decide
      obtain ⟨hmasked, hsplit⟩ := Acia6551.unsent_writeRegister h.masked h.quiet (aciaReg addr) value
        host.now.toNat
      rw [if_neg hother] at ha
      rw [if_pos hdata, ← ha] at hsplit
      rw [if_pos ⟨hselect, hdata⟩]
      refine ⟨⟨ha ▸ hmasked, rfl⟩, hsynced, [.drop card.waiting, .accept [value], .take a.pending], ?_,
        ?_, ?_, ?_⟩
      · simp [Fifo.Event.accepted]
      · simp [Fifo.Event.taken]
      · simp [Fifo.Event.taken, Fifo.Event.gone]
      · refine ⟨[], ?_, [value], .accept [] [value], a.handedOut.loaded, ?_, rfl⟩
        · have hdrop := Fifo.Step.drop card.waiting []
          rwa [List.append_nil] at hdrop
        · rw [hsplit]
          exact .take _ _
    · rw [if_neg fun hboth => hdata hboth.2]
      -- a programmed reset or another register takes no byte, but the chip may now start on one
      have hsplit : a.ErrorsMasked ∧ card.acia.loaded = a.pending ++ a.handedOut.loaded := by
        rw [ha]
        split_ifs
        · obtain ⟨hmasked, hnone, hloaded⟩ := Acia6551.unsent_programmedReset h.masked h.quiet
          refine ⟨hmasked, ?_⟩
          rw [Acia6551.pending_of_not hnone]
          exact hloaded.symm
        · obtain ⟨hmasked, hsplit⟩ := Acia6551.unsent_writeRegister h.masked h.quiet (aciaReg addr)
            value host.now.toNat
          rw [if_neg hdata] at hsplit
          exact ⟨hmasked, hsplit⟩
      refine ⟨⟨hsplit.1, rfl⟩, hsynced, [.take a.pending], ?_, ?_, ?_, ?_⟩
      · simp [Fifo.Event.accepted]
      · simp [Fifo.Event.taken]
      · simp [Fifo.Event.taken, Fifo.Event.gone]
      · refine ⟨a.handedOut.loaded, ?_, rfl⟩
        show Fifo.Step card.acia.loaded _ _
        rw [hsplit.2]
        exact .take _ _
  · obtain ⟨rfl, rfl⟩ := Prod.mk.inj (Option.some.inj hwrite)
    rw [if_neg fun hboth => hselect hboth.1]
    exact ⟨h, hnow, [], rfl, rfl, rfl, rfl⟩

/-- **What an operation tells of the bytes that go out.** The register holds one byte, and the one
before it may be on its way, so a write drops what waits and has not gone out in the time that
passes first. That is the chip's way and not an error, and the last field says how much it can be.
-/
structure Transmitted (step : SerialStep) (es : List (Fifo.Event UInt8)) : Prop where
  /-- What the program has written goes in. -/
  accepted : es.flatMap Fifo.Event.accepted = step.op.sends.toList
  /-- What the host has got came out, behind a byte that was echoed where the settings are those of
  the echo mode. -/
  taken : ∃ echoed, step.written = echoed ++ es.flatMap Fifo.Event.taken ∧ echoed.length ≤ 1
    ∧ (step.before.acia.echoing = false → echoed = [])
  /-- Only a byte that is written, and a reset, drop one. -/
  gone : step.op.sends = none → step.op.isReset = false →
    es.flatMap Fifo.Event.gone = es.flatMap Fifo.Event.taken
  /-- A byte that is written drops what has waited so far and has not gone out before it. -/
  overwritten : step.op.sends ≠ none → ∃ first second,
    es.flatMap Fifo.Event.taken = first ++ second ∧ first <+: step.before.waiting
      ∧ es.flatMap Fifo.Event.gone = step.before.waiting ++ second

/-- **An operation of a card that transmits.** -/
theorem Transmits.perform {op : SerialOp} {answer : UInt8} (h : card.Transmits)
    (hload : op.isLoad = false) (hop : op.perform rounds card = some (answer, c, calls)) :
    (∃ es, Transmitted ⟨card, op, answer, calls⟩ es ∧ Fifo.Serves card.waiting es c.waiting)
      ∧ c.Transmits := by
  -- a read, a write and a think bring the chip up to date, do their own part and settle the
  -- lines, and the queue's events are those of the three in turn
  cases op with
  | read addr host =>
    obtain ⟨c₁, sent, c₂, told, hsync, hread, hsettle, rfl⟩ := SerialOp.perform_read hop
    obtain ⟨hfirst, hnow, echoed, taken, hsent, hecho, hlength, hwaiting⟩ := h.sync hsync
    obtain ⟨hsecond, hnow', hsame⟩ := hfirst.readAt hnow hread
    obtain ⟨hthird, hnone, hsame'⟩ := hsecond.settle hnow' hsettle
    refine ⟨⟨[.take taken], ⟨rfl, ⟨echoed, ?_, hlength, hecho⟩, fun _ _ => rfl,
      fun hsome => absurd rfl hsome⟩, c.waiting, ?_, rfl⟩, hthird⟩
    · show (sent ++ told).filterMap SerialCall.written = _
      rw [List.filterMap_append, hnone, hsent]
      simp [Fifo.Event.taken]
    · rw [hwaiting, hsame', hsame]
      exact .take _ _
  | write addr value host =>
    obtain ⟨c₁, sent, c₂, written, told, hsync, hwrite, hsettle, rfl⟩ :=
      SerialOp.perform_write hop
    obtain ⟨hfirst, hnow, echoed, taken, hsent, hecho, hlength, hwaiting⟩ := h.sync hsync
    obtain ⟨hsecond, hnow', es, haccepted, htaken, hgone, hserves⟩ := hfirst.writeAt hnow hwrite
    obtain ⟨hthird, hnone, hsame⟩ := hsecond.settle hnow' hsettle
    refine ⟨⟨.take taken :: es, ⟨haccepted, ⟨echoed, ?_, hlength, hecho⟩, fun hno _ => ?_,
      fun hsome => ⟨taken, es.flatMap Fifo.Event.taken, rfl, ⟨c₁.waiting, hwaiting.symm⟩, ?_⟩⟩,
      c₁.waiting, ?_, ?_⟩, hthird⟩
    · show (sent ++ written ++ told).filterMap SerialCall.written = _
      rw [List.filterMap_append, List.filterMap_append, hnone, hsent, List.flatMap_cons, htaken,
        List.append_nil, List.append_assoc]
      rfl
    · rw [List.flatMap_cons, List.flatMap_cons, hgone, if_pos hno]
      rfl
    · show _ = card.waiting ++ _
      rw [List.flatMap_cons, hgone, if_neg hsome, hwaiting, List.append_assoc]
      rfl
    · rw [hwaiting]
      exact .take _ _
    · rw [hsame]
      exact hserves
  | think host =>
    obtain ⟨c₁, sent, told, hsync, hsettle, rfl⟩ := SerialOp.perform_think hop
    obtain ⟨hfirst, hnow, echoed, taken, hsent, hecho, hlength, hwaiting⟩ := h.sync hsync
    obtain ⟨hthird, hnone, hsame⟩ := hfirst.settle hnow hsettle
    refine ⟨⟨[.take taken], ⟨rfl, ⟨echoed, ?_, hlength, hecho⟩, fun _ _ => rfl,
      fun hsome => absurd rfl hsome⟩, c.waiting, ?_, rfl⟩, hthird⟩
    · show (sent ++ told).filterMap SerialCall.written = _
      rw [List.filterMap_append, hnone, hsent]
      simp [Fifo.Event.taken]
    · rw [hwaiting, hsame]
      exact .take _ _
  | setSwitches switches =>
    obtain ⟨rfl, hset⟩ := Prod.mk.inj (Option.some.inj hop)
    obtain ⟨hnone, hacia⟩ := noBytes_setSwitches hset
    refine ⟨⟨[], ⟨rfl, ⟨[], hnone.written, Nat.zero_le _, fun _ => rfl⟩, fun _ _ => rfl,
      fun hsome => absurd rfl hsome⟩, ?_⟩, ?_⟩
    · exact (congrArg Acia6551.loaded hacia).symm
    · exact ⟨by rw [hacia]; exact h.masked, by rw [hacia]; exact h.quiet⟩
  | reset host =>
    obtain ⟨hnone, hreset⟩ := reset_eq hop
    have hempty : c.waiting = [] := by
      refine Acia6551.loaded_of_statusLatches ?_
      rw [hreset]
      rfl
    refine ⟨⟨[.clear card.waiting], ⟨rfl, ⟨[], hnone.written, Nat.zero_le _, fun _ => rfl⟩,
      fun _ hno => absurd hno Bool.noConfusion, fun hsome => absurd rfl hsome⟩, [], .clear _,
      hempty.symm⟩, ?_⟩
    exact ⟨by rw [hreset]; exact h.masked, by rw [hreset]; rfl⟩
  | loadState saved host => exact absurd hload Bool.noConfusion

/-- **What the program writes the host gets**, in order and each byte once, unless the program
writes over a byte that the chip has not taken, or the card is reset. What the host gets besides
is what the chip echoes. (No save state is loaded.) -/
theorem transmitted_run {clockMhz : Nat} {ops : List SerialOp} {last : SuperSerialCard}
    {steps : List SerialStep} (hinit : init rounds clockMhz host = some (card, calls))
    (hrun : card.run rounds ops = some (last, steps)) (hload : ∀ op ∈ ops, op.isLoad = false) :
    ∃ ess, List.Forall₂ Transmitted steps ess ∧ Fifo.Serves [] ess.flatten last.waiting := by
  have hstart : card.Transmits ∧ card.waiting = [] := by
    obtain ⟨acia, hlines, h⟩ := Option.bind_eq_some_iff.1 hinit
    have hacia := aciaSetLines_aciaReset hlines
    obtain ⟨rfl, rfl⟩ := Prod.mk.inj (Option.some.inj h)
    refine ⟨⟨?_, ?_⟩, ?_⟩
    · show acia.ErrorsMasked
      rw [hacia]
      exact UInt8.zero_and
    · show acia.hasPendingOut = false
      rw [hacia]
      rfl
    · refine Acia6551.loaded_of_statusLatches ?_
      rw [hacia]
      rfl
  obtain ⟨htransmits, hempty⟩ := hstart
  rw [← hempty]
  clear hinit hempty
  induction ops generalizing card steps with
  | nil =>
    obtain ⟨rfl, rfl⟩ := Prod.mk.inj (Option.some.inj hrun)
    exact ⟨[], .nil, rfl⟩
  | cons op ops ih =>
    obtain ⟨answer, after, told, rest, hop, hrest, rfl⟩ := run_cons hrun
    obtain ⟨⟨es, hes, hserves⟩, hafter⟩ :=
      htransmits.perform (hload op (List.mem_cons_self ..)) hop
    obtain ⟨ess, hess, hserves'⟩ :=
      ih hrest (fun op hmem => hload op (List.mem_cons_of_mem _ hmem)) hafter
    refine ⟨es :: ess, .cons hes hess, ?_⟩
    rw [List.flatten_cons]
    exact hserves.append hserves'

/-- The byte that is written in `serialOps` is the byte that the host gets. -/
theorem transmitted_run_serialOps : ∃ card calls last steps,
    init 9 1020484000 (cabled 0 none) = some (card, calls)
      ∧ card.run 9 serialOps = some (last, steps)
      ∧ steps.flatMap SerialStep.written = [0x42]
      ∧ ∃ ess, List.Forall₂ Transmitted steps ess ∧ Fifo.Serves [] ess.flatten last.waiting := by
  have hruns : (init 9 1020484000 (cabled 0 none)).any (fun r => (r.1.run 9 serialOps).any
      fun q => q.2.flatMap SerialStep.written = [0x42]) = true := by
    decide +kernel
  obtain ⟨⟨card, calls⟩, hinit, hruns⟩ := (Option.any_eq_true _ _).1 hruns
  obtain ⟨⟨last, steps⟩, hrun, hbytes⟩ := (Option.any_eq_true _ _).1 hruns
  exact ⟨card, calls, last, steps, hinit, hrun, of_decide_eq_true hbytes,
    transmitted_run hinit hrun (by decide)⟩

end SuperSerialCard

end LinApple.Cards
