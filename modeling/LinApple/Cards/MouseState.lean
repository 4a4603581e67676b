import LinApple.Cards.Mouse
import LinApple.Lib.Ends

/-!
# Save states of the mouse card

A card that is `Consistent` saves a frame the loader takes, every operation leaves it
`Consistent`, and what the loader makes of the frame is `reloaded`.

The card that is loaded is seldom the one that was saved, and by design. The loader looks at its
frame with suspicion: the shadow of port B must agree with the pins, the cursor must be inside the
buffer, the reply inside its own. Where the shadow does not agree with the pins it takes the pins;
the pins of the 6821 that nothing is connected to are not in the frame at all; and a tick that is
overdue, or further off than a period, is put right. `reloaded` is the card with exactly these
changes, written down from the loader, and the theorem compares what comes back with it field by
field. `not_reloads_same` has a card to which this happens: a direction that is changed after the
strobes were set moves the pins, and the shadow does not hear of it.

One thing is left open. A rate that was chosen and not yet taken up is taken up by a load, which
is not what the comment on it says; so the period and the next tick are only compared for cards
that have no such rate, and of the others nothing is said about them.

`Consistent` is an invariant of every run: of accesses, ticks, resets, commands of the host and
loads, taken or refused. It holds the levels of the port to the strobes, the status to the
interrupt, and the cursors to the buffer. A step may come to nothing, as the cursor could run out
of its array; that it does not is a part of the run lemma. The card is saved at a cycle no earlier
than that of any step before, and this is asked for the next tick alone.
-/

namespace LinApple.Cards

open LinApple.Chips Byte

/-! ## Steps -/

/-- **What can happen to a mouse card** at a count of cycles. The counts are given with the steps
and need not go up, for it is the card's own clock that is asked about and not the host's. -/
inductive MouseStep where
  /-- A read of a register. -/
  | read (now : Nat) (addr : UInt16)
  /-- A write of a register. -/
  | write (now : Nat) (addr : UInt16) (val : UInt8)
  /-- The tick's event. -/
  | think (now : Nat)
  /-- A reset. -/
  | reset (now : Nat)
  /-- A command of the host, such as a motion of the mouse. -/
  | command (cmdId : UInt32) (data : MouseData)
  /-- The load of a frame, taken or refused. -/
  | load (now size : Nat) (state : MouseSaveState)
deriving DecidableEq

/-- A step of a card: `none` is an exception. -/
def MouseCard.step (card : MouseCard) : MouseStep → Option MouseCard
  | .read now addr => some (card.mouseIoRead now addr).2
  | .write now addr val => card.mouseIoWrite now addr val
  | .think now => some (card.mouseAbiThink now)
  | .reset now => some (card.mouseAbiReset now)
  | .command cmdId data => some ((card.mouseAbiCommand cmdId data).getD card)
  | .load now size state => some ((mouseAbiLoadState now size state).getD card)

/-! ## What a card saves and loads -/

namespace MouseCard

variable (card : MouseCard)

/-- **The card that comes back**: the shadow follows the pins, the pins and
outputs of the 6821 that nothing is connected to are as after a reset, and the
next tick is due no earlier than now and no later than a period on. -/
def reloaded (now : Nat) : MouseCard :=
  let shadow := loadShadow (card.pia.orb &&& card.pia.ddrb) card.portBShadow
  { card with
    pia := { card.pia with
      portBIn := shadow
      oca2 := false
      ocb2 := false
      irqAState := false
      irqBState := false }
    portBShadow := shadow
    nextTick := max now (min (now + card.tickPeriod) card.nextTick)
    level := card.irqAsserted }

end MouseCard

/-! ## Bits of a byte -/

/-- A bit of a byte. -/
def bit (d : UInt8) (i : Nat) : Bool := d.toBitVec.getLsbD i

@[simp] theorem bit_or (a b : UInt8) (i : Nat) : bit (a ||| b) i = (bit a i || bit b i) :=
  BitVec.getLsbD_or

@[simp] theorem bit_and (a b : UInt8) (i : Nat) : bit (a &&& b) i = (bit a i && bit b i) :=
  BitVec.getLsbD_and

@[simp] theorem bit_xor (a b : UInt8) (i : Nat) : bit (a ^^^ b) i = (bit a i ^^ bit b i) :=
  BitVec.getLsbD_xor

/-- The handshake, bit by bit. -/
theorem handshake_iff (shadow : UInt8) :
    shadow &&& piaInputs = replyLevels shadow ↔
      bit shadow 0 = false ∧ bit shadow 6 = !bit shadow 4 ∧ bit shadow 7 = bit shadow 5 := by
  revert shadow
  refine forall_byte ?_
  decide +kernel

theorem and_writeStrobe_iff (d : UInt8) : d &&& writeStrobe = 0 ↔ bit d 5 = false := by
  revert d
  refine forall_byte ?_
  decide +kernel

theorem and_readStrobe_iff (d : UInt8) : d &&& readStrobe = 0 ↔ bit d 4 = false := by
  revert d
  refine forall_byte ?_
  decide +kernel

/-! ## The handshake -/

/-- What a strobe of the guest's byte does to the shadow. -/
def writeReply (shadow data : UInt8) : UInt8 :=
  if data &&& writeStrobe ≠ 0 then shadow ||| busy else shadow &&& ~~~busy

/-- What a strobe of the card's byte does to the shadow. -/
def readReply (shadow data : UInt8) : UInt8 :=
  if data &&& readStrobe ≠ 0 then shadow &&& ~~~byteReady else shadow ||| byteReady

/-- **The shadow that `pia_listener_b` leaves**, where something has changed. -/
def nextShadow (shadow data : UInt8) : UInt8 :=
  let diff := (shadow ^^^ data) &&& cardDriven
  let placed := (shadow &&& ~~~cardDriven) ||| (data &&& cardDriven)
  let written := if diff &&& writeStrobe ≠ 0 then writeReply placed data else placed
  if diff &&& readStrobe ≠ 0 then readReply written data else written

/-- **Each edge is answered**: a bit of a strobe moves with the one that answers
it. -/
theorem handshake_nextShadow {shadow : UInt8} (h : shadow &&& piaInputs = replyLevels shadow)
    (data : UInt8) : nextShadow shadow data &&& piaInputs = replyLevels (nextShadow shadow data) := by
  have hdriven : bit cardDriven 4 = true ∧ bit cardDriven 5 = true ∧ bit cardDriven 0 = false ∧
      bit cardDriven 6 = false ∧ bit cardDriven 7 = false := by decide
  have hkept : bit (~~~cardDriven) 4 = false ∧ bit (~~~cardDriven) 5 = false ∧
      bit (~~~cardDriven) 0 = true ∧ bit (~~~cardDriven) 6 = true ∧
      bit (~~~cardDriven) 7 = true := by decide
  have hbusy : bit busy 7 = true ∧ bit (~~~busy) 7 = false ∧
      ∀ i ∈ [0, 4, 5, 6], bit busy i = false ∧ bit (~~~busy) i = true := by decide
  have hready : bit byteReady 6 = true ∧ bit (~~~byteReady) 6 = false ∧
      ∀ i ∈ [0, 4, 5, 7], bit byteReady i = false ∧ bit (~~~byteReady) i = true := by decide
  obtain ⟨h0, h6, h7⟩ := (handshake_iff shadow).mp h
  simp only [handshake_iff, nextShadow, writeReply, readReply, ne_eq, and_writeStrobe_iff,
    and_readStrobe_iff, bit_and, bit_xor, hdriven]
  split_ifs <;> simp_all

theorem handshake_pins (pins : UInt8) :
    ((pins &&& cardDriven) ||| replyLevels (pins &&& cardDriven)) &&& piaInputs =
      replyLevels ((pins &&& cardDriven) ||| replyLevels (pins &&& cardDriven)) := by
  revert pins
  refine forall_byte ?_
  decide +kernel

/-- The shadow that a load takes is one whose strobes are answered. -/
theorem handshake_loadShadow {shadow : UInt8} (h : shadow &&& piaInputs = replyLevels shadow)
    (pins : UInt8) :
    loadShadow pins shadow &&& piaInputs = replyLevels (loadShadow pins shadow) := by
  unfold loadShadow
  split_ifs
  · exact handshake_pins pins
  · exact h

/-! ## What the card's processor keeps to -/

/-- **A command and its reply fit into the buffer.** -/
theorem command_lengths (cmd : UInt8) :
    1 ≤ commandOutLen cmd ∧ commandOutLen cmd ≤ 5 ∧ commandOutLen cmd + commandInLen cmd ≤ 8 := by
  revert cmd
  refine forall_byte ?_
  decide +kernel

namespace MouseCard

variable {card : MouseCard}

theorem setIrq_eq (level : Bool) :
    card.setIrq level = { card with
      irqAsserted := level
      level := if card.irqAsserted = level then card.level else level } := by
  unfold setIrq
  by_cases h : card.irqAsserted = level
  · rw [if_pos h, if_pos h, ← h]
  · rw [if_neg h, if_neg h]

namespace Orderly

/-- Sources may be raised with the line. -/
theorem raise (h : card.Orderly) {status : UInt8} (hstatus : status &&& frameStatusMask = status) :
    ({ card with pending := 0, status := status }.setIrq true).Orderly := by
  rw [setIrq_eq]
  refine ⟨h.outLen, h.inLen, h.replyPos, h.mode, UInt8.zero_and, hstatus, fun _ => rfl, fun _ => ?_⟩
  dsimp only
  split_ifs with hline
  · exact h.level hline
  · rfl

/-- The line may be released with the sources. -/
theorem release (h : card.Orderly) :
    ({ card with status := card.status &&& ~~~statusInterruptSources }.setIrq false).Orderly := by
  rw [setIrq_eq]
  refine ⟨h.outLen, h.inLen, h.replyPos, h.mode, h.pending, masked_and h.status _, ?_, nofun⟩
  intro hraised
  refine absurd ?_ hraised
  show (card.status &&& ~~~statusInterruptSources) &&& statusInterruptSources = 0
  rw [UInt8.and_assoc, UInt8.not_and_self, UInt8.and_zero]

/-- What a tick reports is an interrupt source. -/
theorem reportable_masked (h : card.Orderly) :
    card.reportable &&& frameStatusMask = card.reportable := by
  have hpending : card.pending &&& frameStatusMask = card.pending := by
    rw [← h.pending, UInt8.and_assoc]
    rfl
  unfold reportable
  refine masked_or ?_ ?_
  · split_ifs
    · exact masked_and (masked_and hpending _) _
    · exact UInt8.zero_and
  · split_ifs <;> rfl

theorem fire (h : card.Orderly) : card.fire.Orderly := by
  unfold MouseCard.fire
  split_ifs
  · exact { h with pending := UInt8.zero_and }
  · exact h.raise (masked_or h.status h.reportable_masked)

theorem advance (h : card.Orderly) (now : Nat) : (card.advance now).Orderly := by
  have hearlier : { card with
      nextTick := min (now + card.tickPeriod) card.nextTick }.Orderly := { h with }
  unfold MouseCard.advance
  dsimp only
  split_ifs
  · exact { hearlier.fire with }
  · exact hearlier

theorem ite {c : Prop} [Decidable c] {card card' : MouseCard} (h : card.Orderly)
    (h' : card'.Orderly) : (if c then card else card').Orderly := by
  split
  · exact h
  · exact h'

theorem executeReadMouse (h : card.Orderly) : card.executeReadMouse.Orderly := by
  have hread : { card with
      readX := card.positionX
      readY := card.positionY
      buttonAtLastRead := card.button
      status := card.status &&& ~~~(statusMoved ||| statusInterruptSources) }.Orderly := by
    refine { h with status := masked_and h.status _, raised := fun hraised => absurd ?_ hraised }
    show (card.status &&& ~~~(statusMoved ||| statusInterruptSources)) &&& statusInterruptSources = 0
    rw [UInt8.and_assoc]
    exact UInt8.and_zero
  exact hread.answer (by simp)

theorem executeInitMouse (h : card.Orderly) (now : Nat) : (card.executeInitMouse now).Orderly := by
  have hoff : { card with
      mode := 0
      positionX := 0
      positionY := 0
      minX := defaultClampMin
      maxX := defaultClampMax
      minY := defaultClampMin
      maxY := defaultClampMax
      pending := 0 }.Orderly := { h with mode := UInt8.zero_and, pending := UInt8.zero_and }
  have hrestarted := { hoff.release with : (restartTick (setIrq _ false) now).Orderly }
  exact hrestarted.answer (by simp)

theorem executeClampMouse (h : card.Orderly) : card.executeClampMouse.Orderly :=
  ite { h with } { h with }

/-- **What a command does is orderly.** -/
theorem execute (h : card.Orderly) (now : Nat) : (card.execute now).Orderly := by
  have hmode : (card.buffer[0] &&& modeMask) &&& modeMask = card.buffer[0] &&& modeMask := by
    rw [UInt8.and_assoc, UInt8.and_self]
  have hserved : ({ card with
      buffer := card.buffer.set 1 (card.status &&& statusInterruptSources) }).Orderly :=
    h.answer (by simp)
  have htracking : modeTracking &&& modeMask = modeTracking := rfl
  unfold MouseCard.execute
  refine ite { h with mode := hmode } (ite h.executeReadMouse (ite hserved.release (ite { h with } ?_)))
  refine ite { h with } (ite (h.executeInitMouse now) (ite h.executeClampMouse (ite { h with } ?_)))
  refine ite (ite { h with mode := htracking } h) (ite { h with } (ite ?_ h))
  exact h.answer (by simp)

theorem collect (h : card.Orderly) (byte : UInt8) : (card.collect byte).Orderly := by
  unfold MouseCard.collect
  split
  · exact { h with outLen := rfl, inLen := rfl, replyPos := Nat.zero_le _ }
  · rename_i hpos
    split
    · have hfirst : ({ card with pos := card.pos + 1 }).Orderly := { h with }
      exact hfirst.answer (Vector.getElem_set_ne _ _ hpos)
    · exact { h with }

/-- **The reply is inside the buffer.** -/
theorem presentReply (h : card.Orderly) :
    Ends card.presentReply fun c =>
      ∃ byte, c = { card with pia := { card.pia with portAIn := byte } } := by
  unfold MouseCard.presentReply
  by_cases hdone : card.inLen ≤ card.replyPos
  · rw [if_pos hdone]
    exact .pure ⟨card.pia.portAIn, rfl⟩
  · have hinside : card.outLen + card.replyPos < 8 := by
      have hfits := (command_lengths card.buffer[0]).2.2
      rw [← h.outLen, ← h.inLen] at hfits
      omega
    rw [if_neg hdone, Vector.getElem?_eq_getElem hinside]
    exact .pure ⟨_, rfl⟩

end Orderly

/-! ## What the strobes leave of a card -/

/-- What the handshake is about: the shadow of port B, and the 6821. -/
def ports (card : MouseCard) : UInt8 × Pia6821 := (card.portBShadow, card.pia)

theorem ports_ite {c : Prop} [Decidable c] {card card' : MouseCard} {p : UInt8 × Pia6821}
    (h : card.ports = p) (h' : card'.ports = p) : (if c then card else card').ports = p := by
  split
  · exact h
  · exact h'

theorem ports_setIrq (level : Bool) : (card.setIrq level).ports = card.ports := ports_ite rfl rfl

/-- **A command leaves the ports alone.** -/
theorem ports_execute (now : Nat) : (card.execute now).ports = card.ports := by
  have hinit : (card.executeInitMouse now).ports = card.ports := ports_setIrq false
  unfold execute
  refine ports_ite rfl (ports_ite rfl (ports_ite (ports_setIrq false) (ports_ite rfl ?_)))
  refine ports_ite rfl (ports_ite hinit (ports_ite (ports_ite rfl rfl) (ports_ite rfl ?_)))
  exact ports_ite (ports_ite rfl rfl) (ports_ite rfl (ports_ite rfl rfl))

theorem ports_collect (byte : UInt8) : (card.collect byte).ports = card.ports := by
  unfold collect
  split
  · rfl
  · split
    · rfl
    · rfl

/-- What a strobe leaves: a card in order, its cursor inside the buffer, with a
shadow given, and a 6821 that sees what it saw. -/
structure Served (shadow portBIn : UInt8) (card : MouseCard) : Prop extends card.Orderly where
  /-- The buffer's cursor is inside it. -/
  pos : card.pos < 8
  /-- The shadow of port B. -/
  shadow : card.portBShadow = shadow
  /-- What the 6821 sees. -/
  portBIn : card.pia.portBIn = portBIn

namespace Served

variable {shadow portBIn : UInt8}

theorem presentReply (h : card.Served shadow portBIn) :
    Ends card.presentReply fun c => c.Served shadow portBIn := by
  refine h.toOrderly.presentReply.mono fun c hc => ?_
  obtain ⟨byte, rfl⟩ := hc
  exact { h with }

/-- **A byte is taken.** -/
theorem takeByte (h : card.Served shadow portBIn) (now : Nat) (byte : UInt8) :
    Ends (card.takeByte now byte) fun c => c.Served shadow portBIn := by
  have hcollect := h.toOrderly.collect byte
  have hports : (card.collect byte).ports = card.ports := ports_collect byte
  unfold MouseCard.takeByte
  dsimp only
  split
  · rename_i hmore
    have hlen := (command_lengths (card.collect byte).buffer[0]).2.1
    rw [← hcollect.outLen] at hlen
    exact .pure ⟨hcollect, by omega, (congrArg Prod.fst hports).trans h.shadow,
      (congrArg (fun p => p.2.portBIn) hports).trans h.portBIn⟩
  · have hexecute : ((card.collect byte).execute now).ports = card.ports :=
      (ports_execute now).trans hports
    refine presentReply ⟨{ hcollect.execute now with }, Nat.zero_lt_succ _,
      (congrArg Prod.fst hexecute).trans h.shadow,
      (congrArg (fun p => p.2.portBIn) hexecute).trans h.portBIn⟩

theorem onWriteStrobe (h : card.Served shadow portBIn) (now : Nat) (data : UInt8) :
    Ends (card.onWriteStrobe now data) fun c => c.Served (writeReply shadow data) portBIn := by
  unfold MouseCard.onWriteStrobe writeReply
  by_cases hrise : data &&& writeStrobe ≠ 0
  · rw [if_pos hrise, if_pos hrise]
    exact .pure { h with shadow := congrArg (· ||| busy) h.shadow }
  · rw [if_neg hrise, if_neg hrise]
    exact (h.takeByte now card.portAShadow).map fun c hc =>
      { hc with shadow := congrArg (· &&& ~~~busy) hc.shadow }

theorem onReadStrobe (h : card.Served shadow portBIn) (data : UInt8) :
    Ends (card.onReadStrobe data) fun c => c.Served (readReply shadow data) portBIn := by
  unfold MouseCard.onReadStrobe readReply
  by_cases hrise : data &&& readStrobe ≠ 0
  · rw [if_pos hrise, if_pos hrise]
    exact .pure { h with shadow := congrArg (· &&& ~~~byteReady) h.shadow }
  · rw [if_neg hrise, if_neg hrise]
    have hnext : (if card.replyPos < card.inLen then { card with replyPos := card.replyPos + 1 }
        else card).Served shadow portBIn := by
      split
      · rename_i hmore
        exact { h with replyPos := hmore }
      · exact h
    exact hnext.presentReply.map fun c hc =>
      { hc with shadow := congrArg (· ||| byteReady) hc.shadow }

end Served

/-! ## Every operation keeps a card consistent -/

namespace Consistent

/-- **`pia_listener_b` leaves a card consistent.** -/
theorem piaListenerB (h : card.Consistent) (now : Nat) (data : UInt8) :
    Ends (card.piaListenerB now data) Consistent := by
  unfold MouseCard.piaListenerB
  dsimp only
  generalize hdiff : (card.portBShadow ^^^ data) &&& cardDriven = diff
  generalize hplaced : (card.portBShadow &&& ~~~cardDriven) ||| (data &&& cardDriven) = placed
  have hserved : ({ card with portBShadow := placed }).Served placed card.pia.portBIn :=
    { h.toOrderly with pos := h.pos, shadow := rfl, portBIn := rfl }
  have hwritten : Ends
      (if diff &&& writeStrobe ≠ 0 then
        ({ card with portBShadow := placed }).onWriteStrobe now data
      else some { card with portBShadow := placed })
      (Served (if diff &&& writeStrobe ≠ 0 then writeReply placed data else placed)
        card.pia.portBIn) := by
    split
    · exact hserved.onWriteStrobe now data
    · exact .pure hserved
  have hshadow : nextShadow card.portBShadow data =
      if diff &&& readStrobe ≠ 0 then
        readReply (if diff &&& writeStrobe ≠ 0 then writeReply placed data else placed) data
      else if diff &&& writeStrobe ≠ 0 then writeReply placed data else placed := by
    rw [← hdiff, ← hplaced]
    rfl
  split
  · exact .pure h
  · refine hwritten.bind fun c hc => ?_
    have hread : Ends (if diff &&& readStrobe ≠ 0 then c.onReadStrobe data else some c)
        (Served (nextShadow card.portBShadow data) card.pia.portBIn) := by
      rw [hshadow]
      split
      · exact hc.onReadStrobe data
      · exact .pure hc
    refine hread.bind fun c hc => .pure { hc with handshake := ?_, portBIn := rfl }
    show c.portBShadow &&& piaInputs = replyLevels c.portBShadow
    rw [hc.shadow]
    exact handshake_nextShadow h.handshake data

/-- The 6821 may be accessed. -/
theorem access (h : card.Consistent) {pia : Pia6821} (hpia : pia.portBIn = card.pia.portBIn) :
    { card with pia := pia }.Consistent :=
  { h with portBIn := hpia.trans h.portBIn }

theorem advance (h : card.Consistent) (now : Nat) : (card.advance now).Consistent := by
  have hports : (card.advance now).ports = card.ports := by
    have hfire : ∀ c : MouseCard, c.fire.ports = c.ports := fun c => ports_ite rfl (ports_setIrq true)
    exact ports_ite (hfire _) rfl
  have hpos : (card.advance now).pos = card.pos := by
    unfold MouseCard.advance MouseCard.fire
    dsimp only
    split
    · split
      · rfl
      · rw [setIrq_eq]
    · rfl
  refine { h.toOrderly.advance now with
    pos := hpos ▸ h.pos
    handshake := ?_
    portBIn := ?_ }
  · rw [show (card.advance now).portBShadow = card.portBShadow from congrArg Prod.fst hports]
    exact h.handshake
  · have hin : (card.advance now).pia.portBIn = card.pia.portBIn :=
      congrArg (fun p => p.2.portBIn) hports
    exact (hin.trans h.portBIn).trans (congrArg Prod.fst hports).symm

theorem mouseIoRead (h : card.Consistent) (now : Nat) (addr : UInt16) :
    (card.mouseIoRead now addr).2.Consistent :=
  (h.advance now).access (Pia6821.pia6821Read_ports _ _)

theorem mouseIoWrite (h : card.Consistent) (now : Nat) (addr : UInt16) (val : UInt8) :
    Ends (card.mouseIoWrite now addr val) Consistent := by
  have hwritten := (h.advance now).access
    (Pia6821.pia6821Write_ports (card.advance now).pia (Fin.ofNat 4 addr.toNat) val)
  unfold MouseCard.mouseIoWrite MouseCard.listen
  dsimp only
  split
  · exact .pure hwritten
  · exact .pure { hwritten with }
  · exact hwritten.piaListenerB now _

/-- **A card that has been reset is consistent**, whatever it was. -/
theorem resetCard (card : MouseCard) (now : Nat) : (card.resetCard now).Consistent := by
  have hout : 1 = commandOutLen (Vector.replicate 8 (0 : UInt8))[0] := by
    rw [Vector.getElem_replicate]
    decide
  have hin : 0 = commandInLen (Vector.replicate 8 (0 : UInt8))[0] := by
    rw [Vector.getElem_replicate]
    decide
  have hhandshake : byteReady &&& piaInputs = replyLevels byteReady := by decide
  unfold MouseCard.resetCard
  rw [setIrq_eq]
  dsimp only
  constructor
  case toOrderly =>
    exact ⟨hout, hin, Nat.le_refl _, UInt8.zero_and, UInt8.zero_and, UInt8.zero_and,
      fun hraised => absurd UInt8.zero_and hraised, fun hline => absurd hline Bool.false_ne_true⟩
  case pos => exact Nat.zero_lt_succ _
  case handshake => exact hhandshake
  case portBIn => rfl

theorem cmdMove (h : card.Consistent) (dx dy : Int32) : (card.cmdMove dx dy).Consistent := by
  have hmoved : statusMoved &&& frameStatusMask = statusMoved := rfl
  have hmovement : statusMovementInterrupt &&& statusInterruptSources = statusMovementInterrupt :=
    rfl
  have hapart : (card.status ||| statusMoved) &&& statusInterruptSources =
      card.status &&& statusInterruptSources := by
    rw [or_and_distrib_right]
    exact UInt8.or_zero
  unfold MouseCard.cmdMove
  dsimp only
  split
  · exact h
  split
  · exact h
  · exact { h with
      status := masked_or h.status hmoved
      pending := masked_or h.pending hmovement
      raised := fun hraised => h.raised (hapart ▸ hraised) }

theorem cmdSetButton (h : card.Consistent) (button down : UInt8) :
    (card.cmdSetButton button down).Consistent := by
  have hbutton : statusButtonInterrupt &&& statusInterruptSources = statusButtonInterrupt := rfl
  unfold MouseCard.cmdSetButton
  split
  · exact h
  split
  · exact h
  split
  · exact { h with pending := masked_or h.pending hbutton }
  · exact { h with }

theorem mouseAbiCommand (h : card.Consistent) (cmdId : UInt32) (data : MouseData) :
    ((card.mouseAbiCommand cmdId data).getD card).Consistent := by
  unfold MouseCard.mouseAbiCommand
  split
  · exact h
  split
  · split
    · exact h.cmdMove _ _
    · exact h
  split
  · split
    · exact h.cmdSetButton _ _
    · exact h
  · exact h

end Consistent

end MouseCard

/-! ## The loader's check -/

theorem ite_some_eq_none {c : Prop} [Decidable c] {a : String} {r : Option String} :
    (if c then some a else r) = none ↔ ¬c ∧ r = none := by
  by_cases h : c
  · rw [if_pos h]
    exact ⟨nofun, fun hc => absurd h hc.1⟩
  · rw [if_neg h]
    exact ⟨fun hr => ⟨h, hr⟩, fun hc => hc.2⟩

theorem frameRefusal_eq_none_iff (state : MouseSaveState) :
    frameRefusal state = none ↔ state.Accepted := by
  simp only [frameRefusal, ite_some_eq_none, not_or, not_and, ne_eq, Decidable.not_not, not_exists,
    ge_iff_le, gt_iff_lt, UInt32.not_lt, UInt32.not_le, UInt8.not_lt, Nat.not_lt, and_true]
  constructor
  · rintro ⟨hheader, hwords, hparser, hmode, hflags, hinLen, hreplyPos, hhandshake⟩
    exact ⟨hheader, hwords, hparser, hmode, hflags, Decidable.or_iff_not_imp_left.mpr hinLen,
      hreplyPos, hhandshake⟩
  · rintro ⟨hheader, hwords, hparser, hmode, hflags, hinLen, hreplyPos, hhandshake⟩
    exact ⟨hheader, hwords, hparser, hmode, hflags, Decidable.or_iff_not_imp_left.mp hinLen,
      hreplyPos, hhandshake⟩

/-! ### Bits of a mode, of sources and of a status -/

theorem and_modeMask_iff (mode : UInt8) : mode &&& modeMask = mode ↔ mode ≤ modeMask := by
  revert mode
  refine forall_byte ?_
  decide +kernel

theorem and_interruptSources_iff (pending : UInt8) :
    pending &&& statusInterruptSources = pending ↔ pending &&& ~~~statusInterruptSources = 0 := by
  revert pending
  refine forall_byte ?_
  decide +kernel

theorem without_interruptSources (status : UInt8) :
    status &&& statusInterruptSources = 0 → status &&& ~~~statusInterruptSources = status := by
  revert status
  refine forall_byte ?_
  decide +kernel

namespace MouseCard

variable {card : MouseCard}

/-- **A frame that is taken makes a consistent card.** -/
theorem consistent_of_mouseAbiLoadState {now size : Nat} {state : MouseSaveState}
    (h : mouseAbiLoadState now size state = some card) : card.Consistent := by
  unfold mouseAbiLoadState at h
  split at h
  · cases h
  split at h
  · cases h
  -- what the frame may hold is what the loader checks; the rest it masks or sets itself
  rename_i htaken
  have haccepted := (frameRefusal_eq_none_iff state).mp (Option.not_isSome_iff_eq_none.mp htaken)
  have hstatus : (state.status &&& frameStatusMask) &&& frameStatusMask =
      state.status &&& frameStatusMask := by
    rw [UInt8.and_assoc, UInt8.and_self]
  obtain rfl := Option.some.inj h
  constructor
  case pos => exact UInt32.lt_iff_toNat_lt.mp haccepted.parser.1
  case handshake => exact handshake_loadShadow haccepted.handshake _
  case portBIn => rfl
  case toOrderly =>
    constructor
    case outLen => rfl
    case inLen => rfl
    case replyPos => exact haccepted.replyPos
    case mode => exact (and_modeMask_iff _).mpr haccepted.mode.1
    case pending => exact (and_interruptSources_iff _).mpr haccepted.mode.2
    case level => exact id
    case status =>
      dsimp only
      split
      · exact hstatus
      · exact masked_and hstatus _
    case raised =>
      dsimp only
      intro hraised
      by_contra hline
      rw [if_neg hline, UInt8.and_assoc, UInt8.not_and_self] at hraised
      exact hraised UInt8.and_zero

/-! ## What is saved comes back -/

@[simp] theorem positionOfWord_frameWord (value : Int16) :
    positionOfWord (frameWord value) = value :=
  congrArg Int16.ofUInt16 (UInt16.toUInt16_toUInt32 value.toUInt16)

theorem frameFlag_ne_zero (b : Bool) : decide (frameFlag b ≠ 0) = b := by
  cases b <;> rfl

theorem frameFlag_le_one (b : Bool) : frameFlag b ≤ 1 := by
  cases b <;> decide

theorem frameWord_le (value : Int16) : frameWord value ≤ 0xFFFF := by
  have hlt := value.toUInt16.toNat_lt
  rw [UInt32.le_iff_toNat_le, frameWord, UInt16.toNat_toUInt32]
  exact Nat.le_of_lt_succ hlt

namespace Consistent

theorem commandInLen_lt (h : card.Consistent) : card.inLen < 8 := by
  have hlen := command_lengths card.buffer[0]
  rw [h.inLen]
  omega

theorem toNat_parserPos (h : card.Consistent) (now : Nat) :
    (card.mouseAbiSaveState now).parserPos.toNat = card.pos :=
  UInt32.toNat_ofNat_of_lt' (Nat.lt_trans h.pos (by decide))

theorem toNat_parserInLen (h : card.Consistent) (now : Nat) :
    (card.mouseAbiSaveState now).parserInLen.toNat = card.inLen :=
  UInt8.toNat_ofNat_of_lt' (Nat.lt_trans h.commandInLen_lt (by decide))

theorem toNat_parserReplyPos (h : card.Consistent) (now : Nat) :
    (card.mouseAbiSaveState now).parserReplyPos.toNat = card.replyPos :=
  UInt8.toNat_ofNat_of_lt'
    (Nat.lt_trans (Nat.lt_of_le_of_lt h.replyPos h.commandInLen_lt) (by decide))

/-- **The frame that a consistent card saves is taken.** -/
theorem accepted (h : card.Consistent) (now : Nat) : (card.mouseAbiSaveState now).Accepted := by
  have hlen := command_lengths card.buffer[0]
  rw [← h.outLen] at hlen
  have hout : (UInt32.ofNat card.outLen).toNat = card.outLen :=
    UInt32.toNat_ofNat_of_lt' (Nat.lt_of_le_of_lt hlen.2.1 (by decide))
  constructor
  case header => exact ⟨rfl, rfl⟩
  case words =>
    intro word hword
    simp only [mouseAbiSaveState, List.mem_cons, List.not_mem_nil, or_false] at hword
    rcases hword with rfl | rfl | rfl | rfl | rfl | rfl | rfl | rfl <;> exact frameWord_le _
  case parser =>
    refine ⟨?_, ?_, ?_⟩
    · rw [UInt32.lt_iff_toNat_lt, h.toNat_parserPos]
      exact h.pos
    · show 1 ≤ UInt32.ofNat card.outLen
      rw [UInt32.le_iff_toNat_le, hout]
      exact hlen.1
    · show UInt32.ofNat card.outLen ≤ 8
      rw [UInt32.le_iff_toNat_le, hout]
      exact Nat.le_trans hlen.2.1 (by decide)
  case mode =>
    exact ⟨(and_modeMask_iff _).mp h.mode, (and_interruptSources_iff _).mp h.pending⟩
  case flags => exact ⟨frameFlag_le_one _, frameFlag_le_one _, frameFlag_le_one _, frameFlag_le_one _⟩
  case inLen => exact Or.inr ((h.toNat_parserInLen now).trans h.inLen)
  case replyPos =>
    rw [h.toNat_parserReplyPos]
    exact h.inLen ▸ h.replyPos
  case handshake => exact h.handshake

/-- The status that a frame keeps. -/
theorem status_loaded (h : card.Consistent) :
    (if card.irqAsserted then (card.status &&& frameStatusMask) &&& frameStatusMask
      else (card.status &&& frameStatusMask) &&& frameStatusMask &&& ~~~statusInterruptSources) =
      card.status := by
  rw [h.status, h.status]
  split
  · rfl
  · rename_i hline
    refine without_interruptSources _ ?_
    by_contra hraised
    exact hline (h.raised hraised)

/-- **What is saved comes back**, but for the tick. -/
theorem load_save (h : card.Consistent) (now : Nat) {size : Nat} (hsize : 92 ≤ size) :
    mouseAbiLoadState now size (card.mouseAbiSaveState now) =
      some { card.reloaded now with
        tickPeriod := tickPeriodOf card.rate50hz
        nextTick := now +
          min (card.mouseAbiSaveState now).tickPhase.toNat (tickPeriodOf card.rate50hz) } := by
  have htaken : (frameRefusal (card.mouseAbiSaveState now)).isSome = false := by
    rw [(frameRefusal_eq_none_iff _).mpr (h.accepted now)]
    rfl
  have hrate : decide ((card.mouseAbiSaveState now).rate50hz ≠ 0) = card.rate50hz :=
    frameFlag_ne_zero _
  have hirq : decide ((card.mouseAbiSaveState now).irqAsserted ≠ 0) = card.irqAsserted :=
    frameFlag_ne_zero _
  have hbutton : decide ((card.mouseAbiSaveState now).button ≠ 0) = card.button :=
    frameFlag_ne_zero _
  have hlast : decide ((card.mouseAbiSaveState now).buttonAtLastRead ≠ 0) =
      card.buttonAtLastRead :=
    frameFlag_ne_zero _
  unfold mouseAbiLoadState
  rw [if_neg (Nat.not_lt.mpr hsize), htaken, if_neg Bool.false_ne_true, h.toNat_parserPos,
    h.toNat_parserReplyPos]
  refine congrArg some ?_
  simp only [hrate, hirq, hbutton, hlast]
  simp only [mouseAbiSaveState, positionOfWord_frameWord, h.status_loaded, ← h.outLen, ← h.inLen]
  rfl

end Consistent

/-! ## When the next tick is due -/

/-- The next tick is due a period from `T` on at the latest. -/
def Due (T : Nat) (card : MouseCard) : Prop := card.nextTick ≤ T + card.tickPeriod

namespace Due

variable {T now : Nat}

theorem ite {c : Prop} [Decidable c] {card card' : MouseCard} (h : card.Due T)
    (h' : card'.Due T) : (if c then card else card').Due T := by
  split
  · exact h
  · exact h'

theorem setIrq (h : card.Due T) (level : Bool) : (card.setIrq level).Due T := ite h h

/-- **A tick that has come is followed by one within a period.** -/
theorem advance (card : MouseCard) (hnow : now ≤ T) : (card.advance now).Due T := by
  have hmin := Nat.min_le_left (now + card.tickPeriod) card.nextTick
  have hperiod : ∀ c : MouseCard, c.fire.tickPeriod = c.tickPeriod := by
    intro c
    unfold MouseCard.fire
    split
    · rfl
    · rw [setIrq_eq]
  unfold MouseCard.advance Due
  dsimp only
  split
  · rename_i hcome
    rw [hperiod]
    have hrounds := Nat.div_mul_le_self (now - min (now + card.tickPeriod) card.nextTick)
      card.tickPeriod
    rw [Nat.add_mul, Nat.one_mul]
    dsimp only
    omega
  · exact Nat.le_trans hmin (Nat.add_le_add_right hnow _)

theorem execute (h : card.Due T) (hnow : now ≤ T) : (card.execute now).Due T := by
  have hinit : (card.executeInitMouse now).Due T := Nat.add_le_add_right hnow _
  have hserved : ({ card with
      buffer := card.buffer.set 1 (card.status &&& statusInterruptSources)
      status := card.status &&& ~~~statusInterruptSources }).Due T := h
  unfold MouseCard.execute
  refine ite h (ite h (ite (hserved.setIrq false) (ite h (ite h (ite hinit (ite (ite h h) ?_))))))
  exact ite h (ite (ite h h) (ite h (ite h h)))

theorem collect (h : card.Due T) (byte : UInt8) : (card.collect byte).Due T := by
  unfold MouseCard.collect
  split
  · exact h
  · split
    · exact h
    · exact h

theorem presentReply (h : card.Due T) : Yields card.presentReply (Due T) := by
  unfold MouseCard.presentReply
  split
  · exact .pure h
  · exact .map (P := fun _ => True) (fun _ _ => trivial) fun _ _ => h

theorem takeByte (h : card.Due T) (hnow : now ≤ T) (byte : UInt8) :
    Yields (card.takeByte now byte) (Due T) := by
  unfold MouseCard.takeByte
  dsimp only
  split
  · exact .pure (h.collect byte)
  · exact presentReply ((h.collect byte).execute hnow)

theorem onWriteStrobe (h : card.Due T) (hnow : now ≤ T) (data : UInt8) :
    Yields (card.onWriteStrobe now data) (Due T) := by
  unfold MouseCard.onWriteStrobe
  split
  · exact .pure h
  · exact (h.takeByte hnow _).map fun _ hc => hc

theorem onReadStrobe (h : card.Due T) (data : UInt8) :
    Yields (card.onReadStrobe data) (Due T) := by
  unfold MouseCard.onReadStrobe
  split
  · exact .pure h
  · have hnext : (if card.replyPos < card.inLen then { card with replyPos := card.replyPos + 1 }
        else card).Due T := ite h h
    exact hnext.presentReply.map fun _ hc => hc

theorem piaListenerB (h : card.Due T) (hnow : now ≤ T) (data : UInt8) :
    Yields (card.piaListenerB now data) (Due T) := by
  unfold MouseCard.piaListenerB
  dsimp only
  generalize (card.portBShadow ^^^ data) &&& cardDriven = diff
  generalize (card.portBShadow &&& ~~~cardDriven) ||| (data &&& cardDriven) = placed
  have hplaced : ({ card with portBShadow := placed }).Due T := h
  have hwritten : Yields
      (if diff &&& writeStrobe ≠ 0 then
        ({ card with portBShadow := placed }).onWriteStrobe now data
      else some { card with portBShadow := placed }) (Due T) := by
    split
    · exact hplaced.onWriteStrobe hnow data
    · exact .pure hplaced
  split
  · exact .pure h
  · refine hwritten.bind fun c hc => ?_
    have hread : Yields (if diff &&& readStrobe ≠ 0 then c.onReadStrobe data else some c)
        (Due T) := by
      split
      · exact hc.onReadStrobe data
      · exact .pure hc
    exact hread.bind fun c hc => .pure hc

theorem cmdMove (h : card.Due T) (dx dy : Int32) : (card.cmdMove dx dy).Due T :=
  ite h (ite h h)

theorem cmdSetButton (h : card.Due T) (button down : UInt8) :
    (card.cmdSetButton button down).Due T :=
  ite h (ite h (ite h h))

theorem mouseAbiCommand (h : card.Due T) (cmdId : UInt32) (data : MouseData) :
    ((card.mouseAbiCommand cmdId data).getD card).Due T := by
  unfold MouseCard.mouseAbiCommand
  split
  · exact h
  split
  · split
    · exact h.cmdMove _ _
    · exact h
  split
  · split
    · exact h.cmdSetButton _ _
    · exact h
  · exact h

theorem of_mouseAbiLoadState (hnow : now ≤ T) {size : Nat} {state : MouseSaveState}
    (h : mouseAbiLoadState now size state = some card) : card.Due T := by
  unfold mouseAbiLoadState at h
  split at h
  · cases h
  split at h
  · cases h
  obtain rfl := Option.some.inj h
  exact Nat.add_le_add hnow (Nat.min_le_right _ _)

end Due

end MouseCard

/-! ## Steps and runs -/

/-- The count of cycles at which a step is taken, if it has one. -/
def MouseStep.now? : MouseStep → Option Nat
  | .read now _ => some now
  | .write now _ _ => some now
  | .think now => some now
  | .reset now => some now
  | .command _ _ => none
  | .load now _ _ => some now

namespace MouseCard

variable {card : MouseCard}

/-- **A step keeps a card consistent**, and ends. -/
theorem Consistent.step (h : card.Consistent) (step : MouseStep) :
    Ends (card.step step) Consistent := by
  cases step with
  | read now addr => exact .pure (h.mouseIoRead now addr)
  | write now addr val => exact h.mouseIoWrite now addr val
  | think now => exact .pure (h.advance now)
  | reset now => exact .pure (.resetCard card now)
  | command cmdId data => exact .pure (h.mouseAbiCommand cmdId data)
  | load now size state =>
    refine .pure ?_
    cases hload : mouseAbiLoadState now size state with
    | none => exact h
    | some c => exact consistent_of_mouseAbiLoadState hload

/-- A step leaves the next tick a period off at the latest. -/
theorem Due.step {T : Nat} (h : card.Due T) {step : MouseStep} (hnow : ∀ now ∈ step.now?, now ≤ T) :
    Yields (card.step step) (Due T) := by
  cases step with
  | read now addr => exact .pure (Due.advance card (hnow now rfl))
  | write now addr val =>
    have hadvanced : ({ card.advance now with
        pia := ((card.advance now).pia.pia6821Write (Fin.ofNat 4 addr.toNat) val).1 }).Due T :=
      Due.advance card (hnow now rfl)
    show Yields (card.mouseIoWrite now addr val) (Due T)
    unfold mouseIoWrite listen
    dsimp only
    split
    · exact .pure hadvanced
    · exact .pure hadvanced
    · exact hadvanced.piaListenerB (hnow now rfl) _
  | think now => exact .pure (Due.advance card (hnow now rfl))
  | reset now => exact .pure (Nat.add_le_add_right (hnow now rfl) _)
  | command cmdId data => exact .pure (h.mouseAbiCommand cmdId data)
  | load now size state =>
    refine .pure ?_
    cases hload : mouseAbiLoadState now size state with
    | none => exact h
    | some c => exact .of_mouseAbiLoadState (hnow now rfl) hload

/-- With the tick at the rate it was last told, the next tick comes back too. -/
theorem reloaded_of_due {now : Nat} (hdue : card.Due now)
    (hrate : card.tickPeriod = tickPeriodOf card.rate50hz) :
    ({ card.reloaded now with
      tickPeriod := tickPeriodOf card.rate50hz
      nextTick := now +
        min (card.mouseAbiSaveState now).tickPhase.toNat (tickPeriodOf card.rate50hz) }) =
      card.reloaded now := by
  have hperiod : tickPeriodOf card.rate50hz ≤ 20280 := by
    unfold tickPeriodOf
    split <;> omega
  have hphase : (card.mouseAbiSaveState now).tickPhase.toNat = card.nextTick - now := by
    unfold Due at hdue
    have hword : (UInt32.ofNat (if card.nextTick > now then card.nextTick - now else 0)) =
        UInt32.ofNat (card.nextTick - now) := by
      split
      · rfl
      · rename_i hlate
        rw [Nat.sub_eq_zero_of_le (Nat.not_lt.mp hlate)]
    show (UInt32.ofNat (if card.nextTick > now then card.nextTick - now else 0)).toNat = _
    rw [hword, UInt32.toNat_ofNat_of_lt']
    show card.nextTick - now < 4294967296
    omega
  have hnext : now + min (card.nextTick - now) card.tickPeriod =
      max now (min (now + card.tickPeriod) card.nextTick) := by
    omega
  rw [hphase, ← hrate, hnext]
  rfl

/-- **Every card can be saved and comes back**: whatever has happened to it, it is
consistent, its frame is taken, and with its tick at the rate it was last told
what is loaded is the card `reloaded`. -/
theorem run_reloads {slot : Int} {start : Nat} {level : Bool} {card : MouseCard}
    (hcard : mouseAbiInit slot start level = some card) (steps : List MouseStep) {now size : Nat}
    (hstart : start ≤ now) (hsteps : ∀ step ∈ steps, ∀ t ∈ step.now?, t ≤ now)
    (hsize : 92 ≤ size) :
    Ends (steps.foldlM step card) fun c =>
      frameRefusal (c.mouseAbiSaveState now) = none ∧
      (∃ loaded, mouseAbiLoadState now size (c.mouseAbiSaveState now) = some loaded ∧
        loaded = { c.reloaded now with
          tickPeriod := loaded.tickPeriod
          nextTick := loaded.nextTick } ∧
        (c.tickPeriod = tickPeriodOf c.rate50hz → loaded = c.reloaded now)) ∧
      (c.status &&& statusInterruptSources ≠ 0 → c.irqAsserted = true ∧ c.level = true) ∧
      (c.portBShadow &&& piaInputs = replyLevels c.portBShadow ∧
        c.pia.portBIn = c.portBShadow) ∧
      c.pos < 8 ∧ c.outLen ≤ 8 ∧ c.outLen + c.replyPos ≤ 8 := by
  have hinit : card.Consistent ∧ card.Due now := by
    unfold mouseAbiInit at hcard
    split at hcard
    · cases hcard
    · obtain rfl := Option.some.inj hcard
      exact ⟨.resetCard _ start, Nat.add_le_add_right hstart _⟩
  have hrun : Ends (steps.foldlM step card) fun c => c.Consistent ∧ c.Due now :=
    Ends.foldlM (fun c s hs hc => (hc.1.step s).and_yields (hc.2.step (hsteps s hs))) hinit
  refine hrun.mono fun c hc => ?_
  obtain ⟨h, hdue⟩ := hc
  have hlen := command_lengths c.buffer[0]
  rw [← h.outLen, ← h.inLen] at hlen
  have hreply := h.replyPos
  refine ⟨(frameRefusal_eq_none_iff _).mpr (h.accepted now), ⟨_, h.load_save now hsize, rfl,
    reloaded_of_due hdue⟩, fun hraised => ⟨h.raised hraised, h.level (h.raised hraised)⟩,
    ⟨h.handshake, h.portBIn⟩, h.pos, ?_, ?_⟩
  · omega
  · omega

/-- A card in slot 4, told of a direction, a strobe and a direction again. -/
theorem run_reloads_strobed :
    Ends ([MouseStep.write 5 0xC0C2 0x3E, .write 6 0xC0C3 0x04, .write 7 0xC0C2 0x20].foldlM step
        ((new false).resetCard 0)) fun c =>
      frameRefusal (c.mouseAbiSaveState 9) = none ∧
      (∃ loaded, mouseAbiLoadState 9 92 (c.mouseAbiSaveState 9) = some loaded ∧
        loaded = { c.reloaded 9 with
          tickPeriod := loaded.tickPeriod
          nextTick := loaded.nextTick } ∧
        (c.tickPeriod = tickPeriodOf c.rate50hz → loaded = c.reloaded 9)) ∧
      (c.status &&& statusInterruptSources ≠ 0 → c.irqAsserted = true ∧ c.level = true) ∧
      (c.portBShadow &&& piaInputs = replyLevels c.portBShadow ∧
        c.pia.portBIn = c.portBShadow) ∧
      c.pos < 8 ∧ c.outLen ≤ 8 ∧ c.outLen + c.replyPos ≤ 8 :=
  @run_reloads 4 0 false _ rfl _ 9 92 (by decide) (by decide) (by decide)

/-- **The same card need not come back**: a direction that is changed after the
strobes were set moves the pins, and the shadow that is loaded follows them. -/
theorem not_reloads_same :
    ∃ c loaded : MouseCard,
      [MouseStep.write 0 0xC0C2 0x3E, .write 0 0xC0C3 0x04, .write 0 0xC0C2 0x02,
        .write 0 0xC0C3 0x00, .write 0 0xC0C2 0x00].foldlM step ((new false).resetCard 0) = some c ∧
      mouseAbiLoadState 0 92 (c.mouseAbiSaveState 0) = some loaded ∧
      c.portBShadow = 0x42 ∧ loaded.portBShadow = 0x40 := by
  refine ⟨_, _, rfl, rfl, ?_⟩
  decide +kernel

end MouseCard

end LinApple.Cards
