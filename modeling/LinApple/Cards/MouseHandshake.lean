import LinApple.Cards.MouseState

/-!
# The mouse card's protocol

The firmware's routines, access by access: it selects a bank of its own, sends a byte with the
write strobe, and reads one with the read strobe. A byte that is sent is one that the card's
processor takes (`Standing.sendByte`), and a byte that is read is the next of the reply
(`Standing.readByte`). So a command comes over as it was sent, and the values it carries come back
(`values_come_back`).

The routines are those in the card's ROM, read off it at the addresses that are named, and they
are partial: each wait of the firmware is a test that must be passed at once (`awaitB`), and a
wait that would go round again makes the run come to nothing. The card answers a strobe within the
access, so there is never anything to wait for, and that every wait is passed is a part of what is
proved. The cycle of every access is arbitrary (`clock`), in any order as well, for the ticks of
the mouse come in between and change the status and the interrupts. They leave the parser and the
port alone (`advance_eq`).

A value is a statement about two commands at least. What POSMOUSE has set READMOUSE must return;
and CLAMPMOUSE, whose bounds only the peeks of the firmware can show, must leave the bounds of the
other axis alone. All 16 bits of each value are free, negative ones and crossed bounds included.
The status byte of a reply depends on what else has happened and is not told.

The card may have been through anything before: accesses, commands of the host, ticks, resets and
frames. Only its parser must be idle then (`Idle`), as otherwise the first byte would be taken for
the rest of another command; and it is idle again behind every exchange, so that the exchanges can
be strung together.
-/

namespace LinApple.Cards

open LinApple.Chips Byte

/-! ## The firmware -/

/-- A register of the 6821 of a slot. -/
def register (slot : Fin 8) (reg : Fin 4) : UInt16 :=
  0xC080 + UInt16.ofNat (slot.val * 16) + UInt16.ofNat reg.val

/-- A bank of the firmware, on the lines that select it. -/
def bankLines (bank : Fin 8) : UInt8 := UInt8.ofNat (bank.val * 2)

namespace MouseCard

/-- A register is loaded, changed and stored again. -/
def modify (slot : Fin 8) (reg : Fin 4) (f : UInt8 → UInt8) (loaded stored : Nat)
    (card : MouseCard) : Option MouseCard :=
  let r := card.mouseIoRead loaded (register slot reg)
  r.2.mouseIoWrite stored (register slot reg) (f r.1)

/-- A loop of the firmware that waits for a level of port B, where it need not wait. -/
def awaitB (slot : Fin 8) (ready : UInt8 → Bool) (now : Nat) (card : MouseCard) :
    Option (UInt8 × MouseCard) :=
  let r := card.mouseIoRead now (register slot 2)
  if ready r.1 then some r else none

/-- The bank switch (bank 0, `$C45B`). The accesses are at the cycles of `clock`. -/
def selectBank (slot bank : Fin 8) (clock : Nat → Nat) (card : MouseCard) : Option MouseCard := do
  let card ← card.modify slot 3 (· &&& 0xFB) (clock 0) (clock 1)
  let card ← card.mouseIoWrite (clock 2) (register slot 2) 0x3E
  let card ← card.modify slot 3 (· ||| 0x04) (clock 3) (clock 4)
  card.modify slot 2 (fun pins => (pins &&& 0xC1) ||| bankLines bank) (clock 5) (clock 6)

/-- Port A is turned one way (banks 3 and 6). -/
def directA (slot : Fin 8) (outputs : UInt8) (clock : Nat → Nat) (card : MouseCard) :
    Option MouseCard := do
  let card ← card.modify slot 1 (· &&& 0xFB) (clock 0) (clock 1)
  let card ← card.mouseIoWrite (clock 2) (register slot 0) outputs
  card.modify slot 1 (· ||| 0x04) (clock 3) (clock 4)

/-- **The write loop** (bank 3, `$C40A`): a byte to the card's processor. -/
def sendByte (slot bank : Fin 8) (byte : UInt8) (clock : Nat → Nat) (card : MouseCard) :
    Option MouseCard := do
  let card ← card.selectBank slot bank clock
  let (_, card) ← card.awaitB slot (· &&& busy = 0) (clock 7)
  let card ← card.directA slot 0xFF fun i => clock (8 + i)
  let card ← card.mouseIoWrite (clock 13) (register slot 0) byte
  let card ← card.modify slot 2 (· ||| writeStrobe) (clock 14) (clock 15)
  let (pins, card) ← card.awaitB slot (· &&& busy ≠ 0) (clock 16)
  card.mouseIoWrite (clock 17) (register slot 2) (pins &&& ~~~writeStrobe)

/-- **The read loop** (bank 6, `$C488`): a byte from the card's processor. -/
def readByte (slot bank : Fin 8) (clock : Nat → Nat) (card : MouseCard) :
    Option (UInt8 × MouseCard) := do
  let card ← card.selectBank slot bank clock
  let card ← card.directA slot 0x00 fun i => clock (7 + i)
  let (_, card) ← card.awaitB slot (· &&& byteReady ≠ 0) (clock 12)
  let (byte, card) := card.mouseIoRead (clock 13) (register slot 0)
  let card ← card.modify slot 2 (· ||| readStrobe) (clock 14) (clock 15)
  let (_, card) ← card.awaitB slot (· &&& byteReady = 0) (clock 16)
  let card ← card.modify slot 2 (· &&& ~~~readStrobe) (clock 17) (clock 18)
  return (byte, card)

/-- A command is sent; the accesses for a byte are at the cycles of its own clock. -/
def sendBytes (slot bank : Fin 8) : List UInt8 → List (Nat → Nat) → MouseCard → Option MouseCard
  | byte :: bytes, clock :: clocks, card =>
    (card.sendByte slot bank byte clock).bind (sendBytes slot bank bytes clocks)
  | [], _, card => some card
  | _ :: _, [], _ => none

/-- As many bytes of a reply are read as there are clocks. -/
def readBytes (slot bank : Fin 8) : List (Nat → Nat) → MouseCard →
    Option (List UInt8 × MouseCard)
  | clock :: clocks, card => do
    let (byte, card) ← card.readByte slot bank clock
    let (bytes, card) ← readBytes slot bank clocks card
    return (byte :: bytes, card)
  | [], card => some ([], card)

/-- **A command and its reply.** The accesses for the bytes, first of the one and then of
the other, are at the cycles of `clock`. -/
def exchange (slot bank : Fin 8) (bytes : List UInt8) (replies : Nat) (clock : Nat → Nat → Nat)
    (card : MouseCard) : Option (List UInt8 × MouseCard) := do
  let card ← card.sendBytes slot bank bytes ((List.range bytes.length).map clock)
  card.readBytes slot bank ((List.range replies).map fun i => clock (bytes.length + i))

/-- The peeks of some addresses, one after the other. -/
def peeks (slot bank : Fin 8) : List UInt8 → (Nat → Nat → Nat → Nat) → MouseCard →
    Option (List UInt8 × MouseCard)
  | address :: addresses, clock, card => do
    let (byte, card) ← card.exchange slot bank [0xF0, address, 0] 1 (clock 0)
    let (bytes, card) ← peeks slot bank addresses (fun i => clock (i + 1)) card
    return (byte ++ bytes, card)
  | [], _, card => some ([], card)

/-! ## What the processor has -/

/-- The values that commands carry. -/
structure MouseValues where
  /-- `position_x` and `position_y` -/
  position : Int16 × Int16
  /-- `min_x` and `max_x` -/
  clampX : Int16 × Int16
  /-- `min_y` and `max_y` -/
  clampY : Int16 × Int16

/-- What the card's processor has of the protocol: the buffer and its cursors, and the
values. -/
structure MouseCore where
  /-- `buffer` -/
  buffer : Vector UInt8 8
  /-- `pos` -/
  pos : Nat
  /-- `out_len` -/
  outLen : Nat
  /-- `in_len` -/
  inLen : Nat
  /-- `reply_pos` -/
  replyPos : Nat
  /-- The values. -/
  values : MouseValues

/-- The reply's cursor moves on, if it is not at the end. -/
def MouseCore.next (k : MouseCore) : MouseCore :=
  { k with replyPos := if k.replyPos < k.inLen then k.replyPos + 1 else k.replyPos }

/-- A byte of the reply. -/
def MouseCore.reply (k : MouseCore) (i : Nat) : UInt8 := (k.buffer[k.outLen + i]?).getD 0

/-- What port A presents after a byte was read: the next, or the last again. -/
def MouseCore.presented (k : MouseCore) (input : UInt8) : UInt8 :=
  if k.next.replyPos < k.inLen then k.reply k.next.replyPos else input

/-- What the processor has. -/
def core (card : MouseCard) : MouseCore :=
  ⟨card.buffer, card.pos, card.outLen, card.inLen, card.replyPos,
    ⟨(card.positionX, card.positionY), (card.minX, card.maxX), (card.minY, card.maxY)⟩⟩

/-- Port A on both sides of the 6821: `cra`, `ddra`, what is read, and `port_a_shadow`. -/
structure MousePortA where
  /-- `cra` -/
  cra : UInt8
  /-- `ddra` -/
  ddra : UInt8
  /-- `port_a_in` -/
  input : UInt8
  /-- `port_a_shadow` -/
  output : UInt8

/-- Port A. -/
def portA (card : MouseCard) : MousePortA :=
  ⟨card.pia.cra, card.pia.ddra, card.pia.portAIn, card.portAShadow⟩

/-- **A card whose port B is set up** by the firmware, with a core, a port A and the
levels of port B. -/
structure Standing (card : MouseCard) (k : MouseCore) (a : MousePortA) (levels : UInt8) : Prop where
  /-- The processor. -/
  core : card.core = k
  /-- Port A. -/
  portA : card.portA = a
  /-- Port B drives the lines to the card. -/
  ddrb : card.pia.ddrb = cardDriven
  /-- Its data are accessed, not its direction. -/
  crb : card.pia.crb &&& piaDdrSel ≠ 0
  /-- Its output is the levels'. -/
  orb : card.pia.orb &&& cardDriven = levels &&& cardDriven
  /-- Its pins are at the levels. -/
  portBIn : card.pia.portBIn = levels
  /-- So is the shadow. -/
  shadow : card.portBShadow = levels

/-- **The parser is idle**: no command is on its way, and no strobe is up. It is how the end of a
command leaves the card when the program has taken its strobes back, and so what the next one
finds. -/
structure Idle (card : MouseCard) : Prop where
  /-- No byte of a command has come. -/
  pos : card.pos = 0
  /-- No strobe is up. -/
  strobes : card.portBShadow &&& (readStrobe ||| writeStrobe) = 0

/-! ### The tick leaves all that alone -/

/-- What the tick changes. -/
theorem advance_eq (card : MouseCard) (now : Nat) : ∃ status pending irqAsserted level nextTick,
    card.advance now = { card with
      status := status
      pending := pending
      irqAsserted := irqAsserted
      level := level
      nextTick := nextTick } := by
  unfold advance fire
  simp only [setIrq_eq]
  split_ifs <;> exact ⟨_, _, _, _, _, rfl⟩

theorem pia_advance (card : MouseCard) (now : Nat) : (card.advance now).pia = card.pia := by
  obtain ⟨status, pending, irqAsserted, level, nextTick, hadvance⟩ := card.advance_eq now
  rw [hadvance]

/-- The register that an access is of. -/
theorem register_eq (slot : Fin 8) (reg : Fin 4) : Fin.ofNat 4 (register slot reg).toNat = reg := by
  revert slot reg
  decide

variable {card : MouseCard} {k : MouseCore} {a : MousePortA} {levels : UInt8}

/-- The levels of port B with a bank selected, and a strobe up or none. -/
def levelsOf (bank : Fin 8) (strobe : UInt8) : UInt8 :=
  bankLines bank ||| strobe ||| replyLevels strobe

/-- A control register that selects the data still does after an access cleared its
interrupts. -/
theorem and_ddrSel_cleared : ∀ cr : UInt8, cr &&& piaDdrSel ≠ 0 →
    (cr &&& ~~~(piaIrq1 ||| piaIrq2)) &&& piaDdrSel ≠ 0 :=
  forall_byte (by decide +kernel)

/-- The firmware selects a direction register. -/
theorem control_direction (cr val : UInt8) :
    Pia6821.control cr (val &&& 0xFB) &&& piaDdrSel = 0 := by
  unfold Pia6821.control
  rw [or_and_distrib_right, UInt8.and_assoc, UInt8.and_assoc, UInt8.and_assoc]
  change (cr &&& 0) ||| (val &&& 0) = 0
  rw [UInt8.and_zero, UInt8.and_zero]
  rfl

/-- The firmware selects the data. -/
theorem control_data (cr val : UInt8) :
    Pia6821.control cr (val ||| 0x04) &&& piaDdrSel ≠ 0 := by
  have hset : ∀ val : UInt8, (val ||| 0x04) &&& 0x04 ≠ 0 := forall_byte (by decide +kernel)
  unfold Pia6821.control
  rw [or_and_distrib_right, UInt8.and_assoc, UInt8.and_assoc]
  change (cr &&& 0) ||| ((val ||| 0x04) &&& 0x04) ≠ 0
  rw [UInt8.and_zero, UInt8.zero_or]
  exact hset val

/-- What drives and what is read make up the levels. -/
theorem driven_or_read : ∀ levels : UInt8,
    (levels &&& cardDriven) ||| (levels &&& ~~~cardDriven) = levels :=
  forall_byte (by decide +kernel)

/-- A read, by what the 6821 answers. -/
theorem mouseIoRead_eq {slot : Fin 8} {reg : Fin 4} {now : Nat} {val : UInt8} {pia : Pia6821}
    (h : (card.advance now).pia.pia6821Read reg = (val, pia)) :
    card.mouseIoRead now (register slot reg) = (val, { card.advance now with pia := pia }) := by
  unfold mouseIoRead
  rw [register_eq]
  dsimp only
  rw [h]

/-- A write, by what the 6821 makes of it. -/
theorem mouseIoWrite_eq {slot : Fin 8} {reg : Fin 4} {now : Nat} {val : UInt8} {pia : Pia6821}
    {out : Option PiaOutput} (h : (card.advance now).pia.pia6821Write reg val = (pia, out)) :
    card.mouseIoWrite now (register slot reg) val
      = ({ card.advance now with pia := pia } : MouseCard).listen now out := by
  unfold mouseIoWrite
  rw [register_eq]
  dsimp only
  rw [h]

namespace Standing

/-- The tick. -/
theorem advance (h : card.Standing k a levels) (now : Nat) :
    (card.advance now).Standing k a levels := by
  obtain ⟨status, pending, irqAsserted, level, nextTick, hadvance⟩ := card.advance_eq now
  rw [hadvance]
  exact { h with }

/-- Port B reads as its levels. -/
theorem readB (h : card.Standing k a levels) (slot : Fin 8) (now : Nat) :
    ∃ c, card.mouseIoRead now (register slot 2) = (levels, c) ∧ c.Standing k a levels := by
  have h := h.advance now
  refine ⟨_, mouseIoRead_eq ((if_neg h.crb).trans (Prod.ext ?_ rfl)),
    { h with crb := and_ddrSel_cleared _ h.crb }⟩
  change ((card.advance now).pia.orb &&& (card.advance now).pia.ddrb)
    ||| ((card.advance now).pia.portBIn &&& ~~~(card.advance now).pia.ddrb) = levels
  rw [h.ddrb, h.orb, h.portBIn]
  exact driven_or_read levels

/-- Port A reads as what the processor presents, when its data are accessed. -/
theorem readA (h : card.Standing k a levels) (hcra : a.cra &&& piaDdrSel ≠ 0) (slot : Fin 8)
    (now : Nat) : ∃ c, card.mouseIoRead now (register slot 0) = (a.input, c)
      ∧ c.Standing k { a with cra := a.cra &&& ~~~(piaIrq1 ||| piaIrq2) } levels := by
  have h := h.advance now
  have hport : (card.advance now).portA = a := h.portA
  obtain rfl := hport
  exact ⟨_, mouseIoRead_eq (if_neg hcra), { h with portA := rfl }⟩

/-- The control register of port A reads as something. -/
theorem readCra (h : card.Standing k a levels) (slot : Fin 8) (now : Nat) :
    ∃ val c, card.mouseIoRead now (register slot 1) = (val, c) ∧ c.Standing k a levels :=
  ⟨_, _, mouseIoRead_eq rfl, { h.advance now with }⟩

/-- The control register of port A is written. -/
theorem writeCra (h : card.Standing k a levels) (slot : Fin 8) (now : Nat) (val : UInt8) :
    ∃ c, card.mouseIoWrite now (register slot 1) val = some c
      ∧ c.Standing k { a with cra := Pia6821.control a.cra val } levels := by
  have h := h.advance now
  have hport : (card.advance now).portA = a := h.portA
  obtain rfl := hport
  exact ⟨_, mouseIoWrite_eq rfl, { h with portA := rfl }⟩

/-- The direction of port A is written. -/
theorem writeDdra (h : card.Standing k a levels) (hcra : a.cra &&& piaDdrSel = 0) (slot : Fin 8)
    (now : Nat) (val : UInt8) : ∃ c, card.mouseIoWrite now (register slot 0) val = some c
      ∧ c.Standing k { a with ddra := val } levels := by
  have h := h.advance now
  have hport : (card.advance now).portA = a := h.portA
  obtain rfl := hport
  exact ⟨_, mouseIoWrite_eq (Pia6821.pia6821Write_direction hcra val), { h with portA := rfl }⟩

/-- The data of port A are written. -/
theorem writeA (h : card.Standing k a levels) (hcra : a.cra &&& piaDdrSel ≠ 0) (slot : Fin 8)
    (now : Nat) (val : UInt8) : ∃ c, card.mouseIoWrite now (register slot 0) val = some c
      ∧ c.Standing k { a with output := val &&& a.ddra } levels := by
  have h := h.advance now
  have hport : (card.advance now).portA = a := h.portA
  obtain rfl := hport
  exact ⟨_, mouseIoWrite_eq (Pia6821.pia6821Write_data hcra val), { h with portA := rfl }⟩

/-- **Port A is turned.** -/
theorem directA (h : card.Standing k a levels) (slot : Fin 8) (outputs : UInt8)
    (clock : Nat → Nat) : ∃ c cra, card.directA slot outputs clock = some c
      ∧ cra &&& piaDdrSel ≠ 0 ∧ c.Standing k { a with cra := cra, ddra := outputs } levels := by
  obtain ⟨val, c, hread, h⟩ := h.readCra slot (clock 0)
  obtain ⟨c', hwrite, h⟩ := h.writeCra slot (clock 1) (val &&& 0xFB)
  obtain ⟨d, hdirect, h⟩ := h.writeDdra (control_direction a.cra val) slot (clock 2) outputs
  obtain ⟨val', d', hread', h⟩ := h.readCra slot (clock 3)
  obtain ⟨e, hwrite', h⟩ := h.writeCra slot (clock 4) (val' ||| 0x04)
  refine ⟨e, _, ?_, control_data _ val', h⟩
  simp only [MouseCard.directA, modify, hread, hwrite, hdirect, hread', hwrite',
    Option.bind_eq_bind, Option.bind_some]

end Standing

/-! ## The edges of port B -/

/-- The 6821 sees the shadow. -/
def showB (card : MouseCard) : MouseCard :=
  { card with pia := card.pia.pia6821SetPortB card.portBShadow }

/-- An edge of the write strobe alone. -/
theorem piaListenerB_write {data : UInt8} (now : Nat)
    (hdiff : (card.portBShadow ^^^ data) &&& cardDriven = writeStrobe) :
    card.piaListenerB now data = (onWriteStrobe { card with
      portBShadow := (card.portBShadow &&& ~~~cardDriven) ||| (data &&& cardDriven) } now data).map
        showB := by
  unfold piaListenerB
  rw [hdiff]
  change (onWriteStrobe _ now data).bind (fun c => some c.showB) = _
  rw [Option.map_eq_bind]
  rfl

/-- An edge of the read strobe alone. -/
theorem piaListenerB_read {data : UInt8} (now : Nat)
    (hdiff : (card.portBShadow ^^^ data) &&& cardDriven = readStrobe) :
    card.piaListenerB now data = (onReadStrobe { card with
      portBShadow := (card.portBShadow &&& ~~~cardDriven) ||| (data &&& cardDriven) } data).map
        showB := by
  unfold piaListenerB
  rw [hdiff]
  change (onReadStrobe _ data).bind (fun c => some c.showB) = _
  rw [Option.map_eq_bind]
  rfl

/-- What a strobe that goes up changes. -/
theorem edge_up : ∀ bank : Fin 8, ∀ strobe ∈ [writeStrobe, readStrobe],
    (levelsOf bank 0 ^^^ (bankLines bank ||| strobe)) &&& cardDriven = strobe
    ∧ (bankLines bank ||| strobe) &&& strobe ≠ 0
    ∧ (levelsOf bank 0 &&& ~~~cardDriven) ||| ((bankLines bank ||| strobe) &&& cardDriven)
      = levelsOf bank 0 ||| strobe := by
  decide +kernel

/-- What a strobe that goes down changes. -/
theorem edge_down : ∀ bank : Fin 8, ∀ strobe ∈ [writeStrobe, readStrobe],
    (levelsOf bank strobe ^^^ bankLines bank) &&& cardDriven = strobe
    ∧ bankLines bank &&& strobe = 0
    ∧ (levelsOf bank strobe &&& ~~~cardDriven) ||| (bankLines bank &&& cardDriven)
      = levelsOf bank strobe &&& ~~~strobe := by
  decide +kernel

/-- What the processor answers. -/
theorem edge_answers : ∀ bank : Fin 8,
    (levelsOf bank 0 ||| writeStrobe) ||| busy = levelsOf bank writeStrobe
    ∧ (levelsOf bank writeStrobe &&& ~~~writeStrobe) &&& ~~~busy = levelsOf bank 0
    ∧ (levelsOf bank 0 ||| readStrobe) &&& ~~~byteReady = levelsOf bank readStrobe
    ∧ (levelsOf bank readStrobe &&& ~~~readStrobe) ||| byteReady = levelsOf bank 0 := by
  decide

variable {bank : Fin 8}

/-- The write strobe goes up. -/
theorem piaListenerB_raiseWrite (hshadow : card.portBShadow = levelsOf bank 0) (now : Nat) :
    card.piaListenerB now (bankLines bank ||| writeStrobe)
      = some (showB { card with portBShadow := levelsOf bank writeStrobe }) := by
  obtain ⟨hdiff, hup, hplaced⟩ := edge_up bank writeStrobe (by decide)
  rw [piaListenerB_write now (hshadow ▸ hdiff), hshadow, hplaced, ← (edge_answers bank).1]
  exact congrArg (Option.map showB) (if_pos hup)

/-- The read strobe goes up. -/
theorem piaListenerB_raiseRead (hshadow : card.portBShadow = levelsOf bank 0) (now : Nat) :
    card.piaListenerB now (bankLines bank ||| readStrobe)
      = some (showB { card with portBShadow := levelsOf bank readStrobe }) := by
  obtain ⟨hdiff, hup, hplaced⟩ := edge_up bank readStrobe (by decide)
  rw [piaListenerB_read now (hshadow ▸ hdiff), hshadow, hplaced, ← (edge_answers bank).2.2.1]
  exact congrArg (Option.map showB) (if_pos hup)

/-- **The write strobe goes down**: the byte on port A is taken. -/
theorem piaListenerB_lowerWrite (hshadow : card.portBShadow = levelsOf bank writeStrobe)
    (now : Nat) {taken : MouseCard}
    (htaken : takeByte { card with portBShadow := levelsOf bank writeStrobe &&& ~~~writeStrobe }
      now card.portAShadow = some taken)
    (hkept : taken.portBShadow = levelsOf bank writeStrobe &&& ~~~writeStrobe) :
    card.piaListenerB now (bankLines bank)
      = some (showB { taken with portBShadow := levelsOf bank 0 }) := by
  obtain ⟨hdiff, hdown, hplaced⟩ := edge_down bank writeStrobe (by decide)
  rw [piaListenerB_write now (hshadow ▸ hdiff), hshadow, hplaced]
  unfold onWriteStrobe
  rw [if_neg (not_not.2 hdown), htaken, Option.map_some, Option.map_some, hkept,
    (edge_answers bank).2.1]

/-- **The read strobe goes down**: the next byte of the reply is presented. -/
theorem piaListenerB_lowerRead (hshadow : card.portBShadow = levelsOf bank readStrobe)
    (now : Nat) {presented : MouseCard}
    (hpresented : presentReply { card with
      portBShadow := levelsOf bank readStrobe &&& ~~~readStrobe
      replyPos := if card.replyPos < card.inLen then card.replyPos + 1 else card.replyPos }
        = some presented)
    (hkept : presented.portBShadow = levelsOf bank readStrobe &&& ~~~readStrobe) :
    card.piaListenerB now (bankLines bank)
      = some (showB { presented with portBShadow := levelsOf bank 0 }) := by
  obtain ⟨hdiff, hdown, hplaced⟩ := edge_down bank readStrobe (by decide)
  rw [piaListenerB_read now (hshadow ▸ hdiff), hshadow, hplaced]
  unfold onReadStrobe
  rw [if_neg (not_not.2 hdown)]
  have hnext : (if card.replyPos < card.inLen then
      { card with
        portBShadow := levelsOf bank readStrobe &&& ~~~readStrobe
        replyPos := card.replyPos + 1 }
      else { card with portBShadow := levelsOf bank readStrobe &&& ~~~readStrobe })
      = ({ card with
        portBShadow := levelsOf bank readStrobe &&& ~~~readStrobe
        replyPos := if card.replyPos < card.inLen then card.replyPos + 1 else card.replyPos }
        : MouseCard) := by
    split_ifs <;> rfl
  dsimp only
  rw [hnext, hpresented, Option.map_some, Option.map_some, hkept, (edge_answers bank).2.2.2]

/-- The outputs of port B in the firmware's loops. -/
theorem loop_outputs : ∀ bank : Fin 8, ∀ strobe ∈ [writeStrobe, readStrobe],
    (levelsOf bank 0 ||| strobe) &&& cardDriven = bankLines bank ||| strobe
    ∧ (bankLines bank ||| strobe) = levelsOf bank strobe &&& cardDriven
    ∧ (levelsOf bank strobe &&& ~~~strobe) &&& cardDriven = bankLines bank
    ∧ bankLines bank = levelsOf bank 0 &&& cardDriven := by
  decide +kernel

/-- **What the processor makes of a byte**: from its core and what port A presents, it
gets somewhere. -/
def Takes (byte : UInt8) (k : MouseCore) (input : UInt8) (Q : MouseCore → UInt8 → Prop) : Prop :=
  ∀ (c : MouseCard) (now : Nat), c.core = k → c.pia.portAIn = input →
    ∃ d, c.takeByte now byte = some d ∧ d.portBShadow = c.portBShadow
      ∧ d.portAShadow = c.portAShadow ∧ d.pia = c.pia.pia6821SetPortA d.pia.portAIn
      ∧ Q d.core d.pia.portAIn

/-- **The reply is presented.** -/
theorem present (card : MouseCard) (hfits : card.outLen + card.inLen ≤ 8) :
    ∃ d, card.presentReply = some d ∧ d.portBShadow = card.portBShadow ∧ d.core = card.core
      ∧ d.portAShadow = card.portAShadow
      ∧ d.pia = card.pia.pia6821SetPortA (if card.replyPos < card.inLen then
        card.core.reply card.replyPos else card.pia.portAIn) := by
  unfold presentReply
  by_cases hend : card.inLen ≤ card.replyPos
  · rw [if_pos hend, if_neg (by omega)]
    exact ⟨card, rfl, rfl, rfl, rfl, rfl⟩
  · have hin : card.outLen + card.replyPos < 8 := by omega
    have hbyte : card.buffer[card.outLen + card.replyPos]?
        = some (card.core.reply card.replyPos) := by
      change _ = some ((card.buffer[card.outLen + card.replyPos]?).getD 0)
      rw [Vector.getElem?_eq_getElem hin]
      rfl
    rw [if_neg hend, if_pos (by omega), hbyte]
    exact ⟨_, rfl, rfl, rfl, rfl, rfl⟩

/-- The 6821 drives port B. -/
def driveB (card : MouseCard) (val : UInt8) : MouseCard :=
  { card with pia := { card.pia with
    orb := val
    ocb2 := Pia6821.pulse card.pia.crb card.pia.ocb2 } }

namespace Standing

/-- A write to port B's data. -/
theorem writeB_eq (h : card.Standing k a levels) (slot : Fin 8) (now : Nat) (val : UInt8) :
    card.mouseIoWrite now (register slot 2) val
      = ((card.advance now).driveB val).piaListenerB now (val &&& cardDriven) := by
  have h := h.advance now
  have hout : val &&& (card.advance now).pia.ddrb = val &&& cardDriven := by rw [h.ddrb]
  rw [mouseIoWrite_eq (Pia6821.pia6821Write_dataB h.crb val), ← hout]
  rfl

/-- **A strobe goes up.** -/
theorem raise (h : card.Standing k a (levelsOf bank 0)) {s : UInt8}
    (hstrobe : s ∈ [writeStrobe, readStrobe]) (slot : Fin 8) (loaded stored : Nat) :
    ∃ c, card.modify slot 2 (· ||| s) loaded stored = some c
      ∧ c.Standing k a (levelsOf bank s) := by
  obtain ⟨c, hread, h⟩ := h.readB slot loaded
  have hlater := h.advance stored
  obtain ⟨hout, horb, -, -⟩ := loop_outputs bank s hstrobe
  unfold modify
  rw [hread]
  dsimp only
  rw [h.writeB_eq, hout]
  have hlistener : ∀ card : MouseCard, card.portBShadow = levelsOf bank 0 →
      card.piaListenerB stored (bankLines bank ||| s)
        = some (showB { card with portBShadow := levelsOf bank s }) := fun card hshadow => by
    obtain rfl | rfl : s = writeStrobe ∨ s = readStrobe := by simpa using hstrobe
    · exact piaListenerB_raiseWrite hshadow stored
    · exact piaListenerB_raiseRead hshadow stored
  refine ⟨_, hlistener _ hlater.shadow, { hlater with orb := ?_, portBIn := rfl, shadow := rfl }⟩
  exact hout.trans horb

/-- **The write strobe goes down.** -/
theorem lowerWrite (h : card.Standing k a (levelsOf bank writeStrobe))
    {Q : MouseCore → UInt8 → Prop} (htakes : Takes a.output k a.input Q) (slot : Fin 8)
    (now : Nat) :
    ∃ c k' input, card.mouseIoWrite now (register slot 2)
        (levelsOf bank writeStrobe &&& ~~~writeStrobe) = some c
      ∧ c.Standing k' { a with input := input } (levelsOf bank 0) ∧ Q k' input := by
  have hlater := h.advance now
  obtain ⟨-, -, hout, hdriven⟩ := loop_outputs bank writeStrobe (by decide)
  -- as for a read of the port: the clock runs on, and then the listener takes the byte
  rw [h.writeB_eq, hout]
  have hport := hlater.portA
  obtain rfl := hport
  generalize card.advance now = card at hlater htakes
  have hdown : (card.driveB (levelsOf bank writeStrobe &&& ~~~writeStrobe)).portBShadow
      = levelsOf bank writeStrobe := hlater.shadow
  obtain ⟨d, htake, hshadow, houtput, hpia, hQ⟩ := htakes
    { card.driveB (levelsOf bank writeStrobe &&& ~~~writeStrobe) with
      portBShadow := levelsOf bank writeStrobe &&& ~~~writeStrobe } now hlater.core rfl
  refine ⟨_, _, _, piaListenerB_lowerWrite hdown now htake hshadow, ?_, hQ⟩
  constructor
  case core => rfl
  case portA =>
    change MousePortA.mk d.pia.cra d.pia.ddra d.pia.portAIn d.portAShadow = _
    rw [hpia, houtput]
    rfl
  case ddrb =>
    change d.pia.ddrb = cardDriven
    rw [hpia]
    exact hlater.ddrb
  case crb =>
    change d.pia.crb &&& piaDdrSel ≠ 0
    rw [hpia]
    exact hlater.crb
  case orb =>
    change d.pia.orb &&& cardDriven = _
    rw [hpia]
    exact hout.trans hdriven
  case portBIn => rfl
  case shadow => rfl

/-- **The read strobe goes down.** -/
theorem lowerRead (h : card.Standing k a (levelsOf bank readStrobe))
    (hfits : k.outLen + k.inLen ≤ 8) (slot : Fin 8) (loaded stored : Nat) :
    ∃ c, card.modify slot 2 (· &&& ~~~readStrobe) loaded stored = some c
      ∧ c.Standing k.next { a with input := k.presented a.input } (levelsOf bank 0) := by
  obtain ⟨c, hread, h⟩ := h.readB slot loaded
  have hlater := h.advance stored
  obtain ⟨-, -, hout, hdriven⟩ := loop_outputs bank readStrobe (by decide)
  unfold modify
  rw [hread]
  dsimp only
  -- the access writes port B, and the chip's own clock runs on before the listener is called
  rw [h.writeB_eq, hout]
  have hport := hlater.portA
  have hcore := hlater.core
  obtain rfl := hport
  obtain rfl := hcore
  generalize c.advance stored = card at hlater hfits
  have hdown : (card.driveB (levelsOf bank readStrobe &&& ~~~readStrobe)).portBShadow
      = levelsOf bank readStrobe := hlater.shadow
  obtain ⟨d, hpresent, hshadow, hcore, houtput, hpia⟩ := present
    { card.driveB (levelsOf bank readStrobe &&& ~~~readStrobe) with
      portBShadow := levelsOf bank readStrobe &&& ~~~readStrobe
      replyPos := if card.replyPos < card.inLen then card.replyPos + 1 else card.replyPos } hfits
  refine ⟨_, piaListenerB_lowerRead hdown stored hpresent hshadow, ?_⟩
  constructor
  case core => exact hcore
  case portA =>
    change MousePortA.mk d.pia.cra d.pia.ddra d.pia.portAIn d.portAShadow = _
    rw [hpia, houtput]
    rfl
  case ddrb =>
    change d.pia.ddrb = cardDriven
    rw [hpia]
    exact hlater.ddrb
  case crb =>
    change d.pia.crb &&& piaDdrSel ≠ 0
    rw [hpia]
    exact hlater.crb
  case orb =>
    change d.pia.orb &&& cardDriven = _
    rw [hpia]
    exact hout.trans hdriven
  case portBIn => rfl
  case shadow => rfl

end Standing

/-! ## The bank switch -/

/-- **A card between bytes**: no strobe is up, and the levels of port B answer that. -/
structure Resting (card : MouseCard) (k : MouseCore) (a : MousePortA) : Prop where
  /-- The processor. -/
  core : card.core = k
  /-- Port A. -/
  portA : card.portA = a
  /-- No strobe is up. -/
  strobes : card.portBShadow &&& (readStrobe ||| writeStrobe) = 0
  /-- The levels answer the strobes. -/
  handshake : card.portBShadow &&& piaInputs = replyLevels card.portBShadow
  /-- The 6821 sees the shadow. -/
  portBIn : card.pia.portBIn = card.portBShadow

/-- With no strobe up, another bank is no edge. -/
theorem bank_edges : ∀ bank : Fin 8, ∀ shadow : UInt8,
    shadow &&& (readStrobe ||| writeStrobe) = 0 → shadow &&& piaInputs = replyLevels shadow →
    (shadow ^^^ bankLines bank) &&& cardDriven &&& writeStrobe = 0
    ∧ (shadow ^^^ bankLines bank) &&& cardDriven &&& readStrobe = 0
    ∧ (shadow &&& ~~~cardDriven) ||| (bankLines bank &&& cardDriven) = levelsOf bank 0
    ∧ ((shadow ^^^ bankLines bank) &&& cardDriven = 0 → shadow = levelsOf bank 0) :=
  fun bank => forall_byte (by revert bank; decide +kernel)

/-- What the firmware drives for a bank. -/
theorem bank_outputs : ∀ bank : Fin 8, ∀ pins : UInt8,
    ((pins &&& 0xC1) ||| bankLines bank) &&& cardDriven = bankLines bank
    ∧ bankLines bank = levelsOf bank 0 &&& cardDriven :=
  fun bank => forall_byte (by revert bank; decide +kernel)

/-- A bank is selected. -/
theorem piaListenerB_bank (now : Nat)
    (hstrobes : card.portBShadow &&& (readStrobe ||| writeStrobe) = 0)
    (hhandshake : card.portBShadow &&& piaInputs = replyLevels card.portBShadow)
    (hpins : card.pia.portBIn = card.portBShadow) :
    card.piaListenerB now (bankLines bank)
      = some (showB { card with portBShadow := levelsOf bank 0 }) := by
  obtain ⟨hwrite, hread, hplaced, hsame⟩ := bank_edges bank _ hstrobes hhandshake
  unfold piaListenerB
  dsimp only
  by_cases hdiff : (card.portBShadow ^^^ bankLines bank) &&& cardDriven = 0
  · have hpia : card.pia.pia6821SetPortB card.portBShadow = card.pia := by
      rw [← hpins]
      rfl
    rw [if_pos hdiff, ← hsame hdiff]
    change some card = some { card with pia := card.pia.pia6821SetPortB card.portBShadow }
    rw [hpia]
  · rw [if_neg hdiff, hplaced, if_neg (not_not.2 hwrite)]
    simp only [Option.bind_eq_bind, Option.bind_some, if_neg (not_not.2 hread)]
    rfl

namespace Resting

/-- The tick. -/
theorem advance (h : card.Resting k a) (now : Nat) : (card.advance now).Resting k a := by
  obtain ⟨status, pending, irqAsserted, level, nextTick, hadvance⟩ := card.advance_eq now
  rw [hadvance]
  exact { h with }

/-- The control register of port B reads as something. -/
theorem readCrb (h : card.Resting k a) (slot : Fin 8) (now : Nat) :
    ∃ val c, card.mouseIoRead now (register slot 3) = (val, c) ∧ c.Resting k a
      ∧ c.pia.ddrb = card.pia.ddrb :=
  ⟨_, _, mouseIoRead_eq rfl, { h.advance now with }, congrArg Pia6821.ddrb (pia_advance card now)⟩

/-- The control register of port B is written. -/
theorem writeCrb (h : card.Resting k a) (slot : Fin 8) (now : Nat) (val : UInt8) :
    ∃ c, card.mouseIoWrite now (register slot 3) val = some c ∧ c.Resting k a
      ∧ c.pia.ddrb = card.pia.ddrb ∧ ∃ cr, c.pia.crb = Pia6821.control cr val := by
  have hddrb : (card.advance now).pia.ddrb = card.pia.ddrb :=
    congrArg Pia6821.ddrb (pia_advance card now)
  exact ⟨_, mouseIoWrite_eq rfl, { h.advance now with }, hddrb, _, rfl⟩

/-- The direction of port B is written. -/
theorem writeDdrb (h : card.Resting k a) (hcrb : card.pia.crb &&& piaDdrSel = 0) (slot : Fin 8)
    (now : Nat) (val : UInt8) : ∃ c, card.mouseIoWrite now (register slot 2) val = some c
      ∧ c.Resting k a ∧ c.pia.ddrb = val := by
  have hcrb : (card.advance now).pia.crb &&& piaDdrSel = 0 := by rwa [pia_advance]
  exact ⟨_, mouseIoWrite_eq (Pia6821.pia6821Write_directionB hcrb val), { h.advance now with }, rfl⟩

/-- The bank's lines are driven. -/
theorem driveBank (h : card.Resting k a) (hddrb : card.pia.ddrb = cardDriven)
    (hcrb : card.pia.crb &&& piaDdrSel ≠ 0) (slot bank : Fin 8) (loaded stored : Nat) :
    ∃ c, card.modify slot 2 (fun pins => (pins &&& 0xC1) ||| bankLines bank) loaded stored = some c
      ∧ c.Standing k a (levelsOf bank 0) := by
  have hloaded : (card.advance loaded).pia.crb &&& piaDdrSel ≠ 0 := by rwa [pia_advance]
  obtain ⟨pins, c, hread, h, hdirection, hdata⟩ : ∃ pins c,
      card.mouseIoRead loaded (register slot 2) = (pins, c) ∧ c.Resting k a
      ∧ c.pia.ddrb = cardDriven ∧ c.pia.crb &&& piaDdrSel ≠ 0 := by
    refine ⟨_, _, mouseIoRead_eq (if_neg hloaded), { h.advance loaded with }, ?_, ?_⟩
    · exact (congrArg Pia6821.ddrb (pia_advance card loaded)).trans hddrb
    · exact and_ddrSel_cleared _ hloaded
  have hstored : (c.advance stored).pia.crb &&& piaDdrSel ≠ 0 := by rwa [pia_advance]
  obtain ⟨hout, hdriven⟩ := bank_outputs bank pins
  have hval : ((pins &&& 0xC1) ||| bankLines bank) &&& (c.advance stored).pia.ddrb
      = bankLines bank := by rw [pia_advance, hdirection, hout]
  have hlater := h.advance stored
  unfold modify
  rw [hread]
  dsimp only
  rw [mouseIoWrite_eq (Pia6821.pia6821Write_dataB hstored _), hval]
  refine ⟨_, piaListenerB_bank stored hlater.strobes hlater.handshake hlater.portBIn, ?_⟩
  exact {
    core := hlater.core
    portA := hlater.portA
    ddrb := (congrArg Pia6821.ddrb (pia_advance c stored)).trans hdirection
    crb := hstored
    orb := hout.trans hdriven
    portBIn := rfl
    shadow := rfl }

/-- **A bank is selected.** -/
theorem selectBank (h : card.Resting k a) (slot bank : Fin 8) (clock : Nat → Nat) :
    ∃ c, card.selectBank slot bank clock = some c ∧ c.Standing k a (levelsOf bank 0) := by
  obtain ⟨val, c, hread, h, -⟩ := h.readCrb slot (clock 0)
  obtain ⟨c', hwrite, h, -, cr, hcrb⟩ := h.writeCrb slot (clock 1) (val &&& 0xFB)
  obtain ⟨d, hdirect, h, hddrb⟩ :=
    h.writeDdrb (hcrb ▸ control_direction cr val) slot (clock 2) 0x3E
  obtain ⟨val', d', hread', h, hddrb'⟩ := h.readCrb slot (clock 3)
  obtain ⟨e, hwrite', h, hddrb'', cr', hcrb'⟩ := h.writeCrb slot (clock 4) (val' ||| 0x04)
  obtain ⟨r, hbank, h⟩ := h.driveBank ((hddrb''.trans hddrb').trans hddrb)
    (hcrb' ▸ control_data cr' val') slot bank (clock 5) (clock 6)
  refine ⟨r, ?_, h⟩
  unfold MouseCard.selectBank
  rw [modify, hread]
  dsimp only
  rw [hwrite, Option.bind_eq_bind, Option.bind_some, hdirect, Option.bind_some, modify, hread']
  dsimp only
  rw [hwrite', Option.bind_some, hbank]

end Resting

/-- The firmware leaves a card between bytes. -/
theorem Standing.resting (h : card.Standing k a (levelsOf bank 0)) : card.Resting k a where
  core := h.core
  portA := h.portA
  strobes := by
    have hnone : ∀ bank : Fin 8, levelsOf bank 0 &&& (readStrobe ||| writeStrobe) = 0 := by decide
    rw [h.shadow, hnone]
  handshake := by
    have hanswered : ∀ bank : Fin 8, levelsOf bank 0 &&& piaInputs = replyLevels (levelsOf bank 0) := by
      decide
    rw [h.shadow, hanswered]
  portBIn := h.portBIn.trans h.shadow.symm

/-! ## Bytes -/

/-- What the firmware's loops wait for is there. -/
theorem loop_levels : ∀ bank : Fin 8, levelsOf bank 0 &&& busy = 0
    ∧ levelsOf bank writeStrobe &&& busy ≠ 0 ∧ levelsOf bank 0 &&& byteReady ≠ 0
    ∧ levelsOf bank readStrobe &&& byteReady = 0 := by
  decide

/-- The firmware need not wait. -/
theorem Standing.awaitB (h : card.Standing k a levels) {p : UInt8 → Bool}
    (hready : p levels = true) (slot : Fin 8) (now : Nat) :
    ∃ c, card.awaitB slot p now = some (levels, c) ∧ c.Standing k a levels := by
  obtain ⟨c, hread, h⟩ := h.readB slot now
  refine ⟨c, ?_, h⟩
  unfold MouseCard.awaitB
  rw [hread]
  exact if_pos hready

/-- **A byte that is sent is taken.** -/
theorem Resting.sendByte (h : card.Resting k a) {byte : UInt8} {Q : MouseCore → UInt8 → Prop}
    (htakes : Takes byte k a.input Q) (slot bank : Fin 8) (clock : Nat → Nat) :
    ∃ c k' a', card.sendByte slot bank byte clock = some c ∧ c.Resting k' a' ∧ Q k' a'.input := by
  obtain ⟨hidle, hbusy, -, -⟩ := loop_levels bank
  obtain ⟨c₁, hbank, h⟩ := h.selectBank slot bank clock
  obtain ⟨c₂, hfree, h⟩ := h.awaitB (p := (· &&& busy = 0)) (decide_eq_true hidle) slot (clock 7)
  obtain ⟨c₃, cra, hdirect, hcra, h⟩ := h.directA slot 0xFF fun i => clock (8 + i)
  obtain ⟨c₄, hwrite, h⟩ := h.writeA hcra slot (clock 13) byte
  obtain ⟨c₅, hraise, h⟩ := h.raise (s := writeStrobe) (by decide) slot (clock 14) (clock 15)
  obtain ⟨c₆, htaking, h⟩ :=
    h.awaitB (p := (· &&& busy ≠ 0)) (decide_eq_true hbusy) slot (clock 16)
  have hoffered : Takes (byte &&& 0xFF) k a.input Q := by
    rwa [show byte &&& 0xFF = byte from UInt8.and_neg_one]
  obtain ⟨c₇, k', input, hlower, h, hQ⟩ := h.lowerWrite hoffered slot (clock 17)
  refine ⟨c₇, k', _, ?_, h.resting, hQ⟩
  simp only [MouseCard.sendByte, hbank, hfree, hdirect, hwrite, hraise, htaking, hlower,
    Option.bind_eq_bind, Option.bind_some]

/-- **A byte that is read is the one presented**, and the next is presented then. -/
theorem Resting.readByte (h : card.Resting k a) (hfits : k.outLen + k.inLen ≤ 8)
    (slot bank : Fin 8) (clock : Nat → Nat) :
    ∃ c a', card.readByte slot bank clock = some (a.input, c) ∧ c.Resting k.next a'
      ∧ a'.input = k.presented a.input := by
  obtain ⟨-, -, hthere, hgone⟩ := loop_levels bank
  obtain ⟨c₁, hbank, h⟩ := h.selectBank slot bank clock
  obtain ⟨c₂, cra, hdirect, hcra, h⟩ := h.directA slot 0x00 fun i => clock (7 + i)
  obtain ⟨c₃, hready, h⟩ :=
    h.awaitB (p := (· &&& byteReady ≠ 0)) (decide_eq_true hthere) slot (clock 12)
  obtain ⟨c₄, hread, h⟩ := h.readA hcra slot (clock 13)
  obtain ⟨c₅, hraise, h⟩ := h.raise (s := readStrobe) (by decide) slot (clock 14) (clock 15)
  obtain ⟨c₆, htaken, h⟩ :=
    h.awaitB (p := (· &&& byteReady = 0)) (decide_eq_true hgone) slot (clock 16)
  obtain ⟨c₇, hlower, h⟩ := h.lowerRead hfits slot (clock 17) (clock 18)
  refine ⟨c₇, _, ?_, h.resting, rfl⟩
  simp only [MouseCard.readByte, hbank, hdirect, hready, hread, hraise, htaken, hlower,
    Option.bind_eq_bind, Option.bind_some]
  rfl

/-! ## Commands -/

/-- What the processor has of a command whose first bytes have come. -/
def MouseCore.collected (bytes : List UInt8) (v : MouseValues) : MouseCore where
  buffer := Vector.ofFn fun i => bytes.getD i 0
  pos := bytes.length
  outLen := commandOutLen (bytes.headD 0)
  inLen := commandInLen (bytes.headD 0)
  replyPos := 0
  values := v

/-- **The processor has the first bytes of a command**, or is idle. The two cases meet at the
empty list; with one byte or more the state is given in full, so that a byte less or more is
another state. -/
structure MouseCore.Has (k : MouseCore) (bytes : List UInt8) (v : MouseValues) : Prop where
  /-- Its values. -/
  values : k.values = v
  /-- Before the first byte it is idle. -/
  idle : bytes = [] → k.pos = 0
  /-- After it, it has what has come. -/
  collected : bytes ≠ [] → k = .collected bytes v

/-- **A byte is collected.** -/
theorem core_collect {bytes : List UInt8} {v : MouseValues} (h : k.Has bytes v)
    (hlen : bytes.length < 8) {c : MouseCard} (hc : c.core = k) (byte : UInt8) :
    (c.collect byte).core = .collected (bytes ++ [byte]) v := by
  unfold collect
  -- the first byte clears the buffer and later ones go behind it
  by_cases hnone : bytes = []
  · subst hnone
    have hpos : c.pos = 0 := (congrArg MouseCore.pos hc).trans (h.idle rfl)
    have hvalues : c.core.values = v := (congrArg MouseCore.values hc).trans h.values
    rw [if_pos hpos]
    have hbuffer : (Vector.replicate 8 (0 : UInt8)).set 0 byte
        = Vector.ofFn fun i => [byte].getD i 0 := by
      ext i hi
      rw [Vector.getElem_set, Vector.getElem_ofFn]
      cases i <;> simp
    change MouseCore.mk _ 1 _ _ 0 c.core.values = _
    rw [hbuffer, hvalues]
    rfl
  · have hcore := h.collected hnone
    subst hc
    have hpos : c.pos = bytes.length := congrArg MouseCore.pos hcore
    have hbuffer : c.buffer = Vector.ofFn fun i => bytes.getD i 0 :=
      congrArg MouseCore.buffer hcore
    have hhead : (bytes ++ [byte]).headD 0 = bytes.headD 0 := by
      cases bytes with
      | nil => exact absurd rfl hnone
      | cons b bytes => rfl
    have hne : c.pos ≠ 0 := by
      rw [hpos]
      exact fun hzero => hnone (List.length_eq_zero_iff.1 hzero)
    have hin : c.pos < 8 := by omega
    rw [if_neg hne, dif_pos hin]
    have hset : c.buffer.set c.pos byte hin
        = Vector.ofFn fun i => (bytes ++ [byte]).getD i 0 := by
      ext i hi
      simp only [Vector.getElem_set, hbuffer, hpos, Vector.getElem_ofFn,
        List.getD_eq_getElem?_getD, List.getElem?_append]
      split_ifs with hhere hbefore hbefore
      · omega
      · rw [← hhere, Nat.sub_self]
        rfl
      · rfl
      · rw [List.getElem?_eq_none (by omega), List.getElem?_eq_none (by rw [List.length_singleton]; omega)]
    change MouseCore.mk (c.buffer.set c.pos byte hin) (c.pos + 1) c.core.outLen c.core.inLen
      c.core.replyPos c.core.values = _
    rw [hset, hpos, hcore]
    unfold MouseCore.collected
    rw [hhead, List.length_append, List.length_singleton]

/-- The ports are none of the processor's. -/
theorem portAShadow_collect (c : MouseCard) (byte : UInt8) :
    (c.collect byte).portAShadow = c.portAShadow := by
  unfold collect
  split_ifs <;> rfl

/-- **A byte that is not the last is collected.** -/
theorem takes_more {bytes : List UInt8} {v : MouseValues} (h : k.Has bytes v) {byte input : UInt8}
    (hlen : bytes.length < 8) (hmore : bytes.length + 1 < commandOutLen ((bytes ++ [byte]).headD 0)) :
    Takes byte k input fun k' input' => k' = .collected (bytes ++ [byte]) v ∧ input' = input := by
  intro c now hc hinput
  have hcollect := core_collect h hlen hc byte
  have hports : (c.collect byte).ports = c.ports := ports_collect byte
  have hpos : (c.collect byte).pos = bytes.length + 1 :=
    (congrArg MouseCore.pos hcollect).trans (by simp [MouseCore.collected])
  have hout : (c.collect byte).outLen = commandOutLen ((bytes ++ [byte]).headD 0) :=
    congrArg MouseCore.outLen hcollect
  have hpia : (c.collect byte).pia = c.pia := congrArg Prod.snd hports
  refine ⟨c.collect byte, if_pos (by rw [hpos, hout]; exact hmore), congrArg Prod.fst hports,
    portAShadow_collect c byte, ?_, hcollect, ?_⟩
  · rw [hpia]
    rfl
  · rw [hpia, hinput]

/-- **The processor answers a command**: it has other values, and bytes for a reply. -/
structure MouseCore.Answers (k : MouseCore) (cmd : UInt8) (v : MouseValues)
    (replies : List UInt8) : Prop where
  /-- The values. -/
  values : k.values = v
  /-- The reply lies behind the command. -/
  outLen : k.outLen = commandOutLen cmd
  /-- So long is the reply. -/
  inLen : k.inLen = commandInLen cmd
  /-- None of it has been read. -/
  replyPos : k.replyPos = 0
  /-- The bytes of the reply. -/
  reply : (List.range replies.length).map k.reply = replies
  /-- They are all of the reply, or its first. -/
  length_le : replies.length ≤ commandInLen cmd

/-- **What a command comes to**: other values, and a reply. -/
def Executes (bytes : List UInt8) (v v' : MouseValues) (P : List UInt8 → Prop) : Prop :=
  ∀ (c : MouseCard) (now : Nat), c.core = .collected bytes v →
    (∃ replies, P replies ∧ (c.execute now).core.Answers (bytes.headD 0) v' replies)
    ∧ (c.execute now).portAShadow = c.portAShadow

/-- A command that has come is carried out, and the first byte of its reply presented. -/
structure MouseCore.Done (k : MouseCore) (bytes : List UInt8) (v : MouseValues)
    (P : List UInt8 → Prop) (input input' : UInt8) : Prop where
  /-- The parser is idle again. -/
  pos : k.pos = 0
  /-- The processor answers. -/
  answers : ∃ replies, P replies ∧ k.Answers (bytes.headD 0) v replies
  /-- What is presented. -/
  presented : input' = if 0 < k.inLen then k.reply 0 else input

/-- **The last byte of a command carries it out.** -/
theorem takes_last {bytes : List UInt8} {v v' : MouseValues} (h : k.Has bytes v) {byte input : UInt8}
    (hlen : bytes.length < 8) (hlast : bytes.length + 1 = commandOutLen ((bytes ++ [byte]).headD 0))
    {P : List UInt8 → Prop} (hexecutes : Executes (bytes ++ [byte]) v v' P) :
    Takes byte k input fun k' input' => k'.Done (bytes ++ [byte]) v' P input input' := by
  intro c now hc hinput
  have hcollect := core_collect h hlen hc byte
  have hports : ((c.collect byte).execute now).ports = c.ports :=
    (ports_execute now).trans (ports_collect byte)
  have hpos : (c.collect byte).pos = bytes.length + 1 :=
    (congrArg MouseCore.pos hcollect).trans (by simp [MouseCore.collected])
  have hout : (c.collect byte).outLen = commandOutLen ((bytes ++ [byte]).headD 0) :=
    congrArg MouseCore.outLen hcollect
  obtain ⟨⟨replies, hP, hanswers⟩, houtput⟩ := hexecutes (c.collect byte) now hcollect
  have hpia : ((c.collect byte).execute now).pia = c.pia := congrArg Prod.snd hports
  have hstart : ((c.collect byte).execute now).replyPos = 0 := hanswers.replyPos
  have hfits : ((c.collect byte).execute now).outLen + ((c.collect byte).execute now).inLen ≤ 8 := by
    have hlengths := (command_lengths ((bytes ++ [byte]).headD 0)).2.2
    rw [← hanswers.outLen, ← hanswers.inLen] at hlengths
    exact hlengths
  obtain ⟨d, hpresent, hshadow, hcore', houtput', hpia'⟩ :=
    present { (c.collect byte).execute now with pos := 0 } hfits
  have hdpia : d.pia = c.pia.pia6821SetPortA d.pia.portAIn := by
    rw [hpia']
    change ((c.collect byte).execute now).pia.pia6821SetPortA _ = _
    rw [hpia]
    rfl
  refine ⟨d, ?_, hshadow.trans (congrArg Prod.fst hports),
    houtput'.trans (houtput.trans (portAShadow_collect c byte)), hdpia, ?_⟩
  · exact (if_neg (by rw [hpos, hout, hlast]; exact Nat.lt_irrefl _)).trans hpresent
  · rw [hcore', hpia', ← hinput, ← hpia]
    refine ⟨rfl, ⟨replies, hP, { hanswers with }⟩, ?_⟩
    change (if ((c.collect byte).execute now).replyPos < _ then MouseCore.reply _
      ((c.collect byte).execute now).replyPos else _) = _
    rw [hstart]
    rfl

/-- **A command that is sent is carried out**, from its bytes so far. -/
theorem Resting.sendBytes {sent rest : List UInt8} {v v' : MouseValues} (h : card.Resting k a)
    (hhas : k.Has sent v) (hrest : rest ≠ [])
    (hlen : (sent ++ rest).length = commandOutLen ((sent ++ rest).headD 0))
    {P : List UInt8 → Prop} (hexecutes : Executes (sent ++ rest) v v' P)
    (slot bank : Fin 8) {clocks : List (Nat → Nat)} (hclocks : clocks.length = rest.length) :
    ∃ c k' a', card.sendBytes slot bank rest clocks = some c ∧ c.Resting k' a'
      ∧ k'.Done (sent ++ rest) v' P a.input a'.input := by
  -- on the bytes still to send; the last one completes the command and the card executes it
  induction rest generalizing sent card k a clocks with
  | nil => exact absurd rfl hrest
  | cons byte rest ih =>
    obtain ⟨clock, clocks, rfl⟩ : ∃ clock later, clocks = clock :: later := by
      cases clocks with
      | nil => simp at hclocks
      | cons clock later => exact ⟨clock, later, rfl⟩
    have hshort := (command_lengths ((sent ++ byte :: rest).headD 0)).2.1
    have hsplit : sent ++ byte :: rest = sent ++ [byte] ++ rest := by simp
    have hhead : (sent ++ byte :: rest).headD 0 = (sent ++ [byte]).headD 0 := by
      cases sent <;> rfl
    have hcount : (sent ++ byte :: rest).length = sent.length + 1 + rest.length := by
      rw [List.length_append, List.length_cons]
      omega
    by_cases hlast : rest = []
    · subst hlast
      obtain ⟨c, k', a', hsend, hrests, hdone⟩ := h.sendByte
        (takes_last hhas (by omega) (by rw [← hhead, ← hlen, hcount]; rfl) hexecutes)
        slot bank clock
      refine ⟨c, k', a', ?_, hrests, hdone⟩
      unfold MouseCard.sendBytes
      rw [hsend]
      rfl
    · have hpos : 0 < rest.length := List.length_pos_iff.2 hlast
      obtain ⟨c, k', a', hsend, hrests, rfl, hinput⟩ := h.sendByte
        (takes_more hhas (by omega) (by rw [← hhead, ← hlen, hcount]; omega)) slot bank clock
      have hnext : (MouseCore.collected (sent ++ [byte]) v).Has (sent ++ [byte]) v :=
        ⟨rfl, fun h => absurd h (by simp), fun _ => rfl⟩
      rw [hsplit] at hlen hexecutes
      obtain ⟨d, k'', a'', hsends, hrests, hdone⟩ :=
        ih hrests hnext hlast hlen hexecutes (by simpa using hclocks)
      rw [← hsplit, hinput] at hdone
      refine ⟨d, k'', a'', ?_, hrests, hdone⟩
      unfold MouseCard.sendBytes
      rw [hsend]
      exact hsends

/-- **A reply that is read is what the buffer holds.** -/
theorem Resting.readBytes (h : card.Resting k a) (hfits : k.outLen + k.inLen ≤ 8)
    (slot bank : Fin 8) {clocks : List (Nat → Nat)}
    (hclocks : k.replyPos + clocks.length ≤ k.inLen)
    (hinput : k.replyPos < k.inLen → a.input = k.reply k.replyPos) :
    ∃ c a' k', card.readBytes slot bank clocks
        = some ((List.range clocks.length).map fun i => k.reply (k.replyPos + i), c)
      ∧ c.Resting k' a' ∧ k'.pos = k.pos ∧ k'.values = k.values := by
  induction clocks generalizing card k a with
  | nil => exact ⟨card, a, k, rfl, h, rfl, rfl⟩
  | cons clock clocks ih =>
    rw [List.length_cons] at hclocks
    have hmore : k.replyPos < k.inLen := by omega
    have hnext : k.next.replyPos = k.replyPos + 1 := if_pos hmore
    obtain ⟨c, a', hread, hrests, hpresented⟩ := h.readByte hfits slot bank clock
    obtain ⟨d, a'', k', hreads, hrests, hpos, hvalues⟩ := ih hrests hfits
      (by rw [hnext]; change _ ≤ k.inLen; omega) fun hlt => hpresented.trans (if_pos hlt)
    refine ⟨d, a'', k', ?_, hrests, hpos, hvalues⟩
    have hrest : ((List.range clocks.length).map fun i => k.next.reply (k.next.replyPos + i))
        = (List.range clocks.length).map fun i => k.reply (k.replyPos + (i + 1)) := by
      refine List.map_congr_left fun i _ => ?_
      rw [hnext, Nat.add_assoc, Nat.add_comm 1 i]
      rfl
    unfold MouseCard.readBytes
    simp only [hread, hreads, Option.bind_eq_bind, Option.bind_some]
    rw [hrest, hinput hmore, List.length_cons, List.range_succ_eq_map, List.map_cons, List.map_map]
    rfl

/-- **A command and its reply**, from an idle card to an idle card. -/
theorem Resting.exchange {bytes : List UInt8} {v v' : MouseValues} (h : card.Resting k a)
    (hidle : k.pos = 0) (hvalues : k.values = v)
    {P : List UInt8 → Prop} (hexecutes : Executes bytes v v' P)
    (hlen : bytes.length = commandOutLen (bytes.headD 0)) {n : Nat} (hn : ∀ replies, P replies → replies.length = n)
    (slot bank : Fin 8) (clock : Nat → Nat → Nat) :
    ∃ replies c k' a', P replies ∧ card.exchange slot bank bytes n clock = some (replies, c)
      ∧ c.Resting k' a' ∧ k'.pos = 0 ∧ k'.values = v' := by
  have hbytes : bytes ≠ [] := fun hnone => by
    have hpos := (command_lengths (bytes.headD 0)).1
    rw [← hlen, hnone] at hpos
    exact absurd hpos (by decide)
  have hhas : k.Has [] v := ⟨hvalues, fun _ => hidle, fun h => absurd rfl h⟩
  obtain ⟨c, k', a', hsend, hrests, hdone⟩ := h.sendBytes hhas hbytes hlen hexecutes slot bank
    (by simp : ((List.range bytes.length).map clock).length = bytes.length)
  obtain ⟨replies, hP, hanswers⟩ := hdone.answers
  have hcount := hn replies hP
  have hfits : k'.outLen + k'.inLen ≤ 8 := by
    rw [hanswers.outLen, hanswers.inLen]
    exact (command_lengths _).2.2
  have hclocks : ((List.range n).map fun i => clock (bytes.length + i)).length = n := by simp
  have hwhole : k'.replyPos + ((List.range n).map fun i => clock (bytes.length + i)).length
      ≤ k'.inLen := by
    rw [hclocks, hanswers.replyPos, hanswers.inLen, Nat.zero_add, ← hcount]
    exact hanswers.length_le
  obtain ⟨d, a'', k'', hread, hrests, hpos, hvalues'⟩ := hrests.readBytes hfits slot bank hwhole
    fun hlt => by
      rw [hanswers.replyPos] at hlt ⊢
      rw [hdone.presented, if_pos hlt]
  refine ⟨replies, d, k'', a'', hP, ?_, hrests, hpos.trans hdone.pos, hvalues'.trans hanswers.values⟩
  have hreplies : ((List.range n).map fun i => k'.reply (k'.replyPos + i)) = replies := by
    rw [hanswers.replyPos, ← hcount]
    simp only [Nat.zero_add]
    exact hanswers.reply
  unfold MouseCard.exchange
  rw [hsend, Option.bind_eq_bind, Option.bind_some, hread, hclocks, hreplies]

/-! ## The commands with values -/

/-- A value comes together again. -/
theorem wordOf_bytes (value : Int16) : wordOf (lowByte value) (highByte value) = value := by
  have hword : ∀ w : UInt16, word (w &&& 0xFF).toUInt8 (w >>> 8).toUInt8 = w := fun w => by
    rw [← UInt16.toNat_inj, toNat_word]
    have hlow : (w &&& 0xFF).toUInt8.toNat = w.toNat % 256 := by
      have hmod : w.toNat % 256 < 2 ^ 8 := Nat.mod_lt _ (by decide)
      simpa using Nat.and_two_pow_sub_one_of_lt_two_pow hmod
    have hhigh : (w >>> 8).toUInt8.toNat = w.toNat / 256 := by
      have hlt := w.toNat_lt
      simp [Nat.shiftRight_eq_div_pow]
      omega
    omega
  exact congrArg Int16.ofUInt16 (hword value.toUInt16)

variable {v : MouseValues}

/-- The bytes of a command that has come. -/
theorem buffer_collected {bytes : List UInt8} {c : MouseCard} (hc : c.core = .collected bytes v)
    {i : Nat} (hi : i < 8) : c.buffer[i] = bytes.getD i 0 := by
  have hbuffer : c.buffer = Vector.ofFn fun i => bytes.getD i 0 := congrArg MouseCore.buffer hc
  rw [hbuffer]
  exact Vector.getElem_ofFn hi

/-- The lengths of the commands with values. -/
theorem value_lengths : ∀ cmd : UInt8, cmd &&& 0xF0 = 0x40 ∨ cmd &&& 0xF0 = 0x60 →
    commandOutLen cmd = 5 ∧ commandInLen cmd = 0 :=
  forall_byte (by decide +kernel)

theorem read_lengths : ∀ cmd : UInt8, cmd &&& 0xF0 = 0x10 →
    commandOutLen cmd = 1 ∧ commandInLen cmd = 5 :=
  forall_byte (by decide +kernel)

/-- **POSMOUSE** sets the position. -/
theorem executes_pos {cmd : UInt8} (hcmd : cmd &&& 0xF0 = 0x40) (x y : Int16) :
    Executes [cmd, lowByte x, highByte x, lowByte y, highByte y] v { v with position := (x, y) }
      (· = []) := by
  intro c now hc
  have h0 : c.buffer[0] = cmd := buffer_collected hc (by decide)
  have h1 : c.buffer[1] = lowByte x := buffer_collected hc (by decide)
  have h2 : c.buffer[2] = highByte x := buffer_collected hc (by decide)
  have h3 : c.buffer[3] = lowByte y := buffer_collected hc (by decide)
  have h4 : c.buffer[4] = highByte y := buffer_collected hc (by decide)
  have hvalues : c.core.values = v := congrArg MouseCore.values hc
  rw [execute_pos_mouse (h0 ▸ hcmd), h1, h2, h3, h4, wordOf_bytes, wordOf_bytes]
  refine ⟨⟨[], rfl, ?_, congrArg MouseCore.outLen hc, congrArg MouseCore.inLen hc,
    congrArg MouseCore.replyPos hc, rfl, Nat.zero_le _⟩, rfl⟩
  rw [← hvalues]
  rfl

/-- **CLAMPMOUSE** sets the clamps of an axis. -/
theorem executes_clamp {cmd : UInt8} (hcmd : cmd &&& 0xF0 = 0x60) (low high : Int16) :
    Executes [cmd, lowByte low, lowByte high, highByte low, highByte high] v
      (if cmd &&& 0x01 ≠ 0 then { v with clampY := (low, high) }
        else { v with clampX := (low, high) }) (· = []) := by
  intro c now hc
  have h0 : c.buffer[0] = cmd := buffer_collected hc (by decide)
  have h1 : c.buffer[1] = lowByte low := buffer_collected hc (by decide)
  have h2 : c.buffer[2] = lowByte high := buffer_collected hc (by decide)
  have h3 : c.buffer[3] = highByte low := buffer_collected hc (by decide)
  have h4 : c.buffer[4] = highByte high := buffer_collected hc (by decide)
  have hvalues : c.core.values = v := congrArg MouseCore.values hc
  rw [execute_clamp_mouse (h0 ▸ hcmd)]
  unfold executeClampMouse
  rw [h0, h1, h2, h3, h4, wordOf_bytes, wordOf_bytes]
  dsimp only
  rw [← hvalues]
  split_ifs <;> exact ⟨⟨[], rfl, rfl, congrArg MouseCore.outLen hc, congrArg MouseCore.inLen hc,
    congrArg MouseCore.replyPos hc, rfl, Nat.zero_le _⟩, rfl⟩

/-- **READMOUSE** answers with the position and a byte of status. -/
theorem executes_read {cmd : UInt8} (hcmd : cmd &&& 0xF0 = 0x10) :
    Executes [cmd] v v fun replies => ∃ status, replies = [lowByte v.position.1,
      highByte v.position.1, lowByte v.position.2, highByte v.position.2, status] := by
  intro c now hc
  have h0 : c.buffer[0] = cmd := buffer_collected hc (by decide)
  have hvalues : c.core.values = v := congrArg MouseCore.values hc
  have hout : c.outLen = 1 := (congrArg MouseCore.outLen hc).trans (read_lengths cmd hcmd).1
  subst hvalues
  rw [execute_read_mouse (h0 ▸ hcmd)]
  refine ⟨⟨_, ⟨c.executeReadMouse.buffer[5], rfl⟩, rfl, congrArg MouseCore.outLen hc,
    congrArg MouseCore.inLen hc, congrArg MouseCore.replyPos hc, ?_,
    Nat.le_of_eq (read_lengths cmd hcmd).2.symm⟩, rfl⟩
  have hreply (i : Nat) :
      c.executeReadMouse.core.reply i = (c.executeReadMouse.buffer[1 + i]?).getD 0 := by
    change (c.executeReadMouse.buffer[c.outLen + i]?).getD 0 = _
    rw [hout]
  rw [funext hreply]
  simp [List.range_succ, executeReadMouse, core]

/-- The byte at an address of the clamps. -/
def MouseValues.peekByte (v : MouseValues) (address : UInt8) : UInt8 :=
  if address = 0x4E then lowByte v.clampY.2
  else if address = 0x4D then lowByte v.clampX.2
  else if address = 0x4C then highByte v.clampY.2
  else if address = 0x4B then highByte v.clampX.2
  else if address = 0x4A then lowByte v.clampY.1
  else if address = 0x49 then lowByte v.clampX.1
  else if address = 0x48 then highByte v.clampY.1
  else if address = 0x47 then highByte v.clampX.1
  else 0

/-- An address of page zero is peeked as the byte it has there. -/
theorem peekByte_zeroPage (c : MouseCard) (address : UInt8) :
    c.peekByte (word address 0) = c.core.values.peekByte address := by
  have hword : word address 0 = address.toUInt16 := by
    rw [← UInt16.toNat_inj, toNat_word]
    simp
  have hiff : ∀ address : UInt8, (address.toUInt16 = 0x4E ↔ address = 0x4E)
      ∧ (address.toUInt16 = 0x4D ↔ address = 0x4D) ∧ (address.toUInt16 = 0x4C ↔ address = 0x4C)
      ∧ (address.toUInt16 = 0x4B ↔ address = 0x4B) ∧ (address.toUInt16 = 0x4A ↔ address = 0x4A)
      ∧ (address.toUInt16 = 0x49 ↔ address = 0x49) ∧ (address.toUInt16 = 0x48 ↔ address = 0x48)
      ∧ (address.toUInt16 = 0x47 ↔ address = 0x47) :=
    forall_byte (by decide +kernel)
  obtain ⟨h1, h2, h3, h4, h5, h6, h7, h8⟩ := hiff address
  rw [hword]
  unfold peekByte MouseValues.peekByte
  simp only [h1, h2, h3, h4, h5, h6, h7, h8]
  rfl

theorem peek_lengths : commandOutLen 0xF0 = 3 ∧ commandInLen 0xF0 = 1 := by decide

/-- **A peek** answers with the byte at its address. -/
theorem executes_peek (address : UInt8) :
    Executes [0xF0, address, 0] v v (· = [v.peekByte address]) := by
  intro c now hc
  have h0 : c.buffer[0] = 0xF0 := buffer_collected hc (by decide)
  have h1 : c.buffer[1] = address := buffer_collected hc (by decide)
  have h2 : c.buffer[2] = 0 := buffer_collected hc (by decide)
  have hvalues : c.core.values = v := congrArg MouseCore.values hc
  have hout : c.core.outLen = 3 := by
    rw [hc, MouseCore.collected, List.headD_cons]
    exact peek_lengths.1
  subst hvalues
  rw [execute_peek h0, h1, h2, peekByte_zeroPage]
  refine ⟨⟨_, rfl, rfl, congrArg MouseCore.outLen hc, congrArg MouseCore.inLen hc,
    congrArg MouseCore.replyPos hc, ?_, Nat.le_of_eq peek_lengths.2.symm⟩, rfl⟩
  change [((c.buffer.set 3 (c.core.values.peekByte address))[c.core.outLen + 0]?).getD 0] = _
  rw [hout]
  simp

/-- **The peeks of some addresses**, from an idle card to an idle card. -/
theorem Resting.peeks (h : card.Resting k a) (hidle : k.pos = 0) (hvalues : k.values = v)
    (slot bank : Fin 8) (addresses : List UInt8) (clock : Nat → Nat → Nat → Nat) :
    ∃ c k' a', card.peeks slot bank addresses clock = some (addresses.map v.peekByte, c)
      ∧ c.Resting k' a' ∧ k'.pos = 0 ∧ k'.values = v := by
  induction addresses generalizing card k a clock with
  | nil => exact ⟨card, k, a, rfl, h, hidle, hvalues⟩
  | cons address addresses ih =>
    obtain ⟨_, c, k', a', rfl, hpeek, hrests, hidle, hvalues⟩ :=
      h.exchange hidle hvalues (executes_peek address) peek_lengths.1.symm (n := 1)
        (by rintro _ rfl; rfl) slot bank (clock 0)
    obtain ⟨d, k'', a'', hpeeks, hrests, hidle, hvalues⟩ :=
      ih hrests hidle hvalues fun i => clock (i + 1)
    refine ⟨d, k'', a'', ?_, hrests, hidle, hvalues⟩
    unfold MouseCard.peeks
    rw [hpeek, Option.bind_eq_bind, Option.bind_some]
    dsimp only
    rw [hpeeks]
    rfl

/-! ## Values come back -/

/-- The addresses of the clamps, in the order in which the firmware peeks them. -/
def clampAddresses : List UInt8 := [0x4E, 0x4D, 0x4C, 0x4B, 0x4A, 0x49, 0x48, 0x47]

/-- The bytes of the clamps at these addresses. -/
def clampBytes (x y : Int16 × Int16) : List UInt8 :=
  [lowByte y.2, lowByte x.2, highByte y.2, highByte x.2, lowByte y.1, lowByte x.1, highByte y.1,
    highByte x.1]

/-- A card between bytes whose parser is idle. -/
theorem Consistent.resting (h : card.Consistent) (hidle : card.Idle) :
    card.Resting card.core card.portA :=
  ⟨rfl, rfl, hidle.strobes, h.handshake, h.portBIn⟩

/-- A card is idle again. -/
theorem Resting.idle (h : card.Resting k a) (hpos : k.pos = 0) : card.Idle :=
  ⟨(congrArg MouseCore.pos h.core).trans hpos, h.strobes⟩

/-- **Values come back.** Whatever has happened to a card, if its parser is idle then, at
whatever cycles, POSMOUSE and READMOUSE return the position that was sent, CLAMPMOUSE and the
peeks the bounds of the axis that were sent with those of the other left as they were, and
the parser is idle again after each. -/
theorem values_come_back {slot : Int} {start : Nat} {level : Bool} {card : MouseCard}
    (hcard : mouseAbiInit slot start level = some card) (steps : List MouseStep) :
    Ends (steps.foldlM step card) fun c => c.Idle → ∀ slot bank : Fin 8,
      (∀ pos read : UInt8, pos &&& 0xF0 = 0x40 → read &&& 0xF0 = 0x10 → ∀ x y sending reading,
        ∃ d e status,
          c.exchange slot bank [pos, lowByte x, highByte x, lowByte y, highByte y] 0 sending
            = some ([], d) ∧ d.Idle ∧
          d.exchange slot bank [read] 5 reading
            = some ([lowByte x, highByte x, lowByte y, highByte y, status], e) ∧ e.Idle) ∧
      (∀ clamp : UInt8, clamp &&& 0xF0 = 0x60 → ∀ low high sending reading, ∃ d e,
        c.exchange slot bank [clamp, lowByte low, lowByte high, highByte low, highByte high] 0 sending
          = some ([], d) ∧ d.Idle ∧
        d.peeks slot bank clampAddresses reading
          = some (if clamp &&& 0x01 ≠ 0 then clampBytes (c.minX, c.maxX) (low, high)
              else clampBytes (low, high) (c.minY, c.maxY), e) ∧ e.Idle) := by
  have hinit : card.Consistent := by
    unfold mouseAbiInit at hcard
    split at hcard
    · cases hcard
    · obtain rfl := Option.some.inj hcard
      exact .resetCard _ start
  -- any run keeps the card consistent, and a consistent idle card rests: it takes a command
  refine (Ends.foldlM (fun c s _ hc => hc.step s) hinit).mono fun c hc hidle slot bank => ?_
  have hrests := hc.resting hidle
  have hnone : ∀ replies : List UInt8, replies = [] → replies.length = 0 := by
    rintro _ rfl
    rfl
  constructor
  · intro pos read hpos hread x y sending reading
    -- the first exchange sets the values, the second reads them from the card it leaves
    obtain ⟨_, d, k', a', rfl, hsend, hsent, hidle', hvalues⟩ := hrests.exchange hidle.pos rfl
      (executes_pos hpos x y) (value_lengths pos (.inl hpos)).1.symm hnone slot bank sending
    obtain ⟨_, e, k'', a'', ⟨status, rfl⟩, hreply, hreplied, hidle'', -⟩ :=
      hsent.exchange hidle' hvalues (executes_read hread) (read_lengths read hread).1.symm
        (n := 5) (by rintro _ ⟨status, rfl⟩; rfl) slot bank reading
    exact ⟨d, e, status, hsend, hsent.idle hidle', hreply, hreplied.idle hidle''⟩
  · intro clamp hclamp low high sending reading
    obtain ⟨_, d, k', a', rfl, hsend, hsent, hidle', hvalues⟩ := hrests.exchange hidle.pos rfl
      (executes_clamp hclamp low high) (value_lengths clamp (.inr hclamp)).1.symm hnone slot bank
      sending
    obtain ⟨e, k'', a'', hpeeks, hpeeked, hidle'', -⟩ :=
      hsent.peeks hidle' hvalues slot bank clampAddresses reading
    refine ⟨d, e, hsend, hsent.idle hidle', hpeeks.trans ?_, hpeeked.idle hidle''⟩
    split_ifs <;> rfl

/-- What a card in slot 4 is told: the byte of SETMOUSE that turns tracking on, as the firmware's
bank 3 sends it, and that the mouse has moved. -/
def trackingSteps : List MouseStep :=
  [.write 5 0xC0C3 0x00, .write 6 0xC0C2 0x3E, .write 7 0xC0C3 0x04, .write 8 0xC0C2 0x06,
    .write 9 0xC0C1 0x00, .write 10 0xC0C0 0xFF, .write 11 0xC0C1 0x04, .write 12 0xC0C0 0x01,
    .write 13 0xC0C2 0x26, .write 14 0xC0C2 0x06, .command 0x00060002 (.move 3 4)]

/-- A card that tracks the mouse, which has moved by 3 and 4: its parser is idle, so whatever is
sent to it then comes back. -/
theorem values_come_back_tracking :
    Ends (trackingSteps.foldlM step ((new false).resetCard 0)) fun c =>
      (c.mode = 1 ∧ c.positionX = 3 ∧ c.positionY = 4) ∧ c.Idle ∧ ∀ slot bank : Fin 8,
      (∀ pos read : UInt8, pos &&& 0xF0 = 0x40 → read &&& 0xF0 = 0x10 → ∀ x y sending reading,
        ∃ d e status,
          c.exchange slot bank [pos, lowByte x, highByte x, lowByte y, highByte y] 0 sending
            = some ([], d) ∧ d.Idle ∧
          d.exchange slot bank [read] 5 reading
            = some ([lowByte x, highByte x, lowByte y, highByte y, status], e) ∧ e.Idle) ∧
      (∀ clamp : UInt8, clamp &&& 0xF0 = 0x60 → ∀ low high sending reading, ∃ d e,
        c.exchange slot bank [clamp, lowByte low, lowByte high, highByte low, highByte high] 0 sending
          = some ([], d) ∧ d.Idle ∧
        d.peeks slot bank clampAddresses reading
          = some (if clamp &&& 0x01 ≠ 0 then clampBytes (c.minX, c.maxX) (low, high)
              else clampBytes (low, high) (c.minY, c.maxY), e) ∧ e.Idle) := by
  obtain ⟨c, hc, hback⟩ := @values_come_back 4 0 false _ rfl trackingSteps
  have hcard : (trackingSteps.foldlM step ((new false).resetCard 0)).any (fun c =>
      decide ((c.mode = 1 ∧ c.positionX = 3 ∧ c.positionY = 4) ∧ c.pos = 0
        ∧ c.portBShadow &&& (readStrobe ||| writeStrobe) = 0)) = true := by
    decide +kernel
  rw [hc] at hcard
  obtain ⟨hmoved, hpos, hstrobes⟩ := of_decide_eq_true hcard
  exact ⟨c, hc, hmoved, ⟨hpos, hstrobes⟩, hback ⟨hpos, hstrobes⟩⟩

end MouseCard

end LinApple.Cards
