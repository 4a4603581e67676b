import LinApple.Slots.Dispatch

/-!
# The cards and what they answer

A card is registered in a slot; while it initialises it asks the host to
enter it in the I/O tables. The tables do not point to the card: they point
to a bridge, which looks up who is in the slot, or who has claimed the
address, each time it is called. So what answers an access is decided by the
tables, the slots and the list of claims together (`Host.route`).
-/

namespace LinApple.Slots

open Memory

/-- **A card in a slot** (`ActivePeripheral`), less its event. `I` are the
instances of cards and `H` their functions. -/
structure ActivePeripheral (I H : Type) where
  /-- `instance`, which is not known before the card has initialised. -/
  inst : Option I
  /-- `read_c0` -/
  readC0 : Option H
  /-- `write_c0` -/
  writeC0 : Option H
  /-- `read_cx` -/
  readCx : Option H
  /-- `write_cx` -/
  writeCx : Option H
  /-- `expansion_rom` -/
  expansionRom : Option ExpansionRom

/-- `DirectIoHandler` -/
structure DirectIoHandler (I H : Type) where
  /-- `addr` -/
  addr : UInt16
  /-- `read` -/
  read : Option H
  /-- `write` -/
  write : Option H
  /-- `on_strobe` -/
  onStrobe : Option H
  /-- `instance` -/
  inst : I

/-- **The peripheral host.** -/
structure Host (I H : Type) where
  /-- The memory and its tables. -/
  io : IoMemory
  /-- `active_peripherals` -/
  active : Slot → List (ActivePeripheral I H)
  /-- `direct_io_handlers`, as many as there are. -/
  direct : List (DirectIoHandler I H)

/-- What a card asks the host for. -/
inductive HostCall (H : Type) where
  /-- `RegisterIO` -/
  | registerIo (readC0 writeC0 readCx writeCx : Option H)
  /-- `RegisterCxROM` -/
  | registerCxRom (rom : PageData)
  /-- `RegisterExpansionROM` -/
  | registerExpansionRom (rom : Option ExpansionRom)
  /-- `RegisterDirectIO` -/
  | registerDirectIo (addr : UInt16) (read write : Option H)
  /-- `RegisterDirectIOStrobe` -/
  | registerDirectIoStrobe (addr : UInt16) (onStrobe : H)

/-- **A card**: what its `init` asks for in turn, and whether it succeeds. The list is arbitrary.
What a card asks for may depend on what it was answered before, and then it is the list of what it
came to ask for. -/
structure Card (I H : Type) where
  /-- Whether the ABI version and the slot are right. -/
  compatible : Slot → Bool
  /-- The instance `init` makes. -/
  inst : I
  /-- What `init` asks for. -/
  calls : List (HostCall H)
  /-- Whether `init` returns the instance. -/
  ok : Bool

/-- `io_direct_count` -/
def ioDirectCount : Nat := 128

variable {I H : Type}

namespace ActivePeripheral

/-- A card that has entered nothing. -/
def new : ActivePeripheral I H := ⟨none, none, none, none, none, none⟩

/-- `read_c0` or `write_c0` -/
def c0 (ap : ActivePeripheral I H) (write : Bool) : Option H :=
  if write then ap.writeC0 else ap.readC0

/-- `read_cx` or `write_cx` -/
def cx (ap : ActivePeripheral I H) (write : Bool) : Option H :=
  if write then ap.writeCx else ap.readCx

end ActivePeripheral

/-- `read` or `write` -/
def DirectIoHandler.handler (e : DirectIoHandler I H) (write : Bool) : Option H :=
  if write then e.write else e.read

/-- A bridge is entered where the card has a function. -/
def bridge (f : IoFunction) (handler : Option H) : Option IoFunction := handler.map fun _ => f

/-- A card's functions and its expansion ROM are entered. -/
def IoMemory.registerSlot (slot : Slot) (ap : ActivePeripheral I H) (io : IoMemory) :
    IoMemory :=
  io.registerIoHandler slot (bridge .slotC0 ap.readC0) (bridge .slotC0 ap.writeC0)
    (bridge .slotCx ap.readCx) (bridge .slotCx ap.writeCx) ap.expansionRom

/-! ## What answers an access -/

/-- **What answers an access.** -/
inductive Route (I H : Type) where
  /-- `io_null`, or a function that does and answers the same. -/
  | null
  /-- A function of the machine itself. -/
  | default
  /-- `mem_set_paging` -/
  | paging
  /-- `io_read_cxxx` -/
  | rom
  /-- A function of a card. -/
  | card (inst : Option I) (handler : H)
  /-- A strobe of a card, and `io_null`. -/
  | strobe (inst : I) (handler : H)

/-- Whether an access reaches an instance. -/
def Route.Reaches (inst : I) : Route I H → Prop
  | .card i _ => i = some inst
  | .strobe i _ => i = inst
  | _ => False

/-- Where `io_read_c0xx[i >> 4]` or `io_write_c0xx[i >> 4]` does and answers
what `io_null` does: a read of the floating bus, a write that is not
noticed. -/
def answersNull (ty : Apple2Type) (a : UInt16) (write : Bool) : Bool :=
  let n := a.toNat % 0x10
  match write, a.toNat % 0x100 / 0x10 with
  | false, 0x1 => ty.isApple2
  | false, 0x2 | false, 0x3 | false, 0x4 => true
  | false, 0x6 => n % 8 = 0
  | false, 0x7 => n ≠ 0xF
  | true, 0x1 | true, 0x2 | true, 0x3 | true, 0x4 | true, 0x6 | true, 0x7 => true
  | true, 0x5 => 0x8 ≤ n && n ≤ 0xD
  | _, _ => false

/-- A claim's strobe of an address. -/
def DirectIoHandler.strobes (a : UInt16) (e : DirectIoHandler I H) : Option (Route I H) :=
  if e.addr = a then e.onStrobe.map (.strobe e.inst) else none

/-- A claim's function for an address. -/
def DirectIoHandler.answers (a : UInt16) (write : Bool) (e : DirectIoHandler I H) :
    Option (Route I H) :=
  if e.addr = a then (e.handler write).map (.card (some e.inst)) else none

/-- `direct_io_read_bridge` and `direct_io_write_bridge`: a strobe first, and
then a function. -/
def directRoute (direct : List (DirectIoHandler I H)) (a : UInt16) (write : Bool) : Route I H :=
  (direct.findSome? (·.strobes a) <|> direct.findSome? (·.answers a write)).getD .null

/-- The bridges of a slot: the first card that has a function. -/
def slotRoute (aps : List (ActivePeripheral I H)) (handler : ActivePeripheral I H → Option H) :
    Route I H :=
  (aps.findSome? fun ap => (handler ap).map (.card ap.inst)).getD .null

/-- `io_read` or `io_write` -/
def IoMemory.table (io : IoMemory) (write : Bool) : Nat → Option IoFunction :=
  if write then io.ioWrite else io.ioRead

/-- The entry of an address in `$C000-$CFFF`. -/
def tableIndex (a : UInt16) : Nat :=
  if a.toNat / 0x100 = 0xC0 then a.toNat % 0x100 else 0x100 + a.toNat / 0x100 % 0x10

namespace Host

variable (ty : Apple2Type) (h : Host I H)

/-- What an entry of a table comes to. -/
def resolve (a : UInt16) (write : Bool) : Option IoFunction → Route I H
  | none | some .ioNull => .null
  | some .c0xx => if answersNull ty a write then .null else .default
  | some .setPaging => .paging
  | some .cxxx => if write then .null else .rom
  | some .slotC0 => slotRoute (h.active (Fin.ofNat 8 (a.toNat / 0x10))) (·.c0 write)
  | some .slotCx => slotRoute (h.active (Fin.ofNat 8 (a.toNat / 0x100))) (·.cx write)
  | some .directIo => directRoute h.direct a write

/-- **What answers an access**, where the tables are asked. -/
def route (a : UInt16) (write : Bool) : Route I H :=
  h.resolve ty a write (h.io.table write (tableIndex a))

/-! ## Registration -/

/-- A claim is added to the list, if there is room, and to the tables. -/
def addDirect (e : DirectIoHandler I H) (read write : Option IoFunction) : Host I H :=
  if h.direct.length ≥ ioDirectCount then h
  else
    { h with
      direct := h.direct ++ [e]
      io := h.io.registerDirectIoHandler e.addr read write }

/-- The functions of the last card in a slot change. -/
def updateLast (slot : Slot) (f : ActivePeripheral I H → ActivePeripheral I H) : Host I H :=
  match (h.active slot).getLast? with
  | none => h
  | some ap =>
    { h with
      active := Function.update h.active slot ((h.active slot).dropLast ++ [f ap])
      io := h.io.registerSlot slot (f ap) }

/-- **What a card asks for is done.** -/
def hostCall (slot : Slot) (inst : I) (h : Host I H) : HostCall H → Host I H
  | .registerIo readC0 writeC0 readCx writeCx => h.updateLast slot fun ap =>
    { ap with readC0 := readC0, writeC0 := writeC0, readCx := readCx, writeCx := writeCx }
  | .registerCxRom rom => { h with io := h.io.storeCxRom slot rom }
  | .registerExpansionRom rom => h.updateLast slot fun ap => { ap with expansionRom := rom }
  | .registerDirectIo addr read write =>
    h.addDirect ⟨addr, read, write, none, inst⟩ (bridge .directIo read) (bridge .directIo write)
  | .registerDirectIoStrobe addr onStrobe =>
    h.addDirect ⟨addr, none, none, some onStrobe, inst⟩ (some .directIo) (some .directIo)

/-- The checks `peripheral_register` makes. -/
def accepts (card : Card I H) (slot : Slot) : Bool :=
  card.compatible slot && (slot = 0 || (h.active slot).isEmpty)

/-- The card is in the slot, and its `init` has run. -/
def initCard (card : Card I H) (slot : Slot) : Host I H :=
  card.calls.foldl (hostCall slot card.inst)
    { h with active := Function.update h.active slot (h.active slot ++ [.new]) }

/-- **`peripheral_register`**. A card that fails is taken out of the slot. -/
def peripheralRegister (card : Card I H) (slot : Slot) : Host I H :=
  if h.accepts card slot then
    let t := h.initCard card slot
    let aps := t.active slot
    if card.ok then
      { t with
        active := Function.update t.active slot
          (aps.modifyLast fun ap => { ap with inst := some card.inst }) }
    else { t with active := Function.update t.active slot aps.dropLast }
  else h

variable [DecidableEq I]

/-- `remove_direct_io_handlers_for_instance` -/
def removeDirect (h : Host I H) : Option I → Host I H
  | none => h
  | some inst =>
    { h with
      io := (h.direct.filter (·.inst = inst)).foldl
        (fun io e => io.registerDirectIoHandler e.addr none none) h.io
      direct := h.direct.filter (·.inst ≠ inst) }

/-- **`peripheral_unregister`** -/
def peripheralUnregister (slot : Slot) : Host I H :=
  let t := (h.active slot).foldl (fun h ap => h.removeDirect ap.inst) h
  { t with
    active := Function.update t.active slot []
    io := (t.io.registerIoHandler slot none none none none none).storeCxRom slot fun _ => 0 }

end Host

end LinApple.Slots
