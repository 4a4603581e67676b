import LinApple.Memory.Snapshot

/-!
# The I/O space

An access in `$C000-$CFFF` is answered by a function: the tables `io_read`
and `io_write` have one for every address of `$C0xx` and one for every other
page. The pages of the slots and the window at `$C800-$CFFF`, which the
expansion ROMs of all slots share, are answered by `io_read_cxxx` unless a
card has its own function. Which ROM the window shows is decided by reading
in it and by reading the slots' pages, and so a read may change the image.
-/

namespace LinApple.Slots

open Memory

/-- A slot, below `num_slots`. -/
abbrev Slot := Fin 8

/-- An expansion ROM, page by page. -/
abbrev ExpansionRom := Fin 8 → PageData

/-- The functions that are entered in the tables. -/
inductive IoFunction where
  /-- `io_null` -/
  | ioNull
  /-- `io_read_c0xx[i >> 4]` or `io_write_c0xx[i >> 4]`, entered at `i`. -/
  | c0xx
  /-- `io_read_cxxx` or `io_write_cxxx` -/
  | cxxx
  /-- `mem_set_paging` -/
  | setPaging
  /-- `slot_read_c0_bridge` or `slot_write_c0_bridge` -/
  | slotC0
  /-- `slot_read_cx_bridge` or `slot_write_cx_bridge` -/
  | slotCx
  /-- `direct_io_read_bridge` or `direct_io_write_bridge` -/
  | directIo
deriving DecidableEq, Repr

/-- **The memory with its I/O tables**, the rest of `MemoryInstance`. They are apart because
paging never looks at them. -/
structure IoMemory where
  /-- The memory. -/
  memory : MemoryInstance
  /-- `io_read` -/
  ioRead : Nat → Option IoFunction
  /-- `io_write` -/
  ioWrite : Nat → Option IoFunction
  /-- `io_select`, bit by bit. -/
  ioSelect : Slot → Bool
  /-- `io_select_internal_rom` -/
  ioSelectInternalRom : Bool
  /-- `expansion_rom` -/
  expansionRom : Slot → Option ExpansionRom

/-- What an access is answered by: by nothing, by a byte, or by a function
that is not of the memory. -/
inductive Answer where
  | null
  | byte (v : UInt8)
  | function (f : IoFunction)
deriving DecidableEq, Repr

/-- An address of `$C100-$CFFF`. -/
abbrev CxAddr := {a : UInt16 // 0xC100 ≤ a ∧ a ≤ 0xCFFF}

/-- The page of an expansion ROM that is shown at a page of the window. -/
def romPage (rom : ExpansionRom) (p : Page) : PageData := rom (Fin.ofNat 8 p)

/-- The memory with an expansion ROM in the window. -/
def showExpansionRom (slot : Slot) (rom : ExpansionRom) (s : MemoryInstance) :
    MemoryInstance :=
  { s with
    stores := fun l =>
      if l.bank = .cxRomPeripheral ∧ 8 ≤ l.page.val ∧ l.page.val < 16
      then romPage rom l.page else s.stores l
    mem := fun p => if isExpansionPage p then romPage rom p else s.mem p
    expansionRomType := .peripheral
    peripheralRomSlot := slot }

/-- The page of a slot. -/
def slotPage (slot : Slot) : Page := ⟨0xC0 + slot.val, by omega⟩

/-- The memory with a slot's page of card ROM. -/
def storeCxPage (slot : Slot) (rom : PageData) (s : MemoryInstance) : MemoryInstance :=
  { s with
    stores := Function.update s.stores (cxPeripheralPtr (slotPage slot)) rom
    mem :=
      if s.memshadow (slotPage slot) = cxPeripheralPtr (slotPage slot) then
        Function.update s.mem (slotPage slot) rom
      else s.mem }

/-- A machine nothing has been done to. -/
def IoMemory.blank : IoMemory where
  memory := MemoryInstance.blank
  ioRead := fun _ => none
  ioWrite := fun _ => none
  ioSelect := fun _ => false
  ioSelectInternalRom := false
  expansionRom := fun _ => none

namespace IoMemory

variable (ty : Apple2Type) (s : IoMemory)

/-! ## `io_read_cxxx` -/

/-- `$CFFF` turns the expansion ROM off. -/
def disableExpansionRom : IoMemory :=
  { s with
    ioSelect := fun _ => false
    ioSelectInternalRom := false
    memory :=
      if s.memory.memMode.slotcxrom then disableInternalRom s.memory
      else { s.memory with peripheralRomSlot := 0 } }

/-- `$Csxx` selects the slot's expansion ROM, or the internal one. -/
def selectSlot (slot : Slot) : IoMemory :=
  if slot ≠ 3 ∧ (s.expansionRom slot).isSome then
    { s with ioSelect := Function.update s.ioSelect slot true }
  else if s.memory.memMode.slotc3rom && (s.expansionRom slot).isSome then
    { s with ioSelect := Function.update s.ioSelect slot true }
  else if !s.memory.memMode.slotc3rom then { s with ioSelectInternalRom := true }
  else s

/-- The first slot that is selected. -/
def firstSelected : Option Slot :=
  (List.finRange 8).find? fun slot => slot ≠ 0 && s.ioSelect slot

/-- The expansion ROM of the first slot that is selected comes in. -/
def enableExpansionRom : IoMemory :=
  match s.firstSelected with
  | none => s
  | some slot =>
    match s.expansionRom slot with
    | none => s
    | some rom =>
      if s.memory.peripheralRomSlot ≠ slot then
        { s with memory := showExpansionRom slot rom s.memory }
      else s

/-- The internal ROM comes in, if it is selected and not in. -/
def enableInternal : IoMemory :=
  if s.ioSelectInternalRom ∧ s.memory.expansionRomType ≠ .internal then
    { s with memory := enableInternalRom s.memory }
  else s

/-- Whether a page of `$Csxx` is accessed, and not the window. -/
def isSlotAddr (a : UInt16) : Bool := a < 0xC800

/-- The slot of `$Csxx`. -/
def slotOf (a : UInt16) : Slot := Fin.ofNat 8 (a.toNat / 0x100)

/-- The ROM logic of `io_read_cxxx`: an access to a slot's page selects, and
an access to the window brings in what is selected. -/
def selectRom (a : UInt16) : IoMemory :=
  let s := if a = 0xCFFF then s.disableExpansionRom else s
  if ty.isApple2 || s.memory.memMode.slotcxrom then
    if isSlotAddr a then s.selectSlot (slotOf a)
    else if (List.finRange 8).any s.ioSelect then s.enableExpansionRom
    else s.enableInternal
  else if isSlotAddr a then { s with ioSelectInternalRom := true }
  else s.enableInternal

/-- **`io_read_cxxx`** -/
def ioReadCxxx (a : UInt16) : IoMemory × Answer :=
  let s := s.selectRom ty a
  (s, if s.memory.expansionRomType = .null ∧ !isSlotAddr a then .null
    else .byte (s.memory.memByte a))

/-! ## Dispatch -/

/-- Whether `io_map_dispatch` passes the tables by. -/
def ignoresTables (a : UInt16) : Bool :=
  !ty.isApple2 && (!s.memory.memMode.slotcxrom
    || (a.toNat / 0x100 = 0xC3 && !s.memory.memMode.slotc3rom))

/-- An entry of a table is called. -/
def call (a : UInt16) (write : Bool) : Option IoFunction → IoMemory × Answer
  | none => (s, .null)
  | some .ioNull => (s, .null)
  | some .cxxx => if write then (s, .byte 0) else s.ioReadCxxx ty a
  | some f => (s, .function f)

/-- **`io_map_dispatch`** of an address in `$C000-$CFFF`. -/
def ioMapDispatch (a : UInt16) (write : Bool) : IoMemory × Answer :=
  let table := if write then s.ioWrite else s.ioRead
  if a.toNat / 0x100 = 0xC0 then s.call ty a write (table (a.toNat % 0x100))
  else if s.ignoresTables ty a then s.call ty a write (some .cxxx)
  else s.call ty a write (table (0x100 + a.toNat / 0x100 % 0x10))

/-! ## Registration -/

/-- `init_io_handlers` -/
def initIoHandlers : IoMemory :=
  let table := fun i =>
    some (if i < 0x80 then IoFunction.c0xx else if i < 0x100 then .ioNull else .cxxx)
  { s with
    ioRead := table
    ioWrite := table
    ioSelect := fun _ => false
    ioSelectInternalRom := false
    memory := { s.memory with expansionRomType := .null, peripheralRomSlot := 0 }
    expansionRom := fun _ => none }

/-- The entries of a slot's sixteen addresses. -/
def setC0 (slot : Slot) (f : Option IoFunction) (table : Nat → Option IoFunction) :
    Nat → Option IoFunction :=
  fun i => if 0x80 + slot.val * 0x10 ≤ i ∧ i < 0x80 + slot.val * 0x10 + 0x10 then f
    else table i

/-- `register_io_handler`. Slot 0 has neither a page nor an expansion ROM. -/
def registerIoHandler (slot : Slot) (readC0 writeC0 readCx writeCx : Option IoFunction)
    (rom : Option ExpansionRom) : IoMemory :=
  let s := { s with
    ioRead := setC0 slot readC0 s.ioRead
    ioWrite := setC0 slot writeC0 s.ioWrite }
  if slot = 0 then s
  else
    { s with
      ioRead := Function.update s.ioRead (0x100 + slot.val) (readCx <|> some .cxxx)
      ioWrite := Function.update s.ioWrite (0x100 + slot.val) (writeCx <|> some .cxxx)
      expansionRom := Function.update s.expansionRom slot rom }

theorem memory_registerIoHandler (slot : Slot) (readC0 writeC0 readCx writeCx : Option IoFunction)
    (rom : Option ExpansionRom) :
    (s.registerIoHandler slot readC0 writeC0 readCx writeCx rom).memory = s.memory := by
  unfold registerIoHandler
  dsimp only
  split_ifs <;> rfl

theorem expansionRom_registerIoHandler (slot : Slot)
    (readC0 writeC0 readCx writeCx : Option IoFunction) (rom : Option ExpansionRom) :
    (s.registerIoHandler slot readC0 writeC0 readCx writeCx rom).expansionRom
      = if slot = 0 then s.expansionRom else Function.update s.expansionRom slot rom := by
  unfold registerIoHandler
  dsimp only
  split_ifs <;> rfl

theorem selection_registerIoHandler (slot : Slot)
    (readC0 writeC0 readCx writeCx : Option IoFunction) (rom : Option ExpansionRom) :
    (s.registerIoHandler slot readC0 writeC0 readCx writeCx rom).ioSelect = s.ioSelect
    ∧ (s.registerIoHandler slot readC0 writeC0 readCx writeCx rom).ioSelectInternalRom
      = s.ioSelectInternalRom := by
  unfold registerIoHandler
  dsimp only
  split_ifs <;> exact ⟨rfl, rfl⟩

/-- `register_direct_io_handler`: a function that is missing leaves the entry
as it was. -/
def registerDirectIoHandler (addr : UInt16) (read write : Option IoFunction) : IoMemory :=
  if addr.toNat / 0x100 = 0xC0 then
    { s with
      ioRead := Function.update s.ioRead (addr.toNat % 0x100)
        (read <|> s.ioRead (addr.toNat % 0x100))
      ioWrite := Function.update s.ioWrite (addr.toNat % 0x100)
        (write <|> s.ioWrite (addr.toNat % 0x100)) }
  else s

/-- A page of card ROM is stored, and `mem_refresh_cx_page` brings the image
up to date where it shows it. Slot 0 has none. -/
def storeCxRom (slot : Slot) (rom : PageData) : IoMemory :=
  if slot = 0 then s else { s with memory := storeCxPage slot rom s.memory }

/-- The machine `mem_pre_initialize` and `mem_initialize` leave. -/
def memInitialize (pattern : MemoryInitPattern) : IoMemory :=
  let s := s.initIoHandlers.registerIoHandler 0 (some .setPaging) (some .setPaging) none none none
  { s with memory := memReset pattern s.memory }

end IoMemory

end LinApple.Slots
