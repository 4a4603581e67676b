import LinApple.Memory.Types
import Mathlib.Data.List.FinRange

/-!
# Paging

`mem_set_paging` changes the switches and `mem_update_paging` brings the
page tables and the image into line with them: each page of the image
whose shadow has moved is written back if it is dirty – the zero page and
the stack always are – and then copied from its new shadow.

When the program is about to throw a second switch, `mem_set_paging` holds
off: it looks at the instruction the program counter stands on, and where
that is the store that will throw the switch it waits for, only the mode
changes and the tables stay as they were.
-/

namespace LinApple.Memory

/-! ## Helpers of the loops over pages -/

/-- `for (page = lo; page < hi; page++) t[page] = f(page)` -/
def forPages {α : Type} (lo hi : Nat) (f : Page → α) (t : Page → α) :
    Page → α :=
  fun p => if lo ≤ p.val ∧ p.val < hi then f p else t p

/-- `memmain + (page << 8)` or `memaux + (page << 8)` -/
def ramPtr (aux : Bool) (p : Page) : PagePtr :=
  ⟨if aux then .memaux else .memmain, p⟩

/-- The language card RAM behind a page from `$D000` up: in bank 1 the
pages below `$E000` lie 4 K further down, at `$C000` of their bank. -/
def lcRam (m : MemMode) (p : Page) : PagePtr :=
  if p.val < 0xE0 && !m.hramBank2 then ramPtr m.altzp (p - 0x10)
  else ramPtr m.altzp p

/-- `memrom + (page - PAGE_D0) * PAGE_SIZE` -/
def romPtr (p : Page) : PagePtr := ⟨.memrom, p - 0xD0⟩

/-- `cx_rom_internal + (page & 0x0f) * PAGE_SIZE` -/
def cxInternalPtr (p : Page) : PagePtr := ⟨.cxRomInternal, p - 0xC0⟩

/-- `cx_rom_peripheral + (page & 0x0f) * PAGE_SIZE` -/
def cxPeripheralPtr (p : Page) : PagePtr := ⟨.cxRomPeripheral, p - 0xC0⟩

/-- The table of shadows `mem_update_paging` computes. -/
def updateShadow (m : MemMode) (t : Page → PagePtr) : Page → PagePtr :=
  let t := forPages 0x00 0x02 (ramPtr m.altzp) t
  let t := forPages 0x02 0xC0 (ramPtr m.auxread) t
  let t := forPages 0xC0 0xC8 (fun p =>
    if p.val = 0xC3 then
      if m.slotc3rom && m.slotcxrom then cxPeripheralPtr p
      else cxInternalPtr p
    else if m.slotcxrom then cxPeripheralPtr p else cxInternalPtr p) t
  let t := forPages 0xC8 0xD0 cxInternalPtr t
  let t := forPages 0xD0 0xE0 (fun p =>
    if m.highram then lcRam m p else romPtr p) t
  let t := forPages 0xE0 0x100 (fun p =>
    if m.highram then lcRam m p else romPtr p) t
  if m.store80 then
    let t := forPages 0x04 0x08 (ramPtr m.page2) t
    if m.hires then forPages 0x20 0x40 (ramPtr m.page2) t else t
  else t

/-- The write table `mem_update_paging` computes. -/
def updateWrite (m : MemMode) (t : Page → WritePtr) : Page → WritePtr :=
  let lc : Page → WritePtr := fun p =>
    if !m.hramWrite then .null
    else if m.highram then .live
    else .store (lcRam m p)
  let t := forPages 0x02 0xC0 (fun p =>
    if m.auxread = m.auxwrite then .live
    else if m.auxwrite then .store (ramPtr true p)
    else .store (ramPtr false p)) t
  let t := forPages 0xD0 0xE0 lc t
  let t := forPages 0xE0 0x100 lc t
  if m.store80 then
    let t := forPages 0x04 0x08 (fun _ => .live) t
    if m.hires then forPages 0x20 0x40 (fun _ => .live) t else t
  else t

/-- One turn of the loop that moves pages between the image and the
stores. -/
def updatePage (init : Bool) (oldshadow : Page → PagePtr)
    (s : MemoryInstance) (p : Page) : MemoryInstance :=
  if init || oldshadow p ≠ s.memshadow p then
    let s :=
      if !init && (s.memdirty p &&& 1 ≠ 0 || p.val ≤ 1) then
        { s with
          memdirty := Function.update s.memdirty p (s.memdirty p &&& ~~~1)
          stores := Function.update s.stores (oldshadow p) (s.mem p) }
      else s
    { s with mem := Function.update s.mem p (s.stores (s.memshadow p)) }
  else s

/-- `mem_update_paging(initialize, false)`; nothing in the source passes
`updatewriteonly`. -/
def memUpdatePaging (init : Bool) (s : MemoryInstance) :
    MemoryInstance :=
  let oldshadow := s.memshadow
  let memwrite :=
    if init then
      forPages 0xC0 0xD0 (fun _ => .null)
        (forPages 0x00 0xC0 (fun _ => .live) s.memwrite)
    else s.memwrite
  (List.finRange 256).foldl (updatePage init oldshadow)
    { s with
      memshadow := updateShadow s.memMode s.memshadow
      memwrite := updateWrite s.memMode memwrite }

/-- `reset_paging` -/
def resetPaging (init : Bool) (s : MemoryInstance) : MemoryInstance :=
  memUpdatePaging init
    { s with lastWriteRam := false, memMode := MemMode.reset }

/-- `MemoryInitPattern` -/
inductive MemoryInitPattern where
  | zero
  | ffFf0000
deriving DecidableEq, Repr

/-- The byte `mem_reset` leaves at an offset of a page of main RAM. -/
def initByte (pattern : MemoryInitPattern) (p : Page) (o : Fin 256) : UInt8 :=
  if pattern = .ffFf0000 ∧ p.val < 0xC0 ∧ o.val % 4 < 2 then 0xFF else 0

/-- `mem_reset`. The tables it clears are all assigned by the paging update
it ends in. -/
def memReset (pattern : MemoryInitPattern) (s : MemoryInstance) :
    MemoryInstance :=
  resetPaging true { s with
    stores := fun l =>
      match l.bank with
      | .memmain => initByte pattern l.page
      | .memaux => fun _ => 0
      | _ => s.stores l }

/-! ## The soft switches -/

/-- The change a soft switch makes to the paging mode; `addr` is the low
byte of its address. -/
def switchMode (ty : Apple2Type) (m : MemMode) (addr : Nat) : MemMode :=
  if 0x80 ≤ addr ∧ addr ≤ 0x8F then
    { m with
      hramWrite := addr % 2 = 1
      hramBank2 := addr &&& 8 = 0
      highram := (addr &&& 2) >>> 1 = addr &&& 1 }
  else if ty.isApple2 then m
  else
    match addr with
    | 0x00 => { m with store80 := false }
    | 0x01 => { m with store80 := true }
    | 0x02 => { m with auxread := false }
    | 0x03 => { m with auxread := true }
    | 0x04 => { m with auxwrite := false }
    | 0x05 => { m with auxwrite := true }
    | 0x06 => { m with slotcxrom := true }
    | 0x07 => { m with slotcxrom := false }
    | 0x08 => { m with altzp := false }
    | 0x09 => { m with altzp := true }
    | 0x0A => { m with slotc3rom := false }
    | 0x0B => { m with slotc3rom := true }
    | 0x54 => { m with page2 := false }
    | 0x55 => { m with page2 := true }
    | 0x56 => { m with hires := false }
    | 0x57 => { m with hires := true }
    | _ => m

/-- `read_u32_le(mem + pc)` -/
def MemoryInstance.readU32Le (s : MemoryInstance) (pc : UInt16) : Nat :=
  (s.memByte pc).toNat + (s.memByte (pc + 1)).toNat * 0x100
    + (s.memByte (pc + 2)).toNat * 0x10000
    + (s.memByte (pc + 3)).toNat * 0x1000000

/-- Whether the program counter stands on a store to one of the two
switches `lo`, `lo + 1`: the instruction `STA $C0lo` with the low bit of
the address left open. -/
def MemoryInstance.staFollows (s : MemoryInstance) (pc : UInt16) (lo : Nat) :
    Bool :=
  pc ≤ 0xFFFC && s.readU32Le pc &&& 0x00FFFEFF = 0x00C0008D + lo * 0x100

/-- The test on which `mem_set_paging` holds off. -/
def MemoryInstance.holdsOff (s : MemoryInstance) (pc : UInt16) (addr : Nat) :
    Bool :=
  (4 ≤ addr && addr ≤ 5 && s.staFollows pc 0x02)
    || (0x80 ≤ addr && addr ≤ 0x8F
      && (s.staFollows pc 0x04 || s.staFollows pc 0x02))

/-- At the top of memory there is no instruction to look at. -/
theorem MemoryInstance.holdsOff_of_lt (s : MemoryInstance) {pc : UInt16}
    (h : 0xFFFC < pc) (addr : Nat) : s.holdsOff pc addr = false := by
  have hpc : decide (pc ≤ 0xFFFC) = false :=
    decide_eq_false (UInt16.not_le.mpr h)
  simp [holdsOff, staFollows, hpc]

/-- The pages `[FIRMWARE_EXPANSION_BEGIN, FIRMWARE_EXPANSION_END]` of the
image. -/
def isExpansionPage (p : Page) : Bool := 0xC8 ≤ p.val && p.val < 0xD0

/-- What `mem_set_paging` does with the expansion ROM when `SLOTCXROM` is
set: the internal ROM leaves and nothing drives the window. -/
def disableInternalRom (s : MemoryInstance) : MemoryInstance :=
  { s with
    stores := fun l =>
      if l.bank = .cxRomPeripheral ∧ 8 ≤ l.page.val ∧ l.page.val < 16
      then fun _ => 0 else s.stores l
    mem := fun p => if isExpansionPage p then fun _ => 0 else s.mem p
    expansionRomType := .null
    peripheralRomSlot := 0 }

/-- What `mem_set_paging` does with the expansion ROM when `SLOTCXROM` is
cleared: the window shows the internal ROM. -/
def enableInternalRom (s : MemoryInstance) : MemoryInstance :=
  { s with
    mem := fun p =>
      if isExpansionPage p then s.stores (cxInternalPtr p) else s.mem p
    expansionRomType := .internal
    peripheralRomSlot := 0 }

/-- The flags after the access to `addr`, the low byte of a switch. -/
def throwSwitch (ty : Apple2Type) (s : MemoryInstance) (addr : Nat) :
    MemoryInstance :=
  { s with
    memMode := switchMode ty s.memMode addr
    lastWriteRam :=
      if 0x80 ≤ addr ∧ addr ≤ 0x8F then addr % 2 = 1 else s.lastWriteRam }

/-- What becomes of the expansion ROM window when the mode was `last`. -/
def moveExpansionRom (last : MemMode) (s : MemoryInstance) :
    MemoryInstance :=
  if last.slotcxrom ≠ s.memMode.slotcxrom then
    if s.memMode.slotcxrom then disableInternalRom s
    else enableInternalRom s
  else s

/-- The state in which `mem_set_paging` calls for an update. -/
def beginUpdate (ty : Apple2Type) (s : MemoryInstance) (addr : Nat) :
    MemoryInstance :=
  moveExpansionRom s.memMode
    { throwSwitch ty s addr with modeChanging := false }

/-- `mem_set_paging`, less what it hands on to the video and answers with:
neither touches the memory. -/
def memSetPaging (ty : Apple2Type) (s : MemoryInstance) (pc addr : UInt16) :
    MemoryInstance :=
  let addr := addr.toNat % 0x100
  let t := throwSwitch ty s addr
  -- hold off while the program is about to throw the next switch
  if t.holdsOff pc addr then { t with modeChanging := true }
  else if s.memMode ≠ t.memMode || t.modeChanging then
    memUpdatePaging false (beginUpdate ty s addr)
  else t

/-! ## The CPU's accesses -/

/-- The addresses whose writes `io_map_dispatch` hands to
`mem_set_paging`. -/
def isPagingSwitch (a : UInt16) : Bool :=
  (0xC000 ≤ a && a ≤ 0xC00B) || (0xC054 ≤ a && a ≤ 0xC057)
    || (0xC080 ≤ a && a ≤ 0xC08F)

theorem isPagingSwitch_of_isIoRegion {a : UInt16}
    (h : isIoRegion a = false) : isPagingSwitch a = false := by
  have hio := of_isIoRegion_eq_false h
  simp only [isPagingSwitch, UInt16.le_iff_toNat_le, Bool.or_eq_false_iff,
    Bool.and_eq_false_iff, decide_eq_false_iff_not]
  simp only [UInt16.reduceToNat]
  omega

/-- `CpuLoopContext::write_byte`, where a write dispatched to anything but a
paging switch leaves the memory alone. -/
def writeByte (ty : Apple2Type) (s : MemoryInstance) (pc a : UInt16)
    (v : UInt8) : MemoryInstance :=
  let s := { s with memdirty := Function.update s.memdirty (pageOf a) 0xFF }
  match s.memwrite (pageOf a) with
  | .live => { s with mem := setByte s.mem (pageOf a) (offsetOf a) v }
  | .store l => { s with stores := setByte s.stores l (offsetOf a) v }
  | .null => if isPagingSwitch a then memSetPaging ty s pc a else s

/-- What a program does to the memory. The program counter comes with writes
and switches, because an update of the tables may be held off by what the
instruction behind it does. -/
inductive Access where
  /-- `mem[a]` -/
  | read (a : UInt16)
  /-- `write_byte(a, v)`, with the program counter at `pc` -/
  | write (pc a : UInt16) (v : UInt8)
  /-- `mem_set_paging(pc, addr, ...)` -/
  | switch (pc addr : UInt16)

end LinApple.Memory
