import LinApple.Memory.Keeping
import LinApple.Slots.ExpansionRom

/-!
# The cards' pages

The page of card ROM a slot has registered is stored, and the image shows it where the page is
shadowed from the store. On a machine without the //e's memory management no switch changes what
the slots' pages show, and they stay as a reset leaves them: the pages of all slots show the
cards' store, but that of slot 3 shows the internal ROM, which such a machine does not have.

What the cards have registered is kept beside the machine (`CardSlots.cards`), since nothing in it
says later whose page is stored. A slot is read well if all 256 bytes of its page come back as the
ROM that was registered last, through `io_map_dispatch` and in the state reached. Reads of the
pages themselves change that state, for they select a slot's expansion ROM; that they leave the
pages alone is the larger part of the work here. `SamePage` says that a page, everything stored of
it and the switches that choose between them are the same in two memories, and nearly every
operation of the memory leaves each slot's page so.

`Wired` is the invariant: the tables and the switches of the slots' pages stand as a reset leaves
them, and each page shows what it is shadowed from. It holds of every run of switch accesses,
reads, writes, registrations and resets, and it determines which ROM each slot shows. So
the theorem is an equivalence in every state that is reached, and the condition mentions slot 3
alone: a card there must have registered 256 zero bytes, which is what the 12 KiB ROM leaves in the
place of the internal page. That it does is the hypothesis on the store of the machine that is
started.
-/

namespace LinApple.Slots

open Memory

/-! ## A page and what is stored of it -/

/-- **A page is the same in two memories**: it shows the same, from the same
stored page, all that is stored of it is the same, and so are the switches of the
`$Cx00` pages. -/
structure SamePage (p : Page) (s t : MemoryInstance) : Prop where
  /-- What it is shadowed from. -/
  memshadow : t.memshadow p = s.memshadow p
  /-- What it shows. -/
  mem : t.mem p = s.mem p
  /-- What is stored. -/
  stores : ∀ l, ownerPage l = p → t.stores l = s.stores l
  /-- `MF_SLOTCXROM` -/
  slotcxrom : t.memMode.slotcxrom = s.memMode.slotcxrom
  /-- `MF_SLOTC3ROM` -/
  slotc3rom : t.memMode.slotc3rom = s.memMode.slotc3rom

namespace SamePage

variable {p : Page} {s t u : MemoryInstance}

theorem refl (p : Page) (s : MemoryInstance) : SamePage p s s :=
  ⟨rfl, rfl, fun _ _ => rfl, rfl, rfl⟩

theorem trans (h : SamePage p s t) (h' : SamePage p t u) : SamePage p s u :=
  ⟨h'.memshadow.trans h.memshadow, h'.mem.trans h.mem,
    fun l hl => (h'.stores l hl).trans (h.stores l hl), h'.slotcxrom.trans h.slotcxrom,
    h'.slotc3rom.trans h.slotc3rom⟩

/-- Memories that agree at a page. -/
theorem of_agreesAt (h : WriteBack.AgreesAt ownerPage p t.toWriteBack s.toWriteBack)
    (hcx : t.memMode.slotcxrom = s.memMode.slotcxrom)
    (hc3 : t.memMode.slotc3rom = s.memMode.slotc3rom) : SamePage p s t :=
  ⟨h.map_eq, h.live_eq, h.store_eq, hcx, hc3⟩

end SamePage

/-- The stored pages of the cards' expansion ROM are shown in the window. -/
theorem isExpansionPage_ownerPage {l : PagePtr}
    (h : l.bank = .cxRomPeripheral ∧ 8 ≤ l.page.val ∧ l.page.val < 16) :
    isExpansionPage (ownerPage l) = true := by
  obtain ⟨hbank, hlo, hhi⟩ := h
  have hval : (l.page + 0xC0 : Page).val = l.page.val + 0xC0 := by
    rw [Fin.val_add]
    exact Nat.mod_eq_of_lt (by omega)
  unfold ownerPage isExpansionPage
  rw [hbank]
  simp only [hval, Bool.and_eq_true, decide_eq_true_eq]
  omega

section SelectRom

variable {p : Page} (hp : isExpansionPage p = false)

include hp

/-- What the window shows is of no other page. -/
theorem samePage_window {s t : MemoryInstance} {mem : Page → PageData}
    {stores : PagePtr → PageData} (hshadow : t.memshadow = s.memshadow)
    (hmode : t.memMode = s.memMode)
    (hmem : t.mem = fun q => if isExpansionPage q then mem q else s.mem q)
    (hstores : t.stores = fun l =>
      if l.bank = .cxRomPeripheral ∧ 8 ≤ l.page.val ∧ l.page.val < 16 then stores l
      else s.stores l) : SamePage p s t := by
  refine ⟨congrFun hshadow p, ?_, fun l hl => ?_, congrArg _ hmode, congrArg _ hmode⟩
  · rw [hmem]
    dsimp only
    rw [hp]
    rfl
  · rw [hstores]
    refine if_neg fun h => ?_
    rw [← hl, isExpansionPage_ownerPage h] at hp
    exact Bool.false_ne_true hp.symm

theorem samePage_disableInternalRom (s : MemoryInstance) :
    SamePage p s (disableInternalRom s) :=
  samePage_window hp rfl rfl rfl rfl

theorem samePage_enableInternalRom (s : MemoryInstance) :
    SamePage p s (enableInternalRom s) := by
  refine ⟨rfl, ?_, fun _ _ => rfl, rfl, rfl⟩
  unfold enableInternalRom
  dsimp only
  rw [hp]
  rfl

theorem samePage_showExpansionRom (slot : Slot) (rom : ExpansionRom) (s : MemoryInstance) :
    SamePage p s (showExpansionRom slot rom s) :=
  samePage_window hp rfl rfl rfl rfl

variable (s : IoMemory)

theorem samePage_disableExpansionRom : SamePage p s.memory s.disableExpansionRom.memory := by
  unfold IoMemory.disableExpansionRom
  split_ifs
  · exact samePage_disableInternalRom hp s.memory
  · exact ⟨rfl, rfl, fun _ _ => rfl, rfl, rfl⟩

theorem samePage_enableExpansionRom : SamePage p s.memory s.enableExpansionRom.memory := by
  unfold IoMemory.enableExpansionRom
  split
  · exact .refl p _
  · split
    · exact .refl p _
    · split_ifs
      · exact samePage_showExpansionRom hp _ _ _
      · exact .refl p _

theorem samePage_enableInternal : SamePage p s.memory s.enableInternal.memory := by
  unfold IoMemory.enableInternal
  split_ifs
  · exact samePage_enableInternalRom hp s.memory
  · exact .refl p _

/-- **The ROM logic leaves the pages outside the window alone.** -/
theorem samePage_selectRom (ty : Apple2Type) (a : UInt16) :
    SamePage p s.memory (s.selectRom ty a).memory := by
  have h : SamePage p s.memory (if a = 0xCFFF then s.disableExpansionRom else s).memory := by
    split_ifs
    · exact samePage_disableExpansionRom hp s
    · exact .refl p _
  unfold IoMemory.selectRom
  dsimp only
  generalize (if a = 0xCFFF then s.disableExpansionRom else s) = t at h ⊢
  split_ifs
  · unfold IoMemory.selectSlot
    split_ifs <;> exact h
  · exact h.trans (samePage_enableExpansionRom hp t)
  · exact h.trans (samePage_enableInternal hp t)
  · exact h
  · exact h.trans (samePage_enableInternal hp t)

end SelectRom

/-! ## A machine without the //e's memory management -/

section Apple2

variable {ty : Apple2Type} (hty : ty.isApple2 = true) {p : Page} {s : MemoryInstance}

include hty

/-- Its switches are those of the language card. -/
theorem switchMode_apple2 (m : MemMode) (addr : Nat) :
    (switchMode ty m addr).slotcxrom = m.slotcxrom ∧
      (switchMode ty m addr).slotc3rom = m.slotc3rom := by
  unfold switchMode
  split
  · exact ⟨rfl, rfl⟩
  · exact ⟨rfl, rfl⟩

/-- **A soft switch leaves the slots' pages alone.** -/
theorem samePage_memSetPaging (h : HasTables s) (hlo : 0xC0 ≤ p.val) (hhi : p.val < 0xC8)
    (pc addr : UInt16) : SamePage p s (memSetPaging ty s pc addr) := by
  have hexp : isExpansionPage p = false := by
    rw [isExpansionPage, decide_eq_false (by omega), Bool.false_and]
  obtain ⟨hcx, hc3⟩ := switchMode_apple2 hty s.memMode (addr.toNat % 0x100)
  have hmode := memSetPaging_memMode ty s pc addr
  refine .of_agreesAt ?_ (hmode ▸ hcx) (hmode ▸ hc3)
  rcases agreesAt_memSetPaging ty pc h addr hexp with ⟨-, hagrees⟩ | ⟨-, hagrees⟩
  · exact hagrees
  · have hstays : s.toWriteBack.map p =
        shadowTable (switchMode ty s.memMode (addr.toNat % 0x100)) p := by
      rw [toWriteBack_map, h.memshadow_eq (by omega), shadowTable, shadowTable,
        updateShadow_slot _ _ hlo hhi, updateShadow_slot _ _ hlo hhi, hcx, hc3]
    rwa [WriteBack.turn, if_pos hstays] at hagrees

/-- **A write leaves the slots' pages alone.** -/
theorem samePage_writeByte (h : HasTables s) (hlo : 0xC0 ≤ p.val) (hhi : p.val < 0xC8)
    (pc a : UInt16) (v : UInt8) : SamePage p s (writeByte ty s pc a v) := by
  cases ha : isPagingSwitch a with
  | true =>
    rw [writeByte_switch ty pc v h ha]
    have hmark : SamePage p s
        { s with memdirty := Function.update s.memdirty (pageOf a) 0xFF } :=
      ⟨rfl, rfl, fun _ _ => rfl, rfl, rfl⟩
    exact hmark.trans (samePage_memSetPaging hty (h.mark (pageOf a)) hlo hhi pc a)
  | false =>
    have hmode := writeByte_memMode ty s pc v ha
    by_cases hpage : p = pageOf a
    · have hio : isIoPage (pageOf a) = true := isIoPage_iff.mpr (hpage ▸ ⟨hlo, by omega⟩)
      rw [writeByte_null ty pc v (h.memwrite_io hio) ha]
      exact ⟨rfl, rfl, fun _ _ => rfl, rfl, rfl⟩
    · exact .of_agreesAt (agreesAt_writeByte ty pc h v ha hpage) (congrArg _ hmode)
        (congrArg _ hmode)

end Apple2

/-- A write keeps what always holds. -/
theorem IoMemory.Proper.writeByte {s : IoMemory} (h : s.Proper) (ty : Apple2Type)
    (pc a : UInt16) (v : UInt8) :
    ({ s with memory := Memory.writeByte ty s.memory pc a v } : IoMemory).Proper := by
  cases ha : isPagingSwitch a with
  | true =>
    rw [writeByte_switch ty pc v h.tables ha]
    have hmark := h.withMemory (h.tables.mark (pageOf a)) rfl rfl
    exact @IoMemory.Proper.step ty .zero _ hmark (.switch pc a)
  | false =>
    refine h.withMemory (h.tables.writeByte ty pc v ha) ?_ ?_
    all_goals
      cases hw : s.memory.memwrite (pageOf a) with
      | null => rw [writeByte_null ty pc v hw ha]
      | live => rw [writeByte_live ty pc v hw]
      | store l => rw [writeByte_store ty pc v hw]

/-! ## Runs -/

/-- What happens to the slots' pages: what happens to the window, and writes. -/
inductive CardOp where
  | rom (op : RomOp)
  /-- `write_byte` -/
  | write (pc a : UInt16) (v : UInt8)

/-- A step of a machine that no snapshot is loaded into. -/
def CardOp.IsPlayed : CardOp → Prop
  | .rom (.load _) => False
  | _ => True

/-- **The memory, and the page of card ROM that each slot has registered.** The second is beside
the memory and follows the registrations alone, so that it can be compared with what the memory
shows. -/
structure CardSlots where
  /-- The memory. -/
  io : IoMemory
  /-- The registered pages. -/
  cards : Slot → Option PageData

namespace CardSlots

/-- What `host_register_cx_rom` has been given. -/
def register (cards : Slot → Option PageData) : CardOp → Slot → Option PageData
  | .rom (.storeCxRom slot rom) =>
    if slot = 0 then cards else Function.update cards slot (some rom)
  | _ => cards

/-- One step. -/
def step (ty : Apple2Type) (pattern : MemoryInitPattern) (c : CardSlots) (op : CardOp) :
    CardSlots where
  io := match op with
    | .rom op => c.io.step ty pattern op
    | .write pc a v => { c.io with memory := writeByte ty c.io.memory pc a v }
  cards := register c.cards op

/-- The machine that `mem_initialize` leaves, with no card registered. -/
def memInitialize (pattern : MemoryInitPattern) (s : IoMemory) : CardSlots where
  io := s.memInitialize pattern
  cards := fun _ => none

/-- **The bytes read at `$Cn00` are those of a page**: in the image, and where
`io_read_cxxx` answers for the slot. -/
def Reads (ty : Apple2Type) (c : CardSlots) (slot : Slot) (rom : PageData) : Prop :=
  ∀ o, c.io.memory.memByte (addrOf (slotPage slot) o) = rom o ∧
    (c.io.ioRead (0x100 + slot.val) = some .cxxx →
      (c.io.ioMapDispatch ty (addrOf (slotPage slot) o) false).2 = .byte (rom o))

/-- **What always holds on a machine without the //e's memory management.** -/
structure Wired (c : CardSlots) : Prop where
  /-- What always holds of the memory. -/
  proper : c.io.Proper
  /-- `MF_SLOTCXROM` -/
  slotcxrom : c.io.memory.memMode.slotcxrom = true
  /-- `MF_SLOTC3ROM` -/
  slotc3rom : c.io.memory.memMode.slotc3rom = false
  /-- The slots' pages show what they are shadowed from. -/
  shown : ∀ slot, slot ≠ 0 → c.io.memory.mem (slotPage slot) =
    c.io.memory.stores (c.io.memory.memshadow (slotPage slot))
  /-- The cards' pages are stored. -/
  stored : ∀ slot rom, c.cards slot = some rom → slot ≠ 0 ∧
    c.io.memory.stores (cxPeripheralPtr (slotPage slot)) = rom
  /-- There is no internal ROM. -/
  internal : c.io.memory.stores (cxInternalPtr (slotPage 3)) = fun _ => 0

theorem slotPage_bounds (slot : Slot) : 0xC0 ≤ (slotPage slot).val ∧ (slotPage slot).val < 0xC8 :=
  ⟨Nat.le_add_right _ _, Nat.add_lt_add_left slot.isLt 0xC0⟩

theorem isExpansionPage_slotPage (slot : Slot) : isExpansionPage (slotPage slot) = false := by
  rw [isExpansionPage, decide_eq_false (by have := slotPage_bounds slot; omega), Bool.false_and]

section Wired

variable {ty : Apple2Type} {pattern : MemoryInitPattern} {c : CardSlots}

/-- A slot's page is shadowed from the cards' store, that of slot 3 from the
internal ROM. -/
theorem Wired.memshadow (h : c.Wired) (slot : Slot) : c.io.memory.memshadow (slotPage slot) =
    if slot = 3 then cxInternalPtr (slotPage 3) else cxPeripheralPtr (slotPage slot) := by
  obtain ⟨hlo, hhi⟩ := slotPage_bounds slot
  rw [h.proper.tables.memshadow_eq (by omega), shadowTable, updateShadow_slot _ _ hlo hhi,
    h.slotcxrom, h.slotc3rom]
  by_cases hslot : slot = 3
  · subst hslot
    rfl
  · have hpage : (slotPage slot).val ≠ 0xC3 := fun he =>
      hslot (Fin.ext (Nat.add_left_cancel (he : 0xC0 + slot.val = 0xC0 + 3)))
    rw [if_neg hslot, if_pos (by simp only [hpage, ne_eq, not_false_eq_true, decide_true,
      Bool.or_true, Bool.and_true])]

/-- **A step that leaves the slots' pages alone** keeps what holds. -/
theorem Wired.of_samePage (h : c.Wired) {io : IoMemory} (hp : io.Proper)
    (hsame : ∀ slot, slot ≠ 0 → SamePage (slotPage slot) c.io.memory io.memory) :
    (CardSlots.mk io c.cards).Wired where
  proper := hp
  slotcxrom := (hsame 1 (by decide)).slotcxrom.trans h.slotcxrom
  slotc3rom := (hsame 1 (by decide)).slotc3rom.trans h.slotc3rom
  shown slot hslot := by
    have hpage := hsame slot hslot
    show io.memory.mem (slotPage slot) = io.memory.stores (io.memory.memshadow (slotPage slot))
    rw [hpage.mem, hpage.memshadow, hpage.stores _ (h.proper.tables.owner_map _),
      h.shown slot hslot]
  stored slot rom hrom := by
    obtain ⟨hslot, hstored⟩ := h.stored slot rom hrom
    exact ⟨hslot, ((hsame slot hslot).stores _ (ownerPage_cxPeripheralPtr _)).trans hstored⟩
  internal :=
    ((hsame 3 (by decide)).stores _ (ownerPage_cxInternalPtr _)).trans h.internal

/-- A page of card ROM that is stored is shown unless it is slot 3's. -/
theorem Wired.storeCxPage (h : c.Wired) {slot : Slot} (hslot : slot ≠ 0) (rom : PageData)
    (hp : ({ c.io with memory := storeCxPage slot rom c.io.memory } : IoMemory).Proper) :
    (CardSlots.mk { c.io with memory := storeCxPage slot rom c.io.memory }
      (Function.update c.cards slot (some rom))).Wired := by
  have hstores : ∀ l, l ≠ cxPeripheralPtr (slotPage slot) →
      (Slots.storeCxPage slot rom c.io.memory).stores l = c.io.memory.stores l :=
    fun l hl => Function.update_of_ne hl _ _
  have hself : (Slots.storeCxPage slot rom c.io.memory).stores
      (cxPeripheralPtr (slotPage slot)) = rom := Function.update_self _ _ _
  -- the stores of different slots are different pages
  have hother : ∀ slot', slot' ≠ slot →
      cxPeripheralPtr (slotPage slot') ≠ cxPeripheralPtr (slotPage slot) := by
    intro slot' hne he
    have hpage := congrArg ownerPage he
    rw [ownerPage_cxPeripheralPtr, ownerPage_cxPeripheralPtr] at hpage
    exact hne (Fin.ext (Nat.add_left_cancel (congrArg Fin.val hpage)))
  have hinternal : ∀ p, cxInternalPtr p ≠ cxPeripheralPtr (slotPage slot) :=
    fun p he => Bank.noConfusion (congrArg PagePtr.bank he)
  -- the page is stored in the slot's own store, and shown at once if that is what the page shows
  refine ⟨hp, h.slotcxrom, h.slotc3rom, fun slot' hslot' => ?_, fun slot' rom' hrom' => ?_,
    (hstores _ (hinternal _)).trans h.internal⟩
  · have hshown := h.shown slot' hslot'
    show (Slots.storeCxPage slot rom c.io.memory).mem (slotPage slot') =
      (Slots.storeCxPage slot rom c.io.memory).stores (c.io.memory.memshadow (slotPage slot'))
    by_cases hsame : slot' = slot
    · subst hsame
      unfold Slots.storeCxPage
      dsimp only
      split_ifs with hshadow
      · rw [Function.update_self, hshadow, Function.update_self]
      · rw [Function.update_of_ne hshadow, hshown]
    · have hmem : (Slots.storeCxPage slot rom c.io.memory).mem (slotPage slot') =
          c.io.memory.mem (slotPage slot') := by
        unfold Slots.storeCxPage
        dsimp only
        split_ifs
        · exact Function.update_of_ne
            (fun he => hsame (Fin.ext (Nat.add_left_cancel (congrArg Fin.val he)))) _ _
        · rfl
      rw [hmem, hshown]
      refine (hstores _ ?_).symm
      rw [h.memshadow]
      split_ifs
      · exact hinternal _
      · exact hother slot' hsame
  · change Function.update c.cards slot (some rom) slot' = some rom' at hrom'
    by_cases hsame : slot' = slot
    · subst hsame
      rw [Function.update_self] at hrom'
      exact ⟨hslot, hself.trans (Option.some.inj hrom')⟩
    · rw [Function.update_of_ne hsame] at hrom'
      obtain ⟨hne, hstored⟩ := h.stored slot' rom' hrom'
      exact ⟨hne, (hstores _ (hother slot' hsame)).trans hstored⟩

/-- A hard reset shows every page as it is stored. -/
theorem Wired.memReset (h : c.Wired)
    (hp : ({ c.io with memory := memReset pattern c.io.memory } : IoMemory).Proper) :
    (CardSlots.mk { c.io with memory := memReset pattern c.io.memory } c.cards).Wired := by
  have heq := memReset_eq pattern c.io.memory
  rw [heq] at hp ⊢
  exact ⟨hp, rfl, rfl, fun _ _ => rfl, h.stored, h.internal⟩

/-- **Every step keeps what holds.** -/
theorem Wired.step (hty : ty.isApple2 = true) (h : c.Wired) {op : CardOp}
    (hop : op.IsPlayed) : (c.step ty pattern op).Wired := by
  -- on an Apple II or II+ no step moves a card's page, and only a registration stores in one
  cases op with
  | rom op =>
    have hp := @IoMemory.Proper.step ty pattern _ h.proper op
    cases op with
    | read a =>
      refine h.of_samePage hp fun slot _ => ?_
      show SamePage _ _ (c.io.ioMapDispatch ty a.1 false).1.memory
      rcases IoMemory.ioMapDispatch_read ty (s := c.io) a.1 with hread | hread <;> rw [hread]
      · exact samePage_selectRom (isExpansionPage_slotPage slot) c.io ty a.1
      · exact .refl _ _
    | switch pc addr =>
      refine h.of_samePage hp fun slot _ => ?_
      obtain ⟨hlo, hhi⟩ := slotPage_bounds slot
      exact samePage_memSetPaging hty h.proper.tables hlo hhi pc addr
    | resetHard => exact h.memReset hp
    | resetSoft =>
      refine h.of_samePage hp fun slot _ => ?_
      show SamePage _ _ (if ty.isApple2 then c.io else _).memory
      rw [if_pos hty]
      exact .refl _ _
    | load snapshot => exact hop.elim
    | registerIo slot readC0 writeC0 readCx writeCx rom =>
      refine h.of_samePage hp fun slot' _ => ?_
      show SamePage _ _ (c.io.registerIoHandler slot readC0 writeC0 readCx writeCx rom).memory
      rw [IoMemory.memory_registerIoHandler]
      exact .refl _ _
    | registerDirect addr read write =>
      refine h.of_samePage hp fun slot _ => ?_
      show SamePage _ _ (c.io.registerDirectIoHandler addr read write).memory
      unfold IoMemory.registerDirectIoHandler
      split_ifs <;> exact .refl _ _
    | storeCxRom slot rom =>
      unfold CardSlots.step register
      dsimp only
      unfold IoMemory.step IoMemory.storeCxRom at hp ⊢
      dsimp only at hp ⊢
      split_ifs at hp ⊢ with hslot
      · exact h
      · exact h.storeCxPage hslot rom hp
  | write pc a v =>
    refine h.of_samePage (h.proper.writeByte ty pc a v) fun slot _ => ?_
    obtain ⟨hlo, hhi⟩ := slotPage_bounds slot
    exact samePage_writeByte hty h.proper.tables hlo hhi pc a v

/-- What `mem_initialize` leaves is wired, where there is no internal ROM. -/
theorem wired_memInitialize (pattern : MemoryInitPattern) (s : IoMemory)
    (h : s.memory.stores (cxInternalPtr (slotPage 3)) = fun _ => 0) :
    (memInitialize pattern s).Wired := by
  have hp := (IoMemory.proper_windowShows_memInitialize pattern s).1
  unfold memInitialize
  unfold IoMemory.memInitialize at hp ⊢
  dsimp only at hp ⊢
  rw [IoMemory.memory_registerIoHandler, memReset_eq] at hp ⊢
  exact ⟨hp, rfl, rfl, fun _ _ => rfl, fun _ _ hrom => absurd hrom (Option.some_ne_none _).symm, h⟩

/-- Where `io_read_cxxx` answers for a slot it answers with the image. -/
theorem ioMapDispatch_slotPage (hty : ty.isApple2 = true) (s : IoMemory) {slot : Slot}
    (hslot : slot ≠ 0) (o : Fin 256) (hentry : s.ioRead (0x100 + slot.val) = some .cxxx) :
    (s.ioMapDispatch ty (addrOf (slotPage slot) o) false).2 =
      .byte (s.memory.memByte (addrOf (slotPage slot) o)) := by
  have hpage : (addrOf (slotPage slot) o).toNat / 0x100 = 0xC0 + slot.val := by
    rw [← pageOf_val, pageOf_addrOf]
    rfl
  have hval : slot.val ≠ 0 := fun h => hslot (Fin.ext h)
  have hlt := slot.isLt
  have haddr : IoMemory.isSlotAddr (addrOf (slotPage slot) o) = true := by
    refine decide_eq_true (UInt16.lt_iff_toNat_lt.mpr ?_)
    show (addrOf (slotPage slot) o).toNat < 0xC800
    omega
  have hindex : 0x100 + (0xC0 + slot.val) % 0x10 = 0x100 + slot.val := by omega
  have htables : s.ignoresTables ty (addrOf (slotPage slot) o) = false := by
    rw [IoMemory.ignoresTables, hty]
    rfl
  have hsame := (samePage_selectRom (isExpansionPage_slotPage slot) s ty
    (addrOf (slotPage slot) o)).mem
  unfold IoMemory.ioMapDispatch
  dsimp only
  rw [hpage, if_neg (by omega), htables, if_neg Bool.false_ne_true,
    if_neg Bool.false_ne_true, hindex, hentry]
  show (s.ioReadCxxx ty (addrOf (slotPage slot) o)).2 = _
  unfold IoMemory.ioReadCxxx
  dsimp only
  rw [haddr, if_neg (by simp), MemoryInstance.memByte, MemoryInstance.memByte, pageOf_addrOf,
    hsame]

/-- **A slot's page is read as it is shown.** -/
theorem reads_iff (hty : ty.isApple2 = true) {slot : Slot} (hslot : slot ≠ 0) (rom : PageData) :
    c.Reads ty slot rom ↔ c.io.memory.mem (slotPage slot) = rom := by
  have hbyte : ∀ o, c.io.memory.memByte (addrOf (slotPage slot) o) =
      c.io.memory.mem (slotPage slot) o := fun o => by
    rw [MemoryInstance.memByte, pageOf_addrOf, offsetOf_addrOf]
  constructor
  · exact fun h => funext fun o => (hbyte o).symm.trans (h o).1
  · rintro rfl o
    refine ⟨hbyte o, fun hentry => ?_⟩
    rw [ioMapDispatch_slotPage hty c.io hslot o hentry, hbyte]

/-- **A registered page is read at its slot**, but at slot 3 only zeros are. -/
theorem Wired.reads_iff (h : c.Wired) (hty : ty.isApple2 = true) {slot : Slot} {rom : PageData}
    (hrom : c.cards slot = some rom) :
    c.Reads ty slot rom ↔ (slot = 3 → rom = fun _ => 0) := by
  obtain ⟨hslot, hstored⟩ := h.stored slot rom hrom
  rw [CardSlots.reads_iff hty hslot, h.shown slot hslot, h.memshadow]
  by_cases h3 : slot = 3
  · rw [if_pos h3, h.internal]
    exact ⟨fun hzero _ => hzero.symm, fun hzero => (hzero h3).symm⟩
  · rw [if_neg h3]
    exact iff_of_true hstored fun he => absurd he h3

end Wired

end CardSlots

/-- **The slots' pages as a machine.** -/
def cardMachine (ty : Apple2Type) (pattern : MemoryInitPattern) :
    Machine CardSlots CardOp Unit where
  next := CardSlots.step ty pattern
  out _ _ := none

/-- **The cards' pages on a II**: after any run, every slot's registered page of card ROM is read
at `$Cn00` exactly if slot 3 has none registered that is not all zeros.

The store of the internal page of slot 3 is zero at the start, as it is on a machine whose ROM has
no such page. That the run loads no snapshot is the only condition on it. -/
theorem cardRoms_run {ty : Apple2Type} (hty : ty.isApple2 = true) (pattern : MemoryInitPattern)
    {s : IoMemory} (hinternal : s.memory.stores (cxInternalPtr (slotPage 3)) = fun _ => 0)
    {ops : List CardOp} (has : (cardMachine ty pattern).Admits (fun _ op _ => op.IsPlayed)
      (CardSlots.memInitialize pattern s) ops) :
    let c := (cardMachine ty pattern).run (CardSlots.memInitialize pattern s) ops
    (∀ slot rom, c.cards slot = some rom → c.Reads ty slot rom) ↔
      ∀ rom, c.cards 3 = some rom → rom = fun _ => 0 := by
  have hwired := (cardMachine ty pattern).invariant_run
    (fun c _ _ (h : c.Wired) hop => h.step hty hop)
    (CardSlots.wired_memInitialize pattern s hinternal) has
  constructor
  · exact fun h rom hrom => (hwired.reads_iff hty hrom).mp (h 3 rom hrom) rfl
  · refine fun h slot rom hrom => (hwired.reads_iff hty hrom).mpr ?_
    rintro rfl
    exact h rom hrom

/-- Cards in slots 6 and 7, and the switches of the //e: both cards are read. With a card in
slot 3 besides, not all of them are. -/
theorem cardRoms_run_slots67 :
    (let c := (cardMachine .apple2Plus .zero).run (CardSlots.memInitialize .zero .blank)
      [.rom (.storeCxRom 6 fun _ => 6), .write 0 0xC00B 0, .rom (.storeCxRom 7 fun _ => 7)]
    c.cards 6 = some (fun _ => 6) ∧ c.Reads .apple2Plus 6 (fun _ => 6)
      ∧ c.cards 7 = some (fun _ => 7) ∧ c.Reads .apple2Plus 7 (fun _ => 7))
    ∧ let c := (cardMachine .apple2Plus .zero).run (CardSlots.memInitialize .zero .blank)
        [.rom (.storeCxRom 6 fun _ => 6), .rom (.storeCxRom 3 fun _ => 3)]
      ¬ ∀ slot rom, c.cards slot = some rom → c.Reads .apple2Plus slot rom := by
  constructor
  · intro c
    have hreads : ∀ slot rom, c.cards slot = some rom → c.Reads .apple2Plus slot rom :=
      (@cardRoms_run .apple2Plus rfl .zero .blank rfl [.rom (.storeCxRom 6 fun _ => 6),
        .write 0 0xC00B 0, .rom (.storeCxRom 7 fun _ => 7)]
        ⟨trivial, trivial, trivial, trivial⟩).2 fun rom hrom => nomatch hrom
    exact ⟨rfl, hreads 6 _ rfl, rfl, hreads 7 _ rfl⟩
  · intro c hreads
    have hzero : ∀ rom, c.cards 3 = some rom → rom = fun _ => 0 :=
      (@cardRoms_run .apple2Plus rfl .zero .blank rfl [.rom (.storeCxRom 6 fun _ => 6),
        .rom (.storeCxRom 3 fun _ => 3)] ⟨trivial, trivial, trivial⟩).1 hreads
    exact absurd (congrFun (hzero (fun _ => 3) rfl) 0) (by decide)

/-- **A card in slot 3 of a II Plus is not seen**: its page is registered, and zeros
are read. -/
theorem not_reads_slot3 :
    let c := (cardMachine .apple2Plus .zero).run (CardSlots.memInitialize .zero .blank)
      [.rom (.storeCxRom 3 fun _ => 0xA9)]
    c.cards 3 = some (fun _ => 0xA9) ∧ ¬ c.Reads .apple2Plus 3 (fun _ => 0xA9) := by
  have hwired : ((CardSlots.memInitialize .zero .blank).step .apple2Plus .zero
      (.rom (.storeCxRom 3 fun _ => 0xA9))).Wired :=
    (CardSlots.wired_memInitialize .zero .blank rfl).step rfl trivial
  refine ⟨rfl, fun h => ?_⟩
  have hzero := (hwired.reads_iff rfl rfl).mp h rfl
  exact absurd (congrFun hzero 0) (by decide)

end LinApple.Slots
