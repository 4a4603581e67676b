import LinApple.Lib.Machine
import LinApple.Slots.Dispatch

/-!
# The ROM in the window

Which expansion ROM is in the window at `$C800-$CFFF` is written down in `expansion_rom_type` and
`peripheral_rom_slot`, and the ROM itself is copied into the image. The soft switches and the
reads that move it keep the two together. A hard reset and a snapshot copy the internal ROM in and
leave what is written down alone; and a card that leaves takes its ROM from the table, and not
from the window.

`WindowShows` is what is to hold, of the two fields, the table of ROMs and the image, and of
nothing else. It does not say that a slot must be selected: with none, the window may hold
anything. `Proper` is the rest of what a step needs, such as that slot 0 never has an expansion
ROM, or that the window is always read through `io_read_cxxx`; these hold in every state that is
reached, whether the window shows what it should or not, so they are kept apart and cost the
statement nothing.

The condition on a step (`Keeps`) reads the state before it: a reset or a snapshot must find no
card's ROM selected, or one that happens to be the internal ROM byte for byte, and a registration
must leave the ROM of the selected slot as it is. It is exact, and `windowShows_run` says so: from
every state that is reached by steps that meet it, a step keeps the window if and only if it meets
it too. A card's registration is a handful of such steps, which is why they stand here one by one
and not as one step for a card.

The last part of the theorem is what it is all for: an access to the window while a card is
selected is answered with that card's byte. There the state may be one in which the copy is yet to
be made, since `io_read_cxxx` makes it at the access.
-/

namespace LinApple.Slots

open Memory

/-! ## The window -/

/-- **The window shows the ROM that is written down.** There are two records of it, what kind of
ROM it is and whose, and the bytes in the window are a third; where no ROM is written down,
nothing is asked of the window. -/
structure WindowShows (roms : Slot → Option ExpansionRom) (s : MemoryInstance) :
    Prop where
  /-- A card's ROM is that of the slot that is written down. -/
  peripheral : s.expansionRomType = .peripheral →
    ∃ (slot : Slot) (rom : ExpansionRom), s.peripheralRomSlot = slot.val
      ∧ roms slot = some rom ∧ ∀ p, isExpansionPage p = true → s.mem p = romPage rom p
  /-- The internal ROM is the one that is stored. -/
  internal : s.expansionRomType = .internal →
    ∀ p, isExpansionPage p = true → s.mem p = s.stores (cxInternalPtr p)

/-- Two memories with one window. -/
structure SameWindow (s t : MemoryInstance) : Prop where
  /-- The ROM that is written down. -/
  type : t.expansionRomType = s.expansionRomType
  /-- Its slot. -/
  slot : t.peripheralRomSlot = s.peripheralRomSlot
  /-- What is shown. -/
  mem : ∀ p, isExpansionPage p = true → t.mem p = s.mem p
  /-- The internal ROM. -/
  internal : ∀ p, isExpansionPage p = true →
    t.stores (cxInternalPtr p) = s.stores (cxInternalPtr p)

section Window

variable {roms : Slot → Option ExpansionRom} {s t : MemoryInstance}

theorem SameWindow.windowShows (h : SameWindow s t) (hs : WindowShows roms s) :
    WindowShows roms t where
  peripheral ht := by
    obtain ⟨slot, rom, hslot, hrom, hmem⟩ := hs.peripheral (h.type.symm.trans ht)
    exact ⟨slot, rom, h.slot.trans hslot, hrom, fun p hp => (h.mem p hp).trans (hmem p hp)⟩
  internal ht p hp := by
    rw [h.mem p hp, h.internal p hp, hs.internal (h.type.symm.trans ht) p hp]

/-- An empty window shows nothing wrong. -/
theorem windowShows_of_null (h : s.expansionRomType = .null) : WindowShows roms s where
  peripheral hp := ExpansionRomType.noConfusion (h.symm.trans hp)
  internal hp := ExpansionRomType.noConfusion (h.symm.trans hp)

/-- The internal ROM switched in is shown. -/
theorem windowShows_enableInternalRom (s : MemoryInstance) :
    WindowShows roms (enableInternalRom s) where
  peripheral hp := ExpansionRomType.noConfusion hp
  internal _ _ hp := if_pos hp

/-- A card's ROM switched in is shown. -/
theorem windowShows_showExpansionRom (s : MemoryInstance) {slot : Slot}
    {rom : ExpansionRom} (h : roms slot = some rom) :
    WindowShows roms (showExpansionRom slot rom s) where
  peripheral _ := ⟨slot, rom, rfl, h, fun _ hp => if_pos hp⟩
  internal hp := ExpansionRomType.noConfusion hp

@[simp] theorem memUpdatePaging_expansionRomType (init : Bool) (s : MemoryInstance) :
    (memUpdatePaging init s).expansionRomType = s.expansionRomType :=
  foldl_updatePage_eq (·.expansionRomType)
    (fun _ _ => by unfold updatePage; split_ifs <;> rfl) _ _

@[simp] theorem memUpdatePaging_peripheralRomSlot (init : Bool) (s : MemoryInstance) :
    (memUpdatePaging init s).peripheralRomSlot = s.peripheralRomSlot :=
  foldl_updatePage_eq (·.peripheralRomSlot)
    (fun _ _ => by unfold updatePage; split_ifs <;> rfl) _ _

/-- **An update of the paging leaves the window alone**: its pages show the
internal ROM's page in every mode, and are not turned. -/
theorem sameWindow_memUpdatePaging {m : MemMode} (h : TablesOf m s) :
    SameWindow s (memUpdatePaging false s) where
  type := memUpdatePaging_expansionRomType false s
  slot := memUpdatePaging_peripheralRomSlot false s
  mem p hp := by
    rw [← toWriteBack_live, toWriteBack_memUpdatePaging s fun _ hp => h.memshadow_expansion hp,
      WriteBack.turnAll_live_of_stays, toWriteBack_live]
    rw [updateShadow_expansion _ _ hp, toWriteBack_map, h.memshadow_expansion hp]
  internal p hp := by
    rw [← toWriteBack_store, toWriteBack_memUpdatePaging s fun _ hp => h.memshadow_expansion hp,
      WriteBack.turnAll_store_of_stays, toWriteBack_store]
    intro q hq
    have hqp : q = p := by
      have hown : ownerPage (s.memshadow q) = q := by
        rw [h.memshadow_eq]
        exact ownerPage_shadowTable _ q
      rw [show s.memshadow q = cxInternalPtr p from hq, ownerPage_cxInternalPtr] at hown
      exact hown.symm
    rw [hqp, updateShadow_expansion _ _ hp]

/-- What the expansion ROM logic of the soft switches leaves is shown. -/
theorem windowShows_moveExpansionRom (last : MemMode) (hs : WindowShows roms s) :
    WindowShows roms (moveExpansionRom last s) := by
  unfold moveExpansionRom
  split_ifs
  · exact windowShows_of_null rfl
  · exact windowShows_enableInternalRom s
  · exact hs

/-- **A soft switch keeps the window as it is written down.** -/
theorem windowShows_memSetPaging (ty : Apple2Type) (pc addr : UInt16) (h : HasTables s)
    (hs : WindowShows roms s) : WindowShows roms (memSetPaging ty s pc addr) := by
  rcases memSetPaging_cases ty s pc addr with ⟨-, heq⟩ | ⟨-, -, -, heq⟩ | ⟨-, heq⟩
  · rw [heq]
    exact ⟨hs.peripheral, hs.internal⟩
  · rw [heq]
    exact ⟨hs.peripheral, hs.internal⟩
  · obtain ⟨m, hm, -⟩ := h
    have hbegin : TablesOf m (beginUpdate ty s (addr.toNat % 0x100)) :=
      ⟨(beginUpdate_memshadow ty s _).trans hm.memshadow_eq,
        (beginUpdate_memwrite ty s _).trans hm.memwrite_eq⟩
    rw [heq]
    exact (sameWindow_memUpdatePaging hbegin).windowShows
      (windowShows_moveExpansionRom _ ⟨hs.peripheral, hs.internal⟩)

/-- What the soft switches write down has a slot only with a card's ROM. -/
theorem peripheral_memSetPaging (ty : Apple2Type) (pc addr : UInt16)
    (h : s.peripheralRomSlot ≠ 0 → s.expansionRomType = .peripheral)
    (hslot : (memSetPaging ty s pc addr).peripheralRomSlot ≠ 0) :
    (memSetPaging ty s pc addr).expansionRomType = .peripheral := by
  rcases memSetPaging_cases ty s pc addr with ⟨-, heq⟩ | ⟨-, -, -, heq⟩ | ⟨-, heq⟩
  · rw [heq] at hslot ⊢
    exact h hslot
  · rw [heq] at hslot ⊢
    exact h hslot
  · rw [heq, memUpdatePaging_peripheralRomSlot, beginUpdate, moveExpansionRom] at hslot
    rw [heq, memUpdatePaging_expansionRomType, beginUpdate, moveExpansionRom]
    split_ifs at hslot ⊢
    · exact absurd rfl hslot
    · exact absurd rfl hslot
    · exact h hslot

end Window

/-! ## Runs -/

/-- What happens to the window. A card that is registered or removed enters
its functions and its ROMs one by one. -/
inductive RomOp where
  /-- A read of `$C100-$CFFF`. -/
  | read (a : CxAddr)
  /-- `mem_set_paging` -/
  | switch (pc addr : UInt16)
  /-- `mem_reset` -/
  | resetHard
  /-- The soft reset. -/
  | resetSoft
  /-- A snapshot is loaded. -/
  | load (snapshot : SsBaseMemory)
  /-- `register_io_handler` -/
  | registerIo (slot : Slot) (readC0 writeC0 readCx writeCx : Option IoFunction)
      (rom : Option ExpansionRom)
  /-- `register_direct_io_handler` -/
  | registerDirect (addr : UInt16) (read write : Option IoFunction)
  /-- A page of card ROM is stored. -/
  | storeCxRom (slot : Slot) (rom : PageData)

namespace IoMemory

/-- One step. -/
def step (ty : Apple2Type) (pattern : MemoryInitPattern) (s : IoMemory) : RomOp → IoMemory
  | .read a => (s.ioMapDispatch ty a false).1
  | .switch pc addr => { s with memory := memSetPaging ty s.memory pc addr }
  | .resetHard => { s with memory := memReset pattern s.memory }
  | .resetSoft =>
    if ty.isApple2 then s else { s with memory := resetPaging false s.memory }
  | .load snapshot =>
    let r := memReset pattern s.memory
    let r := if ty.isApple2 then r else resetPaging false r
    { s with memory := memSetSnapshot snapshot r }
  | .registerIo slot readC0 writeC0 readCx writeCx rom =>
    s.registerIoHandler slot readC0 writeC0 readCx writeCx rom
  | .registerDirect addr read write => s.registerDirectIoHandler addr read write
  | .storeCxRom slot rom => s.storeCxRom slot rom

/-- The window shows the ROM that is written down. -/
def WindowShows (s : IoMemory) : Prop := Slots.WindowShows s.expansionRom s.memory

/-- **What always holds.** -/
structure Proper (s : IoMemory) : Prop where
  /-- The tables of a mode stand. -/
  tables : HasTables s.memory
  /-- Slot 0 has no expansion ROM. -/
  slot0 : s.expansionRom 0 = none
  /-- A slot is written down only with a card's ROM. -/
  slot : s.memory.peripheralRomSlot ≠ 0 → s.memory.expansionRomType = .peripheral
  /-- The window is read through `io_read_cxxx`. -/
  window : ∀ i, 0x108 ≤ i → i < 0x110 → s.ioRead i = some .cxxx

/-- **What keeps the window as it is written down.** A card's ROM in it must
be what the internal ROM is copied over; the card must not lose it; and
`$CFFF` must not be read where the ROM cannot be switched off. -/
def Keeps (s : IoMemory) : RomOp → Prop
  | .read a => a.1 = 0xCFFF → s.memory.memMode.slotcxrom = false →
      s.memory.expansionRomType ≠ .peripheral
  | .switch _ _ => True
  | .resetHard | .load _ => s.memory.expansionRomType = .peripheral →
      ∀ p, isExpansionPage p = true → s.memory.mem p = s.memory.stores (cxInternalPtr p)
  | .resetSoft => True
  | .registerIo slot _ _ _ _ rom => s.memory.expansionRomType = .peripheral →
      s.memory.peripheralRomSlot = slot.val →
      ∃ r, rom = some r ∧ ∀ p, isExpansionPage p = true → s.memory.mem p = romPage r p
  | .registerDirect _ _ _ => True
  | .storeCxRom _ _ => True

/-! ## Reading -/

section Read

variable (ty : Apple2Type) {s : IoMemory}

theorem windowShows_selectSlot (hs : s.WindowShows) (slot : Slot) :
    (s.selectSlot slot).WindowShows := by
  unfold selectSlot
  split_ifs <;> exact hs

theorem windowShows_enableExpansionRom (hs : s.WindowShows) :
    s.enableExpansionRom.WindowShows := by
  unfold enableExpansionRom
  split
  · exact hs
  · split
    · exact hs
    · next hrom =>
      split_ifs
      · exact windowShows_showExpansionRom _ hrom
      · exact hs

theorem windowShows_enableInternal (hs : s.WindowShows) :
    s.enableInternal.WindowShows := by
  unfold enableInternal
  split_ifs
  · exact windowShows_enableInternalRom _
  · exact hs

/-- `$CFFF` keeps the window as it is written down if it can switch the card's
ROM off: where it cannot, it writes slot 0 down. -/
theorem windowShows_disableExpansionRom (hp : s.Proper) (hs : s.WindowShows) :
    s.disableExpansionRom.WindowShows ↔ (s.memory.memMode.slotcxrom = false →
      s.memory.expansionRomType ≠ .peripheral) := by
  unfold disableExpansionRom IoMemory.WindowShows
  split_ifs with hcx
  · exact iff_of_true (windowShows_of_null rfl) fun hno => absurd (hcx.symm.trans hno) (by decide)
  · refine ⟨fun h _ htype => ?_, fun h => ⟨fun htype => ?_, hs.internal⟩⟩
    · obtain ⟨slot, rom, hslot, hrom, -⟩ := h.peripheral htype
      have hzero : slot = 0 := Fin.ext hslot.symm
      rw [hzero, hp.slot0] at hrom
      exact nomatch hrom
    · exact absurd htype (h (Bool.eq_false_iff.mpr hcx))

/-- **A read keeps the window as it is written down** exactly when it should. -/
theorem windowShows_selectRom (hp : s.Proper) (hs : s.WindowShows) (a : UInt16) :
    (s.selectRom ty a).WindowShows ↔ (a = 0xCFFF → s.memory.memMode.slotcxrom = false →
      s.memory.expansionRomType ≠ .peripheral) := by
  by_cases ha : a = 0xCFFF
  · -- nothing is selected any more
    have hnone : (List.finRange 8).any s.disableExpansionRom.ioSelect = false := rfl
    have hinternal : s.disableExpansionRom.enableInternal = s.disableExpansionRom :=
      if_neg fun h => Bool.false_ne_true h.1
    have hslot : isSlotAddr 0xCFFF = false := rfl
    have heq : s.selectRom ty 0xCFFF = s.disableExpansionRom := by
      unfold selectRom
      dsimp only
      rw [if_pos rfl, hslot, hnone, hinternal]
      simp only [Bool.false_eq_true, if_false, ite_self]
    rw [ha, heq, windowShows_disableExpansionRom hp hs]
    exact ⟨fun h _ => h, fun h => h rfl⟩
  · refine iff_of_true ?_ fun h => absurd h ha
    unfold selectRom
    dsimp only
    rw [if_neg ha]
    split_ifs
    · exact windowShows_selectSlot hs _
    · exact windowShows_enableExpansionRom hs
    · exact windowShows_enableInternal hs
    · exact hs
    · exact windowShows_enableInternal hs

end Read

/-! ## What always holds -/

section Proper

variable (ty : Apple2Type) {s : IoMemory}

/-- The tables stand as long as what decides them does. -/
theorem hasTables_congr {r t : MemoryInstance} (h : HasTables r)
    (hshadow : t.memshadow = r.memshadow) (hwrite : t.memwrite = r.memwrite)
    (hmode : t.memMode = r.memMode) (hchanging : t.modeChanging = r.modeChanging) :
    HasTables t := by
  obtain ⟨m, hm, hdefers, hcur⟩ := h
  refine ⟨m, ⟨hshadow.trans hm.memshadow_eq, hwrite.trans hm.memwrite_eq⟩, ?_, ?_⟩
  · rwa [hmode]
  · rwa [hmode, hchanging]

theorem Proper.disableExpansionRom (h : s.Proper) : s.disableExpansionRom.Proper where
  tables := by
    unfold IoMemory.disableExpansionRom
    split_ifs
    · exact hasTables_congr h.tables rfl rfl rfl rfl
    · exact hasTables_congr h.tables rfl rfl rfl rfl
  slot0 := h.slot0
  slot hslot := by
    unfold IoMemory.disableExpansionRom at hslot
    split_ifs at hslot <;> exact absurd rfl hslot
  window := h.window

theorem Proper.selectSlot (h : s.Proper) (slot : Slot) : (s.selectSlot slot).Proper := by
  unfold IoMemory.selectSlot
  split_ifs <;> exact ⟨h.tables, h.slot0, h.slot, h.window⟩

theorem Proper.enableExpansionRom (h : s.Proper) : s.enableExpansionRom.Proper := by
  unfold IoMemory.enableExpansionRom
  split
  · exact h
  · split
    · exact h
    · split_ifs
      · exact ⟨hasTables_congr h.tables rfl rfl rfl rfl, h.slot0, fun _ => rfl, h.window⟩
      · exact h

theorem Proper.enableInternal (h : s.Proper) : s.enableInternal.Proper := by
  unfold IoMemory.enableInternal
  split_ifs
  · exact ⟨hasTables_congr h.tables rfl rfl rfl rfl, h.slot0, fun hno => absurd rfl hno,
      h.window⟩
  · exact h

theorem Proper.selectRom (h : s.Proper) (a : UInt16) : (s.selectRom ty a).Proper := by
  have h' : (if a = 0xCFFF then s.disableExpansionRom else s).Proper := by
    split_ifs
    · exact h.disableExpansionRom
    · exact h
  unfold IoMemory.selectRom
  dsimp only
  generalize (if a = 0xCFFF then s.disableExpansionRom else s) = t at h' ⊢
  split_ifs
  · exact h'.selectSlot _
  · exact h'.enableExpansionRom
  · exact h'.enableInternal
  · exact ⟨h'.tables, h'.slot0, h'.slot, h'.window⟩
  · exact h'.enableInternal

/-- A read goes to `io_read_cxxx` or changes nothing. -/
theorem ioMapDispatch_read (a : UInt16) :
    (s.ioMapDispatch ty a false).1 = s.selectRom ty a ∨ (s.ioMapDispatch ty a false).1 = s := by
  have hcall : ∀ f, (s.call ty a false f).1 = s.selectRom ty a ∨ (s.call ty a false f).1 = s := by
    intro f
    cases f with
    | none => exact .inr rfl
    | some f =>
      cases f <;> first
        | exact .inl rfl
        | exact .inr rfl
  unfold ioMapDispatch
  dsimp only
  split_ifs <;> exact hcall _

/-- The window itself is read through `io_read_cxxx`. -/
theorem ioMapDispatch_window (h : s.Proper) {a : UInt16} (ha : 0xC800 ≤ a ∧ a ≤ 0xCFFF) :
    s.ioMapDispatch ty a false = s.ioReadCxxx ty a := by
  have hlo : 0xC800 ≤ a.toNat := UInt16.le_iff_toNat_le.mp ha.1
  have hhi : a.toNat ≤ 0xCFFF := UInt16.le_iff_toNat_le.mp ha.2
  unfold ioMapDispatch
  dsimp only
  rw [if_neg (by omega), if_neg Bool.false_ne_true]
  split_ifs
  · rfl
  · rw [h.window _ (by omega) (by omega)]
    rfl

end Proper

/-! ## Steps -/

section Step

variable {ty : Apple2Type} {pattern : MemoryInitPattern} {s : IoMemory}

/-- The internal ROM copied in over the window keeps it as it is written down
if nothing is seen of it. -/
theorem windowShows_initialise (hs : s.WindowShows) {t : MemoryInstance}
    (htype : t.expansionRomType = s.memory.expansionRomType)
    (hslot : t.peripheralRomSlot = s.memory.peripheralRomSlot)
    (hmem : ∀ p, isExpansionPage p = true → t.mem p = s.memory.stores (cxInternalPtr p))
    (hstores : ∀ p, isExpansionPage p = true →
      t.stores (cxInternalPtr p) = s.memory.stores (cxInternalPtr p)) :
    Slots.WindowShows s.expansionRom t ↔ (s.memory.expansionRomType = .peripheral →
      ∀ p, isExpansionPage p = true →
        s.memory.mem p = s.memory.stores (cxInternalPtr p)) := by
  constructor
  · intro h hperipheral p hpage
    obtain ⟨slot, rom, hs1, hrom, hshow⟩ := hs.peripheral hperipheral
    obtain ⟨slot', rom', hs1', hrom', hshow'⟩ := h.peripheral (htype.trans hperipheral)
    have hsame : slot' = slot := Fin.ext (hs1'.symm.trans (hslot.trans hs1))
    rw [hsame, hrom] at hrom'
    rw [hshow p hpage, Option.some.inj hrom', ← hshow' p hpage, hmem p hpage]
  · intro h
    refine ⟨fun hperipheral => ?_, fun _ p hpage => ?_⟩
    · have hperipheral := htype.symm.trans hperipheral
      obtain ⟨slot, rom, hs1, hrom, hshow⟩ := hs.peripheral hperipheral
      exact ⟨slot, rom, hslot.trans hs1, hrom, fun p hpage => by
        rw [hmem p hpage, ← h hperipheral p hpage, hshow p hpage]⟩
    · rw [hmem p hpage, hstores p hpage]

/-- `mem_reset` copies the internal ROM over the window. -/
theorem windowShows_memReset (hs : s.WindowShows) :
    Slots.WindowShows s.expansionRom (memReset pattern s.memory)
      ↔ s.Keeps .resetHard := by
  rw [memReset_eq]
  refine windowShows_initialise hs rfl rfl (fun p hpage => ?_) fun p hpage => rfl
  show resetStores pattern s.memory (shadowTable MemMode.reset p) = _
  rw [shadowTable_expansion _ hpage]
  rfl

/-- What a load leaves of the memory it is made in. -/
theorem memSetSnapshot_window (snapshot : SsBaseMemory) (r : MemoryInstance) :
    (memSetSnapshot snapshot r).expansionRomType = r.expansionRomType
    ∧ (memSetSnapshot snapshot r).peripheralRomSlot = r.peripheralRomSlot
    ∧ ∀ p, isExpansionPage p = true →
      (memSetSnapshot snapshot r).mem p = r.stores (cxInternalPtr p)
      ∧ (memSetSnapshot snapshot r).stores (cxInternalPtr p) = r.stores (cxInternalPtr p) := by
  obtain ⟨stores, -, -, hrom, h⟩ := memSetSnapshot_eq snapshot r
  rw [h]
  refine ⟨rfl, rfl, fun p hp => ⟨?_, ?_⟩⟩
  · show stores (shadowTable snapshot.memMode p) = _
    rw [shadowTable_expansion _ hp]
    exact hrom _ (fun h => Bank.noConfusion h) fun h => Bank.noConfusion h
  · exact hrom _ (fun h => Bank.noConfusion h) fun h => Bank.noConfusion h

/-- The soft reset leaves the window alone. -/
theorem sameWindow_resetPaging {r : MemoryInstance} (h : HasTables r) :
    SameWindow r (resetPaging false r) := by
  obtain ⟨m, hm, -⟩ := h
  have hsame := @sameWindow_memUpdatePaging
    { r with lastWriteRam := false, memMode := MemMode.reset } m
    ⟨hm.memshadow_eq, hm.memwrite_eq⟩
  unfold resetPaging
  exact ⟨hsame.type, hsame.slot, hsame.mem, hsame.internal⟩

/-- A snapshot copies the internal ROM over the window. -/
theorem windowShows_load (hs : s.WindowShows) (snapshot : SsBaseMemory) :
    (s.step ty pattern (.load snapshot)).WindowShows ↔ s.Keeps (.load snapshot) := by
  have hreset : SameWindow (memReset pattern s.memory)
      (if ty.isApple2 then memReset pattern s.memory
        else resetPaging false (memReset pattern s.memory)) := by
    split_ifs
    · exact ⟨rfl, rfl, fun _ _ => rfl, fun _ _ => rfl⟩
    · exact sameWindow_resetPaging (sound_memReset pattern s.memory).1.tables
  obtain ⟨htype, hslot, hwindow⟩ := memSetSnapshot_window snapshot
    (if ty.isApple2 then memReset pattern s.memory
      else resetPaging false (memReset pattern s.memory))
  have hstores : ∀ p, isExpansionPage p = true →
      (if ty.isApple2 then memReset pattern s.memory
        else resetPaging false (memReset pattern s.memory)).stores (cxInternalPtr p)
      = s.memory.stores (cxInternalPtr p) := fun p hp => by
    rw [hreset.internal p hp, memReset_eq]
    rfl
  refine windowShows_initialise hs (htype.trans ?_) (hslot.trans ?_)
    (fun p hp => (hwindow p hp).1.trans (hstores p hp))
    fun p hp => (hwindow p hp).2.trans (hstores p hp)
  · rw [hreset.type, memReset_eq]
  · rw [hreset.slot, memReset_eq]

/-- **A card that changes its expansion ROM** keeps the window as it is
written down if the window does not show the one it had. -/
theorem windowShows_registerIo (hp : s.Proper) (hs : s.WindowShows) (slot : Slot)
    (readC0 writeC0 readCx writeCx : Option IoFunction) (rom : Option ExpansionRom) :
    (s.registerIoHandler slot readC0 writeC0 readCx writeCx rom).WindowShows
      ↔ s.Keeps (.registerIo slot readC0 writeC0 readCx writeCx rom) := by
  unfold IoMemory.WindowShows
  rw [memory_registerIoHandler, expansionRom_registerIoHandler]
  constructor
  · intro h htype hslot
    obtain ⟨slot', rom', hslot', hrom', hshow⟩ := h.peripheral htype
    obtain rfl : slot = slot' := Fin.ext (hslot.symm.trans hslot')
    split_ifs at hrom' with hzero
    · rw [hzero, hp.slot0] at hrom'
      exact nomatch hrom'
    · rw [Function.update_self] at hrom'
      exact ⟨rom', hrom', hshow⟩
  · intro h
    refine ⟨fun htype => ?_, hs.internal⟩
    obtain ⟨slot', rom', hslot', hrom', hshow⟩ := hs.peripheral htype
    split_ifs with hzero
    · exact ⟨slot', rom', hslot', hrom', hshow⟩
    by_cases hsame : slot' = slot
    · obtain ⟨r, hr, hshow⟩ := h htype (hsame ▸ hslot')
      exact ⟨slot, r, hsame ▸ hslot', by rw [Function.update_self, hr], hshow⟩
    · exact ⟨slot', rom', hslot', by rw [Function.update_of_ne hsame, hrom'], hshow⟩

/-- A page of card ROM is not in the window. -/
theorem sameWindow_storeCxPage (slot : Slot) (rom : PageData) (r : MemoryInstance) :
    SameWindow r (storeCxPage slot rom r) := by
  have hstore : ∀ p, cxInternalPtr p ≠ cxPeripheralPtr (slotPage slot) := fun p he =>
    Bank.noConfusion (congrArg PagePtr.bank he)
  have hpage : ∀ p, isExpansionPage p = true → p ≠ slotPage slot := fun p hp he => by
    have hval : p.val = 0xC0 + slot.val := congrArg Fin.val he
    simp only [isExpansionPage, Bool.and_eq_true, decide_eq_true_eq] at hp
    omega
  refine ⟨rfl, rfl, fun p hp => ?_, fun p _ => Function.update_of_ne (hstore p) rom _⟩
  unfold storeCxPage
  dsimp only
  split_ifs
  · exact Function.update_of_ne (hpage p hp) _ _
  · rfl

/-- **A step keeps the window as it is written down exactly when it should.** -/
theorem windowShows_step (hp : s.Proper) (hs : s.WindowShows) (op : RomOp) :
    (s.step ty pattern op).WindowShows ↔ s.Keeps op := by
  -- what closes by `iff_of_true` cannot part the window from its ROM; the others say when they do
  cases op with
  | read a =>
    by_cases ha : 0xC800 ≤ a.1
    · rw [step, ioMapDispatch_window ty hp ⟨ha, a.2.2⟩]
      exact windowShows_selectRom ty hp hs a.1
    · have hne : a.1 ≠ 0xCFFF := fun he => ha (by rw [he]; decide)
      refine iff_of_true ?_ fun h => absurd h hne
      rcases ioMapDispatch_read ty (s := s) a.1 with h | h <;> rw [step, h]
      · exact (windowShows_selectRom ty hp hs a.1).mpr fun h => absurd h hne
      · exact hs
  | switch pc addr =>
    exact iff_of_true (windowShows_memSetPaging ty pc addr hp.tables hs) trivial
  | resetHard =>
    unfold step IoMemory.WindowShows
    dsimp only
    exact windowShows_memReset hs
  | resetSoft =>
    refine iff_of_true ?_ trivial
    unfold step IoMemory.WindowShows
    dsimp only
    split_ifs
    · exact hs
    · dsimp only
      exact (sameWindow_resetPaging hp.tables).windowShows hs
  | load snapshot => exact windowShows_load hs snapshot
  | registerIo slot readC0 writeC0 readCx writeCx rom =>
    exact windowShows_registerIo hp hs slot readC0 writeC0 readCx writeCx rom
  | registerDirect addr read write =>
    refine iff_of_true ?_ trivial
    unfold step registerDirectIoHandler
    dsimp only
    split_ifs <;> exact hs
  | storeCxRom slot rom =>
    refine iff_of_true ?_ trivial
    unfold step storeCxRom IoMemory.WindowShows
    dsimp only
    split_ifs
    · exact hs
    · dsimp only
      exact (sameWindow_storeCxPage slot rom s.memory).windowShows hs

theorem ioRead_registerIoHandler (slot : Slot)
    (readC0 writeC0 readCx writeCx : Option IoFunction) (rom : Option ExpansionRom) {i : Nat}
    (hi : 0x108 ≤ i) : (s.registerIoHandler slot readC0 writeC0 readCx writeCx rom).ioRead i
      = s.ioRead i := by
  have hc0 : setC0 slot readC0 s.ioRead i = s.ioRead i := if_neg (by omega)
  unfold registerIoHandler
  dsimp only
  split_ifs
  · exact hc0
  · exact (Function.update_of_ne (by omega) _ _).trans hc0

/-- The soft reset leaves the tables of the mode it sets. -/
theorem hasTables_resetPaging {r : MemoryInstance} (h : HasTables r) :
    HasTables (resetPaging false r) := by
  obtain ⟨m, hm, -⟩ := h
  have htables : TablesOf MemMode.reset (resetPaging false r) := by
    unfold resetPaging
    exact @TablesOf.memUpdatePaging m
      { r with lastWriteRam := false, memMode := MemMode.reset }
      ⟨hm.memshadow_eq, hm.memwrite_eq⟩
  have hmode : (resetPaging false r).memMode = MemMode.reset := by
    rw [resetPaging, memUpdatePaging_memMode]
  exact ⟨MemMode.reset, htables, by rw [hmode]; exact MemMode.DefersFrom.refl _,
    .inl hmode.symm⟩

/-- A load leaves the tables of the mode it brings. -/
theorem hasTables_memSetSnapshot (snapshot : SsBaseMemory) (r : MemoryInstance) :
    HasTables (memSetSnapshot snapshot r) := by
  obtain ⟨stores, -, -, -, h⟩ := memSetSnapshot_eq snapshot r
  rw [h]
  exact ⟨snapshot.memMode, ⟨rfl, rfl⟩, MemMode.DefersFrom.refl _, .inl rfl⟩

theorem Proper.withMemory (hp : s.Proper) {t : MemoryInstance} (ht : HasTables t)
    (htype : t.expansionRomType = s.memory.expansionRomType)
    (hslot : t.peripheralRomSlot = s.memory.peripheralRomSlot) :
    ({ s with memory := t } : IoMemory).Proper :=
  ⟨ht, hp.slot0, fun h => htype.trans (hp.slot fun hzero => h (hslot.trans hzero)), hp.window⟩

theorem expansionRomType_memReset (pattern : MemoryInitPattern) (r : MemoryInstance) :
    (memReset pattern r).expansionRomType = r.expansionRomType := by rw [memReset_eq]

theorem peripheralRomSlot_memReset (pattern : MemoryInitPattern) (r : MemoryInstance) :
    (memReset pattern r).peripheralRomSlot = r.peripheralRomSlot := by rw [memReset_eq]

/-- What always holds, every step keeps. -/
theorem Proper.step (hp : s.Proper) (op : RomOp) : (s.step ty pattern op).Proper := by
  -- slot 0 has no expansion ROM and no step gives it one, and no registration reaches the window's
  -- own entries
  cases op with
  | read a =>
    rcases ioMapDispatch_read ty (s := s) a.1 with h | h <;> rw [IoMemory.step, h]
    · exact hp.selectRom ty a.1
    · exact hp
  | switch pc addr =>
    exact ⟨hp.tables.memSetPaging ty pc addr, hp.slot0,
      peripheral_memSetPaging ty pc addr hp.slot, hp.window⟩
  | resetHard =>
    exact hp.withMemory (sound_memReset pattern s.memory).1.tables
      (expansionRomType_memReset pattern s.memory) (peripheralRomSlot_memReset pattern s.memory)
  | resetSoft =>
    unfold IoMemory.step
    dsimp only
    split_ifs
    · exact hp
    · exact hp.withMemory (hasTables_resetPaging hp.tables)
        (sameWindow_resetPaging hp.tables).type (sameWindow_resetPaging hp.tables).slot
  | load snapshot =>
    have hreset := sameWindow_resetPaging (sound_memReset pattern s.memory).1.tables
    obtain ⟨htype, hslot, -⟩ := memSetSnapshot_window snapshot
      (if ty.isApple2 then memReset pattern s.memory
        else resetPaging false (memReset pattern s.memory))
    refine hp.withMemory (hasTables_memSetSnapshot snapshot _) (htype.trans ?_)
      (hslot.trans ?_)
    · split_ifs
      · exact expansionRomType_memReset pattern s.memory
      · exact hreset.type.trans (expansionRomType_memReset pattern s.memory)
    · split_ifs
      · exact peripheralRomSlot_memReset pattern s.memory
      · exact hreset.slot.trans (peripheralRomSlot_memReset pattern s.memory)
  | registerIo slot readC0 writeC0 readCx writeCx rom =>
    have hmemory := memory_registerIoHandler (s := s) slot readC0 writeC0 readCx writeCx rom
    refine ⟨?_, ?_, ?_, fun i hlo hhi => ?_⟩
    · rw [IoMemory.step, hmemory]
      exact hp.tables
    · rw [IoMemory.step, expansionRom_registerIoHandler]
      split_ifs with hzero
      · exact hp.slot0
      · exact (Function.update_of_ne (Ne.symm hzero) _ _).trans hp.slot0
    · rw [IoMemory.step, hmemory]
      exact hp.slot
    · exact (ioRead_registerIoHandler slot readC0 writeC0 readCx writeCx rom hlo).trans
        (hp.window i hlo hhi)
  | registerDirect addr read write =>
    unfold IoMemory.step registerDirectIoHandler
    dsimp only
    split_ifs
    · exact ⟨hp.tables, hp.slot0, hp.slot, fun i hlo hhi =>
        (Function.update_of_ne (by omega) _ _).trans (hp.window i hlo hhi)⟩
    · exact hp
  | storeCxRom slot rom =>
    unfold IoMemory.step storeCxRom
    dsimp only
    split_ifs
    · exact hp
    · exact hp.withMemory (hasTables_congr hp.tables rfl rfl rfl rfl) rfl rfl

end Step

/-! ## The run -/

/-- The tables and the window before the memory is reset. -/
theorem initIoHandlers_registerIoHandler (s : IoMemory) :
    let t := s.initIoHandlers.registerIoHandler 0 (some .setPaging) (some .setPaging)
      none none none
    t.memory.expansionRomType = .null ∧ t.memory.peripheralRomSlot = 0
      ∧ t.expansionRom 0 = none ∧ ∀ i, 0x108 ≤ i → i < 0x110 → t.ioRead i = some .cxxx := by
  refine ⟨rfl, rfl, rfl, fun i hlo hhi => ?_⟩
  rw [ioRead_registerIoHandler 0 _ _ none none none hlo]
  show some (if i < 0x80 then IoFunction.c0xx else if i < 0x100 then .ioNull else .cxxx) = _
  rw [if_neg (by omega), if_neg (by omega)]

/-- The machine begins with nothing in the window. -/
theorem proper_windowShows_memInitialize (pattern : MemoryInitPattern) (s : IoMemory) :
    (s.memInitialize pattern).Proper ∧ (s.memInitialize pattern).WindowShows := by
  obtain ⟨htype, hslot, hzero, hwindow⟩ := initIoHandlers_registerIoHandler s
  unfold memInitialize
  dsimp only at htype hslot hzero hwindow ⊢
  generalize s.initIoHandlers.registerIoHandler 0 (some .setPaging) (some .setPaging)
    none none none = t at htype hslot hzero hwindow ⊢
  have htype := (expansionRomType_memReset pattern t.memory).trans htype
  have hslot := (peripheralRomSlot_memReset pattern t.memory).trans hslot
  have htables := (sound_memReset pattern t.memory).1.tables
  generalize memReset pattern t.memory = r at htype hslot htables ⊢
  exact ⟨⟨htables, hzero, fun h => absurd hslot h, hwindow⟩, windowShows_of_null htype⟩

/-- **A read of the window of a card that is selected** is answered with the
card's byte. -/
theorem ioMapDispatch_selected {ty : Apple2Type} {s : IoMemory} (hp : s.Proper)
    (hs : s.WindowShows) {a : UInt16} (ha : 0xC800 ≤ a ∧ a < 0xCFFF)
    (hty : (ty.isApple2 || s.memory.memMode.slotcxrom) = true) {slot : Slot}
    {rom : ExpansionRom} (hslot : s.firstSelected = some slot)
    (hrom : s.expansionRom slot = some rom) :
    (s.ioMapDispatch ty a false).2 = .byte (romPage rom (pageOf a) (offsetOf a)) := by
  have hlo : 0xC800 ≤ a.toNat := UInt16.le_iff_toNat_le.mp ha.1
  have hhi : a.toNat < 0xCFFF := UInt16.lt_iff_toNat_lt.mp ha.2
  have hpage : isExpansionPage (pageOf a) = true := by
    rw [isExpansionPage, Bool.and_eq_true, decide_eq_true_eq, decide_eq_true_eq, pageOf_val]
    omega
  have hfound := List.find?_some hslot
  rw [Bool.and_eq_true] at hfound
  have hany : (List.finRange 8).any s.ioSelect = true :=
    List.any_eq_true.mpr ⟨slot, List.mem_finRange slot, hfound.2⟩
  have hzero : slot.val ≠ 0 := fun h => by
    rw [show slot = 0 from Fin.ext h] at hfound
    exact absurd hfound.1 (by decide)
  have hne : a ≠ 0xCFFF := fun he => by
    rw [he] at hhi
    exact absurd hhi (by decide)
  have hnot : isSlotAddr a = false := decide_eq_false (UInt16.not_lt.mpr ha.1)
  have hselect : s.selectRom ty a = s.enableExpansionRom := by
    unfold selectRom
    dsimp only
    rw [if_neg hne, if_pos hty, hnot, if_neg Bool.false_ne_true, if_pos hany]
  -- either the ROM comes in now, or it is in and the window shows it
  have hshown : s.enableExpansionRom.memory.expansionRomType = .peripheral
      ∧ s.enableExpansionRom.memory.mem (pageOf a) = romPage rom (pageOf a) := by
    unfold enableExpansionRom
    rw [hslot]
    dsimp only
    rw [hrom]
    dsimp only
    split_ifs with hin
    · exact ⟨rfl, if_pos hpage⟩
    · have hin : s.memory.peripheralRomSlot = slot := not_not.mp hin
      have htype := hp.slot (hin ▸ hzero)
      obtain ⟨slot', rom', hslot', hrom', hmem⟩ := hs.peripheral htype
      obtain rfl : slot = slot' := Fin.ext (hin.symm.trans hslot')
      rw [hrom] at hrom'
      exact ⟨htype, by rw [Option.some.inj hrom', hmem _ hpage]⟩
  rw [ioMapDispatch_window ty hp ⟨ha.1, UInt16.le_iff_toNat_le.mpr (by
    show a.toNat ≤ 0xCFFF
    omega)⟩]
  unfold ioReadCxxx
  dsimp only
  rw [hselect, if_neg (fun h => by rw [hshown.1] at h; exact ExpansionRomType.noConfusion h.1),
    MemoryInstance.memByte, hshown.2]

end IoMemory

/-- **The window as a machine.** -/
def romMachine (ty : Apple2Type) (pattern : MemoryInitPattern) :
    Machine IoMemory RomOp Unit where
  next := IoMemory.step ty pattern
  out _ _ := none

section Runs

variable (ty : Apple2Type) (pattern : MemoryInitPattern) (s : IoMemory)

/-- **The window shows the ROM that is written down as long as every step
keeps it so**, and then the window of a card that is selected is read as the
card's; the first step that does not keep it so makes it show another. -/
theorem windowShows_run {ops : List RomOp}
    (has : (romMachine ty pattern).Admits (fun s op _ => s.Keeps op)
      (s.memInitialize pattern) ops) :
    let t := (romMachine ty pattern).run (s.memInitialize pattern) ops
    t.WindowShows ∧ (∀ op, (t.step ty pattern op).WindowShows ↔ t.Keeps op)
      ∧ ∀ a, 0xC800 ≤ a ∧ a < 0xCFFF → (ty.isApple2 || t.memory.memMode.slotcxrom) = true →
        ∀ slot rom, t.firstSelected = some slot → t.expansionRom slot = some rom →
        (t.ioMapDispatch ty a false).2 = .byte (romPage rom (pageOf a) (offsetOf a)) := by
  have hrun := (romMachine ty pattern).invariant_run
    (I := fun s => s.Proper ∧ s.WindowShows)
    (fun s op _ ⟨hp, hs⟩ hkeeps =>
      ⟨hp.step op, (IoMemory.windowShows_step hp hs op).mpr hkeeps⟩)
    (IoMemory.proper_windowShows_memInitialize pattern s) has
  exact ⟨hrun.2, fun op => IoMemory.windowShows_step hrun.1 hrun.2 op,
    fun a ha hty slot rom hslot hrom =>
      IoMemory.ioMapDispatch_selected hrun.1 hrun.2 ha hty hslot hrom⟩

end Runs

/-- A card in slot 1 is given an expansion ROM, and its page and the window
are read. -/
def selectSlot1 : List RomOp :=
  [.registerIo 1 none none none none (some fun _ _ => 1),
    .read ⟨0xC100, by decide⟩, .read ⟨0xC800, by decide⟩]

theorem admits_selectSlot1 : (romMachine .apple2e .zero).Admits (fun s op _ => s.Keeps op)
    (IoMemory.blank.memInitialize .zero) selectSlot1 := by
  refine ⟨fun h => ?_, fun h => absurd h (by decide), fun h => absurd h (by decide), trivial⟩
  rw [IoMemory.memInitialize, IoMemory.expansionRomType_memReset] at h
  exact ExpansionRomType.noConfusion h

/-- The card's ROM is in the window. -/
theorem windowShows_run_selectSlot1 :
    let t := (romMachine .apple2e .zero).run (IoMemory.blank.memInitialize .zero) selectSlot1
    t.WindowShows ∧ (t.ioMapDispatch .apple2e 0xC801 false).2 = .byte 1 := by
  have hrun := windowShows_run .apple2e .zero .blank admits_selectSlot1
  refine ⟨hrun.1, hrun.2.2 0xC801 (by decide) ?_ 1 (fun _ _ => 1) ?_ ?_⟩
  all_goals
    rw [IoMemory.memInitialize, memReset_eq]
    rfl

/-- **A hard reset while a card's ROM is in the window** leaves the card
written down and the internal ROM in the window, and reading it is answered
with the internal ROM's byte. -/
theorem not_windowShows_run :
    let t := (romMachine .apple2e .zero).run (IoMemory.blank.memInitialize .zero)
      (selectSlot1 ++ [.resetHard])
    ¬t.WindowShows ∧ t.firstSelected = some 1 ∧ t.expansionRom 1 = some (fun _ _ => 1)
      ∧ (t.ioMapDispatch .apple2e 0xC801 false).2 = .byte 0 := by
  have hreset : ∀ s : IoMemory, (romMachine .apple2e .zero).run s [.resetHard]
      = { s with memory := memReset .zero s.memory } := fun _ => rfl
  dsimp only
  rw [Machine.run_append, hreset, memReset_eq, IoMemory.memInitialize, memReset_eq]
  refine ⟨fun h => ?_, rfl, rfl, rfl⟩
  obtain ⟨slot, rom, hslot, hrom, hmem⟩ := h.peripheral rfl
  obtain rfl : slot = 1 := Fin.ext hslot.symm
  obtain rfl : (fun _ _ => 1) = rom := Option.some.inj hrom
  exact absurd (congrFun (hmem 0xC8 rfl) 0) (by decide)

end LinApple.Slots
