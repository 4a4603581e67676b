import LinApple.Memory.Invariant
import LinApple.Memory.Reference

/-!
# The image refines the reference memory

The machine keeps one image of 64 K for the processor and moves pages between
it and the stored banks as switches are accessed. What that is for is told by
a reference memory that moves nothing: it has a cell for every byte of every
bank, and two maps, from an address to the cell that is read there and to the
cell that is written. No program can tell the two apart.

A cell of the reference memory is a byte of a stored page, and what it holds
is the view of that byte (`MemoryInstance.byteAt`): the live copy where the
image shows the page, the stored one otherwise. Under the tables of a mode a
page of the image shows the cells the read map names
(`shadowTable_eq_readMap`) and a write reaches the cell the write map names
(`writeTarget_eq_writeMap`), so every access moves the two memories alike.
`Represents` is what one access preserves, and the run follows by induction.

Two things give the statement its shape. An update is put off when the
instruction behind an access is a switch access itself, so between the two the
tables are not those of the flags. `Represents` says that they are, or that a
switch comes next, and `Allowed` is the condition that it does. And equal
answers alone would leave room for a write that is lost but never read back.
So the theorem compares all the cells after the run as well, and says that
neither the ROM nor what stands for it has changed.
-/

namespace LinApple.Memory

/-- The stored page a cell is in. -/
def Loc.ptr : Loc → PagePtr
  | .main a => ramPtr false (pageOf a)
  | .aux a => ramPtr true (pageOf a)
  | .rom a => romPtr (pageOf a)

/-- Where in its page a cell is. -/
def Loc.offset : Loc → Fin 256
  | .main a | .aux a | .rom a => offsetOf a

/-- **What a cell holds** in the memory that runs. -/
def MemoryInstance.byteAt (s : MemoryInstance) (l : Loc) : UInt8 :=
  s.view l.ptr l.offset

/-- The ROM of a memory, as the reference memory is given it. -/
def MemoryInstance.romByte (s : MemoryInstance) (a : UInt16) : UInt8 :=
  s.stores (romPtr (pageOf a)) (offsetOf a)

/-! ## Cells and stored pages -/

@[simp] theorem ramLoc_ptr (b : Bool) (a : UInt16) :
    (ramLoc b a).ptr = ramPtr b (pageOf a) := by
  cases b <;> rfl

@[simp] theorem ramLoc_offset (b : Bool) (a : UInt16) :
    (ramLoc b a).offset = offsetOf a := by
  cases b <;> rfl

theorem addrOf_pageOf_offsetOf (a : UInt16) :
    addrOf (pageOf a) (offsetOf a) = a := by
  apply UInt16.toNat_inj.mp
  have := a.toNat_lt
  simp only [addrOf, pageOf, offsetOf, UInt16.toNat_ofNat']
  omega

/-- An address is its page and its offset. -/
theorem eq_of_pageOf_of_offsetOf {a b : UInt16} (hp : pageOf a = pageOf b)
    (ho : offsetOf a = offsetOf b) : a = b := by
  rw [← addrOf_pageOf_offsetOf a, hp, ho, addrOf_pageOf_offsetOf]

/-- **Cells are different bytes of the stores.** -/
theorem Loc.eq_of_ptr_of_offset {k l : Loc} (hp : k.ptr = l.ptr)
    (ho : k.offset = l.offset) : k = l := by
  have hpage := congrArg PagePtr.page hp
  have hbank := congrArg PagePtr.bank hp
  cases k with
  | main a =>
    cases l with
    | main b => rw [eq_of_pageOf_of_offsetOf hpage ho]
    | aux b => exact Bank.noConfusion hbank
    | rom b => exact Bank.noConfusion hbank
  | aux a =>
    cases l with
    | main b => exact Bank.noConfusion hbank
    | aux b => rw [eq_of_pageOf_of_offsetOf hpage ho]
    | rom b => exact Bank.noConfusion hbank
  | rom a =>
    cases l with
    | main b => exact Bank.noConfusion hbank
    | aux b => exact Bank.noConfusion hbank
    | rom b =>
      have hsub := congrArg (· + 0xD0) hpage
      simp only [Loc.ptr, romPtr, sub_add_cancel] at hsub
      rw [eq_of_pageOf_of_offsetOf hsub ho]

theorem Loc.ptr_isWindowRom (l : Loc) : l.ptr.isWindowRom = false := by
  cases l <;> rfl

/-- Bank 1 of the language card is 4 K further down. -/
theorem pageOf_sub_bank {a : UInt16} (ha : 0xD000 ≤ a.toNat) :
    pageOf (a - 0x1000) = pageOf a - 0x10
      ∧ offsetOf (a - 0x1000) = offsetOf a := by
  have hlt := a.toNat_lt
  have hsub : (a - 0x1000).toNat = a.toNat - 0x1000 :=
    UInt16.toNat_sub_of_le a 0x1000 (by
      rw [UInt16.le_iff_toNat_le]
      exact Nat.le_trans (by decide) ha)
  have hpage : (pageOf a - 0x10).val = (pageOf a).val - 0x10 := by
    refine Fin.sub_val_of_le ?_
    rw [Fin.le_def]
    simp only [pageOf]
    exact Nat.le_trans (by decide) (Nat.div_le_div_right (c := 256) ha)
  refine ⟨Fin.ext ?_, Fin.ext ?_⟩
  · rw [hpage]
    simp only [pageOf, hsub]
    omega
  · simp only [offsetOf, hsub]
    omega

theorem lcLoc_ptr (m : MemMode) {a : UInt16} (ha : 0xD000 ≤ a.toNat) :
    (lcLoc m a).ptr = lcRam m (pageOf a)
      ∧ (lcLoc m a).offset = offsetOf a := by
  have hpage : (a.toNat < 0xE000) ↔ ((pageOf a).val < 0xE0) := by
    simp only [pageOf]
    omega
  unfold lcLoc lcRam
  simp only [hpage]
  split
  · rw [ramLoc_ptr, ramLoc_offset, (pageOf_sub_bank ha).1,
      (pageOf_sub_bank ha).2]
    exact ⟨rfl, rfl⟩
  · exact ⟨ramLoc_ptr _ _, ramLoc_offset _ _⟩

theorem selectsAux_pageOf (m : MemMode) (ram : Bool) {a : UInt16}
    (ha : 0x200 ≤ a.toNat) : selectsAux m ram (pageOf a)
      = if m.store80 && isDisplay m a then m.page2 else ram := by
  have htext : (0x04 ≤ (pageOf a).val ↔ 0x400 ≤ a.toNat)
      ∧ ((pageOf a).val < 0x08 ↔ a.toNat < 0x800) := by
    simp only [pageOf]
    omega
  have hgr : (0x20 ≤ (pageOf a).val ↔ 0x2000 ≤ a.toNat)
      ∧ ((pageOf a).val < 0x40 ↔ a.toNat < 0x4000) := by
    simp only [pageOf]
    omega
  have hstack : ¬ (pageOf a).val < 0x02 := by
    simp only [pageOf]
    omega
  unfold selectsAux isDisplay
  simp only [if_neg hstack, htext, hgr]

/-- **The shadows are the read map.** -/
theorem shadowTable_eq_readMap (m : MemMode) {a : UInt16}
    (ha : isIoRegion a = false) :
    shadowTable m (pageOf a) = (readMap m a).ptr
      ∧ (readMap m a).offset = offsetOf a := by
  have hio := of_isIoRegion_eq_false ha
  unfold readMap shadowTable
  by_cases hstack : a.toNat < 0x200
  · have hp : (pageOf a).val < 0x02 := by simp only [pageOf]; omega
    rw [if_pos hstack, updateShadow_low m _ (by omega), selectsAux,
      if_pos hp]
    exact ⟨(ramLoc_ptr _ _).symm, ramLoc_offset _ _⟩
  by_cases hlow : a.toNat < 0xC000
  · have hp : (pageOf a).val < 0xC0 := by simp only [pageOf]; omega
    rw [if_neg hstack, if_pos hlow, updateShadow_low m _ hp,
      selectsAux_pageOf m _ (by omega)]
    exact ⟨(ramLoc_ptr _ _).symm, ramLoc_offset _ _⟩
  · have hp : 0xD0 ≤ (pageOf a).val := by simp only [pageOf]; omega
    rw [if_neg hstack, if_neg hlow, updateShadow_high m _ hp]
    cases m.highram with
    | true =>
      obtain ⟨hptr, hoff⟩ := lcLoc_ptr m (a := a) (by omega)
      exact ⟨hptr.symm, hoff⟩
    | false => exact ⟨rfl, rfl⟩

/-- **The write table is the write map.** -/
theorem writeTarget_eq_writeMap {m : MemMode} {s : MemoryInstance}
    (h : TablesOf m s) {a : UInt16} (ha : isIoRegion a = false) :
    s.writeTarget (pageOf a) = (writeMap m a).map Loc.ptr
      ∧ ∀ l ∈ writeMap m a, l.offset = offsetOf a := by
  have hio := of_isIoRegion_eq_false ha
  unfold writeMap MemoryInstance.writeTarget
  rw [h.memwrite_eq, h.memshadow_eq, writeTable, shadowTable]
  by_cases hstack : a.toNat < 0x200
  · have hp : (pageOf a).val < 0x02 := by simp only [pageOf]; omega
    rw [if_pos hstack, updateShadow_low m _ (by omega), selectsAux,
      if_pos hp, updateWrite_stack m _ hp, isIoPage_of_lt (by omega)]
    simp
  by_cases hlow : a.toNat < 0xC000
  · have hp : (pageOf a).val < 0xC0 := by simp only [pageOf]; omega
    have hp' : 0x02 ≤ (pageOf a).val := by simp only [pageOf]; omega
    rw [if_neg hstack, if_pos hlow, updateShadow_low m _ hp,
      updateWrite_low m _ hp' hp]
    simp only [selectsAux_pageOf m _ (Nat.not_lt.mp hstack)]
    generalize (if (m.store80 && isDisplay m a) = true then m.page2
      else m.auxread) = r
    generalize (if (m.store80 && isDisplay m a) = true then m.page2
      else m.auxwrite) = w
    cases r <;> cases w <;> simp
  · have hp : 0xD0 ≤ (pageOf a).val := by simp only [pageOf]; omega
    obtain ⟨hptr, hoff⟩ := lcLoc_ptr m (a := a) (by omega)
    rw [if_neg hstack, if_neg hlow, updateShadow_high m _ hp,
      updateWrite_high m _ hp]
    cases m.hramWrite <;> cases m.highram <;> simp [hptr, hoff]

/-! ## The simulation -/

/-- Whether the next access is a soft switch. -/
def StartsWithSwitch (rest : List Access) : Prop :=
  ∃ pc addr rest', rest = .switch pc addr :: rest'

/-- **The memory that runs stands for a reference memory**: the flags are
the same, every cell is in view, the ROM is what it was, and the tables are
those of the flags – unless an update is held off, and then the next access
is a switch. -/
structure Represents (rom : UInt16 → UInt8) (s : MemoryInstance)
    (t : RefMemory) (rest : List Access) : Prop where
  /-- The invariant of the paging code. -/
  sound : Sound s
  /-- The flags are the same. -/
  memMode_eq : s.memMode = t.mode
  /-- Every cell is in view. -/
  byteAt_eq : ∀ l, s.byteAt l = t.cells l
  /-- The stored ROM is what it was. -/
  romByte_eq : ∀ a, s.romByte a = rom a
  /-- The cells of ROM are what they were. -/
  cells_rom : ∀ a, t.cells (.rom a) = rom a
  /-- The tables are those of the flags, or a switch comes next. -/
  settled : TablesOf s.memMode s ∨ StartsWithSwitch rest

section Step

variable {rom : UInt16 → UInt8} {s : MemoryInstance} {t : RefMemory}
  {a : UInt16} {rest : List Access}

/-- With the tables in force a byte of the image is the cell the read map
names. -/
theorem Represents.memByte_eq (h : Represents rom s t rest)
    (hm : TablesOf s.memMode s) (ha : isIoRegion a = false) :
    s.memByte a = t.cells (readMap t.mode a) := by
  obtain ⟨hptr, hoff⟩ := shadowTable_eq_readMap s.memMode ha
  rw [MemoryInstance.memByte, h.sound.mem_eq_view, hm.memshadow_eq, hptr,
    ← h.byteAt_eq, ← h.memMode_eq, MemoryInstance.byteAt, hoff]

theorem setByte_apply (m : PagePtr → PageData) (k l : Loc) (v : UInt8) :
    setByte m l.ptr l.offset v k.ptr k.offset
      = if k = l then v else m k.ptr k.offset := by
  split
  · next h =>
    subst h
    exact setByte_self _ _ _ _
  · next hne =>
    by_cases hptr : k.ptr = l.ptr
    · have hoff : k.offset ≠ l.offset := fun ho =>
        hne (Loc.eq_of_ptr_of_offset hptr ho)
      rw [hptr, setByte_page_self, Function.update_of_ne hoff]
    · rw [setByte_page_of_ne _ _ _ hptr]

/-- With the tables in force a write reaches the cell the write map
names. -/
theorem byteAt_writeByte (ty : Apple2Type) (pc : UInt16) (v : UInt8)
    (h : Represents rom s t rest) (hm : TablesOf s.memMode s)
    (ha : isIoRegion a = false) (l : Loc) :
    (writeByte ty s pc a v).byteAt l = (t.write a v).cells l := by
  have hswitch : isPagingSwitch a = false := isPagingSwitch_of_isIoRegion ha
  obtain ⟨htarget, hoff⟩ := writeTarget_eq_writeMap hm ha
  rw [MemoryInstance.byteAt, view_writeByte ty pc v h.sound hswitch,
    htarget, RefMemory.write, ← h.memMode_eq]
  cases hw : writeMap s.memMode a with
  | none => exact h.byteAt_eq l
  | some k =>
    rw [← hoff k hw]
    show setByte s.view k.ptr k.offset v l.ptr l.offset
      = Function.update t.cells k v l
    rw [setByte_apply, Function.update_apply]
    split
    · rfl
    · exact h.byteAt_eq l

/-- No write map names a cell of ROM. -/
theorem writeMap_ne_rom (m : MemMode) (a b : UInt16) :
    writeMap m a ≠ some (.rom b) := by
  unfold writeMap lcLoc ramLoc
  split_ifs <;> simp

/-- A write stores nothing in ROM. -/
theorem romByte_writeByte (ty : Apple2Type) (pc : UInt16) (v : UInt8)
    {m : MemMode} (hm : TablesOf m s) (ha : isIoRegion a = false)
    (b : UInt16) : (writeByte ty s pc a v).romByte b = s.romByte b := by
  have hswitch : isPagingSwitch a = false := isPagingSwitch_of_isIoRegion ha
  cases hw : s.memwrite (pageOf a) with
  | null => rw [writeByte_null ty pc v hw hswitch]; rfl
  | live => rw [writeByte_live ty pc v hw]; rfl
  | store l =>
    have htarget := (writeTarget_eq_writeMap hm ha).1
    rw [MemoryInstance.writeTarget, hw] at htarget
    obtain ⟨k, hk, rfl⟩ := Option.map_eq_some_iff.mp htarget.symm
    have hne : romPtr (pageOf b) ≠ k.ptr := by
      cases k with
      | main c => exact fun h => Bank.noConfusion (congrArg PagePtr.bank h)
      | aux c => exact fun h => Bank.noConfusion (congrArg PagePtr.bank h)
      | rom c => exact absurd hk (writeMap_ne_rom m a c)
    rw [writeByte_store ty pc v hw]
    exact congrFun (setByte_page_of_ne s.stores _ v hne) (offsetOf b)

/-- A write moves the two memories alike. -/
theorem Represents.write (ty : Apple2Type) (pc : UInt16) (v : UInt8)
    (h : Represents rom s t rest) (hm : TablesOf s.memMode s)
    (ha : isIoRegion a = false) (rest' : List Access) :
    Represents rom (writeByte ty s pc a v) (t.write a v) rest' := by
  have hswitch : isPagingSwitch a = false := isPagingSwitch_of_isIoRegion ha
  have hmode : (t.write a v).mode = t.mode := by
    unfold RefMemory.write
    split <;> rfl
  refine ⟨h.sound.writeByte ty pc v hswitch, ?_,
    byteAt_writeByte ty pc v h hm ha, fun b => ?_, fun b => ?_, .inl ?_⟩
  · rw [writeByte_memMode ty s pc v hswitch, h.memMode_eq, hmode]
  · rw [romByte_writeByte ty pc v hm ha, h.romByte_eq]
  · rw [← h.cells_rom]
    unfold RefMemory.write
    split
    · next l hl =>
      exact Function.update_of_ne
        (fun he => writeMap_ne_rom _ _ b (by rw [hl, he])) _ _
    · rfl
  · rw [writeByte_memMode ty s pc v hswitch]
    exact hm.writeByte ty pc v hswitch

/-- A soft switch moves the two memories alike. -/
theorem Represents.switch (ty : Apple2Type) (pc addr : UInt16)
    (h : Represents rom s t (.switch pc addr :: rest))
    (hrest : s.holdsOff pc (addr.toNat % 0x100) = true →
      StartsWithSwitch rest) :
    Represents rom (memSetPaging ty s pc addr)
      { t with mode := switchMode ty t.mode (addr.toNat % 0x100) } rest := by
  refine ⟨h.sound.memSetPaging ty pc addr, ?_, fun l => ?_, fun a => ?_,
    h.cells_rom, ?_⟩
  · rw [memSetPaging_memMode, h.memMode_eq]
  · rw [← h.byteAt_eq, MemoryInstance.byteAt,
      view_memSetPaging ty pc addr h.sound l.ptr_isWindowRom]
    rfl
  · have hstore : s.stores (romPtr (pageOf a))
        = s.view (romPtr (pageOf a)) := funext fun o => by
      have hbyte : s.romByte (addrOf (pageOf a) o)
          = s.byteAt (.rom (addrOf (pageOf a) o)) := by
        rw [h.byteAt_eq, h.cells_rom, h.romByte_eq]
      simpa [MemoryInstance.romByte, MemoryInstance.byteAt, Loc.ptr,
        Loc.offset] using hbyte
    rw [← h.romByte_eq, MemoryInstance.romByte,
      stores_memSetPaging ty pc addr h.sound rfl hstore]
    rfl
  · cases hoff : s.holdsOff pc (addr.toNat % 0x100) with
    | true => exact .inr (hrest hoff)
    | false => exact .inl (tablesOf_memSetPaging ty pc addr h.sound.tables hoff)

end Step

/-- Right after a reset the two memories are alike. -/
theorem represents_reset (pattern : MemoryInitPattern) (s : MemoryInstance)
    (rest : List Access) : Represents s.romByte (memReset pattern s)
      (RefMemory.reset pattern s.romByte) rest := by
  obtain ⟨hsound, hview⟩ := sound_memReset pattern s
  refine ⟨hsound, ?_, fun l => ?_, fun a => ?_, fun _ => rfl, .inl ?_⟩
  · rw [memReset_eq]
    rfl
  · rw [MemoryInstance.byteAt, hview]
    cases l <;> rfl
  · rw [memReset_eq]
    rfl
  · rw [memReset_eq]
    exact ⟨rfl, rfl⟩

/-- **One access moves the two memories alike**, and shows the same. -/
theorem Represents.step (ty : Apple2Type) {rom : UInt16 → UInt8}
    {s : MemoryInstance} {t : RefMemory} {access : Access}
    {rest : List Access} (h : Represents rom s t (access :: rest))
    (ha : Allowed s access rest) :
    (memoryMachine ty).out s access = (refMachine ty).out t access
      ∧ Represents rom ((memoryMachine ty).next s access)
          ((refMachine ty).next t access) rest := by
  cases access with
  | read a =>
    have hm : TablesOf s.memMode s := h.settled.resolve_right
      fun ⟨_, _, _, he⟩ => Access.noConfusion (List.cons.inj he).1
    exact ⟨congrArg some (h.memByte_eq hm ha), h.sound, h.memMode_eq,
      h.byteAt_eq, h.romByte_eq, h.cells_rom, .inl hm⟩
  | write pc a v =>
    have hm : TablesOf s.memMode s := h.settled.resolve_right
      fun ⟨_, _, _, he⟩ => Access.noConfusion (List.cons.inj he).1
    exact ⟨rfl, h.write ty pc v hm ha rest⟩
  | switch pc addr => exact ⟨rfl, h.switch ty pc addr ha.2⟩

/-- **Bank switching is simulated faithfully.** From a reset, over any run of
CPU reads and writes outside the I/O pages and of paging switches in which a
switch that is held off is followed by another, the memory that runs shows
what the reference memory shows; in the end every cell of main and auxiliary
RAM holds what the reference memory holds, and the ROM, stored and in view,
is what it was. -/
theorem memoryMachine_refines (ty : Apple2Type) (pattern : MemoryInitPattern)
    (s : MemoryInstance) (as : List Access)
    (has : (memoryMachine ty).Admits Allowed (memReset pattern s) as) :
    (memoryMachine ty).shows (memReset pattern s) as
        = (refMachine ty).shows (RefMemory.reset pattern s.romByte) as
      ∧ (∀ l, ((memoryMachine ty).run (memReset pattern s) as).byteAt l
        = ((refMachine ty).run (RefMemory.reset pattern s.romByte) as).cells l)
      ∧ (∀ a, ((memoryMachine ty).run (memReset pattern s) as).romByte a
        = s.romByte a)
      ∧ ∀ a, ((memoryMachine ty).run (memReset pattern s) as).byteAt (.rom a)
        = s.romByte a := by
  obtain ⟨hshows, hrun⟩ := (memoryMachine ty).simulation (refMachine ty)
    (G := Allowed) (R := Represents s.romByte)
    (fun s t a as h ha => h.step ty ha)
    (represents_reset pattern s as) has
  exact ⟨hshows, hrun.byteAt_eq, hrun.romByte_eq, fun a => by
    rw [hrun.byteAt_eq, hrun.cells_rom]⟩

/-- A byte written to bank 1 of the language card is found there again
after the card has been banked out and in. -/
theorem memoryMachine_refines_bank1 :
    (memoryMachine .apple2e).shows (memReset .zero MemoryInstance.blank)
      [.switch 0xFFFF 0xC08B, .write 0xFFFF 0xD000 0x42,
        .switch 0xFFFF 0xC082, .read 0xD000,
        .switch 0xFFFF 0xC08B, .read 0xD000] = [0, 0x42] :=
  (memoryMachine_refines .apple2e .zero MemoryInstance.blank _ <| by
    simp [Machine.Admits, Allowed, MemoryInstance.holdsOff_of_lt,
      isPagingSwitch, isIoRegion, isIoPage, pageOf]).1.trans (by decide)

end LinApple.Memory
