import LinApple.Memory.Alike

/-!
# Snapshots of the memory

`mem_get_snapshot` saves the two banks of RAM page by page, through `mem_get_main_ptr` and
`mem_get_aux_ptr`: the live page where the image shows the stored one, and the stored page
otherwise. Both look for the stored page at its own number in the image. Language card bank 1,
stored at `$C000`, is shown at `$D000`, so its live copy is never found, and what the program
wrote to it since it was banked in is not saved.

`restore_shows_iff` says exactly which memories survive a save and a restore: those a program
cannot tell from the restored one are those with bank 1 stored as it is shown, the internal ROM in
the expansion window – the restore puts it there – and no update held off that a program could
notice.

That a program cannot tell two memories apart is said by what it reads in every run of accesses
(`Machine.shows`), and not by the two states being equal, which they seldom are: a restore brings
every page back to where the flags put it, and marks everything. The condition is one on the state
before the save, so that it can be decided there; the last of its parts is as long as it is
because an update that is held off need not matter. A page whose turn is put off may already have
the contents it would get, and as long as it is not written to in either place, no run shows the
difference. For the other direction each part that fails has a run of its own that shows it.

The state the snapshot is restored into is any with the same ROM (`SameRom`), whatever else it
holds: a restore is to replace all of it.
-/

namespace LinApple.Memory

/-- `SsBaseMemory` -/
structure SsBaseMemory where
  /-- `mem_mode` -/
  memMode : MemMode
  /-- `last_write_ram` -/
  lastWriteRam : Bool
  /-- `mem_main` -/
  memMain : Page → PageData
  /-- `mem_aux` -/
  memAux : Page → PageData

/-- The page `mem_get_main_ptr(page << 8)` points to. -/
def memGetMainPtr (s : MemoryInstance) (p : Page) : PageData :=
  if s.memshadow p = ramPtr false p then s.mem p
  else s.stores (ramPtr false p)

/-- The page `mem_get_aux_ptr(page << 8)` points to. -/
def memGetAuxPtr (s : MemoryInstance) (p : Page) : PageData :=
  if s.memshadow p = ramPtr true p then s.mem p
  else s.stores (ramPtr true p)

/-- `mem_get_snapshot` -/
def memGetSnapshot (s : MemoryInstance) : SsBaseMemory where
  memMode := s.memMode
  lastWriteRam := s.lastWriteRam
  memMain := memGetMainPtr s
  memAux := memGetAuxPtr s

/-- `mem_set_snapshot`, on the memory `r`. -/
def memSetSnapshot (snapshot : SsBaseMemory) (r : MemoryInstance) :
    MemoryInstance :=
  memUpdatePaging true
    { r with
      memMode := snapshot.memMode
      lastWriteRam := snapshot.lastWriteRam
      stores := fun l =>
        match l.bank with
        | .memmain => snapshot.memMain l.page
        | .memaux => snapshot.memAux l.page
        | _ => r.stores l
      modeChanging := false }

/-- Where writes to a page go in a mode. -/
def modeTarget (m : MemMode) (p : Page) : Option PagePtr :=
  match writeTable m p with
  | .null => none
  | .live => some (shadowTable m p)
  | .store l => some l

/-- **A memory that survives a save and a restore.** Each field is about something that is not in
a frame, or that loading one sets up anew. They are conditions on the memory before it is saved,
and none of them looks at the frame. -/
structure Restorable (s : MemoryInstance) : Prop where
  /-- Bank 1 of the language card is stored as it is shown. -/
  bank1 : ∀ p : Page, 0xD0 ≤ p.val → p.val < 0xE0 → ∀ aux,
    s.memshadow p = ramPtr aux (p - 0x10) →
    s.mem p = s.stores (ramPtr aux (p - 0x10))
  /-- The expansion window shows the internal ROM. -/
  window : ∀ p, isExpansionPage p = true →
    s.mem p = s.stores (cxInternalPtr p)
  /-- Writes go where the flags say, although an update may be held off. -/
  target : ∀ p, s.writeTarget p = modeTarget s.memMode p
  /-- A page whose turn is held off shows what it would show after it, and
  is not written to in either place. -/
  settled : ∀ p, s.memshadow p = shadowTable s.memMode p
    ∨ (s.mem p = s.view (shadowTable s.memMode p)
      ∧ s.writeTarget p ≠ some (s.memshadow p)
      ∧ s.writeTarget p ≠ some (shadowTable s.memMode p))

/-! ## What is saved -/

theorem memshadow_io_ne_ramPtr {s : MemoryInstance} (h : Sound s) (aux : Bool)
    {p : Page} (hp : isIoPage p = true) : s.memshadow p ≠ ramPtr aux p := by
  obtain ⟨m, hm, -⟩ := h.tables
  rw [hm.memshadow_eq, shadowTable]
  obtain ⟨hlo, hhi⟩ := isIoPage_iff.mp hp
  intro he
  have hbank := congrArg PagePtr.bank he
  by_cases hslot : p.val < 0xC8
  · rw [updateShadow_slot m _ hlo hslot] at hbank
    cases aux <;> split at hbank <;> exact Bank.noConfusion hbank
  · rw [updateShadow_expansion m _ (by
      simp only [isExpansionPage, Bool.and_eq_true, decide_eq_true_eq]
      omega)] at hbank
    cases aux <;> exact Bank.noConfusion hbank

/-- Outside `$C000-$CFFF` what is saved is what is in view. -/
theorem saved_eq_view {s : MemoryInstance} (aux : Bool) {p : Page}
    (hp : isIoPage p = false) :
    (if s.memshadow p = ramPtr aux p then s.mem p
      else s.stores (ramPtr aux p)) = s.view (ramPtr aux p) := by
  show _ = if s.memshadow (ownerPage (ramPtr aux p)) = ramPtr aux p
    then s.mem (ownerPage (ramPtr aux p)) else s.stores (ramPtr aux p)
  rw [ownerPage_ramPtr aux hp]

/-- At `$C000-$CFFF` what is saved is what is stored. -/
theorem saved_eq_stores {s : MemoryInstance} (h : Sound s) (aux : Bool)
    {p : Page} (hp : isIoPage p = true) :
    (if s.memshadow p = ramPtr aux p then s.mem p
      else s.stores (ramPtr aux p)) = s.stores (ramPtr aux p) :=
  if_neg (memshadow_io_ne_ramPtr h aux hp)

section Restore

variable {s r : MemoryInstance}

/-- **What a restore leaves**: the tables of the saved mode, and an image
copied in from what was saved. -/
theorem memSetSnapshot_eq (snapshot : SsBaseMemory) (r : MemoryInstance) :
    ∃ stores : PagePtr → PageData,
      (∀ p, stores (ramPtr false p) = snapshot.memMain p)
      ∧ (∀ p, stores (ramPtr true p) = snapshot.memAux p)
      ∧ (∀ l : PagePtr, l.bank ≠ .memmain → l.bank ≠ .memaux →
        stores l = r.stores l)
      ∧ memSetSnapshot snapshot r =
        { r with
          memMode := snapshot.memMode
          lastWriteRam := snapshot.lastWriteRam
          stores := stores
          modeChanging := false
          memshadow := shadowTable snapshot.memMode
          memwrite := writeTable snapshot.memMode
          mem := fun p => stores (shadowTable snapshot.memMode p) } := by
  refine ⟨_, fun p => rfl, fun p => rfl, fun ⟨bank, page⟩ hmain haux => ?_,
    memUpdatePaging_true _⟩
  cases bank with
  | memmain => exact absurd rfl hmain
  | memaux => exact absurd rfl haux
  | memrom => rfl
  | cxRomInternal => rfl
  | cxRomPeripheral => rfl

end Restore

section Restored

variable (s r : MemoryInstance)

/-- The memory restored from a snapshot of `s`, in a machine `r`. -/
def restored : MemoryInstance := memSetSnapshot (memGetSnapshot s) r

theorem memMode_restored : (restored s r).memMode = s.memMode := by
  obtain ⟨stores, -, -, -, h⟩ := memSetSnapshot_eq (memGetSnapshot s) r
  rw [restored, h]
  rfl

theorem tablesOf_restored : TablesOf s.memMode (restored s r) := by
  obtain ⟨stores, -, -, -, h⟩ := memSetSnapshot_eq (memGetSnapshot s) r
  rw [restored, h]
  exact ⟨rfl, rfl⟩

theorem sound_restored : Sound (restored s r)
    ∧ (restored s r).view = (restored s r).stores := by
  refine sound_of_mem_eq ?_ fun p => ?_
  · rw [memMode_restored]
    exact tablesOf_restored s r
  · obtain ⟨stores, -, -, -, h⟩ := memSetSnapshot_eq (memGetSnapshot s) r
    rw [restored, h]

theorem stores_restored_ram (aux : Bool) (p : Page) :
    (restored s r).stores (ramPtr aux p) =
      if s.memshadow p = ramPtr aux p then s.mem p
      else s.stores (ramPtr aux p) := by
  obtain ⟨stores, hmain, haux, -, h⟩ :=
    memSetSnapshot_eq (memGetSnapshot s) r
  rw [restored, h]
  cases aux with
  | true => exact haux p
  | false => exact hmain p

theorem stores_restored_rom {l : PagePtr} (hmain : l.bank ≠ .memmain)
    (haux : l.bank ≠ .memaux) : (restored s r).stores l = r.stores l := by
  obtain ⟨stores, -, -, hrom, h⟩ := memSetSnapshot_eq (memGetSnapshot s) r
  rw [restored, h]
  exact hrom l hmain haux

end Restored

/-- Every stored page is of RAM, or of ROM. -/
theorem PagePtr.ram_or_rom (l : PagePtr) :
    (∃ aux, l = ramPtr aux l.page)
      ∨ (l.bank ≠ .memmain ∧ l.bank ≠ .memaux) := by
  obtain ⟨bank, page⟩ := l
  cases bank with
  | memmain => exact .inl ⟨false, rfl⟩
  | memaux => exact .inl ⟨true, rfl⟩
  | memrom => exact .inr ⟨Bank.noConfusion, Bank.noConfusion⟩
  | cxRomInternal => exact .inr ⟨Bank.noConfusion, Bank.noConfusion⟩
  | cxRomPeripheral => exact .inr ⟨Bank.noConfusion, Bank.noConfusion⟩

/-- The machine a snapshot is restored in has the same ROM. It is not in the frame, so it has to
be there already. The two banks of RAM are the only ones left out, as these are what a frame
brings. -/
def SameRom (r s : MemoryInstance) : Prop :=
  ∀ l : PagePtr, l.bank ≠ .memmain → l.bank ≠ .memaux →
    r.stores l = s.stores l

section Faithful

variable {s r : MemoryInstance}

theorem ownerPage_ramPtr_io (aux : Bool) {p : Page}
    (hp : isIoPage p = true) : ownerPage (ramPtr aux p) = p + 0x10 := by
  cases aux <;> simp [ownerPage, ramPtr, hp]

/-- **With bank 1 stored as it is shown, everything in view is saved.** -/
theorem view_restored (h : Sound s) (hrom : RomStored s) (hr : SameRom r s)
    (hbank1 : ∀ p : Page, 0xD0 ≤ p.val → p.val < 0xE0 → ∀ aux,
      s.memshadow p = ramPtr aux (p - 0x10) →
      s.mem p = s.stores (ramPtr aux (p - 0x10)))
    {l : PagePtr} (hl : l.isWindowRom = false) :
    s.view l = (restored s r).view l := by
  rw [(sound_restored s r).2]
  rcases l.ram_or_rom with ⟨aux, hram⟩ | ⟨hmain, haux⟩
  · rw [hram, stores_restored_ram]
    cases hio : isIoPage l.page with
    | false => exact (saved_eq_view aux hio).symm
    | true =>
      rw [saved_eq_stores h aux hio]
      obtain ⟨hlo, hhi⟩ := isIoPage_iff.mp hio
      have hown := ownerPage_ramPtr_io aux hio
      have hval : (l.page + 0x10).val = l.page.val + 0x10 := by
        show (l.page.val + 0x10) % 256 = _
        omega
      show (if s.memshadow (ownerPage (ramPtr aux l.page))
          = ramPtr aux l.page
        then s.mem (ownerPage (ramPtr aux l.page))
        else s.stores (ramPtr aux l.page)) = _
      rw [hown]
      split
      · next hshown =>
        have := hbank1 (l.page + 0x10) (by omega) (by omega) aux (by
          rw [add_sub_cancel_right, hshown])
        rw [this, add_sub_cancel_right]
      · rfl
  · rw [stores_restored_rom s r hmain haux, hr l hmain haux,
      hrom l hmain haux hl]

/-- **A memory that survives is alike the restored one.** -/
theorem Restorable.alike (h : Sound s) (hrom : RomStored s)
    (hr : SameRom r s) (hs : Restorable s) : Alike s (restored s r) := by
  have hview : ∀ l : PagePtr, l.isWindowRom = false →
      s.view l = (restored s r).view l := fun l hl =>
    view_restored h hrom hr hs.bank1 hl
  have htables := tablesOf_restored s r
  have hwindow : ∀ p, isExpansionPage p = true →
      s.stores (cxInternalPtr p) = (restored s r).stores (cxInternalPtr p) :=
    fun p _ => by
      rw [stores_restored_rom s r Bank.noConfusion Bank.noConfusion,
        hr _ Bank.noConfusion Bank.noConfusion]
  have hmem : ∀ p, (restored s r).mem p
      = (restored s r).view (shadowTable s.memMode p) := fun p => by
    rw [(sound_restored s r).1.mem_eq_view, htables.memshadow_eq]
  refine ⟨h, (sound_restored s r).1, (memMode_restored s r).symm,
    funext fun p => ?_, fun p => ?_, fun p => ?_, hview, hwindow⟩
  · cases hp : isExpansionPage p with
    | true =>
      rw [hs.window p hp, hmem, (sound_restored s r).2,
        shadowTable_expansion _ hp, hwindow p hp]
    | false =>
      have hown := ownerPage_ne_window hp (ownerPage_shadowTable s.memMode p)
      rw [hmem, ← hview _ hown]
      rcases hs.settled p with hsame | ⟨hshows, -, -⟩
      · rw [h.mem_eq_view, hsame]
      · exact hshows
  · rw [hs.target p, MemoryInstance.writeTarget, htables.memwrite_eq,
      htables.memshadow_eq]
    rfl
  · rw [htables.memshadow_eq]
    exact (hs.settled p).imp_right fun hq => hq.2

end Faithful

/-! ## What a program can find out -/

/-- **No program tells two memories apart.** -/
def Indistinguishable (ty : Apple2Type) (s t : MemoryInstance) : Prop :=
  ∀ as : List Access, (∀ a ∈ as, a.OfProgram) →
    (memoryMachine ty).shows s as = (memoryMachine ty).shows t as

section Indistinguishable

variable {ty : Apple2Type} {s t : MemoryInstance}

/-- Every byte of the image is found out by reading it. -/
theorem Indistinguishable.mem_eq (h : Indistinguishable ty s t) :
    s.mem = t.mem := by
  funext p o
  have hread := h [.read (addrOf p o)] (by simp [Access.OfProgram])
  simpa [memoryMachine, MemoryInstance.memByte] using hread

theorem Indistinguishable.symm (h : Indistinguishable ty s t) :
    Indistinguishable ty t s := fun as has => (h as has).symm

theorem Indistinguishable.write (h : Indistinguishable ty s t)
    (pc a : UInt16) (v : UInt8) :
    Indistinguishable ty (writeByte ty s pc a v) (writeByte ty t pc a v) := by
  intro as has
  exact h (.write pc a v :: as) (List.forall_mem_cons.mpr ⟨trivial, has⟩)

theorem Indistinguishable.switch (h : Indistinguishable ty s t)
    (pc : UInt16) {addr : UInt16} (ha : isPagingSwitch addr = true) :
    Indistinguishable ty (memSetPaging ty s pc addr)
      (memSetPaging ty t pc addr) := by
  intro as has
  exact h (.switch pc addr :: as) (List.forall_mem_cons.mpr ⟨ha, has⟩)

/-- The switch that banks the language card in, for reading and writing,
with the bank given. -/
def lcSwitch (bank2 : Bool) : UInt16 := if bank2 then 0xC083 else 0xC08B

theorem isPagingSwitch_lcSwitch (bank2 : Bool) :
    isPagingSwitch (lcSwitch bank2) = true := by
  cases bank2 <;> decide

theorem switchMode_lcSwitch (ty : Apple2Type) (m : MemMode) (bank2 : Bool) :
    switchMode ty m ((lcSwitch bank2).toNat % 0x100)
      = { m with hramWrite := true, hramBank2 := bank2, highram := true } := by
  cases bank2 <;> rfl

/-- With the language card banked in, its RAM is read. -/
theorem mem_lcSwitch (ty : Apple2Type) (h : Sound s) (bank2 : Bool)
    {p : Page} (hp : 0xD0 ≤ p.val) :
    (memSetPaging ty s 0xFFFF (lcSwitch bank2)).mem p
      = s.view (lcRam { s.memMode with hramBank2 := bank2 } p) := by
  have hoff : s.holdsOff 0xFFFF ((lcSwitch bank2).toNat % 0x100) = false :=
    s.holdsOff_of_lt (by decide) _
  have hm := tablesOf_memSetPaging ty 0xFFFF (lcSwitch bank2) h.tables hoff
  have hwindow : (lcRam { s.memMode with hramBank2 := bank2 } p).isWindowRom
      = false := by
    unfold lcRam ramPtr PagePtr.isWindowRom
    split <;> split <;> rfl
  rw [(h.memSetPaging ty 0xFFFF (lcSwitch bank2)).mem_eq_view,
    hm.memshadow_eq, memSetPaging_memMode, switchMode_lcSwitch, shadowTable,
    updateShadow_high _ _ hp, if_pos rfl]
  exact view_memSetPaging ty 0xFFFF (lcSwitch bank2) h hwindow

/-- Language card RAM is found out by banking it in. -/
theorem Indistinguishable.view_lcRam (h : Indistinguishable ty s t)
    (hs : Sound s) (ht : Sound t) (hmode : s.memMode = t.memMode)
    (bank2 : Bool) {p : Page} (hp : 0xD0 ≤ p.val) :
    s.view (lcRam { s.memMode with hramBank2 := bank2 } p)
      = t.view (lcRam { s.memMode with hramBank2 := bank2 } p) := by
  have hmem := (h.switch 0xFFFF (isPagingSwitch_lcSwitch bank2)).mem_eq
  rw [← mem_lcSwitch ty hs bank2 hp, hmem, mem_lcSwitch ty ht bank2 hp,
    hmode]

/-- A byte unlike a given one. -/
theorem exists_byte_ne (x : UInt8) : ∃ v : UInt8, v ≠ x := by
  by_cases hx : x = 0
  · exact ⟨1, by rw [hx]; decide⟩
  · exact ⟨0, Ne.symm hx⟩

theorem isPagingSwitch_addrOf {p : Page} (hp : isIoPage p = false)
    (o : Fin 256) : isPagingSwitch (addrOf p o) = false :=
  isPagingSwitch_of_isIoRegion (by rw [isIoRegion, pageOf_addrOf, hp])

/-- Whether a page shows what is written to it is found out by writing to
it. -/
theorem Indistinguishable.writesLive_iff (h : Indistinguishable ty s t)
    (hs : Sound s) (ht : Sound t) {p : Page} (hp : isIoPage p = false) :
    s.writeTarget p = some (s.memshadow p)
      ↔ t.writeTarget p = some (t.memshadow p) := by
  obtain ⟨v, hv⟩ := exists_byte_ne (s.mem p 0)
  have ha := isPagingSwitch_addrOf hp 0
  have hmem := congrFun (congrFun (h.write 0 (addrOf p 0) v).mem_eq p) 0
  rw [mem_writeByte ty hs.tables 0 v ha, mem_writeByte ty ht.tables 0 v ha, ← h.mem_eq,
    pageOf_addrOf, offsetOf_addrOf] at hmem
  by_cases hsw : s.writeTarget p = some (s.memshadow p) <;>
    by_cases htw : t.writeTarget p = some (t.memshadow p)
  · exact iff_of_true hsw htw
  · rw [if_pos hsw, if_neg htw, setByte_self] at hmem
    exact absurd hmem hv
  · rw [if_neg hsw, if_pos htw, setByte_self] at hmem
    exact absurd hmem.symm hv
  · exact iff_of_false hsw htw

/-- Where writes to language card RAM go is found out by writing and
banking the RAM in. -/
theorem Indistinguishable.writeTarget_lcRam (h : Indistinguishable ty s t)
    (hs : Sound s) (ht : Sound t) (hmode : s.memMode = t.memMode)
    {p : Page} (hp : 0xD0 ≤ p.val) (bank2 : Bool)
    (hw : s.writeTarget p
      = some (lcRam { s.memMode with hramBank2 := bank2 } p)) :
    t.writeTarget p
      = some (lcRam { s.memMode with hramBank2 := bank2 } p) := by
  obtain ⟨v, hv⟩ := exists_byte_ne
    (t.view (lcRam { s.memMode with hramBank2 := bank2 } p) 0)
  have ha := isPagingSwitch_addrOf (isIoPage_of_ge hp) 0
  have hview := (h.write 0 (addrOf p 0) v).view_lcRam
    (hs.writeByte ty 0 v ha) (ht.writeByte ty 0 v ha)
    (by rw [writeByte_memMode ty s 0 v ha, writeByte_memMode ty t 0 v ha,
      hmode]) bank2 hp
  rw [writeByte_memMode ty s 0 v ha, view_writeByte ty 0 v hs ha,
    pageOf_addrOf, hw] at hview
  by_contra hne
  rw [view_writeByte_of_ne ty ht 0 v ha (by rwa [pageOf_addrOf])] at hview
  refine hv ?_
  rw [← hview, putByte, offsetOf_addrOf, setByte_self]

end Indistinguishable

/-! ## The tables of a mode that is behind -/

section DefersFrom

variable {m n : MemMode} {p : Page}

theorem writeTarget_of_tables {s : MemoryInstance} (h : TablesOf m s)
    (p : Page) : s.writeTarget p = modeTarget m p := by
  rw [MemoryInstance.writeTarget, h.memwrite_eq, h.memshadow_eq]
  rfl

theorem modeTarget_stack (m : MemMode) (hp : p.val < 0x02) :
    modeTarget m p = some (shadowTable m p) := by
  rw [modeTarget, writeTable, updateWrite_stack m _ hp,
    isIoPage_of_lt (by omega)]
  rfl

theorem modeTarget_low (m : MemMode) (hp : 0x02 ≤ p.val)
    (hp' : p.val < 0xC0) :
    modeTarget m p = some (ramPtr (selectsAux m m.auxwrite p) p) := by
  rw [modeTarget, writeTable, updateWrite_low m _ hp hp', shadowTable,
    updateShadow_low m _ hp']
  split
  · next h =>
    split at h
    · exact WritePtr.noConfusion h
    · exact WritePtr.noConfusion h
  · next h =>
    split at h
    · next hsame => rw [hsame]
    · exact WritePtr.noConfusion h
  · next h =>
    split at h
    · exact WritePtr.noConfusion h
    · rw [WritePtr.store.inj h]

theorem modeTarget_io (m : MemMode) (hp : isIoPage p = true) :
    modeTarget m p = none := by
  rw [modeTarget, writeTable_io m hp]

theorem modeTarget_high (m : MemMode) (hp : 0xD0 ≤ p.val) :
    modeTarget m p = if m.hramWrite then some (lcRam m p) else none := by
  rw [modeTarget, writeTable, updateWrite_high m _ hp, shadowTable,
    updateShadow_high m _ hp]
  cases m.hramWrite <;> cases m.highram <;> rfl

theorem MemMode.DefersFrom.lcRam_eq (h : m.DefersFrom n) (p : Page) :
    lcRam m p = lcRam { n with hramBank2 := m.hramBank2 } p := by
  rw [h]
  rfl

end DefersFrom

/-! ## Which memories survive -/

section Survives

variable {ty : Apple2Type} {s r : MemoryInstance}

/-- Bank 1 of the language card is found out to be stored as it is
shown. -/
theorem Indistinguishable.bank1 (h : Sound s)
    (hi : Indistinguishable ty s (restored s r)) {p : Page}
    (hp : 0xD0 ≤ p.val) (hp' : p.val < 0xE0) {aux : Bool}
    (hshown : s.memshadow p = ramPtr aux (p - 0x10)) :
    s.mem p = s.stores (ramPtr aux (p - 0x10)) := by
  obtain ⟨m, hm, hdefer, -⟩ := h.tables
  have hio : isIoPage (p - 0x10) = true := by
    have hsub : (p - 0x10).val = p.val - 0x10 :=
      Fin.sub_val_of_le (by rw [Fin.le_def]; exact Nat.le_trans (by decide) hp)
    exact isIoPage_iff.mpr (by omega)
  have haux : s.memMode.altzp = aux := by
    have hbank := congrArg PagePtr.bank hshown
    rw [hm.memshadow_eq, shadowTable, updateShadow_high m _ hp] at hbank
    rw [hdefer]
    unfold lcRam ramPtr romPtr at hbank
    cases hz : m.altzp <;> cases aux <;> split at hbank <;>
      first
      | rfl
      | (split at hbank <;> simp_all)
  have hview := hi.view_lcRam h (sound_restored s r).1
    (memMode_restored s r).symm false hp
  have hlc : lcRam { s.memMode with hramBank2 := false } p
      = ramPtr aux (p - 0x10) := by
    unfold lcRam
    rw [← haux]
    exact if_pos (by simpa using hp')
  rw [hlc] at hview
  rw [h.mem_eq_view, hshown, hview, (sound_restored s r).2,
    stores_restored_ram, saved_eq_stores h aux hio]

/-- Writes are found out to go where the flags say. -/
theorem Indistinguishable.target (h : Sound s)
    (hi : Indistinguishable ty s (restored s r)) (p : Page) :
    s.writeTarget p = modeTarget s.memMode p := by
  obtain ⟨m, hm, hdefer, -⟩ := h.tables
  have ht := (sound_restored s r).1
  have hmt := tablesOf_restored s r
  have hmode := (memMode_restored s r).symm
  have hws := writeTarget_of_tables hm p
  have hwt := writeTarget_of_tables hmt p
  by_cases hstack : p.val < 0x02
  · rw [hws, modeTarget_stack m hstack, modeTarget_stack _ hstack,
      hdefer.shadowTable_eq (by omega)]
  by_cases hlow : p.val < 0xC0
  · -- the page shows the same in both; so do the targets
    have hlive := hi.writesLive_iff h ht (isIoPage_of_lt hlow)
    rw [hws, hwt, hm.memshadow_eq, hmt.memshadow_eq,
      hdefer.shadowTable_eq (by omega), modeTarget_low m (by omega) hlow,
      modeTarget_low _ (by omega) hlow, shadowTable,
      updateShadow_low m _ hlow] at hlive
    rw [hws, modeTarget_low m (by omega) hlow,
      modeTarget_low _ (by omega) hlow]
    revert hlive
    generalize selectsAux m m.auxwrite p = wm
    generalize selectsAux s.memMode s.memMode.auxwrite p = wn
    generalize selectsAux m m.auxread p = r
    cases wm <;> cases wn <;> cases r <;> simp [ramPtr]
  by_cases hio : p.val < 0xD0
  · have hpage : isIoPage p = true := isIoPage_iff.mpr (by omega)
    rw [hws, modeTarget_io m hpage, modeTarget_io _ hpage]
  · have hp : 0xD0 ≤ p.val := by omega
    rw [← hwt]
    cases hsw : m.hramWrite with
    | true =>
      have hw : s.writeTarget p = some (lcRam m p) := by
        rw [hws, modeTarget_high m hp, hsw]
        rfl
      rw [hw]
      rw [hdefer.lcRam_eq] at hw ⊢
      exact (hi.writeTarget_lcRam h ht hmode hp _ hw).symm
    | false =>
      have hw : s.writeTarget p = none := by
        rw [hws, modeTarget_high m hp, hsw]
        rfl
      cases hsn : s.memMode.hramWrite with
      | false =>
        rw [hw, hwt, modeTarget_high _ hp, hsn]
        rfl
      | true =>
        have hback := hi.symm.writeTarget_lcRam ht h hmode.symm hp
          s.memMode.hramBank2 (by
            rw [hwt, modeTarget_high _ hp, hsn, ← hmode]
            rfl)
        rw [hw] at hback
        cases hback

/-- A page whose turn is held off is found out. -/
theorem Indistinguishable.settled (h : Sound s) (hrom : RomStored s)
    (hr : SameRom r s) (hi : Indistinguishable ty s (restored s r))
    (p : Page) : s.memshadow p = shadowTable s.memMode p
      ∨ (s.mem p = s.view (shadowTable s.memMode p)
        ∧ s.writeTarget p ≠ some (s.memshadow p)
        ∧ s.writeTarget p ≠ some (shadowTable s.memMode p)) := by
  obtain ⟨m, hm, hdefer, -⟩ := h.tables
  have ht := (sound_restored s r).1
  have hmt := tablesOf_restored s r
  by_cases hsame : s.memshadow p = shadowTable s.memMode p
  · exact .inl hsame
  have hp : 0xD0 ≤ p.val := by
    by_contra hlt
    refine hsame ?_
    rw [hm.memshadow_eq, hdefer.shadowTable_eq (by omega)]
  have hexp : isExpansionPage p = false := by
    simp only [isExpansionPage, Bool.and_eq_false_iff,
      decide_eq_false_iff_not]
    omega
  have hmem : s.mem p = s.view (shadowTable s.memMode p) := by
    rw [hi.mem_eq, ht.mem_eq_view, hmt.memshadow_eq]
    exact (view_restored h hrom hr (fun q hq hq' _ => hi.bank1 h hq hq')
      (ownerPage_ne_window hexp (ownerPage_shadowTable _ p))).symm
  have htarget : (restored s r).writeTarget p = s.writeTarget p :=
    (writeTarget_of_tables hmt p).trans (hi.target h p).symm
  have hlive := hi.writesLive_iff h ht (isIoPage_of_ge hp)
  rw [htarget, hmt.memshadow_eq] at hlive
  refine .inr ⟨hmem, fun he => hsame ?_, fun he => hsame ?_⟩
  · exact Option.some.inj (he.symm.trans (hlive.mp he))
  · exact Option.some.inj ((hlive.mpr he).symm.trans he)

/-- **Which memories survive**: no program tells a memory from the one
restored from its snapshot exactly when it is `Restorable`. -/
theorem indistinguishable_restored_iff (h : Sound s) (hrom : RomStored s)
    (hr : SameRom r s) :
    Indistinguishable ty s (restored s r) ↔ Restorable s := by
  constructor
  · intro hi
    refine ⟨fun p hp hp' _ => hi.bank1 h hp hp', fun p hp => ?_,
      hi.target h, hi.settled h hrom hr⟩
    rw [hi.mem_eq, (sound_restored s r).1.mem_eq_view,
      (tablesOf_restored s r).memshadow_eq, shadowTable_expansion _ hp,
      (sound_restored s r).2,
      stores_restored_rom s r Bank.noConfusion Bank.noConfusion,
      hr _ Bank.noConfusion Bank.noConfusion]
  · intro hs as _
    exact (hs.alike h hrom hr).shows_eq ty as

end Survives

/-- With no update held off, only bank 1 and the expansion window
matter. -/
theorem restorable_iff_of_tablesOf {s : MemoryInstance}
    (h : TablesOf s.memMode s) : Restorable s ↔
      (∀ p : Page, 0xD0 ≤ p.val → p.val < 0xE0 → ∀ aux,
        s.memshadow p = ramPtr aux (p - 0x10) →
        s.mem p = s.stores (ramPtr aux (p - 0x10)))
      ∧ ∀ p, isExpansionPage p = true →
        s.mem p = s.stores (cxInternalPtr p) := by
  refine ⟨fun hs => ⟨hs.bank1, hs.window⟩, fun ⟨hbank1, hwindow⟩ =>
    ⟨hbank1, hwindow, fun p => writeTarget_of_tables h p, fun p => .inl ?_⟩⟩
  rw [h.memshadow_eq]

/-- **What becomes of bank 1**: a page that shows it shows its stored copy
after a restore. -/
theorem mem_restored_bank1 {s : MemoryInstance} (r : MemoryInstance)
    (h : Sound s) {p : Page} {aux : Bool} (hp : 0xD0 ≤ p.val)
    (hp' : p.val < 0xE0)
    (hshown : shadowTable s.memMode p = ramPtr aux (p - 0x10)) :
    (restored s r).mem p = s.stores (ramPtr aux (p - 0x10)) := by
  have hio : isIoPage (p - 0x10) = true := by
    have hsub : (p - 0x10).val = p.val - 0x10 :=
      Fin.sub_val_of_le (by rw [Fin.le_def]; exact Nat.le_trans (by decide) hp)
    exact isIoPage_iff.mpr (by omega)
  rw [(sound_restored s r).1.mem_eq_view,
    (tablesOf_restored s r).memshadow_eq, hshown, (sound_restored s r).2,
    stores_restored_ram, saved_eq_stores h aux hio]

/-- **Exactly which memories a snapshot keeps.** After any run from a reset,
with any accesses of a program, every later run shows the same on the
memory restored from its snapshot as on the memory itself if and only if
bank 1 of the language card is stored as it is shown, the expansion window
shows the internal ROM, and no update is held off that a program could
notice. -/
theorem restore_shows_iff (ty : Apple2Type) (pattern : MemoryInitPattern)
    (s₀ r : MemoryInstance) (before : List Access)
    (hr : SameRom r ((memoryMachine ty).run (memReset pattern s₀) before)) :
    (∀ after : List Access, (∀ a ∈ after, a.OfProgram) →
      (memoryMachine ty).shows
          (memSetSnapshot (memGetSnapshot
            ((memoryMachine ty).run (memReset pattern s₀) before)) r) after
        = (memoryMachine ty).shows
          ((memoryMachine ty).run (memReset pattern s₀) before) after)
      ↔ Restorable
        ((memoryMachine ty).run (memReset pattern s₀) before) := by
  obtain ⟨hsound, hrom⟩ := sound_run_memReset ty pattern s₀ before
  rw [← @indistinguishable_restored_iff ty _ r hsound hrom hr]
  exact forall₂_congr fun _ _ => eq_comm

/-- A memory in which a program has written to its own RAM survives: its byte is
there after the restore, and so is what is written to bank 1 from then on. -/
theorem restore_shows_iff_reset :
    (memoryMachine .apple2e).shows
        (memSetSnapshot (memGetSnapshot
            ((memoryMachine .apple2e).run (memReset .zero MemoryInstance.blank)
              [.write 0xFFFF 0x0300 0x41]))
          (memReset .zero MemoryInstance.blank))
        [.read 0x0300, .switch 0xFFFF 0xC08B, .write 0xFFFF 0xD000 0x42,
          .read 0xD000]
      = (memoryMachine .apple2e).shows
        ((memoryMachine .apple2e).run (memReset .zero MemoryInstance.blank)
          [.write 0xFFFF 0x0300 0x41])
        [.read 0x0300, .switch 0xFFFF 0xC08B, .write 0xFFFF 0xD000 0x42,
          .read 0xD000] := by
  have hwritten : (memoryMachine .apple2e).run (memReset .zero MemoryInstance.blank)
      [.write 0xFFFF 0x0300 0x41]
      = writeByte .apple2e (memReset .zero MemoryInstance.blank) 0xFFFF 0x0300 0x41 := by
    simp only [Machine.run_cons, Machine.run_nil, memoryMachine]
  have hlive : (memReset .zero MemoryInstance.blank).memwrite (pageOf 0x0300) = .live := by
    rw [memReset_eq]
    decide
  rw [writeByte_live .apple2e 0xFFFF 0x41 hlive] at hwritten
  have hreset : TablesOf (memReset .zero MemoryInstance.blank).memMode
      (memReset .zero MemoryInstance.blank)
      ∧ ∀ p, (memReset .zero MemoryInstance.blank).mem p
        = (memReset .zero MemoryInstance.blank).stores (shadowTable MemMode.reset p) := by
    rw [memReset_eq]
    exact ⟨⟨rfl, rfl⟩, fun _ => rfl⟩
  have hshadow : (memReset .zero MemoryInstance.blank).memshadow
      = shadowTable MemMode.reset := by rw [memReset_eq]
  have hiff := restore_shows_iff .apple2e .zero MemoryInstance.blank
    (memReset .zero MemoryInstance.blank) [.write 0xFFFF 0x0300 0x41]
  generalize memReset .zero MemoryInstance.blank = s at hwritten hreset hshadow hiff ⊢
  rw [hwritten] at hiff ⊢
  refine (hiff fun _ _ _ => rfl).mpr ?_ _ (by simp [Access.OfProgram, isPagingSwitch])
  -- every page but the one written to is as the reset left it
  have hpage (p : Page) (hp : 0xC0 ≤ p.val) :
      setByte s.mem (pageOf 0x0300) (offsetOf 0x0300) 0x41 p = s.stores (s.memshadow p) := by
    rw [setByte_page_of_ne _ _ _ fun h => absurd (h ▸ hp) (by decide), hreset.2, hshadow]
  rw [restorable_iff_of_tablesOf (by exact ⟨hreset.1.memshadow_eq, hreset.1.memwrite_eq⟩)]
  refine ⟨fun p hp _ aux hshown => ?_, fun p hp => ?_⟩
  · rw [← hshown]
    exact hpage p (hp.trans' (by decide))
  · have hle : 0xC0 ≤ p.val := by
      simp only [isExpansionPage, Bool.and_eq_true, decide_eq_true_eq] at hp
      omega
    rw [← shadowTable_expansion MemMode.reset hp, ← hshadow]
    exact hpage p hle

/-- A program banks in bank 1 of the language card and writes to it. -/
def bank1Written : MemoryInstance :=
  (memoryMachine .apple2e).run (memReset .zero MemoryInstance.blank)
    [.switch 0xFFFF 0xC08B, .write 0xFFFF 0xD000 0x42]

/-- **What is written to bank 1 is lost**: the program reads its byte back,
and reads zero after a save and a restore. -/
theorem shows_restored_bank1Written :
    (memoryMachine .apple2e).shows bank1Written [.read 0xD000] = [0x42]
    ∧ (memoryMachine .apple2e).shows
      (memSetSnapshot (memGetSnapshot bank1Written) bank1Written)
      [.read 0xD000] = [0] := by
  obtain ⟨hsound, hview⟩ := sound_memReset .zero MemoryInstance.blank
  have hmode : (memReset .zero MemoryInstance.blank).memMode
      = MemMode.reset := by rw [memReset_eq]
  have hstored : (memReset .zero MemoryInstance.blank).stores
      (ramPtr false 0xC0) = fun _ => 0 := by rw [memReset_eq]; rfl
  have hseen : (memReset .zero MemoryInstance.blank).stores
      (ramPtr false 0xC0)
      = (memReset .zero MemoryInstance.blank).view (ramPtr false 0xC0) := by
    rw [hview, memReset_eq]
  have hwritten : bank1Written = writeByte .apple2e (memSetPaging .apple2e
      (memReset .zero MemoryInstance.blank) 0xFFFF 0xC08B)
      0xFFFF 0xD000 0x42 := by
    simp only [bank1Written, Machine.run_cons, Machine.run_nil,
      memoryMachine]
  rw [hwritten]
  generalize memReset .zero MemoryInstance.blank = s
    at hsound hmode hstored hseen
  -- the switch brings bank 1 in, with writes going to the image
  have hm := tablesOf_memSetPaging .apple2e 0xFFFF 0xC08B hsound.tables
    (s.holdsOff_of_lt (by decide) _)
  have hmode' : (memSetPaging .apple2e s 0xFFFF 0xC08B).memMode
      = { MemMode.reset with hramBank2 := false, highram := true } := by
    rw [memSetPaging_memMode, hmode]
    rfl
  have hsound' := hsound.memSetPaging .apple2e 0xFFFF 0xC08B
  have hkept := stores_memSetPaging .apple2e 0xFFFF 0xC08B hsound
    (l := ramPtr false 0xC0) rfl hseen
  rw [hstored] at hkept
  generalize memSetPaging .apple2e s 0xFFFF 0xC08B = t
    at hm hmode' hsound' hkept
  rw [hmode'] at hm
  have hlive : t.memwrite (pageOf 0xD000) = .live := by
    rw [hm.memwrite_eq]
    decide
  have hsound'' := hsound'.writeByte .apple2e 0xFFFF (a := 0xD000) 0x42
    (by decide)
  rw [writeByte_live .apple2e 0xFFFF 0x42 hlive] at hsound'' ⊢
  constructor
  · simp only [Machine.shows_cons, Machine.shows_nil, memoryMachine,
      MemoryInstance.memByte, setByte_self]
    rfl
  · have hlost := fun r => @mem_restored_bank1 _ r hsound'' 0xD0 false
      (by decide) (by decide) (by
        show shadowTable t.memMode 0xD0 = _
        rw [hmode']
        decide)
    have hpage : (0xD0 : Page) - 0x10 = 0xC0 := by decide
    simp only [hpage, hkept] at hlost
    simp only [Machine.shows_cons, Machine.shows_nil, memoryMachine,
      MemoryInstance.memByte]
    exact congrArg (fun d : PageData => [d 0]) (hlost _)

end LinApple.Memory
