import LinApple.Memory.Coherence

/-!
# What every access keeps

Between any two accesses the two page tables are those of one mode, and the
image is coherent with the stores under them (`Sound`). The mode whose
tables stand is the current one, unless an update has been held off; then
it is behind in the four bits a switch that holds off can change, and in no
other (`MemMode.DefersFrom`).

Each access is described once here: what it does to the view of the memory
(`view_writeByte`, `view_memSetPaging`) and that it keeps the invariant.
-/

namespace LinApple.Memory

/-- **The tables are those of the mode `m`.** -/
structure TablesOf (m : MemMode) (s : MemoryInstance) : Prop where
  /-- The shadows are. -/
  memshadow_eq : s.memshadow = shadowTable m
  /-- The write table is. -/
  memwrite_eq : s.memwrite = writeTable m

/-- The mode differs from the one whose tables stand only in what a switch
that is held off can change: `AUXWRITE` and the language card. -/
def MemMode.DefersFrom (m n : MemMode) : Prop :=
  n = { m with
    auxwrite := n.auxwrite
    hramBank2 := n.hramBank2
    highram := n.highram
    hramWrite := n.hramWrite }

/-- **The tables of one mode stand**, the current one unless an update is pending. An update is
held off where the next instruction turns a switch as well, and until then the tables are those of
the mode before. -/
def HasTables (s : MemoryInstance) : Prop :=
  ∃ m, TablesOf m s ∧ m.DefersFrom s.memMode
    ∧ (m = s.memMode ∨ s.modeChanging = true)

/-- **The invariant of the paging code**: the tables of one mode stand, and
the image is coherent under them. -/
structure Sound (s : MemoryInstance) : Prop where
  /-- The image is coherent with the stores. -/
  coherent : s.toWriteBack.Coherent ownerPage isPinned
  /-- The tables of a mode stand. -/
  tables : HasTables s

/-- The stored page a write to a page of the image ends up in. -/
def MemoryInstance.writeTarget (s : MemoryInstance) (p : Page) :
    Option PagePtr :=
  match s.memwrite p with
  | .null => none
  | .live => some (s.memshadow p)
  | .store l => some l

/-- The ROM that is behind the expansion window. -/
def PagePtr.isWindowRom (l : PagePtr) : Bool :=
  (l.bank = .cxRomInternal || l.bank = .cxRomPeripheral)
    && isExpansionPage (ownerPage l)

theorem MemMode.DefersFrom.refl (m : MemMode) : m.DefersFrom m := rfl

/-! ## The tables of a mode -/

theorem ownerPage_shadowTable (m : MemMode) (p : Page) :
    ownerPage (shadowTable m p) = p := ownerPage_updateShadow m _ p

theorem shadowTable_expansion (m : MemMode) {p : Page}
    (hp : isExpansionPage p = true) : shadowTable m p = cxInternalPtr p :=
  updateShadow_expansion m _ hp

theorem isIoPage_of_lt {p : Page} (hp : p.val < 0xC0) :
    isIoPage p = false := by
  simp only [isIoPage, Bool.and_eq_false_iff, decide_eq_false_iff_not]
  omega

theorem isIoPage_of_ge {p : Page} (hp : 0xD0 ≤ p.val) :
    isIoPage p = false := by
  simp only [isIoPage, Bool.and_eq_false_iff, decide_eq_false_iff_not]
  omega

theorem writeTable_io (m : MemMode) {p : Page} (hp : isIoPage p = true) :
    writeTable m p = .null := by
  rw [writeTable, updateWrite_io m _ hp, if_pos hp]

/-- A write that goes past the image goes to a stored page of the same
page of the image, which that page does not show. -/
theorem writeTable_store {m : MemMode} {p : Page} {l : PagePtr}
    (h : writeTable m p = .store l) :
    ownerPage l = p ∧ shadowTable m p ≠ l := by
  -- by region: the stack and the I/O page are never written through, and the other two only where
  -- the page written is not the page read
  by_cases hstack : p.val < 0x02
  · rw [writeTable, updateWrite_stack m _ hstack,
      if_neg (by rw [isIoPage_of_lt (by omega)]; exact Bool.false_ne_true)]
      at h
    exact WritePtr.noConfusion h
  by_cases hlow : p.val < 0xC0
  · rw [writeTable, updateWrite_low m _ (by omega) hlow] at h
    split at h
    · exact WritePtr.noConfusion h
    · next hne =>
      obtain rfl := WritePtr.store.inj h
      refine ⟨ownerPage_ramPtr _ (isIoPage_of_lt hlow), fun he => hne ?_⟩
      rw [shadowTable, updateShadow_low m _ hlow] at he
      cases hr : selectsAux m m.auxread p <;>
        cases hw : selectsAux m m.auxwrite p <;>
        simp_all [ramPtr]
  by_cases hio : p.val < 0xD0
  · rw [writeTable_io m (by
      simp only [isIoPage, Bool.and_eq_true, decide_eq_true_eq]; omega)] at h
    exact WritePtr.noConfusion h
  · rw [writeTable, updateWrite_high m _ (by omega)] at h
    split at h
    · split at h
      · exact WritePtr.noConfusion h
      · next hread =>
        obtain rfl := WritePtr.store.inj h
        refine ⟨ownerPage_lcRam m (by omega), fun he => ?_⟩
        rw [shadowTable, updateShadow_high m _ (by omega), if_neg hread]
          at he
        have hbank := congrArg PagePtr.bank he
        unfold lcRam ramPtr romPtr at hbank
        split at hbank <;> split at hbank <;> exact Bank.noConfusion hbank
    · exact WritePtr.noConfusion h

theorem ramPtr_ne (b c : Bool) (p : Page) (h : b ≠ c) :
    ramPtr b p ≠ ramPtr c p := by
  cases b <;> cases c <;> simp_all [ramPtr]

section DefersFrom

variable {m n : MemMode} {p : Page}

theorem MemMode.DefersFrom.selectsAux_eq (h : m.DefersFrom n) (ram : Bool)
    (p : Page) : selectsAux n ram p = selectsAux m ram p := by
  rw [h]
  rfl

/-- Below `$D000` a page shows what it would show without the delay. -/
theorem MemMode.DefersFrom.shadowTable_eq (h : m.DefersFrom n)
    (hp : p.val < 0xD0) : shadowTable n p = shadowTable m p := by
  unfold shadowTable
  by_cases hlow : p.val < 0xC0
  · rw [updateShadow_low n _ hlow, updateShadow_low m _ hlow,
      h.selectsAux_eq, h]
  by_cases hslot : p.val < 0xC8
  · rw [updateShadow_slot n _ (by omega) hslot,
      updateShadow_slot m _ (by omega) hslot, h]
  · have hexp : isExpansionPage p = true := by
      simp only [isExpansionPage, Bool.and_eq_true, decide_eq_true_eq]
      omega
    rw [updateShadow_expansion n _ hexp, updateShadow_expansion m _ hexp]

end DefersFrom

section TablesOf

variable {m : MemMode} {s : MemoryInstance}

theorem TablesOf.memshadow_expansion (h : TablesOf m s) {p : Page}
    (hp : isExpansionPage p = true) : s.memshadow p = cxInternalPtr p := by
  rw [h.memshadow_eq, shadowTable_expansion m hp]

theorem TablesOf.memwrite_io (h : TablesOf m s) {p : Page}
    (hp : isIoPage p = true) : s.memwrite p = .null := by
  rw [h.memwrite_eq, writeTable_io m hp]

/-- An update leaves the tables of the mode. -/
theorem TablesOf.memUpdatePaging (h : TablesOf m s) :
    TablesOf s.memMode (memUpdatePaging false s) := by
  refine ⟨?_, ?_⟩
  · rw [memUpdatePaging_memshadow]
    exact updateShadow_eq _ _ _
  · rw [memUpdatePaging_memwrite, h.memwrite_eq, writeTable, writeTable]
    refine updateWrite_eq _ fun p hp => ?_
    rcases hp with hp | hp
    · exact updateWrite_stack m _ hp
    · exact updateWrite_io m _ hp

end TablesOf

section HasTables

variable {s : MemoryInstance} (h : HasTables s) {p : Page}
include h

theorem HasTables.memshadow_expansion (hp : isExpansionPage p = true) :
    s.memshadow p = cxInternalPtr p := by
  obtain ⟨m, hm, -⟩ := h
  exact hm.memshadow_expansion hp

/-- Every page shows a stored page of its own. -/
theorem HasTables.owner_map (p : Page) : ownerPage (s.memshadow p) = p := by
  obtain ⟨m, hm, -⟩ := h
  rw [hm.memshadow_eq]
  exact ownerPage_shadowTable m p

theorem HasTables.memwrite_io (hp : isIoPage p = true) :
    s.memwrite p = .null := by
  obtain ⟨m, hm, -⟩ := h
  exact hm.memwrite_io hp

/-- A write past the image does not go to what the page shows. -/
theorem HasTables.memwrite_store {l : PagePtr}
    (hw : s.memwrite p = .store l) :
    ownerPage l = p ∧ s.memshadow p ≠ l := by
  obtain ⟨m, hm, -⟩ := h
  rw [hm.memwrite_eq] at hw
  rw [hm.memshadow_eq]
  exact writeTable_store hw

/-- Below `$D000` every page shows what the flags select, also while an
update is held off. -/
theorem HasTables.memshadow_eq (hp : p.val < 0xD0) :
    s.memshadow p = shadowTable s.memMode p := by
  obtain ⟨m, hm, hdefer, -⟩ := h
  rw [hm.memshadow_eq, hdefer.shadowTable_eq hp]

end HasTables

/-- A page of the image shows what is in view of its shadow. -/
theorem Sound.mem_eq_view {s : MemoryInstance} (h : Sound s) (p : Page) :
    s.mem p = s.view (s.memshadow p) :=
  h.coherent.live_eq_view p

/-! ## Writes -/

theorem toWriteBack_mark (s : MemoryInstance) (p : Page) :
    MemoryInstance.toWriteBack
        { s with memdirty := Function.update s.memdirty p 0xFF }
      = s.toWriteBack.mark p := by
  refine congrArg (WriteBack.mk s.mem s.stores s.memshadow)
    (funext fun q => ?_)
  show decide (Function.update s.memdirty p 0xFF q &&& 1 ≠ 0)
    = Function.update s.toWriteBack.dirty p true q
  by_cases hq : q = p
  · subst hq
    rw [Function.update_self, Function.update_self]
    rfl
  · rw [Function.update_of_ne hq, Function.update_of_ne hq]
    rfl

theorem toWriteBack_write_live (s : MemoryInstance) (p : Page)
    (o : Fin 256) (v : UInt8) :
    MemoryInstance.toWriteBack
        { s with
          memdirty := Function.update s.memdirty p 0xFF
          mem := setByte s.mem p o v }
      = s.toWriteBack.writeLive p (Function.update (s.mem p) o v) :=
  congrArg (fun c : WriteBack Page PagePtr PageData =>
    { c with live := setByte s.mem p o v }) (toWriteBack_mark s p)

theorem toWriteBack_write_store (s : MemoryInstance) (p : Page)
    (l : PagePtr) (o : Fin 256) (v : UInt8) :
    MemoryInstance.toWriteBack
        { s with
          memdirty := Function.update s.memdirty p 0xFF
          stores := setByte s.stores l o v }
      = s.toWriteBack.writeStore p l (Function.update (s.stores l) o v) :=
  congrArg (fun c : WriteBack Page PagePtr PageData =>
    { c with store := setByte s.stores l o v }) (toWriteBack_mark s p)

/-- A byte of the memory replaced, where there is one to replace. -/
def putByte (m : PagePtr → PageData) (l : Option PagePtr) (o : Fin 256)
    (v : UInt8) : PagePtr → PageData :=
  match l with
  | some l => setByte m l o v
  | none => m

section Writes

variable (ty : Apple2Type) {s : MemoryInstance} (pc : UInt16) {a : UInt16}
  (v : UInt8)

theorem writeByte_live (h : s.memwrite (pageOf a) = .live) :
    writeByte ty s pc a v =
      { s with
        memdirty := Function.update s.memdirty (pageOf a) 0xFF
        mem := setByte s.mem (pageOf a) (offsetOf a) v } := by
  simp only [writeByte, h]

theorem writeByte_store {l : PagePtr}
    (h : s.memwrite (pageOf a) = .store l) : writeByte ty s pc a v =
      { s with
        memdirty := Function.update s.memdirty (pageOf a) 0xFF
        stores := setByte s.stores l (offsetOf a) v } := by
  simp only [writeByte, h]

theorem writeByte_null (h : s.memwrite (pageOf a) = .null)
    (ha : isPagingSwitch a = false) : writeByte ty s pc a v =
      { s with memdirty := Function.update s.memdirty (pageOf a) 0xFF } := by
  simp only [writeByte, h, ha, Bool.false_eq_true, if_false]

/-- **What a write does to the view**: it changes the byte at its target,
and nothing else. -/
theorem view_writeByte (h : Sound s) (ha : isPagingSwitch a = false) :
    (writeByte ty s pc a v).view
      = putByte s.view (s.writeTarget (pageOf a)) (offsetOf a) v := by
  unfold MemoryInstance.writeTarget
  cases hw : s.memwrite (pageOf a) with
  | null =>
    rw [writeByte_null ty pc v hw ha, MemoryInstance.view,
      toWriteBack_mark]
    rfl
  | live =>
    rw [writeByte_live ty pc v hw, MemoryInstance.view,
      toWriteBack_write_live, WriteBack.view_writeLive h.coherent.owner_map,
      h.mem_eq_view]
    rfl
  | store l =>
    obtain ⟨hown, hshown⟩ := h.tables.memwrite_store hw
    have hview : s.view l = s.stores l := by
      rw [MemoryInstance.view, WriteBack.view, hown]
      exact if_neg hshown
    rw [writeByte_store ty pc v hw, MemoryInstance.view,
      toWriteBack_write_store, WriteBack.view_writeStore hown hshown,
      ← hview]
    rfl

variable (s) in
theorem writeByte_memMode (ha : isPagingSwitch a = false) :
    (writeByte ty s pc a v).memMode = s.memMode := by
  cases hw : s.memwrite (pageOf a) with
  | null => rw [writeByte_null ty pc v hw ha]
  | live => rw [writeByte_live ty pc v hw]
  | store l => rw [writeByte_store ty pc v hw]

variable (s) in
theorem writeByte_modeChanging (ha : isPagingSwitch a = false) :
    (writeByte ty s pc a v).modeChanging = s.modeChanging := by
  cases hw : s.memwrite (pageOf a) with
  | null => rw [writeByte_null ty pc v hw ha]
  | live => rw [writeByte_live ty pc v hw]
  | store l => rw [writeByte_store ty pc v hw]

/-- A write leaves the tables alone. -/
theorem TablesOf.writeByte {m : MemMode} (h : TablesOf m s)
    (ha : isPagingSwitch a = false) :
    TablesOf m (writeByte ty s pc a v) := by
  cases hw : s.memwrite (pageOf a) with
  | null =>
    rw [writeByte_null ty pc v hw ha]
    exact ⟨h.memshadow_eq, h.memwrite_eq⟩
  | live =>
    rw [writeByte_live ty pc v hw]
    exact ⟨h.memshadow_eq, h.memwrite_eq⟩
  | store l =>
    rw [writeByte_store ty pc v hw]
    exact ⟨h.memshadow_eq, h.memwrite_eq⟩

/-- A write leaves the tables of a mode standing. -/
theorem HasTables.writeByte (h : HasTables s)
    (ha : isPagingSwitch a = false) : HasTables (writeByte ty s pc a v) := by
  obtain ⟨m, hm, hmode⟩ := h
  refine ⟨m, hm.writeByte ty pc v ha, ?_⟩
  rw [writeByte_memMode ty s pc v ha, writeByte_modeChanging ty s pc v ha]
  exact hmode

/-- A write keeps the invariant. -/
theorem Sound.writeByte (h : Sound s) (ha : isPagingSwitch a = false) :
    Sound (writeByte ty s pc a v) := by
  refine ⟨?_, h.tables.writeByte ty pc v ha⟩
  cases hw : s.memwrite (pageOf a) with
  | null =>
    rw [writeByte_null ty pc v hw ha, toWriteBack_mark]
    exact h.coherent.mark _
  | live =>
    rw [writeByte_live ty pc v hw, toWriteBack_write_live]
    exact h.coherent.writeLive _ _
  | store l =>
    rw [writeByte_store ty pc v hw, toWriteBack_write_store]
    exact h.coherent.writeStore (h.tables.memwrite_store hw).1 _

/-- A mark leaves the tables of a mode standing. -/
theorem HasTables.mark (h : HasTables s) (p : Page) :
    HasTables { s with memdirty := Function.update s.memdirty p 0xFF } := by
  obtain ⟨m, hm, hmode⟩ := h
  exact ⟨m, ⟨hm.memshadow_eq, hm.memwrite_eq⟩, hmode⟩

/-- A mark keeps the invariant. -/
theorem Sound.mark (h : Sound s) (p : Page) :
    Sound { s with memdirty := Function.update s.memdirty p 0xFF } := by
  refine ⟨?_, h.tables.mark p⟩
  rw [toWriteBack_mark]
  exact h.coherent.mark p

/-- A write to a paging switch is an access to the switch. -/
theorem writeByte_switch (h : HasTables s) (ha : isPagingSwitch a = true) :
    writeByte ty s pc a v = memSetPaging ty
      { s with memdirty := Function.update s.memdirty (pageOf a) 0xFF }
      pc a := by
  have hio : isIoPage (pageOf a) = true := by
    by_contra hno
    have := isPagingSwitch_of_isIoRegion (a := a) (Bool.eq_false_iff.mpr hno)
    exact Bool.false_ne_true (this.symm.trans ha)
  simp only [Memory.writeByte, h.memwrite_io hio, ha, if_true]

end Writes

/-! ## Soft switches -/

section Fields

variable (ty : Apple2Type) (last : MemMode) (s : MemoryInstance)
  (addr : Nat)

@[simp] theorem throwSwitch_memMode : (throwSwitch ty s addr).memMode
    = switchMode ty s.memMode addr := rfl

@[simp] theorem throwSwitch_toWriteBack :
    (throwSwitch ty s addr).toWriteBack = s.toWriteBack := rfl

@[simp] theorem moveExpansionRom_memMode :
    (moveExpansionRom last s).memMode = s.memMode := by
  unfold moveExpansionRom; split_ifs <;> rfl

@[simp] theorem moveExpansionRom_memshadow :
    (moveExpansionRom last s).memshadow = s.memshadow := by
  unfold moveExpansionRom; split_ifs <;> rfl

@[simp] theorem moveExpansionRom_memwrite :
    (moveExpansionRom last s).memwrite = s.memwrite := by
  unfold moveExpansionRom; split_ifs <;> rfl

@[simp] theorem moveExpansionRom_modeChanging :
    (moveExpansionRom last s).modeChanging = s.modeChanging := by
  unfold moveExpansionRom; split_ifs <;> rfl

@[simp] theorem moveExpansionRom_memdirty :
    (moveExpansionRom last s).memdirty = s.memdirty := by
  unfold moveExpansionRom; split_ifs <;> rfl

end Fields

/-- Outside the expansion ROM window the image is left alone. -/
theorem moveExpansionRom_mem (last : MemMode) (s : MemoryInstance) {p : Page}
    (hp : isExpansionPage p = false) :
    (moveExpansionRom last s).mem p = s.mem p := by
  unfold moveExpansionRom
  split_ifs
  · simp only [disableInternalRom, hp, Bool.false_eq_true, if_false]
  · simp only [enableInternalRom, hp, Bool.false_eq_true, if_false]
  · rfl

/-- The only stores that change are those of the peripheral expansion
ROM. -/
theorem moveExpansionRom_stores (last : MemMode) (s : MemoryInstance)
    {l : PagePtr} (hl : l.bank = .cxRomPeripheral →
      isExpansionPage (ownerPage l) = false) :
    (moveExpansionRom last s).stores l = s.stores l := by
  unfold moveExpansionRom
  split_ifs
  · refine if_neg fun ⟨hbank, hlo, hhi⟩ => ?_
    have hval : (l.page + 0xC0).val = l.page.val + 0xC0 := by
      show (l.page.val + 0xC0) % 256 = _
      omega
    have := hl hbank
    simp only [ownerPage, hbank, isExpansionPage, hval,
      Bool.and_eq_false_iff, decide_eq_false_iff_not] at this
    omega
  · rfl
  · rfl

/-- A switch that is held off changes only what `DefersFrom` allows. -/
theorem defersFrom_switchMode_of_holdsOff (ty : Apple2Type) (m : MemMode)
    {s : MemoryInstance} {pc : UInt16} {addr : Nat}
    (h : s.holdsOff pc addr = true) :
    m.DefersFrom (switchMode ty m addr) := by
  unfold MemMode.DefersFrom switchMode
  split_ifs with hlc hii
  · rfl
  · rfl
  · have haddr : addr = 4 ∨ addr = 5 := by
      simp only [MemoryInstance.holdsOff, Bool.or_eq_true, Bool.and_eq_true,
        decide_eq_true_eq] at h
      omega
    rcases haddr with rfl | rfl <;> rfl

theorem MemMode.DefersFrom.trans {l m n : MemMode} (h : l.DefersFrom m)
    (k : m.DefersFrom n) : l.DefersFrom n := by
  unfold MemMode.DefersFrom at *
  rw [k, h]

/-- The expansion ROM logic keeps the image coherent: it touches pages that
are never behind, and a store no page shows. -/
theorem coherent_moveExpansionRom {s : MemoryInstance} (last : MemMode)
    (h : s.toWriteBack.Coherent ownerPage isPinned) :
    (moveExpansionRom last s).toWriteBack.Coherent ownerPage isPinned := by
  refine ⟨fun p => ?_, fun p hd hp => ?_⟩
  · show ownerPage ((moveExpansionRom last s).memshadow p) = p
    rw [moveExpansionRom_memshadow]
    exact h.owner_map p
  · have hexp' : isExpansionPage p = false := by
      simp only [isPinned, Bool.or_eq_false_iff] at hp
      exact hp.2
    have hown : ownerPage (s.memshadow p) = p := h.owner_map p
    show (moveExpansionRom last s).mem p
      = (moveExpansionRom last s).stores ((moveExpansionRom last s).memshadow p)
    rw [moveExpansionRom_memshadow, moveExpansionRom_mem last s hexp',
      moveExpansionRom_stores last s (fun _ => by rw [hown, hexp'])]
    refine h.clean p ?_ hp
    have hdirty : decide ((moveExpansionRom last s).memdirty p &&& 1 ≠ 0)
      = false := hd
    rwa [moveExpansionRom_memdirty] at hdirty

theorem PagePtr.not_isWindowRom {l : PagePtr} (hl : l.isWindowRom = false)
    (hbank : l.bank = .cxRomInternal ∨ l.bank = .cxRomPeripheral) :
    isExpansionPage (ownerPage l) = false := by
  rw [PagePtr.isWindowRom, Bool.and_eq_false_iff] at hl
  refine hl.resolve_left fun h => ?_
  rcases hbank with hb | hb <;> rw [hb] at h <;> exact absurd h (by decide)

/-- The expansion ROM logic changes the view of nothing but the ROM behind
the expansion window. -/
theorem view_moveExpansionRom {s : MemoryInstance} (last : MemMode)
    (hexp : ∀ p, isExpansionPage p = true → s.memshadow p = cxInternalPtr p)
    {l : PagePtr} (hl : l.isWindowRom = false) :
    (moveExpansionRom last s).view l = s.view l := by
  show (if (moveExpansionRom last s).memshadow (ownerPage l) = l
      then (moveExpansionRom last s).mem (ownerPage l)
      else (moveExpansionRom last s).stores l)
    = if s.memshadow (ownerPage l) = l then s.mem (ownerPage l)
      else s.stores l
  rw [moveExpansionRom_memshadow, moveExpansionRom_stores last s
    (fun hbank => PagePtr.not_isWindowRom hl (.inr hbank))]
  by_cases hshown : s.memshadow (ownerPage l) = l
  · have hpage : isExpansionPage (ownerPage l) = false := by
      refine Bool.eq_false_iff.mpr fun he => ?_
      have hbank : l.bank = .cxRomInternal := by
        rw [← hshown, hexp _ he]
        rfl
      exact Bool.false_ne_true
        ((PagePtr.not_isWindowRom hl (.inl hbank)).symm.trans he)
    rw [if_pos hshown, if_pos hshown, moveExpansionRom_mem last s hpage]
  · rw [if_neg hshown, if_neg hshown]

section BeginUpdate

variable (ty : Apple2Type) (s : MemoryInstance) (addr : Nat)

@[simp] theorem beginUpdate_memMode : (beginUpdate ty s addr).memMode
    = switchMode ty s.memMode addr := moveExpansionRom_memMode _ _

@[simp] theorem beginUpdate_memshadow :
    (beginUpdate ty s addr).memshadow = s.memshadow :=
  moveExpansionRom_memshadow _ _

@[simp] theorem beginUpdate_memwrite :
    (beginUpdate ty s addr).memwrite = s.memwrite :=
  moveExpansionRom_memwrite _ _

variable {s}

theorem stores_beginUpdate {l : PagePtr} (hl : l.isWindowRom = false) :
    (beginUpdate ty s addr).stores l = s.stores l := by
  exact moveExpansionRom_stores _ _ fun hbank =>
    PagePtr.not_isWindowRom hl (.inr hbank)

theorem view_beginUpdate (h : HasTables s) {l : PagePtr}
    (hl : l.isWindowRom = false) :
    (beginUpdate ty s addr).view l = s.view l :=
  view_moveExpansionRom s.memMode
    (s := { throwSwitch ty s addr with modeChanging := false })
    (fun _ hp => h.memshadow_expansion hp) hl

theorem coherent_beginUpdate (h : Sound s) :
    (beginUpdate ty s addr).toWriteBack.Coherent ownerPage isPinned :=
  coherent_moveExpansionRom s.memMode
    (s := { throwSwitch ty s addr with modeChanging := false }) h.coherent

/-- The update that follows turns the pages to the new mode's shadows. -/
theorem toWriteBack_update (h : HasTables s) :
    (memUpdatePaging false (beginUpdate ty s addr)).toWriteBack
      = (beginUpdate ty s addr).toWriteBack.turnAll isPinned
          (shadowTable (switchMode ty s.memMode addr))
          (List.finRange 256) := by
  have hexp : ∀ p, isExpansionPage p = true →
      (beginUpdate ty s addr).memshadow p = cxInternalPtr p := fun p hp => by
    rw [beginUpdate_memshadow, h.memshadow_expansion hp]
  have hnew : updateShadow (beginUpdate ty s addr).memMode
      (beginUpdate ty s addr).memshadow
      = shadowTable (switchMode ty s.memMode addr) := by
    rw [beginUpdate_memMode]
    exact updateShadow_eq _ _ _
  rw [toWriteBack_memUpdatePaging _ hexp, hnew]

/-- The update keeps the image coherent and changes no view. -/
theorem coherent_update (h : Sound s) :
    (memUpdatePaging false (beginUpdate ty s addr)).toWriteBack.Coherent
        ownerPage isPinned
      ∧ (memUpdatePaging false (beginUpdate ty s addr)).view
        = (beginUpdate ty s addr).view := by
  rw [MemoryInstance.view, toWriteBack_update ty addr h.tables]
  exact (coherent_beginUpdate ty addr h).turnAll
    (ownerPage_shadowTable _) _

/-- The update leaves the tables of the new mode. -/
theorem tablesOf_update (h : HasTables s) :
    TablesOf (switchMode ty s.memMode addr)
      (memUpdatePaging false (beginUpdate ty s addr)) := by
  obtain ⟨m, hm, -⟩ := h
  have hbegin : TablesOf m (beginUpdate ty s addr) :=
    ⟨(beginUpdate_memshadow ty s addr).trans hm.memshadow_eq,
      (beginUpdate_memwrite ty s addr).trans hm.memwrite_eq⟩
  have hupdate := hbegin.memUpdatePaging
  rwa [beginUpdate_memMode] at hupdate

/-- The update stores nothing but what is in view. -/
theorem stores_update (h : Sound s) {l : PagePtr}
    (hl : l.isWindowRom = false) (hstore : s.stores l = s.view l) :
    (memUpdatePaging false (beginUpdate ty s addr)).stores l
      = s.stores l := by
  have hview : (beginUpdate ty s addr).toWriteBack.store l
      = (beginUpdate ty s addr).toWriteBack.view ownerPage l :=
    (stores_beginUpdate ty addr hl).trans
      (hstore.trans (view_beginUpdate ty addr h.tables hl).symm)
  have hturn := WriteBack.turnAll_store_of_eq_view
    (coherent_beginUpdate ty addr h)
    (ownerPage_shadowTable (switchMode ty s.memMode addr))
    (List.finRange 256) hview
  rw [← toWriteBack_update ty addr h.tables, toWriteBack_store, toWriteBack_store,
    stores_beginUpdate ty addr hl] at hturn
  exact hturn

end BeginUpdate

section MemSetPaging

variable (ty : Apple2Type) (s : MemoryInstance) (pc addr : UInt16)

/-- **What an access to a soft switch does**: it is held off and only the
flags change, or the mode is as it was and nothing is pending, or the
tables and the image follow the mode. -/
theorem memSetPaging_cases :
    (s.holdsOff pc (addr.toNat % 0x100) = true
      ∧ memSetPaging ty s pc addr
        = { throwSwitch ty s (addr.toNat % 0x100) with
            modeChanging := true })
    ∨ (s.holdsOff pc (addr.toNat % 0x100) = false
      ∧ switchMode ty s.memMode (addr.toNat % 0x100) = s.memMode
      ∧ s.modeChanging = false
      ∧ memSetPaging ty s pc addr = throwSwitch ty s (addr.toNat % 0x100))
    ∨ (s.holdsOff pc (addr.toNat % 0x100) = false
      ∧ memSetPaging ty s pc addr = memUpdatePaging false
        (beginUpdate ty s (addr.toNat % 0x100))) := by
  by_cases hoff : s.holdsOff pc (addr.toNat % 0x100) = true
  · exact .inl ⟨hoff, if_pos hoff⟩
  by_cases hmode : (s.memMode ≠ switchMode ty s.memMode (addr.toNat % 0x100)
      || s.modeChanging) = true
  · exact .inr (.inr ⟨Bool.eq_false_iff.mpr hoff,
      (if_neg hoff).trans (if_pos hmode)⟩)
  · refine .inr (.inl ⟨Bool.eq_false_iff.mpr hoff, ?_, ?_,
      (if_neg hoff).trans (if_neg hmode)⟩)
    · simp only [Bool.or_eq_true, decide_eq_true_eq, not_or, not_not]
        at hmode
      exact hmode.1.symm
    · simp only [Bool.or_eq_true, not_or, Bool.not_eq_true] at hmode
      exact hmode.2

@[simp] theorem memSetPaging_memMode : (memSetPaging ty s pc addr).memMode
    = switchMode ty s.memMode (addr.toNat % 0x100) := by
  rcases memSetPaging_cases ty s pc addr with
    ⟨-, h⟩ | ⟨-, -, -, h⟩ | ⟨-, h⟩ <;> rw [h]
  · rfl
  · rfl
  · rw [memUpdatePaging_memMode, beginUpdate_memMode]

variable {s}

/-- **A soft switch changes no view**, that of the ROM behind the expansion
window apart, whether it is held off or not. -/
theorem view_memSetPaging (h : Sound s) {l : PagePtr}
    (hl : l.isWindowRom = false) :
    (memSetPaging ty s pc addr).view l = s.view l := by
  rcases memSetPaging_cases ty s pc addr with
    ⟨-, hs⟩ | ⟨-, -, -, hs⟩ | ⟨-, hs⟩ <;> rw [hs]
  · rfl
  · rfl
  · rw [(coherent_update ty _ h).2]
    exact view_beginUpdate ty _ h.tables hl

/-- A soft switch leaves the tables of a mode standing. -/
theorem HasTables.memSetPaging (h : HasTables s) :
    HasTables (memSetPaging ty s pc addr) := by
  obtain ⟨m, hm, hdefer, hmode⟩ := h
  rcases memSetPaging_cases ty s pc addr with
    ⟨hoff, hs⟩ | ⟨-, hsame, hnot, hs⟩ | ⟨-, hs⟩ <;> rw [hs]
  · exact ⟨m, ⟨hm.memshadow_eq, hm.memwrite_eq⟩,
      hdefer.trans (defersFrom_switchMode_of_holdsOff ty _ hoff), .inr rfl⟩
  · refine ⟨m, ⟨hm.memshadow_eq, hm.memwrite_eq⟩, ?_, ?_⟩
    · rw [throwSwitch_memMode, hsame]
      exact hdefer
    · rw [throwSwitch_memMode, hsame]
      exact hmode
  · refine ⟨_, tablesOf_update ty _ ⟨m, hm, hdefer, hmode⟩, ?_, .inl ?_⟩
    · rw [memUpdatePaging_memMode, beginUpdate_memMode]
      exact MemMode.DefersFrom.refl _
    · rw [memUpdatePaging_memMode, beginUpdate_memMode]

/-- **A soft switch keeps the invariant.** -/
theorem Sound.memSetPaging (h : Sound s) :
    Sound (memSetPaging ty s pc addr) := by
  refine ⟨?_, h.tables.memSetPaging ty pc addr⟩
  rcases memSetPaging_cases ty s pc addr with
    ⟨-, hs⟩ | ⟨-, -, -, hs⟩ | ⟨-, hs⟩ <;> rw [hs]
  · exact h.coherent
  · exact h.coherent
  · exact (coherent_update ty _ h).1

/-- A soft switch that is not held off leaves the tables of the mode. -/
theorem tablesOf_memSetPaging (h : HasTables s)
    (hoff : s.holdsOff pc (addr.toNat % 0x100) = false) :
    TablesOf (memSetPaging ty s pc addr).memMode
      (memSetPaging ty s pc addr) := by
  obtain ⟨m, hm, hdefer, hmode⟩ := id h
  rw [memSetPaging_memMode]
  rcases memSetPaging_cases ty s pc addr with
    ⟨hoff', -⟩ | ⟨-, hsame, hnot, hs⟩ | ⟨-, hs⟩
  · exact absurd (hoff.symm.trans hoff') Bool.false_ne_true
  · have hcur : m = s.memMode := hmode.resolve_right (by
      rw [hnot]
      exact Bool.false_ne_true)
    rw [hs, hsame, ← hcur]
    exact ⟨hm.memshadow_eq, hm.memwrite_eq⟩
  · rw [hs]
    exact tablesOf_update ty _ h

/-- **ROM is not altered by a soft switch**: where the stored page is what
is in view of it, it stays what it was. -/
theorem stores_memSetPaging (h : Sound s) {l : PagePtr}
    (hl : l.isWindowRom = false) (hstore : s.stores l = s.view l) :
    (memSetPaging ty s pc addr).stores l = s.stores l := by
  rcases memSetPaging_cases ty s pc addr with
    ⟨-, hs⟩ | ⟨-, -, -, hs⟩ | ⟨-, hs⟩ <;> rw [hs]
  · rfl
  · rfl
  · exact stores_update ty _ h hl hstore

end MemSetPaging

/-! ## After a reset -/

/-- The stores `mem_reset` starts from. -/
def resetStores (pattern : MemoryInitPattern) (s : MemoryInstance) :
    PagePtr → PageData := fun l =>
  match l.bank with
  | .memmain => initByte pattern l.page
  | .memaux => fun _ => 0
  | _ => s.stores l

/-- `mem_reset` leaves the tables of the mode it sets and an image copied in
from the stores. -/
theorem memReset_eq (pattern : MemoryInitPattern) (s : MemoryInstance) :
    memReset pattern s =
      { s with
        stores := resetStores pattern s
        mem := fun p => resetStores pattern s (shadowTable MemMode.reset p)
        memshadow := shadowTable MemMode.reset
        memwrite := writeTable MemMode.reset
        lastWriteRam := false
        memMode := MemMode.reset } := by
  unfold memReset resetPaging
  exact memUpdatePaging_true _

/-- A memory just initialised is coherent, and all it has is stored. -/
theorem sound_of_mem_eq {s : MemoryInstance} (ht : TablesOf s.memMode s)
    (hmem : ∀ p, s.mem p = s.stores (s.memshadow p)) :
    Sound s ∧ s.view = s.stores := by
  refine ⟨⟨⟨fun p => ?_, fun p _ _ => hmem p⟩, s.memMode, ht,
    MemMode.DefersFrom.refl _, .inl rfl⟩, funext fun l => ?_⟩
  · show ownerPage (s.memshadow p) = p
    rw [ht.memshadow_eq]
    exact ownerPage_shadowTable _ p
  · show (if s.memshadow (ownerPage l) = l then s.mem (ownerPage l)
      else s.stores l) = s.stores l
    split
    · next h => rw [hmem, h]
    · rfl

/-- **A reset machine is sound.** -/
theorem sound_memReset (pattern : MemoryInitPattern) (s : MemoryInstance) :
    Sound (memReset pattern s)
      ∧ (memReset pattern s).view = resetStores pattern s := by
  rw [memReset_eq]
  exact sound_of_mem_eq ⟨rfl, rfl⟩ fun _ => rfl

end LinApple.Memory
