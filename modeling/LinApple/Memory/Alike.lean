import LinApple.Memory.Refinement

/-!
# Memories a program cannot tell apart

Two memories are `Alike` when their images show the same, every write goes
to the same place, and everything that could still be brought in is the
same. They may differ in their dirty marks, in what their stores hold behind
a page that is shown, and in which page a stored byte was copied from – as
long as the difference is not one an access could bring to light. Being
alike is kept by every access of the program, so no run tells two such
memories apart (`Alike.shows_eq`).
-/

namespace LinApple.Memory

/-- The pages of the image, less the window of the expansion ROM, where ROM
is stored as it is seen. -/
def RomStored (s : MemoryInstance) : Prop :=
  ∀ l : PagePtr, l.bank ≠ .memmain → l.bank ≠ .memaux →
    l.isWindowRom = false → s.stores l = s.view l

/-- **Two memories a program cannot tell apart.** -/
structure Alike (s t : MemoryInstance) : Prop where
  /-- The first memory keeps the invariant. -/
  sound_left : Sound s
  /-- The second memory keeps the invariant. -/
  sound_right : Sound t
  /-- The flags are the same. -/
  memMode_eq : s.memMode = t.memMode
  /-- The images are the same. -/
  mem_eq : s.mem = t.mem
  /-- Writes go to the same places. -/
  writeTarget_eq : ∀ p, s.writeTarget p = t.writeTarget p
  /-- Where a page shows different places, writes go to neither. -/
  unseen : ∀ p, s.memshadow p = t.memshadow p
    ∨ (s.writeTarget p ≠ some (s.memshadow p)
      ∧ s.writeTarget p ≠ some (t.memshadow p))
  /-- What can be banked in is the same. -/
  view_eq : ∀ l : PagePtr, l.isWindowRom = false → s.view l = t.view l
  /-- The ROM behind the expansion window is the same. -/
  window_eq : ∀ p, isExpansionPage p = true →
    s.stores (cxInternalPtr p) = t.stores (cxInternalPtr p)

/-! ## Writes -/

/-- **What a write does to the image**: it is seen where the page shows the
write's target, and nowhere else. -/
theorem mem_writeByte (ty : Apple2Type) {s : MemoryInstance}
    (h : HasTables s)
    (pc : UInt16) {a : UInt16} (v : UInt8) (ha : isPagingSwitch a = false) :
    (writeByte ty s pc a v).mem =
      if s.writeTarget (pageOf a) = some (s.memshadow (pageOf a))
      then setByte s.mem (pageOf a) (offsetOf a) v else s.mem := by
  unfold MemoryInstance.writeTarget
  cases hw : s.memwrite (pageOf a) with
  | null => rw [writeByte_null ty pc v hw ha]; rfl
  | live =>
    rw [writeByte_live ty pc v hw]
    exact (if_pos rfl).symm
  | store l =>
    rw [writeByte_store ty pc v hw, if_neg (fun he =>
      (h.memwrite_store hw).2 (Option.some.inj he).symm)]

/-- What a write leaves alone. -/
theorem writeTarget_writeByte (ty : Apple2Type) (s : MemoryInstance)
    (pc : UInt16) {a : UInt16} (v : UInt8) (ha : isPagingSwitch a = false) :
    (writeByte ty s pc a v).writeTarget = s.writeTarget
      ∧ (writeByte ty s pc a v).memshadow = s.memshadow := by
  cases hw : s.memwrite (pageOf a) with
  | null => rw [writeByte_null ty pc v hw ha]; exact ⟨rfl, rfl⟩
  | live => rw [writeByte_live ty pc v hw]; exact ⟨rfl, rfl⟩
  | store l => rw [writeByte_store ty pc v hw]; exact ⟨rfl, rfl⟩

/-- A write's target belongs to the page written to. -/
theorem HasTables.ownerPage_writeTarget {s : MemoryInstance}
    (h : HasTables s)
    {p : Page} {l : PagePtr} (hl : s.writeTarget p = some l) :
    ownerPage l = p := by
  unfold MemoryInstance.writeTarget at hl
  cases hw : s.memwrite p with
  | null => rw [hw] at hl; exact nomatch hl
  | live =>
    rw [hw] at hl
    rw [← Option.some.inj hl]
    exact h.owner_map p
  | store k =>
    rw [hw] at hl
    rw [← Option.some.inj hl]
    exact (h.memwrite_store hw).1

/-- No write to an I/O page goes to memory. -/
theorem HasTables.writeTarget_io {s : MemoryInstance} (h : HasTables s) {p : Page}
    (hp : isIoPage p = true) : s.writeTarget p = none := by
  rw [MemoryInstance.writeTarget, h.memwrite_io hp]

theorem isIoPage_of_isExpansionPage {p : Page}
    (h : isExpansionPage p = true) : isIoPage p = true := by
  simp only [isExpansionPage, Bool.and_eq_true, decide_eq_true_eq] at h
  exact isIoPage_iff.mpr ⟨by omega, h.2⟩

theorem ownerPage_ne_window {p : Page} (hp : isExpansionPage p = false)
    {l : PagePtr} (hl : ownerPage l = p) : l.isWindowRom = false := by
  rw [PagePtr.isWindowRom, hl, hp, Bool.and_false]

/-- A write's target is not behind the expansion window. -/
theorem HasTables.isWindowRom_writeTarget {s : MemoryInstance}
    (h : HasTables s)
    {p : Page} {l : PagePtr} (hl : s.writeTarget p = some l) :
    l.isWindowRom = false := by
  refine ownerPage_ne_window (Bool.eq_false_iff.mpr fun hp => ?_)
    (h.ownerPage_writeTarget hl)
  rw [h.writeTarget_io (isIoPage_of_isExpansionPage hp)] at hl
  exact nomatch hl

/-- Writes go to RAM. -/
theorem HasTables.bank_writeTarget {s : MemoryInstance} (h : HasTables s)
    {a : UInt16} {l : PagePtr} (hl : s.writeTarget (pageOf a) = some l) :
    l.bank = .memmain ∨ l.bank = .memaux := by
  obtain ⟨m, hm, -⟩ := id h
  have hio : isIoRegion a = false := by
    refine Bool.eq_false_iff.mpr fun hio => ?_
    rw [h.writeTarget_io hio] at hl
    exact nomatch hl
  rw [(writeTarget_eq_writeMap hm hio).1] at hl
  obtain ⟨k, hk, rfl⟩ := Option.map_eq_some_iff.mp hl
  cases k with
  | main b => exact .inl rfl
  | aux b => exact .inr rfl
  | rom b => exact absurd hk (writeMap_ne_rom m a b)

/-- A write stores nothing anywhere but at its target. -/
theorem stores_writeByte_of_ne (ty : Apple2Type) (s : MemoryInstance)
    (pc : UInt16) {a : UInt16} (v : UInt8) (ha : isPagingSwitch a = false)
    {l : PagePtr} (hl : s.writeTarget (pageOf a) ≠ some l) :
    (writeByte ty s pc a v).stores l = s.stores l := by
  cases hw : s.memwrite (pageOf a) with
  | null => rw [writeByte_null ty pc v hw ha]
  | live => rw [writeByte_live ty pc v hw]
  | store k =>
    rw [writeByte_store ty pc v hw]
    refine setByte_page_of_ne _ _ _ fun he => hl ?_
    rw [MemoryInstance.writeTarget, hw, he]

/-- A write changes the view of nothing but its target. -/
theorem view_writeByte_of_ne (ty : Apple2Type) {s : MemoryInstance}
    (h : Sound s) (pc : UInt16) {a : UInt16} (v : UInt8)
    (ha : isPagingSwitch a = false) {l : PagePtr}
    (hl : s.writeTarget (pageOf a) ≠ some l) :
    (writeByte ty s pc a v).view l = s.view l := by
  rw [view_writeByte ty pc v h ha]
  cases htarget : s.writeTarget (pageOf a) with
  | none => rfl
  | some k =>
    refine setByte_page_of_ne _ _ _ fun he => hl ?_
    rw [htarget, he]

/-! ## Soft switches -/

/-- The window of the expansion ROM after the ROM logic has run. -/
theorem moveExpansionRom_mem_window (last : MemMode) (s : MemoryInstance)
    {p : Page} (hp : isExpansionPage p = true) :
    (moveExpansionRom last s).mem p =
      if last.slotcxrom ≠ s.memMode.slotcxrom then
        if s.memMode.slotcxrom then fun _ => 0
        else s.stores (cxInternalPtr p)
      else s.mem p := by
  unfold moveExpansionRom
  split_ifs with hchange hset
  · exact if_pos hp
  · exact if_pos hp
  · rfl

section MemSetPaging

variable (ty : Apple2Type) (pc addr : UInt16) {s : MemoryInstance}

/-- The ROM behind the expansion window stays what it was. -/
theorem stores_memSetPaging_window (h : HasTables s) {p : Page}
    (hp : isExpansionPage p = true) :
    (memSetPaging ty s pc addr).stores (cxInternalPtr p)
      = s.stores (cxInternalPtr p) := by
  have hmove : (beginUpdate ty s (addr.toNat % 0x100)).stores
      (cxInternalPtr p) = s.stores (cxInternalPtr p) :=
    moveExpansionRom_stores _ _ fun hbank => Bank.noConfusion hbank
  rcases memSetPaging_cases ty s pc addr with
    ⟨-, hs⟩ | ⟨-, -, -, hs⟩ | ⟨-, hs⟩ <;> rw [hs]
  · rfl
  · rfl
  · rw [← toWriteBack_store, toWriteBack_update ty _ h,
      WriteBack.turnAll_store_of_stays, toWriteBack_store, hmove]
    intro q hq
    rw [toWriteBack_map, beginUpdate_memshadow] at hq
    have hqp : q = p := by
      have hown := h.owner_map q
      rw [hq, ownerPage_cxInternalPtr] at hown
      exact hown.symm
    rw [hqp, shadowTable_expansion _ hp]

/-- The window of the expansion ROM after a switch that is not held off. -/
theorem mem_memSetPaging_window (h : HasTables s)
    (hoff : s.holdsOff pc (addr.toNat % 0x100) = false) {p : Page}
    (hp : isExpansionPage p = true) :
    (memSetPaging ty s pc addr).mem p =
      if s.memMode.slotcxrom
          ≠ (switchMode ty s.memMode (addr.toNat % 0x100)).slotcxrom then
        if (switchMode ty s.memMode (addr.toNat % 0x100)).slotcxrom
        then fun _ => 0
        else s.stores (cxInternalPtr p)
      else s.mem p := by
  rcases memSetPaging_cases ty s pc addr with
    ⟨hoff', -⟩ | ⟨-, hsame, -, hs⟩ | ⟨-, hs⟩
  · exact absurd (hoff.symm.trans hoff') Bool.false_ne_true
  · rw [hs, hsame, if_neg (fun h => h rfl)]
    rfl
  · have hstay : shadowTable (switchMode ty s.memMode (addr.toNat % 0x100)) p
        = (beginUpdate ty s (addr.toNat % 0x100)).toWriteBack.map p := by
      rw [toWriteBack_map, beginUpdate_memshadow, shadowTable_expansion _ hp,
        h.memshadow_expansion hp]
    rw [hs, ← toWriteBack_live, toWriteBack_update ty _ h,
      WriteBack.turnAll_live_of_stays _ _ _ hstay, toWriteBack_live]
    exact moveExpansionRom_mem_window _ _ hp

end MemSetPaging

/-- Where the tables of the flags stand, they are decided by the flags. -/
theorem writeTarget_of_tablesOf {m : MemMode} {s t : MemoryInstance}
    (hs : TablesOf m s) (ht : TablesOf m t) (p : Page) :
    s.writeTarget p = t.writeTarget p := by
  unfold MemoryInstance.writeTarget
  rw [hs.memwrite_eq, ht.memwrite_eq, hs.memshadow_eq, ht.memshadow_eq]

/-- **Memories with the tables of one mode are alike** when all there is to
see is the same. -/
theorem Alike.of_tablesOf {m : MemMode} {s t : MemoryInstance}
    (hs : Sound s) (ht : Sound t) (hmode : s.memMode = t.memMode)
    (hms : TablesOf m s) (hmt : TablesOf m t)
    (hview : ∀ l : PagePtr, l.isWindowRom = false → s.view l = t.view l)
    (hmem : ∀ p, isExpansionPage p = true → s.mem p = t.mem p)
    (hwindow : ∀ p, isExpansionPage p = true →
      s.stores (cxInternalPtr p) = t.stores (cxInternalPtr p)) :
    Alike s t where
  sound_left := hs
  sound_right := ht
  memMode_eq := hmode
  mem_eq := funext fun p => by
    cases hp : isExpansionPage p with
    | true => exact hmem p hp
    | false =>
      have hshadow : s.memshadow p = t.memshadow p := by
        rw [hms.memshadow_eq, hmt.memshadow_eq]
      rw [hs.mem_eq_view, ht.mem_eq_view, ← hshadow]
      exact hview _ (ownerPage_ne_window hp (hs.coherent.owner_map p))
  writeTarget_eq := writeTarget_of_tablesOf hms hmt
  unseen := fun p => .inl (by rw [hms.memshadow_eq, hmt.memshadow_eq])
  view_eq := hview
  window_eq := hwindow

section Step

variable (ty : Apple2Type) (pc : UInt16) {s t : MemoryInstance}

/-- Whether an access is held off depends on the image alone. -/
theorem holdsOff_congr (hmem : s.mem = t.mem) (addr : Nat) :
    s.holdsOff pc addr = t.holdsOff pc addr := by
  unfold MemoryInstance.holdsOff MemoryInstance.staFollows
    MemoryInstance.readU32Le MemoryInstance.memByte
  rw [hmem]

/-- A soft switch keeps two memories alike. -/
theorem Alike.switch (h : Alike s t) (addr : UInt16) :
    Alike (memSetPaging ty s pc addr) (memSetPaging ty t pc addr) := by
  have hoffs := holdsOff_congr pc h.mem_eq (addr.toNat % 0x100)
  cases hoff : s.holdsOff pc (addr.toNat % 0x100) with
  | true =>
    -- both are held off: nothing but the flags moves
    have hs : memSetPaging ty s pc addr
        = { throwSwitch ty s (addr.toNat % 0x100) with
            modeChanging := true } := if_pos hoff
    have ht : memSetPaging ty t pc addr
        = { throwSwitch ty t (addr.toNat % 0x100) with
            modeChanging := true } := if_pos (hoffs.symm.trans hoff)
    refine ⟨h.sound_left.memSetPaging ty pc addr,
      h.sound_right.memSetPaging ty pc addr, ?_, ?_, fun p => ?_,
      fun p => ?_, fun l hl => ?_, fun p hp => ?_⟩
    · rw [memSetPaging_memMode, memSetPaging_memMode, h.memMode_eq]
    · rw [hs, ht]
      exact h.mem_eq
    · rw [hs, ht]
      exact h.writeTarget_eq p
    · rw [hs, ht]
      exact h.unseen p
    · rw [hs, ht]
      exact h.view_eq l hl
    · rw [hs, ht]
      exact h.window_eq p hp
  | false =>
    -- both end up with the tables of the new mode
    have hoff' := hoffs.symm.trans hoff
    have hmode : (memSetPaging ty s pc addr).memMode
        = (memSetPaging ty t pc addr).memMode := by
      rw [memSetPaging_memMode, memSetPaging_memMode, h.memMode_eq]
    have hms := tablesOf_memSetPaging ty pc addr h.sound_left.tables hoff
    have hmt := tablesOf_memSetPaging ty pc addr h.sound_right.tables hoff'
    rw [← hmode] at hmt
    refine Alike.of_tablesOf (h.sound_left.memSetPaging ty pc addr)
      (h.sound_right.memSetPaging ty pc addr) hmode hms hmt
      (fun l hl => ?_) (fun p hp => ?_) (fun p hp => ?_)
    · rw [view_memSetPaging ty pc addr h.sound_left hl,
        view_memSetPaging ty pc addr h.sound_right hl, h.view_eq l hl]
    · rw [mem_memSetPaging_window ty pc addr h.sound_left.tables hoff hp,
        mem_memSetPaging_window ty pc addr h.sound_right.tables hoff' hp,
        h.memMode_eq, h.window_eq p hp, h.mem_eq]
    · rw [stores_memSetPaging_window ty pc addr h.sound_left.tables hp,
        stores_memSetPaging_window ty pc addr h.sound_right.tables hp,
        h.window_eq p hp]

/-- A mark keeps two memories alike. -/
theorem Alike.mark (h : Alike s t) (p : Page) :
    Alike { s with memdirty := Function.update s.memdirty p 0xFF }
      { t with memdirty := Function.update t.memdirty p 0xFF } :=
  ⟨h.sound_left.mark p, h.sound_right.mark p, h.memMode_eq, h.mem_eq,
    h.writeTarget_eq, h.unseen, h.view_eq, h.window_eq⟩

/-- A write keeps two memories alike. -/
theorem Alike.write (h : Alike s t) (a : UInt16) (v : UInt8) :
    Alike (writeByte ty s pc a v) (writeByte ty t pc a v) := by
  cases ha : isPagingSwitch a with
  | true =>
    rw [writeByte_switch ty pc v h.sound_left.tables ha,
      writeByte_switch ty pc v h.sound_right.tables ha]
    exact (h.mark (pageOf a)).switch ty pc a
  | false =>
    obtain ⟨hts, hms⟩ := writeTarget_writeByte ty s pc v ha
    obtain ⟨htt, hmt⟩ := writeTarget_writeByte ty t pc v ha
    refine ⟨h.sound_left.writeByte ty pc v ha,
      h.sound_right.writeByte ty pc v ha, ?_, ?_, fun p => ?_, fun p => ?_,
      fun l hl => ?_, fun p hp => ?_⟩
    · rw [writeByte_memMode ty s pc v ha, writeByte_memMode ty t pc v ha,
        h.memMode_eq]
    -- a page that differs is one neither side writes through, so both copies stay as they are
    · rw [mem_writeByte ty h.sound_left.tables pc v ha,
        mem_writeByte ty h.sound_right.tables pc v ha, h.mem_eq,
        ← h.writeTarget_eq]
      rcases h.unseen (pageOf a) with hsame | ⟨hl, hr⟩
      · rw [hsame]
      · rw [if_neg hl, if_neg hr]
    · rw [hts, htt, h.writeTarget_eq]
    · rw [hts, hms, hmt]
      exact h.unseen p
    · rw [view_writeByte ty pc v h.sound_left ha,
        view_writeByte ty pc v h.sound_right ha, ← h.writeTarget_eq]
      cases htarget : s.writeTarget (pageOf a) with
      | none => exact h.view_eq l hl
      | some k =>
        show setByte s.view k (offsetOf a) v l
          = setByte t.view k (offsetOf a) v l
        by_cases hlk : l = k
        · rw [hlk, setByte_page_self, setByte_page_self,
            h.view_eq k (h.sound_left.tables.isWindowRom_writeTarget htarget)]
        · rw [setByte_page_of_ne _ _ _ hlk, setByte_page_of_ne _ _ _ hlk,
            h.view_eq l hl]
    · have hram : ∀ {u : MemoryInstance}, Sound u →
          u.writeTarget (pageOf a) ≠ some (cxInternalPtr p) :=
        fun hu he => (hu.tables.bank_writeTarget he).elim Bank.noConfusion
          Bank.noConfusion
      rw [stores_writeByte_of_ne ty s pc v ha (hram h.sound_left),
        stores_writeByte_of_ne ty t pc v ha (hram h.sound_right),
        h.window_eq p hp]

end Step

/-- **No run tells two alike memories apart.** -/
theorem Alike.shows_eq (ty : Apple2Type) {s t : MemoryInstance}
    (h : Alike s t) (as : List Access) :
    (memoryMachine ty).shows s as = (memoryMachine ty).shows t as := by
  refine (memoryMachine ty).shows_eq_of_bisimulation (memoryMachine ty)
    (R := Alike) (fun s t a h => ?_) h as
  cases a with
  | read a =>
    refine ⟨congrArg some ?_, h⟩
    rw [MemoryInstance.memByte, h.mem_eq]
    rfl
  | write pc a v => exact ⟨rfl, h.write ty pc a v⟩
  | switch pc addr => exact ⟨rfl, h.switch ty pc addr⟩

/-! ## What every run keeps -/

/-- Every access keeps the invariant. -/
theorem Sound.next (ty : Apple2Type) {s : MemoryInstance} (h : Sound s)
    (access : Access) : Sound ((memoryMachine ty).next s access) := by
  cases access with
  | read a => exact h
  | write pc a v =>
    cases ha : isPagingSwitch a with
    | true =>
      show Sound (Memory.writeByte ty s pc a v)
      rw [writeByte_switch ty pc v h.tables ha]
      exact (h.mark (pageOf a)).memSetPaging ty pc a
    | false => exact h.writeByte ty pc v ha
  | switch pc addr => exact h.memSetPaging ty pc addr

/-- Every access leaves ROM stored as it is seen. -/
theorem RomStored.next (ty : Apple2Type) {s : MemoryInstance} (h : Sound s)
    (hrom : RomStored s) (access : Access) :
    RomStored ((memoryMachine ty).next s access) := by
  have hswitch : ∀ {s : MemoryInstance}, Sound s → RomStored s →
      ∀ pc addr, RomStored (memSetPaging ty s pc addr) := by
    intro s h hrom pc addr l hmain haux hl
    have hstore := hrom l hmain haux hl
    rw [stores_memSetPaging ty pc addr h hl hstore,
      view_memSetPaging ty pc addr h hl, hstore]
  cases access with
  | read a => exact hrom
  | write pc a v =>
    cases ha : isPagingSwitch a with
    | true =>
      show RomStored (writeByte ty s pc a v)
      rw [writeByte_switch ty pc v h.tables ha]
      exact hswitch (h.mark (pageOf a)) hrom pc a
    | false =>
      intro l hmain haux hl
      have hne : s.writeTarget (pageOf a) ≠ some l := fun he =>
        (h.tables.bank_writeTarget he).elim hmain haux
      show (writeByte ty s pc a v).stores l = (writeByte ty s pc a v).view l
      rw [stores_writeByte_of_ne ty s pc v ha hne,
        view_writeByte_of_ne ty h pc v ha hne, hrom l hmain haux hl]
  | switch pc addr => exact hswitch h hrom pc addr

/-- **What every run from a reset keeps.** -/
theorem sound_run_memReset (ty : Apple2Type) (pattern : MemoryInitPattern)
    (s : MemoryInstance) (as : List Access) :
    Sound ((memoryMachine ty).run (memReset pattern s) as)
      ∧ RomStored ((memoryMachine ty).run (memReset pattern s) as) := by
  obtain ⟨hsound, hview⟩ := sound_memReset pattern s
  refine (memoryMachine ty).invariant_run_of_forall
    (I := fun s => Sound s ∧ RomStored s)
    (fun s a h => ⟨h.1.next ty a, h.2.next ty h.1 a⟩)
    ⟨hsound, fun l _ _ _ => ?_⟩ as
  rw [hview, memReset_eq]

end LinApple.Memory
