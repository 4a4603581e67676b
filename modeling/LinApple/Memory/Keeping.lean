import LinApple.Memory.Alike

/-!
# What a page keeps

The image need not be coherent for a page of it to be safe: a program that
is laid down in the image behind the back of the CPU is marked nowhere, and
still some of it survives. This is about one page at a time, and asks only
that the tables stand (`HasTables`). An access that does not write to a page
turns it, or leaves it alone (`agreesAt_memSetPaging`,
`agreesAt_writeByte`), so what `WriteBack.Kept` says about turning pages
holds of every run that does not write to the page (`kept_run`).
-/

namespace LinApple.Memory

section OnePage

variable (ty : Apple2Type) (pc : UInt16) {s : MemoryInstance} {p : Page}

/-- The expansion ROM logic leaves a page outside its window alone. -/
theorem agreesAt_beginUpdate (s : MemoryInstance) (addr : Nat)
    (hp : isExpansionPage p = false) :
    WriteBack.AgreesAt ownerPage p (beginUpdate ty s addr).toWriteBack
      s.toWriteBack := by
  refine ⟨?_, ?_, ?_, fun l hl => ?_⟩
  · rw [toWriteBack_map, beginUpdate_memshadow, toWriteBack_map]
  · exact moveExpansionRom_mem _ _ hp
  · show decide ((beginUpdate ty s addr).memdirty p &&& 1 ≠ 0) = _
    rw [beginUpdate, moveExpansionRom_memdirty]
    rfl
  · exact moveExpansionRom_stores _ _ fun _ => by rw [hl, hp]

/-- **A soft switch turns a page, or is held off and leaves it alone.** -/
theorem agreesAt_memSetPaging (h : HasTables s) (addr : UInt16)
    (hp : isExpansionPage p = false) :
    (s.holdsOff pc (addr.toNat % 0x100) = true
      ∧ WriteBack.AgreesAt ownerPage p
          (memSetPaging ty s pc addr).toWriteBack s.toWriteBack)
    ∨ (s.holdsOff pc (addr.toNat % 0x100) = false
      ∧ WriteBack.AgreesAt ownerPage p
          (memSetPaging ty s pc addr).toWriteBack
          (s.toWriteBack.turn isPinned p
            (shadowTable (switchMode ty s.memMode (addr.toNat % 0x100))
              p))) := by
  rcases memSetPaging_cases ty s pc addr with
    ⟨hoff, hs⟩ | ⟨hoff, hsame, hnot, hs⟩ | ⟨hoff, hs⟩
  · refine .inl ⟨hoff, ?_⟩
    rw [hs]
    exact WriteBack.AgreesAt.refl p _
  · -- the page shows what it should already
    obtain ⟨m, hm, -, hcur⟩ := h
    have hmode : m = s.memMode := hcur.resolve_right (by
      rw [hnot]
      exact Bool.false_ne_true)
    have hmap : s.toWriteBack.map p = shadowTable s.memMode p := by
      rw [toWriteBack_map, hm.memshadow_eq, hmode]
    refine .inr ⟨hoff, ?_⟩
    rw [hs, hsame, WriteBack.turn, if_pos hmap]
    exact WriteBack.AgreesAt.refl p _
  · refine .inr ⟨hoff, ?_⟩
    rw [hs, toWriteBack_update ty _ h]
    refine (WriteBack.agreesAt_turnAll (ownerPage_shadowTable _)
      (List.nodup_finRange 256) (List.mem_finRange p) fun q => ?_).trans
      ((agreesAt_beginUpdate ty s _ hp).turn (ownerPage_shadowTable _ p))
    rw [toWriteBack_map, beginUpdate_memshadow]
    exact h.owner_map q

/-- A write to another page leaves a page alone. -/
theorem agreesAt_writeByte (h : HasTables s) {a : UInt16} (v : UInt8)
    (ha : isPagingSwitch a = false) (hp : p ≠ pageOf a) :
    WriteBack.AgreesAt ownerPage p (writeByte ty s pc a v).toWriteBack
      s.toWriteBack := by
  have hdirty : (s.toWriteBack.mark (pageOf a)).dirty p
      = s.toWriteBack.dirty p := Function.update_of_ne hp _ _
  cases hw : s.memwrite (pageOf a) with
  | null =>
    rw [writeByte_null ty pc v hw ha, toWriteBack_mark]
    exact ⟨rfl, rfl, hdirty, fun _ _ => rfl⟩
  | live =>
    rw [writeByte_live ty pc v hw, toWriteBack_write_live]
    exact ⟨rfl, Function.update_of_ne hp _ _, hdirty, fun _ _ => rfl⟩
  | store k =>
    rw [writeByte_store ty pc v hw, toWriteBack_write_store]
    refine ⟨rfl, rfl, hdirty, fun l hl => Function.update_of_ne ?_ _ _⟩
    rintro rfl
    exact hp (hl.symm.trans (h.memwrite_store hw).1)

/-- A mark on another page leaves a page alone. -/
theorem agreesAt_mark (s : MemoryInstance) {q : Page} (hp : p ≠ q) :
    WriteBack.AgreesAt ownerPage p
      (MemoryInstance.toWriteBack
        { s with memdirty := Function.update s.memdirty q 0xFF })
      s.toWriteBack := by
  rw [toWriteBack_mark]
  exact ⟨rfl, rfl, Function.update_of_ne hp _ _, fun _ _ => rfl⟩

end OnePage

/-! ## Runs -/

/-- An access that does not write to a page. -/
def Access.SparesPage (p : Page) : Access → Prop
  | .write _ a _ => pageOf a ≠ p
  | _ => True

variable {ty : Apple2Type} {s : MemoryInstance} {l : PagePtr}
  {Q : PageData → Prop}

/-- A property of a stored page that turning pages keeps. -/
def MemoryInstance.Keeps (s : MemoryInstance) (l : PagePtr)
    (Q : PageData → Prop) : Prop :=
  s.toWriteBack.Kept ownerPage isPinned Q l

theorem MemoryInstance.Keeps.memSetPaging (hk : s.Keeps l Q)
    (h : HasTables s)
    (hl : isExpansionPage (ownerPage l) = false) (pc addr : UInt16) :
    (memSetPaging ty s pc addr).Keeps l Q := by
  rcases agreesAt_memSetPaging ty pc h addr hl with ⟨-, ha⟩ | ⟨-, ha⟩
  · exact hk.congr ha
  · exact hk.turn.congr ha

/-- Every access leaves the tables of a mode standing. -/
theorem HasTables.next (ty : Apple2Type) (h : HasTables s)
    (access : Access) : HasTables ((memoryMachine ty).next s access) := by
  cases access with
  | read a => exact h
  | write pc a v =>
    cases ha : isPagingSwitch a with
    | true =>
      show HasTables (Memory.writeByte ty s pc a v)
      rw [writeByte_switch ty pc v h ha]
      exact (h.mark (pageOf a)).memSetPaging ty pc a
    | false => exact h.writeByte ty pc v ha
  | switch pc addr => exact h.memSetPaging ty pc addr

/-- **One access keeps it**, as long as it does not write to the page. -/
theorem MemoryInstance.Keeps.next (hk : s.Keeps l Q) (h : HasTables s)
    (hl : isExpansionPage (ownerPage l) = false) {access : Access}
    (ha : access.SparesPage (ownerPage l)) :
    ((memoryMachine ty).next s access).Keeps l Q := by
  cases access with
  | read a => exact hk
  | write pc a v =>
    cases hswitch : isPagingSwitch a with
    | true =>
      show (writeByte ty s pc a v).Keeps l Q
      rw [writeByte_switch ty pc v h hswitch]
      exact MemoryInstance.Keeps.memSetPaging
        (hk.congr (agreesAt_mark s (Ne.symm ha))) (h.mark (pageOf a)) hl pc a
    | false =>
      exact hk.congr (agreesAt_writeByte ty pc h v hswitch (Ne.symm ha))
  | switch pc addr => exact hk.memSetPaging h hl pc addr

/-- **Every run keeps it**, as long as it does not write to the page. -/
theorem kept_run (h : HasTables s) (hk : s.Keeps l Q)
    (hl : isExpansionPage (ownerPage l) = false) {as : List Access}
    (has : ∀ a ∈ as, a.SparesPage (ownerPage l)) :
    HasTables ((memoryMachine ty).run s as)
      ∧ ((memoryMachine ty).run s as).Keeps l Q := by
  induction as generalizing s with
  | nil => exact ⟨h, hk⟩
  | cons a as ih =>
    rw [List.forall_mem_cons] at has
    exact ih (h.next ty a) (hk.next h hl has.1) has.2

/-- **A dirty page comes back**: where a run does not write to it, it shows
again what it showed whenever it shows the same stored page. -/
theorem mem_of_dirty (ty : Apple2Type) {s : MemoryInstance} (h : HasTables s)
    {p : Page} (hdirty : s.memdirty p &&& 1 ≠ 0)
    (hp : isExpansionPage p = false) {as : List Access}
    (has : ∀ a ∈ as, a.SparesPage p)
    (hshown : ((memoryMachine ty).run s as).memshadow p = s.memshadow p) :
    ((memoryMachine ty).run s as).mem p = s.mem p := by
  have howner : ownerPage (s.memshadow p) = p := h.owner_map p
  have hkeeps : s.Keeps (s.memshadow p) (· = s.mem p) := by
    constructor
    · intro _
      rw [howner]
      exact ⟨rfl, .inl (decide_eq_true hdirty)⟩
    · intro hno
      rw [howner] at hno
      exact absurd rfl hno
  obtain ⟨-, hrun⟩ := @kept_run ty s _ _ h hkeeps (by rwa [howner]) as
    (by rwa [howner])
  have hback := (hrun.shown (by rw [howner]; exact hshown)).1
  rwa [howner] at hback

end LinApple.Memory
