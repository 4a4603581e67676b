import LinApple.Lib.WriteBack
import LinApple.Memory.Paging
import Mathlib.Algebra.Group.Fin.Basic

/-!
# The image as a write-back copy

The live image stands in front of the stores as the pages of a
`WriteBack` memory do, and the loop of `mem_update_paging` turns its pages
(`toWriteBack_memUpdatePaging`). Every stored page has one page of the
image it can be copied to: its own number in RAM, except that language
card bank 1, which is stored at `$C000`, is shown at `$D000`
(`ownerPage`).

The pages `$C800-$CFFF` stand apart. Their shadow never moves, and what
they show is set by the expansion ROM logic and not by the paging code, so
they are counted among the pages whose live copy is the truth
(`isPinned`), beside the zero page and the stack.
-/

namespace LinApple.Memory

/-- The page of the image that can show a stored page. -/
def ownerPage (l : PagePtr) : Page :=
  match l.bank with
  | .memmain | .memaux => if isIoPage l.page then l.page + 0x10 else l.page
  | .memrom => l.page + 0xD0
  | .cxRomInternal | .cxRomPeripheral => l.page + 0xC0

/-- The pages whose live copy is never behind. -/
def isPinned (p : Page) : Bool := p.val ≤ 1 || isExpansionPage p

/-- The memory as live pages in front of stored ones. -/
def MemoryInstance.toWriteBack (s : MemoryInstance) :
    WriteBack Page PagePtr PageData where
  live := s.mem
  store := s.stores
  map := s.memshadow
  dirty := fun p => s.memdirty p &&& 1 ≠ 0

/-- What a stored page holds once everything pending is counted in. -/
def MemoryInstance.view (s : MemoryInstance) : PagePtr → PageData :=
  s.toWriteBack.view ownerPage

section Fields

variable (s : MemoryInstance)

theorem toWriteBack_live : s.toWriteBack.live = s.mem := rfl

theorem toWriteBack_store : s.toWriteBack.store = s.stores := rfl

theorem toWriteBack_map : s.toWriteBack.map = s.memshadow := rfl

end Fields

/-! ## The tables -/

/-- The table of shadows of a mode. -/
def shadowTable (m : MemMode) : Page → PagePtr :=
  updateShadow m (ramPtr false)

/-- The write table of a mode. -/
def writeTable (m : MemMode) : Page → WritePtr :=
  updateWrite m (fun p => if isIoPage p then .null else .live)

/-- The bank a page below the I/O pages belongs to where the rest of RAM is
under the switch `ram`: the zero page and the stack follow `ALTZP`, and
`80STORE` puts the display pages under `PAGE2`. -/
def selectsAux (m : MemMode) (ram : Bool) (p : Page) : Bool :=
  if p.val < 0x02 then m.altzp
  else if m.store80 && ((0x04 ≤ p.val && p.val < 0x08)
      || (m.hires && (0x20 ≤ p.val && p.val < 0x40))) then m.page2
  else ram

section Tables

variable (m : MemMode) (t : Page → PagePtr) (w : Page → WritePtr) {p : Page}

theorem updateShadow_low (hp : p.val < 0xC0) :
    updateShadow m t p = ramPtr (selectsAux m m.auxread p) p := by
  cases hs : m.store80 <;> cases hh : m.hires <;>
    simp only [updateShadow, selectsAux, hs, hh, if_true, Bool.false_eq_true,
      if_false, Bool.true_and, Bool.false_and, Bool.or_false]
  all_goals simp only [forPages, Bool.or_eq_true, Bool.and_eq_true,
    decide_eq_true_eq]
  all_goals grind

theorem updateShadow_slot (hp : 0xC0 ≤ p.val) (hp' : p.val < 0xC8) :
    updateShadow m t p =
      if m.slotcxrom && (m.slotc3rom || p.val ≠ 0xC3) then cxPeripheralPtr p
      else cxInternalPtr p := by
  cases hs : m.store80 <;> cases hh : m.hires <;>
    simp only [updateShadow, hs, hh, if_true, Bool.false_eq_true, if_false]
  all_goals simp only [forPages, Bool.or_eq_true, Bool.and_eq_true,
    decide_eq_true_eq]
  all_goals grind

theorem updateShadow_expansion (hp : isExpansionPage p = true) :
    updateShadow m t p = cxInternalPtr p := by
  simp only [isExpansionPage, Bool.and_eq_true, decide_eq_true_eq] at hp
  cases hs : m.store80 <;> cases hh : m.hires <;>
    simp only [updateShadow, hs, hh, if_true, Bool.false_eq_true, if_false]
  all_goals simp only [forPages]
  all_goals grind

theorem updateShadow_high (hp : 0xD0 ≤ p.val) : updateShadow m t p =
    if m.highram then lcRam m p else romPtr p := by
  have hlt := p.isLt
  cases hs : m.store80 <;> cases hh : m.hires <;>
    simp only [updateShadow, hs, hh, if_true, Bool.false_eq_true, if_false]
  all_goals simp only [forPages]
  all_goals grind

theorem updateWrite_stack (hp : p.val < 0x02) : updateWrite m w p = w p := by
  cases hs : m.store80 <;> cases hh : m.hires <;>
    simp only [updateWrite, hs, hh, if_true, Bool.false_eq_true, if_false]
  all_goals simp only [forPages]
  all_goals grind

theorem updateWrite_low (hp : 0x02 ≤ p.val) (hp' : p.val < 0xC0) :
    updateWrite m w p =
      if selectsAux m m.auxread p = selectsAux m m.auxwrite p then .live
      else .store (ramPtr (selectsAux m m.auxwrite p) p) := by
  cases hs : m.store80 <;> cases hh : m.hires <;>
    simp only [updateWrite, selectsAux, hs, hh, if_true,
      Bool.false_eq_true, if_false, Bool.true_and, Bool.false_and,
      Bool.or_false]
  all_goals simp only [forPages, Bool.or_eq_true, Bool.and_eq_true,
    decide_eq_true_eq]
  all_goals grind

theorem updateWrite_io (hp : isIoPage p = true) :
    updateWrite m w p = w p := by
  simp only [isIoPage, Bool.and_eq_true, decide_eq_true_eq] at hp
  cases hs : m.store80 <;> cases hh : m.hires <;>
    simp only [updateWrite, hs, hh, if_true, Bool.false_eq_true, if_false]
  all_goals simp only [forPages]
  all_goals grind

theorem updateWrite_high (hp : 0xD0 ≤ p.val) : updateWrite m w p =
    if m.hramWrite then
      if m.highram then .live else .store (lcRam m p)
    else .null := by
  have hlt := p.isLt
  cases hs : m.store80 <;> cases hh : m.hires <;>
    simp only [updateWrite, hs, hh, if_true, Bool.false_eq_true, if_false]
  all_goals simp only [forPages]
  all_goals grind

end Tables

/-- Every shadow is assigned, whatever the table held before. -/
theorem updateShadow_eq (m : MemMode) (t t' : Page → PagePtr) :
    updateShadow m t = updateShadow m t' := by
  funext p
  by_cases hlow : p.val < 0xC0
  · rw [updateShadow_low m t hlow, updateShadow_low m t' hlow]
  by_cases hslot : p.val < 0xC8
  · rw [updateShadow_slot m t (by omega) hslot,
      updateShadow_slot m t' (by omega) hslot]
  by_cases hexp : p.val < 0xD0
  · have h : isExpansionPage p = true := by
      simp only [isExpansionPage, Bool.and_eq_true, decide_eq_true_eq]
      omega
    rw [updateShadow_expansion m t h, updateShadow_expansion m t' h]
  · rw [updateShadow_high m t (by omega), updateShadow_high m t' (by omega)]

/-! ## Which page shows a stored page -/

theorem ownerPage_ramPtr (b : Bool) {p : Page} (hp : isIoPage p = false) :
    ownerPage (ramPtr b p) = p := by
  cases b <;> simp [ownerPage, ramPtr, hp]

theorem ownerPage_romPtr (p : Page) : ownerPage (romPtr p) = p := by
  simp [ownerPage, romPtr]

theorem ownerPage_cxInternalPtr (p : Page) :
    ownerPage (cxInternalPtr p) = p := by
  simp [ownerPage, cxInternalPtr]

theorem ownerPage_cxPeripheralPtr (p : Page) :
    ownerPage (cxPeripheralPtr p) = p := by
  simp [ownerPage, cxPeripheralPtr]

/-- Language card RAM is shown where it is banked in, also in bank 1. -/
theorem ownerPage_lcRam (m : MemMode) {p : Page} (hp : 0xD0 ≤ p.val) :
    ownerPage (lcRam m p) = p := by
  have hio : isIoPage p = false := by
    simp only [isIoPage, Bool.and_eq_false_iff, decide_eq_false_iff_not]
    omega
  unfold lcRam
  split
  · next h =>
    have hlt : p.val < 0xE0 := by
      simp only [Bool.and_eq_true, decide_eq_true_eq] at h
      exact h.1
    have hbank : isIoPage (p - 0x10) = true := by
      have hsub : (p - 0x10).val = p.val - 0x10 :=
        Fin.sub_val_of_le (by rw [Fin.le_def]; omega)
      simp only [isIoPage, hsub, Bool.and_eq_true, decide_eq_true_eq]
      omega
    cases m.altzp <;> simp [ownerPage, ramPtr, hbank]
  · exact ownerPage_ramPtr _ hio

/-- **Every page shows a stored page of its own**, in every mode. -/
theorem ownerPage_updateShadow (m : MemMode) (t : Page → PagePtr) (p : Page) :
    ownerPage (updateShadow m t p) = p := by
  by_cases hlow : p.val < 0xC0
  · rw [updateShadow_low m t hlow]
    refine ownerPage_ramPtr _ ?_
    simp only [isIoPage, Bool.and_eq_false_iff, decide_eq_false_iff_not]
    omega
  by_cases hslot : p.val < 0xC8
  · rw [updateShadow_slot m t (by omega) hslot]
    split
    · exact ownerPage_cxPeripheralPtr p
    · exact ownerPage_cxInternalPtr p
  by_cases hexp : p.val < 0xD0
  · have h : isExpansionPage p = true := by
      simp only [isExpansionPage, Bool.and_eq_true, decide_eq_true_eq]
      omega
    rw [updateShadow_expansion m t h]
    exact ownerPage_cxInternalPtr p
  · rw [updateShadow_high m t (by omega)]
    split
    · exact ownerPage_lcRam m (by omega)
    · exact ownerPage_romPtr p

/-! ## The update turns the pages -/

theorem and_not_one_and_one (x : UInt8) : x &&& ~~~1 &&& 1 = 0 := by
  rw [UInt8.and_assoc]
  exact UInt8.and_zero

/-- The memory with another table of what its pages show. -/
def MemoryInstance.showing (s : MemoryInstance) (t : Page → PagePtr) :
    WriteBack Page PagePtr PageData :=
  { s.toWriteBack with map := t }

/-- **One turn of the paging loop turns one page**, as long as an expansion
page keeps its shadow. -/
theorem showing_updatePage {old t : Page → PagePtr} (s : MemoryInstance)
    {p : Page} (ht : t p = old p)
    (hexp : isExpansionPage p = true → old p = s.memshadow p) :
    (updatePage false old s p).showing
        (Function.update t p (s.memshadow p))
      = (s.showing t).turn isPinned p (s.memshadow p) := by
  unfold updatePage WriteBack.turn
  -- a page that shows what it should is left alone; any other is flushed if dirty and loaded anew
  by_cases hsame : old p = s.memshadow p
  · have hmap : (s.showing t).map p = s.memshadow p := ht.trans hsame
    rw [if_pos hmap, if_neg (by simp [hsame])]
    rw [show Function.update t p (s.memshadow p) = t from by
      rw [← hmap]
      exact Function.update_eq_self _ _]
  · have hmap : (s.showing t).map p ≠ s.memshadow p := fun h =>
      hsame (ht.symm.trans h)
    -- an expansion page always shows its shadow, so only the two lowest pages are pinned here
    have hpin : isPinned p = decide (p.val ≤ 1) := by
      have hno : isExpansionPage p = false :=
        Bool.eq_false_iff.mpr (fun h => hsame (hexp h))
      rw [isPinned, hno, Bool.or_false]
    rw [if_neg hmap, if_pos (by simp [hsame])]
    dsimp only [MemoryInstance.showing, MemoryInstance.toWriteBack]
    rw [hpin, ht]
    by_cases hflush : s.memdirty p &&& 1 ≠ 0 ∨ p.val ≤ 1
    · have hf : (decide (s.memdirty p &&& 1 ≠ 0) || decide (p.val ≤ 1))
          = true := by simpa using hflush
      have hd : (fun q => decide (Function.update s.memdirty p
            (s.memdirty p &&& ~~~1) q &&& 1 ≠ 0))
          = Function.update (fun q => decide (s.memdirty q &&& 1 ≠ 0)) p
            false := by
        funext q
        by_cases hq : q = p
        · subst hq
          rw [Function.update_self, Function.update_self,
            and_not_one_and_one]
          rfl
        · rw [Function.update_of_ne hq, Function.update_of_ne hq]
      simp only [Bool.not_false, Bool.true_and, hf, if_true, hd]
    · have hf : (decide (s.memdirty p &&& 1 ≠ 0) || decide (p.val ≤ 1))
          = false := by simpa using hflush
      simp only [Bool.not_false, Bool.true_and, hf, Bool.false_eq_true,
        if_false]

/-- What one turn of the loop leaves alone, the loop leaves alone. -/
theorem foldl_updatePage_eq {α : Type} {init : Bool} {old : Page → PagePtr}
    (f : MemoryInstance → α) (h : ∀ s p, f (updatePage init old s p) = f s)
    (s : MemoryInstance) (ps : List Page) :
    f (ps.foldl (updatePage init old) s) = f s := by
  induction ps generalizing s with
  | nil => rfl
  | cons p ps ih => exact (ih _).trans (h s p)

section Fields

variable (init : Bool) (old : Page → PagePtr) (s : MemoryInstance) (p : Page)

@[simp] theorem updatePage_memshadow :
    (updatePage init old s p).memshadow = s.memshadow := by
  unfold updatePage; split_ifs <;> rfl

@[simp] theorem updatePage_memwrite :
    (updatePage init old s p).memwrite = s.memwrite := by
  unfold updatePage; split_ifs <;> rfl

@[simp] theorem updatePage_memMode :
    (updatePage init old s p).memMode = s.memMode := by
  unfold updatePage; split_ifs <;> rfl

@[simp] theorem updatePage_modeChanging :
    (updatePage init old s p).modeChanging = s.modeChanging := by
  unfold updatePage; split_ifs <;> rfl

@[simp] theorem memUpdatePaging_memMode :
    (memUpdatePaging init s).memMode = s.memMode :=
  foldl_updatePage_eq _ (fun _ _ => updatePage_memMode _ _ _ _) _ _

@[simp] theorem memUpdatePaging_modeChanging :
    (memUpdatePaging init s).modeChanging = s.modeChanging :=
  foldl_updatePage_eq _ (fun _ _ => updatePage_modeChanging _ _ _ _) _ _

@[simp] theorem memUpdatePaging_memshadow :
    (memUpdatePaging init s).memshadow = updateShadow s.memMode s.memshadow :=
  foldl_updatePage_eq _ (fun _ _ => updatePage_memshadow _ _ _ _) _ _

@[simp] theorem memUpdatePaging_memwrite :
    (memUpdatePaging false s).memwrite = updateWrite s.memMode s.memwrite :=
  foldl_updatePage_eq _ (fun _ _ => updatePage_memwrite _ _ _ _) _ _

end Fields

/-- The paging loop turns the pages it passes over. -/
theorem showing_foldl_updatePage {old t : Page → PagePtr} {ps : List Page}
    (hnodup : ps.Nodup) (s : MemoryInstance) (ht : ∀ p ∈ ps, t p = old p)
    (hexp : ∀ p, isExpansionPage p = true → old p = s.memshadow p) :
    (ps.foldl (updatePage false old) s).showing
        (fun p => if p ∈ ps then s.memshadow p else t p)
      = (s.showing t).turnAll isPinned s.memshadow ps := by
  induction ps generalizing s t with
  | nil => simp [WriteBack.turnAll]
  | cons p ps ih =>
    rw [List.nodup_cons] at hnodup
    rw [WriteBack.turnAll_cons, ← showing_updatePage s
      (ht p List.mem_cons_self) (hexp p)]
    have hstep := ih hnodup.2 (t := Function.update t p (s.memshadow p))
      (updatePage false old s p)
      (fun q hq => by
        have hne : q ≠ p := fun h => hnodup.1 (by rw [← h]; exact hq)
        rw [Function.update_of_ne hne, ht q (List.mem_cons_of_mem _ hq)])
      (fun q hq => by rw [updatePage_memshadow, hexp q hq])
    rw [updatePage_memshadow] at hstep
    rw [← hstep, List.foldl_cons]
    refine congrArg _ (funext fun q => ?_)
    by_cases hq : q = p
    · subst hq
      rw [if_pos List.mem_cons_self, if_neg hnodup.1, Function.update_self]
    · rw [Function.update_of_ne hq]
      by_cases hps : q ∈ ps
      · rw [if_pos hps, if_pos (List.mem_cons_of_mem _ hps)]
      · rw [if_neg hps, if_neg (fun h => (List.mem_cons.mp h).elim hq hps)]

theorem toWriteBack_eq_showing {r : MemoryInstance} {t : Page → PagePtr}
    (h : r.memshadow = t) : r.toWriteBack = r.showing t := by
  subst h
  rfl

/-- **`mem_update_paging` turns every page** to its shadow in the new
mode. -/
theorem toWriteBack_memUpdatePaging (s : MemoryInstance)
    (hexp : ∀ p, isExpansionPage p = true → s.memshadow p = cxInternalPtr p) :
    (memUpdatePaging false s).toWriteBack
      = s.toWriteBack.turnAll isPinned (updateShadow s.memMode s.memshadow)
          (List.finRange 256) := by
  have h := @showing_foldl_updatePage s.memshadow s.memshadow _
    (List.nodup_finRange 256)
    { s with
      memshadow := updateShadow s.memMode s.memshadow
      memwrite := updateWrite s.memMode s.memwrite }
    (fun _ _ => rfl)
    (fun p hp => by
      rw [hexp p hp]
      exact (updateShadow_expansion s.memMode s.memshadow hp).symm)
  simp only [List.mem_finRange, if_true] at h
  exact (toWriteBack_eq_showing (memUpdatePaging_memshadow false s)).trans h

/-- Initialising writes nothing back, and each page it passes over is
copied in from its shadow. -/
theorem foldl_updatePage_true (old : Page → PagePtr) (s : MemoryInstance)
    (ps : List Page) : ps.foldl (updatePage true old) s
      = { s with
          mem := fun p =>
            if p ∈ ps then s.stores (s.memshadow p) else s.mem p } := by
  induction ps generalizing s with
  | nil => simp
  | cons q ps ih =>
    rw [List.foldl_cons, ih]
    simp only [updatePage, Bool.true_or, if_true, Bool.not_true,
      Bool.false_and, Bool.false_eq_true, if_false]
    refine congrArg (fun m => { s with mem := m }) (funext fun p => ?_)
    by_cases hpq : p = q
    · subst hpq
      rw [Function.update_self, ite_self, if_pos List.mem_cons_self]
    · rw [Function.update_of_ne hpq]
      simp only [List.mem_cons, hpq, false_or]

/-- Every entry of the write table but those of the zero page, the stack and
the I/O pages is assigned, and these two kinds are left as they were. -/
theorem updateWrite_eq (m : MemMode) {w w' : Page → WritePtr}
    (h : ∀ p : Page, p.val < 0x02 ∨ isIoPage p = true → w p = w' p) :
    updateWrite m w = updateWrite m w' := by
  funext p
  by_cases hstack : p.val < 0x02
  · rw [updateWrite_stack m w hstack, updateWrite_stack m w' hstack,
      h p (.inl hstack)]
  by_cases hlow : p.val < 0xC0
  · rw [updateWrite_low m w (by omega) hlow,
      updateWrite_low m w' (by omega) hlow]
  by_cases hio : p.val < 0xD0
  · have hio : isIoPage p = true := by
      simp only [isIoPage, Bool.and_eq_true, decide_eq_true_eq]
      omega
    rw [updateWrite_io m w hio, updateWrite_io m w' hio, h p (.inr hio)]
  · rw [updateWrite_high m w (by omega), updateWrite_high m w' (by omega)]

/-- **Initialising** sets up the tables of the mode and copies every page
in from its shadow. -/
theorem memUpdatePaging_true (s : MemoryInstance) :
    memUpdatePaging true s
      = { s with
          memshadow := shadowTable s.memMode
          memwrite := writeTable s.memMode
          mem := fun p => s.stores (shadowTable s.memMode p) } := by
  have hshadow : updateShadow s.memMode s.memshadow
      = shadowTable s.memMode := updateShadow_eq _ _ _
  have hwrite : updateWrite s.memMode (forPages 0xC0 0xD0 (fun _ => .null)
        (forPages 0x00 0xC0 (fun _ => .live) s.memwrite))
      = writeTable s.memMode := by
    refine updateWrite_eq _ fun p hp => ?_
    simp only [isIoPage, Bool.and_eq_true, decide_eq_true_eq] at hp
    simp only [forPages, isIoPage, Bool.and_eq_true, decide_eq_true_eq]
    grind
  unfold memUpdatePaging
  rw [if_pos rfl, foldl_updatePage_true]
  simp only [hshadow, hwrite, List.mem_finRange, if_true]

end LinApple.Memory
