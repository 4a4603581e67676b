import LinApple.Basic.Import
import LinApple.Memory.Keeping

/-!
# An imported program and the paging code

An import writes the live image and marks no page dirty, where the program loader marks them all.
A page nothing else has marked is not written back when it is turned, so what was imported to it
is gone once the page has been turned away and back (`import_survives_iff`).

Whether a program survives is a question about all that can happen later, and the left side of the
equivalence is that: for every run of accesses that writes to none of the program's pages and ends
with the mode of memory the import saw, every byte of the program is there. The right side looks
at the moment before the import alone. A byte survives if its page was marked already, or if the
stored copy, which would come back in place of the live one, happens to hold the byte that
was imported.

For the direction from left to right the run has to be found. Every page a program can lie in is
turned away and back by two accesses: of PAGE2 where 80STORE and HIRES put the page under it, and
of the switch that reads auxiliary memory otherwise. A II has no auxiliary memory to turn to, and
is left out for that reason.

The bytes of the program are those the importer lays down: the lines with their links and the
final link of zero (`InProgram`). What else an import writes, such as the pointers in page zero,
is not part of the program.
-/

namespace LinApple.Basic

open Memory

/-- The image as the live sync sees it. -/
def imageRam (s : MemoryInstance) : Ram := fun a =>
  s.memByte (UInt16.ofNat a)

/-- The image written over. -/
def withImage (s : MemoryInstance) (ram : Ram) : MemoryInstance :=
  { s with mem := fun p o => ram (p.val * 256 + o.val) }

section Survives

variable (sort : List ParsedLine → List ParsedLine) (ty : Apple2Type)
  (mode : BasicLineMode) (text : Text) (s : MemoryInstance)

/-- `basic_sync_import_from_string` on the memory of the machine. -/
def importInto : MemoryInstance :=
  withImage s
    (basicSyncImportFromString sort ty mode text (imageRam s))

/-- The addresses of RAM the imported program takes, its final link included. The program begins
where the guest's pointer says, so the range is that of the image before the import; and it ends
below the I/O page, where there is no RAM to lose. -/
def InProgram (a : UInt16) : Prop :=
  importTxttab (imageRam s) ≤ a.toNat
    ∧ a.toNat < importEnd sort ty mode text (imageRam s) + 2
    ∧ a.toNat < 0xC000

/-- The byte of the program that belongs at an address. -/
def programByte (a : UInt16) : UInt8 :=
  ((linesImage (importTxttab (imageRam s))
      (importLines sort ty mode text (imageRam s)) ++ [0, 0, 0])[
    a.toNat - importTxttab (imageRam s)]?).getD 0

variable {s}

theorem memByte_withImage (ram : Ram) (a : UInt16) :
    (withImage s ram).memByte a = ram a.toNat := by
  show ram (a.toNat / 256 * 256 + a.toNat % 256) = ram a.toNat
  rw [Nat.div_add_mod']

/-- Right after the import the program is in the image. -/
theorem memByte_importInto {a : UInt16}
    (ha : InProgram sort ty mode text s a) :
    (importInto sort ty mode text s).memByte a
      = programByte sort ty mode text s a := by
  obtain ⟨hlo, hhi, -⟩ := ha
  have hlen : a.toNat - importTxttab (imageRam s)
      < (linesImage (importTxttab (imageRam s))
        (importLines sort ty mode text (imageRam s)) ++ [0, 0, 0]).length := by
    rw [List.length_append]
    have := length_linesImage (importTxttab (imageRam s))
      (importLines sort ty mode text (imageRam s))
    rw [importEnd] at hhi
    simp only [List.length_cons, List.length_nil]
    omega
  have hram := ram_basicSyncImportFromString sort ty mode text (imageRam s)
    hlen
  rw [Nat.add_sub_cancel' hlo] at hram
  rw [importInto, memByte_withImage, hram, programByte,
    List.getElem?_eq_getElem hlen]
  rfl

theorem hasTables_importInto (h : HasTables s) :
    HasTables (importInto sort ty mode text s) := by
  obtain ⟨m, hm, hmode⟩ := h
  exact ⟨m, ⟨hm.memshadow_eq, hm.memwrite_eq⟩, hmode⟩

end Survives

/-! ## A page turned away and back -/

/-- The switch that sets `PAGE2`, or clears it. -/
def page2Switch (b : Bool) : UInt16 := if b then 0xC055 else 0xC054

/-- The switch that sets `AUXREAD`, or clears it. -/
def auxreadSwitch (b : Bool) : UInt16 := if b then 0xC003 else 0xC002

section Switches

variable {ty : Apple2Type} (hty : ty.isApple2 = false) (m : MemMode)
  (b : Bool)
include hty

theorem switchMode_page2Switch :
    switchMode ty m ((page2Switch b).toNat % 0x100)
      = { m with page2 := b } := by
  cases b <;> simp [switchMode, page2Switch, hty]

theorem switchMode_auxreadSwitch :
    switchMode ty m ((auxreadSwitch b).toNat % 0x100)
      = { m with auxread := b } := by
  cases b <;> simp [switchMode, auxreadSwitch, hty]

/-- **On a //e two switches turn any page of RAM away and back**: a page
`80STORE` holds by `PAGE2`, and another one by `AUXREAD`. -/
theorem exists_turn_away {p : Page} (hp : 0x08 ≤ p.val)
    (hp' : p.val < 0xC0) :
    ∃ away back : UInt16,
      isPagingSwitch away = true ∧ isPagingSwitch back = true
      ∧ shadowTable (switchMode ty m (away.toNat % 0x100)) p
        ≠ shadowTable m p
      ∧ switchMode ty (switchMode ty m (away.toNat % 0x100))
          (back.toNat % 0x100) = m := by
  have hshadow : ∀ n : MemMode,
      shadowTable n p = ramPtr (selectsAux n n.auxread p) p :=
    fun n => updateShadow_low n _ hp'
  have hstack : ¬ p.val < 0x02 := by omega
  have htext : (decide (0x04 ≤ p.val) && decide (p.val < 0x08)) = false := by
    rw [Bool.and_eq_false_iff, decide_eq_false_iff_not,
      decide_eq_false_iff_not]
    omega
  by_cases hheld : (m.store80 && (m.hires
      && (decide (0x20 ≤ p.val) && decide (p.val < 0x40)))) = true
  · refine ⟨page2Switch (!m.page2), page2Switch m.page2, ?_, ?_, ?_, ?_⟩
    · cases m.page2 <;> decide
    · cases m.page2 <;> decide
    · rw [switchMode_page2Switch hty, hshadow, hshadow]
      simp only [selectsAux, if_neg hstack, htext, Bool.false_or, hheld,
        if_true]
      exact ramPtr_ne _ _ p (by cases m.page2 <;> decide)
    · rw [switchMode_page2Switch hty, switchMode_page2Switch hty]
  · refine ⟨auxreadSwitch (!m.auxread), auxreadSwitch m.auxread,
      ?_, ?_, ?_, ?_⟩
    · cases m.auxread <;> decide
    · cases m.auxread <;> decide
    · rw [switchMode_auxreadSwitch hty, hshadow, hshadow]
      simp only [selectsAux, if_neg hstack, htext, Bool.false_or,
        if_neg hheld]
      exact ramPtr_ne _ _ p (by cases m.auxread <;> decide)
    · rw [switchMode_auxreadSwitch hty, switchMode_auxreadSwitch hty]

end Switches

/-- **A page with no mark forgets what only its image holds** when two
switches turn it away and back. -/
theorem mem_turned_away (ty : Apple2Type) {s : MemoryInstance}
    (h : HasTables s) {p : Page} (hp : p.val < 0xC0) (hp' : 0x02 ≤ p.val)
    (hclean : s.memdirty p &&& 1 = 0) {away back : UInt16}
    (haway : shadowTable (switchMode ty s.memMode (away.toNat % 0x100)) p
      ≠ shadowTable s.memMode p)
    (hback : switchMode ty (switchMode ty s.memMode (away.toNat % 0x100))
      (back.toNat % 0x100) = s.memMode) :
    (memSetPaging ty (memSetPaging ty s 0xFFFF away) 0xFFFF back).mem p
      = s.stores (s.memshadow p) := by
  have hexp : isExpansionPage p = false := by
    simp only [isExpansionPage, Bool.and_eq_false_iff,
      decide_eq_false_iff_not]
    omega
  have hpin : isPinned p = false := by
    rw [isPinned, hexp, Bool.or_false, decide_eq_false_iff_not]
    omega
  have hmap : s.toWriteBack.map p = shadowTable s.memMode p :=
    h.memshadow_eq (by omega)
  -- a paging switch turns the page as the write-back model does, which is what the two turns use
  have hturn : ∀ {t : MemoryInstance}, HasTables t → ∀ addr : UInt16,
      WriteBack.AgreesAt ownerPage p
        (memSetPaging ty t 0xFFFF addr).toWriteBack
        (t.toWriteBack.turn isPinned p
          (shadowTable (switchMode ty t.memMode (addr.toNat % 0x100)) p)) :=
    fun {t} ht addr =>
      (agreesAt_memSetPaging ty 0xFFFF ht addr hexp).elim
        (fun hoff => absurd
          ((t.holdsOff_of_lt (by decide) _).symm.trans hoff.1)
          Bool.false_ne_true)
        And.right
  have hfirst := hturn h away
  have hsecond := (hturn (h.memSetPaging ty 0xFFFF away) back).trans
    (hfirst.turn (ownerPage_shadowTable _ p))
  rw [memSetPaging_memMode, hback, ← hmap] at hsecond
  refine hsecond.live_eq.trans
    (WriteBack.turn_turn_live_of_clean ?_ hpin (by rwa [hmap]))
  show decide (s.memdirty p &&& 1 ≠ 0) = false
  rw [hclean]
  rfl

/-! ## Which programs survive -/

section Iff

variable (sort : List ParsedLine → List ParsedLine) {ty : Apple2Type}
  (mode : BasicLineMode) (text : Text) {s : MemoryInstance}

/-- The pages of a program are pages of RAM, above the screen. -/
theorem InProgram.page_bounds {a : UInt16}
    (ha : InProgram sort ty mode text s a) :
    0x08 ≤ (pageOf a).val ∧ (pageOf a).val < 0xC0 := by
  obtain ⟨hlo, -, hhi⟩ := ha
  have htxttab := (importTxttab_bounds (imageRam s)).1
  rw [pageOf_val]
  omega

/-- A marked page, or one stored as it is imported, keeps its bytes. -/
theorem keeps_importInto (h : HasTables s) {a : UInt16}
    (ha : InProgram sort ty mode text s a)
    (hsafe : s.memdirty (pageOf a) &&& 1 ≠ 0
      ∨ s.stores (s.memshadow (pageOf a)) (offsetOf a)
        = programByte sort ty mode text s a) :
    (importInto sort ty mode text s).Keeps (s.memshadow (pageOf a))
      fun d => d (offsetOf a) = programByte sort ty mode text s a := by
  have hown := h.owner_map (pageOf a)
  refine ⟨fun _ => ⟨?_, ?_⟩, fun hhidden => absurd ?_ hhidden⟩
  · rw [hown]
    exact memByte_importInto sort ty mode text ha
  · rw [hown]
    exact hsafe.imp (fun hdirty => decide_eq_true hdirty) .inr
  · rw [hown]
    rfl

/-- **Exactly which imported programs stay in the machine.** On a //e, every
later run of a program that does not write to the pages of the imported one
and ends in the mode the import saw leaves all its bytes to be read if and
only if, before the import, the page of every byte was marked dirty or the
byte was stored already. -/
theorem import_survives_iff (hty : ty.isApple2 = false)
    (h : HasTables s) :
    (∀ as : List Access, (∀ x ∈ as, x.OfProgram) →
      (∀ x ∈ as, ∀ a, InProgram sort ty mode text s a →
        x.SparesPage (pageOf a)) →
      ((memoryMachine ty).run (importInto sort ty mode text s) as).memMode
        = s.memMode →
      ∀ a, InProgram sort ty mode text s a →
        ((memoryMachine ty).run
          (importInto sort ty mode text s) as).memByte a
          = programByte sort ty mode text s a)
      ↔ ∀ a, InProgram sort ty mode text s a →
        s.memdirty (pageOf a) &&& 1 ≠ 0
          ∨ s.stores (s.memshadow (pageOf a)) (offsetOf a)
            = programByte sort ty mode text s a := by
  have htables := hasTables_importInto sort ty mode text h
  constructor
  · intro hkeep a ha
    by_contra hno
    rw [not_or, not_not] at hno
    obtain ⟨hlo, hhi⟩ := ha.page_bounds
    obtain ⟨away, back, haway, hback, hturned, hreturned⟩ :=
      exists_turn_away hty s.memMode hlo hhi
    -- the page is turned away and back, and the byte is gone
    have hread := hkeep [.switch 0xFFFF away, .switch 0xFFFF back]
      (by simp [Access.OfProgram, haway, hback])
      (by simp [Access.SparesPage])
      (by
        rw [Machine.run_cons, Machine.run_cons, Machine.run_nil]
        show (memSetPaging ty (memSetPaging ty _ 0xFFFF away) 0xFFFF
          back).memMode = _
        rw [memSetPaging_memMode, memSetPaging_memMode]
        exact hreturned)
      a ha
    have hlost := mem_turned_away ty htables hhi (by omega) hno.1
      hturned hreturned
    exact hno.2 ((congrFun hlost (offsetOf a)).symm.trans hread)
  · intro hsafe as _ hspares hmode a ha
    obtain ⟨hlo, hhi⟩ := ha.page_bounds
    have hown := h.owner_map (pageOf a)
    have hexp : isExpansionPage (ownerPage (s.memshadow (pageOf a)))
        = false := by
      rw [hown]
      simp only [isExpansionPage, Bool.and_eq_false_iff,
        decide_eq_false_iff_not]
      omega
    have hpage : ∀ x ∈ as,
        x.SparesPage (ownerPage (s.memshadow (pageOf a))) :=
      fun x hx => by
        rw [hown]
        exact hspares x hx a ha
    obtain ⟨hend, hkept⟩ := kept_run htables
      (keeps_importInto sort mode text h ha (hsafe a ha)) hexp hpage
    have hshown : ((memoryMachine ty).run
        (importInto sort ty mode text s) as).memshadow (pageOf a)
        = s.memshadow (pageOf a) := by
      rw [hend.memshadow_eq (by omega), hmode, h.memshadow_eq (by omega)]
    have hlive := (hkept.shown (by rw [hown]; exact hshown)).1
    rw [hown] at hlive
    exact hlive

end Iff

/-- A //e with nothing in its memory, and every page marked with `dirty`. -/
def clearedMemory (dirty : UInt8) : MemoryInstance :=
  { MemoryInstance.blank with
    memshadow := shadowTable MemMode.reset
    memwrite := writeTable MemMode.reset
    memdirty := fun _ => dirty }

theorem hasTables_clearedMemory (dirty : UInt8) :
    HasTables (clearedMemory dirty) :=
  ⟨MemMode.reset, ⟨rfl, rfl⟩, MemMode.DefersFrom.refl _, .inl rfl⟩

/-- The two switches of `AUXREAD` come back to the mode of the reset. -/
theorem run_auxread_memMode {s : MemoryInstance}
    (hs : s.memMode = MemMode.reset) :
    ((memoryMachine .apple2e).run s
      [.switch 0xFFFF 0xC003, .switch 0xFFFF 0xC002]).memMode
      = MemMode.reset := by
  rw [Machine.run_cons, Machine.run_cons, Machine.run_nil]
  show (memSetPaging .apple2e (memSetPaging .apple2e s 0xFFFF 0xC003)
    0xFFFF 0xC002).memMode = _
  rw [memSetPaging_memMode, memSetPaging_memMode, hs]
  decide

/-- `END` is the fifth byte of the program `10 END`. -/
theorem inProgram_end (dirty : UInt8) :
    InProgram sortLines .apple2e .explicit (bytes "10 END") (clearedMemory dirty)
      0x0805 := by
  have hram : imageRam (clearedMemory dirty) = fun _ => 0 := rfl
  rw [InProgram, hram]
  decide

/-- With every page marked the program stays: its `END` is there after
`AUXREAD` has been switched on and off again. -/
theorem import_survives_iff_marked :
    ((memoryMachine .apple2e).run
      (importInto sortLines .apple2e .explicit (bytes "10 END") (clearedMemory 0xFF))
      [.switch 0xFFFF 0xC003, .switch 0xFFFF 0xC002]).memByte 0x0805
      = programByte sortLines .apple2e .explicit (bytes "10 END") (clearedMemory 0xFF)
        0x0805 :=
  (import_survives_iff sortLines .explicit (bytes "10 END")
    (show Apple2Type.isApple2 .apple2e = false from rfl)
    (hasTables_clearedMemory 0xFF)).mpr
    (fun a _ => .inl (show (0xFF : UInt8) &&& 1 ≠ 0 by decide))
    [.switch 0xFFFF 0xC003, .switch 0xFFFF 0xC002]
    (by simp [Access.OfProgram, isPagingSwitch])
    (by simp [Access.SparesPage])
    (run_auxread_memMode rfl) 0x0805 (inProgram_end 0xFF)

/-- **With no page marked it is lost**: the `END` of `10 END` is in the image
right after the import, and zero after `AUXREAD` has been switched on and
off again. -/
theorem import_lost :
    (importInto sortLines .apple2e .explicit (bytes "10 END")
      (clearedMemory 0)).memByte 0x0805 = 0x80
    ∧ ((memoryMachine .apple2e).run
      (importInto sortLines .apple2e .explicit (bytes "10 END") (clearedMemory 0))
      [.switch 0xFFFF 0xC003, .switch 0xFFFF 0xC002]).memMode
      = (clearedMemory 0).memMode
    ∧ ((memoryMachine .apple2e).run
      (importInto sortLines .apple2e .explicit (bytes "10 END") (clearedMemory 0))
      [.switch 0xFFFF 0xC003, .switch 0xFFFF 0xC002]).memByte 0x0805
      = 0 := by
  refine ⟨?_, run_auxread_memMode rfl, ?_⟩
  · rw [memByte_importInto sortLines .apple2e .explicit (bytes "10 END")
      (inProgram_end 0)]
    have hram : imageRam (clearedMemory 0) = fun _ => 0 := rfl
    rw [programByte, hram]
    decide
  · have hlost := @mem_turned_away .apple2e _
      (hasTables_importInto sortLines .apple2e .explicit (bytes "10 END")
        (hasTables_clearedMemory 0)) 0x08 (by decide) (by decide) (by decide)
      0xC003 0xC002 (by decide) (by decide)
    rw [Machine.run_cons, Machine.run_cons, Machine.run_nil]
    have hbyte : ∀ t : MemoryInstance, t.memByte 0x0805 = t.mem 0x08 5 :=
      fun _ => rfl
    have hstores : ∀ ram c, (withImage (clearedMemory 0) ram).stores c 5
      = 0 := fun _ _ => rfl
    rw [hbyte]
    simp only [memoryMachine]
    rw [hlost, importInto]
    exact hstores _ _

end LinApple.Basic
