import LinApple.Basic.LiveSync
import Mathlib.Algebra.GroupWithZero.Nat

/-!
# What an import leaves in RAM

The lines an import lays down are those that fit under `HIMEM`, up to the
first that does not (`injected`), and what it leaves from `TXTTAB` on is
their image, followed by a link of zero (`ram_basicSyncImportFromString`).
-/

namespace LinApple.Basic

open ByteMap

/-! ## Words -/

@[simp] theorem length_word (v : Nat) : (word v).length = 2 := rfl

/-- A word laid down is read back. -/
theorem readZeroPage16_word (ram : Ram) (addr : Nat) {v : Nat}
    (h0 : ram addr = v.toUInt8) (h1 : ram (addr + 1) = (v / 256).toUInt8)
    (hv : v < 0x10000) : readZeroPage16 ram addr = v := by
  rw [readZeroPage16, h0, h1]
  simp only [Nat.toUInt8, UInt8.toNat_ofNat']
  omega

theorem readZeroPage16_writeZeroPage16 (ram : Ram) (addr : Nat) {v : Nat}
    (hv : v < 0x10000) :
    readZeroPage16 (writeZeroPage16 ram addr v) addr = v := by
  refine readZeroPage16_word _ _ ?_ ?_ hv
  · exact pokes_add ram (word v) (i := 0) (by simp)
  · exact pokes_add ram (word v) (i := 1) (by simp)

/-- A word is read from its two bytes. -/
theorem readZeroPage16_congr {ram ram' : Ram} {addr : Nat}
    (h0 : ram addr = ram' addr) (h1 : ram (addr + 1) = ram' (addr + 1)) :
    readZeroPage16 ram addr = readZeroPage16 ram' addr := by
  rw [readZeroPage16, readZeroPage16, h0, h1]

/-! ## The lines laid down -/

/-- The lines that are laid down: those that fit under `himem`, up to the
first that does not. -/
def injected (himem : Nat) : (addr : Nat) → List ParsedLine →
    List ParsedLine
  | _, [] => []
  | addr, line :: lines =>
    if addr + line.size + 2 ≥ himem then []
    else line :: injected himem (addr + line.size) lines

/-- Lines as they lie in RAM from `addr` on. -/
def linesImage : (addr : Nat) → List ParsedLine → Text
  | _, [] => []
  | addr, line :: lines =>
    line.image addr ++ linesImage (addr + line.size) lines

/-- The address after lines laid down from `addr` on. -/
def linesEnd (addr : Nat) (lines : List ParsedLine) : Nat :=
  addr + (lines.map ParsedLine.size).sum

theorem length_image (line : ParsedLine) (addr : Nat) :
    (line.image addr).length = line.size := by
  simp only [ParsedLine.image, ParsedLine.size, List.length_append,
    length_word, List.length_cons, List.length_nil]

theorem linesEnd_cons (addr : Nat) (line : ParsedLine)
    (lines : List ParsedLine) : linesEnd addr (line :: lines)
      = linesEnd (addr + line.size) lines := by
  rw [linesEnd, linesEnd, List.map_cons, List.sum_cons, Nat.add_assoc]

theorem length_linesImage (addr : Nat) (lines : List ParsedLine) :
    addr + (linesImage addr lines).length = linesEnd addr lines := by
  induction lines generalizing addr with
  | nil => rfl
  | cons line lines ih =>
    rw [linesEnd_cons, ← ih, linesImage, List.length_append, length_image,
      Nat.add_assoc]

/-- **What the loop lays down**, and where it ends. -/
theorem injectLoop_eq (himem addr : Nat) (lines : List ParsedLine)
    (ram : Ram) : injectLoop himem addr lines ram
      = (pokes ram addr (linesImage addr (injected himem addr lines)),
        linesEnd addr (injected himem addr lines)) := by
  induction lines generalizing addr ram with
  | nil => rw [injectLoop, injected, linesImage, pokes_nil]; rfl
  | cons line lines ih =>
    rw [injectLoop, injected]
    split
    · rw [linesImage, pokes_nil]
      rfl
    · rw [ih, linesImage, linesEnd_cons, pokes_append, length_image]

/-- The lines laid down leave room under `himem`. -/
theorem linesEnd_injected_lt {himem : Nat} {addr : Nat}
    {lines : List ParsedLine} (h : injected himem addr lines ≠ []) :
    linesEnd addr (injected himem addr lines) + 2 < himem := by
  induction lines generalizing addr with
  | nil => exact absurd rfl h
  | cons line lines ih =>
    rw [injected] at h ⊢
    split at h
    · exact absurd rfl h
    · next hfit =>
      rw [if_neg hfit, linesEnd_cons]
      by_cases hrest : injected himem (addr + line.size) lines = []
      · rw [hrest, linesEnd, List.map_nil, List.sum_nil]
        omega
      · exact ih hrest

theorem injected_sublist (himem addr : Nat) (lines : List ParsedLine) :
    injected himem addr lines <+: lines := by
  induction lines generalizing addr with
  | nil => exact List.prefix_rfl
  | cons line lines ih =>
    rw [injected]
    split
    · exact List.nil_prefix
    · exact (List.prefix_cons_inj line).mpr (ih _)

/-- All the lines are laid down exactly when the last of them fits. -/
theorem injected_eq_self_iff (himem addr : Nat) (lines : List ParsedLine) :
    injected himem addr lines = lines
      ↔ lines = [] ∨ linesEnd addr lines + 2 < himem := by
  induction lines generalizing addr with
  | nil => exact iff_of_true rfl (.inl rfl)
  | cons line lines ih =>
    rw [injected, linesEnd_cons]
    have hend : addr + line.size ≤ linesEnd (addr + line.size) lines := by
      rw [linesEnd]
      exact Nat.le_add_right _ _
    split
    · refine iff_of_false (fun h => nomatch h) ?_
      rintro (h | h)
      · exact nomatch h
      · omega
    · rw [List.cons_inj_right, ih]
      constructor
      · rintro (h | h)
        · refine .inr ?_
          rw [h, linesEnd, List.map_nil, List.sum_nil]
          omega
        · exact .inr h
      · rintro (h | h)
        · exact nomatch h
        · exact .inr h

/-! ## The whole import -/

theorem writeZeroPage16_apply (ram : Ram) (addr v a : Nat) :
    writeZeroPage16 ram addr v a
      = if a = addr then v.toUInt8
        else if a = addr + 1 then (v / 256).toUInt8 else ram a := by
  split
  · next h =>
    subst h
    exact pokes_add ram (word v) (i := 0) (by simp)
  · next h0 =>
    split
    · next h =>
      subst h
      exact pokes_add ram (word v) (i := 1) (by simp)
    · next h1 =>
      by_cases hlt : a < addr
      · exact pokes_of_lt ram (word v) hlt
      · exact pokes_of_ge ram (word v) (by simp; omega)

theorem readZeroPage16_writeZeroPage16_of_ne (ram : Ram) {addr a : Nat}
    (v : Nat) (h : a + 1 < addr ∨ addr + 1 < a) :
    readZeroPage16 (writeZeroPage16 ram addr v) a
      = readZeroPage16 ram a := by
  refine readZeroPage16_congr ?_ ?_
  · rw [writeZeroPage16_apply, if_neg (by omega), if_neg (by omega)]
  · rw [writeZeroPage16_apply, if_neg (by omega), if_neg (by omega)]

section Whole

variable (sort : List ParsedLine → List ParsedLine) (ty : Apple2Type)
  (mode : BasicLineMode) (text : Text) (ram : Ram)

/-- The `HIMEM` an import works with. -/
def importHimem : Nat := (checkHimem ram).2

/-- The `TXTTAB` an import works with. -/
def importTxttab : Nat :=
  (checkTxttab (checkHimem ram).1 (importHimem ram)).2

/-- The lines an import lays down. -/
def importLines : List ParsedLine :=
  injected (importHimem ram) (importTxttab ram)
    (sort (parseLines mode (isUppercaseOnlyMachine ty) 1 (getLines text)))

/-- The address the program ends at after an import. -/
def importEnd : Nat :=
  linesEnd (importTxttab ram) (importLines sort ty mode text ram)

theorem importHimem_bounds :
    0 < importHimem ram ∧ importHimem ram ≤ 0xC000 := by
  unfold importHimem checkHimem
  dsimp only
  split
  · show 0 < defaultHimem ∧ defaultHimem ≤ 0xC000
    decide
  · next h =>
    simp only [Bool.or_eq_true, decide_eq_true_eq, not_or] at h
    rw [hardHimemCeiling] at h
    show 0 < readZeroPage16 ram addrHimem ∧ _
    omega

theorem importTxttab_bounds :
    0x0801 ≤ importTxttab ram ∧ importTxttab ram < 0xC000 := by
  have hhimem := (importHimem_bounds ram).2
  unfold importTxttab checkTxttab
  dsimp only
  split
  · show 0x0801 ≤ defaultTxttab ∧ defaultTxttab < 0xC000
    decide
  · next h =>
    simp only [Bool.or_eq_true, decide_eq_true_eq, not_or] at h
    rw [defaultTxttab] at h
    omega

variable {ram} in
/-- A `HIMEM` that makes sense is left. -/
theorem importHimem_eq (h : 0 < readZeroPage16 ram addrHimem
    ∧ readZeroPage16 ram addrHimem ≤ hardHimemCeiling) :
    (checkHimem ram).1 = ram
      ∧ importHimem ram = readZeroPage16 ram addrHimem := by
  have hcheck : checkHimem ram = (ram, readZeroPage16 ram addrHimem) := by
    unfold checkHimem
    exact if_neg (by simp; omega)
  exact ⟨congrArg Prod.fst hcheck, congrArg Prod.snd hcheck⟩

variable {ram} in
/-- A `TXTTAB` that makes sense is left. -/
theorem importTxttab_eq (h : 0 < readZeroPage16 ram addrHimem
      ∧ readZeroPage16 ram addrHimem ≤ hardHimemCeiling)
    (h' : defaultTxttab ≤ readZeroPage16 ram addrTxttab
      ∧ readZeroPage16 ram addrTxttab < readZeroPage16 ram addrHimem) :
    importTxttab ram = readZeroPage16 ram addrTxttab := by
  obtain ⟨hram, hhimem⟩ := importHimem_eq h
  unfold importTxttab
  rw [hram, hhimem]
  unfold checkTxttab
  exact congrArg Prod.snd (if_neg (by simp; omega))

/-- The program ends below `$C000`, and starts where it should. -/
theorem importEnd_bounds :
    importTxttab ram ≤ importEnd sort ty mode text ram
      ∧ importEnd sort ty mode text ram < 0xC000 := by
  refine ⟨Nat.le_add_right _ _, ?_⟩
  by_cases h : importLines sort ty mode text ram = []
  · rw [importEnd, h, linesEnd, List.map_nil, List.sum_nil]
    exact (importTxttab_bounds ram).2
  · have hend := linesEnd_injected_lt h
    have hhimem := (importHimem_bounds ram).2
    exact Nat.lt_of_lt_of_le (Nat.lt_of_le_of_lt (Nat.le_add_right _ 2) hend)
      hhimem

/-- RAM after the program has been laid down, before the pointers are
set. -/
def importRam : Ram :=
  pokes (pokes (pokes
      (checkTxttab (checkHimem ram).1 (importHimem ram)).1
      (importTxttab ram - 1) [0])
    (importTxttab ram)
    (linesImage (importTxttab ram) (importLines sort ty mode text ram)))
    (importEnd sort ty mode text ram) [0, 0, 0]

/-- **An import**: the program is laid down, then the pointers are set. -/
theorem basicSyncImportFromString_eq :
    basicSyncImportFromString sort ty mode text ram =
      let varStart := importEnd sort ty mode text ram + 2
      writeZeroPage16 (writeZeroPage16 (writeZeroPage16 (writeZeroPage16
        (writeZeroPage16 (importRam sort ty mode text ram) addrPrgend
          (importEnd sort ty mode text ram)) addrVartab varStart)
        addrArytab varStart) addrStrend varStart) addrFretop
        (importHimem ram) := by
  unfold basicSyncImportFromString injectProgramLines
  dsimp only
  rw [injectLoop_eq]
  rfl

/-- Above the zero page the pointers leave RAM alone. -/
theorem basicSyncImportFromString_apply {a : Nat} (ha : 0x100 ≤ a) :
    basicSyncImportFromString sort ty mode text ram a
      = importRam sort ty mode text ram a := by
  rw [basicSyncImportFromString_eq]
  simp only [writeZeroPage16_apply, addrPrgend, addrVartab, addrArytab,
    addrStrend, addrFretop]
  simp only [show ∀ k, k < 0x100 → (a = k) = False from
    fun k hk => eq_false (by omega), Nat.reduceAdd, Nat.reduceLT, if_false]

/-- **What an import leaves from `TXTTAB` on**: the image of its lines and a
link of zero. -/
theorem ram_basicSyncImportFromString {i : Nat}
    (hi : i < (linesImage (importTxttab ram)
      (importLines sort ty mode text ram) ++ [0, 0, 0]).length) :
    basicSyncImportFromString sort ty mode text ram (importTxttab ram + i)
      = (linesImage (importTxttab ram)
          (importLines sort ty mode text ram) ++ [0, 0, 0])[i] := by
  have htxttab := importTxttab_bounds ram
  rw [basicSyncImportFromString_apply sort ty mode text ram (by omega),
    importRam, importEnd, ← length_linesImage, ← pokes_append, pokes_add]

/-- Below TXTTAB nothing is laid down but the zero before the program. -/
theorem importRam_apply {a : Nat} (ha : a < 0x100) :
    importRam sort ty mode text ram a
      = (checkTxttab (checkHimem ram).1 (importHimem ram)).1 a := by
  have htxttab := importTxttab_bounds ram
  have hend := importEnd_bounds sort ty mode text ram
  rw [importRam, pokes_of_lt _ _ (by omega), pokes_of_lt _ _ (by omega),
    pokes_of_lt _ _ (by omega)]

theorem readZeroPage16_importRam {a : Nat} (ha : a < 0xFF) :
    readZeroPage16 (importRam sort ty mode text ram) a
      = readZeroPage16
          (checkTxttab (checkHimem ram).1 (importHimem ram)).1 a :=
  readZeroPage16_congr (importRam_apply sort ty mode text ram (by omega))
    (importRam_apply sort ty mode text ram (by omega))

theorem readZeroPage16_checkTxttab (ram : Ram) (himem : Nat) :
    readZeroPage16 (checkTxttab ram himem).1 addrTxttab
      = (checkTxttab ram himem).2 := by
  unfold checkTxttab
  dsimp only
  split
  · exact readZeroPage16_writeZeroPage16 ram addrTxttab (by decide)
  · rfl

theorem readZeroPage16_checkHimem (ram : Ram) :
    readZeroPage16 (checkHimem ram).1 addrHimem = (checkHimem ram).2 := by
  unfold checkHimem
  dsimp only
  split
  · exact readZeroPage16_writeZeroPage16 ram addrHimem (by decide)
  · rfl

theorem readZeroPage16_checkTxttab_of_ne (ram : Ram) (himem : Nat) {a : Nat}
    (h : a + 1 < addrTxttab ∨ addrTxttab + 1 < a) :
    readZeroPage16 (checkTxttab ram himem).1 a = readZeroPage16 ram a := by
  unfold checkTxttab
  dsimp only
  split
  · exact readZeroPage16_writeZeroPage16_of_ne ram _ h
  · rfl

/-- After an import `TXTTAB` is the one it worked with. -/
theorem txttab_basicSyncImportFromString :
    readZeroPage16 (basicSyncImportFromString sort ty mode text ram)
      addrTxttab = importTxttab ram := by
  rw [basicSyncImportFromString_eq]
  dsimp only
  iterate 5
    rw [readZeroPage16_writeZeroPage16_of_ne _ _ (by decide)]
  rw [readZeroPage16_importRam _ _ _ _ _ (by decide),
    readZeroPage16_checkTxttab]
  rfl

/-- After an import `HIMEM` is the one it worked with. -/
theorem himem_basicSyncImportFromString :
    readZeroPage16 (basicSyncImportFromString sort ty mode text ram)
      addrHimem = importHimem ram := by
  rw [basicSyncImportFromString_eq]
  dsimp only
  iterate 5
    rw [readZeroPage16_writeZeroPage16_of_ne _ _ (by decide)]
  rw [readZeroPage16_importRam _ _ _ _ _ (by decide),
    readZeroPage16_checkTxttab_of_ne _ _ (by decide),
    readZeroPage16_checkHimem]
  rfl

/-- After an import `VARTAB` is behind the link of zero. -/
theorem vartab_basicSyncImportFromString :
    readZeroPage16 (basicSyncImportFromString sort ty mode text ram)
      addrVartab = importEnd sort ty mode text ram + 2 := by
  have hend := importEnd_bounds sort ty mode text ram
  rw [basicSyncImportFromString_eq]
  dsimp only
  iterate 3
    rw [readZeroPage16_writeZeroPage16_of_ne _ _ (by decide)]
  exact readZeroPage16_writeZeroPage16 _ _ (by omega)

/-- After an import `PRGEND` is the link of zero. -/
theorem prgend_basicSyncImportFromString :
    readZeroPage16 (basicSyncImportFromString sort ty mode text ram)
      addrPrgend = importEnd sort ty mode text ram := by
  have hend := importEnd_bounds sort ty mode text ram
  rw [basicSyncImportFromString_eq]
  dsimp only
  iterate 4
    rw [readZeroPage16_writeZeroPage16_of_ne _ _ (by decide)]
  exact readZeroPage16_writeZeroPage16 _ _ (by omega)

end Whole

end LinApple.Basic
