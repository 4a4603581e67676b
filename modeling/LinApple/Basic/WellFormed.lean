import LinApple.Basic.Export

/-!
# The program an import leaves

Applesoft walks its program by the links, and looks a line up by its number as long as the numbers
go up. An import sorts the lines by their numbers and keeps them under `HIMEM`, but it drops none
of two lines with one number, and it lays the link that ends the program down where `TXTTAB` is,
even if there is no room for it. `importsWell_iff` says that nothing else goes wrong.

What Applesoft needs of a program is `LineChain`, read off RAM as the interpreter reads it: from
an address on, a link that points ahead and stays under a limit, a number at least as large as the
floor so far, and a zero in front of the next line, down to a link of zero. It is an inductive
predicate on addresses, so it says nothing about where the lines came from, and a program that
runs in a circle or out of memory has no such chain.

That no byte at or above `HIMEM` is written cannot be seen from the contents afterwards, since a
byte may be written with what it held. `ImportsWell` puts it as a statement about two imports:
whatever the byte holds before, it holds after.

The text, RAM before, the machine and the mode are all arbitrary. The pointers in page zero may
hold anything; the importer puts some of it right, and the condition speaks of them as it leaves
them (`HasRoom`). The other half (`NoTwoLines`) is about the lines of the text that fit, in the
order of their numbers. The sort of the library is a parameter, of which only this is used: that
it returns its lines in order of their numbers, and no others.
-/

namespace LinApple.Basic

open ByteMap

/-! ## Programs -/

/-- **A program in RAM**, from a line on: the links lead to a null link below a limit,
every line ends with a zero just before the next, and the numbers go up from a number
on. -/
inductive LineChain (ram : Ram) (limit : Nat) : (addr floor : Nat) → Prop where
  /-- The null link. -/
  | done {addr floor : Nat} (hin : addr + 1 < limit) (hnull : readZeroPage16 ram addr = 0) :
    LineChain ram limit addr floor
  /-- A line. -/
  | line {addr floor : Nat} (hnumber : floor ≤ readZeroPage16 ram (addr + 2))
    (hlink : addr + 4 < readZeroPage16 ram addr) (hin : readZeroPage16 ram addr < limit)
    (hzero : ram (readZeroPage16 ram addr - 1) = 0)
    (hrest : LineChain ram limit (readZeroPage16 ram addr) (readZeroPage16 ram (addr + 2) + 1)) :
    LineChain ram limit addr floor

/-- The numbers of the lines go up. -/
def Ascending (lines : List ParsedLine) : Prop :=
  lines.Pairwise fun a b => a.lineNumber < b.lineNumber

section Chain

variable {ram : Ram} {limit addr floor : Nat} {lines : List ParsedLine}

/-- A line that lies in RAM ends with a zero. -/
theorem zero_of_holds {line : ParsedLine} (h : Holds ram addr (line.image addr)) :
    ram (addr + line.size - 1) = 0 := by
  rw [ParsedLine.image, holds_append] at h
  have hlast := h.2 0 (by decide)
  rw [List.length_append, List.length_append, length_word, length_word] at hlast
  rw [show addr + line.size - 1 = addr + (2 + 2 + line.tokenBytes.length) + 0 by
    unfold ParsedLine.size
    omega, hlast]
  rfl

/-- **Lines that lie in RAM are a program**, if their numbers go up. -/
theorem lineChain_of_holds (h : Holds ram addr (linesImage addr lines ++ [0, 0]))
    (hnum : ∀ l ∈ lines, l.lineNumber < 0x10000) (hend : linesEnd addr lines + 1 < limit)
    (hlimit : limit ≤ 0x10000) (hascending : Ascending lines)
    (hfloor : ∀ l ∈ lines, floor ≤ l.lineNumber) : LineChain ram limit addr floor := by
  induction lines generalizing addr floor with
  | nil =>
    exact .done hend (readZeroPage16_of_holds h (by decide : 0 < 0x10000))
  | cons line lines ih =>
    rw [List.forall_mem_cons] at hnum hfloor
    obtain ⟨hfirst, hlater⟩ := List.pairwise_cons.1 hascending
    rw [linesEnd_cons] at hend
    have hlength := length_le_linesEnd (addr + line.size) lines
    obtain ⟨hline, hrest⟩ := holds_linesImage_cons.1 h
    obtain ⟨hlink, hnumber, -, -⟩ := parts_of_holds hline hnum.1 (by omega)
    have hsize := size_pos line
    refine .line ?_ ?_ ?_ ?_ ?_
    · rw [hnumber]
      exact hfloor.1
    · rw [hlink]
      omega
    · rw [hlink]
      omega
    · rw [hlink]
      exact zero_of_holds hline
    · rw [hlink, hnumber]
      exact ih hrest hnum.2 hend hlater fun l hl => hfirst l hl

/-- **The numbers of a program in RAM go up.** -/
theorem ascending_of_lineChain (h : Holds ram addr (linesImage addr lines ++ [0, 0]))
    (hnum : ∀ l ∈ lines, l.lineNumber < 0x10000) (hend : linesEnd addr lines < 0x10000)
    (hchain : LineChain ram limit addr floor) :
    Ascending lines ∧ ∀ l ∈ lines, floor ≤ l.lineNumber := by
  induction lines generalizing addr floor with
  | nil => exact ⟨List.Pairwise.nil, fun _ hl => nomatch hl⟩
  | cons line lines ih =>
    rw [List.forall_mem_cons] at hnum
    rw [linesEnd_cons] at hend
    have hlength := length_le_linesEnd (addr + line.size) lines
    obtain ⟨hline, hrest⟩ := holds_linesImage_cons.1 h
    obtain ⟨hlink, hnumber, -, -⟩ := parts_of_holds hline hnum.1 (by omega)
    have hsize := size_pos line
    cases hchain with
    | done _ hnull => omega
    | line hfloor _ _ _ hlater =>
      rw [hlink, hnumber] at hlater
      rw [hnumber] at hfloor
      obtain ⟨hascending, habove⟩ := ih hrest hnum.2 hend hlater
      refine ⟨List.pairwise_cons.2 ⟨fun l hl => habove l hl, hascending⟩,
        List.forall_mem_cons.2 ⟨hfloor, fun l hl => ?_⟩⟩
      have hl := habove l hl
      omega

end Chain

/-! ## After an import -/

section Import

variable (sort : List ParsedLine → List ParsedLine) (ty : Apple2Type) (mode : BasicLineMode)
  (text : Text) (ram : Ram)

/-- **What an import should leave**: a program from `TXTTAB` on that ends below `HIMEM`,
nothing written at or above `HIMEM`, and the pointers as Applesoft has them behind a
program without variables. -/
structure ImportsWell : Prop where
  /-- The program. -/
  chain : LineChain (basicSyncImportFromString sort ty mode text ram)
    (readZeroPage16 (basicSyncImportFromString sort ty mode text ram) addrHimem)
    (readZeroPage16 (basicSyncImportFromString sort ty mode text ram) addrTxttab) 0
  /-- What a byte at or above `HIMEM` holds, it still holds after. -/
  unwritten : ∀ a, readZeroPage16 (basicSyncImportFromString sort ty mode text ram) addrHimem ≤ a →
    ∀ v, basicSyncImportFromString sort ty mode text (Function.update ram a v) a = v
  /-- `TXTTAB` is below `VARTAB`. -/
  txttab_lt : readZeroPage16 (basicSyncImportFromString sort ty mode text ram) addrTxttab
    < readZeroPage16 (basicSyncImportFromString sort ty mode text ram) addrVartab
  /-- `VARTAB` is `ARYTAB`. -/
  arytab_eq : readZeroPage16 (basicSyncImportFromString sort ty mode text ram) addrArytab
    = readZeroPage16 (basicSyncImportFromString sort ty mode text ram) addrVartab
  /-- `ARYTAB` is `STREND`. -/
  strend_eq : readZeroPage16 (basicSyncImportFromString sort ty mode text ram) addrStrend
    = readZeroPage16 (basicSyncImportFromString sort ty mode text ram) addrArytab
  /-- `STREND` is not above `FRETOP`. -/
  strend_le : readZeroPage16 (basicSyncImportFromString sort ty mode text ram) addrStrend
    ≤ readZeroPage16 (basicSyncImportFromString sort ty mode text ram) addrFretop
  /-- `FRETOP` is `HIMEM`. -/
  fretop_eq : readZeroPage16 (basicSyncImportFromString sort ty mode text ram) addrFretop
    = readZeroPage16 (basicSyncImportFromString sort ty mode text ram) addrHimem

/-- **There is room** for the link that ends a program between `TXTTAB` and `HIMEM`, as
they are once those that make no sense have been put right. -/
def HasRoom : Prop := importTxttab ram + 2 < importHimem ram

instance : Decidable (HasRoom ram) := inferInstanceAs (Decidable (_ < _))

/-- **No two lines that fit have one number**: of the lines of the text that have one,
sorted by it, as many as fit under `HIMEM`. -/
def NoTwoLines : Prop := ((importLines sort ty mode text ram).map ParsedLine.lineNumber).Nodup

/-- After an import `ARYTAB` and `STREND` are `VARTAB`, and `FRETOP` is `HIMEM`. -/
theorem pointers_basicSyncImportFromString :
    readZeroPage16 (basicSyncImportFromString sort ty mode text ram) addrArytab
        = importEnd sort ty mode text ram + 2
      ∧ readZeroPage16 (basicSyncImportFromString sort ty mode text ram) addrStrend
        = importEnd sort ty mode text ram + 2
      ∧ readZeroPage16 (basicSyncImportFromString sort ty mode text ram) addrFretop
        = importHimem ram := by
  have hend := importEnd_bounds sort ty mode text ram
  have hhimem := importHimem_bounds ram
  rw [basicSyncImportFromString_eq]
  dsimp only
  refine ⟨?_, ?_, readZeroPage16_writeZeroPage16 _ _ (by omega)⟩
  · iterate 2
      rw [readZeroPage16_writeZeroPage16_of_ne _ _ (by decide)]
    exact readZeroPage16_writeZeroPage16 _ _ (by omega)
  · rw [readZeroPage16_writeZeroPage16_of_ne _ _ (by decide)]
    exact readZeroPage16_writeZeroPage16 _ _ (by omega)

variable {ram} in
/-- Where there is room, the program ends below `HIMEM`. -/
theorem HasRoom.importEnd_lt (h : HasRoom ram) :
    importEnd sort ty mode text ram + 2 < importHimem ram := by
  by_cases hnone : importLines sort ty mode text ram = []
  · rw [importEnd, hnone]
    exact h
  · exact linesEnd_injected_lt hnone

variable {ram} in
/-- Where there is none, no line is laid down. -/
theorem importEnd_of_not_hasRoom (h : ¬ HasRoom ram) :
    importEnd sort ty mode text ram = importTxttab ram := by
  have hnone : ∀ lines, injected (importHimem ram) (importTxttab ram) lines = [] := fun lines => by
    unfold HasRoom at h
    cases lines with
    | nil => rfl
    | cons line lines =>
      rw [injected, if_pos]
      omega
  rw [importEnd, importLines, hnone]
  rfl

variable {ram} in
/-- An import looks at `HIMEM` and `TXTTAB` only. -/
theorem import_congr {ram' : Ram}
    (hhimem : readZeroPage16 ram' addrHimem = readZeroPage16 ram addrHimem)
    (htxttab : readZeroPage16 ram' addrTxttab = readZeroPage16 ram addrTxttab) :
    importHimem ram' = importHimem ram ∧ importTxttab ram' = importTxttab ram
      ∧ importEnd sort ty mode text ram' = importEnd sort ty mode text ram := by
  have hchecked : ∀ ram : Ram, readZeroPage16 (checkHimem ram).1 addrTxttab
      = readZeroPage16 ram addrTxttab := fun ram => by
    unfold checkHimem
    dsimp only
    split
    · exact readZeroPage16_writeZeroPage16_of_ne ram _ (by decide)
    · rfl
  have hsame : importHimem ram' = importHimem ram := by
    unfold importHimem checkHimem
    dsimp only
    rw [hhimem]
    split
    · rfl
    · rfl
  have hsame' : importTxttab ram' = importTxttab ram := by
    unfold importTxttab checkTxttab
    dsimp only
    rw [hsame, hchecked ram', hchecked ram, htxttab]
    split
    · rfl
    · rfl
  refine ⟨hsame, hsame', ?_⟩
  unfold importEnd importLines
  rw [hsame, hsame']

/-- **Behind the program an import leaves RAM alone.** -/
theorem basicSyncImportFromString_of_ge {a : Nat}
    (ha : importEnd sort ty mode text ram + 3 ≤ a) :
    basicSyncImportFromString sort ty mode text ram a = ram a := by
  have htxttab := importTxttab_bounds ram
  have hend := importEnd_bounds sort ty mode text ram
  have hlines := length_linesImage (importTxttab ram) (importLines sort ty mode text ram)
  have hchecked : (checkTxttab (checkHimem ram).1 (importHimem ram)).1 a = ram a := by
    have hzeroPage : ∀ (ram : Ram) {addr : Nat} (v : Nat), addr < 0xFF →
        writeZeroPage16 ram addr v a = ram a := fun ram addr v haddr => by
      rw [writeZeroPage16_apply, if_neg (by omega), if_neg (by omega)]
    have hhimem : (checkHimem ram).1 a = ram a := by
      unfold checkHimem
      dsimp only
      split
      · exact hzeroPage ram _ (by decide)
      · rfl
    unfold checkTxttab
    dsimp only
    split
    · exact (hzeroPage _ _ (by decide)).trans hhimem
    · exact hhimem
  rw [basicSyncImportFromString_apply sort ty mode text ram (by omega), importRam,
    pokes_of_ge _ _ (by simpa using ha), pokes_of_ge, pokes_of_ge, hchecked]
  · simp only [List.length_singleton]
    omega
  · unfold importEnd at ha
    omega

/-- The link that ends the program is laid down in any case. -/
theorem basicSyncImportFromString_end {i : Nat} (hi : i < 3) :
    basicSyncImportFromString sort ty mode text ram (importEnd sort ty mode text ram + i) = 0 := by
  have htxttab := importTxttab_bounds ram
  have hend := importEnd_bounds sort ty mode text ram
  rw [basicSyncImportFromString_apply sort ty mode text ram (by omega), importRam,
    pokes_add _ [0, 0, 0] (by simpa using hi)]
  obtain rfl | rfl | rfl : i = 0 ∨ i = 1 ∨ i = 2 := by omega
  all_goals rfl

/-- **An import leaves a well-formed program exactly if there is room for its end and no two lines
have one number.** Both can fail for a text that a user may well type, and there is nothing else
that can: the import itself deals with long lines, lines that are no lines and numbers that are too
large. The sort is any that sorts by number. -/
theorem importsWell_iff (hsort : SortsByNumber sort) :
    ImportsWell sort ty mode text ram ↔ HasRoom ram ∧ NoTwoLines sort ty mode text ram := by
  have hhimem := himem_basicSyncImportFromString sort ty mode text ram
  have htxttab := txttab_basicSyncImportFromString sort ty mode text ram
  have hvartab := vartab_basicSyncImportFromString sort ty mode text ram
  obtain ⟨harytab, hstrend, hfretop⟩ := pointers_basicSyncImportFromString sort ty mode text ram
  have hends := importEnd_bounds sort ty mode text ram
  have htop := importHimem_bounds ram
  have hbottom := importTxttab_bounds ram
  have hholds := holds_basicSyncImportFromString sort ty mode text ram
  have hnum : ∀ l ∈ importLines sort ty mode text ram, l.lineNumber < 0x10000 := fun l hl => by
    obtain ⟨i, raw, hline⟩ := exists_of_mem_importLines ty mode text ram hsort hl
    exact Nat.lt_of_le_of_lt (exists_of_parseLine hline).1 (by decide)
  have hread : ∀ {a : Nat} (v : UInt8), 0x100 ≤ a → ∀ addr < 0xFF,
      readZeroPage16 (Function.update ram a v) addr = readZeroPage16 ram addr :=
    fun v ha addr haddr => readZeroPage16_congr (Function.update_of_ne (by omega) _ _)
      (Function.update_of_ne (by omega) _ _)
  constructor
  · intro h
    have hroom : HasRoom ram := by
      by_contra hno
      have hend := importEnd_of_not_hasRoom sort ty mode text hno
      have hplace : importHimem ram ≤ importTxttab ram + 2 := Nat.not_lt.1 hno
      -- the zero behind the null link is laid down whatever the byte held
      have hone := h.unwritten (importTxttab ram + 2) (by omega) 1
      obtain ⟨-, -, hsame⟩ := import_congr sort ty mode text
        (hread 1 (by omega : 0x100 ≤ importTxttab ram + 2) addrHimem (by decide))
        (hread 1 (by omega : 0x100 ≤ importTxttab ram + 2) addrTxttab (by decide))
      have hzero := basicSyncImportFromString_end sort ty mode text
        (Function.update ram (importTxttab ram + 2) 1) (by decide : 2 < 3)
      rw [hsame, hend, hone] at hzero
      exact absurd hzero (by decide)
    refine ⟨hroom, ?_⟩
    have hchain := h.chain
    rw [htxttab] at hchain
    have hascending := (ascending_of_lineChain hholds hnum (by
      unfold importEnd at hends
      omega) hchain).1
    exact List.pairwise_map.2 (hascending.imp fun hlt => Nat.ne_of_lt hlt)
  · rintro ⟨hroom, hdistinct⟩
    have hend := hroom.importEnd_lt sort ty mode text
    have hsorted : (importLines sort ty mode text ram).Pairwise fun a b =>
        a.lineNumber ≤ b.lineNumber :=
      (hsort.sorted _).sublist (injected_sublist _ _ _).sublist
    have hascending : Ascending (importLines sort ty mode text ram) :=
      (hsorted.and (List.pairwise_map.1 hdistinct)).imp fun ⟨hle, hne⟩ => Nat.lt_of_le_of_ne hle hne
    exact {
      chain := by
        rw [hhimem, htxttab]
        exact lineChain_of_holds hholds hnum (by
          unfold importEnd at hend
          omega) (by omega) hascending fun l _ => Nat.zero_le _
      unwritten := fun a ha v => by
        rw [hhimem] at ha
        obtain ⟨-, -, hsame⟩ := import_congr sort ty mode text
          (hread v (by unfold HasRoom at hroom; omega : 0x100 ≤ a) addrHimem (by decide))
          (hread v (by unfold HasRoom at hroom; omega : 0x100 ≤ a) addrTxttab (by decide))
        rw [basicSyncImportFromString_of_ge sort ty mode text _ (by omega), Function.update_self]
      txttab_lt := by
        rw [htxttab, hvartab]
        omega
      arytab_eq := harytab.trans hvartab.symm
      strend_eq := hstrend.trans harytab.symm
      strend_le := by
        rw [hstrend, hfretop]
        omega
      fretop_eq := hfretop.trans hhimem.symm }

end Import

/-! ## What goes wrong -/

/-- Two lines of the same number, `10 END` and `10 NEW`. -/
def twoLinesText : Text :=
  [0x31, 0x30, 0x20, 0x45, 0x4E, 0x44, 0x0A, 0x31, 0x30, 0x20, 0x4E, 0x45, 0x57, 0x0A]

/-- `10 END`. -/
def oneLineText : Text := [0x31, 0x30, 0x20, 0x45, 0x4E, 0x44, 0x0A]

/-- RAM with `HIMEM` two bytes above `TXTTAB`. -/
def tightRam : Ram := writeZeroPage16 (writeZeroPage16 (fun _ => 0) addrHimem 0x0803) addrTxttab 0x0801

/-- A line imported into RAM that is all zero: there is room for it, and it is alone. The same
line imported into RAM with `HIMEM` two bytes above `TXTTAB` has none. -/
theorem importsWell_iff_oneLine :
    (ImportsWell sortLines .apple2e .explicit oneLineText (fun _ => 0)
      ∧ HasRoom (fun _ => 0) ∧ NoTwoLines sortLines .apple2e .explicit oneLineText fun _ => 0)
    ∧ ¬ HasRoom tightRam ∧ ¬ ImportsWell sortLines .apple2e .explicit oneLineText tightRam := by
  have hroom : HasRoom (fun _ => 0)
      ∧ NoTwoLines sortLines .apple2e .explicit oneLineText fun _ => 0 :=
    ⟨by decide +kernel, by unfold NoTwoLines; decide +kernel⟩
  have htight : ¬ HasRoom tightRam := by decide +kernel
  exact ⟨⟨(importsWell_iff _ _ _ _ _ sortsByNumber_sortLines).2 hroom, hroom⟩, htight,
    fun h => htight ((importsWell_iff _ _ _ _ _ sortsByNumber_sortLines).1 h).1⟩

/-- **The end of a program is laid down at `HIMEM`**, and two lines with one number both
are. -/
theorem not_importsWell : ¬ ImportsWell sortLines .apple2e .explicit [] tightRam
    ∧ ¬ ImportsWell sortLines .apple2e .explicit twoLinesText fun _ => 0 := by
  constructor
  · intro h
    have hwritten : basicSyncImportFromString sortLines .apple2e .explicit []
        (Function.update tightRam 0x0803 1) 0x0803 = 0 := by decide +kernel
    have hkept := h.unwritten 0x0803 (by decide +kernel) 1
    rw [hwritten] at hkept
    exact absurd hkept (by decide)
  · intro h
    have hchain := h.chain
    have htxttab : readZeroPage16 (basicSyncImportFromString sortLines .apple2e .explicit
        twoLinesText fun _ => 0) addrTxttab = 0x0801 := by decide +kernel
    have hfirst : readZeroPage16 (basicSyncImportFromString sortLines .apple2e .explicit
        twoLinesText fun _ => 0) 0x0801 = 0x0807 := by decide +kernel
    have hnumber : readZeroPage16 (basicSyncImportFromString sortLines .apple2e .explicit
        twoLinesText fun _ => 0) (0x0801 + 2) = 10 := by decide +kernel
    have hsecond : readZeroPage16 (basicSyncImportFromString sortLines .apple2e .explicit
        twoLinesText fun _ => 0) 0x0807 = 0x080D := by decide +kernel
    have hnumber' : readZeroPage16 (basicSyncImportFromString sortLines .apple2e .explicit
        twoLinesText fun _ => 0) (0x0807 + 2) = 10 := by decide +kernel
    rw [htxttab] at hchain
    cases hchain with
    | done _ hnull => exact absurd (hfirst.symm.trans hnull) (by decide)
    | line _ _ _ _ hrest =>
      rw [hfirst, hnumber] at hrest
      cases hrest with
      | done _ hnull => exact absurd (hsecond.symm.trans hnull) (by decide)
      | line hfloor _ _ _ _ =>
        rw [hnumber'] at hfloor
        exact absurd hfloor (by decide)

end LinApple.Basic
