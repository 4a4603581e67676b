import LinApple.Basic.Export

/-!
# Exporting a program and importing it again

A program in RAM is written out in explicit mode and the text read back, in
the machine it came from. `roundTrip_iff` says when that leaves the program as
it was: when it is written out whole and fits, and the text of no line starts
with a space or holds a keyword where the line has none.

`HasProgram` is what is taken for granted of RAM. There is a chain of lines at
`TXTTAB`, with ascending numbers up to 63999, and its statements are made of
what a statement can be made of: tokens, and printable characters that are
small letters only in quotes and behind REM. Such a program need not have been
typed in. The tokenizer of the machine's ROM and the one of the importer are
different programs, and a statement may hold what neither would make of a
text. The condition has to deal with all of them.

It comes in two parts. The first is about places: the export writes only what
ends at or before `VARTAB`, and the import keeps its distance from `HIMEM`.
The second is about each line by itself (`ComesBack`), and says at every place
of its statement what the importer would match in the listing from there on:
the very token that stands there, or none where a character stands. Since
`detokenize_line_bytes` puts nothing between a name and a keyword, the match
may take letters from both, and so it is the listing that has to be looked at,
and not the statement.

Both are put in terms of the program and the code's own matcher, and neither
mentions the round trip. The bytes that are compared are those of the whole
program, its links and the last two zeros with them.
-/

namespace LinApple.Basic

open ByteMap

/-- Small letters stand in quotes and remarks only. -/
def QuotesLower : (inQuotes inRem : Bool) → Text → Prop
  | _, _, [] => True
  | q, r, b :: line =>
    (isLower b = true → (q || r) = true)
      ∧ QuotesLower (if b = quote then !q else q)
        (r || !q && b = tokenRem) line

/-- Where small letters stand can be computed. -/
instance decidableQuotesLower : (q r : Bool) → (line : Text) →
    Decidable (QuotesLower q r line)
  | _, _, [] => isTrue trivial
  | q, r, b :: line =>
    have := decidableQuotesLower (if b = quote then !q else q)
      (r || !q && b = tokenRem) line
    inferInstanceAs (Decidable (_ ∧ _))

/-- The text of a line in explicit mode. -/
def ParsedLine.text (line : ParsedLine) : Text :=
  decimal line.lineNumber ++ [0x20] ++ detokenizeLineBytes line.tokenBytes

/-- **A well-formed line**: its statement is not empty and made of keywords
and printable characters, small letters standing in quotes and remarks
only, and its text fits into one line. -/
structure ParsedLine.WellFormed (line : ParsedLine) : Prop where
  /-- The number of the line. -/
  number_le : line.lineNumber ≤ maxLineNumber
  /-- The statement is not empty. -/
  ne_nil : line.tokenBytes ≠ []
  /-- What the statement is made of. -/
  bytes : ∀ b ∈ line.tokenBytes, isStatementByte b = true
  /-- Where small letters stand. -/
  lower : QuotesLower false false line.tokenBytes
  /-- The length of the text. -/
  length_le : line.text.length ≤ maxInputLineLen

/-- **A well-formed program in RAM**: its lines follow each other from
`TXTTAB` on, with their numbers going up, and `TXTTAB` and `HIMEM` are such
that an import leaves them. -/
structure HasProgram (ram : Ram) (lines : List ParsedLine) : Prop where
  /-- `HIMEM` makes sense. -/
  himem : 0 < readZeroPage16 ram addrHimem
    ∧ readZeroPage16 ram addrHimem ≤ hardHimemCeiling
  /-- `TXTTAB` makes sense. -/
  txttab : defaultTxttab ≤ readZeroPage16 ram addrTxttab
    ∧ readZeroPage16 ram addrTxttab < readZeroPage16 ram addrHimem
  /-- The lines lie in RAM. -/
  holds : Holds ram (readZeroPage16 ram addrTxttab)
    (linesImage (readZeroPage16 ram addrTxttab) lines ++ [0, 0])
  /-- There is room for them. -/
  end_le : linesEnd (readZeroPage16 ram addrTxttab) lines + 2 ≤ 0x10000
  /-- Their numbers go up. -/
  ascending : lines.Pairwise fun a b => a.lineNumber < b.lineNumber
  /-- Each is well formed. -/
  wellFormed : ∀ l ∈ lines, l.WellFormed

/-! ## The text of lines that come back -/

/-- A line whose text tokenizes back to it. A space at its start would be
taken for the one behind the number, and the rest is what `Retok` says of
every place of the line. -/
def ParsedLine.ComesBack (upper : Bool) (line : ParsedLine) : Prop :=
  line.tokenBytes.head? ≠ some 0x20
    ∧ Retok upper false false line.tokenBytes

section Lines

variable {upper : Bool} {line : ParsedLine}

theorem linesText_explicit (expected : Nat) (lines : List ParsedLine) :
    linesText .explicit expected lines
      = lines.flatMap fun l => l.text ++ [0x0A] := by
  induction lines with
  | nil => rfl
  | cons line lines ih =>
    rw [linesText, List.flatMap_cons, appendLinePrefix, ih]
    rfl

/-- The text of such a line is made of printable characters. -/
theorem ParsedLine.WellFormed.isPrintable_text (h : line.WellFormed)
    (hre : Retok upper false false line.tokenBytes) :
    ∀ c ∈ line.text,
      isPrintable c = true ∧ (upper = true → isLower c = false) := by
  rw [ParsedLine.text, List.forall_mem_append, List.forall_mem_append]
  refine ⟨⟨fun c hc => ?_, ?_⟩,
    isPrintable_detokenizeLoop upper false false h.bytes hre⟩
  · obtain ⟨hprint, hsmall, -⟩ :=
      isPrintable_of_isDigit (isDigit_of_mem_decimal hc)
    exact ⟨hprint, fun _ => hsmall⟩
  · rw [List.forall_mem_singleton]
    exact ⟨rfl, fun _ => rfl⟩

/-- The text of such lines is read line by line. -/
theorem getLines_flatMap_text {lines : List ParsedLine}
    (h : ∀ l ∈ lines, l.WellFormed)
    (hre : ∀ l ∈ lines, Retok upper false false l.tokenBytes) :
    getLines (lines.flatMap fun l => l.text ++ [0x0A])
      = lines.map ParsedLine.text := by
  induction lines with
  | nil => rfl
  | cons line lines ih =>
    rw [List.forall_mem_cons] at h hre
    have hnewline : (0x0A : UInt8) ∉ line.text := fun hmem =>
      nomatch (h.1.isPrintable_text hre.1 _ hmem).1
    rw [List.flatMap_cons, getLines_line hnewline, ih h.2 hre.2,
      List.map_cons]

/-- What is read of the text of such a line. -/
theorem ParsedLine.WellFormed.parseLine (h : line.WellFormed)
    (hre : Retok upper false false line.tokenBytes) (index : Nat) :
    Basic.parseLine .explicit upper index line.text
      = some ⟨line.lineNumber, tokenizeLineContent
        ((detokenizeLineBytes line.tokenBytes).dropWhile isSpace) upper⟩ := by
  have hne : line.text ≠ [] := by
    rw [ParsedLine.text]
    simp
  rw [Basic.parseLine, sanitizeAndTruncateLine_eq_self
    (h.isPrintable_text hre) h.length_le]
  dsimp only
  rw [if_neg hne, ParsedLine.text, parseExplicitLine_decimal h.number_le]
  rfl

/-- **A line that comes back is read as it was.** -/
theorem ParsedLine.WellFormed.parseLine_eq_self (h : line.WellFormed)
    (hback : line.ComesBack upper) (index : Nat) :
    Basic.parseLine .explicit upper index line.text = some line := by
  obtain ⟨hhead, hre⟩ := hback
  have hkeep : (detokenizeLineBytes line.tokenBytes).dropWhile isSpace
      = detokenizeLineBytes line.tokenBytes := by
    exact dropWhile_isSpace_eq_self (fun c hc =>
      (isPrintable_detokenizeLoop upper false false h.bytes hre c hc).1)
      (head?_detokenizeLoop h.bytes hhead)
  rw [h.parseLine hre, hkeep]
  refine congrArg some ?_
  rw [tokenizeLineContent, detokenizeLineBytes,
    (tokenizeLoop_detokenizeLoop_iff upper false false h.bytes).mpr hre]

/-- What is read of the text of such lines. -/
theorem parseLines_map_text {lines : List ParsedLine} {f : ParsedLine →
      ParsedLine} (h : ∀ l ∈ lines, ∀ index,
      parseLine .explicit upper index l.text = some (f l)) (index : Nat) :
    parseLines .explicit upper index (lines.map ParsedLine.text)
      = lines.map f := by
  induction lines generalizing index with
  | nil => rfl
  | cons line lines ih =>
    rw [List.forall_mem_cons] at h
    rw [List.map_cons, parseLines, h.1, ih h.2]
    rfl

end Lines

/-! ## The round trip -/

section RoundTrip

variable {sort : List ParsedLine → List ParsedLine}
  (hsort : SortsByNumber sort) (ty : Apple2Type) {ram : Ram}
  {lines : List ParsedLine}

/-- The program is written out whole: `VARTAB` is not in the middle of it. -/
theorem HasProgram.end_le_exportEnd_iff (h : HasProgram ram lines)
    (hfits : linesEnd (readZeroPage16 ram addrTxttab) lines + 2
      < readZeroPage16 ram addrHimem) :
    linesEnd (readZeroPage16 ram addrTxttab) lines ≤ exportEnd ram
      ↔ readZeroPage16 ram addrVartab ≤ readZeroPage16 ram addrTxttab
        ∨ linesEnd (readZeroPage16 ram addrTxttab) lines
          ≤ readZeroPage16 ram addrVartab := by
  have hhimem := h.himem.2
  unfold exportEnd
  dsimp only
  rw [Nat.min_eq_left hhimem]
  split
  · next hvartab =>
    simp only [Bool.and_eq_true, decide_eq_true_eq] at hvartab
    omega
  · next hvartab =>
    simp only [Bool.and_eq_true, decide_eq_true_eq] at hvartab
    omega

theorem HasProgram.number_le (h : HasProgram ram lines) :
    ∀ l ∈ lines, l.lineNumber ≤ maxLineNumber :=
  fun l hl => (h.wellFormed l hl).number_le

/-- The text of a program whose lines tokenize back, line by line. -/
theorem HasProgram.getLines_export (h : HasProgram ram lines) {upper : Bool}
    (hre : ∀ l ∈ lines, Retok upper false false l.tokenBytes) :
    getLines (basicSyncExportToString .explicit ram)
      = (emitted (exportEnd ram) (readZeroPage16 ram addrTxttab) lines).map
        ParsedLine.text := by
  have hsub := (emitted_sublist (exportEnd ram)
    (readZeroPage16 ram addrTxttab) lines).subset
  rw [basicSyncExportToString_of_holds .explicit h.holds h.number_le
      (Nat.lt_of_lt_of_le (Nat.lt_add_of_pos_right (by decide)) h.end_le),
    linesText_explicit]
  exact getLines_flatMap_text (fun l hl => h.wellFormed l (hsub hl))
    fun l hl => hre l (hsub hl)

include hsort in
/-- A program that comes back is what the import lays down. -/
theorem HasProgram.importLines_eq (h : HasProgram ram lines)
    (hwhole : lines = [] ∨ linesEnd (readZeroPage16 ram addrTxttab) lines
      ≤ exportEnd ram)
    (hfits : lines = [] ∨ linesEnd (readZeroPage16 ram addrTxttab) lines + 2
      < readZeroPage16 ram addrHimem)
    (hback : ∀ l ∈ lines, l.ComesBack (isUppercaseOnlyMachine ty)) :
    importLines sort ty .explicit (basicSyncExportToString .explicit ram) ram
      = lines := by
  have hparse := parseLines_map_text (f := id) (fun l hl index =>
    (h.wellFormed l hl).parseLine_eq_self (hback l hl) index) 1
  rw [importLines, h.getLines_export fun l hl => (hback l hl).2,
    (emitted_eq_self_iff _ _ _).mpr hwhole, hparse, List.map_id,
    hsort.sort_eq_self h.ascending, (importHimem_eq h.himem).2,
    importTxttab_eq h.himem h.txttab]
  exact (injected_eq_self_iff _ _ _).mpr hfits

include hsort in
/-- What is laid down is not more than what is written out. -/
theorem HasProgram.length_importLines_le (h : HasProgram ram lines)
    (hre : ∀ l ∈ lines,
      Retok (isUppercaseOnlyMachine ty) false false l.tokenBytes) :
    (importLines sort ty .explicit (basicSyncExportToString .explicit ram)
        ram).length
      ≤ (emitted (exportEnd ram) (readZeroPage16 ram addrTxttab)
        lines).length := by
  have hsub := (emitted_sublist (exportEnd ram)
    (readZeroPage16 ram addrTxttab) lines).subset
  have hparse := parseLines_map_text (fun l hl index =>
    (h.wellFormed l (hsub hl)).parseLine (hre l (hsub hl)) index) 1
  rw [importLines, h.getLines_export hre, hparse]
  refine Nat.le_trans (injected_sublist _ _ _).length_le (Nat.le_of_eq ?_)
  rw [(hsort.perm _).length_eq, List.length_map]

/-- A program in RAM is the program read from it. -/
theorem HasProgram.programLines_eq (h : HasProgram ram lines) {ram' : Ram}
    (htxttab : readZeroPage16 ram' addrTxttab
      = readZeroPage16 ram addrTxttab)
    (hsame : ∀ a, readZeroPage16 ram addrTxttab ≤ a →
      a < linesEnd (readZeroPage16 ram addrTxttab) lines + 2 →
      ram' a = ram a) : programLines ram' = lines := by
  have hlen := length_linesImage (readZeroPage16 ram addrTxttab) lines
  have hcount := length_le_linesEnd (readZeroPage16 ram addrTxttab) lines
  have hend := h.end_le
  rw [programLines, htxttab]
  refine chainLines_of_holds (h.holds.congr fun a hlo hhi => hsame a hlo ?_)
    (fun l hl => Nat.lt_of_le_of_lt (h.number_le l hl) (by decide))
    (by omega) (by omega)
  rw [List.length_append] at hhi
  simp only [List.length_cons, List.length_nil] at hhi
  omega

include hsort in
/-- **Exactly which programs an export and an import leave as they were.** An
address is compared from the beginning of the program up to its final link, so
the pointers behind it may change.

The first part is about room. A program without lines needs none; any other
has to end below the guest's top of memory, and where the export stops reading
must not lie within it. The second is about each line alone. That the links
and the numbers are right, and that the bytes of a line are keywords and
characters, is `HasProgram`; which ones they are is arbitrary. -/
theorem roundTrip_iff (h : HasProgram ram lines) :
    (∀ a, readZeroPage16 ram addrTxttab ≤ a →
      a < linesEnd (readZeroPage16 ram addrTxttab) lines + 2 →
      basicSyncImportFromString sort ty .explicit
        (basicSyncExportToString .explicit ram) ram a = ram a)
    ↔ (lines = []
        ∨ linesEnd (readZeroPage16 ram addrTxttab) lines + 2
            < readZeroPage16 ram addrHimem
          ∧ (readZeroPage16 ram addrVartab ≤ readZeroPage16 ram addrTxttab
            ∨ linesEnd (readZeroPage16 ram addrTxttab) lines
              ≤ readZeroPage16 ram addrVartab))
      ∧ ∀ l ∈ lines, l.ComesBack (isUppercaseOnlyMachine ty) := by
  have htxttab := importTxttab_eq h.himem h.txttab
  have hhimem := (importHimem_eq h.himem).2
  constructor
  · intro hsame
    have hlines : importLines sort ty .explicit
        (basicSyncExportToString .explicit ram) ram = lines := by
      rw [← programLines_basicSyncImportFromString ty .explicit _ ram hsort]
      refine h.programLines_eq ?_ hsame
      rw [txttab_basicSyncImportFromString, htxttab]
    -- what is laid down has been read from text
    have hback : ∀ l ∈ lines, l.ComesBack (isUppercaseOnlyMachine ty) := by
      intro l hl
      rw [← hlines] at hl
      obtain ⟨i, raw, hparse⟩ :=
        exists_of_mem_importLines ty .explicit _ ram hsort hl
      obtain ⟨-, stmt, hprint, htokens, hhead⟩ := exists_of_parseLine hparse
      rw [ParsedLine.ComesBack, htokens]
      exact ⟨head?_tokenizeLoop _ hprint (hhead rfl),
        retok_tokenizeLoop _ false false 0 hprint⟩
    refine ⟨?_, hback⟩
    by_cases hnil : lines = []
    · exact .inl hnil
    have hfits : linesEnd (readZeroPage16 ram addrTxttab) lines + 2
        < readZeroPage16 ram addrHimem := by
      have hlt : linesEnd (importTxttab ram) (importLines sort ty .explicit
          (basicSyncExportToString .explicit ram) ram) + 2
          < importHimem ram :=
        linesEnd_injected_lt (by
          show importLines sort ty .explicit _ ram ≠ []
          rwa [hlines])
      rwa [hlines, htxttab, hhimem] at hlt
    refine .inr ⟨hfits, (h.end_le_exportEnd_iff hfits).mp ?_⟩
    have hlength := h.length_importLines_le hsort ty
      fun l hl => (hback l hl).2
    rw [hlines] at hlength
    have hemitted := (emitted_sublist (exportEnd ram)
      (readZeroPage16 ram addrTxttab) lines).eq_of_length_le hlength
    exact ((emitted_eq_self_iff _ _ _).mp hemitted).resolve_left hnil
  · rintro ⟨hpointers, hback⟩ a hlo hhi
    have hlines := h.importLines_eq hsort ty
      (hpointers.imp_right fun hin => (h.end_le_exportEnd_iff hin.1).mpr hin.2)
      (hpointers.imp_right And.left) hback
    have hheld := holds_basicSyncImportFromString sort ty .explicit
      (basicSyncExportToString .explicit ram) ram
    rw [hlines, htxttab] at hheld
    refine h.holds.eq_of_holds hheld hlo ?_
    have hlen := length_linesImage (readZeroPage16 ram addrTxttab) lines
    rw [List.length_append]
    simp only [List.length_cons, List.length_nil]
    omega

end RoundTrip

/-! ## A program that comes back and one that does not -/

/-- RAM with the lines of a program from `$0801` on and `HIMEM` at
`$9600`. -/
def programRam (lines : List ParsedLine) : Ram :=
  pokes (writeZeroPage16 (writeZeroPage16 (writeZeroPage16 (fun _ => 0)
      addrTxttab defaultTxttab) addrHimem defaultHimem)
      addrVartab (linesEnd defaultTxttab lines + 2))
    defaultTxttab (linesImage defaultTxttab lines ++ [0, 0])

theorem readZeroPage16_programRam (lines : List ParsedLine) :
    readZeroPage16 (programRam lines) addrTxttab = defaultTxttab
      ∧ readZeroPage16 (programRam lines) addrHimem = defaultHimem := by
  have hlow : ∀ {a : Nat}, a + 1 < defaultTxttab →
      readZeroPage16 (programRam lines) a
        = readZeroPage16 (writeZeroPage16 (writeZeroPage16 (writeZeroPage16
          (fun _ => 0) addrTxttab defaultTxttab) addrHimem defaultHimem)
          addrVartab (linesEnd defaultTxttab lines + 2)) a := fun h =>
    readZeroPage16_congr (pokes_of_lt _ _ (Nat.lt_of_succ_lt h))
      (pokes_of_lt _ _ h)
  constructor
  · rw [hlow (by decide),
      readZeroPage16_writeZeroPage16_of_ne _ _ (by decide),
      readZeroPage16_writeZeroPage16_of_ne _ _ (by decide)]
    exact readZeroPage16_writeZeroPage16 _ _ (by decide)
  · rw [hlow (by decide),
      readZeroPage16_writeZeroPage16_of_ne _ _ (by decide)]
    exact readZeroPage16_writeZeroPage16 _ _ (by decide)

/-- Well-formed lines make a well-formed program. -/
theorem hasProgram_programRam {lines : List ParsedLine}
    (hlines : ∀ l ∈ lines, l.WellFormed)
    (hascending : lines.Pairwise fun a b => a.lineNumber < b.lineNumber)
    (hend : linesEnd defaultTxttab lines + 2 ≤ 0x10000) :
    HasProgram (programRam lines) lines := by
  obtain ⟨htxttab, hhimem⟩ := readZeroPage16_programRam lines
  refine ⟨?_, ?_, ?_, ?_, hascending, hlines⟩
  · rw [hhimem]
    decide
  · rw [htxttab, hhimem]
    decide
  · rw [htxttab]
    exact fun i hi => pokes_add _ _ hi
  · rw [htxttab]
    exact hend

/-- `10 FORI=1TOB`, as it is kept in RAM. -/
def forLine : ParsedLine := ⟨10, [0x81, 0x49, 0xD0, 0x31, 0xC1, 0x42]⟩

/-- `10 FORI=ATOB`, as it is kept in RAM. -/
def forNameLine : ParsedLine := ⟨10, [0x81, 0x49, 0xD0, 0x41, 0xC1, 0x42]⟩

/-- `10 FORI=1TOB` comes back: its `TO` is where it was. -/
theorem roundTrip_iff_forLine :
    basicSyncImportFromString sortLines .apple2e .explicit
      (basicSyncExportToString .explicit (programRam [forLine]))
      (programRam [forLine]) 0x0809 = programRam [forLine] 0x0809 :=
  (roundTrip_iff sortsByNumber_sortLines .apple2e
    (hasProgram_programRam
      (List.forall_mem_singleton.mpr
        ⟨by decide, by decide, by decide +kernel, by decide, by decide⟩)
      (List.pairwise_singleton _ _) (by decide))).mpr
    ⟨.inr (by decide +kernel),
      List.forall_mem_singleton.mpr ⟨by decide, by decide +kernel⟩⟩
    0x0809 (by decide +kernel) (by decide +kernel)

/-- **A program that does not come back**: `FORI=ATOB` is read as `FOR`,
`I`, `=`, `AT`, `O`, `B`, and the `A` is gone. -/
theorem not_roundTrip_forNameLine :
    HasProgram (programRam [forNameLine]) [forNameLine]
    ∧ ¬ ∀ a, readZeroPage16 (programRam [forNameLine]) addrTxttab ≤ a →
      a < linesEnd (readZeroPage16 (programRam [forNameLine]) addrTxttab)
        [forNameLine] + 2 →
      basicSyncImportFromString sortLines .apple2e .explicit
        (basicSyncExportToString .explicit (programRam [forNameLine]))
        (programRam [forNameLine]) a = programRam [forNameLine] a := by
  refine ⟨hasProgram_programRam (List.forall_mem_singleton.mpr
      ⟨by decide, by decide, by decide +kernel, by decide, by decide⟩)
    (List.pairwise_singleton _ _) (by decide), fun hsame => ?_⟩
  exact absurd (hsame 0x0808 (by decide +kernel) (by decide +kernel))
    (by decide +kernel)

end LinApple.Basic
