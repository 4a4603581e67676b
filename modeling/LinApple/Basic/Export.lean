import LinApple.Basic.Import
import LinApple.Basic.Lines

/-!
# What an export writes

The lines of a program lie in RAM one after another, each with a link to the
next (`Holds`). An export writes those that end at or before the address it
reads up to (`exportLoop_of_holds`). The text is later read line by line, and
an empty line gives nothing (`getLines_line`, `parseLines_replicate`).
`programLines` is what all this is about: the numbers and the statements of
the program in RAM.
-/

namespace LinApple.Basic

open ByteMap

/-! ## Bytes that lie in RAM -/

section Holds

variable {ram : Ram} {addr : Nat} {data : Text}

/-- A word that lies in RAM is read. -/
theorem readZeroPage16_of_holds {v : Nat} (h : Holds ram addr (word v))
    (hv : v < 0x10000) : readZeroPage16 ram addr = v :=
  readZeroPage16_word ram addr (h 0 (by simp)) (h 1 (by simp)) hv

/-- Bytes that lie in RAM are read. -/
theorem readBytes_of_holds (h : Holds ram addr data) :
    readBytes ram addr (addr + data.length) = data := by
  rw [readBytes, Nat.add_sub_cancel_left]
  exact holds_iff_peeks.mp h

end Holds

/-! ## The lines of a program in RAM -/

/-- The lines of a chain that starts at `addr`: a link of zero ends it. Two
lines never begin at one place, and `fuel` lines are enough where they are
not fewer than those of the chain. -/
def chainLines (ram : Ram) : (fuel addr : Nat) → List ParsedLine
  | 0, _ => []
  | fuel + 1, addr =>
    let link := readZeroPage16 ram addr
    if link = 0 then []
    else
      ⟨readZeroPage16 ram (addr + 2), readBytes ram (addr + 4) (link - 1)⟩
        :: chainLines ram fuel link

/-- **The program in RAM**: the numbers and the statements of the lines from
`TXTTAB` on. -/
def programLines (ram : Ram) : List ParsedLine :=
  chainLines ram 0x10000 (readZeroPage16 ram addrTxttab)

theorem size_pos (line : ParsedLine) : 5 ≤ line.size := by
  rw [ParsedLine.size]
  omega

theorem length_le_linesEnd (addr : Nat) (lines : List ParsedLine) :
    addr + lines.length ≤ linesEnd addr lines := by
  induction lines generalizing addr with
  | nil => exact Nat.le_refl _
  | cons line lines ih =>
    have hsize := size_pos line
    have hih := ih (addr + line.size)
    rw [linesEnd_cons, List.length_cons]
    omega

section Chain

variable {ram : Ram} {addr : Nat} {line : ParsedLine}
  {lines : List ParsedLine}

/-- The parts of a line that lies in RAM. -/
theorem parts_of_holds (h : Holds ram addr (line.image addr))
    (hnum : line.lineNumber < 0x10000) (hend : addr + line.size < 0x10000) :
    readZeroPage16 ram addr = addr + line.size
      ∧ readZeroPage16 ram (addr + 2) = line.lineNumber
      ∧ readBytes ram (addr + 4) (addr + line.size)
        = line.tokenBytes ++ [0]
      ∧ readBytes ram (addr + 4) (addr + line.size - 1)
        = line.tokenBytes := by
  rw [ParsedLine.image, List.append_assoc, List.append_assoc, holds_append,
    holds_append] at h
  obtain ⟨hlink, hnumber, hbytes⟩ := h
  rw [length_word, length_word] at hbytes
  refine ⟨readZeroPage16_of_holds hlink hend,
    readZeroPage16_of_holds hnumber hnum, ?_, ?_⟩
  · rw [← readBytes_of_holds hbytes, List.length_append, List.length_singleton,
      ParsedLine.size]
    congr 1
    omega
  · rw [← readBytes_of_holds (holds_append.mp hbytes).1, ParsedLine.size]
    congr 1
    omega

/-- A chain that lies in RAM starts with its first line. -/
theorem holds_linesImage_cons :
    Holds ram addr (linesImage addr (line :: lines) ++ [0, 0])
      ↔ Holds ram addr (line.image addr) ∧ Holds ram (addr + line.size)
        (linesImage (addr + line.size) lines ++ [0, 0]) := by
  rw [linesImage, List.append_assoc, holds_append, length_image]

/-- **A chain that lies in RAM is the program read from it.** -/
theorem chainLines_of_holds
    (h : Holds ram addr (linesImage addr lines ++ [0, 0]))
    (hnum : ∀ l ∈ lines, l.lineNumber < 0x10000)
    (hend : linesEnd addr lines < 0x10000) {fuel : Nat}
    (hfuel : lines.length < fuel) :
    chainLines ram fuel addr = lines := by
  induction lines generalizing addr fuel with
  | nil =>
    obtain ⟨fuel, rfl⟩ := Nat.exists_eq_add_one.mpr hfuel
    have hlink : readZeroPage16 ram addr = 0 :=
      readZeroPage16_of_holds (v := 0) h (by decide)
    rw [chainLines]
    exact if_pos hlink
  | cons line lines ih =>
    obtain ⟨fuel, rfl⟩ := Nat.exists_eq_add_one.mpr (Nat.zero_lt_of_lt hfuel)
    rw [linesEnd_cons] at hend
    have hlen := length_le_linesEnd (addr + line.size) lines
    obtain ⟨hline, hrest⟩ := holds_linesImage_cons.mp h
    obtain ⟨hlink, hnumber, -, hbytes⟩ := parts_of_holds hline
      (hnum line (List.mem_cons_self ..)) (by omega)
    have hsize := size_pos line
    rw [chainLines, hlink, if_neg (by omega), hnumber, hbytes,
      ih hrest (fun l hl => hnum l (List.mem_cons_of_mem _ hl)) hend
        (Nat.lt_of_succ_lt_succ hfuel)]

end Chain

/-! ## Exporting a chain -/

/-- The lines that are written out: those that end at or before
`programEnd`, up to the first that does not. -/
def emitted (programEnd : Nat) : (addr : Nat) → List ParsedLine →
    List ParsedLine
  | _, [] => []
  | addr, line :: lines =>
    if programEnd < addr + line.size then []
    else line :: emitted programEnd (addr + line.size) lines

/-- The text of lines, the next of which positional mode expects to have
the number `expected`. -/
def linesText (mode : BasicLineMode) : (expected : Nat) → List ParsedLine →
    Text
  | _, [] => []
  | expected, line :: lines =>
    (appendLinePrefix mode line.lineNumber expected).1
      ++ detokenizeLineBytes line.tokenBytes ++ [0x0A]
      ++ linesText mode (appendLinePrefix mode line.lineNumber expected).2
        lines

theorem emitted_sublist (programEnd addr : Nat) (lines : List ParsedLine) :
    emitted programEnd addr lines <+: lines := by
  induction lines generalizing addr with
  | nil => exact List.prefix_rfl
  | cons line lines ih =>
    rw [emitted]
    split
    · exact List.nil_prefix
    · exact (List.prefix_cons_inj line).mpr (ih _)

/-- All the lines are written out exactly when the last of them is. -/
theorem emitted_eq_self_iff (programEnd addr : Nat)
    (lines : List ParsedLine) :
    emitted programEnd addr lines = lines
      ↔ lines = [] ∨ linesEnd addr lines ≤ programEnd := by
  induction lines generalizing addr with
  | nil => exact iff_of_true rfl (.inl rfl)
  | cons line lines ih =>
    rw [emitted, linesEnd_cons]
    have hend : addr + line.size ≤ linesEnd (addr + line.size) lines :=
      Nat.le_add_right _ _
    split
    · refine iff_of_false (fun h => nomatch h) ?_
      rintro (h | h)
      · exact nomatch h
      · omega
    · rw [List.cons_inj_right, ih]
      constructor
      · rintro (h | h)
        · refine .inr ?_
          rw [h, linesEnd, List.map_nil, List.sum_nil]
          omega
        · exact .inr h
      · rintro (h | h)
        · exact nomatch h
        · exact .inr h

/-- The zero at the end of a line ends it, if nothing before does. -/
theorem detokenizeLoop_append_zero (q r : Bool) (line : Text) :
    detokenizeLoop q r (line ++ [0]) = detokenizeLoop q r line := by
  induction line generalizing q r with
  | nil => rfl
  | cons b line ih =>
    rw [List.cons_append, detokenizeLoop, detokenizeLoop]
    simp only [ih]

/-- **An export writes the lines that lie in RAM**, up to the first that
ends behind the address it reads up to. -/
theorem exportLoop_of_holds (mode : BasicLineMode) (programEnd : Nat)
    {ram : Ram} {addr : Nat} {lines : List ParsedLine}
    (h : Holds ram addr (linesImage addr lines ++ [0, 0]))
    (hnum : ∀ l ∈ lines, l.lineNumber ≤ maxLineNumber)
    (hend : linesEnd addr lines < 0x10000) {fuel : Nat}
    (hfuel : lines.length < fuel) (expected : Nat) :
    exportLoop mode programEnd ram fuel addr expected
      = linesText mode expected (emitted programEnd addr lines) := by
  -- on the lines that lie in memory; the link of each leads to the next, and a line that ends past
  -- the program's end is left out with all behind it
  induction lines generalizing addr fuel expected with
  | nil =>
    obtain ⟨fuel, rfl⟩ := Nat.exists_eq_add_one.mpr hfuel
    have hlink : readZeroPage16 ram addr = 0 :=
      readZeroPage16_of_holds (v := 0) h (by decide)
    rw [exportLoop, hlink]
    split
    · rfl
    · rfl
  | cons line lines ih =>
    obtain ⟨fuel, rfl⟩ := Nat.exists_eq_add_one.mpr (Nat.zero_lt_of_lt hfuel)
    rw [linesEnd_cons] at hend
    have hlen := length_le_linesEnd (addr + line.size) lines
    have hsize := size_pos line
    have hmax := hnum line (List.mem_cons_self ..)
    obtain ⟨hline, hrest⟩ := holds_linesImage_cons.mp h
    obtain ⟨hlink, hnumber, hbytes, -⟩ := parts_of_holds hline
      (by rw [maxLineNumber] at hmax; omega) (by omega)
    rw [exportLoop, hlink, hnumber, emitted]
    by_cases hout : programEnd < addr + line.size
    · rw [if_pos hout]
      simp [hout, linesText]
    · rw [if_neg hout, if_neg (by omega), if_neg (by simp; omega),
        if_neg (by omega), linesText, hbytes]
      dsimp only
      rw [detokenizeLineBytes, detokenizeLoop_append_zero,
        ih hrest (fun l hl => hnum l (List.mem_cons_of_mem _ hl)) hend
          (Nat.lt_of_succ_lt_succ hfuel)]
      rfl

/-- **An export** of a program that lies in RAM. -/
theorem basicSyncExportToString_of_holds (mode : BasicLineMode) {ram : Ram}
    {lines : List ParsedLine}
    (h : Holds ram (readZeroPage16 ram addrTxttab)
      (linesImage (readZeroPage16 ram addrTxttab) lines ++ [0, 0]))
    (hnum : ∀ l ∈ lines, l.lineNumber ≤ maxLineNumber)
    (hend : linesEnd (readZeroPage16 ram addrTxttab) lines < 0x10000) :
    basicSyncExportToString mode ram = linesText mode 1
      (emitted (exportEnd ram) (readZeroPage16 ram addrTxttab) lines) := by
  have hfuel : exportEnd ram ≤ readZeroPage16 ram addrTxttab
      + (exportEnd ram + (lines.length + 1)) := by omega
  rw [basicSyncExportToString, exportLoop_eq_of_le mode _ ram
    (Nat.le_add_left _ _) hfuel]
  exact exportLoop_of_holds mode _ h hnum hend (by omega) 1

/-! ## The program an import leaves -/

section Import

variable (sort : List ParsedLine → List ParsedLine) (ty : Apple2Type)
  (mode : BasicLineMode) (text : Text) (ram : Ram)

/-- The lines an import lays down lie in RAM. -/
theorem holds_basicSyncImportFromString :
    Holds (basicSyncImportFromString sort ty mode text ram)
      (importTxttab ram)
      (linesImage (importTxttab ram) (importLines sort ty mode text ram)
        ++ [0, 0]) := by
  have h : Holds (basicSyncImportFromString sort ty mode text ram)
      (importTxttab ram)
      (linesImage (importTxttab ram) (importLines sort ty mode text ram)
        ++ ([0, 0] ++ [0])) :=
    fun i hi => ram_basicSyncImportFromString sort ty mode text ram hi
  rw [← List.append_assoc, holds_append] at h
  exact h.1

variable {sort} in
/-- Every line an import lays down is read from a line of the text. -/
theorem exists_of_mem_importLines (hsort : SortsByNumber sort)
    {line : ParsedLine} (h : line ∈ importLines sort ty mode text ram) :
    ∃ i raw, parseLine mode (isUppercaseOnlyMachine ty) i raw
      = some line :=
  exists_of_mem_parseLines ((hsort.perm _).mem_iff.mp
    ((injected_sublist _ _ _).subset h))

variable {sort} in
/-- **The program in RAM after an import** is the lines it lays down. -/
theorem programLines_basicSyncImportFromString (hsort : SortsByNumber sort) :
    programLines (basicSyncImportFromString sort ty mode text ram)
      = importLines sort ty mode text ram := by
  have hend := (importEnd_bounds sort ty mode text ram).2
  have hlen := length_le_linesEnd (importTxttab ram)
    (importLines sort ty mode text ram)
  rw [importEnd] at hend
  rw [programLines, txttab_basicSyncImportFromString]
  refine chainLines_of_holds
    (holds_basicSyncImportFromString sort ty mode text ram) (fun l hl => ?_) (by omega) (by omega)
  obtain ⟨i, raw, hline⟩ :=
    exists_of_mem_importLines ty mode text ram hsort hl
  exact Nat.lt_of_le_of_lt (exists_of_parseLine hline).1 (by decide)

end Import

/-! ## Reading the text back -/

/-- A line of text is read up to its end. -/
theorem getLines_line {line : Text} (h : (0x0A : UInt8) ∉ line)
    (text : Text) :
    getLines (line ++ [0x0A] ++ text) = line :: getLines text := by
  suffices hfrom : ∀ before, getLinesFrom before (line ++ [0x0A] ++ text)
      = (before ++ line) :: getLines text from hfrom []
  induction line with
  | nil =>
    intro before
    rw [List.append_nil]
    rfl
  | cons c line ih =>
    intro before
    rw [List.cons_append, List.cons_append, getLinesFrom,
      if_neg (fun hc => h (List.mem_cons.mpr (.inl hc.symm))),
      ih (fun hmem => h (List.mem_cons_of_mem _ hmem)), List.append_assoc]
    rfl

/-- Ends of lines are empty lines. -/
theorem getLines_replicate (n : Nat) (text : Text) :
    getLines (List.replicate n 0x0A ++ text)
      = List.replicate n [] ++ getLines text := by
  induction n with
  | zero => rfl
  | succ n ih =>
    rw [List.replicate_succ, List.replicate_succ, List.cons_append,
      List.cons_append, ← ih]
    exact @getLines_line [] List.not_mem_nil _

/-- Empty lines are no lines of the program. -/
theorem parseLines_replicate (mode : BasicLineMode) (upper : Bool)
    (index n : Nat) (rawLines : List Text) :
    parseLines mode upper index (List.replicate n [] ++ rawLines)
      = parseLines mode upper (index + n) rawLines := by
  induction n generalizing index with
  | zero => rfl
  | succ n ih =>
    have hempty : parseLines mode upper index
        ([] :: (List.replicate n [] ++ rawLines))
        = parseLines mode upper (index + 1)
          (List.replicate n [] ++ rawLines) := rfl
    rw [List.replicate_succ, List.cons_append, hempty, ih, Nat.add_assoc,
      Nat.add_comm 1 n]

end LinApple.Basic
