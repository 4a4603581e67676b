import LinApple.Basic.Export

/-!
# Positional mode

In positional mode the number of a line is its place in the file, and a number at its start that
says the same is left out. A line is written out without one, so what is left of it may start with
such a number again, or be nothing at all: `10 10 PRINT` and `10 ` in the tenth line of a file are
read once as `10 PRINT` and as nothing, and then as `PRINT` and as no line.
`positional_stable_iff` says that nothing else goes wrong.

The two programs that are compared are those in RAM, after the import of a text and after
the import of what is exported then: their lines, with number and statement each (`programLines`).
What the first import leaves is not any program. Its statements come from a text, so they have
been through the tokenizer once, and the text that is written for them is tokenized to the same
bytes again. That is why nothing about keywords shows in the condition here, as it does for
programs that were typed in.

The condition is about the lines of the text, one by one, and about `parse_positional_line` alone
(`StableLine`): what it leaves of the line must not be empty, and it must leave that as it is when
it comes upon it at the same place. Only the lines that reach RAM count, and a line reaches it if
it is not empty and fits under `HIMEM` with those before it. A line that is left out for want of
room ends the import, so it takes the lines behind it along, but not the numbers of those before:
each number is a place in the file, and the export keeps the places with blank lines.
-/

namespace LinApple.Basic

/-! ## Texts that differ in case -/

section Case

variable {text text' : Text}

theorem toUpper_of_isDigit {c : UInt8} (h : isDigit c = true) :
    toUpper c = c := by
  grind [isDigit, toUpper]

/-- Texts that differ in case have the digits they start with in common. -/
theorem takeWhile_isDigit_congr
    (h : text.map toUpper = text'.map toUpper) :
    text.takeWhile isDigit = text'.takeWhile isDigit
      ∧ (text.dropWhile isDigit).map toUpper
        = (text'.dropWhile isDigit).map toUpper := by
  induction text generalizing text' with
  | nil =>
    rw [List.map_nil, eq_comm, List.map_eq_nil_iff] at h
    rw [h]
    exact ⟨rfl, rfl⟩
  | cons c text ih =>
    cases text' with
    | nil => exact nomatch h
    | cons c' text' =>
      obtain ⟨hc, htext⟩ := List.cons_eq_cons.mp h
      have hsame : isDigit c = isDigit c' := by
        rw [← (isSpace_toUpper c).2, ← (isSpace_toUpper c').2, hc]
      cases hdigit : isDigit c with
      | false =>
        have hdigit' := hsame.symm.trans hdigit
        simp only [List.takeWhile_cons, List.dropWhile_cons, hdigit, hdigit',
          Bool.false_eq_true, if_false, true_and]
        exact h
      | true =>
        have hdigit' := hsame.symm.trans hdigit
        have heq : c = c' := by
          rw [← toUpper_of_isDigit hdigit, hc, toUpper_of_isDigit hdigit']
        simp only [List.takeWhile_cons, List.dropWhile_cons, hdigit',
          if_true, heq, List.cons_inj_right]
        exact ih htext

/-- Texts that differ in case start with a space both or neither. -/
theorem head?_any_isSpace_congr (h : text.map toUpper = text'.map toUpper) :
    text.head?.any isSpace = text'.head?.any isSpace := by
  cases text with
  | nil =>
    rw [List.map_nil, eq_comm, List.map_eq_nil_iff] at h
    rw [h]
  | cons c text =>
    cases text' with
    | nil => exact nomatch h
    | cons c' text' =>
      have hc := (List.cons_eq_cons.mp h).1
      show isSpace c = isSpace c'
      rw [← (isSpace_toUpper c).1, ← (isSpace_toUpper c').1, hc]

end Case

/-! ## A number at the start of a line -/

/-- A line that starts with its own number, and a space after it. -/
def carriesNumber (text : Text) (index : Nat) : Bool :=
  text.takeWhile isDigit ≠ [] && (text.dropWhile isDigit).head?.any isSpace
    && lineNumberValue (text.takeWhile isDigit) = index

/-- **What `parse_positional_line` does**: it leaves out the number of a
line that carries it. -/
theorem parsePositionalLine_eq {text : Text} {index : Nat}
    (h : index ≤ maxLineNumber) : parsePositionalLine text index
      = some (index, if carriesNumber text index = true
          then (text.dropWhile isDigit).dropWhile isSpace else text) := by
  unfold parsePositionalLine
  dsimp only
  rw [if_neg (Nat.not_lt.mpr h)]
  split
  · next hnone =>
    simp only [Bool.or_eq_true, decide_eq_true_eq, Bool.not_eq_true']
      at hnone
    have hno : carriesNumber text index = false := by
      rw [carriesNumber]
      rcases hnone with h | h
      · simp [h]
      · simp [h]
    rw [hno]
    rfl
  · next hsome =>
    simp only [Bool.or_eq_true, decide_eq_true_eq, Bool.not_eq_true',
      not_or, Bool.not_eq_false] at hsome
    split
    · next hvalue =>
      have hno : carriesNumber text index = false := by
        simp [carriesNumber, hvalue]
      rw [hno]
      rfl
    · next hvalue =>
      have hyes : carriesNumber text index = true := by
        rw [carriesNumber, hsome.2, decide_eq_true hsome.1,
          decide_eq_true (not_not.mp hvalue)]
        rfl
      rw [hyes]
      rfl

theorem carriesNumber_congr {text text' : Text}
    (h : text.map toUpper = text'.map toUpper) (index : Nat) :
    carriesNumber text index = carriesNumber text' index := by
  obtain ⟨htake, hdrop⟩ := takeWhile_isDigit_congr h
  rw [carriesNumber, carriesNumber, htake, head?_any_isSpace_congr hdrop]

/-- Leaving the number out makes the line shorter. -/
theorem exists_of_carriesNumber {text : Text} {index : Nat}
    (h : carriesNumber text index = true) :
    ∃ start : Text, start ≠ []
      ∧ (∀ c ∈ start, isDigit c = true ∨ isSpace c = true)
      ∧ text = start ++ (text.dropWhile isDigit).dropWhile isSpace := by
  simp only [carriesNumber, Bool.and_eq_true, decide_eq_true_eq] at h
  refine ⟨text.takeWhile isDigit
      ++ (text.dropWhile isDigit).takeWhile isSpace, ?_, ?_, ?_⟩
  · intro hnil
    exact h.1.1 (List.append_eq_nil_iff.mp hnil).1
  · rw [List.forall_mem_append]
    exact ⟨fun c hc => .inl (List.all_eq_true.mp List.all_takeWhile c hc),
      fun c hc => .inr (List.all_eq_true.mp List.all_takeWhile c hc)⟩
  · rw [List.append_assoc, List.takeWhile_append_dropWhile,
      List.takeWhile_append_dropWhile]

/-- No keyword starts with a digit or a space. -/
theorem matchToken_eq_none {c : UInt8}
    (hc : isDigit c = true ∨ isSpace c = true) (content : Text) :
    matchToken (c :: content) = none := by
  cases hm : matchToken (c :: content) with
  | none => rfl
  | some m =>
    obtain ⟨hmem, hstarts⟩ := matchToken_spec hm
    obtain ⟨k, name, hname, -⟩ := exists_name_eq_cons hmem
    rw [hname, List.map_cons, List.map_cons, List.cons_prefix_cons] at hstarts
    obtain ⟨hk, -⟩ := hstarts
    obtain ⟨-, -, hdigit⟩ := name_spec m hmem
    rw [hname] at hdigit
    have hdigit : isDigit k = false := hdigit
    obtain ⟨hprint, -, hspace⟩ :=
      isPrintable_name hmem k (hname ▸ List.mem_cons_self)
    rcases hc with hc | hc
    · rw [← (isSpace_toUpper c).2, ← hk, (isSpace_toUpper k).2, hdigit] at hc
      exact nomatch hc
    · rw [← (isSpace_toUpper c).1, ← hk, (isSpace_toUpper k).1,
        isSpace_iff_of_isPrintable hprint] at hc
      exact absurd hc hspace

/-- Digits and spaces are kept, one byte each. -/
theorem length_tokenizeLoop_append (upper : Bool) {start : Text}
    (h : ∀ c ∈ start, isDigit c = true ∨ isSpace c = true) (content : Text) :
    (tokenizeLoop upper false false 0 (start ++ content)).length
      = start.length + (tokenizeLoop upper false false 0 content).length := by
  induction start with
  | nil => exact (Nat.zero_add _).symm
  | cons c start ih =>
    rw [List.forall_mem_cons] at h
    have hquote : c ≠ quote := by
      rintro rfl
      exact h.1.elim (fun h => nomatch h) fun h => nomatch h
    rw [List.cons_append, tokenizeLoop_char upper hquote
        (matchToken_eq_none h.1 _), List.length_cons, List.length_cons,
      ih h.2]
    omega

/-! ## Reading a line again -/

section Reread

variable (upper : Bool)

/-- The text of what a text is tokenized to. -/
theorem isPrintable_detokenize_tokenize {stmt : Text}
    (h : ∀ c ∈ stmt, isPrintable c = true) :
    ∀ c ∈ detokenizeLineBytes (tokenizeLineContent stmt upper),
      isPrintable c = true ∧ (upper = true → isLower c = false) :=
  isPrintable_detokenizeLoop upper false false
    (isStatementByte_tokenizeLoop upper false false 0 h)
    (retok_tokenizeLoop upper false false 0 h)

/-- **When a line that is written out is read as it was**: when it is not
empty and does not carry its number again. -/
theorem parseLine_detokenize_iff {stmt : Text} {index : Nat}
    (hindex : index ≤ maxLineNumber) (h : ∀ c ∈ stmt, isPrintable c = true)
    (hlen : stmt.length ≤ maxInputLineLen) :
    parseLine .positional upper index
        (detokenizeLineBytes (tokenizeLineContent stmt upper))
        = some ⟨index, tokenizeLineContent stmt upper⟩
      ↔ stmt ≠ [] ∧ parsePositionalLine stmt index = some (index, stmt) := by
  have hcase : (detokenizeLineBytes (tokenizeLineContent stmt upper)).map
      toUpper = stmt.map toUpper :=
    map_toUpper_detokenizeLoop upper false false 0 h
  have hback : tokenizeLineContent
      (detokenizeLineBytes (tokenizeLineContent stmt upper)) upper
      = tokenizeLineContent stmt upper :=
    (tokenizeLoop_detokenizeLoop_iff upper false false
      (isStatementByte_tokenizeLoop upper false false 0 h)).mpr
      (retok_tokenizeLoop upper false false 0 h)
  have hprint := isPrintable_detokenize_tokenize upper h
  generalize hy : detokenizeLineBytes (tokenizeLineContent stmt upper) = y
    at hcase hback hprint ⊢
  have hylen : y.length = stmt.length := by
    have hlength := congrArg List.length hcase
    rwa [List.length_map, List.length_map] at hlength
  have hnil : y = [] ↔ stmt = [] := by
    rw [← List.length_eq_zero_iff, hylen, List.length_eq_zero_iff]
  rw [parseLine, sanitizeAndTruncateLine_eq_self hprint
    (by rw [hylen]; exact hlen)]
  dsimp only
  rw [parsePositionalLine_eq hindex, parsePositionalLine_eq hindex,
    carriesNumber_congr hcase]
  -- an empty statement is no line, and one that carries its own number loses it on the way back
  by_cases hempty : stmt = []
  · rw [if_pos (hnil.mpr hempty)]
    exact iff_of_false (fun h => nomatch h) fun h => h.1 hempty
  rw [if_neg fun h => hempty (hnil.mp h), Option.map_some]
  cases hcarries : carriesNumber stmt index with
  | false =>
    rw [if_neg Bool.false_ne_true, if_neg Bool.false_ne_true]
    exact iff_of_true (congrArg some (by rw [hback])) ⟨hempty, rfl⟩
  | true =>
    rw [if_pos rfl, if_pos rfl]
    refine iff_of_false (fun heq => ?_) fun heq => ?_
    -- what was cut off made tokens of its own, so the two token texts differ in length
    · obtain ⟨start, hne, hstart, hsplit⟩ :=
        exists_of_carriesNumber ((carriesNumber_congr hcase _).trans hcarries)
      have htokens : tokenizeLineContent
          ((y.dropWhile isDigit).dropWhile isSpace) upper
          = tokenizeLineContent y upper :=
        (congrArg ParsedLine.tokenBytes (Option.some.inj heq)).trans
          hback.symm
      have hlonger := length_tokenizeLoop_append upper hstart
        ((y.dropWhile isDigit).dropWhile isSpace)
      rw [← hsplit] at hlonger
      have hsame := congrArg List.length htokens
      rw [tokenizeLineContent, tokenizeLineContent] at hsame
      have hpos := List.length_pos_iff.mpr hne
      omega
    · obtain ⟨start, hne, -, hsplit⟩ := exists_of_carriesNumber hcarries
      have hrest : (stmt.dropWhile isDigit).dropWhile isSpace = stmt :=
        congrArg Prod.snd (Option.some.inj heq.2)
      have hsame := congrArg List.length hsplit
      rw [List.length_append, hrest] at hsame
      have hpos := List.length_pos_iff.mpr hne
      omega

end Reread

/-! ## Lines at their places -/

/-- What is read of a line has its place for its number. -/
theorem exists_of_parseLine_positional {upper : Bool} {index : Nat}
    {raw : Text} {line : ParsedLine}
    (h : parseLine .positional upper index raw = some line) :
    index ≤ maxLineNumber ∧ sanitizeAndTruncateLine raw upper ≠ []
      ∧ ∃ stmt : Text,
        parsePositionalLine (sanitizeAndTruncateLine raw upper) index
            = some (index, stmt)
        ∧ (∀ c ∈ stmt, isPrintable c = true)
        ∧ stmt.length ≤ maxInputLineLen
        ∧ line = ⟨index, tokenizeLineContent stmt upper⟩ := by
  obtain ⟨⟨n, stmt⟩, hparsed, rfl⟩ := Option.map_eq_some_iff.mp h
  split at hparsed
  · exact nomatch hparsed
  · next hne =>
    obtain ⟨rfl, hmax, hsuffix⟩ := exists_of_parsePositionalLine hparsed
    exact ⟨hmax, hne, stmt, hparsed,
      fun c hc => (isPrintable_of_mem_sanitize (hsuffix.subset hc)).1,
      Nat.le_trans hsuffix.length_le (length_sanitize_le raw upper), rfl⟩

/-- The numbers of lines read in positional mode go up. -/
theorem pairwise_parseLines (upper : Bool) (index : Nat)
    (rawLines : List Text) :
    (parseLines .positional upper index rawLines).Pairwise
        (fun a b => a.lineNumber < b.lineNumber)
      ∧ ∀ l ∈ parseLines .positional upper index rawLines,
        index ≤ l.lineNumber := by
  induction rawLines generalizing index with
  | nil => exact ⟨List.Pairwise.nil, fun l hl => nomatch hl⟩
  | cons raw rawLines ih =>
    obtain ⟨hpairwise, hle⟩ := ih (index + 1)
    rw [parseLines]
    cases hline : parseLine .positional upper index raw with
    | none => exact ⟨hpairwise, fun l hl => Nat.le_of_succ_le (hle l hl)⟩
    | some line =>
      obtain ⟨-, -, stmt, -, -, -, rfl⟩ :=
        exists_of_parseLine_positional hline
      refine ⟨List.pairwise_cons.mpr ⟨fun l hl => hle l hl, hpairwise⟩, ?_⟩
      refine List.forall_mem_cons.mpr ⟨Nat.le_refl _, ?_⟩
      exact fun l hl => Nat.le_of_succ_le (hle l hl)

/-- A line as it is read from its own text. -/
def reread (upper : Bool) (line : ParsedLine) : Option ParsedLine :=
  parseLine .positional upper line.lineNumber
    (detokenizeLineBytes line.tokenBytes)

/-- **The text of lines is read line by line**, each at its number. -/
theorem parseLines_linesText {upper : Bool} {lines : List ParsedLine}
    {expected : Nat}
    (hascending : lines.Pairwise fun a b => a.lineNumber < b.lineNumber)
    (hexpected : ∀ l ∈ lines, expected ≤ l.lineNumber)
    (hmax : ∀ l ∈ lines, l.lineNumber ≤ maxLineNumber)
    (hprint : ∀ l ∈ lines, ∀ c ∈ detokenizeLineBytes l.tokenBytes,
      isPrintable c = true) :
    parseLines .positional upper expected
      (getLines (linesText .positional expected lines))
      = lines.filterMap (reread upper) := by
  induction lines generalizing expected with
  | nil => rfl
  | cons line lines ih =>
    rw [List.pairwise_cons] at hascending
    rw [List.forall_mem_cons] at hexpected hmax hprint
    have hnewline : (0x0A : UInt8) ∉ detokenizeLineBytes line.tokenBytes :=
      fun hmem => nomatch hprint.1 _ hmem
    have hmin : min line.lineNumber (maxLineNumber + 1) = line.lineNumber :=
      Nat.min_eq_left (Nat.le_succ_of_le hmax.1)
    rw [linesText, appendLinePrefix]
    dsimp only
    rw [hmin, List.append_assoc, List.append_assoc, getLines_replicate,
      ← List.append_assoc, getLines_line hnewline, parseLines_replicate,
      Nat.add_sub_cancel' hexpected.1, parseLines,
      ih hascending.2 hascending.1 hmax.2 hprint.2, List.filterMap_cons,
      reread]
    cases parseLine .positional upper line.lineNumber
      (detokenizeLineBytes line.tokenBytes) <;> rfl

/-- Lines that are all read as they were are read as they were. -/
theorem filterMap_eq_self_iff {α : Type*} {f : α → Option α} {l : List α} :
    l.filterMap f = l ↔ ∀ a ∈ l, f a = some a := by
  constructor
  · induction l with
    | nil => exact fun _ a ha => nomatch ha
    | cons b l ih =>
      intro h
      rw [List.filterMap_cons] at h
      split at h
      · have hlen := List.length_filterMap_le f l
        rw [h, List.length_cons] at hlen
        omega
      · next c hc =>
        obtain ⟨rfl, hl⟩ := List.cons_eq_cons.mp h
        exact List.forall_mem_cons.mpr ⟨hc, ih hl⟩
  · intro h
    induction l with
    | nil => rfl
    | cons b l ih =>
      rw [List.forall_mem_cons] at h
      rw [List.filterMap_cons, h.1, ih h.2]

/-- Whether the line `i` of a text, and those before it, fit under
`himem`. -/
def fitsBelow (mode : BasicLineMode) (upper : Bool) (himem addr index : Nat)
    (rawLines : List Text) (i : Nat) : Prop :=
  linesEnd addr (parseLines mode upper index (rawLines.take (i + 1))) + 2
    < himem

theorem linesEnd_append (addr : Nat) (lines lines' : List ParsedLine) :
    linesEnd addr (lines ++ lines') = linesEnd (linesEnd addr lines) lines' := by
  rw [linesEnd, linesEnd, linesEnd, List.map_append, List.sum_append,
    Nat.add_assoc]

/-- **The lines laid down** are those of the lines of text that fit. -/
theorem forall_mem_injected_iff (mode : BasicLineMode) (upper : Bool)
    (himem addr index : Nat) (rawLines : List Text)
    (P : ParsedLine → Prop) :
    (∀ l ∈ injected himem addr (parseLines mode upper index rawLines), P l)
      ↔ ∀ i raw, rawLines[i]? = some raw →
        fitsBelow mode upper himem addr index rawLines i →
        ∀ l, parseLine mode upper (index + i) raw = some l → P l := by
  induction rawLines generalizing index addr with
  | nil =>
    exact iff_of_true (fun l hl => absurd hl List.not_mem_nil) fun i raw h => by
      rw [List.getElem?_nil] at h
      cases h
  | cons first rawLines ih =>
    have hzero : fitsBelow mode upper himem addr index (first :: rawLines) 0
        ↔ linesEnd addr (parseLine mode upper index first).toList + 2
          < himem := by
      rw [fitsBelow, List.take_succ_cons, List.take_zero, parseLines,
        parseLines, List.append_nil]
    have hsucc : ∀ i,
        fitsBelow mode upper himem addr index (first :: rawLines) (i + 1)
          ↔ fitsBelow mode upper himem
            (linesEnd addr (parseLine mode upper index first).toList)
            (index + 1) rawLines i := fun i => by
      rw [fitsBelow, fitsBelow, List.take_succ_cons, parseLines,
        linesEnd_append]
    have hnext : ∀ i, parseLine mode upper (index + (i + 1))
        = parseLine mode upper (index + 1 + i) := fun i => by
      rw [Nat.add_assoc, Nat.add_comm 1 i]
    rw [← Nat.and_forall_add_one, parseLines]
    simp only [List.getElem?_cons_zero, List.getElem?_cons_succ, hzero,
      hsucc, hnext]
    rw [← ih]
    cases hfirst : parseLine mode upper index first with
    | none =>
      refine (and_iff_right fun raw hraw _ l hl => ?_).symm
      rw [← Option.some.inj hraw, Nat.add_zero, hfirst] at hl
      cases hl
    | some line =>
      have hend : linesEnd addr (some line).toList = addr + line.size := by
        rw [Option.toList_some, linesEnd, List.map_singleton,
          List.sum_singleton]
      rw [hend, Option.toList_some, List.singleton_append, injected]
      split
      -- no later line fits where this one does not
      · next hfull =>
        refine iff_of_true (fun l hl => absurd hl List.not_mem_nil) ⟨?_, ?_⟩
        · exact fun raw _ hfits => absurd hfits (Nat.not_lt.mpr hfull)
        · intro l hl
          have hlt := linesEnd_injected_lt (List.ne_nil_of_mem hl)
          rw [linesEnd] at hlt
          omega
      · next hfits =>
        rw [List.forall_mem_cons]
        refine and_congr_left fun _ => ?_
        constructor
        · intro hP raw hraw _ l hl
          rw [← Option.some.inj hraw, Nat.add_zero, hfirst] at hl
          rwa [← Option.some.inj hl]
        · intro h
          exact h first rfl (Nat.not_le.mp hfits) line hfirst

/-! ## Stability -/

section Stable

variable {sort : List ParsedLine → List ParsedLine}
  (hsort : SortsByNumber sort) (ty : Apple2Type) (text : Text) (ram : Ram)

/-- RAM after a text has been imported. -/
def imported (sort : List ParsedLine → List ParsedLine) (ty : Apple2Type)
    (text : Text) (ram : Ram) : Ram :=
  basicSyncImportFromString sort ty .positional text ram

/-- RAM after the program has been exported and imported again. -/
def reimported (sort : List ParsedLine → List ParsedLine) (ty : Apple2Type)
    (ram : Ram) : Ram :=
  imported sort ty (basicSyncExportToString .positional ram) ram

/-- **A line of text that is stable**: what is left of it without its number
is not empty, and does not carry the number again. -/
def StableLine (upper : Bool) (index : Nat) (raw : Text) : Prop :=
  sanitizeAndTruncateLine raw upper ≠ [] → ∀ stmt,
    parsePositionalLine (sanitizeAndTruncateLine raw upper) index
      = some (index, stmt) →
    stmt ≠ [] ∧ parsePositionalLine stmt index = some (index, stmt)

/-- A line of text is stable exactly when the line read from it is read
again from its own text. -/
theorem stableLine_iff (upper : Bool) (index : Nat) (raw : Text) :
    StableLine upper index raw
      ↔ ∀ l, parseLine .positional upper index raw = some l →
        reread upper l = some l := by
  constructor
  · intro h l hl
    obtain ⟨hindex, hne, stmt, hparse, hprint, hlen, rfl⟩ :=
      exists_of_parseLine_positional hl
    exact (parseLine_detokenize_iff upper hindex hprint hlen).mpr
      (h hne stmt hparse)
  · intro h hne stmt hparse
    have hl : parseLine .positional upper index raw
        = some ⟨index, tokenizeLineContent stmt upper⟩ := by
      rw [parseLine]
      dsimp only
      rw [if_neg hne, hparse]
      rfl
    obtain ⟨hindex, -, stmt', hparse', hprint, hlen, -⟩ :=
      exists_of_parseLine_positional hl
    obtain rfl : stmt' = stmt :=
      congrArg Prod.snd (Option.some.inj (hparse'.symm.trans hparse))
    exact (parseLine_detokenize_iff upper hindex hprint hlen).mp (h _ hl)

include hsort in
/-- The lines an import lays down are those of the text, in its order. -/
theorem importLines_positional :
    importLines sort ty .positional text ram
      = injected (importHimem ram) (importTxttab ram)
        (parseLines .positional (isUppercaseOnlyMachine ty) 1
          (getLines text)) := by
  rw [importLines, hsort.sort_eq_self (pairwise_parseLines _ _ _).1]

/-- A second import works with the same pointers. -/
theorem importHimem_imported :
    importHimem (imported sort ty text ram) = importHimem ram := by
  have hhimem : readZeroPage16 (imported sort ty text ram) addrHimem
      = importHimem ram := himem_basicSyncImportFromString ..
  have hbounds := importHimem_bounds ram
  rw [(importHimem_eq (by rw [hhimem]; exact hbounds)).2, hhimem]

theorem importTxttab_imported :
    importTxttab (imported sort ty text ram) = importTxttab ram := by
  have hhimem : readZeroPage16 (imported sort ty text ram) addrHimem
      = importHimem ram := himem_basicSyncImportFromString ..
  have htxttab : readZeroPage16 (imported sort ty text ram) addrTxttab
      = importTxttab ram := txttab_basicSyncImportFromString ..
  have hbounds := importHimem_bounds ram
  have hlow := (importTxttab_bounds ram).1
  have hram := (importHimem_eq (by rw [hhimem]; exact hbounds)).1
  by_cases hlt : importTxttab ram < importHimem ram
  · rw [importTxttab_eq (by rw [hhimem]; exact hbounds)
      (by rw [hhimem, htxttab]; exact ⟨hlow, hlt⟩), htxttab]
  -- `HIMEM` is so low that `TXTTAB` has been put at its default
  · have hdefault : importTxttab ram = defaultTxttab := by
      unfold importTxttab checkTxttab at hlt ⊢
      dsimp only at hlt ⊢
      split
      · rfl
      · next hkeep =>
        rw [if_neg hkeep] at hlt
        simp only [Bool.or_eq_true, decide_eq_true_eq, not_or] at hkeep
        exact absurd (Nat.lt_of_not_le hkeep.2) hlt
    rw [importTxttab, hram, importHimem_imported]
    unfold checkTxttab
    rw [htxttab, hdefault]
    dsimp only
    split
    · rfl
    · rfl

include hsort in
/-- The text of the program is that of all its lines. -/
theorem export_imported :
    basicSyncExportToString .positional (imported sort ty text ram)
      = linesText .positional 1
        (importLines sort ty .positional text ram) := by
  have htxttab : readZeroPage16 (imported sort ty text ram) addrTxttab
      = importTxttab ram := txttab_basicSyncImportFromString ..
  have hhimem : readZeroPage16 (imported sort ty text ram) addrHimem
      = importHimem ram := himem_basicSyncImportFromString ..
  have hvartab : readZeroPage16 (imported sort ty text ram) addrVartab
      = importEnd sort ty .positional text ram + 2 :=
    vartab_basicSyncImportFromString ..
  have hbounds := importHimem_bounds ram
  have hend := importEnd_bounds sort ty .positional text ram
  rw [basicSyncExportToString_of_holds .positional, htxttab]
  · congr 1
    refine (emitted_eq_self_iff _ _ _).mpr ?_
    by_cases hnil : importLines sort ty .positional text ram = []
    · exact .inl hnil
    · refine .inr ?_
      have hlt : importEnd sort ty .positional text ram + 2
          < importHimem ram := linesEnd_injected_lt hnil
      rw [exportEnd, htxttab, hhimem, hvartab, hardHimemCeiling,
        Nat.min_eq_left hbounds.2, if_pos (by simp; omega)]
      exact Nat.le_add_right _ 2
  · rw [htxttab]
    exact holds_basicSyncImportFromString sort ty .positional text ram
  · intro l hl
    obtain ⟨i, raw, hline⟩ :=
      exists_of_mem_importLines ty .positional text ram hsort hl
    exact (exists_of_parseLine hline).1
  · rw [htxttab]
    exact Nat.lt_trans hend.2 (by decide)

include hsort in
/-- The program read again is read line by line. -/
theorem programLines_reimported :
    programLines (reimported sort ty (imported sort ty text ram))
      = injected (importHimem ram) (importTxttab ram)
        ((importLines sort ty .positional text ram).filterMap
          (reread (isUppercaseOnlyMachine ty))) := by
  have hsub := importLines_positional hsort ty text ram ▸
    (injected_sublist (importHimem ram) (importTxttab ram)
      (parseLines .positional (isUppercaseOnlyMachine ty) 1 (getLines text)))
  obtain ⟨hpairwise, hle⟩ := pairwise_parseLines (isUppercaseOnlyMachine ty)
    1 (getLines text)
  have hline : ∀ l ∈ importLines sort ty .positional text ram,
      l.lineNumber ≤ maxLineNumber
        ∧ ∀ c ∈ detokenizeLineBytes l.tokenBytes, isPrintable c = true := by
    intro l hl
    obtain ⟨i, raw, hline⟩ := exists_of_mem_parseLines (hsub.subset hl)
    obtain ⟨hmax, stmt, hprint, hbytes, -⟩ := exists_of_parseLine hline
    rw [hbytes]
    exact ⟨hmax, fun c hc => (isPrintable_detokenize_tokenize
      (isUppercaseOnlyMachine ty) hprint c hc).1⟩
  rw [reimported, imported, programLines_basicSyncImportFromString ty
      .positional _ _ hsort, importLines_positional hsort,
    importHimem_imported, importTxttab_imported, export_imported hsort,
    parseLines_linesText (hpairwise.sublist hsub.sublist)
      (fun l hl => hle l (hsub.subset hl)) (fun l hl => (hline l hl).1)
      fun l hl => (hline l hl).2]

include hsort in
/-- **Exactly which texts are stable in positional mode**: those of which every line that fits and
is read has a `StableLine`.

The two sides are programs, the one read from the text and the one read again from its export.
They are compared as lists of numbers and statements, for the links depend on where the program
lies. A line of the text that comes behind the end of the room is never read, so nothing is asked
of it; `fitsBelow` tells this from the text alone. -/
theorem positional_stable_iff :
    programLines (reimported sort ty (imported sort ty text ram))
        = programLines (imported sort ty text ram)
      ↔ ∀ i raw, (getLines text)[i]? = some raw →
        fitsBelow .positional (isUppercaseOnlyMachine ty) (importHimem ram)
          (importTxttab ram) 1 (getLines text) i →
        StableLine (isUppercaseOnlyMachine ty) (1 + i) raw := by
  simp only [stableLine_iff]
  rw [← forall_mem_injected_iff, ← importLines_positional hsort,
    ← filterMap_eq_self_iff, programLines_reimported hsort, imported,
    programLines_basicSyncImportFromString ty .positional _ _ hsort]
  constructor
  · intro h
    have hstarts := injected_sublist (importHimem ram) (importTxttab ram)
      ((importLines sort ty .positional text ram).filterMap
        (reread (isUppercaseOnlyMachine ty)))
    rw [h] at hstarts
    exact (hstarts.eq_of_length_le (List.length_filterMap_le _ _)).symm
  · intro h
    rw [h, injected_eq_self_iff]
    by_cases hnil : importLines sort ty .positional text ram = []
    · exact .inl hnil
    · exact .inr (linesEnd_injected_lt hnil)

end Stable

/-! ## A text that is stable and one that is not -/

/-- `HOME` stays in the first line. -/
theorem positional_stable_iff_home :
    programLines (reimported sortLines .apple2e
        (imported sortLines .apple2e (bytes "HOME") fun _ => 0))
      = programLines (imported sortLines .apple2e (bytes "HOME")
        fun _ => 0) := by
  refine (positional_stable_iff sortsByNumber_sortLines .apple2e
    (bytes "HOME") fun _ => 0).mpr fun i raw hraw _ _ stmt hparse => ?_
  have hlines : getLines (bytes "HOME") = [bytes "HOME"] := by decide
  rw [hlines] at hraw
  cases i with
  | zero =>
    obtain rfl := Option.some.inj hraw
    have hkeep : parsePositionalLine (sanitizeAndTruncateLine (bytes "HOME")
        false) 1 = some (1, bytes "HOME") := by decide
    obtain rfl : bytes "HOME" = stmt :=
      congrArg Prod.snd (Option.some.inj (hkeep.symm.trans hparse))
    exact ⟨by decide, by decide⟩
  | succ i => exact nomatch hraw

/-- **A text that is not stable**: `1 1 END` in the first line is read as
`1 END`, and what is written out as `END`. -/
theorem programLines_reimported_twice :
    programLines (imported sortLines .apple2e (bytes "1 1 END") fun _ => 0)
        = [⟨1, [0x31, 0x20, 0x80]⟩]
    ∧ programLines (reimported sortLines .apple2e
        (imported sortLines .apple2e (bytes "1 1 END") fun _ => 0))
        = [⟨1, [0x80]⟩] := by
  decide +kernel

end LinApple.Basic
