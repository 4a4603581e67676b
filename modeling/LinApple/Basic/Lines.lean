import LinApple.Basic.LiveSync
import LinApple.Basic.Retokenize
import Mathlib.Data.List.Nodup

/-!
# Lines of text and what they are read as

A number is written in digits and read back (`stoul_decimal`), a line of
printable characters is taken as it is (`sanitizeAndTruncateLine_eq_self`),
and what is left of a line after its number is what is tokenized. Lines in
the order of their numbers are in order already (`sort_eq_self`).
-/

namespace LinApple.Basic

/-! ## Numbers -/

theorem toUInt8_digit {c : Char} (h : c.isDigit = true) :
    isDigit c.toNat.toUInt8 = true
      ∧ c.toNat.toUInt8.toNat - 0x30 = c.toNat - '0'.toNat := by
  obtain ⟨hlo, hhi⟩ := Char.isDigit_iff_toNat.mp h
  have hmod : c.toNat.toUInt8.toNat = c.toNat := by
    rw [Nat.toUInt8, UInt8.toNat_ofNat', Nat.mod_eq_of_lt]
    exact Nat.lt_of_le_of_lt hhi (by decide)
  refine ⟨?_, by rw [hmod]; rfl⟩
  rw [isDigit, Bool.and_eq_true, decide_eq_true_eq, decide_eq_true_eq,
    UInt8.le_iff_toNat_le, UInt8.le_iff_toNat_le, hmod]
  exact ⟨hlo, hhi⟩

/-- A number is written in digits. -/
theorem isDigit_of_mem_decimal {n : Nat} {c : UInt8} (h : c ∈ decimal n) :
    isDigit c = true := by
  obtain ⟨d, hd, rfl⟩ := List.mem_map.mp h
  exact (toUInt8_digit
    (Nat.isDigit_of_mem_toDigits (by decide) (by decide) hd)).1

theorem decimal_ne_nil (n : Nat) : decimal n ≠ [] := by
  rw [decimal, Ne, List.map_eq_nil_iff]
  exact Nat.toDigits_ne_nil

theorem length_decimal_le {n : Nat} (h : n ≤ maxLineNumber) :
    (decimal n).length ≤ 5 := by
  rw [decimal, List.length_map,
    Nat.length_toDigits_le_iff (by decide) (by decide)]
  exact Nat.lt_of_le_of_lt h (by decide)

/-- **A number written is the number read.** -/
theorem stoul_decimal (n : Nat) : stoul (decimal n) = n := by
  suffices h : ∀ cs : List Char, (∀ c ∈ cs, c.isDigit = true) → ∀ init,
      (cs.map fun c => c.toNat.toUInt8).foldl
        (fun n d => n * 10 + (d.toNat - 0x30)) init
        = Nat.ofDigitChars 10 cs init from
    (h _ (fun c hc => Nat.isDigit_of_mem_toDigits (by decide) (by decide) hc)
      0).trans Nat.ofDigitChars_ten_toDigits
  intro cs hcs
  induction cs with
  | nil => exact fun init => rfl
  | cons c cs ih =>
    intro init
    rw [List.forall_mem_cons] at hcs
    rw [List.map_cons, List.foldl_cons, ih hcs.2, (toUInt8_digit hcs.1).2,
      Nat.ofDigitChars_cons, Nat.mul_comm]

/-- A line number is read whole. -/
theorem lineNumberValue_decimal {n : Nat} (h : n ≤ maxLineNumber) :
    lineNumberValue (decimal n) = n := by
  rw [lineNumberValue, if_pos (length_decimal_le h), stoul_decimal]

/-! ## Characters -/

theorem isPrintable_of_isDigit {c : UInt8} (h : isDigit c = true) :
    isPrintable c = true ∧ isLower c = false ∧ isSpace c = false := by
  grind [isDigit, isPrintable, isLower, isSpace]

/-- The only printable space is the space. -/
theorem isSpace_iff_of_isPrintable {c : UInt8} (h : isPrintable c = true) :
    isSpace c = true ↔ c = 0x20 := by
  grind [isPrintable, isSpace]

theorem isSpace_toUpper (c : UInt8) :
    isSpace (toUpper c) = isSpace c ∧ isDigit (toUpper c) = isDigit c := by
  grind [isSpace, isDigit, toUpper]

/-- Only printable characters are read, without small letters where there
are none. -/
theorem isPrintable_of_mem_sanitize {upper : Bool} {input : Text} {c : UInt8}
    (h : c ∈ sanitizeAndTruncateLine input upper) :
    isPrintable c = true ∧ (upper = true → isLower c = false) := by
  obtain ⟨d, hd, rfl⟩ := List.mem_map.mp (List.mem_of_mem_take h)
  obtain ⟨-, hprint⟩ := List.mem_filter.mp hd
  obtain ⟨hprint, -, hsmall⟩ := isPrintable_toNormalizedByte upper hprint
  exact ⟨hprint, hsmall⟩

theorem length_sanitize_le (input : Text) (upper : Bool) :
    (sanitizeAndTruncateLine input upper).length ≤ maxInputLineLen := by
  rw [sanitizeAndTruncateLine, List.length_take]
  exact Nat.min_le_left _ _

/-- **A line of such characters is taken as it is.** -/
theorem sanitizeAndTruncateLine_eq_self {input : Text} {upper : Bool}
    (h : ∀ c ∈ input, isPrintable c = true
      ∧ (upper = true → isLower c = false))
    (hlen : input.length ≤ maxInputLineLen) :
    sanitizeAndTruncateLine input upper = input := by
  have hfilter : (input.filter fun c => 32 ≤ c && c ≤ 126) = input :=
    List.filter_eq_self.mpr fun c hc => (h c hc).1
  have hmap : (input.map fun c => toNormalizedByte c upper) = input :=
    (List.map_congr_left fun c hc =>
      (toNormalizedByte_eq_self_iff upper c).mpr (h c hc).2).trans
      (List.map_id' input)
  rw [sanitizeAndTruncateLine, hfilter, hmap, List.take_of_length_le hlen]

/-! ## Lines with numbers -/

/-- What follows a number and a space is what follows the spaces. -/
theorem takeWhile_decimal_append (n : Nat) {rest : Text}
    (h : rest.head?.any isDigit = false) :
    (decimal n ++ rest).takeWhile isDigit = decimal n
      ∧ (decimal n ++ rest).dropWhile isDigit = rest := by
  have hdigits : ∀ c ∈ decimal n, isDigit c = true :=
    fun c hc => isDigit_of_mem_decimal hc
  rw [List.takeWhile_append_of_pos hdigits,
    List.dropWhile_append_of_pos hdigits]
  cases rest with
  | nil => exact ⟨List.append_nil _, rfl⟩
  | cons c rest =>
    have hc : isDigit c = false := h
    rw [List.takeWhile_cons_of_neg (by rw [hc]; decide),
      List.dropWhile_cons_of_neg (by rw [hc]; decide)]
    exact ⟨List.append_nil _, rfl⟩

/-- **A numbered line**: its number, and what is left without the spaces. -/
theorem parseExplicitLine_decimal {n : Nat} (hn : n ≤ maxLineNumber)
    (rest : Text) :
    parseExplicitLine (decimal n ++ [0x20] ++ rest)
      = some (n, rest.dropWhile isSpace) := by
  obtain ⟨c, digits, hdigits⟩ := List.exists_cons_of_ne_nil (decimal_ne_nil n)
  have hc : isSpace c = false :=
    (isPrintable_of_isDigit (isDigit_of_mem_decimal
      (hdigits ▸ List.mem_cons_self))).2.2
  have hstart : (decimal n ++ [0x20] ++ rest).dropWhile isSpace
      = decimal n ++ (0x20 :: rest) := by
    rw [List.append_assoc, hdigits, List.cons_append,
      List.dropWhile_cons_of_neg (by rw [hc]; decide)]
    rfl
  obtain ⟨htake, hdrop⟩ := takeWhile_decimal_append n
    (show (0x20 :: rest).head?.any isDigit = false from rfl)
  unfold parseExplicitLine
  dsimp only
  rw [hstart, htake, hdrop, if_neg (decimal_ne_nil n),
    lineNumberValue_decimal hn, Nat.min_eq_left hn]
  rfl

/-- What is left after the spaces does not start with one. -/
theorem head?_dropWhile_isSpace (text : Text) :
    (text.dropWhile isSpace).head? ≠ some 0x20 := by
  intro h
  have hspace := List.head?_dropWhile_not isSpace text
  rw [h] at hspace
  exact nomatch hspace

/-- Nothing is left out where there is no space. -/
theorem dropWhile_isSpace_eq_self {text : Text}
    (h : ∀ c ∈ text, isPrintable c = true)
    (hhead : text.head? ≠ some 0x20) : text.dropWhile isSpace = text := by
  cases text with
  | nil => rfl
  | cons c text =>
    refine List.dropWhile_cons_of_neg fun hspace => hhead ?_
    exact congrArg some ((isSpace_iff_of_isPrintable
      (h c List.mem_cons_self)).mp hspace)

/-- Where a statement comes from, and that its number is one. -/
theorem exists_of_parseExplicitLine {sanitized : Text} {n : Nat}
    {stmt : Text} (h : parseExplicitLine sanitized = some (n, stmt)) :
    n ≤ maxLineNumber ∧ stmt <:+ sanitized ∧ stmt.head? ≠ some 0x20 := by
  unfold parseExplicitLine at h
  dsimp only at h
  split at h
  · exact nomatch h
  · obtain ⟨rfl, rfl⟩ := Prod.mk.inj (Option.some.inj h)
    exact ⟨Nat.min_le_right _ _,
      (List.dropWhile_suffix _).trans ((List.dropWhile_suffix _).trans
        (List.dropWhile_suffix _)),
      head?_dropWhile_isSpace _⟩

theorem exists_of_parsePositionalLine {sanitized : Text} {index n : Nat}
    {stmt : Text} (h : parsePositionalLine sanitized index = some (n, stmt)) :
    n = index ∧ index ≤ maxLineNumber ∧ stmt <:+ sanitized := by
  unfold parsePositionalLine at h
  dsimp only at h
  split at h
  · exact nomatch h
  · next hindex =>
    have hle := Nat.not_lt.mp hindex
    split at h
    · obtain ⟨rfl, rfl⟩ := Prod.mk.inj (Option.some.inj h)
      exact ⟨rfl, hle, List.suffix_rfl⟩
    · split at h
      · obtain ⟨rfl, rfl⟩ := Prod.mk.inj (Option.some.inj h)
        exact ⟨rfl, hle, List.suffix_rfl⟩
      · obtain ⟨rfl, rfl⟩ := Prod.mk.inj (Option.some.inj h)
        exact ⟨rfl, hle, (List.dropWhile_suffix _).trans
          (List.dropWhile_suffix _)⟩

/-- **A line of the program** that is read: its number is one, and its
statement is tokenized from printable characters. -/
theorem exists_of_parseLine {mode : BasicLineMode} {upper : Bool}
    {index : Nat} {raw : Text} {line : ParsedLine}
    (h : parseLine mode upper index raw = some line) :
    line.lineNumber ≤ maxLineNumber
      ∧ ∃ stmt : Text, (∀ c ∈ stmt, isPrintable c = true)
        ∧ line.tokenBytes = tokenizeLineContent stmt upper
        ∧ (mode = .explicit → stmt.head? ≠ some 0x20) := by
  obtain ⟨⟨n, stmt⟩, hparsed, rfl⟩ := Option.map_eq_some_iff.mp h
  split at hparsed
  · exact nomatch hparsed
  · have hprint : ∀ {stmt' : Text},
        stmt' <:+ sanitizeAndTruncateLine raw upper →
        ∀ c ∈ stmt', isPrintable c = true := fun hsuffix c hc =>
      (isPrintable_of_mem_sanitize (hsuffix.subset hc)).1
    split at hparsed
    · obtain ⟨rfl, hmax, hsuffix⟩ := exists_of_parsePositionalLine hparsed
      exact ⟨hmax, stmt, hprint hsuffix, rfl, fun h => nomatch h⟩
    · obtain ⟨hmax, hsuffix, hhead⟩ := exists_of_parseExplicitLine hparsed
      exact ⟨hmax, stmt, hprint hsuffix, rfl, fun _ => hhead⟩

/-- Every line that is read is read from a line of the text. -/
theorem exists_of_mem_parseLines {mode : BasicLineMode} {upper : Bool}
    {index : Nat} {rawLines : List Text} {line : ParsedLine}
    (h : line ∈ parseLines mode upper index rawLines) :
    ∃ i raw, parseLine mode upper i raw = some line := by
  induction rawLines generalizing index with
  | nil => exact nomatch h
  | cons raw rawLines ih =>
    rw [parseLines, List.mem_append, Option.mem_toList] at h
    exact h.elim (fun h => ⟨index, raw, h⟩) ih

/-! ## Sorting -/

/-- **Lines in order are left as they are.** -/
theorem SortsByNumber.sort_eq_self {sort : List ParsedLine → List ParsedLine}
    (hsort : SortsByNumber sort) {lines : List ParsedLine}
    (h : lines.Pairwise fun a b => a.lineNumber < b.lineNumber) :
    sort lines = lines := by
  refine List.Perm.eq_of_pairwise ?_ (hsort.sorted lines)
    (h.imp Nat.le_of_lt) (hsort.perm lines)
  intro a b ha hb hab hba
  have hnodup : (lines.map ParsedLine.lineNumber).Nodup :=
    List.pairwise_map.mpr (h.imp Nat.ne_of_lt)
  exact List.inj_on_of_nodup_map hnodup ((hsort.perm lines).mem_iff.mp ha) hb
    (Nat.le_antisymm hab hba)

end LinApple.Basic
