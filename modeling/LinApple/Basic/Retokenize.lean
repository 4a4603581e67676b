import LinApple.Basic.Tokens
import Mathlib.Data.List.Nodup
import Mathlib.Data.List.Range

/-!
# Tokenizing what has been detokenized

The text of a line is its keywords and characters one after another, so a
keyword that ends in one and starts in the next is found where there was
none (`ATO` is `A`, `TO` in a line and `AT`, `O` in its text). `Retok` says
of every place of a line that nothing is found but what stands there, and
`tokenizeLoop_detokenizeLoop_iff` that this is exactly when tokenizing the
text gives the line back. Of a line that a text was tokenized to it is true
always (`retok_tokenizeLoop`).
-/

namespace LinApple.Basic

/-! ## The table of keywords -/

/-- Whether a character is a small letter. -/
def isLower (c : UInt8) : Bool := 0x61 ≤ c && c ≤ 0x7A

/-- Whether a character is printable. -/
def isPrintable (c : UInt8) : Bool := 0x20 ≤ c && c ≤ 0x7E

/-- A byte of a statement: a keyword or a printable character. -/
def isStatementByte (b : UInt8) : Bool :=
  (0x80 ≤ b && b ≤ 0xEA) || isPrintable b

/-- What is known of a character of a keyword. -/
def isKeywordChar (c : UInt8) : Bool :=
  0x20 < c && c ≤ 0x7E && c ≠ quote && !isLower c

/-- The names of the keywords. -/
theorem name_spec : ∀ t ∈ applesoftTokens,
    t.name ≠ [] ∧ t.name.all isKeywordChar = true
      ∧ t.name.head?.any (fun c => 0x30 ≤ c && c ≤ 0x39) = false := by
  decide +kernel

/-- The keywords stand for the bytes from `$80` to `$EA`, each for one. -/
theorem tokens_perm : (applesoftTokens.map fun t => t.token.toNat).Perm
    (List.range' 0x80 107) := by
  decide +kernel

theorem mem_of_findTokenName {b : UInt8} {name : Text}
    (h : findTokenName b = some name) : ⟨b, name⟩ ∈ applesoftTokens := by
  obtain ⟨t, ht, rfl⟩ := Option.map_eq_some_iff.mp h
  have htoken := List.find?_some ht
  rw [decide_eq_true_eq] at htoken
  subst htoken
  exact List.mem_of_find?_eq_some ht

theorem token_bounds {t : TokenDef} (ht : t ∈ applesoftTokens) :
    0x80 ≤ t.token.toNat ∧ t.token.toNat ≤ 0xEA := by
  have h := tokens_perm.mem_iff.mp
    (List.mem_map_of_mem (f := fun t : TokenDef => t.token.toNat) ht)
  rw [List.mem_range'_1] at h
  omega

/-- Every byte from `$80` to `$EA` stands for a keyword. -/
theorem exists_mem_tokens {b : UInt8} (hlo : 0x80 ≤ b.toNat)
    (hhi : b.toNat ≤ 0xEA) : ∃ t ∈ applesoftTokens, t.token = b := by
  have hmem : b.toNat ∈ List.range' 0x80 107 :=
    List.mem_range'_1.mpr (by omega)
  obtain ⟨t, ht, hb⟩ := List.mem_map.mp (tokens_perm.mem_iff.mpr hmem)
  exact ⟨t, ht, UInt8.toNat_inj.mp hb⟩

/-- A keyword has the name of its byte. -/
theorem findTokenName_token {t : TokenDef} (ht : t ∈ applesoftTokens) :
    findTokenName t.token = some t.name := by
  have hnodup : (applesoftTokens.map fun t => t.token.toNat).Nodup :=
    tokens_perm.nodup_iff.mpr List.nodup_range'
  have hsome : (applesoftTokens.find? fun u => u.token = t.token).isSome :=
    List.find?_isSome.mpr ⟨t, ht, decide_eq_true rfl⟩
  obtain ⟨u, hu⟩ := Option.isSome_iff_exists.mp hsome
  have htoken := List.find?_some hu
  rw [decide_eq_true_eq] at htoken
  rw [findTokenName, hu, List.inj_on_of_nodup_map hnodup
    (List.mem_of_find?_eq_some hu) ht (congrArg UInt8.toNat htoken)]
  rfl

/-- No byte below `$80` stands for a keyword. -/
theorem findTokenName_eq_none {b : UInt8} (hb : b < 0x80) :
    findTokenName b = none := by
  rw [findTokenName, Option.map_eq_none_iff, List.find?_eq_none]
  intro t ht htoken
  rw [decide_eq_true_eq] at htoken
  have hlo := (token_bounds ht).1
  rw [htoken] at hlo
  exact absurd (UInt8.lt_iff_toNat_lt.mp hb) (Nat.not_lt.mpr hlo)

/-! ## Finding a keyword -/

/-- A keyword is found where the text agrees with it but for case. -/
theorem iequalsPrefix_iff (str kw : Text) :
    iequalsPrefix str kw = true
      ↔ kw.map toUpper <+: str.map toUpper := by
  induction kw generalizing str with
  | nil => exact iff_of_true (by cases str <;> rfl) List.nil_prefix
  | cons k kw ih =>
    cases str with
    | nil => exact iff_of_false (fun h => nomatch h) (by simp)
    | cons c str =>
      rw [iequalsPrefix, Bool.and_eq_true, decide_eq_true_eq, ih,
        List.map_cons, List.map_cons, List.cons_prefix_cons, eq_comm]

/-- What is found depends on the text but for case. -/
theorem matchToken_congr {str str' : Text}
    (h : str.map toUpper = str'.map toUpper) :
    matchToken str = matchToken str' := by
  have hstarts : ∀ kw, iequalsPrefix str kw = iequalsPrefix str' kw :=
    fun kw => by
      rw [Bool.eq_iff_iff, iequalsPrefix_iff, iequalsPrefix_iff, h]
  rw [matchToken, matchToken]
  simp only [hstarts]

/-- A keyword found is one of the table, and the text starts with it but
for case. -/
theorem matchToken_spec {str : Text} {t : TokenDef}
    (h : matchToken str = some t) :
    t ∈ applesoftTokens ∧ t.name.map toUpper <+: str.map toUpper :=
  ⟨List.mem_of_find?_eq_some h,
    (iequalsPrefix_iff str t.name).mp
      (List.find?_some (p := fun t : TokenDef => iequalsPrefix str t.name)
        h)⟩

/-- Where a keyword stands one is found. -/
theorem exists_matchToken {t : TokenDef} (ht : t ∈ applesoftTokens)
    (str : Text) : ∃ m, matchToken (t.name ++ str) = some m := by
  rw [← Option.isSome_iff_exists, matchToken, List.find?_isSome]
  refine ⟨t, ht, (iequalsPrefix_iff _ _).mpr ?_⟩
  rw [List.map_append]
  exact List.prefix_append _ _

/-- Characters a keyword has taken are passed over. -/
theorem tokenizeLoop_skip (upper q r : Bool) (n : Nat) (content : Text) :
    tokenizeLoop upper q r n content
      = tokenizeLoop upper q r 0 (content.drop n) := by
  induction content generalizing n with
  | nil => cases n <;> rfl
  | cons c content ih =>
    cases n with
    | zero => rfl
    | succ n =>
      rw [tokenizeLoop, ih, List.drop_succ_cons]

/-- The first character of a keyword is none that means something else. -/
theorem exists_name_eq_cons {t : TokenDef} (ht : t ∈ applesoftTokens) :
    ∃ c name, t.name = c :: name ∧ isKeywordChar c = true := by
  obtain ⟨hne, hchars, -⟩ := name_spec t ht
  obtain ⟨c, name, hname⟩ := List.exists_cons_of_ne_nil hne
  rw [hname, List.all_cons, Bool.and_eq_true] at hchars
  exact ⟨c, name, hname, hchars.1⟩

/-- A keyword of the text becomes its byte. -/
theorem tokenizeLoop_name {t : TokenDef} (ht : t ∈ applesoftTokens)
    (upper : Bool) {str : Text} {m : TokenDef}
    (hm : matchToken (t.name ++ str) = some m) :
    tokenizeLoop upper false false 0 (t.name ++ str)
      = m.token :: tokenizeLoop upper false (m.token = tokenRem) 0
        ((t.name ++ str).drop m.name.length) := by
  obtain ⟨c, name, hname, hc⟩ := exists_name_eq_cons ht
  have hquote : c ≠ quote := by
    rintro rfl
    exact nomatch hc
  obtain ⟨hne, -⟩ := name_spec m (matchToken_spec hm).1
  obtain ⟨n, hn⟩ := Nat.exists_eq_add_one.mpr (List.length_pos_iff.mpr hne)
  rw [hname, List.cons_append] at hm ⊢
  rw [tokenizeLoop, if_neg hquote]
  simp only [Bool.not_false, Bool.and_self, if_true, hm]
  rw [tokenizeLoop_skip, hn, Nat.add_sub_cancel, List.drop_succ_cons]

/-! ## Lines that come back -/

/-- **The lines whose text tokenizes back to them.** Outside quotes and
remarks the keyword found at each place is the one that stands there, and
none where a character stands; inside there is no keyword. On a machine
without small letters there are none. -/
def Retok (upper : Bool) : (inQuotes inRem : Bool) → Text → Prop
  | _, _, [] => True
  | q, r, b :: line =>
    if b = quote then Retok upper (!q) r line
    else if q || r then
      (b < 0x80 ∧ (upper = true → isLower b = false)) ∧ Retok upper q r line
    else
      match findTokenName b with
      | some name =>
        matchToken (name ++ detokenizeLoop q (b = tokenRem) line)
            = some ⟨b, name⟩
          ∧ Retok upper q (b = tokenRem) line
      | none =>
        (matchToken (b :: detokenizeLoop q r line) = none
            ∧ (upper = true → isLower b = false))
          ∧ Retok upper q r line

/-- Whether a line comes back can be computed. -/
instance decidableRetok (upper : Bool) :
    (q r : Bool) → (line : Text) → Decidable (Retok upper q r line)
  | _, _, [] => isTrue trivial
  | q, r, b :: line =>
    have := decidableRetok upper (!q) r line
    have := decidableRetok upper q r line
    have := decidableRetok upper q (b = tokenRem) line
    if hquote : b = quote then
      decidable_of_iff (Retok upper (!q) r line)
        (by rw [Retok, if_pos hquote])
    else if hqr : (q || r) = true then
      decidable_of_iff ((b < 0x80 ∧ (upper = true → isLower b = false))
          ∧ Retok upper q r line)
        (by rw [Retok, if_neg hquote, if_pos hqr])
    else
      match hname : findTokenName b with
      | some name =>
        decidable_of_iff
          (matchToken (name ++ detokenizeLoop q (b = tokenRem) line)
              = some ⟨b, name⟩ ∧ Retok upper q (b = tokenRem) line)
          (by rw [Retok, if_neg hquote, if_neg hqr, hname])
      | none =>
        decidable_of_iff
          ((matchToken (b :: detokenizeLoop q r line) = none
              ∧ (upper = true → isLower b = false)) ∧ Retok upper q r line)
          (by rw [Retok, if_neg hquote, if_neg hqr, hname])

/-- Only small letters are changed, where there are none. -/
theorem toNormalizedByte_eq_self_iff (upper : Bool) (b : UInt8) :
    toNormalizedByte b upper = b ↔ (upper = true → isLower b = false) := by
  grind [toNormalizedByte, isLower]

/-- Nothing becomes a space. -/
theorem eq_space_of_toNormalizedByte {upper : Bool} {b : UInt8}
    (h : toNormalizedByte b upper = 0x20) : b = 0x20 := by
  grind [toNormalizedByte]

/-- A character stays a character. -/
theorem toNormalizedByte_lt (upper : Bool) {b : UInt8} (h : b < 0x80) :
    toNormalizedByte b upper < 0x80 := by
  grind [toNormalizedByte]

/-- A character in quotes or in a remark. -/
theorem tokenizeLoop_verbatim (upper : Bool) {q r : Bool}
    (hqr : (q || r) = true) {c : UInt8} (hc : c ≠ quote) (content : Text) :
    tokenizeLoop upper q r 0 (c :: content)
      = toNormalizedByte c upper :: tokenizeLoop upper q r 0 content := by
  have hkeep : (!q && !r) = false := by
    rw [← Bool.not_or, hqr]
    rfl
  rw [tokenizeLoop, if_neg hc]
  simp only [hkeep, Bool.false_eq_true, if_false]

/-- A character outside, with no keyword at it. -/
theorem tokenizeLoop_char (upper : Bool) {c : UInt8} (hc : c ≠ quote)
    {content : Text} (hm : matchToken (c :: content) = none) :
    tokenizeLoop upper false false 0 (c :: content)
      = toNormalizedByte c upper
        :: tokenizeLoop upper false false 0 content := by
  rw [tokenizeLoop, if_neg hc]
  simp only [Bool.not_false, Bool.and_self, if_true, hm]

/-- A keyword is a byte of a statement. -/
theorem isStatementByte_token {m : TokenDef} (hm : m ∈ applesoftTokens) :
    isStatementByte m.token = true := by
  obtain ⟨hlo, hhi⟩ := token_bounds hm
  rw [isStatementByte, Bool.or_eq_true, Bool.and_eq_true, decide_eq_true_eq,
    decide_eq_true_eq]
  exact .inl ⟨UInt8.le_iff_toNat_le.mpr hlo, UInt8.le_iff_toNat_le.mpr hhi⟩

/-- A keyword found is no character. -/
theorem token_ne_of_lt {m : TokenDef} (hm : m ∈ applesoftTokens) {b : UInt8}
    (hb : b < 0x80) : m.token ≠ b := by
  rintro rfl
  exact absurd (UInt8.lt_iff_toNat_lt.mp hb)
    (Nat.not_lt.mpr (token_bounds hm).1)

theorem quote_lt : quote < 0x80 := by decide

/-- Leaving out the high bit leaves a character. -/
theorem toNat_and_7F (b : UInt8) : (b &&& 0x7F).toNat = b.toNat % 0x80 := by
  rw [UInt8.toNat_and]
  exact Nat.and_two_pow_sub_one_eq_mod b.toNat 7

theorem and_7F_lt (b : UInt8) : b &&& 0x7F < 0x80 := by
  rw [UInt8.lt_iff_toNat_lt, toNat_and_7F]
  exact Nat.mod_lt _ (by decide)

theorem and_7F_eq_self {b : UInt8} (h : b < 0x80) : b &&& 0x7F = b := by
  rw [← UInt8.toNat_inj, toNat_and_7F]
  exact Nat.mod_eq_of_lt (UInt8.lt_iff_toNat_lt.mp h)

/-- A byte of a statement that is no character stands for a keyword. -/
theorem exists_findTokenName {b : UInt8} (h : isStatementByte b = true)
    (hb : ¬ b < 0x80) : ∃ name, findTokenName b = some name := by
  simp only [isStatementByte, isPrintable, Bool.or_eq_true, Bool.and_eq_true,
    decide_eq_true_eq] at h
  have hhi : b ≤ 0xEA :=
    h.elim And.right fun h => UInt8.le_trans h.2 (by decide)
  obtain ⟨t, ht, rfl⟩ := exists_mem_tokens
    (UInt8.le_iff_toNat_le.mp (UInt8.not_lt.mp hb))
    (UInt8.le_iff_toNat_le.mp hhi)
  exact ⟨t.name, findTokenName_token ht⟩

/-- A byte of a statement is not the end of the line. -/
theorem ne_zero_of_isStatementByte {b : UInt8}
    (h : isStatementByte b = true) : b ≠ 0 := by
  rintro rfl
  exact nomatch h

/-- **When a line comes back from its text**: exactly when, at each of its
places, nothing is found in the text but what stands there. -/
theorem tokenizeLoop_detokenizeLoop_iff (upper q r : Bool) {line : Text}
    (h : ∀ b ∈ line, isStatementByte b = true) :
    tokenizeLoop upper q r 0 (detokenizeLoop q r line) = line
      ↔ Retok upper q r line := by
  induction line generalizing q r with
  | nil => exact iff_of_true rfl trivial
  | cons b line ih =>
    rw [List.forall_mem_cons] at h
    obtain ⟨hbyte, hrest⟩ := h
    rw [detokenizeLoop, if_neg (ne_zero_of_isStatementByte hbyte), Retok]
    by_cases hquote : b = quote
    · rw [if_pos hquote, if_pos hquote, tokenizeLoop, if_pos rfl,
        ← ih _ _ hrest, hquote, List.cons_inj_right]
    rw [if_neg hquote, if_neg hquote]
    by_cases hqr : (q || r) = true
    -- in quotes and in remarks a byte is written without its high bit
    · rw [if_pos (by rw [hqr]; rfl), if_pos hqr]
      by_cases hb : b < 0x80
      · rw [and_7F_eq_self hb, tokenizeLoop_verbatim upper hqr hquote,
          List.cons_eq_cons, toNormalizedByte_eq_self_iff, ih _ _ hrest]
        exact and_congr_left fun _ => (and_iff_right hb).symm
      · refine iff_of_false (fun heq => hb ?_) fun hre => hb hre.1.1
        by_cases hmasked : b &&& 0x7F = quote
        · rw [hmasked, tokenizeLoop, if_pos rfl] at heq
          rw [← (List.cons_eq_cons.mp heq).1]
          exact quote_lt
        · rw [tokenizeLoop_verbatim upper hqr hmasked] at heq
          rw [← (List.cons_eq_cons.mp heq).1]
          exact toNormalizedByte_lt upper (and_7F_lt b)
    have hout : q = false ∧ r = false := by
      rwa [Bool.not_eq_true, Bool.or_eq_false_iff] at hqr
    obtain ⟨rfl, rfl⟩ := hout
    rw [if_neg hqr]
    by_cases hb : b < 0x80
    -- at a character a keyword may begin
    · simp only [findTokenName_eq_none hb, decide_eq_true hb,
        Bool.or_true, if_true]
      rw [and_7F_eq_self hb]
      cases hm : matchToken (b :: detokenizeLoop false false line) with
      | none =>
        rw [tokenizeLoop_char upper hquote hm, List.cons_eq_cons,
          toNormalizedByte_eq_self_iff, ih _ _ hrest]
        exact and_congr_left fun _ => (and_iff_right rfl).symm
      | some m =>
        refine iff_of_false (fun heq => ?_) fun hre => nomatch hre.1.1
        rw [tokenizeLoop, if_neg hquote] at heq
        simp only [Bool.not_false, Bool.and_self, if_true, hm] at heq
        exact token_ne_of_lt (matchToken_spec hm).1 hb
          (List.cons_eq_cons.mp heq).1
    -- a keyword is written out, and another one may begin with it
    · obtain ⟨name, hname⟩ := exists_findTokenName hbyte hb
      have hmem := mem_of_findTokenName hname
      obtain ⟨m, hm⟩ := exists_matchToken hmem
        (detokenizeLoop false (b = tokenRem) line)
      simp only [hname, Bool.or_self, Bool.false_or, decide_eq_true_eq,
        if_neg hb]
      rw [tokenizeLoop_name hmem upper hm, hm]
      dsimp only
      by_cases hmb : m = ⟨b, name⟩
      · subst hmb
        dsimp only
        rw [List.drop_left, List.cons_inj_right, ih _ _ hrest]
        exact (and_iff_right rfl).symm
      · refine iff_of_false (fun heq => hmb ?_)
          fun hre => hmb (Option.some.inj hre.1)
        have htoken := (List.cons_eq_cons.mp heq).1
        have hfind := findTokenName_token (matchToken_spec hm).1
        rw [htoken, hname] at hfind
        rw [← htoken, Option.some.inj hfind]

/-- **One turn of the tokenizer**: a quote, a keyword or a character. -/
theorem tokenizeLoop_zero_cons (upper q r : Bool) (c : UInt8)
    (content : Text) :
    (c = quote ∧ tokenizeLoop upper q r 0 (c :: content)
      = quote :: tokenizeLoop upper (!q) r 0 content)
    ∨ (c ≠ quote ∧ q = false ∧ r = false
      ∧ ∃ m, matchToken (c :: content) = some m
        ∧ tokenizeLoop upper q r 0 (c :: content)
          = m.token :: tokenizeLoop upper false (m.token = tokenRem)
            (m.name.length - 1) content)
    ∨ (c ≠ quote ∧ ((q || r) = true ∨ matchToken (c :: content) = none)
      ∧ tokenizeLoop upper q r 0 (c :: content)
        = toNormalizedByte c upper :: tokenizeLoop upper q r 0 content) := by
  by_cases hquote : c = quote
  · exact .inl ⟨hquote, by rw [tokenizeLoop, if_pos hquote, hquote]⟩
  by_cases hqr : (q || r) = true
  · exact .inr (.inr ⟨hquote, .inl hqr,
      tokenizeLoop_verbatim upper hqr hquote content⟩)
  rw [Bool.not_eq_true, Bool.or_eq_false_iff] at hqr
  obtain ⟨rfl, rfl⟩ := hqr
  cases hm : matchToken (c :: content) with
  | none => exact .inr (.inr ⟨hquote, .inr rfl,
      tokenizeLoop_char upper hquote hm⟩)
  | some m =>
    refine .inr (.inl ⟨hquote, rfl, rfl, m, rfl, ?_⟩)
    rw [tokenizeLoop, if_neg hquote]
    simp only [Bool.not_false, Bool.and_self, if_true, hm]

/-! ## The text of a line, byte by byte -/

theorem lt_of_isPrintable {c : UInt8} (h : isPrintable c = true) :
    c < 0x80 := by
  grind [isPrintable]

theorem detokenizeLoop_quote (q r : Bool) (line : Text) :
    detokenizeLoop q r (quote :: line)
      = quote :: detokenizeLoop (!q) r line := by
  rw [detokenizeLoop, if_neg (by decide), if_pos rfl]

theorem detokenizeLoop_char {c : UInt8} (hc : isPrintable c = true)
    (hquote : c ≠ quote) (q r : Bool) (line : Text) :
    detokenizeLoop q r (c :: line) = c :: detokenizeLoop q r line := by
  have hlt := lt_of_isPrintable hc
  rw [detokenizeLoop, if_neg (ne_zero_of_isStatementByte (by
      rw [isStatementByte, hc, Bool.or_true])), if_neg hquote,
    decide_eq_true hlt, Bool.or_true, if_pos rfl, and_7F_eq_self hlt]

theorem detokenizeLoop_token {t : TokenDef} (ht : t ∈ applesoftTokens)
    (line : Text) : detokenizeLoop false false (t.token :: line)
      = t.name ++ detokenizeLoop false (t.token = tokenRem) line := by
  have hname := findTokenName_token ht
  have hlt : ¬ t.token < 0x80 := fun h => token_ne_of_lt ht h rfl
  rw [detokenizeLoop, if_neg, if_neg]
  · simp only [hname, Bool.or_self, Bool.false_or, decide_eq_true_eq,
      if_neg hlt]
  · exact token_ne_of_lt ht quote_lt
  · exact token_ne_of_lt ht (by decide)

/-- A keyword is written with printable characters, none of them a small
letter or a space. -/
theorem isPrintable_name {t : TokenDef} (ht : t ∈ applesoftTokens) :
    ∀ c ∈ t.name, isPrintable c = true ∧ isLower c = false ∧ c ≠ 0x20 := by
  obtain ⟨-, hchars, -⟩ := name_spec t ht
  intro c hc
  have h := List.all_eq_true.mp hchars c hc
  simp only [isKeywordChar, Bool.and_eq_true, decide_eq_true_eq,
    Bool.not_eq_true'] at h
  obtain ⟨⟨⟨hlo, hhi⟩, -⟩, hsmall⟩ := h
  refine ⟨?_, hsmall, ?_⟩
  · rw [isPrintable, Bool.and_eq_true, decide_eq_true_eq, decide_eq_true_eq]
    exact ⟨UInt8.le_of_lt hlo, hhi⟩
  · rintro rfl
    exact UInt8.lt_irrefl _ hlo

/-- A byte of a statement below `$80` is a printable character. -/
theorem isPrintable_of_lt {b : UInt8} (h : isStatementByte b = true)
    (hb : b < 0x80) : isPrintable b = true := by
  grind [isStatementByte, isPrintable]

/-- **The text of a line that comes back** is made of printable characters,
without small letters where there are none. -/
theorem isPrintable_detokenizeLoop (upper q r : Bool) {line : Text}
    (h : ∀ b ∈ line, isStatementByte b = true) (hre : Retok upper q r line) :
    ∀ c ∈ detokenizeLoop q r line,
      isPrintable c = true ∧ (upper = true → isLower c = false) := by
  induction line generalizing q r with
  | nil => exact fun c hc => nomatch hc
  | cons b line ih =>
    rw [List.forall_mem_cons] at h
    obtain ⟨hbyte, hrest⟩ := h
    rw [Retok] at hre
    by_cases hquote : b = quote
    · rw [if_pos hquote] at hre
      rw [hquote, detokenizeLoop_quote, List.forall_mem_cons]
      exact ⟨⟨rfl, fun _ => rfl⟩, ih _ _ hrest hre⟩
    rw [if_neg hquote] at hre
    by_cases hb : b < 0x80
    · have hprint := isPrintable_of_lt hbyte hb
      rw [detokenizeLoop_char hprint hquote, List.forall_mem_cons]
      split at hre
      · exact ⟨⟨hprint, hre.1.2⟩, ih _ _ hrest hre.2⟩
      · simp only [findTokenName_eq_none hb] at hre
        exact ⟨⟨hprint, hre.1.2⟩, ih _ _ hrest hre.2⟩
    · split at hre
      · exact absurd hre.1.1 hb
      · next hqr =>
        rw [Bool.not_eq_true, Bool.or_eq_false_iff] at hqr
        obtain ⟨rfl, rfl⟩ := hqr
        obtain ⟨name, hname⟩ := exists_findTokenName hbyte hb
        have hmem := mem_of_findTokenName hname
        simp only [hname] at hre
        rw [detokenizeLoop_token hmem, List.forall_mem_append]
        exact ⟨fun c hc => ⟨(isPrintable_name hmem c hc).1,
          fun _ => (isPrintable_name hmem c hc).2.1⟩, ih _ _ hrest hre.2⟩

/-- The text of a line starts with a space where the line does. -/
theorem head?_detokenizeLoop {line : Text}
    (h : ∀ b ∈ line, isStatementByte b = true)
    (hhead : line.head? ≠ some 0x20) :
    (detokenizeLoop false false line).head? ≠ some 0x20 := by
  cases line with
  | nil => exact hhead
  | cons b line =>
    rw [List.forall_mem_cons] at h
    obtain ⟨hbyte, -⟩ := h
    by_cases hb : b < 0x80
    · by_cases hquote : b = quote
      · rw [hquote, detokenizeLoop_quote]
        exact fun h => nomatch h
      · rw [detokenizeLoop_char (isPrintable_of_lt hbyte hb) hquote]
        exact hhead
    · obtain ⟨name, hname⟩ := exists_findTokenName hbyte hb
      have hmem := mem_of_findTokenName hname
      obtain ⟨c, rest, hcons, -⟩ := exists_name_eq_cons hmem
      have hc := (isPrintable_name hmem c (hcons ▸ List.mem_cons_self)).2.2
      rw [detokenizeLoop_token hmem, show name = c :: rest from hcons]
      exact fun h => hc (Option.some.inj h)

/-- Where a text does not start with a space, neither does what it is
tokenized to. -/
theorem head?_tokenizeLoop (upper : Bool) {content : Text}
    (h : ∀ c ∈ content, isPrintable c = true)
    (hhead : content.head? ≠ some 0x20) :
    (tokenizeLoop upper false false 0 content).head? ≠ some 0x20 := by
  cases content with
  | nil => exact fun h => nomatch h
  | cons c content =>
    rw [List.forall_mem_cons] at h
    rcases tokenizeLoop_zero_cons upper false false c content with
      ⟨-, heq⟩ | ⟨-, -, -, m, hm, heq⟩ | ⟨-, -, heq⟩
    · rw [heq]
      exact fun h => nomatch h
    · rw [heq]
      exact fun h => token_ne_of_lt (matchToken_spec hm).1
        (by decide) (Option.some.inj h)
    · rw [heq]
      exact fun hc => hhead (congrArg some
        (eq_space_of_toNormalizedByte (Option.some.inj hc)))

/-! ## Lines made from text -/

/-- Normalizing changes nothing but case. -/
theorem toUpper_toNormalizedByte (upper : Bool) (c : UInt8) :
    toUpper (toNormalizedByte c upper) = toUpper c := by
  grind [toNormalizedByte, toUpper]

/-- A printable character stays one, and no other becomes a quote. -/
theorem isPrintable_toNormalizedByte (upper : Bool) {c : UInt8}
    (h : isPrintable c = true) :
    isPrintable (toNormalizedByte c upper) = true
      ∧ (toNormalizedByte c upper = quote → c = quote)
      ∧ (upper = true → isLower (toNormalizedByte c upper) = false) := by
  grind [toNormalizedByte, isPrintable, isLower, quote]

/-- A keyword found and what is left make up the text, but for case. -/
theorem map_toUpper_matched {c : UInt8} {content : Text} {m : TokenDef}
    (hm : matchToken (c :: content) = some m) :
    m.name.map toUpper ++ (content.drop (m.name.length - 1)).map toUpper
      = (c :: content).map toUpper := by
  obtain ⟨hmem, hstarts⟩ := matchToken_spec hm
  obtain ⟨hne, -⟩ := name_spec m hmem
  obtain ⟨n, hn⟩ := Nat.exists_eq_add_one.mpr (List.length_pos_iff.mpr hne)
  have hsplit := List.prefix_iff_eq_append.mp hstarts
  rw [List.length_map, hn, List.map_cons, List.drop_succ_cons,
    ← List.map_drop] at hsplit
  rw [hn, Nat.add_sub_cancel, hsplit, List.map_cons]

/-- What a printable text is tokenized to is made of keywords and printable
characters. -/
theorem isStatementByte_tokenizeLoop (upper q r : Bool) (skip : Nat)
    {content : Text} (h : ∀ c ∈ content, isPrintable c = true) :
    ∀ b ∈ tokenizeLoop upper q r skip content, isStatementByte b = true := by
  induction content generalizing q r skip with
  | nil => cases skip <;> exact fun b hb => nomatch hb
  | cons c content ih =>
    rw [List.forall_mem_cons] at h
    obtain ⟨hc, hcontent⟩ := h
    cases skip with
    | succ skip => exact ih q r skip hcontent
    | zero =>
      rcases tokenizeLoop_zero_cons upper q r c content with
        ⟨-, heq⟩ | ⟨-, -, -, m, hm, heq⟩ | ⟨-, -, heq⟩
      · rw [heq, List.forall_mem_cons]
        exact ⟨rfl, ih _ _ _ hcontent⟩
      · rw [heq, List.forall_mem_cons]
        exact ⟨isStatementByte_token (matchToken_spec hm).1,
          ih _ _ _ hcontent⟩
      · rw [heq, List.forall_mem_cons, isStatementByte,
          (isPrintable_toNormalizedByte upper hc).1, Bool.or_true]
        exact ⟨rfl, ih _ _ _ hcontent⟩

/-- **The text of what a text is tokenized to** is that text but for
case. -/
theorem map_toUpper_detokenizeLoop (upper q r : Bool) (skip : Nat)
    {content : Text} (h : ∀ c ∈ content, isPrintable c = true) :
    (detokenizeLoop q r (tokenizeLoop upper q r skip content)).map toUpper
      = (content.drop skip).map toUpper := by
  induction content generalizing q r skip with
  | nil => cases skip <;> rfl
  | cons c content ih =>
    rw [List.forall_mem_cons] at h
    obtain ⟨hc, hcontent⟩ := h
    cases skip with
    | succ skip => exact ih q r skip hcontent
    | zero =>
      rcases tokenizeLoop_zero_cons upper q r c content with
        ⟨rfl, heq⟩ | ⟨-, rfl, rfl, m, hm, heq⟩ | ⟨hquote, -, heq⟩
      · rw [heq, detokenizeLoop_quote, List.map_cons, ih _ _ _ hcontent]
        rfl
      · obtain ⟨hmem, hstarts⟩ := matchToken_spec hm
        rw [heq, detokenizeLoop_token hmem, List.map_append,
          ih _ _ _ hcontent]
        exact map_toUpper_matched hm
      · obtain ⟨hprint, hback, -⟩ := isPrintable_toNormalizedByte upper hc
        rw [heq, detokenizeLoop_char hprint fun h => hquote (hback h),
          List.map_cons, ih _ _ _ hcontent, toUpper_toNormalizedByte]
        rfl

/-- **What a text is tokenized to comes back from its own text.** -/
theorem retok_tokenizeLoop (upper q r : Bool) (skip : Nat)
    {content : Text} (h : ∀ c ∈ content, isPrintable c = true) :
    Retok upper q r (tokenizeLoop upper q r skip content) := by
  -- on the characters left, the state of the quotes and the rest of a token generalised with them
  induction content generalizing q r skip with
  | nil => cases skip <;> exact trivial
  | cons c content ih =>
    have htext := map_toUpper_detokenizeLoop upper
    rw [List.forall_mem_cons] at h
    obtain ⟨hc, hcontent⟩ := h
    cases skip with
    | succ skip => exact ih q r skip hcontent
    | zero =>
      -- a quote, a token, and a character that starts none, which starts none in the listing either
      rcases tokenizeLoop_zero_cons upper q r c content with
        ⟨rfl, heq⟩ | ⟨-, rfl, rfl, m, hm, heq⟩ | ⟨hquote, hnone, heq⟩
      · rw [heq, Retok, if_pos rfl]
        exact ih _ _ _ hcontent
      · have hmem := (matchToken_spec hm).1
        have hname := findTokenName_token hmem
        rw [heq, Retok, if_neg (token_ne_of_lt hmem quote_lt),
          if_neg (by decide)]
        simp only [hname]
        refine ⟨?_, ih _ _ _ hcontent⟩
        rw [← hm]
        refine matchToken_congr ?_
        rw [List.map_append, htext _ _ _ hcontent]
        exact map_toUpper_matched hm
      · obtain ⟨hprint, hback, hsmall⟩ :=
          isPrintable_toNormalizedByte upper hc
        have hlt := lt_of_isPrintable hprint
        rw [heq, Retok, if_neg fun h => hquote (hback h)]
        split
        · exact ⟨⟨hlt, hsmall⟩, ih _ _ _ hcontent⟩
        · next hqr =>
          simp only [findTokenName_eq_none hlt]
          refine ⟨⟨?_, hsmall⟩, ih _ _ _ hcontent⟩
          rw [← hnone.resolve_left hqr]
          refine matchToken_congr ?_
          rw [List.map_cons, List.map_cons, htext _ _ _ hcontent,
            toUpper_toNormalizedByte]
          rfl

end LinApple.Basic
