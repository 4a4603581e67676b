import LinApple.Debugger.Parser

/-!
# Lines made of pieces

A line is spelled from pieces, each a word or a single character that is a token, with blanks
before it, such that no word runs into the next piece. Its arguments are the pieces again, as many
as there is room for (`argsGet_spelled`).
-/

namespace LinApple.Debugger

/-! ## Pieces -/

/-- A piece of a line, with the blanks before it. -/
structure Piece where
  blanks : List Char
  text : List Char
deriving DecidableEq, Repr

/-- A text that is one word. -/
def IsWord (text : List Char) : Prop := text ≠ [] ∧ ∀ c ∈ text, isWordChar c ∧ c ≠ '\t'

instance (text : List Char) : Decidable (IsWord text) :=
  have : Decidable (∀ c ∈ text, isWordChar c ∧ c ≠ '\t') := List.decidableBAll _ text
  inferInstanceAs (Decidable (_ ∧ _))

/-- A text that is one character, a token that is stored. -/
def IsMark (text : List Char) : Prop :=
  ∃ c, text = [c] ∧ ¬ isWordChar c ∧ c ≠ ' ' ∧ c ≠ '"' ∧ c ≠ '\''

theorem isMark_singleton {c : Char} :
    IsMark [c] ↔ ¬ isWordChar c ∧ c ≠ ' ' ∧ c ≠ '"' ∧ c ≠ '\'' := by
  refine ⟨?_, fun h => ⟨c, rfl, h⟩⟩
  rintro ⟨d, hd, h⟩
  obtain rfl := List.singleton_inj.1 hd
  exact h

instance : DecidablePred IsMark
  | [] => isFalse fun ⟨_, h, _⟩ => nomatch h
  | [_] => decidable_of_iff _ isMark_singleton.symm
  | _ :: _ :: _ => isFalse fun ⟨_, h, _⟩ => nomatch h

/-- A text behind which a word ends. -/
def EndsWord (rest : List Char) : Prop := ∀ c ∈ rest.head?, ¬ isWordChar c

instance : DecidablePred EndsWord
  | [] => isTrue fun _ h => nomatch h
  | c :: _ => decidable_of_iff (¬ isWordChar c) (by simp [EndsWord])

namespace Piece

/-- The piece as it stands in the line. -/
def spelled (p : Piece) : List Char := p.blanks ++ p.text

/-- What is stored of the piece. -/
def arg (p : Piece) : ConsoleArg :=
  storeArg p.text (findTokenOrAlphaNumeric (p.text.headD ' '))

/-- **A piece that is read before what is behind it.** -/
def Reads (p : Piece) (rest : List Char) : Prop :=
  (∀ c ∈ p.blanks, c = ' ' ∨ c = '\t') ∧ (IsWord p.text ∧ EndsWord rest ∨ IsMark p.text)

instance (p : Piece) (rest : List Char) : Decidable (p.Reads rest) :=
  have : Decidable (∀ c ∈ p.blanks, c = ' ' ∨ c = '\t') := List.decidableBAll _ p.blanks
  inferInstanceAs (Decidable (_ ∧ _))

end Piece

/-- **Pieces that are read one after the other.** -/
def Readable : List Piece → Prop
  | [] => True
  | p :: pieces => p.Reads (pieces.flatMap Piece.spelled) ∧ Readable pieces

instance decidableReadable : DecidablePred Readable
  | [] => isTrue trivial
  | _ :: pieces =>
    have : Decidable (Readable pieces) := decidableReadable pieces
    inferInstanceAs (Decidable (_ ∧ _))

/-! ## How they are read -/

theorem findTokenOrAlphaNumeric_of_wordChar {c : Char} (h : isWordChar c) :
    findTokenOrAlphaNumeric c = .alphanumeric := by
  unfold isWordChar at h
  rw [decide_eq_true_eq] at h
  unfold findTokenOrAlphaNumeric
  split
  · rfl
  · rw [h]
    rfl

/-- A letter or a digit is no token. -/
theorem isWordChar_of_isAlphanum {c : Char} (h : c.isAlphanum) : isWordChar c := by
  have hnone : ∀ t ∈ tokens, ¬ t.2.2 = c := by
    have hall : ∀ t ∈ tokens, t.2.2.isAlphanum = false := by decide
    rintro t ht rfl
    exact absurd h (by rw [hall t ht]; exact Bool.false_ne_true)
  unfold isWordChar parserFindToken
  rw [decide_eq_true_eq, Option.map_eq_none_iff, List.find?_eq_none]
  intro t ht
  rw [decide_eq_true_eq]
  exact hnone t ht

theorem findTokenOrAlphaNumeric_ne {c : Char} (h : ¬ isWordChar c) :
    findTokenOrAlphaNumeric c ≠ .alphanumeric := by
  have hnot := mt isWordChar_of_isAlphanum h
  unfold findTokenOrAlphaNumeric
  rw [if_neg hnot]
  unfold isWordChar at h
  rw [decide_eq_true_eq] at h
  unfold parserFindToken at h ⊢
  cases hfind : tokens.find? fun t => t.2.2 = c with
  | none =>
    rw [hfind] at h
    exact absurd rfl h
  | some t =>
    have hall : ∀ t ∈ tokens, t.1 ≠ .alphanumeric := by decide
    exact hall t (List.mem_of_find?_eq_some hfind)

/-- The blanks before a piece are skipped. -/
theorem skipWhiteSpace_append {blanks rest : List Char} (h : ∀ c ∈ blanks, c = ' ' ∨ c = '\t')
    (hrest : ∀ c ∈ rest.head?, c ≠ ' ' ∧ c ≠ '\t') :
    skipWhiteSpace (blanks ++ rest) = rest := by
  unfold skipWhiteSpace
  rw [List.dropWhile_append_of_pos fun c hc => decide_eq_true (h c hc)]
  cases rest with
  | nil => rfl
  | cons c rest =>
    refine List.dropWhile_cons_of_neg ?_
    rw [decide_eq_true_eq, not_or]
    exact hrest c rfl

/-- What is not skipped before a piece. -/
theorem Piece.Reads.head {p : Piece} {rest : List Char} (h : p.Reads rest) :
    ∃ c behind, p.text = c :: behind ∧ c ≠ ' ' ∧ c ≠ '\t' := by
  rcases h.2 with ⟨⟨hne, hword⟩, -⟩ | ⟨c, htext, hmark, hspace, -⟩
  · obtain ⟨c, behind, htext⟩ := List.exists_cons_of_ne_nil hne
    obtain ⟨hc, htab⟩ := hword c (htext ▸ List.mem_cons_self)
    refine ⟨c, behind, htext, ?_, htab⟩
    rintro rfl
    exact absurd hc (by decide)
  · refine ⟨c, [], htext, hspace, ?_⟩
    rintro rfl
    exact hmark (by decide)

/-- **A round reads a piece.** -/
theorem getRound_spelled {p : Piece} {rest : List Char} (h : p.Reads rest)
    {args : List ConsoleArg} (hroom : args.length < maxArgs) :
    getRound ⟨p.spelled ++ rest, args⟩ = .next ⟨rest, args ++ [p.arg]⟩ := by
  obtain ⟨c, behind, htext, hspace, htab⟩ := h.head
  have hskip : skipWhiteSpace (p.spelled ++ rest) = c :: (behind ++ rest) := by
    unfold Piece.spelled
    rw [List.append_assoc, skipWhiteSpace_append h.1, htext]
    · rfl
    · rw [htext]
      rintro d hd
      cases hd
      exact ⟨hspace, htab⟩
  have hne : p.spelled ++ rest ≠ [] := by
    intro hnil
    rw [hnil] at hskip
    cases hskip
  unfold getRound
  rw [if_neg (not_or.2 ⟨hne, Nat.not_le.2 hroom⟩), hskip]
  dsimp only
  unfold getArg Piece.arg
  rw [htext, List.headD_cons]
  -- a word ends before the first character that cannot stand in one; a mark stands by itself
  rcases h.2 with ⟨⟨-, hword⟩, hends⟩ | ⟨d, hd, hmark, -, hdouble, hsingle⟩
  · have hword' : ∀ x ∈ behind, isWordChar x := fun x hx =>
      (hword x (htext ▸ List.mem_cons_of_mem c hx)).1
    rw [findTokenOrAlphaNumeric_of_wordChar (hword c (htext ▸ List.mem_cons_self)).1]
    dsimp only
    have hstop : rest.takeWhile isWordChar = [] ∧ rest.dropWhile isWordChar = rest := by
      cases rest with
      | nil => exact ⟨rfl, rfl⟩
      | cons x rest =>
        exact ⟨List.takeWhile_cons_of_neg (hends x rfl), List.dropWhile_cons_of_neg (hends x rfl)⟩
    rw [List.takeWhile_append_of_pos hword', List.dropWhile_append_of_pos hword', hstop.1, hstop.2,
      List.append_nil]
  · obtain ⟨rfl, rfl⟩ := List.cons.inj (hd.symm.trans htext)
    have halpha := findTokenOrAlphaNumeric_ne hmark
    split
    · rename_i heq
      exact absurd heq halpha
    · rw [if_neg (mt findToken_quote.1 (not_or.2 ⟨hdouble, hsingle⟩)), List.nil_append]

/-- **The pieces are read one after the other**, until there is no room. -/
theorem run_spelled {pieces : List Piece} (h : Readable pieces) {args : List ConsoleArg}
    (hroom : args.length ≤ maxArgs) {n : Nat} (hn : pieces.length < n) :
    Round.run getRound n ⟨pieces.flatMap Piece.spelled, args⟩
      = .returned ((args ++ pieces.map Piece.arg).take maxArgs) := by
  induction pieces generalizing args n with
  | nil =>
    obtain ⟨n, rfl⟩ := Nat.exists_eq_succ_of_ne_zero (Nat.ne_zero_of_lt hn)
    rw [Round.run, List.map_nil, List.append_nil, List.take_of_length_le hroom]
    unfold getRound
    rw [if_pos (.inl rfl)]
  | cons p pieces ih =>
    obtain ⟨n, rfl⟩ := Nat.exists_eq_succ_of_ne_zero (Nat.ne_zero_of_lt hn)
    obtain ⟨hread, hrest⟩ := h
    rw [Round.run]
    by_cases hfull : args.length = maxArgs
    · have hstop : getRound ⟨(p :: pieces).flatMap Piece.spelled, args⟩ = .stop args := by
        unfold getRound
        rw [if_pos (.inr hfull.ge)]
      rw [hstop, List.take_append_of_le_length hfull.ge, List.take_of_length_le hfull.le]
    · have hlt := lt_of_le_of_ne hroom hfull
      rw [List.flatMap_cons, getRound_spelled hread hlt]
      dsimp only
      rw [ih hrest (by rw [List.length_append, List.length_singleton]; omega)
        (by rw [List.length_cons] at hn; omega), List.map_cons, List.append_assoc,
        List.singleton_append]

theorem length_le_spelled {pieces : List Piece} (h : Readable pieces) :
    pieces.length ≤ (pieces.flatMap Piece.spelled).length := by
  induction pieces with
  | nil => exact Nat.le_refl 0
  | cons p pieces ih =>
    obtain ⟨c, behind, htext, -⟩ := h.1.head
    have hrest := ih h.2
    rw [List.flatMap_cons, List.length_append, Piece.spelled, List.length_append, htext,
      List.length_cons, List.length_cons]
    omega

/-- **A line is cut into its pieces**, as many as there is room for. -/
theorem argsGet_spelled {pieces : List Piece} (h : Readable pieces) :
    argsGet (pieces.flatMap Piece.spelled)
      = .returned ((pieces.map Piece.arg).take maxArgs) := by
  have hlen := length_le_spelled h
  exact run_spelled h (Nat.zero_le _) (by omega)

/-- A piece does not end in a blank. -/
theorem Piece.Reads.getLast_ne {p : Piece} {rest : List Char} (h : p.Reads rest) :
    ∀ c ∈ p.spelled.getLast?, c ≠ ' ' := by
  rintro c hc rfl
  obtain ⟨d, behind, htext, -⟩ := h.head
  unfold Piece.spelled at hc
  rw [List.getLast?_append_of_ne_nil _ (by rw [htext]; exact List.cons_ne_nil d behind)] at hc
  rcases h.2 with ⟨⟨-, hword⟩, -⟩ | ⟨d, htext, -, hspace, -⟩
  · exact absurd (hword ' ' (List.mem_of_getLast? hc)).1 (by decide)
  · rw [htext] at hc
    cases hc
    exact hspace rfl

theorem getLast_spelled_ne {pieces : List Piece} (h : Readable pieces) :
    ∀ c ∈ (pieces.flatMap Piece.spelled).getLast?, c ≠ ' ' := by
  induction pieces with
  | nil => exact nofun
  | cons p pieces ih =>
    rintro c hc
    rw [List.flatMap_cons, List.getLast?_append] at hc
    cases hlast : (pieces.flatMap Piece.spelled).getLast? with
    | none =>
      rw [hlast, Option.none_or] at hc
      exact h.1.getLast_ne c hc
    | some d =>
      rw [hlast, Option.some_or] at hc
      exact ih h.2 c (hlast.trans hc)

/-- The blanks behind the last piece are not read. -/
theorem rdropWhile_spelled {pieces : List Piece} (h : Readable pieces) (n : Nat) :
    (pieces.flatMap Piece.spelled ++ List.replicate n ' ').rdropWhile (· = ' ')
      = pieces.flatMap Piece.spelled := by
  induction n with
  | zero =>
    rw [List.replicate_zero, List.append_nil, List.rdropWhile_eq_self_iff]
    intro hne
    rw [decide_eq_true_eq]
    exact getLast_spelled_ne h _ (List.getLast?_eq_some_getLast hne)
  | succ n ih =>
    rw [List.replicate_succ', ← List.append_assoc]
    exact (List.rdropWhile_concat_pos _ _ _ rfl).trans ih

/-- **What a line of pieces is parsed as.** -/
theorem parseInput_spelled {pieces : List Piece} (h : Readable pieces) (n : Nat) :
    parseInput (pieces.flatMap Piece.spelled ++ List.replicate n ' ')
      = some (min maxArgs pieces.length - 1,
        fun i => ((pieces.map Piece.arg).take maxArgs).getD i .cleared) := by
  unfold parseInput
  rw [rdropWhile_spelled h, argsGet_spelled h]
  dsimp only
  rw [List.length_take, List.length_map]

end LinApple.Debugger
