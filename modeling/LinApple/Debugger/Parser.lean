import LinApple.Lib.Rounds
import Mathlib.Data.List.DropRight

/-!
# Console lines

A line of the console is cut into arguments of the text of a token each, or of a word without
tokens. What is left of the line is the list of its characters up to the terminator; a pointer
that is moved behind the terminator, and what is read there, is no state of the loop any more.

The tokens of two characters are not in the table, so that none of them is ever found, the mark of
a comment with them.
-/

namespace LinApple.Debugger

/-! ## Tokens -/

/-- `ArgToken` -/
inductive Token where
  | alphanumeric | ampersand | at | braceL | braceR | bracketL | bracketR | bslash | caret
  | colon | comma | dollar | equal | exclamation | fslash | greaterThan | hash | lessThan | minus
  | parenL | parenR | percent | pipe | plus | quoteSingle | quoteDouble | semi | space | star
  | tilde
  /-- `NO_TOKEN` -/
  | none
deriving DecidableEq, Repr

/-- `tokens`: the character of a token, and whether its type is `TYPE_OPERATOR`. -/
def tokens : List (Token × Bool × Char) :=
  [(.ampersand, true, '&'), (.at, true, '@'), (.braceL, false, '\x7b'), (.braceR, false, '\x7d'),
    (.bracketL, false, '['), (.bracketR, false, ']'), (.bslash, true, '\\'), (.caret, true, '^'),
    (.colon, true, ':'), (.comma, true, ','), (.dollar, false, '$'), (.equal, true, '='),
    (.exclamation, true, '!'), (.fslash, true, '/'), (.greaterThan, true, '>'),
    (.hash, true, '#'), (.lessThan, true, '<'), (.minus, true, '-'), (.parenL, false, '('),
    (.parenR, false, ')'), (.percent, true, '%'), (.pipe, true, '|'), (.plus, true, '+'),
    (.quoteSingle, false, '\''), (.quoteDouble, false, '"'), (.semi, true, ';'),
    (.space, false, ' '), (.star, true, '*'), (.tilde, true, '~')]

/-- `ParserFindToken`, at a character that is not the terminator. -/
def parserFindToken (c : Char) : Option Token :=
  (tokens.find? fun t => t.2.2 = c).map (·.1)

/-- `tokens[iTokenSrc].eType == TYPE_OPERATOR` -/
def Token.isOperator (token : Token) : Bool :=
  tokens.any fun t => t.1 = token && t.2.1

/-- `FindTokenOrAlphaNumeric`, where what is no token counts as a word. -/
def findTokenOrAlphaNumeric (c : Char) : Token :=
  if c.isAlphanum then .alphanumeric else (parserFindToken c).getD .alphanumeric

/-! ## Arguments -/

/-- The flags of `bType` the parser sets. -/
structure ArgType where
  /-- `TYPE_ADDRESS` -/
  address : Bool := false
  /-- `TYPE_OPERATOR` -/
  operator : Bool := false
  /-- `TYPE_STRING` -/
  string : Bool := false
  /-- `TYPE_VALUE` -/
  value : Bool := false
  /-- `TYPE_NO_REG` -/
  noReg : Bool := false
  /-- `TYPE_NO_SYM` -/
  noSym : Bool := false
deriving DecidableEq, Repr

/-- `Arg`, less `eDevice`. -/
structure ConsoleArg where
  /-- `sArg` -/
  text : List Char
  /-- `nArgLen` -/
  argLen : Nat
  /-- `nValue` -/
  value : UInt16
  /-- `eToken` -/
  token : Token
  /-- `bType` -/
  type : ArgType
  /-- `bSymbol` -/
  isSymbol : Bool
deriving DecidableEq, Repr

/-- `ClearArg` -/
def ConsoleArg.cleared : ConsoleArg where
  text := []
  argLen := 0
  value := 0
  token := .none
  type := { string := true }
  isSymbol := false

/-- `MAX_ARGS` -/
def maxArgs : Nat := 32

/-- `MAX_ARG_LEN` -/
def maxArgLen : Nat := 56

/-- What is stored of a text. -/
def storeArg (text : List Char) (token : Token) : ConsoleArg where
  text := text.take (maxArgLen - 1)
  argLen := min text.length (maxArgLen - 1)
  value := 0
  token := token
  type := { operator := token.isOperator, string := !token.isOperator }
  isSymbol := false

/-! ## Lines -/

/-- `skip_white_space` -/
def skipWhiteSpace (line : List Char) : List Char :=
  line.dropWhile fun c => c = ' ' ∨ c = '\t'

/-- **The loop of `ArgsGet`**: what is left of the line, and `arg_raw` up to `iArg`. -/
structure GetState where
  rest : List Char
  args : List ConsoleArg
deriving DecidableEq, Repr

/-- A character is in a word: `SkipUntilToken` does not stop there. -/
def isWordChar (c : Char) : Bool := parserFindToken c = none

/-- A round at a character, with what is behind it. -/
def getArg (c : Char) (behind : List Char) (args : List ConsoleArg) :
    Round GetState (List ConsoleArg) :=
  match findTokenOrAlphaNumeric c with
  | .alphanumeric =>
    .next ⟨behind.dropWhile isWordChar,
      args ++ [storeArg (c :: behind.takeWhile isWordChar) .alphanumeric]⟩
  | token =>
    if token = .quoteDouble ∨ token = .quoteSingle then
      let text := behind.takeWhile (· ≠ c)
      -- an empty text is not stored, and only its first quote is passed
      if text = [] then .next ⟨behind, args⟩
      else
        match behind.dropWhile (· ≠ c) with
        | [] => .wrong
        | _ :: rest => .next ⟨rest, args ++ [storeArg text token]⟩
    else .next ⟨behind, args ++ [storeArg [c] token]⟩

/-- **A round of `ArgsGet`.** -/
def getRound (s : GetState) : Round GetState (List ConsoleArg) :=
  if s.rest = [] ∨ maxArgs ≤ s.args.length then .stop s.args
  else
    match skipWhiteSpace s.rest with
    -- the search for the next token starts behind the terminator
    | [] => .wrong
    | c :: behind => getArg c behind s.args

/-- **`ArgsGet`**: `arg_raw` up to `arg_raw_count`. -/
def argsGet (line : List Char) : Ending (List ConsoleArg) :=
  Round.run getRound (line.length + 1) ⟨line, []⟩

/-- **`ParseInput`**: the number of arguments behind the command, and `args`. -/
def parseInput (line : List Char) : Option (Nat × (Nat → ConsoleArg)) :=
  match argsGet (line.rdropWhile (· = ' ')) with
  | .returned raw => some (raw.length - 1, fun i => raw.getD i .cleared)
  | _ => Option.none

/-! ## What a round does -/

/-- **A round does not go behind the terminator.** The scan of a word stops at the end of the
line, while that of a quoted text goes on to the next quote; so a quote needs another one, or
the end right behind it. -/
def GetState.Fits (s : GetState) : Prop :=
  s.rest ≠ [] → s.args.length < maxArgs →
    match skipWhiteSpace s.rest with
    | [] => False
    | c :: behind => c = '"' ∨ c = '\'' → behind = [] ∨ c ∈ behind

theorem findToken_quote {c : Char} :
    (findTokenOrAlphaNumeric c = .quoteDouble ∨ findTokenOrAlphaNumeric c = .quoteSingle)
      ↔ c = '"' ∨ c = '\'' := by
  constructor
  · intro h
    unfold findTokenOrAlphaNumeric at h
    split at h
    · exact absurd h (by decide)
    · unfold parserFindToken at h
      cases hfind : tokens.find? fun t => t.2.2 = c with
      | none =>
        rw [hfind] at h
        exact absurd h (by decide)
      | some t =>
        have hmem := List.mem_of_find?_eq_some hfind
        have hc := List.find?_some hfind
        rw [decide_eq_true_eq] at hc
        rw [hfind] at h
        subst hc
        revert h
        revert t
        decide
  · rintro (rfl | rfl) <;> decide

/-- A character that is no quote is stored with what is behind it in the word, or alone. -/
theorem getArg_of_not_quote {c : Char} (hc : ¬ (c = '"' ∨ c = '\'')) (behind : List Char)
    (args : List ConsoleArg) :
    ∃ s, getArg c behind args = .next s ∧ s.rest.length ≤ behind.length
      ∧ s.args.length = args.length + 1 := by
  have hquote := mt findToken_quote.1 hc
  unfold getArg
  split
  · exact ⟨_, rfl, (List.dropWhile_sublist _).length_le, by simp⟩
  · rw [if_neg hquote]
    exact ⟨_, rfl, Nat.le_refl _, by simp⟩

/-- What comes of a quote. -/
theorem getArg_of_quote {c : Char} (hc : c = '"' ∨ c = '\'') (behind : List Char)
    (args : List ConsoleArg) :
    getArg c behind args =
      if behind.takeWhile (· ≠ c) = [] then .next ⟨behind, args⟩
      else match behind.dropWhile (· ≠ c) with
        | [] => .wrong
        | _ :: rest => .next ⟨rest,
            args ++ [storeArg (behind.takeWhile (· ≠ c)) (findTokenOrAlphaNumeric c)]⟩ := by
  have hquote := findToken_quote.2 hc
  unfold getArg
  split
  · rename_i halpha
    rw [halpha] at hquote
    exact absurd hquote (by decide)
  · rw [if_pos hquote]

/-- **A round goes wrong at a quote that is left open with a text behind it.** -/
theorem getArg_eq_wrong_iff (c : Char) (behind : List Char) (args : List ConsoleArg) :
    getArg c behind args = .wrong
      ↔ ¬ (c = '"' ∨ c = '\'' → behind = [] ∨ c ∈ behind) := by
  by_cases hc : c = '"' ∨ c = '\''
  · rw [getArg_of_quote hc, forall_prop_of_true hc]
    cases hdrop : behind.dropWhile (· ≠ c) with
    | nil =>
      have hall := List.dropWhile_eq_nil_iff.1 hdrop
      have hnot : c ∉ behind := fun hmem => absurd (hall c hmem) (by simp)
      have htake : behind.takeWhile (· ≠ c) = behind := List.takeWhile_eq_self_iff.2 hall
      rw [htake, or_iff_left hnot]
      split
      · rename_i hnil
        exact iff_of_false (fun h => nomatch h) (not_not.2 hnil)
      · rename_i hne
        exact iff_of_true rfl hne
    | cons d rest =>
      have hmem : c ∈ behind := by
        have hd := List.head?_dropWhile_not (p := fun x => decide (x ≠ c)) behind
        rw [hdrop] at hd
        obtain rfl : d = c := by simpa using hd
        exact (List.dropWhile_sublist _).subset (hdrop ▸ List.mem_cons_self)
      refine iff_of_false (fun h => ?_) (not_not.2 (.inr hmem))
      split at h <;> cases h
  · obtain ⟨s, hs, -⟩ := getArg_of_not_quote hc behind args
    rw [hs]
    exact iff_of_false (fun h => nomatch h) (not_not.2 fun h => absurd h hc)

/-- **A round goes wrong just where it does not fit.** -/
theorem getRound_eq_wrong_iff (s : GetState) : getRound s = .wrong ↔ ¬ s.Fits := by
  unfold getRound GetState.Fits
  by_cases hstop : s.rest = [] ∨ maxArgs ≤ s.args.length
  · rw [if_pos hstop]
    refine iff_of_false (fun h => nomatch h) (not_not.2 fun hrest hargs => ?_)
    exact absurd hstop (not_or.2 ⟨hrest, Nat.not_le.2 hargs⟩)
  · rw [if_neg hstop, forall_prop_of_true (not_or.1 hstop).1,
      forall_prop_of_true (Nat.not_le.1 (not_or.1 hstop).2)]
    cases skipWhiteSpace s.rest with
    | nil => exact iff_of_true rfl id
    | cons c behind => exact getArg_eq_wrong_iff c behind s.args

/-- There are never more arguments than there is room for. -/
def GetState.HasRoom (s : GetState) : Prop := s.args.length ≤ maxArgs

/-- **A round takes something of the line**, and stores one argument at most. -/
theorem of_getRound_next {s s' : GetState} (h : getRound s = .next s') :
    s'.rest.length < s.rest.length ∧ s'.HasRoom := by
  unfold getRound at h
  split at h
  · cases h
  rename_i hstop
  have hroom := Nat.not_le.1 (not_or.1 hstop).2
  have hskip := (List.dropWhile_sublist (fun c => decide (c = ' ' ∨ c = '\t'))
    (l := s.rest)).length_le
  cases hrest : skipWhiteSpace s.rest with
  | nil =>
    rw [hrest] at h
    cases h
  | cons c behind =>
    rw [hrest] at h
    rw [show List.dropWhile _ s.rest = skipWhiteSpace s.rest from rfl, hrest,
      List.length_cons] at hskip
    dsimp only at h
    unfold GetState.HasRoom
    by_cases hc : c = '"' ∨ c = '\''
    · rw [getArg_of_quote hc] at h
      split at h
      · cases h
        dsimp only
        omega
      · split at h
        · cases h
        · rename_i d rest hdrop
          cases h
          have hlen := (List.dropWhile_sublist (fun x => decide (x ≠ c)) (l := behind)).length_le
          rw [hdrop, List.length_cons] at hlen
          dsimp only
          rw [List.length_append, List.length_singleton]
          omega
    · obtain ⟨t, ht, hlen, hargs⟩ := getArg_of_not_quote hc behind s.args
      rw [ht] at h
      cases h
      omega

/-! ## What a line is read as -/

/-- **`ArgsGet` stays in the line** if and only if every round it comes to does. -/
theorem argsGet_returned_iff (line : List Char) : (∃ raw, argsGet line = .returned raw)
    ↔ ∀ t, Round.Reaches getRound ⟨line, []⟩ t → t.Fits := by
  have hround : (∃ raw, Round.run getRound (line.length + 1) ⟨line, []⟩ = .returned raw)
      ↔ ∀ t, Round.Reaches getRound ⟨line, []⟩ t → getRound t ≠ .wrong :=
    Round.returned_iff (P := fun _ => True) (fun s => s.rest.length) (fun _ _ _ _ => trivial)
      (fun _ _ _ h => (of_getRound_next h).1) trivial (Nat.lt_succ_self line.length)
  refine hround.trans (forall₂_congr fun t _ => ?_)
  rw [Ne, getRound_eq_wrong_iff, not_not]

/-- **`ArgsGet` fills no more than there is room for.** -/
theorem length_argsGet {line : List Char} {raw : List ConsoleArg}
    (h : argsGet line = .returned raw) : raw.length ≤ maxArgs := by
  refine Round.of_returned (P := GetState.HasRoom) (Q := fun raw => raw.length ≤ maxArgs)
    (fun _ _ _ h => (of_getRound_next h).2) (fun s r hs h => ?_) (Nat.zero_le _) h
  unfold getRound at h
  split at h
  · cases h
    exact hs
  · split at h
    · cases h
    · rename_i c behind _
      by_cases hc : c = '"' ∨ c = '\''
      · rw [getArg_of_quote hc] at h
        split at h
        · cases h
        · split at h <;> cases h
      · obtain ⟨t, ht, -⟩ := getArg_of_not_quote hc behind s.args
        rw [ht] at h
        cases h

end LinApple.Debugger
