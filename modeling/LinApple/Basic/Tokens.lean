import Mathlib.Tactic.Common

/-!
# Applesoft lines and their text

A line of an Applesoft program is a string of bytes in which a keyword is
one byte from `$80` up. `tokenizeLineContent` makes one from the text of a
statement, taking the longest keyword at each place outside quotes and
remarks, and `detokenizeLineBytes` writes the text of one, with nothing
between a keyword and what stands next to it.
-/

namespace LinApple.Basic

/-- A string of the host: a string of bytes. -/
abbrev Text := List UInt8

/-- The bytes of a string literal. -/
def bytes (s : String) : Text := s.toList.map fun c => c.toNat.toUInt8

/-- `TokenDef`; the `length` of the source is that of `name`. -/
structure TokenDef where
  /-- The byte that stands for the keyword. -/
  token : UInt8
  /-- The keyword. -/
  name : Text
deriving DecidableEq, Repr

/-- `applesoft_tokens`, longer keywords first. -/
def applesoftTokens : List TokenDef :=
  [ ⟨0x92, bytes "HCOLOR="⟩, ⟨0x9C, bytes "NOTRACE"⟩, ⟨0x9E, bytes "INVERSE"⟩,
    ⟨0xAE, bytes "RESTORE"⟩, ⟨0x99, bytes "SCALE="⟩, ⟨0x9A, bytes "SHLOAD"⟩,
    ⟨0x9D, bytes "NORMAL"⟩, ⟨0xA0, bytes "COLOR="⟩, ⟨0xA3, bytes "HIMEM:"⟩,
    ⟨0xA4, bytes "LOMEM:"⟩, ⟨0xA6, bytes "RESUME"⟩, ⟨0xA7, bytes "RECALL"⟩,
    ⟨0xA9, bytes "SPEED="⟩, ⟨0xB1, bytes "RETURN"⟩, ⟨0xE9, bytes "RIGHT$"⟩,
    ⟨0x84, bytes "INPUT"⟩, ⟨0x93, bytes "HPLOT"⟩, ⟨0x95, bytes "XDRAW"⟩,
    ⟨0x9B, bytes "TRACE"⟩, ⟨0x9F, bytes "FLASH"⟩, ⟨0xA5, bytes "ONERR"⟩,
    ⟨0xA8, bytes "STORE"⟩, ⟨0xB0, bytes "GOSUB"⟩, ⟨0xBA, bytes "PRINT"⟩,
    ⟨0xBD, bytes "CLEAR"⟩, ⟨0xD7, bytes "SCRN("⟩, ⟨0xE8, bytes "LEFT$"⟩,
    ⟨0x82, bytes "NEXT"⟩, ⟨0x83, bytes "DATA"⟩, ⟨0x87, bytes "READ"⟩,
    ⟨0x89, bytes "TEXT"⟩, ⟨0x8C, bytes "CALL"⟩, ⟨0x8D, bytes "PLOT"⟩,
    ⟨0x8E, bytes "HLIN"⟩, ⟨0x8F, bytes "VLIN"⟩, ⟨0x90, bytes "HGR2"⟩,
    ⟨0x94, bytes "DRAW"⟩, ⟨0x96, bytes "HTAB"⟩, ⟨0x97, bytes "HOME"⟩,
    ⟨0x98, bytes "ROT="⟩, ⟨0xA2, bytes "VTAB"⟩, ⟨0xAB, bytes "GOTO"⟩,
    ⟨0xB3, bytes "STOP"⟩, ⟨0xB5, bytes "WAIT"⟩, ⟨0xB6, bytes "LOAD"⟩,
    ⟨0xB7, bytes "SAVE"⟩, ⟨0xB9, bytes "POKE"⟩, ⟨0xBB, bytes "CONT"⟩,
    ⟨0xBC, bytes "LIST"⟩, ⟨0xC0, bytes "TAB("⟩, ⟨0xC3, bytes "SPC("⟩,
    ⟨0xC4, bytes "THEN"⟩, ⟨0xC7, bytes "STEP"⟩, ⟨0xE2, bytes "PEEK"⟩,
    ⟨0xE4, bytes "STR$"⟩, ⟨0xE7, bytes "CHR$"⟩, ⟨0xEA, bytes "MID$"⟩,
    ⟨0x80, bytes "END"⟩, ⟨0x81, bytes "FOR"⟩, ⟨0x85, bytes "DEL"⟩,
    ⟨0x86, bytes "DIM"⟩, ⟨0x8A, bytes "PR#"⟩, ⟨0x8B, bytes "IN#"⟩,
    ⟨0x91, bytes "HGR"⟩, ⟨0xA1, bytes "POP"⟩, ⟨0xAA, bytes "LET"⟩,
    ⟨0xAC, bytes "RUN"⟩, ⟨0xB2, bytes "REM"⟩, ⟨0xB8, bytes "DEF"⟩,
    ⟨0xBE, bytes "GET"⟩, ⟨0xBF, bytes "NEW"⟩, ⟨0xC6, bytes "NOT"⟩,
    ⟨0xCD, bytes "AND"⟩, ⟨0xD2, bytes "SGN"⟩, ⟨0xD3, bytes "INT"⟩,
    ⟨0xD4, bytes "ABS"⟩, ⟨0xD5, bytes "USR"⟩, ⟨0xD6, bytes "FRE"⟩,
    ⟨0xD8, bytes "PDL"⟩, ⟨0xD9, bytes "POS"⟩, ⟨0xDA, bytes "SQR"⟩,
    ⟨0xDB, bytes "RND"⟩, ⟨0xDC, bytes "LOG"⟩, ⟨0xDD, bytes "EXP"⟩,
    ⟨0xDE, bytes "COS"⟩, ⟨0xDF, bytes "SIN"⟩, ⟨0xE0, bytes "TAN"⟩,
    ⟨0xE1, bytes "ATN"⟩, ⟨0xE3, bytes "LEN"⟩, ⟨0xE5, bytes "VAL"⟩,
    ⟨0xE6, bytes "ASC"⟩, ⟨0x88, bytes "GR"⟩, ⟨0xAD, bytes "IF"⟩, ⟨0xB4, bytes "ON"⟩,
    ⟨0xC1, bytes "TO"⟩, ⟨0xC2, bytes "FN"⟩, ⟨0xC5, bytes "AT"⟩, ⟨0xCE, bytes "OR"⟩,
    ⟨0xAF, bytes "&"⟩, ⟨0xC8, bytes "+"⟩, ⟨0xC9, bytes "-"⟩, ⟨0xCA, bytes "*"⟩,
    ⟨0xCB, bytes "/"⟩, ⟨0xCC, bytes "^"⟩, ⟨0xCF, bytes ">"⟩, ⟨0xD0, bytes "="⟩,
    ⟨0xD1, bytes "<"⟩]

/-- `token_rem` -/
def tokenRem : UInt8 := 0xB2

/-- `'"'` -/
def quote : UInt8 := 0x22

/-- `toupper` in the C locale. -/
def toUpper (c : UInt8) : UInt8 :=
  if 0x61 ≤ c && c ≤ 0x7A then c - 0x20 else c

/-- `iequals_prefix`, on what is left of the string from the position on. -/
def iequalsPrefix : Text → Text → Bool
  | _, [] => true
  | [], _ :: _ => false
  | c :: str, k :: kw => toUpper c = toUpper k && iequalsPrefix str kw

/-- `find_token_name` -/
def findTokenName (token : UInt8) : Option Text :=
  (applesoftTokens.find? fun t => t.token = token).map TokenDef.name

/-- `match_token`, on what is left of the content from the position on. -/
def matchToken (content : Text) : Option TokenDef :=
  applesoftTokens.find? fun t => iequalsPrefix content t.name

/-- `to_normalized_byte` -/
def toNormalizedByte (ch : UInt8) (forceUppercase : Bool) : UInt8 :=
  if forceUppercase && 0x61 ≤ ch && ch ≤ 0x7A then ch - 0x20 else ch

/-- The loop of `tokenize_line_content`; `skip` counts the characters still
to be passed over because a keyword has taken them. -/
def tokenizeLoop (forceUppercase : Bool) :
    (inQuotes inRem : Bool) → (skip : Nat) → Text → Text
  | _, _, _, [] => []
  | inQuotes, inRem, skip + 1, _ :: content =>
    tokenizeLoop forceUppercase inQuotes inRem skip content
  | inQuotes, inRem, 0, ch :: content =>
    if ch = quote then
      ch :: tokenizeLoop forceUppercase (!inQuotes) inRem 0 content
    else
      match if !inQuotes && !inRem then matchToken (ch :: content)
        else none with
      | some matched =>
        matched.token :: tokenizeLoop forceUppercase inQuotes
          (matched.token = tokenRem) (matched.name.length - 1) content
      | none =>
        toNormalizedByte ch forceUppercase
          :: tokenizeLoop forceUppercase inQuotes inRem 0 content

/-- `tokenize_line_content` -/
def tokenizeLineContent (content : Text) (forceUppercase : Bool) : Text :=
  tokenizeLoop forceUppercase false false 0 content

/-- A digit of `std::hex`. -/
def hexDigit (n : Nat) : UInt8 :=
  (if n < 10 then 0x30 + n else 0x57 + n).toUInt8

/-- What stands for a byte that is no keyword. -/
def unknownToken (b : UInt8) : Text :=
  bytes "?TOKEN_$" ++ [hexDigit (b.toNat / 16), hexDigit (b.toNat % 16)]
    ++ bytes "?"

/-- The loop of `detokenize_line_bytes`, on the bytes it reads. -/
def detokenizeLoop : (inQuotes inRem : Bool) → Text → Text
  | _, _, [] => []
  | inQuotes, inRem, b :: line =>
    if b = 0 then []
    else if b = quote then
      quote :: detokenizeLoop (!inQuotes) inRem line
    else if inQuotes || inRem || b < 0x80 then
      (b &&& 0x7F) :: detokenizeLoop inQuotes inRem line
    else
      match findTokenName b with
      | some name =>
        name ++ detokenizeLoop inQuotes (inRem || b = tokenRem) line
      | none => unknownToken b ++ detokenizeLoop inQuotes inRem line

/-- `detokenize_line_bytes`, on the bytes from `start_addr` to `end_addr`. -/
def detokenizeLineBytes (line : Text) : Text :=
  detokenizeLoop false false line

end LinApple.Basic
