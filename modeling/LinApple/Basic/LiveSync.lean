import LinApple.Basic.Tokens
import LinApple.Lib.ByteMap
import LinApple.Memory.Types
import Mathlib.Data.List.Sort

/-!
# Programs in RAM and their text

`basic_sync_export_to_string` walks the chain of lines from `TXTTAB` and
writes each one out, and `basic_sync_import_from_string` reads a text line
by line, sorts the lines by number and lays them down from `TXTTAB` on. In
explicit mode a line carries its number; in positional mode its number is
its place in the text, and blank lines fill the gaps.

Both see RAM through the live image. Addresses are natural numbers here:
the checks against `HIMEM` keep every one of them below `$10000`.
-/

namespace LinApple.Basic

open ByteMap

/-- The 64 K the live sync reads and writes through `mem`. -/
abbrev Ram := Nat → UInt8

/-- `BasicLineMode` -/
inductive BasicLineMode where
  | explicit
  | positional
deriving DecidableEq, Repr

/-- `addr_txttab` -/
def addrTxttab : Nat := 0x67
/-- `addr_vartab` -/
def addrVartab : Nat := 0x69
/-- `addr_arytab` -/
def addrArytab : Nat := 0x6B
/-- `addr_strend` -/
def addrStrend : Nat := 0x6D
/-- `addr_fretop` -/
def addrFretop : Nat := 0x6F
/-- `addr_himem` -/
def addrHimem : Nat := 0x73
/-- `addr_prgend` -/
def addrPrgend : Nat := 0xAF
/-- `default_txttab` -/
def defaultTxttab : Nat := 0x0801
/-- `default_himem` -/
def defaultHimem : Nat := 0x9600
/-- `hard_himem_ceiling` -/
def hardHimemCeiling : Nat := 0xC000
/-- `max_line_number` -/
def maxLineNumber : Nat := 63999
/-- `max_input_line_len` -/
def maxInputLineLen : Nat := 255

/-! ## RAM -/

/-- The two bytes of a 16-bit value, low byte first. -/
def word (v : Nat) : Text := [v.toUInt8, (v / 256).toUInt8]

/-- The two bytes at an address, low byte first; `read_zero_page_16`. -/
def readZeroPage16 (ram : Ram) (addr : Nat) : Nat :=
  (ram addr).toNat + (ram (addr + 1)).toNat * 256

/-- `write_zero_page_16` -/
def writeZeroPage16 (ram : Ram) (addr val : Nat) : Ram :=
  pokes ram addr (word val)

/-- The bytes from one address to another. -/
def readBytes (ram : Ram) (start stop : Nat) : Text :=
  peeks ram start (stop - start)

/-! ## Reading lines of text -/

/-- `isdigit` -/
def isDigit (c : UInt8) : Bool := 0x30 ≤ c && c ≤ 0x39

/-- `isspace` in the C locale. -/
def isSpace (c : UInt8) : Bool := c = 0x20 || (0x09 ≤ c && c ≤ 0x0D)

/-- `std::stoul` on a string of digits. -/
def stoul (digits : Text) : Nat :=
  digits.foldl (fun n d => n * 10 + (d.toNat - 0x30)) 0

/-- A number as `operator<<` writes it. -/
def decimal (n : Nat) : Text :=
  (Nat.toDigits 10 n).map fun c => c.toNat.toUInt8

/-- The lines `std::getline` takes from a text, with `line` read so far. -/
def getLinesFrom : (line : Text) → Text → List Text
  | line, [] => if line = [] then [] else [line]
  | line, c :: text =>
    if c = 0x0A then line :: getLinesFrom [] text
    else getLinesFrom (line ++ [c]) text

/-- The lines `std::getline` takes from a text. -/
def getLines (text : Text) : List Text := getLinesFrom [] text

/-- `sanitize_and_truncate_line` -/
def sanitizeAndTruncateLine (input : Text) (forceUppercase : Bool) : Text :=
  ((input.filter fun c => 32 ≤ c && c ≤ 126).map
    fun c => toNormalizedByte c forceUppercase).take maxInputLineLen

/-- The value of a line number, cut off at `max_line_number` where it has
more than five digits. -/
def lineNumberValue (digits : Text) : Nat :=
  if digits.length ≤ 5 then stoul digits else maxLineNumber

/-- `parse_positional_line` -/
def parsePositionalLine (sanitized : Text) (lineIndex : Nat) :
    Option (Nat × Text) :=
  if lineIndex > maxLineNumber then none
  else
    let digits := sanitized.takeWhile isDigit
    let rest := sanitized.dropWhile isDigit
    if digits = [] || !(rest.head?.any isSpace) then
      some (lineIndex, sanitized)
    else if lineNumberValue digits ≠ lineIndex then
      some (lineIndex, sanitized)
    else some (lineIndex, rest.dropWhile isSpace)

/-- `parse_explicit_line` -/
def parseExplicitLine (sanitized : Text) : Option (Nat × Text) :=
  let fromNumber := sanitized.dropWhile isSpace
  let digits := fromNumber.takeWhile isDigit
  if digits = [] then none
  else some (min (lineNumberValue digits) maxLineNumber,
    (fromNumber.dropWhile isDigit).dropWhile isSpace)

/-! ## Importing -/

/-- `ParsedLine` -/
structure ParsedLine where
  /-- `line_number` -/
  lineNumber : Nat
  /-- `token_bytes` -/
  tokenBytes : Text
deriving DecidableEq, Repr

/-- What the loop of `basic_sync_import_from_string` makes of one line of
text, the line `index` of the file. -/
def parseLine (mode : BasicLineMode) (forceUppercase : Bool) (index : Nat)
    (rawLine : Text) : Option ParsedLine :=
  let sanitized := sanitizeAndTruncateLine rawLine forceUppercase
  let parsed :=
    if sanitized = [] then none
    else
      match mode with
      | .positional => parsePositionalLine sanitized index
      | .explicit => parseExplicitLine sanitized
  parsed.map fun (lineNum, statement) =>
    ⟨lineNum, tokenizeLineContent statement forceUppercase⟩

/-- The loop of `basic_sync_import_from_string`, on lines of text the first
of which is the line `index` of the file. -/
def parseLines (mode : BasicLineMode) (forceUppercase : Bool) :
    (index : Nat) → List Text → List ParsedLine
  | _, [] => []
  | index, rawLine :: rawLines =>
    (parseLine mode forceUppercase index rawLine).toList
      ++ parseLines mode forceUppercase (index + 1) rawLines

/-- The room a line takes in RAM. -/
def ParsedLine.size (line : ParsedLine) : Nat :=
  4 + line.tokenBytes.length + 1

/-- A line as it lies in RAM at `addr`. -/
def ParsedLine.image (line : ParsedLine) (addr : Nat) : Text :=
  word (addr + line.size) ++ word line.lineNumber ++ line.tokenBytes ++ [0]

/-- The loop of `inject_program_lines`, from the address `addr` on; it
answers with RAM and the address the program ends at. -/
def injectLoop (himem : Nat) : (addr : Nat) → List ParsedLine → Ram →
    Ram × Nat
  | addr, [], ram => (ram, addr)
  | addr, line :: lines, ram =>
    if addr + line.size + 2 ≥ himem then (ram, addr)
    else
      injectLoop himem (addr + line.size) lines
        (pokes ram addr (line.image addr))

/-- `inject_program_lines` -/
def injectProgramLines (txttab himem : Nat) (lines : List ParsedLine)
    (ram : Ram) : Ram × Nat :=
  let (ram, addr) := injectLoop himem txttab lines ram
  (pokes ram addr [0, 0, 0], addr)

/-- `is_uppercase_only_machine` -/
def isUppercaseOnlyMachine : Apple2Type → Bool
  | .apple2 | .apple2Plus | .apple2JPlus => true
  | _ => false

/-- `HIMEM`, put right where it makes no sense. -/
def checkHimem (ram : Ram) : Ram × Nat :=
  let himem := readZeroPage16 ram addrHimem
  if himem = 0 || himem > hardHimemCeiling then
    (writeZeroPage16 ram addrHimem defaultHimem, defaultHimem)
  else (ram, himem)

/-- `TXTTAB`, put right where it makes no sense. -/
def checkTxttab (ram : Ram) (himem : Nat) : Ram × Nat :=
  let txttab := readZeroPage16 ram addrTxttab
  if txttab < defaultTxttab || txttab ≥ himem then
    (writeZeroPage16 ram addrTxttab defaultTxttab, defaultTxttab)
  else (ram, txttab)

/-- `basic_sync_import_from_string`, which accepts every text. `sort` is
`std::sort` by line number, which leaves lines of one number in no
particular order. -/
def basicSyncImportFromString
    (sort : List ParsedLine → List ParsedLine) (ty : Apple2Type)
    (mode : BasicLineMode) (text : Text) (ram : Ram) : Ram :=
  let (ram, himem) := checkHimem ram
  let (ram, txttab) := checkTxttab ram himem
  let ram := pokes ram (txttab - 1) [0]
  let lines := parseLines mode (isUppercaseOnlyMachine ty) 1 (getLines text)
  let (ram, prgEnd) := injectProgramLines txttab himem (sort lines) ram
  let varStart := prgEnd + 2
  let ram := writeZeroPage16 ram addrPrgend prgEnd
  let ram := writeZeroPage16 ram addrVartab varStart
  let ram := writeZeroPage16 ram addrArytab varStart
  let ram := writeZeroPage16 ram addrStrend varStart
  writeZeroPage16 ram addrFretop himem

/-- What is known of `std::sort` by line number. It is not stable, so lines of
one number may come in either order, and nothing is said of that: where it
matters, it is a condition that there are no two such lines. -/
structure SortsByNumber (sort : List ParsedLine → List ParsedLine) :
    Prop where
  /-- The lines are the same. -/
  perm : ∀ lines, (sort lines).Perm lines
  /-- Their numbers go up. -/
  sorted : ∀ lines, (sort lines).Pairwise fun a b =>
    a.lineNumber ≤ b.lineNumber

/-- A sort by line number, which leaves lines of one number in order. -/
def sortLines (lines : List ParsedLine) : List ParsedLine :=
  lines.insertionSort fun a b => a.lineNumber ≤ b.lineNumber

theorem sortsByNumber_sortLines : SortsByNumber sortLines where
  perm := List.perm_insertionSort _
  sorted lines := by
    have htotal : Std.Total fun a b : ParsedLine =>
        a.lineNumber ≤ b.lineNumber :=
      ⟨fun a b => Nat.le_total a.lineNumber b.lineNumber⟩
    have htrans : IsTrans ParsedLine fun a b =>
        a.lineNumber ≤ b.lineNumber := ⟨fun _ _ _ => Nat.le_trans⟩
    exact List.pairwise_insertionSort _ lines

/-! ## Exporting -/

/-- `append_line_prefix`; it answers with the line it expects next, too. -/
def appendLinePrefix (mode : BasicLineMode) (lineNum expected : Nat) :
    Text × Nat :=
  match mode with
  | .explicit => (decimal lineNum ++ [0x20], expected)
  | .positional =>
    (List.replicate (min lineNum (maxLineNumber + 1) - expected) 0x0A,
      lineNum + 1)

/-- The loop of `basic_sync_export_to_string`. Every turn moves on by at
least five bytes, so `fuel` turns are enough where they are not fewer than
the bytes left (`exportLoop_eq_of_le`). -/
def exportLoop (mode : BasicLineMode) (programEnd : Nat) (ram : Ram) :
    (fuel addr expected : Nat) → Text
  | 0, _, _ => []
  | fuel + 1, addr, expected =>
    if addr + 4 ≥ programEnd then []
    else
      let nextLine := readZeroPage16 ram addr
      if nextLine = 0 || nextLine ≤ addr + 4 || nextLine > programEnd then []
      else
        let lineNum := readZeroPage16 ram (addr + 2)
        if lineNum > maxLineNumber then []
        else
          let (linePrefix, expected) := appendLinePrefix mode lineNum expected
          linePrefix
            ++ detokenizeLineBytes (readBytes ram (addr + 4) nextLine)
            ++ [0x0A]
            ++ exportLoop mode programEnd ram fuel nextLine expected

/-- The address up to which `basic_sync_export_to_string` reads. -/
def exportEnd (ram : Ram) : Nat :=
  let himem := min (readZeroPage16 ram addrHimem) hardHimemCeiling
  let vartab := readZeroPage16 ram addrVartab
  if vartab > readZeroPage16 ram addrTxttab && vartab ≤ himem then vartab
  else himem

/-- `basic_sync_export_to_string` -/
def basicSyncExportToString (mode : BasicLineMode) (ram : Ram) : Text :=
  exportLoop mode (exportEnd ram) ram (exportEnd ram)
    (readZeroPage16 ram addrTxttab) 1

/-- The bytes `compute_program_hash` hashes, if there are any to hash. -/
def programBytes (ram : Ram) : Option Text :=
  let txttab := readZeroPage16 ram addrTxttab
  let endAddr := max (readZeroPage16 ram addrVartab)
    (readZeroPage16 ram addrPrgend)
  if endAddr ≤ txttab || endAddr > hardHimemCeiling then none
  else some (readBytes ram txttab endAddr)

/-- More turns than there are bytes left change nothing. -/
theorem exportLoop_eq_of_le (mode : BasicLineMode) (programEnd : Nat)
    (ram : Ram) {fuel fuel' addr : Nat} (h : programEnd ≤ addr + fuel)
    (h' : programEnd ≤ addr + fuel') (expected : Nat) :
    exportLoop mode programEnd ram fuel addr expected
      = exportLoop mode programEnd ram fuel' addr expected := by
  induction fuel generalizing fuel' addr expected with
  | zero =>
    cases fuel' with
    | zero => rfl
    | succ fuel' => rw [exportLoop, exportLoop, if_pos (by omega)]
  | succ fuel ih =>
    cases fuel' with
    | zero => rw [exportLoop, exportLoop, if_pos (by omega)]
    | succ fuel' =>
      rw [exportLoop, exportLoop]
      split
      · rfl
      · dsimp only
        split
        · rfl
        · next hnext =>
          simp only [Bool.or_eq_true, decide_eq_true_eq, not_or] at hnext
          split
          · rfl
          · rw [@ih fuel' (readZeroPage16 ram addr) (by omega) (by omega)]

end LinApple.Basic
