import Mathlib.Data.List.DropRight
import Mathlib.Tactic.Common
import Mathlib.Algebra.Group.Nat.Defs
import Mathlib.Algebra.Group.Int.Defs

/-!
# The listing parser

The line of a directory listing is read in one of four formats, told apart by its first
bytes: EPLF, the long listing of Unix, VMS and MS-DOS. A line is its bytes; the time of
the host, which the source asks for, is an argument. Where the source computes with
`int64_t`, the integers here have no bounds.
-/

namespace LinApple.Services

/-! ## Bytes -/

/-- A character as the byte it is. -/
def ascii (c : Char) : UInt8 := c.toNat.toUInt8

/-- A text as its bytes. -/
def asciis (s : String) : List UInt8 := s.toList.map ascii

/-- `buf[j]`, which is never read behind the end. -/
def byteAt (buf : List UInt8) (j : Nat) : UInt8 := buf.getD j 0

/-- The bytes from `i` to before `j`. -/
def slice (buf : List UInt8) (i j : Nat) : List UInt8 := (buf.drop i).take (j - i)

/-! ## Types of the source -/

/-- `FtpSizeType` -/
inductive FtpSizeType where
  | unknown
  | binary
  | ascii
deriving DecidableEq, Repr

/-- `FtpMtimeType` -/
inductive FtpMtimeType where
  | unknown
  | local
  | remoteMinute
  | remoteDay
deriving DecidableEq, Repr

/-- `FtpEntryType` -/
inductive FtpEntryType where
  | file
  | directory
  | symlink
  | unknown
deriving DecidableEq, Repr

/-- `UnixParserState` -/
inductive UnixParserState where
  | skipPerm
  | skipNlink
  | skipUid
  | tentativeSize
  | findMonth
  | haveMonth
  | haveDate
deriving DecidableEq, Repr

/-- `FtpParsedEntry`; a null pointer is `none`. -/
structure FtpParsedEntry where
  /-- `name` and `namelen` -/
  name : Option (List UInt8) := none
  /-- `flagtrycwd` -/
  flagtrycwd : Bool := false
  /-- `flagtryretr` -/
  flagtryretr : Bool := false
  /-- `sizetype` -/
  sizetype : FtpSizeType := .unknown
  /-- `size` -/
  size : Int := 0
  /-- `mtimetype` -/
  mtimetype : FtpMtimeType := .unknown
  /-- `mtime` -/
  mtime : Int := 0
  /-- `id` and `idlen`; the type is `full` where there is one. -/
  id : Option (List UInt8) := none
deriving DecidableEq, Repr

/-- `FtpFileEntry` -/
structure FtpFileEntry where
  /-- `name` -/
  name : List UInt8
  /-- `type` -/
  type : FtpEntryType
  /-- `size` -/
  size : Nat
  /-- `mtime` -/
  mtime : Int
  /-- `can_cwd` -/
  canCwd : Bool
  /-- `can_retr` -/
  canRetr : Bool
deriving DecidableEq, Repr

/-- `CurrentTime` -/
structure CurrentTime where
  /-- `now_seconds` -/
  nowSeconds : Int
  /-- `current_year` -/
  currentYear : Int
deriving DecidableEq, Repr

/-! ## Numbers -/

/-- `UINT64_MAX` -/
def uint64Max : Nat := 2 ^ 64 - 1

/-- A round of `getlong`. A `char` has a sign, and what is below `'0'` wraps. -/
def getlongDigit (u : Nat) (c : UInt8) : Nat :=
  let digit := ((c.toInt8.toInt - 48) % 2 ^ 64).toNat
  if u ≤ (uint64Max - digit) / 10 then u * 10 + digit else uint64Max

/-- **`getlong`** -/
def getlong (token : List UInt8) : Nat := token.foldl getlongDigit 0

/-- `static_cast<int64_t>` of a `uint64_t` -/
def toInt64 (u : Nat) : Int := if u < 2 ^ 63 then u else (u : Int) - 2 ^ 64

/-- `getlong`, as an `int64_t`. -/
def getInt (token : List UInt8) : Int := toInt64 (getlong token)

/-! ## Months and times -/

/-- `months` -/
def months : List (List UInt8) :=
  ["jan", "feb", "mar", "apr", "may", "jun", "jul", "aug", "sep", "oct", "nov", "dec"].map asciis

/-- `ascii_tolower` -/
def asciiTolower (c : UInt8) : UInt8 :=
  if ascii 'A' ≤ c ∧ c ≤ ascii 'Z' then c + (ascii 'a' - ascii 'A') else c

/-- `getmonth`: `none` is -1. -/
def getmonth (token : List UInt8) : Option Nat :=
  if token.length = 3 then months.findIdx? (token.map asciiTolower = ·) else none

/-- `totai` -/
def totai (year month mday : Int) : Int :=
  let (year, month) := if 2 ≤ month then (year, month - 2) else (year - 1, month + 10)
  let result := ((mday - 1) * 10 + 5 + 306 * month).tdiv 10
  let (year, result) :=
    if result = 365 then (year - 3, 1460) else (year, result + 365 * year.tmod 4)
  let year := year.tdiv 4
  let result := result + 1461 * year.tmod 25
  let year := year.tdiv 25
  let (year, result) :=
    if result = 36524 then (year - 3, 146096) else (year, result + 36524 * year.tmod 4)
  let year := year.tdiv 4
  (result + 146097 * (year - 5) + 11017) * 86400

/-- `get_time_base`: the epoch is the first of January 1970. -/
def timeBase : Int := -totai 1970 0 1

/-- `guesstai` -/
def guesstai (month mday : Int) (now : CurrentTime) : Int :=
  let times := (List.range 101).map fun k : Nat => totai (now.currentYear - 1 + k) month mday
  (times.find? fun t => now.nowSeconds - t < 350 * 86400).getD 0

/-! ## EPLF -/

/-- `parse_eplf_fact` -/
def parseEplfFact (fp : FtpParsedEntry) (factType : UInt8) (val : List UInt8) : FtpParsedEntry :=
  if factType = ascii '/' then { fp with flagtrycwd := true }
  else if factType = ascii 'r' then { fp with flagtryretr := true }
  else if factType = ascii 's' then { fp with sizetype := .binary, size := getInt val }
  else if factType = ascii 'm' then
    { fp with mtimetype := .local, mtime := timeBase + getInt val }
  else if factType = ascii 'i' then { fp with id := some val }
  else fp

/-- The loop of `parse_eplf`, with so many bytes to go. -/
def eplfLoop (buf : List UInt8) : Nat → Nat → Nat → FtpParsedEntry → Option FtpParsedEntry
  | 0, _, _, _ => none
  | n + 1, j, i, fp =>
    if byteAt buf j ≠ ascii '\t' ∧ byteAt buf j ≠ ascii ',' then eplfLoop buf n (j + 1) i fp
    else
      let fp := if i < j then parseEplfFact fp (byteAt buf i) (slice buf (i + 1) j) else fp
      if byteAt buf j = ascii '\t' then some { fp with name := some (buf.drop (j + 1)) }
      else eplfLoop buf n (j + 1) (j + 1) fp

/-- `parse_eplf` -/
def parseEplf (fp : FtpParsedEntry) (buf : List UInt8) : Option FtpParsedEntry :=
  eplfLoop buf (buf.length - 1) 1 1 fp

/-! ## Unix -/

/-- `is_unix_file_type` -/
def isUnixFileType (c : UInt8) : Bool := c ∈ asciis "-dlbcps"

/-- `parse_unix_time_or_year`: the type of the time and the time. -/
def parseUnixTimeOrYear (token : List UInt8) (month mday : Int) (now : CurrentTime) :
    Option (FtpMtimeType × Int) :=
  let time (hour minute : List UInt8) : FtpMtimeType × Int :=
    (.remoteMinute,
      timeBase + guesstai month mday now + getInt hour * 3600 + getInt minute * 60)
  if token.length = 4 ∧ byteAt token 1 = ascii ':' then
    some (time (slice token 0 1) (slice token 2 4))
  else if token.length = 5 ∧ byteAt token 2 = ascii ':' then
    some (time (slice token 0 2) (slice token 3 5))
  else if 4 ≤ token.length then
    some (.remoteDay, timeBase + totai (getInt token) month mday)
  else none

/-- What the loop of `parse_unix` has of the columns so far. -/
structure UnixScan where
  /-- `state` -/
  state : UnixParserState
  /-- `size` -/
  size : Nat
  /-- `month` -/
  month : Int
  /-- `mday` -/
  mday : Int
deriving DecidableEq, Repr

/-- What comes of a column. -/
inductive UnixStep where
  /-- The loop goes on. -/
  | next (s : UnixScan)
  /-- It returns `false`. -/
  | reject
  /-- It breaks: the date is found. -/
  | date (mtimetype : FtpMtimeType) (mtime : Int)
deriving DecidableEq, Repr

/-- **The `switch` of `parse_unix`** -/
def unixToken (now : CurrentTime) (s : UnixScan) (token : List UInt8) : UnixStep :=
  match s.state with
  | .skipPerm => .next { s with state := .skipNlink }
  | .skipNlink =>
    .next { s with
      state := if token.length = 6 ∧ byteAt token 0 = ascii 'f' then .tentativeSize else .skipUid }
  | .skipUid => .next { s with state := .tentativeSize }
  | .tentativeSize => .next { s with size := getlong token, state := .findMonth }
  | .findMonth =>
    match getmonth token with
    | some month => .next { s with month := month, state := .haveMonth }
    | none => .next { s with month := -1, size := getlong token }
  | .haveMonth => .next { s with mday := getInt token, state := .haveDate }
  | .haveDate =>
    match parseUnixTimeOrYear token s.month s.mday now with
    | none => .reject
    | some (mtimetype, mtime) => .date mtimetype mtime

/-- The cursor behind the spaces from `i` on. -/
def skipSpaces (buf : List UInt8) (i : Nat) : Nat :=
  i + ((buf.drop i).takeWhile (· = ascii ' ')).length

/-- **The loop of `parse_unix`**, at `j` with so many bytes to go and a column begun at
`i`: the size, the time and the name. -/
def unixLoop (now : CurrentTime) (buf : List UInt8) :
    Nat → Nat → Nat → UnixScan → Option (Nat × FtpMtimeType × Int × List UInt8)
  | 0, _, _, _ => none
  | n + 1, j, i, s =>
    if byteAt buf j ≠ ascii ' ' ∨ byteAt buf (j - 1) = ascii ' ' then unixLoop now buf n (j + 1) i s
    else
      match unixToken now s (slice buf i j) with
      | .next s => unixLoop now buf n (j + 1) (skipSpaces buf (j + 1)) s
      | .reject => none
      | .date mtimetype mtime => some (s.size, mtimetype, mtime, buf.drop (j + 1))

/-- What stands between a link and what it is to. -/
def arrow : List UInt8 := asciis " -> "

/-- The name of a link, before the first arrow. -/
def cutArrow (name : List UInt8) : List UInt8 :=
  match (List.range (name.length + 1 - arrow.length)).find? fun k => slice name k (k + 4) = arrow with
  | some k => name.take k
  | none => name

/-- **`parse_unix`** -/
def parseUnix (now : CurrentTime) (fp : FtpParsedEntry) (buf : List UInt8) :
    Option FtpParsedEntry :=
  let type := byteAt buf 0
  let fp := { fp with
    flagtrycwd := fp.flagtrycwd || type = ascii 'd' || type = ascii 'l'
    flagtryretr := fp.flagtryretr || type = ascii '-' || type = ascii 'l' }
  (unixLoop now buf (buf.length - 1) 1 0 ⟨.skipPerm, 0, 0, 0⟩).map
    fun (size, mtimetype, mtime, name) =>
      let name := if type = ascii 'l' then cutArrow name else name
      let netWare := (byteAt buf 1 = ascii ' ' ∨ byteAt buf 1 = ascii '[') ∧ 3 < name.length ∧
        slice name 0 3 = asciis "   "
      { fp with
        name := some (if netWare then name.drop 3 else name)
        sizetype := .binary
        size := toInt64 size
        mtimetype := mtimetype
        mtime := mtime }

/-! ## VMS and MS-DOS -/

/-- `skip_until` -/
def skipUntil (buf : List UInt8) (c : UInt8) (pos : Nat) : Option Nat :=
  let pos := pos + ((buf.drop pos).takeWhile (· ≠ c)).length
  if pos < buf.length then some pos else none

/-- `skip_matching` -/
def skipMatching (buf : List UInt8) (c : UInt8) (pos : Nat) : Option Nat :=
  let pos := pos + ((buf.drop pos).takeWhile (· = c)).length
  if pos < buf.length then some pos else none

/-- A field, up to a separator, and where the next begins. -/
def fieldUntil (buf : List UInt8) (c : UInt8) (i : Nat) : Option (List UInt8 × Nat) := do
  let j ← skipUntil buf c i
  let next ← skipMatching buf c j
  return (slice buf i j, next)

/-- The name in front of the version of a file, and what it says the entry is. -/
def parseVmsName (fp : FtpParsedEntry) (buf : List UInt8) (semicolon : Nat) : FtpParsedEntry :=
  let isDir := 4 < semicolon ∧ slice buf (semicolon - 4) semicolon = asciis ".DIR"
  let flagtrycwd := fp.flagtrycwd || isDir
  { fp with
    name := some (buf.take (if isDir then semicolon - 4 else semicolon))
    flagtrycwd := flagtrycwd
    flagtryretr := fp.flagtryretr || !flagtrycwd }

/-- The time of an entry, behind its name and another field. -/
def parseVmsTime (buf : List UInt8) (semicolon : Nat) : Option Int := do
  let i ← skipUntil buf (ascii ' ') semicolon
  let i ← skipMatching buf (ascii ' ') i
  let i ← skipUntil buf (ascii ' ') i
  let i ← skipMatching buf (ascii ' ') i
  let (mday, i) ← fieldUntil buf (ascii '-') i
  let (month, i) ← fieldUntil buf (ascii '-') i
  let month ← getmonth month
  let (year, i) ← fieldUntil buf (ascii ' ') i
  let (hour, i) ← fieldUntil buf (ascii ':') i
  let j := i + ((buf.drop i).takeWhile fun c => c ≠ ascii ':' ∧ c ≠ ascii ' ').length
  if j = buf.length then none
  else
    return timeBase + totai (getInt year) month (getInt mday) + getInt hour * 3600
      + getInt (slice buf i j) * 60

/-- `parse_vms`: the entry is changed by a line that is none of the format, too. -/
def parseVms (fp : FtpParsedEntry) (buf : List UInt8) : FtpParsedEntry × Bool :=
  match skipUntil buf (ascii ';') 0 with
  | none => (fp, false)
  | some semicolon =>
    let fp := parseVmsName fp buf semicolon
    match parseVmsTime buf semicolon with
    | none => (fp, false)
    | some mtime => ({ fp with mtimetype := .remoteMinute, mtime := mtime }, true)

/-- A year of two digits or three. -/
def dosYear (year : Int) : Int :=
  if year < 50 then year + 2000 else if year < 1000 then year + 1900 else year

/-- `parse_dos` -/
def parseDos (fp : FtpParsedEntry) (buf : List UInt8) : Option FtpParsedEntry := do
  let (month, i) ← fieldUntil buf (ascii '-') 0
  let (mday, i) ← fieldUntil buf (ascii '-') i
  let (year, i) ← fieldUntil buf (ascii ' ') i
  let (hour, i) ← fieldUntil buf (ascii ':') i
  let j := i + ((buf.drop i).takeWhile fun c => c ≠ ascii 'A' ∧ c ≠ ascii 'P').length
  if j = buf.length then none
  let minute := slice buf i j
  let hour := (if getInt hour = 12 then 0 else getInt hour)
    + if byteAt buf j = ascii 'P' then 12 else 0
  let j := j + 1
  if j = buf.length then none
  let j := if byteAt buf j = ascii 'M' then j + 1 else j
  if j = buf.length then none
  let start ← skipMatching buf (ascii ' ') j
  let j ← skipUntil buf (ascii ' ') start
  let fp :=
    if byteAt buf start = ascii '<' then { fp with flagtrycwd := true }
    else { fp with
      size := getInt (slice buf start j)
      sizetype := .binary
      flagtryretr := true }
  let j ← skipMatching buf (ascii ' ') j
  return { fp with
    name := some (buf.drop j)
    mtimetype := .remoteMinute
    mtime := timeBase + totai (dosYear (getInt year)) (getInt month - 1) (getInt mday)
      + hour * 3600 + getInt minute * 60 }

/-! ## Lines -/

/-- `ftpparse` -/
def ftpparse (now : CurrentTime) (fp : FtpParsedEntry) (buf : List UInt8) :
    Option FtpParsedEntry :=
  if buf.length < 2 then none
  else if byteAt buf 0 = ascii '+' then parseEplf fp buf
  else if isUnixFileType (byteAt buf 0) then parseUnix now fp buf
  else
    match parseVms fp buf with
    | (fp, true) => some fp
    | (fp, false) =>
      if ascii '0' ≤ byteAt buf 0 ∧ byteAt buf 0 ≤ ascii '9' then parseDos fp buf else none

/-- A byte that ends a line. -/
def isLineEnd (c : UInt8) : Bool := c = ascii '\r' ∨ c = ascii '\n'

/-- The line without the bytes that end it. -/
def stripLineEnd (line : List UInt8) : List UInt8 := line.rdropWhile isLineEnd

/-- The type of an entry, by what may be tried on it. -/
def entryTypeOf (canCwd canRetr : Bool) : FtpEntryType :=
  if canCwd && !canRetr then .directory
  else if canCwd && canRetr then .symlink
  else if canRetr then .file
  else .unknown

/-- What is returned of an entry: a name that is not empty, and a size that is not below
zero. -/
def FtpParsedEntry.toFileEntry (fp : FtpParsedEntry) : Option FtpFileEntry :=
  match fp.name with
  | none => none
  | some [] => none
  | some (c :: name) =>
    some
      { name := c :: name
        type := entryTypeOf fp.flagtrycwd fp.flagtryretr
        size := fp.size.toNat
        mtime := fp.mtime
        canCwd := fp.flagtrycwd
        canRetr := fp.flagtryretr }

/-- **`ftp_parse_line`**: `none` is `false`. -/
def ftpParseLine (now : CurrentTime) (line : List UInt8) : Option FtpFileEntry := do
  let fp ← ftpparse now {} (stripLineEnd line)
  fp.toFileEntry

end LinApple.Services
