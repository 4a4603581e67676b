import LinApple.Debugger.Fills

/-!
# Searches

A search string is turned into blocks of one byte each, and the image is compared with them from
every address on. A run of any bytes is such a block as well, and the loop that would look for
its end tests the kind of the run itself, so that it matches one byte like the wildcard for one
(`mem_searchMemoryFind_iff`).

The end of the range is worked out in a copy, as it is for fills, and the search goes on with
an end of 0: it finds nothing at all (`cmdMemorySearch_of_spelled`).

What a search should find is told without the blocks. A `SearchItem` is a part of a string as it
is typed: a byte, a value of two bytes, a wildcard for a byte, for half of one or for a run, and a
text in either kind of quotes; and `Matches` says what it means that a list of them matches memory
from an address on. Only the run needs a choice, of how many bytes it takes, and that is an
existential there and would be a loop in the code.

Which arguments spell which part (`SpelledBy`) is where the console's syntax comes in, and is read
off the command: the value of an argument, the length of its text, and its quotes. It is a
relation and not a function, because not every argument spells something; those that do not are
answered with the help.

The theorem covers the two forms of a range that the command accepts. That it comes down to
"nothing matches" is the work of the missing end alone. What the matcher makes of its blocks,
which no search of the program ever gets to show, is proved about the matcher itself, and would be
wrong at a run and at the last address of the range.
-/

namespace LinApple.Debugger

open Debugged

/-! ## Blocks -/

/-- `MemorySearchId` -/
inductive MemorySearchId where
  /-- `xx` -/
  | byteExact
  /-- `?x` -/
  | nibLowExact
  /-- `x?` -/
  | nibHighExact
  /-- `?` -/
  | byte1Wild
  /-- `??` -/
  | byteNWild
deriving DecidableEq, Repr

/-- `MemorySearch`, less the flag that is only set. -/
structure MemorySearch where
  value : UInt8
  type : MemorySearchId
deriving DecidableEq, Repr

namespace MemorySearch

variable (ms : MemorySearch) (mem : UInt16 → UInt8)

/-- A block that is compared with memory. -/
def isCompared : Bool :=
  match ms.type with
  | .byteExact | .nibLowExact | .nibHighExact => true
  | .byte1Wild | .byteNWild => false

/-- `nTarget`: what a block is compared with. -/
def target (b : UInt8) : UInt8 :=
  match ms.type with
  | .nibLowExact => b &&& 0x0F
  | .nibHighExact => b &&& 0xF0
  | _ => b

/-- The secondary search for the end of a run, of a number of bytes from an address on; the state
is `bMatchAll` and `nAddress2`. -/
def secondaryLoop : Nat → UInt16 → Bool × UInt16 → Bool × UInt16
  | 0, _, state => state
  | n + 1, address3, (matchAll, address2) =>
    -- the block that is tested is the run, not the one behind it
    if ms.isCompared then
      if ms.value = ms.target (mem address3) then
        secondaryLoop n (address3 + 1) (matchAll, address3)
      else (false, address2)
    else secondaryLoop n (address3 + 1) (matchAll, address2)

end MemorySearch

section Find

variable (mem : UInt16 → UInt8) (addressEnd : UInt16)

/-- The loop over the blocks. -/
def blockLoop : List MemorySearch → Bool → UInt16 → Bool
  | [], matchAll, _ => matchAll
  | ms :: rest, matchAll, address2 =>
    if ms.isCompared then
      if ms.value = ms.target (mem address2) then blockLoop rest matchAll (address2 + 1)
      else false
    else if ms.type = .byte1Wild then blockLoop rest matchAll (address2 + 1)
    else if rest = [] then blockLoop rest matchAll (address2 + 1)
    else
      let (matchAll, address2) := ms.secondaryLoop mem
        (addressEnd.toNat - address2.toNat) address2 (matchAll, address2)
      blockLoop rest matchAll (address2 + 1)

/-- `SearchMemoryFind`: the results, of which the first is `NO_6502_TARGET`. -/
def searchMemoryFind (vMemorySearchValues : List MemorySearch) (addressStart : UInt16) :
    List Int :=
  let addresses := List.range' addressStart.toNat (addressEnd.toNat - addressStart.toNat)
  let found := addresses.filter fun a =>
    blockLoop mem addressEnd vMemorySearchValues true (UInt16.ofNat a)
  (-1 : Int) :: found.map Int.ofNat

end Find

/-! ## Search strings -/

/-- The fields of `Arg` a search looks at. -/
structure SearchArg extends Arg where
  /-- `bType & TYPE_QUOTED_1` -/
  isQuoted1 : Bool
  /-- `nArgLen` -/
  argLen : Nat
deriving DecidableEq, Repr

/-- `parameters[PARAM_MEM_SEARCH_WILD].name[0]` -/
def searchWild : Char := '?'

namespace SearchArg

variable (arg : SearchArg)

/-- A character of the text of an argument, as a byte. -/
def char (i : Nat) : UInt8 := UInt8.ofNat (arg.text.getD i '\x00').toNat

/-- The block of an argument that is a number of at most two digits or wildcards. -/
def digits : MemorySearch :=
  let exact : MemorySearch := ⟨arg.value.toUInt8, .byteExact⟩
  if arg.argLen = 1 then
    if arg.text.getD 0 '\x00' = searchWild then ⟨arg.value.toUInt8, .byte1Wild⟩ else exact
  else
    let ms : MemorySearch :=
      if arg.text.getD 0 '\x00' = searchWild then ⟨arg.value.toUInt8 &&& 0x0F, .nibLowExact⟩
      else exact
    if arg.text.getD 1 '\x00' = searchWild then
      if ms.type = .nibLowExact then { ms with type := .byteNWild }
      else ⟨arg.value.toUInt8 <<< 4 &&& 0xF0, .nibHighExact⟩
    else ms

/-- The blocks of a quoted text, of which the last is handled like that of any argument. -/
def quoted (mark : UInt8 → UInt8) : List MemorySearch × MemorySearch :=
  if arg.argLen = 0 then ([], ⟨arg.value.toUInt8, .byteExact⟩)
  else ((List.range (arg.argLen - 1)).map fun i => ⟨mark (arg.char i), .byteExact⟩,
    ⟨mark (arg.char (arg.argLen - 1)), .byteExact⟩)

/-- **The blocks of an argument**, unless it is a number that is too long. -/
def blocks : Option (List MemorySearch × MemorySearch) :=
  if arg.value > 0xFF then
    some ([⟨arg.value.toUInt8, .byteExact⟩], ⟨(arg.value >>> 8).toUInt8, .byteExact⟩)
  else if arg.isQuoted1 then some (arg.quoted (· ||| 0x80))
  else if arg.isQuoted then some (arg.quoted (· &&& 0x7F))
  else if arg.argLen > 2 then none
  else some ([], arg.digits)

end SearchArg

/-- The loop of `CmdMemorySearch` over the arguments of the string: a run behind a run is
skipped, and `lastType` starts as one. -/
def searchValues : MemorySearchId → List SearchArg → Option (List MemorySearch)
  | _, [] => some []
  | lastType, arg :: rest => do
    let (pushed, ms) ← arg.blocks
    if lastType = .byteNWild ∧ ms.type = .byteNWild then
      return pushed ++ (← searchValues lastType rest)
    else return pushed ++ ms :: (← searchValues ms.type rest)

/-- `CmdMemorySearch`, with the results that were there. -/
def cmdMemorySearch (args : Nat → SearchArg) (nArgs : Nat) (s : Debugged)
    (results : List Int) : List Int :=
  if nArgs < 4 then results
  else
    let (addressStart, address2, range) := rangeGet (fun i => (args i).toArg) 1
    let endLen : RangeEndLen := ⟨0, 0⟩
    -- the end that is worked out is left where it is
    if !(rangeCalcEndLen range addressStart address2 endLen).1 then results
    else
      match searchValues .byteNWild ((List.range' 4 (nArgs - 3)).map args) with
      | none => results
      | some v => searchMemoryFind (fun a => s.byte a.toNat) endLen.addressEnd v addressStart

/-! ## What the matcher finds -/

section Matcher

variable (mem : UInt16 → UInt8) (addressEnd : UInt16)

/-- A block stands for a byte. -/
def MemorySearch.StandsFor (ms : MemorySearch) (b : UInt8) : Prop :=
  ms.isCompared → ms.value = ms.target b

/-- The blocks stand for the bytes from an address on. -/
def StandFor (v : List MemorySearch) (a : UInt16) : Prop :=
  ∀ (i : Nat) (ms : MemorySearch), v[i]? = some ms → ms.StandsFor (mem (a + UInt16.ofNat i))

theorem standFor_cons (ms : MemorySearch) (v : List MemorySearch) (a : UInt16) :
    StandFor mem (ms :: v) a ↔ ms.StandsFor (mem a) ∧ StandFor mem v (a + 1) := by
  have hnext : ∀ i : Nat, a + UInt16.ofNat (i + 1) = a + 1 + UInt16.ofNat i := fun i => by
    rw [UInt16.ofNat_add, UInt16.add_comm (UInt16.ofNat i), UInt16.add_assoc]
    rfl
  constructor
  · intro h
    refine ⟨?_, fun i ms' hi => ?_⟩
    · have hfirst := h 0 ms rfl
      rwa [show UInt16.ofNat 0 = 0 from rfl, UInt16.add_zero] at hfirst
    · rw [← hnext]
      exact h (i + 1) ms' hi
  · rintro ⟨hfirst, hrest⟩ i ms' hi
    cases i with
    | zero =>
      obtain rfl := Option.some.inj hi
      rwa [show UInt16.ofNat 0 = 0 from rfl, UInt16.add_zero]
    | succ i =>
      rw [hnext]
      exact hrest i ms' hi

/-- **The secondary search finds nothing out.** -/
theorem MemorySearch.secondaryLoop_of_wild {ms : MemorySearch} (hms : ms.isCompared = false)
    (n : Nat) : ∀ (address3 : UInt16) (state : Bool × UInt16),
      ms.secondaryLoop mem n address3 state = state := by
  induction n with
  | zero => exact fun _ _ => rfl
  | succ n ih =>
    intro address3 state
    rw [secondaryLoop, hms]
    exact ih _ _

/-- **Every block is compared with one byte**, a run as well. -/
theorem blockLoop_iff (v : List MemorySearch) :
    ∀ a : UInt16, blockLoop mem addressEnd v true a = true ↔ StandFor mem v a := by
  induction v with
  | nil => exact fun a => iff_of_true rfl fun i ms hi => by cases hi
  | cons ms v ih =>
    intro a
    rw [standFor_cons, ← ih (a + 1), blockLoop]
    cases hms : ms.isCompared with
    | true =>
      rw [if_pos rfl]
      by_cases hvalue : ms.value = ms.target (mem a)
      · rw [if_pos hvalue]
        exact (and_iff_right fun _ => hvalue).symm
      · rw [if_neg hvalue]
        exact iff_of_false Bool.false_ne_true fun h => hvalue (h.1 hms)
    | false =>
      have hstands : ms.StandsFor (mem a) := fun h => absurd (hms.symm.trans h) Bool.false_ne_true
      rw [if_neg Bool.false_ne_true, MemorySearch.secondaryLoop_of_wild mem hms,
        and_iff_right hstands]
      split
      · rfl
      split <;> rfl

/-- **What a search finds**: the addresses from the first on, but not the last, at which each
block stands for one byte. -/
theorem mem_searchMemoryFind_iff (v : List MemorySearch) (addressStart a : UInt16) :
    (a.toNat : Int) ∈ searchMemoryFind mem addressEnd v addressStart
      ↔ (addressStart ≤ a ∧ a < addressEnd) ∧ StandFor mem v a := by
  rw [searchMemoryFind, List.mem_cons, or_iff_right (by omega), UInt16.le_iff_toNat_le,
    UInt16.lt_iff_toNat_lt, ← blockLoop_iff mem addressEnd]
  simp only [List.mem_map, List.mem_filter, List.mem_range'_1]
  constructor
  · rintro ⟨n, ⟨hn, hfits⟩, heq⟩
    obtain rfl : n = a.toNat := Int.ofNat.inj heq
    rw [UInt16.ofNat_toNat] at hfits
    exact ⟨⟨hn.1, by omega⟩, hfits⟩
  · rintro ⟨⟨hge, hlt⟩, hfits⟩
    exact ⟨a.toNat, ⟨⟨hge, by omega⟩, by rwa [UInt16.ofNat_toNat]⟩, rfl⟩

end Matcher

/-! ## What a search is for -/

/-- A part of a search string, as the help describes them. What each stands for is said by
`Matches`. -/
inductive SearchItem where
  /-- `nn` -/
  | byte (v : UInt8)
  /-- `nnnn` -/
  | word (v : UInt16)
  /-- `?` -/
  | any
  /-- `?n` -/
  | lowNib (n : Fin 16)
  /-- `n?` -/
  | highNib (n : Fin 16)
  /-- `??` -/
  | run
  /-- A text in single quotes, of characters with the high bit set. -/
  | appleText (chars : List Char)
  /-- A text in double quotes, of characters without it. -/
  | asciiText (chars : List Char)
deriving DecidableEq, Repr

/-- The characters of numbers. -/
def hexDigits : List Char := "0123456789ABCDEF".toList

namespace SearchItem

/-- **An argument spells a part of the string.** A number up to `$FF` that is typed with more than
two digits spells none: `CmdMemorySearch` looks at the length of the text as well as at the value,
answers such an argument with `HelpLastCommand` and searches for nothing. -/
def SpelledBy (arg : SearchArg) : SearchItem → Prop
  | byte v => arg.value = v.toUInt16 ∧ arg.isQuoted1 = false ∧ arg.isQuoted = false
      ∧ arg.argLen = arg.text.length ∧ arg.text.length ≤ 2 ∧ searchWild ∉ arg.text
  | word v => arg.value = v ∧ 0xFF < v ∧ arg.isQuoted1 = false ∧ arg.isQuoted = false
  | any => arg.value ≤ 0xFF ∧ arg.isQuoted1 = false ∧ arg.isQuoted = false
      ∧ arg.argLen = 1 ∧ arg.text = [searchWild]
  | lowNib n => arg.value ≤ 0xFF ∧ arg.isQuoted1 = false ∧ arg.isQuoted = false
      ∧ arg.argLen = 2 ∧ arg.text = [searchWild, hexDigits.getD n.val '0']
  | highNib n => arg.value ≤ 0xFF ∧ arg.isQuoted1 = false ∧ arg.isQuoted = false
      ∧ arg.argLen = 2 ∧ arg.text = [hexDigits.getD n.val '0', searchWild]
  | run => arg.value ≤ 0xFF ∧ arg.isQuoted1 = false ∧ arg.isQuoted = false
      ∧ arg.argLen = 2 ∧ arg.text = [searchWild, searchWild]
  | appleText chars => arg.isQuoted1 = true ∧ arg.isQuoted = false ∧ arg.text = chars
      ∧ arg.argLen = chars.length
  | asciiText chars => arg.isQuoted1 = false ∧ arg.isQuoted = true ∧ arg.text = chars
      ∧ arg.argLen = chars.length

end SearchItem

/-- The image has characters from an address on. -/
def TextAt (s : Debugged) (mark : UInt8 → UInt8) (chars : List Char) (a : Nat) : Prop :=
  ∀ (i : Nat) (c : Char), chars[i]? = some c →
    s.byte ((a + i) % 0x10000) = mark (UInt8.ofNat c.toNat)

/-- **A search string matches memory from an address on**; a run takes any number of bytes up to
the end of the range. -/
def Matches (s : Debugged) (rangeEnd : Nat) : List SearchItem → Nat → Prop
  | [], _ => True
  | item :: rest, a =>
    let b := s.byte (a % 0x10000)
    match item with
    | .byte v => b = v ∧ Matches s rangeEnd rest (a + 1)
    | .word v => b = v.toUInt8 ∧ s.byte ((a + 1) % 0x10000) = (v >>> 8).toUInt8
        ∧ Matches s rangeEnd rest (a + 2)
    | .any => Matches s rangeEnd rest (a + 1)
    | .lowNib n => b.toNat % 16 = n.val ∧ Matches s rangeEnd rest (a + 1)
    | .highNib n => b.toNat / 16 = n.val ∧ Matches s rangeEnd rest (a + 1)
    | .run => ∃ k, a + k ≤ rangeEnd ∧ Matches s rangeEnd rest (a + k)
    | .appleText chars => TextAt s (· ||| 0x80) chars a
        ∧ Matches s rangeEnd rest (a + chars.length)
    | .asciiText chars => TextAt s (· &&& 0x7F) chars a
        ∧ Matches s rangeEnd rest (a + chars.length)

namespace RangeForm

/-- The address behind a range. -/
def behind (form : RangeForm) (a b : UInt16) : Nat :=
  min (form.first a b + form.count a b) 0x10000

end RangeForm

/-- An address of a range at which a string matches. The whole match has to be in the range, and
not only its first byte. -/
def MatchesIn (form : RangeForm) (a b : UInt16) (items : List SearchItem) (s : Debugged)
    (j : Nat) : Prop :=
  form.first a b ≤ j ∧ j < form.behind a b ∧ Matches s (form.behind a b) items j

/-- **The results of a search are the matches**, in ascending order. The first entry of the list
is a place holder of the program and is not counted. -/
def FindsMatches (form : RangeForm) (a b : UInt16) (items : List SearchItem) (s : Debugged)
    (results : List Int) : Prop :=
  ∃ found : List Nat, results.tail = found.map Int.ofNat ∧ found.Pairwise (· < ·)
    ∧ ∀ j, j ∈ found ↔ MatchesIn form a b items s j

/-- The arguments `S range string`: the range is one with a comma or a colon, for the command
refuses any other. -/
structure SearchArgs (form : RangeForm) (args : Nat → SearchArg) (a b : UInt16)
    (items : List SearchItem) : Prop where
  /-- The range has a separator. -/
  separated : form ≠ .startEnd
  /-- The first arguments are the range. -/
  range : form.Spelled (fun i => (args i).toArg) 1 a b
  /-- There is something to search for. -/
  nonempty : items ≠ []
  /-- The others are the string. -/
  spelled : ∀ (i : Nat) (item : SearchItem), items[i]? = some item →
    item.SpelledBy (args (4 + i))

/-! ## What a search does -/

/-- What is spelled has blocks. -/
theorem SearchItem.SpelledBy.blocks_isSome {arg : SearchArg} {item : SearchItem}
    (h : item.SpelledBy arg) : arg.blocks.isSome := by
  unfold SearchArg.blocks
  split
  · rfl
  split
  · rfl
  split
  · rfl
  rename_i hvalue hq1 hq2
  have hlen : ¬ arg.argLen > 2 := by
    cases item with
    | byte v =>
      rw [h.2.2.2.1]
      exact Nat.not_lt.2 h.2.2.2.2.1
    | word v => exact absurd (h.1 ▸ h.2.1) hvalue
    | any =>
      rw [h.2.2.2.1]
      decide
    | lowNib n | highNib n | run => exact Nat.not_lt.2 h.2.2.2.1.le
    | appleText chars => exact absurd h.1 hq1
    | asciiText chars => exact absurd h.2.1 hq2
  rw [if_neg hlen]
  rfl

theorem searchValues_isSome (list : List SearchArg) (h : ∀ arg ∈ list, arg.blocks.isSome) :
    ∀ lastType, (searchValues lastType list).isSome := by
  induction list with
  | nil => exact fun _ => rfl
  | cons arg rest ih =>
    intro lastType
    rw [List.forall_mem_cons] at h
    obtain ⟨⟨pushed, ms⟩, hblocks⟩ := Option.isSome_iff_exists.1 h.1
    have hrest := fun lastType => Option.isSome_iff_exists.1 (ih h.2 lastType)
    unfold searchValues
    rw [hblocks]
    dsimp only [Option.bind_eq_bind, Option.bind_some]
    split
    · obtain ⟨v, hv⟩ := hrest lastType
      rw [hv]
      rfl
    · obtain ⟨v, hv⟩ := hrest ms.type
      rw [hv]
      rfl

/-- **A search finds nothing**, whatever there is. -/
theorem cmdMemorySearch_of_spelled {form : RangeForm} {args : Nat → SearchArg} {a b : UInt16}
    {items : List SearchItem} (h : SearchArgs form args a b items) (s : Debugged)
    (results : List Int) :
    cmdMemorySearch args (3 + items.length) s results = [-1] := by
  have hpos := List.length_pos_iff.2 h.nonempty
  have hvalid : (rangeCalcEndLen (rangeGet (fun i => (args i).toArg) 1).2.2
      (rangeGet (fun i => (args i).toArg) 1).1 (rangeGet (fun i => (args i).toArg) 1).2.1
      ⟨0, 0⟩).1 = true := by
    have hrange := h.range.2
    unfold rangeGet
    cases form with
    | startEnd => exact absurd rfl h.separated
    | startLen =>
      rw [hrange.1]
      rfl
    | startColonEnd =>
      rw [hrange.1]
      dsimp only
      split <;> rfl
  obtain ⟨v, hv⟩ := Option.isSome_iff_exists.1 (searchValues_isSome
    ((List.range' 4 (3 + items.length - 3)).map args) (fun arg harg => by
      obtain ⟨i, hi, rfl⟩ := List.mem_map.1 harg
      rw [List.mem_range'_1] at hi
      have hlt : i - 4 < items.length := by omega
      have hitem := h.spelled (i - 4) _ (List.getElem?_eq_getElem hlt)
      rw [Nat.add_sub_cancel' hi.1] at hitem
      exact hitem.blocks_isSome) .byteNWild)
  unfold cmdMemorySearch
  rw [if_neg (by omega)]
  dsimp only
  rw [hvalid, hv]
  show searchMemoryFind _ 0 v _ = _
  rw [searchMemoryFind, show (0 : UInt16).toNat = 0 from rfl, Nat.zero_sub]
  rfl

/-- **A search finds the matches** just where there are none. The end of the range is lost on the
way to the matcher, which therefore looks at no address at all; so the results are empty, whatever
the range, the string and the memory. The hypothesis is only that the arguments spell a range and
a string. -/
theorem memory_search (form : RangeForm) (args : Nat → SearchArg) (a b : UInt16)
    (items : List SearchItem) (s : Debugged) (results : List Int)
    (h : SearchArgs form args a b items) :
    FindsMatches form a b items s (cmdMemorySearch args (3 + items.length) s results)
      ↔ ∀ j, ¬ MatchesIn form a b items s j := by
  rw [cmdMemorySearch_of_spelled h]
  constructor
  · rintro ⟨found, hfound, -, hiff⟩ j hj
    obtain rfl : found = [] := List.map_eq_nil_iff.1 hfound.symm
    exact absurd ((hiff j).2 hj) List.not_mem_nil
  · intro hnone
    exact ⟨[], rfl, .nil, fun j => iff_of_false List.not_mem_nil (hnone j)⟩

/-! ## A search of a blank memory -/

/-- The arguments `S 300,2` and a number. -/
def searchArgs (v : UInt8) (digits : List Char) : Nat → SearchArg
  | 1 => ⟨⟨0x300, .other, false, false, "300".toList⟩, false, 3⟩
  | 2 => ⟨⟨0, .comma, false, false, ",".toList⟩, false, 1⟩
  | 3 => ⟨⟨2, .other, false, false, "2".toList⟩, false, 1⟩
  | _ => ⟨⟨v.toUInt16, .other, false, false, digits⟩, false, digits.length⟩

theorem searchArgs_spelled {v : UInt8} {digits : List Char} (hlen : digits.length ≤ 2)
    (hwild : searchWild ∉ digits) :
    SearchArgs .startLen (searchArgs v digits) 0x300 2 [.byte v] where
  separated := RangeForm.noConfusion
  range := ⟨rfl, rfl, rfl⟩
  nonempty := List.cons_ne_nil _ _
  spelled i item hi := by
    cases i with
    | zero =>
      obtain rfl := Option.some.inj hi
      exact ⟨rfl, rfl, rfl, rfl, hlen, hwild⟩
    | succ i => cases hi

theorem byte_blank (i : Nat) : Debugged.blank.byte i = 0 := by
  unfold byte
  split <;> rfl

/-- There is no `FF` in a blank memory, and none is found. -/
theorem memory_search_blank :
    FindsMatches .startLen 0x300 2 [.byte 0xFF] .blank
      (cmdMemorySearch (searchArgs 0xFF "FF".toList) 4 .blank []) :=
  (memory_search .startLen (searchArgs 0xFF "FF".toList) 0x300 2 [.byte 0xFF] .blank []
    (searchArgs_spelled (by decide) (by decide))).2 fun j hj => by
      have hbyte := hj.2.2.1
      rw [byte_blank] at hbyte
      exact absurd hbyte (by decide)

/-- There is a `0` at `$0300`, and it is not found. -/
theorem not_memory_search :
    ¬ ∀ (form : RangeForm) (args : Nat → SearchArg) (a b : UInt16) (items : List SearchItem)
      (s : Debugged) (results : List Int), SearchArgs form args a b items →
        FindsMatches form a b items s (cmdMemorySearch args (3 + items.length) s results) := by
  intro h
  have hargs : SearchArgs .startLen (searchArgs 0 ['0']) 0x300 2 [.byte 0] :=
    searchArgs_spelled (by decide) (by decide)
  obtain ⟨found, hfound, -, hiff⟩ := h _ _ _ _ _ .blank [] hargs
  rw [cmdMemorySearch_of_spelled hargs] at hfound
  obtain rfl : found = [] := List.map_eq_nil_iff.1 hfound.symm
  exact absurd ((hiff 0x300).2 ⟨by decide, by decide, byte_blank _, trivial⟩) List.not_mem_nil

end LinApple.Debugger
