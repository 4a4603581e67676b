import LinApple.Lib.Bytes
import LinApple.Services.FtpParser
import Mathlib.Data.List.GetD
import LinApple.Lib.Sizes
import Mathlib.Algebra.Group.Nat.Defs
import Mathlib.Algebra.Group.Int.Defs

/-!
# Long listings of Unix

A line of `ls -l` is made of columns with spaces between them, and a name. The loop of
`parse_unix` sees a column whole, at the space behind it (`unixLoop_column`), and so sees one
column after another (`unixLoop_columns`); the switch guesses none of them wrongly, since the
owner and the group are read before it looks for a month, and a size is no month
(`getmonth_digits`). So a listing is understood (`understands`), as long as the line says where
its name ends and its size is one that the parser has room for.

A listing is not a text here but what a text is made from. `UnixListing` has the type, the letters
of the permissions, words for the owner and the group, digits for the count of links and the size,
a date, a name, and how many spaces are in front of each column; each part carries what makes it
one, so a word has no space in it and a date is one of the two forms that `ls` writes. The text is
computed from that, and there is no listing that cannot be written.

This is what lets the statement be about all of them at once, and it also shows what cannot be
had. Two listings may have the same text. The name of a link that has an arrow in it, or a name
that ends as lines do, cannot be told from something else by any parser, and `Legible` leaves
these out, with sizes that do not fit and years of less than four digits; and nothing besides.
Each of the four has its line in `not_understood`, so that none is left out for convenience. What
is understood is the name to the byte, the size and the type, whatever the time of the host and
however the line ends.
-/

namespace LinApple.Services

open Byte

/-! ## Listings -/

/-- **A word**: bytes with no space among them. -/
structure Word where
  /-- Its bytes. -/
  text : List UInt8
  /-- There are some. -/
  ne_nil : text ≠ []
  /-- None is a space. -/
  noSpace : ascii ' ' ∉ text

/-- **A number**, in decimal digits. -/
structure Digits where
  /-- The digits. -/
  text : List UInt8
  /-- There are some. -/
  ne_nil : text ≠ []
  /-- They are digits. -/
  digits : ∀ c ∈ text, ascii '0' ≤ c ∧ c ≤ ascii '9'

/-- The number that digits are. -/
def decimal (text : List UInt8) : Nat := text.foldl (fun n c => n * 10 + (c.toNat - 48)) 0

/-- The number. -/
def Digits.value (d : Digits) : Nat := decimal d.text

/-- What a listing is of. -/
inductive UnixType where
  | file
  | directory
  /-- A link, with its target. -/
  | link (target : List UInt8)
  | block
  | character
  | pipe
  | socket

/-- The type letter. -/
def UnixType.letter : UnixType → UInt8
  | .file => ascii '-'
  | .directory => ascii 'd'
  | .link _ => ascii 'l'
  | .block => ascii 'b'
  | .character => ascii 'c'
  | .pipe => ascii 'p'
  | .socket => ascii 's'

/-- The type that the service has for it. -/
def UnixType.entryType : UnixType → FtpEntryType
  | .file => .file
  | .directory => .directory
  | .link _ => .symlink
  | _ => .unknown

/-- What stands behind the name. -/
def UnixType.behindName : UnixType → List UInt8
  | .link target => arrow ++ target
  | _ => []

/-- The last part of a date: the time of a recent one, the year of another. -/
inductive ListingDate where
  /-- A time, its hour with one digit or two. -/
  | time (hour minute : Digits) (hour_le : hour.text.length ≤ 2) (minute_eq : minute.text.length = 2)
  /-- A year. -/
  | year (year : Digits)

/-- The text of it. -/
def ListingDate.text : ListingDate → List UInt8
  | .time hour minute _ _ => hour.text ++ ascii ':' :: minute.text
  | .year number => number.text

/-- **A line of `ls -l`.** It is given by its columns and the blanks between them, each such that
it can be told from its neighbours; so the text of the line is a function of it, and no parser is
needed to say what a line means. -/
structure UnixListing where
  /-- What it is of. -/
  type : UnixType
  /-- The permission letters. -/
  permissions : Word
  /-- They are none of NetWare's. -/
  unbracketed : permissions.text.head? ≠ some (ascii '[')
  /-- The link count. -/
  links : Digits
  /-- The owner. -/
  owner : Word
  /-- The group. -/
  group : Word
  /-- The size. -/
  size : Digits
  /-- The month. -/
  month : Fin 12
  /-- Its name, in capitals or not. -/
  monthName : List UInt8
  /-- It is that month's. -/
  monthName_eq : monthName.map asciiTolower = months.getD month []
  /-- The day. -/
  day : Digits
  /-- The time or the year. -/
  date : ListingDate
  /-- The name. -/
  name : List UInt8
  /-- There is one. -/
  name_ne : name ≠ []
  /-- How many spaces more than one there are behind a column. -/
  spaces : Fin 7 → Nat

/-- Columns, each with the spaces behind it, and the rest of a line. -/
def columnsText : List (List UInt8 × Nat) → List UInt8 → List UInt8
  | [], rest => rest
  | (word, more) :: columns, rest =>
    word ++ ascii ' ' :: (List.replicate more (ascii ' ') ++ columnsText columns rest)

namespace UnixListing

/-- The columns in front of the last part of the date. -/
def columns (l : UnixListing) : List (List UInt8 × Nat) :=
  [(l.type.letter :: l.permissions.text, l.spaces 0), (l.links.text, l.spaces 1),
    (l.owner.text, l.spaces 2), (l.group.text, l.spaces 3), (l.size.text, l.spaces 4),
    (l.monthName, l.spaces 5), (l.day.text, l.spaces 6)]

/-- **The line.** -/
def line (l : UnixListing) : List UInt8 :=
  columnsText l.columns (l.date.text ++ ascii ' ' :: (l.name ++ l.type.behindName))

/-- **The line says all of the listing**: the size is one for which there is room, the year has
the four digits by which the parser knows one, the name of a link ends at the first arrow, and
any other does not end as a line does. -/
structure Legible (l : UnixListing) : Prop where
  /-- There is room for the size. -/
  size : l.size.value < 2 ^ 63
  /-- The year has four digits or more. -/
  year : ∀ year, l.date = .year year → 4 ≤ year.text.length
  /-- The first arrow is the one behind the name. -/
  link : ∀ target, l.type = .link target → ¬ arrow <:+: l.name ++ [ascii ' ']
  /-- The name is not taken for the end of the line. -/
  other : l.type.behindName = [] → stripLineEnd l.name = l.name

end UnixListing

/-- What the parser returns of a line is what it lists: the name, the size and the kind of the
entry. A target behind an arrow is no part of the name. -/
def UnixListing.Understood (l : UnixListing) (t : CurrentTime) (lineEnd : List UInt8) : Prop :=
  (ftpParseLine t (l.line ++ lineEnd)).map (fun e => (e.name, e.size, e.type))
    = some (l.name, l.size.value, l.type.entryType)

instance (l : UnixListing) (t : CurrentTime) (lineEnd : List UInt8) :
    Decidable (l.Understood t lineEnd) :=
  inferInstanceAs (Decidable (_ = _))

/-! ## Bytes -/

theorem byteAt_append_add (pre buf : List UInt8) (k : Nat) :
    byteAt (pre ++ buf) (pre.length + k) = byteAt buf k := by
  unfold byteAt
  rw [List.getD_append_right _ _ _ _ (Nat.le_add_right _ _), Nat.add_sub_cancel_left]

theorem byteAt_append_left {pre : List UInt8} (buf : List UInt8) {k : Nat} (hk : k < pre.length) :
    byteAt (pre ++ buf) k = byteAt pre k :=
  List.getD_append _ _ _ _ hk

theorem byteAt_mem {buf : List UInt8} {k : Nat} (hk : k < buf.length) : byteAt buf k ∈ buf := by
  unfold byteAt
  rw [List.getD_eq_getElem _ _ hk]
  exact List.getElem_mem hk

theorem byteAt_slice {buf : List UInt8} {i j k : Nat} (hk : k < j - i) :
    byteAt (slice buf i j) k = byteAt buf (i + k) := by
  unfold slice byteAt
  simp [List.getD_eq_getElem?_getD, hk]

/-! ## Numbers -/

/-- A digit is taken as one. -/
theorem getlongDigit_digit : ∀ c : UInt8, ascii '0' ≤ c ∧ c ≤ ascii '9' →
    ((c.toInt8.toInt - 48) % 2 ^ 64).toNat = c.toNat - 48 ∧ c.toNat - 48 < 10 :=
  forall_byte (by decide +kernel)

/-- **A number for which there is room is read as it is.** -/
theorem getlong_digits {text : List UInt8} (hdigits : ∀ c ∈ text, ascii '0' ≤ c ∧ c ≤ ascii '9')
    (hroom : decimal text < 2 ^ 63) : getlong text = decimal text := by
  induction text using List.reverseRecOn with
  | nil => rfl
  | append_singleton text c ih =>
    obtain ⟨hdigit, hlt⟩ := getlongDigit_digit c (hdigits c (by simp))
    have hsplit : decimal (text ++ [c]) = decimal text * 10 + (c.toNat - 48) := by
      simp [decimal, List.foldl_append]
    rw [hsplit] at hroom ⊢
    have hread := ih (fun c hc => hdigits c (by simp [hc])) (by omega)
    have hround : getlong (text ++ [c]) = getlongDigit (decimal text) c := by
      rw [← hread]
      simp [getlong, List.foldl_append]
    rw [hround]
    unfold getlongDigit
    rw [hdigit]
    exact if_pos (by unfold uint64Max; omega)

/-! ## Months -/

/-- No month begins with a digit. -/
theorem month_head : ∀ c : UInt8, ascii '0' ≤ c ∧ c ≤ ascii '9' →
    ∀ month ∈ months, month.head? ≠ some (asciiTolower c) :=
  forall_byte (by decide +kernel)

/-- **A number is no month.** -/
theorem getmonth_digits (d : Digits) : getmonth d.text = none := by
  obtain ⟨c, text, htext⟩ := List.exists_cons_of_ne_nil d.ne_nil
  have hc := d.digits c (by simp [htext])
  unfold getmonth
  split_ifs
  · rw [List.findIdx?_eq_none_iff]
    intro month hmonth
    have hhead := month_head c hc month hmonth
    rw [decide_eq_false_iff_not, htext]
    rintro rfl
    exact hhead rfl
  · rfl

/-- Each month is found in its place. -/
theorem months_findIdx : ∀ month : Fin 12, (months.getD month []).length = 3
    ∧ months.findIdx? (months.getD month [] = ·) = some month.val := by
  decide +kernel

theorem getmonth_month {month : Fin 12} {name : List UInt8}
    (hname : name.map asciiTolower = months.getD month []) : getmonth name = some month.val := by
  obtain ⟨hlen, hfind⟩ := months_findIdx month
  have hthree : name.length = 3 := by rw [← hlen, ← hname, List.length_map]
  unfold getmonth
  rw [if_pos hthree, hname]
  exact hfind

/-! ## The loop -/

variable {t : CurrentTime} {s : UnixScan}

/-- Between the spaces that end a column, the loop goes on. -/
theorem unixLoop_skip {b : List UInt8} {m n i j : Nat}
    (hskip : ∀ k < m, byteAt b (j + k) ≠ ascii ' ' ∨ byteAt b (j + k - 1) = ascii ' ') :
    unixLoop t b (m + n) j i s = unixLoop t b n (j + m) i s := by
  induction m generalizing j with
  | zero => rw [Nat.zero_add, Nat.add_zero]
  | succ m ih =>
    rw [Nat.succ_add_eq_add_succ, Nat.add_succ, unixLoop]
    have hfirst := hskip 0 (Nat.succ_pos m)
    rw [Nat.add_zero] at hfirst
    rw [if_pos hfirst, ih fun k hk => ?_, Nat.add_right_comm, Nat.add_assoc]
    have hlater := hskip (k + 1) (by omega)
    rwa [Nat.add_comm k 1, ← Nat.add_assoc] at hlater

/-- **A column is seen whole**, at the space behind it. -/
theorem unixLoop_column (pre rest : List UInt8) {word : List UInt8} (hne : word ≠ [])
    (hword : ascii ' ' ∉ word) :
    unixLoop t (pre ++ (word ++ ascii ' ' :: rest)) (word.length + (rest.length + 1)) pre.length
        pre.length s =
      match unixToken t s word with
      | .next s => unixLoop t (pre ++ (word ++ ascii ' ' :: rest)) rest.length
          (pre.length + word.length + 1)
          (skipSpaces (pre ++ (word ++ ascii ' ' :: rest)) (pre.length + word.length + 1)) s
      | .reject => none
      | .date mtimetype mtime => some (s.size, mtimetype, mtime, rest) := by
  have hpos : 0 < word.length := List.length_pos_iff.2 hne
  have hinside : ∀ k < word.length,
      byteAt (pre ++ (word ++ ascii ' ' :: rest)) (pre.length + k) ≠ ascii ' ' := by
    intro k hk hspace
    rw [byteAt_append_add, byteAt_append_left _ hk] at hspace
    exact hword (hspace ▸ byteAt_mem hk)
  have hbehind : byteAt (pre ++ (word ++ ascii ' ' :: rest)) (pre.length + word.length) = ascii ' ' := by
    rw [byteAt_append_add, ← Nat.add_zero word.length, byteAt_append_add]
    rfl
  have hlast := hinside (word.length - 1) (by omega)
  rw [← Nat.add_sub_assoc hpos] at hlast
  have htoken : slice (pre ++ (word ++ ascii ' ' :: rest)) pre.length (pre.length + word.length)
      = word := by
    unfold slice
    rw [List.drop_left, Nat.add_sub_cancel_left, List.take_left]
  have hdrop : (pre ++ (word ++ ascii ' ' :: rest)).drop (pre.length + word.length + 1) = rest := by
    rw [Nat.add_assoc, List.drop_length_add_append, List.drop_length_add_append]
    rfl
  rw [unixLoop_skip fun k hk => .inl (hinside k hk), unixLoop,
    if_neg (by rintro (h | h); exacts [h hbehind, hlast h]), htoken]
  cases unixToken t s word with
  | next s => rfl
  | reject => rfl
  | date mtimetype mtime => exact congrArg (fun rest => some (s.size, mtimetype, mtime, rest)) hdrop

/-- The spaces behind a column are skipped. -/
theorem unixLoop_spaces (pre rest : List UInt8) {m : Nat} (hrest : rest.head? ≠ some (ascii ' ')) :
    unixLoop t (pre ++ ascii ' ' :: (List.replicate m (ascii ' ') ++ rest)) (m + rest.length)
        (pre.length + 1)
        (skipSpaces (pre ++ ascii ' ' :: (List.replicate m (ascii ' ') ++ rest)) (pre.length + 1)) s
      = unixLoop t (pre ++ ascii ' ' :: (List.replicate m (ascii ' ') ++ rest)) rest.length
          (pre.length + 1 + m) (pre.length + 1 + m) s := by
  have hspace : ∀ k ≤ m, byteAt (pre ++ ascii ' ' :: (List.replicate m (ascii ' ') ++ rest))
      (pre.length + k) = ascii ' ' := by
    intro k hk
    rw [byteAt_append_add]
    cases k with
    | zero => rfl
    | succ k =>
      change byteAt (List.replicate m (ascii ' ') ++ rest) k = _
      have hin : k < (List.replicate m (ascii ' ')).length := by
        rw [List.length_replicate]
        exact hk
      rw [byteAt_append_left _ hin]
      exact List.eq_of_mem_replicate (byteAt_mem hin)
  have hcursor : skipSpaces (pre ++ ascii ' ' :: (List.replicate m (ascii ' ') ++ rest))
      (pre.length + 1) = pre.length + 1 + m := by
    unfold skipSpaces
    rw [List.drop_length_add_append]
    have htake : (List.replicate m (ascii ' ') ++ rest).takeWhile (· = ascii ' ')
        = List.replicate m (ascii ' ') := by
      rw [List.takeWhile_append_of_pos (by simp)]
      cases rest with
      | nil => simp
      | cons c rest =>
        rw [List.takeWhile_cons_of_neg (by simpa using hrest), List.append_nil]
    change _ + ((List.replicate m (ascii ' ') ++ rest).takeWhile (· = ascii ' ')).length = _
    rw [htake, List.length_replicate]
  rw [hcursor]
  refine unixLoop_skip fun k hk => .inr ?_
  have hback := hspace k hk.le
  rwa [show pre.length + 1 + k - 1 = pre.length + k by omega]

/-- What the loop has after some columns, if it goes on. -/
def scanColumns (t : CurrentTime) : List (List UInt8 × Nat) → UnixScan → Option UnixScan
  | [], s => some s
  | (word, _) :: columns, s =>
    match unixToken t s word with
    | .next s => scanColumns t columns s
    | _ => none

/-- Behind the spaces begins the next column. -/
theorem columnsText_head {columns : List (List UInt8 × Nat)}
    (hcolumns : ∀ c ∈ columns, c.1 ≠ [] ∧ ascii ' ' ∉ c.1) {word : List UInt8} (hne : word ≠ [])
    (hword : ascii ' ' ∉ word) (rest : List UInt8) :
    (columnsText columns (word ++ rest)).head? ≠ some (ascii ' ') := by
  have hhead {word : List UInt8} (hne : word ≠ []) (hword : ascii ' ' ∉ word) (rest : List UInt8) :
      (word ++ rest).head? ≠ some (ascii ' ') := by
    obtain ⟨c, word, rfl⟩ := List.exists_cons_of_ne_nil hne
    intro hspace
    exact hword (Option.some.inj hspace ▸ List.mem_cons_self ..)
  cases columns with
  | nil => exact hhead hne hword rest
  | cons column columns =>
    obtain ⟨hne, hword⟩ := hcolumns column (List.mem_cons_self ..)
    exact hhead hne hword _

/-- **One column after another.** -/
theorem unixLoop_columns {columns : List (List UInt8 × Nat)}
    (hcolumns : ∀ c ∈ columns, c.1 ≠ [] ∧ ascii ' ' ∉ c.1) {s' : UnixScan}
    (hscan : scanColumns t columns s = some s') {word : List UInt8} (hne : word ≠ [])
    (hword : ascii ' ' ∉ word) {mtimetype : FtpMtimeType} {mtime : Int}
    (hdate : unixToken t s' word = .date mtimetype mtime) (rest pre : List UInt8) :
    unixLoop t (pre ++ columnsText columns (word ++ ascii ' ' :: rest))
        (columnsText columns (word ++ ascii ' ' :: rest)).length pre.length pre.length s
      = some (s'.size, mtimetype, mtime, rest) := by
  induction columns generalizing s pre with
  | nil =>
    obtain rfl := Option.some.inj hscan
    unfold columnsText
    rw [List.length_append, List.length_cons, unixLoop_column pre rest hne hword, hdate]
  | cons column columns ih =>
    obtain ⟨first, more⟩ := column
    obtain ⟨hfirst, hnoSpace⟩ := hcolumns _ (List.mem_cons_self ..)
    have hcolumns' : ∀ c ∈ columns, c.1 ≠ [] ∧ ascii ' ' ∉ c.1 :=
      fun c hc => hcolumns c (List.mem_cons_of_mem _ hc)
    unfold scanColumns at hscan
    cases hstep : unixToken t s first with
    | reject => simp [hstep] at hscan
    | date mtimetype mtime => simp [hstep] at hscan
    | next s₁ =>
      simp only [hstep] at hscan
      have hlater := ih hcolumns' hscan (pre ++ first ++ ascii ' ' :: List.replicate more (ascii ' '))
      have hspaces := unixLoop_spaces (t := t) (s := s₁) (pre ++ first) (m := more) _
        (columnsText_head hcolumns' hne hword (ascii ' ' :: rest))
      simp only [List.length_append, List.length_cons, List.length_replicate, List.append_assoc,
        List.cons_append, ← Nat.add_assoc] at hlater hspaces
      unfold columnsText
      rw [List.length_append, List.length_cons, unixLoop_column pre _ hfirst hnoSpace, hstep]
      simp only [List.length_append, List.length_replicate]
      rw [Nat.add_right_comm _ more 1] at hlater
      exact hspaces.trans hlater

/-! ## What the columns say -/

theorem parseUnixTimeOrYear_isSome {token : List UInt8} (htoken : 4 ≤ token.length)
    (month mday : Int) : ∃ date, parseUnixTimeOrYear token month mday t = some date := by
  unfold parseUnixTimeOrYear
  dsimp only
  split_ifs
  · exact ⟨_, rfl⟩
  · exact ⟨_, rfl⟩
  · exact ⟨_, rfl⟩

theorem length_le_text (date : ListingDate)
    (hyear : ∀ number, date = .year number → 4 ≤ number.text.length) : 4 ≤ date.text.length := by
  cases date with
  | time hour minute hour_le minute_eq =>
    have hhour := List.length_pos_iff.2 hour.ne_nil
    simp only [ListingDate.text, List.length_append, List.length_cons]
    omega
  | year number => exact hyear number rfl

/-- Digits are no spaces. -/
theorem digit_ne : ∀ c : UInt8, ascii '0' ≤ c ∧ c ≤ ascii '9' → c ≠ ascii ' ' ∧ c ≠ ascii 'f' :=
  forall_byte (by decide +kernel)

theorem Digits.noSpace (d : Digits) : ascii ' ' ∉ d.text :=
  fun h => (digit_ne _ (d.digits _ h)).1 rfl

theorem ListingDate.noSpace (date : ListingDate) : ascii ' ' ∉ date.text := by
  cases date with
  | time hour minute hour_le minute_eq =>
    have hcolon : ascii ' ' ≠ ascii ':' := by decide
    simp [ListingDate.text, hour.noSpace, minute.noSpace, hcolon]
  | year number => exact number.noSpace

namespace UnixListing

variable (l : UnixListing)

/-- The name of a month is three letters. -/
theorem monthName_word : l.monthName ≠ [] ∧ ascii ' ' ∉ l.monthName := by
  have hmonth : ∀ month : Fin 12, months.getD month [] ≠ []
      ∧ asciiTolower (ascii ' ') ∉ months.getD month [] := by
    decide +kernel
  obtain ⟨hne, hspace⟩ := hmonth l.month
  rw [← l.monthName_eq] at hne hspace
  exact ⟨fun hnil => hne (by rw [hnil]; rfl), fun hmem => hspace (List.mem_map_of_mem hmem)⟩

/-- The columns are words. -/
theorem columns_words : ∀ c ∈ l.columns, c.1 ≠ [] ∧ ascii ' ' ∉ c.1 := by
  have hletter : ascii ' ' ≠ l.type.letter := by
    cases l.type with
    | link target => exact (by decide : ascii ' ' ≠ ascii 'l')
    | _ => decide
  simp only [columns, List.forall_mem_cons, List.not_mem_nil, false_implies, implies_true, and_true]
  exact ⟨⟨List.cons_ne_nil _ _, List.not_mem_cons_of_ne_of_not_mem hletter l.permissions.noSpace⟩,
    ⟨l.links.ne_nil, l.links.noSpace⟩, ⟨l.owner.ne_nil, l.owner.noSpace⟩,
    ⟨l.group.ne_nil, l.group.noSpace⟩, ⟨l.size.ne_nil, l.size.noSpace⟩, l.monthName_word,
    l.day.ne_nil, l.day.noSpace⟩

/-- The link count is none of NetWare's. -/
theorem links_head : byteAt l.links.text 0 ≠ ascii 'f' :=
  (digit_ne _ (l.links.digits _ (byteAt_mem (List.length_pos_iff.2 l.links.ne_nil)))).2

/-- **None of the columns is taken for another.** -/
theorem scanColumns_columns (hsize : l.size.value < 2 ^ 63) :
    scanColumns t l.columns ⟨.skipPerm, 0, 0, 0⟩
      = some ⟨.haveDate, l.size.value, l.month, getInt l.day.text⟩ := by
  have hread : getlong l.size.text = l.size.value := getlong_digits l.size.digits hsize
  simp [columns, scanColumns, unixToken, l.links_head, getmonth_digits, hread,
    getmonth_month l.monthName_eq]

end UnixListing

/-! ## Where a line and a name end -/

/-- What ends a line is taken off. -/
theorem stripLineEnd_append {lineEnd : List UInt8} (hend : ∀ c ∈ lineEnd, isLineEnd c)
    (line : List UInt8) : stripLineEnd (line ++ lineEnd) = stripLineEnd line := by
  induction lineEnd using List.reverseRecOn with
  | nil => rw [List.append_nil]
  | append_singleton lineEnd c ih =>
    rw [← List.append_assoc, stripLineEnd,
      List.rdropWhile_concat_pos _ _ _ (hend c (by simp))]
    exact ih fun c hc => hend c (by simp [hc])

/-- What does not end as a line does stays, and some of what follows it. -/
theorem stripLineEnd_kept {kept : List UInt8} (hne : kept ≠ []) (hkept : stripLineEnd kept = kept)
    (pre rest : List UInt8) :
    ∃ more, stripLineEnd (pre ++ kept ++ rest) = pre ++ kept ++ more ∧ (rest = [] → more = []) := by
  induction rest using List.reverseRecOn with
  | nil =>
    refine ⟨[], ?_, fun _ => rfl⟩
    have hlast := List.rdropWhile_eq_self_iff.1 hkept hne
    rw [List.append_nil]
    refine List.rdropWhile_eq_self_iff.2 fun hne' => ?_
    rwa [List.getLast_append_of_ne_nil _ hne]
  | append_singleton rest c ih =>
    obtain ⟨more, hstrip, -⟩ := ih
    unfold stripLineEnd at hstrip ⊢
    rw [← List.append_assoc]
    by_cases hc : isLineEnd c
    · exact ⟨more, by rw [List.rdropWhile_concat_pos _ _ _ hc, hstrip], by simp⟩
    · refine ⟨rest ++ [c], ?_, by simp⟩
      rw [List.rdropWhile_concat_neg _ _ _ hc, List.append_assoc]

/-- **The name of a link is cut at its end**, if that is where the first arrow is. -/
theorem cutArrow_name {name : List UInt8} (hname : ¬ arrow <:+: name ++ [ascii ' '])
    (target : List UInt8) : cutArrow (name ++ (arrow ++ target)) = name := by
  -- the first arrow is the one behind the name: an earlier one would lie in the name, or would
  -- need a dash or a bracket where this one has its blank
  have hfind : (List.range ((name ++ (arrow ++ target)).length + 1 - arrow.length)).find?
      (fun k => slice (name ++ (arrow ++ target)) k (k + 4) = arrow) = some name.length := by
    rw [List.find?_range_eq_some]
    refine ⟨decide_eq_true ?_, ?_, fun k hk => ?_⟩
    · unfold slice
      rw [List.drop_left, Nat.add_sub_cancel_left]
      exact List.take_left' rfl
    · rw [List.mem_range, List.length_append, List.length_append]
      omega
    · rw [Bool.not_eq_true', decide_eq_false_iff_not]
      intro hslice
      have hbyte : ∀ i < 4, byteAt (name ++ (arrow ++ target)) (k + i) = byteAt arrow i := by
        intro i hi
        have hsame := congrArg (byteAt · i) hslice
        rwa [byteAt_slice (by omega)] at hsame
      have hend : byteAt (name ++ (arrow ++ target)) name.length = ascii ' ' := by
        rw [← Nat.add_zero name.length, byteAt_append_add]
        rfl
      by_cases hthird : k + 2 = name.length
      · have hdash := hbyte 2 (by decide)
        rw [hthird, hend] at hdash
        exact absurd hdash (by decide)
      by_cases hsecond : k + 1 = name.length
      · have hdash := hbyte 1 (by decide)
        rw [hsecond, hend] at hdash
        exact absurd hdash (by decide)
      refine hname ?_
      have hsplit : name ++ (arrow ++ target)
          = (name ++ [ascii ' ']) ++ (arrow.drop 1 ++ target) := by
        simp [arrow, asciis]
      rw [← hslice, hsplit]
      unfold slice
      rw [List.drop_append_of_le_length (by simp; omega), Nat.add_sub_cancel_left,
        List.take_append_of_le_length (by simp; omega)]
      exact (List.take_prefix _ _).isInfix.trans (List.drop_suffix _ _).isInfix
  unfold cutArrow
  rw [hfind]
  exact List.take_left

/-! ## Listings are understood -/

theorem columnsText_append (columns : List (List UInt8 × Nat)) (line rest : List UInt8) :
    columnsText columns (line ++ rest) = columnsText columns line ++ rest := by
  induction columns with
  | nil => rfl
  | cons column columns ih =>
    obtain ⟨word, more⟩ := column
    simp [columnsText, ih]

namespace UnixListing

variable {l : UnixListing}

/-- **Of the line, the parser sees the columns, the date and the name**, with an arrow behind
that of a link. -/
theorem stripLineEnd_line (h : l.Legible) {lineEnd : List UInt8}
    (hend : ∀ c ∈ lineEnd, isLineEnd c) : ∃ behind,
      stripLineEnd (l.line ++ lineEnd)
        = columnsText l.columns (l.date.text ++ ascii ' ' :: (l.name ++ behind))
      ∧ (if l.type.letter = ascii 'l' then cutArrow (l.name ++ behind) else l.name ++ behind)
        = l.name := by
  have hline (behind : List UInt8) :
      columnsText l.columns (l.date.text ++ ascii ' ' :: (l.name ++ behind))
        = columnsText l.columns (l.date.text ++ [ascii ' ']) ++ l.name ++ behind := by
    rw [← columnsText_append, ← columnsText_append, List.append_assoc, List.append_assoc,
      List.singleton_append]
  cases htype : l.type with
  | link target =>
    have hkept : stripLineEnd (l.name ++ arrow) = l.name ++ arrow := by
      refine List.rdropWhile_eq_self_iff.2 fun hne => ?_
      rw [List.getLast_append_of_ne_nil _ (by decide)]
      decide
    obtain ⟨more, hstrip, -⟩ := stripLineEnd_kept (by simp [l.name_ne]) hkept
      (columnsText l.columns (l.date.text ++ [ascii ' '])) (target ++ lineEnd)
    refine ⟨arrow ++ more, ?_, ?_⟩
    · unfold line
      rw [hline, hline, htype]
      simpa [UnixType.behindName] using hstrip
    · exact (if_pos rfl).trans (cutArrow_name (h.link target htype) more)
  | _ =>
    have hnone : l.type.behindName = [] := by
      rw [htype]
      rfl
    obtain ⟨more, hstrip, hmore⟩ := stripLineEnd_kept l.name_ne (h.other hnone)
      (columnsText l.columns (l.date.text ++ [ascii ' '])) []
    obtain rfl := hmore rfl
    refine ⟨[], ?_, ?_⟩
    · unfold line
      rw [stripLineEnd_append hend, hnone, hline]
      exact hstrip
    · rw [if_neg (by decide), List.append_nil]

/-- The letter of a link is no other's. -/
theorem flags_letter (type : UnixType) :
    entryTypeOf (false || type.letter = ascii 'd' || type.letter = ascii 'l')
        (false || type.letter = ascii '-' || type.letter = ascii 'l') = type.entryType
      ∧ isUnixFileType type.letter = true ∧ type.letter ≠ ascii '+' := by
  cases type with
  | link target => exact (by decide : entryTypeOf true true = .symlink ∧
      isUnixFileType (ascii 'l') = true ∧ ascii 'l' ≠ ascii '+')
  | _ => decide

/-- The first bytes of what the parser sees. -/
theorem columnsText_first (l : UnixListing) (rest : List UInt8) : ∃ c more,
    columnsText l.columns rest = l.type.letter :: c :: more ∧ c ≠ ascii ' ' ∧ c ≠ ascii '[' := by
  obtain ⟨c, text, htext⟩ := List.exists_cons_of_ne_nil l.permissions.ne_nil
  have hspace := l.permissions.noSpace
  have hbracket := l.unbracketed
  rw [htext] at hspace hbracket
  refine ⟨c, _, by simp [columns, columnsText, htext]; rfl, ?_, ?_⟩
  · rintro rfl
    exact hspace (List.mem_cons_self ..)
  · rintro rfl
    exact hbracket rfl

/-- **What is parsed of a listing.** -/
theorem parseUnix_columns (l : UnixListing) (h : l.Legible) {behind : List UInt8}
    (hname : (if l.type.letter = ascii 'l' then cutArrow (l.name ++ behind) else l.name ++ behind)
      = l.name) :
    ∃ fp, parseUnix t {} (columnsText l.columns (l.date.text ++ ascii ' ' :: (l.name ++ behind)))
        = some fp ∧ fp.name = some l.name ∧ fp.size = l.size.value
      ∧ entryTypeOf fp.flagtrycwd fp.flagtryretr = l.type.entryType := by
  obtain ⟨⟨mtimetype, mtime⟩, htime⟩ := parseUnixTimeOrYear_isSome (t := t)
    (length_le_text l.date h.year) l.month (getInt l.day.text)
  have hdate : unixToken t ⟨.haveDate, l.size.value, l.month, getInt l.day.text⟩ l.date.text
      = .date mtimetype mtime := by
    simp [unixToken, htime]
  have hne : l.date.text ≠ [] := fun hnone => by
    have hlen := length_le_text l.date h.year
    rw [hnone] at hlen
    exact absurd hlen (by decide)
  -- the columns up to the date are scanned one by one, and the loop ends at the name
  have hloop := unixLoop_columns l.columns_words (l.scanColumns_columns (t := t) h.size) hne
    l.date.noSpace hdate (l.name ++ behind) []
  obtain ⟨c, more, hbuf, hspace, hbracket⟩ :=
    l.columnsText_first (l.date.text ++ ascii ' ' :: (l.name ++ behind))
  have hletter : ascii ' ' ≠ l.type.letter :=
    fun h => (l.columns_words _ (List.mem_cons_self ..)).2 (h ▸ List.mem_cons_self ..)
  rw [hbuf] at hloop ⊢
  have hstart : unixLoop t (l.type.letter :: c :: more) (more.length + 1) 1 0 ⟨.skipPerm, 0, 0, 0⟩
      = some (l.size.value, mtimetype, mtime, l.name ++ behind) := by
    have hfirst := unixLoop_skip (t := t) (s := ⟨.skipPerm, 0, 0, 0⟩) (m := 1)
      (n := more.length + 1) (i := 0) (j := 0) (b := l.type.letter :: c :: more) fun k hk => .inl (by
        rw [Nat.lt_one_iff.1 hk]
        exact hletter.symm)
    rw [← hloop, ← hfirst, Nat.add_comm 1]
    rfl
  have hroom : toInt64 l.size.value = l.size.value := if_pos h.size
  unfold parseUnix
  rw [show (l.type.letter :: c :: more).length - 1 = more.length + 1 from rfl, hstart]
  refine ⟨_, rfl, ?_, hroom, (flags_letter l.type).1⟩
  dsimp only
  rw [if_neg fun hnetWare => hnetWare.1.elim hspace hbracket]
  exact congrArg some hname

/-- **A listing is understood**, whatever the time and whatever ends its line. The parser is given
the whole line with its end, as it comes from the server. `Legible` leaves out only what the text
of a line cannot tell, such as where a name ends that has an arrow in it, and a size or a year
that the parser's own forms do not take. -/
theorem understands (l : UnixListing) (h : l.Legible) (t : CurrentTime) {lineEnd : List UInt8}
    (hend : ∀ c ∈ lineEnd, isLineEnd c) : l.Understood t lineEnd := by
  obtain ⟨behind, hstrip, hcut⟩ := stripLineEnd_line h hend
  obtain ⟨fp, hparse, hname, hsize, htype⟩ := l.parseUnix_columns (t := t) h hcut
  obtain ⟨c, more, hbuf, -, -⟩ :=
    l.columnsText_first (l.date.text ++ ascii ' ' :: (l.name ++ behind))
  obtain ⟨-, hunix, hplus⟩ := flags_letter l.type
  have hline : ftpparse t {} (stripLineEnd (l.line ++ lineEnd)) = some fp := by
    rw [hstrip, ← hparse, hbuf]
    exact (if_neg (by simp)).trans ((if_neg hplus).trans (if_pos hunix))
  obtain ⟨b, name, hbytes⟩ := List.exists_cons_of_ne_nil l.name_ne
  unfold Understood ftpParseLine
  rw [hline]
  change fp.toFileEntry.map _ = _
  unfold FtpParsedEntry.toFileEntry
  rw [hname, hbytes]
  dsimp only [Option.map_some]
  rw [htype, hsize, Int.toNat_natCast]

/-- A directory of May, as the columns in front of its size would also have it. -/
def mayListing : UnixListing where
  type := .directory
  permissions := ⟨asciis "rwxr-xr-x", by decide +kernel, by decide +kernel⟩
  unbracketed := by decide +kernel
  links := ⟨asciis "12", by decide +kernel, by decide +kernel⟩
  owner := ⟨asciis "may", by decide +kernel, by decide +kernel⟩
  group := ⟨asciis "10", by decide +kernel, by decide +kernel⟩
  size := ⟨asciis "512", by decide +kernel, by decide +kernel⟩
  month := 4
  monthName := asciis "May"
  monthName_eq := by decide +kernel
  day := ⟨asciis "10", by decide +kernel, by decide +kernel⟩
  date := .time ⟨asciis "8", by decide +kernel, by decide +kernel⟩ ⟨asciis "30", by decide +kernel, by decide +kernel⟩ (by decide +kernel) rfl
  name := asciis "may 10 2020 disks"
  name_ne := by decide +kernel
  spaces := fun _ => 2

/-- That is understood. -/
theorem understands_may : mayListing.Understood ⟨1700000000, 2023⟩ (asciis "\r\n") :=
  understands mayListing
    { size := by decide +kernel
      year := fun _ h => ListingDate.noConfusion h
      link := fun _ h => UnixType.noConfusion h
      other := fun _ => by decide +kernel }
    ⟨1700000000, 2023⟩ (by decide +kernel)

/-- **A line may say less than the listing**: where the name of a link has an arrow in it,
where there is no room for the size, where the year has three digits, and where a name ends as
a line does. -/
theorem not_understood :
    (¬ { mayListing with type := .link (asciis "c"), name := asciis "a -> b", name_ne := by decide +kernel
      : UnixListing }.Understood ⟨1700000000, 2023⟩ []) ∧
    (¬ { mayListing with size := ⟨asciis "9223372036854775808", by decide +kernel, by decide +kernel⟩
      : UnixListing }.Understood ⟨1700000000, 2023⟩ []) ∧
    (¬ { mayListing with date := .year ⟨asciis "999", by decide +kernel, by decide +kernel⟩
      : UnixListing }.Understood ⟨1700000000, 2023⟩ []) ∧
    ¬ { mayListing with name := asciis "a\r", name_ne := by decide +kernel
      : UnixListing }.Understood ⟨1700000000, 2023⟩ [] := by
  decide +kernel

end UnixListing

end LinApple.Services
