import LinApple.Services.FtpParser
import Mathlib.Algebra.Group.Int.Defs

/-!
# The arithmetic of the listing parser

What the fields of a line say is computed with `int64_t`, and the fields are as large as the line
gives them. For each computation of the source the values it goes through are listed, in their
order, with no bounds; the source computes them if each one fits. Which fields they fit for is
said with the number of the day they name (`totaiSteps_fit_iff`), and from that for the lines of
each format.

A signed overflow has no meaning in the source's language, so it cannot be modelled by a value
that wraps. The functions therefore exist twice: as they are computed, over the integers, and as
the list of the intermediate values they go through, the operands of each operation with them.
That every value fits is what it means for the line to be parsed without an overflow, and on such
a line the two agree. The lists follow the source term by term, branches included, and a branch
that is not taken adds nothing to them.

The conditions are tight in both directions, which is why they are full of large numbers: each is
the last integer that can still be multiplied or added to. They are given for the fields of a
line, after they have been cut out and read, and not for its characters; a field of twenty digits
is no special case. Which of them apply depends on the format. A line of EPLF needs none. A
listing of Unix that leaves the year out has it guessed from the host's clock, and there the time
of the host has to be a time (`HostClock`) for anything to be said at all.

The size of a file is another matter. `getlong` watches the room it has as it goes, so its values
fit whatever the digits are.
-/

namespace LinApple.Services

/-- A value of an `int64_t`. -/
def FitsInt64 (x : Int) : Prop := -9223372036854775808 ≤ x ∧ x ≤ 9223372036854775807

instance (x : Int) : Decidable (FitsInt64 x) := inferInstanceAs (Decidable (_ ∧ _))

/-- **A computation does not overflow**: each of its values fits. The values are those of every
sum and product on the way, computed without a bound, so an overflow in the middle is seen
although the end may be small. -/
def NoOverflow (steps : List Int) : Prop := ∀ x ∈ steps, FitsInt64 x

instance (steps : List Int) : Decidable (NoOverflow steps) :=
  inferInstanceAs (Decidable (∀ x ∈ steps, FitsInt64 x))

@[simp] theorem noOverflow_nil : NoOverflow [] := fun _ h => nomatch h

@[simp] theorem noOverflow_cons {x : Int} {steps : List Int} :
    NoOverflow (x :: steps) ↔ FitsInt64 x ∧ NoOverflow steps :=
  List.forall_mem_cons

@[simp] theorem noOverflow_append {steps more : List Int} :
    NoOverflow (steps ++ more) ↔ NoOverflow steps ∧ NoOverflow more :=
  List.forall_mem_append

/-! ## Numbers -/

/-- The value of a character in a number. -/
def digitOf (c : UInt8) : Nat := ((c.toInt8.toInt - 48) % 2 ^ 64).toNat

/-- **The sums of `getlong`**, which are not bound to wrap. -/
def getlongSteps : Nat → List UInt8 → List Nat
  | _, [] => []
  | u, c :: token =>
    let rest := getlongSteps (getlongDigit u c) token
    if u ≤ (uint64Max - digitOf c) / 10 then (u * 10 + digitOf c) :: rest else rest

theorem digitOf_le (c : UInt8) : digitOf c ≤ uint64Max := by
  have hmax : uint64Max = 18446744073709551615 := by decide
  unfold digitOf
  omega

/-- **A sum is made only where it fits.** -/
theorem getlongSteps_le (token : List UInt8) : ∀ u, ∀ x ∈ getlongSteps u token, x ≤ uint64Max := by
  induction token with
  | nil => exact fun _ _ hx => nomatch hx
  | cons c token ih =>
    intro u x hx
    have hdigit := digitOf_le c
    unfold getlongSteps at hx
    dsimp only at hx
    split at hx
    · rcases List.mem_cons.1 hx with rfl | hx
      · omega
      · exact ih _ x hx
    · exact ih _ x hx

theorem getlongDigit_le (u : Nat) (c : UInt8) : getlongDigit u c ≤ uint64Max := by
  have hdigit := digitOf_le c
  unfold getlongDigit
  unfold digitOf at hdigit
  dsimp only
  split <;> omega

/-- **A number does not overflow while it is read.** -/
theorem getlong_le (token : List UInt8) : getlong token ≤ uint64Max := by
  suffices h : ∀ u ≤ uint64Max, token.foldl getlongDigit u ≤ uint64Max from h 0 (Nat.zero_le _)
  induction token with
  | nil => exact fun u hu => hu
  | cons c token ih => exact fun u _ => ih _ (getlongDigit_le u c)

theorem fits_getInt (token : List UInt8) : FitsInt64 (getInt token) := by
  have hle := getlong_le token
  have hmax : uint64Max = 18446744073709551615 := by decide
  rw [hmax] at hle
  unfold getInt toInt64 FitsInt64
  split <;> omega

/-! ## Days -/

/-- The months are counted from March on. -/
def marchMonth (month : Int) : Int := if 2 ≤ month then month - 2 else month + 10

/-- January and February are in the year before. -/
def marchYear (year month : Int) : Int := if 2 ≤ month then year else year - 1

/-- Ten times the day of the year. -/
def tenths (month mday : Int) : Int := (mday - 1) * 10 + 5 + 306 * marchMonth month

/-- **The number of a day**, from the first of January 1970 on. The day behind the last of a year
is counted in the last year of a cycle of four, and the one behind the last of a century in the
last of four. -/
def dayNumber (year month mday : Int) : Int :=
  let y := marchYear year month
  let day := (tenths month mday).tdiv 10
  let cycle := (if day = 365 then y - 3 else y).tdiv 4
  let day := if day = 365 then 1460 else day + 365 * y.tmod 4
  let century := cycle.tdiv 25
  if day + 1461 * cycle.tmod 25 = 36524 then 146096 + 146097 * (century - 3).tdiv 4 - 719468
  else day + 1461 * cycle - century + century.tdiv 4 - 719468

/-- **The values of `totai`**, of which the last is returned. -/
def totaiSteps (year month mday : Int) : List Int :=
  let year := marchYear year month
  let result := (tenths month mday).tdiv 10
  let year₁ := if result = 365 then year - 3 else year
  let result₁ := if result = 365 then 1460 else result + 365 * year.tmod 4
  let year₂ := year₁.tdiv 4
  let result₂ := result₁ + 1461 * year₂.tmod 25
  let year₃ := year₂.tdiv 25
  let year₄ := if result₂ = 36524 then year₃ - 3 else year₃
  let result₃ := if result₂ = 36524 then 146096 else result₂ + 36524 * year₃.tmod 4
  let year₅ := year₄.tdiv 4
  let result₄ := result₃ + 146097 * (year₅ - 5)
  [marchMonth month, year, mday - 1, (mday - 1) * 10, (mday - 1) * 10 + 5,
    306 * marchMonth month, tenths month mday, year₁, 365 * year.tmod 4, result₁,
    1461 * year₂.tmod 25, result₂, year₄, 36524 * year₃.tmod 4, result₃, year₅ - 5,
    146097 * (year₅ - 5), result₄, result₄ + 11017, (result₄ + 11017) * 86400]

/-- What a truncated quotient and its remainder are. -/
theorem tdiv_spec (a b : Int) (hb : 0 < b) :
    b * a.tdiv b + a.tmod b = a ∧ -b < a.tmod b ∧ a.tmod b < b :=
  ⟨Int.mul_tdiv_add_tmod a b, Int.lt_tmod_of_pos a hb, Int.tmod_lt_of_pos a hb⟩

/-- **The last value is the one that is returned.** -/
theorem getLast_totaiSteps (year month mday : Int) :
    (totaiSteps year month mday).getLast? = some (totai year month mday) := by
  have hmarch : (if 2 ≤ month then (year, month - 2) else (year - 1, month + 10))
      = (marchYear year month, marchMonth month) := by
    unfold marchYear marchMonth
    split <;> rfl
  unfold totai totaiSteps
  rw [hmarch]
  dsimp only
  rw [show (mday - 1) * 10 + 5 + 306 * marchMonth month = tenths month mday from rfl]
  generalize (tenths month mday).tdiv 10 = result
  generalize marchYear year month = y
  by_cases hday : result = 365
  · simp only [if_pos hday]
    split <;> rfl
  · simp only [if_neg hday]
    split <;> rfl

/-- The days of the cycles of four years, of centuries and of 400 years make the number of the
day. -/
theorem cycles_eq (day cycle : Int) :
    (if day + 1461 * cycle.tmod 25 = 36524 then 146096
        else day + 1461 * cycle.tmod 25 + 36524 * (cycle.tdiv 25).tmod 4)
      + 146097 * ((if day + 1461 * cycle.tmod 25 = 36524 then cycle.tdiv 25 - 3
          else cycle.tdiv 25).tdiv 4 - 5) + 11017
      = if day + 1461 * cycle.tmod 25 = 36524 then
          146096 + 146097 * (cycle.tdiv 25 - 3).tdiv 4 - 719468
        else day + 1461 * cycle - cycle.tdiv 25 + (cycle.tdiv 25).tdiv 4 - 719468 := by
  obtain ⟨hcentury, -, -⟩ := tdiv_spec cycle 25 (by decide)
  obtain ⟨hcenturies, -, -⟩ := tdiv_spec (cycle.tdiv 25) 4 (by decide)
  by_cases hday : day + 1461 * cycle.tmod 25 = 36524
  · simp only [if_pos hday]
    omega
  · simp only [if_neg hday]
    omega

/-- **What is returned is the number of the day in seconds.** -/
theorem totai_eq_dayNumber (year month mday : Int) :
    totai year month mday = dayNumber year month mday * 86400 := by
  have hlast := getLast_totaiSteps year month mday
  unfold totaiSteps at hlast
  dsimp only at hlast
  rw [cycles_eq] at hlast
  exact (Option.some.inj hlast).symm

/-- A date whose time is an `int64_t`, with all that is computed for it. -/
structure DateFits (year month mday : Int) : Prop where
  /-- The day can be multiplied by ten. -/
  ofDay : -922337203685477579 ≤ mday ∧ mday ≤ 922337203685477581
  /-- The month can be multiplied by 306. -/
  ofMonth : -30141738682531947 ≤ marchMonth month ∧ marchMonth month ≤ 30141738682531947
  /-- The sum fits. -/
  ofSum : FitsInt64 (tenths month mday)
  /-- The number of the day can be multiplied by the seconds of a day. -/
  ofNumber : -106751991167300 ≤ dayNumber year month mday
    ∧ dayNumber year month mday ≤ 106751991167300

/-- The values behind the day of the year fit where the number of the day does. -/
theorem cycles_fit (y : Int) {result : Int} (hresult : -922337203685477581 ≤ result
    ∧ result ≤ 922337203685477581) {year₁ result₁ year₂ result₂ year₃ year₄ result₃ year₅ : Int}
    (hyear₁ : year₁ = if result = 365 then y - 3 else y)
    (hresult₁ : result₁ = if result = 365 then 1460 else result + 365 * y.tmod 4)
    (hyear₂ : year₂ = year₁.tdiv 4) (hresult₂ : result₂ = result₁ + 1461 * year₂.tmod 25)
    (hyear₃ : year₃ = year₂.tdiv 25)
    (hyear₄ : year₄ = if result₂ = 36524 then year₃ - 3 else year₃)
    (hresult₃ : result₃ = if result₂ = 36524 then 146096 else result₂ + 36524 * year₃.tmod 4)
    (hyear₅ : year₅ = year₄.tdiv 4)
    (hnumber : -106751991167300 ≤ result₃ + 146097 * (year₅ - 5) + 11017
      ∧ result₃ + 146097 * (year₅ - 5) + 11017 ≤ 106751991167300) :
    NoOverflow [y, year₁, 365 * y.tmod 4, result₁, 1461 * year₂.tmod 25, result₂, year₄,
      36524 * year₃.tmod 4, result₃, year₅ - 5, 146097 * (year₅ - 5),
      result₃ + 146097 * (year₅ - 5), result₃ + 146097 * (year₅ - 5) + 11017,
      (result₃ + 146097 * (year₅ - 5) + 11017) * 86400] := by
  obtain ⟨-, hlow, hhigh⟩ := tdiv_spec y 4 (by decide)
  obtain ⟨h₁, hlow₁, hhigh₁⟩ := tdiv_spec year₁ 4 (by decide)
  obtain ⟨h₂, hlow₂, hhigh₂⟩ := tdiv_spec year₂ 25 (by decide)
  obtain ⟨-, hlow₃, hhigh₃⟩ := tdiv_spec year₃ 4 (by decide)
  obtain ⟨h₄, hlow₄, hhigh₄⟩ := tdiv_spec year₄ 4 (by decide)
  rw [← hyear₂] at h₁
  rw [← hyear₃] at h₂
  rw [← hyear₅] at h₄
  generalize y.tmod 4 = mod at *
  generalize year₁.tmod 4 = mod₁ at *
  generalize year₂.tmod 25 = mod₂ at *
  generalize year₃.tmod 4 = mod₃ at *
  generalize year₄.tmod 4 = mod₄ at *
  -- the days behind the cycles of 400 years are few, so that the year has a bound
  have hday₁ : -922337203685479700 ≤ result₁ ∧ result₁ ≤ 922337203685479700 := by
    rw [hresult₁]
    split <;> omega
  have hday₃ : -922337203685700000 ≤ result₃ ∧ result₃ ≤ 922337203685700000 := by
    rw [hresult₃]
    split <;> omega
  have hcentury : -30000000000000 ≤ year₃ ∧ year₃ ≤ 30000000000000 := by
    rw [hyear₄] at h₄
    split at h₄ <;> omega
  have hy : -3000000000000100 ≤ y ∧ y ≤ 3000000000000100 := by
    rw [hyear₁] at h₁
    split at h₁ <;> omega
  have hyear₄' : -30000000000003 ≤ year₄ ∧ year₄ ≤ 30000000000003 := by
    rw [hyear₄]
    split <;> omega
  have hyear₁' : -3000000000000103 ≤ year₁ ∧ year₁ ≤ 3000000000000103 := by
    rw [hyear₁]
    split <;> omega
  simp only [noOverflow_cons, noOverflow_nil, and_true, FitsInt64]
  omega

/-- **`totai` does not overflow** just where the date fits. -/
theorem totaiSteps_fit_iff (year : Int) {month : Int} (mday : Int) (hmonth : FitsInt64 month) :
    NoOverflow (totaiSteps year month mday) ↔ DateFits year month mday := by
  obtain ⟨hten, hlow, hhigh⟩ := tdiv_spec (tenths month mday) 10 (by decide)
  have hmarch : FitsInt64 (marchMonth month) := by
    unfold FitsInt64 marchMonth at *
    split <;> omega
  have hsum : tenths month mday = (mday - 1) * 10 + 5 + 306 * marchMonth month := rfl
  have hnumber := cycles_eq (if (tenths month mday).tdiv 10 = 365 then 1460
    else (tenths month mday).tdiv 10 + 365 * (marchYear year month).tmod 4)
    ((if (tenths month mday).tdiv 10 = 365 then marchYear year month - 3
      else marchYear year month).tdiv 4)
  constructor
  · intro h
    simp only [totaiSteps, noOverflow_cons, noOverflow_nil, and_true] at h
    obtain ⟨-, -, -, hday, -, hmonths, hten, -, -, -, -, -, -, -, -, -, -, -, -, hlast⟩ := h
    rw [hnumber] at hlast
    change FitsInt64 (dayNumber year month mday * 86400) at hlast
    unfold FitsInt64 at hday hmonths hlast
    exact ⟨by omega, by omega, hten, by omega⟩
  · rintro ⟨hday, hmonths, hfits, hbound⟩
    have hresult : -922337203685477581 ≤ (tenths month mday).tdiv 10
        ∧ (tenths month mday).tdiv 10 ≤ 922337203685477581 := by
      unfold FitsInt64 at hfits
      omega
    have hcycles := cycles_fit (marchYear year month) hresult rfl rfl rfl rfl rfl rfl rfl rfl
      (by rw [hnumber]; exact hbound)
    simp only [noOverflow_cons, noOverflow_nil, and_true] at hcycles
    simp only [totaiSteps, noOverflow_cons, noOverflow_nil, and_true]
    unfold FitsInt64 at hfits
    exact ⟨hmarch, hcycles.1, by unfold FitsInt64; omega, by unfold FitsInt64; omega,
      by unfold FitsInt64; omega, by unfold FitsInt64; omega, hfits, hcycles.2⟩

/-! ## Times -/

/-- The values of `get_time_base`, for a day with no time of day. -/
def timeBaseSteps : List Int :=
  totaiSteps 1970 0 1 ++ [0 * 3600, totai 1970 0 1 + 0 * 3600, 0 * 60,
    totai 1970 0 1 + 0 * 3600 + 0 * 60, totai 1970 0 1 + 0 * 3600 + 0 * 60 + 0, timeBase]

/-- The times start with the epoch of the host. -/
theorem timeBase_eq : timeBase = 0 := by decide

theorem noOverflow_timeBaseSteps : NoOverflow timeBaseSteps := by decide

/-- The values of a time of a day. -/
def timeSteps (day hour minute : Int) : List Int :=
  [timeBase + day, hour * 3600, timeBase + day + hour * 3600, minute * 60,
    timeBase + day + hour * 3600 + minute * 60]

/-- What the fields of a date and a time are read as. -/
structure DateFields where
  year : Int
  /-- From 0 on. -/
  month : Int
  mday : Int
  hour : Int
  minute : Int
deriving DecidableEq, Repr

namespace DateFields

variable (f : DateFields)

/-- The time of the fields. -/
def time : Int :=
  timeBase + totai f.year f.month f.mday + f.hour * 3600 + f.minute * 60

/-- The values of the time of the fields. -/
def steps : List Int :=
  totaiSteps f.year f.month f.mday ++ timeSteps (totai f.year f.month f.mday) f.hour f.minute

/-- **The time of the fields is an `int64_t`**, with all that is computed for it. -/
structure Fit : Prop where
  /-- The date is one. -/
  ofDate : DateFits f.year f.month f.mday
  /-- The hour can be multiplied by its seconds. -/
  ofHour : -2562047788015215 ≤ f.hour ∧ f.hour ≤ 2562047788015215
  /-- The minute, too. -/
  ofMinute : -153722867280912930 ≤ f.minute ∧ f.minute ≤ 153722867280912930
  /-- The sums fit. -/
  ofSums : FitsInt64 (dayNumber f.year f.month f.mday * 86400 + f.hour * 3600)
    ∧ FitsInt64 (dayNumber f.year f.month f.mday * 86400 + f.hour * 3600 + f.minute * 60)

theorem timeSteps_fit_iff (day : Int) : NoOverflow (timeSteps day f.hour f.minute)
    ↔ FitsInt64 day ∧ (-2562047788015215 ≤ f.hour ∧ f.hour ≤ 2562047788015215)
      ∧ (-153722867280912930 ≤ f.minute ∧ f.minute ≤ 153722867280912930)
      ∧ FitsInt64 (day + f.hour * 3600) ∧ FitsInt64 (day + f.hour * 3600 + f.minute * 60) := by
  simp only [timeSteps, timeBase_eq, Int.zero_add, noOverflow_cons, noOverflow_nil, and_true]
  unfold FitsInt64
  omega

/-- **The time of fields does not overflow** just where they fit. -/
theorem noOverflow_steps_iff (hmonth : FitsInt64 f.month) : NoOverflow f.steps ↔ f.Fit := by
  rw [steps, noOverflow_append, totaiSteps_fit_iff _ _ hmonth, timeSteps_fit_iff,
    totai_eq_dayNumber]
  constructor
  · rintro ⟨hdate, -, hhour, hminute, hsums⟩
    exact ⟨hdate, hhour, hminute, hsums⟩
  · rintro ⟨hdate, hhour, hminute, hsums⟩
    have hnumber := hdate.ofNumber
    exact ⟨hdate, by unfold FitsInt64; omega, hhour, hminute, hsums⟩

end DateFields

/-! ## VMS and MS-DOS -/

theorem getmonth_lt {token : List UInt8} {month : Nat} (h : getmonth token = some month) :
    month < 12 := by
  unfold getmonth at h
  split at h
  · exact (List.findIdx?_eq_some_iff_getElem.1 h).1
  · cases h

/-- The fields of `parse_vms`. -/
def vmsFields (buf : List UInt8) (semicolon : Nat) : Option DateFields := do
  let i ← skipUntil buf (ascii ' ') semicolon
  let i ← skipMatching buf (ascii ' ') i
  let i ← skipUntil buf (ascii ' ') i
  let i ← skipMatching buf (ascii ' ') i
  let (mday, i) ← fieldUntil buf (ascii '-') i
  let (month, i) ← fieldUntil buf (ascii '-') i
  let month ← getmonth month
  let (year, i) ← fieldUntil buf (ascii ' ') i
  let (hour, i) ← fieldUntil buf (ascii ':') i
  let j := i + ((buf.drop i).takeWhile fun c => c ≠ ascii ':' ∧ c ≠ ascii ' ').length
  if j = buf.length then none
  else return ⟨getInt year, month, getInt mday, getInt hour, getInt (slice buf i j)⟩

/-- The time of an entry is that of its fields. -/
theorem parseVmsTime_eq (buf : List UInt8) (semicolon : Nat) :
    parseVmsTime buf semicolon = (vmsFields buf semicolon).map DateFields.time := by
  unfold parseVmsTime vmsFields
  simp only [Option.bind_eq_bind, Option.map_bind, Function.comp_def,
    apply_ite (Option.map DateFields.time)]
  rfl

/-- The values of `parse_vms`, which are those of its time. -/
def vmsSteps (buf : List UInt8) : List Int :=
  match (skipUntil buf (ascii ';') 0).bind (vmsFields buf) with
  | none => []
  | some f => timeBaseSteps ++ f.steps

/-- What `parse_dos` reads up to the minute, and where it goes on. -/
structure DosFields where
  mday : Int
  year : Int
  hour : Int
  minute : Int
  isPm : Bool
  behind : Nat
deriving DecidableEq, Repr

/-- The field of the month, with the place behind it. -/
def dosMonth (buf : List UInt8) : Option (Int × Nat) := do
  let j ← skipUntil buf (ascii '-') 0
  return (getInt (slice buf 0 j), j)

/-- The field of the year, with the place behind it and the day. -/
def dosYearField (buf : List UInt8) : Option (Int × Int × Nat) := do
  let (_, j) ← dosMonth buf
  let i ← skipMatching buf (ascii '-') j
  let (mday, i) ← fieldUntil buf (ascii '-') i
  let j ← skipUntil buf (ascii ' ') i
  return (getInt mday, getInt (slice buf i j), j)

/-- The fields up to the minute. -/
def dosFields (buf : List UInt8) : Option DosFields := do
  let (mday, year, j) ← dosYearField buf
  let i ← skipMatching buf (ascii ' ') j
  let (hour, i) ← fieldUntil buf (ascii ':') i
  let j := i + ((buf.drop i).takeWhile fun c => c ≠ ascii 'A' ∧ c ≠ ascii 'P').length
  if j = buf.length then none
  else return ⟨mday, year, if getInt hour = 12 then 0 else getInt hour, getInt (slice buf i j),
    byteAt buf j = ascii 'P', j⟩

/-- Where the size or the directory mark of an entry is, and its name. -/
def dosName (buf : List UInt8) (j : Nat) : Option (Nat × Nat × Nat) := do
  let j := j + 1
  if j = buf.length then none
  let j := if byteAt buf j = ascii 'M' then j + 1 else j
  if j = buf.length then none
  let start ← skipMatching buf (ascii ' ') j
  let j ← skipUntil buf (ascii ' ') start
  let name ← skipMatching buf (ascii ' ') j
  return (start, j, name)

/-- The fields of a date and a time in a line of the format. -/
def dosDate (buf : List UInt8) : Option DateFields := do
  let (month, _) ← dosMonth buf
  let f ← dosFields buf
  let _ ← dosName buf f.behind
  return ⟨dosYear f.year, month - 1, f.mday, f.hour + if f.isPm then 12 else 0, f.minute⟩

/-- The time of an entry is that of its fields. -/
theorem parseDos_mtime (fp : FtpParsedEntry) (buf : List UInt8) :
    (parseDos fp buf).map (·.mtime) = (dosDate buf).map DateFields.time := by
  unfold parseDos dosDate dosFields dosYearField dosMonth dosName fieldUntil
  dsimp only [Option.bind_eq_bind, Option.pure_def]
  -- both sides walk the line alike, and fail at the same step
  rcases skipUntil buf (ascii '-') 0 with _ | j
  · rfl
  dsimp only [Option.bind_some]
  rcases skipMatching buf (ascii '-') j with _ | i
  · rfl
  dsimp only [Option.bind_some]
  rcases skipUntil buf (ascii '-') i with _ | j
  · rfl
  dsimp only [Option.bind_some]
  rcases skipMatching buf (ascii '-') j with _ | k
  · rfl
  dsimp only [Option.bind_some]
  rcases skipUntil buf (ascii ' ') k with _ | j
  · rfl
  dsimp only [Option.bind_some]
  rcases skipMatching buf (ascii ' ') j with _ | k
  · rfl
  dsimp only [Option.bind_some]
  rcases skipUntil buf (ascii ':') k with _ | j
  · rfl
  dsimp only [Option.bind_some]
  rcases skipMatching buf (ascii ':') j with _ | k
  · rfl
  dsimp only [Option.bind_some]
  generalize k + ((buf.drop k).takeWhile fun c => c ≠ ascii 'A' ∧ c ≠ ascii 'P').length = behind
  by_cases hbehind : behind = buf.length
  · rw [if_pos hbehind, if_pos hbehind]
    rfl
  rw [if_neg hbehind, if_neg hbehind, Option.bind_some]
  dsimp only
  by_cases hlast : behind + 1 = buf.length
  · rw [if_pos hlast, if_pos hlast]
    rfl
  rw [if_neg hlast, if_neg hlast]
  generalize (if byteAt buf (behind + 1) = ascii 'M' then behind + 1 + 1 else behind + 1) = next
  by_cases hnext : next = buf.length
  · rw [if_pos hnext, if_pos hnext]
    rfl
  rw [if_neg hnext, if_neg hnext]
  rcases skipMatching buf (ascii ' ') next with _ | start
  · rfl
  dsimp only [Option.bind_some]
  rcases skipUntil buf (ascii ' ') start with _ | j
  · rfl
  dsimp only [Option.bind_some]
  rcases skipMatching buf (ascii ' ') j with _ | name
  · rfl
  simp only [Option.map_some, Option.bind_some, decide_eq_true_eq]
  rfl

/-- The values of a year of two digits or three. -/
def dosYearSteps (year : Int) : List Int :=
  if year < 50 then [year + 2000] else if year < 1000 then [year + 1900] else []

/-- **The values of `parse_dos`**, of which the first are computed of a line that turns out to be
none of the format, too. -/
def dosSteps (buf : List UInt8) : List Int :=
  (dosMonth buf).elim [] (fun month => [month.1 - 1])
    ++ (dosYearField buf).elim [] (fun year => dosYearSteps year.2.1)
    ++ (dosFields buf).elim [] (fun f => if f.isPm then [f.hour + 12] else [])
    ++ (dosDate buf).elim [] (fun f => timeBaseSteps ++ f.steps)

theorem noOverflow_elim {α : Type} (o : Option α) (steps : α → List Int) :
    NoOverflow (o.elim [] steps) ↔ ∀ x ∈ o, NoOverflow (steps x) := by
  cases o with
  | none => exact iff_of_true noOverflow_nil fun _ hx => nomatch hx
  | some y => exact ⟨fun h x hx => Option.some.inj hx ▸ h, fun h => h y rfl⟩

/-- A field that is read is an `int64_t`. -/
theorem fits_dosMonth {buf : List UInt8} {month : Int × Nat} (h : month ∈ dosMonth buf) :
    FitsInt64 month.1 := by
  obtain ⟨j, -, hmonth⟩ := Option.bind_eq_some_iff.1 h
  obtain rfl := Option.some.inj hmonth
  exact fits_getInt _

theorem fits_dosYearField {buf : List UInt8} {year : Int × Int × Nat}
    (h : year ∈ dosYearField buf) : FitsInt64 year.2.1 := by
  obtain ⟨m, -, h⟩ := Option.bind_eq_some_iff.1 h
  obtain ⟨i, -, h⟩ := Option.bind_eq_some_iff.1 h
  obtain ⟨d, -, h⟩ := Option.bind_eq_some_iff.1 h
  obtain ⟨j, -, h⟩ := Option.bind_eq_some_iff.1 h
  obtain rfl := Option.some.inj h
  exact fits_getInt _

theorem fits_dosHour {buf : List UInt8} {f : DosFields} (h : f ∈ dosFields buf) :
    FitsInt64 f.hour := by
  obtain ⟨y, -, h⟩ := Option.bind_eq_some_iff.1 h
  obtain ⟨i, -, h⟩ := Option.bind_eq_some_iff.1 h
  obtain ⟨hour, -, h⟩ := Option.bind_eq_some_iff.1 h
  dsimp only at h
  split at h
  · cases h
  obtain rfl := Option.some.inj h
  dsimp only
  split
  · decide
  · exact fits_getInt _

/-- The month of the date is the one before the field. -/
theorem month_of_dosDate {buf : List UInt8} {f : DateFields} (h : f ∈ dosDate buf) :
    ∃ month ∈ dosMonth buf, f.month = month.1 - 1 := by
  obtain ⟨m, hm, h⟩ := Option.bind_eq_some_iff.1 h
  obtain ⟨d, -, h⟩ := Option.bind_eq_some_iff.1 h
  obtain ⟨name, -, h⟩ := Option.bind_eq_some_iff.1 h
  obtain rfl := Option.some.inj h
  exact ⟨m, hm, rfl⟩

/-- **A line of the format whose fields fit.** -/
structure DosFits (buf : List UInt8) : Prop where
  /-- There is a month before the field. -/
  ofMonth : ∀ month ∈ dosMonth buf, month.1 ≠ -9223372036854775808
  /-- Twelve hours can be added. -/
  ofHour : ∀ f ∈ dosFields buf, f.isPm → f.hour ≤ 9223372036854775795
  /-- The date and the time fit. -/
  ofDate : ∀ f ∈ dosDate buf, f.Fit

theorem noOverflow_dosSteps_iff (buf : List UInt8) : NoOverflow (dosSteps buf) ↔ DosFits buf := by
  unfold dosSteps
  rw [noOverflow_append, noOverflow_append, noOverflow_append, noOverflow_elim, noOverflow_elim,
    noOverflow_elim, noOverflow_elim]
  -- the steps in the order the parser takes them: month, year, hour, and then the reckoning of the
  -- date, which is reached only with a month that fits
  have hmonth : ∀ month ∈ dosMonth buf,
      (NoOverflow [month.1 - 1] ↔ month.1 ≠ -9223372036854775808) := fun month hm => by
    have hfits := fits_dosMonth hm
    unfold FitsInt64 at hfits
    simp only [noOverflow_cons, noOverflow_nil, and_true, FitsInt64]
    omega
  have hyear : ∀ year ∈ dosYearField buf, NoOverflow (dosYearSteps year.2.1) := fun year hy => by
    have hfits := fits_dosYearField hy
    unfold FitsInt64 at hfits
    unfold dosYearSteps
    split
    · simp only [noOverflow_cons, noOverflow_nil, and_true, FitsInt64]
      omega
    split
    · simp only [noOverflow_cons, noOverflow_nil, and_true, FitsInt64]
      omega
    · exact noOverflow_nil
  have hhour : ∀ f ∈ dosFields buf, (NoOverflow (if f.isPm then [f.hour + 12] else [])
      ↔ (f.isPm → f.hour ≤ 9223372036854775795)) := fun f hf => by
    have hfits := fits_dosHour hf
    unfold FitsInt64 at hfits
    split
    · rename_i hpm
      simp only [noOverflow_cons, noOverflow_nil, and_true, FitsInt64, hpm, forall_const]
      omega
    · rename_i hpm
      exact iff_of_true noOverflow_nil fun h => absurd h hpm
  have hdate : ∀ f ∈ dosDate buf, FitsInt64 f.month →
      (NoOverflow (timeBaseSteps ++ f.steps) ↔ f.Fit) := fun f _ hfits => by
    rw [noOverflow_append, f.noOverflow_steps_iff hfits]
    exact and_iff_right noOverflow_timeBaseSteps
  have hbefore : (∀ month ∈ dosMonth buf, month.1 ≠ -9223372036854775808) →
      ∀ f ∈ dosDate buf, FitsInt64 f.month := fun h f hf => by
    obtain ⟨month, hm, heq⟩ := month_of_dosDate hf
    have hfits := fits_dosMonth hm
    have hne := h month hm
    unfold FitsInt64 at hfits ⊢
    omega
  constructor
  · rintro ⟨⟨⟨hm, -⟩, hh⟩, hd⟩
    have hm' := fun month h => (hmonth month h).1 (hm month h)
    exact ⟨hm', fun f hf => (hhour f hf).1 (hh f hf),
      fun f hf => (hdate f hf (hbefore hm' f hf)).1 (hd f hf)⟩
  · rintro ⟨hm, hh, hd⟩
    exact ⟨⟨⟨fun month h => (hmonth month h).2 (hm month h), hyear⟩,
      fun f hf => (hhour f hf).2 (hh f hf)⟩,
      fun f hf => (hdate f hf (hbefore hm f hf)).2 (hd f hf)⟩

/-- The month of a line of VMS is one of twelve. -/
theorem month_of_vmsFields {buf : List UInt8} {semicolon : Nat} {f : DateFields}
    (h : f ∈ vmsFields buf semicolon) : FitsInt64 f.month := by
  unfold vmsFields at h
  obtain ⟨i₁, -, h⟩ := Option.bind_eq_some_iff.1 h
  obtain ⟨i₂, -, h⟩ := Option.bind_eq_some_iff.1 h
  obtain ⟨i₃, -, h⟩ := Option.bind_eq_some_iff.1 h
  obtain ⟨i₄, -, h⟩ := Option.bind_eq_some_iff.1 h
  obtain ⟨mday, -, h⟩ := Option.bind_eq_some_iff.1 h
  obtain ⟨text, -, h⟩ := Option.bind_eq_some_iff.1 h
  obtain ⟨month, hmonth, h⟩ := Option.bind_eq_some_iff.1 h
  obtain ⟨year, -, h⟩ := Option.bind_eq_some_iff.1 h
  obtain ⟨hour, -, h⟩ := Option.bind_eq_some_iff.1 h
  dsimp only at h
  split at h
  · cases h
  obtain rfl := Option.some.inj h
  have hlt := getmonth_lt hmonth
  show FitsInt64 (month : Int)
  unfold FitsInt64
  omega

/-! ## EPLF -/

/-- The values of `parse_eplf_fact`. -/
def eplfFactSteps (factType : UInt8) (val : List UInt8) : List Int :=
  if factType = ascii 'm' then [timeBase + getInt val] else []

/-- The values of the loop of `parse_eplf`. -/
def eplfLoopSteps (buf : List UInt8) : Nat → Nat → Nat → List Int
  | 0, _, _ => []
  | n + 1, j, i =>
    if byteAt buf j ≠ ascii '\t' ∧ byteAt buf j ≠ ascii ',' then eplfLoopSteps buf n (j + 1) i
    else
      (if i < j then eplfFactSteps (byteAt buf i) (slice buf (i + 1) j) else [])
        ++ if byteAt buf j = ascii '\t' then [] else eplfLoopSteps buf n (j + 1) (j + 1)

/-- The values of `parse_eplf`. -/
def eplfSteps (buf : List UInt8) : List Int :=
  timeBaseSteps ++ eplfLoopSteps buf (buf.length - 1) 1 1

theorem noOverflow_eplfFactSteps (factType : UInt8) (val : List UInt8) :
    NoOverflow (eplfFactSteps factType val) := by
  unfold eplfFactSteps
  split
  · rw [timeBase_eq, Int.zero_add, noOverflow_cons]
    exact ⟨fits_getInt val, noOverflow_nil⟩
  · exact noOverflow_nil

/-- **A line of EPLF does not overflow.** -/
theorem noOverflow_eplfSteps (buf : List UInt8) : NoOverflow (eplfSteps buf) := by
  have hloop : ∀ n j i, NoOverflow (eplfLoopSteps buf n j i) := fun n => by
    induction n with
    | zero => exact fun _ _ => noOverflow_nil
    | succ n ih =>
      intro j i
      rw [eplfLoopSteps]
      split
      · exact ih _ _
      · refine noOverflow_append.2 ⟨?_, ?_⟩
        · split
          · exact noOverflow_eplfFactSteps _ _
          · exact noOverflow_nil
        · split
          · exact noOverflow_nil
          · exact ih _ _
  exact noOverflow_append.2 ⟨noOverflow_timeBaseSteps, hloop _ _ _⟩

/-! ## The year that is guessed -/

/-- **The clock of a host** that has not stopped before 1970: the year is an `int`, and the
seconds are those of such a year. -/
structure HostClock (now : CurrentTime) : Prop where
  /-- The time is behind the epoch. -/
  ofSeconds : 0 ≤ now.nowSeconds ∧ now.nowSeconds ≤ 2 ^ 57
  /-- So is the year. -/
  ofYear : 1970 ≤ now.currentYear ∧ now.currentYear ≤ 2147483647

section Guess

variable (month mday : Int) (now : CurrentTime)

/-- The values of the loop of `guesstai`, for so many years. -/
def guesstaiSteps : Nat → Int → List Int
  | 0, _ => []
  | n + 1, year =>
    let t := totai year month mday
    let rest :=
      if now.nowSeconds - t < 350 * 86400 then [] else (year + 1) :: guesstaiSteps n (year + 1)
    totaiSteps year month mday ++ (now.nowSeconds - t) :: rest

/-- The first year of the loop. -/
def firstTime : Int := dayNumber (now.currentYear - 1) month mday * 86400

/-- The day of the month fits, and its time in the first year. -/
structure GuessFits : Prop where
  /-- The date is one in the year before. -/
  ofDate : DateFits (now.currentYear - 1) month mday
  /-- How long it is ago fits. -/
  ofAgo : now.nowSeconds - firstTime month mday now ≤ 9223372036854775807

/-- A day of the year that comes to a value of its own kind. -/
def IsShort (month mday : Int) : Prop :=
  365 ≤ (tenths month mday).tdiv 10 ∧ (tenths month mday).tdiv 10 ≤ 36524

instance (month mday : Int) : Decidable (IsShort month mday) :=
  inferInstanceAs (Decidable (_ ∧ _))

variable {month mday now}

/-- The day of the year of a short day is near the year. -/
theorem dayNumber_of_isShort (h : IsShort month mday) (year : Int)
    (hyear : 4 ≤ year ∧ year ≤ 2147483747) :
    -1000000 ≤ dayNumber year month mday ∧ dayNumber year month mday ≤ 1000000000000 := by
  have hmarch : 3 ≤ marchYear year month ∧ marchYear year month ≤ 2147483747 := by
    unfold marchYear
    split <;> omega
  obtain ⟨hlow, hhigh⟩ := h
  unfold dayNumber
  dsimp only
  generalize marchYear year month = y at *
  generalize (tenths month mday).tdiv 10 = day at *
  have hcycle : ∃ cycle, (if day = 365 then y - 3 else y).tdiv 4 = cycle ∧ 0 ≤ cycle
      ∧ cycle ≤ 536870937 := by
    refine ⟨_, rfl, ?_⟩
    split <;> rw [Int.tdiv_eq_ediv_of_nonneg (by omega)] <;> omega
  obtain ⟨cycle, hcycle, hcycle0, hcycle1⟩ := hcycle
  have hday : ∃ d, (if day = 365 then 1460 else day + 365 * y.tmod 4) = d ∧ 0 ≤ d
      ∧ d ≤ 40000 := by
    refine ⟨_, rfl, ?_⟩
    rw [Int.tmod_eq_emod_of_nonneg (by omega)]
    split <;> omega
  obtain ⟨d, hd, hd0, hd1⟩ := hday
  rw [hcycle, hd, Int.tdiv_eq_ediv_of_nonneg hcycle0, Int.tmod_eq_emod_of_nonneg hcycle0]
  obtain ⟨hcent, hlow₄, hhigh₄⟩ := tdiv_spec (cycle / 25 - 3) 4 (by decide)
  split
  · omega
  · rw [Int.tdiv_eq_ediv_of_nonneg (by omega)]
    omega

/-- **The number of a day that is not short goes up with the year.** -/
theorem dayNumber_add (h : ¬ IsShort month mday) (year k : Int) (hyear : 1 ≤ year) (hk : 0 ≤ k)
    (hk1 : k ≤ 101) :
    dayNumber year month mday ≤ dayNumber (year + k) month mday
      ∧ dayNumber (year + k) month mday ≤ dayNumber year month mday + 40000 := by
  have hmarch : marchYear (year + k) month = marchYear year month + k := by
    unfold marchYear
    split <;> omega
  have hmarch0 : 0 ≤ marchYear year month := by
    unfold marchYear
    split <;> omega
  unfold IsShort at h
  unfold dayNumber
  rw [hmarch]
  dsimp only
  generalize marchYear year month = y at *
  generalize (tenths month mday).tdiv 10 = day at *
  have hday : day ≠ 365 := by omega
  have hnumber : ∀ y : Int, 0 ≤ y →
      (if day + 365 * y.tmod 4 + 1461 * (y.tdiv 4).tmod 25 = 36524 then
          146096 + 146097 * ((y.tdiv 4).tdiv 25 - 3).tdiv 4 - 719468
        else day + 365 * y.tmod 4 + 1461 * y.tdiv 4 - (y.tdiv 4).tdiv 25
          + ((y.tdiv 4).tdiv 25).tdiv 4 - 719468)
        = day + 365 * y + y / 4 - y / 4 / 25 + y / 4 / 25 / 4 - 719468 := fun y hy => by
    have hcycle : 0 ≤ y / 4 := by omega
    have hcentury : 0 ≤ y / 4 / 25 := by omega
    rw [Int.tmod_eq_emod_of_nonneg hy, Int.tdiv_eq_ediv_of_nonneg hy,
      Int.tmod_eq_emod_of_nonneg hcycle, Int.tdiv_eq_ediv_of_nonneg hcycle,
      Int.tdiv_eq_ediv_of_nonneg hcentury, if_neg (by omega)]
    omega
  simp only [if_neg hday]
  rw [hnumber y hmarch0, hnumber (y + k) (by omega)]
  omega

/-- A time that is not in the past year, as a number of days. -/
theorem dayNumber_le_of_past (hnow : HostClock now)
    (hpast : ¬ now.nowSeconds - firstTime month mday now < 350 * 86400) :
    dayNumber (now.currentYear - 1) month mday ≤ 1668000000000 := by
  have hseconds := hnow.ofSeconds
  unfold firstTime at hpast
  omega

/-- **In the years behind the first nothing overflows**, if it did not there. -/
theorem later_fits (hnow : HostClock now) (hfits : GuessFits month mday now)
    (hpast : ¬ now.nowSeconds - firstTime month mday now < 350 * 86400) {k : Int}
    (hk : 0 ≤ k) (hk1 : k ≤ 101) :
    DateFits (now.currentYear - 1 + k) month mday
      ∧ FitsInt64 (now.nowSeconds - totai (now.currentYear - 1 + k) month mday)
      ∧ totai (now.currentYear - 1 + k) month mday ≤ 2 ^ 58 := by
  obtain ⟨hseconds, hseconds1⟩ := hnow.ofSeconds
  obtain ⟨hyear, hyear1⟩ := hnow.ofYear
  have hlast := dayNumber_le_of_past hnow hpast
  have hago := hfits.ofAgo
  have hnumber := hfits.ofDate.ofNumber
  unfold firstTime at hago
  have hbounds : -106751991167300 ≤ dayNumber (now.currentYear - 1 + k) month mday
      ∧ dayNumber (now.currentYear - 1 + k) month mday ≤ 1668000040000
      ∧ now.nowSeconds - dayNumber (now.currentYear - 1 + k) month mday * 86400
        ≤ 9223372036854775807 := by
    by_cases hshort : IsShort month mday
    · obtain ⟨hlow, hhigh⟩ := dayNumber_of_isShort hshort (now.currentYear - 1 + k)
        ⟨by omega, by omega⟩
      omega
    · obtain ⟨hlow, hhigh⟩ := dayNumber_add hshort (now.currentYear - 1) k
        (by omega) hk hk1
      omega
  rw [totai_eq_dayNumber]
  refine ⟨⟨hfits.ofDate.ofDay, hfits.ofDate.ofMonth, hfits.ofDate.ofSum, hbounds.1, ?_⟩, ?_, ?_⟩
  · omega
  · unfold FitsInt64
    omega
  · omega

/-- The rounds of the loop behind the first. -/
theorem noOverflow_later (hnow : HostClock now) (hmonth : FitsInt64 month)
    (hfits : GuessFits month mday now)
    (hpast : ¬ now.nowSeconds - firstTime month mday now < 350 * 86400) (n : Nat) :
    ∀ k : Int, 0 ≤ k → k + n ≤ 101 →
      NoOverflow (guesstaiSteps month mday now n (now.currentYear - 1 + k)) := by
  induction n with
  | zero => exact fun _ _ _ => noOverflow_nil
  | succ n ih =>
    intro k hk hkn
    obtain ⟨hdate, hago, -⟩ := later_fits hnow hfits hpast hk (by omega)
    have hyear := hnow.ofYear
    rw [guesstaiSteps, noOverflow_append, noOverflow_cons]
    refine ⟨(totaiSteps_fit_iff _ _ hmonth).2 hdate, hago, ?_⟩
    split
    · exact noOverflow_nil
    · refine noOverflow_cons.2 ⟨?_, ?_⟩
      · unfold FitsInt64
        omega
      · rw [Int.add_assoc]
        exact ih (k + 1) (by omega) (by omega)

/-- **`guesstai` does not overflow** just where it does not in its first year. -/
theorem noOverflow_guesstaiSteps_iff (hnow : HostClock now) (hmonth : FitsInt64 month) :
    NoOverflow (guesstaiSteps month mday now 101 (now.currentYear - 1))
      ↔ GuessFits month mday now := by
  have hseconds := hnow.ofSeconds
  rw [guesstaiSteps, noOverflow_append, noOverflow_cons, totaiSteps_fit_iff _ _ hmonth,
    totai_eq_dayNumber]
  constructor
  · rintro ⟨hdate, hago, -⟩
    exact ⟨hdate, hago.2⟩
  · intro hfits
    have hnumber := hfits.ofDate.ofNumber
    have hago := hfits.ofAgo
    unfold firstTime at hago
    refine ⟨hfits.ofDate, ⟨by omega, hago⟩, ?_⟩
    split
    · exact noOverflow_nil
    · rename_i hpast
      have hyear := hnow.ofYear
      refine noOverflow_cons.2 ⟨?_, noOverflow_later hnow hmonth hfits hpast 100 1
        (by decide) (by decide)⟩
      unfold FitsInt64
      omega

/-- **What is guessed**: the first year's time, a later one's, or none. -/
theorem guesstai_cases (month mday : Int) (now : CurrentTime) :
    (now.nowSeconds - firstTime month mday now < 350 * 86400
        ∧ guesstai month mday now = firstTime month mday now)
      ∨ ¬ now.nowSeconds - firstTime month mday now < 350 * 86400
        ∧ (guesstai month mday now = 0 ∨ ∃ k : Int, (0 ≤ k ∧ k ≤ 101)
          ∧ guesstai month mday now = totai (now.currentYear - 1 + k) month mday
          ∧ now.nowSeconds - guesstai month mday now < 350 * 86400) := by
  have hfirst : totai (now.currentYear - 1 + ((0 : Nat) : Int)) month mday
      = firstTime month mday now := by
    rw [Int.ofNat_zero, Int.add_zero]
    exact totai_eq_dayNumber _ _ _
  unfold guesstai
  dsimp only
  rw [List.range_succ_eq_map, List.map_cons, List.find?_cons, hfirst]
  by_cases hpast : now.nowSeconds - firstTime month mday now < 350 * 86400
  · rw [decide_eq_true hpast]
    exact .inl ⟨hpast, rfl⟩
  · rw [decide_eq_false hpast]
    refine .inr ⟨hpast, ?_⟩
    dsimp only
    rw [List.map_map]
    cases hfind : List.find? _ (List.map _ (List.range 100)) with
    | none => exact .inl rfl
    | some t =>
      obtain ⟨k, hk, rfl⟩ := List.mem_map.1 (List.mem_of_find?_eq_some hfind)
      have hfound := List.find?_some hfind
      rw [List.mem_range] at hk
      rw [decide_eq_true_eq] at hfound
      exact .inr ⟨((k.succ : Nat) : Int), ⟨by omega, by omega⟩, rfl, hfound⟩

end Guess

/-! ## Unix -/

/-- What a column of the date says. -/
inductive UnixDate where
  /-- The time of a day in the past year. -/
  | time (hour minute : Int)
  /-- The year. -/
  | year (year : Int)
  /-- Nothing: the line is none of the format. -/
  | unknown
deriving DecidableEq, Repr

/-- What `parse_unix_time_or_year` reads. -/
def unixDate (token : List UInt8) : UnixDate :=
  if token.length = 4 ∧ byteAt token 1 = ascii ':' then
    .time (getInt (slice token 0 1)) (getInt (slice token 2 4))
  else if token.length = 5 ∧ byteAt token 2 = ascii ':' then
    .time (getInt (slice token 0 2)) (getInt (slice token 3 5))
  else if 4 ≤ token.length then .year (getInt token)
  else .unknown

/-- The time of a column is the one of what it says. -/
theorem parseUnixTimeOrYear_eq (token : List UInt8) (month mday : Int) (now : CurrentTime) :
    parseUnixTimeOrYear token month mday now = match unixDate token with
      | .time hour minute => some (.remoteMinute,
        timeBase + guesstai month mday now + hour * 3600 + minute * 60)
      | .year year => some (.remoteDay, timeBase + totai year month mday)
      | .unknown => none := by
  unfold parseUnixTimeOrYear unixDate
  dsimp only
  split_ifs <;> rfl

/-- **The values of `parse_unix_time_or_year`.** -/
def unixDateSteps (month mday : Int) (now : CurrentTime) : UnixDate → List Int
  | .time hour minute =>
    [now.currentYear - 1, now.currentYear + 100]
      ++ guesstaiSteps month mday now 101 (now.currentYear - 1)
      ++ timeSteps (guesstai month mday now) hour minute
  | .year year => totaiSteps year month mday ++ [timeBase + totai year month mday]
  | .unknown => []

/-- **The date of a column fits**: the date of a year does; a time of day does in the year before,
and where that is less than 350 days ago, the time of the day can be added. -/
def UnixDateFits (month mday : Int) (now : CurrentTime) : UnixDate → Prop
  | .time hour minute =>
    GuessFits month mday now
      ∧ (now.nowSeconds - firstTime month mday now < 350 * 86400 →
        FitsInt64 (firstTime month mday now + hour * 3600)
          ∧ FitsInt64 (firstTime month mday now + hour * 3600 + minute * 60))
  | .year year => DateFits year month mday
  | .unknown => True

/-- A character is near zero, on one side of it or the other. -/
theorem digitOf_near (c : UInt8) :
    digitOf c ≤ 79 ∨ 18446744073709551440 ≤ digitOf c ∧ digitOf c ≤ 18446744073709551615 := by
  have hlow := c.toInt8.le_toInt
  have hhigh := c.toInt8.toInt_lt
  unfold digitOf
  omega

/-- A number of two characters at most is small. -/
theorem getInt_short {token : List UInt8} (h : token.length ≤ 2) :
    -200 ≤ getInt token ∧ getInt token ≤ 900 := by
  have hmax : uint64Max = 18446744073709551615 := by decide
  have hround : ∀ u c, getlongDigit u c
      = if u ≤ (uint64Max - digitOf c) / 10 then u * 10 + digitOf c else uint64Max := fun _ _ => rfl
  have hnear : getlong token ≤ 900 ∨ 18446744073709551416 ≤ getlong token
      ∧ getlong token ≤ 18446744073709551615 := by
    match token, h with
    | [], _ => exact .inl (by decide)
    | [c], _ =>
      have hc := digitOf_near c
      show getlongDigit 0 c ≤ 900 ∨ _ ≤ getlongDigit 0 c ∧ getlongDigit 0 c ≤ _
      rw [hround]
      split <;> omega
    | [c, c'], _ =>
      have hc := digitOf_near c
      have hc' := digitOf_near c'
      show getlongDigit (getlongDigit 0 c) c' ≤ 900 ∨ _ ≤ getlongDigit (getlongDigit 0 c) c'
        ∧ getlongDigit (getlongDigit 0 c) c' ≤ _
      rw [hround, hround, if_pos (Nat.zero_le _)]
      split <;> omega
  unfold getInt toInt64
  split <;> omega

/-- The hour and the minute of a column are small. -/
theorem unixDate_short {token : List UInt8} {hour minute : Int}
    (h : unixDate token = .time hour minute) :
    (-200 ≤ hour ∧ hour ≤ 900) ∧ -200 ≤ minute ∧ minute ≤ 900 := by
  have hslice : ∀ i j, j - i ≤ 2 → -200 ≤ getInt (slice token i j)
      ∧ getInt (slice token i j) ≤ 900 := fun i j hij =>
    getInt_short ((List.length_take_le _ _).trans hij)
  unfold unixDate at h
  split at h
  · cases h
    exact ⟨hslice 0 1 (by decide), hslice 2 4 (by decide)⟩
  split at h
  · cases h
    exact ⟨hslice 0 2 (by decide), hslice 3 5 (by decide)⟩
  split at h <;> cases h

/-- **The date of a column does not overflow** just where it fits. -/
theorem noOverflow_unixDateSteps_iff {month mday : Int} {now : CurrentTime} (hnow : HostClock now)
    (hmonth : FitsInt64 month) (token : List UInt8) :
    NoOverflow (unixDateSteps month mday now (unixDate token))
      ↔ UnixDateFits month mday now (unixDate token) := by
  cases hdate : unixDate token with
  | unknown => exact iff_of_true noOverflow_nil trivial
  | year year =>
    show NoOverflow (_ ++ _) ↔ DateFits year month mday
    rw [noOverflow_append, totaiSteps_fit_iff _ _ hmonth, timeBase_eq, Int.zero_add]
    refine and_iff_left_of_imp fun h => noOverflow_cons.2 ⟨?_, noOverflow_nil⟩
    have hnumber := h.ofNumber
    rw [totai_eq_dayNumber]
    unfold FitsInt64
    omega
  | time hour minute =>
    obtain ⟨hhour, hminute⟩ := unixDate_short hdate
    have hyear := hnow.ofYear
    have hseconds := hnow.ofSeconds
    have hyears : NoOverflow [now.currentYear - 1, now.currentYear + 100] := by
      simp only [noOverflow_cons, noOverflow_nil, and_true, FitsInt64]
      omega
    show NoOverflow (_ ++ _ ++ _) ↔ _ ∧ _
    rw [noOverflow_append, noOverflow_append, and_iff_right hyears,
      noOverflow_guesstaiSteps_iff hnow hmonth]
    refine and_congr_right fun hfits => ?_
    have hnumber := hfits.ofDate.ofNumber
    simp only [timeSteps, timeBase_eq, Int.zero_add, noOverflow_cons, noOverflow_nil, and_true]
    rcases guesstai_cases month mday now with ⟨hrecent, heq⟩ | ⟨hpast, heq⟩
    · rw [heq]
      unfold firstTime at hrecent ⊢
      unfold FitsInt64
      omega
    · refine iff_of_true ?_ fun h => absurd h hpast
      rcases heq with heq | ⟨k, hk, heq, hfound⟩
      · rw [heq]
        unfold FitsInt64
        omega
      · have hlater := (later_fits hnow hfits hpast hk.1 hk.2).2.2
        rw [← heq] at hlater
        unfold FitsInt64
        omega

/-- **The column of the time or the year**, with the columns before it: what the loop of
`parse_unix` comes to where it calls `parse_unix_time_or_year`. -/
def unixDateColumn (now : CurrentTime) (buf : List UInt8) :
    Nat → Nat → Nat → UnixScan → Option (UnixScan × List UInt8)
  | 0, _, _, _ => none
  | n + 1, j, i, s =>
    if byteAt buf j ≠ ascii ' ' ∨ byteAt buf (j - 1) = ascii ' ' then
      unixDateColumn now buf n (j + 1) i s
    else if s.state = .haveDate then some (s, slice buf i j)
    else
      match unixToken now s (slice buf i j) with
      | .next s => unixDateColumn now buf n (j + 1) (skipSpaces buf (j + 1)) s
      | _ => none

/-- A month, or none. -/
def IsMonth (month : Int) : Prop := -1 ≤ month ∧ month < 12

/-- A column leaves a month. -/
theorem isMonth_of_unixToken {now : CurrentTime} {s s' : UnixScan} {token : List UInt8}
    (hs : IsMonth s.month) (h : unixToken now s token = .next s') : IsMonth s'.month := by
  unfold unixToken at h
  cases hstate : s.state with
  | skipPerm | skipNlink | skipUid | tentativeSize | haveMonth =>
    rw [hstate] at h
    cases h
    exact hs
  | findMonth =>
    rw [hstate] at h
    dsimp only at h
    cases hmonth : getmonth token with
    | none =>
      rw [hmonth] at h
      cases h
      show -1 ≤ (-1 : Int) ∧ (-1 : Int) < 12
      decide
    | some month =>
      rw [hmonth] at h
      cases h
      have hlt := getmonth_lt hmonth
      show -1 ≤ (month : Int) ∧ (month : Int) < 12
      omega
  | haveDate =>
    rw [hstate] at h
    dsimp only at h
    split at h <;> cases h

theorem isMonth_unixDateColumn (now : CurrentTime) (buf : List UInt8) (n : Nat) :
    ∀ {j i : Nat} {s s' : UnixScan} {token : List UInt8}, IsMonth s.month →
      unixDateColumn now buf n j i s = some (s', token) → IsMonth s'.month := by
  induction n with
  | zero => exact fun _ h => nomatch h
  | succ n ih =>
    intro j i s s' token hs h
    rw [unixDateColumn] at h
    split at h
    · exact ih hs h
    split at h
    · cases h
      exact hs
    split at h
    · rename_i hnext
      exact ih (isMonth_of_unixToken hs hnext) h
    · cases h

/-- Before the date there is none. -/
theorem unixToken_ne_date {now : CurrentTime} {s : UnixScan} {token : List UInt8}
    (hs : s.state ≠ .haveDate) (mtimetype : FtpMtimeType) (mtime : Int) :
    unixToken now s token ≠ .date mtimetype mtime := by
  unfold unixToken
  cases hstate : s.state with
  | skipPerm | skipNlink | skipUid | tentativeSize | haveMonth => exact UnixStep.noConfusion
  | findMonth =>
    dsimp only
    split <;> exact UnixStep.noConfusion
  | haveDate => exact absurd hstate hs

/-- **The time of a line is that of its column.** -/
theorem unixLoop_mtime (now : CurrentTime) (buf : List UInt8) (n : Nat) :
    ∀ {j i : Nat} {s : UnixScan} {r : Nat × FtpMtimeType × Int × List UInt8},
      unixLoop now buf n j i s = some r → ∃ s' token,
        unixDateColumn now buf n j i s = some (s', token)
          ∧ parseUnixTimeOrYear token s'.month s'.mday now = some (r.2.1, r.2.2.1) := by
  -- on the characters left: the loop that scans and the one that looks for the date stop together
  induction n with
  | zero => exact fun h => nomatch h
  | succ n ih =>
    intro j i s r h
    rw [unixLoop] at h
    rw [unixDateColumn]
    split at h
    · rename_i hskip
      rw [if_pos hskip]
      exact ih h
    · rename_i hskip
      rw [if_neg hskip]
      by_cases hstate : s.state = .haveDate
      · rw [if_pos hstate]
        refine ⟨s, _, rfl, ?_⟩
        unfold unixToken at h
        rw [hstate] at h
        dsimp only at h
        cases hdate : parseUnixTimeOrYear (slice buf i j) s.month s.mday now with
        | none =>
          rw [hdate] at h
          cases h
        | some d =>
          rw [hdate] at h
          cases h
          rfl
      · rw [if_neg hstate]
        split at h
        · rename_i hnext
          rw [hnext]
          exact ih h
        · cases h
        · rename_i hdate
          exact absurd hdate (unixToken_ne_date hstate _ _)

/-- The column of a line. -/
def unixColumn (now : CurrentTime) (buf : List UInt8) : Option (UnixScan × List UInt8) :=
  unixDateColumn now buf (buf.length - 1) 1 0 ⟨.skipPerm, 0, 0, 0⟩

/-- The values of `parse_unix`. -/
def unixSteps (now : CurrentTime) (buf : List UInt8) : List Int :=
  timeBaseSteps ++ (unixColumn now buf).elim []
    fun c => unixDateSteps c.1.month c.1.mday now (unixDate c.2)

/-- **A line of the format whose date fits.** -/
def UnixFits (now : CurrentTime) (buf : List UInt8) : Prop :=
  ∀ c ∈ unixColumn now buf, UnixDateFits c.1.month c.1.mday now (unixDate c.2)

theorem noOverflow_unixSteps_iff {now : CurrentTime} (hnow : HostClock now) (buf : List UInt8) :
    NoOverflow (unixSteps now buf) ↔ UnixFits now buf := by
  rw [unixSteps, noOverflow_append, and_iff_right noOverflow_timeBaseSteps, noOverflow_elim]
  refine forall₂_congr fun c hc => noOverflow_unixDateSteps_iff hnow ?_ c.2
  have hmonth : IsMonth c.1.month :=
    isMonth_unixDateColumn now buf _ (by exact ⟨by decide, by decide⟩) hc
  unfold IsMonth at hmonth
  unfold FitsInt64
  omega

/-! ## Lines -/

/-- **The values of `ftpparse`.** -/
def ftpparseSteps (now : CurrentTime) (buf : List UInt8) : List Int :=
  if buf.length < 2 then []
  else if byteAt buf 0 = ascii '+' then eplfSteps buf
  else if isUnixFileType (byteAt buf 0) then unixSteps now buf
  else
    vmsSteps buf ++
      if (parseVms {} buf).2 then []
      else if ascii '0' ≤ byteAt buf 0 ∧ byteAt buf 0 ≤ ascii '9' then dosSteps buf else []

/-- The values of `ftp_parse_line`. -/
def ftpParseLineSteps (now : CurrentTime) (line : List UInt8) : List Int :=
  ftpparseSteps now (stripLineEnd line)

/-- **A line whose fields fit**, as the format it is read in has them. The format is told by the
first bytes, as the parser does; a line of no known format is not computed with, and nothing is
asked of it. -/
def LineFits (now : CurrentTime) (buf : List UInt8) : Prop :=
  2 ≤ buf.length → byteAt buf 0 ≠ ascii '+' →
    if isUnixFileType (byteAt buf 0) then UnixFits now buf
    else (∀ f ∈ (skipUntil buf (ascii ';') 0).bind (vmsFields buf), f.Fit)
      ∧ ((parseVms {} buf).2 = false → ascii '0' ≤ byteAt buf 0 → byteAt buf 0 ≤ ascii '9' →
        DosFits buf)

theorem noOverflow_vmsSteps_iff (buf : List UInt8) : NoOverflow (vmsSteps buf)
    ↔ ∀ f ∈ (skipUntil buf (ascii ';') 0).bind (vmsFields buf), f.Fit := by
  unfold vmsSteps
  cases hfields : (skipUntil buf (ascii ';') 0).bind (vmsFields buf) with
  | none => exact iff_of_true noOverflow_nil fun _ hf => nomatch hf
  | some f =>
    obtain ⟨semicolon, -, hf⟩ := Option.bind_eq_some_iff.1 hfields
    dsimp only
    rw [noOverflow_append, and_iff_right noOverflow_timeBaseSteps,
      f.noOverflow_steps_iff (month_of_vmsFields hf)]
    exact ⟨fun h g hg => Option.some.inj hg ▸ h, fun h => h f rfl⟩

/-- **Listing arithmetic does not overflow** just where the fields of the line fit. The sums of a
number never do.

The line is any list of bytes, with an end of line or without. The clock of the host has to be one
(`HostClock`), for a date without a year is completed from it. The second part is about digits
that a field may have any number of, and needs no condition. -/
theorem ftp_arithmetic (now : CurrentTime) (hnow : HostClock now) (line : List UInt8) :
    (NoOverflow (ftpParseLineSteps now line) ↔ LineFits now (stripLineEnd line))
      ∧ ∀ token : List UInt8, ∀ x ∈ getlongSteps 0 token, x ≤ uint64Max := by
  refine ⟨?_, fun token => getlongSteps_le token 0⟩
  unfold ftpParseLineSteps ftpparseSteps LineFits
  generalize stripLineEnd line = buf
  by_cases hlen : buf.length < 2
  · rw [if_pos hlen]
    exact iff_of_true noOverflow_nil fun h => absurd h (by omega)
  rw [if_neg hlen, forall_prop_of_true (by omega)]
  by_cases hplus : byteAt buf 0 = ascii '+'
  · rw [if_pos hplus]
    exact iff_of_true (noOverflow_eplfSteps buf) fun h => absurd hplus h
  rw [if_neg hplus, forall_prop_of_true hplus]
  by_cases hunix : isUnixFileType (byteAt buf 0) = true
  · rw [if_pos hunix, if_pos hunix]
    exact noOverflow_unixSteps_iff hnow buf
  rw [if_neg hunix, if_neg hunix, noOverflow_append, noOverflow_vmsSteps_iff]
  refine and_congr_right fun _ => ?_
  cases hvms : (parseVms {} buf).2 with
  | true => exact iff_of_true noOverflow_nil fun h => nomatch h
  | false =>
    rw [if_neg Bool.false_ne_true, forall_prop_of_true rfl]
    by_cases hdigit : ascii '0' ≤ byteAt buf 0 ∧ byteAt buf 0 ≤ ascii '9'
    · rw [if_pos hdigit, forall_prop_of_true hdigit.1, forall_prop_of_true hdigit.2]
      exact noOverflow_dosSteps_iff buf
    · rw [if_neg hdigit]
      exact iff_of_true noOverflow_nil fun h h' => absurd ⟨h, h'⟩ hdigit

/-- A clock in the year 2023. -/
def clock2023 : CurrentTime := ⟨1700000000, 2023⟩

theorem hostClock_2023 : HostClock clock2023 := ⟨by decide, by decide⟩

/-- The fields of a directory in a listing of MS-DOS fit. -/
theorem ftp_arithmetic_licensed :
    LineFits clock2023 (stripLineEnd (asciis "04-27-00 09:09PM <DIR> licensed\r\n")) :=
  (ftp_arithmetic clock2023 hostClock_2023 (asciis "04-27-00 09:09PM <DIR> licensed\r\n")).1.1
    (by decide +kernel)

/-- The day of a month is as large as the line says. -/
theorem not_ftp_arithmetic :
    ¬ ∀ (now : CurrentTime) (line : List UInt8), HostClock now →
      NoOverflow (ftpParseLineSteps now line) :=
  fun h => absurd (h clock2023 (asciis "-rw-r--r-- 1 u g 1 Sep 999999999999999999 2020 a")
    hostClock_2023) (by decide +kernel)

end LinApple.Services
