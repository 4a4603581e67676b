import Mathlib.Tactic.IntervalCases
import LinApple.Lib.Sizes

/-!
# The clock card

The card has ten registers, the decimal digits of a month, a weekday, a day, an hour and a minute.
A read of its last register takes the time over from the host; the firmware in the card's ROM
reads the digits after that, and writes them down for the program that has called it.

Whatever is done to the card, its registers are digits, and a time of the calendar where the
host's are (`calendar_run`): so what it saves it loads again.

The two halves of that have different conditions, and need to. The digits are the quotients and
remainders by ten of whatever the host gives, modulo a hundred, and a frame that is loaded is
refused unless it holds digits; so they are digits in any case, with a host that is out of its
mind as well. But the loader also looks at what the digits spell, and a host that said there was a
thirteenth month would make the card save a frame that it refuses later. That the times are of the
calendar (`HostLocalTime.IsCalendar`) is therefore asked of the times in the run, and only for the
second half. The bounds in it are those of the loader, zero included, and not those of a calendar
on the wall.

The operations are reads, at any address and with anything on the bus, resets and loads of any
frame, taken or refused. A host that has no time to give leaves the registers as they are. The
card the frame is loaded into in the end is any card, since a load replaces everything.
-/

namespace LinApple.Cards

/-- `HostLocalTime`, as far as the card reads it. -/
structure HostLocalTime where
  /-- From 1 to 12. -/
  month : UInt8
  /-- From 0 to 6. -/
  weekday : UInt8
  /-- From 1 to 31. -/
  dayOfMonth : UInt8
  /-- From 0 to 23. -/
  hour : UInt8
  /-- From 0 to 59. -/
  minute : UInt8
deriving DecidableEq, Repr

/-- `ClockCard`, less its ROM and what it has reported. -/
structure ClockCard where
  /-- `latches` -/
  latches : Fin 10 → UInt8 := fun _ => 0

/-- `ClockCardSaveState`, less the bytes that nothing reads. -/
structure ClockCardSaveState where
  /-- `CLOCKCARD_STATE_VERSION` -/
  version : UInt32
  /-- The size of the frame. -/
  structSize : UInt32
  /-- `latches` -/
  latches : Fin 10 → UInt8

/-! ## The card -/

/-- `latch_month` -/
def latchMonth : Nat := 0
/-- `latch_weekday` -/
def latchWeekday : Nat := 2
/-- `latch_day` -/
def latchDay : Nat := 4
/-- `latch_hour` -/
def latchHour : Nat := 6
/-- `latch_minute` -/
def latchMinute : Nat := 8

namespace ClockCard

variable (card : ClockCard)

/-- `set_latch_pair`: two digits, the higher first. -/
def setLatchPair (index : Nat) (value : Int) : ClockCard :=
  let baseIndex := index &&& 0x0E
  if baseIndex + 1 ≥ 10 then card
  else
    let clampedValue := value.natAbs % 100
    ⟨fun i =>
      if i.val = baseIndex then UInt8.ofNat (clampedValue / 10)
      else if i.val = baseIndex + 1 then UInt8.ofNat (clampedValue % 10)
      else card.latches i⟩

/-- `update_latches`: without a time the digits stay. -/
def updateLatches (now : Option HostLocalTime) : ClockCard :=
  match now with
  | none => card
  | some now =>
    ((((card.setLatchPair latchMonth now.month.toNat).setLatchPair latchWeekday
      now.weekday.toNat).setLatchPair latchDay now.dayOfMonth.toNat).setLatchPair latchHour
      now.hour.toNat).setLatchPair latchMinute now.minute.toNat

/-- **`clockcard_io_read`**: only the digits drive the bus. -/
def ioRead (addr : UInt16) (now : Option HostLocalTime) (floatingBus : UInt8) :
    UInt8 × ClockCard :=
  let offset := (addr &&& 0x0F).toNat
  if h : offset < 10 then (card.latches ⟨offset, h⟩, card)
  else if offset = 0x0F then (floatingBus, card.updateLatches now)
  else (floatingBus, card)

/-- `clockcard_abi_save_state` -/
def saveState : ClockCardSaveState := ⟨1, 32, card.latches⟩

end ClockCard

/-- `pair_value` -/
def pairValue (latches : Fin 10 → UInt8) (i j : Fin 10) : Nat :=
  (latches i).toNat * 10 + (latches j).toNat

/-- `latches_form_a_calendar` -/
def latchesFormACalendar (latches : Fin 10 → UInt8) : Bool :=
  (∀ i, latches i ≤ 9) ∧ latches 2 = 0 ∧ pairValue latches 0 1 ≤ 12 ∧ latches 3 ≤ 6
    ∧ pairValue latches 4 5 ≤ 31 ∧ pairValue latches 6 7 ≤ 23 ∧ pairValue latches 8 9 ≤ 59

/-- `clockcard_abi_load_state`, of a frame in so many bytes. A frame that is refused changes
nothing. -/
def ClockCard.loadState (card : ClockCard) (bufferSize : Nat) (state : ClockCardSaveState) :
    ClockCard :=
  if bufferSize < 8 then card
  else if state.structSize ≠ 32 ∨ bufferSize < state.structSize.toNat then card
  else if state.version ≠ 1 then card
  else if latchesFormACalendar state.latches then ⟨state.latches⟩
  else card

/-! ## Runs -/

/-- What happens to the card. The host's time is an answer to each read, so the time may go back
or stand still between two of them, and may not be known at all. -/
inductive ClockOp where
  /-- `clockcard_io_read`, with the host's time and what is on the bus. -/
  | read (addr : UInt16) (now : Option HostLocalTime) (floatingBus : UInt8)
  /-- `clockcard_abi_reset` -/
  | reset
  /-- `clockcard_abi_load_state` -/
  | load (bufferSize : Nat) (state : ClockCardSaveState)

/-- The card after it. -/
def ClockOp.perform (card : ClockCard) : ClockOp → ClockCard
  | read addr now floatingBus => (card.ioRead addr now floatingBus).2
  | reset => card
  | load bufferSize state => card.loadState bufferSize state

/-- The time the host has given. -/
def ClockOp.time : ClockOp → Option HostLocalTime
  | read _ now _ => now
  | _ => none

/-- **A time as the host gives it.** The bounds are those that the loader of a frame checks, zero
included. Nothing is asked of how the fields belong together: the thirty-first of a short month is
a time as well. -/
structure HostLocalTime.IsCalendar (t : HostLocalTime) : Prop where
  month : t.month ≤ 12
  weekday : t.weekday ≤ 6
  dayOfMonth : t.dayOfMonth ≤ 31
  hour : t.hour ≤ 23
  minute : t.minute ≤ 59

instance (t : HostLocalTime) : Decidable t.IsCalendar :=
  decidable_of_iff
    (t.month ≤ 12 ∧ t.weekday ≤ 6 ∧ t.dayOfMonth ≤ 31 ∧ t.hour ≤ 23 ∧ t.minute ≤ 59)
    ⟨fun ⟨h1, h2, h3, h4, h5⟩ => ⟨h1, h2, h3, h4, h5⟩, fun ⟨h1, h2, h3, h4, h5⟩ => ⟨h1, h2, h3, h4, h5⟩⟩

/-- What the card shows of a time: two digits of each of its numbers. -/
def HostLocalTime.digits (t : HostLocalTime) (i : Fin 10) : UInt8 :=
  let value := [t.month, t.weekday, t.dayOfMonth, t.hour, t.minute].getD (i.val / 2) 0
  if i.val % 2 = 0 then UInt8.ofNat (value.toNat % 100 / 10)
  else UInt8.ofNat (value.toNat % 100 % 10)

/-- A pair of registers is set. -/
theorem latches_setLatchPair (card : ClockCard) {k : Nat} (hk : k < 5) (v : UInt8) (i : Fin 10) :
    (card.setLatchPair (2 * k) v.toNat).latches i
      = if i.val / 2 = k then
          if i.val % 2 = 0 then UInt8.ofNat (v.toNat % 100 / 10)
          else UInt8.ofNat (v.toNat % 100 % 10)
        else card.latches i := by
  have hbase : 2 * k &&& 0x0E = 2 * k := by interval_cases k <;> rfl
  unfold ClockCard.setLatchPair
  dsimp only
  rw [hbase, if_neg (by omega), Int.natAbs_natCast]
  dsimp only
  by_cases hpair : i.val / 2 = k
  · rw [if_pos hpair]
    by_cases heven : i.val % 2 = 0
    · rw [if_pos heven, if_pos (by omega)]
    · rw [if_neg heven, if_neg (by omega), if_pos (by omega)]
  · rw [if_neg hpair, if_neg (by omega), if_neg (by omega)]

/-- **The host's time is taken over.** -/
theorem latches_updateLatches (card : ClockCard) (t : HostLocalTime) :
    (card.updateLatches (some t)).latches = t.digits := by
  funext i
  have hpairs : (card.updateLatches (some t)).latches i
      = (((((card.setLatchPair (2 * 0) t.month.toNat).setLatchPair (2 * 1)
        t.weekday.toNat).setLatchPair (2 * 2) t.dayOfMonth.toNat).setLatchPair (2 * 3)
        t.hour.toNat).setLatchPair (2 * 4) t.minute.toNat).latches i := rfl
  have hpair : i.val / 2 < 5 := by omega
  rw [hpairs, latches_setLatchPair _ (by decide), latches_setLatchPair _ (by decide),
    latches_setLatchPair _ (by decide), latches_setLatchPair _ (by decide),
    latches_setLatchPair _ (by decide)]
  unfold HostLocalTime.digits
  generalize i.val / 2 = k at hpair
  interval_cases k <;> rfl

theorem toNat_digit {n : Nat} (h : n < 10) : (UInt8.ofNat n).toNat = n := by
  rw [UInt8.toNat_ofNat']
  exact Nat.mod_eq_of_lt (by omega)

/-- Whatever the time, digits are shown. -/
theorem digits_le (t : HostLocalTime) (i : Fin 10) : t.digits i ≤ 9 := by
  have hdigit (n : Nat) (h : n < 10) : UInt8.ofNat n ≤ 9 := by
    rw [UInt8.le_iff_toNat_le, toNat_digit h]
    exact Nat.le_of_lt_succ h
  unfold HostLocalTime.digits
  split_ifs
  · exact hdigit _ (by omega)
  · exact hdigit _ (by omega)

/-- Two digits make up the number again. -/
theorem pair_digits (v : UInt8) :
    (UInt8.ofNat (v.toNat % 100 / 10)).toNat * 10 + (UInt8.ofNat (v.toNat % 100 % 10)).toNat
      = v.toNat % 100 := by
  rw [toNat_digit (by omega), toNat_digit (by omega)]
  omega

/-- **A time of the calendar is shown as one.** -/
theorem HostLocalTime.IsCalendar.latchesFormACalendar {t : HostLocalTime} (h : t.IsCalendar) :
    latchesFormACalendar t.digits = true := by
  have hle (v : UInt8) (n : Nat) (hv : v.toNat ≤ n) : v.toNat % 100 ≤ n :=
    Nat.le_trans (Nat.mod_le _ _) hv
  have hweekday : t.weekday.toNat ≤ 6 := UInt8.le_iff_toNat_le.1 h.weekday
  have htens : t.digits 2 = UInt8.ofNat (t.weekday.toNat % 100 / 10) := rfl
  have hones : t.digits 3 = UInt8.ofNat (t.weekday.toNat % 100 % 10) := rfl
  refine decide_eq_true ⟨digits_le t, ?_, ?_, ?_, ?_, ?_, ?_⟩
  · rw [htens, show t.weekday.toNat % 100 / 10 = 0 by omega]
    rfl
  · exact (pair_digits t.month).le.trans (hle _ _ (UInt8.le_iff_toNat_le.1 h.month))
  · rw [hones, UInt8.le_iff_toNat_le, toNat_digit (by omega)]
    exact Nat.le_trans (Nat.mod_le _ _) (hle _ _ hweekday)
  · exact (pair_digits t.dayOfMonth).le.trans (hle _ _ (UInt8.le_iff_toNat_le.1 h.dayOfMonth))
  · exact (pair_digits t.hour).le.trans (hle _ _ (UInt8.le_iff_toNat_le.1 h.hour))
  · exact (pair_digits t.minute).le.trans (hle _ _ (UInt8.le_iff_toNat_le.1 h.minute))

/-! ### What a run keeps -/

section Runs

variable {card : ClockCard} {P : (Fin 10 → UInt8) → Prop}

/-- What holds of the digits of every time the host gives, and of every calendar, is kept. -/
theorem perform_keeps {op : ClockOp} (h : P card.latches)
    (htime : ∀ t ∈ op.time, P t.digits)
    (hload : ∀ latches, latchesFormACalendar latches = true → P latches) :
    P (op.perform card).latches := by
  cases op with
  | read addr now floatingBus =>
    show P (card.ioRead addr now floatingBus).2.latches
    unfold ClockCard.ioRead
    dsimp only
    split_ifs
    · exact h
    · cases now with
      | none => exact h
      | some t =>
        rw [latches_updateLatches]
        exact htime t rfl
    · exact h
  | reset => exact h
  | load bufferSize state =>
    show P (card.loadState bufferSize state).latches
    unfold ClockCard.loadState
    split_ifs with h1 h2 h3 h4
    · exact h
    · exact h
    · exact h
    · exact hload _ h4
    · exact h

theorem foldl_perform_keeps {ops : List ClockOp} (h : P card.latches)
    (htime : ∀ op ∈ ops, ∀ t ∈ op.time, P t.digits)
    (hload : ∀ latches, latchesFormACalendar latches = true → P latches) :
    P (ops.foldl ClockOp.perform card).latches := by
  induction ops generalizing card with
  | nil => exact h
  | cons op ops ih =>
    have hop := perform_keeps h (htime op (List.mem_cons_self ..)) hload
    exact ih hop fun op hmem => htime op (List.mem_cons_of_mem _ hmem)

/-- A frame of a calendar is loaded. -/
theorem loadState_saveState {bufferSize : Nat} (hsize : 32 ≤ bufferSize)
    (h : latchesFormACalendar card.latches = true) (other : ClockCard) :
    other.loadState bufferSize card.saveState = card := by
  unfold ClockCard.loadState ClockCard.saveState
  dsimp only
  rw [if_neg (by omega), if_neg ?_, if_neg (fun hne => hne rfl), if_pos h]
  rintro (hne | hlt)
  · exact hne rfl
  · exact absurd hlt (Nat.not_lt_of_le hsize)

end Runs

/-- **What the clock card saves it loads again.** Whatever times the host gives, whatever is read
and whatever frames are loaded, the registers are decimal digits; and where the times are of the
calendar, the frame that is saved in the end makes every card the one that was saved. -/
theorem calendar_run (ops : List ClockOp) :
    (∀ i, (ops.foldl ClockOp.perform {}).latches i ≤ 9) ∧
      ((∀ op ∈ ops, ∀ t ∈ op.time, t.IsCalendar) → ∀ (other : ClockCard) (bufferSize : Nat),
        32 ≤ bufferSize → other.loadState bufferSize (ops.foldl ClockOp.perform {}).saveState
          = ops.foldl ClockOp.perform {}) := by
  refine ⟨?_, fun htimes other bufferSize hsize => loadState_saveState hsize ?_ other⟩
  · refine foldl_perform_keeps (P := fun latches => ∀ i, latches i ≤ 9) (fun i => UInt8.zero_le)
      (fun op _ t _ => digits_le t) fun latches h => (of_decide_eq_true h).1
  · exact foldl_perform_keeps (P := fun latches => latchesFormACalendar latches = true) (by decide)
      (fun op hop t ht => (htimes op hop t ht).latchesFormACalendar) fun latches h => h

/-- The last day of a year, a minute before it ends, and a frame that is refused. -/
def clockOps : List ClockOp :=
  [.read 0xC0CF (some ⟨12, 4, 31, 23, 59⟩) 0xA0, .read 0xC0C0 none 0xA0,
    .load 32 ⟨1, 32, fun _ => 9⟩]

theorem calendar_run_clockOps :
    (clockOps.foldl ClockOp.perform {}).latches 0 = 1
      ∧ ({ latches := fun _ => 7 } : ClockCard).loadState 32
          (clockOps.foldl ClockOp.perform {}).saveState
        = clockOps.foldl ClockOp.perform {} :=
  ⟨by decide, (calendar_run clockOps).2 (by decide) _ 32 (Nat.le_refl _)⟩

end LinApple.Cards
