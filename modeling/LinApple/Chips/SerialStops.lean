import LinApple.Chips.SerialClock

/-!
# Stopping a serial chip's clock

A chip that is brought up to date now and then should do the same whatever the cycles at
which that happens. For its clock this comes to one question, asked wherever the clock
may be stopped: is what comes next still what would have come?

It is not where a byte that came in takes the clock of an idle transmitter back to before
the anchor, and the transmitter's boundary comes next. The boundary is reckoned from
there, a character on; stopped before it, the clock stands at the anchor or after again,
and the next boundary is a character from the anchor, which is later. `OffGrid` names such
a state, and a clock `Lags` if it can be stopped in one on the way.

Two things are taken as they come and not assumed away. The first is that sums go round
at 64 bits. `Fits` says that none does, and it speaks of the sums that are done: those of
the states the loop gets to, from wherever it was stopped. It leaves alone a boundary
that nobody reckons, as where the transmitter rests after the byte it sends; a bound on
the cycle alone would not (`fits_of_lt` has that bound, for the clocks that need no
more). The second is the order of a byte's two times, which decides nothing here: a clock
that may be stopped is defined by what happens to it, and may be found in any order.

The results are two. `Cuttable.stop`: a clock that does not lag may be stopped, may be
stopped again, and does the same next. `Lags.exists_stop`: a clock that lags may not –
there is a cycle at which stopping it changes where it ends, because the transmitter has
passed its boundary in one of the two ways and not in the other. Neither says how to see
from a clock that it lags. For bytes whose times are in order, `lags_iff` does: the clock
lags where a byte has an event before the anchor still to come, and a boundary a character
after the last of these is neither the very next cycle nor too late to matter.
-/

namespace LinApple.Chips.SerialClock

/-! ## Clocks that may be stopped -/

section Stopping

variable {c b d : SerialClock} {t u : Nat}

/-- **The sums a state does on the way to a cycle fit** into 64 bits: the boundary of an
idle transmitter, and the end of the byte that starts in the next round. -/
structure Reckons (t : Nat) (c : SerialClock) : Prop where
  /-- The boundary of an idle transmitter. -/
  boundary : c.Idle → c.reckoned < 2 ^ 64
  /-- The end of a byte that starts. -/
  byte : events.due t c = true → c.starts = true → c.next + c.frame < 2 ^ 64

/-- **Where a clock stands that is stopped** here and there on the way to a cycle. -/
inductive Stops (t : Nat) : SerialClock → SerialClock → Prop
  | refl (c : SerialClock) : Stops t c c
  | stop {c b d : SerialClock} {u : Nat} (hlt : c.synced < u) (hle : u ≤ t)
    (hend : events.EndsIn u c b) (hrest : Stops t (b.stop u) d) : Stops t c d

/-- **No sum goes beyond 64 bits** on the way to a cycle, wherever the clock is stopped. A
clock that has arrived does no more sums. -/
def Fits (t : Nat) (c : SerialClock) : Prop :=
  ∀ b d, Stops t c b → b.synced < t → events.Reaches t b d → d.Reckons t

/-- **The next event is off the grid** of whole characters from the anchor: it is the
boundary of an idle transmitter, reckoned where the clock stands before the anchor. -/
structure OffGrid (c : SerialClock) : Prop where
  /-- The transmitter is idle. -/
  idle : c.Idle
  /-- The clock stands before the anchor. -/
  behind : c.synced < c.anchor
  /-- The boundary is the next event. -/
  due : c.txDue = true

/-- The clock can be stopped after a cycle where its next event is off the grid, and that
comes on the way to another. -/
def LagsAfter (s t : Nat) (c : SerialClock) : Prop :=
  ∃ u b, s < u ∧ events.EndsIn u c b ∧ b.OffGrid ∧ u < b.next ∧ b.next ≤ t

/-- **A byte that came in takes the clock back** to before the anchor, and the boundary that
is reckoned from there comes on the way to a cycle, with room to stop the clock before. -/
def Lags (t : Nat) (c : SerialClock) : Prop := c.LagsAfter c.synced t

/-- **The clock may be stopped anywhere** up to a cycle. -/
structure Cuttable (t : Nat) (c : SerialClock) : Prop where
  /-- The anchor is in the past. -/
  anchor_le : c.anchor ≤ c.synced
  /-- The sums fit. -/
  fits : c.Fits t
  /-- No byte takes the clock back. -/
  prompt : ¬ c.Lags t

/-- What is due comes after 0, and at the horizon or before. -/
theorem due_iff : events.due u c = true ↔ c.next ≠ 0 ∧ c.next ≤ u := by simp [events]

theorem not_due_iff : events.due u c = false ↔ c.next = 0 ∨ u < c.next := by
  rw [← Bool.not_eq_true, due_iff]
  omega

theorem due_mono (hle : u ≤ t) (c : SerialClock) (h : events.due u c = true) :
    events.due t c = true :=
  due_iff.2 ⟨(due_iff.1 h).1, (due_iff.1 h).2.trans hle⟩

/-- A clock that lags on the way to a cycle lags on the way to a later one. -/
theorem Lags.mono (hle : u ≤ t) (h : c.Lags u) : c.Lags t := by
  obtain ⟨v, b, hlt, hend, hoff, hv, hnext⟩ := h
  exact ⟨v, b, hlt, hend, hoff, hv, hnext.trans hle⟩

/-! ### Sums that fit -/

/-- The states of a clock that is not stopped on the way. -/
theorem Fits.reckons (h : c.Fits t) (hlt : c.synced < t) (hd : events.Reaches t c d) :
    d.Reckons t :=
  h c d (.refl c) hlt hd

/-- A stop on the way to an earlier cycle is one on the way to a later one. -/
theorem Stops.mono (hle : u ≤ t) (h : Stops u c d) : Stops t c d := by
  induction h with
  | refl c => exact .refl c
  | stop hlt hle' hend _ ih => exact .stop hlt (hle'.trans hle) hend ih

/-- **What fits on the way to a cycle** fits on the way to an earlier one. -/
theorem Fits.mono (h : c.Fits t) (hle : u ≤ t) : c.Fits u := by
  intro b d hb hlt hd
  have hreckons := h b d (hb.mono hle) (hlt.trans_le hle) (hd.mono (due_mono hle))
  exact ⟨hreckons.boundary, fun hdue => hreckons.byte (due_mono hle d hdue)⟩

/-- **What fits fits after a stop.** -/
theorem Fits.stop (h : c.Fits t) (hlt : c.synced < u) (hle : u ≤ t)
    (hend : events.EndsIn u c b) : (b.stop u).Fits t :=
  fun b' d hb => h b' d (.stop hlt hle hend hb)

/-- A stop leaves the length of a character alone. -/
theorem Stops.frame_eq (h : Stops t c d) : d.frame = c.frame := by
  induction h with
  | refl c => rfl
  | @stop c _ _ _ _ _ hend _ ih =>
    rw [ih, frame_stop]
    exact hend.invariant (P := fun b => b.frame = c.frame) (fun _ _ hb => frame_round.trans hb) rfl

/-- **Sums that end a character before 64 bits are over** fit. -/
theorem fits_of_lt (h : t + c.frame < 2 ^ 64) : c.Fits t := by
  intro b d hb hlt hd
  obtain ⟨hframe, hle⟩ := hd.invariant (P := fun d => d.frame = c.frame ∧ d.synced ≤ t)
    (fun d hdue hd => ⟨(frame_round (c := d)).trans hd.1, (synced_round (c := d)).symm ▸
      (due_iff.1 hdue).2⟩) ⟨hb.frame_eq, hlt.le⟩
  refine ⟨fun hidle => ?_, fun hdue _ => ?_⟩
  · have hreckoned := (lt_reckoned (frame_pos hidle.2)).2
    omega
  · have hle := (due_iff.1 hdue).2
    omega

/-! ### The clock comes to a stop -/

/-- The boundary to come is ahead of where the clock stands, or at 0, which means none. -/
def TxAhead (c : SerialClock) : Prop := c.armed = true → c.nextTx = 0 ∨ c.synced < c.nextTx

/-- The events the receiver has left. -/
def rxLeft (c : SerialClock) : Nat :=
  if c.rxBusy = false then 0 else if c.completed = true then 1 else 2

/-- **A round leaves the boundary to come ahead.** -/
theorem txAhead_round (hdue : events.due t c = true) (hfits : c.Reckons t)
    (hfits' : c.round.Reckons t) : c.round.TxAhead := by
  intro harmed'
  have harmed := armed_of_round harmed'
  cases hbusy' : c.round.txBusy with
  | false =>
    have hidle : c.round.Idle := ⟨hbusy', harmed'⟩
    rw [nextTx_of_idle hidle (hfits'.boundary hidle)]
    exact .inr (lt_reckoned (frame_pos harmed')).1
  | true =>
    have hnextTx : c.round.nextTx = c.round.busyUntil := by
      unfold nextTx
      rw [if_pos hbusy']
    rw [hnextTx, synced_round]
    cases htx : c.txDue with
    | false =>
      obtain ⟨hbusy, -, huntil, -⟩ := round_of_not_txDue htx
      have hsame : c.nextTx = c.busyUntil := by
        unfold nextTx
        rw [if_pos (hbusy.symm.trans hbusy')]
      have hne : c.nextTx ≠ c.next := fun heq => by
        unfold txDue at htx
        simp [harmed, heq] at htx
      rw [huntil, ← hsame]
      by_cases hzero : c.nextTx = 0
      · exact .inl hzero
      · have hle := next_le_nextTx harmed hzero
        omega
    | true =>
      rcases round_of_txDue htx with ⟨-, hidle, -⟩ | ⟨hstarts, -, huntil⟩ | ⟨hidle, -⟩
      · exact absurd (hidle.symm.trans hbusy') (by decide)
      · have hframe := frame_pos harmed
        rw [huntil, u64_of_lt (hfits.byte hdue hstarts)]
        omega
      · exact absurd (hidle.symm.trans hbusy') (by decide)

/-- The time left, with a whole run's worth for every event the receiver has left. -/
def left (t : Nat) (c : SerialClock) : Nat := c.rxLeft * (t + 1) + (t - c.synced)

/-- A round with an event of the receiver leaves it fewer. -/
theorem rxLeft_round : c.round.rxLeft < c.rxLeft
    ∨ c.round.rxLeft = c.rxLeft ∧ (c.rxBusy = true → c.next < c.rxNext) := by
  have hle := fun hbusy => next_le_rxNext (c := c) hbusy
  unfold rxLeft
  rw [rx_round.1, rx_round.2]
  unfold receive stop
  unfold rxNext at *
  cases hbusy : c.rxBusy <;> cases hcompleted : c.completed
  all_goals
    simp_all
    try split_ifs <;> simp_all
    try omega

/-- **A round leaves less time.** -/
theorem left_round (hahead : c.TxAhead) (hdue : events.due t c = true) :
    c.round.left t < c.left t := by
  have hnext := due_iff.1 hdue
  rcases rxLeft_round (c := c) with hfewer | ⟨hsame, hlt⟩
  · have hmul := Nat.mul_le_mul_right (t + 1) (Nat.succ_le_of_lt hfewer)
    rw [Nat.succ_mul] at hmul
    unfold left
    omega
  · -- a boundary, and time goes on
    have htx : c.txDue = true := by
      rcases next_cases hnext.1 with htx | ⟨-, hrx, heq⟩
      · exact htx
      · have hlt := hlt hrx
        omega
    simp only [txDue, Bool.and_eq_true, decide_eq_true_eq] at htx
    have hahead := hahead htx.1
    unfold left
    rw [hsame, synced_round]
    omega

/-- **The clock gets to a cycle** in some number of rounds, as long as its sums fit: from the
first round on every round leaves less time. -/
theorem exists_endsIn (hfits : c.Fits t) (hlt : c.synced < t) : ∃ d, events.EndsIn t c d := by
  cases hdue : events.due t c with
  | false => exact ⟨c, .of_not_due hdue⟩
  | true =>
    have hfirst : events.Reaches t c c.round := .fire hdue (.refl _)
    obtain ⟨d, hd⟩ := EventLoop.exists_endsIn (L := events) (t := t) (s := c.round)
      (P := fun d => events.Reaches t c d ∧ d.TxAhead) (left t)
      (fun d hdue ⟨hd, hahead⟩ =>
        have hd' := hd.fire_end hdue
        ⟨⟨hd', txAhead_round hdue (hfits.reckons hlt hd) (hfits.reckons hlt hd')⟩,
          left_round hahead hdue⟩)
      ⟨hfirst, txAhead_round hdue (hfits.reckons hlt (.refl c)) (hfits.reckons hlt hfirst)⟩
    exact ⟨d, (EventLoop.EndsIn.fire_iff hdue).2 hd⟩

/-! ### A stop on the way -/

/-- **Two clocks do the same next**, as far as a cycle. -/
structure SameNext (t : Nat) (b c : SerialClock) : Prop where
  /-- They have something to do, or neither has. -/
  due : events.due t b = events.due t c
  /-- At the same cycle. -/
  next : events.due t c = true → b.next = c.next
  /-- A boundary, or neither one. -/
  txDue : events.due t c = true → b.txDue = c.txDue

theorem SameNext.of_eq (hnext : b.next = c.next) (htx : c.next ≠ 0 → b.txDue = c.txDue) :
    SameNext t b c :=
  ⟨by simp [events, hnext], fun _ => hnext, fun hdue => htx (due_iff.1 hdue).1⟩

/-- A round does not depend on where the clock stands, but for what is due. -/
theorem round_stop (hnext : (c.stop u).next = c.next) (htx : (c.stop u).txDue = c.txDue) :
    (c.stop u).round = c.round := by
  unfold round
  rw [hnext, htx]
  rfl

/-- Stopping a clock whose boundary does not depend on it. -/
theorem sameNext_of_nextTx (htx : c.armed = true → (c.stop u).nextTx = c.nextTx) :
    SameNext t (c.stop u) c := by
  have hnext : (c.stop u).next = c.next := by
    unfold next
    rw [armed_stop, rxBusy_stop, rxNext_stop]
    cases harmed : c.armed with
    | false => rfl
    | true => rw [htx harmed]
  refine .of_eq hnext fun _ => ?_
  unfold txDue
  rw [hnext, armed_stop]
  cases harmed : c.armed with
  | false => rfl
  | true => rw [htx harmed]

/-- An event at 0 hides everything else. -/
theorem next_of_rxNext_zero (hbusy : c.rxBusy = true) (hzero : c.rxNext = 0) : c.next = 0 := by
  unfold next
  simp only [hbusy, if_true]
  split_ifs <;> omega

/-- The receiver's event comes first. -/
theorem next_of_rxNext_lt (hbusy : c.rxBusy = true) (hlt : c.rxNext < c.nextTx) :
    c.next = c.rxNext ∧ c.txDue = false := by
  have hnext : c.next = c.rxNext := by
    unfold next
    simp only [hbusy, if_true]
    split_ifs <;> omega
  refine ⟨hnext, ?_⟩
  unfold txDue
  rw [hnext]
  simp [hlt.ne']

/-- A clock at which nothing is due has its boundary behind the horizon. -/
theorem lt_nextTx_of_not_due (hdue : events.due u c = false) (harmed : c.armed = true)
    (hpos : c.nextTx ≠ 0) (hrx : c.rxBusy = true → c.rxNext ≠ 0) : u < c.nextTx := by
  have hle := next_le_nextTx harmed hpos
  rcases not_due_iff.1 hdue with hzero | hlt
  · exfalso
    unfold next at hzero
    simp only [harmed, if_true] at hzero
    split_ifs at hzero with hbusy hfirst
    · exact hrx hbusy hzero
    · exact hpos hzero
    · exact hpos hzero
  · omega

/-- A boundary that is the next event. -/
theorem nextTx_of_txDue (h : c.txDue = true) : c.nextTx = c.next := by
  unfold txDue at h
  simp only [Bool.and_eq_true, decide_eq_true_eq] at h
  exact h.2

/-- The boundary of a clock off the grid is a character from where it stands. -/
theorem OffGrid.next_eq (h : c.OffGrid) (hfits : c.Reckons t) :
    c.next = c.synced + c.frame ∧ c.next ≠ 0 := by
  have hframe := frame_pos h.idle.2
  rw [← nextTx_of_txDue h.due, nextTx_of_idle h.idle (hfits.boundary h.idle),
    reckoned_of_lt h.behind]
  omega

/-- **A clock that has been taken back, and stopped**, does what it would have done, unless it is
off the grid: only the receiver may be next, or nothing up to `t`. -/
theorem sameNext_stop_of_behind (hidle : b.Idle) (hoff : b.synced < b.anchor)
    (hne : b.next ≠ 0) (htx : b.nextTx ≠ 0) (hlater : b.nextTx < (b.stop u).nextTx)
    (hprompt : b.OffGrid → t < b.next) : SameNext t (b.stop u) b := by
  cases hdue : b.txDue with
  | true =>
    have hlate := hprompt ⟨hidle, hoff, hdue⟩
    have heq := nextTx_of_txDue hdue
    have hnone : events.due t b = false := not_due_iff.2 (.inr hlate)
    have hnone' : events.due t (b.stop u) = false := by
      by_contra hdue'
      obtain ⟨hne', hle'⟩ := due_iff.1 (Bool.of_not_eq_false hdue')
      rcases next_cases hne' with htx' | ⟨-, hbusy, hrx⟩
      · have heq' := nextTx_of_txDue htx'
        omega
      · have hfirst := next_le_rxNext (c := b) hbusy
        rw [rxNext_stop] at hrx
        omega
    exact ⟨hnone'.trans hnone.symm, fun hdue => absurd (hnone.symm.trans hdue) (by decide),
      fun hdue => absurd (hnone.symm.trans hdue) (by decide)⟩
  | false =>
    rcases next_cases hne with hnow | ⟨-, hbusy, hrx⟩
    · exact absurd (hnow.symm.trans hdue) (by decide)
    have hfirst := next_le_nextTx hidle.2 htx
    have hneq : b.nextTx ≠ b.next := fun heq => by
      unfold txDue at hdue
      simp [hidle.2, heq] at hdue
    obtain ⟨hnext, htxDue⟩ := next_of_rxNext_lt hbusy (by omega)
    obtain ⟨hnext', htxDue'⟩ := next_of_rxNext_lt (c := b.stop u) hbusy
      (by rw [rxNext_stop]; omega)
    exact .of_eq (hnext'.trans hnext.symm) fun _ => htxDue'.trans htxDue.symm

/-- **Stopping a clock at which nothing is due**, and starting it again, does not change
what comes next, unless that is off the grid. -/
theorem sameNext_stop (hanchor : b.anchor ≤ u) (hsynced : b.synced ≤ u)
    (hend : events.due u b = false) (hfits : b.Reckons t) (hfits' : (b.stop u).Reckons t)
    (hprompt : b.OffGrid → t < b.next) : SameNext t (b.stop u) b := by
  by_cases hidle : b.Idle
  swap
  · refine sameNext_of_nextTx fun harmed => ?_
    have hbusy : b.txBusy = true := by
      by_contra hnot
      exact hidle ⟨by simpa using hnot, harmed⟩
    unfold nextTx
    rw [txBusy_stop, if_pos hbusy, if_pos hbusy]
    rfl
  by_cases hstuck : b.rxBusy = true ∧ b.rxNext = 0
  · have hzero := next_of_rxNext_zero hstuck.1 hstuck.2
    exact .of_eq ((next_of_rxNext_zero (c := b.stop u) hstuck.1 hstuck.2).trans hzero.symm)
      fun hne => absurd hzero hne
  have hlt := (lt_reckoned (frame_pos hidle.2)).1
  have htx := nextTx_of_idle hidle (hfits.boundary hidle)
  have htx' := nextTx_of_idle (c := b.stop u) hidle (hfits'.boundary hidle)
  have hbehind := lt_nextTx_of_not_due hend hidle.2 (by omega) fun hbusy hzero =>
    hstuck ⟨hbusy, hzero⟩
  rcases Nat.lt_or_ge b.synced b.anchor with hoff | hgrid
  · have hlater : b.nextTx < (b.stop u).nextTx := by
      have hcharacter := le_reckoned_stop hanchor
      rw [htx, htx', reckoned_of_lt hoff]
      omega
    have hne : b.next ≠ 0 := fun hzero => by
      unfold next at hzero
      simp only [hidle.2, if_true] at hzero
      split_ifs at hzero with hbusy hfirst
      · exact hstuck ⟨hbusy, hzero⟩
      · omega
      · omega
    exact sameNext_stop_of_behind hidle hoff hne (by omega) hlater hprompt
  · refine sameNext_of_nextTx fun _ => ?_
    rw [htx', htx, reckoned_stop hgrid hsynced (htx ▸ hbehind)]

/-- Where the clock is when it gets to a cycle: the anchor and where it stands are in the
past. -/
theorem le_of_endsIn (hanchor : c.anchor ≤ c.synced) (hlt : c.synced < u)
    (hend : events.EndsIn u c b) : b.anchor ≤ u ∧ b.synced ≤ u := by
  refine hend.invariant (P := fun b => b.anchor ≤ u ∧ b.synced ≤ u) (fun b hdue hb => ?_)
    ⟨hanchor.trans hlt.le, hlt.le⟩
  have hle := (due_iff.1 hdue).2
  change b.round.anchor ≤ u ∧ b.round.synced ≤ u
  rw [synced_round]
  rcases anchor_round (c := b) with hsame | hsame <;> rw [hsame]
  · exact ⟨hb.1, hle⟩
  · exact ⟨hle, hle⟩

/-- **A clock that may be stopped anywhere** may be stopped again after it was, and what it
does next is what it would have done. -/
theorem Cuttable.stop (h : c.Cuttable t) (hlt : c.synced < u) (hle : u ≤ t)
    (hend : events.EndsIn u c b) :
    (b.stop u).Cuttable t ∧ (u < t → SameNext t (b.stop u) b) := by
  obtain ⟨hanchor, hsynced⟩ := le_of_endsIn h.anchor_le hlt hend
  have hsame (hut : u < t) : SameNext t (b.stop u) b := by
    have hfits := h.fits.reckons (hlt.trans hut) (hend.reaches.mono (due_mono hle))
    refine sameNext_stop hanchor hsynced hend.not_due hfits
      ((h.fits.stop hlt hle hend).reckons hut (.refl _)) fun hoff => ?_
    by_contra hnext
    have hlater := (not_due_iff.1 hend.not_due).resolve_left (hoff.next_eq hfits).2
    exact h.prompt ⟨u, b, hlt, hend, hoff, hlater, by omega⟩
  refine ⟨⟨hanchor, h.fits.stop hlt hle hend, ?_⟩, hsame⟩
  rintro ⟨v, d, huv, hd, hoff, hv, hnext⟩
  rw [synced_stop] at huv
  have hsame := hsame (by omega)
  cases hdue : events.due v (b.stop u) with
  | false =>
    have hbehind := hoff.behind
    rw [hd.eq_of_not_due hdue, anchor_stop, synced_stop] at hbehind
    omega
  | true =>
    -- the two do the same from here on, so the clock would have been off the grid anyway
    have hdue' := hsame.due.symm.trans (due_mono (by omega) _ hdue)
    have hnext' := hsame.next hdue'
    have hround := round_stop hnext' (hsame.txDue hdue')
    have hdue'' : events.due v b = true := by
      rw [due_iff] at hdue ⊢
      rwa [← hnext']
    have hd' : events.EndsIn v b d := by
      refine (EventLoop.EndsIn.fire_iff hdue'').2 ?_
      change events.EndsIn v b.round d
      rw [← hround]
      exact (EventLoop.EndsIn.fire_iff hdue).1 hd
    exact h.prompt ⟨v, d, by omega, (EventLoop.EndsIn.cut_iff (due_mono huv.le) hend).2 hd', hoff,
      hv, hnext⟩

end Stopping

/-! ## Clocks that may not be stopped -/

section Lagging

variable {c b d : SerialClock} {s t u : Nat}

/-- The receiver is done with a byte after a round, or the byte's next event is later. -/
theorem lt_rxNext_round (h : c.completed = true) (hbusy : c.round.rxBusy = true) :
    c.next < c.round.rxNext := by
  have hordered : c.Ordered := fun _ hnot => absurd (h.symm.trans hnot) (by decide)
  rcases round_rx hordered with ⟨-, -, -, hfree⟩ | ⟨-, hnot, -⟩ | ⟨hlt, hsame, hsame'⟩
  · exact absurd (hfree.symm.trans hbusy) (by decide)
  · exact absurd (h.symm.trans hnot) (by decide)
  · have hlt := hlt (hsame.symm.trans hbusy)
    unfold rxNext at hlt ⊢
    rwa [hsame', freeAt_round, rdrfAt_round]

/-- Nothing is due at the cycle of a round once it has happened, if no byte comes in that is
not complete. -/
theorem not_due_round (hdue : events.due t c = true) (hfits : c.Reckons t)
    (hfits' : c.round.Reckons t) (hrx : c.rxBusy = true → c.completed = true) :
    events.due c.next c.round = false := by
  have hahead := txAhead_round hdue hfits hfits'
  refine not_due_iff.2 (or_iff_not_imp_left.2 fun hne => ?_)
  rcases next_cases hne with htx | ⟨-, hbusy, heq⟩
  · have harmed : c.round.armed = true := by
      unfold txDue at htx
      simp only [Bool.and_eq_true] at htx
      exact htx.1
    rcases hahead harmed with hzero | hlt
    · exact absurd ((nextTx_of_txDue htx).symm.trans hzero) hne
    · rwa [nextTx_of_txDue htx, synced_round] at hlt
  · have hbusy' : c.rxBusy = true := by
      by_contra hnot
      rw [rx_round.1] at hbusy
      unfold receive stop at hbusy
      simp [hnot] at hbusy
    rw [← heq]
    exact lt_rxNext_round (hrx hbusy') hbusy

/-- **A clock off the grid that is stopped** leaves the transmitter alone up to the cycle of
the boundary: it comes a character after the anchor now. -/
theorem OffGrid.endsIn_stop (h : b.OffGrid) (hanchor : b.anchor ≤ u)
    (hfits : b.Reckons b.next) (hrx : b.rxBusy = true → b.completed = true)
    (hfits' : ∀ d, events.Reaches b.next (b.stop u) d → d.Reckons b.next)
    (hend : events.EndsIn b.next (b.stop u) d) :
    d.txBusy = false ∧ d.broke = b.broke ∧ d.anchor = b.anchor := by
  have hnext := (h.next_eq hfits).1
  have hbehind := h.behind
  have hcharacter := le_reckoned_stop hanchor
  have htx := nextTx_of_idle (c := b.stop u) h.idle ((hfits' _ (.refl _)).boundary h.idle)
  cases hdue : events.due b.next (b.stop u) with
  | false =>
    rw [hend.eq_of_not_due hdue]
    exact ⟨h.idle.1, rfl, rfl⟩
  | true =>
    -- the byte's character is over; its boundary is later
    obtain ⟨hne, hle⟩ := due_iff.1 hdue
    have hnot : (b.stop u).txDue = false := by
      by_contra htxDue
      have heq := nextTx_of_txDue (Bool.of_not_eq_false htxDue)
      omega
    obtain ⟨hbusy, hbroke, -, hsame⟩ := round_of_not_txDue hnot
    have hidle : (b.stop u).round.Idle := (idle_round_iff hnot).2 h.idle
    have hnext' : (b.stop u).next = b.next := by
      rcases next_cases hne with htxDue | ⟨-, hrxBusy, heq⟩
      · exact absurd (htxDue.symm.trans hnot) (by decide)
      · have hfirst := next_le_rxNext (c := b) hrxBusy
        rw [rxNext_stop] at heq
        omega
    have hend' := (EventLoop.EndsIn.fire_iff hdue).1 hend
    have hrest : events.due b.next (b.stop u).round = false := by
      have hnone := not_due_round hdue (hfits' _ (.refl _)) (hfits' _ (.fire hdue (.refl _))) hrx
      rwa [hnext'] at hnone
    rw [hend'.eq_of_not_due hrest]
    exact ⟨hbusy.trans h.idle.1, hbroke, hsame⟩

/-- **A clock that lags may not be stopped**: there is a cycle at which stopping it changes
where it ends. -/
theorem Lags.exists_stop (h : c.Lags t) (hanchor : c.anchor ≤ c.synced) (hfits : c.Fits t) :
    ∃ u v b d e, c.synced < u ∧ u < v ∧ v ≤ t ∧ events.EndsIn u c b
      ∧ events.EndsIn v (b.stop u) d ∧ events.EndsIn v c e ∧ d.stop v ≠ e.stop v := by
  obtain ⟨u, b, hlt, hend, hoff, hv, hnext⟩ := h
  have hut : u ≤ t := hv.le.trans hnext
  obtain ⟨hanchor', -⟩ := le_of_endsIn hanchor hlt hend
  have hreach := hend.reaches.mono (due_mono hut)
  have hb := hfits.reckons (hlt.trans_le hut) hreach
  have hstop := (hfits.stop hlt hut hend).mono hnext
  have hdue : events.due b.next b = true := due_iff.2 ⟨by omega, le_rfl⟩
  -- the byte that took the clock back is complete
  have hfresh : b.Fresh := hend.invariant (P := Fresh)
    (fun b hdue _ => Fresh.round (due_iff.1 hdue).1) fun _ _ _ => hanchor
  have hrx (hbusy : b.rxBusy = true) : b.completed = true := by
    by_contra hnot
    have hle := hfresh hoff.idle hbusy (by simpa using hnot)
    exact absurd hoff.behind (by omega)
  obtain ⟨d, hd⟩ := exists_endsIn hstop hv
  obtain ⟨hidle, hbroke, hsame⟩ := hoff.endsIn_stop hanchor'
    ⟨hb.boundary, fun hdue' => hb.byte (due_mono hnext _ hdue')⟩ hrx
    (fun d hd => hstop.reckons hv hd) hd
  have hrest := not_due_round (due_mono hnext _ hdue) hb
    (hfits.reckons (hlt.trans_le hut) (hreach.fire_end (due_mono hnext _ hdue))) hrx
  have he : events.EndsIn b.next c b.round := (EventLoop.EndsIn.cut_iff (due_mono hv.le) hend).2
    ((EventLoop.EndsIn.fire_iff hdue).2 (.of_not_due hrest))
  refine ⟨u, b.next, b, d, b.round, hlt, hv, hnext, hend, hd, he, fun heq => ?_⟩
  have htxBusy : d.txBusy = b.round.txBusy := (congrArg txBusy heq :)
  have hbroke' : d.broke = b.round.broke := (congrArg broke heq :)
  have hanchored : d.anchor = b.round.anchor := (congrArg anchor heq :)
  rcases round_of_txDue hoff.due with ⟨hbreaks, -, hbegun⟩ | ⟨-, hstarted, -⟩ | ⟨-, -, hmoved⟩
  · have harmed := hoff.idle.2
    unfold armed at harmed
    simp [hoff.idle.1, hbreaks, ← hbroke, hbroke', hbegun] at harmed
  · rw [← htxBusy, hidle] at hstarted
    exact absurd hstarted (by decide)
  · omega

/-! ### When a clock lags -/

/-- **The receiver's last event before a boundary could come**, reckoned from its next
one. -/
def rxLast (c : SerialClock) : Nat :=
  if c.completed = true ∨ c.freeAt < c.rdrfAt + c.frame then c.freeAt else c.rdrfAt

/-- **When a byte takes the clock back** whose parts come in order, told by where the clock
stands: the last event of the byte before a boundary could come is before the anchor, and
the boundary a character after it is neither the very next cycle nor too late. -/
structure Lagging (t : Nat) (c : SerialClock) : Prop where
  /-- The transmitter is idle. -/
  idle : c.Idle
  /-- A byte comes in. -/
  rxBusy : c.rxBusy = true
  /-- Its next event is one. -/
  rxNext_ne : c.rxNext ≠ 0
  /-- The byte takes the clock back to before the anchor. -/
  behind : c.rxLast < c.anchor
  /-- There is room to stop before the boundary. -/
  room : c.synced + 1 < c.rxLast + c.frame
  /-- The boundary comes on the way. -/
  reached : c.rxLast + c.frame ≤ t

theorem not_offGrid (h : c.anchor ≤ c.synced) : ¬ c.OffGrid := fun hoff =>
  absurd hoff.behind (by omega)

/-- An idle clock before its anchor is off the grid, if the receiver leaves it the time. -/
theorem offGrid_of_rxNext (hidle : c.Idle) (hbehind : c.synced < c.anchor) (hfits : c.Reckons t)
    (hrx : c.rxBusy = true → c.synced + c.frame ≤ c.rxNext) : c.OffGrid := by
  have htx := nextTx_of_idle hidle (hfits.boundary hidle)
  rw [reckoned_of_lt hbehind] at htx
  have hframe := frame_pos hidle.2
  have hnext : c.nextTx = c.next := by
    unfold next
    simp only [hidle.2, if_true]
    split_ifs with hbusy hfirst
    · have hle := hrx hbusy
      omega
    · rfl
    · rfl
  refine ⟨hidle, hbehind, ?_⟩
  unfold txDue
  simp [hidle.2, hnext]

/-- **A settled clock is never off the grid.** -/
theorem Settled.not_lagsAfter (h : c.Settled) (hordered : c.Ordered) : ¬ c.LagsAfter s t := by
  rintro ⟨u, b, -, hend, hoff, -, -⟩
  obtain ⟨hsettled, -⟩ := hend.invariant (P := fun b => b.Settled ∧ b.Ordered)
    (fun b hdue hb => ⟨hb.1.round hb.2 (due_iff.1 hdue).1, hb.2.round⟩) ⟨h, hordered⟩
  exact not_offGrid (hsettled hoff.idle).1 hoff

/-- A clock on the grid lags only if it does after its next event. -/
theorem LagsAfter.round (h : c.LagsAfter s t) (hgrid : ¬ c.OffGrid) : c.round.LagsAfter s t := by
  obtain ⟨u, b, hlt, hend, hoff, hu, hnext⟩ := h
  refine ⟨u, b, hlt, ?_, hoff, hu, hnext⟩
  cases hdue : events.due u c with
  | false => exact absurd (hend.eq_of_not_due hdue ▸ hoff) hgrid
  | true => exact (EventLoop.EndsIn.fire_iff hdue).1 hend

/-- An event that is in the past already cannot be stopped before. -/
theorem lagsAfter_round_iff (hgrid : ¬ c.OffGrid) (hne : c.next ≠ 0) (hle : c.next ≤ s) :
    c.LagsAfter s t ↔ c.round.LagsAfter s t := by
  refine ⟨fun h => h.round hgrid, ?_⟩
  rintro ⟨u, b, hlt, hend, hrest⟩
  exact ⟨u, b, hlt, (EventLoop.EndsIn.fire_iff (due_iff.2 ⟨hne, hle.trans hlt.le⟩)).2 hend, hrest⟩

/-- **A clock off the grid lags** if there is a cycle to stop it at before the boundary. -/
theorem OffGrid.lagsAfter_iff (h : c.OffGrid) (hordered : c.Ordered) (hfits : c.Reckons t) :
    c.LagsAfter s t ↔ s + 1 < c.synced + c.frame ∧ c.synced + c.frame ≤ t := by
  obtain ⟨hnext, hne⟩ := h.next_eq hfits
  rw [← hnext]
  constructor
  · rintro ⟨u, b, hlt, hend, hoff, hu, hle⟩
    cases hdue : events.due u c with
    | false =>
      rw [hend.eq_of_not_due hdue] at hu hle
      exact ⟨by omega, hle⟩
    | true =>
      exact absurd ⟨u, b, hlt, (EventLoop.EndsIn.fire_iff hdue).1 hend, hoff, hu, hle⟩
        ((settled_of_txDue hordered h.due).not_lagsAfter (s := s) (t := t) hordered.round)
  · rintro ⟨hroom, hle⟩
    exact ⟨s + 1, c, by omega, .of_not_due (not_due_iff.2 (.inr hroom)), h, hroom, hle⟩

/-- A clock off the grid into which no byte comes any more. -/
theorem lagsAfter_iff_of_freed (hidle : c.Idle) (hfreed : c.rxBusy = false)
    (hbehind : c.synced < c.anchor) (hfits : c.Reckons t) :
    c.LagsAfter s t ↔ s + 1 < c.synced + c.frame ∧ c.synced + c.frame ≤ t := by
  have hordered : c.Ordered := fun hbusy => absurd (hfreed.symm.trans hbusy) (by decide)
  have hoff := offGrid_of_rxNext hidle hbehind hfits fun hbusy =>
    absurd (hfreed.symm.trans hbusy) (by decide)
  exact hoff.lagsAfter_iff hordered hfits

/-- A clock that has been taken back to where a byte was complete, with the byte's character
to be over later: either that is before a boundary could come, or the boundary comes
first. -/
theorem lagsAfter_iff_of_completed (hidle : c.Idle) (hbusy : c.rxBusy = true)
    (hcompleted : c.completed = true) (hlater : c.synced < c.freeAt)
    (hbehind : c.synced < c.anchor) (hanchor : c.anchor ≤ s) (hlt : s < t)
    (hfits : ∀ d, events.Reaches t c d → d.Reckons t) : c.LagsAfter s t ↔
      (if c.freeAt < c.synced + c.frame then c.freeAt else c.synced) < c.anchor
      ∧ s + 1 < (if c.freeAt < c.synced + c.frame then c.freeAt else c.synced) + c.frame
      ∧ (if c.freeAt < c.synced + c.frame then c.freeAt else c.synced) + c.frame ≤ t := by
  have hordered : c.Ordered := fun _ hnot => absurd (hcompleted.symm.trans hnot) (by decide)
  have hc := hfits c (.refl c)
  have hrxNext : c.rxNext = c.freeAt := by
    unfold rxNext
    rw [if_pos hcompleted]
  split_ifs with hsoon
  · have htx := nextTx_of_idle hidle (hc.boundary hidle)
    rw [reckoned_of_lt hbehind] at htx
    obtain ⟨hnext, htxDue⟩ := next_of_rxNext_lt hbusy (by omega)
    have hgrid : ¬ c.OffGrid := fun h => absurd (h.due.symm.trans htxDue) (by decide)
    have hidle' := (idle_round_iff htxDue).2 hidle
    obtain ⟨-, -, -, hsame⟩ := round_of_not_txDue htxDue
    have hfreed : c.round.rxBusy = false := by
      rcases round_rx hordered with ⟨-, -, -, hfreed⟩ | ⟨-, hnot, -⟩ | ⟨hlater, -, -⟩
      · exact hfreed
      · exact absurd (hcompleted.symm.trans hnot) (by decide)
      · have hlater := hlater hbusy
        omega
    rcases Nat.lt_or_ge c.freeAt c.anchor with hbefore | hbeyond
    · have hdue : events.due t c = true := due_iff.2 ⟨by omega, by omega⟩
      rw [lagsAfter_round_iff hgrid (by omega) (by omega), lagsAfter_iff_of_freed hidle' hfreed
        (by rw [synced_round, hsame]; omega) (hfits _ (.fire hdue (.refl _))), synced_round,
        frame_round, hnext, hrxNext]
      exact ⟨fun h => ⟨hbefore, h⟩, fun h => h.2⟩
    · -- the character is over at the anchor or after, and the clock is back on the grid
      refine iff_of_false (fun h => ?_) fun h => absurd h.1 (by omega)
      have hsettled : c.round.Settled := fun _ =>
        ⟨by rw [synced_round, hsame]; omega, fun h => absurd (hfreed.symm.trans h) (by decide)⟩
      exact hsettled.not_lagsAfter hordered.round (h.round hgrid)
  · have hoff := offGrid_of_rxNext hidle hbehind hc fun _ => by omega
    rw [hoff.lagsAfter_iff hordered hc]
    exact ⟨fun h => ⟨hbehind, h⟩, fun h => h.2⟩

/-- The receiver's last event is its next one or comes after it. -/
theorem rxNext_le_rxLast (hordered : c.Ordered) (hbusy : c.rxBusy = true) :
    c.rxNext ≤ c.rxLast := by
  have hle := hordered hbusy
  unfold rxNext rxLast
  cases hcompleted : c.completed with
  | true => simp
  | false =>
    have hle := hle hcompleted
    simp only [Bool.false_eq_true, if_false, false_or]
    split_ifs <;> omega

/-- **A late byte**: its next event comes at once, and then its character is over, or it is
complete and its character is over later. -/
theorem lags_iff_of_late (hanchor : c.anchor ≤ c.synced) (hordered : c.Ordered) (hfits : c.Fits t)
    (hlt : c.synced < t) (hidle : c.Idle) (hbusy : c.rxBusy = true) (hne : c.rxNext ≠ 0)
    (hlate : c.rxNext < c.anchor) : c.Lags t ↔ c.Lagging t := by
  have hfits (d : SerialClock) (hd : events.Reaches t c d) : d.Reckons t := hfits.reckons hlt hd
  have htx := nextTx_of_idle hidle ((hfits c (.refl c)).boundary hidle)
  have hpos := (lt_reckoned (frame_pos hidle.2)).1
  obtain ⟨hnext, htxDue⟩ := next_of_rxNext_lt hbusy (by omega)
  have hdue : events.due t c = true := due_iff.2 ⟨by omega, by omega⟩
  have hidle' := (idle_round_iff htxDue).2 hidle
  obtain ⟨-, -, -, hsame⟩ := round_of_not_txDue htxDue
  have hbehind : c.round.synced < c.round.anchor := by
    rw [synced_round, hsame]
    omega
  have hround : c.Lags t ↔ c.round.LagsAfter c.synced t :=
    lagsAfter_round_iff (not_offGrid hanchor) (by omega) (by omega)
  have hlagging : c.Lagging t ↔ c.rxLast < c.anchor ∧ c.synced + 1 < c.rxLast + c.frame
      ∧ c.rxLast + c.frame ≤ t :=
    ⟨fun h => ⟨h.behind, h.room, h.reached⟩, fun h => ⟨hidle, hbusy, hne, h.1, h.2.1, h.2.2⟩⟩
  rw [hround, hlagging]
  -- the round frees the chip or completes a byte; that it does neither a late boundary rules out
  rcases round_rx hordered with ⟨-, -, hfree, hfreed⟩ | ⟨-, hcompleted, hrdrf, hafter, hbusy', hdone⟩
    | ⟨hlater, -, -⟩
  · have hlast : c.rxLast = c.next := by
      unfold rxNext at hnext
      unfold rxLast
      have hframe := frame_pos hidle.2
      cases hcompleted : c.completed <;> simp only [hcompleted, Bool.false_eq_true, if_false,
        false_or, true_or, if_true] at hnext ⊢
      · rw [if_pos (by omega), hfree]
      · exact hfree
    rw [lagsAfter_iff_of_freed hidle' hfreed hbehind (hfits _ (.fire hdue (.refl _))), synced_round,
      frame_round, hlast]
    exact ⟨fun h => ⟨by omega, h⟩, fun h => h.2⟩
  · have hlast : c.rxLast = if c.freeAt < c.next + c.frame then c.freeAt else c.next := by
      unfold rxLast
      simp [hcompleted, hrdrf]
    rw [lagsAfter_iff_of_completed hidle' hbusy' hdone (by rw [synced_round, freeAt_round]; exact hafter)
      hbehind (by omega) hlt fun d hd => hfits d (.fire hdue hd), synced_round, frame_round,
      freeAt_round, hsame, hlast]
  · have hlater := hlater hbusy
    omega

/-- **When a clock lags**, told by where it stands: only a late byte makes it. -/
theorem lags_iff (hanchor : c.anchor ≤ c.synced) (hordered : c.Ordered) (hfits : c.Fits t) :
    c.Lags t ↔ c.Lagging t := by
  by_cases hlt : c.synced < t
  swap
  · refine iff_of_false ?_ fun h => hlt ?_
    · rintro ⟨u, b, hu, -, -, hv, hnext⟩
      omega
    · have hroom := h.room
      have hreached := h.reached
      omega
  by_cases hidle : c.Idle
  swap
  · exact iff_of_false (Settled.not_lagsAfter (fun h => absurd h hidle) hordered) fun h => hidle h.idle
  by_cases hbusy : c.rxBusy = true
  swap
  · exact iff_of_false (Settled.not_lagsAfter (fun _ => ⟨hanchor, fun h => absurd h hbusy⟩) hordered)
      fun h => hbusy h.rxBusy
  by_cases hzero : c.rxNext = 0
  · -- an event at 0 hides the others, and nothing happens
    refine iff_of_false ?_ fun h => h.rxNext_ne hzero
    rintro ⟨u, b, -, hend, hoff, -⟩
    have hnone : events.due u c = false :=
      not_due_iff.2 (.inl (next_of_rxNext_zero hbusy hzero))
    rw [hend.eq_of_not_due hnone] at hoff
    exact not_offGrid hanchor hoff
  rcases Nat.lt_or_ge c.rxNext c.anchor with hlate | hprompt
  · exact lags_iff_of_late hanchor hordered hfits hlt hidle hbusy hzero hlate
  · have hlast := rxNext_le_rxLast hordered hbusy
    exact iff_of_false (Settled.not_lagsAfter (fun _ => ⟨hanchor, fun _ => hprompt⟩) hordered) fun h =>
      absurd h.behind (by omega)

end Lagging

end LinApple.Chips.SerialClock
