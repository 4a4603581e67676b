import LinApple.Chips.AciaRounds
import LinApple.Chips.SerialStops

/-!
# Time cut differently

Every event of the 6551 should run at its own cycle, whatever the cycles at which the
chip is brought up to date: two runs of a card that differ only in when they ask the chip
should leave it in the same state, with the same bytes handed out. `sendAll_cut` says
when that is so, for every chip that any operations of a card lead to.

The chip is brought up to a cycle by `send_bytes`, which asks for bytes until none is
left, and a run that is cut asks at every cut. So there are two things to compare: the
states, and the bytes over the whole of the run. The states are the same up to one field,
`previous_synced`, which says where the chip stood before and is meant to differ (`Same`).
The bytes are compared in order. As a chip has room for one byte to be handed out, it
matters that a second one never comes before the first is taken: after a byte has gone out
on the way to a cycle no other does (`Spent`), because the chip either sends or echoes,
and has one byte to do it with.

All that depends on time is the clock's (`SerialStops`), and so is the condition. The
boundaries the chip reckons must fit into 64 bits, and a byte that comes in must not take
the chip back so that a boundary is reckoned from there, which happens where a byte was
over before it was asked for. Both speak of what the chip does on the way and not of the
cycle it is brought up to: the first is needed for the loop to end as well, and under it
the second is exactly what it takes. Where it fails, there is a cycle on the way, not
after the last, up to which the runs differ. It is told by the state of the chip alone
where the times of the byte are in order, which a sum beyond 64 bits or time set back
while a byte is late can undo.
-/

namespace LinApple.Chips.Acia6551

variable {a b c d : Acia6551} {t u now : Nat}

/-! ## The loop ends -/

/-- **The chip's loop ends where its clock's does.** -/
theorem endsIn_clock (hmasked : a.ErrorsMasked) (h : events.EndsIn t a b) :
    SerialClock.events.EndsIn t a.clock b.clock := by
  obtain ⟨c, hc, -, rfl⟩ := h.congr (K := SerialClock.events)
    (R := fun a c => a.ErrorsMasked ∧ a.clock = c) (fun _ _ ⟨_, hclock⟩ => hclock ▸ (due_clock t).symm)
    (fun _ _ ⟨hmasked, hclock⟩ _ => ⟨hmasked.advanceRound, hclock ▸ clock_advanceRound hmasked⟩)
    ⟨hmasked, rfl⟩
  exact hc

/-- **Where the clock's loop ends the chip's does.** -/
theorem exists_endsIn_of_clock {c : SerialClock} (hmasked : a.ErrorsMasked)
    (h : SerialClock.events.EndsIn t a.clock c) :
    ∃ b, events.EndsIn t a b ∧ b.ErrorsMasked ∧ b.clock = c :=
  h.congr (K := events) (R := fun c a => a.ErrorsMasked ∧ a.clock = c)
    (fun _ _ ⟨_, hclock⟩ => hclock ▸ due_clock t)
    (fun _ _ ⟨hmasked, hclock⟩ _ => ⟨hmasked.advanceRound, hclock ▸ clock_advanceRound hmasked⟩)
    ⟨hmasked, rfl⟩

/-- **The loop of `advance` ends**, whatever the state and the settings, as long as no
boundary it reckons goes beyond 64 bits. -/
theorem exists_endsIn (hmasked : a.ErrorsMasked) (hfits : a.clock.Fits t) (hlt : a.synced < t) :
    ∃ b, events.EndsIn t a b := by
  obtain ⟨c, hc⟩ := SerialClock.exists_endsIn hfits hlt
  obtain ⟨b, hb, -⟩ := exists_endsIn_of_clock hmasked hc
  exact ⟨b, hb⟩

/-- The chip gets to a cycle, in some number of rounds and in any greater one. -/
def Advances (a : Acia6551) (now : Nat) (b : Acia6551) : Prop :=
  ∃ enough, ∀ rounds, enough ≤ rounds → a.advance rounds now = some b

/-- The chip where it stands. -/
theorem advances_self : a.Advances a.synced a :=
  ⟨0, fun rounds _ => by
    unfold advance
    rw [if_neg (Nat.lt_irrefl _), if_pos rfl]⟩

/-- **Bringing the chip up to a later cycle** is running its loop. -/
theorem advances_of_endsIn (hlt : a.synced < now)
    (h : events.EndsIn now { a with previousSynced := a.synced } b) :
    a.Advances now { b with synced := now } := by
  obtain ⟨enough, hb⟩ := h
  refine ⟨enough, fun rounds hle => ?_⟩
  unfold advance
  rw [if_neg (by omega), if_neg (by omega), EventLoop.runTo_mono hb hle]
  rfl

/-- The loop leaves the chip at the cycle it was brought up to. -/
theorem synced_of_advance {rounds : Nat} (h : a.advance rounds now = some b) : b.synced = now := by
  unfold advance at h
  split_ifs at h with hlt heq
  · cases h
    rfl
  · cases h
    exact heq.symm
  · obtain ⟨c, -, hc⟩ := Option.map_eq_some_iff.1 h
    rw [← hc]

theorem Advances.synced_eq (h : a.Advances now b) : b.synced = now := by
  obtain ⟨enough, hb⟩ := h
  exact synced_of_advance (hb enough le_rfl)

/-- **A chip can always be brought up to a cycle**, if the boundaries on the way fit. -/
theorem exists_advances (hmasked : a.ErrorsMasked) (hfits : a.clock.Fits now) :
    ∃ b, a.Advances now b := by
  rcases Nat.lt_trichotomy now a.synced with hlt | rfl | hlt
  · exact ⟨a.rebase now, 0, fun rounds _ => by
      unfold advance
      rw [if_pos hlt]⟩
  · exact ⟨a, advances_self⟩
  · obtain ⟨b, hb⟩ := exists_endsIn (a := { a with previousSynced := a.synced }) hmasked hfits hlt
    exact ⟨_, advances_of_endsIn hlt hb⟩

/-! ## Bytes handed out -/

/-- The byte that waits to be handed out. -/
def pending (a : Acia6551) : List UInt8 := if a.hasPendingOut then [a.pendingOut] else []

/-- The chip with nothing to hand out. -/
def handedOut (a : Acia6551) : Acia6551 := { a with hasPendingOut := false }

/-- The chip gets to a cycle and hands out bytes, in some number of rounds and in any
greater one. -/
def Sends (a : Acia6551) (now : Nat) (b : Acia6551) (bytes : List UInt8) : Prop :=
  ∃ enough, ∀ rounds, enough ≤ rounds → a.sendBytes rounds now = some (b, bytes)

/-- **What is handed out** is the byte that waited and the byte that goes out on the way. -/
theorem sends_of_advances (h : a.handedOut.Advances now b) (hsynced : b.synced = now) :
    a.Sends now b.handedOut (a.pending ++ b.pending) := by
  obtain ⟨enough, hb⟩ := h
  refine ⟨enough + 3, fun rounds hle => ?_⟩
  have hb := hb rounds (by omega)
  have hagain : b.handedOut.advance rounds now = some b.handedOut := by
    unfold advance
    rw [if_neg (by simp [handedOut, hsynced]), if_pos (by simp [handedOut, hsynced])]
  -- the chip without the byte that waited
  have hlast (n : Nat) : b.handedOut.sendLoop rounds now (n + 1) = some (b.handedOut, []) := by
    unfold sendLoop aciaStep
    simp only [handedOut] at hagain ⊢
    simp [hagain]
  have hrest (n : Nat) : a.handedOut.sendLoop rounds now (n + 2)
      = some (b.handedOut, b.pending) := by
    have hlast := hlast n
    rw [sendLoop]
    unfold aciaStep
    have hnone : a.handedOut.hasPendingOut = false := rfl
    rw [hnone]
    unfold pending
    cases hpending : b.hasPendingOut with
    | false =>
      have heq : b.handedOut = b := by
        unfold handedOut
        rw [← hpending]
      simp [hb, hpending, heq]
    | true =>
      simp only [Bool.false_eq_true, if_false, hb, Option.bind_eq_bind, Option.bind_some, hpending,
        Bool.not_true, if_true]
      change (b.handedOut.sendLoop rounds now (n + 1)).bind _ = _
      rw [hlast]
      rfl
  obtain ⟨n, rfl⟩ : ∃ n, rounds = n + 3 := ⟨rounds - 3, by omega⟩
  unfold sendBytes
  cases hpending : a.hasPendingOut with
  | false =>
    have heq : a.handedOut = a := by
      unfold handedOut
      rw [← hpending]
    have hnone : a.pending = [] := by
      unfold pending
      rw [hpending]
      rfl
    rw [hnone, List.nil_append, ← heq]
    exact hrest (n + 1)
  | true =>
    have hone : a.pending = [a.pendingOut] := by
      unfold pending
      rw [hpending]
      rfl
    rw [hone, sendLoop]
    unfold aciaStep
    simp only [hpending, if_true, Option.bind_eq_bind, Option.bind_some, Bool.not_true,
      Bool.false_eq_true, if_false]
    change (a.handedOut.sendLoop (n + 3) now (n + 2)).bind _ = _
    rw [hrest n]
    rfl

/-! ## Stopping on the way -/

/-- The chip, stopped at a cycle. -/
def stop (u : Nat) (a : Acia6551) : Acia6551 := { a with synced := u }

/-- A round leaves a byte waiting if one did, or if it sends one. -/
theorem hasPendingOut_advanceRound (a : Acia6551) :
    a.advanceRound.hasPendingOut = (a.hasPendingOut || a.emits) := by
  have hround : a.advanceRound
      = a.advanceRound.withFlags a.previousSynced (a.hasPendingOut || a.emits) :=
    advanceRound_withFlags
  exact congrArg Acia6551.hasPendingOut hround

/-- A byte that has gone out is the last. -/
theorem spent_of_endsIn (hmasked : a.ErrorsMasked) (hnone : a.hasPendingOut = false)
    (hend : events.EndsIn u a b) : b.ErrorsMasked ∧ (b.hasPendingOut = true → b.Spent) := by
  refine hend.invariant (P := fun b => b.ErrorsMasked ∧ (b.hasPendingOut = true → b.Spent))
    (fun b _ ⟨hmasked, hspent⟩ => ⟨hmasked.advanceRound, fun hout => ?_⟩)
    ⟨hmasked, fun hout => absurd (hnone.symm.trans hout) (by decide)⟩
  change b.advanceRound.Spent
  change b.advanceRound.hasPendingOut = true at hout
  rw [hasPendingOut_advanceRound, Bool.or_eq_true] at hout
  rcases hout with hbefore | hemits
  · exact ((hspent hbefore).round hmasked).2
  · exact spent_of_emits hmasked hemits

/-- **Two chips that differ in their flags only**, one of which was stopped on the way
and has handed out what it had. -/
structure Alike (b x y : Acia6551) : Prop where
  /-- They differ in their flags only. -/
  eq : y = x.withFlags y.previousSynced y.hasPendingOut
  /-- What went out is what was handed out, or waits. -/
  out : x.hasPendingOut = (b.hasPendingOut || y.hasPendingOut)
  /-- The errors are none of the latches. -/
  masked : x.ErrorsMasked
  /-- After what was handed out nothing goes out. -/
  last : b.hasPendingOut = true →
    x.Spent ∧ y.hasPendingOut = false ∧ x.pendingOut = b.pendingOut

/-- A round keeps two chips alike. -/
theorem Alike.round {x y : Acia6551} (h : Alike b x y) :
    Alike b x.advanceRound y.advanceRound := by
  have hy : y.advanceRound
      = x.advanceRound.withFlags y.previousSynced (y.hasPendingOut || x.emits) := by
    rw [← advanceRound_withFlags, ← h.eq]
  have hyout : y.advanceRound.hasPendingOut = (y.hasPendingOut || x.emits) :=
    congrArg Acia6551.hasPendingOut hy
  refine ⟨?_, ?_, h.masked.advanceRound, fun hb => ?_⟩
  · rw [hy]
    rfl
  · rw [hasPendingOut_advanceRound, hyout, h.out, Bool.or_assoc]
  · obtain ⟨hspent, hnone, hbyte⟩ := h.last hb
    obtain ⟨hemits, hspent'⟩ := hspent.round h.masked
    exact ⟨hspent', by rw [hyout, hnone, hemits]; rfl, (pendingOut_advanceRound hemits).trans hbyte⟩

/-- **Chips that are alike end alike.** -/
theorem Alike.endsIn {x y : Acia6551} (h : Alike b x y) (hend : events.EndsIn t x d) :
    ∃ c, events.EndsIn t y c ∧ Alike b d c := by
  refine hend.congr (R := Alike b) (fun x y hxy => ?_) (fun x y hxy _ => hxy.round) h
  rw [hxy.eq]
  rfl

/-- What the two have to hand out. -/
theorem Alike.pending_eq {x y : Acia6551} (h : Alike b x y) : x.pending = b.pending ++ y.pending := by
  have hbyte : y.pendingOut = x.pendingOut := by
    rw [h.eq]
    rfl
  unfold pending
  rw [h.out, hbyte]
  cases hb : b.hasPendingOut with
  | false => rfl
  | true =>
    obtain ⟨-, hnone, hsame⟩ := h.last hb
    rw [hnone, hsame]
    rfl

/-- A chip that is stopped where stopping is of no consequence. -/
theorem advanceRound_stop (hnext : (a.stop u).aciaNextEvent = a.aciaNextEvent)
    (htx : (a.stop u).txDue = a.txDue) :
    (a.stop u).advanceRound = a.advanceRound ∧ (a.stop u).emits = a.emits := by
  have hreceived : (a.stop u).received = a.received := by
    unfold received
    rw [hnext]
    rfl
  constructor
  · change (if (a.stop u).txDue then (a.stop u).received.onTxBoundary (a.stop u).aciaNextEvent
      else (a.stop u).received) = if a.txDue then a.received.onTxBoundary a.aciaNextEvent
      else a.received
    rw [hreceived, hnext, htx]
  · unfold emits
    rw [hreceived, hnext, htx]
    rfl

/-- **Two chips that differ in where they stood before only.** -/
def Same (a b : Acia6551) : Prop := { a with previousSynced := b.previousSynced } = b

/-- **The loop started again where it was stopped** ends as it would have ended. -/
theorem endsIn_stop (hmasked : b.ErrorsMasked) (hspent : b.hasPendingOut = true → b.Spent)
    (hstop : SerialClock.SameNext t (b.clock.stop u) b.clock)
    (hend : events.EndsIn t b d) :
    ∃ c, events.EndsIn t { (b.stop u).handedOut with previousSynced := u } c
      ∧ ({ c with synced := t } : Acia6551).handedOut.Same ({ d with synced := t } : Acia6551).handedOut
      ∧ d.pending = b.pending ++ c.pending := by
  have hmoved : ({ (b.stop u).handedOut with previousSynced := u } : Acia6551)
      = (b.stop u).withFlags u false := rfl
  have hstopped : events.due t ((b.stop u).withFlags u false) = events.due t b :=
    (due_clock (a := (b.stop u).withFlags u false) t).symm.trans (hstop.due.trans (due_clock t))
  rw [hmoved]
  -- with nothing due the stop is invisible; otherwise the next round is the same one, and only the
  -- flags differ
  cases hdue : events.due t b with
  | false =>
    rw [hend.eq_of_not_due hdue]
    exact ⟨_, .of_not_due (hstopped.trans hdue), rfl, (List.append_nil _).symm⟩
  | true =>
    have hdue' : SerialClock.events.due t b.clock = true := (due_clock t).trans hdue
    have hnext : (b.stop u).aciaNextEvent = b.aciaNextEvent := by
      rw [← next_clock, ← next_clock]
      exact hstop.next hdue'
    have htx : (b.stop u).txDue = b.txDue := by
      rw [← txDue_clock, ← txDue_clock]
      exact hstop.txDue hdue'
    obtain ⟨hround, hemits⟩ := advanceRound_stop hnext htx
    have hb := hasPendingOut_advanceRound b
    have hfirst : ((b.stop u).withFlags u false).advanceRound
        = b.advanceRound.withFlags u b.emits := by
      rw [advanceRound_withFlags, hround, hemits, Bool.false_or]
    have halike : Alike b b.advanceRound ((b.stop u).withFlags u false).advanceRound := by
      rw [hfirst]
      refine ⟨rfl, hb, hmasked.advanceRound, fun hout => ?_⟩
      obtain ⟨hnone, hspent'⟩ := (hspent hout).round hmasked
      exact ⟨hspent', hnone, pendingOut_advanceRound hnone⟩
    obtain ⟨c, hc, hcd⟩ := halike.endsIn ((EventLoop.EndsIn.fire_iff hdue).1 hend)
    refine ⟨c, (EventLoop.EndsIn.fire_iff (hstopped.trans hdue)).2 hc, ?_, hcd.pending_eq⟩
    rw [hcd.eq]
    rfl

/-- **A stop on the way does not matter.** -/
theorem sends_cut (h : a.clock.Cuttable t) (hmasked : a.ErrorsMasked) (hle : a.synced ≤ u)
    (hut : u ≤ t) : ∃ b bytes, a.Sends u b bytes ∧ b.synced = u ∧ b.ErrorsMasked ∧ b.clock.Cuttable t
    ∧ ∃ c d more, b.Sends t c more ∧ a.Sends t d (bytes ++ more) ∧ c.Same d := by
  rcases hle.eq_or_lt with rfl | hlt
  · -- the chip is there already
    obtain ⟨c, hc⟩ := exists_advances (a := a.handedOut) hmasked h.fits
    have hsynced := hc.synced_eq
    have hnone : a.handedOut.pending = [] := rfl
    have hself := sends_of_advances (a := a) (advances_self (a := a.handedOut)) rfl
    rw [hnone, List.append_nil] at hself
    exact ⟨_, _, hself, rfl, hmasked, h, _, _, c.pending,
      sends_of_advances (a := a.handedOut) hc hsynced, sends_of_advances hc hsynced, rfl⟩
  obtain ⟨b, hb⟩ := exists_endsIn (a := { a.handedOut with previousSynced := a.synced }) (t := u)
    hmasked (h.fits.mono hut) hlt
  obtain ⟨hcuttable, hstop⟩ := h.stop hlt hut (endsIn_clock
    (a := { a.handedOut with previousSynced := a.synced }) hmasked hb)
  obtain ⟨hbmasked, hspent⟩ := spent_of_endsIn
    (a := { a.handedOut with previousSynced := a.synced }) hmasked rfl hb
  have hsends := sends_of_advances (a := a) (advances_of_endsIn (a := a.handedOut) hlt hb) rfl
  refine ⟨(b.stop u).handedOut, a.pending ++ b.pending, hsends, rfl, hbmasked, hcuttable, ?_⟩
  rcases hut.eq_or_lt with rfl | hlt'
  · refine ⟨(b.stop u).handedOut, (b.stop u).handedOut, [], ?_, ?_, rfl⟩
    · exact sends_of_advances (a := (b.stop u).handedOut)
        (advances_self (a := (b.stop u).handedOut)) rfl
    · rw [List.append_nil]
      exact hsends
  obtain ⟨d, hd⟩ := exists_endsIn (a := { a.handedOut with previousSynced := a.synced }) (t := t)
    hmasked h.fits (hle.trans_lt hlt')
  have hbd : events.EndsIn t b d := (EventLoop.EndsIn.cut_iff (fun s hdue => by
    simp only [events, Bool.and_eq_true, decide_eq_true_eq] at hdue ⊢
    exact ⟨hdue.1, hdue.2.trans hut⟩) hb).1 hd
  obtain ⟨c, hc, hsame, hpending⟩ := endsIn_stop hbmasked hspent (hstop hlt') hbd
  have hmore : (b.stop u).handedOut.Sends t ({ c with synced := t } : Acia6551).handedOut c.pending :=
    sends_of_advances (a := (b.stop u).handedOut)
      (advances_of_endsIn (a := (b.stop u).handedOut) hlt' hc) rfl
  have hall : a.Sends t ({ d with synced := t } : Acia6551).handedOut (a.pending ++ d.pending) :=
    sends_of_advances (advances_of_endsIn (a := a.handedOut) (hle.trans_lt hlt') hd) rfl
  rw [hpending, ← List.append_assoc] at hall
  exact ⟨_, _, _, hmore, hall, hsame⟩

/-! ## Every chip a card can get to -/

section Reached

variable {rounds : Nat}

/-- **What holds of every chip**: its transmitter's anchor is in the past, and the errors of
a byte that comes in are errors. -/
structure Sound (a : Acia6551) : Prop where
  /-- The anchor is in the past. -/
  anchor_le : a.txAnchor ≤ a.synced
  /-- The errors are none of the latches. -/
  masked : a.ErrorsMasked

/-- What leaves the transmitter's anchor and the errors alone. -/
theorem Sound.congr (h : a.Sound) (hanchor : b.txAnchor = a.txAnchor) (hsynced : b.synced = a.synced)
    (herrors : b.shiftErrors = a.shiftErrors) : b.Sound := by
  refine ⟨?_, ?_⟩
  · rw [hanchor, hsynced]
    exact h.anchor_le
  · unfold ErrorsMasked
    rw [herrors]
    exact h.masked

theorem Sound.rebase (h : a.Sound) (now : Nat) : (a.rebase now).Sound := by
  have hanchor := h.anchor_le
  refine ⟨?_, h.masked⟩
  unfold Acia6551.rebase
  dsimp only
  split_ifs <;> omega

/-- **Bringing the chip up to a cycle keeps it sound.** -/
theorem Sound.advance (h : a.Sound) (hb : a.advance rounds now = some b) : b.Sound := by
  unfold Acia6551.advance at hb
  split_ifs at hb with hlt heq
  · cases hb
    exact h.rebase now
  · cases hb
    exact h
  · obtain ⟨c, hc, rfl⟩ := Option.map_eq_some_iff.1 hb
    have hend : events.EndsIn now { a with previousSynced := a.synced } c := ⟨rounds, hc⟩
    have hstart : ({ a with previousSynced := a.synced } : Acia6551).txAnchor ≤ now
        ∧ ({ a with previousSynced := a.synced } : Acia6551).ErrorsMasked :=
      ⟨h.anchor_le.trans (by omega), h.masked⟩
    obtain ⟨hanchor, hmasked⟩ := hend.invariant (P := fun c => c.txAnchor ≤ now ∧ c.ErrorsMasked)
      (fun c hdue ⟨hanchor, hmasked⟩ => by
        refine ⟨?_, hmasked.advanceRound⟩
        have hnext : c.clock.next ≤ now := by
          rw [next_clock]
          simp only [events, Bool.and_eq_true, decide_eq_true_eq] at hdue
          exact hdue.2
        change c.advanceRound.clock.anchor ≤ now
        rw [clock_advanceRound hmasked]
        rcases SerialClock.anchor_round (c := c.clock) with hsame | hsame
        · rw [hsame]
          exact hanchor
        · rw [hsame]
          exact hnext) hstart
    exact ⟨hanchor, hmasked⟩

theorem Sound.raiseIrq (h : a.Sound) (fromLines : Bool) : (a.raiseIrq fromLines).Sound := by
  unfold Acia6551.raiseIrq
  split_ifs <;> exact h.congr rfl rfl rfl

/-- A byte that starts where the chip stands. -/
theorem Sound.tryStartTransmit (h : a.Sound) : (a.tryStartTransmit a.synced).Sound := by
  unfold Acia6551.tryStartTransmit startTransmit
  dsimp only
  split_ifs
  · refine Sound.raiseIrq ?_ false
    exact ⟨le_rfl, h.masked⟩
  · exact ⟨le_rfl, h.masked⟩
  · exact h

theorem Sound.programmedReset (h : a.Sound) : a.programmedReset.Sound := by
  unfold Acia6551.programmedReset
  dsimp only
  split_ifs <;> exact h.congr rfl rfl rfl

theorem Sound.aciaProgrammedReset (h : a.Sound) (hb : a.aciaProgrammedReset rounds now = some b) :
    b.Sound := by
  obtain ⟨c, hc, rfl⟩ := Option.map_eq_some_iff.1 hb
  exact (h.advance hc).programmedReset

theorem sound_aciaRestart (now : Nat) : (a.aciaRestart now).Sound := by
  unfold aciaRestart
  dsimp only
  split_ifs <;> exact ⟨le_rfl, UInt8.zero_and⟩

theorem Sound.aciaStep {out : Option UInt8} (h : a.Sound)
    (hb : a.aciaStep rounds now = some (b, out)) : b.Sound := by
  have hout {c : Acia6551} (hc : c.Sound) (hb : (if !c.hasPendingOut then some (c, none)
      else some ({ c with hasPendingOut := false }, some c.pendingOut)) = some (b, out)) : b.Sound := by
    split_ifs at hb <;> cases hb
    · exact hc
    · exact hc.congr rfl rfl rfl
  unfold Acia6551.aciaStep at hb
  cases hpending : a.hasPendingOut with
  | false =>
    simp only [hpending, Bool.false_eq_true, if_false, Option.bind_eq_bind,
      Option.bind_eq_some_iff] at hb
    obtain ⟨c, hc, hb⟩ := hb
    exact hout (h.advance hc) hb
  | true =>
    simp only [hpending, if_true, Option.bind_eq_bind, Option.bind_some] at hb
    exact hout h (by simpa [hpending] using hb)

theorem Sound.readRegister (h : a.Sound) (reg : UInt8) (now : Nat) :
    (a.readRegister reg now).1.Sound := by
  unfold Acia6551.readRegister
  split_ifs <;> exact h.congr rfl rfl rfl

theorem Sound.writeRegister (h : a.Sound) (reg value : UInt8) :
    (a.writeRegister reg value a.synced).Sound := by
  unfold Acia6551.writeRegister
  dsimp only
  split_ifs
  · exact Sound.tryStartTransmit
      (a := ({ a with transmitData := value } : Acia6551).setLatch AciaLatch.tdrFull true)
      (h.congr rfl rfl rfl)
  · exact Sound.tryStartTransmit (a := { a with command := value, breakLevel := false })
      (h.congr rfl rfl rfl)
  · exact Sound.tryStartTransmit (a := { a with command := value }) (h.congr rfl rfl rfl)
  · exact Sound.tryStartTransmit (a := { a with control := value, txAnchor := a.synced })
      ⟨le_rfl, h.masked⟩
  · exact Sound.tryStartTransmit (a := { a with control := value }) (h.congr rfl rfl rfl)

theorem Sound.aciaWrite {reg value : UInt8} {out : Option UInt8} (h : a.Sound)
    (hb : a.aciaWrite rounds reg value now = some (b, out)) : b.Sound := by
  unfold Acia6551.aciaWrite at hb
  obtain ⟨c, hc, hb⟩ := Option.bind_eq_some_iff.1 hb
  have hsynced := synced_of_advance hc
  have hsound := h.advance hc
  split_ifs at hb
  · obtain ⟨d, hd, hb⟩ := Option.bind_eq_some_iff.1 hb
    exact (hsound.aciaProgrammedReset hd).aciaStep hb
  · rw [← hsynced] at hb
    exact (hsound.writeRegister reg value).aciaStep hb

theorem Sound.setLines (h : a.Sound) (lines : UInt8) : (a.setLines lines a.synced).Sound := by
  unfold Acia6551.setLines
  dsimp only
  have hset : ({ a with lines := lines &&& AciaLineBit.allAsserted } : Acia6551).Sound :=
    h.congr rfl rfl rfl
  split_ifs
  · have hraised := hset.raiseIrq true
    have hsynced : (({ a with lines := lines &&& AciaLineBit.allAsserted } : Acia6551).raiseIrq
        true).synced = a.synced := by
      unfold Acia6551.raiseIrq
      split_ifs <;> rfl
    have hstarted := hraised.tryStartTransmit
    rw [hsynced] at hstarted
    exact hstarted
  · exact hset.tryStartTransmit

/-- The errors that come with a byte are masked. -/
theorem Sound.receive (h : a.Sound) (byte errors : UInt8) (now : Nat) :
    (a.receive byte errors now).Sound := by
  refine ⟨h.anchor_le, ?_⟩
  change errors &&& AciaLatch.errorMask &&& ~~~AciaStatus.overrun &&& 0x70 = 0
  rw [UInt8.and_assoc, UInt8.and_assoc]
  exact UInt8.and_zero

theorem Sound.aciaRxStart {byte errors : UInt8} (h : a.Sound)
    (hb : a.aciaRxStart rounds byte errors now = some b) : b.Sound := by
  unfold Acia6551.aciaRxStart at hb
  split_ifs at hb
  · cases hb
    exact h
  · simp only [Option.bind_eq_bind, Option.bind_eq_some_iff] at hb
    obtain ⟨c, hc, hb⟩ := hb
    split_ifs at hb
    · cases hb
      exact h.advance hc
    · exact ((h.advance hc).receive byte errors now).advance hb

/-- **No operation makes a chip unsound.** -/
theorem Sound.apply (h : a.Sound) {op : AciaOp} (hb : op.apply rounds a = some b) : b.Sound := by
  cases op with
  | setClockMhz clockMhz =>
    cases hb
    exact h.congr rfl rfl rfl
  | reset now =>
    cases hb
    exact ⟨le_rfl, h.masked⟩
  | programmedReset now => exact h.aciaProgrammedReset hb
  | restart now =>
    cases hb
    exact sound_aciaRestart _
  | load saved now =>
    cases hb
    unfold Acia6551.load
    split_ifs
    · exact h
    · exact sound_aciaRestart _
  | step now =>
    obtain ⟨⟨c, out⟩, hc, rfl⟩ := Option.map_eq_some_iff.1 hb
    exact h.aciaStep hc
  | read reg now =>
    obtain ⟨c, hc, rfl⟩ := Option.map_eq_some_iff.1 hb
    obtain ⟨d, hd, rfl⟩ := Option.map_eq_some_iff.1 hc
    exact (h.advance hd).readRegister reg _
  | write reg value now =>
    obtain ⟨⟨c, out⟩, hc, rfl⟩ := Option.map_eq_some_iff.1 hb
    exact h.aciaWrite hc
  | setLines lines now =>
    obtain ⟨c, hc, rfl⟩ := Option.map_eq_some_iff.1 hb
    rw [← synced_of_advance hc]
    exact (h.advance hc).setLines lines
  | rxStart byte errors now => exact h.aciaRxStart hb

/-- **Every chip a card can get to is sound.** -/
theorem Sound.run {ops : List AciaOp} (h : a.Sound) (hb : a.run rounds ops = some b) : b.Sound := by
  induction ops generalizing a with
  | nil =>
    cases hb
    exact h
  | cons op ops ih =>
    obtain ⟨c, hc, hb⟩ := Option.bind_eq_some_iff.1 hb
    exact ih (h.apply hc) hb

end Reached

/-! ## Any number of stops -/

/-- The chip gets to one cycle after the other, in some number of rounds and in any greater
one. -/
def SendsAll (a : Acia6551) (cycles : List Nat) (b : Acia6551) (bytes : List UInt8) : Prop :=
  ∃ enough, ∀ rounds, enough ≤ rounds → a.sendAll rounds cycles = some (b, bytes)

/-- One stop and the others. -/
theorem Sends.cons {cycles : List Nat} {bytes more : List UInt8} (h : a.Sends now b bytes)
    (hrest : b.SendsAll cycles c more) : a.SendsAll (now :: cycles) c (bytes ++ more) := by
  obtain ⟨enough, hb⟩ := h
  obtain ⟨enough', hc⟩ := hrest
  refine ⟨enough + enough', fun rounds hle => ?_⟩
  simp [sendAll, hb rounds (by omega), hc rounds (by omega)]

theorem Sends.single {bytes : List UInt8} (h : a.Sends now b bytes) : a.SendsAll [now] b bytes := by
  have hnil : b.SendsAll [] b [] := ⟨0, fun _ _ => rfl⟩
  simpa using h.cons hnil

theorem Sends.unique {bytes more : List UInt8} (h : a.Sends now b bytes) (h' : a.Sends now c more) :
    b = c ∧ bytes = more := by
  obtain ⟨enough, hb⟩ := h
  obtain ⟨enough', hc⟩ := h'
  have hb := hb (enough + enough') (by omega)
  rw [hc _ (by omega)] at hb
  cases hb
  exact ⟨rfl, rfl⟩

theorem SendsAll.unique {cycles : List Nat} {bytes more : List UInt8}
    (h : a.SendsAll cycles b bytes) (h' : a.SendsAll cycles c more) : b = c ∧ bytes = more := by
  obtain ⟨enough, hb⟩ := h
  obtain ⟨enough', hc⟩ := h'
  have hb := hb (enough + enough') (by omega)
  rw [hc _ (by omega)] at hb
  cases hb
  exact ⟨rfl, rfl⟩

theorem Same.trans (h : a.Same b) (h' : b.Same c) : a.Same c := by
  unfold Same at *
  rw [← h', ← h]

/-- Where the chip stood before is not part of its clock. -/
theorem Same.clock_eq (h : a.Same b) : a.clock = b.clock := by
  unfold Same at h
  rw [← h]
  rfl

/-- **Any number of stops on the way do not matter.** -/
theorem sendsAll_cut {cuts : List Nat} (h : a.clock.Cuttable t) (hmasked : a.ErrorsMasked)
    (hsorted : (a.synced :: cuts ++ [t]).Pairwise (· ≤ ·)) :
    ∃ c d bytes, a.SendsAll (cuts ++ [t]) c bytes ∧ a.Sends t d bytes ∧ c.Same d := by
  induction cuts generalizing a with
  | nil =>
    have hle : a.synced ≤ t := by simpa using hsorted
    obtain ⟨b, bytes, -, -, -, -, c, d, more, -, hd, -⟩ := sends_cut h hmasked le_rfl hle
    exact ⟨d, d, _, hd.single, hd, rfl⟩
  | cons u cuts ih =>
    rw [List.cons_append, List.pairwise_cons] at hsorted
    obtain ⟨hfirst, hrest⟩ := hsorted
    have hle : a.synced ≤ u := hfirst u (by simp)
    have hut : u ≤ t := (List.pairwise_cons.1 hrest).1 t (by simp)
    obtain ⟨b, bytes, hb, hsynced, hbmasked, hbtime, c, d, more, hc, hd, hsame⟩ :=
      sends_cut h hmasked hle hut
    obtain ⟨c', d', rest, hall, hd', hsame'⟩ := ih hbtime hbmasked (by rw [hsynced]; exact hrest)
    obtain ⟨rfl, rfl⟩ := hd'.unique hc
    exact ⟨c', d, _, hb.cons hall, hd, hsame'.trans hsame⟩

/-- **Where a run up to a cycle is cut does not matter**: brought up to any cycles on the way
first, the chip gets there in the same state, but for where it stood before, and has
handed out the same bytes. -/
def CutFree (t : Nat) (a : Acia6551) : Prop :=
  ∀ cuts, (a.synced :: cuts ++ [t]).Pairwise (· ≤ ·) →
    ∃ c d bytes, a.SendsAll (cuts ++ [t]) c bytes ∧ a.SendsAll [t] d bytes ∧ c.Same d

/-- The chip gets to where its clock does. -/
theorem exists_sends {k : SerialClock} (hmasked : a.ErrorsMasked) (hlt : a.synced < u)
    (hend : SerialClock.events.EndsIn u a.clock k) :
    ∃ b bytes, a.Sends u b bytes ∧ b.ErrorsMasked ∧ b.clock = k.stop u := by
  obtain ⟨b, hb, hbmasked, rfl⟩ := exists_endsIn_of_clock
    (a := { a.handedOut with previousSynced := a.synced }) hmasked hend
  exact ⟨_, _, sends_of_advances (advances_of_endsIn (a := a.handedOut) hlt hb) rfl, hbmasked, rfl⟩

/-- **A chip that lags may not be cut**: there is a cycle on the way up to which a single cut
matters. -/
theorem not_cutFree_of_lags (hanchor : a.txAnchor ≤ a.synced) (hmasked : a.ErrorsMasked)
    (hfits : a.clock.Fits t) (hlags : a.clock.Lags t) : ∃ v, v ≤ t ∧ ¬ a.CutFree v := by
  obtain ⟨u, v, k, l, m, hlt, huv, hle, hk, hl, hm, hne⟩ := hlags.exists_stop hanchor hfits
  refine ⟨v, hle, fun hcut => hne ?_⟩
  obtain ⟨b, bytes, hb, hbmasked, hbclock⟩ := exists_sends hmasked hlt hk
  have hsynced : b.synced = u := congrArg SerialClock.synced hbclock
  obtain ⟨c, more, hc, -, hcclock⟩ := exists_sends hbmasked (hsynced.trans_lt huv)
    (hbclock.symm ▸ hl)
  obtain ⟨d, all, hd, -, hdclock⟩ := exists_sends hmasked (hlt.trans huv) hm
  have hlt : a.synced < u := hlt
  obtain ⟨c', d', same, hc', hd', hsame⟩ := hcut [u] (by simp; omega)
  obtain ⟨rfl, -⟩ := hc'.unique (hb.cons hc.single)
  obtain ⟨rfl, -⟩ := hd'.unique hd.single
  rw [← hcclock, ← hdclock]
  exact hsame.clock_eq

/-! ## The result -/

/-- **Where a run of the chip is cut does not matter**, and its loop ends: every chip a card
can get to, brought up to one cycle after the other, ends as it does brought up to the
last at once, and hands out the same bytes. The boundaries it reckons on the way must fit,
and then this is so up to every cycle on the way exactly if the chip does not lag – which
can be told from where it stands if the times of the byte that comes in are in order. -/
theorem sendAll_cut {rounds : Nat} {ops : List AciaOp} (hrun : run rounds ops {} = some a)
    (hfits : a.clock.Fits t) :
    (∃ b, a.Advances t b)
    ∧ ((∀ v, v ≤ t → a.CutFree v) ↔ ¬ a.clock.Lags t)
    ∧ (a.clock.Ordered → (a.clock.Lags t ↔ a.clock.Lagging t)) := by
  have hsound : a.Sound := Sound.run (a := {}) ⟨le_rfl, rfl⟩ hrun
  refine ⟨exists_advances hsound.masked hfits, ⟨fun hcut hlags => ?_, fun hprompt v hle cuts hsorted => ?_⟩,
    fun hordered => SerialClock.lags_iff hsound.anchor_le hordered hfits⟩
  · obtain ⟨v, hle, hnot⟩ := not_cutFree_of_lags hsound.anchor_le hsound.masked hfits hlags
    exact hnot (hcut v hle)
  · obtain ⟨c, d, bytes, hc, hd, hsame⟩ := sendsAll_cut
      ⟨hsound.anchor_le, hfits.mono hle, fun hlags => hprompt (SerialClock.Lags.mono hle hlags)⟩ hsound.masked hsorted
    exact ⟨c, d, bytes, hc, hd.single, hsame⟩

/-- The chip at 19200 baud, with a byte sent and a character's interrupts. -/
def tickingOps : List AciaOp :=
  [.setClockMhz 1020484450, .reset 0, .write AciaReg.control 0x1F 0, .write AciaReg.command 0x07 0,
    .rxStart 0x41 0 0, .write AciaReg.data 0x43 100, .read AciaReg.data 510]

/-- The chip with a byte asked for long after the one before was over. -/
def lateOps : List AciaOp :=
  tickingOps ++ [.step 1200, .read AciaReg.status 1200, .rxStart 0x42 0 1200]

/-- The chip after a byte came in and one went out may be cut up to 1650. Once it has asked
for another byte at 1200 it may be cut up to 1580, and not up to 1650: the byte takes it
back to 1064, and a boundary comes at 1596. -/
theorem sendAll_cut_ticking :
    (∃ a, run 9 tickingOps {} = some a ∧ (∃ b, a.Advances 1650 b) ∧ ∀ v, v ≤ 1650 → a.CutFree v)
    ∧ ∃ a, run 9 lateOps {} = some a ∧ (∀ v, v ≤ 1580 → a.CutFree v)
      ∧ ¬ ∀ v, v ≤ 1650 → a.CutFree v := by
  constructor
  · obtain ⟨a, ha⟩ : ∃ a, run 9 tickingOps {} = some a := ⟨_, rfl⟩
    have hfacts : (run 9 tickingOps {}).all (fun a => a.clock.frame = 532
        ∧ a.clock.rdrfAt ≤ a.clock.freeAt ∧ a.clock.txBusy = true) = true := by
      decide +kernel
    rw [ha] at hfacts
    simp only [Option.all_some, decide_eq_true_eq] at hfacts
    obtain ⟨hframe, hrx, hbusy⟩ := hfacts
    obtain ⟨hends, hcut, hlags⟩ := sendAll_cut (t := 1650) ha
      (SerialClock.fits_of_lt (by rw [hframe]; decide))
    refine ⟨a, ha, hends, hcut.2 fun h => ?_⟩
    have hlagging := (hlags fun _ _ => hrx).1 h
    exact absurd hbusy (by simp [hlagging.idle.1])
  · obtain ⟨a, ha⟩ : ∃ a, run 9 lateOps {} = some a := ⟨_, rfl⟩
    have hfacts : (run 9 lateOps {}).all (fun a => a.clock.frame = 532
        ∧ a.clock.rdrfAt ≤ a.clock.freeAt ∧ (a.clock.txBusy = false ∧ a.clock.armed = true)
        ∧ a.clock.rxBusy = true ∧ a.clock.rxNext ≠ 0 ∧ a.clock.rxLast = 1064
        ∧ a.clock.anchor = 1164 ∧ a.clock.synced = 1200) = true := by
      decide +kernel
    rw [ha] at hfacts
    simp only [Option.all_some, decide_eq_true_eq] at hfacts
    obtain ⟨hframe, hrx, hidle, hbusy, hne, hlast, hanchor, hsynced⟩ := hfacts
    obtain ⟨-, hcut, hlags⟩ := sendAll_cut (t := 1580) ha
      (SerialClock.fits_of_lt (by rw [hframe]; decide))
    obtain ⟨-, hcut', hlags'⟩ := sendAll_cut (t := 1650) ha
      (SerialClock.fits_of_lt (by rw [hframe]; decide))
    refine ⟨a, ha, hcut.2 fun h => ?_, fun h => hcut'.1 h ((hlags' fun _ _ => hrx).2
      ⟨hidle, hbusy, hne, by omega, by omega, by omega⟩)⟩
    have hreached := ((hlags fun _ _ => hrx).1 h).reached
    omega

/-- The boundaries of an idle transmitter that has no byte to send and interrupts, with
characters of an even number of cycles and an odd anchor. -/
structure Odd (c : SerialClock) : Prop where
  /-- Nothing is sent. -/
  idle : c.txBusy = false
  /-- The transmitter interrupts. -/
  ticks : c.mode = .ticks
  /-- A character takes an even number of cycles. -/
  frame : c.frame % 2 = 0 ∧ c.frame ≠ 0
  /-- No byte waits. -/
  empty : c.tdrFull = false
  /-- None comes in. -/
  rxIdle : c.rxBusy = false
  /-- The clock stands at its anchor. -/
  anchored : c.anchor = c.synced
  /-- That is odd. -/
  odd : c.synced % 2 = 1

/-- **Odd boundaries go on for ever**, round and round through the 64-bit counts. -/
theorem Odd.round {c : SerialClock} (h : Odd c) :
    SerialClock.events.due (2 ^ 64 - 1) c = true ∧ Odd c.round := by
  have harmed : c.armed = true := by
    unfold SerialClock.armed
    simp [h.ticks, h.frame.2]
  have hnextTx : c.nextTx = u64 (c.synced + c.frame) := by
    unfold SerialClock.nextTx
    rw [if_neg (by simp [h.idle]), SerialClock.reckoned_of_le h.anchored.le]
    simp [h.anchored]
  have hnext : c.next = u64 (c.synced + c.frame) := by
    unfold SerialClock.next
    rw [if_pos harmed, if_neg (by simp [h.rxIdle]), hnextTx]
  have htx : c.txDue = true := by
    unfold SerialClock.txDue
    rw [harmed, hnextTx, hnext]
    simp
  have hodd : c.next % 2 = 1 := by
    have hframe := h.frame.1
    have hsynced := h.odd
    rw [hnext]
    unfold u64
    omega
  have hlt : c.next < 2 ^ 64 := by
    rw [hnext]
    exact Nat.mod_lt _ (by decide)
  refine ⟨by simp [SerialClock.events]; omega, ?_⟩
  have hround : c.round = { c with synced := c.next, anchor := c.next, txBusy := false } := by
    unfold SerialClock.round SerialClock.receive SerialClock.transmit SerialClock.stop
    simp [htx, h.rxIdle, h.ticks, h.empty]
  rw [hround]
  exact ⟨rfl, h.ticks, h.frame, h.empty, h.rxIdle, rfl, hodd⟩

/-- A chip with odd boundaries is not brought up to the last cycle in any number of
rounds. -/
theorem advance_odd (h : Odd a.clock) (hmasked : a.ErrorsMasked) (hlt : a.synced < 2 ^ 64 - 1)
    (rounds : Nat) : a.advance rounds (2 ^ 64 - 1) = none := by
  unfold advance
  rw [if_neg (by omega), if_neg (by omega), Option.map_eq_none_iff, Option.eq_none_iff_forall_ne_some]
  intro b hb
  have hend : events.EndsIn (2 ^ 64 - 1) { a with previousSynced := a.synced } b := ⟨rounds, hb⟩
  have hstart : ({ a with previousSynced := a.synced } : Acia6551).ErrorsMasked
      ∧ Odd ({ a with previousSynced := a.synced } : Acia6551).clock := ⟨hmasked, h⟩
  obtain ⟨-, hodd⟩ := hend.invariant (P := fun b => b.ErrorsMasked ∧ Odd b.clock)
    (fun b _ ⟨hmasked, hodd⟩ => ⟨hmasked.advanceRound, by
      change Odd b.advanceRound.clock
      rw [clock_advanceRound hmasked]
      exact hodd.round.2⟩) hstart
  have hdue := hodd.round.1
  rw [due_clock, hend.not_due] at hdue
  exact Bool.false_ne_true hdue

/-- The chip with a character's interrupts, started close to the end of time. -/
def endlessOps : List AciaOp :=
  [.setClockMhz 1020484450, .reset 0xFFFFFFFFFFFFFC19, .write AciaReg.control 0x1F 0xFFFFFFFFFFFFFC19,
    .write AciaReg.command 0x05 0xFFFFFFFFFFFFFC19]

/-- **A stop at 1300 takes away the interrupt at 1596**, and a chip 999 cycles before its
counts are over is not brought up to the last of them. -/
theorem not_sendAll_cut : (∃ a, run 9 lateOps {} = some a ∧ a.synced = 1200
      ∧ (a.sendAll 9 [1300, 1650]).map (fun r => (r.1.irq, r.1.aciaNextEvent)) = some (false, 1696)
      ∧ (a.sendAll 9 [1650]).map (fun r => (r.1.irq, r.1.aciaNextEvent)) = some (true, 2128))
    ∧ ∃ a, run 9 endlessOps {} = some a ∧ ∀ rounds, a.advance rounds (2 ^ 64 - 1) = none := by
  constructor
  · obtain ⟨a, ha⟩ : ∃ a, run 9 lateOps {} = some a := ⟨_, rfl⟩
    have hfacts : (run 9 lateOps {}).all (fun a => a.synced = 1200
        ∧ (a.sendAll 9 [1300, 1650]).map (fun r => (r.1.irq, r.1.aciaNextEvent)) = some (false, 1696)
        ∧ (a.sendAll 9 [1650]).map (fun r => (r.1.irq, r.1.aciaNextEvent)) = some (true, 2128))
        = true := by decide +kernel
    rw [ha] at hfacts
    simp only [Option.all_some, decide_eq_true_eq] at hfacts
    exact ⟨a, ha, hfacts⟩
  · obtain ⟨a, ha⟩ : ∃ a, run 9 endlessOps {} = some a := ⟨_, rfl⟩
    have hfacts : (run 9 endlessOps {}).all (fun a => a.shiftErrors &&& 0x70 = 0
        ∧ a.clock.txBusy = false ∧ a.clock.mode = .ticks
        ∧ (a.clock.frame % 2 = 0 ∧ a.clock.frame ≠ 0) ∧ a.clock.tdrFull = false
        ∧ a.clock.rxBusy = false ∧ a.clock.anchor = a.clock.synced ∧ a.clock.synced % 2 = 1
        ∧ a.synced < 2 ^ 64 - 1) = true := by decide +kernel
    rw [ha] at hfacts
    simp only [Option.all_some, decide_eq_true_eq] at hfacts
    obtain ⟨hmasked, hidle, hticks, hframe, hempty, hrx, hanchored, hodd, hlt⟩ := hfacts
    exact ⟨a, ha, advance_odd ⟨hidle, hticks, hframe, hempty, hrx, hanchored, hodd⟩ hmasked hlt⟩

end LinApple.Chips.Acia6551
