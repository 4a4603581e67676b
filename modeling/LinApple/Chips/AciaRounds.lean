import LinApple.Chips.Acia6551

/-!
# What a round of the 6551 does

The chip's timers are a `SerialClock`: `clock` reads them off, and a round of the chip's
loop is a round of the clock (`clock_advanceRound`). So when the chip does something is
said by the clock alone.

What the clock does not say is which byte goes out. A round leaves the flags a caller of
`advance` sets alone, except that a byte may go out in it (`advanceRound_withFlags`), and
after a byte went out none does before a register is written (`Spent`).
-/

namespace LinApple.Chips.Acia6551

variable {a : Acia6551} {bit other : UInt8} {on : Bool}

/-! ## Latches -/

/-- A latch does not show in the others. -/
theorem latch_setLatch_of_disjoint (h : bit &&& other = 0) :
    (a.setLatch bit on).latch other = a.latch other := by
  unfold latch setLatch
  cases on with
  | true => simp only [if_true, Byte.or_and_of_disjoint _ h]
  | false => simp only [Bool.false_eq_true, if_false, Byte.and_not_and_of_disjoint _ h]

/-- A latch that is set. -/
theorem latch_setLatch_true (h : bit ≠ 0) : (a.setLatch bit true).latch bit = true := by
  unfold latch setLatch
  simp only [if_true, Byte.or_and_distrib_right, UInt8.and_self, ne_eq, decide_eq_true_eq]
  intro hzero
  exact h (UInt8.or_eq_zero_iff.1 hzero).2

/-- A latch that is cleared. -/
theorem latch_setLatch_false : (a.setLatch bit false).latch bit = false := by
  unfold latch setLatch
  simp [UInt8.and_assoc]

/-! ## The chip's clock -/

/-- What an idle transmitter does. -/
def idleMode (a : Acia6551) : IdleMode :=
  if a.tic = AciaCommand.ticBreak then .breaks
  else if a.ticInterrupts && a.transmitterSends then .ticks
  else .rests

/-- **The timers of the chip.** -/
def clock (a : Acia6551) : SerialClock where
  frame := a.frameCycles
  sends := a.transmitterSends
  mode := a.idleMode
  tdrFull := a.latch AciaLatch.tdrFull
  txBusy := a.latch AciaLatch.txBusy
  broke := a.breakLevel
  busyUntil := a.txBusyUntil
  anchor := a.txAnchor
  rxBusy := a.latch AciaLatch.rxBusy
  completed := a.rxCompleted
  rdrfAt := a.rxRdrfAt
  freeAt := a.rxFreeAt
  synced := a.synced

/-- Without a clock a character takes no cycles. -/
theorem frameCycles_of_not_hasClock (h : a.hasClock = false) : a.frameCycles = 0 := by
  unfold frameCycles aciaCyclesFor
  simp [h]

/-- With a break asked for there is no interrupt. -/
theorem ticInterrupts_of_break (h : a.tic = AciaCommand.ticBreak) : a.ticInterrupts = false := by
  unfold ticInterrupts
  rw [h]
  rfl

theorem armed_clock : a.clock.armed = a.txBoundaryArmed := by
  unfold SerialClock.armed txBoundaryArmed clock idleMode
  dsimp only
  cases hclock : a.hasClock with
  | false => simp [frameCycles_of_not_hasClock hclock]
  | true =>
    by_cases hbreak : a.tic = AciaCommand.ticBreak
    · rw [ticInterrupts_of_break hbreak, if_pos hbreak]
      cases a.latch AciaLatch.txBusy <;> cases a.breakLevel <;> simp [hbreak]
    · rw [if_neg hbreak]
      cases a.latch AciaLatch.txBusy <;> cases hticks : a.ticInterrupts && a.transmitterSends <;>
        simp [hbreak]

theorem next_clock : a.clock.next = a.aciaNextEvent := by
  unfold SerialClock.next
  rw [armed_clock]
  rfl

theorem txDue_clock : a.clock.txDue = a.txDue := by
  unfold SerialClock.txDue txDue
  rw [armed_clock, next_clock]
  rfl

theorem due_clock (t : Nat) : SerialClock.events.due t a.clock = events.due t a := by
  unfold SerialClock.events events
  dsimp only
  rw [next_clock]

/-! ### What changes the clock -/

section Clock

@[simp] theorem clock_raiseIrq (fromLines : Bool) : (a.raiseIrq fromLines).clock = a.clock := by
  unfold raiseIrq
  split_ifs <;> rfl

@[simp] theorem clock_emit (byte : UInt8) : (a.emit byte).clock = a.clock := rfl

/-- The latches for errors and for a byte received are not part of the clock. -/
theorem clock_setLatch_low (h : bit &&& 0x70 = 0) : (a.setLatch bit on).clock = a.clock := by
  have hpart (m : UInt8) (hm : 0x70 &&& m = m) : bit &&& m = 0 := by
    rw [← hm, ← UInt8.and_assoc, h, UInt8.zero_and]
  have hfull : (a.setLatch bit on).latch AciaLatch.tdrFull = a.latch AciaLatch.tdrFull :=
    latch_setLatch_of_disjoint (hpart AciaLatch.tdrFull (by decide))
  have htx : (a.setLatch bit on).latch AciaLatch.txBusy = a.latch AciaLatch.txBusy :=
    latch_setLatch_of_disjoint (hpart AciaLatch.txBusy (by decide))
  have hrx : (a.setLatch bit on).latch AciaLatch.rxBusy = a.latch AciaLatch.rxBusy :=
    latch_setLatch_of_disjoint (hpart AciaLatch.rxBusy (by decide))
  unfold clock
  rw [hfull, htx, hrx]
  rfl

theorem clock_ite {c : SerialClock} {p : Prop} [Decidable p] {x y : Acia6551} (hx : x.clock = c)
    (hy : y.clock = c) : (if p then x else y).clock = c := by
  split_ifs <;> assumption

/-- The errors a byte comes with. -/
def ErrorsMasked (a : Acia6551) : Prop := a.shiftErrors &&& 0x70 = 0

/-- **A byte is complete.** -/
theorem clock_onRxRdrf (h : a.ErrorsMasked) :
    a.onRxRdrf.clock = { a.clock with completed := true } := by
  have herrors (b : Acia6551) (hb : b.ErrorsMasked) :
      (if b.shiftErrors = 0 then b.setLatch AciaLatch.errorMask false
        else b.setLatch b.shiftErrors true).clock = b.clock :=
    clock_ite (clock_setLatch_low (by decide)) (clock_setLatch_low hb)
  unfold onRxRdrf
  dsimp only
  refine clock_ite (clock_setLatch_low (by decide)) ?_
  refine clock_ite ((clock_emit _).trans ?_) ?_ <;>
    refine clock_ite ((clock_raiseIrq _).trans ?_) ?_
  all_goals
    refine (herrors _ ?_).trans ?_
    · exact h
    · exact clock_setLatch_low (by decide)

/-- The character of a byte that came in is over. -/
theorem clock_onRxFree (at' : Nat) :
    (a.onRxFree at').clock = { a.clock with rxBusy := false } := by
  have hfull : (a.setLatch AciaLatch.rxBusy false).latch AciaLatch.tdrFull = a.latch AciaLatch.tdrFull :=
    latch_setLatch_of_disjoint (by decide)
  have htx : (a.setLatch AciaLatch.rxBusy false).latch AciaLatch.txBusy = a.latch AciaLatch.txBusy :=
    latch_setLatch_of_disjoint (by decide)
  have hrx : (a.setLatch AciaLatch.rxBusy false).latch AciaLatch.rxBusy = false :=
    latch_setLatch_false
  unfold clock
  change SerialClock.mk _ _ _ ((a.setLatch AciaLatch.rxBusy false).latch AciaLatch.tdrFull)
    ((a.setLatch AciaLatch.rxBusy false).latch AciaLatch.txBusy) _ _ _
    ((a.setLatch AciaLatch.rxBusy false).latch AciaLatch.rxBusy) _ _ _ _ = _
  rw [hfull, htx, hrx]
  rfl

/-- **A byte starts to be sent**, where the chip stands. -/
theorem clock_startTransmit : (a.startTransmit a.synced).clock = { a.clock with
    tdrFull := false
    txBusy := true
    anchor := a.synced
    busyUntil := u64 (a.synced + a.frameCycles) } := by
  have hfull : ((a.setLatch AciaLatch.tdrFull false).setLatch AciaLatch.txBusy true).latch
      AciaLatch.tdrFull = false :=
    (latch_setLatch_of_disjoint (by decide)).trans latch_setLatch_false
  have hrx : ((a.setLatch AciaLatch.tdrFull false).setLatch AciaLatch.txBusy true).latch
      AciaLatch.rxBusy = a.latch AciaLatch.rxBusy :=
    (latch_setLatch_of_disjoint (by decide)).trans (latch_setLatch_of_disjoint (by decide))
  have htx : ((a.setLatch AciaLatch.tdrFull false).setLatch AciaLatch.txBusy true).latch
      AciaLatch.txBusy = true := latch_setLatch_true (by decide)
  have hstarted : SerialClock.mk a.frameCycles a.transmitterSends a.idleMode
      (((a.setLatch AciaLatch.tdrFull false).setLatch AciaLatch.txBusy true).latch AciaLatch.tdrFull)
      (((a.setLatch AciaLatch.tdrFull false).setLatch AciaLatch.txBusy true).latch AciaLatch.txBusy)
      a.breakLevel (u64 (a.synced + a.frameCycles)) a.synced
      (((a.setLatch AciaLatch.tdrFull false).setLatch AciaLatch.txBusy true).latch AciaLatch.rxBusy)
      a.rxCompleted a.rxRdrfAt a.rxFreeAt a.synced = { a.clock with
        tdrFull := false
        txBusy := true
        anchor := a.synced
        busyUntil := u64 (a.synced + a.frameCycles) } := by
    rw [hfull, hrx, htx]
    rfl
  unfold startTransmit
  exact clock_ite ((clock_raiseIrq _).trans hstarted) hstarted

/-- The transmitter is free, and its latch shows it. -/
theorem clock_setLatch_txBusy :
    (a.setLatch AciaLatch.txBusy false).clock = { a.clock with txBusy := false } := by
  have hfull : (a.setLatch AciaLatch.txBusy false).latch AciaLatch.tdrFull = a.latch AciaLatch.tdrFull :=
    latch_setLatch_of_disjoint (by decide)
  have htx : (a.setLatch AciaLatch.txBusy false).latch AciaLatch.txBusy = false :=
    latch_setLatch_false
  have hrx : (a.setLatch AciaLatch.txBusy false).latch AciaLatch.rxBusy = a.latch AciaLatch.rxBusy :=
    latch_setLatch_of_disjoint (by decide)
  unfold clock
  rw [hfull, htx, hrx]
  rfl

/-- **A boundary of the transmitter**, where the chip stands. -/
theorem clock_onTxBoundary : (a.onTxBoundary a.synced).clock = a.clock.transmit := by
  have hfree := clock_setLatch_txBusy (a := a)
  have hfull : (a.setLatch AciaLatch.txBusy false).latch AciaLatch.tdrFull
      = a.latch AciaLatch.tdrFull := latch_setLatch_of_disjoint (by decide)
  unfold onTxBoundary SerialClock.transmit
  by_cases hbreak : a.tic = AciaCommand.ticBreak
  · have hmode : a.clock.mode = .breaks := if_pos hbreak
    rw [if_pos hmode]
    dsimp only
    rw [if_pos (show (a.setLatch AciaLatch.txBusy false).tic = AciaCommand.ticBreak from hbreak)]
    have hbroke := congrArg (fun c : SerialClock => { c with broke := true }) hfree
    exact hbroke
  · have hmode : a.clock.mode ≠ .breaks := by
      change a.idleMode ≠ .breaks
      unfold idleMode
      rw [if_neg hbreak]
      split_ifs <;> decide
    rw [if_neg hmode]
    dsimp only
    rw [if_neg (show (a.setLatch AciaLatch.txBusy false).tic ≠ AciaCommand.ticBreak from hbreak),
      hfull]
    have hsends : (a.latch AciaLatch.tdrFull && (a.setLatch AciaLatch.txBusy false).transmitterSends)
        = (a.clock.tdrFull && a.clock.sends) := rfl
    rw [hsends]
    split_ifs with hstart
    · exact clock_startTransmit.trans (by rw [hfree]; rfl)
    · have hidle := congrArg (fun c : SerialClock => { c with anchor := a.synced }) hfree
      exact (clock_raiseIrq _).trans hidle
    · have hidle := congrArg (fun c : SerialClock => { c with anchor := a.synced }) hfree
      exact hidle

/-- **The receiver's events**, where the chip stands. -/
theorem clock_rxEvents (h : a.ErrorsMasked) {at' : Nat} (hat : a.synced = at') :
    (a.rxEvents at').clock = a.clock.receive := by
  obtain ⟨b, hb⟩ : ∃ b, b = if a.latch AciaLatch.rxBusy && !a.rxCompleted && a.rxRdrfAt = at' then
      a.onRxRdrf else a := ⟨_, rfl⟩
  have hfirst : b.clock = if a.clock.rxBusy && !a.clock.completed && a.clock.rdrfAt = a.clock.synced
      then { a.clock with completed := true } else a.clock := by
    rw [hb, ← hat]
    change (if a.clock.rxBusy && !a.clock.completed && a.clock.rdrfAt = a.clock.synced then a.onRxRdrf
      else a).clock = _
    split_ifs
    · exact clock_onRxRdrf h
    · rfl
  have hsynced : at' = b.clock.synced := by
    rw [hfirst, ← hat]
    split_ifs <;> rfl
  unfold SerialClock.receive rxEvents
  rw [← hfirst, ← hb, hsynced]
  change (if b.clock.rxBusy && b.clock.freeAt = b.clock.synced then b.onRxFree b.clock.synced
    else b).clock = _
  dsimp only
  split_ifs
  · exact clock_onRxFree _
  · rfl

/-- **A round of the chip is a round of its clock.** -/
theorem clock_advanceRound (h : a.ErrorsMasked) : a.advanceRound.clock = a.clock.round := by
  obtain ⟨b, hb⟩ : ∃ b : Acia6551, b = ({ a with synced := a.aciaNextEvent } : Acia6551).rxEvents
    a.aciaNextEvent := ⟨_, rfl⟩
  have hreceive : b.clock = (a.clock.stop a.clock.next).receive := by
    have hmoved : ({ a with synced := a.aciaNextEvent } : Acia6551).clock
        = a.clock.stop a.aciaNextEvent := rfl
    rw [hb, next_clock, clock_rxEvents (a := { a with synced := a.aciaNextEvent }) h rfl, hmoved]
  have hsynced : a.aciaNextEvent = b.synced := by
    change _ = b.clock.synced
    rw [hreceive, SerialClock.synced_receive, next_clock]
    rfl
  unfold advanceRound SerialClock.round
  dsimp only
  rw [txDue_clock, ← hreceive, ← hb]
  split_ifs
  · rw [hsynced, clock_onTxBoundary]
  · rfl

end Clock

/-! ## What a round leaves alone -/

section Kept

/-- The settings, and the errors of the byte that comes in. -/
def kept (a : Acia6551) : UInt8 × UInt8 × UInt8 × Nat × UInt8 :=
  (a.control, a.command, a.lines, a.clockMhz, a.shiftErrors)

theorem kept_ite {k : UInt8 × UInt8 × UInt8 × Nat × UInt8} {p : Prop} [Decidable p]
    {x y : Acia6551} (hx : x.kept = k) (hy : y.kept = k) : (if p then x else y).kept = k := by
  split_ifs <;> assumption

theorem kept_raiseIrq (fromLines : Bool) : (a.raiseIrq fromLines).kept = a.kept := by
  unfold raiseIrq
  split_ifs <;> rfl

theorem kept_startTransmit (at' : Nat) : (a.startTransmit at').kept = a.kept :=
  kept_ite (kept_raiseIrq _) rfl

theorem kept_onTxBoundary (at' : Nat) : (a.onTxBoundary at').kept = a.kept :=
  kept_ite rfl (kept_ite (kept_startTransmit _) (kept_ite (kept_raiseIrq _) rfl))

theorem kept_onRxRdrf : a.onRxRdrf.kept = a.kept := by
  have herrors (b : Acia6551) :
      (if b.shiftErrors = 0 then b.setLatch AciaLatch.errorMask false
        else b.setLatch b.shiftErrors true).kept = b.kept := kept_ite rfl rfl
  unfold onRxRdrf
  dsimp only
  refine kept_ite rfl (kept_ite ?_ ?_) <;> exact kept_ite ((kept_raiseIrq _).trans (herrors _))
    (herrors _)

theorem kept_rxEvents (at' : Nat) : (a.rxEvents at').kept = a.kept := by
  have hfirst : (if a.latch AciaLatch.rxBusy && !a.rxCompleted && a.rxRdrfAt = at' then a.onRxRdrf
      else a).kept = a.kept := kept_ite kept_onRxRdrf rfl
  unfold rxEvents
  exact kept_ite hfirst hfirst

/-- **A round leaves the settings alone.** -/
theorem kept_advanceRound : a.advanceRound.kept = a.kept :=
  kept_ite ((kept_onTxBoundary _).trans (kept_rxEvents _)) (kept_rxEvents _)

theorem ErrorsMasked.advanceRound (h : a.ErrorsMasked) : a.advanceRound.ErrorsMasked := by
  have hsame : a.advanceRound.shiftErrors = a.shiftErrors :=
    congrArg (fun k => k.2.2.2.2) kept_advanceRound
  unfold ErrorsMasked
  rw [hsame]
  exact h

/-- Whether bytes are echoed depends on the settings alone. -/
theorem echoes_of_kept {b : Acia6551} (h : a.kept = b.kept) : a.echoes = b.echoes := by
  simp only [kept, Prod.mk.injEq] at h
  obtain ⟨hcontrol, hcommand, hlines, hclock, -⟩ := h
  unfold echoes tic hasClock divisorOf cts
  rw [hcontrol, hcommand, hlines, hclock]

end Kept

/-! ## Bytes out -/

section Flags

/-- The chip with other flags: where it stood before, and whether a byte waits to be
handed out. -/
def withFlags (previousSynced : Nat) (hasPendingOut : Bool) (a : Acia6551) : Acia6551 :=
  { a with previousSynced := previousSynced, hasPendingOut := hasPendingOut }

variable {p : Nat} {pending : Bool}

theorem raiseIrq_withFlags (fromLines : Bool) :
    (a.withFlags p pending).raiseIrq fromLines = (a.raiseIrq fromLines).withFlags p pending := by
  unfold raiseIrq withFlags
  dsimp only
  split_ifs <;> rfl

/-- An interrupt on a condition that does not depend on the flags. -/
theorem raiseIf_withFlags (c : Prop) [Decidable c] :
    (if c then (a.withFlags p pending).raiseIrq false else a.withFlags p pending)
      = (if c then a.raiseIrq false else a).withFlags p pending := by
  split_ifs
  · exact raiseIrq_withFlags _
  · rfl

theorem startTransmit_withFlags (at' : Nat) :
    (a.withFlags p pending).startTransmit at' = (a.startTransmit at').withFlags p true := by
  unfold startTransmit
  exact raiseIf_withFlags (a := { ((a.emit a.transmitData).setLatch AciaLatch.tdrFull false).setLatch
    AciaLatch.txBusy true with txAnchor := at', txBusyUntil := u64 (at' + a.frameCycles) })
    (a.ticInterrupts = true)

/-- A byte starts to be sent at a boundary. -/
def startsByte (a : Acia6551) : Bool :=
  a.tic ≠ AciaCommand.ticBreak && a.latch AciaLatch.tdrFull && a.transmitterSends

theorem onTxBoundary_withFlags (at' : Nat) : (a.withFlags p pending).onTxBoundary at'
    = (a.onTxBoundary at').withFlags p (pending || a.startsByte) := by
  have hfull : (a.setLatch AciaLatch.txBusy false).latch AciaLatch.tdrFull
      = a.latch AciaLatch.tdrFull := latch_setLatch_of_disjoint (by decide)
  have hmoved : (a.withFlags p pending).setLatch AciaLatch.txBusy false
      = (a.setLatch AciaLatch.txBusy false).withFlags p pending := rfl
  have htic : ((a.setLatch AciaLatch.txBusy false).withFlags p pending).tic = a.tic := rfl
  have hlatch : ((a.setLatch AciaLatch.txBusy false).withFlags p pending).latch AciaLatch.tdrFull
      = a.latch AciaLatch.tdrFull := hfull
  have hsends : ((a.setLatch AciaLatch.txBusy false).withFlags p pending).transmitterSends
      = a.transmitterSends := rfl
  have htic' : (a.setLatch AciaLatch.txBusy false).tic = a.tic := rfl
  have hsends' : (a.setLatch AciaLatch.txBusy false).transmitterSends = a.transmitterSends := rfl
  unfold onTxBoundary startsByte
  dsimp only
  rw [hmoved, htic, hlatch, hsends, htic', hfull, hsends']
  by_cases hbreak : a.tic = AciaCommand.ticBreak
  · simp only [hbreak, if_true, ne_eq, not_true_eq_false, decide_false, Bool.false_and, Bool.or_false]
    rfl
  · simp only [hbreak, if_false, ne_eq, not_false_eq_true, decide_true, Bool.true_and]
    cases hstart : a.latch AciaLatch.tdrFull && a.transmitterSends with
    | true =>
      rw [if_pos rfl, if_pos rfl, startTransmit_withFlags, Bool.or_true]
    | false =>
      rw [if_neg Bool.false_ne_true, if_neg Bool.false_ne_true, Bool.or_false]
      exact raiseIf_withFlags (a := { a.setLatch AciaLatch.txBusy false with txAnchor := at' }) _

/-- A byte is echoed when it is complete. -/
def echoesByte (a : Acia6551) : Bool := !a.latch AciaLatch.rdrf && a.echoes

/-- The register with the byte, and its errors. -/
def stored (a : Acia6551) : Acia6551 :=
  let b := ({ a with
    rxCompleted := true
    shiftData := 0
    receiveData := a.shiftData } : Acia6551).setLatch AciaLatch.rdrf true
  if a.shiftErrors = 0 then b.setLatch AciaLatch.errorMask false else b.setLatch a.shiftErrors true

/-- The byte in the register is told to the processor. -/
def told (a : Acia6551) : Acia6551 :=
  if a.dtr && a.command &&& AciaCommand.rxIrqDisable = 0 then a.stored.raiseIrq false else a.stored

/-- A byte that is complete, with every condition read off before. -/
theorem onRxRdrf_eq : a.onRxRdrf
    = if a.latch AciaLatch.rdrf then
        ({ a with rxCompleted := true, shiftData := 0 } : Acia6551).setLatch AciaStatus.overrun true
      else if a.echoes then a.told.emit a.shiftData else a.told := by
  have hstored : a.stored.kept = a.kept := kept_ite rfl rfl
  have htold : a.told.kept = a.kept := kept_ite ((kept_raiseIrq _).trans hstored) hstored
  have hcommand : a.stored.command = a.command := congrArg (fun k => k.2.1) hstored
  have hsame : (if a.stored.dtr && a.stored.command &&& AciaCommand.rxIrqDisable = 0 then
      a.stored.raiseIrq false else a.stored) = a.told := by
    unfold told dtr
    rw [hcommand]
  unfold onRxRdrf
  dsimp only
  change (if a.latch AciaLatch.rdrf then _ else
    if (if a.stored.dtr && a.stored.command &&& AciaCommand.rxIrqDisable = 0 then
      a.stored.raiseIrq false else a.stored).echoes
    then (if a.stored.dtr && a.stored.command &&& AciaCommand.rxIrqDisable = 0 then
      a.stored.raiseIrq false else a.stored).emit a.shiftData
    else (if a.stored.dtr && a.stored.command &&& AciaCommand.rxIrqDisable = 0 then
      a.stored.raiseIrq false else a.stored)) = _
  rw [hsame, echoes_of_kept htold]

theorem told_withFlags : (a.withFlags p pending).told = a.told.withFlags p pending := by
  have hstored : (a.withFlags p pending).stored = a.stored.withFlags p pending := by
    unfold stored
    dsimp only
    change (if a.shiftErrors = 0 then _ else _) = _
    split_ifs <;> rfl
  unfold told
  rw [hstored]
  exact raiseIf_withFlags _

theorem onRxRdrf_withFlags : (a.withFlags p pending).onRxRdrf
    = a.onRxRdrf.withFlags p (pending || a.echoesByte) := by
  have hlatch : (a.withFlags p pending).latch AciaLatch.rdrf = a.latch AciaLatch.rdrf := rfl
  have hechoes : (a.withFlags p pending).echoes = a.echoes := rfl
  rw [onRxRdrf_eq, onRxRdrf_eq, told_withFlags, hlatch, hechoes]
  unfold echoesByte
  cases a.latch AciaLatch.rdrf with
  | true =>
    rw [if_pos rfl, if_pos rfl, Bool.not_true, Bool.false_and, Bool.or_false]
    rfl
  | false =>
    rw [if_neg Bool.false_ne_true, if_neg Bool.false_ne_true, Bool.not_false, Bool.true_and]
    cases a.echoes with
    | true =>
      rw [if_pos rfl, if_pos rfl, Bool.or_true]
      rfl
    | false =>
      rw [if_neg Bool.false_ne_true, if_neg Bool.false_ne_true, Bool.or_false]

/-- The byte that comes in is complete at a cycle. -/
def rdrfDue (a : Acia6551) (at' : Nat) : Bool :=
  a.latch AciaLatch.rxBusy && !a.rxCompleted && a.rxRdrfAt = at'

theorem rxEvents_withFlags (at' : Nat) : (a.withFlags p pending).rxEvents at'
    = (a.rxEvents at').withFlags p (pending || a.rdrfDue at' && a.echoesByte) := by
  obtain ⟨b, hb⟩ : ∃ b, b = if a.rdrfDue at' then a.onRxRdrf else a := ⟨_, rfl⟩
  have hfirst : (if a.rdrfDue at' then (a.withFlags p pending).onRxRdrf else a.withFlags p pending)
      = b.withFlags p (pending || a.rdrfDue at' && a.echoesByte) := by
    rw [hb]
    cases a.rdrfDue at' with
    | true => rw [if_pos rfl, if_pos rfl, Bool.true_and, onRxRdrf_withFlags]
    | false =>
      rw [if_neg Bool.false_ne_true, if_neg Bool.false_ne_true, Bool.false_and, Bool.or_false]
  unfold rxEvents
  change (if (if a.rdrfDue at' then (a.withFlags p pending).onRxRdrf
      else a.withFlags p pending).latch AciaLatch.rxBusy && (if a.rdrfDue at' then
      (a.withFlags p pending).onRxRdrf else a.withFlags p pending).rxFreeAt = at' then
      (if a.rdrfDue at' then (a.withFlags p pending).onRxRdrf else a.withFlags p pending).onRxFree at'
    else (if a.rdrfDue at' then (a.withFlags p pending).onRxRdrf else a.withFlags p pending))
    = (if (if a.rdrfDue at' then a.onRxRdrf else a).latch AciaLatch.rxBusy
      && (if a.rdrfDue at' then a.onRxRdrf else a).rxFreeAt = at' then
      (if a.rdrfDue at' then a.onRxRdrf else a).onRxFree at'
    else (if a.rdrfDue at' then a.onRxRdrf else a)).withFlags p
      (pending || a.rdrfDue at' && a.echoesByte)
  rw [hfirst, ← hb]
  change (if b.latch AciaLatch.rxBusy && b.rxFreeAt = at' then _ else _) = _
  split_ifs <;> rfl

/-- The receiver's part of a round, from where the chip stands. -/
def received (a : Acia6551) : Acia6551 :=
  ({ a with synced := a.aciaNextEvent } : Acia6551).rxEvents a.aciaNextEvent

/-- **A byte goes out in a round.** -/
def emits (a : Acia6551) : Bool :=
  a.rdrfDue a.aciaNextEvent && a.echoesByte || a.txDue && a.received.startsByte

/-- **A round leaves the flags alone**, except that a byte may go out. -/
theorem advanceRound_withFlags : (a.withFlags p pending).advanceRound
    = a.advanceRound.withFlags p (pending || a.emits) := by
  have hreceived : (a.withFlags p pending).received
      = a.received.withFlags p (pending || a.rdrfDue a.aciaNextEvent && a.echoesByte) :=
    rxEvents_withFlags (a := { a with synced := a.aciaNextEvent }) a.aciaNextEvent
  change (if a.txDue then (a.withFlags p pending).received.onTxBoundary a.aciaNextEvent
    else (a.withFlags p pending).received) = Acia6551.withFlags p (pending || a.emits)
      (if a.txDue then a.received.onTxBoundary a.aciaNextEvent else a.received)
  unfold emits
  rw [hreceived]
  cases a.txDue with
  | true =>
    rw [if_pos rfl, if_pos rfl, onTxBoundary_withFlags, Bool.true_and, Bool.or_assoc]
  | false =>
    rw [if_neg Bool.false_ne_true, if_neg Bool.false_ne_true, Bool.false_and, Bool.or_false]

/-- **No byte goes out any more**: none waits that may be sent, and none comes in that is
echoed. -/
structure Spent (a : Acia6551) : Prop where
  /-- None is sent. -/
  sent : (a.clock.tdrFull && a.clock.sends) = false
  /-- None is echoed. -/
  echoed : (a.echoes && (a.clock.rxBusy && !a.clock.completed)) = false

/-- Bytes are not sent where they are echoed. -/
theorem sends_of_echoes (h : a.echoes = true) : a.transmitterSends = false := by
  unfold echoes at h
  unfold transmitterSends
  simp only [Bool.and_eq_true, decide_eq_true_eq] at h
  simp [h.1.1.2]

/-- A byte starts in a round only where it waits and may be sent. -/
theorem startsByte_received (h : a.ErrorsMasked) (hstarts : a.received.startsByte = true) :
    (a.clock.tdrFull && a.clock.sends) = true ∧ a.clock.mode ≠ .breaks := by
  have hmoved : ({ a with synced := a.aciaNextEvent } : Acia6551).clock
      = a.clock.stop a.aciaNextEvent := rfl
  have hclock : a.received.clock = (a.clock.stop a.aciaNextEvent).receive := by
    unfold received
    rw [clock_rxEvents (a := { a with synced := a.aciaNextEvent }) h rfl, hmoved]
  have hsame : a.received.clock.tdrFull = a.clock.tdrFull ∧ a.received.clock.sends = a.clock.sends
      ∧ a.received.clock.mode = a.clock.mode := by
    rw [hclock]
    unfold SerialClock.receive SerialClock.stop
    dsimp only
    split_ifs <;> exact ⟨rfl, rfl, rfl⟩
  unfold startsByte at hstarts
  simp only [Bool.and_eq_true, decide_eq_true_eq, ne_eq] at hstarts
  rw [← hsame.1, ← hsame.2.1, ← hsame.2.2, Bool.and_eq_true]
  refine ⟨⟨hstarts.1.2, hstarts.2⟩, ?_⟩
  change a.received.idleMode ≠ .breaks
  unfold idleMode
  rw [if_neg hstarts.1.1]
  split_ifs <;> decide

/-- **After the last byte a round hands out none**, and leaves none to hand out. -/
theorem Spent.round (h : a.Spent) (hmasked : a.ErrorsMasked) :
    a.emits = false ∧ a.advanceRound.Spent := by
  refine ⟨?_, ⟨?_, ?_⟩⟩
  · by_contra hemits
    simp only [emits, Bool.not_eq_false, Bool.or_eq_true, Bool.and_eq_true] at hemits
    rcases hemits with ⟨hdue, hechoes⟩ | ⟨-, hstarts⟩
    · simp only [rdrfDue, echoesByte, Bool.and_eq_true] at hdue hechoes
      have hnone := h.echoed
      rw [hechoes.2, Bool.true_and] at hnone
      exact absurd ((Bool.and_eq_true _ _).mpr hdue.1) (by rw [← Bool.not_eq_true] at hnone; exact hnone)
    · exact absurd (startsByte_received hmasked hstarts).1 (by simp [h.sent])
  · by_contra hsent
    rw [Bool.not_eq_false, clock_advanceRound hmasked, Bool.and_eq_true,
      SerialClock.sends_round] at hsent
    have hfull := SerialClock.tdrFull_of_round hsent.1
    exact absurd h.sent (by simp [hfull, hsent.2])
  · by_contra hechoed
    rw [Bool.not_eq_false, clock_advanceRound hmasked, echoes_of_kept kept_advanceRound,
      Bool.and_eq_true] at hechoed
    have hcoming := SerialClock.incomplete_of_round hechoed.2
    exact absurd h.echoed (by rw [hechoed.1, hcoming]; decide)

/-- **The byte a round hands out is the last.** -/
theorem spent_of_emits (hmasked : a.ErrorsMasked) (h : a.emits = true) :
    a.advanceRound.Spent := by
  simp only [emits, Bool.or_eq_true, Bool.and_eq_true] at h
  rcases h with ⟨hdue, hechoes⟩ | ⟨hdue, hstarts⟩
  · simp only [echoesByte, Bool.and_eq_true] at hechoes
    have hdue' : (a.clock.rxBusy && !a.clock.completed && a.clock.rdrfAt = a.clock.next) = true := by
      rw [next_clock]
      exact hdue
    have hsends : a.clock.sends = false := sends_of_echoes hechoes.2
    refine ⟨?_, ?_⟩
    · rw [clock_advanceRound hmasked, SerialClock.sends_round, hsends, Bool.and_false]
    · rw [clock_advanceRound hmasked, SerialClock.completed_round hdue']
      simp
  · obtain ⟨hstart, hmode⟩ := startsByte_received hmasked hstarts
    have hechoes : a.echoes = false := by
      by_contra hnot
      have hsends : a.clock.sends = false := sends_of_echoes (by simpa using hnot)
      rw [hsends, Bool.and_false] at hstart
      exact Bool.false_ne_true hstart
    rw [← txDue_clock] at hdue
    refine ⟨?_, ?_⟩
    · rw [clock_advanceRound hmasked, SerialClock.tdrFull_round hdue hmode hstart, Bool.false_and]
    · rw [echoes_of_kept kept_advanceRound, hechoes, Bool.false_and]

theorem pendingOut_raiseIrq (fromLines : Bool) :
    (a.raiseIrq fromLines).pendingOut = a.pendingOut := by
  unfold raiseIrq
  split_ifs <;> rfl

theorem pendingOut_onRxRdrf (h : a.echoesByte = false) :
    a.onRxRdrf.pendingOut = a.pendingOut := by
  have hstored : a.stored.pendingOut = a.pendingOut := by
    unfold stored
    dsimp only
    split_ifs <;> rfl
  have htold : a.told.pendingOut = a.pendingOut := by
    unfold told
    split_ifs
    · exact (pendingOut_raiseIrq _).trans hstored
    · exact hstored
  rw [onRxRdrf_eq]
  unfold echoesByte at h
  split_ifs with hlatch hbyte
  · rfl
  · simp [hlatch, hbyte] at h
  · exact htold

theorem pendingOut_rxEvents {at' : Nat} (h : (a.rdrfDue at' && a.echoesByte) = false) :
    (a.rxEvents at').pendingOut = a.pendingOut := by
  obtain ⟨b, hb⟩ : ∃ b, b = if a.rdrfDue at' then a.onRxRdrf else a := ⟨_, rfl⟩
  have hfirst : b.pendingOut = a.pendingOut := by
    rw [hb]
    split_ifs with hdue
    · exact pendingOut_onRxRdrf (by simpa [hdue] using h)
    · rfl
  have hrest : a.rxEvents at' = if b.latch AciaLatch.rxBusy && b.rxFreeAt = at' then b.onRxFree at'
      else b := by
    rw [hb]
    rfl
  rw [hrest]
  split_ifs
  · exact hfirst
  · exact hfirst

theorem pendingOut_onTxBoundary (h : a.startsByte = false) (at' : Nat) :
    (a.onTxBoundary at').pendingOut = a.pendingOut := by
  have hfull : (a.setLatch AciaLatch.txBusy false).latch AciaLatch.tdrFull
      = a.latch AciaLatch.tdrFull := latch_setLatch_of_disjoint (by decide)
  have htic : (a.setLatch AciaLatch.txBusy false).tic = a.tic := rfl
  have hsends : (a.setLatch AciaLatch.txBusy false).transmitterSends = a.transmitterSends := rfl
  unfold onTxBoundary
  dsimp only
  rw [hfull, htic, hsends]
  unfold startsByte at h
  split_ifs with hbreak hstart
  · rfl
  · simp [hbreak, hstart] at h
  · exact pendingOut_raiseIrq _
  · rfl

/-- **Only a byte that goes out changes the byte to hand out.** -/
theorem pendingOut_advanceRound (h : a.emits = false) :
    a.advanceRound.pendingOut = a.pendingOut := by
  simp only [emits, Bool.or_eq_false_iff] at h
  have hreceived : a.received.pendingOut = a.pendingOut :=
    pendingOut_rxEvents (a := { a with synced := a.aciaNextEvent }) h.1
  change (if a.txDue then a.received.onTxBoundary a.aciaNextEvent else a.received).pendingOut = _
  split_ifs with hdue
  · exact (pendingOut_onTxBoundary (by simpa [hdue] using h.2) _).trans hreceived
  · exact hreceived

end Flags

end LinApple.Chips.Acia6551
