import LinApple.Chips.AciaTime

/-!
# The sending half of the 6551

A byte that is written waits in the register until the transmitter takes it, and then until the
card hands it on; `unsent` is what waits. Nothing but a byte written over it, a reset and a save
state takes a byte away from there (`Sending.advance`), and a byte that is echoed does not get in
its way: where bytes are echoed none is sent.
-/

namespace LinApple.Chips.Acia6551

variable {a b : Acia6551} {bit : UInt8} {on : Bool} {rounds now : Nat}

/-- The settings are those of the echo mode. -/
def echoing (a : Acia6551) : Bool :=
  a.command &&& AciaCommand.echo ≠ 0 && a.tic = AciaCommand.ticOff

/-- The byte that waits in the register. -/
def loaded (a : Acia6551) : List UInt8 := if a.latch AciaLatch.tdrFull then [a.transmitData] else []

/-- **What has been written and not been handed on.** -/
def unsent (a : Acia6551) : List UInt8 := (if a.echoing then [] else a.pending) ++ a.loaded

theorem echoing_of_echoes (h : a.echoes = true) : a.echoing = true := by
  unfold echoes at h
  unfold echoing
  simp only [Bool.and_eq_true] at h ⊢
  exact h.1.1

/-- Where the settings are those of the echo mode, nothing is sent. -/
theorem sends_of_echoing (h : a.echoing = true) : a.transmitterSends = false := by
  unfold echoing at h
  unfold transmitterSends
  simp only [Bool.and_eq_true, decide_eq_true_eq] at h
  simp [h.2]

theorem echoing_of_kept (h : a.kept = b.kept) : a.echoing = b.echoing := by
  have hcommand : a.command = b.command := congrArg (fun k => k.2.1) h
  unfold echoing tic
  rw [hcommand]

/-! ### What leaves the register alone -/

section Loaded

theorem loaded_ite {l : List UInt8} {p : Prop} [Decidable p] {x y : Acia6551}
    (hx : x.loaded = l) (hy : y.loaded = l) : (if p then x else y).loaded = l := by
  split_ifs <;> assumption

@[simp] theorem loaded_raiseIrq (fromLines : Bool) : (a.raiseIrq fromLines).loaded = a.loaded := by
  unfold raiseIrq
  split_ifs <;> rfl

/-- The other latches. -/
theorem loaded_setLatch (h : bit &&& AciaLatch.tdrFull = 0) :
    (a.setLatch bit on).loaded = a.loaded := by
  unfold loaded
  rw [latch_setLatch_of_disjoint h]
  rfl

theorem loaded_onRxRdrf (h : a.ErrorsMasked) : a.onRxRdrf.loaded = a.loaded := by
  have hstored : a.stored.loaded = a.loaded := by
    have herrors : a.shiftErrors &&& AciaLatch.tdrFull = 0 := by
      rw [show AciaLatch.tdrFull = 0x70 &&& AciaLatch.tdrFull by decide, ← UInt8.and_assoc, h,
        UInt8.zero_and]
    exact loaded_ite ((loaded_setLatch (by decide)).trans (loaded_setLatch (by decide)))
      ((loaded_setLatch herrors).trans (loaded_setLatch (by decide)))
  have htold : a.told.loaded = a.loaded := loaded_ite ((loaded_raiseIrq _).trans hstored) hstored
  rw [onRxRdrf_eq]
  exact loaded_ite (loaded_setLatch (by decide)) (loaded_ite htold htold)

theorem loaded_rxEvents (h : a.ErrorsMasked) (at' : Nat) : (a.rxEvents at').loaded = a.loaded := by
  have hfirst : (if a.latch AciaLatch.rxBusy && !a.rxCompleted && a.rxRdrfAt = at' then a.onRxRdrf
      else a).loaded = a.loaded := loaded_ite (loaded_onRxRdrf h) rfl
  unfold rxEvents
  exact loaded_ite ((loaded_setLatch (by decide)).trans hfirst) hfirst

/-- A boundary at which no byte starts. -/
theorem loaded_onTxBoundary (h : a.startsByte = false) (at' : Nat) :
    (a.onTxBoundary at').loaded = a.loaded := by
  have hfull : (a.setLatch AciaLatch.txBusy false).latch AciaLatch.tdrFull
      = a.latch AciaLatch.tdrFull := latch_setLatch_of_disjoint (by decide)
  have hlatch : (a.setLatch AciaLatch.txBusy false).loaded = a.loaded :=
    loaded_setLatch (by decide)
  have htic : (a.setLatch AciaLatch.txBusy false).tic = a.tic := rfl
  have hsends : (a.setLatch AciaLatch.txBusy false).transmitterSends = a.transmitterSends := rfl
  unfold onTxBoundary
  dsimp only
  rw [hfull, htic, hsends]
  unfold startsByte at h
  split_ifs with hbreak hstart
  · exact hlatch
  · simp [hbreak, hstart] at h
  · exact (loaded_raiseIrq _).trans hlatch
  · exact hlatch

end Loaded

/-! ### A byte that goes out -/

/-- **A byte starts to be sent**: it is handed on, and the register is empty. -/
theorem startTransmit_spec (at' : Nat) : (a.startTransmit at').pending = [a.transmitData]
    ∧ (a.startTransmit at').latch AciaLatch.tdrFull = false := by
  obtain ⟨b, hb⟩ : ∃ b, b = ((a.emit a.transmitData).setLatch AciaLatch.tdrFull false).setLatch
    AciaLatch.txBusy true := ⟨_, rfl⟩
  have hpending : b.pending = [a.transmitData] := by
    rw [hb]
    rfl
  have hfull : b.latch AciaLatch.tdrFull = false := by
    rw [hb]
    exact (latch_setLatch_of_disjoint (by decide)).trans latch_setLatch_false
  have hirq (c : Acia6551) : (c.raiseIrq false).pending = c.pending
      ∧ (c.raiseIrq false).latch AciaLatch.tdrFull = c.latch AciaLatch.tdrFull := by
    unfold raiseIrq
    split_ifs <;> exact ⟨rfl, rfl⟩
  unfold startTransmit
  dsimp only
  rw [← hb]
  split_ifs
  · rw [(hirq _).1, (hirq _).2]
    exact ⟨hpending, hfull⟩
  · exact ⟨hpending, hfull⟩

/-- Two chips that differ in nothing that goes out. -/
theorem unsent_congr (hecho : b.echoing = a.echoing) (hpending : b.pending = a.pending)
    (hloaded : b.loaded = a.loaded) : b.unsent = a.unsent := by
  unfold unsent
  rw [hecho, hpending, hloaded]

theorem pending_of_not (h : a.hasPendingOut = false) : a.pending = [] := by
  unfold pending
  rw [h]
  rfl

/-- **A byte that waits to be handed on is the last one**, whatever the lines are: it is echoed and
no other byte comes in, or it was sent and the register is empty. -/
structure Waiting (a : Acia6551) : Prop where
  /-- Where bytes are echoed, none comes in. -/
  quiet : a.echoing = true → (a.clock.rxBusy && !a.clock.completed) = false
  /-- Where bytes are sent, the register is empty. -/
  last : a.echoing = true ∨ a.loaded = []

theorem Waiting.spent (h : a.Waiting) : a.Spent := by
  constructor
  · rcases h.last with hecho | hempty
    · show (a.latch AciaLatch.tdrFull && a.transmitterSends) = false
      rw [sends_of_echoing hecho, Bool.and_false]
    · unfold loaded at hempty
      show (a.latch AciaLatch.tdrFull && a.transmitterSends) = false
      cases hfull : a.latch AciaLatch.tdrFull with
      | false => rfl
      | true =>
        rw [hfull] at hempty
        exact absurd hempty (List.cons_ne_nil _ _)
  · cases hechoes : a.echoes with
    | false => rfl
    | true => exact h.quiet (echoing_of_echoes hechoes)

/-- **What a round leaves of what is to be sent**: everything. -/
theorem round_unsent (hmasked : a.ErrorsMasked) (hwait : a.hasPendingOut = true → a.Waiting) :
    a.advanceRound.unsent = a.unsent
      ∧ (a.advanceRound.hasPendingOut = true → a.advanceRound.Waiting) := by
  have hecho : a.advanceRound.echoing = a.echoing := echoing_of_kept kept_advanceRound
  have hreceived : a.received.loaded = a.loaded :=
    loaded_rxEvents (a := { a with synced := a.aciaNextEvent }) hmasked _
  have hbefore : a.emits = true → a.hasPendingOut = false := by
    intro hemits
    by_contra hpending
    exact absurd (((hwait (by simpa using hpending)).spent.round hmasked).1) (by simp [hemits])
  by_cases hstarts : (a.txDue && a.received.startsByte) = true
  · -- the byte in the register is sent
    have hemits : a.emits = true := by
      unfold emits
      rw [hstarts, Bool.or_true]
    obtain ⟨hdue, hstart⟩ := (Bool.and_eq_true _ _).mp hstarts
    obtain ⟨hfull, -⟩ := startsByte_received hmasked hstart
    have hsends : a.transmitterSends = true := ((Bool.and_eq_true _ _).mp hfull).2
    have hnotecho : a.echoing = false := by
      by_contra hno
      exact absurd (sends_of_echoing (by simpa using hno)) (by simp [hsends])
    have hround : a.advanceRound
        = (a.received.setLatch AciaLatch.txBusy false).startTransmit a.aciaNextEvent := by
      have hlatch : (a.received.setLatch AciaLatch.txBusy false).latch AciaLatch.tdrFull
          = a.received.latch AciaLatch.tdrFull := latch_setLatch_of_disjoint (by decide)
      simp only [startsByte, Bool.and_eq_true, decide_eq_true_eq, ne_eq] at hstart
      show (if a.txDue then a.received.onTxBoundary a.aciaNextEvent else a.received) = _
      rw [if_pos hdue]
      unfold onTxBoundary
      dsimp only
      rw [if_neg (show ¬(a.received.setLatch AciaLatch.txBusy false).tic = AciaCommand.ticBreak from
          hstart.1.1), hlatch, hstart.1.2,
        show (a.received.setLatch AciaLatch.txBusy false).transmitterSends = true from hstart.2]
      rfl
    obtain ⟨hpending, hempty⟩ :=
      startTransmit_spec (a := a.received.setLatch AciaLatch.txBusy false) a.aciaNextEvent
    have hloaded : a.advanceRound.loaded = [] := by
      rw [hround]
      unfold loaded
      rw [hempty]
      rfl
    refine ⟨?_, fun _ => ⟨fun he => absurd (hnotecho.symm.trans (hecho.symm.trans he))
      Bool.false_ne_true, .inr hloaded⟩⟩
    have hwas : a.loaded = [a.received.transmitData] := by
      rw [← hreceived]
      unfold loaded
      simp only [startsByte, Bool.and_eq_true] at hstart
      rw [hstart.1.2]
      rfl
    unfold unsent
    rw [hecho, hnotecho, hloaded, hwas, pending_of_not (hbefore hemits), hround, hpending]
    rfl
  · -- none is sent, but one may be echoed
    have hloaded : a.advanceRound.loaded = a.loaded := by
      show (if a.txDue then a.received.onTxBoundary a.aciaNextEvent else a.received).loaded = _
      split_ifs with hdue
      · rw [loaded_onTxBoundary (by simpa [hdue] using hstarts), hreceived]
      · exact hreceived
    have hout := hasPendingOut_advanceRound a
    cases hemits : a.emits with
    | false =>
      have hpending : a.advanceRound.pending = a.pending := by
        unfold pending
        rw [hout, hemits, Bool.or_false, pendingOut_advanceRound hemits]
      refine ⟨unsent_congr hecho hpending hloaded, fun hp => ?_⟩
      rw [hout, hemits, Bool.or_false] at hp
      refine ⟨fun he => ?_, by rw [hecho, hloaded]; exact (hwait hp).last⟩
      have hnone := (hwait hp).quiet (hecho.symm.trans he)
      rw [clock_advanceRound hmasked]
      by_contra hcoming
      exact absurd (SerialClock.incomplete_of_round (by simpa using hcoming)) (by simp [hnone])
    | true =>
      have hechoes : a.echoes = true := by
        unfold emits at hemits
        rw [Bool.eq_false_iff.mpr hstarts, Bool.or_false, Bool.and_eq_true] at hemits
        exact ((Bool.and_eq_true _ _).mp hemits.2).2
      have hlast := (spent_of_emits hmasked hemits).echoed
      rw [echoes_of_kept kept_advanceRound, hechoes, Bool.true_and] at hlast
      have hechoing := echoing_of_echoes hechoes
      refine ⟨?_, fun _ => ⟨fun _ => hlast, .inl (hecho.trans hechoing)⟩⟩
      unfold unsent
      rw [hecho, hechoing, hloaded]
      rfl

/-! ## Time -/

/-- **The second chip has to send what the first had.** -/
structure SameUnsent (a b : Acia6551) : Prop where
  /-- The errors are none of the latches. -/
  masked : b.ErrorsMasked
  /-- A byte that waits is the last. -/
  waiting : b.hasPendingOut = true → b.Waiting
  /-- What is to be sent is the same. -/
  unsent : b.unsent = a.unsent
  /-- So are the settings. -/
  command : b.command = a.command

/-- **Time sends no byte twice**, and drops none. -/
theorem sameUnsent_advance (hmasked : a.ErrorsMasked) (hwait : a.hasPendingOut = true → a.Waiting)
    (hb : a.advance rounds now = some b) : a.SameUnsent b := by
  unfold advance at hb
  split_ifs at hb with hlt heq
  · cases hb
    exact ⟨hmasked, fun hp => ⟨(hwait hp).quiet, (hwait hp).last⟩, rfl, rfl⟩
  · cases hb
    exact ⟨hmasked, hwait, rfl, rfl⟩
  · obtain ⟨c, hc, rfl⟩ := Option.map_eq_some_iff.1 hb
    have hend : events.EndsIn now { a with previousSynced := a.synced } c := ⟨rounds, hc⟩
    have hsame : a.SameUnsent c := hend.invariant (P := a.SameUnsent)
      (fun c _ hs => by
        obtain ⟨hunsent, hwaits⟩ := round_unsent hs.masked hs.waiting
        exact ⟨hs.masked.advanceRound, hwaits, hunsent.trans hs.unsent,
          (congrArg (fun k => k.2.1) kept_advanceRound).trans hs.command⟩)
      ⟨hmasked, fun hp => ⟨(hwait hp).quiet, (hwait hp).last⟩, rfl, rfl⟩
    exact ⟨hsame.masked, fun hp => ⟨(hsame.waiting hp).quiet, (hsame.waiting hp).last⟩, hsame.unsent, hsame.command⟩

/-! ## What the card does -/

theorem SameUnsent.trans {c : Acia6551} (h : a.SameUnsent b) (h' : b.SameUnsent c) :
    a.SameUnsent c :=
  ⟨h'.masked, h'.waiting, h'.unsent.trans h.unsent, h'.command.trans h.command⟩

/-- **A byte that may start** has no other in front of it. -/
theorem sameUnsent_tryStartTransmit (hmasked : a.ErrorsMasked)
    (hwait : a.hasPendingOut = true → a.Waiting) (at' : Nat) :
    a.SameUnsent (a.tryStartTransmit at')
      ∧ (a.hasPendingOut = false → (a.tryStartTransmit at').hasPendingOut = true →
        a.echoing = false) := by
  unfold tryStartTransmit
  split_ifs with hstart
  · simp only [Bool.and_eq_true] at hstart
    obtain ⟨⟨hfull, -⟩, hsends⟩ := hstart
    -- an echoing chip is sending already, so what starts now is the host's own byte
    have hnotecho : a.echoing = false := by
      by_contra hno
      exact absurd (sends_of_echoing (by simpa using hno)) (by simp [hsends])
    have hloaded : a.loaded = [a.transmitData] := by
      unfold loaded
      rw [hfull]
      rfl
    have hnone : a.hasPendingOut = false := by
      by_contra hpending
      rcases (hwait (by simpa using hpending)).last with hecho | hempty
      · exact absurd (hnotecho.symm.trans hecho) Bool.false_ne_true
      · exact absurd (hloaded.symm.trans hempty) (List.cons_ne_nil _ _)
    obtain ⟨hpending, hempty⟩ := startTransmit_spec (a := a) at'
    have hkept := kept_startTransmit (a := a) at'
    have hecho : (a.startTransmit at').echoing = false :=
      (echoing_of_kept hkept).trans hnotecho
    have hgone : (a.startTransmit at').loaded = [] := by
      unfold loaded
      rw [hempty]
      rfl
    have herrors : (a.startTransmit at').shiftErrors = a.shiftErrors :=
      congrArg (fun k => k.2.2.2.2) hkept
    refine ⟨⟨?_, fun _ => ⟨fun he => absurd (hecho.symm.trans he) Bool.false_ne_true, .inr hgone⟩, ?_,
      congrArg (fun k => k.2.1) hkept⟩, fun _ _ => hnotecho⟩
    · unfold ErrorsMasked
      rw [herrors]
      exact hmasked
    · unfold unsent
      rw [hecho, hnotecho, hpending, hgone, hloaded, pending_of_not hnone]
      rfl
  · exact ⟨⟨hmasked, hwait, rfl, rfl⟩, fun hnone hsome => absurd (hnone.symm.trans hsome) (by decide)⟩

/-- The lines may let a byte start. -/
theorem sameUnsent_setLines (hmasked : a.ErrorsMasked) (hwait : a.hasPendingOut = true → a.Waiting)
    (lines : UInt8) (now : Nat) : a.SameUnsent (a.setLines lines now) := by
  unfold setLines
  dsimp only
  split_ifs
  · have hirq (b : Acia6551) (hb : a.SameUnsent b) : a.SameUnsent (b.raiseIrq true) := by
      have heq : (b.raiseIrq true) = { b with
          irq := (b.raiseIrq true).irq, irqFromLines := (b.raiseIrq true).irqFromLines } := by
        unfold raiseIrq
        split_ifs <;> rfl
      rw [heq]
      exact ⟨hb.masked, fun hp => ⟨(hb.waiting hp).quiet, (hb.waiting hp).last⟩, hb.unsent, hb.command⟩
    have hfirst := hirq { a with lines := lines &&& AciaLineBit.allAsserted }
      ⟨hmasked, fun hp => ⟨(hwait hp).quiet, (hwait hp).last⟩, rfl, rfl⟩
    exact hfirst.trans (sameUnsent_tryStartTransmit hfirst.masked hfirst.waiting now).1
  · have hfirst : a.SameUnsent { a with lines := lines &&& AciaLineBit.allAsserted } :=
      ⟨hmasked, fun hp => ⟨(hwait hp).quiet, (hwait hp).last⟩, rfl, rfl⟩
    exact hfirst.trans (sameUnsent_tryStartTransmit hfirst.masked hfirst.waiting now).1

/-- What waits is handed on. -/
theorem unsent_handedOut (a : Acia6551) :
    a.unsent = (if a.echoing then [] else a.pending) ++ a.handedOut.unsent := by
  have hnone : a.handedOut.pending = [] := rfl
  have hunsent : a.handedOut.unsent = a.loaded := by
    unfold unsent
    rw [hnone, ite_self]
    rfl
  rw [hunsent]
  rfl

/-! ### Where the chip stands -/

section Synced

theorem synced_ite {p : Prop} [Decidable p] {x y : Acia6551} (hx : x.synced = now)
    (hy : y.synced = now) : (if p then x else y).synced = now := by
  split_ifs <;> assumption

@[simp] theorem synced_raiseIrq (fromLines : Bool) : (a.raiseIrq fromLines).synced = a.synced := by
  unfold raiseIrq
  split_ifs <;> rfl

theorem synced_tryStartTransmit (at' : Nat) : (a.tryStartTransmit at').synced = a.synced :=
  synced_ite (synced_ite (synced_raiseIrq _) rfl) rfl

theorem synced_setLines (lines : UInt8) (at' : Nat) : (a.setLines lines at').synced = a.synced :=
  (synced_tryStartTransmit _).trans (synced_ite (synced_raiseIrq _) rfl)

theorem synced_writeRegister (reg value : UInt8) (at' : Nat) :
    (a.writeRegister reg value at').synced = a.synced := by
  unfold writeRegister
  dsimp only
  refine synced_ite ?_ (synced_ite ?_ ?_)
  · exact synced_tryStartTransmit _
  · exact (synced_tryStartTransmit _).trans (synced_ite rfl rfl)
  · exact (synced_tryStartTransmit _).trans (synced_ite rfl rfl)

theorem synced_readRegister (reg : UInt8) (at' : Nat) :
    (a.readRegister reg at').1.synced = a.synced := by
  unfold readRegister
  split_ifs <;> rfl

theorem synced_programmedReset : a.programmedReset.synced = a.synced := by
  unfold programmedReset
  dsimp only
  split_ifs <;> rfl

end Synced

/-- The chip is brought up to where it stands. -/
theorem advance_self (hnow : a.synced = now) : a.advance rounds now = some a := by
  unfold advance
  rw [if_neg (by omega), if_pos hnow.symm]

/-- The chip hands on what waits, where it stands. -/
theorem aciaStep_eq {out : Option UInt8} (hnow : a.synced = now)
    (h : a.aciaStep rounds now = some (b, out)) : b = a.handedOut ∧ out.toList = a.pending := by
  have hstep : a.aciaStep rounds now = if !a.hasPendingOut then some (a, none)
      else some ({ a with hasPendingOut := false }, some a.pendingOut) := by
    unfold aciaStep
    rw [advance_self hnow, ite_self]
    rfl
  rw [hstep] at h
  cases hpending : a.hasPendingOut with
  | false =>
    rw [hpending] at h
    obtain ⟨rfl, rfl⟩ := Prod.mk.inj (Option.some.inj h)
    refine ⟨?_, (pending_of_not hpending).symm⟩
    unfold handedOut
    rw [← hpending]
  | true =>
    rw [hpending] at h
    obtain ⟨rfl, rfl⟩ := Prod.mk.inj (Option.some.inj h)
    refine ⟨rfl, ?_⟩
    unfold pending
    rw [hpending]
    rfl

theorem sendBytes_eq {bytes : List UInt8} (hnow : a.synced = now)
    (h : a.sendBytes rounds now = some (b, bytes)) : b = a.handedOut ∧ bytes = a.pending := by
  unfold sendBytes at h
  cases rounds with
  | zero => exact absurd h (by simp [sendLoop])
  | succ n =>
    rw [sendLoop] at h
    obtain ⟨r, hr, h⟩ := Option.bind_eq_some_iff.1 h
    obtain ⟨hfirst, hout⟩ := aciaStep_eq hnow hr
    obtain ⟨c, byte⟩ := r
    dsimp only at hfirst hout h
    subst hfirst
    cases byte with
    | none =>
      obtain ⟨rfl, rfl⟩ := Prod.mk.inj (Option.some.inj h)
      exact ⟨rfl, hout⟩
    | some byte =>
      cases n with
      | zero => exact absurd h (by simp [sendLoop])
      | succ n =>
        obtain ⟨q, hq, h⟩ := Option.bind_eq_some_iff.1 h
        rw [sendLoop] at hq
        obtain ⟨r, hr, hq⟩ := Option.bind_eq_some_iff.1 hq
        obtain ⟨hsecond, hnone⟩ := aciaStep_eq (a := a.handedOut) hnow hr
        obtain ⟨d, byte'⟩ := r
        dsimp only at hsecond hnone hq
        subst hsecond
        cases byte' with
        | some byte' => exact absurd hnone (List.cons_ne_nil _ _)
        | none =>
          obtain rfl := Option.some.inj hq
          obtain ⟨rfl, rfl⟩ := Prod.mk.inj (Option.some.inj h)
          exact ⟨rfl, hout⟩

/-- **What the card gets when it writes a register**, where the chip stands. -/
theorem aciaWrite_eq {reg value : UInt8} {out : Option UInt8} (hnow : a.synced = now)
    (h : a.aciaWrite rounds reg value now = some (b, out)) :
    ∃ c, c = (if reg &&& AciaReg.mask = AciaReg.status then a.programmedReset
        else a.writeRegister reg value now)
      ∧ b = c.handedOut ∧ out.toList = c.pending ∧ c.synced = now := by
  obtain ⟨c, hc, h⟩ := Option.bind_eq_some_iff.1 h
  obtain rfl := Option.some.inj ((advance_self hnow).symm.trans hc)
  refine ⟨_, rfl, ?_⟩
  split_ifs at h ⊢
  · obtain ⟨d, hd, h⟩ := Option.bind_eq_some_iff.1 h
    unfold aciaProgrammedReset at hd
    rw [advance_self hnow] at hd
    obtain rfl := Option.some.inj hd
    have hsynced : a.programmedReset.synced = now := synced_programmedReset.trans hnow
    obtain ⟨hb, hout⟩ := aciaStep_eq hsynced h
    exact ⟨hb, hout, hsynced⟩
  · have hsynced : (a.writeRegister reg value now).synced = now :=
      (synced_writeRegister _ _ _).trans hnow
    obtain ⟨hb, hout⟩ := aciaStep_eq hsynced h
    exact ⟨hb, hout, hsynced⟩

/-- **A byte is taken where the receiver is ready for it**, where the chip stands. -/
theorem aciaRxStart_eq {byte : UInt8} (hnow : a.synced = now) (hready : a.aciaRxReady = true)
    (h : a.aciaRxStart rounds byte 0 now = some b) : b = a.receive byte 0 now := by
  unfold aciaRxReady at hready
  simp only [Bool.and_eq_true, Bool.not_eq_true'] at hready
  obtain ⟨⟨⟨⟨hclock, -⟩, -⟩, hbusy⟩, -⟩ := hready
  unfold aciaRxStart at h
  rw [hclock, advance_self hnow] at h
  rw [if_neg (by decide)] at h
  obtain ⟨c, hc, h⟩ := Option.bind_eq_some_iff.1 h
  obtain rfl := Option.some.inj hc
  rw [hbusy, if_neg Bool.false_ne_true] at h
  have hstands : (a.receive byte 0 now).synced = now := hnow
  rw [advance_self hstands] at h
  exact (Option.some.inj h).symm

/-! ### What a written register leaves to be sent -/

/-- A chip whose latches are clear has no byte that waits. -/
theorem loaded_of_statusLatches (h : a.statusLatches = 0) : a.loaded = [] := by
  unfold loaded latch
  rw [h, UInt8.zero_and]
  rfl

theorem unsent_of_not (h : a.hasPendingOut = false) : a.unsent = a.loaded := by
  unfold unsent
  rw [pending_of_not h, ite_self]
  rfl

/-- A byte that starts where none waited is not an echo. -/
theorem unsent_tryStartTransmit (hmasked : a.ErrorsMasked) (hnone : a.hasPendingOut = false)
    (at' : Nat) : (a.tryStartTransmit at').ErrorsMasked
      ∧ a.loaded = (a.tryStartTransmit at').pending
        ++ (a.tryStartTransmit at').handedOut.loaded := by
  obtain ⟨hsame, hecho⟩ := sameUnsent_tryStartTransmit hmasked
    (fun hp => absurd (hnone.symm.trans hp) Bool.false_ne_true) at'
  have hcommand : (a.tryStartTransmit at').echoing = a.echoing := by
    unfold echoing tic
    rw [hsame.command]
  refine ⟨hsame.masked, ?_⟩
  rw [← unsent_of_not hnone, ← hsame.unsent, unsent_handedOut, unsent_of_not rfl, hcommand]
  cases hpending : (a.tryStartTransmit at').hasPendingOut with
  | false =>
    rw [pending_of_not hpending, ite_self]
  | true => rw [hecho hnone hpending, if_neg Bool.false_ne_true]

/-- **What waits after a register was written**, and what goes out with it: the byte that was
written, if it is the data register, and what was there before, if not. -/
theorem unsent_writeRegister (hmasked : a.ErrorsMasked) (hnone : a.hasPendingOut = false)
    (reg value : UInt8) (at' : Nat) : (a.writeRegister reg value at').ErrorsMasked
      ∧ (if reg &&& AciaReg.mask = AciaReg.data then [value] else a.loaded)
        = (a.writeRegister reg value at').pending
          ++ (a.writeRegister reg value at').handedOut.loaded := by
  unfold writeRegister
  dsimp only
  split_ifs
  · obtain ⟨hstill, hsplit⟩ := unsent_tryStartTransmit
      (a := ({ a with transmitData := value } : Acia6551).setLatch AciaLatch.tdrFull true) hmasked
      hnone at'
    refine ⟨hstill, ?_⟩
    rw [← hsplit]
    unfold loaded
    rw [latch_setLatch_true (by decide)]
    rfl
  · exact unsent_tryStartTransmit (a := { a with command := value, breakLevel := false }) hmasked
      hnone at'
  · exact unsent_tryStartTransmit (a := { a with command := value }) hmasked hnone at'
  · exact unsent_tryStartTransmit (a := { a with control := value, txAnchor := at' }) hmasked hnone
      at'
  · exact unsent_tryStartTransmit (a := { a with control := value }) hmasked hnone at'

/-- A programmed reset leaves the byte that waits. -/
theorem unsent_programmedReset (hmasked : a.ErrorsMasked) (hnone : a.hasPendingOut = false) :
    a.programmedReset.ErrorsMasked ∧ a.programmedReset.hasPendingOut = false
      ∧ a.programmedReset.loaded = a.loaded := by
  have hlatch (b : Acia6551) : (b.setLatch AciaStatus.overrun false).loaded = b.loaded :=
    loaded_setLatch (by decide)
  unfold programmedReset
  dsimp only
  split_ifs <;> exact ⟨hmasked, hnone, hlatch _⟩

/-- Nor does reading a register take it. -/
theorem unsent_readRegister (hmasked : a.ErrorsMasked) (reg : UInt8) (at' : Nat) :
    (a.readRegister reg at').1.ErrorsMasked
      ∧ (a.readRegister reg at').1.hasPendingOut = a.hasPendingOut
      ∧ (a.readRegister reg at').1.loaded = a.loaded := by
  have hlatch : (a.setLatch AciaLatch.rdrf false).loaded = a.loaded := loaded_setLatch (by decide)
  unfold readRegister
  split_ifs
  · exact ⟨hmasked, rfl, hlatch⟩
  all_goals exact ⟨hmasked, rfl, rfl⟩

/-- Nor does a byte that comes in. -/
theorem unsent_receive (byte : UInt8) (at' : Nat) : (a.receive byte 0 at').ErrorsMasked
    ∧ (a.receive byte 0 at').hasPendingOut = a.hasPendingOut
    ∧ (a.receive byte 0 at').loaded = a.loaded :=
  ⟨by show (0 &&& AciaLatch.errorMask &&& ~~~AciaStatus.overrun) &&& 0x70 = 0; decide, rfl,
    loaded_setLatch (a := { a with
      shiftData := byte
      shiftErrors := 0 &&& AciaLatch.errorMask &&& ~~~AciaStatus.overrun
      rxCompleted := false }) (by decide)⟩

end LinApple.Chips.Acia6551
