import LinApple.Chips.AciaRounds

/-!
# The receiving half of the 6551

The receiver holds at most two bytes, one in its register and one that comes in; `held` is what
they are. As long as a byte is started only where the receiver is ready, they are never two, and
neither time nor what the processor does loses one (`Clean.advance`).
-/

namespace LinApple.Chips

/-- **What the receiver keeps.** -/
structure AciaReceiver where
  /-- `acia_latch::rdrf` -/
  full : Bool
  /-- `acia_latch::rx_busy` -/
  busy : Bool
  /-- `acia_latch::error_mask` -/
  errors : UInt8
  /-- `receive_data` -/
  data : UInt8
  /-- `shift_data` -/
  shift : UInt8
  /-- `shift_errors` -/
  shiftErrors : UInt8
  /-- `rx_completed` -/
  completed : Bool
  /-- `rx_rdrf_at` -/
  rdrfAt : Nat
  /-- `rx_free_at` -/
  freeAt : Nat
  /-- `clock_mhz` -/
  clockMhz : Nat

namespace AciaReceiver

variable {r : AciaReceiver} {next : Nat}

/-- A byte comes in. -/
def coming (r : AciaReceiver) : Bool := r.busy && !r.completed

/-- **The bytes in the receiver**, the older one first. -/
def held (r : AciaReceiver) : List UInt8 :=
  (if r.full then [r.data] else []) ++ if r.coming then [r.shift] else []

/-- A byte without errors is complete. -/
def complete (r : AciaReceiver) : AciaReceiver :=
  if r.full then { r with completed := true, shift := 0, errors := r.errors ||| AciaStatus.overrun }
  else { r with completed := true, shift := 0, data := r.shift, full := true, errors := 0 }

/-- The byte that comes in is complete, where that is due. -/
def arrive (next : Nat) (r : AciaReceiver) : AciaReceiver :=
  if r.busy && !r.completed && r.rdrfAt = next then r.complete else r

/-- The character is over, where that is due. -/
def free (next : Nat) (r : AciaReceiver) : AciaReceiver :=
  if r.busy && r.freeAt = next then { r with busy := false } else r

/-- **The receiver has room for the byte that comes in**, and there was no error. -/
structure Clean (r : AciaReceiver) : Prop where
  /-- No error has been seen, -/
  errors : r.errors = 0
  /-- and none comes. -/
  shiftErrors : r.shiftErrors = 0
  /-- There are never two bytes. -/
  room : r.full = true → r.coming = false
  /-- A byte is complete before its character is over. -/
  ordered : r.coming = true → r.rdrfAt ≤ r.freeAt

/-- A byte that is complete stays in the receiver. -/
theorem Clean.arrive (h : r.Clean) (hnext : r.coming = true → next ≤ r.rdrfAt) :
    (r.arrive next).Clean ∧ (r.arrive next).held = r.held
      ∧ ((r.arrive next).coming = true → (r.arrive next).freeAt ≠ next) := by
  unfold AciaReceiver.arrive
  split_ifs with hdue
  · simp only [Bool.and_eq_true, decide_eq_true_eq] at hdue
    have hcoming : r.coming = true := (Bool.and_eq_true _ _).mpr hdue.1
    have hempty : r.full = false := by
      by_contra hfull
      exact absurd hcoming (by simp [h.room (by simpa using hfull)])
    have hgone : r.complete.coming = false := by
      simp [complete, hempty, coming]
    refine ⟨⟨?_, ?_, fun _ => hgone, fun hc => absurd (hgone.symm.trans hc) (by decide)⟩, ?_,
      fun hc => absurd (hgone.symm.trans hc) (by decide)⟩
    · simp [complete, hempty]
    · simpa [complete, hempty] using h.shiftErrors
    · rw [held, held, hgone, hempty, hcoming]
      simp [complete, hempty]
  · refine ⟨h, rfl, fun hc hfree => hdue ?_⟩
    have hboth := (Bool.and_eq_true _ _).mp hc
    have hle := h.ordered hc
    have hlate := hnext hc
    simp only [hboth.1, hboth.2, Bool.and_self, Bool.true_and, decide_eq_true_eq]
    omega

/-- A character that is over takes no byte with it. -/
theorem Clean.free (h : r.Clean) (hnext : r.coming = true → r.freeAt ≠ next) :
    (r.free next).Clean ∧ (r.free next).held = r.held := by
  unfold AciaReceiver.free
  split_ifs with hfree
  · simp only [Bool.and_eq_true, decide_eq_true_eq] at hfree
    have hnone : r.coming = false := by
      by_contra hc
      exact hnext (by simpa using hc) hfree.2
    refine ⟨⟨h.errors, h.shiftErrors, fun _ => rfl, fun hc => absurd hc Bool.false_ne_true⟩, ?_⟩
    rw [held, held, hnone]
    rfl
  · exact ⟨h, rfl⟩

end AciaReceiver

namespace Acia6551

variable {a b : Acia6551} {bit : UInt8} {on : Bool} {rounds now : Nat}

/-- **The receiver of the chip.** -/
def receiver (a : Acia6551) : AciaReceiver where
  full := a.latch AciaLatch.rdrf
  busy := a.latch AciaLatch.rxBusy
  errors := a.statusLatches &&& AciaLatch.errorMask
  data := a.receiveData
  shift := a.shiftData
  shiftErrors := a.shiftErrors
  completed := a.rxCompleted
  rdrfAt := a.rxRdrfAt
  freeAt := a.rxFreeAt
  clockMhz := a.clockMhz

/-! ### What leaves the receiver alone -/

section Alone

theorem receiver_ite {r : AciaReceiver} {p : Prop} [Decidable p] {x y : Acia6551}
    (hx : x.receiver = r) (hy : y.receiver = r) : (if p then x else y).receiver = r := by
  split_ifs <;> assumption

@[simp] theorem receiver_raiseIrq (fromLines : Bool) :
    (a.raiseIrq fromLines).receiver = a.receiver := by
  unfold raiseIrq
  split_ifs <;> rfl

/-- The transmitter's latches are not the receiver's. -/
theorem receiver_setLatch (h : bit &&& 0x4F = 0) : (a.setLatch bit on).receiver = a.receiver := by
  have hpart (m : UInt8) (hm : 0x4F &&& m = m) : bit &&& m = 0 := by
    rw [← hm, ← UInt8.and_assoc, h, UInt8.zero_and]
  have hfull : (a.setLatch bit on).latch AciaLatch.rdrf = a.latch AciaLatch.rdrf :=
    latch_setLatch_of_disjoint (hpart AciaLatch.rdrf (by decide))
  have hbusy : (a.setLatch bit on).latch AciaLatch.rxBusy = a.latch AciaLatch.rxBusy :=
    latch_setLatch_of_disjoint (hpart AciaLatch.rxBusy (by decide))
  have herrors : (a.setLatch bit on).statusLatches &&& AciaLatch.errorMask
      = a.statusLatches &&& AciaLatch.errorMask := by
    have hnone := hpart AciaLatch.errorMask (by decide)
    unfold setLatch
    cases on with
    | true => exact Byte.or_and_of_disjoint _ hnone
    | false => exact Byte.and_not_and_of_disjoint _ hnone
  unfold receiver
  rw [hfull, hbusy, herrors]
  rfl

theorem receiver_startTransmit (at' : Nat) : (a.startTransmit at').receiver = a.receiver := by
  have hlatches : ((((a.emit a.transmitData).setLatch AciaLatch.tdrFull false).setLatch
      AciaLatch.txBusy true)).receiver = a.receiver :=
    (receiver_setLatch (by decide)).trans (receiver_setLatch (by decide))
  exact receiver_ite ((receiver_raiseIrq _).trans hlatches) hlatches

theorem receiver_tryStartTransmit (at' : Nat) :
    (a.tryStartTransmit at').receiver = a.receiver :=
  receiver_ite (receiver_startTransmit at') rfl

/-- A boundary of the transmitter. -/
theorem receiver_onTxBoundary (at' : Nat) : (a.onTxBoundary at').receiver = a.receiver := by
  have hlatch : (a.setLatch AciaLatch.txBusy false).receiver = a.receiver :=
    receiver_setLatch (by decide)
  exact receiver_ite hlatch (receiver_ite ((receiver_startTransmit _).trans hlatch)
    (receiver_ite ((receiver_raiseIrq _).trans hlatch) hlatch))

end Alone

/-! ### Time -/

/-- A byte that comes in without errors is in the register. -/
theorem receiver_stored (h : a.shiftErrors = 0) : a.stored.receiver
    = { a.receiver with completed := true, shift := 0, data := a.shiftData, full := true, errors := 0 }
    := by
  have hclear (l : UInt8) : (l &&& ~~~AciaLatch.errorMask) &&& AciaLatch.errorMask = 0 := by
    rw [UInt8.and_assoc, show ~~~AciaLatch.errorMask &&& AciaLatch.errorMask = 0 by decide,
      UInt8.and_zero]
  have hfull (b : Acia6551) : ((b.setLatch AciaLatch.rdrf true).setLatch AciaLatch.errorMask
      false).latch AciaLatch.rdrf = true :=
    (latch_setLatch_of_disjoint (by decide)).trans (latch_setLatch_true (by decide))
  have hbusy (b : Acia6551) : ((b.setLatch AciaLatch.rdrf true).setLatch AciaLatch.errorMask
      false).latch AciaLatch.rxBusy = b.latch AciaLatch.rxBusy :=
    (latch_setLatch_of_disjoint (by decide)).trans (latch_setLatch_of_disjoint (by decide))
  unfold stored
  dsimp only
  rw [if_pos h]
  unfold receiver
  rw [hfull, hbusy]
  exact congrArg (AciaReceiver.mk _ _ · _ _ _ _ _ _ _) (hclear _)

/-- A byte is complete. -/
theorem receiver_onRxRdrf (h : a.shiftErrors = 0) : a.onRxRdrf.receiver = a.receiver.complete := by
  have htold : a.told.receiver = a.stored.receiver := receiver_ite (receiver_raiseIrq _) rfl
  rw [onRxRdrf_eq]
  unfold AciaReceiver.complete
  by_cases hfull : a.latch AciaLatch.rdrf = true
  · rw [if_pos hfull, if_pos (show a.receiver.full = true from hfull)]
    have hbusy (b : Acia6551) : (b.setLatch AciaStatus.overrun true).latch AciaLatch.rxBusy
        = b.latch AciaLatch.rxBusy := latch_setLatch_of_disjoint (by decide)
    have hlatch (b : Acia6551) : (b.setLatch AciaStatus.overrun true).latch AciaLatch.rdrf
        = b.latch AciaLatch.rdrf := latch_setLatch_of_disjoint (by decide)
    have herrors (b : Acia6551) : (b.setLatch AciaStatus.overrun true).statusLatches
        &&& AciaLatch.errorMask = (b.statusLatches &&& AciaLatch.errorMask) ||| AciaStatus.overrun :=
      Byte.or_and_distrib_right
    unfold receiver
    rw [hbusy, hlatch, herrors]
    rfl
  · rw [if_neg hfull, if_neg (show ¬a.receiver.full = true from hfull)]
    exact receiver_ite (htold.trans (receiver_stored h)) (htold.trans (receiver_stored h))

/-- The character is over. -/
theorem receiver_onRxFree (at' : Nat) :
    (a.onRxFree at').receiver = { a.receiver with busy := false } := by
  have hfull : (a.setLatch AciaLatch.rxBusy false).latch AciaLatch.rdrf = a.latch AciaLatch.rdrf :=
    latch_setLatch_of_disjoint (by decide)
  have herrors : (a.setLatch AciaLatch.rxBusy false).statusLatches &&& AciaLatch.errorMask
      = a.statusLatches &&& AciaLatch.errorMask := Byte.and_not_and_of_disjoint _ (by decide)
  show AciaReceiver.mk ((a.setLatch AciaLatch.rxBusy false).latch AciaLatch.rdrf)
    ((a.setLatch AciaLatch.rxBusy false).latch AciaLatch.rxBusy)
    ((a.setLatch AciaLatch.rxBusy false).statusLatches &&& AciaLatch.errorMask) _ _ _ _ _ _ _ = _
  rw [hfull, latch_setLatch_false, herrors]
  rfl

/-- **A round of the chip, for the receiver.** -/
theorem receiver_advanceRound (h : a.shiftErrors = 0) : a.advanceRound.receiver
    = (a.receiver.arrive a.aciaNextEvent).free a.aciaNextEvent := by
  obtain ⟨b, hb⟩ : ∃ b, b = ({ a with synced := a.aciaNextEvent } : Acia6551) := ⟨_, rfl⟩
  have hfirst : (if b.latch AciaLatch.rxBusy && !b.rxCompleted && b.rxRdrfAt = a.aciaNextEvent then
      b.onRxRdrf else b).receiver = a.receiver.arrive a.aciaNextEvent := by
    have hsame : b.receiver = a.receiver := hb ▸ rfl
    rw [← hsame]
    unfold AciaReceiver.arrive
    show (if b.receiver.busy && !b.receiver.completed && b.receiver.rdrfAt = a.aciaNextEvent then
      b.onRxRdrf else b).receiver = _
    split_ifs
    · exact receiver_onRxRdrf (hb ▸ h)
    · rfl
  have hreceived : (b.rxEvents a.aciaNextEvent).receiver
      = (a.receiver.arrive a.aciaNextEvent).free a.aciaNextEvent := by
    rw [← hfirst]
    unfold rxEvents AciaReceiver.free
    dsimp only
    generalize (if b.latch AciaLatch.rxBusy && !b.rxCompleted && b.rxRdrfAt = a.aciaNextEvent then
      b.onRxRdrf else b) = c
    show (if c.receiver.busy && c.receiver.freeAt = a.aciaNextEvent then c.onRxFree a.aciaNextEvent
      else c).receiver = _
    split_ifs
    · exact receiver_onRxFree _
    · rfl
  subst hb
  exact receiver_ite ((receiver_onTxBoundary _).trans hreceived) hreceived

/-- **The second chip has the bytes of the first**, and room for them. -/
structure SameBytes (a b : Acia6551) : Prop where
  /-- It has room, and no error. -/
  clean : b.receiver.Clean
  /-- The bytes are the same, -/
  held : b.receiver.held = a.receiver.held
  /-- and so is the clock. -/
  clockMhz : b.clockMhz = a.clockMhz

theorem SameBytes.refl (h : a.receiver.Clean) : a.SameBytes a := ⟨h, rfl, rfl⟩

theorem SameBytes.trans {c : Acia6551} (h : a.SameBytes b) (h' : b.SameBytes c) : a.SameBytes c :=
  ⟨h'.clean, h'.held.trans h.held, h'.clockMhz.trans h.clockMhz⟩

/-- What leaves the receiver alone. -/
theorem SameBytes.of_receiver (h : a.receiver.Clean) (hb : b.receiver = a.receiver) :
    a.SameBytes b :=
  ⟨hb ▸ h, congrArg _ hb, congrArg AciaReceiver.clockMhz hb⟩

/-- A round keeps the bytes. -/
theorem SameBytes.round (h : a.SameBytes b) : a.SameBytes b.advanceRound := by
  have hnext (hcoming : b.receiver.coming = true) : b.aciaNextEvent ≤ b.receiver.rdrfAt := by
    have hboth := (Bool.and_eq_true _ _).mp hcoming
    have hincomplete : b.rxCompleted = false := by simpa [receiver] using hboth.2
    have hrx : b.rxNext = b.receiver.rdrfAt := by
      unfold rxNext
      rw [hincomplete]
      rfl
    unfold aciaNextEvent
    rw [if_pos (show b.latch AciaLatch.rxBusy = true from hboth.1), hrx]
    split_ifs <;> omega
  obtain ⟨harrived, harrive, hlate⟩ := h.clean.arrive hnext
  obtain ⟨hfreed, hfree⟩ := harrived.free hlate
  have hround := receiver_advanceRound h.clean.shiftErrors
  refine ⟨hround ▸ hfreed, ?_, ?_⟩
  · rw [hround, hfree, harrive, h.held]
  · exact (congrArg (fun k => k.2.2.2.1) kept_advanceRound).trans h.clockMhz

/-- **Time loses no byte**: neither it nor an error comes up on the way. -/
theorem sameBytes_advance (h : a.receiver.Clean) (hle : a.synced ≤ now)
    (hb : a.advance rounds now = some b) : a.SameBytes b := by
  unfold advance at hb
  rw [if_neg (Nat.not_lt.mpr hle)] at hb
  split_ifs at hb with heq
  · cases hb
    exact .refl h
  · obtain ⟨c, hc, rfl⟩ := Option.map_eq_some_iff.1 hb
    have hend : events.EndsIn now { a with previousSynced := a.synced } c := ⟨rounds, hc⟩
    have hkept : a.SameBytes c := hend.invariant (P := a.SameBytes) (fun _ _ hs => hs.round)
      (.of_receiver h rfl)
    exact ⟨hkept.clean, hkept.held, hkept.clockMhz⟩

/-! ### Times within a character -/

/-- A clock for which a character's cycles fit 64 bits. -/
def ClockFits (a : Acia6551) : Prop := a.clockMhz < 2 ^ 44

theorem divisorOf_le (a : Acia6551) : a.divisorOf ≤ 2304 := by
  unfold divisorOf
  split_ifs
  · exact Nat.zero_le _
  · have hall : ∀ i, divisors.getD i 0 ≤ 2304 := by
      intro i
      by_cases hi : i < 16
      · revert i
        decide
      · have hnone : divisors[i]? = none := List.getElem?_eq_none (Nat.le_of_not_lt hi)
        rw [List.getD_eq_getElem?_getD, hnone]
        exact Nat.zero_le _
    exact hall _

/-- **A point later in a character is at a later cycle**, and not far. -/
theorem aciaCyclesFor_mono (h : a.ClockFits) {m n : Nat} (hmn : m ≤ n) (hn : n ≤ 192) :
    a.aciaCyclesFor m ≤ a.aciaCyclesFor n ∧ a.aciaCyclesFor n < 2 ^ 33 := by
  unfold aciaCyclesFor
  split_ifs
  · exact ⟨le_rfl, by decide⟩
  · have hbound (k : Nat) (hk : k ≤ 192) : a.clockMhz * a.divisorOf * k ≤ 2 ^ 44 * 2304 * 192 :=
      Nat.mul_le_mul (Nat.mul_le_mul (Nat.le_of_lt h) (divisorOf_le a)) hk
    have hm := hbound m (Nat.le_trans hmn hn)
    have hnb := hbound n hn
    have hmono : a.clockMhz * a.divisorOf * m ≤ a.clockMhz * a.divisorOf * n :=
      Nat.mul_le_mul_left _ hmn
    unfold crystalMillihertz
    dsimp only
    generalize a.clockMhz * a.divisorOf * m = cm at hm hmono ⊢
    generalize a.clockMhz * a.divisorOf * n = cn at hnb hmono ⊢
    have hplain (c : Nat) (hc : c ≤ 2 ^ 44 * 2304 * 192) :
        u64 (u64 c * 2 + 1843200000) = c * 2 + 1843200000 := by
      rw [u64_of_lt (show c < 2 ^ 64 by omega), u64_of_lt (by omega)]
    rw [hplain cm hm, hplain cn hnb]
    exact ⟨Nat.div_le_div_right (by omega), by omega⟩

/-- A byte is complete before its character is over. -/
theorem aciaRdrfSixteenths_le (a : Acia6551) :
    a.aciaRdrfSixteenths ≤ a.aciaFrameSixteenths ∧ a.aciaFrameSixteenths ≤ 192 := by
  have hdata : a.dataBits ≤ 8 := Nat.sub_le _ _
  have hstop : 2 ≤ a.stopHalfBits ∧ a.stopHalfBits ≤ 4 := by
    unfold stopHalfBits
    dsimp only
    split_ifs <;> exact ⟨by decide, by decide⟩
  unfold aciaRdrfSixteenths aciaFrameSixteenths
  dsimp only
  split_ifs <;> omega

/-- **A byte starts to come in**, where the receiver is ready for it. -/
theorem clean_receive (h : a.receiver.Clean) (hclock : a.ClockFits)
    (hready : a.aciaRxReady = true) (byte : UInt8) (hnow : now < 2 ^ 63) :
    (a.receive byte 0 now).receiver.Clean ∧ a.receiver.held = []
      ∧ (a.receive byte 0 now).receiver.held = [byte]
      ∧ (a.receive byte 0 now).clockMhz = a.clockMhz := by
  unfold aciaRxReady at hready
  simp only [Bool.and_eq_true, Bool.not_eq_true'] at hready
  obtain ⟨⟨⟨⟨-, -⟩, -⟩, hbusy⟩, hfull⟩ := hready
  have hbusy' : a.receiver.busy = false := hbusy
  have hfull' : a.receiver.full = false := hfull
  obtain ⟨start, hstart, hle⟩ : ∃ start, (if (if a.rxFreedCycle > a.rdrEmptiedCycle then
        a.rxFreedCycle else a.rdrEmptiedCycle) > a.previousSynced
      ∧ (if a.rxFreedCycle > a.rdrEmptiedCycle then a.rxFreedCycle else a.rdrEmptiedCycle) ≤ now
      then (if a.rxFreedCycle > a.rdrEmptiedCycle then a.rxFreedCycle else a.rdrEmptiedCycle)
      else now) = start ∧ start ≤ now := by
    refine ⟨_, rfl, ?_⟩
    split_ifs <;> omega
  -- the chip with the byte in its shift register, before the two boundaries are set
  obtain ⟨b, hb⟩ : ∃ b, b = ({ a with
    shiftData := byte
    shiftErrors := 0 &&& AciaLatch.errorMask &&& ~~~AciaStatus.overrun
    rxCompleted := false } : Acia6551).setLatch AciaLatch.rxBusy true := ⟨_, rfl⟩
  have hfields : b.receiver = { a.receiver with
      busy := true, completed := false, shift := byte, shiftErrors := 0 } := by
    have herrors (c : Acia6551) : (c.setLatch AciaLatch.rxBusy true).statusLatches
        &&& AciaLatch.errorMask = c.statusLatches &&& AciaLatch.errorMask :=
      Byte.or_and_of_disjoint _ (by decide)
    have hlatch (c : Acia6551) : (c.setLatch AciaLatch.rxBusy true).latch AciaLatch.rdrf
        = c.latch AciaLatch.rdrf := latch_setLatch_of_disjoint (by decide)
    rw [hb]
    unfold receiver
    rw [hlatch, latch_setLatch_true (by decide), herrors]
    rfl
  have hclockMhz : b.ClockFits := by
    rw [hb]
    exact hclock
  have hreceive : (a.receive byte 0 now).receiver = { b.receiver with
      rdrfAt := u64 (start + b.aciaCyclesFor b.aciaRdrfSixteenths)
      freeAt := u64 (start + b.frameCycles) } := by
    unfold receive
    dsimp only
    rw [hstart, ← hb]
    rfl
  obtain ⟨hsixteenths, hframe⟩ := aciaRdrfSixteenths_le b
  obtain ⟨hordered, hbound⟩ := aciaCyclesFor_mono hclockMhz hsixteenths hframe
  -- a byte is ready before its frame is over, so the order of the two boundaries is kept
  have hcycles : u64 (start + b.aciaCyclesFor b.aciaRdrfSixteenths)
      ≤ u64 (start + b.frameCycles) := by
    unfold frameCycles
    rw [u64_of_lt (by omega), u64_of_lt (by omega)]
    omega
  rw [hreceive, hfields]
  refine ⟨⟨h.errors, rfl, fun hf => absurd (hfull'.symm.trans hf) (by decide), fun _ => hcycles⟩,
    ?_, ?_, ?_⟩
  · simp [AciaReceiver.held, AciaReceiver.coming, hbusy', hfull']
  · simp [AciaReceiver.held, AciaReceiver.coming, hfull']
  · have hclock' : (a.receive byte 0 now).receiver.clockMhz = a.receiver.clockMhz := by
      rw [hreceive, hfields]
    exact hclock'

/-! ### What the processor does -/

/-- The receiver is empty after a reset. -/
theorem clean_aciaReset (h : a.receiver.shiftErrors = 0) (now : Nat) :
    (a.aciaReset now).receiver.Clean ∧ (a.aciaReset now).receiver.held = [] := by
  refine ⟨⟨?_, h, fun hf => absurd hf ?_, fun hc => absurd hc ?_⟩, ?_⟩
  · exact UInt8.zero_and
  · show ¬Acia6551.latch _ _ = true
    simp [latch, aciaReset]
  · simp [AciaReceiver.coming, receiver, latch, aciaReset]
  · simp [AciaReceiver.held, AciaReceiver.coming, receiver, latch, aciaReset]

/-- The lines are the transmitter's. -/
theorem sameBytes_setLines (h : a.receiver.Clean) (lines : UInt8) (now : Nat) :
    a.SameBytes (a.setLines lines now) := by
  refine .of_receiver h ((receiver_tryStartTransmit _).trans ?_)
  exact receiver_ite (receiver_raiseIrq _) rfl

/-- A programmed reset leaves the bytes. -/
theorem sameBytes_programmedReset (h : a.receiver.Clean) : a.SameBytes a.programmedReset := by
  have hlatch (b : Acia6551) (hb : b.receiver = a.receiver) :
      (b.setLatch AciaStatus.overrun false).receiver = a.receiver := by
    have hfull : (b.setLatch AciaStatus.overrun false).latch AciaLatch.rdrf
        = b.latch AciaLatch.rdrf := latch_setLatch_of_disjoint (by decide)
    have hbusy : (b.setLatch AciaStatus.overrun false).latch AciaLatch.rxBusy
        = b.latch AciaLatch.rxBusy := latch_setLatch_of_disjoint (by decide)
    have hnone : b.statusLatches &&& AciaLatch.errorMask = 0 :=
      (congrArg AciaReceiver.errors hb).trans h.errors
    have herrors : (b.setLatch AciaStatus.overrun false).statusLatches &&& AciaLatch.errorMask
        = b.statusLatches &&& AciaLatch.errorMask := by
      show (b.statusLatches &&& ~~~AciaStatus.overrun) &&& AciaLatch.errorMask = _
      rw [UInt8.and_assoc, UInt8.and_comm (~~~AciaStatus.overrun), ← UInt8.and_assoc, hnone,
        UInt8.zero_and]
    rw [← hb]
    unfold receiver
    rw [hfull, hbusy, herrors]
    rfl
  refine .of_receiver h ?_
  unfold programmedReset
  dsimp only
  refine receiver_ite ?_ ?_
  · exact receiver_ite (hlatch _ rfl) (hlatch _ rfl)
  · exact receiver_ite (hlatch _ rfl) (hlatch _ rfl)

/-- A register is written. -/
theorem sameBytes_writeRegister (h : a.receiver.Clean) (reg value : UInt8) (now : Nat) :
    a.SameBytes (a.writeRegister reg value now) := by
  refine .of_receiver h ?_
  unfold writeRegister
  dsimp only
  refine receiver_ite ?_ (receiver_ite ?_ ?_)
  · exact (receiver_tryStartTransmit _).trans (receiver_setLatch (by decide))
  · exact (receiver_tryStartTransmit _).trans (receiver_ite rfl rfl)
  · exact (receiver_tryStartTransmit _).trans (receiver_ite rfl rfl)

/-- **Reading the data register takes the byte that is there**; when there is none, it leaves the
receiver alone. -/
theorem readRegister_data (h : a.receiver.Clean) {reg : UInt8}
    (hreg : reg &&& AciaReg.mask = AciaReg.data) (now : Nat) :
    (a.readRegister reg now).1.receiver.Clean
      ∧ (a.readRegister reg now).1.clockMhz = a.clockMhz
      ∧ a.receiver.held = (if a.latch AciaLatch.rdrf then [(a.readRegister reg now).2] else [])
        ++ (a.readRegister reg now).1.receiver.held := by
  unfold readRegister
  rw [if_pos hreg]
  by_cases hfull : a.latch AciaLatch.rdrf = true
  · rw [if_pos hfull, if_pos hfull]
    have hnone : a.receiver.coming = false := h.room hfull
    have hread : (({ a.setLatch AciaLatch.rdrf false with rdrEmptiedCycle := now } : Acia6551)).receiver
        = { a.receiver with full := false } := by
      have hbusy : (a.setLatch AciaLatch.rdrf false).latch AciaLatch.rxBusy
          = a.latch AciaLatch.rxBusy := latch_setLatch_of_disjoint (by decide)
      have herrors : (a.setLatch AciaLatch.rdrf false).statusLatches &&& AciaLatch.errorMask
          = a.statusLatches &&& AciaLatch.errorMask := Byte.and_not_and_of_disjoint _ (by decide)
      show AciaReceiver.mk ((a.setLatch AciaLatch.rdrf false).latch AciaLatch.rdrf)
        ((a.setLatch AciaLatch.rdrf false).latch AciaLatch.rxBusy)
        ((a.setLatch AciaLatch.rdrf false).statusLatches &&& AciaLatch.errorMask) _ _ _ _ _ _ _ = _
      rw [latch_setLatch_false, hbusy, herrors]
      rfl
    refine ⟨?_, rfl, ?_⟩
    · rw [hread]
      exact ⟨h.errors, h.shiftErrors, fun _ => hnone, h.ordered⟩
    · rw [hread, AciaReceiver.held, AciaReceiver.held, hnone, if_pos (show a.receiver.full = true from hfull)]
      show _ = _ ++ (_ ++ if a.receiver.coming then _ else _)
      rw [hnone]
      rfl
  · rw [if_neg hfull, if_neg hfull]
    exact ⟨h, rfl, rfl⟩

/-- Reading another register leaves the bytes. -/
theorem sameBytes_readRegister (h : a.receiver.Clean) {reg : UInt8}
    (hreg : reg &&& AciaReg.mask ≠ AciaReg.data) (now : Nat) :
    a.SameBytes (a.readRegister reg now).1 := by
  refine .of_receiver h ?_
  unfold readRegister
  rw [if_neg hreg]
  split_ifs <;> rfl

/-- **The status register never tells of an error.** -/
theorem readRegister_status (h : a.receiver.Clean) {reg : UInt8}
    (hreg : reg &&& AciaReg.mask = AciaReg.status) (now : Nat) :
    (a.readRegister reg now).2 &&& AciaLatch.errorMask = 0 := by
  have hnone : a.statusLatches &&& AciaLatch.errorMask = 0 := h.errors
  have hlatches : (a.statusLatches &&& (AciaLatch.errorMask ||| AciaLatch.rdrf))
      &&& AciaLatch.errorMask = 0 := by
    rw [UInt8.and_assoc, show (AciaLatch.errorMask ||| AciaLatch.rdrf) &&& AciaLatch.errorMask
      = AciaLatch.errorMask by decide, hnone]
  have hbit (p : Prop) [Decidable p] {x y : UInt8} (hx : x &&& AciaLatch.errorMask = 0)
      (hy : y &&& AciaLatch.errorMask = 0) : (if p then x else y) &&& AciaLatch.errorMask = 0 := by
    split_ifs
    · exact hx
    · exact hy
  unfold readRegister
  rw [if_neg (by rw [hreg]; decide), if_pos hreg]
  show a.statusByte &&& AciaLatch.errorMask = 0
  unfold statusByte
  rw [Byte.or_and_distrib_right, Byte.or_and_distrib_right, Byte.or_and_distrib_right,
    Byte.or_and_distrib_right, hlatches, hbit _ (by decide) (by decide),
    hbit _ (by decide) (by decide), hbit _ (by decide) (by decide), hbit _ (by decide) (by decide)]
  decide

end Acia6551

end LinApple.Chips
