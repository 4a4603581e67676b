import LinApple.Lib.EventLoop
import Mathlib.Order.Nat
import Mathlib.Tactic.Common
import Mathlib.Algebra.Group.Nat.Defs

/-!
# When a serial chip does something

Two timers without the bytes they are about. The transmitter has a boundary at the end
of the character it sends; where it sends none but interrupts or has a break to begin,
its boundaries are a character apart, from an anchor on. The receiver has two events:
the byte is complete, and the character is over.

The settings are part of the clock only as far as the timers depend on them: how long a
character takes, whether a byte may be sent, and what an idle transmitter does. So a
round of the clock can be told without registers, latches and interrupts, and the chip's
own round is one of the clock's (`Acia6551.clock_advanceRound`).

A boundary of an idle transmitter is reckoned from where the clock stands (`reckoned`),
and that is the one thing here that depends on it. As long as the clock stands at its
anchor or after, the dependence is apparent only: the boundaries are those of a grid of
whole characters from the anchor, and `reckoned_stop` says that a clock stopped on the
way still has the same one to come. A byte that came in long ago takes the clock back to
before the anchor, and then it is real. `Settled` is what excludes it: everything to come
is at the anchor or after. A boundary settles the clock, and a settled clock stays so.

The bytes' own times are taken as they are found. Where they are not in order – a byte
over before it is complete – the second event takes the clock back from the first, and
the lemmas that need them in order say so (`Ordered`).
-/

namespace LinApple.Chips

/-- What a sum of 64-bit counts comes to. -/
def u64 (n : Nat) : Nat := n % 2 ^ 64

theorem u64_of_lt {n : Nat} (h : n < 2 ^ 64) : u64 n = n := Nat.mod_eq_of_lt h

/-- What a transmitter does without a byte to send. -/
inductive IdleMode where
  /-- Nothing. -/
  | rests
  /-- It interrupts once a character. -/
  | ticks
  /-- It begins a break at its next boundary. -/
  | breaks
deriving DecidableEq

/-- **The timers of a serial chip**, and what of its settings they depend on. -/
structure SerialClock where
  /-- The cycles of a character, 0 without a clock. -/
  frame : Nat
  /-- A byte may be sent. -/
  sends : Bool
  /-- What an idle transmitter does. -/
  mode : IdleMode
  /-- A byte waits to be sent. -/
  tdrFull : Bool
  /-- A byte is being sent. -/
  txBusy : Bool
  /-- The break has begun. -/
  broke : Bool
  /-- The end of the character that is sent. -/
  busyUntil : Nat
  /-- Where the last character or tick was over. -/
  anchor : Nat
  /-- A byte comes in. -/
  rxBusy : Bool
  /-- It is complete. -/
  completed : Bool
  /-- When it is complete. -/
  rdrfAt : Nat
  /-- When its character is over. -/
  freeAt : Nat
  /-- Where the clock stands. -/
  synced : Nat

namespace SerialClock

variable (c : SerialClock)

/-! ## Events -/

/-- The transmitter has a boundary to come. -/
def armed : Bool :=
  c.frame ≠ 0 && (c.txBusy || c.mode = .ticks || c.mode = .breaks && !c.broke)

/-- The boundary of an idle transmitter after where the clock stands, as the sum it is: a
whole number of characters from the anchor, or one from where the clock stands if that is
before the anchor. -/
def reckoned : Nat :=
  let from' := if c.anchor ≤ c.synced then c.anchor else c.synced
  from' + ((c.synced - from') / c.frame + 1) * c.frame

/-- The transmitter's next boundary. -/
def nextTx : Nat := if c.txBusy then c.busyUntil else u64 c.reckoned

/-- The receiver's next event, while a byte comes in. -/
def rxNext : Nat := if c.completed then c.freeAt else c.rdrfAt

/-- The next event, 0 if there is none. -/
def next : Nat :=
  let next := if c.armed then c.nextTx else 0
  if c.rxBusy then if next = 0 ∨ c.rxNext < next then c.rxNext else next else next

/-- The transmitter's boundary is the next event. -/
def txDue : Bool := c.armed && c.nextTx = c.next

/-- The clock, stopped at a cycle. -/
def stop (u : Nat) (c : SerialClock) : SerialClock := { c with synced := u }

/-- The receiver at an event. -/
def receive : SerialClock :=
  let c := if c.rxBusy && !c.completed && c.rdrfAt = c.synced then { c with completed := true }
    else c
  if c.rxBusy && c.freeAt = c.synced then { c with rxBusy := false } else c

/-- The transmitter at a boundary. -/
def transmit : SerialClock :=
  if c.mode = .breaks then { c with txBusy := false, broke := true }
  else if c.tdrFull && c.sends then
    { c with
      tdrFull := false
      txBusy := true
      anchor := c.synced
      busyUntil := u64 (c.synced + c.frame) }
  else { c with txBusy := false, anchor := c.synced }

/-- **The next event happens.** -/
def round : SerialClock :=
  let at' := c.stop c.next
  if c.txDue then at'.receive.transmit else at'.receive

/-- A byte starts to be sent in the next round. -/
def starts : Bool := c.txDue && c.mode ≠ .breaks && c.tdrFull && c.sends

/-- The clock runs from event to event. -/
def events : EventLoop SerialClock where
  due now c := c.next ≠ 0 && c.next ≤ now
  fire := round

/-! ## What a round does -/

section Round

variable {c}

@[simp] theorem synced_receive : c.receive.synced = c.synced := by
  unfold receive
  dsimp only
  split_ifs <;> rfl

/-- A round leaves the settings and the times of the byte that comes in alone. -/
theorem round_keeps : c.round.frame = c.frame ∧ c.round.sends = c.sends
    ∧ c.round.mode = c.mode ∧ c.round.rdrfAt = c.rdrfAt ∧ c.round.freeAt = c.freeAt
    ∧ c.round.synced = c.next := by
  unfold round receive transmit stop
  dsimp only
  split_ifs <;> exact ⟨rfl, rfl, rfl, rfl, rfl, rfl⟩

@[simp] theorem frame_round : c.round.frame = c.frame := round_keeps.1
@[simp] theorem mode_round : c.round.mode = c.mode := round_keeps.2.2.1
@[simp] theorem rdrfAt_round : c.round.rdrfAt = c.rdrfAt := round_keeps.2.2.2.1
@[simp] theorem freeAt_round : c.round.freeAt = c.freeAt := round_keeps.2.2.2.2.1
@[simp] theorem synced_round : c.round.synced = c.next := round_keeps.2.2.2.2.2

/-- **A round in which the transmitter has nothing to do** leaves it alone. -/
theorem round_of_not_txDue (h : c.txDue = false) : c.round.txBusy = c.txBusy
    ∧ c.round.broke = c.broke ∧ c.round.busyUntil = c.busyUntil ∧ c.round.anchor = c.anchor := by
  unfold round receive stop
  simp only [h, Bool.false_eq_true, if_false]
  split_ifs <;> exact ⟨rfl, rfl, rfl, rfl⟩

/-- **What happens at a boundary**: a break begins, a byte starts, or the transmitter is
idle from here on. -/
theorem round_of_txDue (h : c.txDue = true) :
    (c.mode = .breaks ∧ c.round.txBusy = false ∧ c.round.broke = true)
    ∨ (c.starts = true ∧ c.round.txBusy = true ∧ c.round.busyUntil = u64 (c.next + c.frame))
    ∨ (c.round.txBusy = false ∧ c.round.broke = c.broke ∧ c.round.anchor = c.next) := by
  unfold starts round receive transmit stop
  simp only [h, if_true]
  split_ifs <;> simp_all

/-- The anchor stays or moves to the event. -/
theorem anchor_round : c.round.anchor = c.anchor ∨ c.round.anchor = c.next := by
  unfold round receive transmit stop
  dsimp only
  split_ifs <;> simp

@[simp] theorem sends_round : c.round.sends = c.sends := round_keeps.2.1

/-- A byte that waits after a round has waited before. -/
theorem tdrFull_of_round (h : c.round.tdrFull = true) : c.tdrFull = true := by
  unfold round receive transmit stop at h
  dsimp only at h
  split_ifs at h <;> simp_all

/-- A byte that starts in a round waits no longer. -/
theorem tdrFull_round (hdue : c.txDue = true) (hmode : c.mode ≠ .breaks)
    (hstart : (c.tdrFull && c.sends) = true) : c.round.tdrFull = false := by
  unfold round receive transmit stop
  simp only [hdue, if_true]
  split_ifs <;> simp_all

/-- The receiver's part of a round. -/
theorem rx_round :
    c.round.rxBusy = (c.stop c.next).receive.rxBusy
    ∧ c.round.completed = (c.stop c.next).receive.completed := by
  unfold round transmit
  dsimp only
  split_ifs <;> exact ⟨rfl, rfl⟩

/-- A byte that is complete in a round. -/
theorem completed_round (h : (c.rxBusy && !c.completed && c.rdrfAt = c.next) = true) :
    c.round.completed = true := by
  rw [rx_round.2]
  unfold receive stop
  simp only [h, if_true]
  split_ifs <;> rfl

/-- A byte that is not complete after a round was not before. -/
theorem incomplete_of_round (h : (c.round.rxBusy && !c.round.completed) = true) :
    (c.rxBusy && !c.completed) = true := by
  rw [rx_round.1, rx_round.2] at h
  unfold receive stop at h
  dsimp only at h
  split_ifs at h <;> simp_all

/-- The receiver's event comes no later than the next one. -/
theorem next_le_rxNext (h : c.rxBusy = true) : c.next ≤ c.rxNext := by
  unfold next
  simp only [h, if_true]
  split_ifs <;> omega

/-- The transmitter's boundary comes no later than the next event. -/
theorem next_le_nextTx (h : c.armed = true) (hnext : c.nextTx ≠ 0) : c.next ≤ c.nextTx := by
  unfold next
  simp only [h, if_true]
  split_ifs <;> omega

/-- The next event is one of the receiver or one of the transmitter. -/
theorem next_cases (hnext : c.next ≠ 0) :
    c.txDue = true ∨ c.txDue = false ∧ c.rxBusy = true ∧ c.rxNext = c.next := by
  unfold txDue
  unfold next at hnext ⊢
  cases harmed : c.armed <;> cases hbusy : c.rxBusy <;> simp_all
  omega

/-- Bytes are complete before their characters are over. It is asked only of a character that is
under way and not complete, for the two times mean nothing otherwise. -/
def Ordered (c : SerialClock) : Prop :=
  c.rxBusy = true → c.completed = false → c.rdrfAt ≤ c.freeAt

/-- **What happens to the byte that comes in**: it is complete, or its character is over,
or nothing. -/
theorem round_rx (h : c.Ordered) :
    (c.rxBusy = true ∧ c.rxNext = c.next ∧ c.freeAt = c.next ∧ c.round.rxBusy = false)
    ∨ (c.rxBusy = true ∧ c.completed = false ∧ c.rdrfAt = c.next ∧ c.next < c.freeAt
      ∧ c.round.rxBusy = true ∧ c.round.completed = true)
    ∨ ((c.rxBusy = true → c.next < c.rxNext) ∧ c.round.rxBusy = c.rxBusy
      ∧ c.round.completed = c.completed) := by
  have hrx := rx_round (c := c)
  have hle := fun hbusy => next_le_rxNext (c := c) hbusy
  rw [hrx.1, hrx.2]
  unfold Ordered at h
  unfold rxNext at *
  unfold receive stop
  cases hbusy : c.rxBusy <;> cases hcompleted : c.completed <;>
    simp only [hbusy, hcompleted, Bool.false_eq_true, Bool.true_and, Bool.not_false, Bool.not_true,
      Bool.false_and, decide_eq_true_eq, if_false, if_true, true_and, forall_true_left,
      false_and, and_false, false_or, IsEmpty.forall_iff, and_self] at h hle ⊢
  all_goals split_ifs <;> simp_all <;> omega

end Round

/-! ## Boundaries of an idle transmitter -/

section Boundaries

variable {c} {u : Nat}

/-- The transmitter is idle and has a boundary to come. -/
def Idle (c : SerialClock) : Prop := c.txBusy = false ∧ c.armed = true

/-- A clock that is not armed stays so. -/
theorem armed_of_round (h : c.round.armed = true) : c.armed = true := by
  by_contra harmed
  have hdue : c.txDue = false := by
    unfold txDue
    simp [harmed]
  obtain ⟨hbusy, hbroke, -, -⟩ := round_of_not_txDue hdue
  unfold armed at h harmed
  rw [frame_round, mode_round, hbusy, hbroke] at h
  exact harmed h

theorem frame_pos (h : c.armed = true) : 0 < c.frame := by
  unfold armed at h
  simp only [Bool.and_eq_true, decide_eq_true_eq] at h
  omega

/-- A boundary is reckoned after where the clock stands, and a character after it at most. -/
theorem lt_reckoned (h : 0 < c.frame) :
    c.synced < c.reckoned ∧ c.reckoned ≤ c.synced + c.frame := by
  unfold reckoned
  dsimp only
  split_ifs with hanchor
  · have hdiv := Nat.div_add_mod (c.synced - c.anchor) c.frame
    have hmod := Nat.mod_lt (c.synced - c.anchor) h
    have hmul : ((c.synced - c.anchor) / c.frame + 1) * c.frame
        = c.frame * ((c.synced - c.anchor) / c.frame) + c.frame := by
      rw [Nat.add_mul, Nat.one_mul, Nat.mul_comm]
    omega
  · rw [Nat.sub_self, Nat.zero_div, Nat.zero_add, Nat.one_mul]
    omega

/-- A clock that stands at its anchor or after reckons in characters from the anchor. -/
theorem reckoned_of_le (h : c.anchor ≤ c.synced) :
    c.reckoned = c.anchor + ((c.synced - c.anchor) / c.frame + 1) * c.frame := by
  unfold reckoned
  rw [if_pos h]

/-- A clock that stands before its anchor reckons from where it stands. -/
theorem reckoned_of_lt (h : c.synced < c.anchor) : c.reckoned = c.synced + c.frame := by
  unfold reckoned
  dsimp only
  rw [if_neg (by omega), Nat.sub_self, Nat.zero_div, Nat.zero_add, Nat.one_mul]

/-- The boundary of an idle transmitter is the one that is reckoned, as long as it fits. -/
theorem nextTx_of_idle (h : c.Idle) (hfits : c.reckoned < 2 ^ 64) : c.nextTx = c.reckoned := by
  unfold nextTx
  rw [if_neg (by simp [h.1]), u64_of_lt hfits]

@[simp] theorem frame_stop : (c.stop u).frame = c.frame := rfl
@[simp] theorem txBusy_stop : (c.stop u).txBusy = c.txBusy := rfl
@[simp] theorem anchor_stop : (c.stop u).anchor = c.anchor := rfl
@[simp] theorem rxBusy_stop : (c.stop u).rxBusy = c.rxBusy := rfl
@[simp] theorem synced_stop : (c.stop u).synced = u := rfl
@[simp] theorem armed_stop : (c.stop u).armed = c.armed := rfl
@[simp] theorem rxNext_stop : (c.stop u).rxNext = c.rxNext := rfl

/-- **Where the clock is stopped does not matter** to a boundary behind it, if the clock
stands at its anchor or after. -/
theorem reckoned_stop (hanchor : c.anchor ≤ c.synced) (hstop : c.synced ≤ u)
    (hbehind : u < c.reckoned) : (c.stop u).reckoned = c.reckoned := by
  rw [reckoned_of_le hanchor] at hbehind ⊢
  rw [reckoned_of_le (c := c.stop u) (hanchor.trans hstop), anchor_stop, synced_stop, frame_stop]
  have hframe : 0 < c.frame := by
    by_contra hzero
    rw [Nat.eq_zero_of_not_pos hzero, Nat.mul_zero] at hbehind
    omega
  have hsame : (u - c.anchor) / c.frame = (c.synced - c.anchor) / c.frame := by
    refine Nat.le_antisymm ?_ (Nat.div_le_div_right (by omega))
    refine Nat.le_of_lt_add_one ((Nat.div_lt_iff_lt_mul hframe).2 ?_)
    omega
  rw [hsame]

/-- A clock stopped at its anchor or after has its boundary a character from the anchor, or
later. -/
theorem le_reckoned_stop (hanchor : c.anchor ≤ u) :
    c.anchor + c.frame ≤ (c.stop u).reckoned := by
  rw [reckoned_of_le (c := c.stop u) hanchor, anchor_stop, synced_stop, frame_stop]
  exact Nat.add_le_add_left (Nat.le_mul_of_pos_left _ (Nat.succ_pos _)) _

end Boundaries

/-! ## Bytes that come in late -/

section Late

variable {c : SerialClock} {t u : Nat}

/-- An idle transmitter's anchor is in the past of everything to come. -/
def Settled (c : SerialClock) : Prop :=
  c.Idle → c.anchor ≤ c.synced ∧ (c.rxBusy = true → c.anchor ≤ c.rxNext)

/-- A byte that is not complete has not taken the clock of an idle transmitter back. -/
def Fresh (c : SerialClock) : Prop :=
  c.Idle → c.rxBusy = true → c.completed = false → c.anchor ≤ c.synced

theorem Ordered.round (h : c.Ordered) : c.round.Ordered := by
  intro hbusy hcompleted
  rw [rdrfAt_round, freeAt_round]
  rcases round_rx h with ⟨-, -, -, hfree⟩ | ⟨-, -, -, -, -, hdone⟩ | ⟨-, hsame, hsame'⟩
  · exact absurd (hfree.symm.trans hbusy) (by decide)
  · exact absurd (hdone.symm.trans hcompleted) (by decide)
  · exact h (hsame.symm.trans hbusy) (hsame'.symm.trans hcompleted)

/-- What comes after a round is behind it. -/
theorem next_le_rxNext_round (h : c.Ordered) (hbusy : c.round.rxBusy = true) :
    c.next ≤ c.round.rxNext := by
  rcases round_rx h with ⟨-, -, -, hfree⟩ | ⟨-, -, -, hlt, -, hdone⟩ | ⟨hlt, hsame, hsame'⟩
  · exact absurd (hfree.symm.trans hbusy) (by decide)
  · unfold rxNext
    rw [hdone, freeAt_round]
    exact hlt.le
  · have hlt := hlt (hsame.symm.trans hbusy)
    unfold rxNext at hlt ⊢
    rw [hsame', freeAt_round, rdrfAt_round]
    exact hlt.le

/-- A boundary leaves an idle transmitter with its anchor where the clock stands. -/
theorem anchor_round_of_txDue (hdue : c.txDue = true) (hidle : c.round.Idle) :
    c.round.anchor = c.next := by
  obtain ⟨hbusy, harmed⟩ := hidle
  rcases round_of_txDue hdue with ⟨hbreaks, -, hbroke⟩ | ⟨-, hbusy', -⟩ | ⟨-, -, hanchor⟩
  · -- a break that has begun leaves nothing to come
    unfold armed at harmed
    rw [hbusy, hbroke, mode_round, hbreaks] at harmed
    simp at harmed
  · exact absurd (hbusy.symm.trans hbusy') (by decide)
  · exact hanchor

/-- **A boundary settles the clock.** -/
theorem settled_of_txDue (h : c.Ordered) (hdue : c.txDue = true) : c.round.Settled := by
  intro hidle
  rw [anchor_round_of_txDue hdue hidle, synced_round]
  exact ⟨le_rfl, next_le_rxNext_round h⟩

/-- A round without a boundary leaves an idle transmitter idle. -/
theorem idle_round_iff (hdue : c.txDue = false) : c.round.Idle ↔ c.Idle := by
  obtain ⟨hbusy, hbroke, -, -⟩ := round_of_not_txDue hdue
  unfold Idle armed
  rw [hbusy, hbroke, frame_round, mode_round]

/-- **A settled clock stays settled.** -/
theorem Settled.round (h : c.Settled) (hordered : c.Ordered) (hnext : c.next ≠ 0) :
    c.round.Settled := by
  rcases next_cases hnext with hdue | ⟨hdue, hbusy, hrx⟩
  · exact settled_of_txDue hordered hdue
  · intro hidle
    obtain ⟨-, -, -, hanchor⟩ := round_of_not_txDue hdue
    obtain ⟨-, hle⟩ := h ((idle_round_iff hdue).1 hidle)
    have hle := hle hbusy
    rw [hanchor, synced_round]
    exact ⟨by omega, fun hbusy' => (by omega : c.anchor ≤ c.next).trans
      (next_le_rxNext_round hordered hbusy')⟩

/-- A byte that is late completes in the round that takes the clock back. -/
theorem Fresh.round (hnext : c.next ≠ 0) : c.round.Fresh := by
  intro hidle hbusy hcompleted
  rw [synced_round]
  rcases next_cases hnext with hdue | ⟨hdue, hbusy', hrx⟩
  · exact (anchor_round_of_txDue hdue hidle).le
  · have hbefore := incomplete_of_round (c := c) (by simp [hbusy, hcompleted])
    simp only [Bool.and_eq_true, Bool.not_eq_eq_eq_not, Bool.not_true] at hbefore
    have hrdrf : c.rdrfAt = c.next := by
      unfold rxNext at hrx
      rwa [if_neg (by simp [hbefore.2])] at hrx
    have hdone := completed_round (c := c) (by simp [hbefore, hrdrf])
    exact absurd (hdone.symm.trans hcompleted) (by decide)

end Late

end SerialClock

end LinApple.Chips
