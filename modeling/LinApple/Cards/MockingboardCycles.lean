import LinApple.Cards.Mockingboard

/-!
# Every cycle of the Mockingboard is counted once

The card sees its cycles late and in lumps. Held against it is a card that is clocked at every
cycle, `Clocked`: the two give the same answers to the same accesses, raise the same flags, and
have their sound chips ticked as often.

The card is told how many cycles of a batch have been executed only when it is accessed, and how
many there were in all at the end. So it keeps how far it has come (`synced`), brings the chips up
to an access, and takes the rest at the end of the batch; the sound chips run at an eighth of the
clock, and what is left of eight cycles is carried over. Each of these is a place to lose a cycle
or to count one twice. The other card has none of them: it has a count of all cycles, steps the
two 6522s at each, and the sound chips at every eighth.

`Follows` relates the two in the middle of a batch and `Between` at its ends. What is preserved is
that the chips are in one state, that the remainder is the count modulo eight, that the ticks are
the count divided by it, and that the line says what the chips say; every access and every end of
a batch takes the first from one cycle to the next (`runBatches_eq_clocked` puts the batches
together).

The batches come after any history: other batches, resets, and loads of any frame, taken or
refused. A frame brings a remainder along, and so the ticks are counted from what was left of the
last one. Inside a batch the accesses come at counts that do not decrease, several at one count
among them, and none lies behind the total; this is how the processor hands them on, and `Batch`
cannot be built otherwise.
-/

namespace LinApple.Cards

open LinApple.Chips

/-! ## Batches -/

/-- An access to a register, at a count of executed cycles. -/
structure Access where
  /-- `executed_cycles` -/
  executed : Nat
  /-- `addr` -/
  addr : UInt16
  /-- What is written, if it is a write. -/
  val : Option UInt8
deriving DecidableEq, Repr

/-- **A batch of cycles**, and the accesses made inside it, in the order of
their counts. -/
structure Batch where
  /-- The accesses. -/
  accesses : List Access
  /-- The cycles of the batch. -/
  total : Nat
  /-- The counts do not decrease. -/
  sorted : accesses.Pairwise (·.executed ≤ ·.executed)
  /-- The accesses are inside the batch. -/
  within : ∀ a ∈ accesses, a.executed ≤ total

/-- The cycles of the batches. -/
def totalCycles (bs : List Batch) : Nat := (bs.map Batch.total).sum

/-! ## The card clocked at every cycle -/

/-- **The chips, clocked at every cycle**, with the cycles counted. -/
structure Clocked extends MockingboardChips where
  /-- The cycles so far. -/
  cycles : Nat

namespace Clocked

variable (c : Clocked)

/-- A cycle: the 6522s see each one, the sound chips every eighth. -/
def clock : Clocked where
  via := fun i => (c.via i).tick
  ay := fun i => if (c.cycles + 1) % cyclesPerAyTick = 0 then (c.ay i).tick else c.ay i
  ayLatchedRegister := c.ayLatchedRegister
  cycles := c.cycles + 1

/-- An access to a register. -/
def access (a : Access) : UInt8 × Clocked :=
  match a.val with
  | none => ((c.read a.addr).1, { c with toMockingboardChips := (c.read a.addr).2 })
  | some val => (0, { c with toMockingboardChips := c.write a.addr val })

/-- The rest of a batch, from a count of cycles on: what is answered, with the
interrupt output after each access, and the card at the end. -/
def run (total : Nat) : Nat → List Access → Clocked → List (UInt8 × Bool) × Clocked
  | now, [], c => ([], clock^[total - now] c)
  | now, a :: rest, c =>
    let r := (clock^[a.executed - now] c).access a
    let q := run total a.executed rest r.2
    ((r.1, r.2.irq) :: q.1, q.2)

/-- Batches one after the other. -/
def runBatches : List Batch → Clocked → List (UInt8 × Bool) × Clocked
  | [], c => ([], c)
  | b :: bs, c =>
    let r := run b.total 0 b.accesses c
    let q := runBatches bs r.2
    (r.1 ++ q.1, q.2)

/-- **A run of cycles.** -/
theorem clock_iterate (n : Nat) : clock^[n] c =
    { via := fun i => Via6522.tick^[n] (c.via i)
      ay := fun i =>
        Ay8910.tick^[(c.cycles + n) / cyclesPerAyTick - c.cycles / cyclesPerAyTick] (c.ay i)
      ayLatchedRegister := c.ayLatchedRegister
      cycles := c.cycles + n } := by
  induction n with
  | zero => rw [Nat.add_zero, Nat.sub_self]; rfl
  | succ n ih =>
    rw [Function.iterate_succ_apply', ih]
    unfold clock
    dsimp only
    have hay : ∀ p : Ay8910,
        (if (c.cycles + (n + 1)) % cyclesPerAyTick = 0 then
          (Ay8910.tick^[(c.cycles + n) / cyclesPerAyTick - c.cycles / cyclesPerAyTick] p).tick
        else Ay8910.tick^[(c.cycles + n) / cyclesPerAyTick - c.cycles / cyclesPerAyTick] p)
        = Ay8910.tick^[(c.cycles + (n + 1)) / cyclesPerAyTick - c.cycles / cyclesPerAyTick] p := by
      intro p
      unfold cyclesPerAyTick
      split_ifs with hwhole
      · have hnext : (c.cycles + (n + 1)) / 8 - c.cycles / 8
            = (c.cycles + n) / 8 - c.cycles / 8 + 1 := by omega
        rw [hnext, Function.iterate_succ_apply']
      · have hsame : (c.cycles + (n + 1)) / 8 = (c.cycles + n) / 8 := by omega
        rw [hsame]
    simp only [Nat.add_assoc, hay, Function.iterate_succ_apply']

end Clocked

/-! ## The card -/

namespace Mockingboard

variable (mb : Mockingboard)

/-- An access to a register. -/
def access (a : Access) : UInt8 × Mockingboard :=
  match a.val with
  | none => mb.cxRead a.addr a.executed
  | some val => mb.cxWrite a.addr val a.executed

/-- The accesses of a batch: what is answered, with the line after each, and
the card at the end. -/
def run : List Access → Mockingboard → List (UInt8 × Bool) × Mockingboard
  | [], mb => ([], mb)
  | a :: rest, mb =>
    let r := mb.access a
    let q := run rest r.2
    ((r.1, r.2.irqLine) :: q.1, q.2)

/-- Batches one after the other, each ended by `mb_abi_think`. -/
def runBatches : List Batch → Mockingboard → List (UInt8 × Bool) × Mockingboard
  | [], mb => ([], mb)
  | b :: bs, mb =>
    let r := run b.accesses mb
    let q := runBatches bs (r.2.mbAbiThink b.total)
    (r.1 ++ q.1, q.2)

/-- **Chunks make no difference**: the ticks are all taken. -/
theorem renderChunks_eq (ticks : Nat) (mb : Mockingboard) :
    renderChunks ticks mb =
      { mb with ay := fun i => Ay8910.tick^[ticks] (mb.ay i), ticks := mb.ticks + ticks } := by
  induction ticks using Nat.strongRecOn generalizing mb with
  | _ ticks ih =>
    unfold renderChunks
    by_cases hzero : ticks = 0
    · subst hzero
      rfl
    rw [dif_neg hzero]
    obtain ⟨count, hcount, hle, hbuf, hpos⟩ : ∃ count,
        (if ticks < scratchTicks then ticks else scratchTicks) = count ∧ count ≤ ticks
          ∧ count ≤ scratchTicks ∧ 0 < count := by
      refine ⟨_, rfl, ?_⟩
      unfold scratchTicks
      split_ifs <;> omega
    dsimp only
    rw [hcount, ih (ticks - count) (by omega)]
    unfold renderChunk
    simp only [Ay8910.ay8910Step_eq_iterate _ hbuf, ← Function.iterate_add_apply,
      Nat.sub_add_cancel hle, Nat.add_assoc, Nat.add_sub_cancel' hle]

/-- **The card has seen what the clocked one has**, and has rendered its ticks
on top of `before`. -/
structure Follows (before : Nat) (mb : Mockingboard) (c : Clocked) : Prop where
  /-- The chips are in one state. -/
  chips : mb.toMockingboardChips = c.toMockingboardChips
  /-- The remainder is what is left of the last eight cycles. -/
  remainder : mb.psgRemainder = c.cycles % cyclesPerAyTick
  /-- A tick was rendered for every eight cycles. -/
  ticks : mb.ticks = before + c.cycles / cyclesPerAyTick
  /-- The line says what the chips say. -/
  line : mb.irqLine = mb.irq

/-- **A lump of cycles is as many cycles.** -/
theorem Follows.advance {before : Nat} {mb : Mockingboard} {c : Clocked}
    (h : Follows before mb c) (n : Nat) :
    Follows before (mb.advance n) (Clocked.clock^[n] c) := by
  unfold Mockingboard.advance
  by_cases hzero : n = 0
  · subst hzero
    rw [if_pos rfl]
    exact h
  rw [if_neg hzero, Clocked.clock_iterate]
  dsimp only
  rw [renderChunks_eq, h.remainder]
  have hcount : (c.cycles % cyclesPerAyTick + n) / cyclesPerAyTick
      = (c.cycles + n) / cyclesPerAyTick - c.cycles / cyclesPerAyTick := by
    unfold cyclesPerAyTick
    omega
  refine ⟨?_, ?_, ?_, irqLine_stepVias h.line n⟩
  · simp only [stepVias_toMockingboardChips, hcount, h.chips, Via6522.viaStep_eq_iterate]
  · show (c.cycles % cyclesPerAyTick + n) % cyclesPerAyTick = (c.cycles + n) % cyclesPerAyTick
    rw [Nat.mod_add_mod]
  · show (mb.stepVias n).ticks + (c.cycles % cyclesPerAyTick + n) / cyclesPerAyTick
      = before + (c.cycles + n) / cyclesPerAyTick
    rw [ticks_stepVias, h.ticks]
    unfold cyclesPerAyTick
    omega

/-- The card is brought up to a count of cycles. -/
theorem Follows.syncTo {before : Nat} {mb : Mockingboard} {c : Clocked}
    (h : Follows before mb c) {executed : Nat} (hle : mb.synced ≤ executed) :
    Follows before (mb.syncTo executed) (Clocked.clock^[executed - mb.synced] c)
      ∧ (mb.syncTo executed).synced = executed := by
  unfold Mockingboard.syncTo
  split_ifs with hthere
  · obtain rfl : executed = mb.synced := Nat.le_antisymm hthere hle
    rw [Nat.sub_self]
    exact ⟨h, rfl⟩
  · have hadvance := h.advance (executed - mb.synced)
    exact ⟨⟨hadvance.chips, hadvance.remainder, hadvance.ticks, hadvance.line⟩, rfl⟩

/-- **An access answers what the clocked card answers.** -/
theorem Follows.access {before : Nat} {mb : Mockingboard} {c : Clocked}
    (h : Follows before mb c) {a : Access} (hle : mb.synced ≤ a.executed) :
    (mb.access a).1 = ((Clocked.clock^[a.executed - mb.synced] c).access a).1
      ∧ Follows before (mb.access a).2 ((Clocked.clock^[a.executed - mb.synced] c).access a).2
      ∧ (mb.access a).2.synced = a.executed := by
  obtain ⟨hsync, hnow⟩ := h.syncTo hle
  unfold Mockingboard.access Clocked.access
  cases a.val with
  | none =>
    refine ⟨?_, ⟨?_, ?_, ?_, irqLine_updateIrq _⟩, (synced_updateIrq _).trans hnow⟩
    · exact congrArg (fun k => (MockingboardChips.read k a.addr).1) hsync.chips
    · exact (updateIrq_toMockingboardChips _).trans
        (congrArg (fun k => (MockingboardChips.read k a.addr).2) hsync.chips)
    · exact (psgRemainder_updateIrq _).trans hsync.remainder
    · exact (ticks_updateIrq _).trans hsync.ticks
  | some val =>
    refine ⟨rfl, ⟨?_, ?_, ?_, irqLine_updateIrq _⟩, (synced_updateIrq _).trans hnow⟩
    · exact (updateIrq_toMockingboardChips _).trans
        (congrArg (fun k => MockingboardChips.write k a.addr val) hsync.chips)
    · exact (psgRemainder_updateIrq _).trans hsync.remainder
    · exact (ticks_updateIrq _).trans hsync.ticks

/-- The line is the output of the clocked chips. -/
theorem Follows.irqLine_eq {before : Nat} {mb : Mockingboard} {c : Clocked}
    (h : Follows before mb c) : mb.irqLine = c.irq := by
  rw [h.line]
  exact congrArg MockingboardChips.irq h.chips

/-- **A batch, from any count of its cycles on.** -/
theorem Follows.run {before total : Nat} {as : List Access} {mb : Mockingboard} {c : Clocked}
    (h : Follows before mb c) (hsorted : as.Pairwise (·.executed ≤ ·.executed))
    (hfrom : ∀ a ∈ as, mb.synced ≤ a.executed) (hwithin : ∀ a ∈ as, a.executed ≤ total)
    (hle : mb.synced ≤ total) :
    (mb.run as).1 = (Clocked.run total mb.synced as c).1
      ∧ Follows before ((mb.run as).2.mbAbiThink total) (Clocked.run total mb.synced as c).2
      ∧ ((mb.run as).2.mbAbiThink total).synced = 0 := by
  induction as generalizing mb c with
  | nil =>
    refine ⟨rfl, ?_, rfl⟩
    have hthink : Follows before
        (if total > mb.synced then mb.advance (total - mb.synced) else mb)
        (Clocked.clock^[total - mb.synced] c) := by
      split_ifs with hgt
      · exact h.advance _
      · rw [Nat.sub_eq_zero_of_le (Nat.le_of_not_lt hgt)]
        exact h
    exact ⟨hthink.chips, hthink.remainder, hthink.ticks, hthink.line⟩
  | cons a rest ih =>
    obtain ⟨hfirst, hrest⟩ := List.pairwise_cons.mp hsorted
    obtain ⟨hanswer, hfollows, hnow⟩ := h.access (hfrom a (List.mem_cons_self ..))
    obtain ⟨hanswers, hend, hzero⟩ := ih hfollows hrest
      (fun b hb => hnow ▸ hfirst b hb)
      (fun b hb => hwithin b (List.mem_cons_of_mem _ hb))
      (hnow ▸ hwithin a (List.mem_cons_self ..))
    rw [hnow] at hanswers hend
    refine ⟨?_, hend, hzero⟩
    show ((mb.access a).1, (mb.access a).2.irqLine) :: (Mockingboard.run rest (mb.access a).2).1 = _
    rw [hanswer, hfollows.irqLine_eq, hanswers]
    rfl


/-- **The card between two batches**: none of the next one has been seen, and
what is left over is less than a tick. -/
structure Between : Prop where
  /-- No cycle of the next batch has been seen. -/
  synced : mb.synced = 0
  /-- What is left over is less than a tick. -/
  remainder : mb.psgRemainder < cyclesPerAyTick
  /-- The line says what the chips say. -/
  line : mb.irqLine = mb.irq

/-- The clocked card that starts where the card is. -/
def clocked : Clocked := { mb.toMockingboardChips with cycles := mb.psgRemainder }

theorem Between.follows {mb : Mockingboard} (h : mb.Between) : Follows mb.ticks mb mb.clocked where
  chips := rfl
  remainder := (Nat.mod_eq_of_lt h.remainder).symm
  ticks := by
    show mb.ticks = mb.ticks + mb.psgRemainder / cyclesPerAyTick
    rw [Nat.div_eq_of_lt h.remainder, Nat.add_zero]
  line := h.line

theorem Follows.between {before : Nat} {mb : Mockingboard} {c : Clocked}
    (h : Follows before mb c) (hsynced : mb.synced = 0) : mb.Between where
  synced := hsynced
  remainder := by
    rw [h.remainder]
    exact Nat.mod_lt _ (by decide)
  line := h.line

/-- **A batch is seen whole**, each cycle of it once. -/
theorem Follows.batch {before : Nat} {mb : Mockingboard} {c : Clocked}
    (h : Follows before mb c) (hsynced : mb.synced = 0) (b : Batch) :
    (mb.run b.accesses).1 = (Clocked.run b.total 0 b.accesses c).1
      ∧ Follows before ((mb.run b.accesses).2.mbAbiThink b.total)
          (Clocked.run b.total 0 b.accesses c).2
      ∧ ((mb.run b.accesses).2.mbAbiThink b.total).synced = 0 := by
  have hrun := h.run b.sorted (fun a _ => hsynced ▸ Nat.zero_le a.executed) b.within
    (hsynced ▸ Nat.zero_le b.total)
  rw [hsynced] at hrun
  exact hrun

/-- **Batches are seen whole.** -/
theorem Follows.runBatches {before : Nat} {bs : List Batch} {mb : Mockingboard} {c : Clocked}
    (h : Follows before mb c) (hsynced : mb.synced = 0) :
    (mb.runBatches bs).1 = (c.runBatches bs).1
      ∧ Follows before (mb.runBatches bs).2 (c.runBatches bs).2
      ∧ (mb.runBatches bs).2.synced = 0 := by
  induction bs generalizing mb c with
  | nil => exact ⟨rfl, h, hsynced⟩
  | cons b bs ih =>
    obtain ⟨hanswers, hfollows, hzero⟩ := h.batch hsynced b
    obtain ⟨hrest, hend, hsettled⟩ := ih hfollows hzero
    refine ⟨?_, hend, hsettled⟩
    show (mb.run b.accesses).1 ++ _ = _
    rw [hanswers, hrest]
    rfl

end Mockingboard

/-! ## The clocked card counts the cycles -/

namespace Clocked

theorem cycles_access (a : Access) (c : Clocked) : (c.access a).2.cycles = c.cycles := by
  unfold access
  cases a.val <;> rfl

theorem cycles_run {total now : Nat} {as : List Access} {c : Clocked}
    (hsorted : as.Pairwise (·.executed ≤ ·.executed)) (hfrom : ∀ a ∈ as, now ≤ a.executed)
    (hwithin : ∀ a ∈ as, a.executed ≤ total) (hle : now ≤ total) :
    (run total now as c).2.cycles = c.cycles + (total - now) := by
  induction as generalizing now c with
  | nil => exact congrArg cycles (clock_iterate c (total - now))
  | cons a rest ih =>
    obtain ⟨hfirst, hrest⟩ := List.pairwise_cons.mp hsorted
    have hnow := hfrom a (List.mem_cons_self ..)
    have htotal := hwithin a (List.mem_cons_self ..)
    show (run total a.executed rest _).2.cycles = _
    rw [ih hrest hfirst (fun b hb => hwithin b (List.mem_cons_of_mem _ hb)) htotal,
      cycles_access, clock_iterate]
    show c.cycles + (a.executed - now) + (total - a.executed) = c.cycles + (total - now)
    omega

/-- **The cycles of the clocked card are those of the batches.** -/
theorem cycles_runBatches (bs : List Batch) (c : Clocked) :
    (c.runBatches bs).2.cycles = c.cycles + totalCycles bs := by
  induction bs generalizing c with
  | nil => rfl
  | cons b bs ih =>
    show (runBatches bs (run b.total 0 b.accesses c).2).2.cycles = _
    rw [ih, cycles_run b.sorted (fun _ _ => Nat.zero_le _) b.within (Nat.zero_le _)]
    unfold totalCycles
    rw [List.map_cons, List.sum_cons, Nat.sub_zero, Nat.add_assoc]

end Clocked

/-! ## Whole runs -/

/-- What is done to the card between batches, and batches. The program's reads and writes are part
of the batches, at their cycles; a reset and a load happen between two of them. -/
inductive MockingboardOp where
  /-- A batch of cycles. -/
  | batch (b : Batch)
  /-- `mb_abi_reset` -/
  | reset
  /-- `mb_abi_load_state`, of any frame. -/
  | load (ss : MockingboardSaveState)

namespace Mockingboard

variable (mb : Mockingboard)

/-- What an operation does to the card; a refused frame changes nothing. -/
def perform : MockingboardOp → Mockingboard
  | .batch b => (mb.runBatches [b]).2
  | .reset => mb.mbAbiReset
  | .load ss => (mb.mbAbiLoadState ss).getD mb

/-- The card after a history. -/
def history (ops : List MockingboardOp) : Mockingboard := ops.foldl perform mb

theorem between_mbAbiInit (level : Bool) : (mbAbiInit level).Between where
  synced := rfl
  remainder := by
    show 0 < 8
    decide
  line := by
    show false = (Via6522.new.viaIrq || Via6522.new.viaIrq)
    rw [Via6522.viaIrq_of_ifr_eq_zero rfl]
    rfl

theorem between_mbAbiReset : mb.mbAbiReset.Between where
  synced := rfl
  remainder := by
    show 0 < 8
    decide
  line := by
    show false = (((mb.via 0).viaReset).viaIrq || ((mb.via 1).viaReset).viaIrq)
    rw [Via6522.viaIrq_of_ifr_eq_zero rfl, Via6522.viaIrq_of_ifr_eq_zero rfl]
    rfl

theorem Between.mbAbiLoadState {mb mb' : Mockingboard} {ss : MockingboardSaveState}
    (h : mb.mbAbiLoadState ss = some mb') : mb'.Between := by
  unfold Mockingboard.mbAbiLoadState at h
  split_ifs at h
  obtain rfl := Option.some.inj h
  refine ⟨synced_updateIrq _, ?_, irqLine_updateIrq _⟩
  rw [psgRemainder_updateIrq]
  exact Nat.mod_lt _ (by decide)

/-- **Every operation leaves the card between two batches.** -/
theorem Between.perform {mb : Mockingboard} (h : mb.Between) (op : MockingboardOp) :
    (mb.perform op).Between := by
  cases op with
  | batch b =>
    obtain ⟨_, hfollows, hsynced⟩ := @Follows.runBatches _ [b] _ _ h.follows h.synced
    exact hfollows.between hsynced
  | reset => exact between_mbAbiReset mb
  | load ss =>
    show ((mb.mbAbiLoadState ss).getD mb).Between
    cases hload : mb.mbAbiLoadState ss with
    | none => exact h
    | some mb' => exact Between.mbAbiLoadState hload

theorem Between.history {ops : List MockingboardOp} {mb : Mockingboard} (h : mb.Between) :
    (mb.history ops).Between := by
  induction ops generalizing mb with
  | nil => exact h
  | cons op ops ih => exact ih (h.perform op)

/-- **Every cycle is counted once.** Whatever has been done to the card, over
any batches from there on it answers every access as the card clocked at every
cycle does, has the same line after each, ends with its chips in the same
state, and has rendered a tick for every eight cycles. -/
theorem runBatches_eq_clocked (level : Bool) (ops : List MockingboardOp) (bs : List Batch) :
    let mb := (mbAbiInit level).history ops
    (mb.runBatches bs).1 = (mb.clocked.runBatches bs).1
      ∧ (mb.runBatches bs).2.toMockingboardChips
          = (mb.clocked.runBatches bs).2.toMockingboardChips
      ∧ (mb.clocked.runBatches bs).2.cycles = mb.psgRemainder + totalCycles bs
      ∧ (mb.runBatches bs).2.ticks
          = mb.ticks + (mb.psgRemainder + totalCycles bs) / cyclesPerAyTick
      ∧ ((mbAbiInit level).runBatches bs).2.ticks = totalCycles bs / cyclesPerAyTick := by
  intro mb
  have hticks : ∀ {mb : Mockingboard}, mb.Between → (mb.runBatches bs).2.ticks
      = mb.ticks + (mb.psgRemainder + totalCycles bs) / cyclesPerAyTick := fun h => by
    rw [(h.follows.runBatches h.synced).2.1.ticks, Clocked.cycles_runBatches]
    rfl
  have hbetween : mb.Between := (between_mbAbiInit level).history
  obtain ⟨hanswers, hfollows, _⟩ := @Follows.runBatches _ bs _ _ hbetween.follows hbetween.synced
  refine ⟨hanswers, hfollows.chips, Clocked.cycles_runBatches bs _, hticks hbetween, ?_⟩
  rw [hticks (between_mbAbiInit level)]
  show 0 + (0 + totalCycles bs) / cyclesPerAyTick = _
  rw [Nat.zero_add, Nat.zero_add]

end Mockingboard

end LinApple.Cards
