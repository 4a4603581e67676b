import LinApple.Cards.Joystick

/-!
# The paddle timers are monostables

Beside the card stands the record of a timer as a monostable sees it (`Monostable`): all the
triggers that were accepted, each with the position that its pulse was measured against. The card
knows only the last of them (`GamePort.Keeps`), which is enough because the pulses of the others
are over (`Monostable.Settled`) – all but those of a strobe in cycle 0 that another strobe in
cycle 0 followed: the card counts cycle 0 as cycle 1, so that the second is accepted too.

A monostable is triggered only while its output is low, and then keeps the length of its pulse,
whatever becomes of the paddle. The record is written from that description: it accepts a strobe
if no pulse covers the cycle, and notes the position then. The card decides the same by looking at
its last trigger alone, and the theorem is that the two agree, in what a read shows, in which
strobes are taken, and in what a movement of the stick changes.

The last part is about what all of this is for. The loop of `PREAD` samples the output every
eleven cycles until it is low, and counts how often it was high; the count must be the position.
It is stated for a loop that starts at a strobe while the timer is low, with any reads and any
movements of other sticks in between, and for every position, 255 included, as long as there is
room to count to it.

The accesses come at cycles that do not decrease, and that is all that is asked of them. Cycle 0
stands for "never" in the card, on purpose, and what follows from it is in `not_paddle_timers`:
two pulses in cycle 0 of which only the second is one.
-/

namespace LinApple.Cards

/-! ## The monostable -/

/-- **A timer on record**: where its paddle stands, and every trigger that it accepted, the last
one first, with the position that its pulse is measured against. -/
structure Monostable where
  /-- Where the paddle stands. -/
  axis : UInt8
  /-- The cycle of each accepted trigger, 1 for 0, and the position. -/
  triggers : List (Nat × UInt8)

/-- A trigger's pulse is up in a cycle. A pulse lasts eleven cycles for each step of the axis, and
ten more, from the cycle of the trigger on. -/
def Covers (trigger : Nat × UInt8) (cycle : Nat) : Prop :=
  trigger.1 ≤ cycle ∧ cycle < trigger.1 + (11 * trigger.2.toNat + 10)

instance (trigger : Nat × UInt8) (cycle : Nat) : Decidable (Covers trigger cycle) :=
  inferInstanceAs (Decidable (_ ∧ _))

namespace Monostable

/-- A timer that was never triggered. -/
def idle : Monostable := ⟨GamePort.centrePosition, []⟩

variable (timer : Monostable)

/-- **The output is high**: the last trigger's pulse is up. The earlier ones do not come into it,
for a trigger is accepted only where no pulse is up. -/
def High (cycle : Nat) : Prop := ∃ trigger ∈ timer.triggers.head?, Covers trigger cycle

instance (cycle : Nat) : Decidable (timer.High cycle) :=
  match h : timer.triggers with
  | [] => isFalse fun ⟨_, hx, _⟩ => by rw [h] at hx; exact nomatch hx
  | trigger :: _ => decidable_of_iff (Covers trigger cycle) (by simp [High, h])

/-- A strobe: ignored while the output is high. -/
def strobe (now : Nat) : Monostable :=
  if timer.High now then timer
  else { timer with triggers := (max now 1, timer.axis) :: timer.triggers }

/-- The paddle is moved: it takes the running pulse along. -/
def move (now : Nat) (value : UInt8) : Monostable where
  axis := value
  triggers :=
    if timer.High now then timer.triggers.modifyHead (fun trigger => (trigger.1, value))
    else timer.triggers

/-- What an access means for the timer of a paddle. -/
def step (paddle : Fin 4) (timer : Monostable) : Nat × GamePortAccess → Monostable
  | (now, .strobe) => timer.strobe now
  | (_, .read _ _) => timer
  | (now, .command commandId payload) =>
    match (GamePortAccess.command commandId payload).movement paddle with
    | none => timer
    | some value => timer.move now value

/-- The record that a run leaves of the timer of a paddle. -/
def run (paddle : Fin 4) (timer : Monostable) (accesses : List (Nat × GamePortAccess)) :
    Monostable :=
  accesses.foldl (step paddle) timer

end Monostable

namespace Monostable

variable {timer : Monostable} {clock now : Nat}

@[simp] theorem high_cons {axis : UInt8} {trigger : Nat × UInt8} {older : List (Nat × UInt8)}
    {cycle : Nat} : (Monostable.mk axis (trigger :: older)).High cycle ↔ Covers trigger cycle := by
  simp [High]

/-- The position and the start of the last trigger decide the output. -/
theorem high_congr {other : Monostable} (h : timer.triggers.head? = other.triggers.head?)
    (cycle : Nat) : timer.High cycle ↔ other.High cycle := by
  unfold High
  rw [h]

/-! ## The triggers before the last -/

/-- **The last trigger that was accepted in its cycle.** There can be several: one at cycle 0
counts as one of cycle 1, so its pulse is not up yet and the next one is accepted too. Of these
the last counts. -/
def Latest (timer : Monostable) (trigger : Nat × UInt8) : Prop :=
  ∃ newer older, timer.triggers = newer ++ trigger :: older ∧ ∀ x ∈ newer, x.1 ≠ trigger.1

/-- **What is known of a record at a cycle**: no trigger is ahead of the clock, and the pulse of a
trigger is over when one in another cycle is accepted. -/
structure Settled (timer : Monostable) (clock : Nat) : Prop where
  /-- No trigger is in cycle 0. -/
  pos : ∀ x ∈ timer.triggers, 0 < x.1
  /-- No trigger is ahead of the clock, which counts 0 as 1. -/
  le_clock : ∀ x ∈ timer.triggers, x.1 ≤ max clock 1
  /-- An older pulse is over. -/
  ended : ∀ newer y older, timer.triggers = newer ++ y :: older → (∀ x ∈ newer, x.1 ≠ y.1) →
    ∀ x ∈ newer, y.1 + (11 * y.2.toNat + 10) ≤ x.1

theorem settled_idle : idle.Settled 0 where
  pos := fun _ hx => nomatch hx
  le_clock := fun _ hx => nomatch hx
  ended := fun newer _ _ h => absurd h (by simp [idle])

theorem Settled.mono (h : timer.Settled clock) (hle : clock ≤ now) : timer.Settled now :=
  { h with le_clock := fun x hx => (h.le_clock x hx).trans (by omega) }

/-- The last trigger of a record is over where the output is low, or in the coming cycle. -/
theorem Settled.head_over {y : Nat × UInt8} {older : List (Nat × UInt8)}
    (h : timer.Settled now) (htriggers : timer.triggers = y :: older) (hlow : ¬ timer.High now)
    (hne : max now 1 ≠ y.1) : y.1 + (11 * y.2.toNat + 10) ≤ max now 1 := by
  have hle : y.1 ≤ max now 1 := h.le_clock y (by rw [htriggers]; exact List.mem_cons_self ..)
  have hcovers : ¬ Covers y now := fun hc => hlow ⟨y, by rw [htriggers]; rfl, hc⟩
  unfold Covers at hcovers
  omega

theorem Settled.strobe (h : timer.Settled now) : (timer.strobe now).Settled now := by
  unfold Monostable.strobe
  by_cases hhigh : timer.High now
  · rw [if_pos hhigh]
    exact h
  · rw [if_neg hhigh]
    refine ⟨fun x hx => ?_, fun x hx => ?_, fun newer y older htriggers hne x hx => ?_⟩
    · rcases List.mem_cons.1 hx with rfl | hx
      · exact Nat.lt_of_lt_of_le Nat.one_pos (le_max_right now 1)
      · exact h.pos x hx
    · rcases List.mem_cons.1 hx with rfl | hx
      · exact le_refl _
      · exact h.le_clock x hx
    · cases newer with
      | nil => exact nomatch hx
      | cons first newer =>
        obtain ⟨rfl, hrest⟩ := List.cons_eq_cons.1 htriggers
        have hne' : ∀ x ∈ newer, x.1 ≠ y.1 := fun x hx => hne x (List.mem_cons_of_mem _ hx)
        have hover := h.ended newer y older hrest hne'
        rcases List.mem_cons.1 hx with rfl | hx
        · cases newer with
          | nil => exact h.head_over hrest hhigh (hne _ (List.mem_cons_self ..))
          | cons second newer =>
            exact (hover second (List.mem_cons_self ..)).trans
              (h.le_clock second (by rw [hrest]; exact List.mem_cons_self ..))
        · exact hover x hx

theorem Settled.move (h : timer.Settled now) (value : UInt8) : (timer.move now value).Settled now := by
  unfold Monostable.move
  by_cases hhigh : timer.High now
  · cases htriggers : timer.triggers with
    | nil =>
      obtain ⟨_, hx, _⟩ := hhigh
      rw [htriggers] at hx
      exact nomatch hx
    | cons last triggers =>
      rw [if_pos hhigh]
      have hmem : ∀ x ∈ (last.1, value) :: triggers, ∃ x' ∈ timer.triggers, x'.1 = x.1 := by
        intro x hx
        rw [htriggers]
        rcases List.mem_cons.1 hx with rfl | hx
        · exact ⟨last, List.mem_cons_self .., rfl⟩
        · exact ⟨x, List.mem_cons_of_mem _ hx, rfl⟩
      refine ⟨fun x hx => ?_, fun x hx => ?_, fun newer y older heq hne x hx => ?_⟩
      · obtain ⟨x', hx', heq⟩ := hmem x hx
        exact heq ▸ h.pos x' hx'
      · obtain ⟨x', hx', heq⟩ := hmem x hx
        exact heq ▸ h.le_clock x' hx'
      · cases newer with
        | nil => exact nomatch hx
        | cons first newer =>
          obtain ⟨rfl, hrest⟩ := List.cons_eq_cons.1 heq
          have hover := h.ended (last :: newer) y older (by rw [htriggers, hrest]; rfl) (fun x hx => by
            rcases List.mem_cons.1 hx with rfl | hx
            · exact hne (x.1, value) (List.mem_cons_self ..)
            · exact hne x (List.mem_cons_of_mem _ hx))
          rcases List.mem_cons.1 hx with rfl | hx
          · exact hover last (List.mem_cons_self ..)
          · exact hover x (List.mem_cons_of_mem _ hx)
  · rw [if_neg hhigh]
    exact ⟨h.pos, h.le_clock, h.ended⟩

theorem Settled.step (h : timer.Settled now) (paddle : Fin 4) (access : GamePortAccess) :
    (timer.step paddle (now, access)).Settled now := by
  cases access with
  | strobe => exact h.strobe
  | read => exact h
  | command commandId payload =>
    dsimp only [Monostable.step]
    cases (GamePortAccess.command commandId payload).movement paddle with
    | none => exact h
    | some value => exact h.move value

/-- **In a run whose cycles do not decrease, the older pulses are over.** -/
theorem Settled.run (paddle : Fin 4) {accesses : List (Nat × GamePortAccess)}
    (h : timer.Settled clock) (hfrom : ∀ a ∈ accesses, clock ≤ a.1)
    (hsorted : accesses.Pairwise (fun a b => a.1 ≤ b.1)) (hlast : ∀ a ∈ accesses, a.1 ≤ now)
    (hnow : clock ≤ now) : (timer.run paddle accesses).Settled now := by
  induction accesses generalizing timer clock with
  | nil => exact h.mono hnow
  | cons a accesses ih =>
    obtain ⟨hle, hsorted⟩ := List.pairwise_cons.1 hsorted
    exact ih ((h.mono (hfrom a (List.mem_cons_self ..))).step paddle a.2) hle hsorted
      (fun b hb => hlast b (List.mem_cons_of_mem _ hb)) (hlast a (List.mem_cons_self ..))

/-- **One trigger decides**: the output is high where the pulse of some trigger is up, of the
latest ones of their cycles. -/
theorem Settled.high_iff (h : timer.Settled now) :
    timer.High now ↔ ∃ trigger, timer.Latest trigger ∧ Covers trigger now := by
  constructor
  · rintro ⟨trigger, hhead, hcovers⟩
    obtain ⟨older, hcons⟩ := List.head?_eq_some_iff.1 hhead
    exact ⟨trigger, ⟨[], older, hcons, fun _ hx => nomatch hx⟩, hcovers⟩
  · rintro ⟨trigger, ⟨newer, older, htriggers, hne⟩, hcovers⟩
    cases newer with
    | nil => exact ⟨trigger, by rw [htriggers]; rfl, hcovers⟩
    | cons last newer =>
      have hover := h.ended (last :: newer) trigger older htriggers hne last (List.mem_cons_self ..)
      have hclock := h.le_clock last (by rw [htriggers]; exact List.mem_cons_self ..)
      have hpos := h.pos trigger (by rw [htriggers]; simp)
      unfold Covers at hcovers
      omega

end Monostable

/-! ## The card keeps the last trigger -/

namespace GamePort

variable {port : GamePort} {paddle : Fin 4} {timer : Monostable}

/-- **What the card keeps of the record of a timer**: where the paddle stands, and the last
trigger. -/
structure Keeps (port : GamePort) (paddle : Fin 4) (timer : Monostable) : Prop where
  /-- Where the paddle stands. -/
  axis : timer.axis = port.position paddle
  /-- The last trigger. -/
  last : timer.triggers.head?
    = if port.triggerCycle paddle = 0 then none
      else some (port.triggerCycle paddle, port.pulsePosition paddle)

theorem keeps_init (paddle : Fin 4) : joystickAbiInit.Keeps paddle Monostable.idle :=
  ⟨rfl, rfl⟩

/-- **The timer has expired where the output is low.** -/
theorem Keeps.expired_iff (h : port.Keeps paddle timer) (now : Nat) :
    port.timerExpired paddle now = true ↔ ¬ timer.High now := by
  unfold timerExpired Monostable.High
  rw [h.last]
  by_cases hzero : port.triggerCycle paddle = 0
  · simp [hzero]
  · simp only [if_neg hzero, Option.mem_def, Option.some.injEq, exists_eq_left', Covers]
    by_cases hahead : port.triggerCycle paddle > now
    · simp only [if_pos (Or.inr hahead), true_iff]
      omega
    · rw [if_neg (fun h => h.elim hzero hahead), decide_eq_true_iff, pulseCycles]
      omega

theorem Keeps.strobe (h : port.Keeps paddle timer) (now : Nat) :
    (port.joystickStrobe now).Keeps paddle (timer.strobe now) := by
  have hiff := h.expired_iff now
  unfold joystickStrobe Monostable.strobe
  by_cases hhigh : timer.High now
  · have hrunning : ¬ port.timerExpired paddle now = true := fun he => hiff.1 he hhigh
    rw [if_pos hhigh]
    refine ⟨h.axis, ?_⟩
    simp only [if_neg hrunning]
    exact h.last
  · rw [if_neg hhigh]
    refine ⟨h.axis, ?_⟩
    simp only [if_pos (hiff.2 hhigh), List.head?_cons, h.axis]
    rw [if_neg (by omega)]

theorem Keeps.move (h : port.Keeps paddle timer) (now : Nat) (value : UInt8) :
    (port.moveAxis now paddle value).Keeps paddle (timer.move now value) := by
  have hiff := h.expired_iff now
  unfold moveAxis Monostable.move
  by_cases hhigh : timer.High now
  · have hrunning : ¬ port.timerExpired paddle now = true := fun he => hiff.1 he hhigh
    refine ⟨by simp, ?_⟩
    have hlast := h.last
    by_cases hzero : port.triggerCycle paddle = 0
    · simp only [if_pos hzero] at hlast
      obtain ⟨_, hx, _⟩ := hhigh
      rw [hlast] at hx
      exact nomatch hx
    · simp only [if_neg hzero] at hlast
      obtain ⟨older, hcons⟩ := List.head?_eq_some_iff.1 hlast
      simp [hhigh, hcons, hrunning, hzero]
  · refine ⟨by simp, ?_⟩
    simp only [if_neg hhigh, hiff.2 hhigh, Bool.not_true, Bool.false_eq_true, if_false]
    exact h.last

/-- A movement of another paddle. -/
theorem Keeps.moveAxis_other (h : port.Keeps paddle timer) {other : Fin 4} (hne : paddle ≠ other)
    (now : Nat) (value : UInt8) : (port.moveAxis now other value).Keeps paddle timer := by
  refine ⟨h.axis.trans (Function.update_of_ne hne _ _).symm, ?_⟩
  have hpulse : (port.moveAxis now other value).pulsePosition paddle = port.pulsePosition paddle := by
    dsimp only [moveAxis]
    split
    · exact Function.update_of_ne hne _ _
    · rfl
  rw [hpulse]
  exact h.last

/-- **A command moves a paddle where it says so, and else nothing.** -/
theorem joystickAbiCommand_snd (port : GamePort) (now : Nat) (commandId : UInt32)
    (payload : Option JoystickAxisPayload) :
    (port.joystickAbiCommand now commandId payload).2 = port
      ∧ (∀ paddle, (GamePortAccess.command commandId payload).movement paddle = none)
    ∨ ∃ paddle value, (port.joystickAbiCommand now commandId payload).2 = port.moveAxis now paddle value
      ∧ ∀ other, (GamePortAccess.command commandId payload).movement other
        = if other = paddle then some value else none := by
  have hmine : peripheralCmdIsMine joystickCmdSetAxis = true := by decide
  unfold joystickAbiCommand
  by_cases hset : commandId = joystickCmdSetAxis
  · subst hset
    simp only [hmine, Bool.not_true, Bool.false_eq_true, if_false, ne_eq, not_true]
    cases payload with
    | none => exact .inl ⟨rfl, fun _ => rfl⟩
    | some axis =>
      cases hpaddle : payloadPaddle axis with
      | none => exact .inl ⟨by simp [hpaddle], fun _ => by simp [GamePortAccess.movement, hpaddle]⟩
      | some paddle =>
        refine .inr ⟨paddle, axis.value, by simp [hpaddle], fun other => ?_⟩
        simp [GamePortAccess.movement, hpaddle, eq_comm]
  · refine .inl ⟨?_, fun paddle => ?_⟩
    · split
      · rfl
      · simp
    · cases payload with
      | none => rfl
      | some axis => exact if_neg (fun h => hset h.1)

theorem Keeps.step (h : port.Keeps paddle timer) (access : Nat × GamePortAccess) :
    (port.step access).Keeps paddle (timer.step paddle access) := by
  obtain ⟨now, access⟩ := access
  cases access with
  | strobe => exact h.strobe now
  | read => exact h
  | command commandId payload =>
    dsimp only [GamePort.step, Monostable.step]
    rcases joystickAbiCommand_snd port now commandId payload with
      ⟨hport, hnone⟩ | ⟨moved, value, hport, hmove⟩
    · rw [hport, hnone]
      exact h
    · rw [hport, hmove]
      by_cases heq : paddle = moved
      · subst heq
        rw [if_pos rfl]
        exact h.move now value
      · rw [if_neg heq]
        exact h.moveAxis_other heq now value

/-- **The card keeps the last trigger of every timer in every run.** -/
theorem Keeps.run (h : port.Keeps paddle timer) (accesses : List (Nat × GamePortAccess)) :
    (port.run accesses).Keeps paddle (timer.run paddle accesses) := by
  induction accesses generalizing port timer with
  | nil => exact h
  | cons a accesses ih => exact ih (h.step a)

/-! ## What a program sees -/

/-- The output of a timer, as a read of its address shows it. -/
theorem joystickIoReadPaddle_testBit {memoryAddress : UInt16}
    (hmux : muxPaddle memoryAddress = some paddle) (port : GamePort) (now : Nat)
    (floatingBus : UInt8) :
    (port.joystickIoReadPaddle now memoryAddress floatingBus).toNat.testBit 7 = true
      ↔ ¬ port.timerExpired paddle now = true := by
  have hlow : ∀ x : UInt8, (x &&& 0x7F).toNat.testBit 7 = false := fun x => by
    rw [UInt8.toNat_and, Nat.testBit_and]
    exact Bool.and_false _
  have hhigh : ∀ x : UInt8, (x ||| 0x80).toNat.testBit 7 = true := fun x => by
    rw [UInt8.toNat_or, Nat.testBit_or]
    exact Bool.or_true _
  have hread : port.joystickIoReadPaddle now memoryAddress floatingBus
      = if (!port.timerExpired paddle now) = true then (floatingBus &&& 0x7F) ||| 0x80
        else floatingBus &&& 0x7F := by
    simp only [joystickIoReadPaddle, hmux]
  rw [hread]
  by_cases hexpired : port.timerExpired paddle now = true
  · rw [if_neg (by rw [hexpired]; exact Bool.false_ne_true), hlow]
    exact iff_of_false Bool.false_ne_true (fun h => h hexpired)
  · rw [if_pos (by simpa using hexpired), hhigh]
    exact iff_of_true rfl hexpired

theorem Keeps.testBit_iff (h : port.Keeps paddle timer) {memoryAddress : UInt16}
    (hmux : muxPaddle memoryAddress = some paddle) (now : Nat) (floatingBus : UInt8) :
    (port.joystickIoReadPaddle now memoryAddress floatingBus).toNat.testBit 7 = true
      ↔ timer.High now := by
  rw [joystickIoReadPaddle_testBit hmux, h.expired_iff, not_not]

/-- **What PREAD counts**: the samples that read high before the first that reads low, the first
10 cycles after the start and one every 11 cycles, of `room` samples. -/
def pread (port : GamePort) (memoryAddress : UInt16) (floatingBus : Nat → UInt8)
    (start room : Nat) : Nat :=
  ((List.range room).takeWhile fun k =>
    (port.joystickIoReadPaddle (start + 10 + 11 * k) memoryAddress (floatingBus k)).toNat.testBit
      7).length

/-- A timer triggered at the start is high in as many samples as the position says. -/
theorem Keeps.pread_eq (h : port.Keeps paddle timer) {memoryAddress : UInt16}
    (hmux : muxPaddle memoryAddress = some paddle) {start : Nat} {position : UInt8}
    (hlast : timer.triggers.head? = some (start, position)) (floatingBus : Nat → UInt8) {room : Nat}
    (hroom : position.toNat < room) :
    port.pread memoryAddress floatingBus start room = position.toNat := by
  have hsample : ∀ k, (port.joystickIoReadPaddle (start + 10 + 11 * k) memoryAddress
      (floatingBus k)).toNat.testBit 7 = decide (k < position.toNat) := by
    intro k
    rw [Bool.eq_iff_iff, h.testBit_iff hmux, decide_eq_true_iff]
    simp only [Monostable.High, hlast, Option.mem_def, Option.some.injEq, exists_eq_left', Covers]
    omega
  obtain ⟨more, rfl⟩ := Nat.exists_eq_add_of_lt hroom
  unfold pread
  simp only [hsample]
  rw [Nat.add_assoc, List.range_add, List.takeWhile_append_of_pos (by simp), List.range_succ_eq_map,
    List.map_cons, List.takeWhile_cons_of_neg (by simp), List.append_nil, List.length_range]

end GamePort

namespace Monostable

variable {timer : Monostable} {paddle : Fin 4}

/-- Where the paddle is still and no strobe comes, the record stays. -/
theorem run_still {accesses : List (Nat × GamePortAccess)}
    (hstill : ∀ a ∈ accesses, a.2 ≠ .strobe ∧ a.2.movement paddle = none) :
    timer.run paddle accesses = timer := by
  induction accesses with
  | nil => rfl
  | cons a accesses ih =>
    obtain ⟨hstrobe, hmove⟩ := hstill a (List.mem_cons_self ..)
    have hstep : timer.step paddle a = timer := by
      obtain ⟨now, access⟩ := a
      cases access with
      | strobe => exact absurd rfl hstrobe
      | read => rfl
      | command commandId payload =>
        dsimp only [Monostable.step]
        rw [hmove]
    have hrest := ih fun b hb => hstill b (List.mem_cons_of_mem _ hb)
    exact (congrArg (fun t => Monostable.run paddle t accesses) hstep).trans hrest

end Monostable

namespace GamePort

/-- **The paddle timers are monostables.** After any run whose cycles do not decrease, a read shows
a timer high exactly where the pulse of an accepted trigger is up, of several in one cycle that of
the last. A strobe while the output is high leaves the timer, and a movement while it is low
leaves the output of every cycle. A PREAD loop that starts in the cycle of its own trigger, which
is 1 for 0, counts the position where the paddle is left alone and no other strobe comes. -/
theorem paddle_timers (accesses : List (Nat × GamePortAccess)) (now : Nat)
    (hsorted : accesses.Pairwise (fun a b => a.1 ≤ b.1)) (hnow : ∀ a ∈ accesses, a.1 ≤ now)
    (paddle : Fin 4) (memoryAddress : UInt16) (hmux : muxPaddle memoryAddress = some paddle)
    (floatingBus : Nat → UInt8) :
    ((((joystickAbiInit.run accesses).joystickIoReadPaddle now memoryAddress
          (floatingBus 0)).toNat.testBit 7 = true
        ↔ ∃ trigger, (Monostable.idle.run paddle accesses).Latest trigger ∧ Covers trigger now)
      ∧ ((Monostable.idle.run paddle accesses).High now →
        ((joystickAbiInit.run accesses).joystickStrobe now).triggerCycle paddle
            = (joystickAbiInit.run accesses).triggerCycle paddle
          ∧ ((joystickAbiInit.run accesses).joystickStrobe now).pulsePosition paddle
            = (joystickAbiInit.run accesses).pulsePosition paddle)
      ∧ (¬ (Monostable.idle.run paddle accesses).High now → ∀ value cycle,
        ((joystickAbiInit.run accesses).moveAxis now paddle value).timerExpired paddle cycle
          = (joystickAbiInit.run accesses).timerExpired paddle cycle)
      ∧ (¬ (Monostable.idle.run paddle accesses).High now → ∀ later : List (Nat × GamePortAccess),
        (∀ a ∈ later, a.2 ≠ .strobe ∧ a.2.movement paddle = none) → ∀ room,
        (Monostable.idle.run paddle accesses).axis.toNat < room →
        ((joystickAbiInit.run (accesses ++ (now, .strobe) :: later)).pread memoryAddress floatingBus
            (max now 1) room)
          = (Monostable.idle.run paddle accesses).axis.toNat)) := by
  have hkeeps := (keeps_init paddle).run accesses
  have hsettled := Monostable.settled_idle.run paddle (fun _ _ => Nat.zero_le _) hsorted hnow
    (Nat.zero_le now)
  have hexpired := hkeeps.expired_iff now
  refine ⟨?_, fun hhigh => ?_, fun hlow value cycle => ?_, fun hlow later hstill room hroom => ?_⟩
  · rw [hkeeps.testBit_iff hmux, hsettled.high_iff]
  · have hrunning : ¬ (joystickAbiInit.run accesses).timerExpired paddle now = true :=
      fun he => hexpired.1 he hhigh
    exact ⟨if_neg hrunning, if_neg hrunning⟩
  · rw [Bool.eq_iff_iff, (hkeeps.move now value).expired_iff, hkeeps.expired_iff]
    refine not_congr (Monostable.high_congr ?_ cycle)
    rw [Monostable.move, if_neg hlow]
  · have hkeeps' := (keeps_init paddle).run (accesses ++ (now, .strobe) :: later)
    have htimer : Monostable.idle.run paddle (accesses ++ (now, .strobe) :: later)
        = (Monostable.idle.run paddle accesses).strobe now := by
      rw [Monostable.run, List.foldl_append, List.foldl_cons]
      exact Monostable.run_still hstill
    rw [htimer] at hkeeps'
    refine hkeeps'.pread_eq hmux ?_ floatingBus hroom
    rw [Monostable.strobe, if_neg hlow]
    rfl

/-- **A pulse of the centre position from cycle 5**: it is high in cycle 1411 and counted as 127. -/
theorem paddle_timers_centre :
    (((joystickAbiInit.run [(5, .strobe)]).joystickIoReadPaddle 1411 0xC064 0).toNat.testBit 7 = true
        ↔ ∃ trigger, (Monostable.idle.run 0 [(5, .strobe)]).Latest trigger ∧ Covers trigger 1411)
      ∧ (joystickAbiInit.run [(5, .strobe)]).pread 0xC064 (fun _ => 0) 5 255 = 127 := by
  refine ⟨(paddle_timers [(5, .strobe)] 1411 (List.pairwise_singleton ..) (by decide) 0 0xC064
    (by decide) (fun _ => 0)).1, ?_⟩
  exact (paddle_timers [] 5 .nil (by decide) 0 0xC064 (by decide) (fun _ => 0)).2.2.2
    (by decide) [] (fun _ h => nomatch h) 255 (by decide)

/-- **Two strobes in cycle 0, and the paddle moved between them**: both are accepted, and only the
second decides. A PREAD loop that starts in cycle 0 counts one more. -/
theorem not_paddle_timers :
    (∃ trigger ∈ (Monostable.idle.run 0 [(0, .strobe), (0, .command 0x00020000 (some ⟨0, 0, 0⟩)),
          (0, .strobe)]).triggers, Covers trigger 20)
      ∧ ((joystickAbiInit.run [(0, .strobe), (0, .command 0x00020000 (some ⟨0, 0, 0⟩)),
          (0, .strobe)]).joystickIoReadPaddle 20 0xC064 0).toNat.testBit 7 = false
      ∧ (joystickAbiInit.run [(0, .strobe)]).pread 0xC064 (fun _ => 0) 0 255 = 128 := by
  decide +kernel

end GamePort

end LinApple.Cards
