import LinApple.Disk.Passing

/-!
# The motors of the drives

How long each drive goes on turning, which one is selected, whether the motor
switch is on, and what the host was last told: nothing else the card does bears
on these four, so what an operation does to the motors is read off the motors
alone.
-/

namespace LinApple.Disk

/-! ## The motors alone -/

/-- **The motors of a card**, and what the host was last told of them. -/
@[ext]
structure Motion where
  /-- `motor_enable_cycles` of each drive. -/
  motor : Fin 2 → Nat
  /-- `is_motor_on` -/
  isMotorOn : Bool
  /-- `active_drive_index` -/
  active : Fin 2
  /-- What `NotifyActivityChanged` was last given. -/
  activity : Bool

namespace Motion

variable (m : Motion)

/-- A drive is still spinning. -/
def Spins (i : Fin 2) : Prop := 0 < m.motor i

instance (i : Fin 2) : Decidable (m.Spins i) := inferInstanceAs (Decidable (0 < m.motor i))

/-- **What the host was told is true.** -/
def Truthful : Prop := m.activity = true ↔ ∃ i, m.Spins i

/-- The motor of a drive is given so many cycles. -/
def setMotor (i : Fin 2) (cycles : Nat) : Motion :=
  { m with motor := Function.update m.motor i cycles }

/-- `sync_drive_motor_state` -/
def sync : Motion :=
  let held := if m.isMotorOn then m.setMotor m.active motorOffDelayCycles else m
  if decide (0 < m.motor m.active) ≠ decide (0 < held.motor m.active) then
    { held with activity := decide (0 < held.motor m.active) }
  else held

/-- `disk_io_control_motor` -/
def control (on : Bool) : Motion := { m with isMotorOn := on }.sync

/-- The selected drive is stopped, and another one selected. -/
def handOver (i : Fin 2) : Motion := { m.setMotor m.active 0 with active := i }

/-- `disk_io_enable_drive` -/
def select (i : Fin 2) : Motion := (if i ≠ m.active then m.handOver i else m).sync

/-- `update_drive_physics` of a drive. -/
def spinDown (i : Fin 2) (elapsedCycles : Nat) : Motion :=
  if 0 < m.motor i ∧ m.isMotorOn = false then
    if elapsedCycles ≥ m.motor i then { m.setMotor i 0 with activity := false }
    else m.setMotor i (m.motor i - elapsedCycles)
  else m

/-- `initialize_peripheral` -/
def reset : Motion := { m with motor := fun _ => 0, isMotorOn := false, active := 0 }

/-! ### What they keep true -/

variable {m}

theorem setMotor_self (m : Motion) (i : Fin 2) (cycles : Nat) :
    (m.setMotor i cycles).motor i = cycles := Function.update_self ..

theorem setMotor_of_ne (m : Motion) {i j : Fin 2} (h : j ≠ i) (cycles : Nat) :
    (m.setMotor i cycles).motor j = m.motor j := Function.update_of_ne h ..

theorem setMotor_setMotor (m : Motion) (i : Fin 2) (cycles cycles' : Nat) :
    (m.setMotor i cycles).setMotor i cycles' = m.setMotor i cycles' := by
  unfold setMotor
  dsimp only
  rw [Function.update_idem]

/-- With the switch off, nothing is told. -/
theorem sync_off (h : m.isMotorOn = false) : m.sync = m := by
  have hheld : (if m.isMotorOn then m.setMotor m.active motorOffDelayCycles else m) = m :=
    if_neg (h ▸ Bool.false_ne_true)
  unfold Motion.sync
  dsimp only
  rw [hheld, if_neg (not_not.mpr rfl)]

/-- **With the switch on, the selected drive spins**, and the host is told if it
did not know. -/
theorem truthful_sync_on (hon : m.isMotorOn = true)
    (h : m.Spins m.active → m.activity = true) : m.sync.Truthful := by
  have hheld : (m.setMotor m.active motorOffDelayCycles).Spins m.active := by
    unfold Spins
    rw [setMotor_self]
    decide
  unfold Motion.sync
  dsimp only
  rw [if_pos hon, decide_eq_true (show 0 < (m.setMotor m.active _).motor m.active from hheld)]
  split_ifs with hedge
  · exact ⟨fun _ => ⟨_, hheld⟩, fun _ => rfl⟩
  · have hwas : m.Spins m.active := of_decide_eq_true (not_not.mp hedge)
    exact ⟨fun _ => ⟨_, hheld⟩, fun _ => h hwas⟩

theorem Truthful.sync (h : m.Truthful) : m.sync.Truthful := by
  cases hon : m.isMotorOn with
  | false =>
    rw [sync_off hon]
    exact h
  | true => exact truthful_sync_on hon fun hspins => h.mpr ⟨_, hspins⟩

theorem Truthful.control (h : m.Truthful) (on : Bool) : (m.control on).Truthful :=
  have hswitched : Truthful { m with isMotorOn := on } := h
  hswitched.sync

/-- **A drive is selected**: what the host was told stays true unless the drive
that is left was the only one to spin and the switch is off. -/
theorem Truthful.select (h : m.Truthful) {i : Fin 2}
    (hkeeps : i ≠ m.active → m.isMotorOn = false → m.Spins m.active → m.Spins i) :
    (m.select i).Truthful := by
  unfold Motion.select
  split_ifs with hother
  · have hspins : (m.handOver i).Spins i ↔ m.Spins i := by
      show 0 < (m.setMotor m.active 0).motor i ↔ _
      rw [setMotor_of_ne m hother]
      exact Iff.rfl
    cases hon : m.isMotorOn with
    | true => exact truthful_sync_on hon fun hi => h.mpr ⟨i, hspins.mp hi⟩
    | false =>
      rw [sync_off (m := m.handOver i) hon]
      refine Iff.trans h ⟨fun hsome => ⟨i, hspins.mpr ?_⟩, fun ⟨j, hj⟩ => ?_⟩
      · obtain ⟨j, hj⟩ := hsome
        by_cases hji : j = m.active
        · exact hkeeps hother hon (hji ▸ hj)
        · have hrest : j = i := by omega
          exact hrest ▸ hj
      · by_cases hji : j = m.active
        · refine absurd hj ?_
          show ¬ 0 < (m.setMotor m.active 0).motor j
          rw [hji, setMotor_self]
          exact Nat.lt_irrefl 0
        · have hrest : j = i := by omega
          exact ⟨i, hspins.mp (hrest ▸ hj)⟩
  · exact h.sync

/-- A drive lapses: it spins, and not for longer than has elapsed. -/
def Lapses (m : Motion) (elapsedCycles : Nat) (i : Fin 2) : Prop :=
  m.isMotorOn = false ∧ m.Spins i ∧ m.motor i ≤ elapsedCycles

theorem spinDown_motor_self (m : Motion) (i : Fin 2) (elapsedCycles : Nat) :
    (m.spinDown i elapsedCycles).motor i
      = if m.isMotorOn then m.motor i else m.motor i - elapsedCycles := by
  unfold Motion.spinDown
  cases m.isMotorOn with
  | true => rw [if_neg (by simp), if_pos rfl]
  | false =>
    rw [if_neg Bool.false_ne_true]
    split_ifs with hspins helapsed
    · exact (setMotor_self m i 0).trans (Nat.sub_eq_zero_of_le helapsed).symm
    · exact setMotor_self m i _
    · have hstill : m.motor i = 0 := by
        by_contra hmotor
        exact hspins ⟨Nat.pos_of_ne_zero hmotor, rfl⟩
      rw [hstill, Nat.zero_sub]

theorem spinDown_motor_of_ne (m : Motion) {i j : Fin 2} (h : j ≠ i) (elapsedCycles : Nat) :
    (m.spinDown i elapsedCycles).motor j = m.motor j := by
  unfold Motion.spinDown
  split_ifs
  · exact setMotor_of_ne m h _
  · exact setMotor_of_ne m h _
  · rfl

@[simp]
theorem spinDown_isMotorOn (m : Motion) (i : Fin 2) (elapsedCycles : Nat) :
    (m.spinDown i elapsedCycles).isMotorOn = m.isMotorOn := by
  unfold Motion.spinDown
  split_ifs <;> rfl

theorem spinDown_activity (m : Motion) (i : Fin 2) (elapsedCycles : Nat) :
    (m.spinDown i elapsedCycles).activity = true
      ↔ m.activity = true ∧ ¬ m.Lapses elapsedCycles i := by
  unfold Motion.spinDown Lapses Spins
  split_ifs with hspins helapsed
  · exact ⟨(nomatch ·), fun h => absurd ⟨hspins.2, hspins.1, helapsed⟩ h.2⟩
  · exact ⟨fun h => ⟨h, fun hl => helapsed hl.2.2⟩, fun h => h.1⟩
  · exact ⟨fun h => ⟨h, fun hl => hspins ⟨hl.2.1, hl.1⟩⟩, fun h => h.1⟩

/-- **Time passes for both drives**: what the host was told stays true if the
drives that spin lapse together. -/
theorem Truthful.spinDown (h : m.Truthful) {elapsedCycles : Nat}
    (hkeeps : ∀ i, m.Lapses elapsedCycles i → ∀ j, m.Spins j → m.Lapses elapsedCycles j) :
    ((m.spinDown 0 elapsedCycles).spinDown 1 elapsedCycles).Truthful := by
  have hmotor : ∀ i, ((m.spinDown 0 elapsedCycles).spinDown 1 elapsedCycles).motor i
      = if m.isMotorOn then m.motor i else m.motor i - elapsedCycles := by
    rw [Fin.forall_fin_two]
    constructor
    · exact (spinDown_motor_of_ne _ (by decide) _).trans (spinDown_motor_self m 0 _)
    · refine (spinDown_motor_self _ 1 _).trans ?_
      rw [spinDown_isMotorOn, spinDown_motor_of_ne m (by decide)]
  have hactivity : ((m.spinDown 0 elapsedCycles).spinDown 1 elapsedCycles).activity = true
      ↔ m.activity = true ∧ ∀ i, ¬ m.Lapses elapsedCycles i := by
    rw [spinDown_activity, spinDown_activity, and_assoc, Fin.forall_fin_two]
    unfold Lapses Spins
    rw [spinDown_isMotorOn, spinDown_motor_of_ne m (by decide)]
  -- a drive that lapses puts the light out, so no other may go on turning
  refine hactivity.trans ((and_congr_left' h).trans ?_)
  constructor
  · rintro ⟨⟨i, hi⟩, hnone⟩
    refine ⟨i, ?_⟩
    unfold Spins at hi ⊢
    rw [hmotor]
    cases hon : m.isMotorOn with
    | true => exact hi
    | false =>
      have hlong : ¬ m.motor i ≤ elapsedCycles := fun hle => hnone i ⟨hon, hi, hle⟩
      rw [if_neg Bool.false_ne_true]
      omega
  · rintro ⟨i, hi⟩
    have hrest : m.Spins i ∧ ¬ m.Lapses elapsedCycles i := by
      unfold Lapses Spins at *
      rw [hmotor] at hi
      cases hon : m.isMotorOn with
      | true => exact ⟨by rwa [hon, if_pos rfl] at hi, fun hl => nomatch hl.1⟩
      | false =>
        rw [hon, if_neg Bool.false_ne_true] at hi
        exact ⟨by omega, fun hl => by omega⟩
    exact ⟨⟨i, hrest.1⟩, fun j hj => hrest.2 (hkeeps j hj i hrest.1)⟩

/-- **A drive is stopped** and nothing told, while the other one goes on. -/
theorem Truthful.stop (h : m.Truthful) {i : Fin 2}
    (hkeeps : m.Spins i → ∃ j, j ≠ i ∧ m.Spins j) : (m.setMotor i 0).Truthful := by
  have hspins : ∀ j, (m.setMotor i 0).Spins j ↔ j ≠ i ∧ m.Spins j := by
    intro j
    unfold Spins
    by_cases hj : j = i
    · rw [hj, setMotor_self]
      exact ⟨fun hlt => absurd hlt (Nat.lt_irrefl 0), fun hne => absurd rfl hne.1⟩
    · rw [setMotor_of_ne m hj]
      exact ⟨fun hlt => ⟨hj, hlt⟩, fun hlt => hlt.2⟩
  refine Iff.trans h ⟨fun ⟨j, hj⟩ => ?_, fun ⟨j, hj⟩ => ⟨j, ((hspins j).mp hj).2⟩⟩
  by_cases hji : j = i
  · obtain ⟨k, hk⟩ := hkeeps (hji ▸ hj)
    exact ⟨k, (hspins k).mpr hk⟩
  · exact ⟨j, (hspins j).mpr ⟨hji, hj⟩⟩

end Motion

end LinApple.Disk
