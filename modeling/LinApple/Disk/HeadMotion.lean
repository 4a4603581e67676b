import LinApple.Disk.Activity

/-!
# How far a head moves

A magnet pulls the head to its own half track and two live ones share it, so the head is never
pulled further than the nearest half track on either side. Only one thing takes it further: the
last magnet let go in the same breath as the one before it takes the head back to where it was
before that one was let go, and which drive that was is not remembered. As long as that is where
the selected drive's head came from no access moves a head by more than three quarter tracks, and
none moves the head of a drive that is not selected.

The card remembers one release, with its cycle and the quarter track at that time. It has to, as
letting go of two magnets one after the other is to leave the head between them, and the second
comes within cycles of the first. But there are two drives and one memory, and selecting the other
drive does not clear it.

A run is one of everything that can be done to the card, disks and save states included, since
each of these may move the heads or change what is remembered. In the state reached three things
hold. The heads are over the disk; cycles that pass move neither of them; and an access moves only
the head of the drive that is selected afterwards, and by at most three quarter tracks, if and
only if it is not one of the strobes that are described above (`Overshoots`).

The condition is on the state before the access and on its address. It speaks of the cycle of the
access too, because being within ten cycles is reckoned with 32 bits, and a release that is old
enough looks new again. Frames need no exception: what a frame says was remembered counts as
remembered.
-/

namespace LinApple.Disk

/-- Two quarter tracks are at most three apart. -/
def Near (a b : Nat) : Prop := a ≤ b + 3 ∧ b ≤ a + 3

instance (a b : Nat) : Decidable (Near a b) := inferInstanceAs (Decidable (_ ∧ _))

theorem Near.refl (a : Nat) : Near a a := ⟨Nat.le_add_right a 3, Nat.le_add_right a 3⟩

/-- **Heads that have moved as the magnets allow**: that of the selected drive by at
most three quarter tracks, that of the other one not at all. -/
def Shifted (selected : Fin 2) (before after : Fin 2 → Nat) : Prop :=
  (∀ i, i ≠ selected → after i = before i) ∧ Near (before selected) (after selected)

theorem shifted_refl (selected : Fin 2) (heads : Fin 2 → Nat) : Shifted selected heads heads :=
  ⟨fun _ _ => rfl, .refl _⟩

/-- One head is moved. -/
theorem shifted_update_iff (selected : Fin 2) (heads : Fin 2 → Nat) (quarterTrack : Nat) :
    Shifted selected heads (Function.update heads selected quarterTrack)
      ↔ Near (heads selected) quarterTrack := by
  unfold Shifted
  rw [Function.update_self]
  exact and_iff_right fun i hi => Function.update_of_ne hi _ _

/-! ## The pull of the magnets -/

namespace DiskPeripheral

/-- **Each magnet that pulls is at most a half track away** from the half track the
head is over. -/
theorem pull_bounds (live : UInt16) (here : Nat) :
    ((here - here % 2 : Int) - 2) * (pull live here).1 ≤ (pull live here).2
      ∧ (pull live here).2 ≤ ((here - here % 2 : Int) + 2) * (pull live here).1 := by
  unfold pull
  dsimp only
  refine List.foldlRecOn (motive := fun s : Nat × Int =>
    ((here - here % 2 : Int) - 2) * s.1 ≤ s.2 ∧ s.2 ≤ ((here - here % 2 : Int) + 2) * s.1)
    _ _ ⟨by simp, by simp⟩ fun s hs magnet _ => ?_
  obtain ⟨hlow, hhigh⟩ := hs
  have hnext : ∀ c : Int, c * ((s.1 + 1 : Nat) : Int) = c * s.1 + c := fun c => by
    rw [Int.natCast_add, Int.mul_add, Int.natCast_one, Int.mul_one]
  split_ifs
  · exact ⟨hlow, hhigh⟩
  · exact ⟨hlow, hhigh⟩
  all_goals
    rw [hnext, hnext]
    omega

/-- The mean of places at most two from `h` is at most two from it. -/
theorem tdiv_bounds {h s : Int} {n : Nat} (hn : n ≠ 0) (hlow : (h - 2) * n ≤ s)
    (hhigh : s ≤ (h + 2) * n) : h - 2 ≤ s.tdiv n ∧ s.tdiv n ≤ h + 2 := by
  have hpos : (0 : Int) < n := by omega
  constructor
  · calc h - 2 = ((h - 2) * n).tdiv n := (Int.mul_tdiv_cancel _ (Int.ne_of_gt hpos)).symm
      _ ≤ s.tdiv n := Int.tdiv_le_tdiv hpos hlow
  · calc s.tdiv n ≤ ((h + 2) * n).tdiv n := Int.tdiv_le_tdiv hpos hhigh
      _ = h + 2 := Int.mul_tdiv_cancel _ (Int.ne_of_gt hpos)

/-- **The magnets pull no further than three quarter tracks.** -/
theorem near_settled {here : Nat} (h : here < quarterTracksPerDisk) (live : UInt16) :
    Near here (settled live here) := by
  obtain ⟨hlow, hhigh⟩ := pull_bounds live here
  unfold settled
  dsimp only
  split_ifs with hmagnets
  · exact .refl here
  · obtain ⟨hleast, hmost⟩ := tdiv_bounds hmagnets hlow hhigh
    unfold quarterTracksPerDisk at *
    unfold Near
    omega

/-! ## The heads alone -/

variable {D : Drivers} {p6 : UInt8 → UInt8} {dp : DiskPeripheral}

/-- Where the heads are. -/
def heads (dp : DiskPeripheral) (i : Fin 2) : Nat := (dp.drives i).quarterTrack

/-- What the stepper goes by, besides the heads. -/
def release (dp : DiskPeripheral) : UInt16 × Bool × UInt32 × UInt32 × Nat :=
  (dp.stepperPhaseMask, dp.magnetReleased, dp.magnetReleaseCycle, dp.cumulativeCycles,
    dp.quarterTrackBeforeRelease)

theorem heads_setDrive (dp : DiskPeripheral) (i : Fin 2) (d : Drive) :
    (dp.setDrive i d).heads = Function.update dp.heads i d.quarterTrack := by
  funext j
  show (Function.update dp.drives i d j).quarterTrack = _
  by_cases hj : j = i
  · rw [hj, Function.update_self, Function.update_self]
  · rw [Function.update_of_ne hj, Function.update_of_ne hj]
    rfl

theorem heads_setDrive_of_eq {i : Fin 2} {d : Drive}
    (h : d.quarterTrack = (dp.drives i).quarterTrack) : (dp.setDrive i d).heads = dp.heads := by
  rw [heads_setDrive, h]
  exact Function.update_eq_self i dp.heads

/-- **Giving a track to the driver** moves no head, and the stepper does not hear of
it. -/
theorem heads_writeTrackToDriver (dp : DiskPeripheral) (i : Fin 2) :
    (dp.writeTrackToDriver D i).heads = dp.heads
      ∧ (dp.writeTrackToDriver D i).release = dp.release := by
  unfold writeTrackToDriver
  dsimp only
  split
  · exact ⟨rfl, rfl⟩
  · split
    · exact ⟨rfl, rfl⟩
    · split
      · exact ⟨rfl, rfl⟩
      · split
        · exact ⟨heads_setDrive_of_eq (d := { dp.drives i with
            isDirty := !D.writes dp.calls }) rfl, rfl⟩
        · exact ⟨rfl, rfl⟩

theorem heads_flushTrack (dp : DiskPeripheral) (i : Fin 2) :
    (dp.flushTrack D i).heads = dp.heads ∧ (dp.flushTrack D i).release = dp.release := by
  unfold flushTrack
  split_ifs
  · exact heads_writeTrackToDriver dp i
  · exact ⟨rfl, rfl⟩

theorem activeDriveIndex_flushTrack (dp : DiskPeripheral) (i : Fin 2) :
    (dp.flushTrack D i).activeDriveIndex = dp.activeDriveIndex :=
  congrArg Motion.active (motion_flushTrack dp i)

/-- **The head of the selected drive is moved.** -/
theorem heads_moveHeadTo (dp : DiskPeripheral) (quarterTrack : Nat) :
    (dp.moveHeadTo D quarterTrack).heads
        = Function.update dp.heads dp.activeDriveIndex quarterTrack
      ∧ (dp.moveHeadTo D quarterTrack).release = dp.release := by
  unfold moveHeadTo
  split_ifs with hthere
  · refine ⟨?_, rfl⟩
    rw [hthere]
    exact (Function.update_eq_self dp.activeDriveIndex dp.heads).symm
  · obtain ⟨hheads, hrelease⟩ := heads_flushTrack (D := D) dp dp.activeDriveIndex
    refine ⟨?_, hrelease⟩
    show ((dp.flushTrack D dp.activeDriveIndex).setActive _).heads = _
    unfold setActive
    rw [heads_setDrive, hheads, activeDriveIndex_flushTrack]

theorem heads_settleHead (dp : DiskPeripheral) :
    (dp.settleHead D).heads = Function.update dp.heads dp.activeDriveIndex
        (settled dp.energisedMagnets dp.activeDrive.quarterTrack)
      ∧ (dp.settleHead D).release = dp.release :=
  heads_moveHeadTo dp _

theorem activeDriveIndex_settleHead (dp : DiskPeripheral) :
    (dp.settleHead D).activeDriveIndex = dp.activeDriveIndex :=
  congrArg Motion.active (motion_settleHead dp)

theorem Sound.shifted_settleHead (h : dp.Sound) :
    Shifted dp.activeDriveIndex dp.heads (dp.settleHead D).heads := by
  rw [(heads_settleHead dp).1, shifted_update_iff]
  exact near_settled h.active.quarterTrack_lt _

/-! ## The switches -/

/-- **What an access may do to the heads.** Only that of the drive which is active then may move,
by at most three quarter tracks. Which drive that is, is asked after the access, since an access
may select the other one. -/
def Steps (dp dp' : DiskPeripheral) : Prop := Shifted dp'.activeDriveIndex dp.heads dp'.heads

theorem steps_of_eq {dp dp' : DiskPeripheral} (h : dp'.heads = dp.heads) : dp.Steps dp' := by
  unfold Steps
  rw [h]
  exact shifted_refl _ _

/-- **The motors pull when a drive begins to turn.** -/
theorem Sound.steps_syncDriveMotorState (h : dp.Sound) :
    dp.Steps (dp.syncDriveMotorState D) := by
  have hactive : (dp.syncDriveMotorState D).activeDriveIndex = dp.activeDriveIndex := by
    refine (congrArg Motion.active (motion_syncDriveMotorState dp)).trans ?_
    unfold Motion.sync
    dsimp only
    split_ifs <;> rfl
  obtain ⟨held, hheld⟩ : ∃ held, (if dp.isMotorOn then
      dp.setActive { dp.activeDrive with motorEnableCycles := motorOffDelayCycles }
    else dp) = held := ⟨_, rfl⟩
  have hsound : held.Sound := by
    rw [← hheld]
    split_ifs
    · exact h.setDrive (h.active.setMotor _)
    · exact h
  have hheads : held.heads = dp.heads ∧ held.activeDriveIndex = dp.activeDriveIndex := by
    rw [← hheld]
    split_ifs
    · exact ⟨heads_setDrive_of_eq rfl, rfl⟩
    · exact ⟨rfl, rfl⟩
  have hsettled : ∀ c : Prop, ∀ _ : Decidable c, Shifted dp.activeDriveIndex dp.heads
      (if c then held.settleHead D else held).heads := fun c _ => by
    rw [← hheads.1, ← hheads.2]
    split_ifs
    · exact hsound.shifted_settleHead
    · exact shifted_refl _ _
  unfold Steps
  rw [hactive]
  unfold DiskPeripheral.syncDriveMotorState
  dsimp only
  rw [hheld]
  split
  · exact hsettled _ _
  · exact hsettled _ _

theorem Sound.steps_diskIoControlMotor (h : dp.Sound) (addr : Nat) :
    dp.Steps (dp.diskIoControlMotor D addr) :=
  have hmotor : ({ dp with isMotorOn := addr % 2 = 1 } : DiskPeripheral).Sound := h.of_eq rfl rfl
  hmotor.steps_syncDriveMotorState

/-- **A drive is selected**: only its own head may move. -/
theorem Sound.steps_diskIoEnableDrive (h : dp.Sound) (addr : Nat) :
    dp.Steps (dp.diskIoEnableDrive D addr) := by
  unfold DiskPeripheral.diskIoEnableDrive
  dsimp only
  split_ifs
  · have hflushed := h.flushTrack (D := D) dp.activeDriveIndex
    obtain ⟨hheads, -⟩ := heads_flushTrack (D := D) dp dp.activeDriveIndex
    generalize dp.flushTrack D dp.activeDriveIndex = flushed at hflushed hheads ⊢
    have hset := hflushed.setDrive (i := flushed.activeDriveIndex)
      (d := { flushed.activeDrive with motorEnableCycles := 0, writeLightCycles := 0 })
      ((hflushed.active.setMotor 0).setLight 0)
    have hselected : Sound { flushed.setActive { flushed.activeDrive with
        motorEnableCycles := 0, writeLightCycles := 0 } with
        activeDriveIndex := Fin.ofNat 2 addr } := hset.of_eq rfl rfl
    have hsame : (flushed.setActive { flushed.activeDrive with
        motorEnableCycles := 0, writeLightCycles := 0 }).heads = dp.heads :=
      (heads_setDrive_of_eq (i := flushed.activeDriveIndex) (d := { flushed.activeDrive with
        motorEnableCycles := 0, writeLightCycles := 0 }) rfl).trans hheads
    have hsteps := hselected.steps_syncDriveMotorState (D := D)
    unfold Steps at hsteps ⊢
    rw [← hsame]
    exact hsteps
  · exact h.steps_syncDriveMotorState

theorem steps_diskIoModeSwitch (dp : DiskPeripheral) (addr : Nat) (dataValue : Option UInt8) :
    dp.Steps (dp.diskIoModeSwitch addr dataValue) := by
  unfold diskIoModeSwitch
  dsimp only
  split_ifs
  · exact steps_of_eq rfl
  · exact steps_of_eq (heads_setDrive_of_eq rfl)
  · exact steps_of_eq rfl

/-- **An access that takes a head too far**: it lets the last live magnet go within
ten cycles of another one, and the place the head was at before that is more than
three quarter tracks from where the selected drive's head is. -/
def Overshoots (dp : DiskPeripheral) (addr : Nat) : Prop :=
  addr % 16 < 8 ∧ addr % 2 = 0 ∧ dp.activeDrive.motorEnableCycles ≠ 0
    ∧ { dp with stepperPhaseMask := dp.strobed addr }.cancelsThePendingMove = true
    ∧ ¬ Near dp.activeDrive.quarterTrack dp.quarterTrackBeforeRelease

instance (dp : DiskPeripheral) (addr : Nat) : Decidable (dp.Overshoots addr) :=
  inferInstanceAs (Decidable (_ ∧ _))

theorem cancelsThePendingMove_congr {dp dp' : DiskPeripheral} (h : dp'.release = dp.release) :
    dp'.cancelsThePendingMove = dp.cancelsThePendingMove := by
  simp only [release, Prod.mk.injEq] at h
  obtain ⟨hmask, hreleased, hcycle, hcycles, -⟩ := h
  unfold cancelsThePendingMove
  rw [hmask, hreleased, hcycle, hcycles]

/-- **The stepper** takes the head no further than the magnets pull it, unless it
takes it back to somewhere else. -/
theorem Sound.steps_diskIoControlStepper_iff (h : dp.Sound) {addr : Nat} (haddr : addr % 16 < 8) :
    dp.Steps (dp.diskIoControlStepper D addr) ↔ ¬ dp.Overshoots addr := by
  have hstrobed : Sound { dp with stepperPhaseMask := dp.strobed addr } := h.of_eq rfl rfl
  have hoff : decide (addr % 2 = 1) = false ↔ addr % 2 = 0 := by
    rw [decide_eq_false_iff_not]
    omega
  obtain ⟨hheads, hrelease⟩ :=
    heads_settleHead (D := D) { dp with stepperPhaseMask := dp.strobed addr }
  have hactive :=
    activeDriveIndex_settleHead (D := D) { dp with stepperPhaseMask := dp.strobed addr }
  have hpulled := hstrobed.shifted_settleHead (D := D)
  have hcancels := cancelsThePendingMove_congr hrelease
  have hbefore : ({ dp with stepperPhaseMask := dp.strobed addr }.settleHead D
      ).quarterTrackBeforeRelease = dp.quarterTrackBeforeRelease :=
    congrArg (fun r => r.2.2.2.2) hrelease
  -- a stopped motor, a magnet switched on, a move called off and a plain release: only the third
  -- puts the head back where it had been before it settled
  unfold DiskPeripheral.diskIoControlStepper
  dsimp only
  split_ifs with hstill hon hcancel
  · exact iff_of_true (steps_of_eq rfl) fun hover => hover.2.2.1 hstill
  · refine iff_of_true ?_ fun hover => ?_
    · unfold Steps
      rw [hactive]
      exact hpulled
    · rw [hoff.2 hover.2.1] at hon
      exact Bool.false_ne_true hon
  · rw [hcancels] at hcancel
    have hmask : dp.strobed addr = 0 := by
      unfold cancelsThePendingMove at hcancel
      simp only [Bool.and_eq_true, decide_eq_true_eq] at hcancel
      exact hcancel.1.1
    have hstays : ({ dp with stepperPhaseMask := dp.strobed addr }.settleHead D).heads
        = dp.heads := by
      have hlive : energisedMagnets { dp with stepperPhaseMask := dp.strobed addr } = 0 := by
        unfold energisedMagnets
        rw [hmask]
        exact ite_self 0
      rw [hheads, hlive, settled_zero]
      exact Function.update_eq_self dp.activeDriveIndex dp.heads
    have hback := heads_moveHeadTo (D := D)
      ({ dp with stepperPhaseMask := dp.strobed addr }.settleHead D) dp.quarterTrackBeforeRelease
    have hindex : (({ dp with stepperPhaseMask := dp.strobed addr }.settleHead D).moveHeadTo D
        dp.quarterTrackBeforeRelease).activeDriveIndex = dp.activeDriveIndex :=
      (congrArg Motion.active (motion_moveHeadTo _ _)).trans hactive
    unfold Steps
    rw [hbefore]
    show Shifted (({ dp with stepperPhaseMask := dp.strobed addr }.settleHead D).moveHeadTo D
        dp.quarterTrackBeforeRelease).activeDriveIndex dp.heads
      (({ dp with stepperPhaseMask := dp.strobed addr }.settleHead D).moveHeadTo D
        dp.quarterTrackBeforeRelease).heads ↔ _
    rw [hindex, hback.1, hstays, hactive, shifted_update_iff]
    have hstepped : addr % 2 = 0 := by
      rw [Bool.not_eq_true] at hon
      exact hoff.1 hon
    exact ⟨fun hnear hover => hover.2.2.2.2 hnear, fun hnot => by
      by_contra hfar
      exact hnot ⟨haddr, hstepped, hstill, hcancel, hfar⟩⟩
  · refine iff_of_true ?_ fun hover => ?_
    · unfold Steps
      show Shifted ({ dp with stepperPhaseMask := dp.strobed addr }.settleHead D
        ).activeDriveIndex dp.heads _
      rw [hactive]
      exact hpulled
    · exact hcancel (hcancels.trans hover.2.2.2.1)

/-- **The head moves as the magnets allow**, exactly if the access does not take it
too far. -/
theorem Sound.steps_diskIoHandlers_iff (h : dp.Sound) (addr : Nat) (dataValue : Option UInt8) :
    dp.Steps (dp.diskIoHandlers D addr dataValue) ↔ ¬ dp.Overshoots addr := by
  unfold DiskPeripheral.diskIoHandlers
  dsimp only
  split_ifs with hstepper
  · exact h.steps_diskIoControlStepper_iff hstepper
  · exact iff_of_true (h.steps_diskIoControlMotor addr) fun hover => hstepper hover.1
  · exact iff_of_true (h.steps_diskIoEnableDrive addr) fun hover => hstepper hover.1
  · exact iff_of_true (steps_diskIoModeSwitch dp addr dataValue) fun hover => hstepper hover.1

/-! ## Time -/

/-- What has to be the same for an access to move the heads in the same way. -/
structure Stands (dp dp' : DiskPeripheral) : Prop where
  /-- The heads are where they were. -/
  heads : dp'.heads = dp.heads
  /-- The stepper goes by the same. -/
  release : dp'.release = dp.release
  /-- The motors turn as they did. -/
  motion : dp'.motion = dp.motion

theorem Stands.trans {dp dp' dp'' : DiskPeripheral} (h : dp.Stands dp') (h' : dp'.Stands dp'') :
    dp.Stands dp'' :=
  ⟨h'.heads.trans h.heads, h'.release.trans h.release, h'.motion.trans h.motion⟩

theorem Passes.stands {dp dp' : DiskPeripheral} (h : dp.Passes dp') : dp.Stands dp' where
  heads := funext fun i => (h.drives i).quarterTrack
  release := h.kept DiskPeripheral.release
  motion := h.motion

theorem quarterTrack_rescaleHeadAngle (d : Drive) (position count : Nat) :
    (d.rescaleHeadAngle position count).quarterTrack = d.quarterTrack := by
  obtain ⟨p, hp⟩ := d.rescaleHeadAngle_eq position count
  rw [hp]

/-- **Reading a track** moves no head. -/
theorem stands_readUnlessLoaded (dp : DiskPeripheral) :
    dp.Stands (dp.readUnlessLoaded D) := by
  refine ⟨?_, ?_, motion_readUnlessLoaded dp⟩
  · unfold readUnlessLoaded readTrackFromDriver
    dsimp only
    split_ifs
    · exact heads_setDrive_of_eq rfl
    · split
      · exact heads_setDrive_of_eq (quarterTrack_rescaleHeadAngle _ _ _)
      · exact heads_setDrive_of_eq (quarterTrack_rescaleHeadAngle _ _ _)
    · rfl
  · unfold readUnlessLoaded readTrackFromDriver
    dsimp only
    split_ifs
    · rfl
    · split <;> rfl
    · rfl

/-- **The sequencer moves no head**, however long it runs. -/
theorem yields_stands_sync (dp : DiskPeripheral) (executedCycles : Nat) :
    Yields (dp.syncSequencerToCycle D p6 executedCycles) (dp.marked executedCycles).Stands := by
  refine yields_syncSequencerToCycle (fun hle => ⟨rfl, ?_, rfl⟩) (fun _ _ => ⟨rfl, rfl, rfl⟩)
    fun _ _ dp' hpasses => (stands_readUnlessLoaded (dp.marked executedCycles)).trans hpasses.stands
  have hcycles : dp.cumulativeCycles
      = dp.cumulativeCycles + UInt32.ofNat (executedCycles - dp.synced) := by
    rw [Nat.sub_eq_zero_of_le hle]
    exact (UInt32.add_zero _).symm
  unfold release
  rw [show (dp.marked executedCycles).cumulativeCycles = dp.cumulativeCycles from hcycles.symm]
  rfl

theorem Stands.overshoots_iff {dp dp' : DiskPeripheral} (h : dp.Stands dp') (addr : Nat) :
    dp'.Overshoots addr ↔ dp.Overshoots addr := by
  have hactive : dp'.activeDriveIndex = dp.activeDriveIndex := congrArg Motion.active h.motion
  have hhead : dp'.activeDrive.quarterTrack = dp.activeDrive.quarterTrack := by
    show dp'.heads dp'.activeDriveIndex = dp.heads dp.activeDriveIndex
    rw [hactive, h.heads]
  have hmotor : dp'.activeDrive.motorEnableCycles = dp.activeDrive.motorEnableCycles := by
    show dp'.motion.motor dp'.motion.active = dp.motion.motor dp.motion.active
    rw [h.motion]
  have hmask : dp'.stepperPhaseMask = dp.stepperPhaseMask := congrArg Prod.fst h.release
  have hbefore : dp'.quarterTrackBeforeRelease = dp.quarterTrackBeforeRelease :=
    congrArg (fun r => r.2.2.2.2) h.release
  have hstrobed : dp'.strobed addr = dp.strobed addr := by
    unfold strobed
    rw [hmask]
  have hcancels : { dp' with stepperPhaseMask := dp'.strobed addr }.cancelsThePendingMove
      = { dp with stepperPhaseMask := dp.strobed addr }.cancelsThePendingMove := by
    refine cancelsThePendingMove_congr ?_
    rw [hstrobed]
    exact congrArg (fun r => (dp.strobed addr, r.2)) h.release
  unfold Overshoots
  rw [hhead, hmotor, hcancels, hbefore]

theorem heads_spinDown (dp : DiskPeripheral) (i : Fin 2) (elapsedCycles : Nat) :
    (dp.spinDown D i elapsedCycles).heads = dp.heads := by
  unfold spinDown
  dsimp only
  split
  · split
    · refine (heads_flushTrack _ i).1.trans ?_
      exact heads_setDrive_of_eq (d := { dp.drives i with motorEnableCycles := 0 }) rfl
    · exact heads_setDrive_of_eq rfl
  · rfl

theorem heads_updateDrivePhysics (dp : DiskPeripheral) (i : Fin 2) (elapsedCycles : Nat) :
    (dp.updateDrivePhysics D i elapsedCycles).heads = dp.heads := by
  refine Eq.trans ?_ (heads_spinDown (D := D) dp i elapsedCycles)
  unfold updateDrivePhysics fadeWriteLight
  dsimp only
  split_ifs
  · exact heads_setDrive_of_eq rfl
  · exact heads_setDrive_of_eq rfl

/-- **As time passes no head moves.** -/
theorem yields_heads_diskAbiThink (dp : DiskPeripheral) (elapsedCycles : Nat) :
    Yields (dp.diskAbiThink D p6 elapsedCycles) fun dp' => dp'.heads = dp.heads := by
  unfold diskAbiThink
  split_ifs
  · exact .pure rfl
  · refine (yields_stands_sync dp elapsedCycles).bind fun dp' hstands => .pure ?_
    rw [heads_updateDrivePhysics, heads_updateDrivePhysics]
    exact hstands.heads

end DiskPeripheral

/-! ## Whole runs -/

/-- The switch an operation accesses, and the cycle it does so at. -/
def DiskOp.access : DiskOp → Option (Nat × Nat)
  | .read addr executedCycles _ => some (addr, executedCycles)
  | .write addr _ executedCycles => some (addr, executedCycles)
  | _ => none

namespace DiskPeripheral

variable {D : Drivers} {p6 : UInt8 → UInt8} {dp : DiskPeripheral}

/-- The heads after the sequencer has caught up and a switch was accessed. -/
theorem Sound.ends_steps_iff (hD : D.Contract) (h : dp.Sound) {op : DiskOp}
    {addr executedCycles : Nat} (hop : op.access = some (addr, executedCycles)) :
    Ends (dp.perform D p6 op) dp.Steps ↔ ¬ (dp.marked executedCycles).Overshoots addr := by
  obtain ⟨synced, hsync, hsound⟩ :
      Ends (dp.syncSequencerToCycle D p6 executedCycles) Sound :=
    h.syncSequencerToCycle hD executedCycles
  have hstands := yields_stands_sync dp executedCycles synced hsync
  -- catching up moves no head, so the step is the handler's alone
  have hsteps : ∀ dataValue, dp.Steps (synced.diskIoHandlers D addr dataValue)
      ↔ ¬ (dp.marked executedCycles).Overshoots addr := fun dataValue => by
    have hhandled := hsound.steps_diskIoHandlers_iff (D := D) addr dataValue
    rw [hstands.overshoots_iff] at hhandled
    have hheads : synced.heads = dp.heads := hstands.heads
    unfold Steps at hhandled ⊢
    rw [← hheads]
    exact hhandled
  have hends : ∀ (dp' : DiskPeripheral), Ends (some dp') dp.Steps ↔ dp.Steps dp' := fun dp' =>
    ⟨fun ⟨_, heq, hP⟩ => Option.some.inj heq ▸ hP, fun hP => .pure hP⟩
  cases op with
  | read addr' executedCycles' floating =>
    obtain ⟨rfl, rfl⟩ := Prod.mk.inj (Option.some.inj hop)
    have hperform : dp.perform D p6 (.read addr' executedCycles' floating)
        = some (synced.diskIoHandlers D addr' none) := by
      show Prod.snd <$> dp.diskIoRead D p6 addr' executedCycles' floating = _
      unfold DiskPeripheral.diskIoRead
      rw [hsync]
      rfl
    rw [hperform, hends, hsteps]
  | write addr' dataValue executedCycles' =>
    obtain ⟨rfl, rfl⟩ := Prod.mk.inj (Option.some.inj hop)
    have hperform : dp.perform D p6 (.write addr' dataValue executedCycles')
        = some (synced.diskIoHandlers D addr' (some dataValue)) := by
      show dp.diskIoWrite D p6 addr' dataValue executedCycles' = _
      unfold DiskPeripheral.diskIoWrite
      rw [hsync]
      rfl
    rw [hperform, hends, hsteps]
  | _ => exact nomatch hop

/-- **The head moves as the magnets allow**, whatever has been done to the card
before: it stays over the disk, no head moves as time passes, and an access moves
that of the selected drive by at most three quarter tracks and the other one not
at all, exactly if it does not take it back to where another head was. -/
theorem run_steps_iff (hD : D.Contract) (p6 : UInt8 → UInt8) (trace : DiskTrace)
    (image1 image2 : Option OpenAnswer) (ops : List DiskOp) :
    Ends ((diskAbiInit D trace image1 image2).run D p6 ops) fun dp =>
      (∀ i, dp.heads i < 160)
      ∧ (∀ elapsedCycles,
        Ends (dp.diskAbiThink D p6 elapsedCycles) fun dp' => dp'.heads = dp.heads)
      ∧ ∀ op addr executedCycles, op.access = some (addr, executedCycles) →
        (Ends (dp.perform D p6 op) dp.Steps
          ↔ ¬ (dp.marked executedCycles).Overshoots addr) := by
  refine ((sound_diskAbiInit trace image1 image2).run hD ops).mono fun dp h =>
    ⟨fun i => (h.drives i).quarterTrack_lt, fun elapsedCycles => ?_,
      fun op addr executedCycles hop => h.ends_steps_iff hD hop⟩
  obtain ⟨dp', hthink, -⟩ : Ends (dp.diskAbiThink D p6 elapsedCycles) Sound :=
    h.diskAbiThink hD elapsedCycles
  exact ⟨dp', hthink, yields_heads_diskAbiThink dp elapsedCycles dp' hthink⟩

/-- The card with nothing in its drives, and its head moved. -/
theorem run_steps_iff_blank : Ends ((diskAbiInit blankDrivers .new none none).run
    blankDrivers id [.read 0x9 4 0, .read 0x3 8 0]) fun dp =>
      (∀ i, dp.heads i < 160)
      ∧ (∀ elapsedCycles,
        Ends (dp.diskAbiThink blankDrivers id elapsedCycles) fun dp' => dp'.heads = dp.heads)
      ∧ ∀ op addr executedCycles, op.access = some (addr, executedCycles) →
        (Ends (dp.perform blankDrivers id op) dp.Steps
          ↔ ¬ (dp.marked executedCycles).Overshoots addr) :=
  run_steps_iff ⟨fun _ _ => (by decide : 50464 ≤ maxTrackBits),
    fun _ _ => (by decide : 0 < diskDefaultBitTiming)⟩ id .new none none _

/-- The motor is turned on, the head of the first drive is taken to half track 4
with one magnet after another, and the other drive is selected four cycles after
the last but one is let go. -/
def towardsHalfTrack4 : List DiskOp :=
  [.read 0x9 4 0, .read 0x3 8 0, .read 0x5 12 0, .read 0x2 16 0, .read 0x7 20 0,
    .read 0x4 24 0, .read 0x1 28 0, .read 0x6 32 0, .read 0xB 36 0]

/-- **A head that is taken to where the other one was**: letting the last magnet go
moves the second drive's head by seven quarter tracks. -/
theorem overshoots_towardsHalfTrack4 : Ends ((diskAbiInit blankDrivers .new none none).run
    blankDrivers id towardsHalfTrack4) fun dp =>
      Ends (dp.perform blankDrivers id (.read 0x0 40 0)) fun dp' =>
        dp.heads 1 = 0 ∧ dp'.heads 1 = 7 ∧ dp'.activeDriveIndex = 1 ∧ ¬ dp.Steps dp' := by
  have hafter : (((diskAbiInit blankDrivers .new none none).run
      blankDrivers id towardsHalfTrack4).bind fun dp =>
        (dp.perform blankDrivers id (.read 0x0 40 0)).map fun dp' =>
          (dp.heads 1, dp'.heads 1, dp'.activeDriveIndex)) = some (0, 7, 1) := by
    decide +kernel
  obtain ⟨dp, hrun, hrest⟩ := Option.bind_eq_some_iff.1 hafter
  obtain ⟨dp', hperform, hheads⟩ := Option.map_eq_some_iff.1 hrest
  obtain ⟨hwas, hrest⟩ := Prod.mk.inj hheads
  obtain ⟨his, hactive⟩ := Prod.mk.inj hrest
  refine ⟨dp, hrun, dp', hperform, hwas, his, hactive, fun hsteps => ?_⟩
  have hnear : Near (dp.heads 1) (dp'.heads 1) := hactive ▸ hsteps.2
  rw [hwas, his] at hnear
  exact absurd hnear (by decide)

end DiskPeripheral

end LinApple.Disk
