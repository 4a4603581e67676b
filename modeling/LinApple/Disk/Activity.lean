import LinApple.Disk.Motion

/-!
# The activity of the disk card

What the host has recorded for the slot of the disk card is meant to say whether
a drive is spinning. The card tells it when it turns a drive on, when it selects
another one and when a motor lapses; it does not when a reset, an eject, an
insert or a save state stops a drive or starts one, nor when it is taken out of
the slot.
-/

namespace LinApple.Disk

namespace DiskPeripheral

variable {D : Drivers} {p6 : UInt8 → UInt8}

/-- The motors of a card. -/
def motion (dp : DiskPeripheral) : Motion where
  motor := fun i => (dp.drives i).motorEnableCycles
  isMotorOn := dp.isMotorOn
  active := dp.activeDriveIndex
  activity := dp.activity

/-! ## What leaves the motors alone -/

theorem motion_setDrive (dp : DiskPeripheral) (i : Fin 2) (d : Drive) :
    (dp.setDrive i d).motion = dp.motion.setMotor i d.motorEnableCycles := by
  refine Motion.ext (funext fun j => ?_) rfl rfl rfl
  show (Function.update dp.drives i d j).motorEnableCycles
    = Function.update dp.motion.motor i d.motorEnableCycles j
  by_cases hj : j = i
  · rw [hj, Function.update_self, Function.update_self]
  · rw [Function.update_of_ne hj, Function.update_of_ne hj]
    rfl

/-- A drive that goes on turning as it did leaves the motors alone. -/
theorem motion_setDrive_of_eq {dp : DiskPeripheral} {i : Fin 2} {d : Drive}
    (h : d.motorEnableCycles = (dp.drives i).motorEnableCycles) :
    (dp.setDrive i d).motion = dp.motion := by
  rw [motion_setDrive, h]
  exact Motion.ext (Function.update_eq_self i dp.motion.motor) rfl rfl rfl

@[simp]
theorem motion_writeTrackToDriver (dp : DiskPeripheral) (i : Fin 2) :
    (dp.writeTrackToDriver D i).motion = dp.motion := by
  unfold writeTrackToDriver
  dsimp only
  split
  · rfl
  · split
    · rfl
    · split
      · rfl
      · split
        · exact motion_setDrive_of_eq (d := { dp.drives i with isDirty := !D.writes dp.calls }) rfl
        · rfl

@[simp]
theorem motion_flushTrack (dp : DiskPeripheral) (i : Fin 2) :
    (dp.flushTrack D i).motion = dp.motion := by
  unfold flushTrack
  split_ifs
  · exact motion_writeTrackToDriver dp i
  · rfl

theorem motorEnableCycles_rescaleHeadAngle (d : Drive) (position count : Nat) :
    (d.rescaleHeadAngle position count).motorEnableCycles = d.motorEnableCycles := by
  obtain ⟨p, hp⟩ := d.rescaleHeadAngle_eq position count
  rw [hp]

@[simp]
theorem motion_readTrackFromDriver (dp : DiskPeripheral) (i : Fin 2) :
    (dp.readTrackFromDriver D i).motion = dp.motion := by
  unfold readTrackFromDriver
  dsimp only
  split
  · exact motion_setDrive_of_eq rfl
  · split
    · exact motion_setDrive_of_eq (motorEnableCycles_rescaleHeadAngle _ _ _)
    · exact @motion_setDrive_of_eq dp i _ (motorEnableCycles_rescaleHeadAngle
        (((dp.drives i).clearTrack.makeRoom).layTrack _ (D.reads dp.calls _)) _ _)

@[simp]
theorem motion_moveHeadTo (dp : DiskPeripheral) (quarterTrack : Nat) :
    (dp.moveHeadTo D quarterTrack).motion = dp.motion := by
  unfold moveHeadTo
  split_ifs
  · rfl
  · refine Eq.trans ?_ (motion_flushTrack (D := D) dp dp.activeDriveIndex)
    exact motion_setDrive_of_eq rfl

@[simp]
theorem motion_settleHead (dp : DiskPeripheral) : (dp.settleHead D).motion = dp.motion :=
  motion_moveHeadTo dp _

@[simp]
theorem motion_diskIoControlStepper (dp : DiskPeripheral) (addr : Nat) :
    (dp.diskIoControlStepper D addr).motion = dp.motion := by
  have hsettled : (DiskPeripheral.settleHead D
      { dp with stepperPhaseMask := dp.strobed addr }).motion = dp.motion := motion_settleHead _
  unfold diskIoControlStepper
  dsimp only
  split_ifs
  · rfl
  · exact hsettled
  · exact (motion_moveHeadTo _ _).trans hsettled
  · exact hsettled

@[simp]
theorem motion_diskIoModeSwitch (dp : DiskPeripheral) (addr : Nat) (dataValue : Option UInt8) :
    (dp.diskIoModeSwitch addr dataValue).motion = dp.motion := by
  unfold diskIoModeSwitch
  dsimp only
  split_ifs
  · rfl
  · exact @motion_setDrive_of_eq dp _ _ rfl
  · rfl

/-- What passes under the head leaves the motors alone. -/
theorem Passes.motion {dp dp' : DiskPeripheral} (h : dp.Passes dp') : dp'.motion = dp.motion :=
  Motion.ext (funext fun i => (h.drives i).motorEnableCycles) h.isMotorOn h.activeDriveIndex
    (congrArg DiskTrace.activity h.toDiskTrace)

theorem motion_readUnlessLoaded (dp : DiskPeripheral) :
    (dp.readUnlessLoaded D).motion = dp.motion := by
  unfold readUnlessLoaded
  split_ifs
  · exact motion_readTrackFromDriver dp _
  · rfl

/-- **However long the sequencer runs**, the motors are as they were. -/
theorem yields_motion_sync (dp : DiskPeripheral) (executedCycles : Nat) :
    Yields (dp.syncSequencerToCycle D p6 executedCycles) fun dp' => dp'.motion = dp.motion :=
  yields_syncSequencerToCycle (fun _ => rfl) (fun _ _ => rfl) fun _ _ _ hpasses =>
    hpasses.motion.trans (motion_readUnlessLoaded (dp.marked executedCycles))

/-! ## What moves the motors -/

theorem motion_syncDriveMotorState (dp : DiskPeripheral) :
    (dp.syncDriveMotorState D).motion = dp.motion.sync := by
  obtain ⟨held, hheld⟩ : ∃ held, (if dp.isMotorOn then
      dp.setActive { dp.activeDrive with motorEnableCycles := motorOffDelayCycles }
      else dp) = held := ⟨_, rfl⟩
  have hmotion : (if dp.motion.isMotorOn then
      dp.motion.setMotor dp.motion.active motorOffDelayCycles else dp.motion) = held.motion := by
    rw [← hheld]
    show (if dp.isMotorOn then dp.motion.setMotor dp.activeDriveIndex _ else _) = _
    split_ifs
    · exact (motion_setDrive dp dp.activeDriveIndex { dp.activeDrive with
        motorEnableCycles := motorOffDelayCycles }).symm
    · rfl
  have hactive : held.activeDriveIndex = dp.activeDriveIndex := by
    rw [← hheld]
    split_ifs <;> rfl
  have hnow : held.motion.motor dp.motion.active = held.activeDrive.motorEnableCycles := by
    show (held.drives dp.activeDriveIndex).motorEnableCycles = _
    rw [← hactive]
    rfl
  have hsettled : ∀ c : Prop, ∀ _ : Decidable c,
      (if c then held.settleHead D else held).motion = held.motion := fun c _ => by
    split_ifs
    · exact motion_settleHead held
    · rfl
  unfold syncDriveMotorState Motion.sync
  dsimp only
  rw [hheld, hmotion, hnow]
  show _ = if decide (dp.activeDrive.motorEnableCycles > 0)
    ≠ decide (held.activeDrive.motorEnableCycles > 0) then _ else _
  split
  · exact congrArg (fun m : Motion => { m with
      activity := decide (held.activeDrive.motorEnableCycles > 0) }) (hsettled _ _)
  · exact hsettled _ _

theorem motion_diskIoControlMotor (dp : DiskPeripheral) (addr : Nat) :
    (dp.diskIoControlMotor D addr).motion = dp.motion.control (addr % 2 = 1) :=
  motion_syncDriveMotorState _

theorem motion_diskIoEnableDrive (dp : DiskPeripheral) (addr : Nat) :
    (dp.diskIoEnableDrive D addr).motion = dp.motion.select (Fin.ofNat 2 addr) := by
  unfold diskIoEnableDrive Motion.select
  dsimp only
  refine (motion_syncDriveMotorState _).trans (congrArg Motion.sync ?_)
  show _ = if Fin.ofNat 2 addr ≠ dp.activeDriveIndex then _ else _
  split_ifs
  · have hstopped := motion_setDrive (dp.flushTrack D dp.activeDriveIndex)
      (dp.flushTrack D dp.activeDriveIndex).activeDriveIndex
      { (dp.flushTrack D dp.activeDriveIndex).activeDrive with
        motorEnableCycles := 0, writeLightCycles := 0 }
    have hflushed := motion_flushTrack (D := D) dp dp.activeDriveIndex
    unfold Motion.handOver
    rw [← hflushed]
    exact congrArg (fun m : Motion => { m with active := Fin.ofNat 2 addr }) hstopped
  · rfl

/-- An access is of the drive select switches. -/
def selects (addr : Nat) : Prop := 10 ≤ addr % 16 ∧ addr % 16 < 12

/-- **What an access of a switch does to the motors.** -/
theorem motion_diskIoHandlers (dp : DiskPeripheral) (addr : Nat) (dataValue : Option UInt8) :
    (dp.diskIoHandlers D addr dataValue).motion = dp.motion
      ∨ (∃ on, (dp.diskIoHandlers D addr dataValue).motion = dp.motion.control on)
      ∨ selects addr
        ∧ (dp.diskIoHandlers D addr dataValue).motion = dp.motion.select (Fin.ofNat 2 addr) := by
  unfold diskIoHandlers
  dsimp only
  split_ifs with hstepper hmotor henable
  · exact .inl (motion_diskIoControlStepper dp addr)
  · exact .inr (.inl ⟨_, motion_diskIoControlMotor dp addr⟩)
  · exact .inr (.inr ⟨⟨Nat.not_lt.mp hmotor, henable⟩, motion_diskIoEnableDrive dp addr⟩)
  · exact .inl (motion_diskIoModeSwitch dp addr dataValue)

theorem motion_spinDown (dp : DiskPeripheral) (i : Fin 2) (elapsedCycles : Nat) :
    (dp.spinDown D i elapsedCycles).motion = dp.motion.spinDown i elapsedCycles := by
  unfold spinDown Motion.spinDown
  dsimp only
  show _ = if 0 < (dp.drives i).motorEnableCycles ∧ dp.isMotorOn = false then
    if elapsedCycles ≥ (dp.drives i).motorEnableCycles then _ else _ else _
  split
  · split
    · refine congrArg (fun m : Motion => { m with activity := false })
        ((motion_flushTrack _ i).trans ?_)
      exact motion_setDrive dp i { dp.drives i with motorEnableCycles := 0 }
    · exact motion_setDrive dp i { dp.drives i with
        motorEnableCycles := (dp.drives i).motorEnableCycles - elapsedCycles }
  · rfl

theorem motion_fadeWriteLight (dp : DiskPeripheral) (i : Fin 2) (elapsedCycles : Nat) :
    (dp.fadeWriteLight i elapsedCycles).motion = dp.motion := by
  unfold fadeWriteLight
  dsimp only
  split
  · exact motion_setDrive_of_eq rfl
  · exact motion_setDrive_of_eq rfl

theorem motion_updateDrivePhysics (dp : DiskPeripheral) (i : Fin 2) (elapsedCycles : Nat) :
    (dp.updateDrivePhysics D i elapsedCycles).motion = dp.motion.spinDown i elapsedCycles :=
  (motion_fadeWriteLight _ i elapsedCycles).trans (motion_spinDown dp i elapsedCycles)

/-- **What a batch of cycles does to the motors.** -/
theorem yields_diskAbiThink (dp : DiskPeripheral) (elapsedCycles : Nat) :
    Yields (dp.diskAbiThink D p6 elapsedCycles) fun dp' =>
      dp'.motion = (dp.motion.spinDown 0 elapsedCycles).spinDown 1 elapsedCycles := by
  unfold diskAbiThink
  split_ifs with hzero
  · have hnothing : ∀ m : Motion, ∀ i, m.spinDown i 0 = m := fun m i => by
      unfold Motion.spinDown
      split_ifs with hspins hlapsed
      · exact absurd hspins.1 (Nat.not_lt.mpr hlapsed)
      · exact Motion.ext (Function.update_eq_self i m.motor) rfl rfl rfl
      · rfl
    rw [hzero, hnothing, hnothing]
    exact .pure rfl
  · refine (yields_motion_sync dp elapsedCycles).bind fun dp' hsteady => .pure ?_
    rw [motion_updateDrivePhysics, motion_updateDrivePhysics]
    exact congrArg (fun m : Motion => (m.spinDown 0 elapsedCycles).spinDown 1 elapsedCycles) hsteady

/-! ## What stops drives and starts them -/

theorem motion_ejectDiskFromDrive (dp : DiskPeripheral) (i : Fin 2) :
    (dp.ejectDiskFromDrive D i).motion = dp.motion.setMotor i 0 := by
  unfold ejectDiskFromDrive
  split_ifs
  · exact motion_setDrive dp i .empty
  · exact (motion_setDrive _ i .empty).trans
      (congrArg (fun m : Motion => m.setMotor i 0) (motion_flushTrack dp i))

theorem motion_insertDiskIntoDrive (dp : DiskPeripheral) (i : Fin 2) (writeProtected : Bool)
    (answer : OpenAnswer) : (dp.insertDiskIntoDrive D i writeProtected answer).2.motion
      = dp.motion.setMotor i 0 := by
  have hinserted : ∀ (dp : DiskPeripheral) (driver : Option Driver),
      (dp.setDrive i { Drive.empty with
        isUserWriteProtected := writeProtected, driver := driver }).motion
        = dp.motion.setMotor i 0 := fun dp driver => motion_setDrive dp i _
  unfold insertDiskIntoDrive
  dsimp only
  split_ifs
  · refine (hinserted (dp.ejectDiskFromDrive D i) _).trans ?_
    rw [motion_ejectDiskFromDrive, Motion.setMotor_setMotor]
  · exact hinserted dp _

theorem motion_initializePeripheral (dp : DiskPeripheral) :
    (dp.initializePeripheral D).motion = dp.motion.reset := by
  have hflushed : ((dp.flushTrack D 0).flushTrack D 1).motion = dp.motion :=
    (motion_flushTrack _ 1).trans (motion_flushTrack dp 0)
  have hactivity : ((dp.flushTrack D 0).flushTrack D 1).activity = dp.activity :=
    congrArg Motion.activity hflushed
  exact Motion.ext rfl rfl rfl hactivity

/-- An image the configuration names is put in a drive that is still. -/
theorem motion_insertConfigured {dp : DiskPeripheral} {i : Fin 2}
    (h : dp.motion.motor i = 0) (answer : Option OpenAnswer) :
    (dp.insertConfigured D i answer).motion = dp.motion := by
  cases answer with
  | none => rfl
  | some answer =>
    refine (motion_insertDiskIntoDrive dp i false answer).trans ?_
    rw [← h]
    exact Motion.ext (Function.update_eq_self i dp.motion.motor) rfl rfl rfl

/-- **A card that has just been put in is still**, and tells nothing. -/
theorem motion_diskAbiInit (trace : DiskTrace) (image1 image2 : Option OpenAnswer) :
    (diskAbiInit D trace image1 image2).motion = ⟨fun _ => 0, false, 0, trace.activity⟩ := by
  have hinit : ((new trace).initializePeripheral D).motion = ⟨fun _ => 0, false, 0, trace.activity⟩ :=
    motion_initializePeripheral (new trace)
  have hfirst : (((new trace).initializePeripheral D).insertConfigured D 0 image1).motion
      = ⟨fun _ => 0, false, 0, trace.activity⟩ :=
    (motion_insertConfigured (by rw [hinit]) image1).trans hinit
  exact (motion_insertConfigured (by rw [hfirst]) image2).trans hfirst

/-- Drives are swapped only while none is spinning. -/
theorem motion_swapDrives (dp : DiskPeripheral) : dp.swapDrives.motion = dp.motion := by
  unfold swapDrives
  split_ifs with hspins
  · rfl
  · refine Motion.ext (funext fun i => ?_) rfl rfl rfl
    have hstill : ∀ i, (dp.drives i).motorEnableCycles = 0 := by
      rw [Fin.forall_fin_two]
      omega
    exact (hstill (1 - i)).trans (hstill i).symm

end DiskPeripheral

/-! ## Save states -/

theorem Drive.yields_restoreCells (d : Drive) (ds : DiskDriveState) :
    Yields (d.restoreCells ds) fun d' => d'.motorEnableCycles = d.motorEnableCycles := by
  have hcell : ∀ (e : Drive) (value mask : UInt8), e.motorEnableCycles = d.motorEnableCycles →
      Yields (e.setCell e.bitPosition (value &&& mask ≠ 0)) fun e' =>
        e'.motorEnableCycles = d.motorEnableCycles := by
    intro e value mask h
    unfold Drive.setCell
    split_ifs
    · exact .pure h
    · exact .none
  have hbyte : ∀ (e : Drive) (value : UInt8), e.motorEnableCycles = d.motorEnableCycles →
      Yields (e.writeMediumByte value) fun e' => e'.motorEnableCycles = d.motorEnableCycles := by
    intro e value h
    refine Yields.foldlM (fun e mask h => (hcell e value mask h).bind fun e' h => .pure ?_) h
    unfold Drive.advanceMedium
    split_ifs <;> exact h
  unfold Drive.restoreCells
  split_ifs
  · refine Yields.bind (P := fun e => e.motorEnableCycles = d.motorEnableCycles) ?_
      fun e h => .pure h
    exact Yields.bind (P := fun e => e.motorEnableCycles = d.motorEnableCycles)
      (Yields.foldlM (fun e value h => hbyte e value h) rfl) fun e h => .pure h
  · exact .pure rfl

namespace DiskPeripheral

variable {D : Drivers} {p6 : UInt8 → UInt8}

/-- How long a drive turns after a frame is loaded: not at all, if its image is
not found. -/
def loadedMotor (s : DiskSavedState) (answers : Fin 2 → OpenAnswer) (i : Fin 2) : Nat :=
  if (answers i).ok then (s.drives i).spinningTicks.toNat else 0

theorem yields_loadDrive (dp : DiskPeripheral) (i : Fin 2) (ds : DiskDriveState)
    (answer : OpenAnswer) : Yields (dp.loadDrive D i ds answer) fun dp' => dp'.motion
      = dp.motion.setMotor i (if answer.ok then ds.spinningTicks.toNat else 0) := by
  have hinserted : ((dp.ejectDiskFromDrive D i).insertDiskIntoDrive D i
      (decide (ds.userWriteProtected ≠ 0)) answer).2.motion = dp.motion.setMotor i 0 := by
    rw [motion_insertDiskIntoDrive, motion_ejectDiskFromDrive, Motion.setMotor_setMotor]
  have hfailed : ((dp.ejectDiskFromDrive D i).insertDiskIntoDrive D i
      (decide (ds.userWriteProtected ≠ 0)) answer).1 = !answer.ok := rfl
  unfold loadDrive
  dsimp only
  rw [hfailed]
  generalize ((dp.ejectDiskFromDrive D i).insertDiskIntoDrive D i
    (decide (ds.userWriteProtected ≠ 0)) answer).2 = inserted at hinserted ⊢
  cases answer.ok with
  | false => exact .pure hinserted
  | true =>
    have hplaced : (inserted.setDrive i { inserted.drives i with
        quarterTrack := ds.safePhase * 2
        motorEnableCycles := ds.spinningTicks.toNat
        writeLightCycles := ds.writeLightTicks.toNat }).motion
          = dp.motion.setMotor i ds.spinningTicks.toNat := by
      rw [motion_setDrive, hinserted, Motion.setMotor_setMotor]
    have hread := (motion_readTrackFromDriver (D := D) _ i).trans hplaced
    exact (Drive.yields_restoreCells _ ds).bind fun d hd => .pure
      ((motion_setDrive_of_eq (d := d.placeHead ds) hd).trans hread)

/-- **What a frame that is taken does to the motors.** -/
theorem yields_diskStateV1Read (dp : DiskPeripheral) (s : DiskSavedState)
    (answers : Fin 2 → OpenAnswer) : Yields (dp.diskStateV1Read D s answers) fun dp' =>
      s.isRefused = true ∧ dp'.motion = dp.motion
        ∨ s.isRefused = false ∧ dp'.motion.activity = dp.motion.activity
          ∧ ∀ i, dp'.motion.motor i = loadedMotor s answers i := by
  unfold diskStateV1Read
  split_ifs with hrefused
  · exact .pure (.inl ⟨hrefused, rfl⟩)
  · refine (yields_loadDrive _ 0 (s.drives 0) (answers 0)).bind fun dp' h0 =>
      (yields_loadDrive dp' 1 (s.drives 1) (answers 1)).mono fun dp'' h1 =>
        .inr ⟨Bool.eq_false_iff.mpr hrefused, ?_⟩
    rw [h1, h0]
    refine ⟨rfl, ?_⟩
    rw [Fin.forall_fin_two]
    exact ⟨(Motion.setMotor_of_ne _ (by decide) _).trans (Motion.setMotor_self ..),
      Motion.setMotor_self ..⟩

/-! ## What is told -/

/-- An operation is one whose effect on the motors is announced: no drive is
started or stopped behind the host's back. -/
def Announced (m : Motion) : DiskOp → Prop
  | .read addr _ _ | .write addr _ _ =>
    selects addr → Fin.ofNat 2 addr ≠ m.active → m.isMotorOn = false → m.Spins m.active →
      m.Spins (Fin.ofNat 2 addr)
  | .think elapsedCycles =>
    ∀ i, m.Lapses elapsedCycles i → ∀ j, m.Spins j → m.Lapses elapsedCycles j
  | .insert i _ _ | .eject i => m.Spins i → ∃ j, j ≠ i ∧ m.Spins j
  | .reset => ∀ i, ¬ m.Spins i
  | .load s answers =>
    s.isRefused = false → ((∃ i, m.Spins i) ↔ ∃ i, 0 < loadedMotor s answers i)
  | .swap | .setProtect _ _ | .save => True

theorem truthful_diskIoHandlers {dp : DiskPeripheral} (h : dp.motion.Truthful) {addr : Nat}
    (hop : selects addr → Fin.ofNat 2 addr ≠ dp.motion.active → dp.motion.isMotorOn = false →
      dp.motion.Spins dp.motion.active → dp.motion.Spins (Fin.ofNat 2 addr))
    (dataValue : Option UInt8) : (dp.diskIoHandlers D addr dataValue).motion.Truthful := by
  obtain heq | ⟨on, heq⟩ | ⟨hselects, heq⟩ := motion_diskIoHandlers (D := D) dp addr dataValue
  · rwa [heq]
  · rw [heq]
    exact h.control on
  · rw [heq]
    exact h.select (hop hselects)

/-- **What an announced operation leaves true.** -/
theorem yields_perform {dp : DiskPeripheral} (h : dp.motion.Truthful) {op : DiskOp}
    (hop : Announced dp.motion op) :
    Yields (dp.perform D p6 op) fun dp' => dp'.motion.Truthful := by
  -- an operation leaves the fields of the motion as they were, or moves them as announced
  cases op with
  | read addr executedCycles floating =>
    refine Yields.map (P := fun r => r.2.motion.Truthful) ?_ fun _ hr => hr
    refine (yields_motion_sync dp executedCycles).bind fun dp' hsame => .pure ?_
    exact truthful_diskIoHandlers (hsame ▸ h) (hsame ▸ hop) none
  | write addr dataValue executedCycles =>
    refine (yields_motion_sync dp executedCycles).bind fun dp' hsame => .pure ?_
    exact truthful_diskIoHandlers (hsame ▸ h) (hsame ▸ hop) (some dataValue)
  | think elapsedCycles =>
    refine (yields_diskAbiThink dp elapsedCycles).mono fun dp' heq => ?_
    rw [heq]
    exact h.spinDown hop
  | insert i writeProtected answer =>
    refine .pure ?_
    rw [motion_insertDiskIntoDrive]
    exact h.stop hop
  | eject i =>
    refine .pure ?_
    rw [motion_ejectDiskFromDrive]
    exact h.stop hop
  | swap => exact .pure (motion_swapDrives dp ▸ h)
  | setProtect i writeProtected =>
    have hsame : (dp.cmdHandleSetProtect i writeProtected).motion = dp.motion :=
      motion_setDrive_of_eq rfl
    exact .pure (hsame.symm ▸ h)
  | reset =>
    refine .pure ?_
    rw [motion_initializePeripheral]
    exact ⟨fun hactive => absurd (h.mp hactive) fun ⟨i, hi⟩ => hop i hi,
      fun ⟨_, hi⟩ => absurd hi (Nat.lt_irrefl 0)⟩
  | load s answers =>
    refine (yields_diskStateV1Read dp s answers).mono fun dp' hloaded => ?_
    obtain ⟨_, heq⟩ | ⟨htaken, hactivity, hmotor⟩ := hloaded
    · rwa [heq]
    · unfold Motion.Truthful Motion.Spins
      rw [hactivity]
      simp only [hmotor]
      exact h.trans (hop htaken)
  | save => exact Yields.map (P := fun _ => True) (fun _ _ => trivial) fun _ _ => h

end DiskPeripheral

end LinApple.Disk
