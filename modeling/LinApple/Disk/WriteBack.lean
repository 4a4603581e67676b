import LinApple.Disk.Passing

/-!
# A track goes back to where it is from

The buffer of a drive holds one track, and what the head writes goes back to the image when the
head moves, when the drive stops and when the disk is taken out. A write that is refused leaves
the buffer dirty, and a head that moves all the same leaves it behind: what is written back next,
before the new track is read, is the old track in the new one's place.

Where the cells in a buffer come from is not something the program notes. The model does, beside
the drive: the image and the quarter track they were read from, and for each call that writes a
track back, what it was given and what the note said. The theorem is about these notes. They take
no part in what the program does, and an operation of the model without them is the same
operation.

The drivers may refuse any call, at any time, and may answer anything within their contract.
Without refusals nothing could go wrong here, and with them a drive may come to hold a track that
was left behind (`Strays`). That alone does no harm. The card reads the new track on the next
cycle that passes under a turning head, and the old one is gone. Harm comes when the track is
written back before that, which is what a step of a good run does not do (`LeavesStrays`): it is
said of the state before the step and of the operation, by the cases in which the program writes
back, and it excepts the drive whose track is read first within the same step.

Save states are left out of the runs. A frame brings cells with it, and says of them where its
head was, so there is no telling where they are from. Any other operation may come, and the run
starts from any sound state whose loaded tracks are from where its heads are.
-/

namespace LinApple.Disk

/-! ## Drives -/

namespace Drive

variable {d d' : Drive}

/-- A loaded track is from where the head is. It is asked only of a drive that has a disk with a
driver, for only such a drive writes anything back. -/
def Noted (d : Drive) : Prop := d.isDataLoaded = true → d.driver.isSome → d.origin = d.place

/-- **A track is left behind**: it waits to be written back, the disk can be
written to, and the head is over another track. -/
def Strays (d : Drive) : Prop :=
  d.isDirty = true ∧ d.isDataLoaded = false ∧ d.bitCount ≠ 0 ∧ d.isDiskWriteProtected = false
    ∧ d.driver.any (·.canWrite) = true

instance (d : Drive) : Decidable d.Strays := inferInstanceAs (Decidable (_ ∧ _))

/-- There is no other track under the head than the one in the buffer. -/
def Settled (d : Drive) : Prop := d.isDataLoaded = true ∨ d.bitCount = 0 ∨ d.driver = none

theorem Settled.not_strays (h : d.Settled) : ¬ d.Strays := by
  rintro ⟨_, hloaded, hcount, _, hdriver⟩
  obtain h | h | h := h
  · exact Bool.false_ne_true (hloaded.symm.trans h)
  · exact hcount h
  · rw [h] at hdriver
    exact Bool.false_ne_true hdriver

theorem noted_of_not_loaded (h : d.isDataLoaded = false) : d.Noted :=
  fun hloaded => absurd (h.symm.trans hloaded) Bool.false_ne_true

theorem noted_empty : Drive.empty.Noted := noted_of_not_loaded rfl

/-- What passes under the head is from where the head is. -/
theorem Noted.passed (h : d.Noted) (hp : d.Passed d') : d'.Noted := by
  intro hloaded hdriver
  have horigin := h (hp.isDataLoaded.symm.trans hloaded) (hp.driver ▸ hdriver)
  rw [hp.origin horigin, hp.place, horigin]

theorem Settled.passed (h : d.Settled) (hp : d.Passed d') : d'.Settled := by
  unfold Settled
  rw [hp.isDataLoaded, hp.bitCount, hp.driver]
  exact h

end Drive

/-- **A call of `write_track_bits` that passes what it should**: cells that were
read from the quarter track of the image, and changed by the head over it. -/
def TrackWrite.Faithful (w : TrackWrite) : Prop := w.origin = some (w.image, w.quarterTrack)

/-! ## The card -/

/-- **What is kept**: the tracks in the buffers are from where the heads are, and
so were all that have been written back. -/
structure DiskPeripheral.Faithful (dp : DiskPeripheral) : Prop where
  /-- The tracks in the buffers. -/
  noted : ∀ i, (dp.drives i).Noted
  /-- The tracks that have been written back. -/
  writes : ∀ w ∈ dp.writes, w.Faithful

namespace DiskPeripheral

variable {D : Drivers} {p6 : UInt8 → UInt8} {dp dp' : DiskPeripheral}

theorem Faithful.setDrive (h : dp.Faithful) {i : Fin 2} {d : Drive} (hd : d.Noted) :
    (dp.setDrive i d).Faithful where
  noted j := by
    show (Function.update dp.drives i d j).Noted
    by_cases hj : j = i
    · rw [hj, Function.update_self]
      exact hd
    · rw [Function.update_of_ne hj]
      exact h.noted j
  writes := h.writes

/-- What is not looked at may change. -/
theorem Faithful.of_eq (h : dp.Faithful) (hdrives : dp'.drives = dp.drives)
    (hwrites : dp'.writes = dp.writes) : dp'.Faithful where
  noted := hdrives ▸ h.noted
  writes := hwrites ▸ h.writes

theorem Faithful.passes (h : dp.Faithful) (hp : dp.Passes dp') : dp'.Faithful where
  noted i := (h.noted i).passed (hp.drives i)
  writes := by
    have hwrites : dp'.writes = dp.writes := congrArg DiskTrace.writes hp.toDiskTrace
    rw [hwrites]
    exact h.writes

/-! ### Tracks -/

/-- **A track that is not left behind is written back to where it is from.** -/
theorem Faithful.flushTrack (h : dp.Faithful) {i : Fin 2} (hi : ¬ (dp.drives i).Strays) :
    (dp.flushTrack D i).Faithful := by
  unfold DiskPeripheral.flushTrack
  split_ifs with hdirty
  · unfold writeTrackToDriver
    dsimp only
    split
    · exact h
    · split
      · exact h
      next hwritable =>
        split
        · exact h
        next m hdriver =>
          split
          next hcells =>
            have hloaded : (dp.drives i).isDataLoaded = true := by
              by_contra hloaded
              refine hi ⟨hdirty, Bool.eq_false_iff.mpr hloaded, hcells.1,
                Bool.eq_false_iff.mpr hwritable, ?_⟩
              rw [hdriver]
              exact hcells.2
            have horigin := h.noted i hloaded (hdriver ▸ rfl)
            have hset : (dp.setDrive i { dp.drives i with
                isDirty := !D.writes dp.calls }).Faithful := h.setDrive (h.noted i)
            refine ⟨hset.noted, fun w hw => ?_⟩
            obtain rfl | hw := List.mem_cons.mp hw
            · refine horigin.trans ?_
              unfold Drive.place
              rw [hdriver]
              rfl
            · exact h.writes w hw
          · exact h
  · exact h

theorem setDrive_self (dp : DiskPeripheral) (i : Fin 2) : dp.setDrive i (dp.drives i) = dp := by
  unfold DiskPeripheral.setDrive
  rw [Function.update_eq_self]

/-- **A write-back is between the drive and its driver.** -/
theorem flushTrack_eq (D : Drivers) (dp : DiskPeripheral) (i : Fin 2) :
    ∃ d trace, dp.flushTrack D i = { dp.setDrive i d with toDiskTrace := trace } := by
  have hnothing : ∃ d trace, dp = { dp.setDrive i d with toDiskTrace := trace } :=
    ⟨dp.drives i, dp.toDiskTrace, (setDrive_self dp i).symm⟩
  unfold DiskPeripheral.flushTrack
  split_ifs
  · unfold writeTrackToDriver
    dsimp only
    split
    · exact hnothing
    · split
      · exact hnothing
      · split
        · exact hnothing
        · split
          · exact ⟨_, _, rfl⟩
          · exact hnothing
  · exact hnothing

/-- The other drive is as it was. -/
theorem drives_flushTrack_of_ne (dp : DiskPeripheral) {i j : Fin 2} (h : j ≠ i) :
    (dp.flushTrack D i).drives j = dp.drives j := by
  obtain ⟨d, trace, hflush⟩ := flushTrack_eq D dp i
  rw [hflush]
  exact Function.update_of_ne h ..

theorem Faithful.moveHeadTo (h : dp.Faithful) {quarterTrack : Nat}
    (hmoves : quarterTrack ≠ dp.activeDrive.quarterTrack → ¬ dp.activeDrive.Strays) :
    (dp.moveHeadTo D quarterTrack).Faithful := by
  unfold DiskPeripheral.moveHeadTo
  split_ifs with hstays
  · exact h
  · exact (h.flushTrack (hmoves hstays)).setDrive (Drive.noted_of_not_loaded rfl)

/-- **A track that is read is from where the head is**, and the only one there. -/
theorem readTrackFromDriver_eq (D : Drivers) (dp : DiskPeripheral) (i : Fin 2) :
    ∃ d trace, dp.readTrackFromDriver D i = { dp.setDrive i d with toDiskTrace := trace }
      ∧ trace.writes = dp.writes ∧ d.Noted
      ∧ ((dp.drives i).quarterTrack < quarterTracksPerDisk → d.Settled) := by
  -- rescaling the angle of the head touches neither the track nor what is noted of it
  have hrescaled : ∀ (d : Drive) (position count : Nat), d.Noted → d.Settled →
      (d.rescaleHeadAngle position count).Noted ∧ (d.rescaleHeadAngle position count).Settled := by
    intro d position count hnoted hsettled
    obtain ⟨p, hp⟩ := d.rescaleHeadAngle_eq position count
    rw [hp]
    exact ⟨hnoted, hsettled⟩
  unfold DiskPeripheral.readTrackFromDriver
  dsimp only
  split
  next hbeyond =>
    exact ⟨_, dp.toDiskTrace, rfl, rfl, Drive.noted_of_not_loaded rfl,
      fun hlt => absurd hlt (Nat.not_lt.mpr hbeyond)⟩
  · split
    next hdriver =>
      have hnone : (dp.drives i).driver = none := hdriver
      have hrest := hrescaled (dp.drives i).clearTrack.makeRoom (dp.drives i).bitPosition
        (dp.drives i).bitCount (fun _ hsome => by
          rw [show (dp.drives i).clearTrack.makeRoom.driver = none from hnone] at hsome
          exact nomatch hsome) (.inr (.inl rfl))
      exact ⟨_, dp.toDiskTrace, rfl, rfl, hrest.1, fun _ => hrest.2⟩
    next m hdriver =>
      have hsome : (dp.drives i).driver = some m := hdriver
      have hrest := hrescaled ((dp.drives i).clearTrack.makeRoom.layTrack m.image
        (D.reads dp.calls (dp.drives i).clearTrack.quarterTrack)) (dp.drives i).bitPosition
        (dp.drives i).bitCount (fun _ _ => by
          show some (m.image, (dp.drives i).quarterTrack) = (dp.drives i).driver.map _
          rw [hsome]
          rfl) (by
          unfold Drive.Settled Drive.layTrack
          dsimp only
          rw [decide_eq_true_iff]
          exact (em _).symm.imp_right .inl)
      exact ⟨_, { dp.toDiskTrace with calls := dp.calls + 1, nullCalls := dp.countNull i m }, rfl, rfl, hrest.1,
        fun _ => hrest.2⟩

/-! ### Switches -/

/-- Turned on, a drive would have its head pulled elsewhere. -/
def PullsIn (dp : DiskPeripheral) (i : Fin 2) : Prop :=
  (dp.drives i).motorEnableCycles = 0
    ∧ settled dp.stepperPhaseMask (dp.drives i).quarterTrack ≠ (dp.drives i).quarterTrack

theorem Faithful.syncDriveMotorState (h : dp.Faithful)
    (hpulls : dp.isMotorOn = true → dp.PullsIn dp.activeDriveIndex → ¬ dp.activeDrive.Strays) :
    (dp.syncDriveMotorState D).Faithful := by
  unfold DiskPeripheral.syncDriveMotorState
  dsimp only
  cases hon : dp.isMotorOn with
  | false =>
    rw [if_neg Bool.false_ne_true, Bool.not_and_self, if_neg Bool.false_ne_true,
      if_neg (not_not.mpr rfl)]
    exact h
  | true =>
    rw [if_pos rfl]
    generalize hheld : dp.setActive { dp.activeDrive with
      motorEnableCycles := motorOffDelayCycles } = held
    have hactive : held.activeDrive = { dp.activeDrive with
        motorEnableCycles := motorOffDelayCycles } := by
      rw [← hheld]
      exact activeDrive_setActive dp _
    have hfaithful : held.Faithful := by
      rw [← hheld]
      exact h.setDrive (h.noted dp.activeDriveIndex)
    have hlive : held.energisedMagnets = dp.stepperPhaseMask := by
      unfold energisedMagnets
      rw [hactive, if_pos (show motorOffDelayCycles > 0 by decide), ← hheld]
      rfl
    -- only a drive that stood still settles now, and its head may then leave the track
    have hsettled : (if (!decide (dp.activeDrive.motorEnableCycles > 0)
        && decide (held.activeDrive.motorEnableCycles > 0)) = true
        then held.settleHead D else held).Faithful := by
      split_ifs with hedge
      · have hdark : dp.activeDrive.motorEnableCycles = 0 := by
          have hnot := (Bool.and_eq_true_iff.mp hedge).1
          rw [Bool.not_eq_true', decide_eq_false_iff_not] at hnot
          omega
        refine hfaithful.moveHeadTo fun hmoves => ?_
        rw [hlive, hactive] at hmoves
        rw [hactive]
        exact hpulls hon ⟨hdark, hmoves⟩
      · exact hfaithful
    split_ifs at hsettled ⊢
    all_goals exact hsettled.of_eq rfl rfl

/-- **An access of a switch writes a drive back**: it moves its head, or selects
the other drive. -/
def SwitchWritesBack (dp : DiskPeripheral) (addr : Nat) (i : Fin 2) : Prop :=
  if addr % 16 < 8 then
    i = dp.activeDriveIndex ∧ 0 < dp.activeDrive.motorEnableCycles
      ∧ (settled (dp.strobed addr) dp.activeDrive.quarterTrack ≠ dp.activeDrive.quarterTrack
        ∨ addr % 2 = 0 ∧ { dp with stepperPhaseMask := dp.strobed addr }.cancelsThePendingMove = true
          ∧ dp.quarterTrackBeforeRelease ≠ dp.activeDrive.quarterTrack)
  else if addr % 16 < 10 then i = dp.activeDriveIndex ∧ addr % 2 = 1 ∧ dp.PullsIn i
  else if addr % 16 < 12 then
    i = dp.activeDriveIndex ∧ Fin.ofNat 2 addr ≠ dp.activeDriveIndex
      ∨ i = Fin.ofNat 2 addr ∧ dp.isMotorOn = true ∧ dp.PullsIn i
  else False

/-- A move of the head is no news to the magnets. -/
theorem cancelsThePendingMove_moveHeadTo (dp : DiskPeripheral) (quarterTrack : Nat) :
    (dp.moveHeadTo D quarterTrack).cancelsThePendingMove = dp.cancelsThePendingMove := by
  unfold DiskPeripheral.moveHeadTo
  split_ifs
  · rfl
  · obtain ⟨d, trace, hflush⟩ := flushTrack_eq D dp dp.activeDriveIndex
    rw [hflush]
    rfl

theorem Faithful.diskIoControlStepper (h : dp.Faithful) {addr : Nat} (haddr : addr % 16 < 8)
    (hback : dp.SwitchWritesBack addr dp.activeDriveIndex → ¬ dp.activeDrive.Strays) :
    (dp.diskIoControlStepper D addr).Faithful := by
  unfold SwitchWritesBack at hback
  rw [if_pos haddr] at hback
  generalize hstrobed : ({ dp with stepperPhaseMask := dp.strobed addr } : DiskPeripheral)
    = strobed at hback
  have hfaithful : strobed.Faithful := hstrobed ▸ h.of_eq rfl rfl
  have hactive : strobed.activeDrive = dp.activeDrive := hstrobed ▸ rfl
  have hmask : strobed.stepperPhaseMask = dp.strobed addr := hstrobed ▸ rfl
  have hbefore : strobed.quarterTrackBeforeRelease = dp.quarterTrackBeforeRelease :=
    hstrobed ▸ rfl
  unfold DiskPeripheral.diskIoControlStepper
  dsimp only
  rw [hstrobed]
  split_ifs with hdark hon hcancels
  · exact hfaithful
  all_goals
    rw [hactive] at hdark
    have hspins := Nat.pos_of_ne_zero hdark
    have hlive : strobed.energisedMagnets = dp.strobed addr := by
      unfold energisedMagnets
      rw [hactive, if_pos hspins, hmask]
    have hsettled : (strobed.settleHead D).Faithful := by
      refine hfaithful.moveHeadTo fun hmoves => ?_
      rw [hactive, hlive] at hmoves
      rw [hactive]
      exact hback ⟨rfl, hspins, .inl hmoves⟩
  · exact hsettled
  · have hcancelled : strobed.cancelsThePendingMove = true :=
      (cancelsThePendingMove_moveHeadTo strobed _).symm.trans hcancels
    -- no magnet pulls, so the head has not moved yet
    have hreleased : strobed.stepperPhaseMask = 0 := by
      unfold cancelsThePendingMove at hcancelled
      exact of_decide_eq_true (Bool.and_eq_true_iff.mp (Bool.and_eq_true_iff.mp hcancelled).1).1
    have hstays : strobed.settleHead D = strobed := by
      unfold DiskPeripheral.settleHead
      rw [hlive, ← hmask, hreleased, settled_zero]
      exact if_pos rfl
    rw [hstays]
    have hreturned : (strobed.moveHeadTo D strobed.quarterTrackBeforeRelease).Faithful := by
      refine hfaithful.moveHeadTo fun hmoves => ?_
      rw [hactive, hbefore] at hmoves
      rw [hactive]
      refine hback ⟨rfl, hspins, .inr ⟨?_, hcancelled, hmoves⟩⟩
      rw [decide_eq_true_iff] at hon
      omega
    exact hreturned.of_eq rfl rfl
  · exact hsettled.of_eq rfl rfl

theorem Faithful.diskIoControlMotor (h : dp.Faithful) {addr : Nat} (haddr : 8 ≤ addr % 16)
    (haddr' : addr % 16 < 10)
    (hback : dp.SwitchWritesBack addr dp.activeDriveIndex → ¬ dp.activeDrive.Strays) :
    (dp.diskIoControlMotor D addr).Faithful := by
  unfold SwitchWritesBack at hback
  rw [if_neg (Nat.not_lt.mpr haddr), if_pos haddr'] at hback
  have hswitched : DiskPeripheral.Faithful { dp with isMotorOn := addr % 2 = 1 } := h.of_eq rfl rfl
  refine hswitched.syncDriveMotorState fun hon hpulls => hback ⟨rfl, ?_, hpulls⟩
  exact of_decide_eq_true hon

theorem switchWritesBack_select {addr : Nat} (haddr : 10 ≤ addr % 16)
    (haddr' : addr % 16 < 12) (i : Fin 2) : dp.SwitchWritesBack addr i ↔
      i = dp.activeDriveIndex ∧ Fin.ofNat 2 addr ≠ dp.activeDriveIndex
        ∨ i = Fin.ofNat 2 addr ∧ dp.isMotorOn = true ∧ dp.PullsIn i := by
  unfold SwitchWritesBack
  rw [if_neg (by omega), if_neg (by omega), if_pos haddr']

theorem Faithful.diskIoEnableDrive (h : dp.Faithful) {addr : Nat} (haddr : 10 ≤ addr % 16)
    (haddr' : addr % 16 < 12)
    (hback : ∀ i, dp.SwitchWritesBack addr i → ¬ (dp.drives i).Strays) :
    (dp.diskIoEnableDrive D addr).Faithful := by
  have hselect : ∀ i, dp.isMotorOn = true → dp.PullsIn i → i = Fin.ofNat 2 addr →
      ¬ (dp.drives i).Strays := fun i hon hpulls hi =>
    hback i ((switchWritesBack_select haddr haddr' i).mpr (.inr ⟨hi, hon, hpulls⟩))
  unfold DiskPeripheral.diskIoEnableDrive
  dsimp only
  split_ifs with hother
  · have hleft := hback dp.activeDriveIndex
      ((switchWritesBack_select haddr haddr' _).mpr (.inl ⟨rfl, hother⟩))
    have hflushed := h.flushTrack (D := D) hleft
    have hstopped : (DiskPeripheral.setActive (dp.flushTrack D dp.activeDriveIndex)
        { (dp.flushTrack D dp.activeDriveIndex).activeDrive with
          motorEnableCycles := 0, writeLightCycles := 0 }).Faithful :=
      hflushed.setDrive (hflushed.noted _)
    obtain ⟨d, trace, hflush⟩ := flushTrack_eq D dp dp.activeDriveIndex
    rw [hflush] at hstopped ⊢
    refine Faithful.syncDriveMotorState (hstopped.of_eq rfl rfl) fun hon hpulls => ?_
    have hnew : ∀ d', Function.update (Function.update dp.drives dp.activeDriveIndex d)
        dp.activeDriveIndex d' (Fin.ofNat 2 addr) = dp.drives (Fin.ofNat 2 addr) := fun d' =>
      (Function.update_of_ne hother ..).trans (Function.update_of_ne hother ..)
    have hpulls' : dp.PullsIn (Fin.ofNat 2 addr) := by
      unfold PullsIn
      rw [← hnew]
      exact hpulls
    have hstrays := hselect (Fin.ofNat 2 addr) hon hpulls' rfl
    rw [← hnew] at hstrays
    exact hstrays
  · have hsame : dp.activeDriveIndex = Fin.ofNat 2 addr := (not_not.mp hother).symm
    exact h.syncDriveMotorState fun hon hpulls => hselect _ hon hpulls hsame

theorem Faithful.diskIoModeSwitch (h : dp.Faithful) (addr : Nat) (dataValue : Option UInt8) :
    (dp.diskIoModeSwitch addr dataValue).Faithful := by
  unfold DiskPeripheral.diskIoModeSwitch
  dsimp only
  split_ifs
  · exact h.of_eq rfl rfl
  · exact (h.setDrive (i := dp.activeDriveIndex) (d := { dp.activeDrive with
      writeLightCycles := LinApple.Disk.writeLightCycles }) (h.noted _)).of_eq rfl rfl
  · exact h.of_eq rfl rfl

/-- **An access of a switch keeps to where tracks are from** if it writes no track
back that is left behind. -/
theorem Faithful.diskIoHandlers (h : dp.Faithful) {addr : Nat}
    (hback : ∀ i, dp.SwitchWritesBack addr i → ¬ (dp.drives i).Strays)
    (dataValue : Option UInt8) : (dp.diskIoHandlers D addr dataValue).Faithful := by
  unfold DiskPeripheral.diskIoHandlers
  dsimp only
  split_ifs with hstepper hmotor henable
  · exact h.diskIoControlStepper hstepper (hback _)
  · exact h.diskIoControlMotor (Nat.not_lt.mp hstepper) hmotor (hback _)
  · exact h.diskIoEnableDrive (Nat.not_lt.mp hmotor) henable hback
  · exact h.diskIoModeSwitch addr dataValue

/-! ### Time -/

/-- The track under the head of a drive is read before anything else is done: the
drive is selected and turning, and time has passed. -/
def ReadsFirst (dp : DiskPeripheral) (executedCycles : Nat) (i : Fin 2) : Prop :=
  i = dp.activeDriveIndex ∧ dp.synced < executedCycles ∧ 0 < dp.activeDrive.motorEnableCycles

/-- The card after a track has been read, if it had to be. -/
theorem readUnlessLoaded_eq (h : dp.Faithful) (hsound : dp.Sound) :
    ∃ d trace, dp.readUnlessLoaded D
        = { dp.setDrive dp.activeDriveIndex d with toDiskTrace := trace }
      ∧ trace.writes = dp.writes ∧ d.Noted ∧ d.Settled := by
  unfold readUnlessLoaded
  split_ifs with hread
  · obtain ⟨d, trace, heq, hwrites, hnoted, hsettled⟩ :=
      readTrackFromDriver_eq D dp dp.activeDriveIndex
    exact ⟨d, trace, heq, hwrites, hnoted, hsettled hsound.active.quarterTrack_lt⟩
  · refine ⟨dp.activeDrive, dp.toDiskTrace, (setDrive_self dp _).symm, rfl, h.noted _, ?_⟩
    cases hloaded : dp.activeDrive.isDataLoaded with
    | true => exact .inl hloaded
    | false =>
      rw [hloaded, Bool.not_false, Bool.true_and, Option.not_isSome_iff_eq_none] at hread
      exact .inr (.inr hread)

/-- **What time leaves to be written back**: a track that is left behind after it
was so before, and its drive has not been read first. -/
theorem yields_sync_faithful (h : dp.Faithful) (hsound : dp.Sound) (executedCycles : Nat) :
    Yields (dp.syncSequencerToCycle D p6 executedCycles) fun dp' => dp'.Faithful
      ∧ dp'.isMotorOn = dp.isMotorOn ∧ ∀ i, (dp'.drives i).Strays →
        dp'.drives i = dp.drives i ∧ ¬ dp.ReadsFirst executedCycles i
          ∧ ∀ addr, dp'.SwitchWritesBack addr i → dp.SwitchWritesBack addr i := by
  -- nothing to catch up, a disk that stands still, and a disk that turns under the head
  refine yields_syncSequencerToCycle (fun hsynced => ?_) (fun _ hdark => ?_)
    fun hlater hspins dp' hpasses => ?_
  · exact ⟨h, rfl, fun i _ => ⟨rfl, fun hr => absurd hr.2.1 (Nat.not_lt.mpr hsynced),
      fun _ hback => hback⟩⟩
  · refine ⟨h.of_eq rfl rfl, rfl, fun i _ => ⟨rfl, fun hr => ?_, fun addr hback => ?_⟩⟩
    · exact absurd hr.2.2 (hdark ▸ Nat.lt_irrefl 0)
    · unfold SwitchWritesBack at hback ⊢
      split_ifs at hback ⊢
      · exact absurd hback.2.1 (hdark ▸ Nat.lt_irrefl 0)
      · exact hback
      · exact hback
  · have hmarked : (dp.marked executedCycles).Faithful := h.of_eq rfl rfl
    have hmarkedSound : (dp.marked executedCycles).Sound := hsound.of_eq rfl rfl
    obtain ⟨d, trace, hread, hwrites, hnoted, hsettled⟩ :=
      readUnlessLoaded_eq (D := D) hmarked hmarkedSound
    rw [hread] at hpasses
    have hstart : DiskPeripheral.Faithful { (dp.marked executedCycles).setDrive
        dp.activeDriveIndex d with toDiskTrace := trace } :=
      ⟨(hmarked.setDrive hnoted).noted, hwrites ▸ h.writes⟩
    have hactive : dp'.activeDriveIndex = dp.activeDriveIndex := hpasses.activeDriveIndex
    have hmask : dp'.stepperPhaseMask = dp.stepperPhaseMask := hpasses.stepperPhaseMask
    have hon : dp'.isMotorOn = dp.isMotorOn := hpasses.isMotorOn
    refine ⟨hstart.passes hpasses, hon, fun i hstrays => ?_⟩
    -- the drive under the head has just been read in, so a stray one is the other
    have hother : i ≠ dp.activeDriveIndex := by
      rintro rfl
      refine (Drive.Settled.passed ?_ (hpasses.drives dp.activeDriveIndex)).not_strays hstrays
      show (Function.update dp.drives dp.activeDriveIndex d dp.activeDriveIndex).Settled
      rwa [Function.update_self]
    have hsame : dp'.drives i = dp.drives i :=
      (hpasses.others i hother).trans (Function.update_of_ne hother ..)
    refine ⟨hsame, fun hr => hother hr.1, fun addr hback => ?_⟩
    unfold SwitchWritesBack PullsIn at hback ⊢
    rw [hactive, hon, hmask, hsame] at hback
    split_ifs at hback ⊢
    · exact absurd hback.1 hother
    · exact hback
    · exact hback

theorem Faithful.spinDown (h : dp.Faithful) {i : Fin 2} {elapsedCycles : Nat}
    (hback : dp.isMotorOn = false → 0 < (dp.drives i).motorEnableCycles →
      (dp.drives i).motorEnableCycles ≤ elapsedCycles → ¬ (dp.drives i).Strays) :
    (dp.spinDown D i elapsedCycles).Faithful := by
  unfold DiskPeripheral.spinDown
  dsimp only
  split
  next hspins =>
    split
    next hlapses =>
      have hstopped : DiskPeripheral.Faithful
          { dp.setDrive i { dp.drives i with motorEnableCycles := 0 } with
            magnetReleased := if dp.activeDriveIndex = i then false else dp.magnetReleased } :=
        (h.setDrive (i := i) (d := { dp.drives i with motorEnableCycles := 0 })
          (h.noted i)).of_eq rfl rfl
      refine (hstopped.flushTrack ?_).of_eq rfl rfl
      show ¬ (Function.update dp.drives i _ i).Strays
      rw [Function.update_self]
      exact hback hspins.2 hspins.1 hlapses
    · exact h.setDrive (h.noted i)
  · exact h

theorem Faithful.fadeWriteLight (h : dp.Faithful) (i : Fin 2) (elapsedCycles : Nat) :
    (dp.fadeWriteLight i elapsedCycles).Faithful := by
  unfold DiskPeripheral.fadeWriteLight
  dsimp only
  split_ifs
  · exact h.setDrive (h.noted i)
  · exact h.setDrive (h.noted i)

/-- The other drive does not come into it. -/
theorem updateDrivePhysics_rest (dp : DiskPeripheral) {i j : Fin 2} (hj : j ≠ i)
    (elapsedCycles : Nat) :
    (dp.updateDrivePhysics D i elapsedCycles).drives j = dp.drives j
      ∧ (dp.updateDrivePhysics D i elapsedCycles).isMotorOn = dp.isMotorOn := by
  have hdown : (dp.spinDown D i elapsedCycles).drives j = dp.drives j
      ∧ (dp.spinDown D i elapsedCycles).isMotorOn = dp.isMotorOn := by
    unfold DiskPeripheral.spinDown
    dsimp only
    split
    · split
      · obtain ⟨d, trace, hflush⟩ := flushTrack_eq D
          { dp.setDrive i { dp.drives i with motorEnableCycles := 0 } with
            magnetReleased := if dp.activeDriveIndex = i then false else dp.magnetReleased } i
        rw [hflush]
        exact ⟨(Function.update_of_ne hj ..).trans (Function.update_of_ne hj ..), rfl⟩
      · exact ⟨Function.update_of_ne hj .., rfl⟩
    · exact ⟨rfl, rfl⟩
  unfold updateDrivePhysics fadeWriteLight
  dsimp only
  split_ifs
  · exact ⟨(Function.update_of_ne hj ..).trans hdown.1, hdown.2⟩
  · exact ⟨(Function.update_of_ne hj ..).trans hdown.1, hdown.2⟩

/-- **Time passes for both drives**, neither of which lapses while a track is left
behind in it. -/
theorem Faithful.updateDrivePhysics (h : dp.Faithful) {elapsedCycles : Nat}
    (hback : ∀ i, dp.isMotorOn = false → 0 < (dp.drives i).motorEnableCycles →
      (dp.drives i).motorEnableCycles ≤ elapsedCycles → ¬ (dp.drives i).Strays) :
    ((dp.updateDrivePhysics D 0 elapsedCycles).updateDrivePhysics D 1 elapsedCycles).Faithful := by
  have hfirst : (dp.updateDrivePhysics D 0 elapsedCycles).Faithful :=
    (h.spinDown (hback 0)).fadeWriteLight 0 elapsedCycles
  obtain ⟨hdrive, hon⟩ := updateDrivePhysics_rest (D := D) dp (i := 0) (j := 1) (by decide)
    elapsedCycles
  refine (hfirst.spinDown ?_).fadeWriteLight 1 elapsedCycles
  rw [hdrive, hon]
  exact hback 1

/-! ### Commands and resets -/

theorem Faithful.ejectDiskFromDrive (h : dp.Faithful) {i : Fin 2} (hi : ¬ (dp.drives i).Strays) :
    (dp.ejectDiskFromDrive D i).Faithful := by
  unfold DiskPeripheral.ejectDiskFromDrive
  split_ifs
  · exact h.setDrive Drive.noted_empty
  · exact (h.flushTrack hi).setDrive Drive.noted_empty

theorem Faithful.insertDiskIntoDrive (h : dp.Faithful) {i : Fin 2}
    (hi : ¬ (dp.drives i).Strays) (writeProtected : Bool) (answer : OpenAnswer) :
    (dp.insertDiskIntoDrive D i writeProtected answer).2.Faithful := by
  have hinserted : ∀ {dp : DiskPeripheral} (driver : Option Driver), dp.Faithful →
      (dp.setDrive i { Drive.empty with
        isUserWriteProtected := writeProtected, driver := driver }).Faithful :=
    fun driver h => h.setDrive (Drive.noted_of_not_loaded rfl)
  unfold DiskPeripheral.insertDiskIntoDrive
  dsimp only
  split_ifs
  · exact (hinserted _ (h.ejectDiskFromDrive hi)).of_eq rfl rfl
  · exact (hinserted _ h).of_eq rfl rfl

theorem Faithful.swapDrives (h : dp.Faithful) : dp.swapDrives.Faithful := by
  unfold DiskPeripheral.swapDrives
  split_ifs
  · exact h
  · exact ⟨fun i => h.noted (1 - i), h.writes⟩

theorem Faithful.initializePeripheral (h : dp.Faithful)
    (hback : ∀ i, ¬ (dp.drives i).Strays) : (dp.initializePeripheral D).Faithful := by
  have hfirst := h.flushTrack (D := D) (hback 0)
  have hother : (dp.flushTrack D 0).drives 1 = dp.drives 1 :=
    drives_flushTrack_of_ne dp (by decide)
  have hboth := hfirst.flushTrack (D := D) (i := 1) (hother ▸ hback 1)
  exact ⟨fun i => hboth.noted i, hboth.writes⟩

end DiskPeripheral

/-! ## Whole runs -/

/-- An operation loads a save state. -/
def DiskOp.isLoad : DiskOp → Bool
  | .load _ _ => true
  | _ => false

namespace DiskPeripheral

variable {D : Drivers} {p6 : UInt8 → UInt8} {dp dp' : DiskPeripheral}

/-- **An operation writes the track of a drive back** before the track under its
head is read. -/
def WritesBack (dp : DiskPeripheral) (i : Fin 2) : DiskOp → Prop
  | .read addr executedCycles _ | .write addr _ executedCycles =>
    ¬ dp.ReadsFirst executedCycles i ∧ dp.SwitchWritesBack addr i
  | .think elapsedCycles => ¬ dp.ReadsFirst elapsedCycles i ∧ dp.isMotorOn = false
    ∧ 0 < (dp.drives i).motorEnableCycles ∧ (dp.drives i).motorEnableCycles ≤ elapsedCycles
  | .insert j _ _ | .eject j => j = i
  | .reset | .load _ _ => True
  | .swap | .setProtect _ _ | .save => False

/-- **No track that is left behind is written back.** It is asked before the operation, and is
about the state then and the operation alone: which drives it writes back can be told without
performing it. -/
def LeavesStrays (dp : DiskPeripheral) (op : DiskOp) : Prop :=
  ∀ i, (dp.drives i).Strays → ¬ dp.WritesBack i op

theorem yields_think_faithful (h : dp.Faithful) (hsound : dp.Sound) {elapsedCycles : Nat}
    (hop : dp.LeavesStrays (.think elapsedCycles)) :
    Yields (dp.diskAbiThink D p6 elapsedCycles) Faithful := by
  unfold diskAbiThink
  split_ifs
  · exact .pure h
  · refine (yields_sync_faithful h hsound elapsedCycles).bind fun dp' ⟨hf, hon, hrest⟩ => ?_
    have hmarked : DiskPeripheral.Faithful { dp' with synced := 0 } := hf.of_eq rfl rfl
    refine .pure (hmarked.updateDrivePhysics fun i hoff hspins hlapses hstrays => ?_)
    obtain ⟨hsame, hread, _⟩ := hrest i hstrays
    refine hop i (hsame ▸ hstrays) ⟨hread, hon ▸ hoff, ?_, ?_⟩
    · rw [← hsame]
      exact hspins
    · rw [← hsame]
      exact hlapses

/-- **What an operation keeps.** -/
theorem yields_perform_faithful (h : dp.Faithful) (hsound : dp.Sound) {op : DiskOp}
    (hload : op.isLoad = false) (hop : dp.LeavesStrays op) :
    Yields (dp.perform D p6 op) Faithful := by
  have hswitch : ∀ addr executedCycles, (∀ i, (dp.drives i).Strays →
      ¬ (¬ dp.ReadsFirst executedCycles i ∧ dp.SwitchWritesBack addr i)) → ∀ dataValue,
      Yields (dp.syncSequencerToCycle D p6 executedCycles) fun dp' =>
        (dp'.diskIoHandlers D addr dataValue).Faithful := by
    intro addr executedCycles hback dataValue
    refine (yields_sync_faithful h hsound executedCycles).mono fun dp' ⟨hf, _, hrest⟩ => ?_
    refine hf.diskIoHandlers (fun i hswitch hstrays => ?_) dataValue
    obtain ⟨hsame, hread, hkeeps⟩ := hrest i hstrays
    exact hback i (hsame ▸ hstrays) ⟨hread, hkeeps addr hswitch⟩
  cases op with
  | read addr executedCycles floating =>
    refine Yields.map (P := fun r => r.2.Faithful) ?_ fun _ hr => hr
    exact (hswitch addr executedCycles hop none).bind fun _ hs => .pure hs
  | write addr dataValue executedCycles =>
    exact (hswitch addr executedCycles hop (some dataValue)).bind fun _ hs => .pure hs
  | think elapsedCycles => exact yields_think_faithful h hsound hop
  | insert i writeProtected answer =>
    exact .pure (h.insertDiskIntoDrive (fun hstrays => hop i hstrays rfl) writeProtected answer)
  | eject i => exact .pure (h.ejectDiskFromDrive fun hstrays => hop i hstrays rfl)
  | swap => exact .pure h.swapDrives
  | setProtect i writeProtected => exact .pure (h.setDrive (h.noted i))
  | reset => exact .pure (h.initializePeripheral fun i hstrays => hop i hstrays trivial)
  | load s answers => exact absurd hload nofun
  | save => exact Yields.map (P := fun _ => True) (fun _ _ => trivial) fun _ _ => h

/-- **Every track is written back to where it is from**, in every run from a card
whose loaded tracks are from where its heads are, whatever the drivers answer: as
long as no track that was left behind when its write-back was refused is written
back before the head's new track has been read. -/
theorem faithful_run (hD : D.Contract) (p6 : UInt8 → UInt8) {dp : DiskPeripheral}
    (hsound : dp.Sound) (hnoted : ∀ i, (dp.drives i).Noted) (hwrites : dp.writes = [])
    {ops : List DiskOp} (hops : Allowed (fun dp op => op.isLoad = false ∧ dp.LeavesStrays op)
      (perform D p6) dp ops) :
    Ends (dp.run D p6 ops) fun dp' =>
      ∀ w ∈ dp'.writes, w.origin = some (w.image, w.quarterTrack) := by
  have hstart : dp.Sound ∧ dp.Faithful := by
    refine ⟨hsound, hnoted, ?_⟩
    rw [hwrites]
    exact fun w hw => nomatch hw
  refine (Ends.foldlM_allowed (P := fun dp => dp.Sound ∧ dp.Faithful) (fun dp op h hop => ?_)
    hstart hops).mono fun dp' h => h.2.writes
  exact (Sound.perform hD h.1 op).and_yields (yields_perform_faithful h.2 h.1 hop.1 hop.2)

/-- A drive that is turned on and whose disk is then taken out. -/
theorem faithful_run_eject :
    Ends ((diskAbiInit blankDrivers .new (some found) none).run blankDrivers id
      [.write 0x9 0 0, .eject 0]) fun dp' =>
        ∀ w ∈ dp'.writes, w.origin = some (w.image, w.quarterTrack) := by
  have hclean : ∀ dp : DiskPeripheral, (∀ i, (dp.drives i).isDirty = false) → ∀ op,
      dp.LeavesStrays op := fun dp hdp op i hstrays =>
    absurd ((hdp i).symm.trans hstrays.1) Bool.false_ne_true
  refine faithful_run ⟨fun _ _ => (by decide : 50464 ≤ maxTrackBits),
    fun _ _ => (by decide : 0 < diskDefaultBitTiming)⟩ id (sound_diskAbiInit _ _ _)
    (fun i => Drive.noted_of_not_loaded ?_) rfl ⟨⟨rfl, hclean _ ?_ _⟩, fun dp hdp =>
      ⟨⟨rfl, hclean _ ?_ _⟩, fun _ _ => trivial⟩⟩
  · revert i
    decide
  · decide
  · rw [← Option.some.inj hdp]
    decide

/-- Drivers that take nothing that is written. -/
def refusingDrivers : Drivers := { blankDrivers with writes := fun _ => false }

/-- **A track in another one's place**: a cell is written over quarter track 0, the
head is moved to quarter track 2 and the write-back refused, and the disk is taken
out before another cycle has passed. -/
theorem not_faithful_run :
    ¬ Ends ((diskAbiInit refusingDrivers .new (some found) none).run refusingDrivers id
      [.write 0x9 0 0, .write 0xF 0 0, .read 0x0 1 0, .write 0x3 0 1, .eject 0]) fun dp' =>
        ∀ w ∈ dp'.writes, w.origin = some (w.image, w.quarterTrack) := by
  have hwrites : ((diskAbiInit refusingDrivers .new (some found) none).run refusingDrivers id
      [.write 0x9 0 0, .write 0xF 0 0, .read 0x0 1 0, .write 0x3 0 1, .eject 0]).map
        (fun dp' => dp'.writes.map fun w => (w.quarterTrack, w.origin))
      = some [(2, some (0, 0)), (0, some (0, 0))] := by
    decide +kernel
  rintro ⟨dp', hrun, hall⟩
  rw [hrun] at hwrites
  have hlist : (dp'.writes.map fun w => (w.quarterTrack, w.origin))
      = [(2, some (0, 0)), (0, some (0, 0))] := Option.some.inj hwrites
  have hmem : (2, some (0, 0)) ∈ dp'.writes.map fun w => (w.quarterTrack, w.origin) := by
    rw [hlist]
    exact List.mem_cons_self
  obtain ⟨w, hw, heq⟩ := List.mem_map.mp hmem
  obtain ⟨hquarter, horigin⟩ := Prod.mk.inj heq
  have hplace := (Prod.mk.inj (Option.some.inj ((hall w hw).symm.trans horigin))).2
  omega

end DiskPeripheral

end LinApple.Disk
