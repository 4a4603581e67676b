import LinApple.Disk.SaveState

/-!
# What holds of the disk card throughout

The head is over a quarter track of the disk, the cells under it fit in the track buffer, the head
is at one of them, and a cell takes time. So no access to the buffer is outside it, and the loop
that passes cells under the head comes to its end: every operation ends, whatever save state is
loaded.

An operation is a partial computation here. An access outside the track buffer makes it come to
nothing, and so does the loop that passes cells when it goes on for longer than it was given; that
an operation comes to something therefore says that neither has happened. The theorem has both
directions of this: the state after a run has the invariant, and from it every operation ends, so
that a run can be continued by anything.

`Drive.Sound` is what is needed for that and no more. The count of cells is bounded by the longest
medium and by the room of the buffer, the position by the count, and a cell must take some time,
for otherwise passing cells would never use up the cycles. A drive without cells has its position
at zero, which is a case of its own throughout: there is no cell to be at.

Frames are the reason to be careful. A frame is an array of numbers, the loader checks what it
uses, and `Sound` has to come out of these checks alone, whatever the numbers are. What a format
driver answers is an input too, and there something has to be taken for granted. The drivers'
interface says that no more cells come back than there is room for, and that the time of a cell is
positive; this is the hypothesis, and the drivers of this program keep to it.
-/

namespace LinApple.Disk

/-! ## Drives -/

/-- **What holds of a drive.** -/
structure Drive.Sound (d : Drive) : Prop where
  /-- The head is over the disk. -/
  quarterTrack_lt : d.quarterTrack < quarterTracksPerDisk
  /-- No more cells than the longest medium has. -/
  bitCount_le : d.bitCount ≤ maxTrackBits
  /-- The cells fit in the buffer. -/
  room : d.bitCount ≤ d.trackBytes * 8
  /-- The head is at a cell, if there are any. -/
  position : d.bitCount = 0 ∧ d.bitPosition = 0 ∨ d.bitPosition < d.bitCount
  /-- A cell takes time. -/
  bitTiming_pos : 0 < d.bitTiming

namespace Drive

variable {d : Drive}

theorem sound_empty : Drive.empty.Sound where
  quarterTrack_lt := by decide
  bitCount_le := by decide
  room := by decide
  position := .inl ⟨rfl, rfl⟩
  bitTiming_pos := by decide

/-- Cells under the head are in the buffer. -/
theorem Sound.inBuffer (h : d.Sound) {index : Nat} (hindex : index < d.bitCount) :
    index / 8 < d.trackBytes := by
  have hroom := h.room
  omega

theorem Sound.mediumCell (h : d.Sound) {index : Nat} (hindex : index < d.bitCount) :
    d.mediumCell index = some (d.trackBits index) := if_pos (h.inBuffer hindex)

theorem Sound.setCell (h : d.Sound) {index : Nat} (hindex : index < d.bitCount) (cell : Bool) :
    d.setCell index cell
      = some { d with trackBits := Function.update d.trackBits index cell } :=
  if_pos (h.inBuffer hindex)

/-- **A track change leaves the head at a cell.** -/
theorem position_rescaleHeadAngle (hzero : d.bitPosition = 0) (position count : Nat) :
    (d.rescaleHeadAngle position count).bitCount = 0
        ∧ (d.rescaleHeadAngle position count).bitPosition = 0
      ∨ (d.rescaleHeadAngle position count).bitPosition
        < (d.rescaleHeadAngle position count).bitCount := by
  unfold rescaleHeadAngle
  by_cases hcount : d.bitCount = 0
  · rw [if_pos hcount]
    exact .inl ⟨hcount, rfl⟩
  · rw [if_neg hcount]
    split_ifs
    · exact .inr (hzero ▸ Nat.pos_of_ne_zero hcount)
    · exact .inr (Nat.mod_lt _ (Nat.pos_of_ne_zero hcount))

/-- Nothing but the position changes when the angle is kept. -/
theorem rescaleHeadAngle_eq (d : Drive) (position count : Nat) :
    ∃ p, d.rescaleHeadAngle position count = { d with bitPosition := p } := by
  unfold rescaleHeadAngle
  split_ifs
  · exact ⟨_, rfl⟩
  · exact ⟨_, rfl⟩
  · exact ⟨_, rfl⟩

/-- The motor does not come into it. -/
theorem Sound.setMotor (h : d.Sound) (cycles : Nat) :
    Sound { d with motorEnableCycles := cycles } :=
  ⟨h.1, h.2, h.3, h.4, h.5⟩

/-- Nor does the write light. -/
theorem Sound.setLight (h : d.Sound) (cycles : Nat) :
    Sound { d with writeLightCycles := cycles } :=
  ⟨h.1, h.2, h.3, h.4, h.5⟩

end Drive

/-! ## The card -/

/-- **What holds of the card.** -/
structure DiskPeripheral.Sound (dp : DiskPeripheral) : Prop where
  /-- It holds of both drives. -/
  drives : ∀ i, (dp.drives i).Sound
  /-- The head goes back to where it was on the disk. -/
  before : dp.quarterTrackBeforeRelease < quarterTracksPerDisk

namespace DiskPeripheral

variable {D : Drivers} {p6 : UInt8 → UInt8} {dp : DiskPeripheral}

/-- A drive is changed to one of which it holds. -/
theorem Sound.setDrive (h : dp.Sound) {i : Fin 2} {d : Drive} (hd : d.Sound) :
    (dp.setDrive i d).Sound where
  drives j := by
    show (Function.update dp.drives i d j).Sound
    by_cases hj : j = i
    · subst hj
      rwa [Function.update_self]
    · rw [Function.update_of_ne hj]
      exact h.drives j
  before := h.before

/-- What is not looked at may change. -/
theorem Sound.of_eq {dp' : DiskPeripheral} (h : dp.Sound) (hdrives : dp'.drives = dp.drives)
    (hbefore : dp'.quarterTrackBeforeRelease = dp.quarterTrackBeforeRelease) : dp'.Sound where
  drives := hdrives ▸ h.drives
  before := hbefore ▸ h.before

theorem Sound.active (h : dp.Sound) : dp.activeDrive.Sound := h.drives _

/-! ### Tracks and images -/

theorem Sound.writeTrackToDriver (h : dp.Sound) (i : Fin 2) :
    (dp.writeTrackToDriver D i).Sound := by
  have hd := h.drives i
  unfold DiskPeripheral.writeTrackToDriver
  dsimp only
  split
  · exact h
  · split
    · exact h
    · split
      · exact h
      · split
        · exact (h.setDrive (i := i) (d := { dp.drives i with isDirty := !D.writes dp.calls })
            ⟨hd.1, hd.2, hd.3, hd.4, hd.5⟩).of_eq rfl rfl
        · exact h

theorem Sound.flushTrack (h : dp.Sound) (i : Fin 2) : (dp.flushTrack D i).Sound := by
  unfold DiskPeripheral.flushTrack
  split_ifs
  · exact h.writeTrackToDriver i
  · exact h

/-- **A track that is read is one the drive can hold**, if the driver keeps its
contract. -/
theorem sound_rescale_layTrack {d : Drive} (hd : d.Sound) {answer : TrackAnswer}
    (hcount : answer.bitCount ≤ maxTrackBits) (htiming : 0 < answer.bitTiming)
    (image position count : Nat) :
    ((d.clearTrack.makeRoom.layTrack image answer).rescaleHeadAngle position count).Sound := by
  have hbits : (if answer.ok then answer.bitCount else 0) ≤ maxTrackBits := by
    split_ifs
    · exact hcount
    · exact Nat.zero_le _
  have hposition := Drive.position_rescaleHeadAngle
    (d := d.clearTrack.makeRoom.layTrack image answer) rfl position count
  obtain ⟨p, hp⟩ := Drive.rescaleHeadAngle_eq (d.clearTrack.makeRoom.layTrack image answer)
    position count
  rw [hp] at hposition ⊢
  refine ⟨hd.quarterTrack_lt, hbits, ?_, hposition, htiming⟩
  show (if answer.ok then answer.bitCount else 0) ≤ max d.trackBytes trackBitBytes * 8
  exact Nat.le_trans hbits (Nat.mul_le_mul_right 8 (Nat.le_max_right d.trackBytes trackBitBytes))

theorem sound_rescale_makeRoom {d : Drive} (hd : d.Sound) (position count : Nat) :
    (d.clearTrack.makeRoom.rescaleHeadAngle position count).Sound :=
  ⟨hd.quarterTrack_lt, Nat.zero_le _, Nat.zero_le _, .inl ⟨rfl, rfl⟩,
    Drive.sound_empty.bitTiming_pos⟩

theorem Sound.readTrackFromDriver (hD : D.Contract) (h : dp.Sound) (i : Fin 2) :
    (dp.readTrackFromDriver D i).Sound := by
  have hd := h.drives i
  unfold DiskPeripheral.readTrackFromDriver
  dsimp only
  rw [if_neg (show ¬ (dp.drives i).clearTrack.quarterTrack ≥ quarterTracksPerDisk from
    Nat.not_le.mpr hd.quarterTrack_lt)]
  split
  · exact h.setDrive (sound_rescale_makeRoom hd _ _)
  · exact (h.setDrive (sound_rescale_layTrack hd (hD.bitCount_le _ _) (hD.bitTiming_pos _ _)
      _ _ _)).of_eq rfl rfl

/-- The track buffer has room after a read, whether or not there is a driver. -/
theorem trackBytes_readTrackFromDriver (h : dp.Sound) (i : Fin 2) :
    trackBitBytes ≤ ((dp.readTrackFromDriver D i).drives i).trackBytes := by
  have hd := h.drives i
  have hroom : ∀ d : Drive, trackBitBytes ≤ d.makeRoom.trackBytes := fun d => Nat.le_max_right _ _
  unfold DiskPeripheral.readTrackFromDriver
  dsimp only
  rw [if_neg (show ¬ (dp.drives i).clearTrack.quarterTrack ≥ quarterTracksPerDisk from
    Nat.not_le.mpr hd.quarterTrack_lt)]
  split
  · show _ ≤ (Function.update dp.drives i _ i).trackBytes
    rw [Function.update_self]
    exact hroom _
  · show _ ≤ (Function.update dp.drives i _ i).trackBytes
    rw [Function.update_self]
    obtain ⟨p, hp⟩ := Drive.rescaleHeadAngle_eq
      ((dp.drives i).clearTrack.makeRoom.layTrack _ (D.reads dp.calls _)) _ _
    rw [hp]
    exact hroom _

theorem Sound.ejectDiskFromDrive (h : dp.Sound) (i : Fin 2) :
    (dp.ejectDiskFromDrive D i).Sound := by
  unfold DiskPeripheral.ejectDiskFromDrive
  split_ifs
  · exact h.setDrive Drive.sound_empty
  · exact (h.flushTrack i).setDrive Drive.sound_empty

theorem Sound.insertDiskIntoDrive (h : dp.Sound) (i : Fin 2) (writeProtected : Bool)
    (answer : OpenAnswer) : (dp.insertDiskIntoDrive D i writeProtected answer).2.Sound := by
  have hinserted : ∀ {dp : DiskPeripheral} (driver : Option Driver), dp.Sound →
      (dp.setDrive i { Drive.empty with
        isUserWriteProtected := writeProtected, driver := driver }).Sound :=
    fun driver h => h.setDrive ⟨Drive.sound_empty.1, Drive.sound_empty.2, Drive.sound_empty.3,
      Drive.sound_empty.4, Drive.sound_empty.5⟩
  unfold DiskPeripheral.insertDiskIntoDrive
  dsimp only
  split_ifs
  · exact (hinserted _ (h.ejectDiskFromDrive i)).of_eq rfl rfl
  · exact (hinserted _ h).of_eq rfl rfl

/-! ### The head -/

theorem Sound.moveHeadTo (h : dp.Sound) {quarterTrack : Nat}
    (hquarter : quarterTrack < quarterTracksPerDisk) : (dp.moveHeadTo D quarterTrack).Sound := by
  unfold DiskPeripheral.moveHeadTo
  split_ifs
  · exact h
  · have hflushed := h.flushTrack (D := D) dp.activeDriveIndex
    have hd := hflushed.active
    exact hflushed.setDrive ⟨hquarter, hd.2, hd.3, hd.4, hd.5⟩

/-- **The head settles over the disk.** -/
theorem settled_lt {here : Nat} (h : here < quarterTracksPerDisk) (live : UInt16) :
    settled live here < quarterTracksPerDisk := by
  unfold settled
  dsimp only
  split_ifs
  · exact h
  · unfold quarterTracksPerDisk
    omega

theorem Sound.settleHead (h : dp.Sound) : (dp.settleHead D).Sound :=
  h.moveHeadTo (settled_lt h.active.quarterTrack_lt _)

theorem Sound.syncDriveMotorState (h : dp.Sound) : (dp.syncDriveMotorState D).Sound := by
  have hmotor : (if dp.isMotorOn then
      dp.setActive { dp.activeDrive with motorEnableCycles := motorOffDelayCycles }
      else dp).Sound := by
    have hd := h.active
    split_ifs
    · exact h.setDrive ⟨hd.1, hd.2, hd.3, hd.4, hd.5⟩
    · exact h
  unfold DiskPeripheral.syncDriveMotorState
  dsimp only
  generalize (if dp.isMotorOn then _ else dp) = moved at hmotor ⊢
  split_ifs <;> first | exact hmotor.settleHead.of_eq rfl rfl | exact hmotor.of_eq rfl rfl

/-! ### The switches -/

theorem Sound.diskIoControlMotor (h : dp.Sound) (addr : Nat) :
    (dp.diskIoControlMotor D addr).Sound :=
  (h.of_eq rfl rfl : DiskPeripheral.Sound { dp with isMotorOn := addr % 2 = 1 }).syncDriveMotorState

theorem Sound.diskIoControlStepper (h : dp.Sound) (addr : Nat) :
    (dp.diskIoControlStepper D addr).Sound := by
  have hstrobed : DiskPeripheral.Sound { dp with stepperPhaseMask := dp.strobed addr } :=
    h.of_eq rfl rfl
  have hsettled := hstrobed.settleHead (D := D)
  unfold DiskPeripheral.diskIoControlStepper
  dsimp only
  split_ifs
  · exact hstrobed
  · exact hsettled
  · exact (hsettled.moveHeadTo hsettled.before).of_eq rfl rfl
  · exact ⟨hsettled.drives, hstrobed.active.quarterTrack_lt⟩

theorem Sound.diskIoEnableDrive (h : dp.Sound) (addr : Nat) :
    (dp.diskIoEnableDrive D addr).Sound := by
  unfold DiskPeripheral.diskIoEnableDrive
  dsimp only
  refine syncDriveMotorState ?_
  split_ifs
  · have hflushed := h.flushTrack (D := D) dp.activeDriveIndex
    have hd := hflushed.active
    exact (hflushed.setDrive (i := (dp.flushTrack D dp.activeDriveIndex).activeDriveIndex)
      (d := { (dp.flushTrack D dp.activeDriveIndex).activeDrive with
        motorEnableCycles := 0, writeLightCycles := 0 })
      ⟨hd.1, hd.2, hd.3, hd.4, hd.5⟩).of_eq rfl rfl
  · exact h

theorem Sound.diskIoModeSwitch (h : dp.Sound) (addr : Nat) (dataValue : Option UInt8) :
    (dp.diskIoModeSwitch addr dataValue).Sound := by
  have hd := h.active
  unfold DiskPeripheral.diskIoModeSwitch
  dsimp only
  split_ifs
  · exact h.of_eq rfl rfl
  · exact (h.setDrive (i := dp.activeDriveIndex)
      (d := { dp.activeDrive with writeLightCycles := LinApple.Disk.writeLightCycles })
      ⟨hd.1, hd.2, hd.3, hd.4, hd.5⟩).of_eq rfl rfl
  · exact h.of_eq rfl rfl

theorem Sound.diskIoHandlers (h : dp.Sound) (addr : Nat) (dataValue : Option UInt8) :
    (dp.diskIoHandlers D addr dataValue).Sound := by
  unfold DiskPeripheral.diskIoHandlers
  dsimp only
  split_ifs
  · exact h.diskIoControlStepper addr
  · exact h.diskIoControlMotor addr
  · exact h.diskIoEnableDrive addr
  · exact h.diskIoModeSwitch addr dataValue

/-! ### The medium under the head -/

/-- The card is sound, and there is a cell under the head. -/
structure OverCell (dp : DiskPeripheral) : Prop where
  /-- The card is sound. -/
  sound : dp.Sound
  /-- The head is at a cell. -/
  cell : dp.activeDrive.bitPosition < dp.activeDrive.bitCount

theorem activeDrive_setActive (dp : DiskPeripheral) (d : Drive) :
    (dp.setActive d).activeDrive = d := by
  show Function.update dp.drives dp.activeDriveIndex d dp.activeDriveIndex = d
  exact Function.update_self ..

theorem OverCell.setActive (h : dp.OverCell) {d : Drive} (hd : d.Sound)
    (hcell : d.bitPosition < d.bitCount) : (dp.setActive d).OverCell where
  sound := h.sound.setDrive hd
  cell := by
    rw [activeDrive_setActive]
    exact hcell

/-- What is not looked at may change. -/
theorem OverCell.of_eq {dp' : DiskPeripheral} (h : dp.OverCell)
    (hdrives : dp'.drives = dp.drives)
    (hbefore : dp'.quarterTrackBeforeRelease = dp.quarterTrackBeforeRelease)
    (hactive : dp'.activeDrive = dp.activeDrive) : dp'.OverCell where
  sound := h.sound.of_eq hdrives hbefore
  cell := hactive ▸ h.cell

theorem Sound.noisePulse (h : dp.Sound) : dp.noisePulse.2.Sound := h.of_eq rfl rfl

theorem activeDrive_noisePulse (dp : DiskPeripheral) :
    dp.noisePulse.2.activeDrive = dp.activeDrive := rfl

/-- **The cell that is written is in the buffer.** -/
theorem ends_commitCell {d : Drive} (hd : d.Sound) (hcell : d.bitPosition < d.bitCount)
    (pulse : Bool) : Ends (d.commitCell pulse) fun d' => d'.Sound
      ∧ d'.bitPosition < d'.bitCount ∧ d'.cellRemaining = d.cellRemaining := by
  unfold Drive.commitCell
  dsimp only
  rw [hd.setCell (Nat.mod_lt _ (by omega))]
  exact Ends.pure ⟨⟨hd.1, hd.2, hd.3, hd.4, hd.5⟩, hcell, rfl⟩

theorem OverCell.commitWriteCell (h : dp.OverCell) :
    Ends dp.commitWriteCell fun dp' => dp'.OverCell
      ∧ dp'.activeDrive.cellRemaining = dp.activeDrive.cellRemaining := by
  refine (ends_commitCell h.sound.active h.cell _).bind fun d ⟨hd, hcell, hremaining⟩ => ?_
  have hset := h.setActive hd hcell
  refine Ends.pure ⟨hset.of_eq rfl rfl rfl, ?_⟩
  show (dp.setActive d).activeDrive.cellRemaining = _
  rw [activeDrive_setActive, hremaining]

theorem OverCell.amplify (h : dp.OverCell) (cell pulse : Bool) :
    (dp.amplify cell pulse).1.OverCell
      ∧ (dp.amplify cell pulse).1.activeDrive.cellRemaining = dp.activeDrive.cellRemaining := by
  have hd := h.sound.active
  unfold DiskPeripheral.amplify
  dsimp only
  split_ifs
  · rw [activeDrive_setActive]
    exact ⟨h.setActive ⟨hd.1, hd.2, hd.3, hd.4, hd.5⟩ h.cell, rfl⟩
  · rw [activeDrive_setActive]
    exact ⟨h.setActive ⟨hd.1, hd.2, hd.3, hd.4, hd.5⟩ h.cell, rfl⟩
  · rw [activeDrive_noisePulse]
    exact ⟨⟨h.sound.noisePulse, activeDrive_noisePulse dp ▸ h.cell⟩, rfl⟩

/-- A round in its three steps. -/
theorem passCell_eq (mayWrite : Bool) (s : DiskPeripheral × Bool) : passCell mayWrite s =
    (if mayWrite then s.1.commitWriteCell else some s.1) >>= fun dp =>
      dp.activeDrive.mediumCell dp.activeDrive.bitPosition >>= fun cell =>
        some ((dp.amplify cell s.2).1.setActive (dp.amplify cell s.2).1.activeDrive.nextCell,
          (dp.amplify cell s.2).2) := by
  unfold DiskPeripheral.passCell
  cases mayWrite <;> rfl

/-- **A round of the loop**: it ends over a cell, and is nearer the end by the
time a cell takes. -/
theorem OverCell.passCell (h : dp.OverCell) (mayWrite pulse : Bool) :
    Ends (passCell mayWrite (dp, pulse)) fun s => s.1.OverCell
      ∧ dp.activeDrive.cellRemaining + 1 ≤ s.1.activeDrive.cellRemaining := by
  have hcommit : Ends (if mayWrite then dp.commitWriteCell else some dp) fun dp' =>
      dp'.OverCell ∧ dp'.activeDrive.cellRemaining = dp.activeDrive.cellRemaining := by
    split_ifs
    · exact h.commitWriteCell
    · exact Ends.pure ⟨h, rfl⟩
  rw [passCell_eq]
  refine hcommit.bind fun dp' ⟨hover, hremaining⟩ => ?_
  dsimp only
  rw [hover.sound.active.mediumCell hover.cell]
  obtain ⟨hamplified, hkept⟩ := hover.amplify (dp'.activeDrive.trackBits
    dp'.activeDrive.bitPosition) pulse
  have hd := hamplified.sound.active
  have hnext := Nat.mod_lt ((dp'.amplify (dp'.activeDrive.trackBits
    dp'.activeDrive.bitPosition) pulse).1.activeDrive.bitPosition + 1)
    (Nat.lt_of_le_of_lt (Nat.zero_le _) hamplified.cell)
  refine Ends.pure ⟨hamplified.setActive ⟨hd.1, hd.2, hd.3, .inr hnext, hd.5⟩ hnext, ?_⟩
  have htiming : 0 < (dp'.amplify (dp'.activeDrive.trackBits
    dp'.activeDrive.bitPosition) pulse).1.activeDrive.bitTiming.toNat := hd.bitTiming_pos
  rw [activeDrive_setActive, ← hremaining, ← hkept]
  show _ ≤ _ + (_ : Int)
  omega

/-- **The loop comes to its end**, in as many rounds as there are units left. -/
theorem OverCell.passCells (mayWrite : Bool) {fuel : Nat} (h : dp.OverCell)
    (hfuel : -dp.activeDrive.cellRemaining ≤ fuel) (pulse : Bool) :
    Ends (passCells mayWrite fuel (dp, pulse)) fun s => s.1.OverCell := by
  induction fuel generalizing dp pulse with
  | zero =>
    unfold DiskPeripheral.passCells
    rw [if_neg (show ¬ dp.activeDrive.cellRemaining < 0 by omega)]
    exact Ends.pure h
  | succ fuel ih =>
    unfold DiskPeripheral.passCells
    split_ifs
    · refine (h.passCell mayWrite pulse).bind fun s ⟨hover, hnearer⟩ => ?_
      exact ih hover (by push_cast at hfuel; omega) s.2
    · exact Ends.pure h

theorem Sound.advanceMediumOneStep (h : dp.Sound) (mayWrite : Bool) :
    Ends (dp.advanceMediumOneStep mayWrite) fun s => s.2.Sound := by
  have hd := h.active
  unfold DiskPeripheral.advanceMediumOneStep
  split_ifs with hblank
  · exact Ends.pure h.noisePulse
  · have hcell : dp.activeDrive.bitPosition < dp.activeDrive.bitCount :=
      hd.position.resolve_left fun hc => hblank hc.1
    have hover : OverCell (dp.setActive { dp.activeDrive with
        cellRemaining := dp.activeDrive.cellRemaining - 4 }) :=
      OverCell.setActive ⟨h, hcell⟩ ⟨hd.1, hd.2, hd.3, hd.4, hd.5⟩ hcell
    refine (hover.passCells mayWrite ?_ false).bind fun s hs => Ends.pure hs.sound
    rw [activeDrive_setActive]
    exact Int.self_le_toNat _

theorem Sound.sequencerStep (h : dp.Sound) (isProtected mayWrite : Bool) :
    Ends (dp.sequencerStep p6 isProtected mayWrite) Sound :=
  (h.advanceMediumOneStep mayWrite).bind fun _ hs => Ends.pure (hs.of_eq rfl rfl)

/-- **The sequencer runs for any count of cycles.** -/
theorem Sound.runSequencerCycles (hD : D.Contract) (h : dp.Sound) (cycles : Nat) :
    Ends (dp.runSequencerCycles D p6 cycles) Sound := by
  unfold DiskPeripheral.runSequencerCycles
  dsimp only
  split_ifs
  · exact Ends.pure h
  · exact Ends.pure h
  · exact Ends.rounds (fun _ hs => hs.sequencerStep _ _) (h.readTrackFromDriver hD _)
  · exact Ends.rounds (fun _ hs => hs.sequencerStep _ _) h

theorem Sound.syncSequencerToCycle (hD : D.Contract) (h : dp.Sound) (executedCycles : Nat) :
    Ends (dp.syncSequencerToCycle D p6 executedCycles) Sound := by
  unfold DiskPeripheral.syncSequencerToCycle
  dsimp only
  split_ifs
  · exact Ends.pure h
  · have hmarked : Sound { dp with
        synced := executedCycles
        cumulativeCycles := dp.cumulativeCycles + UInt32.ofNat (executedCycles - dp.synced) } :=
      ⟨h.drives, h.before⟩
    exact hmarked.runSequencerCycles hD _

/-! ### Time, commands and resets -/

theorem Sound.spinDown (h : dp.Sound) (i : Fin 2) (elapsedCycles : Nat) :
    (dp.spinDown D i elapsedCycles).Sound := by
  unfold DiskPeripheral.spinDown
  dsimp only
  split
  · split
    · have hstopped : DiskPeripheral.Sound
          { dp.setDrive i { dp.drives i with motorEnableCycles := 0 } with
            magnetReleased := if dp.activeDriveIndex = i then false else dp.magnetReleased } :=
        (h.setDrive ((h.drives i).setMotor 0)).of_eq rfl rfl
      exact (hstopped.flushTrack i).of_eq rfl rfl
    · exact h.setDrive ((h.drives i).setMotor _)
  · exact h

theorem Sound.fadeWriteLight (h : dp.Sound) (i : Fin 2) (elapsedCycles : Nat) :
    (dp.fadeWriteLight i elapsedCycles).Sound := by
  unfold DiskPeripheral.fadeWriteLight
  dsimp only
  split_ifs
  · exact h.setDrive ((h.drives i).setLight _)
  · exact h.setDrive ((h.drives i).setLight _)

theorem Sound.updateDrivePhysics (h : dp.Sound) (i : Fin 2) (elapsedCycles : Nat) :
    (dp.updateDrivePhysics D i elapsedCycles).Sound :=
  (h.spinDown i elapsedCycles).fadeWriteLight i elapsedCycles

theorem Sound.diskAbiThink (hD : D.Contract) (h : dp.Sound) (elapsedCycles : Nat) :
    Ends (dp.diskAbiThink D p6 elapsedCycles) Sound := by
  unfold DiskPeripheral.diskAbiThink
  split_ifs
  · exact Ends.pure h
  · refine (h.syncSequencerToCycle hD elapsedCycles).bind fun dp' hs => Ends.pure ?_
    have hmarked : Sound { dp' with synced := 0 } := ⟨hs.drives, hs.before⟩
    exact (hmarked.updateDrivePhysics 0 elapsedCycles).updateDrivePhysics 1 elapsedCycles

theorem Sound.diskIoRead (hD : D.Contract) (h : dp.Sound) (addr executedCycles : Nat)
    (floating : UInt8) :
    Ends (dp.diskIoRead D p6 addr executedCycles floating) fun r => r.2.Sound :=
  (h.syncSequencerToCycle hD executedCycles).bind fun _ hs => Ends.pure (hs.diskIoHandlers addr none)

theorem Sound.diskIoWrite (hD : D.Contract) (h : dp.Sound) (addr : Nat) (dataValue : UInt8)
    (executedCycles : Nat) : Ends (dp.diskIoWrite D p6 addr dataValue executedCycles) Sound :=
  (h.syncSequencerToCycle hD executedCycles).bind fun _ hs =>
    Ends.pure (hs.diskIoHandlers addr (some dataValue))

theorem Sound.swapDrives (h : dp.Sound) : dp.swapDrives.Sound := by
  unfold DiskPeripheral.swapDrives
  split_ifs
  · exact h
  · exact ⟨fun i => h.drives (1 - i), h.before⟩

theorem Sound.cmdHandleSetProtect (h : dp.Sound) (i : Fin 2) (writeProtected : Bool) :
    (dp.cmdHandleSetProtect i writeProtected).Sound :=
  have hd := h.drives i
  h.setDrive ⟨hd.1, hd.2, hd.3, hd.4, hd.5⟩

theorem Sound.initializePeripheral (h : dp.Sound) : (dp.initializePeripheral D).Sound := by
  have hflushed := (h.flushTrack (D := D) 0).flushTrack (D := D) 1
  refine ⟨fun i => ?_, hflushed.before⟩
  have hd := hflushed.drives i
  exact ⟨hd.1, hd.2, hd.3, hd.4, hd.5⟩

theorem Sound.insertConfigured (h : dp.Sound) (i : Fin 2) (answer : Option OpenAnswer) :
    (dp.insertConfigured D i answer).Sound := by
  cases answer with
  | none => exact h
  | some answer => exact h.insertDiskIntoDrive i false answer

theorem sound_diskAbiInit (trace : DiskTrace) (image1 image2 : Option OpenAnswer) :
    (diskAbiInit D trace image1 image2).Sound :=
  have hnew : (new trace).Sound := ⟨fun _ => Drive.sound_empty, (by decide : 0 < quarterTracksPerDisk)⟩
  (hnew.initializePeripheral.insertConfigured 0 image1).insertConfigured 1 image2

end DiskPeripheral

/-! ## Save states -/

/-- The half track of a frame that is loaded is on the disk. -/
theorem DiskDriveState.safePhase_lt (ds : DiskDriveState) : ds.safePhase < maxDiskPhases := by
  unfold DiskDriveState.safePhase
  split_ifs
  · omega
  · decide

namespace Drive

variable {d : Drive}

/-- A drive with a cell under its head, of which there are `count`. -/
structure AtCell (count : Nat) (d : Drive) : Prop where
  /-- The drive is sound. -/
  sound : d.Sound
  /-- The head is at a cell. -/
  cell : d.bitPosition < d.bitCount
  /-- There are so many cells. -/
  count_eq : d.bitCount = count

theorem AtCell.writeMediumByte {count : Nat} (h : d.AtCell count) (value : UInt8) :
    Ends (d.writeMediumByte value) (AtCell count) := by
  unfold Drive.writeMediumByte
  refine Ends.foldlM (fun d mask _ h => ?_) h
  have hd := h.sound
  have hnext := Nat.mod_lt (d.bitPosition + 1) (Nat.lt_of_le_of_lt (Nat.zero_le _) h.cell)
  rw [hd.setCell h.cell]
  refine Ends.pure ?_
  unfold advanceMedium
  rw [if_neg (show ¬ d.bitCount = 0 from fun hc => absurd h.cell (hc ▸ Nat.not_lt_zero _))]
  exact ⟨⟨hd.1, hd.2, hd.3, .inr hnext, hd.5⟩, hnext, h.count_eq⟩

/-- **Bytes laid down on a drive with room for them.** -/
theorem Sound.encodeMediumBytes (h : d.Sound) (hroom : trackBitBytes ≤ d.trackBytes)
    {bytes : List UInt8} (hbytes : bytes.length ≤ nibblesPerTrack) :
    Ends (d.encodeMediumBytes bytes) Sound := by
  have hfit : bytes.length * 8 ≤ trackBitBytes * 8 := by
    unfold nibblesPerTrack at hbytes
    unfold trackBitBytes maxTrackBits
    omega
  have hstart : ∀ hpos : bytes.length * 8 = 0 ∧ 0 = 0 ∨ 0 < bytes.length * 8,
      Sound { d with bitPosition := 0, bitCount := bytes.length * 8 } := fun hpos =>
    ⟨h.1, hfit, Nat.le_trans hfit (Nat.mul_le_mul_right 8 hroom), hpos, h.5⟩
  unfold Drive.encodeMediumBytes
  cases bytes with
  | nil =>
    have hd := hstart (.inl ⟨rfl, rfl⟩)
    exact Ends.pure ⟨hd.1, hd.2, hd.3, hd.4, hd.5⟩
  | cons value rest =>
    have hpos : 0 < (value :: rest).length * 8 := by
      rw [List.length_cons]
      omega
    refine Ends.bind (P := AtCell ((value :: rest).length * 8))
      (Ends.foldlM (fun d v _ h => h.writeMediumByte v) ⟨hstart (.inr hpos), hpos, rfl⟩)
      fun d h => Ends.pure ?_
    have hd := h.sound
    exact ⟨hd.1, hd.2, hd.3, .inr (Nat.lt_of_le_of_lt (Nat.zero_le _) h.cell), hd.5⟩

/-- **Cells are restored from any frame.** -/
theorem Sound.restoreCells (h : d.Sound) (hroom : trackBitBytes ≤ d.trackBytes)
    (ds : DiskDriveState) : Ends (d.restoreCells ds) Sound := by
  unfold Drive.restoreCells
  split_ifs with hdirty
  · have hlength : ds.nibbleCount.toNat ≤ nibblesPerTrack := by
      have hbounds := hdirty.2
      unfold DiskDriveState.isOutOfBounds at hbounds
      simp only [Bool.or_eq_false_iff, decide_eq_false_iff_not] at hbounds
      omega
    have hstart : Sound { d with isDirty := true } := ⟨h.1, h.2, h.3, h.4, h.5⟩
    refine Ends.bind (hstart.encodeMediumBytes hroom ?_) fun d hd => Ends.pure ?_
    · rw [List.length_map, List.length_range]
      exact hlength
    · exact ⟨hd.1, hd.2, hd.3, hd.4, hd.5⟩
  · exact Ends.pure ⟨h.1, h.2, h.3, h.4, h.5⟩

theorem Sound.placeHead (h : d.Sound) (ds : DiskDriveState) : (d.placeHead ds).Sound := by
  refine ⟨h.1, h.2, h.3, ?_, h.5⟩
  unfold Drive.placeHead
  dsimp only
  split_ifs with hcount
  all_goals first
    | exact .inl ⟨hcount, rfl⟩
    | exact .inr (by omega)

/-- The search for a cell that is set comes to its end, no nearer the start. -/
theorem Sound.skipBlankCells (h : d.Sound) {fuel cell : Nat} (hfuel : d.bitCount ≤ cell + fuel) :
    Ends (d.skipBlankCells fuel cell) (cell ≤ ·) := by
  induction fuel generalizing cell with
  | zero =>
    unfold Drive.skipBlankCells
    rw [if_neg (by omega)]
    exact Ends.pure (Nat.le_refl cell)
  | succ fuel ih =>
    unfold Drive.skipBlankCells
    split_ifs with hcell
    · rw [h.mediumCell hcell]
      show Ends (if d.trackBits cell = true then some cell else d.skipBlankCells fuel (cell + 1))
        (cell ≤ ·)
      split_ifs
      · exact Ends.pure (Nat.le_refl cell)
      · exact (ih (by omega)).mono fun _ hle => Nat.le_of_succ_le hle
    · exact Ends.pure (Nat.le_refl cell)

theorem Sound.cellsToByte (h : d.Sound) {cell : Nat} (hcell : cell + 8 ≤ d.bitCount) :
    Ends (d.cellsToByte cell) fun _ => True := by
  refine Ends.foldlM (fun value i hi _ => ?_) trivial
  rw [h.mediumCell (by rw [List.mem_range] at hi; omega)]
  exact Ends.pure trivial

theorem Sound.decodeLoop (h : d.Sound) (hlong : 8 ≤ d.bitCount) (maxCount : Nat)
    {fuel cell : Nat} (hfuel : d.bitCount < cell + fuel) (written : List UInt8) :
    Ends (d.decodeLoop maxCount fuel cell written) fun _ => True := by
  induction fuel generalizing cell written with
  | zero =>
    unfold Drive.decodeLoop
    rw [if_neg (by omega)]
    exact Ends.pure trivial
  | succ fuel ih =>
    unfold Drive.decodeLoop
    split_ifs
    · refine (h.skipBlankCells (Nat.le_add_left _ _)).bind fun found hfound => ?_
      split_ifs with hend
      · exact Ends.pure trivial
      · exact (h.cellsToByte (by omega)).bind fun value _ => ih (by omega) _
    · exact Ends.pure trivial

/-- **The medium is read out in bytes**, inside the buffer and to an end. -/
theorem Sound.decodeMediumBytes (h : d.Sound) (maxCount : Nat) :
    Ends (d.decodeMediumBytes maxCount) fun _ => True := by
  unfold Drive.decodeMediumBytes
  split_ifs with hshort
  · exact Ends.pure trivial
  · exact h.decodeLoop (Nat.not_lt.mp hshort) maxCount (by omega) []

theorem Sound.save (h : d.Sound) : Ends d.save fun _ => True := by
  unfold Drive.save
  cases d.isDirty with
  | false => exact Ends.pure trivial
  | true => exact (h.decodeMediumBytes nibblesPerTrack).bind fun _ _ => Ends.pure trivial

end Drive

namespace DiskPeripheral

variable {D : Drivers} {p6 : UInt8 → UInt8} {dp : DiskPeripheral}

theorem Sound.diskStateV1Write (h : dp.Sound) : Ends dp.diskStateV1Write fun _ => True :=
  (h.drives 0).save.bind fun _ _ => (h.drives 1).save.bind fun _ _ => Ends.pure trivial

theorem Sound.loadDrive (hD : D.Contract) (h : dp.Sound) (i : Fin 2) (ds : DiskDriveState)
    (answer : OpenAnswer) : Ends (dp.loadDrive D i ds answer) Sound := by
  have hinserted := (h.ejectDiskFromDrive (D := D) i).insertDiskIntoDrive (D := D) i
    (ds.userWriteProtected ≠ 0) answer
  have hphase := ds.safePhase_lt
  unfold DiskPeripheral.loadDrive
  dsimp only
  split_ifs
  · exact Ends.pure hinserted
  · generalize ((dp.ejectDiskFromDrive D i).insertDiskIntoDrive D i
      (decide (ds.userWriteProtected ≠ 0)) answer).2 = inserted at hinserted ⊢
    have hd := hinserted.drives i
    have hplaced : (inserted.setDrive i { inserted.drives i with
        quarterTrack := ds.safePhase * 2
        motorEnableCycles := ds.spinningTicks.toNat
        writeLightCycles := ds.writeLightTicks.toNat }).Sound := by
      refine hinserted.setDrive ⟨?_, hd.2, hd.3, hd.4, hd.5⟩
      unfold maxDiskPhases at hphase
      show ds.safePhase * 2 < 160
      omega
    have hread := hplaced.readTrackFromDriver hD i
    exact ((hread.drives i).restoreCells (trackBytes_readTrackFromDriver hplaced i) ds).bind
      fun d hd => Ends.pure (hread.setDrive (hd.placeHead ds))

/-- **Any frame may be loaded.** -/
theorem Sound.diskStateV1Read (hD : D.Contract) (h : dp.Sound) (s : DiskSavedState)
    (answers : Fin 2 → OpenAnswer) : Ends (dp.diskStateV1Read D s answers) Sound := by
  unfold DiskPeripheral.diskStateV1Read
  split_ifs
  · exact Ends.pure h
  · have hcontroller : (dp.loadController s).Sound := h.of_eq rfl rfl
    refine (hcontroller.loadDrive hD 0 (s.drives 0) (answers 0)).bind fun dp' hs => ?_
    exact hs.loadDrive hD 1 (s.drives 1) (answers 1)

end DiskPeripheral

/-! ## Whole runs -/

/-- What is done to the card. Every entry of the card is here, with the cycle count it is told,
and an insert brings the answer of the loader with it. -/
inductive DiskOp where
  /-- `disk_io_read`, with the byte on the floating bus. -/
  | read (addr executedCycles : Nat) (floating : UInt8)
  /-- `disk_io_write` -/
  | write (addr : Nat) (dataValue : UInt8) (executedCycles : Nat)
  /-- `disk_abi_think` -/
  | think (elapsedCycles : Nat)
  /-- `cmd_handle_insert` -/
  | insert (i : Fin 2) (writeProtected : Bool) (answer : OpenAnswer)
  /-- `cmd_handle_eject` -/
  | eject (i : Fin 2)
  /-- `disk_cmd_swap_drives` -/
  | swap
  /-- `cmd_handle_set_protect` -/
  | setProtect (i : Fin 2) (writeProtected : Bool)
  /-- `disk_abi_reset` -/
  | reset
  /-- `disk_abi_load_state` -/
  | load (s : DiskSavedState) (answers : Fin 2 → OpenAnswer)
  /-- `disk_abi_save_state` -/
  | save

namespace DiskPeripheral

variable {D : Drivers} {p6 : UInt8 → UInt8} {dp : DiskPeripheral}

/-- What an operation does to the card. -/
def perform (D : Drivers) (p6 : UInt8 → UInt8) (dp : DiskPeripheral) :
    DiskOp → Option DiskPeripheral
  | .read addr executedCycles floating =>
    Prod.snd <$> dp.diskIoRead D p6 addr executedCycles floating
  | .write addr dataValue executedCycles => dp.diskIoWrite D p6 addr dataValue executedCycles
  | .think elapsedCycles => dp.diskAbiThink D p6 elapsedCycles
  | .insert i writeProtected answer => some (dp.insertDiskIntoDrive D i writeProtected answer).2
  | .eject i => some (dp.ejectDiskFromDrive D i)
  | .swap => some dp.swapDrives
  | .setProtect i writeProtected => some (dp.cmdHandleSetProtect i writeProtected)
  | .reset => some (dp.initializePeripheral D)
  | .load s answers => dp.diskStateV1Read D s answers
  | .save => (fun _ => dp) <$> dp.diskStateV1Write

/-- The card after a run of operations, if they all come to their end. -/
def run (D : Drivers) (p6 : UInt8 → UInt8) (dp : DiskPeripheral) (ops : List DiskOp) :
    Option DiskPeripheral :=
  ops.foldlM (perform D p6) dp

/-- **Every operation ends, and keeps the card sound.** -/
theorem Sound.perform (hD : D.Contract) (h : dp.Sound) (op : DiskOp) :
    Ends (dp.perform D p6 op) Sound := by
  cases op with
  | read addr executedCycles floating =>
    exact (h.diskIoRead hD addr executedCycles floating).map fun _ hs => hs
  | write addr dataValue executedCycles => exact h.diskIoWrite hD addr dataValue executedCycles
  | think elapsedCycles => exact h.diskAbiThink hD elapsedCycles
  | insert i writeProtected answer =>
    exact Ends.pure (h.insertDiskIntoDrive i writeProtected answer)
  | eject i => exact Ends.pure (h.ejectDiskFromDrive i)
  | swap => exact Ends.pure h.swapDrives
  | setProtect i writeProtected => exact Ends.pure (h.cmdHandleSetProtect i writeProtected)
  | reset => exact Ends.pure h.initializePeripheral
  | load s answers => exact h.diskStateV1Read hD s answers
  | save => exact h.diskStateV1Write.map fun _ _ => h

theorem Sound.run (hD : D.Contract) (h : dp.Sound) (ops : List DiskOp) :
    Ends (dp.run D p6 ops) Sound :=
  Ends.foldlM (fun _ op _ hs => hs.perform hD op) h

/-- **The card is sound in every state it comes to**, and comes to one: whatever is done to it,
whatever save state it loads, with any PROM and any drivers that keep their contract. The last
part says that from there every operation ends, so that no access is outside the buffer and no
loop goes on for ever in any longer run. -/
theorem run_sound (hD : D.Contract) (p6 : UInt8 → UInt8) (trace : DiskTrace)
    (image1 image2 : Option OpenAnswer) (ops : List DiskOp) :
    Ends ((diskAbiInit D trace image1 image2).run D p6 ops) fun dp =>
      (∀ i, (dp.drives i).quarterTrack < 160
        ∧ (dp.drives i).bitCount ≤ (dp.drives i).trackBytes * 8
        ∧ (dp.drives i).bitCount ≤ maxTrackBits
        ∧ ((dp.drives i).bitCount = 0 ∧ (dp.drives i).bitPosition = 0
          ∨ (dp.drives i).bitPosition < (dp.drives i).bitCount)
        ∧ 0 < (dp.drives i).bitTiming)
      ∧ ∀ op, (dp.perform D p6 op).isSome := by
  refine ((sound_diskAbiInit trace image1 image2).run hD ops).mono
    fun dp h => ⟨fun i => ?_, fun op => ?_⟩
  · have hd := h.drives i
    exact ⟨hd.quarterTrack_lt, hd.room, hd.bitCount_le, hd.position, hd.bitTiming_pos⟩
  · obtain ⟨dp', hperform, _⟩ := @Sound.perform D p6 dp hD h op
    rw [hperform]
    rfl

/-- Drivers of one blank image that takes whatever is written. -/
def blankDrivers : Drivers where
  reads _ _ := ⟨true, fun _ => false, 50464, diskDefaultBitTiming⟩
  writes _ := true

/-- An image is found. -/
def found : OpenAnswer := ⟨true, some ⟨0, true, true, false⟩⟩

/-- The card with a blank image, its drive turned on and its head moved. -/
theorem run_sound_blank : Ends ((diskAbiInit blankDrivers .new (some found) none).run
    blankDrivers id [.write 0x9 0 4, .read 0x3 8 0, .think 100, .save]) fun dp =>
      (∀ i, (dp.drives i).quarterTrack < 160
        ∧ (dp.drives i).bitCount ≤ (dp.drives i).trackBytes * 8
        ∧ (dp.drives i).bitCount ≤ maxTrackBits
        ∧ ((dp.drives i).bitCount = 0 ∧ (dp.drives i).bitPosition = 0
          ∨ (dp.drives i).bitPosition < (dp.drives i).bitCount)
        ∧ 0 < (dp.drives i).bitTiming)
      ∧ ∀ op, (dp.perform blankDrivers id op).isSome :=
  run_sound ⟨fun _ _ => (by decide : 50464 ≤ maxTrackBits),
    fun _ _ => (by decide : 0 < diskDefaultBitTiming)⟩ id .new (some found) none _

end DiskPeripheral

end LinApple.Disk
