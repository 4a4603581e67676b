import LinApple.Disk.Card
import LinApple.Disk.Encoding

/-!
# The save states of the disk card

The frames have carried bytes since the first version, and the card works in
cells: a track the guest has written to goes through the bytes the data register
would read, and a clean one is read again from the image.
-/

namespace LinApple.Disk

/-! ## Frames -/

/-- `DiskDriveState` -/
structure DiskDriveState where
  /-- `track` -/
  track : Int
  /-- `phase` -/
  phase : Int
  /-- `current_byte_pos` -/
  currentBytePos : Int
  /-- `user_write_protected` -/
  userWriteProtected : UInt8
  /-- `is_data_loaded` -/
  isDataLoaded : UInt8
  /-- `is_dirty` -/
  isDirty : UInt8
  /-- `spinning_ticks` -/
  spinningTicks : UInt32
  /-- `write_light_ticks` -/
  writeLightTicks : UInt32
  /-- `nibble_count` -/
  nibbleCount : Int
  /-- `track_buffer` -/
  trackBuffer : Nat → UInt8

/-- **`DiskSavedState`**, with the size it is handed over with. -/
structure DiskSavedState where
  /-- The `size` of the buffer. -/
  size : Nat
  /-- `header.version` -/
  headerVersion : UInt32
  /-- `header.size` -/
  headerSize : UInt32
  /-- `drives` -/
  drives : Fin 2 → DiskDriveState
  /-- `stepper_phase_mask` -/
  stepperPhaseMask : UInt16
  /-- `active_drive_index` -/
  activeDriveIndex : UInt16
  /-- `io_latch` -/
  ioLatch : UInt8
  /-- `is_motor_on` -/
  isMotorOn : UInt8
  /-- `is_write_mode` -/
  isWriteMode : UInt8

/-- `sizeof(DiskSavedState)` -/
def diskSavedStateSize : Nat := 13897
/-- `disk_state_version` -/
def diskStateVersion : UInt32 := 1
/-- `nibbles_per_track`, the bytes of a `track_buffer`. -/
def nibblesPerTrack : Nat := 6656
/-- `max_disk_phases` -/
def maxDiskPhases : Nat := 80

/-! ## Saving -/

/-- What `disk_state_v1_write` writes of a drive. -/
def Drive.save (d : Drive) : Option DiskDriveState := do
  let nibbles ← if d.isDirty then d.decodeMediumBytes nibblesPerTrack else some []
  return {
    track := d.quarterTrack / 4
    phase := d.quarterTrack / 2
    currentBytePos := d.bitPosition / 8
    userWriteProtected := if d.isUserWriteProtected then 1 else 0
    isDataLoaded := if d.isDirty then 1 else 0
    isDirty := if d.isDirty then 1 else 0
    spinningTicks := UInt32.ofNat d.motorEnableCycles
    writeLightTicks := UInt32.ofNat d.writeLightCycles
    nibbleCount := nibbles.length
    trackBuffer := fun i => nibbles.getD i 0 }

/-- **`disk_state_v1_write`** -/
def DiskPeripheral.diskStateV1Write (dp : DiskPeripheral) : Option DiskSavedState := do
  let drive0 ← (dp.drives 0).save
  let drive1 ← (dp.drives 1).save
  return {
    size := diskSavedStateSize
    headerVersion := diskStateVersion
    headerSize := UInt32.ofNat diskSavedStateSize
    drives := fun i => if i = 0 then drive0 else drive1
    stepperPhaseMask := dp.stepperPhaseMask
    activeDriveIndex := UInt16.ofNat dp.activeDriveIndex
    ioLatch := dp.ioLatch
    isMotorOn := if dp.isMotorOn then 1 else 0
    isWriteMode := if dp.sequencer.q7 then 1 else 0 }

/-! ## Loading -/

/-- `disk_state_v1_read` refuses a frame that is too short, or not of its
version. -/
def DiskSavedState.isRefused (s : DiskSavedState) : Bool :=
  s.size < diskSavedStateSize || s.headerVersion ≠ diskStateVersion ||
    s.headerSize ≠ UInt32.ofNat diskSavedStateSize

/-- What `disk_state_v1_read` calls out of bounds. -/
def DiskDriveState.isOutOfBounds (ds : DiskDriveState) : Bool :=
  ds.track < 0 || ds.track ≥ tracksPerDisk || ds.phase < 0 || ds.phase ≥ maxDiskPhases ||
    ds.nibbleCount < 0 || ds.nibbleCount > nibblesPerTrack || ds.currentBytePos < 0 ||
    ds.currentBytePos > nibblesPerTrack

/-- The half track that `disk_state_v1_read` puts the head on. -/
def DiskDriveState.safePhase (ds : DiskDriveState) : Nat :=
  if 0 ≤ ds.phase ∧ ds.phase < maxDiskPhases then ds.phase.toNat else 0

/-- The cells in `disk_state_v1_read`: of a track that was written to, they come
from the frame. -/
def Drive.restoreCells (d : Drive) (ds : DiskDriveState) : Option Drive :=
  if ds.isDirty ≠ 0 ∧ ds.isOutOfBounds = false then do
    let d ← { d with isDirty := true }.encodeMediumBytes
      ((List.range ds.nibbleCount.toNat).map ds.trackBuffer)
    return { d with isDataLoaded := d.bitCount ≠ 0, origin := none }
  else some { d with isDirty := false }

/-- The head in `disk_state_v1_read` goes where it was. -/
def Drive.placeHead (d : Drive) (ds : DiskDriveState) : Drive :=
  let bytePos := if ds.isOutOfBounds then 0 else ds.currentBytePos.toNat
  { d with
    bitPosition := if d.bitCount = 0 then 0 else min (bytePos * 8) (d.bitCount - 1)
    cellRemaining := 0 }

namespace DiskPeripheral

variable (D : Drivers) (dp : DiskPeripheral)

/-- What `disk_state_v1_read` does to a drive. -/
def loadDrive (i : Fin 2) (ds : DiskDriveState) (answer : OpenAnswer) : Option DiskPeripheral :=
  let dp := dp.ejectDiskFromDrive D i
  let (failed, dp) := dp.insertDiskIntoDrive D i (ds.userWriteProtected ≠ 0) answer
  if failed then some dp
  else do
    let dp := dp.setDrive i { dp.drives i with
      quarterTrack := ds.safePhase * 2
      motorEnableCycles := ds.spinningTicks.toNat
      writeLightCycles := ds.writeLightTicks.toNat }
    let dp := dp.readTrackFromDriver D i
    let d ← (dp.drives i).restoreCells ds
    return dp.setDrive i (d.placeHead ds)

/-- What `disk_state_v1_read` takes from a frame for the controller. -/
def loadController (s : DiskSavedState) : DiskPeripheral :=
  { dp with
    stepperPhaseMask := s.stepperPhaseMask &&& 0x0F
    activeDriveIndex := if s.activeDriveIndex = 1 then 1 else 0
    ioLatch := s.ioLatch
    isMotorOn := s.isMotorOn ≠ 0
    sequencer := { DiskSequencer.new with q7 := s.isWriteMode ≠ 0 }
    synced := 0 }

/-- **`disk_state_v1_read`**, with what comes of opening its images. A frame that
is refused leaves the card alone. -/
def diskStateV1Read (s : DiskSavedState) (answers : Fin 2 → OpenAnswer) :
    Option DiskPeripheral :=
  if s.isRefused then some dp
  else do
    let dp ← (dp.loadController s).loadDrive D 0 (s.drives 0) (answers 0)
    dp.loadDrive D 1 (s.drives 1) (answers 1)

end DiskPeripheral

end LinApple.Disk
