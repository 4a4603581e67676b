import LinApple.Disk.Drive
import LinApple.Lib.Sizes
import Mathlib.Algebra.Group.Nat.Defs

/-!
# The disk card

Sixteen soft switches, a sequencer that is clocked twice a cycle, and two
drives. The card is brought up to date when a switch is accessed and when a
batch of cycles ends. Nothing is what a step comes to that would read or write
outside the track buffer, or would not end.
-/

namespace LinApple.Disk

/-! ## The card -/

/-- `DiskSequencer` -/
structure DiskSequencer where
  /-- `q6` -/
  q6 : Bool
  /-- `q7` -/
  q7 : Bool
  /-- `write_line_active` -/
  writeLineActive : Bool
  /-- `write_pulse_pending` -/
  writePulsePending : Bool
  /-- `state` -/
  state : UInt8
deriving DecidableEq, Repr

/-- `DiskSequencer{}` -/
def DiskSequencer.new : DiskSequencer := ⟨false, false, false, false, 0⟩

/-- A call of `write_track_bits`, with the note of where its cells are from. -/
structure TrackWrite where
  /-- The image. -/
  image : Nat
  /-- `quarter_track` -/
  quarterTrack : Nat
  /-- `bits` -/
  bits : Nat → Bool
  /-- `bit_count` -/
  bitCount : Nat
  /-- `is_data_loaded` of the drive: the cells are those under its head. -/
  loaded : Bool
  /-- Where the cells are from. -/
  origin : Option (Nat × Nat)

/-- What the outside has seen of the card in a slot. The program keeps none of it. It is noted by
the model, and no operation looks at it but to number the calls of the drivers. -/
structure DiskTrace where
  /-- The calls made of drivers so far. -/
  calls : Nat
  /-- The calls made for each drive of a driver that has no instance. -/
  nullCalls : Fin 2 → Nat
  /-- The tracks written so far, the last one first. -/
  writes : List TrackWrite
  /-- What the host was last told of the slot's activity. -/
  activity : Bool

/-- Nothing has happened in the slot. -/
def DiskTrace.new : DiskTrace := ⟨0, fun _ => 0, [], false⟩

/-- **`DiskPeripheral`** -/
structure DiskPeripheral extends DiskTrace where
  /-- `drives` -/
  drives : Fin 2 → Drive
  /-- `active_drive_index` -/
  activeDriveIndex : Fin 2
  /-- `io_latch` -/
  ioLatch : UInt8
  /-- `last_bus_write` -/
  lastBusWrite : UInt8
  /-- `stepper_phase_mask` -/
  stepperPhaseMask : UInt16
  /-- `is_motor_on` -/
  isMotorOn : Bool
  /-- `sequencer` -/
  sequencer : DiskSequencer
  /-- `synced` -/
  synced : Nat
  /-- `noise_seed` -/
  noiseSeed : UInt32
  /-- `cumulative_cycles` -/
  cumulativeCycles : UInt32
  /-- `magnet_release_cycle` -/
  magnetReleaseCycle : UInt32
  /-- `quarter_track_before_release` -/
  quarterTrackBeforeRelease : Nat
  /-- `magnet_released` -/
  magnetReleased : Bool

/-- `physical::motor_off_delay_cycles` -/
def motorOffDelayCycles : Nat := 1159235
/-- `physical::write_light_cycles` -/
def writeLightCycles : Nat := 1020484
/-- `physical::noise_seed_start` -/
def noiseSeedStart : UInt32 := 0x5D1A3B7F
/-- `physical::magnet_settle_cycles` -/
def magnetSettleCycles : UInt32 := 10

namespace DiskPeripheral

variable (D : Drivers) (dp : DiskPeripheral)

/-- `get_active_drive` -/
def activeDrive : Drive := dp.drives dp.activeDriveIndex

/-- A drive is changed. -/
def setDrive (i : Fin 2) (d : Drive) : DiskPeripheral :=
  { dp with drives := Function.update dp.drives i d }

/-- The active drive is changed. -/
def setActive (d : Drive) : DiskPeripheral := dp.setDrive dp.activeDriveIndex d

/-- `notify_activity_changed` -/
def notifyActivityChanged (active : Bool) : DiskPeripheral := { dp with activity := active }

/-- `energised_magnets` -/
def energisedMagnets : UInt16 :=
  if dp.activeDrive.motorEnableCycles > 0 then dp.stepperPhaseMask else 0

/-! ## Tracks and images -/

/-- `nullCalls` after another call for a drive. -/
def countNull (i : Fin 2) (m : Driver) : Fin 2 → Nat :=
  if m.hasInstance then dp.nullCalls else Function.update dp.nullCalls i (dp.nullCalls i + 1)

/-- **`write_track_to_driver`**: a track that is refused stays dirty. -/
def writeTrackToDriver (i : Fin 2) : DiskPeripheral :=
  let d := dp.drives i
  if d.quarterTrack ≥ quarterTracksPerDisk then dp
  else if d.isDiskWriteProtected then dp
  else
    match d.driver with
    | none => dp
    | some m =>
      if d.bitCount ≠ 0 ∧ m.canWrite then
        { dp.setDrive i { d with isDirty := !D.writes dp.calls } with
          calls := dp.calls + 1
          nullCalls := dp.countNull i m
          writes := ⟨m.image, d.quarterTrack, d.trackBits, d.bitCount, d.isDataLoaded, d.origin⟩
            :: dp.writes }
      else dp

/-- A dirty track is given to the driver. -/
def flushTrack (i : Fin 2) : DiskPeripheral :=
  if (dp.drives i).isDirty then dp.writeTrackToDriver D i else dp

/-- **`read_track_from_driver`** -/
def readTrackFromDriver (i : Fin 2) : DiskPeripheral :=
  let previous := dp.drives i
  let d := previous.clearTrack
  if d.quarterTrack ≥ quarterTracksPerDisk then
    dp.setDrive i { d with isDataLoaded := false }
  else
    let d := d.makeRoom
    match d.driver with
    | none => dp.setDrive i (d.rescaleHeadAngle previous.bitPosition previous.bitCount)
    | some m =>
      let d := d.layTrack m.image (D.reads dp.calls d.quarterTrack)
      { dp.setDrive i (d.rescaleHeadAngle previous.bitPosition previous.bitCount) with
        calls := dp.calls + 1
        nullCalls := dp.countNull i m }

/-- **`eject_disk_from_drive`** -/
def ejectDiskFromDrive (i : Fin 2) : DiskPeripheral :=
  if (dp.drives i).driver = none then dp.setDrive i .empty
  else (dp.flushTrack D i).setDrive i .empty

/-- **`insert_disk_into_drive`**, which says whether there is an error. -/
def insertDiskIntoDrive (i : Fin 2) (writeProtected : Bool) (answer : OpenAnswer) :
    Bool × DiskPeripheral :=
  let dp := if (dp.drives i).driver ≠ none then dp.ejectDiskFromDrive D i else dp
  (!answer.ok,
    { dp.setDrive i { Drive.empty with
        isUserWriteProtected := writeProtected
        driver := answer.driver.map ({ · with image := dp.calls }) } with
      calls := dp.calls + 1 })

/-! ## The head -/

/-- **`move_head_to`** -/
def moveHeadTo (quarterTrack : Nat) : DiskPeripheral :=
  if quarterTrack = dp.activeDrive.quarterTrack then dp
  else
    let dp := dp.flushTrack D dp.activeDriveIndex
    dp.setActive { dp.activeDrive with quarterTrack, isDataLoaded := false }

/-- The magnets that pull the cog, and the sum of the places they pull it to, in
`settle_head`. -/
def pull (live : UInt16) (here : Nat) : Nat × Int :=
  let halfTrack : Int := here - here % 2
  let cogPhase := here / 2 % 4
  (List.range 4).foldl
    (fun (magnets, sum) magnet =>
      let offset := (magnet + 4 - cogPhase) % 4
      if live &&& (1 <<< UInt16.ofNat magnet) = 0 then (magnets, sum)
      else if offset = 2 then (magnets, sum)
      else
        (magnets + 1,
          sum + halfTrack + (if offset = 1 then 2 else 0) - (if offset = 3 then 2 else 0)))
    (0, 0)

/-- The quarter track the head is pulled to in `settle_head`: where it is, if no
magnet pulls. -/
def settled (live : UInt16) (here : Nat) : Nat :=
  let (magnets, sum) := pull live here
  if magnets = 0 then here
  else (max 0 (min ((quarterTracksPerDisk : Int) - 1) (sum.tdiv magnets))).toNat

/-- Without a live magnet the head stays where it is. -/
theorem settled_zero (here : Nat) : settled 0 here = here := by
  have hpull : pull 0 here = (0, 0) := by
    unfold pull
    simp only [UInt16.zero_and, if_true]
    rfl
  unfold settled
  rw [hpull]
  rfl

/-- **`settle_head`** -/
def settleHead : DiskPeripheral :=
  dp.moveHeadTo D (settled dp.energisedMagnets dp.activeDrive.quarterTrack)

/-- **`sync_drive_motor_state`** -/
def syncDriveMotorState : DiskPeripheral :=
  let wasSpinning := decide (dp.activeDrive.motorEnableCycles > 0)
  let dp := if dp.isMotorOn then
      dp.setActive { dp.activeDrive with motorEnableCycles := motorOffDelayCycles }
    else dp
  let nowSpinning := decide (dp.activeDrive.motorEnableCycles > 0)
  let dp := if !wasSpinning && nowSpinning then dp.settleHead D else dp
  if wasSpinning ≠ nowSpinning then dp.notifyActivityChanged nowSpinning else dp

/-! ## The switches -/

/-- `disk_io_control_motor` -/
def diskIoControlMotor (addr : Nat) : DiskPeripheral :=
  { dp with isMotorOn := addr % 2 = 1 }.syncDriveMotorState D

/-- `stepper_phase_mask` after a strobe of one of its magnets. -/
def strobed (addr : Nat) : UInt16 :=
  let strobeBit : UInt16 := 1 <<< UInt16.ofNat (addr / 2 % 4)
  if addr % 2 = 1 then dp.stepperPhaseMask ||| strobeBit
  else dp.stepperPhaseMask &&& ~~~strobeBit

/-- `cancels_the_pending_move`, in the stepper's own words. -/
def cancelsThePendingMove : Bool :=
  dp.stepperPhaseMask = 0 && dp.magnetReleased &&
    dp.cumulativeCycles - dp.magnetReleaseCycle ≤ magnetSettleCycles

/-- **`disk_io_control_stepper`** -/
def diskIoControlStepper (addr : Nat) : DiskPeripheral :=
  let magnetIsOn := decide (addr % 2 = 1)
  let dp := { dp with stepperPhaseMask := dp.strobed addr }
  if dp.activeDrive.motorEnableCycles = 0 then dp
  else
    let beforeSettling := dp.activeDrive.quarterTrack
    let dp := dp.settleHead D
    if magnetIsOn then dp
    else if dp.cancelsThePendingMove then
      { dp.moveHeadTo D dp.quarterTrackBeforeRelease with magnetReleased := false }
    else
      { dp with
        quarterTrackBeforeRelease := beforeSettling
        magnetReleased := true
        magnetReleaseCycle := dp.cumulativeCycles }

/-- **`disk_io_enable_drive`** -/
def diskIoEnableDrive (addr : Nat) : DiskPeripheral :=
  let newDriveIndex : Fin 2 := Fin.ofNat 2 addr
  let dp := if newDriveIndex ≠ dp.activeDriveIndex then
      let dp := dp.flushTrack D dp.activeDriveIndex
      { dp.setActive { dp.activeDrive with motorEnableCycles := 0, writeLightCycles := 0 } with
        activeDriveIndex := newDriveIndex }
    else dp
  dp.syncDriveMotorState D

/-- `disk_io_mode_switch`; `dataValue` is there on a write. -/
def diskIoModeSwitch (addr : Nat) (dataValue : Option UInt8) : DiskPeripheral :=
  let dp := { dp with lastBusWrite := dataValue.getD dp.lastBusWrite }
  let switchIsSet := decide (addr % 2 = 1)
  if addr / 2 % 2 = 0 then { dp with sequencer := { dp.sequencer with q6 := switchIsSet } }
  else
    let dp := { dp with sequencer := { dp.sequencer with q7 := switchIsSet } }
    if switchIsSet then dp.setActive { dp.activeDrive with writeLightCycles := writeLightCycles }
    else dp

/-- `disk_io_handlers`, by the low four bits of the address. -/
def diskIoHandlers (addr : Nat) (dataValue : Option UInt8) : DiskPeripheral :=
  let index := addr % 16
  if index < 8 then dp.diskIoControlStepper D addr
  else if index < 10 then dp.diskIoControlMotor D addr
  else if index < 12 then dp.diskIoEnableDrive D addr
  else dp.diskIoModeSwitch addr dataValue

/-! ## The medium under the head -/

/-- The next seed of the noise. The constants come first, so that no proof counts
them down. -/
def nextSeed (seed : UInt32) : UInt32 := 12345 + 1103515245 * seed

/-- `noise_pulse` -/
def noisePulse : Bool × DiskPeripheral :=
  (decide ((nextSeed dp.noiseSeed >>> (16 : UInt32)) &&& 0xFF < 77),
    { dp with noiseSeed := nextSeed dp.noiseSeed })

/-- **`commit_write_cell`** of the active drive. -/
def commitWriteCell : Option DiskPeripheral := do
  let drive ← dp.activeDrive.commitCell dp.sequencer.writePulsePending
  return { dp.setActive drive with
    sequencer := { dp.sequencer with writePulsePending := false } }

/-- What the read amplifier makes of a cell: a pulse, nothing, or noise when
there has been nothing for too long. -/
def amplify (cell pulse : Bool) : DiskPeripheral × Bool :=
  let drive := dp.activeDrive
  if cell then (dp.setActive { drive with zeroCellRun := 0 }, true)
  else if drive.zeroCellRun < 3 then
    (dp.setActive { drive with zeroCellRun := drive.zeroCellRun + 1 }, pulse)
  else (dp.noisePulse.2, pulse || dp.noisePulse.1)

/-- A round of the loop of `advance_medium_one_step`, with the pulse so far. -/
def passCell (mayWrite : Bool) (s : DiskPeripheral × Bool) :
    Option (DiskPeripheral × Bool) := do
  let dp ← if mayWrite then s.1.commitWriteCell else some s.1
  let cell ← dp.activeDrive.mediumCell dp.activeDrive.bitPosition
  let (dp, pulse) := dp.amplify cell s.2
  return (dp.setActive dp.activeDrive.nextCell, pulse)

/-- The loop of `advance_medium_one_step`: nothing, if it has not come to
its end in `fuel` rounds. -/
def passCells (mayWrite : Bool) : Nat → DiskPeripheral × Bool → Option (DiskPeripheral × Bool)
  | 0, s => if s.1.activeDrive.cellRemaining < 0 then none else some s
  | fuel + 1, s =>
    if s.1.activeDrive.cellRemaining < 0 then passCell mayWrite s >>= passCells mayWrite fuel
    else some s

/-- **`advance_medium_one_step`**. A cell that takes time is at least a unit
nearer the end. -/
def advanceMediumOneStep (mayWrite : Bool) : Option (Bool × DiskPeripheral) :=
  if dp.activeDrive.bitCount = 0 then some dp.noisePulse
  else do
    let drive := { dp.activeDrive with cellRemaining := dp.activeDrive.cellRemaining - 4 }
    let (dp, pulse) ← passCells mayWrite (-drive.cellRemaining).toNat (dp.setActive drive, false)
    return (pulse, dp)

/-- **`sequencer_step`**, with the PROM that is in the socket. -/
def sequencerStep (p6 : UInt8 → UInt8) (isProtected mayWrite : Bool) :
    Option DiskPeripheral := do
  let (pulse, dp) ← dp.advanceMediumOneStep mayWrite
  let state := dp.sequencer.state
  let address := ((state &&& 0x0E) <<< (4 : UInt8)) ||| (if pulse then 0x00 else 0x10) |||
    (if dp.sequencer.q7 then 0x08 else 0x00) ||| (if dp.sequencer.q6 then 0x04 else 0x00) |||
    ((dp.ioLatch &&& 0x80) >>> (6 : UInt8)) ||| (state &&& 0x01)
  let opcode := p6 address
  let stateDrivesHigh := decide (state &&& 0x08 ≠ 0)
  let sequencer :=
    if dp.sequencer.q7 && (stateDrivesHigh != dp.sequencer.writeLineActive) then
      { dp.sequencer with writeLineActive := stateDrivesHigh, writePulsePending := true }
    else dp.sequencer
  let ioLatch := match (opcode &&& 0x0F).toNat with
    | 0x8 | 0xC => dp.ioLatch
    | 0x9 => dp.ioLatch <<< (1 : UInt8)
    | 0xA | 0xE => (dp.ioLatch >>> (1 : UInt8)) ||| (if isProtected then 0x80 else 0x00)
    | 0xB | 0xF => dp.lastBusWrite
    | 0xD => (dp.ioLatch <<< (1 : UInt8)) ||| 1
    | _ => 0
  return { dp with
    ioLatch
    sequencer := { sequencer with
      state := ((opcode &&& 0xC0) >>> (4 : UInt8)) ||| ((opcode &&& 0x10) >>> (3 : UInt8)) |||
        ((opcode &&& 0x20) >>> (5 : UInt8)) } }

/-- **`run_sequencer_cycles`** -/
def runSequencerCycles (p6 : UInt8 → UInt8) (cycles : Nat) : Option DiskPeripheral :=
  if cycles = 0 then some dp
  else if dp.activeDrive.motorEnableCycles = 0 then some dp
  else
    let dp := if !dp.activeDrive.isDataLoaded && dp.activeDrive.driver.isSome then
      dp.readTrackFromDriver D dp.activeDriveIndex else dp
    let isProtected := dp.activeDrive.isDiskWriteProtected
    let mayWrite := dp.sequencer.q7 && !isProtected
    loopRounds (fun dp => dp.sequencerStep p6 isProtected mayWrite) (cycles * 2 % 2 ^ 32) dp

/-- **`sync_sequencer_to_cycle`** -/
def syncSequencerToCycle (p6 : UInt8 → UInt8) (executedCycles : Nat) : Option DiskPeripheral :=
  if executedCycles ≤ dp.synced then some dp
  else
    let elapsed := executedCycles - dp.synced
    { dp with
      synced := executedCycles
      cumulativeCycles := dp.cumulativeCycles + UInt32.ofNat elapsed }.runSequencerCycles D p6 elapsed

/-! ## Time -/

/-- The motor in `update_drive_physics`: the enable lapses once it has not been
held for long enough. -/
def spinDown (i : Fin 2) (elapsedCycles : Nat) : DiskPeripheral :=
  if (dp.drives i).motorEnableCycles > 0 ∧ dp.isMotorOn = false then
    if elapsedCycles ≥ (dp.drives i).motorEnableCycles then
      let dp := { dp.setDrive i { dp.drives i with motorEnableCycles := 0 } with
        magnetReleased := if dp.activeDriveIndex = i then false else dp.magnetReleased }
      (dp.flushTrack D i).notifyActivityChanged false
    else
      dp.setDrive i { dp.drives i with
        motorEnableCycles := (dp.drives i).motorEnableCycles - elapsedCycles }
  else dp

/-- The write light in `update_drive_physics`. -/
def fadeWriteLight (i : Fin 2) (elapsedCycles : Nat) : DiskPeripheral :=
  let d := dp.drives i
  if dp.sequencer.q7 ∧ dp.activeDriveIndex = i ∧ d.motorEnableCycles > 0 then
    dp.setDrive i { d with writeLightCycles := writeLightCycles }
  else dp.setDrive i { d with writeLightCycles := d.writeLightCycles - elapsedCycles }

/-- **`update_drive_physics`** -/
def updateDrivePhysics (i : Fin 2) (elapsedCycles : Nat) : DiskPeripheral :=
  (dp.spinDown D i elapsedCycles).fadeWriteLight i elapsedCycles

/-- **`disk_abi_think`** -/
def diskAbiThink (p6 : UInt8 → UInt8) (elapsedCycles : Nat) : Option DiskPeripheral :=
  if elapsedCycles = 0 then some dp
  else do
    let dp ← dp.syncSequencerToCycle D p6 elapsedCycles
    let dp := { dp with synced := 0 }
    return (dp.updateDrivePhysics D 0 elapsedCycles).updateDrivePhysics D 1 elapsedCycles

/-! ## Accesses, commands and resets -/

/-- `disk_io_read`: only the even switches drive the data bus. -/
def diskIoRead (p6 : UInt8 → UInt8) (addr : Nat) (executedCycles : Nat) (floating : UInt8) :
    Option (UInt8 × DiskPeripheral) := do
  let dp ← dp.syncSequencerToCycle D p6 executedCycles
  let dp := dp.diskIoHandlers D addr none
  return (if addr % 2 = 1 then floating else dp.ioLatch, dp)

/-- `disk_io_write` -/
def diskIoWrite (p6 : UInt8 → UInt8) (addr : Nat) (dataValue : UInt8) (executedCycles : Nat) :
    Option DiskPeripheral := do
  let dp ← dp.syncSequencerToCycle D p6 executedCycles
  return dp.diskIoHandlers D addr (some dataValue)

/-- `swap_drives`: not while one is spinning. -/
def swapDrives : DiskPeripheral :=
  if (dp.drives 0).motorEnableCycles > 0 ∨ (dp.drives 1).motorEnableCycles > 0 then dp
  else { dp with drives := fun i => dp.drives (1 - i) }

/-- `cmd_handle_set_protect` -/
def cmdHandleSetProtect (i : Fin 2) (writeProtected : Bool) : DiskPeripheral :=
  dp.setDrive i { dp.drives i with isUserWriteProtected := writeProtected }

/-- **`initialize_peripheral`**, which is what `disk_abi_reset` does. -/
def initializePeripheral : DiskPeripheral :=
  let dp := (dp.flushTrack D 0).flushTrack D 1
  { dp with
    activeDriveIndex := 0
    ioLatch := 0
    lastBusWrite := 0
    stepperPhaseMask := 0
    isMotorOn := false
    sequencer := .new
    synced := 0
    noiseSeed := noiseSeedStart
    magnetReleased := false
    drives := fun i => { dp.drives i with motorEnableCycles := 0, writeLightCycles := 0 } }

/-- `DiskPeripheral()`, in a slot with a past. -/
def new (trace : DiskTrace) : DiskPeripheral where
  toDiskTrace := trace
  drives := fun _ => .empty
  activeDriveIndex := 0
  ioLatch := 0
  lastBusWrite := 0
  stepperPhaseMask := 0
  isMotorOn := false
  sequencer := .new
  synced := 0
  noiseSeed := 0
  cumulativeCycles := 0
  magnetReleaseCycle := 0
  quarterTrackBeforeRelease := 0
  magnetReleased := false

/-- `insert_disk_into_drive` of an image the configuration names. -/
def insertConfigured (i : Fin 2) : Option OpenAnswer → DiskPeripheral
  | none => dp
  | some answer => (dp.insertDiskIntoDrive D i false answer).2

/-- `disk_abi_init`, with what comes of the images the configuration names. -/
def diskAbiInit (trace : DiskTrace) (image1 image2 : Option OpenAnswer) : DiskPeripheral :=
  (((new trace).initializePeripheral D).insertConfigured D 0 image1).insertConfigured D 1 image2

/-- `disk_abi_shutdown`, up to where the card is freed. -/
def diskAbiShutdown : DiskPeripheral := (dp.ejectDiskFromDrive D 0).ejectDiskFromDrive D 1

end DiskPeripheral

end LinApple.Disk
