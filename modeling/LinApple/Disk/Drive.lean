import LinApple.Lib.Ends
import Mathlib.Logic.Function.Basic

/-!
# The drives of the disk card

What is in a drive: the medium under the head, cell by cell, where the head is,
and the driver of the image. The drivers are asked by number: the `n`th call
that is made of one is answered as the driver at hand answers then.
-/

namespace LinApple.Disk

/-! ## Drivers -/

/-- `max_track_bits` -/
def maxTrackBits : Nat := 69632
/-- `disk_default_bit_timing` -/
def diskDefaultBitTiming : UInt8 := 32
/-- `physical::track_bit_bytes` -/
def trackBitBytes : Nat := maxTrackBits / 8
/-- `physical::quarter_tracks_per_disk` -/
def quarterTracksPerDisk : Nat := 160

/-- `DiskFormatDriver`, with the instance it has of an image. -/
structure Driver where
  /-- The call of `disk_loader_open` that made the instance. -/
  image : Nat
  /-- Whether there is an instance: not if the opening failed. -/
  hasInstance : Bool
  /-- `disk_driver_cap_write`, which goes with `write_track_bits`. -/
  canWrite : Bool
  /-- `is_write_protected` -/
  isWriteProtected : Bool
deriving DecidableEq, Repr

/-- What `read_track_bits` answers. A driver may answer anything; what the card may rely on is in
the contract of the drivers. -/
structure TrackAnswer where
  /-- It answers `disk_err_none`. -/
  ok : Bool
  /-- The cells, as `bits` holds them. -/
  bits : Nat → Bool
  /-- `out_bit_count` -/
  bitCount : Nat
  /-- `out_bit_timing` -/
  bitTiming : UInt8

/-- What `disk_loader_open` answers. The two are apart, for a driver that was found may fail
to open the image, and stays with the drive all the same. -/
structure OpenAnswer where
  /-- It answers `disk_err_none`. -/
  ok : Bool
  /-- The driver it finds. -/
  driver : Option Driver

/-- **How the drivers answer**, one call after another. -/
structure Drivers where
  /-- `read_track_bits` of a quarter track. -/
  reads : Nat → Nat → TrackAnswer
  /-- `write_track_bits`: whether it answers `disk_err_none`. -/
  writes : Nat → Bool

/-- **The contract of `read_track_bits`**: a track longer than the buffer is
refused, and a cell takes time. -/
structure Drivers.Contract (D : Drivers) : Prop where
  /-- No more cells than there is room for. -/
  bitCount_le : ∀ n q, (D.reads n q).bitCount ≤ maxTrackBits
  /-- A cell takes time. -/
  bitTiming_pos : ∀ n q, 0 < (D.reads n q).bitTiming

/-! ## Drives -/

/-- **`Disk`**. `origin` is a note of where the cells are from: the image and the
quarter track they were read from, as long as the head has changed them over
that quarter track only. -/
structure Drive where
  /-- `quarter_track` -/
  quarterTrack : Nat
  /-- `bit_position` -/
  bitPosition : Nat
  /-- `cell_remaining` -/
  cellRemaining : Int
  /-- `zero_cell_run` -/
  zeroCellRun : Nat
  /-- `bit_count` -/
  bitCount : Nat
  /-- `bit_timing` -/
  bitTiming : UInt8
  /-- `is_user_write_protected` -/
  isUserWriteProtected : Bool
  /-- `is_data_loaded` -/
  isDataLoaded : Bool
  /-- `is_dirty` -/
  isDirty : Bool
  /-- `motor_enable_cycles` -/
  motorEnableCycles : Nat
  /-- `write_light_cycles` -/
  writeLightCycles : Nat
  /-- The cells of `track_bits`. -/
  trackBits : Nat → Bool
  /-- The bytes `track_bits` has. -/
  trackBytes : Nat
  /-- `driver` and `driver_instance` -/
  driver : Option Driver
  /-- Where the cells are from. -/
  origin : Option (Nat × Nat)

/-- `Disk()` -/
def Drive.empty : Drive where
  quarterTrack := 0
  bitPosition := 0
  cellRemaining := 0
  zeroCellRun := 0
  bitCount := 0
  bitTiming := diskDefaultBitTiming
  isUserWriteProtected := false
  isDataLoaded := false
  isDirty := false
  motorEnableCycles := 0
  writeLightCycles := 0
  trackBits := fun _ => false
  trackBytes := 0
  driver := none
  origin := none

namespace Drive

variable (d : Drive)

/-- `is_disk_write_protected` -/
def isDiskWriteProtected : Bool :=
  d.isUserWriteProtected ||
    d.driver.any fun m => m.hasInstance && (!m.canWrite || m.isWriteProtected)

/-- `medium_cell`: nothing, outside `track_bits`. -/
def mediumCell (index : Nat) : Option Bool :=
  if index / 8 < d.trackBytes then some (d.trackBits index) else none

/-- A cell of `track_bits` is set or cleared: nothing, outside it. -/
def setCell (index : Nat) (cell : Bool) : Option Drive :=
  if index / 8 < d.trackBytes then
    some { d with trackBits := Function.update d.trackBits index cell }
  else none

/-- `advance_medium` -/
def advanceMedium (cells : Nat) : Drive :=
  if d.bitCount = 0 then d
  else { d with bitPosition := (d.bitPosition + cells) % d.bitCount }

/-- `write_medium_byte` -/
def writeMediumByte (value : UInt8) : Option Drive :=
  [0x80, 0x40, 0x20, 0x10, 0x08, 0x04, 0x02, 0x01].foldlM
    (fun d (mask : UInt8) => do
      let d ← d.setCell d.bitPosition (value &&& mask ≠ 0)
      return d.advanceMedium 1) d

/-- The inner loop of `decode_medium_bytes`: the next cell that is set. Nothing,
if it is not found in `fuel` rounds. -/
def skipBlankCells : Nat → Nat → Option Nat
  | 0, cell => if cell < d.bitCount then none else some cell
  | fuel + 1, cell =>
    if cell < d.bitCount then do
      let set ← d.mediumCell cell
      if set then return cell else skipBlankCells fuel (cell + 1)
    else some cell

/-- The eight cells from `cell` on, as a byte. -/
def cellsToByte (cell : Nat) : Option UInt8 :=
  (List.range 8).foldlM
    (fun (value : UInt8) i => do
      let set ← d.mediumCell (cell + i)
      return (value <<< (1 : UInt8)) ||| (if set then 1 else 0)) 0

/-- The outer loop of `decode_medium_bytes`, with the bytes written so far.
Nothing, if it has not come to its end in `fuel` rounds. -/
def decodeLoop (maxCount : Nat) : Nat → Nat → List UInt8 → Option (List UInt8)
  | 0, cell, written =>
    if written.length < maxCount ∧ cell ≤ d.bitCount - 8 then none else some written
  | fuel + 1, cell, written =>
    if written.length < maxCount ∧ cell ≤ d.bitCount - 8 then do
      let cell ← d.skipBlankCells d.bitCount cell
      if cell > d.bitCount - 8 then return written
      let value ← d.cellsToByte cell
      decodeLoop maxCount fuel (cell + 8) (written ++ [value])
    else some written

/-- **`decode_medium_bytes`**. A round passes eight cells at least. -/
def decodeMediumBytes (maxCount : Nat) : Option (List UInt8) :=
  if d.bitCount < 8 then some [] else d.decodeLoop maxCount (d.bitCount + 1) 0 []

/-- **`encode_medium_bytes`** -/
def encodeMediumBytes (bytes : List UInt8) : Option Drive := do
  let d := { d with bitPosition := 0, bitCount := bytes.length * 8 }
  let d ← bytes.foldlM writeMediumByte d
  return { d with bitPosition := 0, cellRemaining := 0 }

/-- `rescale_head_angle` -/
def rescaleHeadAngle (previousPosition previousCount : Nat) : Drive :=
  if d.bitCount = 0 then { d with bitPosition := 0 }
  else if previousCount = 0 then d
  else
    let scaled := previousPosition * d.bitCount / previousCount
    { d with bitPosition := (scaled + 7) % d.bitCount }

/-- The drive with nothing under its head, which is how `read_track_from_driver`
first leaves it. -/
def clearTrack : Drive :=
  { d with
    bitPosition := 0
    cellRemaining := 0
    zeroCellRun := 0
    bitCount := 0
    bitTiming := diskDefaultBitTiming }

/-- `track_bits` is given the room that the longest medium needs. -/
def makeRoom : Drive := { d with trackBytes := max d.trackBytes trackBitBytes }

/-- What `read_track_bits` answers comes under the head. -/
def layTrack (image : Nat) (answer : TrackAnswer) : Drive :=
  let bitCount := if answer.ok then answer.bitCount else 0
  { d with
    trackBits := answer.bits
    bitCount
    bitTiming := answer.bitTiming
    isDataLoaded := bitCount ≠ 0
    origin := some (image, d.quarterTrack) }

/-- Where the head is: the image, and the quarter track. -/
def place : Option (Nat × Nat) := d.driver.map fun m => (m.image, d.quarterTrack)

/-- What `commit_write_cell` does to the drive. A cell written over another
quarter track than the others are from leaves no origin. -/
def commitCell (pulse : Bool) : Option Drive := do
  let index := (d.bitPosition + d.bitCount - 1) % d.bitCount
  let d ← d.setCell index pulse
  return { d with
    isDirty := true
    origin := if d.origin = d.place then d.origin else none }

/-- The next cell comes under the head. -/
def nextCell : Drive :=
  { d with
    bitPosition := (d.bitPosition + 1) % d.bitCount
    cellRemaining := d.cellRemaining + d.bitTiming.toNat }

end Drive

end LinApple.Disk
