import LinApple.Harddisk.Image
import LinApple.Lib.Machine
import Mathlib.Logic.Function.Basic
import Mathlib.Algebra.GroupWithZero.Nat

/-!
# The hard disk controller

The card the guest sees: sixteen registers, one of which takes a command,
one a unit, two a block number and one the bytes of a 512-byte buffer. It is
a machine whose actions are the guest's accesses, resets and the loading of
a saved state, and whose only output is the byte a read returns. How the
host answers the calls that move a block is part of the action.
-/

namespace LinApple.Harddisk

open ByteMap

/-! ## The card -/

/-- `harddisk_prodos_ok` -/
def prodosOk : UInt8 := 0x00
/-- `harddisk_prodos_io_error` -/
def prodosIoError : UInt8 := 0x27
/-- `harddisk_prodos_no_device` -/
def prodosNoDevice : UInt8 := 0x28
/-- `harddisk_prodos_write_protected` -/
def prodosWriteProtected : UInt8 := 0x2B

instance : NeZero blockSize := ⟨by decide⟩

/-- `prodos_cmd_status` -/
def prodosCmdStatus : UInt8 := 0x00
/-- `prodos_cmd_read` -/
def prodosCmdRead : UInt8 := 0x01
/-- `prodos_cmd_write` -/
def prodosCmdWrite : UInt8 := 0x02
/-- `prodos_cmd_format` -/
def prodosCmdFormat : UInt8 := 0x03

/-- `max_block_count` -/
def maxBlockCount : Nat := 0xFFFF

/-- `HarddiskDataPhase` -/
inductive DataPhase where
  | idle
  | readOut
  | writeIn
deriving DecidableEq, Repr

/-- `Harddisk`, a drive: it is loaded if it has an image. -/
structure HarddiskDrive where
  /-- The driver's instance of the image. -/
  image : Option BlockDiskImage
  /-- `user_write_protected` -/
  userWriteProtected : Bool

/-- `is_write_protected` -/
def HarddiskDrive.isWriteProtected (drive : HarddiskDrive) : Bool :=
  drive.userWriteProtected || drive.image.any (·.hostReadOnly)

/-- **`HarddiskPeripheral`**, as the guest's accesses use it. The images of the two drives are taken
to be different files: what is written through one drive does not show in the other. -/
structure HarddiskPeripheral where
  /-- `drives` -/
  drives : Fin 2 → HarddiskDrive
  /-- `buffer`, of `blockSize` bytes. -/
  buffer : Nat → UInt8
  /-- `block` -/
  block : UInt16
  /-- `data_index`, which stays in the buffer. -/
  dataIndex : Fin blockSize
  /-- `block_count` -/
  blockCount : UInt16
  /-- `unit` -/
  unit : UInt8
  /-- `command` -/
  command : UInt8
  /-- `result` -/
  result : UInt8
  /-- `data_phase` -/
  dataPhase : DataPhase
  /-- `buffer_poisoned` -/
  bufferPoisoned : Bool
  /-- The last activity `notify_activity_changed` told the host of. -/
  activity : Bool

/-- The drive a unit byte names: its `unit_drive_bit`. -/
def driveOfUnit (unit : UInt8) : Fin 2 := if unit &&& 0x80 ≠ 0 then 1 else 0

/-- The index of `selected_drive`. -/
def HarddiskPeripheral.selected (card : HarddiskPeripheral) : Fin 2 :=
  driveOfUnit card.unit

/-- `selected_drive` -/
def HarddiskPeripheral.selectedDrive (card : HarddiskPeripheral) :
    HarddiskDrive :=
  card.drives card.selected

/-- `end_data_phase` -/
def endDataPhase (card : HarddiskPeripheral) : HarddiskPeripheral :=
  { card with
    activity := if card.dataPhase = .readOut then false else card.activity
    dataPhase := .idle }

/-- The card after the image of the selected drive has been written to. -/
def HarddiskPeripheral.withImage (card : HarddiskPeripheral)
    (image : BlockDiskImage) : HarddiskPeripheral :=
  { card with
    drives := Function.update card.drives card.selected
      { card.selectedDrive with image := some image } }

/-! ## Commands -/

/-- `prodos_cmd_read` in `execute_command`. -/
def executeRead (card : HarddiskPeripheral) (image : BlockDiskImage)
    (t : Transfer) : UInt8 × HarddiskPeripheral :=
  match blockDiskImageReadBlock image t card.block.toNat card.buffer with
  | (.none, buffer) =>
    (prodosOk, { card with
      buffer, dataIndex := 0, dataPhase := .readOut, activity := true })
  | (_, buffer) => (prodosIoError, { card with buffer })

/-- `prodos_cmd_write` in `execute_command`. A poisoned buffer is not
written, once. -/
def executeWrite (card : HarddiskPeripheral) (image : BlockDiskImage)
    (t : Transfer) : UInt8 × HarddiskPeripheral :=
  if card.bufferPoisoned then
    (prodosIoError, { card with bufferPoisoned := false })
  else
    match blockDiskImageWriteBlock image t card.block.toNat card.buffer with
    | (.none, image) =>
      (prodosOk, { card.withImage image with
        dataIndex := 0, dataPhase := .idle, activity := false })
    | (_, image) => (prodosIoError, card.withImage image)

/-- The switch of `execute_command`. -/
def executeAdmitted (card : HarddiskPeripheral) (image : BlockDiskImage)
    (t : Transfer) : UInt8 × HarddiskPeripheral :=
  if card.command = prodosCmdStatus then
    (prodosOk, { card with
      blockCount := (min image.totalBlocks maxBlockCount).toUInt16 })
  else if card.command = prodosCmdRead then executeRead card image t
  else if card.command = prodosCmdWrite then executeWrite card image t
  else if card.command = prodosCmdFormat then (prodosOk, card)
  else (prodosIoError, card)

/-- `execute_command` -/
def executeCommand (card : HarddiskPeripheral) (t : Transfer) :
    UInt8 × HarddiskPeripheral :=
  if card.command > prodosCmdFormat then (prodosIoError, card)
  else
    match card.selectedDrive.image with
    | none => (prodosNoDevice, card)
    | some image =>
      let writesMedium := card.command = prodosCmdWrite
        ∨ card.command = prodosCmdFormat
      let addressesBlock := card.command = prodosCmdRead
        ∨ card.command = prodosCmdWrite
      if writesMedium ∧ card.selectedDrive.isWriteProtected then
        (prodosWriteProtected, card)
      else if addressesBlock ∧ card.block.toNat ≥ image.totalBlocks then
        (prodosIoError, card)
      else executeAdmitted card image t

/-! ## Registers -/

/-- `harddisk_io_command` -/
def harddiskIoCommand (card : HarddiskPeripheral) (isWrite : Bool)
    (dataValue : UInt8) (t : Transfer) : UInt8 × HarddiskPeripheral :=
  if !isWrite then (card.result, card)
  else
    let (result, card) := executeCommand { card with command := dataValue } t
    (0, { card with result })

/-- `harddisk_io_unit` -/
def harddiskIoUnit (card : HarddiskPeripheral) (isWrite : Bool)
    (dataValue : UInt8) : UInt8 × HarddiskPeripheral :=
  if !isWrite then (card.unit, card)
  else (0, endDataPhase { card with unit := dataValue, dataIndex := 0 })

/-- `harddisk_io_block_low` -/
def harddiskIoBlockLow (card : HarddiskPeripheral) (isWrite : Bool)
    (dataValue : UInt8) : UInt8 × HarddiskPeripheral :=
  if !isWrite then ((card.block &&& 0xFF).toUInt8, card)
  else (0, { card with block := (card.block &&& (0xFF00 : UInt16)) ||| dataValue.toUInt16 })

/-- `harddisk_io_block_high` -/
def harddiskIoBlockHigh (card : HarddiskPeripheral) (isWrite : Bool)
    (dataValue : UInt8) : UInt8 × HarddiskPeripheral :=
  if !isWrite then ((card.block >>> 8).toUInt8, card)
  else (0, { card with
    block := (card.block &&& (0x00FF : UInt16)) ||| (dataValue.toUInt16 <<< 8) })

/-- A byte pushed into the buffer by `harddisk_io_data`. -/
def pushData (card : HarddiskPeripheral) (dataValue : UInt8) :
    HarddiskPeripheral :=
  let card' := if card.dataPhase = .writeIn then card
    else { endDataPhase card with dataPhase := .writeIn }
  { card' with
    dataIndex := card.dataIndex + 1
    buffer := Function.update card.buffer card.dataIndex dataValue }

/-- A byte taken from the buffer by `harddisk_io_data`. -/
def takeData (card : HarddiskPeripheral) : UInt8 × HarddiskPeripheral :=
  let card' := { card with dataIndex := card.dataIndex + 1 }
  (card.buffer card.dataIndex,
    if card'.dataPhase = .readOut ∧ card'.dataIndex = 0 then
      endDataPhase card' else card')

/-- `harddisk_io_data` -/
def harddiskIoData (card : HarddiskPeripheral) (isWrite : Bool)
    (dataValue : UInt8) : UInt8 × HarddiskPeripheral :=
  if isWrite then (0, pushData card dataValue) else takeData card

/-- `harddisk_io_count_low` -/
def harddiskIoCountLow (card : HarddiskPeripheral) (isWrite : Bool) :
    UInt8 × HarddiskPeripheral :=
  (if isWrite then 0 else (card.blockCount &&& 0xFF).toUInt8, card)

/-- `harddisk_io_count_high` -/
def harddiskIoCountHigh (card : HarddiskPeripheral) (isWrite : Bool) :
    UInt8 × HarddiskPeripheral :=
  (if isWrite then 0 else (card.blockCount >>> 8).toUInt8, card)

/-- `harddisk_io_floating` -/
def harddiskIoFloating (card : HarddiskPeripheral) (isWrite : Bool)
    (floating : UInt8) : UInt8 × HarddiskPeripheral :=
  (if isWrite then 0 else floating, card)

/-- `regs::command` -/
def regCommand : Fin 16 := 0x0
/-- `regs::unit` -/
def regUnit : Fin 16 := 0x1
/-- `regs::block_low` -/
def regBlockLow : Fin 16 := 0x2
/-- `regs::block_high` -/
def regBlockHigh : Fin 16 := 0x3
/-- `regs::data` -/
def regData : Fin 16 := 0x4

/-- `harddisk_io_handlers`, by the low four bits of the address. -/
def harddiskIoHandlers (reg : Fin 16) (card : HarddiskPeripheral)
    (isWrite : Bool) (dataValue floating : UInt8) (t : Transfer) :
    UInt8 × HarddiskPeripheral :=
  match reg with
  | 0x0 => harddiskIoCommand card isWrite dataValue t
  | 0x1 => harddiskIoUnit card isWrite dataValue
  | 0x2 => harddiskIoBlockLow card isWrite dataValue
  | 0x3 => harddiskIoBlockHigh card isWrite dataValue
  | 0x4 => harddiskIoData card isWrite dataValue
  | 0x5 => harddiskIoCountLow card isWrite
  | 0x6 => harddiskIoCountHigh card isWrite
  | _ => harddiskIoFloating card isWrite floating

/-! ## Power-on and saved states -/

/-- `power_on`, which `harddisk_abi_reset` calls. -/
def powerOn (card : HarddiskPeripheral) : HarddiskPeripheral :=
  { card with
    unit := 0
    command := 0
    result := prodosOk
    block := 0
    dataIndex := 0
    blockCount := 0
    dataPhase := .idle
    bufferPoisoned := false }

/-- `HarddiskSaveState` -/
structure HarddiskSaveState where
  /-- `version` -/
  version : UInt32
  /-- `struct_size` -/
  structSize : UInt32
  /-- `unit` -/
  unit : UInt8
  /-- `command` -/
  command : UInt8
  /-- `result` -/
  result : UInt8
  /-- `data_phase` -/
  dataPhase : UInt8
  /-- `block` -/
  block : UInt16
  /-- `data_index` -/
  dataIndex : UInt16
  /-- `block_count` -/
  blockCount : UInt16
deriving DecidableEq, Repr

/-- `HARDDISK_STATE_VERSION` -/
def harddiskStateVersion : UInt32 := 1
/-- `harddisk_save_state_size` -/
def harddiskSaveStateSize : UInt32 := 20

/-- The phase a byte of a saved state names. -/
def DataPhase.ofUInt8? (phase : UInt8) : Option DataPhase :=
  if phase = 0 then some .idle
  else if phase = 1 then some .readOut
  else if phase = 2 then some .writeIn
  else none

/-- The buffer of a card whose registers a frame has been loaded into. A
read in flight is read again; a failure leaves zeros. -/
def reloadBuffer (card : HarddiskPeripheral) (t : Transfer) : Nat → UInt8 :=
  match card.dataPhase, card.selectedDrive.image with
  | .readOut, some image =>
    match blockDiskImageReadBlock image t card.block.toNat (fun _ => 0) with
    | (.none, buffer) => buffer
    | (_, _) => fun _ => 0
  | _, _ => fun _ => 0

/-- `harddisk_abi_load_state` of a frame of the right size; a frame that is
refused leaves the card alone. A write in flight poisons the buffer. -/
def harddiskAbiLoadState (card : HarddiskPeripheral)
    (frame : HarddiskSaveState) (t : Transfer) : Bool × HarddiskPeripheral :=
  if frame.version ≠ harddiskStateVersion
      ∨ frame.structSize ≠ harddiskSaveStateSize then (false, card)
  else
    match DataPhase.ofUInt8? frame.dataPhase with
    | none => (false, card)
    | some phase =>
      let card := { card with
        unit := frame.unit
        command := frame.command
        result := frame.result
        block := frame.block
        dataIndex := Fin.ofNat blockSize frame.dataIndex.toNat
        blockCount := frame.blockCount
        dataPhase := phase }
      (true, { card with
        buffer := reloadBuffer card t
        bufferPoisoned := phase = .writeIn })

/-! ## The machine -/

/-- What can happen to the card: the guest accesses a register, the machine
is reset, a saved state is loaded. -/
inductive Action where
  /-- `harddisk_io_read`; the byte is the one on the floating bus. -/
  | read (reg : Fin 16) (floating : UInt8)
  /-- `harddisk_io_write` -/
  | write (reg : Fin 16) (dataValue : UInt8) (t : Transfer)
  /-- `harddisk_abi_reset` -/
  | reset
  /-- `harddisk_abi_load_state` -/
  | loadState (frame : HarddiskSaveState) (t : Transfer)

/-- A transfer no call of which is made. -/
def noTransfer : Transfer := ⟨fun _ => ⟨false, 0⟩, false⟩

/-- What a read of a register returns, and the card after it. -/
def ioRead (card : HarddiskPeripheral) (reg : Fin 16) (floating : UInt8) :
    UInt8 × HarddiskPeripheral :=
  harddiskIoHandlers reg card false 0 floating noTransfer

/-- The card after a write to a register. -/
def ioWrite (card : HarddiskPeripheral) (reg : Fin 16) (dataValue : UInt8)
    (t : Transfer) : HarddiskPeripheral :=
  (harddiskIoHandlers reg card true dataValue 0 t).2

/-- **The controller as a machine**, which shows the bytes the guest
reads. -/
def controller : Machine HarddiskPeripheral Action UInt8 where
  next card
    | .read reg floating => (ioRead card reg floating).2
    | .write reg dataValue t => ioWrite card reg dataValue t
    | .reset => powerOn card
    | .loadState frame t => (harddiskAbiLoadState card frame t).2
  out card
    | .read reg floating => some (ioRead card reg floating).1
    | _ => none

end LinApple.Harddisk
