import LinApple.Harddisk.Controller

/-!
# The activity of the hard disk

The controller is busy while a block is read out, and tells the host when a read
starts and when it ends. A reset and a save state change the phase and tell
nobody.
-/

namespace LinApple.Harddisk

/-! ## The commands of the host -/

/-- `Harddisk()` -/
def HarddiskDrive.empty : HarddiskDrive := ⟨none, false⟩

/-- `harddisk_abi_init`, in a slot that has been told of an activity. -/
def harddiskAbiInit (activity : Bool) : HarddiskPeripheral where
  drives := fun _ => .empty
  buffer := fun _ => 0
  block := 0
  dataIndex := 0
  blockCount := 0
  unit := 0
  command := 0
  result := prodosOk
  dataPhase := .idle
  bufferPoisoned := false
  activity

/-- A drive is changed. -/
def HarddiskPeripheral.setDrive (card : HarddiskPeripheral) (i : Fin 2) (drive : HarddiskDrive) :
    HarddiskPeripheral :=
  { card with drives := Function.update card.drives i drive }

/-- `eject_harddisk_from_drive` -/
def ejectHarddiskFromDrive (card : HarddiskPeripheral) (i : Fin 2) : HarddiskPeripheral :=
  card.setDrive i .empty

/-- `insert_harddisk_into_drive`, with the image that is found, if one is. -/
def insertHarddiskIntoDrive (card : HarddiskPeripheral) (i : Fin 2)
    (image : Option BlockDiskImage) (writeProtected : Bool) : HarddiskPeripheral :=
  let card := if (card.drives i).image.isSome then ejectHarddiskFromDrive card i else card
  card.setDrive i ⟨image, writeProtected⟩

/-- `harddisk_cmd_set_protect` -/
def setProtect (card : HarddiskPeripheral) (i : Fin 2) (writeProtected : Bool) :
    HarddiskPeripheral :=
  card.setDrive i { card.drives i with userWriteProtected := writeProtected }

/-- `harddisk_abi_shutdown`, up to where the card is freed. -/
def harddiskAbiShutdown (card : HarddiskPeripheral) : HarddiskPeripheral :=
  ejectHarddiskFromDrive (ejectHarddiskFromDrive card 0) 1

/-- What is done to the card. -/
inductive HarddiskOp where
  /-- The guest accesses a register, the card is reset, a frame is loaded. -/
  | act (a : Action)
  /-- `harddisk_cmd_insert` -/
  | insert (i : Fin 2) (image : Option BlockDiskImage) (writeProtected : Bool)
  /-- `harddisk_cmd_eject` -/
  | eject (i : Fin 2)
  /-- `harddisk_cmd_set_protect` -/
  | setProtect (i : Fin 2) (writeProtected : Bool)

/-- What an operation does to the card. -/
def HarddiskPeripheral.perform (card : HarddiskPeripheral) : HarddiskOp → HarddiskPeripheral
  | .act a => controller.next card a
  | .insert i image writeProtected => insertHarddiskIntoDrive card i image writeProtected
  | .eject i => ejectHarddiskFromDrive card i
  | .setProtect i writeProtected => LinApple.Harddisk.setProtect card i writeProtected

namespace HarddiskPeripheral

variable {card : HarddiskPeripheral}

/-! ## What is told -/

/-- **What the host was told is true.** -/
def Truthful (card : HarddiskPeripheral) : Prop :=
  card.activity = true ↔ card.dataPhase = .readOut

/-- The buffer, the registers and the drives do not come into it. -/
theorem Truthful.of_eq {card' : HarddiskPeripheral} (h : card.Truthful)
    (hactivity : card'.activity = card.activity) (hphase : card'.dataPhase = card.dataPhase) :
    card'.Truthful := by
  unfold Truthful
  rw [hactivity, hphase]
  exact h

/-- Nothing is read out, and the host knows. -/
theorem truthful_quiet (hactivity : card.activity = false) (hphase : card.dataPhase ≠ .readOut) :
    card.Truthful :=
  iff_of_false (hactivity ▸ Bool.false_ne_true) hphase

theorem Truthful.endDataPhase (h : card.Truthful) : (endDataPhase card).Truthful := by
  unfold Truthful LinApple.Harddisk.endDataPhase
  dsimp only
  refine iff_of_false ?_ (by decide)
  split_ifs with hphase
  · decide
  · exact fun hactive => hphase (h.mp hactive)

theorem Truthful.executeRead (h : card.Truthful) (image : BlockDiskImage) (t : Transfer) :
    (executeRead card image t).2.Truthful := by
  unfold LinApple.Harddisk.executeRead
  split
  · exact iff_of_true rfl rfl
  · exact h.of_eq rfl rfl

theorem Truthful.executeWrite (h : card.Truthful) (image : BlockDiskImage) (t : Transfer) :
    (executeWrite card image t).2.Truthful := by
  unfold LinApple.Harddisk.executeWrite
  split_ifs
  · exact h.of_eq rfl rfl
  · split
    · exact truthful_quiet rfl nofun
    · exact h.of_eq rfl rfl

theorem Truthful.executeAdmitted (h : card.Truthful) (image : BlockDiskImage) (t : Transfer) :
    (executeAdmitted card image t).2.Truthful := by
  unfold LinApple.Harddisk.executeAdmitted
  split_ifs
  · exact h.of_eq rfl rfl
  · exact h.executeRead image t
  · exact h.executeWrite image t
  · exact h
  · exact h

theorem Truthful.executeCommand (h : card.Truthful) (t : Transfer) :
    (executeCommand card t).2.Truthful := by
  unfold LinApple.Harddisk.executeCommand
  split
  · exact h
  · split
    · exact h
    · dsimp only
      split_ifs
      · exact h
      · exact h
      · exact h.executeAdmitted _ t

theorem Truthful.harddiskIoCommand (h : card.Truthful) (isWrite : Bool) (dataValue : UInt8)
    (t : Transfer) : (harddiskIoCommand card isWrite dataValue t).2.Truthful := by
  unfold LinApple.Harddisk.harddiskIoCommand
  split_ifs
  · exact h
  · have hcommand : Truthful { card with command := dataValue } := h
    exact (hcommand.executeCommand t).of_eq rfl rfl

theorem Truthful.pushData (h : card.Truthful) (dataValue : UInt8) :
    (pushData card dataValue).Truthful := by
  unfold LinApple.Harddisk.pushData
  dsimp only
  split_ifs
  · exact h.of_eq rfl rfl
  · refine truthful_quiet (Bool.eq_false_iff.mpr fun hactive => ?_) nofun
    exact absurd (h.endDataPhase.mp hactive) nofun

theorem Truthful.takeData (h : card.Truthful) : (takeData card).2.Truthful := by
  have hnext : Truthful { card with dataIndex := card.dataIndex + 1 } := h
  unfold LinApple.Harddisk.takeData
  dsimp only
  split_ifs
  · exact hnext.endDataPhase
  · exact hnext

theorem Truthful.harddiskIoData (h : card.Truthful) (isWrite : Bool) (dataValue : UInt8) :
    (harddiskIoData card isWrite dataValue).2.Truthful := by
  unfold LinApple.Harddisk.harddiskIoData
  split_ifs
  · exact h.pushData dataValue
  · exact h.takeData

/-- **An access of a register tells the host what it does.** -/
theorem Truthful.harddiskIoHandlers (h : card.Truthful) (reg : Fin 16) (isWrite : Bool)
    (dataValue floating : UInt8) (t : Transfer) :
    (harddiskIoHandlers reg card isWrite dataValue floating t).2.Truthful := by
  unfold LinApple.Harddisk.harddiskIoHandlers
  split
  · exact h.harddiskIoCommand isWrite dataValue t
  · unfold harddiskIoUnit
    split_ifs
    · exact h
    · have hunit : Truthful { card with unit := dataValue, dataIndex := 0 } := h
      exact hunit.endDataPhase
  · unfold harddiskIoBlockLow
    split_ifs <;> exact h
  · unfold harddiskIoBlockHigh
    split_ifs <;> exact h
  · exact h.harddiskIoData isWrite dataValue
  · exact h
  · exact h
  · exact h

/-- **Nothing starts or stops a read behind the host's back.** -/
def Announced (card : HarddiskPeripheral) : HarddiskOp → Prop
  | .act .reset => card.dataPhase ≠ .readOut
  | .act (.loadState frame _) => frame.version = harddiskStateVersion →
    frame.structSize = harddiskSaveStateSize → ∀ phase,
      DataPhase.ofUInt8? frame.dataPhase = some phase →
        (card.dataPhase = .readOut ↔ phase = .readOut)
  | _ => True

theorem Truthful.harddiskAbiLoadState (h : card.Truthful) (frame : HarddiskSaveState)
    (t : Transfer) (hop : card.Announced (.act (.loadState frame t))) :
    (harddiskAbiLoadState card frame t).2.Truthful := by
  unfold LinApple.Harddisk.harddiskAbiLoadState
  split_ifs with hrefused
  · exact h
  · obtain ⟨hversion, hsize⟩ := not_or.mp hrefused
    split
    · exact h
    next phase hphase =>
      exact h.trans (hop (not_not.mp hversion) (not_not.mp hsize) phase hphase)

/-- **What an announced operation leaves true.** -/
theorem Truthful.perform (h : card.Truthful) {op : HarddiskOp} (hop : card.Announced op) :
    (card.perform op).Truthful := by
  cases op with
  | act a =>
    cases a with
    | read reg floating => exact h.harddiskIoHandlers reg false 0 floating _
    | write reg dataValue t => exact h.harddiskIoHandlers reg true dataValue 0 t
    | reset => exact truthful_quiet (Bool.eq_false_iff.mpr fun hactive => hop (h.mp hactive)) nofun
    | loadState frame t => exact h.harddiskAbiLoadState frame t hop
  | insert i image writeProtected =>
    unfold HarddiskPeripheral.perform insertHarddiskIntoDrive
    dsimp only
    split_ifs
    · exact h.of_eq rfl rfl
    · exact h.of_eq rfl rfl
  | eject i => exact h.of_eq rfl rfl
  | setProtect i writeProtected => exact h.of_eq rfl rfl

end HarddiskPeripheral

end LinApple.Harddisk
