import LinApple.Disk.Encoding
import LinApple.Disk.Passing
import Mathlib.Logic.Function.Iterate

/-!
# Finding a driver for an image

An image is read ahead, each registered driver is asked whether it knows what was read, and the
best of them is asked to open the image. That driver is given to the drive before it has opened
anything. If it then fails the drive has a driver and no instance: it says that a disk is in it,
and the driver is called for that disk. If no driver was found the drive is left empty and nothing
is ever called for it.

The host answers for the files: how a compressed image is unpacked and whether that fails, which
files open, how long they are and what can be read of them, also when less comes than was
announced. The drivers are a list of any length, each with a test of what was read ahead, a way
to open an image, and whether it can write. All of these are arbitrary. So an image is refused in
many ways, and the theorem has to be about every one of them.

A drive that is left empty is not one in which a field is null. It is one that says so, and for
which no driver is ever called without an instance, in any later run that leaves the drive alone
(`LeftEmpty`). The calls are counted by the model; the program has no such count, and where it
would call a driver without an instance, it calls the driver with a null pointer.

The card may be in any state that a run leads to, with a disk in the drive that is ejected first.
The condition (`Unclaimed`) is about the image and the drivers: either it does not come to asking
them, or none of them knows the image. Whether a driver that fails to open the image had reason to
is not asked.
-/

namespace LinApple.Disk

/-! ## What the loader asks for -/

/-- `ImageContainerError` -/
inductive ImageContainerError where
  | ok
  | invalidArgument
  | notFound
  | corrupt
  | tooLarge
  | io
deriving DecidableEq, Repr

/-- `DiskProbe` -/
inductive DiskProbe where
  | no
  | possible
  | definite
deriving DecidableEq, Repr

/-- `container_error_to_disk_error` -/
def containerErrorToDiskError : ImageContainerError → DiskError
  | .ok => .none
  | .invalidArgument => .invalidArgument
  | .notFound => .fileNotFound
  | .corrupt => .corrupt
  | .tooLarge => .unsupported
  | .io => .io

/-- What `image_container_prepare_compressed_path` gives. -/
structure Prepared where
  /-- What it answers. -/
  error : ImageContainerError
  /-- `load_path` -/
  loadPath : List UInt8
  /-- `is_temporary` -/
  isTemporary : Bool

/-- A file that has been opened for reading. -/
structure HostFile where
  /-- `raw_file_size`, which is negative if it cannot be told. -/
  rawFileSize : Int
  /-- What can be read from its beginning. -/
  contents : List UInt8

/-- **The host's files**, behind the containers they may be in. Files are functions of their paths
for the time of one insert; nothing is asked of how two of them are related. -/
structure LoaderHost where
  /-- `image_container_prepare_compressed_path` -/
  prepare : List UInt8 → Prepared
  /-- `fopen` -/
  openFile : List UInt8 → Option HostFile
  /-- `image_container_payload_name`, if it answers `image_container_ok`. -/
  payloadName : List UInt8 → Option (List UInt8)

/-- **`DiskFormatDriver`**, as far as the loader asks it. What `open` gives besides
its answer is the instance, if it makes one: what that says of being write
protected. -/
structure FormatDriver where
  /-- `disk_driver_cap_write` -/
  canWrite : Bool
  /-- `probe` of what was read ahead, the size of the image, and the extension. -/
  probe : List UInt8 → Nat → List UInt8 → DiskProbe
  /-- `open` of a path, at an offset, read only. -/
  openImage : List UInt8 → Nat → Bool → DiskError × Option Bool

/-! ## Reading ahead -/

/-- `probe_header_size` -/
def probeHeaderSize : Nat := 80 * 1024
/-- `extension_hint_size` -/
def extensionHintSize : Nat := 16

/-- A round of `crc16_xmodem` for one bit. -/
def crcBit (crc : UInt16) : UInt16 :=
  if crc &&& 0x8000 ≠ 0 then (crc <<< (1 : UInt16)) ^^^ 0x1021 else crc <<< (1 : UInt16)

/-- `crc16_xmodem` -/
def crc16Xmodem (data : List UInt8) : UInt16 :=
  data.foldl (fun crc byte => crcBit^[8] (crc ^^^ (byte.toUInt16 <<< (8 : UInt16)))) 0

/-- `image_container_detect_macbinary` -/
def detectMacbinary (header : List UInt8) (fileSize : Nat) : Nat :=
  let byteAt (i : Nat) : UInt8 := header.getD i 0
  if header.length < 128 ∨ fileSize ≤ 128 then 0
  else if byteAt 0 ≠ 0 then 0
  else if byteAt 1 = 0 ∨ byteAt 1 > 63 then 0
  else if byteAt 74 ≠ 0 ∨ byteAt 82 ≠ 0 then 0
  else if byteAt 122 ≠ 0x81 ∧ byteAt 122 ≠ 0x82 then 0
  else if byteAt 123 ≠ 0x81 then 0
  else if crc16Xmodem (header.take 124)
      ≠ ((byteAt 124).toUInt16 <<< (8 : UInt16)) ||| (byteAt 125).toUInt16 then 0
  else 128

/-- `tolower` -/
def tolower (c : UInt8) : UInt8 := if 0x41 ≤ c ∧ c ≤ 0x5A then c + 0x20 else c

/-- The extension of a name, from its last dot on, as far as there is room for it. -/
def extHint (payloadName : List UInt8) : List UInt8 :=
  let dot : UInt8 := 0x2E
  if dot ∈ payloadName then
    ((dot :: (payloadName.reverse.takeWhile (· ≠ dot)).reverse).take (extensionHintSize - 1)).map
      tolower
  else []

/-- **What the drivers are asked about**, and what the best of them is to open. -/
structure Probed where
  /-- `load_path` -/
  loadPath : List UInt8
  /-- `is_temporary` -/
  isTemporary : Bool
  /-- `file_offset` -/
  fileOffset : Nat
  /-- The bytes from `probe_ptr` on. -/
  header : List UInt8
  /-- The size of the image. -/
  fileSize : Nat
  /-- `ext_hint` -/
  extHint : List UInt8

/-- **`disk_loader_open`**, up to where the drivers are asked. -/
def readAhead (host : LoaderHost) (imagePath : List UInt8) : Except DiskError Probed :=
  let prepared := host.prepare imagePath
  if prepared.error ≠ .ok then .error (containerErrorToDiskError prepared.error)
  else
    match host.openFile prepared.loadPath with
    | none => .error .fileNotFound
    | some file =>
      if file.rawFileSize < 0 then .error .io
      else if file.rawFileSize > 0xFFFFFFFF then .error .unsupported
      else
        let fileSize := file.rawFileSize.toNat
        let header := file.contents.take probeHeaderSize
        let fileOffset := detectMacbinary header fileSize
        if fileOffset > fileSize then .error .corrupt
        else .ok {
          loadPath := prepared.loadPath
          isTemporary := prepared.isTemporary
          fileOffset
          header := header.drop fileOffset
          fileSize := fileSize - fileOffset
          extHint := extHint ((host.payloadName imagePath).getD []) }

/-! ## Asking the drivers -/

/-- A driver's answer about what was read ahead. -/
def FormatDriver.claims (driver : FormatDriver) (probed : Probed) : DiskProbe :=
  driver.probe probed.header probed.fileSize probed.extHint

/-- The loop of `find_best_driver`, with the first driver that may do so far. -/
def findBestDriverFrom (probed : Probed) (possibleDriver : Option FormatDriver) :
    List FormatDriver → Option FormatDriver
  | [] => possibleDriver
  | driver :: rest =>
    match driver.claims probed with
    | .definite => some driver
    | .possible => findBestDriverFrom probed (possibleDriver.or (some driver)) rest
    | .no => findBestDriverFrom probed possibleDriver rest

/-- **`find_best_driver`** -/
def findBestDriver (registry : List FormatDriver) (probed : Probed) : Option FormatDriver :=
  findBestDriverFrom probed none registry

/-- **`disk_loader_open`**: what it answers, `out_driver` and `out_instance`. -/
def diskLoaderOpen (host : LoaderHost) (registry : List FormatDriver) (imagePath : List UInt8) :
    DiskError × Option FormatDriver × Option Bool :=
  match readAhead host imagePath with
  | .error error => (error, none, none)
  | .ok probed =>
    match findBestDriver registry probed with
    | none => (.unsupportedFormat, none, none)
    | some driver =>
      let (error, inst) := driver.openImage probed.loadPath probed.fileOffset probed.isTemporary
      (error, some driver, inst)

/-- What a drive makes of it. -/
def openAnswer (opened : DiskError × Option FormatDriver × Option Bool) : OpenAnswer where
  ok := opened.1 = .none
  driver := opened.2.1.map fun driver =>
    { image := 0, hasInstance := opened.2.2.isSome, canWrite := driver.canWrite,
      isWriteProtected := opened.2.2.getD false }

/-- **No registered driver claims the image**, or the loader does not come so far
as to ask. -/
def Unclaimed (host : LoaderHost) (registry : List FormatDriver) (imagePath : List UInt8) :
    Prop :=
  ∀ probed, readAhead host imagePath = .ok probed → ∀ driver ∈ registry,
    driver.claims probed = .no

theorem findBestDriverFrom_eq_none_iff (probed : Probed) (registry : List FormatDriver)
    (possibleDriver : Option FormatDriver) :
    findBestDriverFrom probed possibleDriver registry = none
      ↔ possibleDriver = none ∧ ∀ driver ∈ registry, driver.claims probed = .no := by
  induction registry generalizing possibleDriver with
  | nil => exact ⟨fun h => ⟨h, fun _ hmem => nomatch hmem⟩, fun h => h.1⟩
  | cons driver rest ih =>
    unfold findBestDriverFrom
    rw [List.forall_mem_cons]
    cases hclaims : driver.claims probed with
    | no =>
      dsimp only
      rw [ih]
      exact and_congr_right fun _ => (and_iff_right rfl).symm
    | possible =>
      dsimp only
      rw [ih]
      refine iff_of_false (fun h => ?_) fun h => nomatch h.2.1
      cases possibleDriver with
      | none => exact nomatch h.1
      | some other => exact nomatch h.1
    | definite => exact iff_of_false (fun h => nomatch h) fun h => nomatch h.2.1

/-- **The loader gives out a driver** exactly if one claims the image. -/
theorem driver_openAnswer_eq_none_iff (host : LoaderHost) (registry : List FormatDriver)
    (imagePath : List UInt8) :
    (openAnswer (diskLoaderOpen host registry imagePath)).driver = none
      ↔ Unclaimed host registry imagePath := by
  unfold openAnswer diskLoaderOpen Unclaimed
  dsimp only
  rw [Option.map_eq_none_iff]
  cases hread : readAhead host imagePath with
  | error error => exact iff_of_true rfl fun _ h => nomatch h
  | ok probed =>
    have hfound := findBestDriverFrom_eq_none_iff probed registry none
    have hall : (∀ other, Except.ok probed = Except.ok (ε := DiskError) other →
        ∀ driver ∈ registry, driver.claims other = .no)
          ↔ ∀ driver ∈ registry, driver.claims probed = .no :=
      ⟨fun h => h probed rfl, fun h _ heq => Except.ok.inj heq ▸ h⟩
    rw [hall]
    refine Iff.trans ?_ (hfound.trans (and_iff_right rfl))
    show _ ↔ findBestDriver registry probed = none
    dsimp only
    cases findBestDriver registry probed with
    | none => exact iff_of_true rfl rfl
    | some driver => exact iff_of_false (Option.some_ne_none driver) (Option.some_ne_none driver)

/-! ## A drive without a driver -/

namespace DiskPeripheral

variable {D : Drivers} {p6 : UInt8 → UInt8} {dp dp' dp'' : DiskPeripheral}

/-- `drive0_loaded` or `drive1_loaded` of `get_peripheral_status`. -/
def isLoaded (dp : DiskPeripheral) (i : Fin 2) : Bool := (dp.drives i).driver.isSome

/-- **A drive without a driver stays so**, and no driver is called for it. -/
def LeavesEmpty (i : Fin 2) (dp dp' : DiskPeripheral) : Prop :=
  (dp.drives i).driver = none →
    (dp'.drives i).driver = none ∧ dp'.nullCalls i = dp.nullCalls i

namespace LeavesEmpty

variable {i : Fin 2}

theorem refl (i : Fin 2) (dp : DiskPeripheral) : LeavesEmpty i dp dp := fun h => ⟨h, rfl⟩

theorem trans (h : LeavesEmpty i dp dp') (h' : LeavesEmpty i dp' dp'') :
    LeavesEmpty i dp dp'' := fun hnone =>
  ⟨(h' (h hnone).1).1, (h' (h hnone).1).2.trans (h hnone).2⟩

/-- What is not looked at may change. -/
theorem of_eq (hdriver : (dp'.drives i).driver = (dp.drives i).driver)
    (hcalls : dp'.nullCalls = dp.nullCalls) : LeavesEmpty i dp dp' := fun h =>
  ⟨hdriver.trans h, congrFun hcalls i⟩

end LeavesEmpty

variable {i : Fin 2}

/-- A drive is changed that keeps its driver, or loses it. -/
theorem leavesEmpty_setDrive (dp : DiskPeripheral) {j : Fin 2} {d : Drive}
    (h : (dp.drives j).driver = none → d.driver = none) :
    LeavesEmpty i dp (dp.setDrive j d) := fun hnone => by
  refine ⟨?_, rfl⟩
  show (Function.update dp.drives j d i).driver = none
  by_cases hi : i = j
  · subst hi
    rw [Function.update_self]
    exact h hnone
  · rwa [Function.update_of_ne hi]

/-- A call for another drive is not one for this. -/
theorem countNull_of_ne {j : Fin 2} (h : i ≠ j) (m : Driver) :
    dp.countNull j m i = dp.nullCalls i := by
  unfold countNull
  split_ifs
  · rfl
  · exact Function.update_of_ne h _ _

theorem leavesEmpty_writeTrackToDriver (dp : DiskPeripheral) (j : Fin 2) :
    LeavesEmpty i dp (dp.writeTrackToDriver D j) := by
  unfold writeTrackToDriver
  dsimp only
  split
  · exact .refl i dp
  · split
    · exact .refl i dp
    · split
      · exact .refl i dp
      next m hm =>
        split
        · intro hnone
          have hne : i ≠ j := fun hij => by
            rw [← hij, hnone] at hm
            exact nomatch hm
          exact ⟨(leavesEmpty_setDrive (i := i) (j := j) dp
            (d := { dp.drives j with isDirty := !D.writes dp.calls }) id hnone).1,
            countNull_of_ne hne m⟩
        · exact .refl i dp

theorem leavesEmpty_flushTrack (dp : DiskPeripheral) (j : Fin 2) :
    LeavesEmpty i dp (dp.flushTrack D j) := by
  unfold flushTrack
  split_ifs
  · exact leavesEmpty_writeTrackToDriver dp j
  · exact .refl i dp

theorem driver_rescaleHeadAngle (d : Drive) (position count : Nat) :
    (d.rescaleHeadAngle position count).driver = d.driver := by
  obtain ⟨p, hp⟩ := d.rescaleHeadAngle_eq position count
  rw [hp]

theorem leavesEmpty_readTrackFromDriver (dp : DiskPeripheral) (j : Fin 2) :
    LeavesEmpty i dp (dp.readTrackFromDriver D j) := by
  unfold readTrackFromDriver
  dsimp only
  split
  · exact leavesEmpty_setDrive dp id
  · split
    · exact leavesEmpty_setDrive dp fun h => (driver_rescaleHeadAngle _ _ _).trans h
    next m hm =>
      intro hnone
      have hne : i ≠ j := fun hij => by
        have hj : (dp.drives j).driver = some m := hm
        rw [← hij, hnone] at hj
        exact nomatch hj
      refine ⟨?_, countNull_of_ne hne m⟩
      show (Function.update dp.drives j _ i).driver = none
      rwa [Function.update_of_ne hne]

theorem leavesEmpty_ejectDiskFromDrive (dp : DiskPeripheral) (j : Fin 2) :
    LeavesEmpty i dp (dp.ejectDiskFromDrive D j) := by
  unfold ejectDiskFromDrive
  split_ifs
  · exact leavesEmpty_setDrive dp fun _ => rfl
  · exact (leavesEmpty_flushTrack dp j).trans (leavesEmpty_setDrive _ fun _ => rfl)

/-- A disk is put into the other drive. -/
theorem leavesEmpty_insertDiskIntoDrive (dp : DiskPeripheral) {j : Fin 2} (h : j ≠ i)
    (writeProtected : Bool) (answer : OpenAnswer) :
    LeavesEmpty i dp (dp.insertDiskIntoDrive D j writeProtected answer).2 := by
  have hother : ∀ (dp : DiskPeripheral) (d : Drive), LeavesEmpty i dp
      { dp.setDrive j d with calls := dp.calls + 1 } := fun dp d =>
    .of_eq (congrArg Drive.driver (Function.update_of_ne h.symm ..)) rfl
  unfold insertDiskIntoDrive
  dsimp only
  split_ifs
  · exact (leavesEmpty_ejectDiskFromDrive dp j).trans (hother _ _)
  · exact hother dp _

/-! ### Accesses and time -/

theorem leavesEmpty_moveHeadTo (dp : DiskPeripheral) (quarterTrack : Nat) :
    LeavesEmpty i dp (dp.moveHeadTo D quarterTrack) := by
  unfold moveHeadTo
  split_ifs
  · exact .refl i dp
  · exact (leavesEmpty_flushTrack dp _).trans (leavesEmpty_setDrive _ id)

theorem leavesEmpty_settleHead (dp : DiskPeripheral) : LeavesEmpty i dp (dp.settleHead D) :=
  leavesEmpty_moveHeadTo dp _

theorem leavesEmpty_syncDriveMotorState (dp : DiskPeripheral) :
    LeavesEmpty i dp (dp.syncDriveMotorState D) := by
  obtain ⟨held, hheld⟩ : ∃ held, (if dp.isMotorOn then
      dp.setActive { dp.activeDrive with motorEnableCycles := motorOffDelayCycles }
    else dp) = held := ⟨_, rfl⟩
  have hstart : LeavesEmpty i dp held := by
    rw [← hheld]
    split_ifs
    · exact leavesEmpty_setDrive dp id
    · exact .refl i dp
  have hsettled : ∀ c : Prop, ∀ _ : Decidable c,
      LeavesEmpty i dp (if c then held.settleHead D else held) := fun c _ => by
    split_ifs
    · exact hstart.trans (leavesEmpty_settleHead held)
    · exact hstart
  unfold syncDriveMotorState
  dsimp only
  rw [hheld]
  split
  · exact hsettled _ _
  · exact hsettled _ _

theorem leavesEmpty_diskIoControlStepper (dp : DiskPeripheral) (addr : Nat) :
    LeavesEmpty i dp (dp.diskIoControlStepper D addr) := by
  have hstart : LeavesEmpty i dp ({ dp with stepperPhaseMask := dp.strobed addr }.settleHead D) :=
    leavesEmpty_settleHead { dp with stepperPhaseMask := dp.strobed addr }
  unfold diskIoControlStepper
  dsimp only
  generalize { dp with stepperPhaseMask := dp.strobed addr }.settleHead D = settled at hstart ⊢
  split_ifs
  · exact .refl i dp
  · exact hstart
  · have hback := leavesEmpty_moveHeadTo (D := D) (i := i) settled
      settled.quarterTrackBeforeRelease
    exact hstart.trans (hback.trans (.of_eq rfl rfl))
  · exact hstart.trans (.of_eq rfl rfl)

theorem leavesEmpty_diskIoEnableDrive (dp : DiskPeripheral) (addr : Nat) :
    LeavesEmpty i dp (dp.diskIoEnableDrive D addr) := by
  unfold diskIoEnableDrive
  dsimp only
  split_ifs
  · refine LeavesEmpty.trans ?_ (leavesEmpty_syncDriveMotorState _)
    exact (leavesEmpty_flushTrack (D := D) dp _).trans (leavesEmpty_setDrive _ id)
  · exact leavesEmpty_syncDriveMotorState dp

theorem leavesEmpty_diskIoModeSwitch (dp : DiskPeripheral) (addr : Nat)
    (dataValue : Option UInt8) : LeavesEmpty i dp (dp.diskIoModeSwitch addr dataValue) := by
  unfold diskIoModeSwitch
  dsimp only
  split_ifs
  · exact .refl i dp
  · exact leavesEmpty_setDrive dp id
  · exact .refl i dp

theorem leavesEmpty_diskIoHandlers (dp : DiskPeripheral) (addr : Nat)
    (dataValue : Option UInt8) : LeavesEmpty i dp (dp.diskIoHandlers D addr dataValue) := by
  unfold diskIoHandlers
  dsimp only
  split_ifs
  · exact leavesEmpty_diskIoControlStepper dp addr
  · exact leavesEmpty_syncDriveMotorState { dp with isMotorOn := addr % 2 = 1 }
  · exact leavesEmpty_diskIoEnableDrive dp addr
  · exact leavesEmpty_diskIoModeSwitch dp addr dataValue

theorem Passes.leavesEmpty (h : dp.Passes dp') : LeavesEmpty i dp dp' :=
  .of_eq (h.drives i).driver (congrArg DiskTrace.nullCalls h.toDiskTrace)

/-- **A track is read for a drive only if it has a driver.** -/
theorem yields_leavesEmpty_sync (dp : DiskPeripheral) (executedCycles : Nat) :
    Yields (dp.syncSequencerToCycle D p6 executedCycles) (LeavesEmpty i dp) := by
  refine yields_syncSequencerToCycle (fun _ => .refl i dp) (fun _ _ => .refl i dp)
    fun _ _ dp' hpasses => LeavesEmpty.trans ?_ hpasses.leavesEmpty
  unfold readUnlessLoaded
  split_ifs
  · exact leavesEmpty_readTrackFromDriver (dp.marked executedCycles) _
  · exact .refl i dp

theorem leavesEmpty_updateDrivePhysics (dp : DiskPeripheral) (j : Fin 2) (elapsedCycles : Nat) :
    LeavesEmpty i dp (dp.updateDrivePhysics D j elapsedCycles) := by
  have hspun : LeavesEmpty i dp (dp.spinDown D j elapsedCycles) := by
    unfold spinDown
    dsimp only
    split
    · split
      · have hstopped := leavesEmpty_setDrive (i := i) dp
          (d := { dp.drives j with motorEnableCycles := 0 }) id
        exact fun hnone => leavesEmpty_flushTrack (D := D) _ j (hstopped hnone).1
      · exact leavesEmpty_setDrive dp id
    · exact .refl i dp
  refine hspun.trans ?_
  unfold updateDrivePhysics fadeWriteLight
  dsimp only
  split
  · exact leavesEmpty_setDrive _ id
  · exact leavesEmpty_setDrive _ id

theorem yields_leavesEmpty_diskAbiThink (dp : DiskPeripheral) (elapsedCycles : Nat) :
    Yields (dp.diskAbiThink D p6 elapsedCycles) (LeavesEmpty i dp) := by
  unfold diskAbiThink
  split_ifs
  · exact .pure (.refl i dp)
  · refine (yields_leavesEmpty_sync (i := i) dp elapsedCycles).bind fun dp' hsync => .pure ?_
    exact hsync.trans (LeavesEmpty.trans
      (leavesEmpty_updateDrivePhysics { dp' with synced := 0 } 0 elapsedCycles)
      (leavesEmpty_updateDrivePhysics _ 1 elapsedCycles))

theorem leavesEmpty_initializePeripheral (dp : DiskPeripheral) :
    LeavesEmpty i dp (dp.initializePeripheral D) :=
  (leavesEmpty_flushTrack dp 0).trans (leavesEmpty_flushTrack _ 1)

end DiskPeripheral

/-! ## A failed insert -/

/-- An operation puts no disk into a drive. -/
def DiskOp.Spares (i : Fin 2) : DiskOp → Prop
  | .insert j _ _ => j ≠ i
  | .swap | .load _ _ => False
  | _ => True

namespace DiskPeripheral

variable {D : Drivers} {p6 : UInt8 → UInt8} {dp : DiskPeripheral} {i : Fin 2}

/-- **No driver is called for an empty drive**, whatever is done but putting a disk
into it. -/
theorem yields_leavesEmpty_perform (dp : DiskPeripheral) {op : DiskOp} (hop : op.Spares i) :
    Yields (dp.perform D p6 op) (LeavesEmpty i dp) := by
  cases op with
  | read addr executedCycles floating =>
    refine Yields.map (P := fun r => LeavesEmpty i dp r.2) ?_ fun _ hr => hr
    exact (yields_leavesEmpty_sync dp executedCycles).bind fun dp' hsync =>
      .pure (hsync.trans (leavesEmpty_diskIoHandlers dp' addr none))
  | write addr dataValue executedCycles =>
    exact (yields_leavesEmpty_sync dp executedCycles).bind fun dp' hsync =>
      .pure (hsync.trans (leavesEmpty_diskIoHandlers dp' addr (some dataValue)))
  | think elapsedCycles => exact yields_leavesEmpty_diskAbiThink dp elapsedCycles
  | insert j writeProtected answer =>
    exact .pure (leavesEmpty_insertDiskIntoDrive dp hop writeProtected answer)
  | eject j => exact .pure (leavesEmpty_ejectDiskFromDrive dp j)
  | swap => exact hop.elim
  | setProtect j writeProtected => exact .pure (leavesEmpty_setDrive dp id)
  | reset => exact .pure (leavesEmpty_initializePeripheral dp)
  | load s answers => exact hop.elim
  | save => exact Yields.map (P := fun _ => True) (fun _ _ => trivial) fun _ _ => .refl i dp

theorem yields_leavesEmpty_run (dp : DiskPeripheral) {ops : List DiskOp}
    (hops : ∀ op ∈ ops, op.Spares i) : Yields (dp.run D p6 ops) (LeavesEmpty i dp) := by
  induction ops generalizing dp with
  | nil => exact .pure (.refl i dp)
  | cons op ops ih =>
    unfold run
    rw [List.foldlM_cons]
    exact (yields_leavesEmpty_perform dp (hops op List.mem_cons_self)).bind fun dp' hstep =>
      (ih dp' fun op' hmem => hops op' (List.mem_cons_of_mem _ hmem)).mono fun _ hrest =>
        hstep.trans hrest

/-- **`insert_disk_into_drive`**, with what the loader makes of the path. -/
def insertImage (D : Drivers) (dp : DiskPeripheral) (host : LoaderHost)
    (registry : List FormatDriver) (imagePath : List UInt8) (i : Fin 2) (writeProtected : Bool) :
    Bool × DiskPeripheral :=
  dp.insertDiskIntoDrive D i writeProtected
    (openAnswer (diskLoaderOpen host registry imagePath))

/-- **A drive that was left empty**: it says so, and no driver is called for it
without an instance, whatever is done next but putting a disk into it. -/
structure LeftEmpty (D : Drivers) (p6 : UInt8 → UInt8) (dp : DiskPeripheral) (i : Fin 2) :
    Prop where
  /-- It says that no disk is in it. -/
  notLoaded : dp.isLoaded i = false
  /-- No driver is called without an instance. -/
  silent : ∀ later : List DiskOp, (∀ op ∈ later, op.Spares i) →
    Ends (dp.run D p6 later) fun dp' => dp'.nullCalls i = dp.nullCalls i

theorem driver_insertImage (host : LoaderHost) (registry : List FormatDriver)
    (imagePath : List UInt8) (writeProtected : Bool) :
    ((dp.insertImage D host registry imagePath i writeProtected).2.drives i).driver = none
      ↔ Unclaimed host registry imagePath := by
  unfold insertImage insertDiskIntoDrive
  dsimp only
  show (Function.update (β := fun _ => Drive) _ i _ i).driver = none ↔ _
  rw [Function.update_self]
  dsimp only
  rw [Option.map_eq_none_iff]
  exact driver_openAnswer_eq_none_iff host registry imagePath

/-- **An insert that fails leaves the drive empty** exactly if the loader comes to no driver, from
any state that a run leads to. The condition can be told from the files, the registered drivers
and the path, without the card. A drive is empty if no later run calls a driver for it
(`LeftEmpty`), so it is not enough that it says so at once. -/
theorem run_leftEmpty_iff (hD : D.Contract) (p6 : UInt8 → UInt8) (trace : DiskTrace)
    (image1 image2 : Option OpenAnswer) (ops : List DiskOp) :
    Ends ((diskAbiInit D trace image1 image2).run D p6 ops) fun dp =>
      ∀ (host : LoaderHost) (registry : List FormatDriver) (imagePath : List UInt8) (i : Fin 2)
        (writeProtected : Bool),
        (dp.insertImage D host registry imagePath i writeProtected).1 = true →
        (LeftEmpty D p6 (dp.insertImage D host registry imagePath i writeProtected).2 i
          ↔ Unclaimed host registry imagePath) := by
  refine ((sound_diskAbiInit trace image1 image2).run hD ops).mono
    fun dp h host registry imagePath i writeProtected _ => ?_
  have hsound : (dp.insertImage D host registry imagePath i writeProtected).2.Sound :=
    h.insertDiskIntoDrive i writeProtected _
  have hdriver := @driver_insertImage D dp i host registry imagePath writeProtected
  generalize (dp.insertImage D host registry imagePath i writeProtected).2 = inserted
    at hsound hdriver ⊢
  refine Iff.trans ⟨fun hleft => ?_, fun hnone => ⟨?_, fun later hlater => ?_⟩⟩ hdriver
  · exact Option.isNone_iff_eq_none.1 (by
      rw [← Option.not_isSome, show (inserted.drives i).driver.isSome = false from hleft.notLoaded]
      rfl)
  · show (inserted.drives i).driver.isSome = false
    rw [hnone]
    rfl
  · exact ((hsound.run hD later).and_yields (yields_leavesEmpty_run inserted hlater)).mono
      fun dp' hboth => (hboth.2 hnone).2

/-- Drivers of which nothing can be read. -/
def unreadableDrivers : Drivers where
  reads _ _ := ⟨false, fun _ => false, 0, diskDefaultBitTiming⟩
  writes _ := false

theorem contract_unreadableDrivers : unreadableDrivers.Contract where
  bitCount_le _ _ := Nat.zero_le _
  bitTiming_pos _ _ := (by decide : 0 < diskDefaultBitTiming)

/-- A file of 1536 bytes that begins as a WOZ 2 image does and has no chunks. -/
def chunklessHost : LoaderHost where
  prepare path := ⟨.ok, path, false⟩
  openFile _ := some ⟨1536, [0x57, 0x4F, 0x5A, 0x32, 0xFF, 0x0A, 0x0D, 0x0A]
    ++ List.replicate 1528 0⟩
  payloadName path := some path

/-- A driver that goes by how such an image begins, and finds no chunks in it. -/
def chunkDriver : FormatDriver where
  canWrite := false
  probe header fileSize _ :=
    if fileSize ≥ 1536 ∧ header.take 8 = [0x57, 0x4F, 0x5A, 0x32, 0xFF, 0x0A, 0x0D, 0x0A] then
      .definite
    else .no
  openImage _ _ _ := (.corrupt, none)

/-- The card with nothing in its drives, and a file no driver claims. -/
theorem run_leftEmpty_iff_unreadable :
    Ends ((diskAbiInit unreadableDrivers .new none none).run unreadableDrivers id []) fun dp =>
      ∀ (host : LoaderHost) (registry : List FormatDriver) (imagePath : List UInt8) (i : Fin 2)
        (writeProtected : Bool),
        (dp.insertImage unreadableDrivers host registry imagePath i writeProtected).1 = true →
        (LeftEmpty unreadableDrivers id
            (dp.insertImage unreadableDrivers host registry imagePath i writeProtected).2 i
          ↔ Unclaimed host registry imagePath) :=
  run_leftEmpty_iff contract_unreadableDrivers id .new none none []

/-- **A drive that says it has a disk although the insert failed**: an image that
cannot be opened is put into the first drive, which is then turned on and read. The
driver is called without an instance. -/
theorem not_leftEmpty_chunkless :
    let dp := (diskAbiInit unreadableDrivers .new none none).insertImage unreadableDrivers
      chunklessHost [chunkDriver] [0x41] 0 false
    dp.1 = true ∧ dp.2.isLoaded 0 = true
      ∧ (Ends (dp.2.run unreadableDrivers id [.read 0x9 4 0, .read 0xC 8 0]) fun dp' =>
        dp'.nullCalls 0 = dp.2.nullCalls 0 + 1)
      ∧ ¬ LeftEmpty unreadableDrivers id dp.2 0 := by
  have hloaded : ((diskAbiInit unreadableDrivers .new none none).insertImage unreadableDrivers
      chunklessHost [chunkDriver] [0x41] 0 false).2.isLoaded 0 = true := by
    decide +kernel
  have hcalls : (((diskAbiInit unreadableDrivers .new none none).insertImage unreadableDrivers
      chunklessHost [chunkDriver] [0x41] 0 false).2.run unreadableDrivers id
        [.read 0x9 4 0, .read 0xC 8 0]).map (·.nullCalls 0) = some 1 := by
    decide +kernel
  obtain ⟨dp', hrun, hcount⟩ := Option.map_eq_some_iff.1 hcalls
  refine ⟨by decide +kernel, hloaded, ⟨dp', hrun, hcount⟩, fun hleft => ?_⟩
  exact Bool.false_ne_true (hleft.notLoaded.symm.trans hloaded)

end DiskPeripheral

end LinApple.Disk
