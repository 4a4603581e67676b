import LinApple.Disk.Loader
import LinApple.Disk.Revolution
import LinApple.Disk.WriteBack

/-!
# Saving a card and loading it again

The record of a drive has room for a path of 255 bytes, for 6656 nibbles and for
a head that is no further than 6656 bytes from the index hole. What does not fit is
cut off, or makes the track that was written to be dropped; a nibble that reaches
over the hole is dropped in any case, and a drive without a disk has its head put
back on the first track.

What the data register reads is not always what the buffer of a drive holds: a drive
whose data is not loaded reads its track from the image first, as soon as it turns
(`turning`). This matters twice. A record without nibbles leaves the loaded drive so,
and then the image is read where the track that was written to should be; and a drive
whose head has left a track that the driver would not take is so before it is saved,
and what the record carries are the cells of the track it has left. The statements
therefore compare what is read once the drives turn, and they do it for any answers
the image of a drive may give, before the save and after the load: the claim that the
same files are there is the case in which the two are the same. `restores_iff` says
exactly what is restored.
-/

namespace LinApple.Disk

open ByteMap

/-! ## What is read once a drive turns -/

/-- Drivers that answer a call for a quarter track always alike. -/
def Drivers.answering (answer : Nat → TrackAnswer) : Drivers where
  reads _ := answer
  writes _ := true

/-- **The drive as it turns**: where its data is not loaded, its track is read from the image
before a cell of it passes, which is how `run_sequencer_cycles` begins. -/
def DiskPeripheral.turning (D : Drivers) (dp : DiskPeripheral) (i : Fin 2) : Drive :=
  (if !(dp.drives i).isDataLoaded && (dp.drives i).driver.isSome then dp.readTrackFromDriver D i
    else dp).drives i

/-- What a revolution of a track of an image brings past the data register: nothing, if the track
cannot be read. -/
def TrackAnswer.revolution (a : TrackAnswer) : List UInt8 :=
  let bitCount := if a.ok then a.bitCount else 0
  (readNibbles (bitCount + 7) (peeks (fun i => a.bits (i % bitCount)) 0 (bitCount + 7))).2

/-- The nibbles a record carries of a track that was written to: those that end before the index
hole, as many as there is room for. -/
def Drive.carried (d : Drive) : List UInt8 := (readNibbles nibblesPerTrack d.cells).2

/-! ## Cards with paths -/

/-- **A card that knows where its images are from.** A save state has the paths of its images and
not the images, so what a restored card reads depends on what the host finds there. -/
structure DiskCard extends DiskPeripheral where
  /-- `full_path` of each drive. -/
  fullPath : Fin 2 → List UInt8

/-- `DiskSavedState` with the paths in it. -/
structure DiskSavedCard where
  /-- What is besides the paths. -/
  state : DiskSavedState
  /-- `full_path` of each drive, with what is behind it in its field. -/
  fullPath : Fin 2 → List UInt8

/-- `max_disk_full_path_len` -/
def maxDiskFullPathLen : Nat := 255

/-- `copy_string_to_buffer`, into a buffer of zeros. -/
def copyStringToBuffer (src : List UInt8) (capacity : Nat) : List UInt8 :=
  src.take (capacity - 1) ++ List.replicate (capacity - (src.take (capacity - 1)).length) 0

/-- What stands before the first zero of a field. -/
def safePath (field : List UInt8) : List UInt8 := field.takeWhile (· ≠ 0)

namespace DiskCard

variable (D : Drivers) (host : LoaderHost) (registry : List FormatDriver)

/-- **`disk_state_v1_write`** -/
def save (c : DiskCard) : Option DiskSavedCard := do
  let state ← c.diskStateV1Write
  return ⟨state, fun i => copyStringToBuffer (c.fullPath i) (maxDiskFullPathLen + 1)⟩

/-- What comes of opening the image a record names. -/
def reopened (saved : DiskSavedCard) (i : Fin 2) : OpenAnswer :=
  openAnswer (diskLoaderOpen host registry (safePath (saved.fullPath i)))

/-- **`disk_state_v1_read`** -/
def load (c : DiskCard) (saved : DiskSavedCard) : Option DiskCard := do
  let dp ← c.diskStateV1Read D saved.state (reopened host registry saved)
  return {
    toDiskPeripheral := dp
    fullPath := fun i =>
      if saved.state.isRefused then c.fullPath i
      else if (reopened host registry saved i).ok then safePath (saved.fullPath i) else [] }

/-- **The same image files are there**: what the loader finds under the path of a
drive is what the drive has, a drive without a path has no image, and there is no
file without a name. -/
structure Present (c : DiskCard) : Prop where
  /-- Paths are strings of C. -/
  noZero : ∀ i, 0 ∉ c.fullPath i
  /-- The image of a drive is found again. -/
  mounted : ∀ i, c.fullPath i ≠ [] → ∃ (m : Driver) (image : Nat),
    openAnswer (diskLoaderOpen host registry (c.fullPath i)) = ⟨true, some m⟩
      ∧ (c.drives i).driver = some { m with image := image }
  /-- A drive without a path has no image. -/
  unmounted : ∀ i, c.fullPath i = [] → ∀ m, (c.drives i).driver = some m → m.hasInstance = false
  /-- No file has an empty name. -/
  noName : ∃ error, error ≠ .none ∧ readAhead host [] = .error error

/-- **What is to be restored of a drive**, with what its image answers where it is read before the
save and after the load. -/
structure Restores (before after : Nat → TrackAnswer) (c loaded : DiskCard) (i : Fin 2) : Prop where
  /-- The path of its image. -/
  fullPath : loaded.fullPath i = c.fullPath i
  /-- The half track its head is on. -/
  halfTrack : (loaded.drives i).quarterTrack / 2 = (c.drives i).quarterTrack / 2
  /-- Whether it may be written to. -/
  writeProtected : (loaded.drives i).isDiskWriteProtected = (c.drives i).isDiskWriteProtected
  /-- A track that has not been written back is still to be. -/
  isDirty : (c.drives i).isDirty = true → (loaded.drives i).isDirty = true
  /-- The data register reads the same nibbles in a revolution of it. -/
  nibbles : (c.drives i).isDirty = true →
    (loaded.turning (.answering after) i).revolution
      = (c.turning (.answering before) i).revolution

/-- **What the record of a drive has room for.** The last three conditions are about a track that
has not been written back. Two of them are for the cases in which the image is read: they compare
its tracks with what is under the head, and ask for nothing of the card that was loaded. -/
structure Fits (before after : Nat → TrackAnswer) (c : DiskCard) (i : Fin 2) : Prop where
  /-- The path is short enough. -/
  fullPath : (c.fullPath i).length ≤ maxDiskFullPathLen
  /-- Without a disk, the head is on the first half track. -/
  halfTrack : c.fullPath i = [] → (c.drives i).quarterTrack < 2
  /-- A track that has not been written back is that of a disk, and the head is not too
  far from the index hole. -/
  dirty : (c.drives i).isDirty = true → c.fullPath i ≠ []
    ∧ (c.drives i).bitPosition / 8 ≤ nibblesPerTrack
  /-- Where nibbles are carried, they are all of the track: none reaches over the index hole, and
  there are not too many. -/
  whole : (c.drives i).isDirty = true → (c.drives i).isDataLoaded = true →
    (c.drives i).carried ≠ [] →
      ¬ (c.drives i).Straddles ∧ (c.drives i).revolution.length ≤ nibblesPerTrack
  /-- Where the head has left the track they are of, they are those of the image where it is. -/
  moved : (c.drives i).isDirty = true → (c.drives i).isDataLoaded = false →
    (c.drives i).carried ≠ [] →
      (c.drives i).carried = (before (c.drives i).quarterTrack).revolution
  /-- Where none is carried, the image holds, on the half track, what is read of the track. -/
  blank : (c.drives i).isDirty = true → (c.drives i).carried = [] →
    (after ((c.drives i).quarterTrack / 2 * 2)).revolution
      = if (c.drives i).isDataLoaded then (c.drives i).revolution
        else (before (c.drives i).quarterTrack).revolution

end DiskCard

/-! ## The record of a drive -/

/-- The nibbles a record carries. -/
def DiskDriveState.nibbles (ds : DiskDriveState) : List UInt8 :=
  (List.range ds.nibbleCount.toNat).map ds.trackBuffer

/-- **What a record says of a drive that is saved.** -/
structure Drive.SavedAs (d : Drive) (ds : DiskDriveState) : Prop where
  /-- The half track. -/
  safePhase : ds.safePhase = d.quarterTrack / 2
  /-- The notch. -/
  writeProtected : (ds.userWriteProtected ≠ 0) ↔ d.isUserWriteProtected = true
  /-- Whether the track is still to be written back. -/
  isDirty : (ds.isDirty ≠ 0) ↔ d.isDirty = true
  /-- Whether the record is out of bounds. -/
  isOutOfBounds : ds.isOutOfBounds = true ↔ nibblesPerTrack < d.bitPosition / 8
  /-- The nibbles of such a track. -/
  nibbles : d.isDirty = true → ds.nibbles = d.carried
  /-- There is room for them. -/
  length : ds.nibbles.length ≤ nibblesPerTrack

/-- The record of a drive, with the nibbles that were read out. -/
def Drive.record (d : Drive) (nibbles : List UInt8) : DiskDriveState where
  track := d.quarterTrack / 4
  phase := d.quarterTrack / 2
  currentBytePos := d.bitPosition / 8
  userWriteProtected := if d.isUserWriteProtected then 1 else 0
  isDataLoaded := if d.isDirty then 1 else 0
  isDirty := if d.isDirty then 1 else 0
  spinningTicks := UInt32.ofNat d.motorEnableCycles
  writeLightTicks := UInt32.ofNat d.writeLightCycles
  nibbleCount := nibbles.length
  trackBuffer := fun i => nibbles.getD i 0

theorem Drive.nibbles_record (d : Drive) (nibbles : List UInt8) :
    (d.record nibbles).nibbles = nibbles := by
  show (List.range nibbles.length).map (fun i => nibbles.getD i 0) = nibbles
  refine List.ext_getElem (by rw [List.length_map, List.length_range]) fun i _ hi => ?_
  rw [List.getElem_map, List.getElem_range, List.getD_eq_getElem _ _ hi]

/-- A drive is saved in a record. -/
theorem Drive.Sound.save_eq {d : Drive} (h : d.Sound) : d.save = some (d.record
    (if d.isDirty then d.carried else [])) := by
  unfold Drive.save
  cases hdirty : d.isDirty with
  | false =>
    unfold Drive.record
    rw [hdirty]
    rfl
  | true =>
    unfold Drive.record
    rw [h.decodeMediumBytes_eq, hdirty]
    rfl

/-- **A drive is saved.** -/
theorem Drive.Sound.ends_save {d : Drive} (h : d.Sound) : Ends d.save d.SavedAs := by
  have hquarter := h.quarterTrack_lt
  unfold quarterTracksPerDisk at hquarter
  rw [h.save_eq]
  generalize hnibbles : (if d.isDirty then d.carried else []) = nibbles
  have hlength : nibbles.length ≤ nibblesPerTrack := by
    rw [← hnibbles]
    split_ifs
    · unfold Drive.carried
      rw [readNibbles_take d.cells (Nat.le_refl _), List.length_take]
      exact Nat.min_le_left _ _
    · exact Nat.zero_le _
  refine .pure ⟨?_, ?_, ?_, ?_, fun hdirty => ?_, ?_⟩
  · have hphase : (d.record nibbles).phase = (d.quarterTrack / 2 : Nat) := rfl
    unfold DiskDriveState.safePhase maxDiskPhases
    rw [hphase, if_pos (by omega)]
    exact Int.toNat_natCast _
  · show (if d.isUserWriteProtected then (1 : UInt8) else 0) ≠ 0 ↔ _
    cases d.isUserWriteProtected <;> decide
  · show (if d.isDirty then (1 : UInt8) else 0) ≠ 0 ↔ _
    cases d.isDirty <;> decide
  · unfold DiskDriveState.isOutOfBounds tracksPerDisk maxDiskPhases Drive.record
    simp only [Bool.or_eq_true, decide_eq_true_eq]
    unfold nibblesPerTrack at *
    omega
  · rw [d.nibbles_record, ← hnibbles, if_pos hdirty]
  · rw [d.nibbles_record]
    exact hlength

/-- **What a drive is after a record has been loaded.** -/
structure Drive.LoadedFrom (d : Drive) (ds : DiskDriveState) (answer : OpenAnswer) : Prop where
  /-- The notch. -/
  writeProtected : d.isUserWriteProtected = decide (ds.userWriteProtected ≠ 0)
  /-- The driver of its image. -/
  driver : ∃ image, d.driver = answer.driver.map ({ · with image := image })
  /-- Where the head is. -/
  quarterTrack : d.quarterTrack = if answer.ok then ds.safePhase * 2 else 0
  /-- Whether the track is still to be written back. -/
  isDirty : d.isDirty = (answer.ok && decide (ds.isDirty ≠ 0 ∧ ds.isOutOfBounds = false))
  /-- The cells of such a track. -/
  cells : d.isDirty = true → d.cells = ds.nibbles.flatMap byteCells
  /-- Its data is loaded, if there is any. -/
  isDataLoaded : d.isDirty = true → (d.isDataLoaded = true ↔ ds.nibbles ≠ [])

/-- The notch of a drive that is saved and loaded is what it was. -/
theorem Drive.LoadedFrom.notch_of_saved {d d' : Drive} {ds : DiskDriveState} {answer : OpenAnswer}
    (h : d'.LoadedFrom ds answer) (hsaved : d.SavedAs ds) :
    d'.isUserWriteProtected = d.isUserWriteProtected := by
  rw [h.writeProtected, Bool.eq_iff_iff, decide_eq_true_iff]
  exact hsaved.writeProtected

namespace DiskPeripheral

variable {D : Drivers} {dp : DiskPeripheral}

/-- A drive that is put in is new, and the other one is left alone. -/
theorem insertDiskIntoDrive_eq (D : Drivers) (dp : DiskPeripheral) (i : Fin 2)
    (writeProtected : Bool) (answer : OpenAnswer) :
    ∃ image, ((dp.ejectDiskFromDrive D i).insertDiskIntoDrive D i writeProtected answer).2.drives
      = Function.update dp.drives i { Drive.empty with
        isUserWriteProtected := writeProtected
        driver := answer.driver.map ({ · with image := image }) } := by
  have hejected : ∀ d, Function.update (dp.ejectDiskFromDrive D i).drives i d
      = Function.update dp.drives i d := fun d => by
    funext j
    by_cases hj : j = i
    · rw [hj, Function.update_self, Function.update_self]
    · rw [Function.update_of_ne hj, Function.update_of_ne hj]
      unfold ejectDiskFromDrive
      split_ifs
      · exact Function.update_of_ne hj ..
      · exact (Function.update_of_ne hj ..).trans (drives_flushTrack_of_ne dp hj)
  have hnone : ((dp.ejectDiskFromDrive D i).drives i).driver = none := by
    unfold ejectDiskFromDrive
    split_ifs
    · show (Function.update (β := fun _ => Drive) _ i .empty i).driver = none
      rw [Function.update_self]
      rfl
    · show (Function.update (β := fun _ => Drive) _ i .empty i).driver = none
      rw [Function.update_self]
      rfl
  unfold insertDiskIntoDrive
  dsimp only
  rw [if_neg (not_not.2 hnone)]
  exact ⟨_, hejected _⟩

/-- Reading a track keeps the notch, the driver and what is still to be written. -/
theorem drives_readTrackFromDriver (D : Drivers) (dp : DiskPeripheral) (i : Fin 2) :
    ∃ d, (dp.readTrackFromDriver D i).drives = Function.update dp.drives i d
      ∧ d.quarterTrack = (dp.drives i).quarterTrack
      ∧ d.isUserWriteProtected = (dp.drives i).isUserWriteProtected
      ∧ d.driver = (dp.drives i).driver ∧ d.isDirty = (dp.drives i).isDirty := by
  unfold readTrackFromDriver
  dsimp only
  split
  · exact ⟨_, rfl, rfl, rfl, rfl, rfl⟩
  · split
    · obtain ⟨p, hp⟩ := (dp.drives i).clearTrack.makeRoom.rescaleHeadAngle_eq
        (dp.drives i).bitPosition (dp.drives i).bitCount
      rw [hp]
      exact ⟨_, rfl, rfl, rfl, rfl, rfl⟩
    next m _ =>
      obtain ⟨p, hp⟩ := ((dp.drives i).clearTrack.makeRoom.layTrack m.image
        (D.reads dp.calls (dp.drives i).clearTrack.makeRoom.quarterTrack)).rescaleHeadAngle_eq
          (dp.drives i).bitPosition (dp.drives i).bitCount
      rw [hp]
      exact ⟨_, rfl, rfl, rfl, rfl, rfl⟩

end DiskPeripheral

/-- **The cells of a record are restored.** -/
theorem Drive.yields_placed (d : Drive) (hroom : trackBitBytes ≤ d.trackBytes)
    {ds : DiskDriveState}
    (hlength : ds.nibbles.length ≤ nibblesPerTrack) :
    Yields (d.restoreCells ds) fun d' =>
      (d'.placeHead ds).isUserWriteProtected = d.isUserWriteProtected
        ∧ (d'.placeHead ds).driver = d.driver
        ∧ (d'.placeHead ds).quarterTrack = d.quarterTrack
        ∧ (d'.placeHead ds).isDirty = decide (ds.isDirty ≠ 0 ∧ ds.isOutOfBounds = false)
        ∧ ((d'.placeHead ds).isDirty = true →
          (d'.placeHead ds).cells = ds.nibbles.flatMap byteCells)
        ∧ ((d'.placeHead ds).isDirty = true →
          ((d'.placeHead ds).isDataLoaded = true ↔ ds.nibbles ≠ [])) := by
  unfold Drive.restoreCells
  split_ifs with hdirty
  · have hfit : ds.nibbles.length * 8 ≤ d.trackBytes * 8 := by
      unfold nibblesPerTrack at hlength
      unfold trackBitBytes maxTrackBits at hroom
      omega
    have hencoded := encodeMediumBytes_eq (d := { d with isDirty := true }) hfit
    have hcells : peeks (pokes d.trackBits 0 (ds.nibbles.flatMap byteCells)) 0
        (ds.nibbles.length * 8) = ds.nibbles.flatMap byteCells := by
      have hholds := holds_pokes d.trackBits (ds.nibbles.flatMap byteCells) 0
      rw [holds_iff_peeks, length_flatMap_byteCells] at hholds
      exact hholds
    have hloaded : decide (ds.nibbles.length * 8 ≠ 0) = true ↔ ds.nibbles ≠ [] := by
      rw [decide_eq_true_iff, Ne, Nat.mul_eq_zero, List.length_eq_zero_iff]
      exact not_congr (or_iff_left (by decide))
    unfold DiskDriveState.nibbles at hencoded hcells hloaded
    rw [hencoded]
    exact .pure ⟨rfl, rfl, rfl, (decide_eq_true hdirty).symm, fun _ => hcells, fun _ => hloaded⟩
  · exact .pure ⟨rfl, rfl, rfl, (decide_eq_false hdirty).symm,
      fun hno => absurd hno Bool.false_ne_true, fun hno => absurd hno Bool.false_ne_true⟩

namespace DiskPeripheral

variable {D : Drivers} {dp : DiskPeripheral}

/-- **The track of a drive whose head has been placed** is read, and nothing of the other drive. -/
theorem Sound.readTrackFromDriver_placed (h : dp.Sound) (i : Fin 2) (ds : DiskDriveState) :
    ∃ d, ((dp.setDrive i { dp.drives i with
        quarterTrack := ds.safePhase * 2
        motorEnableCycles := ds.spinningTicks.toNat
        writeLightCycles := ds.writeLightTicks.toNat }).readTrackFromDriver D i).drives
        = Function.update dp.drives i d
      ∧ trackBitBytes ≤ d.trackBytes ∧ d.quarterTrack = ds.safePhase * 2
      ∧ d.isUserWriteProtected = (dp.drives i).isUserWriteProtected
      ∧ d.driver = (dp.drives i).driver := by
  generalize hplace : ({ dp.drives i with
    quarterTrack := ds.safePhase * 2
    motorEnableCycles := ds.spinningTicks.toNat
    writeLightCycles := ds.writeLightTicks.toNat } : Drive) = placed
  have hplaced : (dp.setDrive i placed).Sound := by
    have hd := h.drives i
    have hphase := ds.safePhase_lt
    rw [← hplace]
    refine h.setDrive ⟨?_, hd.2, hd.3, hd.4, hd.5⟩
    unfold maxDiskPhases at hphase
    show ds.safePhase * 2 < 160
    omega
  have hset : (dp.setDrive i placed).drives i = placed := Function.update_self ..
  have hroom := trackBytes_readTrackFromDriver (D := D) hplaced i
  obtain ⟨d, hread, hquarter, hnotch, hdriver, -⟩ :=
    drives_readTrackFromDriver D (dp.setDrive i placed) i
  rw [hread, Function.update_self] at hroom
  rw [hset, ← hplace] at hquarter hnotch hdriver
  refine ⟨d, hread.trans ?_, hroom, hquarter, hnotch, hdriver⟩
  show Function.update (Function.update dp.drives i placed) i d = _
  exact Function.update_idem ..

/-- **A record is loaded into a drive**, and the other one is left alone. -/
theorem Sound.yields_loadDrive (h : dp.Sound) (i : Fin 2) {ds : DiskDriveState}
    (hlength : ds.nibbles.length ≤ nibblesPerTrack) (answer : OpenAnswer) :
    Yields (dp.loadDrive D i ds answer) fun dp' =>
      (dp'.drives i).LoadedFrom ds answer ∧ ∀ j, j ≠ i → dp'.drives j = dp.drives j := by
  obtain ⟨image, hinserted⟩ := insertDiskIntoDrive_eq D dp i
    (decide (ds.userWriteProtected ≠ 0)) answer
  have hsound := (h.ejectDiskFromDrive (D := D) i).insertDiskIntoDrive (D := D) i
    (decide (ds.userWriteProtected ≠ 0)) answer
  have hfailed : ((dp.ejectDiskFromDrive D i).insertDiskIntoDrive D i
      (decide (ds.userWriteProtected ≠ 0)) answer).1 = !answer.ok := rfl
  unfold DiskPeripheral.loadDrive
  dsimp only
  rw [hfailed]
  generalize ((dp.ejectDiskFromDrive D i).insertDiskIntoDrive D i
    (decide (ds.userWriteProtected ≠ 0)) answer).2 = inserted at hinserted hsound ⊢
  have hnew : inserted.drives i = { Drive.empty with
      isUserWriteProtected := decide (ds.userWriteProtected ≠ 0)
      driver := answer.driver.map ({ · with image := image }) } := by
    rw [hinserted, Function.update_self]
  have hothers : ∀ j, j ≠ i → inserted.drives j = dp.drives j := fun j hj => by
    rw [hinserted, Function.update_of_ne hj]
  -- without an image the drive stays empty, and the saved track is dropped with it
  cases hok : answer.ok with
  | false =>
    refine .pure ⟨?_, hothers⟩
    rw [hnew]
    exact ⟨rfl, ⟨image, rfl⟩, by rw [hok]; rfl, by rw [hok]; rfl,
      fun hno => absurd hno Bool.false_ne_true, fun hno => absurd hno Bool.false_ne_true⟩
  | true =>
    obtain ⟨d, hread, hroom, hquarter, hnotch, hdriver⟩ :=
      hsound.readTrackFromDriver_placed (D := D) i ds
    rw [hnew] at hnotch hdriver
    show Yields (Option.bind _ _) _
    rw [hread, Function.update_self]
    refine (d.yields_placed hroom hlength).bind fun d' ⟨hnotch', hdriver', hquarter',
      hdirty', hcells', hloaded'⟩ => .pure ⟨?_, fun j hj => ?_⟩
    · show (Function.update (β := fun _ => Drive) _ i (d'.placeHead ds) i).LoadedFrom ds answer
      rw [Function.update_self]
      refine ⟨hnotch'.trans hnotch, ⟨image, hdriver'.trans hdriver⟩, ?_, ?_, hcells', hloaded'⟩
      · rw [hok, if_pos rfl]
        exact hquarter'.trans hquarter
      · rw [hok, Bool.true_and]
        exact hdirty'
    · show Function.update (β := fun _ => Drive) _ i _ j = _
      rw [Function.update_of_ne hj, hread, Function.update_of_ne hj]
      exact hothers j hj

end DiskPeripheral

/-! ## The track of a drive that turns -/

namespace DiskPeripheral

variable {D : Drivers} {dp : DiskPeripheral} {i : Fin 2}

/-- A drive whose data is loaded turns as it is. -/
theorem turning_of_loaded (h : (dp.drives i).isDataLoaded = true) :
    dp.turning D i = dp.drives i := by
  unfold turning
  rw [h]
  rfl

/-- **A drive whose data is not loaded** has the track of its image under its head. -/
theorem revolution_turning_of_not_loaded {answer : Nat → TrackAnswer} {m : Driver}
    (hloaded : (dp.drives i).isDataLoaded = false) (hdriver : (dp.drives i).driver = some m)
    (hquarter : (dp.drives i).quarterTrack < quarterTracksPerDisk) :
    (dp.turning (.answering answer) i).revolution
      = (answer (dp.drives i).quarterTrack).revolution := by
  have hread : (dp.turning (.answering answer) i)
      = ((dp.drives i).clearTrack.makeRoom.layTrack m.image
          (answer (dp.drives i).quarterTrack)).rescaleHeadAngle
            (dp.drives i).bitPosition (dp.drives i).bitCount := by
    unfold turning
    rw [hloaded, hdriver]
    show (dp.readTrackFromDriver _ i).drives i = _
    unfold readTrackFromDriver
    dsimp only
    have hin : ¬ (dp.drives i).clearTrack.quarterTrack ≥ quarterTracksPerDisk :=
      Nat.not_le.2 hquarter
    have hkept : (dp.drives i).clearTrack.makeRoom.driver = some m := hdriver
    rw [if_neg hin, hkept]
    exact Function.update_self ..
  obtain ⟨p, hp⟩ := ((dp.drives i).clearTrack.makeRoom.layTrack m.image
    (answer (dp.drives i).quarterTrack)).rescaleHeadAngle_eq
      (dp.drives i).bitPosition (dp.drives i).bitCount
  rw [hread, hp]
  rfl

/-- **What is read once a drive turns**: its own track if its data is loaded, and else that of its
image. -/
theorem revolution_turning {answer : Nat → TrackAnswer} {m : Driver}
    (hdriver : (dp.drives i).driver = some m)
    (hquarter : (dp.drives i).quarterTrack < quarterTracksPerDisk) :
    (dp.turning (.answering answer) i).revolution
      = if (dp.drives i).isDataLoaded then (dp.drives i).revolution
        else (answer (dp.drives i).quarterTrack).revolution := by
  cases hloaded : (dp.drives i).isDataLoaded with
  | true => rw [turning_of_loaded hloaded, if_pos rfl]
  | false => rw [revolution_turning_of_not_loaded hloaded hdriver hquarter, if_neg (by decide)]

end DiskPeripheral

/-! ## There and back -/

theorem safePath_copyStringToBuffer {path : List UInt8} (h : 0 ∉ path) (capacity : Nat)
    (hcapacity : 0 < capacity) :
    safePath (copyStringToBuffer path capacity) = path.take (capacity - 1) := by
  have hlength : 0 < capacity - (path.take (capacity - 1)).length := by
    rw [List.length_take]
    omega
  obtain ⟨n, hn⟩ : ∃ n, capacity - (path.take (capacity - 1)).length = n + 1 :=
    ⟨capacity - (path.take (capacity - 1)).length - 1, by omega⟩
  unfold safePath copyStringToBuffer
  rw [hn, List.replicate_succ, List.takeWhile_append_of_pos, List.takeWhile_cons_of_neg,
    List.append_nil]
  · decide
  · intro b hb
    rw [decide_eq_true_iff]
    rintro rfl
    exact h (List.mem_of_mem_take hb)

namespace DiskCard

variable {D : Drivers} {host : LoaderHost} {registry : List FormatDriver} {c loaded : DiskCard}
  {i : Fin 2} {ds : DiskDriveState} {before after : Nat → TrackAnswer}

/-- Without a disk. -/
theorem restores_iff_of_unmounted (hpresent : c.Present host registry)
    (hsaved : (c.drives i).SavedAs ds)
    (hloaded : (loaded.drives i).LoadedFrom ds (openAnswer (diskLoaderOpen host registry [])))
    (hempty : c.fullPath i = []) (hpath : loaded.fullPath i = []) :
    c.Restores before after loaded i ↔ c.Fits before after i := by
  obtain ⟨error, herror, hread⟩ := hpresent.noName
  have hanswer : openAnswer (diskLoaderOpen host registry []) = ⟨false, none⟩ := by
    unfold openAnswer diskLoaderOpen
    rw [hread]
    exact congrArg (fun ok => (⟨ok, none⟩ : OpenAnswer)) (decide_eq_false herror)
  rw [hanswer] at hloaded
  have hquarter : (loaded.drives i).quarterTrack = 0 := hloaded.quarterTrack
  have hclean : (loaded.drives i).isDirty = false := hloaded.isDirty
  obtain ⟨image, hdriver⟩ := hloaded.driver
  have hprotected : (loaded.drives i).isDiskWriteProtected
      = (c.drives i).isDiskWriteProtected := by
    have hnone : ((c.drives i).driver.any fun m =>
        m.hasInstance && (!m.canWrite || m.isWriteProtected)) = false := by
      cases hm : (c.drives i).driver with
      | none => rfl
      | some m =>
        rw [Option.any_some, hpresent.unmounted i hempty m hm]
        rfl
    unfold Drive.isDiskWriteProtected
    rw [hnone, hloaded.notch_of_saved hsaved, hdriver]
    rfl
  constructor
  · intro h
    have hhalf := h.halfTrack
    rw [hquarter] at hhalf
    -- nothing is loaded, so a track that was dirty is lost
    have hnot (hdirty : (c.drives i).isDirty = true) : False :=
      Bool.false_ne_true (hclean.symm.trans (h.isDirty hdirty))
    exact ⟨hempty ▸ Nat.zero_le _, fun _ => by omega, fun hdirty => (hnot hdirty).elim,
      fun hdirty => (hnot hdirty).elim, fun hdirty => (hnot hdirty).elim,
      fun hdirty => (hnot hdirty).elim⟩
  · intro h
    have hnot : ¬ (c.drives i).isDirty = true := fun hdirty => (h.dirty hdirty).1 hempty
    have hhalf := h.halfTrack hempty
    exact ⟨hpath.trans hempty.symm, by rw [hquarter]; omega, hprotected,
      fun hdirty => absurd hdirty hnot, fun hdirty => absurd hdirty hnot⟩

variable (before after) in
/-- **The nibbles that are read again** are the same exactly if the record carries all of them, or,
where it carries none or the head has left them, if the image holds them. -/
theorem revolution_turning_eq_iff {m m' : Driver} (hc : (c.drives i).Sound)
    (hsaved : (c.drives i).SavedAs ds) (hdriver : (c.drives i).driver = some m)
    (hdriver' : (loaded.drives i).driver = some m')
    (hquarter : (loaded.drives i).quarterTrack = (c.drives i).quarterTrack / 2 * 2)
    (hcells : (loaded.drives i).cells = ds.nibbles.flatMap byteCells)
    (hloaded : (loaded.drives i).isDataLoaded = true ↔ ds.nibbles ≠ [])
    (hdirty : (c.drives i).isDirty = true) :
    (loaded.turning (.answering after) i).revolution
        = (c.turning (.answering before) i).revolution
      ↔ ((c.drives i).isDataLoaded = true → (c.drives i).carried ≠ [] →
          ¬ (c.drives i).Straddles ∧ (c.drives i).revolution.length ≤ nibblesPerTrack)
        ∧ ((c.drives i).isDataLoaded = false → (c.drives i).carried ≠ [] →
          (c.drives i).carried = (before (c.drives i).quarterTrack).revolution)
        ∧ ((c.drives i).carried = [] →
          (after ((c.drives i).quarterTrack / 2 * 2)).revolution
            = if (c.drives i).isDataLoaded then (c.drives i).revolution
              else (before (c.drives i).quarterTrack).revolution) := by
  have hlt := hc.quarterTrack_lt
  have hown : (loaded.drives i).revolution = (c.drives i).carried := by
    rw [← hsaved.nibbles hdirty]
    refine Drive.revolution_of_nibbles ?_ hcells
    rw [hsaved.nibbles hdirty]
    exact high_of_mem_readNibbles _ _
  rw [hsaved.nibbles hdirty] at hloaded
  rw [DiskPeripheral.revolution_turning hdriver hlt,
    DiskPeripheral.revolution_turning hdriver' (by unfold quarterTracksPerDisk at *; omega),
    hquarter, hown]
  -- an empty saved track makes the drive read the image; any other is read itself
  by_cases hnone : (c.drives i).carried = []
  · have hblank : ¬ (loaded.drives i).isDataLoaded = true := fun h => hloaded.1 h hnone
    rw [if_neg hblank]
    exact ⟨fun h => ⟨fun _ hne => absurd hnone hne, fun _ hne => absurd hnone hne, fun _ => h⟩,
      fun h => h.2.2 hnone⟩
  · rw [if_pos (hloaded.2 hnone)]
    cases hunder : (c.drives i).isDataLoaded with
    | true =>
      rw [if_pos rfl]
      refine (Drive.readNibbles_eq_revolution_iff _ _).trans ?_
      exact ⟨fun h => ⟨fun _ _ => h, fun hno => absurd hno (by decide), fun hno => absurd hno hnone⟩,
        fun h => h.1 rfl hnone⟩
    | false =>
      rw [if_neg (by decide)]
      exact ⟨fun h => ⟨fun hno => absurd hno (by decide), fun _ _ => h, fun hno => absurd hno hnone⟩,
        fun h => h.2.1 rfl hnone⟩

/-- With a disk whose path fits. -/
theorem restores_iff_of_mounted {m : Driver} {image : Nat} (hc : (c.drives i).Sound)
    (hsaved : (c.drives i).SavedAs ds) (hloaded : (loaded.drives i).LoadedFrom ds ⟨true, some m⟩)
    (hdriver : (c.drives i).driver = some { m with image := image })
    (hmounted : c.fullPath i ≠ []) (hpath : loaded.fullPath i = c.fullPath i)
    (hfits : (c.fullPath i).length ≤ maxDiskFullPathLen) :
    c.Restores before after loaded i ↔ c.Fits before after i := by
  obtain ⟨image', hdriver'⟩ := hloaded.driver
  have hprotected : (loaded.drives i).isDiskWriteProtected
      = (c.drives i).isDiskWriteProtected := by
    unfold Drive.isDiskWriteProtected
    rw [hloaded.notch_of_saved hsaved, hdriver, hdriver']
    rfl
  have hquarter : (loaded.drives i).quarterTrack = (c.drives i).quarterTrack / 2 * 2 := by
    rw [hloaded.quarterTrack, if_pos rfl, hsaved.safePhase]
  have hhalf : (loaded.drives i).quarterTrack / 2 = (c.drives i).quarterTrack / 2 := by
    omega
  have hdirty : (c.drives i).isDirty = true → ((loaded.drives i).isDirty = true
      ↔ (c.drives i).bitPosition / 8 ≤ nibblesPerTrack) := fun hd => by
    rw [hloaded.isDirty, Bool.true_and, decide_eq_true_iff, ← Bool.not_eq_true,
      hsaved.isOutOfBounds, and_iff_right (hsaved.isDirty.2 hd)]
    exact Nat.not_lt
  -- the rest of the condition is about a track still dirty after the load, where the medium shows
  -- what the frame carried
  have hnibbles (hd : (c.drives i).isDirty = true) (hd' : (loaded.drives i).isDirty = true) :=
    revolution_turning_eq_iff before after hc hsaved hdriver hdriver'
      hquarter (hloaded.cells hd') (hloaded.isDataLoaded hd') hd
  constructor
  · intro h
    have hread (hd : (c.drives i).isDirty = true) := (hnibbles hd (h.isDirty hd)).1 (h.nibbles hd)
    exact ⟨hfits, fun hno => absurd hno hmounted,
      fun hd => ⟨hmounted, (hdirty hd).1 (h.isDirty hd)⟩, fun hd => (hread hd).1,
      fun hd => (hread hd).2.1, fun hd => (hread hd).2.2⟩
  · intro h
    have hkept (hd : (c.drives i).isDirty = true) : (loaded.drives i).isDirty = true :=
      (hdirty hd).2 (h.dirty hd).2
    exact ⟨hpath, hhalf, hprotected, hkept, fun hd =>
      (hnibbles hd (hkept hd)).2 ⟨h.whole hd, h.moved hd, h.blank hd⟩⟩

/-- **What is restored of a drive** is what its record has room for. -/
theorem restores_drive_iff (hc : (c.drives i).Sound) (hpresent : c.Present host registry)
    (hsaved : (c.drives i).SavedAs ds)
    (hloaded : (loaded.drives i).LoadedFrom ds
      (openAnswer (diskLoaderOpen host registry ((c.fullPath i).take maxDiskFullPathLen))))
    (hpath : loaded.fullPath i = if (openAnswer (diskLoaderOpen host registry
        ((c.fullPath i).take maxDiskFullPathLen))).ok then
      (c.fullPath i).take maxDiskFullPathLen else []) :
    c.Restores before after loaded i ↔ c.Fits before after i := by
  by_cases hempty : c.fullPath i = []
  · rw [hempty, List.take_nil] at hloaded hpath
    exact restores_iff_of_unmounted hpresent hsaved hloaded hempty (hpath.trans (ite_self _))
  · by_cases hfits : (c.fullPath i).length ≤ maxDiskFullPathLen
    · obtain ⟨m, image, hanswer, hdriver⟩ := hpresent.mounted i hempty
      rw [List.take_of_length_le hfits, hanswer] at hloaded hpath
      exact restores_iff_of_mounted hc hsaved hloaded hdriver hempty (hpath.trans (if_pos rfl))
        hfits
    · refine iff_of_false (fun h => hfits ?_) fun h => hfits h.fullPath
      rw [← h.fullPath, hpath]
      split_ifs
      · exact List.length_take_le _ _
      · exact Nat.zero_le _

/-- **A card is saved.** -/
theorem ends_save (hc : c.Sound) : Ends c.save fun saved => saved.state.isRefused = false
    ∧ (∀ i, (c.drives i).SavedAs (saved.state.drives i))
    ∧ ∀ i, saved.fullPath i = copyStringToBuffer (c.fullPath i) (maxDiskFullPathLen + 1) := by
  obtain ⟨ds0, hsave0, hsaved0⟩ := (hc.drives 0).ends_save
  obtain ⟨ds1, hsave1, hsaved1⟩ := (hc.drives 1).ends_save
  unfold DiskCard.save DiskPeripheral.diskStateV1Write
  rw [hsave0, hsave1]
  exact .pure ⟨rfl, Fin.forall_fin_two.2 ⟨hsaved0, hsaved1⟩, fun _ => rfl⟩

/-- **A card is loaded**: each drive from its own record. -/
theorem ends_load (hD : D.Contract) {t : DiskCard} (ht : t.Sound) {saved : DiskSavedCard}
    (htaken : saved.state.isRefused = false)
    (hlength : ∀ i, (saved.state.drives i).nibbles.length ≤ nibblesPerTrack) :
    Ends (t.load D host registry saved) fun loaded => ∀ i,
      (loaded.drives i).LoadedFrom (saved.state.drives i) (reopened host registry saved i)
        ∧ loaded.fullPath i = if (reopened host registry saved i).ok then
            safePath (saved.fullPath i) else [] := by
  have hstart : (t.loadController saved.state).Sound := ht.of_eq rfl rfl
  have hfirst := (hstart.loadDrive hD 0 (saved.state.drives 0)
    (reopened host registry saved 0)).and_yields
      (hstart.yields_loadDrive (D := D) 0 (hlength 0) (reopened host registry saved 0))
  have hboth : Ends (t.diskStateV1Read D saved.state (reopened host registry saved))
      fun dp => ∀ i, (dp.drives i).LoadedFrom (saved.state.drives i)
        (reopened host registry saved i) := by
    unfold DiskPeripheral.diskStateV1Read
    rw [if_neg (ne_true_of_eq_false htaken)]
    refine hfirst.bind fun dp ⟨hsound, hloaded, _⟩ => ?_
    refine ((hsound.loadDrive hD 1 (saved.state.drives 1)
      (reopened host registry saved 1)).and_yields
        (hsound.yields_loadDrive (D := D) 1 (hlength 1) (reopened host registry saved 1))).mono ?_
    rintro dp' ⟨-, hloaded', hother⟩
    refine Fin.forall_fin_two.2 ⟨?_, hloaded'⟩
    rw [hother 0 (by decide)]
    exact hloaded
  unfold DiskCard.load
  refine hboth.bind fun dp hdp => .pure fun i => ⟨hdp i, ?_⟩
  show (if saved.state.isRefused then _ else _) = _
  rw [if_neg (ne_true_of_eq_false htaken)]

/-- **A save state restores the drives** of a card exactly if they fit in their
records, whatever card it is loaded into and whatever the images answer. Where the same files hold
the same, what they answer before the save and after the load is the same. -/
theorem restores_iff (hD : D.Contract) {c t : DiskCard} (hc : c.Sound) (ht : t.Sound)
    (hpresent : c.Present host registry) (before after : Fin 2 → Nat → TrackAnswer) :
    Ends c.save fun saved => Ends (t.load D host registry saved) fun loaded =>
      ((∀ i, c.Restores (before i) (after i) loaded i) ↔ ∀ i, c.Fits (before i) (after i) i) := by
  refine (ends_save hc).mono fun saved ⟨htaken, hsaved, hfield⟩ => ?_
  have hpath : ∀ i, safePath (saved.fullPath i) = (c.fullPath i).take maxDiskFullPathLen :=
    fun i => by
      rw [hfield i]
      exact safePath_copyStringToBuffer (hpresent.noZero i) _ (by decide)
  refine (ends_load hD ht htaken fun i => (hsaved i).length).mono fun loaded hloaded => ?_
  refine forall_congr' fun i => restores_drive_iff (hc.drives i) hpresent (hsaved i) ?_ ?_
  · have hdrive := (hloaded i).1
    unfold reopened at hdrive
    rwa [hpath] at hdrive
  · have hname := (hloaded i).2
    unfold reopened at hname
    rwa [hpath] at hname

/-- One file, by the name of `A`. -/
def shelfHost : LoaderHost where
  prepare path := ⟨.ok, path, false⟩
  openFile path := if path = [0x41] then some ⟨1536, []⟩ else none
  payloadName path := some path

/-- A driver that opens it. -/
def shelfDriver : FormatDriver where
  canWrite := true
  probe _ _ _ := .possible
  openImage _ _ _ := (.none, some false)

/-- A track of sixteen cells, with pulses in the last one and in the third before it. -/
def shelfTrack : TrackAnswer :=
  ⟨true, fun i => i == 12 || i == 15, 16, diskDefaultBitTiming⟩

/-- The image has this track everywhere. -/
def shelfDrivers : Drivers := .answering fun _ => shelfTrack

theorem contract_shelfDrivers : shelfDrivers.Contract where
  bitCount_le _ _ := (by decide : 16 ≤ maxTrackBits)
  bitTiming_pos _ _ := (by decide : 0 < diskDefaultBitTiming)

/-- A card with nothing in its drives. -/
def bareCard : DiskCard := ⟨DiskPeripheral.diskAbiInit shelfDrivers .new none none, fun _ => []⟩

theorem present_bareCard : bareCard.Present shelfHost [shelfDriver] where
  noZero _ h := nomatch h
  mounted _ h := absurd rfl h
  unmounted i _ m hm := by
    have hnone : ∀ i, (bareCard.drives i).driver = none := Fin.forall_fin_two.2 ⟨rfl, rfl⟩
    rw [hnone i] at hm
    exact nomatch hm
  noName := ⟨.fileNotFound, by decide, rfl⟩

theorem sound_bareCard : bareCard.Sound :=
  show (DiskPeripheral.diskAbiInit shelfDrivers .new none none).Sound from
    DiskPeripheral.sound_diskAbiInit .new none none

/-- A card with nothing in it fits. -/
theorem fits_bareCard (i : Fin 2) : bareCard.Fits (fun _ => shelfTrack) (fun _ => shelfTrack) i := by
  have hempty : ∀ i, bareCard.drives i = .empty := Fin.forall_fin_two.2 ⟨rfl, rfl⟩
  have hclean : ¬ (bareCard.drives i).isDirty = true := by
    rw [hempty]
    exact Bool.false_ne_true
  refine ⟨Nat.zero_le _, fun _ => ?_, fun h => absurd h hclean, fun h => absurd h hclean,
    fun h => absurd h hclean, fun h => absurd h hclean⟩
  rw [hempty]
  exact Nat.zero_lt_two

/-- Nothing is lost of a card with nothing in it. -/
theorem restores_iff_bareCard :
    Ends bareCard.save fun saved =>
      Ends (bareCard.load shelfDrivers shelfHost [shelfDriver] saved) fun loaded =>
        ∀ i, bareCard.Restores (fun _ => shelfTrack) (fun _ => shelfTrack) loaded i :=
  (restores_iff contract_shelfDrivers sound_bareCard sound_bareCard present_bareCard
    (fun _ _ => shelfTrack) (fun _ _ => shelfTrack)).mono fun _ hsaved =>
      hsaved.mono fun _ hloaded => hloaded.2 fits_bareCard

/-- The card with `A` in its first drive, where a cell has been written. -/
def writtenCard : Option DiskCard :=
  ((DiskPeripheral.diskAbiInit shelfDrivers .new none none).run shelfDrivers id
    [.insert 0 false (openAnswer (diskLoaderOpen shelfHost [shelfDriver] [0x41])),
      .write 0x9 0 0, .write 0xF 0 0, .read 0x0 1 0]).map fun dp =>
    ⟨dp, fun i => if i = 0 then [0x41] else []⟩

theorem present_of_writtenCard {c : DiskCard} (h : writtenCard = some c) :
    c.Present shelfHost [shelfDriver] := by
  have hpaths : writtenCard.map (fun c => (c.fullPath 0, c.fullPath 1))
      = some ([0x41], []) := by
    decide +kernel
  have hdrivers : writtenCard.map (fun c => ((c.drives 0).driver, (c.drives 1).driver))
      = some (some ⟨0, true, true, false⟩, none) := by
    decide +kernel
  rw [h] at hpaths hdrivers
  obtain ⟨hpath0, hpath1⟩ := Prod.mk.inj (Option.some.inj hpaths)
  obtain ⟨hdriver0, hdriver1⟩ := Prod.mk.inj (Option.some.inj hdrivers)
  refine ⟨Fin.forall_fin_two.2 ⟨?_, ?_⟩, Fin.forall_fin_two.2 ⟨?_, ?_⟩,
    Fin.forall_fin_two.2 ⟨?_, ?_⟩, ⟨.fileNotFound, by decide, rfl⟩⟩
  · rw [hpath0]
    decide
  · rw [hpath1]
    decide
  · intro _
    rw [hpath0]
    exact ⟨⟨0, true, true, false⟩, 0, rfl, hdriver0⟩
  · exact fun hno => absurd hpath1 hno
  · rw [hpath0]
    exact fun hno => nomatch hno
  · rw [hdriver1]
    exact fun _ _ hm => nomatch hm

/-- **A nibble that is lost**: it reaches over the index hole of a track that has been
written to. The save state carries no nibble at all, so the card that loads it reads its image
again, where the nibble is the one from before it was written to. -/
theorem not_restores_writtenCard : Ends writtenCard fun c =>
    c.Present shelfHost [shelfDriver] ∧ (c.drives 0).isDirty = true
      ∧ (c.turning shelfDrivers 0).revolution = [0x80]
      ∧ Ends c.save fun saved =>
        Ends (bareCard.load shelfDrivers shelfHost [shelfDriver] saved) fun loaded =>
          (loaded.drives 0).isDirty = true ∧ (loaded.turning shelfDrivers 0).revolution = [0x90]
            ∧ ¬ c.Restores (fun _ => shelfTrack) (fun _ => shelfTrack) loaded 0 := by
  have hlost : writtenCard.bind (fun c => c.save.bind fun saved =>
      (bareCard.load shelfDrivers shelfHost [shelfDriver] saved).map fun loaded =>
        ((c.drives 0).isDirty, (c.turning shelfDrivers 0).revolution,
          (loaded.drives 0).isDirty, (loaded.turning shelfDrivers 0).revolution))
      = some (true, [0x80], true, [0x90]) := by
    decide +kernel
  obtain ⟨c, hc, hrest⟩ := Option.bind_eq_some_iff.1 hlost
  obtain ⟨saved, hsave, hrest⟩ := Option.bind_eq_some_iff.1 hrest
  obtain ⟨loaded, hload, hvalues⟩ := Option.map_eq_some_iff.1 hrest
  obtain ⟨hdirty, hrest⟩ := Prod.mk.inj hvalues
  obtain ⟨hnibbles, hrest⟩ := Prod.mk.inj hrest
  obtain ⟨hdirty', hnibbles'⟩ := Prod.mk.inj hrest
  refine ⟨c, hc, present_of_writtenCard hc, hdirty, hnibbles, saved, hsave, loaded, hload,
    hdirty', hnibbles', fun h => ?_⟩
  have hsame : (loaded.turning shelfDrivers 0).revolution = (c.turning shelfDrivers 0).revolution :=
    h.nibbles hdirty
  rw [hnibbles, hnibbles'] at hsame
  exact absurd hsame (by decide)

end DiskCard

end LinApple.Disk
