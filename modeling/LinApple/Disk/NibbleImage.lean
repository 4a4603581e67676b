import LinApple.Disk.FullBuffer
import LinApple.Disk.Revolution
import LinApple.Harddisk.Image

/-!
# Nibble images

A nibble image has a slot for each track, and in the slot the nibbles of the track, without the
cells between them. What the head wrote is made nibbles before the file is touched, and the slot
is rewritten whole, its rest filled up with sync bytes; so what is read back is what was written,
with a longer gap at its end.

There is no slot for the tracks behind the last one of the file, though the head reaches them:
what is written there is dropped (`not_readsBack_pastLastSlot`).

The device is part of every call. Whether it seeks, how many bytes it moves and whether it flushes
is asked for each time, and the answers are arbitrary; so a write can fail before it has begun or
in the middle of the slot. A write that is refused for what the cells are leaves the file as it
was, and this needs no word about the device. One that fails with it may leave half a slot, since
the slot goes out in one piece and there is no second copy. That is all that is said of it, and
the other slots are as they were in any case.

That a track is read back is stated for later, not only for the next call. Between the write and
the read any calls for other tracks may come, with devices that work or fail. Several quarter
tracks share a slot, so a call for another quarter track of the same slot is one for the same
track (`NibbleCall.Leaves`), and so is the read itself. The read is given a device that works and
a buffer with room for a track; with less room it would say so and hand nothing back.

What the nibbles of the cells are is not defined here. They are what the decoder of the card finds
in the cells, from their beginning, and a slot begins where the cells did.
-/

namespace LinApple.Disk

open ByteMap

/-! ## The image -/

/-- `quarter_tracks_per_cylinder` -/
def quarterTracksPerCylinder : Nat := 4
/-- `nibble_image_tracks` -/
def nibbleImageTracks : Nat := 35
/-- `nibble_image_max_bytes` -/
def nibbleImageMaxBytes : Nat := nibbleImageTracks * nibblesPerTrack

/-- **A `NibbleDiskImage` that has been opened**: every slot begins in the file, and
the file ends in the last of them. -/
structure NibbleDiskImage where
  /-- `file` -/
  file : Harddisk.HostFile
  /-- The error indicator of `file`, which stays once it is set. -/
  ferror : Bool
  /-- `data_offset` -/
  dataOffset : Nat
  /-- `track_size` -/
  trackSize : Nat
  /-- `track_count` -/
  trackCount : Nat
  /-- `host_read_only` -/
  hostReadOnly : Bool
  /-- A slot is not longer than the buffer. -/
  trackSize_le : trackSize ≤ nibblesPerTrack
  /-- Every slot begins in the file. -/
  begins : ∀ track < trackCount, dataOffset + track * trackSize < file.size
  /-- The file ends in the last slot. -/
  ends : file.size ≤ dataOffset + trackCount * trackSize

/-- `nibble_disk_image_open` of a file that can be opened for reading, and for
writing if `writable`. -/
def nibbleDiskImageOpen (file : Harddisk.HostFile) (writable : Bool) (fileOffset trackNibbles : Nat)
    (readOnly : Bool) : Except DiskError NibbleDiskImage :=
  if hsize : trackNibbles = 0 ∨ trackNibbles > nibblesPerTrack then .error .invalidArgument
  else if hoffset : file.size < fileOffset then .error .corrupt
  else
    let recorded := file.size - fileOffset
    if recorded > nibbleImageMaxBytes then .error .unsupported
    else if recorded = 0 then .error .corrupt
    else .ok {
      file := file
      ferror := false
      dataOffset := fileOffset
      trackSize := trackNibbles
      trackCount := (recorded + trackNibbles - 1) / trackNibbles
      hostReadOnly := readOnly || !writable
      trackSize_le := by omega
      begins := fun track htrack => by
        have hpos : 0 < trackNibbles := by omega
        have hslots := (Nat.le_div_iff_mul_le hpos).1 (Nat.succ_le_of_lt htrack)
        rw [Nat.succ_mul] at hslots
        omega
      ends := by
        have hpos : 0 < trackNibbles := by omega
        have hslots := Nat.div_add_mod (recorded + trackNibbles - 1) trackNibbles
        have hrest := Nat.mod_lt (recorded + trackNibbles - 1) hpos
        rw [Nat.mul_comm] at hslots
        omega }

/-! ## Reading and writing a track -/

/-- How the device answers the calls for one track. A short read or write is one that moves fewer
bytes than it was asked for, and none of the answers depends on another. -/
structure DeviceAnswer where
  /-- Whether `fseek` succeeds. -/
  seeks : Bool
  /-- The number of bytes `fread` or `fwrite` is willing to move. -/
  moves : Nat
  /-- Whether `fflush` succeeds. -/
  flushes : Bool

/-- Every call of the device succeeds, and moves a whole slot if it is asked to. -/
def DeviceAnswer.Works (device : DeviceAnswer) : Prop :=
  device.seeks = true ∧ nibblesPerTrack ≤ device.moves ∧ device.flushes = true

/-- What `read_track_bits` hands back. -/
structure TrackBits where
  /-- The `DiskError`. -/
  error : DiskError
  /-- `bits` -/
  bits : Nat → UInt8
  /-- `out_bit_count` -/
  bitCount : Nat
  /-- `out_bit_timing` -/
  bitTiming : UInt8

namespace NibbleDiskImage

/-- Where the slot of a track begins. -/
def slotOffset (image : NibbleDiskImage) (track : Nat) : Nat :=
  image.dataOffset + track * image.trackSize

/-- The number of bytes the file has of a slot: fewer than a slot has where the file
ends in it. -/
def slotBytes (image : NibbleDiskImage) (track : Nat) : Nat :=
  min image.trackSize (image.file.size - image.slotOffset track)

/-- **The slot of a track**, as far as the file has it. -/
def slot (image : NibbleDiskImage) (track : Nat) : List UInt8 :=
  peeks image.file.byte (image.slotOffset track) (image.slotBytes track)

theorem slotOffset_add_le {image : NibbleDiskImage} {track track' : Nat} (h : track < track') :
    image.slotOffset track + image.trackSize ≤ image.slotOffset track' := by
  have hslots := Nat.mul_le_mul_right image.trackSize (Nat.succ_le_of_lt h)
  rw [Nat.succ_mul] at hslots
  unfold slotOffset
  omega

/-- The image after bytes have been written to a slot. Where the file ends in the
slot, it grows. -/
def withSlot (image : NibbleDiskImage) {track : Nat} (htrack : track < image.trackCount)
    {bytes : List UInt8} (hbytes : bytes.length ≤ image.trackSize) : NibbleDiskImage :=
  { image with
    file := {
      size := max image.file.size (image.slotOffset track + bytes.length)
      byte := pokes image.file.byte (image.slotOffset track) bytes }
    begins := fun track' htrack' =>
      Nat.lt_of_lt_of_le (image.begins track' htrack') (Nat.le_max_left _ _)
    ends := by
      have hslot : image.slotOffset track + image.trackSize ≤ image.slotOffset image.trackCount :=
        slotOffset_add_le htrack
      refine Nat.max_le.2 ⟨image.ends, ?_⟩
      unfold slotOffset at hslot ⊢
      omega }

/-- `nibble_disk_image_read_track_bits`: `fread` stops where the file ends, or where
the device fails, and only the latter is an error. -/
def nibbleDiskImageReadTrackBits (image : NibbleDiskImage) (device : DeviceAnswer)
    (quarterTrack : Nat) (bits : Nat → UInt8) (maxBits : Nat) : TrackBits × NibbleDiskImage :=
  let track := quarterTrack / quarterTracksPerCylinder
  if track ≥ image.trackCount then (⟨.none, bits, 0, diskDefaultBitTiming⟩, image)
  else if !device.seeks then (⟨.io, bits, 0, diskDefaultBitTiming⟩, image)
  else
    let readCount := min device.moves (image.slotBytes track)
    let ferror := image.ferror || decide (readCount < image.slotBytes track)
    let after : NibbleDiskImage := { image with ferror := ferror }
    if readCount < image.trackSize && ferror then
      (⟨.io, bits, 0, diskDefaultBitTiming⟩, after)
    else
      match diskEncodingNibblesToBits (peeks image.file.byte (image.slotOffset track) readCount)
        none bits maxBits with
      | .error error => (⟨error, bits, 0, diskDefaultBitTiming⟩, after)
      | .ok (cells, bitCount) => (⟨.none, cells, bitCount, diskDefaultBitTiming⟩, after)

/-- **The nibbles of some cells**, as the shift register finds them from the first cell
on: there cannot be more of them than cells. -/
def nibblesOf (bits : Nat → UInt8) (bitCount : Nat) : List UInt8 :=
  (diskEncodingBitsToNibbles bits bitCount bitCount).2

/-- The nibbles of a track, and the sync bytes that fill up its slot. -/
def filledSlot (image : NibbleDiskImage) (nibbles : List UInt8) : List UInt8 :=
  nibbles ++ List.replicate (image.trackSize - nibbles.length) syncByte

theorem length_take_filledSlot (image : NibbleDiskImage) (nibbles : List UInt8) (moves : Nat) :
    ((image.filledSlot nibbles).take (min moves image.trackSize)).length ≤ image.trackSize :=
  (List.length_take_le _ _).trans (Nat.min_le_right _ _)

/-- `nibble_disk_image_write_track_bits` -/
def nibbleDiskImageWriteTrackBits (image : NibbleDiskImage) (device : DeviceAnswer)
    (quarterTrack : Nat) (bits : Nat → UInt8) (bitCount : Nat) : DiskError × NibbleDiskImage :=
  if image.hostReadOnly then (.writeProtected, image)
  else if htrack : quarterTrack / quarterTracksPerCylinder ≥ image.trackCount then (.none, image)
  else
    let answer := diskEncodingBitsToNibbles bits bitCount (image.trackSize + 1)
    let nibbles := answer.2
    if answer.1 ≠ .none then (answer.1, image)
    else if nibbles.length > image.trackSize then (.unsupported, image)
    else if !device.seeks then (.io, image)
    else
      let moved := min device.moves image.trackSize
      let written := image.withSlot (Nat.lt_of_not_ge htrack)
        (image.length_take_filledSlot nibbles device.moves)
      if moved ≠ image.trackSize then (.io, { written with ferror := true })
      else if !device.flushes then (.io, { written with ferror := true })
      else (.none, written)

/-! ## Slots -/

variable {image : NibbleDiskImage}

/-- The file has every slot but the last one as a whole. -/
theorem slotBytes_of_lt {track track' : Nat} (h : track < track')
    (htrack : track' < image.trackCount) : image.slotBytes track = image.trackSize := by
  have hslot : image.slotOffset track + image.trackSize ≤ image.slotOffset track' :=
    slotOffset_add_le h
  have hbegins : image.slotOffset track' < image.file.size := image.begins track' htrack
  unfold slotBytes
  omega

/-- There is nothing of a slot behind the last one. -/
theorem slotBytes_of_ge {track : Nat} (htrack : image.trackCount ≤ track) :
    image.slotBytes track = 0 := by
  have hslots := Nat.mul_le_mul_right image.trackSize htrack
  have hends := image.ends
  unfold slotBytes slotOffset
  omega

section WithSlot

variable {track : Nat} (htrack : track < image.trackCount) {bytes : List UInt8}
  (hbytes : bytes.length ≤ image.trackSize)

/-- **A byte outside of the slot stays.** -/
theorem byte_withSlot {a : Nat}
    (ha : a < image.slotOffset track ∨ image.slotOffset track + image.trackSize ≤ a) :
    (image.withSlot htrack hbytes).file.byte a = image.file.byte a := by
  show pokes image.file.byte (image.slotOffset track) bytes a = _
  obtain hlt | hge := ha
  · exact pokes_of_lt _ _ hlt
  · exact pokes_of_ge _ _ (by omega)

/-- What the file has of another slot does not become more. -/
theorem slotBytes_withSlot {track' : Nat} (hne : track' ≠ track) :
    (image.withSlot htrack hbytes).slotBytes track' = image.slotBytes track' := by
  obtain hlt | hgt := Nat.lt_or_gt_of_ne hne
  · rw [slotBytes_of_lt hlt htrack]
    exact slotBytes_of_lt hlt htrack
  · by_cases hin : track' < image.trackCount
    · have hslot : image.slotOffset track + image.trackSize ≤ image.slotOffset track' :=
        slotOffset_add_le hgt
      have hbegins : image.slotOffset track' < image.file.size := image.begins track' hin
      have hsize : (image.withSlot htrack hbytes).file.size = image.file.size := by
        show max image.file.size (image.slotOffset track + bytes.length) = _
        omega
      unfold slotBytes
      rw [hsize]
      rfl
    · rw [slotBytes_of_ge (Nat.not_lt.1 hin)]
      exact slotBytes_of_ge (Nat.not_lt.1 hin)

/-- **The other slots stay.** -/
theorem slot_withSlot_of_ne {track' : Nat} (hne : track' ≠ track) :
    (image.withSlot htrack hbytes).slot track' = image.slot track' := by
  unfold slot
  rw [slotBytes_withSlot htrack hbytes hne]
  refine peeks_congr fun a hlow hhigh => byte_withSlot htrack hbytes ?_
  have hle : image.slotBytes track' ≤ image.trackSize := Nat.min_le_left _ _
  have hlow : image.slotOffset track' ≤ a := hlow
  have hhigh : a < image.slotOffset track' + image.slotBytes track' := hhigh
  obtain hlt | hgt := Nat.lt_or_gt_of_ne hne
  · have hslot : image.slotOffset track' + image.trackSize ≤ image.slotOffset track :=
      slotOffset_add_le hlt
    omega
  · have hslot : image.slotOffset track + image.trackSize ≤ image.slotOffset track' :=
      slotOffset_add_le hgt
    omega

/-- **A slot written whole** holds what was written. -/
theorem slot_withSlot (hwhole : bytes.length = image.trackSize) :
    (image.withSlot htrack hbytes).slot track = bytes := by
  have hbytes' : (image.withSlot htrack hbytes).slotBytes track = bytes.length := by
    show min image.trackSize (max image.file.size (image.slotOffset track + bytes.length)
      - image.slotOffset track) = _
    omega
  unfold slot
  rw [hbytes']
  exact holds_iff_peeks.1 (holds_pokes _ _ _)

end WithSlot

/-! ## Nibbles -/

section Nibbles

variable {bits : Nat → UInt8} {bitCount : Nat}

/-- A buffer gets the first of the nibbles. -/
theorem bitsToNibbles_eq_take (room : Nat) :
    (diskEncodingBitsToNibbles bits bitCount room).2 = (nibblesOf bits bitCount).take room := by
  unfold nibblesOf diskEncodingBitsToNibbles
  obtain hle | hge := Nat.le_total room bitCount
  · exact readNibbles_take _ hle
  · have hcells := length_readNibbles_le room (peeks (cellAt bits) 0 bitCount)
    rw [length_peeks] at hcells
    rw [readNibbles_take _ hge, List.take_take, List.take_of_length_le (by omega)]

/-- A buffer that is not filled has all the nibbles. -/
theorem nibblesOf_eq {room : Nat}
    (h : (diskEncodingBitsToNibbles bits bitCount (room + 1)).2.length ≤ room) :
    (diskEncodingBitsToNibbles bits bitCount (room + 1)).2 = nibblesOf bits bitCount := by
  rw [bitsToNibbles_eq_take, List.length_take] at h
  rw [bitsToNibbles_eq_take]
  exact List.take_of_length_le (by omega)

/-- **A buffer is too small** exactly if it does not hold the nibbles there are. -/
theorem bitsToNibbles_none_iff (room : Nat) :
    (diskEncodingBitsToNibbles bits bitCount room).1 = .none
      ↔ (nibblesOf bits bitCount).length ≤ room := by
  have hall : ∀ (cells : List Bool) (room most : Nat), cells.length ≤ most →
      ((readNibbles room cells).1 = .none ↔ (readNibbles most cells).2.length ≤ room) := by
    intro cells
    induction hn : cells.length using Nat.strongRecOn generalizing cells with
    | ind n ih =>
      subst hn
      intro room most hmost
      obtain rfl | ⟨rest, rfl⟩ | ⟨c6, c5, c4, c3, c2, c1, c0, rest, rfl⟩ | ⟨rest, rfl, hshort⟩ :=
        cells_cases cells
      · rw [readNibbles_short room (by decide), readNibbles_short most (by decide)]
        exact iff_of_true rfl (Nat.zero_le room)
      · rw [readNibbles, readNibbles]
        rw [List.length_cons] at hmost
        exact ih rest.length (by simp) rest rfl room most (by omega)
      · simp only [List.length_cons] at hmost
        obtain ⟨most, rfl⟩ : ∃ k, most = k + 1 := ⟨most - 1, by omega⟩
        rw [readNibbles_nibble, List.length_cons, readNibbles]
        split_ifs with hroom
        · exact iff_of_false (by decide) (by omega)
        · refine (ih rest.length (by simp only [List.length_cons]; omega) rest rfl (room - 1) most
            (by omega)).trans ?_
          omega
      · rw [readNibbles_short room (by rw [List.length_cons]; omega),
          readNibbles_short most (by rw [List.length_cons]; omega)]
        exact iff_of_true rfl (Nat.zero_le room)
  exact hall _ room bitCount (Nat.le_of_eq (length_peeks _ _ _))

theorem high_of_mem_nibblesOf : ∀ v ∈ nibblesOf bits bitCount, v &&& 0x80 ≠ 0 :=
  high_of_mem_readNibbles _ _

theorem length_filledSlot {nibbles : List UInt8} (h : nibbles.length ≤ image.trackSize) :
    (image.filledSlot nibbles).length = image.trackSize := by
  rw [filledSlot, List.length_append, List.length_replicate]
  omega

/-- Every byte of a slot that has been filled up is a nibble. -/
theorem high_of_mem_filledSlot {nibbles : List UInt8} (hhigh : ∀ v ∈ nibbles, v &&& 0x80 ≠ 0) :
    ∀ v ∈ image.filledSlot nibbles, v &&& 0x80 ≠ 0 := by
  intro v hv
  obtain hv | hv := List.mem_append.1 hv
  · exact hhigh v hv
  · rw [List.eq_of_mem_replicate hv]
    decide

end Nibbles

/-! ## What is written -/

section Writing

/-- What may become of a write of some nibbles to a track. -/
def Writes (image : NibbleDiskImage) (track : Nat) (nibbles : List UInt8)
    (written : DiskError × NibbleDiskImage) : Prop :=
  (written.2 = image ∧ (written.1 = .none → image.trackCount ≤ track))
  ∨ ∃ (htrack : track < image.trackCount) (bytes : List UInt8)
      (hbytes : bytes.length ≤ image.trackSize) (ferror : Bool),
    written.2 = { image.withSlot htrack hbytes with ferror := ferror }
    ∧ (written.1 ≠ .none → written.1 = .io)
    ∧ (written.1 = .none → nibbles.length ≤ image.trackSize ∧ bytes = image.filledSlot nibbles)

/-- **What a write does**: nothing at all, or it puts bytes in the slot of its track;
these are the nibbles and what fills the slot up, unless the device fails. -/
theorem writes_nibbleDiskImageWriteTrackBits (image : NibbleDiskImage) (device : DeviceAnswer)
    (quarterTrack : Nat) (bits : Nat → UInt8) (bitCount : Nat) :
    image.Writes (quarterTrack / quarterTracksPerCylinder) (nibblesOf bits bitCount)
      (nibbleDiskImageWriteTrackBits image device quarterTrack bits bitCount) := by
  unfold nibbleDiskImageWriteTrackBits
  dsimp only
  split_ifs with hprotected htrack hdecoded hlong hseeks hmoved hflushes
  · exact .inl ⟨rfl, fun h => nomatch h⟩
  · exact .inl ⟨rfl, fun _ => htrack⟩
  · exact .inl ⟨rfl, fun h => absurd h hdecoded⟩
  · exact .inl ⟨rfl, fun h => nomatch h⟩
  · exact .inl ⟨rfl, fun h => nomatch h⟩
  · exact .inr ⟨_, _, _, true, rfl, fun _ => rfl, fun h => nomatch h⟩
  · exact .inr ⟨_, _, _, true, rfl, fun _ => rfl, fun h => nomatch h⟩
  · have hfits := Nat.not_lt.1 hlong
    have hnibbles : (diskEncodingBitsToNibbles bits bitCount (image.trackSize + 1)).2
        = nibblesOf bits bitCount := nibblesOf_eq hfits
    refine .inr ⟨Nat.lt_of_not_ge htrack, _, image.length_take_filledSlot _ _, image.ferror, rfl,
      fun h => absurd rfl h, fun _ => ?_⟩
    rw [hnibbles] at hfits ⊢
    rw [not_not.1 hmoved]
    exact ⟨hfits, List.take_of_length_le (Nat.le_of_eq (length_filledSlot hfits))⟩

/-- **A track is written exactly if it fits its slot**, if the image can be written and
the device does not fail. -/
theorem nibbleDiskImageWriteTrackBits_none_iff (image : NibbleDiskImage)
    {device : DeviceAnswer} (hworks : device.Works) {quarterTrack : Nat}
    (hwritable : image.hostReadOnly = false)
    (htrack : quarterTrack / quarterTracksPerCylinder < image.trackCount)
    (bits : Nat → UInt8) (bitCount : Nat) :
    (nibbleDiskImageWriteTrackBits image device quarterTrack bits bitCount).1 = .none
      ↔ (nibblesOf bits bitCount).length ≤ image.trackSize := by
  obtain ⟨hseeks, hmoves, hflushes⟩ := hworks
  have hsize := image.trackSize_le
  refine ⟨fun hnone => ?_, fun hfits => ?_⟩
  · obtain ⟨-, hpast⟩ | ⟨_, _, _, _, -, -, hfilled⟩ :=
      writes_nibbleDiskImageWriteTrackBits image device quarterTrack bits bitCount
    · exact absurd htrack (Nat.not_lt.2 (hpast hnone))
    · exact (hfilled hnone).1
  · have hdecoded := (bitsToNibbles_none_iff (image.trackSize + 1)).2 (Nat.le_succ_of_le hfits)
    have hshort : ¬ (diskEncodingBitsToNibbles bits bitCount (image.trackSize + 1)).2.length
        > image.trackSize := by
      rw [bitsToNibbles_eq_take, List.length_take]
      omega
    unfold nibbleDiskImageWriteTrackBits
    dsimp only
    rw [if_neg (by rw [hwritable]; decide), dif_neg (Nat.not_le.2 htrack), if_neg (not_not.2 hdecoded),
      if_neg hshort, hseeks, hflushes, if_neg (by decide), if_neg (by omega), if_neg (by decide)]

end Writing

/-! ## What is kept -/

/-- What reading a track depends on. -/
structure SameTrack (image image' : NibbleDiskImage) (track : Nat) : Prop where
  /-- `track_size` stays. -/
  trackSize : image'.trackSize = image.trackSize
  /-- `track_count` stays. -/
  trackCount : image'.trackCount = image.trackCount
  /-- The slot stays. -/
  slot : image'.slot track = image.slot track

theorem SameTrack.refl (image : NibbleDiskImage) (track : Nat) : image.SameTrack image track :=
  ⟨rfl, rfl, rfl⟩

theorem SameTrack.trans {image' image'' : NibbleDiskImage} {track : Nat}
    (h : image.SameTrack image' track) (h' : image'.SameTrack image'' track) :
    image.SameTrack image'' track :=
  ⟨h'.trackSize.trans h.trackSize, h'.trackCount.trans h.trackCount, h'.slot.trans h.slot⟩

/-- A write to another track keeps a track, whatever becomes of it. -/
theorem Writes.sameTrack {track track' : Nat} {nibbles : List UInt8}
    {written : DiskError × NibbleDiskImage} (h : image.Writes track nibbles written)
    (hne : track' ≠ track) : image.SameTrack written.2 track' := by
  obtain ⟨heq, -⟩ | ⟨htrack, bytes, hbytes, ferror, heq, -⟩ := h
  · rw [heq]
    exact .refl image track'
  · rw [heq]
    exact ⟨rfl, rfl, slot_withSlot_of_ne htrack hbytes hne⟩

/-- Reading changes the error indicator at most. -/
theorem sameTrack_nibbleDiskImageReadTrackBits (image : NibbleDiskImage) (device : DeviceAnswer)
    (quarterTrack : Nat) (bits : Nat → UInt8) (maxBits track : Nat) :
    image.SameTrack (nibbleDiskImageReadTrackBits image device quarterTrack bits maxBits).2
      track := by
  unfold nibbleDiskImageReadTrackBits
  dsimp only
  split_ifs
  · exact .refl image track
  · exact .refl image track
  · exact ⟨rfl, rfl, rfl⟩
  · split
    · exact ⟨rfl, rfl, rfl⟩
    · exact ⟨rfl, rfl, rfl⟩

/-! ## Reading back -/

/-- Reading a track hands back cells with these nibbles. The cells themselves cannot come back:
where a nibble was written after some blank ones, these are not in the file. -/
def ReadsBack (image : NibbleDiskImage) (device : DeviceAnswer) (quarterTrack : Nat)
    (bits : Nat → UInt8) (maxBits : Nat) (nibbles : List UInt8) : Prop :=
  let read := (nibbleDiskImageReadTrackBits image device quarterTrack bits maxBits).1
  read.error = .none ∧ read.bitCount ≤ maxBits ∧ nibblesOf read.bits read.bitCount = nibbles

theorem nibblesOf_nibblesToBits {nibbles : List UInt8} (bits : Nat → UInt8) {maxBits : Nat}
    (hhigh : ∀ v ∈ nibbles, v &&& 0x80 ≠ 0) (hlength : nibbles.length ≤ nibblesPerTrack)
    (hmax : maxTrackBits ≤ maxBits) :
    ∃ cells total, diskEncodingNibblesToBits nibbles none bits maxBits = .ok (cells, total)
      ∧ total ≤ maxBits ∧ nibblesOf cells total = nibbles := by
  have hemitted : (walkSyncRuns nibbles none).map Prod.fst = nibbles :=
    map_fst_walkSyncRuns fun m hm => nomatch hm
  have hlong := sum_cellCount_le (walkSyncRuns nibbles none)
  have hshort := length_le_cellCount (walkSyncRuns nibbles none)
  have hsame : (walkSyncRuns nibbles none).length = nibbles.length := by
    rw [← List.length_map Prod.fst, hemitted]
  generalize htotal : ((walkSyncRuns nibbles none).map fun e => cellCount e.2).sum = total
    at hlong hshort
  rw [hsame] at hlong hshort
  unfold nibblesPerTrack at hlength
  unfold maxTrackBits at hmax
  obtain ⟨cells, hok, hback⟩ := bitsToNibbles_nibblesToBits bits hemitted hhigh htotal
    (show total ≤ maxBits by omega) (by omega) (show nibbles.length ≤ total by omega)
  exact ⟨cells, total, hok, by omega, congrArg Prod.snd hback⟩

/-- **A slot full of nibbles is read back.** -/
theorem readsBack_of_slot {quarterTrack maxBits : Nat} {nibbles : List UInt8}
    (htrack : quarterTrack / quarterTracksPerCylinder < image.trackCount)
    (hslot : image.slot (quarterTrack / quarterTracksPerCylinder) = nibbles)
    (hlength : nibbles.length = image.trackSize) (hhigh : ∀ v ∈ nibbles, v &&& 0x80 ≠ 0)
    {device : DeviceAnswer} (hworks : device.Works) (hmax : maxTrackBits ≤ maxBits)
    (bits : Nat → UInt8) : image.ReadsBack device quarterTrack bits maxBits nibbles := by
  obtain ⟨hseeks, hmoves, -⟩ := hworks
  have hsize := image.trackSize_le
  have hbytes : image.slotBytes (quarterTrack / quarterTracksPerCylinder) = image.trackSize := by
    rw [← hlength, ← hslot, slot, length_peeks]
  have hcount : min device.moves
      (image.slotBytes (quarterTrack / quarterTracksPerCylinder)) = image.trackSize := by
    omega
  have hpeeks : peeks image.file.byte
      (image.slotOffset (quarterTrack / quarterTracksPerCylinder)) image.trackSize = nibbles := by
    rw [← hslot, slot, hbytes]
  obtain ⟨cells, total, hok, hle, hback⟩ :=
    nibblesOf_nibblesToBits bits hhigh (hlength ▸ hsize) hmax
  have hread : (nibbleDiskImageReadTrackBits image device quarterTrack bits maxBits).1
      = ⟨.none, cells, total, diskDefaultBitTiming⟩ := by
    unfold nibbleDiskImageReadTrackBits
    dsimp only
    rw [if_neg (Nat.not_le.2 htrack), hseeks, hcount, hpeeks, hok, decide_eq_false
      (Nat.lt_irrefl _)]
    rfl
  unfold ReadsBack
  rw [hread]
  exact ⟨rfl, hle, hback⟩

/-! ## Calls one after another -/

/-- A call of the driver. -/
inductive NibbleCall where
  /-- `read_track_bits` -/
  | read (device : DeviceAnswer) (quarterTrack : Nat) (bits : Nat → UInt8) (maxBits : Nat)
  /-- `write_track_bits` -/
  | write (device : DeviceAnswer) (quarterTrack : Nat) (bits : Nat → UInt8) (bitCount : Nat)

/-- The call does not write to a track. The four quarter tracks of a track share its slot, so the
number that counts is that of the track. -/
def NibbleCall.Leaves (track : Nat) : NibbleCall → Prop
  | .read .. => True
  | .write _ quarterTrack _ _ => track ≠ quarterTrack / quarterTracksPerCylinder

/-- The image after a call. -/
def perform (image : NibbleDiskImage) : NibbleCall → NibbleDiskImage
  | .read device quarterTrack bits maxBits =>
    (nibbleDiskImageReadTrackBits image device quarterTrack bits maxBits).2
  | .write device quarterTrack bits bitCount =>
    (nibbleDiskImageWriteTrackBits image device quarterTrack bits bitCount).2

/-- The image after some calls. -/
def run (image : NibbleDiskImage) (calls : List NibbleCall) : NibbleDiskImage :=
  calls.foldl perform image

theorem sameTrack_perform (image : NibbleDiskImage) {call : NibbleCall} {track : Nat}
    (hcall : call.Leaves track) : image.SameTrack (image.perform call) track := by
  cases call with
  | read device quarterTrack bits maxBits =>
    exact sameTrack_nibbleDiskImageReadTrackBits image device quarterTrack bits maxBits track
  | write device quarterTrack bits bitCount =>
    exact (writes_nibbleDiskImageWriteTrackBits image device quarterTrack bits bitCount).sameTrack
      hcall

/-- **Calls that do not write to a track keep it.** -/
theorem sameTrack_run (image : NibbleDiskImage) {calls : List NibbleCall} {track : Nat}
    (hcalls : ∀ call ∈ calls, call.Leaves track) : image.SameTrack (image.run calls) track := by
  induction calls generalizing image with
  | nil => exact .refl image track
  | cons call calls ih =>
    rw [List.forall_mem_cons] at hcalls
    exact (sameTrack_perform image hcalls.1).trans (ih _ hcalls.2)

/-- **A nibble image keeps what was written.** A track that the file has a slot for is
read back as the nibbles that were written and sync bytes up to the size of the slot,
whatever is done to other tracks in between; a write leaves the slots of the other
tracks as they are; and one that is refused, for another reason than that the device
fails, leaves the file as it is. -/
theorem keeps (image : NibbleDiskImage) (device : DeviceAnswer) (quarterTrack : Nat)
    (bits : Nat → UInt8) (bitCount : Nat) :
    ((nibbleDiskImageWriteTrackBits image device quarterTrack bits bitCount).1 = .none →
      quarterTrack / quarterTracksPerCylinder < image.trackCount →
      ∀ calls : List NibbleCall,
        (∀ call ∈ calls, call.Leaves (quarterTrack / quarterTracksPerCylinder)) →
        ∀ device' : DeviceAnswer, device'.Works → ∀ quarterTrack' maxBits buffer,
          quarterTrack' / quarterTracksPerCylinder = quarterTrack / quarterTracksPerCylinder →
          maxTrackBits ≤ maxBits →
          (((nibbleDiskImageWriteTrackBits image device quarterTrack bits bitCount).2.run
            calls).ReadsBack device' quarterTrack' buffer maxBits
              (image.filledSlot (nibblesOf bits bitCount))))
    ∧ (∀ track ≠ quarterTrack / quarterTracksPerCylinder,
      (nibbleDiskImageWriteTrackBits image device quarterTrack bits bitCount).2.slot track
        = image.slot track)
    ∧ ((nibbleDiskImageWriteTrackBits image device quarterTrack bits bitCount).1 ≠ .none →
      (nibbleDiskImageWriteTrackBits image device quarterTrack bits bitCount).1 ≠ .io →
      (nibbleDiskImageWriteTrackBits image device quarterTrack bits bitCount).2.file
        = image.file) := by
  have hwrites := writes_nibbleDiskImageWriteTrackBits image device quarterTrack bits bitCount
  generalize nibbleDiskImageWriteTrackBits image device quarterTrack bits bitCount = written
    at hwrites ⊢
  refine ⟨fun hnone htrack calls hcalls device' hworks quarterTrack' maxBits buffer hsame hmax =>
    ?_, fun track hne => (hwrites.sameTrack hne).slot, fun herror hio => ?_⟩
  · obtain ⟨-, hpast⟩ | ⟨_, bytes, hbytes, ferror, heq, -, hfilled⟩ := hwrites
    · exact absurd htrack (Nat.not_lt.2 (hpast hnone))
    · obtain ⟨hfits, rfl⟩ := hfilled hnone
      -- the calls in between leave the slot alone, so the reader finds what the write put there
      have hkept := sameTrack_run written.2 hcalls
      have hlength : (image.filledSlot (nibblesOf bits bitCount)).length = image.trackSize :=
        length_filledSlot hfits
      have hslot : written.2.slot (quarterTrack / quarterTracksPerCylinder)
          = image.filledSlot (nibblesOf bits bitCount) := by
        rw [heq]
        exact slot_withSlot htrack hbytes hlength
      have hsize : written.2.trackSize = image.trackSize := by
        rw [heq]
        rfl
      have hcount : written.2.trackCount = image.trackCount := by
        rw [heq]
        rfl
      refine readsBack_of_slot ?_ ?_ ?_ (high_of_mem_filledSlot high_of_mem_nibblesOf) hworks hmax
        buffer
      · rwa [hsame, hkept.trackCount, hcount]
      · rw [hsame, hkept.slot, hslot]
      · rw [hkept.trackSize, hsize, hlength]
  · obtain ⟨heq, -⟩ | ⟨_, _, _, _, -, hrefused, -⟩ := hwrites
    · rw [heq]
    · exact absurd (hrefused herror) hio

/-! ## A whole image -/

/-- A device that does not fail. -/
def soundDevice : DeviceAnswer := ⟨true, nibblesPerTrack, true⟩

/-- An image of thirty-five tracks of sync bytes. -/
def wholeImage : NibbleDiskImage where
  file := ⟨232960, fun _ => syncByte⟩
  ferror := false
  dataOffset := 0
  trackSize := 6656
  trackCount := 35
  hostReadOnly := false
  trackSize_le := Nat.le_refl 6656
  begins track htrack := by
    show 0 + track * 6656 < 232960
    omega
  ends := Nat.le_refl 232960

/-- The cells of one nibble, written to track 17 and read back. -/
theorem keeps_wholeImage :
    (nibbleDiskImageWriteTrackBits wholeImage soundDevice 68 (fun _ => 0xD5) 8).1 = .none
    ∧ (nibbleDiskImageWriteTrackBits wholeImage soundDevice 68 (fun _ => 0xD5) 8).2.ReadsBack
      soundDevice 70 (fun _ => 0) maxTrackBits (wholeImage.filledSlot [0xD5]) := by
  have hnone :
      (nibbleDiskImageWriteTrackBits wholeImage soundDevice 68 (fun _ => 0xD5) 8).1 = .none := by
    decide +kernel
  have hnibbles : nibblesOf (fun _ => 0xD5) 8 = [0xD5] := by decide
  refine ⟨hnone, ?_⟩
  rw [← hnibbles]
  exact (keeps wholeImage soundDevice 68 (fun _ => 0xD5) 8).1 hnone (by decide) []
    (fun _ h => nomatch h) soundDevice ⟨rfl, Nat.le_refl _, rfl⟩ 70 maxTrackBits (fun _ => 0) rfl
    (Nat.le_refl _)

/-- A device that fails after one byte. -/
def failingDevice : DeviceAnswer := ⟨true, 1, true⟩

/-- **What is written behind the last slot is dropped**: the write is accepted, and
nothing is read back. And a device that fails in the middle of a slot leaves it half
written: the write is refused, and the file has changed. -/
theorem not_readsBack_pastLastSlot :
    ((nibbleDiskImageWriteTrackBits wholeImage soundDevice 140 (fun _ => 0xD5) 8).1 = .none
      ∧ ¬ (nibbleDiskImageWriteTrackBits wholeImage soundDevice 140 (fun _ => 0xD5) 8).2.ReadsBack
        soundDevice 140 (fun _ => 0) maxTrackBits
          (wholeImage.filledSlot (nibblesOf (fun _ => 0xD5) 8)))
    ∧ (nibbleDiskImageWriteTrackBits wholeImage failingDevice 68 (fun _ => 0xD5) 8).1 = .io
      ∧ (nibbleDiskImageWriteTrackBits wholeImage failingDevice 68 (fun _ => 0xD5) 8).2.file
        ≠ wholeImage.file := by
  refine ⟨⟨rfl, fun ⟨_, _, hback⟩ => ?_⟩, by decide +kernel, fun hsame => ?_⟩
  · have hnibbles : nibblesOf (fun _ => 0xD5) 8 = [0xD5] := by decide
    have hlength : (wholeImage.filledSlot [0xD5]).length = 6656 :=
      length_filledSlot (by decide : 1 ≤ 6656)
    rw [hnibbles] at hback
    rw [← hback] at hlength
    exact absurd hlength (by decide)
  · have hbyte := congrArg (fun file => file.byte 113152) hsame
    exact absurd hbyte (by decide +kernel)

end NibbleDiskImage

end LinApple.Disk
