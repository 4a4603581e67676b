import LinApple.Lib.ByteMap

/-!
# Group code recording

How a sixteen-sector track looks to a Disk II drive. A sector's 256 bytes
are recorded six bits to a nibble, behind an address field that names the
track and the sector, with gaps of self-sync bytes between the fields
(`diskEncodingNibblizeTrack`). Reading a track back looks for prologues
around the circular track, and takes nothing over unless all sixteen
sectors are there (`diskEncodingDenibblizeTrack`).
-/

namespace LinApple.Disk

open ByteMap

/-- `DiskError` -/
inductive DiskError where
  | none
  | fileNotFound
  | unsupportedFormat
  | corrupt
  | writeProtected
  | outOfMemory
  | io
  | invalidArgument
  | unsupported
deriving DecidableEq, Repr

/-- `prologue_1` -/
def prologue1 : UInt8 := 0xD5
/-- `prologue_2` -/
def prologue2 : UInt8 := 0xAA
/-- `addr_prologue_3` -/
def addrPrologue3 : UInt8 := 0x96
/-- `data_prologue_3` -/
def dataPrologue3 : UInt8 := 0xAD
/-- `epilogue_1` -/
def epilogue1 : UInt8 := 0xDE
/-- `epilogue_2` -/
def epilogue2 : UInt8 := 0xAA
/-- `epilogue_3` -/
def epilogue3 : UInt8 := 0xEB
/-- `sync_byte` -/
def syncByte : UInt8 := 0xFF
/-- `volume_default` -/
def volumeDefault : UInt8 := 0xFE
/-- `invalid_nibble` -/
def invalidNibble : UInt8 := 0xFF

/-- `gcr62_offset_init` -/
def gcr62OffsetInit : UInt8 := 0xAC
/-- `gcr62_offset_step_1` -/
def gcr62OffsetStep1 : UInt8 := 0x56
/-- `gcr62_offset_step_2` -/
def gcr62OffsetStep2 : UInt8 := 0x56
/-- `gcr62_offset_step_3` -/
def gcr62OffsetStep3 : UInt8 := 0x53
/-- `gcr62_iterations` -/
def gcr62Iterations : Nat := 86

/-- `sector_data_size` -/
def sectorDataSize : Nat := 342
/-- `sector_with_checksum_size` -/
def sectorWithChecksumSize : Nat := 343
/-- `sector_size` -/
def sectorSize : Nat := 256
/-- `sectors_per_track` -/
def sectorsPerTrack : Nat := 16
/-- `track_image_size` -/
def trackImageSize : Nat := sectorsPerTrack * sectorSize
/-- `tracks_per_disk` -/
def tracksPerDisk : Nat := 40
/-- `max_gcr_markers_per_track` -/
def maxGcrMarkersPerTrack : Nat := 48
/-- `gap1_size` -/
def gap1Size : Nat := 48
/-- `gap2_size` -/
def gap2Size : Nat := 6
/-- `gap3_size` -/
def gap3Size : Nat := 16
/-- `all_sectors_mask` -/
def allSectorsMask : UInt16 := 0xFFFF

/-- `disk_encoding_table` -/
def diskEncodingTable : List UInt8 :=
  [0x96, 0x97, 0x9A, 0x9B, 0x9D, 0x9E, 0x9F, 0xA6, 0xA7, 0xAB, 0xAC,
   0xAD, 0xAE, 0xAF, 0xB2, 0xB3, 0xB4, 0xB5, 0xB6, 0xB7, 0xB9, 0xBA,
   0xBB, 0xBC, 0xBD, 0xBE, 0xBF, 0xCB, 0xCD, 0xCE, 0xCF, 0xD3, 0xD6,
   0xD7, 0xD9, 0xDA, 0xDB, 0xDC, 0xDD, 0xDE, 0xDF, 0xE5, 0xE6, 0xE7,
   0xE9, 0xEA, 0xEB, 0xEC, 0xED, 0xEE, 0xEF, 0xF2, 0xF3, 0xF4, 0xF5,
   0xF6, 0xF7, 0xF9, 0xFA, 0xFB, 0xFC, 0xFD, 0xFE, 0xFF]

/-- `decode_table`, filled in from `disk_encoding_table`. -/
def decodeTable : List UInt8 :=
  diskEncodingTable.zipIdx.foldl
    (fun t (code : UInt8 × Nat) =>
      t.set (code.1 - 0x80).toNat ((UInt8.ofNat code.2) <<< (2 : UInt8)))
    (List.replicate 128 invalidNibble)

/-- `DiskSectorOrder` -/
inductive DiskSectorOrder where
  | dos
  | prodos
deriving DecidableEq, Repr

/-- `disk_encoding_sector_interleave_table`, its rows by their number. -/
def diskEncodingSectorInterleaveTable (row : Nat) : List UInt8 :=
  if row = 0 then
    [0x00, 0x08, 0x01, 0x09, 0x02, 0x0A, 0x03, 0x0B,
     0x04, 0x0C, 0x05, 0x0D, 0x06, 0x0E, 0x07, 0x0F]
  else
    [0x00, 0x07, 0x0E, 0x06, 0x0D, 0x05, 0x0C, 0x04,
     0x0B, 0x03, 0x0A, 0x02, 0x09, 0x01, 0x08, 0x0F]

/-- `disk_encoding_sector_order` -/
def diskEncodingSectorOrder (order : DiskSectorOrder) (i : Nat) : UInt8 :=
  let row := if order = .dos then 1 else 0
  (diskEncodingSectorInterleaveTable row)[i]?.getD 0

/-! ## Six bits to a nibble -/

/-- `encode_bits` -/
def encodeBits (value b : UInt8) : UInt8 :=
  (value <<< 2) ||| ((b &&& 0x01) <<< 1) ||| ((b &&& 0x02) >>> 1)

/-- The loop of `encode_sector_62` that collects the low bits, with the
rounds that are left. The offset is a byte and wraps around. -/
def encodeLowBits (sectorBase : UInt8 → UInt8) : Nat → UInt8 → List UInt8
  | 0, _ => []
  | n + 1, offset0 =>
    let value := encodeBits 0 (sectorBase offset0)
    let offset1 := offset0 - gcr62OffsetStep1
    let value := encodeBits value (sectorBase offset1)
    let offset2 := offset1 - gcr62OffsetStep2
    let value := encodeBits value (sectorBase offset2)
    (value <<< 2) :: encodeLowBits sectorBase n (offset2 - gcr62OffsetStep3)

/-- The last two of the low-bits bytes carry two pairs each. -/
def maskLastTwo (low : List UInt8) : List UInt8 :=
  low.take (low.length - 2) ++ (low.drop (low.length - 2)).map (· &&& 0x3F)

/-- The bytes of a sector. -/
def sectorBytes (sectorBase : UInt8 → UInt8) : List UInt8 :=
  (List.range sectorSize).map fun i => sectorBase i.toUInt8

/-- The loop of `encode_sector_62` that chains the bytes, and the checksum
after it. -/
def xorChain (savedValue : UInt8) : List UInt8 → List UInt8
  | [] => [savedValue]
  | b :: source => (savedValue ^^^ b) :: xorChain b source

/-- `encode_sector_62` -/
def encodeSector62 (sectorBase : UInt8 → UInt8) : List UInt8 :=
  let low := maskLastTwo (encodeLowBits sectorBase gcr62Iterations gcr62OffsetInit)
  (xorChain 0 (low ++ sectorBytes sectorBase)).map fun (b : UInt8) =>
    diskEncodingTable[(b >>> 2).toNat]?.getD 0

/-- The value of a nibble in `decode_sector_62`, if it is a code. -/
def decodeNibble (nibble : UInt8) : Option UInt8 :=
  if nibble &&& 0x80 = 0 then none
  else
    let value := decodeTable[(nibble &&& 0x7F).toNat]?.getD invalidNibble
    if value = invalidNibble then none else some value

/-- The loop of `decode_sector_62` that undoes the chain. -/
def xorUnchain (savedValue : UInt8) : List UInt8 → List UInt8
  | [] => []
  | b :: source => (savedValue ^^^ b) :: xorUnchain (savedValue ^^^ b) source

/-- A byte put together again from its six high bits and its two low
ones. -/
def restoreBits (high bit0 bit1 : UInt8) : UInt8 :=
  (high &&& 0xFC) ||| bit0 ||| bit1

/-- The loop of `decode_sector_62` that puts a sector together, with the
low-bits bytes that are left. -/
def decodeLowBits (sectorBase : UInt8 → UInt8) :
    List UInt8 → UInt8 → (UInt8 → UInt8) → (UInt8 → UInt8)
  | [], _, image => image
  | low :: lows, offset0, image =>
    let image := if offset0 ≥ gcr62OffsetInit then
        Function.update image offset0 (restoreBits (sectorBase offset0)
          ((low &&& 0x80) >>> 7) ((low &&& 0x40) >>> 5))
      else image
    let offset1 := offset0 - gcr62OffsetStep1
    let image := Function.update image offset1 (restoreBits
      (sectorBase offset1) ((low &&& 0x20) >>> 5) ((low &&& 0x10) >>> 3))
    let offset2 := offset1 - gcr62OffsetStep2
    let image := Function.update image offset2 (restoreBits
      (sectorBase offset2) ((low &&& 0x08) >>> 3) ((low &&& 0x04) >>> 1))
    decodeLowBits sectorBase lows (offset2 - gcr62OffsetStep3) image

/-- `decode_sector_62` of a data field: the sector after it, unless the
field is refused. -/
def decodeSector62 (field : List UInt8) (image : UInt8 → UInt8) :
    Option (UInt8 → UInt8) :=
  match field.mapM decodeNibble with
  | none => none
  | some values =>
    let decoded := xorUnchain 0 (values.take sectorDataSize)
    if values[sectorDataSize]?.getD 0 ≠ decoded.getLast?.getD 0 then none
    else
      let sectorBase offset := decoded[gcr62Iterations + offset.toNat]?.getD 0
      some (decodeLowBits sectorBase (decoded.take gcr62Iterations)
        gcr62OffsetInit image)

/-! ## Laying a track out -/

/-- `encode_4and4_high` -/
def encode4and4High (a : UInt8) : UInt8 := ((a >>> 1) &&& 0x55) ||| 0xAA

/-- `encode_4and4_low` -/
def encode4and4Low (a : UInt8) : UInt8 := (a &&& 0x55) ||| 0xAA

/-- A byte in four-and-four code. -/
def encode4and4 (a : UInt8) : List UInt8 := [encode4and4High a, encode4and4Low a]

/-- The bytes of a sector of a track. -/
def sectorAt (sectors : Nat → UInt8) (sector : Nat) : UInt8 → UInt8 :=
  fun offset => sectors (sector * sectorSize + offset.toNat)

/-- An address field. -/
def addressField (track sector : UInt8) : List UInt8 :=
  [prologue1, prologue2, addrPrologue3]
    ++ encode4and4 volumeDefault ++ encode4and4 track ++ encode4and4 sector
    ++ encode4and4 (volumeDefault ^^^ track ^^^ sector)
    ++ [epilogue1, epilogue2, epilogue3]

/-- A data field. -/
def dataField (sectorBase : UInt8 → UInt8) : List UInt8 :=
  [prologue1, prologue2, dataPrologue3] ++ encodeSector62 sectorBase
    ++ [epilogue1, epilogue2, epilogue3]

/-- `put_data`, byte by byte: nibbles with their sync mask. -/
def putData (field : List UInt8) : List (UInt8 × UInt8) := field.map (·, 0)

/-- `put_gap` -/
def putGap (length : Nat) : List (UInt8 × UInt8) :=
  List.replicate length (syncByte, 1)

/-- One round of `disk_encoding_nibblize_track`. -/
def nibblizeSector (sectorOrder : Nat → UInt8) (track : Nat)
    (sectors : Nat → UInt8) (sectorIdx : Nat) : List (UInt8 × UInt8) :=
  putData (addressField track.toUInt8 sectorIdx.toUInt8) ++ putGap gap2Size
    ++ putData (dataField (sectorAt sectors (sectorOrder sectorIdx).toNat))
    ++ putGap gap3Size

/-- The rounds of `disk_encoding_nibblize_track`. -/
def nibblizeSectors (sectorOrder : Nat → UInt8) (track : Nat)
    (sectors : Nat → UInt8) : List (UInt8 × UInt8) :=
  (List.range sectorsPerTrack).flatMap (nibblizeSector sectorOrder track sectors)

/-- `disk_encoding_nibblize_track`: the nibbles and their sync mask. -/
def diskEncodingNibblizeTrack (sectorOrder : Nat → UInt8) (track : Nat)
    (sectors : Nat → UInt8) : Except DiskError (List (UInt8 × UInt8)) :=
  if track ≥ tracksPerDisk then .error .invalidArgument
  else .ok (putGap gap1Size ++ nibblizeSectors sectorOrder track sectors)

/-! ## Reading a track -/

/-- `fetch_byte`: the nibble at the offset, and the offset after it. -/
def fetchByte (nibbles : List UInt8) (offset : Nat) : UInt8 × Nat :=
  (nibbles[offset]?.getD 0,
    if offset + 1 ≥ nibbles.length then 0 else offset + 1)

/-- `fetch_byte`, a number of times. -/
def fetchBytes (nibbles : List UInt8) : Nat → Nat → List UInt8 × Nat
  | 0, offset => ([], offset)
  | n + 1, offset =>
    let (b, offset) := fetchByte nibbles offset
    let (bs, offset) := fetchBytes nibbles n offset
    (b :: bs, offset)

/-- `fetch_4and4` -/
def fetch4and4 (nibbles : List UInt8) (offset : Nat) : UInt8 × Nat :=
  let (high, offset) := fetchByte nibbles offset
  let (low, offset) := fetchByte nibbles offset
  (((high <<< 1) ||| 1) &&& low, offset)

/-- `epilogue_follows` -/
def epilogueFollows (nibbles : List UInt8) (offset : Nat) : Bool × Nat :=
  let (first, offset) := fetchByte nibbles offset
  let (second, offset) := fetchByte nibbles offset
  let (third, offset) := fetchByte nibbles offset
  (first == epilogue1 && second == epilogue2 && third == epilogue3, offset)

/-- The loop of `find_next_marker`, with the rounds that are left: the
offset after the marker. -/
def findNextMarker (nibbles : List UInt8) : Nat → Nat → Option Nat
  | 0, _ => none
  | n + 1, offset =>
    let (b, offset) := fetchByte nibbles offset
    if b = prologue1 ∧ nibbles[offset]?.getD 0 = prologue2 then
      some (fetchByte nibbles offset).2
    else findNextMarker nibbles n offset

/-- The variables of `disk_encoding_denibblize_track`. -/
structure DenibblizeState where
  /-- `current_offset` -/
  offset : Nat
  /-- `current_sector` -/
  currentSector : Option Nat
  /-- `decoded_sectors_mask` -/
  decodedSectorsMask : UInt16
  /-- `field_refused` -/
  fieldRefused : Bool
  /-- `staging` -/
  staging : Nat → UInt8

/-- The sectors with one of them replaced. -/
def putSector (staging : Nat → UInt8) (sector : Nat) (image : UInt8 → UInt8) :
    Nat → UInt8 := fun a =>
  if a / sectorSize = sector then image (a % sectorSize).toUInt8 else staging a

/-- `case addr_prologue_3` -/
def readAddressField (track : Nat) (nibbles : List UInt8)
    (s : DenibblizeState) : DenibblizeState :=
  let (volume, offset) := fetch4and4 nibbles s.offset
  let (addressTrack, offset) := fetch4and4 nibbles offset
  let (sector, offset) := fetch4and4 nibbles offset
  let (checksum, offset) := fetch4and4 nibbles offset
  let (epilogue, offset) := epilogueFollows nibbles offset
  let addressHolds := epilogue && checksum == volume ^^^ addressTrack ^^^ sector
    && addressTrack == track.toUInt8 && sector < sectorsPerTrack.toUInt8
  { s with
    offset
    currentSector := if addressHolds then some sector.toNat else none
    fieldRefused := s.fieldRefused || !addressHolds }

/-- What `case data_prologue_3` does with a field whose sector is known. -/
def takeDataField (sectorOrder : Nat → UInt8) (field : List UInt8)
    (dataHolds : Bool) (sector : Nat) (s : DenibblizeState) : DenibblizeState :=
  let fileSector := (sectorOrder sector).toNat
  if !dataHolds || fileSector ≥ sectorsPerTrack then
    { s with fieldRefused := true }
  else
    match decodeSector62 field (sectorAt s.staging fileSector) with
    | none => { s with fieldRefused := true }
    | some image =>
      { s with
        staging := putSector s.staging fileSector image
        decodedSectorsMask := s.decodedSectorsMask ||| (1 <<< fileSector.toUInt16) }

/-- `case data_prologue_3` -/
def readDataField (sectorOrder : Nat → UInt8) (nibbles : List UInt8)
    (s : DenibblizeState) : DenibblizeState :=
  let (field, offset) := fetchBytes nibbles sectorWithChecksumSize s.offset
  let (dataHolds, offset) := epilogueFollows nibbles offset
  let s' := { s with offset }
  { (match s.currentSector with
      | none => s'
      | some sector => takeDataField sectorOrder field dataHolds sector s') with
    currentSector := none }

/-- The body of the loop, after a marker has been found. -/
def readField (sectorOrder : Nat → UInt8) (track : Nat) (nibbles : List UInt8)
    (s : DenibblizeState) : DenibblizeState :=
  let (markerType, offset) := fetchByte nibbles s.offset
  let s := { s with offset }
  if markerType = addrPrologue3 then readAddressField track nibbles s
  else if markerType = dataPrologue3 then readDataField sectorOrder nibbles s
  else s

/-- The loop of `disk_encoding_denibblize_track`, with the markers that may
still be found. -/
def denibblizeFields (sectorOrder : Nat → UInt8) (track : Nat)
    (nibbles : List UInt8) : Nat → DenibblizeState → DenibblizeState
  | 0, s => s
  | n + 1, s =>
    if s.decodedSectorsMask = allSectorsMask then s
    else
      match findNextMarker nibbles nibbles.length s.offset with
      | none => s
      | some offset => denibblizeFields sectorOrder track nibbles n
          (readField sectorOrder track nibbles { s with offset })

/-- `disk_encoding_denibblize_track`: the answer, and the caller's sectors
after it. -/
def diskEncodingDenibblizeTrack (sectorOrder : Nat → UInt8) (track : Nat)
    (nibbles : List UInt8) (sectorsOut : Nat → UInt8) :
    DiskError × (Nat → UInt8) :=
  if nibbles.length = 0 then (.invalidArgument, sectorsOut)
  else
    let s := denibblizeFields sectorOrder track nibbles maxGcrMarkersPerTrack
      ⟨0, none, 0, false, fun _ => 0⟩
    if s.fieldRefused || s.decodedSectorsMask ≠ allSectorsMask then
      (.corrupt, sectorsOut)
    else
      (.none, pokes sectorsOut 0 (peeks s.staging 0 trackImageSize))

end LinApple.Disk
