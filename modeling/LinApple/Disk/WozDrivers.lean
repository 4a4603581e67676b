import LinApple.Disk.Cells
import LinApple.Disk.Drive
import LinApple.Disk.WozChunk

/-!
# The drivers of WOZ images

Both versions say in a map which track record is under the head over a quarter track. A WOZ 1
record is one of equal size in the TRKS chunk, with its number of cells at its end; a WOZ 2 record
is where an entry of that chunk says, in blocks, and as long as the entry says. Whatever a file
says, what is read lies in it (`woz_stays`), and what is handed back are the cells of that record.

The file is arbitrary, and so is where in it the image begins. Every number in it may be wrong:
the sizes of chunks, the offsets of records, the numbers of cells. So what is to be shown is not
that a well formed file is read well, but that no file leads a read astray. Each access is noted
down as it is made (`WozAccess`), with its place and its length, and a read of the header that was
loaded is told from one of the file. The statement is about this list, whether the driver hands
something back in the end or refuses.

A search that does not end would be a failure of its own (`loops`), which the statement excludes.
The search walks from chunk to chunk by sizes that the file gives, and a size near the top of 32
bits is one to be careful with; the reason that it ends is that each step goes further into a
header of fixed size.

`ServesRecord` has two fields, as cells could be right by accident. They are those of the record,
and they have been read there. A quarter track that the map leaves out has no record, and then no
cells are handed back, which the same structure says with an empty option. Which record belongs to
a quarter track is stated in the words of the format, from the map of the file, apart from how the
driver comes to it.
-/

namespace LinApple.Disk

open ByteMap Woz
open Byte (readU16Le readU32Le)

/-! ## Records -/

/-- What `read_track_bits` hands back if it does not refuse. Where it does, the
number of cells it hands back is zero. -/
structure WozCells where
  /-- `bits` -/
  bits : Nat → UInt8
  /-- `out_bit_count` -/
  bitCount : Nat
  /-- `out_bit_timing` -/
  bitTiming : UInt8

/-- **A track record**: where in the file its cells are, and how many. -/
structure WozRecord where
  /-- Where the cells are. -/
  position : Nat
  /-- The number of cells. -/
  bitCount : Nat
deriving DecidableEq, Repr

/-- **The cells of a record**; there are none of a quarter track that has not been
recorded. -/
def WozFile.cells (file : WozFile) : Option WozRecord → List Bool
  | none => []
  | some record => peeks (cellAt fun i => file.byte (record.position + i)) 0 record.bitCount

/-- **What is handed back are the cells of a record**, and no more than have been
read where it is. -/
structure ServesRecord (file : WozFile) (record : Option WozRecord) (answer : WozCells)
    (trace : List WozAccess) : Prop where
  /-- The cells are those of the record. -/
  cells : peeks (cellAt answer.bits) 0 answer.bitCount = file.cells record
  /-- They have been read. -/
  bitCount_le : ∀ r ∈ record, ∃ length,
    WozAccess.file r.position length ∈ trace ∧ answer.bitCount ≤ length * bitsPerByte

/-! ## WOZ 2 -/

namespace Woz2

/-- `header_size` -/
def headerSize : Nat := 1536
/-- `data_block_size` -/
def dataBlockSize : Nat := 512
/-- `trks_entry_size` -/
def trksEntrySize : Nat := 8
/-- `info_optimal_bit_timing_offset` -/
def infoOptimalBitTimingOffset : Nat := 39
/-- `info_version_2_0` -/
def infoVersion20 : UInt8 := 2
/-- `info_version_2_1` -/
def infoVersion21 : UInt8 := 3
/-- `first_data_block` -/
def firstDataBlock : Nat := 3
/-- `bits_per_block` -/
def bitsPerBlock : Nat := dataBlockSize * bitsPerByte
/-- `max_track_blocks` -/
def maxTrackBlocks : Nat := maxTrackBits / bitsPerBlock

end Woz2

/-- `Woz2Instance` -/
structure Woz2Instance where
  /-- `file` -/
  file : WozFile
  /-- `header` -/
  header : List UInt8
  /-- `tmap_offset` -/
  tmapOffset : Nat
  /-- `trks_offset` -/
  trksOffset : Nat
  /-- `base_offset` -/
  baseOffset : UInt32
  /-- `optimal_bit_timing` -/
  optimalBitTiming : UInt8
  /-- `format_write_protected` -/
  formatWriteProtected : Bool
  /-- `host_read_only` -/
  hostReadOnly : Bool

/-- `woz2_open` of a file that can be opened for reading, and for writing if
`writable`. -/
def woz2Open (file : WozFile) (writable : Bool) (fileOffset : UInt32) (readOnly : Bool) :
    Woz Woz2Instance :=
  let header := peeks file.byte fileOffset.toNat
    (min Woz2.headerSize (file.size - fileOffset.toNat))
  if header.length ≠ Woz2.headerSize then refuse .io
  else do
    let info ← wozFindChunk header infoId
    let tmap ← wozFindChunk header tmapId
    let trks ← wozFindChunk header trksId
    if info.1 = 0 ∨ tmap.1 = 0 ∨ trks.1 = 0 then refuse .corrupt
    else
      match ← wozHeaderAt header info.1 (infoWriteProtectOffset + 1) with
      | none => refuse .corrupt
      | some infoData =>
        match ← wozHeaderAt header tmap.1 tmapEntries with
        | none => refuse .corrupt
        | some _ =>
          match ← wozHeaderAt header trks.1 Woz2.trksEntrySize with
          | none => refuse .corrupt
          | some _ =>
            let infoVersion := infoData.getD infoVersionOffset 0
            if infoVersion ≠ Woz2.infoVersion20 ∧ infoVersion ≠ Woz2.infoVersion21 then
              refuse .unsupportedFormat
            else if infoData.getD infoDiskTypeOffset 0 ≠ diskType525 then
              refuse .unsupportedFormat
            else
              let timing ← wozHeaderAt header
                ((info.1 + Woz2.infoOptimalBitTimingOffset) % 2 ^ 32) 1
              Traced.note (.header crc32Offset 4)
              wozVerifyCrc32 file fileOffset (readU32Le (header.drop crc32Offset))
              return {
                file := file
                header := header
                tmapOffset := tmap.1
                trksOffset := trks.1
                baseOffset := fileOffset
                optimalBitTiming := match timing with
                  | some bytes =>
                    if bytes.getD 0 0 ≠ 0 then bytes.getD 0 0 else diskDefaultBitTiming
                  | none => diskDefaultBitTiming
                formatWriteProtected := infoData.getD infoWriteProtectOffset 0 != 0
                hostReadOnly := readOnly || !writable }

namespace Woz2Instance

/-- `woz2_read_track_bits` -/
def woz2ReadTrackBits (w : Woz2Instance) (quarterTrack : Nat) (bits : Nat → UInt8)
    (maxBits : Nat) : Woz WozCells :=
  if quarterTrack ≥ tmapEntries then refuse .invalidArgument
  else do
    match ← wozHeaderAt w.header ((w.tmapOffset + quarterTrack) % 2 ^ 32) 1 with
    | none => refuse .corrupt
    | some tmapEntry =>
      let trksIndex := tmapEntry.getD 0 0
      if trksIndex = unrecordedTrack then return ⟨bits, 0, w.optimalBitTiming⟩
      else if trksIndex.toNat ≥ tmapEntries then refuse .corrupt
      else
        match ← wozHeaderAt w.header (w.trksOffset + trksIndex.toNat * Woz2.trksEntrySize)
          Woz2.trksEntrySize with
        | none => refuse .corrupt
        | some trk =>
          let startingBlock := (readU16Le trk).toNat
          let blockCount := (readU16Le (trk.drop 2)).toNat
          let bitCount := (readU32Le (trk.drop 4)).toNat
          if blockCount = 0 ∨ startingBlock < Woz2.firstDataBlock then refuse .corrupt
          else if blockCount > Woz2.maxTrackBlocks then refuse .unsupported
          else
            let byteCount := blockCount * Woz2.dataBlockSize % 2 ^ 32
            if bitCount = 0 ∨ bitCount > byteCount * bitsPerByte % 2 ^ 32 then refuse .corrupt
            else if bitCount > maxBits then refuse .unsupported
            else
              let recordOffset :=
                (w.baseOffset.toNat + startingBlock * Woz2.dataBlockSize) % 2 ^ 64
              if (recordOffset + byteCount) % 2 ^ 64 > w.file.size then refuse .corrupt
              else
                let cellBytes := (bitCount + 7) % 2 ^ 32 / 8
                let read ← w.file.read recordOffset cellBytes
                if read.length ≠ cellBytes then refuse .io
                else return ⟨pokes bits 0 read, bitCount, w.optimalBitTiming⟩

/-- The record an entry is about. -/
def entry (w : Woz2Instance) (index : UInt8) : WozRecord :=
  let entry := peeks w.file.byte
    (w.baseOffset.toNat + w.trksOffset + index.toNat * Woz2.trksEntrySize) Woz2.trksEntrySize
  ⟨w.baseOffset.toNat + (readU16Le entry).toNat * Woz2.dataBlockSize,
    (readU32Le (entry.drop 4)).toNat⟩

/-- **The record the map names**, as the file says. -/
def record (w : Woz2Instance) (quarterTrack : Nat) : Option WozRecord :=
  let index := w.file.byte (w.baseOffset.toNat + w.tmapOffset + quarterTrack)
  if index = unrecordedTrack then none else some (w.entry index)

end Woz2Instance

/-! ## WOZ 1 -/

namespace Woz1

/-- `header_size` -/
def headerSize : Nat := 256
/-- `trks_record_size` -/
def trksRecordSize : Nat := 6656
/-- `trks_bits_size` -/
def trksBitsSize : Nat := 6646
/-- `trks_bit_count_offset` -/
def trksBitCountOffset : Nat := trksBitsSize + 2
/-- `trks_bit_count_size` -/
def trksBitCountSize : Nat := 2
/-- `info_version_1_0` -/
def infoVersion10 : UInt8 := 1

end Woz1

/-- `Woz1Instance` -/
structure Woz1Instance where
  /-- `file` -/
  file : WozFile
  /-- `header` -/
  header : List UInt8
  /-- `tmap_offset` -/
  tmapOffset : Nat
  /-- `trks_offset` -/
  trksOffset : Nat
  /-- `trks_record_count` -/
  trksRecordCount : Nat
  /-- `base_offset` -/
  baseOffset : UInt32
  /-- `format_write_protected` -/
  formatWriteProtected : Bool
  /-- `host_read_only` -/
  hostReadOnly : Bool

/-- `woz1_open` of a file that can be opened for reading. -/
def woz1Open (file : WozFile) (fileOffset : UInt32) (readOnly : Bool) : Woz Woz1Instance :=
  let header := peeks file.byte fileOffset.toNat
    (min Woz1.headerSize (file.size - fileOffset.toNat))
  if header.length ≠ Woz1.headerSize then refuse .io
  else do
    let info ← wozFindChunk header infoId
    let tmap ← wozFindChunk header tmapId
    let trks ← wozFindChunk header trksId
    if info.1 = 0 ∨ tmap.1 = 0 ∨ trks.1 = 0 then refuse .corrupt
    else
      match ← wozHeaderAt header info.1 (infoWriteProtectOffset + 1) with
      | none => refuse .corrupt
      | some infoData =>
        match ← wozHeaderAt header tmap.1 tmapEntries with
        | none => refuse .corrupt
        | some _ =>
          if infoData.getD infoVersionOffset 0 ≠ Woz1.infoVersion10
            ∨ infoData.getD infoDiskTypeOffset 0 ≠ diskType525 then refuse .unsupportedFormat
          else
            Traced.note (.header crc32Offset 4)
            wozVerifyCrc32 file fileOffset (readU32Le (header.drop crc32Offset))
            return {
              file := file
              header := header
              tmapOffset := tmap.1
              trksOffset := trks.1
              trksRecordCount := trks.2 / Woz1.trksRecordSize
              baseOffset := fileOffset
              formatWriteProtected := infoData.getD infoWriteProtectOffset 0 != 0
              hostReadOnly := readOnly }

namespace Woz1Instance

/-- `woz1_read_track_bits` -/
def woz1ReadTrackBits (w : Woz1Instance) (quarterTrack : Nat) (bits : Nat → UInt8)
    (maxBits : Nat) : Woz WozCells :=
  if quarterTrack ≥ tmapEntries then refuse .invalidArgument
  else do
    match ← wozHeaderAt w.header ((w.tmapOffset + quarterTrack) % 2 ^ 32) 1 with
    | none => refuse .corrupt
    | some tmapEntry =>
      let trksIndex := tmapEntry.getD 0 0
      if trksIndex = unrecordedTrack then return ⟨bits, 0, diskDefaultBitTiming⟩
      else if trksIndex.toNat ≥ w.trksRecordCount then refuse .corrupt
      else
        let recordOffset := (w.baseOffset.toNat + w.trksOffset
          + trksIndex.toNat * Woz1.trksRecordSize) % 2 ^ 64
        if (recordOffset + Woz1.trksRecordSize) % 2 ^ 64 > w.file.size then refuse .corrupt
        else
          let bitCountBytes ← w.file.read (recordOffset + Woz1.trksBitCountOffset)
            Woz1.trksBitCountSize
          if bitCountBytes.length ≠ Woz1.trksBitCountSize then refuse .io
          else
            let bitCount := (readU16Le bitCountBytes).toNat
            if bitCount = 0 ∨ bitCount > Woz1.trksBitsSize * bitsPerByte then refuse .corrupt
            else if bitCount > maxBits then refuse .unsupported
            else
              let cellBytes := (bitCount + 7) % 2 ^ 32 / 8
              let read ← w.file.read recordOffset cellBytes
              if read.length ≠ cellBytes then refuse .io
              else return ⟨pokes bits 0 read, bitCount, diskDefaultBitTiming⟩

/-- The record of a number. -/
def entry (w : Woz1Instance) (index : UInt8) : WozRecord :=
  let position := w.baseOffset.toNat + w.trksOffset + index.toNat * 6656
  ⟨position, (readU16Le (peeks w.file.byte (position + 6648) 2)).toNat⟩

/-- **The record the map names**, as the file says. -/
def record (w : Woz1Instance) (quarterTrack : Nat) : Option WozRecord :=
  let index := w.file.byte (w.baseOffset.toNat + w.tmapOffset + quarterTrack)
  if index = unrecordedTrack then none else some (w.entry index)

end Woz1Instance

/-! ## What has been opened -/

/-- **The part of a file that has been loaded**, with the chunks that have been found
in it. -/
structure Loaded (file : WozFile) (baseOffset : UInt32) (header : List UInt8)
    (headerSize tmapOffset trksOffset : Nat) : Prop where
  /-- The file has it. -/
  inFile : baseOffset.toNat + headerSize ≤ file.size
  /-- It is what the file has. -/
  header_eq : header = peeks file.byte baseOffset.toNat headerSize
  /-- The map is a chunk of that name. -/
  isTmap : ∃ size, IsChunk header tmapId tmapOffset size
  /-- The records are a chunk of that name. -/
  isTrks : ∃ size, IsChunk header trksId trksOffset size
  /-- The map has been loaded as a whole. -/
  tmap_le : tmapOffset + tmapEntries ≤ headerSize

theorem length_loaded {file : WozFile} {base headerSize : Nat}
    (h : (peeks file.byte base (min headerSize (file.size - base))).length = headerSize)
    (hpos : 0 < headerSize) :
    base + headerSize ≤ file.size
      ∧ peeks file.byte base (min headerSize (file.size - base))
        = peeks file.byte base headerSize := by
  rw [length_peeks] at h
  rw [h]
  exact ⟨by omega, rfl⟩

/-- **Opening a WOZ 2 file** looks at what is there only, and comes to an end. -/
theorem stays_woz2Open (file : WozFile) (writable : Bool) (fileOffset : UInt32)
    (readOnly : Bool) :
    Stays (woz2Open file writable fileOffset readOnly) file.size fileOffset.toNat Woz2.headerSize
      fun w _ => w.file = file ∧ w.baseOffset = fileOffset
        ∧ Loaded file fileOffset w.header Woz2.headerSize w.tmapOffset w.trksOffset := by
  unfold woz2Open
  dsimp only
  refine stays_guard fun hshort => ?_
  obtain ⟨hin, hheader⟩ := length_loaded (not_not.1 hshort) (by decide)
  rw [hheader]
  have hlength : (peeks file.byte fileOffset.toNat Woz2.headerSize).length = Woz2.headerSize :=
    length_peeks _ _ _
  generalize hloaded : peeks file.byte fileOffset.toNat Woz2.headerSize = header at hlength
  have hinHeader : fileOffset.toNat + header.length ≤ file.size := hlength ▸ hin
  have hsmall : header.length < 2 ^ 32 := hlength ▸ (by decide : Woz2.headerSize < 2 ^ 32)
  have hlong : fileHeaderSize ≤ header.length :=
    hlength ▸ (by decide : fileHeaderSize ≤ Woz2.headerSize)
  have hcrc : crc32Offset + 4 ≤ header.length :=
    hlength ▸ (by decide : crc32Offset + 4 ≤ Woz2.headerSize)
  rw [← hlength]
  -- the three chunks are found before any of them is read
  refine .bind (stays_wozFindChunk hinHeader hsmall hlong infoId) fun info _ _ => ?_
  refine .bind (stays_wozFindChunk hinHeader hsmall hlong tmapId) fun tmap _ htmap => ?_
  refine .bind (stays_wozFindChunk hinHeader hsmall hlong trksId) fun trks _ htrks => ?_
  refine stays_guard fun hfound => ?_
  rw [not_or, not_or] at hfound
  obtain ⟨-, hfoundTmap, hfoundTrks⟩ := hfound
  refine .bind (stays_wozHeaderAt hinHeader _ (by decide)) fun infoData _ _ => ?_
  cases infoData with
  | none => exact stays_refuse .corrupt
  | some infoData =>
    refine .bind (stays_wozHeaderAt hinHeader _ (by decide)) fun tmapData _ htmapIn => ?_
    cases tmapData with
    | none => exact stays_refuse .corrupt
    | some tmapData =>
      refine .bind (stays_wozHeaderAt hinHeader _ (by decide)) fun trksData _ _ => ?_
      cases trksData with
      | none => exact stays_refuse .corrupt
      | some trksData =>
        dsimp only
        split_ifs
        · exact stays_refuse .unsupportedFormat
        · exact stays_refuse .unsupportedFormat
        · refine .bind (stays_wozHeaderAt hinHeader _ (by decide)) fun timing _ _ => ?_
          refine .bind (.note ⟨hcrc, by omega⟩) fun _ _ _ => ?_
          exact .bind (stays_wozVerifyCrc32 (by omega) _) fun _ _ _ => .pure ⟨rfl, rfl, {
            inFile := hinHeader
            header_eq := by
              show header = _
              rw [hlength, hloaded]
            isTmap := ⟨tmap.2, htmap hfoundTmap⟩
            isTrks := ⟨trks.2, htrks hfoundTrks⟩
            tmap_le := (htmapIn _ rfl).1 }⟩

/-- **Opening a WOZ 1 file** looks at what is there only, and comes to an end. -/
theorem stays_woz1Open (file : WozFile) (fileOffset : UInt32) (readOnly : Bool) :
    Stays (woz1Open file fileOffset readOnly) file.size fileOffset.toNat Woz1.headerSize
      fun w _ => w.file = file ∧ w.baseOffset = fileOffset
        ∧ Loaded file fileOffset w.header Woz1.headerSize w.tmapOffset w.trksOffset := by
  unfold woz1Open
  dsimp only
  refine stays_guard fun hshort => ?_
  obtain ⟨hin, hheader⟩ := length_loaded (not_not.1 hshort) (by decide)
  rw [hheader]
  have hlength : (peeks file.byte fileOffset.toNat Woz1.headerSize).length = Woz1.headerSize :=
    length_peeks _ _ _
  generalize hloaded : peeks file.byte fileOffset.toNat Woz1.headerSize = header at hlength
  have hinHeader : fileOffset.toNat + header.length ≤ file.size := hlength ▸ hin
  have hsmall : header.length < 2 ^ 32 := hlength ▸ (by decide : Woz1.headerSize < 2 ^ 32)
  have hlong : fileHeaderSize ≤ header.length :=
    hlength ▸ (by decide : fileHeaderSize ≤ Woz1.headerSize)
  have hcrc : crc32Offset + 4 ≤ header.length :=
    hlength ▸ (by decide : crc32Offset + 4 ≤ Woz1.headerSize)
  rw [← hlength]
  refine .bind (stays_wozFindChunk hinHeader hsmall hlong infoId) fun info _ _ => ?_
  refine .bind (stays_wozFindChunk hinHeader hsmall hlong tmapId) fun tmap _ htmap => ?_
  refine .bind (stays_wozFindChunk hinHeader hsmall hlong trksId) fun trks _ htrks => ?_
  refine stays_guard fun hfound => ?_
  rw [not_or, not_or] at hfound
  obtain ⟨-, hfoundTmap, hfoundTrks⟩ := hfound
  refine .bind (stays_wozHeaderAt hinHeader _ (by decide)) fun infoData _ _ => ?_
  cases infoData with
  | none => exact stays_refuse .corrupt
  | some infoData =>
    refine .bind (stays_wozHeaderAt hinHeader _ (by decide)) fun tmapData _ htmapIn => ?_
    cases tmapData with
    | none => exact stays_refuse .corrupt
    | some tmapData =>
      dsimp only
      split_ifs
      · exact stays_refuse .unsupportedFormat
      · refine .bind (.note ⟨hcrc, by omega⟩) fun _ _ _ => ?_
        exact .bind (stays_wozVerifyCrc32 (by omega) _) fun _ _ _ => .pure ⟨rfl, rfl, {
          inFile := hinHeader
          header_eq := by
            show header = _
            rw [hlength, hloaded]
          isTmap := ⟨tmap.2, htmap hfoundTmap⟩
          isTrks := ⟨trks.2, htrks hfoundTrks⟩
          tmap_le := (htmapIn _ rfl).1 }⟩

/-! ## What is read -/

/-- Bytes of what has been loaded are bytes of the file. -/
theorem take_drop_peeks (m : Nat → UInt8) (base : Nat) {n offset len : Nat}
    (h : offset + len ≤ n) :
    ((peeks m base n).drop offset).take len = peeks m (base + offset) len := by
  have hsplit : peeks m base n = peeks m base offset ++ (peeks m (base + offset) len
      ++ peeks m (base + offset + len) (n - (offset + len))) := by
    rw [peeks_append, peeks_append]
    congr 1
    omega
  rw [hsplit, List.drop_left' (length_peeks _ _ _), List.take_left' (length_peeks _ _ _)]

theorem getD_peeks_one (m : Nat → UInt8) (a : Nat) (d : UInt8) : (peeks m a 1).getD 0 d = m a :=
  rfl

/-- **Cells that have been read are those of the file.** -/
theorem cells_pokes (file : WozFile) (bits : Nat → UInt8) (position bitCount : Nat) :
    peeks (cellAt (pokes bits 0 (peeks file.byte position ((bitCount + 7) / 8)))) 0 bitCount
      = file.cells (some ⟨position, bitCount⟩) := by
  refine List.map_congr_left fun i hi => ?_
  have hi : i < bitCount := List.mem_range.1 hi
  have hbyte : pokes bits 0 (peeks file.byte position ((bitCount + 7) / 8)) (0 + i / 8)
      = file.byte (position + i / 8) := by
    rw [pokes_add _ _ (by rw [length_peeks]; omega), getElem_peeks]
  rw [Nat.zero_add] at hbyte ⊢
  unfold cellAt
  rw [hbyte]

/-- **What is read of a record serves it.** -/
theorem servesRecord_read (file : WozFile) (bits : Nat → UInt8) {record : WozRecord}
    (bitTiming : UInt8) {trace : List WozAccess}
    (hread : WozAccess.file record.position ((record.bitCount + 7) / 8) ∈ trace) :
    ServesRecord file (some record) ⟨pokes bits 0
      (peeks file.byte record.position ((record.bitCount + 7) / 8)), record.bitCount, bitTiming⟩
      trace where
  cells := cells_pokes file bits record.position record.bitCount
  bitCount_le r hr := by
    obtain rfl := Option.some.inj hr
    refine ⟨_, hread, ?_⟩
    show record.bitCount ≤ (record.bitCount + 7) / 8 * 8
    omega

/-- Nothing is handed back of a quarter track that has not been recorded. -/
theorem servesRecord_none (file : WozFile) (bits : Nat → UInt8) (bitTiming : UInt8)
    (trace : List WozAccess) : ServesRecord file none ⟨bits, 0, bitTiming⟩ trace where
  cells := rfl
  bitCount_le _ hr := nomatch hr

theorem stays_woz2ReadTrackBits {w : Woz2Instance}
    (h : Loaded w.file w.baseOffset w.header Woz2.headerSize w.tmapOffset w.trksOffset)
    (quarterTrack : Nat) (bits : Nat → UInt8) (maxBits : Nat) :
    Stays (w.woz2ReadTrackBits quarterTrack bits maxBits) w.file.size w.baseOffset.toNat
      Woz2.headerSize (ServesRecord w.file (w.record quarterTrack)) := by
  have hlength : w.header.length = Woz2.headerSize := by rw [h.header_eq, length_peeks]
  have hin := h.inFile
  rw [← hlength] at hin
  have htmap := h.tmap_le
  -- the reads come in the driver's order, and each guard bounds the offset of the next one
  unfold Woz2Instance.woz2ReadTrackBits
  refine stays_guard fun hquarter => ?_
  unfold tmapEntries at htmap hquarter
  rw [Nat.mod_eq_of_lt (by unfold Woz2.headerSize at htmap; omega), ← hlength]
  refine .bind (stays_wozHeaderAt hin _ (by decide)) fun tmapEntry _ hentry => ?_
  cases tmapEntry with
  | none => exact stays_refuse .corrupt
  | some tmapEntry =>
    obtain ⟨hentryIn, rfl⟩ := hentry _ rfl
    rw [hlength] at hentryIn
    rw [h.header_eq, take_drop_peeks _ _ hentryIn, ← h.header_eq, ← Nat.add_assoc]
    have hrecord : w.record quarterTrack
        = if w.file.byte (w.baseOffset.toNat + w.tmapOffset + quarterTrack) = unrecordedTrack
          then none
          else some (w.entry (w.file.byte (w.baseOffset.toNat + w.tmapOffset + quarterTrack))) :=
      rfl
    dsimp only
    rw [getD_peeks_one, hrecord]
    generalize w.file.byte (w.baseOffset.toNat + w.tmapOffset + quarterTrack) = index
    -- a quarter track that the map marks as unrecorded has no entry to read
    by_cases hunrecorded : index = unrecordedTrack
    · rw [if_pos hunrecorded, if_pos hunrecorded]
      exact .pure (servesRecord_none _ _ _ _)
    rw [if_neg hunrecorded, if_neg hunrecorded]
    refine stays_guard fun hindex => ?_
    refine .bind (stays_wozHeaderAt hin _ (by decide)) fun trk _ htrk => ?_
    cases trk with
    | none => exact stays_refuse .corrupt
    | some trk =>
      obtain ⟨htrkIn, rfl⟩ := htrk _ rfl
      rw [hlength] at htrkIn
      rw [h.header_eq, take_drop_peeks _ _ htrkIn, ← h.header_eq, ← Nat.add_assoc]
      unfold Woz2Instance.entry
      show Stays _ _ _ _ _
      generalize peeks w.file.byte
        (w.baseOffset.toNat + w.trksOffset + index.toNat * Woz2.trksEntrySize)
        Woz2.trksEntrySize = trk
      dsimp only
      have hstart : (readU16Le trk).toNat * Woz2.dataBlockSize < 2 ^ 25 := by
        have hblock := (readU16Le trk).toNat_lt
        unfold Woz2.dataBlockSize
        omega
      have hbits : (readU32Le (trk.drop 4)).toNat < 2 ^ 32 := UInt32.toNat_lt _
      have hbase : w.baseOffset.toNat < 2 ^ 32 := UInt32.toNat_lt _
      -- the entry's three fields may hold anything: the guards that follow are all that is known
      generalize hstartOffset : (readU16Le trk).toNat * Woz2.dataBlockSize = startOffset at hstart ⊢
      generalize (readU16Le (trk.drop 2)).toNat = blockCount
      generalize (readU32Le (trk.drop 4)).toNat = bitCount at hbits ⊢
      refine stays_guard fun hblocks => stays_guard fun hmany => stays_guard fun hcount =>
        stays_guard fun hmax => stays_guard fun hlong => ?_
      have hbyteCount : blockCount * Woz2.dataBlockSize ≤ 8704 := by
        have hmost : Woz2.maxTrackBlocks = 17 := by decide
        unfold Woz2.dataBlockSize
        omega
      have hbitsPerByte : bitsPerByte = 8 := rfl
      generalize blockCount * Woz2.dataBlockSize = byteCount at hbyteCount hcount hlong
      rw [hbitsPerByte] at hcount
      have hoffset : (w.baseOffset.toNat + startOffset) % 2 ^ 64
          = w.baseOffset.toNat + startOffset := Nat.mod_eq_of_lt (by omega)
      have hcells : (bitCount + 7) % 2 ^ 32 / 8 = (bitCount + 7) / 8 := by omega
      rw [hoffset] at hlong ⊢
      rw [hcells]
      refine .bind (stays_read (by omega)) fun read t hread => ?_
      obtain ⟨rfl, rfl⟩ := hread
      rw [if_neg (by rw [length_peeks]; exact not_not.2 rfl)]
      exact .pure (servesRecord_read w.file bits w.optimalBitTiming (by simp))

theorem stays_woz1ReadTrackBits {w : Woz1Instance}
    (h : Loaded w.file w.baseOffset w.header Woz1.headerSize w.tmapOffset w.trksOffset)
    (quarterTrack : Nat) (bits : Nat → UInt8) (maxBits : Nat) :
    Stays (w.woz1ReadTrackBits quarterTrack bits maxBits) w.file.size w.baseOffset.toNat
      Woz1.headerSize (ServesRecord w.file (w.record quarterTrack)) := by
  have hlength : w.header.length = Woz1.headerSize := by rw [h.header_eq, length_peeks]
  have hin := h.inFile
  rw [← hlength] at hin
  have htmap := h.tmap_le
  obtain ⟨_, i, -, htrksIn, -, htrks, -⟩ := h.isTrks
  unfold Woz1Instance.woz1ReadTrackBits
  refine stays_guard fun hquarter => ?_
  unfold tmapEntries at htmap hquarter
  rw [Nat.mod_eq_of_lt (by unfold Woz1.headerSize at htmap; omega), ← hlength]
  refine .bind (stays_wozHeaderAt hin _ (by decide)) fun tmapEntry _ hentry => ?_
  cases tmapEntry with
  | none => exact stays_refuse .corrupt
  | some tmapEntry =>
    obtain ⟨hentryIn, rfl⟩ := hentry _ rfl
    rw [hlength] at hentryIn
    rw [h.header_eq, take_drop_peeks _ _ hentryIn, ← h.header_eq, ← Nat.add_assoc]
    have hrecord : w.record quarterTrack
        = if w.file.byte (w.baseOffset.toNat + w.tmapOffset + quarterTrack) = unrecordedTrack
          then none
          else some (w.entry (w.file.byte (w.baseOffset.toNat + w.tmapOffset + quarterTrack))) :=
      rfl
    dsimp only
    rw [getD_peeks_one, hrecord]
    generalize w.file.byte (w.baseOffset.toNat + w.tmapOffset + quarterTrack) = index
    have hrecordSize : Woz1.trksRecordSize = 6656 := rfl
    have hcountOffset : Woz1.trksBitCountOffset = 6648 := rfl
    have hcountSize : Woz1.trksBitCountSize = 2 := rfl
    have hmost : Woz1.trksBitsSize * bitsPerByte = 53168 := rfl
    have hbase : w.baseOffset.toNat < 2 ^ 32 := UInt32.toNat_lt _
    have hindex : index.toNat < 2 ^ 8 := UInt8.toNat_lt _
    -- the index is a byte and the chunk begins in the header, so the position cannot wrap
    have hplace : w.baseOffset.toNat + w.trksOffset + index.toNat * 6656 < 2 ^ 33 := by
      rw [hlength] at htrksIn
      unfold Woz1.headerSize chunkHeaderSize at *
      omega
    have hoffset : (w.baseOffset.toNat + w.trksOffset + index.toNat * 6656) % 2 ^ 64
        = w.baseOffset.toNat + w.trksOffset + index.toNat * 6656 := Nat.mod_eq_of_lt (by omega)
    unfold Woz1Instance.entry
    rw [hrecordSize, hcountOffset, hcountSize, hmost, hoffset]
    dsimp only
    generalize w.baseOffset.toNat + w.trksOffset + index.toNat * 6656 = position at hplace ⊢
    by_cases hunrecorded : index = unrecordedTrack
    · rw [if_pos hunrecorded, if_pos hunrecorded]
      exact .pure (servesRecord_none _ _ _ _)
    rw [if_neg hunrecorded, if_neg hunrecorded]
    refine stays_guard fun hrecords => stays_guard fun hlong => ?_
    refine .bind (stays_read (by omega)) fun countBytes _ hcountBytes => ?_
    obtain ⟨rfl, -⟩ := hcountBytes
    rw [if_neg (by rw [length_peeks]; exact not_not.2 rfl)]
    generalize (readU16Le (peeks w.file.byte (position + 6648) 2)).toNat = bitCount
    refine stays_guard fun hcount => stays_guard fun hmax => ?_
    have hcells : (bitCount + 7) % 2 ^ 32 / 8 = (bitCount + 7) / 8 := by omega
    rw [hcells]
    refine .bind (stays_read (by omega)) fun read t hread => ?_
    obtain ⟨rfl, rfl⟩ := hread
    rw [if_neg (by rw [length_peeks]; exact not_not.2 rfl)]
    exact .pure (servesRecord_read w.file bits diskDefaultBitTiming (by simp))

/-- **WOZ files are read within their bounds.** Whatever a file holds, opening it and
reading a track look only at what is there, and come to an end; what has been found
as the map and as the records are chunks of these names; and a track that is not
refused is the record the map names, of which no more is handed back than has been
read. -/
theorem woz_stays (file : WozFile) (fileOffset : UInt32) (writable readOnly : Bool) :
    (Stays (woz1Open file fileOffset readOnly) file.size fileOffset.toNat Woz1.headerSize
      fun w _ => w.file = file ∧ w.baseOffset = fileOffset
        ∧ Loaded file fileOffset w.header Woz1.headerSize w.tmapOffset w.trksOffset
        ∧ ∀ quarterTrack bits maxBits, Stays (w.woz1ReadTrackBits quarterTrack bits maxBits)
          file.size fileOffset.toNat Woz1.headerSize (ServesRecord file (w.record quarterTrack)))
    ∧ Stays (woz2Open file writable fileOffset readOnly) file.size fileOffset.toNat
      Woz2.headerSize
      fun w _ => w.file = file ∧ w.baseOffset = fileOffset
        ∧ Loaded file fileOffset w.header Woz2.headerSize w.tmapOffset w.trksOffset
        ∧ ∀ quarterTrack bits maxBits, Stays (w.woz2ReadTrackBits quarterTrack bits maxBits)
          file.size fileOffset.toNat Woz2.headerSize
          (ServesRecord file (w.record quarterTrack)) := by
  constructor
  · refine (stays_woz1Open file fileOffset readOnly).mono ?_
    rintro w _ ⟨rfl, rfl, hloaded⟩
    exact ⟨rfl, rfl, hloaded, fun quarterTrack bits maxBits =>
      stays_woz1ReadTrackBits hloaded quarterTrack bits maxBits⟩
  · refine (stays_woz2Open file writable fileOffset readOnly).mono ?_
    rintro w _ ⟨rfl, rfl, hloaded⟩
    exact ⟨rfl, rfl, hloaded, fun quarterTrack bits maxBits =>
      stays_woz2ReadTrackBits hloaded quarterTrack bits maxBits⟩

end LinApple.Disk
