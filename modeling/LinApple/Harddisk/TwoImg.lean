import LinApple.Harddisk.Image
import LinApple.Lib.Bytes
import Mathlib.Algebra.Group.Nat.Defs

/-!
# 2IMG images

A 2IMG file has a header in front of its blocks, which says where the blocks begin and how long
they are, and where a comment and what the creator left are, if there are such. All of it counts
from the header, and a container may place the header anywhere in the file.

The sum of the two offsets is taken in 32 bits. `servedAsDeclared_iff` says that an image that is
opened is served from the data area it declares exactly if that sum does not wrap.

Whether a header is accepted is decided by many checks, each about two or three of its numbers,
and the driver makes them in 64 bits. They are not hypotheses here. The hypothesis is that the
driver opens the file, and that the checks were passed follows from it (`Settles`). So the
statement is about every header, also those made to mislead, and about files of any size.

A byte of a block is where it should be if it is in the file, behind the header, in the area that
the header declares, and in neither of the other two areas (`IsDataPlace`). The area is taken from
the header as the format has it, with the size of the header where the offset is left zero, and
the length from the count of blocks or from what is left of the file where the format says so.
These are definitions of their own, beside the driver's. A comment may lie anywhere, before the
data as well as behind them, and an area of no bytes holds none.

Which way the equivalence is surprising is from left to right. If the sum wraps, the image is
opened all the same, since the checks do not see it, and the first block is then in front of where
it should be; there is no header for which a wrapped sum does no harm. Images that are opened are
never empty, so there is always a block to see it by.
-/

namespace LinApple.Harddisk

open ByteMap
open Byte (readU16Le readU32Le)

/-! ## The header -/

/-- `two_img_header_size` -/
def twoImgHeaderSize : Nat := 64
/-- `two_img_format_dos` -/
def twoImgFormatDos : Nat := 0
/-- `two_img_format_prodos` -/
def twoImgFormatProdos : Nat := 1
/-- `two_img_format_nibble` -/
def twoImgFormatNibble : Nat := 2
/-- `block_disk_image_dos_size` -/
def blockDiskImageDosSize : Nat := 143360
/-- `flag_locked` -/
def flagLocked : UInt32 := 0x80000000

/-- The bytes of `"2IMG"`. -/
def twoImgMagic : List UInt8 := [0x32, 0x49, 0x4D, 0x47]

namespace Field

/-- `header_size` -/
def headerSize : Nat := 0x08
/-- `image_format` -/
def imageFormat : Nat := 0x0C
/-- `flags` -/
def flags : Nat := 0x10
/-- `block_count` -/
def blockCount : Nat := 0x14
/-- `data_offset` -/
def dataOffset : Nat := 0x18
/-- `data_length` -/
def dataLength : Nat := 0x1C
/-- `comment_offset` -/
def commentOffset : Nat := 0x20
/-- `comment_length` -/
def commentLength : Nat := 0x24
/-- `creator_offset` -/
def creatorOffset : Nat := 0x28
/-- `creator_length` -/
def creatorLength : Nat := 0x2C

end Field

/-- `read_u32_le` of a field. -/
def field (header : List UInt8) (offset : Nat) : Nat := (readU32Le (header.drop offset)).toNat

theorem field_lt (header : List UInt8) (offset : Nat) : field header offset < 2 ^ 32 :=
  UInt32.toNat_lt _

/-- `TwoImgHeader` -/
structure TwoImgHeader where
  /-- `image_format` -/
  imageFormat : Nat
  /-- `data_offset` -/
  dataOffset : Nat
  /-- `data_length` -/
  dataLength : Nat
  /-- `block_count` -/
  blockCount : Nat
  /-- `locked` -/
  locked : Bool
deriving DecidableEq, Repr

/-- `chunk_is_placed` -/
def chunkIsPlaced (dataEnd fileSize offset length : Nat) : Bool :=
  length = 0 || (dataEnd ≤ offset && offset + length ≤ fileSize)

/-- The `switch` of `two_img_parse` over the format: what it refuses. -/
def refusedFormat (imageFormat length : Nat) : Option HarddiskError :=
  if imageFormat = twoImgFormatProdos then none
  else if imageFormat = twoImgFormatDos then
    if length ≠ blockDiskImageDosSize then some .invalidFormat else none
  else if imageFormat = twoImgFormatNibble then some .notBlockImage
  else some .invalidFormat

/-- `two_img_parse` -/
def twoImgParse (header : List UInt8) (fileSize : Nat) : Except HarddiskError TwoImgHeader :=
  if header.take 4 ≠ twoImgMagic then .error .invalidFormat
  else
    let headerSize := (readU16Le (header.drop Field.headerSize)).toNat
    if headerSize < twoImgHeaderSize ∨ headerSize > fileSize then .error .invalidFormat
    else
      let imageFormat := field header Field.imageFormat
      let flags := readU32Le (header.drop Field.flags)
      let blockCount := field header Field.blockCount
      let dataLength := field header Field.dataLength
      let dataOffset :=
        if field header Field.dataOffset = 0 then headerSize else field header Field.dataOffset
      if dataOffset < headerSize ∨ dataOffset > fileSize then .error .invalidFormat
      else
        let named := if dataLength = 0 ∧ imageFormat = twoImgFormatProdos then
          blockCount * blockSize else dataLength
        let length := if named = 0 then fileSize - dataOffset else named
        if imageFormat = twoImgFormatProdos ∧ blockCount ≠ 0 ∧ dataLength ≠ 0
          ∧ blockCount * blockSize ≠ dataLength then .error .invalidFormat
        else if length = 0 ∨ length % blockSize ≠ 0 ∨ length > 0xFFFFFFFF
          ∨ dataOffset + length > fileSize then .error .invalidFormat
        else
          match refusedFormat imageFormat length with
          | some error => .error error
          | none =>
            let dataEnd := dataOffset + length
            if !chunkIsPlaced dataEnd fileSize (field header Field.commentOffset)
                (field header Field.commentLength)
              || !chunkIsPlaced dataEnd fileSize (field header Field.creatorOffset)
                (field header Field.creatorLength) then .error .invalidFormat
            else .ok {
              imageFormat := imageFormat
              dataOffset := dataOffset
              dataLength := length
              blockCount := length / blockSize
              locked := flags &&& flagLocked != 0 }

/-- `two_img_open` of a file that can be opened for reading, and for writing if
`writable`. The sum of the offsets is one of 32 bits. -/
def twoImgOpen (file : HostFile) (writable : Bool) (fileOffset : UInt32) (readOnly : Bool) :
    Except HarddiskError BlockDiskImage :=
  if file.size < fileOffset.toNat + twoImgHeaderSize then .error .invalidFormat
  else
    match twoImgParse (peeks file.byte fileOffset.toNat twoImgHeaderSize)
      (file.size - fileOffset.toNat) with
    | .error error => .error error
    | .ok parsed =>
      let order := if parsed.imageFormat = twoImgFormatDos then .dos else .prodos
      blockDiskImageOpen file writable ((fileOffset.toNat + parsed.dataOffset) % 2 ^ 32) order
        parsed.blockCount (readOnly || parsed.locked)

/-! ## What a header declares -/

/-- Where the header says that the data begin: behind it, if it does not say. -/
def declaredOffset (header : List UInt8) : Nat :=
  if field header Field.dataOffset = 0 then (readU16Le (header.drop Field.headerSize)).toNat
  else field header Field.dataOffset

/-- How long the header says that the data are: they go on to the end of the file, if
it does not say. -/
def declaredLength (header : List UInt8) (fileSize : Nat) : Nat :=
  if field header Field.dataLength ≠ 0 then field header Field.dataLength
  else if field header Field.imageFormat = twoImgFormatProdos ∧ field header Field.blockCount ≠ 0
    then field header Field.blockCount * blockSize
  else fileSize - declaredOffset header

/-- A place in a file, counted from the header, is in an area the header declares. -/
def InArea (offset length place : Nat) : Prop := offset ≤ place ∧ place < offset + length

/-- **A place is one for data**: it is in the file, behind the header, in the data area,
and in neither of the chunks behind it. -/
structure IsDataPlace (header : List UInt8) (fileSize place : Nat) : Prop where
  /-- It is in the file. -/
  inFile : place < fileSize
  /-- It is behind the header. -/
  behindHeader : (readU16Le (header.drop Field.headerSize)).toNat ≤ place
  /-- It is in the data area. -/
  inData : InArea (declaredOffset header) (declaredLength header fileSize) place
  /-- It is not in the comment. -/
  notComment : ¬ InArea (field header Field.commentOffset) (field header Field.commentLength) place
  /-- It is not in what the creator left. -/
  notCreator : ¬ InArea (field header Field.creatorOffset) (field header Field.creatorLength) place

/-- **An image is served as its header declares**: every byte of every block it serves is
in the container's payload, in a place for data. -/
def BlockDiskImage.ServedAsDeclared (image : BlockDiskImage) (fileOffset : Nat)
    (header : List UInt8) (fileSize : Nat) : Prop :=
  ∀ block < image.totalBlocks, ∀ i < blockSize, ∃ place,
    image.blockAddress block i = fileOffset + place ∧ IsDataPlace header fileSize place

/-! ## What is settled -/

/-- **What the parser settles** is what the header declares, and it fits the file. -/
structure Settles (header : List UInt8) (fileSize : Nat) (parsed : TwoImgHeader) : Prop where
  /-- The data begin where the header says. -/
  dataOffset : parsed.dataOffset = declaredOffset header
  /-- There are as many blocks as the header says. -/
  blockCount : parsed.blockCount * blockSize = declaredLength header fileSize
  /-- There are some. -/
  length_pos : 0 < declaredLength header fileSize
  /-- The data are behind the header. -/
  behindHeader : (readU16Le (header.drop Field.headerSize)).toNat ≤ declaredOffset header
  /-- The data are in the file. -/
  inFile : declaredOffset header + declaredLength header fileSize ≤ fileSize
  /-- The comment is behind the data. -/
  comment : chunkIsPlaced (declaredOffset header + declaredLength header fileSize) fileSize
    (field header Field.commentOffset) (field header Field.commentLength) = true
  /-- What the creator left is behind the data. -/
  creator : chunkIsPlaced (declaredOffset header + declaredLength header fileSize) fileSize
    (field header Field.creatorOffset) (field header Field.creatorLength) = true

theorem Settles.blockCount_pos {header : List UInt8} {fileSize : Nat} {parsed : TwoImgHeader}
    (h : Settles header fileSize parsed) : 0 < parsed.blockCount := by
  have hpos := h.length_pos
  rw [← h.blockCount] at hpos
  exact Nat.pos_of_mul_pos_right hpos

theorem length_eq_declaredLength (header : List UInt8) (fileSize : Nat) :
    (if (if field header Field.dataLength = 0 ∧ field header Field.imageFormat = twoImgFormatProdos
        then field header Field.blockCount * blockSize else field header Field.dataLength) = 0
      then fileSize - declaredOffset header
      else if field header Field.dataLength = 0
        ∧ field header Field.imageFormat = twoImgFormatProdos
        then field header Field.blockCount * blockSize else field header Field.dataLength)
      = declaredLength header fileSize := by
  have hblock : ∀ n, n * blockSize = 0 ↔ n = 0 := fun n => by
    unfold blockSize
    omega
  unfold declaredLength
  by_cases hlength : field header Field.dataLength = 0
  · by_cases hformat : field header Field.imageFormat = twoImgFormatProdos
    · simp [hlength, hformat, hblock]
    · simp [hlength, hformat]
  · simp [hlength]

theorem settles_twoImgParse {header : List UInt8} {fileSize : Nat} {parsed : TwoImgHeader}
    (h : twoImgParse header fileSize = .ok parsed) : Settles header fileSize parsed := by
  unfold twoImgParse at h
  dsimp only at h
  rw [show (if field header Field.dataOffset = 0
    then (readU16Le (header.drop Field.headerSize)).toNat
    else field header Field.dataOffset) = declaredOffset header from rfl,
    length_eq_declaredLength] at h
  split_ifs at h with hmagic hheader hoffset hagree hlength hplaced
  · split at h
    · exact nomatch h
    · exact nomatch h
  · split at h
    · exact nomatch h
    · rw [Bool.or_eq_true, not_or, Bool.not_eq_true', Bool.not_eq_true', Bool.not_eq_false,
        Bool.not_eq_false] at hplaced
      obtain rfl := Except.ok.inj h
      exact {
        dataOffset := rfl
        blockCount := by
          show declaredLength header fileSize / blockSize * blockSize = _
          unfold blockSize at *
          omega
        length_pos := by omega
        behindHeader := by omega
        inFile := by omega
        comment := hplaced.1
        creator := hplaced.2 }

/-- A place in the data is in no chunk that is behind them. -/
theorem not_inArea_of_placed {dataEnd fileSize offset length place : Nat}
    (h : chunkIsPlaced dataEnd fileSize offset length = true) (hplace : place < dataEnd) :
    ¬ InArea offset length place := by
  unfold chunkIsPlaced at h
  simp only [Bool.or_eq_true, Bool.and_eq_true, decide_eq_true_eq] at h
  unfold InArea
  omega

theorem Settles.isDataPlace {header : List UInt8} {fileSize : Nat} {parsed : TwoImgHeader}
    (h : Settles header fileSize parsed) {place : Nat}
    (hplace : InArea (declaredOffset header) (declaredLength header fileSize) place) :
    IsDataPlace header fileSize place where
  inFile := Nat.lt_of_lt_of_le hplace.2 h.inFile
  behindHeader := Nat.le_trans h.behindHeader hplace.1
  inData := hplace
  notComment := not_inArea_of_placed h.comment hplace.2
  notCreator := not_inArea_of_placed h.creator hplace.2

/-! ## What is served -/

/-- What `block_disk_image_open` answers of blocks that are named. -/
theorem blockDiskImageOpen_ok {file : HostFile} {writable readOnly : Bool} {fileOffset : Nat}
    {order : BlockDiskOrder} {blockCount : Nat} {image : BlockDiskImage} (hcount : blockCount ≠ 0)
    (h : blockDiskImageOpen file writable fileOffset order blockCount readOnly = .ok image) :
    image.dataOffset = fileOffset ∧ image.totalBlocks = blockCount := by
  unfold blockDiskImageOpen at h
  dsimp only at h
  rw [if_neg hcount] at h
  split_ifs at h
  all_goals exact Except.ok.inj h ▸ ⟨rfl, rfl⟩

theorem declaredOffset_lt (header : List UInt8) : declaredOffset header < 2 ^ 32 := by
  unfold declaredOffset
  split_ifs
  · exact Nat.lt_trans (UInt16.toNat_lt _) (by decide)
  · exact field_lt _ _

/-- The blocks begin where the data do. -/
theorem blockAddress_first (image : BlockDiskImage) :
    image.blockAddress 0 0 = image.dataOffset := by
  cases horder : image.order with
  | prodos => rw [blockAddress_prodos image horder (by decide), Nat.zero_mul, Nat.add_zero]
  | dos =>
    rw [blockAddress_dos image horder]
    rfl

theorem twoImgOpen_ok {file : HostFile} {writable readOnly : Bool} {fileOffset : UInt32}
    {image : BlockDiskImage} (h : twoImgOpen file writable fileOffset readOnly = .ok image) :
    ∃ parsed, Settles (peeks file.byte fileOffset.toNat twoImgHeaderSize)
        (file.size - fileOffset.toNat) parsed
      ∧ image.dataOffset = (fileOffset.toNat + parsed.dataOffset) % 2 ^ 32
      ∧ image.totalBlocks = parsed.blockCount := by
  unfold twoImgOpen at h
  dsimp only at h
  split_ifs at h
  all_goals
    split at h
    · exact nomatch h
    next parsed hparse =>
      have hsettles := settles_twoImgParse hparse
      exact ⟨parsed, hsettles, blockDiskImageOpen_ok (Nat.ne_of_gt hsettles.blockCount_pos) h⟩

/-- **A 2IMG image is served as its header declares exactly if the offsets do not
wrap**: the places of all blocks it serves are in the file, behind the header, in the
data area and in neither chunk, or the first of them is in front of the header. -/
theorem servedAsDeclared_iff {file : HostFile} {writable readOnly : Bool} {fileOffset : UInt32}
    {image : BlockDiskImage} (h : twoImgOpen file writable fileOffset readOnly = .ok image) :
    image.ServedAsDeclared fileOffset.toNat (peeks file.byte fileOffset.toNat twoImgHeaderSize)
        (file.size - fileOffset.toNat)
      ↔ fileOffset.toNat + declaredOffset (peeks file.byte fileOffset.toNat twoImgHeaderSize)
        < 2 ^ 32 := by
  obtain ⟨parsed, hsettles, hoffset, hblocks⟩ := twoImgOpen_ok h
  generalize peeks file.byte fileOffset.toNat twoImgHeaderSize = header at hsettles ⊢
  generalize file.size - fileOffset.toNat = fileSize at hsettles ⊢
  have hdeclared := hsettles.dataOffset
  have hlength := hsettles.blockCount
  rw [hdeclared] at hoffset
  rw [← hblocks] at hlength
  have hwraps := declaredOffset_lt header
  have hbase : fileOffset.toNat < 2 ^ 32 := UInt32.toNat_lt _
  constructor
  · intro hserved
    obtain ⟨place, hplace, -⟩ := hserved 0 (hblocks ▸ hsettles.blockCount_pos) 0 (by decide)
    rw [blockAddress_first] at hplace
    omega
  · intro hsum block hblock i hi
    obtain ⟨hlow, hhigh⟩ := blockAddress_bounds image hblock hi
    rw [hlength] at hhigh
    rw [Nat.mod_eq_of_lt hsum] at hoffset
    refine ⟨image.blockAddress block i - fileOffset.toNat, by omega, hsettles.isDataPlace ⟨?_, ?_⟩⟩
    · omega
    · omega

/-! ## A file in a container -/

/-- The header of a ProDOS-order image of one block. -/
def oneBlockHeader (dataOffset : List UInt8) : List UInt8 :=
  twoImgMagic ++ [0x58, 0x47, 0x53, 0x21, 64, 0, 1, 0, 1, 0, 0, 0, 0, 0, 0, 0, 1, 0, 0, 0]
    ++ dataOffset ++ [0, 2, 0, 0] ++ List.replicate 32 0

/-- A file with the header of an image behind the 128 bytes of a container's. -/
def containedFile (dataOffset : List UInt8) (size : Nat) : HostFile where
  size := size
  byte a := if a < 128 then 0 else (oneBlockHeader dataOffset).getD (a - 128) 0

theorem exists_ok {ε α : Type} {x : Except ε α} (h : x.isOk = true) : ∃ a, x = .ok a := by
  cases x with
  | error e => exact absurd h Bool.false_ne_true
  | ok a => exact ⟨a, rfl⟩

/-- A block right behind the header is served as declared. -/
theorem servedAsDeclared_iff_contained : ∃ image,
    twoImgOpen (containedFile [64, 0, 0, 0] 704) true 128 false = .ok image
    ∧ image.ServedAsDeclared 128
        (peeks (containedFile [64, 0, 0, 0] 704).byte 128 twoImgHeaderSize) 576
    ∧ 128 + declaredOffset
        (peeks (containedFile [64, 0, 0, 0] 704).byte 128 twoImgHeaderSize) < 2 ^ 32 := by
  have hopens : (twoImgOpen (containedFile [64, 0, 0, 0] 704) true 128 false).isOk = true := by
    decide +kernel
  obtain ⟨image, himage⟩ := exists_ok hopens
  have hsum : 128 + declaredOffset
      (peeks (containedFile [64, 0, 0, 0] 704).byte 128 twoImgHeaderSize) < 2 ^ 32 := by
    decide +kernel
  exact ⟨image, himage, (servedAsDeclared_iff himage).2 hsum, hsum⟩

/-- **A block four gigabytes behind the header is not where it is looked for**: the file is
opened, and what is served is what is in front of the header. -/
theorem not_servedAsDeclared_wrapped : ∃ image,
    twoImgOpen (containedFile [0x80, 0xFF, 0xFF, 0xFF] 4294967808) true 128 false = .ok image
    ∧ ¬ image.ServedAsDeclared 128
      (peeks (containedFile [0x80, 0xFF, 0xFF, 0xFF] 4294967808).byte 128 twoImgHeaderSize)
      4294967680 := by
  have hopens : (twoImgOpen (containedFile [0x80, 0xFF, 0xFF, 0xFF] 4294967808) true 128
      false).isOk = true := by decide +kernel
  obtain ⟨image, himage⟩ := exists_ok hopens
  refine ⟨image, himage, fun hserved => ?_⟩
  obtain ⟨parsed, hsettles, hoffset, hblocks⟩ := twoImgOpen_ok himage
  have hdeclared : declaredOffset (peeks (containedFile [0x80, 0xFF, 0xFF, 0xFF] 4294967808).byte
      128 twoImgHeaderSize) = 4294967168 := by decide +kernel
  obtain ⟨place, hplace, -⟩ := hserved 0 (hblocks ▸ hsettles.blockCount_pos) 0 (by decide)
  rw [blockAddress_first, hoffset, hsettles.dataOffset] at hplace
  have hwrapped : (128 + 4294967168) % 2 ^ 32 = 128 + place := hdeclared ▸ hplace
  omega

end LinApple.Harddisk
