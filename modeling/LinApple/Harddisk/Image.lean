import LinApple.Lib.ByteMap
import LinApple.Lib.Sizes

/-!
# Images of block devices

An image is a file that holds the 512-byte blocks of a disk in one of two
orders: a ProDOS-order file has block `b` at `b × 512`, and a DOS-order file
has each block in two sectors a table pairs. Whichever it is, a block is a
few pieces of the file, the pieces of two blocks are apart, and all of them
lie in the data area (`blockAddress_bounds`, `blockAddress_inj`).
-/

namespace LinApple.Harddisk

open ByteMap

/-- `HarddiskError`, as far as the images and the card answer with it. -/
inductive HarddiskError where
  | none
  | io
  | readOnly
  | invalidFormat
  | notBlockImage
deriving DecidableEq, Repr

/-- `BlockDiskOrder` -/
inductive BlockDiskOrder where
  | prodos
  | dos
deriving DecidableEq, Repr

/-- `block_size` -/
def blockSize : Nat := 512
/-- `half_block` -/
def halfBlock : Nat := 256
/-- `sector_size` -/
def sectorSize : Nat := 256
/-- `sectors_per_track` -/
def sectorsPerTrack : Nat := 16
/-- `track_bytes` -/
def trackBytes : Nat := sectorsPerTrack * sectorSize
/-- `blocks_per_track` -/
def blocksPerTrack : Nat := 8
/-- `block_disk_image_dos_blocks` -/
def blockDiskImageDosBlocks : Nat := 280

/-- `dos_sectors_of_block`, for block `k` of a track and a half of it. -/
def dosSectorsOfBlock (k half : Nat) : Nat :=
  (([[0x0, 0xE], [0xD, 0xC], [0xB, 0xA], [0x9, 0x8], [0x7, 0x6], [0x5, 0x4],
    [0x3, 0x2], [0x1, 0xF]][k]?).getD [])[half]?.getD 0

/-- `dos_block_half_offset` -/
def dosBlockHalfOffset (block half : Nat) : Nat :=
  block / blocksPerTrack * trackBytes
    + dosSectorsOfBlock (block % blocksPerTrack) half * sectorSize

/-- `block_offset` -/
def blockOffset (order : BlockDiskOrder) (block half : Nat) : Nat :=
  match order with
  | .dos => dosBlockHalfOffset block half
  | .prodos => block * blockSize + half * halfBlock

/-- The number of pieces a block is read and written in: `pieces`. -/
def pieces : BlockDiskOrder → Nat
  | .dos => 2
  | .prodos => 1

/-- `piece_size` -/
def pieceSize (order : BlockDiskOrder) : Nat := blockSize / pieces order

/-- A file of the host. -/
structure HostFile where
  /-- The number of its bytes. -/
  size : Nat
  /-- Its bytes. -/
  byte : Nat → UInt8

/-- **A `BlockDiskImage` that has been opened**: the blocks lie in the file,
and a DOS-order image has the blocks of a 5.25-inch disk. -/
structure BlockDiskImage where
  /-- `file` -/
  file : HostFile
  /-- `data_offset` -/
  dataOffset : Nat
  /-- `total_blocks` -/
  totalBlocks : Nat
  /-- `host_read_only` -/
  hostReadOnly : Bool
  /-- `order` -/
  order : BlockDiskOrder
  /-- The blocks lie in the file. -/
  inFile : dataOffset + totalBlocks * blockSize ≤ file.size
  /-- The blocks of a DOS-order image. -/
  dosBlocks : order = .dos → totalBlocks = blockDiskImageDosBlocks

/-- `block_disk_image_open` of a file that can be opened for reading, and
for writing if `writable`. -/
def blockDiskImageOpen (file : HostFile) (writable : Bool) (fileOffset : Nat)
    (order : BlockDiskOrder) (blockCount : Nat) (readOnly : Bool) :
    Except HarddiskError BlockDiskImage :=
  if file.size < fileOffset then .error .invalidFormat
  else
    let available := file.size - fileOffset
    let wholeBlocks := available / blockSize
    if blockCount = 0 && (wholeBlocks = 0 || wholeBlocks > 0xFFFFFFFF) then
      .error .invalidFormat
    else
      let count := if blockCount = 0 then wholeBlocks else blockCount
      if hcount : fileOffset + count * blockSize ≤ file.size then
        if hdos : order = .dos → count = blockDiskImageDosBlocks then
          .ok ⟨file, fileOffset, count, readOnly || !writable, order,
            hcount, hdos⟩
        else .error .invalidFormat
      else .error .invalidFormat

/-- The image after its file's bytes have changed. -/
def BlockDiskImage.withBytes (image : BlockDiskImage) (byte : Nat → UInt8) :
    BlockDiskImage :=
  { image with file := { image.file with byte := byte } }

/-! ## Reading and writing a block -/

/-- How the host answers the calls for one piece of a block. -/
structure PieceAnswer where
  /-- Whether `fseeko` succeeds. -/
  seeks : Bool
  /-- The number of bytes `fread` or `fwrite` is willing to move. -/
  moves : Nat
deriving DecidableEq, Repr

/-- How the host answers the calls for one block. -/
structure Transfer where
  /-- The answers for its pieces. -/
  piece : Nat → PieceAnswer
  /-- Whether `fflush` succeeds. -/
  flushes : Bool

/-- A transfer in which every call of the host succeeds. In DOS order a block is in two pieces, so
there is an answer for each half. -/
def Transfer.Succeeds (t : Transfer) : Prop :=
  (∀ half, (t.piece half).seeks = true ∧ blockSize ≤ (t.piece half).moves)
    ∧ t.flushes = true

/-- The place of a piece in the file. -/
def BlockDiskImage.pieceOffset (image : BlockDiskImage) (block half : Nat) :
    Nat :=
  image.dataOffset + blockOffset image.order block half

/-- The number of bytes `fread` or `fwrite` moves of a piece. -/
def BlockDiskImage.moved (image : BlockDiskImage) (t : Transfer)
    (block half : Nat) : Nat :=
  min (min (t.piece half).moves (pieceSize image.order))
    (image.file.size - image.pieceOffset block half)

/-- The loop of `block_disk_image_read_block` over the pieces that are
left. -/
def readPieces (image : BlockDiskImage) (t : Transfer) (block : Nat) :
    List Nat → (Nat → UInt8) → HarddiskError × (Nat → UInt8)
  | [], buffer => (.none, buffer)
  | half :: halves, buffer =>
    if !(t.piece half).seeks then (.io, buffer)
    else
      let moved := image.moved t block half
      let buffer := pokes buffer (half * pieceSize image.order)
        (peeks image.file.byte (image.pieceOffset block half) moved)
      if moved ≠ pieceSize image.order then (.io, buffer)
      else readPieces image t block halves buffer

/-- `block_disk_image_read_block` -/
def blockDiskImageReadBlock (image : BlockDiskImage) (t : Transfer)
    (block : Nat) (buffer : Nat → UInt8) : HarddiskError × (Nat → UInt8) :=
  if block ≥ image.totalBlocks then (.io, buffer)
  else readPieces image t block (List.range (pieces image.order)) buffer

/-- The loop of `block_disk_image_write_block` over the pieces that are
left. -/
def writePieces (t : Transfer) (block : Nat) (buffer : Nat → UInt8) :
    List Nat → BlockDiskImage → HarddiskError × BlockDiskImage
  | [], image => (if t.flushes then .none else .io, image)
  | half :: halves, image =>
    if !(t.piece half).seeks then (.io, image)
    else
      let moved := image.moved t block half
      let written := image.withBytes (pokes image.file.byte
        (image.pieceOffset block half)
        (peeks buffer (half * pieceSize image.order) moved))
      if moved ≠ pieceSize image.order then (.io, written)
      else writePieces t block buffer halves written

/-- `block_disk_image_write_block` -/
def blockDiskImageWriteBlock (image : BlockDiskImage) (t : Transfer)
    (block : Nat) (buffer : Nat → UInt8) : HarddiskError × BlockDiskImage :=
  if image.hostReadOnly then (.readOnly, image)
  else if block ≥ image.totalBlocks then (.io, image)
  else writePieces t block buffer (List.range (pieces image.order)) image

/-! ## The bytes of a block -/

/-- **Where the bytes of a block lie** in the file, one by one. -/
def BlockDiskImage.blockAddress (image : BlockDiskImage) (block i : Nat) :
    Nat :=
  image.pieceOffset block (i / pieceSize image.order)
    + i % pieceSize image.order

/-- **The contents of a block.** -/
def BlockDiskImage.contents (image : BlockDiskImage) (block : Nat) :
    List UInt8 :=
  (List.range blockSize).map fun i =>
    image.file.byte (image.blockAddress block i)

/-- No two halves of blocks of a track share a sector, and there are
sixteen. -/
theorem dosSectorsOfBlock_spec : ∀ k half k' half', k < 8 → half < 2 →
    k' < 8 → half' < 2 → dosSectorsOfBlock k half < 16
      ∧ (dosSectorsOfBlock k half = dosSectorsOfBlock k' half' →
        k = k' ∧ half = half') := by
  have h : ∀ k : Fin 8, ∀ half : Fin 2, ∀ k' : Fin 8, ∀ half' : Fin 2,
      dosSectorsOfBlock k half < 16
        ∧ (dosSectorsOfBlock k half = dosSectorsOfBlock k' half' →
          k.val = k'.val ∧ half.val = half'.val) := by decide
  intro k half k' half' hk hhalf hk' hhalf'
  exact h ⟨k, hk⟩ ⟨half, hhalf⟩ ⟨k', hk'⟩ ⟨half', hhalf'⟩

section Address

variable (image : BlockDiskImage) {block block' i i' : Nat}

theorem blockAddress_prodos (horder : image.order = .prodos)
    (hi : i < blockSize) :
    image.blockAddress block i = image.dataOffset + block * 512 + i := by
  rw [blockSize] at hi
  simp only [BlockDiskImage.blockAddress, BlockDiskImage.pieceOffset,
    pieceSize, pieces, horder, blockOffset, blockSize, halfBlock,
    Nat.div_one, Nat.div_eq_of_lt hi, Nat.mod_eq_of_lt hi, Nat.zero_mul,
    Nat.add_zero]

theorem blockAddress_dos (horder : image.order = .dos) :
    image.blockAddress block i = image.dataOffset
      + (block / 8 * 16 + dosSectorsOfBlock (block % 8) (i / 256)) * 256
      + i % 256 := by
  simp only [BlockDiskImage.blockAddress, BlockDiskImage.pieceOffset,
    pieceSize, pieces, horder, blockOffset, dosBlockHalfOffset, blockSize,
    blocksPerTrack, trackBytes, sectorsPerTrack, sectorSize,
    Nat.reduceDiv, Nat.reduceMul]
  omega

/-- **The bytes of a block lie in the data area.** -/
theorem blockAddress_bounds (hblock : block < image.totalBlocks)
    (hi : i < blockSize) :
    image.dataOffset ≤ image.blockAddress block i
      ∧ image.blockAddress block i
        < image.dataOffset + image.totalBlocks * blockSize := by
  cases horder : image.order with
  | prodos =>
    rw [blockAddress_prodos image horder hi]
    rw [blockSize] at hi ⊢
    omega
  | dos =>
    have htotal := image.dosBlocks horder
    rw [blockDiskImageDosBlocks] at htotal
    rw [blockSize] at hi ⊢
    have hhalf : i / 256 < 2 := by omega
    obtain ⟨hsector, -⟩ := dosSectorsOfBlock_spec (block % 8) (i / 256)
      (block % 8) (i / 256) (by omega) hhalf (by omega) hhalf
    rw [blockAddress_dos image horder, htotal]
    omega

/-- **The bytes of two blocks are apart.** -/
theorem blockAddress_inj (hi : i < blockSize) (hi' : i' < blockSize)
    (h : image.blockAddress block i = image.blockAddress block' i') :
    block = block' ∧ i = i' := by
  cases horder : image.order with
  | prodos =>
    rw [blockAddress_prodos image horder hi,
      blockAddress_prodos image horder hi'] at h
    rw [blockSize] at hi hi'
    omega
  | dos =>
    rw [blockSize] at hi hi'
    obtain ⟨hsector, hinj⟩ := dosSectorsOfBlock_spec (block % 8) (i / 256)
      (block' % 8) (i' / 256) (by omega) (by omega) (by omega) (by omega)
    obtain ⟨hsector', -⟩ := dosSectorsOfBlock_spec (block' % 8) (i' / 256)
      (block % 8) (i / 256) (by omega) (by omega) (by omega) (by omega)
    rw [blockAddress_dos image horder, blockAddress_dos image horder] at h
    have hsame := hinj (by omega)
    omega

end Address

/-! ## What reading and writing do -/

section Pieces

variable {image : BlockDiskImage} {t : Transfer} {block : Nat}
  {buffer : Nat → UInt8}

/-- Only the bytes of a file change. Where a block is in the file does not depend on them, so it
is the same block before and after. -/
structure BlockDiskImage.SameLayout (image image' : BlockDiskImage) :
    Prop where
  /-- The file keeps its size. -/
  size_eq : image'.file.size = image.file.size
  /-- `data_offset` stays. -/
  dataOffset_eq : image'.dataOffset = image.dataOffset
  /-- `total_blocks` stays. -/
  totalBlocks_eq : image'.totalBlocks = image.totalBlocks
  /-- `host_read_only` stays. -/
  hostReadOnly_eq : image'.hostReadOnly = image.hostReadOnly
  /-- `order` stays. -/
  order_eq : image'.order = image.order

theorem BlockDiskImage.SameLayout.refl (image : BlockDiskImage) :
    image.SameLayout image :=
  ⟨rfl, rfl, rfl, rfl, rfl⟩

theorem BlockDiskImage.SameLayout.trans {image' image'' : BlockDiskImage}
    (h : image.SameLayout image') (h' : image'.SameLayout image'') :
    image.SameLayout image'' :=
  ⟨h'.size_eq.trans h.size_eq, h'.dataOffset_eq.trans h.dataOffset_eq,
    h'.totalBlocks_eq.trans h.totalBlocks_eq,
    h'.hostReadOnly_eq.trans h.hostReadOnly_eq,
    h'.order_eq.trans h.order_eq⟩

theorem BlockDiskImage.SameLayout.blockAddress_eq {image' : BlockDiskImage}
    (h : image.SameLayout image') (block i : Nat) :
    image'.blockAddress block i = image.blockAddress block i := by
  simp only [BlockDiskImage.blockAddress, BlockDiskImage.pieceOffset,
    h.dataOffset_eq, h.order_eq]

theorem sameLayout_withBytes (image : BlockDiskImage) (byte : Nat → UInt8) :
    image.SameLayout (image.withBytes byte) :=
  ⟨rfl, rfl, rfl, rfl, rfl⟩

theorem pieceSize_pos (order : BlockDiskOrder) : 0 < pieceSize order := by
  cases order <;> decide

/-- A byte of a block is one of a piece. -/
theorem div_pieceSize_lt (order : BlockDiskOrder) {i : Nat}
    (hi : i < blockSize) : i / pieceSize order < pieces order := by
  rw [blockSize] at hi
  cases order with
  | prodos => exact Nat.div_lt_of_lt_mul hi
  | dos => exact Nat.div_lt_of_lt_mul hi

/-- A byte tells the piece it is in. -/
theorem mul_pieceSize_add_div (order : BlockDiskOrder) (half : Nat) {j : Nat}
    (hj : j < pieceSize order) :
    (half * pieceSize order + j) / pieceSize order = half := by
  rw [Nat.add_comm, Nat.add_mul_div_right _ _ (pieceSize_pos order),
    Nat.div_eq_of_lt hj, Nat.zero_add]

/-- The bytes of a piece are bytes of the block. -/
theorem mul_pieceSize_add_lt (order : BlockDiskOrder) {half j : Nat}
    (hhalf : half < pieces order) (hj : j < pieceSize order) :
    half * pieceSize order + j < blockSize := by
  cases order with
  | prodos =>
    have hhalf : half < 1 := hhalf
    have hj : j < 512 := hj
    show half * 512 + j < 512
    omega
  | dos =>
    have hhalf : half < 2 := hhalf
    have hj : j < 256 := hj
    show half * 256 + j < 512
    omega

/-- The bytes of a piece follow one another in the file. -/
theorem blockAddress_mul_add (image : BlockDiskImage) (block half : Nat)
    {j : Nat} (hj : j < pieceSize image.order) :
    image.blockAddress block (half * pieceSize image.order + j)
      = image.pieceOffset block half + j := by
  rw [BlockDiskImage.blockAddress, Nat.add_comm (half * _), Nat.add_mul_div_right
      _ _ (pieceSize_pos _), Nat.add_mul_mod_self_right,
    Nat.div_eq_of_lt hj, Nat.zero_add, Nat.mod_eq_of_lt hj]

/-- A host that does not fail moves whole pieces. -/
theorem moved_of_succeeds (ht : t.Succeeds) (hblock : block < image.totalBlocks)
    {half : Nat} (hhalf : half < pieces image.order) :
    image.moved t block half = pieceSize image.order := by
  have hpos := pieceSize_pos image.order
  have hmoves := (ht.1 half).2
  have hle : pieceSize image.order ≤ blockSize := Nat.div_le_self _ _
  have hlast : pieceSize image.order - 1 < pieceSize image.order := by omega
  have hbound := (blockAddress_bounds image hblock
    (mul_pieceSize_add_lt image.order hhalf hlast)).2
  have hfile := image.inFile
  rw [blockAddress_mul_add image block half hlast] at hbound
  rw [BlockDiskImage.moved]
  omega

theorem moved_le (image : BlockDiskImage) (t : Transfer) (block half : Nat) :
    image.moved t block half ≤ pieceSize image.order :=
  Nat.le_trans (Nat.min_le_left _ _) (Nat.min_le_right _ _)

/-- **One piece written**: its bytes come from the buffer, as far as they
are moved, and no others change. -/
theorem byte_writePiece (image : BlockDiskImage) (block half : Nat)
    (buffer : Nat → UInt8) {n : Nat} (hn : n ≤ pieceSize image.order) :
    (∀ j < n, (image.withBytes (pokes image.file.byte
        (image.pieceOffset block half)
        (peeks buffer (half * pieceSize image.order) n))).file.byte
          (image.blockAddress block (half * pieceSize image.order + j))
        = buffer (half * pieceSize image.order + j))
      ∧ ∀ a, (∀ j < pieceSize image.order, a ≠ image.blockAddress block
          (half * pieceSize image.order + j)) →
        (image.withBytes (pokes image.file.byte
          (image.pieceOffset block half)
          (peeks buffer (half * pieceSize image.order) n))).file.byte a
          = image.file.byte a := by
  constructor
  · intro j hj
    rw [blockAddress_mul_add image block half (Nat.lt_of_lt_of_le hj hn)]
    show pokes image.file.byte (image.pieceOffset block half) _ _ = _
    rw [pokes_add _ _ (by rwa [length_peeks]), getElem_peeks]
  · intro a ha
    show pokes image.file.byte (image.pieceOffset block half) _ _ = _
    by_cases hlt : a < image.pieceOffset block half
    · exact pokes_of_lt _ _ hlt
    · refine pokes_of_ge _ _ ?_
      rw [length_peeks]
      by_contra hin
      obtain ⟨j, rfl⟩ := Nat.le.dest (Nat.not_lt.mp hlt)
      have hj : j < pieceSize image.order := by omega
      exact ha j hj (blockAddress_mul_add image block half hj).symm

/-- A write of a block keeps the layout. -/
theorem sameLayout_writePieces (halves : List Nat) :
    image.SameLayout (writePieces t block buffer halves image).2 := by
  induction halves generalizing image with
  | nil => exact .refl image
  | cons half halves ih =>
    rw [writePieces]
    split
    · exact .refl image
    · dsimp only
      split
      · exact sameLayout_withBytes image _
      · exact (sameLayout_withBytes image _).trans ih

/-- A write of pieces, whether or not it succeeds, changes no other
bytes. -/
theorem writePieces_frame {halves : List Nat} {a : Nat}
    (ha : ∀ half ∈ halves, ∀ j < pieceSize image.order,
      a ≠ image.blockAddress block (half * pieceSize image.order + j)) :
    (writePieces t block buffer halves image).2.file.byte a
      = image.file.byte a := by
  induction halves generalizing image with
  | nil => rfl
  | cons half halves ih =>
    rw [List.forall_mem_cons] at ha
    rw [writePieces]
    split
    · rfl
    · have hpiece := (byte_writePiece image block half buffer
        (moved_le image t block half)).2 a ha.1
      dsimp only
      split
      · exact hpiece
      · refine Eq.trans ?_ hpiece
        exact ih ha.2

/-- **A write that succeeds stores the buffer**, piece by piece. -/
theorem writePieces_succeeds (ht : t.Succeeds)
    (hblock : block < image.totalBlocks) {halves : List Nat}
    (hnodup : halves.Nodup)
    (hhalves : ∀ half ∈ halves, half < pieces image.order) :
    (writePieces t block buffer halves image).1 = .none
      ∧ ∀ half ∈ halves, ∀ j < pieceSize image.order,
        (writePieces t block buffer halves image).2.file.byte
            (image.blockAddress block (half * pieceSize image.order + j))
          = buffer (half * pieceSize image.order + j) := by
  induction halves generalizing image with
  | nil =>
    refine ⟨?_, fun half hhalf => nomatch hhalf⟩
    rw [writePieces, ht.2]
    rfl
  | cons half halves ih =>
    rw [List.forall_mem_cons] at hhalves
    rw [List.nodup_cons] at hnodup
    have hmoved := moved_of_succeeds ht hblock hhalves.1
    have hwritten := (byte_writePiece image block half buffer
      (Nat.le_refl (pieceSize image.order))).1
    rw [writePieces, (ht.1 half).1, hmoved]
    dsimp only
    rw [if_neg (by decide), if_neg (not_not.mpr rfl)]
    obtain ⟨hnone, hrest⟩ := @ih (image.withBytes (pokes image.file.byte
      (image.pieceOffset block half)
      (peeks buffer (half * pieceSize image.order) (pieceSize image.order))))
      hblock hnodup.2 hhalves.2
    refine ⟨hnone, List.forall_mem_cons.mpr ⟨fun j hj => ?_, hrest⟩⟩
    -- the pieces written later lie elsewhere
    refine (writePieces_frame fun half' hhalf' j' hj' heq => ?_).trans
      (hwritten j hj)
    have hsame := (blockAddress_inj image
      (mul_pieceSize_add_lt image.order hhalves.1 hj)
      (mul_pieceSize_add_lt image.order (hhalves.2 half' hhalf') hj') heq).2
    have hhalf : half = half' := by
      rw [← mul_pieceSize_add_div image.order half hj, hsame,
        mul_pieceSize_add_div image.order half' hj']
    exact hnodup.1 (hhalf ▸ hhalf')

end Pieces

/-! ## Blocks -/

section Blocks

variable {image : BlockDiskImage} {t : Transfer} {block : Nat}
  {buffer : Nat → UInt8}

/-- **A write of a block, whether or not it succeeds, changes no byte that
is not the block's.** -/
theorem byte_writeBlock {a : Nat}
    (ha : ∀ i < blockSize, a ≠ image.blockAddress block i) :
    (blockDiskImageWriteBlock image t block buffer).2.file.byte a
      = image.file.byte a := by
  rw [blockDiskImageWriteBlock]
  split
  · rfl
  · split
    · rfl
    · refine writePieces_frame fun half hhalf j hj => ha _ ?_
      exact mul_pieceSize_add_lt image.order (List.mem_range.mp hhalf) hj

theorem sameLayout_writeBlock :
    image.SameLayout (blockDiskImageWriteBlock image t block buffer).2 := by
  rw [blockDiskImageWriteBlock]
  split
  · exact .refl image
  · split
    · exact .refl image
    · exact sameLayout_writePieces _

/-- **A write of a block leaves the other blocks as they are.** -/
theorem contents_writeBlock_of_ne {block' : Nat} (hne : block' ≠ block) :
    (blockDiskImageWriteBlock image t block buffer).2.contents block'
      = image.contents block' := by
  refine List.map_congr_left fun i hi => ?_
  rw [sameLayout_writeBlock.blockAddress_eq]
  refine byte_writeBlock fun i' hi' heq => hne ?_
  exact (blockAddress_inj image (List.mem_range.mp hi) hi' heq).1

/-- **A write that succeeds stores the buffer.** -/
theorem writeBlock_succeeds (ht : t.Succeeds)
    (hwritable : image.hostReadOnly = false)
    (hblock : block < image.totalBlocks) :
    (blockDiskImageWriteBlock image t block buffer).1 = .none
      ∧ (blockDiskImageWriteBlock image t block buffer).2.contents block
        = peeks buffer 0 blockSize := by
  have hpos := pieceSize_pos image.order
  obtain ⟨hnone, hstored⟩ := @writePieces_succeeds _ _ _ buffer ht hblock _
    List.nodup_range fun half hhalf => List.mem_range.mp hhalf
  have hwrite : blockDiskImageWriteBlock image t block buffer
      = writePieces t block buffer (List.range (pieces image.order)) image := by
    rw [blockDiskImageWriteBlock, hwritable, if_neg Bool.false_ne_true,
      if_neg (Nat.not_le.mpr hblock)]
  refine ⟨by rw [hwrite, hnone], List.map_congr_left fun i hi => ?_⟩
  rw [sameLayout_writeBlock.blockAddress_eq, hwrite, Nat.zero_add,
    ← Nat.div_add_mod' i (pieceSize image.order)]
  exact hstored _ (List.mem_range.mpr (div_pieceSize_lt image.order
    (List.mem_range.mp hi))) _ (Nat.mod_lt _ hpos)

/-- A protected image answers so and stays as it is. -/
theorem writeBlock_readOnly (h : image.hostReadOnly = true) :
    blockDiskImageWriteBlock image t block buffer = (.readOnly, image) := by
  rw [blockDiskImageWriteBlock, h, if_pos rfl]

/-- **A read that succeeds takes up the block**, piece by piece. -/
theorem readPieces_succeeds (ht : t.Succeeds)
    (hblock : block < image.totalBlocks) {halves : List Nat}
    (hnodup : halves.Nodup)
    (hhalves : ∀ half ∈ halves, half < pieces image.order) :
    (readPieces image t block halves buffer).1 = .none
      ∧ (∀ half ∈ halves, ∀ j < pieceSize image.order,
        (readPieces image t block halves buffer).2
            (half * pieceSize image.order + j)
          = image.file.byte
            (image.blockAddress block (half * pieceSize image.order + j)))
      ∧ ∀ i, i / pieceSize image.order ∉ halves →
        (readPieces image t block halves buffer).2 i = buffer i := by
  have hpos := pieceSize_pos image.order
  -- on the pieces still to read; no piece comes twice, so a later one leaves an earlier one alone
  induction halves generalizing buffer with
  | nil => exact ⟨rfl, fun half hhalf => (nomatch hhalf), fun i _ => rfl⟩
  | cons half halves ih =>
    rw [List.forall_mem_cons] at hhalves
    rw [List.nodup_cons] at hnodup
    have hmoved := moved_of_succeeds ht hblock hhalves.1
    rw [readPieces, (ht.1 half).1, hmoved]
    dsimp only
    rw [if_neg (by decide), if_neg (not_not.mpr rfl)]
    obtain ⟨hnone, hrest, hframe⟩ := @ih (pokes buffer
      (half * pieceSize image.order) (peeks image.file.byte
        (image.pieceOffset block half) (pieceSize image.order)))
      hnodup.2 hhalves.2
    refine ⟨hnone, List.forall_mem_cons.mpr ⟨fun j hj => ?_, hrest⟩,
      fun i hi => ?_⟩
    · rw [hframe _ (by
        rw [mul_pieceSize_add_div image.order half hj]; exact hnodup.1),
        pokes_add _ _ (by rwa [length_peeks]), getElem_peeks,
        blockAddress_mul_add image block half hj]
    · rw [List.mem_cons, not_or] at hi
      rw [hframe i hi.2]
      by_cases hlt : i < half * pieceSize image.order
      · exact pokes_of_lt _ _ hlt
      · refine pokes_of_ge _ _ ?_
        rw [length_peeks]
        by_contra hin
        obtain ⟨j, rfl⟩ := Nat.le.dest (Nat.not_lt.mp hlt)
        exact hi.1 (mul_pieceSize_add_div image.order half (by omega))

/-- **A read of a block, whether or not it succeeds, depends on no byte that is not the
block's.** -/
theorem readBlock_withBytes {byte : Nat → UInt8}
    (h : ∀ i < blockSize,
      byte (image.blockAddress block i) = image.file.byte (image.blockAddress block i)) :
    blockDiskImageReadBlock (image.withBytes byte) t block buffer
      = blockDiskImageReadBlock image t block buffer := by
  have hpieces : ∀ (halves : List Nat), (∀ half ∈ halves, half < pieces image.order) →
      ∀ buffer, readPieces (image.withBytes byte) t block halves buffer
        = readPieces image t block halves buffer := by
    intro halves
    induction halves with
    | nil => exact fun _ _ => rfl
    | cons half halves ih =>
      intro hhalves buffer
      rw [List.forall_mem_cons] at hhalves
      have hpiece : peeks byte (image.pieceOffset block half) (image.moved t block half)
          = peeks image.file.byte (image.pieceOffset block half) (image.moved t block half) := by
        refine peeks_congr fun a hlow hhigh => ?_
        obtain ⟨j, rfl⟩ := Nat.le.dest hlow
        have hj : j < pieceSize image.order := by
          have hmoved := moved_le image t block half
          omega
        rw [← blockAddress_mul_add image block half hj]
        exact h _ (mul_pieceSize_add_lt image.order hhalves.1 hj)
      rw [readPieces, readPieces]
      show (if !(t.piece half).seeks then _
        else if image.moved t block half ≠ pieceSize image.order then
          (_, pokes buffer (half * pieceSize image.order)
            (peeks byte (image.pieceOffset block half) (image.moved t block half)))
        else readPieces (image.withBytes byte) t block halves
          (pokes buffer (half * pieceSize image.order)
            (peeks byte (image.pieceOffset block half) (image.moved t block half)))) = _
      rw [hpiece, ih hhalves.2]
  unfold blockDiskImageReadBlock
  show (if block ≥ image.totalBlocks then _ else _) = _
  rw [← hpieces _ fun half hhalf => List.mem_range.mp hhalf]
  rfl

/-- **A read that succeeds takes up the block.** -/
theorem readBlock_succeeds (ht : t.Succeeds)
    (hblock : block < image.totalBlocks) :
    (blockDiskImageReadBlock image t block buffer).1 = .none
      ∧ peeks (blockDiskImageReadBlock image t block buffer).2 0 blockSize
        = image.contents block := by
  have hpos := pieceSize_pos image.order
  obtain ⟨hnone, hread, -⟩ := @readPieces_succeeds _ _ _ buffer ht hblock _
    List.nodup_range fun half hhalf => List.mem_range.mp hhalf
  have heq : blockDiskImageReadBlock image t block buffer
      = readPieces image t block (List.range (pieces image.order)) buffer := by
    rw [blockDiskImageReadBlock, if_neg (Nat.not_le.mpr hblock)]
  refine ⟨by rw [heq, hnone], List.map_congr_left fun i hi => ?_⟩
  rw [heq, Nat.zero_add, ← Nat.div_add_mod' i (pieceSize image.order)]
  exact hread _ (List.mem_range.mpr (div_pieceSize_lt image.order
    (List.mem_range.mp hi))) _ (Nat.mod_lt _ hpos)

end Blocks

end LinApple.Harddisk
