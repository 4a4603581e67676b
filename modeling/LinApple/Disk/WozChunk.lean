import LinApple.Disk.Encoding
import LinApple.Harddisk.Image
import LinApple.Lib.Bytes
import LinApple.Lib.Traced
import Mathlib.Algebra.Group.Nat.Defs

/-!
# The chunks of a WOZ file

WOZ 1.0 and 2.0 share a container: a header of twelve bytes, and chunks behind it,
each of a name, a size and as many bytes. The sizes are what the file says, and the
chunks are looked for in the part of the file that is kept in memory, and walked on
the disk as far as the checksum reaches.

What is looked at is noted. Neither search goes in circles: a chunk takes up eight
bytes at least.
-/

namespace LinApple.Disk

open ByteMap
open Byte (readU32Le)

/-! ## Looking at a file -/

/-- A file of the host, whose size is an `off_t`. Without this bound a sum of offsets taken in 64
bits could wrap. -/
structure WozFile extends Harddisk.HostFile where
  /-- The size is a positive 64-bit number. -/
  size_lt : size < 2 ^ 63

/-- What is looked at. -/
inductive WozAccess where
  /-- Bytes of the part of the file that has been loaded. -/
  | header (offset length : Nat)
  /-- Bytes of the file. -/
  | file (position length : Nat)
deriving DecidableEq, Repr

/-- **What is looked at is there**: it is in the file, and what is looked at in the
part that has been loaded is in this part. -/
def WozAccess.Within (fileSize baseOffset headerSize : Nat) : WozAccess → Prop
  | .header offset length =>
    offset + length ≤ headerSize ∧ baseOffset + offset + length ≤ fileSize
  | .file position length => position + length ≤ fileSize

/-- How looking at a file may fail. -/
inductive WozFailure where
  /-- The file is refused. -/
  | refused (error : DiskError)
  /-- A loop does not end: it has gone more rounds than the file has bytes. -/
  | loops
deriving DecidableEq, Repr

/-- The file is refused. -/
def WozFailure.IsRefusal : WozFailure → Prop
  | .refused _ => True
  | .loops => False

/-- A computation that looks at a file. -/
abbrev Woz (α : Type) := Traced WozAccess WozFailure α

/-- The file is refused. -/
def refuse {α : Type} (error : DiskError) : Woz α := Traced.fail (.refused error)

/-- `fseek` and `fread`: fewer bytes if the file ends before. -/
def WozFile.read (file : WozFile) (position length : Nat) : Woz (List UInt8) := do
  Traced.note (.file position length)
  return peeks file.byte position (min length (file.size - position))

/-! ## The chunks -/

namespace Woz

/-- `file_header_size` -/
def fileHeaderSize : Nat := 12
/-- `crc32_offset` -/
def crc32Offset : Nat := 8
/-- `crc32_stream_buffer_size` -/
def crc32StreamBufferSize : Nat := 4096
/-- `chunk_id_size` -/
def chunkIdSize : Nat := 4
/-- `chunk_header_size` -/
def chunkHeaderSize : Nat := 8
/-- `chunk_size_offset` -/
def chunkSizeOffset : Nat := 4
/-- `tmap_entries` -/
def tmapEntries : Nat := 160
/-- `unrecorded_track` -/
def unrecordedTrack : UInt8 := 0xFF
/-- `info_version_offset` -/
def infoVersionOffset : Nat := 0
/-- `info_disk_type_offset` -/
def infoDiskTypeOffset : Nat := 1
/-- `info_write_protect_offset` -/
def infoWriteProtectOffset : Nat := 2
/-- `disk_type_5_25` -/
def diskType525 : UInt8 := 1
/-- `bits_per_byte` -/
def bitsPerByte : Nat := 8

/-- The `id` of the INFO chunk. -/
def infoId : List UInt8 := [0x49, 0x4E, 0x46, 0x4F]
/-- The `id` of the TMAP chunk. -/
def tmapId : List UInt8 := [0x54, 0x4D, 0x41, 0x50]
/-- The `id` of the TRKS chunk. -/
def trksId : List UInt8 := [0x54, 0x52, 0x4B, 0x53]

end Woz

open Woz

/-- `woz_header_at`: the bytes it points to. -/
def wozHeaderAt (header : List UInt8) (offset len : Nat) : Woz (Option (List UInt8)) :=
  if (offset + len) % 2 ^ 64 < offset ∨ (offset + len) % 2 ^ 64 > header.length then
    return none
  else do
    Traced.note (.header offset len)
    return some ((header.drop offset).take len)

/-- The loop of `woz_find_chunk`, from a chunk on: the offset of the data and the
size, both 0 if there is no such chunk. -/
def wozFindChunkFrom (header id : List UInt8) : Nat → Nat → Woz (Nat × Nat)
  | 0, _ => Traced.fail .loops
  | fuel + 1, i => do
    match ← wozHeaderAt header i chunkHeaderSize with
    | none => return (0, 0)
    | some chunkHdr =>
      let chunkSize := (readU32Le (chunkHdr.drop chunkSizeOffset)).toNat
      if chunkHdr.take chunkIdSize = id then
        return ((i + chunkHeaderSize) % 2 ^ 32, chunkSize)
      else
        let nextI := (i + chunkHeaderSize + chunkSize) % 2 ^ 64
        if nextI ≤ i then return (0, 0)
        else
          match ← wozHeaderAt header nextI 0 with
          | none => return (0, 0)
          | some _ => wozFindChunkFrom header id fuel (nextI % 2 ^ 32)

/-- `woz_find_chunk` -/
def wozFindChunk (header id : List UInt8) : Woz (Nat × Nat) :=
  wozFindChunkFrom header id (header.length + 1) fileHeaderSize

/-- `woz_is_chunk_id` -/
def wozIsChunkId (id : List UInt8) : Bool :=
  (List.range chunkIdSize).all fun i => !(id.getD i 0 < 0x20 || id.getD i 0 > 0x7E)

/-- The loop of `woz_chunks_end`. -/
def wozChunksEndFrom (file : WozFile) (baseOffset : UInt32) : Nat → Nat → Woz Nat
  | 0, _ => Traced.fail .loops
  | fuel + 1, chunksEnd => do
    let hdrPos := (baseOffset.toNat + chunksEnd) % 2 ^ 64
    if (hdrPos + chunkHeaderSize) % 2 ^ 64 > file.size then return chunksEnd
    else
      let chunkHdr ← file.read hdrPos chunkHeaderSize
      if chunkHdr.length ≠ chunkHeaderSize ∨ !wozIsChunkId chunkHdr then return chunksEnd
      else
        let next := (chunksEnd + chunkHeaderSize
          + (readU32Le (chunkHdr.drop chunkSizeOffset)).toNat) % 2 ^ 64
        if (baseOffset.toNat + next) % 2 ^ 64 > file.size then return chunksEnd
        else wozChunksEndFrom file baseOffset fuel next

/-- `woz_chunks_end` -/
def wozChunksEnd (file : WozFile) (baseOffset : UInt32) : Woz Nat :=
  wozChunksEndFrom file baseOffset (file.size + 1) fileHeaderSize

/-! ## The checksum -/

/-- `reflected_polynomial` -/
def reflectedPolynomial : UInt32 := 0xEDB88320
/-- `initial_state`, which `crc32_init` begins with. -/
def initialState : UInt32 := 0xFFFFFFFF

/-- An entry of the table of `build_table`. -/
def crc32Table (i : UInt32) : UInt32 :=
  (List.range 8).foldl (fun crc _ =>
    if crc &&& 1 ≠ 0 then (crc >>> 1) ^^^ reflectedPolynomial else crc >>> 1) i

/-- `crc32_update` -/
def crc32Update (state : UInt32) (bytes : List UInt8) : UInt32 :=
  bytes.foldl (fun state byte =>
    crc32Table ((state ^^^ byte.toUInt32) &&& 0xFF) ^^^ (state >>> 8)) state

/-- `crc32_final` -/
def crc32Final (state : UInt32) : UInt32 := state ^^^ initialState

/-- The checksum of the digits from 1 to 9 is the one that is known of it. -/
example : crc32Final (crc32Update initialState
    [0x31, 0x32, 0x33, 0x34, 0x35, 0x36, 0x37, 0x38, 0x39]) = 0xCBF43926 := by decide +kernel

/-- The loop of `woz_verify_crc32` over the bytes that remain. -/
def wozCrc32From (file : WozFile) : Nat → Nat → Nat → UInt32 → Woz UInt32
  | fuel, position, remaining, state =>
    if remaining = 0 then return state
    else match fuel with
      | 0 => Traced.fail .loops
      | fuel + 1 => do
        let want := if remaining < crc32StreamBufferSize then remaining else crc32StreamBufferSize
        let buffer ← file.read position want
        if buffer.length ≠ want then refuse .io
        else
          wozCrc32From file fuel (position + want) (remaining - want) (crc32Update state buffer)

/-- `woz_verify_crc32` -/
def wozVerifyCrc32 (file : WozFile) (baseOffset storedCrc : UInt32) : Woz Unit :=
  if storedCrc = 0 then return ()
  else do
    let chunksEnd ← wozChunksEnd file baseOffset
    let remaining := (chunksEnd + (2 ^ 64 - fileHeaderSize)) % 2 ^ 64
    let state ← wozCrc32From file (file.size + 1) (baseOffset.toNat + fileHeaderSize) remaining
      initialState
    if crc32Final state = storedCrc then return () else refuse .corrupt

/-! ## What is looked at is there -/

/-- **A search that looks at what is there**, and comes to an end. All of its accesses are in the
file or in the header that was loaded, it fails in no other way than by refusing the file, and
what it results in has the property asked for. -/
def Stays {α : Type} (x : Woz α) (fileSize baseOffset headerSize : Nat)
    (Q : α → List WozAccess → Prop) : Prop :=
  x.Meets (WozAccess.Within fileSize baseOffset headerSize) WozFailure.IsRefusal Q

section Header

variable {header : List UInt8} {fileSize baseOffset : Nat}

theorem stays_refuse {α : Type} {headerSize : Nat} {Q : α → List WozAccess → Prop}
    (error : DiskError) : Stays (refuse error) fileSize baseOffset headerSize Q :=
  .fail trivial

/-- A refusal where a guard fails, and what comes after it where it does not. -/
theorem stays_guard {α : Type} {headerSize : Nat} {Q : α → List WozAccess → Prop} {p : Prop}
    [Decidable p] {error : DiskError} {x : Woz α}
    (h : ¬ p → Stays x fileSize baseOffset headerSize Q) :
    Stays (if p then refuse error else x) fileSize baseOffset headerSize Q := by
  by_cases hp : p
  · rw [if_pos hp]
    exact stays_refuse error
  · rw [if_neg hp]
    exact h hp

theorem stays_wozHeaderAt (hloaded : baseOffset + header.length ≤ fileSize) (offset : Nat)
    {len : Nat} (hlen : len < 2 ^ 64) :
    Stays (wozHeaderAt header offset len) fileSize baseOffset header.length fun bytes _ =>
      ∀ b, bytes = some b → offset + len ≤ header.length ∧ b = (header.drop offset).take len := by
  unfold wozHeaderAt
  split_ifs with hout
  · exact .pure fun b hb => nomatch hb
  · have hin : offset + len ≤ header.length := by omega
    refine .bind (.note ⟨hin, by omega⟩) fun _ _ _ => .pure fun b hb => ?_
    exact ⟨hin, (Option.some.inj hb).symm⟩

/-- The size of a chunk, as the file says. -/
def chunkSizeAt (header : List UInt8) (i : Nat) : Nat :=
  (readU32Le (((header.drop i).take chunkHeaderSize).drop chunkSizeOffset)).toNat

/-- **Where chunks begin**: behind the header of the file, and each behind the one
before. -/
inductive OnChain (header : List UInt8) : Nat → Prop where
  /-- The first chunk. -/
  | first : OnChain header fileHeaderSize
  /-- The next chunk. -/
  | next {i : Nat} (h : OnChain header i) (hin : i + chunkHeaderSize ≤ header.length) :
    OnChain header (i + chunkHeaderSize + chunkSizeAt header i)

/-- **The data of a chunk of a name** are at an offset, and as long as a size says. -/
def IsChunk (header id : List UInt8) (offset size : Nat) : Prop :=
  ∃ i, OnChain header i ∧ i + chunkHeaderSize ≤ header.length
    ∧ ((header.drop i).take chunkHeaderSize).take chunkIdSize = id
    ∧ offset = i + chunkHeaderSize ∧ size = chunkSizeAt header i

/-- **The search for a chunk ends**: every round goes on by eight bytes at least. -/
theorem stays_wozFindChunkFrom (hloaded : baseOffset + header.length ≤ fileSize)
    (hheader : header.length < 2 ^ 32) (id : List UInt8) {fuel i : Nat} (hi : OnChain header i)
    (hle : i ≤ header.length) (hfuel : header.length < fuel + i) :
    Stays (wozFindChunkFrom header id fuel i) fileSize baseOffset header.length fun found _ =>
      found.1 ≠ 0 → IsChunk header id found.1 found.2 := by
  -- on the fuel: a chunk header is eight bytes, so the chain leaves the header before it runs out
  induction fuel generalizing i with
  | zero => omega
  | succ fuel ih =>
    unfold wozFindChunkFrom
    refine .bind (stays_wozHeaderAt hloaded i (by decide)) fun bytes _ hbytes => ?_
    cases bytes with
    | none => exact .pure fun h => absurd rfl h
    | some chunkHdr =>
      obtain ⟨hin, rfl⟩ := hbytes _ rfl
      have hsize : chunkSizeAt header i < 2 ^ 32 := UInt32.toNat_lt _
      have hnext : (i + chunkHeaderSize + chunkSizeAt header i) % 2 ^ 64
          = i + chunkHeaderSize + chunkSizeAt header i := Nat.mod_eq_of_lt (by omega)
      have hfold : (readU32Le (((header.drop i).take chunkHeaderSize).drop chunkSizeOffset)).toNat
          = chunkSizeAt header i := rfl
      dsimp only
      rw [hfold, hnext]
      split_ifs with hid hback
      · refine .pure fun _ => ⟨i, hi, hin, hid, ?_, rfl⟩
        exact Nat.mod_eq_of_lt (by omega)
      · exact .pure fun h => absurd rfl h
      · refine .bind (stays_wozHeaderAt hloaded _ (by decide)) fun bytes _ hbytes => ?_
        cases bytes with
        | none => exact .pure fun h => absurd rfl h
        | some _ =>
          obtain ⟨hnextIn, -⟩ := hbytes _ rfl
          dsimp only
          rw [Nat.mod_eq_of_lt (by omega)]
          refine ih (hi.next hin) hnextIn ?_
          unfold chunkHeaderSize
          omega

theorem stays_wozFindChunk (hloaded : baseOffset + header.length ≤ fileSize)
    (hheader : header.length < 2 ^ 32) (hlong : fileHeaderSize ≤ header.length)
    (id : List UInt8) :
    Stays (wozFindChunk header id) fileSize baseOffset header.length fun found _ =>
      found.1 ≠ 0 → IsChunk header id found.1 found.2 :=
  stays_wozFindChunkFrom hloaded hheader id .first hlong (by omega)

end Header

section File

variable {file : WozFile} {baseOffset : UInt32} {headerSize : Nat}

theorem stays_read {position length : Nat} (hin : position + length ≤ file.size) :
    Stays (file.read position length) file.size baseOffset.toNat headerSize fun bytes t =>
      bytes = peeks file.byte position length ∧ t = [.file position length] := by
  refine .bind (.note hin) fun _ t ht => .pure ⟨?_, ?_⟩
  · rw [Nat.min_eq_left (by omega)]
  · rw [ht]
    rfl

/-- **The walk to the end of the chunks ends**, and it stays in the file. -/
theorem stays_wozChunksEndFrom {fuel chunksEnd : Nat}
    (hend : fileHeaderSize ≤ chunksEnd ∧ baseOffset.toNat + chunksEnd ≤ file.size)
    (hfuel : file.size < fuel + chunksEnd) :
    Stays (wozChunksEndFrom file baseOffset fuel chunksEnd) file.size baseOffset.toNat headerSize
      fun chunksEnd _ =>
        fileHeaderSize ≤ chunksEnd ∧ baseOffset.toNat + chunksEnd ≤ file.size := by
  induction fuel generalizing chunksEnd with
  | zero => omega
  | succ fuel ih =>
    have hfile := file.size_lt
    have hpos : (baseOffset.toNat + chunksEnd) % 2 ^ 64 = baseOffset.toNat + chunksEnd :=
      Nat.mod_eq_of_lt (by omega)
    have hafter : (baseOffset.toNat + chunksEnd + chunkHeaderSize) % 2 ^ 64
        = baseOffset.toNat + chunksEnd + chunkHeaderSize :=
      Nat.mod_eq_of_lt (by unfold chunkHeaderSize; omega)
    unfold wozChunksEndFrom
    dsimp only
    rw [hpos, hafter]
    split_ifs with hshort
    · exact .pure hend
    · refine .bind (stays_read (Nat.not_lt.1 hshort)) fun chunkHdr _ _ => ?_
      have hsize : (readU32Le (chunkHdr.drop chunkSizeOffset)).toNat < 2 ^ 32 := UInt32.toNat_lt _
      generalize (readU32Le (chunkHdr.drop chunkSizeOffset)).toNat = chunkSize at hsize ⊢
      have hnext : (chunksEnd + chunkHeaderSize + chunkSize) % 2 ^ 64
          = chunksEnd + chunkHeaderSize + chunkSize :=
        Nat.mod_eq_of_lt (by unfold chunkHeaderSize; omega)
      rw [hnext, Nat.mod_eq_of_lt (by unfold chunkHeaderSize; omega)]
      split_ifs with hid hlong
      · exact .pure hend
      · exact .pure hend
      · refine ih ⟨by omega, by omega⟩ ?_
        unfold chunkHeaderSize
        omega

theorem stays_wozCrc32From {fuel position remaining : Nat}
    (hin : position + remaining ≤ file.size) (hfuel : remaining < fuel) (state : UInt32) :
    Stays (wozCrc32From file fuel position remaining state) file.size baseOffset.toNat headerSize
      fun _ _ => True := by
  induction fuel generalizing position remaining state with
  | zero => omega
  | succ fuel ih =>
    have hwant : (if remaining < crc32StreamBufferSize then remaining
        else crc32StreamBufferSize) ≤ remaining ∧ (remaining ≠ 0 →
          0 < (if remaining < crc32StreamBufferSize then remaining
            else crc32StreamBufferSize)) := by
      unfold crc32StreamBufferSize
      split_ifs <;> omega
    unfold wozCrc32From
    generalize (if remaining < crc32StreamBufferSize then remaining
      else crc32StreamBufferSize) = want at hwant ⊢
    split_ifs with hdone
    · exact .pure trivial
    · have hpos := hwant.2 hdone
      refine .bind (stays_read (by omega)) fun buffer _ _ => ?_
      split_ifs
      · exact stays_refuse .io
      · exact ih (by omega) (by omega) _

theorem stays_wozVerifyCrc32 (hheader : baseOffset.toNat + fileHeaderSize ≤ file.size)
    (storedCrc : UInt32) :
    Stays (wozVerifyCrc32 file baseOffset storedCrc) file.size baseOffset.toNat headerSize
      fun _ _ => True := by
  have hfile := file.size_lt
  unfold wozVerifyCrc32
  split_ifs
  · exact .pure trivial
  · refine .bind (stays_wozChunksEndFrom ⟨Nat.le_refl _, hheader⟩ (by omega))
      fun chunksEnd _ hend => ?_
    have hremaining : (chunksEnd + (2 ^ 64 - fileHeaderSize)) % 2 ^ 64
        = chunksEnd - fileHeaderSize := by
      unfold fileHeaderSize at hend ⊢
      omega
    rw [hremaining]
    refine .bind (stays_wozCrc32From (by omega) (by omega) _) fun state _ _ => ?_
    split_ifs
    · exact .pure trivial
    · exact stays_refuse .corrupt

end File

end LinApple.Disk
