import LinApple.Disk.SixAndTwo
import LinApple.Disk.Cells
import Mathlib.Data.List.Nodup

/-!
# A track read back

Reading a track that was laid out returns its sectors. What the reader fetches is stated as a
relation between offsets of the circular track (`Reads`), which comes apart where the track does:
each kind of field is recognised where it is read, a sector's two fields put the sector in its
place (`denibblizeFields_sector`), and after the sixteenth all are there.

A track goes through four steps before it is compared: it is made nibbles, the nibbles are laid
down as cells with the longer sync nibbles among them, nibbles are found in the cells again, and
the fields are read off these. The third is where the position is lost and found. The nibbles that
come out are those that went in, and begin where the first one began; so nothing but the last step
has to deal with a circle.

The relation is there because the reader is a loop over offsets with no memory of where it has
been. It looks for a prologue from where it is, and goes on behind what it has read; that it meets
the fields in the order in which they were laid out, and each once, is a fact about the offsets.
With the relation a field is a fact about some nibbles at some offset, wherever on the track that
is, and two of them are put together by `reads_append`.

The invariant of the reader (`SectorsRead`) counts sectors as they lie on the track, and the place
of a sector in the image is what the table says of it. For this the table must have every number
once (`IsSectorOrder`), and nothing else is asked of it, so the three orders the program knows are
cases of one theorem. The bounds on the two buffers are the number of cells and of nibbles of a
whole track, which the buffers of the callers have room for.
-/

namespace LinApple.Disk

open ByteMap

/-! ## What is fetched -/

section Reads

variable {nibbles : List UInt8} {xs ys : List UInt8} {o o' o'' : Nat}

/-- **Fetching from an offset on** gives these nibbles, and the offset after
them. -/
def Reads (nibbles : List UInt8) : Nat → List UInt8 → Nat → Prop
  | o, [], o' => o' = o
  | o, x :: xs, o' =>
    (fetchByte nibbles o).1 = x ∧ Reads nibbles (fetchByte nibbles o).2 xs o'

theorem reads_append : Reads nibbles o (xs ++ ys) o''
    ↔ ∃ o', Reads nibbles o xs o' ∧ Reads nibbles o' ys o'' := by
  induction xs generalizing o with
  | nil => exact ⟨fun h => ⟨o, rfl, h⟩, fun ⟨_, ho, h⟩ => ho ▸ h⟩
  | cons x xs ih =>
    constructor
    · rintro ⟨hx, h⟩
      obtain ⟨o', hxs, hys⟩ := ih.mp h
      exact ⟨o', ⟨hx, hxs⟩, hys⟩
    · rintro ⟨o', ⟨hx, hxs⟩, hys⟩
      exact ⟨hx, ih.mpr ⟨o', hxs, hys⟩⟩

/-- Reading on within the track, up to its end. -/
theorem reads_drop {k : Nat} (h : k < nibbles.length) :
    Reads nibbles k (nibbles.drop k) 0 := by
  generalize hn : nibbles.length - k = n
  induction n generalizing k with
  | zero => omega
  | succ n ih =>
    have hfetch : (fetchByte nibbles k).1 = nibbles[k] := by
      rw [fetchByte, List.getElem?_eq_getElem h]
      rfl
    rw [List.drop_eq_getElem_cons h]
    refine ⟨hfetch, ?_⟩
    rw [fetchByte]
    dsimp only
    split
    next hend =>
      rw [List.drop_of_length_le hend]
      rfl
    next hmore => exact ih (Nat.not_le.mp hmore) (by omega)

/-- **A turn of the track** reads all of it. -/
theorem reads_turn (h : nibbles ≠ []) : Reads nibbles 0 nibbles 0 :=
  reads_drop (List.length_pos_iff.mpr h)

theorem fetchBytes_of_reads (h : Reads nibbles o xs o') :
    fetchBytes nibbles xs.length o = (xs, o') := by
  induction xs generalizing o with
  | nil => exact Prod.ext rfl h.symm
  | cons x xs ih =>
    rw [List.length_cons, fetchBytes]
    dsimp only
    rw [ih h.2, h.1]

/-- A byte in four-and-four code is read back. -/
theorem fetch4and4_of_reads {a : UInt8} (h : Reads nibbles o (encode4and4 a) o') :
    fetch4and4 nibbles o = (a, o') := by
  have ha : ((encode4and4High a <<< 1) ||| 1) &&& encode4and4Low a = a := by
    rw [← UInt8.toBitVec_inj]
    simp only [encode4and4High, encode4and4Low, UInt8.toBitVec_or,
      UInt8.toBitVec_and, UInt8.toBitVec_shiftLeft, UInt8.toBitVec_shiftRight]
    ext i hi
    interval_cases i <;> simp
  obtain ⟨hhigh, hlow, ho'⟩ := h
  rw [fetch4and4]
  dsimp only
  rw [hhigh, hlow, ha, ho']

theorem epilogueFollows_of_reads
    (h : Reads nibbles o [epilogue1, epilogue2, epilogue3] o') :
    epilogueFollows nibbles o = (true, o') := by
  obtain ⟨hfirst, hsecond, hthird, ho'⟩ := h
  rw [epilogueFollows]
  dsimp only
  rw [hfirst, hsecond, hthird, ho']
  rfl

/-- **The next marker** is behind the gap. -/
theorem findNextMarker_of_reads {n g : Nat} (hn : g < n)
    (h : Reads nibbles o (List.replicate g syncByte ++ [prologue1, prologue2]) o') :
    findNextMarker nibbles n o = some o' := by
  induction g generalizing n o with
  | zero =>
    obtain ⟨n, rfl⟩ : ∃ k, n = k + 1 := ⟨n - 1, by omega⟩
    obtain ⟨hfirst, hsecond, ho'⟩ := h
    rw [findNextMarker]
    dsimp only
    rw [if_pos ⟨hfirst, hsecond⟩, ho']
  | succ g ih =>
    obtain ⟨n, rfl⟩ : ∃ k, n = k + 1 := ⟨n - 1, by omega⟩
    obtain ⟨hsync, h⟩ := h
    rw [findNextMarker]
    dsimp only
    rw [hsync, if_neg fun hc => absurd hc.1 (by decide)]
    exact ih (by omega) h

end Reads

/-! ## The fields of a sector -/

section Fields

variable {sectorOrder : Nat → UInt8} {track : Nat} {nibbles : List UInt8}
  {s : DenibblizeState} {sector o o' : Nat} {image : UInt8 → UInt8}

/-- **An address field** tells the sector that follows. -/
theorem readField_addressField (hsector : sector < sectorsPerTrack)
    (h : Reads nibbles s.offset
      ((addressField track.toUInt8 sector.toUInt8).drop 2) o) :
    readField sectorOrder track nibbles s
      = { s with offset := o, currentSector := some sector } := by
  have hfield : (addressField track.toUInt8 sector.toUInt8).drop 2
      = [addrPrologue3] ++ (encode4and4 volumeDefault
        ++ (encode4and4 track.toUInt8 ++ (encode4and4 sector.toUInt8
        ++ (encode4and4 (volumeDefault ^^^ track.toUInt8 ^^^ sector.toUInt8)
        ++ [epilogue1, epilogue2, epilogue3])))) := rfl
  rw [hfield, List.singleton_append] at h
  obtain ⟨hmarker, h⟩ := h
  obtain ⟨o1, hvolume, h⟩ := reads_append.mp h
  obtain ⟨o2, htrack, h⟩ := reads_append.mp h
  obtain ⟨o3, hsec, h⟩ := reads_append.mp h
  obtain ⟨o4, hchecksum, hepilogue⟩ := reads_append.mp h
  have hnat : sector.toUInt8.toNat = sector := by
    show sector % 256 = sector
    rw [sectorsPerTrack] at hsector
    omega
  have hlt : sector.toUInt8 < sectorsPerTrack.toUInt8 := by
    rw [UInt8.lt_iff_toNat_lt, hnat]
    exact hsector
  rw [readField]
  dsimp only
  rw [hmarker, if_pos rfl, readAddressField, fetch4and4_of_reads hvolume]
  dsimp only
  rw [fetch4and4_of_reads htrack]
  dsimp only
  rw [fetch4and4_of_reads hsec]
  dsimp only
  rw [fetch4and4_of_reads hchecksum]
  dsimp only
  rw [epilogueFollows_of_reads hepilogue]
  simp only [beq_self_eq_true, hlt, decide_true, Bool.and_self, if_true, hnat,
    Bool.not_true, Bool.or_false]

/-- **A data field** puts its sector in its place. -/
theorem readField_dataField (hsector : s.currentSector = some sector)
    (hfile : (sectorOrder sector).toNat < sectorsPerTrack)
    (h : Reads nibbles s.offset ((dataField image).drop 2) o) :
    readField sectorOrder track nibbles s
      = { s with
          offset := o
          currentSector := none
          staging := putSector s.staging (sectorOrder sector).toNat image
          decodedSectorsMask := s.decodedSectorsMask
            ||| (1 <<< (sectorOrder sector).toNat.toUInt16) } := by
  have hfield : (dataField image).drop 2 = [dataPrologue3]
      ++ (encodeSector62 image ++ [epilogue1, epilogue2, epilogue3]) := rfl
  rw [hfield, List.singleton_append] at h
  obtain ⟨hmarker, h⟩ := h
  obtain ⟨o1, hdata, hepilogue⟩ := reads_append.mp h
  have hfetch := fetchBytes_of_reads hdata
  rw [length_encodeSector62] at hfetch
  rw [readField]
  dsimp only
  rw [hmarker, if_neg (by decide), if_pos rfl, readDataField]
  dsimp only
  rw [hfetch]
  dsimp only
  rw [epilogueFollows_of_reads hepilogue, hsector]
  dsimp only
  rw [takeDataField]
  dsimp only
  rw [if_neg (by simpa using hfile), decodeSector62_encodeSector62]

/-- **A sector behind a gap** is put in its place, two markers on. -/
theorem denibblizeFields_sector {g n : Nat} (hg : g < nibbles.length)
    (hopen : s.decodedSectorsMask ≠ allSectorsMask)
    (hsector : sector < sectorsPerTrack)
    (hfile : (sectorOrder sector).toNat < sectorsPerTrack)
    (hgap : gap2Size < nibbles.length)
    (h : Reads nibbles s.offset (List.replicate g syncByte
      ++ (addressField track.toUInt8 sector.toUInt8
      ++ (List.replicate gap2Size syncByte ++ dataField image))) o) :
    denibblizeFields sectorOrder track nibbles (n + 2) s
      = denibblizeFields sectorOrder track nibbles n { s with
          offset := o
          currentSector := none
          staging := putSector s.staging (sectorOrder sector).toNat image
          decodedSectorsMask := s.decodedSectorsMask
            ||| (1 <<< (sectorOrder sector).toNat.toUInt16) } := by
  have haddress : addressField track.toUInt8 sector.toUInt8
      = [prologue1, prologue2]
        ++ (addressField track.toUInt8 sector.toUInt8).drop 2 := rfl
  have hdata : dataField image = [prologue1, prologue2]
      ++ (dataField image).drop 2 := rfl
  rw [haddress, hdata, List.append_assoc, ← List.append_assoc,
    reads_append] at h
  obtain ⟨o1, hmarker, h⟩ := h
  rw [reads_append] at h
  obtain ⟨o2, hfield, h⟩ := h
  rw [← List.append_assoc, reads_append] at h
  obtain ⟨o3, hmarker', hfield'⟩ := h
  rw [denibblizeFields, if_neg hopen, findNextMarker_of_reads hg hmarker]
  dsimp only
  rw [readField_addressField (s := { s with offset := o1 }) hsector hfield,
    denibblizeFields, if_neg hopen, findNextMarker_of_reads hgap hmarker']
  dsimp only
  rw [readField_dataField (s := { s with
    offset := o3, currentSector := some sector }) rfl hfile hfield']

end Fields

/-! ## The whole track -/

/-- A table of sector numbers, each of which is in it once. The tables of the program are such,
and a track laid out with any other would lack a sector. -/
def IsSectorOrder (sectorOrder : Nat → UInt8) : Prop :=
  ((List.range sectorsPerTrack).map fun i => (sectorOrder i).toNat).Perm
    (List.range sectorsPerTrack)

instance (sectorOrder : Nat → UInt8) : Decidable (IsSectorOrder sectorOrder) :=
  inferInstanceAs (Decidable (List.Perm _ _))

/-- Both orders of the disk images are such tables. -/
theorem isSectorOrder_diskEncodingSectorOrder (order : DiskSectorOrder) :
    IsSectorOrder (diskEncodingSectorOrder order) := by
  cases order <;> exact by decide

section Order

variable {sectorOrder : Nat → UInt8} (h : IsSectorOrder sectorOrder)
include h

theorem IsSectorOrder.lt {i : Nat} (hi : i < sectorsPerTrack) :
    (sectorOrder i).toNat < sectorsPerTrack :=
  List.mem_range.mp (h.subset
    (List.mem_map_of_mem (List.mem_range.mpr hi)))

theorem IsSectorOrder.inj {i j : Nat} (hi : i < sectorsPerTrack)
    (hj : j < sectorsPerTrack)
    (heq : (sectorOrder i).toNat = (sectorOrder j).toNat) : i = j :=
  List.inj_on_of_nodup_map (h.nodup_iff.mpr List.nodup_range)
    (List.mem_range.mpr hi) (List.mem_range.mpr hj) heq

theorem IsSectorOrder.surj {f : Nat} (hf : f < sectorsPerTrack) :
    ∃ i < sectorsPerTrack, (sectorOrder i).toNat = f := by
  obtain ⟨i, hi, heq⟩ := List.mem_map.mp
    (h.symm.subset (List.mem_range.mpr hf))
  exact ⟨i, List.mem_range.mp hi, heq⟩

end Order

section Sectors

variable {sectorOrder : Nat → UInt8} {track : Nat} {sectors : Nat → UInt8}
  {nibbles : List UInt8} {s : DenibblizeState} {j : Nat}

/-- A bit of the mask. -/
theorem testBit_mask_or (m : UInt16) {f : Nat} (hf : f < 16) (k : Nat) :
    (m ||| (1 <<< f.toUInt16)).toNat.testBit k
      = (m.toNat.testBit k || decide (f = k)) := by
  have hbit : ((1 : UInt16) <<< f.toUInt16).toNat = 2 ^ f := by
    interval_cases f <;> rfl
  rw [UInt16.toNat_or, Nat.testBit_or, hbit, Nat.testBit_two_pow]

/-- **What has been read** after some of the sectors: their bits are set,
and their bytes are there. -/
structure SectorsRead (sectorOrder : Nat → UInt8) (sectors : Nat → UInt8)
    (j : Nat) (s : DenibblizeState) : Prop where
  /-- Nothing was refused. -/
  accepted : s.fieldRefused = false
  /-- The mask. -/
  mask : ∀ f < sectorsPerTrack, s.decodedSectorsMask.toNat.testBit f = true
    ↔ ∃ i < j, (sectorOrder i).toNat = f
  /-- The bytes. -/
  staging : ∀ a, (∃ i < j, (sectorOrder i).toNat = a / sectorSize) →
    s.staging a = sectors a

/-- As long as a sector is missing, the mask is not full. -/
theorem SectorsRead.open (hread : SectorsRead sectorOrder sectors j s)
    (horder : IsSectorOrder sectorOrder) (hj : j < sectorsPerTrack) :
    s.decodedSectorsMask ≠ allSectorsMask := by
  intro hall
  have hlt := horder.lt hj
  have hbit : s.decodedSectorsMask.toNat.testBit (sectorOrder j).toNat = true := by
    rw [hall]
    show (2 ^ 16 - 1).testBit _ = true
    rw [Nat.testBit_two_pow_sub_one, decide_eq_true_iff]
    exact hlt
  obtain ⟨i, hi, heq⟩ := (hread.mask _ hlt).mp hbit
  exact Nat.ne_of_lt hi (horder.inj (Nat.lt_trans hi hj) hj heq)

/-- When all sectors have been read, the mask is full. -/
theorem SectorsRead.full (hread : SectorsRead sectorOrder sectors
      sectorsPerTrack s) (horder : IsSectorOrder sectorOrder) :
    s.decodedSectorsMask = allSectorsMask := by
  rw [← UInt16.toNat_inj]
  refine Nat.eq_of_testBit_eq fun f => ?_
  show _ = (2 ^ 16 - 1).testBit f
  rw [Nat.testBit_two_pow_sub_one]
  by_cases hf : f < 16
  · rw [decide_eq_true hf, hread.mask f hf]
    exact horder.surj hf
  · rw [decide_eq_false hf]
    exact Nat.testBit_lt_two_pow (Nat.lt_of_lt_of_le
      s.decodedSectorsMask.toNat_lt (Nat.pow_le_pow_right (by decide)
        (Nat.not_lt.mp hf)))

/-- **One sector more.** -/
theorem SectorsRead.succ (hread : SectorsRead sectorOrder sectors j s)
    (hfile : (sectorOrder j).toNat < sectorsPerTrack) (o : Nat) :
    SectorsRead sectorOrder sectors (j + 1) { s with
      offset := o
      currentSector := none
      staging := putSector s.staging (sectorOrder j).toNat
        (sectorAt sectors (sectorOrder j).toNat)
      decodedSectorsMask := s.decodedSectorsMask
        ||| (1 <<< (sectorOrder j).toNat.toUInt16) } := by
  refine ⟨hread.accepted, fun f hf => ?_, ?_⟩
  · rw [testBit_mask_or _ hfile, Bool.or_eq_true, hread.mask f hf,
      decide_eq_true_iff]
    constructor
    · rintro (⟨i, hi, heq⟩ | heq)
      · exact ⟨i, Nat.lt_succ_of_lt hi, heq⟩
      · exact ⟨j, Nat.lt_succ_self j, heq⟩
    · rintro ⟨i, hi, heq⟩
      obtain hlt | rfl := Nat.lt_succ_iff_lt_or_eq.mp hi
      · exact .inl ⟨i, hlt, heq⟩
      · exact .inr heq
  · rintro a ⟨i, hi, heq⟩
    show putSector _ _ _ a = sectors a
    rw [putSector]
    split
    next hsame =>
      have hoffset : (a % sectorSize).toUInt8.toNat = a % sectorSize :=
        Nat.mod_eq_of_lt (Nat.mod_lt a (by decide))
      rw [sectorAt, hoffset, ← hsame, Nat.div_add_mod']
    next hother =>
      obtain hlt | rfl := Nat.lt_succ_iff_lt_or_eq.mp hi
      · exact hread.staging a ⟨i, hlt, heq⟩
      · exact absurd heq.symm hother

/-- The nibbles of a round. -/
theorem map_fst_nibblizeSector (k : Nat) :
    (nibblizeSector sectorOrder track sectors k).map Prod.fst
      = addressField track.toUInt8 k.toUInt8
        ++ (List.replicate gap2Size syncByte
        ++ (dataField (sectorAt sectors (sectorOrder k).toNat)
        ++ List.replicate gap3Size syncByte)) := by
  simp only [nibblizeSector, putData, putGap, List.map_append, List.map_map,
    List.map_replicate, List.append_assoc, Function.comp_def, List.map_id']

/-- **The rounds that are left are read** one after another. -/
theorem denibblizeFields_sectors (horder : IsSectorOrder sectorOrder)
    {n m g : Nat} (hn : j + n = sectorsPerTrack)
    (hread : SectorsRead sectorOrder sectors j s)
    (hg : g < nibbles.length) (hgap2 : gap2Size < nibbles.length)
    (hgap3 : gap3Size < nibbles.length) {o : Nat}
    (h : Reads nibbles s.offset (List.replicate g syncByte
      ++ (List.range' j n).flatMap fun k =>
        (nibblizeSector sectorOrder track sectors k).map Prod.fst) o) :
    SectorsRead sectorOrder sectors sectorsPerTrack
      (denibblizeFields sectorOrder track nibbles (2 * n + m) s) := by
  induction n generalizing j s g with
  | zero =>
    obtain rfl : j = sectorsPerTrack := hn
    have hdone : denibblizeFields sectorOrder track nibbles m s = s := by
      cases m with
      | zero => rfl
      | succ m => rw [denibblizeFields, if_pos (hread.full horder)]
    rwa [Nat.mul_zero, Nat.zero_add, hdone]
  | succ n ih =>
    have hj : j < sectorsPerTrack := by omega
    rw [List.range'_succ, List.flatMap_cons, map_fst_nibblizeSector] at h
    simp only [List.append_assoc] at h
    rw [← List.append_assoc, ← List.append_assoc, ← List.append_assoc,
      reads_append] at h
    obtain ⟨o1, hsector, hrest⟩ := h
    simp only [List.append_assoc] at hsector
    have hfuel : 2 * (n + 1) + m = 2 * n + m + 2 := by omega
    rw [hfuel, denibblizeFields_sector hg (hread.open horder hj) hj
      (horder.lt hj) hgap2 hsector]
    exact ih (by omega) (hread.succ (horder.lt hj) o1) hgap3 hrest

/-- The number of nibbles of a track. -/
theorem length_nibblizeSector (k : Nat) :
    (nibblizeSector sectorOrder track sectors k).length = 385 := by
  rw [← List.length_map Prod.fst, map_fst_nibblizeSector]
  simp only [List.length_append, List.length_replicate, dataField,
    length_encodeSector62]
  rfl

/-- **A track that was laid out is read back**: the sectors are those it was
laid out from, whatever the caller's buffer held. -/
theorem denibblizeTrack_nibblizeSectors (horder : IsSectorOrder sectorOrder)
    (sectorsOut : Nat → UInt8) :
    diskEncodingDenibblizeTrack sectorOrder track
        ((putGap gap1Size ++ nibblizeSectors sectorOrder track sectors).map
          Prod.fst) sectorsOut
      = (.none, pokes sectorsOut 0 (peeks sectors 0 trackImageSize)) := by
  have hlist : (putGap gap1Size
        ++ nibblizeSectors sectorOrder track sectors).map Prod.fst
      = List.replicate gap1Size syncByte
        ++ (List.range' 0 sectorsPerTrack).flatMap fun k =>
          (nibblizeSector sectorOrder track sectors k).map Prod.fst := by
    rw [List.map_append, putGap, List.map_replicate, nibblizeSectors,
      List.map_flatMap, List.range_eq_range']
  have hlength : 48 < (List.replicate gap1Size syncByte
      ++ (List.range' 0 sectorsPerTrack).flatMap fun k =>
        (nibblizeSector sectorOrder track sectors k).map Prod.fst).length := by
    rw [List.length_append, List.length_replicate, sectorsPerTrack,
      List.range'_succ, List.flatMap_cons, List.length_append, List.length_map,
      length_nibblizeSector, gap1Size]
    omega
  rw [hlist]
  generalize hnibbles : (List.replicate gap1Size syncByte
    ++ (List.range' 0 sectorsPerTrack).flatMap fun k =>
      (nibblizeSector sectorOrder track sectors k).map Prod.fst) = nibbles at *
  have hnil : nibbles ≠ [] := List.ne_nil_of_length_pos (by omega)
  -- nothing is read yet, so the invariant of the field loop holds of no sector
  have hread : SectorsRead sectorOrder sectors 0
      ⟨0, none, 0, false, fun _ => 0⟩ :=
    ⟨rfl, fun f _ => ⟨fun h => absurd h (by
        rw [Bool.not_eq_true]
        exact Nat.zero_testBit f),
      fun ⟨i, hi, _⟩ => absurd hi (Nat.not_lt_zero i)⟩,
      fun a ⟨i, hi, _⟩ => absurd hi (Nat.not_lt_zero i)⟩
  have hturn : Reads nibbles 0 (List.replicate gap1Size syncByte
      ++ (List.range' 0 sectorsPerTrack).flatMap fun k =>
        (nibblizeSector sectorOrder track sectors k).map Prod.fst) 0 := by
    rw [hnibbles]
    exact reads_turn hnil
  have hdone := denibblizeFields_sectors (m := 16) horder (Nat.zero_add _)
    hread hlength (Nat.lt_trans (by decide) hlength)
    (Nat.lt_trans (by decide) hlength) hturn
  have hnone : ¬ (nibbles.length = 0) := by omega
  rw [diskEncodingDenibblizeTrack, if_neg hnone]
  dsimp only
  -- two markers a sector, and sixteen attempts left over
  have hfuel : 2 * sectorsPerTrack + 16 = maxGcrMarkersPerTrack := rfl
  rw [hfuel] at hdone
  rw [hdone.accepted, hdone.full horder, if_neg (by decide)]
  refine congrArg (Prod.mk _) (congrArg (pokes sectorsOut 0)
    (peeks_congr fun a _ ha => hdone.staging a (horder.surj ?_)))
  rw [trackImageSize, Nat.zero_add] at ha
  exact Nat.div_lt_of_lt_mul (by rwa [Nat.mul_comm])

end Sectors

/-! ## Reading back what the medium holds -/

section RoundTrip

variable {sectorOrder : Nat → UInt8} {track : Nat} {sectors : Nat → UInt8}

/-- A nibble: a byte with its high bit set. -/
def IsNibble (b : UInt8) : Prop := b &&& 0x80 ≠ 0

theorem isNibble_encode4and4 (a : UInt8) : ∀ b ∈ encode4and4 a, IsNibble b := by
  have hbit : ∀ c : UInt8, IsNibble (c ||| 0xAA) := by
    intro c
    have hc : (c ||| 0xAA) &&& 0x80 = 0x80 := by
      rw [← UInt8.toBitVec_inj]
      simp only [UInt8.toBitVec_or, UInt8.toBitVec_and]
      ext i hi
      interval_cases i <;> simp
    rw [IsNibble, hc]
    decide
  rw [encode4and4, List.forall_mem_cons, List.forall_mem_singleton]
  exact ⟨hbit _, hbit _⟩

theorem isNibble_encodeSector62 (sector : UInt8 → UInt8) :
    ∀ b ∈ encodeSector62 sector, IsNibble b := by
  have htable : ∀ i < 64, IsNibble (diskEncodingTable[i]?.getD 0) := by
    show ∀ i < 64, diskEncodingTable[i]?.getD 0 &&& 0x80 ≠ 0
    decide
  intro b hb
  obtain ⟨link, -, rfl⟩ := List.mem_map.mp hb
  exact htable _ (shiftRight_toNat_lt link)

/-- Every byte of a sector's fields and gaps is a nibble. -/
theorem isNibble_nibblizeSector (k : Nat) :
    ∀ b ∈ (nibblizeSector sectorOrder track sectors k).map Prod.fst,
      IsNibble b := by
  have hmarks : IsNibble prologue1 ∧ IsNibble prologue2 ∧ IsNibble addrPrologue3
      ∧ IsNibble dataPrologue3 ∧ IsNibble epilogue1 ∧ IsNibble epilogue2
      ∧ IsNibble epilogue3 ∧ IsNibble syncByte := by
    simp only [IsNibble]
    decide
  have hgap : ∀ n, ∀ b ∈ List.replicate n syncByte, IsNibble b := by
    intro n b hb
    rw [List.eq_of_mem_replicate hb]
    exact hmarks.2.2.2.2.2.2.2
  rw [map_fst_nibblizeSector, addressField, dataField]
  simp only [List.forall_mem_append, List.forall_mem_cons, List.not_mem_nil,
    false_imp_iff, implies_true, and_true, hmarks]
  exact ⟨⟨⟨⟨⟨trivial, isNibble_encode4and4 _⟩, isNibble_encode4and4 _⟩,
    isNibble_encode4and4 _⟩, isNibble_encode4and4 _⟩, hgap _,
    ⟨trivial, isNibble_encodeSector62 _⟩, hgap _⟩

/-- The emitted nibbles of a track with its own mask. -/
theorem walkSyncRuns_mask (nibbles : List (UInt8 × UInt8)) :
    walkSyncRuns (nibbles.map Prod.fst) (some (nibbles.map Prod.snd))
      = nibbles.map fun e => (e.1, e.2 != 0) := by
  rw [walkSyncRuns, List.zipWith_map, List.zipWith_self]

/-- The number of cells of nibbles with their mask. -/
def cellsOf (nibbles : List (UInt8 × UInt8)) : Nat :=
  (nibbles.map fun e => cellCount (e.2 != 0)).sum

theorem cellsOf_append (nibbles nibbles' : List (UInt8 × UInt8)) :
    cellsOf (nibbles ++ nibbles') = cellsOf nibbles + cellsOf nibbles' := by
  rw [cellsOf, List.map_append, List.sum_append]
  rfl

theorem cellsOf_putData (field : List UInt8) :
    cellsOf (putData field) = 8 * field.length := by
  rw [cellsOf, putData, List.map_map]
  show (field.map fun _ => 8).sum = _
  rw [List.map_const', List.sum_replicate_nat, Nat.mul_comm]

theorem cellsOf_putGap (n : Nat) : cellsOf (putGap n) = 10 * n := by
  rw [cellsOf, putGap, List.map_replicate, List.sum_replicate_nat, Nat.mul_comm]
  rfl

/-- **The cells of a track**: 363 data nibbles and 22 self-sync ones a
sector, behind the first gap. -/
theorem cellsOf_track :
    cellsOf (putGap gap1Size ++ nibblizeSectors sectorOrder track sectors)
      = 50464 := by
  have hsector : ∀ k, cellsOf (nibblizeSector sectorOrder track sectors k)
      = 3124 := by
    intro k
    rw [nibblizeSector, cellsOf_append, cellsOf_append, cellsOf_append,
      cellsOf_putData, cellsOf_putData, cellsOf_putGap, cellsOf_putGap,
      dataField, List.length_append, List.length_append, length_encodeSector62]
    rfl
  have hsectors : ∀ l : List Nat, cellsOf
      (l.flatMap (nibblizeSector sectorOrder track sectors))
      = 3124 * l.length := by
    intro l
    induction l with
    | nil => rfl
    | cons k l ih =>
      rw [List.flatMap_cons, cellsOf_append, hsector, ih, List.length_cons,
        Nat.mul_succ, Nat.add_comm]
  rw [cellsOf_append, cellsOf_putGap, nibblizeSectors, hsectors,
    List.length_range]
  rfl

/-- **Reading a track and writing it back is the identity.** Whatever the
sectors hold, for every track of the disk and every sector order, the track
is laid out, its cells are laid down in any buffer that holds them, the
cells are read back as nibbles into any buffer that holds these, and the
nibbles are read back as the sectors. -/
theorem sectors_roundTrip (horder : IsSectorOrder sectorOrder)
    (htrack : track < tracksPerDisk) (sectors sectorsOut bits : Nat → UInt8)
    {maxBits maxNibbles : Nat} (hbits : 50464 ≤ maxBits)
    (hnibbles : 6208 ≤ maxNibbles) :
    ∃ nibbles bits' bitCount read,
      diskEncodingNibblizeTrack sectorOrder track sectors = .ok nibbles
      ∧ diskEncodingNibblesToBits (nibbles.map Prod.fst)
          (some (nibbles.map Prod.snd)) bits maxBits = .ok (bits', bitCount)
      ∧ diskEncodingBitsToNibbles bits' bitCount maxNibbles = (.none, read)
      ∧ diskEncodingDenibblizeTrack sectorOrder track read sectorsOut
          = (.none, pokes sectorsOut 0 (peeks sectors 0 trackImageSize)) := by
  have hnibblize : diskEncodingNibblizeTrack sectorOrder track sectors
      = .ok (putGap gap1Size ++ nibblizeSectors sectorOrder track sectors) := by
    rw [diskEncodingNibblizeTrack, if_neg (Nat.not_le.mpr htrack)]
  have hcells := @cellsOf_track sectorOrder track sectors
  have hread := @denibblizeTrack_nibblizeSectors sectorOrder track sectors
    horder sectorsOut
  -- the track has one length, whatever its sectors hold: 6208 nibbles in 50464 cells
  have hlength : (putGap gap1Size
      ++ nibblizeSectors sectorOrder track sectors).length = 6208 := by
    rw [List.length_append, putGap, List.length_replicate, nibblizeSectors,
      List.length_flatMap]
    simp only [length_nibblizeSector]
    rfl
  have hhigh : ∀ b ∈ (putGap gap1Size
      ++ nibblizeSectors sectorOrder track sectors).map Prod.fst, IsNibble b := by
    rw [List.map_append, List.forall_mem_append, nibblizeSectors,
      List.map_flatMap]
    refine ⟨fun b hb => ?_, fun b hb => ?_⟩
    · rw [putGap, List.map_replicate] at hb
      rw [List.eq_of_mem_replicate hb, IsNibble]
      decide
    · obtain ⟨k, -, hb⟩ := List.mem_flatMap.mp hb
      exact isNibble_nibblizeSector k b hb
  generalize putGap gap1Size ++ nibblizeSectors sectorOrder track sectors
    = nibbles at *
  have hwalk := walkSyncRuns_mask nibbles
  obtain ⟨bits', hlaid, hback⟩ := @bitsToNibbles_nibblesToBits _
    (some (nibbles.map Prod.snd)) bits maxBits maxNibbles 50464
    (by rw [hwalk, List.map_map]; rfl) hhigh
    (by rw [hwalk, List.map_map]; exact hcells) hbits (by omega)
    (by rw [List.length_map, hlength]; exact hnibbles)
  exact ⟨nibbles, bits', 50464, _, hnibblize, hlaid, hback, hread⟩

/-- A track of the disk in DOS order is read and written back. -/
theorem sectors_roundTrip_dos :
    ∃ nibbles bits' bitCount read,
      diskEncodingNibblizeTrack (diskEncodingSectorOrder .dos) 17 (fun _ => 7)
        = .ok nibbles
      ∧ diskEncodingNibblesToBits (nibbles.map Prod.fst)
          (some (nibbles.map Prod.snd)) (fun _ => 0) 69632 = .ok (bits', bitCount)
      ∧ diskEncodingBitsToNibbles bits' bitCount 6656 = (.none, read)
      ∧ diskEncodingDenibblizeTrack (diskEncodingSectorOrder .dos) 17 read
          (fun _ => 0)
          = (.none, pokes (fun _ => 0) 0 (peeks (fun _ => 7) 0 trackImageSize)) :=
  sectors_roundTrip (isSectorOrder_diskEncodingSectorOrder .dos) (by decide) _ _ _
    (by omega) (by omega)

end RoundTrip

end LinApple.Disk
