import LinApple.Disk.Encoding
import Mathlib.Tactic.IntervalCases

/-!
# Six and two

A data field gives its sector back. The encoder gathers the two low bits of
every byte, three bytes at a time with an offset that wraps around a byte,
chains what it has by exclusive or and looks the six high bits of each link
up in a table; every step is undone by one of the decoder's
(`decodeSector62_encodeSector62`).
-/

namespace LinApple.Disk

/-! ## One byte -/

section Bits

variable (a b c : UInt8)

/-- The low bits of three bytes, as the encoder packs them. -/
def packBits (a b c : UInt8) : UInt8 :=
  encodeBits (encodeBits (encodeBits 0 a) b) c <<< 2

/-- Each byte of three is restored from where its low bits stand in the pack, two places
further down than those of the byte before. -/
theorem restoreBits_packBits (k : Fin 3) :
    restoreBits ([a, b, c].get k &&& 0xFC)
      ((packBits a b c &&& 0x80 >>> UInt8.ofNat (2 * k)) >>> UInt8.ofNat (7 - 2 * k))
      ((packBits a b c &&& 0x40 >>> UInt8.ofNat (2 * k)) >>> UInt8.ofNat (5 - 2 * k))
      = [a, b, c].get k := by
  rw [← UInt8.toBitVec_inj]
  match k with
  | 0 | 1 | 2 =>
    simp only [restoreBits, packBits, encodeBits, UInt8.toBitVec_or,
      UInt8.toBitVec_and, UInt8.toBitVec_shiftLeft, UInt8.toBitVec_shiftRight]
    ext i hi
    interval_cases i <;> simp

theorem xor_and_high : (a ^^^ b) &&& 0xFC = (a &&& 0xFC) ^^^ (b &&& 0xFC) := by
  rw [← UInt8.toBitVec_inj]
  simp only [UInt8.toBitVec_xor, UInt8.toBitVec_and]
  ext i hi
  simp [Bool.and_xor_distrib_right]

theorem shiftRight_shiftLeft : b >>> 2 <<< 2 = b &&& 0xFC := by
  rw [← UInt8.toBitVec_inj]
  simp only [UInt8.toBitVec_and, UInt8.toBitVec_shiftLeft,
    UInt8.toBitVec_shiftRight]
  ext i hi
  interval_cases i <;> simp

theorem shiftRight_toNat_lt : (b >>> 2).toNat < 64 := by
  have hb := b.toNat_lt
  rw [UInt8.toNat_shiftRight]
  show b.toNat >>> 2 < 64
  rw [Nat.shiftRight_eq_div_pow]
  omega

/-- A mask that is part of another one. -/
theorem and_and_of_and_eq {m m' : UInt8} (h : m &&& m' = m') :
    b &&& m &&& m' = b &&& m' := by
  rw [UInt8.and_assoc, h]

end Bits

/-- The table as it is filled in. -/
theorem decodeTable_eq : decodeTable =
  [255, 255, 255, 255, 255, 255, 255, 255, 255, 255, 255, 255, 255, 255, 255, 255, 255, 255,
   255, 255, 255, 255, 0, 4, 255, 255, 8, 12, 255, 16, 20, 24, 255, 255, 255, 255, 255, 255,
   28, 32, 255, 255, 255, 36, 40, 44, 48, 52, 255, 255, 56, 60, 64, 68, 72, 76, 255, 80, 84,
   88, 92, 96, 100, 104, 255, 255, 255, 255, 255, 255, 255, 255, 255, 255, 255, 108, 255, 112,
   116, 120, 255, 255, 255, 124, 255, 255, 128, 132, 255, 136, 140, 144, 148, 152, 156, 160,
   255, 255, 255, 255, 255, 164, 168, 172, 255, 176, 180, 184, 188, 192, 196, 200, 255, 255,
   204, 208, 212, 216, 220, 224, 255, 228, 232, 236, 240, 244, 248, 252] := by
  decide +kernel

/-- Every code of the table stands for its place in it. -/
theorem decodeNibble_table : ∀ i < 64,
    decodeNibble (diskEncodingTable[i]?.getD 0)
      = some (UInt8.ofNat i <<< 2) := by
  have hall : (List.range 64).all fun i => decodeNibble (diskEncodingTable[i]?.getD 0)
      == some (UInt8.ofNat i <<< 2) := by
    unfold decodeNibble
    rw [decodeTable_eq]
    decide +kernel
  exact fun i hi => beq_iff_eq.1 (List.all_eq_true.1 hall i (List.mem_range.2 hi))

/-- **A link is looked up and found again**, but for its two low bits. -/
theorem decodeNibble_encode (b : UInt8) :
    decodeNibble (diskEncodingTable[(b >>> 2).toNat]?.getD 0)
      = some (b &&& 0xFC) := by
  rw [decodeNibble_table _ (shiftRight_toNat_lt b), UInt8.ofNat_toNat,
    shiftRight_shiftLeft]

/-! ## The chain -/

section Chain

variable (s : UInt8) (source : List UInt8)

theorem length_xorChain : (xorChain s source).length = source.length + 1 := by
  induction source generalizing s with
  | nil => rfl
  | cons b source ih =>
    rw [xorChain, List.length_cons, ih, List.length_cons]

theorem length_xorUnchain : (xorUnchain s source).length = source.length := by
  induction source generalizing s with
  | nil => rfl
  | cons b source ih =>
    rw [xorUnchain, List.length_cons, ih, List.length_cons]

/-- A field of codes is decoded link by link. -/
theorem mapM_decodeNibble (links : List UInt8) :
    (links.map fun (b : UInt8) =>
        diskEncodingTable[(b >>> 2).toNat]?.getD 0).mapM decodeNibble
      = some (links.map (· &&& 0xFC)) := by
  induction links with
  | nil => rfl
  | cons b links ih =>
    rw [List.map_cons, List.mapM_cons, decodeNibble_encode, ih]
    rfl

/-- **The chain is undone**, but for the two low bits of each byte. -/
theorem xorUnchain_xorChain :
    xorUnchain (s &&& 0xFC)
        (((xorChain s source).map (· &&& 0xFC)).take source.length)
      = source.map (· &&& 0xFC) := by
  induction source generalizing s with
  | nil => rfl
  | cons b source ih =>
    have hlink : (s &&& 0xFC) ^^^ ((s ^^^ b) &&& 0xFC) = b &&& 0xFC := by
      rw [xor_and_high, ← UInt8.xor_assoc, UInt8.xor_self, UInt8.zero_xor]
    rw [xorChain, List.map_cons, List.length_cons, List.take_succ_cons,
      xorUnchain, hlink, ih, List.map_cons]

/-- The last link is the last byte. -/
theorem getElem?_xorChain_length :
    (xorChain s source)[source.length]? = some (source.getLast?.getD s) := by
  induction source generalizing s with
  | nil => rfl
  | cons b source ih =>
    rw [xorChain, List.length_cons, List.getElem?_cons_succ, ih]
    cases source with
    | nil => rfl
    | cons c source =>
      rw [List.getLast?_cons_cons, List.getLast?_cons]
      rfl

end Chain

/-! ## The low bits -/

section LowBits

variable (sector : UInt8 → UInt8)

/-- Low-bits bytes that restore their bytes of a sector, from a round on:
each carries the bits of three bytes, the first only if its offset has not
wrapped around. -/
def LowBitsOf : UInt8 → List UInt8 → Prop
  | _, [] => True
  | offset, low :: lows =>
    (offset ≥ 0xAC → restoreBits (sector offset &&& 0xFC)
        ((low &&& 0x80) >>> 7) ((low &&& 0x40) >>> 5) = sector offset)
      ∧ restoreBits (sector (offset - 0x56) &&& 0xFC)
        ((low &&& 0x20) >>> 5) ((low &&& 0x10) >>> 3) = sector (offset - 0x56)
      ∧ restoreBits (sector (offset - 0x56 - 0x56) &&& 0xFC)
        ((low &&& 0x08) >>> 3) ((low &&& 0x04) >>> 1)
        = sector (offset - 0x56 - 0x56)
      ∧ LowBitsOf (offset + 1) lows

/-- A round moves the offset on by one. -/
theorem offset_round (offset : UInt8) :
    offset - gcr62OffsetStep1 - gcr62OffsetStep2 - gcr62OffsetStep3
      = offset + 1 := by
  rw [gcr62OffsetStep1, gcr62OffsetStep2, gcr62OffsetStep3]
  grind

/-- The offset before a round and the rounds after it. -/
theorem add_ofNat_succ (offset : UInt8) (n : Nat) :
    offset + UInt8.ofNat (n + 1) = offset + 1 + UInt8.ofNat n := by
  rw [UInt8.ofNat_add, UInt8.add_comm (UInt8.ofNat n), ← UInt8.add_assoc]
  rfl

theorem encodeLowBits_succ (n : Nat) (offset : UInt8) :
    encodeLowBits sector (n + 1) offset
      = packBits (sector offset) (sector (offset - 0x56))
          (sector (offset - 0x56 - 0x56))
        :: encodeLowBits sector n (offset + 1) := by
  rw [encodeLowBits, ← offset_round]
  rfl

theorem length_encodeLowBits (n : Nat) (offset : UInt8) :
    (encodeLowBits sector n offset).length = n := by
  induction n generalizing offset with
  | zero => rfl
  | succ n ih => rw [encodeLowBits_succ, List.length_cons, ih]

/-- The rounds may be taken in two parts. -/
theorem encodeLowBits_add (n m : Nat) (offset : UInt8) :
    encodeLowBits sector (n + m) offset = encodeLowBits sector n offset
      ++ encodeLowBits sector m (offset + UInt8.ofNat n) := by
  induction n generalizing offset with
  | zero =>
    rw [Nat.zero_add]
    show _ = encodeLowBits sector m (offset + 0)
    rw [UInt8.add_zero]
  | succ n ih =>
    rw [Nat.succ_add, encodeLowBits_succ, encodeLowBits_succ, ih,
      List.cons_append, add_ofNat_succ]

variable {sector}

theorem lowBitsOf_append {offset : UInt8} {lows lows' : List UInt8}
    (h : LowBitsOf sector offset lows)
    (h' : LowBitsOf sector (offset + UInt8.ofNat lows.length) lows') :
    LowBitsOf sector offset (lows ++ lows') := by
  induction lows generalizing offset with
  | nil =>
    have hoffset : offset + UInt8.ofNat 0 = offset := UInt8.add_zero offset
    rwa [List.length_nil, hoffset] at h'
  | cons low lows ih =>
    refine ⟨h.1, h.2.1, h.2.2.1, ih h.2.2.2 ?_⟩
    rwa [List.length_cons, add_ofNat_succ] at h'

/-- What the encoder packs restores the sector. -/
theorem lowBitsOf_encodeLowBits (n : Nat) (offset : UInt8) :
    LowBitsOf sector offset (encodeLowBits sector n offset) := by
  induction n generalizing offset with
  | zero => exact trivial
  | succ n ih =>
    rw [encodeLowBits_succ]
    have hrestored := restoreBits_packBits (sector offset) (sector (offset - gcr62OffsetStep1))
      (sector (offset - gcr62OffsetStep1 - gcr62OffsetStep2))
    exact ⟨fun _ => hrestored 0, hrestored 1, hrestored 2, ih _⟩

/-- The two low bits of a low-bits byte do not count. -/
theorem LowBitsOf.map_high {offset : UInt8} {lows : List UInt8}
    (h : LowBitsOf sector offset lows) :
    LowBitsOf sector offset (lows.map (· &&& 0xFC)) := by
  induction lows generalizing offset with
  | nil => exact trivial
  | cons low lows ih =>
    obtain ⟨hfirst, hsecond, hthird, hrest⟩ := h
    refine ⟨fun hoffset => ?_, ?_, ?_, ih hrest⟩
    · rw [and_and_of_and_eq _ rfl, and_and_of_and_eq _ rfl]
      exact hfirst hoffset
    · rw [and_and_of_and_eq _ rfl, and_and_of_and_eq _ rfl]
      exact hsecond
    · rw [and_and_of_and_eq _ rfl, and_and_of_and_eq _ rfl]
      exact hthird

/-- Where the offset has wrapped around, the two high bits of a low-bits
byte do not count either. -/
theorem LowBitsOf.map_mask {offset : UInt8} {lows : List UInt8}
    (h : LowBitsOf sector offset lows)
    (hoffset : offset.toNat + lows.length ≤ 0xAC) :
    LowBitsOf sector offset (lows.map (· &&& 0x3F)) := by
  induction lows generalizing offset with
  | nil => exact trivial
  | cons low lows ih =>
    rw [List.length_cons] at hoffset
    obtain ⟨-, hsecond, hthird, hrest⟩ := h
    refine ⟨fun hge => ?_, ?_, ?_, ih hrest ?_⟩
    · have hge' : 0xAC ≤ offset.toNat := UInt8.le_iff_toNat_le.mp hge
      omega
    · rw [and_and_of_and_eq _ rfl, and_and_of_and_eq _ rfl]
      exact hsecond
    · rw [and_and_of_and_eq _ rfl, and_and_of_and_eq _ rfl]
      exact hthird
    · rw [UInt8.toNat_add]
      show (offset.toNat + 1) % 256 + lows.length ≤ 0xAC
      omega

/-- The offsets of a round: the first wraps around in the last two
rounds. -/
theorem toNat_offsets {i : Nat} (hi : i < 86) {offset : UInt8}
    (hoffset : offset = gcr62OffsetInit + UInt8.ofNat i) :
    offset.toNat = (172 + i) % 256
      ∧ (offset - gcr62OffsetStep1).toNat = 86 + i
      ∧ (offset - gcr62OffsetStep1 - gcr62OffsetStep2).toNat = i := by
  have hfirst : offset.toNat = (172 + i) % 256 := by
    rw [hoffset, UInt8.toNat_add, UInt8.toNat_ofNat',
      Nat.mod_eq_of_lt (a := i) (by omega)]
    rfl
  have hsecond : (offset - gcr62OffsetStep1).toNat = 86 + i := by
    rw [UInt8.toNat_sub, hfirst]
    show (256 - 86 + (172 + i) % 256) % 256 = 86 + i
    omega
  refine ⟨hfirst, hsecond, ?_⟩
  rw [UInt8.toNat_sub, hsecond]
  show (256 - 86 + (86 + i)) % 256 = i
  omega

/-- **The decoder puts the sector together**: before a round, the bytes of
the rounds before it are there, and after the last round all of them
are. -/
theorem decodeLowBits_eq {lows : List UInt8} {i : Nat}
    (hlength : i + lows.length = 86)
    (hlows : LowBitsOf sector (gcr62OffsetInit + UInt8.ofNat i) lows)
    {base image : UInt8 → UInt8} (hbase : ∀ o, base o = sector o &&& 0xFC)
    (himage : ∀ o : UInt8, o.toNat % 86 < i → image o = sector o) :
    decodeLowBits base lows (gcr62OffsetInit + UInt8.ofNat i) image = sector := by
  induction lows generalizing i image with
  | nil =>
    funext o
    refine himage o ?_
    rw [List.length_nil, Nat.add_zero] at hlength
    rw [hlength]
    exact Nat.mod_lt _ (by decide)
  | cons low lows ih =>
    rw [List.length_cons] at hlength
    obtain ⟨hfirst, hsecond, hthird, hrest⟩ := hlows
    obtain ⟨hto0, hto1, hto2⟩ := toNat_offsets (i := i) (by omega) rfl
    have hnext : gcr62OffsetInit + UInt8.ofNat i + 1
        = gcr62OffsetInit + UInt8.ofNat (i + 1) := by
      rw [UInt8.ofNat_add, ← UInt8.add_assoc]
      rfl
    rw [decodeLowBits, offset_round, hnext]
    rw [hnext] at hrest
    refine ih (by omega) hrest fun o ho => ?_
    simp only [hbase]
    by_cases h2 : o = gcr62OffsetInit + UInt8.ofNat i - gcr62OffsetStep1
        - gcr62OffsetStep2
    · rw [h2, Function.update_self]
      exact hthird
    · rw [Function.update_of_ne h2]
      by_cases h1 : o = gcr62OffsetInit + UInt8.ofNat i - gcr62OffsetStep1
      · rw [h1, Function.update_self]
        exact hsecond
      · rw [Function.update_of_ne h1]
        -- the byte is one of an earlier round, unless it is the first one
        have hearlier : o ≠ gcr62OffsetInit + UInt8.ofNat i →
            o.toNat % 86 < i := by
          intro h0
          rw [← UInt8.toNat_inj.ne, hto0] at h0
          rw [← UInt8.toNat_inj, hto1] at h1
          rw [← UInt8.toNat_inj, hto2] at h2
          have hlt := o.toNat_lt
          omega
        split
        next hge =>
          by_cases h0 : o = gcr62OffsetInit + UInt8.ofNat i
          · rw [h0, Function.update_self]
            exact hfirst hge
          · rw [Function.update_of_ne h0]
            exact himage o (hearlier h0)
        next hlt =>
          refine himage o ?_
          by_cases h0 : o = gcr62OffsetInit + UInt8.ofNat i
          · -- wrapped around, the first byte is the third of an early round
            rw [ge_iff_le, UInt8.le_iff_toNat_le, hto0] at hlt
            rw [h0, hto0]
            have h172 : gcr62OffsetInit.toNat = 172 := rfl
            omega
          · exact hearlier h0

end LowBits

/-! ## A sector -/

section Sector

variable (sector image : UInt8 → UInt8)

/-- The low-bits bytes of the encoder: all but the last two as they are
packed, and the last two without their wrapped-around bits. -/
theorem maskLastTwo_encodeLowBits :
    maskLastTwo (encodeLowBits sector gcr62Iterations gcr62OffsetInit)
      = encodeLowBits sector 84 gcr62OffsetInit
        ++ (encodeLowBits sector 2 0).map (· &&& 0x3F) := by
  have hsplit : encodeLowBits sector gcr62Iterations gcr62OffsetInit
      = encodeLowBits sector 84 gcr62OffsetInit ++ encodeLowBits sector 2 0 :=
    encodeLowBits_add sector 84 2 gcr62OffsetInit
  have hlength : (encodeLowBits sector 84 gcr62OffsetInit).length
      = gcr62Iterations - 2 := length_encodeLowBits _ _ _
  rw [maskLastTwo, length_encodeLowBits, hsplit, List.take_left' hlength,
    List.drop_left' hlength]

theorem lowBitsOf_maskLastTwo :
    LowBitsOf sector gcr62OffsetInit
      (maskLastTwo (encodeLowBits sector gcr62Iterations gcr62OffsetInit)) := by
  rw [maskLastTwo_encodeLowBits]
  refine lowBitsOf_append (lowBitsOf_encodeLowBits _ _) ?_
  rw [length_encodeLowBits]
  refine LowBitsOf.map_mask (lowBitsOf_encodeLowBits 2 0) ?_
  rw [length_encodeLowBits]
  decide

theorem length_maskLastTwo :
    (maskLastTwo (encodeLowBits sector gcr62Iterations gcr62OffsetInit)).length
      = gcr62Iterations := by
  rw [maskLastTwo_encodeLowBits, List.length_append, List.length_map,
    length_encodeLowBits, length_encodeLowBits]
  rfl

/-- A data field holds a nibble for each low-bits byte and each byte, and
one for the checksum. -/
theorem length_encodeSector62 :
    (encodeSector62 sector).length = sectorWithChecksumSize := by
  rw [encodeSector62, List.length_map, length_xorChain, List.length_append,
    length_maskLastTwo, sectorBytes, List.length_map, List.length_range]
  rfl

/-- **A sector that is encoded is decoded**, whatever is in its place. -/
theorem decodeSector62_encodeSector62 :
    decodeSector62 (encodeSector62 sector) image = some sector := by
  have hlows := lowBitsOf_maskLastTwo sector
  have hlength := length_maskLastTwo sector
  rw [decodeSector62, encodeSector62]
  generalize maskLastTwo (encodeLowBits sector gcr62Iterations gcr62OffsetInit)
    = lows at *
  have hsource : (lows ++ sectorBytes sector).length = sectorDataSize := by
    rw [List.length_append, hlength, sectorBytes, List.length_map,
      List.length_range]
    rfl
  have hdecoded : xorUnchain 0 (((xorChain 0 (lows ++ sectorBytes sector)).map
      (· &&& 0xFC)).take sectorDataSize)
      = (lows ++ sectorBytes sector).map (· &&& 0xFC) := by
    rw [← hsource]
    exact xorUnchain_xorChain 0 _
  -- the checksum is the last value of the chain, which is the last source byte itself
  have hchecksum : ((xorChain 0 (lows ++ sectorBytes sector)).map
      (· &&& 0xFC))[sectorDataSize]?.getD 0
      = ((lows ++ sectorBytes sector).map (· &&& 0xFC)).getLast?.getD 0 := by
    rw [List.getElem?_map, ← hsource, getElem?_xorChain_length,
      List.getLast?_map]
    cases (lows ++ sectorBytes sector).getLast? <;> rfl
  rw [mapM_decodeNibble]
  dsimp only
  rw [hdecoded, hchecksum, if_neg (not_not.mpr rfl), List.map_append,
    List.take_left' (by rw [List.length_map, hlength])]
  refine congrArg some (decodeLowBits_eq (i := 0) ?_ ?_ (fun o => ?_)
    fun o ho => absurd ho (Nat.not_lt_zero _))
  · rw [List.length_map, hlength]
    rfl
  · exact hlows.map_high
  · rw [List.getElem?_append_right (by rw [List.length_map, hlength]; omega),
      List.length_map, hlength, Nat.add_sub_cancel_left, List.getElem?_map,
      sectorBytes, List.getElem?_map, List.getElem?_range (show o.toNat < sectorSize from o.toNat_lt)]
    show sector (UInt8.ofNat o.toNat) &&& 0xFC = _
    rw [UInt8.ofNat_toNat]

end Sector

end LinApple.Disk
