import LinApple.Disk.Track

/-!
# Where a track that was taken over came from

What the guest wrote is read field by field around the circular track. The reader keeps to
`Found`: the sector it is waiting for is one that an address field named, and every sector it has
decoded came from a data field behind an address field (`FromField`). Nothing reaches the caller
unless all sixteen did (`denibblizeTrack_sound`).

A stream of nibbles that a guest has written may be anything: no fields at all, fields cut off by
others, sectors twice or under numbers that there are none of, fields that go round the end of the
track. The reader takes it as it comes, for as many rounds as it has, and the question is not
whether it finds what is there but whether what it hands on was there. So the theorem has no
hypotheses about the stream.

`HoldsSector` says when a field of 343 nibbles holds a sector: each nibble is a code, the codes
chained by exclusive or end in the checksum, and the sector is what they decode to. `PassedOver`
and `NextPrologue` say how one gets from an address field to a data field: prologue by prologue,
past those that are neither, so that no other field is in between. They are relations on places of
the track and know nothing of the reader's state; that the reader's way along the track is such a
path is a lemma for each of its turns.

A sector is accepted under the number of the last address field on the right track. Where several
fields name one sector, the one that was decoded last is handed on, and it may be any of them.
-/

namespace LinApple.Disk

open ByteMap

/-! ## Fields on the track -/

/-- The byte that two nibbles of four-and-four code stand for. -/
def decode4and4 (high low : UInt8) : UInt8 := ((high <<< 1) ||| 1) &&& low

/-- The offset after another, around the track. -/
def turned (nibbles : List UInt8) (o : Nat) : Nat := (fetchByte nibbles o).2

/-- **An address field that holds**, from one offset to another: its checksum is
that of the volume, the track and the sector it names. -/
def AddressAt (nibbles : List UInt8) (track sector : UInt8) (o o' : Nat) : Prop :=
  ∃ v v' t t' s s' c c' : UInt8,
    Reads nibbles o [prologue1, prologue2, addrPrologue3, v, v', t, t', s, s', c, c',
      epilogue1, epilogue2, epilogue3] o' ∧
    decode4and4 t t' = track ∧ decode4and4 s s' = sector ∧
    decode4and4 c c' = decode4and4 v v' ^^^ track ^^^ sector

/-- **A data field**, with what is between its prologue and its epilogue. -/
def DataAt (nibbles field : List UInt8) (o o' : Nat) : Prop :=
  field.length = sectorWithChecksumSize ∧
    Reads nibbles o ([prologue1, prologue2, dataPrologue3] ++ field
      ++ [epilogue1, epilogue2, epilogue3]) o'

/-- **The next prologue** from an offset on: where it starts, and the offset of
the byte that says what it is the prologue of. -/
def NextPrologue (nibbles : List UInt8) (o p q : Nat) : Prop :=
  ∃ k, p = (turned nibbles)^[k] o ∧ Reads nibbles p [prologue1, prologue2] q ∧
    ∀ j < k, ∀ q', ¬ Reads nibbles ((turned nibbles)^[j] o) [prologue1, prologue2] q'

/-- From one offset to another only prologues of other fields are passed. -/
inductive PassedOver (nibbles : List UInt8) : Nat → Nat → Prop where
  | refl (o : Nat) : PassedOver nibbles o o
  | step {o o' p q : Nat} : PassedOver nibbles o o' → NextPrologue nibbles o' p q →
      (fetchByte nibbles q).1 ≠ addrPrologue3 → (fetchByte nibbles q).1 ≠ dataPrologue3 →
      PassedOver nibbles o (turned nibbles q)

/-- **A sector that a data field holds**: every nibble of it is a code, the last
one is the checksum of the others, and the sector is what is decoded, whatever
was in its place. -/
structure HoldsSector (field : List UInt8) (image : UInt8 → UInt8) : Prop where
  /-- The nibbles are codes. -/
  codes : ∀ b ∈ field, b ∈ diskEncodingTable
  /-- The checksum matches. -/
  checksum : ∃ values, field.mapM decodeNibble = some values ∧
    (values.take sectorDataSize).foldl (· ^^^ ·) 0 = values[sectorDataSize]?.getD 0
  /-- The decoding. -/
  decoded : ∀ before, decodeSector62 field before = some image

/-- **Where a sector of the file came from**: an address field that names the
track, and a sector that is that of the file in the order asked for; and, as the
next field, a data field that holds it. -/
def FromField (sectorOrder : Nat → UInt8) (track : Nat) (nibbles : List UInt8) (fileSector : Nat)
    (image : UInt8 → UInt8) : Prop :=
  ∃ sector o o' o'' p q r field,
    sector < sectorsPerTrack ∧ (sectorOrder sector).toNat = fileSector ∧
    AddressAt nibbles track.toUInt8 sector.toUInt8 o o' ∧ PassedOver nibbles o' o'' ∧
    NextPrologue nibbles o'' p q ∧ DataAt nibbles field p r ∧ HoldsSector field image

/-! ## What is fetched -/

section

variable {nibbles : List UInt8}

theorem exists_fetchBytes (n o : Nat) : ∃ field o', fetchBytes nibbles n o = (field, o') ∧
    field.length = n ∧ Reads nibbles o field o' := by
  induction n generalizing o with
  | zero => exact ⟨[], o, rfl, rfl, rfl⟩
  | succ n ih =>
    obtain ⟨field, o', hfetch, hlength, hreads⟩ := ih (fetchByte nibbles o).2
    refine ⟨(fetchByte nibbles o).1 :: field, o', ?_, congrArg Nat.succ hlength, rfl, hreads⟩
    rw [fetchBytes]
    dsimp only
    rw [hfetch]

theorem reads_fetch4and4 (nibbles : List UInt8) (o : Nat) :
    ∃ high low, Reads nibbles o [high, low] (fetch4and4 nibbles o).2 ∧
      (fetch4and4 nibbles o).1 = decode4and4 high low :=
  ⟨_, _, ⟨rfl, rfl, rfl⟩, rfl⟩

theorem reads_epilogueFollows {o : Nat} (h : (epilogueFollows nibbles o).1 = true) :
    Reads nibbles o [epilogue1, epilogue2, epilogue3] (epilogueFollows nibbles o).2 := by
  unfold epilogueFollows at h ⊢
  simp only [Bool.and_eq_true, beq_iff_eq] at h
  exact ⟨h.1.1, h.1.2, h.2, rfl⟩

/-- **The marker that is found** is the next prologue. -/
theorem nextPrologue_of_findNextMarker {n o q : Nat} (h : findNextMarker nibbles n o = some q) :
    ∃ p, NextPrologue nibbles o p q := by
  induction n generalizing o with
  | zero => exact nomatch h
  | succ n ih =>
    rw [findNextMarker] at h
    dsimp only at h
    split at h
    next hhere =>
      refine ⟨o, 0, rfl, ⟨hhere.1, hhere.2, (Option.some.inj h).symm⟩, ?_⟩
      exact fun j hj => absurd hj (Nat.not_lt_zero j)
    next hnot =>
      obtain ⟨p, k, hp, hreads, hfirst⟩ := ih h
      refine ⟨p, k + 1, hp, hreads, fun j hj q' hearlier => ?_⟩
      cases j with
      | zero => exact hnot ⟨hearlier.1, hearlier.2.1⟩
      | succ j => exact hfirst j (Nat.lt_of_succ_lt_succ hj) q' hearlier

end

/-! ## A field that is decoded -/

/-- The last link of the chain. -/
theorem getLast_xorUnchain (s : UInt8) (source : List UInt8) :
    (xorUnchain s source).getLast?.getD s = source.foldl (· ^^^ ·) s := by
  induction source generalizing s with
  | nil => rfl
  | cons b source ih =>
    rw [xorUnchain, List.foldl_cons, ← ih, List.getLast?_cons]
    rfl

/-- A code is one of the table. -/
theorem mem_of_decodeNibble {b v : UInt8} (h : decodeNibble b = some v) :
    b ∈ diskEncodingTable := by
  have hall : (List.range 256).all fun n => (decodeNibble (UInt8.ofNat n)).isNone
      || diskEncodingTable.contains (UInt8.ofNat n) := by
    unfold decodeNibble
    rw [decodeTable_eq]
    decide +kernel
  have hb := List.all_eq_true.1 hall b.toNat (List.mem_range.2 b.toNat_lt)
  rw [UInt8.ofNat_toNat, h] at hb
  exact List.contains_iff_mem.1 hb

/-- **All of a sector is put together**: what was in its place does not matter. -/
theorem decodeLowBits_congr {base : UInt8 → UInt8} {lows : List UInt8} {i : Nat}
    (hlength : i + lows.length = 86) {image image' : UInt8 → UInt8}
    (himage : ∀ o : UInt8, o.toNat % 86 < i → image o = image' o) :
    decodeLowBits base lows (gcr62OffsetInit + UInt8.ofNat i) image =
      decodeLowBits base lows (gcr62OffsetInit + UInt8.ofNat i) image' := by
  induction lows generalizing i image image' with
  | nil =>
    funext o
    rw [List.length_nil, Nat.add_zero] at hlength
    exact himage o (by rw [hlength]; exact Nat.mod_lt _ (by decide))
  | cons low lows ih =>
    rw [List.length_cons] at hlength
    obtain ⟨hto0, hto1, hto2⟩ := toNat_offsets (i := i) (by omega) rfl
    have hnext : gcr62OffsetInit + UInt8.ofNat i + 1
        = gcr62OffsetInit + UInt8.ofNat (i + 1) := by
      rw [UInt8.ofNat_add, ← UInt8.add_assoc]
      rfl
    rw [decodeLowBits, decodeLowBits, offset_round, hnext]
    refine ih (by omega) fun o ho => ?_
    by_cases h2 : o = gcr62OffsetInit + UInt8.ofNat i - gcr62OffsetStep1 - gcr62OffsetStep2
    · rw [h2, Function.update_self, Function.update_self]
    rw [Function.update_of_ne h2, Function.update_of_ne h2]
    by_cases h1 : o = gcr62OffsetInit + UInt8.ofNat i - gcr62OffsetStep1
    · rw [h1, Function.update_self, Function.update_self]
    rw [Function.update_of_ne h1, Function.update_of_ne h1]
    -- the byte is one of an earlier round, unless it is the first of this one
    have hearlier : o ≠ gcr62OffsetInit + UInt8.ofNat i → o.toNat % 86 < i := by
      intro h0
      rw [← UInt8.toNat_inj.ne, hto0] at h0
      rw [← UInt8.toNat_inj, hto1] at h1
      rw [← UInt8.toNat_inj, hto2] at h2
      have hlt := o.toNat_lt
      omega
    by_cases h0 : o = gcr62OffsetInit + UInt8.ofNat i
    · split
      next => rw [h0, Function.update_self, Function.update_self]
      next hlt =>
        -- wrapped around, it is the third of an early round
        rw [ge_iff_le, UInt8.le_iff_toNat_le, hto0] at hlt
        have h172 : gcr62OffsetInit.toNat = 172 := rfl
        refine himage o ?_
        rw [h0, hto0]
        omega
    · split
      next => rw [Function.update_of_ne h0, Function.update_of_ne h0, himage o (hearlier h0)]
      next => exact himage o (hearlier h0)

/-- What is looked up nibble by nibble. -/
theorem of_mapM_decodeNibble {field values : List UInt8}
    (h : field.mapM decodeNibble = some values) :
    values.length = field.length ∧ ∀ b ∈ field, b ∈ diskEncodingTable := by
  induction field generalizing values with
  | nil =>
    obtain rfl := Option.some.inj h
    exact ⟨rfl, fun b hb => nomatch hb⟩
  | cons b field ih =>
    rw [List.mapM_cons] at h
    obtain ⟨v, hv, hrest⟩ := Option.bind_eq_some_iff.mp h
    obtain ⟨vs, hvs, heq⟩ := Option.bind_eq_some_iff.mp hrest
    obtain rfl := Option.some.inj heq
    obtain ⟨hlength, hcodes⟩ := ih hvs
    refine ⟨congrArg Nat.succ hlength, ?_⟩
    rw [List.forall_mem_cons]
    exact ⟨mem_of_decodeNibble hv, hcodes⟩

/-- **A field that is decoded** holds its sector. -/
theorem holdsSector_of_decodeSector62 {field : List UInt8} {before image : UInt8 → UInt8}
    (hlength : field.length = sectorWithChecksumSize)
    (h : decodeSector62 field before = some image) : HoldsSector field image := by
  cases hvalues : field.mapM decodeNibble with
  | none =>
    rw [decodeSector62, hvalues] at h
    cases h
  | some values =>
    obtain ⟨hcount, hcodes⟩ := of_mapM_decodeNibble hvalues
    have hlows : 0 + ((xorUnchain 0 (values.take sectorDataSize)).take gcr62Iterations).length
        = 86 := by
      rw [Nat.zero_add, List.length_take, length_xorUnchain, List.length_take, hcount, hlength]
      rfl
    have hbefore : ∀ before' : UInt8 → UInt8,
        decodeSector62 field before' = decodeSector62 field before := by
      intro before'
      rw [decodeSector62, decodeSector62, hvalues]
      dsimp only
      split
      next => rfl
      next => exact congrArg some (decodeLowBits_congr hlows fun o ho => absurd ho (Nat.not_lt_zero _))
    refine ⟨hcodes, ⟨values, hvalues, ?_⟩, fun before' => (hbefore before').trans h⟩
    rw [decodeSector62, hvalues] at h
    dsimp only at h
    split at h
    next => cases h
    next hsum =>
      rw [← getLast_xorUnchain]
      exact (of_not_not hsum).symm

/-! ## What the reader keeps to -/

/-- **What has been found**: the sector waited for is named by an address field
that was passed just now, and the sectors that are there came from fields. -/
structure Found (sectorOrder : Nat → UInt8) (track : Nat) (nibbles : List UInt8)
    (s : DenibblizeState) : Prop where
  /-- The sector that is waited for. -/
  current : ∀ sector ∈ s.currentSector, sector < sectorsPerTrack ∧
    ∃ o o', AddressAt nibbles track.toUInt8 sector.toUInt8 o o' ∧ PassedOver nibbles o' s.offset
  /-- The sectors that are there. -/
  decoded : ∀ f < sectorsPerTrack, s.decodedSectorsMask.toNat.testBit f = true →
    FromField sectorOrder track nibbles f (sectorAt s.staging f)

section Found

variable {sectorOrder : Nat → UInt8} {track : Nat} {nibbles : List UInt8} {s : DenibblizeState}
  {p q : Nat}

/-- A sector that is put in its place leaves the others alone. -/
theorem sectorAt_putSector (staging : Nat → UInt8) {f g : Nat} (image : UInt8 → UInt8) :
    sectorAt (putSector staging f image) g = if g = f then image else sectorAt staging g := by
  funext offset
  have hlt := offset.toNat_lt
  have hdiv : (g * sectorSize + offset.toNat) / sectorSize = g := by
    rw [sectorSize, Nat.mul_comm, Nat.mul_add_div (by omega), Nat.div_eq_of_lt hlt, Nat.add_zero]
  have hmod : (g * sectorSize + offset.toNat) % sectorSize = offset.toNat := by
    rw [sectorSize, Nat.mul_comm, Nat.mul_add_mod, Nat.mod_eq_of_lt hlt]
  rw [sectorAt, putSector, hdiv, hmod]
  split
  · show image (UInt8.ofNat offset.toNat) = image offset
    rw [UInt8.ofNat_toNat]
  · rfl

/-- **An address field** is passed. -/
theorem Found.readAddressField (h : Found sectorOrder track nibbles s)
    (hreads : Reads nibbles p [prologue1, prologue2] q)
    (htype : (fetchByte nibbles q).1 = addrPrologue3) :
    Found sectorOrder track nibbles (readAddressField track nibbles
      { s with offset := turned nibbles q }) := by
  refine ⟨fun sector hsector => ?_, h.decoded⟩
  unfold LinApple.Disk.readAddressField at hsector ⊢
  dsimp only at hsector ⊢
  obtain ⟨v, v', hv, hvolume⟩ := reads_fetch4and4 nibbles (turned nibbles q)
  obtain ⟨t, t', ht, htrack⟩ := reads_fetch4and4 nibbles (fetch4and4 nibbles (turned nibbles q)).2
  generalize fetch4and4 nibbles (turned nibbles q) = r1 at *
  obtain ⟨n, n', hn, hnumber⟩ := reads_fetch4and4 nibbles (fetch4and4 nibbles r1.2).2
  generalize fetch4and4 nibbles r1.2 = r2 at *
  obtain ⟨c, c', hc, hsum⟩ := reads_fetch4and4 nibbles (fetch4and4 nibbles r2.2).2
  generalize fetch4and4 nibbles r2.2 = r3 at *
  generalize fetch4and4 nibbles r3.2 = r4 at *
  have hepilogue := @reads_epilogueFollows nibbles r4.2
  generalize epilogueFollows nibbles r4.2 = r5 at *
  split at hsector
  next hholds =>
    simp only [Bool.and_eq_true, beq_iff_eq, decide_eq_true_eq] at hholds
    obtain ⟨⟨⟨hend, hchecksum⟩, hsame⟩, hlt⟩ := hholds
    obtain rfl := Option.some.inj hsector
    have hback : r3.1.toNat.toUInt8 = r3.1 := UInt8.ofNat_toNat
    rw [hback]
    refine ⟨UInt8.lt_iff_toNat_lt.mp hlt, p, r5.2, ⟨v, v', t, t', n, n', c, c', ?_, ?_, ?_, ?_⟩,
      .refl _⟩
    · have hfields := reads_append.mpr ⟨r1.2, hv, reads_append.mpr ⟨r2.2, ht,
        reads_append.mpr ⟨r3.2, hn, reads_append.mpr ⟨r4.2, hc, hepilogue hend⟩⟩⟩⟩
      exact (@reads_append _ [prologue1, prologue2] _ _ _).mpr ⟨q, hreads, htype, hfields⟩
    · rw [← htrack, hsame]
    · exact hnumber.symm
    · rw [← hsum, ← hvolume, ← hsame]
      exact hchecksum
  next => exact nomatch hsector

/-- **A data field** is passed: its sector is there now, if one was waited for. -/
theorem Found.readDataField (h : Found sectorOrder track nibbles s)
    (hnext : NextPrologue nibbles s.offset p q)
    (htype : (fetchByte nibbles q).1 = dataPrologue3) :
    Found sectorOrder track nibbles (readDataField sectorOrder nibbles
      { s with offset := turned nibbles q }) := by
  obtain ⟨field, o1, hfetch, hlength, hfield⟩ :=
    @exists_fetchBytes nibbles sectorWithChecksumSize (turned nibbles q)
  unfold LinApple.Disk.readDataField
  dsimp only
  rw [hfetch]
  have hepilogue := @reads_epilogueFollows nibbles o1
  dsimp only
  generalize epilogueFollows nibbles o1 = r2 at *
  refine ⟨fun sector hsector => absurd hsector (Option.not_mem_none sector), ?_⟩
  -- a data field counts only behind an address field, and is stored only if it decodes
  cases hcurrent : s.currentSector with
  | none => exact h.decoded
  | some sector =>
    obtain ⟨hsector, o, o', haddress, hpassed⟩ := h.current sector hcurrent
    dsimp only
    unfold takeDataField
    dsimp only
    split
    next => exact h.decoded
    next htaken =>
      rw [Bool.or_eq_true, not_or, Bool.not_eq_true', Bool.not_eq_false, decide_eq_true_iff,
        Nat.not_le] at htaken
      obtain ⟨hend, hfile⟩ := htaken
      split
      next => exact h.decoded
      next image himage =>
        intro f hf hbit
        dsimp only at hbit ⊢
        rw [testBit_mask_or _ hfile, Bool.or_eq_true, decide_eq_true_iff] at hbit
        rw [sectorAt_putSector]
        split
        -- the field just stored is the one this sector was found in; other sectors keep theirs
        next hsame =>
          have hreads := hnext
          obtain ⟨-, -, hprologue, -⟩ := hreads
          refine ⟨sector, o, o', s.offset, p, q, r2.2, field, hsector, hsame.symm, haddress, hpassed,
            hnext, ⟨hlength, ?_⟩, holdsSector_of_decodeSector62 hlength himage⟩
          have hdata := reads_append.mpr ⟨o1, hfield, hepilogue hend⟩
          exact (@reads_append _ [prologue1, prologue2] _ _ _).mpr ⟨q, hprologue, htype, hdata⟩
        next hother => exact h.decoded f hf (hbit.resolve_right fun heq => hother heq.symm)

/-- **A field is passed**, whatever it is. -/
theorem Found.readField (h : Found sectorOrder track nibbles s)
    (hnext : NextPrologue nibbles s.offset p q) :
    Found sectorOrder track nibbles (readField sectorOrder track nibbles { s with offset := q }) := by
  have hreads := hnext
  obtain ⟨-, -, hprologue, -⟩ := hreads
  unfold LinApple.Disk.readField
  dsimp only
  split
  next htype => exact h.readAddressField hprologue htype
  next haddress =>
    split
    next htype => exact h.readDataField hnext htype
    next hdata =>
      refine ⟨fun sector hsector => ?_, h.decoded⟩
      obtain ⟨hlt, o, o', hfield, hpassed⟩ := h.current sector hsector
      exact ⟨hlt, o, o', hfield, hpassed.step hnext haddress hdata⟩

/-- **Every round of the reader** keeps to what has been found. -/
theorem Found.denibblizeFields (h : Found sectorOrder track nibbles s) (n : Nat) :
    Found sectorOrder track nibbles (denibblizeFields sectorOrder track nibbles n s) := by
  induction n generalizing s with
  | zero => exact h
  | succ n ih =>
    rw [LinApple.Disk.denibblizeFields]
    split
    next => exact h
    next =>
      split
      next => exact h
      next q hmarker =>
        obtain ⟨p, hnext⟩ := nextPrologue_of_findNextMarker hmarker
        exact ih (h.readField hnext)

end Found

/-! ## What is taken over -/

/-- The sectors of a track that was copied to the caller. -/
theorem sectorAt_pokes (sectorsOut staging : Nat → UInt8) {f : Nat} (hf : f < sectorsPerTrack) :
    sectorAt (pokes sectorsOut 0 (peeks staging 0 trackImageSize)) f = sectorAt staging f := by
  funext offset
  have hlt := offset.toNat_lt
  have hin : f * sectorSize + offset.toNat < (peeks staging 0 trackImageSize).length := by
    rw [length_peeks]
    show f * 256 + offset.toNat < 16 * 256
    rw [sectorsPerTrack] at hf
    omega
  have hpoked := @pokes_add _ sectorsOut 0 (peeks staging 0 trackImageSize) _ hin
  rw [Nat.zero_add, getElem_peeks, Nat.zero_add] at hpoked
  exact hpoked

/-- Every sector of a track that is taken over came from its fields, and otherwise
the caller's sectors are left as they were. -/
theorem denibblizeTrack_all_or_nothing (sectorOrder : Nat → UInt8) (track : Nat) (nibbles : List UInt8)
    (sectorsOut : Nat → UInt8) :
    ((diskEncodingDenibblizeTrack sectorOrder track nibbles sectorsOut).1 = .none →
      ∀ f < sectorsPerTrack, FromField sectorOrder track nibbles f
        (sectorAt (diskEncodingDenibblizeTrack sectorOrder track nibbles sectorsOut).2 f)) ∧
    ((diskEncodingDenibblizeTrack sectorOrder track nibbles sectorsOut).1 ≠ .none →
      (diskEncodingDenibblizeTrack sectorOrder track nibbles sectorsOut).2 = sectorsOut) := by
  have hstart : Found sectorOrder track nibbles ⟨0, none, 0, false, fun _ => 0⟩ := by
    refine ⟨fun sector hsector => absurd hsector (Option.not_mem_none sector), fun f hf hbit => ?_⟩
    have hzero : (0 : UInt16).toNat.testBit f = false := Nat.zero_testBit f
    exact absurd hbit (by rw [hzero]; exact Bool.false_ne_true)
  have hfound := hstart.denibblizeFields maxGcrMarkersPerTrack
  unfold diskEncodingDenibblizeTrack
  dsimp only
  generalize denibblizeFields sectorOrder track nibbles maxGcrMarkersPerTrack
    ⟨0, none, 0, false, fun _ => 0⟩ = s at *
  split
  next => exact ⟨nofun, fun _ => rfl⟩
  next =>
    split
    next => exact ⟨nofun, fun _ => rfl⟩
    next hall =>
      rw [Bool.or_eq_true, not_or, decide_eq_true_iff, not_not] at hall
      refine ⟨fun _ f hf => ?_, fun hne => absurd rfl hne⟩
      have hbit : s.decodedSectorsMask.toNat.testBit f = true := by
        rw [hall.2]
        show (2 ^ 16 - 1).testBit f = true
        rw [Nat.testBit_two_pow_sub_one, decide_eq_true_iff]
        exact hf
      dsimp only
      rw [sectorAt_pokes _ _ hf]
      exact hfound.decoded f hf hbit

/-! ## The image file -/

/-- **`SectorDiskImage`**, with the bytes of its file. -/
structure SectorDiskImage where
  /-- `file` -/
  file : Nat → UInt8
  /-- `data_offset` -/
  dataOffset : Nat
  /-- `track_count` -/
  trackCount : Nat
  /-- `host_read_only` -/
  hostReadOnly : Bool
  /-- `order` -/
  order : DiskSectorOrder
  /-- `sectors` -/
  sectors : Nat → UInt8

/-- **`sector_disk_image_write_track_bits`**, over what the host makes of writing
bytes at an offset of a file; 6656 is `nibbles_per_track`. -/
def sectorDiskImageWriteTrackBits
    (store : (Nat → UInt8) → Nat → List UInt8 → DiskError × (Nat → UInt8))
    (image : SectorDiskImage) (quarterTrack : Nat) (bits : Nat → UInt8) (bitCount : Nat) :
    DiskError × SectorDiskImage :=
  if image.hostReadOnly then (.writeProtected, image)
  else
    let track := quarterTrack / 4
    if track ≥ image.trackCount then (.none, image)
    else
      let (decoded, nibbles) := diskEncodingBitsToNibbles bits bitCount 6656
      if decoded ≠ .none then (decoded, image)
      else
        let (decodedTrack, sectors) := diskEncodingDenibblizeTrack
          (diskEncodingSectorOrder image.order) track nibbles image.sectors
        let image := { image with sectors }
        if decodedTrack ≠ .none then (decodedTrack, image)
        else
          let (stored, file) := store image.file (image.dataOffset + track * trackImageSize)
            (peeks image.sectors 0 trackImageSize)
          (stored, { image with file })

/-- **Denibblizing is sound and takes over all or nothing.** A track is taken over
only if each of its sixteen sectors came from its fields; otherwise the caller's
sectors are left as they were, and a track that an image is to be written with
leaves its file alone, and its sectors too. -/
theorem denibblizeTrack_sound (sectorOrder : Nat → UInt8) (track : Nat) (nibbles : List UInt8)
    (sectorsOut : Nat → UInt8) :
    ((diskEncodingDenibblizeTrack sectorOrder track nibbles sectorsOut).1 = .none →
      ∀ f < sectorsPerTrack, FromField sectorOrder track nibbles f
        (sectorAt (diskEncodingDenibblizeTrack sectorOrder track nibbles sectorsOut).2 f)) ∧
    ((diskEncodingDenibblizeTrack sectorOrder track nibbles sectorsOut).1 ≠ .none →
      (diskEncodingDenibblizeTrack sectorOrder track nibbles sectorsOut).2 = sectorsOut) ∧
    ∀ (store : (Nat → UInt8) → Nat → List UInt8 → DiskError × (Nat → UInt8))
      (image : SectorDiskImage) (quarterTrack : Nat) (bits : Nat → UInt8) (bitCount : Nat),
      (diskEncodingDenibblizeTrack (diskEncodingSectorOrder image.order) (quarterTrack / 4)
        (diskEncodingBitsToNibbles bits bitCount 6656).2 image.sectors).1 ≠ .none →
      (sectorDiskImageWriteTrackBits store image quarterTrack bits bitCount).2 = image := by
  obtain ⟨hall, hnothing⟩ := denibblizeTrack_all_or_nothing sectorOrder track nibbles sectorsOut
  refine ⟨hall, hnothing, fun store image quarterTrack bits bitCount hrefused => ?_⟩
  have hkept := (denibblizeTrack_all_or_nothing (diskEncodingSectorOrder image.order)
    (quarterTrack / 4) (diskEncodingBitsToNibbles bits bitCount 6656).2 image.sectors).2 hrefused
  unfold sectorDiskImageWriteTrackBits
  split
  next => rfl
  next =>
    dsimp only
    split
    next => rfl
    next =>
      split
      next => rfl
      next =>
        rw [hkept]

end LinApple.Disk
