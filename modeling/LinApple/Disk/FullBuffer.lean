import LinApple.Disk.Cells

/-!
# Cells laid over what a buffer held

Cells are laid down by setting pulses, so the buffer has to be blanked first. The number of bytes
to blank is reckoned in 32 bits, and is none at all for the last few counts of cells there are:
there, pulses that the buffer held before stay. `roundTrips_iff` says for which nibbles that does
no harm.

The round trip is one through a buffer that somebody else has used. Nibbles are written out as
cells, a self-sync nibble with two blank cells behind it, and the cells are read back by looking
for the next pulse; the list must come back, and the count of cells must be eight for each nibble
and two more for a self-sync one. With a clean buffer that is so for every list, and this is shown
first, without any arithmetic in 32 bits: a nibble begins with a pulse, and blank cells in front
of it are passed over.

What is left is what the caller's buffer held. The left side of the equivalence asks for every
contents, since the function is to work for a buffer that was used before. The right side is a
bound on the count of cells, and above it a condition on the nibbles: stale pulses cannot be seen
where every cell of the new ones is a pulse as well, and there must be no blank cell that is read
over.

The limits of the buffers are as large as they can be given. They are numbers of 32 bits, and no
smaller bound is assumed; a caller with a track's worth of cells is far from where it goes wrong,
and the theorem says how far.
-/

namespace LinApple.Disk

open ByteMap

/-! ## How many cells -/

/-- Which nibbles are self-sync. -/
def selfSyncs (nibbles : List UInt8) (syncMask : Option (List UInt8)) : List Bool :=
  (walkSyncRuns nibbles syncMask).map Prod.snd

/-- **The number of cells**: eight for a data nibble, ten for a self-sync one. -/
def trackCells (nibbles : List UInt8) (syncMask : Option (List UInt8)) : Nat :=
  8 * (selfSyncs nibbles syncMask).count false + 10 * (selfSyncs nibbles syncMask).count true

theorem sum_cellCount (emitted : List (UInt8 × Bool)) :
    (emitted.map fun e => cellCount e.2).sum =
      8 * (emitted.map Prod.snd).count false + 10 * (emitted.map Prod.snd).count true := by
  induction emitted with
  | nil => rfl
  | cons e emitted ih =>
    rw [List.map_cons, List.sum_cons, List.map_cons, List.count_cons, List.count_cons, ih]
    cases e.2 with
    | false =>
      simp only [cellCount, Bool.false_eq_true, if_false, beq_self_eq_true, if_true, beq_iff_eq,
        Nat.add_zero]
      omega
    | true =>
      simp only [cellCount, if_true, beq_self_eq_true, reduceCtorEq, beq_iff_eq, if_false,
        Nat.add_zero]
      omega

/-- Every nibble is emitted. -/
theorem map_fst_walkSyncRuns {nibbles : List UInt8} {syncMask : Option (List UInt8)}
    (hmask : ∀ m ∈ syncMask, m.length = nibbles.length) :
    (walkSyncRuns nibbles syncMask).map Prod.fst = nibbles := by
  have hruns : ∀ (first : UInt8) (l : List UInt8), (walkRuns first l).map Prod.fst = l := by
    intro first l
    induction l with
    | nil => rfl
    | cons n l ih =>
      rw [walkRuns]
      split
      · rw [List.map_cons, ih]
      · rename_i hsync
        rw [List.map_cons, ih, of_not_not hsync]
  cases syncMask with
  | none => exact hruns _ _
  | some mask =>
    have hlength := hmask mask rfl
    rw [walkSyncRuns, List.map_zipWith]
    exact List.ext_getElem (by simp [hlength]) fun i _ _ => by simp

/-! ## Laying cells over others -/

/-- A pulse among cells from a cell on. -/
def pulseAt (cells : List Bool) (cell i : Nat) : Bool :=
  decide (cell ≤ i) && cells[i - cell]?.getD false

theorem pulseAt_append (xs ys : List Bool) (cell i : Nat) :
    pulseAt (xs ++ ys) cell i = (pulseAt xs cell i || pulseAt ys (cell + xs.length) i) := by
  unfold pulseAt
  by_cases hbefore : cell ≤ i
  · by_cases hin : i - cell < xs.length
    · have hnot : ¬ cell + xs.length ≤ i := by omega
      rw [List.getElem?_append_left hin, decide_eq_false hnot, Bool.false_and, Bool.or_false]
    · have hbehind : cell + xs.length ≤ i := by omega
      have hnone : xs[i - cell]? = none := List.getElem?_eq_none (Nat.not_lt.mp hin)
      rw [List.getElem?_append_right (Nat.not_lt.mp hin), hnone, decide_eq_true hbefore,
        decide_eq_true hbehind, Nat.sub_sub]
      rfl
  · have hnot : ¬ cell + xs.length ≤ i := by omega
    rw [decide_eq_false hbefore, decide_eq_false hnot, Bool.false_and, Bool.false_and,
      Bool.false_and, Bool.or_false]

theorem pulseAt_blank (n cell i : Nat) : pulseAt (List.replicate n false) cell i = false := by
  unfold pulseAt
  rw [List.getElem?_replicate]
  split
  · exact Bool.and_false _
  · exact Bool.and_false _

theorem cellAt_setCell_or (bits : Nat → UInt8) (cell i : Nat) :
    cellAt (setCell bits cell) i = (cellAt bits i || decide (i = cell)) := by
  rw [cellAt_setCell]
  by_cases h : i = cell
  · rw [h, Function.update_self, decide_eq_true rfl, Bool.or_true]
  · rw [Function.update_of_ne h, decide_eq_false h, Bool.or_false]

/-- A byte laid over what there is. -/
theorem cellAt_layByte_or (value : UInt8) {masks : List UInt8} {cell : Nat} (bits : Nat → UInt8)
    (hwrap : cell + masks.length < 2 ^ 32) (i : Nat) :
    cellAt (layByte value masks cell bits) i =
      (cellAt bits i || pulseAt (masks.map fun mask => value &&& mask != 0) cell i) := by
  induction masks generalizing cell bits with
  | nil => simp [layByte, pulseAt]
  | cons mask masks ih =>
    rw [List.length_cons] at hwrap
    have hone : ∀ b : Bool, pulseAt [b] cell i = (b && decide (i = cell)) := by
      intro b
      unfold pulseAt
      by_cases h : i = cell
      · simp [h]
      · by_cases hle : cell ≤ i
        · have hnone : [b][i - cell]? = none := List.getElem?_eq_none (by simp; omega)
          simp [h, hnone]
        · simp [h, hle]
    have hsplit : (mask :: masks).map (fun mask => value &&& mask != 0) =
        [value &&& mask != 0] ++ masks.map fun mask => value &&& mask != 0 := rfl
    rw [layByte, Nat.mod_eq_of_lt (by omega), ih _ (by omega), hsplit, pulseAt_append, hone,
      ← Bool.or_assoc]
    congr 1
    cases value &&& mask != 0 with
    | false => rw [Bool.false_and, Bool.or_false]; rfl
    | true =>
      rw [Bool.true_and]
      exact cellAt_setCell_or bits cell i

/-- **Nibbles laid over what there is** keep every pulse and add their own. -/
theorem cellAt_layCells_or {emitted : List (UInt8 × Bool)} {cell : Nat} (bits : Nat → UInt8)
    (hwrap : cell + (emitted.map fun e => cellCount e.2).sum < 2 ^ 32) (i : Nat) :
    cellAt (layCells emitted cell bits) i =
      (cellAt bits i || pulseAt (emitted.flatMap emittedCells) cell i) := by
  induction emitted generalizing cell bits with
  | nil => simp [layCells, pulseAt]
  | cons e emitted ih =>
    rw [List.map_cons, List.sum_cons] at hwrap
    have hcount : 8 ≤ cellCount e.2 := by
      rw [cellCount]
      split <;> decide
    have hmasks : cellMasks.length = 8 := rfl
    show cellAt (layCells emitted ((cell + cellCount e.2) % 2 ^ 32) _) i = _
    rw [Nat.mod_eq_of_lt (by omega), ih _ (by omega), cellAt_layByte_or _ _ (by omega),
      List.flatMap_cons, pulseAt_append, length_emittedCells, emittedCells, pulseAt_append,
      pulseAt_blank, Bool.or_false, Bool.or_assoc]
    rfl

/-! ## Reading runs of pulses -/

/-- A run of pulses is read as nibbles of nothing but pulses. -/
theorem readNibbles_pulses (room n : Nat) :
    ∀ v ∈ (readNibbles room (List.replicate n true)).2, v = 0xFF := by
  induction n using Nat.strongRecOn generalizing room with
  | ind n ih =>
    by_cases hshort : n < 8
    · rw [readNibbles_short room (by rwa [List.length_replicate])]
      exact fun v hv => nomatch hv
    · obtain ⟨k, rfl⟩ := Nat.exists_eq_add_of_le (Nat.not_lt.mp hshort)
      have hcells : List.replicate (8 + k) true = byteCells 0xFF ++ List.replicate k true :=
        List.replicate_append_replicate.symm
      cases room with
      | zero =>
        rw [hcells]
        exact fun v hv => nomatch hv
      | succ room =>
        rw [hcells, readNibbles_byteCells room (by decide)]
        intro v hv
        obtain rfl | hv := List.mem_cons.mp hv
        · rfl
        · exact ih k (by omega) room v hv

/-! ## When the round trip works -/

/-- **The round trip**: the nibbles are laid down as so many cells, and read back
the same. -/
def RoundTrips (nibbles : List UInt8) (syncMask : Option (List UInt8)) (maxBits maxNibbles : Nat)
    (bits : Nat → UInt8) : Prop :=
  ∃ bits', diskEncodingNibblesToBits nibbles syncMask bits maxBits
      = .ok (bits', trackCells nibbles syncMask)
    ∧ diskEncodingBitsToNibbles bits' (trackCells nibbles syncMask) maxNibbles = (.none, nibbles)

section

variable {nibbles : List UInt8} {syncMask : Option (List UInt8)} {maxBits maxNibbles : Nat}

/-- What the buffer holds before any pulse is set. -/
def blanked (bits : Nat → UInt8) (totalBits : Nat) : Nat → UInt8 :=
  pokes bits 0 (List.replicate ((totalBits + 7) % 2 ^ 32 / 8) 0)

theorem nibblesToBits_eq (hmask : ∀ m ∈ syncMask, m.length = nibbles.length)
    (hmax : maxBits < 2 ^ 32) (hfits : trackCells nibbles syncMask ≤ maxBits)
    (bits : Nat → UInt8) :
    diskEncodingNibblesToBits nibbles syncMask bits maxBits =
      .ok (layCells (walkSyncRuns nibbles syncMask) 0
        (blanked bits (trackCells nibbles syncMask)), trackCells nibbles syncMask) := by
  have htotal : ((walkSyncRuns nibbles syncMask).map fun e => cellCount e.2).sum =
      trackCells nibbles syncMask := sum_cellCount _
  have hcells := length_le_cellCount (walkSyncRuns nibbles syncMask)
  rw [htotal, ← List.length_map Prod.fst, map_fst_walkSyncRuns hmask] at hcells
  rw [diskEncodingNibblesToBits, if_neg (by omega)]
  dsimp only
  rw [htotal, Nat.mod_eq_of_lt (by omega), if_neg (by omega)]
  rfl

/-- **The cells that are read back**: those that were laid down, over those there
were. -/
theorem bitsToNibbles_eq (hmask : ∀ m ∈ syncMask, m.length = nibbles.length)
    (hmax : maxBits < 2 ^ 32) (hfits : trackCells nibbles syncMask ≤ maxBits)
    (bits : Nat → UInt8) :
    RoundTrips nibbles syncMask maxBits maxNibbles bits ↔
      readNibbles maxNibbles (peeks (fun i =>
        cellAt (blanked bits (trackCells nibbles syncMask)) i ||
          pulseAt ((walkSyncRuns nibbles syncMask).flatMap emittedCells) 0 i) 0
        (trackCells nibbles syncMask)) = (.none, nibbles) := by
  have htotal : ((walkSyncRuns nibbles syncMask).map fun e => cellCount e.2).sum =
      trackCells nibbles syncMask := sum_cellCount _
  have hlaid := nibblesToBits_eq hmask hmax hfits bits
  have hcells : cellAt (layCells (walkSyncRuns nibbles syncMask) 0
      (blanked bits (trackCells nibbles syncMask))) = fun i =>
        cellAt (blanked bits (trackCells nibbles syncMask)) i ||
          pulseAt ((walkSyncRuns nibbles syncMask).flatMap emittedCells) 0 i := by
    funext i
    exact cellAt_layCells_or _ (by rw [htotal]; omega) i
  constructor
  · rintro ⟨bits', hok, hread⟩
    rw [hlaid] at hok
    obtain ⟨rfl, -⟩ := Prod.mk.inj (Except.ok.inj hok)
    rwa [diskEncodingBitsToNibbles, hcells] at hread
  · intro hread
    refine ⟨_, hlaid, ?_⟩
    rw [diskEncodingBitsToNibbles, hcells, hread]

/-- Up to the last count whose bytes can be reckoned, the buffer is blanked. -/
theorem roundTrips_of_lt (hmask : ∀ m ∈ syncMask, m.length = nibbles.length)
    (hhigh : ∀ v ∈ nibbles, v &&& 0x80 ≠ 0) (hfits : trackCells nibbles syncMask ≤ maxBits)
    (hnibbles : nibbles.length ≤ maxNibbles) (hwrap : trackCells nibbles syncMask + 7 < 2 ^ 32)
    (bits : Nat → UInt8) : RoundTrips nibbles syncMask maxBits maxNibbles bits :=
  bitsToNibbles_nibblesToBits bits (map_fst_walkSyncRuns hmask) hhigh (sum_cellCount _) hfits
    hwrap hnibbles

/-- With blank cells at the end only, the nibbles' own cells come first. -/
theorem flatMap_emittedCells {emitted : List (UInt8 × Bool)}
    (hsyncs : ∀ b ∈ (emitted.map Prod.snd).dropLast, b = false) :
    ∃ k ≤ 2, emitted.flatMap emittedCells =
      (emitted.map Prod.fst).flatMap byteCells ++ List.replicate k false := by
  induction emitted with
  | nil => exact ⟨0, Nat.zero_le 2, rfl⟩
  | cons e emitted ih =>
    cases emitted with
    | nil =>
      have hcount : cellCount e.2 - 8 ≤ 2 := by
        rw [cellCount]
        split <;> decide
      refine ⟨cellCount e.2 - 8, hcount, ?_⟩
      simp only [List.flatMap_cons, List.flatMap_nil, List.append_nil, List.map_cons, List.map_nil,
        emittedCells]
    | cons e' emitted =>
      rw [List.map_cons, List.map_cons, List.dropLast_cons_cons, List.forall_mem_cons] at hsyncs
      obtain ⟨k, hk, hcells⟩ := ih hsyncs.2
      refine ⟨k, hk, ?_⟩
      rw [List.flatMap_cons, hcells, emittedCells, hsyncs.1, List.map_cons, List.flatMap_cons,
        List.append_assoc]
      rfl

/-- The cells of pulses alone. -/
theorem flatMap_byteCells_pulses {nibbles : List UInt8} (hpulses : ∀ v ∈ nibbles, v = 0xFF) :
    nibbles.flatMap byteCells = List.replicate (8 * nibbles.length) true := by
  induction nibbles with
  | nil => rfl
  | cons v nibbles ih =>
    rw [List.forall_mem_cons] at hpulses
    rw [List.flatMap_cons, ih hpulses.2, hpulses.1, List.length_cons, Nat.mul_succ, Nat.add_comm]
    show List.replicate 8 true ++ List.replicate (8 * nibbles.length) true = _
    exact List.replicate_append_replicate

/-- Where every cell but the last two is laid down as a pulse, what the buffer
held does no harm. -/
theorem roundTrips_of_pulses (hmask : ∀ m ∈ syncMask, m.length = nibbles.length)
    (hmax : maxBits < 2 ^ 32) (hfits : trackCells nibbles syncMask ≤ maxBits)
    (hnibbles : nibbles.length ≤ maxNibbles) (hpulses : ∀ v ∈ nibbles, v = 0xFF)
    (hsyncs : ∀ b ∈ (selfSyncs nibbles syncMask).dropLast, b = false) (bits : Nat → UInt8) :
    RoundTrips nibbles syncMask maxBits maxNibbles bits := by
  obtain ⟨k, hk, hcells⟩ := flatMap_emittedCells hsyncs
  rw [map_fst_walkSyncRuns hmask] at hcells
  have hrun := flatMap_byteCells_pulses hpulses
  have htotal : trackCells nibbles syncMask = 8 * nibbles.length + k := by
    have hlength := congrArg List.length hcells
    rw [List.length_flatMap, hrun, List.length_append, List.length_replicate,
      List.length_replicate] at hlength
    simp only [length_emittedCells] at hlength
    exact (sum_cellCount _).symm.trans hlength
  rw [bitsToNibbles_eq hmask hmax hfits, hcells, htotal, ← peeks_append]
  have hfront : peeks (fun i =>
      cellAt (blanked bits (8 * nibbles.length + k)) i ||
        pulseAt (nibbles.flatMap byteCells ++ List.replicate k false) 0 i) 0
      (8 * nibbles.length) = nibbles.flatMap byteCells := by
    rw [hrun]
    refine List.ext_getElem (by simp) fun i hi _ => ?_
    rw [length_peeks] at hi
    rw [getElem_peeks, List.getElem_replicate, Nat.zero_add, pulseAt, Nat.sub_zero,
      List.getElem?_append_left (by rwa [List.length_replicate]), List.getElem?_replicate,
      if_pos hi]
    simp
  have hroom : maxNibbles = nibbles.length + (maxNibbles - nibbles.length) := by omega
  rw [hfront, hroom, readNibbles_flatMap (fun v hv => by rw [hpulses v hv]; decide),
    readNibbles_short _ (by rw [length_peeks]; omega), List.append_nil]

/-- A nibble with a blank cell does not come back from a buffer full of pulses. -/
theorem not_roundTrips_of_mem (hmask : ∀ m ∈ syncMask, m.length = nibbles.length)
    (hmax : maxBits < 2 ^ 32) (hfits : trackCells nibbles syncMask ≤ maxBits)
    (hwrap : 2 ^ 32 ≤ trackCells nibbles syncMask + 7) {v : UInt8} (hv : v ∈ nibbles)
    (hblank : v ≠ 0xFF) :
    ¬ RoundTrips nibbles syncMask maxBits maxNibbles fun _ => 0xFF := by
  have hnone : (trackCells nibbles syncMask + 7) % 2 ^ 32 / 8 = 0 := by omega
  have hfull : ∀ i, cellAt (fun _ => 0xFF) i = true := by
    intro i
    have hbit : ∀ k < 8, (0xFF : UInt8).toNat.testBit (7 - k) = true := by decide
    rw [cellAt_eq]
    exact hbit _ (Nat.mod_lt _ (by decide))
  rw [bitsToNibbles_eq hmask hmax hfits, blanked, hnone, List.replicate_zero, pokes_nil]
  intro hread
  have hcells : peeks (fun i => cellAt (fun _ => 0xFF) i ||
      pulseAt ((walkSyncRuns nibbles syncMask).flatMap emittedCells) 0 i) 0
      (trackCells nibbles syncMask) = List.replicate (trackCells nibbles syncMask) true := by
    simp only [hfull, Bool.true_or]
    exact List.eq_replicate_iff.mpr ⟨length_peeks _ _ _, by simp [peeks]⟩
  have hpulses := readNibbles_pulses maxNibbles (trackCells nibbles syncMask)
  rw [hcells] at hread
  rw [hread] at hpulses
  exact hblank (hpulses v hv)

/-- Cells with one pulse more. -/
theorem peeks_or_pulse (cells : List Bool) (p : Nat) :
    peeks (fun i => decide (i = p) || pulseAt cells 0 i) 0 cells.length = cells.set p true := by
  refine List.ext_getElem (by simp) fun i hi hset => ?_
  rw [length_peeks] at hi
  rw [getElem_peeks, Nat.zero_add, pulseAt, Nat.sub_zero, List.getElem?_eq_getElem hi,
    List.getElem_set]
  by_cases h : i = p
  · simp [h]
  · simp [h, Ne.symm h]

/-- The first mark of a list, with one item at least behind it. -/
theorem exists_first_true {l : List Bool} (h : true ∈ l.dropLast) :
    ∃ k next rest, l = List.replicate k false ++ true :: next :: rest := by
  obtain ⟨before, behind, hsplit, hfirst⟩ := List.eq_append_cons_of_mem h
  have hbefore : before = List.replicate before.length false :=
    List.eq_replicate_iff.mpr ⟨rfl, fun b hb => by
      rw [← Bool.not_eq_true]
      rintro rfl
      exact hfirst hb⟩
  have hne : l ≠ [] := by
    rintro rfl
    exact nomatch h
  obtain ⟨next, rest, hnext⟩ : ∃ next rest, behind ++ [l.getLast hne] = next :: rest :=
    List.exists_cons_of_ne_nil (by simp)
  refine ⟨before.length, next, rest, ?_⟩
  rw [← hbefore, ← hnext, ← List.cons_append, ← List.append_assoc, ← hsplit]
  exact (List.dropLast_concat_getLast hne).symm

/-- The cells of pulses up to the first self-sync nibble, and of the nibble behind
it. -/
theorem flatMap_first_sync (k : Nat) (next : Bool) (rest : List Bool) :
    (List.replicate k false ++ true :: next :: rest).flatMap
        (fun b => emittedCells (0xFF, b)) =
      (List.replicate (k + 1) 0xFF).flatMap byteCells ++
        (false :: false :: (byteCells 0xFF ++ (List.replicate (cellCount next - 8) false ++
          rest.flatMap fun b => emittedCells (0xFF, b)))) := by
  have hdata : (List.replicate k false).flatMap (fun b => emittedCells (0xFF, b)) =
      (List.replicate k 0xFF).flatMap byteCells := by
    rw [List.flatMap_def, List.map_replicate, List.flatMap_def, List.map_replicate]
    rfl
  rw [List.flatMap_append, hdata, List.replicate_succ', List.flatMap_append, List.append_assoc,
    List.flatMap_cons, List.flatMap_cons]
  refine congrArg (_ ++ ·) ?_
  simp only [List.flatMap_cons, List.flatMap_nil, List.append_nil, emittedCells,
    List.append_assoc]
  rfl

/-- A pulse that was left in the blank cells behind a self-sync nibble is read as
the start of the next one. -/
theorem not_roundTrips_of_sync (hmask : ∀ m ∈ syncMask, m.length = nibbles.length)
    (hmax : maxBits < 2 ^ 32) (hfits : trackCells nibbles syncMask ≤ maxBits)
    (hnibbles : nibbles.length ≤ maxNibbles)
    (hwrap : 2 ^ 32 ≤ trackCells nibbles syncMask + 7) (hpulses : ∀ v ∈ nibbles, v = 0xFF)
    (hsync : true ∈ (selfSyncs nibbles syncMask).dropLast) :
    ∃ bits, ¬ RoundTrips nibbles syncMask maxBits maxNibbles bits := by
  have hnone : (trackCells nibbles syncMask + 7) % 2 ^ 32 / 8 = 0 := by omega
  have hfst := map_fst_walkSyncRuns hmask
  obtain ⟨k, next, rest, hsyncs⟩ := exists_first_true hsync
  have hemitted : walkSyncRuns nibbles syncMask =
      (selfSyncs nibbles syncMask).map fun b => (0xFF, b) := by
    rw [selfSyncs, List.map_map]
    refine (List.map_id _).symm.trans (List.map_congr_left fun e he => ?_)
    have hvalue : e.1 = 0xFF := hpulses e.1 (hfst ▸ List.mem_map_of_mem he)
    exact Prod.ext hvalue rfl
  have hlength : k + 2 ≤ nibbles.length := by
    rw [← hfst, hemitted, hsyncs]
    simp
  have hcells : (walkSyncRuns nibbles syncMask).flatMap emittedCells =
      (List.replicate (k + 1) 0xFF).flatMap byteCells ++
        (false :: false :: (byteCells 0xFF ++ (List.replicate (cellCount next - 8) false ++
          rest.flatMap fun b => emittedCells (0xFF, b)))) := by
    rw [hemitted, List.flatMap_map, hsyncs, flatMap_first_sync]
  have hrun := @flatMap_byteCells_pulses (List.replicate (k + 1) 0xFF)
    fun v hv => List.eq_of_mem_replicate hv
  rw [List.length_replicate] at hrun
  have hcount : ((walkSyncRuns nibbles syncMask).flatMap emittedCells).length =
      trackCells nibbles syncMask := by
    rw [List.length_flatMap]
    simp only [length_emittedCells]
    exact sum_cellCount _
  -- the wrapped byte count clears nothing, so a pulse left in the buffer stays: put it at the first
  -- cell of the gap behind the first sync nibble, where the reader takes it for a nibble's start
  have hjunk : ∀ i, cellAt (setCell (fun _ => 0) (8 * (k + 1))) i = decide (i = 8 * (k + 1)) := by
    intro i
    have hzero : cellAt (fun _ => 0) i = false := by
      rw [cellAt_eq]
      exact Nat.zero_testBit _
    rw [cellAt_setCell_or, hzero, Bool.false_or]
  have hlate : (false :: false :: (byteCells 0xFF ++ (List.replicate (cellCount next - 8) false ++
        rest.flatMap fun b => emittedCells (0xFF, b)))).set 0 true =
      byteCells 0xBF ++ (true :: true :: (List.replicate (cellCount next - 8) false ++
        rest.flatMap fun b => emittedCells (0xFF, b))) := rfl
  have hread : ((walkSyncRuns nibbles syncMask).flatMap emittedCells).set (8 * (k + 1)) true =
      (List.replicate (k + 1) 0xFF).flatMap byteCells ++
        (byteCells 0xBF ++ (true :: true :: (List.replicate (cellCount next - 8) false ++
          rest.flatMap fun b => emittedCells (0xFF, b)))) := by
    rw [hcells, List.set_append_right _ _ (by rw [hrun, List.length_replicate]), hrun,
      List.length_replicate, Nat.sub_self, hlate]
  obtain ⟨room, rfl⟩ : ∃ room, maxNibbles =
      (List.replicate (k + 1) (0xFF : UInt8)).length + (room + 1) :=
    ⟨maxNibbles - (k + 2), by rw [List.length_replicate]; omega⟩
  refine ⟨setCell (fun _ => 0) (8 * (k + 1)), ?_⟩
  rw [bitsToNibbles_eq hmask hmax hfits, blanked, hnone, List.replicate_zero, pokes_nil]
  simp only [hjunk]
  rw [← hcount, peeks_or_pulse, hread,
    readNibbles_flatMap (fun v hv => by rw [List.eq_of_mem_replicate hv]; decide),
    readNibbles_byteCells room (by decide)]
  intro hback
  have hlist := congrArg Prod.snd hback
  dsimp only at hlist
  -- the reader then returns `$BF`, and every nibble of the track was `$FF`
  have hmem : (0xBF : UInt8) ∈ nibbles := by
    rw [← hlist]
    exact List.mem_append_right _ List.mem_cons_self
  exact absurd (hpulses _ hmem) (by decide)

/-- **The round trip works, whatever the buffer held**, up to the last count of
cells whose bytes can be reckoned; and from there on for pulses alone, with no
blank cell but at the end. -/
theorem roundTrips_iff (hmask : ∀ m ∈ syncMask, m.length = nibbles.length)
    (hhigh : ∀ v ∈ nibbles, v &&& 0x80 ≠ 0) (hmax : maxBits < 2 ^ 32)
    (hfits : trackCells nibbles syncMask ≤ maxBits) (hnibbles : nibbles.length ≤ maxNibbles) :
    (∀ bits, RoundTrips nibbles syncMask maxBits maxNibbles bits) ↔
      trackCells nibbles syncMask + 7 < 2 ^ 32 ∨
        (∀ v ∈ nibbles, v = 0xFF) ∧
          ∀ b ∈ (selfSyncs nibbles syncMask).dropLast, b = false := by
  constructor
  · intro hall
    by_contra hneither
    obtain ⟨hwrap, hharm⟩ := not_or.mp hneither
    by_cases hpulses : ∀ v ∈ nibbles, v = 0xFF
    · refine hharm ⟨hpulses, fun b hb => ?_⟩
      by_contra hsync
      rw [Bool.not_eq_false] at hsync
      subst hsync
      obtain ⟨bits, hbits⟩ := not_roundTrips_of_sync hmask hmax hfits hnibbles
        (Nat.not_lt.mp hwrap) hpulses hb
      exact hbits (hall bits)
    · obtain ⟨v, hv⟩ := not_forall.mp hpulses
      obtain ⟨hmem, hblank⟩ := Classical.not_imp.mp hv
      exact not_roundTrips_of_mem hmask hmax hfits (Nat.not_lt.mp hwrap) hmem hblank (hall _)
  · rintro (hwrap | ⟨hpulses, hsyncs⟩) bits
    · exact roundTrips_of_lt hmask hhigh hfits hnibbles hwrap bits
    · exact roundTrips_of_pulses hmask hmax hfits hnibbles hpulses hsyncs bits

end

/-- Two nibbles, of which the second is self-sync. -/
theorem roundTrips_iff_sync :
    (∀ bits, RoundTrips [0xD5, 0xFF] (some [0, 1]) 18 2 bits) ↔
      trackCells [0xD5, 0xFF] (some [0, 1]) + 7 < 2 ^ 32 ∨
        (∀ v ∈ [0xD5, 0xFF], v = (0xFF : UInt8)) ∧
          ∀ b ∈ (selfSyncs [0xD5, 0xFF] (some [0, 1])).dropLast, b = false :=
  roundTrips_iff (by decide +kernel) (by decide +kernel) (by decide +kernel)
    (by decide +kernel) (by decide +kernel)

/-! ## Nibbles with a blank cell, the first of them self-sync -/

/-- What is laid down for them. -/
theorem walkSyncRuns_first (n : Nat) :
    walkSyncRuns (List.replicate (n + 1) 0xFE) (some (1 :: List.replicate n 0)) =
      (0xFE, true) :: List.replicate n (0xFE, false) := by
  rw [walkSyncRuns, List.replicate_succ, List.zipWith_cons_cons, List.zipWith_replicate,
    Nat.min_self]
  rfl

/-- Their cells. -/
theorem trackCells_first (n : Nat) :
    trackCells (List.replicate (n + 1) 0xFE) (some (1 :: List.replicate n 0)) = 8 * n + 10 := by
  rw [trackCells, selfSyncs, walkSyncRuns_first, List.map_cons, List.map_replicate,
    List.count_cons_of_ne (by decide), List.count_replicate_self, List.count_cons_self,
    List.count_replicate]
  rfl

/-- They do not come back out of a buffer full of pulses once their cells are too
many to be reckoned. -/
theorem not_roundTrips_first {n maxBits maxNibbles : Nat} (hmax : maxBits < 2 ^ 32)
    (hfits : 8 * n + 10 ≤ maxBits) (hwrap : 2 ^ 32 ≤ 8 * n + 17) :
    ¬ RoundTrips (List.replicate (n + 1) 0xFE) (some (1 :: List.replicate n 0)) maxBits
      maxNibbles fun _ => 0xFF := by
  refine not_roundTrips_of_mem ?_ hmax ?_ ?_ (List.mem_replicate.mpr ⟨n.succ_ne_zero, rfl⟩)
    (by decide)
  · intro m hm
    obtain rfl := Option.some.inj hm
    rw [List.length_cons, List.length_replicate, List.length_replicate]
  · rwa [trackCells_first]
  · rwa [trackCells_first]

/-- **A buffer that is not blanked**: 2 ^ 29 - 1 nibbles, the first of them
self-sync, do not come back out of a buffer that was full of pulses. -/
theorem not_roundTrips_full :
    ¬ RoundTrips (List.replicate (2 ^ 29 - 1) 0xFE)
        (some (1 :: List.replicate (2 ^ 29 - 2) 0)) (2 ^ 32 - 1) (2 ^ 29 - 1) fun _ => 0xFF := by
  have hcount : 2 ^ 29 - 1 = 2 ^ 29 - 2 + 1 := by norm_num
  rw [hcount]
  exact not_roundTrips_first (by norm_num) (by norm_num) (by norm_num)

end LinApple.Disk
