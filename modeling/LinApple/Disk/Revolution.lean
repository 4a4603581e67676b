import LinApple.Disk.Cells
import LinApple.Disk.Invariant

/-!
# A revolution of a track

What a revolution brings past the data register, from the index hole on: blank
cells are passed over, a pulse and the seven cells behind it are a nibble, and
the last one may reach over the hole. A save state carries the nibbles that end
before the hole, as many as there is room for; laid down again they are the
revolution of the track they make.
-/

namespace LinApple.Disk

open ByteMap

/-! ## Reading to the hole and over it -/

/-- The cells left behind the last whole nibble: none, or a pulse and fewer than
seven others. -/
def leftOver : List Bool → List Bool
  | false :: cells => leftOver cells
  | true :: _ :: _ :: _ :: _ :: _ :: _ :: _ :: cells => leftOver cells
  | cells => cells

/-- Every list of cells is empty, or begins with a blank one, with a nibble, or with
a part of one. -/
theorem cells_cases (cells : List Bool) : cells = [] ∨ (∃ rest, cells = false :: rest)
    ∨ (∃ c6 c5 c4 c3 c2 c1 c0 rest,
      cells = true :: c6 :: c5 :: c4 :: c3 :: c2 :: c1 :: c0 :: rest)
    ∨ ∃ rest, cells = true :: rest ∧ rest.length < 7 := by
  match cells with
  | [] => exact .inl rfl
  | false :: rest => exact .inr (.inl ⟨rest, rfl⟩)
  | true :: c6 :: c5 :: c4 :: c3 :: c2 :: c1 :: c0 :: rest =>
    exact .inr (.inr (.inl ⟨c6, c5, c4, c3, c2, c1, c0, rest, rfl⟩))
  | [true] | [true, _] | [true, _, _] | [true, _, _, _] | [true, _, _, _, _]
  | [true, _, _, _, _, _] | [true, _, _, _, _, _, _] =>
    exact .inr (.inr (.inr ⟨_, rfl, by simp⟩))

theorem leftOver_part {rest : List Bool} (h : rest.length < 7) :
    leftOver (true :: rest) = true :: rest := by
  match rest, h with
  | [], _ | [_], _ | [_, _], _ | [_, _, _], _ | [_, _, _, _], _ | [_, _, _, _, _], _
  | [_, _, _, _, _, _], _ => rfl

theorem readNibbles_nibble (room : Nat) (c6 c5 c4 c3 c2 c1 c0 : Bool) (rest : List Bool) :
    (readNibbles (room + 1) (true :: c6 :: c5 :: c4 :: c3 :: c2 :: c1 :: c0 :: rest)).2
      = readByte [true, c6, c5, c4, c3, c2, c1, c0] :: (readNibbles room rest).2 := by
  rw [readNibbles, if_neg (Nat.succ_ne_zero room)]
  rfl

/-- **With less room the same nibbles are read**, as many as there is room for. -/
theorem readNibbles_take (cells : List Bool) {room room' : Nat} (h : room ≤ room') :
    (readNibbles room cells).2 = (readNibbles room' cells).2.take room := by
  induction hn : cells.length using Nat.strongRecOn generalizing cells room room' with
  | ind n ih =>
    obtain rfl | ⟨rest, rfl⟩ | ⟨c6, c5, c4, c3, c2, c1, c0, rest, rfl⟩ | ⟨rest, rfl, hshort⟩ :=
      cells_cases cells
    · cases room <;> cases room' <;> rfl
    · rw [readNibbles, readNibbles]
      exact ih rest.length (by rw [← hn, List.length_cons]; omega) rest h rfl
    · cases room with
      | zero => rw [readNibbles, if_pos rfl, List.take_zero]
      | succ room =>
        obtain ⟨more, rfl⟩ : ∃ k, room' = k + 1 := ⟨room' - 1, by omega⟩
        rw [readNibbles_nibble, readNibbles_nibble, List.take_succ_cons,
          ih rest.length (by rw [← hn]; simp only [List.length_cons]; omega) rest
            (Nat.le_of_succ_le_succ h) rfl]
    · rw [readNibbles_short room (by rw [List.length_cons]; omega),
        readNibbles_short room' (by rw [List.length_cons]; omega), List.take_nil]

/-- Nibbles take up eight cells each. -/
theorem length_readNibbles_le (room : Nat) (cells : List Bool) :
    8 * (readNibbles room cells).2.length ≤ cells.length := by
  induction hn : cells.length using Nat.strongRecOn generalizing cells room with
  | ind n ih =>
    subst hn
    obtain rfl | ⟨rest, rfl⟩ | ⟨c6, c5, c4, c3, c2, c1, c0, rest, rfl⟩ | ⟨rest, rfl, hshort⟩ :=
      cells_cases cells
    · cases room <;> exact Nat.le_refl 0
    · rw [readNibbles]
      have hrest := ih rest.length (by rw [List.length_cons]; omega) room rest rfl
      rw [List.length_cons]
      omega
    · cases room with
      | zero =>
        rw [readNibbles, if_pos rfl]
        exact Nat.zero_le _
      | succ room =>
        rw [readNibbles_nibble]
        have hrest := ih rest.length (by simp only [List.length_cons]; omega) room rest rfl
        simp only [List.length_cons]
        omega
    · rw [readNibbles_short room (by rw [List.length_cons]; omega)]
      exact Nat.zero_le _

/-- Every nibble has its high bit set. -/
theorem high_of_mem_readNibbles (room : Nat) (cells : List Bool) :
    ∀ v ∈ (readNibbles room cells).2, v &&& 0x80 ≠ 0 := by
  have hbyte : ∀ c6 c5 c4 c3 c2 c1 c0 : Bool,
      readByte [true, c6, c5, c4, c3, c2, c1, c0] &&& 0x80 ≠ 0 := by decide +kernel
  induction hn : cells.length using Nat.strongRecOn generalizing cells room with
  | ind n ih =>
    subst hn
    obtain rfl | ⟨rest, rfl⟩ | ⟨c6, c5, c4, c3, c2, c1, c0, rest, rfl⟩ | ⟨rest, rfl, hshort⟩ :=
      cells_cases cells
    · cases room <;> exact fun v hv => absurd hv List.not_mem_nil
    · rw [readNibbles]
      exact ih rest.length (by rw [List.length_cons]; omega) room rest rfl
    · cases room with
      | zero =>
        rw [readNibbles, if_pos rfl]
        exact fun v hv => absurd hv List.not_mem_nil
      | succ room =>
        rw [readNibbles_nibble, List.forall_mem_cons]
        exact ⟨hbyte c6 c5 c4 c3 c2 c1 c0, ih rest.length (by simp only [List.length_cons]; omega) room rest rfl⟩
    · rw [readNibbles_short room (by rw [List.length_cons]; omega)]
      exact fun v hv => absurd hv List.not_mem_nil

/-- **Seven cells more** make one nibble more, exactly if cells were left over. -/
theorem readNibbles_append_seven {cells extra : List Bool} (hextra : extra.length = 7)
    {room : Nat} (hroom : cells.length < room) :
    ∃ last, (readNibbles room (cells ++ extra)).2 = (readNibbles room cells).2 ++ last
      ∧ (last = [] ↔ leftOver cells = []) := by
  -- on the cells not yet read, since a nibble takes eight at once
  induction hn : cells.length using Nat.strongRecOn generalizing cells room with
  | ind n ih =>
    subst hn
    obtain rfl | ⟨rest, rfl⟩ | ⟨c6, c5, c4, c3, c2, c1, c0, rest, rfl⟩ | ⟨rest, rfl, hshort⟩ :=
      cells_cases cells
    · refine ⟨[], ?_, iff_of_true rfl rfl⟩
      rw [List.nil_append, readNibbles_short room (by omega), readNibbles_short room (by decide)]
      rfl
    · rw [List.cons_append, readNibbles, readNibbles, leftOver]
      exact ih rest.length (by rw [List.length_cons]; omega)
        (Nat.lt_of_succ_lt (by rwa [List.length_cons] at hroom)) rfl
    · obtain ⟨more, rfl⟩ : ∃ k, room = k + 1 := ⟨room - 1, by omega⟩
      have hmore : rest.length < more := by
        simp only [List.length_cons] at hroom
        omega
      obtain ⟨last, heq, hlast⟩ := ih rest.length (by simp only [List.length_cons]; omega) hmore rfl
      refine ⟨last, ?_, hlast⟩
      show (readNibbles (more + 1) (true :: c6 :: c5 :: c4 :: c3 :: c2 :: c1 :: c0
        :: (rest ++ extra))).2 = _
      rw [readNibbles_nibble, readNibbles_nibble, heq, List.cons_append]
    · obtain ⟨more, rfl⟩ : ∃ k, room = k + 1 := ⟨room - 1, by omega⟩
      have hlength : (true :: (rest ++ extra)).length ≥ 8 := by
        rw [List.length_cons, List.length_append]
        omega
      have hfew : (true :: rest).length < 8 := by
        rw [List.length_cons]
        omega
      rw [readNibbles_short (more + 1) hfew, leftOver_part hshort]
      obtain hnil | ⟨_, hblank⟩ | ⟨c6, c5, c4, c3, c2, c1, c0, cells, hcells⟩ | ⟨_, hpart, hlt⟩ :=
        cells_cases (true :: (rest ++ extra))
      · cases hnil
      · cases hblank
      · refine ⟨_, rfl, iff_of_false (fun hno => ?_) fun hno => absurd hno (List.cons_ne_nil _ _)⟩
        rw [List.cons_append, hcells] at hno
        have hfirst := readNibbles_nibble more c6 c5 c4 c3 c2 c1 c0 cells
        exact List.cons_ne_nil _ _ (hfirst.symm.trans hno)
      · rw [hpart, List.length_cons] at hlength
        omega

/-! ## Drives -/

namespace Drive

variable {d : Drive}

/-- The cells under the head, from the index hole to the index hole. -/
def cells (d : Drive) : List Bool := peeks d.trackBits 0 d.bitCount

/-- **What a revolution brings past the data register**, from the index hole on. -/
def revolution (d : Drive) : List UInt8 :=
  (readNibbles (d.bitCount + 7)
    (peeks (fun i => d.trackBits (i % d.bitCount)) 0 (d.bitCount + 7))).2

/-- A nibble reaches over the index hole. -/
def Straddles (d : Drive) : Prop := leftOver d.cells ≠ []

instance (d : Drive) : Decidable d.Straddles := inferInstanceAs (Decidable (_ ≠ _))

theorem length_cells (d : Drive) : d.cells.length = d.bitCount := length_peeks _ _ _

/-- A revolution and the nibbles that end before the hole. -/
theorem revolution_eq (d : Drive) :
    ∃ last, d.revolution = (readNibbles (d.bitCount + 7) d.cells).2 ++ last
      ∧ (last = [] ↔ ¬ d.Straddles) := by
  have hsame : peeks (fun i => d.trackBits (i % d.bitCount)) 0 d.bitCount = d.cells :=
    peeks_congr fun i _ hi => by rw [Nat.mod_eq_of_lt (by omega)]
  unfold revolution Straddles
  rw [← peeks_append, hsame, not_not]
  exact readNibbles_append_seven (length_peeks _ _ _) (by rw [length_cells]; omega)

/-! ### Reading out -/

/-- The cells from one of them on, up to the index hole. -/
def cellsFrom (d : Drive) (cell : Nat) : List Bool := peeks d.trackBits cell (d.bitCount - cell)

theorem cellsFrom_of_lt {cell : Nat} (h : cell < d.bitCount) :
    d.cellsFrom cell = d.trackBits cell :: d.cellsFrom (cell + 1) := by
  unfold cellsFrom
  rw [← peeks_succ, show d.bitCount - (cell + 1) + 1 = d.bitCount - cell by omega]

/-- Blank cells are passed over. -/
theorem Sound.skipBlankCells_eq (h : d.Sound) {fuel cell : Nat} (hfuel : d.bitCount ≤ cell + fuel) :
    ∃ found, d.skipBlankCells fuel cell = some found ∧ cell ≤ found
      ∧ (found < d.bitCount → d.trackBits found = true)
      ∧ ∀ room, readNibbles room (d.cellsFrom cell) = readNibbles room (d.cellsFrom found) := by
  induction fuel generalizing cell with
  | zero =>
    refine ⟨cell, ?_, Nat.le_refl cell, fun hlt => absurd hlt (by omega), fun _ => rfl⟩
    unfold Drive.skipBlankCells
    rw [if_neg (by omega)]
  | succ fuel ih =>
    unfold Drive.skipBlankCells
    split_ifs with hcell
    · rw [h.mediumCell hcell]
      show ∃ found, (if d.trackBits cell = true then some cell
        else d.skipBlankCells fuel (cell + 1)) = some found ∧ _
      cases hpulse : d.trackBits cell with
      | true => exact ⟨cell, rfl, Nat.le_refl cell, fun _ => hpulse, fun _ => rfl⟩
      | false =>
        obtain ⟨found, hskip, hle, hset, hread⟩ := @ih (cell + 1) (by omega)
        refine ⟨found, hskip, by omega, hset, fun room => ?_⟩
        rw [cellsFrom_of_lt hcell, hpulse, readNibbles]
        exact hread room
    · exact ⟨cell, rfl, Nat.le_refl cell, fun hlt => absurd hlt hcell, fun _ => rfl⟩

/-- Eight cells are put together. -/
theorem Sound.cellsToByte_eq (h : d.Sound) {cell : Nat} (hcell : cell + 8 ≤ d.bitCount) :
    d.cellsToByte cell = some (readByte (peeks d.trackBits cell 8)) := by
  have hmedium : ∀ k < 8, d.mediumCell (cell + k) = some (d.trackBits (cell + k)) := fun k hk =>
    h.mediumCell (by omega)
  have hbit : ∀ b : Bool, (if b = true then (1 : UInt8) else 0) = b.toUInt8 := by decide
  unfold Drive.cellsToByte readByte peeks
  rw [show List.range 8 = [0, 1, 2, 3, 4, 5, 6, 7] from rfl]
  simp only [List.foldlM_cons, List.foldlM_nil, List.map_cons, List.map_nil, List.foldl_cons,
    List.foldl_nil, hmedium 0 (by decide), hmedium 1 (by decide), hmedium 2 (by decide),
    hmedium 3 (by decide), hmedium 4 (by decide), hmedium 5 (by decide), hmedium 6 (by decide),
    hmedium 7 (by decide), hbit]
  rfl

/-- A pulse and the seven cells behind it are the next nibble. -/
theorem readNibbles_cellsFrom {cell : Nat} (hcell : cell + 8 ≤ d.bitCount)
    (hpulse : d.trackBits cell = true) (room : Nat) :
    (readNibbles (room + 1) (d.cellsFrom cell)).2
      = readByte (peeks d.trackBits cell 8) :: (readNibbles room (d.cellsFrom (cell + 8))).2 := by
  have hsplit : d.cellsFrom cell = peeks d.trackBits cell 8 ++ d.cellsFrom (cell + 8) := by
    unfold cellsFrom
    rw [peeks_append]
    congr 1
    omega
  rw [hsplit, peeks, show List.range 8 = [0, 1, 2, 3, 4, 5, 6, 7] from rfl]
  simp only [List.map_cons, List.map_nil, Nat.add_zero, hpulse]
  exact readNibbles_nibble room _ _ _ _ _ _ _ _

theorem Sound.decodeLoop_eq (h : d.Sound) (hlong : 8 ≤ d.bitCount) (maxCount : Nat)
    {fuel cell : Nat} (hfuel : d.bitCount < cell + fuel) (written : List UInt8) :
    d.decodeLoop maxCount fuel cell written
      = some (written ++ (readNibbles (maxCount - written.length) (d.cellsFrom cell)).2) := by
  have hfull : ∀ cells, (readNibbles 0 cells).2 = [] := fun cells => by
    rw [readNibbles_take cells (Nat.zero_le 1), List.take_zero]
  have hshort : ∀ room cell, d.bitCount < cell + 8 →
      (readNibbles room (d.cellsFrom cell)).2 = [] := fun room cell hlt => by
    rw [readNibbles_short room (by
      unfold cellsFrom
      rw [length_peeks]
      omega)]
  -- on the fuel, which is at least the cells left, the nibbles found so far generalised with them
  induction fuel generalizing cell written with
  | zero =>
    unfold Drive.decodeLoop
    rw [if_neg (by omega), hshort _ cell (by omega), List.append_nil]
  | succ fuel ih =>
    unfold Drive.decodeLoop
    split_ifs with hmore
    · obtain ⟨found, hskip, hle, hset, hread⟩ :=
        h.skipBlankCells_eq (Nat.le_add_left d.bitCount cell)
      rw [hskip, hread]
      show (if found > d.bitCount - 8 then some written else _) = _
      split_ifs with hend
      · rw [hshort _ found (by omega), List.append_nil]
      · obtain ⟨room, hroom⟩ : ∃ k, maxCount - written.length = k + 1 :=
          ⟨maxCount - written.length - 1, by omega⟩
        have hrest : maxCount - (written ++ [readByte (peeks d.trackBits found 8)]).length = room := by
          rw [List.length_append, List.length_singleton]
          omega
        rw [hroom, readNibbles_cellsFrom (by omega) (hset (by omega)), h.cellsToByte_eq (by omega)]
        show d.decodeLoop maxCount fuel (found + 8) _ = _
        rw [ih (by omega), hrest, List.append_assoc, List.singleton_append]
    · obtain hle | hlt : maxCount ≤ written.length ∨ d.bitCount < cell + 8 := by omega
      · rw [Nat.sub_eq_zero_of_le hle, hfull, List.append_nil]
      · rw [hshort _ cell hlt, List.append_nil]

/-- **What a save state carries of a track**: the nibbles that end before the hole, as
many as there is room for. -/
theorem Sound.decodeMediumBytes_eq (h : d.Sound) (maxCount : Nat) :
    d.decodeMediumBytes maxCount = some (readNibbles maxCount d.cells).2 := by
  unfold Drive.decodeMediumBytes
  split_ifs with hshort
  · rw [readNibbles_short maxCount (by rwa [length_cells])]
  · rw [h.decodeLoop_eq (Nat.not_lt.mp hshort) maxCount (by omega) []]
    rfl

/-! ### Laying down again -/

/-- A drive with other cells under its head, which is at one of them. -/
def withCells (d : Drive) (bits : Nat → Bool) (position : Nat) : Drive :=
  { d with trackBits := bits, bitPosition := position }

theorem foldlM_setCell {count : Nat} (hroom : count ≤ d.trackBytes * 8)
    (hcount : d.bitCount = count) (value : UInt8) {masks : List UInt8} {p : Nat}
    (hend : p + masks.length ≤ count) (bits : Nat → Bool) :
    masks.foldlM (fun (d : Drive) (mask : UInt8) => do
        let d ← d.setCell d.bitPosition (value &&& mask ≠ 0)
        return d.advanceMedium 1) (d.withCells bits (p % count))
      = some (d.withCells (pokes bits p (masks.map fun mask => value &&& mask != 0))
          ((p + masks.length) % count)) := by
  -- on the masks, one cell each; the position wraps only behind the last, so every write lands
  induction masks generalizing p bits with
  | nil =>
    rw [List.map_nil, pokes_nil]
    rfl
  | cons mask masks ih =>
    rw [List.length_cons] at hend
    have hmod : p % count = p := Nat.mod_eq_of_lt (by omega)
    have hbit : decide (value &&& mask ≠ 0) = (value &&& mask != 0) := by
      rw [Bool.eq_iff_iff, decide_eq_true_iff, bne_iff_ne]
    have hset : (d.withCells bits (p % count)).setCell (p % count) (value &&& mask ≠ 0)
        = some (d.withCells (pokes bits p [value &&& mask != 0]) (p % count)) := by
      have hin : p % count / 8 < d.trackBytes := by
        rw [hmod]
        omega
      rw [pokes_singleton, ← hbit]
      refine (if_pos (show p % count / 8 < (d.withCells bits (p % count)).trackBytes from hin)).trans ?_
      unfold withCells
      rw [hmod]
    have hadvance : (d.withCells (pokes bits p [value &&& mask != 0]) (p % count)).advanceMedium 1
        = d.withCells (pokes bits p [value &&& mask != 0]) ((p + 1) % count) := by
      unfold advanceMedium withCells
      dsimp only
      rw [hcount, if_neg (by omega), Nat.mod_add_mod]
    have hrest := ih (p := p + 1) (by omega) (pokes bits p [value &&& mask != 0])
    rw [List.foldlM_cons]
    show ((d.withCells bits (p % count)).setCell (p % count) (value &&& mask ≠ 0) >>= fun d =>
      some (d.advanceMedium 1)) >>= _ = _
    rw [hset]
    show List.foldlM _ ((d.withCells (pokes bits p [value &&& mask != 0]) (p % count)
      ).advanceMedium 1) masks = _
    have hjoin := pokes_append bits [value &&& mask != 0] p
      (masks.map fun mask => value &&& mask != 0)
    rw [List.length_singleton] at hjoin
    rw [hadvance, hrest, ← hjoin, List.length_cons, ← Nat.add_assoc,
      Nat.add_right_comm p masks.length 1, List.map_cons]
    rfl

/-- A byte is laid down cell by cell. -/
theorem writeMediumByte_eq {count : Nat} (hroom : count ≤ d.trackBytes * 8)
    (hcount : d.bitCount = count) (value : UInt8) {p : Nat} (hend : p + 8 ≤ count)
    (bits : Nat → Bool) : (d.withCells bits (p % count)).writeMediumByte value
      = some (d.withCells (pokes bits p (byteCells value)) ((p + 8) % count)) :=
  foldlM_setCell hroom hcount value hend bits

theorem foldlM_writeMediumByte {count : Nat} (hroom : count ≤ d.trackBytes * 8)
    (hcount : d.bitCount = count) {bytes : List UInt8} {p : Nat}
    (hend : p + bytes.length * 8 ≤ count) (bits : Nat → Bool) :
    bytes.foldlM writeMediumByte (d.withCells bits (p % count))
      = some (d.withCells (pokes bits p (bytes.flatMap byteCells))
          ((p + bytes.length * 8) % count)) := by
  induction bytes generalizing p bits with
  | nil =>
    rw [List.flatMap_nil, pokes_nil]
    rfl
  | cons value bytes ih =>
    rw [List.length_cons] at hend
    have hrest := @ih (p + 8) (by omega) (pokes bits p (byteCells value))
    rw [List.foldlM_cons, writeMediumByte_eq hroom hcount value (by omega)]
    show List.foldlM _ (d.withCells _ _) bytes = _
    rw [hrest, List.flatMap_cons, pokes_append, length_byteCells, List.length_cons,
      show p + 8 + bytes.length * 8 = p + (bytes.length + 1) * 8 by omega]

/-- **Bytes laid down are the cells of the track.** -/
theorem encodeMediumBytes_eq {bytes : List UInt8} (hroom : bytes.length * 8 ≤ d.trackBytes * 8) :
    d.encodeMediumBytes bytes = some { d with
      trackBits := pokes d.trackBits 0 (bytes.flatMap byteCells)
      bitPosition := 0
      bitCount := bytes.length * 8
      cellRemaining := 0 } := by
  have hlaid := @foldlM_writeMediumByte { d with bitCount := bytes.length * 8 } _ hroom rfl
    bytes 0 (by omega) d.trackBits
  rw [Nat.zero_mod] at hlaid
  have hstart : ({ d with bitCount := bytes.length * 8 } : Drive).withCells d.trackBits 0
      = { d with bitPosition := 0, bitCount := bytes.length * 8 } := rfl
  rw [hstart] at hlaid
  unfold Drive.encodeMediumBytes
  dsimp only
  rw [hlaid]
  rfl

theorem length_flatMap_byteCells (bytes : List UInt8) :
    (bytes.flatMap byteCells).length = bytes.length * 8 := by
  induction bytes with
  | nil => rfl
  | cons v bytes ih =>
    rw [List.flatMap_cons, List.length_append, length_byteCells, ih, List.length_cons]
    omega

/-- Nothing is left over behind whole nibbles. -/
theorem leftOver_flatMap {bytes : List UInt8} (hhigh : ∀ v ∈ bytes, v &&& 0x80 ≠ 0) :
    leftOver (bytes.flatMap byteCells) = [] := by
  induction bytes with
  | nil => rfl
  | cons v bytes ih =>
    rw [List.forall_mem_cons] at hhigh
    rw [List.flatMap_cons, byteCells, cellMasks, List.map_cons, bne_iff_ne.mpr hhigh.1]
    exact ih hhigh.2

/-- **The revolution of a track made of nibbles** is those nibbles. -/
theorem revolution_of_nibbles {bytes : List UInt8} (hhigh : ∀ v ∈ bytes, v &&& 0x80 ≠ 0)
    (hcells : d.cells = bytes.flatMap byteCells) : d.revolution = bytes := by
  have hlength : d.bitCount = bytes.length * 8 := by
    rw [← length_cells, hcells, length_flatMap_byteCells]
  obtain ⟨last, heq, hlast⟩ := d.revolution_eq
  have hread : (readNibbles (d.bitCount + 7) d.cells).2 = bytes := by
    have hroom := readNibbles_flatMap hhigh (d.bitCount + 7 - bytes.length) []
    rw [@readNibbles_short [] _ (by decide), List.append_nil, List.append_nil,
      show bytes.length + (d.bitCount + 7 - bytes.length) = d.bitCount + 7 by omega] at hroom
    rw [hcells, hroom]
  have hwhole : ¬ d.Straddles := by
    unfold Straddles
    rw [hcells, not_not]
    exact leftOver_flatMap hhigh
  rw [heq, hread, hlast.2 hwhole, List.append_nil]

/-- **A save state carries the whole revolution** exactly if no nibble reaches over
the index hole and there is room for all of them. -/
theorem readNibbles_eq_revolution_iff (d : Drive) (room : Nat) :
    (readNibbles room d.cells).2 = d.revolution
      ↔ ¬ d.Straddles ∧ d.revolution.length ≤ room := by
  obtain ⟨last, heq, hlast⟩ := d.revolution_eq
  have hwhole := length_readNibbles_le room d.cells
  rw [length_cells] at hwhole
  have htake : (readNibbles room d.cells).2
      = (readNibbles (d.bitCount + 7) d.cells).2.take room := by
    obtain hle | hle := Nat.le_total room (d.bitCount + 7)
    · exact readNibbles_take d.cells hle
    · rw [readNibbles_take d.cells hle, List.take_take, Nat.min_eq_right hle,
        List.take_of_length_le (by omega)]
  rw [heq, htake, ← hlast, List.length_append]
  constructor
  · intro hsame
    have hlength := congrArg List.length hsame
    rw [List.length_take, List.length_append] at hlength
    have hnone : last.length = 0 := by omega
    exact ⟨List.eq_nil_of_length_eq_zero hnone, by omega⟩
  · rintro ⟨rfl, hle⟩
    rw [List.append_nil, List.take_of_length_le]
    rwa [List.length_nil, Nat.add_zero] at hle

end Drive

end LinApple.Disk
