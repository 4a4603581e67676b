import LinApple.Disk.Encoding
import Mathlib.Tactic.IntervalCases
import Mathlib.Data.Nat.Bitwise
import LinApple.Lib.Sizes

/-!
# Cells

A track as the medium has it: cells, one after another, each with a pulse
or without. A nibble is eight of them, and a self-sync nibble two blank
ones more, which is what lets the shift register fall into step. The cells
are packed eight to a byte; what is laid down that way is read back
(`bitsToNibbles_nibblesToBits`).
-/

namespace LinApple.Disk

open ByteMap

/-! ## Laying cells down -/

/-- `walk_sync_runs` where no mask is given: a sync byte is self-sync if the
run of them it is in ends at a prologue. The first nibble follows the
last. -/
def walkRuns (first : UInt8) : List UInt8 → List (UInt8 × Bool)
  | [] => []
  | n :: rest =>
    if n ≠ syncByte then (n, false) :: walkRuns first rest
    else
      (syncByte, (rest.dropWhile (· == syncByte)).head?.getD first == prologue1)
        :: walkRuns first rest

/-- `walk_sync_runs`: what is emitted. -/
def walkSyncRuns (nibbles : List UInt8) :
    Option (List UInt8) → List (UInt8 × Bool)
  | some syncMask => nibbles.zipWith (fun n m => (n, m != 0)) syncMask
  | none => walkRuns (nibbles.head?.getD 0) nibbles

/-- The number of cells of an emitted nibble. -/
def cellCount (selfSync : Bool) : Nat := if selfSync then 10 else 8

/-- The masks of a byte's cells, in the order they are laid down. -/
def cellMasks : List UInt8 := [0x80, 0x40, 0x20, 0x10, 0x08, 0x04, 0x02, 0x01]

/-- A pulse in a cell. -/
def setCell (bits : Nat → UInt8) (cell : Nat) : Nat → UInt8 :=
  Function.update bits (cell / 8)
    (bits (cell / 8) ||| (0x80 >>> (cell % 8).toUInt8))

/-- The loop of `disk_encoding_nibbles_to_bits` over the masks of a byte. -/
def layByte (value : UInt8) : List UInt8 → Nat → (Nat → UInt8) → (Nat → UInt8)
  | [], _, bits => bits
  | mask :: masks, cell, bits =>
    layByte value masks ((cell + 1) % 2 ^ 32)
      (if value &&& mask != 0 then setCell bits cell else bits)

/-- The second walk of `disk_encoding_nibbles_to_bits`, from a cell on. -/
def layCells : List (UInt8 × Bool) → Nat → (Nat → UInt8) → (Nat → UInt8)
  | [], _, bits => bits
  | (value, selfSync) :: rest, cell, bits =>
    layCells rest ((cell + cellCount selfSync) % 2 ^ 32)
      (layByte value cellMasks cell bits)

/-- `disk_encoding_nibbles_to_bits`: the buffer after it, and the number of
cells in it. -/
def diskEncodingNibblesToBits (nibbles : List UInt8)
    (syncMask : Option (List UInt8)) (bits : Nat → UInt8) (maxBits : Nat) :
    Except DiskError ((Nat → UInt8) × Nat) :=
  if nibbles.length > maxBits / 8 then .error .unsupported
  else
    let emitted := walkSyncRuns nibbles syncMask
    let totalBits := (emitted.map fun e => cellCount e.2).sum % 2 ^ 32
    if totalBits > maxBits then .error .unsupported
    else
      let blank := pokes bits 0
        (List.replicate ((totalBits + 7) % 2 ^ 32 / 8) 0)
      .ok (layCells emitted 0 blank, totalBits)

/-! ## Reading cells -/

/-- `cell_at` -/
def cellAt (bits : Nat → UInt8) (index : Nat) : Bool :=
  (bits (index / 8) >>> (7 - index % 8).toUInt8) &&& 1 == 1

/-- The byte eight cells make, the first being the highest bit. -/
def readByte (cells : List Bool) : UInt8 :=
  cells.foldl (fun value c => (value <<< 1) ||| c.toUInt8) 0

/-- The loop of `disk_encoding_bits_to_nibbles` over the cells that are
left: blank cells are skipped, and a pulse and the seven cells after it are
a nibble, if there is still room for it. -/
def readNibbles : Nat → List Bool → DiskError × List UInt8
  | room, false :: cells => readNibbles room cells
  | room, true :: c6 :: c5 :: c4 :: c3 :: c2 :: c1 :: c0 :: cells =>
    if room = 0 then (.unsupported, [])
    else
      let (error, nibbles) := readNibbles (room - 1) cells
      (error, readByte [true, c6, c5, c4, c3, c2, c1, c0] :: nibbles)
  | _, _ => (.none, [])

/-- `disk_encoding_bits_to_nibbles` -/
def diskEncodingBitsToNibbles (bits : Nat → UInt8) (bitCount maxNibbles : Nat) :
    DiskError × List UInt8 :=
  readNibbles maxNibbles (peeks (cellAt bits) 0 bitCount)

/-! ## The packed buffer -/

section Packed

/-- The cells of a byte. -/
def byteCells (value : UInt8) : List Bool :=
  cellMasks.map fun mask => value &&& mask != 0

/-- The cells of an emitted nibble. -/
def emittedCells (e : UInt8 × Bool) : List Bool :=
  byteCells e.1 ++ List.replicate (cellCount e.2 - 8) false

theorem length_byteCells (value : UInt8) : (byteCells value).length = 8 := rfl

theorem length_emittedCells (e : UInt8 × Bool) :
    (emittedCells e).length = cellCount e.2 := by
  rw [emittedCells, List.length_append, length_byteCells,
    List.length_replicate, cellCount]
  split <;> rfl

theorem shiftRight_and_one (b : UInt8) {k : Nat} (hk : k < 8) :
    ((b >>> k.toUInt8) &&& 1 == 1) = b.toNat.testBit k := by
  rw [Bool.eq_iff_iff, beq_iff_eq, ← UInt8.toNat_inj, UInt8.toNat_and,
    UInt8.toNat_shiftRight, Nat.testBit_eq_decide_div_mod_eq,
    decide_eq_true_iff]
  show b.toNat >>> (k % 256 % 8) &&& 1 = 1 ↔ _
  rw [Nat.and_one_is_mod, Nat.mod_eq_of_lt (a := k) (by omega),
    Nat.mod_eq_of_lt hk, Nat.shiftRight_eq_div_pow]

theorem cellAt_eq (bits : Nat → UInt8) (i : Nat) :
    cellAt bits i = (bits (i / 8)).toNat.testBit (7 - i % 8) :=
  shiftRight_and_one _ (by omega)

theorem toNat_pulse {k : Nat} (hk : k < 8) :
    ((0x80 : UInt8) >>> k.toUInt8).toNat = 2 ^ (7 - k) := by
  interval_cases k <;> rfl

/-- **A pulse is in its cell and in no other.** -/
theorem cellAt_setCell (bits : Nat → UInt8) (cell : Nat) :
    cellAt (setCell bits cell) = Function.update (cellAt bits) cell true := by
  funext i
  by_cases hbyte : i / 8 = cell / 8
  · rw [cellAt_eq, setCell, hbyte, Function.update_self, UInt8.toNat_or,
      Nat.testBit_or, toNat_pulse (Nat.mod_lt _ (by decide)),
      Nat.testBit_two_pow]
    by_cases h : i = cell
    · rw [h, Function.update_self, decide_eq_true rfl, Bool.or_true]
    · have hbit : ¬ 7 - cell % 8 = 7 - i % 8 := by omega
      rw [Function.update_of_ne h, cellAt_eq, hbyte, decide_eq_false hbit,
        Bool.or_false]
  · rw [cellAt_eq, setCell, Function.update_of_ne hbyte,
      Function.update_of_ne fun h => hbyte (congrArg (· / 8) h), cellAt_eq]

/-- The cells of a buffer are blank between two of them. -/
def Blank (bits : Nat → UInt8) (cell limit : Nat) : Prop :=
  ∀ i, cell ≤ i → i < limit → cellAt bits i = false

/-- A buffer filled with zeros is blank. -/
theorem blank_zeros (bits : Nat → UInt8) (n : Nat) :
    Blank (pokes bits 0 (List.replicate n 0)) 0 (n * 8) := by
  intro i _ hi
  have hbyte : pokes bits 0 (List.replicate n (0 : UInt8)) (0 + i / 8) = 0 := by
    rw [pokes_add _ _ (by rw [List.length_replicate]; omega),
      List.getElem_replicate]
  rw [Nat.zero_add] at hbyte
  rw [cellAt_eq, hbyte]
  exact Nat.zero_testBit _

/-- Cells laid down leave those behind them blank. -/
theorem Blank.of_pokes {bits bits' : Nat → UInt8} {cell limit : Nat}
    {cells : List Bool} (h : Blank bits cell limit)
    (heq : cellAt bits' = pokes (cellAt bits) cell cells) :
    Blank bits' (cell + cells.length) limit := by
  intro i hi hlimit
  rw [heq, pokes_of_ge _ _ hi]
  exact h i (by omega) hlimit

/-- Laying blank cells down over blank cells. -/
theorem pokes_blank {bits : Nat → UInt8} {cell limit n : Nat}
    (h : Blank bits cell limit) (hn : cell + n ≤ limit) :
    pokes (cellAt bits) cell (List.replicate n false) = cellAt bits := by
  funext i
  by_cases hlt : i < cell
  · exact pokes_of_lt _ _ hlt
  · by_cases hge : cell + n ≤ i
    · exact pokes_of_ge _ _ (by rwa [List.length_replicate])
    · obtain ⟨j, rfl⟩ := Nat.le.dest (Nat.not_lt.mp hlt)
      rw [pokes_add _ _ (by rw [List.length_replicate]; omega),
        List.getElem_replicate]
      exact (h _ (Nat.le_add_right _ _) (by omega)).symm

/-- **A byte is laid down cell by cell.** -/
theorem cellAt_layByte (value : UInt8) {masks : List UInt8} {cell limit : Nat}
    {bits : Nat → UInt8} (hblank : Blank bits cell limit)
    (hlimit : cell + masks.length ≤ limit) (hwrap : limit < 2 ^ 32) :
    cellAt (layByte value masks cell bits)
      = pokes (cellAt bits) cell (masks.map fun mask => value &&& mask != 0) := by
  induction masks generalizing cell bits with
  | nil => exact (pokes_nil _ _).symm
  | cons mask masks ih =>
    rw [List.length_cons] at hlimit
    have hcell : cellAt (if value &&& mask != 0 then setCell bits cell else bits)
        = pokes (cellAt bits) cell [value &&& mask != 0] := by
      split
      next h => rw [cellAt_setCell, pokes_singleton, h]
      next h =>
        rw [Bool.not_eq_true] at h
        rw [h]
        exact (pokes_blank (n := 1) hblank (by omega)).symm
    have hrest : Blank _ (cell + 1) limit := hblank.of_pokes hcell
    rw [layByte, Nat.mod_eq_of_lt (by omega), ih hrest (by omega), hcell]
    exact (pokes_append (cellAt bits) [value &&& mask != 0] cell _).symm

/-- **Nibbles are laid down one after another.** -/
theorem cellAt_layCells {emitted : List (UInt8 × Bool)} {cell limit : Nat}
    {bits : Nat → UInt8} (hblank : Blank bits cell limit)
    (hlimit : cell + (emitted.map fun e => cellCount e.2).sum ≤ limit)
    (hwrap : limit < 2 ^ 32) :
    cellAt (layCells emitted cell bits)
      = pokes (cellAt bits) cell (emitted.flatMap emittedCells) := by
  induction emitted generalizing cell bits with
  | nil => exact (pokes_nil _ _).symm
  | cons e emitted ih =>
    rw [List.map_cons, List.sum_cons] at hlimit
    have hcount : 8 ≤ cellCount e.2 := by
      rw [cellCount]
      split <;> decide
    have hbyte : cellAt (layByte e.1 cellMasks cell bits)
        = pokes (cellAt bits) cell (emittedCells e) := by
      have hlaid := @cellAt_layByte e.1 cellMasks _ _ _ hblank
        (show cell + 8 ≤ limit by omega) hwrap
      rw [emittedCells, pokes_append, length_byteCells]
      show _ = pokes (pokes (cellAt bits) cell (cellMasks.map _)) _ _
      rw [← hlaid]
      exact (pokes_blank (hblank.of_pokes hlaid)
        (show cell + 8 + (cellCount e.2 - 8) ≤ limit by omega)).symm
    show cellAt (layCells emitted ((cell + cellCount e.2) % 2 ^ 32) _) = _
    rw [Nat.mod_eq_of_lt (by omega), List.flatMap_cons, pokes_append, ← hbyte,
      length_emittedCells, ih ?_ (by omega)]
    rw [← length_emittedCells]
    exact hblank.of_pokes hbyte

end Packed

/-! ## Reading back -/

section ReadBack

/-- A byte is read from its cells. -/
theorem readByte_byteCells (value : UInt8) : readByte (byteCells value) = value := by
  have h : ∀ n : Fin 256, readByte (byteCells (UInt8.ofNat n.val))
      = UInt8.ofNat n.val := by decide +kernel
  have hvalue := h ⟨value.toNat, value.toNat_lt⟩
  rwa [UInt8.ofNat_toNat] at hvalue

/-- Blank cells are skipped. -/
theorem readNibbles_blank (room n : Nat) (cells : List Bool) :
    readNibbles room (List.replicate n false ++ cells)
      = readNibbles room cells := by
  induction n with
  | zero => rfl
  | succ n ih => rw [List.replicate_succ, List.cons_append, readNibbles, ih]

/-- A nibble is read from its cells. -/
theorem readNibbles_byteCells (room : Nat) {value : UInt8}
    (hhigh : value &&& 0x80 ≠ 0) (cells : List Bool) :
    readNibbles (room + 1) (byteCells value ++ cells)
      = ((readNibbles room cells).1, value :: (readNibbles room cells).2) := by
  have hbyte := readByte_byteCells value
  rw [byteCells, cellMasks, List.map_cons, bne_iff_ne.mpr hhigh] at hbyte ⊢
  show readNibbles (room + 1) (true :: _ :: _ :: _ :: _ :: _ :: _ :: _ :: cells) = _
  rw [readNibbles, if_neg (Nat.succ_ne_zero room)]
  exact Prod.ext rfl (congrArg (· :: _) hbyte)

/-- **Nibbles are read back from their cells.** -/
theorem readNibbles_emittedCells {emitted : List (UInt8 × Bool)} {room : Nat}
    (hhigh : ∀ e ∈ emitted, e.1 &&& 0x80 ≠ 0) (hroom : emitted.length ≤ room) :
    readNibbles room (emitted.flatMap emittedCells)
      = (.none, emitted.map Prod.fst) := by
  induction emitted generalizing room with
  | nil =>
    cases room with
    | zero => rfl
    | succ room => rfl
  | cons e emitted ih =>
    rw [List.forall_mem_cons] at hhigh
    rw [List.length_cons] at hroom
    obtain ⟨room, rfl⟩ : ∃ k, room = k + 1 := ⟨room - 1, by omega⟩
    rw [List.flatMap_cons, emittedCells, List.append_assoc,
      readNibbles_byteCells room hhigh.1, readNibbles_blank,
      ih hhigh.2 (by omega), List.map_cons]

/-- Too few cells make no nibble. -/
theorem readNibbles_short {cells : List Bool} (room : Nat) (h : cells.length < 8) :
    readNibbles room cells = (.none, []) := by
  induction cells with
  | nil => rfl
  | cons c cells ih =>
    rw [List.length_cons] at h
    cases c with
    | false => exact ih (by omega)
    | true =>
      match cells, h with
      | [], _ | [_], _ | [_, _], _ | [_, _, _], _ | [_, _, _, _], _ | [_, _, _, _, _], _
      | [_, _, _, _, _, _], _ => rfl

/-- Nibbles at the front are read first. -/
theorem readNibbles_flatMap {nibbles : List UInt8} (hhigh : ∀ v ∈ nibbles, v &&& 0x80 ≠ 0)
    (room : Nat) (cells : List Bool) :
    readNibbles (nibbles.length + room) (nibbles.flatMap byteCells ++ cells) =
      ((readNibbles room cells).1, nibbles ++ (readNibbles room cells).2) := by
  induction nibbles with
  | nil => rw [List.length_nil, Nat.zero_add]; rfl
  | cons v nibbles ih =>
    rw [List.forall_mem_cons] at hhigh
    have hroom : (v :: nibbles).length + room = nibbles.length + room + 1 := by
      rw [List.length_cons]
      omega
    rw [List.flatMap_cons, List.append_assoc, hroom, readNibbles_byteCells _ hhigh.1,
      ih hhigh.2]
    rfl

/-- A nibble takes up eight cells at least. -/
theorem length_le_cellCount (emitted : List (UInt8 × Bool)) :
    8 * emitted.length ≤ (emitted.map fun e => cellCount e.2).sum := by
  induction emitted with
  | nil => exact Nat.le_refl 0
  | cons e emitted ih =>
    have hcount : 8 ≤ cellCount e.2 := by
      rw [cellCount]
      split <;> decide
    rw [List.map_cons, List.sum_cons, List.length_cons]
    omega

/-- And ten at most. -/
theorem sum_cellCount_le (emitted : List (UInt8 × Bool)) :
    (emitted.map fun e => cellCount e.2).sum ≤ 10 * emitted.length := by
  induction emitted with
  | nil => exact Nat.le_refl 0
  | cons e emitted ih =>
    have hcount : cellCount e.2 ≤ 10 := by
      rw [cellCount]
      split <;> decide
    rw [List.map_cons, List.sum_cons, List.length_cons]
    omega

/-- **What is laid down as cells is read back as nibbles**, if every nibble
has its high bit set and both buffers hold what they are given. -/
theorem bitsToNibbles_nibblesToBits {nibbles : List UInt8}
    {syncMask : Option (List UInt8)} (bits : Nat → UInt8)
    {maxBits maxNibbles total : Nat}
    (hemitted : (walkSyncRuns nibbles syncMask).map Prod.fst = nibbles)
    (hhigh : ∀ v ∈ nibbles, v &&& 0x80 ≠ 0)
    (htotal : ((walkSyncRuns nibbles syncMask).map fun e => cellCount e.2).sum
      = total)
    (hbits : total ≤ maxBits) (hwrap : total + 7 < 2 ^ 32)
    (hnibbles : nibbles.length ≤ maxNibbles) :
    ∃ bits', diskEncodingNibblesToBits nibbles syncMask bits maxBits
        = .ok (bits', total)
      ∧ diskEncodingBitsToNibbles bits' total maxNibbles = (.none, nibbles) := by
  have hlength : (walkSyncRuns nibbles syncMask).length = nibbles.length := by
    rw [← List.length_map Prod.fst, hemitted]
  have hcells := length_le_cellCount (walkSyncRuns nibbles syncMask)
  rw [htotal, hlength] at hcells
  refine ⟨layCells (walkSyncRuns nibbles syncMask) 0 (pokes bits 0
    (List.replicate ((total + 7) / 8) 0)), ?_, ?_⟩
  · rw [diskEncodingNibblesToBits, if_neg (by omega)]
    dsimp only
    rw [htotal, Nat.mod_eq_of_lt (by omega), if_neg (by omega),
      Nat.mod_eq_of_lt (by omega)]
  -- a nibble has its high bit set, so the reader meets it at its first cell, and the cells between
  -- two nibbles are blank
  · have hlaid := @cellAt_layCells (walkSyncRuns nibbles syncMask) _ _ _
      (blank_zeros bits ((total + 7) / 8)) (by omega) (by omega)
    have hpeeks := holds_iff_peeks.mp (holds_pokes (cellAt (pokes bits 0
      (List.replicate ((total + 7) / 8) 0)))
      ((walkSyncRuns nibbles syncMask).flatMap emittedCells) 0)
    have hcount : ((walkSyncRuns nibbles syncMask).flatMap emittedCells).length
        = total := by
      rw [List.length_flatMap, ← htotal]
      simp only [length_emittedCells]
    rw [hcount] at hpeeks
    rw [diskEncodingBitsToNibbles, hlaid, hpeeks, readNibbles_emittedCells ?_ ?_,
      hemitted]
    · intro e he
      refine hhigh e.1 ?_
      rw [← hemitted]
      exact List.mem_map_of_mem he
    · rwa [hlength]

end ReadBack

end LinApple.Disk
