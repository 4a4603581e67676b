import Mathlib.Tactic.IntervalCases
import LinApple.Cards.Clock
import LinApple.Cpu.Programs

/-!
# The firmware of the clock card

ProDOS calls the card at `$Cn08`, and finds the time in the buffer at `$0200`: for each of the five
numbers its two digits, and a comma. The card's ROM is a program of the 6502; here it is executed
by the processor as the emulator has it (`read_time`), in a machine with the card in one of its
slots.
-/

namespace LinApple.Cards

open LinApple.Cpu

/-! ## The program -/

/-- `clock_rom`, up to where it is zero. -/
def clockRom : List UInt8 :=
  [ 0x08, 0x90, 0x28, 0xb0, 0x58, 0x00, 0x70, 0x00, 0xea, 0xea, 0xa9, 0x60,
    0xa0, 0x00, 0xea, 0xea, 0xea, 0xea, 0xea, 0xea, 0xea, 0xea, 0xea, 0xea,
    0xea, 0xea, 0xea, 0xb9, 0x8f, 0xc0, 0xa2, 0x00, 0xf0, 0x0b, 0x00, 0x00,
    0x00, 0x00, 0x00, 0x00, 0x00, 0x00, 0x00, 0x28, 0x60, 0xb9, 0x80, 0xc0,
    0xc8, 0x09, 0xb0, 0x9d, 0x00, 0x02, 0xe8, 0xb9, 0x80, 0xc0, 0xc8, 0x09,
    0xb0, 0x9d, 0x00, 0x02, 0xe8, 0xa9, 0xac, 0x9d, 0x00, 0x02, 0xe8, 0x98,
    0x29, 0x0f, 0xc9, 0x0a, 0x90, 0xdf, 0xa9, 0x80, 0x9d, 0xff, 0x01, 0x60,
    0x00, 0x00, 0x00, 0x00, 0x00, 0x00, 0x00, 0x00, 0x00, 0xb0, 0xcc ]

/-- **The ROM of a card in a slot**, which knows its registers' offset. -/
def slotRom (slot : Fin 8) : List UInt8 :=
  (clockRom ++ List.replicate 161 0).set 0x0D (UInt8.ofNat (0x10 * slot.val))

/-- An address of the slot's page. -/
def romAddr (slot : Fin 8) (i : Nat) : UInt16 := UInt16.ofNat (0xC000 + 0x100 * slot.val + i)

/-- The address of a register. -/
def registerAddr (slot : Fin 8) (r : Nat) : UInt16 := UInt16.ofNat (0xC080 + 0x10 * slot.val + r)

/-- **What the firmware sees**: the card, the host's time, and the memory below `$0300`. -/
structure ClockView where
  /-- The card. -/
  card : ClockCard
  /-- The time the host would give. -/
  now : Option HostLocalTime
  /-- The memory. -/
  ram : Nat → UInt8

/-- A byte is stored. -/
def ClockView.store (v : ClockView) (i : Nat) (b : UInt8) : ClockView :=
  { v with ram := Function.update v.ram i b }

/-- The time is taken over. -/
def ClockView.strobe (v : ClockView) : ClockView := { v with card := v.card.updateLatches v.now }

variable {W : Type*} {bus : Bus W}

/-- **The machine has the card in a slot.** -/
structure ClockSlot (E : Setting bus ClockView) (slot : Fin 8) : Prop where
  /-- The slot's page has the ROM. -/
  rom : ∀ v, E.Code v (romAddr slot 0) (slotRom slot)
  /-- The digits can be read. -/
  digit : ∀ (v : ClockView) (r : Fin 10), E.Reads v (registerAddr slot r) (v.card.latches r) v
  /-- A read of the last register takes the time over. -/
  strobe : ∀ v : ClockView, E.Touches v (registerAddr slot 15) v.strobe
  /-- The buffer can be written. -/
  store : ∀ (v : ClockView) (i : Fin 256) (b : UInt8),
    E.Writes v (UInt16.ofNat (0x200 + i.val)) b (v.store (0x200 + i.val) b)
  /-- The memory can be read. -/
  ram : ∀ (v : ClockView) (i : Nat), i < 0x300 → E.Shows v i (v.ram i)

/-! ## Addresses -/

theorem romAddr_add (slot : Fin 8) (i k : Nat) :
    romAddr slot i + UInt16.ofNat k = romAddr slot (i + k) := by
  unfold romAddr
  rw [← UInt16.ofNat_add, Nat.add_assoc]

theorem toNat_romAddr (slot : Fin 8) {i : Nat} (hi : i < 256) :
    (romAddr slot i).toNat = 0xC000 + 0x100 * slot.val + i := by
  unfold romAddr
  rw [UInt16.toNat_ofNat']
  exact Nat.mod_eq_of_lt (by omega)

theorem toNat_romAddr_succ (slot : Fin 8) {i : Nat} (hi : i + 1 < 256) :
    (romAddr slot i + 1).toNat = (romAddr slot i).toNat + 1 := by
  have hsucc : romAddr slot i + 1 = romAddr slot (i + 1) := romAddr_add slot i 1
  rw [hsucc, toNat_romAddr slot hi, toNat_romAddr slot (by omega)]
  rfl

/-- A register is as far behind `$C080` as Y says. -/
theorem registerAddr_eq (slot : Fin 8) {r : Nat} (hr : r < 16) :
    Byte.word 0x80 0xC0 + (UInt8.ofNat (0x10 * slot.val + r)).toUInt16 = registerAddr slot r := by
  have hword : (Byte.word 0x80 0xC0).toNat = 0xC080 := rfl
  apply UInt16.toNat_inj.1
  unfold registerAddr
  rw [UInt16.toNat_add, hword, UInt8.toNat_toUInt16, UInt8.toNat_ofNat', UInt16.toNat_ofNat']
  omega

theorem strobeAddr_eq (slot : Fin 8) :
    Byte.word 0x8F 0xC0 + (UInt8.ofNat (0x10 * slot.val)).toUInt16 = registerAddr slot 15 := by
  have hword : (Byte.word 0x8F 0xC0).toNat = 0xC08F := rfl
  apply UInt16.toNat_inj.1
  unfold registerAddr
  rw [UInt16.toNat_add, hword, UInt8.toNat_toUInt16, UInt8.toNat_ofNat', UInt16.toNat_ofNat']
  omega

/-- The buffer is as far behind `$0200` as X says. -/
theorem bufferAddr_eq {n : Nat} (hn : n < 256) :
    Byte.word 0x00 0x02 + (UInt8.ofNat n).toUInt16 = UInt16.ofNat (0x200 + n) := by
  have hword : (Byte.word 0x00 0x02).toNat = 0x200 := rfl
  apply UInt16.toNat_inj.1
  rw [UInt16.toNat_add, hword, UInt8.toNat_toUInt16, UInt8.toNat_ofNat', UInt16.toNat_ofNat']
  omega

/-! ## The loop -/

section Firmware

variable {E : Setting bus ClockView} {slot : Fin 8} {cmos : Bool}

/-- A part of the ROM. -/
theorem ClockSlot.code (h : ClockSlot E slot) (v : ClockView) {i : Nat} (hi : i < 256)
    {part rest : List UInt8} (hpart : (slotRom slot).drop i = part ++ rest) :
    E.Code v (romAddr slot i) part := by
  have hpc : romAddr slot 0 + UInt16.ofNat i = romAddr slot i := by
    rw [romAddr_add, Nat.zero_add]
  have hcode := (h.rom v).part hpart (by
    rw [hpc, toNat_romAddr slot hi, toNat_romAddr slot (by decide)]
    rfl)
  rwa [hpc] at hcode

/-- The processor at a place of the ROM: X is as far in the buffer, and Y at a register. -/
abbrev inRom (slot : Fin 8) (i : Nat) (a : UInt8) (x y : Nat) (sp : UInt16) (c z : UInt8)
    (v : ClockView) : Picture ClockView :=
  ⟨a, UInt8.ofNat x, UInt8.ofNat (0x10 * slot.val + y), romAddr slot i, sp, c, z, v⟩

/-- An index is incremented. -/
theorem ofNat_add_one (n : Nat) : UInt8.ofNat n + 1 = UInt8.ofNat (n + 1) :=
  (UInt8.ofNat_add n 1).symm

variable {a c z : UInt8} {sp : UInt16} {x y : Nat} {v : ClockView} {i : Nat}

theorem ClockSlot.goes_inx (hcode : E.Code v (romAddr slot i) [0xE8]) :
    E.Goes cmos 1 (inRom slot i a x y sp c z v)
      (inRom slot (i + 1) a (x + 1) y sp c (zeroOf (UInt8.ofNat (x + 1)).toUInt16) v) := by
  unfold inRom
  rw [← ofNat_add_one]
  exact Cpu.goes_inx hcode (romAddr_add slot i 1)

theorem ClockSlot.goes_iny (hcode : E.Code v (romAddr slot i) [0xC8]) :
    E.Goes cmos 1 (inRom slot i a x y sp c z v) (inRom slot (i + 1) a x (y + 1) sp c
      (zeroOf (UInt8.ofNat (0x10 * slot.val + (y + 1))).toUInt16) v) := by
  unfold inRom
  rw [← Nat.add_assoc, ← ofNat_add_one]
  exact Cpu.goes_iny hcode (romAddr_add slot i 1)

/-- A byte is put into the buffer. -/
theorem ClockSlot.goes_store (h : ClockSlot E slot) (hi : i + 1 < 256)
    (hcode : E.Code v (romAddr slot i) [0x9D, 0x00, 0x02]) (hx : x < 256) :
    E.Goes cmos 1 (inRom slot i a x y sp c z v)
      (inRom slot (i + 3) a x y sp c z (v.store (0x200 + x) a)) := by
  refine goes_sta_absx hcode (toNat_romAddr_succ slot hi) (romAddr_add slot i 3) ?_
  rw [bufferAddr_eq hx]
  exact h.store v ⟨x, hx⟩ a

/-- A digit is read. -/
theorem ClockSlot.goes_load (h : ClockSlot E slot) (hi : i + 1 < 256)
    (hcode : E.Code v (romAddr slot i) [0xB9, 0x80, 0xC0]) (r : Fin 10) :
    E.Goes cmos 1 (inRom slot i a x r sp c z v)
      (inRom slot (i + 3) (v.card.latches r) x r sp c (zeroOf (v.card.latches r).toUInt16) v) := by
  refine goes_lda_absy hcode (toNat_romAddr_succ slot hi) (romAddr_add slot i 3) ?_
  rw [registerAddr_eq slot (by omega)]
  exact h.digit v r

/-- **A digit is written down.** -/
theorem ClockSlot.goes_digit (h : ClockSlot E slot) (hi : i + 10 < 256) {rest : List UInt8}
    (hpart : (slotRom slot).drop i
      = [0xB9, 0x80, 0xC0, 0xC8, 0x09, 0xB0, 0x9D, 0x00, 0x02, 0xE8] ++ rest)
    (r : Fin 10) (hx : x < 256) :
    E.Goes cmos 5 (inRom slot i a x r sp c z v)
      (inRom slot (i + 10) (v.card.latches r ||| 0xB0) (x + 1) (r + 1) sp c
        (zeroOf (UInt8.ofNat (x + 1)).toUInt16)
        (v.store (0x200 + x) (v.card.latches r ||| 0xB0))) := by
  have hcode (w : ClockView) {k : Nat} (hk : i + k < 256) {part after : List UInt8}
      (hat : ([0xB9, 0x80, 0xC0, 0xC8, 0x09, 0xB0, 0x9D, 0x00, 0x02, 0xE8] ++ rest).drop k
        = part ++ after) : E.Code w (romAddr slot (i + k)) part := by
    have hdrop : (slotRom slot).drop (i + k) = part ++ after := by
      rw [← List.drop_drop, hpart, hat]
    exact h.code w hk hdrop
  have hload : E.Goes cmos 1 (inRom slot i a x r sp c z v) _ :=
    h.goes_load (by omega) (hcode v (k := 0) (by omega) rfl) r
  have hora : E.Goes cmos 1 (inRom slot (i + 4) (v.card.latches r) x (r + 1) sp c
      (zeroOf (UInt8.ofNat (0x10 * slot.val + (r + 1))).toUInt16) v) (inRom slot (i + 6) _ x (r + 1) sp c _ v) :=
    goes_ora_imm (hcode v (k := 4) (by omega) rfl) (romAddr_add slot (i + 4) 2)
  exact hload.trans ((goes_iny (hcode v (k := 3) (by omega) rfl)).trans (hora.trans
    ((h.goes_store (by omega) (hcode v (k := 6) (by omega) rfl) hx).trans
      (goes_inx (hcode _ (k := 9) (by omega) rfl)))))

/-- A latch by its number. -/
def latchAt (latches : Fin 10 → UInt8) (i : Nat) : UInt8 :=
  if h : i < 10 then latches ⟨i, h⟩ else 0

theorem latchAt_of_lt (latches : Fin 10 → UInt8) {i : Nat} (h : i < 10) :
    latchAt latches i = latches ⟨i, h⟩ :=
  dif_pos h

/-- What the loop writes into the buffer: digits, and a comma behind every two. -/
def rawByte (latches : Fin 10 → UInt8) (n : Nat) : UInt8 :=
  if n % 3 = 2 then 0xAC else latchAt latches (2 * (n / 3) + n % 3) ||| 0xB0

/-- So many bytes have been written. -/
def ClockView.written (v : ClockView) (n : Nat) : ClockView :=
  { v with ram := fun i =>
      if 0x200 ≤ i ∧ i < 0x200 + n then rawByte v.card.latches (i - 0x200) else v.ram i }

/-- The next one is written. -/
theorem written_store (v : ClockView) (n : Nat) :
    (v.written n).store (0x200 + n) (rawByte v.card.latches n) = v.written (n + 1) := by
  unfold ClockView.store ClockView.written
  congr 1
  funext i
  by_cases hi : i = 0x200 + n
  · rw [hi, Function.update_self, if_pos (by omega), Nat.add_sub_cancel_left]
  · rw [Function.update_of_ne hi]
    dsimp only
    by_cases hbefore : 0x200 ≤ i ∧ i < 0x200 + n
    · rw [if_pos hbefore, if_pos (by omega)]
    · rw [if_neg hbefore, if_neg (by omega)]

/-- Where the loop goes after a number. -/
theorem branch_loop (slot : Fin 8) {k : Nat} (hk : k < 5) :
    (if bit ((UInt8.ofNat (0x10 * slot.val + (2 * k + 2)) &&& 0x0F).toUInt16 ≥ (0x0A : UInt8).toUInt16)
        == 0 then romAddr slot 0x4C + 2 + signExtend 0xDF else romAddr slot 0x4C + 2)
      = romAddr slot (if k = 4 then 0x4E else 0x2D) := by
  have hall : ∀ (slot : Fin 8) (k : Fin 5),
      (if bit ((UInt8.ofNat (0x10 * slot.val + (2 * k.val + 2)) &&& 0x0F).toUInt16
          ≥ (0x0A : UInt8).toUInt16) == 0 then romAddr slot 0x4C + 2 + signExtend 0xDF
        else romAddr slot 0x4C + 2) = romAddr slot (if k.val = 4 then 0x4E else 0x2D) := by
    decide
  exact hall slot ⟨k, hk⟩

variable (cmos a c z sp v) in
/-- **A number is written down.** -/
theorem ClockSlot.goes_number (h : ClockSlot E slot) {k : Nat} (hk : k < 5) :
    ∃ a' c' z', E.Goes cmos 17
      (inRom slot 0x2D a (3 * k) (2 * k) sp c z (v.written (3 * k)))
      (inRom slot (if k = 4 then 0x4E else 0x2D) a' (3 * (k + 1)) (2 * (k + 1)) sp c' z'
        (v.written (3 * (k + 1)))) := by
  have hbyte (j : Nat) (hj : j < 2) : rawByte v.card.latches (3 * k + j)
      = v.card.latches ⟨2 * k + j, by omega⟩ ||| 0xB0 := by
    have hindex : 2 * ((3 * k + j) / 3) + (3 * k + j) % 3 = 2 * k + j := by omega
    unfold rawByte
    rw [if_neg (by omega), hindex, latchAt_of_lt]
  have hfirst : rawByte v.card.latches (3 * k) = _ := hbyte 0 (by decide)
  have hsecond : rawByte v.card.latches (3 * k + 1) = _ := hbyte 1 (by decide)
  have hcomma : rawByte v.card.latches (3 * k + 2) = 0xAC := if_pos (by omega)
  -- one turn of the loop, instruction by instruction: two digits, the comma, then the test
  have htens : E.Goes cmos 5
      (inRom slot 0x2D a (3 * k) (2 * k) sp c z (v.written (3 * k)))
      (inRom slot 0x37 (rawByte v.card.latches (3 * k)) (3 * k + 1) (2 * k + 1) sp c
        (zeroOf (UInt8.ofNat (3 * k + 1)).toUInt16) (v.written (3 * k + 1))) := by
    rw [← written_store v (3 * k), hfirst]
    exact h.goes_digit (i := 0x2D) (by decide) rfl ⟨2 * k, by omega⟩ (by omega)
  have hones (a z : UInt8) : E.Goes cmos 5
      (inRom slot 0x37 a (3 * k + 1) (2 * k + 1) sp c z (v.written (3 * k + 1)))
      (inRom slot 0x41 (rawByte v.card.latches (3 * k + 1)) (3 * k + 2) (2 * k + 2) sp c
        (zeroOf (UInt8.ofNat (3 * k + 2)).toUInt16) (v.written (3 * k + 2))) := by
    rw [← written_store v (3 * k + 1), hsecond]
    exact h.goes_digit (i := 0x37) (by decide) rfl ⟨2 * k + 1, by omega⟩ (by omega)
  have hlda (a z : UInt8) : E.Goes cmos 1
      (inRom slot 0x41 a (3 * k + 2) (2 * k + 2) sp c z (v.written (3 * k + 2)))
      (inRom slot 0x43 0xAC (3 * k + 2) (2 * k + 2) sp c _ (v.written (3 * k + 2))) :=
    goes_lda_imm (h.code _ (by decide) rfl) (romAddr_add slot 0x41 2)
  have hsta (z : UInt8) : E.Goes cmos 1
      (inRom slot 0x43 0xAC (3 * k + 2) (2 * k + 2) sp c z (v.written (3 * k + 2)))
      (inRom slot 0x46 0xAC (3 * k + 2) (2 * k + 2) sp c z (v.written (3 * k + 3))) := by
    rw [← written_store v (3 * k + 2), hcomma]
    exact h.goes_store (by decide) (h.code _ (by decide) rfl) (by omega)
  have hinx (z : UInt8) : E.Goes cmos 1
      (inRom slot 0x46 0xAC (3 * k + 2) (2 * k + 2) sp c z (v.written (3 * k + 3)))
      (inRom slot 0x47 0xAC (3 * k + 3) (2 * k + 2) sp c _ (v.written (3 * k + 3))) :=
    goes_inx (h.code _ (by decide) rfl)
  have htya (z : UInt8) : E.Goes cmos 1
      (inRom slot 0x47 0xAC (3 * k + 3) (2 * k + 2) sp c z (v.written (3 * k + 3)))
      (inRom slot 0x48 (UInt8.ofNat (0x10 * slot.val + (2 * k + 2))) (3 * k + 3) (2 * k + 2) sp c _
        (v.written (3 * k + 3))) :=
    goes_tya (h.code _ (by decide) rfl) (romAddr_add slot 0x47 1)
  have hand (a z : UInt8) : E.Goes cmos 1
      (inRom slot 0x48 a (3 * k + 3) (2 * k + 2) sp c z (v.written (3 * k + 3)))
      (inRom slot 0x4A (a &&& 0x0F) (3 * k + 3) (2 * k + 2) sp c _ (v.written (3 * k + 3))) :=
    goes_and_imm (h.code _ (by decide) rfl) (romAddr_add slot 0x48 2)
  have hcmp (a z : UInt8) : E.Goes cmos 1
      (inRom slot 0x4A a (3 * k + 3) (2 * k + 2) sp c z (v.written (3 * k + 3)))
      (inRom slot 0x4C a (3 * k + 3) (2 * k + 2) sp (bit (a.toUInt16 ≥ (0x0A : UInt8).toUInt16)) _
        (v.written (3 * k + 3))) :=
    goes_cmp_imm (h.code _ (by decide) rfl) (romAddr_add slot 0x4A 2)
  have hbcc (z : UInt8) : E.Goes cmos 1
      (inRom slot 0x4C (UInt8.ofNat (0x10 * slot.val + (2 * k + 2)) &&& 0x0F) (3 * k + 3) (2 * k + 2)
        sp (bit ((UInt8.ofNat (0x10 * slot.val + (2 * k + 2)) &&& 0x0F).toUInt16
          ≥ (0x0A : UInt8).toUInt16)) z (v.written (3 * k + 3)))
      (inRom slot (if k = 4 then 0x4E else 0x2D) _ (3 * k + 3) (2 * k + 2) sp _ z
        (v.written (3 * k + 3))) :=
    goes_bcc (h.code _ (by decide) rfl) (toNat_romAddr_succ slot (by decide)) (branch_loop slot hk)
  exact ⟨_, _, _, htens.trans ((hones _ _).trans ((hlda _ _).trans ((hsta _).trans ((hinx _).trans
    ((htya _).trans ((hand _ _).trans ((hcmp _ _).trans (hbcc _))))))))⟩

/-- **The loop writes all numbers down.** -/
theorem ClockSlot.goes_numbers (h : ClockSlot E slot) : ∃ a' c' z', E.Goes cmos 85
    (inRom slot 0x2D a 0 0 sp c z v) (inRom slot 0x4E a' 15 10 sp c' z' (v.written 15)) := by
  have hhead (k : Nat) (hk : k < 5) : ∃ a' c' z', E.Goes cmos (17 * k)
      (inRom slot 0x2D a 0 0 sp c z v)
      (inRom slot 0x2D a' (3 * k) (2 * k) sp c' z' (v.written (3 * k))) := by
    induction k with
    | zero =>
      have hnone : v.written (3 * 0) = v := by
        unfold ClockView.written
        congr 1
        funext i
        exact if_neg (by omega)
      rw [hnone]
      exact ⟨a, c, z, .refl _⟩
    | succ k ih =>
      obtain ⟨a₁, c₁, z₁, hgoes⟩ := ih (by omega)
      obtain ⟨a₂, c₂, z₂, hnumber⟩ := h.goes_number cmos a₁ c₁ z₁ sp v (show k < 5 by omega)
      rw [if_neg (by omega)] at hnumber
      exact ⟨a₂, c₂, z₂, hgoes.trans hnumber⟩
  obtain ⟨a₁, c₁, z₁, hgoes⟩ := hhead 4 (by decide)
  obtain ⟨a₂, c₂, z₂, hnumber⟩ := h.goes_number cmos a₁ c₁ z₁ sp v (show 4 < 5 by decide)
  exact ⟨a₂, c₂, z₂, hgoes.trans hnumber⟩

/-! ## The call -/

/-- What the firmware leaves in the buffer: the last comma is replaced. -/
def textByte (latches : Fin 10 → UInt8) (n : Nat) : UInt8 :=
  if n = 14 then 0x80 else rawByte latches n

/-- What is seen when the firmware has done. -/
def ClockView.read (v : ClockView) : ClockView :=
  { v.strobe with ram := fun i =>
      if 0x200 ≤ i ∧ i < 0x20F then textByte v.strobe.card.latches (i - 0x200) else v.ram i }

theorem store_written (v : ClockView) : (v.strobe.written 15).store (0x200 + 14) 0x80 = v.read := by
  unfold ClockView.store ClockView.written ClockView.read
  congr 1
  funext i
  by_cases hi : i = 0x200 + 14
  · rw [hi, Function.update_self, if_pos (by decide)]
    rfl
  · rw [Function.update_of_ne hi]
    dsimp only
    by_cases hbuffer : 0x200 ≤ i ∧ i < 0x200 + 15
    · rw [if_pos hbuffer, if_pos (by omega), textByte, if_neg (by omega)]
    · rw [if_neg hbuffer, if_neg (by omega)]
      rfl

variable (cmos) in
/-- Up to where the time is taken over. -/
theorem ClockSlot.goes_entry (h : ClockSlot E slot) (x y : UInt8) :
    E.Goes cmos 17 ⟨a, x, y, romAddr slot 0x08, sp, c, z, v⟩
      ⟨0x60, x, UInt8.ofNat (0x10 * slot.val), romAddr slot 0x1B, sp, c,
        zeroOf (UInt8.ofNat (0x10 * slot.val)).toUInt16, v⟩ := by
  have hnops (m n : Nat) (hcode : ∀ k < n, E.Code v (romAddr slot (m + k)) [0xEA])
      (a y z : UInt8) : E.Goes cmos n ⟨a, x, y, romAddr slot m, sp, c, z, v⟩
        ⟨a, x, y, romAddr slot (m + n), sp, c, z, v⟩ := by
    rw [← romAddr_add]
    refine goes_nops (p := ⟨a, x, y, romAddr slot m, sp, c, z, v⟩) fun k hk => ?_
    rw [romAddr_add]
    exact hcode k hk
  have hfirst := hnops 0x08 2 (fun k hk => by interval_cases k <;> exact h.code v (by decide) rfl)
    a y z
  have hsled := hnops 0x0E 13 (fun k hk => by interval_cases k <;> exact h.code v (by decide) rfl)
    0x60 (UInt8.ofNat (0x10 * slot.val)) (zeroOf (UInt8.ofNat (0x10 * slot.val)).toUInt16)
  have hlda : E.Goes cmos 1 ⟨a, x, y, romAddr slot 0x0A, sp, c, z, v⟩
      ⟨0x60, x, y, romAddr slot 0x0C, sp, c, _, v⟩ :=
    goes_lda_imm (h.code v (by decide) rfl) (romAddr_add slot 0x0A 2)
  have hldy (z : UInt8) : E.Goes cmos 1 ⟨0x60, x, y, romAddr slot 0x0C, sp, c, z, v⟩
      ⟨0x60, x, UInt8.ofNat (0x10 * slot.val), romAddr slot 0x0E, sp, c, _, v⟩ :=
    goes_ldy_imm (h.code v (by decide) rfl) (romAddr_add slot 0x0C 2)
  exact hfirst.trans (hlda.trans ((hldy _).trans hsled))

variable (cmos) in
/-- From where the time has been taken over. -/
theorem ClockSlot.exists_goes_return (h : ClockSlot E slot) (x low high : UInt8)
    (hlow : E.Shows v.read (popSp sp).toNat low)
    (hhigh : E.Shows v.read (popSp (popSp sp)).toNat high) :
    ∃ a' c' z', E.Goes cmos 90
      ⟨a, x, UInt8.ofNat (0x10 * slot.val), romAddr slot 0x1E, sp, c, z, v.strobe⟩
      ⟨a', 15, UInt8.ofNat (0x10 * slot.val + 10), Byte.word low high + 1, popSp (popSp sp), c', z',
        v.read⟩ := by
  obtain ⟨a₁, c₁, z₁, hloop⟩ : ∃ a' c' z', E.Goes cmos 85
      (inRom slot 0x2D a 0 0 sp c 1 v.strobe)
      (inRom slot 0x4E a' 15 10 sp c' z' (v.strobe.written 15)) := h.goes_numbers
  have htaken : romAddr slot 0x20 + UInt16.ofNat 2 + UInt16.ofNat 0x0B = romAddr slot 0x2D := by
    rw [romAddr_add, romAddr_add]
  have hldx : E.Goes cmos 1
      ⟨a, x, UInt8.ofNat (0x10 * slot.val), romAddr slot 0x1E, sp, c, z, v.strobe⟩
      (inRom slot 0x20 a 0 0 sp c 1 v.strobe) :=
    goes_ldx_imm (h.code v.strobe (by decide) rfl) (romAddr_add slot 0x1E 2)
  have hbeq : E.Goes cmos 1 (inRom slot 0x20 a 0 0 sp c 1 v.strobe)
      (inRom slot 0x2D a 0 0 sp c 1 v.strobe) :=
    goes_beq (h.code v.strobe (by decide) rfl) (toNat_romAddr_succ slot (by decide)) htaken
  have hlda : E.Goes cmos 1 (inRom slot 0x4E a₁ 15 10 sp c₁ z₁ (v.strobe.written 15))
      (inRom slot 0x50 0x80 15 10 sp c₁ _ (v.strobe.written 15)) :=
    goes_lda_imm (h.code _ (by decide) rfl) (romAddr_add slot 0x4E 2)
  have hsta (z : UInt8) : E.Goes cmos 1
      (inRom slot 0x50 0x80 15 10 sp c₁ z (v.strobe.written 15))
      (inRom slot 0x53 0x80 15 10 sp c₁ z v.read) := by
    rw [← store_written]
    exact goes_sta_absx (h.code _ (by decide) rfl) (toNat_romAddr_succ slot (by decide))
      (romAddr_add slot 0x50 3) (h.store _ 14 0x80)
  have hrts (z : UInt8) : E.Goes cmos 1 (inRom slot 0x53 0x80 15 10 sp c₁ z v.read)
      ⟨0x80, 15, _, Byte.word low high + 1, popSp (popSp sp), c₁, z, v.read⟩ :=
    goes_rts (h.code _ (by decide) rfl) hlow hhigh
  exact ⟨_, _, _, hldx.trans (hbeq.trans (hloop.trans (hlda.trans ((hsta _).trans (hrts _)))))⟩

variable (cmos) in
/-- **The firmware writes the time down, and goes back.** The card is called at its entry, with an
address to go back to on the stack; 108 instructions later the time is in the buffer, and the
processor behind where it was called. -/
theorem ClockSlot.read_time (h : ClockSlot E slot) {x y low high : UInt8} (hsp : OnStack sp)
    (hlow : v.ram (popSp sp).toNat = low) (hhigh : v.ram (popSp (popSp sp)).toNat = high)
    {s : CpuState W} (hs : E.Pictures s ⟨a, x, y, romAddr slot 0x08, sp, c, z, v⟩) :
    ∃ q, E.Pictures ((CpuState.turn bus cmos)^[108] s) q ∧ q.pc = Byte.word low high + 1
      ∧ q.sp = popSp (popSp sp) ∧ q.view = v.read := by
  have hstrobe : E.Touches v (Byte.word 0x8F 0xC0 + (UInt8.ofNat (0x10 * slot.val)).toUInt16)
      v.strobe := by
    rw [strobeAddr_eq]
    exact h.strobe v
  have hstacked (sp : UInt16) (hsp : OnStack sp) : E.Shows v.read sp.toNat (v.ram sp.toNat) := by
    have hlt := (onStack_iff.1 hsp).2
    have hkept : v.read.ram sp.toNat = v.ram sp.toNat := if_neg (by omega)
    rw [← hkept]
    exact h.ram _ _ (by omega)
  obtain ⟨b, htaken⟩ := exists_lda_absy cmos (h.goes_entry cmos x y s hs)
    (h.code v (by decide) rfl) (toNat_romAddr_succ slot (by decide))
    (romAddr_add slot 0x1B 3) hstrobe
  obtain ⟨a', c', z', hreturn⟩ := h.exists_goes_return cmos x low high
    (hlow ▸ hstacked _ (onStack_popSp hsp)) (hhigh ▸ hstacked _ (onStack_popSp (onStack_popSp hsp)))
  have hall := hreturn _ htaken
  rw [← Function.iterate_succ_apply' (CpuState.turn bus cmos), ← Function.iterate_add_apply] at hall
  exact ⟨_, hall, rfl, rfl, rfl⟩

/-! ## The text -/

/-- A digit as an Apple II shows it. -/
def asciiDigit (n : Nat) : UInt8 := UInt8.ofNat (0xB0 + n)

/-- **A time as ProDOS reads it**: its numbers in two digits, with commas in between. -/
def HostLocalTime.text (t : HostLocalTime) (n : Nat) : UInt8 :=
  let value := [t.month, t.weekday, t.dayOfMonth, t.hour, t.minute].getD (n / 3) 0
  if n = 14 then 0x80
  else if n % 3 = 2 then 0xAC
  else if n % 3 = 0 then asciiDigit (value.toNat % 100 / 10)
  else asciiDigit (value.toNat % 100 % 10)

theorem digit_or {d : Nat} (hd : d < 10) : UInt8.ofNat d ||| 0xB0 = asciiDigit d := by
  interval_cases d <;> rfl

/-- **The digits of a time are written down as its text.** -/
theorem textByte_digits (t : HostLocalTime) {n : Nat} (hn : n < 15) :
    textByte t.digits n = t.text n := by
  unfold textByte rawByte HostLocalTime.text
  dsimp only
  by_cases hend : n = 14
  · rw [if_pos hend, if_pos hend]
  · rw [if_neg hend, if_neg hend]
    by_cases hcomma : n % 3 = 2
    · rw [if_pos hcomma, if_pos hcomma]
    · rw [if_neg hcomma, if_neg hcomma]
      rw [latchAt_of_lt _ (show 2 * (n / 3) + n % 3 < 10 by omega)]
      unfold HostLocalTime.digits
      dsimp only
      rw [show (2 * (n / 3) + n % 3) / 2 = n / 3 by omega,
        show (2 * (n / 3) + n % 3) % 2 = n % 3 by omega]
      split_ifs
      · exact digit_or (by omega)
      · exact digit_or (by omega)

end Firmware

end LinApple.Cards
