import LinApple.Cpu.Flags
import LinApple.Cpu.Timing
import LinApple.Lib.Bytes
import LinApple.Lib.Carry

/-!
# Decimal arithmetic

A byte holds two decimal digits. The NMOS processor corrects each of them by itself, the CMOS
processor lets the low one carry into the high one and corrects the byte; either way a byte of the
result and the carry are what the digits add up to. A chain of such instructions, whatever is
executed between two of them as long as the carry is kept, then adds or subtracts numbers of any
length.

One instruction is a statement about two bytes and a carry, and so about finitely many cases. It
is not proved by trying them. The corrections are read as arithmetic on the two digits, with a
case for each way a digit can run over, and what comes out is an equation between numbers (`Sums`
for addition, and its counterpart for subtraction), from which the chain can go on.

A `Chain` is a list of additions with what stands between two of them left open. Where the bytes
come from and where the results are stored is the program's affair: it may use any addressing
mode, a loop or straight code, and may do other things as well. What it may not do is lose the
carry, and it has to be in decimal mode at each addition. So the chain asks for that alone, and
the bytes are those that each addition finds in the accumulator and at its operand.

The results are read off the accumulator after each addition, as one number in base 100 with the
low byte first. A difference is the ten's complement that comes of it, and the carry is what a
longer number would go on with. The flags of sign and zero are those of each byte; the overflow
means nothing in decimal mode and is left out.
-/

namespace LinApple.Cpu

/-! ## Two digits in a byte -/

/-- The number two digits in a byte stand for. -/
def packedValue (v : UInt8) : ℕ := 10 * (v.toNat / 16) + v.toNat % 16

/-- A byte with two decimal digits. What is computed of other bytes means no number, and is not
asked. -/
structure IsPacked (v : UInt8) : Prop where
  high : v.toNat / 16 < 10
  low : v.toNat % 16 < 10

theorem IsPacked.lt {v : UInt8} (h : IsPacked v) : packedValue v < 100 := by
  obtain ⟨hhigh, hlow⟩ := h
  unfold packedValue
  omega

/-- **A byte of a sum**, with its carry. -/
structure Sums (x y c : ℕ) (r : Arithmetic) : Prop where
  isPacked : IsPacked r.a
  carry : IsCarry r.flagc
  sum : x + y + c = packedValue r.a + 100 * r.flagc.toNat

/-- Two digits and a carry that say what the sum comes to. -/
theorem Sums.of_digits {x y c high low : ℕ} {r : Arithmetic} (ha : r.a.toNat = high * 16 + low)
    (hhigh : high < 10) (hlow : low < 10) (hcarry : IsCarry r.flagc)
    (hsum : x + y + c = 10 * high + low + 100 * r.flagc.toNat) : Sums x y c r := by
  have hdiv : r.a.toNat / 16 = high := by omega
  have hmod : r.a.toNat % 16 = low := by omega
  refine ⟨⟨hdiv ▸ hhigh, hmod ▸ hlow⟩, hcarry, ?_⟩
  rw [packedValue, hdiv, hmod]
  exact hsum

/-- **A digit of a sum and its carry**, and the sum as it is corrected. -/
theorem exists_digit {n : ℕ} (hn : n < 20) :
    ∃ carry digit, carry ≤ 1 ∧ digit < 10 ∧ n = 10 * carry + digit
      ∧ (if 9 < n then n + 6 else n) = 16 * carry + digit
      ∧ (if 9 < n then 1 else 0) = carry := by
  by_cases h : 9 < n
  · exact ⟨1, n - 10, le_refl _, by omega, by omega, by rw [if_pos h]; omega, if_pos h⟩
  · exact ⟨0, n, Nat.zero_le _, by omega, by omega, by rw [if_neg h]; omega, if_neg h⟩

/-- **A digit of a difference and its borrow**, and the difference as it is corrected. -/
theorem exists_borrow {m n : ℕ} (hm : m < 10) (hn : n ≤ 10) :
    ∃ borrows digit, borrows ≤ 1 ∧ digit < 10 ∧ m + 10 * borrows = n + digit
      ∧ (if n ≤ m then m - n else 65530 + m - n) = 65520 * borrows + digit
      ∧ (if n ≤ m then 0 else 1) = borrows := by
  by_cases h : n ≤ m
  · exact ⟨0, m - n, Nat.zero_le _, by omega, by omega, by rw [if_pos h]; omega, if_pos h⟩
  · exact ⟨1, m + 10 - n, le_refl _, by omega, by omega, by rw [if_neg h]; omega, if_neg h⟩

theorem IsCarry.toNat_le {c : UInt8} (h : IsCarry c) : c.toNat ≤ 1 := by
  rcases h with rfl | rfl <;> decide

theorem toNat_bit (p : Prop) [Decidable p] : (bit (decide p)).toNat = if p then 1 else 0 := by
  by_cases hp : p
  · rw [if_pos hp, decide_eq_true hp]
    rfl
  · rw [if_neg hp, decide_eq_false hp]
    rfl

section Digits

theorem toNat_and_low (v : UInt16) : (v &&& 0x0F).toNat = v.toNat % 16 := by
  rw [UInt16.toNat_and]
  exact Nat.and_two_pow_sub_one_eq_mod _ 4

theorem toNat_low (v : UInt8) : (v.toUInt16 &&& 0x0F).toNat = v.toNat % 16 :=
  toNat_and_low _

theorem toNat_high (v : UInt8) : (v.toUInt16 >>> 4).toNat = v.toNat / 16 := by
  rw [UInt16.toNat_shiftRight]
  exact Nat.shiftRight_eq_div_pow _ 4

theorem toNat_and_high (v : UInt8) : (v.toUInt16 &&& 0xF0).toNat = v.toNat / 16 * 16 := by
  revert v
  refine Byte.forall_byte ?_
  decide +kernel

/-- Two digits put in a byte. -/
theorem toNat_join (high low : UInt16) :
    ((high <<< 4) ||| (low &&& 0x0F)).toUInt8.toNat
      = high.toNat % 16 * 16 + low.toNat % 16 := by
  have hshift : (high <<< 4).toNat = (high.toNat % 4096) <<< 4 := by
    rw [UInt16.toNat_shiftLeft]
    show high.toNat <<< 4 % 2 ^ 16 = _
    rw [Nat.shiftLeft_eq, Nat.shiftLeft_eq]
    omega
  rw [UInt16.toNat_toUInt8, UInt16.toNat_or, toNat_and_low, hshift,
    ← Nat.shiftLeft_add_eq_or_of_lt (Nat.mod_lt _ (by decide)), Nat.shiftLeft_eq]
  omega

end Digits

/-! ## Addition -/

section Addition

variable (x y c : UInt16)

/-- A digit of `op_adc_nmos`, corrected if it is none. -/
def corrected (v : UInt16) : UInt16 := if v > 0x09 then v + 0x06 else v

theorem toNat_corrected {v : UInt16} (h : v.toNat < 100) :
    (corrected v).toNat = if 9 < v.toNat then v.toNat + 6 else v.toNat := by
  have hlt : v > 0x09 ↔ 9 < v.toNat := UInt16.lt_iff_toNat_lt
  unfold corrected
  split
  next hv =>
    rw [UInt16.toNat_add, if_pos (hlt.1 hv)]
    show (v.toNat + 6) % 65536 = _
    omega
  next hv => rw [if_neg (mt hlt.2 hv)]

/-- `low` of `op_adc_nmos` -/
def adcLow : UInt16 := corrected ((x &&& 0x0F) + (y &&& 0x0F) + c)

/-- `high` of `op_adc_nmos` -/
def adcHigh : UInt16 :=
  corrected ((x >>> 4) + (y >>> 4) + (if adcLow x y c > 0x0F then 1 else 0))

theorem adcNmosDecimal_a :
    (adcNmosDecimal x y c).a = ((adcHigh x y c <<< 4) ||| (adcLow x y c &&& 0x0F)).toUInt8 := rfl

theorem adcNmosDecimal_flagc :
    (adcNmosDecimal x y c).flagc = bit (adcHigh x y c > 0x0F) := by
  unfold adcNmosDecimal adcHigh adcLow corrected
  dsimp only

/-- What `op_adc_cmos` makes of the low digits. -/
def adcCmosLow : UInt16 :=
  let val := (x &&& 0x0F) + (y &&& 0x0F) + c
  if val ≥ 0x0A then 0x10 ||| ((val + 6) &&& 0x0F) else val

/-- `val` of `op_adc_cmos`, before it is corrected. -/
def adcCmosSum : UInt16 := adcCmosLow x y c + (x &&& 0xF0) + (y &&& 0xF0)

theorem adcCmosDecimal_eq :
    (adcCmosDecimal x y c).a
        = ((if adcCmosSum x y c ≥ 0xA0 then adcCmosSum x y c + 0x60 else adcCmosSum x y c)
          &&& 0xFF).toUInt8
      ∧ (adcCmosDecimal x y c).flagc = if adcCmosSum x y c ≥ 0xA0 then 1 else 0 := by
  show (if adcCmosSum x y c ≥ 0xA0 then _ else _ : Arithmetic).a = _
    ∧ (if adcCmosSum x y c ≥ 0xA0 then _ else _ : Arithmetic).flagc = _
  split
  · exact ⟨rfl, rfl⟩
  · exact ⟨rfl, rfl⟩

end Addition

section AdditionOfBytes

variable {x y c : UInt8}

theorem toNat_adcLow (hc : c.toNat ≤ 1) :
    (adcLow x.toUInt16 y.toUInt16 c.toUInt16).toNat
      = if 9 < x.toNat % 16 + y.toNat % 16 + c.toNat
        then x.toNat % 16 + y.toNat % 16 + c.toNat + 6
        else x.toNat % 16 + y.toNat % 16 + c.toNat := by
  have hsum : ((x.toUInt16 &&& 0x0F) + (y.toUInt16 &&& 0x0F) + c.toUInt16).toNat
      = x.toNat % 16 + y.toNat % 16 + c.toNat := by
    rw [UInt16.toNat_add, UInt16.toNat_add, toNat_low, toNat_low, UInt8.toNat_toUInt16]
    omega
  unfold adcLow
  rw [toNat_corrected (by omega), hsum]

theorem toNat_adcHigh (hx : IsPacked x) (hy : IsPacked y) (hc : c.toNat ≤ 1) :
    (adcHigh x.toUInt16 y.toUInt16 c.toUInt16).toNat
      = if 9 < x.toNat / 16 + y.toNat / 16
          + (if 9 < x.toNat % 16 + y.toNat % 16 + c.toNat then 1 else 0)
        then x.toNat / 16 + y.toNat / 16
          + (if 9 < x.toNat % 16 + y.toNat % 16 + c.toNat then 1 else 0) + 6
        else x.toNat / 16 + y.toNat / 16
          + (if 9 < x.toNat % 16 + y.toNat % 16 + c.toNat then 1 else 0) := by
  have hxhigh := hx.high
  have hyhigh := hy.high
  have hxlow := hx.low
  have hylow := hy.low
  have hcarries : adcLow x.toUInt16 y.toUInt16 c.toUInt16 > 0x0F
      ↔ 9 < x.toNat % 16 + y.toNat % 16 + c.toNat := by
    rw [gt_iff_lt, UInt16.lt_iff_toNat_lt, toNat_adcLow hc]
    show 15 < _ ↔ _
    split <;> omega
  have hsum : ((x.toUInt16 >>> 4) + (y.toUInt16 >>> 4)
        + (if adcLow x.toUInt16 y.toUInt16 c.toUInt16 > 0x0F then 1 else 0)).toNat
      = x.toNat / 16 + y.toNat / 16
        + (if 9 < x.toNat % 16 + y.toNat % 16 + c.toNat then 1 else 0) := by
    simp only [hcarries]
    rw [UInt16.toNat_add, UInt16.toNat_add, toNat_high, toNat_high, apply_ite UInt16.toNat]
    show (_ + if _ then 1 else 0) % 65536 = _
    split <;> omega
  unfold adcHigh
  rw [toNat_corrected (by rw [hsum]; split <;> omega), hsum]

/-- **`op_adc_nmos` adds two digits.** -/
theorem adcNmosDecimal_sums (hx : IsPacked x) (hy : IsPacked y) (hc : IsCarry c) :
    Sums (packedValue x) (packedValue y) c.toNat
      (adcNmosDecimal x.toUInt16 y.toUInt16 c.toUInt16) := by
  have hlow := toNat_adcLow (x := x) (y := y) hc.toNat_le
  have hhigh := toNat_adcHigh hx hy hc.toNat_le
  have hcn := hc.toNat_le
  obtain ⟨hxhigh, hxlow⟩ := hx
  obtain ⟨hyhigh, hylow⟩ := hy
  have hflagc : (adcNmosDecimal x.toUInt16 y.toUInt16 c.toUInt16).flagc.toNat
      = if 15 < (adcHigh x.toUInt16 y.toUInt16 c.toUInt16).toNat then 1 else 0 := by
    rw [adcNmosDecimal_flagc, toNat_bit]
    rfl
  have ha := toNat_join (adcHigh x.toUInt16 y.toUInt16 c.toUInt16)
    (adcLow x.toUInt16 y.toUInt16 c.toUInt16)
  rw [← adcNmosDecimal_a, hlow, hhigh] at ha
  rw [hhigh] at hflagc
  unfold packedValue
  obtain ⟨carryLow, low, hcl, hl, hsumLow, hvalLow, hbitLow⟩ :=
    exists_digit (n := x.toNat % 16 + y.toNat % 16 + c.toNat) (by omega)
  rw [hvalLow, hbitLow] at ha
  rw [hbitLow] at hflagc
  obtain ⟨carryHigh, high, hch, hh, hsumHigh, hvalHigh, -⟩ :=
    exists_digit (n := x.toNat / 16 + y.toNat / 16 + carryLow) (by omega)
  rw [hvalHigh] at ha hflagc
  have hcarryHigh : (if 15 < 16 * carryHigh + high then 1 else 0) = carryHigh := by
    split <;> omega
  have hisCarry : IsCarry (adcNmosDecimal x.toUInt16 y.toUInt16 c.toUInt16).flagc := by
    rw [adcNmosDecimal_flagc]
    exact isCarry_bit _
  refine .of_digits (ha.trans (by omega)) hh hl hisCarry ?_
  rw [hflagc, hcarryHigh]
  omega

theorem toNat_adcCmosLow (hc : c.toNat ≤ 1) :
    (adcCmosLow x.toUInt16 y.toUInt16 c.toUInt16).toNat
      = if 10 ≤ x.toNat % 16 + y.toNat % 16 + c.toNat
        then 16 + (x.toNat % 16 + y.toNat % 16 + c.toNat + 6) % 16
        else x.toNat % 16 + y.toNat % 16 + c.toNat := by
  have hsum : ((x.toUInt16 &&& 0x0F) + (y.toUInt16 &&& 0x0F) + c.toUInt16).toNat
      = x.toNat % 16 + y.toNat % 16 + c.toNat := by
    rw [UInt16.toNat_add, UInt16.toNat_add, toNat_low, toNat_low, UInt8.toNat_toUInt16]
    omega
  have hle : (x.toUInt16 &&& 0x0F) + (y.toUInt16 &&& 0x0F) + c.toUInt16 ≥ 0x0A
      ↔ 10 ≤ x.toNat % 16 + y.toNat % 16 + c.toNat := by
    rw [ge_iff_le, UInt16.le_iff_toNat_le, hsum]
    rfl
  unfold adcCmosLow
  dsimp only
  simp only [hle]
  split
  · rw [UInt16.toNat_or, toNat_and_low, UInt16.toNat_add, hsum]
    show 1 <<< 4 ||| _ = _
    rw [← Nat.shiftLeft_add_eq_or_of_lt (Nat.mod_lt _ (by decide))]
    show 16 + (_ + 6) % 65536 % 16 = _
    omega
  · exact hsum

theorem toNat_adcCmosSum (hc : c.toNat ≤ 1) :
    (adcCmosSum x.toUInt16 y.toUInt16 c.toUInt16).toNat
      = (if 10 ≤ x.toNat % 16 + y.toNat % 16 + c.toNat
          then 16 + (x.toNat % 16 + y.toNat % 16 + c.toNat + 6) % 16
          else x.toNat % 16 + y.toNat % 16 + c.toNat)
        + x.toNat / 16 * 16 + y.toNat / 16 * 16 := by
  have hx := x.toNat_lt
  have hy := y.toNat_lt
  unfold adcCmosSum
  rw [UInt16.toNat_add, UInt16.toNat_add, toNat_and_high, toNat_and_high, toNat_adcCmosLow hc]
  split_ifs <;> omega

theorem toNat_and_byte (v : UInt16) : (v &&& 0xFF).toUInt8.toNat = v.toNat % 256 := by
  rw [UInt16.toNat_toUInt8, UInt16.toNat_and]
  show (v.toNat &&& 255) % 256 = _
  rw [show (255 : ℕ) = 2 ^ 8 - 1 from rfl, Nat.and_two_pow_sub_one_eq_mod]
  exact Nat.mod_mod _ _

/-- **`op_adc_cmos` adds two digits.** -/
theorem adcCmosDecimal_sums (hx : IsPacked x) (hy : IsPacked y) (hc : IsCarry c) :
    Sums (packedValue x) (packedValue y) c.toNat
      (adcCmosDecimal x.toUInt16 y.toUInt16 c.toUInt16) := by
  obtain ⟨ha, hflagc⟩ := adcCmosDecimal_eq x.toUInt16 y.toUInt16 c.toUInt16
  have hsum := toNat_adcCmosSum (x := x) (y := y) hc.toNat_le
  have hcn := hc.toNat_le
  obtain ⟨hxhigh, hxlow⟩ := hx
  obtain ⟨hyhigh, hylow⟩ := hy
  generalize adcCmosSum x.toUInt16 y.toUInt16 c.toUInt16 = val at ha hflagc hsum
  have hle : val ≥ 0xA0 ↔ 160 ≤ val.toNat := UInt16.le_iff_toNat_le
  obtain ⟨carryLow, low, hcl, hl, hsumLow, hvalLow, -⟩ :=
    exists_digit (n := x.toNat % 16 + y.toNat % 16 + c.toNat) (by omega)
  obtain ⟨carryHigh, high, hch, hh, hsumHigh, -⟩ :=
    exists_digit (n := x.toNat / 16 + y.toNat / 16 + carryLow) (by omega)
  have hval : val.toNat = 160 * carryHigh + 16 * high + low := by
    rw [hsum, hsumLow]
    split <;> omega
  have han : (adcCmosDecimal x.toUInt16 y.toUInt16 c.toUInt16).a.toNat = high * 16 + low := by
    have hadded : (val + 0x60).toNat = val.toNat + 96 := by
      have hlt : val.toNat + 96 < 2 ^ 16 := by omega
      rw [UInt16.toNat_add]
      exact Nat.mod_eq_of_lt hlt
    rw [ha, toNat_and_byte, apply_ite UInt16.toNat, hadded, hval]
    simp only [hle, hval]
    obtain rfl | rfl : carryHigh = 0 ∨ carryHigh = 1 := by omega
    · rw [if_neg (by omega)]
      omega
    · rw [if_pos (by omega)]
      omega
  have hcarry : (adcCmosDecimal x.toUInt16 y.toUInt16 c.toUInt16).flagc.toNat = carryHigh := by
    have hone : (if 160 ≤ val.toNat then 1 else 0) = carryHigh := by
      split <;> omega
    rw [hflagc, apply_ite UInt8.toNat]
    simp only [hle]
    exact hone
  have hisCarry : IsCarry (adcCmosDecimal x.toUInt16 y.toUInt16 c.toUInt16).flagc := by
    rw [hflagc]
    split
    · exact .inr rfl
    · exact .inl rfl
  refine .of_digits han hh hl hisCarry ?_
  rw [hcarry]
  unfold packedValue
  omega

end AdditionOfBytes

/-! ## Subtraction -/

section Subtraction

variable (x y c : UInt16)

/-- A digit of `op_sbc_nmos`, corrected if there was a borrow. -/
def correctedBack (v : UInt16) : UInt16 := if v &&& 0x10 ≠ 0 then v - 0x06 else v

/-- `low` of `op_sbc_nmos` -/
def sbcLow : UInt16 := correctedBack ((x &&& 0x0F) - (y &&& 0x0F) - borrow c)

/-- `high` of `op_sbc_nmos` -/
def sbcHigh : UInt16 := correctedBack ((x >>> 4) - (y >>> 4) - ((sbcLow x y c &&& 0x10) >>> 4))

theorem sbcNmosDecimal_a :
    (sbcNmosDecimal x y c).a = ((sbcHigh x y c <<< 4) ||| (sbcLow x y c &&& 0x0F)).toUInt8 := rfl

theorem sbcNmosDecimal_flagc :
    (sbcNmosDecimal x y c).flagc = bit (sbcHigh x y c &&& 0x10 == 0) := rfl

/-- `temp2` of `op_sbc_cmos`, before it is corrected: fifteen more than the low
digit without a borrow. -/
def sbcCmosLow : UInt16 := 0x0F + (x &&& 0x0F) - (y &&& 0x0F) + c

/-- `val` of `op_sbc_cmos`, before it is corrected. -/
def sbcCmosHigh : UInt16 :=
  (if sbcCmosLow x y c < 0x10 then 0 else 0x10) + (0xF0 + (x &&& 0xF0) - (y &&& 0xF0))

/-- `temp2` of `op_sbc_cmos`, corrected. -/
def sbcCmosDigit : UInt16 :=
  if sbcCmosLow x y c < 0x10 then sbcCmosLow x y c - 0x06 else sbcCmosLow x y c - 0x10

theorem sbcCmosDecimal_eq :
    (sbcCmosDecimal x y c).a
        = ((if sbcCmosHigh x y c < 0x100 then sbcCmosHigh x y c - 0x60 + sbcCmosDigit x y c
            else sbcCmosHigh x y c + sbcCmosDigit x y c) &&& 0xFF).toUInt8
      ∧ (sbcCmosDecimal x y c).flagc = if sbcCmosHigh x y c < 0x100 then 0 else 1 := by
  show (if sbcCmosHigh x y c < 0x100 then _ else _ : Arithmetic).a = _
    ∧ (if sbcCmosHigh x y c < 0x100 then _ else _ : Arithmetic).flagc = _
  split
  · exact ⟨rfl, rfl⟩
  · exact ⟨rfl, rfl⟩

theorem toNat_and_sixteen (v : UInt16) : (v &&& 0x10).toNat = v.toNat / 16 % 2 * 16 := by
  rw [UInt16.toNat_and]
  show v.toNat &&& 2 ^ 4 = _
  rw [Nat.and_two_pow, Nat.testBit_eq_decide_div_mod_eq]
  show (decide (v.toNat / 16 % 2 = 1)).toNat * 16 = _
  obtain h | h : v.toNat / 16 % 2 = 0 ∨ v.toNat / 16 % 2 = 1 := by omega
  · rw [h]
    rfl
  · rw [h]
    rfl

/-- **A digit less another and a borrow**: what is corrected is a digit in its
low half and says in the next bit whether there was a borrow. -/
theorem correctedBack_digit {v : UInt16} {m n : ℕ} (hm : m < 10) (hn : n ≤ 10)
    (hv : v.toNat = (65536 + m - n) % 65536) :
    (correctedBack v).toNat = if n ≤ m then m - n else 65530 + m - n := by
  have hbit : v &&& 0x10 ≠ 0 ↔ m < n := by
    rw [ne_eq, ← UInt16.toNat_inj, toNat_and_sixteen, hv]
    show ¬ _ = 0 ↔ _
    omega
  unfold correctedBack
  simp only [hbit]
  split
  next hlt =>
    rw [UInt16.toNat_sub, hv, if_neg (by omega)]
    show (65536 - 6 + _) % 65536 = _
    omega
  next hge =>
    rw [hv, if_pos (by omega)]
    omega

end Subtraction

section SubtractionOfBytes

variable {x y c : UInt8}

theorem toNat_borrow (hc : IsCarry c) : (borrow c.toUInt16).toNat = 1 - c.toNat := by
  rcases hc with rfl | rfl <;> rfl

theorem toNat_sbcLow (hx : IsPacked x) (hy : IsPacked y) (hc : IsCarry c) :
    (sbcLow x.toUInt16 y.toUInt16 c.toUInt16).toNat
      = if y.toNat % 16 + (1 - c.toNat) ≤ x.toNat % 16
        then x.toNat % 16 - (y.toNat % 16 + (1 - c.toNat))
        else 65530 + x.toNat % 16 - (y.toNat % 16 + (1 - c.toNat)) := by
  have hxlow := hx.low
  have hylow := hy.low
  refine correctedBack_digit hxlow (by omega) ?_
  rw [UInt16.toNat_sub, UInt16.toNat_sub, toNat_low, toNat_low, toNat_borrow hc]
  omega

theorem toNat_sbcHigh (hx : IsPacked x) (hy : IsPacked y) (hc : IsCarry c) :
    (sbcHigh x.toUInt16 y.toUInt16 c.toUInt16).toNat
      = if y.toNat / 16 + (if y.toNat % 16 + (1 - c.toNat) ≤ x.toNat % 16 then 0 else 1)
          ≤ x.toNat / 16
        then x.toNat / 16
          - (y.toNat / 16 + (if y.toNat % 16 + (1 - c.toNat) ≤ x.toNat % 16 then 0 else 1))
        else 65530 + x.toNat / 16
          - (y.toNat / 16 + (if y.toNat % 16 + (1 - c.toNat) ≤ x.toNat % 16 then 0 else 1)) := by
  have hborrows : ((sbcLow x.toUInt16 y.toUInt16 c.toUInt16 &&& 0x10) >>> 4).toNat
      = if y.toNat % 16 + (1 - c.toNat) ≤ x.toNat % 16 then 0 else 1 := by
    have hxlow := hx.low
    have hylow := hy.low
    rw [UInt16.toNat_shiftRight, toNat_and_sixteen, toNat_sbcLow hx hy hc]
    show (_ * 16) >>> 4 = _
    rw [Nat.shiftRight_eq_div_pow]
    split_ifs <;> omega
  have hxhigh := hx.high
  have hyhigh := hy.high
  refine correctedBack_digit hxhigh (by split_ifs <;> omega) ?_
  rw [UInt16.toNat_sub, UInt16.toNat_sub, toNat_high, toNat_high, hborrows]
  split_ifs <;> omega

/-- **`op_sbc_nmos` subtracts two digits**: it adds their complement. -/
theorem sbcNmosDecimal_sums (hx : IsPacked x) (hy : IsPacked y) (hc : IsCarry c) :
    Sums (packedValue x) (99 - packedValue y) c.toNat
      (sbcNmosDecimal x.toUInt16 y.toUInt16 c.toUInt16) := by
  have hlow := toNat_sbcLow hx hy hc
  have hhigh := toNat_sbcHigh hx hy hc
  have hcn := hc.toNat_le
  obtain ⟨hxhigh, hxlow⟩ := hx
  obtain ⟨hyhigh, hylow⟩ := hy
  have ha : (sbcNmosDecimal x.toUInt16 y.toUInt16 c.toUInt16).a.toNat
      = (sbcHigh x.toUInt16 y.toUInt16 c.toUInt16).toNat % 16 * 16
        + (sbcLow x.toUInt16 y.toUInt16 c.toUInt16).toNat % 16 := by
    rw [sbcNmosDecimal_a]
    exact toNat_join _ _
  have hflagc : (sbcNmosDecimal x.toUInt16 y.toUInt16 c.toUInt16).flagc.toNat
      = if (sbcHigh x.toUInt16 y.toUInt16 c.toUInt16).toNat / 16 % 2 = 0 then 1 else 0 := by
    have hzero : (sbcHigh x.toUInt16 y.toUInt16 c.toUInt16 &&& 0x10 == 0)
        = decide ((sbcHigh x.toUInt16 y.toUInt16 c.toUInt16).toNat / 16 % 2 = 0) := by
      rw [beq_eq_decide, decide_eq_decide, ← UInt16.toNat_inj, toNat_and_sixteen]
      show _ = 0 ↔ _
      omega
    rw [sbcNmosDecimal_flagc, hzero, toNat_bit]
  rw [hlow, hhigh] at ha
  rw [hhigh] at hflagc
  unfold packedValue
  obtain ⟨borrowLow, low, hbl, hl, hdiffLow, hvalLow, hbitLow⟩ :=
    exists_borrow (n := y.toNat % 16 + (1 - c.toNat)) hxlow (by omega)
  rw [hvalLow, hbitLow] at ha
  rw [hbitLow] at hflagc
  obtain ⟨borrowHigh, high, hbh, hh, hdiffHigh, hvalHigh, -⟩ :=
    exists_borrow (n := y.toNat / 16 + borrowLow) hxhigh (by omega)
  rw [hvalHigh] at ha hflagc
  have hcarry : (if (65520 * borrowHigh + high) / 16 % 2 = 0 then 1 else 0) = 1 - borrowHigh := by
    obtain rfl | rfl : borrowHigh = 0 ∨ borrowHigh = 1 := by omega
    · rw [show (65520 * 0 + high) / 16 = 0 by omega]
      rfl
    · rw [show (65520 * 1 + high) / 16 = 4095 by omega]
      rfl
  refine .of_digits (ha.trans (by omega)) hh hl (isCarry_bit _) ?_
  rw [hflagc, hcarry]
  omega

theorem toNat_sbcCmosLow (hc : c.toNat ≤ 1) :
    (sbcCmosLow x.toUInt16 y.toUInt16 c.toUInt16).toNat
      = 15 + x.toNat % 16 + c.toNat - y.toNat % 16 := by
  unfold sbcCmosLow
  rw [UInt16.toNat_add, UInt16.toNat_sub, UInt16.toNat_add, toNat_low, toNat_low,
    UInt8.toNat_toUInt16, show UInt16.toNat 0x0F = 15 from rfl]
  omega

/-- Whether the low digits have to borrow. -/
theorem sbcCmosLow_lt (hc : c.toNat ≤ 1) :
    sbcCmosLow x.toUInt16 y.toUInt16 c.toUInt16 < 0x10
      ↔ x.toNat % 16 < y.toNat % 16 + (1 - c.toNat) := by
  rw [UInt16.lt_iff_toNat_lt, toNat_sbcCmosLow hc, show UInt16.toNat 0x10 = 16 from rfl]
  omega

theorem toNat_sbcCmosHigh (hx : IsPacked x) (hy : IsPacked y) (hc : c.toNat ≤ 1) :
    (sbcCmosHigh x.toUInt16 y.toUInt16 c.toUInt16).toNat
      = (if x.toNat % 16 < y.toNat % 16 + (1 - c.toNat) then 0 else 16)
        + 240 + x.toNat / 16 * 16 - y.toNat / 16 * 16 := by
  have hxhigh := hx.high
  have hyhigh := hy.high
  have hten : (if sbcCmosLow x.toUInt16 y.toUInt16 c.toUInt16 < 0x10 then (0 : UInt16)
        else 0x10).toNat = if x.toNat % 16 < y.toNat % 16 + (1 - c.toNat) then 0 else 16 := by
    simp only [sbcCmosLow_lt hc, apply_ite UInt16.toNat]
    rfl
  unfold sbcCmosHigh
  rw [UInt16.toNat_add, UInt16.toNat_sub, UInt16.toNat_add, toNat_and_high, toNat_and_high,
    hten, show UInt16.toNat 0xF0 = 240 from rfl]
  split_ifs <;> omega

theorem toNat_sbcCmosDigit (hx : IsPacked x) (hy : IsPacked y) (hc : c.toNat ≤ 1) :
    (sbcCmosDigit x.toUInt16 y.toUInt16 c.toUInt16).toNat
      = if x.toNat % 16 < y.toNat % 16 + (1 - c.toNat)
        then 9 + x.toNat % 16 + c.toNat - y.toNat % 16
        else x.toNat % 16 + c.toNat - y.toNat % 16 - 1 := by
  have hxlow := hx.low
  have hylow := hy.low
  unfold sbcCmosDigit
  simp only [sbcCmosLow_lt hc, apply_ite UInt16.toNat, UInt16.toNat_sub, toNat_sbcCmosLow hc,
    show UInt16.toNat 0x06 = 6 from rfl, show UInt16.toNat 0x10 = 16 from rfl]
  split_ifs <;> omega

/-- **`op_sbc_cmos` subtracts two digits**: it adds their complement. -/
theorem sbcCmosDecimal_sums (hx : IsPacked x) (hy : IsPacked y) (hc : IsCarry c) :
    Sums (packedValue x) (99 - packedValue y) c.toNat
      (sbcCmosDecimal x.toUInt16 y.toUInt16 c.toUInt16) := by
  obtain ⟨ha, hflagc⟩ := sbcCmosDecimal_eq x.toUInt16 y.toUInt16 c.toUInt16
  have hhigh := toNat_sbcCmosHigh hx hy hc.toNat_le
  have hdigit := toNat_sbcCmosDigit hx hy hc.toNat_le
  have hcn := hc.toNat_le
  obtain ⟨hxhigh, hxlow⟩ := hx
  obtain ⟨hyhigh, hylow⟩ := hy
  generalize sbcCmosHigh x.toUInt16 y.toUInt16 c.toUInt16 = val at ha hflagc hhigh
  generalize sbcCmosDigit x.toUInt16 y.toUInt16 c.toUInt16 = digit at ha hdigit
  have hlt : val < 0x100 ↔ val.toNat < 256 := UInt16.lt_iff_toNat_lt
  obtain ⟨borrowLow, low, hbl, hl, hdiffLow, -⟩ :=
    exists_borrow (n := y.toNat % 16 + (1 - c.toNat)) hxlow (by omega)
  obtain ⟨borrowHigh, high, hbh, hh, hdiffHigh, -⟩ :=
    exists_borrow (n := y.toNat / 16 + borrowLow) hxhigh (by omega)
  have hdigit' : digit.toNat = low := by
    rw [hdigit]
    split <;> omega
  have hval : val.toNat + 160 * borrowHigh = 256 + 16 * high := by
    rw [hhigh]
    split <;> omega
  have han : (sbcCmosDecimal x.toUInt16 y.toUInt16 c.toUInt16).a.toNat = high * 16 + low := by
    rw [ha, toNat_and_byte, apply_ite UInt16.toNat, UInt16.toNat_add, UInt16.toNat_sub,
      UInt16.toNat_add, hdigit', show UInt16.toNat 0x60 = 96 from rfl]
    simp only [hlt]
    obtain rfl | rfl : borrowHigh = 0 ∨ borrowHigh = 1 := by omega
    · rw [if_neg (by omega)]
      omega
    · rw [if_pos (by omega)]
      omega
  have hcarry : (sbcCmosDecimal x.toUInt16 y.toUInt16 c.toUInt16).flagc.toNat
      = 1 - borrowHigh := by
    have hone : (if val.toNat < 256 then 0 else 1) = 1 - borrowHigh := by
      split <;> omega
    rw [hflagc, apply_ite UInt8.toNat]
    simp only [hlt]
    exact hone
  have hisCarry : IsCarry (sbcCmosDecimal x.toUInt16 y.toUInt16 c.toUInt16).flagc := by
    rw [hflagc]
    split
    · exact .inl rfl
    · exact .inr rfl
  refine .of_digits han hh hl hisCarry ?_
  rw [hcarry]
  unfold packedValue
  omega

end SubtractionOfBytes

/-! ## The flags of the CMOS processor -/

/-- **The sign and the zero flag are those of the result.** -/
structure Arithmetic.Described (r : Arithmetic) : Prop where
  sign : r.flagn = r.a &&& afSign
  zero : r.flagz = 0 ↔ r.a ≠ 0

theorem described_ofValue (val : UInt16) (c v : UInt8) :
    (Arithmetic.ofValue val c v).Described := by
  refine ⟨UInt16.toUInt8_and _ _, ?_⟩
  have hzero : val &&& 0xFF &&& 0xFF = 0 ↔ (val &&& 0xFF).toUInt8 = 0 := by
    rw [UInt16.and_assoc, ← UInt16.toNat_inj, ← UInt8.toNat_inj, toNat_and_byte, UInt16.toNat_and]
    show val.toNat &&& (2 ^ 8 - 1) = 0 ↔ _
    rw [Nat.and_two_pow_sub_one_eq_mod]
    rfl
  show zeroOf (val &&& 0xFF) = 0 ↔ _
  unfold zeroOf
  show _ ↔ ¬ (val &&& 0xFF).toUInt8 = 0
  rw [← hzero]
  split
  next h => exact ⟨fun hone => absurd hone (by decide), fun hne => absurd h hne⟩
  next h => exact ⟨fun _ => h, fun _ => rfl⟩

theorem described_ite {p : Prop} [Decidable p] {r r' : Arithmetic} (h : r.Described)
    (h' : r'.Described) : (if p then r else r').Described := by
  split
  · exact h
  · exact h'

/-! ## The two instructions -/

/-- `ADC` and `SBC` -/
inductive DecimalOp where
  | adc | sbc
deriving DecidableEq, Repr

namespace DecimalOp

variable (op : DecimalOp) (cmos : Bool)

/-- The operation of the processor's table. -/
def operation : Operation :=
  match op with
  | adc => if cmos then .adcCmos else .adcNmos
  | sbc => if cmos then .sbcCmos else .sbcNmos

/-- What it computes. -/
def compute : Bool → UInt16 → UInt16 → UInt16 → Arithmetic :=
  match op with
  | adc => if cmos then adcCmos else adcNmos
  | sbc => if cmos then sbcCmos else sbcNmos

/-- What it adds for two digits. -/
def addend (v : ℕ) : ℕ :=
  match op with
  | adc => v
  | sbc => 99 - v

/-- **The sum or the ten's complement difference** of two numbers of a length, with a
carry. -/
def result (n x y c : ℕ) : ℕ :=
  match op with
  | adc => (x + y + c) % 100 ^ n
  | sbc => (x + 100 ^ n - (y + (1 - c))) % 100 ^ n

/-- **The decimal carry** out of their last digits, or whether there was no borrow. -/
def carryOut (n x y c : ℕ) : ℕ :=
  match op with
  | adc => (x + y + c) / 100 ^ n
  | sbc => if y + (1 - c) ≤ x then 1 else 0

variable {op cmos} {x y c : UInt8}

/-- **Either processor computes two digits right.** -/
theorem compute_sums (op : DecimalOp) (cmos : Bool) (hx : IsPacked x) (hy : IsPacked y) (hc : IsCarry c) :
    Sums (packedValue x) (op.addend (packedValue y)) c.toNat
      (op.compute cmos true x.toUInt16 y.toUInt16 c.toUInt16) := by
  cases op
  case adc =>
    cases cmos
    case false => exact adcNmosDecimal_sums hx hy hc
    case true => exact adcCmosDecimal_sums hx hy hc
  case sbc =>
    cases cmos
    case false => exact sbcNmosDecimal_sums hx hy hc
    case true => exact sbcCmosDecimal_sums hx hy hc

theorem compute_tidy (decimal : Bool) (x y c : UInt16) :
    (op.compute cmos decimal x y c).Tidy := by
  cases op
  case adc =>
    cases cmos
    case false => exact adcNmos_tidy ..
    case true => exact adcCmos_tidy ..
  case sbc =>
    cases cmos
    case false => exact sbcNmos_tidy ..
    case true => exact sbcCmos_tidy ..

theorem compute_described (op : DecimalOp) (x y c : UInt16) : (op.compute true true x y c).Described := by
  cases op
  case adc => exact described_ite (described_ofValue ..) (described_ofValue ..)
  case sbc => exact described_ite (described_ofValue ..) (described_ofValue ..)

end DecimalOp

/-! ## In the machine -/

namespace CpuState

variable {W : Type*} (bus : Bus W) (cmos : Bool)

/-- What the instruction at the program counter reads. -/
def operandRead (s : CpuState W) : UInt8 :=
  ((s.located bus cmos).readByte bus (s.located bus cmos).ctx.addr).1

variable {bus cmos}

/-- The accumulator and the flags that an instruction has left. -/
structure Took (r : Arithmetic) (t : CpuState W) : Prop where
  a : t.regs.a = r.a
  carry : t.ctx.flagc = r.flagc
  sign : t.ctx.flagn = r.flagn
  zero : t.ctx.flagz = r.flagz

theorem took_run (bus : Bus W) (op : DecimalOp) (cmos : Bool) (s : CpuState W) :
    Took (op.compute cmos s.decimal s.regs.a.toUInt16
        (s.readByte bus s.ctx.addr).1.toUInt16 s.ctx.flagc.toUInt16)
      ((op.operation cmos).run bus s) := by
  cases op
  case adc =>
    cases cmos
    case false => exact ⟨rfl, rfl, rfl, rfl⟩
    case true => exact ⟨rfl, rfl, rfl, rfl⟩
  case sbc =>
    cases cmos
    case false => exact ⟨rfl, rfl, rfl, rfl⟩
    case true => exact ⟨rfl, rfl, rfl, rfl⟩

/-- What an addressing mode leaves alone. -/
theorem located_keeps (bus : Bus W) (cmos : Bool) (s : CpuState W) :
    (s.located bus cmos).regs.a = s.regs.a ∧ (s.located bus cmos).decimal = s.decimal
      ∧ (s.located bus cmos).ctx.flagc = s.ctx.flagc := by
  obtain ⟨pc, hregs⟩ := (s.desc bus cmos).mode.run_regs bus ((s.fetchOpcode bus).2.setExtra 0)
  obtain ⟨a, b, e, hctx⟩ := (s.desc bus cmos).mode.run_ctx bus ((s.fetchOpcode bus).2.setExtra 0)
  refine ⟨congrArg (·.a) hregs, ?_, congrArg (·.flagc) hctx⟩
  exact congrArg (fun regs => regs.ps &&& afDecimal != 0) hregs

/-- **An instruction of either processor computes what its operation does.** -/
theorem took_execute {s : CpuState W} {op : DecimalOp}
    (hop : (s.desc bus cmos).op = op.operation cmos) :
    Took (op.compute cmos s.decimal s.regs.a.toUInt16 (s.operandRead bus cmos).toUInt16
      s.ctx.flagc.toUInt16) (s.execute bus cmos) := by
  obtain ⟨ha, hdecimal, hcarry⟩ := located_keeps bus cmos s
  have hrun := took_run bus op cmos (s.located bus cmos)
  rw [ha, hdecimal, hcarry, ← hop] at hrun
  exact ⟨hrun.a, hrun.carry, hrun.sign, hrun.zero⟩

/-- The flags are packed when an instruction is done. -/
theorem settled_execute {s : CpuState W} {op : DecimalOp}
    (hop : (s.desc bus cmos).op = op.operation cmos) : (s.execute bus cmos).Settled := by
  have htook := took_execute hop
  have htidy : (s.execute bus cmos).Tidy := by
    refine ⟨?_, ?_⟩
    · rw [htook.carry]
      exact (DecimalOp.compute_tidy ..).carry
    · rw [htook.sign]
      exact (DecimalOp.compute_tidy ..).sign
  exact Tidy.packPs_settled
    (s := (s.fetchOpcode bus).2.dispatch bus (opcodeDesc cmos (s.fetchOpcode bus).1))
    ⟨htidy.carry, htidy.sign⟩

/-! ## The chain -/

/-- **A chain of `ADC` or `SBC`**: the pairs of bytes, one in the accumulator and
one read as the operand, the states the instructions leave, and the state at
its end. What is executed between two of them keeps the carry. -/
inductive Chain (bus : Bus W) (cmos : Bool) (op : DecimalOp) :
    CpuState W → List (UInt8 × UInt8) → List (CpuState W) → CpuState W → Prop where
  | nil (s : CpuState W) : Chain bus cmos op s [] [] s
  | cons {s s' u : CpuState W} {x y : UInt8} {pairs : List (UInt8 × UInt8)}
    {ts : List (CpuState W)} (hx : s.regs.a = x) (hy : s.operandRead bus cmos = y)
    (instruction : (s.desc bus cmos).op = op.operation cmos) (decimal : s.decimal = true)
    (carry : s'.ctx.flagc = (s.execute bus cmos).ctx.flagc)
    (rest : Chain bus cmos op s' pairs ts u) :
    Chain bus cmos op s ((x, y) :: pairs) (s.execute bus cmos :: ts) u

/-- The number a list of packed bytes stands for, the low byte first. -/
def packedNumber (bytes : List UInt8) : ℕ := Nat.ofDigits 100 (bytes.map packedValue)

/-- **A chain that computes the decimal result**: its bytes, its carry, and on the
CMOS processor the sign and the zero flag of every byte. -/
structure DecimalResult (cmos : Bool) (op : DecimalOp) (s : CpuState W)
    (pairs : List (UInt8 × UInt8)) (ts : List (CpuState W)) (u : CpuState W) : Prop where
  length : ts.length = pairs.length
  isPacked : ∀ t ∈ ts, IsPacked t.regs.a
  number : packedNumber (ts.map (·.regs.a))
    = op.result pairs.length (packedNumber (pairs.map (·.1))) (packedNumber (pairs.map (·.2)))
      s.ctx.flagc.toNat
  carry : u.ctx.flagc.toNat
    = op.carryOut pairs.length (packedNumber (pairs.map (·.1)))
      (packedNumber (pairs.map (·.2))) s.ctx.flagc.toNat
  flags : cmos = true → ∀ t ∈ ts, t.regs.ps &&& afSign = t.regs.a &&& afSign
    ∧ (t.regs.ps &&& afZero ≠ 0 ↔ t.regs.a = 0)

/-- **One instruction of a chain.** -/
theorem execute_sums {s : CpuState W} {op : DecimalOp}
    (hop : (s.desc bus cmos).op = op.operation cmos) (hdecimal : s.decimal = true)
    (hx : IsPacked s.regs.a) (hy : IsPacked (s.operandRead bus cmos)) (hc : IsCarry s.ctx.flagc) :
    IsPacked (s.execute bus cmos).regs.a ∧ IsCarry (s.execute bus cmos).ctx.flagc
      ∧ packedValue s.regs.a + op.addend (packedValue (s.operandRead bus cmos)) + s.ctx.flagc.toNat
        = packedValue (s.execute bus cmos).regs.a
          + 100 * (s.execute bus cmos).ctx.flagc.toNat := by
  have htook := took_execute hop
  have hsums := DecimalOp.compute_sums op cmos hx hy hc
  rw [hdecimal] at htook
  rw [htook.a, htook.carry]
  exact ⟨hsums.isPacked, hsums.carry, hsums.sum⟩

/-- The flags it leaves on the CMOS processor. -/
theorem execute_flags {s : CpuState W} {op : DecimalOp}
    (hop : (s.desc bus true).op = op.operation true) (hdecimal : s.decimal = true) :
    (s.execute bus true).regs.ps &&& afSign = (s.execute bus true).regs.a &&& afSign
      ∧ ((s.execute bus true).regs.ps &&& afZero ≠ 0 ↔ (s.execute bus true).regs.a = 0) := by
  have htook := took_execute hop
  have hsettled := settled_execute hop
  rw [hdecimal] at htook
  have hdescribed := DecimalOp.compute_described op s.regs.a.toUInt16
    (s.operandRead bus true).toUInt16 s.ctx.flagc.toUInt16
  refine ⟨?_, ?_⟩
  · rw [hsettled.sign, htook.sign, htook.a, hdescribed.sign]
  · rw [ne_eq, hsettled.zero, htook.zero, htook.a, hdescribed.zero, not_not]

/-- **The bytes of a chain are added with their carries.** -/
theorem Chain.carries {op : DecimalOp} {s u : CpuState W} {pairs : List (UInt8 × UInt8)}
    {ts : List (CpuState W)} (h : Chain bus cmos op s pairs ts u)
    (hpacked : ∀ p ∈ pairs, IsPacked p.1 ∧ IsPacked p.2) (hc : IsCarry s.ctx.flagc) :
    Digits.Carries 100 s.ctx.flagc.toNat (pairs.map fun p => packedValue p.1)
        (pairs.map fun p => op.addend (packedValue p.2))
        (ts.map fun t => packedValue t.regs.a) u.ctx.flagc.toNat
      ∧ IsCarry u.ctx.flagc ∧ ∀ t ∈ ts, IsPacked t.regs.a := by
  induction h with
  | nil s => exact ⟨.nil _, hc, fun t ht => absurd ht List.not_mem_nil⟩
  | cons hx hy instruction decimal carry rest ih =>
    subst hx hy
    obtain ⟨hx, hy⟩ := hpacked _ List.mem_cons_self
    obtain ⟨hresult, hcarry, hsum⟩ := execute_sums instruction decimal hx hy hc
    obtain ⟨hrest, hlast, hall⟩ :=
      ih (fun p hp => hpacked p (List.mem_cons_of_mem _ hp)) (carry.symm ▸ hcarry)
    rw [carry] at hrest
    refine ⟨.cons hsum hrest, hlast, fun t ht => ?_⟩
    rcases List.mem_cons.1 ht with rfl | ht
    · exact hresult
    · exact hall t ht

theorem Chain.flags {op : DecimalOp} {s u : CpuState W} {pairs : List (UInt8 × UInt8)}
    {ts : List (CpuState W)} (h : Chain bus true op s pairs ts u) :
    ∀ t ∈ ts, t.regs.ps &&& afSign = t.regs.a &&& afSign
      ∧ (t.regs.ps &&& afZero ≠ 0 ↔ t.regs.a = 0) := by
  induction h with
  | nil s => exact fun t ht => absurd ht List.not_mem_nil
  | cons _ _ instruction decimal carry rest ih =>
    intro t ht
    rcases List.mem_cons.1 ht with rfl | ht
    · exact execute_flags instruction decimal
    · exact ih t ht

/-- **Decimal arithmetic is right at any length**, on either processor. The bytes of two numbers
are added or subtracted one pair after another, the carry of each going into the next.

The chain is the run of the instructions and not only of the sums: what is between them may move
registers and memory, as long as the carry and the decimal flag stay. The result is about the
whole numbers that the digits make, and the carry that comes out of the last pair. -/
theorem Chain.decimalResult {op : DecimalOp} {s u : CpuState W}
    {pairs : List (UInt8 × UInt8)} {ts : List (CpuState W)}
    (h : Chain bus cmos op s pairs ts u)
    (hpacked : ∀ p ∈ pairs, IsPacked p.1 ∧ IsPacked p.2) (hc : IsCarry s.ctx.flagc) :
    DecimalResult cmos op s pairs ts u := by
  obtain ⟨hcarries, -, hall⟩ := h.carries hpacked hc
  have hlength : ts.length = pairs.length := by
    rw [← List.length_map (fun t : CpuState W => packedValue t.regs.a), hcarries.length_eq.2,
      List.length_map]
  have hbytes : ∀ (bytes : List UInt8), (∀ v ∈ bytes, IsPacked v) →
      ∀ d ∈ bytes.map packedValue, d < 100 := by
    intro bytes hbytes d hd
    obtain ⟨v, hv, rfl⟩ := List.mem_map.1 hd
    exact (hbytes v hv).lt
  have hxs := hbytes (pairs.map (·.1)) fun v hv => by
    obtain ⟨p, hp, rfl⟩ := List.mem_map.1 hv
    exact (hpacked p hp).1
  have hys := hbytes (pairs.map (·.2)) fun v hv => by
    obtain ⟨p, hp, rfl⟩ := List.mem_map.1 hv
    exact (hpacked p hp).2
  have hrs := hbytes (ts.map (·.regs.a)) fun v hv => by
    obtain ⟨t, ht, rfl⟩ := List.mem_map.1 hv
    exact hall t ht
  -- each step adds one byte of two digits, so the chain is an addition to base 100
  have hvalues : Digits.Carries 100 s.ctx.flagc.toNat ((pairs.map (·.1)).map packedValue)
      (((pairs.map (·.2)).map packedValue).map op.addend)
      ((ts.map (·.regs.a)).map packedValue) u.ctx.flagc.toNat := by
    simp only [List.map_map]
    exact hcarries
  have hboth : packedNumber (ts.map (·.regs.a))
        = op.result pairs.length (packedNumber (pairs.map (·.1)))
          (packedNumber (pairs.map (·.2))) s.ctx.flagc.toNat
      ∧ u.ctx.flagc.toNat
        = op.carryOut pairs.length (packedNumber (pairs.map (·.1)))
          (packedNumber (pairs.map (·.2))) s.ctx.flagc.toNat := by
    have hdigits : ((pairs.map (·.1)).map packedValue).length = pairs.length := by
      rw [List.length_map, List.length_map]
    unfold packedNumber
    cases op
    case adc =>
      have hsame : ((pairs.map (·.2)).map packedValue).map DecimalOp.adc.addend
          = (pairs.map (·.2)).map packedValue := List.map_id _
      rw [hsame] at hvalues
      have heq := hvalues.eq (by decide) hrs
      rwa [hdigits] at heq
    -- subtraction adds the complement, and the carry stands for no borrow
    case sbc =>
      have hsub : Digits.Carries 100 s.ctx.flagc.toNat ((pairs.map (·.1)).map packedValue)
          (Digits.complement 100 ((pairs.map (·.2)).map packedValue))
          ((ts.map (·.regs.a)).map packedValue) u.ctx.flagc.toNat := hvalues
      have heq := hsub.eq_sub (by decide) hxs hys hrs hc.toNat_le
      rwa [hdigits] at heq
  refine ⟨hlength, hall, hboth.1, hboth.2, fun hcmos => ?_⟩
  subst hcmos
  exact h.flags

/-- The processor in front of two additions, `99` in its accumulator. -/
def inFrontOfAdditions : CpuState (Nat → UInt8) :=
  let s := (CpuInstance.flat 0x300 [0x69, 0x02, 0x69, 0x00] 0).enter
  (s.setPs (s.regs.ps ||| afDecimal)).setA 0x99

/-- The processor behind the first of them, with the next digits in its
accumulator. -/
def betweenAdditions : CpuState (Nat → UInt8) :=
  (inFrontOfAdditions.execute Bus.flat true).setA 0x19

/-- 1999 and 2 are 2001. -/
theorem decimalResult_additions :
    DecimalResult true .adc inFrontOfAdditions [(0x99, 0x02), (0x19, 0x00)]
      [inFrontOfAdditions.execute Bus.flat true, betweenAdditions.execute Bus.flat true]
      (betweenAdditions.execute Bus.flat true) := by
  have hlast : Chain Bus.flat true .adc betweenAdditions [(0x19, 0x00)]
      [betweenAdditions.execute Bus.flat true] (betweenAdditions.execute Bus.flat true) :=
    .cons (by decide +kernel) (by decide +kernel) (by decide +kernel) (by decide +kernel)
      (Eq.refl _) (.nil _)
  have hcarry : betweenAdditions.ctx.flagc
      = (inFrontOfAdditions.execute Bus.flat true).ctx.flagc := by decide +kernel
  have hchain : Chain Bus.flat true .adc inFrontOfAdditions [(0x99, 0x02), (0x19, 0x00)]
      [inFrontOfAdditions.execute Bus.flat true, betweenAdditions.execute Bus.flat true]
      (betweenAdditions.execute Bus.flat true) :=
    .cons (by decide +kernel) (by decide +kernel) (by decide +kernel) (by decide +kernel)
      hcarry hlast
  refine hchain.decimalResult (fun p hp => ?_) (.inl (by decide +kernel))
  rcases List.mem_pair.1 hp with rfl | rfl
  · exact ⟨⟨by decide, by decide⟩, ⟨by decide, by decide⟩⟩
  · exact ⟨⟨by decide, by decide⟩, ⟨by decide, by decide⟩⟩

end CpuState

end LinApple.Cpu
