import Mathlib.Tactic.Common

/-!
# Bytes

What holds of every byte can be looked up, what a mask leaves of bytes that
lie under it, and the word two bytes make.
-/

namespace Byte

/-- What holds of every byte can be looked up. -/
theorem forall_byte {P : UInt8 → Prop} (h : ∀ d : BitVec 8, P ⟨d⟩) (d : UInt8) : P d := h d.toBitVec

/-! ## Bytes under a mask -/

section Masks

variable {a b m : UInt8}

theorem or_and_distrib_right : (a ||| b) &&& m = a &&& m ||| b &&& m :=
  UInt8.toBitVec_inj.mp BitVec.and_or_distrib_right

theorem masked_or (ha : a &&& m = a) (hb : b &&& m = b) : (a ||| b) &&& m = a ||| b := by
  rw [or_and_distrib_right, ha, hb]

/-- Bits that are set do not show under a mask they are not in. -/
theorem or_and_of_disjoint (a : UInt8) (h : b &&& m = 0) : (a ||| b) &&& m = a &&& m := by
  rw [or_and_distrib_right, h, UInt8.or_zero]

/-- Neither do bits that are cleared. -/
theorem and_not_and_of_disjoint (a : UInt8) (h : b &&& m = 0) : (a &&& ~~~b) &&& m = a &&& m := by
  have hm : ~~~b &&& m = m := by
    have hall : (b ||| ~~~b) &&& m = m := by rw [UInt8.or_not_self, UInt8.neg_one_and]
    rwa [or_and_distrib_right, h, UInt8.zero_or] at hall
  rw [UInt8.and_assoc, hm]

theorem masked_and (h : a &&& m = a) (b : UInt8) : (a &&& b) &&& m = a &&& b := by
  rw [UInt8.and_assoc, UInt8.and_comm b, ← UInt8.and_assoc, h]

end Masks

/-! ## The word two bytes make -/

section Words

/-- The word with a low and a high byte. -/
def word (low high : UInt8) : UInt16 := low.toUInt16 ||| (high.toUInt16 <<< 8)

variable {low high low' high' : UInt8}

theorem toNat_word (low high : UInt8) :
    (word low high).toNat = high.toNat * 256 + low.toNat := by
  have hlow := low.toNat_lt
  have hhigh := high.toNat_lt
  unfold word
  simp only [UInt16.toNat_or, UInt16.toNat_shiftLeft, Nat.shiftLeft_eq,
    UInt8.toNat_toUInt16, UInt16.reduceToNat, Nat.reduceMod, Nat.reducePow]
  rw [Nat.mod_eq_of_lt (by omega), Nat.or_comm, Nat.mul_comm]
  exact (Nat.two_pow_add_eq_or_of_lt (i := 8) hlow high.toNat).symm

/-- Words are the same if and only if their bytes are. -/
theorem word_inj : word low high = word low' high' ↔ low = low' ∧ high = high' := by
  have hlow := low.toNat_lt
  have hlow' := low'.toNat_lt
  rw [← UInt16.toNat_inj, toNat_word, toNat_word, ← UInt8.toNat_inj, ← UInt8.toNat_inj]
  omega

/-- The bytes of a word can be added up as well. -/
theorem add_eq_word (low high : UInt8) :
    low.toUInt16 + (high.toUInt16 <<< 8) = word low high := by
  have hlow := low.toNat_lt
  have hhigh := high.toNat_lt
  rw [← UInt16.toNat_inj, toNat_word]
  simp only [UInt16.toNat_add, UInt16.toNat_shiftLeft, Nat.shiftLeft_eq,
    UInt8.toNat_toUInt16, UInt16.reduceToNat, Nat.reduceMod, Nat.reducePow]
  omega

/-- The bytes of a word can be joined in the other order. -/
theorem or_comm_word (low high : UInt8) :
    (high.toUInt16 <<< 8) ||| low.toUInt16 = word low high :=
  UInt16.or_comm _ _

/-- `read_u16_le`: the number two bytes make, the low one first. -/
def readU16Le (bytes : List UInt8) : UInt16 := word (bytes.getD 0 0) (bytes.getD 1 0)

/-- `read_u32_le`: the number four bytes make, the low one first. -/
def readU32Le (bytes : List UInt8) : UInt32 :=
  (bytes.getD 0 0).toUInt32 ||| ((bytes.getD 1 0).toUInt32 <<< 8)
    ||| ((bytes.getD 2 0).toUInt32 <<< 16) ||| ((bytes.getD 3 0).toUInt32 <<< 24)

end Words

end Byte
