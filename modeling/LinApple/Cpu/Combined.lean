import LinApple.Cpu.Flags
import LinApple.Lib.Bytes

/-!
# The combined operations

Six of the operations that fall out of the NMOS processor's decoder modify a byte of memory and
then use it on the accumulator. They are compared with their two documented halves, executed one
after the other at the same address. At an address of memory four of them come to the same as
their halves. The other two keep the byte in sixteen bits once it has wrapped, and come to the
same but for the bytes that wrap.

That the address is one of memory is a condition and cannot be done without. The combined
instruction reads once and uses the value it has computed; its halves read twice, and the second
time they read what has become of the write. In ROM, or where a bank is read and another written,
that is the old byte, and in the I/O region a read may do anything. `Bus.IsRam` says what is
needed of the one address in question: it is not answered by a handler, and a byte that is written
there is the byte that is read back. Nothing is asked of the rest of the machine.

The result is compared in the registers, the packed flags and the world (`SameResult`). The cycles
are not, as the halves take longer, and neither is how often memory was read.

For the two that wrap the condition is on the byte (`WrapShows`): a decrement of zero, and an
increment of 255. It says for which values of the accumulator and the flags the difference can be
seen at all, so that the condition excludes nothing that comes out right.
-/

namespace LinApple.Cpu

open Byte

variable {W : Type*} {bus : Bus W}

/-! ## Memory at an address -/

/-- **An address of memory**: no handler is asked, and what is written can be read. An address of
ROM has no handler either, so the second field is needed; and the mark of the page is set before
the byte is stored, so it speaks of the world in which it is. -/
structure Bus.IsRam (bus : Bus W) (w : W) (a : UInt16) : Prop where
  direct : isIoRegion a = false
  kept : ∀ v, ∃ w', bus.store (bus.markDirty w (a >>> 8).toUInt8) a v = some w' ∧
    bus.mem w' a.toNat = v

namespace CpuState

/-- The state with another world. -/
def setWorld (s : CpuState W) (w : W) : CpuState W := { s with host := { s.host with world := w } }

/-- The state when the image has been read at an address. -/
def fetchedAt (s : CpuState W) (a : UInt16) : CpuState W :=
  { s with host := { s.host with fetched := s.host.fetched ++ [a.toNat] } }

theorem readByte_direct {a : UInt16} (ha : isIoRegion a = false) (s : CpuState W) :
    s.readByte bus a = (bus.mem s.host.world a.toNat, s.fetchedAt a) := by
  unfold readByte Host.readByte
  rw [ha]
  rfl

theorem writeByte_stored {w w' : W} {a : UInt16} {v : UInt8}
    (h : bus.store (bus.markDirty w (a >>> 8).toUInt8) a v = some w') (s : CpuState W)
    (hs : s.host.world = w) : s.writeByte bus a v = s.setWorld w' := by
  subst hs
  unfold writeByte Host.writeByte
  dsimp only
  rw [h]
  rfl

end CpuState

/-- **A byte written at the state's address**, and there to be read. -/
structure Written (bus : Bus W) (s : CpuState W) (m : UInt8) (w : W) : Prop where
  write : ∀ t : CpuState W, t.host.world = s.host.world →
    t.writeByte bus s.ctx.addr m = t.setWorld w
  read : ∀ t : CpuState W, t.host.world = w →
    t.readByte bus s.ctx.addr = (m, t.fetchedAt s.ctx.addr)

/-- A byte that is written to memory is what is read next. -/
theorem Bus.IsRam.written {s : CpuState W} (h : bus.IsRam s.host.world s.ctx.addr) (m : UInt8) :
    ∃ w, Written bus s m w := by
  obtain ⟨w, hstored, hread⟩ := h.kept m
  refine ⟨w, CpuState.writeByte_stored hstored, fun t ht => ?_⟩
  rw [CpuState.readByte_direct h.direct, ht, hread]

/-! ## The halves -/

/-- **The documented halves** of a combined operation. -/
def Operation.halves : Operation → Option (Operation × Operation)
  | .aso => some (.asl, .ora)
  | .rla => some (.rol, .and)
  | .lse => some (.lsr, .eor)
  | .rra => some (.ror, .adcNmos)
  | .dcm => some (.dec, .cmp)
  | .ins => some (.inc, .sbcNmos)
  | _ => none

/-- **The same result**: registers, packed flags and memory. The cycles are left out, since two
instructions are charged for two, and so is where the program goes on. -/
structure CpuState.SameResult (s t : CpuState W) : Prop where
  a : s.regs.a = t.regs.a
  x : s.regs.x = t.regs.x
  y : s.regs.y = t.regs.y
  sp : s.regs.sp = t.regs.sp
  packed : s.packed = t.packed
  world : s.host.world = t.host.world

namespace CpuState

variable {s t u : CpuState W}

theorem SameResult.refl (s : CpuState W) : s.SameResult s := ⟨rfl, rfl, rfl, rfl, rfl, rfl⟩

theorem SameResult.symm (h : s.SameResult t) : t.SameResult s :=
  ⟨h.a.symm, h.x.symm, h.y.symm, h.sp.symm, h.packed.symm, h.world.symm⟩

theorem SameResult.trans (h : s.SameResult t) (h' : t.SameResult u) : s.SameResult u :=
  ⟨h.a.trans h'.a, h.x.trans h'.x, h.y.trans h'.y, h.sp.trans h'.sp, h.packed.trans h'.packed,
    h.world.trans h'.world⟩

/-- Tidy states with the same packed flags have the same carry. -/
theorem SameResult.flagc (h : s.SameResult t) (hs : s.Tidy) (ht : t.Tidy) :
    s.ctx.flagc = t.ctx.flagc :=
  calc s.ctx.flagc = s.packed &&& afCarry := hs.packPs_settled.carry.symm
    _ = t.packed &&& afCarry := by rw [h.packed]
    _ = t.ctx.flagc := ht.packPs_settled.carry

end CpuState

/-! ## Bytes in sixteen bits -/

theorem toUInt8_shiftRight (v : UInt8) : (v.toUInt16 >>> 1).toUInt8 = v >>> 1 := by
  have hv := v.toNat_lt
  apply UInt8.toNat_inj.1
  simp only [UInt16.toNat_toUInt8, UInt16.toNat_shiftRight, UInt8.toNat_shiftRight,
    UInt8.toNat_toUInt16, UInt16.reduceToNat, UInt8.reduceToNat, Nat.reduceMod,
    Nat.shiftRight_eq_div_pow]
  omega

/-- A word below 256 is that of its low byte. -/
theorem toUInt8_toUInt16_of_lt {v : UInt16} (h : v.toNat < 256) : v.toUInt8.toUInt16 = v := by
  apply UInt16.toNat_inj.1
  rw [UInt8.toNat_toUInt16, UInt16.toNat_toUInt8]
  exact Nat.mod_eq_of_lt h

/-- What is rotated to the right stays a byte. -/
theorem toUInt16_rotateRight (v c : UInt8) :
    (rotateRight v c).toUInt8.toUInt16 = rotateRight v c := by
  apply toUInt8_toUInt16_of_lt
  have hv := v.toNat_lt
  unfold rotateRight
  rw [UInt16.toNat_or]
  refine Nat.or_lt_two_pow (n := 8) ?_ (by split <;> decide)
  simp only [UInt16.toNat_shiftRight, UInt8.toNat_toUInt16, UInt16.reduceToNat, Nat.reduceMod,
    Nat.shiftRight_eq_div_pow]
  omega

/-- A byte that is decremented wraps only from 0. -/
theorem toUInt16_dec (v : UInt8) (h : v ≠ 0) :
    (v.toUInt16 - 1).toUInt8.toUInt16 = v.toUInt16 - 1 := by
  apply toUInt8_toUInt16_of_lt
  have hv := v.toNat_lt
  have hpos : v.toNat ≠ 0 := fun h0 => h (UInt8.toNat_inj.1 h0)
  have hle : 1 ≤ v.toUInt16 := by
    rw [UInt16.le_iff_toNat_le, UInt8.toNat_toUInt16]
    exact Nat.pos_of_ne_zero hpos
  rw [UInt16.toNat_sub_of_le _ _ hle, UInt8.toNat_toUInt16]
  exact Nat.lt_of_le_of_lt (Nat.sub_le _ _) hv

/-- A byte that is incremented wraps only from 0xFF. -/
theorem toUInt16_inc (v : UInt8) (h : v ≠ 0xFF) :
    (v.toUInt16 + 1).toUInt8.toUInt16 = v.toUInt16 + 1 := by
  apply toUInt8_toUInt16_of_lt
  have hv := v.toNat_lt
  have hne : v.toNat ≠ 255 := fun h0 => h (UInt8.toNat_inj.1 h0)
  rw [UInt16.toNat_add, UInt8.toNat_toUInt16]
  show (v.toNat + 1) % 65536 < 256
  omega

/-- The sign and the zero flag do not see the wrapping of a decrement. -/
theorem signOf_sub_wrapped (a : UInt8) :
    signOf (a.toUInt16 - 0xFFFF) = signOf (a.toUInt16 - 0xFF) ∧
      zeroOf (a.toUInt16 - 0xFFFF) = zeroOf (a.toUInt16 - 0xFF) := by
  revert a
  refine forall_byte ?_
  decide +kernel

/-- The carry does, for the one accumulator that is not less. -/
theorem carry_wrapped_iff (a : UInt8) :
    bit (a.toUInt16 ≥ 0xFFFF) = bit (a.toUInt16 ≥ 0xFF) ↔ a ≠ 0xFF := by
  have hv := a.toNat_lt
  have hword : (a.toUInt16 ≥ 0xFFFF) = False := by
    rw [ge_iff_le, UInt16.le_iff_toNat_le, UInt8.toNat_toUInt16]
    exact eq_false (by show ¬ 65535 ≤ a.toNat; omega)
  have hbyte : (a.toUInt16 ≥ 0xFF) = (a = 0xFF) := by
    rw [ge_iff_le, UInt16.le_iff_toNat_le, UInt8.toNat_toUInt16, ← UInt8.toNat_inj]
    exact propext (by show 255 ≤ a.toNat ↔ a.toNat = 255; omega)
  simp only [hword, hbyte]
  by_cases h : a = 0xFF <;> simp [h, bit]

/-- A subtraction sees the wrapping of an increment. -/
theorem sbcNmos_wrapped (decimal : Bool) (a : UInt8) {c : UInt8} (hc : IsCarry c) :
    ((sbcNmos decimal a.toUInt16 0x100 c.toUInt16).a = (sbcNmos decimal a.toUInt16 0 c.toUInt16).a ∧
      (sbcNmos decimal a.toUInt16 0x100 c.toUInt16).flagc =
        (sbcNmos decimal a.toUInt16 0 c.toUInt16).flagc) ↔
      decimal = false ∧ a = 0 ∧ c = 0 := by
  revert a
  refine forall_byte ?_
  obtain rfl | rfl := hc <;> cases decimal <;> decide +kernel

/-! ## What the halves come to -/

section Halves

variable {s t t' : CpuState W} {m : UInt8} {w : W}

theorem opOra_of_read (h : t.readByte bus t.ctx.addr = (m, t')) :
    opOra bus t = loadA t' (t'.regs.a ||| m) := by
  unfold opOra
  rw [h]

theorem opAnd_of_read (h : t.readByte bus t.ctx.addr = (m, t')) :
    opAnd bus t = loadA t' (t'.regs.a &&& m) := by
  unfold opAnd
  rw [h]

theorem opEor_of_read (h : t.readByte bus t.ctx.addr = (m, t')) :
    opEor bus t = loadA t' (t'.regs.a ^^^ m) := by
  unfold opEor
  rw [h]

theorem opCmp_of_read (h : t.readByte bus t.ctx.addr = (m, t')) :
    opCmp bus t = compare t' t'.regs.a m.toUInt16 := by
  unfold opCmp
  rw [h]

theorem opArithmetic_of_read (f : Bool → UInt16 → UInt16 → UInt16 → Arithmetic)
    (h : t.readByte bus t.ctx.addr = (m, t')) :
    opArithmetic bus t f = t'.setArithmetic
      (f t'.decimal t'.regs.a.toUInt16 m.toUInt16 t'.ctx.flagc.toUInt16) := by
  unfold opArithmetic
  rw [h]

end Halves

section Combined

variable {s : CpuState W} (hram : bus.IsRam s.host.world s.ctx.addr)

/-- The byte at the state's address. -/
def operand (bus : Bus W) (s : CpuState W) : UInt8 := bus.mem s.host.world s.ctx.addr.toNat

include hram

/-- `SLO` is `ASL` and `ORA`. -/
theorem aso_sameResult : (opAso bus s).SameResult (opOra bus (opAsl bus s)) := by
  let val := (operand bus s).toUInt16 <<< 1
  let r := (s.fetchedAt s.ctx.addr).setFlagc (bit (val > 0xFF))
  obtain ⟨w, hw⟩ := hram.written val.toUInt8
  have hcombined : opAso bus s = loadA (r.setWorld w) (s.regs.a ||| val.toUInt8) := by
    unfold opAso
    rw [CpuState.readByte_direct hram.direct]
    exact congrArg (fun t => loadA t (t.regs.a ||| val.toUInt8)) (hw.write r rfl)
  have hhalf : opAsl bus s = (r.setNz val).setWorld w := by
    unfold opAsl
    rw [CpuState.readByte_direct hram.direct]
    exact hw.write (r.setNz val) rfl
  rw [hcombined, hhalf, opOra_of_read (hw.read ((r.setNz val).setWorld w) rfl)]
  exact ⟨rfl, rfl, rfl, rfl, rfl, rfl⟩

/-- `RLA` is `ROL` and `AND`. -/
theorem rla_sameResult : (opRla bus s).SameResult (opAnd bus (opRol bus s)) := by
  let val := ((operand bus s).toUInt16 <<< 1) ||| s.ctx.flagc.toUInt16
  let r := (s.fetchedAt s.ctx.addr).setFlagc (bit (val > 0xFF))
  obtain ⟨w, hw⟩ := hram.written val.toUInt8
  have hcombined : opRla bus s = loadA (r.setWorld w) (s.regs.a &&& val.toUInt8) := by
    unfold opRla
    rw [CpuState.readByte_direct hram.direct]
    exact congrArg (fun t => loadA t (t.regs.a &&& val.toUInt8)) (hw.write r rfl)
  have hhalf : opRol bus s = (r.setNz val).setWorld w := by
    unfold opRol
    rw [CpuState.readByte_direct hram.direct]
    exact hw.write (r.setNz val) rfl
  rw [hcombined, hhalf, opAnd_of_read (hw.read ((r.setNz val).setWorld w) rfl)]
  exact ⟨rfl, rfl, rfl, rfl, rfl, rfl⟩

/-- `SRE` is `LSR` and `EOR`. -/
theorem lse_sameResult : (opLse bus s).SameResult (opEor bus (opLsr bus s)) := by
  let val := operand bus s >>> 1
  let r := (s.fetchedAt s.ctx.addr).setFlagc (operand bus s &&& 1)
  let r' := (r.setFlagn 0).setZ ((operand bus s).toUInt16 >>> 1)
  obtain ⟨w, hw⟩ := hram.written val
  have hcombined : opLse bus s = loadA (r.setWorld w) (s.regs.a ^^^ val) := by
    unfold opLse
    rw [CpuState.readByte_direct hram.direct]
    exact congrArg (fun t => loadA t (t.regs.a ^^^ val)) (hw.write r rfl)
  have hhalf : opLsr bus s = r'.setWorld w := by
    unfold opLsr
    rw [CpuState.readByte_direct hram.direct]
    dsimp only
    rw [toUInt8_shiftRight]
    exact hw.write r' rfl
  rw [hcombined, hhalf, opEor_of_read (hw.read (r'.setWorld w) rfl)]
  exact ⟨rfl, rfl, rfl, rfl, rfl, rfl⟩

/-- `RRA` is `ROR` and `ADC`. -/
theorem rra_sameResult : (opRra bus s).SameResult (opAdcNmos bus (opRor bus s)) := by
  let val := rotateRight (operand bus s) s.ctx.flagc
  let c := operand bus s &&& 1
  let r := (s.fetchedAt s.ctx.addr).setFlagc c
  obtain ⟨w, hw⟩ := hram.written val.toUInt8
  have hcombined : opRra bus s = (r.setWorld w).setArithmetic
      (adcNmos s.decimal s.regs.a.toUInt16 val c.toUInt16) := by
    unfold opRra
    rw [CpuState.readByte_direct hram.direct]
    exact congrArg (fun t => t.setArithmetic
      (adcNmos t.decimal t.regs.a.toUInt16 val t.ctx.flagc.toUInt16)) (hw.write r rfl)
  have hhalf : opRor bus s = (r.setNz val).setWorld w := by
    unfold opRor
    rw [CpuState.readByte_direct hram.direct]
    exact hw.write (r.setNz val) rfl
  rw [hcombined, hhalf, opAdcNmos,
    opArithmetic_of_read adcNmos (hw.read ((r.setNz val).setWorld w) rfl), toUInt16_rotateRight]
  exact ⟨rfl, rfl, rfl, rfl, rfl, rfl⟩

/-- `DCP` compares with the byte that `DEC` leaves, in sixteen bits. -/
theorem dcm_result : ∃ t : CpuState W, t.regs.a = s.regs.a ∧
    opDcm bus s = compare t s.regs.a ((operand bus s).toUInt16 - 1) ∧
    (compare t s.regs.a ((operand bus s).toUInt16 - 1).toUInt8.toUInt16).SameResult
      (opCmp bus (opDec bus s)) := by
  let val := (operand bus s).toUInt16 - 1
  let r := s.fetchedAt s.ctx.addr
  obtain ⟨w, hw⟩ := hram.written val.toUInt8
  have hhalf : opDec bus s = (r.setNz val).setWorld w := by
    unfold opDec
    rw [CpuState.readByte_direct hram.direct]
    exact hw.write (r.setNz val) rfl
  refine ⟨r.setWorld w, rfl, ?_, ?_⟩
  · unfold opDcm
    rw [CpuState.readByte_direct hram.direct]
    exact congrArg (fun t => compare t t.regs.a val) (hw.write r rfl)
  · rw [hhalf, opCmp_of_read (hw.read ((r.setNz val).setWorld w) rfl)]
    exact ⟨rfl, rfl, rfl, rfl, rfl, rfl⟩

/-- `ISC` subtracts the byte that `INC` leaves, in sixteen bits. -/
theorem ins_result : ∃ t : CpuState W,
    opIns bus s = t.setArithmetic (sbcNmos s.decimal s.regs.a.toUInt16
      ((operand bus s).toUInt16 + 1) s.ctx.flagc.toUInt16) ∧
    (t.setArithmetic (sbcNmos s.decimal s.regs.a.toUInt16
      ((operand bus s).toUInt16 + 1).toUInt8.toUInt16 s.ctx.flagc.toUInt16)).SameResult
      (opSbcNmos bus (opInc bus s)) := by
  let val := (operand bus s).toUInt16 + 1
  let r := s.fetchedAt s.ctx.addr
  obtain ⟨w, hw⟩ := hram.written val.toUInt8
  have hhalf : opInc bus s = (r.setNz val).setWorld w := by
    unfold opInc
    rw [CpuState.readByte_direct hram.direct]
    exact hw.write (r.setNz val) rfl
  refine ⟨r.setWorld w, ?_, ?_⟩
  · unfold opIns
    rw [CpuState.readByte_direct hram.direct]
    exact congrArg (fun t => t.setArithmetic
      (sbcNmos t.decimal t.regs.a.toUInt16 val t.ctx.flagc.toUInt16)) (hw.write r rfl)
  · rw [hhalf, opSbcNmos, opArithmetic_of_read sbcNmos (hw.read ((r.setNz val).setWorld w) rfl)]
    exact ⟨rfl, rfl, rfl, rfl, rfl, rfl⟩

end Combined

/-! ## The bytes that wrap -/

theorem compare_tidy (s : CpuState W) (r : UInt8) (val : UInt16) : (compare s r val).Tidy :=
  ⟨isCarry_bit _, isSign_signOf _⟩

/-- A comparison with what a decrement leaves in sixteen bits. -/
theorem compare_dec (s : CpuState W) {v : UInt8} (h : ¬ (v = 0 ∧ s.regs.a = 0xFF)) :
    (compare s s.regs.a (v.toUInt16 - 1)).SameResult
      (compare s s.regs.a (v.toUInt16 - 1).toUInt8.toUInt16) := by
  by_cases hv : v = 0
  · subst hv
    obtain ⟨hsign, hzero⟩ := signOf_sub_wrapped s.regs.a
    have hcarry := (carry_wrapped_iff s.regs.a).mpr fun ha => h ⟨rfl, ha⟩
    have heq : compare s s.regs.a 0xFFFF = compare s s.regs.a 0xFF := by
      show CpuState.mk _ ⟨_, _, _, bit (s.regs.a.toUInt16 ≥ 0xFFFF),
        signOf (s.regs.a.toUInt16 - 0xFFFF), _, zeroOf (s.regs.a.toUInt16 - 0xFFFF), _⟩ _ = _
      rw [hcarry, hsign, hzero]
      rfl
    exact heq ▸ .refl _
  · rw [toUInt16_dec v hv]
    exact .refl _

/-- It shows the wrapping to the greatest accumulator. -/
theorem not_compare_dec (s : CpuState W) {v : UInt8} (hv : v = 0) (ha : s.regs.a = 0xFF) :
    ¬ (compare s s.regs.a (v.toUInt16 - 1)).SameResult
      (compare s s.regs.a (v.toUInt16 - 1).toUInt8.toUInt16) := by
  subst hv
  intro h
  exact (carry_wrapped_iff s.regs.a).mp (h.flagc (compare_tidy _ _ _) (compare_tidy _ _ _)) ha

theorem setArithmetic_tidy (s : CpuState W) {r : Arithmetic} (h : r.Tidy) :
    (s.setArithmetic r).Tidy :=
  ⟨h.carry, h.sign⟩

/-- A subtraction of what an increment leaves in sixteen bits. -/
theorem sbc_inc (s : CpuState W) {decimal : Bool} {a v c : UInt8}
    (h : v = 0xFF → decimal = false ∧ a = 0 ∧ c = 0) :
    (s.setArithmetic (sbcNmos decimal a.toUInt16 (v.toUInt16 + 1) c.toUInt16)).SameResult
      (s.setArithmetic
        (sbcNmos decimal a.toUInt16 (v.toUInt16 + 1).toUInt8.toUInt16 c.toUInt16)) := by
  by_cases hv : v = 0xFF
  · obtain ⟨rfl, rfl, rfl⟩ := h hv
    subst hv
    exact ⟨rfl, rfl, rfl, rfl, rfl, rfl⟩
  · rw [toUInt16_inc v hv]
    exact .refl _

/-- It shows the wrapping unless nothing is subtracted from but the borrow. -/
theorem of_sbc_inc (s : CpuState W) {decimal : Bool} {a v c : UInt8} (hc : IsCarry c)
    (h : (s.setArithmetic (sbcNmos decimal a.toUInt16 (v.toUInt16 + 1) c.toUInt16)).SameResult
      (s.setArithmetic
        (sbcNmos decimal a.toUInt16 (v.toUInt16 + 1).toUInt8.toUInt16 c.toUInt16)))
    (hv : v = 0xFF) : decimal = false ∧ a = 0 ∧ c = 0 := by
  subst hv
  exact (sbcNmos_wrapped decimal a hc).mp ⟨h.a,
    h.flagc (setArithmetic_tidy s (sbcNmos_tidy _ _ _ _))
      (setArithmetic_tidy s (sbcNmos_tidy _ _ _ _))⟩

/-- **The wrapping of the byte shows** in what a combined operation leaves: to `DCP`
with the greatest accumulator, and to `ISC` but when, in binary, nothing is left to
subtract from and the borrow hides it. -/
def Operation.WrapShows (op : Operation) (s : CpuState W) (v : UInt8) : Prop :=
  match op with
  | .dcm => v = 0 ∧ s.regs.a = 0xFF
  | .ins => v = 0xFF ∧ ¬ (s.decimal = false ∧ s.regs.a = 0 ∧ s.ctx.flagc = 0)
  | _ => False

/-! ## The combined operations and their halves -/

section Operations

variable {s : CpuState W} {op modify accumulate : Operation}

/-- **A combined operation at an address of memory comes to the same as its halves**
unless the wrapping of the byte shows. -/
theorem sameResult_of_not_wrapShows (hop : op.halves = some (modify, accumulate))
    (hram : bus.IsRam s.host.world s.ctx.addr) (h : ¬ op.WrapShows s (operand bus s)) :
    (op.run bus s).SameResult (accumulate.run bus (modify.run bus s)) := by
  cases op <;> cases hop
  case aso => exact aso_sameResult hram
  case rla => exact rla_sameResult hram
  case lse => exact lse_sameResult hram
  case rra => exact rra_sameResult hram
  case dcm =>
    obtain ⟨t, ha, hcombined, hhalves⟩ := dcm_result hram
    have hsame := @compare_dec _ t (operand bus s) (ha ▸ h)
    rw [ha, ← hcombined] at hsame
    exact hsame.trans hhalves
  case ins =>
    obtain ⟨t, hcombined, hhalves⟩ := ins_result hram
    have hsame := sbc_inc t (not_and_not_right.mp h)
    rw [← hcombined] at hsame
    exact hsame.trans hhalves

/-- Where the wrapping shows it does not. -/
theorem not_wrapShows_of_sameResult (hop : op.halves = some (modify, accumulate)) (hs : s.Tidy)
    (hram : bus.IsRam s.host.world s.ctx.addr)
    (h : (op.run bus s).SameResult (accumulate.run bus (modify.run bus s))) :
    ¬ op.WrapShows s (operand bus s) := by
  cases op <;> cases hop
  case aso | rla | lse | rra => exact id
  case dcm =>
    obtain ⟨t, ha, hcombined, hhalves⟩ := dcm_result hram
    have hsame : (opDcm bus s).SameResult _ := h.trans hhalves.symm
    rw [hcombined, ← ha] at hsame
    exact fun hshows => not_compare_dec t hshows.1 (ha.trans hshows.2) hsame
  case ins =>
    obtain ⟨t, hcombined, hhalves⟩ := ins_result hram
    have hsame : (opIns bus s).SameResult _ := h.trans hhalves.symm
    rw [hcombined] at hsame
    exact not_and_not_right.mpr (of_sbc_inc t hs.carry hsame)

end Operations

/-- Two operations with an opcode each. -/
theorem documented_pair {x y : UInt8}
    (h : documentedOpcodes.contains x && documentedOpcodes.contains y) :
    ∀ half ∈ [(opcodeDesc false x).op, (opcodeDesc false y).op],
      ∃ opcode ∈ documentedOpcodes, (opcodeDesc false opcode).op = half := by
  obtain ⟨hx, hy⟩ := Bool.and_eq_true_iff.1 h
  intro half hhalf
  obtain rfl | hhalf := List.mem_cons.1 hhalf
  · exact ⟨x, List.contains_iff_mem.1 hx, rfl⟩
  · exact ⟨y, List.contains_iff_mem.1 hy, (List.mem_singleton.1 hhalf).symm⟩

/-- The halves are operations of documented opcodes. -/
theorem Operation.halves_documented {op modify accumulate : Operation}
    (h : op.halves = some (modify, accumulate)) :
    ∀ half ∈ [modify, accumulate], ∃ opcode ∈ documentedOpcodes,
      (opcodeDesc false opcode).op = half := by
  cases op <;> cases h
  case aso => exact documented_pair (x := 0x06) (y := 0x05) (by decide +kernel)
  case rla => exact documented_pair (x := 0x26) (y := 0x25) (by decide +kernel)
  case lse => exact documented_pair (x := 0x46) (y := 0x45) (by decide +kernel)
  case rra => exact documented_pair (x := 0x66) (y := 0x65) (by decide +kernel)
  case dcm => exact documented_pair (x := 0xC6) (y := 0xC5) (by decide +kernel)
  case ins => exact documented_pair (x := 0xE6) (y := 0xE5) (by decide +kernel)

/-- **The combined opcodes of the NMOS table**, in each of their addressing modes, leave
the registers, the packed flags and the memory as their documented halves do, at an
address of memory and unless the wrapping of the byte shows. -/
theorem combinedOpcode_sameResult (bus : Bus W) (opcode : UInt8) {modify accumulate : Operation}
    (hop : (opcodeDesc false opcode).op.halves = some (modify, accumulate)) (s t : CpuState W)
    (ht : t = (opcodeDesc false opcode).mode.run bus s)
    (hram : bus.IsRam t.host.world t.ctx.addr)
    (hwrap : ¬ (opcodeDesc false opcode).op.WrapShows t (operand bus t)) :
    ((opcodeDesc false opcode).run bus s).SameResult
      (accumulate.run bus (modify.run bus t)) := by
  subst ht
  exact sameResult_of_not_wrapShows hop hram hwrap

/-- All but the region of the handlers is memory in the machine of memory alone. -/
theorem Bus.isRam_flat {w : Nat → UInt8} {a : UInt16} (h : isIoRegion a = false) :
    Bus.flat.IsRam w a := by
  refine ⟨h, fun v => ⟨_, rfl, ?_⟩⟩
  show (if a.toNat = a.toNat then v else w a.toNat) = v
  exact if_pos rfl

/-- A combined opcode with an operand in the zero page, where its byte is. -/
def combinedState (opcode a v : UInt8) : CpuState (Nat → UInt8) :=
  ((CpuInstance.flat 0x10 [v, opcode, 0x10] 0).enter.setA a).setPc 0x12

/-- `SLO` of a byte of memory. -/
theorem combinedOpcode_sameResult_aso :
    ((opcodeDesc false 0x07).run Bus.flat (combinedState 0x07 0x01 0x81)).SameResult
      (opOra Bus.flat (opAsl Bus.flat
        (AddressingMode.zpg.run Bus.flat (combinedState 0x07 0x01 0x81)))) :=
  combinedOpcode_sameResult Bus.flat 0x07 rfl _ _ rfl (Bus.isRam_flat (by decide +kernel)) id

/-- A machine with ROM from 0xD000 on, of bytes 0x80. -/
def Bus.withRom : Bus (Nat → UInt8) :=
  { Bus.flat with
    mem := fun world i => if 0xD000 ≤ i then 0x80 else world i
    store := fun world a v => if 0xD000 ≤ a then none else Bus.flat.store world a v }

/-- **They are not their halves everywhere**: `SLO 0xD000`, where there is ROM, `DCP` of
0x00 with 0xFF in the accumulator, and `ISC` of 0xFF. -/
theorem not_sameResult_combined :
    let slo := AddressingMode.abs.run Bus.withRom
      ((CpuInstance.flat 0x10 [0x0F, 0x00, 0xD0] 0).enter.setPc 0x11)
    let dcp := AddressingMode.zpg.run Bus.flat (combinedState 0xC7 0xFF 0)
    let isc := AddressingMode.zpg.run Bus.flat (combinedState 0xE7 0x40 0xFF)
    ¬ (opAso Bus.withRom slo).SameResult (opOra Bus.withRom (opAsl Bus.withRom slo)) ∧
      ¬ (opDcm Bus.flat dcp).SameResult (opCmp Bus.flat (opDec Bus.flat dcp)) ∧
      ¬ (opIns Bus.flat isc).SameResult (opSbcNmos Bus.flat (opInc Bus.flat isc)) := by
  refine ⟨fun h => absurd h.a ?_, fun h => absurd h.packed ?_, fun h => absurd h.packed ?_⟩
  · decide +kernel
  · decide +kernel
  · decide +kernel

end LinApple.Cpu
