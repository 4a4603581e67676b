import Mathlib.Data.Nat.Bitwise
import LinApple.Cpu.Cycles

/-!
# The flags between two packings

Inside a slice the flags are kept apart from the packed register. The carry
and the sign are put back as they are, so packing is right only while they
have no other bits: this holds from the first unpacking on, and packing then
writes down what the flags mean.
-/

namespace LinApple.Cpu

variable {W : Type*} (bus : Bus W)

/-! ## The carry and the sign -/

/-- A value the carry has. It is kept as a byte that is added, so any other value would be added
as well. -/
def IsCarry (v : UInt8) : Prop := v = 0 ∨ v = 1

/-- A value the sign has. -/
def IsSign (v : UInt8) : Prop := v = 0 ∨ v = 0x80

theorem isCarry_bit (b : Bool) : IsCarry (bit b) := by
  cases b
  · exact .inl rfl
  · exact .inr rfl

theorem isCarry_and (v : UInt8) : IsCarry (v &&& 1) := by
  unfold IsCarry
  rw [← UInt8.toNat_inj, ← UInt8.toNat_inj, UInt8.toNat_and]
  show v.toNat &&& 1 = 0 ∨ v.toNat &&& 1 = 1
  rw [Nat.and_one_is_mod]
  omega

theorem and_seven (n : Nat) : n &&& 0x80 = 0 ∨ n &&& 0x80 = 0x80 := by
  rw [show (0x80 : Nat) = 2 ^ 7 from rfl, Nat.and_two_pow]
  cases n.testBit 7
  · exact .inl rfl
  · exact .inr rfl

theorem isSign_and (v : UInt8) : IsSign (v &&& 0x80) := by
  unfold IsSign
  rw [← UInt8.toNat_inj, ← UInt8.toNat_inj, UInt8.toNat_and]
  exact and_seven v.toNat

theorem isSign_signOf (v : UInt16) : IsSign (signOf v) := by
  have h : (v &&& 0x80).toNat = 0 ∨ (v &&& 0x80).toNat = 0x80 := by
    rw [UInt16.toNat_and]
    exact and_seven v.toNat
  unfold IsSign signOf
  obtain h | h := h
  · exact .inl (congrArg UInt16.toUInt8 (UInt16.toNat_inj.mp h : v &&& 0x80 = 0))
  · exact .inr (congrArg UInt16.toUInt8 (UInt16.toNat_inj.mp h : v &&& 0x80 = 0x80))

/-- **The carry and the sign have no other bits.** Every instruction leaves them so, and the loop
sets them so from the packed flags; a state made by hand need not be. -/
structure CpuState.Tidy (s : CpuState W) : Prop where
  carry : IsCarry s.ctx.flagc
  sign : IsSign s.ctx.flagn

/-- The carry and the sign of a result have no other bits. -/
structure Arithmetic.Tidy (r : Arithmetic) : Prop where
  carry : IsCarry r.flagc
  sign : IsSign r.flagn

theorem ofValue_tidy (val : UInt16) {c : UInt8} (hc : IsCarry c) (v : UInt8) :
    (Arithmetic.ofValue val c v).Tidy :=
  ⟨hc, isSign_signOf _⟩

theorem ite_tidy {p : Prop} [Decidable p] {r r' : Arithmetic} (h : r.Tidy)
    (h' : r'.Tidy) : (if p then r else r').Tidy := by
  split
  · exact h
  · exact h'

section Results

variable (decimal : Bool) (a temp c : UInt16)

theorem adcNmos_tidy : (adcNmos decimal a temp c).Tidy :=
  ite_tidy ⟨isCarry_bit _, isSign_signOf _⟩ (ofValue_tidy _ (isCarry_bit _) _)

theorem adcCmos_tidy : (adcCmos decimal a temp c).Tidy :=
  ite_tidy (ite_tidy (ofValue_tidy _ (.inr rfl) _) (ofValue_tidy _ (.inl rfl) _))
    (ite_tidy (ofValue_tidy _ (.inr rfl) _) (ofValue_tidy _ (.inl rfl) _))

theorem sbcNmos_tidy : (sbcNmos decimal a temp c).Tidy :=
  ite_tidy ⟨isCarry_bit _, isSign_signOf _⟩ (ofValue_tidy _ (isCarry_bit _) _)

theorem sbcCmos_tidy : (sbcCmos decimal a temp c).Tidy :=
  ite_tidy (ite_tidy (ofValue_tidy _ (.inl rfl) _) (ofValue_tidy _ (.inr rfl) _))
    (ite_tidy (ofValue_tidy _ (.inl rfl) _) (ofValue_tidy _ (.inr rfl) _))

theorem arr_tidy (c : UInt8) : (arr decimal temp c).Tidy := by
  refine ite_tidy ⟨isCarry_bit _, ?_⟩ ⟨isCarry_bit _, isSign_signOf _⟩
  show IsSign (if c ≠ 0 then 0x80 else 0)
  split
  · exact .inr rfl
  · exact .inl rfl

end Results

namespace CpuState

variable {s : CpuState W}

/-- **Every operation keeps the flags tidy.** -/
theorem Tidy.run (h : s.Tidy) (op : Operation) : (op.run bus s).Tidy := by
  cases op
  case bpl | bmi | bvc | bvs | bcc | bcs | bne | beq =>
    simp only [Operation.run, branchIf]
    split
    · exact ⟨h.carry, h.sign⟩
    · exact h
  case lda | ldx | ldy | tax | txa | tay | tya | tsx | and | ora | eor | ina | dea |
      inc | dec | inx | dex | iny | dey | pla | plx | ply | las | lax | oal | xaa =>
    exact ⟨h.carry, isSign_signOf _⟩
  case cmp | cpx | cpy | asla | asl | rola | rol | aso | dcm | rla | sax | anc =>
    exact ⟨isCarry_bit _, isSign_signOf _⟩
  case rora | ror | lse => exact ⟨isCarry_and _, isSign_signOf _⟩
  case lsra | lsr | alr => exact ⟨isCarry_and _, .inl rfl⟩
  case bit => exact ⟨h.carry, isSign_and _⟩
  case adcNmos | rra => exact ⟨(adcNmos_tidy _ _ _ _).carry, (adcNmos_tidy _ _ _ _).sign⟩
  case adcCmos => exact ⟨(adcCmos_tidy _ _ _ _).carry, (adcCmos_tidy _ _ _ _).sign⟩
  case sbcNmos | ins => exact ⟨(sbcNmos_tidy _ _ _ _).carry, (sbcNmos_tidy _ _ _ _).sign⟩
  case sbcCmos => exact ⟨(sbcCmos_tidy _ _ _ _).carry, (sbcCmos_tidy _ _ _ _).sign⟩
  case arr => exact ⟨(arr_tidy _ _ _).carry, (arr_tidy _ _ _).sign⟩
  case rti | plp => exact ⟨isCarry_and _, isSign_and _⟩
  case clc => exact ⟨.inl rfl, h.sign⟩
  case sec => exact ⟨.inr rfl, h.sign⟩
  all_goals exact ⟨h.carry, h.sign⟩

/-- An addressing mode keeps them tidy. -/
theorem Tidy.runMode (h : s.Tidy) (mode : AddressingMode) :
    (mode.run bus s).Tidy := by
  obtain ⟨a, b, e, hc⟩ := mode.run_ctx bus s
  exact ⟨by rw [hc]; exact h.carry, by rw [hc]; exact h.sign⟩

/-- The handler of an opcode keeps them tidy. -/
theorem Tidy.dispatch (h : s.Tidy) (d : OpcodeDesc) : (s.dispatch bus d).Tidy :=
  have h' : (s.setExtra 0).Tidy := ⟨h.carry, h.sign⟩
  have h'' := (h'.runMode bus d.mode).run bus d.op
  ⟨h''.carry, h''.sign⟩

/-- An instruction keeps them tidy. -/
theorem Tidy.execute (h : s.Tidy) (cmos : Bool) : (s.execute bus cmos).Tidy :=
  have h' : (s.fetchOpcode bus).2.Tidy := ⟨h.carry, h.sign⟩
  have h'' := h'.dispatch bus (opcodeDesc cmos (s.fetchOpcode bus).1)
  ⟨h''.carry, h''.sign⟩

/-- The context after the entry of an interrupt. -/
theorem interrupt_ctx (s : CpuState W) (cmos : Bool) (vector : Nat) :
    (s.interrupt bus cmos vector).ctx
      = { s.ctx with executedCycles := s.ctx.executedCycles + 7 } := rfl

/-- The entry of an interrupt keeps them tidy. -/
theorem Tidy.interrupt (h : s.Tidy) (cmos : Bool) (vector : Nat) :
    (s.interrupt bus cmos vector).Tidy := by
  constructor
  · rw [interrupt_ctx]
    exact h.carry
  · rw [interrupt_ctx]
    exact h.sign

theorem Tidy.checkNmi (h : s.Tidy) (cmos : Bool) : (s.checkNmi bus cmos).Tidy := by
  unfold CpuState.checkNmi
  split
  · exact Tidy.interrupt bus (s := s.clearFlank) ⟨h.carry, h.sign⟩ _ _
  · exact h

theorem Tidy.checkIrq (h : s.Tidy) (cmos : Bool) : (s.checkIrq bus cmos).Tidy := by
  unfold CpuState.checkIrq
  split
  · exact h.interrupt bus _ _
  · exact h

/-- **A turn keeps them tidy.** -/
theorem Tidy.turn (h : s.Tidy) (cmos : Bool) : (s.turn bus cmos).Tidy :=
  have h' := h.execute bus cmos
  have h'' : ((s.execute bus cmos).arrive bus).Tidy := ⟨h'.carry, h'.sign⟩
  (h''.checkNmi bus cmos).checkIrq bus cmos

/-- Unpacked flags are tidy. -/
theorem unpackPs_tidy (s : CpuState W) : s.unpackPs.Tidy :=
  ⟨isCarry_and _, isSign_and _⟩

/-! ## Packed flags -/

/-- **The packed flags say what the flags mean.** -/
structure Settled (s : CpuState W) : Prop where
  carry : s.regs.ps &&& afCarry = s.ctx.flagc
  sign : s.regs.ps &&& afSign = s.ctx.flagn
  overflow : s.regs.ps &&& afOverflow = 0 ↔ s.ctx.flagv = 0
  zero : s.regs.ps &&& afZero = 0 ↔ s.ctx.flagz = 0

/-- The masks of the flags that are kept apart. -/
def flagMasks : List UInt8 := [afCarry, afSign, afOverflow, afZero]

/-- What the context has under a mask. -/
def flagBits (c : CpuLoopContext) (m : UInt8) : UInt8 :=
  (c.flagc &&& m) ||| (c.flagn &&& m)
    ||| ((if c.flagv ≠ 0 then afOverflow else 0) &&& m)
    ||| ((if c.flagz ≠ 0 then afZero else 0) &&& m)

/-- Packing puts the context's bits under the masks. -/
theorem packed_and (s : CpuState W) (m : UInt8) (hm : m ∈ flagMasks) :
    s.packed &&& m = flagBits s.ctx m := by
  have hz : ~~~(afCarry ||| afSign ||| afOverflow ||| afZero) &&& m = 0 ∧
      afReserved &&& m = 0 ∧ afBreak &&& m = 0 := by
    simp only [flagMasks, List.mem_cons, List.not_mem_nil, or_false] at hm
    rcases hm with rfl | rfl | rfl | rfl <;> decide
  have hd : s.packed &&& m
      = (s.regs.ps &&& (~~~(afCarry ||| afSign ||| afOverflow ||| afZero) &&& m))
        ||| (s.ctx.flagc &&& m) ||| (s.ctx.flagn &&& m)
        ||| ((if s.ctx.flagv ≠ 0 then afOverflow else 0) &&& m)
        ||| ((if s.ctx.flagz ≠ 0 then afZero else 0) &&& m)
        ||| (afReserved &&& m) ||| (afBreak &&& m) := by
    unfold packed
    rw [← UInt8.toBitVec_inj]
    simp only [UInt8.toBitVec_and, UInt8.toBitVec_or, BitVec.and_or_distrib_right,
      BitVec.and_assoc]
  rw [hd, hz.1, hz.2.1, hz.2.2, UInt8.and_zero, UInt8.zero_or, UInt8.or_zero,
    UInt8.or_zero]
  rfl

/-- The masks are of different bits, so each finds its own flag. -/
theorem masks_apart {c n v z : UInt8} (hc : c = 0 ∨ c = 1) (hn : n = 0 ∨ n = 0x80)
    (hv : v = afOverflow ∨ v = 0) (hz : z = afZero ∨ z = 0) :
    let bits := fun m => (c &&& m) ||| (n &&& m) ||| (v &&& m) ||| (z &&& m)
    bits afCarry = c ∧ bits afSign = n ∧ bits afOverflow = v ∧ bits afZero = z := by
  rcases hc with rfl | rfl <;> rcases hn with rfl | rfl <;>
    rcases hv with rfl | rfl <;> rcases hz with rfl | rfl <;> decide

/-- Tidy flags are settled by any register that has their bits. -/
theorem Tidy.settled (h : s.Tidy)
    (hps : ∀ m ∈ flagMasks, s.regs.ps &&& m = flagBits s.ctx m) : s.Settled := by
  have hite (v m : UInt8) :
      (if v ≠ 0 then m else 0) = m ∨ (if v ≠ 0 then m else 0) = 0 := by
    split
    · exact .inl rfl
    · exact .inr rfl
  obtain ⟨hc, hn, hv, hz⟩ := masks_apart h.carry h.sign
    (hite s.ctx.flagv afOverflow) (hite s.ctx.flagz afZero)
  have hzero {v m : UInt8} (hm : m ≠ 0) : (if v ≠ 0 then m else 0) = 0 ↔ v = 0 := by
    by_cases h0 : v = 0
    · simp only [h0, ne_eq, not_true, if_false]
    · simp only [h0, ne_eq, not_false_eq_true, if_true, hm]
  refine ⟨(hps _ (by decide)).trans hc, (hps _ (by decide)).trans hn, ?_, ?_⟩
  · rw [hps _ (by decide), show flagBits s.ctx afOverflow = _ from hv]
    exact hzero (by decide)
  · rw [hps _ (by decide), show flagBits s.ctx afZero = _ from hz]
    exact hzero (by decide)

/-- **Packing settles tidy flags.** -/
theorem Tidy.packPs_settled (h : s.Tidy) : s.packPs.Settled :=
  Tidy.settled ⟨h.carry, h.sign⟩ fun m hm => packed_and s m hm

/-- The flags an interrupt masks are none of these. -/
theorem maskInterrupts_and (ps m : UInt8) (cmos : Bool) (hm : m ∈ flagMasks) :
    (if cmos then (ps ||| afInterrupt) &&& ~~~afDecimal else ps ||| afInterrupt) &&& m
      = ps &&& m := by
  have hi : afInterrupt &&& m = 0 ∧ ~~~afDecimal &&& m = m := by
    simp only [flagMasks, List.mem_cons, List.not_mem_nil, or_false] at hm
    rcases hm with rfl | rfl | rfl | rfl <;> decide
  have hd : (ps ||| afInterrupt) &&& m = ps &&& m := by
    rw [← UInt8.toBitVec_inj, UInt8.toBitVec_and, UInt8.toBitVec_or,
      BitVec.and_or_distrib_right, ← UInt8.toBitVec_and, ← UInt8.toBitVec_and, hi.1]
    exact BitVec.or_zero
  cases cmos
  · exact hd
  · show (ps ||| afInterrupt) &&& ~~~afDecimal &&& m = _
    rw [UInt8.and_assoc, hi.2, hd]

/-- The packed flags after the entry of an interrupt. -/
theorem interrupt_ps (s : CpuState W) (cmos : Bool) (vector : Nat) :
    (s.interrupt bus cmos vector).regs.ps
      = if cmos then (s.packed ||| afInterrupt) &&& ~~~afDecimal
        else s.packed ||| afInterrupt := rfl

/-- The entry of an interrupt settles tidy flags again. -/
theorem Tidy.interrupt_settled (h : s.Tidy) (cmos : Bool) (vector : Nat) :
    (s.interrupt bus cmos vector).Settled := by
  refine (h.interrupt bus cmos vector).settled fun m hm => ?_
  rw [interrupt_ps, maskInterrupts_and _ _ _ hm, packed_and s m hm, interrupt_ctx]
  rfl

theorem Tidy.checkNmi_settled (h : s.Tidy) (hs : s.Settled) (cmos : Bool) :
    (s.checkNmi bus cmos).Settled := by
  unfold CpuState.checkNmi
  split
  · exact Tidy.interrupt_settled bus (s := s.clearFlank) ⟨h.carry, h.sign⟩ _ _
  · exact hs

theorem Tidy.checkIrq_settled (h : s.Tidy) (hs : s.Settled) (cmos : Bool) :
    (s.checkIrq bus cmos).Settled := by
  unfold CpuState.checkIrq
  split
  · exact h.interrupt_settled bus _ _
  · exact hs

/-- **After a turn the packed flags say what the flags mean.** -/
theorem Tidy.turn_settled (h : s.Tidy) (cmos : Bool) :
    (s.turn bus cmos).Settled := by
  have hf : (s.fetchOpcode bus).2.Tidy := ⟨h.carry, h.sign⟩
  have hp := (hf.dispatch bus (opcodeDesc cmos (s.fetchOpcode bus).1)).packPs_settled
  have ha : ((s.execute bus cmos).arrive bus).Settled :=
    ⟨hp.carry, hp.sign, hp.overflow, hp.zero⟩
  have he := h.execute bus cmos
  have ht : ((s.execute bus cmos).arrive bus).Tidy := ⟨he.carry, he.sign⟩
  exact (ht.checkNmi bus cmos).checkIrq_settled bus (ht.checkNmi_settled bus ha cmos) cmos

end CpuState

end LinApple.Cpu
