import LinApple.Cpu.Flags

/-!
# The two processors agree

The tables differ in most of the opcodes the 6502 is not documented with, and of the documented
ones in `BRK`, in `JMP` through a pointer, and in addition and subtraction, which each table has
its own code for. Binary addition and subtraction come to the same results, written down in
another way, so with the decimal flag clear a documented instruction other than `BRK`, and other
than a `JMP` through a pointer at the end of a page, does the same on both processors.

The rows of the two tables are compared first (`Corresponds`). For most opcodes they are the same
row, and there is nothing more to prove: the same functions run on the same state. What is left
are three pairs, and for each of them one lemma. The arithmetic needs more than that both results
are right, since the flags are kept as they come, and an overflow that is set need not be the same
number in both. `Arithmetic.Agree` therefore compares the overflow by whether it is zero. Packed,
the two are one byte.

That they agree is said of the registers with the packed flags and of all of the rest of the
machine (`CpuState.Agree`), so of every byte that was read or written and of its order, of the
cycles that were charged and of what handlers were told. The loop's own working fields are left
out, which the next instruction does not read.

A turn of the loop does more than the instruction: it looks at the interrupt lines at its end.
What is pending there is the same for both, but an interrupt that is taken clears the decimal flag
on one of them alone. So the second half is about turns at whose end nothing is pending.
-/

namespace LinApple.Cpu

variable {W : Type*}

/-! ## Binary arithmetic -/

/-- **Results that mean the same**: the overflow may be written in another way. It is kept as a
byte of which only is asked whether it is zero, and the two processors' handlers set it
differently. -/
structure Arithmetic.Agree (r r' : Arithmetic) : Prop where
  a : r.a = r'.a
  flagc : r.flagc = r'.flagc
  flagn : r.flagn = r'.flagn
  flagv : r.flagv = 0 ↔ r'.flagv = 0
  flagz : r.flagz = r'.flagz

/-- Bit 7 of a value. -/
theorem and_0x80 (v : UInt16) : (v &&& 0x80).toNat = (v.toNat.testBit 7).toNat * 128 := by
  rw [UInt16.toNat_and]
  exact Nat.and_two_pow v.toNat 7

theorem and_0x80_eq_iff (v w : UInt16) :
    v &&& 0x80 = w &&& 0x80 ↔ v.toNat.testBit 7 = w.toNat.testBit 7 := by
  rw [← UInt16.toNat_inj, and_0x80, and_0x80]
  cases v.toNat.testBit 7 <;> cases w.toNat.testBit 7 <;> decide

theorem xor_and_0x80_eq_zero (v w : UInt16) :
    (v ^^^ w) &&& 0x80 = 0 ↔ v.toNat.testBit 7 = w.toNat.testBit 7 := by
  rw [← UInt16.toNat_inj, and_0x80, UInt16.toNat_xor, Nat.testBit_xor]
  cases v.toNat.testBit 7 <;> cases w.toNat.testBit 7 <;> decide

/-- Bit 7 by division. -/
theorem testBit_seven (n : Nat) : n.testBit 7 = decide (n / 128 % 2 = 1) :=
  Nat.testBit_eq_decide_div_mod_eq

theorem ofValue_agree {val val' : UInt16} (h : val &&& 0xFF = val' &&& 0xFF)
    {c c' v v' : UInt8} (hc : c = c') (hv : v = 0 ↔ v' = 0) :
    (Arithmetic.ofValue val c v).Agree (.ofValue val' c' v') where
  a := by simp only [Arithmetic.ofValue, h]
  flagc := hc
  flagn := by simp only [Arithmetic.ofValue, h]
  flagv := hv
  flagz := by simp only [Arithmetic.ofValue, h]

theorem bit_eq_zero (b : Bool) : bit b = 0 ↔ b = false := by
  cases b <;> decide

theorem isCarry_toNat {c : UInt8} (hc : IsCarry c) : c.toNat ≤ 1 := by
  obtain rfl | rfl := hc <;> decide

/-- What a flag is if it is cleared under a condition. -/
theorem ite_zero_eq_zero {p : Prop} [Decidable p] (b : Bool) :
    (if p then 0 else bit b) = 0 ↔ p ∨ b = false := by
  by_cases h : p
  · simp only [h, if_true, true_or]
  · simp only [h, if_false, bit_eq_zero, false_or]

/-- **The two additions agree in binary.** -/
theorem adc_agree (x y : UInt8) {c : UInt8} (hc : IsCarry c) :
    (adcNmos false x.toUInt16 y.toUInt16 c.toUInt16).Agree
      (adcCmos false x.toUInt16 y.toUInt16 c.toUInt16) := by
  have hx := x.toNat_lt
  have hy := y.toNat_lt
  have hc := isCarry_toNat hc
  show (adcNmosBinary _ _ _).Agree (adcCmosBinary _ _ _)
  unfold adcNmosBinary adcCmosBinary adcCmosOverflow
  have hval : (x.toUInt16 + y.toUInt16 + c.toUInt16).toNat
      = x.toNat + y.toNat + c.toNat := by
    rw [UInt16.toNat_add, UInt16.toNat_add, UInt8.toNat_toUInt16, UInt8.toNat_toUInt16,
      UInt8.toNat_toUInt16]
    omega
  -- the sum is compared with 0x100 first, as the CMOS processor does
  by_cases h : x.toUInt16 + y.toUInt16 + c.toUInt16 ≥ 0x100
  · simp only [h, if_true]
    have hn : 256 ≤ x.toNat + y.toNat + c.toNat := hval ▸ UInt16.le_iff_toNat_le.mp h
    refine ofValue_agree rfl ?_ ?_
    · rw [decide_eq_true (UInt16.lt_iff_toNat_lt.mpr (by rw [hval]; exact hn))]
      rfl
    · rw [ite_zero_eq_zero]
      simp only [bit_eq_zero, Bool.and_eq_false_iff, beq_eq_false_iff_ne, ne_eq,
        bne_eq_false_iff_eq, and_0x80_eq_iff, xor_and_0x80_eq_zero, hval, testBit_seven,
        UInt8.toNat_toUInt16, decide_eq_decide, ge_iff_le, UInt16.le_iff_toNat_le]
      show _ ↔ 384 ≤ _ ∨ _
      omega
  · simp only [h, if_false]
    have hn : ¬ 256 ≤ x.toNat + y.toNat + c.toNat :=
      fun hn => h (UInt16.le_iff_toNat_le.mpr (hval ▸ hn))
    refine ofValue_agree rfl ?_ ?_
    · rw [decide_eq_false fun hlt => hn ?_]
      · rfl
      · rw [← hval]
        exact UInt16.lt_iff_toNat_lt.mp hlt
    · rw [ite_zero_eq_zero]
      simp only [bit_eq_zero, Bool.and_eq_false_iff, beq_eq_false_iff_ne, ne_eq,
        bne_eq_false_iff_eq, and_0x80_eq_iff, xor_and_0x80_eq_zero, hval, testBit_seven,
        UInt8.toNat_toUInt16, decide_eq_decide, UInt16.lt_iff_toNat_lt]
      show _ ↔ _ < 128 ∨ _
      omega

theorem and_0xFF (v : UInt16) : (v &&& 0xFF).toNat = v.toNat % 256 := by
  rw [UInt16.toNat_and]
  exact Nat.and_two_pow_sub_one_eq_mod v.toNat 8

/-- The overflow of `op_sbc_cmos` before it is cleared. -/
theorem sbcCmosOverflow_eq_zero (v w : UInt16) :
    sbcCmosOverflow v w = 0 ↔ v.toNat.testBit 7 = w.toNat.testBit 7 := by
  rw [← xor_and_0x80_eq_zero]
  unfold sbcCmosOverflow
  rw [← UInt8.toNat_inj, UInt16.toNat_toUInt8, ← UInt16.toNat_inj, and_0x80]
  cases (v ^^^ w).toNat.testBit 7 <;> decide

/-- What a flag is if it is cleared under a condition. -/
theorem ite_zero_sbc {p : Prop} [Decidable p] (v w : UInt16) :
    (if p then 0 else sbcCmosOverflow v w) = 0 ↔
      p ∨ v.toNat.testBit 7 = w.toNat.testBit 7 := by
  by_cases h : p
  · simp only [h, if_true, true_or]
  · simp only [h, if_false, sbcCmosOverflow_eq_zero, false_or]

/-- **The two subtractions agree in binary.** -/
theorem sbc_agree (x y : UInt8) {c : UInt8} (hc : IsCarry c) :
    (sbcNmos false x.toUInt16 y.toUInt16 c.toUInt16).Agree
      (sbcCmos false x.toUInt16 y.toUInt16 c.toUInt16) := by
  have hx := x.toNat_lt
  have hy := y.toNat_lt
  show (sbcNmosBinary _ _ _).Agree (sbcCmosBinary _ _ _)
  unfold sbcNmosBinary sbcCmosBinary
  -- both sums over the naturals: one borrows below zero and wraps at 16 bits, the other adds `$FF`
  -- first and does not wrap
  have hval : (x.toUInt16 - y.toUInt16 - borrow c.toUInt16).toNat
      = (x.toNat + 65535 + c.toNat - y.toNat) % 65536 := by
    have hb : (borrow c.toUInt16).toNat = 1 - c.toNat := by
      obtain rfl | rfl := hc <;> rfl
    have hc := isCarry_toNat hc
    rw [UInt16.toNat_sub, UInt16.toNat_sub, UInt8.toNat_toUInt16, UInt8.toNat_toUInt16, hb]
    omega
  have hval' : (0xFF + x.toUInt16 - y.toUInt16 + c.toUInt16).toNat
      = x.toNat + 255 + c.toNat - y.toNat := by
    have hc := isCarry_toNat hc
    rw [UInt16.toNat_add, UInt16.toNat_sub, UInt16.toNat_add, UInt8.toNat_toUInt16,
      UInt8.toNat_toUInt16, UInt8.toNat_toUInt16]
    show ((65536 - y.toNat + (255 + x.toNat) % 65536) % 65536 + c.toNat) % 65536 = _
    omega
  have hlow : (x.toUInt16 - y.toUInt16 - borrow c.toUInt16) &&& 0xFF
      = (0xFF + x.toUInt16 - y.toUInt16 + c.toUInt16) &&& 0xFF := by
    rw [← UInt16.toNat_inj, and_0xFF, and_0xFF, hval, hval']
    omega
  have hc := isCarry_toNat hc
  -- on either side of `$100` both carries are decided, and the overflow bit with them
  by_cases h : 0xFF + x.toUInt16 - y.toUInt16 + c.toUInt16 < 0x100
  · simp only [h, if_true]
    have hn : x.toNat + 255 + c.toNat - y.toNat < 256 :=
      hval' ▸ UInt16.lt_iff_toNat_lt.mp h
    refine ofValue_agree hlow ?_ ?_
    · rw [decide_eq_false fun hlt => ?_]
      · rfl
      · have := UInt16.lt_iff_toNat_lt.mp hlt
        rw [hval] at this
        have : _ < 256 := this
        omega
    · rw [ite_zero_sbc]
      simp only [bit_eq_zero, Bool.and_eq_false_iff, bne_eq_false_iff_eq,
        and_0x80_eq_iff, hval, hval', testBit_seven,
        UInt8.toNat_toUInt16, decide_eq_decide, UInt16.lt_iff_toNat_lt]
      show _ ↔ _ < 128 ∨ _
      omega
  · simp only [h, if_false]
    have hn : ¬ x.toNat + 255 + c.toNat - y.toNat < 256 :=
      fun hn => h (UInt16.lt_iff_toNat_lt.mpr (hval' ▸ hn))
    refine ofValue_agree hlow ?_ ?_
    · rw [decide_eq_true (UInt16.lt_iff_toNat_lt.mpr ?_)]
      · rfl
      · rw [hval]
        show _ < 256
        omega
    · rw [ite_zero_sbc]
      simp only [bit_eq_zero, Bool.and_eq_false_iff, bne_eq_false_iff_eq,
        and_0x80_eq_iff, hval, hval', testBit_seven,
        UInt8.toNat_toUInt16, decide_eq_decide, ge_iff_le, UInt16.le_iff_toNat_le]
      show _ ↔ 384 ≤ _ ∨ _
      omega

/-! ## The tables -/

/-- **Rows that do the same in binary**, but for the pointer of a jump. -/
inductive OpcodeDesc.Corresponds : OpcodeDesc → OpcodeDesc → Prop where
  | same (d : OpcodeDesc) : Corresponds d d
  | adc (mode : AddressingMode) (cycles : UInt8) :
    Corresponds ⟨mode, .adcNmos, cycles⟩ ⟨mode, .adcCmos, cycles⟩
  | sbc (mode : AddressingMode) (cycles : UInt8) :
    Corresponds ⟨mode, .sbcNmos, cycles⟩ ⟨mode, .sbcCmos, cycles⟩
  | jmp : Corresponds ⟨.iabsNmos, .jmp, 6⟩ ⟨.iabsCmos, .jmp, 6⟩

/-- Rows that correspond, as a test. -/
def OpcodeDesc.corresponds (d d' : OpcodeDesc) : Bool :=
  d == d'
    || (d.op == .adcNmos && d' == ⟨d.mode, .adcCmos, d.baseCycles⟩)
    || (d.op == .sbcNmos && d' == ⟨d.mode, .sbcCmos, d.baseCycles⟩)
    || (d == ⟨.iabsNmos, .jmp, 6⟩ && d' == ⟨.iabsCmos, .jmp, 6⟩)

theorem OpcodeDesc.corresponds_of {d d' : OpcodeDesc} (h : d.corresponds d') :
    d.Corresponds d' := by
  unfold OpcodeDesc.corresponds at h
  simp only [Bool.or_eq_true, Bool.and_eq_true, beq_iff_eq] at h
  obtain ((rfl | ⟨h, rfl⟩) | ⟨h, rfl⟩) | ⟨rfl, rfl⟩ := h
  · exact .same d
  · obtain ⟨m, op, n⟩ := d
    subst h
    exact .adc m n
  · obtain ⟨m, op, n⟩ := d
    subst h
    exact .sbc m n
  · exact .jmp

/-- The documented opcodes but `BRK`, as the bits of a number. -/
def documentedBits : Nat :=
  0x6363777363637773777377772773757263637763636377636363777363636762

theorem testBit_documentedBits {opcode : UInt8} (h : opcode ∈ documentedOpcodes)
    (hbrk : opcode ≠ 0x00) : documentedBits.testBit opcode.toNat := by
  have hall : documentedOpcodes.all fun o => o == 0x00 || documentedBits.testBit o.toNat := by
    decide +kernel
  have hbit := List.all_eq_true.1 hall opcode h
  rwa [beq_false_of_ne hbrk] at hbit

/-- **The rows of the documented opcodes correspond**, but for `BRK`. -/
theorem documented_corresponds {opcode : UInt8} (h : opcode ∈ documentedOpcodes)
    (hbrk : opcode ≠ 0x00) :
    (opcodeDesc false opcode).Corresponds (opcodeDesc true opcode) := by
  have hall : (opcodesNmos.zip opcodesCmos).zipIdx.all fun p =>
      !documentedBits.testBit p.2 || p.1.1.corresponds p.1.2 := by
    decide +kernel
  have hrows : (opcodesNmos.zip opcodesCmos)[opcode.toNat]?
      = some (opcodeDesc false opcode, opcodeDesc true opcode) :=
    List.getElem?_zip_eq_some.mpr
      ⟨List.getElem?_eq_getElem (toNat_lt_opcodes false opcode),
        List.getElem?_eq_getElem (toNat_lt_opcodes true opcode)⟩
  have hrow := List.all_eq_true.1 hall _ (List.mk_mem_zipIdx_iff_getElem?.2 hrows)
  dsimp only at hrow
  rw [testBit_documentedBits h hbrk] at hrow
  exact OpcodeDesc.corresponds_of hrow

/-! ## Instructions -/

variable (bus : Bus W)

/-- **States that agree**: on the registers and on the rest of the machine. -/
structure CpuState.Agree (s t : CpuState W) : Prop where
  regs : s.regs = t.regs
  host : s.host = t.host

/-- The pointer of a jump that does not wrap around in its page. -/
theorem addrIabs_eq {s : CpuState W} (h : (s.fetchPc16 bus).1 &&& 0xFF ≠ 0xFF) :
    addrIabsNmos bus s = addrIabsCmos bus s := by
  have hp : readPointerNmos bus (s.fetchPc16 bus).2 (s.fetchPc16 bus).1
      = (s.fetchPc16 bus).2.fetch16 bus (s.fetchPc16 bus).1.toNat := if_neg h
  have hn : addrIabsNmos bus s
      = (((s.fetchPc16 bus).2.fetch16 bus (s.fetchPc16 bus).1.toNat).2.setBase
          (s.fetchPc16 bus).1).setAddr
        ((s.fetchPc16 bus).2.fetch16 bus (s.fetchPc16 bus).1.toNat).1 := by
    rw [← hp]
    rfl
  have hc : addrIabsCmos bus s = (addrIabsNmos bus s).setExtra
      (if (s.fetchPc16 bus).1 &&& 0xFF = 0xFF then 1 else s.ctx.extraCycles) := by
    rw [hn]
    rfl
  rw [hc, if_neg h, hn]
  rfl

/-- Results that agree are packed alike. -/
theorem setArithmetic_packed {s : CpuState W} {r r' : Arithmetic} (h : r.Agree r') :
    (s.setArithmetic r).packed = (s.setArithmetic r').packed := by
  have hv : (if r.flagv ≠ 0 then afOverflow else 0)
      = if r'.flagv ≠ 0 then afOverflow else 0 := by
    simp only [ne_eq, h.flagv]
  show (s.regs.ps &&& _) ||| r.flagc ||| r.flagn ||| (if r.flagv ≠ 0 then afOverflow else 0)
    ||| (if r.flagz ≠ 0 then afZero else 0) ||| afReserved ||| afBreak = _
  rw [h.flagc, h.flagn, hv, h.flagz]
  rfl

/-- Results that agree leave states that agree when the flags are packed. -/
theorem setArithmetic_agree {s : CpuState W} {r r' : Arithmetic} (h : r.Agree r')
    {n n' : UInt32} (hn : n = n') :
    ((s.setArithmetic r).charge n).packPs.Agree ((s.setArithmetic r').charge n').packPs := by
  subst hn
  refine ⟨?_, rfl⟩
  show { s.regs with a := r.a, ps := (s.setArithmetic r).packed } = _
  rw [setArithmetic_packed h, h.a]
  rfl

theorem chargeDecimal_of_not {s : CpuState W} (h : s.decimal = false) :
    chargeDecimal s = s := by
  show s.setExtra (if s.decimal then s.ctx.extraCycles + 1 else s.ctx.extraCycles) = s
  rw [h]
  rfl

theorem opArithmetic_eq {f : Bool → UInt16 → UInt16 → UInt16 → Arithmetic}
    {s : CpuState W} (h : s.decimal = false) :
    opArithmetic bus s f = (s.readByte bus s.ctx.addr).2.setArithmetic
      (f false s.regs.a.toUInt16 (s.readByte bus s.ctx.addr).1.toUInt16
        s.ctx.flagc.toUInt16) := by
  rw [← h]
  rfl

/-- **Two operations whose results agree in binary** leave states that agree
when the flags are packed. -/
theorem opArithmetic_agree {f g : Bool → UInt16 → UInt16 → UInt16 → Arithmetic}
    (hfg : ∀ (x y : UInt8) {c : UInt8}, IsCarry c →
      (f false x.toUInt16 y.toUInt16 c.toUInt16).Agree
        (g false x.toUInt16 y.toUInt16 c.toUInt16))
    {s : CpuState W} (h : s.Tidy) (hd : s.decimal = false) (d d' : OpcodeDesc)
    (hdd : d.baseCycles = d'.baseCycles) :
    ((opArithmetic bus s f).charge ((opArithmetic bus s f).cycles d)).packPs.Agree
      ((chargeDecimal (opArithmetic bus s g)).charge
        ((chargeDecimal (opArithmetic bus s g)).cycles d')).packPs := by
  have hd' : (opArithmetic bus s g).decimal = false := hd
  rw [chargeDecimal_of_not hd', opArithmetic_eq bus hd, opArithmetic_eq bus hd]
  refine setArithmetic_agree (hfg _ _ h.carry) ?_
  unfold CpuState.cycles
  rw [hdd]
  rfl

/-- **Rows that correspond do the same in binary.** -/
theorem dispatch_agree {d d' : OpcodeDesc} (h : d.Corresponds d') {s : CpuState W}
    (hs : s.Tidy) (hd : s.decimal = false)
    (hjmp : d.mode = .iabsNmos → (s.fetchPc16 bus).1 &&& 0xFF ≠ 0xFF) :
    (s.dispatch bus d).packPs.Agree (s.dispatch bus d').packPs := by
  have hs' : (s.setExtra 0).Tidy := ⟨hs.carry, hs.sign⟩
  have ht (mode : AddressingMode) : (mode.run bus (s.setExtra 0)).Tidy :=
    hs'.runMode bus mode
  have hdec (mode : AddressingMode) : (mode.run bus (s.setExtra 0)).decimal = false :=
    (mode.run_decimal bus _).trans hd
  cases h with
  | same => exact ⟨rfl, rfl⟩
  | adc mode cycles =>
    exact opArithmetic_agree bus adc_agree (ht mode) (hdec mode) _ _ rfl
  | sbc mode cycles =>
    exact opArithmetic_agree bus sbc_agree (ht mode) (hdec mode) _ _ rfl
  | jmp =>
    have he : addrIabsNmos bus (s.setExtra 0) = addrIabsCmos bus (s.setExtra 0) :=
      addrIabs_eq bus (hjmp rfl)
    unfold CpuState.dispatch OpcodeDesc.run
    simp only [AddressingMode.run, he]
    exact ⟨rfl, rfl⟩

/-- A pending interrupt is read off what agrees. -/
theorem CpuState.Agree.arrive {s t : CpuState W} (h : s.Agree t) :
    (s.arrive bus).Agree (t.arrive bus) :=
  ⟨h.regs, by simp only [CpuState.arrive, h.host]⟩

theorem CpuState.Agree.interruptPending {s t : CpuState W} (h : s.Agree t) :
    s.interruptPending ↔ t.interruptPending := by
  unfold CpuState.interruptPending CpuState.irqPending
  rw [h.regs, h.host]

/-- The pointer of the jump at the program counter, if there is one. -/
def CpuState.jumpPointer (s : CpuState W) : UInt16 :=
  ((s.fetchOpcode bus).2.fetchPc16 bus).1

/-- The row of the 6502 for a jump through a pointer. -/
theorem jmp_of_iabsNmos {opcode : UInt8}
    (h : (opcodeDesc false opcode).mode = .iabsNmos) : opcode = 0x6C := by
  revert h
  exact opcodeDesc_of_zipIdx
    (P := fun o d => d.mode = .iabsNmos → o = 0x6C) (by decide +kernel) opcode

/-- **An instruction does the same on both processors**, and so does a turn
if no interrupt is pending at its end: the registers with the packed flags,
the memory, and the accesses of the handlers with their cycles agree. -/
theorem tables_agree (p : CpuInstance W) (hd : p.enter.decimal = false)
    (hop : p.enter.opcode bus ∈ documentedOpcodes) (hbrk : p.enter.opcode bus ≠ 0x00)
    (hjmp : p.enter.opcode bus = 0x6C → p.enter.jumpPointer bus &&& 0xFF ≠ 0xFF) :
    (p.enter.execute bus false).Agree (p.enter.execute bus true) ∧
      (¬ ((p.enter.execute bus false).arrive bus).interruptPending →
        (p.enter.turn bus false).Agree (p.enter.turn bus true)) := by
  have ht : (p.enter.fetchOpcode bus).2.Tidy := ⟨isCarry_and _, isSign_and _⟩
  have he : (p.enter.execute bus false).Agree (p.enter.execute bus true) :=
    dispatch_agree bus (documented_corresponds hop hbrk) ht hd
      fun h => hjmp (jmp_of_iabsNmos h)
  refine ⟨he, fun hi => ?_⟩
  have ha := he.arrive bus
  rw [CpuState.turn_of_not_pending bus false _ hi,
    CpuState.turn_of_not_pending bus true _ (ha.interruptPending.not.mp hi)]
  exact ha

/-- `ADC #$7F` with the carry set leaves the same overflow. -/
theorem adc_tables_agree :
    ((CpuInstance.flat 0x300 [0x69, 0x7F] 0).enter.execute Bus.flat false).Agree
      ((CpuInstance.flat 0x300 [0x69, 0x7F] 0).enter.execute Bus.flat true) :=
  (tables_agree Bus.flat (CpuInstance.flat 0x300 [0x69, 0x7F] 0) (by decide +kernel)
    (by decide +kernel) (by decide +kernel) (by decide +kernel)).1

end LinApple.Cpu
