import LinApple.Cpu.Related

/-!
# What an instruction is charged

The base cycles of the table, and what the addressing mode and the operation
add: a cycle where indexing leaves the page, one or two for a branch that is
taken, one for decimal arithmetic on the CMOS processor. Every turn of the
loop is charged a few cycles, and the frame's count grows by these.
-/

namespace LinApple.Cpu

variable {W : Type*} (bus : Bus W)

/-! ## What an operation adds -/

/-- Whether the operation is a branch that is taken. -/
def Operation.taken (op : Operation) (s : CpuState W) : Bool :=
  match op with
  | .bpl => s.ctx.flagn == 0
  | .bmi => s.ctx.flagn != 0
  | .bvc => s.ctx.flagv == 0
  | .bvs => s.ctx.flagv != 0
  | .bcc => s.ctx.flagc == 0
  | .bcs => s.ctx.flagc != 0
  | .bne => s.ctx.flagz == 0
  | .beq => s.ctx.flagz != 0
  | .bra => true
  | _ => false

/-- Whether the offset of a branch leads out of the page. -/
def CpuState.leavesPage (s : CpuState W) : Bool :=
  (s.regs.pc ^^^ (s.regs.pc + s.ctx.addr)) &&& 0xFF00 != 0

/-- What a branch that is taken adds. -/
def CpuState.branchCycles (s : CpuState W) : UInt16 :=
  if s.leavesPage then 2 else 1

/-- What decimal arithmetic adds on the CMOS processor. -/
def Operation.decimalCycles (op : Operation) (s : CpuState W) : UInt16 :=
  match op with
  | .adcCmos | .sbcCmos => if s.decimal then 1 else 0
  | _ => 0

theorem Operation.decimalCycles_eq (op : Operation) (s : CpuState W) :
    op.decimalCycles s = 0 ∨ op.decimalCycles s = 1 := by
  unfold Operation.decimalCycles
  split
  · exact ite_eq_or_eq _ 1 0 |>.symm
  · exact ite_eq_or_eq _ 1 0 |>.symm
  · exact .inl rfl

theorem branchIf_extraCycles (s : CpuState W) (taken : Bool) :
    (s.branchIf taken).ctx.extraCycles
      = if taken then s.branchCycles else s.ctx.extraCycles := by
  cases taken with
  | false => rfl
  | true =>
    show (if _ ≠ 0 then (2 : UInt16) else 1) = (if (_ != 0) = true then (2 : UInt16) else 1)
    simp only [bne_iff_ne]

theorem chargeDecimal_extraCycles (s : CpuState W) :
    (chargeDecimal s).ctx.extraCycles
      = s.ctx.extraCycles + (if s.decimal then 1 else 0) := by
  show (if s.decimal then s.ctx.extraCycles + 1 else s.ctx.extraCycles) = _
  split
  · rfl
  · exact (UInt16.add_zero _).symm

/-- **The cycles an operation adds.** -/
theorem Operation.run_extraCycles (op : Operation) (s : CpuState W) :
    (op.run bus s).ctx.extraCycles
      = if op.taken s then s.branchCycles
        else s.ctx.extraCycles + op.decimalCycles s := by
  cases op
  case bpl | bmi | bvc | bvs | bcc | bcs | bne | beq =>
    simp only [Operation.decimalCycles, UInt16.add_zero]
    exact branchIf_extraCycles s _
  case bra => exact branchIf_extraCycles s true
  case adcCmos | sbcCmos => exact chargeDecimal_extraCycles _
  all_goals exact (UInt16.add_zero _).symm

section Same

variable {W' : Type*} {bus : Bus W} {bus' : Bus W'} {x : UInt32}
  {R : Related bus bus' x} {s : CpuState W} {t : CpuState W'}

theorem Same.taken (h : Same R s t) (op : Operation) : op.taken s = op.taken t := by
  cases op
  case bpl | bmi => simp only [Operation.taken, h.flagn]
  case bvc | bvs => simp only [Operation.taken, bne, beq_eq_decide, h.flagv]
  case bcc | bcs => simp only [Operation.taken, h.flagc]
  case bne | beq => simp only [Operation.taken, bne, beq_eq_decide, h.flagz]
  all_goals rfl

theorem taken_usesAddr {op : Operation} (h : op.taken s) : op.usesAddr := by
  cases op <;> first | rfl | cases h

/-- States that agree are charged alike by an operation. -/
theorem Same.run_extraCycles (h : Same R s t) (op : Operation)
    (ha : op.usesAddr → s.ctx.addr = t.ctx.addr)
    (he : s.ctx.extraCycles = t.ctx.extraCycles) :
    (op.run bus s).ctx.extraCycles = (op.run bus' t).ctx.extraCycles := by
  have hd : op.decimalCycles s = op.decimalCycles t := by
    unfold Operation.decimalCycles
    rw [h.decimal]
  rw [op.run_extraCycles, op.run_extraCycles, ← h.taken op, he, hd]
  split
  · rename_i ht
    unfold CpuState.branchCycles CpuState.leavesPage
    rw [h.regs, ha (taken_usesAddr ht)]
  · rfl

end Same

/-! ## What an addressing mode adds -/

/-- Whether base and address lie in different pages. -/
def CpuLoopContext.crosses (c : CpuLoopContext) : Bool :=
  (c.base ^^^ c.addr) &&& 0xFF00 != 0

/-- The modes with an index that is added to an address of two bytes. -/
def AddressingMode.indexed : AddressingMode → Bool
  | .absx | .absy | .indy => true
  | _ => false

theorem checkPageChange_extraCycles (s : CpuState W) (b a : UInt16) :
    (((s.setBase b).setAddr a).checkPageChange b a).ctx.extraCycles
      = if (((s.setBase b).setAddr a).checkPageChange b a).ctx.crosses then 1
        else s.ctx.extraCycles := by
  show (if (b ^^^ a) &&& 0xFF00 ≠ 0 then (1 : UInt16) else s.ctx.extraCycles)
    = if ((b ^^^ a) &&& 0xFF00 != 0) = true then 1 else s.ctx.extraCycles
  simp only [bne_iff_ne]

/-- An address found behind a pointer leaves the rest of the context alone. -/
theorem setPointer_ctx {s : CpuState W} {p : UInt16 × CpuState W}
    (h : p.2.ctx = s.ctx) (b : UInt16) :
    ((p.2.setBase b).setAddr p.1).ctx = { s.ctx with addr := p.1, base := b } := by
  show { p.2.ctx with addr := p.1, base := b } = _
  rw [h]

theorem setPointer_extraCycles {s : CpuState W} {p : UInt16 × CpuState W}
    (h : p.2.ctx = s.ctx) (b : UInt16) :
    ((p.2.setBase b).setAddr p.1).ctx.extraCycles = s.ctx.extraCycles := by
  show p.2.ctx.extraCycles = _
  rw [h]

/-- **The cycles an addressing mode adds.** -/
theorem AddressingMode.run_extraCycles (mode : AddressingMode) (s : CpuState W)
    (hm : mode ≠ .iabsCmos) :
    (mode.run bus s).ctx.extraCycles
      = if mode.indexed && (mode.run bus s).ctx.crosses then 1
        else s.ctx.extraCycles := by
  cases mode with
  | absx => exact checkPageChange_extraCycles _ _ _
  | absy => exact checkPageChange_extraCycles _ _ _
  | indy =>
    rw [show AddressingMode.indexed .indy = true from rfl, Bool.true_and,
      ← readPointerIndy_ctx bus s]
    exact checkPageChange_extraCycles _ _ _
  | iabsNmos => exact setPointer_extraCycles (readPointerNmos_ctx bus _ _) _
  | indx => exact setPointer_extraCycles (readZeroPagePointer_ctx bus _ _) _
  | izpg => exact setPointer_extraCycles (readZeroPagePointer_ctx bus _ _) _
  | iabsCmos => exact absurd rfl hm
  | _ => rfl

/-- An addressing mode leaves the flags and the frame's count alone. -/
theorem AddressingMode.run_ctx (mode : AddressingMode) (s : CpuState W) :
    ∃ a b e, (mode.run bus s).ctx
      = { s.ctx with addr := a, base := b, extraCycles := e } := by
  cases mode with
  | iabsNmos => exact ⟨_, _, _, setPointer_ctx (readPointerNmos_ctx bus _ _) _⟩
  | indx => exact ⟨_, _, _, setPointer_ctx (readZeroPagePointer_ctx bus _ _) _⟩
  | izpg => exact ⟨_, _, _, setPointer_ctx (readZeroPagePointer_ctx bus _ _) _⟩
  | indy =>
    rw [← readPointerIndy_ctx bus s]
    exact ⟨_, _, _, rfl⟩
  | _ => exact ⟨_, _, _, rfl⟩

/-- Of the registers an addressing mode changes the program counter alone. -/
theorem AddressingMode.run_regs (mode : AddressingMode) (s : CpuState W) :
    ∃ pc, (mode.run bus s).regs = { s.regs with pc := pc } := by
  cases mode with
  | iabsNmos => exact ⟨_, readPointerNmos_regs bus (s.fetchPc16 bus).2 _⟩
  | indx => exact ⟨_, readZeroPagePointer_regs bus (s.fetchPc bus).2 _⟩
  | izpg => exact ⟨_, readZeroPagePointer_regs bus (s.fetchPc bus).2 _⟩
  | indy =>
    rw [← readPointerIndy_regs bus s]
    exact ⟨_, rfl⟩
  | _ => exact ⟨_, rfl⟩

/-- An addressing mode leaves the decimal flag alone. -/
theorem AddressingMode.run_decimal (mode : AddressingMode) (s : CpuState W) :
    (mode.run bus s).decimal = s.decimal := by
  obtain ⟨pc, h⟩ := mode.run_regs bus s
  unfold CpuState.decimal
  rw [h]

/-! ## What an instruction is charged -/

/-- The state in which the operation of an opcode begins. -/
def OpcodeDesc.locate (d : OpcodeDesc) (s : CpuState W) : CpuState W :=
  d.mode.run bus (s.setExtra 0)

/-- **What the handler of an opcode is charged.** -/
def OpcodeDesc.charged (d : OpcodeDesc) (s : CpuState W) : UInt32 :=
  (d.run bus (s.setExtra 0)).cycles d

/-- What an instruction adds to its base cycles. -/
def OpcodeDesc.added (d : OpcodeDesc) (s : CpuState W) : UInt16 :=
  if d.op.taken (d.locate bus s) then (d.locate bus s).branchCycles
  else (if d.mode.indexed && (d.locate bus s).ctx.crosses then 1 else 0)
    + d.op.decimalCycles (d.locate bus s)

/-- **The charge, from the base cycles and what is added.** -/
theorem OpcodeDesc.charged_eq (d : OpcodeDesc) (hd : d.mode ≠ .iabsCmos)
    (s : CpuState W) :
    d.charged bus s = d.baseCycles.toUInt32 + (d.added bus s).toUInt32 := by
  have h : (d.locate bus s).ctx.extraCycles
      = if d.mode.indexed && (d.locate bus s).ctx.crosses then 1 else 0 :=
    d.mode.run_extraCycles bus (s.setExtra 0) hd
  show _ + (d.op.run bus (d.locate bus s)).ctx.extraCycles.toUInt32 = _
  rw [d.op.run_extraCycles, h]
  rfl

/-- An addressing mode adds a cycle or none. -/
theorem AddressingMode.run_extraCycles_le (mode : AddressingMode) (s : CpuState W) :
    (mode.run bus (s.setExtra 0)).ctx.extraCycles ≤ 1 := by
  by_cases hm : mode = .iabsCmos
  · subst hm
    show (if _ then (1 : UInt16) else 0) ≤ 1
    split <;> decide
  · rw [mode.run_extraCycles bus _ hm]
    split
    · decide
    · show (0 : UInt16) ≤ 1
      decide

/-- An operation adds at most two cycles to none, and one to one. -/
theorem Operation.run_extraCycles_le (op : Operation) {s : CpuState W}
    (hs : s.ctx.extraCycles ≤ 1) : (op.run bus s).ctx.extraCycles ≤ 2 := by
  rw [op.run_extraCycles]
  have hb : s.branchCycles ≤ 2 := by
    unfold CpuState.branchCycles
    split <;> decide
  have hd : op.decimalCycles s ≤ 1 := by
    obtain h | h := op.decimalCycles_eq s
    · rw [h]
      decide
    · rw [h]
      decide
  split
  · exact hb
  · rw [UInt16.le_iff_toNat_le] at hs hd ⊢
    rw [UInt16.toNat_add]
    exact Nat.le_trans (Nat.mod_le _ _) (Nat.add_le_add hs hd)

/-- The base cycles of every opcode are between 2 and 8. -/
theorem opcodeDesc_baseCycles (cmos : Bool) (opcode : UInt8) :
    2 ≤ (opcodeDesc cmos opcode).baseCycles.toNat ∧
      (opcodeDesc cmos opcode).baseCycles.toNat ≤ 8 :=
  opcodeDesc_of_forall
    (P := fun _ d => 2 ≤ d.baseCycles.toNat ∧ d.baseCycles.toNat ≤ 8)
    (by decide +kernel) cmos opcode

/-- **An opcode is charged at least 2 and at most 10 cycles.** -/
theorem charged_bounds (cmos : Bool) (opcode : UInt8) (s : CpuState W) :
    2 ≤ ((opcodeDesc cmos opcode).charged bus s).toNat ∧
      ((opcodeDesc cmos opcode).charged bus s).toNat ≤ 10 := by
  obtain ⟨hl, hu⟩ := opcodeDesc_baseCycles cmos opcode
  have he := (opcodeDesc cmos opcode).op.run_extraCycles_le bus
    ((opcodeDesc cmos opcode).mode.run_extraCycles_le bus s)
  rw [UInt16.le_iff_toNat_le] at he
  have h : ((opcodeDesc cmos opcode).charged bus s).toNat
      = ((opcodeDesc cmos opcode).baseCycles.toNat
        + ((opcodeDesc cmos opcode).run bus (s.setExtra 0)).ctx.extraCycles.toNat)
          % 2 ^ 32 := by
    unfold OpcodeDesc.charged CpuState.cycles
    rw [UInt32.toNat_add, UInt8.toNat_toUInt32, UInt16.toNat_toUInt32]
  have he' : ((opcodeDesc cmos opcode).run bus (s.setExtra 0)).ctx.extraCycles.toNat ≤ 2 := he
  rw [h, Nat.mod_eq_of_lt (by omega)]
  omega

end LinApple.Cpu
