import LinApple.Cpu.Cycles

/-!
# The timing of instructions

On the processor the cycles of an instruction are settled by its addressing mode and by what kind
of access it makes: reads with the same mode take the same time, and only a read, which need not
wait for the address to be corrected, pays for leaving a page. The tables agree with the first
except for `AND` and `DEC` with an absolute address; the page of a store or a read-modify-write is
charged for like that of a read.

Both results compare two executions, and so neither has a list of cycle counts in it that would
have to be believed. In the first two states are compared that have the same operand: the same
mode, the same address, and for an indexed one the same base. `ChargedAlike` says that two reads
are then charged the same, and two read-modify-writes, where the cycle that the later processor
takes for a decimal sum is set off on both sides. In the second the instruction is the same one
and the addresses differ (`PaysForReads`): an instruction of fixed length is charged the same
whether a page is left or not, a read exactly one more, and a branch what it says.

The states are arbitrary, and nothing relates the two but that. What an instruction is charged is
made of its row in the table and of what its mode and its operation add (`OpcodeDesc.charged_eq`),
and this is what each part of the proof is about: rows are compared by going through the tables
once, and additions by what they look at. The conditions that come out name opcodes in the first
case, because only two rows are wrong, and pages in the second, because there a whole kind of
instructions is charged in the wrong way.
-/

namespace LinApple.Cpu

variable {W : Type*} (bus : Bus W) (cmos : Bool)

/-! ## Groups of operations -/

/-- The operations that read an operand into the accumulator or compare it
with it. -/
def Operation.isRead : Operation → Bool
  | .ora | .and | .eor | .adcNmos | .adcCmos | .lda | .cmp | .sbcNmos | .sbcCmos => true
  | _ => false

/-- The operations that read, change and write their operand, in memory or
in the accumulator. -/
def Operation.isReadModifyWrite : Operation → Bool
  | .asl | .lsr | .rol | .ror | .inc | .dec => true
  | .asla | .lsra | .rola | .rora | .ina | .dea => true
  | _ => false

/-- The base cycles of a read. -/
def AddressingMode.readCycles : AddressingMode → UInt8
  | .imm => 2
  | .zpg => 3
  | .indy | .izpg => 5
  | .indx => 6
  | _ => 4

/-- The base cycles of a read-modify-write. -/
def AddressingMode.readModifyWriteCycles : AddressingMode → UInt8
  | .none => 2
  | .zpg => 5
  | _ => 6

/-- **The base cycles of the reads**: those of the mode, except for `AND`
with an absolute address. -/
theorem read_baseCycles (opcode : UInt8) :
    (opcodeDesc cmos opcode).op.isRead →
      (opcodeDesc cmos opcode).baseCycles
        = if opcode = 0x2D then 2 else (opcodeDesc cmos opcode).mode.readCycles := by
  refine opcodeDesc_of_zipIdx (P := fun o d => d.op.isRead → d.baseCycles
    = if o = 0x2D then 2 else d.mode.readCycles) ?_ opcode
  cases cmos <;> decide +kernel

/-- **The base cycles of the read-modify-writes**: those of the mode, except
for `DEC` with an absolute address. -/
theorem readModifyWrite_baseCycles (opcode : UInt8) :
    (opcodeDesc cmos opcode).op.isReadModifyWrite →
      (opcodeDesc cmos opcode).baseCycles
        = if opcode = 0xCE then 5
          else (opcodeDesc cmos opcode).mode.readModifyWriteCycles := by
  refine opcodeDesc_of_zipIdx (P := fun o d => d.op.isReadModifyWrite → d.baseCycles
    = if o = 0xCE then 5 else d.mode.readModifyWriteCycles) ?_ opcode
  cases cmos <;> decide +kernel

theorem readCycles_ne {opcode : UInt8} (h : opcode = 0x2D) :
    (opcodeDesc cmos opcode).mode.readCycles ≠ 2 := by
  subst h
  cases cmos <;> decide +kernel

theorem readModifyWriteCycles_ne {opcode : UInt8} (h : opcode = 0xCE) :
    (opcodeDesc cmos opcode).mode.readModifyWriteCycles ≠ 5 := by
  subst h
  cases cmos <;> decide +kernel

/-- A read or a read-modify-write has no pointer to a jump's address. -/
theorem opcodeDesc_mode_ne (opcode : UInt8)
    (h : (opcodeDesc cmos opcode).op.isRead ∨ (opcodeDesc cmos opcode).op.isReadModifyWrite) :
    (opcodeDesc cmos opcode).mode ≠ .iabsCmos :=
  opcodeDesc_of_forall
    (P := fun _ d => d.op.isRead ∨ d.op.isReadModifyWrite → d.mode ≠ .iabsCmos)
    (by decide +kernel) cmos opcode h

theorem isRead_taken {op : Operation} (h : op.isRead) (s : CpuState W) :
    op.taken s = false := by
  cases op <;> first | rfl | cases h

theorem isReadModifyWrite_taken {op : Operation} (h : op.isReadModifyWrite)
    (s : CpuState W) : op.taken s = false := by
  cases op <;> first | rfl | cases h

theorem isReadModifyWrite_decimalCycles {op : Operation} (h : op.isReadModifyWrite)
    (s : CpuState W) : op.decimalCycles s = 0 := by
  cases op <;> first | rfl | cases h

/-! ## The instruction at the program counter -/

namespace CpuState

variable (s : CpuState W)

/-- Its row of the table. -/
def desc : OpcodeDesc := opcodeDesc cmos (s.opcode bus)

/-- The state in which its operation begins. -/
def located : CpuState W := (s.desc bus cmos).locate bus (s.fetchOpcode bus).2

/-- What the instruction is charged. -/
def charged : UInt32 := (s.desc bus cmos).charged bus (s.fetchOpcode bus).2

/-- What of it is for decimal arithmetic. -/
def chargedDecimal : UInt32 :=
  ((s.desc bus cmos).op.decimalCycles (s.located bus cmos)).toUInt32

/-- Whether indexing leads out of the page. -/
def crosses : Bool :=
  (s.desc bus cmos).mode.indexed && (s.located bus cmos).ctx.crosses

/-- The charge of an instruction that is not a branch. -/
theorem charged_eq (hm : (s.desc bus cmos).mode ≠ .iabsCmos)
    (ht : (s.desc bus cmos).op.taken (s.located bus cmos) = false) :
    s.charged bus cmos = (s.desc bus cmos).baseCycles.toUInt32
      + (if s.crosses bus cmos then 1 else 0) + s.chargedDecimal bus cmos := by
  have hd : ∀ (op : Operation) (l : CpuState W) (b : Bool),
      ((if b then 1 else 0) + op.decimalCycles l).toUInt32
        = (if b then 1 else 0) + (op.decimalCycles l).toUInt32 := by
    intro op l b
    obtain h | h := op.decimalCycles_eq l
    · rw [h]
      cases b <;> rfl
    · rw [h]
      cases b <;> rfl
  have ha : (s.desc bus cmos).added bus (s.fetchOpcode bus).2
      = (if s.crosses bus cmos then 1 else 0)
        + (s.desc bus cmos).op.decimalCycles (s.located bus cmos) := by
    unfold OpcodeDesc.added
    exact if_neg (ne_true_of_eq_false ht)
  unfold charged
  rw [OpcodeDesc.charged_eq bus _ hm, ha, hd, UInt32.add_assoc]
  rfl

end CpuState

/-! ## Instructions with the same mode -/

/-- **Two states in front of instructions with the same mode** and the same
operand: the operand bytes and the registers lead to the same address, and
indexing starts from the same one. -/
structure SameOperand (s t : CpuState W) : Prop where
  mode : (s.desc bus cmos).mode = (t.desc bus cmos).mode
  addr : (s.located bus cmos).ctx.addr = (t.located bus cmos).ctx.addr
  base : (s.desc bus cmos).mode.indexed →
    (s.located bus cmos).ctx.base = (t.located bus cmos).ctx.base

/-- **The two are charged alike** if both are reads, leaving the cycle of
decimal arithmetic aside, or both read-modify-writes. -/
structure ChargedAlike (s t : CpuState W) : Prop where
  read : (s.desc bus cmos).op.isRead → (t.desc bus cmos).op.isRead →
    s.charged bus cmos + t.chargedDecimal bus cmos
      = t.charged bus cmos + s.chargedDecimal bus cmos
  readModifyWrite : (s.desc bus cmos).op.isReadModifyWrite →
    (t.desc bus cmos).op.isReadModifyWrite →
      s.charged bus cmos = t.charged bus cmos

variable {bus cmos}

theorem SameOperand.crosses {s t : CpuState W} (h : SameOperand bus cmos s t) :
    s.crosses bus cmos = t.crosses bus cmos := by
  unfold CpuState.crosses
  rw [h.mode]
  cases hi : (t.desc bus cmos).mode.indexed with
  | false => rfl
  | true =>
    unfold CpuLoopContext.crosses
    rw [h.addr, h.base (by rw [h.mode, hi])]

theorem CpuState.charged_read {s : CpuState W}
    (h : (s.desc bus cmos).op.isRead) :
    s.charged bus cmos = (s.desc bus cmos).baseCycles.toUInt32
      + (if s.crosses bus cmos then 1 else 0) + s.chargedDecimal bus cmos :=
  s.charged_eq bus cmos (opcodeDesc_mode_ne cmos _ (.inl h)) (isRead_taken h _)

theorem CpuState.charged_readModifyWrite {s : CpuState W}
    (h : (s.desc bus cmos).op.isReadModifyWrite) :
    s.charged bus cmos = (s.desc bus cmos).baseCycles.toUInt32
      + (if s.crosses bus cmos then 1 else 0) := by
  rw [s.charged_eq bus cmos (opcodeDesc_mode_ne cmos _ (.inr h))
    (isReadModifyWrite_taken h _)]
  unfold CpuState.chargedDecimal
  rw [isReadModifyWrite_decimalCycles h]
  exact UInt32.add_zero _

/-- Two opcodes of one mode whose base cycles are the mode's but for one
exception have the same if neither is the exception or both are. -/
theorem baseCycles_eq_iff {o o' k a b b' c : UInt8} (hb : b = if o = k then a else c)
    (hb' : b' = if o' = k then a else c) (hc : o = k ∨ o' = k → c ≠ a) :
    b.toUInt32 = b'.toUInt32 ↔ (o = k ↔ o' = k) := by
  rw [UInt8.toUInt32_inj, hb, hb']
  by_cases h : o = k
  · by_cases h' : o' = k
    · simp only [h, h']
    · simp only [h, h', if_true, if_false, (hc (.inl h)).symm, iff_false, not_true]
  · by_cases h' : o' = k
    · simp only [h, h', if_true, if_false, hc (.inr h'), false_iff, not_true]
    · simp only [h, h', if_false]

theorem charges_cancel {b b' c d d' : UInt32} :
    b + c + d + d' = b' + c + d' + d ↔ b = b' := by
  grind

/-- **The tables charge instructions of one mode alike, except for `AND` and `DEC` with an
absolute address.** Two instructions with the same operand are compared if both read, or both read
and write back. The condition says that if one of them is the odd one of its kind the other is
too; and then they are the same instruction. -/
theorem chargedAlike_iff {s t : CpuState W} (h : SameOperand bus cmos s t) :
    ChargedAlike bus cmos s t ↔
      ((s.desc bus cmos).op.isRead → (t.desc bus cmos).op.isRead →
        (s.opcode bus = 0x2D ↔ t.opcode bus = 0x2D)) ∧
      ((s.desc bus cmos).op.isReadModifyWrite →
        (t.desc bus cmos).op.isReadModifyWrite →
        (s.opcode bus = 0xCE ↔ t.opcode bus = 0xCE)) := by
  have hread (hs : (s.desc bus cmos).op.isRead) (ht : (t.desc bus cmos).op.isRead) :
      s.charged bus cmos + t.chargedDecimal bus cmos
          = t.charged bus cmos + s.chargedDecimal bus cmos ↔
        (s.opcode bus = 0x2D ↔ t.opcode bus = 0x2D) := by
    rw [CpuState.charged_read hs, CpuState.charged_read ht, h.crosses, charges_cancel]
    exact baseCycles_eq_iff (read_baseCycles cmos _ hs)
      (h.mode ▸ read_baseCycles cmos _ ht)
      (Or.rec (readCycles_ne cmos) fun ho => h.mode ▸ readCycles_ne cmos ho)
  have hwrite (hs : (s.desc bus cmos).op.isReadModifyWrite)
      (ht : (t.desc bus cmos).op.isReadModifyWrite) :
      s.charged bus cmos = t.charged bus cmos ↔
        (s.opcode bus = 0xCE ↔ t.opcode bus = 0xCE) := by
    rw [CpuState.charged_readModifyWrite hs, CpuState.charged_readModifyWrite ht, h.crosses,
      UInt32.add_left_inj]
    exact baseCycles_eq_iff (readModifyWrite_baseCycles cmos _ hs)
      (h.mode ▸ readModifyWrite_baseCycles cmos _ ht)
      (Or.rec (readModifyWriteCycles_ne cmos) fun ho =>
        h.mode ▸ readModifyWriteCycles_ne cmos ho)
  exact ⟨fun h => ⟨fun hs ht => (hread hs ht).mp (h.read hs ht),
      fun hs ht => (hwrite hs ht).mp (h.readModifyWrite hs ht)⟩,
    fun h => ⟨fun hs ht => (hread hs ht).mpr (h.1 hs ht),
      fun hs ht => (hwrite hs ht).mpr (h.2 hs ht)⟩⟩

/-- The processor in front of an instruction with the operand 0x2000. -/
def frontOf (opcode : UInt8) : CpuState (Nat → UInt8) :=
  (CpuInstance.flat 0x300 [opcode, 0x00, 0x20] 0).enter

/-- `LDA $2000` and `ORA $2000` are charged alike. -/
theorem lda_ora_chargedAlike :
    ChargedAlike Bus.flat false (frontOf 0xAD) (frontOf 0x0D) :=
  (chargedAlike_iff ⟨by decide +kernel, by decide +kernel, by decide +kernel⟩).mpr
    ⟨by decide +kernel, by decide +kernel⟩

/-- The 6502 is charged 2 cycles for `AND $2000` and 4 for `ORA $2000`, the
65C02 5 for `DEC $2000` and 6 for `INC $2000`. -/
theorem and_dec_not_chargedAlike :
    (SameOperand Bus.flat false (frontOf 0x2D) (frontOf 0x0D) ∧
      ¬ ChargedAlike Bus.flat false (frontOf 0x2D) (frontOf 0x0D)) ∧
    (SameOperand Bus.flat true (frontOf 0xCE) (frontOf 0xEE) ∧
      ¬ ChargedAlike Bus.flat true (frontOf 0xCE) (frontOf 0xEE)) := by
  refine ⟨⟨⟨by decide +kernel, by decide +kernel, by decide +kernel⟩, fun h => ?_⟩,
    ⟨⟨by decide +kernel, by decide +kernel, by decide +kernel⟩, fun h => ?_⟩⟩
  · exact absurd (h.read (by decide +kernel) (by decide +kernel)) (by decide +kernel)
  · exact absurd (h.readModifyWrite (by decide +kernel) (by decide +kernel))
      (by decide +kernel)

/-! ## Pages -/

variable (bus cmos)

/-- The operations that read an operand a mode with an index finds. -/
def Operation.isIndexedRead (op : Operation) : Bool :=
  op.isRead || op == .ldx || op == .ldy || op == .bit

/-- The branches. -/
def Operation.isBranch : Operation → Bool
  | .bpl | .bmi | .bvc | .bvs | .bcc | .bcs | .bne | .beq | .bra => true
  | _ => false

/-- The instructions whose length does not depend on the page: the stores of
the accumulator with an index, and on the 6502 the read-modify-writes. -/
def OpcodeDesc.isFixed (d : OpcodeDesc) : Bool :=
  (d.op == .sta && d.mode.indexed)
    || (!cmos && d.op.isReadModifyWrite && d.mode == .absx)

/-- **Two runs of an instruction pay for pages as reads do**: a fixed one is
charged the same, an indexed read one cycle more in the run that leaves the
page, and a branch one more if it is taken and two more if it then leaves
the page. -/
structure PaysForReads (s t : CpuState W) : Prop where
  fixed : (t.desc bus cmos).isFixed cmos → s.charged bus cmos = t.charged bus cmos
  read : (t.desc bus cmos).op.isIndexedRead → (t.desc bus cmos).mode.indexed →
    s.crosses bus cmos = false → t.crosses bus cmos = true →
      t.charged bus cmos + s.chargedDecimal bus cmos
        = s.charged bus cmos + 1 + t.chargedDecimal bus cmos
  branch : (t.desc bus cmos).op.isBranch →
    t.charged bus cmos = (t.desc bus cmos).baseCycles.toUInt32
      + (if (t.desc bus cmos).op.taken (t.located bus cmos) then
          if (t.located bus cmos).leavesPage then 2 else 1
        else 0)

variable {bus cmos}

theorem isIndexedRead_taken {op : Operation} (h : op.isIndexedRead) (s : CpuState W) :
    op.taken s = false := by
  cases op <;> first | rfl | cases h

theorem indexed_mode_ne {mode : AddressingMode} (h : mode.indexed) :
    mode ≠ .iabsCmos := by
  rintro rfl
  cases h

/-- The charge of an instruction of fixed length, which it should not have. -/
theorem CpuState.charged_fixed {s : CpuState W}
    (h : (s.desc bus cmos).isFixed cmos) :
    s.charged bus cmos = (s.desc bus cmos).baseCycles.toUInt32
      + (if s.crosses bus cmos then 1 else 0) := by
  unfold OpcodeDesc.isFixed at h
  simp only [Bool.or_eq_true, Bool.and_eq_true, beq_iff_eq] at h
  obtain ⟨hop, hm⟩ | ⟨⟨-, hop⟩, -⟩ := h
  · rw [s.charged_eq bus cmos (indexed_mode_ne hm) (by rw [hop]; rfl)]
    unfold CpuState.chargedDecimal
    rw [hop]
    exact UInt32.add_zero _
  · exact CpuState.charged_readModifyWrite hop

/-- Every branch has the mode of a branch. -/
theorem opcodeDesc_mode_branch (opcode : UInt8)
    (h : (opcodeDesc cmos opcode).op.isBranch) :
    (opcodeDesc cmos opcode).mode = .rel :=
  opcodeDesc_of_forall (P := fun _ d => d.op.isBranch → d.mode = .rel)
    (by decide +kernel) cmos opcode h

theorem isBranch_decimalCycles {op : Operation} (h : op.isBranch) (s : CpuState W) :
    op.decimalCycles s = 0 := by
  cases op <;> first | rfl | cases h

/-- The charge of a branch. -/
theorem CpuState.charged_branch {s : CpuState W}
    (h : (s.desc bus cmos).op.isBranch) :
    s.charged bus cmos = (s.desc bus cmos).baseCycles.toUInt32
      + (if (s.desc bus cmos).op.taken (s.located bus cmos) then
          if (s.located bus cmos).leavesPage then 2 else 1
        else 0) := by
  have hm : (s.desc bus cmos).mode = .rel := opcodeDesc_mode_branch _ h
  unfold CpuState.charged
  rw [OpcodeDesc.charged_eq bus _ (by rw [hm]; decide)]
  unfold OpcodeDesc.added
  rw [hm, isBranch_decimalCycles h]
  show _ + (if (s.desc bus cmos).op.taken (s.located bus cmos)
    then (if (s.located bus cmos).leavesPage then 2 else 1) else 0 : UInt16).toUInt32 = _
  split
  · split <;> rfl
  · rfl

/-- **Only reads and branches are right about pages**: a fixed instruction is charged the same in
two states just where both cross a page or neither does. For the others the condition is empty. A
store to an indexed address is a fixed one; it is charged for the page it crosses, though the
processor takes as long either way. -/
theorem paysForReads_iff {s t : CpuState W} (h : s.opcode bus = t.opcode bus) :
    PaysForReads bus cmos s t ↔
      ((t.desc bus cmos).isFixed cmos → s.crosses bus cmos = t.crosses bus cmos) := by
  have hd : s.desc bus cmos = t.desc bus cmos := congrArg (opcodeDesc cmos) h
  have hfixed (hf : (t.desc bus cmos).isFixed cmos) :
      s.charged bus cmos = t.charged bus cmos ↔
        s.crosses bus cmos = t.crosses bus cmos := by
    rw [CpuState.charged_fixed (hd ▸ hf), CpuState.charged_fixed hf, hd,
      UInt32.add_right_inj]
    cases s.crosses bus cmos <;> cases t.crosses bus cmos <;> decide
  refine ⟨fun hp hf => (hfixed hf).mp (hp.fixed hf), fun hc =>
    ⟨fun hf => (hfixed hf).mpr (hc hf), fun hr hi hs ht => ?_,
      CpuState.charged_branch⟩⟩
  rw [s.charged_eq bus cmos (hd ▸ indexed_mode_ne hi) (hd ▸ isIndexedRead_taken hr _),
    t.charged_eq bus cmos (indexed_mode_ne hi) (isIndexedRead_taken hr _), hd, hs, ht]
  simp only [if_true, Bool.false_eq_true, if_false]
  grind

/-- The processor in front of an instruction with the operand 0x20FF. -/
def frontOfIndexed (opcode x : UInt8) : CpuState (Nat → UInt8) :=
  (CpuInstance.flat 0x300 [opcode, 0xFF, 0x20] x).enter

/-- `LDA $20FF,X` pays a cycle for leaving the page. -/
theorem lda_absx_paysForReads :
    PaysForReads Bus.flat false (frontOfIndexed 0xBD 0) (frontOfIndexed 0xBD 1) :=
  (paysForReads_iff (by decide +kernel)).mpr (by decide +kernel)

/-- `STA $20FF,X` is charged a cycle more when `X` is 1 than when it is 0. -/
theorem sta_absx_not_paysForReads :
    (frontOfIndexed 0x9D 0).opcode Bus.flat = (frontOfIndexed 0x9D 1).opcode Bus.flat ∧
      (frontOfIndexed 0x9D 0).charged Bus.flat false = 5 ∧
      (frontOfIndexed 0x9D 1).charged Bus.flat false = 6 ∧
      ¬ PaysForReads Bus.flat false (frontOfIndexed 0x9D 0) (frontOfIndexed 0x9D 1) := by
  have h : (frontOfIndexed 0x9D 0).charged Bus.flat false = 5 := by decide +kernel
  have h' : (frontOfIndexed 0x9D 1).charged Bus.flat false = 6 := by decide +kernel
  refine ⟨by decide +kernel, h, h', fun hp => ?_⟩
  have := hp.fixed (by decide +kernel)
  rw [h, h'] at this
  exact absurd this (by decide)

end LinApple.Cpu
