import LinApple.Cpu.Agreement
import LinApple.Cpu.Fetches
import LinApple.Cpu.Timing
import LinApple.Debugger.Opcodes
import LinApple.Lib.Bytes

/-!
# Target addresses

The debugger shows which address the instruction at the program counter will read, write or jump
to. It finds it by itself, out of the registers and the image, with an addressing mode of its own
for each of the processor's (`GetTargets`). The two are compared here mode by mode: where a
pointer or an operand lies across the end of a page or of the image they read different bytes, and
a branch backwards the debugger subtracts the wrong distance for.

The address that the processor uses is not one that it returns. It is where its handler reads,
writes, both, or goes on, and `ActsAt` says so of the state behind the operation: the host is what
a read or a write at the address leaves, or the program counter is there. The theorem has this
beside the equivalence, so that `handlerAddress` cannot be anything else.

The debugger runs before the instruction, in the state in front of it, while the handler finds its
operand behind the opcode and after a fetch. So there are two readings of the same bytes, and
`Predicted` says when they agree: for the absolute modes, that the second byte of the operand is
read at the same place; for those with a pointer, that its two bytes are; for a branch, that it
does not go backwards. The places may differ and have equal bytes. The condition is about the
bytes, and for that reason it is exact.

Both tables are gone through, and all documented opcodes with an operand in memory. The opcode is
what the image has at the program counter. Whether the disassembler has data at the place is a
parameter, which must make no difference.
-/

namespace LinApple.Debugger

open Cpu (CpuRegisters CpuState Bus OpcodeDesc Operation opcodeDesc)
open Byte (word)

/-! ## What the debugger computes -/

section Targets

variable (image : Nat → UInt8) (regs : CpuRegisters) (address : UInt16)

/-- `NO_6502_TARGET` -/
def no6502Target : Int := -1

/-- What `GetTargets` leaves in its parameters. -/
structure Targets where
  /-- `*pTargetPartial_` -/
  targetPartial : Int := no6502Target
  /-- `*pTargetPartial2_` -/
  targetPartial2 : Int := no6502Target
  /-- `*pTargetPointer_` -/
  targetPointer : Int := no6502Target
  /-- `*pTargetBytes_` -/
  targetBytes : Int := 0
deriving DecidableEq, Repr

/-- `*reinterpret_cast<uint16_t*>(mem + i)` -/
def readWord (i : Nat) : UInt16 := word (image i) (image (i + 1))

/-- `nTarget8` -/
def target8 : UInt8 := image (address + 1).toNat

/-- `nTarget16` -/
def target16 : UInt16 :=
  ((image (address + 2).toNat).toUInt16 <<< 8) ||| (target8 image address).toUInt16

/-- `DBG_6502_STACK_BEGIN + (sp & 0xFF)` -/
def stackPlace (sp : UInt16) : UInt16 := 0x0100 + (sp &&& 0xFF)

/-- The mask with `apple2_6502_mem_end`. -/
def maskMem (i : Int) : UInt16 := UInt16.ofNat (i % 0x10000).toNat

/-- The targets of an instruction without an operand. -/
def impliedTargets (opcode : UInt8) (includeNextOpcodeAddress : Bool) : Targets :=
  if !(opcodes opcode).memoryAccess.usesStack then {}
  else
    let isReturn := opcode = opcodeRti ∨ opcode = opcodeRts
    let sp := if opcode = opcodeRti then regs.sp + 1 else regs.sp
    let partials : Targets :=
      if isReturn then
        { targetPartial := (stackPlace (sp + 1)).toNat
          targetPartial2 := (stackPlace (sp + 2)).toNat }
      else if opcode = opcodeBrk then
        { targetPartial := (stackPlace regs.sp).toNat
          targetPartial2 := (stackPlace (regs.sp - 1)).toNat }
      else {}
    let target : UInt16 :=
      if isReturn then
        let pulled := word (image (stackPlace (sp + 1)).toNat)
          (image (stackPlace (sp + 2)).toNat)
        if opcode = opcodeRts then pulled + 1 else pulled
      else if opcode = opcodeBrk then readWord image 0xFFFE
      else if (opcodes opcode).memoryAccess.writesImplicitly then stackPlace regs.sp
      else stackPlace (regs.sp + 1)
    { partials with
      targetPointer :=
        if includeNextOpcodeAddress ∨ ¬ (isReturn ∨ opcode = opcodeBrk) then target.toNat
        else no6502Target
      targetBytes := 1 }

/-- **`GetTargets`** -/
def getTargets (ignoreBranch includeNextOpcodeAddress : Bool) : Targets :=
  let opcode := image address.toNat
  let target8 := target8 image address
  let target16 := target16 image address
  match (opcodes opcode).addressMode with
  | .implied => impliedTargets image regs opcode includeNextOpcodeAddress
  | .a =>
    { targetPartial :=
        if opcode = opcodeJsr then (stackPlace regs.sp).toNat else no6502Target
      targetPartial2 :=
        if opcode = opcodeJsr then (stackPlace (regs.sp - 1)).toNat else no6502Target
      targetPointer :=
        if includeNextOpcodeAddress ∨ (opcode ≠ opcodeJsr ∧ opcode ≠ opcodeJmpA) then
          target16.toNat
        else no6502Target
      targetBytes := 2 }
  | .iax =>
    let target16 := target16 + regs.x.toUInt16
    { targetPartial := target16.toNat
      targetPartial2 := target16.toNat + 1
      targetPointer :=
        if includeNextOpcodeAddress then (readWord image target16.toNat).toNat
        else no6502Target
      targetBytes := 2 }
  | .ax => { targetPointer := (target16 + regs.x.toUInt16).toNat, targetBytes := 2 }
  | .ay => { targetPointer := (target16 + regs.y.toUInt16).toNat, targetBytes := 2 }
  | .na =>
    { targetPartial := target16.toNat
      targetPartial2 := target16.toNat + 1
      targetPointer :=
        if includeNextOpcodeAddress then (readWord image target16.toNat).toNat
        else no6502Target
      targetBytes := 2 }
  | .izx =>
    let target8 := target8 + regs.x
    { targetPartial := target8.toNat
      targetPointer := (readWord image target8.toNat).toNat
      targetBytes := 2 }
  | .nzy =>
    { targetPartial := target8.toNat
      targetPointer :=
        (maskMem ((readWord image target8.toNat).toNat + regs.y.toNat)).toNat
      targetBytes := 1 }
  | .nz =>
    { targetPartial := target8.toNat
      targetPointer := (readWord image target8.toNat).toNat
      targetBytes := 2 }
  | .r =>
    if ignoreBranch then {}
    else
      let next : Int := address.toNat + 2
      { targetPartial := target8.toNat
        targetPointer :=
          (maskMem (if target8.toNat ≤ 127 then next + target8.toNat
            else next - target8.toNat)).toNat
        targetBytes := 1 }
  | .z => { targetPointer := target8.toNat, targetBytes := 1 }
  | .zx => { targetPointer := ((target8.toNat + regs.x.toNat) % 256 : Nat), targetBytes := 1 }
  | .zy => { targetPointer := ((target8.toNat + regs.y.toNat) % 256 : Nat), targetBytes := 1 }
  | _ => {}

/-- **`GetTargetAddress`**, given the data declared at the address. -/
def getTargetAddress (data : Option DisasmData) : Option UInt16 :=
  if (getOpmodeOpbyte image address data).opmode ∉
      [AddressingMode.implied, .am1, .am2, .am3] then
    let targets := getTargets image regs address false true
    if targets.targetPointer ≠ no6502Target then some (maskMem targets.targetPointer)
    else none
  else none

/-! ## The target of a mode -/

theorem maskMem_natCast (v : UInt16) : maskMem v.toNat = v := by
  rw [maskMem, ← UInt16.toNat_inj, UInt16.toNat_ofNat']
  have := v.toNat_lt
  omega

theorem natCast_ne_no6502Target (n : Nat) : (n : Int) ≠ no6502Target := by
  unfold no6502Target
  omega

/-- The target of an instruction in a mode that has one. -/
def AddressingMode.target (mode : AddressingMode) : UInt16 :=
  let target8 := target8 image address
  let target16 := target16 image address
  match mode with
  | .a => target16
  | .ax => target16 + regs.x.toUInt16
  | .ay => target16 + regs.y.toUInt16
  | .z => target8.toUInt16
  | .zx => (target8 + regs.x).toUInt16
  | .zy => (target8 + regs.y).toUInt16
  | .na => readWord image target16.toNat
  | .iax => readWord image (target16 + regs.x.toUInt16).toNat
  | .izx => readWord image (target8 + regs.x).toNat
  | .nzy => readWord image target8.toNat + regs.y.toUInt16
  | .nz => readWord image target8.toNat
  | .r =>
    if target8.toNat ≤ 127 then address + 2 + target8.toUInt16
    else address + 2 - target8.toUInt16
  | _ => 0

variable {image regs address}

theorem maskMem_add_byte (v : UInt16) (b : UInt8) :
    maskMem (v.toNat + b.toNat) = v + b.toUInt16 := by
  rw [maskMem, ← UInt16.toNat_inj, UInt16.toNat_ofNat', UInt16.toNat_add,
    UInt8.toNat_toUInt16]
  omega

/-- The distance is added forwards. -/
theorem maskMem_forwards (b : UInt8) :
    maskMem ((address.toNat : Int) + 2 + b.toNat) = address + 2 + b.toUInt16 := by
  rw [maskMem, ← UInt16.toNat_inj, UInt16.toNat_ofNat', UInt16.toNat_add, UInt16.toNat_add,
    UInt8.toNat_toUInt16]
  show _ = ((address.toNat + 2) % 2 ^ 16 + b.toNat) % 2 ^ 16
  omega

/-- The distance is taken away backwards. -/
theorem maskMem_backwards (b : UInt8) :
    maskMem ((address.toNat : Int) + 2 - b.toNat) = address + 2 - b.toUInt16 := by
  have hb := b.toNat_lt
  rw [maskMem, ← UInt16.toNat_inj, UInt16.toNat_ofNat', UInt16.toNat_sub, UInt16.toNat_add,
    UInt8.toNat_toUInt16]
  show _ = (2 ^ 16 - b.toNat + (address.toNat + 2) % 2 ^ 16) % 2 ^ 16
  omega

/-- **The pointer `GetTargets` leaves is the target of the mode.** -/
theorem getTargets_targetPointer
    (hmode : (opcodes (image address.toNat)).addressMode.hasTarget) :
    (getTargets image regs address false true).targetPointer
      = ((opcodes (image address.toNat)).addressMode.target image regs address).toNat := by
  cases hm : (opcodes (image address.toNat)).addressMode with
  | nzy =>
    simp only [getTargets, hm]
    exact congrArg (fun v : UInt16 => (v.toNat : Int)) (maskMem_add_byte _ _)
  | r =>
    simp only [getTargets, hm, AddressingMode.target, Bool.false_eq_true, if_false]
    split
    · rw [maskMem_forwards]
    · rw [maskMem_backwards]
  | a | ax | ay | z | zx | zy | na | iax | izx | nz =>
    simp [getTargets, hm, AddressingMode.target, UInt8.toNat_add]
  | _ => simp [hm, AddressingMode.hasTarget] at hmode

/-- **An instruction with a target in memory has the target of its mode**,
whatever data is declared at its address. -/
theorem getTargetAddress_of_hasTarget (data : Option DisasmData)
    (hmode : (opcodes (image address.toNat)).addressMode.hasTarget) :
    getTargetAddress image regs address data
      = some ((opcodes (image address.toNat)).addressMode.target image regs address) := by
  have hopmode : (getOpmodeOpbyte image address data).opmode ∉
      [AddressingMode.implied, .am1, .am2, .am3] := by
    have hmem := getOpmodeOpbyte_opmode image address data
    generalize (getOpmodeOpbyte image address data).opmode = opmode at hmem
    generalize (opcodes (image address.toNat)).addressMode = mode at hmode hmem
    intro hnot
    cases opmode <;> cases mode <;> simp_all [AddressingMode.hasTarget]
  unfold getTargetAddress
  rw [if_pos hopmode]
  simp only [getTargets_targetPointer hmode, maskMem_natCast]
  exact if_pos (natCast_ne_no6502Target _)

end Targets

/-! ## What the processor uses -/

section Processor

variable {W : Type*} (bus : Bus W)

/-- **The address the handler of an opcode uses**: where a branch goes when it
is taken, and what the addressing mode has found in every other case. -/
def handlerAddress (d : OpcodeDesc) (s : CpuState W) : UInt16 :=
  let t := d.locate bus s
  if d.mode = .rel then t.branchTaken.regs.pc else t.ctx.addr

/-- **An operation reads, writes or jumps to an address.** It is said by comparison with the
machine's own accesses: the host after the operation is the host after a read there, and so on. So
nothing else has been accessed either. -/
inductive ActsAt (a : UInt16) (t t' : CpuState W) : Prop where
  /-- It reads there. -/
  | reads (h : t'.host = (t.readByte bus a).2.host)
  /-- It writes there. -/
  | writes (v : UInt8) (h : t'.host = (t.writeByte bus a v).host)
  /-- It reads there and writes back. -/
  | modifies (v : UInt8) (h : t'.host = ((t.readByte bus a).2.writeByte bus a v).host)
  /-- It goes on there. -/
  | jumps (h : t'.regs.pc = a)
  /-- It goes on there if a condition holds. -/
  | branches (taken : Bool) (h : t' = t.branchIf taken) (ha : t.branchTaken.regs.pc = a)

/-- An operation on an address acts at it, and a branch where it leads. -/
theorem actsAt_run {op : Operation} (haddr : op.usesAddr) (hbase : ¬ op.usesBase)
    (t : CpuState W) :
    ActsAt bus (if op.isBranch then t.branchTaken.regs.pc else t.ctx.addr) t
      (op.run bus t) := by
  cases op with
  | jmp | jsr => exact .jumps rfl
  | bra => exact .branches true rfl rfl
  | bpl | bmi | bvc | bvs | bcc | bcs | bne | beq => exact .branches _ rfl rfl
  | sta | stx | sty | stz | axs => exact .writes _ rfl
  | asl | lsr | rol | ror | inc | dec | trb | tsb | aso | dcm | ins | lse | rla | rra =>
    exact .modifies _ rfl
  | axa | say | tas | xas => exact absurd rfl hbase
  | lda | ldx | ldy | and | ora | eor | bit | biti | cmp | cpx | cpy | adcNmos | adcCmos
  | sbcNmos | sbcCmos | alr | anc | arr | las | lax | oal | sax | xaa => exact .reads rfl
  | _ => cases haddr

/-- The opcodes the processor is documented with: the 65C02 has 27 of its
own. -/
def documented (cmos : Bool) : List UInt8 :=
  if cmos then
    Cpu.documentedOpcodes
      ++ [0x04, 0x0C, 0x12, 0x14, 0x1A, 0x1C, 0x32, 0x34, 0x3A, 0x3C, 0x52, 0x5A, 0x64,
        0x72, 0x74, 0x7A, 0x7C, 0x80, 0x89, 0x92, 0x9C, 0x9E, 0xB2, 0xD2, 0xDA, 0xF2, 0xFA]
  else Cpu.documentedOpcodes

/-- The modes whose operand is an address in memory, or leads to one. -/
def hasMemoryOperand : Cpu.AddressingMode → Bool
  | .none | .imm => false
  | _ => true

/-- The debugger's name for an addressing mode of the processor. -/
def opmodeOf : Cpu.AddressingMode → AddressingMode
  | .none => .implied
  | .imm => .m
  | .zpg => .z
  | .zpgx => .zx
  | .zpgy => .zy
  | .abs => .a
  | .absx => .ax
  | .absy => .ay
  | .iabsNmos | .iabsCmos => .na
  | .iabsx => .iax
  | .indx => .izx
  | .indy => .nzy
  | .izpg => .nz
  | .rel => .r

/-- The documented opcodes as the bits of a number. -/
def documentedBits (cmos : Bool) : Nat :=
  if cmos then 0x6767777367677773777777777777777377777773676777637777777377777773
  else 0x6363777363637773777377772773757263637763636377636363777363636763

theorem testBit_documentedBits {cmos : Bool} {opcode : UInt8} (h : opcode ∈ documented cmos) :
    (documentedBits cmos).testBit opcode.toNat := by
  have hall : (documented cmos).all fun o => (documentedBits cmos).testBit o.toNat := by
    cases cmos <;> decide +kernel
  exact List.all_eq_true.1 hall opcode h

/-- **The two tables of opcodes agree**: a documented opcode has the same
addressing mode in the debugger's, and in the processor's an operation that
goes with it. -/
theorem tables_agree_modes {cmos : Bool} {opcode : UInt8}
    (h : opcode ∈ documented cmos) (hm : hasMemoryOperand (opcodeDesc cmos opcode).mode) :
    (opcodes opcode).addressMode = opmodeOf (opcodeDesc cmos opcode).mode ∧
      (opcodeDesc cmos opcode).op.usesAddr ∧ ¬ (opcodeDesc cmos opcode).op.usesBase ∧
      ((opcodeDesc cmos opcode).mode = .rel ↔ (opcodeDesc cmos opcode).op.isBranch) := by
  have hall : ((Cpu.opcodes cmos).zip opcodes65C02).zipIdx.all fun p =>
      !(documentedBits cmos).testBit p.2 || !hasMemoryOperand p.1.1.mode ||
        decide (p.1.2.addressMode = opmodeOf p.1.1.mode ∧ p.1.1.op.usesAddr
          ∧ ¬ p.1.1.op.usesBase ∧ (p.1.1.mode = .rel ↔ p.1.1.op.isBranch)) := by
    cases cmos <;> decide +kernel
  have hrow : ((Cpu.opcodes cmos).zip opcodes65C02)[opcode.toNat]?
      = some (opcodeDesc cmos opcode, opcodes opcode) :=
    List.getElem?_zip_eq_some.mpr
      ⟨List.getElem?_eq_getElem (Cpu.toNat_lt_opcodes cmos opcode), List.getElem?_eq_getElem _⟩
  have hchecked := List.all_eq_true.1 hall _ (List.mk_mem_zipIdx_iff_getElem?.2 hrow)
  dsimp only at hchecked
  rw [testBit_documentedBits h, hm] at hchecked
  exact of_decide_eq_true hchecked

theorem hasTarget_opmodeOf {mode : Cpu.AddressingMode} (h : hasMemoryOperand mode) :
    (opmodeOf mode).hasTarget := by
  cases mode <;> first | rfl | cases h

/-- The word whose bytes stand at two places. -/
def wordAt (image : Nat → UInt8) : List Nat → UInt16
  | [i, j] => word (image i) (image j)
  | _ => 0

/-- The address an addressing mode finds, with the program counter behind the
opcode. -/
def addressOf (mode : Cpu.AddressingMode) (image : Nat → UInt8) (regs : CpuRegisters) :
    UInt16 :=
  let operand := image regs.pc.toNat
  let operand16 := readWord image regs.pc.toNat
  match mode with
  | .none | .imm => 0
  | .zpg => operand.toUInt16
  | .zpgx => (operand.toUInt16 + regs.x.toUInt16) &&& 0xFF
  | .zpgy => (operand.toUInt16 + regs.y.toUInt16) &&& 0xFF
  | .abs => operand16
  | .absx => operand16 + regs.x.toUInt16
  | .absy => operand16 + regs.y.toUInt16
  | .iabsNmos => wordAt image (Cpu.pointerPlaces operand16)
  | .iabsCmos => readWord image operand16.toNat
  | .iabsx => readWord image (operand16.toNat + regs.x.toNat)
  | .indx =>
    wordAt image (Cpu.zeroPagePlaces ((operand.toUInt16 + regs.x.toUInt16) &&& 0xFF))
  | .indy => wordAt image (Cpu.zeroPagePlaces operand.toUInt16) + regs.y.toUInt16
  | .izpg => wordAt image (Cpu.zeroPagePlaces operand.toUInt16)
  | .rel => regs.pc + 1 + Cpu.signExtend operand

theorem readZeroPagePointer_eq (s : CpuState W) (base : UInt16) :
    (Cpu.readZeroPagePointer bus s base).1
      = wordAt (bus.mem s.host.world) (Cpu.zeroPagePlaces base) := by
  unfold Cpu.readZeroPagePointer Cpu.zeroPagePlaces
  split
  · exact Byte.add_eq_word _ _
  · rfl

theorem readPointerNmos_eq (s : CpuState W) (base : UInt16) :
    (Cpu.readPointerNmos bus s base).1
      = wordAt (bus.mem s.host.world) (Cpu.pointerPlaces base) := by
  unfold Cpu.readPointerNmos Cpu.pointerPlaces
  split
  · exact Byte.add_eq_word _ _
  · rfl

theorem toUInt16_eq_0xFF (b : UInt8) : b.toUInt16 = 0xFF ↔ b = 0xFF := by
  rw [← UInt16.toNat_inj, ← UInt8.toNat_inj]
  rfl

theorem readPointerIndy_eq (s : CpuState W) :
    (Cpu.readPointerIndy bus s).1
      = wordAt (bus.mem s.host.world)
          (Cpu.zeroPagePlaces (bus.mem s.host.world s.regs.pc.toNat).toUInt16) := by
  unfold Cpu.readPointerIndy Cpu.zeroPagePlaces
  simp only [toUInt16_eq_0xFF]
  show (if bus.mem s.host.world s.regs.pc.toNat = 0xFF then _ else _ : UInt16 × CpuState W).1 = _
  split
  · exact Byte.add_eq_word _ _
  · simp only [UInt8.toNat_toUInt16]
    rfl

/-- **The address a handler uses, read off the image.** -/
theorem handlerAddress_eq {d : OpcodeDesc} (h : hasMemoryOperand d.mode) (s : CpuState W) :
    handlerAddress bus d s = addressOf d.mode (bus.mem s.host.world) s.regs := by
  unfold handlerAddress OpcodeDesc.locate
  cases hm : d.mode with
  | none | imm => simp [hm, hasMemoryOperand] at h
  | iabsNmos => exact readPointerNmos_eq bus _ _
  | indx => exact readZeroPagePointer_eq bus _ _
  | izpg => exact readZeroPagePointer_eq bus _ _
  | indy =>
    have hregs := Cpu.readPointerIndy_regs bus (s.setExtra 0)
    show (Cpu.readPointerIndy bus (s.setExtra 0)).1
      + (Cpu.readPointerIndy bus (s.setExtra 0)).2.regs.y.toUInt16 = _
    rw [hregs, readPointerIndy_eq]
    rfl
  | _ => rfl

end Processor

/-! ## Where they agree -/

section Agreement

variable (image : Nat → UInt8) (regs : CpuRegisters)

/-- **The debugger reads the bytes the processor reads**: the last byte of an
operand of two bytes is not behind the end of the image, the two bytes of a
pointer hold what the processor finds where the pointer wraps around, and a
branch does not go backwards by less than 128. -/
def Predicted (mode : Cpu.AddressingMode) : Prop :=
  let place := (regs.pc + 1).toNat
  let operand := image place
  let operand16 := readWord image place
  let shown16 := target16 image regs.pc
  match mode with
  | .abs | .absx | .absy => image (regs.pc + 2).toNat = image (place + 1)
  | .iabsNmos =>
    [shown16.toNat, shown16.toNat + 1].map image = (Cpu.pointerPlaces operand16).map image
  | .iabsCmos =>
    [shown16.toNat, shown16.toNat + 1].map image
      = [operand16.toNat, operand16.toNat + 1].map image
  | .iabsx =>
    [(shown16 + regs.x.toUInt16).toNat, (shown16 + regs.x.toUInt16).toNat + 1].map image
      = [operand16.toNat + regs.x.toNat, operand16.toNat + regs.x.toNat + 1].map image
  | .indx =>
    [(operand + regs.x).toNat, (operand + regs.x).toNat + 1].map image
      = (Cpu.zeroPagePlaces (operand + regs.x).toUInt16).map image
  | .indy | .izpg =>
    [operand.toNat, operand.toNat + 1].map image
      = (Cpu.zeroPagePlaces operand.toUInt16).map image
  | .rel => operand ≤ 0x80
  | _ => True

instance (mode : Cpu.AddressingMode) : Decidable (Predicted image regs mode) :=
  match mode with
  | .abs | .absx | .absy => inferInstanceAs (Decidable (_ = _))
  | .iabsNmos | .iabsCmos | .iabsx => inferInstanceAs (Decidable (List.map _ _ = _))
  | .indx | .indy | .izpg => inferInstanceAs (Decidable (List.map _ _ = _))
  | .rel => inferInstanceAs (Decidable (_ ≤ _))
  | .none | .imm | .zpg | .zpgx | .zpgy => inferInstanceAs (Decidable True)

variable {image regs}

/-- A word read somewhere is the word at two places if and only if the bytes
are. -/
theorem readWord_eq_wordAt_iff {i : Nat} {places : List Nat}
    (h : ∃ j k, places = [j, k]) :
    readWord image i = wordAt image places ↔ [i, i + 1].map image = places.map image := by
  obtain ⟨j, k, rfl⟩ := h
  simp [readWord, wordAt, Byte.word_inj]

theorem zeroPagePlaces_pair (base : UInt16) :
    ∃ j k, Cpu.zeroPagePlaces base = [j, k] := by
  unfold Cpu.zeroPagePlaces
  split
  · exact ⟨_, _, rfl⟩
  · exact ⟨_, _, rfl⟩

theorem pointerPlaces_pair (base : UInt16) : ∃ j k, Cpu.pointerPlaces base = [j, k] := by
  unfold Cpu.pointerPlaces
  split
  · exact ⟨_, _, rfl⟩
  · exact ⟨_, _, rfl⟩

/-- The sum of two bytes, cut off to the zero page. -/
theorem add_and_0xFF (b c : UInt8) :
    (b.toUInt16 + c.toUInt16) &&& 0xFF = (b + c).toUInt16 := by
  rw [← UInt16.toNat_inj, Cpu.and_0xFF, UInt16.toNat_add, UInt8.toNat_toUInt16,
    UInt8.toNat_toUInt16, UInt8.toNat_toUInt16, UInt8.toNat_add]
  omega

/-- **A branch is shown where it goes if and only if it does not go backwards
by less than 128.** -/
theorem branch_eq_iff (next : UInt16) (b : UInt8) :
    (if b.toNat ≤ 127 then next + b.toUInt16 else next - b.toUInt16)
      = next + Cpu.signExtend b ↔ b ≤ 0x80 := by
  have hbyte : ∀ b : UInt8, b.toNat ≤ 127 ∧ Cpu.signExtend b = b.toUInt16 ∧ b ≤ 0x80 ∨
      ¬ b.toNat ≤ 127 ∧ (-b.toUInt16 = Cpu.signExtend b ↔ b ≤ 0x80) := by
    refine Byte.forall_byte ?_
    decide +kernel
  obtain ⟨hle, hext, hb⟩ | ⟨hle, hb⟩ := hbyte b
  · rw [if_pos hle, hext]
    exact iff_of_true rfl hb
  · rw [if_neg hle, UInt16.sub_eq_add_neg, ← hb]
    exact UInt16.add_right_inj next

/-- **The target of a mode is the address the processor uses** if and only if
both read the same bytes. -/
theorem target_eq_addressOf_iff {mode : Cpu.AddressingMode} (h : hasMemoryOperand mode) :
    (opmodeOf mode).target image regs regs.pc
      = addressOf mode image { regs with pc := regs.pc + 1 } ↔ Predicted image regs mode := by
  have hword : target16 image regs.pc = readWord image (regs.pc + 1).toNat ↔
      image (regs.pc + 2).toNat = image ((regs.pc + 1).toNat + 1) := by
    unfold target16 readWord
    rw [Byte.or_comm_word, Byte.word_inj]
    exact and_iff_right rfl
  cases mode with
  | none | imm => cases h
  | zpg => exact iff_of_true rfl trivial
  | zpgx => exact iff_of_true (add_and_0xFF _ _).symm trivial
  | zpgy => exact iff_of_true (add_and_0xFF _ _).symm trivial
  | abs => exact hword
  | absx => exact (UInt16.add_left_inj _).trans hword
  | absy => exact (UInt16.add_left_inj _).trans hword
  | iabsNmos => exact readWord_eq_wordAt_iff (pointerPlaces_pair _)
  | iabsCmos => exact readWord_eq_wordAt_iff ⟨_, _, rfl⟩
  | iabsx => exact readWord_eq_wordAt_iff ⟨_, _, rfl⟩
  | indx =>
    unfold addressOf
    simp only [add_and_0xFF]
    exact readWord_eq_wordAt_iff (zeroPagePlaces_pair _)
  | izpg => exact readWord_eq_wordAt_iff (zeroPagePlaces_pair _)
  | indy =>
    exact (UInt16.add_left_inj _).trans (readWord_eq_wordAt_iff (zeroPagePlaces_pair _))
  | rel =>
    have hnext : regs.pc + 1 + 1 = regs.pc + 2 := UInt16.add_assoc _ _ _
    show (if (target8 image regs.pc).toNat ≤ 127 then _ else _)
      = regs.pc + 1 + 1 + Cpu.signExtend _ ↔ _
    rw [hnext]
    exact branch_eq_iff _ _

variable {W : Type*} {bus : Bus W} {cmos : Bool}

/-- The state a handler starts in, behind its opcode. -/
def atHandler (s : CpuState W) : CpuState W := s.setPc (s.regs.pc + 1)

/-- Where an opcode is not fetched from the I/O region, the instruction that
is executed is the one in the image, and it uses the address its handler
uses. -/
theorem handlerAddress_atHandler {s : CpuState W} (hio : ¬ Cpu.isIoRegion s.regs.pc)
    (hm : hasMemoryOperand (opcodeDesc cmos (bus.mem s.host.world s.regs.pc.toNat)).mode) :
    s.desc bus cmos = opcodeDesc cmos (bus.mem s.host.world s.regs.pc.toNat) ∧
      handlerAddress bus (s.desc bus cmos) (s.fetchOpcode bus).2
        = handlerAddress bus (s.desc bus cmos) (atHandler s) := by
  have hread : s.host.readByte bus s.regs.pc s.regs.pc s.ctx.executedCycles
      = s.host.fetch bus s.regs.pc.toNat := if_neg hio
  have hdesc : s.desc bus cmos
      = opcodeDesc cmos (bus.mem s.host.world s.regs.pc.toNat) := by
    show opcodeDesc cmos (s.host.readByte bus _ _ _).1 = _
    rw [hread]
    rfl
  refine ⟨hdesc, ?_⟩
  rw [← hdesc] at hm
  rw [handlerAddress_eq bus hm, handlerAddress_eq bus hm]
  show addressOf _ (bus.mem (s.host.readByte bus _ _ _).2.world) _ = _
  rw [hread]
  rfl

/-- **The debugger shows the address the handler uses if and only if it reads the bytes the
processor reads.**

The first part makes sure that `handlerAddress` is the address that is meant: the operation reads,
writes or goes on there. The opcode is a documented one with an operand in memory, on either
processor. What is known of data at the place is arbitrary and does not come into the condition.
-/
theorem shows_handlerAddress_iff (s : CpuState W) (data : Option DisasmData)
    (hop : bus.mem s.host.world s.regs.pc.toNat ∈ documented cmos)
    (hm : hasMemoryOperand (opcodeDesc cmos (bus.mem s.host.world s.regs.pc.toNat)).mode) :
    let d := opcodeDesc cmos (bus.mem s.host.world s.regs.pc.toNat)
    let t := d.locate bus (atHandler s)
    ActsAt bus (handlerAddress bus d (atHandler s)) t (d.op.run bus t) ∧
      (getTargetAddress (bus.mem s.host.world) s.regs s.regs.pc data
          = some (handlerAddress bus d (atHandler s))
        ↔ Predicted (bus.mem s.host.world) s.regs d.mode) := by
  intro d t
  obtain ⟨hmode, haddr, hbase, hrel⟩ := tables_agree_modes hop hm
  constructor
  · have hacts := actsAt_run bus haddr hbase t
    rwa [show handlerAddress bus d (atHandler s)
        = if d.op.isBranch then t.branchTaken.regs.pc else t.ctx.addr from
      if_congr hrel rfl rfl]
  · have htarget : (opcodes (bus.mem s.host.world s.regs.pc.toNat)).addressMode.hasTarget := by
      rw [hmode]
      exact hasTarget_opmodeOf hm
    rw [getTargetAddress_of_hasTarget data htarget, hmode, handlerAddress_eq bus hm,
      Option.some_inj]
    exact target_eq_addressOf_iff hm

/-- A processor at 0x300 in front of a program. -/
def inFrontOf (program : List UInt8) : CpuState (Nat → UInt8) :=
  (Cpu.CpuInstance.flat 0x300 program 0).enter

/-- The address of `LDA $1234,X` is shown as it is used. -/
theorem shows_handlerAddress_absx :
    getTargetAddress (inFrontOf [0xBD, 0x34, 0x12]).host.world
        (inFrontOf [0xBD, 0x34, 0x12]).regs 0x300 none
      = some (handlerAddress Bus.flat (opcodeDesc false 0xBD)
          (atHandler (inFrontOf [0xBD, 0x34, 0x12]))) :=
  ((@shows_handlerAddress_iff _ Bus.flat false
    (inFrontOf [0xBD, 0x34, 0x12]) none (by decide +kernel) (by decide +kernel)).2).mpr
    (by decide +kernel)

/-- **A branch backwards is shown somewhere else**: `BNE $2FE` at 0x300 goes to
0x2FE, and the debugger shows 0x206. -/
theorem not_shows_handlerAddress :
    ¬ ∀ (bus : Bus (Nat → UInt8)) (cmos : Bool) (s : CpuState (Nat → UInt8)),
      bus.mem s.host.world s.regs.pc.toNat ∈ documented cmos →
      hasMemoryOperand (opcodeDesc cmos (bus.mem s.host.world s.regs.pc.toNat)).mode →
      getTargetAddress (bus.mem s.host.world) s.regs s.regs.pc none
        = some (handlerAddress bus
            (opcodeDesc cmos (bus.mem s.host.world s.regs.pc.toNat)) (atHandler s)) := by
  intro h
  have := h Bus.flat false (inFrontOf [0xD0, 0xFC]) (by decide +kernel) (by decide +kernel)
  exact absurd this (by decide +kernel)

end Agreement

end LinApple.Debugger
