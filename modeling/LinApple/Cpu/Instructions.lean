import LinApple.Cpu.Types

/-!
# Instructions

The addressing modes and the operations of both processors, those the NMOS
processor was not meant to have included. An addressing mode takes its
operand from the image and leaves an address behind; an operation works on
it. What happens outside the processor is confined to the host: reads and
writes, the stack, and vectors.
-/

namespace LinApple.Cpu

variable {W : Type*}

namespace CpuState

/-! ## Access -/

section Access

variable (bus : Bus W) (s : CpuState W)

/-- `read_byte` -/
def readByte (a : UInt16) : UInt8 × CpuState W :=
  let r := s.host.readByte bus s.regs.pc a s.ctx.executedCycles
  (r.1, { s with host := r.2 })

/-- `write_byte` -/
def writeByte (a : UInt16) (value : UInt8) : CpuState W :=
  { s with host := s.host.writeByte bus s.regs.pc a value s.ctx.executedCycles }

/-- `fetch_opcode` -/
def fetchOpcode : UInt8 × CpuState W :=
  let r := s.host.readByte bus s.regs.pc s.regs.pc s.ctx.executedCycles
  (r.1, { s with regs := { s.regs with pc := s.regs.pc + 1 }, host := r.2 })

/-- `*(mem + regs.pc++)` -/
def fetchPc : UInt8 × CpuState W :=
  let r := s.host.fetch bus s.regs.pc.toNat
  (r.1, { s with regs := { s.regs with pc := s.regs.pc + 1 }, host := r.2 })

/-- `read_u16_unaligned(mem + regs.pc)`, and `regs.pc += 2`. -/
def fetchPc16 : UInt16 × CpuState W :=
  let r := s.host.fetch16 bus s.regs.pc.toNat
  (r.1, { s with regs := { s.regs with pc := s.regs.pc + 2 }, host := r.2 })

/-- `*(mem + i)` -/
def fetch (i : Nat) : UInt8 × CpuState W :=
  let r := s.host.fetch bus i
  (r.1, { s with host := r.2 })

/-- `read_u16_unaligned(mem + i)` -/
def fetch16 (i : Nat) : UInt16 × CpuState W :=
  let r := s.host.fetch16 bus i
  (r.1, { s with host := r.2 })

/-- `push` -/
def push (value : UInt8) : CpuState W :=
  let sp := s.regs.sp - 1
  { s with
    regs := { s.regs with sp := if sp < stackBegin then stackEnd else sp }
    host := s.host.poke bus s.regs.sp value }

/-- `pop` -/
def pop : UInt8 × CpuState W :=
  let sp := if s.regs.sp ≥ stackEnd then stackBegin else s.regs.sp + 1
  let r := s.host.fetch bus sp.toNat
  (r.1, { s with regs := { s.regs with sp }, host := r.2 })

end Access

/-! ## Registers and flags -/

section Registers

variable (s : CpuState W)

/-- `regs.a = v` -/
def setA (v : UInt8) : CpuState W := { s with regs := { s.regs with a := v } }

/-- `regs.x = v` -/
def setX (v : UInt8) : CpuState W := { s with regs := { s.regs with x := v } }

/-- `regs.y = v` -/
def setY (v : UInt8) : CpuState W := { s with regs := { s.regs with y := v } }

/-- `regs.sp = v` -/
def setSp (v : UInt16) : CpuState W := { s with regs := { s.regs with sp := v } }

/-- `regs.pc = v` -/
def setPc (v : UInt16) : CpuState W := { s with regs := { s.regs with pc := v } }

/-- `regs.ps = v` -/
def setPs (v : UInt8) : CpuState W := { s with regs := { s.regs with ps := v } }

/-- `flagc = v` -/
def setFlagc (v : UInt8) : CpuState W := { s with ctx := { s.ctx with flagc := v } }

/-- `flagn = v` -/
def setFlagn (v : UInt8) : CpuState W := { s with ctx := { s.ctx with flagn := v } }

/-- `flagv = v` -/
def setFlagv (v : UInt8) : CpuState W := { s with ctx := { s.ctx with flagv := v } }

/-- `flagz = v` -/
def setFlagz (v : UInt8) : CpuState W := { s with ctx := { s.ctx with flagz := v } }

/-- `addr = v` -/
def setAddr (v : UInt16) : CpuState W := { s with ctx := { s.ctx with addr := v } }

/-- `base = v` -/
def setBase (v : UInt16) : CpuState W := { s with ctx := { s.ctx with base := v } }

/-- `extra_cycles = v` -/
def setExtra (v : UInt16) : CpuState W :=
  { s with ctx := { s.ctx with extraCycles := v } }

/-- `set_nz` -/
def setNz (v : UInt16) : CpuState W :=
  { s with ctx := { s.ctx with
      flagn := (v &&& 0x80).toUInt8
      flagz := if v &&& 0xFF = 0 then 1 else 0 } }

/-- `set_z` -/
def setZ (v : UInt16) : CpuState W :=
  { s with ctx := { s.ctx with flagz := if v &&& 0xFF = 0 then 1 else 0 } }

/-- The flags `pack_ps` puts into the packed ones. -/
def packed : UInt8 :=
  (s.regs.ps &&& ~~~(afCarry ||| afSign ||| afOverflow ||| afZero))
    ||| s.ctx.flagc ||| s.ctx.flagn
    ||| (if s.ctx.flagv ≠ 0 then afOverflow else 0)
    ||| (if s.ctx.flagz ≠ 0 then afZero else 0) ||| afReserved ||| afBreak

/-- `pack_ps` -/
def packPs : CpuState W := s.setPs s.packed

/-- `unpack_ps` -/
def unpackPs : CpuState W :=
  { s with ctx := { s.ctx with
      flagc := s.regs.ps &&& afCarry
      flagn := s.regs.ps &&& afSign
      flagv := s.regs.ps &&& afOverflow
      flagz := s.regs.ps &&& afZero } }

/-- The decimal flag. -/
def decimal : Bool := s.regs.ps &&& afDecimal != 0

/-- `check_page_change` -/
def checkPageChange (b a : UInt16) : CpuState W :=
  { s with ctx := { s.ctx with
      extraCycles := if (b ^^^ a) &&& 0xFF00 ≠ 0 then 1 else s.ctx.extraCycles } }

/-- `branch_taken` -/
def branchTaken : CpuState W :=
  let pc := s.regs.pc + s.ctx.addr
  { s with
    regs := { s.regs with pc }
    ctx := { s.ctx with
      extraCycles := if (s.regs.pc ^^^ pc) &&& 0xFF00 ≠ 0 then 2 else 1 } }

/-- A branch on a condition. -/
def branchIf (taken : Bool) : CpuState W := if taken then s.branchTaken else s

end Registers

end CpuState

/-! ## Addressing modes -/

/-- The addressing modes, and the lack of one. -/
inductive AddressingMode where
  | none
  | imm
  | zpg
  | zpgx
  | zpgy
  | abs
  | absx
  | absy
  | iabsNmos
  | iabsCmos
  | iabsx
  | indx
  | indy
  | izpg
  | rel
deriving DecidableEq, Repr

/-- Whether a mode keeps the address it starts from, before indexing or
behind a pointer. -/
def AddressingMode.findsBase : AddressingMode → Bool
  | .absx | .absy | .iabsNmos | .iabsCmos | .indx | .indy | .izpg => true
  | _ => false

section Addressing

variable (bus : Bus W) (s : CpuState W)

/-- `addr_imm` -/
def addrImm : CpuState W :=
  { s with
    regs := { s.regs with pc := s.regs.pc + 1 }
    ctx := { s.ctx with addr := s.regs.pc } }

/-- `addr_zpg` -/
def addrZpg : CpuState W :=
  let (b, s) := s.fetchPc bus
  s.setAddr b.toUInt16

/-- `addr_zpgx` -/
def addrZpgx : CpuState W :=
  let (b, s) := s.fetchPc bus
  s.setAddr ((b.toUInt16 + s.regs.x.toUInt16) &&& 0xFF)

/-- `addr_zpgy` -/
def addrZpgy : CpuState W :=
  let (b, s) := s.fetchPc bus
  s.setAddr ((b.toUInt16 + s.regs.y.toUInt16) &&& 0xFF)

/-- `addr_abs` -/
def addrAbs : CpuState W :=
  let (addr, s) := s.fetchPc16 bus
  s.setAddr addr

/-- What `addr_absx` and `addr_absy` do with their index register. -/
def addrAbsIndexed (index : UInt8) : CpuState W :=
  let (base, s) := s.fetchPc16 bus
  ((s.setBase base).setAddr (base + index.toUInt16)).checkPageChange base
    (base + index.toUInt16)

/-- `addr_absx` -/
def addrAbsx : CpuState W := addrAbsIndexed bus s s.regs.x

/-- `addr_absy` -/
def addrAbsy : CpuState W := addrAbsIndexed bus s s.regs.y

/-- The pointer of `addr_iabs_nmos`, which wraps around in its page. -/
def readPointerNmos (base : UInt16) : UInt16 × CpuState W :=
  if base &&& 0xFF = 0xFF then
    let (low, s) := s.fetch bus base.toNat
    let (high, s) := s.fetch bus (base &&& 0xFF00).toNat
    (low.toUInt16 + (high.toUInt16 <<< 8), s)
  else s.fetch16 bus base.toNat

theorem readPointerNmos_ctx (base : UInt16) :
    (readPointerNmos bus s base).2.ctx = s.ctx := by
  unfold readPointerNmos
  split <;> rfl

theorem readPointerNmos_regs (base : UInt16) :
    (readPointerNmos bus s base).2.regs = s.regs := by
  unfold readPointerNmos
  split <;> rfl

/-- `addr_iabs_nmos` -/
def addrIabsNmos : CpuState W :=
  let (base, s) := s.fetchPc16 bus
  let (addr, s) := readPointerNmos bus s base
  (s.setBase base).setAddr addr

/-- `addr_iabs_cmos` -/
def addrIabsCmos : CpuState W :=
  let (base, s) := s.fetchPc16 bus
  let (addr, s) := s.fetch16 bus base.toNat
  let s := (s.setBase base).setAddr addr
  { s with ctx := { s.ctx with
      extraCycles := if base &&& 0xFF = 0xFF then 1 else s.ctx.extraCycles } }

/-- `addr_iabsx`: the pointer's place is a sum of pointers and does not
wrap around. -/
def addrIabsx : CpuState W :=
  let (pointer, s) := s.fetchPc16 bus
  let (addr, s) := s.fetch16 bus (pointer.toNat + s.regs.x.toNat)
  s.setAddr addr

/-- A pointer in the zero page, which wraps around in it. -/
def readZeroPagePointer (base : UInt16) : UInt16 × CpuState W :=
  if base = 0xFF then
    let (low, s) := s.fetch bus 0xFF
    let (high, s) := s.fetch bus 0
    (low.toUInt16 + (high.toUInt16 <<< 8), s)
  else s.fetch16 bus base.toNat

theorem readZeroPagePointer_ctx (base : UInt16) :
    (readZeroPagePointer bus s base).2.ctx = s.ctx := by
  unfold readZeroPagePointer
  split <;> rfl

theorem readZeroPagePointer_regs (base : UInt16) :
    (readZeroPagePointer bus s base).2.regs = s.regs := by
  unfold readZeroPagePointer
  split <;> rfl

/-- `addr_indx` -/
def addrIndx : CpuState W :=
  let (b, s) := s.fetchPc bus
  let base := (b.toUInt16 + s.regs.x.toUInt16) &&& 0xFF
  let (addr, s) := readZeroPagePointer bus s base
  (s.setBase base).setAddr addr

/-- The pointer of `addr_indy`, whose operand is read once more unless it is
0xFF. -/
def readPointerIndy : UInt16 × CpuState W :=
  let (b, s) := s.fetch bus s.regs.pc.toNat
  if b = 0xFF then
    let (low, s) := s.fetch bus 0xFF
    let (high, s) := s.fetch bus 0
    (low.toUInt16 + (high.toUInt16 <<< 8), s)
  else
    let (b, s) := s.fetch bus s.regs.pc.toNat
    s.fetch16 bus b.toNat

theorem readPointerIndy_ctx : (readPointerIndy bus s).2.ctx = s.ctx := by
  unfold readPointerIndy
  simp only
  split <;> rfl

theorem readPointerIndy_regs : (readPointerIndy bus s).2.regs = s.regs := by
  unfold readPointerIndy
  simp only
  split <;> rfl

/-- `addr_indy` -/
def addrIndy : CpuState W :=
  let (base, s) := readPointerIndy bus s
  let s := s.setPc (s.regs.pc + 1)
  ((s.setBase base).setAddr (base + s.regs.y.toUInt16)).checkPageChange base
    (base + s.regs.y.toUInt16)

/-- `addr_izpg` -/
def addrIzpg : CpuState W :=
  let (b, s) := s.fetchPc bus
  let (addr, s) := readZeroPagePointer bus s b.toUInt16
  (s.setBase b.toUInt16).setAddr addr

/-- A byte with its sign spread over two bytes. -/
def signExtend (b : UInt8) : UInt16 :=
  if b &&& 0x80 ≠ 0 then b.toUInt16 ||| 0xFF00 else b.toUInt16

/-- `addr_rel` -/
def addrRel : CpuState W :=
  let (b, s) := s.fetchPc bus
  s.setAddr (signExtend b)

/-- What an addressing mode does. -/
def AddressingMode.run (mode : AddressingMode) : CpuState W :=
  match mode with
  | .none => s
  | .imm => addrImm s
  | .zpg => addrZpg bus s
  | .zpgx => addrZpgx bus s
  | .zpgy => addrZpgy bus s
  | .abs => addrAbs bus s
  | .absx => addrAbsx bus s
  | .absy => addrAbsy bus s
  | .iabsNmos => addrIabsNmos bus s
  | .iabsCmos => addrIabsCmos bus s
  | .iabsx => addrIabsx bus s
  | .indx => addrIndx bus s
  | .indy => addrIndy bus s
  | .izpg => addrIzpg bus s
  | .rel => addrRel bus s

end Addressing

/-! ## Arithmetic -/

/-- What an addition or a subtraction leaves in the accumulator and the
flags. -/
structure Arithmetic where
  /-- The accumulator. -/
  a : UInt8
  /-- The carry. -/
  flagc : UInt8
  /-- The sign. -/
  flagn : UInt8
  /-- The overflow. -/
  flagv : UInt8
  /-- The zero flag. -/
  flagz : UInt8
deriving DecidableEq, Repr

/-- 1 for a condition that holds and 0 for one that does not. -/
def bit (b : Bool) : UInt8 := if b then 1 else 0

/-- The sign of a sum, as `set_nz` takes it. -/
def signOf (v : UInt16) : UInt8 := (v &&& 0x80).toUInt8

/-- Whether the low byte is zero, as `set_nz` takes it. -/
def zeroOf (v : UInt16) : UInt8 := if v &&& 0xFF = 0 then 1 else 0

/-- `regs.a = val & 0xFF; set_nz(regs.a)`, with the other flags. -/
def Arithmetic.ofValue (val : UInt16) (flagc flagv : UInt8) : Arithmetic :=
  ⟨(val &&& 0xFF).toUInt8, flagc, signOf (val &&& 0xFF), flagv,
    zeroOf (val &&& 0xFF)⟩

section Arithmetic

variable (decimal : Bool) (a temp c : UInt16)

/-- The decimal addition of the NMOS processor. -/
def adcNmosDecimal : Arithmetic :=
  let val := a + temp + c
  let low := (a &&& 0x0F) + (temp &&& 0x0F) + c
  let low := if low > 0x09 then low + 0x06 else low
  let high := (a >>> 4) + (temp >>> 4) + (if low > 0x0F then 1 else 0)
  let high := if high > 0x09 then high + 0x06 else high
  { a := ((high <<< 4) ||| (low &&& 0x0F)).toUInt8
    flagc := bit (high > 0x0F)
    flagn := signOf val
    flagv := bit ((a ^^^ val) &&& 0x80 != 0 && (a ^^^ temp) &&& 0x80 == 0)
    flagz := zeroOf val }

/-- The binary addition of the NMOS processor. -/
def adcNmosBinary : Arithmetic :=
  let val := a + temp + c
  .ofValue val (bit (val > 0xFF))
    (bit (a &&& 0x80 == temp &&& 0x80 && a &&& 0x80 != val &&& 0x80))

/-- The addition of `op_adc_nmos` and `op_rra`. -/
def adcNmos : Arithmetic :=
  if decimal then adcNmosDecimal a temp c else adcNmosBinary a temp c

/-- The overflow of `op_adc_cmos` before it is cleared. -/
def adcCmosOverflow : UInt8 := bit ((a ^^^ temp) &&& 0x80 == 0)

/-- The decimal addition of `op_adc_cmos`. -/
def adcCmosDecimal : Arithmetic :=
  let val := (a &&& 0x0F) + (temp &&& 0x0F) + c
  let val := if val ≥ 0x0A then 0x10 ||| ((val + 6) &&& 0x0F) else val
  let val := val + (a &&& 0xF0) + (temp &&& 0xF0)
  if val ≥ 0xA0 then
    .ofValue (val + 0x60) 1 (if val ≥ 0x180 then 0 else adcCmosOverflow a temp)
  else .ofValue val 0 (if val < 0x80 then 0 else adcCmosOverflow a temp)

/-- The binary addition of `op_adc_cmos`. -/
def adcCmosBinary : Arithmetic :=
  let val := a + temp + c
  if val ≥ 0x100 then
    .ofValue val 1 (if val ≥ 0x180 then 0 else adcCmosOverflow a temp)
  else .ofValue val 0 (if val < 0x80 then 0 else adcCmosOverflow a temp)

/-- The addition of `op_adc_cmos`. -/
def adcCmos : Arithmetic :=
  if decimal then adcCmosDecimal a temp c else adcCmosBinary a temp c

/-- `flagc == 0 ? 1 : 0` -/
def borrow : UInt16 := if c = 0 then 1 else 0

/-- The decimal subtraction of the NMOS processor. -/
def sbcNmosDecimal : Arithmetic :=
  let val := a - temp - borrow c
  let low := (a &&& 0x0F) - (temp &&& 0x0F) - borrow c
  let low := if low &&& 0x10 ≠ 0 then low - 0x06 else low
  let high := (a >>> 4) - (temp >>> 4) - ((low &&& 0x10) >>> 4)
  let high := if high &&& 0x10 ≠ 0 then high - 0x06 else high
  { a := ((high <<< 4) ||| (low &&& 0x0F)).toUInt8
    flagc := bit (high &&& 0x10 == 0)
    flagn := signOf val
    flagv := bit ((a ^^^ val) &&& 0x80 != 0 && (a ^^^ temp) &&& 0x80 != 0)
    flagz := zeroOf val }

/-- The binary subtraction of the NMOS processor. -/
def sbcNmosBinary : Arithmetic :=
  let val := a - temp - borrow c
  .ofValue val (bit (val < 0x100))
    (bit (a &&& 0x80 != temp &&& 0x80 && a &&& 0x80 != val &&& 0x80))

/-- The subtraction of `op_sbc_nmos` and `op_ins`. -/
def sbcNmos : Arithmetic :=
  if decimal then sbcNmosDecimal a temp c else sbcNmosBinary a temp c

/-- The overflow of `op_sbc_cmos` before it is cleared. -/
def sbcCmosOverflow : UInt8 := ((a ^^^ temp) &&& 0x80).toUInt8

/-- The decimal subtraction of `op_sbc_cmos`. -/
def sbcCmosDecimal : Arithmetic :=
  let temp2 := 0x0F + (a &&& 0x0F) - (temp &&& 0x0F) + c
  let val := if temp2 < 0x10 then 0 else 0x10
  let temp2 := if temp2 < 0x10 then temp2 - 0x06 else temp2 - 0x10
  let val := val + (0xF0 + (a &&& 0xF0) - (temp &&& 0xF0))
  if val < 0x100 then
    .ofValue (val - 0x60 + temp2) 0
      (if val < 0x80 then 0 else sbcCmosOverflow a temp)
  else
    .ofValue (val + temp2) 1 (if val ≥ 0x180 then 0 else sbcCmosOverflow a temp)

/-- The binary subtraction of `op_sbc_cmos`. -/
def sbcCmosBinary : Arithmetic :=
  let val := 0xFF + a - temp + c
  if val < 0x100 then
    .ofValue val 0 (if val < 0x80 then 0 else sbcCmosOverflow a temp)
  else .ofValue val 1 (if val ≥ 0x180 then 0 else sbcCmosOverflow a temp)

/-- The subtraction of `op_sbc_cmos`. -/
def sbcCmos : Arithmetic :=
  if decimal then sbcCmosDecimal a temp c else sbcCmosBinary a temp c

/-- The rotation of `op_arr`, of the accumulator and the operand. -/
def arr (temp : UInt16) (c : UInt8) : Arithmetic :=
  let val : UInt16 := (temp ||| (if c ≠ 0 then 0x100 else 0)) >>> 1
  if decimal then
    let val' : UInt16 := if (val &&& 0x0F) + (val &&& 0x01) > 0x05 then
      (val &&& 0xF0) ||| ((val + 0x06) &&& 0x0F) else val
    let carry : Bool := (val' &&& 0xF0) + (val' &&& 0x10) > 0x50
    let val'' : UInt16 := if carry then
      (val' &&& 0x0F) ||| ((val' + 0x60) &&& 0xF0) else val'
    { a := (val'' &&& 0xFF).toUInt8
      flagc := bit carry
      flagn := if c ≠ 0 then 0x80 else 0
      flagv := ((val ^^^ temp) &&& 0x40).toUInt8
      flagz := zeroOf val }
  else
    { a := (val &&& 0xFF).toUInt8
      flagc := bit (val &&& 0x40 != 0)
      flagn := signOf val
      flagv := ((val &&& 0x40) ^^^ ((val &&& 0x20) <<< (1 : UInt16))).toUInt8
      flagz := zeroOf val }

end Arithmetic

/-- The accumulator and the flags take over a result. -/
def CpuState.setArithmetic (s : CpuState W) (r : Arithmetic) : CpuState W :=
  { s with
    regs := { s.regs with a := r.a }
    ctx := { s.ctx with
      flagc := r.flagc, flagn := r.flagn, flagv := r.flagv, flagz := r.flagz } }

end LinApple.Cpu
