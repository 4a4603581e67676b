import LinApple.Cpu.Instructions

/-!
# Operations

What an opcode does with the address its addressing mode has found: the
operations of the 6502, those the 65C02 adds, and the ones that fall out of
the NMOS processor's decoder.
-/

namespace LinApple.Cpu

variable {W : Type*}

/-- The operations, by the handlers' names. -/
inductive Operation where
  | nop
  | lda | ldx | ldy | sta | stx | sty | stz
  | tax | txa | tay | tya | tsx | txs
  | and | ora | eor | bit | biti | cmp | cpx | cpy
  | asla | asl | lsra | lsr | rola | rol | rora | ror
  | ina | dea | inc | dec | inx | dex | iny | dey
  | jmp | jsr | rts | rti
  | brkNmos | brkCmos
  | hlt
  | pha | php | phx | phy | pla | plp | plx | ply
  | trb | tsb
  | adcNmos | adcCmos | sbcNmos | sbcCmos
  | bpl | bmi | bvc | bvs | bcc | bcs | bne | beq | bra
  | alr | anc | arr | aso | axa | axs | dcm | ins | las | lax | lse | oal
  | rla | rra | sax | say | tas | xaa | xas
  | clc | sec | clv | cli | sei | cld | sed
deriving DecidableEq, Repr

/-- Whether an operation works on the address. -/
def Operation.usesAddr : Operation → Bool
  | .nop | .tax | .txa | .tay | .tya | .tsx | .txs => false
  | .asla | .lsra | .rola | .rora | .ina | .dea => false
  | .inx | .dex | .iny | .dey => false
  | .rts | .rti | .brkNmos | .brkCmos | .hlt => false
  | .pha | .php | .phx | .phy | .pla | .plp | .plx | .ply => false
  | .clc | .sec | .clv | .cli | .sei | .cld | .sed => false
  | _ => true

/-- Whether an operation needs the address before indexing. -/
def Operation.usesBase : Operation → Bool
  | .axa | .say | .tas | .xas => true
  | _ => false

/-! ## The shapes of operations -/

section Shapes

variable (bus : Bus W) (s : CpuState W)

/-- `regs.r = v; set_nz(regs.r)`, for one of the registers. -/
def loadA (v : UInt8) : CpuState W := (s.setA v).setNz v.toUInt16

/-- `regs.x = v; set_nz(regs.x)` -/
def loadX (v : UInt8) : CpuState W := (s.setX v).setNz v.toUInt16

/-- `regs.y = v; set_nz(regs.y)` -/
def loadY (v : UInt8) : CpuState W := (s.setY v).setNz v.toUInt16

/-- A comparison of a register with a value. -/
def compare (r : UInt8) (val : UInt16) : CpuState W :=
  (s.setFlagc (LinApple.Cpu.bit (r.toUInt16 ≥ val))).setNz (r.toUInt16 - val)

/-- `push(regs.pc >> 8); push(regs.pc & 0xFF)` -/
def pushPc : CpuState W :=
  (s.push bus (s.regs.pc >>> 8).toUInt8).push bus (s.regs.pc &&& 0xFF).toUInt8

/-- `regs.pc = pop(); regs.pc |= pop() << 8` -/
def popPc : CpuState W :=
  let (low, s) := s.pop bus
  let (high, s) := s.pop bus
  s.setPc (low.toUInt16 ||| (high.toUInt16 <<< 8))

/-- `regs.ps = pop() | AF_RESERVED | AF_BREAK; unpack_ps()` -/
def popPs : CpuState W :=
  let (v, s) := s.pop bus
  (s.setPs (v ||| afReserved ||| afBreak)).unpackPs

/-- The interrupt flag is set, and the decimal flag is cleared by the CMOS
processor. -/
def maskInterrupts (cmos : Bool) : CpuState W :=
  let ps := s.regs.ps ||| afInterrupt
  s.setPs (if cmos then ps &&& ~~~afDecimal else ps)

/-- `regs.pc = read_u16_unaligned(mem + vector)` -/
def jumpVector (vector : Nat) : CpuState W :=
  let (pc, s) := s.fetch16 bus vector
  s.setPc pc

/-- `((base >> 8) + 1) & 0xFF` -/
def highPlusOne (base : UInt16) : UInt16 := ((base >>> 8) + 1) &&& 0xFF

/-- `addr = (addr & 0x00FF) | (val << 8); write_byte(addr, val)` -/
def storeHigh (val : UInt16) : CpuState W :=
  let s := s.setAddr ((s.ctx.addr &&& 0x00FF) ||| (val <<< (8 : UInt16)))
  s.writeByte bus s.ctx.addr val.toUInt8

end Shapes

/-! ## What the operations do -/

section Operations

variable (bus : Bus W) (s : CpuState W)

/-- `op_lda` -/
def opLda : CpuState W :=
  let (v, s) := s.readByte bus s.ctx.addr
  loadA s v

/-- `op_ldx` -/
def opLdx : CpuState W :=
  let (v, s) := s.readByte bus s.ctx.addr
  loadX s v

/-- `op_ldy` -/
def opLdy : CpuState W :=
  let (v, s) := s.readByte bus s.ctx.addr
  loadY s v

/-- `op_and` -/
def opAnd : CpuState W :=
  let (v, s) := s.readByte bus s.ctx.addr
  loadA s (s.regs.a &&& v)

/-- `op_ora` -/
def opOra : CpuState W :=
  let (v, s) := s.readByte bus s.ctx.addr
  loadA s (s.regs.a ||| v)

/-- `op_eor` -/
def opEor : CpuState W :=
  let (v, s) := s.readByte bus s.ctx.addr
  loadA s (s.regs.a ^^^ v)

/-- `op_bit` -/
def opBit : CpuState W :=
  let (v, s) := s.readByte bus s.ctx.addr
  { s with ctx := { s.ctx with
      flagz := bit (s.regs.a &&& v == 0)
      flagn := v &&& 0x80
      flagv := v &&& 0x40 } }

/-- `op_biti` -/
def opBiti : CpuState W :=
  let (v, s) := s.readByte bus s.ctx.addr
  s.setFlagz (bit (s.regs.a &&& v == 0))

/-- `op_cmp` -/
def opCmp : CpuState W :=
  let (v, s) := s.readByte bus s.ctx.addr
  compare s s.regs.a v.toUInt16

/-- `op_cpx` -/
def opCpx : CpuState W :=
  let (v, s) := s.readByte bus s.ctx.addr
  compare s s.regs.x v.toUInt16

/-- `op_cpy` -/
def opCpy : CpuState W :=
  let (v, s) := s.readByte bus s.ctx.addr
  compare s s.regs.y v.toUInt16

/-- `op_asla` -/
def opAsla : CpuState W :=
  let val := s.regs.a.toUInt16 <<< 1
  ((s.setFlagc (bit (val > 0xFF))).setNz val).setA val.toUInt8

/-- `op_asl` -/
def opAsl : CpuState W :=
  let (v, s) := s.readByte bus s.ctx.addr
  let val := v.toUInt16 <<< 1
  ((s.setFlagc (bit (val > 0xFF))).setNz val).writeByte bus s.ctx.addr val.toUInt8

/-- `op_lsra` -/
def opLsra : CpuState W :=
  let val := s.regs.a >>> 1
  (((s.setFlagc (s.regs.a &&& 1)).setFlagn 0).setA val).setZ val.toUInt16

/-- `op_lsr` -/
def opLsr : CpuState W :=
  let (v, s) := s.readByte bus s.ctx.addr
  let val := v.toUInt16 >>> 1
  (((s.setFlagc (v &&& 1)).setFlagn 0).setZ val).writeByte bus s.ctx.addr
    val.toUInt8

/-- `op_rola` -/
def opRola : CpuState W :=
  let val := (s.regs.a.toUInt16 <<< 1) ||| s.ctx.flagc.toUInt16
  loadA (s.setFlagc (bit (val > 0xFF))) (val &&& 0xFF).toUInt8

/-- `op_rol` -/
def opRol : CpuState W :=
  let (v, s) := s.readByte bus s.ctx.addr
  let val := (v.toUInt16 <<< 1) ||| s.ctx.flagc.toUInt16
  ((s.setFlagc (bit (val > 0xFF))).setNz val).writeByte bus s.ctx.addr val.toUInt8

/-- `(v >> 1) | (flagc != 0 ? 0x80 : 0)` -/
def rotateRight (v c : UInt8) : UInt16 :=
  (v.toUInt16 >>> 1) ||| (if c ≠ 0 then 0x80 else 0)

/-- `op_rora` -/
def opRora : CpuState W :=
  let val := rotateRight s.regs.a s.ctx.flagc
  loadA (s.setFlagc (s.regs.a &&& 1)) (val &&& 0xFF).toUInt8

/-- `op_ror` -/
def opRor : CpuState W :=
  let (v, s) := s.readByte bus s.ctx.addr
  let val := rotateRight v s.ctx.flagc
  ((s.setFlagc (v &&& 1)).setNz val).writeByte bus s.ctx.addr val.toUInt8

/-- `op_inc` -/
def opInc : CpuState W :=
  let (v, s) := s.readByte bus s.ctx.addr
  let val := v.toUInt16 + 1
  (s.setNz val).writeByte bus s.ctx.addr val.toUInt8

/-- `op_dec` -/
def opDec : CpuState W :=
  let (v, s) := s.readByte bus s.ctx.addr
  let val := v.toUInt16 - 1
  (s.setNz val).writeByte bus s.ctx.addr val.toUInt8

/-- `op_jsr` -/
def opJsr : CpuState W :=
  (pushPc bus (s.setPc (s.regs.pc - 1))).setPc s.ctx.addr

/-- `op_rts` -/
def opRts : CpuState W :=
  let s := popPc bus s
  s.setPc (s.regs.pc + 1)

/-- `op_rti` -/
def opRti : CpuState W := popPc bus (popPs bus s)

/-- `op_brk` -/
def opBrk (cmos : Bool) : CpuState W :=
  let s := (pushPc bus (s.setPc (s.regs.pc + 1))).packPs
  jumpVector bus (maskInterrupts (s.push bus s.regs.ps) cmos) irqVectorAddr

/-- `op_hlt` -/
def opHlt : CpuState W :=
  { s with regs := { s.regs with isJammed := true, pc := s.regs.pc - 1 } }

/-- `op_php` -/
def opPhp : CpuState W :=
  let s := s.packPs
  s.push bus s.regs.ps

/-- `op_pla` -/
def opPla : CpuState W :=
  let (v, s) := s.pop bus
  loadA s v

/-- `op_plx` -/
def opPlx : CpuState W :=
  let (v, s) := s.pop bus
  loadX s v

/-- `op_ply` -/
def opPly : CpuState W :=
  let (v, s) := s.pop bus
  loadY s v

/-- `op_trb` -/
def opTrb : CpuState W :=
  let (v, s) := s.readByte bus s.ctx.addr
  (s.setFlagz (bit (s.regs.a &&& v == 0))).writeByte bus s.ctx.addr
    (v &&& ~~~s.regs.a)

/-- `op_tsb` -/
def opTsb : CpuState W :=
  let (v, s) := s.readByte bus s.ctx.addr
  (s.setFlagz (bit (s.regs.a &&& v == 0))).writeByte bus s.ctx.addr
    (v ||| s.regs.a)

/-- An operation that adds or subtracts what it reads. -/
def opArithmetic (f : Bool → UInt16 → UInt16 → UInt16 → Arithmetic) :
    CpuState W :=
  let (v, s) := s.readByte bus s.ctx.addr
  s.setArithmetic (f s.decimal s.regs.a.toUInt16 v.toUInt16 s.ctx.flagc.toUInt16)

/-- `op_adc_nmos` -/
def opAdcNmos : CpuState W := opArithmetic bus s adcNmos

/-- `op_sbc_nmos` -/
def opSbcNmos : CpuState W := opArithmetic bus s sbcNmos

/-- The cycle the CMOS processor needs for decimal arithmetic. -/
def chargeDecimal : CpuState W :=
  s.setExtra (if s.decimal then s.ctx.extraCycles + 1 else s.ctx.extraCycles)

/-- `op_adc_cmos` -/
def opAdcCmos : CpuState W := chargeDecimal (opArithmetic bus s adcCmos)

/-- `op_sbc_cmos` -/
def opSbcCmos : CpuState W := chargeDecimal (opArithmetic bus s sbcCmos)

/-- `op_alr` -/
def opAlr : CpuState W :=
  let (v, s) := s.readByte bus s.ctx.addr
  let a := s.regs.a &&& v
  (((s.setFlagc (a &&& 1)).setFlagn 0).setA (a >>> 1)).setZ (a >>> 1).toUInt16

/-- `op_anc` -/
def opAnc : CpuState W :=
  let (v, s) := s.readByte bus s.ctx.addr
  let s := loadA s (s.regs.a &&& v)
  s.setFlagc (bit (s.ctx.flagn != 0))

/-- `op_arr` -/
def opArr : CpuState W :=
  let (v, s) := s.readByte bus s.ctx.addr
  s.setArithmetic (Cpu.arr s.decimal (s.regs.a &&& v).toUInt16 s.ctx.flagc)

/-- `op_aso` -/
def opAso : CpuState W :=
  let (v, s) := s.readByte bus s.ctx.addr
  let val := v.toUInt16 <<< 1
  let s := (s.setFlagc (bit (val > 0xFF))).writeByte bus s.ctx.addr val.toUInt8
  loadA s (s.regs.a ||| val.toUInt8)

/-- `op_axa` -/
def opAxa : CpuState W :=
  storeHigh bus s (s.regs.a.toUInt16 &&& s.regs.x.toUInt16
    &&& highPlusOne s.ctx.base)

/-- `op_axs` -/
def opAxs : CpuState W := s.writeByte bus s.ctx.addr (s.regs.a &&& s.regs.x)

/-- `op_dcm` -/
def opDcm : CpuState W :=
  let (v, s) := s.readByte bus s.ctx.addr
  let val := v.toUInt16 - 1
  let s := s.writeByte bus s.ctx.addr val.toUInt8
  compare s s.regs.a val

/-- `op_ins` -/
def opIns : CpuState W :=
  let (v, s) := s.readByte bus s.ctx.addr
  let val := v.toUInt16 + 1
  let s := s.writeByte bus s.ctx.addr val.toUInt8
  s.setArithmetic (sbcNmos s.decimal s.regs.a.toUInt16 val s.ctx.flagc.toUInt16)

/-- `op_las` -/
def opLas : CpuState W :=
  let (v, s) := s.readByte bus s.ctx.addr
  let val := v &&& s.regs.sp.toUInt8
  (((s.setA val).setX val).setSp (val.toUInt16 ||| 0x100)).setNz val.toUInt16

/-- `op_lax` -/
def opLax : CpuState W :=
  let (v, s) := s.readByte bus s.ctx.addr
  loadA (s.setX v) v

/-- `op_lse` -/
def opLse : CpuState W :=
  let (v, s) := s.readByte bus s.ctx.addr
  let val := v >>> 1
  let s := (s.setFlagc (v &&& 1)).writeByte bus s.ctx.addr val
  loadA s (s.regs.a ^^^ val)

/-- `op_oal` -/
def opOal : CpuState W :=
  let (v, s) := s.readByte bus s.ctx.addr
  let a := (s.regs.a ||| 0xEE) &&& v
  loadA (s.setX a) a

/-- `op_rla` -/
def opRla : CpuState W :=
  let (v, s) := s.readByte bus s.ctx.addr
  let val := (v.toUInt16 <<< 1) ||| s.ctx.flagc.toUInt16
  let s := (s.setFlagc (bit (val > 0xFF))).writeByte bus s.ctx.addr val.toUInt8
  loadA s (s.regs.a &&& val.toUInt8)

/-- `op_rra` -/
def opRra : CpuState W :=
  let (v, s) := s.readByte bus s.ctx.addr
  let val := rotateRight v s.ctx.flagc
  let s := (s.setFlagc (v &&& 1)).writeByte bus s.ctx.addr val.toUInt8
  s.setArithmetic (adcNmos s.decimal s.regs.a.toUInt16 val s.ctx.flagc.toUInt16)

/-- `op_sax` -/
def opSax : CpuState W :=
  let (v, s) := s.readByte bus s.ctx.addr
  let temp := s.regs.a &&& s.regs.x
  loadX (s.setFlagc (bit (temp ≥ v))) (temp - v)

/-- `op_say` -/
def opSay : CpuState W :=
  storeHigh bus s (s.regs.y.toUInt16 &&& highPlusOne s.ctx.base)

/-- `op_tas` -/
def opTas : CpuState W :=
  let val := s.regs.a.toUInt16 &&& s.regs.x.toUInt16
  storeHigh bus (s.setSp (0x100 ||| val)) (val &&& highPlusOne s.ctx.base)

/-- `op_xaa` -/
def opXaa : CpuState W :=
  let s := s.setA s.regs.x
  let (v, s) := s.readByte bus s.ctx.addr
  loadA s (s.regs.a &&& v)

/-- `op_xas` -/
def opXas : CpuState W :=
  storeHigh bus s (s.regs.x.toUInt16 &&& highPlusOne s.ctx.base)

/-- **What an operation does.** -/
def Operation.run (op : Operation) : CpuState W :=
  match op with
  | .nop => s
  | .lda => opLda bus s
  | .ldx => opLdx bus s
  | .ldy => opLdy bus s
  | .sta => s.writeByte bus s.ctx.addr s.regs.a
  | .stx => s.writeByte bus s.ctx.addr s.regs.x
  | .sty => s.writeByte bus s.ctx.addr s.regs.y
  | .stz => s.writeByte bus s.ctx.addr 0
  | .tax => loadX s s.regs.a
  | .txa => loadA s s.regs.x
  | .tay => loadY s s.regs.a
  | .tya => loadA s s.regs.y
  | .tsx => loadX s (s.regs.sp &&& 0xFF).toUInt8
  | .txs => s.setSp (0x100 ||| s.regs.x.toUInt16)
  | .and => opAnd bus s
  | .ora => opOra bus s
  | .eor => opEor bus s
  | .bit => opBit bus s
  | .biti => opBiti bus s
  | .cmp => opCmp bus s
  | .cpx => opCpx bus s
  | .cpy => opCpy bus s
  | .asla => opAsla s
  | .asl => opAsl bus s
  | .lsra => opLsra s
  | .lsr => opLsr bus s
  | .rola => opRola s
  | .rol => opRol bus s
  | .rora => opRora s
  | .ror => opRor bus s
  | .ina => loadA s (s.regs.a + 1)
  | .dea => loadA s (s.regs.a - 1)
  | .inc => opInc bus s
  | .dec => opDec bus s
  | .inx => loadX s (s.regs.x + 1)
  | .dex => loadX s (s.regs.x - 1)
  | .iny => loadY s (s.regs.y + 1)
  | .dey => loadY s (s.regs.y - 1)
  | .jmp => s.setPc s.ctx.addr
  | .jsr => opJsr bus s
  | .rts => opRts bus s
  | .rti => opRti bus s
  | .brkNmos => opBrk bus s false
  | .brkCmos => opBrk bus s true
  | .hlt => opHlt s
  | .pha => s.push bus s.regs.a
  | .php => opPhp bus s
  | .phx => s.push bus s.regs.x
  | .phy => s.push bus s.regs.y
  | .pla => opPla bus s
  | .plp => popPs bus s
  | .plx => opPlx bus s
  | .ply => opPly bus s
  | .trb => opTrb bus s
  | .tsb => opTsb bus s
  | .adcNmos => opAdcNmos bus s
  | .adcCmos => opAdcCmos bus s
  | .sbcNmos => opSbcNmos bus s
  | .sbcCmos => opSbcCmos bus s
  | .bpl => s.branchIf (s.ctx.flagn == 0)
  | .bmi => s.branchIf (s.ctx.flagn != 0)
  | .bvc => s.branchIf (s.ctx.flagv == 0)
  | .bvs => s.branchIf (s.ctx.flagv != 0)
  | .bcc => s.branchIf (s.ctx.flagc == 0)
  | .bcs => s.branchIf (s.ctx.flagc != 0)
  | .bne => s.branchIf (s.ctx.flagz == 0)
  | .beq => s.branchIf (s.ctx.flagz != 0)
  | .bra => s.branchTaken
  | .alr => opAlr bus s
  | .anc => opAnc bus s
  | .arr => opArr bus s
  | .aso => opAso bus s
  | .axa => opAxa bus s
  | .axs => opAxs bus s
  | .dcm => opDcm bus s
  | .ins => opIns bus s
  | .las => opLas bus s
  | .lax => opLax bus s
  | .lse => opLse bus s
  | .oal => opOal bus s
  | .rla => opRla bus s
  | .rra => opRra bus s
  | .sax => opSax bus s
  | .say => opSay bus s
  | .tas => opTas bus s
  | .xaa => opXaa bus s
  | .xas => opXas bus s
  | .clc => s.setFlagc 0
  | .sec => s.setFlagc 1
  | .clv => s.setFlagv 0
  | .cli => s.setPs (s.regs.ps &&& ~~~afInterrupt)
  | .sei => s.setPs (s.regs.ps ||| afInterrupt)
  | .cld => s.setPs (s.regs.ps &&& ~~~afDecimal)
  | .sed => s.setPs (s.regs.ps ||| afDecimal)

end Operations

end LinApple.Cpu
