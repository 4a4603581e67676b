import LinApple.Cpu.Operations

/-!
# The opcode tables

The two tables of 256 opcodes: for each the addressing mode, the operation
and the base cycles. Which opcodes the 6502 is documented with, and into
which groups the timing of its instructions divides them, is read off the
tables' rows.
-/

namespace LinApple.Cpu

/-- `OpcodeDesc` -/
structure OpcodeDesc where
  /-- The addressing mode the handler begins with. -/
  mode : AddressingMode
  /-- The operation the handler ends with. -/
  op : Operation
  /-- `base_cycles` -/
  baseCycles : UInt8
deriving DecidableEq, Repr

/-! ## The tables -/

/-- **`opcodes_nmos`**: the 6502, with what its decoder does on the other opcodes. -/
def opcodesNmos : List OpcodeDesc :=
  [ -- 0x00
    ⟨.none, .brkNmos, 7⟩, ⟨.indx, .ora, 6⟩, ⟨.none, .hlt, 2⟩, ⟨.indx, .aso, 8⟩,
    ⟨.zpg, .nop, 3⟩, ⟨.zpg, .ora, 3⟩, ⟨.zpg, .asl, 5⟩, ⟨.zpg, .aso, 5⟩,
    ⟨.none, .php, 3⟩, ⟨.imm, .ora, 2⟩, ⟨.none, .asla, 2⟩, ⟨.imm, .anc, 2⟩,
    ⟨.absx, .nop, 4⟩, ⟨.abs, .ora, 4⟩, ⟨.abs, .asl, 6⟩, ⟨.abs, .aso, 6⟩,
    -- 0x10
    ⟨.rel, .bpl, 2⟩, ⟨.indy, .ora, 5⟩, ⟨.none, .hlt, 2⟩, ⟨.indy, .aso, 8⟩,
    ⟨.zpgx, .nop, 4⟩, ⟨.zpgx, .ora, 4⟩, ⟨.zpgx, .asl, 6⟩, ⟨.zpgx, .aso, 6⟩,
    ⟨.none, .clc, 2⟩, ⟨.absy, .ora, 4⟩, ⟨.none, .nop, 2⟩, ⟨.absy, .aso, 7⟩,
    ⟨.absx, .nop, 4⟩, ⟨.absx, .ora, 4⟩, ⟨.absx, .asl, 6⟩, ⟨.absx, .aso, 7⟩,
    -- 0x20
    ⟨.abs, .jsr, 6⟩, ⟨.indx, .and, 6⟩, ⟨.none, .hlt, 2⟩, ⟨.indx, .rla, 8⟩,
    ⟨.zpg, .bit, 3⟩, ⟨.zpg, .and, 3⟩, ⟨.zpg, .rol, 5⟩, ⟨.zpg, .rla, 5⟩,
    ⟨.none, .plp, 4⟩, ⟨.imm, .and, 2⟩, ⟨.none, .rola, 2⟩, ⟨.imm, .anc, 2⟩,
    ⟨.abs, .bit, 4⟩, ⟨.abs, .and, 2⟩, ⟨.abs, .rol, 6⟩, ⟨.abs, .rla, 6⟩,
    -- 0x30
    ⟨.rel, .bmi, 2⟩, ⟨.indy, .and, 5⟩, ⟨.none, .hlt, 2⟩, ⟨.indy, .rla, 8⟩,
    ⟨.zpgx, .nop, 4⟩, ⟨.zpgx, .and, 4⟩, ⟨.zpgx, .rol, 6⟩, ⟨.zpgx, .rla, 6⟩,
    ⟨.none, .sec, 2⟩, ⟨.absy, .and, 4⟩, ⟨.none, .nop, 2⟩, ⟨.absy, .rla, 7⟩,
    ⟨.absx, .nop, 4⟩, ⟨.absx, .and, 4⟩, ⟨.absx, .rol, 6⟩, ⟨.absx, .rla, 7⟩,
    -- 0x40
    ⟨.none, .rti, 6⟩, ⟨.indx, .eor, 6⟩, ⟨.none, .hlt, 2⟩, ⟨.indx, .lse, 8⟩,
    ⟨.zpg, .nop, 3⟩, ⟨.zpg, .eor, 3⟩, ⟨.zpg, .lsr, 5⟩, ⟨.zpg, .lse, 5⟩,
    ⟨.none, .pha, 3⟩, ⟨.imm, .eor, 2⟩, ⟨.none, .lsra, 2⟩, ⟨.imm, .alr, 2⟩,
    ⟨.abs, .jmp, 3⟩, ⟨.abs, .eor, 4⟩, ⟨.abs, .lsr, 6⟩, ⟨.abs, .lse, 6⟩,
    -- 0x50
    ⟨.rel, .bvc, 2⟩, ⟨.indy, .eor, 5⟩, ⟨.none, .hlt, 2⟩, ⟨.indy, .lse, 8⟩,
    ⟨.zpgx, .nop, 4⟩, ⟨.zpgx, .eor, 4⟩, ⟨.zpgx, .lsr, 6⟩, ⟨.zpgx, .lse, 6⟩,
    ⟨.none, .cli, 2⟩, ⟨.absy, .eor, 4⟩, ⟨.none, .nop, 2⟩, ⟨.absy, .lse, 7⟩,
    ⟨.absx, .nop, 4⟩, ⟨.absx, .eor, 4⟩, ⟨.absx, .lsr, 6⟩, ⟨.absx, .lse, 7⟩,
    -- 0x60
    ⟨.none, .rts, 6⟩, ⟨.indx, .adcNmos, 6⟩, ⟨.none, .hlt, 2⟩, ⟨.indx, .rra, 8⟩,
    ⟨.zpg, .nop, 3⟩, ⟨.zpg, .adcNmos, 3⟩, ⟨.zpg, .ror, 5⟩, ⟨.zpg, .rra, 5⟩,
    ⟨.none, .pla, 4⟩, ⟨.imm, .adcNmos, 2⟩, ⟨.none, .rora, 2⟩, ⟨.imm, .arr, 2⟩,
    ⟨.iabsNmos, .jmp, 6⟩, ⟨.abs, .adcNmos, 4⟩, ⟨.abs, .ror, 6⟩, ⟨.abs, .rra, 6⟩,
    -- 0x70
    ⟨.rel, .bvs, 2⟩, ⟨.indy, .adcNmos, 5⟩, ⟨.none, .hlt, 2⟩, ⟨.indy, .rra, 8⟩,
    ⟨.zpgx, .nop, 4⟩, ⟨.zpgx, .adcNmos, 4⟩, ⟨.zpgx, .ror, 6⟩, ⟨.zpgx, .rra, 6⟩,
    ⟨.none, .sei, 2⟩, ⟨.absy, .adcNmos, 4⟩, ⟨.none, .nop, 2⟩, ⟨.absy, .rra, 7⟩,
    ⟨.absx, .nop, 4⟩, ⟨.absx, .adcNmos, 4⟩, ⟨.absx, .ror, 6⟩, ⟨.absx, .rra, 7⟩,
    -- 0x80
    ⟨.imm, .nop, 2⟩, ⟨.indx, .sta, 6⟩, ⟨.imm, .nop, 2⟩, ⟨.indx, .axs, 6⟩,
    ⟨.zpg, .sty, 3⟩, ⟨.zpg, .sta, 3⟩, ⟨.zpg, .stx, 3⟩, ⟨.zpg, .axs, 3⟩,
    ⟨.none, .dey, 2⟩, ⟨.imm, .nop, 2⟩, ⟨.none, .txa, 2⟩, ⟨.imm, .xaa, 2⟩,
    ⟨.abs, .sty, 4⟩, ⟨.abs, .sta, 4⟩, ⟨.abs, .stx, 4⟩, ⟨.abs, .axs, 4⟩,
    -- 0x90
    ⟨.rel, .bcc, 2⟩, ⟨.indy, .sta, 6⟩, ⟨.none, .hlt, 2⟩, ⟨.indy, .axa, 6⟩,
    ⟨.zpgx, .sty, 4⟩, ⟨.zpgx, .sta, 4⟩, ⟨.zpgy, .stx, 4⟩, ⟨.zpgy, .axs, 4⟩,
    ⟨.none, .tya, 2⟩, ⟨.absy, .sta, 5⟩, ⟨.none, .txs, 2⟩, ⟨.absy, .tas, 5⟩,
    ⟨.absx, .say, 5⟩, ⟨.absx, .sta, 5⟩, ⟨.absy, .xas, 5⟩, ⟨.absy, .axa, 5⟩,
    -- 0xA0
    ⟨.imm, .ldy, 2⟩, ⟨.indx, .lda, 6⟩, ⟨.imm, .ldx, 2⟩, ⟨.indx, .lax, 6⟩,
    ⟨.zpg, .ldy, 3⟩, ⟨.zpg, .lda, 3⟩, ⟨.zpg, .ldx, 3⟩, ⟨.zpg, .lax, 3⟩,
    ⟨.none, .tay, 2⟩, ⟨.imm, .lda, 2⟩, ⟨.none, .tax, 2⟩, ⟨.imm, .oal, 2⟩,
    ⟨.abs, .ldy, 4⟩, ⟨.abs, .lda, 4⟩, ⟨.abs, .ldx, 4⟩, ⟨.abs, .lax, 4⟩,
    -- 0xB0
    ⟨.rel, .bcs, 2⟩, ⟨.indy, .lda, 5⟩, ⟨.none, .hlt, 2⟩, ⟨.indy, .lax, 5⟩,
    ⟨.zpgx, .ldy, 4⟩, ⟨.zpgx, .lda, 4⟩, ⟨.zpgy, .ldx, 4⟩, ⟨.zpgy, .lax, 4⟩,
    ⟨.none, .clv, 2⟩, ⟨.absy, .lda, 4⟩, ⟨.none, .tsx, 2⟩, ⟨.absy, .las, 4⟩,
    ⟨.absx, .ldy, 4⟩, ⟨.absx, .lda, 4⟩, ⟨.absy, .ldx, 4⟩, ⟨.absy, .lax, 4⟩,
    -- 0xC0
    ⟨.imm, .cpy, 2⟩, ⟨.indx, .cmp, 6⟩, ⟨.imm, .nop, 2⟩, ⟨.indx, .dcm, 8⟩,
    ⟨.zpg, .cpy, 3⟩, ⟨.zpg, .cmp, 3⟩, ⟨.zpg, .dec, 5⟩, ⟨.zpg, .dcm, 5⟩,
    ⟨.none, .iny, 2⟩, ⟨.imm, .cmp, 2⟩, ⟨.none, .dex, 2⟩, ⟨.imm, .sax, 2⟩,
    ⟨.abs, .cpy, 4⟩, ⟨.abs, .cmp, 4⟩, ⟨.abs, .dec, 5⟩, ⟨.abs, .dcm, 6⟩,
    -- 0xD0
    ⟨.rel, .bne, 2⟩, ⟨.indy, .cmp, 5⟩, ⟨.none, .hlt, 2⟩, ⟨.indy, .dcm, 8⟩,
    ⟨.zpgx, .nop, 4⟩, ⟨.zpgx, .cmp, 4⟩, ⟨.zpgx, .dec, 6⟩, ⟨.zpgx, .dcm, 6⟩,
    ⟨.none, .cld, 2⟩, ⟨.absy, .cmp, 4⟩, ⟨.none, .nop, 2⟩, ⟨.absy, .dcm, 7⟩,
    ⟨.absx, .nop, 4⟩, ⟨.absx, .cmp, 4⟩, ⟨.absx, .dec, 6⟩, ⟨.absx, .dcm, 7⟩,
    -- 0xE0
    ⟨.imm, .cpx, 2⟩, ⟨.indx, .sbcNmos, 6⟩, ⟨.imm, .nop, 2⟩, ⟨.indx, .ins, 8⟩,
    ⟨.zpg, .cpx, 3⟩, ⟨.zpg, .sbcNmos, 3⟩, ⟨.zpg, .inc, 5⟩, ⟨.zpg, .ins, 5⟩,
    ⟨.none, .inx, 2⟩, ⟨.imm, .sbcNmos, 2⟩, ⟨.none, .nop, 2⟩, ⟨.imm, .sbcNmos, 2⟩,
    ⟨.abs, .cpx, 4⟩, ⟨.abs, .sbcNmos, 4⟩, ⟨.abs, .inc, 6⟩, ⟨.abs, .ins, 6⟩,
    -- 0xF0
    ⟨.rel, .beq, 2⟩, ⟨.indy, .sbcNmos, 5⟩, ⟨.none, .hlt, 2⟩, ⟨.indy, .ins, 8⟩,
    ⟨.zpgx, .nop, 4⟩, ⟨.zpgx, .sbcNmos, 4⟩, ⟨.zpgx, .inc, 6⟩, ⟨.zpgx, .ins, 6⟩,
    ⟨.none, .sed, 2⟩, ⟨.absy, .sbcNmos, 4⟩, ⟨.none, .nop, 2⟩, ⟨.absy, .ins, 7⟩,
    ⟨.absx, .nop, 4⟩, ⟨.absx, .sbcNmos, 4⟩, ⟨.absx, .inc, 6⟩, ⟨.absx, .ins, 7⟩ ]

/-- **`opcodes_cmos`**: the 65C02. -/
def opcodesCmos : List OpcodeDesc :=
  [ -- 0x00
    ⟨.none, .brkCmos, 7⟩, ⟨.indx, .ora, 6⟩, ⟨.imm, .nop, 2⟩, ⟨.none, .nop, 2⟩,
    ⟨.zpg, .tsb, 5⟩, ⟨.zpg, .ora, 3⟩, ⟨.zpg, .asl, 5⟩, ⟨.none, .nop, 2⟩,
    ⟨.none, .php, 3⟩, ⟨.imm, .ora, 2⟩, ⟨.none, .asla, 2⟩, ⟨.none, .nop, 2⟩,
    ⟨.abs, .tsb, 6⟩, ⟨.abs, .ora, 4⟩, ⟨.abs, .asl, 6⟩, ⟨.none, .nop, 2⟩,
    -- 0x10
    ⟨.rel, .bpl, 2⟩, ⟨.indy, .ora, 5⟩, ⟨.izpg, .ora, 5⟩, ⟨.none, .nop, 2⟩,
    ⟨.zpg, .trb, 5⟩, ⟨.zpgx, .ora, 4⟩, ⟨.zpgx, .asl, 6⟩, ⟨.none, .nop, 2⟩,
    ⟨.none, .clc, 2⟩, ⟨.absy, .ora, 4⟩, ⟨.none, .ina, 2⟩, ⟨.none, .nop, 2⟩,
    ⟨.abs, .trb, 6⟩, ⟨.absx, .ora, 4⟩, ⟨.absx, .asl, 6⟩, ⟨.none, .nop, 2⟩,
    -- 0x20
    ⟨.abs, .jsr, 6⟩, ⟨.indx, .and, 6⟩, ⟨.imm, .nop, 2⟩, ⟨.none, .nop, 2⟩,
    ⟨.zpg, .bit, 3⟩, ⟨.zpg, .and, 3⟩, ⟨.zpg, .rol, 5⟩, ⟨.none, .nop, 2⟩,
    ⟨.none, .plp, 4⟩, ⟨.imm, .and, 2⟩, ⟨.none, .rola, 2⟩, ⟨.none, .nop, 2⟩,
    ⟨.abs, .bit, 4⟩, ⟨.abs, .and, 2⟩, ⟨.abs, .rol, 6⟩, ⟨.none, .nop, 2⟩,
    -- 0x30
    ⟨.rel, .bmi, 2⟩, ⟨.indy, .and, 5⟩, ⟨.izpg, .and, 5⟩, ⟨.none, .nop, 2⟩,
    ⟨.zpgx, .bit, 4⟩, ⟨.zpgx, .and, 4⟩, ⟨.zpgx, .rol, 6⟩, ⟨.none, .nop, 2⟩,
    ⟨.none, .sec, 2⟩, ⟨.absy, .and, 4⟩, ⟨.none, .dea, 2⟩, ⟨.none, .nop, 2⟩,
    ⟨.absx, .bit, 4⟩, ⟨.absx, .and, 4⟩, ⟨.absx, .rol, 6⟩, ⟨.none, .nop, 2⟩,
    -- 0x40
    ⟨.none, .rti, 6⟩, ⟨.indx, .eor, 6⟩, ⟨.imm, .nop, 2⟩, ⟨.none, .nop, 2⟩,
    ⟨.zpg, .nop, 3⟩, ⟨.zpg, .eor, 3⟩, ⟨.zpg, .lsr, 5⟩, ⟨.none, .nop, 2⟩,
    ⟨.none, .pha, 3⟩, ⟨.imm, .eor, 2⟩, ⟨.none, .lsra, 2⟩, ⟨.none, .nop, 2⟩,
    ⟨.abs, .jmp, 3⟩, ⟨.abs, .eor, 4⟩, ⟨.abs, .lsr, 6⟩, ⟨.none, .nop, 2⟩,
    -- 0x50
    ⟨.rel, .bvc, 2⟩, ⟨.indy, .eor, 5⟩, ⟨.izpg, .eor, 5⟩, ⟨.none, .nop, 2⟩,
    ⟨.zpgx, .nop, 4⟩, ⟨.zpgx, .eor, 4⟩, ⟨.zpgx, .lsr, 6⟩, ⟨.none, .nop, 2⟩,
    ⟨.none, .cli, 2⟩, ⟨.absy, .eor, 4⟩, ⟨.none, .phy, 3⟩, ⟨.none, .nop, 2⟩,
    ⟨.absx, .nop, 8⟩, ⟨.absx, .eor, 4⟩, ⟨.absx, .lsr, 6⟩, ⟨.none, .nop, 2⟩,
    -- 0x60
    ⟨.none, .rts, 6⟩, ⟨.indx, .adcCmos, 6⟩, ⟨.imm, .nop, 2⟩, ⟨.none, .nop, 2⟩,
    ⟨.zpg, .stz, 3⟩, ⟨.zpg, .adcCmos, 3⟩, ⟨.zpg, .ror, 5⟩, ⟨.none, .nop, 2⟩,
    ⟨.none, .pla, 4⟩, ⟨.imm, .adcCmos, 2⟩, ⟨.none, .rora, 2⟩, ⟨.none, .nop, 2⟩,
    ⟨.iabsCmos, .jmp, 6⟩, ⟨.abs, .adcCmos, 4⟩, ⟨.abs, .ror, 6⟩, ⟨.none, .nop, 2⟩,
    -- 0x70
    ⟨.rel, .bvs, 2⟩, ⟨.indy, .adcCmos, 5⟩, ⟨.izpg, .adcCmos, 5⟩, ⟨.none, .nop, 2⟩,
    ⟨.zpgx, .stz, 4⟩, ⟨.zpgx, .adcCmos, 4⟩, ⟨.zpgx, .ror, 6⟩, ⟨.none, .nop, 2⟩,
    ⟨.none, .sei, 2⟩, ⟨.absy, .adcCmos, 4⟩, ⟨.none, .ply, 4⟩, ⟨.none, .nop, 2⟩,
    ⟨.iabsx, .jmp, 6⟩, ⟨.absx, .adcCmos, 4⟩, ⟨.absx, .ror, 6⟩, ⟨.none, .nop, 2⟩,
    -- 0x80
    ⟨.rel, .bra, 2⟩, ⟨.indx, .sta, 6⟩, ⟨.imm, .nop, 2⟩, ⟨.none, .nop, 2⟩,
    ⟨.zpg, .sty, 3⟩, ⟨.zpg, .sta, 3⟩, ⟨.zpg, .stx, 3⟩, ⟨.none, .nop, 2⟩,
    ⟨.none, .dey, 2⟩, ⟨.imm, .biti, 2⟩, ⟨.none, .txa, 2⟩, ⟨.none, .nop, 2⟩,
    ⟨.abs, .sty, 4⟩, ⟨.abs, .sta, 4⟩, ⟨.abs, .stx, 4⟩, ⟨.none, .nop, 2⟩,
    -- 0x90
    ⟨.rel, .bcc, 2⟩, ⟨.indy, .sta, 6⟩, ⟨.izpg, .sta, 5⟩, ⟨.none, .nop, 2⟩,
    ⟨.zpgx, .sty, 4⟩, ⟨.zpgx, .sta, 4⟩, ⟨.zpgy, .stx, 4⟩, ⟨.none, .nop, 2⟩,
    ⟨.none, .tya, 2⟩, ⟨.absy, .sta, 5⟩, ⟨.none, .txs, 2⟩, ⟨.none, .nop, 2⟩,
    ⟨.abs, .stz, 4⟩, ⟨.absx, .sta, 5⟩, ⟨.absx, .stz, 5⟩, ⟨.none, .nop, 2⟩,
    -- 0xA0
    ⟨.imm, .ldy, 2⟩, ⟨.indx, .lda, 6⟩, ⟨.imm, .ldx, 2⟩, ⟨.none, .nop, 2⟩,
    ⟨.zpg, .ldy, 3⟩, ⟨.zpg, .lda, 3⟩, ⟨.zpg, .ldx, 3⟩, ⟨.none, .nop, 2⟩,
    ⟨.none, .tay, 2⟩, ⟨.imm, .lda, 2⟩, ⟨.none, .tax, 2⟩, ⟨.none, .nop, 2⟩,
    ⟨.abs, .ldy, 4⟩, ⟨.abs, .lda, 4⟩, ⟨.abs, .ldx, 4⟩, ⟨.none, .nop, 2⟩,
    -- 0xB0
    ⟨.rel, .bcs, 2⟩, ⟨.indy, .lda, 5⟩, ⟨.izpg, .lda, 5⟩, ⟨.none, .nop, 2⟩,
    ⟨.zpgx, .ldy, 4⟩, ⟨.zpgx, .lda, 4⟩, ⟨.zpgy, .ldx, 4⟩, ⟨.none, .nop, 2⟩,
    ⟨.none, .clv, 2⟩, ⟨.absy, .lda, 4⟩, ⟨.none, .tsx, 2⟩, ⟨.none, .nop, 2⟩,
    ⟨.absx, .ldy, 4⟩, ⟨.absx, .lda, 4⟩, ⟨.absy, .ldx, 4⟩, ⟨.none, .nop, 2⟩,
    -- 0xC0
    ⟨.imm, .cpy, 2⟩, ⟨.indx, .cmp, 6⟩, ⟨.imm, .nop, 2⟩, ⟨.none, .nop, 2⟩,
    ⟨.zpg, .cpy, 3⟩, ⟨.zpg, .cmp, 3⟩, ⟨.zpg, .dec, 5⟩, ⟨.none, .nop, 2⟩,
    ⟨.none, .iny, 2⟩, ⟨.imm, .cmp, 2⟩, ⟨.none, .dex, 2⟩, ⟨.none, .nop, 2⟩,
    ⟨.abs, .cpy, 4⟩, ⟨.abs, .cmp, 4⟩, ⟨.abs, .dec, 5⟩, ⟨.none, .nop, 2⟩,
    -- 0xD0
    ⟨.rel, .bne, 2⟩, ⟨.indy, .cmp, 5⟩, ⟨.izpg, .cmp, 5⟩, ⟨.none, .nop, 2⟩,
    ⟨.zpgx, .nop, 4⟩, ⟨.zpgx, .cmp, 4⟩, ⟨.zpgx, .dec, 6⟩, ⟨.none, .nop, 2⟩,
    ⟨.none, .cld, 2⟩, ⟨.absy, .cmp, 4⟩, ⟨.none, .phx, 3⟩, ⟨.none, .nop, 2⟩,
    ⟨.absx, .nop, 4⟩, ⟨.absx, .cmp, 4⟩, ⟨.absx, .dec, 6⟩, ⟨.none, .nop, 2⟩,
    -- 0xE0
    ⟨.imm, .cpx, 2⟩, ⟨.indx, .sbcCmos, 6⟩, ⟨.imm, .nop, 2⟩, ⟨.none, .nop, 2⟩,
    ⟨.zpg, .cpx, 3⟩, ⟨.zpg, .sbcCmos, 3⟩, ⟨.zpg, .inc, 5⟩, ⟨.none, .nop, 2⟩,
    ⟨.none, .inx, 2⟩, ⟨.imm, .sbcCmos, 2⟩, ⟨.none, .nop, 2⟩, ⟨.none, .nop, 2⟩,
    ⟨.abs, .cpx, 4⟩, ⟨.abs, .sbcCmos, 4⟩, ⟨.abs, .inc, 6⟩, ⟨.none, .nop, 2⟩,
    -- 0xF0
    ⟨.rel, .beq, 2⟩, ⟨.indy, .sbcCmos, 5⟩, ⟨.izpg, .sbcCmos, 5⟩, ⟨.none, .nop, 2⟩,
    ⟨.zpgx, .nop, 4⟩, ⟨.zpgx, .sbcCmos, 4⟩, ⟨.zpgx, .inc, 6⟩, ⟨.none, .nop, 2⟩,
    ⟨.none, .sed, 2⟩, ⟨.absy, .sbcCmos, 4⟩, ⟨.none, .plx, 4⟩, ⟨.none, .nop, 2⟩,
    ⟨.absx, .nop, 4⟩, ⟨.absx, .sbcCmos, 4⟩, ⟨.absx, .inc, 6⟩, ⟨.none, .nop, 2⟩ ]

/-- `is_cmos ? opcodes_cmos : opcodes_nmos` -/
def opcodes (cmos : Bool) : List OpcodeDesc :=
  if cmos then opcodesCmos else opcodesNmos

/-- There is a row for every byte. -/
theorem opcodes_length (cmos : Bool) : (opcodes cmos).length = 256 := by
  cases cmos <;> decide +kernel

theorem toNat_lt_opcodes (cmos : Bool) (opcode : UInt8) :
    opcode.toNat < (opcodes cmos).length := by
  rw [opcodes_length]
  exact opcode.toNat_lt

/-- `table[opcode]` -/
def opcodeDesc (cmos : Bool) (opcode : UInt8) : OpcodeDesc :=
  (opcodes cmos).get ⟨opcode.toNat, toNat_lt_opcodes cmos opcode⟩

/-- What holds of every row of both tables holds of every opcode's. -/
theorem opcodeDesc_of_forall {P : Bool → OpcodeDesc → Prop}
    (h : ∀ cmos, ∀ d ∈ opcodes cmos, P cmos d) (cmos : Bool) (opcode : UInt8) :
    P cmos (opcodeDesc cmos opcode) :=
  h cmos _ (List.get_mem _ _)

/-- What holds of every row and its place holds of every opcode's. -/
theorem opcodeDesc_of_zipIdx {cmos : Bool} {P : UInt8 → OpcodeDesc → Prop}
    (h : ∀ p ∈ (opcodes cmos).zipIdx, P (UInt8.ofNat p.2) p.1) (opcode : UInt8) :
    P opcode (opcodeDesc cmos opcode) := by
  have hmem : (opcodeDesc cmos opcode, opcode.toNat) ∈ (opcodes cmos).zipIdx :=
    List.mk_mem_zipIdx_iff_getElem?.mpr
      (List.getElem?_eq_getElem (toNat_lt_opcodes cmos opcode))
  have := h _ hmem
  rwa [UInt8.ofNat_toNat] at this

/-- **The addressing mode provides what the operation works on.** -/
structure OpcodeDesc.Provided (d : OpcodeDesc) : Prop where
  addr : d.op.usesAddr → d.mode ≠ .none
  base : d.op.usesBase → d.mode.findsBase

instance : DecidablePred OpcodeDesc.Provided := fun d =>
  decidable_of_iff
    ((d.op.usesAddr → d.mode ≠ .none) ∧ (d.op.usesBase → d.mode.findsBase))
    ⟨fun h => ⟨h.1, h.2⟩, fun h => ⟨h.addr, h.base⟩⟩

theorem opcodeDesc_provided (cmos : Bool) (opcode : UInt8) :
    (opcodeDesc cmos opcode).Provided :=
  opcodeDesc_of_forall (P := fun _ d => d.Provided) (by decide +kernel) cmos opcode

/-! ## The documented opcodes -/

/-- The opcodes the 6502 is documented with, those the table has a name in
capitals for. -/
def documentedOpcodes : List UInt8 :=
  [ 0x00, 0x01, 0x05, 0x06, 0x08, 0x09, 0x0A, 0x0D, 0x0E, 0x10,
    0x11, 0x15, 0x16, 0x18, 0x19, 0x1D, 0x1E, 0x20, 0x21, 0x24,
    0x25, 0x26, 0x28, 0x29, 0x2A, 0x2C, 0x2D, 0x2E, 0x30, 0x31,
    0x35, 0x36, 0x38, 0x39, 0x3D, 0x3E, 0x40, 0x41, 0x45, 0x46,
    0x48, 0x49, 0x4A, 0x4C, 0x4D, 0x4E, 0x50, 0x51, 0x55, 0x56,
    0x58, 0x59, 0x5D, 0x5E, 0x60, 0x61, 0x65, 0x66, 0x68, 0x69,
    0x6A, 0x6C, 0x6D, 0x6E, 0x70, 0x71, 0x75, 0x76, 0x78, 0x79,
    0x7D, 0x7E, 0x81, 0x84, 0x85, 0x86, 0x88, 0x8A, 0x8C, 0x8D,
    0x8E, 0x90, 0x91, 0x94, 0x95, 0x96, 0x98, 0x99, 0x9A, 0x9D,
    0xA0, 0xA1, 0xA2, 0xA4, 0xA5, 0xA6, 0xA8, 0xA9, 0xAA, 0xAC,
    0xAD, 0xAE, 0xB0, 0xB1, 0xB4, 0xB5, 0xB6, 0xB8, 0xB9, 0xBA,
    0xBC, 0xBD, 0xBE, 0xC0, 0xC1, 0xC4, 0xC5, 0xC6, 0xC8, 0xC9,
    0xCA, 0xCC, 0xCD, 0xCE, 0xD0, 0xD1, 0xD5, 0xD6, 0xD8, 0xD9,
    0xDD, 0xDE, 0xE0, 0xE1, 0xE4, 0xE5, 0xE6, 0xE8, 0xE9, 0xEA,
    0xEC, 0xED, 0xEE, 0xF0, 0xF1, 0xF5, 0xF6, 0xF8, 0xF9, 0xFD,
    0xFE ]

end LinApple.Cpu
