import LinApple.Cpu.Types

/-!
# The debugger's opcodes

The debugger has tables of its own: the addressing modes it knows, with the
length of an instruction in each, and the 256 opcodes of the 65C02, which it
uses for whichever processor is emulated. How long the item at an address is
depends on the opcode there and on what the user has declared to be data.
-/

namespace LinApple.Debugger

open LinApple.Cpu (CpuRegisters)

/-! ## Addressing modes -/

/-- The addressing modes of the debugger, `AM_IMPLIED` and the others. -/
inductive AddressingMode where
  /-- No operand. -/
  | implied
  /-- An invalid instruction of one byte. -/
  | am1
  /-- An invalid instruction of two bytes. -/
  | am2
  /-- An invalid instruction of three bytes. -/
  | am3
  /-- Immediate. -/
  | m
  /-- Absolute. -/
  | a
  /-- Zero page. -/
  | z
  /-- Absolute, indexed with X. -/
  | ax
  /-- Absolute, indexed with Y. -/
  | ay
  /-- Zero page, indexed with X. -/
  | zx
  /-- Zero page, indexed with Y. -/
  | zy
  /-- Relative. -/
  | r
  /-- Indexed with X, then a pointer in the zero page. -/
  | izx
  /-- Indexed with X, then a pointer anywhere. -/
  | iax
  /-- A pointer in the zero page, then indexed with Y. -/
  | nzy
  /-- A pointer in the zero page. -/
  | nz
  /-- A pointer anywhere. -/
  | na
  /-- Not an instruction. -/
  | data
deriving DecidableEq, Repr

/-- `opmodes[mode].bytes` -/
def AddressingMode.bytes : AddressingMode → Nat
  | .implied | .am1 | .data => 1
  | .am2 | .m | .z | .zx | .zy | .r | .izx | .nzy | .nz => 2
  | .am3 | .a | .ax | .ay | .iax | .na => 3

/-- The modes whose operand is an address in memory, or leads to one. -/
def AddressingMode.hasTarget : AddressingMode → Bool
  | .a | .z | .ax | .ay | .zx | .zy | .r | .izx | .iax | .nzy | .nz | .na => true
  | _ => false

/-! ## The table -/

/-- What an instruction does to memory, as the table has it. -/
inductive MemoryAccess where
  /-- Nothing. -/
  | none
  /-- It reads. -/
  | r
  /-- It writes. -/
  | w
  /-- It reads and writes. -/
  | rw
  /-- It reads its operand. -/
  | im
  /-- It writes to the stack. -/
  | sw
  /-- It reads from the stack. -/
  | sr
deriving DecidableEq, Repr

/-- `access & MEM_S` -/
def MemoryAccess.usesStack : MemoryAccess → Bool
  | .sw | .sr => true
  | _ => false

/-- `access & MEM_WI` -/
def MemoryAccess.writesImplicitly : MemoryAccess → Bool
  | .sw => true
  | _ => false

/-- `Opcodes` -/
structure Opcodes where
  /-- `nAddressMode` -/
  addressMode : AddressingMode
  /-- `nMemoryAccess` -/
  memoryAccess : MemoryAccess
deriving DecidableEq, Repr

/-- **`opcodes65_c02`** -/
def opcodes65C02 : List Opcodes :=
  [ -- 0x00
    ⟨.implied, .sw⟩, ⟨.izx, .r⟩, ⟨.m, .im⟩, ⟨.implied, .none⟩,
    ⟨.z, .w⟩, ⟨.z, .r⟩, ⟨.z, .rw⟩, ⟨.implied, .none⟩,
    ⟨.implied, .sw⟩, ⟨.m, .im⟩, ⟨.implied, .none⟩, ⟨.implied, .none⟩,
    ⟨.a, .w⟩, ⟨.a, .r⟩, ⟨.a, .rw⟩, ⟨.implied, .none⟩,
    -- 0x10
    ⟨.r, .none⟩, ⟨.nzy, .r⟩, ⟨.nz, .r⟩, ⟨.implied, .none⟩,
    ⟨.z, .w⟩, ⟨.zx, .r⟩, ⟨.zx, .rw⟩, ⟨.implied, .none⟩,
    ⟨.implied, .none⟩, ⟨.ay, .r⟩, ⟨.implied, .none⟩, ⟨.implied, .none⟩,
    ⟨.a, .w⟩, ⟨.ax, .r⟩, ⟨.ax, .rw⟩, ⟨.implied, .none⟩,
    -- 0x20
    ⟨.a, .sw⟩, ⟨.izx, .r⟩, ⟨.m, .im⟩, ⟨.implied, .none⟩,
    ⟨.z, .r⟩, ⟨.z, .r⟩, ⟨.z, .rw⟩, ⟨.implied, .none⟩,
    ⟨.implied, .sr⟩, ⟨.m, .im⟩, ⟨.implied, .none⟩, ⟨.implied, .none⟩,
    ⟨.a, .r⟩, ⟨.a, .r⟩, ⟨.a, .rw⟩, ⟨.implied, .none⟩,
    -- 0x30
    ⟨.r, .none⟩, ⟨.nzy, .r⟩, ⟨.nz, .r⟩, ⟨.implied, .none⟩,
    ⟨.zx, .r⟩, ⟨.zx, .r⟩, ⟨.zx, .rw⟩, ⟨.implied, .none⟩,
    ⟨.implied, .none⟩, ⟨.ay, .r⟩, ⟨.implied, .none⟩, ⟨.implied, .none⟩,
    ⟨.ax, .r⟩, ⟨.ax, .r⟩, ⟨.ax, .rw⟩, ⟨.implied, .none⟩,
    -- 0x40
    ⟨.implied, .sr⟩, ⟨.izx, .r⟩, ⟨.m, .im⟩, ⟨.implied, .none⟩,
    ⟨.z, .none⟩, ⟨.z, .r⟩, ⟨.z, .w⟩, ⟨.implied, .none⟩,
    ⟨.implied, .sw⟩, ⟨.m, .im⟩, ⟨.implied, .none⟩, ⟨.implied, .none⟩,
    ⟨.a, .none⟩, ⟨.a, .r⟩, ⟨.a, .w⟩, ⟨.implied, .none⟩,
    -- 0x50
    ⟨.r, .none⟩, ⟨.nzy, .r⟩, ⟨.nz, .r⟩, ⟨.implied, .none⟩,
    ⟨.zx, .none⟩, ⟨.zx, .r⟩, ⟨.zx, .w⟩, ⟨.implied, .none⟩,
    ⟨.implied, .none⟩, ⟨.ay, .r⟩, ⟨.implied, .sw⟩, ⟨.implied, .none⟩,
    ⟨.ax, .none⟩, ⟨.ax, .r⟩, ⟨.ax, .rw⟩, ⟨.implied, .none⟩,
    -- 0x60
    ⟨.implied, .sr⟩, ⟨.izx, .r⟩, ⟨.m, .im⟩, ⟨.implied, .none⟩,
    ⟨.z, .w⟩, ⟨.z, .r⟩, ⟨.z, .rw⟩, ⟨.implied, .none⟩,
    ⟨.implied, .sr⟩, ⟨.m, .im⟩, ⟨.implied, .none⟩, ⟨.implied, .none⟩,
    ⟨.na, .r⟩, ⟨.a, .r⟩, ⟨.a, .rw⟩, ⟨.implied, .none⟩,
    -- 0x70
    ⟨.r, .none⟩, ⟨.nzy, .r⟩, ⟨.nz, .r⟩, ⟨.implied, .none⟩,
    ⟨.zx, .w⟩, ⟨.zx, .r⟩, ⟨.zx, .rw⟩, ⟨.implied, .none⟩,
    ⟨.implied, .none⟩, ⟨.ay, .r⟩, ⟨.implied, .sr⟩, ⟨.implied, .none⟩,
    ⟨.iax, .r⟩, ⟨.ax, .r⟩, ⟨.ax, .rw⟩, ⟨.implied, .none⟩,
    -- 0x80
    ⟨.r, .none⟩, ⟨.izx, .w⟩, ⟨.m, .im⟩, ⟨.implied, .none⟩,
    ⟨.z, .w⟩, ⟨.z, .w⟩, ⟨.z, .w⟩, ⟨.implied, .none⟩,
    ⟨.implied, .none⟩, ⟨.m, .im⟩, ⟨.implied, .none⟩, ⟨.implied, .none⟩,
    ⟨.a, .w⟩, ⟨.a, .w⟩, ⟨.a, .w⟩, ⟨.implied, .none⟩,
    -- 0x90
    ⟨.r, .none⟩, ⟨.nzy, .w⟩, ⟨.nz, .w⟩, ⟨.implied, .none⟩,
    ⟨.zx, .w⟩, ⟨.zx, .w⟩, ⟨.zy, .w⟩, ⟨.implied, .none⟩,
    ⟨.implied, .none⟩, ⟨.ay, .w⟩, ⟨.implied, .none⟩, ⟨.implied, .none⟩,
    ⟨.a, .w⟩, ⟨.ax, .w⟩, ⟨.ax, .w⟩, ⟨.implied, .none⟩,
    -- 0xA0
    ⟨.m, .im⟩, ⟨.izx, .r⟩, ⟨.m, .im⟩, ⟨.implied, .none⟩,
    ⟨.z, .r⟩, ⟨.z, .r⟩, ⟨.z, .r⟩, ⟨.implied, .none⟩,
    ⟨.implied, .none⟩, ⟨.m, .im⟩, ⟨.implied, .none⟩, ⟨.implied, .none⟩,
    ⟨.a, .r⟩, ⟨.a, .r⟩, ⟨.a, .r⟩, ⟨.implied, .none⟩,
    -- 0xB0
    ⟨.r, .none⟩, ⟨.nzy, .r⟩, ⟨.nz, .r⟩, ⟨.implied, .none⟩,
    ⟨.zx, .r⟩, ⟨.zx, .r⟩, ⟨.zy, .r⟩, ⟨.implied, .none⟩,
    ⟨.implied, .none⟩, ⟨.ay, .r⟩, ⟨.implied, .none⟩, ⟨.implied, .none⟩,
    ⟨.ax, .r⟩, ⟨.ax, .r⟩, ⟨.ay, .r⟩, ⟨.implied, .none⟩,
    -- 0xC0
    ⟨.m, .im⟩, ⟨.izx, .r⟩, ⟨.m, .im⟩, ⟨.implied, .none⟩,
    ⟨.z, .r⟩, ⟨.z, .r⟩, ⟨.z, .rw⟩, ⟨.implied, .none⟩,
    ⟨.implied, .none⟩, ⟨.m, .im⟩, ⟨.implied, .none⟩, ⟨.implied, .none⟩,
    ⟨.a, .r⟩, ⟨.a, .r⟩, ⟨.a, .rw⟩, ⟨.implied, .none⟩,
    -- 0xD0
    ⟨.r, .none⟩, ⟨.nzy, .r⟩, ⟨.nz, .none⟩, ⟨.implied, .none⟩,
    ⟨.zx, .none⟩, ⟨.zx, .r⟩, ⟨.zx, .rw⟩, ⟨.implied, .none⟩,
    ⟨.implied, .none⟩, ⟨.ay, .r⟩, ⟨.implied, .sw⟩, ⟨.implied, .none⟩,
    ⟨.ax, .none⟩, ⟨.ax, .r⟩, ⟨.ax, .rw⟩, ⟨.implied, .none⟩,
    -- 0xE0
    ⟨.m, .im⟩, ⟨.izx, .r⟩, ⟨.m, .im⟩, ⟨.implied, .none⟩,
    ⟨.z, .r⟩, ⟨.z, .r⟩, ⟨.z, .rw⟩, ⟨.implied, .none⟩,
    ⟨.implied, .none⟩, ⟨.m, .r⟩, ⟨.implied, .none⟩, ⟨.implied, .none⟩,
    ⟨.a, .r⟩, ⟨.a, .r⟩, ⟨.a, .rw⟩, ⟨.implied, .none⟩,
    -- 0xF0
    ⟨.r, .none⟩, ⟨.nzy, .r⟩, ⟨.nz, .none⟩, ⟨.implied, .none⟩,
    ⟨.zx, .none⟩, ⟨.zx, .r⟩, ⟨.zx, .rw⟩, ⟨.implied, .none⟩,
    ⟨.implied, .none⟩, ⟨.ay, .r⟩, ⟨.implied, .sr⟩, ⟨.implied, .none⟩,
    ⟨.ax, .none⟩, ⟨.ax, .r⟩, ⟨.ax, .rw⟩, ⟨.implied, .none⟩ ]

/-- There is a row for every byte. -/
theorem opcodes65C02_length : opcodes65C02.length = 256 := by decide +kernel

/-- `opcodes[opcode]` -/
def opcodes (opcode : UInt8) : Opcodes :=
  opcodes65C02.get ⟨opcode.toNat, by rw [opcodes65C02_length]; exact opcode.toNat_lt⟩

/-- What holds of every row and its place holds of every opcode's. -/
theorem opcodes_of_zipIdx {P : UInt8 → Opcodes → Prop}
    (h : ∀ p ∈ opcodes65C02.zipIdx, P (UInt8.ofNat p.2) p.1) (opcode : UInt8) :
    P opcode (opcodes opcode) := by
  have hrow := h (opcodes opcode, opcode.toNat)
    (List.mk_mem_zipIdx_iff_getElem?.mpr (List.getElem?_eq_getElem _))
  rwa [UInt8.ofNat_toNat] at hrow

/-- `OPCODE_BRK` -/
def opcodeBrk : UInt8 := 0x00
/-- `OPCODE_JSR` -/
def opcodeJsr : UInt8 := 0x20
/-- `OPCODE_RTI` -/
def opcodeRti : UInt8 := 0x40
/-- `OPCODE_JMP_A` -/
def opcodeJmpA : UInt8 := 0x4C
/-- `OPCODE_RTS` -/
def opcodeRts : UInt8 := 0x60
/-- `OPCODE_NOP` -/
def opcodeNop : UInt8 := 0xEA

/-! ## What stands at an address -/

/-- The kinds of data the user can declare. -/
inductive Nopcode where
  | removed
  | byte1 | byte2 | byte4 | byte8
  | word1 | word2 | word4
  | address
  | hex | char
  | stringAscii | stringApple | stringApplesoft
  | fac | sprite
deriving DecidableEq, Repr

/-- The fields of `DisasmData` that say where the data is and how long. -/
structure DisasmData where
  /-- `eElementType` -/
  elementType : Nopcode
  /-- `iDirective == NOP_REMOVED` -/
  isRemoved : Bool
  /-- `nStartAddress` -/
  startAddress : UInt16
  /-- `nEndAddress` -/
  endAddress : UInt16
deriving DecidableEq, Repr

/-- `Disassembly_IsDataAddress` -/
def isDataAddress (disassemblerData : List DisasmData) (address : UInt16) :
    Option DisasmData :=
  disassemblerData.find? fun data =>
    !data.isRemoved && data.startAddress ≤ address && address ≤ data.endAddress

/-- An instruction, or an item of data. -/
structure Opbyte where
  /-- `iOpcode` -/
  opcode : UInt8
  /-- `iOpmode` -/
  opmode : AddressingMode
  /-- `nOpbyte` -/
  opbyte : Int
deriving DecidableEq, Repr

/-- What declared data makes of the item at its address. -/
def DisasmData.opbyte (data : DisasmData) (item : Opbyte) : Opbyte :=
  let (opmode, opbyte) : AddressingMode × Int :=
    match data.elementType with
    | .byte1 => (.m, 1)
    | .byte2 => (.m, 2)
    | .byte4 => (.m, 4)
    | .byte8 => (.m, 8)
    | .word1 => (.m, 2)
    | .word2 => (.m, 4)
    | .word4 => (.m, 8)
    | .address => (.a, 2)
    | .stringApple => (.data, data.endAddress.toNat - data.startAddress.toNat + 1)
    | .stringApplesoft => (.data, 8)
    | _ => (item.opmode, item.opbyte)
  ⟨opcodeNop, opmode, opbyte⟩

/-- **`GetOpmodeOpbyte`**: the item at an address, given the data
`Disassembly_IsDataAddress` finds there. -/
def getOpmodeOpbyte (image : Nat → UInt8) (baseAddress : UInt16)
    (data : Option DisasmData) : Opbyte :=
  let opcode := image baseAddress.toNat
  let opmode := (opcodes opcode).addressMode
  let item : Opbyte := ⟨opcode, opmode, opmode.bytes⟩
  match data with
  | some data => data.opbyte item
  | none => item

/-- Declared data has a mode of its own, or leaves the instruction's. -/
theorem getOpmodeOpbyte_opmode (image : Nat → UInt8) (baseAddress : UInt16)
    (data : Option DisasmData) :
    (getOpmodeOpbyte image baseAddress data).opmode ∈
      [(opcodes (image baseAddress.toNat)).addressMode, .m, .a, .data] := by
  cases data with
  | none => simp [getOpmodeOpbyte]
  | some data =>
    obtain ⟨elementType, start, stop⟩ := data
    cases elementType <;> simp [getOpmodeOpbyte, DisasmData.opbyte]

/-- **No item is empty**: the data found at an address does not end before it
starts. -/
theorem one_le_opbyte (image : Nat → UInt8) (baseAddress : UInt16)
    (disassemblerData : List DisasmData) :
    1 ≤ (getOpmodeOpbyte image baseAddress
      (isDataAddress disassemblerData baseAddress)).opbyte := by
  have hbytes : 1 ≤ (opcodes (image baseAddress.toNat)).addressMode.bytes := by
    cases (opcodes (image baseAddress.toNat)).addressMode <;> decide
  cases hdata : isDataAddress disassemblerData baseAddress with
  | none => exact Int.ofNat_le.mpr hbytes
  | some data =>
    obtain ⟨elementType, isRemoved, start, stop⟩ := data
    have hfound := List.find?_some hdata
    simp only [Bool.and_eq_true, decide_eq_true_eq, UInt16.le_iff_toNat_le] at hfound
    cases elementType <;> simp only [getOpmodeOpbyte, DisasmData.opbyte] <;> omega

end LinApple.Debugger
