import LinApple.Debugger.Commands

/-!
# The mini-assembler

While the assembler is on, a line of the console is an instruction for the address it has come to.
Its addressing mode is told from the tokens of the line, one after the other, and then from the
parentheses and the index; the opcode is the first of those with the mnemonic that has the mode.
The mnemonics are compared by a hash, for which case makes no difference.
-/

namespace LinApple.Debugger.MiniAssembler

/-! ## Mnemonics -/

/-- `opcodes65_c02[opcode].sMnemonic` -/
def mnemonics65C02 : List String :=
  [ "BRK", "ORA", "nop", "nop", "TSB", "ORA", "ASL", "nop",
    "PHP", "ORA", "ASL", "nop", "TSB", "ORA", "ASL", "nop",
    "BPL", "ORA", "ORA", "nop", "TRB", "ORA", "ASL", "nop",
    "CLC", "ORA", "INC", "nop", "TRB", "ORA", "ASL", "nop",
    "JSR", "AND", "nop", "nop", "BIT", "AND", "ROL", "nop",
    "PLP", "AND", "ROL", "nop", "BIT", "AND", "ROL", "nop",
    "BMI", "AND", "AND", "nop", "BIT", "AND", "ROL", "nop",
    "SEC", "AND", "DEC", "nop", "BIT", "AND", "ROL", "nop",
    "RTI", "EOR", "nop", "nop", "nop", "EOR", "LSR", "nop",
    "PHA", "EOR", "LSR", "nop", "JMP", "EOR", "LSR", "nop",
    "BVC", "EOR", "EOR", "nop", "nop", "EOR", "LSR", "nop",
    "CLI", "EOR", "PHY", "nop", "nop", "EOR", "LSR", "nop",
    "RTS", "ADC", "nop", "nop", "STZ", "ADC", "ROR", "nop",
    "PLA", "ADC", "ROR", "nop", "JMP", "ADC", "ROR", "nop",
    "BVS", "ADC", "ADC", "nop", "STZ", "ADC", "ROR", "nop",
    "SEI", "ADC", "PLY", "nop", "JMP", "ADC", "ROR", "nop",
    "BRA", "STA", "nop", "nop", "STY", "STA", "STX", "nop",
    "DEY", "BIT", "TXA", "nop", "STY", "STA", "STX", "nop",
    "BCC", "STA", "STA", "nop", "STY", "STA", "STX", "nop",
    "TYA", "STA", "TXS", "nop", "STZ", "STA", "STZ", "nop",
    "LDY", "LDA", "LDX", "nop", "LDY", "LDA", "LDX", "nop",
    "TAY", "LDA", "TAX", "nop", "LDY", "LDA", "LDX", "nop",
    "BCS", "LDA", "LDA", "nop", "LDY", "LDA", "LDX", "nop",
    "CLV", "LDA", "TSX", "nop", "LDY", "LDA", "LDX", "nop",
    "CPY", "CMP", "nop", "nop", "CPY", "CMP", "DEC", "nop",
    "INY", "CMP", "DEX", "nop", "CPY", "CMP", "DEC", "nop",
    "BNE", "CMP", "CMP", "nop", "nop", "CMP", "DEC", "nop",
    "CLD", "CMP", "PHX", "nop", "nop", "CMP", "DEC", "nop",
    "CPX", "SBC", "nop", "nop", "CPX", "SBC", "INC", "nop",
    "INX", "SBC", "NOP", "nop", "CPX", "SBC", "INC", "nop",
    "BEQ", "SBC", "SBC", "nop", "nop", "SBC", "INC", "nop",
    "SED", "SBC", "PLX", "nop", "nop", "SBC", "INC", "nop" ]

/-- `sMnemonic` -/
def mnemonic (opcode : UInt8) : List Char := (mnemonics65C02.getD opcode.toNat "").toList

/-- **`AssemblerHashMnemonic`** -/
def assemblerHashMnemonic (text : List Char) : UInt32 :=
  text.foldl (fun hash c =>
    let hash := (hash <<< 5) + c.toLower.val
    let highBits := hash &&& 0xF80000
    if highBits ≠ 0 then (hash ^^^ (highBits >>> 19)) &&& ~~~0xF80000 else hash) 0

/-- `opcodes_hash` -/
def opcodesHash : List UInt32 :=
  mnemonics65C02.map fun mnemonic => assemblerHashMnemonic mnemonic.toList

/-- `asm_opcodes`: the opcodes whose mnemonic has a hash. -/
def asmOpcodes (hash : UInt32) : List UInt8 :=
  opcodesHash.zipIdx.filterMap fun p => if p.1 = hash then some (UInt8.ofNat p.2) else none

/-! ## Operands -/

/-- The digit of `%X`. -/
def hexChar (d : Nat) : Char := "0123456789ABCDEF".toList.getD d '0'

/-- `%02X` -/
def hex2 (b : UInt8) : List Char := [hexChar (b.toNat / 16), hexChar (b.toNat % 16)]

/-- `%04X` -/
def hex4 (v : UInt16) : List Char := hex2 (v >>> 8).toUInt8 ++ hex2 v.toUInt8

/-- `%X`: the digits from the first on that is not zero, and one at least. -/
def formatHex (v : UInt16) : List Char :=
  match (hex4 v).dropWhile (· = '0') with
  | [] => ['0']
  | text => text

/-- `AssemblerState` -/
inductive AssemblerState where
  | getMnemonic | getMnemonicParm | getTarget | getIndex
deriving DecidableEq, Repr

/-- **The loop of `AssemblerGetArgs`.** -/
structure ArgState where
  /-- `asm_address_mode`, and none for `AM_INDIRECT`, which is `NUM_OPMODES`. -/
  addressMode : Option AddressingMode
  /-- `eNextState` -/
  nextState : AssemblerState
  /-- `AF_HaveHash` -/
  haveHash : Bool
  /-- `AF_HaveDollar` -/
  haveDollar : Bool
  /-- `AF_HaveLeftParen` -/
  haveLeftParen : Bool
  /-- `AF_HaveRightParen` -/
  haveRightParen : Bool
  /-- `AF_HaveComma` -/
  haveComma : Bool
  /-- `AF_HaveRegisterX` -/
  haveRegisterX : Bool
  /-- `AF_HaveRegisterY` -/
  haveRegisterY : Bool
  /-- `asm_target_address` -/
  targetAddress : UInt16
  /-- `nBase` -/
  base : Nat
  /-- `delayed_targets` -/
  delayedTargets : List DelayedTarget
  /-- `delayed_targets_dirty` -/
  delayedTargetsDirty : Bool
deriving DecidableEq, Repr

/-- Before the first argument. -/
def ArgState.start (delayedTargets : List DelayedTarget) (dirty : Bool) : ArgState where
  addressMode := some .implied
  nextState := .getMnemonic
  haveHash := false
  haveDollar := false
  haveLeftParen := false
  haveRightParen := false
  haveComma := false
  haveRegisterX := false
  haveRegisterY := false
  targetAddress := 0
  base := 10
  delayedTargets := delayedTargets
  delayedTargetsDirty := dirty

section Args

variable (tables : List SymbolTable) (baseAddress : UInt16)

/-- **The target of an instruction**: a symbol, a number, or a symbol that is to be defined. -/
def ArgState.getTarget (s : ArgState) (arg : ConsoleArg) : ArgState :=
  let value := argsGetValue s.base arg
  let s :=
    match findAddressFromSymbol tables arg.text with
    | some address =>
      { s with
        targetAddress := address
        addressMode := if s.addressMode = some .implied then some .a else s.addressMode }
    | none =>
      if formatHex value = arg.text then { s with targetAddress := value }
      else
        { s with
          delayedTargets := s.delayedTargets
            ++ [⟨arg.text.take (maxSymbolsLen - 1), baseAddress, 0⟩]
          delayedTargetsDirty := true
          targetAddress := 0 }
  if s.addressMode ≠ some .m ∧ s.addressMode ≠ some .implied ∧ ¬ s.delayedTargetsDirty
      ∧ s.targetAddress ≤ 0xFF then
    { s with addressMode := some .z }
  else s

/-- The state a word leads to. -/
def AssemblerState.word : AssemblerState → AssemblerState
  | .getMnemonic => .getMnemonicParm
  | .getMnemonicParm => .getTarget
  | state => state

/-- A word of the line: the mnemonic, the target, or the index. -/
def ArgState.word (s : ArgState) (arg : ConsoleArg) : ArgState :=
  let s := { s with nextState := s.nextState.word }
  let s := if s.nextState = .getTarget then s.getTarget tables baseAddress arg else s
  if s.nextState = .getIndex ∧ arg.argLen = 1 then
    { s with
      haveRegisterX := s.haveRegisterX || arg.text.head? = some 'X'
      haveRegisterY := s.haveRegisterY || arg.text.head? = some 'Y' }
  else s

/-- **`AssemblerGetArgs`**, over `arg_raw` from `iArg` on: false at a syntax error. An index is
looked for only behind a comma. -/
def assemblerGetArgs : List ConsoleArg → ArgState → ArgState × Bool
  | [], s => (s, true)
  | arg :: args, s =>
    match arg.token with
    | .hash =>
      if s.nextState ≠ .getMnemonicParm ∨ s.haveHash then (s, false)
      else
        assemblerGetArgs args
          { s with haveHash := true, addressMode := some .m, nextState := .getTarget }
    | .dollar =>
      if s.haveDollar then (s, false)
      else if s.haveHash then assemblerGetArgs args { s with base := 16, nextState := .getTarget }
      else
        assemblerGetArgs args
          { s with
            base := 16, haveDollar := true, addressMode := some .a, nextState := .getTarget }
    | .parenL =>
      if s.haveLeftParen then (s, false)
      else assemblerGetArgs args { s with haveLeftParen := true, addressMode := none }
    | .parenR =>
      if s.haveRightParen then (s, false)
      else assemblerGetArgs args { s with haveRightParen := true, addressMode := none }
    | .comma =>
      if s.haveComma then (s, false)
      else assemblerGetArgs args { s with haveComma := true, nextState := .getIndex }
    | .semi => (s, true)
    | .alphanumeric => assemblerGetArgs args (s.word tables baseAddress arg)
    | _ => assemblerGetArgs args s

end Args

/-! ## Addressing modes -/

/-- The mode of an index, in the zero page or not. -/
def indexMode (zeroPage x : Bool) : AddressingMode :=
  if x then if zeroPage then .zx else .ax
  else if zeroPage then .zy else .ay

/-- The mode behind an index in parentheses. -/
def ArgState.parenMode (s : ArgState) : ArgState :=
  let zeroPage := decide (s.targetAddress ≤ 0xFF)
  let s :=
    if s.haveRegisterX then { s with addressMode := some (indexMode zeroPage true) } else s
  if s.haveRegisterY then { s with addressMode := some (indexMode zeroPage false) } else s

/-- The mode behind an index without parentheses. -/
def ArgState.plainMode (s : ArgState) : ArgState :=
  let s :=
    if s.haveComma ∧ s.haveRegisterX then
      { s with addressMode := some (indexMode (s.addressMode = some .z) true) }
    else s
  if s.haveComma ∧ s.haveRegisterY then
    { s with addressMode := some (indexMode (s.addressMode = some .z) false) }
  else s

/-- **`AssemblerUpdateAddressingMode`**: `asm_target_value`, unless it is false. -/
def assemblerUpdateAddressingMode (opcode : UInt8) (baseAddress : UInt16) (s : ArgState) :
    ArgState × Option UInt16 :=
  if s.haveLeftParen ≠ s.haveRightParen then (s, none)
  else if s.haveComma ∧ ¬ s.haveRegisterX ∧ ¬ s.haveRegisterY then (s, none)
  else
    let s := if s.haveLeftParen ∧ s.haveComma then s.parenMode else s
    let s :=
      if (s.addressMode = some .a ∨ s.addressMode = some .z) ∧ ¬ s.haveLeftParen then s.plainMode
      else s
    if isOpcodeBranch opcode then
      let (offset, outOfRange) := calcRelativeOffset baseAddress s.targetAddress
      let s := if outOfRange then { s with addressMode := none } else s
      if s.addressMode = none then (s, none)
      else ({ s with addressMode := some .r }, some offset.toUInt16)
    else (s, some s.targetAddress)

/-! ## Instructions -/

/-- The assembler, with the memory it writes. -/
structure Assembler where
  asm : AsmState
  /-- `assembler_address` -/
  assemblerAddress : Nat

/-- The opcode of the last target is set. -/
def setLastOpcode (opcode : UInt8) : List DelayedTarget → List DelayedTarget
  | [] => []
  | [t] => [{ t with opcode := opcode }]
  | t :: targets => t :: setLastOpcode opcode targets

/-- **`AssemblerPokeOpcodeAddress`** -/
def assemblerPokeOpcodeAddress (candidates : List UInt8) (addressMode : Option AddressingMode)
    (baseAddress targetValue : UInt16) (s : Assembler) : Assembler :=
  match candidates.find? fun opcode => some (opcodes opcode).addressMode = addressMode with
  | none => s
  | some opcode =>
    let opmode := (opcodes opcode).addressMode
    let asm := (s.asm.poke baseAddress.toNat opcode).pokeAddress opmode baseAddress targetValue
    let asm :=
      if asm.delayedTargetsDirty then
        { asm with delayedTargets := setLastOpcode opcode asm.delayedTargets }
      else asm
    ⟨asm, s.assemblerAddress + opmode.bytes⟩

/-- **`Assemble`**, with the arguments from `iArg` on. -/
def assemble (tables : List SymbolTable) (mnemonic : List Char) (args : List ConsoleArg)
    (address : UInt16) (s : Assembler) : Assembler :=
  let asm := s.asm.processDelayedSymbols tables
  match asmOpcodes (assemblerHashMnemonic mnemonic) with
  | [] => { s with asm := asm }
  | opcode :: candidates =>
    let read := assemblerGetArgs tables address args
      (.start asm.delayedTargets asm.delayedTargetsDirty)
    let asm (t : ArgState) := { asm with
      badMode := t.addressMode = none
      delayedTargets := t.delayedTargets
      delayedTargetsDirty := t.delayedTargetsDirty }
    if read.2 then
      let (t, targetValue) := assemblerUpdateAddressingMode opcode address read.1
      match targetValue with
      | none => { s with asm := asm t }
      | some value =>
        assemblerPokeOpcodeAddress (opcode :: candidates) t.addressMode address value
          { s with asm := asm t }
    else { s with asm := asm read.1 }

/-! ## Lines -/

/-- The tables, as the lookup walks through them. -/
def tablesOf (symbols : Symbols) : List SymbolTable :=
  (List.finRange 9).map fun table =>
    ⟨symbols.Displayed table, (symbols.tables table).entries.map fun e => (UInt16.ofNat e.1, e.2)⟩

/-- `SYMBOLS_ASSEMBLY` -/
def symbolsAssembly : Fin 9 := 2

/-- **`CmdAssemble`** of a line: a word at its start is a label. An empty line has none, as
the end of the line is the first of the tokens. -/
def cmdAssemble (line : List Char) (raw : List ConsoleArg) (symbols : Symbols) (s : Assembler) :
    Symbols × Assembler :=
  let address := UInt16.ofNat s.assemblerAddress
  let name (iArg : Nat) := (raw.getD iArg .cleared).text
  if (line.head?.any fun c => isWordChar c) then
    let symbols := symbols.symbolUpdate symbolsAssembly (name 0) address.toNat false true []
    (symbols, assemble (tablesOf symbols) (name 1) (raw.drop 1) address s)
  else (symbols, assemble (tablesOf symbols) (name 0) raw address s)

/-- **A line of the console while the assembler is on**, where it is read within its end. -/
def enterLine (line : List Char) (symbols : Symbols) (s : Assembler) :
    Option (Symbols × Assembler) :=
  let line := line.rdropWhile (· = ' ')
  match argsGet line with
  | .returned raw => some (cmdAssemble line raw symbols s)
  | _ => none

end LinApple.Debugger.MiniAssembler
