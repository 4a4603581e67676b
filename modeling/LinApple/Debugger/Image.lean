import LinApple.Debugger.Opcodes
import LinApple.Memory.Types
import Mathlib.Data.List.Range
import Mathlib.Algebra.Group.Nat.Defs

/-!
# The commands that change memory

The debugger writes to the image directly, by an index that is not cut off
at its end, and has to mark the pages it writes to by itself. Each command has
a loop of its own for the bytes and its own way to find the pages. What is
stored behind the end of the image, or of the marks, is kept apart here.

A range with a length or an end is worked out in a copy (`RangeEndLen`) that
the commands look into only when the range is not valid; where it is valid
they go on with a length of zero.
-/

namespace LinApple.Debugger

open Cpu (CpuRegisters)
open Memory (MemoryInstance setByte)

/-! ## The image, as the debugger writes to it -/

/-- **The memory in the debugger's hands**, with what lies behind the image
and behind the marks, and the registers. -/
structure Debugged where
  /-- The memory of the machine. -/
  memory : MemoryInstance
  /-- What is stored at an index from 65536 on. -/
  behindImage : Nat → UInt8
  /-- What is marked at a page from 256 on. -/
  behindDirty : Nat → UInt8
  /-- `cpu_get_registers()` -/
  regs : CpuRegisters

namespace Debugged

variable (s : Debugged)

/-- `*(mem + i)` -/
def byte (i : Nat) : UInt8 :=
  if h : i < 65536 then s.memory.mem ⟨i / 256, by omega⟩ ⟨i % 256, by omega⟩
  else s.behindImage i

/-- `*(memdirty + page)` -/
def dirty (page : Nat) : UInt8 :=
  if h : page < 256 then s.memory.memdirty ⟨page, h⟩ else s.behindDirty page

/-- A page that is written back when it is turned. -/
def isDirty (page : Nat) : Bool := s.dirty page &&& 1 != 0

/-- `*(mem + i) = v` -/
def poke (i : Nat) (v : UInt8) : Debugged :=
  if h : i < 65536 then
    { s with memory := { s.memory with
        mem := setByte s.memory.mem ⟨i / 256, by omega⟩ ⟨i % 256, by omega⟩ v } }
  else { s with behindImage := Function.update s.behindImage i v }

/-- `*(memdirty + page) = v` -/
def mark (page : Nat) (v : UInt8) : Debugged :=
  if h : page < 256 then
    { s with memory := { s.memory with
        memdirty := Function.update s.memory.memdirty ⟨page, h⟩ v } }
  else { s with behindDirty := Function.update s.behindDirty page v }

/-! ### What a store and a mark change -/

variable (i j page page' : Nat) (v : UInt8)

@[simp] theorem byte_poke : (s.poke i v).byte j = if j = i then v else s.byte j := by
  by_cases hi : i < 65536
  · by_cases hj : j < 65536
    · have hmem : (s.poke i v).memory.mem
          = setByte s.memory.mem ⟨i / 256, by omega⟩ ⟨i % 256, by omega⟩ v := by
        simp only [poke, dif_pos hi]
      simp only [byte, dif_pos hj, hmem]
      by_cases hpage : j / 256 = i / 256
      · simp only [hpage, Memory.setByte_page_self, Function.update_apply, Fin.mk.injEq]
        exact if_congr ⟨fun h => by omega, fun h => by omega⟩ rfl rfl
      · rw [Memory.setByte_page_of_ne _ _ _ fun h => hpage (Fin.mk.inj h),
          if_neg fun h => hpage (congrArg (· / 256) h)]
    · simp [byte, poke, hi, hj, show j ≠ i by omega]
  · by_cases hj : j < 65536
    · simp [byte, poke, hi, hj, show j ≠ i by omega]
    · simp [byte, poke, hi, hj, Function.update_apply]

@[simp] theorem dirty_poke : (s.poke i v).dirty page = s.dirty page := by
  unfold poke
  split <;> rfl

@[simp] theorem isDirty_poke : (s.poke i v).isDirty page = s.isDirty page := by
  rw [isDirty, dirty_poke, isDirty]

@[simp] theorem regs_poke : (s.poke i v).regs = s.regs := by
  unfold poke
  split <;> rfl

@[simp] theorem byte_mark : (s.mark page v).byte i = s.byte i := by
  unfold mark
  split <;> rfl

@[simp] theorem dirty_mark :
    (s.mark page v).dirty page' = if page' = page then v else s.dirty page' := by
  by_cases hp : page < 256
  · by_cases hp' : page' < 256
    · simp [dirty, mark, hp, hp', Function.update_apply]
    · simp [dirty, mark, hp, hp', show page' ≠ page by omega]
  · by_cases hp' : page' < 256
    · simp [dirty, mark, hp, hp', show page' ≠ page by omega]
    · simp [dirty, mark, hp, hp', Function.update_apply]

@[simp] theorem regs_mark : (s.mark page v).regs = s.regs := by
  unfold mark
  split <;> rfl

/-- A mark with the lowest bit set makes its page dirty. -/
theorem isDirty_mark {v : UInt8} (hv : v &&& 1 ≠ 0) :
    (s.mark page v).isDirty page' ↔ page' = page ∨ s.isDirty page' := by
  simp only [isDirty, dirty_mark, bne_iff_ne]
  split
  · exact iff_of_true hv (.inl ‹_›)
  · exact (or_iff_right ‹_›).symm

end Debugged

/-! ## Arguments -/

/-- The tokens that make a range. -/
inductive ArgToken where
  | comma
  | colon
  | other
deriving DecidableEq, Repr

/-- The fields of `Arg` the commands look at. -/
structure Arg where
  /-- `nValue` -/
  value : UInt16
  /-- `eToken` -/
  token : ArgToken
  /-- `bType & TYPE_QUOTED_2` -/
  isQuoted : Bool
  /-- `bType & TYPE_ADDRESS` -/
  isAddress : Bool
  /-- `sArg` -/
  text : List Char
deriving DecidableEq, Repr

/-- `RangeType` -/
inductive RangeType where
  | missingArg2
  | hasLen
  | hasEnd
deriving DecidableEq, Repr

/-- `RangeEndLen` -/
structure RangeEndLen where
  /-- `nAddressEnd` -/
  addressEnd : UInt16
  /-- `nAddressLen` -/
  addressLen : Int
deriving DecidableEq, Repr

/-- `Range_Get`: the two addresses, and the kind of range. -/
def rangeGet (args : Nat → Arg) (iArg : Nat) : UInt16 × UInt16 × RangeType :=
  let address1 := (args iArg).value
  let temp := (args (iArg + 2)).value
  match (args (iArg + 1)).token with
  | .comma => (address1, temp, .hasLen)
  | .colon =>
    if address1 > temp then (temp, address1, .hasEnd) else (address1, temp, .hasEnd)
  | .other => (address1, 0, .missingArg2)

/-- `Range_CalcEndLen`: whether the range is valid, and what is left in the
last parameter. -/
def rangeCalcEndLen (range : RangeType) (address1 address2 : UInt16)
    (endLen : RangeEndLen) : Bool × RangeEndLen :=
  match range with
  | .hasLen =>
    -- the sum is unsigned: an empty range at 0 ends at the end of memory
    let temp := (address1.toNat + address2.toNat + (2 ^ 32 - 1)) % 2 ^ 32
    (true, ⟨UInt16.ofNat (min temp 0xFFFF), address2.toNat⟩)
  | .hasEnd => (true, ⟨address2, address2.toNat - address1.toNat + 1⟩)
  | .missingArg2 => (false, endLen)

/-! ## Bytes and words -/

section Enter

variable (wide : UInt16 → Bool) (marked : UInt8 → UInt8) (address : UInt16)
  (args : Nat → Arg)

/-- The loop of `CmdMemoryEnterByte` and `CmdMemoryEnterWord`, from the last
of the arguments behind the address down to the first: an argument may take
up two bytes, and the page of the first address is marked. -/
def enterLoop : Nat → Debugged → Debugged
  | 0, s => s
  | n + 1, s =>
    -- `nArgs` is `n + 2`
    let data := (args (n + 2)).value
    let s := s.poke (address.toNat + n) data.toUInt8
    let s := if wide data then s.poke (address.toNat + n + 1) (data >>> 8).toUInt8 else s
    let page := (address >>> 8).toNat
    enterLoop n (s.mark page (marked (s.dirty page)))

end Enter

/-- An argument `CmdMemoryEnterByte` stores two bytes of. -/
def isWideByte (data : UInt16) : Bool := data > 0xFF

/-- `ClearArg` -/
def Arg.cleared : Arg where
  value := 0
  token := .other
  isQuoted := false
  isAddress := false
  text := []

/-- `CMD_MEMORY_ENTER_WORD` -/
def cmdMemoryEnterWordId : UInt16 := 110

/-- The arguments `Help_Arg_1` leaves: all of them are cleared but the first, which is given the
number of a command, and its name. What it displays changes none of them. -/
def helpArg1 (iCommandHelp : UInt16) (name : List Char) (i : Nat) : Arg :=
  if i = 1 then { Arg.cleared with value := iCommandHelp, text := name } else .cleared

/-- The second argument is not numeric, or not specified, as the two commands take it. -/
def isArg2Missing (args : Nat → Arg) (nArgs : Nat) : Bool :=
  nArgs < 2 || ((args 2).text.head? != some '0' && (args 2).value == 0)

/-- The arguments with which the two commands go on. Both show the help of `MEW` where the second
argument is missing, and neither returns: what they enter then is what the help has left. -/
def enterArgs (args : Nat → Arg) (nArgs : Nat) : Nat → Arg :=
  if isArg2Missing args nArgs then helpArg1 cmdMemoryEnterWordId "MEW".toList else args

/-- `CmdMemoryEnterByte` -/
def cmdMemoryEnterByte (args : Nat → Arg) (nArgs : Nat) (s : Debugged) : Debugged :=
  let args := enterArgs args nArgs
  enterLoop isWideByte (fun _ => 1) (args 1).value args (nArgs - 1) s

/-- `CmdMemoryEnterWord` -/
def cmdMemoryEnterWord (args : Nat → Arg) (nArgs : Nat) (s : Debugged) : Debugged :=
  let args := enterArgs args nArgs
  enterLoop (fun _ => true) (· ||| 1) (args 1).value args (nArgs - 1) s

/-! ## Ranges -/

/-- `for (page = lo; page < hi; page++) memdirty[page] = v` -/
def markPages (lo hi : Nat) (v : UInt8) (s : Debugged) : Debugged :=
  (List.range' lo (hi - lo)).foldl (fun s page => s.mark page v) s

/-- `MemMarkDirty` -/
def memMarkDirty (addressStart addressEnd : UInt16) (s : Debugged) : Debugged :=
  markPages (addressStart >>> 8).toNat ((addressEnd >>> 8).toNat + 1) 1 s

/-- An address outside `[DBG_6502_IO_BEGIN, DBG_6502_IO_END]`. -/
def isNotIo (a : UInt16) : Bool := a < 0xC000 || a > 0xC0FF

/-- The loop of `CmdMemoryFill`. -/
def fillLoop (value : UInt8) (address2 : UInt16) : Nat → UInt16 → Debugged → Debugged
  | 0, _, s => s
  | n + 1, addressStart, s =>
    fillLoop value address2 n (addressStart + 1)
      (if isNotIo address2 then s.poke addressStart.toNat value else s)

/-- The range `CmdMemoryFill` goes on with: the start, the second address,
the end and the length. -/
def fillRange (args : Nat → Arg) (nArgs : Nat) :
    Option (UInt16 × UInt16 × RangeEndLen) :=
  if nArgs < 3 ∨ nArgs > 4 then none
  else if nArgs = 3 then
    let addressStart := (args 1).value
    let addressEnd := (args 2).value
    some (addressStart, 0,
      ⟨addressEnd, min 0xFFFF (addressEnd.toNat - addressStart.toNat + 1)⟩)
  else
    let (addressStart, address2, range) := rangeGet args 1
    let endLen : RangeEndLen := ⟨0, 0⟩
    -- the end and the length that are worked out are left where they are
    if (rangeCalcEndLen range addressStart address2 endLen).1 then
      some (addressStart, address2, endLen)
    else none

/-- `CmdMemoryFill` -/
def cmdMemoryFill (args : Nat → Arg) (nArgs : Nat) (s : Debugged) : Debugged :=
  match fillRange args nArgs with
  | none => s
  | some (addressStart, address2, endLen) =>
    if endLen.addressLen > 0 ∧ endLen.addressEnd ≤ 0xFFFF then
      fillLoop ((args nArgs).value &&& 0xFF).toUInt8 address2 endLen.addressLen.toNat
        addressStart (memMarkDirty addressStart endLen.addressEnd s)
    else s

/-- The loop of `CmdMemoryMove`. -/
def moveLoop : Nat → UInt16 → UInt16 → Debugged → Debugged
  | 0, _, _, s => s
  | n + 1, dst, addressStart, s =>
    moveLoop n (dst + 1) (addressStart + 1)
      (if isNotIo dst then s.poke dst.toNat (s.byte addressStart.toNat) else s)

/-- `CmdMemoryMove` -/
def cmdMemoryMove (args : Nat → Arg) (nArgs : Nat) (s : Debugged) : Debugged :=
  if nArgs < 3 then s
  else
    let dst := (args 1).value
    let (addressStart, address2, range) := rangeGet args 2
    let endLen : RangeEndLen := ⟨0, 0⟩
    if !(rangeCalcEndLen range addressStart address2 endLen).1 then s
    else if endLen.addressLen > 0 ∧ endLen.addressEnd ≤ 0xFFFF then
      moveLoop endLen.addressLen.toNat dst addressStart
        (memMarkDirty addressStart endLen.addressEnd s)
    else s

/-! ## Files -/

/-- The address and the length of a known type of file. -/
def knownFileType (extension : List Char) : Option (UInt16 × Nat) :=
  if extension = ".hgr".toList then some (0x2000, 0x2000)
  else if extension = ".hgr2".toList then some (0x4000, 0x2000)
  else none

/-- The loop that looks for an extension, from the end of the name to its
second character. -/
def fileTypeLoop (fileName : List Char) : Nat → Option (UInt16 × Nat)
  | 0 => none
  | i + 1 =>
    match if fileName[i + 1]? = some '.' then knownFileType (fileName.drop (i + 1))
      else none with
    | some fileType => some fileType
    | none => fileTypeLoop fileName i

/-- What `CmdMemoryLoad` has worked out when it opens the file. -/
structure LoadRange where
  /-- `bank`, if one is specified. -/
  bank : Option UInt16
  /-- `nAddressStart` -/
  addressStart : UInt16
  /-- `nAddressLen`, 0 if it is to be that of the file. -/
  addressLen : Nat
deriving DecidableEq, Repr

/-- What `CmdMemoryLoad` makes of its arguments, unless it shows the help. -/
def loadRange (args : Nat → Arg) (nArgs : Nat) : Option LoadRange :=
  let haveFileName := (args 1).isQuoted
  let iArgComma1 := if haveFileName then 2 else 1
  let bankSpecified : Bool := nArgs ≥ 5
  let fileType := fileTypeLoop (args 1).text ((args 1).text.length - 1)
  let hasComma : Bool := (args iArgComma1).token = .comma
  let moved := if bankSpecified then 2 else 0
  let iArgAddress := iArgComma1 + 1 + moved
  let iArgComma2 := iArgComma1 + 2 + moved
  let (start, len) := fileType.getD (0, 0)
  let (addressStart, address2, range) :=
    if hasComma then rangeGet args iArgAddress else (start, 0, .missingArg2)
  if nArgs > 7 ∨ nArgs < 1 then none
  else if !haveFileName ∧ nArgs > 6 then none
  else if bankSpecified
      ∧ (!(args (iArgComma1 + 1)).isAddress ∨ (args (iArgComma1 + 2)).token ≠ .colon) then
    none
  else if fileType = none ∧ !hasComma then none
  else if nArgs > iArgComma2
      ∧ !(rangeCalcEndLen range addressStart address2 ⟨0, len⟩).1 then none
  else
    some ⟨if bankSpecified then some (args (iArgComma1 + 1)).value else none,
      addressStart, len⟩

/-- `fread` into the image. -/
def storeBytes : Nat → List UInt8 → Debugged → Debugged
  | _, [], s => s
  | i, b :: bytes, s => storeBytes (i + 1) bytes (s.poke i b)

/-- The length that is read: that of the file, if none was given. -/
def loadLen (range : LoadRange) (file : List UInt8) : Nat :=
  if range.addressLen = 0 then min file.length 0x10000 else range.addressLen

/-- The page behind the last one `CmdMemoryLoad` marks. -/
def loadPageEnd (range : LoadRange) (file : List UInt8) : Nat :=
  (range.addressStart.toNat + loadLen range file % 0x10000) >>> 8

/-- The rest of `CmdMemoryLoad` where no bank is specified, with the contents
of the file if it could be opened. -/
def loadActive (range : LoadRange) (file : Option (List UInt8)) (s : Debugged) :
    Debugged :=
  match file with
  | none => s
  | some file =>
    markPages (range.addressStart >>> 8).toNat (loadPageEnd range file) 0xFF
      (storeBytes range.addressStart.toNat (file.take (loadLen range file)) s)

/-- `CmdMemoryLoad`, where no bank is specified. -/
def cmdMemoryLoad (args : Nat → Arg) (nArgs : Nat) (file : Option (List UInt8))
    (s : Debugged) : Debugged :=
  match loadRange args nArgs with
  | none => s
  | some range => loadActive range file s

/-! ## Instructions -/

/-- The loop of `CmdNOP`. -/
def nopLoop (pc : UInt16) : Nat → Debugged → Debugged
  | 0, s => s
  | n + 1, s => nopLoop pc n (s.poke (pc.toNat + n) opcodeNop)

/-- `CmdNOP` -/
def cmdNop (disassemblerData : List DisasmData) (s : Debugged) : Debugged :=
  let item := getOpmodeOpbyte s.byte s.regs.pc (isDataAddress disassemblerData s.regs.pc)
  nopLoop s.regs.pc item.opbyte.toNat s

/-- `CmdJSR` -/
def cmdJsr (args : Nat → Arg) (nArgs : Nat) (s : Debugged) : Debugged :=
  if nArgs = 0 then s
  else
    let sp := s.regs.sp
    let pc := s.regs.pc
    let s := s.mark (sp >>> 8).toNat 1
    let s := s.poke sp.toNat (pc >>> 8).toUInt8
    let s := s.poke (sp - 1).toNat (pc - 1).toUInt8
    { s with regs := { s.regs with sp := sp - 1 - 1, pc := (args 1).value } }

/-! ## The mini-assembler -/

/-- `AssemblerPokeAddress` -/
def assemblerPokeAddress (opmode : AddressingMode) (baseAddress targetOffset : UInt16)
    (s : Debugged) : Debugged :=
  let page := (baseAddress >>> 8).toNat
  let s := s.mark page (s.dirty page ||| 1)
  let s :=
    if opmode.bytes > 1 then s.poke (baseAddress.toNat + 1) targetOffset.toUInt8 else s
  if opmode.bytes > 2 then s.poke (baseAddress.toNat + 2) (targetOffset >>> 8).toUInt8 else s

/-- A symbol an instruction was waiting for, once it is known. -/
structure DelayedTarget where
  /-- `base_address` -/
  baseAddress : UInt16
  /-- `opcode` -/
  opcode : UInt8
  /-- `nTargetValue` -/
  targetValue : UInt16
deriving DecidableEq, Repr

/-- `AssemblerProcessDelayedSymols`, which settles one symbol at most. -/
def assemblerProcessDelayedSymbols (target : Option DelayedTarget) (s : Debugged) :
    Debugged :=
  match target with
  | none => s
  | some target =>
    let s := assemblerPokeAddress (opcodes target.opcode).addressMode target.baseAddress
      target.targetValue s
    let page := (target.baseAddress >>> 8).toNat
    s.mark page (s.dirty page ||| 1)

/-- What the assembler has understood of a line. -/
structure AssemblerLine where
  /-- The opcodes with the mnemonic. -/
  asmOpcodes : List UInt8
  /-- `asm_address_mode`, if it is that of an instruction. -/
  addressMode : Option AddressingMode
  /-- `asm_target_value` -/
  targetValue : UInt16
deriving DecidableEq, Repr

/-- The opcode of a line. -/
def AssemblerLine.opcode (line : AssemblerLine) : Option UInt8 :=
  line.asmOpcodes.find? fun opcode => some (opcodes opcode).addressMode = line.addressMode

/-- `AssemblerPokeOpcodeAddress` -/
def assemblerPokeOpcodeAddress (line : AssemblerLine) (baseAddress : UInt16)
    (s : Debugged) : Debugged :=
  match line.opcode with
  | none => s
  | some opcode =>
    assemblerPokeAddress (opcodes opcode).addressMode baseAddress line.targetValue
      (s.poke baseAddress.toNat opcode)

/-- `Assemble`, given the delayed target it settles and the line it reads, if
there is no error in it. -/
def assemble (delayed : Option DelayedTarget) (line : Option AssemblerLine)
    (address : UInt16) (s : Debugged) : Debugged :=
  let s := assemblerProcessDelayedSymbols delayed s
  match line with
  | none => s
  | some line => assemblerPokeOpcodeAddress line address s

end LinApple.Debugger
