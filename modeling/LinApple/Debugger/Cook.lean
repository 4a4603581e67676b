import LinApple.Cpu.Types
import LinApple.Debugger.Parser
import LinApple.Debugger.Symbols

/-!
# Cooking arguments

The second pass over the arguments gives each its value and folds operators with the arguments on
both sides, by which the others are shifted down; after a fold it starts again with the first.
A round looks at the argument at `iArg`, and after a `$` at the one behind it, which has been
shifted to the same place while the index went down. What is read behind the last of the 32
arguments or behind the image, and a division by zero, is where a round goes wrong.
-/

namespace LinApple.Debugger

open Cpu (CpuRegisters)

/-! ## Numbers -/

/-- `isspace` -/
def isSpace (c : Char) : Bool :=
  c = ' ' ∨ c = '\t' ∨ c = '\n' ∨ c = '\x0b' ∨ c = '\x0c' ∨ c = '\r'

/-- The value of a hexadecimal digit. -/
def hexDigit (c : Char) : Option Nat :=
  if '0' ≤ c ∧ c ≤ '9' then some (c.toNat - '0'.toNat)
  else if 'A' ≤ c ∧ c ≤ 'F' then some (c.toNat - 'A'.toNat + 10)
  else if 'a' ≤ c ∧ c ≤ 'f' then some (c.toNat - 'a'.toNat + 10)
  else Option.none

/-- The number behind the digits a text starts with, in a base. -/
def digitsNumber (base n : Nat) : List Char → Nat
  | [] => n
  | c :: text =>
    match hexDigit c with
    | some d => if d < base then digitsNumber base (n * base + d) text else n
    | Option.none => n

/-- A sign, and what is behind it. -/
def readSign : List Char → Bool × List Char
  | '-' :: text => (true, text)
  | '+' :: text => (false, text)
  | text => (false, text)

/-- What is behind a `0x` of a hexadecimal number. -/
def skipPrefix (base : Nat) : List Char → List Char
  | '0' :: x :: c :: text =>
    if base = 16 ∧ (x = 'x' ∨ x = 'X') ∧ (hexDigit c).isSome then c :: text
    else '0' :: x :: c :: text
  | text => text

/-- `strtoul` of a base up to 16, with an `unsigned long` of 64 bits. -/
def strtoul (base : Nat) (text : List Char) : Nat :=
  let signed := readSign (text.dropWhile isSpace)
  let n := digitsNumber base 0 (skipPrefix base signed.2)
  if 2 ^ 64 ≤ n then 2 ^ 64 - 1 else if signed.1 then (2 ^ 64 - n) % 2 ^ 64 else n

/-- `ArgsGetValue` -/
def argsGetValue (base : Nat) (arg : ConsoleArg) : UInt16 :=
  UInt16.ofNat (strtoul base arg.text % 0x10000)

/-- `ArgsGetRegisterValue` -/
def argsGetRegisterValue (regs : CpuRegisters) (arg : ConsoleArg) : Option UInt16 :=
  if arg.argLen = 1 then
    match arg.text.head? with
    | some 'A' => some regs.a.toUInt16
    | some 'P' => some regs.ps.toUInt16
    | some 'X' => some regs.x.toUInt16
    | some 'Y' => some regs.y.toUInt16
    | some 'S' => some regs.sp
    | _ => Option.none
  else if arg.argLen = 2 ∧ arg.text = ['P', 'C'] then some regs.pc
  else Option.none

/-! ## The state of the loop -/

/-- What `ArgsCook` looks at besides its arguments. All of it stays as it is while the arguments
are cooked, which is why it is apart from the state of the loop. -/
structure CookInput where
  /-- `nArgs` -/
  nArgs : Nat
  /-- There are so many arguments. -/
  nArgs_lt : nArgs < maxArgs
  /-- The symbol tables. -/
  symbols : Symbols
  /-- `cpu_get_registers()` -/
  regs : CpuRegisters
  /-- `mem` -/
  mem : UInt16 → UInt8
  /-- `memory_search_results` -/
  searchResults : List Int

/-- **The loop of `ArgsCook`.** -/
structure CookState where
  /-- `args` -/
  args : Nat → ConsoleArg
  /-- `nArg` -/
  nArg : Int
  /-- `iArg` -/
  iArg : Nat
  /-- `nParenL` -/
  nParenL : Nat
  /-- `nParenR` -/
  nParenR : Nat

/-- `ARG_SYNTAX_ERROR` -/
def argSyntaxError : Int := -1

/-- `Arg_Shift`, downwards. -/
def argShift (args : Nat → ConsoleArg) (iSrc iEnd iDst : Nat) : Nat → ConsoleArg :=
  fun i => if iDst ≤ i ∧ i + iSrc ≤ iEnd + iDst then args (i - iDst + iSrc) else args i

/-- What a round of the loop comes to: the function returns a number, and leaves `args`. -/
abbrev CookRound := Round CookState (Int × (Nat → ConsoleArg))

section Round

variable (input : CookInput)

/-- `FindAddressFromSymbol` -/
def CookInput.symbol (text : List Char) : Option UInt16 :=
  (input.symbols.findAddressFromSymbol text).map fun found => UInt16.ofNat found.1

/-- **The right side of an operator** at `p`: the number behind a `#`, a register, or the text as
a number. It is none where the number would be read behind the last argument. -/
def CookInput.rightSide (args : Nat → ConsoleArg) (p : Nat) (otherwise : UInt16) :
    Option UInt16 :=
  if (args (p + 1)).token = .hash then
    if p + 2 < maxArgs then some (argsGetValue 16 (args (p + 2))) else Option.none
  else some ((argsGetRegisterValue input.regs (args (p + 1))).getD otherwise)

/-- The operator of two values; it is none where it divides by zero. -/
def foldValue (token : Token) (lhs rhs : UInt16) : Option UInt16 :=
  match token with
  | .ampersand => some (lhs &&& rhs)
  | .pipe => some (lhs ||| rhs)
  | .caret => some (lhs ^^^ rhs)
  | .plus => some (lhs + rhs)
  | .minus => some (lhs - rhs)
  | .percent => if rhs = 0 then Option.none else some (lhs % rhs)
  | .star => some (lhs * rhs)
  | .fslash => some (lhs / if rhs = 0 then 1 else rhs)
  | _ => some lhs

/-- An operator that is folded with the arguments on both sides. -/
def Token.isFolded : Token → Bool
  | .ampersand | .pipe | .caret | .plus | .minus | .percent | .star | .fslash => true
  | _ => false

/-- The arguments from `iArg + nParamLen` on are shifted to `iArg`, and the loop starts again. -/
def CookState.folded (s : CookState) (nArgs nParamLen : Nat) : CookState :=
  { s with
    args := argShift s.args (s.iArg + nParamLen) nArgs s.iArg
    nArg := s.nArg - nParamLen
    iArg := 1 }

/-- The end of a round behind a `)`: where the parentheses match it is taken out. -/
def cookParenR (s : CookState) (p : Nat) : CookRound :=
  if (s.args p).token = .parenR then
    let s := { s with nParenR := s.nParenR + 1 }
    if s.nParenL = s.nParenR then .next (s.folded input.nArgs 1)
    else .stop (argSyntaxError, s.args)
  else .next { s with iArg := s.iArg + 1 }

/-- The end of a round at a `(`, with the number of arguments there were behind the operator: the
word at an address is the value. -/
def cookParenL (s : CookState) (p : Nat) (nArgsLeft : Int) (nAddressVal : UInt16) : CookRound :=
  if (s.args p).token = .parenL then
    let s := { s with nParenL := s.nParenL + 1 }
    if ¬ 2 ≤ nArgsLeft then cookParenR input s p
    else if ¬ s.iArg + 1 < maxArgs then .wrong
    else
      let s := { s with args := argShift s.args (s.iArg + 1) input.nArgs s.iArg }
      if (s.args (s.iArg + 1)).token = .parenR then
        if nAddressVal = 0xFFFF then .wrong
        else
          let word := (input.mem nAddressVal).toUInt16
            ||| (input.mem (nAddressVal + 1)).toUInt16 <<< 8
          let arg := { s.args p with
            value := word, isSymbol := false,
            type := { value := true, address := true, noReg := true } }
          cookParenR input
            { s with
              args := Function.update s.args p arg
              nParenR := s.nParenR + 1
              iArg := s.iArg + 1
              nArg := s.nArg - 2 } p
      else .stop (argSyntaxError, s.args)
  else cookParenR input s p

/-- A round at an operator that is not folded, from the `#` on. -/
def cookUnary (s : CookState) (p : Nat) (nArgsLeft : Int) (rhs nAddressVal : UInt16) :
    CookRound :=
  match (s.args p).token with
  | .hash =>
    let arg := { s.args p with
      value := rhs, isSymbol := false,
      type := { value := true, address := true, noReg := true, noSym := true } }
    .next { s with args := Function.update s.args p arg, iArg := s.iArg + 1 }
  | .exclamation =>
    match input.rightSide s.args p nAddressVal with
    | Option.none => .wrong
    | some rhs =>
      let arg := { s.args p with
        value := ~~~rhs, type := { (s.args p).type with value := true } }
      .next { s with args := Function.update s.args p arg, iArg := s.iArg + 1 }
  | _ => cookParenL input s p nArgsLeft nAddressVal

/-- `@`: the argument behind it becomes the result of a search. -/
def cookAt (s : CookState) (p : Nat) (rhs : UInt16) : CookState :=
  let args := argShift s.args (s.iArg + 1) input.nArgs s.iArg
  let arg := { args p with value := 0, isSymbol := false }
  let arg :=
    match input.searchResults[rhs.toNat]? with
    | some result =>
      { arg with
        value := UInt16.ofInt result
        type := { value := true, address := true, noReg := true, noSym := true } }
    | Option.none => arg
  { s with args := Function.update args p arg, nArg := s.nArg - 1 }

/-- An argument is marked as a symbol where one is found. -/
def CookState.marked (s : CookState) (p : Nat) (found : Bool) : CookState :=
  { s with
    args := Function.update s.args p
      { s.args p with isSymbol := (s.args p).isSymbol || found } }

/-- **A round at an operator with an argument behind it**, at `p`. -/
def cookBinary (s : CookState) (p : Nat) : CookRound :=
  let nArgsLeft := s.nArg - s.iArg
  let next := s.args (p + 1)
  let value := argsGetValue 16 next
  let symbol := input.symbol next.text
  let nAddressVal := symbol.getD value
  let s := s.marked p symbol.isSome
  let token := (s.args p).token
  if ¬ (1 ≤ p ∧ p + 1 < maxArgs) then .wrong
  else if token = .fslash ∧ next.token = .fslash then .stop (s.iArg - 1, s.args)
  else if token.isFolded then
    match input.rightSide s.args p value with
    | Option.none => .wrong
    | some rhs =>
      match foldValue token (s.args (p - 1)).value rhs with
      | Option.none => .wrong
      | some result =>
        let lhs := { s.args (p - 1) with
          value := result, type := { (s.args (p - 1)).type with value := true } }
        .next ({ s with args := Function.update s.args (p - 1) lhs }.folded input.nArgs 2)
  else if token = .equal then
    let lhs := { s.args (p - 1) with
      value := value, type := { (s.args (p - 1)).type with value := true } }
    .next { s with args := Function.update s.args (p - 1) lhs, iArg := s.iArg + 1 }
  else
    let s := if token = .at then cookAt input s p value else s
    cookUnary input s p nArgsLeft value nAddressVal

/-- A round at an operator, at `p`. -/
def cookOperator (s : CookState) (p : Nat) : CookRound :=
  let nArgsLeft := s.nArg - s.iArg
  if (s.args p).token = .hash ∧ nArgsLeft < 1 ∨ nArgsLeft < 0 then
    .stop (argSyntaxError, s.args)
  else if (s.args p).token = .star ∧ s.nArg = 1 then .next { s with iArg := s.iArg + 1 }
  else if nArgsLeft > 0 then cookBinary input s p
  else .stop (argSyntaxError, s.args)

/-- **A round at a number or a symbol**, at `p`. -/
def cookValue (s : CookState) (p : Nat) (text : List Char) : CookState :=
  let arg := s.args p
  let number := UInt16.ofNat (strtoul 16 text % 0x10000)
  let number :=
    if arg.type.noReg then number else (argsGetRegisterValue input.regs arg).getD number
  let symbol := if arg.type.noSym then Option.none else input.symbol text
  let arg := { arg with
    value := if arg.type.value then arg.value else symbol.getD number
    isSymbol := arg.isSymbol || symbol.isSome
    type := { arg.type with address := true } }
  { s with args := Function.update s.args p arg, iArg := s.iArg + 1 }

/-- A round, at `p`. -/
def cookArg (s : CookState) (p : Nat) : CookRound :=
  if (s.args p).type.operator then cookOperator input s p
  else .next (cookValue input s p (s.args p).text)

/-- `$`: the argument behind it is shifted to its place, and is no register. -/
def CookState.dollar (s : CookState) (nArgs : Nat) : CookState :=
  let args := argShift s.args (s.iArg + 1) nArgs s.iArg
  { s with
    args := Function.update args s.iArg
      { args s.iArg with type := { (args s.iArg).type with noReg := true } }
    nArg := s.nArg - 1
    iArg := s.iArg - 1 }

/-- **A round of `ArgsCook`.** -/
def cookRound (s : CookState) : CookRound :=
  if s.nArg < s.iArg then .stop (s.nArg, s.args)
  else if ¬ s.iArg < maxArgs then .wrong
  else if (s.args s.iArg).token = .dollar then
    if s.nArg - s.iArg > 0 then cookArg input (s.dollar input.nArgs) s.iArg
    else .stop (argSyntaxError, s.args)
  else cookArg input s s.iArg

/-- **`ArgsCook`**, for so many rounds. -/
def argsCook (rounds : Nat) (args : Nat → ConsoleArg) : Ending (Int × (Nat → ConsoleArg)) :=
  Round.run (cookRound input) rounds ⟨args, input.nArgs, 1, 0, 0⟩

end Round

end LinApple.Debugger
