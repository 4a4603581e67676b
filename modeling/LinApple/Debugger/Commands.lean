import LinApple.Debugger.Cook
import LinApple.Debugger.Lines

/-!
# Commands of the console

A line is parsed, the first of its arguments is looked up in the table of the commands, and the
function of the one that is found is called.

How much of the table is looked through is a number of its own, `num_commands_with_aliases`. It is
0 when the program starts, and the one function that sets it, `VerifyDebuggerCommandTable`, is not
called from anywhere, so the program as it is built finds no command at all
(`call_notMem_debuggerProcessCommand`): every line is taken for an address to disassemble at. The
number is therefore a parameter of the functions here, so that what would come behind the search
can be stated as well. There the arguments are not cooked on the way, and the function is told of
one less than there are (`debugger_command_values`).

The table itself and the functions in it are parameters too. What a function does with its
arguments is its own matter; what is asked here is which function is called, how often, and with
what in the argument array, so an action of the console is a call with a snapshot of that array
(`ConsoleAction`). The table may hold any names, also several with one beginning, and the search
that reports an ambiguous word is modelled with its list of candidates.

A line that is typed is described apart from how it is parsed (`TypedLine`): a word, then items
with blanks before them, each a number, a name, or two of these with a sign between. What an item
is worth is defined on this description, with numbers read in base sixteen, names looked up in the
symbols, and sums taken modulo 65536. That the parser finds the tokens of such a line, and how
many they are, is a lemma about all of them. The second half of the theorem is about lines whose
names are all defined, with one command that matches; the first half needs nothing, since without
a search there is nothing to be found.
-/

namespace LinApple.Debugger

/-! ## The table of the commands -/

/-- `Command` -/
structure ConsoleCommand (F : Type*) where
  /-- `name` -/
  name : List Char
  /-- `command_id` -/
  commandId : Nat
  /-- `function`, where it is not null. -/
  function : Option F

/-- The loop of `FindCommand`. -/
structure Candidates where
  /-- `nFound` -/
  nFound : Nat
  /-- `potential_commands` -/
  potentialCommands : List Nat
  /-- `*iCommand_`, where one was found. -/
  iCommand : Option Nat

variable {F : Type*}

/-- The commands from `iCommand` on. -/
def findFrom (sCommand : List Char) : Nat → List (ConsoleCommand F) → Candidates → Candidates
  | _, [], s => s
  | iCommand, c :: commands, s =>
    if sCommand.isPrefixOf c.name ∧ c.commandId ∉ s.potentialCommands then
      -- an exact match takes precedence over fuzzy matches
      if sCommand = c.name then ⟨1, [], some iCommand⟩
      else
        findFrom sCommand (iCommand + 1) commands
          ⟨s.nFound + 1, s.potentialCommands ++ [c.commandId], some iCommand⟩
    else findFrom sCommand (iCommand + 1) commands s

/-- `num_commands_with_aliases`, which nothing sets. -/
def numCommandsWithAliases : Nat := 0

/-- `VerifyDebuggerCommandTable`: what it would set that number to. -/
def verifyDebuggerCommandTable (commands : List (ConsoleCommand F)) : Nat := commands.length

/-- **`FindCommand`** over the first `numCommands` of `commands`: how many are found, and the
function of the one, which is read from the whole table. -/
def findCommand (numCommands : Nat) (commands : List (ConsoleCommand F)) (name : List Char) :
    Nat × Option F :=
  if name = [] then (0, none)
  else
    let s := findFrom (name.map Char.toUpper) 0 (commands.take numCommands) ⟨0, [], none⟩
    if s.nFound = 1 then
      let nCommand := match s.potentialCommands with
        | command :: _ => some command
        | [] => s.iCommand
      (1, nCommand.bind fun n => commands[n]?.bind (·.function))
    else (s.nFound, none)

/-! ## What a line does -/

/-- What is done for a line. -/
inductive ConsoleAction (F : Type*) where
  /-- The function of a command is called, over `args`. -/
  | call (function : F) (nArgs : Nat) (args : Nat → ConsoleArg)
  /-- `DisplayAmbigiousCommands` -/
  | ambiguous (nFound : Nat)
  /-- `disasm_cur_address` is set. -/
  | disasm (address : UInt16)
  /-- `CmdAssemble`, over `arg_raw`. -/
  | assemble (raw : List ConsoleArg)
  /-- `AssemblerOff` -/
  | assemblerOff

/-- **`ExecuteCommand`** -/
def executeCommand (numCommands : Nat) (commands : List (ConsoleCommand F)) (nArgs : Nat)
    (args : Nat → ConsoleArg) : List (ConsoleAction F) :=
  if 0 < nArgs then
    match findCommand numCommands commands (args 0).text with
    | (1, function) => (function.map fun f => ConsoleAction.call f (nArgs - 1) args).toList
    | (0, _) => [.disasm (argsGetValue 16 (args 0))]
    | (nFound, _) => [.ambiguous nFound]
  else []

/-- **`DebuggerProcessCommand`**, where the line is read within its end. -/
def debuggerProcessCommand (numCommands : Nat) (commands : List (ConsoleCommand F))
    (assemblerInput : Bool) (line : List Char) : Option (List (ConsoleAction F)) :=
  if assemblerInput then
    if line ≠ [] then
      match argsGet (line.rdropWhile (· = ' ')) with
      | .returned raw => some [.assemble raw]
      | _ => none
    else some [.assemblerOff]
  else if line ≠ [] then
    (parseInput line).map fun parsed =>
      if 0 < parsed.1 then executeCommand numCommands commands parsed.1 parsed.2 else []
  else some []

/-! ## Arguments that are typed -/

/-- A number or a symbol, and whether there is a `$` before it. -/
structure Term where
  dollar : Bool
  text : List Char
deriving DecidableEq, Repr

/-- An argument. -/
inductive Item where
  | term (a : Term)
  | plus (a b : Term)
  | minus (a b : Term)
deriving DecidableEq, Repr

section Values

variable (symbols : Symbols)

/-- The address of a symbol. -/
def symbolValue (text : List Char) : Option UInt16 :=
  (symbols.findAddressFromSymbol text).map fun found => UInt16.ofNat found.1

/-- **A number, or a symbol that is defined.** What is both is taken for the symbol, so a number
is one only if no symbol has that name; and behind a `$` nothing but a number may stand. -/
def Term.Defined (t : Term) : Prop :=
  IsWord t.text
    ∧ (t.dollar = false ∧ (symbolValue symbols t.text).isSome
      ∨ (symbolValue symbols t.text).isNone ∧ ∀ c ∈ t.text, (hexDigit c).isSome)

/-- **What is meant by it**, modulo 65536. -/
def Term.value (t : Term) : UInt16 :=
  (symbolValue symbols t.text).getD (UInt16.ofNat (digitsNumber 16 0 t.text))

/-- The numbers and symbols of an argument are defined. -/
def Item.Defined : Item → Prop
  | .term a => a.Defined symbols
  | .plus a b | .minus a b => a.Defined symbols ∧ b.Defined symbols

/-- **What an argument means**, modulo 65536. -/
def Item.value : Item → UInt16
  | .term a => a.value symbols
  | .plus a b => a.value symbols + b.value symbols
  | .minus a b => a.value symbols - b.value symbols

end Values

/-- The pieces of a number or a symbol. -/
def Term.pieces (blanks : List Char) (t : Term) : List Piece :=
  if t.dollar then [⟨blanks, ['$']⟩, ⟨[], t.text⟩] else [⟨blanks, t.text⟩]

/-- The pieces of an argument. -/
def Item.pieces (blanks : List Char) : Item → List Piece
  | .term a => a.pieces blanks
  | .plus a b => a.pieces blanks ++ ⟨[], ['+']⟩ :: b.pieces []
  | .minus a b => a.pieces blanks ++ ⟨[], ['-']⟩ :: b.pieces []

/-- **A line that is typed**: a command and its arguments, each behind a space and some more, and
spaces at the end. -/
structure TypedLine where
  word : List Char
  items : List (Nat × Item)
  trailing : Nat

namespace TypedLine

/-- The pieces of the arguments. -/
def argPieces (items : List (Nat × Item)) : List Piece :=
  items.flatMap fun item => item.2.pieces (' ' :: List.replicate item.1 ' ')

/-- The pieces of the line. -/
def pieces (line : TypedLine) : List Piece := ⟨[], line.word⟩ :: argPieces line.items

/-- The characters of the line. -/
def text (line : TypedLine) : List Char :=
  line.pieces.flatMap Piece.spelled ++ List.replicate line.trailing ' '

/-- The command is a word or a token, and every argument is defined. -/
def Defined (symbols : Symbols) (line : TypedLine) : Prop :=
  (IsWord line.word ∨ IsMark line.word) ∧ ∀ item ∈ line.items, item.2.Defined symbols

/-- How many tokens the arguments are. -/
def tokenCount (line : TypedLine) : Nat := (argPieces line.items).length

end TypedLine

/-! ## How a typed line is read -/

section Readable

variable {symbols : Symbols} {rest : List Piece}

theorem isMark_dollar : IsMark ['$'] := ⟨'$', rfl, by decide, by decide, by decide, by decide⟩

theorem isMark_plus : IsMark ['+'] := ⟨'+', rfl, by decide, by decide, by decide, by decide⟩

theorem isMark_minus : IsMark ['-'] := ⟨'-', rfl, by decide, by decide, by decide, by decide⟩

/-- A number or a symbol is read before a piece that ends a word. -/
theorem Term.readable {t : Term} (h : IsWord t.text) {blanks : List Char}
    (hblanks : ∀ c ∈ blanks, c = ' ' ∨ c = '\t') (hrest : Readable rest)
    (hends : EndsWord (rest.flatMap Piece.spelled)) : Readable (t.pieces blanks ++ rest) := by
  unfold Term.pieces
  by_cases hdollar : t.dollar
  · rw [if_pos hdollar]
    exact ⟨⟨hblanks, .inr isMark_dollar⟩, ⟨nofun, .inl ⟨h, hends⟩⟩, hrest⟩
  · rw [if_neg hdollar]
    exact ⟨⟨hblanks, .inl ⟨h, hends⟩⟩, hrest⟩

/-- Two that are joined. -/
theorem readable_joined {a b : Term} (ha : IsWord a.text) (hb : IsWord b.text)
    {blanks mark : List Char} (hblanks : ∀ c ∈ blanks, c = ' ' ∨ c = '\t') (hmark : IsMark mark)
    (hrest : Readable rest) (hends : EndsWord (rest.flatMap Piece.spelled)) :
    Readable ((a.pieces blanks ++ ⟨[], mark⟩ :: b.pieces []) ++ rest) := by
  rw [List.append_assoc, List.cons_append]
  refine a.readable ha hblanks ⟨⟨nofun, .inr hmark⟩, b.readable hb nofun hrest hends⟩ ?_
  obtain ⟨c, rfl, hc, -⟩ := hmark
  rintro d hd
  cases hd
  exact hc

/-- **An argument is read before a piece that ends a word.** -/
theorem Item.readable {item : Item} (h : item.Defined symbols) {blanks : List Char}
    (hblanks : ∀ c ∈ blanks, c = ' ' ∨ c = '\t') (hrest : Readable rest)
    (hends : EndsWord (rest.flatMap Piece.spelled)) : Readable (item.pieces blanks ++ rest) := by
  cases item with
  | term a => exact a.readable h.1 hblanks hrest hends
  | plus a b => exact readable_joined h.1.1 h.2.1 hblanks isMark_plus hrest hends
  | minus a b => exact readable_joined h.1.1 h.2.1 hblanks isMark_minus hrest hends

/-- What starts with the blanks of its first piece. -/
theorem Item.spelled_cons (item : Item) (c : Char) (blanks : List Char) (rest : List Piece) :
    ∃ behind, (item.pieces (c :: blanks) ++ rest).flatMap Piece.spelled = c :: behind := by
  have hterm : ∀ (t : Term) (rest : List Piece),
      ∃ behind, (t.pieces (c :: blanks) ++ rest).flatMap Piece.spelled = c :: behind := by
    intro t rest
    unfold Term.pieces
    split <;> exact ⟨_, rfl⟩
  cases item with
  | term a => exact hterm a rest
  | plus a b | minus a b =>
    unfold Item.pieces
    rw [List.append_assoc]
    exact hterm a _

/-- **The arguments are read**, behind a word. -/
theorem readable_argPieces {items : List (Nat × Item)}
    (h : ∀ item ∈ items, item.2.Defined symbols) :
    Readable (TypedLine.argPieces items)
      ∧ EndsWord ((TypedLine.argPieces items).flatMap Piece.spelled) := by
  induction items with
  | nil => exact ⟨trivial, nofun⟩
  | cons item items ih =>
    obtain ⟨hitem, hitems⟩ := List.forall_mem_cons.1 h
    obtain ⟨hread, hends⟩ := ih hitems
    have hcons : TypedLine.argPieces (item :: items)
        = item.2.pieces (' ' :: List.replicate item.1 ' ') ++ TypedLine.argPieces items :=
      List.flatMap_cons
    rw [hcons]
    refine ⟨Item.readable hitem (fun c hc => .inl ?_) hread hends, ?_⟩
    · rcases List.mem_cons.1 hc with rfl | hc
      · rfl
      · exact List.eq_of_mem_replicate hc
    · obtain ⟨behind, hspelled⟩ := item.2.spelled_cons ' ' (List.replicate item.1 ' ')
        (TypedLine.argPieces items)
      rw [hspelled]
      rintro c hc
      cases hc
      decide

theorem TypedLine.readable {line : TypedLine} (h : line.Defined symbols) :
    Readable line.pieces := by
  obtain ⟨hread, hends⟩ := readable_argPieces h.2
  exact ⟨⟨nofun, h.1.imp (fun hword => ⟨hword, hends⟩) id⟩, hread⟩

end Readable

/-! ## No command is found -/

/-- Nothing of the table is looked through. -/
theorem findCommand_numCommandsWithAliases (commands : List (ConsoleCommand F))
    (name : List Char) : findCommand numCommandsWithAliases commands name = (0, none) := by
  unfold findCommand
  split
  · rfl
  · rw [numCommandsWithAliases, List.take_zero]
    rfl

/-- **No line calls a function**, whatever is typed and whatever the table is. -/
theorem call_notMem_debuggerProcessCommand (commands : List (ConsoleCommand F))
    (assemblerInput : Bool) (line : List Char) {actions : List (ConsoleAction F)}
    (h : debuggerProcessCommand numCommandsWithAliases commands assemblerInput line = some actions)
    (f : F) (nArgs : Nat) (args : Nat → ConsoleArg) : .call f nArgs args ∉ actions := by
  have hexecute (n : Nat) (typed : Nat → ConsoleArg) : ConsoleAction.call f nArgs args
      ∉ executeCommand numCommandsWithAliases commands n typed := by
    unfold executeCommand
    rw [findCommand_numCommandsWithAliases]
    split <;> simp
  unfold debuggerProcessCommand at h
  split at h
  · split at h
    · split at h <;> cases h
      simp
    · cases h
      simp
  · split at h
    · obtain ⟨parsed, -, rfl⟩ := Option.map_eq_some_iff.1 h
      split
      · exact hexecute parsed.1 parsed.2
      · exact List.not_mem_nil
    · cases h
      exact List.not_mem_nil

/-! ## What the function is told -/

/-- **A command receives what was typed**: its function is called once, with the number of the
arguments and the value of each. -/
def ReceivesValues (numCommands : Nat) (commands : List (ConsoleCommand F)) (symbols : Symbols)
    (line : TypedLine) (f : F) : Prop :=
  ∃ args, debuggerProcessCommand numCommands commands false line.text
      = some [.call f line.items.length args]
    ∧ ∀ i (hi : i < line.items.length), (args (i + 1)).value = line.items[i].2.value symbols

/-- **What a typed line does**, where its command is found. -/
theorem debuggerProcessCommand_typed {numCommands : Nat} {commands : List (ConsoleCommand F)}
    {symbols : Symbols} {line : TypedLine} {f : F} (hline : line.Defined symbols)
    (hfound : findCommand numCommands commands (line.word.take (maxArgLen - 1)) = (1, some f)) :
    debuggerProcessCommand numCommands commands false line.text
      = some (if 0 < line.tokenCount then
          [.call f (min (maxArgs - 1) line.tokenCount - 1)
            fun i => ((line.pieces.map Piece.arg).take maxArgs).getD i .cleared]
        else []) := by
  have hread := line.readable hline
  have hparsed := parseInput_spelled hread line.trailing
  -- the parser keeps at most `maxArgs` pieces, and the word itself is one of them
  have hnArgs : min maxArgs line.pieces.length - 1 = min (maxArgs - 1) line.tokenCount := by
    unfold TypedLine.pieces TypedLine.tokenCount maxArgs
    rw [List.length_cons]
    omega
  have hne : line.text ≠ [] := by
    obtain ⟨c, behind, htext, -⟩ := hread.1.head
    unfold TypedLine.text TypedLine.pieces Piece.spelled
    dsimp only [Piece.spelled, List.flatMap_cons, List.nil_append] at htext ⊢
    rw [List.flatMap_cons, htext]
    exact nofun
  unfold debuggerProcessCommand
  rw [if_neg Bool.false_ne_true, if_pos hne]
  unfold TypedLine.text
  rw [hparsed, hnArgs, Option.map_some]
  dsimp only
  unfold executeCommand
  by_cases hpos : 0 < line.tokenCount
  · have hmin : 0 < min (maxArgs - 1) line.tokenCount := lt_min (by decide) hpos
    rw [if_pos hmin, if_pos hmin, if_pos hpos]
    have htext : (((line.pieces.map Piece.arg).take maxArgs).getD 0 .cleared).text
        = line.word.take (maxArgLen - 1) := rfl
    rw [htext, hfound]
    rfl
  · have hzero := Nat.eq_zero_of_not_pos hpos
    rw [hzero, Nat.min_zero, if_neg (Nat.lt_irrefl 0), if_neg (Nat.lt_irrefl 0)]

/-- No argument is given a value. -/
theorem value_getD_arg (pieces : List Piece) (i : Nat) :
    (((pieces.map Piece.arg).take maxArgs).getD i .cleared).value = 0 := by
  rw [List.getD_eq_getElem?_getD, List.getElem?_take, List.getElem?_map]
  split
  · cases pieces[i]? <;> rfl
  · rfl

/-- Where the command is found, it receives what was typed if and only if its arguments are one
token more than there are of them, as far as there is room, and every value is zero. -/
theorem receivesValues_iff {numCommands : Nat} {commands : List (ConsoleCommand F)}
    {symbols : Symbols} {line : TypedLine} {f : F} (hline : line.Defined symbols)
    (hfound : findCommand numCommands commands (line.word.take (maxArgLen - 1)) = (1, some f)) :
    ReceivesValues numCommands commands symbols line f
      ↔ min (maxArgs - 1) line.tokenCount = line.items.length + 1
        ∧ ∀ item ∈ line.items, item.2.value symbols = 0 := by
  unfold ReceivesValues
  rw [debuggerProcessCommand_typed hline hfound]
  constructor
  · rintro ⟨args, hcall, hvalues⟩
    split at hcall
    · rename_i hpos
      obtain ⟨hcount, rfl⟩ : min (maxArgs - 1) line.tokenCount - 1 = line.items.length ∧ _ = args := by
        simpa using hcall
      have hmin : 0 < min (maxArgs - 1) line.tokenCount := lt_min (by decide) hpos
      refine ⟨by omega, fun item hitem => ?_⟩
      obtain ⟨i, hi, rfl⟩ := List.getElem_of_mem hitem
      exact (hvalues i hi).symm.trans (value_getD_arg line.pieces (i + 1))
    · cases hcall
  · rintro ⟨hcount, hvalues⟩
    have hpos : 0 < line.tokenCount := by omega
    rw [if_pos hpos, hcount]
    exact ⟨_, rfl, fun i hi => (value_getD_arg line.pieces (i + 1)).trans
      (hvalues _ (List.getElem_mem hi)).symm⟩

/-- **No debugger command receives the values that were typed**, whatever the table is: none of it
is looked through, so no command is found and no function is called. Were the number set as
`VerifyDebuggerCommandTable` sets it, the function of a command that stands once in the table would
be called, but over arguments that were not cooked and with one less of them: it would receive what
was typed if and only if the arguments are one token more than there are of them, as far as there
is room, and every value is zero. -/
theorem debugger_command_values (commands : List (ConsoleCommand F)) (symbols : Symbols)
    (line : TypedLine) (f : F) :
    ¬ ReceivesValues numCommandsWithAliases commands symbols line f
      ∧ (line.Defined symbols →
        findCommand (verifyDebuggerCommandTable commands) commands
          (line.word.take (maxArgLen - 1)) = (1, some f) →
        (ReceivesValues (verifyDebuggerCommandTable commands) commands symbols line f
          ↔ min (maxArgs - 1) line.tokenCount = line.items.length + 1
            ∧ ∀ item ∈ line.items, item.2.value symbols = 0)) := by
  refine ⟨?_, receivesValues_iff⟩
  rintro ⟨args, hcall, -⟩
  exact call_notMem_debuggerProcessCommand commands false line.text hcall f line.items.length args
    List.mem_cons_self

/-- A line in which the one argument has a `$` and is zero. -/
def dumpZero : TypedLine := ⟨"MD".toList, [(0, .term ⟨true, ['0']⟩)], 0⟩

/-- A table with one command. -/
def dumpCommands : List (ConsoleCommand Unit) := [⟨"MD".toList, 0, some ()⟩]

/-- No symbol is defined. -/
def noSymbols : Symbols := ⟨fun _ => .empty, 0⟩

/-- `MD $0` calls nothing, and would be called with what was typed if the table were verified. -/
theorem debugger_command_values_zero :
    ¬ ReceivesValues numCommandsWithAliases dumpCommands noSymbols dumpZero ()
      ∧ ReceivesValues (verifyDebuggerCommandTable dumpCommands) dumpCommands noSymbols dumpZero
        () := by
  obtain ⟨hnone, hverified⟩ := debugger_command_values dumpCommands noSymbols dumpZero ()
  have hline : dumpZero.Defined noSymbols :=
    ⟨.inl (by decide +kernel), fun item hitem => by
      obtain rfl := List.mem_singleton.1 hitem
      exact ⟨by decide +kernel, .inr ⟨by decide +kernel, List.all_eq_true.1 (by decide +kernel)⟩⟩⟩
  exact ⟨hnone, (hverified hline (by decide +kernel)).2 (by decide +kernel)⟩

/-- `MD 300` calls nothing. -/
theorem not_debugger_command_values : ¬ ∀ (commands : List (ConsoleCommand Unit))
    (symbols : Symbols) (line : TypedLine) (f : Unit), line.Defined symbols →
      findCommand (verifyDebuggerCommandTable commands) commands
        (line.word.take (maxArgLen - 1)) = (1, some f) →
        ReceivesValues numCommandsWithAliases commands symbols line f := by
  intro h
  obtain ⟨args, hcall, -⟩ := h dumpCommands noSymbols
    ⟨"MD".toList, [(0, .term ⟨false, "300".toList⟩)], 0⟩ ()
    ⟨.inl (by decide +kernel), fun item hitem => by
      obtain rfl := List.mem_singleton.1 hitem
      exact ⟨by decide +kernel, .inr ⟨by decide +kernel, List.all_eq_true.1 (by decide +kernel)⟩⟩⟩
    (by decide +kernel)
  have haction : debuggerProcessCommand numCommandsWithAliases dumpCommands false
      "MD 300".toList = some [.disasm 0] := by rfl
  have heq := hcall.symm.trans haction
  simp at heq

end LinApple.Debugger
