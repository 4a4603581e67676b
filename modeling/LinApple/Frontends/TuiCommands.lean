import LinApple.Frontends.MouseReports
import LinApple.Frontends.TuiSequences
import Mathlib.Algebra.Group.Int.Defs

/-!
# What a sequence does

The branches of `process_sequences`: which commands a sequence gives, in order, where the disk
selection, the help or the debugger may be on the screen (`TuiSequence.commands`).
-/

namespace LinApple.Frontends

/-! ## Commands -/

/-- The slot of the disk selection: that of the disk card, or `harddisk_frontend_slot()`. -/
inductive DiskSelectSlot
  | disk
  | harddisk
deriving DecidableEq, Repr

/-- **What `process_sequences` calls**, with its arguments. -/
inductive TuiCommand
  | mapKey (code : UInt8) (openApple : Bool)
  | debuggerKey (key : Nat)
  | toggleHelp
  | closeHelp
  | diskSelectOpen (slot : DiskSelectSlot) (drive : Nat)
  | diskSelectClose
  | diskSelectConfirm
  | diskSelectMove (delta : Int)
  | diskSelectPage (delta : Int)
  | diskSelectHome
  | diskSelectEnd
  | diskSelectJumpChar (c : UInt8)
  | resetMachine
  | softResetMachine
  | restartMachine
  | swapDrives
  | toggleFullscreen
  | toggleDebugger
  | saveScreenshot
  | cycleVideoMode
  | toggleRenderMode
  | saveConfiguration
  | loadState
  | saveState
  | raiseSigint
  | togglePause
  | toggleScrollLock
  | toggleKeyboardRocker
  | mouseReport (event : MouseSgrEvent)
  | pixelModeSetting (setting : Nat)
  | cellSize (width height : Nat)
deriving DecidableEq, Repr

/-- What is on the screen besides the picture. -/
structure TuiModes where
  diskSelect : Bool
  help : Bool
  debug : Bool
deriving DecidableEq, Repr

/-! ## Keys -/

/-- `linapple_key_up` and the others. -/
def linappleKeyUp : Nat := 0x100
def linappleKeyDown : Nat := 0x101
def linappleKeyLeft : Nat := 0x102
def linappleKeyRight : Nat := 0x103
def linappleKeyDelete : Nat := 0x109
def linappleKeyReturn : Nat := 0x0d
def linappleKeyEscape : Nat := 0x1b
def linappleKeyBackspace : Nat := 0x08

/-- `terminal_byte_to_apple` -/
def terminalByteToApple (b : UInt8) : UInt8 := if b = 0x7f then 0x08 else b

/-- A key that goes to what is on the screen, or else to the Apple. -/
def screenKey (m : TuiModes) (diskSelect : List TuiCommand) (key : Nat) (code : UInt8) :
    List TuiCommand :=
  if m.diskSelect then diskSelect
  else if m.help then [.closeHelp]
  else if m.debug then [.debuggerKey key]
  else [.mapKey code false]

/-- Cursor up. -/
def cursorUp (m : TuiModes) : List TuiCommand := screenKey m [.diskSelectMove (-1)] linappleKeyUp 0x0b

/-- Cursor down. -/
def cursorDown (m : TuiModes) : List TuiCommand := screenKey m [.diskSelectMove 1] linappleKeyDown 0x0a

/-- Cursor right. -/
def cursorRight (m : TuiModes) : List TuiCommand :=
  screenKey m [.diskSelectMove 1] linappleKeyRight 0x15

/-- Cursor left. -/
def cursorLeft (m : TuiModes) : List TuiCommand :=
  screenKey m [.diskSelectMove (-1)] linappleKeyLeft 0x08

/-- Escape. -/
def escapeKey (m : TuiModes) : List TuiCommand :=
  screenKey m [.diskSelectClose] linappleKeyEscape a2KeyEsc

/-- An ESC behind which nothing has arrived, which the debugger does not get. -/
def lastEscapeKey (m : TuiModes) : List TuiCommand :=
  if m.diskSelect then [.diskSelectClose]
  else if m.help then [.closeHelp]
  else [.mapKey a2KeyEsc false]

/-- A command for the disk selection alone. -/
def whereDiskSelect (m : TuiModes) (command : TuiCommand) : List TuiCommand :=
  if m.diskSelect then [command] else []

/-- The help is closed and the disk selection opened. -/
def openDiskSelect (slot : DiskSelectSlot) (drive : Nat) : List TuiCommand :=
  [.closeHelp, .diskSelectOpen slot drive]

/-- What another key does: it closes the help. -/
def otherKey (m : TuiModes) : List TuiCommand := if m.help then [.closeHelp] else []

/-! ## Escape sequences -/

/-- ESC `O` and a byte. -/
def ss3Commands (m : TuiModes) (cmd : UInt8) : List TuiCommand :=
  match Char.ofUInt8 cmd with
  | 'P' => [.toggleHelp]
  | 'Q' => [.resetMachine]
  | 'R' => openDiskSelect .disk 0
  | 'S' => openDiskSelect .disk 1
  | 'T' => [.swapDrives]
  | 'U' => [.toggleFullscreen]
  | 'V' => [.toggleDebugger]
  | 'W' => [.saveScreenshot]
  | 'X' => [.cycleVideoMode]
  | 'A' => cursorUp m
  | 'B' => cursorDown m
  | 'C' => cursorRight m
  | 'D' => cursorLeft m
  | 'H' => whereDiskSelect m .diskSelectHome
  | 'F' => whereDiskSelect m .diskSelectEnd
  | _ => otherKey m

/-- ESC `[` `[` and a byte. -/
def consoleCommands (m : TuiModes) (cmd : UInt8) : List TuiCommand :=
  match Char.ofUInt8 cmd with
  | 'A' => [.toggleHelp]
  | 'B' => [.resetMachine]
  | 'C' => openDiskSelect .disk 0
  | 'D' => openDiskSelect .disk 1
  | 'E' => [.swapDrives]
  | 'F' => [.toggleFullscreen]
  | 'G' => [.toggleDebugger]
  | 'H' => [.saveScreenshot]
  | 'I' => [.cycleVideoMode]
  | 'J' => [.loadState]
  | 'K' => [.saveState]
  | 'L' => [.raiseSigint]
  | _ => otherKey m

/-- The space of `std::stoi`. -/
def isSpace (c : Char) : Bool := c = ' ' ∨ '\t' ≤ c ∧ c ≤ '\r'

/-- `std::stoi`, which fails without digits and out of the range of an `int`. -/
def stoi (token : List Char) : Option Int :=
  let text := token.dropWhile isSpace
  let negative : Bool := text.head? = some '-'
  let digits := (if text.head? = some '-' ∨ text.head? = some '+' then text.tail else text).takeWhile
    Char.isDigit
  let value : Int := digits.foldl (fun n c => 10 * n + (c.toNat - '0'.toNat)) 0
  let value := if negative then -value else value
  if digits.isEmpty ∨ value < -2 ^ 31 ∨ 2 ^ 31 ≤ value then none else some value

/-- The function keys of a VT terminal by their numbers. -/
def vtCommands (m : TuiModes) (val : Int) : List TuiCommand :=
  if val = 11 then [.toggleHelp]
  else if val = 12 then [.resetMachine]
  else if val = 13 then openDiskSelect .disk 0
  else if val = 14 then openDiskSelect .disk 1
  else if val = 15 then [.swapDrives]
  else if val = 17 then [.toggleFullscreen]
  else if val = 18 then [.toggleDebugger]
  else if val = 19 then [.saveScreenshot]
  else if val = 20 then [.cycleVideoMode]
  else if val = 21 then [.loadState]
  else if val = 23 then [.saveState]
  else if val = 24 then [.raiseSigint]
  else otherKey m

/-- The control sequences that end with `~`. -/
def tildeCommands (m : TuiModes) (token : List Char) : List TuiCommand :=
  if token.isEmpty then []
  else if token = "12;2".toList then [.restartMachine]
  else if token ∈ ["13;2".toList, "25".toList, "25;2".toList] then openDiskSelect .harddisk 0
  else if token ∈ ["14;2".toList, "26".toList, "26;2".toList] then openDiskSelect .harddisk 1
  else if token ∈ ["17;2".toList, "28".toList, "28;2".toList] then [.toggleKeyboardRocker]
  else if token ∈ ["19;2".toList, "32".toList, "32;2".toList] then [.saveConfiguration]
  else if token ∈ ["20;2".toList, "33".toList, "33;2".toList] then [.toggleRenderMode]
  else if token = "21;5".toList then [.softResetMachine]
  else if token ∈ ["23;2".toList, "34".toList, "34;2".toList] then [.saveState]
  else if token = "3".toList then screenKey m [] linappleKeyDelete 0x7f
  else if token = "5".toList then whereDiskSelect m (.diskSelectPage (-1))
  else if token = "6".toList then whereDiskSelect m (.diskSelectPage 1)
  else if token = "1".toList ∨ token = "7".toList then whereDiskSelect m .diskSelectHome
  else if token = "4".toList ∨ token = "8".toList then whereDiskSelect m .diskSelectEnd
  else if ';' ∈ token then []
  else match stoi token with
    | some val => vtCommands m val
    | none => []

/-- The control sequences of rxvt with the shift key, which end with `$` or `@`. -/
def rxvtShiftCommands (token : List Char) : List TuiCommand :=
  if token = "12".toList then [.restartMachine]
  else if token = "13".toList ∨ token = "25".toList then openDiskSelect .harddisk 0
  else if token = "14".toList ∨ token = "26".toList then openDiskSelect .harddisk 1
  else if token = "17".toList ∨ token = "28".toList then [.toggleKeyboardRocker]
  else if token = "19".toList ∨ token = "32".toList then [.saveConfiguration]
  else if token = "20".toList ∨ token = "33".toList then [.toggleRenderMode]
  else if token = "23".toList ∨ token = "34".toList then [.saveState]
  else []

/-- `handle_terminal_reply` -/
def terminalReplyCommands (seq : List UInt8) : List TuiCommand :=
  match mouseFrontendDecodeModeReport seq with
  | some (mode, setting) => if mode = 1016 then [.pixelModeSetting setting] else []
  | none =>
    match mouseFrontendDecodeCellSizeReport seq with
    | some (width, height) => if 0 < width ∧ 0 < height then [.cellSize width height] else []
    | none => []

/-- Whether a text is found in a token. -/
def foundIn (text : List Char) : List Char → Bool
  | [] => text.isEmpty
  | c :: token => text.isPrefixOf (c :: token) || foundIn text token

/-- A control sequence, by its last byte. -/
def csiCommands (m : TuiModes) (params : List UInt8) (cmd : UInt8) : List TuiCommand :=
  let seq := (TuiSequence.csi params cmd).bytes
  let token := params.map Char.ofUInt8
  let shifted : Bool := foundIn ";2".toList token || token == "1;2".toList
  if params.head? = some 0x3c then ((mouseFrontendSgrDecode seq).map .mouseReport).toList
  else match Char.ofUInt8 cmd with
    | 'y' => terminalReplyCommands seq
    | 't' => terminalReplyCommands seq
    | 'P' => [.togglePause]
    | 'Q' => if shifted then [.restartMachine] else [.resetMachine]
    | 'R' => openDiskSelect (if shifted then .harddisk else .disk) 0
    | 'S' => openDiskSelect (if shifted then .harddisk else .disk) 1
    | 'W' => if shifted then [.saveConfiguration] else [.saveScreenshot]
    | 'X' => if shifted then [.toggleRenderMode] else [.cycleVideoMode]
    | 'N' => [.toggleScrollLock]
    | 'H' => whereDiskSelect m .diskSelectHome
    | 'F' => whereDiskSelect m .diskSelectEnd
    | '^' =>
      if token = "12".toList then [.resetMachine]
      else if token = "21".toList then [.softResetMachine]
      else []
    | '$' => rxvtShiftCommands token
    | '@' => rxvtShiftCommands token
    | '~' => tildeCommands m token
    | 'A' => cursorUp m
    | 'B' => cursorDown m
    | 'D' => cursorLeft m
    | 'C' => cursorRight m
    | _ => []

/-! ## Bytes -/

/-- A byte that begins no sequence. -/
def byteCommands (m : TuiModes) (b : UInt8) : List TuiCommand :=
  let printable : Bool := 32 ≤ b && b < 127
  if m.diskSelect then
    if b = 0x0d ∨ b = 0x0a then [.diskSelectConfirm]
    else if b = a2KeyEsc then [.diskSelectClose]
    else if printable then [.diskSelectJumpChar b]
    else []
  else if m.help then [.closeHelp]
  else if m.debug then
    if b = 0x0d ∨ b = 0x0a then [.debuggerKey linappleKeyReturn]
    else if b = 0x08 ∨ b = 0x7f then [.debuggerKey linappleKeyBackspace]
    else if b = a2KeyEsc then [.debuggerKey linappleKeyEscape]
    else if printable then [.debuggerKey b.toNat]
    else []
  else if b ≥ 0x80 then [.mapKey (terminalByteToApple (b &&& 0x7f)) true]
  else [.mapKey (terminalByteToApple b) false]

/-- **What a sequence does**, with what is on the screen when it is looked at. -/
def TuiSequence.commands (m : TuiModes) : TuiSequence → List TuiCommand
  | lastEsc => lastEscapeKey m
  | ss3 cmd => ss3Commands m cmd
  | console cmd => consoleCommands m cmd
  | csi params cmd => csiCommands m params cmd
  | abandoned => []
  | alt afterEsc =>
    if !m.diskSelect && !m.help && !m.debug then [.mapKey (terminalByteToApple afterEsc) true]
    else []
  | esc => escapeKey m
  | utf8 _ _ => []
  | byte b => byteCommands m b

end LinApple.Frontends
