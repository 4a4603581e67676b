import LinApple.Basic.LiveSync
import Mathlib.Data.List.DropRight
import Mathlib.Tactic.Linarith

/-!
# The configuration

The configuration is a map from sections and keys to values. `load` reads it from
a file line by line and brings the members that stand for some of the keys into
line with it; `save` writes the members back into the map, and the map into a file.
-/

namespace LinApple.Config

open Basic (Text bytes isSpace isDigit decimal getLines)
open Std (TreeMap)

/-! ## Text -/

/-- `trim` -/
def trim (s : Text) : Text := (s.dropWhile isSpace).rdropWhile isSpace

/-- `'"'` -/
def quote : UInt8 := 0x22

/-- `unquote` -/
def unquote (s : Text) : Text :=
  if 2 ≤ s.length ∧ s.head? = some quote ∧ s.getLast? = some quote then
    (s.drop 1).take (s.length - 2)
  else s

/-- The value of a digit, in any base. -/
def digitValue (c : UInt8) : Nat :=
  if isDigit c then c.toNat - 0x30
  else if 0x41 ≤ c && c ≤ 0x5A then c.toNat - 0x41 + 10
  else if 0x61 ≤ c && c ≤ 0x7A then c.toNat - 0x61 + 10
  else 36

/-- The base of a number, and the number without what says so. -/
def numberBase (s : Text) : Nat × Text :=
  match s with
  | 0x30 :: x :: d :: rest =>
    if (x = 0x78 ∨ x = 0x58) ∧ digitValue d < 16 then (16, d :: rest) else (8, s)
  | 0x30 :: _ => (8, s)
  | _ => (10, s)

/-- `std::stoul(s, nullptr, 0)`, which throws where there is no number and where it
is too large. -/
def stoul (s : Text) : Option Nat :=
  let s := s.dropWhile isSpace
  let negative := s.head? = some 0x2D
  let (base, s) := numberBase (if s.head? = some 0x2D ∨ s.head? = some 0x2B then s.drop 1 else s)
  let digits := s.takeWhile (digitValue · < base)
  let value := digits.foldl (fun n c => n * base + digitValue c) 0
  if digits = [] ∨ 2 ^ 64 ≤ value then none
  else some (if negative then (2 ^ 64 - value) % 2 ^ 64 else value)

/-- `path_max_len` -/
def pathMaxLen : Nat := 260

/-- `util_safe_strcpy` of `value.c_str()` into one of the paths. -/
def pathOf (value : Text) : Text := (value.takeWhile (· ≠ 0)).take (pathMaxLen - 1)

/-! ## The map -/

/-- A section. -/
abbrev Section := TreeMap Text Text

/-- `std::map<std::string, std::map<std::string, std::string>>` -/
abbrev Data := TreeMap Text Section

namespace Data

/-- `data[section][key] = value` -/
def set (d : Data) (sec key value : Text) : Data :=
  d.insert sec ((d.getD sec ∅).insert key value)

/-- The value of a key of a section. -/
def get (d : Data) (sec key : Text) : Option Text := d[sec]?.bind (·[key]?)

end Data

/-- `cfg_sec_configuration` -/
def secConfiguration : Text := bytes "Configuration"
/-- `cfg_sec_slots` -/
def secSlots : Text := bytes "Slots"
/-- `cfg_sec_preferences` -/
def secPreferences : Text := bytes "Preferences"
/-- `cfg_computer_emulation` -/
def computerEmulation : Text := bytes "Computer Emulation"
/-- `cfg_disk_image1` -/
def diskImage1 : Text := bytes "Disk Image 1"
/-- `cfg_disk_image2` -/
def diskImage2 : Text := bytes "Disk Image 2"
/-- `cfg_hdd_image1` -/
def hddImage1 : Text := bytes "Harddisk Image 1"
/-- `cfg_hdd_image2` -/
def hddImage2 : Text := bytes "Harddisk Image 2"
/-- `cfg_savestate_filename` -/
def savestateFilename : Text := bytes "Save State Filename"
/-- `cfg_disable_debugger` -/
def disableDebuggerKey : Text := bytes "Disable Debugger"
/-- `cfg_basic_sync_file` -/
def basicSyncFileKey : Text := bytes "Basic Live Sync File"
/-- `cfg_basic_line_mode` -/
def basicLineModeKey : Text := bytes "Basic Line Numbering"
/-- `cfg_tui_render_mode` -/
def tuiRenderModeKey : Text := bytes "TUI Render Mode"

/-- `config_aliases` -/
def configAliases : List (Text × Text) :=
  [ (bytes "Joystick 0 Index", bytes "Joy0Index"),
    (bytes "Joystick 1 Index", bytes "Joy1Index"),
    (bytes "Joystick 0 Button 1", bytes "Joy0Button1"),
    (bytes "Joystick 0 Button 2", bytes "Joy0Button2"),
    (bytes "Joystick 1 Button 1", bytes "Joy1Button1"),
    (bytes "Joystick 0 Axis 0", bytes "Joy0Axis0"),
    (bytes "Joystick 0 Axis 1", bytes "Joy0Axis1"),
    (bytes "Joystick 1 Axis 0", bytes "Joy1Axis0"),
    (bytes "Joystick 1 Axis 1", bytes "Joy1Axis1"),
    (bytes "Mouse in slot 4", bytes "Mouse in slot4"),
    (bytes "Mouse Capture", bytes "MouseCapture"),
    (bytes "Basic Live Sync File", bytes "BasicLiveSyncFile"),
    (bytes "Basic Line Numbering", bytes "BasicLineNumbering") ]

/-- `find_alias` -/
def findAlias (key : Text) : Option Text :=
  configAliases.findSome? fun (canonical, legacy) =>
    if key = canonical then some legacy
    else if key = legacy then some canonical
    else none

namespace Data

/-- A key in the section it is asked for in, or in the first that has it. -/
def find (d : Data) (sec key : Text) : Option Text :=
  d.get sec key <|> d.toList.findSome? fun (_, keys) => keys[key]?

/-- `get_string`, with the empty default. -/
def getString (d : Data) (sec key : Text) : Text :=
  (d.find sec key <|> (findAlias key).bind (d.find sec)).getD []

end Data

/-! ## The members -/

/-- `TuiRenderMode` -/
inductive TuiRenderMode where
  | smart
  | block
deriving DecidableEq, Repr

/-- **`Configuration`**, as far as the map is kept in line with it. A path is what
stands before the first NUL. -/
structure Configuration where
  /-- `apple2_type` -/
  apple2Type : Apple2Type
  /-- `apple2_type_explicit` -/
  apple2TypeExplicit : Bool
  /-- `is_pal` -/
  isPal : Bool
  /-- `is_pal_explicit` -/
  isPalExplicit : Bool
  /-- `is_fullscreen` -/
  isFullscreen : Bool
  /-- `is_fullscreen_explicit` -/
  isFullscreenExplicit : Bool
  /-- `disk_path` -/
  diskPath1 : Text
  /-- `disk_path` -/
  diskPath2 : Text
  /-- `harddisk_path` -/
  harddiskPath1 : Text
  /-- `harddisk_path` -/
  harddiskPath2 : Text
  /-- `harddisk_path_from_args` -/
  harddiskPathFromArgs1 : Bool
  /-- `harddisk_path_from_args` -/
  harddiskPathFromArgs2 : Bool
  /-- `snapshot_path` -/
  snapshotPath : Text
  /-- `disable_debugger` -/
  disableDebugger : Bool
  /-- `basic_sync_file` -/
  basicSyncFile : Text
  /-- `basic_line_mode` -/
  basicLineMode : Int
  /-- `caps_lock_mode` -/
  capsLockMode : Int
  /-- `tui_render_mode` -/
  tuiRenderMode : TuiRenderMode
  /-- `tui_render_mode_explicit` -/
  tuiRenderModeExplicit : Bool
  /-- `data` -/
  data : Data

/-- `Configuration{}` -/
def Configuration.new : Configuration where
  apple2Type := .apple2eEnhanced
  apple2TypeExplicit := false
  isPal := false
  isPalExplicit := false
  isFullscreen := false
  isFullscreenExplicit := false
  diskPath1 := []
  diskPath2 := []
  harddiskPath1 := []
  harddiskPath2 := []
  harddiskPathFromArgs1 := false
  harddiskPathFromArgs2 := false
  snapshotPath := []
  disableDebugger := false
  basicSyncFile := []
  basicLineMode := -1
  capsLockMode := -1
  tuiRenderMode := .smart
  tuiRenderModeExplicit := false
  data := ∅

/-- What one of the texts for a switch that is on reads. -/
def isOn (s : Text) : Bool := s = bytes "1" || s = bytes "true" || s = bytes "yes"

/-- `static_cast<int>(std::stoul(s, nullptr, 0))`, or 0 where it throws. -/
def intOf (s : Text) : Int := ((stoul s).getD 0 : Int).bmod (2 ^ 32)

/-- The machine a value of `Computer Emulation` names. -/
def apple2TypeOf (s : Text) : Apple2Type :=
  match stoul s with
  | none => .apple2eEnhanced
  | some n =>
    match n % 2 ^ 32 with
    | 0 => .apple2
    | 1 => .apple2Plus
    | 2 => .apple2e
    | _ => .apple2eEnhanced

/-- The value `Computer Emulation` has for a machine. -/
def emulationOf : Apple2Type → Nat
  | .apple2 => 0
  | .apple2Plus => 1
  | .apple2e => 2
  | _ => 3

/-- The first of some texts that is not empty. -/
def firstNonempty (texts : List Text) : Text := (texts.find? (· ≠ [])).getD []

/-- A path that is set, or what the map has for it. -/
def pathOr (path : Text) (value : Text) : Text :=
  if path = [] ∧ value ≠ [] then pathOf value else path

namespace Configuration

variable (c : Configuration)

/-- `sync_from_data` -/
def syncFromData : Configuration :=
  let str := c.data.getString
  let emul := firstNonempty [str secConfiguration computerEmulation,
    str secPreferences computerEmulation]
  let fullscreen := str secConfiguration (bytes "Fullscreen")
  let video := str secConfiguration (bytes "Video Emulation")
  let disk := fun key => firstNonempty [str secSlots key, str secConfiguration key,
    str secPreferences key]
  let hdd := fun key => firstNonempty [str secPreferences key, str secConfiguration key]
  let lineMode := str secConfiguration basicLineModeKey
  let render := str secConfiguration tuiRenderModeKey
  let debugger := str secConfiguration disableDebuggerKey
  let caps := str (bytes "Keyboard") (bytes "Caps Lock Mode")
  { c with
    apple2Type := if c.apple2TypeExplicit ∨ emul = [] then c.apple2Type else apple2TypeOf emul
    isFullscreen :=
      if c.isFullscreenExplicit ∨ fullscreen = [] then c.isFullscreen else isOn fullscreen
    isPal :=
      if c.isPalExplicit ∨ video = [] then c.isPal else (stoul video).any (· % 2 ^ 32 = 2)
    diskPath1 := pathOr c.diskPath1 (disk diskImage1)
    diskPath2 := pathOr c.diskPath2 (disk diskImage2)
    harddiskPath1 := pathOr c.harddiskPath1 (hdd hddImage1)
    harddiskPath2 := pathOr c.harddiskPath2 (hdd hddImage2)
    snapshotPath := pathOr c.snapshotPath (str secConfiguration savestateFilename)
    basicSyncFile := pathOr c.basicSyncFile (str secConfiguration basicSyncFileKey)
    basicLineMode := if c.basicLineMode < 0 ∧ lineMode ≠ [] then intOf lineMode else c.basicLineMode
    tuiRenderMode :=
      if c.tuiRenderModeExplicit then c.tuiRenderMode
      else if render = bytes "block" ∨ render = bytes "simple" then .block
      else if render = bytes "smart" ∨ render = bytes "shape" then .smart
      else c.tuiRenderMode
    disableDebugger := c.disableDebugger || isOn debugger
    capsLockMode := if c.capsLockMode < 0 ∧ caps ≠ [] then intOf caps else c.capsLockMode }

/-- The keys `sync_to_data` writes, with their values. -/
def rewrites : List (Text × Text × Text) :=
  [ (secConfiguration, computerEmulation, decimal (emulationOf c.apple2Type)),
    (secConfiguration, bytes "Fullscreen", if c.isFullscreen then bytes "1" else bytes "0"),
    (secConfiguration, bytes "Video Emulation", if c.isPal then bytes "2" else bytes "1") ]
  ++ (if c.diskPath1 ≠ [] then [(secSlots, diskImage1, c.diskPath1)] else [])
  ++ (if c.diskPath2 ≠ [] then [(secSlots, diskImage2, c.diskPath2)] else [])
  ++ (if c.harddiskPath1 ≠ [] ∧ !c.harddiskPathFromArgs1 then
      [(secPreferences, hddImage1, c.harddiskPath1)] else [])
  ++ (if c.harddiskPath2 ≠ [] ∧ !c.harddiskPathFromArgs2 then
      [(secPreferences, hddImage2, c.harddiskPath2)] else [])
  ++ (if c.snapshotPath ≠ [] then
      [(secConfiguration, savestateFilename, c.snapshotPath)] else [])
  ++ (if c.disableDebugger then [(secConfiguration, disableDebuggerKey, bytes "1")] else [])
  ++ (if c.basicSyncFile ≠ [] then
      [(secConfiguration, basicSyncFileKey, c.basicSyncFile)] else [])
  ++ (if 0 ≤ c.basicLineMode then
      [(secConfiguration, basicLineModeKey, decimal c.basicLineMode.toNat)] else [])
  ++ (if c.tuiRenderModeExplicit then
      [(secConfiguration, tuiRenderModeKey,
        if c.tuiRenderMode = .block then bytes "block" else bytes "smart")] else [])

/-- `sync_to_data` -/
def syncToData : Configuration :=
  { c with data := c.rewrites.foldl (fun d (sec, key, value) => d.set sec key value) c.data }

end Configuration

/-! ## Reading -/

/-- `'#'` -/
def hash : UInt8 := 0x23
/-- `'['` -/
def bracketOpen : UInt8 := 0x5B
/-- `']'` -/
def bracketClose : UInt8 := 0x5D
/-- `'='` -/
def equalsSign : UInt8 := 0x3D

/-- Whether a line is the head of a section. -/
def isSectionHead (line : Text) : Bool :=
  2 ≤ line.length && line.head? = some bracketOpen && line.getLast? = some bracketClose

/-- A line of a file, in the section the lines before it have left. -/
def readLine (state : Text × Data) (line : Text) : Text × Data :=
  let line := trim line
  if line = [] ∨ line.head? = some hash then state
  else if isSectionHead line then ((line.drop 1).take (line.length - 2), state.2)
  else if equalsSign ∈ line then
    let key := trim (line.takeWhile (· ≠ equalsSign))
    let value := unquote (trim ((line.dropWhile (· ≠ equalsSign)).drop 1))
    (state.1, state.2.set state.1 key value)
  else state

/-- The map a file is read as. -/
def readData (file : Text) : Data :=
  ((getLines file).foldl readLine (secConfiguration, ∅)).2

/-- **`load`** -/
def Configuration.load (c : Configuration) (file : Text) : Configuration :=
  ({ c with data := readData file } : Configuration).syncFromData

/-! ## Writing -/

/-- The line a key is written as. -/
def entryLine (key value : Text) : Text := key ++ bytes " = " ++ value

/-- The lines a section is written as. The one named `Default` has no head. -/
def sectionLines (sec : Text) (keys : Section) : List Text :=
  (if sec = bytes "Default" then [] else [bytes "[" ++ sec ++ bytes "]"])
    ++ keys.toList.map (fun (key, value) => entryLine key value) ++ [[]]

/-- The file a map is written as. -/
def writeData (d : Data) : Text :=
  (d.toList.flatMap fun (sec, keys) => sectionLines sec keys).flatMap (· ++ [0x0A])

/-- **`save`**, to a file that can be written. -/
def Configuration.save (c : Configuration) : Text := writeData c.syncToData.data

end LinApple.Config
