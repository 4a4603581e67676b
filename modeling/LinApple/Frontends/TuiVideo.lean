import LinApple.Lib.Terminal
import LinApple.Lib.Sizes

/-!
# Frames on a terminal

`tui_video_render_frame` writes the cells of a frame that differ from those of the frame before,
and every sixtieth time all of them. It moves the cursor and sets colours only where it has to.
-/

namespace LinApple.Frontends

open Terminal

/-! ## Cells -/

/-- `TuiPixel` -/
structure TuiPixel where
  r : UInt8
  g : UInt8
  b : UInt8
deriving DecidableEq, Repr

/-- `TuiState`: a glyph of at most four bytes in its colours. -/
structure TuiState where
  glyph : Vector UInt8 4
  fg : TuiPixel
  bg : TuiPixel
deriving DecidableEq, Repr

/-- The bytes of a glyph that are written, up to the first zero. -/
abbrev Glyph := List UInt8

/-- What is written of a glyph. -/
def TuiState.text (cell : TuiState) : Glyph := cell.glyph.toList.takeWhile (· ≠ 0)

/-- The colour of a pixel. -/
def TuiPixel.color (p : TuiPixel) : Color := .rgb p.r p.g p.b

/-- A cell as it is to be shown. -/
def TuiState.shown (cell : TuiState) : Cell Glyph := ⟨cell.text, cell.fg.color, cell.bg.color⟩

/-- `empty_cell` -/
def emptyCell : TuiState := ⟨⟨#[0x20, 0, 0, 0], rfl⟩, ⟨0, 0, 0⟩, ⟨0, 0, 0⟩⟩

/-- A buffer, by column and row. -/
abbrev TuiBuffer := Nat × Nat → TuiState

/-! ## A frame -/

/-- What is kept from one frame to the next. -/
structure TuiVideo where
  backBuffer : TuiBuffer
  frameCount : UInt32

/-- What `tui_video_on_resize` leaves. -/
def TuiVideo.onResize (frameCount : UInt32) : TuiVideo := ⟨fun _ => emptyCell, frameCount⟩

/-- What is to be shown: the cells, and whether it is without the status row. -/
structure TuiFrame where
  nextBuffer : TuiBuffer
  fullscreen : Bool

/-- `min_term_height_status` -/
def minTermHeightStatus : Nat := 24

/-- `refresh_full_divisor` -/
def refreshFullDivisor : UInt32 := 60

/-- `show_status` -/
def showStatus (termHeight : Nat) (fullscreen : Bool) : Bool :=
  termHeight > minTermHeightStatus && !fullscreen

/-- The text of the status row. -/
def statusText : String :=
  " LinApple-TUI | F1: Help | F3: D1 | F4: D2 | F5: Swap | F6: Full | F12: Quit "

/-- How many characters the status row has in all, with its escape sequences. -/
def statusLength (termHeight : Nat) : Nat :=
  ("\x1b[" ++ toString termHeight ++ ";1H\x1b[0m\x1b[48;5;240m\x1b[38;5;255m").length
    + statusText.length

/-- The glyphs of the status row, with the blanks behind the text. -/
def statusGlyphs (termWidth termHeight : Nat) : List Glyph :=
  statusText.toList.map (fun c => [c.toUInt8])
    ++ List.replicate (termWidth - 1 - (statusLength termHeight - 10)) [0x20]

/-- What is written for the status row. -/
def statusRow (termWidth termHeight : Nat) : List (Command Glyph) :=
  [.moveTo (0, termHeight - 1), .reset, .setBg (.indexed 240), .setFg (.indexed 255)]
    ++ (statusGlyphs termWidth termHeight).map .put

/-- What the loops of `tui_video_render_frame` carry along. -/
structure Rendering where
  output : List (Command Glyph)
  backBuffer : TuiBuffer
  /-- `cursor_x`, which is `none` where that is -1. -/
  cursorX : Option Nat
  currFg : TuiPixel
  currBg : TuiPixel

/-- The turn of the inner loop for a cell. -/
def renderCell (next : TuiBuffer) (refresh : Bool) (y : Nat) (s : Rendering) (x : Nat) :
    Rendering :=
  let cell := next (x, y)
  if cell ≠ s.backBuffer (x, y) ∨ refresh then
    { output := s.output
        ++ (if s.cursorX = some x then [] else [.moveTo (x, y)])
        ++ (if cell.fg = s.currFg then [] else [.setFg cell.fg.color])
        ++ (if cell.bg = s.currBg then [] else [.setBg cell.bg.color])
        ++ [.put cell.text]
      backBuffer := Function.update s.backBuffer (x, y) cell
      cursorX := some (x + 1)
      currFg := cell.fg
      currBg := cell.bg }
  else s

/-- The columns of a row up to which the inner loop goes: the last one is not written in the
last row. -/
def columns (termWidth termHeight y : Nat) : Nat :=
  if y = termHeight - 1 then termWidth - 1 else termWidth

/-- The turn of the outer loop for a row. -/
def renderRow (termWidth termHeight : Nat) (next : TuiBuffer) (status refresh : Bool)
    (s : Rendering) (y : Nat) : Rendering :=
  if y = termHeight - 1 ∧ status then
    { s with output := s.output ++ statusRow termWidth termHeight }
  else
    (List.range (columns termWidth termHeight y)).foldl (renderCell next refresh y)
      { s with cursorX := none }

/-- The colours that are taken for the first ones. -/
def firstPixel : TuiPixel := ⟨1, 1, 1⟩

/-- The first turns of the outer loop. -/
def renderRows (termWidth termHeight : Nat) (back next : TuiBuffer) (status refresh : Bool)
    (n : Nat) : Rendering :=
  (List.range n).foldl (renderRow termWidth termHeight next status refresh)
    ⟨[.moveTo (0, 0)], back, none, firstPixel, firstPixel⟩

/-- **`tui_video_render_frame`**, from where the cells of the frame are known: what is kept, and
what is written. -/
def tuiVideoRenderFrame (termWidth termHeight : Nat) (video : TuiVideo) (frame : TuiFrame) :
    TuiVideo × List (Command Glyph) :=
  if termWidth ≤ 1 ∨ termHeight ≤ 1 then (video, [])
  else
    let frameCount := video.frameCount + 1
    let s := renderRows termWidth termHeight video.backBuffer frame.nextBuffer
      (showStatus termHeight frame.fullscreen) (frameCount % refreshFullDivisor == 0) termHeight
    (⟨s.backBuffer, frameCount⟩, s.output ++ [.reset])

end LinApple.Frontends
