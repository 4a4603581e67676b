import LinApple.Lib.Machine
import LinApple.Video.Cells

/-!
# Refreshing the screen

A refresh draws the cells in the mode the switches are in, and copies what
it has drawn from: the text page always, the hi-res page in high resolution,
and of auxiliary memory one page, where the modes of 80 columns and the
double modes each have theirs. A soft switch that changes the picture draws
all of it at once.
-/

namespace LinApple.Video

/-! ## A frame -/

/-- `UpdateFunc`, the renderer of a cell. -/
inductive UpdateFunc where
  | text40
  | text80
  | lores
  | dlores
  | hires
  | dhires
deriving DecidableEq, Repr

/-- A renderer is called. -/
def UpdateFunc.run (cfg : VideoConfig) (r : Refresh) (f : UpdateFunc)
    (x xpixel ypixel offset : Nat) : Bitmap → Bitmap × Bool :=
  match f with
  | .text40 => update40colCell cfg r xpixel ypixel offset
  | .text80 => update80colCell cfg r xpixel ypixel offset
  | .lores => updateLoresCell cfg r x xpixel ypixel offset
  | .dlores => updateDloresCell cfg r x xpixel ypixel offset
  | .hires => updateHiresCell cfg r x xpixel ypixel offset
  | .dhires => updateDhiresCell cfg r x xpixel ypixel offset

namespace VideoMode

variable (m : VideoMode)

/-- The renderer of text. -/
def updateText : UpdateFunc := if m.col80 then .text80 else .text40

/-- The renderer of the upper rows. -/
def update : UpdateFunc :=
  if m.text then m.updateText
  else if m.hires then if m.dhires && m.col80 then .dhires else .hires
  else if m.dhires && m.col80 then .dlores else .lores

/-- The renderer of a row: the last four are text in a mixed mode. -/
def updateAt (y : Nat) : UpdateFunc := if 20 ≤ y ∧ m.mixed then m.updateText else m.update

/-- Whether text is shown. -/
def showsText : Bool := m.text || m.mixed

/-- What of the mode decides the picture: `~(VF_MASK2 | VF_PAGE2)`. -/
def picture : VideoMode := { m with mask2 := false, page2 := false }

end VideoMode

/-- The offset of a row's first cell. -/
def rowOffset (y : Nat) : Nat := ((y &&& 7) <<< 7) + (y >>> 3) * 40

/-- The cells of one row are drawn where they have changed. -/
def updateRow (cfg : VideoConfig) (r : Refresh) (y : Nat) (acc : Bitmap × Bool) :
    Bitmap × Bool :=
  (List.range 40).foldl
    (fun (b, anydirty) x =>
      let (b, updated) :=
        (r.mode.updateAt y).run cfg r x (14 * x) (16 * y) (rowOffset y + x) b
      (b, anydirty || updated)) acc

/-- **The cells of the screen are drawn** where they have changed. -/
def updateRows (cfg : VideoConfig) (r : Refresh) (acc : Bitmap × Bool) : Bitmap × Bool :=
  (List.range 24).foldl (fun acc y => updateRow cfg r y acc) acc

/-- `memcpy` of `n` bytes to an offset of a buffer. -/
def memcpy (dst : Nat) (src : Nat → UInt8) (n : Nat) (last : Nat → UInt8) : Nat → UInt8 :=
  fun a => if dst ≤ a ∧ a < dst + n then src (a - dst) else last a

/-- `set_last_drawn_image`, less the dirty marks it clears. -/
def setLastDrawnImage (s : Screen) (last : Nat → UInt8) : Nat → UInt8 :=
  let last := memcpy 0x400 s.textBank0 0x400 last
  let last := if s.mode.hires then memcpy 0x2000 s.hiresBank0 0x2000 last else last
  if s.mode.dhires && s.mode.hires then memcpy 0 s.hiresBank1 0x2000 last
  else if s.mode.col80 then memcpy 0 s.textBank1 0x400 last
  else last

namespace VideoState

variable (cfg : VideoConfig) (memory : DisplayMemory) (s : VideoState)

/-- What a refresh draws from now. -/
def screen : Screen where
  mode := s.videoMode
  textBank0 := memory.text false s.displaypage2
  textBank1 := memory.text true s.displaypage2
  hiresBank0 := memory.hires false s.displaypage2
  hiresBank1 := memory.hires true s.displaypage2
  altCharSet := s.altCharSet
  textFlashState := s.textFlashState

/-- What a refresh knows when it begins. -/
def beginRefresh : Refresh where
  toScreen := s.screen memory
  vidlastmem := s.vidlastmem
  redrawfull := s.redrawfull
  textFlashFlag := s.textFlashFlag

/-- **The frame a refresh draws**, and whether anything was dirty. -/
def frame : Bitmap × Bool :=
  updateRows cfg (s.beginRefresh memory) (s.bitmap, s.redrawfull || s.textFlashFlag)

/-- The frame a refresh draws with `redrawfull` set. -/
def fullFrame : Bitmap := (({ s with redrawfull := true }).frame cfg memory).1

/-- **`video_perform_refresh`**, on one thread and outside the debugger. -/
def videoPerformRefresh : VideoState :=
  let r := s.frame cfg memory
  { s with
    bitmap := r.1
    textFlashFlag := if r.2 then false else s.textFlashFlag
    vidlastmem := setLastDrawnImage (s.screen memory) s.vidlastmem
    redrawfull := false
    frames := s.frames ++ [(r.1, s.fullFrame cfg memory)] }

/-- The bitmap after a refresh is its frame. -/
theorem bitmap_videoPerformRefresh :
    (s.videoPerformRefresh cfg memory).bitmap = (s.frame cfg memory).1 := by
  simp only [videoPerformRefresh]

/-- A refresh adds one frame. -/
theorem frames_videoPerformRefresh :
    (s.videoPerformRefresh cfg memory).frames
      = s.frames ++ [((s.frame cfg memory).1, s.fullFrame cfg memory)] := by
  simp only [videoPerformRefresh]

/-! ## The switches -/

/-- What a soft switch does to `video_mode`; `addr` is the low byte of its
address. The switches without a guard are in every machine. -/
def switchVideo (ty : Apple2Type) (m : VideoMode) (addr : Nat) : VideoMode :=
  let m := match addr with
    | 0x00 => { m with mask2 := false }
    | 0x01 => { m with mask2 := true }
    | 0x0C => if ty.isApple2 then m else { m with col80 := false }
    | 0x0D => if ty.isApple2 then m else { m with col80 := true }
    | 0x50 => { m with text := false }
    | 0x51 => { m with text := true }
    | 0x52 => { m with mixed := false }
    | 0x53 => { m with mixed := true }
    | 0x54 => { m with page2 := false }
    | 0x55 => { m with page2 := true }
    | 0x56 => { m with hires := false }
    | 0x57 => { m with hires := true }
    | 0x5E => if ty.isApple2 then m else { m with dhires := true }
    | 0x5F => if ty.isApple2 then m else { m with dhires := false }
    | _ => m
  if m.mask2 then { m with page2 := false } else m

/-- What a soft switch does to `alt_char_set_offset`. -/
def switchAltCharSet (ty : Apple2Type) (alt : Bool) (addr : Nat) : Bool :=
  if ty.isApple2 then alt
  else
    match addr with
    | 0x0E => false
    | 0x0F => true
    | _ => alt

/-- **`video_set_mode`**, less the byte it answers with. The two parts of
`oldvalue` do not overlap, so their sum changes when either does. -/
def videoSetMode (ty : Apple2Type) (address : UInt16) : VideoState :=
  let addr := address.toNat % 0x100
  let t := { s with
    videoMode := switchVideo ty s.videoMode addr
    altCharSet := switchAltCharSet ty s.altCharSet addr }
  let t :=
    if (s.altCharSet, s.videoMode.picture) ≠ (t.altCharSet, t.videoMode.picture) then
      videoPerformRefresh cfg memory
        { t with graphicsmode := !t.videoMode.text, redrawfull := true }
    else t
  if t.displaypage2 ≠ t.videoMode.page2 then
    videoPerformRefresh cfg memory
      { t with displaypage2 := t.videoMode.page2, redrawfull := true }
  else t

/-- `video_reset_state` -/
def videoResetState : VideoState :=
  { s with
    altCharSet := false
    displaypage2 := false
    videoMode := VideoMode.initial
    textFlashState := false
    textFlashFlag := false
    textFlashCnt := 0
    redrawfull := true }

/-- `video_update_flash` -/
def videoUpdateFlash : VideoState :=
  let cnt := s.textFlashCnt + 1
  if cnt = 60 / 6 then
    { s with
      textFlashCnt := 0
      textFlashState := !s.textFlashState
      textFlashFlag := if s.videoMode.showsText then true else s.textFlashFlag }
  else { s with textFlashCnt := cnt }

end VideoState

/-! ## Runs -/

/-- A byte of the display memory is written. -/
def DisplayMemory.write (memory : DisplayMemory) (hires aux page2 : Bool) (o : Nat)
    (v : UInt8) : DisplayMemory :=
  if hires then
    { memory with hires := fun a p i =>
        if a = aux ∧ p = page2 ∧ i = o then v else memory.hires a p i }
  else
    { memory with text := fun a p i =>
        if a = aux ∧ p = page2 ∧ i = o then v else memory.text a p i }

/-- What happens to the display. A write is given by the page and the offset it goes to, for the
renderer reads the pages and knows nothing of where the processor sees them. -/
inductive DisplayOp where
  /-- A write to a page of the display memory. -/
  | write (hires aux page2 : Bool) (o : Nat) (v : UInt8)
  /-- An access of a soft switch. -/
  | access (addr : UInt16)
  /-- `video_update_flash` -/
  | flash
  /-- `video_perform_refresh` -/
  | refresh
deriving DecidableEq, Repr

/-- The video and what it shows. -/
structure Display where
  /-- The video. -/
  video : VideoState
  /-- The display memory. -/
  memory : DisplayMemory

/-- One step. -/
def Display.step (ty : Apple2Type) (cfg : VideoConfig) (d : Display) : DisplayOp → Display
  | .write hires aux page2 o v => { d with memory := d.memory.write hires aux page2 o v }
  | .access addr => { d with video := d.video.videoSetMode cfg d.memory ty addr }
  | .flash => { d with video := d.video.videoUpdateFlash }
  | .refresh => { d with video := d.video.videoPerformRefresh cfg d.memory }

/-- A video that has drawn nothing yet. -/
def VideoState.blank : VideoState where
  videoMode := VideoMode.initial
  altCharSet := false
  displaypage2 := false
  graphicsmode := false
  textFlashState := false
  textFlashFlag := false
  textFlashCnt := 0
  redrawfull := true
  vidlastmem := fun _ => 0
  bitmap := fun _ => 0
  frames := []

/-- **The display as a machine.** -/
def displayMachine (ty : Apple2Type) (cfg : VideoConfig) :
    Machine Display DisplayOp Unit where
  next := Display.step ty cfg
  out _ _ := none

end LinApple.Video
