import LinApple.Harddisk.Controller
import LinApple.Lib.Bytes
import Mathlib.Data.Nat.Bitwise

/-!
# The controller is a block store

Two drives of numbered blocks is what the registers are for: a block holds what was last written
to it. The drives change in one place only, an accepted WRITE (`drives_next`), and what it changes
is the block the registers name (`image_next`); the rest follows along any run, however the guest
left the buffer, the phase and the registers before.

The abstract state is a function from drives and block numbers to bytes, and the abstract
operations are to select a block, to push a block, and to write or read it. On the controller each
of them is a sequence of accesses to registers. So the theorem is about sequences: the three
registers that select the block (`Selects`, which a guest may write in any order), then 512 bytes
to the data register, then the command. What may come between the write and the read is any run
that issues no WRITE to that block of that drive (`IssuesWrite`). Both are conditions on what the
guest does, in each state before it does it.

Nothing is asked of the state of the card before, but that its buffer is not marked as one which a
save state has lost. The guest may have stopped in the middle of a block, for to select a unit is
to begin anew. For reads there is no such condition, as a READ fills the buffer.

The bytes that come back are asked for as what the reads show. The value on the floating bus is an
input of every read, since the registers without a meaning show it; that the data register does
not is part of the statement. The last parts are about what does not happen: a refused command
changes no drive and is answered with an error, and no action touches a byte of the file outside
the blocks.
-/

namespace LinApple.Harddisk

open ByteMap

/-- **What the checks of the controller refuse** when a command is issued:
an unknown command, an empty drive, a protected medium, a block out of
range, a poisoned buffer. -/
def HarddiskPeripheral.Refuses (card : HarddiskPeripheral) (command : UInt8) :
    Prop :=
  command > prodosCmdFormat
    ∨ card.selectedDrive.image = none
    ∨ ((command = prodosCmdWrite ∨ command = prodosCmdFormat)
      ∧ card.selectedDrive.isWriteProtected)
    ∨ ((command = prodosCmdRead ∨ command = prodosCmdWrite)
      ∧ ∃ image ∈ card.selectedDrive.image,
        image.totalBlocks ≤ card.block.toNat)
    ∨ (command = prodosCmdWrite ∧ card.bufferPoisoned)

/-- The action issues a WRITE of a block of a drive. It may be refused or fail all the same; what
is asked about is the command and the registers at that time. -/
def HarddiskPeripheral.IssuesWrite (card : HarddiskPeripheral) (a : Action)
    (drive : Fin 2) (block : Nat) : Prop :=
  ∃ t, a = .write regCommand prodosCmdWrite t ∧ card.selected = drive
    ∧ card.block.toNat = block

/-- **The abstract state**: what a block of a drive holds. -/
def HarddiskPeripheral.contents (card : HarddiskPeripheral) (drive : Fin 2)
    (block : Nat) : Option (List UInt8) :=
  (card.drives drive).image.map (·.contents block)

/-! ## What an action does to the drives -/

section Drives

variable {card : HarddiskPeripheral} {image : BlockDiskImage} {t : Transfer}

theorem drives_withImage : (card.withImage image).drives
    = Function.update card.drives card.selected
      { card.selectedDrive with image := some image } := rfl

theorem drives_pushData (v : UInt8) : (pushData card v).drives = card.drives := by
  rw [pushData]
  split <;> rfl

theorem drives_takeData : (takeData card).2.drives = card.drives := by
  rw [takeData]
  dsimp only
  split <;> rfl

theorem drives_executeRead :
    (executeRead card image t).2.drives = card.drives := by
  rw [executeRead]
  split <;> rfl

theorem drives_executeWrite (hsound : card.bufferPoisoned = false) :
    (executeWrite card image t).2.drives = (card.withImage
      (blockDiskImageWriteBlock image t card.block.toNat card.buffer).2).drives := by
  rw [executeWrite, hsound, if_neg Bool.false_ne_true]
  split
  next h => rw [h]
  next h => rw [h]

theorem executeAdmitted_read (h : card.command = prodosCmdRead) :
    executeAdmitted card image t = executeRead card image t := by
  rw [executeAdmitted, h, if_neg (by decide), if_pos rfl]

theorem executeAdmitted_write (h : card.command = prodosCmdWrite) :
    executeAdmitted card image t = executeWrite card image t := by
  rw [executeAdmitted, h, if_neg (by decide), if_neg (by decide), if_pos rfl]

/-- **A command the checks admit** is executed on the image of the selected
drive. -/
theorem executeCommand_of_not_refuses (h : ¬ card.Refuses card.command) :
    ∃ image, card.selectedDrive.image = some image
      ∧ executeCommand card t = executeAdmitted card image t := by
  simp only [HarddiskPeripheral.Refuses, not_or, not_and] at h
  obtain ⟨hknown, hdevice, hprotected, hrange, -⟩ := h
  obtain ⟨image, himage⟩ := Option.ne_none_iff_exists'.mp hdevice
  refine ⟨image, himage, ?_⟩
  rw [executeCommand, if_neg hknown, himage]
  dsimp only
  rw [if_neg fun hc => hprotected hc.1 hc.2,
    if_neg fun hc => hrange hc.1 ⟨image, himage, hc.2⟩]

/-- **A command the checks refuse** fails and leaves the drives alone. -/
theorem executeCommand_of_refuses (h : card.Refuses card.command) :
    (executeCommand card t).1 ≠ prodosOk
      ∧ (executeCommand card t).2.drives = card.drives := by
  have hio : prodosIoError ≠ prodosOk := by decide
  have hdevice : prodosNoDevice ≠ prodosOk := by decide
  have hprotect : prodosWriteProtected ≠ prodosOk := by decide
  rw [executeCommand]
  split
  · exact ⟨hio, rfl⟩
  next hknown =>
    split
    · exact ⟨hdevice, rfl⟩
    next image himage =>
      dsimp only
      split
      · exact ⟨hprotect, rfl⟩
      next hprotected =>
        split
        · exact ⟨hio, rfl⟩
        next hrange =>
          -- only the poisoned buffer is left
          obtain ⟨hwrite, hpoisoned⟩ : card.command = prodosCmdWrite
              ∧ card.bufferPoisoned = true := by
            obtain h | h | h | ⟨hc, image', himage', hle⟩ | h := h
            · exact absurd h hknown
            · rw [himage] at h
              nomatch h
            · exact absurd h hprotected
            · rw [himage] at himage'
              cases himage'
              exact absurd ⟨hc, hle⟩ hrange
            · exact h
          rw [executeAdmitted_write hwrite, executeWrite, hpoisoned, if_pos rfl]
          exact ⟨hio, rfl⟩

/-- **The drives change in one place**: where a WRITE that the checks admit
is executed. -/
theorem drives_executeCommand :
    (executeCommand card t).2.drives = card.drives
      ∨ (card.command = prodosCmdWrite ∧ ¬ card.Refuses prodosCmdWrite
        ∧ ∃ image, card.selectedDrive.image = some image
          ∧ (executeCommand card t).2.drives = (card.withImage
            (blockDiskImageWriteBlock image t card.block.toNat
              card.buffer).2).drives) := by
  by_cases hrefused : card.Refuses card.command
  · exact .inl (executeCommand_of_refuses hrefused).2
  · obtain ⟨image, himage, hexec⟩ := executeCommand_of_not_refuses
      (t := t) hrefused
    rw [hexec, executeAdmitted]
    split
    · exact .inl rfl
    · split
      · exact .inl drives_executeRead
      · split
        next hwrite =>
          rw [hwrite] at hrefused
          refine .inr ⟨hwrite, hrefused, image, himage, drives_executeWrite ?_⟩
          by_contra hpoisoned
          exact hrefused (.inr (.inr (.inr (.inr ⟨rfl,
            (Bool.not_eq_false _).mp hpoisoned⟩))))
        · split <;> exact .inl rfl

/-- **What an action does to the drives.** -/
theorem drives_next (card : HarddiskPeripheral) (a : Action) :
    (controller.next card a).drives = card.drives
      ∨ ∃ t image, a = .write regCommand prodosCmdWrite t
        ∧ ¬ card.Refuses prodosCmdWrite
        ∧ card.selectedDrive.image = some image
        ∧ (controller.next card a).drives = (card.withImage
          (blockDiskImageWriteBlock image t card.block.toNat
            card.buffer).2).drives := by
  cases a with
  | read reg floating =>
    left
    show (harddiskIoHandlers reg card false 0 floating noTransfer).2.drives = _
    rw [harddiskIoHandlers.eq_def]
    split <;> first | rfl | exact drives_takeData
  | write reg v t =>
    show (harddiskIoHandlers reg card true v 0 t).2.drives = _ ∨ _
    rw [harddiskIoHandlers.eq_def]
    split
    · obtain h | ⟨rfl, hadmits, image, himage, h⟩ :=
        @drives_executeCommand { card with command := v } t
      · exact .inl h
      · exact .inr ⟨t, image, rfl, hadmits, himage, h⟩
    all_goals first | exact .inl rfl | exact .inl (drives_pushData v)
  | reset => exact .inl rfl
  | loadState frame t =>
    left
    show (harddiskAbiLoadState card frame t).2.drives = _
    rw [harddiskAbiLoadState]
    split
    · rfl
    · split <;> rfl

end Drives

/-! ## What an action does to an image -/

section Images

variable {card : HarddiskPeripheral} {drive : Fin 2} {image : BlockDiskImage}

/-- **What an action does to the image of a drive**: its layout stays, a
block changes only where a WRITE of it is issued, and nothing outside the
blocks changes, whether or not the host's calls succeed. -/
theorem image_next (himage : (card.drives drive).image = some image)
    (a : Action) :
    ∃ image', ((controller.next card a).drives drive).image = some image'
      ∧ image.SameLayout image'
      ∧ (∀ block, ¬ card.IssuesWrite a drive block →
        image'.contents block = image.contents block)
      ∧ ∀ x, (x < image.dataOffset
          ∨ image.dataOffset + image.totalBlocks * blockSize ≤ x) →
        image'.file.byte x = image.file.byte x := by
  obtain h | ⟨t, written, rfl, hadmits, hwritten, h⟩ := drives_next card a
  · exact ⟨image, by rw [h, himage], .refl image, fun _ _ => rfl, fun _ _ => rfl⟩
  · rw [h, drives_withImage]
    by_cases hdrive : drive = card.selected
    · subst hdrive
      obtain rfl : written = image := by
        rw [HarddiskPeripheral.selectedDrive, himage] at hwritten
        exact (Option.some.inj hwritten).symm
      refine ⟨_, by rw [Function.update_self], sameLayout_writeBlock,
        fun block hissues => contents_writeBlock_of_ne ?_, fun x hx => ?_⟩
      · rintro rfl
        exact hissues ⟨t, rfl, rfl, rfl⟩
      · -- the block is in range, so its bytes lie in the data area
        have hblock : card.block.toNat < written.totalBlocks := by
          by_contra hrange
          exact hadmits (.inr (.inr (.inr (.inl ⟨.inr rfl, written, hwritten,
            Nat.not_lt.mp hrange⟩))))
        refine byte_writeBlock fun i hi heq => ?_
        obtain ⟨hlo, hhi⟩ := blockAddress_bounds written hblock hi
        omega
    · refine ⟨image, ?_, .refl image, fun _ _ => rfl, fun _ _ => rfl⟩
      rw [Function.update_of_ne hdrive, himage]

/-- **A block keeps its contents** over any run that issues no WRITE of
it. -/
theorem contents_run {as : List Action} {block : Nat}
    (himage : (card.drives drive).image = some image)
    (has : controller.Admits
      (fun card a _ => ¬ card.IssuesWrite a drive block) card as) :
    ∃ image', ((controller.run card as).drives drive).image = some image'
      ∧ image.SameLayout image'
      ∧ image'.contents block = image.contents block := by
  refine controller.invariant_run (I := fun card => ∃ image',
    (card.drives drive).image = some image' ∧ image.SameLayout image'
      ∧ image'.contents block = image.contents block) ?_
    ⟨image, himage, .refl image, rfl⟩ has
  rintro card a - ⟨image', himage', hlayout, hcontents⟩ hissues
  obtain ⟨image'', himage'', hlayout', hkept, -⟩ := image_next himage' a
  exact ⟨image'', himage'', hlayout.trans hlayout',
    (hkept block hissues).trans hcontents⟩

/-- **Nothing outside the data area changes**, over any run at all. -/
theorem byte_run (himage : (card.drives drive).image = some image)
    (as : List Action) :
    ∃ image', ((controller.run card as).drives drive).image = some image'
      ∧ image.SameLayout image'
      ∧ ∀ x, (x < image.dataOffset
          ∨ image.dataOffset + image.totalBlocks * blockSize ≤ x) →
        image'.file.byte x = image.file.byte x := by
  refine controller.invariant_run_of_forall (I := fun card => ∃ image',
    (card.drives drive).image = some image' ∧ image.SameLayout image'
      ∧ ∀ x, (x < image.dataOffset
          ∨ image.dataOffset + image.totalBlocks * blockSize ≤ x) →
        image'.file.byte x = image.file.byte x) ?_
    ⟨image, himage, .refl image, fun _ _ => rfl⟩ as
  rintro card a ⟨image', himage', hlayout, hbytes⟩
  obtain ⟨image'', himage'', hlayout', -, hkept⟩ := image_next himage' a
  refine ⟨image'', himage'', hlayout.trans hlayout', fun x hx => ?_⟩
  refine (hkept x ?_).trans (hbytes x hx)
  rwa [hlayout.dataOffset_eq, hlayout.totalBlocks_eq]

end Images

/-! ## Selecting a block -/

section Select

/-- The writes that select a unit and a block, in the firmware's order. -/
def select (unit low high : UInt8) (t : Transfer) : List Action :=
  [.write regUnit unit t, .write regBlockLow low t,
    .write regBlockHigh high t]

/-- **A selection of a block of a drive**: the unit and the two bytes of the
block's number are written, in any order. -/
def Selects (drive : Fin 2) (block : UInt16) (sel : List Action) : Prop :=
  ∃ unit low high t, driveOfUnit unit = drive
    ∧ high.toNat * 256 + low.toNat = block.toNat
    ∧ sel.Perm (select unit low high t)

/-- The low byte is written over the low byte. -/
theorem low_of_low (b : UInt16) (low : UInt8) :
    ((b &&& (0xFF00 : UInt16)) ||| low.toUInt16) &&& (0x00FF : UInt16)
      = low.toUInt16 := by
  have hhigh : ∀ i (h : i < 16), (0xFF00#16)[i] = decide (8 ≤ i) := by decide
  have hlow : ∀ i (h : i < 16), (0x00FF#16)[i] = decide (i < 8) := by decide
  rw [← UInt16.toBitVec_inj]
  ext i hi
  simp [hhigh, hlow]
  grind

/-- The high byte is written over the high byte. -/
theorem high_of_high (b : UInt16) (high : UInt8) :
    ((b &&& (0x00FF : UInt16)) ||| high.toUInt16 <<< 8) &&& (0xFF00 : UInt16)
      = high.toUInt16 <<< 8 := by
  have hhigh : ∀ i (h : i < 16), (0xFF00#16)[i] = decide (8 ≤ i) := by decide
  have hlow : ∀ i (h : i < 16), (0x00FF#16)[i] = decide (i < 8) := by decide
  rw [← UInt16.toBitVec_inj]
  ext i hi
  simp [hhigh, hlow]
  grind

section Writes

variable (card : HarddiskPeripheral) (v : UInt8) (t : Transfer)

theorem ioWrite_unit : ioWrite card regUnit v t
    = endDataPhase { card with unit := v, dataIndex := 0 } := rfl

theorem ioWrite_blockLow : ioWrite card regBlockLow v t
    = { card with block := (card.block &&& (0xFF00 : UInt16)) ||| v.toUInt16 } :=
  rfl

theorem ioWrite_blockHigh : ioWrite card regBlockHigh v t
    = { card with
        block := (card.block &&& (0x00FF : UInt16)) ||| (v.toUInt16 <<< 8) } :=
  rfl

end Writes

/-- The writes of a selection commute. -/
theorem select_comm (unit low high : UInt8) (t : Transfer) :
    ∀ a ∈ select unit low high t, ∀ b ∈ select unit low high t, ∀ card,
      controller.next (controller.next card a) b
        = controller.next (controller.next card b) a := by
  have hblock : ∀ card : HarddiskPeripheral,
      ioWrite (ioWrite card regBlockLow low t) regBlockHigh high t
        = ioWrite (ioWrite card regBlockHigh high t) regBlockLow low t := by
    intro card
    rw [ioWrite_blockLow, ioWrite_blockHigh, ioWrite_blockHigh,
      ioWrite_blockLow]
    dsimp only
    rw [low_of_low, high_of_high, UInt16.or_comm]
  intro a ha b hb card
  simp only [select, List.mem_cons, List.not_mem_nil, or_false] at ha hb
  obtain rfl | rfl | rfl := ha <;> obtain rfl | rfl | rfl := hb
  all_goals first | rfl | exact hblock card | exact (hblock card).symm

/-- The card with a unit and a block selected. -/
def HarddiskPeripheral.selecting (card : HarddiskPeripheral) (unit : UInt8)
    (block : UInt16) : HarddiskPeripheral :=
  { endDataPhase card with unit, block, dataIndex := 0 }

/-- **Selecting** leaves the card with the buffer's index at its start,
whatever was under way. -/
theorem run_selects {drive : Fin 2} {block : UInt16} {sel : List Action}
    (h : Selects drive block sel) (card : HarddiskPeripheral) :
    ∃ unit, driveOfUnit unit = drive
      ∧ controller.run card sel = card.selecting unit block := by
  obtain ⟨unit, low, high, t, hunit, hblock, hperm⟩ := h
  refine ⟨unit, hunit, ?_⟩
  rw [controller.run_perm hperm fun a ha b hb => select_comm unit low high t a
    (hperm.mem_iff.mp ha) b (hperm.mem_iff.mp hb)]
  show ioWrite (ioWrite (ioWrite card regUnit unit t) regBlockLow low t)
    regBlockHigh high t = _
  rw [ioWrite_unit, ioWrite_blockLow, ioWrite_blockHigh]
  dsimp only
  rw [low_of_low, show low.toUInt16 ||| high.toUInt16 <<< 8 = block from
    UInt16.toNat_inj.mp ((Byte.toNat_word low high).trans hblock)]
  rfl

end Select

/-! ## Filling and draining the buffer -/

section Transfers

variable (t : Transfer)

/-- The bytes are pushed, one after another. -/
def pushes (data : List UInt8) : List Action :=
  data.map fun v => .write regData v t

/-- Bytes are taken, one for each byte of the floating bus. -/
def takes (floats : List UInt8) : List Action :=
  floats.map fun floating => .read regData floating

/-- The index moves on, as long as there is room. -/
theorem dataIndex_succ {i : Fin blockSize} {n : Nat}
    (h : i.val + (n + 1 + 1) ≤ blockSize) : (i + 1).val = i.val + 1 := by
  rw [Fin.val_add]
  exact Nat.mod_eq_of_lt (by
    show i.val + 1 < blockSize
    omega)

/-- **Bytes pushed** lie in the buffer from the index on; only the index,
the phase and the activity light change besides. -/
theorem run_pushes {data : List UInt8} (card : HarddiskPeripheral)
    (hroom : card.dataIndex.val + data.length ≤ blockSize) :
    ∃ dataIndex dataPhase activity, controller.run card (pushes t data)
      = { card with
          buffer := pokes card.buffer card.dataIndex.val data
          dataIndex, dataPhase, activity } := by
  induction data generalizing card with
  | nil => exact ⟨_, _, _, by rw [pokes_nil]; rfl⟩
  | cons v data ih =>
    have hpush : ∃ dataPhase activity, pushData card v = { card with
        buffer := pokes card.buffer card.dataIndex.val [v]
        dataIndex := card.dataIndex + 1
        dataPhase, activity } := by
      rw [pokes_singleton, pushData]
      split <;> exact ⟨_, _, rfl⟩
    obtain ⟨dataPhase, activity, hpush⟩ := hpush
    show ∃ _ _ _, controller.run (pushData card v) (pushes t data) = _
    rw [hpush]
    cases data with
    | nil => exact ⟨_, _, _, rfl⟩
    | cons w data =>
      have hsucc := dataIndex_succ hroom
      obtain ⟨dataIndex, dataPhase', activity', hrun⟩ := ih { card with
        buffer := pokes card.buffer card.dataIndex.val [v]
        dataIndex := card.dataIndex + 1
        dataPhase, activity } (by
          rw [hsucc]
          rw [List.length_cons] at hroom
          omega)
      refine ⟨dataIndex, dataPhase', activity', hrun.trans ?_⟩
      have hcons : v :: w :: data = [v] ++ w :: data := rfl
      dsimp only
      rw [hsucc, hcons, pokes_append, List.length_singleton]

/-- **Bytes taken** are those of the buffer from the index on. -/
theorem shows_takes {floats : List UInt8} (card : HarddiskPeripheral)
    (hroom : card.dataIndex.val + floats.length ≤ blockSize) :
    controller.shows card (takes floats)
      = peeks card.buffer card.dataIndex.val floats.length := by
  induction floats generalizing card with
  | nil => rfl
  | cons floating floats ih =>
    have htake : (takeData card).2.buffer = card.buffer
        ∧ (takeData card).2.dataIndex = card.dataIndex + 1 := by
      rw [takeData]
      dsimp only
      split <;> exact ⟨rfl, rfl⟩
    show card.buffer card.dataIndex
      :: controller.shows (takeData card).2 (takes floats) = _
    rw [List.length_cons, peeks_succ]
    congr 1
    cases floats with
    | nil => rfl
    | cons floating floats =>
      have hsucc := dataIndex_succ hroom
      rw [ih _ (by
        rw [htake.2, hsucc]
        rw [List.length_cons] at hroom
        omega), htake.1, htake.2, hsucc]

end Transfers

/-! ## Commands that go through -/

section Commands

variable {card : HarddiskPeripheral} {image : BlockDiskImage} {t : Transfer}

/-- A command is executed when it is written. -/
theorem ioWrite_command (command : UInt8) :
    ioWrite card regCommand command t
      = { (executeCommand { card with command := command } t).2 with
          result := (executeCommand { card with command := command } t).1 } :=
  rfl

/-- A READ of a block in range goes through the checks. -/
theorem not_refuses_read (himage : card.selectedDrive.image = some image)
    (hblock : card.block.toNat < image.totalBlocks) :
    ¬ card.Refuses prodosCmdRead := by
  rintro (h | h | ⟨h, -⟩ | ⟨-, image', himage', h⟩ | ⟨h, -⟩)
  · exact absurd h (by decide)
  · rw [himage] at h
    nomatch h
  · exact absurd h (by decide)
  · rw [himage] at himage'
    cases himage'
    exact Nat.not_lt.mpr h hblock
  · exact absurd h (by decide)

/-- A WRITE of a block in range of a medium that is not protected goes
through the checks, unless the buffer is poisoned. -/
theorem not_refuses_write (himage : card.selectedDrive.image = some image)
    (hblock : card.block.toNat < image.totalBlocks)
    (hwritable : card.selectedDrive.isWriteProtected = false)
    (hsound : card.bufferPoisoned = false) :
    ¬ card.Refuses prodosCmdWrite := by
  rintro (h | h | ⟨-, h⟩ | ⟨-, image', himage', h⟩ | ⟨-, h⟩)
  · exact absurd h (by decide)
  · rw [himage] at h
    nomatch h
  · rw [hwritable] at h
    nomatch h
  · rw [himage] at himage'
    cases himage'
    exact Nat.not_lt.mpr h hblock
  · rw [hsound] at h
    nomatch h

/-- **A READ that goes through** leaves the block in the buffer, to be taken
from its start. -/
theorem ioWrite_read (himage : card.selectedDrive.image = some image)
    (hblock : card.block.toNat < image.totalBlocks) (ht : t.Succeeds) :
    (ioWrite card regCommand prodosCmdRead t).dataIndex = 0
      ∧ peeks (ioWrite card regCommand prodosCmdRead t).buffer 0 blockSize
        = image.contents card.block.toNat := by
  obtain ⟨image', himage', hexec⟩ := @executeCommand_of_not_refuses
    { card with command := prodosCmdRead } t
    (not_refuses_read himage hblock)
  obtain rfl : image' = image := Option.some.inj (himage'.symm.trans himage)
  obtain ⟨hnone, hbuffer⟩ := @readBlock_succeeds _ _ _ card.buffer ht hblock
  rw [ioWrite_command, hexec, executeAdmitted_read rfl, executeRead]
  split
  next buffer h =>
    rw [h] at hbuffer
    exact ⟨rfl, hbuffer⟩
  next error buffer herror h =>
    rw [h] at hnone
    exact absurd hnone herror

/-- **A WRITE that goes through** stores the buffer. -/
theorem ioWrite_write (himage : card.selectedDrive.image = some image)
    (hblock : card.block.toNat < image.totalBlocks)
    (hwritable : card.selectedDrive.isWriteProtected = false)
    (hsound : card.bufferPoisoned = false) (ht : t.Succeeds) :
    (ioWrite card regCommand prodosCmdWrite t).result = prodosOk
      ∧ ((ioWrite card regCommand prodosCmdWrite t).drives card.selected).image
        = some (blockDiskImageWriteBlock image t card.block.toNat
          card.buffer).2 := by
  obtain ⟨image', himage', hexec⟩ := @executeCommand_of_not_refuses
    { card with command := prodosCmdWrite } t
    (not_refuses_write himage hblock hwritable hsound)
  obtain rfl : image' = image := Option.some.inj (himage'.symm.trans himage)
  have hhost : image'.hostReadOnly = false := by
    rw [HarddiskDrive.isWriteProtected, himage, Bool.or_eq_false_iff] at hwritable
    exact hwritable.2
  obtain ⟨hnone, -⟩ := @writeBlock_succeeds _ _ _ card.buffer ht hhost hblock
  rw [ioWrite_command, hexec, executeAdmitted_write rfl]
  constructor
  · dsimp only
    rw [executeWrite, hsound, if_neg Bool.false_ne_true]
    split
    · rfl
    next error written herror h =>
      rw [h] at hnone
      exact absurd hnone herror
  · show ((executeWrite { card with command := prodosCmdWrite } image' t).2.drives
      card.selected).image = _
    rw [@drives_executeWrite { card with command := prodosCmdWrite } _ _
      hsound, drives_withImage]
    show HarddiskDrive.image (Function.update card.drives card.selected _
      card.selected) = _
    rw [Function.update_self]

end Commands

/-! ## The block store -/

section BlockStore

variable {card : HarddiskPeripheral} {drive : Fin 2} {image : BlockDiskImage}
  {block : UInt16} {sel : List Action} {data : List UInt8} {t t' : Transfer}

/-- **A WRITE stores the bytes pushed**: a selection, the bytes, the
command. -/
theorem write_stores (himage : (card.drives drive).image = some image)
    (hblock : block.toNat < image.totalBlocks)
    (hwritable : (card.drives drive).isWriteProtected = false)
    (hsound : card.bufferPoisoned = false) (hsel : Selects drive block sel)
    (hdata : data.length = blockSize) (ht : t.Succeeds) :
    let card' := controller.run card
      (sel ++ (pushes t' data ++ [.write regCommand prodosCmdWrite t]))
    card'.result = prodosOk ∧ ∃ image', (card'.drives drive).image = some image'
      ∧ image.SameLayout image' ∧ image'.contents block.toNat = data := by
  intro card'
  obtain ⟨unit, rfl, hselect⟩ := run_selects hsel card
  have hroom : (card.selecting unit block).dataIndex.val + data.length
      ≤ blockSize := by
    rw [hdata]
    exact Nat.le_of_eq (Nat.zero_add _)
  -- after a select the index stands at 0, so 512 bytes fill the buffer and leave nothing of the old
  obtain ⟨dataIndex, dataPhase, activity, hpush⟩ := run_pushes t' _ hroom
  have hcard' : card' = ioWrite (controller.run (card.selecting unit block)
      (pushes t' data)) regCommand prodosCmdWrite t := by
    show controller.run card _ = _
    rw [controller.run_append, controller.run_append, hselect]
    rfl
  rw [hcard', hpush]
  obtain ⟨hresult, hwritten⟩ := @ioWrite_write
    { card.selecting unit block with
      buffer := pokes (card.selecting unit block).buffer 0 data
      dataIndex, dataPhase, activity } _ t
    himage hblock hwritable hsound ht
  refine ⟨hresult, _, hwritten, sameLayout_writeBlock, ?_⟩
  have hhost : image.hostReadOnly = false := by
    rw [HarddiskDrive.isWriteProtected, himage, Bool.or_eq_false_iff] at hwritable
    exact hwritable.2
  refine (writeBlock_succeeds ht hhost hblock).2.trans ?_
  show peeks (pokes card.buffer 0 data) 0 blockSize = data
  rw [← hdata]
  exact holds_iff_peeks.mp (holds_pokes _ _ 0)

/-- **A READ returns the block**: a selection, the command, and the bytes
are there to be taken. -/
theorem read_returns (himage : (card.drives drive).image = some image)
    (hblock : block.toNat < image.totalBlocks) (hsel : Selects drive block sel)
    (ht : t.Succeeds) {floats : List UInt8} (hfloats : floats.length = blockSize) :
    controller.shows (controller.run card
        (sel ++ [.write regCommand prodosCmdRead t])) (takes floats)
      = image.contents block.toNat := by
  obtain ⟨unit, rfl, hselect⟩ := run_selects hsel card
  rw [controller.run_append, hselect]
  show controller.shows (ioWrite (card.selecting unit block) regCommand
    prodosCmdRead t) (takes floats) = _
  obtain ⟨hindex, hbuffer⟩ := @ioWrite_read (card.selecting unit block) _ _
    himage hblock ht
  rw [shows_takes _ (by rw [hindex, hfloats]; exact Nat.le_of_eq (Nat.zero_add _)),
    hindex, hfloats]
  exact hbuffer

/-- A command that is refused leaves the drives as they are. -/
theorem refused_drives {command : UInt8} (h : card.Refuses command)
    (t : Transfer) :
    (ioWrite card regCommand command t).result ≠ prodosOk
      ∧ (ioWrite card regCommand command t).drives = card.drives :=
  @executeCommand_of_refuses { card with command := command } _ h

end BlockStore

/-- **The controller is a block store**, whatever the guest did to the card
before: for an image of either layout in one of its drives,

* a selection of a block in range, 512 bytes and a WRITE that goes through
  store the bytes, and after any run that issues no other WRITE of the
  block, a selection, a READ and 512 data reads return them;
* after any run that issues no WRITE of a block, they return what it held
  before;
* a command the checks refuse fails and changes neither drive;
* no action changes a block other than by a WRITE of it, or a byte outside
  the blocks, however the host answers. -/
theorem controller_blockStore (card : HarddiskPeripheral) (drive : Fin 2)
    (image : BlockDiskImage)
    (himage : (card.drives drive).image = some image) :
    (∀ block sel data t t', block.toNat < image.totalBlocks →
      (card.drives drive).isWriteProtected = false →
      card.bufferPoisoned = false → Selects drive block sel →
      data.length = blockSize → t.Succeeds →
      ∀ as sel' t'' floats, controller.Admits
        (fun card a _ => ¬ card.IssuesWrite a drive block.toNat)
        (controller.run card
          (sel ++ (pushes t' data ++ [.write regCommand prodosCmdWrite t]))) as →
      Selects drive block sel' → t''.Succeeds → floats.length = blockSize →
      (controller.run card (sel ++ (pushes t' data
          ++ [.write regCommand prodosCmdWrite t]))).contents drive block.toNat
        = some data
      ∧ controller.shows (controller.run (controller.run (controller.run card
          (sel ++ (pushes t' data ++ [.write regCommand prodosCmdWrite t]))) as)
          (sel' ++ [.write regCommand prodosCmdRead t''])) (takes floats)
        = data)
    ∧ (∀ block as sel t floats, block.toNat < image.totalBlocks →
      controller.Admits (fun card a _ =>
        ¬ card.IssuesWrite a drive block.toNat) card as →
      Selects drive block sel → t.Succeeds → floats.length = blockSize →
      controller.shows (controller.run (controller.run card as)
          (sel ++ [.write regCommand prodosCmdRead t])) (takes floats)
        = image.contents block.toNat)
    ∧ (∀ command t, card.Refuses command →
      (ioWrite card regCommand command t).result ≠ prodosOk
        ∧ (ioWrite card regCommand command t).drives = card.drives)
    ∧ ∀ a, ∃ image', ((controller.next card a).drives drive).image = some image'
      ∧ image.SameLayout image'
      ∧ (∀ block, ¬ card.IssuesWrite a drive block →
        image'.contents block = image.contents block)
      ∧ ∀ x, (x < image.dataOffset
          ∨ image.dataOffset + image.totalBlocks * blockSize ≤ x) →
        image'.file.byte x = image.file.byte x := by
  -- the write stores, any run without a write of that block keeps, and the read returns
  refine ⟨?_, ?_, fun command t h => refused_drives h t, image_next himage⟩
  · intro block sel data t t' hblock hwritable hsound hsel hdata ht as sel' t''
      floats has hsel' ht'' hfloats
    obtain ⟨-, image', himage', hlayout, hdata'⟩ := @write_stores _ _ _ _ _ _ _ t'
      himage hblock hwritable hsound hsel hdata ht
    obtain ⟨image'', himage'', hlayout', hkept⟩ := contents_run himage' has
    refine ⟨?_, ?_⟩
    · rw [HarddiskPeripheral.contents, himage', Option.map_some, hdata']
    · rw [read_returns himage'' ?_ hsel' ht'' hfloats, hkept, hdata']
      rwa [hlayout'.totalBlocks_eq, hlayout.totalBlocks_eq]
  · intro block as sel t floats hblock has hsel ht hfloats
    obtain ⟨image', himage', hlayout, hkept⟩ := contents_run himage has
    rw [read_returns himage' ?_ hsel ht hfloats, hkept]
    rwa [hlayout.totalBlocks_eq]

/-- A disk of one block, all zeros, in ProDOS order. -/
def oneBlockImage : BlockDiskImage :=
  ⟨⟨512, fun _ => 0⟩, 0, 1, false, .prodos, by decide, by decide⟩

/-- A card in power-on state with the disk of one block in its first
drive. -/
def oneBlockCard : HarddiskPeripheral :=
  ⟨fun drive => ⟨if drive = 0 then some oneBlockImage else none, false⟩,
    fun _ => 0, 0, 0, 0, 0, 0, 0, .idle, false, false⟩

/-- A transfer in which the host does everything. -/
def fullTransfer : Transfer := ⟨fun _ => ⟨true, 512⟩, true⟩

/-- A block of sevens is written and read back. -/
theorem controller_blockStore_oneBlock :
    controller.shows (controller.run (controller.run (controller.run oneBlockCard
        (select 0 0 0 fullTransfer ++ (pushes fullTransfer (List.replicate 512 7)
          ++ [.write regCommand prodosCmdWrite fullTransfer]))) [])
        (select 0 0 0 fullTransfer
          ++ [.write regCommand prodosCmdRead fullTransfer]))
        (takes (List.replicate 512 0))
      = List.replicate 512 7 := by
  have hsel : Selects 0 0 (select 0 0 0 fullTransfer) :=
    ⟨0, 0, 0, fullTransfer, rfl, rfl, .refl _⟩
  have ht : fullTransfer.Succeeds := ⟨fun _ => ⟨rfl, Nat.le_refl _⟩, rfl⟩
  exact ((controller_blockStore oneBlockCard 0 oneBlockImage rfl).1 0 _ _ _
    fullTransfer (by decide) rfl rfl hsel (List.length_replicate) ht [] _ _ _
    trivial hsel ht (List.length_replicate)).2

end LinApple.Harddisk
