import LinApple.Memory.Snapshot
import LinApple.Video.Refresh
import Mathlib.Data.Fintype.Basic
import Mathlib.Tactic.FinCases

/-!
# The switches that memory and video share

The 80STORE, HIRES and PAGE2 switches steer both what the processor reaches and what the scanner
shows, and each half keeps them for itself: the memory in `mem_mode`, the video in `video_mode`,
where it forgets PAGE2 as long as 80STORE is on. The two halves hear of an access together. They
do not hear of a reset together, and 80STORE going off does not give the video back the PAGE2 it
forgot; and in a machine without 80STORE only the memory knows that there is none.

What it means to be in step depends on the machine. On a //e the flags of the two halves are
compared (`AgreeE`), and the shown page with PAGE2 and 80STORE of the memory. On a II there is no
80STORE, and the shown page is compared with the last of `$C054` and `$C055` that was accessed;
nothing in the program keeps that, so the model does (`lastPage2`), and a snapshot is taken to
bring it along, since otherwise a load would make the question meaningless.

The steps that go wrong are not those that break a rule of the guest: they are ordinary accesses
and resets. So the condition is one on the state before each step (`SoftSwitches.Keeps`). It is
the exact one: in every state that is reached by steps that meet it, the next step leaves the
halves in step if and only if it meets it too (`inStep_run`). For a loaded snapshot the condition
is that its own halves are in step, which those of a machine in step are.
-/

namespace LinApple.Video

open Memory

/-! ## What the scanner reads -/

/-- A byte behind `mem_get_main_ptr` or, where `aux` is set,
`mem_get_aux_ptr` of a page; where it is read from is decided by the page. -/
def scannedByte (s : MemoryInstance) (aux : Bool) (first : Page) (i : Nat) : UInt8 :=
  let p := first + Fin.ofNat 256 (i / 256)
  if s.memshadow first = ramPtr aux first then s.mem p (Fin.ofNat 256 i)
  else s.stores (ramPtr aux p) (Fin.ofNat 256 i)

/-- The display memory of a machine. -/
def displayMemory (s : MemoryInstance) : DisplayMemory where
  text aux page2 := scannedByte s aux (if page2 then 0x08 else 0x04)
  hires aux page2 := scannedByte s aux (if page2 then 0x40 else 0x20)

/-! ## The two halves -/

/-- `SsIoVideo` -/
structure SsIoVideo where
  /-- `alt_char_set` -/
  altCharSet : Bool
  /-- `vid_mode` -/
  vidMode : VideoMode
deriving DecidableEq, Repr

/-- `video_get_snapshot` -/
def videoGetSnapshot (s : VideoState) : SsIoVideo where
  altCharSet := s.altCharSet
  vidMode := s.videoMode

/-- `video_set_snapshot` -/
def videoSetSnapshot (ss : SsIoVideo) (s : VideoState) : VideoState :=
  { s with
    altCharSet := ss.altCharSet
    videoMode := ss.vidMode
    graphicsmode := !ss.vidMode.text
    displaypage2 := ss.vidMode.page2 }

/-- **The memory and the video of a machine.** -/
structure SoftSwitches where
  /-- The memory. -/
  memory : MemoryInstance
  /-- The video. -/
  video : VideoState
  /-- Whether `$C055` is the last of `$C054` and `$C055` that was accessed.
  Nothing in the program keeps this. -/
  lastPage2 : Bool

/-- The memory and the video of a machine that was saved. -/
structure SavedSwitches where
  /-- The memory. -/
  memory : SsBaseMemory
  /-- The video. -/
  video : SsIoVideo
  /-- What the saved machine had accessed last. -/
  lastPage2 : Bool

/-- A switch in `$C000-$C00F` or in `$C050-$C05F`. -/
inductive SwitchAddr where
  | c00x (n : Fin 16)
  | c05x (n : Fin 16)
deriving DecidableEq, Repr

namespace SwitchAddr

/-- The address of a switch. -/
def addr : SwitchAddr → UInt16
  | c00x n => 0xC000 + UInt16.ofNat n
  | c05x n => 0xC050 + UInt16.ofNat n

/-- Which of `$C054` and `$C055` was accessed last, after this access. -/
def page2 (last : Bool) : SwitchAddr → Bool
  | c05x 4 => false
  | c05x 5 => true
  | _ => last

end SwitchAddr

namespace SoftSwitches

variable (ty : Apple2Type) (cfg : VideoConfig) (s : SoftSwitches)

/-- `video_set_mode` -/
def setMode (addr : UInt16) : SoftSwitches :=
  { s with video := s.video.videoSetMode cfg (displayMemory s.memory) ty addr }

/-- `mem_set_paging`, with what it hands on to the video. -/
def setPaging (pc addr : UInt16) : SoftSwitches :=
  let a := addr.toNat % 0x100
  let t := { s with memory := memSetPaging ty s.memory pc addr }
  if (throwSwitch ty s.memory a).holdsOff pc a then t
  else if a ≤ 1 ∨ (0x54 ≤ a ∧ a ≤ 0x57) then t.setMode ty cfg addr
  else t

/-- `io_write_c00x` -/
def ioWriteC00x (pc addr : UInt16) : SoftSwitches :=
  if addr.toNat % 0x10 ≤ 0x0B then s.setPaging ty cfg pc addr else s.setMode ty cfg addr

/-- `io_access_c05x`, the annunciators apart. -/
def ioAccessC05x (pc addr : UInt16) : SoftSwitches :=
  match addr.toNat % 0x10 with
  | 0x0 | 0x1 | 0x2 | 0x3 => s.setMode ty cfg addr
  | 0x4 | 0x5 | 0x6 | 0x7 => s.setPaging ty cfg pc addr
  | 0xE | 0xF => s.setMode ty cfg addr
  | _ => s

/-- **An access of a switch.** Reading `$C000-$C00F` reads the keyboard. -/
def access (pc : UInt16) (a : SwitchAddr) (write : Bool) : SoftSwitches :=
  let t :=
    match a with
    | .c00x _ => if write then s.ioWriteC00x ty cfg pc a.addr else s
    | .c05x _ => s.ioAccessC05x ty cfg pc a.addr
  { t with lastPage2 := a.page2 s.lastPage2 }

/-- `linapple_reset_hard` -/
def resetHard (pattern : MemoryInitPattern) : SoftSwitches where
  memory := memReset pattern s.memory
  video := s.video.videoResetState
  lastPage2 := false

/-- `linapple_reset_soft` -/
def resetSoft : SoftSwitches :=
  if ty.isApple2 then s else { s with memory := resetPaging false s.memory }

/-- `snapshot_deserialize`, once it has accepted the file. -/
def load (pattern : MemoryInitPattern) (snapshot : SavedSwitches) : SoftSwitches :=
  let r := memReset pattern s.memory
  let r := if ty.isApple2 then r else resetPaging false r
  { memory := memSetSnapshot snapshot.memory r
    video := videoSetSnapshot snapshot.video s.video.videoResetState
    lastPage2 := snapshot.lastPage2 }

/-- `snapshot_serialize` -/
def save : SavedSwitches where
  memory := memGetSnapshot s.memory
  video := videoGetSnapshot s.video
  lastPage2 := s.lastPage2

/-! ## In step -/

/-- **The two halves of a //e agree.** -/
structure AgreeE (m : MemMode) (v : VideoMode) (shown : Bool) : Prop where
  /-- On 80STORE. -/
  store80 : m.store80 = v.mask2
  /-- On HIRES. -/
  hires : m.hires = v.hires
  /-- On the page that is shown. -/
  page2 : shown = (m.page2 && !m.store80)

/-- **The halves are in step.** A II has no 80STORE, and shows the page it
was last asked for. -/
def InStep : Prop :=
  if ty.isApple2 then s.video.displaypage2 = s.lastPage2
  else AgreeE s.memory.memMode s.video.videoMode s.video.displaypage2

end SoftSwitches

/-! ## What an access reaches -/

namespace SwitchAddr

/-- The low byte of a switch. -/
def low : SwitchAddr → Nat
  | c00x n => n
  | c05x n => 0x50 + n

/-- Whether an access comes to `mem_set_paging`. -/
def setsPaging (write : Bool) : SwitchAddr → Bool
  | c00x n => write && n.val ≤ 0x0B
  | c05x n => 4 ≤ n.val && n.val < 8

/-- Whether an access comes to `video_set_mode`. -/
def setsMode (write : Bool) : SwitchAddr → Bool
  | c00x n => write && (n.val ≤ 1 || 0x0C ≤ n.val)
  | c05x n => n.val < 8 || 0x0E ≤ n.val

theorem toNat_addr (a : SwitchAddr) : a.addr.toNat = 0xC000 + a.low := by
  cases a with
  | c00x n => exact (show ∀ n : Fin 16, (c00x n).addr.toNat = 0xC000 + (c00x n).low by decide) n
  | c05x n => exact (show ∀ n : Fin 16, (c05x n).addr.toNat = 0xC000 + (c05x n).low by decide) n

theorem low_lt (a : SwitchAddr) : a.low < 0x60 := by
  cases a with
  | c00x n => exact Nat.lt_trans n.isLt (by decide)
  | c05x n => exact Nat.add_lt_add_left n.isLt 0x50

theorem addr_mod (a : SwitchAddr) : a.addr.toNat % 0x100 = a.low := by
  have := a.low_lt
  have := a.toNat_addr
  omega

/-- Of what comes to `mem_set_paging` it hands on 80STORE, HIRES and PAGE2. -/
theorem setsMode_iff (a : SwitchAddr) {write : Bool} (h : a.setsPaging write = true) :
    a.setsMode write = true ↔ a.low ≤ 1 ∨ (0x54 ≤ a.low ∧ a.low ≤ 0x57) := by
  cases a with
  | c00x n =>
    simp only [setsPaging, setsMode, low, Bool.and_eq_true, Bool.or_eq_true,
      decide_eq_true_eq] at h ⊢
    simp only [h.1, true_and]
    omega
  | c05x n =>
    simp only [setsPaging, setsMode, low, Bool.and_eq_true, Bool.or_eq_true,
      decide_eq_true_eq] at h ⊢
    omega

end SwitchAddr

namespace VideoState

variable (cfg : VideoConfig) (memory : DisplayMemory) (s : VideoState)
  (ty : Apple2Type) (address : UInt16)

@[simp] theorem videoMode_videoPerformRefresh :
    (s.videoPerformRefresh cfg memory).videoMode = s.videoMode := by
  simp only [videoPerformRefresh]

@[simp] theorem displaypage2_videoPerformRefresh :
    (s.videoPerformRefresh cfg memory).displaypage2 = s.displaypage2 := by
  simp only [videoPerformRefresh]

@[simp] theorem videoMode_videoSetMode :
    (s.videoSetMode cfg memory ty address).videoMode
      = switchVideo ty s.videoMode (address.toNat % 0x100) := by
  unfold videoSetMode
  dsimp only
  split_ifs <;> simp only [videoMode_videoPerformRefresh]

/-- The page that is shown is that of `video_mode`. -/
def Shown : Prop := s.displaypage2 = s.videoMode.page2

/-- `video_set_mode` leaves the page of `video_mode` shown. -/
theorem shown_videoSetMode : (s.videoSetMode cfg memory ty address).Shown := by
  unfold Shown
  rw [videoMode_videoSetMode]
  unfold videoSetMode
  dsimp only
  split_ifs with h h' h'
  all_goals
    simp only [displaypage2_videoPerformRefresh, videoMode_videoPerformRefresh,
      ne_eq, not_not] at h' ⊢
  · exact h'
  · exact h'

end VideoState

namespace SoftSwitches

variable (ty : Apple2Type) (cfg : VideoConfig) (s : SoftSwitches) (pc : UInt16)

/-- `mem_set_paging` holds off at no switch that the video hears of. -/
theorem holdsOff_eq_false (m : MemoryInstance) {a : Nat}
    (h : a ≤ 1 ∨ (0x54 ≤ a ∧ a ≤ 0x57)) : m.holdsOff pc a = false := by
  have h4 : (decide (4 ≤ a) && decide (a ≤ 5)) = false := by
    rw [Bool.and_eq_false_iff, decide_eq_false_iff_not, decide_eq_false_iff_not]
    omega
  have h80 : (decide (0x80 ≤ a) && decide (a ≤ 0x8F)) = false := by
    rw [Bool.and_eq_false_iff, decide_eq_false_iff_not, decide_eq_false_iff_not]
    omega
  rw [MemoryInstance.holdsOff, h4, h80, Bool.false_and, Bool.false_and, Bool.or_self]

theorem memMode_setPaging (addr : UInt16) :
    (s.setPaging ty cfg pc addr).memory.memMode
      = switchMode ty s.memory.memMode (addr.toNat % 0x100) := by
  unfold setPaging
  dsimp only
  split_ifs <;> exact memSetPaging_memMode ty s.memory pc addr

/-- The video hears of 80STORE, of HIRES and of PAGE2. -/
theorem videoMode_setPaging (addr : UInt16) :
    (s.setPaging ty cfg pc addr).video.videoMode
      = if addr.toNat % 0x100 ≤ 1 ∨ (0x54 ≤ addr.toNat % 0x100 ∧ addr.toNat % 0x100 ≤ 0x57)
        then VideoState.switchVideo ty s.video.videoMode (addr.toNat % 0x100)
        else s.video.videoMode := by
  unfold setPaging
  dsimp only
  split_ifs with hoff h h
  · exact absurd (hoff.symm.trans (holdsOff_eq_false pc _ h)) (by decide)
  · rfl
  · exact VideoState.videoMode_videoSetMode _ _ _ _ _
  · rfl

/-- The page that is shown stays that of `video_mode`. -/
theorem shown_setPaging (hs : s.video.Shown) (addr : UInt16) :
    (s.setPaging ty cfg pc addr).video.Shown := by
  unfold setPaging
  dsimp only
  split_ifs
  · exact hs
  · exact VideoState.shown_videoSetMode _ _ _ _ _
  · exact hs

/-- **Where an access goes**: to the paging, to the video alone, or to
neither. -/
theorem access_cases (a : SwitchAddr) (write : Bool) :
    (a.setsPaging write = true ∧ s.access ty cfg pc a write =
        { s.setPaging ty cfg pc a.addr with lastPage2 := a.page2 s.lastPage2 })
    ∨ (a.setsPaging write = false ∧ a.setsMode write = true
      ∧ s.access ty cfg pc a write =
        { s.setMode ty cfg a.addr with lastPage2 := a.page2 s.lastPage2 })
    ∨ (a.setsPaging write = false ∧ a.setsMode write = false
      ∧ s.access ty cfg pc a write = { s with lastPage2 := a.page2 s.lastPage2 }) := by
  cases a with
  | c00x n =>
    cases write
    · exact .inr (.inr ⟨rfl, rfl, rfl⟩)
    · fin_cases n <;> first
        | exact .inl ⟨rfl, rfl⟩
        | exact .inr (.inl ⟨rfl, rfl, rfl⟩)
  | c05x n =>
    fin_cases n <;> first
      | exact .inl ⟨rfl, rfl⟩
      | exact .inr (.inl ⟨rfl, rfl, rfl⟩)
      | exact .inr (.inr ⟨rfl, rfl, rfl⟩)

/-- **What an access does to the memory's half.** -/
theorem memMode_access (a : SwitchAddr) (write : Bool) :
    (s.access ty cfg pc a write).memory.memMode
      = if a.setsPaging write then switchMode ty s.memory.memMode a.low
        else s.memory.memMode := by
  have hp := s.memMode_setPaging ty cfg pc a.addr
  rw [a.addr_mod] at hp
  rcases s.access_cases ty cfg pc a write with ⟨h, heq⟩ | ⟨h, -, heq⟩ | ⟨h, -, heq⟩
  · rw [heq, if_pos h]
    exact hp
  · rw [heq, if_neg (Bool.eq_false_iff.mp h)]
    rfl
  · rw [heq, if_neg (Bool.eq_false_iff.mp h)]

/-- **What an access does to the video's half.** -/
theorem videoMode_access (a : SwitchAddr) (write : Bool) :
    (s.access ty cfg pc a write).video.videoMode
      = if a.setsMode write then VideoState.switchVideo ty s.video.videoMode a.low
        else s.video.videoMode := by
  have hp := s.videoMode_setPaging ty cfg pc a.addr
  have hm := s.video.videoMode_videoSetMode cfg (displayMemory s.memory) ty a.addr
  rw [a.addr_mod] at hp hm
  rcases s.access_cases ty cfg pc a write with ⟨h, heq⟩ | ⟨-, h, heq⟩ | ⟨-, h, heq⟩
  · rw [heq]
    exact hp.trans (if_congr (a.setsMode_iff h).symm rfl rfl)
  · rw [heq, if_pos h]
    exact hm
  · rw [heq, if_neg (Bool.eq_false_iff.mp h)]

/-- The page that is shown stays that of `video_mode`. -/
theorem shown_access (hs : s.video.Shown) (a : SwitchAddr) (write : Bool) :
    (s.access ty cfg pc a write).video.Shown := by
  rcases s.access_cases ty cfg pc a write with ⟨-, heq⟩ | ⟨-, -, heq⟩ | ⟨-, -, heq⟩ <;>
    rw [heq]
  · exact s.shown_setPaging ty cfg pc hs a.addr
  · exact VideoState.shown_videoSetMode _ _ _ _ _
  · exact hs

end SoftSwitches

/-! ## Runs -/

/-- What happens to the switches. Accesses of other addresses do nothing to either half, and are
left out. -/
inductive SwitchOp where
  /-- An access, with the program counter behind the instruction. -/
  | access (pc : UInt16) (a : SwitchAddr) (write : Bool)
  /-- `linapple_reset_hard` -/
  | resetHard
  /-- `linapple_reset_soft` -/
  | resetSoft
  /-- A snapshot is loaded. -/
  | load (snapshot : SavedSwitches)

/-- One step. -/
def SoftSwitches.step (ty : Apple2Type) (cfg : VideoConfig) (pattern : MemoryInitPattern)
    (s : SoftSwitches) : SwitchOp → SoftSwitches
  | .access pc a write => s.access ty cfg pc a write
  | .resetHard => s.resetHard pattern
  | .resetSoft => s.resetSoft ty
  | .load snapshot => s.load ty pattern snapshot

/-- **The switches as a machine.** -/
def switchMachine (ty : Apple2Type) (cfg : VideoConfig) (pattern : MemoryInitPattern) :
    Machine SoftSwitches SwitchOp Unit where
  next := SoftSwitches.step ty cfg pattern
  out _ _ := none

/-- The halves of a snapshot are in step. A snapshot has the paging of the memory in one part and
the mode of the video in another, and a file may hold any two of them. -/
def SavedSwitches.InStep (ty : Apple2Type) (snapshot : SavedSwitches) : Prop :=
  if ty.isApple2 then snapshot.video.vidMode.page2 = snapshot.lastPage2
  else SoftSwitches.AgreeE snapshot.memory.memMode snapshot.video.vidMode
    snapshot.video.vidMode.page2

namespace SwitchAddr

/-- `VF_MASK2` after `video_set_mode`. -/
def mask2 (mask2 : Bool) : SwitchAddr → Bool
  | c00x 0 => false
  | c00x 1 => true
  | _ => mask2

end SwitchAddr

namespace SoftSwitches

/-- **What keeps the halves in step.** A //e stays in step unless 80STORE
goes off while PAGE2 is on; a II does unless the video is left with both
`VF_MASK2` and page 2 asked for. A soft reset reaches the memory only, and so
must find the shared switches off. -/
def Keeps (ty : Apple2Type) (s : SoftSwitches) : SwitchOp → Prop
  | .access _ a write =>
    if ty.isApple2 then
      a.setsMode write = true →
        ¬(a.mask2 s.video.videoMode.mask2 = true ∧ a.page2 s.lastPage2 = true)
    else
      a = .c00x 0 → write = true →
        ¬(s.memory.memMode.store80 = true ∧ s.memory.memMode.page2 = true)
  | .resetHard => True
  | .resetSoft => ty.isApple2 = false → s.memory.memMode.store80 = false
      ∧ s.memory.memMode.hires = false ∧ s.memory.memMode.page2 = false
  | .load snapshot => snapshot.InStep ty

variable {ty : Apple2Type} {cfg : VideoConfig} {pattern : MemoryInitPattern}
  {s : SoftSwitches}

theorem shown_resetHard (pattern : MemoryInitPattern) (s : SoftSwitches) :
    (s.resetHard pattern).video.Shown := rfl

/-- The page that is shown is always that of `video_mode`. -/
theorem shown_step (hs : s.video.Shown) (op : SwitchOp) :
    (s.step ty cfg pattern op).video.Shown := by
  cases op with
  | access pc a write => exact s.shown_access ty cfg pc hs a write
  | resetHard => exact shown_resetHard pattern s
  | resetSoft =>
    show (s.resetSoft ty).video.Shown
    unfold resetSoft
    split_ifs
    · exact hs
    · exact hs
  | load snapshot => rfl

theorem agreeE_iff {m : MemMode} {v : VideoMode} {shown : Bool} : AgreeE m v shown
    ↔ m.store80 = v.mask2 ∧ m.hires = v.hires ∧ shown = (m.page2 && !m.store80) :=
  ⟨fun h => ⟨h.store80, h.hires, h.page2⟩, fun h => ⟨h.1, h.2.1, h.2.2⟩⟩

/-- **The switches of a //e agree after an access** unless 80STORE goes off
while PAGE2 is on. -/
theorem agreeE_switch (ht : ty.isApple2 = false) {m : MemMode} {v : VideoMode}
    (h : AgreeE m v v.page2) (a : SwitchAddr) (write : Bool) :
    AgreeE (if a.setsPaging write then switchMode ty m a.low else m)
        (if a.setsMode write then VideoState.switchVideo ty v a.low else v)
        (if a.setsMode write then VideoState.switchVideo ty v a.low else v).page2
      ↔ (a = .c00x 0 → write = true → ¬(m.store80 = true ∧ m.page2 = true)) := by
  obtain ⟨hstore, hhires, hpage⟩ := h
  simp only [agreeE_iff, SwitchAddr.setsPaging, SwitchAddr.setsMode, SwitchAddr.low]
  cases hmask : v.mask2 <;> rw [hmask] at hstore <;> rw [hstore] at hpage
  all_goals
    cases a with
    | c00x n =>
      cases write
      · simp [*]
      · fin_cases n <;> simp [switchMode, VideoState.switchVideo, *]
    | c05x n => fin_cases n <;> simp [switchMode, VideoState.switchVideo, *]

/-- **The page a II shows after an access** is the one it was last asked
for, unless the video has `VF_MASK2`. -/
theorem page2_switch (ht : ty.isApple2 = true) {v : VideoMode} {last : Bool}
    (h : v.page2 = last) (a : SwitchAddr) (write : Bool) :
    (if a.setsMode write then VideoState.switchVideo ty v a.low else v).page2 = a.page2 last
      ↔ (a.setsMode write = true → ¬(a.mask2 v.mask2 = true ∧ a.page2 last = true)) := by
  subst h
  simp only [SwitchAddr.setsMode, SwitchAddr.low]
  cases hmask : v.mask2 <;> cases hpage : v.page2
  all_goals
    cases a with
    | c00x n =>
      cases write
      · simp [SwitchAddr.page2, *]
      · fin_cases n <;> simp [VideoState.switchVideo, SwitchAddr.page2, SwitchAddr.mask2, *]
    | c05x n =>
      fin_cases n <;> simp [VideoState.switchVideo, SwitchAddr.page2, SwitchAddr.mask2, *]

theorem memMode_resetPaging (init : Bool) (r : MemoryInstance) :
    (resetPaging init r).memMode = MemMode.reset := by
  rw [resetPaging, memUpdatePaging_memMode]

theorem memMode_memReset (pattern : MemoryInitPattern) (r : MemoryInstance) :
    (memReset pattern r).memMode = MemMode.reset := by
  rw [memReset, memMode_resetPaging]

theorem memMode_memSetSnapshot (snapshot : SsBaseMemory) (r : MemoryInstance) :
    (memSetSnapshot snapshot r).memMode = snapshot.memMode := by
  rw [memSetSnapshot, memUpdatePaging_memMode]

theorem inStep_ii (ht : ty.isApple2 = true) :
    s.InStep ty ↔ s.video.displaypage2 = s.lastPage2 := by rw [InStep, if_pos ht]

theorem inStep_e (ht : ty.isApple2 = false) : s.InStep ty
    ↔ AgreeE s.memory.memMode s.video.videoMode s.video.displaypage2 := by
  rw [InStep, ht, if_neg Bool.false_ne_true]

/-- An access keeps the halves in step exactly when it should. -/
theorem inStep_access (hs : s.video.Shown) (h : s.InStep ty) (pc : UInt16)
    (a : SwitchAddr) (write : Bool) :
    (s.access ty cfg pc a write).InStep ty ↔ s.Keeps ty (.access pc a write) := by
  have hshown := s.shown_access ty cfg pc hs a write
  unfold VideoState.Shown at hs hshown
  cases ht : ty.isApple2
  · rw [inStep_e ht, hs] at h
    rw [inStep_e ht, hshown, videoMode_access, memMode_access, agreeE_switch ht h, Keeps, ht,
      if_neg Bool.false_ne_true]
  · rw [inStep_ii ht, hs] at h
    rw [inStep_ii ht, hshown, videoMode_access, Keeps, ht, if_pos rfl,
      ← page2_switch ht h a write]
    rfl

/-- A soft reset keeps the halves in step where the shared switches are off. -/
theorem inStep_resetSoft (h : s.InStep ty) :
    (s.resetSoft ty).InStep ty ↔ s.Keeps ty .resetSoft := by
  cases ht : ty.isApple2
  · rw [inStep_e ht, agreeE_iff] at h
    obtain ⟨hstore, hhires, hpage⟩ := h
    have hmode : (s.resetSoft ty).memory.memMode = MemMode.reset := by
      rw [resetSoft, ht, if_neg Bool.false_ne_true, memMode_resetPaging]
    have hvideo : (s.resetSoft ty).video = s.video := by
      rw [resetSoft, ht, if_neg Bool.false_ne_true]
    rw [inStep_e ht, agreeE_iff, hmode, hvideo, hpage, ← hstore, ← hhires, Keeps,
      MemMode.reset]
    cases s.memory.memMode.store80 <;> cases s.memory.memMode.hires <;>
      cases s.memory.memMode.page2 <;> simp [ht]
  · rw [resetSoft, ht, if_pos rfl]
    exact iff_of_true h fun hno => absurd (ht.symm.trans hno) (by decide)

/-- A load brings the halves in as the snapshot has them. -/
theorem inStep_load (pattern : MemoryInitPattern) (snapshot : SavedSwitches) :
    (s.load ty pattern snapshot).InStep ty ↔ snapshot.InStep ty := by
  have hmode : (s.load ty pattern snapshot).memory.memMode = snapshot.memory.memMode := by
    rw [load, memMode_memSetSnapshot]
  unfold InStep SavedSwitches.InStep
  rw [hmode]
  rfl

/-- The halves are in step after a hard reset. -/
theorem inStep_resetHard (ty : Apple2Type) (pattern : MemoryInitPattern)
    (s : SoftSwitches) : (s.resetHard pattern).InStep ty := by
  have hmode : (s.resetHard pattern).memory.memMode = MemMode.reset := by
    rw [resetHard, memMode_memReset]
  cases ht : ty.isApple2
  · rw [inStep_e ht, hmode]
    exact ⟨rfl, rfl, rfl⟩
  · rw [inStep_ii ht]
    rfl

/-- **A step keeps the halves in step exactly when it should.** -/
theorem inStep_step (hs : s.video.Shown) (h : s.InStep ty) (op : SwitchOp) :
    (s.step ty cfg pattern op).InStep ty ↔ s.Keeps ty op := by
  cases op with
  | access pc a write => exact inStep_access hs h pc a write
  | resetHard => exact iff_of_true (inStep_resetHard ty pattern s) trivial
  | resetSoft => exact inStep_resetSoft h
  | load snapshot => exact inStep_load pattern snapshot

/-- A machine whose halves are in step saves them so, and a load of what it
saved finds them so. -/
theorem inStep_save (hs : s.video.Shown) (h : s.InStep ty) : s.save.InStep ty := by
  unfold InStep at h
  rw [hs] at h
  exact h

end SoftSwitches

section Runs

variable (ty : Apple2Type) (cfg : VideoConfig) (pattern : MemoryInitPattern)
  (s : SoftSwitches)

/-- The run that a hard reset begins, as long as every step keeps the halves
in step. -/
theorem shown_inStep_run {ops : List SwitchOp}
    (has : (switchMachine ty cfg pattern).Admits (fun s op _ => s.Keeps ty op)
      (s.resetHard pattern) ops) :
    let t := (switchMachine ty cfg pattern).run (s.resetHard pattern) ops
    t.video.Shown ∧ t.InStep ty :=
  (switchMachine ty cfg pattern).invariant_run
    (I := fun s => s.video.Shown ∧ s.InStep ty)
    (fun _ op _ ⟨hs, h⟩ hkeeps =>
      ⟨SoftSwitches.shown_step hs op, (SoftSwitches.inStep_step hs h op).mpr hkeeps⟩)
    ⟨SoftSwitches.shown_resetHard pattern s, SoftSwitches.inStep_resetHard ty pattern s⟩ has

/-- **The halves are in step as long as every step keeps them so**, and the first step that does
not puts them out of step. The second half is what makes the condition exact: in every state that
such a run reaches, an operation keeps the halves in step if and only if it is one that `Keeps`
allows. -/
theorem inStep_run {ops : List SwitchOp}
    (has : (switchMachine ty cfg pattern).Admits (fun s op _ => s.Keeps ty op)
      (s.resetHard pattern) ops) :
    let t := (switchMachine ty cfg pattern).run (s.resetHard pattern) ops
    t.InStep ty ∧ ∀ op, (t.step ty cfg pattern op).InStep ty ↔ t.Keeps ty op :=
  have hrun := shown_inStep_run ty cfg pattern s has
  ⟨hrun.2, fun op => SoftSwitches.inStep_step hrun.1 hrun.2 op⟩

/-- A run whose last step does not keep the halves in step. -/
theorem not_inStep_append {ops : List SwitchOp} {op : SwitchOp}
    (has : (switchMachine ty cfg pattern).Admits (fun s op _ => s.Keeps ty op)
      (s.resetHard pattern) ops)
    (hop : ¬((switchMachine ty cfg pattern).run (s.resetHard pattern) ops).Keeps ty op) :
    ¬((switchMachine ty cfg pattern).run (s.resetHard pattern) (ops ++ [op])).InStep ty := by
  have hrun := shown_inStep_run ty cfg pattern s has
  rw [Machine.run_append]
  exact fun h => hop ((SoftSwitches.inStep_step hrun.1 hrun.2 op).mp h)

end Runs

/-- A machine nothing has been done to. -/
def SoftSwitches.blank : SoftSwitches where
  memory := MemoryInstance.blank
  video := VideoState.blank
  lastPage2 := false

/-- A video without a picture. -/
def VideoConfig.blank : VideoConfig where
  source := fun _ => 0
  videotype := .colorStandard
  language := false

/-- A //e is asked for page 2, turns 80STORE on and asks for high resolution. -/
theorem inStep_run_apple2e :
    (switchMachine .apple2e .blank .zero).Admits (fun s op _ => s.Keeps .apple2e op)
      (SoftSwitches.blank.resetHard .zero)
      [.access 0 (.c05x 5) false, .access 0 (.c00x 1) true, .access 0 (.c05x 7) false]
    ∧ ((switchMachine .apple2e .blank .zero).run (SoftSwitches.blank.resetHard .zero)
      [.access 0 (.c05x 5) false, .access 0 (.c00x 1) true,
        .access 0 (.c05x 7) false]).InStep .apple2e := by
  have has : (switchMachine .apple2e .blank .zero).Admits
      (fun s op _ => s.Keeps .apple2e op) (SoftSwitches.blank.resetHard .zero)
      [.access 0 (.c05x 5) false, .access 0 (.c00x 1) true, .access 0 (.c05x 7) false] := by
    simp [Machine.Admits, SoftSwitches.Keeps, Apple2Type.isApple2]
  exact ⟨has, (inStep_run .apple2e .blank .zero .blank has).1⟩

/-- **What puts the halves out of step**: a soft reset of a //e in high
resolution; on a //e, page 2 asked for and 80STORE turned on and off; on a
II, page 2 asked for and a write to `$C001`, where it has no switch. -/
theorem not_inStep_run :
    ¬((switchMachine .apple2e .blank .zero).run (SoftSwitches.blank.resetHard .zero)
      ([.access 0 (.c05x 7) false] ++ [.resetSoft])).InStep .apple2e
    ∧ ¬((switchMachine .apple2e .blank .zero).run (SoftSwitches.blank.resetHard .zero)
      ([.access 0 (.c05x 5) false, .access 0 (.c00x 1) true]
        ++ [.access 0 (.c00x 0) true])).InStep .apple2e
    ∧ ¬((switchMachine .apple2 .blank .zero).run (SoftSwitches.blank.resetHard .zero)
      ([.access 0 (.c05x 5) false] ++ [.access 0 (.c00x 1) true])).InStep .apple2 := by
  refine ⟨not_inStep_append _ _ _ _ ?_ ?_, not_inStep_append _ _ _ _ ?_ ?_,
    not_inStep_append _ _ _ _ ?_ ?_⟩
  · simp [Machine.Admits, SoftSwitches.Keeps, Apple2Type.isApple2]
  · simp [switchMachine, SoftSwitches.step, SoftSwitches.Keeps, Apple2Type.isApple2,
      SoftSwitches.memMode_access, SwitchAddr.setsPaging, SwitchAddr.low, switchMode]
  · simp [Machine.Admits, SoftSwitches.Keeps, Apple2Type.isApple2]
  · simp [switchMachine, SoftSwitches.step, SoftSwitches.Keeps, Apple2Type.isApple2,
      SoftSwitches.memMode_access, SwitchAddr.setsPaging, SwitchAddr.low, switchMode]
  · simp [Machine.Admits, SoftSwitches.Keeps, Apple2Type.isApple2, SoftSwitches.resetHard,
      VideoState.videoResetState, VideoMode.initial, SwitchAddr.mask2]
  · simp [switchMachine, SoftSwitches.step, SoftSwitches.Keeps, Apple2Type.isApple2,
      SoftSwitches.access, SwitchAddr.setsMode, SwitchAddr.mask2, SwitchAddr.page2]

end LinApple.Video
