import LinApple.Video.Scanner
import LinApple.Video.Switches

/-!
# The floating bus

What nothing drives the bus to is the byte the scanner has fetched last, and a program that reads
it sees what is on the screen. The scanner here reads it from the image the processor sees; the
renderer reads main memory. The two are one byte as long as the page of the picture is not one
that shows auxiliary memory to the processor.

The statement is about every machine that can be `Reached`: from a hard reset by accesses of the
switches and of the language card, writes, frames, soft resets and loads of what a reached machine
saved. It cannot be about every combination of flags, for one half of the switches could then
contradict the other, and which page is shown would not be determined. What all of that leads to
is `Scannable`: the tables of memory are those of a mode, 80STORE is never on in the memory alone,
and a mode that is to be shown is shown. The halves need not be in step; a soft reset parts them,
and the floating bus is right or wrong regardless.

`busCarriesScreen_reached` then compares the two sides of the program that name a byte: the
counters of the scanner, from the cycle, and the row and column of the renderer. For every cycle
that falls on a visible column of a row of text, lo-res or hi-res they name the same address of
the same page, for both display standards, and the two signals of the vertical blanking agree at
every cycle. Only the bank differs. That part is the condition, and it is stated by what the
processor's image shows and not by the switches, so that the case where both banks have the same
byte is not left out.
-/

namespace LinApple.Video

open Memory

/-! ## The byte on the screen -/

/-- The byte a renderer draws at an offset of a picture, on the line `k` of its cell, if it
draws one byte at a column; of auxiliary memory, the byte that is behind it. -/
def UpdateFunc.byteAt (s : Screen) (aux : Bool) (o k : Nat) : UpdateFunc → Option UInt8
  | .text40 | .lores => some ((if aux then s.textBank1 else s.textBank0) o)
  | .hires => some ((if aux then s.hiresBank1 else s.hiresBank0) (o + 0x400 * k))
  | .text80 | .dlores | .dhires => none

/-- The page a picture begins at. -/
def UpdateFunc.firstPage (page2 : Bool) : UpdateFunc → Page
  | .hires | .dhires => if page2 then 0x40 else 0x20
  | .text40 | .text80 | .lores | .dlores => if page2 then 0x08 else 0x04

namespace SoftSwitches

variable (sys : SystemState) (ty : Apple2Type) (s : SoftSwitches)
  (videoCyclesInFrame executedCycles : UInt32) (line x : Nat)

/-- The renderer that draws a line. -/
def updateAtLine : UpdateFunc := s.video.videoMode.updateAt (line / 8)

/-- **The byte on the screen** at a line and a column, or the one behind it. -/
def byteOnScreen (aux : Bool) : Option UInt8 :=
  (s.updateAtLine line).byteAt (s.video.screen (displayMemory s.memory)) aux
    (rowOffset (line / 8) + x) (line % 8)

/-- **`mem_read_floating_bus`** -/
def memReadFloatingBus : UInt8 :=
  s.memory.memByte (videoGetScannerAddress sys ty s.video.videoMode s.memory.memMode.store80
    videoCyclesInFrame executedCycles).1

/-- **The bus carries the byte on the screen**, and the two signals of the blanking agree. -/
def BusCarriesScreen : Prop :=
  (∀ line x byte, ScansAt (cyclesInFrame sys videoCyclesInFrame executedCycles) line x →
    s.byteOnScreen line x false = some byte →
    s.memReadFloatingBus sys ty videoCyclesInFrame executedCycles = byte)
  ∧ videoGetVbl sys videoCyclesInFrame executedCycles
    = !vblBar sys ty s.video.videoMode s.memory.memMode.store80 videoCyclesInFrame executedCycles

/-- **The processor does not see auxiliary memory where the picture is**, or sees the same
byte there. -/
def SeesScreen : Prop :=
  ∀ line x, ScansAt (cyclesInFrame sys videoCyclesInFrame executedCycles) line x →
    selectsAux s.memory.memMode s.memory.memMode.auxread
      ((s.updateAtLine line).firstPage s.video.displaypage2) = true →
    s.byteOnScreen line x true = s.byteOnScreen line x false

end SoftSwitches

/-! ## The machines there are -/

/-- **A machine that was reset**, and has run since. Every way in which a running machine changes
its memory or its switches is one of these, so a property of all reached machines is one of every
moment of a run. -/
inductive Reached (ty : Apple2Type) (cfg : VideoConfig) (pattern : MemoryInitPattern) :
    SoftSwitches → Prop
  /-- `linapple_reset_hard` -/
  | resetHard (s : SoftSwitches) : Reached ty cfg pattern (s.resetHard pattern)
  /-- An access of a switch. -/
  | access {s : SoftSwitches} (h : Reached ty cfg pattern s) (pc : UInt16) (a : SwitchAddr)
      (write : Bool) : Reached ty cfg pattern (s.access ty cfg pc a write)
  /-- An access of the language card. -/
  | languageCard {s : SoftSwitches} (h : Reached ty cfg pattern s) (pc : UInt16) (n : Fin 16) :
      Reached ty cfg pattern (s.setPaging ty cfg pc (0xC080 + UInt16.ofNat n))
  /-- A write to anything but a switch. -/
  | write {s : SoftSwitches} (h : Reached ty cfg pattern s) (pc a : UInt16) (v : UInt8)
      (ha : isPagingSwitch a = false) :
      Reached ty cfg pattern { s with memory := writeByte ty s.memory pc a v }
  /-- The end of a frame. -/
  | frame {s : SoftSwitches} (h : Reached ty cfg pattern s) :
      Reached ty cfg pattern
        { s with
          video := (s.video.videoPerformRefresh cfg (displayMemory s.memory)).videoUpdateFlash }
  /-- `linapple_reset_soft` -/
  | resetSoft {s : SoftSwitches} (h : Reached ty cfg pattern s) :
      Reached ty cfg pattern (s.resetSoft ty)
  /-- What a machine saved is loaded. -/
  | load {s saved : SoftSwitches} (h : Reached ty cfg pattern s)
      (hsaved : Reached ty cfg pattern saved) :
      Reached ty cfg pattern (s.load ty pattern saved.save)

/-- **What the scanner relies on**: the video forgets PAGE2 as long as the memory has
80STORE on. -/
structure Scannable (s : SoftSwitches) : Prop where
  /-- The tables of a mode stand. -/
  tables : HasTables s.memory
  /-- 80STORE is not on in the memory alone. -/
  store80 : s.memory.memMode.store80 = true → s.video.videoMode.mask2 = true
  /-- PAGE2 is forgotten. -/
  mask2 : s.video.videoMode.mask2 = true → s.video.videoMode.page2 = false
  /-- The page of `video_mode` is shown. -/
  shown : s.video.Shown

section Scannable

variable {ty : Apple2Type} {cfg : VideoConfig} {pattern : MemoryInitPattern}
  {s : SoftSwitches}

/-! ## Every machine is scannable -/

@[simp] theorem SoftSwitches.memory_setMode (addr : UInt16) :
    (s.setMode ty cfg addr).memory = s.memory := rfl

theorem SoftSwitches.memory_setPaging (pc addr : UInt16) :
    (s.setPaging ty cfg pc addr).memory = memSetPaging ty s.memory pc addr := by
  unfold setPaging
  dsimp only
  split_ifs <;> rfl

/-- An access leaves the tables of a mode standing. -/
theorem SoftSwitches.hasTables_access (h : HasTables s.memory) (pc : UInt16) (a : SwitchAddr)
    (write : Bool) : HasTables (s.access ty cfg pc a write).memory := by
  rcases s.access_cases ty cfg pc a write with ⟨-, heq⟩ | ⟨-, -, heq⟩ | ⟨-, -, heq⟩ <;> rw [heq]
  · rw [SoftSwitches.memory_setPaging]
    exact h.memSetPaging ty pc a.addr
  · exact h
  · exact h

/-- With `VF_MASK2` there is no page 2. -/
theorem VideoState.page2_switchVideo (m : VideoMode) (addr : Nat)
    (h : (VideoState.switchVideo ty m addr).mask2 = true) :
    (VideoState.switchVideo ty m addr).page2 = false := by
  have hforgets : ∀ m : VideoMode, (if m.mask2 then { m with page2 := false } else m).mask2 = true →
      (if m.mask2 then { m with page2 := false } else m).page2 = false := by
    intro m hm
    split_ifs at hm ⊢ with hmask
    · rfl
    · exact absurd hm hmask
  exact hforgets _ h

/-- 80STORE reaches both halves. -/
theorem store80_switch (ht : ty.isApple2 = false) {m : MemMode} {v : VideoMode}
    (h : m.store80 = true → v.mask2 = true) (a : SwitchAddr) (write : Bool) :
    (if a.setsPaging write then switchMode ty m a.low else m).store80 = true →
      (if a.setsMode write then VideoState.switchVideo ty v a.low else v).mask2 = true := by
  simp only [SwitchAddr.setsPaging, SwitchAddr.setsMode, SwitchAddr.low]
  cases hmask : v.mask2 <;> cases hstore : m.store80
  all_goals
    cases a with
    | c00x n =>
      cases write
      · simp_all
      · fin_cases n <;> simp_all [switchMode, VideoState.switchVideo]
    | c05x n => fin_cases n <;> simp_all [switchMode, VideoState.switchVideo]

/-- An access keeps a machine scannable. -/
theorem Scannable.access (ht : ty.isApple2 = false) (h : Scannable s) (pc : UInt16)
    (a : SwitchAddr) (write : Bool) : Scannable (s.access ty cfg pc a write) where
  tables := SoftSwitches.hasTables_access h.tables pc a write
  store80 := by
    rw [SoftSwitches.memMode_access, SoftSwitches.videoMode_access]
    exact store80_switch ht h.store80 a write
  mask2 := by
    rw [SoftSwitches.videoMode_access]
    split_ifs
    · exact VideoState.page2_switchVideo _ _
    · exact h.mask2
  shown := s.shown_access ty cfg pc h.shown a write

/-- The language card is nothing to the video. -/
theorem Scannable.languageCard (h : Scannable s) (pc : UInt16) (n : Fin 16) :
    Scannable (s.setPaging ty cfg pc (0xC080 + UInt16.ofNat n)) := by
  have hlow : (0xC080 + UInt16.ofNat n : UInt16).toNat % 0x100 = 0x80 + n.val := by
    revert n
    decide
  have hvideo : ¬ (0x80 + n.val ≤ 1 ∨ 0x54 ≤ 0x80 + n.val ∧ 0x80 + n.val ≤ 0x57) := by omega
  refine ⟨?_, ?_, ?_, s.shown_setPaging ty cfg pc h.shown _⟩
  · rw [SoftSwitches.memory_setPaging]
    exact h.tables.memSetPaging ty pc _
  · rw [SoftSwitches.memMode_setPaging, SoftSwitches.videoMode_setPaging, hlow, if_neg hvideo]
    unfold switchMode
    rw [if_pos (by omega)]
    exact h.store80
  · rw [SoftSwitches.videoMode_setPaging, hlow, if_neg hvideo]
    exact h.mask2

theorem Scannable.write (h : Scannable s) (pc : UInt16) {a : UInt16} (v : UInt8)
    (ha : isPagingSwitch a = false) :
    Scannable { s with memory := writeByte ty s.memory pc a v } where
  tables := h.tables.writeByte ty pc v ha
  store80 := by
    rw [writeByte_memMode ty s.memory pc v ha]
    exact h.store80
  mask2 := h.mask2
  shown := h.shown

/-- A frame shows what it finds. -/
theorem Scannable.frame (h : Scannable s) :
    Scannable { s with
      video := (s.video.videoPerformRefresh cfg (displayMemory s.memory)).videoUpdateFlash } := by
  have hflash : ∀ v : VideoState, v.videoUpdateFlash.videoMode = v.videoMode
      ∧ v.videoUpdateFlash.displaypage2 = v.displaypage2 := by
    intro v
    unfold VideoState.videoUpdateFlash
    dsimp only
    split_ifs <;> exact ⟨rfl, rfl⟩
  refine ⟨h.tables, ?_, ?_, ?_⟩
  · dsimp only
    rw [(hflash _).1, VideoState.videoMode_videoPerformRefresh]
    exact h.store80
  · dsimp only
    rw [(hflash _).1, VideoState.videoMode_videoPerformRefresh]
    exact h.mask2
  · unfold VideoState.Shown
    dsimp only
    rw [(hflash _).1, (hflash _).2, VideoState.videoMode_videoPerformRefresh,
      VideoState.displaypage2_videoPerformRefresh]
    exact h.shown

theorem SoftSwitches.memory_resetHard (pattern : MemoryInitPattern) (s : SoftSwitches) :
    (s.resetHard pattern).memory = memReset pattern s.memory := by
  rw [SoftSwitches.resetHard]

theorem Scannable.resetHard (pattern : MemoryInitPattern) (s : SoftSwitches) :
    Scannable (s.resetHard pattern) where
  tables := by
    rw [SoftSwitches.memory_resetHard]
    exact (sound_memReset pattern s.memory).1.tables
  store80 hstore := by
    rw [SoftSwitches.memory_resetHard, SoftSwitches.memMode_memReset] at hstore
    exact absurd hstore Bool.false_ne_true
  mask2 _ := show VideoMode.initial.page2 = false from rfl
  shown := SoftSwitches.shown_resetHard pattern s

/-- A soft reset turns 80STORE off in the memory. -/
theorem Scannable.resetSoft (ht : ty.isApple2 = false) (h : Scannable s) :
    Scannable (s.resetSoft ty) := by
  have hreset : s.resetSoft ty = { s with memory := resetPaging false s.memory } := by
    rw [SoftSwitches.resetSoft, ht, if_neg Bool.false_ne_true]
  have hmode : (resetPaging false s.memory).memMode = MemMode.reset :=
    SoftSwitches.memMode_resetPaging false s.memory
  obtain ⟨m, hm, -⟩ := h.tables
  have hbegin : TablesOf m { s.memory with lastWriteRam := false, memMode := MemMode.reset } :=
    ⟨hm.memshadow_eq, hm.memwrite_eq⟩
  have htables : HasTables (resetPaging false s.memory) := by
    refine ⟨MemMode.reset, hbegin.memUpdatePaging, ?_, .inl hmode.symm⟩
    rw [hmode]
    exact MemMode.DefersFrom.refl _
  rw [hreset]
  generalize resetPaging false s.memory = memory at hmode htables
  refine ⟨htables, fun hstore => ?_, h.mask2, h.shown⟩
  rw [hmode] at hstore
  exact absurd hstore Bool.false_ne_true

theorem SoftSwitches.memory_load (ty : Apple2Type) (pattern : MemoryInitPattern)
    (s saved : SoftSwitches) :
    ∃ r, (s.load ty pattern saved.save).memory = restored saved.memory r := by
  refine ⟨if ty.isApple2 then memReset pattern s.memory
    else resetPaging false (memReset pattern s.memory), ?_⟩
  rw [SoftSwitches.load, restored, SoftSwitches.save]

/-- A machine is loaded as another was saved. -/
theorem Scannable.load (pattern : MemoryInitPattern) (s : SoftSwitches) {saved : SoftSwitches}
    (h : Scannable saved) : Scannable (s.load ty pattern saved.save) := by
  obtain ⟨r, hr⟩ := s.memory_load ty pattern saved
  refine ⟨?_, ?_, h.mask2, rfl⟩
  · rw [hr]
    exact (sound_restored saved.memory r).1.tables
  · rw [hr, memMode_restored]
    exact h.store80

/-- **Every machine is scannable.** -/
theorem Reached.scannable (ht : ty.isApple2 = false) (h : Reached ty cfg pattern s) :
    Scannable s := by
  induction h with
  | resetHard s => exact Scannable.resetHard pattern s
  | access _ pc a write ih => exact ih.access ht pc a write
  | languageCard _ pc n ih => exact ih.languageCard pc n
  | write _ pc a v ha ih => exact ih.write pc v ha
  | frame _ ih => exact ih.frame
  | resetSoft _ ih => exact ih.resetSoft ht
  | load _ _ _ ih => exact Scannable.load pattern _ ih

end Scannable

/-! ## What the processor sees of the picture -/

section Sees

variable {sys : SystemState} {ty : Apple2Type} {s : SoftSwitches} {line x : Nat}
  {videoCyclesInFrame executedCycles : UInt32}

/-- A byte of the image, by the page it is counted from. -/
theorem memByte_ofNat (m : MemoryInstance) {first : Page} {i : Nat}
    (h : first.val * 256 + i < 0x10000) :
    m.memByte (UInt16.ofNat (first.val * 256 + i))
      = m.mem (first + Fin.ofNat 256 (i / 256)) (Fin.ofNat 256 i) := by
  have hnat : (UInt16.ofNat (first.val * 256 + i)).toNat = first.val * 256 + i :=
    UInt16.toNat_ofNat_of_lt h
  have hpage : pageOf (UInt16.ofNat (first.val * 256 + i)) = first + Fin.ofNat 256 (i / 256) := by
    apply Fin.ext
    rw [pageOf_val, hnat, Fin.val_add]
    show _ = (first.val + i / 256 % 256) % 256
    omega
  have hoffset : offsetOf (UInt16.ofNat (first.val * 256 + i)) = Fin.ofNat 256 i := by
    apply Fin.ext
    show (UInt16.ofNat (first.val * 256 + i)).toNat % 256 = i % 256
    rw [hnat]
    omega
  rw [MemoryInstance.memByte, hpage, hoffset]

/-- **What the processor sees** is the bank that the page is switched to. -/
theorem scannedByte_selectsAux (h : HasTables s.memory) {first : Page}
    (hfirst : first.val < 0xC0) (i : Nat) :
    scannedByte s.memory
        (selectsAux s.memory.memMode s.memory.memMode.auxread first) first i
      = s.memory.mem (first + Fin.ofNat 256 (i / 256)) (Fin.ofNat 256 i) := by
  have hshadow : s.memory.memshadow first
      = ramPtr (selectsAux s.memory.memMode s.memory.memMode.auxread first) first := by
    rw [h.memshadow_eq (Nat.lt_trans hfirst (by decide))]
    exact updateShadow_low _ _ hfirst
  unfold scannedByte
  rw [if_pos hshadow]

/-- Where in its picture a renderer finds a byte. -/
def UpdateFunc.offset (o k : Nat) : UpdateFunc → Nat
  | .hires => o + 0x400 * k
  | _ => o

/-- Whether a renderer draws one byte at a column. -/
def UpdateFunc.single : UpdateFunc → Bool
  | .text40 | .lores | .hires => true
  | .text80 | .dlores | .dhires => false

/-- The byte on the screen is scanned from the picture that is shown. -/
theorem byteOnScreen_eq (s : SoftSwitches) (line x : Nat) (aux : Bool) :
    s.byteOnScreen line x aux = if (s.updateAtLine line).single then
      some (scannedByte s.memory aux ((s.updateAtLine line).firstPage s.video.displaypage2)
        ((s.updateAtLine line).offset (rowOffset (line / 8) + x) (line % 8))) else none := by
  unfold SoftSwitches.byteOnScreen
  cases s.updateAtLine line <;> cases aux <;> rfl

/-- High resolution is scanned where it is drawn. -/
theorem scansHires_eq (h : ScansAt (cyclesInFrame sys videoCyclesInFrame executedCycles) line x)
    (hsingle : (s.updateAtLine line).single = true) :
    scansHires sys s.video.videoMode (cyclesInFrame sys videoCyclesInFrame executedCycles)
      = decide (s.updateAtLine line = .hires) := by
  have hrow : decide (bit (vState sys (cyclesInFrame sys videoCyclesInFrame executedCycles)) 7
      &&& bit (vState sys (cyclesInFrame sys videoCyclesInFrame executedCycles)) 5 ≠ 0)
      = decide (20 ≤ line / 8) := by
    rw [h.vState_eq, decide_eq_decide]
    exact bits_mixed h.1
  unfold scansHires
  rw [hrow]
  revert hsingle
  unfold SoftSwitches.updateAtLine VideoMode.updateAt VideoMode.update VideoMode.updateText
  by_cases hlow : 20 ≤ line / 8 <;>
    cases s.video.videoMode.text <;> cases s.video.videoMode.hires <;>
    cases s.video.videoMode.mixed <;> cases s.video.videoMode.col80 <;>
    cases s.video.videoMode.dhires <;> simp [hlow, UpdateFunc.single]

/-- **The scanner's address is that of the byte on the screen.** -/
theorem videoGetScannerAddress_eq (isPal : Bool) (ht : ty.isApple2 = false) (hs : Scannable s)
    (h : ScansAt (cyclesInFrame (.configured isPal) videoCyclesInFrame executedCycles) line x)
    (hsingle : (s.updateAtLine line).single = true) :
    (videoGetScannerAddress (.configured isPal) ty s.video.videoMode s.memory.memMode.store80
      videoCyclesInFrame executedCycles).1
    = UInt16.ofNat (((s.updateAtLine line).firstPage s.video.displaypage2).val * 256
        + (s.updateAtLine line).offset (rowOffset (line / 8) + x) (line % 8)) := by
  have hclks : (SystemState.configured isPal).clksPerFrame ≠ 0 := by cases isPal <;> decide
  have hpage : (s.video.videoMode.page2 && !s.memory.memMode.store80)
      = s.video.displaypage2 := by
    rw [hs.shown]
    cases hstore : s.memory.memMode.store80
    · exact Bool.and_true _
    · rw [hs.mask2 (hs.store80 hstore)]
      rfl
  unfold videoGetScannerAddress
  rw [if_neg hclks]
  dsimp only
  rw [ht, Bool.false_and, Bool.false_and, h.hState_eq, h.vState_eq, scansHires_eq h hsingle,
    hpage, counterAddress_visible _ _ h.1 h.2.1]
  congr 1
  cases hf : s.updateAtLine line <;> rw [hf] at hsingle
  case text80 | dlores | dhires => exact absurd hsingle (by decide)
  all_goals
    cases s.video.displaypage2 <;>
      simp [pageBase, UpdateFunc.firstPage, UpdateFunc.offset] <;> omega

/-- **The bus carries the byte of the bank that the page is switched to.** -/
theorem memReadFloatingBus_eq (isPal : Bool) (ht : ty.isApple2 = false) (hs : Scannable s)
    (h : ScansAt (cyclesInFrame (.configured isPal) videoCyclesInFrame executedCycles) line x)
    (hsingle : (s.updateAtLine line).single = true) :
    some (s.memReadFloatingBus (.configured isPal) ty videoCyclesInFrame executedCycles)
      = s.byteOnScreen line x (selectsAux s.memory.memMode s.memory.memMode.auxread
          ((s.updateAtLine line).firstPage s.video.displaypage2)) := by
  have hfirst : ((s.updateAtLine line).firstPage s.video.displaypage2).val ≤ 0x40 := by
    cases s.updateAtLine line <;> cases s.video.displaypage2 <;> decide
  have hrow := rowOffset_eq line
  have hoffset : (s.updateAtLine line).offset (rowOffset (line / 8) + x) (line % 8) < 0x2000 := by
    obtain ⟨hline, hx, -⟩ := h
    cases s.updateAtLine line <;> simp only [UpdateFunc.offset] <;> omega
  rw [byteOnScreen_eq, if_pos hsingle, scannedByte_selectsAux hs.tables (by omega),
    ← memByte_ofNat _ (by omega), SoftSwitches.memReadFloatingBus,
    videoGetScannerAddress_eq isPal ht hs h hsingle]

/-- A column of which more than one byte is drawn has none behind it either. -/
theorem byteOnScreen_eq_none {aux : Bool} (h : ¬ (s.updateAtLine line).single = true) :
    s.byteOnScreen line x aux = none := by
  rw [byteOnScreen_eq, if_neg h]

/-- What is on the bus of a machine that is scannable. -/
theorem busCarriesScreen_iff (isPal : Bool) (ht : ty.isApple2 = false) (hs : Scannable s) :
    s.BusCarriesScreen (.configured isPal) ty videoCyclesInFrame executedCycles
      ↔ s.SeesScreen (.configured isPal) videoCyclesInFrame executedCycles := by
  constructor
  · rintro ⟨hcarries, -⟩ line x h haux
    by_cases hsingle : (s.updateAtLine line).single = true
    · have hbus := memReadFloatingBus_eq isPal ht hs h hsingle
      rw [haux] at hbus
      rw [← hbus]
      cases hbyte : s.byteOnScreen line x false with
      | none =>
        rw [byteOnScreen_eq, if_pos hsingle] at hbyte
        exact nomatch hbyte
      | some byte => rw [hcarries line x byte h hbyte]
    · rw [byteOnScreen_eq_none hsingle, byteOnScreen_eq_none hsingle]
  · refine fun hsees => ⟨fun line x byte h hbyte => ?_, videoGetVbl_eq isPal ty _ _ _ _⟩
    have hsingle : (s.updateAtLine line).single = true := by
      by_contra hno
      exact nomatch hbyte.symm.trans (byteOnScreen_eq_none hno)
    have hbus := memReadFloatingBus_eq isPal ht hs h hsingle
    cases haux : selectsAux s.memory.memMode s.memory.memMode.auxread
        ((s.updateAtLine line).firstPage s.video.displaypage2) with
    | false =>
      rw [haux, hbyte] at hbus
      exact Option.some.inj hbus
    | true =>
      rw [haux, hsees line x h haux, hbyte] at hbus
      exact Option.some.inj hbus

/-- **When the bus carries the byte on the screen**: exactly as long as the processor does not see
another byte of auxiliary memory where the picture is.

Both sides are about the cycle the bus is read at, and the place the scanner has come to then. Of
the machine it is asked only that it was reset once and is a //e, and both timings of the screen
are covered. -/
theorem busCarriesScreen_reached (isPal : Bool) {cfg : VideoConfig}
    {pattern : MemoryInitPattern} (ht : ty.isApple2 = false) (h : Reached ty cfg pattern s)
    (videoCyclesInFrame executedCycles : UInt32) :
    s.BusCarriesScreen (.configured isPal) ty videoCyclesInFrame executedCycles
      ↔ s.SeesScreen (.configured isPal) videoCyclesInFrame executedCycles :=
  busCarriesScreen_iff isPal ht (h.scannable ht)

/-- A //e that was just reset, at the first column of its text. -/
theorem busCarriesScreen_reset :
    (SoftSwitches.blank.resetHard .zero).BusCarriesScreen (.configured false) .apple2e 25 0
      ↔ (SoftSwitches.blank.resetHard .zero).SeesScreen (.configured false) 25 0 :=
  @busCarriesScreen_reached .apple2e _ false .blank .zero rfl
    (Reached.resetHard SoftSwitches.blank) 25 0

/-- A //e that has turned to reading auxiliary memory. -/
def readsAux : SoftSwitches :=
  (SoftSwitches.blank.resetHard .ffFf0000).access .apple2e .blank 0 (.c00x 3) true

/-- **The bus does not carry the byte on the screen** while auxiliary memory is read: on the
screen is `$FF`, on the bus 0. -/
theorem not_busCarriesScreen :
    Reached .apple2e .blank .ffFf0000 readsAux
      ∧ ¬ readsAux.BusCarriesScreen (.configured false) .apple2e 25 0 := by
  refine ⟨(Reached.resetHard _).access 0 _ true, fun h => ?_⟩
  have hscans : ScansAt (cyclesInFrame (.configured false) 25 0) 0 0 := by
    unfold ScansAt
    decide
  have hscreen : readsAux.byteOnScreen 0 0 false = some 0xFF := by decide +kernel
  have hbus : readsAux.memReadFloatingBus (.configured false) .apple2e 25 0 = 0 := by
    decide +kernel
  exact absurd (hbus.symm.trans (h.1 0 0 0xFF hscans hscreen)) (by decide)

end Sees

end LinApple.Video
