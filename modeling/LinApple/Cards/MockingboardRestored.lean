import LinApple.Cards.MockingboardCycles
import LinApple.Chips.AyEnvelope

/-!
# A Mockingboard that is saved and loaded

A frame keeps less than the card has: a level is derived from a step again, a register goes in by
the chip's own write, and the cycles of the batch that the card has seen are forgotten. For a card
that the program can make, nothing is lost by it: whatever card the frame is loaded into becomes
the card that was saved, but for the batch it is in, and answers as that card would have.

Without the invariant this would be false. The frame has no room for the level of an envelope, so
the loader works it out from the step and the direction, and if the two could ever disagree a
loaded card would sound different. It writes the registers of the sound chips through the chip,
which cuts each to its width; the flags of the 6522s are cut to the bits there are; and a noise
register of zero would never leave zero. `Kept` has one condition for each of these, on the chip
it is about, and the card's is made of its chips'. Every chip starts with it and every operation
keeps it, the load of a frame included: a frame that is taken may have been made by anything, so
it is the loader that has to see to it.

What it means to go on as the other card is `GoesOnAs`: equal chips, an equal remainder, and both
between two batches. It is not equality, since the count of ticks is not saved; but it determines
all later answers, lines and frames, and is kept by all that can be done to both
(`restored_goes_on`). So nothing needs to be asked of the card that the frame is loaded into, and
the statement has no hypotheses.
-/

/-! ## What the chips keep to -/

namespace LinApple.Chips

/-- **A 6522 as it can be**: its flags and enables are those of the seven sources. -/
structure Via6522.Kept (v : Via6522) : Prop where
  /-- `ifr` -/
  ifr : v.ifr &&& ifrMask = v.ifr
  /-- `ier` -/
  ier : v.ier &&& ifrMask = v.ier

namespace Via6522.Kept

variable {v : Via6522}

theorem viaReset (v : Via6522) : v.viaReset.Kept := ⟨UInt8.zero_and, UInt8.zero_and⟩

theorem viaRead (h : v.Kept) (reg : Fin 16) : (v.viaRead reg).2.Kept := by
  unfold Via6522.viaRead
  split
  case h_5 => exact ⟨Byte.masked_and h.ifr _, h.ier⟩
  case h_9 => exact ⟨Byte.masked_and h.ifr _, h.ier⟩
  all_goals exact h

theorem viaWrite (h : v.Kept) (reg : Fin 16) (val : UInt8) : (v.viaWrite reg val).Kept := by
  have hmask : (val &&& ifrMask) &&& ifrMask = val &&& ifrMask := by
    rw [UInt8.and_assoc, UInt8.and_self]
  unfold Via6522.viaWrite
  split
  case h_15 =>
    refine ⟨h.ifr, ?_⟩
    dsimp only
    split
    · exact Byte.masked_or h.ier hmask
    · exact Byte.masked_and h.ier _
  all_goals first | exact ⟨h.ifr, h.ier⟩ | exact ⟨Byte.masked_and h.ifr _, h.ier⟩

/-- A flag that is raised time and again. -/
theorem masked_iterate {a flag : UInt8} (ha : a &&& ifrMask = a) (hflag : flag &&& ifrMask = flag)
    (k : Nat) : (· ||| flag)^[k] a &&& ifrMask = (· ||| flag)^[k] a := by
  induction k with
  | zero => exact ha
  | succ k ih =>
    rw [Function.iterate_succ_apply']
    exact Byte.masked_or ih hflag

theorem stepTimer1 (h : v.Kept) (cycles : Nat) : (v.stepTimer1 cycles).Kept := by
  unfold Via6522.stepTimer1
  dsimp only
  generalize hpb7 : (fun pb7 => if decide (v.acr &&& acrPb7Output ≠ 0) = true then
    if decide (v.acr &&& acrT1FreeRun ≠ 0) = true then !pb7 else true else pb7) = f
  obtain ⟨t, k, hstep⟩ := ViaTimer.step_underflows (decide (v.acr &&& acrT1FreeRun ≠ 0))
    (Prod.map (· ||| ifrTimer1) f) cycles v.t1
  rw [hstep, Prod.map_iterate]
  exact ⟨masked_iterate h.ifr (by decide) k, h.ier⟩

theorem stepTimer2 (h : v.Kept) (cycles : Nat) : (v.stepTimer2 cycles).Kept := by
  unfold Via6522.stepTimer2
  split
  · exact h
  · obtain ⟨t, k, hstep⟩ := ViaTimer.step_underflows false (· ||| ifrTimer2) cycles v.t2
    dsimp only
    rw [hstep]
    exact ⟨masked_iterate h.ifr (by decide) k, h.ier⟩

theorem viaStep (h : v.Kept) (cycles : Nat) : (v.viaStep cycles).2.Kept :=
  (h.stepTimer1 cycles).stepTimer2 cycles

end Via6522.Kept

/-- What the chip has of a register. -/
def ayRegMask (reg : Fin 16) : UInt8 :=
  match reg with
  | 1 | 3 | 5 | 13 => 0x0F
  | 6 | 8 | 9 | 10 => 0x1F
  | _ => 0xFF

/-- **A sound chip as it can be**: its registers have their width, its noise is alive and its level
is sound. -/
structure Ay8910.Kept (p : Ay8910) : Prop where
  /-- `regs` -/
  regs : ∀ r, p.regs r &&& ayRegMask r = p.regs r
  /-- `rng` -/
  rng : p.rng ≠ 0
  /-- `envelope_vol` -/
  level : p.LevelSound

namespace Ay8910

variable {p : Ay8910}

/-- **A register keeps its width.** -/
theorem regs_ay8910Write (p : Ay8910) (reg : Fin 16) (val : UInt8) :
    (p.ay8910Write reg val).regs = Function.update p.regs reg (val &&& ayRegMask reg) := by
  have hwhole : val &&& 0xFF = val := UInt8.and_neg_one
  unfold ay8910Write
  split
  case h_9 => rw [ayRegMask, hwhole] <;> assumption
  all_goals rfl

theorem rng_ay8910Write (p : Ay8910) (reg : Fin 16) (val : UInt8) :
    (p.ay8910Write reg val).rng = p.rng := by
  unfold ay8910Write
  split <;> rfl

theorem Kept.new : new.Kept := ⟨fun _ => UInt8.zero_and, by decide, levelSound_new⟩

theorem Kept.write (h : p.Kept) (reg : Fin 16) (val : UInt8) : (p.ay8910Write reg val).Kept := by
  constructor
  case rng => rw [rng_ay8910Write]; exact h.rng
  case level => exact h.level.write reg val
  case regs =>
    intro r
    rw [regs_ay8910Write]
    by_cases hr : r = reg
    · subst hr
      rw [Function.update_self, UInt8.and_assoc, UInt8.and_self]
    · rw [Function.update_of_ne hr]
      exact h.regs r

/-- **The noise does not die**: what is shifted out of the last bit comes in at the first. -/
theorem rng_advanceNoise (h : p.rng ≠ 0) : p.advanceNoise.rng ≠ 0 := by
  intro hzero
  obtain ⟨hshift, hnew⟩ := UInt32.or_eq_zero_iff.1 hzero
  have hone : p.rng = 1 := by
    have hhalf := congrArg UInt32.toNat hshift
    rw [UInt32.toNat_shiftRight] at hhalf
    have hdiv : p.rng.toNat / 2 = 0 := by simpa [Nat.shiftRight_eq_div_pow] using hhalf
    have hpos : p.rng.toNat ≠ 0 := fun hno => h (UInt32.toNat_inj.1 hno)
    exact UInt32.toNat_inj.1 (by show p.rng.toNat = 1; omega)
  rw [hone] at hnew
  exact absurd hnew (by decide)

theorem rng_stepEnvelope (cont alt hold : Bool) : (p.stepEnvelope cont alt hold).rng = p.rng := by
  unfold Ay8910.stepEnvelope
  dsimp only
  split_ifs <;> rfl

theorem rng_tick (h : p.rng ≠ 0) : p.tick.rng ≠ 0 := by
  have hvoices : p.tickVoices.rng ≠ 0 := by
    unfold tickVoices
    dsimp only
    split_ifs <;> first | exact rng_advanceNoise h | exact h
  rw [tick_eq]
  split_ifs
  · exact hvoices
  · rw [rng_stepEnvelope]
    exact hvoices
  · exact hvoices

theorem Kept.tick (h : p.Kept) : p.tick.Kept where
  regs := by
    rw [regs_tick]
    exact h.regs
  rng := rng_tick h.rng
  level := h.level.tick

theorem Kept.ticks (h : p.Kept) (n : Nat) : (Ay8910.tick^[n] p).Kept := by
  induction n with
  | zero => exact h
  | succ n ih =>
    rw [Function.iterate_succ_apply']
    exact ih.tick

end Ay8910

end LinApple.Chips

namespace LinApple.Cards

open LinApple.Chips

/-! ## The frame that is saved -/

/-- The values of `ViaTimerPhase`. -/
def phaseCode : ViaTimerPhase → UInt8
  | .running => 0
  | .loadDelay => 1
  | .reloadPending => 2

/-- **`pack_via_flags`** -/
def packViaFlags (v : Via6522) : UInt8 :=
  (if v.t1.fired then (0x01 : UInt8) else 0x00) ||| (if v.t2.fired then 0x02 else 0x00)
    ||| (if v.pb7 then 0x04 else 0x00) ||| (phaseCode v.t1.phase <<< (3 : UInt8))
    ||| (phaseCode v.t2.phase <<< (5 : UInt8))

/-- What `mb_abi_save_state` saves of a 6522 and its sound chip. -/
def saveChip (v : Via6522) (psg : Ay8910) (latched : Fin 16) : MockingboardChipSaveState where
  orb := v.orb
  ora := v.ora
  ddrb := v.ddrb
  ddra := v.ddra
  t1Counter := v.t1.counter
  t1Latch := v.t1.latch
  t2Counter := v.t2.counter
  t2Latch := v.t2.latch
  serialShift := v.shiftRegister
  acr := v.acr
  pcr := v.pcr
  ifr := v.ifr
  ier := v.ier
  oraNoHs := v.oraNoHandshake
  viaFlags := packViaFlags v
  ayRegs := psg.regs
  tone := psg.tone
  outN := psg.outN
  countN := psg.countN
  rng := psg.rng
  countE := psg.countE
  envelopeStep := psg.envelopeStep
  envHolding := if psg.envHolding then 1 else 0
  ayCurrentRegister := UInt16.ofNat latched
  envAttack := if psg.envAttack then 1 else 0

/-- **`mb_abi_save_state`**, into a buffer that is large enough. -/
def Mockingboard.mbAbiSaveState (mb : Mockingboard) : MockingboardSaveState where
  size := 232
  version := 1
  structSize := 232
  chips := fun i => saveChip (mb.via i) (mb.ay i) (mb.ayLatchedRegister i)
  psgRemainder := UInt32.ofNat mb.psgRemainder

/-! ## The frame that is loaded -/

/-- The flags come out of their byte. -/
theorem flags_packViaFlags (v : Via6522) :
    decide (packViaFlags v &&& 0x01 ≠ 0) = v.t1.fired
      ∧ decide (packViaFlags v &&& 0x02 ≠ 0) = v.t2.fired
      ∧ decide (packViaFlags v &&& 0x04 ≠ 0) = v.pb7
      ∧ unpackPhase (packViaFlags v) 3 = v.t1.phase
      ∧ unpackPhase (packViaFlags v) 5 = v.t2.phase := by
  unfold packViaFlags unpackPhase
  cases v.t1.fired <;> cases v.t2.fired <;> cases v.pb7 <;> cases v.t1.phase <;>
    cases v.t2.phase <;> decide

/-- **A 6522 comes back.** -/
theorem loadVia_saveChip {v : Via6522} (h : v.Kept) (psg : Ay8910) (latched : Fin 16) :
    (saveChip v psg latched).loadVia = v := by
  obtain ⟨hfired1, hfired2, hpb7, hphase1, hphase2⟩ := flags_packViaFlags v
  have ht1 : (⟨v.t1.counter, v.t1.latch, unpackPhase (packViaFlags v) 3,
      packViaFlags v &&& 0x01 ≠ 0⟩ : ViaTimer) = v.t1 := by
    rw [hphase1, hfired1]
  have ht2 : (⟨v.t2.counter, v.t2.latch, unpackPhase (packViaFlags v) 5,
      packViaFlags v &&& 0x02 ≠ 0⟩ : ViaTimer) = v.t2 := by
    rw [hphase2, hfired2]
  unfold MockingboardChipSaveState.loadVia saveChip
  dsimp only
  rw [h.ifr, h.ier, ht1, ht2, hpb7]

/-- Registers that are written one after another, or hold what is written already. -/
theorem regs_foldl_ay8910Write {vals : Fin 16 → UInt8} {rs : List (Fin 16)} {psg : Ay8910}
    {r : Fin 16} (h : psg.regs r = vals r &&& ayRegMask r ∨ r ∈ rs) :
    (rs.foldl (fun p r => p.ay8910Write r (vals r)) psg).regs r = vals r &&& ayRegMask r := by
  induction rs generalizing psg with
  | nil => exact h.resolve_right List.not_mem_nil
  | cons s rs ih =>
    rw [List.foldl_cons]
    refine ih ?_
    rw [Ay8910.regs_ay8910Write]
    by_cases hhead : r = s
    · rw [hhead, Function.update_self]
      exact .inl rfl
    · rw [Function.update_of_ne hhead]
      exact h.imp_right fun hmem => (List.mem_cons.1 hmem).resolve_left hhead

/-- **A sound chip comes back**, whatever was in the chip it is loaded into. -/
theorem loadAy_saveChip {psg : Ay8910} (h : psg.Kept) (v : Via6522) (latched : Fin 16)
    (other : Ay8910) : (saveChip v psg latched).loadAy other = psg := by
  have hregs : ((List.finRange 16).foldl (fun p r => p.ay8910Write r (psg.regs r)) other).regs
      = psg.regs := by
    funext r
    rw [regs_foldl_ay8910Write (.inr (List.mem_finRange r)), h.regs]
  have hstep : psg.envelopeStep &&& 0x0F = psg.envelopeStep := by
    have hle := UInt32.le_iff_toNat_le.1 h.level.step_le
    apply UInt32.toNat_inj.1
    rw [UInt32.toNat_and]
    show psg.envelopeStep.toNat &&& (2 ^ 4 - 1) = _
    rw [Nat.and_two_pow_sub_one_eq_mod]
    exact Nat.mod_eq_of_lt (Nat.lt_succ_of_le hle)
  have hvol : (if (if psg.envAttack then (1 : UInt8) else 0) ≠ 0 then psg.envelopeStep
      else 15 - psg.envelopeStep).toUInt8 = psg.envelopeVol := by
    rw [h.level.vol_eq]
    cases psg.envAttack <;> rfl
  have hbool (b : Bool) : decide ((if b then (1 : UInt8) else 0) ≠ 0) = b := by
    cases b <;> decide
  unfold MockingboardChipSaveState.loadAy saveChip
  dsimp only
  rw [hregs, hstep, if_pos h.rng, hvol, hbool, hbool]

/-! ## The card as it can be -/

/-- **The chips as they can be.** -/
structure MockingboardChips.Kept (c : MockingboardChips) : Prop where
  /-- The 6522s. -/
  via : ∀ i, (c.via i).Kept
  /-- The sound chips. -/
  ay : ∀ i, (c.ay i).Kept

namespace MockingboardChips.Kept

variable {c : MockingboardChips}

/-- What holds of every chip holds of them when one is replaced by another of which it holds. -/
theorem update {α : Type} {P : α → Prop} {f : Fin 2 → α} (h : ∀ i, P (f i)) {chip : Fin 2} {a : α}
    (ha : P a) (i : Fin 2) : P (Function.update f chip a i) := by
  by_cases hi : i = chip
  · subst hi
    rwa [Function.update_self]
  · rw [Function.update_of_ne hi]
    exact h i

theorem ayBusCycle (h : c.Kept) (chip : Fin 2) (orb : UInt8) : (c.ayBusCycle chip orb).Kept := by
  unfold MockingboardChips.ayBusCycle
  dsimp only
  split_ifs
  · exact ⟨h.via, update h.ay .new⟩
  · exact ⟨h.via, h.ay⟩
  · exact h
  · exact ⟨h.via, update h.ay ((h.ay chip).write _ _)⟩
  · exact ⟨update h.via ⟨(h.via chip).ifr, (h.via chip).ier⟩, h.ay⟩
  · exact h

theorem read (h : c.Kept) (addr : UInt16) : (c.read addr).2.Kept :=
  ⟨update h.via ((h.via _).viaRead _), h.ay⟩

theorem write (h : c.Kept) (addr : UInt16) (val : UInt8) : (c.write addr val).Kept := by
  have hvia : MockingboardChips.Kept { c with
      via := Function.update c.via (chipOf addr)
        ((c.via (chipOf addr)).viaWrite (regOf addr) val) } :=
    ⟨update h.via ((h.via _).viaWrite _ _), h.ay⟩
  unfold MockingboardChips.write
  dsimp only
  split_ifs
  · exact hvia.ayBusCycle _ _
  · exact hvia

end MockingboardChips.Kept

/-- **The card as it can be between two batches.** -/
structure Mockingboard.Kept (mb : Mockingboard) : Prop extends mb.Between where
  /-- The chips. -/
  chips : mb.toMockingboardChips.Kept

namespace Mockingboard

variable {mb : Mockingboard}

/-- The chips are brought up to date. -/
theorem kept_advance (h : mb.toMockingboardChips.Kept) (cycles : Nat) :
    (mb.advance cycles).toMockingboardChips.Kept := by
  unfold advance
  split_ifs
  · exact h
  · dsimp only
    rw [renderChunks_eq, stepVias_toMockingboardChips]
    exact ⟨fun i => (h.via i).viaStep cycles, fun i => (h.ay i).ticks _⟩

theorem kept_syncTo (h : mb.toMockingboardChips.Kept) (executed : Nat) :
    (mb.syncTo executed).toMockingboardChips.Kept := by
  unfold syncTo
  split_ifs
  · exact h
  · exact kept_advance h _

/-- A register is read or written. -/
theorem kept_access (h : mb.toMockingboardChips.Kept) (a : Access) :
    (mb.access a).2.toMockingboardChips.Kept := by
  have hsynced := kept_syncTo h a.executed
  unfold access
  cases a.val with
  | none =>
    show (updateIrq _).toMockingboardChips.Kept
    rw [updateIrq_toMockingboardChips]
    exact hsynced.read a.addr
  | some val =>
    show (updateIrq _).toMockingboardChips.Kept
    rw [updateIrq_toMockingboardChips]
    exact hsynced.write a.addr val

theorem kept_run (h : mb.toMockingboardChips.Kept) (as : List Access) :
    (run as mb).2.toMockingboardChips.Kept := by
  induction as generalizing mb with
  | nil => exact h
  | cons a as ih => exact ih (kept_access h a)

theorem kept_mbAbiThink (h : mb.toMockingboardChips.Kept) (cycles : Nat) :
    (mb.mbAbiThink cycles).toMockingboardChips.Kept := by
  unfold mbAbiThink
  dsimp only
  split_ifs
  · exact kept_advance h _
  · exact h

/-- A 6522 that a frame says anything of. -/
theorem kept_loadVia (src : MockingboardChipSaveState) : src.loadVia.Kept := by
  have hmask (a : UInt8) : (a &&& ifrMask) &&& ifrMask = a &&& ifrMask := by
    rw [UInt8.and_assoc, UInt8.and_self]
  exact ⟨hmask _, hmask _⟩

/-- A sound chip that a frame says anything of. -/
theorem kept_loadAy (src : MockingboardChipSaveState) (psg : Ay8910) : (src.loadAy psg).Kept where
  regs r := by
    have hregs : (src.loadAy psg).regs r = src.ayRegs r &&& ayRegMask r :=
      regs_foldl_ay8910Write (.inr (List.mem_finRange r))
    rw [hregs, UInt8.and_assoc, UInt8.and_self]
  rng := by
    unfold MockingboardChipSaveState.loadAy
    dsimp only
    split_ifs with hrng
    · exact hrng
    · decide
  level := by
    unfold MockingboardChipSaveState.loadAy
    refine ⟨?_, ?_⟩
    · rw [UInt32.le_iff_toNat_le]
      show (src.envelopeStep &&& 0x0F).toNat ≤ 15
      rw [UInt32.toNat_and]
      exact Nat.and_le_right
    · simp only [decide_eq_true_eq]

/-- **Whatever frame is loaded, the card is one that can be.** -/
theorem kept_mbAbiLoadState {mb' : Mockingboard} {ss : MockingboardSaveState}
    (h : mb.mbAbiLoadState ss = some mb') : mb'.toMockingboardChips.Kept := by
  unfold mbAbiLoadState at h
  split_ifs at h
  obtain rfl := Option.some.inj h
  rw [updateIrq_toMockingboardChips]
  exact ⟨fun i => kept_loadVia _, fun i => kept_loadAy _ _⟩

/-- **Every operation leaves a card that can be.** -/
theorem Kept.perform (h : mb.Kept) (op : MockingboardOp) : (mb.perform op).Kept := by
  refine { toBetween := h.toBetween.perform op, chips := ?_ }
  cases op with
  | batch b => exact kept_mbAbiThink (kept_run h.chips b.accesses) b.total
  | reset => exact ⟨fun i => .viaReset _, fun _ => .new⟩
  | load ss =>
    show ((mb.mbAbiLoadState ss).getD mb).toMockingboardChips.Kept
    cases hload : mb.mbAbiLoadState ss with
    | none => exact h.chips
    | some mb' => exact kept_mbAbiLoadState hload

theorem Kept.history (h : mb.Kept) (ops : List MockingboardOp) : (mb.history ops).Kept := by
  induction ops generalizing mb with
  | nil => exact h
  | cons op ops ih => exact ih (h.perform op)

theorem kept_mbAbiInit (level : Bool) : (mbAbiInit level).Kept where
  toBetween := between_mbAbiInit level
  chips := ⟨fun _ => ⟨UInt8.zero_and, UInt8.zero_and⟩, fun _ => .new⟩

/-! ## The saved card goes on -/

/-- **Two cards between two batches that go on alike.** -/
structure GoesOnAs (mb mb' : Mockingboard) : Prop where
  /-- The one is between two batches, -/
  left : mb.Between
  /-- and so is the other. -/
  right : mb'.Between
  /-- The chips are in one state. -/
  chips : mb'.toMockingboardChips = mb.toMockingboardChips
  /-- So much is left of the last tick. -/
  remainder : mb'.psgRemainder = mb.psgRemainder

/-- **What is saved is loaded**, into whatever card. -/
theorem Kept.mbAbiLoadState_mbAbiSaveState (h : mb.Kept) (other : Mockingboard) :
    ∃ mb', other.mbAbiLoadState mb.mbAbiSaveState = some mb' ∧ mb.GoesOnAs mb' := by
  have hload : other.mbAbiLoadState mb.mbAbiSaveState = some (updateIrq
      { other with
        toMockingboardChips := mb.toMockingboardChips
        psgRemainder := mb.psgRemainder
        synced := 0 }) := by
    have hvia (i : Fin 2) : (mb.mbAbiSaveState.chips i).loadVia = mb.via i :=
      loadVia_saveChip (h.chips.via i) _ _
    have hay (i : Fin 2) : (mb.mbAbiSaveState.chips i).loadAy (other.ay i) = mb.ay i :=
      loadAy_saveChip (h.chips.ay i) _ _ _
    have hlatched (i : Fin 2) : Fin.ofNat 16 (mb.mbAbiSaveState.chips i).ayCurrentRegister.toNat
        = mb.ayLatchedRegister i := by
      show Fin.ofNat 16 (UInt16.ofNat (mb.ayLatchedRegister i)).toNat = _
      apply Fin.ext
      show (mb.ayLatchedRegister i : Nat) % 65536 % 16 = _
      have := (mb.ayLatchedRegister i).isLt
      omega
    have hremainder : mb.mbAbiSaveState.psgRemainder.toNat % cyclesPerAyTick = mb.psgRemainder := by
      have hlt : mb.psgRemainder < 8 := h.remainder
      show mb.psgRemainder % 4294967296 % 8 = _
      omega
    have haccept : ¬(mb.mbAbiSaveState.version ≠ 1 ∨ mb.mbAbiSaveState.structSize ≠ 232) := by
      show ¬((1 : UInt32) ≠ 1 ∨ (232 : UInt32) ≠ 232)
      decide
    unfold mbAbiLoadState
    rw [if_neg (fun hsize => hsize rfl), if_neg haccept]
    simp only [hvia, hay, hlatched, hremainder]
  refine ⟨_, hload, ⟨h.toBetween, Between.mbAbiLoadState hload, ?_, psgRemainder_updateIrq _⟩⟩
  exact updateIrq_toMockingboardChips _

/-- They answer alike, and go on alike after it. -/
theorem GoesOnAs.runBatches {mb' : Mockingboard} (h : mb.GoesOnAs mb') (bs : List Batch) :
    (mb'.runBatches bs).1 = (mb.runBatches bs).1 ∧ (mb.runBatches bs).2.GoesOnAs
      (mb'.runBatches bs).2 := by
  have hclocked : mb'.clocked = mb.clocked := by
    unfold clocked
    rw [h.chips, h.remainder]
  obtain ⟨hanswers, hfollows, hsynced⟩ := @Follows.runBatches _ bs _ _ h.left.follows h.left.synced
  obtain ⟨hanswers', hfollows', hsynced'⟩ :=
    @Follows.runBatches _ bs _ _ h.right.follows h.right.synced
  rw [hclocked] at hanswers' hfollows'
  exact ⟨hanswers'.trans hanswers.symm, hfollows.between hsynced, hfollows'.between hsynced',
    hfollows'.chips.trans hfollows.chips.symm, hfollows'.remainder.trans hfollows.remainder.symm⟩

/-- The frames of cards that go on alike are one frame. -/
theorem GoesOnAs.mbAbiSaveState_eq {mb' : Mockingboard} (h : mb.GoesOnAs mb') :
    mb'.mbAbiSaveState = mb.mbAbiSaveState := by
  unfold mbAbiSaveState
  rw [h.chips, h.remainder]

/-- **Whatever is done to both, they go on alike.** -/
theorem GoesOnAs.perform {mb' : Mockingboard} (h : mb.GoesOnAs mb') (op : MockingboardOp) :
    (mb.perform op).GoesOnAs (mb'.perform op) := by
  cases op with
  | batch b => exact (h.runBatches [b]).2
  | reset =>
    refine ⟨between_mbAbiReset mb, between_mbAbiReset mb', ?_, rfl⟩
    show (mb'.mbAbiReset).toMockingboardChips = (mb.mbAbiReset).toMockingboardChips
    unfold mbAbiReset
    rw [h.chips]
  | load ss =>
    have hboth : (mb'.perform (.load ss)).toMockingboardChips
          = (mb.perform (.load ss)).toMockingboardChips
        ∧ (mb'.perform (.load ss)).psgRemainder = (mb.perform (.load ss)).psgRemainder := by
      unfold Mockingboard.perform mbAbiLoadState
      dsimp only
      split_ifs
      · exact ⟨h.chips, h.remainder⟩
      · exact ⟨h.chips, h.remainder⟩
      · simp only [Option.getD_some, updateIrq_toMockingboardChips, psgRemainder_updateIrq, h.chips,
          and_self]
    exact ⟨h.left.perform _, h.right.perform _, hboth.1, hboth.2⟩

theorem GoesOnAs.history {mb' : Mockingboard} (h : mb.GoesOnAs mb') (ops : List MockingboardOp) :
    (mb.history ops).GoesOnAs (mb'.history ops) := by
  induction ops generalizing mb mb' with
  | nil => exact h
  | cons op ops ih => exact ih (h.perform op)

/-- **A card goes on from its frame.** Whatever has been done to the card, its frame loads into
every card, whatever has been done to that one; from there on, whatever is done to both, every
access is answered as by the card that was saved, with the same line after it, and the frame that
is saved at the end is the same. -/
theorem restored_goes_on (level : Bool) (ops : List MockingboardOp) (other : Mockingboard) :
    let mb := (mbAbiInit level).history ops
    ∃ mb', other.mbAbiLoadState mb.mbAbiSaveState = some mb'
      ∧ ∀ (later : List MockingboardOp) (bs : List Batch),
        ((mb'.history later).runBatches bs).1 = ((mb.history later).runBatches bs).1
        ∧ ((mb'.history later).runBatches bs).2.mbAbiSaveState
          = ((mb.history later).runBatches bs).2.mbAbiSaveState := by
  intro mb
  obtain ⟨mb', hload, hgoes⟩ :=
    ((kept_mbAbiInit level).history ops).mbAbiLoadState_mbAbiSaveState other
  refine ⟨mb', hload, fun later bs => ?_⟩
  obtain ⟨hanswers, hend⟩ := (hgoes.history later).runBatches bs
  exact ⟨hanswers, hend.mbAbiSaveState_eq⟩

end Mockingboard

end LinApple.Cards
