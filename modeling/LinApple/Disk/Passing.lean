import LinApple.Disk.Invariant

/-!
# What passes under the head

The sequencer reads the cells that pass under the head and lays new ones down. It
changes nothing else: not which drive is selected, where its head is or how long
it turns, not what is in the other drive, and it asks no driver for anything.
-/

namespace LinApple.Disk

/-! ## A drive -/

/-- **What cells passing under the head leave of a drive.** Cells that are from
where the head is stay so. -/
structure Drive.Passed (d d' : Drive) : Prop where
  /-- The head is over the same quarter track. -/
  quarterTrack : d'.quarterTrack = d.quarterTrack
  /-- There are as many cells. -/
  bitCount : d'.bitCount = d.bitCount
  /-- The disk is as protected as it was. -/
  isUserWriteProtected : d'.isUserWriteProtected = d.isUserWriteProtected
  /-- The track is loaded if it was. -/
  isDataLoaded : d'.isDataLoaded = d.isDataLoaded
  /-- The drive turns for as long. -/
  motorEnableCycles : d'.motorEnableCycles = d.motorEnableCycles
  /-- It is the same disk. -/
  driver : d'.driver = d.driver
  /-- The cells are from where they were. -/
  origin : d.origin = d.place → d'.origin = d.origin

namespace Drive.Passed

theorem refl (d : Drive) : d.Passed d := ⟨rfl, rfl, rfl, rfl, rfl, rfl, fun _ => rfl⟩

theorem place {d d' : Drive} (h : d.Passed d') : d'.place = d.place := by
  unfold Drive.place
  rw [h.driver, h.quarterTrack]

theorem trans {d d' d'' : Drive} (h : d.Passed d') (h' : d'.Passed d'') : d.Passed d'' where
  quarterTrack := h'.quarterTrack.trans h.quarterTrack
  bitCount := h'.bitCount.trans h.bitCount
  isUserWriteProtected := h'.isUserWriteProtected.trans h.isUserWriteProtected
  isDataLoaded := h'.isDataLoaded.trans h.isDataLoaded
  motorEnableCycles := h'.motorEnableCycles.trans h.motorEnableCycles
  driver := h'.driver.trans h.driver
  origin hd := (h'.origin ((h.origin hd).trans (hd.trans h.place.symm))).trans (h.origin hd)

end Drive.Passed

theorem Drive.yields_commitCell (d : Drive) (pulse : Bool) :
    Yields (d.commitCell pulse) d.Passed := by
  unfold Drive.commitCell Drive.setCell
  dsimp only
  split_ifs
  · exact .pure ⟨rfl, rfl, rfl, rfl, rfl, rfl, fun horigin => if_pos horigin⟩
  · exact .none

/-! ## The card -/

namespace DiskPeripheral

variable {D : Drivers} {p6 : UInt8 → UInt8} {dp dp' dp'' : DiskPeripheral}

/-- The card but for its drives and what the sequencer works with. -/
def besides (dp : DiskPeripheral) : DiskPeripheral :=
  { dp with drives := fun _ => .empty, ioLatch := 0, sequencer := .new, noiseSeed := 0 }

/-- **What cells passing under the head leave of the card.** -/
structure Passes (dp dp' : DiskPeripheral) : Prop where
  /-- What is besides. -/
  besides : dp'.besides = dp.besides
  /-- The selected drive. -/
  active : dp.activeDrive.Passed dp'.activeDrive
  /-- The other drive. -/
  others : ∀ i, i ≠ dp.activeDriveIndex → dp'.drives i = dp.drives i

namespace Passes

/-- What is besides is kept. -/
theorem kept {α : Type} (h : dp.Passes dp') (f : DiskPeripheral → α) :
    f dp'.besides = f dp.besides := congrArg f h.besides

theorem activeDriveIndex (h : dp.Passes dp') : dp'.activeDriveIndex = dp.activeDriveIndex :=
  h.kept DiskPeripheral.activeDriveIndex

theorem toDiskTrace (h : dp.Passes dp') : dp'.toDiskTrace = dp.toDiskTrace :=
  h.kept DiskPeripheral.toDiskTrace

theorem isMotorOn (h : dp.Passes dp') : dp'.isMotorOn = dp.isMotorOn :=
  h.kept DiskPeripheral.isMotorOn

theorem stepperPhaseMask (h : dp.Passes dp') : dp'.stepperPhaseMask = dp.stepperPhaseMask :=
  h.kept DiskPeripheral.stepperPhaseMask

theorem refl (dp : DiskPeripheral) : dp.Passes dp := ⟨rfl, .refl _, fun _ _ => rfl⟩

theorem trans (h : dp.Passes dp') (h' : dp'.Passes dp'') : dp.Passes dp'' where
  besides := h'.besides.trans h.besides
  active := h.active.trans h'.active
  others i hi := (h'.others i (h.activeDriveIndex ▸ hi)).trans (h.others i hi)

/-- Both drives. -/
theorem drives (h : dp.Passes dp') (i : Fin 2) : (dp.drives i).Passed (dp'.drives i) := by
  by_cases hi : i = dp.activeDriveIndex
  · have hactive : dp'.drives dp.activeDriveIndex = dp'.activeDrive := by
      rw [← h.activeDriveIndex]
      rfl
    rw [hi, hactive]
    exact h.active
  · rw [h.others i hi]
    exact .refl _

end Passes

theorem passes_setActive {d : Drive} (h : dp.activeDrive.Passed d) :
    dp.Passes (dp.setActive d) where
  besides := rfl
  active := by
    rw [activeDrive_setActive]
    exact h
  others i hi := Function.update_of_ne hi ..

theorem yields_commitWriteCell (dp : DiskPeripheral) : Yields dp.commitWriteCell dp.Passes := by
  refine (dp.activeDrive.yields_commitCell dp.sequencer.writePulsePending).bind fun d hd => ?_
  have hset := passes_setActive hd
  exact .pure ⟨hset.besides, hset.active, hset.others⟩

theorem passes_amplify (dp : DiskPeripheral) (cell pulse : Bool) :
    dp.Passes (dp.amplify cell pulse).1 := by
  unfold amplify
  dsimp only
  split_ifs
  · exact passes_setActive ⟨rfl, rfl, rfl, rfl, rfl, rfl, fun _ => rfl⟩
  · exact passes_setActive ⟨rfl, rfl, rfl, rfl, rfl, rfl, fun _ => rfl⟩
  · exact ⟨rfl, .refl _, fun _ _ => rfl⟩

theorem yields_passCell (mayWrite : Bool) (s : DiskPeripheral × Bool) :
    Yields (passCell mayWrite s) fun t => s.1.Passes t.1 := by
  have hcommit : Yields (if mayWrite then s.1.commitWriteCell else some s.1) s.1.Passes := by
    split_ifs
    · exact yields_commitWriteCell s.1
    · exact .pure (.refl _)
  rw [passCell_eq]
  refine hcommit.bind fun dp' hpasses => Yields.bind (P := fun _ => True) (fun _ _ => trivial)
    fun cell _ => .pure ?_
  have hamplified := hpasses.trans (passes_amplify dp' cell s.2)
  exact hamplified.trans (passes_setActive ⟨rfl, rfl, rfl, rfl, rfl, rfl, fun _ => rfl⟩)

theorem yields_passCells (mayWrite : Bool) (fuel : Nat) (s : DiskPeripheral × Bool) :
    Yields (passCells mayWrite fuel s) fun t => s.1.Passes t.1 := by
  induction fuel generalizing s with
  | zero =>
    unfold passCells
    split_ifs
    · exact .none
    · exact .pure (.refl _)
  | succ fuel ih =>
    unfold passCells
    split_ifs
    · exact (yields_passCell mayWrite s).bind fun t ht => (ih t).mono fun _ hu => ht.trans hu
    · exact .pure (.refl _)

theorem yields_advanceMediumOneStep (dp : DiskPeripheral) (mayWrite : Bool) :
    Yields (dp.advanceMediumOneStep mayWrite) fun t => dp.Passes t.2 := by
  unfold advanceMediumOneStep
  split_ifs
  · exact .pure ⟨rfl, .refl _, fun _ _ => rfl⟩
  · have hstart : dp.Passes (dp.setActive { dp.activeDrive with
        cellRemaining := dp.activeDrive.cellRemaining - 4 }) :=
      passes_setActive ⟨rfl, rfl, rfl, rfl, rfl, rfl, fun _ => rfl⟩
    exact (yields_passCells mayWrite _ _).bind fun t ht => .pure (hstart.trans ht)

theorem yields_sequencerStep (dp : DiskPeripheral) (isProtected mayWrite : Bool) :
    Yields (dp.sequencerStep p6 isProtected mayWrite) dp.Passes :=
  (yields_advanceMediumOneStep dp mayWrite).bind fun _ ht =>
    .pure ⟨ht.besides, ht.active, ht.others⟩

/-- The card brought to a cycle, before anything passes under the head. -/
def marked (dp : DiskPeripheral) (executedCycles : Nat) : DiskPeripheral :=
  { dp with
    synced := executedCycles
    cumulativeCycles := dp.cumulativeCycles + UInt32.ofNat (executedCycles - dp.synced) }

/-- The track under the head is read, unless it has been. -/
def readUnlessLoaded (D : Drivers) (dp : DiskPeripheral) : DiskPeripheral :=
  if !dp.activeDrive.isDataLoaded && dp.activeDrive.driver.isSome then
    dp.readTrackFromDriver D dp.activeDriveIndex
  else dp

/-- **However long the sequencer runs**: if the selected drive turns, the track
under its head is read and its cells pass. -/
theorem yields_syncSequencerToCycle {P : DiskPeripheral → Prop} {executedCycles : Nat}
    (hsame : executedCycles ≤ dp.synced → P dp)
    (hstill : dp.synced < executedCycles → dp.activeDrive.motorEnableCycles = 0 →
      P (dp.marked executedCycles))
    (hpass : dp.synced < executedCycles → 0 < dp.activeDrive.motorEnableCycles → ∀ dp',
      ((dp.marked executedCycles).readUnlessLoaded D).Passes dp' → P dp') :
    Yields (dp.syncSequencerToCycle D p6 executedCycles) P := by
  unfold syncSequencerToCycle
  split_ifs with hsynced
  · exact .pure (hsame hsynced)
  · have hlater := Nat.not_le.mp hsynced
    unfold runSequencerCycles
    dsimp only
    rw [if_neg (Nat.sub_ne_zero_of_lt hlater)]
    split
    next hmotor => exact .pure (hstill hlater hmotor)
    next hmotor =>
      refine (Yields.rounds (P := ((dp.marked executedCycles).readUnlessLoaded D).Passes)
        (fun s hs => (yields_sequencerStep s _ _).mono fun _ ht => hs.trans ht) (.refl _)).mono ?_
      exact hpass hlater (Nat.pos_of_ne_zero hmotor)

end DiskPeripheral

end LinApple.Disk
