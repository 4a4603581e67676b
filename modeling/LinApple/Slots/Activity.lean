import LinApple.Disk.Activity
import LinApple.Harddisk.Activity

/-!
# The activity the host has recorded

The host keeps, for each slot, what its card last told it of its activity, and the emulator runs
at full speed while any of them is active. What is recorded for the disk card and for the hard
disk is true as long as nothing starts or stops them behind the host's back.

A slot is a machine of its own here: empty, with what is recorded of it, or with a card. The
record has to be a part of the empty slot as well, because a card that is taken out while it is
active leaves its last word behind, and the emulator then runs at full speed for good. What can be
done to a slot is registering and unregistering, clearing all the slots, and everything that can
be done to the card in it, with the cycles that pass and the save states that are loaded among it.

For the disk card the truth is whether a drive still spins, by its motor counter, and for the hard
disk whether its controller is in the phase that it calls busy itself. Most steps tell the host of
a change and are right in every state. The others each have a case in which they change the truth
and say nothing, and the condition (`DiskSlot.Announced`, `HarddiskSlot.Announced`) names that
case for each of them, in terms of the state before the step and of what the step is given. A run
whose steps all meet it stays truthful in every state (`truthful_run`). A step is a partial
computation, since an index of the card may run out of its array; the theorem says that none does.
-/

namespace LinApple.Slots

open Disk DiskPeripheral Harddisk

/-! ## The disk card in its slot -/

/-- **The slot of the disk card**, which holds the card or what is left of one. -/
inductive DiskSlot where
  /-- There is no card. -/
  | empty (trace : DiskTrace)
  /-- There is one. -/
  | card (dp : DiskPeripheral)

/-- What is done to the slot. -/
inductive DiskSlotOp where
  /-- `peripheral_register`, and what comes of the images the configuration names. -/
  | register (image1 image2 : Option OpenAnswer)
  /-- `peripheral_unregister` -/
  | unregister
  /-- `clear_all_peripherals` -/
  | clearAll
  /-- Something is done to the card, if there is one. -/
  | card (op : DiskOp)

namespace DiskSlot

variable {D : Drivers} {p6 : UInt8 → UInt8}

/-- `peripheral_activity_state` of the slot. -/
def recorded : DiskSlot → Bool
  | .empty trace => trace.activity
  | .card dp => dp.activity

/-- **What an operation does to the slot.** -/
def perform (D : Drivers) (p6 : UInt8 → UInt8) : DiskSlot → DiskSlotOp → Option DiskSlot
  | .empty trace, .register image1 image2 => some (.card (diskAbiInit D trace image1 image2))
  | .empty trace, .clearAll => some (.empty { trace with activity := false })
  | .empty trace, _ => some (.empty trace)
  | .card dp, .register _ _ => some (.card dp)
  | .card dp, .unregister => some (.empty (dp.diskAbiShutdown D).toDiskTrace)
  | .card dp, .clearAll =>
    some (.empty { (dp.diskAbiShutdown D).toDiskTrace with activity := false })
  | .card dp, .card op => card <$> dp.perform D p6 op

/-- A drive of the card is spinning. -/
def Spins (i : Fin 2) : DiskSlot → Prop
  | .empty _ => False
  | .card dp => dp.motion.Spins i

/-- **What is recorded is true**: the slot is active if and only if it holds a
card one of whose drives is spinning. -/
def Truthful (s : DiskSlot) : Prop := s.recorded = true ↔ ∃ i, s.Spins i

/-- What holds of the card holds. -/
def Sound : DiskSlot → Prop
  | .empty _ => True
  | .card dp => dp.Sound

/-- Nothing that is done starts a drive or stops one behind the host's back; the
card is taken out while no drive is spinning. -/
def Announced : DiskSlot → DiskSlotOp → Prop
  | .card dp, .card op => DiskPeripheral.Announced dp.motion op
  | .card dp, .unregister => ∀ i, ¬ dp.motion.Spins i
  | _, _ => True

/-- The card tells its slot nothing when it goes. -/
theorem activity_diskAbiShutdown (dp : DiskPeripheral) :
    (dp.diskAbiShutdown D).activity = dp.activity := by
  have hmotion : (dp.diskAbiShutdown D).motion = (dp.motion.setMotor 0 0).setMotor 1 0 :=
    (motion_ejectDiskFromDrive _ 1).trans
      (congrArg (fun m : Motion => m.setMotor 1 0) (motion_ejectDiskFromDrive dp 0))
  exact congrArg Motion.activity hmotion

theorem truthful_empty {trace : DiskTrace} (h : trace.activity = false) :
    (empty trace).Truthful :=
  iff_of_false (Bool.eq_false_iff.mp h) fun ⟨_, hspins⟩ => hspins

/-- **What an announced operation leaves true.** -/
theorem ends_perform (hD : D.Contract) {s : DiskSlot} {op : DiskSlotOp}
    (h : s.Sound ∧ s.Truthful) (hop : s.Announced op) :
    Ends (s.perform D p6 op) fun s' => s'.Sound ∧ s'.Truthful := by
  obtain ⟨hsound, htruthful⟩ := h
  cases s with
  | empty trace =>
    have hquiet : trace.activity = false :=
      Bool.eq_false_iff.mpr fun hactive => absurd (htruthful.mp hactive) fun ⟨_, hspins⟩ => hspins
    cases op with
    | register image1 image2 =>
      refine .pure ⟨sound_diskAbiInit trace image1 image2, ?_⟩
      show Motion.Truthful (diskAbiInit D trace image1 image2).motion
      rw [motion_diskAbiInit, hquiet]
      exact iff_of_false Bool.false_ne_true fun ⟨_, hspins⟩ => Nat.lt_irrefl 0 hspins
    | unregister => exact .pure ⟨trivial, truthful_empty hquiet⟩
    | clearAll => exact .pure ⟨trivial, truthful_empty rfl⟩
    | card op => exact .pure ⟨trivial, truthful_empty hquiet⟩
  | card dp =>
    cases op with
    | register image1 image2 => exact .pure ⟨hsound, htruthful⟩
    | unregister =>
      refine .pure ⟨trivial, truthful_empty ?_⟩
      refine (activity_diskAbiShutdown dp).trans (Bool.eq_false_iff.mpr fun hactive => ?_)
      obtain ⟨i, hspins⟩ := htruthful.mp hactive
      exact hop i hspins
    | clearAll => exact .pure ⟨trivial, truthful_empty rfl⟩
    | card op =>
      have hends : Ends (dp.perform D p6 op) fun dp' => dp'.Sound ∧ dp'.motion.Truthful :=
        (DiskPeripheral.Sound.perform hD hsound op).and_yields (yields_perform htruthful hop)
      exact hends.map fun dp' h => h

end DiskSlot

/-! ## The hard disk in its slot -/

/-- **The slot of the hard disk**, with what the host was last told if there is no
card. -/
inductive HarddiskSlot where
  /-- There is no card. -/
  | empty (activity : Bool)
  /-- There is one. -/
  | card (hp : HarddiskPeripheral)

/-- What is done to the slot. -/
inductive HarddiskSlotOp where
  /-- `peripheral_register` -/
  | register
  /-- `peripheral_unregister` -/
  | unregister
  /-- `clear_all_peripherals` -/
  | clearAll
  /-- Something is done to the card, if there is one. -/
  | card (op : HarddiskOp)

namespace HarddiskSlot

/-- `peripheral_activity_state` of the slot. -/
def recorded : HarddiskSlot → Bool
  | .empty activity => activity
  | .card hp => hp.activity

/-- **What an operation does to the slot.** -/
def perform : HarddiskSlot → HarddiskSlotOp → Option HarddiskSlot
  | .empty activity, .register => some (.card (harddiskAbiInit activity))
  | .empty _, .clearAll => some (.empty false)
  | .empty activity, _ => some (.empty activity)
  | .card hp, .register => some (.card hp)
  | .card hp, .unregister => some (.empty (harddiskAbiShutdown hp).activity)
  | .card _, .clearAll => some (.empty false)
  | .card hp, .card op => some (.card (hp.perform op))

/-- The controller of the slot is reading a block out. -/
def ReadsOut : HarddiskSlot → Prop
  | .empty _ => False
  | .card hp => hp.dataPhase = .readOut

/-- **What is recorded is true**: the slot is active if and only if it holds a
card that reads a block out. -/
def Truthful (s : HarddiskSlot) : Prop := s.recorded = true ↔ s.ReadsOut

/-- Nothing that is done starts a read or stops one behind the host's back; the
card is taken out while nothing is read out. -/
def Announced : HarddiskSlot → HarddiskSlotOp → Prop
  | .card hp, .card op => hp.Announced op
  | .card hp, .unregister => hp.dataPhase ≠ .readOut
  | _, _ => True

/-- **What an announced operation leaves true.** -/
theorem ends_perform {s : HarddiskSlot} {op : HarddiskSlotOp} (h : s.Truthful)
    (hop : s.Announced op) : Ends (s.perform op) Truthful := by
  have hempty : (empty false).Truthful := iff_of_false nofun id
  cases s with
  | empty activity =>
    have hquiet : activity = false := Bool.eq_false_iff.mpr fun hactive => h.mp hactive
    rw [hquiet]
    cases op with
    | register => exact .pure (iff_of_false nofun nofun)
    | unregister => exact .pure hempty
    | clearAll => exact .pure hempty
    | card op => exact .pure hempty
  | card hp =>
    cases op with
    | register => exact .pure h
    | unregister =>
      have hquiet : hp.activity = false := Bool.eq_false_iff.mpr fun hactive => hop (h.mp hactive)
      refine .pure ?_
      show (empty hp.activity).Truthful
      rwa [hquiet]
    | clearAll => exact .pure hempty
    | card op => exact .pure (HarddiskPeripheral.Truthful.perform h hop)

end HarddiskSlot

/-! ## Whole runs -/

/-- **What is recorded of both slots is true in every state they come to**, as
long as no drive is started or stopped, no read ended and no busy card taken out
behind the host's back. -/
theorem truthful_run {D : Drivers} (hD : D.Contract) (p6 : UInt8 → UInt8) :
    (∀ ops, Allowed DiskSlot.Announced (DiskSlot.perform D p6) (.empty .new) ops →
      Ends (ops.foldlM (DiskSlot.perform D p6) (.empty .new)) DiskSlot.Truthful)
    ∧ ∀ ops, Allowed HarddiskSlot.Announced HarddiskSlot.perform (.empty false) ops →
      Ends (ops.foldlM HarddiskSlot.perform (.empty false)) HarddiskSlot.Truthful := by
  constructor
  · intro ops hops
    have hstart : (DiskSlot.empty .new).Sound ∧ (DiskSlot.empty .new).Truthful :=
      ⟨trivial, DiskSlot.truthful_empty rfl⟩
    exact (Ends.foldlM_allowed (fun _ _ h hop => DiskSlot.ends_perform hD h hop) hstart hops).mono
      fun _ h => h.2
  · intro ops hops
    exact Ends.foldlM_allowed (fun _ _ h hop => HarddiskSlot.ends_perform h hop)
      (iff_of_false nofun id) hops

/-- A card that is turned on and off, and one that reads a block. -/
theorem truthful_run_on :
    Ends ([.register none none, .card (.write 0x9 0 0), .card (.write 0x8 0 4), .clearAll].foldlM
      (DiskSlot.perform blankDrivers id) (.empty .new)) DiskSlot.Truthful
    ∧ Ends ([.register, .card (.act (.write regCommand prodosCmdRead noTransfer))].foldlM
      HarddiskSlot.perform (.empty false)) HarddiskSlot.Truthful := by
  have hblank : blankDrivers.Contract := ⟨fun _ _ => (by decide : 50464 ≤ maxTrackBits),
    fun _ _ => (by decide : 0 < diskDefaultBitTiming)⟩
  have haccess : ∀ (s : DiskSlot) (addr : Nat) (v : UInt8) (cycles : Nat), ¬ selects addr →
      s.Announced (.card (.write addr v cycles)) := by
    intro s addr v cycles haddr
    cases s with
    | empty trace => exact trivial
    | card dp => exact fun hselects => absurd hselects haddr
  refine ⟨(truthful_run hblank id).1 _ ?_, (truthful_run hblank id).2 _ ?_⟩
  · refine ⟨trivial, fun s _ => ⟨haccess s _ _ _ (by unfold selects; omega), fun s _ =>
      ⟨haccess s _ _ _ (by unfold selects; omega), fun s _ => ⟨?_, fun _ _ => trivial⟩⟩⟩⟩
    cases s <;> exact trivial
  · refine ⟨trivial, fun s _ => ⟨?_, fun _ _ => trivial⟩⟩
    cases s <;> exact trivial

/-- **A reset leaves the disk card reported busy**: the motor is on, the machine is
reset, and no drive spins. -/
theorem not_truthful_run :
    ¬ Ends ([.register none none, .card (.write 0x9 0 0), .card .reset].foldlM
      (DiskSlot.perform blankDrivers id) (.empty .new)) DiskSlot.Truthful := by
  rintro ⟨s, hs, htruthful⟩
  have hrecorded : s.recorded = true ∧ ∀ i, ¬ s.Spins i := by
    have hcard := Option.some.inj hs
    subst hcard
    exact ⟨rfl, fun i hspins => Nat.lt_irrefl 0 hspins⟩
  obtain ⟨i, hspins⟩ := htruthful.mp hrecorded.1
  exact hrecorded.2 i hspins

end LinApple.Slots
