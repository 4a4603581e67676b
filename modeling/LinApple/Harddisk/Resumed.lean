import LinApple.Harddisk.BlockStore

/-!
# A write that a save state interrupts

A saved frame does not hold the buffer, so a card resumed in the middle of a block write has lost
the bytes that were pushed. It poisons the buffer, and the first WRITE that the checks let through
fails. What the guest has pushed since does not come into it: a second WRITE sends the medium
whatever the buffer holds, and a block pushed in full before the first one is lost.

What the guest has pushed since the load is not in the card, so it is noted beside it (`Resumed`),
together with whether a WRITE has come through the checks. A byte is noted at the place of the
buffer it goes to. A later one at the same place takes its stead, and none is forgotten when a new
block is begun. `Full` says that what is in the buffer is what has been noted, everywhere; after a
READ it is that only if the medium holds the same.

With these the two halves of what a save state should do are one property of a step (`Sound`). A
WRITE that sends the buffer to the medium finds it full, and a full buffer that the checks let
through is sent. The condition (`Ordered`) says when WRITEs come, and nothing of what they do: the
first one that is let through before the buffer is full, each later one when it is. It does not
look at the poison. That the first WRITE alone meets a poisoned buffer, and all later ones meet
one that is not, is the invariant by which the two are the same over every run.

A frame that was not saved in the middle of a write poisons nothing (`harddiskAbiLoadState_save`),
and is not what this is about. The accesses are those of the guest, with any transfer that the
host may make of them.
-/

namespace LinApple.Harddisk

open ByteMap

/-! ## Saving -/

/-- The byte of a phase. -/
def DataPhase.toUInt8 : DataPhase → UInt8
  | .idle => 0
  | .readOut => 1
  | .writeIn => 2

/-- `harddisk_abi_save_state` -/
def harddiskAbiSaveState (card : HarddiskPeripheral) : HarddiskSaveState where
  version := harddiskStateVersion
  structSize := harddiskSaveStateSize
  unit := card.unit
  command := card.command
  result := card.result
  dataPhase := card.dataPhase.toUInt8
  block := card.block
  dataIndex := card.dataIndex.val.toUInt16
  blockCount := card.blockCount

theorem DataPhase.ofUInt8?_toUInt8 (phase : DataPhase) :
    DataPhase.ofUInt8? phase.toUInt8 = some phase := by
  cases phase <;> rfl

/-- **A frame the card saves is one it loads**, and a write under way poisons
the buffer. -/
theorem harddiskAbiLoadState_save (saved card : HarddiskPeripheral) (t : Transfer) :
    (harddiskAbiLoadState card (harddiskAbiSaveState saved) t).1 = true
      ∧ (harddiskAbiLoadState card (harddiskAbiSaveState saved) t).2.bufferPoisoned
        = decide (saved.dataPhase = .writeIn) := by
  have hphase : DataPhase.ofUInt8? (harddiskAbiSaveState saved).dataPhase
      = some saved.dataPhase := DataPhase.ofUInt8?_toUInt8 _
  unfold harddiskAbiLoadState
  rw [if_neg (by exact not_or.mpr ⟨not_not.mpr rfl, not_not.mpr rfl⟩), hphase]
  exact ⟨rfl, rfl⟩

/-! ## What the guest has pushed -/

/-- The accesses of the guest. A reset of the card and another load are not among them. -/
inductive RegisterAccess where
  /-- `harddisk_io_read` -/
  | read (reg : Fin 16) (floating : UInt8)
  /-- `harddisk_io_write` -/
  | write (reg : Fin 16) (dataValue : UInt8) (t : Transfer)

/-- An access as an action of the controller. -/
def RegisterAccess.action : RegisterAccess → Action
  | .read reg floating => .read reg floating
  | .write reg dataValue t => .write reg dataValue t

/-- The access issues a WRITE. -/
def RegisterAccess.IsWrite (a : RegisterAccess) (t : Transfer) : Prop :=
  a = .write regCommand prodosCmdWrite t

/-- The checks before the buffer is looked at let a WRITE through: there is an
image, it may be written, and the block is on it. -/
def HarddiskPeripheral.admitsWrite (card : HarddiskPeripheral) : Bool :=
  card.selectedDrive.image.any fun image =>
    !card.selectedDrive.isWriteProtected && card.block.toNat < image.totalBlocks

/-- **A card and what the guest has done to it since the load.** -/
structure Resumed where
  /-- The card. -/
  card : HarddiskPeripheral
  /-- The byte last pushed to each place of the buffer, if one was. -/
  pushed : Nat → Option UInt8
  /-- A WRITE has come through the checks. -/
  tried : Bool

/-- The card as the load leaves it. -/
def Resumed.start (card : HarddiskPeripheral) : Resumed where
  card := card
  pushed := fun _ => none
  tried := false

/-- **The controller, with what the guest does noted down.** -/
def resumed : Machine Resumed RegisterAccess UInt8 where
  next s a :=
    { card := controller.next s.card a.action
      pushed := match a with
        | .write reg dataValue _ =>
          if reg = regData then Function.update s.pushed s.card.dataIndex (some dataValue)
          else s.pushed
        | .read _ _ => s.pushed
      tried := match a with
        | .write reg dataValue _ =>
          s.tried || (decide (reg = regCommand ∧ dataValue = prodosCmdWrite) && s.card.admitsWrite)
        | .read _ _ => s.tried }
  out s a := controller.out s.card a.action

/-- **The whole buffer is what the guest pushed.** -/
def Resumed.Full (s : Resumed) : Prop :=
  ∀ i < blockSize, s.pushed i = some (s.card.buffer i)

/-- Bytes pushed from the index on are there, and those before it stay. -/
theorem pushed_pushes (t : Transfer) {data : List UInt8} {s : Resumed}
    (hroom : s.card.dataIndex.val + data.length ≤ blockSize)
    (hbefore : ∀ i < s.card.dataIndex.val, s.pushed i = some (s.card.buffer i)) :
    ∀ i < s.card.dataIndex.val + data.length,
      (resumed.run s (data.map fun v => .write regData v t)).pushed i
        = some ((resumed.run s (data.map fun v => .write regData v t)).card.buffer i) := by
  induction data generalizing s with
  | nil => exact hbefore
  | cons v rest ih =>
    have hbuffer : (pushData s.card v).buffer
        = Function.update s.card.buffer s.card.dataIndex v := by
      unfold pushData
      split <;> rfl
    have hindex : (pushData s.card v).dataIndex = s.card.dataIndex + 1 := by
      unfold pushData
      split <;> rfl
    -- the byte pushed is in its place, and those before are
    have hupto : ∀ i < s.card.dataIndex.val + 1,
        (resumed.next s (.write regData v t)).pushed i
          = some ((resumed.next s (.write regData v t)).card.buffer i) := fun i hi => by
      show Function.update s.pushed s.card.dataIndex (some v) i
        = some ((pushData s.card v).buffer i)
      rw [hbuffer]
      by_cases hhere : i = s.card.dataIndex.val
      · subst hhere
        rw [Function.update_self, Function.update_self]
      · rw [Function.update_of_ne hhere, Function.update_of_ne hhere]
        exact hbefore i (by omega)
    cases rest with
    | nil => exact hupto
    | cons w rest =>
      rw [List.length_cons, List.length_cons] at hroom
      have hsucc : (resumed.next s (.write regData v t)).card.dataIndex.val
          = s.card.dataIndex.val + 1 :=
        (congrArg Fin.val hindex).trans (dataIndex_succ (n := rest.length) hroom)
      intro i hi
      rw [List.length_cons, List.length_cons] at hi
      refine ih ?_ ?_ i ?_
      · rw [hsucc, List.length_cons]
        omega
      · rw [hsucc]
        exact hupto
      · rw [hsucc, List.length_cons]
        omega

/-- **A block pushed from the start of the buffer fills it.** -/
theorem full_pushes {s : Resumed} (hindex : s.card.dataIndex = 0) (t : Transfer)
    {data : List UInt8} (hdata : data.length = blockSize) :
    (resumed.run s (data.map fun v => .write regData v t)).Full := by
  have hzero : s.card.dataIndex.val = 0 := congrArg Fin.val hindex
  intro i hi
  refine pushed_pushes t ?_ (fun i hi => ?_) i ?_
  · rw [hzero, hdata, Nat.zero_add]
  · rw [hzero] at hi
    exact absurd hi (Nat.not_lt_zero i)
  · rw [hzero, hdata, Nat.zero_add]
    exact hi

/-! ## The two guards -/

/-- **A WRITE sends what was pushed, and a block pushed in full is stored.** The
WRITEs that the checks let through go to the medium with every byte of the
buffer. -/
def Resumed.Sound (s : Resumed) (a : RegisterAccess) : Prop :=
  ∀ t, a.IsWrite t → s.card.admitsWrite →
    (¬ s.card.Refuses prodosCmdWrite → s.Full)
      ∧ (s.Full → ¬ s.card.Refuses prodosCmdWrite
        ∧ (t.Succeeds → (resumed.next s a).card.result = prodosOk
          ∧ (resumed.next s a).card.contents s.card.selected s.card.block.toNat
            = some (peeks s.card.buffer 0 blockSize)))

/-- **The first WRITE comes before the buffer is full, and every later one when
it is.** -/
def Resumed.Ordered (s : Resumed) (a : RegisterAccess) : Prop :=
  ∀ t, a.IsWrite t → s.card.admitsWrite → (s.tried ↔ s.Full)

/-! ## The poison -/

/-- A WRITE is refused by the checks, or by the poison. -/
theorem refuses_write_iff (card : HarddiskPeripheral) :
    card.Refuses prodosCmdWrite ↔ card.admitsWrite = false ∨ card.bufferPoisoned = true := by
  unfold HarddiskPeripheral.Refuses HarddiskPeripheral.admitsWrite
  cases card.selectedDrive.image with
  | none => exact ⟨fun _ => .inl rfl, fun _ => .inr (.inl rfl)⟩
  | some image =>
    have hknown : ¬ prodosCmdWrite > prodosCmdFormat := by decide
    simp only [hknown, reduceCtorEq, true_or, or_true, true_and, false_or, Option.mem_def,
      Option.some.injEq, exists_eq_left', Option.any_some, Bool.and_eq_false_iff,
      Bool.not_eq_false', decide_eq_false_iff_not, Nat.not_lt, or_assoc]

/-- No other command looks at the poison. -/
theorem bufferPoisoned_executeAdmitted {card : HarddiskPeripheral} (image : BlockDiskImage)
    (t : Transfer) (h : card.command ≠ prodosCmdWrite) :
    (executeAdmitted card image t).2.bufferPoisoned = card.bufferPoisoned := by
  unfold executeAdmitted
  rw [if_neg h]
  split
  · rfl
  · split
    · unfold executeRead
      split <;> rfl
    · split <;> rfl

/-- **Only a WRITE that the checks let through lifts the poison.** -/
theorem bufferPoisoned_executeCommand (card : HarddiskPeripheral) (t : Transfer) :
    (executeCommand card t).2.bufferPoisoned
      = (card.bufferPoisoned && !(decide (card.command = prodosCmdWrite) && card.admitsWrite)) := by
  -- a write that is admitted clears the flag, whether or not it then stores; nothing else does
  by_cases hwrite : card.command = prodosCmdWrite
  · unfold HarddiskPeripheral.admitsWrite executeCommand
    rw [if_neg (by rw [hwrite]; decide), decide_eq_true hwrite, Bool.true_and]
    cases card.selectedDrive.image with
    | none => exact (Bool.and_true _).symm
    | some image =>
      dsimp only
      rw [Option.any_some]
      by_cases hprotected : card.selectedDrive.isWriteProtected = true
      · rw [if_pos ⟨.inl hwrite, hprotected⟩, hprotected]
        exact (Bool.and_true _).symm
      · rw [if_neg fun hc => hprotected hc.2, Bool.eq_false_of_not_eq_true hprotected]
        by_cases hrange : card.block.toNat ≥ image.totalBlocks
        · rw [if_pos ⟨.inr hwrite, hrange⟩, decide_eq_false (Nat.not_lt.mpr hrange)]
          exact (Bool.and_true _).symm
        · rw [if_neg fun hc => hrange hc.2, decide_eq_true (Nat.not_le.mp hrange),
            executeAdmitted_write hwrite, executeWrite]
          split
          · exact (Bool.and_false _).symm
          next hclean =>
            split <;> exact (Bool.eq_false_of_not_eq_true hclean).trans (Bool.and_false _).symm
  · rw [decide_eq_false hwrite, Bool.false_and, Bool.not_false, Bool.and_true]
    unfold executeCommand
    split
    · rfl
    · split
      · rfl
      · dsimp only
        split
        · rfl
        · split
          · rfl
          · exact bufferPoisoned_executeAdmitted _ t hwrite

/-- **The poison is there until a WRITE has come through the checks.** -/
theorem bufferPoisoned_next (s : Resumed) (a : RegisterAccess)
    (h : s.card.bufferPoisoned = !s.tried) :
    (resumed.next s a).card.bufferPoisoned = !(resumed.next s a).tried := by
  cases a with
  | read reg floating =>
    refine Eq.trans ?_ h
    show (harddiskIoHandlers reg s.card false 0 floating noTransfer).2.bufferPoisoned = _
    rw [harddiskIoHandlers.eq_def]
    split <;> try rfl
    show (takeData s.card).2.bufferPoisoned = _
    unfold takeData endDataPhase
    dsimp only
    split <;> rfl
  | write reg v t =>
    show (harddiskIoHandlers reg s.card true v 0 t).2.bufferPoisoned
      = !(s.tried || (decide (reg = regCommand ∧ v = prodosCmdWrite) && s.card.admitsWrite))
    rw [Bool.not_or, ← h]
    by_cases hreg : reg = regCommand
    · subst hreg
      refine (bufferPoisoned_executeCommand { s.card with command := v } t).trans ?_
      simp only [true_and]
      rfl
    · rw [decide_eq_false fun hc => hreg hc.1, Bool.false_and, Bool.not_false, Bool.and_true,
        harddiskIoHandlers.eq_def]
      split <;> try rfl
      · exact absurd rfl hreg
      · show (pushData s.card v).bufferPoisoned = _
        unfold pushData endDataPhase
        split <;> rfl

/-! ## What holds of a run -/

/-- A WRITE that goes through stores the buffer, if the host does its part. -/
theorem contents_write {card : HarddiskPeripheral} {t : Transfer}
    (hadmits : card.admitsWrite = true) (hclean : card.bufferPoisoned = false)
    (ht : t.Succeeds) :
    (ioWrite card regCommand prodosCmdWrite t).result = prodosOk
      ∧ (ioWrite card regCommand prodosCmdWrite t).contents card.selected card.block.toNat
        = some (peeks card.buffer 0 blockSize) := by
  unfold HarddiskPeripheral.admitsWrite at hadmits
  obtain ⟨image, himage, hchecks⟩ := (Option.any_eq_true _ _).mp hadmits
  obtain ⟨hwritable, hblock⟩ := (Bool.and_eq_true _ _).mp hchecks
  replace hwritable := Bool.not_eq_true' _ |>.mp hwritable
  replace hblock := of_decide_eq_true hblock
  obtain ⟨hresult, hwritten⟩ := ioWrite_write himage hblock hwritable hclean ht
  refine ⟨hresult, ?_⟩
  have hhost : image.hostReadOnly = false := by
    rw [HarddiskDrive.isWriteProtected, himage, Bool.or_eq_false_iff] at hwritable
    exact hwritable.2
  unfold HarddiskPeripheral.contents
  rw [hwritten, Option.map_some, (writeBlock_succeeds ht hhost hblock).2]

/-- **Where the poison is where no WRITE has come through, the two guards ask
the same.** -/
theorem sound_iff_ordered {s : Resumed} (h : s.card.bufferPoisoned = !s.tried)
    (a : RegisterAccess) : s.Sound a ↔ s.Ordered a := by
  have hrefuses : s.card.admitsWrite = true → (¬ s.card.Refuses prodosCmdWrite ↔ s.tried = true) := by
    intro hadmits
    rw [refuses_write_iff, hadmits, h]
    simp
  refine forall_congr' fun t => forall_congr' fun hwrite => forall_congr' fun hadmits => ?_
  rw [hrefuses hadmits]
  constructor
  · rintro ⟨hfull, hsent⟩
    exact ⟨hfull, fun hf => (hsent hf).1⟩
  · intro hiff
    refine ⟨hiff.mp, fun hf => ⟨hiff.mpr hf, fun ht => ?_⟩⟩
    obtain rfl : a = .write regCommand prodosCmdWrite t := hwrite
    exact contents_write hadmits (by rw [h, hiff.mpr hf]; rfl) ht

/-- **A resumed write, over any accesses.** The frame of a card in the middle of
a block write is loaded into any card. Whatever the guest does then, the WRITEs
send what it has pushed and store what it has pushed in full just when the first
to come through the checks finds the buffer not full, and every later one finds
it full. -/
theorem resumed_run (saved card : HarddiskPeripheral) (hsaved : saved.dataPhase = .writeIn)
    (t : Transfer) (as : List RegisterAccess) :
    resumed.Admits (fun s a _ => s.Sound a)
        (.start (harddiskAbiLoadState card (harddiskAbiSaveState saved) t).2) as
      ↔ resumed.Admits (fun s a _ => s.Ordered a)
        (.start (harddiskAbiLoadState card (harddiskAbiSaveState saved) t).2) as := by
  refine resumed.admits_congr (I := fun s => s.card.bufferPoisoned = !s.tried)
    bufferPoisoned_next (fun s a _ h => sound_iff_ordered h a) ?_ as
  show (harddiskAbiLoadState card (harddiskAbiSaveState saved) t).2.bufferPoisoned = !false
  rw [(harddiskAbiLoadState_save saved card t).2, decide_eq_true hsaved]
  rfl

/-- A card saved after the first byte of a block was pushed. -/
def interruptedCard : HarddiskPeripheral := pushData oneBlockCard 7

/-- The first WRITE alone is in order, and sends nothing that was not pushed: it
fails. -/
theorem resumed_run_first :
    resumed.Admits (fun s a _ => s.Sound a)
      (.start (harddiskAbiLoadState oneBlockCard (harddiskAbiSaveState interruptedCard)
        fullTransfer).2) [.write regCommand prodosCmdWrite fullTransfer] := by
  refine (resumed_run interruptedCard oneBlockCard rfl fullTransfer _).mpr
    ⟨fun _ _ _ => ⟨fun htried => ?_, fun hfull => ?_⟩, trivial⟩
  · nomatch htried
  · nomatch hfull 0 (by decide)

/-- **The second WRITE sends zeros**: the first fails and lifts the poison,
and nothing has been pushed. -/
theorem not_resumed_run :
    ¬ resumed.Admits (fun s a _ => s.Sound a)
      (.start (harddiskAbiLoadState oneBlockCard (harddiskAbiSaveState interruptedCard)
        fullTransfer).2)
      [.write regCommand prodosCmdWrite fullTransfer,
        .write regCommand prodosCmdWrite fullTransfer] := by
  rintro ⟨-, hsecond, -⟩
  obtain ⟨hfull, -⟩ := hsecond fullTransfer rfl rfl
  have hpushed := hfull (by rw [refuses_write_iff]; decide) 0 (by decide)
  nomatch hpushed

end LinApple.Harddisk
