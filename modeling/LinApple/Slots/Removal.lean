import LinApple.Slots.Answers
import LinApple.Slots.Registration

/-!
# Taking a card out

A card that is taken out of its slot is no longer in the slots and no longer
in the list of claims, so no access reaches it. The tables are another
matter. A claim that is taken back leaves its bridge in the table, because
`register_direct_io_handler` enters nothing where it is given nothing; the
slot's own addresses are emptied, whoever had them; and a card whose `init`
fails is taken out of the slot and out of nothing else.
-/

namespace LinApple.Slots

open Memory

variable {I H : Type}

/-! ## What is left -/

section Leaving

variable [DecidableEq I]

omit [DecidableEq I] in
/-- Taking claims back does nothing to the tables. -/
theorem foldl_registerDirectIoHandler_none (l : List (DirectIoHandler I H)) (io : IoMemory) :
    l.foldl (fun io e => io.registerDirectIoHandler e.addr none none) io = io := by
  induction l generalizing io with
  | nil => rfl
  | cons e l ih => rw [List.foldl_cons, registerDirectIoHandler_none, ih]

theorem removeDirect_eq (h : Host I H) (inst : Option I) :
    h.removeDirect inst = { h with direct := h.direct.filter fun e => inst ≠ some e.inst } := by
  cases inst with
  | none =>
    have hall : (h.direct.filter fun e => (none : Option I) ≠ some e.inst) = h.direct :=
      List.filter_eq_self.mpr fun e _ => rfl
    rw [hall]
    rfl
  | some i =>
    unfold Host.removeDirect
    dsimp only
    rw [foldl_registerDirectIoHandler_none]
    congr 1
    refine List.filter_congr fun e _ => ?_
    simp [eq_comm]

/-- The claims that are left when all the cards of a list are removed. -/
theorem foldl_removeDirect (aps : List (ActivePeripheral I H)) (h : Host I H) :
    aps.foldl (fun h ap => h.removeDirect ap.inst) h
      = { h with direct := h.direct.filter fun e => aps.all fun ap => ap.inst ≠ some e.inst } := by
  induction aps generalizing h with
  | nil =>
    have hall : (h.direct.filter fun e => ([] : List (ActivePeripheral I H)).all fun ap =>
        ap.inst ≠ some e.inst) = h.direct := List.filter_eq_self.mpr fun e _ => rfl
    rw [hall]
    rfl
  | cons ap aps ih =>
    rw [List.foldl_cons, ih, removeDirect_eq]
    dsimp only
    rw [List.filter_filter]
    congr 1
    refine List.filter_congr fun e _ => ?_
    rw [List.all_cons, Bool.and_comm]

end Leaving

/-! ## The hosts there are -/

/-- What happens to a host. The memory and the selection of slots change through the processor at
any time, so they may change to anything (`outside`). -/
inductive HostOp (I H : Type) where
  /-- `peripheral_register` -/
  | register (card : Card I H) (slot : Slot)
  /-- `peripheral_unregister` -/
  | unregister (slot : Slot)
  /-- A card that runs asks for something. -/
  | call (slot : Slot) (inst : I) (c : HostCall H)
  /-- `peripheral_manager_shutdown` -/
  | shutdown
  /-- The memory, and what is selected, change. -/
  | outside (memory : MemoryInstance) (ioSelect : Slot → Bool) (internal : Bool)

/-- A host without cards. -/
def Host.initial (pattern : MemoryInitPattern) (io : IoMemory) : Host I H where
  io := io.memInitialize pattern
  active := fun _ => []
  direct := []

/-- `clear_all_peripherals` -/
def Host.clearAllPeripherals (h : Host I H) : Host I H where
  io := h.direct.foldl (fun io e => io.registerDirectIoHandler e.addr none none) h.io
  active := fun _ => []
  direct := []

/-- One step. -/
def Host.step [DecidableEq I] (h : Host I H) : HostOp I H → Host I H
  | .register card slot => h.peripheralRegister card slot
  | .unregister slot => h.peripheralUnregister slot
  | .call slot inst c => h.hostCall slot inst c
  | .shutdown => h.clearAllPeripherals
  | .outside memory ioSelect internal =>
    { h with io := { h.io with
        memory := memory, ioSelect := ioSelect, ioSelectInternalRom := internal } }

/-- **The host as a machine.** -/
def hostMachine (I H : Type) [DecidableEq I] : Machine (Host I H) (HostOp I H) Unit where
  next := Host.step
  out _ _ := none

/-- **Where the bridges are entered.** -/
structure Host.Proper (h : Host I H) : Prop where
  /-- Those of the slots at the slots' addresses. -/
  slotC0 : ∀ write i, h.io.table write i = some .slotC0 → 0x80 ≤ i ∧ i < 0x100
  /-- Those of the pages at the slots' pages. -/
  slotCx : ∀ write i, h.io.table write i = some .slotCx → 0x100 < i ∧ i < 0x108
  /-- Those of claims in `$C0xx`. -/
  directIo : ∀ write i, h.io.table write i = some .directIo → i < 0x100

section Proper

variable {h : Host I H} {slot : Slot}

theorem Host.Proper.of_table (hp : h.Proper) {h' : Host I H}
    (ht : h'.io.table = h.io.table) : h'.Proper :=
  ⟨by rw [ht]; exact hp.slotC0, by rw [ht]; exact hp.slotCx, by rw [ht]; exact hp.directIo⟩

theorem bridge_eq_some {f g : IoFunction} {handler : Option H}
    (h : bridge f handler = some g) : g = f := by
  obtain ⟨_, -, hg⟩ := Option.map_eq_some_iff.mp h
  exact hg.symm

theorem bridge_or_cxxx {g : IoFunction} {handler : Option H}
    (h : (bridge .slotCx handler <|> some .cxxx) = some g) : g = .slotCx ∨ g = .cxxx := by
  cases handler with
  | none => exact .inr (Option.some.inj h).symm
  | some _ => exact .inl (Option.some.inj h).symm

/-- What a slot enters is where it should be. -/
theorem Host.Proper.registerSlot (hp : h.Proper) (slot : Slot) (ap : ActivePeripheral I H)
    {h' : Host I H} (ht : h'.io.table = (h.io.registerSlot slot ap).table) : h'.Proper := by
  have hentry : ∀ write i, h'.io.table write i
      = if inC0 slot i then bridge .slotC0 (ap.c0 write)
        else if slot ≠ 0 ∧ i = 0x100 + slot.val then bridge .slotCx (ap.cx write) <|> some .cxxx
        else h.io.table write i := fun write i => by rw [ht, table_registerSlot]
  refine ⟨fun write i he => ?_, fun write i he => ?_, fun write i he => ?_⟩ <;>
    rw [hentry] at he <;> split_ifs at he with hc0 hcx
  · have := (inC0_iff slot i).mp hc0
    omega
  · rcases bridge_or_cxxx he with h | h <;> exact IoFunction.noConfusion h
  · exact hp.slotC0 write i he
  · exact IoFunction.noConfusion (bridge_eq_some he)
  · have : slot.val ≠ 0 := fun h => hcx.1 (Fin.ext h)
    omega
  · exact hp.slotCx write i he
  · exact IoFunction.noConfusion (bridge_eq_some he)
  · rcases bridge_or_cxxx he with h | h <;> exact IoFunction.noConfusion h
  · exact hp.directIo write i he

/-- What a claim enters is where it should be. -/
theorem Host.Proper.addDirect (hp : h.Proper) (e : DirectIoHandler I H)
    {read write : Option IoFunction} (hread : ∀ f, read = some f → f = .directIo)
    (hwrite : ∀ f, write = some f → f = .directIo) : (h.addDirect e read write).Proper := by
  unfold Host.addDirect
  split_ifs
  · exact hp
  have hentry : ∀ b i f, (h.io.registerDirectIoHandler e.addr read write).table b i = some f →
      (f = .directIo ∧ i < 0x100) ∨ h.io.table b i = some f := by
    intro b i f he
    rw [table_registerDirectIoHandler] at he
    by_cases hat : e.addr.toNat / 0x100 = 0xC0 ∧ e.addr.toNat % 0x100 = i
    · rw [if_pos hat] at he
      have hentered : ∀ g, (if b then write else read) = some g → g = .directIo := by
        cases b
        · exact hread
        · exact hwrite
      generalize (if b then write else read) = g at he hentered
      cases g with
      | none => exact .inr he
      | some g =>
        obtain rfl : g = f := Option.some.inj he
        exact .inl ⟨hentered g rfl, by omega⟩
    · rw [if_neg hat] at he
      exact .inr he
  refine ⟨fun b i he => ?_, fun b i he => ?_, fun b i he => ?_⟩
  · rcases hentry b i _ he with h | h
    · exact IoFunction.noConfusion h.1
    · exact hp.slotC0 b i h
  · rcases hentry b i _ he with h | h
    · exact IoFunction.noConfusion h.1
    · exact hp.slotCx b i h
  · rcases hentry b i _ he with h | h
    · exact h.2
    · exact hp.directIo b i h

theorem table_storeCxRom (io : IoMemory) (slot : Slot) (rom : PageData) :
    (io.storeCxRom slot rom).table = io.table := by
  unfold IoMemory.storeCxRom
  split_ifs <;> rfl

theorem Host.Proper.updateLast (hp : h.Proper) (slot : Slot)
    (f : ActivePeripheral I H → ActivePeripheral I H) : (h.updateLast slot f).Proper := by
  unfold Host.updateLast
  split
  · exact hp
  · exact hp.registerSlot slot _ rfl

theorem Host.Proper.hostCall (hp : h.Proper) (slot : Slot) (inst : I) (c : HostCall H) :
    (h.hostCall slot inst c).Proper := by
  cases c with
  | registerIo readC0 writeC0 readCx writeCx => exact hp.updateLast slot _
  | registerCxRom rom => exact hp.of_table (table_storeCxRom h.io slot rom)
  | registerExpansionRom rom => exact hp.updateLast slot _
  | registerDirectIo addr read write =>
    exact hp.addDirect _ (fun _ h => bridge_eq_some h) fun _ h => bridge_eq_some h
  | registerDirectIoStrobe addr onStrobe =>
    exact hp.addDirect _ (fun _ h => (Option.some.inj h).symm) fun _ h =>
      (Option.some.inj h).symm

theorem Host.Proper.initCard (hp : h.Proper) (card : Card I H) (slot : Slot) :
    (h.initCard card slot).Proper := by
  have hrun : ∀ (calls : List (HostCall H)) (t : Host I H), t.Proper →
      (calls.foldl (Host.hostCall slot card.inst) t).Proper := by
    intro calls
    induction calls with
    | nil => exact fun t ht => ht
    | cons c cs ih => exact fun t ht => ih _ (ht.hostCall slot card.inst c)
  exact hrun card.calls _ (hp.of_table rfl)

theorem Host.Proper.peripheralRegister (hp : h.Proper) (card : Card I H) (slot : Slot) :
    (h.peripheralRegister card slot).Proper := by
  unfold Host.peripheralRegister
  dsimp only
  split_ifs
  · exact (hp.initCard card slot).of_table rfl
  · exact (hp.initCard card slot).of_table rfl
  · exact hp

variable [DecidableEq I]

theorem table_peripheralUnregister (h : Host I H) (slot : Slot) (write : Bool) (i : Nat) :
    (h.peripheralUnregister slot).io.table write i
      = if inC0 slot i then none
        else if slot ≠ 0 ∧ i = 0x100 + slot.val then some .cxxx
        else h.io.table write i := by
  unfold Host.peripheralUnregister
  dsimp only
  rw [foldl_removeDirect, table_storeCxRom, table_registerIoHandler]
  cases write <;> rfl

theorem Host.Proper.peripheralUnregister (hp : h.Proper) (slot : Slot) :
    (h.peripheralUnregister slot).Proper := by
  refine ⟨fun b i he => ?_, fun b i he => ?_, fun b i he => ?_⟩ <;>
    rw [table_peripheralUnregister] at he <;> split_ifs at he
  · exact IoFunction.noConfusion (Option.some.inj he)
  · exact hp.slotC0 b i he
  · exact IoFunction.noConfusion (Option.some.inj he)
  · exact hp.slotCx b i he
  · exact IoFunction.noConfusion (Option.some.inj he)
  · exact hp.directIo b i he

theorem Host.Proper.step (hp : h.Proper) (op : HostOp I H) : (h.step op).Proper := by
  cases op with
  | register card slot => exact hp.peripheralRegister card slot
  | unregister slot => exact hp.peripheralUnregister slot
  | call slot inst c => exact hp.hostCall slot inst c
  | shutdown =>
    refine hp.of_table ?_
    show (h.clearAllPeripherals).io.table = h.io.table
    unfold Host.clearAllPeripherals
    dsimp only
    rw [foldl_registerDirectIoHandler_none]
  | outside memory ioSelect internal => exact hp.of_table rfl

/-- The tables to begin with. -/
theorem table_memInitialize (pattern : MemoryInitPattern) (io : IoMemory) (write : Bool)
    (i : Nat) : (io.memInitialize pattern).table write i
      = if inC0 0 i then some .setPaging
        else some (if i < 0x80 then .c0xx else if i < 0x100 then .ioNull else .cxxx) := by
  refine (table_registerIoHandler io.initIoHandlers 0 _ _ none none none write i).trans ?_
  rw [@if_neg ((0 : Slot) ≠ 0 ∧ _) _ fun h => h.1 rfl]
  cases write <;> rfl

omit [DecidableEq I] in
/-- There is no bridge in the tables to begin with. -/
theorem proper_initial (pattern : MemoryInitPattern) (io : IoMemory) :
    (Host.initial pattern io : Host I H).Proper := by
  refine ⟨fun b i he => ?_, fun b i he => ?_, fun b i he => ?_⟩ <;>
    replace he := (table_memInitialize pattern io b i).symm.trans he <;> split_ifs at he <;>
    exact IoFunction.noConfusion (Option.some.inj he)

/-- **The bridges are where they should be in every host there is.** -/
theorem proper_run (pattern : MemoryInitPattern) (io : IoMemory) (ops : List (HostOp I H)) :
    ((hostMachine I H).run (Host.initial pattern io) ops).Proper :=
  (hostMachine I H).invariant_run_of_forall (fun _ op hp => hp.step op)
    (proper_initial pattern io) ops

end Proper

end LinApple.Slots
