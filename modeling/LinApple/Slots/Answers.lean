import LinApple.Lib.Machine
import LinApple.Slots.Peripherals

/-!
# Answering the same

Two hosts whose tables come to the same routes, and that read the same
memory, answer every access alike, now and after any run of accesses and
changes of the memory (`SameAnswers.shows_eq`).
-/

namespace LinApple.Slots

open Memory

variable {I H : Type}

/-- **Two hosts answer the same**: every entry of the tables comes to the
same, and so does all that `io_read_cxxx` reads. -/
structure SameAnswers (ty : Apple2Type) (h h' : Host I H) : Prop where
  /-- What answers an access. -/
  route : ∀ a write, isIoRegion a = true → h'.route ty a write = h.route ty a write
  /-- The expansion ROMs. -/
  roms : h'.io.expansionRom = h.io.expansionRom
  /-- The memory. -/
  memory : h'.io.memory = h.io.memory
  /-- What is selected. -/
  ioSelect : h'.io.ioSelect = h.io.ioSelect
  /-- Whether the internal ROM is selected. -/
  internal : h'.io.ioSelectInternalRom = h.io.ioSelectInternalRom

/-- Whether an access is answered by `io_read_cxxx`. -/
def Route.isRom : Route I H → Bool
  | .rom => true
  | _ => false

/-- What answers an access in the end: a byte of the memory, or a route. -/
inductive Response (I H : Type) where
  | byte (v : UInt8)
  | route (r : Route I H)

namespace Host

variable (ty : Apple2Type) (h : Host I H)

/-- **An access**, less what the machine's own functions and the cards do. -/
def access (a : UInt16) (write : Bool) : Host I H × Response I H :=
  let r := h.io.ioMapDispatch ty a write
  ({ h with io := r.1 },
    match r.2 with
    | .null => .route .null
    | .byte v => if write then .route .null else .byte v
    | .function f => .route (h.resolve ty a write (some f)))

/-- `io_read_cxxx`, or `io_write_cxxx`. -/
def accessRom (a : UInt16) (write : Bool) : Host I H × Response I H :=
  if write then (h, .route .null)
  else
    let r := h.io.ioReadCxxx ty a
    ({ h with io := r.1 },
      match r.2 with
      | .null => .route .null
      | .byte v => .byte v
      | .function f => .route (h.resolve ty a write (some f)))

theorem tableIndex_eq (a : UInt16) (ha : isIoRegion a = true) :
    (a.toNat / 0x100 = 0xC0 ∧ tableIndex a = a.toNat % 0x100)
    ∨ (a.toNat / 0x100 ≠ 0xC0 ∧ tableIndex a = a.toNat / 0x100 + 0x40) := by
  have hpage := isIoPage_iff.mp ha
  rw [pageOf_val] at hpage
  unfold tableIndex
  split_ifs with hc0
  · exact .inl ⟨hc0, rfl⟩
  · exact .inr ⟨hc0, by omega⟩

/-- Dispatch by the entry of the address. -/
theorem ioMapDispatch_eq (io : IoMemory) {a : UInt16} (ha : isIoRegion a = true)
    (write : Bool) : io.ioMapDispatch ty a write
      = if a.toNat / 0x100 ≠ 0xC0 ∧ io.ignoresTables ty a = true then
          io.call ty a write (some .cxxx)
        else io.call ty a write (io.table write (tableIndex a)) := by
  have hpage := isIoPage_iff.mp ha
  rw [pageOf_val] at hpage
  unfold IoMemory.ioMapDispatch IoMemory.table
  rcases tableIndex_eq a ha with ⟨hc0, hi⟩ | ⟨hc0, hi⟩
  · rw [if_pos hc0, @if_neg (a.toNat / 0x100 ≠ 0xC0 ∧ _) _ fun h => h.1 hc0, hi]
  · have hmod : 0x100 + a.toNat / 0x100 % 0x10 = a.toNat / 0x100 + 0x40 := by omega
    rw [if_neg hc0, hi, hmod]
    by_cases hignore : io.ignoresTables ty a = true
    · rw [if_pos hignore, if_pos ⟨hc0, hignore⟩]
    · rw [if_neg hignore, @if_neg (_ ∧ _) _ fun h => hignore h.2]

theorem isRom_slotRoute (aps : List (ActivePeripheral I H))
    (handler : ActivePeripheral I H → Option H) : (slotRoute aps handler).isRom = false := by
  unfold slotRoute
  cases hfound : aps.findSome? fun ap => (handler ap).map (Route.card ap.inst) with
  | none => rfl
  | some r =>
    obtain ⟨ap, -, hap⟩ := List.exists_of_findSome?_eq_some hfound
    obtain ⟨f, -, rfl⟩ := Option.map_eq_some_iff.mp hap
    rfl

/-- A direct bridge reaches a claim of the address, or nobody. -/
theorem directRoute_cases (direct : List (DirectIoHandler I H)) (a : UInt16) (write : Bool) :
    (∃ e ∈ direct, e.addr = a ∧ ((∃ f, directRoute direct a write = .strobe e.inst f)
      ∨ ∃ f, directRoute direct a write = .card (some e.inst) f))
    ∨ directRoute direct a write = .null := by
  unfold directRoute
  cases hs : direct.findSome? (·.strobes a) with
  | some r =>
    obtain ⟨e, he, hr⟩ := List.exists_of_findSome?_eq_some hs
    unfold DirectIoHandler.strobes at hr
    split_ifs at hr with ha
    obtain ⟨f, -, rfl⟩ := Option.map_eq_some_iff.mp hr
    exact .inl ⟨e, he, ha, .inl ⟨f, rfl⟩⟩
  | none =>
    cases hf : direct.findSome? (·.answers a write) with
    | some r =>
      obtain ⟨e, he, hr⟩ := List.exists_of_findSome?_eq_some hf
      unfold DirectIoHandler.answers at hr
      split_ifs at hr with ha
      obtain ⟨f, -, rfl⟩ := Option.map_eq_some_iff.mp hr
      exact .inl ⟨e, he, ha, .inr ⟨f, rfl⟩⟩
    | none => exact .inr rfl

theorem isRom_directRoute (direct : List (DirectIoHandler I H)) (a : UInt16) (write : Bool) :
    (directRoute direct a write).isRom = false := by
  rcases directRoute_cases direct a write with ⟨e, -, -, ⟨f, h⟩ | ⟨f, h⟩⟩ | h <;> rw [h] <;> rfl

/-- **What answers an access is decided by its route**, unless the tables are
passed by. -/
theorem access_eq {a : UInt16} (ha : isIoRegion a = true) (write : Bool) :
    h.access ty a write
      = if a.toNat / 0x100 ≠ 0xC0 ∧ h.io.ignoresTables ty a = true then h.accessRom ty a write
        else if (h.route ty a write).isRom then h.accessRom ty a write
        else (h, .route (h.route ty a write)) := by
  -- calling an entry is asking where it leads, except for the ROM, which only a read can select
  have hcall : ∀ e, (({ h with io := (h.io.call ty a write e).1 },
        match (h.io.call ty a write e).2 with
        | .null => .route .null
        | .byte v => if write then .route .null else .byte v
        | .function f => .route (h.resolve ty a write (some f))) : Host I H × Response I H)
      = if (h.resolve ty a write e).isRom then h.accessRom ty a write
        else (h, .route (h.resolve ty a write e)) := by
    intro e
    cases e with
    | none => rfl
    | some f =>
      cases f with
      | ioNull => rfl
      | c0xx =>
        have hno : (h.resolve ty a write (some .c0xx)).isRom = false := by
          show (if answersNull ty a write then Route.null else Route.default).isRom = false
          split_ifs <;> rfl
        exact (if_neg (by rw [hno]; decide)).symm
      | cxxx => cases write <;> rfl
      | setPaging => rfl
      | slotC0 => exact (if_neg (by rw [resolve, isRom_slotRoute]; decide)).symm
      | slotCx => exact (if_neg (by rw [resolve, isRom_slotRoute]; decide)).symm
      | directIo => exact (if_neg (by rw [resolve, isRom_directRoute]; decide)).symm
  unfold access
  rw [ioMapDispatch_eq ty h.io ha write]
  by_cases hrom : a.toNat / 0x100 ≠ 0xC0 ∧ h.io.ignoresTables ty a = true
  · simp only [if_pos hrom]
    exact (hcall (some .cxxx)).trans (by cases write <;> rfl)
  · simp only [if_neg hrom]
    exact hcall _

end Host

/-- What happens after a card has been taken out. -/
inductive AccessOp where
  /-- An access in `$C000-$CFFF`. -/
  | access (a : UInt16) (ha : isIoRegion a = true) (write : Bool)
  /-- The memory changes in some other way. -/
  | outside (f : MemoryInstance → MemoryInstance)

/-- **The accesses to a host as a machine.** -/
def accessMachine (I H : Type) (ty : Apple2Type) :
    Machine (Host I H) AccessOp (Response I H) where
  next h
    | .access a _ write => (h.access ty a write).1
    | .outside f => { h with io := { h.io with memory := f h.io.memory } }
  out h
    | .access a _ write => some (h.access ty a write).2
    | .outside _ => none

section SameAnswers

variable {ty : Apple2Type} {h h' : Host I H}

/-- The same memory with other tables. -/
def IoMemory.withTables (io : IoMemory) (r w : Nat → Option IoFunction) : IoMemory :=
  { io with ioRead := r, ioWrite := w }

theorem selectSlot_withTables (io : IoMemory) (r w : Nat → Option IoFunction) (slot : Slot) :
    (io.withTables r w).selectSlot slot = (io.selectSlot slot).withTables r w := by
  unfold IoMemory.selectSlot IoMemory.withTables
  dsimp only
  split_ifs <;> rfl

theorem enableExpansionRom_withTables (io : IoMemory) (r w : Nat → Option IoFunction) :
    (io.withTables r w).enableExpansionRom = io.enableExpansionRom.withTables r w := by
  have hfirst : (io.withTables r w).firstSelected = io.firstSelected := rfl
  unfold IoMemory.enableExpansionRom
  rw [hfirst]
  cases io.firstSelected with
  | none => rfl
  | some slot =>
    dsimp only
    have hrom : (io.withTables r w).expansionRom slot = io.expansionRom slot := rfl
    rw [hrom]
    cases io.expansionRom slot with
    | none => rfl
    | some rom =>
      dsimp only
      have hmemory : (io.withTables r w).memory = io.memory := rfl
      rw [hmemory]
      split_ifs <;> rfl

theorem enableInternal_withTables (io : IoMemory) (r w : Nat → Option IoFunction) :
    (io.withTables r w).enableInternal = io.enableInternal.withTables r w := by
  unfold IoMemory.enableInternal IoMemory.withTables
  dsimp only
  split_ifs <;> rfl

/-- `io_read_cxxx` asks no table. -/
theorem selectRom_withTables (io : IoMemory) (r w : Nat → Option IoFunction) (a : UInt16) :
    (io.withTables r w).selectRom ty a = (io.selectRom ty a).withTables r w := by
  have hoff : (if a = 0xCFFF then (io.withTables r w).disableExpansionRom
        else io.withTables r w)
      = (if a = 0xCFFF then io.disableExpansionRom else io).withTables r w := by
    split_ifs <;> rfl
  unfold IoMemory.selectRom
  dsimp only
  rw [hoff]
  generalize (if a = 0xCFFF then io.disableExpansionRom else io) = t
  have hmemory : (t.withTables r w).memory = t.memory := rfl
  have hselect : (t.withTables r w).ioSelect = t.ioSelect := rfl
  rw [hmemory, hselect, selectSlot_withTables, enableExpansionRom_withTables,
    enableInternal_withTables]
  split_ifs <;> rfl

/-- The tables of one host put into another that answers the same. -/
theorem SameAnswers.io_eq (h₁ : SameAnswers ty h h') :
    h'.io = h.io.withTables h'.io.ioRead h'.io.ioWrite := by
  unfold IoMemory.withTables
  rw [← h₁.roms, ← h₁.memory, ← h₁.ioSelect, ← h₁.internal]

/-- Hosts that answer the same do so after the memory has changed in both. -/
theorem SameAnswers.congr (h₁ : SameAnswers ty h h') (f : IoMemory → IoMemory)
    (hf : ∀ io r w, f (io.withTables r w) = (f io).withTables r w)
    (htables : ∀ io, (f io).ioRead = io.ioRead ∧ (f io).ioWrite = io.ioWrite) :
    SameAnswers ty { h with io := f h.io } { h' with io := f h'.io } := by
  have hio : f h'.io = (f h.io).withTables h'.io.ioRead h'.io.ioWrite := by
    rw [← hf, ← h₁.io_eq]
  have htable : ∀ io write, (f io).table write = io.table write := fun io write => by
    unfold IoMemory.table
    rw [(htables io).1, (htables io).2]
  refine ⟨fun a write ha => ?_, ?_, ?_, ?_, ?_⟩
  · have hroute := h₁.route a write ha
    unfold Host.route at hroute ⊢
    dsimp only
    rw [htable, htable]
    exact hroute
  all_goals
    dsimp only
    rw [hio]
    rfl

/-- A read enters nothing in a table. -/
theorem tables_selectRom (io : IoMemory) (a : UInt16) :
    (io.selectRom ty a).ioRead = io.ioRead ∧ (io.selectRom ty a).ioWrite = io.ioWrite := by
  have h := @selectRom_withTables ty io io.ioRead io.ioWrite a
  rw [show io.withTables io.ioRead io.ioWrite = io from rfl] at h
  have hread := congrArg IoMemory.ioRead h
  have hwrite := congrArg IoMemory.ioWrite h
  exact ⟨hread, hwrite⟩

/-- What `io_read_cxxx` answers. -/
theorem SameAnswers.accessRom (h₁ : SameAnswers ty h h') (a : UInt16) (write : Bool) :
    (h'.accessRom ty a write).2 = (h.accessRom ty a write).2
      ∧ SameAnswers ty (h.accessRom ty a write).1 (h'.accessRom ty a write).1 := by
  cases write with
  | true => exact ⟨rfl, h₁⟩
  | false =>
    refine ⟨?_, h₁.congr (fun io => io.selectRom ty a)
      (fun io r w => selectRom_withTables io r w a) fun io => tables_selectRom io a⟩
    have hio : (h'.io.selectRom ty a).memory = (h.io.selectRom ty a).memory := by
      rw [h₁.io_eq, selectRom_withTables]
      rfl
    unfold Host.accessRom IoMemory.ioReadCxxx
    dsimp only
    rw [if_neg Bool.false_ne_true, if_neg Bool.false_ne_true, hio]
    dsimp only
    split_ifs <;> rfl

/-- **Hosts that answer the same give one response to an access**, and answer
the same after it. -/
theorem SameAnswers.access (h₁ : SameAnswers ty h h') {a : UInt16} (ha : isIoRegion a = true)
    (write : Bool) : (h'.access ty a write).2 = (h.access ty a write).2
      ∧ SameAnswers ty (h.access ty a write).1 (h'.access ty a write).1 := by
  have hignore : h'.io.ignoresTables ty a = h.io.ignoresTables ty a := by
    unfold IoMemory.ignoresTables
    rw [h₁.memory]
  rw [h.access_eq ty ha write, h'.access_eq ty ha write, hignore, h₁.route a write ha]
  split_ifs
  · exact h₁.accessRom a write
  · exact h₁.accessRom a write
  · exact ⟨rfl, h₁⟩

/-- **Hosts that answer the same give the same responses ever after.** -/
theorem SameAnswers.shows_eq (h₁ : SameAnswers ty h h') (ops : List AccessOp) :
    (accessMachine I H ty).shows h' ops = (accessMachine I H ty).shows h ops := by
  refine Machine.shows_eq_of_bisimulation _ _ (R := fun h' h => SameAnswers ty h h')
    (fun h' h op h₁ => ?_) h₁ ops
  cases op with
  | access a ha write =>
    obtain ⟨hresponse, hsame⟩ := h₁.access ha write
    exact ⟨congrArg some hresponse, hsame⟩
  | outside f =>
    exact ⟨rfl, h₁.congr (fun io => { io with memory := f io.memory }) (fun _ _ _ => rfl)
      fun _ => ⟨rfl, rfl⟩⟩

end SameAnswers

end LinApple.Slots
