import LinApple.Slots.Peripherals

/-!
# What an initialisation leaves

A card asks the host for things in turn, and what it asked for last may
replace what it asked for before. `Card.registers` is what is left in
the end: the functions and the expansion ROM it last entered, the page of card
ROM it last stored, and the claims there was room for. Claims of the slot's
own sixteen addresses are lost when the card enters functions after them.
-/

namespace LinApple.Slots

open Memory

variable {I H : Type}

/-- Whether an index is one of a slot's sixteen. -/
def inC0 (slot : Slot) (i : Nat) : Bool :=
  0x80 + slot.val * 0x10 ≤ i && i < 0x80 + slot.val * 0x10 + 0x10

/-- Whether a claim enters the bridge at an index. -/
def DirectIoHandler.claims (i : Nat) (write : Bool) (e : DirectIoHandler I H) : Bool :=
  e.addr.toNat / 0x100 = 0xC0 && e.addr.toNat % 0x100 = i
    && (e.onStrobe.isSome || (e.handler write).isSome)

/-- **What a card has registered.** -/
structure Registered (I H : Type) where
  /-- The functions and the expansion ROM it entered last. -/
  ap : Option (ActivePeripheral I H)
  /-- The page of card ROM it stored last. -/
  cxRom : Option PageData
  /-- Its claims. -/
  direct : List (DirectIoHandler I H)
  /-- Its claims since it last entered functions. -/
  late : List (DirectIoHandler I H)

namespace Registered

/-- Nothing yet. -/
def empty : Registered I H := ⟨none, none, [], []⟩

/-- Functions are entered. -/
def enter (f : ActivePeripheral I H → ActivePeripheral I H) (r : Registered I H) :
    Registered I H :=
  { r with ap := some (f (r.ap.getD .new)), late := [] }

/-- A claim is made, where `n` others are in the list. -/
def claim (n : Nat) (e : DirectIoHandler I H) (r : Registered I H) : Registered I H :=
  if n + r.direct.length ≥ ioDirectCount then r
  else { r with direct := r.direct ++ [e], late := r.late ++ [e] }

/-- What a card asks for. -/
def call (n : Nat) (inst : I) (r : Registered I H) : HostCall H → Registered I H
  | .registerIo readC0 writeC0 readCx writeCx => r.enter fun ap =>
    { ap with readC0 := readC0, writeC0 := writeC0, readCx := readCx, writeCx := writeCx }
  | .registerCxRom rom => { r with cxRom := some rom }
  | .registerExpansionRom rom => r.enter fun ap => { ap with expansionRom := rom }
  | .registerDirectIo addr read write => r.claim n ⟨addr, read, write, none, inst⟩
  | .registerDirectIoStrobe addr onStrobe => r.claim n ⟨addr, none, none, some onStrobe, inst⟩

/-- The entry of a table that is left. -/
def entry (slot : Slot) (r : Registered I H) (write : Bool) (i : Nat)
    (e : Option IoFunction) : Option IoFunction :=
  if inC0 slot i then
    if r.late.any (·.claims i write) then some .directIo
    else
      match r.ap with
      | none => e
      | some ap => bridge .slotC0 (ap.c0 write)
  else if slot ≠ 0 ∧ i = 0x100 + slot.val then
    match r.ap with
    | none => e
    | some ap => bridge .slotCx (ap.cx write) <|> some .cxxx
  else if r.direct.any (·.claims i write) then some .directIo
  else e

/-- The expansion ROMs that are left. -/
def roms (slot : Slot) (r : Registered I H) (expansionRom : Slot → Option ExpansionRom) :
    Slot → Option ExpansionRom :=
  match r.ap with
  | none => expansionRom
  | some ap =>
    if slot = 0 then expansionRom else Function.update expansionRom slot ap.expansionRom

/-- The memory that is left. -/
def memory (slot : Slot) (r : Registered I H) (m : MemoryInstance) : MemoryInstance :=
  match r.cxRom with
  | none => m
  | some rom => if slot = 0 then m else storeCxPage slot rom m

end Registered

/-- **What a card's `init` leaves registered**, where `n` claims are in the
list already. -/
def Card.registers (n : Nat) (card : Card I H) : Registered I H :=
  card.calls.foldl (Registered.call n card.inst) .empty

/-! ## The tables -/

section Tables

variable (io : IoMemory)

theorem inC0_iff (slot : Slot) (i : Nat) : inC0 slot i = true
    ↔ 0x80 + slot.val * 0x10 ≤ i ∧ i < 0x80 + slot.val * 0x10 + 0x10 := by
  rw [inC0, Bool.and_eq_true, decide_eq_true_eq, decide_eq_true_eq]

/-- The tables after functions have been entered. -/
theorem table_registerIoHandler (slot : Slot)
    (readC0 writeC0 readCx writeCx : Option IoFunction) (rom : Option ExpansionRom)
    (write : Bool) (i : Nat) :
    (io.registerIoHandler slot readC0 writeC0 readCx writeCx rom).table write i
      = if inC0 slot i then (if write then writeC0 else readC0)
        else if slot ≠ 0 ∧ i = 0x100 + slot.val then
          (if write then writeCx else readCx) <|> some .cxxx
        else io.table write i := by
  -- one table
  have htable : ∀ f g t, (if slot = 0 then IoMemory.setC0 slot f t
        else Function.update (IoMemory.setC0 slot f t) (0x100 + slot.val) (g <|> some .cxxx)) i
      = if inC0 slot i then f else if slot ≠ 0 ∧ i = 0x100 + slot.val then g <|> some .cxxx
        else t i := fun f g t => by
    have hset : IoMemory.setC0 slot f t i = if inC0 slot i then f else t i := by
      simp only [IoMemory.setC0, inC0_iff]
    by_cases hslot : slot = 0
    · rw [if_pos hslot, hset, @if_neg (slot ≠ 0 ∧ _) _ fun h => h.1 hslot]
    · rw [if_neg hslot]
      by_cases hi : i = 0x100 + slot.val
      · have hout : ¬inC0 slot i = true := fun h => by
          have := (inC0_iff slot i).mp h
          omega
        rw [if_neg hout, if_pos ⟨hslot, hi⟩, hi, Function.update_self]
      · rw [Function.update_of_ne hi, hset, @if_neg (slot ≠ 0 ∧ _) _ fun h => hi h.2]
  unfold IoMemory.registerIoHandler IoMemory.table
  cases write
  · refine Eq.trans ?_ (htable readC0 readCx io.ioRead)
    by_cases hslot : slot = 0 <;> simp only [hslot, Bool.false_eq_true, if_true, if_false]
  · refine Eq.trans ?_ (htable writeC0 writeCx io.ioWrite)
    by_cases hslot : slot = 0 <;> simp only [hslot, if_true, if_false]

/-- The tables after a card's functions have been entered. -/
theorem table_registerSlot (slot : Slot) (ap : ActivePeripheral I H) (write : Bool) (i : Nat) :
    (io.registerSlot slot ap).table write i
      = if inC0 slot i then bridge .slotC0 (ap.c0 write)
        else if slot ≠ 0 ∧ i = 0x100 + slot.val then bridge .slotCx (ap.cx write) <|> some .cxxx
        else io.table write i := by
  rw [IoMemory.registerSlot, table_registerIoHandler]
  cases write <;> rfl

/-- The tables after a claim. -/
theorem table_registerDirectIoHandler (addr : UInt16) (read write : Option IoFunction)
    (b : Bool) (i : Nat) :
    (io.registerDirectIoHandler addr read write).table b i
      = if addr.toNat / 0x100 = 0xC0 ∧ addr.toNat % 0x100 = i then
          (if b then write else read) <|> io.table b i
        else io.table b i := by
  have htable : ∀ f t, (if addr.toNat / 0x100 = 0xC0 then
        Function.update t (addr.toNat % 0x100) (f <|> t (addr.toNat % 0x100)) else t) i
      = if addr.toNat / 0x100 = 0xC0 ∧ addr.toNat % 0x100 = i then f <|> t i
        else (t i : Option IoFunction) := fun f t => by
    by_cases hpage : addr.toNat / 0x100 = 0xC0
    · rw [if_pos hpage]
      by_cases hi : addr.toNat % 0x100 = i
      · rw [if_pos ⟨hpage, hi⟩, hi, Function.update_self]
      · rw [if_neg fun h => hi h.2, Function.update_of_ne (Ne.symm hi)]
    · rw [if_neg hpage, if_neg fun h => hpage h.1]
  unfold IoMemory.registerDirectIoHandler IoMemory.table
  cases b
  · refine Eq.trans ?_ (htable read io.ioRead)
    simp only [Bool.false_eq_true, if_false]
    split_ifs <;> rfl
  · refine Eq.trans ?_ (htable write io.ioWrite)
    simp only [if_true]
    split_ifs <;> rfl

/-- A claim that names no function leaves the tables alone: what was entered
stays entered. -/
theorem registerDirectIoHandler_none (addr : UInt16) :
    io.registerDirectIoHandler addr none none = io := by
  unfold IoMemory.registerDirectIoHandler
  split_ifs
  · simp only [Option.orElse_eq_orElse, Option.orElse_eq_or, Option.none_or,
      Function.update_eq_self]
  · rfl

end Tables

/-! ## The trace of an initialisation -/

/-- **The host `h'` is `h` with a card in a slot that has registered `r`.** -/
structure Entered (slot : Slot) (r : Registered I H) (h h' : Host I H) : Prop where
  /-- The card is in the slot. -/
  active : h'.active = Function.update h.active slot (h.active slot ++ [r.ap.getD .new])
  /-- Its claims are in the list. -/
  direct : h'.direct = h.direct ++ r.direct
  /-- The tables. -/
  table : ∀ write i, h'.io.table write i = r.entry slot write i (h.io.table write i)
  /-- The expansion ROMs. -/
  roms : h'.io.expansionRom = r.roms slot h.io.expansionRom
  /-- The memory. -/
  memory : h'.io.memory = r.memory slot h.io.memory
  /-- What is selected. -/
  ioSelect : h'.io.ioSelect = h.io.ioSelect
  /-- Whether the internal ROM is selected. -/
  internal : h'.io.ioSelectInternalRom = h.io.ioSelectInternalRom

section Entered

variable {slot : Slot} {r : Registered I H} {h h' : Host I H}

/-- The host with a new card in a slot. -/
theorem Entered.new (slot : Slot) (h : Host I H) : Entered slot .empty h
    { h with active := Function.update h.active slot (h.active slot ++ [.new]) } where
  active := rfl
  direct := (List.append_nil _).symm
  table write i := by
    unfold Registered.entry Registered.empty
    simp only [List.any_nil, Bool.false_eq_true, if_false]
    split_ifs <;> rfl
  roms := rfl
  memory := rfl
  ioSelect := rfl
  internal := rfl

/-- Functions are entered. -/
theorem Entered.updateLast (he : Entered slot r h h')
    (f : ActivePeripheral I H → ActivePeripheral I H) :
    Entered slot (r.enter f) h (h'.updateLast slot f) := by
  have haps : h'.active slot = h.active slot ++ [r.ap.getD .new] := by
    rw [he.active, Function.update_self]
  unfold Host.updateLast
  rw [haps, List.getLast?_append, List.getLast?_singleton]
  simp only [Option.some_or, List.dropLast_concat]
  constructor
  · dsimp only
    rw [he.active, Function.update_idem]
    rfl
  · exact he.direct
  · intro write i
    dsimp only
    rw [table_registerSlot, he.table]
    unfold Registered.entry Registered.enter
    simp only [List.any_nil, Bool.false_eq_true, if_false]
    split_ifs <;> rfl
  · dsimp only
    rw [IoMemory.registerSlot, IoMemory.expansionRom_registerIoHandler, he.roms]
    unfold Registered.roms Registered.enter
    dsimp only
    split_ifs with hzero
    · cases r.ap <;> rfl
    · cases r.ap
      · rfl
      · exact Function.update_idem _ _ _
  · dsimp only
    rw [IoMemory.registerSlot, IoMemory.memory_registerIoHandler, he.memory]
    rfl
  · exact (IoMemory.selection_registerIoHandler _ _ _ _ _ _ _).1.trans he.ioSelect
  · exact (IoMemory.selection_registerIoHandler _ _ _ _ _ _ _).2.trans he.internal

/-- A page of card ROM is stored over the one before. -/
theorem storeCxPage_storeCxPage (slot : Slot) (rom rom' : PageData) (m : MemoryInstance) :
    storeCxPage slot rom' (storeCxPage slot rom m) = storeCxPage slot rom' m := by
  unfold storeCxPage
  dsimp only
  split_ifs <;> simp only [Function.update_idem]

theorem Entered.storeCxRom (he : Entered slot r h h') (rom : PageData) :
    Entered slot { r with cxRom := some rom } h { h' with io := h'.io.storeCxRom slot rom } := by
  have hmemory : (h'.io.storeCxRom slot rom).memory
      = if slot = 0 then h.io.memory else storeCxPage slot rom h.io.memory := by
    unfold IoMemory.storeCxRom
    split_ifs with hzero
    · rw [he.memory, Registered.memory]
      cases r.cxRom
      · rfl
      · exact if_pos hzero
    · dsimp only
      rw [he.memory, Registered.memory]
      cases r.cxRom
      · rfl
      · dsimp only
        rw [if_neg hzero, storeCxPage_storeCxPage]
  have hio : (h'.io.storeCxRom slot rom).table = h'.io.table
      ∧ (h'.io.storeCxRom slot rom).expansionRom = h'.io.expansionRom
      ∧ (h'.io.storeCxRom slot rom).ioSelect = h'.io.ioSelect
      ∧ (h'.io.storeCxRom slot rom).ioSelectInternalRom = h'.io.ioSelectInternalRom := by
    unfold IoMemory.storeCxRom
    split_ifs <;> exact ⟨rfl, rfl, rfl, rfl⟩
  obtain ⟨htable, hroms, hselect, hinternal⟩ := hio
  exact ⟨he.active, he.direct, fun write i => by rw [htable]; exact he.table write i,
    hroms.trans he.roms, hmemory, hselect.trans he.ioSelect, hinternal.trans he.internal⟩

/-- A claim is made. -/
theorem Entered.addDirect (he : Entered slot r h h') (e : DirectIoHandler I H)
    (read write : Option IoFunction)
    (hread : read = if e.onStrobe.isSome || e.read.isSome then some .directIo else none)
    (hwrite : write = if e.onStrobe.isSome || e.write.isSome then some .directIo else none) :
    Entered slot (r.claim h.direct.length e) h (h'.addDirect e read write) := by
  have hlength : h'.direct.length = h.direct.length + r.direct.length := by
    rw [he.direct, List.length_append]
  unfold Host.addDirect Registered.claim
  rw [hlength]
  -- with the table of direct handlers full, nothing is entered and nothing claimed
  split_ifs with hfull
  · exact he
  refine ⟨he.active, ?_, fun b i => ?_, ?_, ?_, ?_, ?_⟩
  · dsimp only
    rw [he.direct, List.append_assoc]
  · dsimp only
    rw [table_registerDirectIoHandler, he.table]
    have hclaims : e.claims i b = true ↔ (e.addr.toNat / 0x100 = 0xC0 ∧ e.addr.toNat % 0x100 = i)
        ∧ (e.onStrobe.isSome || (e.handler b).isSome) = true := by
      rw [DirectIoHandler.claims, Bool.and_eq_true, Bool.and_eq_true, decide_eq_true_eq,
        decide_eq_true_eq]
    have hentered : (if b then write else read)
        = if (e.onStrobe.isSome || (e.handler b).isSome) then some .directIo else none := by
      cases b
      · exact hread
      · exact hwrite
    rw [hentered]
    -- a direct handler takes the entry at its own address, and every other keeps what it had
    by_cases hc : e.claims i b = true
    · obtain ⟨hat, hsome⟩ := hclaims.mp hc
      have hcx : ¬(slot ≠ 0 ∧ i = 0x100 + slot.val) := fun h => by omega
      unfold Registered.entry
      simp only [List.any_append, List.any_cons, List.any_nil, hc, Bool.or_false, Bool.or_true,
        if_true, if_pos hat, if_pos hsome, if_neg hcx, ite_self]
      rfl
    · have hskip : ∀ l : List (DirectIoHandler I H),
          (l ++ [e]).any (·.claims i b) = l.any (·.claims i b) := fun l => by
        rw [List.any_append, List.any_cons, List.any_nil, Bool.eq_false_iff.mpr hc,
          Bool.or_false, Bool.or_false]
      have hentry : Registered.entry slot
          { r with direct := r.direct ++ [e], late := r.late ++ [e] } b i (h.io.table b i)
          = r.entry slot b i (h.io.table b i) := by
        unfold Registered.entry
        simp only [hskip]
      rw [hentry]
      split_ifs with hat hsome
      · exact absurd (hclaims.mpr ⟨hat, hsome⟩) hc
      · rfl
      · rfl
  all_goals
    dsimp only
    unfold IoMemory.registerDirectIoHandler
    split_ifs
  · exact he.roms
  · exact he.roms
  · exact he.memory
  · exact he.memory
  · exact he.ioSelect
  · exact he.ioSelect
  · exact he.internal
  · exact he.internal

/-- **What a card asks for is registered.** -/
theorem Entered.hostCall (he : Entered slot r h h') (inst : I) (c : HostCall H) :
    Entered slot (r.call h.direct.length inst c) h (h'.hostCall slot inst c) := by
  cases c with
  | registerIo readC0 writeC0 readCx writeCx =>
    exact he.updateLast fun ap =>
      { ap with readC0 := readC0, writeC0 := writeC0, readCx := readCx, writeCx := writeCx }
  | registerCxRom rom => exact he.storeCxRom rom
  | registerExpansionRom rom => exact he.updateLast fun ap => { ap with expansionRom := rom }
  | registerDirectIo addr read write =>
    refine he.addDirect _ _ _ ?_ ?_
    · cases read <;> rfl
    · cases write <;> rfl
  | registerDirectIoStrobe addr onStrobe => exact he.addDirect _ _ _ rfl rfl

theorem Entered.foldl (he : Entered slot r h h') (inst : I) (calls : List (HostCall H)) :
    Entered slot (calls.foldl (Registered.call h.direct.length inst) r) h
      (calls.foldl (Host.hostCall slot inst) h') := by
  induction calls generalizing h' r with
  | nil => exact he
  | cons c cs ih => exact ih (he.hostCall inst c)

/-- **What an initialisation leaves.** -/
theorem entered_initCard (h : Host I H) (card : Card I H) (slot : Slot) :
    Entered slot (card.registers h.direct.length) h (h.initCard card slot) :=
  (Entered.new slot h).foldl card.inst card.calls

/-- What every call preserves holds of what an initialisation leaves. -/
theorem registers_of_call {P : Registered I H → Prop} {n : Nat} {card : Card I H}
    (hempty : P .empty) (hcall : ∀ r c, P r → P (r.call n card.inst c)) :
    P (card.registers n) := by
  have hrun : ∀ (calls : List (HostCall H)) (r : Registered I H), P r →
      P (calls.foldl (Registered.call n card.inst) r) := by
    intro calls
    induction calls with
    | nil => exact fun r hr => hr
    | cons c cs ih => exact fun r hr => ih _ (hcall r c hr)
  exact hrun card.calls .empty hempty

/-- A card's claims are its own. -/
theorem inst_of_mem_registers (n : Nat) (card : Card I H) :
    ∀ e ∈ (card.registers n).direct, e.inst = card.inst := by
  refine registers_of_call (P := fun r => ∀ e ∈ r.direct, e.inst = card.inst)
    (fun e he => nomatch he) fun r c hr => ?_
  have hclaim : ∀ e : DirectIoHandler I H, e.inst = card.inst →
      ∀ e' ∈ (r.claim n e).direct, e'.inst = card.inst := by
    intro e he e' he'
    unfold Registered.claim at he'
    split_ifs at he'
    · exact hr e' he'
    · rcases List.mem_append.mp he' with h | h
      · exact hr e' h
      · rw [List.mem_singleton.mp h]
        exact he
  cases c with
  | registerIo readC0 writeC0 readCx writeCx => exact hr
  | registerCxRom rom => exact hr
  | registerExpansionRom rom => exact hr
  | registerDirectIo addr read write => exact hclaim _ rfl
  | registerDirectIoStrobe addr onStrobe => exact hclaim _ rfl

/-- Where a card has entered no functions, none of its claims are lost. -/
theorem late_registers (n : Nat) (card : Card I H) :
    (card.registers n).ap = none → (card.registers n).late = (card.registers n).direct := by
  refine registers_of_call (P := fun r => r.ap = none → r.late = r.direct)
    (fun _ => rfl) fun r c hr => ?_
  have hclaim : ∀ e : DirectIoHandler I H, (r.claim n e).ap = none →
      (r.claim n e).late = (r.claim n e).direct := by
    intro e
    unfold Registered.claim
    split_ifs
    · exact hr
    · exact fun hap => congrArg (· ++ [e]) (hr hap)
  cases c with
  | registerIo readC0 writeC0 readCx writeCx => exact fun hap => absurd hap (Option.some_ne_none _)
  | registerCxRom rom => exact hr
  | registerExpansionRom rom => exact fun hap => absurd hap (Option.some_ne_none _)
  | registerDirectIo addr read write => exact hclaim _
  | registerDirectIoStrobe addr onStrobe => exact hclaim _

end Entered

end LinApple.Slots
