import LinApple.Slots.Removal
import Mathlib.Data.List.ModifyLast

/-!
# What taking a card out gives back

The host after a card has been in a slot is written out field by field, once for a card that was
registered and taken out (`Removed`) and once for a card whose `init` failed (`Failed`), and each
gives the route of every access from the route it had before. Comparing the two says when nothing
has changed: `RemovalRestores` and `FailedInitRestores` are conditions on the host before and on
what the card asks for.

An access is answered as before if its route is the same: the same function of the same instance,
the same ROM, or nobody. That is a statement about one access, and it would be too weak by itself,
since reads of the slots' pages move the expansion window. So `SameAnswers` adds all that the
routes and the answers of ROMs depend on, and `SameAnswers.shows_eq` turns it into equal answers
in every later run. `Undone` further asks that no route reaches the card, and that whatever
reached another card reaches it still. This last part is implied where the first holds; it is
stated for the cases in which it does not, of which `Removed.not_reaches` and
`Removed.route_eq_of_stays` say what is kept.

The conditions are long because the code takes away more than the card has put there and less.
Taking a card out clears the sixteen addresses of its slot and the slot's pages, whoever had them;
it leaves the bridge to the list of claims at the addresses the card has claimed, whoever was
there before. A failed `init` leaves everything but the entry in the list of cards. Each clause is
one of these places, and says what would have to be true before for the outcome to be the same;
nothing in them is computed from the host after. That they are exact is `Removed.undone_iff` and
`Failed.undone_iff`. Both are for any card: what it asks for is a list of calls, of which
`card.registers` is the effect, and the number of claims there is still room for is part of it.
-/

namespace LinApple.Slots

open Memory

variable {I H : Type}

/-- **A registration is undone.** The two states are compared by what an access is answered and by
whom, and not field by field: a table may hold a handler that no access comes to. The card is
known by its instance. -/
structure Undone (ty : Apple2Type) (inst : I) (h h' : Host I H) : Prop where
  /-- Every access is answered as it was. -/
  same : SameAnswers ty h h'
  /-- No access reaches the card. -/
  removed : ∀ a write, isIoRegion a = true → ¬(h'.route ty a write).Reaches inst
  /-- What reached another card reaches it still. -/
  others : ∀ a write i, isIoRegion a = true → i ≠ inst →
    (h.route ty a write).Reaches i → (h'.route ty a write).Reaches i

/-- Nothing is undone but what was not there. -/
theorem undone_iff {ty : Apple2Type} {inst : I} {h h' : Host I H} : Undone ty inst h h'
    ↔ SameAnswers ty h h' ∧ ∀ a write, isIoRegion a = true → ¬(h.route ty a write).Reaches inst := by
  constructor
  · intro hu
    exact ⟨hu.same, fun a write ha => by
      rw [← hu.same.route a write ha]
      exact hu.removed a write ha⟩
  · rintro ⟨hsame, hfresh⟩
    refine ⟨hsame, fun a write ha => ?_, fun a write i ha _ hreach => ?_⟩
    · rw [hsame.route a write ha]
      exact hfresh a write ha
    · rw [hsame.route a write ha]
      exact hreach

/-! ## Claims -/

/-- A claim answers at the entries it claims. -/
theorem DirectIoHandler.strobes_answers_eq_none {e : DirectIoHandler I H} {a : UInt16}
    {write : Bool} (ha : isIoRegion a = true)
    (he : e.claims (tableIndex a) write = false) (hi : tableIndex a < 0x100) :
    e.strobes a = none ∧ e.answers a write = none := by
  unfold DirectIoHandler.strobes DirectIoHandler.answers
  by_cases haddr : e.addr = a
  · rw [if_pos haddr, if_pos haddr]
    have hpage : a.toNat / 0x100 = 0xC0 ∧ a.toNat % 0x100 = tableIndex a := by
      rcases Host.tableIndex_eq a ha with ⟨hc0, ht⟩ | ⟨hc0, ht⟩
      · exact ⟨hc0, ht.symm⟩
      · have := isIoPage_iff.mp ha
        rw [pageOf_val] at this
        omega
    rw [DirectIoHandler.claims, haddr, decide_eq_true hpage.1, decide_eq_true hpage.2,
      Bool.true_and, Bool.true_and, Bool.or_eq_false_iff, Option.isSome_eq_false_iff,
      Option.isSome_eq_false_iff, Option.isNone_iff_eq_none, Option.isNone_iff_eq_none] at he
    rw [he.1, he.2]
    exact ⟨rfl, rfl⟩
  · rw [if_neg haddr, if_neg haddr]
    exact ⟨rfl, rfl⟩

/-- Claims of other addresses may be added. -/
theorem directRoute_append {l l' : List (DirectIoHandler I H)} {a : UInt16} {write : Bool}
    (ha : isIoRegion a = true) (hi : tableIndex a < 0x100)
    (hl' : l'.any (·.claims (tableIndex a) write) = false) :
    directRoute (l ++ l') a write = directRoute l a write := by
  have hnone : ∀ e ∈ l', e.strobes a = none ∧ e.answers a write = none := fun e he =>
    DirectIoHandler.strobes_answers_eq_none ha (Bool.eq_false_iff.mpr (List.any_eq_false.mp hl' e he)) hi
  have hstrobes : l'.findSome? (·.strobes a) = none :=
    List.findSome?_eq_none_iff.mpr fun e he => (hnone e he).1
  have hanswers : l'.findSome? (·.answers a write) = none :=
    List.findSome?_eq_none_iff.mpr fun e he => (hnone e he).2
  unfold directRoute
  rw [List.findSome?_append, List.findSome?_append, hstrobes, hanswers, Option.or_none,
    Option.or_none]

/-- A claim is of `$C0xx`. -/
theorem any_claims_lt {l : List (DirectIoHandler I H)} {i : Nat} {write : Bool}
    (h : l.any (·.claims i write) = true) : i < 0x100 := by
  obtain ⟨e, -, he⟩ := List.any_eq_true.mp h
  rw [DirectIoHandler.claims, Bool.and_eq_true, Bool.and_eq_true, decide_eq_true_eq,
    decide_eq_true_eq] at he
  omega

/-! ## A card that is taken out -/

/-- The claims that stay when a slot is emptied of its cards, `inst` among
them. -/
def Host.directWithout [DecidableEq I] (h : Host I H) (slot : Slot) (inst : I) :
    List (DirectIoHandler I H) :=
  h.direct.filter fun e => e.inst ≠ inst && (h.active slot).all fun ap => ap.inst ≠ some e.inst

/-- **The host `h'` is `h` after a card was registered and taken out.** -/
structure Removed [DecidableEq I] (card : Card I H) (slot : Slot) (h h' : Host I H) : Prop where
  /-- The slot is empty. -/
  active : h'.active = Function.update h.active slot []
  /-- The claims of its cards are gone. -/
  direct : h'.direct = h.directWithout slot card.inst
  /-- The tables. -/
  table : ∀ write i, h'.io.table write i
    = if inC0 slot i then none
      else if slot ≠ 0 ∧ i = 0x100 + slot.val then some .cxxx
      else if (card.registers h.direct.length).direct.any (·.claims i write) then some .directIo
      else h.io.table write i
  /-- The expansion ROMs. -/
  roms : h'.io.expansionRom = if slot = 0 then h.io.expansionRom
    else Function.update h.io.expansionRom slot none
  /-- The memory. -/
  memory : h'.io.memory = if slot = 0 then h.io.memory
    else storeCxPage slot (fun _ => 0) h.io.memory
  /-- What is selected. -/
  ioSelect : h'.io.ioSelect = h.io.ioSelect
  /-- Whether the internal ROM is selected. -/
  internal : h'.io.ioSelectInternalRom = h.io.ioSelectInternalRom

/-- What storing a page in a slot leaves alone. -/
theorem storeCxRom_frame (io : IoMemory) (slot : Slot) (rom : PageData) :
    (io.storeCxRom slot rom).expansionRom = io.expansionRom
      ∧ (io.storeCxRom slot rom).memory
        = (if slot = 0 then io.memory else storeCxPage slot rom io.memory)
      ∧ (io.storeCxRom slot rom).ioSelect = io.ioSelect
      ∧ (io.storeCxRom slot rom).ioSelectInternalRom = io.ioSelectInternalRom := by
  unfold IoMemory.storeCxRom
  split_ifs <;> exact ⟨rfl, rfl, rfl, rfl⟩

section Removed

variable [DecidableEq I] {card : Card I H} {slot : Slot} {h h' : Host I H}

/-- **A card that is registered and taken out.** -/
theorem removed_peripheralUnregister (hok : card.ok = true) (haccepts : h.accepts card slot = true) :
    Removed card slot h ((h.peripheralRegister card slot).peripheralUnregister slot) := by
  have he := entered_initCard h card slot
  set r := card.registers h.direct.length with hr
  -- the host once the card is registered
  have hactive : (h.peripheralRegister card slot).active = Function.update h.active slot
      (h.active slot ++ [{ r.ap.getD .new with inst := some card.inst }]) := by
    unfold Host.peripheralRegister
    rw [if_pos haccepts, if_pos hok]
    dsimp only
    rw [he.active, Function.update_self, List.modifyLast_concat, Function.update_idem]
  have hio : (h.peripheralRegister card slot).io = (h.initCard card slot).io := by
    unfold Host.peripheralRegister
    rw [if_pos haccepts, if_pos hok]
  have hdirect : (h.peripheralRegister card slot).direct = h.direct ++ r.direct := by
    unfold Host.peripheralRegister
    rw [if_pos haccepts, if_pos hok]
    exact he.direct
  set t := h.peripheralRegister card slot
  have hgone : t.peripheralUnregister slot
      = { t with
          direct := t.direct.filter fun e => (t.active slot).all fun ap => ap.inst ≠ some e.inst
          active := Function.update t.active slot []
          io := (t.io.registerIoHandler slot none none none none none).storeCxRom slot
            fun _ => 0 } := by
    unfold Host.peripheralUnregister
    rw [foldl_removeDirect]
  obtain ⟨hroms, hmemory, hselect, hinternal⟩ :=
    storeCxRom_frame (t.io.registerIoHandler slot none none none none none) slot fun _ => 0
  have hsel := IoMemory.selection_registerIoHandler t.io slot none none none none none
  refine ⟨?_, ?_, fun write i => ?_, ?_, ?_, ?_, ?_⟩
  · rw [hgone]
    dsimp only
    rw [hactive, Function.update_idem]
  · rw [hgone]
    dsimp only
    rw [hactive, Function.update_self, hdirect, List.filter_append]
    have hown : (r.direct.filter fun e =>
        (h.active slot ++ [{ r.ap.getD .new with inst := some card.inst }]).all fun ap =>
          ap.inst ≠ some e.inst) = [] := by
      refine List.filter_eq_nil_iff.mpr fun e hmem => ?_
      rw [List.all_append, inst_of_mem_registers _ card e hmem]
      simp
    rw [hown, List.append_nil, Host.directWithout]
    refine List.filter_congr fun e _ => ?_
    rw [List.all_append, List.all_cons, List.all_nil, Bool.and_true, Bool.and_comm]
    congr 1
    simp [eq_comm]
  · rw [table_peripheralUnregister, hio, he.table]
    unfold Registered.entry
    by_cases hc0 : inC0 slot i = true
    · rw [if_pos hc0, if_pos hc0]
    · rw [if_neg hc0, if_neg hc0, if_neg hc0]
      split_ifs <;> rfl
  · rw [hgone]
    dsimp only
    rw [hroms, IoMemory.expansionRom_registerIoHandler, hio, he.roms, Registered.roms]
    split_ifs with hzero
    · cases r.ap <;> rfl
    · cases r.ap with
      | none => rfl
      | some ap =>
        dsimp only
        rw [Function.update_idem]
  · rw [hgone]
    dsimp only
    rw [hmemory, IoMemory.memory_registerIoHandler, hio, he.memory, Registered.memory]
    split_ifs with hzero
    · cases r.cxRom <;> rfl
    · cases r.cxRom with
      | none => rfl
      | some rom =>
        dsimp only
        rw [storeCxPage_storeCxPage]
  · rw [hgone]
    exact hselect.trans (hsel.1.trans (by rw [hio]; exact he.ioSelect))
  · rw [hgone]
    exact hinternal.trans (hsel.2.trans (by rw [hio]; exact he.internal))

end Removed

/-! ## A card whose `init` fails -/

namespace Registered

/-- Whether a claim holds an entry in the end. -/
def holds (slot : Slot) (r : Registered I H) (write : Bool) (i : Nat) : Bool :=
  (if inC0 slot i then r.late else r.direct).any (·.claims i write)

/-- The entry of a table that the functions a card has entered leave. -/
def entered (slot : Slot) (r : Registered I H) (write : Bool) (i : Nat)
    (e : Option IoFunction) : Option IoFunction :=
  match r.ap with
  | none => e
  | some ap =>
    if inC0 slot i then bridge .slotC0 (ap.c0 write)
    else if slot ≠ 0 ∧ i = 0x100 + slot.val then bridge .slotCx (ap.cx write) <|> some .cxxx
    else e

/-- An entry is a claim's or the functions'. -/
theorem entry_eq (slot : Slot) (r : Registered I H) (write : Bool) (i : Nat)
    (e : Option IoFunction) : r.entry slot write i e
      = if r.holds slot write i then some .directIo else r.entered slot write i e := by
  unfold entry holds entered
  by_cases hc0 : inC0 slot i = true
  · cases r.ap <;> simp only [if_pos hc0]
  simp only [if_neg hc0]
  by_cases hcx : slot ≠ 0 ∧ i = 0x100 + slot.val
  · have hno : ¬r.direct.any (·.claims i write) = true := fun h => by
      have := any_claims_lt h
      omega
    cases r.ap <;> simp only [if_pos hcx, if_neg hno]
  · cases r.ap <;> simp only [if_neg hcx]

/-- The bridge of claims is not one of a card's functions. -/
theorem entered_eq_directIo {slot : Slot} {r : Registered I H} {write : Bool} {i : Nat}
    {e : Option IoFunction} (h : r.entered slot write i e = some .directIo) :
    e = some .directIo ∧ (r.ap = none ∨ inC0 slot i = false) := by
  unfold entered at h
  cases hap : r.ap with
  | none =>
    rw [hap] at h
    exact ⟨h, .inl rfl⟩
  | some ap =>
    rw [hap] at h
    dsimp only at h
    split_ifs at h with hc0 hcx
    · exact IoFunction.noConfusion (bridge_eq_some h)
    · rcases bridge_or_cxxx h with h | h <;> exact IoFunction.noConfusion h
    · exact ⟨h, .inr (Bool.eq_false_iff.mpr hc0)⟩

end Registered

/-- **The host `h'` is `h` after a card's `init` failed**: all it has
registered is left. -/
structure Failed (card : Card I H) (slot : Slot) (h h' : Host I H) : Prop where
  /-- The card is not in the slot. -/
  active : h'.active = h.active
  /-- Its claims are in the list. -/
  direct : h'.direct = h.direct ++ (card.registers h.direct.length).direct
  /-- The tables. -/
  table : ∀ write i, h'.io.table write i
    = (card.registers h.direct.length).entry slot write i (h.io.table write i)
  /-- The expansion ROMs. -/
  roms : h'.io.expansionRom = (card.registers h.direct.length).roms slot h.io.expansionRom
  /-- The memory. -/
  memory : h'.io.memory = (card.registers h.direct.length).memory slot h.io.memory
  /-- What is selected. -/
  ioSelect : h'.io.ioSelect = h.io.ioSelect
  /-- Whether the internal ROM is selected. -/
  internal : h'.io.ioSelectInternalRom = h.io.ioSelectInternalRom

/-- **A card whose `init` fails.** -/
theorem failed_peripheralRegister {card : Card I H} {slot : Slot} {h : Host I H}
    (hok : ¬card.ok = true) (haccepts : h.accepts card slot = true) :
    Failed card slot h (h.peripheralRegister card slot) := by
  have he := entered_initCard h card slot
  have hregister : h.peripheralRegister card slot
      = { h.initCard card slot with
          active := Function.update (h.initCard card slot).active slot
            ((h.initCard card slot).active slot).dropLast } := by
    unfold Host.peripheralRegister
    rw [if_pos haccepts]
    dsimp only
    rw [if_neg hok]
  rw [hregister]
  refine ⟨?_, he.direct, he.table, he.roms, he.memory, he.ioSelect, he.internal⟩
  dsimp only
  rw [he.active, Function.update_self, List.dropLast_concat, Function.update_idem,
    Function.update_eq_self]

/-! ## Routes -/

section Routes

variable {ty : Apple2Type} {h h' : Host I H} {slot : Slot} {a : UInt16} {write : Bool}

/-- The bridges of the other slots look where they looked before, whatever
has become of a slot. -/
theorem resolve_congr (hp : h.Proper) (ha : isIoRegion a = true)
    (hc0 : ¬inC0 slot (tableIndex a) = true)
    (hcx : ¬(slot ≠ 0 ∧ tableIndex a = 0x100 + slot.val))
    (hdirect : h.io.table write (tableIndex a) = some .directIo →
      directRoute h'.direct a write = directRoute h.direct a write)
    (hactive : ∀ slot', slot' ≠ slot → h'.active slot' = h.active slot') :
    h'.resolve ty a write (h.io.table write (tableIndex a)) = h.route ty a write := by
  have hindex := Host.tableIndex_eq a ha
  have hpage := isIoPage_iff.mp ha
  rw [pageOf_val] at hpage
  rw [inC0_iff] at hc0
  unfold Host.route
  cases hentry : h.io.table write (tableIndex a) with
  | none => rfl
  | some f =>
    cases f with
    | ioNull => rfl
    | c0xx => rfl
    | cxxx => rfl
    | setPaging => rfl
    | slotC0 =>
      -- an address of another slot
      have hrange := hp.slotC0 write _ hentry
      have hother : Fin.ofNat 8 (a.toNat / 0x10) ≠ slot := fun h => by
        have hval := congrArg Fin.val h
        rw [Fin.val_ofNat] at hval
        omega
      show slotRoute (h'.active _) (·.c0 write) = slotRoute (h.active _) (·.c0 write)
      rw [hactive _ hother]
    | slotCx =>
      have hrange := hp.slotCx write _ hentry
      have hother : Fin.ofNat 8 (a.toNat / 0x100) ≠ slot := fun h => by
        have hval := congrArg Fin.val h
        rw [Fin.val_ofNat] at hval
        refine hcx ⟨fun hzero => ?_, by omega⟩
        rw [hzero, Fin.val_zero] at hval
        omega
      show slotRoute (h'.active _) (·.cx write) = slotRoute (h.active _) (·.cx write)
      rw [hactive _ hother]
    | directIo => exact hdirect hentry

variable [DecidableEq I] {card : Card I H}

/-- **What answers an access after a card was taken out.** -/
theorem Removed.route_eq (hr : Removed card slot h h') (hp : h.Proper)
    (ha : isIoRegion a = true) : h'.route ty a write
      = if inC0 slot (tableIndex a) then .null
        else if slot ≠ 0 ∧ tableIndex a = 0x100 + slot.val then if write then .null else .rom
        else if (card.registers h.direct.length).direct.any (·.claims (tableIndex a) write)
            ∨ h.io.table write (tableIndex a) = some .directIo then
          directRoute (h.directWithout slot card.inst) a write
        else h.route ty a write := by
  unfold Host.route
  rw [hr.table]
  by_cases hc0 : inC0 slot (tableIndex a) = true
  · rw [if_pos hc0, if_pos hc0]
    rfl
  rw [if_neg hc0, if_neg hc0]
  by_cases hcx : slot ≠ 0 ∧ tableIndex a = 0x100 + slot.val
  · rw [if_pos hcx, if_pos hcx]
    rfl
  rw [if_neg hcx, if_neg hcx]
  by_cases hclaims : (card.registers h.direct.length).direct.any (·.claims (tableIndex a) write)
      = true
  · rw [if_pos hclaims, if_pos (.inl hclaims), ← hr.direct]
    rfl
  rw [if_neg hclaims]
  by_cases hentry : h.io.table write (tableIndex a) = some .directIo
  · rw [if_pos (.inr hentry), hentry, ← hr.direct]
    rfl
  rw [if_neg (not_or.mpr ⟨hclaims, hentry⟩)]
  refine resolve_congr hp ha hc0 hcx (fun h => absurd h hentry) fun slot' hne => ?_
  rw [hr.active, Function.update_of_ne hne]

omit [DecidableEq I] in
/-- **What answers an access after a card's `init` failed.** -/
theorem Failed.route_eq (hf : Failed card slot h h') (hp : h.Proper)
    (ha : isIoRegion a = true) : h'.route ty a write
      = if (card.registers h.direct.length).holds slot write (tableIndex a) then
          directRoute (h.direct ++ (card.registers h.direct.length).direct) a write
        else h.resolve ty a write ((card.registers h.direct.length).entered slot write
          (tableIndex a) (h.io.table write (tableIndex a))) := by
  have hlate := late_registers h.direct.length card
  unfold Host.route
  rw [hf.table, Registered.entry_eq]
  set r := card.registers h.direct.length
  split_ifs with hholds
  · rw [← hf.direct]
    rfl
  have hslot : ∀ slot, h'.active slot = h.active slot := fun slot => congrFun hf.active slot
  cases hentry : r.entered slot write (tableIndex a) (h.io.table write (tableIndex a)) with
  | none => rfl
  | some f =>
    cases f with
    | ioNull | c0xx | cxxx | setPaging => rfl
    | slotC0 => exact congrArg (slotRoute · fun ap => ap.c0 write) (hslot _)
    | slotCx => exact congrArg (slotRoute · fun ap => ap.cx write) (hslot _)
    | directIo =>
      -- the bridge was there before, and no claim of the card is of this address
      obtain ⟨hbefore, hout⟩ := Registered.entered_eq_directIo hentry
      have hi := hp.directIo write _ hbefore
      have hno : r.direct.any (·.claims (tableIndex a) write) = false := by
        have hfalse := Bool.eq_false_iff.mpr hholds
        unfold Registered.holds at hfalse
        rcases hout with hap | hc0
        · rw [hlate hap, ite_self] at hfalse
          exact hfalse
        · rw [if_neg (Bool.eq_false_iff.mp hc0)] at hfalse
          exact hfalse
      show directRoute h'.direct a write = directRoute h.direct a write
      rw [hf.direct]
      exact directRoute_append ha hi hno

end Routes

/-! ## What taking a card out always does -/

section Always

variable {ty : Apple2Type} {h h' : Host I H} {slot : Slot} {a : UInt16} {write : Bool}

/-- What a claim answers reaches the card whose claim it is. -/
theorem reaches_directRoute {direct : List (DirectIoHandler I H)} {i : I}
    (h : (directRoute direct a write).Reaches i) : ∃ e ∈ direct, e.inst = i := by
  rcases Host.directRoute_cases direct a write with ⟨e, he, -, ⟨f, hr⟩ | ⟨f, hr⟩⟩ | hr <;>
    rw [hr] at h
  · exact ⟨e, he, h⟩
  · exact ⟨e, he, Option.some.inj h⟩
  · exact h.elim

/-- A card of a slot is reached by the slot's bridges. -/
theorem reaches_slotRoute {aps : List (ActivePeripheral I H)}
    {handler : ActivePeripheral I H → Option H} {i : I}
    (h : (slotRoute aps handler).Reaches i) : ∃ ap ∈ aps, ap.inst = some i := by
  unfold slotRoute at h
  cases hfound : aps.findSome? fun ap => (handler ap).map (Route.card ap.inst) with
  | none =>
    rw [hfound] at h
    exact h.elim
  | some r =>
    obtain ⟨ap, hap, hr⟩ := List.exists_of_findSome?_eq_some hfound
    obtain ⟨f, -, rfl⟩ := Option.map_eq_some_iff.mp hr
    rw [hfound] at h
    exact ⟨ap, hap, h⟩

/-- What an access reaches is a card in a slot, or has a claim. -/
theorem Host.reaches_route {i : I} (hreach : (h.route ty a write).Reaches i) :
    (∃ slot, ∃ ap ∈ h.active slot, ap.inst = some i) ∨ ∃ e ∈ h.direct, e.inst = i := by
  unfold Host.route at hreach
  cases hentry : h.io.table write (tableIndex a) with
  | none =>
    rw [hentry] at hreach
    exact hreach.elim
  | some f =>
    rw [hentry] at hreach
    cases f with
    | ioNull | setPaging => exact hreach.elim
    | c0xx =>
      unfold Host.resolve at hreach
      split_ifs at hreach <;> exact hreach.elim
    | cxxx =>
      unfold Host.resolve at hreach
      split_ifs at hreach <;> exact hreach.elim
    | slotC0 => exact .inl ⟨_, reaches_slotRoute hreach⟩
    | slotCx => exact .inl ⟨_, reaches_slotRoute hreach⟩
    | directIo => exact .inr (reaches_directRoute hreach)

/-- What is found first is found first among what is kept, if it is kept. -/
theorem findSome?_filter_eq_some {α β : Type} {f : α → Option β} {p : α → Bool} {l : List α}
    {b : β} (hb : l.findSome? f = some b) (hp : ∀ x, f x = some b → p x = true) :
    (l.filter p).findSome? f = some b := by
  induction l with
  | nil => exact absurd hb (Option.some_ne_none b).symm
  | cons x l ih =>
    rw [List.findSome?_cons] at hb
    cases hx : f x with
    | some c =>
      rw [hx] at hb
      obtain rfl : c = b := Option.some.inj hb
      rw [List.filter_cons_of_pos (hp x hx), List.findSome?_cons, hx]
    | none =>
      rw [hx] at hb
      by_cases hpx : p x = true
      · rw [List.filter_cons_of_pos hpx, List.findSome?_cons, hx]
        exact ih hb
      · rw [List.filter_cons_of_neg hpx]
        exact ih hb

variable [DecidableEq I] {card : Card I H}

/-- **A card that was taken out is reached by no access**, unless it is in
another slot as well. -/
theorem Removed.not_reaches (hr : Removed card slot h h')
    (hinst : ∀ slot', slot' ≠ slot → ∀ ap ∈ h.active slot', ap.inst ≠ some card.inst) :
    ¬(h'.route ty a write).Reaches card.inst := by
  intro hreach
  rcases Host.reaches_route hreach with ⟨slot', ap, hap, hi⟩ | ⟨e, he, hi⟩
  · rw [hr.active] at hap
    by_cases hslot : slot' = slot
    · rw [hslot, Function.update_self] at hap
      exact absurd hap List.not_mem_nil
    · rw [Function.update_of_ne hslot] at hap
      exact hinst slot' hslot ap hap hi
  · rw [hr.direct, Host.directWithout, List.mem_filter, Bool.and_eq_true, decide_eq_true_eq] at he
    exact he.2.1 hi

/-- **A claim of a card that stays reaches it still**, outside the slot's own
addresses. -/
theorem Removed.route_eq_of_stays (hr : Removed card slot h h') (hp : h.Proper)
    (ha : isIoRegion a = true) (hc0 : inC0 slot (tableIndex a) = false)
    (hentry : h.io.table write (tableIndex a) = some .directIo) {i : I}
    (hreach : (h.route ty a write).Reaches i) (hi : i ≠ card.inst)
    (hstays : ∀ ap ∈ h.active slot, ap.inst ≠ some i) :
    h'.route ty a write = h.route ty a write := by
  have hcx : ¬(slot ≠ 0 ∧ tableIndex a = 0x100 + slot.val) := fun h => by
    have := hp.directIo write _ hentry
    omega
  -- the entries of an instance that stays are none of those the removal filters out
  have hkeep : ∀ e : DirectIoHandler I H, e.inst = i →
      (e.inst ≠ card.inst && (h.active slot).all fun ap => ap.inst ≠ some e.inst) = true := by
    rintro e rfl
    rw [Bool.and_eq_true, decide_eq_true_eq, List.all_eq_true]
    exact ⟨hi, fun ap hap => decide_eq_true (hstays ap hap)⟩
  rw [hr.route_eq hp ha, if_neg (Bool.eq_false_iff.mp hc0), if_neg hcx, if_pos (.inr hentry)]
  have hroute : h.route ty a write = directRoute h.direct a write := by
    unfold Host.route
    rw [hentry]
    rfl
  rw [hroute] at hreach ⊢
  unfold directRoute Host.directWithout at *
  -- strobes are asked before answers, so the first entry that strobes decides if there is one
  cases hs : h.direct.findSome? (·.strobes a) with
  | some r =>
    rw [hs] at hreach
    rw [findSome?_filter_eq_some hs fun e he => ?_]
    · rfl
    unfold DirectIoHandler.strobes at he
    split_ifs at he
    obtain ⟨f, -, rfl⟩ := Option.map_eq_some_iff.mp he
    exact hkeep e hreach
  | none =>
    have hnone : (h.direct.filter fun e => e.inst ≠ card.inst
        && (h.active slot).all fun ap => ap.inst ≠ some e.inst).findSome? (·.strobes a) = none :=
      List.findSome?_eq_none_iff.mpr fun e he =>
        List.findSome?_eq_none_iff.mp hs e (List.mem_of_mem_filter he)
    rw [hnone]
    rw [hs] at hreach
    cases hf : h.direct.findSome? (·.answers a write) with
    | none =>
      rw [hf] at hreach
      exact hreach.elim
    | some r =>
      rw [hf] at hreach
      rw [findSome?_filter_eq_some hf fun e he => ?_]
      unfold DirectIoHandler.answers at he
      split_ifs at he
      obtain ⟨f, -, rfl⟩ := Option.map_eq_some_iff.mp he
      exact hkeep e (Option.some.inj hreach)

end Always

/-! ## When nothing has changed -/

/-- **A card that is taken out leaves nothing behind**, in a slot of the host
it was registered with. -/
structure RemovalRestores [DecidableEq I] (ty : Apple2Type) (card : Card I H) (slot : Slot)
    (h : Host I H) : Prop where
  /-- Where the card claims an address outside its slot's own, or the bridge
  of claims was entered already, an access was answered by the claims of the
  cards that stay. -/
  claims : ∀ a write, isIoRegion a = true → inC0 slot (tableIndex a) = false →
    ((card.registers h.direct.length).direct.any (·.claims (tableIndex a) write) = true
      ∨ h.io.table write (tableIndex a) = some .directIo) →
    h.route ty a write = directRoute (h.directWithout slot card.inst) a write
  /-- The slot's own addresses were answered by nobody. -/
  deviceSelect : ∀ a write, isIoRegion a = true → inC0 slot (tableIndex a) = true →
    h.route ty a write = .null
  /-- The slot's page was answered by the ROM. -/
  page : slot ≠ 0 → ∀ a write, isIoRegion a = true → tableIndex a = 0x100 + slot.val →
    h.route ty a write = if write then .null else .rom
  /-- The slot had no expansion ROM. -/
  rom : slot ≠ 0 → h.io.expansionRom slot = none
  /-- The slot's page of card ROM was zero, and so was its image. -/
  store : slot ≠ 0 → h.io.memory.stores (cxPeripheralPtr (slotPage slot)) = (fun _ => 0)
    ∧ (h.io.memory.memshadow (slotPage slot) = cxPeripheralPtr (slotPage slot) →
      h.io.memory.mem (slotPage slot) = fun _ => 0)
  /-- The card's instance is a new one. -/
  fresh : ∀ a write, isIoRegion a = true → ¬(h.route ty a write).Reaches card.inst

/-- **A card whose `init` fails leaves nothing behind**, in a slot of the host
it was to be registered with. -/
structure FailedInitRestores (ty : Apple2Type) (card : Card I H) (slot : Slot)
    (h : Host I H) : Prop where
  /-- Where a claim of the card holds an entry, an access was answered by the
  claims there were and the card's own. -/
  claims : ∀ a write, isIoRegion a = true →
    (card.registers h.direct.length).holds slot write (tableIndex a) = true →
    h.route ty a write
      = directRoute (h.direct ++ (card.registers h.direct.length).direct) a write
  /-- If the card entered functions, the rest of the slot's own addresses was
  answered by what the cards in the slot have for them. -/
  deviceSelect : ∀ ap, (card.registers h.direct.length).ap = some ap →
    ∀ a write, isIoRegion a = true → inC0 slot (tableIndex a) = true →
    (card.registers h.direct.length).holds slot write (tableIndex a) = false →
    h.route ty a write = h.resolve ty a write (bridge .slotC0 (ap.c0 write))
  /-- And so was the slot's page, or by the ROM. -/
  page : slot ≠ 0 → ∀ ap, (card.registers h.direct.length).ap = some ap →
    ∀ a write, isIoRegion a = true → tableIndex a = 0x100 + slot.val →
    h.route ty a write = h.resolve ty a write (bridge .slotCx (ap.cx write) <|> some .cxxx)
  /-- And the slot had the expansion ROM the card entered, or has none. -/
  rom : slot ≠ 0 → ∀ ap, (card.registers h.direct.length).ap = some ap →
    h.io.expansionRom slot = ap.expansionRom
  /-- If the card stored a page of card ROM, it was there already. -/
  store : slot ≠ 0 → ∀ rom, (card.registers h.direct.length).cxRom = some rom →
    h.io.memory.stores (cxPeripheralPtr (slotPage slot)) = rom
      ∧ (h.io.memory.memshadow (slotPage slot) = cxPeripheralPtr (slotPage slot) →
        h.io.memory.mem (slotPage slot) = rom)
  /-- The card's instance is a new one. -/
  fresh : ∀ a write, isIoRegion a = true → ¬(h.route ty a write).Reaches card.inst

/-- Storing a page changes nothing where it was there already. -/
theorem storeCxPage_eq_self_iff {slot : Slot} {rom : PageData} {m : MemoryInstance} :
    storeCxPage slot rom m = m ↔ m.stores (cxPeripheralPtr (slotPage slot)) = rom
      ∧ (m.memshadow (slotPage slot) = cxPeripheralPtr (slotPage slot) →
        m.mem (slotPage slot) = rom) := by
  constructor
  · intro h
    have hstores := congrFun (congrArg MemoryInstance.stores h) (cxPeripheralPtr (slotPage slot))
    have hmem := congrFun (congrArg MemoryInstance.mem h) (slotPage slot)
    unfold storeCxPage at hstores hmem
    dsimp only at hstores hmem
    rw [Function.update_self] at hstores
    refine ⟨hstores.symm, fun hshadow => ?_⟩
    rw [if_pos hshadow, Function.update_self] at hmem
    exact hmem.symm
  · rintro ⟨hstores, hmem⟩
    unfold storeCxPage
    rw [← hstores, Function.update_eq_self]
    split_ifs with hshadow
    · rw [hstores, ← hmem hshadow, Function.update_eq_self]
    · rfl

section Restores

variable [DecidableEq I] {ty : Apple2Type} {card : Card I H} {slot : Slot} {h h' : Host I H}

/-- **When taking a card out undoes its registration.** -/
theorem Removed.undone_iff (hr : Removed card slot h h') (hp : h.Proper) :
    Undone ty card.inst h h' ↔ RemovalRestores ty card slot h := by
  rw [LinApple.Slots.undone_iff]
  -- a clause for each place the removal writes: what it writes there had stood there before
  constructor
  · rintro ⟨hsame, hfresh⟩
    have hroute : ∀ a write, isIoRegion a = true → _ := fun a write ha =>
      (hsame.route a write ha).symm.trans (@Removed.route_eq _ _ ty _ _ _ a write _ _ hr hp ha)
    refine ⟨fun a write ha hc0 hclaims => ?_, fun a write ha hc0 => ?_,
      fun hslot a write ha hcx => ?_, fun hslot => ?_, fun hslot => ?_, hfresh⟩
    · have hcx : ¬(slot ≠ 0 ∧ tableIndex a = 0x100 + slot.val) := fun h => by
        rcases hclaims with hclaims | hentry
        · have := any_claims_lt hclaims
          omega
        · have := hp.directIo write _ hentry
          omega
      rw [hroute a write ha, if_neg (Bool.eq_false_iff.mp hc0), if_neg hcx, if_pos hclaims]
    · rw [hroute a write ha, if_pos hc0]
    · have hc0 : ¬inC0 slot (tableIndex a) = true := fun h => by
        have := (inC0_iff _ _).mp h
        omega
      rw [hroute a write ha, if_neg hc0, if_pos ⟨hslot, hcx⟩]
    · have hroms := hr.roms.symm.trans hsame.roms
      rw [if_neg hslot] at hroms
      have := congrFun hroms slot
      rw [Function.update_self] at this
      exact this.symm
    · have hmemory := hr.memory.symm.trans hsame.memory
      rw [if_neg hslot] at hmemory
      exact storeCxPage_eq_self_iff.mp hmemory
  · intro hres
    refine ⟨⟨fun a write ha => ?_, ?_, ?_, hr.ioSelect, hr.internal⟩, hres.fresh⟩
    · rw [hr.route_eq hp ha]
      split_ifs with hc0 hcx hwrite hclaims
      · exact (hres.deviceSelect a write ha hc0).symm
      · rw [hres.page hcx.1 a write ha hcx.2, if_pos hwrite]
      · rw [hres.page hcx.1 a write ha hcx.2, if_neg hwrite]
      · exact (hres.claims a write ha (Bool.eq_false_iff.mpr hc0) hclaims).symm
      · rfl
    · rw [hr.roms]
      split_ifs with hzero
      · rfl
      · rw [← hres.rom hzero, Function.update_eq_self]
    · rw [hr.memory]
      split_ifs with hzero
      · rfl
      · exact storeCxPage_eq_self_iff.mpr (hres.store hzero)

omit [DecidableEq I] in
/-- **When a card whose `init` fails leaves nothing behind.** -/
theorem Failed.undone_iff (hf : Failed card slot h h') (hp : h.Proper) :
    Undone ty card.inst h h' ↔ FailedInitRestores ty card slot h := by
  rw [LinApple.Slots.undone_iff]
  have hroms := hf.roms
  have hmemory := hf.memory
  have hroute : ∀ a write, isIoRegion a = true → _ := fun a write ha =>
    @Failed.route_eq _ _ ty _ _ _ a write _ hf hp ha
  have hpage : ∀ i, slot ≠ 0 ∧ i = 0x100 + slot.val → ¬inC0 slot i = true := fun i hcx hc0 => by
    have := (inC0_iff _ _).mp hc0
    omega
  set r := card.registers h.direct.length
  unfold Registered.roms at hroms
  unfold Registered.memory at hmemory
  -- as for a removal: a clause for each place that the failed init wrote
  constructor
  · rintro ⟨hsame, hfresh⟩
    refine ⟨fun a write ha hholds => ?_, fun ap hap a write ha hc0 hholds => ?_,
      fun hslot ap hap a write ha hcx => ?_, fun hslot ap hap => ?_,
      fun hslot rom hrom => ?_, hfresh⟩
    · rw [← hsame.route a write ha, hroute a write ha, if_pos hholds]
    · rw [← hsame.route a write ha, hroute a write ha, if_neg (Bool.eq_false_iff.mp hholds),
        Registered.entered, hap]
      dsimp only
      rw [if_pos hc0]
    · have hno : ¬r.holds slot write (tableIndex a) = true := fun h => by
        unfold Registered.holds at h
        have := any_claims_lt h
        omega
      rw [← hsame.route a write ha, hroute a write ha, if_neg hno, Registered.entered, hap]
      dsimp only
      rw [if_neg (hpage _ ⟨hslot, hcx⟩), if_pos ⟨hslot, hcx⟩]
    · rw [hsame.roms, hap] at hroms
      dsimp only at hroms
      rw [if_neg hslot] at hroms
      exact (congrFun hroms slot).trans (Function.update_self _ _ _)
    · rw [hsame.memory, hrom] at hmemory
      dsimp only at hmemory
      rw [if_neg hslot] at hmemory
      exact storeCxPage_eq_self_iff.mp hmemory.symm
  · intro hres
    refine ⟨⟨fun a write ha => ?_, ?_, ?_, hf.ioSelect, hf.internal⟩, hres.fresh⟩
    · rw [hroute a write ha]
      split_ifs with hholds
      · exact (hres.claims a write ha hholds).symm
      unfold Registered.entered
      cases hap : r.ap with
      | none => rfl
      | some ap =>
        dsimp only
        split_ifs with hc0 hcx
        · exact (hres.deviceSelect ap hap a write ha hc0 (Bool.eq_false_iff.mpr hholds)).symm
        · exact (hres.page hcx.1 ap hap a write ha hcx.2).symm
        · rfl
    · rw [hroms]
      cases hap : r.ap with
      | none => rfl
      | some ap =>
        dsimp only
        split_ifs with hzero
        · rfl
        · rw [← hres.rom hzero ap hap, Function.update_eq_self]
    · rw [hmemory]
      cases hrom : r.cxRom with
      | none => rfl
      | some rom =>
        dsimp only
        split_ifs with hzero
        · rfl
        · exact storeCxPage_eq_self_iff.mpr (hres.store hzero rom hrom)

end Restores

/-! ## In every host there is -/

section Runs

variable [DecidableEq I]

/-- **Taking a card out, or the failure of its `init`, undoes its registration** in just the hosts
the two conditions describe. The host is one that any run leads to, and the card any that the slot
accepts then; a card the host does not take is not registered, and leaves nothing to undo. -/
theorem undone_run (ty : Apple2Type) (pattern : MemoryInitPattern) (io : IoMemory)
    (ops : List (HostOp I H)) (card : Card I H) (slot : Slot)
    (haccepts : ((hostMachine I H).run (.initial pattern io) ops).accepts card slot = true) :
    let h := (hostMachine I H).run (.initial pattern io) ops
    (card.ok = true →
      (Undone ty card.inst h ((h.peripheralRegister card slot).peripheralUnregister slot)
        ↔ RemovalRestores ty card slot h))
    ∧ (card.ok = false →
      (Undone ty card.inst h (h.peripheralRegister card slot)
        ↔ FailedInitRestores ty card slot h)) :=
  have hp := proper_run pattern io ops
  ⟨fun hok => (removed_peripheralUnregister hok haccepts).undone_iff hp,
    fun hok => (failed_peripheralRegister (Bool.eq_false_iff.mp hok) haccepts).undone_iff hp⟩

end Runs

/-- A host without cards. -/
def bare : Host Nat Nat := .initial .zero .blank

/-- What answers an access where there are no cards. -/
theorem route_bare (ty : Apple2Type) (a : UInt16) (write : Bool) : bare.route ty a write
    = if inC0 0 (tableIndex a) then .paging
      else if tableIndex a < 0x80 then if answersNull ty a write then .null else .default
      else if tableIndex a < 0x100 then .null
      else if write then .null else .rom := by
  unfold Host.route bare Host.initial
  dsimp only
  rw [table_memInitialize]
  by_cases h0 : inC0 0 (tableIndex a) = true
  · rw [if_pos h0, if_pos h0]
    rfl
  rw [if_neg h0, if_neg h0]
  by_cases h1 : tableIndex a < 0x80
  · rw [if_pos h1, if_pos h1]
    rfl
  rw [if_neg h1, if_neg h1]
  by_cases h2 : tableIndex a < 0x100
  · rw [if_pos h2, if_pos h2]
    rfl
  rw [if_neg h2, if_neg h2]
  rfl

/-- A card that enters functions for its sixteen addresses and for its page,
an expansion ROM and a page of card ROM, and is taken out. -/
def slotCard : Card Nat Nat where
  compatible := fun _ => true
  inst := 1
  calls := [.registerIo (some 1) (some 2) (some 3) (some 4),
    .registerExpansionRom (some fun _ _ => 1), .registerCxRom fun _ => 1]
  ok := true

/-- The conditions hold of such a card in a host without cards. -/
theorem undone_run_slotCard :
    Undone .apple2e 1 bare ((bare.peripheralRegister slotCard 1).peripheralUnregister 1) := by
  have hno : ∀ i, 0x90 ≤ i → ¬inC0 0 i = true := fun i hi h0 => by
    have h0 := (inC0_iff 0 i).mp h0
    simp only [Fin.val_zero] at h0
    omega
  refine ((undone_run .apple2e .zero .blank [] slotCard 1 rfl).1 rfl).mpr ⟨?_, ?_, ?_, ?_, ?_, ?_⟩
  · rintro a write - - (hclaims | hentry)
    · exact absurd hclaims Bool.false_ne_true
    · have h := (table_memInitialize .zero .blank write (tableIndex a)).symm.trans hentry
      split_ifs at h <;> exact IoFunction.noConfusion (Option.some.inj h)
  · intro a write _ hc0
    have hi : 0x90 ≤ tableIndex a ∧ tableIndex a < 0xA0 := (inC0_iff 1 _).mp hc0
    refine (route_bare _ _ _).trans ?_
    rw [if_neg (hno _ hi.1), @if_neg (tableIndex a < 0x80) _ (by omega), if_pos (by omega)]
  · intro _ a write _ hcx
    have hi : tableIndex a = 0x101 := hcx
    refine (route_bare _ _ _).trans ?_
    rw [if_neg (hno _ (by omega)), @if_neg (tableIndex a < 0x80) _ (by omega), if_neg (by omega)]
  · exact fun _ => rfl
  · intro _
    have hstores : bare.io.memory.stores (cxPeripheralPtr (slotPage 1)) = fun _ => 0 := by
      unfold bare Host.initial IoMemory.memInitialize
      dsimp only
      rw [memReset_eq]
      rfl
    have hmem : ∀ p, bare.io.memory.mem p
        = bare.io.memory.stores (bare.io.memory.memshadow p) := by
      unfold bare Host.initial IoMemory.memInitialize
      dsimp only
      rw [memReset_eq]
      exact fun _ => rfl
    refine ⟨hstores, fun hshadow => ?_⟩
    change bare.io.memory.memshadow (slotPage 1) = _ at hshadow
    show bare.io.memory.mem (slotPage 1) = fun _ => 0
    rw [hmem, hshadow, hstores]
  · intro a write _
    show ¬(bare.route .apple2e a write).Reaches 1
    rw [route_bare]
    split_ifs <;> exact id

/-- A card that claims the reading of `$C000`. -/
def keyboardCard (ok : Bool) : Card Nat Nat where
  compatible := fun _ => true
  inst := 1
  calls := [.registerDirectIo 0xC000 (some 1) none]
  ok := ok

/-- **A claim of `$C000` is not undone.** After the card was taken out, nobody
answers the keyboard's address; and after its `init` has failed, the card
answers it. -/
theorem not_undone_run :
    ¬Undone .apple2e 1 bare
        ((bare.peripheralRegister (keyboardCard true) 1).peripheralUnregister 1)
      ∧ ¬Undone .apple2e 1 bare (bare.peripheralRegister (keyboardCard false) 1) := by
  constructor
  · intro h
    have hroute : (Route.null : Route Nat Nat) = .default := h.same.route 0xC000 false (by decide)
    exact nomatch hroute
  · intro h
    exact h.removed 0xC000 false (by decide) rfl

end LinApple.Slots
