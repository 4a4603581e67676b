import LinApple.Debugger.Breakpoints
import LinApple.Lib.Machine

/-!
# Counts of breakpoints and watches

The count of the breakpoints is the number of the set slots after any run of commands. That of the
watches is not where a watch is put in a slot that is set. What stands between a breakpoint and
the reader that looks for it is that the reader stops at the count: a breakpoint in a slot from
the count on is seen only where one below it has its address (`BwzTable.Reported`), which is a
matter of which slots are cleared.

A table is a function of all natural numbers here, with its count beside it, so that a slot
outside the table can be looked at, and that none is ever written to is a theorem. The commands
take any arguments, as the console may hand them on: slots that do not exist, slots twice,
addresses twice, more than there is room for. The temporary breakpoints of a step are added and
cleared among them.

There are three things to agree on, and they fail in different places. The count of the
breakpoints never does: `Keeps` says what a command does to the difference between the count and
the set slots, and it is the same for each of the loops. The count of the watches fails at one
command. The reader fails after commands that have done nothing wrong by themselves; it is the
combination of a clearing, which leaves a gap, with a reader that takes the count for the end. So
the condition on a step (`Fits`) is about the slots that a clearing leaves set, and about nothing
else that a command does.

The theorem is an equivalence over runs: the tables agree in every state on the way if and only if
every step meets the condition. Clearing all and adding anew makes good what went wrong, which is
why a run is looked at state by state.
-/

namespace LinApple.Debugger

namespace BwzTable

variable {t : BwzTable} {max : Nat}

/-! ## The set slots -/

/-- The slots of a table that are set. -/
def setSlots (t : BwzTable) (max : Nat) : Finset Nat :=
  (Finset.range max).filter fun i => (t.slots i).isSet = true

@[simp] theorem mem_setSlots {i : Nat} :
    i ∈ t.setSlots max ↔ i < max ∧ (t.slots i).isSet = true := by
  simp [setSlots]

/-- **By how much the count is too great.** -/
def excess (t : BwzTable) (max : Nat) : Int := t.total - (t.setSlots max).card

theorem card_setSlots_le : (t.setSlots max).card ≤ max :=
  (Finset.card_filter_le _ _).trans_eq (Finset.card_range max)

theorem setSlots_update {i : Nat} (hi : i < max) (b : Breakpoint) (n : Int) :
    (BwzTable.mk (Function.update t.slots i b) n).setSlots max
      = if b.isSet then insert i (t.setSlots max) else (t.setSlots max).erase i := by
  ext j
  by_cases hj : j = i
  · subst hj
    cases hb : b.isSet <;> simp [hb, hi]
  · cases b.isSet <;> simp [hj]

/-- A free slot that is set, and counted. -/
theorem excess_set {i : Nat} (hi : i < max) {b : Breakpoint} (hb : b.isSet = true) :
    (BwzTable.mk (Function.update t.slots i b) (t.total + 1)).excess max
      = t.excess max + if (t.slots i).isSet then 1 else 0 := by
  unfold excess
  rw [setSlots_update hi, if_pos hb]
  by_cases hset : (t.slots i).isSet = true
  · rw [Finset.insert_eq_of_mem (mem_setSlots.2 ⟨hi, hset⟩), if_pos hset]
    dsimp only
    omega
  · rw [Finset.card_insert_of_notMem (fun h => hset (mem_setSlots.1 h).2), if_neg hset]
    push_cast
    omega

/-- A set slot that is cleared, and counted. -/
theorem excess_clear {i : Nat} (hi : i < max) (hset : (t.slots i).isSet = true) :
    (BwzTable.mk (bwzClear t.slots i) (t.total - 1)).excess max = t.excess max := by
  have hmem : i ∈ t.setSlots max := mem_setSlots.2 ⟨hi, hset⟩
  have hpos := Finset.card_pos.2 ⟨i, hmem⟩
  unfold excess bwzClear
  rw [setSlots_update hi, if_neg (by decide), Finset.card_erase_of_mem hmem]
  dsimp only
  omega

/-! ## Clearing -/

/-- **Slots are cleared that have a property**, and counted: what `bwz_ClearViaArgs` and
`ClearTempBreakpoints` have in common. -/
def clearWhere (t : BwzTable) (p : Breakpoint → Bool) (slots : List Nat) : BwzTable :=
  slots.foldl (fun t slot =>
    if p (t.slots slot) then ⟨bwzClear t.slots slot, t.total - 1⟩ else t) t

theorem bwzClearViaArgs_eq (args : List UInt16) (max : Nat) :
    t.bwzClearViaArgs args max
      = t.clearWhere (fun b => b.isSet) ((args.map UInt16.toNat).filter (· < max)) := by
  unfold bwzClearViaArgs clearWhere
  induction args generalizing t with
  | nil => rfl
  | cons arg args ih =>
    rw [List.foldl_cons, ih, List.map_cons]
    by_cases hlt : arg.toNat < max
    · rw [if_pos hlt, List.filter_cons_of_pos (by simpa using hlt), List.foldl_cons]
      rfl
    · rw [if_neg hlt, List.filter_cons_of_neg (by simpa using hlt)]

theorem clearTempBreakpoints_eq :
    t.clearTempBreakpoints
      = t.clearWhere (fun b => b.isSet && b.isTemp) (List.range maxBreakpoints) := rfl

section ClearWhere

variable {p : Breakpoint → Bool} (hset : ∀ b, p b = true → b.isSet = true)
include hset

/-- **What lies in a slot afterwards.** -/
theorem slots_clearWhere (slots : List Nat) (i : Nat) :
    (t.clearWhere p slots).slots i
      = if i ∈ slots ∧ p (t.slots i) = true then .cleared else t.slots i := by
  induction slots generalizing t with
  | nil => simp [clearWhere]
  | cons slot slots ih =>
    have hcleared : ¬ p .cleared = true := fun h => absurd (hset _ h) (by decide)
    have hcons : t.clearWhere p (slot :: slots)
        = (if p (t.slots slot) then ⟨bwzClear t.slots slot, t.total - 1⟩ else t).clearWhere p slots :=
      rfl
    rw [hcons, ih]
    by_cases hp : p (t.slots slot) = true
    · rw [if_pos hp]
      by_cases hi : i = slot
      · subst hi
        simp [bwzClear, hp, hcleared]
      · simp [bwzClear, hi]
    · rw [if_neg hp]
      by_cases hi : i = slot
      · subst hi
        simp [hp]
      · simp [hi]

theorem excess_clearWhere {slots : List Nat} (hslots : ∀ i ∈ slots, i < max) :
    (t.clearWhere p slots).excess max = t.excess max := by
  induction slots generalizing t with
  | nil => rfl
  | cons slot slots ih =>
    have hrest := fun i hi => hslots i (List.mem_cons_of_mem _ hi)
    have hlt := hslots slot (List.mem_cons_self ..)
    refine Eq.trans (ih hrest) ?_
    dsimp only
    by_cases hp : p (t.slots slot) = true
    · rw [if_pos hp]
      exact excess_clear hlt (hset _ hp)
    · rw [if_neg hp]

theorem setSlots_clearWhere (slots : List Nat) :
    (t.clearWhere p slots).setSlots max
      = (t.setSlots max).filter fun i => ¬ (i ∈ slots ∧ p (t.slots i) = true) := by
  ext i
  rw [mem_setSlots, slots_clearWhere hset, Finset.mem_filter, mem_setSlots]
  by_cases h : i ∈ slots ∧ p (t.slots i) = true
  · rw [if_pos h]
    simp [h, Breakpoint.cleared]
  · rw [if_neg h]
    simp only [h, not_false_eq_true, and_true]

end ClearWhere

theorem slots_bwzRemoveAll (i : Nat) :
    (t.bwzRemoveAll max).slots i = if i < max then .cleared else t.slots i := by
  have hfold : ∀ (l : List Nat) (slots : Nat → Breakpoint),
      l.foldl bwzClear slots i = if i ∈ l then .cleared else slots i := by
    intro l
    induction l with
    | nil => exact fun _ => rfl
    | cons slot l ih =>
      intro slots
      rw [List.foldl_cons, ih]
      by_cases hi : i = slot
      · subst hi
        simp [bwzClear]
      · simp [bwzClear, hi]
  unfold bwzRemoveAll
  dsimp only
  simp only [hfold, List.mem_range]

theorem setSlots_bwzRemoveAll : (t.bwzRemoveAll max).setSlots max = ∅ := by
  ext i
  rw [mem_setSlots, slots_bwzRemoveAll]
  by_cases h : i < max
  · simp [h, Breakpoint.cleared]
  · simp [h]

theorem excess_bwzRemoveAll : (t.bwzRemoveAll max).excess max = 0 := by
  rw [excess, setSlots_bwzRemoveAll]
  rfl

/-! ## Enabling -/

/-- Tables that differ in what is enabled. -/
structure SameSlots (t t' : BwzTable) : Prop where
  /-- The count. -/
  total : t'.total = t.total
  /-- What is set. -/
  isSet : ∀ i, (t'.slots i).isSet = (t.slots i).isSet
  /-- The addresses. -/
  address : ∀ i, (t'.slots i).address = (t.slots i).address

theorem sameSlots_bwzEnableDisableViaArgs (args : List UInt16) (max : Nat) (enabled : Bool) :
    t.SameSlots (t.bwzEnableDisableViaArgs args max enabled) := by
  unfold bwzEnableDisableViaArgs
  induction args generalizing t with
  | nil => exact ⟨rfl, fun _ => rfl, fun _ => rfl⟩
  | cons arg args ih =>
    rw [List.foldl_cons]
    by_cases hlt : arg.toNat < max
    · rw [if_pos hlt]
      have h := @ih ⟨Function.update t.slots arg.toNat
        { t.slots arg.toNat with isEnabled := enabled }, t.total⟩
      refine ⟨h.total, fun i => (h.isSet i).trans ?_, fun i => (h.address i).trans ?_⟩
      · by_cases hi : i = arg.toNat
        · subst hi
          simp
        · simp [hi]
      · by_cases hi : i = arg.toNat
        · subst hi
          simp
        · simp [hi]
    · rw [if_neg hlt]
      exact ih

theorem SameSlots.setSlots {t' : BwzTable} (h : t.SameSlots t') (max : Nat) :
    t'.setSlots max = t.setSlots max := by
  ext i
  rw [mem_setSlots, mem_setSlots, h.isSet]

theorem SameSlots.excess {t' : BwzTable} (h : t.SameSlots t') (max : Nat) :
    t'.excess max = t.excess max := by
  rw [BwzTable.excess, BwzTable.excess, h.setSlots, h.total]

theorem frame_bwzEnableDisableViaArgs (args : List UInt16) (enabled : Bool) {i : Nat}
    (hi : max ≤ i) : (t.bwzEnableDisableViaArgs args max enabled).slots i = t.slots i := by
  unfold bwzEnableDisableViaArgs
  induction args generalizing t with
  | nil => rfl
  | cons arg args ih =>
    refine ih.trans ?_
    dsimp only
    split
    · exact Function.update_of_ne (by omega) _ _
    · rfl

/-! ## The first free slot -/

theorem firstFree_spec (max : Nat) :
    t.firstFree max ≤ max ∧ (∀ i < t.firstFree max, (t.slots i).isSet = true)
      ∧ (t.firstFree max < max → (t.slots (t.firstFree max)).isSet = false) := by
  unfold firstFree
  cases hfind : (List.range max).find? fun i => !(t.slots i).isSet with
  | none =>
    have hall := List.find?_eq_none.1 hfind
    refine ⟨le_refl _, fun i hi => ?_, fun h => absurd h (Nat.lt_irrefl _)⟩
    simpa using hall i (List.mem_range.2 hi)
  | some slot =>
    obtain ⟨hfree, before, after, hrange, hbefore⟩ := List.find?_eq_some_iff_append.1 hfind
    have hmem := List.mem_range.1 (List.mem_of_find?_eq_some hfind)
    refine ⟨Nat.le_of_lt hmem, fun i hi => ?_, fun _ => by simpa using hfree⟩
    have hi' : i < slot := hi
    have hsorted := hrange ▸ (List.pairwise_lt_range (n := max))
    have hin : i ∈ before ++ slot :: after := hrange ▸ List.mem_range.2 (hi'.trans hmem)
    rcases List.mem_append.1 hin with hin | hin
    · simpa using hbefore i hin
    · rcases List.mem_cons.1 hin with rfl | hin
      · exact absurd hi' (Nat.lt_irrefl _)
      · have hlt := (List.pairwise_cons.1 (List.pairwise_append.1 hsorted).2.1).1 i hin
        omega

/-! ## What the reader of the breakpoints sees -/

/-- **Breakpoints in slots from the count on are reported**: one below has their address. -/
def Reported (slots : Nat → Breakpoint) (left : Finset Nat) : Prop :=
  ∀ i ∈ left, left.card ≤ i →
    ∃ j ∈ left, j < left.card ∧ (slots j).address = (slots i).address

theorem getBreakpointInfo_iff (offset : UInt16) :
    (t.getBreakpointInfo offset).1 = true
      ↔ ∃ i < t.total.toNat, (t.slots i).isSet = true ∧ (t.slots i).address = offset := by
  unfold getBreakpointInfo
  cases hfind : (List.range t.total.toNat).find? fun i =>
      (t.slots i).isSet && (t.slots i).address == offset with
  | none =>
    have hall := List.find?_eq_none.1 hfind
    refine iff_of_false Bool.false_ne_true fun ⟨i, hi, hset, haddress⟩ => ?_
    exact hall i (List.mem_range.2 hi) (by simp [hset, haddress])
  | some i =>
    have hi := List.mem_range.1 (List.mem_of_find?_eq_some hfind)
    have hp := List.find?_some hfind
    rw [Bool.and_eq_true, beq_iff_eq] at hp
    exact iff_of_true rfl ⟨i, hi, hp⟩

/-- **A breakpoint is seen just where it should be** if and only if all of them are reported. -/
theorem reported_iff (hcount : t.excess maxBreakpoints = 0) :
    (∀ offset, (t.getBreakpointInfo offset).1 = true
        ↔ ∃ i < maxBreakpoints, (t.slots i).isSet = true ∧ (t.slots i).address = offset)
      ↔ Reported t.slots (t.setSlots maxBreakpoints) := by
  have htotal : t.total.toNat = (t.setSlots maxBreakpoints).card := by
    unfold excess at hcount
    omega
  have hle : (t.setSlots maxBreakpoints).card ≤ maxBreakpoints := card_setSlots_le
  simp only [getBreakpointInfo_iff, htotal]
  constructor
  · intro h i hi _
    obtain ⟨hlt, hset⟩ := mem_setSlots.1 hi
    obtain ⟨j, hj, hjset, haddress⟩ := (h (t.slots i).address).2 ⟨i, hlt, hset, rfl⟩
    exact ⟨j, mem_setSlots.2 ⟨hj.trans_le hle, hjset⟩, hj, haddress⟩
  · intro h offset
    refine ⟨fun ⟨i, hi, hset⟩ => ⟨i, hi.trans_le hle, hset⟩, fun ⟨i, hi, hset, haddress⟩ => ?_⟩
    by_cases hlow : i < (t.setSlots maxBreakpoints).card
    · exact ⟨i, hlow, hset, haddress⟩
    · obtain ⟨j, hj, hjlt, hsame⟩ := h i (mem_setSlots.2 ⟨hi, hset⟩) (Nat.not_lt.1 hlow)
      exact ⟨j, hjlt, (mem_setSlots.1 hj).2, hsame.trans haddress⟩

theorem Reported.congr {slots slots' : Nat → Breakpoint} {left : Finset Nat}
    (h : ∀ i ∈ left, (slots' i).address = (slots i).address) :
    Reported slots' left ↔ Reported slots left := by
  unfold Reported
  refine forall₂_congr fun i hi => imp_congr_right fun _ => exists_congr fun j => ?_
  refine and_congr_right fun hj => and_congr_right fun _ => ?_
  rw [h i hi, h j hj]

theorem reported_empty (slots : Nat → Breakpoint) : Reported slots ∅ :=
  fun _ hi => absurd hi (Finset.notMem_empty _)

/-- **A breakpoint more**, in the first free slot, hides none. -/
theorem Reported.insert {slots : Nat → Breakpoint} {left : Finset Nat} {free : Nat}
    (h : Reported slots left) (hnew : free ∉ left) (hbelow : ∀ i < free, i ∈ left)
    (b : Breakpoint) : Reported (Function.update slots free b) (insert free left) := by
  have hcard : free ≤ left.card := by
    calc free = (Finset.range free).card := (Finset.card_range free).symm
      _ ≤ left.card := Finset.card_le_card fun i hi => hbelow i (Finset.mem_range.1 hi)
  intro i hi hle
  rw [Finset.card_insert_of_notMem hnew] at hle ⊢
  have hne : ∀ j ∈ left, j ≠ free := fun j hj heq => hnew (heq ▸ hj)
  rcases Finset.mem_insert.1 hi with rfl | hi
  · omega
  · obtain ⟨j, hj, hlt, haddress⟩ := h i hi (by omega)
    refine ⟨j, Finset.mem_insert_of_mem hj, by omega, ?_⟩
    rw [Function.update_of_ne (hne j hj), Function.update_of_ne (hne i hi)]
    exact haddress

/-- **What commands keep that clear nothing.** -/
structure Keeps (t t' : BwzTable) : Prop where
  /-- The count is as right as it was. -/
  excess : t'.excess maxBreakpoints = t.excess maxBreakpoints
  /-- What is reported stays so. -/
  reported : Reported t.slots (t.setSlots maxBreakpoints) →
    Reported t'.slots (t'.setSlots maxBreakpoints)
  /-- No slot outside the table is touched. -/
  frame : ∀ i, maxBreakpoints ≤ i → t'.slots i = t.slots i

theorem Keeps.refl (t : BwzTable) : t.Keeps t := ⟨rfl, id, fun _ _ => rfl⟩

theorem Keeps.trans {t' t'' : BwzTable} (h : t.Keeps t') (h' : t'.Keeps t'') : t.Keeps t'' :=
  ⟨h'.excess.trans h.excess, fun hr => h'.reported (h.reported hr),
    fun i hi => (h'.frame i hi).trans (h.frame i hi)⟩

/-- **A breakpoint is added.** -/
theorem keeps_cmdBreakpointAddCommonArg (value : UInt16) (source : BreakpointSource)
    (operator : BreakpointOperator) (isTemp : Bool) :
    t.Keeps (t.cmdBreakpointAddCommonArg value source operator isTemp) := by
  obtain ⟨-, hbelow, hfree⟩ := t.firstFree_spec maxBreakpoints
  unfold cmdBreakpointAddCommonArg
  by_cases hfull : t.firstFree maxBreakpoints ≥ maxBreakpoints
  · rw [if_pos hfull]
    exact .refl t
  · have hlt := Nat.not_le.1 hfull
    have hnot := hfree hlt
    rw [if_neg hfull]
    refine ⟨?_, fun h => ?_, fun i hi => Function.update_of_ne (by omega) _ _⟩
    · rw [excess_set hlt rfl, hnot, if_neg Bool.false_ne_true]
      exact Int.add_zero _
    · rw [setSlots_update hlt, if_pos rfl]
      refine h.insert (fun hmem => ?_) (fun i hi => ?_) _
      · rw [(mem_setSlots.1 hmem).2] at hnot
        exact Bool.false_ne_true hnot.symm
      · exact mem_setSlots.2 ⟨hi.trans hlt, hbelow i hi⟩

theorem keeps_cmdBreakpointAddPC (args : List UInt16) : t.Keeps (t.cmdBreakpointAddPC args) := by
  unfold cmdBreakpointAddPC
  induction args generalizing t with
  | nil => exact .refl t
  | cons arg args ih => exact (keeps_cmdBreakpointAddCommonArg _ _ _ _).trans ih

theorem keeps_cmdBreakpointAddReg (args : List UInt16) : t.Keeps (t.cmdBreakpointAddReg args) := by
  unfold cmdBreakpointAddReg
  split
  · exact keeps_cmdBreakpointAddCommonArg _ _ _ _
  · exact .refl t

theorem keeps_cmdBreakpointAddSmart (args : List UInt16) (isRegister : Bool) :
    t.Keeps (t.cmdBreakpointAddSmart args isRegister) := by
  unfold cmdBreakpointAddSmart
  split
  · exact .refl t
  · exact keeps_cmdBreakpointAddPC _
  · cases isRegister with
    | true => exact keeps_cmdBreakpointAddReg args
    | false => exact keeps_cmdBreakpointAddPC args

/-- **Breakpoints are enabled or disabled.** -/
theorem keeps_cmdBreakpointEnable (args : List UInt16) (enabled : Bool) :
    t.Keeps (t.cmdBreakpointEnable args enabled) := by
  unfold cmdBreakpointEnable
  split
  · exact .refl t
  · have h := sameSlots_bwzEnableDisableViaArgs (t := t) args maxBreakpoints enabled
    refine ⟨h.excess _, fun hr => ?_, fun i hi => frame_bwzEnableDisableViaArgs args enabled hi⟩
    rw [h.setSlots]
    exact (Reported.congr fun i _ => h.address i).2 hr

/-! ## Adding watches -/

/-- How many of the addresses get a slot: those before the first in the I/O page, as far as the
table and the count go. -/
def watchRoom (t : BwzTable) (slot : Nat) (addresses : List UInt16) : Nat :=
  min (addresses.takeWhile fun a => !isIo a).length
    (min (maxWatches - slot) (maxWatches - t.total).toNat)

/-- The search for a free slot is made once. -/
theorem watchLoop_none (added : Bool) (addresses : List UInt16) :
    t.watchLoop none added addresses
      = t.watchLoop (some (t.firstFree maxWatches)) added addresses := by
  cases addresses with
  | nil => rfl
  | cons address addresses => rfl

/-- **The count stays right where the slots that are taken are free**, and is never too small. -/
theorem excess_watchLoop (slot : Nat) (added : Bool) (addresses : List UInt16) :
    t.excess maxWatches ≤ (t.watchLoop (some slot) added addresses).excess maxWatches
      ∧ ((t.watchLoop (some slot) added addresses).excess maxWatches = t.excess maxWatches
        ↔ ∀ k < t.watchRoom slot addresses, (t.slots (slot + k)).isSet = false)
      ∧ ∀ i, maxWatches ≤ i → (t.watchLoop (some slot) added addresses).slots i = t.slots i := by
  -- on the addresses given: the loop writes slot after slot, and each write moves the count away
  -- from the slots exactly when the slot was set before
  induction addresses generalizing t slot added with
  | nil =>
    refine ⟨le_refl _, iff_of_true rfl fun k hk => ?_, fun _ _ => rfl⟩
    simp [watchRoom] at hk
  | cons address addresses ih =>
    -- what stops the loop leaves the table alone, and then there was no room
    have hstay : t.watchRoom slot (address :: addresses) = 0 → t.excess maxWatches
        ≤ t.excess maxWatches ∧ (t.excess maxWatches = t.excess maxWatches
          ↔ ∀ k < t.watchRoom slot (address :: addresses), (t.slots (slot + k)).isSet = false)
        ∧ ∀ i, maxWatches ≤ i → t.slots i = t.slots i := fun hroom =>
      ⟨le_refl _, iff_of_true rfl fun k hk => absurd hk (by omega), fun _ _ => rfl⟩
    unfold watchLoop
    by_cases hio : isIo address = true
    · rw [if_pos hio]
      exact hstay (by simp [watchRoom, hio])
    have hlength : ((address :: addresses).takeWhile fun a => !isIo a).length
        = (addresses.takeWhile fun a => !isIo a).length + 1 := by
      rw [List.takeWhile_cons_of_pos (by simpa using hio), List.length_cons]
    rw [if_neg hio]
    dsimp only [Option.getD_some]
    by_cases hover : (slot ≥ maxWatches && !added) = true
    · rw [if_pos hover]
      rw [Bool.and_eq_true, decide_eq_true_iff] at hover
      exact hstay (by unfold watchRoom; omega)
    rw [if_neg hover]
    by_cases hfits : (slot < maxWatches && t.total < maxWatches) = true
    · rw [if_pos hfits]
      rw [Bool.and_eq_true, decide_eq_true_iff, decide_eq_true_iff] at hfits
      obtain ⟨hslot, htotal⟩ := hfits
      have hexcess : (t.setWatch slot address).excess maxWatches
          = t.excess maxWatches + if (t.slots slot).isSet then 1 else 0 := excess_set hslot rfl
      have hother : ∀ i, i ≠ slot → (t.setWatch slot address).slots i = t.slots i :=
        fun i hi => Function.update_of_ne hi _ _
      have hroom : t.watchRoom slot (address :: addresses)
          = (t.setWatch slot address).watchRoom (slot + 1) addresses + 1 := by
        unfold watchRoom
        rw [hlength]
        dsimp only [setWatch]
        omega
      obtain ⟨hle, hiff, hframe⟩ := @ih (t.setWatch slot address) (slot + 1) true
      refine ⟨hle.trans' ?_, ?_, fun i hi => (hframe i hi).trans (hother i (by omega))⟩
      · rw [hexcess]
        split <;> omega
      · by_cases hset : (t.slots slot).isSet = true
        · rw [if_pos hset] at hexcess
          refine iff_of_false (by omega) fun hall => ?_
          have hfirst := hall 0 (by omega)
          rw [Nat.add_zero, hset] at hfirst
          exact Bool.false_ne_true hfirst.symm
        · rw [if_neg hset, Int.add_zero] at hexcess
          rw [← hexcess, hiff, hroom]
          have hnext : ∀ k, slot + 1 + k = slot + (k + 1) := fun k => by omega
          constructor
          · intro hall k hk
            cases k with
            | zero => simpa using hset
            | succ k =>
              have hk' := hall k (by omega)
              rwa [hother _ (by omega), hnext] at hk'
          · intro hall k hk
            rw [hother _ (by omega), hnext]
            exact hall (k + 1) (by omega)
    -- past the last slot, or with a full table, the loop runs on and writes nothing
    · rw [if_neg hfits]
      rw [Bool.and_eq_true, decide_eq_true_iff, decide_eq_true_iff] at hfits
      have hzero : ∀ as, t.watchRoom slot as = 0 := by
        intro as
        unfold watchRoom
        omega
      obtain ⟨hle, hiff, hframe⟩ := @ih t slot added
      rw [hzero] at hiff ⊢
      exact ⟨hle, hiff, hframe⟩

/-- The slot that `CmdWatchAdd` starts with, and the addresses. -/
def watchStart (t : BwzTable) : List UInt16 → Nat × List UInt16
  | [] => (0, [])
  | [address] => (t.firstFree maxWatches, [address])
  | slot :: addresses => (slot.toNat, addresses)

/-- **The slots that `CmdWatchAdd` takes are free.** -/
def WatchesFree (t : BwzTable) (args : List UInt16) : Prop :=
  ∀ k < t.watchRoom (t.watchStart args).1 (t.watchStart args).2,
    (t.slots ((t.watchStart args).1 + k)).isSet = false

theorem cmdWatchAdd_eq (args : List UInt16) :
    t.cmdWatchAdd args = t.watchLoop (some (t.watchStart args).1) false (t.watchStart args).2 := by
  match args with
  | [] => rfl
  | [address] => exact watchLoop_none false [address]
  | slot :: address :: addresses => rfl

/-! ## Clearing breakpoints and watches -/

/-- `CmdBreakpointClear` and `CmdWatchClear` keep the count. -/
theorem excess_clear_args (hcount : t.excess max = 0) (args : List UInt16) :
    (if t.total = 0 then t
      else if args = [] then t.bwzRemoveAll max else t.bwzClearViaArgs args max).excess max = 0 := by
  split
  · exact hcount
  · split
    · exact excess_bwzRemoveAll
    · rw [bwzClearViaArgs_eq, excess_clearWhere (fun _ h => h) (by simp)]
      exact hcount

/-- They touch no slot outside the table. -/
theorem frame_clear_args (args : List UInt16) {i : Nat} (hi : max ≤ i) :
    (if t.total = 0 then t
      else if args = [] then t.bwzRemoveAll max else t.bwzClearViaArgs args max).slots i
      = t.slots i := by
  split
  · rfl
  · split
    · rw [slots_bwzRemoveAll, if_neg (by omega)]
    · rw [bwzClearViaArgs_eq, slots_clearWhere (fun _ h => h), if_neg]
      rintro ⟨hmem, -⟩
      have hlt := (List.mem_filter.1 hmem).2
      rw [decide_eq_true_iff] at hlt
      omega

/-- The slots that `CmdBreakpointClear` leaves set. -/
def leftBy (t : BwzTable) (args : List UInt16) : Finset Nat :=
  (t.setSlots maxBreakpoints).filter fun i => ¬ i ∈ args.map UInt16.toNat

/-- The slots that `ClearTempBreakpoints` leaves set. -/
def leftByTemp (t : BwzTable) : Finset Nat :=
  (t.setSlots maxBreakpoints).filter fun i => ¬ (t.slots i).isTemp = true

/-- **What is reported after `CmdBreakpointClear`.** -/
theorem reported_cmdBreakpointClear (hcount : t.excess maxBreakpoints = 0)
    (hreported : Reported t.slots (t.setSlots maxBreakpoints)) (args : List UInt16) :
    Reported (t.cmdBreakpointClear args).slots ((t.cmdBreakpointClear args).setSlots maxBreakpoints)
      ↔ Reported t.slots (t.leftBy args) := by
  unfold cmdBreakpointClear
  by_cases hzero : t.total = 0
  · have hempty : t.setSlots maxBreakpoints = ∅ := by
      unfold excess at hcount
      rw [← Finset.card_eq_zero]
      omega
    rw [if_pos hzero, leftBy, hempty]
    exact iff_of_true (reported_empty _) (reported_empty _)
  · rw [if_neg hzero]
    by_cases hargs : args = []
    · rw [if_pos hargs, setSlots_bwzRemoveAll, hargs, leftBy]
      refine iff_of_true (reported_empty _) ?_
      simpa using hreported
    · rw [if_neg hargs, bwzClearViaArgs_eq, setSlots_clearWhere (fun _ h => h)]
      have hleft : ((t.setSlots maxBreakpoints).filter fun i => ¬ (i ∈ (args.map UInt16.toNat).filter
          (· < maxBreakpoints) ∧ (t.slots i).isSet = true)) = t.leftBy args := by
        ext i
        rw [leftBy, Finset.mem_filter, Finset.mem_filter]
        refine and_congr_right fun hi => not_congr ?_
        obtain ⟨hlt, hset⟩ := mem_setSlots.1 hi
        rw [List.mem_filter, decide_eq_true_iff]
        exact ⟨fun h => h.1.1, fun h => ⟨⟨h, hlt⟩, hset⟩⟩
      rw [hleft]
      refine Reported.congr fun i hi => ?_
      rw [slots_clearWhere (fun _ h => h), if_neg]
      rintro ⟨hmem, -⟩
      exact (Finset.mem_filter.1 hi).2 (List.mem_filter.1 hmem).1

theorem isSet_of_temp (b : Breakpoint) (h : (b.isSet && b.isTemp) = true) : b.isSet = true :=
  (Bool.and_eq_true _ _ ▸ h).1

/-- **What is reported after `ClearTempBreakpoints`.** -/
theorem reported_clearTempBreakpoints :
    Reported t.clearTempBreakpoints.slots (t.clearTempBreakpoints.setSlots maxBreakpoints)
      ↔ Reported t.slots t.leftByTemp := by
  rw [clearTempBreakpoints_eq, setSlots_clearWhere isSet_of_temp]
  have hleft : ((t.setSlots maxBreakpoints).filter fun i => ¬ (i ∈ List.range maxBreakpoints
      ∧ ((t.slots i).isSet && (t.slots i).isTemp) = true)) = t.leftByTemp := by
    ext i
    rw [leftByTemp, Finset.mem_filter, Finset.mem_filter]
    refine and_congr_right fun hi => not_congr ?_
    obtain ⟨hlt, hset⟩ := mem_setSlots.1 hi
    rw [List.mem_range, hset, Bool.true_and]
    exact ⟨fun h => h.2, fun h => ⟨hlt, h⟩⟩
  rw [hleft]
  refine Reported.congr fun i hi => ?_
  rw [slots_clearWhere isSet_of_temp, if_neg]
  rintro ⟨-, htemp⟩
  rw [Bool.and_eq_true] at htemp
  exact (Finset.mem_filter.1 hi).2 htemp.2

end BwzTable

/-! ## Runs of commands -/

namespace BwzTables

open BwzTable (Reported)

/-- **Tables and counts agree**: each count is the number of the set slots, and a breakpoint is
seen just where a set slot holds it. -/
structure Agree (s : BwzTables) : Prop where
  /-- `breakpoints_count` -/
  breakpoints : s.breakpoints.total = (s.breakpoints.setSlots maxBreakpoints).card
  /-- `watches_count` -/
  watches : s.watches.total = (s.watches.setSlots maxWatches).card
  /-- `GetBreakpointInfo` -/
  found : ∀ offset, (s.breakpoints.getBreakpointInfo offset).1 = true
    ↔ ∃ i < maxBreakpoints, (s.breakpoints.slots i).isSet = true
      ∧ (s.breakpoints.slots i).address = offset

/-- **Where a command keeps tables and counts in agreement**: a clearing of breakpoints leaves all
that stay reported, and a watch is put in free slots. -/
def Fits (s : BwzTables) : BwzCommand → Prop
  | .clear args => Reported s.breakpoints.slots (s.breakpoints.leftBy args)
  | .clearTemp => Reported s.breakpoints.slots s.breakpoints.leftByTemp
  | .watchAdd args => s.watches.WatchesFree args
  | _ => True

theorem agree_iff (s : BwzTables) :
    s.Agree ↔ s.breakpoints.excess maxBreakpoints = 0 ∧ s.watches.excess maxWatches = 0
      ∧ Reported s.breakpoints.slots (s.breakpoints.setSlots maxBreakpoints) := by
  have hzero : ∀ (t : BwzTable) max, t.excess max = 0 ↔ t.total = (t.setSlots max).card :=
    fun t max => sub_eq_zero
  constructor
  · intro h
    have hcount := (hzero _ _).2 h.breakpoints
    exact ⟨hcount, (hzero _ _).2 h.watches, (BwzTable.reported_iff hcount).1 h.found⟩
  · rintro ⟨hcount, hwatches, hreported⟩
    exact ⟨(hzero _ _).1 hcount, (hzero _ _).1 hwatches,
      (BwzTable.reported_iff hcount).2 hreported⟩

/-- **A command**: it touches no slot outside the tables and keeps the count of the breakpoints
right. -/
theorem step_keeps (s : BwzTables) (c : BwzCommand) :
    (∀ i, maxBreakpoints ≤ i → (s.step c).breakpoints.slots i = s.breakpoints.slots i)
      ∧ (∀ i, maxWatches ≤ i → (s.step c).watches.slots i = s.watches.slots i)
      ∧ (s.breakpoints.excess maxBreakpoints = 0 →
        (s.step c).breakpoints.excess maxBreakpoints = 0) := by
  have hkeeps : ∀ t', s.breakpoints.Keeps t' →
      (∀ i, maxBreakpoints ≤ i → t'.slots i = s.breakpoints.slots i)
        ∧ (∀ i, maxWatches ≤ i → s.watches.slots i = s.watches.slots i)
        ∧ (s.breakpoints.excess maxBreakpoints = 0 → t'.excess maxBreakpoints = 0) :=
    fun t' h => ⟨h.frame, fun _ _ => rfl, fun hzero => h.excess.trans hzero⟩
  -- a command writes the table of its own kind only, and below its bound
  cases c with
  | add args isRegister => exact hkeeps _ (BwzTable.keeps_cmdBreakpointAddSmart ..)
  | addPC args => exact hkeeps _ (BwzTable.keeps_cmdBreakpointAddPC ..)
  | addReg args => exact hkeeps _ (BwzTable.keeps_cmdBreakpointAddReg ..)
  | addCommonArg => exact hkeeps _ (BwzTable.keeps_cmdBreakpointAddCommonArg ..)
  | enable args enabled => exact hkeeps _ (BwzTable.keeps_cmdBreakpointEnable ..)
  | clear args =>
    exact ⟨fun i hi => BwzTable.frame_clear_args args hi, fun _ _ => rfl,
      fun hzero => BwzTable.excess_clear_args hzero args⟩
  | clearTemp =>
    refine ⟨fun i hi => ?_, fun _ _ => rfl, fun hzero => ?_⟩
    · refine (BwzTable.slots_clearWhere BwzTable.isSet_of_temp _ i).trans (if_neg ?_)
      rintro ⟨hmem, -⟩
      exact absurd (List.mem_range.1 hmem) (Nat.not_lt.2 hi)
    · refine (BwzTable.excess_clearWhere BwzTable.isSet_of_temp fun i hi => ?_).trans hzero
      exact List.mem_range.1 hi
  | watchAdd args =>
    refine ⟨fun _ _ => rfl, fun i hi => ?_, id⟩
    dsimp only [step]
    rw [BwzTable.cmdWatchAdd_eq]
    exact (BwzTable.excess_watchLoop _ _ _).2.2 i hi
  | watchClear args =>
    exact ⟨fun _ _ => rfl, fun i hi => BwzTable.frame_clear_args args hi, id⟩
  | watchEnable args enabled =>
    refine ⟨fun _ _ => rfl, fun i hi => ?_, id⟩
    dsimp only [step, BwzTable.cmdWatchEnable]
    split
    · rfl
    · exact BwzTable.frame_bwzEnableDisableViaArgs args enabled hi

/-- **Where tables and counts agree, a command keeps them so just where it fits.** -/
theorem agree_step_iff {s : BwzTables} (h : s.Agree) (c : BwzCommand) :
    (s.step c).Agree ↔ s.Fits c := by
  obtain ⟨hcount, hwatches, hreported⟩ := (agree_iff s).1 h
  have hkeeps : ∀ t', s.breakpoints.Keeps t' → (BwzTables.mk t' s.watches).Agree :=
    fun t' h => (agree_iff _).2 ⟨h.excess.trans hcount, hwatches, h.reported hreported⟩
  -- a clear, the end of the temporary ones and a new watch keep the counts just under `Fits`, and
  -- every other command in every state
  cases c with
  | add args isRegister =>
    exact iff_of_true (hkeeps _ (BwzTable.keeps_cmdBreakpointAddSmart ..)) trivial
  | addPC args => exact iff_of_true (hkeeps _ (BwzTable.keeps_cmdBreakpointAddPC ..)) trivial
  | addReg args => exact iff_of_true (hkeeps _ (BwzTable.keeps_cmdBreakpointAddReg ..)) trivial
  | addCommonArg =>
    exact iff_of_true (hkeeps _ (BwzTable.keeps_cmdBreakpointAddCommonArg ..)) trivial
  | enable args enabled =>
    exact iff_of_true (hkeeps _ (BwzTable.keeps_cmdBreakpointEnable ..)) trivial
  | clear args =>
    have hzero := (step_keeps s (.clear args)).2.2 hcount
    rw [agree_iff]
    exact ⟨fun h => (BwzTable.reported_cmdBreakpointClear hcount hreported args).1 h.2.2,
      fun h => ⟨hzero, hwatches,
        (BwzTable.reported_cmdBreakpointClear hcount hreported args).2 h⟩⟩
  | clearTemp =>
    have hzero := (step_keeps s .clearTemp).2.2 hcount
    rw [agree_iff]
    exact ⟨fun h => BwzTable.reported_clearTempBreakpoints.1 h.2.2,
      fun h => ⟨hzero, hwatches, BwzTable.reported_clearTempBreakpoints.2 h⟩⟩
  | watchAdd args =>
    obtain ⟨-, hiff, -⟩ := s.watches.excess_watchLoop (s.watches.watchStart args).1 false
      (s.watches.watchStart args).2
    rw [← BwzTable.cmdWatchAdd_eq, hwatches] at hiff
    rw [agree_iff]
    exact ⟨fun h => hiff.1 h.2.1, fun h => ⟨hcount, hiff.2 h, hreported⟩⟩
  | watchClear args =>
    refine iff_of_true ((agree_iff _).2 ⟨hcount, ?_, hreported⟩) trivial
    exact BwzTable.excess_clear_args hwatches args
  | watchEnable args enabled =>
    refine iff_of_true ((agree_iff _).2 ⟨hcount, ?_, hreported⟩) trivial
    dsimp only [step, BwzTable.cmdWatchEnable]
    split
    · exact hwatches
    · exact ((BwzTable.sameSlots_bwzEnableDisableViaArgs args _ enabled).excess _).trans hwatches

/-- The two tables as a machine. -/
def machine : Machine BwzTables BwzCommand Unit := ⟨step, fun _ _ => none⟩

theorem agree_blank : blank.Agree := by
  refine (agree_iff _).2 ⟨?_, ?_, fun i hi => ?_⟩
  · decide
  · decide
  · exact absurd (BwzTable.mem_setSlots.1 hi).2 Bool.false_ne_true

theorem agree_run_iff {s : BwzTables} (h : s.Agree) (commands : List BwzCommand) :
    (∀ before after, commands = before ++ after → (s.run before).Agree)
      ↔ machine.Admits (fun s c _ => s.Fits c) s commands := by
  induction commands generalizing s with
  | nil =>
    refine iff_of_true (fun before after heq => ?_) trivial
    rw [(List.append_eq_nil_iff.1 heq.symm).1]
    exact h
  | cons c commands ih =>
    constructor
    · intro hall
      have hstep : (s.step c).Agree := hall [c] commands rfl
      exact ⟨(agree_step_iff h c).1 hstep, (ih hstep).1 fun before after heq =>
        hall (c :: before) after (by rw [heq]; rfl)⟩
    · rintro ⟨hfits, hlater⟩ before after heq
      have hstep := (agree_step_iff h c).2 hfits
      cases before with
      | nil => exact h
      | cons c' before =>
        obtain ⟨rfl, hrest⟩ := List.cons_eq_cons.1 heq
        exact (ih hstep).2 hlater before after hrest

/-- **Tables and counts agree in every state of a run just where each command fits.** In any run
the count of the breakpoints is right and no slot outside the tables is touched. The agreement is
asked of all states on the way, because a later command may make good what an earlier one has
broken. -/
theorem breakpoint_counts (commands : List BwzCommand) :
    ((∀ before after, commands = before ++ after → (blank.run before).Agree)
        ↔ machine.Admits (fun s c _ => s.Fits c) blank commands)
      ∧ (blank.run commands).breakpoints.total
        = ((blank.run commands).breakpoints.setSlots maxBreakpoints).card
      ∧ (∀ i, maxBreakpoints ≤ i → (blank.run commands).breakpoints.slots i = .cleared)
      ∧ ∀ i, maxWatches ≤ i → (blank.run commands).watches.slots i = .cleared := by
  refine ⟨agree_run_iff agree_blank commands, ?_⟩
  have hall : ∀ s : BwzTables, s.breakpoints.excess maxBreakpoints = 0 →
      (s.run commands).breakpoints.excess maxBreakpoints = 0
        ∧ (∀ i, maxBreakpoints ≤ i →
          (s.run commands).breakpoints.slots i = s.breakpoints.slots i)
        ∧ ∀ i, maxWatches ≤ i → (s.run commands).watches.slots i = s.watches.slots i := by
    induction commands with
    | nil => exact fun s h => ⟨h, fun _ _ => rfl, fun _ _ => rfl⟩
    | cons c commands ih =>
      intro s h
      obtain ⟨hframe, hwatches, hzero⟩ := step_keeps s c
      obtain ⟨hrun, hrunFrame, hrunWatches⟩ := ih (s.step c) (hzero h)
      exact ⟨hrun, fun i hi => (hrunFrame i hi).trans (hframe i hi),
        fun i hi => (hrunWatches i hi).trans (hwatches i hi)⟩
  obtain ⟨hzero, hframe, hwatches⟩ := hall blank (by decide)
  exact ⟨sub_eq_zero.1 hzero, hframe, hwatches⟩

/-- **A breakpoint above a cleared one is not seen**, and a watch put in a slot that is set is
counted twice. -/
theorem not_breakpoint_counts :
    ¬ (blank.run [.addPC [0x300, 0x400], .clear [0]]).Agree
      ∧ ¬ (blank.run [.watchAdd [0x300], .watchAdd [0, 0x400]]).Agree := by
  constructor
  · intro h
    have hseen := (h.found 0x400).2 ⟨1, by decide, by decide +kernel, by decide +kernel⟩
    exact absurd hseen (by decide +kernel)
  · intro h
    exact absurd h.watches (by decide +kernel)

end BwzTables

end LinApple.Debugger
