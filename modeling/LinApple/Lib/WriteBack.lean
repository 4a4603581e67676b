import Mathlib.Logic.Function.Basic
import Mathlib.Tactic.Common

/-!
# Write-back copies

A set of live pages stands in front of a larger set of stored ones. Each
live page shows one location at a time, reads and writes go to the live
page, and the stored copy is brought up to date only when the page is
turned to another location – and only if it is marked dirty, or is one of
those that are written back whatever their mark says.

A location is shown by at most one page, its `owner`. That is what makes
the pages independent of each other: turning one page neither reads nor
writes anything another page owns, so turning all of them, in any order,
is turning each of them on its own (`agreesAt_turnAll`).

What a reader of the whole memory should see is the `view`: the live copy
of a location that is shown, the stored copy of one that is not. A memory
is `Coherent` when a page that would not be written back agrees with its
stored copy, and turning pages of a coherent memory changes no view
(`view_turn`).
-/

/-- **Live pages in front of stored ones.** -/
structure WriteBack (P L V : Type*) where
  /-- The live copy on each page. -/
  live : P → V
  /-- The stored copy of each location. -/
  store : L → V
  /-- The location each page shows. -/
  map : P → L
  /-- Whether a page is marked as changed since it was turned. -/
  dirty : P → Bool

namespace WriteBack

variable {P L V : Type*} [DecidableEq P] [DecidableEq L]
variable (owner : L → P) (pinned : P → Bool)

/-- **The view of a location**: its live copy while its owner shows it, and
its stored copy otherwise. -/
def view (c : WriteBack P L V) (l : L) : V :=
  if c.map (owner l) = l then c.live (owner l) else c.store l

/-- Turn one page to another location: write the live copy back if it has
to be, and bring the new location's stored copy in. -/
def turn (c : WriteBack P L V) (p : P) (l : L) : WriteBack P L V :=
  if c.map p = l then c
  else
    let flush := c.dirty p || pinned p
    let store := if flush then Function.update c.store (c.map p) (c.live p)
      else c.store
    { live := Function.update c.live p (store l)
      store := store
      map := Function.update c.map p l
      dirty := if flush then Function.update c.dirty p false else c.dirty }

/-- Turn the pages of a list, one after another, to the locations `new`
gives them. -/
def turnAll (c : WriteBack P L V) (new : P → L) (ps : List P) :
    WriteBack P L V :=
  ps.foldl (fun c p => c.turn pinned p (new p)) c

/-- **A coherent memory**: every page shows a location it owns, and a page
that would not be written back agrees with its stored copy. -/
structure Coherent (c : WriteBack P L V) : Prop where
  /-- A page shows a location of its own. -/
  owner_map : ∀ p, owner (c.map p) = p
  /-- A page that would not be written back has nothing to write. -/
  clean : ∀ p, c.dirty p = false → pinned p = false →
    c.live p = c.store (c.map p)

variable {owner pinned}

omit [DecidableEq P] in
/-- A page of a coherent memory carries the view of what it shows. -/
theorem Coherent.live_eq_view {c : WriteBack P L V}
    (h : c.Coherent owner pinned) (p : P) :
    c.live p = c.view owner (c.map p) := by
  rw [view, h.owner_map p, if_pos rfl]

/-! ## Turning one page leaves the others alone -/

theorem turn_map (c : WriteBack P L V) (p : P) (l : L) :
    (c.turn pinned p l).map = Function.update c.map p l := by
  unfold turn
  split
  · next h => rw [← h, Function.update_eq_self]
  · rfl

theorem turn_live_of_ne (c : WriteBack P L V) {p q : P} (l : L)
    (hq : q ≠ p) : (c.turn pinned p l).live q = c.live q := by
  unfold turn
  split
  · rfl
  · exact Function.update_of_ne hq _ _

theorem turn_dirty_of_ne (c : WriteBack P L V) {p q : P} (l : L)
    (hq : q ≠ p) : (c.turn pinned p l).dirty q = c.dirty q := by
  unfold turn
  split
  · rfl
  · dsimp only
    split
    · exact Function.update_of_ne hq _ _
    · rfl

theorem turn_store_of_ne (c : WriteBack P L V) {p : P} (l : L) {k : L}
    (hk : k ≠ c.map p) : (c.turn pinned p l).store k = c.store k := by
  unfold turn
  split
  · rfl
  · dsimp only
    split
    · exact Function.update_of_ne hk _ _
    · rfl

/-! ## Turning a page changes no view -/

/-- **Turning a page to a location of its own changes no view** and keeps
the memory coherent. -/
theorem view_turn {c : WriteBack P L V} (h : c.Coherent owner pinned)
    {p : P} {l : L} (hl : owner l = p) :
    (c.turn pinned p l).view owner = c.view owner := by
  funext k
  by_cases hmap : c.map p = l
  · rw [turn, if_pos hmap]
  by_cases hk : owner k = p
  · -- `k` belongs to the page that is turned
    subst hk
    by_cases hkl : k = l
    · subst hkl
      have hne : c.map (owner k) ≠ k := hmap
      simp only [view, turn, if_neg hne, Function.update_self, if_true]
      split
      · exact Function.update_of_ne (Ne.symm hne) _ _
      · rfl
    · have hne : Function.update c.map (owner k) l (owner k) ≠ k := by
        rw [Function.update_self]
        exact Ne.symm hkl
      simp only [view, turn_map, if_neg hne]
      by_cases hshown : c.map (owner k) = k
      · -- `k` was shown and is put away
        rw [if_pos hshown]
        simp only [turn, if_neg hmap]
        cases hf : (c.dirty (owner k) || pinned (owner k)) with
        | true => rw [if_pos rfl, hshown, Function.update_self]
        | false =>
          rw [Bool.or_eq_false_iff] at hf
          rw [if_neg Bool.false_ne_true, h.clean _ hf.1 hf.2, hshown]
      · rw [if_neg hshown, turn_store_of_ne c l (Ne.symm hshown)]
  · have hm : Function.update c.map p l (owner k) = c.map (owner k) :=
      Function.update_of_ne hk _ _
    have hs : k ≠ c.map p := by
      rintro rfl
      exact hk (h.owner_map p)
    simp only [view, turn_map, hm, turn_live_of_ne c l hk,
      turn_store_of_ne c l hs]

/-- Turning a page to a location of its own keeps the memory coherent. -/
theorem Coherent.turn {c : WriteBack P L V} (h : c.Coherent owner pinned)
    {p : P} {l : L} (hl : owner l = p) :
    (c.turn pinned p l).Coherent owner pinned := by
  refine ⟨fun q => ?_, fun q hd hp => ?_⟩
  · rw [turn_map]
    by_cases hq : q = p
    · subst hq
      rw [Function.update_self, hl]
    · rw [Function.update_of_ne hq, h.owner_map]
  · by_cases hq : q = p
    · subst hq
      rw [turn_map, Function.update_self]
      by_cases hmap : c.map q = l
      · rw [WriteBack.turn, if_pos hmap] at hd ⊢
        rw [h.clean q hd hp, hmap]
      · rw [WriteBack.turn, if_neg hmap]
        exact Function.update_self _ _ _
    · rw [turn_dirty_of_ne c l hq] at hd
      have hs : c.map q ≠ c.map p := fun he => hq (by
        rw [← h.owner_map q, he, h.owner_map p])
      rw [turn_map, Function.update_of_ne hq, turn_live_of_ne c l hq,
        turn_store_of_ne c l hs, h.clean q hd hp]

/-! ## Writing

A write goes to the live copy of a page, or past it to the stored copy of a
location the page does not show; either way the page is marked. -/

/-- Mark a page as changed. -/
def mark (c : WriteBack P L V) (p : P) : WriteBack P L V :=
  { c with dirty := Function.update c.dirty p true }

/-- Replace the live copy of a page, and mark it. -/
def writeLive (c : WriteBack P L V) (p : P) (v : V) : WriteBack P L V :=
  { c.mark p with live := Function.update c.live p v }

/-- Replace the stored copy of a location, and mark a page. -/
def writeStore (c : WriteBack P L V) (p : P) (l : L) (v : V) :
    WriteBack P L V :=
  { c.mark p with store := Function.update c.store l v }

section Fields

variable (c : WriteBack P L V) (p : P) (l : L) (v : V)

omit [DecidableEq L] in
theorem mark_dirty : (c.mark p).dirty = Function.update c.dirty p true := rfl

omit [DecidableEq L] in
@[simp] theorem writeLive_map : (c.writeLive p v).map = c.map := rfl

omit [DecidableEq L] in
@[simp] theorem writeLive_store : (c.writeLive p v).store = c.store := rfl

omit [DecidableEq L] in
@[simp] theorem writeLive_live :
    (c.writeLive p v).live = Function.update c.live p v := rfl

@[simp] theorem writeStore_map : (c.writeStore p l v).map = c.map := rfl

@[simp] theorem writeStore_live : (c.writeStore p l v).live = c.live := rfl

@[simp] theorem writeStore_store :
    (c.writeStore p l v).store = Function.update c.store l v := rfl

end Fields

omit [DecidableEq L] in
/-- A page without a mark is not the one just marked, and had none. -/
theorem of_mark_dirty_eq_false {c : WriteBack P L V} {p q : P}
    (h : (c.mark p).dirty q = false) : q ≠ p ∧ c.dirty q = false := by
  have hne : q ≠ p := by
    rintro rfl
    rw [mark_dirty, Function.update_self] at h
    exact Bool.noConfusion h
  rw [mark_dirty, Function.update_of_ne hne] at h
  exact ⟨hne, h⟩

omit [DecidableEq L] in
/-- A mark that is not needed does no harm. -/
theorem Coherent.mark {c : WriteBack P L V} (h : c.Coherent owner pinned)
    (p : P) : (c.mark p).Coherent owner pinned :=
  ⟨h.owner_map, fun q hd hp => h.clean q (of_mark_dirty_eq_false hd).2 hp⟩

omit [DecidableEq L] in
/-- Writing the live copy of a page keeps the memory coherent. -/
theorem Coherent.writeLive {c : WriteBack P L V}
    (h : c.Coherent owner pinned) (p : P) (v : V) :
    (c.writeLive p v).Coherent owner pinned := by
  refine ⟨h.owner_map, fun q hd hp => ?_⟩
  obtain ⟨hne, hclean⟩ := of_mark_dirty_eq_false hd
  exact (Function.update_of_ne hne _ _).trans (h.clean q hclean hp)

/-- Writing the live copy of a page is writing the location it shows. -/
theorem view_writeLive {c : WriteBack P L V}
    (hown : ∀ p, owner (c.map p) = p) (p : P) (v : V) :
    (c.writeLive p v).view owner
      = Function.update (c.view owner) (c.map p) v := by
  funext k
  by_cases hk : k = c.map p
  · subst hk
    rw [Function.update_self, view, writeLive_map, hown p, if_pos rfl,
      writeLive_live, Function.update_self]
  · rw [Function.update_of_ne hk]
    rw [view, view, writeLive_map, writeLive_live, writeLive_store]
    by_cases hshown : c.map (owner k) = k
    · have hne : owner k ≠ p := fun he => hk (by rw [← hshown, he])
      rw [if_pos hshown, if_pos hshown, Function.update_of_ne hne]
    · rw [if_neg hshown, if_neg hshown]

/-- Writing past a page to a location of its own that it does not show
keeps the memory coherent. -/
theorem Coherent.writeStore {c : WriteBack P L V}
    (h : c.Coherent owner pinned) {p : P} {l : L} (hl : owner l = p)
    (v : V) : (c.writeStore p l v).Coherent owner pinned := by
  refine ⟨h.owner_map, fun q hd hp => ?_⟩
  obtain ⟨hq, hclean⟩ := of_mark_dirty_eq_false hd
  have hne : c.map q ≠ l := fun he => hq (by
    rw [← h.owner_map q, he, hl])
  exact (h.clean q hclean hp).trans (Function.update_of_ne hne _ _).symm

/-- Writing past a page is writing the location. -/
theorem view_writeStore {c : WriteBack P L V} {p : P} {l : L}
    (hl : owner l = p) (hshown : c.map p ≠ l) (v : V) :
    (c.writeStore p l v).view owner = Function.update (c.view owner) l v := by
  funext k
  by_cases hk : k = l
  · subst hk
    subst hl
    rw [Function.update_self, view, writeStore_map, if_neg hshown,
      writeStore_store, Function.update_self]
  · rw [Function.update_of_ne hk, view, view, writeStore_map,
      writeStore_live, writeStore_store, Function.update_of_ne hk]

/-! ## Turning all the pages -/

@[simp] theorem turnAll_nil (c : WriteBack P L V) (new : P → L) :
    c.turnAll pinned new [] = c := rfl

@[simp] theorem turnAll_cons (c : WriteBack P L V) (new : P → L) (p : P)
    (ps : List P) : c.turnAll pinned new (p :: ps)
      = (c.turn pinned p (new p)).turnAll pinned new ps := rfl

/-- Turning pages to locations of their own changes no view and keeps the
memory coherent. -/
theorem Coherent.turnAll {c : WriteBack P L V} (h : c.Coherent owner pinned)
    {new : P → L} (hnew : ∀ p, owner (new p) = p) (ps : List P) :
    (c.turnAll pinned new ps).Coherent owner pinned
      ∧ (c.turnAll pinned new ps).view owner = c.view owner := by
  induction ps generalizing c with
  | nil => exact ⟨h, rfl⟩
  | cons p ps ih =>
    obtain ⟨hc, hv⟩ := ih (h.turn (hnew p))
    exact ⟨hc, hv.trans (view_turn h (hnew p))⟩

/-- **Turning pages stores nothing but what is in view**: where the stored
copy of a location is the view of it, it stays so. -/
theorem turnAll_store_of_eq_view {c : WriteBack P L V}
    (h : c.Coherent owner pinned) {new : P → L}
    (hnew : ∀ p, owner (new p) = p) (ps : List P) {l : L}
    (hl : c.store l = c.view owner l) :
    (c.turnAll pinned new ps).store l = c.store l := by
  induction ps generalizing c with
  | nil => rfl
  | cons p ps ih =>
    have hstep : (c.turn pinned p (new p)).store l = c.store l := by
      by_cases hmap : l = c.map p
      · subst hmap
        unfold WriteBack.turn
        split
        · rfl
        · dsimp only
          split
          · rw [Function.update_self, hl, h.live_eq_view]
          · rfl
      · exact turn_store_of_ne c (new p) hmap
    rw [turnAll_cons, ih (h.turn (hnew p)) (by
      rw [hstep, hl, view_turn h (hnew p)]), hstep]

/-- A location whose pages all keep showing it is not stored to. -/
theorem turnAll_store_of_stays (c : WriteBack P L V) (new : P → L)
    (ps : List P) {l : L} (hl : ∀ p, c.map p = l → new p = l) :
    (c.turnAll pinned new ps).store l = c.store l := by
  induction ps generalizing c with
  | nil => rfl
  | cons p ps ih =>
    have hstep : (c.turn pinned p (new p)).store l = c.store l := by
      by_cases hmap : c.map p = l
      · rw [turn, if_pos (hmap.trans (hl p hmap).symm)]
      · exact turn_store_of_ne c (new p) (Ne.symm hmap)
    rw [turnAll_cons, ih, hstep]
    intro q hq
    rw [turn_map] at hq
    by_cases hqp : q = p
    · subst hqp
      rwa [Function.update_self] at hq
    · exact hl q (by rwa [Function.update_of_ne hqp] at hq)

/-- A page that keeps showing what it shows is not touched. -/
theorem turnAll_live_of_stays (c : WriteBack P L V) (new : P → L)
    (ps : List P) {p : P} (hp : new p = c.map p) :
    (c.turnAll pinned new ps).live p = c.live p := by
  induction ps generalizing c with
  | nil => rfl
  | cons q ps ih =>
    have hmap : (c.turn pinned q (new q)).map p = c.map p := by
      rw [turn_map]
      by_cases hqp : p = q
      · subst hqp
        rw [Function.update_self, hp]
      · rw [Function.update_of_ne hqp]
    have hlive : (c.turn pinned q (new q)).live p = c.live p := by
      by_cases hqp : p = q
      · subst hqp
        rw [turn, if_pos hp.symm]
      · exact turn_live_of_ne c (new q) hqp
    rw [turnAll_cons, ih _ (hp.trans hmap.symm), hlive]

/-! ## One page at a time

What a page owns is its live copy, its mark, and the stored copies of its
locations. Turning another page touches none of it, so what turning many
pages does to one of them is what turning that one does. -/

/-- **Two memories agree at a page**: on what it shows, on its live copy
and its mark, and on the stored copies of the locations it owns. -/
structure AgreesAt (owner : L → P) (p : P) (c d : WriteBack P L V) :
    Prop where
  /-- The page shows the same location. -/
  map_eq : c.map p = d.map p
  /-- The live copies agree. -/
  live_eq : c.live p = d.live p
  /-- The marks agree. -/
  dirty_eq : c.dirty p = d.dirty p
  /-- The stored copies of the page's locations agree. -/
  store_eq : ∀ l, owner l = p → c.store l = d.store l

omit [DecidableEq P] [DecidableEq L] in
theorem AgreesAt.refl (p : P) (c : WriteBack P L V) :
    AgreesAt owner p c c :=
  ⟨rfl, rfl, rfl, fun _ _ => rfl⟩

omit [DecidableEq P] [DecidableEq L] in
theorem AgreesAt.trans {p : P} {c d e : WriteBack P L V}
    (h : AgreesAt owner p c d) (k : AgreesAt owner p d e) :
    AgreesAt owner p c e :=
  ⟨h.map_eq.trans k.map_eq, h.live_eq.trans k.live_eq,
    h.dirty_eq.trans k.dirty_eq,
    fun l hl => (h.store_eq l hl).trans (k.store_eq l hl)⟩

/-- Turning another page leaves a page as it was. -/
theorem agreesAt_turn_of_ne {c : WriteBack P L V}
    (hown : ∀ q, owner (c.map q) = q) {p q : P} (l : L) (hq : p ≠ q) :
    AgreesAt owner p (c.turn pinned q l) c := by
  refine ⟨?_, turn_live_of_ne c l hq, turn_dirty_of_ne c l hq,
    fun k hk => turn_store_of_ne c l ?_⟩
  · rw [turn_map, Function.update_of_ne hq]
  · rintro rfl
    exact hq (hk.symm.trans (hown q))

/-- What turning a page does depends on that page alone. -/
theorem AgreesAt.turn {p : P} {c d : WriteBack P L V}
    (h : AgreesAt owner p c d) {l : L} (hl : owner l = p) :
    AgreesAt owner p (c.turn pinned p l) (d.turn pinned p l) := by
  unfold WriteBack.turn
  rw [← h.map_eq]
  split
  · exact h
  · have hstore : ∀ k, owner k = p →
        (if (c.dirty p || pinned p) = true
          then Function.update c.store (c.map p) (c.live p) else c.store) k
        = (if (d.dirty p || pinned p) = true
          then Function.update d.store (c.map p) (d.live p)
          else d.store) k := by
      intro k hk
      rw [← h.dirty_eq, ← h.live_eq]
      split
      · by_cases hkm : k = c.map p
        · rw [hkm, Function.update_self, Function.update_self]
        · rw [Function.update_of_ne hkm, Function.update_of_ne hkm,
            h.store_eq k hk]
      · exact h.store_eq k hk
    refine ⟨?_, ?_, ?_, hstore⟩
    · dsimp only
      rw [Function.update_self, Function.update_self]
    · dsimp only
      rw [Function.update_self, Function.update_self]
      exact hstore l hl
    · dsimp only
      rw [← h.dirty_eq]
      split
      · rw [Function.update_self, Function.update_self]
      · exact h.dirty_eq

/-- A turned page shows a location it owns, as before. -/
theorem owner_turn_map {c : WriteBack P L V}
    (hown : ∀ q, owner (c.map q) = q) {p : P} {l : L} (hl : owner l = p)
    (q : P) : owner ((c.turn pinned p l).map q) = q := by
  rw [turn_map]
  by_cases hq : q = p
  · subst hq
    rw [Function.update_self, hl]
  · rw [Function.update_of_ne hq, hown]

/-- A page that is not among those turned is left as it was. -/
theorem agreesAt_turnAll_of_notMem {new : P → L}
    (hnew : ∀ p, owner (new p) = p) {p : P} {ps : List P} (hp : p ∉ ps)
    {c : WriteBack P L V} (hown : ∀ q, owner (c.map q) = q) :
    AgreesAt owner p (c.turnAll pinned new ps) c := by
  induction ps generalizing c with
  | nil => exact AgreesAt.refl p c
  | cons q ps ih =>
    have hpq : p ≠ q := List.ne_of_not_mem_cons hp
    exact (ih (fun h => hp (List.mem_cons_of_mem _ h))
      (owner_turn_map hown (hnew q))).trans
      (agreesAt_turn_of_ne hown (new q) hpq)

/-- **Turning many pages is turning each on its own**: at a page that is
turned once, the outcome is the outcome of turning that page alone. -/
theorem agreesAt_turnAll {new : P → L} (hnew : ∀ p, owner (new p) = p)
    {p : P} {ps : List P} (hnodup : ps.Nodup) (hp : p ∈ ps)
    {c : WriteBack P L V} (hown : ∀ q, owner (c.map q) = q) :
    AgreesAt owner p (c.turnAll pinned new ps)
      (c.turn pinned p (new p)) := by
  induction ps generalizing c with
  | nil => exact absurd hp List.not_mem_nil
  | cons q ps ih =>
    rw [List.nodup_cons] at hnodup
    by_cases hpq : p = q
    · subst hpq
      exact agreesAt_turnAll_of_notMem hnew hnodup.1
        (owner_turn_map hown (hnew p))
    · have hps : p ∈ ps := (List.mem_cons.mp hp).resolve_left hpq
      exact (ih hnodup.2 hps (owner_turn_map hown (hnew q))).trans
        ((agreesAt_turn_of_ne hown (new q) hpq).turn (hnew p))

/-! ## What is not lost

A property of what a location holds is kept, however its page is turned,
as long as it holds where it is looked for and holds of the stored copy
too where the live one would not be written back. -/

/-- **A property of a location that turning pages keeps.** -/
structure Kept (owner : L → P) (pinned : P → Bool) (Q : V → Prop) (l : L)
    (c : WriteBack P L V) : Prop where
  /-- While the location is shown its live copy has the property, and its
  stored copy has it too if the live one is not going to be stored. -/
  shown : c.map (owner l) = l → Q (c.live (owner l))
    ∧ (c.dirty (owner l) = true ∨ pinned (owner l) = true ∨ Q (c.store l))
  /-- While it is not shown its stored copy has the property. -/
  stored : c.map (owner l) ≠ l → Q (c.store l)

omit [DecidableEq P] [DecidableEq L] in
/-- Whether a property is kept depends on the location's page alone. -/
theorem Kept.congr {Q : V → Prop} {l : L} {c d : WriteBack P L V}
    (h : Kept owner pinned Q l c) (k : AgreesAt owner (owner l) d c) :
    Kept owner pinned Q l d := by
  refine ⟨fun hshown => ?_, fun hhidden => ?_⟩
  · rw [k.live_eq, k.dirty_eq, k.store_eq l rfl]
    exact h.shown (k.map_eq.symm.trans hshown)
  · rw [k.store_eq l rfl]
    exact h.stored fun he => hhidden (k.map_eq.trans he)

/-- **Turning the page keeps the property.** -/
theorem Kept.turn {Q : V → Prop} {l k : L} {c : WriteBack P L V}
    (h : Kept owner pinned Q l c) :
    Kept owner pinned Q l (c.turn pinned (owner l) k) := by
  unfold WriteBack.turn
  split
  · exact h
  · next hturn =>
    by_cases hshown : c.map (owner l) = l
    · -- the location is put away, and written back if it has to be
      obtain ⟨hlive, hback⟩ := h.shown hshown
      have hkl : l ≠ k := fun he => hturn (hshown.trans he)
      refine ⟨fun he => absurd ?_ (Ne.symm hkl), fun _ => ?_⟩
      · exact (Function.update_self (owner l) k c.map).symm.trans he
      · dsimp only
        split
        · rwa [hshown, Function.update_self]
        · next hno =>
          simp only [Bool.or_eq_true, not_or] at hno
          exact (hback.resolve_left hno.1).resolve_left hno.2
    · -- the stored copy is left alone, and brought in if it is wanted
      have hstore : Q ((if (c.dirty (owner l) || pinned (owner l)) = true
          then Function.update c.store (c.map (owner l)) (c.live (owner l))
          else c.store) l) := by
        split
        · rw [Function.update_of_ne (Ne.symm hshown)]
          exact h.stored hshown
        · exact h.stored hshown
      refine ⟨fun he => ⟨?_, .inr (.inr hstore)⟩, fun _ => hstore⟩
      have hkl : k = l :=
        (Function.update_self (owner l) k c.map).symm.trans he
      dsimp only
      rwa [Function.update_self, hkl]

/-- **What a page forgets**: the live copy of a page that would not be
written back is gone once the page has been turned away and back. -/
theorem turn_turn_live_of_clean {c : WriteBack P L V} {p : P} {l : L}
    (hd : c.dirty p = false) (hp : pinned p = false) (hl : l ≠ c.map p) :
    ((c.turn pinned p l).turn pinned p (c.map p)).live p
      = c.store (c.map p) := by
  have hfirst : c.turn pinned p l =
      { c with
        live := Function.update c.live p (c.store l)
        map := Function.update c.map p l } := by
    rw [turn, if_neg (Ne.symm hl), hd, hp]
    rfl
  have hmap : (c.turn pinned p l).map p ≠ c.map p := by
    rwa [turn_map, Function.update_self]
  rw [turn, if_neg hmap]
  dsimp only
  rw [Function.update_self, hfirst]
  dsimp only
  rw [hd, hp, Bool.or_false, if_neg Bool.false_ne_true]

end WriteBack
