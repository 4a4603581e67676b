import LinApple.Lib.Machine
import Mathlib.Data.List.Forall2

/-!
# Queues, and the rings that keep them

A queue takes values in at one end and gives them out, or drops them, at the other. What has gone
in is what has come out and what is left, in that order (`Fifo.Serves.accepted_eq`), so what was
taken is a part of what was put in, in its order.

A ring keeps a queue in the cells from a start on, around the end. The cells in use are found by
their distance from the start (`Circular.slot`), and a machine that shows the events of a queue while
its ring keeps it is a queue (`Fifo.serves_of_simulation`).
-/

/-! ## Queues -/

namespace Fifo

variable {α : Type*}

/-- **What happens to a queue.** -/
inductive Event (α : Type*) where
  /-- Values go in, at the end. -/
  | accept (xs : List α)
  /-- Values come out, from the front. -/
  | take (xs : List α)
  /-- Values are dropped from the front. -/
  | drop (xs : List α)
  /-- All the values are dropped. -/
  | clear (xs : List α)

/-- **An event of a queue**, and what the queue is then. -/
inductive Step : List α → Event α → List α → Prop
  /-- There is always room. -/
  | accept (q xs : List α) : Step q (.accept xs) (q ++ xs)
  /-- What comes out was in front. -/
  | take (xs q : List α) : Step (xs ++ q) (.take xs) q
  /-- So was what is dropped. -/
  | drop (xs q : List α) : Step (xs ++ q) (.drop xs) q
  /-- Nothing is left. -/
  | clear (xs : List α) : Step xs (.clear xs) []

/-- **The events of a queue**, one after another. -/
def Serves : List α → List (Event α) → List α → Prop
  | q, [], q' => q = q'
  | q, e :: es, q' => ∃ m, Step q e m ∧ Serves m es q'

/-- What goes in at an event. -/
def Event.accepted : Event α → List α
  | .accept xs => xs
  | _ => []

/-- What comes out at an event. -/
def Event.taken : Event α → List α
  | .take xs => xs
  | _ => []

/-- What leaves the queue at an event. -/
def Event.gone : Event α → List α
  | .accept _ => []
  | .take xs => xs
  | .drop xs => xs
  | .clear xs => xs

variable {q q' m : List α} {e : Event α} {es : List (Event α)}

/-- An event moves values in at the end and out in front. -/
theorem Step.accepted_eq (h : Step q e m) : q ++ e.accepted = e.gone ++ m := by
  cases h with
  | accept q xs => rfl
  | take xs q => exact List.append_nil _
  | drop xs q => exact List.append_nil _
  | clear xs => rfl

theorem Event.taken_sublist (e : Event α) : e.taken.Sublist e.gone := by
  cases e with
  | accept xs => exact List.Sublist.refl []
  | take xs => exact List.Sublist.refl xs
  | drop xs => exact List.nil_sublist xs
  | clear xs => exact List.nil_sublist xs

/-- **What has gone in is what has left and what is there**, in this order. -/
theorem Serves.accepted_eq (h : Serves q es q') :
    q ++ es.flatMap Event.accepted = es.flatMap Event.gone ++ q' := by
  induction es generalizing q with
  | nil =>
    obtain rfl : q = q' := h
    exact List.append_nil q
  | cons e es ih =>
    obtain ⟨m, hstep, hrest⟩ := h
    rw [List.flatMap_cons, List.flatMap_cons, ← List.append_assoc, hstep.accepted_eq,
      List.append_assoc, ih hrest, List.append_assoc]

/-- **What comes out went in**, in the same order. -/
theorem Serves.taken_sublist (h : Serves q es q') :
    (es.flatMap Event.taken).Sublist (q ++ es.flatMap Event.accepted) := by
  rw [h.accepted_eq]
  refine List.Sublist.trans ?_ (List.sublist_append_left _ q')
  clear h
  induction es with
  | nil => exact List.Sublist.refl []
  | cons e es ih =>
    rw [List.flatMap_cons, List.flatMap_cons]
    exact e.taken_sublist.append ih

/-- Events of a queue may be taken in two parts. -/
theorem Serves.append {es' : List (Event α)} (h : Serves q es m) (h' : Serves m es' q') :
    Serves q (es ++ es') q' := by
  induction es generalizing q with
  | nil =>
    obtain rfl : q = m := h
    exact h'
  | cons e es ih =>
    obtain ⟨r, hstep, hrest⟩ := h
    exact ⟨r, hstep, ih hrest⟩

/-- **The rule for machines that are queues**: where a relation to a queue is kept by every
allowed action, and the action shows what happens to the queue or leaves it alone, a run shows
what happens to a queue. What is shown may tell of no event, or of several. -/
theorem serves_of_simulation {S A O : Type*} (M : Machine S A O) {R : S → List α → Prop}
    {Told : O → List (Event α) → Prop} {P : A → Prop}
    (hstep : ∀ s q a, R s q → P a → ∃ ess q', List.Forall₂ Told (M.out s a).toList ess
      ∧ Serves q ess.flatten q' ∧ R (M.next s a) q')
    {s : S} (hs : R s q) {as : List A} (has : ∀ a ∈ as, P a) :
    ∃ ess q', List.Forall₂ Told (M.shows s as) ess ∧ Serves q ess.flatten q'
      ∧ R (M.run s as) q' := by
  induction as generalizing s q with
  | nil => exact ⟨[], q, .nil, rfl, hs⟩
  | cons a as ih =>
    obtain ⟨ess, m, htold, hserves, hm⟩ := hstep s q a hs (has a (List.mem_cons_self ..))
    obtain ⟨ess', q', htold', hserves', hq'⟩ :=
      ih hm fun b hb => has b (List.mem_cons_of_mem _ hb)
    refine ⟨ess ++ ess', q', List.rel_append htold htold', ?_, hq'⟩
    rw [List.flatten_append]
    exact hserves.append hserves'

end Fifo

/-! ## Rings -/

namespace Circular

/-- **The cell at a distance from the start**, around the end. -/
def slot (size start i : Nat) : Nat := (start + i) % size

variable {size start i j n : Nat}

/-- Around the end at most once. -/
theorem slot_eq (hstart : start < size) (hi : i ≤ size) :
    slot size start i = if start + i < size then start + i else start + i - size := by
  unfold slot
  split_ifs with hlt
  · exact Nat.mod_eq_of_lt hlt
  · rw [Nat.mod_eq_sub_mod (Nat.le_of_not_lt hlt), Nat.mod_eq_of_lt (by omega)]

theorem slot_lt (h : 0 < size) : slot size start i < size := Nat.mod_lt _ h

@[simp] theorem slot_zero (hstart : start < size) : slot size start 0 = start :=
  Nat.mod_eq_of_lt hstart

/-- From a cell on. -/
theorem slot_slot : slot size (slot size start i) j = slot size start (i + j) := by
  rw [slot, slot, slot, Nat.mod_add_mod, Nat.add_assoc]

/-- **Different distances are different cells**, within a turn. -/
theorem slot_ne (hstart : start < size) (hi : i < size) (hj : j < size) (hne : i ≠ j) :
    slot size start i ≠ slot size start j := by
  rw [slot_eq hstart (Nat.le_of_lt hi), slot_eq hstart (Nat.le_of_lt hj)]
  split_ifs <;> omega

/-- **The distance from a cell to another**, if the ring is not full. -/
theorem distance_eq (hstart : start < size) (hn : n < size) :
    (if start ≤ slot size start n then slot size start n - start
      else size + slot size start n - start) = n := by
  rw [slot_eq hstart (Nat.le_of_lt hn)]
  split_ifs <;> omega

/-- **The ring keeps a queue**, from a start on. -/
def Keeps {α : Type*} (cells : List α) (start : Nat) (q : List α) : Prop :=
  ∀ i, i < q.length → cells[slot cells.length start i]? = q[i]?

variable {α : Type*} {cells cells' : List α} {q xs : List α}

theorem Keeps.nil (cells : List α) (start : Nat) : Keeps cells start [] :=
  fun _ h => absurd h (Nat.not_lt_zero _)

/-- **Values that go** leave the rest where it is. -/
theorem Keeps.drop (h : Keeps cells start (xs ++ q)) :
    Keeps cells (slot cells.length start xs.length) q := by
  intro i hi
  rw [slot_slot, h _ (by rw [List.length_append]; omega),
    List.getElem?_append_right (Nat.le_add_right _ _), Nat.add_sub_cancel_left]

/-- **Values that are written behind the queue** become part of it. -/
theorem Keeps.append (h : Keeps cells start q)
    (hxs : Keeps cells (slot cells.length start q.length) xs) : Keeps cells start (q ++ xs) := by
  intro i hi
  rw [List.length_append] at hi
  by_cases hlt : i < q.length
  · rw [h i hlt, List.getElem?_append_left hlt]
  · have hget := hxs (i - q.length) (by omega)
    rw [slot_slot, Nat.add_sub_cancel' (Nat.le_of_not_lt hlt)] at hget
    rw [hget, List.getElem?_append_right (Nat.le_of_not_lt hlt)]

/-- **A cell that is not in use may be written.** -/
theorem Keeps.set (h : Keeps cells start q) {at' : Nat}
    (hfree : ∀ i, i < q.length → slot cells.length start i ≠ at') (x : α) :
    Keeps (cells.set at' x) start q := by
  intro i hi
  rw [List.length_set, List.getElem?_set_ne (hfree i hi).symm, h i hi]

/-- What is in front comes first. -/
theorem Keeps.take (h : Keeps cells start q) (n : Nat) : Keeps cells start (q.take n) := by
  intro i hi
  rw [List.length_take] at hi
  rw [h i (by omega), List.getElem?_take_of_lt (by omega)]

end Circular
