import Mathlib.Tactic.Common
import Mathlib.Logic.Function.Basic

/-!
# Strings of bytes at addresses

A memory, or a file, is a function of its addresses. `pokes` lays a string
down from an address on, `peeks` takes one up, and `Holds` says that one
lies there; each comes apart where a string is made of two.
-/

namespace ByteMap

variable {α : Type*}

/-- A string laid down from an address on. -/
def pokes (m : Nat → α) (addr : Nat) (data : List α) : Nat → α := fun a =>
  if addr ≤ a then (data[a - addr]?).getD (m a) else m a

/-- The string of `n` elements from an address on. -/
def peeks (m : Nat → α) (addr n : Nat) : List α :=
  (List.range n).map fun i => m (addr + i)

/-- The string `data` lies from `addr` on. -/
def Holds (m : Nat → α) (addr : Nat) (data : List α) : Prop :=
  ∀ i, (h : i < data.length) → m (addr + i) = data[i]

/-! ## Laying down -/

section Pokes

variable (m : Nat → α) {addr a : Nat} (data : List α)

theorem pokes_of_lt (h : a < addr) : pokes m addr data a = m a :=
  if_neg (Nat.not_le.mpr h)

theorem pokes_of_ge (h : addr + data.length ≤ a) :
    pokes m addr data a = m a := by
  rw [pokes, if_pos (by omega), List.getElem?_eq_none (by omega)]
  rfl

theorem pokes_add {i : Nat} (h : i < data.length) :
    pokes m addr data (addr + i) = data[i] := by
  rw [pokes, if_pos (Nat.le_add_right addr i), Nat.add_sub_cancel_left,
    List.getElem?_eq_getElem h]
  rfl

theorem pokes_nil (addr : Nat) : pokes m addr [] = m := by
  funext a
  by_cases h : a < addr
  · exact pokes_of_lt m [] h
  · exact pokes_of_ge m [] (by simpa using h)

/-- Laying down one element. -/
theorem pokes_singleton (addr : Nat) (v : α) :
    pokes m addr [v] = Function.update m addr v := by
  funext a
  by_cases hlt : a < addr
  · rw [pokes_of_lt _ _ hlt, Function.update_of_ne (Nat.ne_of_lt hlt)]
  · by_cases heq : a = addr
    · subst heq
      rw [Function.update_self]
      exact pokes_add m [v] (i := 0) Nat.one_pos
    · rw [Function.update_of_ne heq]
      refine pokes_of_ge m [v] ?_
      rw [List.length_singleton]
      omega

/-- Laying down two strings after one another is laying down both. -/
theorem pokes_append (addr : Nat) (data' : List α) :
    pokes m addr (data ++ data')
      = pokes (pokes m addr data) (addr + data.length) data' := by
  funext a
  by_cases hlt : a < addr
  · rw [pokes_of_lt _ _ hlt, pokes_of_lt _ _ (by omega),
      pokes_of_lt _ _ hlt]
  by_cases hmid : a < addr + data.length
  · obtain ⟨i, rfl⟩ := Nat.le.dest (Nat.not_lt.mp hlt)
    rw [pokes_of_lt _ _ hmid, pokes_add m (data ++ data') (by
        rw [List.length_append]; omega),
      pokes_add m data (by omega), List.getElem_append_left]
  by_cases hend : a < addr + data.length + data'.length
  · obtain ⟨i, rfl⟩ := Nat.le.dest (Nat.not_lt.mp hmid)
    rw [pokes_add _ data' (by omega), Nat.add_assoc addr,
      pokes_add m (data ++ data') (by rw [List.length_append]; omega),
      List.getElem_append_right (by omega)]
    congr 1
    omega
  · rw [pokes_of_ge _ _ (by rw [List.length_append]; omega),
      pokes_of_ge _ _ (by omega), pokes_of_ge _ _ (by omega)]

/-- What is laid down lies there. -/
theorem holds_pokes (addr : Nat) : Holds (pokes m addr data) addr data :=
  fun _ h => pokes_add m data h

end Pokes

/-! ## Taking up -/

section Peeks

variable {m m' : Nat → α} {addr : Nat}

@[simp] theorem length_peeks (m : Nat → α) (addr n : Nat) :
    (peeks m addr n).length = n := by
  rw [peeks, List.length_map, List.length_range]

theorem getElem_peeks (m : Nat → α) (addr n : Nat) {i : Nat}
    (h : i < (peeks m addr n).length) : (peeks m addr n)[i] = m (addr + i) := by
  simp only [peeks, List.getElem_map, List.getElem_range]

/-- A string is taken up from its own addresses only. -/
theorem peeks_congr {n : Nat}
    (h : ∀ a, addr ≤ a → a < addr + n → m' a = m a) :
    peeks m' addr n = peeks m addr n :=
  List.map_congr_left fun i hi => h (addr + i) (Nat.le_add_right _ _)
    (Nat.add_lt_add_left (List.mem_range.mp hi) _)

/-- Two strings one after the other are taken up as one. -/
theorem peeks_append (m : Nat → α) (addr n n' : Nat) :
    peeks m addr n ++ peeks m (addr + n) n' = peeks m addr (n + n') := by
  rw [peeks, peeks, peeks, List.range_add, List.map_append, List.map_map]
  simp only [Nat.add_assoc]
  rfl

theorem peeks_succ (m : Nat → α) (addr n : Nat) :
    peeks m addr (n + 1) = m addr :: peeks m (addr + 1) n := by
  rw [Nat.add_comm, ← peeks_append]
  rfl

end Peeks

/-! ## Strings that lie in memory -/

section Holds

variable {m m' : Nat → α} {addr : Nat} {data data' : List α}

theorem holds_append :
    Holds m addr (data ++ data')
      ↔ Holds m addr data ∧ Holds m (addr + data.length) data' := by
  constructor
  · intro h
    constructor
    · intro i hi
      rw [h i (by rw [List.length_append]; omega),
        List.getElem_append_left hi]
    · intro i hi
      rw [Nat.add_assoc, h (data.length + i) (by
          rw [List.length_append]; omega),
        List.getElem_append_right (Nat.le_add_right _ _)]
      simp only [Nat.add_sub_cancel_left]
  · rintro ⟨h, h'⟩ i hi
    rw [List.length_append] at hi
    by_cases hlt : i < data.length
    · rw [List.getElem_append_left hlt, h i hlt]
    · obtain ⟨j, rfl⟩ := Nat.le.dest (Nat.not_lt.mp hlt)
      rw [List.getElem_append_right (Nat.le_add_right _ _), ← Nat.add_assoc,
        h' j (by omega)]
      simp only [Nat.add_sub_cancel_left]

/-- What lies there is what is taken up. -/
theorem holds_iff_peeks : Holds m addr data
    ↔ peeks m addr data.length = data := by
  constructor
  · intro h
    refine List.ext_getElem (length_peeks _ _ _) fun i _ hi => ?_
    rw [getElem_peeks]
    exact h i hi
  · intro h i hi
    have hi' : i < (peeks m addr data.length).length := by
      rwa [length_peeks]
    rw [← getElem_peeks m addr data.length hi']
    simp only [h]

/-- Two memories that hold the same string agree on it. -/
theorem Holds.eq_of_holds (h : Holds m addr data) (h' : Holds m' addr data)
    {a : Nat} (hlo : addr ≤ a) (hhi : a < addr + data.length) :
    m' a = m a := by
  obtain ⟨i, rfl⟩ := Nat.le.dest hlo
  have hi : i < data.length := by omega
  rw [h i hi, h' i hi]

/-- A string that lies in one memory lies in every one that agrees on
it. -/
theorem Holds.congr (h : Holds m addr data)
    (hsame : ∀ a, addr ≤ a → a < addr + data.length → m' a = m a) :
    Holds m' addr data := fun i hi =>
  (hsame (addr + i) (Nat.le_add_right _ _)
    (Nat.add_lt_add_left hi _)).trans (h i hi)

end Holds

end ByteMap
