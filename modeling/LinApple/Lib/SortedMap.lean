import Mathlib.Order.Defs.LinearOrder
import Mathlib.Data.List.Pairwise
import Mathlib.Order.Lattice

/-!
# Maps that are walked in the order of their keys

A map is the list of its entries, its keys in increasing order. What is walked is the first entry
whose value has a property (`SortedMap.first`): the one with the least key (`first_eq_some_iff`).
-/

/-- **A map, as the list of its entries in the order of their keys.** -/
structure SortedMap (K V : Type*) [LinearOrder K] where
  /-- The entries. -/
  entries : List (K × V)
  /-- The keys increase. -/
  sorted : entries.Pairwise (fun a b => a.1 < b.1)

namespace SortedMap

variable {K V : Type*} [LinearOrder K]

instance [DecidableEq V] : DecidableEq (SortedMap K V) := fun m m' =>
  decidable_of_iff (m.entries = m'.entries) (by cases m; cases m'; simp)

/-- The map without entries. -/
def empty : SortedMap K V := ⟨[], .nil⟩

/-- The map has no entries. -/
def isEmpty (m : SortedMap K V) : Bool := m.entries.isEmpty

/-- **The key of the first entry whose value has a property.** -/
def first (m : SortedMap K V) (p : V → Bool) : Option K :=
  (m.entries.find? fun e => p e.2).map (·.1)

/-- The entries, with a value put at a key. -/
def insertEntries (key : K) (value : V) : List (K × V) → List (K × V)
  | [] => [(key, value)]
  | e :: entries =>
    if key < e.1 then (key, value) :: e :: entries
    else if key = e.1 then (key, value) :: entries
    else e :: insertEntries key value entries

/-- What lies where after a value was put at a key. -/
theorem mem_insertEntries {key : K} {value : V} {entries : List (K × V)}
    (hsorted : entries.Pairwise (fun a b => a.1 < b.1)) {e : K × V} :
    e ∈ insertEntries key value entries ↔ e = (key, value) ∨ e ∈ entries ∧ e.1 ≠ key := by
  induction entries with
  | nil => simp [insertEntries]
  | cons e' entries ih =>
    obtain ⟨hhead, htail⟩ := List.pairwise_cons.1 hsorted
    unfold insertEntries
    by_cases hlt : key < e'.1
    · have hne : ∀ x ∈ e' :: entries, x.1 ≠ key := by
        intro x hx
        rcases List.mem_cons.1 hx with rfl | hx
        · exact ne_of_gt hlt
        · exact ne_of_gt (lt_trans hlt (hhead x hx))
      rw [if_pos hlt, List.mem_cons]
      exact or_congr_right ⟨fun h => ⟨h, hne e h⟩, fun h => h.1⟩
    · rw [if_neg hlt]
      by_cases heq : key = e'.1
      · subst heq
        have hne : ∀ x ∈ entries, x.1 ≠ e'.1 := fun x hx => ne_of_gt (hhead x hx)
        rw [if_pos rfl, List.mem_cons, List.mem_cons]
        refine or_congr_right ⟨fun h => ⟨.inr h, hne e h⟩, fun ⟨h, hkey⟩ => ?_⟩
        exact h.resolve_left fun he => hkey (by rw [he])
      · rw [if_neg heq, List.mem_cons, List.mem_cons, ih htail]
        constructor
        · rintro (rfl | h | ⟨h, hkey⟩)
          · exact .inr ⟨.inl rfl, fun h => heq h.symm⟩
          · exact .inl h
          · exact .inr ⟨.inr h, hkey⟩
        · rintro (h | ⟨rfl | h, hkey⟩)
          · exact .inr (.inl h)
          · exact .inl rfl
          · exact .inr (.inr ⟨h, hkey⟩)

theorem sorted_insertEntries (key : K) (value : V) {entries : List (K × V)}
    (hsorted : entries.Pairwise (fun a b => a.1 < b.1)) :
    (insertEntries key value entries).Pairwise (fun a b => a.1 < b.1) := by
  induction entries with
  | nil => exact List.pairwise_singleton ..
  | cons e entries ih =>
    obtain ⟨hhead, htail⟩ := List.pairwise_cons.1 hsorted
    unfold insertEntries
    by_cases hlt : key < e.1
    · rw [if_pos hlt]
      refine List.pairwise_cons.2 ⟨fun x hx => ?_, hsorted⟩
      rcases List.mem_cons.1 hx with rfl | hx
      · exact hlt
      · exact lt_trans hlt (hhead x hx)
    · rw [if_neg hlt]
      by_cases heq : key = e.1
      · subst heq
        rw [if_pos rfl]
        exact List.pairwise_cons.2 ⟨hhead, htail⟩
      · rw [if_neg heq]
        refine List.pairwise_cons.2 ⟨fun x hx => ?_, ih htail⟩
        rcases (mem_insertEntries htail).1 hx with rfl | ⟨hx, -⟩
        · exact lt_of_le_of_ne (not_lt.1 hlt) (Ne.symm heq)
        · exact hhead x hx

/-- **A value is put at a key**, in the place of what lies there. -/
def insert (m : SortedMap K V) (key : K) (value : V) : SortedMap K V :=
  ⟨insertEntries key value m.entries, sorted_insertEntries key value m.sorted⟩

/-- **The entry of a key is taken out.** -/
def erase (m : SortedMap K V) (key : K) : SortedMap K V :=
  ⟨m.entries.filter fun e => e.1 ≠ key, m.sorted.filter _⟩

variable {m : SortedMap K V} {key : K} {value : V}

@[simp] theorem mem_insert {e : K × V} :
    e ∈ (m.insert key value).entries ↔ e = (key, value) ∨ e ∈ m.entries ∧ e.1 ≠ key :=
  mem_insertEntries m.sorted

@[simp] theorem mem_erase {e : K × V} :
    e ∈ (m.erase key).entries ↔ e ∈ m.entries ∧ e.1 ≠ key := by
  simp [erase]

/-- **A key has one value.** -/
theorem value_unique {v v' : V} (h : (key, v) ∈ m.entries) (h' : (key, v') ∈ m.entries) :
    v = v' := by
  obtain ⟨entries, hsorted⟩ := m
  dsimp only at h h'
  induction entries with
  | nil => exact nomatch h
  | cons e entries ih =>
    obtain ⟨hhead, htail⟩ := List.pairwise_cons.1 hsorted
    rcases List.mem_cons.1 h with rfl | hmem
    · rcases List.mem_cons.1 h' with heq | hmem'
      · exact (Prod.mk.inj heq).2.symm
      · exact absurd (hhead _ hmem') (lt_irrefl _)
    · rcases List.mem_cons.1 h' with rfl | hmem'
      · exact absurd (hhead _ hmem) (lt_irrefl _)
      · exact ih htail hmem hmem'

theorem le_of_find? {p : K × V → Bool} {e : K × V} (hfind : m.entries.find? p = some e) :
    ∀ e' ∈ m.entries, p e' → e.1 ≤ e'.1 := by
  intro e' hmem hp
  obtain ⟨-, before, after, hentries, hbefore⟩ := List.find?_eq_some_iff_append.1 hfind
  have hsorted := hentries ▸ m.sorted
  rw [hentries, List.mem_append, List.mem_cons] at hmem
  rcases hmem with hmem | rfl | hmem
  · have hnot := hbefore e' hmem
    rw [hp] at hnot
    exact absurd hnot (by decide)
  · exact le_refl _
  · exact le_of_lt ((List.pairwise_cons.1 (List.pairwise_append.1 hsorted).2.1).1 e' hmem)

/-- **The least key** of those whose values have the property. -/
theorem first_eq_some_iff {p : V → Bool} :
    m.first p = some key ↔ (∃ value, (key, value) ∈ m.entries ∧ p value)
      ∧ ∀ e ∈ m.entries, p e.2 → key ≤ e.1 := by
  unfold first
  rw [Option.map_eq_some_iff]
  constructor
  · rintro ⟨e, hfind, rfl⟩
    have hp : p e.2 = true := by simpa using List.find?_some hfind
    exact ⟨⟨e.2, List.mem_of_find?_eq_some hfind, hp⟩, le_of_find? hfind⟩
  · rintro ⟨⟨value, hmem, hp⟩, hleast⟩
    have hisSome : (m.entries.find? fun e => p e.2).isSome := by
      rw [List.find?_isSome]
      exact ⟨(key, value), hmem, hp⟩
    obtain ⟨e, hfind⟩ := Option.isSome_iff_exists.1 hisSome
    have hp' : p e.2 = true := by simpa using List.find?_some hfind
    have hle : key ≤ e.1 := hleast e (List.mem_of_find?_eq_some hfind) hp'
    exact ⟨e, hfind, le_antisymm (le_of_find? hfind (key, value) hmem hp) hle⟩

theorem first_eq_none_iff {p : V → Bool} :
    m.first p = none ↔ ∀ e ∈ m.entries, ¬ p e.2 := by
  rw [first, Option.map_eq_none_iff, List.find?_eq_none]

end SortedMap
