import Mathlib.Logic.Function.Basic
import Mathlib.Tactic.Common

/-!
# A value kept with its key

What is computed from an entry of a store is kept together with the key of the entry, and
computed again only for another key (`Keyed.load`). What is kept is that of the entry as it
was when it was loaded, which `Keyed.Holds` states: it need not be that of the entry as it is.
-/

/-- **A value and the key it was computed for**, if it was computed at all. -/
structure Keyed (K W : Type*) where
  key : Option K
  value : W

namespace Keyed

variable {K V W : Type*} [DecidableEq K] (compute : V → W)

/-- **The value for a key**, computed only if the key is another one. -/
def load (c : Keyed K W) (k : K) (v : V) : Keyed K W :=
  if c.key = some k then c else ⟨some k, compute v⟩

variable {compute} {c : Keyed K W} {k : K} {v : V}

@[simp] theorem load_key : (c.load compute k v).key = some k := by
  unfold load
  split
  · assumption
  · rfl

/-- What has been loaded is not loaded again. -/
@[simp] theorem load_load (v' : V) : (c.load compute k v).load compute k v' = c.load compute k v :=
  if_pos load_key

/-- **What is kept is of an entry that was loaded**: its key, and what the entry was. -/
def Holds (compute : V → W) (c : Keyed K W) (loaded : Option (K × V)) : Prop :=
  c.key = loaded.map Prod.fst ∧ ∀ e ∈ loaded, c.value = compute e.2

/-- The entry that is loaded afterwards. -/
def reload (loaded : Option (K × V)) (k : K) (v : V) : Option (K × V) :=
  if loaded.map Prod.fst = some k then loaded else some (k, v)

/-- **Loading keeps what is kept.** -/
theorem Holds.load {loaded : Option (K × V)} (h : c.Holds compute loaded) (k : K) (v : V) :
    (c.load compute k v).Holds compute (reload loaded k v) := by
  obtain ⟨hkey, hvalue⟩ := h
  unfold Keyed.load reload
  rw [hkey]
  split
  · exact ⟨hkey, hvalue⟩
  · exact ⟨rfl, fun e he => by rw [← Option.some.inj he]⟩

/-- The value after loading is that of the entry that is loaded afterwards. -/
theorem Holds.load_value {loaded : Option (K × V)} (h : c.Holds compute loaded) (k : K) (v : V) :
    ∃ e, reload loaded k v = some e ∧ e.1 = k ∧ (c.load compute k v).value = compute e.2 := by
  obtain ⟨hkey, hvalue⟩ := h.load k v
  rw [load_key] at hkey
  obtain ⟨e, he, hfst⟩ := Option.map_eq_some_iff.1 hkey.symm
  exact ⟨e, he, hfst, hvalue e he⟩

end Keyed
