import Mathlib

/-! # Maps

`Map` of the language, with keys of any type that has equality. What is modelled here reads
a map by its keys, by its size and by what all or some of its values satisfy, and none of
that depends on the order of the entries; so Mathlib's association lists serve.
-/

namespace Hookemon.Js

universe u v

/-- `Map`. -/
def Map (κ : Type u) (α : Type v) : Type (max u v) := AList fun _ : κ => α

namespace Map

variable {κ : Type u} {α : Type v}

/-- `new Map()`. -/
def empty : Map κ α := (∅ : AList fun _ : κ => α)

/-- `map.size`. -/
def size (m : Map κ α) : Nat := m.entries.length

/-- `[...map.values()]`. -/
def values (m : Map κ α) : List α := m.entries.map Sigma.snd

/-- The sum of an amount over the values. -/
def total (f : α → Nat) (m : Map κ α) : Nat := (m.values.map f).sum

@[simp] theorem values_empty : (empty : Map κ α).values = [] := rfl

@[simp] theorem total_empty (f : α → Nat) : (empty : Map κ α).total f = 0 := rfl

variable [DecidableEq κ]

/-- `map.get(key)`. -/
def get (m : Map κ α) (key : κ) : Option α := AList.lookup key m

/-- `map.set(key, value)`. -/
def set (m : Map κ α) (key : κ) (value : α) : Map κ α := AList.insert key value m

/-- `map.delete(key)`. -/
def delete (m : Map κ α) (key : κ) : Map κ α := AList.erase key m

@[simp] theorem get_empty (key : κ) : (empty : Map κ α).get key = none := AList.lookup_empty key

@[simp] theorem get_set (m : Map κ α) (key k : κ) (value : α) :
    (m.set key value).get k = if k = key then some value else m.get k := by
  by_cases hk : k = key
  · subst hk
    rw [if_pos rfl]
    exact AList.lookup_insert m
  · rw [if_neg hk]
    exact AList.lookup_insert_ne hk

@[simp] theorem get_delete (m : Map κ α) (key k : κ) :
    (m.delete key).get k = if k = key then none else m.get k := by
  by_cases hk : k = key
  · subst hk
    rw [if_pos rfl]
    exact AList.lookup_erase k m
  · rw [if_neg hk]
    exact AList.lookup_erase_ne hk

theorem get_set_eq_some {m : Map κ α} {key k : κ} {value v : α} :
    (m.set key value).get k = some v ↔ (k = key ∧ value = v) ∨ (k ≠ key ∧ m.get k = some v) := by
  by_cases hk : k = key <;> simp [hk]

theorem get_delete_eq_some {m : Map κ α} {key k : κ} {v : α} :
    (m.delete key).get k = some v ↔ k ≠ key ∧ m.get k = some v := by
  by_cases hk : k = key <;> simp [hk]

/-- What a new key does not replace is kept. -/
theorem get_set_of_new {m : Map κ α} {key k : κ} {v : α} (hnew : m.get key = none)
    (h : m.get k = some v) (value : α) : (m.set key value).get k = some v := by
  refine get_set_eq_some.mpr (.inr ⟨?_, h⟩)
  rintro rfl
  rw [hnew] at h
  cases h

/-- A value that is only set where there is none. -/
theorem get_set_missing (m : Map κ α) (key k : κ) (value : α) :
    (if (m.get key).isSome then m else m.set key value).get k
      = (m.get k).or (if k = key then some value else none) := by
  by_cases hk : k = key
  · subst hk
    cases hget : m.get k <;> simp [hget]
  · split <;> simp [hk]

theorem mem_values {m : Map κ α} {value : α} :
    value ∈ m.values ↔ ∃ key, m.get key = some value := by
  rw [values, List.mem_map]
  constructor
  · rintro ⟨⟨key, v⟩, hmem, rfl⟩
    exact ⟨key, AList.mem_lookup_iff.mpr hmem⟩
  · rintro ⟨key, hkey⟩
    exact ⟨⟨key, value⟩, AList.mem_lookup_iff.mp hkey, rfl⟩

theorem get_eq_none {m : Map κ α} {key : κ} : m.get key = none ↔ key ∉ m.entries.keys :=
  AList.lookup_eq_none

/-- Nothing is in a map of size zero. -/
theorem get_of_size_eq_zero {m : Map κ α} (h : m.size = 0) (key : κ) : m.get key = none := by
  have hentries : m.entries = [] := List.eq_nil_of_length_eq_zero h
  rw [get_eq_none, hentries]
  exact List.not_mem_nil

/-- A new key brings its own amount. -/
theorem total_set {m : Map κ α} {key : κ} (h : m.get key = none) (f : α → Nat) (value : α) :
    (m.set key value).total f = f value + m.total f := by
  have hentries : (m.set key value).entries = ⟨key, value⟩ :: m.entries :=
    AList.entries_insert_of_notMem (get_eq_none.mp h)
  simp [total, values, hentries]

/-- A key that goes takes its amount along. -/
theorem total_delete {m : Map κ α} {key : κ} {value : α} (h : m.get key = some value)
    (f : α → Nat) : f value + (m.delete key).total f = m.total f := by
  have hmem : (⟨key, value⟩ : Sigma fun _ : κ => α) ∈ m.entries := AList.mem_lookup_iff.mp h
  have hkeys : key ∈ m.entries.keys := List.mem_keys_of_mem hmem
  rcases List.exists_of_kerase hkeys with ⟨v, before, after, -, hentries, hrest⟩
  have hvalue : v = value := by
    have hget : m.get key = some v :=
      AList.mem_lookup_iff.mpr (hentries ▸ List.mem_append_right before List.mem_cons_self)
    exact Option.some.inj (hget.symm.trans h)
  have hdelete : (m.delete key).entries = before ++ after := hrest
  simp only [total, values, hdelete, hentries, List.map_append, List.map_cons, List.sum_append,
    List.sum_cons, hvalue]
  omega

/-- No key, no amount. -/
theorem total_eq_zero {m : Map κ α} (h : ∀ key, m.get key = none) (f : α → Nat) :
    m.total f = 0 := by
  have hvalues : m.values = [] := by
    rw [List.eq_nil_iff_forall_not_mem]
    intro value hmem
    rcases mem_values.mp hmem with ⟨key, hkey⟩
    rw [h key] at hkey
    cases hkey
  rw [total, hvalues]
  rfl

end Map

end Hookemon.Js
