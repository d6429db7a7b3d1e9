import Hookemon.Js.Text

/-! # Plain objects as maps

An object that a program uses as a map from strings to values of one kind. Its
properties keep the order in which they were first set, and no key occurs twice.
-/

namespace Hookemon.Js

structure Record (α : Type) where
  entries : List (Text × α)
  distinct : (entries.map Prod.fst).Nodup
deriving DecidableEq, Repr

namespace Record

variable {α : Type}

/-- `{}`. -/
def empty : Record α := ⟨[], List.nodup_nil⟩

/-- `record[key]`, of own properties. -/
def find (r : Record α) (key : Text) : Option α := r.entries.lookup key

/-- The properties after `record[key] = value`. -/
def setEntries (key : Text) (value : α) : List (Text × α) → List (Text × α)
  | [] => [(key, value)]
  | entry :: rest =>
    if entry.1 = key then (key, value) :: rest else entry :: setEntries key value rest

theorem mem_keys_setEntries {key k : Text} {value : α} {entries : List (Text × α)} :
    k ∈ (setEntries key value entries).map Prod.fst ↔ k = key ∨ k ∈ entries.map Prod.fst := by
  induction entries with
  | nil => simp [setEntries]
  | cons entry rest ih =>
    by_cases hkey : entry.1 = key
    · simp [setEntries, hkey]
    · simp only [setEntries, hkey, if_false, List.map_cons, List.mem_cons, ih]
      tauto

theorem nodup_setEntries {key : Text} {value : α} {entries : List (Text × α)}
    (h : (entries.map Prod.fst).Nodup) : ((setEntries key value entries).map Prod.fst).Nodup := by
  induction entries with
  | nil => simp [setEntries]
  | cons entry rest ih =>
    rw [List.map_cons, List.nodup_cons] at h
    by_cases hkey : entry.1 = key
    · simp only [setEntries, hkey, if_true, List.map_cons, List.nodup_cons]
      exact ⟨hkey ▸ h.1, h.2⟩
    · simp only [setEntries, hkey, if_false, List.map_cons, List.nodup_cons]
      refine ⟨?_, ih h.2⟩
      intro hmem
      rcases mem_keys_setEntries.mp hmem with heq | hrest
      · exact hkey heq
      · exact h.1 hrest

/-- `record[key] = value`, and `{ ...record, [key]: value }`. -/
def set (r : Record α) (key : Text) (value : α) : Record α where
  entries := setEntries key value r.entries
  distinct := nodup_setEntries r.distinct

theorem find_eq_none {r : Record α} {key : Text} :
    r.find key = none ↔ key ∉ r.entries.map Prod.fst := by
  rw [find, List.lookup_eq_none_iff, List.mem_map]
  constructor
  · rintro h ⟨entry, hentry, heq⟩
    have hne := h entry hentry
    simp [heq] at hne
  · intro h entry hentry
    have hne : key ≠ entry.1 := fun heq => h ⟨entry, hentry, heq.symm⟩
    simpa using hne

theorem mem_of_find {r : Record α} {key : Text} {value : α} (h : r.find key = some value) :
    (key, value) ∈ r.entries := by
  rcases List.lookup_eq_some_iff.mp h with ⟨before, after, hentries, -⟩
  rw [hentries]
  exact List.mem_append_right before List.mem_cons_self

theorem setEntries_of_not_mem {key : Text} {value : α} {entries : List (Text × α)}
    (h : key ∉ entries.map Prod.fst) : setEntries key value entries = entries ++ [(key, value)] := by
  induction entries with
  | nil => rfl
  | cons entry rest ih =>
    rw [List.map_cons, List.mem_cons, not_or] at h
    have hkey : entry.1 ≠ key := fun heq => h.1 heq.symm
    simp [setEntries, hkey, ih h.2]

theorem mem_iff_find {r : Record α} {key : Text} {value : α} :
    (key, value) ∈ r.entries ↔ r.find key = some value := by
  constructor
  · intro hmem
    obtain ⟨before, after, hentries⟩ := List.append_of_mem hmem
    refine List.lookup_eq_some_iff.mpr ⟨before, after, hentries, ?_⟩
    have hdistinct := r.distinct
    rw [hentries, List.map_append, List.map_cons, List.nodup_middle, List.nodup_cons,
      List.mem_append, not_or] at hdistinct
    intro entry hentry
    have hne : key ≠ entry.1 := by
      intro heq
      exact hdistinct.1.1 (heq ▸ List.mem_map.mpr ⟨entry, hentry, rfl⟩)
    simpa using hne
  · exact mem_of_find

theorem lookup_setEntries (key k : Text) (value : α) (entries : List (Text × α)) :
    (setEntries key value entries).lookup k = if k = key then some value else entries.lookup k := by
  induction entries with
  | nil =>
    by_cases hk : k = key
    · simp [setEntries, hk]
    · have hne : (k == key) = false := beq_eq_false_iff_ne.mpr hk
      simp [setEntries, List.lookup_cons, hk, hne]
  | cons entry rest ih =>
    obtain ⟨entryKey, v⟩ := entry
    by_cases hentry : entryKey = key
    · rw [setEntries, if_pos hentry, List.lookup_cons, List.lookup_cons, hentry]
      by_cases hk : k = key
      · simp [hk]
      · have hne : (k == key) = false := beq_eq_false_iff_ne.mpr hk
        simp [hk, hne]
    · rw [setEntries, if_neg hentry, List.lookup_cons, List.lookup_cons, ih]
      by_cases hk : k = key
      · have hne : (k == entryKey) = false := beq_eq_false_iff_ne.mpr (hk ▸ Ne.symm hentry)
        simp [hk, hk ▸ hne]
      · simp [hk]

@[simp] theorem find_set (r : Record α) (key k : Text) (value : α) :
    (r.set key value).find k = if k = key then some value else r.find k :=
  lookup_setEntries key k value r.entries

@[simp] theorem find_empty (key : Text) : (empty : Record α).find key = none := rfl

theorem length_setEntries_le (key : Text) (value : α) (entries : List (Text × α)) :
    (setEntries key value entries).length ≤ entries.length + 1 := by
  induction entries with
  | nil => exact le_rfl
  | cons entry rest ih =>
    by_cases hentry : entry.1 = key
    · simp [setEntries, hentry]
    · simpa [setEntries, hentry] using ih

/-- `map.delete(key)`. -/
def erase (r : Record α) (key : Text) : Record α where
  entries := r.entries.filter fun entry => entry.1 ≠ key
  distinct := r.distinct.sublist (List.filter_sublist.map Prod.fst)

theorem mem_erase {r : Record α} {key : Text} {entry : Text × α} :
    entry ∈ (r.erase key).entries ↔ entry ∈ r.entries ∧ entry.1 ≠ key := by
  simp [erase]

@[simp] theorem find_erase (r : Record α) (key k : Text) :
    (r.erase key).find k = if k = key then none else r.find k := by
  by_cases hk : k = key
  · rw [if_pos hk, find_eq_none, List.mem_map]
    rintro ⟨entry, hentry, rfl⟩
    exact (mem_erase.mp hentry).2 hk
  · rw [if_neg hk]
    ext value
    rw [← mem_iff_find, ← mem_iff_find, mem_erase]
    exact and_iff_left hk

/-- `for (const key of keys) map.delete(key);`. -/
def eraseAll (r : Record α) (keys : List Text) : Record α := keys.foldl erase r

theorem find_eraseAll {keys : List Text} (key : Text) :
    ∀ r : Record α, (r.eraseAll keys).find key = if key ∈ keys then none else r.find key := by
  induction keys with
  | nil =>
    intro r
    rfl
  | cons k keys ih =>
    intro r
    rw [eraseAll, List.foldl_cons, ← eraseAll, ih, find_erase]
    by_cases hk : key = k
    · simp [hk]
    · simp [hk]

/-- `map.values()`. -/
def values (r : Record α) : List α := r.entries.map Prod.snd

/-- What a map of amounts gains by an amount is what that has over the one before it. -/
theorem sum_setEntries (key : Text) (value : Nat) (entries : List (Text × Nat)) :
    ((setEntries key value entries).map Prod.snd).sum + (entries.lookup key).getD 0
      = (entries.map Prod.snd).sum + value := by
  induction entries with
  | nil => simp [setEntries]
  | cons entry rest ih =>
    obtain ⟨entryKey, v⟩ := entry
    by_cases hentry : entryKey = key
    · subst hentry
      simp only [setEntries, if_true, List.map_cons, List.sum_cons, List.lookup_cons_self,
        Option.getD_some]
      omega
    · have hne : (key == entryKey) = false := beq_eq_false_iff_ne.mpr (Ne.symm hentry)
      simp only [setEntries, hentry, if_false, List.map_cons, List.sum_cons, List.lookup_cons, hne]
      omega

theorem sum_set (r : Record Nat) (key : Text) (value : Nat) :
    (r.set key value).values.sum + (r.find key).getD 0 = r.values.sum + value :=
  sum_setEntries key value r.entries

theorem mem_values {r : Record α} {value : α} :
    value ∈ r.values ↔ ∃ key, r.find key = some value := by
  simp only [values, List.mem_map, ← mem_iff_find, Prod.exists, exists_eq_right]

/-- Maps with the same properties in some order. -/
theorem find_eq_of_perm {r s : Record α} (h : r.entries.Perm s.entries) (key : Text) :
    r.find key = s.find key := by
  ext value
  rw [← mem_iff_find, ← mem_iff_find, h.mem_iff]

/-- `new Map(rows.map(row => [key(row), row]))`, later rows first replacing earlier ones. -/
def setAll (r : Record α) (rows : List (Text × α)) : Record α :=
  rows.foldl (fun r row => r.set row.1 row.2) r

theorem find_setAll {rows : List (Text × α)} (h : (rows.map Prod.fst).Nodup) (key : Text) :
    ∀ r : Record α, (r.setAll rows).find key = (rows.lookup key).or (r.find key) := by
  induction rows with
  | nil =>
    intro r
    rfl
  | cons row rows ih =>
    intro r
    obtain ⟨k, v⟩ := row
    obtain ⟨hnew, hrest⟩ := List.nodup_cons.mp h
    have htail := ih hrest (r.set k v)
    rw [setAll, List.foldl_cons, ← setAll, htail, find_set, List.lookup_cons]
    by_cases hk : key = k
    · have hnone : rows.lookup key = none := by
        rw [List.lookup_eq_none_iff]
        intro entry hentry
        have hne : key ≠ entry.1 := by
          intro heq
          exact hnew (hk ▸ heq ▸ List.mem_map.mpr ⟨entry, hentry, rfl⟩)
        simpa using hne
      rw [hnone, hk]
      simp
    · have hne : (key == k) = false := beq_eq_false_iff_ne.mpr hk
      simp [hk, hne]

/-- A new property comes last. -/
theorem set_entries_of_new {r : Record α} {key : Text} {value : α} (h : r.find key = none) :
    (r.set key value).entries = r.entries ++ [(key, value)] :=
  setEntries_of_not_mem (find_eq_none.mp h)

theorem find_setAll_of_mem {rows : List (Text × α)} (h : (rows.map Prod.fst).Nodup) {key : Text}
    {value : α} (hmem : (key, value) ∈ rows) (r : Record α) :
    (r.setAll rows).find key = some value := by
  have hlookup : rows.lookup key = some value := (mem_iff_find (r := ⟨rows, h⟩)).mp hmem
  rw [find_setAll h, hlookup]
  rfl

theorem find_setAll_of_not_mem {rows : List (Text × α)} (h : (rows.map Prod.fst).Nodup) {key : Text}
    (hnew : key ∉ rows.map Prod.fst) (r : Record α) : (r.setAll rows).find key = r.find key := by
  have hlookup : rows.lookup key = none := (find_eq_none (r := ⟨rows, h⟩)).mpr hnew
  rw [find_setAll h, hlookup]
  rfl

theorem eq_of_entries {r s : Record α} (h : r.entries = s.entries) : r = s := by
  cases r
  cases s
  cases h
  rfl

/-- New properties come last, in their order. -/
theorem setAll_entries_of_new {rows : List (Text × α)} (h : (rows.map Prod.fst).Nodup) :
    ∀ {r : Record α}, (∀ row ∈ rows, r.find row.1 = none) →
      (r.setAll rows).entries = r.entries ++ rows := by
  induction rows with
  | nil =>
    intro r _
    rw [List.append_nil]
    rfl
  | cons row rows ih =>
    intro r hnew
    obtain ⟨hkey, hrest⟩ := List.nodup_cons.mp h
    rw [List.forall_mem_cons] at hnew
    have htail : ((r.set row.1 row.2).setAll rows).entries
        = (r.set row.1 row.2).entries ++ rows := by
      refine ih hrest fun other hother => ?_
      have hne : other.1 ≠ row.1 := fun heq =>
        hkey (heq ▸ List.mem_map.mpr ⟨other, hother, rfl⟩)
      rw [find_set, if_neg hne]
      exact hnew.2 other hother
    rw [setAll, List.foldl_cons, ← setAll, htail, set_entries_of_new hnew.1, List.append_assoc]
    rfl

theorem setAll_empty_entries {rows : List (Text × α)} (h : (rows.map Prod.fst).Nodup) :
    ((empty : Record α).setAll rows).entries = rows :=
  setAll_entries_of_new h fun _ _ => rfl

end Record

end Hookemon.Js
