import Hookemon.Runner.CanonicalJson

/-! # `stableJson` of the transaction policy

The text by which two descriptions of a transaction are compared: JSON with the keys of
every object in order. It determines the data except for the sign of a zero.
-/

namespace Hookemon.Signing

open Hookemon.Core Hookemon.Js Hookemon.Runner

mutual

def stableJson : Value → Except String Text
  | .null => .ok (text "null")
  | .string s => .ok (quoteJSONString s)
  | .boolean b => .ok (if b then text "true" else text "false")
  | .number (.integer n h) => .ok (Number.integer n h).text
  | .number .negativeZero => .ok (text "0")
  | .number .notFinite => .error "policy value must be finite"
  | .array vs => do
    let ts ← itemTexts (stableItems vs)
    return 91 :: (join ts ++ [93])
  | .object fs => do
    let ts ← memberTexts ((stableFields fs).insertionSort keyLe)
    return 123 :: (join ts ++ [125])
  | .bigint _ | .undefined => .error "policy values must be JSON-compatible"

def stableItems : List Value → List (Except String Text)
  | [] => []
  | v :: vs => stableJson v :: stableItems vs

def stableFields : Fields → List (Text × Except String Text)
  | [] => []
  | (key, v) :: fs => (key, stableJson v) :: stableFields fs

end

theorem stableItems_eq (vs : List Value) : stableItems vs = vs.map stableJson := by
  induction vs with
  | nil => rfl
  | cons v vs ih => simp [stableItems, ih]

theorem stableFields_eq (fs : Fields) :
    stableFields fs = fs.map fun f => (f.1, stableJson f.2) := by
  induction fs with
  | nil => rfl
  | cons f fs ih => simp [stableFields, ih]

/-! ## The data that a text determines -/

theorem isDouble_zero : IsDouble (0 : Int).natAbs := isDouble_small (by decide)

mutual

/-- The same data with no sign on a zero. -/
def unsigned : Value → Value
  | .number .negativeZero => .number (.integer 0 isDouble_zero)
  | .array vs => .array (unsignedItems vs)
  | .object fs => .object (unsignedFields fs)
  | v => v

def unsignedItems : List Value → List Value
  | [] => []
  | v :: vs => unsigned v :: unsignedItems vs

def unsignedFields : Fields → Fields
  | [] => []
  | (key, v) :: fs => (key, unsigned v) :: unsignedFields fs

end

theorem unsignedItems_eq (vs : List Value) : unsignedItems vs = vs.map unsigned := by
  induction vs with
  | nil => rfl
  | cons v vs ih => simp [unsignedItems, ih]

theorem unsignedFields_eq (fs : Fields) :
    unsignedFields fs = fs.map fun f => (f.1, unsigned f.2) := by
  induction fs with
  | nil => rfl
  | cons f fs ih => simp [unsignedFields, ih]

/-- What a text shows of a value: no sign on a zero, and the keys in order. -/
def shownData (v : Value) : Value := (unsigned v).sortKeys

theorem shownData_array (vs : List Value) : shownData (.array vs) = .array (vs.map shownData) := by
  rw [shownData, unsigned, Value.sortKeys, sortItems_eq, unsignedItems_eq, List.map_map]
  rfl

theorem shownData_object (fs : Fields) :
    shownData (.object fs)
      = .object ((fs.insertionSort keyLe).map fun f => (f.1, shownData f.2)) := by
  rw [shownData, unsigned, Value.sortKeys, sortFields_eq, unsignedFields_eq, List.map_map]
  show Value.object ((fs.map fun f => (f.1, shownData f.2)).insertionSort keyLe) = _
  rw [insertionSort_map]

/-- The text of an object, from the texts of its properties in order. -/
theorem stableJson_object {fs : Fields} {t : Text} (h : stableJson (.object fs) = .ok t) :
    ∃ us, List.Forall₂ (fun f u => stableJson f.2 = .ok u) (fs.insertionSort keyLe) us ∧
      t = 123 :: (join (List.zipWith (fun f u => memberText f.1 u) (fs.insertionSort keyLe) us) ++
        [125]) := by
  rw [stableJson] at h
  obtain ⟨ts, hts, h⟩ := bind_eq_ok.mp h
  rw [stableFields_eq, insertionSort_map] at hts
  obtain ⟨us, hus, rfl⟩ := memberTexts_ok hts
  cases h
  exact ⟨us, hus, rfl⟩

/-- The text of a value is read as the data that it shows. -/
theorem stableJson_reads (v : Value) :
    v.distinctKeys → ∀ t, stableJson v = .ok t → Reads (shownData v) t := by
  induction v using Value.induction with
  | undefined => intro _ t ht; cases ht
  | null =>
    intro _ t ht
    cases ht
    exact .null
  | boolean b =>
    intro _ t ht
    cases ht
    exact .boolean b
  | number x =>
    intro _ t ht
    cases x with
    | integer n h =>
      cases ht
      exact .number h
    | negativeZero =>
      cases ht
      exact .number isDouble_zero
    | notFinite => cases ht
  | bigint n => intro _ t ht; cases ht
  | string s =>
    intro _ t ht
    cases ht
    exact .string s
  | array vs ih =>
    intro hdistinct t ht
    rw [stableJson, stableItems_eq] at ht
    obtain ⟨ts, hts, ht⟩ := bind_eq_ok.mp ht
    cases ht
    rw [shownData_array]
    apply Reads.array
    rw [List.forall₂_map_left_iff]
    refine forall₂_imp_mem (itemTexts_ok hts) fun v hv t hvt => ?_
    exact ih v hv (distinctKeys_array.mp hdistinct v hv) t hvt
  | object fs ih =>
    intro hdistinct t ht
    obtain ⟨hnodup, hvalues⟩ := distinctKeys_object.mp hdistinct
    obtain ⟨us, hus, rfl⟩ := stableJson_object ht
    have hperm : (fs.insertionSort keyLe).Perm fs := List.perm_insertionSort keyLe fs
    have htexts : List.zipWith (fun f u => memberText f.1 u) (fs.insertionSort keyLe) us
        = List.zipWith (fun f u => memberText f.1 u)
          ((fs.insertionSort keyLe).map fun f => (f.1, shownData f.2)) us := by
      rw [List.zipWith_map_left]
    rw [shownData_object, htexts]
    apply Reads.object
    · rw [List.forall₂_map_left_iff]
      refine forall₂_imp_mem hus fun f hf u hfu => ?_
      have hmem : f ∈ fs := hperm.mem_iff.mp hf
      exact ih f hmem (hvalues f hmem) u hfu
    · rw [List.map_map]
      exact (hperm.map Prod.fst).nodup_iff.mpr hnodup

/-- Values with one text show the same data. -/
theorem shownData_of_stableJson {v w : Value} (hv : v.distinctKeys) (hw : w.distinctKeys)
    {t : Text} (h : stableJson v = .ok t) (h' : stableJson w = .ok t) :
    shownData v = shownData w :=
  (stableJson_reads v hv t h).unique (stableJson_reads w hw t h')

/-! ## Properties of shown data -/

theorem unsigned_distinctKeys (v : Value) : v.distinctKeys → (unsigned v).distinctKeys := by
  induction v using Value.induction with
  | array vs ih =>
    intro h
    rw [unsigned, unsignedItems_eq, distinctKeys_array]
    intro w hw
    obtain ⟨v, hv, rfl⟩ := List.mem_map.mp hw
    exact ih v hv (distinctKeys_array.mp h v hv)
  | object fs ih =>
    intro h
    obtain ⟨hnodup, hvalues⟩ := distinctKeys_object.mp h
    rw [unsigned, unsignedFields_eq, distinctKeys_object, List.map_map]
    refine ⟨hnodup, fun g hg => ?_⟩
    obtain ⟨f, hf, rfl⟩ := List.mem_map.mp hg
    exact ih f hf (hvalues f hf)
  | number x => intro _; cases x <;> rfl
  | _ => exact fun h => h

theorem unsigned_get (v : Value) (key : Text) : (unsigned v).get key = unsigned (v.get key) := by
  cases v with
  | object fs =>
    rw [unsigned, unsignedFields_eq]
    show (List.lookup key (fs.map fun f => (f.1, unsigned f.2))).getD _ = unsigned _
    have hlookup : List.lookup key (fs.map fun f => (f.1, unsigned f.2))
        = (fs.lookup key).map unsigned := by
      induction fs with
      | nil => rfl
      | cons f fs ih =>
        rw [List.map_cons, List.lookup_cons, List.lookup_cons]
        cases key == f.1 with
        | true => rfl
        | false => exact ih
    rw [hlookup]
    show _ = unsigned ((fs.lookup key).getD _)
    cases fs.lookup key <;> rfl
  | number x => cases x <;> rfl
  | _ => rfl

/-- A property of what is shown is what is shown of the property. -/
theorem shownData_get {v : Value} (h : v.distinctKeys) (key : Text) :
    (shownData v).get key = shownData (v.get key) := by
  rw [shownData, Value.get_sortKeys (unsigned_distinctKeys v h), unsigned_get]
  rfl

theorem shownData_property {v w : Value} (hv : v.distinctKeys) (hw : w.distinctKeys)
    (h : shownData v = shownData w) (key : Text) :
    shownData (v.get key) = shownData (w.get key) := by
  rw [← shownData_get hv, ← shownData_get hw, h]

@[simp] theorem shownData_string (s : Text) : shownData (.string s) = .string s := rfl

@[simp] theorem shownData_boolean (b : Bool) : shownData (.boolean b) = .boolean b := rfl

@[simp] theorem shownData_null : shownData .null = .null := rfl

end Hookemon.Signing
