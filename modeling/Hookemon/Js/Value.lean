import Hookemon.Js.Number

/-! # Plain data

The values that the programs keep in their stores: primitives, dense arrays and plain
objects with enumerable data properties. An object is the list of its own properties in
the order of `Object.keys`, and no key occurs twice in it. Two values are the same data
when they differ in the order of object keys only.
-/

namespace Hookemon.Js

inductive Value where
  | undefined
  | null
  | boolean (b : Bool)
  | number (x : Number)
  | bigint (n : Int)
  | string (s : Text)
  | array (items : List Value)
  | object (fields : List (Text × Value))

/-- The property list of an object. -/
abbrev Fields := List (Text × Value)

/-- Induction over nested data. -/
theorem Value.induction {P : Value → Prop} (undefined : P .undefined) (null : P .null)
    (boolean : ∀ b, P (.boolean b)) (number : ∀ x, P (.number x)) (bigint : ∀ n, P (.bigint n))
    (string : ∀ s, P (.string s)) (array : ∀ vs, (∀ v ∈ vs, P v) → P (.array vs))
    (object : ∀ fs : Fields, (∀ f ∈ fs, P f.2) → P (.object fs)) (v : Value) : P v := by
  refine Value.rec (motive_1 := P) (motive_2 := fun vs => ∀ v ∈ vs, P v)
    (motive_3 := fun fs => ∀ f ∈ fs, P f.2) (motive_4 := fun f => P f.2)
    undefined null boolean number bigint string array object ?_ ?_ ?_ ?_ ?_ v
  · simp
  · intro v vs hv hvs w hw
    rcases List.mem_cons.mp hw with rfl | hmem
    · exact hv
    · exact hvs w hmem
  · simp
  · intro f fs hf hfs g hg
    rcases List.mem_cons.mp hg with rfl | hmem
    · exact hf
    · exact hfs g hmem
  · intro _ _ hv
    exact hv

mutual

def Value.beq : Value → Value → Bool
  | .undefined, .undefined => true
  | .null, .null => true
  | .boolean b, .boolean c => b = c
  | .number x, .number y => x = y
  | .bigint m, .bigint n => m = n
  | .string s, .string t => s = t
  | .array vs, .array ws => itemsBeq vs ws
  | .object fs, .object gs => fieldsBeq fs gs
  | _, _ => false

def itemsBeq : List Value → List Value → Bool
  | [], [] => true
  | v :: vs, w :: ws => v.beq w && itemsBeq vs ws
  | _, _ => false

def fieldsBeq : Fields → Fields → Bool
  | [], [] => true
  | (k, v) :: fs, (l, w) :: gs => decide (k = l) && v.beq w && fieldsBeq fs gs
  | _, _ => false

end

theorem itemsBeq_iff {vs : List Value} (h : ∀ v ∈ vs, ∀ w, v.beq w ↔ v = w) :
    ∀ ws, itemsBeq vs ws ↔ vs = ws := by
  induction vs with
  | nil => intro ws; cases ws <;> simp [itemsBeq]
  | cons v vs ih =>
    intro ws
    cases ws with
    | nil => simp [itemsBeq]
    | cons w ws =>
      have hv := h v (by simp) w
      have hvs := ih (fun u hu => h u (by simp [hu])) ws
      simp [itemsBeq, hv, hvs]

theorem fieldsBeq_iff {fs : Fields} (h : ∀ f ∈ fs, ∀ w, f.2.beq w ↔ f.2 = w) :
    ∀ gs, fieldsBeq fs gs ↔ fs = gs := by
  induction fs with
  | nil => intro gs; cases gs <;> simp [fieldsBeq]
  | cons f fs ih =>
    intro gs
    cases gs with
    | nil => simp [fieldsBeq]
    | cons g gs =>
      have hf := h f (by simp) g.2
      have hfs := ih (fun e he => h e (by simp [he])) gs
      obtain ⟨k, v⟩ := f
      obtain ⟨l, w⟩ := g
      simp only at hf
      simp [fieldsBeq, hf, hfs]

theorem Value.beq_iff (v : Value) : ∀ w, v.beq w ↔ v = w := by
  induction v using Value.induction with
  | array vs ih => intro w; cases w <;> simp [Value.beq, itemsBeq_iff ih]
  | object fs ih => intro w; cases w <;> simp [Value.beq, fieldsBeq_iff ih]
  | _ => intro w; cases w <;> simp [Value.beq]

instance : DecidableEq Value := fun v w => decidable_of_iff _ (v.beq_iff w)

/-! ## Distinct keys -/

mutual

/-- No key occurs twice in any object of the value. -/
def Value.distinctKeys : Value → Bool
  | .array vs => itemsDistinct vs
  | .object fs => decide (fs.map Prod.fst).Nodup && fieldsDistinct fs
  | _ => true

def itemsDistinct : List Value → Bool
  | [] => true
  | v :: vs => v.distinctKeys && itemsDistinct vs

def fieldsDistinct : Fields → Bool
  | [] => true
  | (_, v) :: fs => v.distinctKeys && fieldsDistinct fs

end

theorem itemsDistinct_iff (vs : List Value) :
    itemsDistinct vs ↔ ∀ v ∈ vs, v.distinctKeys := by
  induction vs with
  | nil => simp [itemsDistinct]
  | cons v vs ih => simp [itemsDistinct, ih]

theorem fieldsDistinct_iff (fs : Fields) : fieldsDistinct fs ↔ ∀ f ∈ fs, f.2.distinctKeys := by
  induction fs with
  | nil => simp [fieldsDistinct]
  | cons f fs ih =>
    obtain ⟨k, v⟩ := f
    simp [fieldsDistinct, ih]

theorem distinctKeys_array {vs : List Value} :
    (Value.array vs).distinctKeys ↔ ∀ v ∈ vs, v.distinctKeys := by
  rw [Value.distinctKeys, itemsDistinct_iff]

theorem distinctKeys_object {fs : Fields} :
    (Value.object fs).distinctKeys ↔
      (fs.map Prod.fst).Nodup ∧ ∀ f ∈ fs, f.2.distinctKeys := by
  rw [Value.distinctKeys, Bool.and_eq_true, decide_eq_true_iff, fieldsDistinct_iff]

/-- Plain data: no key occurs twice in an object. -/
abbrev Data := { v : Value // v.distinctKeys }

/-! ## Properties -/

/-- `value[key]`. -/
def getField (fs : Fields) (key : Text) : Value := (fs.lookup key).getD .undefined

/-- `value.key` of an object. Other values have no properties of their own here. -/
def Value.get (v : Value) (key : Text) : Value :=
  match v with
  | .object fs => getField fs key
  | _ => .undefined

/-- `v === w`, where `w` is a primitive. -/
def Value.strictEquals : Value → Value → Bool
  | .undefined, .undefined => true
  | .null, .null => true
  | .boolean b, .boolean c => b = c
  | .number x, .number y => x.strictEquals y
  | .bigint m, .bigint n => m = n
  | .string s, .string t => s = t
  | _, _ => false

/-! ## Key order -/

/-- The order of `Object.keys(value).sort()`: by the units of the keys. -/
def keyLe {α : Type} (p q : Text × α) : Prop := p.1 ≤ q.1

instance {α : Type} : DecidableRel (@keyLe α) := fun p q =>
  inferInstanceAs (Decidable (p.1 ≤ q.1))

mutual

/-- The same data with the keys of every object in order. -/
def Value.sortKeys : Value → Value
  | .array vs => .array (sortItems vs)
  | .object fs => .object ((sortFields fs).insertionSort keyLe)
  | v => v

def sortItems : List Value → List Value
  | [] => []
  | v :: vs => v.sortKeys :: sortItems vs

def sortFields : Fields → Fields
  | [] => []
  | (k, v) :: fs => (k, v.sortKeys) :: sortFields fs

end

theorem sortItems_eq (vs : List Value) : sortItems vs = vs.map Value.sortKeys := by
  induction vs with
  | nil => rfl
  | cons v vs ih => simp [sortItems, ih]

theorem sortFields_eq (fs : Fields) : sortFields fs = fs.map fun f => (f.1, f.2.sortKeys) := by
  induction fs with
  | nil => rfl
  | cons f fs ih => simp [sortFields, ih]

/-- The same data: equal up to the order of the keys of objects, at any depth. -/
inductive SameData : Value → Value → Prop where
  | refl (v : Value) : SameData v v
  | trans {u v w : Value} : SameData u v → SameData v w → SameData u w
  | order {fs gs : Fields} : fs.Perm gs → SameData (.object fs) (.object gs)
  | item {v w : Value} (before after : List Value) : SameData v w →
      SameData (.array (before ++ v :: after)) (.array (before ++ w :: after))
  | field {v w : Value} (before after : Fields) (key : Text) : SameData v w →
      SameData (.object (before ++ (key, v) :: after)) (.object (before ++ (key, w) :: after))

namespace SameData

theorem symm {v w : Value} (h : SameData v w) : SameData w v := by
  induction h with
  | refl v => exact .refl v
  | trans _ _ ih₁ ih₂ => exact .trans ih₂ ih₁
  | order h => exact .order h.symm
  | item before after _ ih => exact .item before after ih
  | field before after key _ ih => exact .field before after key ih

/-- Replacing every item. -/
theorem items {f : Value → Value} (vs : List Value) (h : ∀ v ∈ vs, SameData v (f v)) :
    ∀ before, SameData (.array (before ++ vs)) (.array (before ++ vs.map f)) := by
  induction vs with
  | nil => exact fun before => .refl _
  | cons v vs ih =>
    intro before
    have hhead : SameData (.array (before ++ v :: vs)) (.array (before ++ f v :: vs)) :=
      .item before vs (h v (by simp))
    have htail := ih (fun w hw => h w (by simp [hw])) (before ++ [f v])
    rw [List.append_assoc, List.append_assoc] at htail
    exact hhead.trans htail

/-- Replacing every property value. -/
theorem fields {f : Value → Value} (fs : Fields) (h : ∀ p ∈ fs, SameData p.2 (f p.2)) :
    ∀ before, SameData (.object (before ++ fs))
      (.object (before ++ fs.map fun p => (p.1, f p.2))) := by
  induction fs with
  | nil => exact fun before => .refl _
  | cons p fs ih =>
    intro before
    have hhead : SameData (.object (before ++ p :: fs)) (.object (before ++ (p.1, f p.2) :: fs)) :=
      .field before fs p.1 (h p (by simp))
    have htail := ih (fun q hq => h q (by simp [hq])) (before ++ [(p.1, f p.2)])
    rw [List.append_assoc, List.append_assoc] at htail
    exact hhead.trans htail

end SameData

/-- Sorting the keys keeps the data. -/
theorem sameData_sortKeys (v : Value) : SameData v v.sortKeys := by
  induction v using Value.induction with
  | array vs ih =>
    rw [Value.sortKeys, sortItems_eq]
    exact SameData.items vs ih []
  | object fs ih =>
    rw [Value.sortKeys, sortFields_eq]
    have hvalues := SameData.fields fs ih []
    have horder := List.perm_insertionSort keyLe (fs.map fun f => (f.1, f.2.sortKeys))
    exact hvalues.trans (.order horder.symm)
  | _ => exact .refl _

theorem sameData_of_sortKeys {v w : Value} (h : v.sortKeys = w.sortKeys) : SameData v w := by
  have hw := (sameData_sortKeys w).symm
  rw [← h] at hw
  exact (sameData_sortKeys v).trans hw

/-! ## Properties of sorted data -/

/-- With distinct keys a property is found wherever it stands. -/
theorem lookup_iff_mem {fs : Fields} (h : (fs.map Prod.fst).Nodup) {key : Text} {v : Value} :
    fs.lookup key = some v ↔ (key, v) ∈ fs := by
  induction fs with
  | nil => simp
  | cons f fs ih =>
    obtain ⟨k, w⟩ := f
    obtain ⟨hnew, hrest⟩ := List.nodup_cons.mp (by simpa using h : (k :: fs.map Prod.fst).Nodup)
    by_cases hkey : key = k
    · subst hkey
      have hmem : (key, v) ∉ fs := fun hmem => hnew (List.mem_map.mpr ⟨_, hmem, rfl⟩)
      rw [List.lookup_cons_self, List.mem_cons, or_iff_left hmem]
      simp [eq_comm]
    · have hne : (key == k) = false := beq_eq_false_iff_ne.mpr hkey
      rw [List.lookup_cons, hne, List.mem_cons, ih hrest]
      simp [hkey]

/-- A property of plain data is plain data. -/
theorem get_distinct {v : Value} (h : v.distinctKeys) (key : Text) : (v.get key).distinctKeys := by
  cases v with
  | object fs =>
    show ((fs.lookup key).getD .undefined).distinctKeys
    cases hfind : fs.lookup key with
    | none => rfl
    | some w =>
      have hmem := (lookup_iff_mem (distinctKeys_object.mp h).1).mp hfind
      exact (distinctKeys_object.mp h).2 _ hmem
  | _ => rfl

/-- A property of sorted data is the sorted property. -/
theorem Value.get_sortKeys {v : Value} (h : v.distinctKeys) (key : Text) :
    v.sortKeys.get key = (v.get key).sortKeys := by
  cases v with
  | object fs =>
    have hnodup := (distinctKeys_object.mp h).1
    have hperm := List.perm_insertionSort keyLe (fs.map fun f => (f.1, f.2.sortKeys))
    have hsorted : (((fs.map fun f => (f.1, f.2.sortKeys)).insertionSort keyLe).map
        Prod.fst).Nodup := by
      rw [(hperm.map Prod.fst).nodup_iff, List.map_map]
      exact hnodup
    have hlookup : ((fs.map fun f => (f.1, f.2.sortKeys)).insertionSort keyLe).lookup key
        = (fs.lookup key).map Value.sortKeys := by
      ext w
      rw [lookup_iff_mem hsorted, hperm.mem_iff, List.mem_map, Option.map_eq_some_iff]
      constructor
      · rintro ⟨⟨k, v⟩, hmem, heq⟩
        cases heq
        exact ⟨v, (lookup_iff_mem hnodup).mpr hmem, rfl⟩
      · rintro ⟨v, hv, rfl⟩
        exact ⟨(key, v), (lookup_iff_mem hnodup).mp hv, rfl⟩
    rw [Value.sortKeys, sortFields_eq]
    show (List.lookup _ _).getD _ = _
    rw [hlookup]
    show _ = ((fs.lookup key).getD _).sortKeys
    cases fs.lookup key <;> rfl
  | _ => rfl

end Hookemon.Js
