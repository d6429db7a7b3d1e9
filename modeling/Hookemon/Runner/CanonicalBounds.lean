import Hookemon.Runner.CanonicalJson

/-! # What the bounded walk accepts

The walk of `assertBoundedCanonicalValue` checks the shape of every part of a value as
it comes to it, and adds up objects, arrays and bytes on the way. It accepts exactly the
values whose parts all fit (`ValueFits`) and whose totals (`countedValue`) stay within
the maximums. Every step of the walk is of one kind, it adds a fixed count when some
condition holds (`Adds`), and such steps compose.

A value is shown to have a canonical text from its parts (`Compact`): how deep it is, and
what it counts at most.
-/

namespace Hookemon.Runner

open Hookemon.Core Hookemon.Js

/-! ## Counts -/

namespace Counted

instance : Add Counted where
  add c d := ⟨c.objects + d.objects, c.arrays + d.arrays, c.aggregateBytes + d.aggregateBytes⟩

theorem add_def (c d : Counted) : c + d =
    ⟨c.objects + d.objects, c.arrays + d.arrays, c.aggregateBytes + d.aggregateBytes⟩ := rfl

@[simp] theorem add_objects (c d : Counted) : (c + d).objects = c.objects + d.objects := rfl

@[simp] theorem add_arrays (c d : Counted) : (c + d).arrays = c.arrays + d.arrays := rfl

@[simp] theorem add_aggregateBytes (c d : Counted) :
    (c + d).aggregateBytes = c.aggregateBytes + d.aggregateBytes := rfl

theorem add_assoc' (c d e : Counted) : c + d + e = c + (d + e) := by
  simp only [add_def, Nat.add_assoc]

@[simp] theorem add_zero' (c : Counted) : c + ⟨0, 0, 0⟩ = c := rfl

@[simp] theorem zero_add' (c : Counted) : (⟨0, 0, 0⟩ : Counted) + c = c := by
  simp only [add_def, Nat.zero_add]

/-- The bytes of an encoded text. -/
def ofBytes (n : Nat) : Counted := ⟨0, 0, n⟩

/-- The totals are within the maximums. -/
structure Within (m : Maximums) (c : Counted) : Prop where
  objects : c.objects ≤ m.objects
  arrays : c.arrays ≤ m.arrays
  aggregateBytes : c.aggregateBytes ≤ m.aggregateBytes

theorem Within.of_add {m : Maximums} {c d : Counted} (h : (c + d).Within m) : c.Within m :=
  ⟨(Nat.le_add_right _ _).trans h.objects, (Nat.le_add_right _ _).trans h.arrays,
    (Nat.le_add_right _ _).trans h.aggregateBytes⟩

end Counted

/-! ## Steps of the walk -/

/-- The step succeeds exactly when the condition holds and the totals stay within the
maximums, and then it adds a fixed count. -/
def Adds (m : Maximums) (step : Counted → Except String Counted) (condition : Prop)
    (count : Counted) : Prop :=
  ∀ c c', c.Within m → (step c = .ok c' ↔ condition ∧ c' = c + count ∧ c'.Within m)

namespace Adds

variable {m : Maximums} {step next : Counted → Except String Counted} {p q : Prop}
  {d e : Counted}

theorem congr (h : Adds m step p d) (hsame : ∀ c, next c = step c) (hpq : q ↔ p) (hde : e = d) :
    Adds m next q e := by
  subst hde
  intro c c' hc
  rw [hsame, h c c' hc, hpq]

/-- Nothing is checked and nothing counted. -/
theorem nothing : Adds m (fun c => return c) True ⟨0, 0, 0⟩ := by
  intro c c' hc
  rw [pure_eq_ok]
  constructor
  · rintro rfl
    exact ⟨trivial, rfl, hc⟩
  · rintro ⟨-, hsame, -⟩
    exact hsame.symm

/-- A check of the value before a step. -/
theorem guard {b : Prop} [Decidable b] (message : String) (h : Adds m step p d) :
    Adds m (fun c => do throwIf b message; step c) (¬ b ∧ p) d := by
  intro c c' hc
  rw [bind_eq_ok]
  constructor
  · rintro ⟨_, hguard, hstep⟩
    rcases (h c c' hc).mp hstep with ⟨hp, hrest⟩
    exact ⟨⟨revertIf_eq_ok.mp hguard, hp⟩, hrest⟩
  · rintro ⟨⟨hguard, hp⟩, hrest⟩
    exact ⟨(), revertIf_eq_ok.mpr hguard, (h c c' hc).mpr ⟨hp, hrest⟩⟩

/-- One step after another. -/
theorem bind (h : Adds m step p d) (h' : Adds m next q e) :
    Adds m (fun c => step c >>= next) (p ∧ q) (d + e) := by
  intro c c' hc
  rw [bind_eq_ok]
  constructor
  · rintro ⟨c₁, hstep, hnext⟩
    rcases (h c c₁ hc).mp hstep with ⟨hp, rfl, hwithin⟩
    rcases (h' _ c' hwithin).mp hnext with ⟨hq, rfl, hwithin'⟩
    exact ⟨⟨hp, hq⟩, Counted.add_assoc' c d e, hwithin'⟩
  · rintro ⟨⟨hp, hq⟩, rfl, hwithin⟩
    rw [← Counted.add_assoc'] at hwithin ⊢
    have hfirst := hwithin.of_add
    exact ⟨c + d, (h c _ hc).mpr ⟨hp, rfl, hfirst⟩, (h' _ _ hfirst).mpr ⟨hq, rfl, hwithin⟩⟩

end Adds

section

variable {label : String} {m : Maximums}

variable (label m) in
/-- The bytes of a text, and of a key with the bound on keys. -/
theorem addEncodedBytes_adds (value : Text) (isKey : Bool) :
    Adds m (addEncodedBytes label m value isKey)
      (¬ (isKey ∧ RECOVERY_LIMITS.propertyKeyBytes < byteLength value))
      (.ofBytes (byteLength value)) := by
  intro c c' hc
  simp only [addEncodedBytes, bind_eq_ok, revertIf_eq_ok, pure_eq_ok]
  constructor
  · rintro ⟨_, hkey, _, hbytes, rfl⟩
    exact ⟨hkey, rfl, hc.objects, hc.arrays, not_lt.mp hbytes⟩
  · rintro ⟨hkey, rfl, hwithin⟩
    exact ⟨(), hkey, (), not_lt.mpr hwithin.aggregateBytes, rfl⟩

theorem addObject_adds (message : String) : Adds m
    (fun c => do
      throwIf (m.objects < c.objects + 1) message
      return { c with objects := c.objects + 1 }) True ⟨1, 0, 0⟩ := by
  intro c c' hc
  simp only [bind_eq_ok, revertIf_eq_ok, pure_eq_ok]
  constructor
  · rintro ⟨_, hroom, rfl⟩
    exact ⟨trivial, rfl, not_lt.mp hroom, hc.arrays, hc.aggregateBytes⟩
  · rintro ⟨-, rfl, hwithin⟩
    exact ⟨(), not_lt.mpr hwithin.objects, rfl⟩

theorem addArray_adds (message : String) : Adds m
    (fun c => do
      throwIf (m.arrays < c.arrays + 1) message
      return { c with arrays := c.arrays + 1 }) True ⟨0, 1, 0⟩ := by
  intro c c' hc
  simp only [bind_eq_ok, revertIf_eq_ok, pure_eq_ok]
  constructor
  · rintro ⟨_, hroom, rfl⟩
    exact ⟨trivial, rfl, hc.objects, not_lt.mp hroom, hc.aggregateBytes⟩
  · rintro ⟨-, rfl, hwithin⟩
    exact ⟨(), not_lt.mpr hwithin.arrays, rfl⟩

end

/-! ## Values -/

mutual

/-- What a value adds to the totals. -/
def countedValue : Value → Counted
  | .string s => .ofBytes (byteLength s)
  | .array vs => ⟨0, 1, 0⟩ + countedItems vs 0
  | .object fs => ⟨1, 0, 0⟩ + countedFields fs
  | _ => ⟨0, 0, 0⟩

def countedItems : List Value → Nat → Counted
  | [], _ => ⟨0, 0, 0⟩
  | v :: vs, index => .ofBytes (byteLength (natText index)) + (countedValue v + countedItems vs (index + 1))

def countedFields : Fields → Counted
  | [] => ⟨0, 0, 0⟩
  | (key, v) :: fs => .ofBytes (byteLength key) + (countedValue v + countedFields fs)

end

theorem countedValue_array (vs : List Value) :
    countedValue (.array vs) = ⟨0, 1, 0⟩ + countedItems vs 0 := rfl

theorem countedValue_object (fs : Fields) :
    countedValue (.object fs) = ⟨1, 0, 0⟩ + countedFields fs := rfl

theorem countedItems_cons (v : Value) (vs : List Value) (index : Nat) :
    countedItems (v :: vs) index = .ofBytes (byteLength (natText index)) +
      (countedValue v + countedItems vs (index + 1)) := rfl

theorem countedFields_cons (f : Text × Value) (fs : Fields) : countedFields (f :: fs)
    = .ofBytes (byteLength f.1) + (countedValue f.2 + countedFields fs) := rfl

/-- The bounds on a single string. -/
structure StringFits (s : Text) : Prop where
  chars : s.length ≤ RECOVERY_LIMITS.stringChars
  digits : isDigits s → s.length ≤ RECOVERY_LIMITS.decimalDigits
  hex : isHexBytes s → s.length ≤ RECOVERY_LIMITS.hexChars

section Fits

variable (m : Maximums)

mutual

/-- The parts of a value at some depth are within their own bounds. -/
def ValueFits : Value → Nat → Prop
  | .string s, depth => depth ≤ RECOVERY_LIMITS.canonicalDepth ∧ StringFits s
  | .array vs, depth =>
    depth ≤ RECOVERY_LIMITS.canonicalDepth ∧ vs.length ≤ m.arrayItems ∧ ItemsFit vs 0 (depth + 1)
  | .object fs, depth => depth ≤ RECOVERY_LIMITS.canonicalDepth ∧
    fs.length ≤ RECOVERY_LIMITS.canonicalObjectFields ∧ FieldsFit fs (depth + 1)
  | _, depth => depth ≤ RECOVERY_LIMITS.canonicalDepth

def ItemsFit : List Value → Nat → Nat → Prop
  | [], _, _ => True
  | v :: vs, index, depth => byteLength (natText index) ≤ RECOVERY_LIMITS.propertyKeyBytes ∧
    ValueFits v depth ∧ ItemsFit vs (index + 1) depth

def FieldsFit : Fields → Nat → Prop
  | [], _ => True
  | (key, v) :: fs, depth => byteLength key ≤ RECOVERY_LIMITS.propertyKeyBytes ∧
    ValueFits v depth ∧ FieldsFit fs depth

end

variable {m}

theorem valueFits_array {vs : List Value} {depth : Nat} : ValueFits m (.array vs) depth ↔
    depth ≤ RECOVERY_LIMITS.canonicalDepth ∧ vs.length ≤ m.arrayItems ∧
      ItemsFit m vs 0 (depth + 1) := Iff.rfl

theorem valueFits_object {fs : Fields} {depth : Nat} : ValueFits m (.object fs) depth ↔
    depth ≤ RECOVERY_LIMITS.canonicalDepth ∧
      fs.length ≤ RECOVERY_LIMITS.canonicalObjectFields ∧ FieldsFit m fs (depth + 1) := Iff.rfl

theorem itemsFit_cons {v : Value} {vs : List Value} {index depth : Nat} :
    ItemsFit m (v :: vs) index depth ↔
      byteLength (natText index) ≤ RECOVERY_LIMITS.propertyKeyBytes ∧ ValueFits m v depth ∧
        ItemsFit m vs (index + 1) depth := Iff.rfl

end Fits

section

variable {label : String} {m : Maximums}

theorem visitItems_adds {vs : List Value}
    (ih : ∀ v ∈ vs, ∀ depth, Adds m (visit label m v depth) (ValueFits m v depth) (countedValue v)) :
    ∀ index depth, Adds m (visitItems label m vs index depth) (ItemsFit m vs index depth)
      (countedItems vs index) := by
  induction vs with
  | nil =>
    intro index depth
    exact Adds.nothing
  | cons v vs hrest =>
    intro index depth
    have hkey := addEncodedBytes_adds label m (natText index) true
    have hvalue := ih v List.mem_cons_self depth
    have hvalues := hrest (fun w hw => ih w (List.mem_cons_of_mem v hw)) (index + 1) depth
    refine (hkey.bind (hvalue.bind hvalues)).congr (fun _ => rfl) ?_ rfl
    simp [ItemsFit]

theorem visitFields_adds {fs : Fields}
    (ih : ∀ f ∈ fs, ∀ depth,
      Adds m (visit label m f.2 depth) (ValueFits m f.2 depth) (countedValue f.2)) :
    ∀ depth, Adds m (visitFields label m fs depth) (FieldsFit m fs depth) (countedFields fs) := by
  induction fs with
  | nil =>
    intro depth
    exact Adds.nothing
  | cons f fs hrest =>
    intro depth
    have hkey := addEncodedBytes_adds label m f.1 true
    have hvalue := ih f List.mem_cons_self depth
    have hvalues := hrest (fun g hg => ih g (List.mem_cons_of_mem f hg)) depth
    refine (hkey.bind (hvalue.bind hvalues)).congr (fun _ => rfl) ?_ rfl
    simp [FieldsFit]

/-- A value that is neither a string nor has parts. -/
theorem visit_leaf_adds {v : Value} (depth : Nat)
    (hvisit : ∀ c, visit label m v depth c = do
      throwIf (RECOVERY_LIMITS.canonicalDepth < depth) (label ++ " depth limit exceeded")
      return c)
    (hfits : ValueFits m v depth ↔ depth ≤ RECOVERY_LIMITS.canonicalDepth)
    (hcounted : countedValue v = ⟨0, 0, 0⟩) :
    Adds m (visit label m v depth) (ValueFits m v depth) (countedValue v) := by
  refine (Adds.guard _ Adds.nothing).congr hvisit ?_ hcounted
  rw [hfits, not_lt, and_true]

theorem stringFits_iff {s : Text} : StringFits s ↔ ¬ RECOVERY_LIMITS.stringChars < s.length ∧
    ¬ (isDigits s ∧ RECOVERY_LIMITS.decimalDigits < s.length) ∧
      ¬ (isHexBytes s ∧ RECOVERY_LIMITS.hexChars < s.length) := by
  simp only [not_and, not_lt]
  constructor
  · intro h
    exact ⟨h.chars, h.digits, h.hex⟩
  · rintro ⟨hchars, hdigits, hhex⟩
    exact ⟨hchars, hdigits, hhex⟩

theorem visit_string_adds (s : Text) (depth : Nat) :
    Adds m (visit label m (.string s) depth) (ValueFits m (.string s) depth)
      (countedValue (.string s)) := by
  intro c c' hc
  rw [visit, ValueFits, stringFits_iff, countedValue]
  simp only [bind_eq_ok, revertIf_eq_ok, pure_eq_ok, not_lt,
    addEncodedBytes_adds label m s false c _ hc]
  constructor
  · rintro ⟨_, hdepth, _, hchars, c₁, ⟨-, hbytes, hwithin⟩, _, hdigits, _, hhex, rfl⟩
    exact ⟨⟨hdepth, hchars, hdigits, hhex⟩, hbytes, hwithin⟩
  · rintro ⟨⟨hdepth, hchars, hdigits, hhex⟩, hbytes, hwithin⟩
    exact ⟨(), hdepth, (), hchars, c', ⟨by simp, hbytes, hwithin⟩, (), hdigits, (), hhex, rfl⟩

/-- **The walk adds what a value counts, exactly when its parts fit.** -/
theorem visit_adds (label : String) (m : Maximums) (v : Value) :
    ∀ depth, Adds m (visit label m v depth) (ValueFits m v depth) (countedValue v) := by
  induction v using Value.induction with
  | string s => exact visit_string_adds s
  | array vs ih =>
    intro depth
    have hitems := (addArray_adds (m := m) (label ++ " array count limit exceeded")).bind
      (Adds.guard (b := m.arrayItems < vs.length) (label ++ " array item limit exceeded")
        (visitItems_adds ih 0 (depth + 1)))
    have hwalk := Adds.guard (b := RECOVERY_LIMITS.canonicalDepth < depth)
      (label ++ " depth limit exceeded") hitems
    refine hwalk.congr ?_ ?_ ?_
    · intro c
      rw [visit]
      simp only [bind_assoc, pure_bind]
    · rw [ValueFits, not_lt, not_lt, true_and]
    · rw [countedValue]
  | object fs ih =>
    intro depth
    have hfields := (addObject_adds (m := m) (label ++ " object count limit exceeded")).bind
        (Adds.guard (b := RECOVERY_LIMITS.canonicalObjectFields < fs.length)
          (label ++ " object field count limit exceeded")
          (visitFields_adds ih (depth + 1)))
    have hwalk := Adds.guard (b := RECOVERY_LIMITS.canonicalDepth < depth)
      (label ++ " depth limit exceeded") hfields
    refine hwalk.congr ?_ ?_ ?_
    · intro c
      rw [visit]
      simp only [bind_assoc, pure_bind]
    · rw [ValueFits, not_lt, not_lt, true_and]
    · rw [countedValue]
  | undefined | null | boolean b | number x | bigint n =>
    intro depth
    refine visit_leaf_adds depth (fun c => ?_) ?_ ?_
    · rw [visit] <;> simp
    · rw [ValueFits] <;> simp
    · rw [countedValue] <;> simp

end

/-! ## Values with a text -/

/-- The walk accepts the value. -/
structure Bounded (m : Maximums) (v : Value) : Prop where
  fits : ValueFits m v 0
  within : (countedValue v).Within m

theorem assertBoundedCanonicalValue_eq_ok (label : String) {m : Maximums} {v : Value} :
    assertBoundedCanonicalValue label m v = .ok () ↔ Bounded m v := by
  have hwalk := visit_adds label m v 0 {}
  have hstart : (({} : Counted)).Within m := ⟨Nat.zero_le _, Nat.zero_le _, Nat.zero_le _⟩
  have hcount : ({} : Counted) + countedValue v = countedValue v := Counted.zero_add' _
  simp only [assertBoundedCanonicalValue, bind_eq_ok, pure_eq_ok, and_true]
  constructor
  · rintro ⟨c, hc⟩
    rcases (hwalk c hstart).mp hc with ⟨hfits, hsame, hwithin⟩
    rw [hsame, hcount] at hwithin
    exact ⟨hfits, hwithin⟩
  · rintro ⟨hfits, hwithin⟩
    refine ⟨countedValue v, (hwalk _ hstart).mpr ⟨hfits, hcount.symm, hwithin⟩⟩

/-- The value has a canonical text, whatever its size. -/
def Encodable (v : Value) : Prop := ∃ t, canonicalJsonUnchecked v = .ok t

namespace Encodable

theorem string (s : Text) : Encodable (.string s) := ⟨_, rfl⟩

theorem boolean (b : Bool) : Encodable (.boolean b) := ⟨_, rfl⟩

theorem itemTexts_isOk {vs : List Value} :
    (∃ ts, itemTexts (vs.map canonicalJsonUnchecked) = .ok ts) ↔ ∀ v ∈ vs, Encodable v := by
  induction vs with
  | nil => simp [itemTexts]
  | cons v vs ih =>
    rw [List.forall_mem_cons, ← ih]
    simp only [List.map_cons, itemTexts, bind_eq_ok, pure_eq_ok]
    constructor
    · rintro ⟨_, t, ht, ts, hts, rfl⟩
      exact ⟨⟨t, ht⟩, ts, hts⟩
    · rintro ⟨⟨t, ht⟩, ts, hts⟩
      exact ⟨_, t, ht, ts, hts, rfl⟩

theorem memberTexts_isOk {fs : Fields} :
    (∃ ts, memberTexts (fs.map fun f => (f.1, canonicalJsonUnchecked f.2)) = .ok ts) ↔
      ∀ f ∈ fs, Encodable f.2 := by
  induction fs with
  | nil => simp [memberTexts]
  | cons f fs ih =>
    rw [List.forall_mem_cons, ← ih]
    simp only [List.map_cons, memberTexts, bind_eq_ok, pure_eq_ok]
    constructor
    · rintro ⟨_, t, ht, ts, hts, rfl⟩
      exact ⟨⟨t, ht⟩, ts, hts⟩
    · rintro ⟨⟨t, ht⟩, ts, hts⟩
      exact ⟨_, t, ht, ts, hts, rfl⟩

theorem array {vs : List Value} : Encodable (.array vs) ↔ ∀ v ∈ vs, Encodable v := by
  rw [← itemTexts_isOk]
  simp only [Encodable, canonicalJsonUnchecked, canonicalItems_eq, bind_eq_ok, pure_eq_ok]
  constructor
  · rintro ⟨_, ts, hts, rfl⟩
    exact ⟨ts, hts⟩
  · rintro ⟨ts, hts⟩
    exact ⟨_, ts, hts, rfl⟩

theorem object {fs : Fields} : Encodable (.object fs) ↔
    (∀ f ∈ fs, f.1 ∉ forbiddenKeys) ∧ ∀ f ∈ fs, Encodable f.2 := by
  have hsorted : (∀ f ∈ fs.insertionSort keyLe, Encodable f.2) ↔ ∀ f ∈ fs, Encodable f.2 := by
    have hperm : (fs.insertionSort keyLe).Perm fs := List.perm_insertionSort keyLe fs
    simp only [hperm.mem_iff]
  rw [← hsorted, ← memberTexts_isOk]
  simp only [Encodable, canonicalJsonUnchecked, canonicalFields_eq, insertionSort_map,
    assertCanonicalFields, bind_eq_ok, revertIf_eq_ok, pure_eq_ok, not_exists, not_and]
  constructor
  · rintro ⟨_, _, hkeys, ts, hts, rfl⟩
    exact ⟨hkeys, ts, hts⟩
  · rintro ⟨hkeys, ts, hts⟩
    exact ⟨_, (), hkeys, ts, hts, rfl⟩

end Encodable

theorem canonicalJson_isOk {v : Value} :
    (∃ t, canonicalJson v = .ok t) ↔ Bounded {} v ∧ Encodable v := by
  simp only [canonicalJson, bind_eq_ok, Encodable,
    ← assertBoundedCanonicalValue_eq_ok "canonical value"]
  constructor
  · rintro ⟨t, _, hbounded, ht⟩
    exact ⟨hbounded, t, ht⟩
  · rintro ⟨hbounded, t, ht⟩
    exact ⟨t, (), hbounded, ht⟩

/-! ## Compact values -/

namespace Counted

instance : LE Counted where
  le c d := c.objects ≤ d.objects ∧ c.arrays ≤ d.arrays ∧ c.aggregateBytes ≤ d.aggregateBytes

theorem le_def {c d : Counted} : c ≤ d ↔
    c.objects ≤ d.objects ∧ c.arrays ≤ d.arrays ∧ c.aggregateBytes ≤ d.aggregateBytes := Iff.rfl

instance (c d : Counted) : Decidable (c ≤ d) := inferInstanceAs (Decidable (_ ∧ _))

theorem le_refl' (c : Counted) : c ≤ c := ⟨le_rfl, le_rfl, le_rfl⟩

theorem le_trans' {c d e : Counted} (h : c ≤ d) (h' : d ≤ e) : c ≤ e :=
  ⟨h.1.trans h'.1, h.2.1.trans h'.2.1, h.2.2.trans h'.2.2⟩

theorem add_le {c c' d d' : Counted} (h : c ≤ c') (h' : d ≤ d') : c + d ≤ c' + d' :=
  ⟨Nat.add_le_add h.1 h'.1, Nat.add_le_add h.2.1 h'.2.1, Nat.add_le_add h.2.2 h'.2.2⟩

theorem ofBytes_le {n k : Nat} (h : n ≤ k) : ofBytes n ≤ ofBytes k := ⟨le_rfl, le_rfl, h⟩

theorem Within.of_le {m : Maximums} {c d : Counted} (h : d.Within m) (hle : c ≤ d) : c.Within m :=
  ⟨hle.1.trans h.objects, hle.2.1.trans h.arrays, hle.2.2.trans h.aggregateBytes⟩

/-- So many of a count. -/
def times (n : Nat) (d : Counted) : Counted := ⟨n * d.objects, n * d.arrays, n * d.aggregateBytes⟩

theorem times_zero (d : Counted) : times 0 d = ⟨0, 0, 0⟩ := by
  simp only [times, Nat.zero_mul]

theorem times_succ (n : Nat) (d : Counted) : times (n + 1) d = d + times n d := by
  simp only [times, add_def, Nat.succ_mul, Nat.add_comm]

theorem times_le {n k : Nat} (h : n ≤ k) (d : Counted) : times n d ≤ times k d :=
  ⟨Nat.mul_le_mul_right _ h, Nat.mul_le_mul_right _ h, Nat.mul_le_mul_right _ h⟩

end Counted

/-- The keys of an array of bounded length. -/
theorem index_bytes (index : Nat) (h : index < 1000) : byteLength (natText index) ≤ 9 := by
  have hlength : (natText index).length ≤ 3 := natText_length_le (by decide) h
  have hbytes := byteLength_le (natText index)
  omega

theorem itemsFit_of_forall {m : Maximums} {vs : List Value} {depth : Nat}
    (h : ∀ v ∈ vs, ValueFits m v depth) :
    ∀ index, index + vs.length ≤ 1000 → ItemsFit m vs index depth := by
  induction vs with
  | nil =>
    intro _ _
    trivial
  | cons v vs ih =>
    intro index hindex
    rw [List.length_cons] at hindex
    rw [List.forall_mem_cons] at h
    have hkey := index_bytes index (by omega)
    exact ⟨hkey.trans (by decide), h.1, ih h.2 (index + 1) (by omega)⟩

theorem fieldsFit_iff {m : Maximums} {fs : Fields} {depth : Nat} : FieldsFit m fs depth ↔
    ∀ f ∈ fs, byteLength f.1 ≤ RECOVERY_LIMITS.propertyKeyBytes ∧ ValueFits m f.2 depth := by
  induction fs with
  | nil => simp [FieldsFit]
  | cons f fs ih => rw [FieldsFit, ih, List.forall_mem_cons, and_assoc]

theorem countedItems_le {vs : List Value} {d : Counted} (h : ∀ v ∈ vs, countedValue v ≤ d) :
    ∀ index, index + vs.length ≤ 1000 →
      countedItems vs index ≤ .times vs.length (.ofBytes 9 + d) := by
  induction vs with
  | nil =>
    intro _ _
    exact ⟨Nat.zero_le _, Nat.zero_le _, Nat.zero_le _⟩
  | cons v vs ih =>
    intro index hindex
    rw [List.length_cons] at hindex
    rw [List.forall_mem_cons] at h
    have hkey := Counted.ofBytes_le (index_bytes index (by omega))
    have hrest := ih h.2 (index + 1) (by omega)
    rw [countedItems, List.length_cons, Counted.times_succ, Counted.add_assoc']
    exact Counted.add_le hkey (Counted.add_le h.1 hrest)

/-- A value with a canonical text: it fits wherever there is room for so many levels
below, and counts at most so much. -/
structure Compact (v : Value) (levels : Nat) (size : Counted) : Prop where
  fits : ∀ depth, depth + levels ≤ RECOVERY_LIMITS.canonicalDepth → ValueFits {} v depth
  size : countedValue v ≤ size
  encodable : Encodable v

/-- The same of the properties of an object. -/
structure CompactFields (fs : Fields) (levels : Nat) (size : Counted) : Prop where
  fits : ∀ depth, depth + levels ≤ RECOVERY_LIMITS.canonicalDepth → FieldsFit {} fs depth
  size : countedFields fs ≤ size
  encodable : ∀ f ∈ fs, f.1 ∉ forbiddenKeys ∧ Encodable f.2

theorem Compact.canonicalJson_isOk {v : Value} {levels : Nat} {size : Counted}
    (h : Compact v levels size) (hlevels : levels ≤ RECOVERY_LIMITS.canonicalDepth)
    (hsize : size.Within {}) : ∃ t, canonicalJson v = .ok t := by
  refine Hookemon.Runner.canonicalJson_isOk.mpr ⟨⟨h.fits 0 ?_, hsize.of_le h.size⟩, h.encodable⟩
  rwa [Nat.zero_add]

theorem Compact.mono {v : Value} {levels levels' : Nat} {size size' : Counted}
    (h : Compact v levels size) (hlevels : levels ≤ levels') (hsize : size ≤ size') :
    Compact v levels' size' where
  fits := by
    intro depth hdepth
    exact h.fits depth (by omega)
  size := Counted.le_trans' h.size hsize
  encodable := h.encodable

/-- A string of bounded length, which is no long numeral. -/
theorem Compact.string {s : Text} {n : Nat} (hlength : s.length ≤ n)
    (hn : n ≤ RECOVERY_LIMITS.hexChars)
    (hdigits : isDigits s → s.length ≤ RECOVERY_LIMITS.decimalDigits) :
    Compact (.string s) 0 (.ofBytes (3 * n)) where
  fits := by
    intro depth hdepth
    have hchars : n ≤ RECOVERY_LIMITS.stringChars := hn.trans (by decide)
    exact ⟨hdepth, hlength.trans hchars, hdigits, fun _ => hlength.trans hn⟩
  size := by
    have hbytes := byteLength_le s
    exact Counted.ofBytes_le (by omega)
  encodable := .string s

theorem Compact.boolean (b : Bool) : Compact (.boolean b) 0 (.ofBytes 0) where
  fits := by
    intro depth hdepth
    rw [ValueFits] <;> simp_all
  size := by
    rw [countedValue] <;> simp [Counted.le_def]
  encodable := .boolean b

theorem Compact.integer {n : Int} (h : IsDouble n.natAbs) :
    Compact (.number (.integer n h)) 0 (.ofBytes 0) where
  fits := by
    intro depth hdepth
    rw [ValueFits] <;> simp_all
  size := by
    rw [countedValue] <;> simp [Counted.le_def]
  encodable := ⟨_, rfl⟩

theorem Compact.array {vs : List Value} {levels : Nat} {size : Counted}
    (h : ∀ v ∈ vs, Compact v levels size)
    (hlength : vs.length ≤ RECOVERY_LIMITS.canonicalArrayItems) :
    Compact (.array vs) (levels + 1)
      (⟨0, 1, 0⟩ + .times RECOVERY_LIMITS.canonicalArrayItems (.ofBytes 9 + size)) := by
  have hkeys : 0 + vs.length ≤ 1000 := by
    rw [Nat.zero_add]
    exact hlength.trans (by decide)
  constructor
  · intro depth hdepth
    refine ⟨by omega, hlength, itemsFit_of_forall (fun v hv => ?_) 0 hkeys⟩
    exact (h v hv).fits (depth + 1) (by omega)
  · have hitems := countedItems_le (fun v hv => (h v hv).size) 0 hkeys
    have hmost := Counted.times_le hlength (.ofBytes 9 + size)
    exact Counted.add_le ⟨le_rfl, le_rfl, le_rfl⟩ (Counted.le_trans' hitems hmost)
  · exact Encodable.array.mpr fun v hv => (h v hv).encodable

theorem CompactFields.nil {levels : Nat} : CompactFields [] levels ⟨0, 0, 0⟩ where
  fits := by
    intro _ _
    trivial
  size := ⟨le_rfl, le_rfl, le_rfl⟩
  encodable := by simp

/-- One more property, with a short key. -/
theorem CompactFields.cons {key : Text} {v : Value} {fs : Fields} {levels n : Nat}
    {size sizes : Counted} (hkey : key.length ≤ n ∧ key ∉ forbiddenKeys)
    (h : Compact v levels size) (hfs : CompactFields fs levels sizes)
    (hn : 3 * n ≤ RECOVERY_LIMITS.propertyKeyBytes) :
    CompactFields ((key, v) :: fs) levels (.ofBytes (3 * n) + size + sizes) := by
  have hbytes : byteLength key ≤ 3 * n := by
    have hunits := byteLength_le key
    have hlength := hkey.1
    omega
  constructor
  · intro depth hdepth
    exact ⟨hbytes.trans hn, h.fits depth hdepth, hfs.fits depth hdepth⟩
  · rw [countedFields, Counted.add_assoc']
    exact Counted.add_le (Counted.ofBytes_le hbytes) (Counted.add_le h.size hfs.size)
  · exact List.forall_mem_cons.mpr ⟨⟨hkey.2, h.encodable⟩, hfs.encodable⟩

/-- Properties with keys and values of one size. -/
theorem CompactFields.of_forall {fs : Fields} {levels n : Nat} {size : Counted}
    (h : ∀ f ∈ fs, (f.1.length ≤ n ∧ f.1 ∉ forbiddenKeys) ∧ Compact f.2 levels size)
    (hn : 3 * n ≤ RECOVERY_LIMITS.propertyKeyBytes) :
    CompactFields fs levels (.times fs.length (.ofBytes (3 * n) + size)) := by
  induction fs with
  | nil =>
    rw [List.length_nil, Counted.times_zero]
    exact CompactFields.nil
  | cons f fs ih =>
    rw [List.forall_mem_cons] at h
    rw [List.length_cons, Counted.times_succ]
    exact CompactFields.cons h.1.1 h.1.2 (ih h.2) hn

theorem Compact.object {fs : Fields} {levels : Nat} {size : Counted}
    (h : CompactFields fs levels size)
    (hlength : fs.length ≤ RECOVERY_LIMITS.canonicalObjectFields) :
    Compact (.object fs) (levels + 1) (⟨1, 0, 0⟩ + size) := by
  constructor
  · intro depth hdepth
    exact ⟨by omega, hlength, h.fits (depth + 1) (by omega)⟩
  · exact Counted.add_le ⟨le_rfl, le_rfl, le_rfl⟩ h.size
  · refine Encodable.object.mpr ⟨fun f hf => (h.encodable f hf).1, fun f hf => ?_⟩
    exact (h.encodable f hf).2

end Hookemon.Runner
