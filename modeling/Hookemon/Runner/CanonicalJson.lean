import Hookemon.Js.Json

/-! # Canonical JSON

`canonicalJson` and `digest` of the cycle journal: a bounded walk over the value, then
the JSON text with the keys of every object in order. The text determines the data and
is read back by `JSON.parse`.
-/

namespace Hookemon.Runner

open Hookemon.Core Hookemon.Js

/-! ## Bounds -/

namespace RECOVERY_LIMITS

def journalEvents : Nat := 512
def payloadObjects : Nat := 256
def payloadArrays : Nat := 64
def payloadArrayItems : Nat := 64
def payloadAggregateBytes : Nat := 262144
def canonicalDepth : Nat := 32
def canonicalObjectFields : Nat := 64
def canonicalObjects : Nat := 20000
def canonicalArrays : Nat := 10000
def canonicalArrayItems : Nat := 512
def canonicalAggregateBytes : Nat := 4194304
def propertyKeyBytes : Nat := 256
def decimalDigits : Nat := 78
def hexChars : Nat := 131072
def stringChars : Nat := 262144

end RECOVERY_LIMITS

/-- The bounds that a caller may set. -/
structure Maximums where
  objects : Nat := RECOVERY_LIMITS.canonicalObjects
  arrays : Nat := RECOVERY_LIMITS.canonicalArrays
  arrayItems : Nat := RECOVERY_LIMITS.canonicalArrayItems
  aggregateBytes : Nat := RECOVERY_LIMITS.canonicalAggregateBytes

/-- What the walk has counted so far. -/
structure Counted where
  objects : Nat := 0
  arrays : Nat := 0
  aggregateBytes : Nat := 0
deriving DecidableEq, Repr

/-- `^[0-9]+$`. -/
def isDigits (s : Text) : Bool := s ≠ [] && s.all isDigit

/-- `^(?:[0-9a-f]{2})+$`. -/
def isHexBytes (s : Text) : Bool := s ≠ [] && s.length % 2 = 0 && s.all isLowerHexDigit

section Walk

variable (label : String) (maximums : Maximums)

def addEncodedBytes (value : Text) (isKey : Bool) (c : Counted) : Except String Counted := do
  let bytes := byteLength value
  throwIf (isKey ∧ RECOVERY_LIMITS.propertyKeyBytes < bytes)
    (label ++ " property key byte limit exceeded")
  throwIf (maximums.aggregateBytes < c.aggregateBytes + bytes)
    (label ++ " aggregate encoded byte budget exceeded")
  return { c with aggregateBytes := c.aggregateBytes + bytes }

mutual

def visit : Value → Nat → Counted → Except String Counted
  | .string s, depth, c => do
    throwIf (RECOVERY_LIMITS.canonicalDepth < depth) (label ++ " depth limit exceeded")
    throwIf (RECOVERY_LIMITS.stringChars < s.length) (label ++ " string length limit exceeded")
    let c ← addEncodedBytes label maximums s false c
    throwIf (isDigits s ∧ RECOVERY_LIMITS.decimalDigits < s.length)
      (label ++ " decimal digit limit exceeded")
    throwIf (isHexBytes s ∧ RECOVERY_LIMITS.hexChars < s.length)
      (label ++ " hex byte limit exceeded")
    return c
  | .array vs, depth, c => do
    throwIf (RECOVERY_LIMITS.canonicalDepth < depth) (label ++ " depth limit exceeded")
    let c := { c with arrays := c.arrays + 1 }
    throwIf (maximums.arrays < c.arrays) (label ++ " array count limit exceeded")
    throwIf (maximums.arrayItems < vs.length) (label ++ " array item limit exceeded")
    visitItems vs 0 (depth + 1) c
  | .object fs, depth, c => do
    throwIf (RECOVERY_LIMITS.canonicalDepth < depth) (label ++ " depth limit exceeded")
    let c := { c with objects := c.objects + 1 }
    throwIf (maximums.objects < c.objects) (label ++ " object count limit exceeded")
    throwIf (RECOVERY_LIMITS.canonicalObjectFields < fs.length)
      (label ++ " object field count limit exceeded")
    visitFields fs (depth + 1) c
  | _, depth, c => do
    throwIf (RECOVERY_LIMITS.canonicalDepth < depth) (label ++ " depth limit exceeded")
    return c

def visitItems : List Value → Nat → Nat → Counted → Except String Counted
  | [], _, _, c => return c
  | v :: vs, index, depth, c => do
    let c ← addEncodedBytes label maximums (natText index) true c
    let c ← visit v depth c
    visitItems vs (index + 1) depth c

def visitFields : Fields → Nat → Counted → Except String Counted
  | [], _, c => return c
  | (key, v) :: fs, depth, c => do
    let c ← addEncodedBytes label maximums key true c
    let c ← visit v depth c
    visitFields fs depth c

end

/-- `assertBoundedCanonicalValue`. -/
def assertBoundedCanonicalValue (value : Value) : Except String Unit := do
  let _ ← visit label maximums value 0 {}

end Walk

/-! ## The text -/

def forbiddenKeys : List Text := [text "__proto__", text "prototype", text "constructor"]

/-- `assertCanonicalObject` of an object with these properties. -/
def assertCanonicalFields (fs : Fields) : Except String Unit :=
  throwIf (∃ f ∈ fs, f.1 ∈ forbiddenKeys) "canonical object prototype-pollution key is unsupported"

/-- `assertCanonicalObject`. -/
def assertCanonicalObject (value : Value) : Except String Unit :=
  match value with
  | .object fs => assertCanonicalFields fs
  | .undefined | .null => .error "Cannot convert undefined or null to object"
  | _ => .error "canonical object must be plain"

/-- The members of an object in the order of their keys, the first error among them first. -/
def memberTexts : List (Text × Except String Text) → Except String (List Text)
  | [] => .ok []
  | (key, result) :: rest => do
    let t ← result
    let ts ← memberTexts rest
    return memberText key t :: ts

def itemTexts : List (Except String Text) → Except String (List Text)
  | [] => .ok []
  | result :: rest => do
    let t ← result
    let ts ← itemTexts rest
    return t :: ts

mutual

def canonicalJsonUnchecked : Value → Except String Text
  | .null => .ok (text "null")
  | .string s => .ok (quoteJSONString s)
  | .boolean b => .ok (if b then text "true" else text "false")
  | .number (.integer n h) => .ok (Number.integer n h).text
  | .number _ => .error "canonical number must be finite and not -0"
  | .bigint _ => .error "canonical bigint is unsupported"
  | .array vs => do
    let ts ← itemTexts (canonicalItems vs)
    return 91 :: (join ts ++ [93])
  | .object fs => do
    assertCanonicalFields fs
    let ts ← memberTexts ((canonicalFields fs).insertionSort keyLe)
    return 123 :: (join ts ++ [125])
  | .undefined => .error "canonical value has unsupported type undefined"

def canonicalItems : List Value → List (Except String Text)
  | [] => []
  | v :: vs => canonicalJsonUnchecked v :: canonicalItems vs

def canonicalFields : Fields → List (Text × Except String Text)
  | [] => []
  | (key, v) :: fs => (key, canonicalJsonUnchecked v) :: canonicalFields fs

end

/-- `canonicalJson`. -/
def canonicalJson (value : Value) : Except String Text := do
  assertBoundedCanonicalValue "canonical value" {} value
  canonicalJsonUnchecked value

/-- `digest`, over the hash function of `node:crypto`. -/
def digest (sha256 : Bytes → Bytes) (value : Value) : Except String Text := do
  let t ← canonicalJson value
  return text "sha256:" ++ hexOfBytes (sha256 (utf8 t))

/-! ## What the text says -/

theorem canonicalJsonUnchecked_array_eq (vs : List Value) :
    canonicalJsonUnchecked (.array vs) = do
      let ts ← itemTexts (canonicalItems vs)
      return 91 :: (join ts ++ [93]) := rfl

theorem canonicalJsonUnchecked_object_eq (fs : Fields) :
    canonicalJsonUnchecked (.object fs) = do
      assertCanonicalFields fs
      let ts ← memberTexts ((canonicalFields fs).insertionSort keyLe)
      return 123 :: (join ts ++ [125]) := rfl

theorem canonicalItems_eq (vs : List Value) :
    canonicalItems vs = vs.map canonicalJsonUnchecked := by
  induction vs with
  | nil => rfl
  | cons v vs ih => simp [canonicalItems, ih]

theorem canonicalFields_eq (fs : Fields) :
    canonicalFields fs = fs.map fun f => (f.1, canonicalJsonUnchecked f.2) := by
  induction fs with
  | nil => rfl
  | cons f fs ih => simp [canonicalFields, ih]

/-- Pairwise facts that need the membership of the left element. -/
theorem forall₂_imp_mem {α β : Type} {r s : α → β → Prop} {as : List α} {bs : List β}
    (h : List.Forall₂ r as bs) (himp : ∀ a ∈ as, ∀ b, r a b → s a b) : List.Forall₂ s as bs := by
  have hboth : List.Forall₂ (fun a b => a ∈ as ∧ r a b) as bs :=
    (List.forall₂_and_left as bs).mpr ⟨fun _ ha => ha, h⟩
  exact hboth.imp fun a b hab => himp a hab.1 b hab.2

theorem forall₂_right {α β : Type} {p : β → Prop} {as : List α} {bs : List β}
    (h : List.Forall₂ (fun _ b => p b) as bs) : ∀ b ∈ bs, p b := by
  induction h with
  | nil => simp
  | cons hb _ ih => exact List.forall_mem_cons.mpr ⟨hb, ih⟩

theorem itemTexts_ok {f : Value → Except String Text} {vs : List Value} {ts : List Text}
    (h : itemTexts (vs.map f) = .ok ts) : List.Forall₂ (fun v t => f v = .ok t) vs ts := by
  induction vs generalizing ts with
  | nil =>
    cases h
    exact .nil
  | cons v vs ih =>
    rw [List.map_cons, itemTexts] at h
    obtain ⟨t, hv, h⟩ := bind_eq_ok.mp h
    obtain ⟨us, hvs, h⟩ := bind_eq_ok.mp h
    cases h
    exact .cons hv (ih hvs)

theorem memberTexts_ok {f : Value → Except String Text} {fs : Fields} {ts : List Text}
    (h : memberTexts (fs.map fun p => (p.1, f p.2)) = .ok ts) :
    ∃ us, List.Forall₂ (fun p t => f p.2 = .ok t) fs us ∧
      ts = List.zipWith (fun p t => memberText p.1 t) fs us := by
  induction fs generalizing ts with
  | nil =>
    cases h
    exact ⟨[], .nil, rfl⟩
  | cons p fs ih =>
    rw [List.map_cons, memberTexts] at h
    obtain ⟨t, hp, h⟩ := bind_eq_ok.mp h
    obtain ⟨ts', hfs, h⟩ := bind_eq_ok.mp h
    obtain ⟨us, hus, rfl⟩ := ih hfs
    cases h
    exact ⟨t :: us, .cons hp hus, rfl⟩

/-- Sorting by key commutes with a change of the values. -/
theorem insertionSort_map {α β : Type} (g : α → β) (fs : List (Text × α)) :
    (fs.map fun f => (f.1, g f.2)).insertionSort keyLe
      = (fs.insertionSort keyLe).map fun f => (f.1, g f.2) :=
  (List.map_insertionSort keyLe keyLe (fun f : Text × α => (f.1, g f.2)) fs
    fun _ _ _ _ => Iff.rfl).symm

/-- The text of an object, from the texts of its properties in order. -/
theorem canonicalJsonUnchecked_object {fs : Fields} {t : Text}
    (h : canonicalJsonUnchecked (.object fs) = .ok t) :
    ∃ us, List.Forall₂ (fun f u => canonicalJsonUnchecked f.2 = .ok u)
        (fs.insertionSort keyLe) us ∧
      t = 123 :: (join (List.zipWith (fun f u => memberText f.1 u) (fs.insertionSort keyLe) us) ++
        [125]) := by
  rw [canonicalJsonUnchecked] at h
  obtain ⟨-, -, h⟩ := bind_eq_ok.mp h
  obtain ⟨ts, hts, h⟩ := bind_eq_ok.mp h
  rw [canonicalFields_eq, insertionSort_map] at hts
  obtain ⟨us, hus, rfl⟩ := memberTexts_ok hts
  cases h
  exact ⟨us, hus, rfl⟩

/-- The text of a value is read as its data with the keys in order. -/
theorem canonicalJsonUnchecked_reads (v : Value) :
    v.distinctKeys → ∀ t, canonicalJsonUnchecked v = .ok t → Reads v.sortKeys t := by
  induction v using Value.induction with
  | undefined => intro _ t ht; cases ht
  | null =>
    intro _ t ht
    cases ht
    exact .null
  | boolean b =>
    intro _ t ht
    cases ht
    exact .boolean b
  | number x =>
    intro _ t ht
    cases x with
    | integer n h =>
      cases ht
      exact .number h
    | negativeZero => cases ht
    | notFinite => cases ht
  | bigint n => intro _ t ht; cases ht
  | string s =>
    intro _ t ht
    cases ht
    exact .string s
  | array vs ih =>
    intro hdistinct t ht
    rw [canonicalJsonUnchecked, canonicalItems_eq] at ht
    obtain ⟨ts, hts, ht⟩ := bind_eq_ok.mp ht
    cases ht
    rw [Value.sortKeys, sortItems_eq]
    apply Reads.array
    rw [List.forall₂_map_left_iff]
    refine forall₂_imp_mem (itemTexts_ok hts) fun v hv t hvt => ?_
    exact ih v hv (distinctKeys_array.mp hdistinct v hv) t hvt
  | object fs ih =>
    intro hdistinct t ht
    obtain ⟨hnodup, hvalues⟩ := distinctKeys_object.mp hdistinct
    obtain ⟨us, hus, rfl⟩ := canonicalJsonUnchecked_object ht
    have hperm : (fs.insertionSort keyLe).Perm fs := List.perm_insertionSort keyLe fs
    have htexts : List.zipWith (fun f u => memberText f.1 u) (fs.insertionSort keyLe) us
        = List.zipWith (fun f u => memberText f.1 u)
          ((fs.insertionSort keyLe).map fun f => (f.1, f.2.sortKeys)) us := by
      rw [List.zipWith_map_left]
    rw [Value.sortKeys, sortFields_eq, insertionSort_map, htexts]
    apply Reads.object
    · rw [List.forall₂_map_left_iff]
      refine forall₂_imp_mem hus fun f hf u hfu => ?_
      have hmem : f ∈ fs := hperm.mem_iff.mp hf
      exact ih f hmem (hvalues f hmem) u hfu
    · rw [List.map_map]
      exact (hperm.map Prod.fst).nodup_iff.mpr hnodup

/-! ## The text has its surrogates paired -/

theorem hexUnit_ascii {d : Nat} (hd : d < 16) : (hexUnit d).toNat < 128 := by
  rw [hexUnit_toNat hd]
  split <;> omega

theorem quoteUnit_wellFormed (c : UInt16) : WellFormed (quoteUnit c) := by
  have hc := c.toNat_lt
  unfold quoteUnit
  split_ifs with h₁ h₂ h₃ h₄ h₅ h₆ h₇ h₈
  · exact .of_all (by decide)
  · exact .of_all (by decide)
  · exact .of_all (by decide)
  · exact .of_all (by decide)
  · exact .of_all (by decide)
  · exact .of_all (by decide)
  · exact .of_all (by decide)
  · refine .of_forall fun d hd => ?_
    simp only [unicodeEscape, List.mem_cons, List.not_mem_nil, or_false] at hd
    rcases hd with rfl | rfl | rfl | rfl | rfl | rfl
    · decide
    · decide
    · exact hexUnit_ascii (by omega)
    · exact hexUnit_ascii (Nat.mod_lt _ (by decide))
    · exact hexUnit_ascii (Nat.mod_lt _ (by decide))
    · exact hexUnit_ascii (Nat.mod_lt _ (by decide))
  · have hlead : isLead c = false := by
      by_contra hne
      exact h₈ (.inr (.inl (by simpa using hne)))
    have htrail : isTrail c = false := by
      by_contra hne
      exact h₈ (.inr (.inr (by simpa using hne)))
    exact .single hlead htrail

theorem quoteUnits_wellFormed (s : Text) : WellFormed (quoteUnits s) := by
  induction s using quoteUnits.induct with
  | case1 => exact .nil
  | case2 c => exact quoteUnit_wellFormed c
  | case3 c d rest hpair ih =>
    have hunits : isLead c ∧ isTrail d := by simpa using hpair
    rw [quoteUnits, if_pos hpair]
    exact (WellFormed.pair hunits.1 hunits.2).append ih
  | case4 c d rest hpair ih =>
    rw [quoteUnits, if_neg hpair]
    exact (quoteUnit_wellFormed c).append ih

theorem quoteJSONString_wellFormed (s : Text) : WellFormed (quoteJSONString s) :=
  (WellFormed.ascii (c := 34) (by decide)).append
    ((quoteUnits_wellFormed s).append (WellFormed.ascii (by decide)))

theorem natText_ascii (n : Nat) : ∀ c ∈ natText n, c.toNat < 128 := by
  intro c hc
  have hdigit : isDigit c := isDecimal_digits (isDecimal_natText n) c hc
  have hrange : 48 ≤ c.toNat ∧ c.toNat ≤ 57 := by simpa [isDigit] using hdigit
  omega

theorem numberText_wellFormed {n : Int} (h : IsDouble n.natAbs) :
    WellFormed (Number.integer n h).text := by
  have hmagnitude : ∀ c ∈ magnitudeText n.natAbs, c.toNat < 128 := by
    intro c hc
    have hsub : ∀ m, ∀ d ∈ (natText m).rdropWhile (· = 48), d.toNat < 128 := fun m d hd =>
      natText_ascii m d ((List.rdropWhile_prefix _ _).mem hd)
    rw [magnitudeText] at hc
    split at hc
    · exact natText_ascii _ c hc
    · simp only [exponentText, List.mem_append] at hc
      rcases hc with ((hc | hc) | hc) | hc
      · exact hsub _ c (List.mem_of_mem_take hc)
      · split at hc
        · cases hc
        · rcases List.mem_append.mp hc with hdot | hdigit
          · rw [List.mem_singleton.mp hdot]
            decide
          · exact hsub _ c (List.mem_of_mem_tail hdigit)
      · have hmark : ([101, 43] : Text).all (fun c => c.toNat < 128) = true := by decide
        simpa using List.all_eq_true.mp hmark c hc
      · exact natText_ascii _ c hc
  rw [Number.text]
  refine WellFormed.append ?_ (.of_forall hmagnitude)
  split
  · exact .of_all (by decide)
  · exact .nil

theorem join_wellFormed {ts : List Text} (h : ∀ t ∈ ts, WellFormed t) : WellFormed (join ts) := by
  induction ts with
  | nil => exact .nil
  | cons t ts ih =>
    have ht : WellFormed t := h t (by simp)
    have hts := ih fun u hu => h u (by simp [hu])
    cases ts with
    | nil => exact ht
    | cons u ts => exact ht.append ((WellFormed.ascii (c := 44) (by decide)).append hts)

/-- An opening and a closing mark around a text. -/
theorem enclosed_wellFormed {c d : UInt16} (hc : c.toNat < 128) (hd : d.toNat < 128) {t : Text}
    (h : WellFormed t) : WellFormed (c :: (t ++ [d])) :=
  (WellFormed.ascii hc).append (h.append (.ascii hd))

theorem canonicalJsonUnchecked_wellFormed (v : Value) :
    ∀ t, canonicalJsonUnchecked v = .ok t → WellFormed t := by
  induction v using Value.induction with
  | undefined => intro t ht; cases ht
  | null =>
    intro t ht
    cases ht
    exact .of_all (by decide)
  | boolean b =>
    intro t ht
    cases ht
    cases b <;> exact .of_all (by decide)
  | number x =>
    intro t ht
    cases x with
    | integer n h =>
      cases ht
      exact numberText_wellFormed h
    | negativeZero => cases ht
    | notFinite => cases ht
  | bigint n => intro t ht; cases ht
  | string s =>
    intro t ht
    cases ht
    exact quoteJSONString_wellFormed s
  | array vs ih =>
    intro t ht
    rw [canonicalJsonUnchecked, canonicalItems_eq] at ht
    obtain ⟨ts, hts, ht⟩ := bind_eq_ok.mp ht
    cases ht
    have htexts := forall₂_imp_mem (itemTexts_ok hts) ih
    refine enclosed_wellFormed (by decide) (by decide) (join_wellFormed fun t ht => ?_)
    exact forall₂_right htexts t ht
  | object fs ih =>
    intro t ht
    obtain ⟨us, hus, rfl⟩ := canonicalJsonUnchecked_object ht
    have hperm : (fs.insertionSort keyLe).Perm fs := List.perm_insertionSort keyLe fs
    have htexts := forall₂_imp_mem hus fun f hf => ih f (hperm.mem_iff.mp hf)
    refine enclosed_wellFormed (by decide) (by decide) (join_wellFormed fun t ht => ?_)
    rw [← List.map_uncurry_zip_eq_zipWith] at ht
    obtain ⟨⟨f, u⟩, hmem, rfl⟩ := List.mem_map.mp ht
    have hu : WellFormed u := forall₂_right htexts u (List.of_mem_zip hmem).2
    exact (quoteJSONString_wellFormed f.1).append ((WellFormed.ascii (c := 58) (by decide)).append hu)

/-! ## Canonical JSON determines the data -/

theorem canonicalJson_unchecked {v : Value} {t : Text} (h : canonicalJson v = .ok t) :
    canonicalJsonUnchecked v = .ok t := by
  rw [canonicalJson] at h
  obtain ⟨-, -, h⟩ := bind_eq_ok.mp h
  exact h

theorem canonicalJson_reads {v : Value} (hv : v.distinctKeys) {t : Text}
    (h : canonicalJson v = .ok t) : Reads v.sortKeys t :=
  canonicalJsonUnchecked_reads v hv t (canonicalJson_unchecked h)

theorem canonicalJson_wellFormed {v : Value} {t : Text} (h : canonicalJson v = .ok t) :
    WellFormed t :=
  canonicalJsonUnchecked_wellFormed v t (canonicalJson_unchecked h)

/-- Values with one text are the same data. -/
theorem canonicalJson_sortKeys {v w : Value} (hv : v.distinctKeys) (hw : w.distinctKeys)
    {t : Text} (h : canonicalJson v = .ok t) (h' : canonicalJson w = .ok t) :
    v.sortKeys = w.sortKeys :=
  (canonicalJson_reads hv h).unique (canonicalJson_reads hw h')

/-- The bytes that `digest` hashes. -/
def Digested (v : Value) (bytes : Bytes) : Prop :=
  ∃ t, canonicalJson v = .ok t ∧ bytes = utf8 t

theorem digest_ok {sha256 : Bytes → Bytes} {v : Value} {d : Text} (h : digest sha256 v = .ok d) :
    ∃ t, canonicalJson v = .ok t ∧ d = text "sha256:" ++ hexOfBytes (sha256 (utf8 t)) := by
  rw [digest] at h
  obtain ⟨t, ht, h⟩ := bind_eq_ok.mp h
  cases h
  exact ⟨t, ht, rfl⟩

/-- Values with one digest are the same data, unless their texts collide. -/
theorem digest_sortKeys {sha256 : Bytes → Bytes} {s : Set Bytes} (hsha : Set.InjOn sha256 s)
    {v w : Value} (hv : v.distinctKeys) (hw : w.distinctKeys)
    (hvs : ∀ b, Digested v b → b ∈ s) (hws : ∀ b, Digested w b → b ∈ s)
    {d : Text} (h : digest sha256 v = .ok d) (h' : digest sha256 w = .ok d) :
    v.sortKeys = w.sortKeys := by
  obtain ⟨t, ht, hd⟩ := digest_ok h
  obtain ⟨u, hu, hd'⟩ := digest_ok h'
  have hhash : sha256 (utf8 t) = sha256 (utf8 u) := by
    apply hexOfBytes_injective
    exact List.append_cancel_left (hd.symm.trans hd')
  have hbytes : utf8 t = utf8 u := hsha (hvs _ ⟨t, ht, rfl⟩) (hws _ ⟨u, hu, rfl⟩) hhash
  have htext : t = u := utf8_inj (canonicalJson_wellFormed ht) (canonicalJson_wellFormed hu) hbytes
  rw [htext] at ht
  exact canonicalJson_sortKeys hv hw ht hu

end Hookemon.Runner
