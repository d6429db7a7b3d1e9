import Hookemon.Runner.CanonicalBounds
import Hookemon.Runner.PayoutPlan

/-! # The digests of `distribution/snapshot-indexer.mjs`

`snapshotDigest` hashes the JSON text of a value with the keys of every object in order,
piece by piece, so there is no bound on its size. Where the value has a canonical text it
is that text, and values with one digest are the same data unless their texts collide.
-/

namespace Hookemon.Runner.SnapshotIndexer

open Hookemon.Core Hookemon.Js

/-! ## The text and the digest -/

/-- `JSON.stringify` of a number. -/
def numberJson : Number → Text
  | .integer n h => (Number.integer n h).text
  | .negativeZero => text "0"
  | .notFinite => text "null"

mutual

/-- `appendCanonicalJson`, as the text that it appends. -/
def appendCanonicalJson : Value → Except String Text
  | .null => .ok (text "null")
  | .string s => .ok (quoteJSONString s)
  | .boolean b => .ok (if b then text "true" else text "false")
  | .number x => .ok (numberJson x)
  | .array vs => do
    let ts ← itemTexts (appendItems vs)
    return 91 :: (join ts ++ [93])
  | .object fs => do
    let ts ← memberTexts ((appendFields fs).insertionSort keyLe)
    return 123 :: (join ts ++ [125])
  | .bigint _ | .undefined => .error "snapshot digest value is unsupported"

def appendItems : List Value → List (Except String Text)
  | [] => []
  | v :: vs => appendCanonicalJson v :: appendItems vs

def appendFields : Fields → List (Text × Except String Text)
  | [] => []
  | (key, v) :: fs => (key, appendCanonicalJson v) :: appendFields fs

end
/-- An integer as a value; what is no number of the language has no text. -/
def integerValue (n : Int) : Value :=
  if h : IsDouble n.natAbs then .number (.integer n h) else .undefined

def snapshotDigest (sha256 : Bytes → Bytes) (value : Value) : Except String Text := do
  let t ← appendCanonicalJson value
  return text "sha256:" ++ hexOfBytes (sha256 (utf8 t))

/-! ## The text of plain data -/

theorem appendItems_eq (vs : List Value) : appendItems vs = vs.map appendCanonicalJson := by
  induction vs with
  | nil => rfl
  | cons v vs ih => simp [appendItems, ih]

theorem appendFields_eq (fs : Fields) :
    appendFields fs = fs.map fun f => (f.1, appendCanonicalJson f.2) := by
  induction fs with
  | nil => rfl
  | cons f fs ih => simp [appendFields, ih]

/-- Items that encode alike encode alike in an array. -/
theorem itemTexts_of_forall {f g : Value → Except String Text} {vs : List Value}
    (h : ∀ v ∈ vs, ∀ t, f v = .ok t → g v = .ok t) :
    ∀ ts, itemTexts (vs.map f) = .ok ts → itemTexts (vs.map g) = .ok ts := by
  induction vs with
  | nil => exact fun _ hts => hts
  | cons v vs ih =>
    rw [List.forall_mem_cons] at h
    intro ts hts
    simp only [List.map_cons, itemTexts, bind_eq_ok, pure_eq_ok] at hts ⊢
    obtain ⟨t, hv, us, hvs, rfl⟩ := hts
    exact ⟨t, h.1 t hv, us, ih h.2 us hvs, rfl⟩

theorem memberTexts_of_forall {f g : Value → Except String Text} {fs : Fields}
    (h : ∀ p ∈ fs, ∀ t, f p.2 = .ok t → g p.2 = .ok t) :
    ∀ ts, memberTexts (fs.map fun p => (p.1, f p.2)) = .ok ts →
      memberTexts (fs.map fun p => (p.1, g p.2)) = .ok ts := by
  induction fs with
  | nil => exact fun _ hts => hts
  | cons p fs ih =>
    rw [List.forall_mem_cons] at h
    intro ts hts
    simp only [List.map_cons, memberTexts, bind_eq_ok, pure_eq_ok] at hts ⊢
    obtain ⟨t, hp, us, hfs, rfl⟩ := hts
    exact ⟨t, h.1 t hp, us, ih h.2 us hfs, rfl⟩

/-- The text that is hashed is the canonical text, where there is one. -/
theorem appendCanonicalJson_of_canonical (v : Value) :
    ∀ t, canonicalJsonUnchecked v = .ok t → appendCanonicalJson v = .ok t := by
  induction v using Value.induction with
  | undefined =>
    intro _ h
    cases h
  | null => exact fun _ h => h
  | boolean b => exact fun _ h => h
  | number x =>
    intro t h
    cases x with
    | integer n hn => exact h
    | negativeZero => cases h
    | notFinite => cases h
  | bigint n =>
    intro _ h
    cases h
  | string s => exact fun _ h => h
  | array vs ih =>
    intro t h
    rw [canonicalJsonUnchecked, canonicalItems_eq] at h
    rw [appendCanonicalJson, appendItems_eq]
    simp only [bind_eq_ok] at h ⊢
    obtain ⟨ts, hts, ht⟩ := h
    exact ⟨ts, itemTexts_of_forall ih ts hts, ht⟩
  | object fs ih =>
    intro t h
    have hperm : (fs.insertionSort keyLe).Perm fs := List.perm_insertionSort keyLe fs
    rw [canonicalJsonUnchecked, canonicalFields_eq, insertionSort_map] at h
    rw [appendCanonicalJson, appendFields_eq, insertionSort_map]
    simp only [bind_eq_ok] at h ⊢
    obtain ⟨-, -, ts, hts, ht⟩ := h
    exact ⟨ts, memberTexts_of_forall (fun p hp => ih p (hperm.mem_iff.mp hp)) ts hts, ht⟩

section

variable {sha256 : Bytes → Bytes}

/-- A value with a canonical text has a digest. -/
theorem snapshotDigest_of_encodable {v : Value} (h : Encodable v) :
    ∃ d, snapshotDigest sha256 v = .ok d := by
  obtain ⟨t, ht⟩ := h
  rw [snapshotDigest, appendCanonicalJson_of_canonical v t ht]
  exact ⟨_, rfl⟩

/-- A hash of 32 bytes makes digests of the right form. -/
theorem isDigest_of_snapshotDigest (hlength : ∀ bytes, (sha256 bytes).length = 32) {v : Value}
    {d : Text} (h : snapshotDigest sha256 v = .ok d) : isDigest d := by
  simp only [snapshotDigest, bind_eq_ok, pure_eq_ok] at h
  obtain ⟨t, -, rfl⟩ := h
  have hhex : (hexOfBytes (sha256 (utf8 t))).length = 64 := by rw [hexOfBytes_length, hlength]
  rw [isDigest, hasShape, List.take_left, List.drop_left, hhex]
  simpa using hexOfBytes_lower _
/-! ## Plain data -/

/-- A value with a canonical text, in which no object has a key twice. -/
structure Plain (v : Value) : Prop where
  distinct : v.distinctKeys
  encodable : Encodable v

namespace Plain

theorem string (s : Text) : Plain (.string s) := ⟨rfl, .string s⟩

theorem boolean (b : Bool) : Plain (.boolean b) := ⟨rfl, .boolean b⟩

theorem integer {n : Int} (h : IsDouble n.natAbs) : Plain (integerValue n) := by
  rw [integerValue, dif_pos h]
  exact ⟨rfl, _, rfl⟩

theorem array {vs : List Value} (h : ∀ v ∈ vs, Plain v) : Plain (.array vs) where
  distinct := distinctKeys_array.mpr fun v hv => (h v hv).distinct
  encodable := Encodable.array.mpr fun v hv => (h v hv).encodable

/-- An object is plain when its keys are distinct and harmless and its values are plain. -/
theorem object {fs : Fields} (keys : List Text) (hkeys : fs.map Prod.fst = keys)
    (hsafe : keys.Nodup ∧ ∀ key ∈ keys, key ∉ forbiddenKeys)
    (hvalues : ∀ v ∈ fs.map Prod.snd, Plain v) : Plain (.object fs) where
  distinct := by
    refine distinctKeys_object.mpr ⟨hkeys ▸ hsafe.1, fun f hf => ?_⟩
    exact (hvalues f.2 (List.mem_map_of_mem hf)).distinct
  encodable := by
    refine Encodable.object.mpr ⟨fun f hf => ?_, fun f hf => ?_⟩
    · exact hsafe.2 f.1 (hkeys ▸ List.mem_map_of_mem hf)
    · exact (hvalues f.2 (List.mem_map_of_mem hf)).encodable

end Plain

/-- Plain data has a digest. -/
theorem Plain.snapshotDigest_isOk {v : Value} (h : Plain v) (sha256 : Bytes → Bytes) :
    ∃ d, snapshotDigest sha256 v = .ok d :=
  snapshotDigest_of_encodable h.encodable

/-- Plain data with one digest is the same data, unless the texts collide. -/
theorem Plain.sortKeys_eq {s : Set Bytes} (hsha : Set.InjOn sha256 s) {v w : Value}
    (hv : Plain v) (hw : Plain w)
    (hvs : ∀ t, appendCanonicalJson v = .ok t → utf8 t ∈ s)
    (hws : ∀ t, appendCanonicalJson w = .ok t → utf8 t ∈ s)
    {d : Text} (h : snapshotDigest sha256 v = .ok d) (h' : snapshotDigest sha256 w = .ok d) :
    v.sortKeys = w.sortKeys := by
  obtain ⟨t, ht⟩ := hv.encodable
  obtain ⟨u, hu⟩ := hw.encodable
  have hv' := appendCanonicalJson_of_canonical v t ht
  have hw' := appendCanonicalJson_of_canonical w u hu
  rw [snapshotDigest, hv'] at h
  rw [snapshotDigest, hw'] at h'
  have hhash : sha256 (utf8 t) = sha256 (utf8 u) := by
    apply hexOfBytes_injective
    exact List.append_cancel_left (Except.ok.inj (h.trans h'.symm))
  have hbytes : utf8 t = utf8 u := hsha (hvs t hv') (hws u hw') hhash
  have htext : t = u := utf8_inj (canonicalJsonUnchecked_wellFormed v t ht)
    (canonicalJsonUnchecked_wellFormed w u hu) hbytes
  subst htext
  exact (canonicalJsonUnchecked_reads v hv.distinct t ht).unique
    (canonicalJsonUnchecked_reads w hw.distinct t hu)

end

/-! ## What has a text -/

/-- The items of an array that has a text have texts. -/
theorem append_item {vs : List Value} (h : ∃ t, appendCanonicalJson (.array vs) = .ok t) :
    ∀ v ∈ vs, ∃ t, appendCanonicalJson v = .ok t := by
  simp only [appendCanonicalJson, appendItems_eq, bind_eq_ok] at h
  obtain ⟨_, ts, hts, -⟩ := h
  induction vs generalizing ts with
  | nil => simp
  | cons v vs ih =>
    simp only [List.map_cons, itemTexts, bind_eq_ok] at hts
    obtain ⟨t, hv, us, hvs, -⟩ := hts
    exact List.forall_mem_cons.mpr ⟨⟨t, hv⟩, ih us hvs⟩

/-- The properties of an object that has a text have texts. -/
theorem append_field {fs : Fields} (h : ∃ t, appendCanonicalJson (.object fs) = .ok t) :
    ∀ f ∈ fs, ∃ t, appendCanonicalJson f.2 = .ok t := by
  have hperm : (fs.insertionSort keyLe).Perm fs := List.perm_insertionSort keyLe fs
  simp only [appendCanonicalJson, appendFields_eq, insertionSort_map, bind_eq_ok] at h
  obtain ⟨_, ts, hts, -⟩ := h
  intro f hf
  rw [← hperm.mem_iff] at hf
  generalize fs.insertionSort keyLe = gs at hf hts
  induction gs generalizing ts with
  | nil => simp at hf
  | cons g gs ih =>
    simp only [List.map_cons, memberTexts, bind_eq_ok] at hts
    obtain ⟨t, hg, us, hgs, -⟩ := hts
    rcases List.mem_cons.mp hf with rfl | hrest
    · exact ⟨t, hg⟩
    · exact ih us hrest hgs

theorem isDouble_of_append {n : Int} (h : ∃ t, appendCanonicalJson (integerValue n) = .ok t) :
    IsDouble n.natAbs := by
  by_contra hnot
  obtain ⟨t, ht⟩ := h
  rw [integerValue, dif_neg hnot] at ht
  cases ht

end Hookemon.Runner.SnapshotIndexer
