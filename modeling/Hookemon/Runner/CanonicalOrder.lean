import Hookemon.Runner.CanonicalBounds

/-! # Canonical JSON and the order of keys

Putting the keys of a value in order changes neither what the walk accepts nor the
canonical text. A file holds a canonical text and a newline, and reading it gives the
data with its keys in order.
-/

namespace Hookemon.Runner

open Hookemon.Core Hookemon.Js

/-! ## Sorted data -/

instance instTotalKeyLe {α : Type} : Std.Total (@keyLe α) := ⟨fun p q => le_total p.1 q.1⟩

instance instTransKeyLe {α : Type} : IsTrans (Text × α) keyLe :=
  ⟨fun _ _ _ hpq hqr => le_trans (α := Text) hpq hqr⟩

/-- Fields that are sorted twice. -/
theorem insertionSort_twice {α : Type} (fs : List (Text × α)) :
    (fs.insertionSort keyLe).insertionSort keyLe = fs.insertionSort keyLe :=
  (List.pairwise_insertionSort keyLe fs).insertionSort_eq

theorem sortKeys_object (fs : Fields) : (Value.object fs).sortKeys
    = .object ((fs.insertionSort keyLe).map fun f => (f.1, f.2.sortKeys)) := by
  rw [Value.sortKeys, sortFields_eq, insertionSort_map]

theorem sortKeys_array (vs : List Value) :
    (Value.array vs).sortKeys = .array (vs.map Value.sortKeys) := by
  rw [Value.sortKeys, sortItems_eq]

theorem sortKeys_sortKeys (v : Value) : v.sortKeys.sortKeys = v.sortKeys := by
  induction v using Value.induction with
  | array vs ih =>
    rw [sortKeys_array, sortKeys_array, List.map_map]
    congr 1
    exact List.map_congr_left ih
  | object fs ih =>
    rw [sortKeys_object, sortKeys_object, insertionSort_map, insertionSort_twice, List.map_map]
    congr 1
    apply List.map_congr_left
    intro f hf
    have hsame := ih f ((List.mem_insertionSort keyLe).mp hf)
    simp only [Function.comp_apply, hsame]
  | _ => rfl

theorem distinctKeys_sortKeys {v : Value} (h : v.distinctKeys) : v.sortKeys.distinctKeys := by
  induction v using Value.induction with
  | array vs ih =>
    rw [sortKeys_array, distinctKeys_array]
    intro w hw
    obtain ⟨v, hv, rfl⟩ := List.mem_map.mp hw
    exact ih v hv (distinctKeys_array.mp h v hv)
  | object fs ih =>
    obtain ⟨hnodup, hvalues⟩ := distinctKeys_object.mp h
    have hperm : (fs.insertionSort keyLe).Perm fs := List.perm_insertionSort keyLe fs
    rw [sortKeys_object, distinctKeys_object, List.map_map]
    constructor
    · exact (hperm.map Prod.fst).nodup_iff.mpr hnodup
    · intro g hg
      obtain ⟨f, hf, rfl⟩ := List.mem_map.mp hg
      have hmem := (List.mem_insertionSort keyLe).mp hf
      exact ih f hmem (hvalues f hmem)
  | _ => exact h

/-! ## The walk -/

theorem countedFields_perm {fs gs : Fields} (h : fs.Perm gs) :
    countedFields fs = countedFields gs := by
  induction h with
  | nil => rfl
  | cons f _ ih => rw [countedFields, countedFields, ih]
  | swap f g fs =>
    simp only [countedFields, Counted.add_def, Counted.mk.injEq]
    omega
  | trans _ _ ih₁ ih₂ => exact ih₁.trans ih₂

theorem countedFields_map {f : Value → Value} {fs : Fields}
    (h : ∀ p ∈ fs, countedValue (f p.2) = countedValue p.2) :
    countedFields (fs.map fun p => (p.1, f p.2)) = countedFields fs := by
  induction fs with
  | nil => rfl
  | cons p fs ih =>
    rw [List.forall_mem_cons] at h
    rw [List.map_cons, countedFields, countedFields, h.1, ih h.2]

theorem countedItems_map {f : Value → Value} {vs : List Value}
    (h : ∀ v ∈ vs, countedValue (f v) = countedValue v) :
    ∀ index, countedItems (vs.map f) index = countedItems vs index := by
  induction vs with
  | nil =>
    intro _
    rfl
  | cons v vs ih =>
    intro index
    rw [List.forall_mem_cons] at h
    rw [List.map_cons, countedItems_cons, countedItems_cons, h.1, ih h.2]

theorem countedValue_sortKeys (v : Value) : countedValue v.sortKeys = countedValue v := by
  induction v using Value.induction with
  | array vs ih => rw [sortKeys_array, countedValue_array, countedValue_array, countedItems_map ih]
  | object fs ih =>
    have hperm : (fs.insertionSort keyLe).Perm fs := List.perm_insertionSort keyLe fs
    have hsame := countedFields_map (f := Value.sortKeys)
      (fun p hp => ih p (hperm.mem_iff.mp hp))
    rw [sortKeys_object, countedValue_object, countedValue_object, hsame, countedFields_perm hperm]
  | _ => rfl

theorem itemsFit_map {m : Maximums} {f : Value → Value} {vs : List Value} {depth : Nat}
    (h : ∀ v ∈ vs, ValueFits m (f v) depth ↔ ValueFits m v depth) :
    ∀ index, ItemsFit m (vs.map f) index depth ↔ ItemsFit m vs index depth := by
  induction vs with
  | nil =>
    intro _
    exact Iff.rfl
  | cons v vs ih =>
    intro index
    rw [List.forall_mem_cons] at h
    rw [List.map_cons, itemsFit_cons, itemsFit_cons, h.1, ih h.2]

theorem valueFits_sortKeys {m : Maximums} (v : Value) :
    ∀ depth, ValueFits m v.sortKeys depth ↔ ValueFits m v depth := by
  induction v using Value.induction with
  | array vs ih =>
    intro depth
    have hitems : ∀ index, ItemsFit m (vs.map Value.sortKeys) index (depth + 1) ↔
        ItemsFit m vs index (depth + 1) :=
      itemsFit_map fun v hv => ih v hv (depth + 1)
    rw [sortKeys_array, valueFits_array, valueFits_array, List.length_map, hitems]
  | object fs ih =>
    intro depth
    have hperm : (fs.insertionSort keyLe).Perm fs := List.perm_insertionSort keyLe fs
    rw [sortKeys_object, valueFits_object, valueFits_object, List.length_map, hperm.length_eq, fieldsFit_iff,
      fieldsFit_iff, List.forall_mem_map]
    simp only [hperm.mem_iff]
    refine and_congr_right fun _ => and_congr_right fun _ => forall₂_congr fun f hf => ?_
    rw [ih f hf (depth + 1)]
  | _ =>
    intro depth
    exact Iff.rfl

theorem bounded_sortKeys {m : Maximums} {v : Value} : Bounded m v.sortKeys ↔ Bounded m v := by
  constructor
  · rintro ⟨hfits, hwithin⟩
    rw [countedValue_sortKeys] at hwithin
    exact ⟨(valueFits_sortKeys v 0).mp hfits, hwithin⟩
  · rintro ⟨hfits, hwithin⟩
    refine ⟨(valueFits_sortKeys v 0).mpr hfits, ?_⟩
    rwa [countedValue_sortKeys]

/-! ## The text -/

theorem canonicalJsonUnchecked_sortKeys (v : Value) :
    canonicalJsonUnchecked v.sortKeys = canonicalJsonUnchecked v := by
  induction v using Value.induction with
  | array vs ih =>
    have hitems : canonicalItems (vs.map Value.sortKeys) = canonicalItems vs := by
      rw [canonicalItems_eq, canonicalItems_eq, List.map_map]
      exact List.map_congr_left ih
    rw [sortKeys_array, canonicalJsonUnchecked_array_eq, canonicalJsonUnchecked_array_eq, hitems]
  | object fs ih =>
    have hperm : (fs.insertionSort keyLe).Perm fs := List.perm_insertionSort keyLe fs
    have hkeys : assertCanonicalFields ((fs.insertionSort keyLe).map fun f => (f.1, f.2.sortKeys))
        = assertCanonicalFields fs := by
      have hsame : (∃ f ∈ (fs.insertionSort keyLe).map fun f => (f.1, f.2.sortKeys),
          f.1 ∈ forbiddenKeys) ↔ ∃ f ∈ fs, f.1 ∈ forbiddenKeys := by
        simp only [List.mem_map, hperm.mem_iff, exists_exists_and_eq_and]
      rw [assertCanonicalFields, assertCanonicalFields, throwIf, throwIf, revertIf, revertIf]
      simp only [hsame]
    have hfields : (canonicalFields ((fs.insertionSort keyLe).map fun f => (f.1, f.2.sortKeys))
        ).insertionSort keyLe = (canonicalFields fs).insertionSort keyLe := by
      have htexts : (fs.insertionSort keyLe).map (fun f => (f.1, canonicalJsonUnchecked f.2.sortKeys))
          = (fs.insertionSort keyLe).map fun f => (f.1, canonicalJsonUnchecked f.2) := by
        apply List.map_congr_left
        intro f hf
        rw [ih f (hperm.mem_iff.mp hf)]
      rw [canonicalFields_eq, canonicalFields_eq, List.map_map]
      show ((fs.insertionSort keyLe).map fun f => (f.1, canonicalJsonUnchecked f.2.sortKeys)
        ).insertionSort keyLe = _
      rw [htexts, insertionSort_map, insertionSort_map, insertionSort_twice]
    rw [sortKeys_object, canonicalJsonUnchecked_object_eq, canonicalJsonUnchecked_object_eq, hkeys, hfields]
  | _ => rfl

theorem canonicalJson_eq_ok {v : Value} {t : Text} :
    canonicalJson v = .ok t ↔ Bounded {} v ∧ canonicalJsonUnchecked v = .ok t := by
  rw [canonicalJson, bind_eq_ok, ← assertBoundedCanonicalValue_eq_ok "canonical value"]
  constructor
  · rintro ⟨_, hbounded, ht⟩
    exact ⟨hbounded, ht⟩
  · rintro ⟨hbounded, ht⟩
    exact ⟨(), hbounded, ht⟩

/-- **The canonical text does not depend on the order of keys.** -/
theorem canonicalJson_sorted {v : Value} {t : Text} :
    canonicalJson v.sortKeys = .ok t ↔ canonicalJson v = .ok t := by
  rw [canonicalJson_eq_ok, canonicalJson_eq_ok, bounded_sortKeys, canonicalJsonUnchecked_sortKeys]

theorem digest_sorted {sha256 : Bytes → Bytes} {v : Value} {d : Text} :
    digest sha256 v.sortKeys = .ok d ↔ digest sha256 v = .ok d := by
  simp only [digest, bind_eq_ok, canonicalJson_sorted]

/-- The text is that of any other value with the same data. -/
theorem canonicalJson_congr {v w : Value} (h : v.sortKeys = w.sortKeys) {t : Text} :
    canonicalJson v = .ok t ↔ canonicalJson w = .ok t := by
  rw [← canonicalJson_sorted, h, canonicalJson_sorted]

/-! ## Parts -/

theorem itemsFit_mono {m : Maximums} {vs : List Value} {depth depth' : Nat}
    (h : ∀ v ∈ vs, ValueFits m v depth → ValueFits m v depth') :
    ∀ index, ItemsFit m vs index depth → ItemsFit m vs index depth' := by
  induction vs with
  | nil => exact fun _ _ => trivial
  | cons v vs ih =>
    intro index hfits
    rw [List.forall_mem_cons] at h
    exact ⟨hfits.1, h.1 hfits.2.1, ih h.2 (index + 1) hfits.2.2⟩

/-- What fits at some depth fits above it. -/
theorem valueFits_mono {m : Maximums} (v : Value) :
    ∀ {depth depth' : Nat}, depth' ≤ depth → ValueFits m v depth → ValueFits m v depth' := by
  induction v using Value.induction with
  | string s =>
    intro depth depth' hle hfits
    exact ⟨hle.trans hfits.1, hfits.2⟩
  | array vs ih =>
    intro depth depth' hle hfits
    rw [valueFits_array] at hfits ⊢
    refine ⟨hle.trans hfits.1, hfits.2.1, itemsFit_mono ?_ 0 hfits.2.2⟩
    exact fun v hv => ih v hv (Nat.succ_le_succ hle)
  | object fs ih =>
    intro depth depth' hle hfits
    rw [valueFits_object, fieldsFit_iff] at hfits ⊢
    refine ⟨hle.trans hfits.1, hfits.2.1, fun f hf => ⟨(hfits.2.2 f hf).1, ?_⟩⟩
    exact ih f hf (Nat.succ_le_succ hle) (hfits.2.2 f hf).2
  | undefined | null | boolean b | number x | bigint n =>
    intro depth depth' hle hfits
    exact hle.trans hfits

theorem itemsFit_mem {m : Maximums} {vs : List Value} {depth : Nat} {v : Value} (hv : v ∈ vs) :
    ∀ index, ItemsFit m vs index depth → ValueFits m v depth := by
  induction vs with
  | nil => cases hv
  | cons w vs ih =>
    intro index hfits
    rcases List.mem_cons.mp hv with rfl | hmem
    · exact hfits.2.1
    · exact ih hmem (index + 1) hfits.2.2

theorem countedFields_mem {fs : Fields} {f : Text × Value} (hf : f ∈ fs) :
    countedValue f.2 ≤ countedFields fs := by
  induction fs with
  | nil => cases hf
  | cons g fs ih =>
    rw [countedFields_cons]
    rcases List.mem_cons.mp hf with rfl | hmem
    · simp only [Counted.le_def, Counted.add_def]
      omega
    · have hrest := ih hmem
      simp only [Counted.le_def, Counted.add_def] at hrest ⊢
      omega

theorem countedItems_mem {vs : List Value} {v : Value} (hv : v ∈ vs) :
    ∀ index, countedValue v ≤ countedItems vs index := by
  induction vs with
  | nil => cases hv
  | cons w vs ih =>
    intro index
    rw [countedItems_cons]
    rcases List.mem_cons.mp hv with rfl | hmem
    · simp only [Counted.le_def, Counted.add_def]
      omega
    · have hrest := ih hmem (index + 1)
      simp only [Counted.le_def, Counted.add_def] at hrest ⊢
      omega

/-- A property of an encoded object is encoded. -/
theorem canonicalJson_field {fs : Fields} {f : Text × Value} (hf : f ∈ fs)
    (h : ∃ t, canonicalJson (.object fs) = .ok t) : ∃ t, canonicalJson f.2 = .ok t := by
  obtain ⟨⟨hfits, hwithin⟩, hencodable⟩ := canonicalJson_isOk.mp h
  rw [valueFits_object] at hfits
  have hfield := (fieldsFit_iff.mp hfits.2.2 f hf).2
  have hcount := countedFields_mem hf
  rw [countedValue_object] at hwithin
  refine canonicalJson_isOk.mpr ⟨⟨valueFits_mono _ (Nat.zero_le 1) hfield, ?_⟩,
    (Encodable.object.mp hencodable).2 f hf⟩
  refine hwithin.of_le ?_
  simp only [Counted.le_def, Counted.add_def] at hcount ⊢
  omega

/-- An item of an encoded array is encoded. -/
theorem canonicalJson_item {vs : List Value} {v : Value} (hv : v ∈ vs)
    (h : ∃ t, canonicalJson (.array vs) = .ok t) : ∃ t, canonicalJson v = .ok t := by
  obtain ⟨⟨hfits, hwithin⟩, hencodable⟩ := canonicalJson_isOk.mp h
  rw [valueFits_array] at hfits
  have hitem := itemsFit_mem hv 0 hfits.2.2
  have hcount := countedItems_mem hv 0
  rw [countedValue_array] at hwithin
  refine canonicalJson_isOk.mpr ⟨⟨valueFits_mono _ (Nat.zero_le 1) hitem, ?_⟩,
    Encodable.array.mp hencodable v hv⟩
  refine hwithin.of_le ?_
  simp only [Counted.le_def, Counted.add_def] at hcount ⊢
  omega

/-! ## Files -/

/-- The bytes of a file: a canonical text and a newline. -/
def fileText (v : Value) : Except String Text := do
  let t ← canonicalJson v
  return t ++ [10]

theorem fileText_eq_ok {v : Value} {t : Text} :
    fileText v = .ok t ↔ ∃ u, canonicalJson v = .ok u ∧ t = u ++ [10] := by
  rw [fileText, bind_eq_ok]
  simp only [pure_eq_ok, eq_comm (a := t)]

/-- **A file is read as the data that was written to it, with the keys in order.** -/
theorem parse_fileText {v : Value} (hv : v.distinctKeys) {t : Text} (h : fileText v = .ok t) :
    Js.parse t = some v.sortKeys := by
  obtain ⟨u, hu, rfl⟩ := fileText_eq_ok.mp h
  have hread := (canonicalJson_reads hv hu).parse ((u ++ [10]).length + 1) [10] (by simp) (by
    rintro d ⟨⟩
    decide)
  rw [Js.parse, hread]
  rfl

theorem fileText_sorted {v : Value} {t : Text} :
    fileText v.sortKeys = .ok t ↔ fileText v = .ok t := by
  simp only [fileText_eq_ok, canonicalJson_sorted]

/-! ## The length of a file -/

theorem byteLength_append {s : Text} (hs : WellFormed s) (t : Text) :
    byteLength (s ++ t) = byteLength s + byteLength t := by
  obtain ⟨cs, rfl⟩ := hs
  have hpoints : codePoints (cs.flatMap utf16Char ++ t) = cs ++ codePoints t := by
    induction cs with
    | nil => rfl
    | cons c cs ih =>
      rw [List.flatMap_cons, List.append_assoc, codePoints_utf16Char, ih, List.cons_append]
  rw [byteLength, byteLength, byteLength, utf8, utf8, utf8, hpoints, codePoints_flatMap,
    List.flatMap_append, List.length_append]

theorem byteLength_cons {c : UInt16} (hc : c.toNat < 128) (hone : byteLength [c] = 1) (t : Text) :
    byteLength (c :: t) = 1 + byteLength t := by
  rw [← List.singleton_append, byteLength_append (.ascii hc), hone]

mutual

/-- How many bytes the canonical text of a value has. -/
def encodedBytes : Value → Nat
  | .null => 4
  | .boolean b => if b then 4 else 5
  | .number (.integer n h) => byteLength (Number.integer n h).text
  | .string s => byteLength (quoteJSONString s)
  | .array vs => 2 + (vs.length - 1) + itemsBytes vs
  | .object fs => 2 + (fs.length - 1) + fieldsBytes fs
  | _ => 0

def itemsBytes : List Value → Nat
  | [] => 0
  | v :: vs => encodedBytes v + itemsBytes vs

def fieldsBytes : Fields → Nat
  | [] => 0
  | (key, v) :: fs => byteLength (quoteJSONString key) + 1 + encodedBytes v + fieldsBytes fs

end

theorem itemsBytes_eq (vs : List Value) : itemsBytes vs = (vs.map encodedBytes).sum := by
  induction vs with
  | nil => rfl
  | cons v vs ih => rw [itemsBytes, ih, List.map_cons, List.sum_cons]

theorem fieldsBytes_eq (fs : Fields) : fieldsBytes fs
    = (fs.map fun f => byteLength (quoteJSONString f.1) + 1 + encodedBytes f.2).sum := by
  induction fs with
  | nil => rfl
  | cons f fs ih => rw [fieldsBytes, ih, List.map_cons, List.sum_cons]

/-- A comma stands between each text and the next. -/
theorem byteLength_join {ts : List Text} (h : ∀ t ∈ ts, WellFormed t) :
    byteLength (join ts) = (ts.length - 1) + (ts.map byteLength).sum := by
  induction ts with
  | nil => rfl
  | cons t ts ih =>
    rw [List.forall_mem_cons] at h
    cases ts with
    | nil => simp [join]
    | cons u ts =>
      have htail := ih h.2
      rw [join, byteLength_append h.1, byteLength_cons (by decide) (by decide), htail]
      simp only [List.length_cons, List.map_cons, List.sum_cons]
      omega

theorem byteLength_enclosed {c d : UInt16} (hc : c.toNat < 128) (hd : byteLength [d] = 1)
    (hone : byteLength [c] = 1) {t : Text} (ht : WellFormed t) :
    byteLength (c :: (t ++ [d])) = 2 + byteLength t := by
  rw [byteLength_cons hc hone, byteLength_append ht, hd]
  omega

theorem forall₂_map_eq {α β : Type} {f : α → Nat} {g : β → Nat} {as : List α} {bs : List β}
    (h : List.Forall₂ (fun a b => g b = f a) as bs) : bs.map g = as.map f := by
  induction h with
  | nil => rfl
  | cons hb _ ih => rw [List.map_cons, List.map_cons, hb, ih]

/-- The members of an object have the bytes of their keys and values, and a colon. -/
theorem memberTexts_bytes {fs : Fields} {us : List Text}
    (h : List.Forall₂ (fun f u => WellFormed u ∧ byteLength u = encodedBytes f.2) fs us) :
    List.Forall₂ (fun f t => WellFormed t ∧
        byteLength t = byteLength (quoteJSONString f.1) + 1 + encodedBytes f.2) fs
      (List.zipWith (fun f u => memberText f.1 u) fs us) := by
  induction h with
  | nil => exact .nil
  | cons hu _ ih =>
    refine .cons ⟨?_, ?_⟩ ih
    · exact (quoteJSONString_wellFormed _).append
        ((WellFormed.ascii (c := 58) (by decide)).append hu.1)
    · show byteLength (quoteJSONString _ ++ 58 :: _) = _
      rw [byteLength_append (quoteJSONString_wellFormed _),
        byteLength_cons (by decide) (by decide), hu.2, Nat.add_assoc]

theorem byteLength_canonicalJsonUnchecked (v : Value) :
    ∀ t, canonicalJsonUnchecked v = .ok t → byteLength t = encodedBytes v := by
  induction v using Value.induction with
  | undefined | bigint n =>
    intro t ht
    cases ht
  | null =>
    intro t ht
    cases ht
    decide
  | boolean b =>
    intro t ht
    cases ht
    cases b <;> decide
  | number x =>
    intro t ht
    cases x with
    | integer n h =>
      cases ht
      rfl
    | _ => cases ht
  | string s =>
    intro t ht
    cases ht
    rfl
  | array vs ih =>
    intro t ht
    rw [canonicalJsonUnchecked_array_eq, canonicalItems_eq] at ht
    obtain ⟨ts, hts, ht⟩ := bind_eq_ok.mp ht
    cases ht
    have hlengths := forall₂_map_eq (forall₂_imp_mem (itemTexts_ok hts) ih)
    have hcount := (itemTexts_ok hts).length_eq
    have hformed : ∀ t ∈ ts, WellFormed t :=
      forall₂_right ((itemTexts_ok hts).imp canonicalJsonUnchecked_wellFormed)
    rw [byteLength_enclosed (by decide) (by decide) (by decide) (join_wellFormed hformed),
      byteLength_join hformed, hlengths, encodedBytes, itemsBytes_eq, hcount, Nat.add_assoc]
  | object fs ih =>
    intro t ht
    obtain ⟨us, hus, rfl⟩ := canonicalJsonUnchecked_object ht
    have hperm : (fs.insertionSort keyLe).Perm fs := List.perm_insertionSort keyLe fs
    have htexts := forall₂_imp_mem hus fun f hf u hu =>
      And.intro (canonicalJsonUnchecked_wellFormed _ u hu) (ih f (hperm.mem_iff.mp hf) u hu)
    have hmembers := memberTexts_bytes htexts
    have hformed := forall₂_right (hmembers.imp fun _ _ h => h.1)
    have hlengths := forall₂_map_eq (hmembers.imp fun _ _ h => h.2)
    have hcount := hmembers.length_eq
    rw [byteLength_enclosed (by decide) (by decide) (by decide) (join_wellFormed hformed),
      byteLength_join hformed, hlengths, encodedBytes, fieldsBytes_eq, ← hcount, hperm.length_eq,
      (hperm.map _).sum_eq, Nat.add_assoc]

/-- The bytes of a file. -/
theorem byteLength_fileText {v : Value} {t : Text} (h : fileText v = .ok t) :
    byteLength t = encodedBytes v + 1 := by
  obtain ⟨u, hu, rfl⟩ := fileText_eq_ok.mp h
  rw [byteLength_append (canonicalJson_wellFormed hu),
    byteLength_canonicalJsonUnchecked v u (canonicalJson_unchecked hu)]
  rfl

end Hookemon.Runner
