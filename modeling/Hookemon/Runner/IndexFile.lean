import Hookemon.Runner.DurableIndex

/-! # The index file

What the index file says about the index that was written to it. The evidence and the
reservations come back as they were, the lists in the order of their keys.
-/

namespace Hookemon.Runner

open Hookemon.Core Hookemon.Js

namespace DurableIndex

/-! ## Well-formed indexes -/

/-- What holds of an index in every state of a store. -/
structure Sound (index : DurableIndex) : Prop where
  revision : index.revision ≤ 2 ^ 53
  archived : index.archivedCycleIds.Nodup ∧ ∀ id ∈ index.archivedCycleIds, isIdentifier id
  authorizations : ∀ e ∈ index.authorizations.entries, e.2.key = e.1 ∧ e.2.Valid
  nonces : ∀ n k, index.authorizationNonces.find n = some k ↔
    ∃ r, index.authorizations.find k = some r ∧ r.nonceKey = n
  receipts : ∀ e ∈ index.receipts.entries, e.2.key = e.1 ∧ e.2.Valid
  globalKeys : ∀ e ∈ index.globalKeys.entries, isGlobalKey e.1 ∧ e.2.distinctKeys ∧
    ∃ t, canonicalJson e.2 = .ok t

/-- Two indexes say the same. -/
structure Same (i j : DurableIndex) : Prop where
  revision : i.revision = j.revision
  archived : i.archivedCycleIds.Perm j.archivedCycleIds
  authorizations : ∀ k, i.authorizations.find k = j.authorizations.find k
  nonces : ∀ n, i.authorizationNonces.find n = j.authorizationNonces.find n
  receipts : ∀ k, i.receipts.find k = j.receipts.find k
  globalKeys : ∀ k, (i.globalKeys.find k).map Value.sortKeys = (j.globalKeys.find k).map Value.sortKeys

theorem emptyIndex_sound : Sound emptyIndex where
  revision := Nat.zero_le _
  archived := ⟨List.nodup_nil, by simp [emptyIndex]⟩
  authorizations := by simp [emptyIndex, Record.empty]
  nonces := by simp [emptyIndex]
  receipts := by simp [emptyIndex, Record.empty]
  globalKeys := by simp [emptyIndex, Record.empty]

/-! ## Numbers -/

theorem isDouble_revision {n : Nat} (h : n ≤ 2 ^ 53) : IsDouble n := by
  rcases Nat.lt_or_eq_of_le h with hlt | rfl
  · exact isDouble_small hlt
  · decide +kernel

theorem nextRevision_le {n : Nat} (h : n ≤ 2 ^ 53) : nextRevision n ≤ 2 ^ 53 := by
  rcases Nat.lt_or_eq_of_le h with hlt | rfl
  · have hdouble := (isDouble_revision (Nat.succ_le_of_lt hlt)).1
    rw [nextRevision, hdouble]
    exact hlt
  · decide +kernel

theorem ofNat_integer {n : Nat} (h : IsDouble n) :
    Number.ofNat n = .integer n (by rwa [Int.natAbs_natCast]) := by
  have hround := h.1
  have hdouble : IsDouble (roundDouble n) := by rwa [hround]
  unfold Number.ofNat Number.nearest
  rw [if_neg (by simp), dif_pos hdouble, if_neg (by simp)]
  simp only [hround]

theorem countOf_ofNat {n : Nat} (h : IsDouble n) : countOf (.number (.ofNat n)) = some n := by
  rw [ofNat_integer h, countOf, if_pos (Int.natCast_nonneg n), Int.toNat_natCast]

/-! ## What is read back -/

variable (collation : Collation)

theorem globalKeyRow_distinct {e : Text × Value} (h : e.2.distinctKeys) :
    (globalKeyRow e).distinctKeys := by
  have hnodup : [text "key", text "value"].Nodup := by decide
  refine distinctKeys_object.mpr ⟨hnodup, ?_⟩
  simp only [List.forall_mem_cons, List.not_mem_nil, false_imp_iff, implies_true, and_true]
  exact ⟨rfl, h⟩

theorem toValue_distinct {index : DurableIndex} (h : index.Sound) :
    (index.toValue collation).distinctKeys := by
  have hnodup : (fields ++ [text "globalKeys"]).Nodup := by decide
  refine distinctKeys_object.mpr ⟨hnodup, ?_⟩
  have hkeys : ∀ e ∈ index.sortedGlobalKeys collation, (globalKeyRow e).distinctKeys := by
    intro e he
    have hmem := (collation.sortBy_perm _ _).mem_iff.mp he
    exact globalKeyRow_distinct (h.globalKeys e hmem).2.1
  simp only [List.forall_mem_cons, List.not_mem_nil, false_imp_iff, implies_true, and_true]
  refine ⟨rfl, rfl, ?_, ?_, ?_, ?_⟩ <;> rw [distinctKeys_array, List.forall_mem_map]
  · exact fun _ _ => rfl
  · exact fun r _ => r.distinct
  · exact fun r _ => r.distinct
  · exact hkeys

/-- The index as its file gives it. -/
def normalized (index : DurableIndex) : DurableIndex where
  revision := index.revision
  archivedCycleIds := index.sortedArchived collation
  authorizations := Record.empty.setAll
    ((index.sortedAuthorizations collation).map fun r => (r.key, r))
  authorizationNonces := Record.empty.setAll
    ((index.sortedAuthorizations collation).map fun r => (r.nonceKey, r.key))
  receipts := Record.empty.setAll ((index.sortedReceipts collation).map fun r => (r.key, r))
  globalKeys := Record.empty.setAll
    ((index.sortedGlobalKeys collation).map fun e => (e.1, e.2.sortKeys))

/-! ## The rows of the file -/

theorem readCycleIds_strings {ids : List Text} (h : ∀ id ∈ ids, isIdentifier id) :
    readCycleIds (ids.map Value.string) = .ok ids := by
  induction ids with
  | nil => rfl
  | cons id ids ih =>
    rw [List.forall_mem_cons] at h
    have hid : CycleRecords.assertCycleId (.string id) = .ok id := assertPattern_eq_ok.mpr ⟨rfl, h.1⟩
    rw [List.map_cons, readCycleIds, hid, ok_bind, ih h.2]
    rfl

theorem isSorted_sortBy {ids : List Text} (hnodup : ids.Nodup) (h : ∀ id ∈ ids, isIdentifier id) :
    isSorted collation (collation.sortBy id ids) := by
  have hperm := collation.sortBy_perm id ids
  have hpairs := collation.sortBy_pairwise id ids
  have hnodup' := hperm.nodup_iff.mpr hnodup
  have hids : ∀ s ∈ collation.sortBy id ids, isIdentifier s := fun s hs => h s (hperm.mem_iff.mp hs)
  generalize collation.sortBy id ids = sorted at hpairs hnodup' hids
  induction sorted with
  | nil => rfl
  | cons s rest ih =>
    cases rest with
    | nil => rfl
    | cons t rest =>
      rw [List.pairwise_cons] at hpairs
      rw [List.nodup_cons] at hnodup'
      have hrest := ih hpairs.2 hnodup'.2 fun u hu => hids u (List.mem_cons_of_mem s hu)
      have hle : collation.localeCompare s t ≤ 0 := hpairs.1 t List.mem_cons_self
      -- two identifiers that compare equal would be one
      have hstrict : ¬ collation.localeCompare t s ≤ 0 := by
        intro hge
        have hsame := collation.distinguishes s t (hids s List.mem_cons_self)
          (hids t (List.mem_cons_of_mem s List.mem_cons_self)) hle hge
        exact hnodup'.1 (hsame ▸ List.mem_cons_self)
      rw [isSorted, Bool.and_eq_true]
      exact ⟨decide_eq_true hstrict, hrest⟩

theorem forall₂_map {α : Type} {check : Value → Except String α} {f : α → Value} {rows : List α}
    (h : ∀ a ∈ rows, check (f a) = .ok a) :
    List.Forall₂ (fun v a => check v = .ok a) (rows.map f) rows := by
  rw [List.forall₂_map_left_iff, List.forall₂_same]
  exact h

theorem assertAuthorizationRecord_sorted {r : AuthorizationRecord} (hr : r.Valid) :
    assertAuthorizationRecord r.toValue.sortKeys = .ok r :=
  (assertAuthorizationRecord_eq_ok (distinctKeys_sortKeys r.distinct)).mpr
    ⟨hr, sortKeys_sortKeys _⟩

theorem assertReceiptRecord_sorted {r : ReceiptRecord} (hr : r.Valid) :
    assertReceiptRecord r.toValue.sortKeys = .ok r :=
  (assertReceiptRecord_eq_ok (distinctKeys_sortKeys r.distinct)).mpr ⟨hr, sortKeys_sortKeys _⟩

/-- A reservation of the file is the one that was written, its value with the keys in order. -/
theorem readGlobalKeyRow_sorted {e : Text × Value} (hkey : isGlobalKey e.1)
    (hvalue : e.2.distinctKeys) (h : ∃ t, canonicalJson (globalKeyRow e) = .ok t) :
    readGlobalKeyRow (globalKeyRow e).sortKeys = .ok (e.1, e.2.sortKeys) := by
  have hrow := globalKeyRow_distinct hvalue
  obtain ⟨t, ht⟩ := h
  have hmem : (text "value", e.2) ∈ [(text "key", Value.string e.1), (text "value", e.2)] :=
    List.mem_cons_of_mem _ List.mem_cons_self
  have hpart : ∃ u, canonicalJson (text "value", e.2).2 = .ok u := canonicalJson_field hmem ⟨t, ht⟩
  obtain ⟨u, hu⟩ := hpart
  have hsorted : (globalKeyRow e).sortKeys
      = .object [(text "key", .string e.1), (text "value", e.2.sortKeys)] := by
    have horder : [(text "key", Value.string e.1), (text "value", e.2)].insertionSort keyLe
        = [(text "key", .string e.1), (text "value", e.2)] := by
      refine List.Pairwise.insertionSort_eq (List.pairwise_pair.mpr ?_)
      have hle : text "key" ≤ text "value" := by decide
      exact hle
    rw [globalKeyRow, sortKeys_object, horder]
    rfl
  have hget : getField [(text "key", .string e.1), (text "value", e.2.sortKeys)] (text "key")
      = .string e.1 := rfl
  have hget' : getField [(text "key", .string e.1), (text "value", e.2.sortKeys)] (text "value")
      = e.2.sortKeys := rfl
  have ht' := canonicalJson_sorted.mpr ht
  have hu' := canonicalJson_sorted.mpr hu
  rw [hsorted] at ht' ⊢
  have hkey' : assertGlobalKey (.string e.1) = .ok e.1 := assertPattern_eq_ok.mpr ⟨rfl, hkey⟩
  have hfields : ¬ ([(text "key", Value.string e.1), (text "value", e.2.sortKeys)].length
      ≠ [text "key", text "value"].length ∨ ∃ field ∈ [text "key", text "value"],
        field ∉ [(text "key", Value.string e.1), (text "value", e.2.sortKeys)].map Prod.fst) := by
    rintro (hlength | ⟨field, hmem, hnot⟩)
    · exact hlength rfl
    · exact hnot hmem
  rw [readGlobalKeyRow, exactRow, ht']
  simp only [ok_bind, throwIf, revertIf_of_not hfields, pure_bind, hget, hget', hkey', hu']
  rfl

/-! ## The round trip -/

theorem sortedGlobalKeys_keys (index : DurableIndex) :
    ((index.sortedGlobalKeys collation).map Prod.fst).Nodup := by
  have hperm := (collation.sortBy_perm Prod.fst index.globalKeys.entries).map Prod.fst
  rw [sortedGlobalKeys, hperm.nodup_iff]
  exact index.globalKeys.distinct

theorem normalized_globalKeys_entries (index : DurableIndex) :
    (index.normalized collation).globalKeys.entries
      = (index.sortedGlobalKeys collation).map fun e => (e.1, e.2.sortKeys) := by
  refine Record.setAll_empty_entries ?_
  rw [List.map_map]
  exact sortedGlobalKeys_keys collation index

theorem mem_sortedGlobalKeys {index : DurableIndex} {e : Text × Value} :
    e ∈ index.sortedGlobalKeys collation ↔ e ∈ index.globalKeys.entries :=
  (collation.sortBy_perm _ _).mem_iff

theorem normalized_globalKeys {index : DurableIndex} {e : Text × Value} :
    e ∈ (index.normalized collation).globalKeys.entries ↔
      ∃ w, (e.1, w) ∈ index.globalKeys.entries ∧ e.2 = w.sortKeys := by
  rw [normalized_globalKeys_entries, List.mem_map]
  simp only [mem_sortedGlobalKeys]
  constructor
  · rintro ⟨f, hf, rfl⟩
    exact ⟨f.2, hf, rfl⟩
  · rintro ⟨w, hw, heq⟩
    exact ⟨(e.1, w), hw, by rw [← heq]⟩

section RoundTrip

variable {index : DurableIndex} (h : index.Sound)

include h

theorem sortedAuthorizations_keys :
    ((index.sortedAuthorizations collation).map AuthorizationRecord.key).Nodup := by
  have hperm := (collation.sortBy_perm AuthorizationRecord.key index.authorizations.values).map
    AuthorizationRecord.key
  have hkeys : index.authorizations.values.map AuthorizationRecord.key
      = index.authorizations.entries.map Prod.fst := by
    rw [Record.values, List.map_map]
    exact List.map_congr_left fun e he => (h.authorizations e he).1
  rw [sortedAuthorizations, hperm.nodup_iff, hkeys]
  exact index.authorizations.distinct

theorem mem_sortedAuthorizations {r : AuthorizationRecord} :
    r ∈ index.sortedAuthorizations collation ↔ index.authorizations.find r.key = some r := by
  rw [sortedAuthorizations, (collation.sortBy_perm _ _).mem_iff, Record.mem_values]
  constructor
  · rintro ⟨k, hk⟩
    have hkey : r.key = k := (h.authorizations _ (Record.mem_of_find hk)).1
    rwa [hkey]
  · exact fun hr => ⟨r.key, hr⟩

theorem sortedAuthorizations_nonces :
    ((index.sortedAuthorizations collation).map AuthorizationRecord.nonceKey).Nodup := by
  refine List.Nodup.map_on (fun r hr s hs heq => ?_) (sortedAuthorizations_keys collation h).of_map
  rw [mem_sortedAuthorizations collation h] at hr hs
  -- the nonce has one owner
  have hown := (h.nonces r.nonceKey r.key).mpr ⟨r, hr, rfl⟩
  have hown' := (h.nonces r.nonceKey s.key).mpr ⟨s, hs, heq.symm⟩
  have hkey : r.key = s.key := Option.some.inj (hown.symm.trans hown')
  rw [hkey] at hr
  exact Option.some.inj (hr.symm.trans hs)

theorem sortedReceipts_keys :
    ((index.sortedReceipts collation).map ReceiptRecord.key).Nodup := by
  have hperm := (collation.sortBy_perm ReceiptRecord.key index.receipts.values).map ReceiptRecord.key
  have hkeys : index.receipts.values.map ReceiptRecord.key
      = index.receipts.entries.map Prod.fst := by
    rw [Record.values, List.map_map]
    exact List.map_congr_left fun e he => (h.receipts e he).1
  rw [sortedReceipts, hperm.nodup_iff, hkeys]
  exact index.receipts.distinct

theorem mem_sortedReceipts {r : ReceiptRecord} :
    r ∈ index.sortedReceipts collation ↔ index.receipts.find r.key = some r := by
  rw [sortedReceipts, (collation.sortBy_perm _ _).mem_iff, Record.mem_values]
  constructor
  · rintro ⟨k, hk⟩
    have hkey : r.key = k := (h.receipts _ (Record.mem_of_find hk)).1
    rwa [hkey]
  · exact fun hr => ⟨r.key, hr⟩

theorem normalized_authorizations_entries : (index.normalized collation).authorizations.entries
    = (index.sortedAuthorizations collation).map fun r => (r.key, r) := by
  refine Record.setAll_empty_entries ?_
  rw [List.map_map]
  exact sortedAuthorizations_keys collation h

theorem normalized_nonces_entries : (index.normalized collation).authorizationNonces.entries
    = (index.sortedAuthorizations collation).map fun r => (r.nonceKey, r.key) := by
  refine Record.setAll_empty_entries ?_
  rw [List.map_map]
  exact sortedAuthorizations_nonces collation h

theorem normalized_receipts_entries : (index.normalized collation).receipts.entries
    = (index.sortedReceipts collation).map fun r => (r.key, r) := by
  refine Record.setAll_empty_entries ?_
  rw [List.map_map]
  exact sortedReceipts_keys collation h

/-- **The file of an index says what the index says.** -/
theorem normalized_same : Same (index.normalized collation) index where
  revision := rfl
  archived := collation.sortBy_perm id index.archivedCycleIds
  authorizations := by
    intro k
    ext r
    rw [← Record.mem_iff_find, normalized_authorizations_entries collation h, List.mem_map]
    constructor
    · rintro ⟨s, hs, heq⟩
      cases heq
      exact (mem_sortedAuthorizations collation h).mp hs
    · intro hr
      have hkey : r.key = k := (h.authorizations _ (Record.mem_of_find hr)).1
      refine ⟨r, (mem_sortedAuthorizations collation h).mpr (by rwa [hkey]), by rw [hkey]⟩
  nonces := by
    intro n
    ext k
    rw [← Record.mem_iff_find, normalized_nonces_entries collation h, List.mem_map, h.nonces]
    constructor
    · rintro ⟨r, hr, heq⟩
      cases heq
      exact ⟨r, (mem_sortedAuthorizations collation h).mp hr, rfl⟩
    · rintro ⟨r, hr, rfl⟩
      have hkey : r.key = k := (h.authorizations _ (Record.mem_of_find hr)).1
      refine ⟨r, (mem_sortedAuthorizations collation h).mpr (by rwa [hkey]), by rw [hkey]⟩
  receipts := by
    intro k
    ext r
    rw [← Record.mem_iff_find, normalized_receipts_entries collation h, List.mem_map]
    constructor
    · rintro ⟨s, hs, heq⟩
      cases heq
      exact (mem_sortedReceipts collation h).mp hs
    · intro hr
      have hkey : r.key = k := (h.receipts _ (Record.mem_of_find hr)).1
      refine ⟨r, (mem_sortedReceipts collation h).mpr (by rwa [hkey]), by rw [hkey]⟩
  globalKeys := by
    intro k
    ext v
    rw [Option.map_eq_some_iff, Option.map_eq_some_iff]
    constructor
    · rintro ⟨w, hw, rfl⟩
      obtain ⟨u, hu, heq⟩ := (normalized_globalKeys collation).mp (Record.mem_iff_find.mpr hw)
      have hw' : w = u.sortKeys := heq
      refine ⟨u, Record.mem_iff_find.mp hu, ?_⟩
      rw [hw', sortKeys_sortKeys]
    · rintro ⟨w, hw, rfl⟩
      refine ⟨w.sortKeys, ?_, sortKeys_sortKeys w⟩
      exact Record.mem_iff_find.mp
        ((normalized_globalKeys collation).mpr ⟨w, Record.mem_iff_find.mpr hw, rfl⟩)

theorem normalized_sound : (index.normalized collation).Sound := by
  have hsame := normalized_same collation h
  refine ⟨h.revision, ⟨?_, ?_⟩, ?_, ?_, ?_, ?_⟩
  · exact hsame.archived.nodup_iff.mpr h.archived.1
  · exact fun s hs => h.archived.2 s (hsame.archived.mem_iff.mp hs)
  · rintro ⟨k, r⟩ he
    rw [Record.mem_iff_find, hsame.authorizations] at he
    exact h.authorizations _ (Record.mem_of_find he)
  · intro n k
    rw [hsame.nonces, h.nonces]
    simp only [hsame.authorizations]
  · rintro ⟨k, r⟩ he
    rw [Record.mem_iff_find, hsame.receipts] at he
    exact h.receipts _ (Record.mem_of_find he)
  · intro e he
    obtain ⟨w, hw, heq⟩ := (normalized_globalKeys collation).mp he
    have hrow := h.globalKeys _ hw
    obtain ⟨t, ht⟩ := hrow.2.2
    exact ⟨hrow.1, heq ▸ distinctKeys_sortKeys hrow.2.1, t, heq ▸ canonicalJson_sorted.mpr ht⟩

/-- The shape check accepts what was written. -/
theorem assertIndexShape_sorted {t : Text}
    (ht : canonicalJson (index.toValue collation) = .ok t) :
    assertIndexShape collation (index.toValue collation).sortKeys = .ok (index.normalized collation) := by
  have hdistinct := toValue_distinct collation h
  have hencoded := canonicalJson_sorted.mpr ht
  -- the properties of the file, one by one
  have hget : ∀ key, ((index.toValue collation).sortKeys).get key
      = ((index.toValue collation).get key).sortKeys := Value.get_sortKeys hdistinct
  obtain ⟨fs, hfs⟩ : ∃ fs, (index.toValue collation).sortKeys = .object fs :=
    ⟨_, sortKeys_object _⟩
  have hfield : ∀ key, getField fs key = ((index.toValue collation).get key).sortKeys := by
    intro key
    rw [← hget, hfs]
    rfl
  have hkeys : (fs.map Prod.fst).Perm (fields ++ [text "globalKeys"]) := by
    have hobject := hfs
    rw [toValue, sortKeys_object] at hobject
    rw [← Value.object.inj hobject, List.map_map]
    exact (List.perm_insertionSort keyLe _).map Prod.fst
  have hschema : getField fs (text "schema") = .string schema := hfield _
  have hrevision : getField fs (text "revision") = .number (.ofNat index.revision) := hfield _
  have harchived : getField fs (text "archivedCycleIds")
      = .array ((index.sortedArchived collation).map Value.string) := by
    rw [hfield]
    show (Value.array _).sortKeys = _
    rw [sortKeys_array, List.map_map]
    rfl
  have hauthorizations : getField fs (text "authorizations") = .array
      ((index.sortedAuthorizations collation).map fun r => r.toValue.sortKeys) := by
    rw [hfield]
    show (Value.array _).sortKeys = _
    rw [sortKeys_array, List.map_map]
    rfl
  have hreceipts : getField fs (text "receipts") = .array
      ((index.sortedReceipts collation).map fun r => r.toValue.sortKeys) := by
    rw [hfield]
    show (Value.array _).sortKeys = _
    rw [sortKeys_array, List.map_map]
    rfl
  have hglobalKeys : getField fs (text "globalKeys") = .array
      ((index.sortedGlobalKeys collation).map fun e => (globalKeyRow e).sortKeys) := by
    rw [hfield]
    show (Value.array _).sortKeys = _
    rw [sortKeys_array, List.map_map]
    rfl
  have hsame := normalized_same collation h
  have hids : readCycleIds ((index.sortedArchived collation).map Value.string)
      = .ok (index.sortedArchived collation) := by
    refine readCycleIds_strings fun s hs => ?_
    exact h.archived.2 s (hsame.archived.mem_iff.mp hs)
  have hunique : (index.sortedArchived collation).Nodup :=
    hsame.archived.nodup_iff.mpr h.archived.1
  have hordered : isSorted collation (index.sortedArchived collation) :=
    isSorted_sortBy collation h.archived.1 h.archived.2
  have hrecords : collectAuthorizations "duplicate durable cycle store authorization record"
      "duplicate durable cycle store authorization nonce"
      ((index.sortedAuthorizations collation).map fun r => r.toValue.sortKeys) .empty .empty
      = .ok ((index.normalized collation).authorizations,
        (index.normalized collation).authorizationNonces) := by
    refine collectAuthorizations_eq_ok.mpr ⟨index.sortedAuthorizations collation, ?_,
      sortedAuthorizations_keys collation h, sortedAuthorizations_nonces collation h, ?_,
      normalized_authorizations_entries collation h, normalized_nonces_entries collation h⟩
    · refine forall₂_map fun r hr => assertAuthorizationRecord_sorted ?_
      have hfind := (mem_sortedAuthorizations collation h).mp hr
      exact (h.authorizations _ (Record.mem_of_find hfind)).2
    · exact fun _ _ => ⟨rfl, rfl⟩
  have hrows : collect assertReceiptRecord ReceiptRecord.key
      "duplicate durable cycle store receipt record"
      ((index.sortedReceipts collation).map fun r => r.toValue.sortKeys) .empty
      = .ok (index.normalized collation).receipts := by
    refine collect_eq_ok.mpr ⟨index.sortedReceipts collation, ?_,
      sortedReceipts_keys collation h, fun _ _ => rfl, normalized_receipts_entries collation h⟩
    refine forall₂_map fun r hr => assertReceiptRecord_sorted ?_
    have hfind := (mem_sortedReceipts collation h).mp hr
    exact (h.receipts _ (Record.mem_of_find hfind)).2
  have hreservations : ∃ r : Record (Text × Value), collect readGlobalKeyRow Prod.fst
      "duplicate durable global reservation key"
      ((index.sortedGlobalKeys collation).map fun e => (globalKeyRow e).sortKeys) .empty = .ok r ∧
      r.entries = (index.sortedGlobalKeys collation).map fun e => (e.1, e.1, e.2.sortKeys) := by
    have hnodup : (((index.sortedGlobalKeys collation).map fun e => (e.1, e.1, e.2.sortKeys)).map
        Prod.fst).Nodup := by
      rw [List.map_map]
      exact sortedGlobalKeys_keys collation index
    refine ⟨⟨_, hnodup⟩, collect_eq_ok.mpr
      ⟨(index.sortedGlobalKeys collation).map fun e => (e.1, e.2.sortKeys), ?_, ?_,
        fun _ _ => rfl, ?_⟩, rfl⟩
    · rw [List.forall₂_map_left_iff, List.forall₂_map_right_iff, List.forall₂_same]
      intro e he
      have hrow := h.globalKeys e ((mem_sortedGlobalKeys collation).mp he)
      refine readGlobalKeyRow_sorted hrow.1 hrow.2.1 ?_
      -- the row is a part of the file
      have hrows := canonicalJson_field
        (f := (text "globalKeys", .array ((index.sortedGlobalKeys collation).map globalKeyRow)))
        (by simp) ⟨t, ht⟩
      exact canonicalJson_item (List.mem_map_of_mem he) hrows
    · rw [List.map_map]
      exact sortedGlobalKeys_keys collation index
    · rw [List.map_map]
      rfl
  obtain ⟨reservations, hcollected, hentries⟩ := hreservations
  have hglobal : (⟨reservations.entries.map fun e => (e.1, e.2.2), by
      rw [List.map_map]
      exact reservations.distinct⟩ : Record Value) = (index.normalized collation).globalKeys := by
    refine Record.eq_of_entries ?_
    rw [normalized_globalKeys_entries]
    simp only [hentries, List.map_map]
    rfl
  have hexact : text "globalKeys" ∈ fs.map Prod.fst := hkeys.mem_iff.mpr (by decide)
  have hfields : ¬ (fs.length ≠ (fields ++ [text "globalKeys"]).length ∨
      ∃ field ∈ fields ++ [text "globalKeys"], field ∉ fs.map Prod.fst) := by
    rintro (hlength | ⟨field, hmem, hnot⟩)
    · rw [← hkeys.length_eq, List.length_map] at hlength
      exact hlength rfl
    · exact hnot (hkeys.mem_iff.mpr hmem)
  have hcount := countOf_ofNat (isDouble_revision h.revision)
  have hstring : (Value.string schema).strictEquals (.string schema) = true := by
    simp [Value.strictEquals]
  rw [hfs] at hencoded ⊢
  rw [assertIndexShape, hencoded, ok_bind]
  simp only [hexact, if_true, throwIf, revertIf_of_not hfields, ok_bind, hschema, hrevision,
    harchived, hauthorizations, hreceipts, hglobalKeys, hcount, hstring, FixtureCycleStore.isArray,
    itemsOf, hids, hunique, hordered, not_true_eq_false, or_self, and_false, hrecords, hrows,
    hcollected]
  simp only [revertIf_of_not not_false, ok_bind, hglobal]
  rfl

/-- **An index that was written is read back**, when its file is not too large. -/
theorem loadIndex_serializeIndex {t : Text} (ht : index.serializeIndex collation = .ok t)
    (hsize : byteLength t ≤ maximumIndexBytes) :
    loadIndex collation (some t) = .ok (index.normalized collation) := by
  obtain ⟨u, hu, -⟩ := fileText_eq_ok.mp ht
  have hparse := parse_fileText (toValue_distinct collation h) ht
  have hbytes : fileText (index.toValue collation).sortKeys = .ok t := fileText_sorted.mpr ht
  rw [loadIndex]
  simp only [throwIf, revertIf_of_not (not_lt.mpr hsize), ok_bind, hparse, hbytes, ne_eq,
    not_true_eq_false, revertIf_of_not not_false]
  exact assertIndexShape_sorted collation h hu

end RoundTrip

/-! ## What can be written -/

/-- The limits that the encoding sets to the whole history. -/
structure Fits (index : DurableIndex) : Prop where
  archived : index.archivedCycleIds.length ≤ RECOVERY_LIMITS.canonicalArrayItems
  authorizations : index.authorizations.entries.length ≤ RECOVERY_LIMITS.canonicalArrayItems
  receipts : index.receipts.entries.length ≤ RECOVERY_LIMITS.canonicalArrayItems
  globalKeys : index.globalKeys.entries.length ≤ RECOVERY_LIMITS.canonicalArrayItems
  cycleIds : ∀ id ∈ index.archivedCycleIds, StringFits id
  keys : ∀ e ∈ index.globalKeys.entries, StringFits e.1
  depth : ∀ e ∈ index.globalKeys.entries, ValueFits {} e.2 3
  counted : (countedValue (index.toValue collation)).Within {}
  file : encodedBytes (index.toValue collation) < maximumIndexBytes

theorem toValue_encodable {index : DurableIndex} (h : index.Sound) :
    Encodable (index.toValue collation) := by
  have hallowed : ∀ key ∈ fields ++ [text "globalKeys"], key ∉ forbiddenKeys := by decide
  have hrow : ∀ key ∈ [text "key", text "value"], key ∉ forbiddenKeys := by decide
  refine Encodable.object.mpr ⟨?_, ?_⟩
  · intro f hf
    exact hallowed f.1 (List.mem_map_of_mem (f := Prod.fst) hf)
  simp only [List.forall_mem_cons, List.not_mem_nil, false_imp_iff, implies_true, and_true]
  refine ⟨.string _, ?_, ?_, ?_, ?_, ?_⟩
  · rw [ofNat_integer (isDouble_revision h.revision)]
    exact ⟨_, rfl⟩
  all_goals rw [Encodable.array, List.forall_mem_map]
  · exact fun _ _ => .string _
  · intro r hr
    have hfind := (mem_sortedAuthorizations collation h).mp hr
    exact (canonicalJson_isOk.mp (h.authorizations _ (Record.mem_of_find hfind)).2.encoded).2
  · intro r hr
    have hfind := (mem_sortedReceipts collation h).mp hr
    exact (canonicalJson_isOk.mp (h.receipts _ (Record.mem_of_find hfind)).2.encoded).2
  · intro e he
    have hvalue := (h.globalKeys e ((mem_sortedGlobalKeys collation).mp he)).2.2
    refine Encodable.object.mpr ⟨fun f hf => hrow f.1 (List.mem_map_of_mem (f := Prod.fst) hf), ?_⟩
    simp only [List.forall_mem_cons, List.not_mem_nil, false_imp_iff, implies_true, and_true]
    exact ⟨.string _, (canonicalJson_isOk.mp hvalue).2⟩

theorem valueFits_string {m : Maximums} {s : Text} {depth : Nat} :
    ValueFits m (.string s) depth ↔ depth ≤ RECOVERY_LIMITS.canonicalDepth ∧ StringFits s := by
  rw [ValueFits]

theorem valueFits_items {m : Maximums} {vs : List Value} {depth : Nat} (hitems : m.arrayItems ≤ 512)
    (hdepth : depth ≤ RECOVERY_LIMITS.canonicalDepth) : ValueFits m (.array vs) depth ↔
      vs.length ≤ m.arrayItems ∧ ∀ v ∈ vs, ValueFits m v (depth + 1) := by
  rw [ValueFits]
  constructor
  · rintro ⟨-, hlength, hfits⟩
    exact ⟨hlength, fun v hv => itemsFit_mem hv 0 hfits⟩
  · rintro ⟨hlength, hfits⟩
    exact ⟨hdepth, hlength, itemsFit_of_forall hfits 0 (by omega)⟩

/-- A record of strings fits wherever its strings have room. -/
theorem recordValue_fits {m : Maximums} {names values : List Text} {depth depth' : Nat}
    (hdepth : depth' < RECOVERY_LIMITS.canonicalDepth)
    (h : ValueFits m (recordValue names values) depth) :
    ValueFits m (recordValue names values) depth' := by
  rw [recordValue, ValueFits] at h ⊢
  rw [fieldsFit_iff] at h ⊢
  refine ⟨hdepth.le, h.2.1, fun f hf => ⟨(h.2.2 f hf).1, ?_⟩⟩
  have hvalue := (h.2.2 f hf).2
  rw [← List.map_uncurry_zip_eq_zipWith] at hf
  obtain ⟨⟨name, s⟩, -, rfl⟩ := List.mem_map.mp hf
  exact valueFits_string.mpr ⟨hdepth, (valueFits_string.mp hvalue).2⟩

/-- The row of a reservation fits when its key does, and its value two levels below. -/
theorem globalKeyRow_fits {e : Text × Value} : ValueFits {} (globalKeyRow e) 2 ↔
    StringFits e.1 ∧ ValueFits {} e.2 3 := by
  have hkeys : ∀ key ∈ [text "key", text "value"],
      byteLength key ≤ RECOVERY_LIMITS.propertyKeyBytes := by decide
  rw [globalKeyRow, ValueFits, fieldsFit_iff]
  simp only [List.forall_mem_cons, List.not_mem_nil, false_imp_iff, implies_true, and_true,
    valueFits_string] at hkeys ⊢
  constructor
  · rintro ⟨-, -, ⟨-, -, hkey⟩, -, hvalue⟩
    exact ⟨hkey, hvalue⟩
  · rintro ⟨hkey, hvalue⟩
    have hfields : 2 ≤ RECOVERY_LIMITS.canonicalObjectFields := by decide
    exact ⟨by decide, hfields, ⟨hkeys.1, by decide, hkey⟩, hkeys.2, hvalue⟩

/-- The parts of the index are within the limits of the encoding. -/
theorem toValue_fits {index : DurableIndex} (h : index.Sound) :
    ValueFits {} (index.toValue collation) 0 ↔
      index.archivedCycleIds.length ≤ RECOVERY_LIMITS.canonicalArrayItems ∧
      index.authorizations.entries.length ≤ RECOVERY_LIMITS.canonicalArrayItems ∧
      index.receipts.entries.length ≤ RECOVERY_LIMITS.canonicalArrayItems ∧
      index.globalKeys.entries.length ≤ RECOVERY_LIMITS.canonicalArrayItems ∧
      (∀ id ∈ index.archivedCycleIds, StringFits id) ∧
      (∀ e ∈ index.globalKeys.entries, StringFits e.1) ∧
      ∀ e ∈ index.globalKeys.entries, ValueFits {} e.2 3 := by
  have hkeys : ∀ key ∈ fields ++ [text "globalKeys"],
      byteLength key ≤ RECOVERY_LIMITS.propertyKeyBytes := by decide
  have hitems : ({} : Maximums).arrayItems ≤ 512 := le_rfl
  have hlevel : 1 ≤ RECOVERY_LIMITS.canonicalDepth := by decide
  have hschema : ValueFits {} (.string schema) 1 := valueFits_string.mpr ⟨hlevel, by decide, by
    intro hdigits
    revert hdigits
    decide, by
    intro hhex
    revert hhex
    decide⟩
  have hrevision : ValueFits {} (.number (.ofNat index.revision)) 1 := by
    rw [ValueFits] <;> simp [hlevel]
  have harchived : ValueFits {} (.array ((index.sortedArchived collation).map Value.string)) 1 ↔
      index.archivedCycleIds.length ≤ RECOVERY_LIMITS.canonicalArrayItems ∧
        ∀ id ∈ index.archivedCycleIds, StringFits id := by
    have hperm := collation.sortBy_perm id index.archivedCycleIds
    rw [valueFits_items hitems hlevel, List.length_map, sortedArchived, hperm.length_eq,
      List.forall_mem_map]
    simp only [valueFits_string, hperm.mem_iff]
    exact and_congr_right fun _ => forall₂_congr fun _ _ => and_iff_right (by decide)
  have hauthorizations : ValueFits {}
      (.array ((index.sortedAuthorizations collation).map AuthorizationRecord.toValue)) 1 ↔
      index.authorizations.entries.length ≤ RECOVERY_LIMITS.canonicalArrayItems := by
    have hperm := collation.sortBy_perm AuthorizationRecord.key index.authorizations.values
    rw [valueFits_items hitems hlevel, List.length_map, List.forall_mem_map]
    rw [sortedAuthorizations, hperm.length_eq, Record.values, List.length_map]
    refine and_iff_left fun r hr => ?_
    have hfind := (mem_sortedAuthorizations collation h).mp hr
    have hencoded := (h.authorizations _ (Record.mem_of_find hfind)).2.encoded
    exact recordValue_fits (by decide) (canonicalJson_isOk.mp hencoded).1.1
  have hreceipts : ValueFits {}
      (.array ((index.sortedReceipts collation).map ReceiptRecord.toValue)) 1 ↔
      index.receipts.entries.length ≤ RECOVERY_LIMITS.canonicalArrayItems := by
    have hperm := collation.sortBy_perm ReceiptRecord.key index.receipts.values
    rw [valueFits_items hitems hlevel, List.length_map, List.forall_mem_map]
    rw [sortedReceipts, hperm.length_eq, Record.values, List.length_map]
    refine and_iff_left fun r hr => ?_
    have hfind := (mem_sortedReceipts collation h).mp hr
    have hencoded := (h.receipts _ (Record.mem_of_find hfind)).2.encoded
    exact recordValue_fits (by decide) (canonicalJson_isOk.mp hencoded).1.1
  have hglobalKeys : ValueFits {} (.array ((index.sortedGlobalKeys collation).map globalKeyRow)) 1 ↔
      index.globalKeys.entries.length ≤ RECOVERY_LIMITS.canonicalArrayItems ∧
        ∀ e ∈ index.globalKeys.entries, StringFits e.1 ∧ ValueFits {} e.2 3 := by
    have hperm := collation.sortBy_perm Prod.fst index.globalKeys.entries
    rw [valueFits_items hitems hlevel, List.length_map, List.forall_mem_map, sortedGlobalKeys,
      hperm.length_eq]
    simp only [hperm.mem_iff]
    exact and_congr_right fun _ => forall₂_congr fun _ _ => globalKeyRow_fits
  simp only [fields, List.forall_mem_append, List.forall_mem_cons, List.not_mem_nil, false_imp_iff,
    implies_true, and_true] at hkeys
  rw [toValue, ValueFits, fieldsFit_iff]
  simp only [List.forall_mem_cons, List.not_mem_nil, false_imp_iff, implies_true, and_true,
    hkeys, true_and, Nat.zero_add, hschema, hrevision, harchived, hauthorizations, hreceipts,
    hglobalKeys]
  constructor
  · rintro ⟨-, -, ⟨harchived, hids⟩, hauthorizations, hreceipts, hcount, hrows⟩
    exact ⟨harchived, hauthorizations, hreceipts, hcount, hids, fun e he => (hrows e he).1,
      fun e he => (hrows e he).2⟩
  · rintro ⟨harchived, hauthorizations, hreceipts, hcount, hids, hnames, hdepth⟩
    have hfields : 6 ≤ RECOVERY_LIMITS.canonicalObjectFields := by decide
    exact ⟨by decide, hfields, ⟨harchived, hids⟩, hauthorizations, hreceipts, hcount,
      fun e he => ⟨hnames e he, hdepth e he⟩⟩

/-- **An index is written and read back exactly when the whole history fits.** -/
theorem fits_iff {index : DurableIndex} (h : index.Sound) : index.Fits collation ↔
    ∃ t, index.serializeIndex collation = .ok t ∧
      ∃ j, loadIndex collation (some t) = .ok j ∧ Same j index := by
  have hwritten : (∃ t, index.serializeIndex collation = .ok t) ↔
      Bounded {} (index.toValue collation) := by
    simp only [serializeIndex, fileText_eq_ok]
    constructor
    · rintro ⟨_, u, hu, -⟩
      exact (canonicalJson_isOk.mp ⟨u, hu⟩).1
    · intro hbounded
      obtain ⟨u, hu⟩ := canonicalJson_isOk.mpr ⟨hbounded, toValue_encodable collation h⟩
      exact ⟨_, u, hu, rfl⟩
  constructor
  · intro hfits
    have hparts := (toValue_fits collation h).mpr ⟨hfits.archived, hfits.authorizations,
      hfits.receipts, hfits.globalKeys, hfits.cycleIds, hfits.keys, hfits.depth⟩
    obtain ⟨t, ht⟩ := hwritten.mpr ⟨hparts, hfits.counted⟩
    have hsize : byteLength t ≤ maximumIndexBytes := by
      rw [byteLength_fileText ht]
      exact hfits.file
    exact ⟨t, ht, _, loadIndex_serializeIndex collation h ht hsize, normalized_same collation h⟩
  · rintro ⟨t, ht, j, hload, -⟩
    obtain ⟨hparts, hcounted⟩ := hwritten.mp ⟨t, ht⟩
    obtain ⟨harchived, hauthorizations, hreceipts, hglobalKeys, hids, hnames, hdepth⟩ :=
      (toValue_fits collation h).mp hparts
    refine ⟨harchived, hauthorizations, hreceipts, hglobalKeys, hids, hnames, hdepth, hcounted, ?_⟩
    rw [loadIndex, bind_eq_ok] at hload
    obtain ⟨_, hsize, -⟩ := hload
    have hbytes := not_lt.mp (revertIf_eq_ok.mp hsize)
    rwa [byteLength_fileText ht] at hbytes

end DurableIndex

end Hookemon.Runner
