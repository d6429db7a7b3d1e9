import Hookemon.Core.Runs
import Hookemon.Runner.CommitAtomicity

/-! # Processes that share a cycle store

Any number of objects are opened on one directory, and work on it in any order. An
operation holds the lock from its start to its end. A process that crashes within an
operation is one whose write failed and whose object is not used again.
-/

namespace Hookemon.Runner

open Hookemon.Core Hookemon.Js

/-! ## The indexes that are written -/

namespace DurableIndex

variable (collation : Collation)

/-- The index file after the index was handed to the write. -/
def fileAfter (index : DurableIndex) (w : Write) (file : Option Text) : Option Text :=
  match index.serializeIndex collation with
  | .ok t => w.file file (some t)
  | .error _ => file

theorem withArchived_sound {index : DurableIndex} (h : index.Sound) {cycleId : Text}
    (hid : isIdentifier cycleId) (hnew : cycleId ∉ index.archivedCycleIds) :
    (index.withArchived collation cycleId).Sound := by
  have hperm := collation.sortBy_perm id (index.archivedCycleIds ++ [cycleId])
  refine { h with revision := nextRevision_le h.revision, archived := ⟨?_, ?_⟩ }
  · refine hperm.nodup_iff.mpr (List.nodup_append.mpr ⟨h.archived.1, List.nodup_singleton _, ?_⟩)
    rintro a ha b hb rfl
    exact hnew (List.mem_singleton.mp hb ▸ ha)
  · intro other hother
    rcases List.mem_append.mp (hperm.mem_iff.mp hother) with hold | hlast
    · exact h.archived.2 other hold
    · rwa [List.mem_singleton.mp hlast]

theorem withReserved_sound {index : DurableIndex} (h : index.Sound) {key : Text} {value : Data}
    (hkey : isGlobalKey key) (hvalue : ∃ t, canonicalJson value.1 = .ok t) :
    (index.withReserved key value.1).Sound :=
  { h with
    revision := nextRevision_le h.revision
    globalKeys := FixtureCycleTransaction.ok_set h.globalKeys ⟨hkey, value.2, hvalue⟩ }

theorem withReleased_sound {index : DurableIndex} (h : index.Sound) (key : Text) :
    (index.withReleased key).Sound :=
  { h with
    revision := nextRevision_le h.revision
    globalKeys := fun e he => h.globalKeys e (Record.mem_erase.mp he).1 }

/-! ### The index of a commit -/

theorem checkAll_eq_ok {α : Type} {check : α → Except String Unit} {as : List α} {u : Unit} :
    checkAll check as = .ok u ↔ ∀ a ∈ as, check a = .ok () := by
  induction as with
  | nil => simp [checkAll]
  | cons a as ih =>
    rw [checkAll, bind_eq_ok, List.forall_mem_cons, ih]
    exact ⟨fun ⟨_, ha, hrest⟩ => ⟨ha, hrest⟩, fun ⟨ha, hrest⟩ => ⟨(), ha, hrest⟩⟩

/-- What the checks of a commit say about the index that it has loaded. -/
structure Allows (index : DurableIndex) (t : DurableCycleTransaction) : Prop where
  authorizations : ∀ e ∈ t.inner.authorizations.entries,
    (∀ r, index.authorizations.find e.1 = some r → r = e.2) ∧
    ∀ k, index.authorizationNonces.find e.2.nonceKey = some k → k = e.1
  receipts : ∀ e ∈ t.inner.receipts.entries, ∀ r, index.receipts.find e.1 = some r → r = e.2
  reserved : ∀ e ∈ t.globalKeys.entries, (∃ u, canonicalJson e.2.1 = .ok u) ∧
    ∀ v, index.globalKeys.find e.1 = some v → isTruthy v → v.sortKeys = e.2.1.sortKeys
  replaced : ∀ e ∈ t.globalKeyReplacements.entries, (∃ u, canonicalJson e.2.2.1 = .ok u) ∧
    ∃ v, index.globalKeys.find e.1 = some v ∧ v.sortKeys = e.2.1.1.sortKeys
  released : ∀ e ∈ t.globalKeyReleases.entries,
    ∃ v, index.globalKeys.find e.1 = some v ∧ v.sortKeys = e.2.1.sortKeys

theorem assertSameObject_eq_ok {existing : Option Value} {value : Value} {message : String}
    {u : Unit} : assertSameObject existing value message = .ok u ↔
      ∀ v, existing = some v → differs v value = .ok false := by
  cases existing with
  | none => simp [assertSameObject]
  | some v =>
    simp only [assertSameObject, bind_eq_ok, revertIf_eq_ok, Option.some.injEq, forall_eq']
    constructor
    · rintro ⟨b, hb, hfalse⟩
      rwa [Bool.eq_false_of_not_eq_true hfalse] at hb
    · exact fun h => ⟨false, h, Bool.false_ne_true⟩

/-- Values that do not differ are the same data. -/
theorem sortKeys_of_differs {v w : Value} (hv : v.distinctKeys) (hw : w.distinctKeys)
    (h : differs v w = .ok false) : v.sortKeys = w.sortKeys := by
  have hencoded : (∃ t, canonicalJson v = .ok t) ∧ ∃ t, canonicalJson w = .ok t := by
    simp only [differs, bind_eq_ok] at h
    obtain ⟨t, ht, u, hu, -⟩ := h
    exact ⟨⟨t, ht⟩, u, hu⟩
  rw [differs_eq_ok hv hw hencoded.1 hencoded.2, Except.ok.injEq, decide_eq_false_iff_not,
    not_not] at h
  exact h

theorem assertExpected_eq_ok {existing : Option Value} {expectedValue : Value} {message : String}
    {u : Unit} : assertExpected existing expectedValue message = .ok u ↔
      ∃ v, existing = some v ∧ differs v expectedValue = .ok false := by
  cases existing with
  | none => simp [assertExpected]
  | some v =>
    simp only [assertExpected, bind_eq_ok, revertIf_eq_ok, Option.some.injEq, exists_eq_left']
    constructor
    · rintro ⟨b, hb, hfalse⟩
      rwa [Bool.eq_false_of_not_eq_true hfalse] at hb
    · exact fun h => ⟨false, h, Bool.false_ne_true⟩

theorem digest_ne_nil {s : Text} (h : isDigest s) : s ≠ [] := by
  rintro rfl
  revert h
  decide

section Staged

variable (index : DurableIndex) (t : DurableCycleTransaction)

theorem find_authorizations (k : Text) : (index.withStaged t).authorizations.find k
    = (t.inner.authorizations.find k).or (index.authorizations.find k) :=
  Record.find_setAll t.inner.authorizations.distinct k _

theorem find_nonces (n : Text) : (index.withStaged t).authorizationNonces.find n
    = ((t.inner.authorizations.entries.map fun e => (e.2.nonceKey, e.1)).lookup n).or
      (index.authorizationNonces.find n) :=
  Record.find_setAll (nonceRows_nodup t.inner) n _

theorem find_receipts (k : Text) : (index.withStaged t).receipts.find k
    = (t.inner.receipts.find k).or (index.receipts.find k) :=
  Record.find_setAll t.inner.receipts.distinct k _

theorem lookup_rows {α β : Type} (r : Record α) (g : α → β) (k : Text) :
    (r.entries.map fun e => (e.1, g e.2)).lookup k = (r.find k).map g := by
  ext b
  have hrows : (k, b) ∈ (r.entries.map fun e => (e.1, g e.2)) ↔
      (r.entries.map fun e => (e.1, g e.2)).lookup k = some b :=
    Record.mem_iff_find (r := ⟨_, rows_nodup r g⟩)
  rw [← hrows, List.mem_map, Option.map_eq_some_iff]
  constructor
  · rintro ⟨⟨k', a⟩, ha, heq⟩
    cases heq
    exact ⟨a, Record.mem_iff_find.mp ha, rfl⟩
  · rintro ⟨a, ha, rfl⟩
    exact ⟨(k, a), Record.mem_of_find ha, rfl⟩

/-- A key is released, replaced, reserved, or as it was. -/
theorem find_globalKeys (k : Text) : (index.withStaged t).globalKeys.find k =
    if k ∈ t.globalKeyReleases.entries.map Prod.fst then none
    else ((t.globalKeyReplacements.find k).map fun r => r.2.1).or
      (((t.globalKeys.find k).map Subtype.val).or (index.globalKeys.find k)) := by
  rw [withStaged, Record.find_eraseAll,
    Record.find_setAll (rows_nodup t.globalKeyReplacements fun r : Data × Data => r.2.1),
    Record.find_setAll (rows_nodup t.globalKeys fun v : Data => v.1),
    lookup_rows t.globalKeyReplacements fun r : Data × Data => r.2.1,
    lookup_rows t.globalKeys fun v : Data => v.1]

end Staged

section Allows

variable {index : DurableIndex} (h : index.Sound)

include h

theorem checkAuthorization_eq_ok {r : AuthorizationRecord} (hr : r.Valid)
    (hcheck : index.checkAuthorization r = .ok ()) :
    (∀ s, index.authorizations.find r.key = some s → s = r) ∧
    ∀ k, index.authorizationNonces.find r.nonceKey = some k → k = r.key := by
  simp only [checkAuthorization, bind_eq_ok, assertSameObject_eq_ok, assertNonceOwner,
    revertIf_eq_ok] at hcheck
  obtain ⟨_, hsame, howner⟩ := hcheck
  constructor
  · intro s hs
    have hdiffers := hsame s.toValue (by rw [hs]; rfl)
    rw [AuthorizationRecord.differs_eq (h.authorizations _ (Record.mem_of_find hs)).2 hr,
      Except.ok.injEq, decide_eq_false_iff_not, not_not] at hdiffers
    exact hdiffers
  · intro k hk
    -- the owner is the key of an authorization, which is not empty
    obtain ⟨s, hs, -⟩ := (h.nonces r.nonceKey k).mp hk
    obtain ⟨hkey, hvalid⟩ := h.authorizations _ (Record.mem_of_find hs)
    have hkey : s.key = k := hkey
    have hnonempty : k ≠ [] := hkey ▸ digest_ne_nil hvalid.shaped.key
    rw [hk, Option.any_some, Bool.not_eq_true, decide_eq_false_iff_not] at howner
    by_contra hne
    exact howner ⟨hnonempty, hne⟩

theorem checkReceipt_eq_ok {r : ReceiptRecord} (hr : r.Valid)
    (hcheck : index.checkReceipt r = .ok ()) : ∀ s, index.receipts.find r.key = some s → s = r := by
  intro s hs
  have hdiffers := assertSameObject_eq_ok.mp hcheck s.toValue (by rw [hs]; rfl)
  rw [ReceiptRecord.differs_eq (h.receipts _ (Record.mem_of_find hs)).2 hr,
    Except.ok.injEq, decide_eq_false_iff_not, not_not] at hdiffers
  exact hdiffers

theorem allows_of_checkStaged {t : DurableCycleTransaction} (hcheck : index.checkStaged t = .ok ()) :
    index.Allows t := by
  simp only [checkStaged, bind_eq_ok, checkAll_eq_ok] at hcheck
  obtain ⟨_, hauthorizations, _, hreceipts, _, hreserved, _, hreplaced, hreleased⟩ := hcheck
  have hvalues : ∀ {k : Text} {v : Value}, index.globalKeys.find k = some v → v.distinctKeys :=
    fun hv => (h.globalKeys _ (Record.mem_of_find hv)).2.1
  constructor
  · intro e he
    obtain ⟨hkey, hvalid⟩ := t.inner.authorizationsOk e he
    have hallowed := checkAuthorization_eq_ok h hvalid (hauthorizations e he)
    rwa [hkey] at hallowed
  · intro e he
    obtain ⟨hkey, hvalid⟩ := t.inner.receiptsOk e he
    have hallowed := checkReceipt_eq_ok h hvalid (hreceipts e he)
    rwa [hkey] at hallowed
  · intro e he
    have hcheck := hreserved e he
    simp only [checkGlobalKey, bind_eq_ok, assertSameObject_eq_ok] at hcheck
    obtain ⟨_, -, u, hu, hsame⟩ := hcheck
    refine ⟨⟨u, hu⟩, fun v hv htruthy => ?_⟩
    exact sortKeys_of_differs (hvalues hv) e.2.2 (hsame v (by simp [hv, htruthy]))
  · intro e he
    have hcheck := hreplaced e he
    simp only [checkGlobalKeyReplacement, bind_eq_ok, assertExpected_eq_ok] at hcheck
    obtain ⟨_, -, _, -, u, hu, v, hv, hsame⟩ := hcheck
    exact ⟨⟨u, hu⟩, v, hv, sortKeys_of_differs (hvalues hv) e.2.1.2 hsame⟩
  · intro e he
    have hcheck := hreleased e he
    simp only [checkGlobalKeyRelease, bind_eq_ok, assertExpected_eq_ok] at hcheck
    obtain ⟨_, -, _, -, v, hv, hsame⟩ := hcheck
    exact ⟨v, hv, sortKeys_of_differs (hvalues hv) e.2.2 hsame⟩

theorem withStaged_sound {t : DurableCycleTransaction} (ht : index.Allows t) :
    (index.withStaged t).Sound where
  revision := nextRevision_le h.revision
  archived := h.archived
  authorizations := by
    rintro ⟨k, r⟩ he
    rw [Record.mem_iff_find, find_authorizations, Option.or_eq_some_iff] at he
    rcases he with hstaged | ⟨-, hold⟩
    · exact t.inner.authorizationsOk _ (Record.mem_of_find hstaged)
    · exact h.authorizations _ (Record.mem_of_find hold)
  nonces := by
    intro n k
    constructor
    · intro hn
      rw [find_nonces, Option.or_eq_some_iff] at hn
      rcases hn with hstaged | ⟨hnone, hold⟩
      · obtain ⟨e, he, heq⟩ := List.mem_map.mp (Record.mem_of_find (r := ⟨_, nonceRows_nodup t.inner⟩) hstaged)
        cases heq
        exact ⟨e.2, by rw [find_authorizations, Record.mem_iff_find.mp he]; rfl, rfl⟩
      · obtain ⟨r, hr, hnonce⟩ := (h.nonces n k).mp hold
        cases hk : t.inner.authorizations.find k with
        | none => exact ⟨r, by rw [find_authorizations, hk, hr]; rfl, hnonce⟩
        | some s =>
          have hsame : r = s := (ht.authorizations _ (Record.mem_of_find hk)).1 r hr
          exact ⟨s, by rw [find_authorizations, hk]; rfl, hsame ▸ hnonce⟩
    · rintro ⟨r, hr, rfl⟩
      rw [find_authorizations, Option.or_eq_some_iff] at hr
      rcases hr with hstaged | ⟨hnone, hold⟩
      · exact ((index.withStaged_holds t).authorizations _ (Record.mem_of_find hstaged)).2
      · have hown := (h.nonces r.nonceKey k).mpr ⟨r, hold, rfl⟩
        rw [find_nonces, Option.or_eq_some_iff]
        refine .inr ⟨?_, hown⟩
        -- a staged authorization with this nonce would have this key
        refine List.lookup_eq_none_iff.mpr fun row hrow => ?_
        obtain ⟨e, he, rfl⟩ := List.mem_map.mp hrow
        by_contra heq
        have hnonce : r.nonceKey = e.2.nonceKey := by simpa using heq
        have hkey : k = e.1 := (ht.authorizations e he).2 k (hnonce ▸ hown)
        rw [hkey, Record.mem_iff_find.mp he] at hnone
        cases hnone
  receipts := by
    rintro ⟨k, r⟩ he
    rw [Record.mem_iff_find, find_receipts, Option.or_eq_some_iff] at he
    rcases he with hstaged | ⟨-, hold⟩
    · exact t.inner.receiptsOk _ (Record.mem_of_find hstaged)
    · exact h.receipts _ (Record.mem_of_find hold)
  globalKeys := by
    rintro ⟨k, v⟩ he
    rw [Record.mem_iff_find, find_globalKeys] at he
    split at he
    · cases he
    rcases Option.or_eq_some_iff.mp he with hreplaced | ⟨-, he⟩
    · obtain ⟨r, hr, rfl⟩ := Option.map_eq_some_iff.mp hreplaced
      have hmem := Record.mem_of_find hr
      exact ⟨t.replacementsOk _ hmem, r.2.2, (ht.replaced _ hmem).1⟩
    rcases Option.or_eq_some_iff.mp he with hreserved | ⟨-, hold⟩
    · obtain ⟨w, hw, rfl⟩ := Option.map_eq_some_iff.mp hreserved
      have hmem := Record.mem_of_find hw
      exact ⟨t.globalKeysOk _ hmem, w.2, (ht.reserved _ hmem).1⟩
    · exact h.globalKeys _ (Record.mem_of_find hold)

end Allows

end DurableIndex

/-! ## What an operation does to the index file -/

namespace DurableCycleStore

variable {sha256 : Bytes → Bytes} {collation : Collation}

/-- What the write of an index throws. -/
def indexOutcome (collation : Collation) (index : DurableIndex) (w : Write) : Except String Unit :=
  match index.serializeIndex collation with
  | .ok _ => w.result
  | .error e => .error e

/-- What the write of a cycle's active file throws. -/
def activeOutcome (sha256 : Bytes → Bytes) (cycle : CycleSnapshot) (w : Write) :
    Except String Unit :=
  match serializeActiveCycle sha256 cycle with
  | .ok _ => w.result
  | .error e => .error e

/-- The active files after a cycle was handed to the write. -/
def activeAfter (sha256 : Bytes → Bytes) (cycle : CycleSnapshot) (w : Write)
    (active : Record Text) : Record Text :=
  match serializeActiveCycle sha256 cycle with
  | .ok t => w.file active (active.set cycle.cycleId t)
  | .error _ => active

theorem writeIndex_eq (index : DurableIndex) (d : Disk) (w : Write) :
    writeIndex collation index d w = (indexOutcome collation index w,
      { d with index := index.fileAfter collation w d.index }) := by
  unfold writeIndex DurableIndex.fileAfter indexOutcome
  cases index.serializeIndex collation <;> rfl

theorem writeActiveCycle_eq (cycle : CycleSnapshot) (d : Disk) (w : Write) :
    writeActiveCycle sha256 cycle d w = (activeOutcome sha256 cycle w,
      { d with active := activeAfter sha256 cycle w d.active }) := by
  unfold writeActiveCycle activeAfter activeOutcome
  cases serializeActiveCycle sha256 cycle <;> rfl

theorem indexOutcome_eq_ok {index : DurableIndex} {w : Write} :
    indexOutcome collation index w = .ok () ↔
      (∃ t, index.serializeIndex collation = .ok t) ∧ w = .done := by
  unfold indexOutcome
  cases index.serializeIndex collation <;> simp [write_result_eq_ok]

theorem activeOutcome_eq_ok {cycle : CycleSnapshot} {w : Write} :
    activeOutcome sha256 cycle w = .ok () ↔
      (∃ t, serializeActiveCycle sha256 cycle = .ok t) ∧ w = .done := by
  unfold activeOutcome
  cases serializeActiveCycle sha256 cycle <;> simp [write_result_eq_ok]

/-- The files after the writes of a commit. -/
theorem persist_disk (s : DurableCycleStore) (d : Disk) (cycleId : Text) (f : Faults) :
    (persist sha256 collation s d cycleId f).disk =
      { d with
        index := s.index.fileAfter collation f.indexWrite d.index
        active := match indexOutcome collation s.index f.indexWrite with
          | .ok () => activeAfter sha256 (s.hot.readCycle cycleId) f.activeWrite d.active
          | .error _ => d.active } := by
  rw [persist, writeIndex_eq]
  cases indexOutcome collation s.index f.indexWrite with
  | error e => rfl
  | ok u =>
    simp only [writeActiveCycle_eq]
    cases activeOutcome sha256 (s.hot.readCycle cycleId) f.activeWrite <;> rfl

/-- The checks of an archive, over the index as it is loaded under the lock. -/
structure Archives (s : DurableCycleStore) (index : DurableIndex) (cycleId : Text) : Prop where
  identifier : isIdentifier cycleId
  fresh : cycleId ∉ index.archivedCycleIds
  active : cycleId ∈ s.activeCycleIds
  committed : (s.hot.readCycle cycleId).version ≠ 0

variable (sha256 collation) in
/-- An archive is refused, or comes to its writes. -/
theorem archiveCycle_cases (s : DurableCycleStore) (d : Disk) (cycleId : Text) (now : Timestamp)
    (f : Faults) :
    (∃ e s', s.archiveCycle sha256 collation d cycleId now f = ⟨.error e, s', d⟩ ∧
      s'.hot = s.hot ∧ s'.activeCycleIds = s.activeCycleIds ∧ s'.identity = s.identity ∧
      s'.generation = s.generation ∧
      ∀ index, DurableIndex.loadIndex collation d.index = .ok index → ∀ t,
        serializeArchivedCycle sha256 (s.hot.readCycle cycleId) now.1 = .ok t →
        ¬ s.Archives index cycleId) ∨
    ∃ index t, DurableIndex.loadIndex collation d.index = .ok index ∧ s.Archives index cycleId ∧
      serializeArchivedCycle sha256 (s.hot.readCycle cycleId) now.1 = .ok t ∧
      s.archiveCycle sha256 collation d cycleId now f
        = persistArchive sha256 collation { s with index } d cycleId t f := by
  by_cases hid : isIdentifier cycleId
  swap
  · refine .inl ⟨_, s, by rw [archiveCycle, if_pos hid], rfl, rfl, rfl, rfl, ?_⟩
    exact fun _ _ _ _ h => hid h.identifier
  cases hload : DurableIndex.loadIndex collation d.index with
  | error e =>
    refine .inl ⟨e, s, by rw [archiveCycle, if_neg (not_not.mpr hid), hload], rfl, rfl, rfl, rfl, ?_⟩
    rintro index ⟨⟩
  | ok index =>
    have hrefused : ∀ {P : Prop}, ¬ P → (s.Archives index cycleId → P) →
        ∀ index', Except.ok (ε := String) index = .ok index' → ∀ t,
          serializeArchivedCycle sha256 (s.hot.readCycle cycleId) now.1 = .ok t →
          ¬ s.Archives index' cycleId := by
      rintro P hnot himp index' ⟨⟩ t _ h
      exact hnot (himp h)
    by_cases harchived : cycleId ∈ index.archivedCycleIds
    · refine .inl ⟨"cycle is already archived", { s with index }, ?_, rfl, rfl, rfl, rfl,
        hrefused (not_not.mpr harchived) fun h => h.fresh⟩
      simp [archiveCycle, hid, hload, harchived]
    by_cases hactive : cycleId ∈ s.activeCycleIds
    swap
    · refine .inl ⟨"cycle is not active in the durable cycle store", { s with index }, ?_, rfl, rfl,
        rfl, rfl, hrefused hactive fun h => h.active⟩
      simp [archiveCycle, hid, hload, harchived, hactive]
    by_cases hversion : (s.hot.readCycle cycleId).version = 0
    · refine .inl ⟨"cycle has no committed journal and cannot be archived", { s with index }, ?_,
        rfl, rfl, rfl, rfl, hrefused (not_not.mpr hversion) fun h => h.committed⟩
      simp [archiveCycle, hid, hload, harchived, hactive, hversion]
    cases hcycle : serializeArchivedCycle sha256 (s.hot.readCycle cycleId) now.1 with
    | error e =>
      refine .inl ⟨e, { s with index }, ?_, rfl, rfl, rfl, rfl, ?_⟩
      · simp [archiveCycle, hid, hload, harchived, hactive, hversion, hcycle]
      · rintro _ _ t ⟨⟩
    | ok t =>
      refine .inr ⟨index, t, rfl, ⟨hid, harchived, hactive, hversion⟩, rfl, ?_⟩
      simp [archiveCycle, hid, hload, harchived, hactive, hversion, hcycle]

/-- The files after the writes of an archive. -/
theorem persistArchive_disk (s : DurableCycleStore) (d : Disk) (cycleId t : Text) (f : Faults) :
    (persistArchive sha256 collation s d cycleId t f).disk =
      { index := if f.archiveWrite = .done then
            (s.index.withArchived collation cycleId).fileAfter collation f.indexWrite d.index
          else d.index
        active := if f.archiveWrite = .done ∧ f.unlinkFails = false then
            match indexOutcome collation (s.index.withArchived collation cycleId) f.indexWrite with
            | .ok () => d.active.erase cycleId
            | .error _ => d.active
          else d.active
        archive := f.archiveWrite.file d.archive (d.archive.set cycleId t) } := by
  unfold persistArchive
  cases f.archiveWrite with
  | failed | unsynced => rfl
  | done =>
    simp only [Write.result, true_and, if_true, writeIndex_eq]
    cases indexOutcome collation (s.index.withArchived collation cycleId) f.indexWrite with
    | error e =>
      cases f.unlinkFails <;> rfl
    | ok u =>
      cases hunlink : f.unlinkFails with
      | true => rfl
      | false =>
        simp only [Bool.false_eq_true, if_false, if_true]
        split <;> rfl

end DurableCycleStore

/-! ## Worlds -/

/-- The directory, and every object that was opened on it, in order. -/
structure StoreWorld where
  disk : Disk
  stores : List DurableCycleStore

namespace StoreWorld

def empty : StoreWorld := ⟨Disk.empty, []⟩

/-- What one of the objects does next. -/
inductive Action where
  | «open»
  | commit (i : Nat) (t : DurableCycleTransaction) (f : Faults)
  | archiveCycle (i : Nat) (cycleId : Text) (now : Timestamp) (f : Faults)
  | reserveGlobalKey (i : Nat) (key : Text) (value : Data) (f : Faults)
  | readGlobalKey (i : Nat) (key : Text)
  | releaseGlobalKey (i : Nat) (key : Text) (value : Data) (f : Faults)

/-- What goes wrong with the files during the action. -/
def Action.faults : Action → Faults
  | .commit _ _ f | .archiveCycle _ _ _ f | .reserveGlobalKey _ _ _ f | .releaseGlobalKey _ _ _ f => f
  | _ => {}

/-- An operation of the `i`-th object. -/
def onStore {α : Type} (w : StoreWorld) (i : Nat) (operation : DurableCycleStore → Result α) :
    StoreWorld × Except String Unit :=
  match w.stores[i]? with
  | none => (w, .error "no such object")
  | some s =>
    (⟨(operation s).disk, w.stores.set i (operation s).store⟩, (operation s).outcome.map fun _ => ())

section Step

variable (sha256 : Bytes → Bytes) (collation : Collation)

def openStore (w : StoreWorld) : StoreWorld × Except String Unit :=
  match DurableCycleStore.open sha256 collation w.stores.length w.disk with
  | (.error e, d) => ({ w with disk := d }, .error e)
  | (.ok s, d) => (⟨d, w.stores ++ [s]⟩, .ok ())

def step (w : StoreWorld) : Action → StoreWorld × Except String Unit
  | .open => w.openStore sha256 collation
  | .commit i t f => w.onStore i fun s => s.commit sha256 collation w.disk t f
  | .archiveCycle i cycleId now f =>
    w.onStore i fun s => s.archiveCycle sha256 collation w.disk cycleId now f
  | .reserveGlobalKey i key value f =>
    w.onStore i fun s => s.reserveGlobalKey collation w.disk key value f
  | .readGlobalKey i key => w.onStore i fun s => s.readGlobalKey collation w.disk key
  | .releaseGlobalKey i key value f =>
    w.onStore i fun s => s.releaseGlobalKey collation w.disk key value f

/-- The index that the action comes to write, once its checks have passed. -/
inductive Encodes (w : StoreWorld) : Action → DurableIndex → Prop
  | commit {i : Nat} {t : DurableCycleTransaction} {f : Faults} {s : DurableCycleStore}
      {index : DurableIndex} : w.stores[i]? = some s → s.Owns t →
      DurableIndex.loadIndex collation w.disk.index = .ok index → s.Admits sha256 index t →
      Encodes w (.commit i t f) (index.withStaged t)
  | archiveCycle {i : Nat} {cycleId u : Text} {now : Timestamp} {f : Faults}
      {s : DurableCycleStore} {index : DurableIndex} : w.stores[i]? = some s →
      DurableIndex.loadIndex collation w.disk.index = .ok index → s.Archives index cycleId →
      serializeArchivedCycle sha256 (s.hot.readCycle cycleId) now.1 = .ok u →
      f.archiveWrite = .done →
      Encodes w (.archiveCycle i cycleId now f) (index.withArchived collation cycleId)
  | reserveGlobalKey {i : Nat} {key : Text} {value : Data} {f : Faults} {s : DurableCycleStore}
      {index : DurableIndex} : w.stores[i]? = some s → DurableIndex.isGlobalKey key →
      (∃ u, canonicalJson value.1 = .ok u) →
      DurableIndex.loadIndex collation w.disk.index = .ok index →
      index.globalKeys.find key = none →
      Encodes w (.reserveGlobalKey i key value f) (index.withReserved key value.1)
  | releaseGlobalKey {i : Nat} {key : Text} {value : Data} {f : Faults} {s : DurableCycleStore}
      {index : DurableIndex} {v : Value} : w.stores[i]? = some s → DurableIndex.isGlobalKey key →
      DurableIndex.loadIndex collation w.disk.index = .ok index →
      index.globalKeys.find key = some v → differs v value.1 = .ok false →
      Encodes w (.releaseGlobalKey i key value f) (index.withReleased key)

end Step

variable {sha256 : Bytes → Bytes} {collation : Collation}

/-- Every file of an index holds a sound one. -/
def IndexOk (collation : Collation) (file : Option Text) : Prop :=
  file = none ∨ ∃ index : DurableIndex, index.Sound ∧
    ∃ t, index.serializeIndex collation = .ok t ∧ file = some t

/-- What is loaded from such a file. -/
theorem IndexOk.sound {file : Option Text} {index : DurableIndex} (h : IndexOk collation file)
    (hload : DurableIndex.loadIndex collation file = .ok index) : index.Sound := by
  rcases h with rfl | ⟨written, hsound, t, ht, rfl⟩
  · cases hload
    exact DurableIndex.emptyIndex_sound
  · have hsize : byteLength t ≤ maximumIndexBytes := by
      rw [DurableIndex.loadIndex, bind_eq_ok] at hload
      obtain ⟨_, hsize, -⟩ := hload
      exact not_lt.mp (revertIf_eq_ok.mp hsize)
    rw [DurableIndex.loadIndex_serializeIndex collation hsound ht hsize] at hload
    cases hload
    exact DurableIndex.normalized_sound collation hsound

theorem IndexOk.fileAfter {file : Option Text} {index : DurableIndex} (h : IndexOk collation file)
    (hindex : index.Sound) (w : Write) : IndexOk collation (index.fileAfter collation w file) := by
  unfold DurableIndex.fileAfter
  cases hserialize : index.serializeIndex collation with
  | error e => exact h
  | ok t =>
    cases w with
    | failed => exact h
    | done | unsynced => exact .inr ⟨index, hindex, t, hserialize, rfl⟩

/-- An action comes to write one index. -/
theorem Encodes.unique {w : StoreWorld} {a : Action} {index other : DurableIndex}
    (h : w.Encodes sha256 collation a index) (h' : w.Encodes sha256 collation a other) :
    index = other := by
  have hloaded : ∀ {i j : DurableIndex}, DurableIndex.loadIndex collation w.disk.index = .ok i →
      DurableIndex.loadIndex collation w.disk.index = .ok j → i = j :=
    fun hi hj => Except.ok.inj (hi.symm.trans hj)
  cases h with
  | commit _ _ hload _ =>
    cases h' with
    | commit _ _ hload' _ => rw [hloaded hload hload']
  | archiveCycle _ hload _ _ _ =>
    cases h' with
    | archiveCycle _ hload' _ _ _ => rw [hloaded hload hload']
  | reserveGlobalKey _ _ _ hload _ =>
    cases h' with
    | reserveGlobalKey _ _ _ hload' _ => rw [hloaded hload hload']
  | releaseGlobalKey _ _ hload _ _ =>
    cases h' with
    | releaseGlobalKey _ _ hload' _ _ => rw [hloaded hload hload']

theorem Encodes.sound {w : StoreWorld} {a : Action} {index : DurableIndex}
    (h : w.Encodes sha256 collation a index) (hdisk : IndexOk collation w.disk.index) :
    index.Sound := by
  cases h with
  | commit _ _ hload hadmits =>
    have hsound := hdisk.sound hload
    exact DurableIndex.withStaged_sound hsound
      (DurableIndex.allows_of_checkStaged hsound hadmits.staged)
  | archiveCycle _ hload harchives _ _ =>
    exact DurableIndex.withArchived_sound collation (hdisk.sound hload) harchives.identifier
      harchives.fresh
  | reserveGlobalKey _ hkey hvalue hload _ =>
    exact DurableIndex.withReserved_sound (hdisk.sound hload) hkey hvalue
  | releaseGlobalKey _ _ hload _ _ => exact DurableIndex.withReleased_sound (hdisk.sound hload) _

/-- An operation either hands an index to the write or leaves the index file alone. -/
def Hands (collation : Collation) (P : DurableIndex → Prop) (w : Write) (d d' : Disk) : Prop :=
  (∃ index, P index ∧ d'.index = index.fileAfter collation w d.index) ∨
    ((∀ index, ¬ P index) ∧ d'.index = d.index)

variable (sha256) in
theorem commit_hands (s : DurableCycleStore) (d : Disk) (t : DurableCycleTransaction) (f : Faults) :
    Hands collation (fun index => ∃ loaded, s.Owns t ∧
        DurableIndex.loadIndex collation d.index = .ok loaded ∧ s.Admits sha256 loaded t ∧
        index = loaded.withStaged t) f.indexWrite d (s.commit sha256 collation d t f).disk := by
  by_cases hread : s.Owns t ∧ ∃ index, DurableIndex.loadIndex collation d.index = .ok index
  · obtain ⟨howns, loaded, hload⟩ := hread
    rcases DurableCycleStore.commit_loaded sha256 (f := f) howns hload with
      ⟨hrefused, e, hcommit⟩ | ⟨hadmits, hcommit⟩
    · refine .inr ⟨?_, by rw [hcommit]⟩
      rintro index ⟨other, -, hother, hadmits, -⟩
      cases hload.symm.trans hother
      exact hrefused hadmits
    · refine .inl ⟨_, ⟨loaded, howns, hload, hadmits, rfl⟩, ?_⟩
      rw [hcommit, DurableCycleStore.persist_disk]
  · obtain ⟨e, hcommit⟩ := DurableCycleStore.commit_unread sha256 (f := f) hread
    refine .inr ⟨?_, by rw [hcommit]⟩
    rintro index ⟨loaded, howns, hload, -⟩
    exact hread ⟨howns, loaded, hload⟩

variable (sha256) in
theorem archiveCycle_hands (s : DurableCycleStore) (d : Disk) (cycleId : Text) (now : Timestamp)
    (f : Faults) :
    Hands collation (fun index => ∃ loaded u,
        DurableIndex.loadIndex collation d.index = .ok loaded ∧ s.Archives loaded cycleId ∧
        serializeArchivedCycle sha256 (s.hot.readCycle cycleId) now.1 = .ok u ∧
        f.archiveWrite = .done ∧ index = loaded.withArchived collation cycleId) f.indexWrite d
      (s.archiveCycle sha256 collation d cycleId now f).disk := by
  rcases DurableCycleStore.archiveCycle_cases sha256 collation s d cycleId
    now f with ⟨e, s', hrefused, -, -, -, -, hnot⟩ | ⟨loaded, u, hload, harchives, hu, heq⟩
  · refine .inr ⟨?_, by rw [hrefused]⟩
    rintro index ⟨loaded, u, hload, harchives, hu, -⟩
    exact hnot loaded hload u hu harchives
  · rw [heq, DurableCycleStore.persistArchive_disk]
    by_cases hwrite : f.archiveWrite = .done
    · exact .inl ⟨_, ⟨loaded, u, hload, harchives, hu, hwrite, rfl⟩, if_pos hwrite⟩
    · refine .inr ⟨?_, if_neg hwrite⟩
      rintro index ⟨-, -, -, -, -, hdone, -⟩
      exact hwrite hdone

theorem reserveGlobalKey_hands (s : DurableCycleStore) (d : Disk) (key : Text) (value : Data)
    (f : Faults) :
    Hands collation (fun index => ∃ loaded, DurableIndex.isGlobalKey key ∧
        (∃ u, canonicalJson value.1 = .ok u) ∧
        DurableIndex.loadIndex collation d.index = .ok loaded ∧
        loaded.globalKeys.find key = none ∧ index = loaded.withReserved key value.1) f.indexWrite d
      (s.reserveGlobalKey collation d key value f).disk := by
  by_cases hkey : DurableIndex.isGlobalKey key
  swap
  · refine .inr ⟨?_, by rw [DurableCycleStore.reserveGlobalKey, if_pos hkey]⟩
    rintro index ⟨_, h, -⟩
    exact hkey h
  rw [DurableCycleStore.reserveGlobalKey, if_neg (not_not.mpr hkey)]
  cases hvalue : canonicalJson value.1 with
  | error e =>
    refine .inr ⟨?_, rfl⟩
    rintro index ⟨_, -, ⟨u, hu⟩, -⟩
    cases hu
  | ok u =>
    cases hload : DurableIndex.loadIndex collation d.index with
    | error e =>
      refine .inr ⟨?_, rfl⟩
      rintro index ⟨_, -, -, h, -⟩
      cases h
    | ok loaded =>
      cases hfind : loaded.globalKeys.find key with
      | some existing =>
        refine .inr ⟨?_, ?_⟩
        · rintro index ⟨other, -, -, hother, hnone, -⟩
          cases hother
          rw [hfind] at hnone
          cases hnone
        · simp only [hfind]
          split <;> rfl
      | none =>
        refine .inl ⟨_, ⟨loaded, hkey, ⟨u, rfl⟩, rfl, hfind, rfl⟩, ?_⟩
        simp only [hfind, DurableCycleStore.writeIndex_eq]
        cases DurableCycleStore.indexOutcome collation (loaded.withReserved key value.1)
          f.indexWrite <;> rfl

theorem releaseGlobalKey_hands (s : DurableCycleStore) (d : Disk) (key : Text) (value : Data)
    (f : Faults) :
    Hands collation (fun index => ∃ loaded v, DurableIndex.isGlobalKey key ∧
        DurableIndex.loadIndex collation d.index = .ok loaded ∧
        loaded.globalKeys.find key = some v ∧ differs v value.1 = .ok false ∧
        index = loaded.withReleased key) f.indexWrite d
      (s.releaseGlobalKey collation d key value f).disk := by
  by_cases hkey : DurableIndex.isGlobalKey key
  swap
  · refine .inr ⟨?_, by rw [DurableCycleStore.releaseGlobalKey, if_pos hkey]⟩
    rintro index ⟨_, _, h, -⟩
    exact hkey h
  rw [DurableCycleStore.releaseGlobalKey, if_neg (not_not.mpr hkey)]
  cases hvalue : canonicalJson value.1 with
  | error e =>
    refine .inr ⟨?_, rfl⟩
    rintro index ⟨loaded, v, -, -, -, hdiffers, -⟩
    -- a value that cannot be encoded is not compared
    simp only [differs, hvalue, bind_eq_ok] at hdiffers
    obtain ⟨_, -, _, ⟨⟩, -⟩ := hdiffers
  | ok u =>
    cases hload : DurableIndex.loadIndex collation d.index with
    | error e =>
      refine .inr ⟨?_, rfl⟩
      rintro index ⟨_, _, -, h, -⟩
      cases h
    | ok loaded =>
      cases hfind : loaded.globalKeys.find key with
      | none =>
        refine .inr ⟨?_, ?_⟩
        · rintro index ⟨other, v, -, hother, hsome, -⟩
          cases hother
          rw [hfind] at hsome
          cases hsome
        · simp only [hfind]
      | some existing =>
        cases hsame : assertSameObject (some existing) value.1
          "durable global reservation key is owned by different value" with
        | error e =>
          refine .inr ⟨?_, ?_⟩
          · rintro index ⟨other, v, -, hother, hsome, hdiffers, -⟩
            cases hother
            cases hfind.symm.trans hsome
            have hok : assertSameObject (some existing) value.1
                "durable global reservation key is owned by different value" = .ok () :=
              DurableIndex.assertSameObject_eq_ok.mpr fun w hw => Option.some.inj hw ▸ hdiffers
            rw [hsame] at hok
            cases hok
          · simp only [hfind, hsame]
        | ok _ =>
          have hdiffers := DurableIndex.assertSameObject_eq_ok.mp hsame existing rfl
          refine .inl ⟨_, ⟨loaded, existing, hkey, rfl, hfind, hdiffers, rfl⟩, ?_⟩
          simp only [hfind, hsame, DurableCycleStore.writeIndex_eq]
          cases DurableCycleStore.indexOutcome collation (loaded.withReleased key) f.indexWrite <;>
            rfl

theorem Hands.mono {P Q : DurableIndex → Prop} {w : Write} {d d' : Disk}
    (h : Hands collation P w d d') (hPQ : ∀ index, P index ↔ Q index) : Hands collation Q w d d' := by
  rcases h with ⟨index, hP, hindex⟩ | ⟨hnone, hindex⟩
  · exact .inl ⟨index, (hPQ index).mp hP, hindex⟩
  · exact .inr ⟨fun index hQ => hnone index ((hPQ index).mpr hQ), hindex⟩

/-- An operation of an object, or of none. -/
theorem onStore_hands {α : Type} {P : DurableIndex → Prop} {Q : DurableCycleStore → DurableIndex → Prop}
    {w : StoreWorld} {i : Nat} {operation : DurableCycleStore → Result α} {write : Write}
    (h : ∀ s, Hands collation (Q s) write w.disk (operation s).disk)
    (hP : ∀ index, P index ↔ ∃ s, w.stores[i]? = some s ∧ Q s index) :
    Hands collation P write w.disk (w.onStore i operation).1.disk := by
  unfold onStore
  cases hs : w.stores[i]? with
  | none =>
    refine .inr ⟨fun index hindex => ?_, rfl⟩
    obtain ⟨s, hsome, -⟩ := (hP index).mp hindex
    rw [hs] at hsome
    cases hsome
  | some s =>
    refine (h s).mono fun index => ?_
    rw [hP, hs]
    simp only [Option.some.injEq, exists_eq_left']

variable (sha256 collation) in
theorem openStore_index (w : StoreWorld) :
    (w.openStore sha256 collation).1.disk.index = w.disk.index := by
  have hload : ∀ index, (DurableCycleStore.loadActiveCycles sha256 collation index w.disk).2.index
      = w.disk.index := fun _ => rfl
  unfold openStore DurableCycleStore.open
  cases DurableIndex.loadIndex collation w.disk.index with
  | error e => rfl
  | ok index =>
    have hsame := hload index
    rcases hcycles : DurableCycleStore.loadActiveCycles sha256 collation index w.disk with ⟨result, d⟩
    rw [hcycles] at hsame
    simp only [hcycles]
    cases result with
    | error e => exact hsame
    | ok cycles =>
      cases hhot : DurableCycleStore.buildHot sha256 index cycles with
      | error e =>
        simp only [hhot]
        exact hsame
      | ok hot =>
        simp only [hhot]
        exact hsame

variable (sha256 collation) in
/-- **The index file changes only by an index that an action comes to write.** -/
theorem step_index (w : StoreWorld) (a : Action) : Hands collation (w.Encodes sha256 collation a)
    a.faults.indexWrite w.disk (w.step sha256 collation a).1.disk := by
  cases a with
  | «open» => exact .inr ⟨fun index h => (by cases h), openStore_index sha256 collation w⟩
  | readGlobalKey i key =>
    refine .inr ⟨fun index h => (by cases h), ?_⟩
    rw [step, onStore]
    cases w.stores[i]? with
    | none => rfl
    | some s =>
      simp only [DurableCycleStore.readGlobalKey]
      split
      · rfl
      · cases DurableIndex.loadIndex collation w.disk.index <;> rfl
  | commit i t f =>
    refine onStore_hands (fun s => commit_hands sha256 s w.disk t f) fun index => ?_
    constructor
    · rintro (⟨hs, howns, hload, hadmits⟩)
      exact ⟨_, hs, _, howns, hload, hadmits, rfl⟩
    · rintro ⟨s, hs, loaded, howns, hload, hadmits, rfl⟩
      exact .commit hs howns hload hadmits
  | archiveCycle i cycleId now f =>
    refine onStore_hands (fun s => archiveCycle_hands sha256 s w.disk cycleId now f)
      fun index => ?_
    constructor
    · rintro (_ | ⟨hs, hload, harchives, hu, hwrite⟩)
      exact ⟨_, hs, _, _, hload, harchives, hu, hwrite, rfl⟩
    · rintro ⟨s, hs, loaded, u, hload, harchives, hu, hwrite, rfl⟩
      exact .archiveCycle hs hload harchives hu hwrite
  | reserveGlobalKey i key value f =>
    refine onStore_hands (fun s => reserveGlobalKey_hands s w.disk key value f) fun index => ?_
    constructor
    · rintro (_ | _ | ⟨hs, hkey, hvalue, hload, hnone⟩)
      exact ⟨_, hs, _, hkey, hvalue, hload, hnone, rfl⟩
    · rintro ⟨s, hs, loaded, hkey, hvalue, hload, hnone, rfl⟩
      exact .reserveGlobalKey hs hkey hvalue hload hnone
  | releaseGlobalKey i key value f =>
    refine onStore_hands (fun s => releaseGlobalKey_hands s w.disk key value f) fun index => ?_
    constructor
    · rintro (_ | _ | _ | ⟨hs, hkey, hload, hsome, hsame⟩)
      exact ⟨_, hs, _, _, hkey, hload, hsome, hsame, rfl⟩
    · rintro ⟨s, hs, loaded, v, hkey, hload, hsome, hsame, rfl⟩
      exact .releaseGlobalKey hs hkey hload hsome hsame

variable (sha256) in
/-- **Every file of an index holds a sound one.** -/
theorem step_indexOk (w : StoreWorld) (a : Action) (h : IndexOk collation w.disk.index) :
    IndexOk collation (w.step sha256 collation a).1.disk.index := by
  rcases step_index sha256 collation w a with
    ⟨index, hencodes, hindex⟩ | ⟨-, hindex⟩
  · rw [hindex]
    exact h.fileAfter (hencodes.sound h) _
  · rwa [hindex]

end StoreWorld

end Hookemon.Runner
