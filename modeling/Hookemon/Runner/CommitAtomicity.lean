import Hookemon.Runner.DurableStore

/-! # What a failing commit leaves behind

A commit of the durable store changes the journal in memory before it has encoded and
written the index and the cycle's file. So a commit that fails after its checks leaves
its events in the journal that `readCycle` shows.
-/

namespace Hookemon.Runner

open Hookemon.Core Hookemon.Js

namespace DurableCycleStore

variable (sha256 : Bytes → Bytes) (collation : Collation)

/-! ## The parts of a commit -/

/-- The checks of a commit, over the index as it is loaded under the lock. -/
structure Admits (s : DurableCycleStore) (index : DurableIndex) (t : DurableCycleTransaction) :
    Prop where
  staged : index.checkStaged t = .ok ()
  generation : t.generation = s.generation
  hot : s.hot.Accepts sha256 t.inner

/-- Both files can be encoded, and both writes go through. -/
structure Writes (s : DurableCycleStore) (index : DurableIndex) (t : DurableCycleTransaction)
    (f : Faults) : Prop where
  index : ∃ u, (index.withStaged t).serializeIndex collation = .ok u
  cycle : ∃ u, serializeActiveCycle sha256 (s.hot.extended t.inner) = .ok u
  indexWrite : f.indexWrite = .done
  activeWrite : f.activeWrite = .done

/-- The transaction is one of this object and was not committed before. -/
structure Owns (s : DurableCycleStore) (t : DurableCycleTransaction) : Prop where
  opened : t.closed = false
  store : t.store = s.identity

variable {sha256 collation}

theorem commitHot_eq_ok {s : DurableCycleStore} {t : DurableCycleTransaction}
    {hot : FixtureCycleStore} : s.commitHot sha256 t = .ok hot ↔
      t.generation = s.generation ∧ s.hot.Accepts sha256 t.inner ∧ hot = s.hot.committed t.inner := by
  simp only [commitHot, bind_eq_ok, revertIf_eq_ok, not_not, FixtureCycleStore.commit_eq_ok]
  constructor
  · rintro ⟨_, hgeneration, haccepts, hhot⟩
    exact ⟨hgeneration, haccepts, hhot⟩
  · rintro ⟨hgeneration, haccepts, hhot⟩
    exact ⟨(), hgeneration, haccepts, hhot⟩

theorem write_result_eq_ok {w : Write} : w.result = .ok () ↔ w = .done := by
  cases w <;> simp [Write.result]

variable (sha256) in
/-- A transaction that is not this object's, or an index that cannot be read. -/
theorem commit_unread {s : DurableCycleStore} {d : Disk} {t : DurableCycleTransaction} {f : Faults}
    (h : ¬ (s.Owns t ∧ ∃ index, DurableIndex.loadIndex collation d.index = .ok index)) :
    ∃ e, s.commit sha256 collation d t f = ⟨.error e, s, d⟩ := by
  by_cases hclosed : t.closed
  · exact ⟨_, by rw [commit, if_pos hclosed]⟩
  by_cases hstore : t.store ≠ s.identity
  · exact ⟨_, by rw [commit, if_neg hclosed, if_pos hstore]⟩
  cases hload : DurableIndex.loadIndex collation d.index with
  | error e => exact ⟨e, by rw [commit, if_neg hclosed, if_neg hstore, hload]⟩
  | ok index =>
    exact absurd ⟨⟨Bool.not_eq_true _ ▸ hclosed, not_not.mp hstore⟩, index, hload⟩ h

variable (sha256) in
/-- What a commit does with the index that it has loaded. -/
theorem commit_loaded {s : DurableCycleStore} {d : Disk} {t : DurableCycleTransaction} {f : Faults}
    {index : DurableIndex} (ht : s.Owns t)
    (hload : DurableIndex.loadIndex collation d.index = .ok index) :
    (¬ s.Admits sha256 index t ∧
      ∃ e, s.commit sha256 collation d t f = ⟨.error e, { s with index }, d⟩) ∨
    (s.Admits sha256 index t ∧ s.commit sha256 collation d t f =
      persist sha256 collation { s with hot := s.hot.committed t.inner, index := index.withStaged t }
        d t.inner.cycleId f) := by
  rw [commit, if_neg (by simp [ht.opened]), if_neg (by simp [ht.store]), hload]
  cases hstaged : index.checkStaged t with
  | error e =>
    refine .inl ⟨fun h => ?_, e, by simp only [hstaged]⟩
    cases hstaged.symm.trans h.staged
  | ok u =>
    cases hhot : s.commitHot sha256 t with
    | error e =>
      refine .inl ⟨fun h => ?_, e, by simp only [hstaged]⟩
      cases hhot.symm.trans (commitHot_eq_ok.mpr ⟨h.generation, h.hot, rfl⟩)
    | ok hot =>
      obtain ⟨hgeneration, haccepts, rfl⟩ := commitHot_eq_ok.mp hhot
      exact .inr ⟨⟨hstaged, hgeneration, haccepts⟩, by simp only [hstaged]⟩

theorem writeIndex_eq_ok {index : DurableIndex} {d d' : Disk} {w : Write} :
    writeIndex collation index d w = (.ok (), d') ↔
      ∃ u, index.serializeIndex collation = .ok u ∧ w = .done ∧ d' = { d with index := some u } := by
  unfold writeIndex
  cases index.serializeIndex collation with
  | error e => simp
  | ok u =>
    cases w <;> simp [Write.result, Write.file, eq_comm]

theorem writeActiveCycle_eq_ok {cycle : CycleSnapshot} {d d' : Disk} {w : Write} :
    writeActiveCycle sha256 cycle d w = (.ok (), d') ↔
      ∃ u, serializeActiveCycle sha256 cycle = .ok u ∧ w = .done ∧
        d' = { d with active := d.active.set cycle.cycleId u } := by
  unfold writeActiveCycle
  cases serializeActiveCycle sha256 cycle with
  | error e => simp
  | ok u =>
    cases w <;> simp [Write.result, Write.file, eq_comm]

variable (sha256 collation) in
/-- The writes change neither the journals nor the index of the object. -/
theorem persist_store (s : DurableCycleStore) (d : Disk) (cycleId : Text) (f : Faults) :
    (persist sha256 collation s d cycleId f).store.hot = s.hot ∧
    (persist sha256 collation s d cycleId f).store.index = s.index ∧
    (persist sha256 collation s d cycleId f).store.identity = s.identity ∧
    (persist sha256 collation s d cycleId f).store.generation = s.generation := by
  unfold persist
  split
  · exact ⟨rfl, rfl, rfl, rfl⟩
  · split <;> exact ⟨rfl, rfl, rfl, rfl⟩

variable (sha256 collation) in
/-- The writes go through, or the set of active cycles stays as it was. -/
theorem persist_cases (s : DurableCycleStore) (d : Disk) (cycleId : Text) (f : Faults) :
    (∃ u v, s.index.serializeIndex collation = .ok u ∧
      serializeActiveCycle sha256 (s.hot.readCycle cycleId) = .ok v ∧
      f.indexWrite = .done ∧ f.activeWrite = .done ∧
      persist sha256 collation s d cycleId f =
        ⟨.ok (), { s with activeCycleIds := addActive s.activeCycleIds cycleId },
          { d with index := some u,
                   active := d.active.set (s.hot.readCycle cycleId).cycleId v }⟩) ∨
    (∃ e, (persist sha256 collation s d cycleId f).outcome = .error e ∧
      (persist sha256 collation s d cycleId f).store.activeCycleIds = s.activeCycleIds ∧
      ¬ ((∃ u, s.index.serializeIndex collation = .ok u) ∧
        (∃ v, serializeActiveCycle sha256 (s.hot.readCycle cycleId) = .ok v) ∧
        f.indexWrite = .done ∧ f.activeWrite = .done)) := by
  rcases hindex : writeIndex collation s.index d f.indexWrite with ⟨result, d'⟩
  cases result with
  | error e =>
    refine .inr ⟨e, by simp only [persist, hindex], by simp only [persist, hindex], ?_⟩
    rintro ⟨⟨u, hu⟩, -, hwrite, -⟩
    have hok := (writeIndex_eq_ok (d := d)).mpr ⟨u, hu, hwrite, rfl⟩
    rw [hindex] at hok
    cases hok
  | ok _ =>
    obtain ⟨u, hu, hwrite, rfl⟩ := writeIndex_eq_ok.mp hindex
    rcases hcycle : writeActiveCycle sha256 (s.hot.readCycle cycleId) { d with index := some u }
      f.activeWrite with ⟨result, d'⟩
    cases result with
    | error e =>
      refine .inr ⟨e, by simp only [persist, hindex, hcycle], by simp only [persist, hindex, hcycle],
        ?_⟩
      rintro ⟨-, ⟨v, hv⟩, -, hactive⟩
      have hok := (writeActiveCycle_eq_ok (d := { d with index := some u })).mpr
        ⟨v, hv, hactive, rfl⟩
      rw [hcycle] at hok
      cases hok
    | ok _ =>
      obtain ⟨v, hv, hactive, rfl⟩ := writeActiveCycle_eq_ok.mp hcycle
      exact .inl ⟨u, v, hu, hv, hwrite, hactive, by simp only [persist, hindex, hcycle]⟩

/-! ## The index with a transaction -/

end DurableCycleStore

namespace DurableIndex

/-- The index has all that a transaction stages. -/
structure Holds (index : DurableIndex) (t : DurableCycleTransaction) : Prop where
  authorizations : ∀ e ∈ t.inner.authorizations.entries,
    index.authorizations.find e.1 = some e.2 ∧
    index.authorizationNonces.find e.2.nonceKey = some e.1
  receipts : ∀ e ∈ t.inner.receipts.entries, index.receipts.find e.1 = some e.2
  reserved : ∀ e ∈ t.globalKeys.entries, index.globalKeys.find e.1 = some e.2.1
  replaced : ∀ e ∈ t.globalKeyReplacements.entries, index.globalKeys.find e.1 = some e.2.2.1
  released : ∀ e ∈ t.globalKeyReleases.entries, index.globalKeys.find e.1 = none

theorem nonceRows_nodup (t : FixtureCycleTransaction) :
    ((t.authorizations.entries.map fun e => (e.2.nonceKey, e.1)).map Prod.fst).Nodup := by
  rw [List.map_map]
  refine List.Nodup.map_on (fun e he e' he' hnonce => ?_) t.authorizations.distinct.of_map
  exact List.inj_on_of_nodup_map t.authorizations.distinct he he' (t.noncesOk e he e' he' hnonce)

theorem rows_nodup {α β : Type} (r : Record α) (g : α → β) :
    ((r.entries.map fun e => (e.1, g e.2)).map Prod.fst).Nodup := by
  rw [List.map_map]
  exact r.distinct

theorem find_isSome_of_mem {α : Type} {r : Record α} {e : Text × α} (h : e ∈ r.entries) :
    (r.find e.1).isSome := by
  rw [Record.mem_iff_find.mp h]
  rfl

theorem not_mem_rows {α β : Type} {r : Record α} {g : α → β} {key : Text} (h : r.find key = none) :
    key ∉ (r.entries.map fun e => (e.1, g e.2)).map Prod.fst := by
  rw [List.map_map]
  exact Record.find_eq_none.mp h

theorem withStaged_holds (index : DurableIndex) (t : DurableCycleTransaction) :
    (index.withStaged t).Holds t where
  authorizations := by
    intro e he
    constructor
    · exact Record.find_setAll_of_mem t.inner.authorizations.distinct he _
    · exact Record.find_setAll_of_mem (nonceRows_nodup t.inner) (List.mem_map_of_mem he) _
  receipts := by
    intro e he
    exact Record.find_setAll_of_mem t.inner.receipts.distinct he _
  reserved := by
    intro e he
    obtain ⟨hreplaced, hreleased⟩ := t.setApart e.1 (find_isSome_of_mem he)
    rw [withStaged, Record.find_eraseAll, if_neg (Record.find_eq_none.mp hreleased),
      Record.find_setAll_of_not_mem
        (rows_nodup t.globalKeyReplacements fun r : Data × Data => r.2.1) 
        (not_mem_rows (g := fun r : Data × Data => r.2.1) hreplaced)]
    exact Record.find_setAll_of_mem (rows_nodup t.globalKeys fun v : Data => v.1)
      (List.mem_map.mpr ⟨e, he, rfl⟩) _
  replaced := by
    intro e he
    have hreleased := t.replacedApart e.1 (find_isSome_of_mem he)
    rw [withStaged, Record.find_eraseAll, if_neg (Record.find_eq_none.mp hreleased)]
    exact Record.find_setAll_of_mem
      (rows_nodup t.globalKeyReplacements fun r : Data × Data => r.2.1)
      (List.mem_map.mpr ⟨e, he, rfl⟩) _
  released := by
    intro e he
    rw [withStaged, Record.find_eraseAll, if_pos (List.mem_map.mpr ⟨e, he, rfl⟩)]

end DurableIndex

namespace DurableCycleStore

variable (sha256 : Bytes → Bytes) (collation : Collation)

/-! ## Atomicity -/

/-- The same journals are visible, and the same cycles are active. -/
structure SameView (s s' : DurableCycleStore) : Prop where
  journals : ∀ cycleId, s.readCycle cycleId = s'.readCycle cycleId
  active : ∀ cycleId, cycleId ∈ s.activeCycleIds ↔ cycleId ∈ s'.activeCycleIds

/-- A new transaction that stages the same, over the journal that the object shows. -/
structure Restages (s : DurableCycleStore) (t t' : DurableCycleTransaction) : Prop where
  begun : ∃ cycle b, s.readCycle t.inner.cycleId = .ok cycle ∧
    s.begin t.inner.cycleId cycle.version cycle.journalHead = .ok b ∧
    t'.inner.expectedVersion = cycle.version ∧ t'.inner.expectedJournalHead = cycle.journalHead
  owns : s.Owns t'
  generation : t'.generation = s.generation
  cycleId : t'.inner.cycleId = t.inner.cycleId
  events : t'.inner.events = t.inner.events
  authorizations : t'.inner.authorizations = t.inner.authorizations
  receipts : t'.inner.receipts = t.inner.receipts
  globalKeys : t'.globalKeys = t.globalKeys
  replacements : t'.globalKeyReplacements = t.globalKeyReplacements
  releases : t'.globalKeyReleases = t.globalKeyReleases

/-- The journal in memory, the cycle's file and the index all contain the transaction. -/
structure Contains (s : DurableCycleStore) (t : DurableCycleTransaction) (s' : DurableCycleStore)
    (d' : Disk) : Prop where
  journal : ∃ cycle, s'.readCycle t.inner.cycleId = .ok cycle ∧
    cycle.entries = (s.hot.readCycle t.inner.cycleId).entries ++ t.inner.events.map Subtype.val ∧
    ∃ u, d'.active.find t.inner.cycleId = some u ∧ serializeActiveCycle sha256 cycle = .ok u
  index : s'.index.Holds t ∧ ∃ u, d'.index = some u ∧ s'.index.serializeIndex collation = .ok u
  active : t.inner.cycleId ∈ s'.activeCycleIds

/-- A commit that throws changes nothing that can be seen, and what could be committed
before it can be committed after it; one that returns is on disk. -/
structure Atomic (s : DurableCycleStore) (d : Disk) (t : DurableCycleTransaction) (f : Faults) :
    Prop where
  throws : ∀ e, (s.commit sha256 collation d t f).outcome = .error e →
    s.SameView (s.commit sha256 collation d t f).store ∧
    ∀ t' d' f', (s.commit sha256 collation d t f).store.Restages t t' →
      (s.commit sha256 collation d' t' f').outcome = .ok () →
      ((s.commit sha256 collation d t f).store.commit sha256 collation d' t' f').outcome = .ok ()
  returns : (s.commit sha256 collation d t f).outcome = .ok () →
    s.Contains sha256 collation t (s.commit sha256 collation d t f).store
      (s.commit sha256 collation d t f).disk

/-- The transaction goes through to both files; or it is refused before the journal in
memory is changed, and the index file lists the archived cycles that the object knows. -/
def CommitsOrRefuses (s : DurableCycleStore) (d : Disk) (t : DurableCycleTransaction)
    (f : Faults) : Prop :=
  s.Owns t → ∀ index, DurableIndex.loadIndex collation d.index = .ok index →
    (s.Admits sha256 index t ∧ s.Writes sha256 collation index t f →
      t.inner.cycleId ∉ index.archivedCycleIds) ∧
    (¬ (s.Admits sha256 index t ∧ s.Writes sha256 collation index t f) →
      (∀ cycleId, isIdentifier cycleId →
        (cycleId ∈ s.index.archivedCycleIds ↔ cycleId ∈ index.archivedCycleIds)) ∧
      (s.Admits sha256 index t → t.inner.cycleId ∈ index.archivedCycleIds))

variable {sha256 collation}

theorem readCycle_eq_ok {s : DurableCycleStore} {cycleId : Text} {cycle : CycleSnapshot} :
    s.readCycle cycleId = .ok cycle ↔ isIdentifier cycleId ∧
      cycleId ∉ s.index.archivedCycleIds ∧ cycle = s.hot.readCycle cycleId := by
  simp only [readCycle, bind_eq_ok, revertIf_eq_ok, pure_eq_ok, not_not]
  constructor
  · rintro ⟨_, hid, _, hactive, rfl⟩
    exact ⟨hid, hactive, rfl⟩
  · rintro ⟨hid, hactive, rfl⟩
    exact ⟨(), hid, (), hactive, rfl⟩

theorem readCycle_identifier (s : DurableCycleStore) {cycleId : Text} (hid : isIdentifier cycleId) :
    s.readCycle cycleId = if cycleId ∈ s.index.archivedCycleIds then
      .error "cycle is archived; call readArchivedCycle() for historical lookups"
    else .ok (s.hot.readCycle cycleId) := by
  have hvalid : ¬ (¬ isIdentifier cycleId = true) := not_not.mpr hid
  rw [readCycle, throwIf, revertIf_of_not hvalid, ok_bind, throwIf, revertIf]
  split <;> rfl

/-- Objects with one set of archived cycles and the same journals of the others show the
same journals. -/
theorem sameView_of {s s' : DurableCycleStore}
    (harchived : ∀ cycleId, isIdentifier cycleId →
      (cycleId ∈ s.index.archivedCycleIds ↔ cycleId ∈ s'.index.archivedCycleIds))
    (hjournals : ∀ cycleId, cycleId ∉ s.index.archivedCycleIds →
      s.hot.readCycle cycleId = s'.hot.readCycle cycleId)
    (hactive : ∀ cycleId, cycleId ∈ s.activeCycleIds ↔ cycleId ∈ s'.activeCycleIds) :
    s.SameView s' := by
  refine ⟨fun cycleId => ?_, hactive⟩
  by_cases hid : isIdentifier cycleId
  · rw [readCycle_identifier s hid, readCycle_identifier s' hid]
    by_cases hmem : cycleId ∈ s.index.archivedCycleIds
    · rw [if_pos hmem, if_pos ((harchived cycleId hid).mp hmem)]
    · rw [if_neg hmem, if_neg fun h => hmem ((harchived cycleId hid).mpr h),
        hjournals cycleId hmem]
  · simp [readCycle, hid, throwIf, revertIf, bind, Except.bind]

/-- What is shown tells which cycles are archived. -/
theorem SameView.archived {s s' : DurableCycleStore} (h : s.SameView s') {cycleId : Text}
    (hid : isIdentifier cycleId) :
    cycleId ∈ s.index.archivedCycleIds ↔ cycleId ∈ s'.index.archivedCycleIds := by
  have hboth := h.journals cycleId
  have hshown : ∀ u : DurableCycleStore, cycleId ∉ u.index.archivedCycleIds ↔
      ∃ cycle, u.readCycle cycleId = .ok cycle := by
    intro u
    simp only [readCycle_eq_ok]
    exact ⟨fun hmem => ⟨_, hid, hmem, rfl⟩, fun ⟨_, _, hmem, _⟩ => hmem⟩
  rw [← not_iff_not, hshown, hshown, hboth]

/-- A commit does not depend on the index in memory. -/
theorem commit_index_outcome (s : DurableCycleStore) (index : DurableIndex) (d : Disk)
    (t : DurableCycleTransaction) (f : Faults) :
    ({ s with index }.commit sha256 collation d t f).outcome
      = (s.commit sha256 collation d t f).outcome := by
  unfold commit
  split
  · rfl
  split
  · rfl
  cases DurableIndex.loadIndex collation d.index with
  | error e => rfl
  | ok loaded =>
    cases DurableIndex.checkStaged loaded t with
    | error e => rfl
    | ok u => rfl

/-- The journal of the cycle in the changed hot store. -/
theorem readCycle_committed_own (s : DurableCycleStore) (t : DurableCycleTransaction) :
    (s.hot.committed t.inner).readCycle t.inner.cycleId = s.hot.extended t.inner := by
  rw [FixtureCycleStore.readCycle_committed, if_pos rfl]

/-- A transaction that goes through to both files. -/
theorem atomic_iff_of_writes {s : DurableCycleStore} {d : Disk} {t : DurableCycleTransaction}
    {f : Faults} {index : DurableIndex} (hwrites : s.Writes sha256 collation index t f)
    (hcommit : s.commit sha256 collation d t f = persist sha256 collation
      { s with hot := s.hot.committed t.inner, index := index.withStaged t } d t.inner.cycleId f) :
    s.Atomic sha256 collation d t f ↔ t.inner.cycleId ∉ index.archivedCycleIds := by
  have hown := readCycle_committed_own s t
  rcases persist_cases sha256 collation
    { s with hot := s.hot.committed t.inner, index := index.withStaged t } d t.inner.cycleId f with ⟨u, v, hu, hv, -, -, hpersist⟩ | ⟨e, -, -, hnot⟩
  · rw [hpersist] at hcommit
    simp only [hown] at hv hcommit
    constructor
    · intro hatomic
      obtain ⟨cycle, hcycle, -⟩ := (hatomic.returns (by rw [hcommit])).journal
      rw [hcommit] at hcycle
      exact (readCycle_eq_ok.mp hcycle).2.1
    · intro hactive
      constructor
      · intro e hthrows
        rw [hcommit] at hthrows
        cases hthrows
      · intro _
        rw [hcommit]
        constructor
        · refine ⟨s.hot.extended t.inner, ?_, rfl, v, ?_, hv⟩
          · exact readCycle_eq_ok.mpr ⟨t.inner.cycleIdOk, hactive, hown.symm⟩
          · show (d.active.set t.inner.cycleId v).find t.inner.cycleId = some v
            rw [Record.find_set, if_pos rfl]
        · exact ⟨index.withStaged_holds t, u, rfl, hu⟩
        · show t.inner.cycleId ∈ addActive s.activeCycleIds t.inner.cycleId
          unfold addActive
          split
          · assumption
          · simp
  · refine absurd ⟨hwrites.index, ?_, hwrites.indexWrite, hwrites.activeWrite⟩ hnot
    rw [show (s.hot.committed t.inner).readCycle t.inner.cycleId = _ from hown]
    exact hwrites.cycle

/-- A transaction that passes the checks and does not reach both files. -/
theorem atomic_iff_of_failure {s : DurableCycleStore} {d : Disk} {t : DurableCycleTransaction}
    {f : Faults} {index : DurableIndex} (hadmits : s.Admits sha256 index t)
    (hwrites : ¬ s.Writes sha256 collation index t f)
    (hcommit : s.commit sha256 collation d t f = persist sha256 collation
      { s with hot := s.hot.committed t.inner, index := index.withStaged t } d t.inner.cycleId f) :
    s.Atomic sha256 collation d t f ↔
      (∀ cycleId, isIdentifier cycleId →
        (cycleId ∈ s.index.archivedCycleIds ↔ cycleId ∈ index.archivedCycleIds)) ∧
      t.inner.cycleId ∈ index.archivedCycleIds := by
  have hown := readCycle_committed_own s t
  have hstore := persist_store sha256 collation
    { s with hot := s.hot.committed t.inner, index := index.withStaged t } d t.inner.cycleId f
  have hid := t.inner.cycleIdOk
  rcases persist_cases sha256 collation
    { s with hot := s.hot.committed t.inner, index := index.withStaged t } d t.inner.cycleId f with ⟨u, v, hu, hv, hdone, hdone', -⟩ | ⟨e, he, hactive, -⟩
  · simp only [hown] at hv
    exact absurd ⟨⟨u, hu⟩, ⟨v, hv⟩, hdone, hdone'⟩ hwrites
  rw [← hcommit] at hstore he hactive
  obtain ⟨hhot, hindex, -, -⟩ := hstore
  have harchived : (s.commit sha256 collation d t f).store.index.archivedCycleIds
      = index.archivedCycleIds := by
    rw [hindex]
    rfl
  constructor
  · intro hatomic
    have hview := (hatomic.throws e he).1
    have hagree : ∀ cycleId, isIdentifier cycleId →
        (cycleId ∈ s.index.archivedCycleIds ↔ cycleId ∈ index.archivedCycleIds) := by
      intro cycleId hcycle
      rw [hview.archived hcycle, harchived]
    refine ⟨hagree, ?_⟩
    -- a journal that is shown would be longer than before
    by_contra hnot
    have hshown := hview.journals t.inner.cycleId
    rw [readCycle_identifier _ hid, readCycle_identifier _ hid, harchived, if_neg hnot,
      if_neg fun h => hnot ((hagree _ hid).mp h), hhot] at hshown
    have hsame : s.hot.readCycle t.inner.cycleId = s.hot.extended t.inner :=
      (Except.ok.inj hshown).trans hown
    exact FixtureCycleStore.extended_ne hadmits.hot.events hsame.symm
  · rintro ⟨hagree, hmem⟩
    constructor
    · intro e' _
      constructor
      · refine sameView_of (fun cycleId hcycle => ?_) (fun cycleId hcycle => ?_) fun cycleId => ?_
        · rw [harchived]
          exact hagree cycleId hcycle
        · have hne : cycleId ≠ t.inner.cycleId := by
            rintro rfl
            exact hcycle ((hagree _ hid).mpr hmem)
          rw [hhot]
          show _ = (s.hot.committed t.inner).readCycle cycleId
          rw [FixtureCycleStore.readCycle_committed, if_neg hne]
        · rw [hactive]
      · -- no transaction can be begun for an archived cycle
        intro t' d' f' hrestages _
        obtain ⟨cycle, -, hcycle, -⟩ := hrestages.begun
        have hopen := (readCycle_eq_ok.mp hcycle).2.1
        rw [harchived] at hopen
        exact absurd hmem hopen
    · intro hok
      rw [hok] at he
      cases he

/-- **A commit is atomic exactly when it is refused by its checks or goes through to both
files.** -/
theorem commit_atomic_iff (sha256 : Bytes → Bytes) (collation : Collation) (s : DurableCycleStore)
    (d : Disk) (t : DurableCycleTransaction) (f : Faults) :
    s.Atomic sha256 collation d t f ↔ s.CommitsOrRefuses sha256 collation d t f := by
  by_cases hread : s.Owns t ∧ ∃ index, DurableIndex.loadIndex collation d.index = .ok index
  · obtain ⟨howns, index, hload⟩ := hread
    have hcondition : s.CommitsOrRefuses sha256 collation d t f ↔
        (s.Admits sha256 index t ∧ s.Writes sha256 collation index t f →
          t.inner.cycleId ∉ index.archivedCycleIds) ∧
        (¬ (s.Admits sha256 index t ∧ s.Writes sha256 collation index t f) →
          (∀ cycleId, isIdentifier cycleId →
            (cycleId ∈ s.index.archivedCycleIds ↔ cycleId ∈ index.archivedCycleIds)) ∧
          (s.Admits sha256 index t → t.inner.cycleId ∈ index.archivedCycleIds)) := by
      constructor
      · exact fun h => h howns index hload
      · intro h _ other hother
        cases hload.symm.trans hother
        exact h
    rw [hcondition]
    rcases commit_loaded sha256 (f := f) howns hload with ⟨hrefused, e, hcommit⟩ | ⟨hadmits, hcommit⟩
    · -- the checks refuse the transaction: only the index is loaded anew
      have hnot : ¬ (s.Admits sha256 index t ∧ s.Writes sha256 collation index t f) :=
        fun h => hrefused h.1
      constructor
      · intro hatomic
        refine ⟨fun h => absurd h hnot, fun _ => ⟨?_, fun h => absurd h hrefused⟩⟩
        have hview := (hatomic.throws e (by rw [hcommit])).1
        rw [hcommit] at hview
        exact fun cycleId hid => hview.archived hid
      · intro h
        constructor
        · intro e' _
          rw [hcommit]
          refine ⟨sameView_of (h.2 hnot).1 (fun _ _ => rfl) fun _ => Iff.rfl, ?_⟩
          intro t' d' f' _ hok
          rwa [commit_index_outcome]
        · intro hok
          rw [hcommit] at hok
          cases hok
    · by_cases hwrites : s.Writes sha256 collation index t f
      · rw [atomic_iff_of_writes hwrites hcommit]
        exact ⟨fun h => ⟨fun _ => h, fun hnot => absurd ⟨hadmits, hwrites⟩ hnot⟩,
          fun h => h.1 ⟨hadmits, hwrites⟩⟩
      · rw [atomic_iff_of_failure hadmits hwrites hcommit]
        constructor
        · rintro ⟨hagree, hmem⟩
          exact ⟨fun h => absurd h.2 hwrites, fun _ => ⟨hagree, fun _ => hmem⟩⟩
        · intro h
          obtain ⟨hagree, hmem⟩ := h.2 fun both => hwrites both.2
          exact ⟨hagree, hmem hadmits⟩
  · -- nothing was read, and nothing is changed
    obtain ⟨e, hcommit⟩ := commit_unread sha256 (f := f) hread
    constructor
    · intro _ howns index hload
      exact absurd ⟨howns, index, hload⟩ hread
    · intro _
      constructor
      · intro e' _
        rw [hcommit]
        exact ⟨sameView_of (fun _ _ => Iff.rfl) (fun _ _ => rfl) fun _ => Iff.rfl,
          fun _ _ _ _ hok => hok⟩
      · intro hok
        rw [hcommit] at hok
        cases hok

end DurableCycleStore

/-! ## A sample -/

/-- Texts in the order of their units. -/
def unitCollation : Collation where
  localeCompare s t := if s ≤ t then (if t ≤ s then 0 else -1) else 1
  total := by
    intro s t
    rcases le_total s t with h | h
    · exact .inl (by rw [if_pos h]; split <;> decide)
    · exact .inr (by rw [if_pos h]; split <;> decide)
  trans := by
    intro s t u hst htu
    have hle : ∀ {a b : Text}, (if a ≤ b then (if b ≤ a then (0 : Int) else -1) else 1) ≤ 0 → a ≤ b := by
      intro a b h
      by_contra hnot
      rw [if_neg hnot] at h
      omega
    rw [if_pos ((hle hst).trans (hle htu))]
    split <;> decide
  distinguishes := by
    intro s t _ _ hst hts
    have hle : ∀ {a b : Text}, (if a ≤ b then (if b ≤ a then (0 : Int) else -1) else 1) ≤ 0 → a ≤ b := by
      intro a b h
      by_contra hnot
      rw [if_neg hnot] at h
      omega
    exact le_antisymm (hle hst) (hle hts)

namespace DurableCycleStore

/-- The object that is opened on an empty directory. -/
def fresh (identity : Nat) : DurableCycleStore where
  identity := identity
  generation := 0
  hot := ⟨.empty, .empty, .empty, .empty⟩
  index := DurableIndex.emptyIndex
  activeCycleIds := []

end DurableCycleStore

namespace DurableCycleTransaction

/-- A transaction of events alone. -/
def ofEvents (store generation : Nat) (cycleId : Text) (hcycle : isIdentifier cycleId)
    (expectedVersion : Nat) (expectedJournalHead : Value) (events : List Data) :
    DurableCycleTransaction :=
  .opened store generation
    { FixtureCycleTransaction.opened cycleId hcycle expectedVersion expectedJournalHead with events }

end DurableCycleTransaction

theorem sampleCycle_isIdentifier : isIdentifier (text "cycle-1") := by
  decide

theorem sampleFirst_distinct : (Value.object (sampleFirst samplePayload)).distinctKeys := by
  decide

/-- The first event of a cycle. -/
def sampleOpening : DurableCycleTransaction :=
  .ofEvents 0 0 (text "cycle-1") sampleCycle_isIdentifier 0 .null
    [⟨.object (sampleFirst samplePayload), sampleFirst_distinct⟩]

/-- It is what an object on an empty directory begins and stages. -/
example : (do
    let t ← (DurableCycleStore.fresh 0).begin (text "cycle-1") 0 .null
    t.stageEvent ⟨.object (sampleFirst samplePayload), sampleFirst_distinct⟩)
      = .ok sampleOpening := rfl

/-- When the index cannot be written, the commit throws and the event is shown all the same. -/
theorem commit_not_atomic : ¬ (DurableCycleStore.fresh 0).Atomic sampleEntryHash unitCollation
    Disk.empty sampleOpening { indexWrite := .failed } := by
  intro h
  have hthrows : ((DurableCycleStore.fresh 0).commit sampleEntryHash unitCollation Disk.empty
      sampleOpening { indexWrite := .failed }).outcome = .error "file write failed" := by
    decide +kernel
  have hview := (h.throws _ hthrows).1.journals (text "cycle-1")
  have hbefore : (((DurableCycleStore.fresh 0).readCycle (text "cycle-1")).toOption.any
      fun cycle => cycle.version = 0) = true := by decide +kernel
  have hafter : (((((DurableCycleStore.fresh 0).commit sampleEntryHash unitCollation Disk.empty
      sampleOpening { indexWrite := .failed }).store).readCycle (text "cycle-1")).toOption.any
      fun cycle => cycle.version = 0) = false := by decide +kernel
  rw [← hview, hbefore] at hafter
  cases hafter

end Hookemon.Runner
