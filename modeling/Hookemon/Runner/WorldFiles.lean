import Hookemon.Runner.CycleFile
import Hookemon.Runner.StoreWorld

/-! # The files and journals of a shared store

What holds in every state of the processes that share a directory: every file of a cycle
holds a sound journal of that cycle, and so does every object in memory.
-/

namespace Hookemon.Runner

open Hookemon.Core Hookemon.Js

variable {sha256 : Bytes → Bytes} {collation : Collation}

/-! ## Journals in memory -/

variable (sha256) in
/-- Every journal of the store is sound, under its own name. -/
def FixtureCycleStore.Sound (store : FixtureCycleStore) : Prop :=
  ∀ e ∈ store.cycles.entries, e.2.cycleId = e.1 ∧ e.2.Sound sha256

namespace FixtureCycleStore

theorem Sound.readCycle {store : FixtureCycleStore} (h : store.Sound sha256) (cycleId : Text) :
    (store.readCycle cycleId).cycleId = cycleId ∧ (store.readCycle cycleId).Sound sha256 := by
  unfold FixtureCycleStore.readCycle
  cases hfind : store.cycles.find cycleId with
  | none => exact ⟨rfl, CycleSnapshot.fresh_sound cycleId⟩
  | some cycle => exact h _ (Record.mem_of_find hfind)

theorem assertEntries_append {cycleId : Text} {entries : List Value} :
    ∀ {more : List Value}, assertEntries sha256 cycleId entries 0 .null = .ok () →
      assertEntries sha256 cycleId more entries.length (headOf entries) = .ok () →
      assertEntries sha256 cycleId (entries ++ more) 0 .null = .ok () := by
  intro more hentries hmore
  induction more generalizing entries with
  | nil => simpa using hentries
  | cons e more ih =>
    rw [assertEntries, bind_eq_ok] at hmore
    obtain ⟨_, hentry, hrest⟩ := hmore
    have hnext : assertEntries sha256 cycleId (entries ++ [e]) 0 .null = .ok () :=
      assertEntries_snoc.mpr ⟨hentries, hentry⟩
    have hhead : headOf (entries ++ [e]) = e.get (text "digest") := by simp [headOf]
    have htail := ih hnext (by simpa [hhead] using hrest)
    simpa using htail

theorem headOf_append (entries more : List Value) :
    headOf (entries ++ more) = headAfter (headOf entries) more := by
  rw [headAfter, headOf, List.getLast?_append]
  cases more.getLast? <;> rfl

/-- A journal that a transaction extends stays sound. -/
theorem Sound.extended {store : FixtureCycleStore} (h : store.Sound sha256)
    {t : FixtureCycleTransaction} (ht : store.Accepts sha256 t) :
    (store.extended t).Sound sha256 := by
  obtain ⟨hcycle, hsound⟩ := h.readCycle t.cycleId
  have hchained := ht.chained
  rw [hsound.head] at hchained
  have hold := hsound.chained
  rw [hcycle] at hold
  constructor
  · simp [FixtureCycleStore.extended]
  · show headAfter _ _ = headOf (_ ++ _)
    rw [hsound.head, headOf_append]
  · exact assertEntries_append hold hchained
  · intro e he
    rcases List.mem_append.mp he with hmem | hmem
    · exact hsound.data e hmem
    · obtain ⟨event, -, rfl⟩ := List.mem_map.mp hmem
      exact event.2

theorem Sound.committed {store : FixtureCycleStore} (h : store.Sound sha256)
    {t : FixtureCycleTransaction} (ht : store.Accepts sha256 t) :
    (store.committed t).Sound sha256 :=
  FixtureCycleTransaction.ok_set h ⟨rfl, h.extended ht⟩

theorem itemsOf_distinct {v : Value} (h : v.distinctKeys) : ∀ w ∈ itemsOf v, w.distinctKeys := by
  cases v with
  | array vs => exact distinctKeys_array.mp h
  | _ => simp [itemsOf]

/-- A store that is built from a snapshot is sound. -/
theorem new_sound {snapshot : Value} (hsnapshot : snapshot.distinctKeys) {store : FixtureCycleStore}
    (h : FixtureCycleStore.new sha256 snapshot = .ok store) : store.Sound sha256 := by
  simp only [new, bind_eq_ok, pure_eq_ok] at h
  obtain ⟨_, -, _, -, _, -, fs, -, _, -, cycles, hcycles, _, -, receipts, -, rfl⟩ := h
  obtain ⟨rows, hrows, -, -, hentries⟩ := collect_eq_ok.mp hcycles
  have hitems := itemsOf_distinct (get_distinct hsnapshot (text "cycles"))
  have hsound := forall₂_right (forall₂_imp_mem hrows fun v hv a ha =>
    (assertCycleSnapshot_sound (hitems v hv) ha).1)
  intro e he
  have hmem : e ∈ rows.map fun cycle => (cycle.cycleId, cycle) := by
    rw [show cycles.entries = _ from hentries] at he
    simpa [Record.empty] using he
  obtain ⟨cycle, hcycle, rfl⟩ := List.mem_map.mp hmem
  exact ⟨rfl, hsound cycle hcycle⟩

end FixtureCycleStore

/-! ## Files -/

variable (sha256) in
/-- Every file holds a sound journal of the cycle that it is named after. -/
structure Disk.Sound (d : Disk) : Prop where
  active : ∀ e ∈ d.active.entries, ∃ c : CycleSnapshot, c.Sound sha256 ∧ c.cycleId = e.1 ∧
    serializeActiveCycle sha256 c = .ok e.2
  archive : ∀ e ∈ d.archive.entries, ∃ (c : CycleSnapshot) (now : Timestamp), c.Sound sha256 ∧
    c.cycleId = e.1 ∧ serializeArchivedCycle sha256 c now.1 = .ok e.2

namespace DurableCycleStore

theorem snapshotValue_distinct (index : DurableIndex) {cycles : List CycleSnapshot}
    (h : ∀ c ∈ cycles, c.Sound sha256) : (snapshotValue index cycles).distinctKeys := by
  have hnodup : FixtureCycleStore.fields.Nodup := by decide
  refine distinctKeys_object.mpr ⟨hnodup, ?_⟩
  simp only [List.forall_mem_cons, List.not_mem_nil, false_imp_iff, implies_true, and_true]
  refine ⟨rfl, ?_, ?_, ?_⟩ <;> rw [distinctKeys_array, List.forall_mem_map]
  · exact fun c hc => (h c hc).toValue_distinct
  · exact fun r _ => r.distinct
  · exact fun r _ => r.distinct

theorem buildHot_sound {index : DurableIndex} {cycles : List CycleSnapshot}
    (h : ∀ c ∈ cycles, c.Sound sha256) {hot : FixtureCycleStore}
    (hhot : buildHot sha256 index cycles = .ok hot) : hot.Sound sha256 :=
  FixtureCycleStore.new_sound (snapshotValue_distinct index h) hhot

theorem readActiveFile_eq_ok {name t : Text} {cycle : CycleSnapshot} :
    readActiveFile sha256 name t = .ok cycle ↔ byteLength t ≤ maximumCycleFileBytes ∧
      parseActiveCycle sha256 t = .ok cycle ∧ cycle.cycleId = name := by
  simp only [readActiveFile, bind_eq_ok, revertIf_eq_ok, pure_eq_ok, not_lt, not_not]
  constructor
  · rintro ⟨_, hsize, c, hparse, _, hname, rfl⟩
    exact ⟨hsize, hparse, hname⟩
  · rintro ⟨hsize, hparse, hname⟩
    exact ⟨(), hsize, cycle, hparse, (), hname, rfl⟩

/-- The journals that are read from the active files are sound. -/
theorem readActiveFiles_sound {archived : List Text} {files : List (Text × Text)}
    (hfiles : ∀ e ∈ files, ∃ c : CycleSnapshot, c.Sound sha256 ∧ c.cycleId = e.1 ∧
      serializeActiveCycle sha256 c = .ok e.2) :
    ∀ {cycles : List CycleSnapshot} {directory : Record Text}, (∀ c ∈ cycles, c.Sound sha256) →
      ∀ {result : List CycleSnapshot},
        (readActiveFiles sha256 archived files cycles directory).1 = .ok result →
        ∀ c ∈ result, c.Sound sha256 := by
  induction files with
  | nil =>
    intro cycles directory hcycles result hresult
    cases hresult
    exact hcycles
  | cons file files ih =>
    intro cycles directory hcycles result hresult
    obtain ⟨name, t⟩ := file
    rw [List.forall_mem_cons] at hfiles
    rw [readActiveFiles] at hresult
    cases hread : readActiveFile sha256 name t with
    | error e =>
      rw [hread] at hresult
      cases hresult
    | ok cycle =>
      rw [hread] at hresult
      obtain ⟨written, hwritten, -, hserialized⟩ := hfiles.1
      obtain ⟨-, hparse, -⟩ := readActiveFile_eq_ok.mp hread
      have hsame : written.sorted = cycle := by
        rw [parseActiveCycle_serialize hwritten hserialized] at hparse
        exact Except.ok.inj hparse
      by_cases harchived : cycle.cycleId ∈ archived
      · simp only [harchived, if_true] at hresult
        exact ih hfiles.2 hcycles hresult
      · simp only [harchived, if_false] at hresult
        refine ih hfiles.2 (fun c hc => ?_) hresult
        rcases List.mem_append.mp hc with hold | hnew
        · exact hcycles c hold
        · rw [List.mem_singleton.mp hnew, ← hsame]
          exact hwritten.sorted

variable (sha256) in
/-- Only files of archived cycles are unlinked. -/
theorem readActiveFiles_directory (archived : List Text) (files : List (Text × Text)) :
    ∀ (cycles : List CycleSnapshot) (directory : Record Text) (name : Text),
      (readActiveFiles sha256 archived files cycles directory).2.find name = directory.find name ∨
      (name ∈ archived ∧
        (readActiveFiles sha256 archived files cycles directory).2.find name = none) := by
  induction files with
  | nil => exact fun _ _ _ => .inl rfl
  | cons file files ih =>
    intro cycles directory name
    obtain ⟨own, t⟩ := file
    rw [readActiveFiles]
    cases hread : readActiveFile sha256 own t with
    | error e => exact .inl rfl
    | ok cycle =>
      obtain ⟨-, -, hname⟩ := readActiveFile_eq_ok.mp hread
      by_cases harchived : cycle.cycleId ∈ archived
      · simp only [harchived, if_true]
        rcases ih cycles (directory.erase own) name with hsame | hgone
        · by_cases hown : name = own
          · refine .inr ⟨by rwa [hown, ← hname], ?_⟩
            rw [hsame, Record.find_erase, if_pos hown]
          · rw [hsame, Record.find_erase, if_neg hown]
            exact .inl rfl
        · exact .inr hgone
      · simp only [harchived, if_false]
        exact ih _ directory name

end DurableCycleStore

/-! ## What the operations keep -/

namespace DurableCycleStore

variable (sha256) in
theorem activeAfter_find (cycle : CycleSnapshot) (w : Write) (active : Record Text) (name : Text) :
    (activeAfter sha256 cycle w active).find name = active.find name ∨
    (name = cycle.cycleId ∧ w ≠ .failed ∧ ∃ t, serializeActiveCycle sha256 cycle = .ok t ∧
      (activeAfter sha256 cycle w active).find name = some t) := by
  unfold activeAfter
  cases hserialize : serializeActiveCycle sha256 cycle with
  | error e => exact .inl rfl
  | ok t =>
    have hset : name ≠ cycle.cycleId → (active.set cycle.cycleId t).find name = active.find name :=
      fun hne => by rw [Record.find_set, if_neg hne]
    by_cases hname : name = cycle.cycleId
    · cases w with
      | failed => exact .inl rfl
      | done | unsynced =>
        exact .inr ⟨hname, by decide, t, rfl, by simp [Write.file, hname]⟩
    · cases w with
      | failed => exact .inl rfl
      | done | unsynced => exact .inl (hset hname)

/-- The files and the journals that a reservation leaves alone. -/
structure KeepsJournals {α : Type} (s : DurableCycleStore) (d : Disk) (r : Result α) : Prop where
  active : r.disk.active = d.active
  archive : r.disk.archive = d.archive
  hot : r.store.hot = s.hot
  activeCycleIds : r.store.activeCycleIds = s.activeCycleIds

theorem readGlobalKey_keeps (s : DurableCycleStore) (d : Disk) (key : Text) :
    s.KeepsJournals d (s.readGlobalKey collation d key) := by
  unfold readGlobalKey
  split
  · exact ⟨rfl, rfl, rfl, rfl⟩
  · split <;> exact ⟨rfl, rfl, rfl, rfl⟩

theorem reserveGlobalKey_keeps (s : DurableCycleStore) (d : Disk) (key : Text) (value : Data)
    (f : Faults) : s.KeepsJournals d (s.reserveGlobalKey collation d key value f) := by
  unfold reserveGlobalKey
  split
  · exact ⟨rfl, rfl, rfl, rfl⟩
  split
  · exact ⟨rfl, rfl, rfl, rfl⟩
  split
  · exact ⟨rfl, rfl, rfl, rfl⟩
  split
  · split <;> exact ⟨rfl, rfl, rfl, rfl⟩
  · simp only [writeIndex_eq]
    generalize indexOutcome collation _ f.indexWrite = outcome
    cases outcome <;> exact ⟨rfl, rfl, rfl, rfl⟩

theorem releaseGlobalKey_keeps (s : DurableCycleStore) (d : Disk) (key : Text) (value : Data)
    (f : Faults) : s.KeepsJournals d (s.releaseGlobalKey collation d key value f) := by
  unfold releaseGlobalKey
  split
  · exact ⟨rfl, rfl, rfl, rfl⟩
  split
  · exact ⟨rfl, rfl, rfl, rfl⟩
  split
  · exact ⟨rfl, rfl, rfl, rfl⟩
  split
  · exact ⟨rfl, rfl, rfl, rfl⟩
  split
  · exact ⟨rfl, rfl, rfl, rfl⟩
  · simp only [writeIndex_eq]
    generalize indexOutcome collation _ f.indexWrite = outcome
    cases outcome <;> exact ⟨rfl, rfl, rfl, rfl⟩

variable (sha256 collation) in
/-- A commit is refused and changes no journal, or comes to its writes. -/
theorem commit_cases (s : DurableCycleStore) (d : Disk) (t : DurableCycleTransaction) (f : Faults) :
    (∃ e, (s.commit sha256 collation d t f).outcome = .error e ∧
      (s.commit sha256 collation d t f).disk = d ∧
      (s.commit sha256 collation d t f).store.hot = s.hot ∧
      (s.commit sha256 collation d t f).store.activeCycleIds = s.activeCycleIds ∧
      ∀ index, DurableIndex.loadIndex collation d.index = .ok index → s.Owns t →
        ¬ s.Admits sha256 index t) ∨
    ∃ index, DurableIndex.loadIndex collation d.index = .ok index ∧ s.Owns t ∧
      s.Admits sha256 index t ∧ s.commit sha256 collation d t f = persist sha256 collation
        { s with hot := s.hot.committed t.inner, index := index.withStaged t } d t.inner.cycleId f := by
  by_cases hread : s.Owns t ∧ ∃ index, DurableIndex.loadIndex collation d.index = .ok index
  · obtain ⟨howns, index, hload⟩ := hread
    rcases commit_loaded sha256 (f := f) howns hload with ⟨hrefused, e, hcommit⟩ | h
    · refine .inl ⟨e, by rw [hcommit], by rw [hcommit], by rw [hcommit], by rw [hcommit], ?_⟩
      intro other hother _
      cases hload.symm.trans hother
      exact hrefused
    · exact .inr ⟨index, hload, howns, h⟩
  · obtain ⟨e, hcommit⟩ := commit_unread sha256 (f := f) hread
    refine .inl ⟨e, by rw [hcommit], by rw [hcommit], by rw [hcommit], by rw [hcommit], ?_⟩
    intro index hload howns
    exact absurd ⟨howns, index, hload⟩ hread

variable (sha256 collation) in
/-- The journals after an archive are the old ones, or were built anew from them. -/
theorem persistArchive_hot (s : DurableCycleStore) (d : Disk) (cycleId t : Text) (f : Faults) :
    (persistArchive sha256 collation s d cycleId t f).store.hot = s.hot ∨
    buildHot sha256 (s.index.withArchived collation cycleId)
      ((collation.sortBy id (s.activeCycleIds.filter (· ≠ cycleId))).map s.hot.readCycle)
      = .ok (persistArchive sha256 collation s d cycleId t f).store.hot := by
  unfold persistArchive
  cases f.archiveWrite with
  | failed | unsynced => exact .inl rfl
  | done =>
    simp only [Write.result, writeIndex_eq]
    cases indexOutcome collation (s.index.withArchived collation cycleId) f.indexWrite with
    | error e => exact .inl rfl
    | ok u =>
      cases f.unlinkFails with
      | true => exact .inl rfl
      | false =>
        simp only [Bool.false_eq_true, if_false]
        split
        · exact .inl rfl
        · rename_i hot hhot
          exact .inr hhot

section Sound

variable {s : DurableCycleStore} {d : Disk} (hd : d.Sound sha256) (hs : s.hot.Sound sha256)

include hd hs

theorem commit_sound (t : DurableCycleTransaction) (f : Faults) :
    (s.commit sha256 collation d t f).disk.Sound sha256 ∧
    (s.commit sha256 collation d t f).store.hot.Sound sha256 := by
  rcases commit_cases sha256 collation s d t f with
    ⟨e, -, hdisk, hhot, -⟩ | ⟨index, -, -, hadmits, hcommit⟩
  · rw [hdisk, hhot]
    exact ⟨hd, hs⟩
  · have hcommitted : (s.hot.committed t.inner).Sound sha256 := hs.committed hadmits.hot
    rw [hcommit, persist_disk]
    refine ⟨⟨?_, hd.archive⟩, ?_⟩
    · rintro ⟨name, u⟩ he
      have hfile := Record.mem_iff_find.mp he
      simp only at hfile
      split at hfile
      · obtain ⟨hcycle, hsound⟩ := hcommitted.readCycle t.inner.cycleId
        rcases activeAfter_find sha256
          ((s.hot.committed t.inner).readCycle t.inner.cycleId) f.activeWrite d.active name with
          hold | ⟨hname, -, v, hv, hnew⟩
        · exact hd.active _ (Record.mem_of_find (hold ▸ hfile))
        · have huv : v = u := Option.some.inj (hnew.symm.trans hfile)
          exact ⟨_, hsound, hname.symm, huv ▸ hv⟩
      · exact hd.active _ (Record.mem_of_find hfile)
    · rw [(persist_store sha256 collation _ _ _ _).1]
      exact hcommitted

theorem archiveCycle_sound (cycleId : Text) (now : Timestamp) (f : Faults) :
    (s.archiveCycle sha256 collation d cycleId now f).disk.Sound sha256 ∧
    (s.archiveCycle sha256 collation d cycleId now f).store.hot.Sound sha256 := by
  rcases archiveCycle_cases sha256 collation s d cycleId now f with
    ⟨e, s', hrefused, hhot, -⟩ | ⟨index, t, -, -, ht, harchive⟩
  · rw [hrefused]
    exact ⟨hd, hhot ▸ hs⟩
  · obtain ⟨hcycle, hsound⟩ := hs.readCycle cycleId
    rw [harchive, persistArchive_disk]
    refine ⟨⟨?_, ?_⟩, ?_⟩
    · intro e he
      refine hd.active e ?_
      simp only at he
      split at he
      · split at he
        · exact (Record.mem_erase.mp he).1
        · exact he
      · exact he
    · have hset : ∀ e ∈ (d.archive.set cycleId t).entries, ∃ (c : CycleSnapshot) (now : Timestamp),
          c.Sound sha256 ∧ c.cycleId = e.1 ∧ serializeArchivedCycle sha256 c now.1 = .ok e.2 :=
        FixtureCycleTransaction.ok_set hd.archive ⟨_, now, hsound, hcycle, ht⟩
      cases f.archiveWrite with
      | failed => exact hd.archive
      | done | unsynced => exact hset
    · rcases persistArchive_hot sha256 collation { s with index } d cycleId
        t f with hsame | hbuilt
      · rw [hsame]
        exact hs
      · refine buildHot_sound (fun c hc => ?_) hbuilt
        obtain ⟨other, -, rfl⟩ := List.mem_map.mp hc
        exact (hs.readCycle other).2

end Sound

end DurableCycleStore

/-! ## Worlds -/

variable (sha256 collation) in
/-- What holds of the directory and of every object in every state. -/
structure StoreWorld.Sound (w : StoreWorld) : Prop where
  index : StoreWorld.IndexOk collation w.disk.index
  disk : w.disk.Sound sha256
  stores : ∀ s ∈ w.stores, s.hot.Sound sha256

namespace StoreWorld

theorem empty_sound : empty.Sound sha256 collation where
  index := .inl rfl
  disk := ⟨by simp [empty, Disk.empty, Record.empty], by simp [empty, Disk.empty, Record.empty]⟩
  stores := by simp [empty]

/-- The files and objects after an operation of one object. -/
theorem onStore_sound {α : Type} {w : StoreWorld} (h : w.Sound sha256 collation) {i : Nat}
    {operation : DurableCycleStore → Result α}
    (hop : ∀ s ∈ w.stores, (operation s).disk.Sound sha256 ∧ (operation s).store.hot.Sound sha256) :
    (w.onStore i operation).1.disk.Sound sha256 ∧
    ∀ s ∈ (w.onStore i operation).1.stores, s.hot.Sound sha256 := by
  unfold onStore
  cases hs : w.stores[i]? with
  | none => exact ⟨h.disk, h.stores⟩
  | some s =>
    have hmem := List.mem_of_getElem? hs
    refine ⟨(hop s hmem).1, fun s' hs' => ?_⟩
    rcases List.mem_or_eq_of_mem_set hs' with hold | hnew
    · exact h.stores s' hold
    · exact hnew ▸ (hop s hmem).2

theorem keeps_sound {α : Type} {s : DurableCycleStore} {d : Disk} {r : Result α}
    (hkeeps : s.KeepsJournals d r) (hd : d.Sound sha256) (hs : s.hot.Sound sha256) :
    r.disk.Sound sha256 ∧ r.store.hot.Sound sha256 := by
  refine ⟨⟨?_, ?_⟩, ?_⟩
  · rw [hkeeps.active]
    exact hd.active
  · rw [hkeeps.archive]
    exact hd.archive
  · rw [hkeeps.hot]
    exact hs

/-- Opening unlinks files of archived cycles, and adds an object with sound journals. -/
theorem openStore_cases (w : StoreWorld) (h : w.Sound sha256 collation) :
    (∀ name, (w.openStore sha256 collation).1.disk.active.find name = w.disk.active.find name ∨
      ((∃ index, DurableIndex.loadIndex collation w.disk.index = .ok index ∧
        name ∈ index.archivedCycleIds) ∧
        (w.openStore sha256 collation).1.disk.active.find name = none)) ∧
    (w.openStore sha256 collation).1.disk.archive = w.disk.archive ∧
    ∀ s ∈ (w.openStore sha256 collation).1.stores, s ∈ w.stores ∨ s.hot.Sound sha256 := by
  unfold openStore DurableCycleStore.open
  cases hload : DurableIndex.loadIndex collation w.disk.index with
  | error e => exact ⟨fun _ => .inl rfl, rfl, fun s hs => .inl hs⟩
  | ok index =>
    have hdirectory := DurableCycleStore.readActiveFiles_directory sha256
      index.archivedCycleIds w.disk.active.entries [] w.disk.active
    have hread : ∀ result, (DurableCycleStore.readActiveFiles sha256 index.archivedCycleIds
        w.disk.active.entries [] w.disk.active).1 = .ok result → ∀ c ∈ result, c.Sound sha256 :=
      fun result => DurableCycleStore.readActiveFiles_sound h.disk.active (by simp)
    have hfiles : ∀ name, ((DurableCycleStore.readActiveFiles sha256 index.archivedCycleIds
        w.disk.active.entries [] w.disk.active).2).find name = w.disk.active.find name ∨
        ((∃ loaded, Except.ok (ε := String) index = .ok loaded ∧ name ∈ loaded.archivedCycleIds) ∧
          ((DurableCycleStore.readActiveFiles sha256 index.archivedCycleIds
            w.disk.active.entries [] w.disk.active).2).find name = none) := by
      intro name
      exact (hdirectory name).imp_right fun hgone => ⟨⟨index, rfl, hgone.1⟩, hgone.2⟩
    simp only [DurableCycleStore.loadActiveCycles]
    rcases hresult : DurableCycleStore.readActiveFiles sha256 index.archivedCycleIds
      w.disk.active.entries [] w.disk.active with ⟨result, active⟩
    rw [hresult] at hread hfiles
    cases result with
    | error e => exact ⟨hfiles, rfl, fun s hs => .inl hs⟩
    | ok cycles =>
      have hcycles : ∀ c ∈ collation.sortBy CycleSnapshot.cycleId cycles, c.Sound sha256 :=
        fun c hc => hread cycles rfl c ((collation.sortBy_perm _ _).mem_iff.mp hc)
      simp only [Except.map]
      cases hhot : DurableCycleStore.buildHot sha256 index
        (collation.sortBy CycleSnapshot.cycleId cycles) with
      | error e => exact ⟨hfiles, rfl, fun s hs => .inl hs⟩
      | ok hot =>
        refine ⟨hfiles, rfl, fun s hs => ?_⟩
        rcases List.mem_append.mp hs with hold | hnew
        · exact .inl hold
        · rw [List.mem_singleton.mp hnew]
          exact .inr (DurableCycleStore.buildHot_sound hcycles hhot)

/-- **Every state is sound.** -/
theorem step_sound (w : StoreWorld) (a : Action) (h : w.Sound sha256 collation) :
    (w.step sha256 collation a).1.Sound sha256 collation := by
  have hindex := step_indexOk sha256 w a h.index
  suffices hrest : (w.step sha256 collation a).1.disk.Sound sha256 ∧
      ∀ s ∈ (w.step sha256 collation a).1.stores, s.hot.Sound sha256 from
    ⟨hindex, hrest.1, hrest.2⟩
  cases a with
  | «open» =>
    obtain ⟨hactive, harchive, hstores⟩ := openStore_cases w h
    refine ⟨⟨?_, ?_⟩, ?_⟩
    · rintro ⟨name, t⟩ he
      have hfile := Record.mem_iff_find.mp he
      rcases hactive name with hsame | ⟨-, hgone⟩
      · exact h.disk.active _ (Record.mem_of_find (hsame.symm.trans hfile))
      · cases hgone.symm.trans hfile
    · show ∀ e ∈ (w.openStore sha256 collation).1.disk.archive.entries, _
      rw [harchive]
      exact h.disk.archive
    · intro s hs
      exact (hstores s hs).elim (h.stores s) id
  | commit i t f =>
    exact onStore_sound h fun s hs => DurableCycleStore.commit_sound h.disk (h.stores s hs) t f
  | archiveCycle i cycleId now f =>
    exact onStore_sound h fun s hs =>
      DurableCycleStore.archiveCycle_sound h.disk (h.stores s hs) cycleId now f
  | reserveGlobalKey i key value f =>
    exact onStore_sound h fun s hs =>
      keeps_sound (s.reserveGlobalKey_keeps w.disk key value f) h.disk (h.stores s hs)
  | readGlobalKey i key =>
    exact onStore_sound h fun s hs =>
      keeps_sound (s.readGlobalKey_keeps w.disk key) h.disk (h.stores s hs)
  | releaseGlobalKey i key value f =>
    exact onStore_sound h fun s hs =>
      keeps_sound (s.releaseGlobalKey_keeps w.disk key value f) h.disk (h.stores s hs)

end StoreWorld

end Hookemon.Runner
