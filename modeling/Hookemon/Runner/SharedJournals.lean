import Hookemon.Runner.WorldFiles

/-! # Journals that several objects write

The index is loaded anew for every operation, but the journals of an object are the copy
that it took when it was opened. A commit or an archive that goes through on a copy that
is behind the file replaces what another object has committed. As long as none does, no
committed event is lost, whatever the order of the operations and wherever they fail.
-/

namespace Hookemon.Runner

open Hookemon.Core Hookemon.Js

/-! ## Journals on disk -/

namespace Disk

variable (sha256 : Bytes → Bytes)

/-- The entries in the active file of a cycle. -/
def activeJournal (d : Disk) (cycleId : Text) : List Value :=
  match (d.active.find cycleId).map (parseActiveCycle sha256) with
  | some (.ok cycle) => cycle.entries
  | _ => []

/-- The entries in the archive file of a cycle. -/
def archivedJournal (d : Disk) (cycleId : Text) : List Value :=
  match (d.archive.find cycleId).map (parseArchivedCycle sha256) with
  | some (.ok (cycle, _)) => cycle.entries
  | _ => []

end Disk

/-- The journal of an object, with the keys in the order in which a file has them. -/
def DurableCycleStore.journal (s : DurableCycleStore) (cycleId : Text) : List Value :=
  (s.hot.readCycle cycleId).entries.map Value.sortKeys

namespace StoreWorld

variable (sha256 : Bytes → Bytes) (collation : Collation)

/-- A commit or an archive that passes its checks is one of an open cycle, on a copy of its
journal that is not behind the file. -/
def UpToDate (w : StoreWorld) : Action → Prop
  | .commit i t _ => ∀ s index, w.stores[i]? = some s →
      DurableIndex.loadIndex collation w.disk.index = .ok index → s.Owns t →
      s.Admits sha256 index t → t.inner.cycleId ∉ index.archivedCycleIds ∧
        w.disk.activeJournal sha256 t.inner.cycleId <+: s.journal t.inner.cycleId
  | .archiveCycle i cycleId _ _ => ∀ s index, w.stores[i]? = some s →
      DurableIndex.loadIndex collation w.disk.index = .ok index → s.Archives index cycleId →
      w.disk.activeJournal sha256 cycleId <+: s.journal cycleId
  | _ => True

/-- The index file lists the cycle as archived. -/
def Listed (file : Option Text) (cycleId : Text) : Prop :=
  ∃ index : DurableIndex, index.Sound ∧ cycleId ∈ index.archivedCycleIds ∧
    ∃ t, index.serializeIndex collation = .ok t ∧ file = some t

variable {sha256 collation}

/-! ## The archived cycles -/

theorem listed_iff {file : Option Text} {loaded : DurableIndex} (h : IndexOk collation file)
    (hload : DurableIndex.loadIndex collation file = .ok loaded) {cycleId : Text} :
    Listed collation file cycleId ↔ cycleId ∈ loaded.archivedCycleIds := by
  -- a file that is read gives the archived cycles of the index that was written
  have hread : ∀ {index : DurableIndex} {t : Text}, index.Sound →
      index.serializeIndex collation = .ok t → file = some t →
      (cycleId ∈ loaded.archivedCycleIds ↔ cycleId ∈ index.archivedCycleIds) := by
    rintro index t hsound ht rfl
    have hsize : byteLength t ≤ maximumIndexBytes := by
      rw [DurableIndex.loadIndex, bind_eq_ok] at hload
      obtain ⟨_, hsize, -⟩ := hload
      exact not_lt.mp (revertIf_eq_ok.mp hsize)
    rw [DurableIndex.loadIndex_serializeIndex collation hsound ht hsize] at hload
    cases hload
    exact (DurableIndex.normalized_same collation hsound).archived.mem_iff
  constructor
  · rintro ⟨index, hsound, hmem, t, ht, hfile⟩
    exact (hread hsound ht hfile).mpr hmem
  · intro hmem
    rcases h with rfl | ⟨index, hsound, t, ht, hfile⟩
    · cases hload
      cases hmem
    · exact ⟨index, hsound, (hread hsound ht hfile).mp hmem, t, ht, hfile⟩

/-- One text is that of one list of archived cycles. -/
theorem archived_of_text {index other : DurableIndex} (h : index.Sound) (h' : other.Sound) {t : Text}
    (ht : index.serializeIndex collation = .ok t) (ht' : other.serializeIndex collation = .ok t) :
    index.archivedCycleIds.Perm other.archivedCycleIds := by
  have hparse := parse_fileText (DurableIndex.toValue_distinct collation h) ht
  rw [parse_fileText (DurableIndex.toValue_distinct collation h') ht', Option.some.injEq] at hparse
  have hget : ∀ {i : DurableIndex}, i.Sound →
      (i.toValue collation).sortKeys.get (text "archivedCycleIds")
        = .array ((i.sortedArchived collation).map Value.string) := by
    intro i hi
    rw [Value.get_sortKeys (DurableIndex.toValue_distinct collation hi)]
    show (Value.array _).sortKeys = _
    rw [sortKeys_array, List.map_map]
    rfl
  have hsorted := hget h'
  rw [hparse, hget h, Value.array.injEq] at hsorted
  have hsame := (List.map_injective_iff.mpr fun _ _ => Value.string.inj) hsorted
  have hperm := collation.sortBy_perm id index.archivedCycleIds
  have hperm' := collation.sortBy_perm id other.archivedCycleIds
  exact hperm.symm.trans ((List.Perm.of_eq hsame).trans hperm')

/-- What an archive that comes to its writes has found. -/
structure Seals (sha256 : Bytes → Bytes) (collation : Collation) (w : StoreWorld) (a : Action)
    (cycleId : Text) (s : DurableCycleStore) (t : Text) : Prop where
  action : ∃ i now f, a = .archiveCycle i cycleId now f ∧ w.stores[i]? = some s ∧
    serializeArchivedCycle sha256 (s.hot.readCycle cycleId) now.1 = .ok t
  index : ∃ index, DurableIndex.loadIndex collation w.disk.index = .ok index ∧
    s.Archives index cycleId

/-- An index that is written lists what the loaded one does, and a cycle that is archived. -/
theorem Encodes.archived {w : StoreWorld} {a : Action} {index : DurableIndex}
    (h : w.Encodes sha256 collation a index) :
    ∃ loaded, DurableIndex.loadIndex collation w.disk.index = .ok loaded ∧
      loaded.archivedCycleIds ⊆ index.archivedCycleIds ∧
      ∀ cycleId ∈ index.archivedCycleIds, cycleId ∈ loaded.archivedCycleIds ∨
        (a.faults.archiveWrite = .done ∧ ∃ s t, Seals sha256 collation w a cycleId s t) := by
  cases h with
  | commit _ _ hload _ => exact ⟨_, hload, fun _ h => h, fun _ h => .inl h⟩
  | reserveGlobalKey _ _ _ hload _ => exact ⟨_, hload, fun _ h => h, fun _ h => .inl h⟩
  | releaseGlobalKey _ _ hload _ _ => exact ⟨_, hload, fun _ h => h, fun _ h => .inl h⟩
  | @archiveCycle i own u now f s loaded hs hload harchives hu hwrite =>
    have hperm := collation.sortBy_perm id (loaded.archivedCycleIds ++ [own])
    refine ⟨loaded, hload, fun c hc => ?_, fun c hc => ?_⟩
    · exact hperm.mem_iff.mpr (List.mem_append_left _ hc)
    · rcases List.mem_append.mp (hperm.mem_iff.mp hc) with hold | hnew
      · exact .inl hold
      · rw [List.mem_singleton.mp hnew]
        exact .inr ⟨hwrite, s, u, ⟨i, now, f, rfl, hs, hu⟩, loaded, hload, harchives⟩

/-- **A cycle that is listed stays listed, and only an archive lists another.** -/
theorem listed_step {w : StoreWorld} (h : w.Sound sha256 collation) (a : Action) (cycleId : Text) :
    (Listed collation w.disk.index cycleId →
      Listed collation (w.step sha256 collation a).1.disk.index cycleId) ∧
    (Listed collation (w.step sha256 collation a).1.disk.index cycleId →
      Listed collation w.disk.index cycleId ∨
        (a.faults.archiveWrite = .done ∧ ∃ s t, Seals sha256 collation w a cycleId s t)) := by
  rcases step_index sha256 collation w a with
    ⟨index, hencodes, hindex⟩ | ⟨-, hindex⟩
  swap
  · rw [hindex]
    exact ⟨id, .inl⟩
  have hsound := hencodes.sound h.index
  obtain ⟨loaded, hload, hmono, honly⟩ := hencodes.archived
  have hlisted : Listed collation w.disk.index cycleId ↔ _ := listed_iff h.index hload
  rw [hindex, DurableIndex.fileAfter]
  cases hserialize : index.serializeIndex collation with
  | error e => exact ⟨id, .inl⟩
  | ok t =>
    have hwritten : Listed collation (some t) cycleId ↔ cycleId ∈ index.archivedCycleIds := by
      constructor
      · rintro ⟨other, hother, hmem, u, hu, hfile⟩
        cases hfile
        exact (archived_of_text hother hsound hu hserialize).mem_iff.mp hmem
      · exact fun hmem => ⟨index, hsound, hmem, t, hserialize, rfl⟩
    cases a.faults.indexWrite with
    | failed => exact ⟨id, .inl⟩
    | done | unsynced =>
      constructor
      · exact fun hold => hwritten.mpr (hmono (hlisted.mp hold))
      · exact fun hnew => (honly cycleId (hwritten.mp hnew)).imp_left hlisted.mpr

/-! ## The files of a cycle -/

/-- What a commit that comes to its writes has found. -/
structure Extends (sha256 : Bytes → Bytes) (collation : Collation) (w : StoreWorld) (a : Action)
    (cycleId : Text) (s : DurableCycleStore) (t : DurableCycleTransaction) : Prop where
  action : ∃ i f, a = .commit i t f ∧ w.stores[i]? = some s
  cycle : t.inner.cycleId = cycleId
  owns : s.Owns t
  index : ∃ index, DurableIndex.loadIndex collation w.disk.index = .ok index ∧
    s.Admits sha256 index t

/-- The writes of a commit come to the file of the cycle. -/
structure Reaches (sha256 : Bytes → Bytes) (collation : Collation) (s : DurableCycleStore)
    (index : DurableIndex) (t : DurableCycleTransaction) (f : Faults) : Prop where
  index : ∃ u, (index.withStaged t).serializeIndex collation = .ok u
  indexWrite : f.indexWrite = .done
  cycle : ∃ u, serializeActiveCycle sha256 (s.hot.extended t.inner) = .ok u
  activeWrite : f.activeWrite ≠ .failed

/-- An operation of an object on the directory. -/
theorem onStore_disk {α : Type} {w : StoreWorld} {i : Nat} {s : DurableCycleStore}
    (hs : w.stores[i]? = some s) (operation : DurableCycleStore → Result α) :
    (w.onStore i operation).1.disk = (operation s).disk := by
  rw [onStore, hs]

theorem onStore_none {α : Type} {w : StoreWorld} {i : Nat} (hs : w.stores[i]? = none)
    (operation : DurableCycleStore → Result α) : (w.onStore i operation).1 = w := by
  rw [onStore, hs]

/-- **The active file of a cycle changes by a commit of the cycle, or goes when the cycle is
archived.** -/
theorem active_step {w : StoreWorld} (h : w.Sound sha256 collation) (a : Action) (cycleId : Text) :
    (w.step sha256 collation a).1.disk.active.find cycleId = w.disk.active.find cycleId ∨
    ((w.step sha256 collation a).1.disk.active.find cycleId = none ∧
      Listed collation (w.step sha256 collation a).1.disk.index cycleId) ∨
    ∃ s t u, Extends sha256 collation w a cycleId s t ∧
      serializeActiveCycle sha256 (s.hot.extended t.inner) = .ok u ∧
      (w.step sha256 collation a).1.disk.active.find cycleId = some u ∧
      ∃ index, DurableIndex.loadIndex collation w.disk.index = .ok index ∧
        Reaches sha256 collation s index t a.faults := by
  have hkept : ∀ {α : Type} {i : Nat} {operation : DurableCycleStore → Result α},
      (∀ s : DurableCycleStore, s.KeepsJournals w.disk (operation s)) →
      (w.onStore i operation).1.disk.active.find cycleId = w.disk.active.find cycleId := by
    intro α i operation hkeeps
    cases hs : w.stores[i]? with
    | none => rw [onStore_none hs]
    | some s => rw [onStore_disk hs, (hkeeps s).active]
  cases a with
  | reserveGlobalKey i key value f =>
    exact .inl (hkept fun s => s.reserveGlobalKey_keeps w.disk key value f)
  | readGlobalKey i key => exact .inl (hkept fun s => s.readGlobalKey_keeps w.disk key)
  | releaseGlobalKey i key value f =>
    exact .inl (hkept fun s => s.releaseGlobalKey_keeps w.disk key value f)
  | «open» =>
    rcases (openStore_cases w h).1 cycleId with hsame | ⟨⟨index, hload, hmem⟩, hgone⟩
    · exact .inl hsame
    · refine .inr (.inl ⟨hgone, ?_⟩)
      exact (listed_step h .open cycleId).1 ((listed_iff h.index hload).mpr hmem)
  | commit i t f =>
    rw [step]
    cases hs : w.stores[i]? with
    | none => exact .inl (by rw [onStore_none hs])
    | some s =>
      rw [onStore_disk hs]
      rcases DurableCycleStore.commit_cases sha256 collation s w.disk t f
        with ⟨e, -, hdisk, -⟩ | ⟨index, hload, howns, hadmits, hcommit⟩
      · exact .inl (by rw [hdisk])
      · rw [hcommit, DurableCycleStore.persist_disk]
        have hown := DurableCycleStore.readCycle_committed_own s t
        simp only [hown]
        cases houtcome : DurableCycleStore.indexOutcome collation (index.withStaged t)
          f.indexWrite with
        | error e => exact .inl rfl
        | ok _ =>
          obtain ⟨hindex, hdone⟩ := DurableCycleStore.indexOutcome_eq_ok.mp houtcome
          rcases DurableCycleStore.activeAfter_find sha256 (s.hot.extended t.inner)
            f.activeWrite w.disk.active cycleId with hold | ⟨hname, hwrite, u, hu, hnew⟩
          · exact .inl hold
          · exact .inr (.inr ⟨s, t, u, ⟨⟨i, f, rfl, hs⟩, hname.symm, howns, index, hload, hadmits⟩,
              hu, hnew, index, hload, hindex, hdone, ⟨u, hu⟩, hwrite⟩)
  | archiveCycle i own now f =>
    rw [step]
    cases hs : w.stores[i]? with
    | none => exact .inl (by rw [onStore_none hs])
    | some s =>
      rw [onStore_disk hs]
      rcases DurableCycleStore.archiveCycle_cases sha256 collation s w.disk
        own now f with ⟨e, s', hrefused, -⟩ | ⟨index, t, hload, harchives, ht, harchive⟩
      · exact .inl (by rw [hrefused])
      · rw [harchive, DurableCycleStore.persistArchive_disk]
        have hlisted := DurableIndex.withArchived_sound collation (h.index.sound hload)
          harchives.identifier harchives.fresh
        have hmem : own ∈ (index.withArchived collation own).archivedCycleIds :=
          (collation.sortBy_perm id _).mem_iff.mpr (by simp)
        by_cases hgo : f.archiveWrite = .done ∧ f.unlinkFails = false
        · simp only [if_pos hgo, if_pos hgo.1]
          cases houtcome : DurableCycleStore.indexOutcome collation
            (index.withArchived collation own) f.indexWrite with
          | error e => exact .inl rfl
          | ok _ =>
            obtain ⟨⟨u, hu⟩, hdone⟩ := DurableCycleStore.indexOutcome_eq_ok.mp houtcome
            by_cases hown : cycleId = own
            · refine .inr (.inl ⟨by simp [hown], _, hlisted, hown ▸ hmem, u, hu, ?_⟩)
              rw [DurableIndex.fileAfter, hu, hdone]
              rfl
            · exact .inl (by simp [hown])
        · exact .inl (by simp only [if_neg hgo])

/-- **The archive file of a cycle changes only by an archive of the cycle.** -/
theorem archive_step {w : StoreWorld} (h : w.Sound sha256 collation) (a : Action) (cycleId : Text) :
    (w.step sha256 collation a).1.disk.archive.find cycleId = w.disk.archive.find cycleId ∨
    ∃ s t, Seals sha256 collation w a cycleId s t ∧ a.faults.archiveWrite ≠ .failed ∧
      (w.step sha256 collation a).1.disk.archive.find cycleId = some t := by
  have hkept : ∀ {α : Type} {i : Nat} {operation : DurableCycleStore → Result α},
      (∀ s : DurableCycleStore, s.KeepsJournals w.disk (operation s)) →
      (w.onStore i operation).1.disk.archive.find cycleId = w.disk.archive.find cycleId := by
    intro α i operation hkeeps
    cases hs : w.stores[i]? with
    | none => rw [onStore_none hs]
    | some s => rw [onStore_disk hs, (hkeeps s).archive]
  cases a with
  | reserveGlobalKey i key value f =>
    exact .inl (hkept fun s => s.reserveGlobalKey_keeps w.disk key value f)
  | readGlobalKey i key => exact .inl (hkept fun s => s.readGlobalKey_keeps w.disk key)
  | releaseGlobalKey i key value f =>
    exact .inl (hkept fun s => s.releaseGlobalKey_keeps w.disk key value f)
  | «open» => exact .inl (by rw [step, (openStore_cases w h).2.1])
  | commit i t f =>
    rw [step]
    cases hs : w.stores[i]? with
    | none => exact .inl (by rw [onStore_none hs])
    | some s =>
      rw [onStore_disk hs]
      rcases DurableCycleStore.commit_cases sha256 collation s w.disk t f
        with ⟨e, -, hdisk, -⟩ | ⟨index, -, -, -, hcommit⟩
      · exact .inl (by rw [hdisk])
      · exact .inl (by rw [hcommit, DurableCycleStore.persist_disk])
  | archiveCycle i own now f =>
    rw [step]
    cases hs : w.stores[i]? with
    | none => exact .inl (by rw [onStore_none hs])
    | some s =>
      rw [onStore_disk hs]
      rcases DurableCycleStore.archiveCycle_cases sha256 collation s w.disk
        own now f with ⟨e, s', hrefused, -⟩ | ⟨index, t, hload, harchives, ht, harchive⟩
      · exact .inl (by rw [hrefused])
      · rw [harchive, DurableCycleStore.persistArchive_disk]
        by_cases hown : cycleId = own
        · cases hwrite : f.archiveWrite with
          | failed => exact .inl rfl
          | done | unsynced =>
            refine .inr ⟨s, t, ⟨⟨i, now, f, by rw [hown], hs, by rw [hown, ht]⟩,
              index, hload, by rwa [hown]⟩, by simp [Action.faults, hwrite], ?_⟩
            simp [Write.file, hown]
        · refine .inl ?_
          cases f.archiveWrite <;> simp [Write.file, hown]

/-! ## Journals -/

theorem activeJournal_written {d : Disk} {cycleId t : Text} {cycle : CycleSnapshot}
    (h : cycle.Sound sha256) (ht : serializeActiveCycle sha256 cycle = .ok t)
    (hfile : d.active.find cycleId = some t) :
    d.activeJournal sha256 cycleId = cycle.entries.map Value.sortKeys := by
  rw [Disk.activeJournal, hfile, Option.map_some, parseActiveCycle_serialize h ht]
  rfl

theorem archivedJournal_written {d : Disk} {cycleId t : Text} {cycle : CycleSnapshot}
    {now : Timestamp} (h : cycle.Sound sha256)
    (ht : serializeArchivedCycle sha256 cycle now.1 = .ok t)
    (hfile : d.archive.find cycleId = some t) :
    d.archivedJournal sha256 cycleId = cycle.entries.map Value.sortKeys := by
  rw [Disk.archivedJournal, hfile, Option.map_some, parseArchivedCycle_serialize h ht]
  rfl

theorem activeJournal_congr {d d' : Disk} {cycleId : Text}
    (h : d'.active.find cycleId = d.active.find cycleId) :
    d'.activeJournal sha256 cycleId = d.activeJournal sha256 cycleId := by
  rw [Disk.activeJournal, Disk.activeJournal, h]

theorem archivedJournal_congr {d d' : Disk} {cycleId : Text}
    (h : d'.archive.find cycleId = d.archive.find cycleId) :
    d'.archivedJournal sha256 cycleId = d.archivedJournal sha256 cycleId := by
  rw [Disk.archivedJournal, Disk.archivedJournal, h]

theorem activeJournal_none {d : Disk} {cycleId : Text} (h : d.active.find cycleId = none) :
    d.activeJournal sha256 cycleId = [] := by
  rw [Disk.activeJournal, h]
  rfl

/-- The journal that a commit writes: the copy of the object and the staged events. -/
theorem Extends.journal {w : StoreWorld} (h : w.Sound sha256 collation) {a : Action} {cycleId : Text}
    {s : DurableCycleStore} {t : DurableCycleTransaction} {u : Text} {d : Disk}
    (hextends : Extends sha256 collation w a cycleId s t)
    (hu : serializeActiveCycle sha256 (s.hot.extended t.inner) = .ok u)
    (hfile : d.active.find cycleId = some u) :
    d.activeJournal sha256 cycleId
      = s.journal cycleId ++ (t.inner.events.map Subtype.val).map Value.sortKeys := by
  obtain ⟨i, f, -, hs⟩ := hextends.action
  obtain ⟨index, -, hadmits⟩ := hextends.index
  have hsound := (h.stores s (List.mem_of_getElem? hs)).extended hadmits.hot
  rw [activeJournal_written hsound hu hfile, DurableCycleStore.journal, ← hextends.cycle,
    ← List.map_append]
  rfl

/-- The archive file after an archive that came to its writes. -/
theorem Seals.file {w : StoreWorld} {a : Action} {cycleId : Text} {s : DurableCycleStore} {t : Text}
    (h : Seals sha256 collation w a cycleId s t) (hwrite : a.faults.archiveWrite ≠ .failed) :
    (w.step sha256 collation a).1.disk.archive.find cycleId = some t := by
  obtain ⟨i, now, f, rfl, hs, ht⟩ := h.action
  obtain ⟨index, hload, harchives⟩ := h.index
  rw [step, onStore_disk hs]
  rcases DurableCycleStore.archiveCycle_cases sha256 collation s w.disk
    cycleId now f with ⟨e, s', -, -, -, -, -, hnot⟩ | ⟨other, u, -, -, hu, harchive⟩
  · exact absurd harchives (hnot index hload t ht)
  · have hut : u = t := Except.ok.inj (hu.symm.trans ht)
    rw [harchive, DurableCycleStore.persistArchive_disk, hut]
    show (f.archiveWrite.file w.disk.archive (w.disk.archive.set cycleId t)).find cycleId = some t
    cases hcase : f.archiveWrite with
    | failed => exact absurd hcase hwrite
    | done | unsynced => simp [Write.file]

theorem Seals.journal {w : StoreWorld} (h : w.Sound sha256 collation) {a : Action} {cycleId : Text}
    {s : DurableCycleStore} {t : Text} {d : Disk}
    (hseals : Seals sha256 collation w a cycleId s t) (hfile : d.archive.find cycleId = some t) :
    d.archivedJournal sha256 cycleId = s.journal cycleId := by
  obtain ⟨i, now, f, -, hs, ht⟩ := hseals.action
  have hsound := ((h.stores s (List.mem_of_getElem? hs)).readCycle cycleId).2
  exact archivedJournal_written hsound ht hfile

/-- A cycle that is listed is not archived again. -/
theorem Seals.not_listed {w : StoreWorld} (h : w.Sound sha256 collation) {a : Action} {cycleId : Text}
    {s : DurableCycleStore} {t : Text} (hseals : Seals sha256 collation w a cycleId s t) :
    ¬ Listed collation w.disk.index cycleId := by
  obtain ⟨index, hload, harchives⟩ := hseals.index
  rw [listed_iff h.index hload]
  exact harchives.fresh

/-- On a copy that is up to date a cycle that is listed is not committed, and a commit
writes a longer journal. -/
theorem Extends.upToDate {w : StoreWorld} (h : w.Sound sha256 collation) {a : Action} {cycleId : Text}
    {s : DurableCycleStore} {t : DurableCycleTransaction}
    (hextends : Extends sha256 collation w a cycleId s t) (ha : w.UpToDate sha256 collation a) :
    ¬ Listed collation w.disk.index cycleId ∧
      w.disk.activeJournal sha256 cycleId <+: s.journal cycleId := by
  obtain ⟨i, f, rfl, hs⟩ := hextends.action
  obtain ⟨index, hload, hadmits⟩ := hextends.index
  have hboth := ha s index hs hload hextends.owns hadmits
  rw [hextends.cycle] at hboth
  rw [listed_iff h.index hload]
  exact hboth

theorem Seals.upToDate {w : StoreWorld} {a : Action} {cycleId : Text} {s : DurableCycleStore} {t : Text}
    (hseals : Seals sha256 collation w a cycleId s t) (ha : w.UpToDate sha256 collation a) :
    w.disk.activeJournal sha256 cycleId <+: s.journal cycleId := by
  obtain ⟨i, now, f, rfl, hs, -⟩ := hseals.action
  obtain ⟨index, hload, harchives⟩ := hseals.index
  exact ha s index hs hload harchives

/-! ## What a run keeps -/

/-- The archive file of a cycle that is listed has all that its active file may still have. -/
structure Shadowed (sha256 : Bytes → Bytes) (collation : Collation) (w : StoreWorld) : Prop where
  sound : w.Sound sha256 collation
  shadowed : ∀ cycleId, Listed collation w.disk.index cycleId →
    w.disk.activeJournal sha256 cycleId <+: w.disk.archivedJournal sha256 cycleId

/-- A cycle that is listed after a step has its journal in the archive. -/
theorem Shadowed.listed {w : StoreWorld} (h : Shadowed sha256 collation w) {a : Action}
    (ha : w.UpToDate sha256 collation a) {cycleId : Text}
    (hlisted : Listed collation (w.step sha256 collation a).1.disk.index cycleId) :
    w.disk.activeJournal sha256 cycleId
      <+: (w.step sha256 collation a).1.disk.archivedJournal sha256 cycleId := by
  rcases (listed_step h.sound a cycleId).2 hlisted with hold | ⟨hwrite, s, t, hseals⟩
  · rcases archive_step h.sound a cycleId with hsame | ⟨s, t, hseals, -⟩
    · rw [archivedJournal_congr hsame]
      exact h.shadowed cycleId hold
    · exact absurd hold (hseals.not_listed h.sound)
  · have hfile := hseals.file (by rw [hwrite]; decide)
    rw [hseals.journal h.sound hfile]
    exact hseals.upToDate ha

theorem Shadowed.step {w : StoreWorld} (h : Shadowed sha256 collation w) {a : Action}
    (ha : w.UpToDate sha256 collation a) :
    Shadowed sha256 collation (w.step sha256 collation a).1 := by
  refine ⟨step_sound w a h.sound, fun cycleId hlisted => ?_⟩
  have hold := h.listed ha hlisted
  rcases active_step h.sound a cycleId with hsame | ⟨hgone, -⟩ | ⟨s, t, u, hextends, hu, hfile, -⟩
  · rwa [activeJournal_congr hsame]
  · rw [activeJournal_none hgone]
    exact List.nil_prefix
  · -- a commit goes through only for a cycle that is not listed, and lists none
    exfalso
    obtain ⟨i, f, rfl, -⟩ := hextends.action
    rcases (listed_step h.sound _ cycleId).2 hlisted with hbefore | ⟨-, s', t', hseals⟩
    · exact (hextends.upToDate h.sound ha).1 hbefore
    · obtain ⟨_, _, _, ⟨⟩, -⟩ := hseals.action

/-- A journal is on disk: in the active file, or in the archive of a cycle that is listed. -/
def OnDisk (sha256 : Bytes → Bytes) (collation : Collation) (entries : List Value) (cycleId : Text)
    (w : StoreWorld) : Prop :=
  entries <+: w.disk.activeJournal sha256 cycleId ∨
    (entries <+: w.disk.archivedJournal sha256 cycleId ∧ Listed collation w.disk.index cycleId)

/-- **A journal that is on disk stays there.** -/
theorem OnDisk.step {w : StoreWorld} (h : Shadowed sha256 collation w) {a : Action}
    (ha : w.UpToDate sha256 collation a) {entries : List Value} {cycleId : Text}
    (hdisk : OnDisk sha256 collation entries cycleId w) :
    OnDisk sha256 collation entries cycleId (w.step sha256 collation a).1 := by
  rcases hdisk with hactive | ⟨harchived, hlisted⟩
  · rcases active_step h.sound a cycleId with hsame | ⟨-, hlisted⟩ |
        ⟨s, t, u, hextends, hu, hfile, -⟩
    · exact .inl (by rwa [activeJournal_congr hsame])
    · exact .inr ⟨hactive.trans (h.listed ha hlisted), hlisted⟩
    · refine .inl ?_
      rw [hextends.journal h.sound hu hfile]
      exact (hactive.trans (hextends.upToDate h.sound ha).2).trans (List.prefix_append _ _)
  · refine .inr ⟨?_, (listed_step h.sound a cycleId).1 hlisted⟩
    rcases archive_step h.sound a cycleId with hsame | ⟨s, t, hseals, -⟩
    · rwa [archivedJournal_congr hsame]
    · exact absurd hlisted (hseals.not_listed h.sound)

/-! ## Successful operations -/

theorem onStore_ok {α : Type} {w : StoreWorld} {i : Nat} {operation : DurableCycleStore → Result α}
    (h : (w.onStore i operation).2 = .ok ()) :
    ∃ s a, w.stores[i]? = some s ∧ (operation s).outcome = .ok a := by
  unfold onStore at h
  cases hs : w.stores[i]? with
  | none =>
    rw [hs] at h
    cases h
  | some s =>
    rw [hs] at h
    cases houtcome : (operation s).outcome with
    | error e =>
      simp only [houtcome, Except.map] at h
      cases h
    | ok a => exact ⟨s, a, rfl, houtcome⟩

/-- A commit that returns has written the journal with its events. -/
theorem commit_ok {w : StoreWorld} {i : Nat} {t : DurableCycleTransaction} {f : Faults}
    (h : (w.step sha256 collation (.commit i t f)).2 = .ok ()) :
    ∃ s u, Extends sha256 collation w (.commit i t f) t.inner.cycleId s t ∧
      serializeActiveCycle sha256 (s.hot.extended t.inner) = .ok u ∧
      (w.step sha256 collation (.commit i t f)).1.disk.active.find t.inner.cycleId = some u := by
  obtain ⟨s, _, hs, houtcome⟩ := onStore_ok h
  rw [step, onStore_disk hs]
  rcases DurableCycleStore.commit_cases sha256 collation s w.disk t f
    with ⟨e, herror, -⟩ | ⟨index, hload, howns, hadmits, hcommit⟩
  · rw [houtcome] at herror
    cases herror
  · rw [hcommit] at houtcome ⊢
    rcases DurableCycleStore.persist_cases sha256 collation
      { s with hot := s.hot.committed t.inner, index := index.withStaged t } w.disk
      t.inner.cycleId f with ⟨u, v, -, hv, -, -, hpersist⟩ | ⟨e, herror, -⟩
    · simp only [DurableCycleStore.readCycle_committed_own] at hv hpersist
      refine ⟨s, v, ⟨⟨i, f, rfl, hs⟩, rfl, howns, index, hload, hadmits⟩, hv, ?_⟩
      rw [hpersist]
      show (w.disk.active.set t.inner.cycleId v).find t.inner.cycleId = some v
      rw [Record.find_set, if_pos rfl]
    · rw [houtcome] at herror
      cases herror

theorem persistArchive_ok {s : DurableCycleStore} {d : Disk} {cycleId t : Text} {f : Faults}
    {u : Unit} (h : (DurableCycleStore.persistArchive sha256 collation s d cycleId t f).outcome
      = .ok u) : f.archiveWrite = .done ∧
      DurableCycleStore.indexOutcome collation (s.index.withArchived collation cycleId)
        f.indexWrite = .ok () := by
  unfold DurableCycleStore.persistArchive at h
  cases hwrite : f.archiveWrite with
  | failed | unsynced =>
    rw [hwrite] at h
    cases h
  | done =>
    rw [hwrite] at h
    simp only [Write.result, DurableCycleStore.writeIndex_eq] at h
    cases houtcome : DurableCycleStore.indexOutcome collation (s.index.withArchived collation cycleId)
      f.indexWrite with
    | error e =>
      rw [houtcome] at h
      cases h
    | ok _ => exact ⟨rfl, rfl⟩

/-- An archive that returns has written the archive file and lists the cycle. -/
theorem archiveCycle_ok {w : StoreWorld} (hw : w.Sound sha256 collation) {i : Nat} {cycleId : Text}
    {now : Timestamp} {f : Faults}
    (h : (w.step sha256 collation (.archiveCycle i cycleId now f)).2 = .ok ()) :
    ∃ s t, Seals sha256 collation w (.archiveCycle i cycleId now f) cycleId s t ∧
      (w.step sha256 collation (.archiveCycle i cycleId now f)).1.disk.archive.find cycleId = some t ∧
      Listed collation (w.step sha256 collation (.archiveCycle i cycleId now f)).1.disk.index
        cycleId := by
  obtain ⟨s, _, hs, houtcome⟩ := onStore_ok h
  rcases DurableCycleStore.archiveCycle_cases sha256 collation s w.disk
    cycleId now f with ⟨e, s', hrefused, -⟩ | ⟨index, t, hload, harchives, ht, harchive⟩
  · rw [hrefused] at houtcome
    cases houtcome
  · have hseals : Seals sha256 collation w (.archiveCycle i cycleId now f) cycleId s t :=
      ⟨⟨i, now, f, rfl, hs, ht⟩, index, hload, harchives⟩
    rw [harchive] at houtcome
    obtain ⟨hwrite, hindex⟩ := persistArchive_ok houtcome
    obtain ⟨⟨u, hu⟩, hdone⟩ := DurableCycleStore.indexOutcome_eq_ok.mp hindex
    refine ⟨s, t, hseals, hseals.file (by simp [Action.faults, hwrite]), ?_⟩
    refine ⟨index.withArchived collation cycleId, DurableIndex.withArchived_sound collation
      (hw.index.sound hload) harchives.identifier harchives.fresh,
      (collation.sortBy_perm id _).mem_iff.mpr (by simp), u, hu, ?_⟩
    have hafter : (index.withArchived collation cycleId).fileAfter collation f.indexWrite
        w.disk.index = some u := by
      simp only [DurableIndex.fileAfter, hu, hdone, Write.file]
    rw [step, onStore_disk hs, harchive, DurableCycleStore.persistArchive_disk]
    show (if f.archiveWrite = .done then _ else _) = _
    rw [if_pos hwrite]
    exact hafter

/-! ## No committed event is lost -/

/-- What an operation and a later one do to the journals of the cycle of the first. -/
structure Keeps (sha256 : Bytes → Bytes) (collation : Collation) (w : StoreWorld) (a : Action)
    (w' : StoreWorld) (b : Action) : Prop where
  extended : ∀ i t f, a = .commit i t f → (w.step sha256 collation a).2 = .ok () →
    w.disk.activeJournal sha256 t.inner.cycleId
      <+: (w.step sha256 collation a).1.disk.activeJournal sha256 t.inner.cycleId ∧
    (t.inner.events.map Subtype.val).map Value.sortKeys
      <:+ (w.step sha256 collation a).1.disk.activeJournal sha256 t.inner.cycleId
  kept : ∀ i t f, a = .commit i t f → (w.step sha256 collation a).2 = .ok () →
    (w.step sha256 collation a).1.disk.activeJournal sha256 t.inner.cycleId
      <+: w'.disk.activeJournal sha256 t.inner.cycleId ∨
    (w.step sha256 collation a).1.disk.activeJournal sha256 t.inner.cycleId
      <+: w'.disk.archivedJournal sha256 t.inner.cycleId
  ordered : ∀ i t f i' t' f', a = .commit i t f → (w.step sha256 collation a).2 = .ok () →
    b = .commit i' t' f' → t'.inner.cycleId = t.inner.cycleId →
    (w'.step sha256 collation b).2 = .ok () →
    ((w.step sha256 collation a).1.disk.activeJournal sha256 t.inner.cycleId).length
      ≤ t'.inner.expectedVersion ∧
    (w.step sha256 collation a).1.disk.activeJournal sha256 t.inner.cycleId
      <+: (w'.step sha256 collation b).1.disk.activeJournal sha256 t.inner.cycleId
  archived : ∀ i cycleId now f, a = .archiveCycle i cycleId now f →
    (w.step sha256 collation a).2 = .ok () →
    w.disk.activeJournal sha256 cycleId
      <+: (w.step sha256 collation a).1.disk.archivedJournal sha256 cycleId ∧
    w'.disk.archive.find cycleId = (w.step sha256 collation a).1.disk.archive.find cycleId
  closed : ∀ i cycleId now f, a = .archiveCycle i cycleId now f →
    (w.step sha256 collation a).2 = .ok () →
    (∃ i' t' f', b = .commit i' t' f' ∧ t'.inner.cycleId = cycleId) ∨
      (∃ i' now' f', b = .archiveCycle i' cycleId now' f') →
    (w'.step sha256 collation b).2 ≠ .ok ()

/-- **Whatever the objects do in any order, no committed event is lost, as long as no
operation goes through on a copy that is behind the file.** -/
theorem journals_kept (sha256 : Bytes → Bytes) (collation : Collation) (before : List Action)
    (a : Action) (later : List Action) (b : Action)
    (h : EveryStep (step sha256 collation) (UpToDate sha256 collation) empty
      (before ++ a :: later ++ [b])) :
    Keeps sha256 collation (stateAfterRun (step sha256 collation) empty before) a
      (stateAfterRun (step sha256 collation) empty (before ++ a :: later)) b := by
  have hempty : Shadowed sha256 collation empty :=
    ⟨empty_sound, fun cycleId hlisted => by
      obtain ⟨_, -, -, _, -, ⟨⟩⟩ := hlisted⟩
  have hkeep : ∀ w a, Shadowed sha256 collation w → w.UpToDate sha256 collation a →
      Shadowed sha256 collation (w.step sha256 collation a).1 := fun _ _ hw ha => hw.step ha
  rw [everyStep_concat, everyStep_append, everyStep_cons, stateAfterRun_append,
    stateAfterRun_cons] at h
  obtain ⟨⟨hbefore, ha, hlater⟩, hb⟩ := h
  have hw := everyStep_invariant hempty hkeep hbefore
  rw [stateAfterRun_append, stateAfterRun_cons]
  generalize stateAfterRun (step sha256 collation) empty before = w at *
  have hw₁ := hw.step ha
  -- what is on disk after the first operation is still there before the second
  have hdisk : ∀ (entries : List Value) (cycleId : Text),
      OnDisk sha256 collation entries cycleId (w.step sha256 collation a).1 →
      Shadowed sha256 collation (stateAfterRun (step sha256 collation)
        (w.step sha256 collation a).1 later) ∧
      OnDisk sha256 collation entries cycleId (stateAfterRun (step sha256 collation)
        (w.step sha256 collation a).1 later) := by
    intro entries cycleId hinit
    exact everyStep_invariant (I := fun w => Shadowed sha256 collation w ∧
      OnDisk sha256 collation entries cycleId w) ⟨hw₁, hinit⟩
      (fun w a hw ha => ⟨hw.1.step ha, hw.2.step hw.1 ha⟩) hlater
  have hseal : ∀ {cycleId : Text}, Listed collation (w.step sha256 collation a).1.disk.index cycleId →
      Listed collation (stateAfterRun (step sha256 collation)
        (w.step sha256 collation a).1 later).disk.index cycleId ∧
      (stateAfterRun (step sha256 collation) (w.step sha256 collation a).1
        later).disk.archive.find cycleId
        = (w.step sha256 collation a).1.disk.archive.find cycleId := by
    intro cycleId hlisted
    have hrun := everyStep_invariant (I := fun w₂ => Shadowed sha256 collation w₂ ∧
      Listed collation w₂.disk.index cycleId ∧ w₂.disk.archive.find cycleId
        = (w.step sha256 collation a).1.disk.archive.find cycleId) ⟨hw₁, hlisted, rfl⟩ ?_ hlater
    · exact hrun.2
    · rintro w₂ c ⟨hw₂, hlisted₂, hsame⟩ hc
      refine ⟨hw₂.step hc, (listed_step hw₂.sound c cycleId).1 hlisted₂, ?_⟩
      rcases archive_step hw₂.sound c cycleId with hkept | ⟨s, t, hseals, -⟩
      · rw [hkept, hsame]
      · exact absurd hlisted₂ (hseals.not_listed hw₂.sound)
  constructor
  case extended =>
    rintro i t f rfl hok
    obtain ⟨s, u, hextends, hu, hfile⟩ := commit_ok hok
    rw [hextends.journal hw.sound hu hfile]
    exact ⟨(hextends.upToDate hw.sound ha).2.trans (List.prefix_append _ _),
      List.suffix_append _ _⟩
  case kept =>
    intro i t f _ _
    rcases (hdisk _ _ (.inl (List.prefix_refl _))).2 with hactive | ⟨harchived, -⟩
    · exact .inl hactive
    · exact .inr harchived
  case ordered =>
    rintro i t f i' t' f' - - rfl hcycle hok
    obtain ⟨hw₂, hjournal⟩ := hdisk _ t.inner.cycleId (.inl (List.prefix_refl _))
    obtain ⟨s, u, hextends, hu, hfile⟩ := commit_ok hok
    rw [hcycle] at hextends hfile
    obtain ⟨hopen, hcopy⟩ := hextends.upToDate hw₂.sound hb
    -- the cycle is open, so its journal is the active one
    have hprefix := hjournal.resolve_right fun harchived => hopen harchived.2
    have hown := hprefix.trans hcopy
    constructor
    · obtain ⟨_, _, _, hs⟩ := hextends.action
      obtain ⟨index, -, hadmits⟩ := hextends.index
      have hversion := hadmits.hot.version
      rw [((hw₂.sound.stores s (List.mem_of_getElem? hs)).readCycle _).2.version, hcycle] at hversion
      rw [← hversion]
      simpa [DurableCycleStore.journal] using hown.length_le
    · rw [hextends.journal hw₂.sound hu hfile]
      exact hown.trans (List.prefix_append _ _)
  case archived =>
    rintro i cycleId now f rfl hok
    obtain ⟨s, t, -, -, hlisted⟩ := archiveCycle_ok hw.sound hok
    exact ⟨hw.listed ha hlisted, (hseal hlisted).2⟩
  case closed =>
    rintro i cycleId now f rfl hok hown hagain
    obtain ⟨s, t, -, -, hlisted⟩ := archiveCycle_ok hw.sound hok
    obtain ⟨hw₂, -⟩ := hdisk [] cycleId (.inl List.nil_prefix)
    have hlisted₂ := (hseal hlisted).1
    rcases hown with ⟨i', t', f', rfl, rfl⟩ | ⟨i', now', f', rfl⟩
    · obtain ⟨s', u, hextends, -⟩ := commit_ok hagain
      exact (hextends.upToDate hw₂.sound hb).1 hlisted₂
    · obtain ⟨s', t', hseals, -⟩ := archiveCycle_ok hw₂.sound hagain
      exact hseals.not_listed hw₂.sound hlisted₂

/-! ## Samples -/

def sampleTime : Timestamp := ⟨text "2026-01-01T00:00:00.000Z", by decide⟩

/-- The payload of the first event with another amount. -/
def samplePayload' : Fields :=
  [(text "amount", .string (text "16")), (text "chain", .array [sampleNumber 1, sampleNumber 2])]

theorem sampleFirst_distinct' : (Value.object (sampleFirst samplePayload')).distinctKeys := by
  decide

/-- The first event of the same cycle with another amount, from the second object. -/
def sampleRival : DurableCycleTransaction :=
  .ofEvents 1 0 (text "cycle-1") sampleCycle_isIdentifier 0 .null
    [⟨.object (sampleFirst samplePayload'), sampleFirst_distinct'⟩]

/-- Two objects are opened, and both commit the first event of the cycle. -/
theorem journals_not_kept : ¬ Keeps sampleEntryHash unitCollation
    (stateAfterRun (step sampleEntryHash unitCollation) empty [.open, .open])
    (.commit 0 sampleOpening {})
    (stateAfterRun (step sampleEntryHash unitCollation) empty
      [.open, .open, .commit 0 sampleOpening {}])
    (.commit 1 sampleRival {}) := by
  intro h
  have hfirst : ((stateAfterRun (step sampleEntryHash unitCollation) empty [.open, .open]).step
      sampleEntryHash unitCollation (.commit 0 sampleOpening {})).2 = .ok () := by decide +kernel
  have hsecond : ((stateAfterRun (step sampleEntryHash unitCollation) empty
      [.open, .open, .commit 0 sampleOpening {}]).step sampleEntryHash unitCollation
      (.commit 1 sampleRival {})).2 = .ok () := by decide +kernel
  have hopening : sampleOpening.inner.cycleId = text "cycle-1" := rfl
  have hrival : sampleRival.inner.cycleId = text "cycle-1" := rfl
  have hordered := (h.ordered 0 sampleOpening {} 1 sampleRival {} rfl hfirst rfl
    (hrival.trans hopening.symm) hsecond).2
  revert hordered
  decide +kernel

/-- One object commits an event and archives the cycle. -/
theorem journals_kept_sample : Keeps sampleEntryHash unitCollation
    (stateAfterRun (step sampleEntryHash unitCollation) empty [.open])
    (.commit 0 sampleOpening {})
    (stateAfterRun (step sampleEntryHash unitCollation) empty [.open, .commit 0 sampleOpening {}])
    (.archiveCycle 0 (text "cycle-1") sampleTime {}) := by
  refine journals_kept sampleEntryHash unitCollation [.open] (.commit 0 sampleOpening {}) []
    (.archiveCycle 0 (text "cycle-1") sampleTime {}) ?_
  refine everyStep_cons.mpr ⟨trivial, everyStep_cons.mpr ⟨?_, everyStep_cons.mpr ⟨?_, everyStep_nil⟩⟩⟩
  · intro s index _ hload _ _
    have hindex : ((empty.step sampleEntryHash unitCollation .open).1.disk.index) = none := by
      decide +kernel
    have hactive : (empty.step sampleEntryHash unitCollation .open).1.disk.activeJournal
        sampleEntryHash (text "cycle-1") = [] := by decide +kernel
    rw [hindex] at hload
    cases hload
    refine ⟨List.not_mem_nil, ?_⟩
    rw [show sampleOpening.inner.cycleId = text "cycle-1" from rfl, hactive]
    exact List.nil_prefix
  · intro s index hs _ _
    have hcopies : ((((empty.step sampleEntryHash unitCollation .open).1.step sampleEntryHash
        unitCollation (.commit 0 sampleOpening {})).1.stores[0]?).all fun s =>
        decide (((empty.step sampleEntryHash unitCollation .open).1.step sampleEntryHash
          unitCollation (.commit 0 sampleOpening {})).1.disk.activeJournal sampleEntryHash
            (text "cycle-1") <+: s.journal (text "cycle-1"))) = true := by decide +kernel
    rw [hs, Option.all_some, decide_eq_true_iff] at hcopies
    exact hcopies

end StoreWorld

end Hookemon.Runner
