import Hookemon.Runner.ConsumedEvidence

/-! # Reopening a directory

An object is opened on what the writes of others have left behind: the index is read, then
every active file, and the journals that are not archived go into one snapshot with their
evidence, from which the hot store is built. Files that were written are read back; what
can refuse them is the limit on the bytes of a file, which no write checks, and the limits
on the snapshot, which a commit of one cycle never meets.
-/

namespace Hookemon.Runner

open Hookemon.Core Hookemon.Js

variable {sha256 : Bytes → Bytes} {collation : Collation}

/-! ## The hot store of a snapshot -/

namespace DurableCycleStore

/-- Cycles that were read from files. -/
structure Loadable (sha256 : Bytes → Bytes) (cycles : List CycleSnapshot) : Prop where
  distinct : (cycles.map CycleSnapshot.cycleId).Nodup
  sound : ∀ c ∈ cycles, c.Sound sha256
  identifier : ∀ c ∈ cycles, isIdentifier c.cycleId
  count : ∀ c ∈ cycles, c.entries.length ≤ RECOVERY_LIMITS.journalEvents
  encodable : ∀ c ∈ cycles, Encodable c.toValue

/-- The journals of the hot store are those of the snapshot. -/
theorem buildHot_cycles {index : DurableIndex} {cycles : List CycleSnapshot}
    (hcycles : Loadable sha256 cycles) {hot : FixtureCycleStore}
    (h : buildHot sha256 index cycles = .ok hot) :
    hot.cycles.entries = cycles.map fun c => (c.cycleId, c) := by
  simp only [buildHot, FixtureCycleStore.new, bind_eq_ok, pure_eq_ok] at h
  obtain ⟨_, -, _, -, _, -, fs, -, _, -, r, hr, _, -, receipts, -, rfl⟩ := h
  obtain ⟨rows, hrows, -, -, hentries⟩ := collect_eq_ok.mp hr
  have hsame : rows = cycles := by
    have hitems : itemsOf ((snapshotValue index cycles).get (text "cycles"))
        = cycles.map CycleSnapshot.toValue := rfl
    rw [hitems, List.forall₂_map_left_iff] at hrows
    have hequal := forall₂_imp_mem hrows fun c hc a ha =>
      ((assertCycleSnapshot_toValue (hcycles.sound c hc)).mp ha).1.symm
    exact (List.forall₂_eq_eq_eq ▸ hequal).symm
  rw [hentries, hsame]
  rfl

/-! ## The active files -/

/-- The journals of the active files that are not of archived cycles. -/
def journals (sha256 : Bytes → Bytes) (archived : List Text) (files : List (Text × Text)) :
    List CycleSnapshot :=
  files.filterMap fun e =>
    if e.1 ∈ archived then none else (parseActiveCycle sha256 e.2).toOption

/-- **Files that were written are read back, within the limit on their bytes.** -/
theorem readActiveFiles_eq_ok {archived : List Text} {files : List (Text × Text)}
    (hfiles : ∀ e ∈ files, ∃ c : CycleSnapshot, c.Sound sha256 ∧ c.cycleId = e.1 ∧
      serializeActiveCycle sha256 c = .ok e.2) :
    ∀ {cycles : List CycleSnapshot} {directory : Record Text} {result : List CycleSnapshot},
      (readActiveFiles sha256 archived files cycles directory).1 = .ok result ↔
        (∀ e ∈ files, byteLength e.2 ≤ maximumCycleFileBytes) ∧
        result = cycles ++ journals sha256 archived files := by
  induction files with
  | nil =>
    intro cycles directory result
    simp [readActiveFiles, journals, eq_comm]
  | cons file files ih =>
    intro cycles directory result
    obtain ⟨name, t⟩ := file
    rw [List.forall_mem_cons] at hfiles
    obtain ⟨⟨c, hsound, hname, ht⟩, hrest⟩ := hfiles
    have hparse := parseActiveCycle_serialize hsound ht
    have hsorted : c.sorted.cycleId = name := hname
    rw [readActiveFiles, List.forall_mem_cons]
    by_cases hsize : byteLength t ≤ maximumCycleFileBytes
    · have hread : readActiveFile sha256 name t = .ok c.sorted :=
        readActiveFile_eq_ok.mpr ⟨hsize, hparse, hsorted⟩
      simp only [hread, hsorted, hsize, true_and]
      by_cases harchived : name ∈ archived
      · have hskip : journals sha256 archived ((name, t) :: files)
            = journals sha256 archived files := by
          simp [journals, harchived]
        rw [if_pos harchived, ih hrest, hskip]
      · have hkeep : journals sha256 archived ((name, t) :: files)
            = c.sorted :: journals sha256 archived files := by
          simp [journals, harchived, hparse, Except.toOption]
        rw [if_neg harchived, ih hrest, hkeep, List.append_assoc]
        rfl
    · have hread : ∃ e, readActiveFile sha256 name t = .error e := by
        cases hcase : readActiveFile sha256 name t with
        | error e => exact ⟨e, rfl⟩
        | ok cycle => exact absurd (readActiveFile_eq_ok.mp hcase).1 hsize
      obtain ⟨e, he⟩ := hread
      simp [he, hsize]

theorem encodable_sortKeys {v : Value} : Encodable v.sortKeys ↔ Encodable v := by
  rw [Encodable, canonicalJsonUnchecked_sortKeys, Encodable]

theorem encodable_sorted {c : CycleSnapshot} : Encodable c.sorted.toValue ↔ Encodable c.toValue := by
  simp only [CycleSnapshot.toValue, CycleSnapshot.sorted, Encodable.object, List.forall_mem_cons,
    Encodable.array, List.forall_mem_map, encodable_sortKeys]

/-- What the file of a cycle gives. -/
theorem activeFile_loaded {e : Text × Text} (h : ∃ c : CycleSnapshot, c.Sound sha256 ∧
      c.cycleId = e.1 ∧ serializeActiveCycle sha256 c = .ok e.2) :
    ∃ c, parseActiveCycle sha256 e.2 = .ok c ∧ c.Sound sha256 ∧ c.cycleId = e.1 ∧
      isIdentifier c.cycleId ∧ c.entries.length ≤ RECOVERY_LIMITS.journalEvents ∧
      Encodable c.toValue := by
  obtain ⟨c, hsound, hname, ht⟩ := h
  obtain ⟨hid, hcount, hfile⟩ := (serializeActiveCycle_eq_ok hsound).mp ht
  obtain ⟨u, hu, -⟩ := fileText_eq_ok.mp hfile
  have hencodable : Encodable c.toValue :=
    (Encodable.object.mp (canonicalJson_isOk.mp ⟨u, hu⟩).2).2 (text "cycle", _)
      (List.mem_cons_of_mem _ List.mem_cons_self)
  refine ⟨c.sorted, parseActiveCycle_serialize hsound ht, hsound.sorted, hname, hid, ?_,
    encodable_sorted.mpr hencodable⟩
  simpa [CycleSnapshot.sorted] using hcount

section Journals

variable {archived : List Text} {files : List (Text × Text)}
  (h : ∀ e ∈ files, ∃ c : CycleSnapshot, c.Sound sha256 ∧ c.cycleId = e.1 ∧
    serializeActiveCycle sha256 c = .ok e.2)

include h

theorem mem_journals {c : CycleSnapshot} : c ∈ journals sha256 archived files ↔
    ∃ t, (c.cycleId, t) ∈ files ∧ c.cycleId ∉ archived ∧ parseActiveCycle sha256 t = .ok c := by
  rw [journals, List.mem_filterMap]
  constructor
  · rintro ⟨⟨name, t⟩, he, hsome⟩
    by_cases harchived : name ∈ archived
    · simp [harchived] at hsome
    · obtain ⟨read, hread, -, hname, -⟩ := activeFile_loaded (h _ he)
      simp only [harchived, if_false, hread, Except.toOption, Option.some.injEq] at hsome
      rw [hsome] at hname hread
      exact ⟨t, hname ▸ he, hname ▸ harchived, hread⟩
  · rintro ⟨t, he, harchived, hread⟩
    exact ⟨_, he, by simp [harchived, hread, Except.toOption]⟩

theorem journals_ids : (journals sha256 archived files).map CycleSnapshot.cycleId
    = (files.filter (·.1 ∉ archived)).map Prod.fst := by
  induction files with
  | nil => rfl
  | cons file files ih =>
    rw [List.forall_mem_cons] at h
    obtain ⟨read, hread, -, hname, -⟩ := activeFile_loaded h.1
    by_cases harchived : file.1 ∈ archived
    · simpa [journals, harchived] using ih h.2
    · simpa [journals, harchived, hread, Except.toOption, hname] using ih h.2

/-- The journals of an active directory can be loaded. -/
theorem journals_loadable (hdistinct : (files.map Prod.fst).Nodup) :
    Loadable sha256 (journals sha256 archived files) := by
  have hread : ∀ c ∈ journals sha256 archived files, c.Sound sha256 ∧ isIdentifier c.cycleId ∧
      c.entries.length ≤ RECOVERY_LIMITS.journalEvents ∧ Encodable c.toValue := by
    intro c hc
    obtain ⟨t, he, -, hparse⟩ := (mem_journals h).mp hc
    obtain ⟨read, hread, hsound, -, hid, hcount, hencodable⟩ := activeFile_loaded (h _ he)
    cases hread.symm.trans hparse
    exact ⟨hsound, hid, hcount, hencodable⟩
  refine ⟨?_, fun c hc => (hread c hc).1, fun c hc => (hread c hc).2.1,
    fun c hc => (hread c hc).2.2.1, fun c hc => (hread c hc).2.2.2⟩
  rw [journals_ids h]
  exact hdistinct.sublist (List.filter_sublist.map _)

end Journals

theorem Loadable.perm {cycles cycles' : List CycleSnapshot} (h : Loadable sha256 cycles)
    (hperm : cycles'.Perm cycles) : Loadable sha256 cycles' where
  distinct := (hperm.map _).nodup_iff.mpr h.distinct
  sound := fun c hc => h.sound c (hperm.mem_iff.mp hc)
  identifier := fun c hc => h.identifier c (hperm.mem_iff.mp hc)
  count := fun c hc => h.count c (hperm.mem_iff.mp hc)
  encodable := fun c hc => h.encodable c (hperm.mem_iff.mp hc)

end DurableCycleStore

/-! ## Opening -/

section Opening

variable (sha256 collation)

/-- The journals that an object opened on the directory takes. -/
def Disk.openJournals (d : Disk) : List CycleSnapshot :=
  collation.sortBy CycleSnapshot.cycleId (DurableCycleStore.journals sha256
    (DurableIndex.stored collation d.index).archivedCycleIds d.active.entries)

/-- What an object has taken from the directory. -/
structure Opened (d : Disk) (s : DurableCycleStore) (d' : Disk) : Prop where
  index : s.index = DurableIndex.stored collation d.index
  hot : s.hot.cycles.entries = (d.openJournals sha256 collation).map fun c => (c.cycleId, c)
  archive : d'.archive = d.archive

variable {sha256 collation}

theorem loadIndex_eq_ok {w : StoreWorld} (h : StoreWorld.IndexOk collation w.disk.index)
    {index : DurableIndex} : DurableIndex.loadIndex collation w.disk.index = .ok index ↔
      index = w.index collation ∧ ∀ t, w.disk.index = some t → byteLength t ≤ maximumIndexBytes := by
  constructor
  · intro hload
    refine ⟨StoreWorld.index_loaded h hload, fun t ht => ?_⟩
    rw [ht, DurableIndex.loadIndex, bind_eq_ok] at hload
    obtain ⟨_, hsize, -⟩ := hload
    exact not_lt.mp (revertIf_eq_ok.mp hsize)
  · rintro ⟨rfl, hsize⟩
    rcases h with hnone | ⟨written, hsound, t, ht, hfile⟩
    · rw [StoreWorld.index, hnone]
      rfl
    · rw [StoreWorld.index, hfile, DurableIndex.stored_written collation hsound ht]
      exact DurableIndex.loadIndex_serializeIndex collation hsound ht (hsize t hfile)

theorem open_iff {identity : Nat} {d d' : Disk} {s : DurableCycleStore} :
    DurableCycleStore.open sha256 collation identity d = (.ok s, d') ↔ ∃ index cycles active hot,
      DurableIndex.loadIndex collation d.index = .ok index ∧
      DurableCycleStore.readActiveFiles sha256 index.archivedCycleIds d.active.entries [] d.active
        = (.ok cycles, active) ∧
      DurableCycleStore.buildHot sha256 index (collation.sortBy CycleSnapshot.cycleId cycles)
        = .ok hot ∧
      s = { identity, generation := 0, hot, index
            activeCycleIds := (collation.sortBy CycleSnapshot.cycleId cycles).map
              CycleSnapshot.cycleId } ∧
      d' = { d with active } := by
  unfold DurableCycleStore.open DurableCycleStore.loadActiveCycles
  constructor
  · intro hopen
    cases hload : DurableIndex.loadIndex collation d.index with
    | error e => simp [hload] at hopen
    | ok index =>
      rcases hread : DurableCycleStore.readActiveFiles sha256 index.archivedCycleIds
        d.active.entries [] d.active with ⟨result, active⟩
      cases result with
      | error e => simp [hload, hread, Except.map] at hopen
      | ok cycles =>
        cases hhot : DurableCycleStore.buildHot sha256 index
          (collation.sortBy CycleSnapshot.cycleId cycles) with
        | error e => simp [hload, hread, hhot, Except.map] at hopen
        | ok hot =>
          simp only [hload, hread, hhot, Except.map, Prod.mk.injEq, Except.ok.injEq] at hopen
          exact ⟨index, cycles, active, hot, rfl, hread, hhot, hopen.1.symm, hopen.2.symm⟩
  · rintro ⟨index, cycles, active, hot, hload, hread, hhot, rfl, rfl⟩
    simp only [hload, hread, Except.map, hhot]

theorem openJournals_loadable {w : StoreWorld} (h : w.Sound sha256 collation) :
    DurableCycleStore.Loadable sha256 (w.disk.openJournals sha256 collation) :=
  (DurableCycleStore.journals_loadable h.disk.active w.disk.active.distinct).perm
    (collation.sortBy_perm _ _)

theorem opened {w : StoreWorld} (h : w.Sound sha256 collation) {identity : Nat}
    {s : DurableCycleStore} {d : Disk}
    (hopen : DurableCycleStore.open sha256 collation identity w.disk = (.ok s, d)) :
    Opened sha256 collation w.disk s d := by
  obtain ⟨index, cycles, active, hot, hload, hread, hhot, rfl, rfl⟩ := open_iff.mp hopen
  obtain ⟨rfl, -⟩ := (loadIndex_eq_ok h.index).mp hload
  have hcycles := congrArg Prod.fst hread
  obtain ⟨-, rfl⟩ := (DurableCycleStore.readActiveFiles_eq_ok h.disk.active).mp hcycles
  exact ⟨rfl, DurableCycleStore.buildHot_cycles (openJournals_loadable h) hhot, rfl⟩

end Opening

/-! ## What is shown of a cycle -/

/-- A journal as it is read: of an active cycle (empty, if there is none) or of one that is
archived. -/
inductive Shown where
  | active (entries : List Value)
  | archived (entries : List Value)

variable (sha256 collation) in
/-- What the files say of a cycle. -/
def Disk.shown (d : Disk) (cycleId : Text) : Shown :=
  if cycleId ∈ (DurableIndex.stored collation d.index).archivedCycleIds then
    .archived (d.archivedJournal sha256 cycleId)
  else .active (d.activeJournal sha256 cycleId)

namespace StoreWorld

/-- Every cycle that is listed as archived has its archive file. -/
def ArchivesKept (collation : Collation) (w : StoreWorld) : Prop :=
  ∀ cycleId, Listed collation w.disk.index cycleId → ∃ t, w.disk.archive.find cycleId = some t

theorem ArchivesKept.step {w : StoreWorld} (hsound : w.Sound sha256 collation)
    (h : w.ArchivesKept collation) (a : Action) :
    (w.step sha256 collation a).1.ArchivesKept collation := by
  intro cycleId hlisted
  rcases (listed_step hsound a cycleId).2 hlisted with hold | ⟨hwrite, s, t, hseals⟩
  · rcases archive_step hsound a cycleId with hsame | ⟨s, t, -, -, hfile⟩
    · rw [hsame]
      exact h cycleId hold
    · exact ⟨t, hfile⟩
  · exact ⟨t, hseals.file (by rw [hwrite]; decide)⟩

/-- The action when nothing goes wrong with the files. -/
def Action.completed : Action → Action
  | .open => .open
  | .commit i t _ => .commit i t {}
  | .archiveCycle i cycleId now _ => .archiveCycle i cycleId now {}
  | .reserveGlobalKey i key value _ => .reserveGlobalKey i key value {}
  | .readGlobalKey i key => .readGlobalKey i key
  | .releaseGlobalKey i key value _ => .releaseGlobalKey i key value {}

/-- An archive that listed a cycle lists it when nothing goes wrong. -/
theorem Seals.completed {w : StoreWorld} (hsound : w.Sound sha256 collation) {a : Action}
    {cycleId : Text} {s : DurableCycleStore} {t : Text} (h : Seals sha256 collation w a cycleId s t)
    (hlisted : Listed collation (w.step sha256 collation a).1.disk.index cycleId) :
    Seals sha256 collation w a.completed cycleId s t ∧
      Listed collation (w.step sha256 collation a.completed).1.disk.index cycleId := by
  obtain ⟨i, now, f, rfl, hs, ht⟩ := h.action
  obtain ⟨loaded, hload, harchives⟩ := h.index
  have hseals : Seals sha256 collation w (.archiveCycle i cycleId now {}) cycleId s t :=
    ⟨⟨i, now, {}, rfl, hs, ht⟩, loaded, hload, harchives⟩
  refine ⟨hseals, ?_⟩
  -- the index was written, so it is encoded
  have hencoded : ∃ u, (loaded.withArchived collation cycleId).serializeIndex collation = .ok u := by
    have hnot := h.not_listed hsound
    rcases step_index sha256 collation w (.archiveCycle i cycleId now f) with
      ⟨index, hencodes, hfile⟩ | ⟨-, hfile⟩
    · cases hencodes with
      | archiveCycle _ hload' _ _ _ =>
        cases hload'.symm.trans hload
        cases hserialize : (loaded.withArchived collation cycleId).serializeIndex collation with
        | ok u => exact ⟨u, rfl⟩
        | error e =>
          rw [hfile, DurableIndex.fileAfter, hserialize] at hlisted
          exact absurd hlisted hnot
    · rw [hfile] at hlisted
      exact absurd hlisted hnot
  obtain ⟨u, hu⟩ := hencoded
  have hencodes : w.Encodes sha256 collation (.archiveCycle i cycleId now {})
      (loaded.withArchived collation cycleId) := .archiveCycle hs hload harchives ht rfl
  show Listed collation (w.step sha256 collation (.archiveCycle i cycleId now {})).1.disk.index cycleId
  rcases step_index sha256 collation w (.archiveCycle i cycleId now {}) with
    ⟨index, hencodes', hfile⟩ | ⟨hnone, -⟩
  · cases hencodes.unique hencodes'
    refine ⟨_, hencodes.sound hsound.index, (collation.sortBy_perm id _).mem_iff.mpr (by simp),
      u, hu, ?_⟩
    rw [hfile, DurableIndex.fileAfter, hu]
    rfl
  · exact absurd hencodes (hnone _)

end StoreWorld

end Hookemon.Runner
