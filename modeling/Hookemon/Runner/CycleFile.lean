import Hookemon.Runner.DurableStore

/-! # The file of a cycle

What the active file and the archive file of a cycle say about the journal that was
written to them. The entries come back in their order, each with its keys in order, and
they are accepted again: nothing that the journal checks depends on the order of keys.
-/

namespace Hookemon.Runner

open Hookemon.Core Hookemon.Js

/-! ## Entries with their keys in order -/

theorem strictEquals_sortKeys (v w : Value) : v.sortKeys.strictEquals w = v.strictEquals w := by
  cases v with
  | array vs =>
    rw [sortKeys_array]
    cases w <;> rfl
  | object fs =>
    rw [sortKeys_object]
    cases w <;> rfl
  | _ => rfl

theorem isString_sortKeys (pattern : Text → Bool) (v : Value) :
    isString pattern v.sortKeys = isString pattern v := by
  cases v with
  | array vs =>
    rw [sortKeys_array]
    rfl
  | object fs =>
    rw [sortKeys_object]
    rfl
  | _ => rfl

/-- The properties of a sorted object. -/
def sortedFields (fs : Fields) : Fields :=
  (fs.insertionSort keyLe).map fun f => (f.1, f.2.sortKeys)

theorem sortedFields_keys (fs : Fields) :
    ((sortedFields fs).map Prod.fst).Perm (fs.map Prod.fst) := by
  rw [sortedFields, List.map_map]
  exact (List.perm_insertionSort keyLe fs).map Prod.fst

theorem getField_sortedFields {fs : Fields} (h : (Value.object fs).distinctKeys) (key : Text) :
    getField (sortedFields fs) key = (getField fs key).sortKeys := by
  have hget := Value.get_sortKeys h key
  rwa [sortKeys_object] at hget

theorem hasFields_of_perm {fs gs : Fields} {fields : List Text}
    (h : (gs.map Prod.fst).Perm (fs.map Prod.fst)) (hfields : fs.map Prod.fst = fields) :
    HasFields gs fields := by
  rw [hfields] at h
  exact ⟨by rw [← h.length_eq, List.length_map], fun _ hfield => h.mem_iff.mpr hfield⟩

/-- A sorted object has the same keys, and under each the sorted property. -/
theorem sorted_object {fs : Fields} (h : (Value.object fs).distinctKeys) :
    ∃ gs, (Value.object fs).sortKeys = .object gs ∧ (gs.map Prod.fst).Perm (fs.map Prod.fst) ∧
      ∀ key, getField gs key = (getField fs key).sortKeys :=
  ⟨sortedFields fs, sortKeys_object fs, sortedFields_keys fs, getField_sortedFields h⟩

theorem lookup_sortedFields {fs : Fields} {key : Text} :
    (sortedFields fs).lookup key = none ↔ fs.lookup key = none := by
  have hkeys : ∀ gs : Fields, gs.lookup key = none ↔ key ∉ gs.map Prod.fst := by
    intro gs
    rw [List.lookup_eq_none_iff, List.mem_map]
    constructor
    · rintro h ⟨entry, hentry, heq⟩
      have hne := h entry hentry
      simp [heq] at hne
    · intro h entry hentry
      have hne : key ≠ entry.1 := fun heq => h ⟨entry, hentry, heq.symm⟩
      simpa using hne
  rw [hkeys, hkeys, (sortedFields_keys fs).mem_iff]

theorem assertCanonicalFields_sorted (fs : Fields) :
    assertCanonicalFields (sortedFields fs) = assertCanonicalFields fs := by
  have hperm : (fs.insertionSort keyLe).Perm fs := List.perm_insertionSort keyLe fs
  have hsame : (∃ f ∈ sortedFields fs, f.1 ∈ forbiddenKeys) ↔ ∃ f ∈ fs, f.1 ∈ forbiddenKeys := by
    simp only [sortedFields, List.mem_map, hperm.mem_iff, exists_exists_and_eq_and]
  simp only [assertCanonicalFields, throwIf, revertIf, hsame]

theorem assertCanonicalObject_sorted (v : Value) :
    assertCanonicalObject v.sortKeys = assertCanonicalObject v := by
  cases v with
  | array vs => rw [sortKeys_array]; rfl
  | object fs =>
    rw [sortKeys_object]
    exact assertCanonicalFields_sorted fs
  | _ => rfl

/-- What is digested for a sorted entry is the same data. -/
theorem unsigned_sorted {fs : Fields} (h : (Value.object fs).distinctKeys) :
    (Value.object (unsigned (sortedFields fs))).sortKeys = (Value.object (unsigned fs)).sortKeys := by
  have hperm : (fs.insertionSort keyLe).Perm fs := List.perm_insertionSort keyLe fs
  have hunsigned : (unsigned (sortedFields fs)).Perm
      ((unsigned fs).map fun f => (f.1, f.2.sortKeys)) := by
    have hfilter : unsigned (sortedFields fs)
        = (unsigned (fs.insertionSort keyLe)).map fun f => (f.1, f.2.sortKeys) := by
      rw [unsigned, sortedFields, List.filter_map]
      rfl
    rw [hfilter]
    exact (hperm.filter _).map _
  have hnodup : ((unsigned (sortedFields fs)).map Prod.fst).Nodup := by
    have hall := (sortedFields_keys fs).nodup_iff.mpr (distinctKeys_object.mp h).1
    exact hall.sublist (List.filter_sublist.map Prod.fst)
  rw [sortKeys_of_perm hnodup hunsigned, sortKeys_object, sortKeys_object, insertionSort_map,
    List.map_map]
  congr 1
  exact List.map_congr_left fun f _ => by simp [sortKeys_sortKeys]

variable {sha256 : Bytes → Bytes}

theorem assertBoundedCanonicalValue_sorted (label : String) (m : Maximums) (v : Value) (u : Unit) :
    assertBoundedCanonicalValue label m v.sortKeys = .ok u ↔
      assertBoundedCanonicalValue label m v = .ok u := by
  rw [assertBoundedCanonicalValue_eq_ok, assertBoundedCanonicalValue_eq_ok, bounded_sortKeys]

/-- **An entry is accepted with its keys in any order.** -/
theorem assertJournalEntry_sorted {entry : Value} (h : entry.distinctKeys) {cycleId : Text}
    {index : Nat} {previousDigest : Value} {u : Unit} :
    assertJournalEntry sha256 entry.sortKeys cycleId index previousDigest = .ok u ↔
      assertJournalEntry sha256 entry cycleId index previousDigest = .ok u := by
  cases entry with
  | object fs =>
    have hkeys := sortedFields_keys fs
    have hlength : (sortedFields fs).length = fs.length := by
      simpa using hkeys.length_eq
    have hexact : ((sortedFields fs).length ≠ entryFields.length ∨
        ∃ field ∈ entryFields, field ∉ (sortedFields fs).map Prod.fst) ↔
        (fs.length ≠ entryFields.length ∨ ∃ field ∈ entryFields, field ∉ fs.map Prod.fst) := by
      simp only [hlength, hkeys.mem_iff]
    have hdigest : ∀ d, digest sha256 (.object (unsigned (sortedFields fs))) = .ok d ↔
        digest sha256 (.object (unsigned fs)) = .ok d := by
      intro d
      rw [← digest_sorted, unsigned_sorted h, digest_sorted]
    rw [sortKeys_object]
    show assertJournalFields sha256 (sortedFields fs) cycleId index previousDigest = _ ↔
      assertJournalFields sha256 fs cycleId index previousDigest = _
    simp only [assertJournalFields, bind_eq_ok, revertIf_eq_ok, lookup_sortedFields,
      getField_sortedFields h, assertBoundedCanonicalValue_sorted, assertCanonicalFields_sorted,
      hexact, strictEquals_sortKeys, isString_sortKeys, assertCanonicalObject_sorted, hdigest]
  | array vs =>
    rw [sortKeys_array]
    rfl
  | _ => rfl

theorem assertEntries_sorted {entries : List Value} (h : ∀ e ∈ entries, e.distinctKeys)
    {cycleId : Text} {u : Unit} : ∀ {index : Nat} {previousDigest : Value},
      assertEntries sha256 cycleId (entries.map Value.sortKeys) index previousDigest = .ok u ↔
        assertEntries sha256 cycleId entries index previousDigest = .ok u := by
  induction entries with
  | nil => exact Iff.rfl
  | cons e entries ih =>
    intro index previousDigest
    rw [List.forall_mem_cons] at h
    rw [List.map_cons, assertEntries, assertEntries, bind_eq_ok, bind_eq_ok]
    have hentry : ∀ v : Unit,
        assertJournalEntry sha256 e.sortKeys cycleId index previousDigest = .ok v ↔
          assertJournalEntry sha256 e cycleId index previousDigest = .ok v :=
      fun v => assertJournalEntry_sorted h.1
    simp only [hentry]
    refine exists_congr fun v => and_congr_right fun haccepted => ?_
    -- the digest of an accepted entry is a string
    obtain ⟨-, d, -, -, hdigest⟩ := (assertJournalEntry_ok haccepted).digested
    have hsorted : e.sortKeys.get (text "digest") = e.get (text "digest") := by
      rw [Value.get_sortKeys h.1, hdigest]
      rfl
    rw [hsorted]
    exact ih h.2

theorem headOf_sorted {cycleId : Text} {entries : List Value} (h : ∀ e ∈ entries, e.distinctKeys)
    (hchained : assertEntries sha256 cycleId entries 0 .null = .ok ()) :
    headOf (entries.map Value.sortKeys) = headOf entries := by
  rcases List.eq_nil_or_concat entries with rfl | ⟨front, last, rfl⟩
  · rfl
  · rw [List.concat_eq_append] at h hchained ⊢
    obtain ⟨-, hlast⟩ := assertEntries_snoc.mp hchained
    obtain ⟨-, d, -, -, hdigest⟩ := (assertJournalEntry_ok hlast).digested
    have hdistinct : last.distinctKeys := h last (by simp)
    have hsorted : last.sortKeys.get (text "digest") = last.get (text "digest") := by
      rw [Value.get_sortKeys hdistinct, hdigest]
      rfl
    simpa [headOf] using hsorted

/-! ## Sound journals -/

variable (sha256) in
/-- What holds of a journal in every store. -/
structure CycleSnapshot.Sound (c : CycleSnapshot) : Prop where
  version : c.version = c.entries.length
  head : c.journalHead = headOf c.entries
  chained : assertEntries sha256 c.cycleId c.entries 0 .null = .ok ()
  data : ∀ e ∈ c.entries, e.distinctKeys

/-- The journal as a file gives it. -/
def CycleSnapshot.sorted (c : CycleSnapshot) : CycleSnapshot :=
  { c with entries := c.entries.map Value.sortKeys }

theorem CycleSnapshot.fresh_sound (cycleId : Text) : (CycleSnapshot.fresh cycleId).Sound sha256 where
  version := rfl
  head := rfl
  chained := rfl
  data := by simp [fresh]

theorem CycleSnapshot.Sound.sorted {c : CycleSnapshot} (h : c.Sound sha256) :
    c.sorted.Sound sha256 where
  version := by simp [CycleSnapshot.sorted, h.version]
  head := by
    show c.journalHead = headOf (c.entries.map Value.sortKeys)
    rw [headOf_sorted h.data h.chained, h.head]
  chained := (assertEntries_sorted h.data).mpr h.chained
  data := by
    intro e he
    obtain ⟨f, hf, rfl⟩ := List.mem_map.mp he
    exact distinctKeys_sortKeys (h.data f hf)

theorem CycleSnapshot.Sound.toValue_distinct {c : CycleSnapshot} (h : c.Sound sha256) :
    c.toValue.distinctKeys := by
  have hnodup : CycleSnapshot.fields.Nodup := by decide
  refine distinctKeys_object.mpr ⟨hnodup, ?_⟩
  have hhead : c.journalHead.distinctKeys := by
    rw [h.head]
    rcases headOf_primitive h.chained with hnull | ⟨s, hs⟩
    · rw [hnull]
      rfl
    · rw [hs]
      rfl
  simp only [List.forall_mem_cons, List.not_mem_nil, false_imp_iff, implies_true, and_true]
  exact ⟨rfl, rfl, hhead, distinctKeys_array.mpr h.data⟩

/-! ## The check of a journal -/

/-- **What the check of a snapshot accepts.** -/
theorem assertCycleSnapshot_eq_ok {value : Value} {c : CycleSnapshot} :
    assertCycleSnapshot sha256 value = .ok c ↔ ∃ fs, value = .object fs ∧
      (∃ t, canonicalJson value = .ok t) ∧ HasFields fs CycleSnapshot.fields ∧
      getField fs (text "cycleId") = .string c.cycleId ∧ isIdentifier c.cycleId ∧
      countOf (getField fs (text "version")) = some c.version ∧
      getField fs (text "entries") = .array c.entries ∧
      c.entries.length ≤ RECOVERY_LIMITS.journalEvents ∧ c.version = c.entries.length ∧
      assertEntries sha256 c.cycleId c.entries 0 .null = .ok () ∧
      (getField fs (text "journalHead")).strictEquals (headOf c.entries) ∧
      c.journalHead = headOf c.entries := by
  simp only [assertCycleSnapshot, bind_eq_ok, revertIf_eq_ok, exactObject_eq_ok, CycleRecords.assertCycleId,
    assertPattern_eq_ok]
  constructor
  · rintro ⟨_, hcount, fs, ⟨rfl, hencoded, hfields⟩, cycleId, ⟨hcycle, hid⟩, hrest⟩
    have hget : (Value.object fs).get (text "entries") = getField fs (text "entries") := rfl
    rw [hget] at hcount
    cases hversion : countOf (getField fs (text "version")) with
    | none =>
      rw [hversion] at hrest
      cases hrest
    | some version =>
      rw [hversion] at hrest
      cases hentries : getField fs (text "entries") with
      | array entries =>
        rw [hentries] at hrest hcount
        simp only [bind_eq_ok, revertIf_eq_ok, pure_eq_ok, not_not] at hrest
        obtain ⟨_, hlength, _, hchained, _, hhead, rfl⟩ := hrest
        exact ⟨fs, rfl, hencoded, hfields, hcycle, hid, hversion, hentries, not_lt.mp hcount,
          hlength, hchained, hhead, rfl⟩
      | string s =>
        rw [hentries] at hrest
        simp only [bind_eq_ok] at hrest
        obtain ⟨_, -, ⟨⟩⟩ := hrest
      | _ =>
        rw [hentries] at hrest
        cases hrest
  · rintro ⟨fs, rfl, hencoded, hfields, hcycle, hid, hversion, hentries, hcount, hlength, hchained,
      hhead, hown⟩
    have hget : (Value.object fs).get (text "entries") = .array c.entries := hentries
    refine ⟨(), ?_, fs, ⟨rfl, hencoded, hfields⟩, c.cycleId, ⟨hcycle, hid⟩, ?_⟩
    · rw [hget]
      exact not_lt.mpr hcount
    · rw [hversion, hentries]
      simp only [bind_eq_ok, revertIf_eq_ok, pure_eq_ok, not_not]
      refine ⟨(), hlength, (), hchained, (), hhead, ?_⟩
      rw [← hown]

/-- A snapshot that the check accepts is sound. -/
theorem assertCycleSnapshot_sound {value : Value} (hvalue : value.distinctKeys) {c : CycleSnapshot}
    (h : assertCycleSnapshot sha256 value = .ok c) :
    c.Sound sha256 ∧ isIdentifier c.cycleId ∧ c.entries.length ≤ RECOVERY_LIMITS.journalEvents := by
  obtain ⟨fs, rfl, -, -, -, hid, -, hentries, hcount, hlength, hchained, -, hhead⟩ :=
    assertCycleSnapshot_eq_ok.mp h
  refine ⟨⟨hlength, hhead, hchained, ?_⟩, hid, hcount⟩
  have hget : (Value.object fs).get (text "entries") = .array c.entries := hentries
  have hlookup : ∃ v, (text "entries", v) ∈ fs ∧ v = .array c.entries := by
    rw [getField] at hentries
    cases hfind : fs.lookup (text "entries") with
    | none =>
      rw [hfind] at hentries
      cases hentries
    | some v =>
      rw [hfind] at hentries
      exact ⟨v, (lookup_iff_mem (distinctKeys_object.mp hvalue).1).mp hfind, hentries⟩
  obtain ⟨v, hmem, rfl⟩ := hlookup
  exact distinctKeys_array.mp ((distinctKeys_object.mp hvalue).2 _ hmem)

/-- A sound snapshot is checked to be itself. -/
theorem assertCycleSnapshot_toValue {c : CycleSnapshot} (h : c.Sound sha256) {r : CycleSnapshot} :
    assertCycleSnapshot sha256 c.toValue = .ok r ↔ r = c ∧ isIdentifier c.cycleId ∧
      c.entries.length ≤ RECOVERY_LIMITS.journalEvents ∧ ∃ t, canonicalJson c.toValue = .ok t := by
  have hfields : HasFields [(text "cycleId", .string c.cycleId),
      (text "version", .number (.ofNat c.version)), (text "journalHead", c.journalHead),
      (text "entries", .array c.entries)] CycleSnapshot.fields :=
    ⟨rfl, fun field hfield => hfield⟩
  have hhead : c.journalHead.strictEquals (headOf c.entries) := by
    rw [h.head]
    rcases headOf_primitive h.chained with hnull | ⟨s, hs⟩
    · rw [hnull]
      rfl
    · rw [hs]
      simp [Value.strictEquals]
  rw [assertCycleSnapshot_eq_ok]
  constructor
  · rintro ⟨fs, hfs, hencoded, -, hcycle, hid, hversion, hentries, hcount, hlength, -, -, hown⟩
    cases hfs
    have hcycle' : c.cycleId = r.cycleId := Value.string.inj hcycle
    have hentries' : c.entries = r.entries := Value.array.inj hentries
    have hsame : r = c := by
      cases r
      cases c
      simp only at hcycle' hentries' hlength hown
      have hv := h.version
      have hh := h.head
      simp_all
    rw [hsame] at hid hcount
    exact ⟨hsame, hid, hcount, hencoded⟩
  · rintro ⟨rfl, hid, hcount, hencoded⟩
    have hdouble : IsDouble r.version := by
      refine isDouble_small ?_
      rw [h.version]
      exact lt_of_le_of_lt hcount (by decide)
    exact ⟨_, rfl, hencoded, hfields, rfl, hid, DurableIndex.countOf_ofNat hdouble, rfl, hcount, h.version,
      h.chained, hhead, h.head⟩

/-! ## Files -/

theorem activeCycleValue_distinct {c : CycleSnapshot} (h : c.Sound sha256) :
    (activeCycleValue c).distinctKeys := by
  have hnodup : [text "schema", text "cycle"].Nodup := by decide
  refine distinctKeys_object.mpr ⟨hnodup, ?_⟩
  simp only [List.forall_mem_cons, List.not_mem_nil, false_imp_iff, implies_true, and_true]
  exact ⟨rfl, h.toValue_distinct⟩

theorem archivedCycleValue_distinct {c : CycleSnapshot} (h : c.Sound sha256) (archivedAt : Text) :
    (archivedCycleValue c archivedAt).distinctKeys := by
  have hnodup : [text "schema", text "archivedAt", text "cycle"].Nodup := by decide
  refine distinctKeys_object.mpr ⟨hnodup, ?_⟩
  simp only [List.forall_mem_cons, List.not_mem_nil, false_imp_iff, implies_true, and_true]
  exact ⟨rfl, rfl, h.toValue_distinct⟩

/-- A snapshot in a file is checked to be the journal with the keys of its entries in order. -/
theorem assertCycleSnapshot_sorted {c : CycleSnapshot} (h : c.Sound sha256)
    (hid : isIdentifier c.cycleId) (hcount : c.entries.length ≤ RECOVERY_LIMITS.journalEvents)
    (hencoded : ∃ t, canonicalJson c.toValue = .ok t) :
    assertCycleSnapshot sha256 c.toValue.sortKeys = .ok c.sorted := by
  obtain ⟨t, ht⟩ := hencoded
  obtain ⟨fs, hfs, hkeys, hget⟩ := sorted_object h.toValue_distinct
  have hdouble : IsDouble c.version := by
    refine isDouble_small ?_
    rw [h.version]
    exact lt_of_le_of_lt hcount (by decide)
  have hhead : c.journalHead = .null ∨ ∃ s, c.journalHead = .string s := by
    rw [h.head]
    exact headOf_primitive h.chained
  have hsorted := h.sorted
  have hentries : getField fs (text "entries") = .array c.sorted.entries := by
    rw [hget]
    exact sortKeys_array c.entries
  refine assertCycleSnapshot_eq_ok.mpr ⟨fs, hfs, ⟨t, canonicalJson_sorted.mpr ht⟩,
    hasFields_of_perm hkeys rfl, hget _, hid, ?_,
    hentries, ?_, hsorted.version, hsorted.chained, ?_, hsorted.head⟩
  · rw [hget]
    exact DurableIndex.countOf_ofNat hdouble
  · simpa [CycleSnapshot.sorted] using hcount
  · rw [hget, ← hsorted.head, strictEquals_sortKeys]
    show c.journalHead.strictEquals c.journalHead
    rcases hhead with hnull | ⟨s, hs⟩
    · rw [hnull]
      rfl
    · rw [hs]
      simp [Value.strictEquals]

/-- What can be written of a sound journal. -/
theorem serializeActiveCycle_eq_ok {c : CycleSnapshot} (h : c.Sound sha256) {t : Text} :
    serializeActiveCycle sha256 c = .ok t ↔ isIdentifier c.cycleId ∧
      c.entries.length ≤ RECOVERY_LIMITS.journalEvents ∧ fileText (activeCycleValue c) = .ok t := by
  simp only [serializeActiveCycle, bind_eq_ok, assertCycleSnapshot_toValue h]
  constructor
  · rintro ⟨_, ⟨rfl, hid, hcount, -⟩, ht⟩
    exact ⟨hid, hcount, ht⟩
  · rintro ⟨hid, hcount, ht⟩
    obtain ⟨u, hu, -⟩ := fileText_eq_ok.mp ht
    have hpart := canonicalJson_field (f := (text "cycle", c.toValue)) (by simp) ⟨u, hu⟩
    exact ⟨c, ⟨rfl, hid, hcount, hpart⟩, ht⟩

theorem exactRow_eq_ok {value : Value} {fields : List Text} {label : String} {fs : Fields} :
    DurableIndex.exactRow value fields label = .ok fs ↔
      value = .object fs ∧ (∃ t, canonicalJson value = .ok t) ∧ HasFields fs fields := by
  cases value with
  | object gs =>
    simp only [DurableIndex.exactRow, bind_eq_ok, revertIf_eq_ok, pure_eq_ok, not_or, not_not, not_exists, not_and]
    constructor
    · rintro ⟨t, ht, _, ⟨hcount, hpresent⟩, rfl⟩
      exact ⟨rfl, ⟨t, ht⟩, hcount, hpresent⟩
    · rintro ⟨hsame, ⟨t, ht⟩, hcount, hpresent⟩
      cases hsame
      exact ⟨t, ht, (), ⟨hcount, hpresent⟩, rfl⟩
  | _ => simp [DurableIndex.exactRow, bind_eq_ok]

/-- A file that was written is parsed. -/
theorem parseFile_written {v : Value} (hv : v.distinctKeys) {t : Text} (h : fileText v = .ok t)
    (label : String) : parseFile t label = .ok v.sortKeys := by
  have hbytes : fileText v.sortKeys = .ok t := fileText_sorted.mpr h
  rw [parseFile, parse_fileText hv h]
  simp only [hbytes, ok_bind, ne_eq, not_true_eq_false, throwIf, revertIf_of_not not_false]
  rfl

/-- **The active file of a cycle gives its journal back.** -/
theorem parseActiveCycle_serialize {c : CycleSnapshot} (h : c.Sound sha256) {t : Text}
    (ht : serializeActiveCycle sha256 c = .ok t) : parseActiveCycle sha256 t = .ok c.sorted := by
  obtain ⟨hid, hcount, ht⟩ := (serializeActiveCycle_eq_ok h).mp ht
  have hdistinct := activeCycleValue_distinct h
  obtain ⟨fs, hfs, hkeys, hget⟩ := sorted_object hdistinct
  obtain ⟨u, hu, -⟩ := fileText_eq_ok.mp ht
  have hsnapshot := assertCycleSnapshot_sorted h hid hcount
    (canonicalJson_field (f := (text "cycle", c.toValue)) (by simp) ⟨u, hu⟩)
  have hschema : (getField fs (text "schema")).strictEquals (.string activeCycleSchema) = true := by
    rw [hget]
    simp [activeCycleSchema, getField, Value.strictEquals, Value.sortKeys]
  have hcycle : getField fs (text "cycle") = c.toValue.sortKeys := hget _
  simp only [parseActiveCycle, bind_eq_ok, exactRow_eq_ok, revertIf_eq_ok, not_not]
  refine ⟨_, parseFile_written hdistinct ht _, fs, ⟨hfs, ⟨u, canonicalJson_sorted.mpr hu⟩,
    hasFields_of_perm hkeys rfl⟩, (), hschema, ?_⟩
  rw [hcycle, hsnapshot]

/-- What can be written of a sound journal that is archived. -/
theorem serializeArchivedCycle_eq_ok {c : CycleSnapshot} (h : c.Sound sha256) {archivedAt t : Text} :
    serializeArchivedCycle sha256 c archivedAt = .ok t ↔ isIdentifier c.cycleId ∧
      c.entries.length ≤ RECOVERY_LIMITS.journalEvents ∧
      fileText (archivedCycleValue c archivedAt) = .ok t := by
  simp only [serializeArchivedCycle, bind_eq_ok, assertCycleSnapshot_toValue h]
  constructor
  · rintro ⟨_, ⟨rfl, hid, hcount, -⟩, ht⟩
    exact ⟨hid, hcount, ht⟩
  · rintro ⟨hid, hcount, ht⟩
    obtain ⟨u, hu, -⟩ := fileText_eq_ok.mp ht
    have hpart := canonicalJson_field (f := (text "cycle", c.toValue)) (by simp) ⟨u, hu⟩
    exact ⟨c, ⟨rfl, hid, hcount, hpart⟩, ht⟩

/-- **The archive file of a cycle gives its journal back.** -/
theorem parseArchivedCycle_serialize {c : CycleSnapshot} (h : c.Sound sha256) {t : Text}
    {now : Timestamp} (ht : serializeArchivedCycle sha256 c now.1 = .ok t) :
    parseArchivedCycle sha256 t = .ok (c.sorted, now.1) := by
  obtain ⟨hid, hcount, ht⟩ := (serializeArchivedCycle_eq_ok h).mp ht
  have hdistinct := archivedCycleValue_distinct h now.1
  obtain ⟨fs, hfs, hkeys, hget⟩ := sorted_object hdistinct
  obtain ⟨u, hu, -⟩ := fileText_eq_ok.mp ht
  have hsnapshot := assertCycleSnapshot_sorted h hid hcount
    (canonicalJson_field (f := (text "cycle", c.toValue)) (by simp) ⟨u, hu⟩)
  have hschema : (getField fs (text "schema")).strictEquals (.string archivedCycleSchema)
      = true := by
    rw [hget]
    simp [archivedCycleSchema, getField, Value.strictEquals, Value.sortKeys]
  have htime : getField fs (text "archivedAt") = .string now.1 := hget _
  have hcycle : getField fs (text "cycle") = c.toValue.sortKeys := hget _
  simp only [parseArchivedCycle, bind_eq_ok, exactRow_eq_ok, revertIf_eq_ok, not_not,
    assertPattern_eq_ok, pure_eq_ok]
  refine ⟨_, parseFile_written hdistinct ht _, fs, ⟨hfs, ⟨u, canonicalJson_sorted.mpr hu⟩,
    hasFields_of_perm hkeys rfl⟩, (), hschema, now.1, ⟨htime, now.2⟩, c.sorted, ?_, rfl⟩
  rw [hcycle, hsnapshot]

end Hookemon.Runner
