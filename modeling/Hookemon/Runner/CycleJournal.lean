import Hookemon.Runner.CanonicalJson

/-! # The cycle journal

A journal is a chain of entries: each holds the digest of the one before it, and its own
digest over all its other fields. The digest of the last entry is the head. When the
hash does not collide on the entries of two journals, equal heads mean equal entries.
-/

namespace Hookemon.Runner

open Hookemon.Core Hookemon.Js

/-! ## Entries -/

/-- `^[a-z][a-z0-9-]{1,63}$`. -/
def isKind (s : Text) : Bool :=
  match s with
  | [] => false
  | c :: cs =>
    isLower c && 1 ≤ cs.length && cs.length ≤ 63 &&
      cs.all fun c => isLower c || isDigit c || c = 45
where
  isLower (c : UInt16) : Bool := 97 ≤ c.toNat && c.toNat ≤ 122

/-- The bounds of a payload. -/
def payloadMaximums : Maximums where
  objects := RECOVERY_LIMITS.payloadObjects
  arrays := RECOVERY_LIMITS.payloadArrays
  arrayItems := RECOVERY_LIMITS.payloadArrayItems
  aggregateBytes := RECOVERY_LIMITS.payloadAggregateBytes

/-- The fields of an entry. -/
def entryFields : List Text :=
  [text "cycleId", text "index", text "kind", text "payload", text "previousDigest",
    text "digest"]

/-- `const { digest: entryDigest, ...unsigned } = entry;`. -/
def unsigned (fs : Fields) : Fields := fs.filter fun f => f.1 ≠ text "digest"

/-- Whether a value is a string that the pattern accepts. -/
def isString (pattern : Text → Bool) : Value → Bool
  | .string s => pattern s
  | _ => false

section Digest

variable (sha256 : Bytes → Bytes)

/-- `assertJournalEntry` of an object with these properties. -/
def assertJournalFields (fs : Fields) (cycleId : Text) (index : Nat) (previousDigest : Value) :
    Except String Unit := do
  throwIf (fs.lookup (text "payload") = none)
    "journal payload must be an own data property without an accessor"
  assertBoundedCanonicalValue "journal payload" payloadMaximums (getField fs (text "payload"))
  assertCanonicalFields fs
  throwIf (fs.length ≠ entryFields.length ∨ ∃ field ∈ entryFields, field ∉ fs.map Prod.fst)
    "journal event must use the exact schema"
  throwIf (¬ (getField fs (text "cycleId")).strictEquals (.string cycleId) ∨
      ¬ (getField fs (text "index")).strictEquals (.number (.ofNat index)) ∨
      ¬ (getField fs (text "previousDigest")).strictEquals previousDigest)
    "journal event predecessor is invalid"
  throwIf (¬ isString isKind (getField fs (text "kind"))) "journal event kind is invalid"
  assertCanonicalObject (getField fs (text "payload"))
  let expected ← digest sha256 (.object (unsigned fs))
  throwIf (¬ (getField fs (text "digest")).strictEquals (.string expected))
    "journal event digest is invalid"

/-- `assertJournalEntry`. -/
def assertJournalEntry (entry : Value) (cycleId : Text) (index : Nat) (previousDigest : Value) :
    Except String Unit :=
  match entry with
  | .object fs => assertJournalFields sha256 fs cycleId index previousDigest
  | _ => .error "journal payload must be an own data property without an accessor"

/-! ## Journals -/

structure CycleJournal where
  cycleId : Text
  entries : List Value
deriving DecidableEq

/-- `get head()`. -/
def headOf (entries : List Value) : Value :=
  match entries.getLast? with
  | some entry => entry.get (text "digest")
  | none => .null

def CycleJournal.head (j : CycleJournal) : Value := headOf j.entries

/-- The loop over the entries, each with the digest of the one before it. -/
def assertEntries (cycleId : Text) : List Value → Nat → Value → Except String Unit
  | [], _, _ => .ok ()
  | entry :: rest, index, previousDigest => do
    assertJournalEntry sha256 entry cycleId index previousDigest
    assertEntries cycleId rest (index + 1) (entry.get (text "digest"))

/-- `new CycleJournal(cycleId, entries)`. -/
def CycleJournal.new (cycleId : Text) (entries : List Value) : Except String CycleJournal := do
  throwIf (¬ isIdentifier cycleId) "cycleId is invalid"
  throwIf (RECOVERY_LIMITS.journalEvents < entries.length) "journal event count limit exceeded"
  assertEntries sha256 cycleId entries 0 .null
  return ⟨cycleId, entries⟩

/-- `propose`. -/
def CycleJournal.propose (j : CycleJournal) (kind payload : Value) : Except String Value := do
  assertBoundedCanonicalValue "journal payload" payloadMaximums payload
  let _ ← canonicalJson payload
  let fields : Fields := [(text "cycleId", .string j.cycleId),
    (text "index", .number (.ofNat j.entries.length)), (text "kind", kind),
    (text "payload", payload), (text "previousDigest", j.head)]
  let d ← digest sha256 (.object fields)
  let entry := Value.object (fields ++ [(text "digest", .string d)])
  assertJournalEntry sha256 entry j.cycleId j.entries.length j.head
  return entry

/-- `appendEvent`. The number of entries is not bounded here. -/
def CycleJournal.appendEvent (j : CycleJournal) (entry : Value) : Except String CycleJournal := do
  assertJournalEntry sha256 entry j.cycleId j.entries.length j.head
  return { j with entries := j.entries ++ [entry] }

/-- `append`. -/
def CycleJournal.append (j : CycleJournal) (kind payload : Value) :
    Except String CycleJournal := do
  let entry ← j.propose sha256 kind payload
  j.appendEvent sha256 entry

/-- `verify`. -/
def CycleJournal.verify (j : CycleJournal) : Bool :=
  (assertEntries sha256 j.cycleId j.entries 0 .null).isOk

/-! ## What an accepted entry is -/

variable {sha256}

/-- A string or nothing, as the digests and the cycle of an entry are. -/
theorem eq_of_strictEquals {v w : Value} (hw : w = .null ∨ ∃ s, w = .string s)
    (h : v.strictEquals w) : v = w := by
  rcases hw with rfl | ⟨s, rfl⟩
  · cases v <;> simp_all [Value.strictEquals]
  · cases v <;> simp_all [Value.strictEquals]

/-- The parts of an accepted entry that the chain rests on. -/
structure EntryOk (sha256 : Bytes → Bytes) (entry : Value) (cycleId : Text) (index : Nat)
    (previousDigest : Value) : Prop where
  cycle : (entry.get (text "cycleId")).strictEquals (.string cycleId)
  index : (entry.get (text "index")).strictEquals (.number (.ofNat index))
  previous : (entry.get (text "previousDigest")).strictEquals previousDigest
  kind : isString isKind (entry.get (text "kind"))
  digested : ∃ fs d, entry = .object fs ∧ digest sha256 (.object (unsigned fs)) = .ok d ∧
    entry.get (text "digest") = .string d

theorem assertJournalEntry_ok {entry : Value} {cycleId : Text} {index : Nat}
    {previousDigest : Value}
    (h : assertJournalEntry sha256 entry cycleId index previousDigest = .ok ()) :
    EntryOk sha256 entry cycleId index previousDigest := by
  cases entry with
  | object fs =>
    rw [assertJournalEntry, assertJournalFields] at h
    obtain ⟨-, -, h⟩ := bind_eq_ok.mp h
    obtain ⟨-, -, h⟩ := bind_eq_ok.mp h
    obtain ⟨-, -, h⟩ := bind_eq_ok.mp h
    obtain ⟨-, -, h⟩ := bind_eq_ok.mp h
    obtain ⟨_, hpredecessor, h⟩ := bind_eq_ok.mp h
    obtain ⟨_, hkind, h⟩ := bind_eq_ok.mp h
    obtain ⟨-, -, h⟩ := bind_eq_ok.mp h
    obtain ⟨d, hdigest, h⟩ := bind_eq_ok.mp h
    have hpredecessor := revertIf_eq_ok.mp hpredecessor
    have hown := revertIf_eq_ok.mp h
    simp only [not_or, not_not] at hpredecessor hown
    have hkind := revertIf_eq_ok.mp hkind
    rw [not_not] at hkind
    exact ⟨hpredecessor.1, hpredecessor.2.1, hpredecessor.2.2, hkind, fs, d, rfl, hdigest,
      eq_of_strictEquals (.inr ⟨d, rfl⟩) hown⟩
  | _ => cases h

/-- The last entry of an accepted list, after an accepted list. -/
theorem assertEntries_concat {cycleId : Text} {entries : List Value} {entry : Value} :
    ∀ {index : Nat} {previousDigest : Value},
      assertEntries sha256 cycleId (entries ++ [entry]) index previousDigest = .ok () ↔
        assertEntries sha256 cycleId entries index previousDigest = .ok () ∧
        assertJournalEntry sha256 entry cycleId (index + entries.length)
          (match entries.getLast? with
            | some last => last.get (text "digest")
            | none => previousDigest) = .ok () := by
  induction entries with
  | nil =>
    intro index previousDigest
    have hsingle : assertEntries sha256 cycleId [entry] index previousDigest = .ok () ↔
        assertJournalEntry sha256 entry cycleId index previousDigest = .ok () := by
      rw [assertEntries, bind_eq_ok]
      constructor
      · rintro ⟨_, hentry, -⟩
        exact hentry
      · intro hentry
        exact ⟨(), hentry, rfl⟩
    rw [List.nil_append, hsingle]
    constructor
    · intro hentry
      exact ⟨rfl, hentry⟩
    · rintro ⟨-, hentry⟩
      exact hentry
  | cons first rest ih =>
    intro index previousDigest
    have hlast : (match (first :: rest).getLast? with
        | some last => last.get (text "digest")
        | none => previousDigest) = (match rest.getLast? with
        | some last => last.get (text "digest")
        | none => first.get (text "digest")) := by
      rw [List.getLast?_cons]
      cases rest.getLast? <;> rfl
    have hlength : index + (first :: rest).length = index + 1 + rest.length := by
      simp only [List.length_cons]
      omega
    rw [hlast, hlength, List.cons_append, assertEntries, assertEntries, bind_eq_ok, bind_eq_ok]
    constructor
    · rintro ⟨u, hfirst, hrest⟩
      have hparts := ih.mp hrest
      exact ⟨⟨u, hfirst, hparts.1⟩, hparts.2⟩
    · rintro ⟨⟨u, hfirst, hrest⟩, hentry⟩
      exact ⟨u, hfirst, ih.mpr ⟨hrest, hentry⟩⟩

/-- An accepted list with one more entry is accepted exactly when that entry is, after the
head of the list. -/
theorem assertEntries_snoc {cycleId : Text} {entries : List Value} {entry : Value} :
    assertEntries sha256 cycleId (entries ++ [entry]) 0 .null = .ok () ↔
      assertEntries sha256 cycleId entries 0 .null = .ok () ∧
      assertJournalEntry sha256 entry cycleId entries.length (headOf entries) = .ok () := by
  have h := @assertEntries_concat sha256 cycleId entries entry 0 .null
  rwa [Nat.zero_add] at h

theorem new_ok {cycleId : Text} {entries : List Value} {j : CycleJournal}
    (h : CycleJournal.new sha256 cycleId entries = .ok j) :
    assertEntries sha256 cycleId entries 0 .null = .ok () ∧ j = ⟨cycleId, entries⟩ := by
  rw [CycleJournal.new] at h
  obtain ⟨-, -, h⟩ := bind_eq_ok.mp h
  obtain ⟨-, -, h⟩ := bind_eq_ok.mp h
  obtain ⟨_, hentries, h⟩ := bind_eq_ok.mp h
  exact ⟨hentries, (pure_eq_ok.mp h).symm⟩

/-- A journal that verifies still does after an entry is appended to it. -/
theorem appendEvent_verify {j k : CycleJournal} {entry : Value} (hj : j.verify sha256)
    (h : j.appendEvent sha256 entry = .ok k) : k.verify sha256 := by
  rw [CycleJournal.appendEvent] at h
  obtain ⟨_, hentry, h⟩ := bind_eq_ok.mp h
  cases h
  have hall : assertEntries sha256 j.cycleId j.entries 0 .null = .ok () := by
    unfold CycleJournal.verify at hj
    cases hresult : assertEntries sha256 j.cycleId j.entries 0 .null with
    | ok u => rfl
    | error e =>
      rw [hresult] at hj
      cases hj
  have hmore := assertEntries_snoc.mpr ⟨hall, hentry⟩
  rw [CycleJournal.verify, hmore]
  rfl

/-- The head of an accepted list is nothing or a string. -/
theorem headOf_primitive {cycleId : Text} {entries : List Value}
    (h : assertEntries sha256 cycleId entries 0 .null = .ok ()) :
    headOf entries = .null ∨ ∃ s, headOf entries = .string s := by
  rcases List.eq_nil_or_concat entries with rfl | ⟨front, last, rfl⟩
  · exact .inl rfl
  · rw [List.concat_eq_append] at h ⊢
    obtain ⟨-, hlast⟩ := assertEntries_snoc.mp h
    obtain ⟨-, d, -, -, hdigest⟩ := (assertJournalEntry_ok hlast).digested
    exact .inr ⟨d, by simp [headOf, hdigest]⟩

/-! ## The fields that are digested -/

theorem unsigned_get (fs : Fields) {key : Text} (h : key ≠ text "digest") :
    (Value.object (unsigned fs)).get key = (Value.object fs).get key := by
  have hlookup : (unsigned fs).lookup key = fs.lookup key := by
    induction fs with
    | nil => rfl
    | cons f fs ih =>
      obtain ⟨k, v⟩ := f
      by_cases hk : k = text "digest"
      · have hne : (key == k) = false := beq_eq_false_iff_ne.mpr (hk ▸ h)
        have hdrop : unsigned ((k, v) :: fs) = unsigned fs := by simp [unsigned, hk]
        rw [hdrop, ih, List.lookup_cons, hne]
      · have hkeep : unsigned ((k, v) :: fs) = (k, v) :: unsigned fs := by simp [unsigned, hk]
        rw [hkeep, List.lookup_cons, List.lookup_cons, ih]
  show (List.lookup _ _).getD _ = (List.lookup _ _).getD _
  rw [hlookup]

theorem unsigned_distinct {fs : Fields} (h : (Value.object fs).distinctKeys) :
    (Value.object (unsigned fs)).distinctKeys := by
  obtain ⟨hnodup, hvalues⟩ := distinctKeys_object.mp h
  refine distinctKeys_object.mpr ⟨?_, fun f hf => hvalues f (List.mem_filter.mp hf).1⟩
  exact hnodup.sublist (List.filter_sublist.map Prod.fst)

/-- Two entries hold the same. -/
structure SameEntry (e f : Value) : Prop where
  kind : e.get (text "kind") = f.get (text "kind")
  payload : SameData (e.get (text "payload")) (f.get (text "payload"))
  index : e.get (text "index") = f.get (text "index")
  previousDigest : e.get (text "previousDigest") = f.get (text "previousDigest")

/-- The bytes that are digested for the entries of a list. -/
def digestedEntries (entries : List Data) : Set Bytes :=
  { b | ∃ e ∈ entries, ∃ fs, e.1 = .object fs ∧ Digested (.object (unsigned fs)) b }

/-- Sorting changes nothing about a primitive. -/
theorem sortKeys_of_strictEquals {v w : Value} (h : v.strictEquals w) : v.sortKeys = v := by
  cases v <;> first
    | rfl
    | (cases w <;> cases h)

/-- Two accepted entries with one digest hold the same, and follow the same entry. -/
theorem sameEntry_of_digest {cycleId : Text} {i k : Nat} {p q : Value} {e f : Data} {s : Set Bytes}
    (hsha : Set.InjOn sha256 s) (hes : digestedEntries [e] ⊆ s) (hfs : digestedEntries [f] ⊆ s)
    (he : EntryOk sha256 e.1 cycleId i p) (hf : EntryOk sha256 f.1 cycleId k q)
    (hp : p = .null ∨ ∃ t, p = .string t) (hq : q = .null ∨ ∃ t, q = .string t)
    (h : e.1.get (text "digest") = f.1.get (text "digest")) : SameEntry e.1 f.1 ∧ p = q := by
  obtain ⟨es, d, hobject, hdigest, hown⟩ := he.digested
  obtain ⟨fs, d', hobject', hdigest', hown'⟩ := hf.digested
  have hdistinct : (Value.object (unsigned es)).distinctKeys :=
    unsigned_distinct (hobject ▸ e.2)
  have hdistinct' : (Value.object (unsigned fs)).distinctKeys :=
    unsigned_distinct (hobject' ▸ f.2)
  have hd : d' = d := by
    have hsame := hown.symm.trans (h.trans hown')
    cases hsame
    rfl
  rw [hd] at hdigest'
  have hsorted : (Value.object (unsigned es)).sortKeys = (Value.object (unsigned fs)).sortKeys :=
    digest_sortKeys hsha hdistinct hdistinct'
      (fun b hb => hes ⟨e, by simp, es, hobject, hb⟩)
      (fun b hb => hfs ⟨f, by simp, fs, hobject', hb⟩) hdigest hdigest'
  -- every digested field of one entry is that of the other, up to key order
  have hfield : ∀ key, key ≠ text "digest" →
      (e.1.get key).sortKeys = (f.1.get key).sortKeys := by
    intro key hkey
    have hkeys : (Value.object (unsigned es)).sortKeys.get key
        = (Value.object (unsigned fs)).sortKeys.get key := by rw [hsorted]
    rw [Value.get_sortKeys hdistinct, Value.get_sortKeys hdistinct', unsigned_get es hkey,
      unsigned_get fs hkey] at hkeys
    rwa [hobject, hobject']
  have hprevious := hfield (text "previousDigest") (by decide)
  rw [sortKeys_of_strictEquals he.previous, sortKeys_of_strictEquals hf.previous] at hprevious
  have hindex := hfield (text "index") (by decide)
  rw [sortKeys_of_strictEquals he.index, sortKeys_of_strictEquals hf.index] at hindex
  have hkind := hfield (text "kind") (by decide)
  have hstring : ∀ v : Value, isString isKind v → v.sortKeys = v := by
    intro v hv
    cases v <;> first
      | rfl
      | cases hv
  rw [hstring _ he.kind, hstring _ hf.kind] at hkind
  refine ⟨⟨hkind, sameData_of_sortKeys (hfield _ (by decide)), hindex, hprevious⟩, ?_⟩
  rw [← eq_of_strictEquals hp he.previous, ← eq_of_strictEquals hq hf.previous, hprevious]

/-- Accepted lists with one head hold the same entries. -/
theorem sameEntries_of_head {cycleId : Text} {s : Set Bytes} (hsha : Set.InjOn sha256 s)
    (es : List Data) : ∀ fs : List Data, digestedEntries es ⊆ s → digestedEntries fs ⊆ s →
      assertEntries sha256 cycleId (es.map Subtype.val) 0 .null = .ok () →
      assertEntries sha256 cycleId (fs.map Subtype.val) 0 .null = .ok () →
      headOf (es.map Subtype.val) = headOf (fs.map Subtype.val) →
      List.Forall₂ (fun e f => SameEntry e.1 f.1) es fs := by
  -- the head of a list that is not empty is a string
  have hnonempty : ∀ {entries : List Value} {entry : Value},
      assertEntries sha256 cycleId (entries ++ [entry]) 0 .null = .ok () →
      headOf (entries ++ [entry]) ≠ .null := by
    intro entries entry h
    obtain ⟨-, hlast⟩ := assertEntries_snoc.mp h
    obtain ⟨-, d, -, -, hdigest⟩ := (assertJournalEntry_ok hlast).digested
    simp [headOf, hdigest]
  induction es using List.reverseRecOn with
  | nil =>
    intro fs _ _ _ hf hhead
    rcases List.eq_nil_or_concat fs with rfl | ⟨front, f, rfl⟩
    · exact .nil
    · rw [List.concat_eq_append, List.map_append] at hf hhead
      exact absurd hhead.symm (hnonempty hf)
  | append_singleton es e ih =>
    intro fs hes hfs he hf hhead
    rcases List.eq_nil_or_concat fs with rfl | ⟨fs, f, rfl⟩
    · rw [List.map_append] at he hhead
      exact absurd hhead (hnonempty he)
    · rw [List.concat_eq_append] at hf hfs hhead ⊢
      rw [List.map_append, List.map_singleton] at he hf hhead
      obtain ⟨hes', hlast⟩ := assertEntries_snoc.mp he
      obtain ⟨hfs', hlast'⟩ := assertEntries_snoc.mp hf
      have hmono : ∀ {xs ys : List Data}, xs ⊆ ys → digestedEntries ys ⊆ s →
          digestedEntries xs ⊆ s := by
        intro xs ys hsub hys b hb
        obtain ⟨x, hx, hrest⟩ := hb
        exact hys ⟨x, hsub hx, hrest⟩
      have hdigests : e.1.get (text "digest") = f.1.get (text "digest") := by
        simpa [headOf] using hhead
      obtain ⟨hsame, hprevious⟩ := sameEntry_of_digest hsha
        (hmono (List.subset_append_right es [e]) hes)
        (hmono (List.subset_append_right fs [f]) hfs)
        (assertJournalEntry_ok hlast) (assertJournalEntry_ok hlast')
        (headOf_primitive hes') (headOf_primitive hfs') hdigests
      have hfront := ih fs (hmono (List.subset_append_left es [e]) hes)
        (hmono (List.subset_append_left fs [f]) hfs) hes' hfs' hprevious
      exact List.rel_append hfront (.cons hsame .nil)

end Digest

/-- Journals with one head are equal entry by entry, unless the hash collides on their entries;
canonical JSON determines the data; and parsing it gives the data back. -/
theorem journal_bound_by_head (sha256 : Bytes → Bytes) :
    (∀ (cycleId : Text) (es fs : List Data) (j k : CycleJournal),
      CycleJournal.new sha256 cycleId (es.map Subtype.val) = .ok j →
      CycleJournal.new sha256 cycleId (fs.map Subtype.val) = .ok k →
      Set.InjOn sha256 (digestedEntries es ∪ digestedEntries fs) →
      j.head = k.head → List.Forall₂ (fun e f => SameEntry e.1 f.1) es fs) ∧
    (∀ (v w : Data) (t : Text), canonicalJson v.1 = .ok t → canonicalJson w.1 = .ok t →
      SameData v.1 w.1) ∧
    (∀ (v : Data) (t : Text), canonicalJson v.1 = .ok t →
      ∃ u, parse t = some u ∧ SameData u v.1) := by
  refine ⟨?_, ?_, ?_⟩
  · intro cycleId es fs j k hj hk hsha hhead
    obtain ⟨hes, rfl⟩ := new_ok hj
    obtain ⟨hfs, rfl⟩ := new_ok hk
    exact sameEntries_of_head hsha es fs Set.subset_union_left Set.subset_union_right hes hfs hhead
  · intro v w t hv hw
    exact sameData_of_sortKeys (canonicalJson_sortKeys v.2 w.2 hv hw)
  · intro v t hv
    exact ⟨v.1.sortKeys, (canonicalJson_reads v.2 hv).parse_eq, (sameData_sortKeys v.1).symm⟩

/-! ## A sample -/

/-- The digests of the sample entries, told apart by the length of what is digested. -/
def sampleEntryHash (bytes : Bytes) : Bytes :=
  bytesOfHex (text (if bytes.length < 120 then
    "686987d19eb4895d48cb88750a9008d985fe2a833f15db1ecc993968daba3836"
  else "d07774ee0b2ab3a0c2b665e9069ad337e9a2aac25d0d2cb247e65b43e0e5f757"))

def sampleNumber (n : Nat) : Value := .number (.ofNat n)

def sampleFirstDigest : Value :=
  .string (text "sha256:686987d19eb4895d48cb88750a9008d985fe2a833f15db1ecc993968daba3836")

/-- The first entry, with a payload in some order. -/
def sampleFirst (payload : Fields) : Fields :=
  [(text "cycleId", .string (text "cycle-1")), (text "index", sampleNumber 0),
    (text "kind", .string (text "opened")), (text "payload", .object payload),
    (text "previousDigest", .null), (text "digest", sampleFirstDigest)]

def sampleSecond : Fields :=
  [(text "digest", .string
      (text "sha256:d07774ee0b2ab3a0c2b665e9069ad337e9a2aac25d0d2cb247e65b43e0e5f757")),
    (text "kind", .string (text "closed")), (text "payload", .object []),
    (text "cycleId", .string (text "cycle-1")), (text "index", sampleNumber 1),
    (text "previousDigest", sampleFirstDigest)]

def samplePayload : Fields :=
  [(text "amount", .string (text "15")),
    (text "chain", .array [sampleNumber 1, sampleNumber 2])]

/-- A journal of two entries. -/
def sampleEntries : List Data :=
  [⟨.object (sampleFirst samplePayload), by decide⟩, ⟨.object sampleSecond, by decide⟩]

/-- The same journal with the payload in another order. -/
def sampleReordered : List Data :=
  [⟨.object (sampleFirst samplePayload.reverse), by decide⟩, ⟨.object sampleSecond, by decide⟩]

/-- The bytes that are digested for an entry with these properties. -/
def digestedBytes (fs : Fields) : Bytes :=
  utf8 ((canonicalJson (.object (unsigned fs))).toOption.getD [])

theorem digestedBytes_eq {fs : Fields} {b : Bytes} (h : Digested (.object (unsigned fs)) b) :
    b = digestedBytes fs := by
  obtain ⟨t, ht, rfl⟩ := h
  rw [digestedBytes, ht]
  rfl

/-- Only two byte strings are digested for the sample. -/
theorem sample_digested :
    ∀ b ∈ digestedEntries sampleEntries ∪ digestedEntries sampleReordered,
      b = digestedBytes (sampleFirst samplePayload) ∨ b = digestedBytes sampleSecond := by
  have hsame : digestedBytes (sampleFirst samplePayload.reverse)
      = digestedBytes (sampleFirst samplePayload) := by decide +kernel
  have hentry : ∀ {e : Data} {fs gs : Fields} {b : Bytes}, e.1 = .object fs → e.1 = .object gs →
      Digested (.object (unsigned gs)) b → b = digestedBytes fs := by
    intro e fs gs b hfs hgs hb
    have hfields : fs = gs := Value.object.inj (hfs.symm.trans hgs)
    rw [hfields]
    exact digestedBytes_eq hb
  rintro b (⟨e, he, gs, hobject, hb⟩ | ⟨e, he, gs, hobject, hb⟩)
  · rcases List.mem_cons.mp he with hfirst | hrest
    · exact .inl (hentry (congrArg Subtype.val hfirst) hobject hb)
    · exact .inr (hentry (congrArg Subtype.val (List.mem_singleton.mp hrest)) hobject hb)
  · rcases List.mem_cons.mp he with hfirst | hrest
    · exact .inl ((hentry (congrArg Subtype.val hfirst) hobject hb).trans hsame)
    · exact .inr (hentry (congrArg Subtype.val (List.mem_singleton.mp hrest)) hobject hb)

theorem sampleEntryHash_injOn :
    Set.InjOn sampleEntryHash (digestedEntries sampleEntries ∪ digestedEntries sampleReordered) := by
  have hdifferent : sampleEntryHash (digestedBytes (sampleFirst samplePayload))
      ≠ sampleEntryHash (digestedBytes sampleSecond) := by decide +kernel
  intro a ha b hb hab
  rcases sample_digested a ha with ha | ha <;> rcases sample_digested b hb with hb | hb
  · exact ha.trans hb.symm
  · rw [ha, hb] at hab
    exact absurd hab hdifferent
  · rw [ha, hb] at hab
    exact absurd hab.symm hdifferent
  · exact ha.trans hb.symm

theorem journal_bound_by_head_sample :
    List.Forall₂ (fun e f => SameEntry e.1 f.1) sampleEntries sampleReordered := by
  have hentries : CycleJournal.new sampleEntryHash (text "cycle-1") (sampleEntries.map Subtype.val)
      = .ok ⟨text "cycle-1", sampleEntries.map Subtype.val⟩ := by decide +kernel
  have hreordered : CycleJournal.new sampleEntryHash (text "cycle-1")
      (sampleReordered.map Subtype.val)
      = .ok ⟨text "cycle-1", sampleReordered.map Subtype.val⟩ := by decide +kernel
  exact (journal_bound_by_head sampleEntryHash).1 (text "cycle-1") sampleEntries sampleReordered _ _
    hentries hreordered sampleEntryHash_injOn (by decide +kernel)

end Hookemon.Runner
