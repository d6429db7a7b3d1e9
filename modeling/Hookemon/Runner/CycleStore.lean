import Hookemon.Js.Record
import Hookemon.Runner.CycleJournal
import Hookemon.Runner.CycleRecords

/-! # The cycle store in memory (`cycle/cycle-store.mjs`)

A store holds the journal of every cycle and the evidence that was consumed: every
authorization with its nonce, and every receipt. A transaction stages journal events and
evidence for one cycle, against the version and the head that its author has seen, and
the store takes all of it or none.
-/

namespace Hookemon.Runner

open Hookemon.Core Hookemon.Js

namespace RECOVERY_LIMITS

def storeCycles : Nat := 16
def storeAuthorizations : Nat := 384
def storeReceipts : Nat := 64

end RECOVERY_LIMITS

/-! ## Snapshots of a cycle -/

structure CycleSnapshot where
  cycleId : Text
  version : Nat
  journalHead : Value
  entries : List Value
deriving DecidableEq

namespace CycleSnapshot

def fields : List Text :=
  [text "cycleId", text "version", text "journalHead", text "entries"]

def toValue (c : CycleSnapshot) : Value :=
  .object [(text "cycleId", .string c.cycleId), (text "version", .number (.ofNat c.version)),
    (text "journalHead", c.journalHead), (text "entries", .array c.entries)]

/-- `{ cycleId, version: 0, journalHead: null, entries: [] }`. -/
def fresh (cycleId : Text) : CycleSnapshot := ⟨cycleId, 0, .null, []⟩

end CycleSnapshot

/-- The items of an array. -/
def itemsOf : Value → List Value
  | .array vs => vs
  | _ => []

/-- `Number.isInteger(value) && value >= 0`, as the number that it is. -/
def countOf : Value → Option Nat
  | .number (.integer n _) => if 0 ≤ n then some n.toNat else none
  | .number .negativeZero => some 0
  | _ => none

section Store

variable (sha256 : Bytes → Bytes)

/-- `assertCycleSnapshot`. -/
def assertCycleSnapshot (value : Value) : Except String CycleSnapshot := do
  throwIf (RECOVERY_LIMITS.journalEvents < (itemsOf (value.get (text "entries"))).length)
    "fixture cycle journal event count limit exceeded"
  let fs ← exactObject value CycleSnapshot.fields "fixture cycle store snapshot"
  let cycleId ← CycleRecords.assertCycleId (getField fs (text "cycleId"))
  match countOf (getField fs (text "version")), getField fs (text "entries") with
  | some version, .array entries => do
    throwIf (version ≠ entries.length) "fixture cycle store version is invalid"
    assertEntries sha256 cycleId entries 0 .null
    throwIf (¬ (getField fs (text "journalHead")).strictEquals (headOf entries))
      "fixture cycle store head is invalid"
    return ⟨cycleId, version, headOf entries, entries⟩
  | some version, .string s => do
    throwIf (version ≠ s.length) "fixture cycle store version is invalid"
    .error "fixture cycle store entries are invalid"
  | some _, .undefined | some _, .null => .error "Cannot read properties of undefined or null"
  | _, _ => .error "fixture cycle store version is invalid"

/-! ## Transactions -/

/-- What a transaction stages for a cycle. -/
structure FixtureCycleTransaction where
  cycleId : Text
  expectedVersion : Nat
  expectedJournalHead : Value
  events : List Data
  authorizations : Record AuthorizationRecord
  receipts : Record ReceiptRecord
  cycleIdOk : isIdentifier cycleId
  authorizationsOk : ∀ e ∈ authorizations.entries, e.2.key = e.1 ∧ e.2.Valid
  receiptsOk : ∀ e ∈ receipts.entries, e.2.key = e.1 ∧ e.2.Valid
  noncesOk : ∀ e ∈ authorizations.entries, ∀ e' ∈ authorizations.entries,
    e.2.nonceKey = e'.2.nonceKey → e.1 = e'.1

/-- `new FixtureCycleTransaction`: nothing is staged. -/
def FixtureCycleTransaction.opened (cycleId : Text) (hcycle : isIdentifier cycleId)
    (expectedVersion : Nat) (expectedJournalHead : Value) : FixtureCycleTransaction where
  cycleId := cycleId
  expectedVersion := expectedVersion
  expectedJournalHead := expectedJournalHead
  events := []
  authorizations := .empty
  receipts := .empty
  cycleIdOk := hcycle
  authorizationsOk := by simp [Record.empty]
  receiptsOk := by simp [Record.empty]
  noncesOk := by simp [Record.empty]

structure FixtureCycleStore where
  cycles : Record CycleSnapshot
  authorizations : Record AuthorizationRecord
  authorizationNonces : Record Text
  receipts : Record ReceiptRecord

/-- `if (existing && canonicalJson(existing) !== canonicalJson(value)) throw …;` of objects. -/
def assertSameObject (existing : Option Value) (value : Value) (message : String) :
    Except String Unit :=
  match existing with
  | none => .ok ()
  | some existing => do
    let different ← differs existing value
    throwIf different message

/-- `if (owner && owner !== key) throw …;`. -/
def assertNonceOwner (owner : Option Text) (key : Text) (message : String) : Except String Unit :=
  throwIf (owner.any fun k => k ≠ [] ∧ k ≠ key) message

namespace FixtureCycleTransaction

theorem ok_set {α : Type} {p : Text × α → Prop} {r : Record α} (h : ∀ e ∈ r.entries, p e)
    {key : Text} {a : α} (ha : p (key, a)) : ∀ e ∈ (r.set key a).entries, p e := by
  rintro ⟨k, b⟩ he
  rw [Record.mem_iff_find, Record.find_set] at he
  by_cases hk : k = key
  · rw [if_pos hk] at he
    cases he
    rwa [hk]
  · rw [if_neg hk] at he
    exact h _ (Record.mem_iff_find.mpr he)

/-- `stageEvent`. -/
def stageEvent (t : FixtureCycleTransaction) (value : Data) : FixtureCycleTransaction :=
  { t with events := t.events ++ [value] }

/-- The keys of the nonces stay distinct with one more authorization. -/
theorem nonces_set {r : Record AuthorizationRecord} {record : AuthorizationRecord}
    (hkeys : ∀ e ∈ r.entries, e.2.key = e.1)
    (h : ∀ e ∈ r.entries, ∀ e' ∈ r.entries, e.2.nonceKey = e'.2.nonceKey → e.1 = e'.1)
    (hnew : ¬ ∃ s ∈ r.values, s.nonceKey = record.nonceKey ∧ s.key ≠ record.key) :
    ∀ e ∈ (r.set record.key record).entries, ∀ e' ∈ (r.set record.key record).entries,
      e.2.nonceKey = e'.2.nonceKey → e.1 = e'.1 := by
  -- an entry is the new one or an old one under another key
  have hcases : ∀ e ∈ (r.set record.key record).entries,
      e = (record.key, record) ∨ e ∈ r.entries := by
    rintro ⟨k, a⟩ he
    rw [Record.mem_iff_find, Record.find_set] at he
    by_cases hk : k = record.key
    · rw [if_pos hk] at he
      cases he
      exact .inl (by rw [hk])
    · rw [if_neg hk] at he
      exact .inr (Record.mem_iff_find.mpr he)
  have hold : ∀ e ∈ r.entries, e.2.nonceKey = record.nonceKey → e.1 = record.key := by
    intro e he hnonce
    by_contra hne
    refine hnew ⟨e.2, List.mem_map.mpr ⟨e, he, rfl⟩, hnonce, ?_⟩
    rwa [hkeys e he]
  intro e he e' he' hnonce
  rcases hcases e he with rfl | hmem
  · rcases hcases e' he' with rfl | hmem'
    · rfl
    · exact (hold e' hmem' hnonce.symm).symm
  · rcases hcases e' he' with rfl | hmem'
    · exact hold e hmem hnonce
    · exact h e hmem e' hmem' hnonce

/-- `consumeAuthorization`. -/
def consumeAuthorization (store : FixtureCycleStore) (t : FixtureCycleTransaction) (value : Data) :
    Except String FixtureCycleTransaction :=
  match h : assertAuthorizationRecord value.1 with
  | .error e => .error e
  | .ok record => do
    throwIf (t.authorizations.find record.key).isSome
      "fixture authorization was staged more than once"
    assertSameObject ((store.authorizations.find record.key).map AuthorizationRecord.toValue)
      record.toValue "authorization already consumed by different evidence"
    assertNonceOwner (store.authorizationNonces.find record.nonceKey) record.key
      "authorization nonce already consumed"
    if hnonce : ∃ s ∈ t.authorizations.values,
        s.nonceKey = record.nonceKey ∧ s.key ≠ record.key then
      .error "authorization nonce already staged"
    else
      return { t with
        authorizations := t.authorizations.set record.key record
        authorizationsOk := ok_set t.authorizationsOk
          ⟨rfl, ((assertAuthorizationRecord_eq_ok value.2).mp h).1⟩
        noncesOk := nonces_set (fun e he => (t.authorizationsOk e he).1) t.noncesOk hnonce }

/-- `consumeReceipt`. -/
def consumeReceipt (store : FixtureCycleStore) (t : FixtureCycleTransaction) (value : Data) :
    Except String FixtureCycleTransaction :=
  match h : assertReceiptRecord value.1 with
  | .error e => .error e
  | .ok record => do
    throwIf (t.receipts.find record.key).isSome "fixture receipt was staged more than once"
    assertSameObject ((store.receipts.find record.key).map ReceiptRecord.toValue) record.toValue
      "provider receipt already consumed by a different cycle or receipt"
    return { t with
      receipts := t.receipts.set record.key record
      receiptsOk := ok_set t.receiptsOk ⟨rfl, ((assertReceiptRecord_eq_ok value.2).mp h).1⟩ }

end FixtureCycleTransaction

/-! ## The store -/

/-- Rows of a snapshot, each checked, under keys that no two of them share. -/
def collect {α : Type} (check : Value → Except String α) (key : α → Text) (message : String) :
    List Value → Record α → Except String (Record α)
  | [], r => .ok r
  | v :: vs, r => do
    let a ← check v
    throwIf (r.find (key a)).isSome message
    collect check key message vs (r.set (key a) a)

/-- The authorizations of a snapshot and the key of each nonce. -/
def collectAuthorizations (keyMessage nonceMessage : String) :
    List Value → Record AuthorizationRecord → Record Text →
      Except String (Record AuthorizationRecord × Record Text)
  | [], r, nonces => .ok (r, nonces)
  | v :: vs, r, nonces => do
    let record ← assertAuthorizationRecord v
    throwIf (r.find record.key).isSome keyMessage
    throwIf (nonces.find record.nonceKey).isSome nonceMessage
    collectAuthorizations keyMessage nonceMessage vs (r.set record.key record)
      (nonces.set record.nonceKey record.key)

/-- **The rows are all checked, and none of them shares its key.** -/
theorem collect_eq_ok {α : Type} {check : Value → Except String α} {key : α → Text}
    {message : String} {vs : List Value} : ∀ {r r' : Record α},
      collect check key message vs r = .ok r' ↔ ∃ rows,
        List.Forall₂ (fun v a => check v = .ok a) vs rows ∧ (rows.map key).Nodup ∧
        (∀ a ∈ rows, r.find (key a) = none) ∧
        r'.entries = r.entries ++ rows.map fun a => (key a, a) := by
  induction vs with
  | nil =>
    intro r r'
    rw [collect, Except.ok.injEq]
    constructor
    · rintro rfl
      exact ⟨[], .nil, List.nodup_nil, by simp, by simp⟩
    · rintro ⟨rows, hrows, -, -, hentries⟩
      cases hrows
      cases r
      cases r'
      simp_all
  | cons v vs ih =>
    intro r r'
    simp only [collect, bind_eq_ok, revertIf_eq_ok, ih, Bool.not_eq_true, Option.isSome_eq_false_iff,
      Option.isNone_iff_eq_none, Record.find_set]
    constructor
    · rintro ⟨a, ha, _, hnew, rows, hrows, hnodup, hfresh, hentries⟩
      have hother : ∀ b ∈ rows, key b ≠ key a := by
        intro b hb heq
        have hfind := hfresh b hb
        rw [if_pos heq] at hfind
        cases hfind
      refine ⟨a :: rows, .cons ha hrows, ?_, ?_, ?_⟩
      · rw [List.map_cons, List.nodup_cons]
        refine ⟨fun hmem => ?_, hnodup⟩
        obtain ⟨b, hb, heq⟩ := List.mem_map.mp hmem
        exact hother b hb heq
      · refine List.forall_mem_cons.mpr ⟨hnew, fun b hb => ?_⟩
        have hfind := hfresh b hb
        rwa [if_neg (hother b hb)] at hfind
      · rw [hentries, Record.set_entries_of_new hnew, List.map_cons, List.append_assoc]
        rfl
    · rintro ⟨_, hrows, hnodup, hfresh, hentries⟩
      obtain _ | ⟨ha, hrows⟩ := hrows
      rename_i a rows
      rw [List.map_cons, List.nodup_cons] at hnodup
      rw [List.forall_mem_cons] at hfresh
      refine ⟨a, ha, (), hfresh.1, rows, hrows, hnodup.2, fun b hb => ?_, ?_⟩
      · have hne : key b ≠ key a := fun heq =>
          hnodup.1 (List.mem_map.mpr ⟨b, hb, heq⟩)
        rw [if_neg hne]
        exact hfresh.2 b hb
      · rw [hentries, Record.set_entries_of_new hfresh.1, List.map_cons, List.append_assoc]
        rfl

/-- The authorizations are all checked, and none of them shares its key or its nonce. -/
theorem collectAuthorizations_eq_ok {keyMessage nonceMessage : String} {vs : List Value} :
    ∀ {r r' : Record AuthorizationRecord} {nonces nonces' : Record Text},
      collectAuthorizations keyMessage nonceMessage vs r nonces = .ok (r', nonces') ↔ ∃ rows,
        List.Forall₂ (fun v a => assertAuthorizationRecord v = .ok a) vs rows ∧
        (rows.map AuthorizationRecord.key).Nodup ∧ (rows.map AuthorizationRecord.nonceKey).Nodup ∧
        (∀ a ∈ rows, r.find a.key = none ∧ nonces.find a.nonceKey = none) ∧
        r'.entries = r.entries ++ (rows.map fun a => (a.key, a)) ∧
        nonces'.entries = nonces.entries ++ rows.map fun a => (a.nonceKey, a.key) := by
  induction vs with
  | nil =>
    intro r r' nonces nonces'
    rw [collectAuthorizations, Except.ok.injEq, Prod.mk.injEq]
    constructor
    · rintro ⟨rfl, rfl⟩
      exact ⟨[], .nil, List.nodup_nil, List.nodup_nil, by simp, by simp, by simp⟩
    · rintro ⟨rows, hrows, -, -, -, hentries, hnonces⟩
      cases hrows
      cases r
      cases r'
      cases nonces
      cases nonces'
      simp_all
  | cons v vs ih =>
    intro r r' nonces nonces'
    simp only [collectAuthorizations, bind_eq_ok, revertIf_eq_ok, ih, Bool.not_eq_true,
      Option.isSome_eq_false_iff, Option.isNone_iff_eq_none, Record.find_set]
    constructor
    · rintro ⟨a, ha, _, hkey, _, hnonce, rows, hrows, hkeys, hnonces, hfresh, hentries, hnonces'⟩
      have hother : ∀ b ∈ rows, b.key ≠ a.key ∧ b.nonceKey ≠ a.nonceKey := by
        intro b hb
        obtain ⟨hfind, hfind'⟩ := hfresh b hb
        constructor
        · intro heq
          rw [if_pos heq] at hfind
          cases hfind
        · intro heq
          rw [if_pos heq] at hfind'
          cases hfind'
      refine ⟨a :: rows, .cons ha hrows, ?_, ?_, ?_, ?_, ?_⟩
      · rw [List.map_cons, List.nodup_cons]
        refine ⟨fun hmem => ?_, hkeys⟩
        obtain ⟨b, hb, heq⟩ := List.mem_map.mp hmem
        exact (hother b hb).1 heq
      · rw [List.map_cons, List.nodup_cons]
        refine ⟨fun hmem => ?_, hnonces⟩
        obtain ⟨b, hb, heq⟩ := List.mem_map.mp hmem
        exact (hother b hb).2 heq
      · refine List.forall_mem_cons.mpr ⟨⟨hkey, hnonce⟩, fun b hb => ?_⟩
        have hfind := hfresh b hb
        rwa [if_neg (hother b hb).1, if_neg (hother b hb).2] at hfind
      · rw [hentries, Record.set_entries_of_new hkey, List.map_cons, List.append_assoc]
        rfl
      · rw [hnonces', Record.set_entries_of_new hnonce, List.map_cons, List.append_assoc]
        rfl
    · rintro ⟨_, hrows, hkeys, hnonces, hfresh, hentries, hnonces'⟩
      obtain _ | ⟨ha, hrows⟩ := hrows
      rename_i a rows
      rw [List.map_cons, List.nodup_cons] at hkeys hnonces
      rw [List.forall_mem_cons] at hfresh
      refine ⟨a, ha, (), hfresh.1.1, (), hfresh.1.2, rows, hrows, hkeys.2, hnonces.2, ?_, ?_, ?_⟩
      · intro b hb
        have hkey : b.key ≠ a.key := fun heq => hkeys.1 (List.mem_map.mpr ⟨b, hb, heq⟩)
        have hnonce : b.nonceKey ≠ a.nonceKey := fun heq =>
          hnonces.1 (List.mem_map.mpr ⟨b, hb, heq⟩)
        rw [if_neg hkey, if_neg hnonce]
        exact hfresh.2 b hb
      · rw [hentries, Record.set_entries_of_new hfresh.1.1, List.map_cons, List.append_assoc]
        rfl
      · rw [hnonces', Record.set_entries_of_new hfresh.1.2, List.map_cons, List.append_assoc]
        rfl

namespace FixtureCycleStore

def fields : List Text := [text "schema", text "cycles", text "authorizations", text "receipts"]

def schema : Text := text "hookemon.fixture-cycle-store.v1"

def isArray : Value → Bool
  | .array _ => true
  | _ => false

/-- `new FixtureCycleStore(snapshot)`. -/
def new (snapshot : Value) : Except String FixtureCycleStore := do
  let cycles := itemsOf (snapshot.get (text "cycles"))
  let authorizations := itemsOf (snapshot.get (text "authorizations"))
  let receipts := itemsOf (snapshot.get (text "receipts"))
  throwIf (RECOVERY_LIMITS.storeCycles < cycles.length)
    "fixture cycle store cycle count limit exceeded"
  throwIf (RECOVERY_LIMITS.storeAuthorizations < authorizations.length)
    "fixture authorization count limit exceeded"
  throwIf (RECOVERY_LIMITS.storeReceipts < receipts.length)
    "fixture receipt count limit exceeded"
  let fs ← exactObject snapshot fields "fixture cycle store"
  throwIf (¬ (getField fs (text "schema")).strictEquals (.string schema) ∨
      ¬ isArray (getField fs (text "cycles")) ∨ ¬ isArray (getField fs (text "authorizations")) ∨
      ¬ isArray (getField fs (text "receipts"))) "fixture cycle store snapshot is invalid"
  let cycles ← collect (assertCycleSnapshot sha256) CycleSnapshot.cycleId
    "duplicate fixture cycle store cycle" cycles .empty
  let (authorizations, authorizationNonces) ← collectAuthorizations
    "duplicate fixture authorization store record" "duplicate fixture authorization store record"
    authorizations .empty .empty
  let receipts ← collect assertReceiptRecord ReceiptRecord.key
    "duplicate fixture receipt store record" receipts .empty
  return { cycles, authorizations, authorizationNonces, receipts }

/-- `readCycle`. -/
def readCycle (store : FixtureCycleStore) (cycleId : Text) : CycleSnapshot :=
  (store.cycles.find cycleId).getD (.fresh cycleId)

/-- `begin`, of a head that is a digest or null. -/
def begin (cycleId : Text) (expectedVersion : Nat) (expectedJournalHead : Value) :
    Except String FixtureCycleTransaction :=
  if hcycle : isIdentifier cycleId then do
    throwIf (expectedJournalHead ≠ .null ∧ ¬ isString isDigest expectedJournalHead)
      "expected cycle head is invalid"
    return .opened cycleId hcycle expectedVersion expectedJournalHead
  else .error "cycleId is invalid"

/-- The staged events after the journal, each after the one before it. -/
def appendEvents (cycleId : Text) : List Value → List Value → Value →
    Except String (List Value × Value)
  | [], entries, head => .ok (entries, head)
  | entry :: rest, entries, head => do
    assertJournalEntry sha256 entry cycleId entries.length head
    appendEvents cycleId rest (entries ++ [entry]) (entry.get (text "digest"))

/-- The staged authorizations against the consumed ones and each other. -/
def assertAuthorizations (store : FixtureCycleStore) (cycleId : Text) :
    List (Text × AuthorizationRecord) → Record Text → Except String Unit
  | [], _ => .ok ()
  | (key, record) :: rest, stagedNonces => do
    throwIf (record.cycleId ≠ cycleId) "authorization cycle mismatch"
    assertSameObject ((store.authorizations.find key).map AuthorizationRecord.toValue)
      record.toValue "authorization already consumed by different evidence"
    assertNonceOwner
      ((store.authorizationNonces.find record.nonceKey).or (stagedNonces.find record.nonceKey)) key
      "authorization nonce already consumed"
    assertAuthorizations store cycleId rest (stagedNonces.set record.nonceKey key)

def assertReceipts (store : FixtureCycleStore) (cycleId : Text) :
    List (Text × ReceiptRecord) → Except String Unit
  | [] => .ok ()
  | (key, record) :: rest => do
    throwIf (record.cycleId ≠ cycleId) "receipt cycle mismatch"
    assertSameObject ((store.receipts.find key).map ReceiptRecord.toValue) record.toValue
      "provider receipt already consumed by a different cycle or receipt"
    assertReceipts store cycleId rest

/-- `commit`. -/
def commit (store : FixtureCycleStore) (t : FixtureCycleTransaction) :
    Except String FixtureCycleStore := do
  throwIf (t.events = []) "fixture cycle transaction requires a journal event"
  let current := store.readCycle t.cycleId
  throwIf (current.version ≠ t.expectedVersion) "stale cycle journal version"
  throwIf (current.journalHead ≠ t.expectedJournalHead) "stale cycle journal head"
  let (entries, head) ← appendEvents sha256 t.cycleId (t.events.map Subtype.val) current.entries
    current.journalHead
  store.assertAuthorizations t.cycleId t.authorizations.entries .empty
  store.assertReceipts t.cycleId t.receipts.entries
  return {
    cycles := store.cycles.set t.cycleId ⟨t.cycleId, entries.length, head, entries⟩
    authorizations := store.authorizations.setAll t.authorizations.entries
    authorizationNonces := store.authorizationNonces.setAll
      (t.authorizations.entries.map fun e => (e.2.nonceKey, e.1))
    receipts := store.receipts.setAll t.receipts.entries }

/-! ## What a commit does -/

/-- The head after some more entries. -/
def headAfter (head : Value) (events : List Value) : Value :=
  match events.getLast? with
  | some last => last.get (text "digest")
  | none => head

theorem appendEvents_eq_ok {cycleId : Text} {events : List Value} :
    ∀ {entries : List Value} {head : Value} {result : List Value × Value},
      appendEvents sha256 cycleId events entries head = .ok result ↔
        assertEntries sha256 cycleId events entries.length head = .ok () ∧
        result = (entries ++ events, headAfter head events) := by
  induction events with
  | nil =>
    intro entries head result
    simp only [appendEvents, assertEntries, Except.ok.injEq, true_and, List.append_nil]
    exact eq_comm
  | cons event rest ih =>
    intro entries head result
    have hhead : headAfter head (event :: rest) = headAfter (event.get (text "digest")) rest := by
      rw [headAfter, headAfter, List.getLast?_cons]
      cases rest.getLast? <;> rfl
    rw [appendEvents, assertEntries, bind_eq_ok, bind_eq_ok, hhead]
    simp only [ih, List.length_append, List.length_singleton, List.append_assoc,
      List.singleton_append]
    constructor
    · rintro ⟨u, hevent, hrest, hresult⟩
      exact ⟨⟨u, hevent, hrest⟩, hresult⟩
    · rintro ⟨⟨u, hevent, hrest⟩, hresult⟩
      exact ⟨u, hevent, hrest, hresult⟩

/-- The journal with the staged events. -/
def extended (store : FixtureCycleStore) (t : FixtureCycleTransaction) : CycleSnapshot where
  cycleId := t.cycleId
  version := (store.readCycle t.cycleId).entries.length + t.events.length
  journalHead :=
    headAfter (store.readCycle t.cycleId).journalHead (t.events.map Subtype.val)
  entries := (store.readCycle t.cycleId).entries ++ t.events.map Subtype.val

/-- The store with all that a transaction stages. -/
def committed (store : FixtureCycleStore) (t : FixtureCycleTransaction) : FixtureCycleStore where
  cycles := store.cycles.set t.cycleId (store.extended t)
  authorizations := store.authorizations.setAll t.authorizations.entries
  authorizationNonces := store.authorizationNonces.setAll
    (t.authorizations.entries.map fun e => (e.2.nonceKey, e.1))
  receipts := store.receipts.setAll t.receipts.entries

/-- What the store checks of a transaction. -/
structure Accepts (store : FixtureCycleStore) (t : FixtureCycleTransaction) : Prop where
  events : t.events ≠ []
  version : (store.readCycle t.cycleId).version = t.expectedVersion
  head : (store.readCycle t.cycleId).journalHead = t.expectedJournalHead
  chained : assertEntries sha256 t.cycleId (t.events.map Subtype.val)
    (store.readCycle t.cycleId).entries.length (store.readCycle t.cycleId).journalHead = .ok ()
  authorizations : store.assertAuthorizations t.cycleId t.authorizations.entries .empty = .ok ()
  receipts : store.assertReceipts t.cycleId t.receipts.entries = .ok ()

/-- **A commit takes all of a transaction, or throws and takes nothing.** -/
theorem commit_eq_ok {store store' : FixtureCycleStore} {t : FixtureCycleTransaction} :
    store.commit sha256 t = .ok store' ↔ store.Accepts sha256 t ∧ store' = store.committed t := by
  simp only [commit, bind_eq_ok, revertIf_eq_ok, not_not, appendEvents_eq_ok, pure_eq_ok]
  constructor
  · rintro ⟨_, hevents, _, hversion, _, hhead, _, ⟨hchained, rfl⟩, _, hauthorizations, _, hreceipts,
      rfl⟩
    refine ⟨⟨hevents, hversion, hhead, hchained, hauthorizations, hreceipts⟩, ?_⟩
    simp only [committed, extended, List.length_append, List.length_map]
  · rintro ⟨⟨hevents, hversion, hhead, hchained, hauthorizations, hreceipts⟩, rfl⟩
    refine ⟨(), hevents, (), hversion, (), hhead, _, ⟨hchained, rfl⟩, (), hauthorizations, (),
      hreceipts, ?_⟩
    simp only [committed, extended, List.length_append, List.length_map]

@[simp] theorem readCycle_committed (store : FixtureCycleStore) (t : FixtureCycleTransaction)
    (cycleId : Text) : (store.committed t).readCycle cycleId =
      if cycleId = t.cycleId then store.extended t else store.readCycle cycleId := by
  rw [readCycle, committed, Record.find_set]
  by_cases h : cycleId = t.cycleId
  · rw [if_pos h, if_pos h]
    rfl
  · rw [if_neg h, if_neg h]
    rfl

/-- An accepted transaction changes the journal of its cycle. -/
theorem extended_ne {store : FixtureCycleStore} {t : FixtureCycleTransaction}
    (h : t.events ≠ []) : store.extended t ≠ store.readCycle t.cycleId := by
  intro hsame
  have hentries := congrArg CycleSnapshot.entries hsame
  rw [extended, List.append_right_eq_self, List.map_eq_nil_iff] at hentries
  exact h hentries

end FixtureCycleStore

end Store

end Hookemon.Runner
