import Hookemon.Runner.IndexFile

/-! # The durable cycle store (`cycle/durable-store.mjs`)

A process opens the store on a directory: it loads the index and every active cycle into
memory, and works on that copy. A commit takes the lock, loads the index again, checks
the staged evidence against it, commits in memory, and writes the index and then the
cycle's file. Every file is replaced as a whole, or is left as it was.

The lock is held through each operation and is not a part of the model. Neither are the
identity of the directory and the modes of its files.
-/

namespace Hookemon.Runner

open Hookemon.Core Hookemon.Js

/-! ## Files -/

/-- How `atomicWriteFile` ends: it goes through, it throws before the rename, or it throws
when it syncs the directory after the rename. -/
inductive Write where
  | done
  | failed
  | unsynced
deriving DecidableEq

/-- The file after the write. -/
def Write.file {α : Type} (w : Write) (old new : α) : α :=
  match w with
  | .failed => old
  | _ => new

/-- What the write throws. -/
def Write.result (w : Write) : Except String Unit :=
  match w with
  | .done => .ok ()
  | _ => .error "file write failed"

/-- What goes wrong with the files during one operation. -/
structure Faults where
  archiveWrite : Write := .done
  indexWrite : Write := .done
  activeWrite : Write := .done
  unlinkFails : Bool := false
deriving DecidableEq

/-- The directory: `index.json`, and a file for each cycle under `active/` and `archive/`. -/
structure Disk where
  index : Option Text
  active : Record Text
  archive : Record Text

namespace Disk

def empty : Disk := ⟨none, .empty, .empty⟩

end Disk

/-- `^\d{4}-\d{2}-\d{2}T\d{2}:\d{2}:\d{2}\.\d{3}Z$`. -/
def isTimestamp (s : Text) : Bool :=
  match takeDigits 4 s with
  | none => false
  | some (_, rest) =>
    rest.length = 20 && (List.zipWith (fun (c d : UInt16) => if d = 48 then isDigit c else c = d) rest
      (text "-00-00T00:00:00.000Z")).all id

/-- `new Date().toISOString()` in this era. -/
abbrev Timestamp := { s : Text // isTimestamp s }

section Store

variable (sha256 : Bytes → Bytes) (collation : Collation)

/-! ## Cycle files -/

def activeCycleSchema : Text := text "hookemon.durable-cycle-store.active-cycle.v1"

def archivedCycleSchema : Text := text "hookemon.durable-cycle-store.archived-cycle.v1"

def activeCycleValue (cycle : CycleSnapshot) : Value :=
  .object [(text "schema", .string activeCycleSchema), (text "cycle", cycle.toValue)]

def archivedCycleValue (cycle : CycleSnapshot) (archivedAt : Text) : Value :=
  .object [(text "schema", .string archivedCycleSchema), (text "archivedAt", .string archivedAt),
    (text "cycle", cycle.toValue)]

/-- `serializeActiveCycle`. -/
def serializeActiveCycle (cycle : CycleSnapshot) : Except String Text := do
  let cycle ← assertCycleSnapshot sha256 cycle.toValue
  fileText (activeCycleValue cycle)

/-- `serializeArchivedCycle`. -/
def serializeArchivedCycle (cycle : CycleSnapshot) (archivedAt : Text) : Except String Text := do
  let cycle ← assertCycleSnapshot sha256 cycle.toValue
  fileText (archivedCycleValue cycle archivedAt)

/-- `JSON.parse`, of a file that holds canonical JSON. -/
def parseFile (t : Text) (label : String) : Except String Value :=
  match Js.parse t with
  | none => .error (label ++ " contains corrupt JSON")
  | some parsed => do
    let bytes ← fileText parsed
    throwIf (bytes ≠ t) (label ++ " bytes are not canonical JSON plus one newline")
    return parsed

/-- `parseActiveCycle`. -/
def parseActiveCycle (t : Text) : Except String CycleSnapshot := do
  let label := "durable cycle store active cycle file"
  let parsed ← parseFile t label
  let fs ← DurableIndex.exactRow parsed [text "schema", text "cycle"] label
  throwIf (¬ (getField fs (text "schema")).strictEquals (.string activeCycleSchema))
    (label ++ " schema is invalid")
  assertCycleSnapshot sha256 (getField fs (text "cycle"))

/-- `parseArchivedCycle`. -/
def parseArchivedCycle (t : Text) : Except String (CycleSnapshot × Text) := do
  let label := "durable cycle store archive file"
  let parsed ← parseFile t label
  let fs ← DurableIndex.exactRow parsed [text "schema", text "archivedAt", text "cycle"] label
  throwIf (¬ (getField fs (text "schema")).strictEquals (.string archivedCycleSchema))
    (label ++ " schema is invalid")
  let archivedAt ← assertPattern isTimestamp (getField fs (text "archivedAt"))
    (label ++ " archive timestamp is invalid")
  let cycle ← assertCycleSnapshot sha256 (getField fs (text "cycle"))
  return (cycle, archivedAt)

/-! ## Transactions -/

/-- A transaction of one store object, over the hot store that the object then had. -/
structure DurableCycleTransaction where
  store : Nat
  generation : Nat
  closed : Bool
  inner : FixtureCycleTransaction
  globalKeys : Record Data
  globalKeyReplacements : Record (Data × Data)
  globalKeyReleases : Record Data
  globalKeysOk : ∀ e ∈ globalKeys.entries, DurableIndex.isGlobalKey e.1
  replacementsOk : ∀ e ∈ globalKeyReplacements.entries, DurableIndex.isGlobalKey e.1
  setApart : ∀ k, (globalKeys.find k).isSome →
    globalKeyReplacements.find k = none ∧ globalKeyReleases.find k = none
  replacedApart : ∀ k, (globalKeyReplacements.find k).isSome → globalKeyReleases.find k = none

/-- `new DurableCycleTransaction`. -/
def DurableCycleTransaction.opened (store generation : Nat) (inner : FixtureCycleTransaction) :
    DurableCycleTransaction where
  store := store
  generation := generation
  closed := false
  inner := inner
  globalKeys := .empty
  globalKeyReplacements := .empty
  globalKeyReleases := .empty
  globalKeysOk := by simp [Record.empty]
  replacementsOk := by simp [Record.empty]
  setApart := by simp
  replacedApart := by simp

/-- A store object: its copy of the active journals (`#hot`, the generation of it), the
index as it was last loaded, and the active cycles. -/
structure DurableCycleStore where
  identity : Nat
  generation : Nat
  hot : FixtureCycleStore
  index : DurableIndex
  activeCycleIds : List Text

/-- Whether `if (value)` goes on. -/
def isTruthy : Value → Bool
  | .undefined | .null | .boolean false | .number .negativeZero | .string [] => false
  | .number (.integer n _) => n ≠ 0
  | .bigint n => n ≠ 0
  | _ => true

namespace DurableIndex

/-- `checkAuthorizationAgainstDurableIndex`. -/
def checkAuthorization (index : DurableIndex) (record : AuthorizationRecord) :
    Except String Unit := do
  assertSameObject ((index.authorizations.find record.key).map AuthorizationRecord.toValue)
    record.toValue "authorization already consumed by different evidence"
  assertNonceOwner (index.authorizationNonces.find record.nonceKey) record.key
    "authorization nonce already consumed"

/-- `checkReceiptAgainstDurableIndex`. -/
def checkReceipt (index : DurableIndex) (record : ReceiptRecord) : Except String Unit :=
  assertSameObject ((index.receipts.find record.key).map ReceiptRecord.toValue) record.toValue
    "provider receipt already consumed by a different cycle or receipt"

/-- `checkGlobalKeyAgainstDurableIndex`. -/
def checkGlobalKey (index : DurableIndex) (key : Text) (value : Value) : Except String Unit := do
  let _ ← assertGlobalKey (.string key)
  let _ ← canonicalJson value
  assertSameObject ((index.globalKeys.find key).filter isTruthy) value
    "durable global reservation key is already reserved by a different value"

/-- The reservation that a replacement or a release names. -/
def assertExpected (existing : Option Value) (expectedValue : Value) (message : String) :
    Except String Unit :=
  match existing with
  | none => .error message
  | some existing => do
    let different ← differs existing expectedValue
    throwIf different message

/-- `checkGlobalKeyReplacementAgainstDurableIndex`. -/
def checkGlobalKeyReplacement (index : DurableIndex) (key : Text) (expectedValue value : Value) :
    Except String Unit := do
  let _ ← assertGlobalKey (.string key)
  let _ ← canonicalJson expectedValue
  let _ ← canonicalJson value
  assertExpected (index.globalKeys.find key) expectedValue
    "durable global reservation key changed before replacement"

/-- `checkGlobalKeyReleaseAgainstDurableIndex`. -/
def checkGlobalKeyRelease (index : DurableIndex) (key : Text) (expectedValue : Value) :
    Except String Unit := do
  let _ ← assertGlobalKey (.string key)
  let _ ← canonicalJson expectedValue
  assertExpected (index.globalKeys.find key) expectedValue
    "durable global reservation key changed before release"

/-- A check of every element of a list, the first error among them. -/
def checkAll {α : Type} (check : α → Except String Unit) : List α → Except String Unit
  | [] => .ok ()
  | a :: rest => do
    check a
    checkAll check rest

/-- All that a transaction stages, against the index. -/
def checkStaged (index : DurableIndex) (t : DurableCycleTransaction) : Except String Unit := do
  checkAll (fun e => index.checkAuthorization e.2) t.inner.authorizations.entries
  checkAll (fun e => index.checkReceipt e.2) t.inner.receipts.entries
  checkAll (fun e => index.checkGlobalKey e.1 e.2.1) t.globalKeys.entries
  checkAll (fun e => index.checkGlobalKeyReplacement e.1 e.2.1.1 e.2.2.1)
    t.globalKeyReplacements.entries
  checkAll (fun e => index.checkGlobalKeyRelease e.1 e.2.1) t.globalKeyReleases.entries

/-- The index with all that a transaction stages. -/
def withStaged (index : DurableIndex) (t : DurableCycleTransaction) : DurableIndex where
  revision := nextRevision index.revision
  archivedCycleIds := index.archivedCycleIds
  authorizations := index.authorizations.setAll t.inner.authorizations.entries
  authorizationNonces := index.authorizationNonces.setAll
    (t.inner.authorizations.entries.map fun e => (e.2.nonceKey, e.1))
  receipts := index.receipts.setAll t.inner.receipts.entries
  globalKeys := ((index.globalKeys.setAll (t.globalKeys.entries.map fun e => (e.1, e.2.1))).setAll
    (t.globalKeyReplacements.entries.map fun e => (e.1, e.2.2.1))).eraseAll
    (t.globalKeyReleases.entries.map Prod.fst)

/-- The index with one more archived cycle. -/
def withArchived (index : DurableIndex) (cycleId : Text) : DurableIndex :=
  { index with
    archivedCycleIds := collation.sortBy id (index.archivedCycleIds ++ [cycleId])
    revision := nextRevision index.revision }

/-- The index with one more reservation. -/
def withReserved (index : DurableIndex) (key : Text) (value : Value) : DurableIndex :=
  { index with
    globalKeys := index.globalKeys.set key value, revision := nextRevision index.revision }

/-- The index without a reservation. -/
def withReleased (index : DurableIndex) (key : Text) : DurableIndex :=
  { index with
    globalKeys := index.globalKeys.erase key, revision := nextRevision index.revision }

end DurableIndex

/-! ## Staging -/

namespace DurableCycleTransaction

def assertOpen (t : DurableCycleTransaction) : Except String Unit :=
  throwIf t.closed "durable cycle transaction is closed"

/-- `stageEvent`. -/
def stageEvent (t : DurableCycleTransaction) (value : Data) :
    Except String DurableCycleTransaction := do
  t.assertOpen
  return { t with inner := t.inner.stageEvent value }

/-- `consumeAuthorization`. -/
def consumeAuthorization (store : DurableCycleStore) (t : DurableCycleTransaction) (value : Data) :
    Except String DurableCycleTransaction := do
  t.assertOpen
  let record ← assertAuthorizationRecord value.1
  store.index.checkAuthorization record
  let inner ← t.inner.consumeAuthorization store.hot value
  return { t with inner }

/-- `consumeReceipt`. -/
def consumeReceipt (store : DurableCycleStore) (t : DurableCycleTransaction) (value : Data) :
    Except String DurableCycleTransaction := do
  t.assertOpen
  let record ← assertReceiptRecord value.1
  store.index.checkReceipt record
  let inner ← t.inner.consumeReceipt store.hot value
  return { t with inner }

theorem find_set_isSome {α : Type} {p : Text → Prop} {r : Record α} {key : Text} {a : α}
    (h : ∀ k, (r.find k).isSome → p k) (hkey : p key) :
    ∀ k, ((r.set key a).find k).isSome → p k := by
  intro k hk
  rw [Record.find_set] at hk
  by_cases heq : k = key
  · rwa [heq]
  · rw [if_neg heq] at hk
    exact h k hk

/-- `stageGlobalKey`. -/
def stageGlobalKey (store : DurableCycleStore) (t : DurableCycleTransaction) (key : Text)
    (value : Data) : Except String DurableCycleTransaction := do
  t.assertOpen
  if hkey : DurableIndex.isGlobalKey key then
    let _ ← canonicalJson value.1
    if hother : t.globalKeyReplacements.find key = none ∧ t.globalKeyReleases.find key = none then
      assertSameObject (((t.globalKeys.find key).map Subtype.val).filter isTruthy) value.1
        "durable transaction stages conflicting global reservation values"
      store.index.checkGlobalKey key value.1
      return { t with
        globalKeys := t.globalKeys.set key value
        globalKeysOk := FixtureCycleTransaction.ok_set t.globalKeysOk hkey
        setApart := find_set_isSome t.setApart hother }
    else .error "durable transaction stages conflicting global reservation operations"
  else .error "durable global reservation key is invalid"

/-- `{ expectedValue, value }`. -/
def replacementValue (r : Data × Data) : Value :=
  .object [(text "expectedValue", r.1.1), (text "value", r.2.1)]

theorem apart_set {α β γ : Type} {r : Record α} {s : Record β} {u : Record γ} {key : Text} {b : β}
    (h : ∀ k, (r.find k).isSome → s.find k = none ∧ u.find k = none) (hkey : r.find key = none) :
    ∀ k, (r.find k).isSome → (s.set key b).find k = none ∧ u.find k = none := by
  intro k hk
  have hne : k ≠ key := by
    rintro rfl
    rw [hkey] at hk
    cases hk
  rw [Record.find_set, if_neg hne]
  exact h k hk

/-- `stageGlobalKeyReplacement`. -/
def stageGlobalKeyReplacement (store : DurableCycleStore) (t : DurableCycleTransaction)
    (key : Text) (expectedValue value : Data) : Except String DurableCycleTransaction := do
  t.assertOpen
  if hkey : DurableIndex.isGlobalKey key then
    let _ ← canonicalJson expectedValue.1
    let _ ← canonicalJson value.1
    if hother : t.globalKeys.find key = none ∧ t.globalKeyReleases.find key = none then
      assertSameObject ((t.globalKeyReplacements.find key).map replacementValue)
        (replacementValue (expectedValue, value))
        "durable transaction stages conflicting global reservation replacements"
      store.index.checkGlobalKeyReplacement key expectedValue.1 value.1
      return { t with
        globalKeyReplacements := t.globalKeyReplacements.set key (expectedValue, value)
        replacementsOk := FixtureCycleTransaction.ok_set t.replacementsOk hkey
        setApart := apart_set t.setApart hother.1
        replacedApart := find_set_isSome t.replacedApart hother.2 }
    else .error "durable transaction stages conflicting global reservation operations"
  else .error "durable global reservation key is invalid"

/-- `stageGlobalKeyRelease`. -/
def stageGlobalKeyRelease (store : DurableCycleStore) (t : DurableCycleTransaction) (key : Text)
    (expectedValue : Data) : Except String DurableCycleTransaction := do
  t.assertOpen
  if DurableIndex.isGlobalKey key then
    let _ ← canonicalJson expectedValue.1
    if hother : t.globalKeys.find key = none ∧ t.globalKeyReplacements.find key = none then
      assertSameObject (((t.globalKeyReleases.find key).map Subtype.val).filter isTruthy)
        expectedValue.1 "durable transaction stages conflicting global reservation releases"
      store.index.checkGlobalKeyRelease key expectedValue.1
      return { t with
        globalKeyReleases := t.globalKeyReleases.set key expectedValue
        setApart := fun k hk => ⟨(t.setApart k hk).1, by
          have hne : k ≠ key := by
            rintro rfl
            rw [hother.1] at hk
            cases hk
          rw [Record.find_set, if_neg hne]
          exact (t.setApart k hk).2⟩
        replacedApart := fun k hk => by
          have hne : k ≠ key := by
            rintro rfl
            rw [hother.2] at hk
            cases hk
          rw [Record.find_set, if_neg hne]
          exact t.replacedApart k hk }
    else .error "durable transaction stages conflicting global reservation operations"
  else .error "durable global reservation key is invalid"

end DurableCycleTransaction

/-! ## Operations -/

/-- What an operation returns or throws, the object and the directory after it. -/
structure Result (α : Type) where
  outcome : Except String α
  store : DurableCycleStore
  disk : Disk

namespace DurableCycleStore

/-- `readCycle`. -/
def readCycle (s : DurableCycleStore) (cycleId : Text) : Except String CycleSnapshot := do
  throwIf (¬ isIdentifier cycleId) "cycleId is invalid"
  throwIf (cycleId ∈ s.index.archivedCycleIds)
    "cycle is archived; call readArchivedCycle() for historical lookups"
  return s.hot.readCycle cycleId

/-- `begin`. -/
def begin (s : DurableCycleStore) (cycleId : Text) (expectedVersion : Nat)
    (expectedJournalHead : Value) : Except String DurableCycleTransaction := do
  throwIf (¬ isIdentifier cycleId) "cycleId is invalid"
  throwIf (cycleId ∈ s.index.archivedCycleIds)
    "durable cycle store cycle identifier was already archived and cannot be reopened"
  throwIf (cycleId ∉ s.activeCycleIds ∧ RECOVERY_LIMITS.storeCycles ≤ s.activeCycleIds.length)
    "durable cycle store active cycle count limit exceeded"
  let inner ← FixtureCycleStore.begin cycleId expectedVersion expectedJournalHead
  return .opened s.identity s.generation inner

/-- `new Set([...]).add(cycleId)`. -/
def addActive (activeCycleIds : List Text) (cycleId : Text) : List Text :=
  if cycleId ∈ activeCycleIds then activeCycleIds else activeCycleIds ++ [cycleId]

/-- The index file after `#writeIndex`, and what the write throws. -/
def writeIndex (index : DurableIndex) (d : Disk) (w : Write) : Except String Unit × Disk :=
  match index.serializeIndex collation with
  | .error e => (.error e, d)
  | .ok t => (w.result, { d with index := w.file d.index (some t) })

/-- The active file after a cycle was written, and what that throws. -/
def writeActiveCycle (cycle : CycleSnapshot) (d : Disk) (w : Write) : Except String Unit × Disk :=
  match serializeActiveCycle sha256 cycle with
  | .error e => (.error e, d)
  | .ok t => (w.result, { d with active := w.file d.active (d.active.set cycle.cycleId t) })

/-- `#hot.commit(transaction.inner)`, of a hot store that may have been rebuilt since. -/
def commitHot (s : DurableCycleStore) (t : DurableCycleTransaction) :
    Except String FixtureCycleStore := do
  throwIf (t.generation ≠ s.generation) "fixture cycle transaction belongs to a different store"
  s.hot.commit sha256 t.inner

/-- The writes of a commit, when the object has changed already: the index, so that it is
never behind the journal, then the cycle's file. -/
def persist (s : DurableCycleStore) (d : Disk) (cycleId : Text) (f : Faults) : Result Unit :=
  match writeIndex collation s.index d f.indexWrite with
  | (.error e, d) => ⟨.error e, s, d⟩
  | (.ok (), d) =>
    match writeActiveCycle sha256 (s.hot.readCycle cycleId) d f.activeWrite with
    | (.error e, d) => ⟨.error e, s, d⟩
    | (.ok (), d) => ⟨.ok (), { s with activeCycleIds := addActive s.activeCycleIds cycleId }, d⟩

/-- `commit` and `commitSync`. -/
def commit (s : DurableCycleStore) (d : Disk) (t : DurableCycleTransaction) (f : Faults) :
    Result Unit :=
  if t.closed then ⟨.error "durable cycle transaction is closed", s, d⟩
  else if t.store ≠ s.identity then
    ⟨.error "durable cycle transaction belongs to a different store", s, d⟩
  else match DurableIndex.loadIndex collation d.index with
    | .error e => ⟨.error e, s, d⟩
    | .ok index =>
      match index.checkStaged t with
      | .error e => ⟨.error e, { s with index }, d⟩
      | .ok () =>
        match s.commitHot sha256 t with
        | .error e => ⟨.error e, { s with index }, d⟩
        | .ok hot =>
          persist sha256 collation { s with hot, index := index.withStaged t } d t.inner.cycleId f

/-- The snapshot that `#buildHot` makes of some cycles. -/
def snapshotValue (index : DurableIndex) (cycles : List CycleSnapshot) : Value :=
  let activeIds := cycles.map CycleSnapshot.cycleId
  .object [(text "schema", .string FixtureCycleStore.schema),
    (text "cycles", .array (cycles.map CycleSnapshot.toValue)),
    (text "authorizations", .array ((index.authorizations.values.filter
      (·.cycleId ∈ activeIds)).map AuthorizationRecord.toValue)),
    (text "receipts", .array ((index.receipts.values.filter
      (·.cycleId ∈ activeIds)).map ReceiptRecord.toValue))]

/-- `#buildHot`. -/
def buildHot (index : DurableIndex) (cycles : List CycleSnapshot) :
    Except String FixtureCycleStore :=
  FixtureCycleStore.new sha256 (snapshotValue index cycles)

/-- One file of the active directory. -/
def readActiveFile (name t : Text) : Except String CycleSnapshot := do
  throwIf (maximumCycleFileBytes < byteLength t)
    "durable cycle store active cycle file exceeds the byte limit"
  let cycle ← parseActiveCycle sha256 t
  throwIf (cycle.cycleId ≠ name) "durable cycle store active cycle file identity mismatch"
  return cycle

/-- The active files in the order of the directory. A file of an archived cycle was left
behind by a crash and is unlinked. -/
def readActiveFiles (archived : List Text) : List (Text × Text) → List CycleSnapshot →
    Record Text → Except String (List CycleSnapshot) × Record Text
  | [], cycles, directory => (.ok cycles, directory)
  | (name, t) :: rest, cycles, directory =>
    match readActiveFile sha256 name t with
    | .error e => (.error e, directory)
    | .ok cycle =>
      if cycle.cycleId ∈ archived then
        readActiveFiles archived rest cycles (directory.erase name)
      else readActiveFiles archived rest (cycles ++ [cycle]) directory

/-- `#loadActiveCycles`. -/
def loadActiveCycles (index : DurableIndex) (d : Disk) :
    Except String (List CycleSnapshot) × Disk :=
  let (result, active) :=
    readActiveFiles sha256 index.archivedCycleIds d.active.entries [] d.active
  (result.map (collation.sortBy CycleSnapshot.cycleId), { d with active })

/-- `open`, which gives a new object. -/
def «open» (identity : Nat) (d : Disk) : Except String DurableCycleStore × Disk :=
  match DurableIndex.loadIndex collation d.index with
  | .error e => (.error e, d)
  | .ok index =>
    match loadActiveCycles sha256 collation index d with
    | (.error e, d) => (.error e, d)
    | (.ok cycles, d) =>
      match buildHot sha256 index cycles with
      | .error e => (.error e, d)
      | .ok hot =>
        (.ok { identity, generation := 0, hot, index
               activeCycleIds := cycles.map CycleSnapshot.cycleId }, d)

/-- The writes of an archive: the archive file, then the index; then the active file goes,
and the hot store is built anew without the cycle. -/
def persistArchive (s : DurableCycleStore) (d : Disk) (cycleId t : Text) (f : Faults) :
    Result Unit :=
  let d := { d with archive := f.archiveWrite.file d.archive (d.archive.set cycleId t) }
  match f.archiveWrite.result with
  | .error e => ⟨.error e, s, d⟩
  | .ok () =>
    let s := { s with index := s.index.withArchived collation cycleId }
    match writeIndex collation s.index d f.indexWrite with
    | (.error e, d) => ⟨.error e, s, d⟩
    | (.ok (), d) =>
      if f.unlinkFails then ⟨.error "file unlink failed", s, d⟩
      else
        let d := { d with active := d.active.erase cycleId }
        let s := { s with activeCycleIds := s.activeCycleIds.filter (· ≠ cycleId) }
        match buildHot sha256 s.index
          ((collation.sortBy id s.activeCycleIds).map s.hot.readCycle) with
        | .error e => ⟨.error e, s, d⟩
        | .ok hot => ⟨.ok (), { s with hot, generation := s.generation + 1 }, d⟩

/-- `archiveCycle`. -/
def archiveCycle (s : DurableCycleStore) (d : Disk) (cycleId : Text) (now : Timestamp)
    (f : Faults) : Result Unit :=
  if ¬ isIdentifier cycleId then ⟨.error "cycleId is invalid", s, d⟩
  else match DurableIndex.loadIndex collation d.index with
    | .error e => ⟨.error e, s, d⟩
    | .ok index =>
      let s := { s with index }
      if cycleId ∈ index.archivedCycleIds then ⟨.error "cycle is already archived", s, d⟩
      else if cycleId ∉ s.activeCycleIds then
        ⟨.error "cycle is not active in the durable cycle store", s, d⟩
      else if (s.hot.readCycle cycleId).version = 0 then
        ⟨.error "cycle has no committed journal and cannot be archived", s, d⟩
      else match serializeArchivedCycle sha256 (s.hot.readCycle cycleId) now.1 with
        | .error e => ⟨.error e, s, d⟩
        | .ok t => persistArchive sha256 collation s d cycleId t f

/-- `reserveGlobalKey`. -/
def reserveGlobalKey (s : DurableCycleStore) (d : Disk) (key : Text) (value : Data) (f : Faults) :
    Result Value :=
  if ¬ DurableIndex.isGlobalKey key then
    ⟨.error "durable global reservation key is invalid", s, d⟩
  else match canonicalJson value.1 with
    | .error e => ⟨.error e, s, d⟩
    | .ok _ =>
      match DurableIndex.loadIndex collation d.index with
      | .error e => ⟨.error e, s, d⟩
      | .ok index =>
        match index.globalKeys.find key with
        | some existing =>
          match assertSameObject (some existing) value.1
            "durable global reservation key is already reserved by a different value" with
          | .error e => ⟨.error e, { s with index }, d⟩
          | .ok () => ⟨.ok existing, { s with index }, d⟩
        | none =>
          let s := { s with index := index.withReserved key value.1 }
          match writeIndex collation s.index d f.indexWrite with
          | (.error e, d) => ⟨.error e, s, d⟩
          | (.ok (), d) => ⟨.ok value.1, s, d⟩

/-- `readGlobalKey`. -/
def readGlobalKey (s : DurableCycleStore) (d : Disk) (key : Text) : Result (Option Value) :=
  if ¬ DurableIndex.isGlobalKey key then
    ⟨.error "durable global reservation key is invalid", s, d⟩
  else match DurableIndex.loadIndex collation d.index with
    | .error e => ⟨.error e, s, d⟩
    | .ok index => ⟨.ok (index.globalKeys.find key), { s with index }, d⟩

/-- `releaseGlobalKey`. -/
def releaseGlobalKey (s : DurableCycleStore) (d : Disk) (key : Text) (value : Data) (f : Faults) :
    Result Bool :=
  if ¬ DurableIndex.isGlobalKey key then
    ⟨.error "durable global reservation key is invalid", s, d⟩
  else match canonicalJson value.1 with
    | .error e => ⟨.error e, s, d⟩
    | .ok _ =>
      match DurableIndex.loadIndex collation d.index with
      | .error e => ⟨.error e, s, d⟩
      | .ok index =>
        match index.globalKeys.find key with
        | none => ⟨.ok false, { s with index }, d⟩
        | some existing =>
          match assertSameObject (some existing) value.1
            "durable global reservation key is owned by different value" with
          | .error e => ⟨.error e, { s with index }, d⟩
          | .ok () =>
            let s := { s with index := index.withReleased key }
            match writeIndex collation s.index d f.indexWrite with
            | (.error e, d) => ⟨.error e, s, d⟩
            | (.ok (), d) => ⟨.ok true, s, d⟩

end DurableCycleStore

end Store

end Hookemon.Runner
