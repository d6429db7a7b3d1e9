import Hookemon.Runner.CycleStore

/-! # The index of the durable cycle store (`cycle/durable-store.mjs`)

The index lists the archived cycles, every authorization and receipt that was ever
consumed, and the global reservations. It is kept in one file of canonical JSON, and it
is read back when its bytes are the canonical ones and no key occurs twice in it.
-/

namespace Hookemon.Runner

open Hookemon.Core Hookemon.Js

/-! ## Collation -/

/-- `localeCompare`: a total order of all texts up to the texts that it does not tell apart.
It tells identifiers apart. -/
structure Collation where
  localeCompare : Text → Text → Int
  total : ∀ s t, localeCompare s t ≤ 0 ∨ localeCompare t s ≤ 0
  trans : ∀ s t u, localeCompare s t ≤ 0 → localeCompare t u ≤ 0 → localeCompare s u ≤ 0
  distinguishes : ∀ s t, isIdentifier s → isIdentifier t → localeCompare s t ≤ 0 →
    localeCompare t s ≤ 0 → s = t

namespace Collation

variable (collation : Collation) {α : Type}

/-- The order of `left.localeCompare(right)` of the keys of two rows. -/
def keyed (key : α → Text) (a b : α) : Prop := collation.localeCompare (key a) (key b) ≤ 0

instance instDecidableKeyed (key : α → Text) : DecidableRel (collation.keyed key) :=
  fun _ _ => inferInstanceAs (Decidable (_ ≤ _))

instance instTotalKeyed (key : α → Text) : Std.Total (collation.keyed key) :=
  ⟨fun a b => collation.total (key a) (key b)⟩

instance instTransKeyed (key : α → Text) : IsTrans α (collation.keyed key) :=
  ⟨fun a b c => collation.trans (key a) (key b) (key c)⟩

/-- `[...rows].sort((a, b) => a.key.localeCompare(b.key))`. -/
def sortBy (key : α → Text) (rows : List α) : List α := rows.insertionSort (collation.keyed key)

theorem sortBy_perm (key : α → Text) (rows : List α) : (collation.sortBy key rows).Perm rows :=
  List.perm_insertionSort _ rows

theorem sortBy_pairwise (key : α → Text) (rows : List α) :
    (collation.sortBy key rows).Pairwise (collation.keyed key) :=
  List.pairwise_insertionSort _ rows

end Collation

/-! ## The index -/

def maximumCycleFileBytes : Nat := 8388608
def maximumIndexBytes : Nat := 67108864

/-- `revision + 1` of doubles. -/
def nextRevision (revision : Nat) : Nat := roundDouble (revision + 1)

structure DurableIndex where
  revision : Nat
  archivedCycleIds : List Text
  authorizations : Record AuthorizationRecord
  authorizationNonces : Record Text
  receipts : Record ReceiptRecord
  globalKeys : Record Value

namespace DurableIndex

def schema : Text := text "hookemon.durable-cycle-store.index.v1"

/-- `emptyIndex`. -/
def emptyIndex : DurableIndex := ⟨0, [], .empty, .empty, .empty, .empty⟩

/-- `^[A-Za-z0-9][A-Za-z0-9:._-]{0,255}$`. -/
def isGlobalKey (s : Text) : Bool :=
  match s with
  | [] => false
  | c :: cs => isAlphanumeric c && cs.length ≤ 255 &&
      cs.all fun c => isAlphanumeric c || c = 58 || c = 46 || c = 95 || c = 45

/-- `assertGlobalKey`. -/
def assertGlobalKey (value : Value) : Except String Text :=
  assertPattern isGlobalKey value "durable global reservation key is invalid"

/-- The row of a global reservation. -/
def globalKeyRow (e : Text × Value) : Value :=
  .object [(text "key", .string e.1), (text "value", e.2)]

section Serialize

variable (collation : Collation) (index : DurableIndex)

def sortedArchived : List Text := collation.sortBy id index.archivedCycleIds

def sortedAuthorizations : List AuthorizationRecord :=
  collation.sortBy AuthorizationRecord.key index.authorizations.values

def sortedReceipts : List ReceiptRecord :=
  collation.sortBy ReceiptRecord.key index.receipts.values

def sortedGlobalKeys : List (Text × Value) :=
  collation.sortBy Prod.fst index.globalKeys.entries

/-- The object that `serializeIndex` encodes. -/
def toValue : Value :=
  .object [(text "schema", .string schema), (text "revision", .number (.ofNat index.revision)),
    (text "archivedCycleIds", .array ((index.sortedArchived collation).map Value.string)),
    (text "authorizations",
      .array ((index.sortedAuthorizations collation).map AuthorizationRecord.toValue)),
    (text "receipts", .array ((index.sortedReceipts collation).map ReceiptRecord.toValue)),
    (text "globalKeys", .array ((index.sortedGlobalKeys collation).map globalKeyRow))]

/-- `serializeIndex`. -/
def serializeIndex : Except String Text := fileText (index.toValue collation)

end Serialize

/-! ## Reading the index -/

/-- `exactObject` of `durable-store.mjs`. -/
def exactRow (value : Value) (fields : List Text) (label : String) : Except String Fields := do
  let _ ← canonicalJson value
  match value with
  | .object fs => do
    throwIf (fs.length ≠ fields.length ∨ ∃ field ∈ fields, field ∉ fs.map Prod.fst)
      (label ++ " must use the exact schema")
    return fs
  | _ => .error (label ++ " must use the exact schema")

/-- A global reservation of the file. -/
def readGlobalKeyRow (value : Value) : Except String (Text × Value) := do
  let fs ← exactRow value [text "key", text "value"] "durable global reservation record"
  let key ← assertGlobalKey (getField fs (text "key"))
  let _ ← canonicalJson (getField fs (text "value"))
  return (key, getField fs (text "value"))

/-- `value.archivedCycleIds.forEach(assertCycleId)`. -/
def readCycleIds : List Value → Except String (List Text)
  | [] => .ok []
  | v :: vs => do
    let id ← CycleRecords.assertCycleId v
    let ids ← readCycleIds vs
    return id :: ids

def fields : List Text :=
  [text "schema", text "revision", text "archivedCycleIds", text "authorizations",
    text "receipts"]

/-- Each identifier comes after the one before it. -/
def isSorted (collation : Collation) : List Text → Bool
  | s :: t :: rest => ¬ collation.localeCompare t s ≤ 0 && isSorted collation (t :: rest)
  | _ => true

/-- `assertIndexShape`. -/
def assertIndexShape (collation : Collation) (value : Value) : Except String DurableIndex := do
  let _ ← canonicalJson value
  match value with
  | .object fs => do
    let hasGlobalKeys := text "globalKeys" ∈ fs.map Prod.fst
    let fields := if hasGlobalKeys then fields ++ [text "globalKeys"] else fields
    throwIf (fs.length ≠ fields.length ∨ ∃ field ∈ fields, field ∉ fs.map Prod.fst)
      "durable cycle store index must use the exact schema"
    throwIf (¬ (getField fs (text "schema")).strictEquals (.string schema))
      "durable cycle store index schema is invalid"
    match countOf (getField fs (text "revision")) with
    | none => .error "durable cycle store index revision is invalid"
    | some revision => do
      throwIf (¬ FixtureCycleStore.isArray (getField fs (text "archivedCycleIds")))
        "durable cycle store archived cycle identifiers are invalid"
      let archivedCycleIds ← readCycleIds (itemsOf (getField fs (text "archivedCycleIds")))
      throwIf (¬ archivedCycleIds.Nodup)
        "durable cycle store archived cycle identifiers must be unique"
      throwIf (¬ isSorted collation archivedCycleIds)
        "durable cycle store archived cycle identifiers must be sorted"
      throwIf (¬ FixtureCycleStore.isArray (getField fs (text "authorizations")) ∨
          ¬ FixtureCycleStore.isArray (getField fs (text "receipts")) ∨
          (hasGlobalKeys ∧ ¬ FixtureCycleStore.isArray (getField fs (text "globalKeys"))))
        "durable cycle store evidence index is invalid"
      let (authorizations, authorizationNonces) ← collectAuthorizations
        "duplicate durable cycle store authorization record"
        "duplicate durable cycle store authorization nonce"
        (itemsOf (getField fs (text "authorizations"))) .empty .empty
      let receipts ← collect assertReceiptRecord ReceiptRecord.key
        "duplicate durable cycle store receipt record"
        (itemsOf (getField fs (text "receipts"))) .empty
      let globalKeys ← collect readGlobalKeyRow Prod.fst
        "duplicate durable global reservation key"
        (itemsOf (getField fs (text "globalKeys"))) .empty
      return { revision, archivedCycleIds, authorizations, authorizationNonces, receipts
               globalKeys := ⟨globalKeys.entries.map fun e => (e.1, e.2.2), by
                rw [List.map_map]
                exact globalKeys.distinct⟩ }
  | _ => .error "durable cycle store index must use the exact schema"

/-- `#loadIndex`, of the file's text. -/
def loadIndex (collation : Collation) (file : Option Text) : Except String DurableIndex :=
  match file with
  | none => .ok emptyIndex
  | some t => do
    throwIf (maximumIndexBytes < byteLength t)
      "durable cycle store index file exceeds the byte limit"
    match Js.parse t with
    | none => .error "durable cycle store index file contains corrupt JSON"
    | some parsed => do
      let bytes ← fileText parsed
      throwIf (bytes ≠ t)
        "durable cycle store index file bytes are not canonical JSON plus one newline"
      assertIndexShape collation parsed

end DurableIndex

end Hookemon.Runner
