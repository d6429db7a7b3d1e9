import Hookemon.Collector.RecentWinners
import Hookemon.Js.Calendar

/-! # `collector/durable-card-feed.mjs`

The trusted operations and the observations of one cycle, from its request ledger and the
evidence of its stages.
-/

namespace Hookemon.Collector

open Hookemon.Core Hookemon.Js

/-- `Number.isInteger(value)`, and the number. -/
def integerOf : Value → Option Int
  | .number (.integer n _) => some n
  | .number .negativeZero => some 0
  | _ => none

/-- `value ?? null`. -/
def orNull (value : Value) : Value := if value = .undefined then .null else value

/-- `{ ...publicProceeds(value) }` of a typed amount, and `null` of anything else. -/
def publicProceeds (value : Value) : Value :=
  let chainId := value.get (text "chainId")
  let assetId := value.get (text "assetId")
  let decimals := value.get (text "decimals")
  let amountAtomic := value.get (text "amountAtomic")
  if ¬ isNonEmptyString chainId ∧ (integerOf chainId).isNone then .null
  else if ¬ isNonEmptyString assetId then .null
  else if ¬ isAssetDecimals decimals then .null
  else if ¬ isDecimalString amountAtomic then .null
  else .object [(text "chainId", .string (chainText chainId)), (text "assetId", assetId),
    (text "decimals", decimals), (text "units", amountAtomic)]
where
  /-- `String(chainId)`. -/
  chainText : Value → Text
    | .string s => s
    | .number x => x.text
    | _ => []

/-! ## Stage evidence -/

/-- What `cycleRepository.readStage` returned for each stage. -/
structure Stages where
  purchase : Value
  openStage : Value
  epicGate : Value
  buyback : Value

def isComplete (stage : Value) : Bool := stage.get (text "status") = .string (text "COMPLETE")

/-- The packs of a complete stage, if its evidence has any. -/
def stagePacks (stage : Value) : Option Value :=
  if isComplete stage then
    match (stage.get (text "evidence")).get (text "packs") with
    | .array packs => some (.array packs)
    | _ => some .undefined
  else none

/-- Packs by their index, in the order in which they were set. -/
abbrev PackMap := List (Nat × Value)

/-- The key that a pack index is in a map whose keys are indexes. -/
def indexKey (value : Value) : Option Nat :=
  (integerOf value).bind fun n => if 0 ≤ n then some n.toNat else none

/-- The loop of `mapStagePacks`. -/
def collectPacks (expected : PackMap) (validate : Value → Value → Bool) :
    List Value → PackMap → Option PackMap
  | [], result => if result.length = expected.length then some result else none
  | pack :: packs, result =>
    if isObject pack then do
      let index ← indexKey (pack.get (text "packIndex"))
      let predecessor ← expected.lookup index
      if (result.lookup index).isSome
          ∨ pack.get (text "memo") ≠ predecessor.get (text "memo")
          ∨ ¬ validate pack predecessor then none
      else collectPacks expected validate packs (result ++ [(index, pack)])
    else none

def mapStagePacks (packs : Value) (expected : PackMap) (validate : Value → Value → Bool) :
    Option PackMap :=
  match packs with
  | .array packs =>
    if packs.length ≠ expected.length then none else collectPacks expected validate packs []
  | _ => none

def hasOwn (value : Value) (key : Text) : Bool :=
  match value with
  | .object fs => decide (key ∈ fs.map Prod.fst)
  | _ => false

def hasStatus (status : String) (pack : Value) : Bool :=
  pack.get (text "status") = .string (text status)

def hasDecision (decision : String) (pack : Value) : Bool :=
  pack.get (text "decision") = .string (text decision)

def purchaseRow (pack _request : Value) : Bool :=
  hasStatus "purchased" pack ||
    (hasStatus "not_purchased" pack && !hasOwn pack (text "packCost") &&
      !hasOwn pack (text "signature"))

def openRow (pack _purchase : Value) : Bool :=
  hasDecision "held" pack ||
    (hasDecision "opened" pack && isNonEmptyString (pack.get (text "mint")) &&
      isNonEmptyString (pack.get (text "signature")))

def epicGateRow (pack opened : Value) : Bool :=
  pack.get (text "mint") = opened.get (text "mint") &&
    (hasDecision "sell" pack || hasDecision "held" pack)

def buybackRow (pack candidate : Value) : Bool :=
  pack.get (text "mint") = candidate.get (text "mint") &&
    if hasDecision "held" pack then
      !hasOwn pack (text "proceeds") && !hasOwn pack (text "signature")
    else hasDecision "sold" pack && isNonEmptyString (pack.get (text "signature")) &&
      publicProceeds (pack.get (text "proceeds")) ≠ .null

/-- A stage that is not complete has no packs. A complete one has a row for each pack that the
stage before it selects. The outer `none` rejects the feed. -/
def nextStage (stage : Value) (before : Option PackMap) (selects : Value → Bool)
    (validate : Value → Value → Bool) : Option (Option PackMap) :=
  match stagePacks stage with
  | none => some none
  | some packs => do
    let rows ← before
    let result ← mapStagePacks packs (rows.filter fun row => selects row.2) validate
    return some result

/-- The number of sold packs is the one that the evidence states. -/
def soldCountMatches (stage : Value) (rows : PackMap) : Bool :=
  integerOf ((stage.get (text "evidence")).get (text "soldCount"))
    = some ((rows.filter fun row => hasDecision "sold" row.2).length : Int)

/-- `stages.buyback.evidence.soldCount` is read before the packs are. -/
def readsSoldCount (stage : Value) (epicGate : Option PackMap) : Except String Unit :=
  let evidence := stage.get (text "evidence")
  throwIf (isComplete stage ∧ epicGate.isSome ∧ orNull evidence = .null)
    ("Cannot read properties of " ++ (if evidence = .null then "null" else "undefined") ++
      " (reading 'soldCount')")

structure CompleteStages where
  purchase : Option PackMap
  openStage : Option PackMap
  epicGate : Option PackMap
  buyback : Option PackMap

/-- The requests of a ledger whose pack indexes are their positions. -/
def requestByIndex (requests : List Value) : PackMap :=
  requests.zipIdx.map fun request => (request.2, request.1)

/-- The stages before the buyback. -/
def validateEarlierStages (requests : List Value) (stages : Stages) :
    Option (Option PackMap × Option PackMap × Option PackMap) := do
  let purchase ← nextStage stages.purchase (some (requestByIndex requests)) (fun _ => true)
    purchaseRow
  let openStage ← nextStage stages.openStage purchase (hasStatus "purchased") openRow
  let epicGate ← nextStage stages.epicGate openStage (hasDecision "opened") epicGateRow
  return (purchase, openStage, epicGate)

def validateCompleteStages (requests : List Value) (stages : Stages) :
    Except String (Option CompleteStages) :=
  match validateEarlierStages requests stages with
  | none => .ok none
  | some (purchase, openStage, epicGate) => do
    readsSoldCount stages.buyback epicGate
    let buyback := (nextStage stages.buyback epicGate (hasDecision "sell") buybackRow).filter
      fun buyback => buyback.all (soldCountMatches stages.buyback)
    return buyback.map fun buyback => { purchase, openStage, epicGate, buyback }

/-! ## The lifecycle of a pack -/

inductive PackState where
  | purchased
  | opened
  | gated
  | held
  | sold
deriving DecidableEq, Repr

def PackState.name : PackState → Text
  | .purchased => text "PURCHASED"
  | .opened => text "OPENED"
  | .gated => text "GATED"
  | .held => text "HELD"
  | .sold => text "SOLD"

structure Lifecycle where
  state : PackState
  publicState : CardState
  mint : Value
  transactionId : Value
  proceeds : Value
deriving DecidableEq

/-- A pack that is kept. -/
def heldLifecycle (pack : Value) : Lifecycle :=
  { state := .held, publicState := .finalized, mint := orNull (pack.get (text "mint")),
    transactionId := .null, proceeds := .null }

def buybackLifecycle (pack : Value) : Option Lifecycle :=
  if hasDecision "sold" pack then
    some { state := .sold, publicState := .finalized, mint := pack.get (text "mint")
           transactionId := pack.get (text "signature")
           proceeds := publicProceeds (pack.get (text "proceeds")) }
  else if hasDecision "held" pack then some (heldLifecycle pack)
  else none

def epicGateLifecycle (pack : Value) : Option Lifecycle :=
  if hasDecision "sell" pack then
    if ¬ isNonEmptyString (pack.get (text "mint")) then none
    else some { state := .gated, publicState := .observed, mint := pack.get (text "mint")
                transactionId := .null, proceeds := .null }
  else if hasDecision "held" pack then some (heldLifecycle pack)
  else none

def openLifecycle (pack : Value) : Option Lifecycle :=
  if hasDecision "opened" pack then
    if ¬ isNonEmptyString (pack.get (text "mint")) then none
    else some { state := .opened, publicState := .observed, mint := pack.get (text "mint")
                transactionId := pack.get (text "signature"), proceeds := .null }
  else if hasDecision "held" pack then some (heldLifecycle pack)
  else none

def purchaseLifecycle (pack : Value) : Option Lifecycle :=
  if hasStatus "purchased" pack then
    some { state := .purchased, publicState := .observed, mint := .null
           transactionId := orNull (pack.get (text "signature")), proceeds := .null }
  else none

/-- `map?.get(packIndex)`. -/
def packAt (packs : Option PackMap) (packIndex : Nat) : Option Value :=
  packs.bind fun rows => rows.lookup packIndex

def resolvePackLifecycle (packIndex : Nat) (stages : CompleteStages) : Option Lifecycle :=
  match packAt stages.buyback packIndex with
  | some pack => buybackLifecycle pack
  | none =>
    match packAt stages.epicGate packIndex with
    | some pack => epicGateLifecycle pack
    | none =>
      match packAt stages.openStage packIndex with
      | some pack => openLifecycle pack
      | none => (packAt stages.purchase packIndex).bind purchaseLifecycle

/-! ## The feed -/

/-- The checks of the ledger's entries from a position on. -/
def requestsValid (index : Nat) (seenMemos : List Text) : List Value → Bool
  | [] => true
  | request :: requests =>
    isObject request && indexKey (request.get (text "packIndex")) = some index &&
      isNonEmptyString (request.get (text "memo")) &&
      decide (stringOf (request.get (text "memo")) ∉ seenMemos) &&
      requestsValid (index + 1) (stringOf (request.get (text "memo")) :: seenMemos) requests

/-- `packBatchRequestPacksValid(packs)`, and the entries. -/
def packBatchRequestPacksValid (packs : Value) : Option (List Value) :=
  match packs with
  | .array requests => if requests ≠ [] ∧ requestsValid 0 [] requests then some requests else none
  | _ => none

/-- An array has fewer than `2 ^ 32` entries. -/
structure FeedInput where
  cycleId : Text
  packBatchRequestPacks : Value
  arrayLength : ∀ requests, packBatchRequestPacks = .array requests → requests.length < 2 ^ 32
  purchaseRequestedAtMs : Value
  stages : Stages
  observedAtByOperationId : List (Text × Value) := []
  operatorWallet : Option Text := none

structure DurableCardFeed where
  trustedOperations : List (Text × Value)
  observations : List Value
deriving DecidableEq

def operationId (cycleId : Text) (packIndex : Nat) : Text :=
  text "pack:" ++ cycleId ++ 58 :: natText packIndex

/-- When a pack was observed and finalized. Without evidence of a time it is not shown. -/
def observationTimes (input : FeedInput) (time packIndex : Nat) (lifecycle : Lifecycle) :
    Except String (Option (Text × Option Text)) :=
  if lifecycle.state = .purchased then
    (toISOString time).elim (.error "Invalid time value") fun observedAt =>
      .ok (some (observedAt, none))
  else
    let real :=
      (input.observedAtByOperationId.lookup (operationId input.cycleId packIndex)).getD .undefined
    .ok <| match real.get (text "observedAt") with
      | .string observedAt =>
        some (observedAt,
          if lifecycle.publicState = .finalized then optionalOf (real.get (text "finalizedAt"))
          else none)
      | _ => none

def trustedRecord (input : FeedInput) (packIndex : Nat) (lifecycle : Option Lifecycle) : Value :=
  .object [(text "cycleId", .string input.cycleId),
    (text "operationId", .string (operationId input.cycleId packIndex)),
    (text "packIndex", .number (.ofNat packIndex)),
    (text "mint", orNull ((lifecycle.map Lifecycle.mint).getD .undefined)),
    (text "wallet", optionalValue input.operatorWallet)]

def observationOf (input : FeedInput) (time packIndex : Nat) (memo : Value)
    (lifecycle : Lifecycle) (times : Text × Option Text) : Value :=
  .object [(text "cycleId", .string input.cycleId),
    (text "operationId", .string (operationId input.cycleId packIndex)),
    (text "packIndex", .number (.ofNat packIndex)), (text "memo", memo),
    (text "mint", lifecycle.mint),
    (text "eventId",
      .string (operationId input.cycleId packIndex ++ 58 :: lifecycle.state.name)),
    (text "sequence", .string (natText (time * 1000000 + packIndex))),
    (text "state", .string lifecycle.publicState.name), (text "name", .null),
    (text "imageUrl", .null), (text "observedAt", .string times.1),
    (text "finalizedAt", optionalValue times.2), (text "transactionId", lifecycle.transactionId),
    (text "proceeds", lifecycle.proceeds), (text "wallet", optionalValue input.operatorWallet)]

/-- The trusted operation of one request, and its observation. -/
def feedRow (input : FeedInput) (time : Nat) (stages : CompleteStages) (request : Value × Nat) :
    Except String ((Text × Value) × Option Value) := do
  let memo := request.1.get (text "memo")
  let lifecycle := resolvePackLifecycle request.2 stages
  let trusted := (stringOf memo, trustedRecord input request.2 lifecycle)
  match lifecycle with
  | none => return (trusted, none)
  | some lifecycle =>
    let times ← observationTimes input time request.2 lifecycle
    return (trusted, times.map (observationOf input time request.2 memo lifecycle))

def buildDurableCardFeed (input : FeedInput) : Except String DurableCardFeed := do
  throwIf (input.cycleId = []) "buildDurableCardFeed requires a cycleId"
  let time ← (safeIndex input.purchaseRequestedAtMs).elim
    (.error "buildDurableCardFeed requires the purchase batch's own durable requestedAtMs") .ok
  match packBatchRequestPacksValid input.packBatchRequestPacks with
  | none => return { trustedOperations := [], observations := [] }
  | some requests =>
    let validatedStages ← validateCompleteStages requests input.stages
    match validatedStages with
    | none => return { trustedOperations := [], observations := [] }
    | some stages =>
      let rows ← requests.zipIdx.mapM (feedRow input time stages)
      return { trustedOperations := rows.map Prod.fst, observations := rows.filterMap Prod.snd }

end Hookemon.Collector
