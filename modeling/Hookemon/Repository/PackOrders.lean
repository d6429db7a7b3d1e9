import Hookemon.Core.Replay
import Hookemon.Js.Map
import Hookemon.Runner.OperatorConfiguration

/-! # Pack orders of an admitted plan (`app/cycle-repository.mjs`)

A plan of several orders is bought one order after the other. Each order first records an intent,
then the packs that the provider generated for it, then what became of them. The records of the
orders and those of the whole purchase are kept in the same maps, under keys that start with the
name of the stage.
-/

namespace Hookemon.Repository

open Hookemon.Core Hookemon.Js Hookemon.Runner

/-! ## Admitted plans -/

/-- An order of an admission, without its quotes. -/
structure AdmittedOrder where
  orderIndex : Nat
  packId : Text
  quantity : Int
  unitPurchase : TypedAmount
deriving DecidableEq

/-- A `hookemon.policy-admission.v4`, without its quotes and the evidence of its liability. -/
structure PlanAdmission where
  packPlan : Runner.PackPlan
  orders : List AdmittedOrder
  quantity : Int
deriving DecidableEq

/-- `normalizePlanAdmission`, as far as it looks at the orders. -/
def normalizePlanAdmission (value : PlanAdmission) : Except String PlanAdmission := do
  let packPlan ← assertPackPlan value.packPlan
  throwIf (packPlan.orders = [] ∨ value.orders.length ≠ packPlan.orders.length)
    "policy admission orders must match the nonempty cycle pack plan"
  throwIf (∃ row ∈ (value.orders.zip packPlan.orders).zipIdx, row.1.1.orderIndex ≠ row.2 ∨
      row.1.1.packId ≠ row.1.2.pack ∨ row.1.1.quantity ≠ row.1.2.quantity)
    "policy admission order differs from the cycle pack plan"
  throwIf (value.quantity ≠ (value.orders.map AdmittedOrder.quantity).sum)
    "policy admission quantity differs from the plan total"
  return value

/-! ## Packs (`cycle/money-schemas.mjs`) -/

structure PackRequest where
  packIndex : Int
  memo : Text
  expectedCardCount : Int
  packType : Option Text
deriving DecidableEq

/-- `^[\x21-\x7e]{1,255}$`. -/
def isPackMemo (s : Text) : Bool :=
  1 ≤ s.length && s.length ≤ 255 && s.all fun c => 33 ≤ c.toNat && c.toNat ≤ 126

def assertPackBatchRequestEntry (value : PackRequest) (label : String) : Except String Unit := do
  throwIf (value.packIndex < 0) (label ++ " packIndex is invalid")
  throwIf (¬ isPackMemo value.memo) (label ++ " memo is invalid")
  throwIf (value.expectedCardCount < 1) (label ++ " expectedCardCount is invalid")
  throwIf (∃ packType ∈ value.packType, ¬ isPackCode packType) (label ++ " packType is invalid")

/-- The loop of `assertPackBatchRequest` at one pack. -/
def assertNextPack (label : String) (seen : List PackRequest) (entry : PackRequest) :
    Except String Unit := do
  let position := label ++ "[" ++ toString seen.length ++ "]"
  assertPackBatchRequestEntry entry position
  throwIf (entry.packIndex ≠ seen.length) (position ++ " packIndex must equal its array position")
  throwIf (entry.memo ∈ seen.map PackRequest.memo) (label ++ " memo values must be unique")

def assertPackBatchRequest (value : List PackRequest) (label : String) : Except String Unit := do
  throwIf (value = [] ∨ MAXIMUM_PACK_BATCH_SIZE < value.length)
    (label ++ " must be a non-empty array of at most 64 packs")
  scan (assertNextPack label) [] value

/-- `assertTypedAmount` of the money schemas: the chain is any text that is not empty. -/
def assertCost (amount : TypedAmount) (label : String) : Except String Unit := do
  throwIf (amount.chainId = []) (label ++ " chainId is invalid")
  throwIf (amount.assetId = []) (label ++ " assetId is invalid")
  throwIf (amount.decimals < 0 ∨ 255 < amount.decimals) (label ++ " decimals is invalid")
  throwIf (¬ isDecimal amount.amountAtomic)
    (label ++ " amountAtomic must be a canonical unsigned decimal string")

/-! ## Records -/

structure PackBatchIntent where
  quantity : Int
  packType : Option Text
  expectedCardCountPerPack : Int
  playerAddress : Text
deriving DecidableEq

def assertPackBatchIntent (value : PackBatchIntent) (label : String) : Except String Unit := do
  throwIf (value.quantity < 1) (label ++ " quantity is invalid")
  throwIf (∃ packType ∈ value.packType, ¬ isPackCode packType) (label ++ " packType is invalid")
  throwIf (value.expectedCardCountPerPack < 1) (label ++ " expectedCardCountPerPack is invalid")
  throwIf (value.playerAddress = [] ∨ 512 < value.playerAddress.length)
    (label ++ ".playerAddress is invalid")

structure PackOrderIntent where
  intent : PackBatchIntent
  admissionDigest : Text
  requestDigest : Text
  recordedAtMs : Nat
deriving DecidableEq

/-- The packs of an order, or of all orders so far. Only the latter say whether these are all. -/
structure PackBatch where
  packs : List PackRequest
  requestedAtMs : Nat
  generationComplete : Option Bool
deriving DecidableEq

/-- What became of a pack. -/
structure PackOutcome where
  packIndex : Int
  memo : Text
  status : Text
  expectedCardCount : Option Int
  packCost : Option TypedAmount
  signature : Option Text
deriving DecidableEq

/-- A pack of the evidence with which the purchase is completed. -/
structure PackIdentity where
  packIndex : Int
  memo : Text
deriving DecidableEq

/-! ## Events -/

structure IntentPayload where
  stage : Text
  orderIndex : Nat
  intent : PackBatchIntent
  requestDigest : Text
  admissionDigest : Text
  recordedAtMs : Nat

structure RequestPayload where
  stage : Text
  orderIndex : Nat
  packs : List PackRequest
  requestedAtMs : Nat

/-- `stage-request-prepared` and `stage-completed` are those of the purchase. The evidence of the
latter is `none` when it has no array of packs. -/
inductive PackEvent where
  | packOrderIntentRecorded (payload : IntentPayload)
  | packOrderRequestRecorded (payload : RequestPayload)
  | packOrderReconciled (orderIndex : Nat) (outcomes : List PackOutcome)
      (admissionDigest responseDigest : Text)
  | packBatchIntentRecorded
  | packBatchRequestRecorded
  | stageRequestPrepared (requestDigest : Text)
  | stageCompleted (evidence : Option (List PackIdentity))
  | cycleTerminal

/-- What the calls share: the admission of the cycle, its digest, that of a batch that may be
missing, what the journal stores of evidence (a reference to large evidence has no array of
packs), and the size limits of the journal. -/
structure PackContext where
  admission : PlanAdmission
  admissionDigest : Text
  batchDigest : Option PackBatch → Text
  storedEvidence : Option (List PackIdentity) → Option (List PackIdentity)
  fits : List PackEvent → List PackEvent → Bool

structure PackState where
  packBatchIntents : Map Text PackOrderIntent
  packBatchRequests : Map Text PackBatch
  packOrderReconciliations : Map Nat (List PackOutcome)
  stageRequestDigests : List Text
  purchase : Option (Option (List PackIdentity))
  terminal : Bool

def PackState.empty : PackState := ⟨.empty, .empty, .empty, [], none, false⟩

def purchaseKey : Text := text "purchase"

/-- The key of the records of one order. -/
def orderKey (orderIndex : Nat) : Text := text "purchase:" ++ natText orderIndex

/-! ## Replaying an event -/

/-- The checks of a loop, at every item with its position. -/
def forEachIndexed {α : Type} (check : Nat → α → Except String Unit) (xs : List α) :
    Except String Unit :=
  xs.zipIdx.forM fun x => check x.2 x.1

def packOutcomeStatus (status : Text) : Bool :=
  status = text "purchased" || status = text "not_purchased"

/-- The cost that was observed for a pack that was bought. -/
def assertObservedDebit (order : AdmittedOrder) (pack : PackRequest) (outcome : PackOutcome) :
    Except String Unit := do
  let cost ← outcome.packCost.elim (.error "pack order observed debit must use the exact schema") .ok
  assertCost cost "pack order observed debit"
  throwIf (outcome.signature.getD [] = [] ∨ outcome.expectedCardCount ≠ some pack.expectedCardCount ∨
      (cost.chainId ≠ order.unitPurchase.chainId ∧ cost.chainId ≠ text "solana-mainnet") ∨
      cost.assetId ≠ order.unitPurchase.assetId ∨ cost.decimals ≠ order.unitPurchase.decimals ∨
      cost.atomic = 0 ∨ order.unitPurchase.atomic < cost.atomic)
    "pack order reconciliation exceeds its admitted debit or identity"

/-- The loop of `assertPackOrderReconciliation` at one outcome. -/
def assertPackOutcome (order : AdmittedOrder) (packs : List PackRequest) (i : Nat)
    (outcome : PackOutcome) : Except String Unit := do
  let pack ← packs[i]?.elim
    (.error "Cannot read properties of undefined (reading 'packIndex')") .ok
  throwIf (outcome.packIndex ≠ pack.packIndex ∨ outcome.memo ≠ pack.memo ∨
      ¬ packOutcomeStatus outcome.status) "pack order reconciliation identity is invalid"
  if outcome.status = text "purchased" then assertObservedDebit order pack outcome else .ok ()

def assertPackOrderReconciliation (admission : PlanAdmission) (batch : Option PackBatch)
    (orderIndex : Nat) (outcomes : List PackOutcome) : Except String (List PackOutcome) :=
  match admission.orders[orderIndex]?, batch with
  | some order, some batch => do
    throwIf ((outcomes.length : Int) ≠ order.quantity)
      "pack order reconciliation requires the complete generated order"
    forEachIndexed (assertPackOutcome order batch.packs) outcomes
    return outcomes
  | _, _ => .error "pack order reconciliation requires the complete generated order"

/-- The order that an event is about. -/
def eventOrder (admission : PlanAdmission) (stage : Text) (orderIndex : Nat) :
    Except String AdmittedOrder :=
  match admission.orders[orderIndex]? with
  | some order =>
    if stage = purchaseKey then .ok order
    else .error "pack order event requires an admitted plan order"
  | none => .error "pack order event requires an admitted plan order"

/-- The recorded time does not tell two intents apart. -/
def PackOrderIntent.untimed (record : PackOrderIntent) : PackOrderIntent :=
  { record with recordedAtMs := 0 }

namespace PackState

variable (X : PackContext) (s : PackState)

/-- `applyPackOrderEvent`, of an intent. -/
def applyIntent (payload : IntentPayload) : Except String PackState := do
  let order ← eventOrder X.admission payload.stage payload.orderIndex
  let key := orderKey payload.orderIndex
  assertPackBatchIntent payload.intent "pack order intent"
  throwIf (payload.requestDigest ∉ s.stageRequestDigests)
    "pack order intent requires the recorded parent request digest"
  throwIf (payload.intent.packType ≠ some order.packId ∨ payload.intent.quantity ≠ order.quantity ∨
      payload.admissionDigest ≠ X.admissionDigest ∨ ¬ isDigest payload.requestDigest ∨
      maxSafeInteger < payload.recordedAtMs) "pack order intent does not bind its admission"
  throwIf (∃ first ∈ s.packBatchIntents.get purchaseKey,
      first.intent.playerAddress ≠ payload.intent.playerAddress)
    "pack order player differs from the cycle purchase"
  throwIf (0 < payload.orderIndex ∧
      (s.packBatchRequests.get (orderKey (payload.orderIndex - 1))).isNone)
    "pack orders must generate in sequence"
  let record : PackOrderIntent :=
    { intent := payload.intent, admissionDigest := payload.admissionDigest
      requestDigest := payload.requestDigest, recordedAtMs := payload.recordedAtMs }
  throwIf (∃ old ∈ s.packBatchIntents.get key, old.untimed ≠ record.untimed)
    "pack order intent conflicts with prior intent"
  let intents := if (s.packBatchIntents.get key).isSome then s.packBatchIntents
    else s.packBatchIntents.set key record
  return { s with packBatchIntents :=
    if (intents.get purchaseKey).isSome then intents else intents.set purchaseKey record }

/-- `admission.orders.slice(0, orderIndex)`, summed. -/
def orderOffset (orderIndex : Nat) : Int :=
  ((X.admission.orders.take orderIndex).map AdmittedOrder.quantity).sum

/-- The packs of an order, numbered from a position on. -/
def renumbered (offset : Int) (packs : List PackRequest) : List PackRequest :=
  packs.mapIdx fun i pack => { pack with packIndex := offset + i }

/-- `admission.orders.flatMap((_, i) => requests.get(…)?.packs ?? [])`. -/
def generatedPacks (requests : Map Text PackBatch) : List PackRequest :=
  (List.range X.admission.orders.length).flatMap fun i =>
    ((requests.get (orderKey i)).map PackBatch.packs).getD []

/-- `applyPackOrderEvent`, of a request. -/
def applyRequest (payload : RequestPayload) : Except String PackState := do
  let order ← eventOrder X.admission payload.stage payload.orderIndex
  let key := orderKey payload.orderIndex
  let intent ← (s.packBatchIntents.get key).elim
    (.error "pack order response has no durable intent") .ok
  let offset := orderOffset X payload.orderIndex
  throwIf ((payload.packs.length : Int) ≠ order.quantity) "pack order response quantity mismatch"
  throwIf (∃ pack ∈ payload.packs.zipIdx, pack.1.packIndex ≠ offset + pack.2 ∨
      pack.1.packType ≠ some order.packId ∨
      pack.1.expectedCardCount ≠ intent.intent.expectedCardCountPerPack)
    "pack order response identity mismatch"
  let ownPacks := renumbered 0 payload.packs
  assertPackBatchRequest ownPacks "pack batch request"
  throwIf (maxSafeInteger < payload.requestedAtMs ∨ payload.requestedAtMs < intent.recordedAtMs)
    "pack order response time is invalid"
  let packs := renumbered offset ownPacks
  throwIf (∃ old ∈ s.packBatchRequests.get key, old.packs ≠ packs)
    "pack order response conflicts with prior response"
  let requests := if (s.packBatchRequests.get key).isSome then s.packBatchRequests
    else s.packBatchRequests.set key
      { packs, requestedAtMs := payload.requestedAtMs, generationComplete := none }
  let generated := generatedPacks X requests
  assertPackBatchRequest generated "pack batch request"
  let first ← (requests.get (orderKey 0)).elim
    (.error "Cannot read properties of undefined (reading 'requestedAtMs')") .ok
  let purchase : PackBatch :=
    { packs := generated, requestedAtMs := first.requestedAtMs
      generationComplete := some ((generated.length : Int) = X.admission.quantity) }
  return { s with packBatchRequests := requests.set purchaseKey purchase }

/-- The replay of a reconciliation. -/
def applyReconciled (orderIndex : Nat) (outcomes : List PackOutcome)
    (admissionDigest responseDigest : Text) : Except String PackState := do
  let batch := s.packBatchRequests.get (orderKey orderIndex)
  throwIf (admissionDigest ≠ X.admissionDigest ∨ responseDigest ≠ X.batchDigest batch)
    "pack order reconciliation binding mismatch"
  let checked ← assertPackOrderReconciliation X.admission batch orderIndex outcomes
  throwIf (∃ old ∈ s.packOrderReconciliations.get orderIndex, old ≠ checked)
    "pack order reconciliation conflicts with prior outcome"
  return { s with packOrderReconciliations := s.packOrderReconciliations.set orderIndex checked }

/-- The packs of the evidence are those of the purchase. -/
def purchaseReconciled (evidence : Option (List PackIdentity)) : Bool :=
  match s.packBatchRequests.get purchaseKey, evidence with
  | some batch, some packs =>
    batch.generationComplete = some true && (packs.length : Int) = X.admission.quantity &&
      packs.zipIdx.all fun pack =>
        pack.1.packIndex = pack.2 && (batch.packs[pack.2]?).any fun own => pack.1.memo = own.memo
  | _, _ => false

/-- `assertReconciledCompletion`, as far as it is about the plan. -/
def assertReconciledCompletion (evidence : Option (List PackIdentity)) : Except String Unit :=
  throwIf (¬ s.purchaseReconciled X evidence)
    "plan purchase requires reconciliation of every admitted order"

/-- The replay of a completion of the purchase. -/
def applyCompleted (evidence : Option (List PackIdentity)) : Except String PackState := do
  s.assertReconciledCompletion X evidence
  throwIf (∃ previous ∈ s.purchase, previous ≠ evidence)
    "stored stage \"purchase\" has conflicting completion evidence"
  return { s with purchase := some evidence }

/-- `#replayStored` at one event. -/
def apply (e : PackEvent) : Except String PackState := do
  throwIf (s.terminal) "stored cycle has a non-observational event after terminal state"
  match e with
  | .packOrderIntentRecorded payload => s.applyIntent X payload
  | .packOrderRequestRecorded payload => s.applyRequest X payload
  | .packOrderReconciled orderIndex outcomes admissionDigest responseDigest =>
    s.applyReconciled X orderIndex outcomes admissionDigest responseDigest
  | .packBatchIntentRecorded | .packBatchRequestRecorded =>
    .error "plan admission refuses legacy batch events"
  | .stageRequestPrepared requestDigest => do
    throwIf (¬ isDigest requestDigest) "stored stage request digest is invalid"
    return { s with stageRequestDigests :=
      if requestDigest ∈ s.stageRequestDigests then s.stageRequestDigests
      else s.stageRequestDigests ++ [requestDigest] }
  | .stageCompleted evidence => s.applyCompleted X evidence
  | .cycleTerminal => return { s with terminal := true }

end PackState

/-! ## Writers -/

inductive PackCall where
  | recordPackOrderIntent (orderIndex : Nat) (intent : PackBatchIntent) (requestDigest : Text)
      (now : Nat)
  | recordPackOrderRequest (orderIndex : Nat) (packs : List PackRequest) (now : Nat)
  | recordPackOrderReconciliation (orderIndex : Nat) (outcomes : List PackOutcome)
  | recordStageRequestDigest (requestDigest : Text)
  | completeStage (evidence : Option (List PackIdentity))
  | holdCycle

inductive PackKept where
  | intent (payload : IntentPayload)
  | request (payload : RequestPayload)
  | reconciliation (orderIndex : Nat) (outcomes : List PackOutcome) (batch : Option PackBatch)
  | completion (evidence : Option (List PackIdentity))
  | append (e : PackEvent)

inductive PackAnswer where
  | intent (record : Option PackOrderIntent)
  | request (batch : Option PackBatch)
  | outcomes (outcomes : List PackOutcome)
  | recorded

namespace PackState

variable (X : PackContext) (s : PackState)

def assertOrderMutation : Except String Unit :=
  throwIf s.terminal "terminal cycle refuses pack order mutation"

def recordPackOrderIntent (orderIndex : Nat) (intent : PackBatchIntent) (requestDigest : Text)
    (now : Nat) : Except String (Reading PackKept PackAnswer) := do
  let payload : IntentPayload :=
    { stage := purchaseKey, orderIndex, intent, requestDigest
      admissionDigest := X.admissionDigest, recordedAtMs := now }
  s.assertOrderMutation
  let _ ← s.applyIntent X payload
  let existing := s.packBatchIntents.get (orderKey orderIndex)
  return if existing.isSome then .answer (.intent existing) else .keep (.intent payload)

def recordPackOrderRequest (orderIndex : Nat) (packs : List PackRequest) (now : Nat) :
    Except String (Reading PackKept PackAnswer) := do
  let payload : RequestPayload :=
    { stage := purchaseKey, orderIndex, packs, requestedAtMs := now }
  s.assertOrderMutation
  let _ ← s.applyRequest X payload
  let existing := s.packBatchRequests.get (orderKey orderIndex)
  return if existing.isSome then .answer (.request existing) else .keep (.request payload)

def recordPackOrderReconciliation (orderIndex : Nat) (outcomes : List PackOutcome) :
    Except String (Reading PackKept PackAnswer) := do
  let batch := s.packBatchRequests.get (orderKey orderIndex)
  let checked ← assertPackOrderReconciliation X.admission batch orderIndex outcomes
  match s.packOrderReconciliations.get orderIndex with
  | some existing => do
    throwIf (existing ≠ checked) "pack order reconciliation conflicts with prior outcome"
    return .answer (.outcomes existing)
  | none => return .keep (.reconciliation orderIndex checked batch)

def recordStageRequestDigest (requestDigest : Text) :
    Except String (Reading PackKept PackAnswer) := do
  throwIf (¬ isDigest requestDigest)
    "cycle-repository recordStageRequestDigest: request digest is invalid"
  return if requestDigest ∈ s.stageRequestDigests then .answer .recorded
    else .keep (.append (.stageRequestPrepared requestDigest))

/-- `completeStage`, of the purchase. -/
def completeStage (evidence : Option (List PackIdentity)) :
    Except String (Reading PackKept PackAnswer) := do
  throwIf s.terminal "cycle-repository completeStage: cycle is terminally held"
  match s.purchase with
  | some current => do
    throwIf (current ≠ X.storedEvidence evidence)
      ("cycle-repository completeStage: stage \"purchase\" was already completed with " ++
        "different evidence")
    return .answer .recorded
  | none => do
    s.assertReconciledCompletion X evidence
    return .keep (.completion evidence)

/-- What a call does once it has read the state. -/
def read : PackCall → Except String (Reading PackKept PackAnswer)
  | .recordPackOrderIntent orderIndex intent requestDigest now =>
    s.recordPackOrderIntent X orderIndex intent requestDigest now
  | .recordPackOrderRequest orderIndex packs now => s.recordPackOrderRequest X orderIndex packs now
  | .recordPackOrderReconciliation orderIndex outcomes =>
    s.recordPackOrderReconciliation X orderIndex outcomes
  | .recordStageRequestDigest requestDigest => s.recordStageRequestDigest requestDigest
  | .completeStage evidence => s.completeStage X evidence
  | .holdCycle => .ok (if s.terminal then .answer .recorded else .keep (.append .cycleTerminal))

/-- What a call appends in the state of that moment, and the records that it then answers with. -/
def append : PackKept → Except String (List PackEvent × PackAnswer)
  | .intent payload => do
    s.assertOrderMutation
    let t ← s.applyIntent X payload
    return ([.packOrderIntentRecorded payload],
      .intent (t.packBatchIntents.get (orderKey payload.orderIndex)))
  | .request payload => do
    s.assertOrderMutation
    let t ← s.applyRequest X payload
    return ([.packOrderRequestRecorded payload],
      .request (t.packBatchRequests.get (orderKey payload.orderIndex)))
  | .reconciliation orderIndex outcomes batch => do
    throwIf (s.terminal ∨ s.packBatchRequests.get (orderKey orderIndex) ≠ batch)
      "pack order changed during reconciliation"
    return ([.packOrderReconciled orderIndex outcomes X.admissionDigest (X.batchDigest batch)],
      .outcomes outcomes)
  | .completion evidence => do
    throwIf s.purchase.isSome
      "cycle-repository completeStage: stage \"purchase\" changed while completing"
    s.assertReconciledCompletion X evidence
    return ([.stageCompleted (X.storedEvidence evidence)], .recorded)
  | .append e => .ok ([e], .recorded)

end PackState

/-- The writers of the pack orders of a cycle. -/
def packWriters (X : PackContext) :
    Writers PackState PackEvent PackCall PackKept PackAnswer where
  apply s e := s.apply X e
  init := .empty
  fits := X.fits
  read s c := s.read X c
  append s p := s.append X p

end Hookemon.Repository
