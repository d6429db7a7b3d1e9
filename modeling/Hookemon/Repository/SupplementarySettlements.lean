import Hookemon.Repository.HeldPositions

/-! # Supplementary settlements (`app/cycle-repository.mjs`)

A held position that the owner sells after its cycle is settled on its own: the card is bought
back, the proceeds return over the bridge and are paid out. The boundaries of this settlement are
journaled one by one, each with its evidence. The boundary of the return fixes what is paid out,
and the boundaries after it carry that one along.
-/

namespace Hookemon.Repository.Held

open Hookemon.Core Hookemon.Js Hookemon.Runner

/-! ## Settlements -/

inductive SettlementState where
  | prepared | buybackSentUnknown | returnBroadcast | payoutBroadcast | complete
deriving DecidableEq, Repr

/-- `SUPPLEMENTARY_SETTLEMENT_TRANSITIONS`. -/
def SettlementState.next : SettlementState → List SettlementState
  | .prepared => [.buybackSentUnknown]
  | .buybackSentUnknown => [.returnBroadcast]
  | .returnBroadcast => [.payoutBroadcast]
  | .payoutBroadcast => [.complete]
  | .complete => []

structure SupplementarySettlement where
  positionId : Text
  cycleId : Text
  manifestId : Text
  state : SettlementState
  positionEvidenceDigest : Text
  eligibilitySnapshotEvidenceDigest : Text
  payoutSourceDigest : Option Text
deriving DecidableEq

def manifestLead (cycleId : Text) : Text := cycleId ++ text ":supplementary:"

def assertSupplementarySettlement (value : SupplementarySettlement) (label : String) :
    Except String SupplementarySettlement := do
  throwIf (¬ isHeldPositionId value.positionId) (label ++ ".positionId is invalid")
  throwIf (value.cycleId = []) (label ++ ".cycleId is invalid")
  throwIf (¬ manifestLead value.cycleId <+: value.manifestId) (label ++ ".manifestId is invalid")
  throwIf (¬ isDigest value.positionEvidenceDigest) (label ++ ".positionEvidenceDigest is invalid")
  throwIf (¬ isDigest value.eligibilitySnapshotEvidenceDigest)
    (label ++ ".eligibilitySnapshotEvidenceDigest is invalid")
  if value.state ∈ [.returnBroadcast, .payoutBroadcast, .complete] then
    throwIf (¬ value.payoutSourceDigest.any isDigest)
      (label ++ ".payoutSourceDigest is required after the supplementary return boundary")
  else
    throwIf (value.payoutSourceDigest ≠ none)
      (label ++ ".payoutSourceDigest is invalid before the supplementary return boundary")
  return value

/-- `supplementarySettlementFor`. -/
def supplementarySettlementFor (position : HeldPosition) (index : Nat) (snapshotDigest : Text) :
    Except String SupplementarySettlement := do
  throwIf (index < 1 ∨ maxSafeInteger < index) "supplementary settlement index is invalid"
  throwIf (¬ isDigest snapshotDigest)
    "supplementary settlement eligibility snapshot evidence digest is invalid"
  return { positionId := position.positionId, cycleId := position.card.cycleId
           manifestId := manifestLead position.card.cycleId ++ natText index
           state := .prepared, positionEvidenceDigest := position.evidenceDigest
           eligibilitySnapshotEvidenceDigest := snapshotDigest, payoutSourceDigest := none }

/-! ## The return boundary -/

/-- What is read of the proof that the proceeds arrived. -/
structure ReturnProof where
  relayRequestId : Text
  sourceTxHash : Text
  destinationTxHash : Text
  observedAmountAtomic : Text
  observedRecipient : Text
  timestampUnixSeconds : Int
  sourceTransactionDigest : Text
  orderId : Text
  recipient : Text
  details : Text
deriving DecidableEq

structure FinalizedReturnEvidence where
  schema : Text
  positionId : Text
  cycleId : Text
  manifestId : Text
  operations : Text
  assetId : Text
  amountAtomic : Text
  finalityEvidence : ReturnProof
deriving DecidableEq

structure ReturnBoundaryEvidence where
  schema : Text
  positionId : Text
  cycleId : Text
  manifestId : Text
  finalizedReturnEvidence : FinalizedReturnEvidence
deriving DecidableEq

structure ReturnBinding where
  operations : Text
  assetId : Text
  evidenceDigest : Text
deriving DecidableEq

structure PayoutDustSource where
  cycleId : Text
  digest : Text
  planDigest : Text
deriving DecidableEq

structure PayoutSource where
  schema : Text
  positionId : Text
  cycleId : Text
  manifestId : Text
  finalizedReturn : TypedAmount
  previousDust : TypedAmount
  previousDustSource : Option PayoutDustSource
  returnBinding : ReturnBinding
deriving DecidableEq

/-- The evidence of a boundary: that of the return is checked, any other is only cloned. -/
inductive BoundaryEvidence where
  | returned (evidence : ReturnBoundaryEvidence)
  | plain (evidence : Text)
deriving DecidableEq

/-- The digests of the settlements, by what they are taken of. -/
structure SettlementDigests where
  returnBinding : FinalizedReturnEvidence → Text
  payoutSource : PayoutSource → Text
  boundary : Text → Text → SettlementState → BoundaryEvidence → Option Text → Text

def payoutSourceSchema : Text := text "hookemon.supplementary-payout-source.v2"
def returnBoundarySchema : Text := text "hookemon.supplementary-return-boundary.v2"
def finalizedReturnSchema : Text := text "hookemon.supplementary-finalized-return.v2"

def assertEvmAddress (value : Text) (label : String) : Except String Text := do
  throwIf (¬ isAddress value) (label ++ " is invalid")
  return toLowerCase value

def assertNativeAssetId (value : Text) (label : String) : Except String Unit :=
  throwIf (value ≠ nativeAsset) (label ++ " must be native")

/-- The record names the settlement. -/
def assertBindsSettlement (settlement : SupplementarySettlement)
    (positionId cycleId manifestId : Text) (label : String) : Except String Unit :=
  throwIf (positionId ≠ settlement.positionId ∨ cycleId ≠ settlement.cycleId ∨
    manifestId ≠ settlement.manifestId) (label ++ " does not bind its supplementary settlement")

section Boundary

variable (D : SettlementDigests) (settlement : SupplementarySettlement)

/-- `assertSupplementaryFinalizedReturnEvidence`: the evidence as it is kept. -/
def assertSupplementaryFinalizedReturnEvidence (value : FinalizedReturnEvidence) (label : String) :
    Except String FinalizedReturnEvidence := do
  throwIf (value.schema ≠ finalizedReturnSchema) (label ++ ".schema is invalid")
  assertBindsSettlement settlement value.positionId value.cycleId value.manifestId label
  let operations ← assertEvmAddress value.operations (label ++ ".operations")
  assertNativeAssetId value.assetId (label ++ ".assetId")
  assertHeldPositionAtomic value.amountAtomic (label ++ ".amountAtomic")
  return { value with operations }

/-- `assertSupplementaryReturnBoundaryEvidence`: the evidence as it is kept. -/
def assertSupplementaryReturnBoundaryEvidence (value : ReturnBoundaryEvidence) (label : String) :
    Except String ReturnBoundaryEvidence := do
  throwIf (value.schema ≠ returnBoundarySchema) (label ++ ".schema is invalid")
  assertBindsSettlement settlement value.positionId value.cycleId value.manifestId label
  let finalizedReturnEvidence ← assertSupplementaryFinalizedReturnEvidence settlement
    value.finalizedReturnEvidence (label ++ ".finalizedReturnEvidence")
  return { value with finalizedReturnEvidence }

/-- An amount of the native asset on its chain. -/
def nativeAmount (amountAtomic : Text) : TypedAmount :=
  ⟨nativePayoutChainId, nativeAsset, nativePayoutDecimals, amountAtomic⟩

def assertSupplementaryPayoutSourceAmount (value : TypedAmount) (expectedAssetId : Text)
    (label : String) : Except String Unit := do
  assertCost value label
  throwIf (value.chainId ≠ nativePayoutChainId ∨ value.decimals ≠ nativePayoutDecimals ∨
      value.assetId ≠ nativeAsset ∨ expectedAssetId ≠ nativeAsset)
    (label ++ " must identify the bound chain 4663 native ETH asset")

def assertPayoutDustSource (value : PayoutDustSource) (label : String) : Except String Unit := do
  throwIf (value.cycleId = []) (label ++ " cycleId is invalid")
  Runner.assertDigest value.digest (label ++ " digest")
  Runner.assertDigest value.planDigest (label ++ " planDigest")

def assertSupplementaryReturnBinding (value : ReturnBinding) (label : String) :
    Except String ReturnBinding := do
  let operations ← assertEvmAddress value.operations (label ++ ".operations")
  assertNativeAssetId value.assetId (label ++ ".assetId")
  Runner.assertDigest value.evidenceDigest (label ++ ".evidenceDigest")
  return { value with operations }

def assertSupplementaryPayoutSource (value : PayoutSource) (label : String) :
    Except String PayoutSource := do
  throwIf (value.schema ≠ payoutSourceSchema) (label ++ ".schema is invalid")
  assertBindsSettlement settlement value.positionId value.cycleId value.manifestId label
  let returnBinding ← assertSupplementaryReturnBinding value.returnBinding (label ++ ".returnBinding")
  assertSupplementaryPayoutSourceAmount value.finalizedReturn returnBinding.assetId
    (label ++ ".finalizedReturn")
  assertSupplementaryPayoutSourceAmount value.previousDust returnBinding.assetId
    (label ++ ".previousDust")
  value.previousDustSource.forM fun source =>
    assertPayoutDustSource source (label ++ ".previousDustSource")
  throwIf ((value.previousDust.amountAtomic = text "0") ≠ (value.previousDustSource = none))
    (label ++ " previous dust provenance is invalid")
  throwIf (∃ source ∈ value.previousDustSource, source.cycleId ≠ settlement.cycleId)
    (label ++ " must use the original cycle's normal payout dust source")
  return { value with returnBinding }

/-- `supplementaryPayoutSourceForReturnBoundary`: the whole return, and no dust. -/
def supplementaryPayoutSourceForReturnBoundary (boundary : ReturnBoundaryEvidence)
    (label : String) : Except String PayoutSource :=
  let finalized := boundary.finalizedReturnEvidence
  assertSupplementaryPayoutSource settlement
    { schema := payoutSourceSchema, positionId := settlement.positionId
      cycleId := settlement.cycleId, manifestId := settlement.manifestId
      finalizedReturn := nativeAmount finalized.amountAtomic, previousDust := nativeAmount (text "0")
      previousDustSource := none
      returnBinding := { operations := finalized.operations, assetId := finalized.assetId
                         evidenceDigest := D.returnBinding finalized } } label

/-! ## What is kept of a boundary -/

/-- The boundary of the return, as the boundaries after it carry it along. -/
structure DurableBoundary where
  evidenceDigest : Text
  evidence : BoundaryEvidence
  payoutSource : PayoutSource
deriving DecidableEq

structure SettlementEvidence where
  state : SettlementState
  evidenceDigest : Text
  evidence : BoundaryEvidence
  payoutSource : Option PayoutSource
  returnBoundary : Option DurableBoundary
deriving DecidableEq

def supplementarySettlementEvidenceFor (state : SettlementState) (evidence : BoundaryEvidence)
    (payoutSource : Option PayoutSource) (returnBoundary : Option DurableBoundary) :
    SettlementEvidence :=
  { state
    evidenceDigest := D.boundary settlement.positionId settlement.manifestId state evidence
      (payoutSource.bind fun _ => settlement.payoutSourceDigest)
    evidence, payoutSource, returnBoundary }

/-- The record of the return boundary: the one kept last, or the one that it carries. -/
def keptReturnBoundary (record : Option SettlementEvidence) :
    Option (Text × BoundaryEvidence × Option PayoutSource) :=
  record.bind fun record =>
    if record.state = .returnBroadcast then
      some (record.evidenceDigest, record.evidence, record.payoutSource)
    else record.returnBoundary.map fun boundary =>
      (boundary.evidenceDigest, boundary.evidence, some boundary.payoutSource)

def durableSupplementaryReturnBoundary (record : Option SettlementEvidence) (label : String) :
    Except String DurableBoundary := do
  let boundary ← (keptReturnBoundary record).elim
    (.error (label ++ " is missing the durable return boundary")) .ok
  let source ← boundary.2.2.elim (.error (label ++ " payout source must be a plain object")) .ok
  let payoutSource ← assertSupplementaryPayoutSource settlement source (label ++ " payout source")
  throwIf (some (D.payoutSource payoutSource) ≠ settlement.payoutSourceDigest)
    (label ++ " does not match the settlement payout source digest")
  Runner.assertDigest boundary.1 (label ++ " evidence digest")
  return { evidenceDigest := boundary.1, evidence := boundary.2.1, payoutSource }

end Boundary

/-! ## Custody and proceeds of the return -/

/-- The row of the native asset. The fields that a return does not touch are kept as their
canonical JSON. -/
structure NativeCustody where
  schema : Text
  returnReceived : Text
  others : Text
deriving DecidableEq

def custodyLedgerV3 : Text := text "hookemon.custody-ledger.v3"

/-- `supplementaryNativeReturnCustody`, with the check of the fields that stay. -/
def supplementaryNativeReturnCustody (assertOthers : Text → Except String Unit)
    (previous : Option NativeCustody) (amountAtomic : Text) : Except String NativeCustody := do
  match previous with
  | some row => do
    throwIf (row.schema ≠ custodyLedgerV3)
      "native supplementary return requires the existing native custody and gas reservation"
    throwIf (¬ isDecimal amountAtomic) "Cannot convert to a BigInt"
    throwIf (textNat amountAtomic = 0) "native supplementary return amount must be positive"
    let next := { row with
      returnReceived := natText (textNat row.returnReceived + textNat amountAtomic) }
    throwIf (¬ isDecimal next.returnReceived) "custody ledger returnReceived is invalid"
    assertOthers next.others
    return next
  | none =>
    .error "native supplementary return requires the existing native custody and gas reservation"

structure ReturnIntent where
  orderId : Text
  recipient : Text
  details : Text
deriving DecidableEq

/-- The value of the proceeds in dollars, as the relay quoted it. -/
structure DestinationUsd where
  amount : TypedAmount
  rounding : Text
  sourcePath : Text
  quoteRequestId : Text
  observedAtMs : Int
  validUntilMs : Int
  details : Text
deriving DecidableEq

structure RealizedProceeds where
  destinationUsd : DestinationUsd
  destinationUsdEvidence : Text
  relayRequestId : Text
  intent : ReturnIntent
deriving DecidableEq

/-- The attempt of the return that the process persisted. -/
structure ReturnSource where
  schema : Text
  rawSignedBytes : Option Text
  intent : Option ReturnIntent
  relayRequestId : Text
  destinationAmountAtomic : Option Text
  destinationUsd : Option DestinationUsd
  destinationUsdEvidence : Option Text
deriving DecidableEq

/-- The quoted value is that of the proceeds, at the time they arrived. -/
def DestinationUsd.isOf (usd : DestinationUsd) (proof : ReturnProof) : Bool :=
  let settledAt := proof.timestampUnixSeconds * 1000
  usd.amount.chainId = nativePayoutChainId && usd.amount.assetId = nativeAsset &&
    usd.amount.decimals = nativePayoutDecimals &&
    usd.amount.amountAtomic = proof.observedAmountAtomic && usd.rounding = text "down" &&
    usd.sourcePath = text "details.currencyOut.amountUsd" &&
    usd.quoteRequestId = proof.relayRequestId &&
    -maxSafeInteger ≤ settledAt && settledAt ≤ maxSafeInteger &&
    usd.observedAtMs ≤ settledAt && settledAt < usd.validUntilMs

/-- `supplementaryRealizedProceeds`, of a value with its evidence. -/
def realizedProceedsOf (validate : RealizedProceeds → Except String Unit)
    (proceeds : RealizedProceeds) (proof : ReturnProof) :
    Except String (Option RealizedProceeds) := do
  validate proceeds
  return if proceeds.destinationUsd.isOf proof then some proceeds else none

/-- `supplementaryRealizedProceeds`. -/
def supplementaryRealizedProceeds (validate : RealizedProceeds → Except String Unit)
    (source : ReturnSource) (proof : ReturnProof) : Except String (Option RealizedProceeds) :=
  match source.destinationUsd, source.destinationUsdEvidence, source.intent with
  | some destinationUsd, some destinationUsdEvidence, some intent =>
    realizedProceedsOf validate
      { destinationUsd, destinationUsdEvidence, relayRequestId := source.relayRequestId, intent }
      proof
  | _, _, _ => .ok none

end Hookemon.Repository.Held
