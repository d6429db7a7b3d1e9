import Hookemon.Runner.CycleEvidence

/-! # The state of a cycle (`cycle/reducer.mjs`)

What the journal events of a cycle have said so far, and the events themselves. A slot of
an authorization is the digest of an action digest and of a kind; it stands here for the
pair.
-/

namespace Hookemon.Runner.CycleReducer

open Hookemon.Core Hookemon.Js

/-! ## State -/

inductive Stage
  | prepared | outboundFinalized | purchaseFinalized | openReconciled | buybackFinalized
  | returnFinalized | closed
deriving DecidableEq, Repr

/-- The stage after a stage, by `transitionOrder`. -/
def Stage.following : Stage → Option Stage
  | .prepared => some .outboundFinalized
  | .outboundFinalized => some .purchaseFinalized
  | .purchaseFinalized => some .openReconciled
  | .openReconciled => some .buybackFinalized
  | .buybackFinalized => some .returnFinalized
  | .returnFinalized => some .closed
  | .closed => none

/-- `actionStage`: the stage at which an action may be prepared. -/
def actionStage : ActionKind → Stage
  | .outbound => .prepared
  | .purchase => .outboundFinalized
  | .buyback => .openReconciled
  | .returned => .buybackFinalized

abbrev AuthorizationSlot := Digest × AuthorizationKind

structure CollectorState where
  generateIntent : Option CollectorIntent
  openIntent : Option CollectorIntent
  authorizations : Map CollectorAction CollectorAuthorization
  generated : Option CollectorGenerated
  verifiedStatus : Option CollectorStatus
  opened : Option CollectorRequest
  openExecution : Option OpenExecution
  openCustody : Option OpenCustodyRecord

structure State where
  cycleId : Text
  head : Option Digest
  stage : Stage
  version : Nat
  frozenControl : Option FrozenControl
  preflight : Option Preflight
  nativeGasReserved : Map GasChain Nat
  nativeGasUsed : Map GasChain Nat
  walletBinding : Option WalletBinding
  finalizedBlockHeightByChain : Map (Text × Text) Nat
  actions : Map Digest PreparedAction
  actionByKind : Map ActionKind Digest
  approvals : Map AuthorizationSlot Approval
  consumedApprovals : Map AuthorizationSlot ConsumedApproval
  decoded : Map Digest DecodedMessage
  signed : Map Digest SignedRecord
  blockhashValidity : Map Digest BlockhashValidity
  broadcasts : Map Digest BroadcastRecord
  receipts : Map Digest ProviderReceipt
  receiptIdentities : Finset Digest
  consumedReceipts : Finset Digest
  consumedByAction : Map ActionKind Digest
  executionAccounting : Map Digest ExecutionAccounting
  externalMutations : Map Digest ExternalMutation
  proceeds : Map Digest ConsumedProceeds
  distributionVerification : Option DistributionReceipt
  payoutFundingPreparation : Option PayoutFunding
  collector : CollectorState
  postOpenBuybackApproval : Option PostOpenApproval
  closedLedger : Option ClosedLedger

def createCycleReducerState (cycleId : Text) : State where
  cycleId := cycleId
  head := none
  stage := .prepared
  version := 0
  frozenControl := none
  preflight := none
  nativeGasReserved := .empty
  nativeGasUsed := .empty
  walletBinding := none
  finalizedBlockHeightByChain := .empty
  actions := .empty
  actionByKind := .empty
  approvals := .empty
  consumedApprovals := .empty
  decoded := .empty
  signed := .empty
  blockhashValidity := .empty
  broadcasts := .empty
  receipts := .empty
  receiptIdentities := ∅
  consumedReceipts := ∅
  consumedByAction := .empty
  executionAccounting := .empty
  externalMutations := .empty
  proceeds := .empty
  distributionVerification := none
  payoutFundingPreparation := none
  collector :=
    { generateIntent := none
      openIntent := none
      authorizations := .empty
      generated := none
      verifiedStatus := none
      opened := none
      openExecution := none
      openCustody := none }
  postOpenBuybackApproval := none
  closedLedger := none

def CollectorState.intent (collector : CollectorState) : CollectorAction → Option CollectorIntent
  | .generate => collector.generateIntent
  | .openPack => collector.openIntent

/-! ## Events -/

/-- The payloads of the journal events. The kind `collector-status-consumed` is always
rejected, like every unknown kind. -/
inductive EventBody
  | cycleControlBound (control : FrozenControl)
  | cyclePreflightRecorded (preflight : Preflight) (preflightDigest : Digest)
  | intentPrepared (action : Action) (digests : ActionDigests)
  | ownerApprovalRecorded (approval : Approval)
  | ownerApprovalConsumed (actionDigest : Digest) (authorizationKind : AuthorizationKind)
      (subjectDigest approvalKey : Digest) (validatedAt : Nat)
  | fixtureMessageDecoded (actionDigest : Digest) (messageBytes : Text) (messageDigest : Digest)
  | signedBytesRecorded (signed : SignedRecord)
  | blockhashValidityVerified (evidence : BlockhashEvidence)
  | broadcastRecorded (broadcast : BroadcastRecord)
  | providerReceiptVerified (receipt : ProviderReceipt) (receiptDigest registryKey : Digest)
  | executionAccountingVerified (evidence : ExecutionAccounting)
  | receiptConsumed (receiptDigest registryKey : Digest)
  | cycleTransitioned (expectedVersion : Nat) (expectedJournalHead : Option Digest)
      (predecessor next : Stage) (evidence : List Digest)
  | proceedsConsumed (receiptDigest proceedsKey : Digest)
  | distributionVerificationRecorded (receipt : DistributionReceipt)
  | payoutFundingPrepared (funding : PayoutFunding)
  | collectorGenerateConsumed (binding : Binding) (preflightDigest : Digest)
      (response : GenerateResponse)
  | collectorIntentPrepared (action : CollectorAction) (request : CollectorRequest)
      (requestDigest : Digest)
  | collectorMutationAuthorizationConsumed (request : CollectorRequest) (binding : Binding)
      (authorization : CollectorAuthorizationInput)
  | collectorStatusVerified (status : CollectorStatus)
  | collectorOpened (opening : CollectorRequest) (execution : OpenExecution)
  | collectorOpenCustodyVerified (custody : OpenCustody) (rpcFinality : RpcFinality)
  | postOpenBuybackApprovalConsumed (approval : PostOpenApproval)
  | externalMutationAttempted (requestDigest : Digest) (identity : MutationIdentity)
  | externalMutationReconciled (requestDigest : Digest) (actionKind : MutationKind)
      (evidence : ReconciliationEvidence)
  | externalMutationVoided (requestDigest : Digest) (proof : VoidProof)
  | externalMutationSuperseded (requestDigest : Digest) (provider rpc : SupersedeEvidence)
      (authorization : SupersessionAuthorization)

/-- A journal event, with the moment at which it is reduced. -/
structure CycleEvent where
  cycleId : Text
  previousDigest : Option Digest
  digest : Digest
  body : EventBody
  now : Nat

/-! ## Reading the state -/

/-- `requiredAuthorizationSubject`. -/
def requiredAuthorizationSubject (state : State) (actionDigest : Digest) :
    AuthorizationKind → Except String Digest
  | .mutation => return actionDigest
  | .sign => match state.decoded.get actionDigest with
    | none => .error "decoded fixture message is required before sign authorization"
    | some decoded => return decoded.messageDigest
  | kind => match state.signed.get actionDigest with
    | none =>
      .error ("signed fixture bytes are required before " ++ kind.name ++ " authorization")
    | some signed => return signed.signedBytesDigest

/-- `consumedAuthorization`. -/
def consumedAuthorization (state : State) (actionDigest : Digest) (kind : AuthorizationKind)
    (subjectDigest : Digest) : Except String ConsumedApproval :=
  let message := "consumed " ++ kind.name ++ " authorization is required"
  match state.consumedApprovals.get (actionDigest, kind) with
  | none => .error message
  | some consumed => do
    revertIf (consumed.subjectDigest ≠ subjectDigest) message
    return consumed

/-- `actionExecution`. -/
def actionExecution (state : State) (actionDigest : Digest) : Except String ActionExecution :=
  match state.actions.get actionDigest, state.decoded.get actionDigest,
    state.signed.get actionDigest, state.broadcasts.get actionDigest with
  | some prepared, some decoded, some signed, some broadcast =>
    return {
      digests := prepared.digests
      messageDigest := decoded.messageDigest
      signedBytesDigest := signed.signedBytesDigest
      broadcastSignature := broadcast.broadcastSignature }
  | _, _, _, _ => .error "fixture receipt requires decoded, signed, and broadcast evidence"

/-- `chainKeyForReceipt`. -/
def chainKeyForReceipt (receipt : ProviderReceipt) : Text × Text := (receipt.chain, receipt.cluster)

section Staging

variable (store : EvidenceStore)

/-- Consume an authorization in the store and stage it, where the handler asks for its key. -/
def stageAuthorization (record : StoredAuthorization) (key : Digest) (mismatch : String) :
    Except String Staged := do
  let consumed ← store.consumeAuthorization record
  revertIf (record.key ≠ key ∨ consumed ≠ key) mismatch
  return ⟨some record, none⟩

/-- Nothing is staged beside the event. -/
def Staged.nothing : Staged := ⟨none, none⟩

end Staging

end Hookemon.Runner.CycleReducer
