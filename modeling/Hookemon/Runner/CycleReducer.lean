import Hookemon.Runner.CycleActions
import Hookemon.Runner.CycleClosing
import Hookemon.Runner.CycleMutations

/-! # The reducer of a cycle's journal (`cycle/reducer.mjs`)

`reduceCycleEvent` checks one event against the state before it and says what the event
changes, and what it consumes in the evidence store. An event that is rejected leaves no
trace: the state is cloned before and the transaction is dropped.
-/

namespace Hookemon.Runner.CycleReducer

open Hookemon.Core Hookemon.Js

section Handlers

variable (profile : EvidenceProfile) (store : EvidenceStore)

/-- A handler that consumes nothing. -/
def withoutRecords (state : Except String State) : Except String (State × Staged) := do
  let next ← state
  return (next, .nothing)

/-- The handler of an event. -/
def handleEvent (state : State) (event : CycleEvent) : Except String (State × Staged) :=
  match event.body with
  | .cycleControlBound control => withoutRecords (bindCycleControl profile state control)
  | .cyclePreflightRecorded preflight preflightDigest =>
    withoutRecords (verifyPreflight profile state event.now preflight preflightDigest)
  | .intentPrepared action digests => withoutRecords (verifyIntent profile state action digests)
  | .ownerApprovalRecorded approval =>
    withoutRecords (verifyApproval profile state event.now approval)
  | .ownerApprovalConsumed actionDigest kind subjectDigest approvalKey validatedAt =>
    consumeApproval profile store state actionDigest kind subjectDigest approvalKey validatedAt
  | .fixtureMessageDecoded actionDigest messageBytes messageDigest =>
    withoutRecords (verifyDecode profile state actionDigest messageBytes messageDigest)
  | .signedBytesRecorded signed => withoutRecords (verifySigned profile state event.now signed)
  | .blockhashValidityVerified evidence =>
    withoutRecords (verifyBlockhashValidity profile state event evidence)
  | .broadcastRecorded broadcast => withoutRecords (verifyBroadcast state event broadcast)
  | .providerReceiptVerified receipt receiptDigest registryKey =>
    withoutRecords (verifyReceipt profile state event.now receipt receiptDigest registryKey)
  | .executionAccountingVerified evidence =>
    withoutRecords (verifyExecutionAccounting profile state event.now evidence)
  | .receiptConsumed receiptDigest registryKey =>
    consumeReceipt profile store state receiptDigest registryKey
  | .cycleTransitioned expectedVersion expectedJournalHead predecessor next evidence =>
    withoutRecords
      (transition profile state event expectedVersion expectedJournalHead predecessor next evidence)
  | .proceedsConsumed receiptDigest proceedsKey =>
    withoutRecords (consumeProceeds profile state receiptDigest proceedsKey)
  | .distributionVerificationRecorded receipt =>
    withoutRecords (recordDistributionVerification profile state event receipt)
  | .payoutFundingPrepared funding => prepareFunding profile store state event funding
  | .collectorGenerateConsumed binding preflightDigest response =>
    withoutRecords (collectorGenerate profile state binding preflightDigest response)
  | .collectorIntentPrepared .generate request requestDigest =>
    withoutRecords (collectorGenerateIntent profile state request requestDigest)
  | .collectorIntentPrepared .openPack request requestDigest =>
    withoutRecords (collectorOpenIntent profile state request requestDigest)
  | .collectorMutationAuthorizationConsumed request binding authorization =>
    collectorMutationAuthorization profile store state event.now request binding authorization
  | .collectorStatusVerified status =>
    withoutRecords (verifiedCollectorStatus profile state event.now status)
  | .collectorOpened opening execution =>
    withoutRecords (collectorOpen profile state event.now opening execution)
  | .collectorOpenCustodyVerified custody rpcFinality =>
    withoutRecords (verifiedCollectorOpenCustody profile state event.now custody rpcFinality)
  | .postOpenBuybackApprovalConsumed approval =>
    postOpenBuybackApproval profile store state event.now approval
  | .externalMutationAttempted requestDigest identity =>
    withoutRecords (externalMutationAttempted profile state requestDigest identity)
  | .externalMutationReconciled requestDigest actionKind evidence =>
    withoutRecords (externalMutationReconciled profile state requestDigest actionKind evidence)
  | .externalMutationVoided requestDigest proof =>
    withoutRecords (externalMutationVoided profile state requestDigest proof)
  | .externalMutationSuperseded requestDigest provider rpc authorization =>
    externalMutationSuperseded profile store state requestDigest provider rpc authorization

/-- `reduceCycleEvent`: the state after an event and what its transaction has staged. -/
def reduceCycleEvent (state : State) (event : CycleEvent) : Except String (State × Staged) := do
  revertIf (event.cycleId ≠ state.cycleId ∨ event.previousDigest ≠ state.head)
    "journal event does not extend current reducer head"
  let (next, staged) ← handleEvent profile store state event
  return ({ next with head := some event.digest }, staged)

end Handlers

/-! ## Journals -/

/-- A cycle and the store that it shares with other cycles. -/
structure World where
  store : EvidenceStore
  state : State

/-- What happens to a world: an event of the cycle is reduced and committed with one
transaction, or another cycle commits what it has consumed. -/
inductive Occurrence
  | own (event : CycleEvent)
  | elsewhere (cycleId : Text) (staged : Staged)

/-- One occurrence, where it is accepted. -/
def advance (profile : EvidenceProfile) (w : World) : Occurrence → Except String World
  | .own event => do
    let (state, staged) ← reduceCycleEvent profile w.store w.state event
    let store ← w.store.commit w.state.cycleId staged
    return ⟨store, state⟩
  | .elsewhere cycleId staged => do
    let store ← w.store.commit cycleId staged
    return { w with store := store }

/-- A history that is accepted to its end. -/
def journal (profile : EvidenceProfile) (w : World) (history : List Occurrence) :
    Except String World :=
  history.foldlM (advance profile) w

end Hookemon.Runner.CycleReducer
