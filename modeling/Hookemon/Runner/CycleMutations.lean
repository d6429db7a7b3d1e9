import Hookemon.Runner.CycleState

/-! # Mutations outside the runner (`cycle/reducer.mjs`)

The events at the Collector and the life of a mutation: attempted under a consumed
authorization, and then reconciled, voided or superseded.
-/

namespace Hookemon.Runner.CycleReducer

open Hookemon.Core Hookemon.Js

variable (profile : EvidenceProfile) (store : EvidenceStore)

/-! ## The Collector -/

/-- `collectorGenerateIntent`. -/
def collectorGenerateIntent (state : State) (value : CollectorRequest) (requestDigest : Digest) :
    Except String State := do
  let request ← profile.assertRequest value .generate
  revertIf (state.preflight = none ∨ state.stage ≠ .prepared)
    "prepared released-cycle preflight is required for Collector generation"
  revertIf (request.cycleId ≠ state.cycleId
      ∨ requestDigest ≠ profile.requestDigest request .generate)
    "Collector generate intent binding is invalid"
  revertIf state.collector.generateIntent.isSome "Collector generate intent already prepared"
  return { state with
    collector := { state.collector with generateIntent := some ⟨request, requestDigest⟩ } }

/-- What a request and a record at the Collector are about is the same pack for the same
wallets. -/
def sameSubject (request : CollectorRequest) (status : CollectorStatus) : Prop :=
  request.wallet = status.wallet ∧ request.prizeWallet = some status.prizeWallet
    ∧ request.pack = status.pack ∧ request.quantity = status.quantity ∧ request.turbo = status.turbo
deriving Decidable

/-- `collectorOpenIntent`. -/
def collectorOpenIntent (state : State) (value : CollectorRequest) (requestDigest : Digest) :
    Except String State := do
  let request ← profile.assertRequest value .openPack
  match state.collector.verifiedStatus with
  | none => .error "verified ready Collector status is required before the open intent"
  | some status => do
    revertIf (state.stage ≠ .purchaseFinalized)
      "verified ready Collector status is required before the open intent"
    revertIf (request.cycleId ≠ state.cycleId
        ∨ requestDigest ≠ profile.requestDigest request .openPack)
      "Collector open intent binding is invalid"
    revertIf (¬ sameSubject request status) "Collector open intent status binding is invalid"
    revertIf state.collector.openIntent.isSome "Collector open intent already prepared"
    return { state with
      collector := { state.collector with openIntent := some ⟨request, requestDigest⟩ } }

/-- `collectorMutationAuthorization`. -/
def collectorMutationAuthorization (state : State) (now : Nat) (value : CollectorRequest)
    (bindingValue : Binding) (input : CollectorAuthorizationInput) :
    Except String (State × Staged) := do
  let request ← profile.assertRequest value input.action
  let binding ← validateBinding bindingValue
  let authorization ←
    profile.verifyMutationAuthorization now input request input.action binding
  revertIf (state.frozenControl.any fun control => binding ≠ control.binding)
    "Collector authorization binding differs from frozen cycle control"
  revertIf (authorization.cycleId ≠ state.cycleId
      ∨ ¬ (state.collector.intent input.action).any fun intent =>
        intent.requestDigest = authorization.requestDigest ∧ intent.request = request)
    "Collector mutation authorization intent binding is invalid"
  revertIf (state.collector.authorizations.get input.action).isSome
    "Collector mutation authorization already consumed"
  let staged ← stageAuthorization store
    (profile.mutationAuthorizationStoreRecord authorization input.action)
    (profile.mutationAuthorizationDigest authorization)
    "Collector mutation authorization store consumption mismatch"
  return ({ state with
    collector := { state.collector with
      authorizations := state.collector.authorizations.set input.action authorization } }, staged)

/-- The mutation of a request digest was attempted and is not settled. -/
def unresolved (state : State) (requestDigest : Digest) : Bool :=
  (state.externalMutations.get requestDigest).any fun mutation => mutation.status = .unresolved

/-- `collectorGenerate`. -/
def collectorGenerate (state : State) (bindingValue : Binding) (preflightDigest : Digest)
    (response : GenerateResponse) : Except String State := do
  let binding ← validateBinding bindingValue
  revertIf (state.stage ≠ .prepared ∨ ¬ state.preflight.any fun preflight =>
      preflightDigest = preflight.preflightDigest)
    "prepared released-cycle preflight is required for Collector generation"
  match state.collector.generateIntent, state.collector.authorizations.get .generate with
  | some intent, some authorization => do
    revertIf (authorization.requestDigest ≠ intent.requestDigest)
      ("durable Collector generate intent and consumed mutation authorization are required")
    revertIf (¬ unresolved state intent.requestDigest)
      "durable unresolved Collector generate attempt is required"
    revertIf (profile.acceptsGenerateResponse response state.cycleId = false
        ∨ response.cycleId ≠ state.cycleId
        ∨ response.pack ≠ binding.pack ∨ response.pack ≠ intent.request.pack
        ∨ response.quantity ≠ binding.quantity ∨ response.quantity ≠ intent.request.quantity
        ∨ response.turbo ≠ binding.turbo ∨ response.turbo ≠ intent.request.turbo
        ∨ response.wallet ≠ binding.executionWallet ∨ response.wallet ≠ intent.request.wallet
        ∨ response.prizeWallet ≠ authorization.prizeWallet)
      "Collector generate response is invalid"
    revertIf state.collector.generated.isSome "Collector generate response already consumed"
    return { state with
      collector := { state.collector with
        generated := some ⟨binding, preflightDigest, response⟩ } }
  | _, _ =>
    .error "durable Collector generate intent and consumed mutation authorization are required"

/-- `verifiedCollectorStatus`. -/
def verifiedCollectorStatus (state : State) (now : Nat) (value : CollectorStatus) :
    Except String State := do
  let status ← profile.assertVerifiedStatus now value
  match state.collector.generated with
  | none => .error "verified Collector status binding is invalid"
  | some generated => do
    revertIf (state.stage ≠ .purchaseFinalized ∨ status.cycleId ≠ state.cycleId
        ∨ status.wallet ≠ generated.binding.executionWallet
        ∨ status.prizeWallet ≠ generated.response.prizeWallet
        ∨ status.pack ≠ generated.response.pack
        ∨ status.quantity ≠ generated.response.quantity
        ∨ status.turbo ≠ generated.response.turbo
        ∨ status.memo ≠ state.cycleId ++ text ":collector-status")
      "verified Collector status binding is invalid"
    revertIf state.collector.verifiedStatus.isSome "verified Collector status already consumed"
    return { state with
      collector := { state.collector with verifiedStatus := some status } }

/-- The receipt that was consumed for the purchase. -/
def purchaseReceipt (state : State) : Option ProviderReceipt :=
  (state.consumedByAction.get .purchase).bind state.receipts.get

/-- `collectorOpen`. -/
def collectorOpen (state : State) (now : Nat) (value : CollectorRequest)
    (executionValue : OpenExecution) : Except String State := do
  let opening ← profile.assertRequest value .openPack
  let execution ← profile.assertVerifiedOpenExecution now executionValue
  match state.collector.verifiedStatus, state.collector.openIntent,
    state.collector.authorizations.get .openPack with
  | some status, some intent, some authorization => do
    revertIf (state.stage ≠ .purchaseFinalized)
      ("verified status, durable open intent, and consumed mutation authorization are required "
        ++ "before Collector open")
    revertIf (¬ unresolved state intent.requestDigest)
      "durable unresolved Collector open attempt is required"
    match purchaseReceipt state with
    | none => .error "Collector open execution binding is invalid"
    | some receipt => do
      revertIf (opening ≠ intent.request
          ∨ authorization.requestDigest ≠ intent.requestDigest
          ∨ opening.cycleId ≠ state.cycleId
          ∨ ¬ sameSubject opening status
          ∨ execution.cycleId ≠ state.cycleId
          ∨ execution.requestDigest ≠ intent.requestDigest
          ∨ execution.authorizationDigest ≠ profile.mutationAuthorizationDigest authorization
          ∨ execution.wallet ≠ opening.wallet
          ∨ some execution.prizeWallet ≠ opening.prizeWallet
          ∨ execution.packTokenMint ≠ status.packTokenMint
          ∨ execution.packTokenMint ≠ receipt.relation.nftMint
          ∨ execution.packTokenAccount ≠ receipt.relation.nftCustodyAccount
          ∨ execution.memo ≠ opening.memo)
        "Collector open execution binding is invalid"
      revertIf state.collector.opened.isSome "Collector pack is already open"
      return { state with
        collector := { state.collector with
          opened := some opening
          openExecution := some execution } }
  | _, _, _ =>
    .error ("verified status, durable open intent, and consumed mutation authorization are "
      ++ "required before Collector open")

/-- `verifiedCollectorOpenCustody`. -/
def verifiedCollectorOpenCustody (state : State) (now : Nat) (value : OpenCustody)
    (finality : RpcFinality) : Except String State := do
  let custody ← profile.assertVerifiedOpenCustody now value
  let rpcFinality ← profile.assertVerifiedRpcFinality now finality custody
  match state.collector.opened, state.collector.openExecution, state.collector.verifiedStatus,
    (state.actionByKind.get .purchase).bind state.actions.get, purchaseReceipt state with
  | some opened, some openExecution, some status, some _, some receipt => do
    revertIf (state.stage ≠ .purchaseFinalized
        ∨ custody.cycleId ≠ state.cycleId
        ∨ custody.requestDigest ≠ openExecution.requestDigest
        ∨ custody.authorizationDigest ≠ openExecution.authorizationDigest
        ∨ custody.openExecutionDigest ≠ openExecution.executionDigest
        ∨ custody.broadcastSignature ≠ openExecution.broadcastSignature
        ∨ custody.wallet ≠ opened.wallet
        ∨ some custody.prizeWallet ≠ opened.prizeWallet
        ∨ custody.packTokenMint ≠ status.packTokenMint
        ∨ custody.packTokenMint ≠ receipt.relation.nftMint
        ∨ custody.packTokenAccount ≠ openExecution.packTokenAccount
        ∨ custody.packTokenAccount ≠ receipt.relation.nftCustodyAccount
        ∨ custody.prePackBalance ≠ receipt.relation.postNftBalance
        ∨ custody.postPackBalance ≠ 0
        ∨ profile.acceptsOpenCustodyNftMint custody.nftMint = false
        ∨ custody.nftCustodyAccount ≠ custody.wallet
        ∨ custody.preNftBalance ≠ 0
        ∨ custody.blockHeight ≤ receipt.blockHeight)
      "verified Collector open custody binding or chronology is invalid"
    revertIf state.collector.openCustody.isSome "verified Collector open custody already consumed"
    return { state with
      collector := { state.collector with openCustody := some ⟨custody, rpcFinality⟩ } }
  | _, _, _, _, _ => .error "verified Collector open custody binding or chronology is invalid"

/-- `postOpenBuybackApproval`. -/
def postOpenBuybackApproval (state : State) (now : Nat) (value : PostOpenApproval) :
    Except String (State × Staged) := do
  let approval ← profile.verifyPostOpenBuyback now value
  match profile.resolveBuybackDigest state.actionByKind approval with
  | none => .error "post-open buyback action and open custody are required"
  | some actionDigest => match state.actions.get actionDigest with
    | none => .error "post-open buyback action and open custody are required"
    | some prepared => do
      revertIf (prepared.action.actionKind ≠ .buyback ∨ state.stage ≠ .openReconciled
          ∨ state.collector.opened = none)
        "post-open buyback action and open custody are required"
      let _ ← profile.matchPolicy approval prepared state.cycleId state.collector.opened
      revertIf state.postOpenBuybackApproval.isSome "post-open buyback approval already consumed"
      let record := profile.postOpenStoreRecord approval actionDigest
      let staged ← stageAuthorization store record record.key
        "post-open buyback authorization store consumption mismatch"
      return ({ state with postOpenBuybackApproval := some approval }, staged)

/-! ## Mutations outside the runner -/

/-- What a Collector mutation is attempted under. -/
def collectorIdentity (state : State) (requestDigest : Digest) (action : CollectorAction) :
    Except String MutationIdentity :=
  match state.collector.authorizations.get action with
  | none => .error "consumed Collector mutation authorization is required"
  | some authorization => do
    revertIf (authorization.requestDigest ≠ requestDigest)
      "consumed Collector mutation authorization is required"
    return ⟨.collector action, authorization.attempt,
      profile.mutationAuthorizationDigest authorization⟩

/-- The intent of a Collector mutation names a request digest. -/
def intentNames (state : State) (action : CollectorAction) (requestDigest : Digest) : Bool :=
  (state.collector.intent action).any fun intent => intent.requestDigest = requestDigest

/-- `externalMutationIdentity`. -/
def externalMutationIdentity (state : State) (requestDigest : Digest) :
    Except String MutationIdentity :=
  match state.actions.get requestDigest with
  | some prepared =>
    match state.approvals.get (requestDigest, .mutation),
      state.consumedApprovals.get (requestDigest, .mutation) with
    | some approval, some consumed => do
      revertIf (approval.subjectDigest ≠ requestDigest
          ∨ consumed.approvalKey ≠ profile.approvalKey approval)
        "consumed owner mutation approval is required"
      return ⟨.action prepared.action.actionKind, profile.attempt approval,
        profile.approvalKey approval⟩
    | _, _ => .error "consumed owner mutation approval is required"
  | none =>
    if intentNames state .generate requestDigest then
      collectorIdentity profile state requestDigest .generate
    else if intentNames state .openPack requestDigest then
      collectorIdentity profile state requestDigest .openPack
    else
      .error "external mutation intent is unknown"

/-- `externalMutationAttempted`. -/
def externalMutationAttempted (state : State) (requestDigest : Digest)
    (identity : MutationIdentity) : Except String State := do
  let expected ← externalMutationIdentity profile state requestDigest
  revertIf (identity ≠ expected) "external mutation attempt binding is invalid"
  revertIf (∃ mutation ∈ state.externalMutations.values, mutation.status = .unresolved)
    "an unresolved external mutation must be reconciled before another mutation"
  revertIf (state.externalMutations.get requestDigest).isSome
    "external mutation was already attempted; retry is prohibited"
  return { state with
    externalMutations := state.externalMutations.set requestDigest ⟨identity, .unresolved⟩ }

/-- What a reconciled action points to. -/
def actionReconciliation (state : State) (requestDigest : Digest) (prepared : PreparedAction) :
    Option ReconciliationEvidence := do
  let receiptDigest ← state.consumedByAction.get prepared.action.actionKind
  let receipt ← state.receipts.get receiptDigest
  let accounting ← state.executionAccounting.get requestDigest
  guard (receiptDigest ∈ state.consumedReceipts ∧ receipt.actionDigest = requestDigest
    ∧ accounting.receiptDigest = receiptDigest
    ∧ (prepared.action.actionKind = .buyback → accounting.nftDestinationActivity.isSome))
  return ⟨receiptDigest, some accounting.verificationDigest⟩

/-- `externalReconciliationEvidence`, of an unresolved attempt. -/
def externalReconciliationEvidence (state : State) (requestDigest : Digest) :
    Except String (Option ReconciliationEvidence) :=
  match state.actions.get requestDigest with
  | some prepared => return actionReconciliation state requestDigest prepared
  | none =>
    if intentNames state .generate requestDigest then
      return state.collector.generated.map fun generated =>
        ⟨profile.generateResponseDigest generated.response, none⟩
    else if intentNames state .openPack requestDigest then
      return state.collector.openCustody.map fun openCustody =>
        ⟨profile.openCustodyEvidenceDigest openCustody.custody,
          some (profile.rpcFinalityEvidenceDigest openCustody.rpcFinality)⟩
    else
      .error "external mutation intent is unknown"

/-- `externalMutationReconciled`. -/
def externalMutationReconciled (state : State) (requestDigest : Digest) (actionKind : MutationKind)
    (evidence : ReconciliationEvidence) : Except String State :=
  match state.externalMutations.get requestDigest with
  | none => .error "unresolved external mutation attempt is required"
  | some attempt => do
    revertIf (attempt.status ≠ .unresolved ∨ attempt.identity.actionKind ≠ actionKind)
      "unresolved external mutation attempt is required"
    let expected ← externalReconciliationEvidence profile state requestDigest
    revertIf (expected ≠ some evidence)
      "verified provider and RPC reconciliation evidence is required"
    return { state with
      externalMutations := state.externalMutations.set requestDigest
        { attempt with status := .externallyReconciled evidence } }

/-! ## Voiding and superseding -/

/-- `assertVoidObserverProof`. -/
def assertVoidObserverProof (proof : VoidProof) : Except String Unit := do
  let passed : Bool := match proof.window with
    | .height boundary checkedAt => decide (boundary ≤ checkedAt)
    | .time boundary checkedAt => decide (boundary ≤ checkedAt)
  revertIf (¬ passed) "void observer proof was checked before its own boundary passed"
  revertIf (proof.neverBroadcast = false ∨ proof.finalized = false)
    "void observer proof must attest a finalized, never-broadcast observation"
  revertIf (proof.verificationDigest ≠ profile.voidObserverProofDigest proof)
    "void observer proof verification digest mismatch"
  revertIf (profile.verifySignature .voidObserver proof.verificationDigest
      proof.verificationSignature = false)
    "void observer proof signature verification is invalid"

/-- `voidBoundaryForMutation`, compared with the boundary of a proof. -/
def boundaryMatches (state : State) (requestDigest : Digest) (window : VoidWindow) :
    MutationKind → Except String Bool
  | .collector action => match state.collector.authorizations.get action with
    | none => .error "consumed Collector mutation authorization is required before voiding"
    | some authorization => match window with
      | .height _ _ => return false
      | .time boundary _ => return authorization.expiry = some boundary
  | .action _ => match state.actions.get requestDigest with
    | none => .error "prepared fixture action is required before voiding"
    | some prepared => match window with
      | .height boundary _ => return prepared.action.validity.lastValidHeight = boundary
      | .time _ _ => return false

/-- The slots of the authorizations of an action leave a map. -/
def deleteSlots {α : Type} (slots : Map AuthorizationSlot α) (actionDigest : Digest) :
    Map AuthorizationSlot α :=
  actionAuthorizationKinds.foldl (fun slots kind => slots.delete (actionDigest, kind)) slots

/-- The native gas of a retired action is free again. -/
def refundNativeGas (state : State) (requestDigest : Digest) : Map GasChain Nat :=
  match state.actions.get requestDigest with
  | none => state.nativeGasReserved
  | some prepared =>
    let chain := nativeGasChainForActionKind prepared.action.actionKind
    -- the difference is clamped at zero, as it is of numbers
    state.nativeGasReserved.set chain
      ((state.nativeGasReserved.get chain).getD 0 - prepared.action.nativeGasAmount)

/-- `retireVoidedExternalMutation`. -/
def retireVoidedExternalMutation (state : State) (requestDigest : Digest) : MutationKind → State
  | .collector .generate => { state with
      collector := { state.collector with
        generateIntent := none
        authorizations := state.collector.authorizations.delete .generate }
      externalMutations := state.externalMutations.delete requestDigest }
  | .collector .openPack => { state with
      collector := { state.collector with
        openIntent := none
        authorizations := state.collector.authorizations.delete .openPack }
      externalMutations := state.externalMutations.delete requestDigest }
  | .action actionKind => { state with
      nativeGasReserved := refundNativeGas state requestDigest
      actions := state.actions.delete requestDigest
      actionByKind := state.actionByKind.delete actionKind
      decoded := state.decoded.delete requestDigest
      signed := state.signed.delete requestDigest
      blockhashValidity := state.blockhashValidity.delete requestDigest
      broadcasts := state.broadcasts.delete requestDigest
      approvals := deleteSlots state.approvals requestDigest
      consumedApprovals := deleteSlots state.consumedApprovals requestDigest
      externalMutations := state.externalMutations.delete requestDigest }

/-- `externalMutationVoided`. -/
def externalMutationVoided (state : State) (requestDigest : Digest) (proof : VoidProof) :
    Except String State :=
  match state.externalMutations.get requestDigest with
  | none => .error "unresolved external mutation attempt is required before voiding"
  | some attempt => do
    revertIf (attempt.status ≠ .unresolved)
      "unresolved external mutation attempt is required before voiding"
    revertIf (state.broadcasts.get requestDigest).isSome
      "a recorded broadcast cannot be voided as never-broadcast"
    let _ ← assertVoidObserverProof profile proof
    revertIf (proof.requestDigest ≠ requestDigest ∨ proof.cycleId ≠ state.cycleId
        ∨ proof.actionKind ≠ attempt.identity.actionKind)
      "void observer proof binding is invalid"
    let same ← boundaryMatches state requestDigest proof.window attempt.identity.actionKind
    revertIf (same = false)
      ("void observer proof boundary does not match the durable last-valid height or "
        ++ "authorization expiry")
    return retireVoidedExternalMutation state requestDigest attempt.identity.actionKind

/-- `verifySupersedeObserverEvidence`, against what the cycle has broadcast. -/
def verifySupersedeObserverEvidence (evidence : SupersedeEvidence) (observer : Observer)
    (key : PublicKey) (cycleId : Text) (requestDigest : Digest) (actionKind : ActionKind)
    (signedBytesDigest : Digest) (broadcastSignature : Text) (lastValidHeight : Nat) :
    Except String Unit := do
  revertIf (evidence.observer ≠ observer
      ∨ evidence.cycleId ≠ cycleId
      ∨ evidence.requestDigest ≠ requestDigest
      ∨ evidence.actionKind ≠ actionKind
      ∨ evidence.signedBytesDigest ≠ signedBytesDigest
      ∨ evidence.broadcastSignature ≠ broadcastSignature
      ∨ evidence.lastValidHeight ≠ lastValidHeight
      ∨ evidence.finalized = false
      ∨ evidence.notFound = false
      ∨ evidence.evidenceDigest ≠ profile.supersedeObserverEvidenceDigest evidence)
    "supersede observer evidence is invalid"
  revertIf (evidence.lastValidHeight = 0 ∨ evidence.observedHeight = 0
      ∨ evidence.observedHeight < evidence.lastValidHeight)
    "supersede observed height is invalid"
  revertIf (profile.verifySignature key evidence.evidenceDigest evidence.evidenceSignature = false)
    "supersede observer evidence signature is invalid"

/-- `verifySupersessionAuthorization`. -/
def verifySupersessionAuthorization (state : State) (authorization : SupersessionAuthorization)
    (requestDigest : Digest) (actionKind : ActionKind) : Except String Staged := do
  revertIf (authorization.cycleId ≠ state.cycleId
      ∨ authorization.requestDigest ≠ requestDigest
      ∨ authorization.actionKind ≠ actionKind
      ∨ authorization.attempt ≠ 1
      ∨ authorization.fixtureApprovalDigest
        ≠ profile.fixtureSupersessionAuthorizationDigest authorization)
    "fresh exact supersession authorization is invalid"
  revertIf (authorization.expiry ≤ profile.validatedAt) "supersession authorization is expired"
  revertIf (profile.verifySignature .supersedeOwner authorization.fixtureApprovalDigest
      authorization.fixtureApprovalSignature = false)
    "supersession authorization signature is invalid"
  let record : StoredAuthorization := {
    key := authorization.fixtureApprovalDigest
    nonceKey := profile.supersessionNonceKey authorization.nonce
    cycleId := state.cycleId
    actionKind := .action actionKind
    authorizationKind := .step .mutation
    actionDigest := requestDigest
    subjectDigest := requestDigest
    commitment := profile.supersessionCommitment authorization
    validatedAt := profile.validatedAt }
  stageAuthorization store record record.key "supersession authorization store consumption mismatch"

/-- `externalMutationSuperseded`. -/
def externalMutationSuperseded (state : State) (requestDigest : Digest)
    (provider rpc : SupersedeEvidence) (authorization : SupersessionAuthorization) :
    Except String (State × Staged) :=
  match state.externalMutations.get requestDigest with
  | none => .error "only an unresolved external mutation can be superseded"
  | some attempt => do
    revertIf (attempt.status ≠ .unresolved)
      "only an unresolved external mutation can be superseded"
    match attempt.identity.actionKind with
    | .collector _ =>
      .error "supersession is only available for broadcast-based action mutations"
    | .action actionKind =>
      match state.broadcasts.get requestDigest, state.actions.get requestDigest,
        state.signed.get requestDigest with
      | some broadcast, some prepared, some signed => do
        let lastValidHeight := prepared.action.validity.lastValidHeight
        let _ ← verifySupersedeObserverEvidence profile provider .provider .supersedeProvider
          state.cycleId requestDigest actionKind signed.signedBytesDigest
          broadcast.broadcastSignature lastValidHeight
        let _ ← verifySupersedeObserverEvidence profile rpc .rpc .supersedeRpc
          state.cycleId requestDigest actionKind signed.signedBytesDigest
          broadcast.broadcastSignature lastValidHeight
        revertIf (provider.observedHeight ≠ rpc.observedHeight)
          ("dual supersede observer evidence must independently agree on the observed height")
        let staged ←
          verifySupersessionAuthorization profile store state authorization requestDigest actionKind
        return (retireVoidedExternalMutation state requestDigest (.action actionKind), staged)
      | _, _, _ =>
        .error ("durable prepared, signed, and broadcast evidence is required before "
          ++ "supersession")

end Hookemon.Runner.CycleReducer
