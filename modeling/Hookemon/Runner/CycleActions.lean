import Hookemon.Runner.CycleState

/-! # The actions of a cycle (`cycle/reducer.mjs`)

The handlers of the events that carry an action from its intent to its consumed receipt:
the released-cycle preflight, the intent, the approvals of the owner, the message and its
signature, the broadcast, the receipt and its independent accounting.
-/

namespace Hookemon.Runner.CycleReducer

open Hookemon.Core Hookemon.Js

variable (profile : EvidenceProfile) (store : EvidenceStore)

/-! ## Control, preflight and intents -/

/-- `bindCycleControl`. -/
def bindCycleControl (state : State) (value : FrozenControl) : Except String State := do
  revertIf (state.head.isSome ∨ state.frozenControl.isSome)
    "frozen cycle control must be the first journal event"
  let control ← profile.assertFrozenCycleControl value
  revertIf (control.cycleId ≠ state.cycleId)
    "frozen cycle control cycle differs from the runner cycle"
  return { state with frozenControl := some control }

/-- `verifyPreflight`. -/
def verifyPreflight (state : State) (now : Nat) (value : Preflight) (preflightDigest : Digest) :
    Except String State := do
  let preflight ← profile.verifyPreflight now value
  revertIf (preflightDigest ≠ preflight.preflightDigest)
    "fixture cycle spend preflight journal digest mismatch"
  revertIf (preflight.cycleId ≠ state.cycleId) "fixture cycle spend preflight cycle mismatch"
  revertIf (state.preflight.isSome ∨ state.actions.size ≠ 0 ∨ state.stage ≠ .prepared)
    "fixture cycle spend preflight is duplicate or late"
  return { state with preflight := some preflight }

/-- The bounds and bindings of a prepared action in the released-cycle preflight. -/
def exceedsPreflight (action : Action) (preflight : Preflight) (nextNativeGasReserved : Nat) :
    Prop :=
  action.preflightDigest ≠ preflight.preflightDigest
    ∨ action.operationsTrigger ≠ preflight.operationsTrigger
    ∨ action.cycleVaultAccount ≠ preflight.cycleVaultAccount
    ∨ action.policyAccount ≠ preflight.policyAccount
    ∨ action.returnAccount ≠ preflight.returnAccount
    ∨ action.minimumReceive ≠ preflight.minimumReceives.of action.actionKind
    ∨ preflight.totalPrincipal < action.principalAmount
    ∨ preflight.releasedAmount < action.principalAmount
    ∨ preflight.spendCap < action.amount
    ∨ preflight.releasedAmount < action.amount
    ∨ preflight.nativeGasCaps.on (nativeGasChainForActionKind action.actionKind)
        < nextNativeGasReserved
deriving Decidable

/-- The digests of a payload are those of its action, one field after the other. -/
def assertDigests (payload digests : ActionDigests) : Except String Unit := do
  revertIf (payload.actionDigest ≠ digests.actionDigest) "fixture action actionDigest mismatch"
  revertIf (payload.bindingDigest ≠ digests.bindingDigest) "fixture action bindingDigest mismatch"
  revertIf (payload.instructionsDigest ≠ digests.instructionsDigest)
    "fixture action instructionsDigest mismatch"
  revertIf (payload.signersDigest ≠ digests.signersDigest) "fixture action signersDigest mismatch"

/-- A purchase pays to the prize wallet that the Collector has generated the pack for. -/
def assertPurchaseDestination (state : State) (action : Action) : Except String Unit :=
  if action.actionKind = .purchase then
    match state.collector.generated with
    | none => .error "a verified Collector generate response is required before a purchase intent"
    | some generated =>
      revertIf (action.destination ≠ generated.response.prizeWallet)
        "Collector purchase prize-wallet binding is invalid"
  else
    .ok ()

/-- `verifyIntent`. -/
def verifyIntent (state : State) (value : Action) (payload : ActionDigests) :
    Except String State := do
  let action ← profile.assertAction value
  let digests := profile.actionDigests action
  revertIf (action.cycleId ≠ state.cycleId) "fixture action cycle mismatch"
  revertIf (state.collector.generated.any fun generated =>
      action.binding ≠ generated.binding ∨ action.preflightDigest ≠ generated.preflightDigest)
    "Collector action wallet or preflight binding is invalid"
  assertPurchaseDestination state action
  match state.preflight with
  | none => .error "released-cycle spend preflight is required before fixture action intent"
  | some preflight => do
    let nativeGasChain := nativeGasChainForActionKind action.actionKind
    let nextNativeGasReserved :=
      (state.nativeGasReserved.get nativeGasChain).getD 0 + action.nativeGasAmount
    revertIf (exceedsPreflight action preflight nextNativeGasReserved)
      "fixture action exceeds or mismatches released-cycle spend preflight"
    revertIf (state.stage ≠ actionStage action.actionKind)
      "fixture action predecessor stage is invalid"
    assertDigests payload digests
    revertIf ((state.actions.get payload.actionDigest).isSome
        ∨ (state.actionByKind.get action.actionKind).isSome)
      "duplicate fixture action intent"
    let walletBinding : WalletBinding := ⟨action.binding.executionWallet,
      action.binding.refundTokenAccount, action.binding.refundTokenAccountOwner⟩
    revertIf (state.walletBinding.any fun bound => bound ≠ walletBinding)
      "fixture action cycle wallet binding is invalid"
    return { state with
      walletBinding := some (state.walletBinding.getD walletBinding)
      actions := state.actions.set payload.actionDigest ⟨action, digests⟩
      actionByKind := state.actionByKind.set action.actionKind payload.actionDigest
      nativeGasReserved := state.nativeGasReserved.set nativeGasChain nextNativeGasReserved }

/-! ## Approvals -/

/-- `verifyApproval`. -/
def verifyApproval (state : State) (now : Nat) (value : Approval) : Except String State := do
  let approval ← profile.verifyStepAuthorization now value
  let _ ← profile.storeRecord approval profile.validatedAt
  match profile.resolveActionDigest state.actionByKind approval with
  | none => .error "owner approval action is unknown"
  | some actionDigest => match state.actions.get actionDigest with
    | none => .error "owner approval action is unknown"
    | some prepared => do
      revertIf (state.collector.generated.isSome ∧ prepared.action.actionKind = .buyback
          ∧ approval.authorizationKind = .mutation ∧ state.postOpenBuybackApproval = none)
        "separate post-open buyback authorization is required"
      let _ ← profile.matchApproval approval prepared
      let subjectDigest ←
        requiredAuthorizationSubject state actionDigest approval.authorizationKind
      revertIf (approval.subjectDigest ≠ subjectDigest)
        ("owner approval " ++ approval.authorizationKind.name ++ " subject digest mismatch")
      let slot := (actionDigest, approval.authorizationKind)
      revertIf (state.approvals.get slot).isSome
        ("duplicate " ++ approval.authorizationKind.name ++ " owner approval")
      return { state with approvals := state.approvals.set slot approval }

/-- `consumeApproval`. -/
def consumeApproval (state : State) (actionDigest : Digest) (kind : AuthorizationKind)
    (subjectDigest approvalKey : Digest) (validatedAt : Nat) : Except String (State × Staged) :=
  match state.approvals.get (actionDigest, kind) with
  | none => .error "forged owner approval consumption binding"
  | some approval => do
    revertIf (profile.approvalKey approval ≠ approvalKey ∨ approval.subjectDigest ≠ subjectDigest)
      "forged owner approval consumption binding"
    revertIf (state.consumedApprovals.get (actionDigest, kind)).isSome
      (kind.name ++ " owner approval already consumed")
    let record ← profile.storeRecord approval validatedAt
    revertIf (record.authorizationKind ≠ .step kind ∨ record.subjectDigest ≠ subjectDigest)
      "authorization store consumption mismatch"
    let staged ← stageAuthorization store record approvalKey
      "authorization store consumption mismatch"
    return ({ state with
      consumedApprovals :=
        state.consumedApprovals.set (actionDigest, kind) ⟨approvalKey, subjectDigest⟩ }, staged)

/-! ## Messages, signatures and broadcasts -/

/-- `verifyDecode`. -/
def verifyDecode (state : State) (actionDigest : Digest) (messageBytes : Text)
    (messageDigest : Digest) : Except String State :=
  match state.actions.get actionDigest with
  | none => .error "prepared action is required before decode"
  | some prepared => do
    revertIf (¬ (state.externalMutations.get actionDigest).any
        fun mutation => mutation.status = .unresolved)
      "durable unresolved external mutation attempt is required before decode"
    let consumed ← consumedAuthorization state actionDigest .mutation actionDigest
    revertIf (state.decoded.get actionDigest).isSome "message decode already journaled"
    let decoded ← profile.decodeMessage messageBytes
    revertIf (decoded ≠ profile.messageForAction prepared.action prepared.digests
        consumed.approvalKey)
      "decoded message is not bound to exact action and approval"
    revertIf (messageDigest ≠ profile.messageDigest decoded) "decoded message digest mismatch"
    return { state with
      decoded := state.decoded.set actionDigest ⟨messageBytes, messageDigest, decoded⟩ }

/-- `verifySigned`. -/
def verifySigned (state : State) (now : Nat) (payload : SignedRecord) : Except String State :=
  match state.decoded.get payload.actionDigest with
  | none => .error "decoded message is required before signed evidence"
  | some decoded => do
    revertIf (decoded.messageDigest ≠ payload.messageDigest)
      "decoded message is required before signed evidence"
    let _ ← consumedAuthorization state payload.actionDigest .sign payload.messageDigest
    revertIf (state.signed.get payload.actionDigest).isSome "signed bytes already journaled"
    let broadcastSignature ← profile.verifySignedTransaction now payload.signedBytes decoded
    revertIf (payload.broadcastSignature ≠ broadcastSignature)
      "signed broadcast signature mismatch"
    revertIf (payload.signedBytesDigest
        ≠ profile.signedBytesDigest payload.messageDigest payload.signedBytes)
      "signed bytes digest mismatch"
    return { state with signed := state.signed.set payload.actionDigest payload }

/-- `verifyBlockhashValidity`. -/
def verifyBlockhashValidity (state : State) (event : CycleEvent) (value : BlockhashEvidence) :
    Except String State := do
  let evidence ← profile.verifyBlockhashValidity event.now value
  match state.actions.get evidence.actionDigest, state.signed.get evidence.actionDigest with
  | some prepared, some signed => do
    revertIf (state.broadcasts.get evidence.actionDigest).isSome
      "blockhash validity cannot be recorded after broadcast"
    revertIf (evidence.cycleId ≠ state.cycleId
        ∨ evidence.messageDigest ≠ signed.messageDigest
        ∨ evidence.signedBytesDigest ≠ signed.signedBytesDigest
        ∨ evidence.recentBlockhash ≠ prepared.action.validity.recentBlockhash
        ∨ evidence.lastValidHeight ≠ prepared.action.validity.lastValidHeight
        ∨ evidence.observedHeight < prepared.action.validity.currentHeight)
      "fixture blockhash validity does not bind the signed action window"
    revertIf ((state.blockhashValidity.get evidence.actionDigest).any fun previous =>
        evidence.observedHeight ≤ previous.evidence.observedHeight)
      "fixture blockhash validity evidence is stale or replayed"
    return { state with
      blockhashValidity :=
        state.blockhashValidity.set evidence.actionDigest ⟨evidence, event.digest⟩ }
  | _, _ => .error "signed fixture action is required before blockhash validity evidence"

/-- `verifyBroadcast`. -/
def verifyBroadcast (state : State) (event : CycleEvent) (payload : BroadcastRecord) :
    Except String State := do
  revertIf (payload.broadcastSignature = []) "broadcast signature is invalid"
  match state.signed.get payload.actionDigest with
  | none => .error "broadcast evidence does not match signed bytes"
  | some signed => do
    revertIf (signed.messageDigest ≠ payload.messageDigest
        ∨ signed.signedBytesDigest ≠ payload.signedBytesDigest
        ∨ signed.broadcastSignature ≠ payload.broadcastSignature)
      "broadcast evidence does not match signed bytes"
    let _ ← consumedAuthorization state payload.actionDigest .broadcast payload.signedBytesDigest
    let _ ← consumedAuthorization state payload.actionDigest .assetSpend payload.signedBytesDigest
    let _ ← consumedAuthorization state payload.actionDigest .gasSpend payload.signedBytesDigest
    revertIf (state.broadcasts.get payload.actionDigest).isSome "broadcast already journaled"
    revertIf (¬ (state.blockhashValidity.get payload.actionDigest).any fun validity =>
        some validity.eventDigest = event.previousDigest)
      "independently verified blockhash validity evidence is required immediately before broadcast"
    return { state with broadcasts := state.broadcasts.set payload.actionDigest payload }

/-! ## Receipts and their accounting -/

/-- `verifyReceipt`. -/
def verifyReceipt (state : State) (now : Nat) (value : ProviderReceipt)
    (receiptDigest registryKey : Digest) : Except String State := do
  let receipt ← profile.verifyReceipt now value
  revertIf (receiptDigest ≠ profile.receiptDigest receipt) "provider receipt digest mismatch"
  match state.actions.get receipt.actionDigest with
  | none => .error "provider receipt action is unknown"
  | some prepared => do
    let execution ← actionExecution state receipt.actionDigest
    let _ ← profile.receiptRelationship receipt prepared.action execution
    -- the buyback's NFT goes where the post-open approval and the signed message say
    revertIf (receipt.actionKind = .buyback ∧ ¬ (
        (state.postOpenBuybackApproval.any fun approval =>
          receipt.relation.nftDestinationAccount = profile.prizeWallet approval prepared.action)
        ∧ (state.decoded.get receipt.actionDigest).any fun decoded =>
          receipt.relation.nftDestinationAccount = decoded.decoded.sourceAccount))
      "buyback NFT destination must match the post-open approval and signed transaction message"
    let chainKey := chainKeyForReceipt receipt
    revertIf ((state.finalizedBlockHeightByChain.get chainKey).any fun previous =>
        receipt.blockHeight < previous)
      "fixture receipt finalized block height is not monotone on its own chain"
    revertIf (registryKey ≠ profile.identityKey receipt) "provider receipt registry key mismatch"
    revertIf ((state.receipts.get receiptDigest).isSome ∨ registryKey ∈ state.receiptIdentities)
      "duplicate canonical provider receipt"
    return { state with
      receipts := state.receipts.set receiptDigest receipt
      receiptIdentities := insert registryKey state.receiptIdentities
      finalizedBlockHeightByChain :=
        state.finalizedBlockHeightByChain.set chainKey receipt.blockHeight }

/-- The movement that the finalized activity of an account has to show. -/
def expectedMovement (receipt : ProviderReceipt) (receiptDigest : Digest) (direction : Direction)
    (asset : Text) (amount : Int) : Movement where
  transactionSignature := receipt.transactionSignature
  receiptDigest := receiptDigest
  blockHeight := receipt.blockHeight
  blockHash := receipt.blockHash
  direction := direction
  asset := asset
  amount := amount

/-- The activity of an account is one movement between two balances. -/
def isolatedActivity (activity : AccountActivity) (account asset : Text)
    (openingBalance closingBalance : Nat) (movement : Movement) : Prop :=
  activity.account = account ∧ activity.asset = asset
    ∧ activity.openingBalance = openingBalance ∧ activity.closingBalance = closingBalance
    ∧ activity.movements = [movement]
deriving Decidable

/-- `sourceCustody` and its movement: a buyback gives the NFT away, every other action its
input asset. -/
def sourceActivityOk (evidence : ExecutionAccounting) (action : Action) (receipt : ProviderReceipt) :
    Prop :=
  let relation := receipt.relation
  if action.actionKind = .buyback then
    isolatedActivity evidence.sourceActivity relation.nftCustodyAccount relation.nftMint
      relation.preNftBalance relation.postNftBalance
      (expectedMovement receipt evidence.receiptDigest .debit relation.nftMint
        ((relation.preNftBalance : Int) - relation.postNftBalance))
  else
    isolatedActivity evidence.sourceActivity relation.sourceAccount relation.inputAsset
      relation.preSourceBalance relation.postSourceBalance
      (expectedMovement receipt evidence.receiptDigest .debit relation.inputAsset
        relation.amountIn)

instance sourceActivityOkDecidable (evidence : ExecutionAccounting) (action : Action)
    (receipt : ProviderReceipt) : Decidable (sourceActivityOk evidence action receipt) := by
  unfold sourceActivityOk
  infer_instance

/-- The NFT of a buyback arrives at the approved prize wallet. -/
def nftDestinationOk (approval : Option PostOpenApproval) (evidence : ExecutionAccounting)
    (action : Action) (receipt : ProviderReceipt) : Bool :=
  let relation := receipt.relation
  evidence.nftDestinationActivity.any fun activity =>
    (approval.any fun approval => activity.account = profile.prizeWallet approval action)
      ∧ isolatedActivity activity relation.nftDestinationAccount relation.nftMint
        relation.preNftDestinationBalance relation.postNftDestinationBalance
        (expectedMovement receipt evidence.receiptDigest .credit relation.nftMint 1)

/-- The refund of a buyback is the approved one. -/
def refundOk (approval : Option PostOpenApproval) (evidence : ExecutionAccounting)
    (receipt : ProviderReceipt) : Bool :=
  approval.any fun approval =>
    profile.refundAmount approval = receipt.relation.amountOut
      ∧ (profile.refundAmount approval : Int)
        = (evidence.accountActivity.closingBalance : Int) - evidence.accountActivity.openingBalance

/-- `verifyExecutionAccounting`. -/
def verifyExecutionAccounting (state : State) (now : Nat) (value : ExecutionAccounting) :
    Except String State := do
  let evidence ← profile.verifyExecutionAccounting now value
  match state.actions.get evidence.actionDigest, state.receipts.get evidence.receiptDigest with
  | some prepared, some receipt => do
    let action := prepared.action
    let relation := receipt.relation
    revertIf (evidence.cycleId ≠ state.cycleId
        ∨ evidence.actionKind ≠ action.actionKind
        ∨ receipt.actionDigest ≠ evidence.actionDigest
        ∨ receipt.actionKind ≠ evidence.actionKind
        ∨ evidence.transactionSignature ≠ receipt.transactionSignature
        ∨ ¬ ((state.broadcasts.get evidence.actionDigest).any fun broadcast =>
          evidence.transactionSignature = broadcast.broadcastSignature)
        ∨ evidence.blockHeight ≠ receipt.blockHeight
        ∨ evidence.blockHash ≠ receipt.blockHash)
      "execution accounting does not bind the finalized broadcast and provider receipt"
    revertIf (evidence.nativeGas.account ≠ action.feePayer ∨ evidence.nativeGas.asset ≠ text "SOL")
      "fixture actual native gas does not bind the approved fee payer and chain asset"
    revertIf (action.nativeGasAmount < evidence.nativeGas.actualDebit)
      "fixture actual native gas exceeds the authorized action gas amount"
    revertIf (¬ sourceActivityOk evidence action receipt)
      "fixture finalized source custody activity does not bind the exact independent debit"
    revertIf (¬ isolatedActivity evidence.accountActivity relation.destinationAccount
        relation.outputAsset relation.preDestinationBalance relation.postDestinationBalance
        (expectedMovement receipt evidence.receiptDigest .credit relation.outputAsset
          relation.amountOut))
      ("fixture finalized account activity contains unrelated movements or is not "
        ++ "activity-isolated")
    revertIf (action.actionKind = .buyback
        ∧ ¬ nftDestinationOk profile state.postOpenBuybackApproval evidence action receipt)
      "independent buyback NFT destination custody activity is invalid"
    revertIf (action.actionKind = .buyback
        ∧ ¬ refundOk profile state.postOpenBuybackApproval evidence receipt)
      ("fixture buyback refund amount must exactly equal the post-open approval, provider "
        ++ "receipt, and independent destination delta")
    revertIf ((state.executionAccounting.get evidence.actionDigest).isSome
        ∨ ∃ accounted ∈ state.executionAccounting.values,
          accounted.receiptDigest = evidence.receiptDigest)
      "fixture execution accounting evidence is already consumed"
    let nativeGasChain := nativeGasChainForActionKind action.actionKind
    let nextNativeGasUsed :=
      (state.nativeGasUsed.get nativeGasChain).getD 0 + evidence.nativeGas.actualDebit
    revertIf (¬ state.preflight.any fun preflight =>
        nextNativeGasUsed ≤ preflight.nativeGasCaps.on nativeGasChain)
      "fixture actual native gas exceeds the released-cycle cap"
    return { state with
      executionAccounting := state.executionAccounting.set evidence.actionDigest evidence
      nativeGasUsed := state.nativeGasUsed.set nativeGasChain nextNativeGasUsed }
  | _, _ =>
    .error "verified action and provider receipt are required before execution accounting"

/-- `consumeReceipt`. -/
def consumeReceipt (state : State) (receiptDigest registryKey : Digest) :
    Except String (State × Staged) :=
  match state.receipts.get receiptDigest with
  | none => .error "verified provider receipt is required before consumption"
  | some receipt => match state.executionAccounting.get receipt.actionDigest with
    | none => .error ("independently verified execution accounting with source custody evidence "
        ++ "is required before receipt consumption")
    | some accounting => do
      revertIf (accounting.receiptDigest ≠ receiptDigest)
        ("independently verified execution accounting with source custody evidence "
          ++ "is required before receipt consumption")
      revertIf (receipt.actionKind = .buyback ∧ accounting.nftDestinationActivity = none)
        ("independently verified buyback NFT destination custody accounting is required before "
          ++ "receipt consumption")
      revertIf (receiptDigest ∈ state.consumedReceipts
          ∨ (state.consumedByAction.get receipt.actionKind).isSome)
        "receipt consumption is duplicate"
      let record := profile.registryRecord receipt receiptDigest
      revertIf (registryKey ≠ record.key) "receipt registry consumption mismatch"
      let consumed ← store.consumeReceipt record
      revertIf (consumed ≠ registryKey) "receipt registry consumption mismatch"
      return ({ state with
        consumedReceipts := insert receiptDigest state.consumedReceipts
        consumedByAction := state.consumedByAction.set receipt.actionKind receiptDigest },
        ⟨none, some record⟩)

end Hookemon.Runner.CycleReducer
