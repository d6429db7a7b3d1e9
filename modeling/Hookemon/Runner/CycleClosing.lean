import Hookemon.Runner.CycleState

/-! # Transitions and the closed ledger (`cycle/reducer.mjs`)

A cycle passes its stages in order, each on the evidence of the actions before it. The last
transition validates the whole ledger; what follows it consumes the proceeds and prepares
their payout.
-/

namespace Hookemon.Runner.CycleReducer

open Hookemon.Core Hookemon.Js

variable (profile : EvidenceProfile) (store : EvidenceStore)

/-! ## Closing -/

/-- What the closed ledger reads of one action, `actionReceipt`. -/
structure ActionReceipt where
  actionDigest : Digest
  receiptDigest : Digest
  action : Action
  receipt : ProviderReceipt
  accounting : ExecutionAccounting

/-- `actionReceipt`. -/
def actionReceipt (state : State) (kind : ActionKind) : Except String ActionReceipt :=
  let missing := "closed cycle ledger is missing " ++ kind.name ++ " intent or receipt"
  match state.actionByKind.get kind, state.consumedByAction.get kind with
  | some actionDigest, some receiptDigest =>
    match state.actions.get actionDigest, state.receipts.get receiptDigest with
    | some prepared, some receipt => do
      revertIf (receipt.actionDigest ≠ actionDigest ∨ receiptDigest ∉ state.consumedReceipts) missing
      match state.executionAccounting.get actionDigest with
      | none => .error ("closed cycle ledger is missing " ++ kind.name
          ++ " execution accounting evidence")
      | some accounting => do
        revertIf (accounting.receiptDigest ≠ receiptDigest)
          ("closed cycle ledger is missing " ++ kind.name ++ " execution accounting evidence")
        revertIf ((state.decoded.get actionDigest).isNone ∨ (state.signed.get actionDigest).isNone
            ∨ (state.broadcasts.get actionDigest).isNone)
          ("closed cycle ledger has unresolved " ++ kind.name ++ " execution evidence")
        revertIf (∃ authorizationKind ∈ actionAuthorizationKinds,
            (state.approvals.get (actionDigest, authorizationKind)).isNone
              ∨ (state.consumedApprovals.get (actionDigest, authorizationKind)).isNone)
          ("closed cycle ledger has an unconsumed " ++ kind.name ++ " authorization")
        return ⟨actionDigest, receiptDigest, prepared.action, receipt, accounting⟩
    | _, _ => .error missing
  | _, _ => .error missing

/-- `assertLedgerHandoff`. -/
def assertLedgerHandoff (left right : ActionReceipt) (label : String) : Except String Unit :=
  let output := left.receipt.relation
  let input := right.receipt.relation
  revertIf (output.destinationAccount ≠ input.sourceAccount
      ∨ output.postDestinationBalance ≠ input.preSourceBalance
      ∨ output.amountOut ≠ input.amountIn
      ∨ output.outputAsset ≠ input.inputAsset)
    ("closed cycle " ++ label ++ " ledger continuity is invalid")

/-- The Collector evidence is complete. -/
def CollectorState.complete (collector : CollectorState) : Bool :=
  collector.generateIntent.isSome && collector.openIntent.isSome
    && collector.authorizations.size == 2 && collector.generated.isSome
    && collector.verifiedStatus.isSome && collector.opened.isSome
    && collector.openExecution.isSome && collector.openCustody.isSome

/-- The actual native gas of some actions on one chain. -/
def actualNativeGasOn (chain : GasChain) (items : List ActionReceipt) : Nat :=
  ((items.filter fun item => nativeGasChainForActionKind item.action.actionKind = chain).map
    fun item => item.accounting.nativeGas.actualDebit).sum

/-- What a closed ledger is made of once it has been validated. -/
structure ClosingEvidence where
  preflight : Preflight
  outbound : ActionReceipt
  purchase : ActionReceipt
  buyback : ActionReceipt
  returned : ActionReceipt
  generated : CollectorGenerated
  verifiedStatus : CollectorStatus
  opened : CollectorRequest
  openExecution : OpenExecution
  openCustody : OpenCustodyRecord
  approval : PostOpenApproval

/-- The counts of a complete cycle. -/
def unmatchedCounts (state : State) : Prop :=
  state.actions.size ≠ 4 ∨ state.actionByKind.size ≠ 4 ∨ state.decoded.size ≠ 4
    ∨ state.signed.size ≠ 4 ∨ state.broadcasts.size ≠ 4 ∨ state.receipts.size ≠ 4
    ∨ state.receiptIdentities.card ≠ 4 ∨ state.consumedReceipts.card ≠ 4
    ∨ state.consumedByAction.size ≠ 4 ∨ state.executionAccounting.size ≠ 4
    ∨ state.approvals.size ≠ 20 ∨ state.consumedApprovals.size ≠ 20 ∨ state.proceeds.size ≠ 0
deriving Decidable

/-- The vault releases exactly its principal, and the outbound leg takes all of it. -/
def outboundLedgerBroken (preflight : Preflight) (outbound : TransferRelation) : Prop :=
  outbound.inputAsset ≠ text "USDG"
    ∨ outbound.sourceAccount ≠ preflight.returnAccount
    ∨ outbound.destinationAccount ≠ preflight.policyAccount
    ∨ outbound.amountIn ≠ preflight.totalPrincipal
    ∨ outbound.preSourceBalance ≠ preflight.releasedAmount
    ∨ (outbound.postSourceBalance : Int) ≠ preflight.releasedAmount - preflight.totalPrincipal
    ∨ outbound.postSourceBalance ≠ 0
deriving Decidable

/-- The pack and the card move from the purchase through the opening to the buyback. -/
def collectorLedgerBroken (e : ClosingEvidence) : Prop :=
  let purchase := e.purchase.receipt.relation
  let buyback := e.buyback.receipt.relation
  let openCustody := e.openCustody.custody
  purchase.sourceAccount ≠ e.preflight.policyAccount
    ∨ e.opened.wallet ≠ e.preflight.policyAccount
    ∨ some purchase.destinationAccount ≠ e.opened.prizeWallet
    ∨ some buyback.sourceAccount ≠ e.opened.prizeWallet
    ∨ purchase.preDestinationBalance ≠ 0
    ∨ buyback.postSourceBalance ≠ 0
    ∨ purchase.nftMint ≠ openCustody.packTokenMint
    ∨ purchase.nftCustodyAccount ≠ openCustody.packTokenAccount
    ∨ purchase.postNftBalance ≠ openCustody.prePackBalance
    ∨ openCustody.postPackBalance ≠ 0
    ∨ openCustody.nftMint ≠ buyback.nftMint
    ∨ openCustody.nftCustodyAccount ≠ buyback.nftCustodyAccount
    ∨ openCustody.nftCustodyAccount ≠ e.opened.wallet
    ∨ openCustody.nftCustodyAccount ≠ e.preflight.policyAccount
    ∨ openCustody.postNftBalance ≠ buyback.preNftBalance
    ∨ buyback.postNftBalance ≠ 0
    ∨ buyback.nftDestinationAccount ≠ profile.prizeWallet e.approval e.buyback.action
    ∨ buyback.nftDestinationAccount ≠ e.buyback.action.sourceAccount
    ∨ buyback.preNftDestinationBalance ≠ 0
    ∨ buyback.postNftDestinationBalance ≠ 1
    ∨ ¬ e.buyback.accounting.nftDestinationActivity.any fun activity =>
      activity.account = buyback.nftDestinationAccount
        ∧ activity.openingBalance = buyback.preNftDestinationBalance
        ∧ activity.closingBalance = buyback.postNftDestinationBalance

instance collectorLedgerBrokenDecidable (e : ClosingEvidence) :
    Decidable (collectorLedgerBroken profile e) := by
  unfold collectorLedgerBroken
  infer_instance

/-- The return credits the vault by exactly what it says. -/
def finalCreditBroken (preflight : Preflight) (returned : ActionReceipt) : Prop :=
  let relation := returned.receipt.relation
  let activity := returned.accounting.accountActivity
  relation.outputAsset ≠ text "USDG"
    ∨ relation.destinationAccount ≠ preflight.returnAccount
    ∨ activity.account ≠ preflight.returnAccount
    ∨ activity.asset ≠ text "USDG"
    ∨ activity.openingBalance ≠ relation.preDestinationBalance
    ∨ (relation.postDestinationBalance : Int) - relation.preDestinationBalance ≠ relation.amountOut
    ∨ relation.amountOut = 0

instance finalCreditBrokenDecidable (preflight : Preflight) (returned : ActionReceipt) :
    Decidable (finalCreditBroken preflight returned) := by
  unfold finalCreditBroken
  infer_instance

/-- `validateClosedLedger`, up to the ledger itself. -/
def validateClosedLedger (state : State) : Except String ClosingEvidence :=
  match state.preflight with
  | none => .error "closed cycle ledger requires the released-cycle preflight"
  | some preflight =>
    match state.collector.generated, state.collector.verifiedStatus, state.collector.opened,
      state.collector.openExecution, state.collector.openCustody, state.postOpenBuybackApproval with
    | some generated, some verifiedStatus, some opened, some openExecution, some openCustody,
      some approval => do
      revertIf (¬ state.collector.complete)
        ("closed cycle ledger requires complete authorized Collector custody and buyback "
          ++ "authorization")
      revertIf (state.externalMutations.size ≠ 6
          ∨ ∃ mutation ∈ state.externalMutations.values, mutation.status = .unresolved)
        "closed cycle ledger has unresolved external mutations"
      revertIf (unmatchedCounts state)
        ("closed cycle ledger contains unmatched intents, receipts, authorizations, or "
          ++ "proceeds")
      let outbound ← actionReceipt state .outbound
      let purchase ← actionReceipt state .purchase
      let buyback ← actionReceipt state .buyback
      let returned ← actionReceipt state .returned
      let items := [outbound, purchase, buyback, returned]
      revertIf (∃ chain ∈ [GasChain.robinhood, GasChain.solana],
          preflight.nativeGasCaps.on chain < actualNativeGasOn chain items)
        "closed cycle actual native gas exceeds the preflight cap"
      revertIf (∃ chain ∈ [GasChain.robinhood, GasChain.solana],
          actualNativeGasOn chain items ≠ (state.nativeGasUsed.get chain).getD 0)
        "closed cycle actual native gas accounting does not reconcile"
      revertIf (∃ item ∈ items, item.action.operationsTrigger ≠ preflight.operationsTrigger
          ∨ item.action.cycleVaultAccount ≠ preflight.cycleVaultAccount
          ∨ item.action.policyAccount ≠ preflight.policyAccount
          ∨ item.action.returnAccount ≠ preflight.returnAccount)
        "closed cycle ledger custody binding is invalid"
      let _ ← assertLedgerHandoff outbound purchase "outbound-to-purchase"
      let _ ← assertLedgerHandoff buyback returned "buyback-to-return"
      revertIf (outboundLedgerBroken preflight outbound.receipt.relation)
        "closed cycle vault debit or outbound ledger is invalid"
      let evidence : ClosingEvidence := ⟨preflight, outbound, purchase, buyback, returned,
        generated, verifiedStatus, opened, openExecution, openCustody, approval⟩
      revertIf (collectorLedgerBroken profile evidence)
        "closed cycle Collector NFT custody ledger is invalid"
      revertIf (openCustody.custody.blockHeight ≤ purchase.receipt.blockHeight
          ∨ buyback.receipt.blockHeight ≤ openCustody.custody.blockHeight)
        "closed cycle purchase, Collector open, and buyback chronology is invalid"
      revertIf (finalCreditBroken preflight returned)
        "closed cycle final vault USDG credit delta does not match the attributable return amount"
      revertIf (returned.accounting.accountActivity.fromBlockHeight ≠ buyback.receipt.blockHeight
          ∨ returned.accounting.accountActivity.fromBlockHash ≠ buyback.receipt.blockHash
          ∨ returned.accounting.accountActivity.toBlockHeight ≠ returned.receipt.blockHeight
          ∨ returned.accounting.accountActivity.toBlockHash ≠ returned.receipt.blockHash)
        "closed cycle final vault account activity window is not continuous and finalized"
      return evidence
    | _, _, _, _, _, _ =>
      .error ("closed cycle ledger requires complete authorized Collector custody and buyback "
        ++ "authorization")

/-- The ledger of a validated cycle. -/
def closedLedgerOf (cycleId : Text) (closedJournalHead : Digest) (e : ClosingEvidence) :
    ClosedLedger :=
  let items := [e.outbound, e.purchase, e.buyback, e.returned]
  let relation := e.returned.receipt.relation
  let content : ClosedLedgerContent := {
    cycleId := cycleId
    requirementsRevision := e.preflight.requirementsRevision
    preflightDigest := e.preflight.preflightDigest
    fundingAuthorizationDigest := profile.releaseEvidenceDigest e.preflight.releaseEvidence
    operationsTrigger := e.preflight.operationsTrigger
    cycleVaultAccount := e.preflight.cycleVaultAccount
    policyAccount := e.preflight.policyAccount
    returnAccount := e.preflight.returnAccount
    closedJournalHead := closedJournalHead
    orderedReceiptDigests := items.map ActionReceipt.receiptDigest
    orderedExecutionAccountingDigests := items.map fun item => item.accounting.verificationDigest
    actualNativeGasUsed := ⟨actualNativeGasOn .robinhood items, actualNativeGasOn .solana items⟩
    collectorOpen := e.opened
    collectorOpenExecutionDigest := e.openExecution.executionDigest
    collectorStatusDigest := profile.statusRecordDigest e.verifiedStatus
    collectorOpenCustodyDigest := profile.openCustodyEvidenceDigest e.openCustody.custody
    collectorRpcFinalityDigest := profile.rpcFinalityEvidenceDigest e.openCustody.rpcFinality
    finalCredit := {
      receiptDigest := e.returned.receiptDigest
      destinationAccount := relation.destinationAccount
      asset := relation.outputAsset
      preBalance := relation.preDestinationBalance
      postBalance := relation.postDestinationBalance
      amount := relation.amountOut
      transactionSignature := e.returned.receipt.transactionSignature
      blockHeight := e.returned.receipt.blockHeight
      blockHash := e.returned.receipt.blockHash } }
  ⟨content, profile.ledgerDigest content⟩

/-! ## Transitions -/

/-- The actions whose evidence a stage requires. -/
def requiredActions : Stage → Option (List ActionKind)
  | .prepared => none
  | .outboundFinalized => some [.outbound]
  | .purchaseFinalized => some [.outbound, .purchase]
  | .openReconciled => some [.outbound, .purchase]
  | .buybackFinalized => some [.outbound, .purchase, .buyback]
  | .returnFinalized => some [.outbound, .purchase, .buyback, .returned]
  | .closed => some [.outbound, .purchase, .buyback, .returned]

/-- The mutation of a request digest has been reconciled. -/
def reconciled (state : State) (requestDigest : Digest) : Bool :=
  (state.externalMutations.get requestDigest).any fun mutation => mutation.status ≠ .unresolved

/-- The receipt digest that one action contributes to the evidence of a stage. -/
def evidenceOfAction (state : State) (kind : ActionKind) : Except String Digest :=
  match state.consumedByAction.get kind with
  | none => .error "verified receipt evidence prefix is missing"
  | some receiptDigest => match state.actionByKind.get kind with
    | none => .error ("external " ++ kind.name ++ " mutation is unresolved")
    | some actionDigest => do
      revertIf (¬ reconciled state actionDigest)
        ("external " ++ kind.name ++ " mutation is unresolved")
      revertIf (¬ (state.executionAccounting.get actionDigest).any fun accounting =>
          accounting.receiptDigest = receiptDigest)
        "independently verified execution accounting evidence prefix is missing"
      return receiptDigest

/-- The mutation of a Collector intent has been reconciled. -/
def intentReconciled (state : State) (intent : Option CollectorIntent) : Bool :=
  intent.any fun intent => reconciled state intent.requestDigest

/-- `evidenceForTransition`. -/
def evidenceForTransition (state : State) (next : Stage) : Except String (List Digest) :=
  match requiredActions next with
  | none => .error "cycle transition is out of order"
  | some required => do
    if next = .openReconciled then
      revertIf (¬ state.collector.complete)
        ("complete authorized Collector generate, status, open, and finalized custody evidence "
          ++ "is required")
      revertIf (¬ intentReconciled state state.collector.generateIntent)
        "Collector generate mutation is unresolved"
      revertIf (¬ intentReconciled state state.collector.openIntent)
        "Collector open mutation is unresolved"
    if next = .closed then
      let _ ← validateClosedLedger profile state
    required.mapM (evidenceOfAction state)

/-- `transition`. -/
def transition (state : State) (event : CycleEvent) (expectedVersion : Nat)
    (expectedJournalHead : Option Digest) (predecessor next : Stage) (payload : List Digest) :
    Except String State := do
  revertIf (expectedVersion ≠ state.version) "stale cycle version"
  revertIf (expectedJournalHead ≠ state.head ∨ expectedJournalHead ≠ event.previousDigest)
    "stale cycle journal head"
  revertIf (predecessor ≠ state.stage) "cycle transition predecessor mismatch"
  revertIf (some next ≠ state.stage.following) "cycle transition is out of order"
  let evidence ← evidenceForTransition profile state next
  revertIf (payload ≠ evidence) "cycle transition evidence prefix mismatch"
  if next = .closed then do
    let closing ← validateClosedLedger profile state
    return { state with
      closedLedger := some (closedLedgerOf profile state.cycleId event.digest closing)
      stage := next
      version := state.version + 1 }
  else
    return { state with stage := next, version := state.version + 1 }

/-! ## After the cycle is closed -/

/-- `deriveReturnedProceedsKey`. -/
def deriveReturnedProceedsKey (state : State) (receiptDigest : Digest) :
    Except String (Digest × ClosedLedger) :=
  match state.closedLedger with
  | none => .error "closed activity-isolated return ledger is required for proceeds"
  | some ledger => do
    revertIf (state.stage ≠ .closed ∨ ledger.content.finalCredit.receiptDigest ≠ receiptDigest)
      "closed activity-isolated return ledger is required for proceeds"
    return (profile.proceedsKey state.cycleId ledger, ledger)

/-- `consumeProceeds`. -/
def consumeProceeds (state : State) (receiptDigest proceedsKey : Digest) : Except String State := do
  let (expectedKey, ledger) ← deriveReturnedProceedsKey profile state receiptDigest
  revertIf (proceedsKey ≠ expectedKey) "proceeds attribution key mismatch"
  revertIf ((state.proceeds.get proceedsKey).isSome ∨ ∃ value ∈ state.proceeds.values,
      value.receiptDigest = receiptDigest ∨ value.ledgerDigest = ledger.ledgerDigest)
    "proceeds already consumed"
  return { state with
    proceeds := state.proceeds.set proceedsKey ⟨receiptDigest, ledger.ledgerDigest⟩ }

/-- `recordDistributionVerification`. -/
def recordDistributionVerification (state : State) (event : CycleEvent)
    (value : DistributionReceipt) : Except String State := do
  let receipt ← profile.verifyDistributionVerificationReceipt value
  match state.closedLedger with
  | none => .error "closed cycle is required before distribution verification"
  | some ledger => do
    revertIf (state.stage ≠ .closed) "closed cycle is required before distribution verification"
    revertIf state.distributionVerification.isSome "distribution verification is already recorded"
    revertIf (¬ (state.proceeds.get receipt.proceedsKey).any fun proceeds =>
        proceeds.ledgerDigest = ledger.ledgerDigest
          ∧ proceeds.receiptDigest = ledger.content.finalCredit.receiptDigest)
      "distribution verification proceeds are not authenticated"
    let expectedOnchainCycleId :=
      (state.frozenControl.map FrozenControl.onchainCycleId).getD state.cycleId
    revertIf (receipt.runnerCycleId ≠ state.cycleId
        ∨ receipt.onchainCycleId ≠ expectedOnchainCycleId
        ∨ receipt.closedLedgerDigest ≠ ledger.ledgerDigest
        ∨ receipt.closedProceedsBasisDigest
          ≠ profile.closedProceedsBasisDigest state.cycleId receipt.proceedsKey ledger
        ∨ some receipt.verificationJournalHead ≠ event.previousDigest
        ∨ receipt.rootSum ≠ ledger.content.finalCredit.amount)
      "distribution verification cycle, ledger, head, or credit binding is invalid"
    return { state with distributionVerification := some receipt }

/-- `deriveVaultPayoutAuthorization`. -/
def deriveVaultPayoutAuthorization (state : State) (receipt : DistributionReceipt)
    (expiresAt : Nat) (nonce : Digest) : Except String VaultPayoutAuthorization :=
  match state.closedLedger, state.preflight, state.actionByKind.get .returned with
  | some ledger, some preflight, some returnActionDigest => do
    revertIf (state.stage ≠ .closed)
      "closed cycle and distribution verification are required for vault payout authorization"
    profile.validateVaultPayoutAuthorization {
      requirementsRevision := ledger.content.requirementsRevision
      chainId := preflight.releaseEvidence.chainId
      cycleId := receipt.onchainCycleId
      hook := preflight.hook
      vault := ledger.content.cycleVaultAccount
      usdg := preflight.usdg
      operationsTrigger := ledger.content.operationsTrigger
      bindingManifestDigest := preflight.bindingManifestDigest
      payoutId := receipt.payoutId
      manifestDigest := receipt.manifestDigest
      rootHash := receipt.rootHash
      rootSum := receipt.rootSum
      returnActionDigest := returnActionDigest
      returnReceiptDigest := ledger.content.finalCredit.receiptDigest
      expiresAt := expiresAt
      nonce := nonce }
  | _, _, _ => .error "vault payout authorization requires the exact return action"

/-- `/^0x[0-9a-f]{64}$/`. -/
def isBytes32 (t : Text) : Bool :=
  hasShape (text "0x") isLowerHexDigit 64 t

/-- `prepareFunding`. -/
def prepareFunding (state : State) (event : CycleEvent) (payload : PayoutFunding) :
    Except String (State × Staged) := do
  revertIf (¬ isBytes32 payload.onchainCycleId) "payout funding onchainCycleId is invalid"
  revertIf (payload.rootSum = 0) "payout funding rootSum is invalid"
  match state.distributionVerification, state.actionByKind.get .returned with
  | some receipt, some returnActionDigest => do
    revertIf (state.stage ≠ .closed ∨ (state.proceeds.get payload.proceedsKey).isNone
        ∨ receipt.proceedsKey ≠ payload.proceedsKey
        ∨ receipt.receiptDigest ≠ payload.verificationReceiptDigest)
      "recorded distribution verification is required before payout funding preparation"
    revertIf (payload.onchainCycleId ≠ receipt.onchainCycleId ∨ payload.payoutId ≠ receipt.payoutId
        ∨ payload.manifestDigest ≠ receipt.manifestDigest ∨ payload.rootHash ≠ receipt.rootHash
        ∨ payload.rootSum ≠ receipt.rootSum)
      "payout funding receipt binding mismatch"
    let supplied ← profile.validateVaultPayoutAuthorization payload.vaultPayoutAuthorization
    -- `expiresAt` counts seconds
    revertIf (supplied.expiresAt ≤ profile.validatedAt / 1000) "vault payout authorization is expired"
    let expected ←
      deriveVaultPayoutAuthorization profile state receipt supplied.expiresAt supplied.nonce
    revertIf (payload.vaultPayoutAuthorization ≠ expected
        ∨ payload.vaultPayoutAuthorizationDigest ≠ profile.vaultPayoutAuthorizationDigest expected)
      "payout funding vault authorization binding mismatch"
    let record : StoredAuthorization := {
      key := profile.vaultPayoutKey payload.vaultPayoutAuthorizationDigest
      nonceKey := profile.vaultPayoutNonceKey supplied.nonce
      cycleId := state.cycleId
      actionKind := .payout
      authorizationKind := .vaultPayout
      actionDigest := returnActionDigest
      subjectDigest := payload.verificationReceiptDigest
      commitment :=
        profile.vaultPayoutCommitment supplied payload.vaultPayoutAuthorizationDigest
      validatedAt := profile.validatedAt }
    let staged ← stageAuthorization store record record.key
      "vault payout authorization store consumption mismatch"
    revertIf (payload.replayKey
        ≠ profile.replayKey state.cycleId payload.proceedsKey payload.verificationReceiptDigest)
      "payout funding replay key mismatch"
    revertIf (payload.intent ≠ profile.fundingIntent payload event.previousDigest)
      "payout funding intent mismatch"
    revertIf state.payoutFundingPreparation.isSome "payout funding is already prepared"
    return ({ state with payoutFundingPreparation := some payload }, staged)
  | _, _ =>
    .error "recorded distribution verification is required before payout funding preparation"

end Hookemon.Runner.CycleReducer
