import Hookemon.Core.Checked
import Hookemon.Js.Map
import Hookemon.Js.Text

/-! # The evidence of a cycle (`cycle/reducer.mjs`, `cycle/evidence-profile.mjs`)

What the journal of a cycle carries and what the reducer reads of it: the actions that a
cycle performs on the two chains, the approvals of their owner, the messages, signatures,
broadcasts and receipts, and the mutations at the Collector. Which of it is genuine is
decided by an evidence profile; the reducer reads it only through the profile.

A digest is a word of 256 bits, so every digest here has the form that `assertDigest` asks
for; amounts and heights are canonical decimals, so they are numbers, and equal as texts
when they are equal. What only a profile reads of a record is its `details`.
-/

namespace Hookemon.Runner.CycleReducer

open Hookemon.Core Hookemon.Js

abbrev Digest := BitVec 256

/-! ## Actions -/

inductive ActionKind
  | outbound | purchase | buyback | returned
deriving DecidableEq, Repr

def ActionKind.name : ActionKind → String
  | .outbound => "outbound"
  | .purchase => "purchase"
  | .buyback => "buyback"
  | .returned => "return"

/-- `cycleActionKinds`. -/
def cycleActionKinds : List ActionKind := [.outbound, .purchase, .buyback, .returned]

/-- `actionAuthorizationKinds`. -/
inductive AuthorizationKind
  | mutation | sign | broadcast | assetSpend | gasSpend
deriving DecidableEq, Repr

def AuthorizationKind.name : AuthorizationKind → String
  | .mutation => "mutation"
  | .sign => "sign"
  | .broadcast => "broadcast"
  | .assetSpend => "asset-spend"
  | .gasSpend => "gas-spend"

def actionAuthorizationKinds : List AuthorizationKind :=
  [.mutation, .sign, .broadcast, .assetSpend, .gasSpend]

inductive GasChain
  | robinhood | solana
deriving DecidableEq, Repr

/-- `nativeGasChainForActionKind`: the bridge legs run on Robinhood Chain, the Collector
actions on Solana. -/
def nativeGasChainForActionKind : ActionKind → GasChain
  | .outbound => .robinhood
  | .purchase => .solana
  | .buyback => .solana
  | .returned => .robinhood

/-- What a binding pins beyond the constants of `validateBinding`. -/
structure Binding where
  pack : Text
  quantity : Nat
  turbo : Bool
  executionWallet : Text
  refundTokenAccount : Text
  refundTokenAccountOwner : Text
deriving DecidableEq, Repr

/-- `validateBinding`, of a binding whose names have their form. -/
def validateBinding (binding : Binding) : Except String Binding := do
  revertIf (binding.quantity ≠ 1) "binding quantity is invalid"
  revertIf (binding.turbo ≠ false) "binding turbo is invalid"
  revertIf (binding.refundTokenAccountOwner ≠ binding.executionWallet)
    "binding refund account must belong to execution wallet"
  return binding

structure Validity where
  recentBlockhash : Text
  currentHeight : Nat
  lastValidHeight : Nat
deriving DecidableEq, Repr

structure Action where
  cycleId : Text
  actionKind : ActionKind
  binding : Binding
  preflightDigest : Digest
  operationsTrigger : Text
  cycleVaultAccount : Text
  policyAccount : Text
  returnAccount : Text
  sourceAccount : Text
  destination : Text
  mint : Text
  tokenAccount : Text
  feePayer : Text
  principalAmount : Nat
  minimumReceive : Nat
  nativeGasAmount : Nat
  amount : Nat
  validity : Validity
  details : Text
deriving DecidableEq, Repr

/-- `profile.action.digests`. -/
@[ext] structure ActionDigests where
  actionDigest : Digest
  bindingDigest : Digest
  instructionsDigest : Digest
  signersDigest : Digest
deriving DecidableEq, Repr

structure PreparedAction where
  action : Action
  digests : ActionDigests
deriving DecidableEq, Repr

structure WalletBinding where
  executionWallet : Text
  refundTokenAccount : Text
  refundTokenAccountOwner : Text
deriving DecidableEq, Repr

/-- `preflight.nativeGasCaps`; a verified preflight has a cap for both chains. -/
structure NativeGasCaps where
  robinhood : Nat
  solana : Nat
deriving DecidableEq, Repr

def NativeGasCaps.on (caps : NativeGasCaps) : GasChain → Nat
  | .robinhood => caps.robinhood
  | .solana => caps.solana

structure MinimumReceives where
  outbound : Nat
  purchase : Nat
  buyback : Nat
  returned : Nat
deriving DecidableEq, Repr

def MinimumReceives.of (minimum : MinimumReceives) : ActionKind → Nat
  | .outbound => minimum.outbound
  | .purchase => minimum.purchase
  | .buyback => minimum.buyback
  | .returned => minimum.returned

structure ReleaseEvidence where
  chainId : Nat
  details : Text
deriving DecidableEq, Repr

structure Preflight where
  cycleId : Text
  preflightDigest : Digest
  requirementsRevision : Nat
  operationsTrigger : Text
  cycleVaultAccount : Text
  policyAccount : Text
  returnAccount : Text
  releasedAmount : Nat
  totalPrincipal : Nat
  spendCap : Nat
  nativeGasCaps : NativeGasCaps
  minimumReceives : MinimumReceives
  hook : Text
  usdg : Text
  bindingManifestDigest : Digest
  releaseEvidence : ReleaseEvidence
  details : Text
deriving DecidableEq, Repr

/-! ## Approvals and what is signed under them -/

structure Approval where
  cycleId : Text
  actionKind : ActionKind
  authorizationKind : AuthorizationKind
  actionDigest : Digest
  subjectDigest : Digest
  attempt : Nat
  approvalDigest : Digest
  details : Text
deriving DecidableEq, Repr

structure ConsumedApproval where
  approvalKey : Digest
  subjectDigest : Digest
deriving DecidableEq, Repr

/-- What a decoded message says. -/
structure Message where
  sourceAccount : Text
  details : Text
deriving DecidableEq, Repr

structure DecodedMessage where
  messageBytes : Text
  messageDigest : Digest
  decoded : Message
deriving DecidableEq, Repr

structure SignedRecord where
  actionDigest : Digest
  messageDigest : Digest
  signedBytes : Text
  signedBytesDigest : Digest
  broadcastSignature : Text
deriving DecidableEq, Repr

structure BlockhashEvidence where
  cycleId : Text
  actionDigest : Digest
  messageDigest : Digest
  signedBytesDigest : Digest
  recentBlockhash : Text
  lastValidHeight : Nat
  observedHeight : Nat
  details : Text
deriving DecidableEq, Repr

structure BlockhashValidity where
  evidence : BlockhashEvidence
  eventDigest : Digest
deriving DecidableEq, Repr

structure BroadcastRecord where
  actionDigest : Digest
  messageDigest : Digest
  signedBytesDigest : Digest
  broadcastSignature : Text
deriving DecidableEq, Repr

/-- `actionExecution`. -/
structure ActionExecution where
  digests : ActionDigests
  messageDigest : Digest
  signedBytesDigest : Digest
  broadcastSignature : Text
deriving DecidableEq, Repr

/-! ## Receipts and their accounting -/

/-- What a receipt says it moved; the NFT fields are those of the Collector actions. -/
structure TransferRelation where
  sourceAccount : Text
  destinationAccount : Text
  inputAsset : Text
  outputAsset : Text
  preSourceBalance : Nat
  postSourceBalance : Nat
  preDestinationBalance : Nat
  postDestinationBalance : Nat
  amountIn : Nat
  amountOut : Nat
  nftMint : Text
  nftCustodyAccount : Text
  preNftBalance : Nat
  postNftBalance : Nat
  nftDestinationAccount : Text
  preNftDestinationBalance : Nat
  postNftDestinationBalance : Nat
deriving DecidableEq, Repr

structure ProviderReceipt where
  actionDigest : Digest
  actionKind : ActionKind
  chain : Text
  cluster : Text
  transactionSignature : Text
  blockHeight : Nat
  blockHash : Text
  relation : TransferRelation
  details : Text
deriving DecidableEq, Repr

inductive Direction
  | debit | credit
deriving DecidableEq, Repr

structure Movement where
  transactionSignature : Text
  receiptDigest : Digest
  blockHeight : Nat
  blockHash : Text
  direction : Direction
  asset : Text
  amount : Int
deriving DecidableEq, Repr

structure AccountActivity where
  account : Text
  asset : Text
  fromBlockHeight : Nat
  fromBlockHash : Text
  toBlockHeight : Nat
  toBlockHash : Text
  openingBalance : Nat
  closingBalance : Nat
  movements : List Movement
deriving DecidableEq, Repr

structure NativeGas where
  account : Text
  asset : Text
  actualDebit : Nat
deriving DecidableEq, Repr

structure ExecutionAccounting where
  cycleId : Text
  actionKind : ActionKind
  actionDigest : Digest
  receiptDigest : Digest
  transactionSignature : Text
  blockHeight : Nat
  blockHash : Text
  nativeGas : NativeGas
  sourceActivity : AccountActivity
  accountActivity : AccountActivity
  nftDestinationActivity : Option AccountActivity
  verificationDigest : Digest
deriving DecidableEq, Repr

/-! ## The Collector -/

inductive CollectorAction
  | generate | openPack
deriving DecidableEq, Repr

/-- A request to the Collector; only one to open a pack names the prize wallet. -/
structure CollectorRequest where
  cycleId : Text
  pack : Text
  quantity : Nat
  turbo : Bool
  wallet : Text
  prizeWallet : Option Text
  memo : Text
deriving DecidableEq, Repr

structure CollectorIntent where
  request : CollectorRequest
  requestDigest : Digest
deriving DecidableEq, Repr

/-- An authorization as it is journaled, before the profile has verified it. -/
structure CollectorAuthorizationInput where
  action : CollectorAction
  details : Text
deriving DecidableEq, Repr

/-- A verified authorization; one of the standing authority has no expiry of its own. -/
structure CollectorAuthorization where
  cycleId : Text
  requestDigest : Digest
  prizeWallet : Text
  attempt : Nat
  expiry : Option Nat
  authorizationDigest : Digest
  details : Text
deriving DecidableEq, Repr

structure GenerateResponse where
  responseId : Text
  cycleId : Text
  pack : Text
  quantity : Nat
  turbo : Bool
  wallet : Text
  prizeWallet : Text
  details : Text
deriving DecidableEq, Repr

structure CollectorGenerated where
  binding : Binding
  preflightDigest : Digest
  response : GenerateResponse
deriving DecidableEq, Repr

structure CollectorStatus where
  cycleId : Text
  wallet : Text
  prizeWallet : Text
  pack : Text
  quantity : Nat
  turbo : Bool
  memo : Text
  packTokenMint : Text
  details : Text
deriving DecidableEq, Repr

structure OpenExecution where
  cycleId : Text
  requestDigest : Digest
  authorizationDigest : Digest
  wallet : Text
  prizeWallet : Text
  packTokenMint : Text
  packTokenAccount : Text
  memo : Text
  executionDigest : Digest
  broadcastSignature : Text
deriving DecidableEq, Repr

structure OpenCustody where
  cycleId : Text
  requestDigest : Digest
  authorizationDigest : Digest
  openExecutionDigest : Digest
  broadcastSignature : Text
  wallet : Text
  prizeWallet : Text
  packTokenMint : Text
  packTokenAccount : Text
  prePackBalance : Nat
  postPackBalance : Nat
  nftMint : Text
  nftCustodyAccount : Text
  preNftBalance : Nat
  postNftBalance : Nat
  blockHeight : Nat
  details : Text
deriving DecidableEq, Repr

structure RpcFinality where
  details : Text
deriving DecidableEq, Repr

structure OpenCustodyRecord where
  custody : OpenCustody
  rpcFinality : RpcFinality
deriving DecidableEq, Repr

/-- The policy that the owner approves for the buyback once the pack is open. -/
structure PostOpenApproval where
  cycleId : Text
  actionDigest : Digest
  collectorPrizeWallet : Text
  currentOwner : Text
  mint : Text
  tokenAccount : Text
  destination : Text
  refundAmount : Nat
  minimumReceive : Nat
  approvalDigest : Digest
  details : Text
deriving DecidableEq, Repr

/-! ## Mutations outside the runner -/

/-- `externalMutationActionKinds`. -/
inductive MutationKind
  | action (kind : ActionKind)
  | collector (action : CollectorAction)
deriving DecidableEq, Repr

/-- What a mutation is attempted under, `externalMutationIdentity`. -/
structure MutationIdentity where
  actionKind : MutationKind
  attempt : Nat
  authorizationKey : Digest
deriving DecidableEq, Repr

structure ReconciliationEvidence where
  providerEvidenceDigest : Digest
  rpcEvidenceDigest : Option Digest
deriving DecidableEq, Repr

inductive MutationStatus
  | unresolved
  | externallyReconciled (evidence : ReconciliationEvidence)
deriving DecidableEq, Repr

structure ExternalMutation where
  identity : MutationIdentity
  status : MutationStatus
deriving DecidableEq, Repr

/-- The boundary of a void proof and when it was checked, in blocks or in milliseconds. -/
inductive VoidWindow
  | height (boundary checkedAt : Nat)
  | time (boundary checkedAt : Nat)
deriving DecidableEq, Repr

structure VoidProof where
  cycleId : Text
  requestDigest : Digest
  actionKind : MutationKind
  window : VoidWindow
  neverBroadcast : Bool
  finalized : Bool
  verificationDigest : Digest
  verificationSignature : Text
deriving DecidableEq, Repr

inductive Observer
  | provider | rpc
deriving DecidableEq, Repr

structure SupersedeEvidence where
  observer : Observer
  cycleId : Text
  requestDigest : Digest
  actionKind : ActionKind
  signedBytesDigest : Digest
  broadcastSignature : Text
  lastValidHeight : Nat
  observedHeight : Nat
  finalized : Bool
  notFound : Bool
  evidenceDigest : Digest
  evidenceSignature : Text
deriving DecidableEq, Repr

structure SupersessionAuthorization where
  cycleId : Text
  requestDigest : Digest
  actionKind : ActionKind
  nonce : Text
  attempt : Nat
  expiry : Nat
  fixtureApprovalDigest : Digest
  fixtureApprovalSignature : Text
deriving DecidableEq, Repr

/-! ## Closing a cycle -/

structure FrozenControl where
  cycleId : Text
  binding : Binding
  onchainCycleId : Text
  details : Text
deriving DecidableEq, Repr

structure FinalCredit where
  receiptDigest : Digest
  destinationAccount : Text
  asset : Text
  preBalance : Nat
  postBalance : Nat
  amount : Nat
  transactionSignature : Text
  blockHeight : Nat
  blockHash : Text
deriving DecidableEq, Repr

structure ClosedLedgerContent where
  cycleId : Text
  requirementsRevision : Nat
  preflightDigest : Digest
  fundingAuthorizationDigest : Digest
  operationsTrigger : Text
  cycleVaultAccount : Text
  policyAccount : Text
  returnAccount : Text
  closedJournalHead : Digest
  orderedReceiptDigests : List Digest
  orderedExecutionAccountingDigests : List Digest
  actualNativeGasUsed : NativeGasCaps
  collectorOpen : CollectorRequest
  collectorOpenExecutionDigest : Digest
  collectorStatusDigest : Digest
  collectorOpenCustodyDigest : Digest
  collectorRpcFinalityDigest : Digest
  finalCredit : FinalCredit
deriving DecidableEq, Repr

structure ClosedLedger where
  content : ClosedLedgerContent
  ledgerDigest : Digest
deriving DecidableEq, Repr

structure ConsumedProceeds where
  receiptDigest : Digest
  ledgerDigest : Digest
deriving DecidableEq, Repr

structure DistributionReceipt where
  receiptDigest : Digest
  proceedsKey : Digest
  runnerCycleId : Text
  onchainCycleId : Text
  closedLedgerDigest : Digest
  closedProceedsBasisDigest : Digest
  verificationJournalHead : Digest
  payoutId : Digest
  manifestDigest : Digest
  rootHash : Digest
  rootSum : Nat
deriving DecidableEq, Repr

structure VaultPayoutAuthorization where
  requirementsRevision : Nat
  chainId : Nat
  cycleId : Text
  hook : Text
  vault : Text
  usdg : Text
  operationsTrigger : Text
  bindingManifestDigest : Digest
  payoutId : Digest
  manifestDigest : Digest
  rootHash : Digest
  rootSum : Nat
  returnActionDigest : Digest
  returnReceiptDigest : Digest
  expiresAt : Nat
  nonce : Digest
deriving DecidableEq, Repr

structure PayoutFunding where
  proceedsKey : Digest
  verificationReceiptDigest : Digest
  onchainCycleId : Text
  payoutId : Digest
  manifestDigest : Digest
  rootHash : Digest
  rootSum : Nat
  vaultPayoutAuthorization : VaultPayoutAuthorization
  vaultPayoutAuthorizationDigest : Digest
  replayKey : Digest
  intent : Digest
deriving DecidableEq, Repr

/-! ## The evidence store -/

/-- The steps that a stored authorization may belong to. -/
inductive RecordedAction
  | action (kind : ActionKind)
  | collector (action : CollectorAction)
  | payout
deriving DecidableEq, Repr

inductive RecordedKind
  | step (kind : AuthorizationKind)
  | buybackPolicy
  | vaultPayout
deriving DecidableEq, Repr

structure StoredAuthorization where
  key : Digest
  nonceKey : Digest
  cycleId : Text
  actionKind : RecordedAction
  authorizationKind : RecordedKind
  actionDigest : Digest
  subjectDigest : Digest
  commitment : Digest
  validatedAt : Nat
deriving DecidableEq, Repr

structure StoredReceipt where
  key : Digest
  provider : Text
  providerReceiptId : Text
  cycleId : Text
  actionKind : ActionKind
  receiptDigest : Digest
  receiptCommitment : Digest
deriving DecidableEq, Repr

/-- What all cycles of a store have consumed. -/
structure EvidenceStore where
  authorizations : Map Digest StoredAuthorization
  authorizationNonces : Map Digest Digest
  receipts : Map Digest StoredReceipt

/-- What a transaction stages beside its event; no event stages more than one record of
either kind. -/
structure Staged where
  authorization : Option StoredAuthorization
  receipt : Option StoredReceipt

namespace EvidenceStore

variable (store : EvidenceStore)

/-- `cycleTransaction.consumeAuthorization`, of a transaction that has staged none. -/
def consumeAuthorization (record : StoredAuthorization) : Except String Digest := do
  revertIf ((store.authorizations.get record.key).any fun persisted => persisted ≠ record)
    "authorization already consumed by different evidence"
  revertIf ((store.authorizationNonces.get record.nonceKey).any fun owner => owner ≠ record.key)
    "authorization nonce already consumed"
  return record.key

/-- `cycleTransaction.consume`, of a transaction that has staged no receipt. -/
def consumeReceipt (record : StoredReceipt) : Except String Digest := do
  revertIf ((store.receipts.get record.key).any fun persisted => persisted ≠ record)
    "provider receipt already consumed by a different cycle or receipt"
  return record.key

/-- The authorization part of `commit`. -/
def commitAuthorization (cycleId : Text) (record : StoredAuthorization) :
    Except String EvidenceStore := do
  revertIf (record.cycleId ≠ cycleId) "authorization cycle mismatch"
  let _ ← store.consumeAuthorization record
  return { store with
    authorizations := store.authorizations.set record.key record
    authorizationNonces := store.authorizationNonces.set record.nonceKey record.key }

/-- The receipt part of `commit`. -/
def commitReceipt (cycleId : Text) (record : StoredReceipt) : Except String EvidenceStore := do
  revertIf (record.cycleId ≠ cycleId) "receipt cycle mismatch"
  let _ ← store.consumeReceipt record
  return { store with receipts := store.receipts.set record.key record }

/-- `commit`, of what a transaction of a cycle has staged. -/
def commit (cycleId : Text) (staged : Staged) : Except String EvidenceStore := do
  let authorized ← match staged.authorization with
    | none => pure store
    | some record => store.commitAuthorization cycleId record
  match staged.receipt with
    | none => pure authorized
    | some record => authorized.commitReceipt cycleId record

end EvidenceStore

/-! ## Evidence profiles -/

inductive PublicKey
  | voidObserver | supersedeProvider | supersedeRpc | supersedeOwner
deriving DecidableEq, Repr

/-- The digests and signatures of the reducer itself. `FIXTURE_AUTHORIZATION_VALIDATED_AT` is
the moment at which the fixture authorizations are judged. -/
structure Cryptography where
  voidObserverProofDigest : VoidProof → Digest
  supersedeObserverEvidenceDigest : SupersedeEvidence → Digest
  fixtureSupersessionAuthorizationDigest : SupersessionAuthorization → Digest
  supersessionNonceKey : Text → Digest
  supersessionCommitment : SupersessionAuthorization → Digest
  verifySignature : PublicKey → Digest → Text → Bool
  generateResponseDigest : GenerateResponse → Digest
  openCustodyEvidenceDigest : OpenCustody → Digest
  rpcFinalityEvidenceDigest : RpcFinality → Digest
  releaseEvidenceDigest : ReleaseEvidence → Digest
  statusRecordDigest : CollectorStatus → Digest
  ledgerDigest : ClosedLedgerContent → Digest
  proceedsKey : Text → ClosedLedger → Digest
  closedProceedsBasisDigest : Text → Digest → ClosedLedger → Digest
  vaultPayoutAuthorizationDigest : VaultPayoutAuthorization → Digest
  vaultPayoutKey : Digest → Digest
  vaultPayoutNonceKey : Digest → Digest
  vaultPayoutCommitment : VaultPayoutAuthorization → Digest → Digest
  replayKey : Text → Digest → Digest → Digest
  fundingIntent : PayoutFunding → Option Digest → Digest
  validatedAt : Nat

/-- The verifiers of one evidence profile. What depends on a clock or on an observer also
takes the moment at which it is asked. The record of a Collector authorization names the
request that it authorizes. -/
structure EvidenceProfile extends Cryptography where
  assertFrozenCycleControl : FrozenControl → Except String FrozenControl
  verifyDistributionVerificationReceipt : DistributionReceipt → Except String DistributionReceipt
  validateVaultPayoutAuthorization :
    VaultPayoutAuthorization → Except String VaultPayoutAuthorization
  assertAction : Action → Except String Action
  actionDigests : Action → ActionDigests
  verifyPreflight : Nat → Preflight → Except String Preflight
  verifyStepAuthorization : Nat → Approval → Except String Approval
  resolveActionDigest : Map ActionKind Digest → Approval → Option Digest
  matchApproval : Approval → PreparedAction → Except String Unit
  approvalKey : Approval → Digest
  attempt : Approval → Nat
  storeRecord : Approval → Nat → Except String StoredAuthorization
  messageForAction : Action → ActionDigests → Digest → Message
  decodeMessage : Text → Except String Message
  messageDigest : Message → Digest
  verifySignedTransaction : Nat → Text → DecodedMessage → Except String Text
  signedBytesDigest : Digest → Text → Digest
  verifyBlockhashValidity : Nat → BlockhashEvidence → Except String BlockhashEvidence
  verifyReceipt : Nat → ProviderReceipt → Except String ProviderReceipt
  receiptDigest : ProviderReceipt → Digest
  identityKey : ProviderReceipt → Digest
  registryRecord : ProviderReceipt → Digest → StoredReceipt
  receiptRelationship : ProviderReceipt → Action → ActionExecution → Except String Unit
  verifyExecutionAccounting : Nat → ExecutionAccounting → Except String ExecutionAccounting
  assertRequest : CollectorRequest → CollectorAction → Except String CollectorRequest
  requestDigest : CollectorRequest → CollectorAction → Digest
  verifyMutationAuthorization : Nat → CollectorAuthorizationInput → CollectorRequest →
    CollectorAction → Binding → Except String CollectorAuthorization
  mutationAuthorizationDigest : CollectorAuthorization → Digest
  mutationAuthorizationStoreRecord : CollectorAuthorization → CollectorAction → StoredAuthorization
  storeRecord_subject : ∀ authorization action,
    (mutationAuthorizationStoreRecord authorization action).subjectDigest
      = authorization.requestDigest
  assertVerifiedStatus : Nat → CollectorStatus → Except String CollectorStatus
  assertVerifiedOpenExecution : Nat → OpenExecution → Except String OpenExecution
  assertVerifiedOpenCustody : Nat → OpenCustody → Except String OpenCustody
  assertVerifiedRpcFinality : Nat → RpcFinality → OpenCustody → Except String RpcFinality
  acceptsOpenCustodyNftMint : Text → Bool
  acceptsGenerateResponse : GenerateResponse → Text → Bool
  verifyPostOpenBuyback : Nat → PostOpenApproval → Except String PostOpenApproval
  resolveBuybackDigest : Map ActionKind Digest → PostOpenApproval → Option Digest
  prizeWallet : PostOpenApproval → Action → Text
  refundAmount : PostOpenApproval → Nat
  matchPolicy : PostOpenApproval → PreparedAction → Text → Option CollectorRequest →
    Except String Unit
  postOpenStoreRecord : PostOpenApproval → Digest → StoredAuthorization

end Hookemon.Runner.CycleReducer
