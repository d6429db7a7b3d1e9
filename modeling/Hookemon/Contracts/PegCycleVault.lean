import Hookemon.Core.Trace
import Hookemon.Contracts.PegCycleAuthorization
import Hookemon.Contracts.PegCycleEscrow

/-! # The coordinator of the peg cycles (`process/PegCycleVault.sol`)

The vault takes one cycle at a time from its funding to a terminal record, under a
global lifecycle, and remembers what it accepted. Its libraries
`FundingAuthorizationValidation` and `PayoutDistributionSignatures` run as its own
code.

The only call that hands control to code outside is the one of the route executor:
the escrows are contracts of this repository, and the token is honest. Between the
calls of the vault anybody may move the token and deploy contracts; the vault and
the escrows make no calls but those of their code.
-/

namespace Hookemon.Contracts

open Hookemon.Core

abbrev requirementsRevision : BitVec 32 := 57

/-! ## Construction -/

/-- The constructor arguments, with the address and the chain of the vault. -/
structure VaultConfig where
  self : Address
  chainId : BitVec 256
  usdg : Address
  authorizer : Address
  routeExecutor : Address
  bindingManifestDigest : Bytes32
  deploymentAuthority : Address
  distributionSigner : Address
  distributionVerifier : Address
deriving DecidableEq, Repr

/-- The checks of the constructor. -/
def VaultConfig.checks (c : VaultConfig) (code : Address → Bool) : Run Unit := do
  revertIf (c.usdg = 0 ∨ code c.usdg = false ∨ c.authorizer = 0 ∨ c.routeExecutor = 0 ∨
    code c.routeExecutor = false ∨ c.bindingManifestDigest = 0 ∨ c.deploymentAuthority = 0 ∨
    c.authorizer = c.self ∨ c.routeExecutor = c.self ∨ c.distributionSigner = 0 ∨
    c.distributionVerifier = 0 ∨ c.distributionSigner = c.self ∨
    c.distributionVerifier = c.self) .invalidImmutableIdentity
  revertIf (c.distributionSigner = c.distributionVerifier ∨ c.distributionSigner = c.authorizer ∨
    c.distributionVerifier = c.authorizer) .distributionSignerConflict

/-- A configuration that the constructor accepted, on the chain it found: the token
with any balances, any contracts, and no escrow yet. -/
structure VaultDeployment extends VaultConfig where
  token : UsdgToken
  code : Address → Bool
  accepted : toVaultConfig.checks code = .ok ()

/-- The separator of the domain of the two signatures. -/
def VaultConfig.domainSeparator (env : VaultExternals) (c : VaultConfig) : Bytes32 :=
  env.keccak256 (encodeWords
    [env.keccak256 (asciiBytes
        "EIP712Domain(string name,string version,uint256 chainId,address verifyingContract)"),
      env.keccak256 (asciiBytes "HookemonPayoutVault"), env.keccak256 (asciiBytes "1"),
      c.chainId, c.self.setWidth 256])

/-! ## Storage -/

/-- `Lifecycle`, in the order of the source. -/
inductive Lifecycle where
  | empty
  | funded
  | outbound
  | returned
  | payoutCommitted
  | failed
  | degraded
deriving DecidableEq, Repr

namespace Lifecycle

/-- A cycle is under way. -/
def isOpen : Lifecycle → Bool
  | funded | outbound | returned => true
  | empty | payoutCommitted | failed | degraded => false

/-- A cycle has come to its end. -/
def isTerminal : Lifecycle → Bool
  | payoutCommitted | failed | degraded => true
  | empty | funded | outbound | returned => false

/-- `uint8(lifecycle)`. -/
def ordinal : Lifecycle → Nat
  | empty => 0
  | funded => 1
  | outbound => 2
  | returned => 3
  | payoutCommitted => 4
  | failed => 5
  | degraded => 6

end Lifecycle

/-- The storage of the vault. -/
structure PegCycleVault where
  hook : Address
  lifecycle : Lifecycle
  pendingAuthorization : FundingAuthorization
  activeAuthorization : FundingAuthorization
  fundingAuthorization : FundingAuthorization
  payoutAuthorization : PayoutAuthorization
  expectedFundingBalanceBefore : Nat
  pendingFailedPredecessor : Bytes32
  fundingInProgress : Bool
  outboundEntered : Bool
  payoutEntered : Bool
  consumedNonces : BitVec 256 → Bool
  consumedCycles : Bytes32 → Bool
  consumedPayoutIds : Bytes32 → Bool
  consumedReturnReceiptDigests : Bytes32 → Bool
  committedPayoutAuthorizationDigests : Bytes32 → Bytes32
  committedPayoutIds : Bytes32 → Bytes32
  committedReturnReceiptDigests : Bytes32 → Bytes32
  cycleEscrows : Bytes32 → Address
  cycleLifecycleRecords : Bytes32 → Lifecycle
  failureReceiptDigests : Bytes32 → Bytes32
  failureReceiptOwners : Bytes32 → Bytes32
  failedCycleSuccessors : Bytes32 → Bytes32
  recoveryPredecessors : Bytes32 → Bytes32
  payoutAuthorizationDigest : Bytes32
  terminalFailureReceiptDigest : Bytes32
  terminalCycleId : Bytes32

/-- The storage that the constructor leaves. -/
def PegCycleVault.initial : PegCycleVault where
  hook := 0
  lifecycle := .empty
  pendingAuthorization := .none
  activeAuthorization := .none
  fundingAuthorization := .none
  payoutAuthorization := .none
  expectedFundingBalanceBefore := 0
  pendingFailedPredecessor := 0
  fundingInProgress := false
  outboundEntered := false
  payoutEntered := false
  consumedNonces := fun _ => false
  consumedCycles := fun _ => false
  consumedPayoutIds := fun _ => false
  consumedReturnReceiptDigests := fun _ => false
  committedPayoutAuthorizationDigests := fun _ => 0
  committedPayoutIds := fun _ => 0
  committedReturnReceiptDigests := fun _ => 0
  cycleEscrows := fun _ => 0
  cycleLifecycleRecords := fun _ => .empty
  failureReceiptDigests := fun _ => 0
  failureReceiptOwners := fun _ => 0
  failedCycleSuccessors := fun _ => 0
  recoveryPredecessors := fun _ => 0
  payoutAuthorizationDigest := 0
  terminalFailureReceiptDigest := 0
  terminalCycleId := 0

/-- The vault and the chain it runs on. -/
structure VaultWorld extends Chain where
  vault : PegCycleVault

/-- The world right after the deployment of the vault, which then holds code. -/
def VaultWorld.deployed (d : VaultDeployment) : VaultWorld where
  token := d.token
  code := Function.update d.code d.self true
  escrows := fun _ => none
  vault := .initial

/-! ## Libraries -/

/-- The identity of the escrow of a cycle. -/
def escrowIdentity (c : VaultConfig) (hook : Address) (cycleId : Bytes32) : EscrowIdentity :=
  ⟨c.self, c.usdg, hook, c.routeExecutor, cycleId⟩

/-- `computeCycleEscrow`. -/
def computeCycleEscrow (env : VaultExternals) (c : VaultConfig) (hook : Address)
    (cycleId : Bytes32) : Address :=
  computeAddress env (escrowIdentity c hook cycleId)

/-- `FundingAuthorizationValidation.verify`. -/
def verifyFundingAuthorization (c : VaultConfig) (now : Nat) (a : FundingAuthorization)
    (hook expectedEscrow : Address) (nonceConsumed cycleConsumed : Bool)
    (expectedEscrowBalance : Nat) : Run Unit :=
  revertIf (a.requirementsRevision ≠ requirementsRevision ∨ a.chainId ≠ c.chainId ∨
    a.cycleId = 0 ∨ a.hook ≠ hook ∨ a.vault ≠ c.self ∨ a.usdg ≠ c.usdg ∨
    a.operationsTrigger = 0 ∨ a.operationsTrigger = c.authorizer ∨ a.operationsTrigger = hook ∨
    a.operationsTrigger = c.self ∨ a.operationsTrigger = c.routeExecutor ∨
    a.operationsTrigger = c.usdg ∨ a.operationsTrigger = c.distributionSigner ∨
    a.operationsTrigger = c.distributionVerifier ∨ a.operationsTrigger = expectedEscrow ∨
    a.amount = 0 ∨ a.bindingManifestDigest ≠ c.bindingManifestDigest ∨
    a.outboundActionDigest = 0 ∨ a.returnActionDigest = 0 ∨ a.returnDestination ≠ expectedEscrow ∨
    a.minimumRobinhoodReceive = 0 ∨ a.minimumSolanaReceive = 0 ∨ a.minimumReturnUsdg = 0 ∨
    a.robinhoodNativeGasCap = 0 ∨ a.solanaNativeGasCap = 0 ∨ a.expiresAt.toNat ≤ now ∨
    a.nonce = 0 ∨ nonceConsumed = true ∨ cycleConsumed = true ∨ expectedEscrowBalance ≠ 0)
    .invalidAuthorization

/-- `ActiveCycleContext`. -/
structure ActiveCycleContext where
  activeCycleId : Bytes32
  hook : Address
  usdg : Address
  operationsTrigger : Address
  bindingManifestDigest : Bytes32
  minimumReturnUsdg : BitVec 256
  returnActionDigest : Bytes32
  nonceConsumed : Bool
  payoutIdConsumed : Bool
  returnReceiptConsumed : Bool
  escrowBalance : Nat
deriving DecidableEq, Repr

/-- `_payoutDistributionDigest`. -/
def payoutDistributionDigest (env : VaultExternals) (domainSeparator : Bytes32)
    (a : PayoutAuthorization) : Bytes32 :=
  let structHash := env.keccak256 (encodeWords
    [env.keccak256 (asciiBytes ("PayoutDistribution(uint32 requirementsRevision,uint256 chainId," ++
        "bytes32 cycleId,address hook,address vault,address usdg,address operationsTrigger," ++
        "bytes32 bindingManifestDigest,bytes32 payoutId,bytes32 manifestDigest," ++
        "bytes32 rootHash,uint256 rootSum)")),
      a.requirementsRevision.setWidth 256, a.chainId, a.cycleId, a.hook.setWidth 256,
      a.vault.setWidth 256, a.usdg.setWidth 256, a.operationsTrigger.setWidth 256,
      a.bindingManifestDigest, a.payoutId, a.manifestDigest, a.rootHash, a.rootSum])
  env.keccak256 (0x19 :: 0x01 :: wordBytes domainSeparator ++ wordBytes structHash)

/-- Half of the order of the curve, the largest `s` of a signature that is accepted. -/
abbrev largestLowS : Nat := 0x7FFFFFFFFFFFFFFFFFFFFFFFFFFFFFFF5D576E7357A4501DDFE92F46681B20A0

/-- `_recoverSigner`. -/
def recoverSigner (env : VaultExternals) (digest : Bytes32) (signature : Bytes) :
    Run Address := do
  revertIf (signature.length ≠ 65) .missingSignature
  let r := natOfBytes (signature.take 32)
  let s := natOfBytes ((signature.drop 32).take 32)
  let v := natOfBytes (signature.drop 64)
  revertIf (largestLowS < s) .malleableSignature
  revertIf (v ≠ 27 ∧ v ≠ 28) .malleableSignature
  let signer := env.ecrecover digest v (BitVec.ofNat 256 r) (BitVec.ofNat 256 s)
  revertIf (signer = 0) .invalidSignature
  pure signer

/-- `PayoutDistributionSignatures.verify`. -/
def verifyPayoutAuthorization (env : VaultExternals) (c : VaultConfig) (now : Nat)
    (a : PayoutAuthorization) (context : ActiveCycleContext)
    (distributionSignature verifierSignature : Bytes) : Run Unit := do
  revertIf (a.requirementsRevision ≠ requirementsRevision ∨ a.chainId ≠ c.chainId ∨
    a.cycleId ≠ context.activeCycleId ∨ a.hook ≠ context.hook ∨ a.vault ≠ c.self ∨
    a.usdg ≠ context.usdg ∨ a.operationsTrigger ≠ context.operationsTrigger ∨
    a.bindingManifestDigest ≠ context.bindingManifestDigest ∨ a.payoutId = 0 ∨
    a.manifestDigest = 0 ∨ a.rootHash = 0 ∨ a.rootSum < context.minimumReturnUsdg ∨
    a.returnActionDigest ≠ context.returnActionDigest ∨ a.returnReceiptDigest = 0 ∨
    a.expiresAt.toNat ≤ now ∨ a.nonce = 0 ∨ context.nonceConsumed = true ∨
    context.returnReceiptConsumed = true ∨ context.escrowBalance < a.rootSum.toNat)
    .invalidAuthorization
  revertIf (context.payoutIdConsumed = true) .payoutIdAlreadyConsumed
  revertIf (distributionSignature = [] ∨ verifierSignature = []) .missingSignature
  revertIf (env.keccak256 distributionSignature = env.keccak256 verifierSignature)
    .duplicateSignature
  let digest := payoutDistributionDigest env (c.domainSeparator env) a
  let signer ← recoverSigner env digest distributionSignature
  revertIf (signer ≠ c.distributionSigner) .invalidDistributionSigner
  let verifier ← recoverSigner env digest verifierSignature
  revertIf (verifier ≠ c.distributionVerifier) .invalidDistributionVerifier

/-- `keccak256(abi.encode(authorization))`. -/
def payoutDigest (env : VaultExternals) (a : PayoutAuthorization) : Bytes32 :=
  env.keccak256 (encodeWords a.words)

/-- `_payoutSubjectDigest`. -/
def payoutSubjectDigest (env : VaultExternals) (a : PayoutAuthorization) : Bytes32 :=
  payoutDigest env { a with expiresAt := 0, nonce := 0 }

/-- `_fundingSubjectDigest`. -/
def fundingSubjectDigest (env : VaultExternals) (a : FundingAuthorization) : Bytes32 :=
  env.keccak256 (encodeWords { a with expiresAt := 0, nonce := 0 }.words)

/-! ## Functions -/

section

variable (env : VaultExternals) (c : VaultConfig) (now : Nat) (msgSender : Address)

/-- `bindHook`, with what the hook names as its vault, unless the call of it fails. -/
def bindHook (hook : Address) (namedVault : Option Address) (x : VaultWorld) :
    Run VaultWorld := do
  revertIf (msgSender ≠ c.deploymentAuthority) .unauthorizedCaller
  revertIf (x.vault.hook ≠ 0) .hookAlreadyBound
  revertIf (hook = 0 ∨ x.code hook = false ∨ hook = c.authorizer ∨ hook = c.usdg ∨
    hook = c.routeExecutor ∨ hook = c.self) .invalidHookBinding
  revertIf (namedVault ≠ some c.self) .invalidHookBinding
  pure { x with vault := { x.vault with hook := hook } }

/-- `_validateFundingAuthorization`. -/
def validateFundingAuthorization (a : FundingAuthorization) (x : VaultWorld) : Run Unit := do
  revertIf (x.vault.hook = 0) .invalidHookBinding
  let expectedEscrow := computeCycleEscrow env c x.vault.hook a.cycleId
  verifyFundingAuthorization c now a x.vault.hook expectedEscrow (x.vault.consumedNonces a.nonce)
    (x.vault.consumedCycles a.cycleId) (x.token.balances expectedEscrow)
  revertIf (x.vault.pendingAuthorization.cycleId ≠ 0 ∨ x.vault.fundingInProgress = true)
    .authorizationUnavailable

/-- What `_storeFundingAuthorization` writes. -/
def PegCycleVault.store (a : FundingAuthorization) (failedPredecessor : Bytes32)
    (v : PegCycleVault) : PegCycleVault :=
  { v with
    cycleEscrows := Function.update v.cycleEscrows a.cycleId a.returnDestination
    pendingAuthorization := a
    consumedNonces := Function.update v.consumedNonces a.nonce true
    consumedCycles := Function.update v.consumedCycles a.cycleId true
    pendingFailedPredecessor :=
      if failedPredecessor ≠ 0 then failedPredecessor else v.pendingFailedPredecessor
    failedCycleSuccessors :=
      if failedPredecessor ≠ 0 then
        Function.update v.failedCycleSuccessors failedPredecessor a.cycleId
      else v.failedCycleSuccessors
    recoveryPredecessors :=
      if failedPredecessor ≠ 0 then
        Function.update v.recoveryPredecessors a.cycleId failedPredecessor
      else v.recoveryPredecessors }

/-- `_storeFundingAuthorization`. -/
def storeFundingAuthorization (a : FundingAuthorization) (failedPredecessor : Bytes32)
    (x : VaultWorld) : Run VaultWorld := do
  let (escrow, chain) ←
    deployEscrow env (escrowIdentity c x.vault.hook a.cycleId) x.toChain
  revertIf (escrow ≠ a.returnDestination) .invalidAuthorization
  pure { toChain := chain, vault := x.vault.store a failedPredecessor }

/-- `authorizeFunding`. -/
def authorizeFunding (a : FundingAuthorization) (x : VaultWorld) : Run VaultWorld := do
  revertIf (msgSender ≠ c.authorizer) .unauthorizedCaller
  validateFundingAuthorization env c now a x
  revertIf (x.vault.lifecycle ≠ .empty ∧ x.vault.lifecycle ≠ .payoutCommitted) .invalidLifecycle
  storeFundingAuthorization env c a 0 x

/-- `authorizeFundingAfterFailure`. -/
def authorizeFundingAfterFailure (a : FundingAuthorization)
    (failedCycleId failureReceiptDigest : Bytes32) (x : VaultWorld) : Run VaultWorld := do
  revertIf (msgSender ≠ c.authorizer) .unauthorizedCaller
  validateFundingAuthorization env c now a x
  revertIf (x.vault.lifecycle.ordinal < Lifecycle.failed.ordinal) .invalidLifecycle
  revertIf (failedCycleId = 0 ∨ failedCycleId ≠ x.vault.terminalCycleId ∨
    failureReceiptDigest = 0 ∨
    x.vault.failureReceiptDigests failedCycleId ≠ failureReceiptDigest ∨
    x.vault.failureReceiptOwners failureReceiptDigest ≠ failedCycleId ∨
    x.vault.failedCycleSuccessors failedCycleId ≠ 0) .invalidAuthorization
  storeFundingAuthorization env c a failedCycleId x

/-- What `cancelExpiredFundingAuthorization` writes. -/
def PegCycleVault.cancel (cycleId : Bytes32) (v : PegCycleVault) : PegCycleVault :=
  { v with
    failedCycleSuccessors :=
      if v.pendingFailedPredecessor ≠ 0 then
        Function.update v.failedCycleSuccessors v.pendingFailedPredecessor 0
      else v.failedCycleSuccessors
    recoveryPredecessors :=
      if v.pendingFailedPredecessor ≠ 0 then Function.update v.recoveryPredecessors cycleId 0
      else v.recoveryPredecessors
    pendingFailedPredecessor := 0
    pendingAuthorization := .none }

/-- `cancelExpiredFundingAuthorization`. -/
def cancelExpiredFundingAuthorization (cycleId : Bytes32) (x : VaultWorld) :
    Run VaultWorld := do
  let a := x.vault.pendingAuthorization
  revertIf (a.cycleId = 0 ∨ a.cycleId ≠ cycleId ∨ now < a.expiresAt.toNat ∨
    x.vault.fundingInProgress = true) .authorizationUnavailable
  pure { x with vault := x.vault.cancel cycleId }

/-- `renewFundingAuthorizationDeadline`. -/
def renewFundingAuthorizationDeadline (renewal : FundingAuthorization) (x : VaultWorld) :
    Run VaultWorld := do
  revertIf (msgSender ≠ c.authorizer) .unauthorizedCaller
  revertIf (x.vault.lifecycle ≠ .funded) .invalidLifecycle
  revertIf (renewal.expiresAt.toNat ≤ now ∨ renewal.nonce = 0 ∨
    x.vault.consumedNonces renewal.nonce = true ∨
    fundingSubjectDigest env renewal ≠ fundingSubjectDigest env x.vault.activeAuthorization)
    .invalidAuthorization
  pure { x with vault := { x.vault with
    consumedNonces := Function.update x.vault.consumedNonces renewal.nonce true
    activeAuthorization := { x.vault.activeAuthorization with
      expiresAt := renewal.expiresAt, nonce := renewal.nonce } } }

/-- `consumeFundingAuthorization`. -/
def consumeFundingAuthorization (cycleId : Bytes32) (operationsTrigger : Address)
    (x : VaultWorld) : Run (FundingAuthorization × Nat × VaultWorld) := do
  revertIf (msgSender ≠ x.vault.hook) .unauthorizedCaller
  revertIf (x.vault.lifecycle ≠ .empty ∧
    x.vault.lifecycle.ordinal < Lifecycle.payoutCommitted.ordinal) .invalidLifecycle
  let a := x.vault.pendingAuthorization
  revertIf (a.cycleId = 0 ∨ a.cycleId ≠ cycleId ∨ a.operationsTrigger ≠ operationsTrigger ∨
    a.expiresAt.toNat ≤ now) .authorizationUnavailable
  let escrow := x.vault.cycleEscrows cycleId
  let balanceBefore := x.token.balances escrow
  revertIf (escrow = 0 ∨ balanceBefore ≠ 0) .tokenBalanceDeltaMismatch
  pure (a, balanceBefore, { x with vault := { x.vault with
    pendingAuthorization := .none
    fundingAuthorization := a
    expectedFundingBalanceBefore := balanceBefore
    fundingInProgress := true } })

/-- `confirmFunding`. -/
def confirmFunding (cycleId : Bytes32) (balanceBefore : Nat) (x : VaultWorld) :
    Run VaultWorld := do
  revertIf (msgSender ≠ x.vault.hook) .unauthorizedCaller
  let a := x.vault.fundingAuthorization
  revertIf (x.vault.fundingInProgress = false ∨ a.cycleId ≠ cycleId ∨
    balanceBefore ≠ x.vault.expectedFundingBalanceBefore ∨ balanceBefore ≠ 0)
    .authorizationUnavailable
  let balanceAfter := x.token.balances (x.vault.cycleEscrows cycleId)
  revertIf (balanceAfter ≠ a.amount.toNat) .tokenBalanceDeltaMismatch
  pure { x with vault := { x.vault with
    activeAuthorization := a
    fundingAuthorization := .none
    expectedFundingBalanceBefore := 0
    pendingFailedPredecessor := 0
    fundingInProgress := false
    lifecycle := .funded
    cycleLifecycleRecords := Function.update x.vault.cycleLifecycleRecords cycleId .funded } }

/-- `executeOutbound` up to the call of the route executor: the amount, the escrow and
what it held. -/
def beginOutbound (cycleId : Bytes32) (routeData : Bytes) (x : VaultWorld) :
    Run (Nat × Address × Nat × VaultWorld) := do
  revertIf (x.vault.outboundEntered = true) .reentrancy
  revertIf (x.vault.lifecycle ≠ .funded) .invalidLifecycle
  revertIf (msgSender ≠ x.vault.activeAuthorization.operationsTrigger) .unauthorizedCaller
  let amount := x.vault.activeAuthorization.amount.toNat
  revertIf (cycleId ≠ x.vault.activeAuthorization.cycleId ∨
    env.keccak256 routeData ≠ x.vault.activeAuthorization.outboundActionDigest ∨
    x.vault.activeAuthorization.expiresAt.toNat ≤ now) .invalidAuthorization
  let escrow := x.vault.cycleEscrows cycleId
  let x := { x with vault := { x.vault with outboundEntered := true } }
  let escrowBalanceBefore := x.token.balances escrow
  revertIf (escrowBalanceBefore < amount) .tokenBalanceDeltaMismatch
  let chain ← sendOutbound c.self escrow amount x.toChain
  pure (amount, escrow, escrowBalanceBefore, { x with toChain := chain })

/-- `executeOutbound` from the return of the route executor on. -/
def finishOutbound (cycleId : Bytes32) (amount : Nat) (escrow : Address)
    (escrowBalanceBefore : Nat) (x : VaultWorld) : Run VaultWorld := do
  revertIf (x.token.balances escrow ≠ escrowBalanceBefore - amount) .tokenBalanceDeltaMismatch
  revertIf (x.token.allowances escrow c.routeExecutor ≠ 0) .retainedAllowance
  pure { x with vault := { x.vault with
    lifecycle := .outbound
    cycleLifecycleRecords := Function.update x.vault.cycleLifecycleRecords cycleId .outbound
    outboundEntered := false } }

/-- `authorizePayout`. -/
def authorizePayout (a : PayoutAuthorization) (distributionSignature verifierSignature : Bytes)
    (x : VaultWorld) : Run VaultWorld := do
  revertIf (msgSender ≠ c.authorizer) .unauthorizedCaller
  revertIf (x.vault.lifecycle ≠ .outbound) .invalidLifecycle
  let activeCycleId := x.vault.activeAuthorization.cycleId
  let escrow := x.vault.cycleEscrows activeCycleId
  verifyPayoutAuthorization env c now a
    { activeCycleId := activeCycleId
      hook := x.vault.hook
      usdg := c.usdg
      operationsTrigger := x.vault.activeAuthorization.operationsTrigger
      bindingManifestDigest := x.vault.activeAuthorization.bindingManifestDigest
      minimumReturnUsdg := x.vault.activeAuthorization.minimumReturnUsdg
      returnActionDigest := x.vault.activeAuthorization.returnActionDigest
      nonceConsumed := x.vault.consumedNonces a.nonce
      payoutIdConsumed := x.vault.consumedPayoutIds a.payoutId
      returnReceiptConsumed := x.vault.consumedReturnReceiptDigests a.returnReceiptDigest
      escrowBalance := x.token.balances escrow }
    distributionSignature verifierSignature
  pure { x with vault := { x.vault with
    payoutAuthorization := a
    payoutAuthorizationDigest := payoutDigest env a
    consumedNonces := Function.update x.vault.consumedNonces a.nonce true
    consumedPayoutIds := Function.update x.vault.consumedPayoutIds a.payoutId true
    consumedReturnReceiptDigests :=
      Function.update x.vault.consumedReturnReceiptDigests a.returnReceiptDigest true
    lifecycle := .returned
    cycleLifecycleRecords := Function.update x.vault.cycleLifecycleRecords a.cycleId .returned } }

/-- `renewPayoutAuthorizationDeadline`. -/
def renewPayoutAuthorizationDeadline (renewal : PayoutAuthorization) (x : VaultWorld) :
    Run VaultWorld := do
  revertIf (msgSender ≠ c.authorizer) .unauthorizedCaller
  revertIf (x.vault.lifecycle ≠ .returned) .invalidLifecycle
  revertIf (renewal.expiresAt.toNat ≤ now ∨ renewal.nonce = 0 ∨
    x.vault.consumedNonces renewal.nonce = true ∨
    payoutSubjectDigest env renewal ≠ payoutSubjectDigest env x.vault.payoutAuthorization)
    .invalidAuthorization
  let payoutAuthorization := { x.vault.payoutAuthorization with
    expiresAt := renewal.expiresAt, nonce := renewal.nonce }
  pure { x with vault := { x.vault with
    consumedNonces := Function.update x.vault.consumedNonces renewal.nonce true
    payoutAuthorization := payoutAuthorization
    payoutAuthorizationDigest := payoutDigest env payoutAuthorization } }

/-- `consumePayoutAuthorization`. Its own lock is held only while the escrow sends,
and neither the escrow nor the token calls anybody back. -/
def consumePayoutAuthorization (a : PayoutAuthorization) (x : VaultWorld) :
    Run (Address × VaultWorld) := do
  revertIf (x.vault.payoutEntered = true) .reentrancy
  revertIf (msgSender ≠ x.vault.hook) .unauthorizedCaller
  revertIf (x.vault.lifecycle ≠ .returned) .invalidLifecycle
  let authorizationDigest := payoutDigest env a
  revertIf (x.vault.payoutAuthorizationDigest = 0 ∨
    authorizationDigest ≠ x.vault.payoutAuthorizationDigest ∨ a.expiresAt.toNat ≤ now)
    .authorizationUnavailable
  let escrow := x.vault.cycleEscrows a.cycleId
  let escrowBalanceBefore := x.token.balances escrow
  revertIf (escrowBalanceBefore < a.rootSum.toNat) .tokenBalanceDeltaMismatch
  let chain ← sendPayout c.self escrow a.rootSum.toNat x.toChain
  revertIf (chain.token.balances escrow ≠ escrowBalanceBefore - a.rootSum.toNat)
    .tokenBalanceDeltaMismatch
  pure (x.vault.payoutAuthorization.operationsTrigger, { toChain := chain, vault := { x.vault with
    committedPayoutAuthorizationDigests := Function.update
      x.vault.committedPayoutAuthorizationDigests a.cycleId authorizationDigest
    committedPayoutIds := Function.update x.vault.committedPayoutIds a.cycleId a.payoutId
    committedReturnReceiptDigests := Function.update x.vault.committedReturnReceiptDigests
      a.cycleId a.returnReceiptDigest
    payoutAuthorization := .none
    payoutAuthorizationDigest := 0
    lifecycle := .payoutCommitted
    cycleLifecycleRecords :=
      Function.update x.vault.cycleLifecycleRecords a.cycleId .payoutCommitted
    terminalCycleId := a.cycleId
    terminalFailureReceiptDigest := 0
    payoutEntered := false } })

/-- `_recordTerminalReceipt`. -/
def recordTerminalReceipt (cycleId receiptDigest : Bytes32) (newLifecycle : Lifecycle)
    (x : VaultWorld) : Run VaultWorld := do
  revertIf (x.vault.lifecycle ≠ .outbound ∨ cycleId ≠ x.vault.activeAuthorization.cycleId ∨
    receiptDigest = 0 ∨ x.vault.failureReceiptOwners receiptDigest ≠ 0) .invalidAuthorization
  pure { x with vault := { x.vault with
    terminalCycleId := cycleId
    failureReceiptDigests := Function.update x.vault.failureReceiptDigests cycleId receiptDigest
    failureReceiptOwners := Function.update x.vault.failureReceiptOwners receiptDigest cycleId
    lifecycle := newLifecycle
    cycleLifecycleRecords :=
      Function.update x.vault.cycleLifecycleRecords cycleId newLifecycle } }

/-- `recordTerminalFailure`. -/
def recordTerminalFailure (cycleId failureReceiptDigest : Bytes32) (x : VaultWorld) :
    Run VaultWorld := do
  revertIf (msgSender ≠ c.authorizer) .unauthorizedCaller
  let x ← recordTerminalReceipt cycleId failureReceiptDigest .failed x
  pure { x with vault := { x.vault with terminalFailureReceiptDigest := failureReceiptDigest } }

/-- `recordDegradedReturn`. -/
def recordDegradedReturn (cycleId receiptDigest : Bytes32) (acceptDegraded : Bool)
    (x : VaultWorld) : Run VaultWorld := do
  revertIf (msgSender ≠ c.authorizer) .unauthorizedCaller
  revertIf (x.token.balances (x.vault.cycleEscrows cycleId) = 0) .invalidAuthorization
  revertIf (acceptDegraded = false) .degradedConfirmationRequired
  recordTerminalReceipt cycleId receiptDigest .degraded x

end

/-! ## Entries -/

/-- The external functions of the vault that change its storage. -/
inductive VaultOp where
  | bindHook (hook : Address) (namedVault : Option Address)
  | authorizeFunding (authorization : FundingAuthorization)
  | authorizeFundingAfterFailure (authorization : FundingAuthorization)
      (failedCycleId failureReceiptDigest : Bytes32)
  | cancelExpiredFundingAuthorization (cycleId : Bytes32)
  | renewFundingAuthorizationDeadline (renewal : FundingAuthorization)
  | consumeFundingAuthorization (cycleId : Bytes32) (operationsTrigger : Address)
  | confirmFunding (cycleId : Bytes32) (balanceBefore : BitVec 256)
  | executeOutbound (cycleId : Bytes32) (routeData : Bytes)
  | authorizePayout (authorization : PayoutAuthorization)
      (distributionSignature verifierSignature : Bytes)
  | renewPayoutAuthorizationDeadline (renewal : PayoutAuthorization)
  | consumePayoutAuthorization (authorization : PayoutAuthorization)
  | recordTerminalFailure (cycleId failureReceiptDigest : Bytes32)
  | recordDegradedReturn (cycleId receiptDigest : Bytes32) (acceptDegraded : Bool)
deriving DecidableEq

/-- What happens on the chain: a call of the vault, of the token, or of an escrow, or
the deployment of some contract. -/
inductive WorldOp where
  | vault (op : VaultOp)
  | transfer (recipient : Address) (amount : Nat)
  | approve (spender : Address) (amount : Nat)
  | transferFrom (owner recipient : Address) (amount : Nat)
  | send (kind : EscrowSend) (escrow : Address) (amount : Nat)
  | deploy (account : Address)
deriving DecidableEq

/-- A call, with its sender. -/
structure WorldMsg where
  sender : Address
  op : WorldOp
deriving DecidableEq

/-- The call that leaves the vault. -/
inductive VaultRequest where
  | executeOutbound (cycleId : Bytes32) (amount : Nat) (returnDestination : Address)
      (routeData : Bytes)
deriving DecidableEq

/-- What a call returns. -/
inductive VaultReturn where
  | none
  | funding (authorization : FundingAuthorization) (balanceBefore : Nat)
  | operationsTrigger (account : Address)
deriving DecidableEq

abbrev VaultOutcome := Outcome Revert VaultRequest VaultReturn VaultWorld

/-- A call that runs to its end and returns nothing. -/
def finishVault (r : Run VaultWorld) : Run VaultOutcome := do
  let x ← r
  pure (.done .none x)

/-- The external functions of the vault. -/
def VaultOp.run (env : VaultExternals) (c : VaultConfig) (now : Nat) (msgSender : Address)
    (x : VaultWorld) : VaultOp → Run VaultOutcome
  | .bindHook hook namedVault => finishVault (Contracts.bindHook c msgSender hook namedVault x)
  | .authorizeFunding a => finishVault (Contracts.authorizeFunding env c now msgSender a x)
  | .authorizeFundingAfterFailure a failedCycleId failureReceiptDigest => finishVault
    (Contracts.authorizeFundingAfterFailure env c now msgSender a failedCycleId
      failureReceiptDigest x)
  | .cancelExpiredFundingAuthorization cycleId =>
    finishVault (Contracts.cancelExpiredFundingAuthorization now cycleId x)
  | .renewFundingAuthorizationDeadline renewal =>
    finishVault (Contracts.renewFundingAuthorizationDeadline env c now msgSender renewal x)
  | .consumeFundingAuthorization cycleId operationsTrigger => do
    let (a, balanceBefore, x) ←
      Contracts.consumeFundingAuthorization now msgSender cycleId operationsTrigger x
    pure (.done (.funding a balanceBefore) x)
  | .confirmFunding cycleId balanceBefore =>
    finishVault (Contracts.confirmFunding msgSender cycleId balanceBefore.toNat x)
  | .executeOutbound cycleId routeData => do
    let (amount, escrow, escrowBalanceBefore, x) ←
      beginOutbound env c now msgSender cycleId routeData x
    pure (.call (.executeOutbound cycleId amount escrow routeData) x
      (fun x => do
        let x ← finishOutbound c cycleId amount escrow escrowBalanceBefore x
        pure (.none, x))
      (.error .externalCallFailed))
  | .authorizePayout a distributionSignature verifierSignature => finishVault
    (Contracts.authorizePayout env c now msgSender a distributionSignature verifierSignature x)
  | .renewPayoutAuthorizationDeadline renewal =>
    finishVault (Contracts.renewPayoutAuthorizationDeadline env c now msgSender renewal x)
  | .consumePayoutAuthorization a => do
    let (operationsTrigger, x) ← Contracts.consumePayoutAuthorization env c now msgSender a x
    pure (.done (.operationsTrigger operationsTrigger) x)
  | .recordTerminalFailure cycleId failureReceiptDigest =>
    finishVault (Contracts.recordTerminalFailure c msgSender cycleId failureReceiptDigest x)
  | .recordDegradedReturn cycleId receiptDigest acceptDegraded => finishVault
    (Contracts.recordDegradedReturn c msgSender cycleId receiptDigest acceptDegraded x)

/-- A call of the token that fails when it answers nothing. -/
def finishToken (t : Option UsdgToken) (x : VaultWorld) : Run VaultOutcome :=
  match t with
  | none => .error .externalCallFailed
  | some token => pure (.done .none { x with token := token })

/-- Any call. The vault and its escrows send none on their own. -/
def WorldOp.run (env : VaultExternals) (c : VaultConfig) (now : Nat) (msgSender : Address)
    (x : VaultWorld) (op : WorldOp) : Run VaultOutcome := do
  revertIf (msgSender = c.self ∨ x.escrows msgSender ≠ none) .emptyRevert
  match op with
  | .vault op => op.run env c now msgSender x
  | .transfer recipient amount => finishToken (x.token.transfer msgSender recipient amount) x
  | .approve spender amount => finishToken (some (x.token.approve msgSender spender amount)) x
  | .transferFrom owner recipient amount =>
    finishToken (x.token.transferFrom msgSender owner recipient amount) x
  | .send kind escrow amount => finishVault do
    let chain ← sendFromEscrow kind msgSender escrow amount x.toChain
    pure { x with toChain := chain }
  | .deploy account => finishVault do
    revertIf (x.code account = true) .emptyRevert
    pure { x with code := Function.update x.code account true }

/-- The vault and the chain around it as a system of entries. -/
def vaultEnter (env : VaultExternals) (c : VaultConfig) (now : Nat) (m : WorldMsg)
    (x : VaultWorld) : VaultOutcome :=
  .ofRun (m.op.run env c now m.sender x)

end Hookemon.Contracts
