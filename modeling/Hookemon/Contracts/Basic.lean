import Hookemon.Core.Words
import Hookemon.Core.Checked

/-! # Words, addresses and revert reasons of the Hookemon contracts

The value types of the Solidity sources and the reasons with which their
functions revert. Amounts are natural numbers; every arithmetic operation of the
sources that can leave `uint256` goes through the checked operations below.
-/

namespace Hookemon.Contracts

open Hookemon.Core

/-- `address`. -/
abbrev Address := BitVec 160

/-- `bytes32`. -/
abbrev Bytes32 := BitVec 256

/-- `type(uint256).max`. -/
abbrev uint256Max : Nat := 2 ^ 256 - 1

/-- `type(int128).max`. -/
abbrev int128Max : Nat := 2 ^ 127 - 1

/-- `type(int256).max`. -/
abbrev int256Max : Int := 2 ^ 255 - 1

/-- `type(int256).min`. -/
abbrev int256Min : Int := -2 ^ 255

/-- The reasons with which the contract functions revert, under the names of the
custom errors of the sources. The last four are not the sources' own: a checked
operation out of range, a division by zero, a failed external call whose reason
is passed on, and a library's revert without a reason. -/
inductive Revert where
  -- accounting/FeeAccounting.sol
  | invalidBeneficiary
  | invalidCollectionDelta
  | invalidLiabilityAmount
  | moneyPathReentrancy
  | tokenTransferFailed
  | insolventAccounting
  | swapBelowMinimumQuote
  | tokenBalanceDeltaMismatch
  -- access/MoneyRoles.sol
  | invalidInitialRole
  | unauthorizedCaller
  | invalidSuccessor
  | invalidRoleBeneficiary
  | invalidDestination
  | invalidCycle
  -- market/CanonicalMarket.sol
  | foreignPoolManager
  | invalidCanonicalPoolKey
  | invalidFinalizedSwap
  | reentrantCallback
  -- HookemonHook.sol
  | invalidHookAddress
  | invalidConstructorConfig
  | invalidProcessClaimConfig
  | invalidQuoteCurrencyIdentity
  | processClaimsArePaused
  | processClaimCycleAlreadyUsed
  | processClaimCapacityExceeded
  | processClaimEntryLimitReached
  | processClaimLimitExceedsMaximum
  | operationsRotationNotScheduled
  | operationsRotationNotReady
  | staleOperationsRotation
  | operationsRotationPending
  | operationsRotationTimestampOverflow
  -- payout/CanonicalMerkleSum.sol
  | invalidIndex
  | invalidRecipient
  | invalidAmount
  | sumOverflow
  -- payout/PayoutCommitment.sol
  | payoutAlreadyFunded
  | payoutBalanceDeltaMismatch
  | insufficientPayoutLiability
  | payoutNotFunded
  | payoutManifestAlreadyClosed
  | payoutChunkIndexOutOfRange
  | payoutChunkSumExceedsLiability
  | unauthorizedChunkCommitter
  -- settlement/HolderSettlement.sol
  | invalidEntitlementProof
  | entitlementAlreadyPaid
  -- process/PegCycleReturnEscrow.sol
  | invalidIdentity
  -- process/PegCycleVault.sol and its libraries
  | invalidImmutableIdentity
  | hookAlreadyBound
  | invalidHookBinding
  | invalidAuthorization
  | authorizationUnavailable
  | invalidLifecycle
  | retainedAllowance
  | reentrancy
  | degradedConfirmationRequired
  | distributionSignerConflict
  | payoutIdAlreadyConsumed
  | missingSignature
  | duplicateSignature
  | malleableSignature
  | invalidSignature
  | invalidDistributionSigner
  | invalidDistributionVerifier
  -- Solidity
  | arithmeticPanic
  | divisionPanic
  | externalCallFailed
  | emptyRevert
deriving DecidableEq, Repr

/-- A contract computation. -/
abbrev Run (α : Type) := Except Revert α

/-- `x + y` on `uint256`. -/
abbrev addU256 (x y : Nat) : Run Nat := checkedAdd uint256Max .arithmeticPanic x y

/-- `x * y` on `uint256`. -/
abbrev mulU256 (x y : Nat) : Run Nat := checkedMul uint256Max .arithmeticPanic x y

/-- `x - y` on `uint256`. -/
abbrev subU256 (x y : Nat) : Run Nat := checkedSub .arithmeticPanic x y

/-- `x % y` on `uint256`. -/
def modU256 (x y : Nat) : Run Nat := if y = 0 then .error .divisionPanic else .ok (x % y)

@[simp] theorem modU256_eq_ok {x y z : Nat} : modU256 x y = .ok z ↔ y ≠ 0 ∧ x % y = z := by
  unfold modU256
  split <;> simp_all

/-- The code outside the sources that the contracts compute with: the hash
function of the machine, and Uniswap's `FullMath.mulDivRoundingUp`. -/
structure Externals where
  keccak256 : Bytes → Bytes32
  mulDivRoundingUp : Nat → Nat → Nat → Run Nat

end Hookemon.Contracts
