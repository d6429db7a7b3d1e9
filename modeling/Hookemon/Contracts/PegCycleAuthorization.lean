import Hookemon.Contracts.Basic

/-! # The authorizations of a peg cycle (`process/IPegCycleVault.sol`)

The two messages that the authorizer of the vault signs off, field by field, with
the words that `abi.encode` makes of a payout authorization.
-/

namespace Hookemon.Contracts

open Hookemon.Core

structure FundingAuthorization where
  requirementsRevision : BitVec 32
  chainId : BitVec 256
  cycleId : Bytes32
  hook : Address
  vault : Address
  usdg : Address
  operationsTrigger : Address
  amount : BitVec 256
  bindingManifestDigest : Bytes32
  outboundActionDigest : Bytes32
  returnActionDigest : Bytes32
  returnDestination : Address
  minimumRobinhoodReceive : BitVec 256
  minimumSolanaReceive : BitVec 256
  minimumReturnUsdg : BitVec 256
  robinhoodNativeGasCap : BitVec 256
  solanaNativeGasCap : BitVec 256
  expiresAt : BitVec 64
  nonce : BitVec 256
deriving DecidableEq, Repr

structure PayoutAuthorization where
  requirementsRevision : BitVec 32
  chainId : BitVec 256
  cycleId : Bytes32
  hook : Address
  vault : Address
  usdg : Address
  operationsTrigger : Address
  bindingManifestDigest : Bytes32
  payoutId : Bytes32
  manifestDigest : Bytes32
  rootHash : Bytes32
  rootSum : BitVec 256
  returnActionDigest : Bytes32
  returnReceiptDigest : Bytes32
  expiresAt : BitVec 64
  nonce : BitVec 256
deriving DecidableEq, Repr

namespace FundingAuthorization

/-- The deleted value. -/
def none : FundingAuthorization :=
  ⟨0, 0, 0, 0, 0, 0, 0, 0, 0, 0, 0, 0, 0, 0, 0, 0, 0, 0, 0⟩

/-- The words of `abi.encode(authorization)`. -/
def words (a : FundingAuthorization) : List (BitVec 256) :=
  [a.requirementsRevision.setWidth 256, a.chainId, a.cycleId, a.hook.setWidth 256,
    a.vault.setWidth 256, a.usdg.setWidth 256, a.operationsTrigger.setWidth 256, a.amount,
    a.bindingManifestDigest, a.outboundActionDigest, a.returnActionDigest,
    a.returnDestination.setWidth 256, a.minimumRobinhoodReceive, a.minimumSolanaReceive,
    a.minimumReturnUsdg, a.robinhoodNativeGasCap, a.solanaNativeGasCap, a.expiresAt.setWidth 256,
    a.nonce]

end FundingAuthorization

namespace PayoutAuthorization

/-- The deleted value. -/
def none : PayoutAuthorization := ⟨0, 0, 0, 0, 0, 0, 0, 0, 0, 0, 0, 0, 0, 0, 0, 0⟩

/-- The words of `abi.encode(authorization)`. -/
def words (a : PayoutAuthorization) : List (BitVec 256) :=
  [a.requirementsRevision.setWidth 256, a.chainId, a.cycleId, a.hook.setWidth 256,
    a.vault.setWidth 256, a.usdg.setWidth 256, a.operationsTrigger.setWidth 256,
    a.bindingManifestDigest, a.payoutId, a.manifestDigest, a.rootHash, a.rootSum,
    a.returnActionDigest, a.returnReceiptDigest, a.expiresAt.setWidth 256, a.nonce]

/-- The encoding loses nothing. -/
theorem words_injective : Function.Injective words := by
  intro a b h
  simp only [words, List.cons.injEq, and_true] at h
  rcases h with ⟨hrevision, hchain, hcycle, hhook, hvault, husdg, htrigger, hbinding, hpayout,
    hmanifest, hroot, hsum, haction, hreceipt, hexpires, hnonce⟩
  cases a
  cases b
  rw [PayoutAuthorization.mk.injEq]
  exact ⟨setWidth_inj_of_le (by decide) hrevision, hchain, hcycle,
    setWidth_inj_of_le (by decide) hhook, setWidth_inj_of_le (by decide) hvault,
    setWidth_inj_of_le (by decide) husdg, setWidth_inj_of_le (by decide) htrigger, hbinding,
    hpayout, hmanifest, hroot, hsum, haction, hreceipt, setWidth_inj_of_le (by decide) hexpires,
    hnonce⟩

end PayoutAuthorization

end Hookemon.Contracts
