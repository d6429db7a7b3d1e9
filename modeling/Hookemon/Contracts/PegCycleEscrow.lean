import Hookemon.Contracts.Basic

/-! # The escrow of a cycle (`process/PegCycleReturnEscrow.sol`, `process/PegCycleEscrowFactory.sol`)

Every cycle has an escrow of its own, a contract at an address that is computed from
its identity and that pays out at the word of the coordinator only. `Chain` is what
the contracts share: the accounts that hold code, the escrows among them, and the
token, which is taken to be honest.
-/

namespace Hookemon.Contracts

open Hookemon.Core

/-! ## The token -/

/-- An honest token: what every account holds, and what it allows others to take. -/
structure UsdgToken where
  balances : Address → Nat
  allowances : Address → Address → Nat

namespace UsdgToken

/-- `transfer`: it moves exactly the amount, or fails. -/
def transfer (sender recipient : Address) (amount : Nat) (t : UsdgToken) : Option UsdgToken :=
  if t.balances sender < amount then none
  else
    let balances := Function.update t.balances sender (t.balances sender - amount)
    some { t with balances := Function.update balances recipient (balances recipient + amount) }

/-- `approve`. -/
def approve (owner spender : Address) (amount : Nat) (t : UsdgToken) : UsdgToken :=
  { t with
    allowances := Function.update t.allowances owner
      (Function.update (t.allowances owner) spender amount) }

/-- `transferFrom`. -/
def transferFrom (spender owner recipient : Address) (amount : Nat) (t : UsdgToken) :
    Option UsdgToken :=
  if t.allowances owner spender < amount then none
  else transfer owner recipient amount (t.approve owner spender (t.allowances owner spender - amount))

/-- A transfer leaves everyone but its two parties alone. -/
theorem transfer_balances_of_ne {sender recipient account : Address} {amount : Nat}
    {t t' : UsdgToken} (h : t.transfer sender recipient amount = some t')
    (hsender : account ≠ sender) (hrecipient : account ≠ recipient) :
    t'.balances account = t.balances account := by
  unfold transfer at h
  by_cases hshort : t.balances sender < amount
  · rw [if_pos hshort] at h
    exact nomatch h
  · rw [if_neg hshort] at h
    rw [← Option.some.inj h]
    show Function.update (Function.update t.balances sender _) recipient _ account = _
    rw [Function.update_of_ne hrecipient, Function.update_of_ne hsender]

end UsdgToken

/-! ## The chain as the contracts see it -/

/-- The immutables of an escrow. -/
structure EscrowIdentity where
  coordinator : Address
  usdg : Address
  hook : Address
  routeExecutor : Address
  cycleId : Bytes32
deriving DecidableEq, Repr

structure Chain where
  token : UsdgToken
  code : Address → Bool
  escrows : Address → Option EscrowIdentity

/-- The code outside the sources that the vault computes with: the hash function and
the signature recovery of the machine, and the creation code of the escrow. -/
structure VaultExternals where
  keccak256 : Bytes → Bytes32
  ecrecover : Bytes32 → Nat → Bytes32 → Bytes32 → Address
  escrowCreationCode : Bytes

/-- The 20 bytes of an address. -/
def addressBytes (a : Address) : Bytes := bytesOfNat 20 a.toNat

/-! ## The factory -/

/-- The constructor arguments of an escrow, as `abi.encode` writes them. -/
def EscrowIdentity.words (identity : EscrowIdentity) : List (BitVec 256) :=
  [identity.coordinator.setWidth 256, identity.usdg.setWidth 256, identity.hook.setWidth 256,
    identity.routeExecutor.setWidth 256, identity.cycleId]

/-- `computeAddress`: the `CREATE2` address of an escrow. -/
def computeAddress (env : VaultExternals) (identity : EscrowIdentity) : Address :=
  let initCodeHash := env.keccak256 (env.escrowCreationCode ++ encodeWords identity.words)
  (env.keccak256 (0xff :: addressBytes identity.coordinator ++ wordBytes identity.cycleId ++
    wordBytes initCodeHash)).setWidth 160

/-- The checks of the constructor of an escrow. -/
def EscrowIdentity.checks (identity : EscrowIdentity) (code : Address → Bool) : Run Unit :=
  revertIf (identity.coordinator = 0 ∨ code identity.coordinator = false ∨ identity.usdg = 0 ∨
    code identity.usdg = false ∨ identity.hook = 0 ∨ code identity.hook = false ∨
    identity.routeExecutor = 0 ∨ code identity.routeExecutor = false ∨ identity.cycleId = 0 ∨
    identity.coordinator = identity.usdg ∨ identity.coordinator = identity.hook ∨
    identity.coordinator = identity.routeExecutor ∨ identity.hook = identity.routeExecutor)
    .invalidIdentity

/-- `deploy`: the machine refuses to create a contract where there is one already, and
the factory compares what the new escrow says it is. -/
def deployEscrow (env : VaultExternals) (identity : EscrowIdentity) (x : Chain) :
    Run (Address × Chain) := do
  let escrow := computeAddress env identity
  revertIf (x.code escrow = true) .emptyRevert
  identity.checks x.code
  let x := { x with
    code := Function.update x.code escrow true
    escrows := Function.update x.escrows escrow (some identity) }
  revertIf (x.escrows escrow ≠ some identity) .invalidAuthorization
  pure (escrow, x)

/-! ## The escrow -/

/-- `_transferExact`, in the escrow at the given address. -/
def transferExact (escrow recipient : Address) (amount : Nat) (x : Chain) : Run Chain := do
  let sourceBalanceBefore := x.token.balances escrow
  let destinationBalanceBefore := x.token.balances recipient
  match x.token.transfer escrow recipient amount with
  | none => .error .tokenTransferFailed
  | some token =>
    revertIf (sourceBalanceBefore < token.balances escrow ∨
      sourceBalanceBefore - token.balances escrow ≠ amount ∨
      token.balances recipient < destinationBalanceBefore ∨
      token.balances recipient - destinationBalanceBefore ≠ amount) .tokenBalanceDeltaMismatch
    pure { x with token := token }

/-- What an escrow sends: to the route executor, or to the hook. -/
inductive EscrowSend where
  | outbound
  | payout
deriving DecidableEq, Repr

/-- Where an escrow sends to. -/
def EscrowSend.recipient (identity : EscrowIdentity) : EscrowSend → Address
  | .outbound => identity.routeExecutor
  | .payout => identity.hook

/-- `sendOutbound` and `sendPayout`, called by `msgSender` on the given address. -/
def sendFromEscrow (kind : EscrowSend) (msgSender escrow : Address) (amount : Nat) (x : Chain) :
    Run Chain :=
  match x.escrows escrow with
  | none => .error .emptyRevert
  | some identity => do
    revertIf (msgSender ≠ identity.coordinator) .unauthorizedCaller
    transferExact escrow (kind.recipient identity) amount x

def sendOutbound (msgSender escrow : Address) (amount : Nat) (x : Chain) : Run Chain :=
  sendFromEscrow .outbound msgSender escrow amount x

def sendPayout (msgSender escrow : Address) (amount : Nat) (x : Chain) : Run Chain :=
  sendFromEscrow .payout msgSender escrow amount x

/-! ## What they do -/

theorem deployEscrow_eq_ok {env : VaultExternals} {identity : EscrowIdentity} {x x' : Chain}
    {escrow : Address} (h : deployEscrow env identity x = .ok (escrow, x')) :
    x.code escrow = false ∧ identity.cycleId ≠ 0 ∧ x' = { x with
      code := Function.update x.code escrow true
      escrows := Function.update x.escrows escrow (some identity) } := by
  simp only [deployEscrow, EscrowIdentity.checks, bind_eq_ok, revertIf_eq_ok, pure_eq_ok,
    Prod.mk.injEq] at h
  rcases h with ⟨_, hfree, _, hidentity, _, -, rfl, rfl⟩
  push Not at hidentity
  exact ⟨by simpa using hfree, hidentity.2.2.2.2.2.2.2.2.1, rfl⟩

/-- An escrow that sends moves what it and the recipient hold, and nothing else. -/
theorem sendFromEscrow_eq_ok {kind : EscrowSend} {msgSender escrow : Address} {amount : Nat}
    {x x' : Chain} (h : sendFromEscrow kind msgSender escrow amount x = .ok x') :
    ∃ identity token, x.escrows escrow = some identity ∧ x' = { x with token := token } ∧
      token.allowances = x.token.allowances ∧
      ∀ account, account ≠ escrow → account ≠ kind.recipient identity →
        token.balances account = x.token.balances account := by
  unfold sendFromEscrow at h
  cases hidentity : x.escrows escrow with
  | none =>
    rw [hidentity] at h
    cases h
  | some identity =>
    simp only [hidentity, bind_eq_ok, revertIf_eq_ok] at h
    rcases h with ⟨_, -, hsend⟩
    unfold transferExact at hsend
    cases htransfer : x.token.transfer escrow (kind.recipient identity) amount with
    | none =>
      rw [htransfer] at hsend
      cases hsend
    | some token =>
      simp only [htransfer, bind_eq_ok, revertIf_eq_ok, pure_eq_ok] at hsend
      rcases hsend with ⟨_, -, rfl⟩
      refine ⟨identity, token, rfl, rfl, ?_, ?_⟩
      · unfold UsdgToken.transfer at htransfer
        by_cases hshort : x.token.balances escrow < amount
        · rw [if_pos hshort] at htransfer
          cases htransfer
        · rw [if_neg hshort] at htransfer
          rw [← Option.some.inj htransfer]
      · intro account hescrow hrecipient
        exact UsdgToken.transfer_balances_of_ne htransfer hescrow hrecipient

end Hookemon.Contracts
