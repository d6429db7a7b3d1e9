import Hookemon.Contracts.PegCycleVault

/-! # Safety of the peg cycles

What each call of the vault does to its storage (`VaultEffect`), the invariant that
all of them keep (`VaultInv`), and from it the laws of whole histories: one cycle at a
time, final records, nothing accepted twice, and successors that match their
predecessors.

The receipt that ended the last cycle is kept by `recordTerminalFailure` and left
behind by `recordDegradedReturn`, so that law holds of failed cycles and of no
degraded one.
-/

namespace Hookemon.Contracts

open Hookemon.Core

/-! ## What a call does -/

/-- What an authorization of funding checked before it was stored. -/
structure Storable (a : FundingAuthorization) (x : VaultWorld) : Prop where
  bound : x.vault.hook ≠ 0
  cycle : a.cycleId ≠ 0
  freshNonce : x.vault.consumedNonces a.nonce = false
  freshCycle : x.vault.consumedCycles a.cycleId = false
  noPending : x.vault.pendingAuthorization.cycleId = 0
  idle : x.vault.fundingInProgress = false
  closed : x.vault.lifecycle.isOpen = false
  freshEscrow : x.code a.returnDestination = false

/-- The chain with the escrow of an authorization deployed. -/
def Chain.withEscrow (x : Chain) (escrow : Address) (identity : EscrowIdentity) : Chain :=
  { x with
    code := Function.update x.code escrow true
    escrows := Function.update x.escrows escrow (some identity) }

/-- The world after an authorization was stored. -/
def VaultWorld.stored (c : VaultConfig) (a : FundingAuthorization) (failedPredecessor : Bytes32)
    (x : VaultWorld) : VaultWorld where
  toChain := x.toChain.withEscrow a.returnDestination (escrowIdentity c x.vault.hook a.cycleId)
  vault := x.vault.store a failedPredecessor

/-- The vault after a terminal receipt was recorded. -/
def PegCycleVault.terminate (cycleId receiptDigest : Bytes32) (newLifecycle : Lifecycle)
    (v : PegCycleVault) : PegCycleVault :=
  { v with
    terminalCycleId := cycleId
    failureReceiptDigests := Function.update v.failureReceiptDigests cycleId receiptDigest
    failureReceiptOwners := Function.update v.failureReceiptOwners receiptDigest cycleId
    lifecycle := newLifecycle
    cycleLifecycleRecords := Function.update v.cycleLifecycleRecords cycleId newLifecycle }

/-- What recording a terminal receipt checked. -/
structure Terminable (cycleId receiptDigest : Bytes32) (v : PegCycleVault) : Prop where
  outbound : v.lifecycle = .outbound
  active : cycleId = v.activeAuthorization.cycleId
  receipt : receiptDigest ≠ 0
  unowned : v.failureReceiptOwners receiptDigest = 0

/-- What a call of the vault that runs to its end does. -/
inductive VaultEffect (env : VaultExternals) (c : VaultConfig) (x : VaultWorld) :
    VaultOp → VaultWorld → Prop where
  | bindHook {hook : Address} {namedVault : Option Address} (hunbound : x.vault.hook = 0)
      (hhook : hook ≠ 0) (hcode : x.code hook = true) :
      VaultEffect env c x (.bindHook hook namedVault)
        { x with vault := { x.vault with hook := hook } }
  | authorizeFunding {a : FundingAuthorization} (h : Storable a x) :
      VaultEffect env c x (.authorizeFunding a) (x.stored c a 0)
  | authorizeFundingAfterFailure {a : FundingAuthorization}
      {failedCycleId failureReceiptDigest : Bytes32} (h : Storable a x)
      (hfailed : failedCycleId ≠ 0) (hfree : x.vault.failedCycleSuccessors failedCycleId = 0) :
      VaultEffect env c x (.authorizeFundingAfterFailure a failedCycleId failureReceiptDigest)
        (x.stored c a failedCycleId)
  | cancel {cycleId : Bytes32} (hpending : x.vault.pendingAuthorization.cycleId = cycleId)
      (hcycle : cycleId ≠ 0) (hidle : x.vault.fundingInProgress = false) :
      VaultEffect env c x (.cancelExpiredFundingAuthorization cycleId)
        { x with vault := x.vault.cancel cycleId }
  | renewFunding {renewal : FundingAuthorization}
      (hfresh : x.vault.consumedNonces renewal.nonce = false) :
      VaultEffect env c x (.renewFundingAuthorizationDeadline renewal)
        { x with vault := { x.vault with
          consumedNonces := Function.update x.vault.consumedNonces renewal.nonce true
          activeAuthorization := { x.vault.activeAuthorization with
            expiresAt := renewal.expiresAt, nonce := renewal.nonce } } }
  | consumeFunding {cycleId : Bytes32} {operationsTrigger : Address} {balanceBefore : Nat}
      (hclosed : x.vault.lifecycle.isOpen = false)
      (hpending : x.vault.pendingAuthorization.cycleId ≠ 0) :
      VaultEffect env c x (.consumeFundingAuthorization cycleId operationsTrigger)
        { x with vault := { x.vault with
          pendingAuthorization := .none
          fundingAuthorization := x.vault.pendingAuthorization
          expectedFundingBalanceBefore := balanceBefore
          fundingInProgress := true } }
  | confirmFunding {cycleId : Bytes32} {balanceBefore : BitVec 256}
      (hfunding : x.vault.fundingInProgress = true)
      (hcycle : x.vault.fundingAuthorization.cycleId = cycleId) :
      VaultEffect env c x (.confirmFunding cycleId balanceBefore)
        { x with vault := { x.vault with
          activeAuthorization := x.vault.fundingAuthorization
          fundingAuthorization := .none
          expectedFundingBalanceBefore := 0
          pendingFailedPredecessor := 0
          fundingInProgress := false
          lifecycle := .funded
          cycleLifecycleRecords :=
            Function.update x.vault.cycleLifecycleRecords cycleId .funded } }
  | authorizePayout {a : PayoutAuthorization} {distributionSignature verifierSignature : Bytes}
      (houtbound : x.vault.lifecycle = .outbound)
      (hactive : a.cycleId = x.vault.activeAuthorization.cycleId)
      (hnonce : x.vault.consumedNonces a.nonce = false)
      (hpayout : x.vault.consumedPayoutIds a.payoutId = false)
      (hreceipt : x.vault.consumedReturnReceiptDigests a.returnReceiptDigest = false) :
      VaultEffect env c x (.authorizePayout a distributionSignature verifierSignature)
        { x with vault := { x.vault with
          payoutAuthorization := a
          payoutAuthorizationDigest := payoutDigest env a
          consumedNonces := Function.update x.vault.consumedNonces a.nonce true
          consumedPayoutIds := Function.update x.vault.consumedPayoutIds a.payoutId true
          consumedReturnReceiptDigests :=
            Function.update x.vault.consumedReturnReceiptDigests a.returnReceiptDigest true
          lifecycle := .returned
          cycleLifecycleRecords :=
            Function.update x.vault.cycleLifecycleRecords a.cycleId .returned } }
  | renewPayout {renewal payout : PayoutAuthorization}
      (hfresh : x.vault.consumedNonces renewal.nonce = false)
      (hcycle : payout.cycleId = x.vault.payoutAuthorization.cycleId) :
      VaultEffect env c x (.renewPayoutAuthorizationDeadline renewal)
        { x with vault := { x.vault with
          consumedNonces := Function.update x.vault.consumedNonces renewal.nonce true
          payoutAuthorization := payout
          payoutAuthorizationDigest := payoutDigest env payout } }
  | consumePayout {a : PayoutAuthorization} {token : UsdgToken} {identity : EscrowIdentity}
      {digests payoutIds receipts : Bytes32 → Bytes32}
      (hreturned : x.vault.lifecycle = .returned)
      (hdigest : payoutDigest env a = x.vault.payoutAuthorizationDigest)
      (hescrow : x.escrows (x.vault.cycleEscrows a.cycleId) = some identity)
      (hmoved : ∀ account, account ≠ x.vault.cycleEscrows a.cycleId → account ≠ identity.hook →
        token.balances account = x.token.balances account) :
      VaultEffect env c x (.consumePayoutAuthorization a)
        { x with token := token, vault := { x.vault with
          committedPayoutAuthorizationDigests := digests
          committedPayoutIds := payoutIds
          committedReturnReceiptDigests := receipts
          payoutAuthorization := .none
          payoutAuthorizationDigest := 0
          lifecycle := .payoutCommitted
          cycleLifecycleRecords :=
            Function.update x.vault.cycleLifecycleRecords a.cycleId .payoutCommitted
          terminalCycleId := a.cycleId
          terminalFailureReceiptDigest := 0
          payoutEntered := false } }
  | recordTerminalFailure {cycleId failureReceiptDigest : Bytes32}
      (h : Terminable cycleId failureReceiptDigest x.vault) :
      VaultEffect env c x (.recordTerminalFailure cycleId failureReceiptDigest)
        { x with vault := { x.vault.terminate cycleId failureReceiptDigest .failed with
          terminalFailureReceiptDigest := failureReceiptDigest } }
  | recordDegradedReturn {cycleId receiptDigest : Bytes32} {acceptDegraded : Bool}
      (h : Terminable cycleId receiptDigest x.vault) :
      VaultEffect env c x (.recordDegradedReturn cycleId receiptDigest acceptDegraded)
        { x with vault := x.vault.terminate cycleId receiptDigest .degraded }

/-- What a call of anything does. -/
inductive WorldEffect (env : VaultExternals) (c : VaultConfig) (x : VaultWorld) :
    WorldOp → VaultWorld → Prop where
  | vault {op : VaultOp} {x' : VaultWorld} (h : VaultEffect env c x op x') :
      WorldEffect env c x (.vault op) x'
  | token {op : WorldOp} {token : UsdgToken} (hop : ∀ v, op ≠ .vault v) :
      WorldEffect env c x op { x with token := token }
  | deploy {account : Address} :
      WorldEffect env c x (.deploy account) { x with code := Function.update x.code account true }

theorem isTerminal_of_isOpen {l : Lifecycle} (h : l.isOpen = true) : l.isTerminal = false := by
  cases l <;> simp_all [Lifecycle.isTerminal, Lifecycle.isOpen]

theorem isOpen_of_ordinal {l : Lifecycle} (h : Lifecycle.payoutCommitted.ordinal ≤ l.ordinal) :
    l.isOpen = false := by
  cases l <;> simp_all [Lifecycle.ordinal, Lifecycle.isOpen]

theorem storable_of_ok {env : VaultExternals} {c : VaultConfig} {now : Nat}
    {a : FundingAuthorization} {failedPredecessor : Bytes32} {x x' : VaultWorld}
    (hvalid : validateFundingAuthorization env c now a x = .ok ())
    (hstore : storeFundingAuthorization env c a failedPredecessor x = .ok x')
    (hclosed : x.vault.lifecycle.isOpen = false) :
    Storable a x ∧ x' = x.stored c a failedPredecessor := by
  simp only [validateFundingAuthorization, verifyFundingAuthorization, bind_eq_ok,
    revertIf_eq_ok] at hvalid
  rcases hvalid with ⟨_, hbound, _, hfields, hpending⟩
  simp only [storeFundingAuthorization, bind_eq_ok, revertIf_eq_ok, pure_eq_ok] at hstore
  rcases hstore with ⟨⟨escrow, chain⟩, hdeploy, _, hescrow, rfl⟩
  rcases deployEscrow_eq_ok hdeploy with ⟨hfree, hcycle, hchain⟩
  have hsame : escrow = a.returnDestination := by simpa using hescrow
  push Not at hfields hpending
  rw [hsame] at hfree hchain
  have hflags : x.vault.consumedNonces a.nonce = false ∧
      x.vault.consumedCycles a.cycleId = false := by
    rcases hfields with ⟨-, -, -, -, -, -, -, -, -, -, -, -, -, -, -, -, -, -, -, -, -, -, -, -,
      -, -, -, hnonce, hconsumed, -⟩
    exact ⟨by simpa using hnonce, by simpa using hconsumed⟩
  refine ⟨⟨hbound, hcycle, hflags.1, hflags.2, hpending.1, by simpa using hpending.2, hclosed,
    hfree⟩, ?_⟩
  rw [VaultWorld.stored, hchain]
  rfl

theorem terminable_of_ok {cycleId receiptDigest : Bytes32} {newLifecycle : Lifecycle}
    {x x' : VaultWorld} (h : recordTerminalReceipt cycleId receiptDigest newLifecycle x = .ok x') :
    Terminable cycleId receiptDigest x.vault ∧
      x' = { x with vault := x.vault.terminate cycleId receiptDigest newLifecycle } := by
  simp only [recordTerminalReceipt, bind_eq_ok, revertIf_eq_ok, pure_eq_ok] at h
  rcases h with ⟨_, hguard, rfl⟩
  push Not at hguard
  exact ⟨⟨hguard.1, hguard.2.1, hguard.2.2.1, hguard.2.2.2⟩, rfl⟩

theorem finishVault_eq_done {r : Run VaultWorld} {v : VaultReturn} {x : VaultWorld} :
    finishVault r = .ok (.done v x) ↔ r = .ok x ∧ v = .none := by
  simp only [finishVault, bind_eq_ok, pure_eq_ok, Outcome.done.injEq]
  constructor
  · rintro ⟨y, hrun, hv, rfl⟩
    exact ⟨hrun, hv.symm⟩
  · rintro ⟨hrun, rfl⟩
    exact ⟨x, hrun, rfl, rfl⟩

theorem finishVault_ne_call {r : Run VaultWorld} {request : VaultRequest} {sent : VaultWorld}
    {onReturn : VaultWorld → Run (VaultReturn × VaultWorld)}
    {onFailure : Run (VaultReturn × VaultWorld)} :
    finishVault r ≠ .ok (.call request sent onReturn onFailure) := by
  intro h
  simp only [finishVault, bind_eq_ok, pure_eq_ok, reduceCtorEq, and_false, exists_false] at h

theorem vaultEffect_of_run {env : VaultExternals} {c : VaultConfig} {now : Nat}
    {msgSender : Address} {op : VaultOp} {x x' : VaultWorld} {v : VaultReturn}
    (h : op.run env c now msgSender x = .ok (.done v x')) : VaultEffect env c x op x' := by
  cases op with
  | bindHook hook namedVault =>
    rcases finishVault_eq_done.mp h with ⟨hrun, -⟩
    simp only [bindHook, bind_eq_ok, revertIf_eq_ok, pure_eq_ok] at hrun
    rcases hrun with ⟨_, -, _, hunbound, _, hidentity, _, -, rfl⟩
    push Not at hidentity
    exact .bindHook (by simpa using hunbound) hidentity.1 (by simpa using hidentity.2.1)
  | authorizeFunding a =>
    rcases finishVault_eq_done.mp h with ⟨hrun, -⟩
    simp only [authorizeFunding, bind_eq_ok, revertIf_eq_ok] at hrun
    rcases hrun with ⟨_, -, _, hvalid, _, hlifecycle, hstore⟩
    -- only an empty vault or one that paid out may take a new authorization
    have hclosed : x.vault.lifecycle.isOpen = false := by
      by_cases hempty : x.vault.lifecycle = .empty
      · rw [hempty]
        rfl
      · have hcommitted : x.vault.lifecycle = .payoutCommitted := by
          by_contra hnot
          exact hlifecycle ⟨hempty, hnot⟩
        rw [hcommitted]
        rfl
    rcases storable_of_ok hvalid hstore hclosed with ⟨hstorable, rfl⟩
    exact .authorizeFunding hstorable
  | authorizeFundingAfterFailure a failedCycleId failureReceiptDigest =>
    rcases finishVault_eq_done.mp h with ⟨hrun, -⟩
    simp only [authorizeFundingAfterFailure, bind_eq_ok, revertIf_eq_ok] at hrun
    rcases hrun with ⟨_, -, _, hvalid, _, hlifecycle, _, hguard, hstore⟩
    push Not at hguard
    -- after a failure the lifecycle is past every open one
    have hclosed : x.vault.lifecycle.isOpen = false :=
      isOpen_of_ordinal ((by decide : Lifecycle.payoutCommitted.ordinal ≤
        Lifecycle.failed.ordinal).trans (Nat.le_of_not_lt hlifecycle))
    rcases storable_of_ok hvalid hstore hclosed with ⟨hstorable, rfl⟩
    exact .authorizeFundingAfterFailure hstorable hguard.1 hguard.2.2.2.2.2
  | cancelExpiredFundingAuthorization cycleId =>
    rcases finishVault_eq_done.mp h with ⟨hrun, -⟩
    simp only [cancelExpiredFundingAuthorization, bind_eq_ok, revertIf_eq_ok, pure_eq_ok] at hrun
    rcases hrun with ⟨_, hguard, rfl⟩
    push Not at hguard
    exact .cancel hguard.2.1 (hguard.2.1 ▸ hguard.1) (by simpa using hguard.2.2.2)
  | renewFundingAuthorizationDeadline renewal =>
    rcases finishVault_eq_done.mp h with ⟨hrun, -⟩
    simp only [renewFundingAuthorizationDeadline, bind_eq_ok, revertIf_eq_ok, pure_eq_ok] at hrun
    rcases hrun with ⟨_, -, _, -, _, hguard, rfl⟩
    push Not at hguard
    exact .renewFunding (by simpa using hguard.2.2.1)
  | consumeFundingAuthorization cycleId operationsTrigger =>
    simp only [VaultOp.run, consumeFundingAuthorization, bind_eq_ok, revertIf_eq_ok, pure_eq_ok,
      Outcome.done.injEq] at h
    rcases h with ⟨_, ⟨_, -, _, hlifecycle, _, hguard, _, -, rfl⟩, -, rfl⟩
    push Not at hguard
    have hclosed : x.vault.lifecycle.isOpen = false := by
      by_cases hempty : x.vault.lifecycle = .empty
      · rw [hempty]
        rfl
      · exact isOpen_of_ordinal (Nat.le_of_not_lt fun hlt => hlifecycle ⟨hempty, hlt⟩)
    exact .consumeFunding hclosed hguard.1
  | confirmFunding cycleId balanceBefore =>
    rcases finishVault_eq_done.mp h with ⟨hrun, -⟩
    simp only [confirmFunding, bind_eq_ok, revertIf_eq_ok, pure_eq_ok] at hrun
    rcases hrun with ⟨_, -, _, hguard, _, -, rfl⟩
    push Not at hguard
    exact .confirmFunding (by simpa using hguard.1) hguard.2.1
  | executeOutbound cycleId routeData =>
    -- the outbound route is a call out, so the operation never finishes at once
    simp only [VaultOp.run, bind_eq_ok, pure_eq_ok, reduceCtorEq, and_false, exists_false] at h
  | authorizePayout a distributionSignature verifierSignature =>
    rcases finishVault_eq_done.mp h with ⟨hrun, -⟩
    simp only [authorizePayout, verifyPayoutAuthorization, bind_eq_ok, revertIf_eq_ok,
      pure_eq_ok] at hrun
    rcases hrun with ⟨_, -, _, houtbound, _, ⟨_, hfields, _, hpayout, -⟩, rfl⟩
    push Not at hfields
    rcases hfields with ⟨-, -, hactive, -, -, -, -, -, -, -, -, -, -, -, -, -, hnonce, hreceipt, -⟩
    exact .authorizePayout (by simpa using houtbound) hactive (by simpa using hnonce)
      (by simpa using hpayout) (by simpa using hreceipt)
  | renewPayoutAuthorizationDeadline renewal =>
    rcases finishVault_eq_done.mp h with ⟨hrun, -⟩
    simp only [renewPayoutAuthorizationDeadline, bind_eq_ok, revertIf_eq_ok, pure_eq_ok] at hrun
    rcases hrun with ⟨_, -, _, -, _, hguard, rfl⟩
    push Not at hguard
    exact .renewPayout (by simpa using hguard.2.2.1) rfl
  | consumePayoutAuthorization a =>
    simp only [VaultOp.run, consumePayoutAuthorization, bind_eq_ok, revertIf_eq_ok, pure_eq_ok,
      Outcome.done.injEq] at h
    rcases h with ⟨_, ⟨_, -, _, -, _, hreturned, _, hguard, _, -, chain, hsend, _, -, rfl⟩, -, rfl⟩
    push Not at hguard
    -- the token moves during the operation, and what it moves is part of the effect
    rcases sendFromEscrow_eq_ok hsend with ⟨identity, token, hescrow, rfl, -, hmoved⟩
    exact .consumePayout (by simpa using hreturned) hguard.2.1 hescrow hmoved
  | recordTerminalFailure cycleId failureReceiptDigest =>
    rcases finishVault_eq_done.mp h with ⟨hrun, -⟩
    simp only [recordTerminalFailure, bind_eq_ok, revertIf_eq_ok, pure_eq_ok] at hrun
    rcases hrun with ⟨_, -, y, hrecord, rfl⟩
    rcases terminable_of_ok hrecord with ⟨hterminable, rfl⟩
    exact .recordTerminalFailure hterminable
  | recordDegradedReturn cycleId receiptDigest acceptDegraded =>
    rcases finishVault_eq_done.mp h with ⟨hrun, -⟩
    simp only [recordDegradedReturn, bind_eq_ok, revertIf_eq_ok] at hrun
    rcases hrun with ⟨_, -, _, -, _, -, hrecord⟩
    rcases terminable_of_ok hrecord with ⟨hterminable, rfl⟩
    exact .recordDegradedReturn hterminable

/-- What the vault does before the route executor has control: it takes its lock, and
the escrow of the active cycle sends. -/
structure BeginsOutbound (x sent : VaultWorld) (cycleId : Bytes32) : Prop where
  unlocked : x.vault.outboundEntered = false
  funded : x.vault.lifecycle = .funded
  active : cycleId = x.vault.activeAuthorization.cycleId
  effect : ∃ token identity,
    sent = { x with token := token, vault := { x.vault with outboundEntered := true } } ∧
      x.escrows (x.vault.cycleEscrows cycleId) = some identity ∧
      ∀ account, account ≠ x.vault.cycleEscrows cycleId → account ≠ identity.routeExecutor →
        token.balances account = x.token.balances account

/-- The world after the route executor returned. -/
def VaultWorld.outbound (cycleId : Bytes32) (x : VaultWorld) : VaultWorld :=
  { x with vault := { x.vault with
    lifecycle := .outbound
    cycleLifecycleRecords := Function.update x.vault.cycleLifecycleRecords cycleId .outbound
    outboundEntered := false } }

theorem vaultEnter_eq_done {env : VaultExternals} {c : VaultConfig} {now : Nat} {m : WorldMsg}
    {x x' : VaultWorld} {v : VaultReturn} (h : vaultEnter env c now m x = .done v x') :
    WorldEffect env c x m.op x' := by
  rcases m with ⟨sender, op⟩
  rw [vaultEnter, Outcome.ofRun_eq_done] at h
  unfold WorldOp.run at h
  rcases bind_eq_ok.mp h with ⟨_, -, hrun⟩
  have htoken : ∀ t : Option UsdgToken, finishToken t x = .ok (.done v x') →
      ∃ token, x' = { x with token := token } := by
    intro t ht
    cases t with
    | none => exact nomatch ht
    | some token =>
      simp only [finishToken, pure_eq_ok, Outcome.done.injEq] at ht
      exact ⟨token, ht.2.symm⟩
  cases op with
  | vault op => exact .vault (vaultEffect_of_run hrun)
  | transfer recipient amount =>
    rcases htoken _ hrun with ⟨token, rfl⟩
    exact .token (fun _ => by simp)
  | approve spender amount =>
    rcases htoken _ hrun with ⟨token, rfl⟩
    exact .token (fun _ => by simp)
  | transferFrom owner recipient amount =>
    rcases htoken _ hrun with ⟨token, rfl⟩
    exact .token (fun _ => by simp)
  | send kind escrow amount =>
    simp only [finishVault_eq_done, bind_eq_ok, pure_eq_ok] at hrun
    rcases hrun with ⟨⟨chain, hsend, rfl⟩, -⟩
    rcases sendFromEscrow_eq_ok hsend with ⟨_, token, -, rfl, -, -⟩
    exact .token (fun _ => by simp)
  | deploy account =>
    simp only [finishVault_eq_done, bind_eq_ok, pure_eq_ok] at hrun
    rcases hrun with ⟨⟨_, -, rfl⟩, -⟩
    exact .deploy

/-- The one call that hands control over. -/
theorem vaultEnter_eq_call {env : VaultExternals} {c : VaultConfig} {now : Nat} {m : WorldMsg}
    {x sent : VaultWorld} {request : VaultRequest}
    {onReturn : VaultWorld → Run (VaultReturn × VaultWorld)}
    {onFailure : Run (VaultReturn × VaultWorld)}
    (h : vaultEnter env c now m x = .call request sent onReturn onFailure) :
    ∃ cycleId routeData, m.op = .vault (.executeOutbound cycleId routeData) ∧
      BeginsOutbound x sent cycleId ∧
      (∀ y v y', onReturn y = .ok (v, y') → y' = y.outbound cycleId) ∧
      onFailure = .error .externalCallFailed := by
  rcases m with ⟨sender, op⟩
  rw [vaultEnter, Outcome.ofRun_eq_call] at h
  unfold WorldOp.run at h
  rcases bind_eq_ok.mp h with ⟨_, -, hrun⟩
  have htoken : ∀ t : Option UsdgToken,
      finishToken t x ≠ .ok (.call request sent onReturn onFailure) := by
    intro t ht
    cases t <;> exact nomatch ht
  cases op with
  | vault op =>
    cases op with
    | executeOutbound cycleId routeData =>
      simp only [VaultOp.run, beginOutbound, bind_eq_ok, revertIf_eq_ok, pure_eq_ok,
        Outcome.call.injEq] at hrun
      rcases hrun with ⟨_, ⟨_, hunlocked, _, hfunded, _, -, _, hguard, _, -, chain, hsend, rfl⟩, -,
        rfl, rfl, rfl⟩
      push Not at hguard
      rcases sendFromEscrow_eq_ok hsend with ⟨identity, token, hescrow, rfl, -, hmoved⟩
      refine ⟨cycleId, routeData, rfl, ⟨by simpa using hunlocked, by simpa using hfunded, hguard.1,
        token, identity, rfl, hescrow, hmoved⟩, ?_, rfl⟩
      intro y v y' hret
      simp only [finishOutbound, bind_eq_ok, revertIf_eq_ok, pure_eq_ok, Prod.mk.injEq] at hret
      rcases hret with ⟨_, ⟨_, -, _, -, rfl⟩, -, rfl⟩
      rfl
    | consumeFundingAuthorization cycleId operationsTrigger =>
      simp only [VaultOp.run, bind_eq_ok, pure_eq_ok, reduceCtorEq, and_false,
        exists_false] at hrun
    | consumePayoutAuthorization a =>
      simp only [VaultOp.run, bind_eq_ok, pure_eq_ok, reduceCtorEq, and_false,
        exists_false] at hrun
    | _ => exact absurd hrun finishVault_ne_call
  | transfer recipient amount => exact absurd hrun (htoken _)
  | approve spender amount => exact absurd hrun (htoken _)
  | transferFrom owner recipient amount => exact absurd hrun (htoken _)
  | send kind escrow amount => exact absurd hrun finishVault_ne_call
  | deploy account => exact absurd hrun finishVault_ne_call

/-! ## The invariant -/

/-- What holds of the vault at any time. -/
structure VaultInv (env : VaultExternals) (c : VaultConfig) (x : VaultWorld) : Prop where
  -- the global lifecycle and the records of the cycles
  live : ∀ cycle, (x.vault.cycleLifecycleRecords cycle).isOpen = true →
    cycle = x.vault.activeAuthorization.cycleId ∧
      x.vault.cycleLifecycleRecords cycle = x.vault.lifecycle
  current : x.vault.lifecycle.isOpen = true → x.vault.activeAuthorization.cycleId ≠ 0 ∧
    x.vault.cycleLifecycleRecords x.vault.activeAuthorization.cycleId = x.vault.lifecycle
  consumed : ∀ cycle, x.vault.cycleLifecycleRecords cycle ≠ .empty →
    x.vault.consumedCycles cycle = true
  -- the three slots of authorizations
  idle : x.vault.lifecycle.isOpen = true →
    x.vault.pendingAuthorization.cycleId = 0 ∧ x.vault.fundingInProgress = false
  pending : x.vault.pendingAuthorization.cycleId ≠ 0 → x.vault.fundingInProgress = false ∧
    x.vault.cycleLifecycleRecords x.vault.pendingAuthorization.cycleId = .empty ∧
    x.vault.consumedCycles x.vault.pendingAuthorization.cycleId = true
  funding : x.vault.fundingInProgress = true → x.vault.pendingAuthorization.cycleId = 0 ∧
    x.vault.fundingAuthorization.cycleId ≠ 0 ∧
    x.vault.cycleLifecycleRecords x.vault.fundingAuthorization.cycleId = .empty ∧
    x.vault.consumedCycles x.vault.fundingAuthorization.cycleId = true
  payout : x.vault.lifecycle = .returned →
    x.vault.payoutAuthorizationDigest = payoutDigest env x.vault.payoutAuthorization ∧
      x.vault.payoutAuthorization.cycleId = x.vault.activeAuthorization.cycleId
  -- the contracts on the chain
  code : ∀ account, x.escrows account ≠ none → x.code account = true
  executor : x.code c.routeExecutor = true ∧ x.escrows c.routeExecutor = none
  hook : x.vault.hook ≠ 0 → x.code x.vault.hook = true ∧ x.escrows x.vault.hook = none
  unbound : x.vault.hook = 0 →
    (∀ account, x.escrows account = none) ∧ ∀ cycle, x.vault.consumedCycles cycle = false
  escrow : ∀ cycle, x.vault.consumedCycles cycle = true →
    x.escrows (x.vault.cycleEscrows cycle) = some (escrowIdentity c x.vault.hook cycle)
  -- the recovery chain
  noZero : x.vault.failedCycleSuccessors 0 = 0 ∧ x.vault.recoveryPredecessors 0 = 0
  inverse : ∀ a b, a ≠ 0 → b ≠ 0 →
    (x.vault.failedCycleSuccessors a = b ↔ x.vault.recoveryPredecessors b = a)
  successor : ∀ b, x.vault.recoveryPredecessors b ≠ 0 → x.vault.consumedCycles b = true
  recovery : x.vault.pendingFailedPredecessor ≠ 0 →
    x.vault.fundingInProgress = true ∨ x.vault.pendingAuthorization.cycleId ≠ 0 ∧
      x.vault.failedCycleSuccessors x.vault.pendingFailedPredecessor =
        x.vault.pendingAuthorization.cycleId
  -- the receipt of the last failure
  owner : x.vault.terminalFailureReceiptDigest ≠ 0 →
    x.vault.failureReceiptOwners x.vault.terminalFailureReceiptDigest ≠ 0
  failed : x.vault.lifecycle = .failed → x.vault.terminalFailureReceiptDigest =
    x.vault.failureReceiptDigests x.vault.terminalCycleId
  degraded : x.vault.lifecycle = .degraded → x.vault.terminalFailureReceiptDigest ≠
    x.vault.failureReceiptDigests x.vault.terminalCycleId

theorem vaultInv_deployed (env : VaultExternals) (d : VaultDeployment) :
    VaultInv env d.toVaultConfig (.deployed d) := by
  have hexecutor : d.code d.routeExecutor = true := by
    have haccepted := d.accepted
    simp only [VaultConfig.checks, bind_eq_ok, revertIf_eq_ok] at haccepted
    rcases haccepted with ⟨_, hidentity, -⟩
    push Not at hidentity
    simpa using hidentity.2.2.2.2.1
  constructor
  case executor =>
    refine ⟨?_, rfl⟩
    show Function.update d.code d.self true d.routeExecutor = true
    by_cases hself : d.routeExecutor = d.self
    · rw [hself, Function.update_self]
    · rw [Function.update_of_ne hself]
      exact hexecutor
  case inverse =>
    intro a b ha hb
    exact ⟨fun heq => absurd heq.symm hb, fun heq => absurd heq.symm ha⟩
  all_goals
    simp [VaultWorld.deployed, PegCycleVault.initial, Lifecycle.isOpen, FundingAuthorization.none]

section

variable {env : VaultExternals} {c : VaultConfig} {x x' : VaultWorld}

/-- The hook of the vault is bound before anything is authorized. -/
theorem VaultInv.bindHook {hook : Address} (h : VaultInv env c x) (hunbound : x.vault.hook = 0)
    (hhook : hook ≠ 0) (hcode : x.code hook = true) :
    VaultInv env c { x with vault := { x.vault with hook := hook } } :=
  { h with
    hook := fun _ => ⟨hcode, (h.unbound hunbound).1 hook⟩
    unbound := fun hzero => absurd hzero hhook
    escrow := by
      intro cycle hconsumed
      exact absurd (((h.unbound hunbound).2 cycle).symm.trans hconsumed) (by decide) }

/-- Storing an authorization opens nothing yet: the cycle is new, and so is its escrow. -/
theorem VaultInv.stored {a : FundingAuthorization} {failed : Bytes32} (h : VaultInv env c x)
    (hs : Storable a x) (hfree : failed ≠ 0 → x.vault.failedCycleSuccessors failed = 0) :
    VaultInv env c (x.stored c a failed) := by
  have hrecord : x.vault.cycleLifecycleRecords a.cycleId = .empty := by
    by_contra hnot
    have hconsumed := h.consumed _ hnot
    rw [hs.freshCycle] at hconsumed
    exact absurd hconsumed (by decide)
  have hkept : ∀ cycle, x.vault.consumedCycles cycle = true →
      Function.update x.vault.consumedCycles a.cycleId true cycle = true := by
    intro cycle hconsumed
    by_cases hcycle : cycle = a.cycleId
    · rw [hcycle, Function.update_self]
    · rw [Function.update_of_ne hcycle]
      exact hconsumed
  have hcode : ∀ account, x.code account = true →
      account ≠ a.returnDestination := by
    intro account haccount heq
    rw [heq, hs.freshEscrow] at haccount
    exact absurd haccount (by decide)
  have hnoPredecessor : x.vault.recoveryPredecessors a.cycleId = 0 := by
    by_contra hnot
    have hconsumed := h.successor _ hnot
    rw [hs.freshCycle] at hconsumed
    exact absurd hconsumed (by decide)
  have hnoRecovery : x.vault.pendingFailedPredecessor = 0 := by
    by_contra hnot
    rcases h.recovery hnot with hfunding | ⟨hpending, -⟩
    · rw [hs.idle] at hfunding
      exact absurd hfunding (by decide)
    · exact hpending hs.noPending
  have hbusy : ¬ x.vault.lifecycle.isOpen = true := by
    rw [hs.closed]
    decide
  constructor
  · exact h.live
  · exact h.current
  · intro cycle hnot
    exact hkept cycle (h.consumed cycle hnot)
  · intro hopen
    exact absurd hopen hbusy
  · intro _
    exact ⟨hs.idle, hrecord, Function.update_self ..⟩
  · intro hfunding
    exact absurd (hs.idle.symm.trans hfunding) (by decide)
  · exact h.payout
  · intro account hescrow
    show Function.update x.code a.returnDestination true account = true
    by_cases haccount : account = a.returnDestination
    · rw [haccount, Function.update_self]
    · rw [Function.update_of_ne haccount]
      refine h.code account ?_
      intro hnone
      exact hescrow ((Function.update_of_ne haccount ..).trans hnone)
  · rcases h.executor with ⟨hexecutor, hnone⟩
    have hne := hcode _ hexecutor
    exact ⟨(Function.update_of_ne hne ..).trans hexecutor,
      (Function.update_of_ne hne ..).trans hnone⟩
  · intro hbound
    rcases h.hook hbound with ⟨hhook, hnone⟩
    have hne := hcode _ hhook
    exact ⟨(Function.update_of_ne hne ..).trans hhook, (Function.update_of_ne hne ..).trans hnone⟩
  · intro hzero
    exact absurd hzero hs.bound
  · intro cycle hconsumed
    show Function.update x.escrows a.returnDestination _
      (Function.update x.vault.cycleEscrows a.cycleId a.returnDestination cycle) = _
    by_cases hcycle : cycle = a.cycleId
    · rw [hcycle, Function.update_self, Function.update_self]
      rfl
    · have hold : x.vault.consumedCycles cycle = true :=
        (Function.update_of_ne hcycle ..).symm.trans hconsumed
      have hidentity := h.escrow cycle hold
      have hne : x.vault.cycleEscrows cycle ≠ a.returnDestination :=
        hcode _ (h.code _ (by rw [hidentity]; exact Option.some_ne_none _))
      rw [Function.update_of_ne hcycle, Function.update_of_ne hne]
      exact hidentity
  · by_cases hfailed : failed ≠ 0
    · show (if failed ≠ 0 then Function.update x.vault.failedCycleSuccessors failed a.cycleId
        else x.vault.failedCycleSuccessors) 0 = 0 ∧ (if failed ≠ 0 then
          Function.update x.vault.recoveryPredecessors a.cycleId failed
        else x.vault.recoveryPredecessors) 0 = 0
      rw [if_pos hfailed, if_pos hfailed, Function.update_of_ne hfailed.symm,
        Function.update_of_ne hs.cycle.symm]
      exact h.noZero
    · simp only [VaultWorld.stored, PegCycleVault.store, if_neg hfailed]
      exact h.noZero
  · intro p q hp hq
    by_cases hfailed : failed ≠ 0
    · simp only [VaultWorld.stored, PegCycleVault.store, if_pos hfailed]
      -- the new link connects two cycles that had none
      by_cases hpf : p = failed
      · subst hpf
        rw [Function.update_self]
        by_cases hqa : q = a.cycleId
        · rw [hqa, Function.update_self]
          simp
        · rw [Function.update_of_ne hqa, ← h.inverse p q hp hq, hfree hfailed]
          exact ⟨fun heq => absurd heq.symm hqa, fun heq => absurd heq.symm hq⟩
      · rw [Function.update_of_ne hpf]
        by_cases hqa : q = a.cycleId
        · rw [hqa, Function.update_self, h.inverse p a.cycleId hp hs.cycle, hnoPredecessor]
          exact ⟨fun heq => absurd heq.symm hp, fun heq => absurd heq.symm hpf⟩
        · rw [Function.update_of_ne hqa]
          exact h.inverse p q hp hq
    · simp only [VaultWorld.stored, PegCycleVault.store, if_neg hfailed]
      exact h.inverse p q hp hq
  · intro q hq
    show Function.update x.vault.consumedCycles a.cycleId true q = true
    by_cases hqa : q = a.cycleId
    · rw [hqa, Function.update_self]
    · refine hkept q (h.successor q ?_)
      by_cases hfailed : failed ≠ 0
      · simp only [VaultWorld.stored, PegCycleVault.store, if_pos hfailed] at hq
        rwa [Function.update_of_ne hqa] at hq
      · simpa only [VaultWorld.stored, PegCycleVault.store, if_neg hfailed] using hq
  · intro hrecovery
    right
    by_cases hfailed : failed ≠ 0
    · simp only [VaultWorld.stored, PegCycleVault.store, if_pos hfailed, Function.update_self]
      exact ⟨hs.cycle, trivial⟩
    · simp only [VaultWorld.stored, PegCycleVault.store, if_neg hfailed] at hrecovery
      exact absurd hnoRecovery hrecovery
  · exact h.owner
  · exact h.failed
  · exact h.degraded

/-- A link that was only pending is taken back at both of its ends. -/
theorem VaultInv.cancel {cycleId : Bytes32} (h : VaultInv env c x)
    (hpending : x.vault.pendingAuthorization.cycleId = cycleId) (hcycle : cycleId ≠ 0)
    (hidle : x.vault.fundingInProgress = false) :
    VaultInv env c { x with vault := x.vault.cancel cycleId } := by
  have hlink : x.vault.pendingFailedPredecessor ≠ 0 →
      x.vault.failedCycleSuccessors x.vault.pendingFailedPredecessor = cycleId := by
    intro hrecovery
    -- a recovery that is pending waits for this cycle
    rcases h.recovery hrecovery with hfunding | ⟨-, hsuccessor⟩
    · exact absurd (hidle.symm.trans hfunding) (by decide)
    · exact hsuccessor.trans hpending
  refine { h with idle := ?_, pending := ?_, funding := ?_, noZero := ?_, inverse := ?_, successor := ?_, recovery := ?_ }
  · intro hopen
    exact ⟨rfl, (h.idle hopen).2⟩
  · intro hnot
    exact absurd rfl hnot
  · intro hfunding
    exact absurd (hidle.symm.trans hfunding) (by decide)
  · by_cases hrecovery : x.vault.pendingFailedPredecessor ≠ 0
    · simp only [PegCycleVault.cancel, if_pos hrecovery, Function.update_of_ne hrecovery.symm,
        Function.update_of_ne hcycle.symm]
      exact h.noZero
    · simp only [PegCycleVault.cancel, if_neg hrecovery]
      exact h.noZero
  · intro p q hp hq
    -- both links of the recovery are erased: four cases, by which ends are the erased ones
    by_cases hrecovery : x.vault.pendingFailedPredecessor ≠ 0
    · simp only [PegCycleVault.cancel, if_pos hrecovery]
      have hback : x.vault.recoveryPredecessors cycleId = x.vault.pendingFailedPredecessor :=
        (h.inverse _ _ hrecovery hcycle).mp (hlink hrecovery)
      by_cases hpf : p = x.vault.pendingFailedPredecessor
      · rw [hpf, Function.update_self]
        by_cases hqc : q = cycleId
        · rw [hqc, Function.update_self]
          exact ⟨fun heq => absurd heq.symm hcycle, fun heq => absurd heq.symm hrecovery⟩
        · rw [Function.update_of_ne hqc, ← h.inverse _ q hrecovery hq, hlink hrecovery]
          exact ⟨fun heq => absurd heq.symm hq, fun heq => absurd heq.symm hqc⟩
      · rw [Function.update_of_ne hpf]
        by_cases hqc : q = cycleId
        · rw [hqc, Function.update_self, h.inverse p cycleId hp hcycle, hback]
          exact ⟨fun heq => absurd heq.symm hpf, fun heq => absurd heq.symm hp⟩
        · rw [Function.update_of_ne hqc]
          exact h.inverse p q hp hq
    · simp only [PegCycleVault.cancel, if_neg hrecovery]
      exact h.inverse p q hp hq
  · intro q hq
    refine h.successor q ?_
    by_cases hrecovery : x.vault.pendingFailedPredecessor ≠ 0
    · simp only [PegCycleVault.cancel, if_pos hrecovery] at hq
      by_cases hqc : q = cycleId
      · rw [hqc, Function.update_self] at hq
        exact absurd rfl hq
      · rwa [Function.update_of_ne hqc] at hq
    · simpa only [PegCycleVault.cancel, if_neg hrecovery] using hq
  · intro hnot
    exact absurd rfl hnot

theorem VaultInv.renewFunding {renewal : FundingAuthorization} {nonces : BitVec 256 → Bool}
    (h : VaultInv env c x) :
    VaultInv env c { x with vault := { x.vault with
      consumedNonces := nonces
      activeAuthorization := { x.vault.activeAuthorization with
        expiresAt := renewal.expiresAt, nonce := renewal.nonce } } } :=
  { h with }

/-- The pending authorization moves on, and nothing can be authorized meanwhile. -/
theorem VaultInv.consumeFunding {balanceBefore : Nat} (h : VaultInv env c x)
    (hclosed : x.vault.lifecycle.isOpen = false)
    (hpending : x.vault.pendingAuthorization.cycleId ≠ 0) :
    VaultInv env c { x with vault := { x.vault with
      pendingAuthorization := .none
      fundingAuthorization := x.vault.pendingAuthorization
      expectedFundingBalanceBefore := balanceBefore
      fundingInProgress := true } } := by
  rcases h.pending hpending with ⟨-, hrecord, hconsumed⟩
  refine { h with idle := ?_, pending := ?_, funding := ?_, recovery := ?_ }
  · intro hopen
    exact absurd (hclosed.symm.trans hopen) (by decide)
  · intro hnot
    exact absurd rfl hnot
  · intro _
    exact ⟨rfl, hpending, hrecord, hconsumed⟩
  · intro _
    exact Or.inl rfl

/-- The funded cycle becomes the active one: no record was open before. -/
theorem VaultInv.confirmFunding {cycleId : Bytes32} (h : VaultInv env c x)
    (hfunding : x.vault.fundingInProgress = true)
    (hcycle : x.vault.fundingAuthorization.cycleId = cycleId) :
    VaultInv env c { x with vault := { x.vault with
      activeAuthorization := x.vault.fundingAuthorization
      fundingAuthorization := .none
      expectedFundingBalanceBefore := 0
      pendingFailedPredecessor := 0
      fundingInProgress := false
      lifecycle := .funded
      cycleLifecycleRecords :=
        Function.update x.vault.cycleLifecycleRecords cycleId .funded } } := by
  rcases h.funding hfunding with ⟨hpending, hnonzero, hrecord, hconsumed⟩
  rw [hcycle] at hnonzero hconsumed
  -- nothing is open before: funding is in progress only between cycles
  have hnone : ∀ cycle, ¬ (x.vault.cycleLifecycleRecords cycle).isOpen = true := by
    intro cycle hopen
    rcases h.live cycle hopen with ⟨-, hsame⟩
    rw [hsame] at hopen
    exact absurd ((h.idle hopen).2.symm.trans hfunding) (by decide)
  refine { h with live := ?_, current := ?_, consumed := ?_, idle := ?_, pending := ?_, funding := ?_, payout := ?_, recovery := ?_, failed := ?_, degraded := ?_ }
  · intro cycle hopen
    dsimp only at hopen ⊢
    by_cases hne : cycle = cycleId
    · rw [hne, Function.update_self, hcycle]
      exact ⟨rfl, rfl⟩
    · rw [Function.update_of_ne hne] at hopen
      exact absurd hopen (hnone cycle)
  · intro _
    dsimp only
    rw [hcycle, Function.update_self]
    exact ⟨hnonzero, rfl⟩
  · intro cycle hnot
    by_cases hne : cycle = cycleId
    · rw [hne]
      exact hconsumed
    · dsimp only at hnot
      rw [Function.update_of_ne hne] at hnot
      exact h.consumed cycle hnot
  · intro _
    exact ⟨hpending, rfl⟩
  · intro hnot
    exact absurd hpending hnot
  · intro hnot
    exact nomatch hnot
  · intro hnot
    exact nomatch hnot
  · intro hnot
    exact absurd rfl hnot
  · intro hnot
    exact nomatch hnot
  · intro hnot
    exact nomatch hnot

/-- Moving the active cycle to another lifecycle, open or terminal, keeps the slots and
the records in order. -/
theorem VaultInv.advance {l : Lifecycle} {cycleId : Bytes32} (h : VaultInv env c x)
    (hopen : x.vault.lifecycle.isOpen = true)
    (hactive : cycleId = x.vault.activeAuthorization.cycleId)
    (hlifecycle : x'.vault.lifecycle = l)
    (hrecords : x'.vault.cycleLifecycleRecords =
      Function.update x.vault.cycleLifecycleRecords cycleId l)
    (hsame : x'.vault.activeAuthorization = x.vault.activeAuthorization)
    (hslots : x'.vault.pendingAuthorization = x.vault.pendingAuthorization ∧
      x'.vault.fundingInProgress = x.vault.fundingInProgress ∧
      x'.vault.pendingFailedPredecessor = x.vault.pendingFailedPredecessor)
    (hconsumed : x'.vault.consumedCycles = x.vault.consumedCycles)
    (hchain : x'.code = x.code ∧ x'.escrows = x.escrows ∧ x'.vault.hook = x.vault.hook ∧
      x'.vault.cycleEscrows = x.vault.cycleEscrows)
    (hlinks : x'.vault.failedCycleSuccessors = x.vault.failedCycleSuccessors ∧
      x'.vault.recoveryPredecessors = x.vault.recoveryPredecessors)
    (hpayout : l = .returned →
      x'.vault.payoutAuthorizationDigest = payoutDigest env x'.vault.payoutAuthorization ∧
        x'.vault.payoutAuthorization.cycleId = cycleId)
    (howner : x'.vault.terminalFailureReceiptDigest ≠ 0 →
      x'.vault.failureReceiptOwners x'.vault.terminalFailureReceiptDigest ≠ 0)
    (hfailed : l = .failed → x'.vault.terminalFailureReceiptDigest =
      x'.vault.failureReceiptDigests x'.vault.terminalCycleId)
    (hdegraded : l = .degraded → x'.vault.terminalFailureReceiptDigest ≠
      x'.vault.failureReceiptDigests x'.vault.terminalCycleId) :
    VaultInv env c x' := by
  rcases h.current hopen with ⟨hnonzero, hrecord⟩
  rcases h.idle hopen with ⟨hpending, hidle⟩
  -- no other cycle is open, so only the record of this one has to be looked at
  have hothers : ∀ cycle ≠ cycleId, ¬ (x.vault.cycleLifecycleRecords cycle).isOpen = true := by
    intro cycle hne hcycle
    exact hne ((h.live cycle hcycle).1.trans hactive.symm)
  constructor
  · intro cycle hcycle
    rw [hrecords] at hcycle ⊢
    rw [hlifecycle, hsame]
    by_cases hne : cycle = cycleId
    · rw [hne, Function.update_self]
      exact ⟨hactive, rfl⟩
    · rw [Function.update_of_ne hne] at hcycle
      exact absurd hcycle (hothers cycle hne)
  · intro _
    rw [hrecords, hsame, hlifecycle, ← hactive, Function.update_self]
    exact ⟨hactive ▸ hnonzero, rfl⟩
  · intro cycle hcycle
    rw [hconsumed]
    by_cases hne : cycle = cycleId
    · refine h.consumed cycle ?_
      rw [hne, hactive, hrecord]
      intro hempty
      rw [hempty] at hopen
      exact nomatch hopen
    · rw [hrecords, Function.update_of_ne hne] at hcycle
      exact h.consumed cycle hcycle
  · intro _
    rw [hslots.1, hslots.2.1]
    exact ⟨hpending, hidle⟩
  · intro hnot
    rw [hslots.1] at hnot
    exact absurd hpending hnot
  · intro hfunding
    rw [hslots.2.1] at hfunding
    exact absurd (hidle.symm.trans hfunding) (by decide)
  · intro hreturned
    rw [hlifecycle] at hreturned
    rcases hpayout hreturned with ⟨hdigest, hcycle⟩
    rw [hsame, ← hactive]
    exact ⟨hdigest, hcycle⟩
  · rw [hchain.1, hchain.2.1]
    exact h.code
  · rw [hchain.1, hchain.2.1]
    exact h.executor
  · rw [hchain.1, hchain.2.1, hchain.2.2.1]
    exact h.hook
  · rw [hchain.2.1, hchain.2.2.1, hconsumed]
    exact h.unbound
  · rw [hchain.2.1, hchain.2.2.1, hchain.2.2.2, hconsumed]
    exact h.escrow
  · rw [hlinks.1, hlinks.2]
    exact h.noZero
  · rw [hlinks.1, hlinks.2]
    exact h.inverse
  · rw [hlinks.2, hconsumed]
    exact h.successor
  · intro hrecovery
    rw [hslots.2.2] at hrecovery
    rcases h.recovery hrecovery with hfunding | ⟨hnot, -⟩
    · exact absurd (hidle.symm.trans hfunding) (by decide)
    · exact absurd hpending hnot
  · exact howner
  · rw [hlifecycle]
    exact hfailed
  · rw [hlifecycle]
    exact hdegraded

theorem VaultInv.renewPayout {nonces : BitVec 256 → Bool} {payout : PayoutAuthorization}
    (h : VaultInv env c x) (hcycle : payout.cycleId = x.vault.payoutAuthorization.cycleId) :
    VaultInv env c { x with vault := { x.vault with
      consumedNonces := nonces
      payoutAuthorization := payout
      payoutAuthorizationDigest := payoutDigest env payout } } :=
  { h with
    payout := fun hreturned => ⟨rfl, hcycle.trans (h.payout hreturned).2⟩ }

/-- The active cycle ends with a receipt that was not used before. -/
theorem VaultInv.terminate {cycleId receiptDigest : Bytes32} (h : VaultInv env c x)
    (ht : Terminable cycleId receiptDigest x.vault) :
    VaultInv env c { x with vault := { x.vault.terminate cycleId receiptDigest .failed with
      terminalFailureReceiptDigest := receiptDigest } } ∧
    VaultInv env c { x with vault := x.vault.terminate cycleId receiptDigest .degraded } := by
  have hopen : x.vault.lifecycle.isOpen = true := by
    rw [ht.outbound]
    rfl
  have hnonzero : cycleId ≠ 0 := by
    rw [ht.active]
    exact (h.current hopen).1
  constructor
  · refine h.advance hopen ht.active rfl rfl rfl ⟨rfl, rfl, rfl⟩ rfl ⟨rfl, rfl, rfl, rfl⟩ ⟨rfl, rfl⟩ ?_ ?_ ?_ ?_
    · intro hnot
      exact nomatch hnot
    · intro _
      show Function.update x.vault.failureReceiptOwners receiptDigest cycleId receiptDigest ≠ 0
      rw [Function.update_self]
      exact hnonzero
    · intro _
      show receiptDigest =
        Function.update x.vault.failureReceiptDigests cycleId receiptDigest cycleId
      rw [Function.update_self]
    · intro hnot
      exact nomatch hnot
  · -- the receipt of the last failure is left as it was, so it is not the new one
    have hdifferent : x.vault.terminalFailureReceiptDigest ≠ receiptDigest := by
      intro heq
      have howner := h.owner (heq ▸ ht.receipt)
      rw [heq] at howner
      exact howner ht.unowned
    refine h.advance hopen ht.active rfl rfl rfl ⟨rfl, rfl, rfl⟩ rfl ⟨rfl, rfl, rfl, rfl⟩ ⟨rfl, rfl⟩ ?_ ?_ ?_ ?_
    · intro hnot
      exact nomatch hnot
    · intro howned
      show Function.update x.vault.failureReceiptOwners receiptDigest cycleId
        x.vault.terminalFailureReceiptDigest ≠ 0
      rw [Function.update_of_ne hdifferent]
      exact h.owner howned
    · intro hnot
      exact nomatch hnot
    · intro _
      show x.vault.terminalFailureReceiptDigest ≠
        Function.update x.vault.failureReceiptDigests cycleId receiptDigest cycleId
      rw [Function.update_self]
      exact hdifferent

/-- Every call of the vault keeps the invariant. That a payout authorization is consumed
under the digest of the stored one is put to use as their being the same. -/
theorem VaultInv.effect {op : VaultOp} (h : VaultInv env c x) (he : VaultEffect env c x op x')
    (hhash : ∀ a, op = .consumePayoutAuthorization a →
      payoutDigest env a = payoutDigest env x.vault.payoutAuthorization →
        a = x.vault.payoutAuthorization) : VaultInv env c x' := by
  cases he with
  | bindHook hunbound hhook hcode => exact h.bindHook hunbound hhook hcode
  | authorizeFunding hs => exact h.stored hs fun hzero => absurd rfl hzero
  | authorizeFundingAfterFailure hs hfailed hfree => exact h.stored hs fun _ => hfree
  | cancel hpending hcycle hidle => exact h.cancel hpending hcycle hidle
  | renewFunding hfresh => exact h.renewFunding
  | consumeFunding hclosed hpending => exact h.consumeFunding hclosed hpending
  | confirmFunding hfunding hcycle => exact h.confirmFunding hfunding hcycle
  | authorizePayout houtbound hactive hnonce hpayout hreceipt =>
    have hopen : x.vault.lifecycle.isOpen = true := by
      rw [houtbound]
      rfl
    refine h.advance (l := .returned) hopen hactive rfl rfl rfl ⟨rfl, rfl, rfl⟩ rfl
      ⟨rfl, rfl, rfl, rfl⟩ ⟨rfl, rfl⟩ ?_ h.owner ?_ ?_
    · intro _
      exact ⟨rfl, rfl⟩
    · intro hnot
      exact nomatch hnot
    · intro hnot
      exact nomatch hnot
  | renewPayout hfresh hcycle => exact h.renewPayout hcycle
  | @consumePayout a token identity digests payoutIds receipts hreturned hdigest hescrow hmoved =>
    rcases h.payout hreturned with ⟨hstored, hcycle⟩
    have hsame : a = x.vault.payoutAuthorization := hhash a rfl (hdigest.trans hstored)
    have hopen : x.vault.lifecycle.isOpen = true := by
      rw [hreturned]
      rfl
    refine h.advance (l := .payoutCommitted) hopen (by rw [hsame]; exact hcycle) rfl rfl rfl
      ⟨rfl, rfl, rfl⟩ rfl ⟨rfl, rfl, rfl, rfl⟩ ⟨rfl, rfl⟩ ?_ ?_ ?_ ?_
    · intro hnot
      exact nomatch hnot
    · intro hnot
      exact absurd rfl hnot
    · intro hnot
      exact nomatch hnot
    · intro hnot
      exact nomatch hnot
  | recordTerminalFailure ht => exact (h.terminate ht).1
  | recordDegradedReturn ht => exact (h.terminate ht).2

/-- So does the return of the route executor to a vault that kept its cycle. -/
theorem VaultInv.outbound {cycleId : Bytes32} (h : VaultInv env c x)
    (hfunded : x.vault.lifecycle = .funded)
    (hactive : cycleId = x.vault.activeAuthorization.cycleId) :
    VaultInv env c (x.outbound cycleId) := by
  have hopen : x.vault.lifecycle.isOpen = true := by
    rw [hfunded]
    rfl
  refine h.advance (l := .outbound) hopen hactive rfl rfl rfl ⟨rfl, rfl, rfl⟩ rfl
    ⟨rfl, rfl, rfl, rfl⟩ ⟨rfl, rfl⟩ ?_ h.owner ?_ ?_
  · intro hnot
    exact nomatch hnot
  · intro hnot
    exact nomatch hnot
  · intro hnot
    exact nomatch hnot

theorem VaultInv.token {token : UsdgToken} (h : VaultInv env c x) :
    VaultInv env c { x with token := token } :=
  { h with }

theorem VaultInv.deploy {account : Address} (h : VaultInv env c x) :
    VaultInv env c { x with code := Function.update x.code account true } := by
  have hkept : ∀ a, x.code a = true → Function.update x.code account true a = true := by
    intro a hcode
    by_cases ha : a = account
    · rw [ha, Function.update_self]
    · rw [Function.update_of_ne ha]
      exact hcode
  exact { h with
    code := fun a hescrow => hkept a (h.code a hescrow)
    executor := ⟨hkept _ h.executor.1, h.executor.2⟩
    hook := fun hbound => ⟨hkept _ (h.hook hbound).1, (h.hook hbound).2⟩ }

end

/-! ## What is accepted -/

namespace VaultOp

/-- The nonce that a call accepts. -/
def nonce? : VaultOp → Option (BitVec 256)
  | authorizeFunding a => some a.nonce
  | authorizeFundingAfterFailure a _ _ => some a.nonce
  | renewFundingAuthorizationDeadline a => some a.nonce
  | authorizePayout a _ _ => some a.nonce
  | renewPayoutAuthorizationDeadline a => some a.nonce
  | _ => none

/-- The cycle that a call accepts. -/
def cycleId? : VaultOp → Option Bytes32
  | authorizeFunding a => some a.cycleId
  | authorizeFundingAfterFailure a _ _ => some a.cycleId
  | _ => none

/-- The payout that a call accepts. -/
def payoutId? : VaultOp → Option Bytes32
  | authorizePayout a _ _ => some a.payoutId
  | _ => none

/-- The receipt of a return that a call accepts. -/
def returnReceiptDigest? : VaultOp → Option Bytes32
  | authorizePayout a _ _ => some a.returnReceiptDigest
  | _ => none

/-- The receipt of a failure that a call accepts. -/
def failureReceiptDigest? : VaultOp → Option Bytes32
  | recordTerminalFailure _ digest => some digest
  | recordDegradedReturn _ digest _ => some digest
  | _ => none

end VaultOp

/-- A piece of code that took effect. -/
abbrev VaultSegment := Segment WorldMsg VaultRequest VaultReturn VaultWorld

/-- The vault with everything that happened. -/
abbrev VaultHistory := Traced WorldMsg VaultRequest VaultReturn VaultWorld

/-- The key that a piece accepts: the call of the vault ran to its end. -/
def accepted {α : Type} (key : VaultOp → Option α) (seg : VaultSegment) : Option α :=
  match seg.progress, seg.call.op with
  | .finished _, .vault op => key op
  | _, _ => none

/-- A call that takes effect remembers its key as used, if it accepts one that is not,
and forgets none. -/
def Uses {α : Type} (used : PegCycleVault → α → Prop) (key : Option α) (v v' : PegCycleVault) :
    Prop :=
  (∀ k, used v k → used v' k) ∧ ∀ k, key = some k → ¬ used v k ∧ used v' k

theorem uses_none {α : Type} {used : PegCycleVault → α → Prop} {v v' : PegCycleVault}
    (h : ∀ k, used v k → used v' k) : Uses used none v v' :=
  ⟨h, fun _ hkey => nomatch hkey⟩

theorem uses_update {α : Type} [DecidableEq α] {flag : PegCycleVault → α → Bool}
    {k : α} {v v' : PegCycleVault} (hfresh : flag v k = false)
    (hflag : flag v' = Function.update (flag v) k true) :
    Uses (fun v k => flag v k = true) (some k) v v' := by
  constructor
  · intro k' hused
    rw [hflag]
    by_cases hk : k' = k
    · rw [hk, Function.update_self]
    · rw [Function.update_of_ne hk]
      exact hused
  · intro k' hkey
    rw [← Option.some.inj hkey]
    show ¬ flag v k = true ∧ flag v' k = true
    rw [hflag, Function.update_self, hfresh]
    exact ⟨by decide, rfl⟩

section

variable {env : VaultExternals} {c : VaultConfig} {x x' : VaultWorld} {op : VaultOp}

theorem VaultEffect.uses_nonce (h : VaultEffect env c x op x') :
    Uses (fun v k => v.consumedNonces k = true) op.nonce? x.vault x'.vault := by
  cases h with
  | authorizeFunding hs => exact uses_update hs.freshNonce rfl
  | authorizeFundingAfterFailure hs _ _ => exact uses_update hs.freshNonce rfl
  | renewFunding hfresh => exact uses_update hfresh rfl
  | authorizePayout _ _ hnonce _ _ => exact uses_update hnonce rfl
  | renewPayout hfresh _ => exact uses_update hfresh rfl
  | _ => exact uses_none fun _ hused => hused

theorem VaultEffect.uses_cycleId (h : VaultEffect env c x op x') :
    Uses (fun v k => v.consumedCycles k = true) op.cycleId? x.vault x'.vault := by
  cases h with
  | authorizeFunding hs => exact uses_update hs.freshCycle rfl
  | authorizeFundingAfterFailure hs _ _ => exact uses_update hs.freshCycle rfl
  | _ => exact uses_none fun _ hused => hused

theorem VaultEffect.uses_payoutId (h : VaultEffect env c x op x') :
    Uses (fun v k => v.consumedPayoutIds k = true) op.payoutId? x.vault x'.vault := by
  cases h with
  | authorizePayout _ _ _ hpayout _ => exact uses_update hpayout rfl
  | _ => exact uses_none fun _ hused => hused

theorem VaultEffect.uses_returnReceiptDigest (h : VaultEffect env c x op x') :
    Uses (fun v k => v.consumedReturnReceiptDigests k = true) op.returnReceiptDigest? x.vault
      x'.vault := by
  cases h with
  | authorizePayout _ _ _ _ hreceipt => exact uses_update hreceipt rfl
  | _ => exact uses_none fun _ hused => hused

/-- The owner of a receipt is the cycle that it ended, which is not zero. -/
theorem Terminable.uses {cycleId receiptDigest : Bytes32} {v : PegCycleVault}
    (ht : Terminable cycleId receiptDigest v) (hnonzero : cycleId ≠ 0) {v' : PegCycleVault}
    (howners : v'.failureReceiptOwners =
      Function.update v.failureReceiptOwners receiptDigest cycleId) :
    Uses (fun v k => v.failureReceiptOwners k ≠ 0) (some receiptDigest) v v' := by
  constructor
  · intro k hused
    rw [howners]
    by_cases hk : k = receiptDigest
    · rw [hk, Function.update_self]
      exact hnonzero
    · rw [Function.update_of_ne hk]
      exact hused
  · intro k hkey
    rw [← Option.some.inj hkey]
    show ¬ v.failureReceiptOwners receiptDigest ≠ 0 ∧ v'.failureReceiptOwners receiptDigest ≠ 0
    rw [howners, Function.update_self]
    exact ⟨fun hused => hused ht.unowned, hnonzero⟩

theorem VaultEffect.uses_failureReceiptDigest (hinv : VaultInv env c x)
    (h : VaultEffect env c x op x') :
    Uses (fun v k => v.failureReceiptOwners k ≠ 0) op.failureReceiptDigest? x.vault
      x'.vault := by
  have hnonzero : ∀ {cycleId receiptDigest}, Terminable cycleId receiptDigest x.vault →
      cycleId ≠ 0 := by
    intro cycleId receiptDigest ht
    rw [ht.active]
    refine (hinv.current ?_).1
    rw [ht.outbound]
    rfl
  cases h with
  | recordTerminalFailure ht => exact ht.uses (hnonzero ht) rfl
  | recordDegradedReturn ht => exact ht.uses (hnonzero ht) rfl
  | _ => exact uses_none fun _ hused => hused

/-! ## What is final -/

/-- A cycle that has ended keeps its record and its escrow, and what is held there. -/
def KeepsEnded (x x' : VaultWorld) : Prop :=
  ∀ cycle, (x.vault.cycleLifecycleRecords cycle).isTerminal = true →
    x'.vault.cycleLifecycleRecords cycle = x.vault.cycleLifecycleRecords cycle ∧
    x'.vault.cycleEscrows cycle = x.vault.cycleEscrows cycle ∧
    x'.token.balances (x.vault.cycleEscrows cycle) =
      x.token.balances (x.vault.cycleEscrows cycle)

/-- An ended cycle is not the active one, so it is none of the cycles a call works on. -/
theorem VaultInv.ended_ne {cycle cycleId : Bytes32} (h : VaultInv env c x)
    (hended : (x.vault.cycleLifecycleRecords cycle).isTerminal = true)
    (hopen : x.vault.lifecycle.isOpen = true)
    (hactive : cycleId = x.vault.activeAuthorization.cycleId) : cycle ≠ cycleId := by
  intro heq
  rw [heq, hactive, (h.current hopen).2, isTerminal_of_isOpen hopen] at hended
  exact nomatch hended

theorem VaultInv.active_consumed (h : VaultInv env c x) (hopen : x.vault.lifecycle.isOpen = true) :
    x.vault.consumedCycles x.vault.activeAuthorization.cycleId = true := by
  refine h.consumed _ ?_
  rw [(h.current hopen).2]
  intro hempty
  rw [hempty] at hopen
  exact nomatch hopen

/-- What the escrow of the active cycle sends leaves the escrows of ended cycles alone. -/
theorem VaultInv.ended_balance {cycle cycleId : Bytes32} {recipient : Address}
    {token : UsdgToken} (h : VaultInv env c x)
    (hended : (x.vault.cycleLifecycleRecords cycle).isTerminal = true)
    (hopen : x.vault.lifecycle.isOpen = true)
    (hactive : cycleId = x.vault.activeAuthorization.cycleId)
    (hrecipient : x.escrows recipient = none)
    (hmoved : ∀ account, account ≠ x.vault.cycleEscrows cycleId → account ≠ recipient →
      token.balances account = x.token.balances account) :
    token.balances (x.vault.cycleEscrows cycle) =
      x.token.balances (x.vault.cycleEscrows cycle) := by
  have hidentity := h.escrow cycle (h.consumed cycle (by
    intro hempty
    rw [hempty] at hended
    exact nomatch hended))
  refine hmoved _ ?_ ?_
  · -- an escrow knows its cycle
    intro heq
    have hother := h.escrow cycleId (hactive ▸ h.active_consumed hopen)
    rw [← heq, hidentity] at hother
    exact h.ended_ne hended hopen hactive
      (congrArg EscrowIdentity.cycleId (Option.some.inj hother))
  · intro heq
    rw [heq, hrecipient] at hidentity
    exact nomatch hidentity

theorem VaultEffect.keepsEnded (hinv : VaultInv env c x) (h : VaultEffect env c x op x')
    (hhash : ∀ a, op = .consumePayoutAuthorization a →
      payoutDigest env a = payoutDigest env x.vault.payoutAuthorization →
        a = x.vault.payoutAuthorization) : KeepsEnded x x' := by
  intro cycle hended
  -- an ended cycle was consumed, so no new authorization is for it
  have hconsumed : x.vault.consumedCycles cycle = true := by
    refine hinv.consumed cycle ?_
    intro hempty
    rw [hempty] at hended
    exact nomatch hended
  have hstored : ∀ a : FundingAuthorization, Storable a x →
      Function.update x.vault.cycleEscrows a.cycleId a.returnDestination cycle =
        x.vault.cycleEscrows cycle := by
    intro a hs
    refine Function.update_of_ne ?_ ..
    intro heq
    rw [heq, hs.freshCycle] at hconsumed
    exact absurd hconsumed (by decide)
  have hadvanced : ∀ {cycleId : Bytes32} {l : Lifecycle}, x.vault.lifecycle.isOpen = true →
      cycleId = x.vault.activeAuthorization.cycleId →
        Function.update x.vault.cycleLifecycleRecords cycleId l cycle =
          x.vault.cycleLifecycleRecords cycle := by
    intro cycleId l hopen hactive
    exact Function.update_of_ne (hinv.ended_ne hended hopen hactive) ..
  cases h with
  | authorizeFunding hs => exact ⟨rfl, hstored _ hs, rfl⟩
  | authorizeFundingAfterFailure hs hfailed hfree => exact ⟨rfl, hstored _ hs, rfl⟩
  | @confirmFunding cycleId balanceBefore hfunding hcycle =>
    refine ⟨Function.update_of_ne ?_ .., rfl, rfl⟩
    intro heq
    rw [heq, ← hcycle, (hinv.funding hfunding).2.2.1] at hended
    exact nomatch hended
  | authorizePayout houtbound hactive hnonce hpayout hreceipt =>
    exact ⟨hadvanced (by rw [houtbound]; rfl) hactive, rfl, rfl⟩
  | @consumePayout a token identity digests payoutIds receipts hreturned hdigest hescrow hmoved =>
    have hopen : x.vault.lifecycle.isOpen = true := by
      rw [hreturned]
      rfl
    -- the digest decides the authorization: the one case that needs the hash
    rcases hinv.payout hreturned with ⟨hstored, hcycle⟩
    have hactive : a.cycleId = x.vault.activeAuthorization.cycleId := by
      rw [hhash a rfl (hdigest.trans hstored)]
      exact hcycle
    have hhook : identity.hook = x.vault.hook := by
      rw [hinv.escrow a.cycleId (hactive ▸ hinv.active_consumed hopen)] at hescrow
      rw [← Option.some.inj hescrow]
      rfl
    have hbound : x.vault.hook ≠ 0 := by
      intro hzero
      have hnone := (hinv.unbound hzero).2 cycle
      rw [hconsumed] at hnone
      exact nomatch hnone
    refine ⟨hadvanced hopen hactive, rfl,
      hinv.ended_balance hended hopen hactive (hinv.hook hbound).2 ?_⟩
    rw [← hhook]
    exact hmoved
  | recordTerminalFailure ht =>
    exact ⟨hadvanced (by rw [ht.outbound]; rfl) ht.active, rfl, rfl⟩
  | recordDegradedReturn ht =>
    exact ⟨hadvanced (by rw [ht.outbound]; rfl) ht.active, rfl, rfl⟩
  | _ => exact ⟨rfl, rfl, rfl⟩

theorem BeginsOutbound.keepsEnded {sent : VaultWorld} {cycleId : Bytes32}
    (hinv : VaultInv env c x) (h : BeginsOutbound x sent cycleId) : KeepsEnded x sent := by
  intro cycle hended
  have hopen : x.vault.lifecycle.isOpen = true := by
    rw [h.funded]
    rfl
  rcases h.effect with ⟨token, identity, rfl, hescrow, hmoved⟩
  have hexecutor : identity.routeExecutor = c.routeExecutor := by
    rw [hinv.escrow cycleId (h.active ▸ hinv.active_consumed hopen)] at hescrow
    rw [← Option.some.inj hescrow]
    rfl
  rw [hexecutor] at hmoved
  exact ⟨rfl, rfl, hinv.ended_balance hended hopen h.active hinv.executor.2 hmoved⟩

theorem VaultInv.outbound_keepsEnded {cycleId : Bytes32} (hinv : VaultInv env c x)
    (hfunded : x.vault.lifecycle = .funded)
    (hactive : cycleId = x.vault.activeAuthorization.cycleId) :
    KeepsEnded x (x.outbound cycleId) := by
  intro cycle hended
  refine ⟨Function.update_of_ne (hinv.ended_ne hended ?_ hactive) .., rfl, rfl⟩
  rw [hfunded]
  rfl

end

/-! ## While the route executor has control -/

/-- The vault keeps a funded cycle while its lock is held. -/
def KeptFunded (x x' : VaultWorld) : Prop :=
  x.vault.outboundEntered = true → x.vault.lifecycle = .funded →
    x.vault.fundingInProgress = false →
    x'.vault.outboundEntered = true ∧ x'.vault.lifecycle = .funded ∧
      x'.vault.fundingInProgress = false ∧
      x'.vault.activeAuthorization.cycleId = x.vault.activeAuthorization.cycleId

theorem WorldEffect.keptFunded {env : VaultExternals} {c : VaultConfig} {x x' : VaultWorld}
    {op : WorldOp} (h : WorldEffect env c x op x') : KeptFunded x x' := by
  intro hlocked hfunded hidle
  have hopen : x.vault.lifecycle.isOpen = true := by
    rw [hfunded]
    rfl
  have hclosed : ¬ x.vault.lifecycle.isOpen = false := by
    rw [hopen]
    decide
  cases h with
  | token hop => exact ⟨hlocked, hfunded, hidle, rfl⟩
  | deploy => exact ⟨hlocked, hfunded, hidle, rfl⟩
  | vault h =>
    cases h with
    | authorizeFunding hs => exact absurd hs.closed hclosed
    | authorizeFundingAfterFailure hs hfailed hfree => exact absurd hs.closed hclosed
    | consumeFunding hnot hpending => exact absurd hnot hclosed
    | confirmFunding hfunding hcycle => exact absurd (hidle.symm.trans hfunding) (by decide)
    | authorizePayout houtbound _ _ _ _ => exact nomatch hfunded.symm.trans houtbound
    | consumePayout hreturned _ _ _ => exact nomatch hfunded.symm.trans hreturned
    | recordTerminalFailure ht => exact nomatch hfunded.symm.trans ht.outbound
    | recordDegradedReturn ht => exact nomatch hfunded.symm.trans ht.outbound
    | _ => exact ⟨hlocked, hfunded, hidle, rfl⟩

theorem keptFunded_frameRule (env : VaultExternals) (c : VaultConfig) (now : Nat) :
    FrameRule (vaultEnter env c now) KeptFunded where
  refl x hlocked hfunded hidle := ⟨hlocked, hfunded, hidle, rfl⟩
  trans := by
    intro x₁ x₂ x₃ h₁ h₂ hlocked hfunded hidle
    rcases h₁ hlocked hfunded hidle with ⟨hlocked', hfunded', hidle', hcycle⟩
    rcases h₂ hlocked' hfunded' hidle' with ⟨hlocked'', hfunded'', hidle'', hcycle'⟩
    exact ⟨hlocked'', hfunded'', hidle'', hcycle'.trans hcycle⟩
  done hout := (vaultEnter_eq_done hout).keptFunded
  resume := by
    intro m x request sent onReturn onFailure x₁ v x' hout _ _ hlocked
    rcases vaultEnter_eq_call hout with ⟨_, _, -, hbegins, -, -⟩
    exact absurd (hbegins.unlocked.symm.trans hlocked) (by decide)
  fail := by
    intro m x request sent onReturn onFailure v x' hout hret
    rcases vaultEnter_eq_call hout with ⟨_, _, -, -, -, hfailure⟩
    rw [hfailure] at hret
    exact nomatch hret

/-! ## The laws of a history -/

/-- The encodings whose hashes a history compared: of every payout authorization that
was consumed, and of the one that the vault had stored. -/
def comparedEncodings (trace : List VaultSegment) : Set Bytes :=
  {b | ∃ seg ∈ trace, ∃ a, seg.call.op = .vault (.consumePayoutAuthorization a) ∧
    (b = encodeWords a.words ∨ b = encodeWords seg.pre.vault.payoutAuthorization.words)}

/-- No call of `recordDegradedReturn` took effect. -/
def NeverDegraded (trace : List VaultSegment) : Prop :=
  ∀ seg ∈ trace, ∀ cycleId receiptDigest acceptDegraded,
    seg.call.op ≠ .vault (.recordDegradedReturn cycleId receiptDigest acceptDegraded)

/-- A piece keeps the records of ended cycles, and one of the vault what their escrows
hold. -/
structure EndedKept (seg : VaultSegment) : Prop where
  record : ∀ cycle, (seg.pre.vault.cycleLifecycleRecords cycle).isTerminal = true →
    seg.post.vault.cycleLifecycleRecords cycle = seg.pre.vault.cycleLifecycleRecords cycle ∧
      seg.post.vault.cycleEscrows cycle = seg.pre.vault.cycleEscrows cycle
  balance : ∀ op, seg.call.op = .vault op → ∀ cycle,
    (seg.pre.vault.cycleLifecycleRecords cycle).isTerminal = true →
      seg.post.token.balances (seg.pre.vault.cycleEscrows cycle) =
        seg.pre.token.balances (seg.pre.vault.cycleEscrows cycle)

theorem EndedKept.of_keepsEnded {seg : VaultSegment} (h : KeepsEnded seg.pre seg.post) :
    EndedKept seg where
  record cycle hended := ⟨(h cycle hended).1, (h cycle hended).2.1⟩
  balance _ _ cycle hended := (h cycle hended).2.2

/-- What holds of every history. -/
structure VaultLaws (env : VaultExternals) (c : VaultConfig) (w : VaultHistory) : Prop where
  inv : VaultInv env c w.state
  nonces : Once (accepted VaultOp.nonce?) (fun x k => x.vault.consumedNonces k = true) w
  cycleIds : Once (accepted VaultOp.cycleId?) (fun x k => x.vault.consumedCycles k = true) w
  payoutIds : Once (accepted VaultOp.payoutId?) (fun x k => x.vault.consumedPayoutIds k = true) w
  returnReceipts : Once (accepted VaultOp.returnReceiptDigest?)
    (fun x k => x.vault.consumedReturnReceiptDigests k = true) w
  failureReceipts : Once (accepted VaultOp.failureReceiptDigest?)
    (fun x k => x.vault.failureReceiptOwners k ≠ 0) w
  ended : ∀ seg ∈ w.trace, EndedKept seg
  degraded : NeverDegraded w.trace → w.state.vault.lifecycle ≠ .degraded

section

variable {env : VaultExternals} {c : VaultConfig} {w : VaultHistory} {seg : VaultSegment}

/-- A piece that leaves the marks alone and accepts nothing. -/
theorem once_quiet {α : Type} {key : VaultOp → Option α} (used : PegCycleVault → α → Prop)
    (h : Once (accepted key) (fun x : VaultWorld => used x.vault) w) (hpre : seg.pre = w.state)
    (hkey : accepted key seg = none) (hkeeps : ∀ k, used seg.pre.vault k → used seg.post.vault k) :
    Once (accepted key) (fun x : VaultWorld => used x.vault) (w.push seg) := by
  refine h.push hpre hkeeps ?_
  intro k hk
  rw [hkey] at hk
  exact nomatch hk

/-- A call of the vault that uses what it accepts. -/
theorem once_call {α : Type} {key : VaultOp → Option α} (used : PegCycleVault → α → Prop)
    {now : Nat} {sender : Address} {op : VaultOp} {v : VaultReturn} {x' : VaultWorld}
    (h : Once (accepted key) (fun x : VaultWorld => used x.vault) w)
    (huses : Uses used (key op) w.state.vault x'.vault) :
    Once (accepted key) (fun x : VaultWorld => used x.vault)
      (w.push ⟨now, ⟨sender, .vault op⟩, .finished v, w.state, x'⟩) :=
  h.push rfl huses.1 fun k hk => huses.2 k hk

theorem ended_push (h : ∀ seg ∈ w.trace, EndedKept seg) (hseg : EndedKept seg) :
    ∀ seg' ∈ (w.push seg).trace, EndedKept seg' := by
  intro seg' hmem
  rcases List.mem_append.mp hmem with hold | hnew
  · exact h seg' hold
  · rw [List.mem_singleton.mp hnew]
    exact hseg

/-- A piece that does not touch the storage of the vault but for its lock. -/
theorem VaultLaws.quiet (h : VaultLaws env c w) (hpre : seg.pre = w.state)
    (hkey : ∀ {α : Type} (key : VaultOp → Option α), accepted key seg = none)
    (hnonces : seg.post.vault.consumedNonces = seg.pre.vault.consumedNonces)
    (hcycles : seg.post.vault.consumedCycles = seg.pre.vault.consumedCycles)
    (hpayouts : seg.post.vault.consumedPayoutIds = seg.pre.vault.consumedPayoutIds)
    (hreturns : seg.post.vault.consumedReturnReceiptDigests =
      seg.pre.vault.consumedReturnReceiptDigests)
    (howners : seg.post.vault.failureReceiptOwners = seg.pre.vault.failureReceiptOwners)
    (hinv : VaultInv env c seg.post) (hended : EndedKept seg)
    (hlifecycle : seg.post.vault.lifecycle = .degraded → w.state.vault.lifecycle = .degraded) :
    VaultLaws env c (w.push seg) where
  inv := hinv
  nonces := once_quiet (fun v k => v.consumedNonces k = true) h.nonces hpre (hkey _)
    fun k hused => by rw [hnonces]; exact hused
  cycleIds := once_quiet (fun v k => v.consumedCycles k = true) h.cycleIds hpre (hkey _)
    fun k hused => by rw [hcycles]; exact hused
  payoutIds := once_quiet (fun v k => v.consumedPayoutIds k = true) h.payoutIds hpre (hkey _)
    fun k hused => by rw [hpayouts]; exact hused
  returnReceipts := once_quiet
    (fun v k => v.consumedReturnReceiptDigests k = true) h.returnReceipts hpre (hkey _)
    fun k hused => by rw [hreturns]; exact hused
  failureReceipts := once_quiet (fun v k => v.failureReceiptOwners k ≠ 0)
    h.failureReceipts hpre (hkey _) fun k hused => by rw [howners]; exact hused
  ended := ended_push h.ended hended
  degraded := by
    intro hnever hnow
    refine h.degraded ?_ (hlifecycle hnow)
    intro seg' hmem
    exact hnever seg' (List.mem_append_left _ hmem)

theorem VaultLaws.call {now : Nat} {sender : Address} {op : VaultOp} {v : VaultReturn}
    {x' : VaultWorld} (h : VaultLaws env c w) (he : VaultEffect env c w.state op x')
    (hhash : ∀ a, op = .consumePayoutAuthorization a →
      payoutDigest env a = payoutDigest env w.state.vault.payoutAuthorization →
        a = w.state.vault.payoutAuthorization) :
    VaultLaws env c (w.push ⟨now, ⟨sender, .vault op⟩, .finished v, w.state, x'⟩) where
  inv := h.inv.effect he hhash
  nonces := once_call (fun v k => v.consumedNonces k = true) h.nonces he.uses_nonce
  cycleIds := once_call (fun v k => v.consumedCycles k = true) h.cycleIds he.uses_cycleId
  payoutIds := once_call (fun v k => v.consumedPayoutIds k = true) h.payoutIds he.uses_payoutId
  returnReceipts := once_call
    (fun v k => v.consumedReturnReceiptDigests k = true) h.returnReceipts
    he.uses_returnReceiptDigest
  failureReceipts := once_call (fun v k => v.failureReceiptOwners k ≠ 0) h.failureReceipts
    (he.uses_failureReceiptDigest h.inv)
  ended := ended_push h.ended (.of_keepsEnded (he.keepsEnded h.inv hhash))
  degraded := by
    intro hnever hnow
    have hbefore : w.state.vault.lifecycle ≠ .degraded :=
      h.degraded fun seg' hmem => hnever seg' (List.mem_append_left _ hmem)
    cases he with
    | recordDegradedReturn ht =>
      exact hnever _ (List.mem_append_right _ (List.mem_singleton_self _)) _ _ _ rfl
    | confirmFunding _ _ => exact nomatch hnow
    | authorizePayout _ _ _ _ _ => exact nomatch hnow
    | consumePayout _ _ _ _ => exact nomatch hnow
    | recordTerminalFailure _ => exact nomatch hnow
    | _ => exact hbefore hnow

/-- The compared encodings only grow, so a hash that tells them apart did before. -/
theorem injOn_of_push (h : Set.InjOn env.keccak256 (comparedEncodings (w.push seg).trace)) :
    Set.InjOn env.keccak256 (comparedEncodings w.trace) := by
  refine h.mono ?_
  rintro b ⟨seg', hmem, a, hop, hb⟩
  exact ⟨seg', List.mem_append_left _ hmem, a, hop, hb⟩

/-- A hash that tells the compared encodings apart tells the authorizations apart. -/
theorem hash_of_push (h : Set.InjOn env.keccak256 (comparedEncodings (w.push seg).trace))
    (a : PayoutAuthorization) (hop : seg.call.op = .vault (.consumePayoutAuthorization a))
    (hsame : payoutDigest env a = payoutDigest env seg.pre.vault.payoutAuthorization) :
    a = seg.pre.vault.payoutAuthorization := by
  have hmem : seg ∈ (w.push seg).trace := List.mem_append_right _ (List.mem_singleton_self seg)
  exact PayoutAuthorization.words_injective (encodeWords_injective
    (h ⟨seg, hmem, a, hop, Or.inl rfl⟩ ⟨seg, hmem, a, hop, Or.inr rfl⟩ hsame))

end

/-- The invariant of histories: the laws hold as long as the hash tells apart what was
compared. -/
def LawfulHistory (env : VaultExternals) (c : VaultConfig) (w : VaultHistory) : Prop :=
  Set.InjOn env.keccak256 (comparedEncodings w.trace) → VaultLaws env c w

theorem lawfulHistory_rule (env : VaultExternals) (c : VaultConfig) (now : Nat) :
    GuardedTraceRule (vaultEnter env c) now KeptFunded (LawfulHistory env c) where
  finished := by
    rintro ⟨sender, op⟩ v x' w hout hw hinj
    have hlaws := hw (injOn_of_push hinj)
    rcases hout with hdone | ⟨request, sent, onReturn, onFailure, hcall, hret⟩
    · have heffect := vaultEnter_eq_done hdone
      cases heffect with
      | vault h =>
        refine hlaws.call h ?_
        rintro a rfl hsame
        exact hash_of_push hinj a rfl hsame
      | @token _ token hop =>
        refine hlaws.quiet rfl ?_ rfl rfl rfl rfl rfl hlaws.inv.token ?_ id
        · intro α key
          cases op with
          | vault op => exact absurd rfl (hop op)
          | _ => rfl
        · constructor
          · intro cycle _
            exact ⟨rfl, rfl⟩
          · intro op' hop'
            exact absurd hop' (hop op')
      | deploy =>
        refine hlaws.quiet rfl (fun _ => rfl) rfl rfl rfl rfl rfl hlaws.inv.deploy ?_ id
        constructor
        · intro cycle _
          exact ⟨rfl, rfl⟩
        · intro op' _ cycle _
          rfl
    · rcases vaultEnter_eq_call hcall with ⟨_, _, -, -, -, hfailure⟩
      rw [hfailure] at hret
      exact nomatch hret
  sent := by
    intro m request sent onReturn onFailure w hcall hw hinj
    have hlaws := hw (injOn_of_push hinj)
    rcases vaultEnter_eq_call hcall with ⟨cycleId, routeData, hop, hbegins, -, -⟩
    have hended : EndedKept ⟨now, m, .sent request, w.state, sent⟩ :=
      .of_keepsEnded (hbegins.keepsEnded hlaws.inv)
    -- the call out moves tokens only, and nothing of the vault
    rcases hbegins.effect with ⟨token, identity, hsent, -, -⟩
    have hinv : VaultInv env c sent := by
      rw [hsent]
      exact { hlaws.inv with }
    refine hlaws.quiet rfl (fun _ => rfl) ?_ ?_ ?_ ?_ ?_ hinv hended ?_
    all_goals rw [hsent]
    exact id
  resumed := by
    intro m request sent onReturn onFailure v x' w w₁ hcall hw hkept hgrows hw₁ hret hinj
    have hinj₁ := injOn_of_push hinj
    have hlaws := hw₁ hinj₁
    -- the encodings compared before the call are among those compared after it
    have hbefore : VaultLaws env c w := by
      refine hw (hinj₁.mono ?_)
      rintro b ⟨seg, hmem, a, hop, hb⟩
      exact ⟨seg, hgrows.subset hmem, a, hop, hb⟩
    rcases vaultEnter_eq_call hcall with ⟨cycleId, routeData, hop, hbegins, hresume, -⟩
    have hidle : w.state.vault.fundingInProgress = false := by
      refine (hbefore.inv.idle ?_).2
      rw [hbegins.funded]
      rfl
    -- whatever runs during the call leaves a funded cycle funded
    have hstill : w₁.state.vault.lifecycle = .funded ∧
        w₁.state.vault.activeAuthorization.cycleId =
          w.state.vault.activeAuthorization.cycleId := by
      rcases hbegins.effect with ⟨token, identity, hsent, -, -⟩
      rw [hsent] at hkept
      rcases hkept rfl hbegins.funded hidle with ⟨-, hfunded, -, hcycle⟩
      exact ⟨hfunded, hcycle⟩
    have hactive : cycleId = w₁.state.vault.activeAuthorization.cycleId :=
      hbegins.active.trans hstill.2.symm
    have hx' := hresume _ _ _ hret
    have hended : EndedKept ⟨now, m, .resumed request v, w₁.state, w₁.state.outbound cycleId⟩ :=
      .of_keepsEnded (hlaws.inv.outbound_keepsEnded hstill.1 hactive)
    rw [hx']
    refine hlaws.quiet rfl (fun _ => rfl) rfl rfl rfl rfl rfl
      (hlaws.inv.outbound hstill.1 hactive) hended ?_
    intro hnot
    exact nomatch hnot

theorem vaultLaws_deployed (env : VaultExternals) (d : VaultDeployment) :
    VaultLaws env d.toVaultConfig (.start (.deployed d)) where
  inv := vaultInv_deployed env d
  nonces := once_start _
  cycleIds := once_start _
  payoutIds := once_start _
  returnReceipts := once_start _
  failureReceipts := once_start _
  ended := by simp
  degraded := by
    intro _ hnot
    exact nomatch hnot

/-! ## Safety -/

/-- Two maps of identifiers, zero standing for nothing, that are inverse to each other
and so injective where they are defined. -/
structure InversePartialInjections (f g : Bytes32 → Bytes32) : Prop where
  inverse : ∀ a b, a ≠ 0 → b ≠ 0 → (f a = b ↔ g b = a)
  injective : ∀ a a', f a ≠ 0 → f a = f a' → a = a'
  injective' : ∀ b b', g b ≠ 0 → g b = g b' → b = b'

theorem inversePartialInjections_of_inverse {f g : Bytes32 → Bytes32} (hf : f 0 = 0)
    (hg : g 0 = 0) (h : ∀ a b, a ≠ 0 → b ≠ 0 → (f a = b ↔ g b = a)) :
    InversePartialInjections f g := by
  have hdefined : ∀ {k : Bytes32 → Bytes32}, k 0 = 0 → ∀ a, k a ≠ 0 → a ≠ 0 := by
    intro k hk a hka hzero
    exact hka (by rw [hzero, hk])
  refine ⟨h, ?_, ?_⟩
  · intro a a' hfa heq
    have hback := (h a (f a) (hdefined hf a hfa) hfa).mp rfl
    have hback' := (h a' (f a) (hdefined hf a' (heq ▸ hfa)) hfa).mp heq.symm
    exact hback.symm.trans hback'
  · intro b b' hgb heq
    have hback := (h (g b) b hgb (hdefined hg b hgb)).mpr rfl
    have hback' := (h (g b) b' hgb (hdefined hg b' (heq ▸ hgb))).mpr heq.symm
    exact hback.symm.trans hback'

/-- **Safety of the peg cycles.** At every point of every history, under any
interleaving of the calls of anybody, and as long as the hash tells apart the payout
authorizations it compares: at most the active cycle is under way, an ended cycle keeps
its record and no call of the vault moves what its escrow holds, nothing is accepted
twice, and successors match predecessors. The receipt of the last failure is that of
the cycle that ended last in every history without a degraded return, and never after
one. -/
theorem peg_cycles_safe (env : VaultExternals) (d : VaultDeployment) (t : Nat)
    (w : VaultHistory) (h : Reached (vaultEnter env d.toVaultConfig) (.deployed d) t w)
    (hhash : Set.InjOn env.keccak256 (comparedEncodings w.trace)) :
    (∀ cycle, (w.state.vault.cycleLifecycleRecords cycle).isOpen = true →
      cycle = w.state.vault.activeAuthorization.cycleId ∧
        w.state.vault.cycleLifecycleRecords cycle = w.state.vault.lifecycle) ∧
    (∀ before later, w.trace = before ++ later → ∀ cycle,
      ((stateAfter (.deployed d) before).vault.cycleLifecycleRecords cycle).isTerminal = true →
        w.state.vault.cycleLifecycleRecords cycle =
          (stateAfter (.deployed d) before).vault.cycleLifecycleRecords cycle) ∧
    (∀ seg ∈ w.trace, ∀ op, seg.call.op = .vault op → ∀ cycle,
      (seg.pre.vault.cycleLifecycleRecords cycle).isTerminal = true →
        seg.post.token.balances (seg.pre.vault.cycleEscrows cycle) =
          seg.pre.token.balances (seg.pre.vault.cycleEscrows cycle)) ∧
    (w.trace.filterMap (accepted VaultOp.nonce?)).Nodup ∧
    (w.trace.filterMap (accepted VaultOp.cycleId?)).Nodup ∧
    (w.trace.filterMap (accepted VaultOp.payoutId?)).Nodup ∧
    (w.trace.filterMap (accepted VaultOp.returnReceiptDigest?)).Nodup ∧
    (w.trace.filterMap (accepted VaultOp.failureReceiptDigest?)).Nodup ∧
    InversePartialInjections w.state.vault.failedCycleSuccessors
      w.state.vault.recoveryPredecessors ∧
    (NeverDegraded w.trace →
      w.state.vault.lifecycle = .failed ∨ w.state.vault.lifecycle = .degraded →
        w.state.vault.terminalFailureReceiptDigest =
          w.state.vault.failureReceiptDigests w.state.vault.terminalCycleId) ∧
    (w.state.vault.lifecycle = .failed ∨ w.state.vault.lifecycle = .degraded →
      (w.state.vault.terminalFailureReceiptDigest =
        w.state.vault.failureReceiptDigests w.state.vault.terminalCycleId ↔
          w.state.vault.lifecycle ≠ .degraded)) := by
  have hlaws : VaultLaws env d.toVaultConfig w := by
    refine h.guarded_trace_invariant (I := LawfulHistory env d.toVaultConfig) ?_
      (keptFunded_frameRule env d.toVaultConfig) (lawfulHistory_rule env d.toVaultConfig) hhash
    intro _
    exact vaultLaws_deployed env d
  have hinv := hlaws.inv
  refine ⟨hinv.live, ?_, fun seg hmem => (hlaws.ended seg hmem).balance, hlaws.nonces.nodup,
    hlaws.cycleIds.nodup, hlaws.payoutIds.nodup, hlaws.returnReceipts.nodup,
    hlaws.failureReceipts.nodup,
    inversePartialInjections_of_inverse hinv.noZero.1 hinv.noZero.2 hinv.inverse, ?_, ?_⟩
  -- each segment keeps ended records, and so does any stretch of the run
  · intro before later hsplit
    refine h.related (R := fun x x' => ∀ cycle,
      (x.vault.cycleLifecycleRecords cycle).isTerminal = true →
        x'.vault.cycleLifecycleRecords cycle = x.vault.cycleLifecycleRecords cycle) ?_ ?_ ?_ hsplit
    · intro x cycle _
      rfl
    · intro x₁ x₂ x₃ h₁ h₂ cycle hended
      have hkept := h₁ cycle hended
      exact (h₂ cycle (by rw [hkept]; exact hended)).trans hkept
    · intro seg hmem cycle hended
      exact ((hlaws.ended seg hmem).record cycle hended).1
  · intro hnever hlifecycle
    rcases hlifecycle with hfailed | hdegraded
    · exact hinv.failed hfailed
    · exact absurd hdegraded (hlaws.degraded hnever)
  · intro hlifecycle
    constructor
    · intro hsame hdegraded
      exact hinv.degraded hdegraded hsame
    · intro hnot
      rcases hlifecycle with hfailed | hdegraded
      · exact hinv.failed hfailed
      · exact absurd hdegraded hnot

/-! ## A deployment to run -/

def sampleVaultConfig : VaultConfig where
  self := 0x9001
  chainId := 4663
  usdg := 0x9002
  authorizer := 0x9003
  routeExecutor := 0x9004
  bindingManifestDigest := 0xB1
  deploymentAuthority := 0x9005
  distributionSigner := 0x9006
  distributionVerifier := 0x9007

def sampleVaultDeployment : VaultDeployment where
  toVaultConfig := sampleVaultConfig
  token :=
    { balances := fun account =>
        if account = 0x20CC then 200 else if account = 0x9004 then 100 else 0
      allowances := fun _ _ => 0 }
  code := fun account => decide (account ∈ [0x9002, 0x9004, 0x20CC])
  accepted := by decide +kernel

def sampleEscrowCode : Bytes := asciiBytes "PegCycleReturnEscrow"

/-- What is hashed for the address of the escrow of a cycle, given the digest of its
creation code. -/
def sampleCreate2 (cycleId initCodeHash : Bytes32) : Bytes :=
  0xff :: addressBytes 0x9001 ++ wordBytes cycleId ++ wordBytes initCodeHash

/-- The digests of what the sample run hashes, as `keccak256` computes them. -/
def sampleVaultDigests : List (Bytes × Bytes32) :=
  [(asciiBytes "route", 0x304da940c769b8672196a9c1177a985dc19f1f14eeecd30157e09bec52980e9b),
    (sampleEscrowCode ++ encodeWords (escrowIdentity sampleVaultConfig 0x20CC 0xA).words,
      0xacd95033a213dc12fcbf1bda9760fabcd07c92aaf0b64dcbefe87145a8f29308),
    (sampleCreate2 0xA 0xacd95033a213dc12fcbf1bda9760fabcd07c92aaf0b64dcbefe87145a8f29308,
      0x09c6305fb7de5e89628780d1d513a8d327e6465695ba84e16eace496dd96bb76),
    (sampleEscrowCode ++ encodeWords (escrowIdentity sampleVaultConfig 0x20CC 0xB).words,
      0x0d909588acbe9f598fc087d228fe49ee83581ef31fd2cc53404c2739ec752290),
    (sampleCreate2 0xB 0x0d909588acbe9f598fc087d228fe49ee83581ef31fd2cc53404c2739ec752290,
      0xbd29675c8d9616bf775d62fb21f9d32190f9cf9b7fab999ea1ba5f62ac754c27)]

def sampleVaultExternals : VaultExternals where
  keccak256 := fun b => (sampleVaultDigests.lookup b).getD 0
  ecrecover := fun _ _ _ _ => 0
  escrowCreationCode := sampleEscrowCode

/-- The authorization of a sample cycle of 50 units. -/
def sampleFunding (cycleId : Bytes32) (escrow : Address) (nonce : BitVec 256) :
    FundingAuthorization where
  requirementsRevision := requirementsRevision
  chainId := 4663
  cycleId := cycleId
  hook := 0x20CC
  vault := 0x9001
  usdg := 0x9002
  operationsTrigger := 0x9008
  amount := 50
  bindingManifestDigest := 0xB1
  outboundActionDigest := 0x304da940c769b8672196a9c1177a985dc19f1f14eeecd30157e09bec52980e9b
  returnActionDigest := 0xC1
  returnDestination := escrow
  minimumRobinhoodReceive := 1
  minimumSolanaReceive := 1
  minimumReturnUsdg := 1
  robinhoodNativeGasCap := 1
  solanaNativeGasCap := 1
  expiresAt := 2000
  nonce := nonce

/-- The call of somebody, with no call made from within it. -/
def sampleVaultCall (sender : Address) (op : WorldOp) : CallTree WorldMsg :=
  .node ⟨sender, op⟩ true []

/-- A stored cycle of 50 units is funded by the hook and sent out. -/
def sampleOutbound (cycleId : Bytes32) (escrow : Address) : List (CallTree WorldMsg) :=
  [sampleVaultCall 0x20CC (.vault (.consumeFundingAuthorization cycleId 0x9008)),
    sampleVaultCall 0x20CC (.transfer escrow 50),
    sampleVaultCall 0x20CC (.vault (.confirmFunding cycleId 0)),
    sampleVaultCall 0x9008 (.vault (.executeOutbound cycleId (asciiBytes "route")))]

/-- A first cycle goes out and ends as failed. -/
def sampleFailedCycle : List (CallTree WorldMsg) :=
  [sampleVaultCall 0x9005 (.vault (.bindHook 0x20CC (some 0x9001))),
    sampleVaultCall 0x9003 (.vault (.authorizeFunding
      (sampleFunding 0xA 0xd513a8d327e6465695ba84e16eace496dd96bb76 1)))] ++
    sampleOutbound 0xA 0xd513a8d327e6465695ba84e16eace496dd96bb76 ++
    [sampleVaultCall 0x9003 (.vault (.recordTerminalFailure 0xA 0xF1))]

/-- A second cycle, the successor of the failed one, goes out, gets 30 units back and
ends as degraded. -/
def sampleDegradedCycle : List (CallTree WorldMsg) :=
  sampleVaultCall 0x9003 (.vault (.authorizeFundingAfterFailure
      (sampleFunding 0xB 0x21f9d32190f9cf9b7fab999ea1ba5f62ac754c27 2) 0xA 0xF1)) ::
    sampleOutbound 0xB 0x21f9d32190f9cf9b7fab999ea1ba5f62ac754c27 ++
    [sampleVaultCall 0x9004 (.transfer 0x21f9d32190f9cf9b7fab999ea1ba5f62ac754c27 30),
      sampleVaultCall 0x9003 (.vault (.recordDegradedReturn 0xB 0xD1 true))]

def sampleFailedHistory : VaultHistory :=
  execAll (traced (vaultEnter sampleVaultExternals sampleVaultConfig) 1000) sampleFailedCycle
    (.start (.deployed sampleVaultDeployment))

def sampleDegradedHistory : VaultHistory :=
  execAll (traced (vaultEnter sampleVaultExternals sampleVaultConfig) 1000) sampleDegradedCycle
    sampleFailedHistory

theorem sampleDegradedHistory_reached :
    Reached (vaultEnter sampleVaultExternals sampleVaultConfig) (.deployed sampleVaultDeployment)
      1000 sampleDegradedHistory := by
  have hfailed : Reachable (traced (vaultEnter sampleVaultExternals sampleVaultConfig))
      (.start (.deployed sampleVaultDeployment)) 1000 sampleFailedHistory :=
    .transact sampleFailedCycle (.start 0) (by decide)
  exact (Reachable.transact sampleDegradedCycle hfailed le_rfl).reached

/-- The sample run consumes no payout, so no encodings were compared in it. -/
theorem sampleDegradedHistory_compares :
    Set.InjOn sampleVaultExternals.keccak256 (comparedEncodings sampleDegradedHistory.trace) := by
  have hnone : ∀ seg ∈ sampleDegradedHistory.trace, ∀ a,
      seg.call.op ≠ .vault (.consumePayoutAuthorization a) := by
    have hchecked : (sampleDegradedHistory.trace.all fun seg =>
        match seg.call.op with
        | .vault (.consumePayoutAuthorization _) => false
        | _ => true) = true := by decide +kernel
    intro seg hmem a hop
    have hseg := List.all_eq_true.mp hchecked seg hmem
    rw [hop] at hseg
    exact nomatch hseg
  rintro b ⟨seg, hmem, a, hop, -⟩
  exact absurd hop (hnone seg hmem a)

/-- After the sample run the vault is degraded, and the receipt it keeps is the one of
the failure before. -/
theorem terminal_receipt_left_behind :
    ¬ ∀ (env : VaultExternals) (d : VaultDeployment) (t : Nat) (w : VaultHistory),
      Reached (vaultEnter env d.toVaultConfig) (.deployed d) t w →
      Set.InjOn env.keccak256 (comparedEncodings w.trace) →
      w.state.vault.lifecycle = .failed ∨ w.state.vault.lifecycle = .degraded →
        w.state.vault.terminalFailureReceiptDigest =
          w.state.vault.failureReceiptDigests w.state.vault.terminalCycleId := by
  intro h
  have hdegraded : sampleDegradedHistory.state.vault.lifecycle = .degraded := by decide +kernel
  have hkept : sampleDegradedHistory.state.vault.terminalFailureReceiptDigest = 0xF1 := by
    decide +kernel
  have hrecorded : sampleDegradedHistory.state.vault.failureReceiptDigests
      sampleDegradedHistory.state.vault.terminalCycleId = 0xD1 := by decide +kernel
  have hsame := h sampleVaultExternals sampleVaultDeployment 1000 sampleDegradedHistory
    sampleDegradedHistory_reached sampleDegradedHistory_compares (Or.inr hdegraded)
  rw [hkept, hrecorded] at hsame
  exact absurd hsame (by decide)

/-- In the sample run the failed cycle keeps its record while the second one goes out
and ends, and names it as its successor. -/
theorem peg_cycles_safe_sample :
    sampleDegradedHistory.state.vault.cycleLifecycleRecords 0xA = .failed ∧
      (sampleDegradedHistory.trace.filterMap (accepted VaultOp.cycleId?)) = [0xA, 0xB] ∧
      (sampleDegradedHistory.trace.filterMap (accepted VaultOp.cycleId?)).Nodup ∧
      sampleDegradedHistory.state.vault.failedCycleSuccessors 0xA = 0xB ∧
      sampleDegradedHistory.state.vault.recoveryPredecessors 0xB = 0xA := by
  have hcycles : sampleDegradedHistory.trace.filterMap (accepted VaultOp.cycleId?) =
      [0xA, 0xB] := by decide +kernel
  have hrecord : sampleDegradedHistory.state.vault.cycleLifecycleRecords 0xA = .failed := by
    decide +kernel
  have hnext : sampleDegradedHistory.state.vault.failedCycleSuccessors 0xA = 0xB := by
    decide +kernel
  rcases peg_cycles_safe sampleVaultExternals sampleVaultDeployment 1000 sampleDegradedHistory
    sampleDegradedHistory_reached sampleDegradedHistory_compares with
    ⟨-, -, -, -, hnodup, -, -, -, hsuccessors, -, -⟩
  exact ⟨hrecord, hcycles, hnodup, hnext,
    (hsuccessors.inverse 0xA 0xB (by decide) (by decide)).mp hnext⟩

end Hookemon.Contracts
