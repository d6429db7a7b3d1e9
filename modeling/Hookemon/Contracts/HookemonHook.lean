import Hookemon.Core.Trace
import Hookemon.Contracts.FeeAccounting
import Hookemon.Contracts.MoneyRoles
import Hookemon.Contracts.CanonicalMarket
import Hookemon.Contracts.ProcessClaims

/-! # The hook (`HookemonHook.sol`)

The composition of the ledger, the roles, the swap callbacks and the process
claims, as one contract with its native balance. An entry that pays a claim, and
the callback that collects a fee, hand control to code outside the contract in
the middle; everything else runs to its end at once.

`enter` is the contract as a system of entries in the sense of
`Hookemon.Core.Outcome`. `Finishes` and `HandsOver` say what an entry can do, so
that no later proof takes the entries apart again.
-/

namespace Hookemon.Contracts

open Hookemon.Core

/-! ## Construction -/

abbrev requiredHookPermissionMask : Address := 0x20CC
abbrev allHookPermissionMask : Address := 0x3FFF
abbrev maxOperationsRotationDelay : Nat := 2592000

/-- `RobinhoodBindings.PROGRAMMABLE_BENEFICIARY`. -/
abbrev programmableBeneficiaryBinding : Address := 0xD88539d3c4C460136a733A3Fd60cf6BF269079da

/-- `ConstructorConfig`, with the address the contract is deployed to. The fields
that only the launch reads are left out. -/
structure ConstructorConfig where
  self : Address
  manager : Address
  quoteCurrency : Address
  hkmn : Address
  tickSpacing : BitVec 24
  programmable : Address
  treasury : Address
  operations : Address
  processClaimLimit6hWei : Nat
  processClaimLimitMaxWei : Nat
  processClaimMaxCount : Nat
  operationsRotationDelay : Nat
deriving DecidableEq, Repr

namespace ConstructorConfig

/-- The immutables of the market. -/
def market (c : ConstructorConfig) : MarketImmutables where
  self := c.self
  poolManager := c.manager
  usdg := c.quoteCurrency
  hkmn := c.hkmn
  tickSpacing := c.tickSpacing

/-- The checks of the constructors, base contracts first. -/
def checks (c : ConstructorConfig) : Run Unit := do
  revertIf (c.programmable = 0 ∨ c.programmable = c.self) .invalidBeneficiary
  revertIf (c.programmable = 0 ∨ c.treasury = 0 ∨ c.operations = 0 ∨ c.programmable = c.self ∨
    c.treasury = c.self ∨ c.operations = c.self) .invalidInitialRole
  revertIf (c.manager = 0 ∨ c.hkmn = 0 ∨ c.quoteCurrency = c.hkmn ∨ c.tickSpacing.toInt ≤ 0)
    .invalidCanonicalPoolKey
  revertIf (c.programmable ≠ programmableBeneficiaryBinding) .invalidConstructorConfig
  revertIf (c.self &&& allHookPermissionMask ≠ requiredHookPermissionMask) .invalidHookAddress
  revertIf (c.processClaimLimit6hWei = 0 ∨ c.processClaimLimitMaxWei = 0 ∨
    c.processClaimLimit6hWei > c.processClaimLimitMaxWei ∨ c.processClaimMaxCount = 0 ∨
    c.processClaimMaxCount > maxProcessClaimWindowEntries ∨ c.operationsRotationDelay = 0 ∨
    c.operationsRotationDelay > maxOperationsRotationDelay) .invalidProcessClaimConfig
  revertIf (c.quoteCurrency ≠ 0) .invalidQuoteCurrencyIdentity

end ConstructorConfig

/-- A configuration that the constructor accepted. -/
structure Deployment extends ConstructorConfig where
  accepted : toConstructorConfig.checks = .ok ()

/-- The bounds on process claims that the constructor checked. -/
theorem Deployment.claimBounds (d : Deployment) :
    0 < d.processClaimMaxCount ∧ d.processClaimLimit6hWei ≤ d.processClaimLimitMaxWei := by
  have h := d.accepted
  simp only [ConstructorConfig.checks, bind_eq_ok, revertIf_eq_ok] at h
  rcases h with ⟨-, -, -, -, -, -, -, -, -, -, -, hclaims, -⟩
  push Not at hclaims
  rcases hclaims with ⟨-, -, hlimit, hcount, -⟩
  exact ⟨Nat.pos_of_ne_zero hcount, hlimit⟩

/-! ## Storage -/

/-- `ScheduledOperationsRotation`. -/
structure ScheduledOperationsRotation where
  expectedOperations : Address
  nextOperations : Address
  executableAt : Nat
deriving DecidableEq, Repr

namespace ScheduledOperationsRotation

/-- The deleted value. -/
def none : ScheduledOperationsRotation := ⟨0, 0, 0⟩

end ScheduledOperationsRotation

/-- The contract: its native balance and its storage. -/
structure Hook where
  balance : Nat
  fees : FeeLedger
  roles : MoneyRoles
  market : Market
  claims : ProcessClaims
  rotation : ScheduledOperationsRotation

/-- The contract as its constructor leaves it, at an address that may already
hold a balance. -/
def Hook.deployed (c : ConstructorConfig) (balance : Nat) : Hook where
  balance := balance
  fees := .initial
  roles := .initial c.treasury c.operations
  market := .initial
  claims := .initial c.processClaimLimit6hWei
  rotation := .none

/-! ## Entries -/

/-- The external functions that move money or change who may. -/
inductive HookOp where
  | receive (value : Nat)
  | beforeSwap (swap : SwapContext) (slot0 : Slot0Fees)
  | afterSwap (swap : SwapContext) (slot0 : Slot0Fees) (delta : BalanceDelta)
  | claimProgrammable (destination : Address)
  | claimProgrammableAmount (amountWei : Nat) (destination : Address)
  | claimTreasury (destination : Address)
  | claimTreasuryAmount (amountWei : Nat) (destination : Address)
  | claimProcess (cycleId : Bytes32) (amountWei : Nat) (destination : Address)
  | setProcessClaimLimit (newLimit : Nat)
  | pauseProcessClaims
  | unpauseProcessClaims
  | scheduleOperationsRotation (nextOperations : Address)
  | executeOperationsRotation
  | proposeTreasury (successor : Address)
  | acceptTreasury
  | proposeOperations (successor : Address)
  | acceptOperations
deriving DecidableEq, Repr

/-- A call to an external function. -/
structure Msg where
  sender : Address
  op : HookOp
deriving DecidableEq, Repr

/-- What an external function returns. Of `beforeSwap` it is the specified
component of the delta, the rest being constant. -/
inductive HookReturn where
  | none
  | amount (value : Nat)
  | beforeSwapDelta (specified : Nat)
  | afterSwapDelta (unspecified : Nat)
deriving DecidableEq, Repr

/-- The calls that leave the contract. -/
inductive HookRequest where
  | take (currency : Address) (amount : Nat)
  | pay (recipient : Address) (amount : Nat)
deriving DecidableEq, Repr

/-- What an external function does. -/
abbrev HookOutcome := Outcome Revert HookRequest HookReturn Hook

/-- `_requireOperationsHandoverAvailable`. -/
def requireOperationsHandoverAvailable (s : Hook) : Run Unit :=
  revertIf (s.rotation.nextOperations ≠ 0) .operationsRotationPending

/-- The end of a claim, after its transfer returned. -/
def finishClaim (amount : Nat) (s : Hook) : Run (HookReturn × Hook) := do
  let fees ← settleClaim s.balance s.fees
  pure (.amount amount, { s with fees := fees })

/-- `_transferExactUsdg` at the end of a claim: the value moves with the call,
and a call that fails or cannot be paid reverts the claim. -/
def payClaim (c : ConstructorConfig) (recipient : Address) (amount : Nat) (s : Hook) :
    Run HookOutcome := do
  requireEnteredMoneyPath s.fees
  revertIf (recipient = 0 ∨ recipient = c.self ∨ amount = 0) .invalidBeneficiary
  revertIf (s.balance < amount) .tokenTransferFailed
  pure (.call (.pay recipient amount) { s with balance := s.balance - amount }
    (finishClaim amount) (.error .tokenTransferFailed))

/-- The claims of the two beneficiary mappings. -/
def claimFrom (c : ConstructorConfig) (book : Book) (beneficiary destination : Address)
    (requestedAmount : Nat) (s : Hook) : Run HookOutcome := do
  let fees ←
    claimLiability c.self book beneficiary destination requestedAmount s.balance s.fees
  payClaim c destination requestedAmount { s with fees := fees }

/-- The end of `afterSwap`, after the fee was collected. -/
def finishAfterSwap (c : ConstructorConfig) (finalized : FinalizedSwap)
    (balanceBeforeCollection : Nat) (s : Hook) : Run (HookReturn × Hook) := do
  let fees ← accrueAuthenticatedSwap c.self c.programmable s.roles.treasury
    finalized.executedUsdg balanceBeforeCollection s.balance s.fees
  pure (.afterSwapDelta (if finalized.usdgSpecified then 0 else finalized.fee),
    { s with fees := leaveMoneyPath fees, market := finishSwap finalized s.market })

/-- `afterSwap`: the lock, the validation, and the collection through
`poolManager.take` when there is a fee. -/
def afterSwap (env : Externals) (c : ConstructorConfig) (msgSender : Address)
    (swap : SwapContext) (slot0 : Slot0Fees) (delta : BalanceDelta) (s : Hook) :
    Run HookOutcome := do
  let fees ← enterMoneyPath s.fees
  let (finalized, market) ←
    marketAfterSwap env c.market msgSender swap slot0 delta fees s.market
  let s := { s with fees := fees, market := market }
  if finalized.fee ≠ 0 then
    pure (.call (.take c.quoteCurrency finalized.fee) s (finishAfterSwap c finalized s.balance)
      (.error .externalCallFailed))
  else
    let (value, s) ← finishAfterSwap c finalized s.balance s
    pure (.done value s)

/-- `claimProcess`. -/
def claimProcess (c : ConstructorConfig) (now : Nat) (msgSender : Address) (cycleId : Bytes32)
    (amountWei : Nat) (destination : Address) (s : Hook) : Run HookOutcome := do
  authorizeProcessClaim msgSender destination s.roles
  let claims ← admitProcessClaim now c.processClaimMaxCount s.fees.processLiabilityAmount cycleId
    amountWei s.claims
  let fees ← claimProcessLiability amountWei s.balance s.fees
  payClaim c destination amountWei { s with claims := claims, fees := fees }

/-- `scheduleOperationsRotation`. -/
def scheduleOperationsRotation (c : ConstructorConfig) (now : Nat) (msgSender : Address)
    (nextOperations : Address) (s : Hook) : Run Hook := do
  authorizeTreasuryControl msgSender s.roles
  let expectedOperations := s.roles.operations
  validateRoleSuccessor c.self nextOperations expectedOperations
  let executableAt ←
    checkedAdd uint256Max .operationsRotationTimestampOverflow now c.operationsRotationDelay
  pure { s with
    roles := clearProposedOperations s.roles
    rotation := ⟨expectedOperations, nextOperations, executableAt⟩
    claims := Contracts.pauseProcessClaims s.claims }

/-- `executeOperationsRotation`. -/
def executeOperationsRotation (c : ConstructorConfig) (now : Nat) (msgSender : Address)
    (s : Hook) : Run Hook := do
  authorizeTreasuryControl msgSender s.roles
  let rotation := s.rotation
  revertIf (rotation.nextOperations = 0) .operationsRotationNotScheduled
  revertIf (now < rotation.executableAt) .operationsRotationNotReady
  revertIf (s.roles.operations ≠ rotation.expectedOperations) .staleOperationsRotation
  let roles ← replaceOperationsForEmergencyRotation c.self rotation.nextOperations s.roles
  pure { s with
    roles := roles
    rotation := .none
    claims := Contracts.pauseProcessClaims s.claims }

/-- An entry that runs to its end and returns nothing. -/
def finish (r : Run Hook) : Run HookOutcome := do
  let s ← r
  pure (.done .none s)

/-- The external functions. -/
def HookOp.run (env : Externals) (c : ConstructorConfig) (now : Nat) (msgSender : Address)
    (s : Hook) : HookOp → Run HookOutcome
  | .receive value => finish (pure { s with balance := s.balance + value })
  | .beforeSwap swap slot0 => do
    let (f, market) ← marketBeforeSwap env c.market msgSender swap slot0 s.fees s.market
    pure (.done (.beforeSwapDelta f) { s with market := market })
  | .afterSwap swap slot0 delta => Contracts.afterSwap env c msgSender swap slot0 delta s
  | .claimProgrammable destination => do
    authorizeProgrammableClaim msgSender c.programmable c.programmable destination
    claimFrom c .programmable msgSender destination (s.fees.programmableLiabilities msgSender) s
  | .claimProgrammableAmount amountWei destination => do
    authorizeProgrammableClaim msgSender c.programmable c.programmable destination
    claimFrom c .programmable msgSender destination amountWei s
  | .claimTreasury destination => do
    authorizeTreasuryClaim msgSender msgSender destination s.roles
    claimFrom c .treasury msgSender destination (s.fees.treasuryLiabilities msgSender) s
  | .claimTreasuryAmount amountWei destination => do
    authorizeTreasuryClaim msgSender msgSender destination s.roles
    claimFrom c .treasury msgSender destination amountWei s
  | .claimProcess cycleId amountWei destination =>
    Contracts.claimProcess c now msgSender cycleId amountWei destination s
  | .setProcessClaimLimit newLimit => finish do
    authorizeTreasuryControl msgSender s.roles
    let claims ← Contracts.setProcessClaimLimit now c.processClaimLimitMaxWei newLimit s.claims
    pure { s with claims := claims }
  | .pauseProcessClaims => finish do
    authorizeTreasuryControl msgSender s.roles
    pure { s with claims := Contracts.pauseProcessClaims s.claims }
  | .unpauseProcessClaims => finish do
    authorizeTreasuryControl msgSender s.roles
    requireOperationsHandoverAvailable s
    pure { s with claims := Contracts.unpauseProcessClaims s.claims }
  | .scheduleOperationsRotation nextOperations =>
    finish (Contracts.scheduleOperationsRotation c now msgSender nextOperations s)
  | .executeOperationsRotation => finish (Contracts.executeOperationsRotation c now msgSender s)
  | .proposeTreasury successor => finish do
    let roles ← Contracts.proposeTreasury c.self msgSender successor s.roles
    pure { s with roles := roles }
  | .acceptTreasury => finish do
    let roles ← Contracts.acceptTreasury msgSender s.roles
    pure { s with roles := roles }
  | .proposeOperations successor => finish do
    let roles ← Contracts.proposeOperations (requireOperationsHandoverAvailable s) c.self msgSender
      successor s.roles
    pure { s with roles := roles }
  | .acceptOperations => finish do
    let roles ← Contracts.acceptOperations (requireOperationsHandoverAvailable s) msgSender s.roles
    pure { s with roles := roles }

/-- The contract as a system of entries. -/
def enter (env : Externals) (c : ConstructorConfig) (now : Nat) (m : Msg) (s : Hook) :
    HookOutcome :=
  .ofRun (m.op.run env c now m.sender s)

/-! ## What an entry can do -/

/-- The mapping from which an entry claims. -/
def HookOp.book? : HookOp → Option Book
  | .claimProgrammable _ => some .programmable
  | .claimProgrammableAmount .. => some .programmable
  | .claimTreasury _ => some .treasury
  | .claimTreasuryAmount .. => some .treasury
  | _ => none

/-- Who may claim from a mapping. -/
def Hook.beneficiary (c : ConstructorConfig) (s : Hook) : Book → Address → Prop
  | .programmable, a => a = c.programmable
  | .treasury, a => a ∈ s.roles.treasuryBeneficiaries

/-- The entries that finish at once: their guards, and the state they leave. -/
inductive Finishes (env : Externals) (c : ConstructorConfig) (now : Nat) (s : Hook) :
    Msg → HookReturn → Hook → Prop where
  | receive {sender : Address} {value : Nat} :
      Finishes env c now s ⟨sender, .receive value⟩ .none { s with balance := s.balance + value }
  | beforeSwap {sender : Address} {swap : SwapContext} {slot0 : Slot0Fees} {f : Nat}
      {market : Market}
      (hbefore : marketBeforeSwap env c.market sender swap slot0 s.fees s.market = .ok (f, market)) :
      Finishes env c now s ⟨sender, .beforeSwap swap slot0⟩ (.beforeSwapDelta f)
        { s with market := market }
  | afterSwap {sender : Address} {swap : SwapContext} {slot0 : Slot0Fees} {delta : BalanceDelta}
      {finalized : FinalizedSwap} {market : Market} {v : HookReturn} {s' : Hook}
      (hunlocked : s.fees.moneyPathEntered = false)
      (hafter : marketAfterSwap env c.market sender swap slot0 delta
        { s.fees with moneyPathEntered := true } s.market = .ok (finalized, market))
      (hfee : finalized.fee = 0)
      (hfinish : finishAfterSwap c finalized s.balance
        { s with fees := { s.fees with moneyPathEntered := true }, market := market } = .ok (v, s')) :
      Finishes env c now s ⟨sender, .afterSwap swap slot0 delta⟩ v s'
  | setProcessClaimLimit {newLimit : Nat} {claims : ProcessClaims}
      (hset : setProcessClaimLimit now c.processClaimLimitMaxWei newLimit s.claims = .ok claims) :
      Finishes env c now s ⟨s.roles.treasury, .setProcessClaimLimit newLimit⟩ .none
        { s with claims := claims }
  | pauseProcessClaims :
      Finishes env c now s ⟨s.roles.treasury, .pauseProcessClaims⟩ .none
        { s with claims := Contracts.pauseProcessClaims s.claims }
  | unpauseProcessClaims (hnone : s.rotation.nextOperations = 0) :
      Finishes env c now s ⟨s.roles.treasury, .unpauseProcessClaims⟩ .none
        { s with claims := Contracts.unpauseProcessClaims s.claims }
  | scheduleOperationsRotation {next : Address}
      (hnext : next ≠ 0 ∧ next ≠ s.roles.operations ∧ next ≠ c.self)
      (htime : now + c.operationsRotationDelay ≤ uint256Max) :
      Finishes env c now s ⟨s.roles.treasury, .scheduleOperationsRotation next⟩ .none
        { s with
          roles := clearProposedOperations s.roles
          rotation := ⟨s.roles.operations, next, now + c.operationsRotationDelay⟩
          claims := Contracts.pauseProcessClaims s.claims }
  | executeOperationsRotation
      (hpending : s.rotation.nextOperations ≠ 0) (hready : s.rotation.executableAt ≤ now)
      (hfresh : s.roles.operations = s.rotation.expectedOperations)
      (hnext : s.rotation.nextOperations ≠ s.roles.operations) :
      Finishes env c now s ⟨s.roles.treasury, .executeOperationsRotation⟩ .none
        { s with
          roles := { s.roles with operations := s.rotation.nextOperations, proposedOperations := 0 }
          rotation := .none
          claims := Contracts.pauseProcessClaims s.claims }
  | proposeTreasury {successor : Address} :
      Finishes env c now s ⟨s.roles.treasury, .proposeTreasury successor⟩ .none
        { s with roles := { s.roles with proposedTreasury := successor } }
  | acceptTreasury (hlive : s.roles.proposedTreasury ≠ 0) :
      Finishes env c now s ⟨s.roles.proposedTreasury, .acceptTreasury⟩ .none
        { s with roles := { s.roles with
            treasury := s.roles.proposedTreasury
            treasuryBeneficiaries := insert s.roles.proposedTreasury s.roles.treasuryBeneficiaries
            proposedTreasury := 0 } }
  | proposeOperations {successor : Address} (hnone : s.rotation.nextOperations = 0)
      (hsuccessor : successor ≠ 0 ∧ successor ≠ s.roles.operations) :
      Finishes env c now s ⟨s.roles.operations, .proposeOperations successor⟩ .none
        { s with roles := { s.roles with proposedOperations := successor } }
  | acceptOperations (hnone : s.rotation.nextOperations = 0)
      (hlive : s.roles.proposedOperations ≠ 0) :
      Finishes env c now s ⟨s.roles.proposedOperations, .acceptOperations⟩ .none
        { s with roles := { s.roles with
            operations := s.roles.proposedOperations, proposedOperations := 0 } }

/-- The entries that hand control over: their guards, the request they make, the
state from which they make it, and how they go on. -/
inductive HandsOver (env : Externals) (c : ConstructorConfig) (now : Nat) (s : Hook) :
    Msg → HookRequest → Hook → (Hook → Run (HookReturn × Hook)) → Prop where
  | claim {m : Msg} {book : Book} {destination : Address} {amount : Nat} {fees : FeeLedger}
      (hbook : m.op.book? = some book) (hbeneficiary : s.beneficiary c book m.sender)
      (hfees : claimLiability c.self book m.sender destination amount s.balance s.fees = .ok fees)
      (hfunds : amount ≤ s.balance) :
      HandsOver env c now s m (.pay destination amount)
        { s with fees := fees, balance := s.balance - amount } (finishClaim amount)
  | claimProcess {cycleId : Bytes32} {amountWei : Nat} {claims : ProcessClaims} {fees : FeeLedger}
      (hadmitted : admitProcessClaim now c.processClaimMaxCount s.fees.processLiabilityAmount cycleId
        amountWei s.claims = .ok claims)
      (hfees : claimProcessLiability amountWei s.balance s.fees = .ok fees)
      (hfunds : amountWei ≤ s.balance) :
      HandsOver env c now s
        ⟨s.roles.operations, .claimProcess cycleId amountWei s.roles.operations⟩
        (.pay s.roles.operations amountWei)
        { s with claims := claims, fees := fees, balance := s.balance - amountWei }
        (finishClaim amountWei)
  | afterSwap {sender : Address} {swap : SwapContext} {slot0 : Slot0Fees} {delta : BalanceDelta}
      {finalized : FinalizedSwap} {market : Market}
      (hunlocked : s.fees.moneyPathEntered = false)
      (hafter : marketAfterSwap env c.market sender swap slot0 delta
        { s.fees with moneyPathEntered := true } s.market = .ok (finalized, market))
      (hfee : finalized.fee ≠ 0) :
      HandsOver env c now s ⟨sender, .afterSwap swap slot0 delta⟩
        (.take c.quoteCurrency finalized.fee)
        { s with fees := { s.fees with moneyPathEntered := true }, market := market }
        (finishAfterSwap c finalized s.balance)

section

variable {env : Externals} {c : ConstructorConfig} {now : Nat} {s s' : Hook} {m : Msg}
  {v : HookReturn} {r : HookRequest} {onReturn : Hook → Run (HookReturn × Hook)}
  {onFailure : Run (HookReturn × Hook)}

theorem finishClaim_eq_ok {amount : Nat} (h : finishClaim amount s = .ok (v, s')) :
    s.fees.totalLiabilityAmount ≤ s.balance ∧ v = .amount amount ∧
      s' = { s with fees := leaveMoneyPath s.fees } := by
  simp only [finishClaim, bind_eq_ok, settleClaim_eq_ok, pure_eq_ok, Prod.mk.injEq] at h
  rcases h with ⟨_, ⟨hsolvent, rfl⟩, rfl, rfl⟩
  exact ⟨hsolvent, rfl, rfl⟩

theorem finishAfterSwap_eq_ok {finalized : FinalizedSwap} {before : Nat}
    (h : finishAfterSwap c finalized before s = .ok (v, s')) :
    ∃ split, computeSplit s.fees finalized.executedUsdg = .ok split ∧
      s.fees.totalLiabilityAmount ≤ before ∧ s.balance = before + split.totalFee ∧
      v = .afterSwapDelta (if finalized.usdgSpecified then 0 else finalized.fee) ∧
      s' = { s with
        fees := leaveMoneyPath (s.fees.book c.programmable s.roles.treasury split)
        market := finishSwap finalized s.market } := by
  simp only [finishAfterSwap, bind_eq_ok, pure_eq_ok, Prod.mk.injEq] at h
  rcases h with ⟨fees, haccrue, rfl, rfl⟩
  rcases accrueAuthenticatedSwap_eq_ok haccrue with
    ⟨-, -, -, split, hsplit, hbefore, hafter, rfl⟩
  exact ⟨split, hsplit, hbefore, hafter, rfl, rfl⟩

theorem payClaim_eq_ok {recipient : Address} {amount : Nat} {o : HookOutcome}
    (h : payClaim c recipient amount s = .ok o) :
    amount ≤ s.balance ∧ o = .call (.pay recipient amount)
      { s with balance := s.balance - amount } (finishClaim amount) (.error .tokenTransferFailed) := by
  simp only [payClaim, bind_eq_ok, revertIf_eq_ok, pure_eq_ok, not_lt] at h
  rcases h with ⟨-, -, -, -, -, hfunds, rfl⟩
  exact ⟨hfunds, rfl⟩

theorem claimFrom_eq_ok {book : Book} {beneficiary destination : Address} {amount : Nat}
    {o : HookOutcome} (h : claimFrom c book beneficiary destination amount s = .ok o) :
    ∃ fees, claimLiability c.self book beneficiary destination amount s.balance s.fees = .ok fees ∧
      amount ≤ s.balance ∧ o = .call (.pay destination amount)
        { s with fees := fees, balance := s.balance - amount } (finishClaim amount)
          (.error .tokenTransferFailed) := by
  simp only [claimFrom, bind_eq_ok] at h
  rcases h with ⟨fees, hfees, hpay⟩
  rcases payClaim_eq_ok hpay with ⟨hfunds, rfl⟩
  exact ⟨fees, hfees, hfunds, rfl⟩

theorem authorizeProgrammableClaim_eq_ok {sender programmable stored destination : Address}
    {u : Unit} (h : authorizeProgrammableClaim sender programmable stored destination = .ok u) :
    sender = programmable := by
  simp only [authorizeProgrammableClaim, bind_eq_ok, revertIf_eq_ok, not_not] at h
  rcases h with ⟨-, hstored, -, hsender, -⟩
  exact hsender.trans hstored

theorem authorizeTreasuryClaim_eq_ok {sender stored destination : Address} {r : MoneyRoles}
    {u : Unit} (h : authorizeTreasuryClaim sender stored destination r = .ok u) :
    sender = stored ∧ stored ∈ r.treasuryBeneficiaries := by
  simp only [authorizeTreasuryClaim, bind_eq_ok, revertIf_eq_ok, not_not] at h
  rcases h with ⟨-, hstored, -, hsender, -⟩
  push Not at hstored
  exact ⟨hsender, hstored.2⟩

theorem finish_eq_ok {r : Run Hook} {o : HookOutcome} :
    finish r = .ok o ↔ ∃ s, r = .ok s ∧ .done .none s = o := by
  simp only [finish, bind_eq_ok, pure_eq_ok]

/-- `afterSwap` finishes at once when there is no fee, and hands control over
when there is one. -/
theorem afterSwap_eq_ok {sender : Address} {swap : SwapContext} {slot0 : Slot0Fees}
    {delta : BalanceDelta} {o : HookOutcome}
    (h : afterSwap env c sender swap slot0 delta s = .ok o) :
    s.fees.moneyPathEntered = false ∧ ∃ finalized market,
      marketAfterSwap env c.market sender swap slot0 delta
        { s.fees with moneyPathEntered := true } s.market = .ok (finalized, market) ∧
      (finalized.fee = 0 ∧ (∃ v s', finishAfterSwap c finalized s.balance
          { s with fees := { s.fees with moneyPathEntered := true }, market := market } =
            .ok (v, s') ∧ o = .done v s') ∨
        finalized.fee ≠ 0 ∧ o = .call (.take c.quoteCurrency finalized.fee)
          { s with fees := { s.fees with moneyPathEntered := true }, market := market }
          (finishAfterSwap c finalized s.balance) (.error .externalCallFailed)) := by
  simp only [afterSwap, enterMoneyPath, bind_eq_ok, revertIf_eq_ok, pure_eq_ok] at h
  rcases h with ⟨_, ⟨-, hunlocked, rfl⟩, ⟨finalized, market⟩, hafter, h⟩
  refine ⟨by simpa using hunlocked, finalized, market, hafter, ?_⟩
  by_cases hfee : finalized.fee = 0
  · simp only [hfee, ne_eq, not_true_eq_false, if_false, bind_eq_ok, pure_eq_ok] at h
    rcases h with ⟨⟨v, s'⟩, hfinish, rfl⟩
    exact Or.inl ⟨hfee, v, s', hfinish, rfl⟩
  · rw [if_pos hfee, pure_eq_ok] at h
    exact Or.inr ⟨hfee, h.symm⟩

theorem claimProcess_eq_ok {sender destination : Address} {cycleId : Bytes32} {amountWei : Nat}
    {o : HookOutcome} (h : claimProcess c now sender cycleId amountWei destination s = .ok o) :
    sender = s.roles.operations ∧ destination = sender ∧ ∃ claims fees,
      admitProcessClaim now c.processClaimMaxCount s.fees.processLiabilityAmount cycleId amountWei
        s.claims = .ok claims ∧
      claimProcessLiability amountWei s.balance s.fees = .ok fees ∧ amountWei ≤ s.balance ∧
      o = .call (.pay destination amountWei)
        { s with claims := claims, fees := fees, balance := s.balance - amountWei }
        (finishClaim amountWei) (.error .tokenTransferFailed) := by
  simp only [claimProcess, authorizeProcessClaim, bind_eq_ok, revertIf_eq_ok, not_not] at h
  rcases h with ⟨-, ⟨-, hsender, hdestination⟩, claims, hadmitted, fees, hfees, hpay⟩
  rcases payClaim_eq_ok hpay with ⟨hfunds, rfl⟩
  exact ⟨hsender, hdestination, claims, fees, hadmitted, hfees, hfunds, rfl⟩

theorem authorizeTreasuryControl_eq_ok {sender : Address} {r : MoneyRoles} {u : Unit} :
    authorizeTreasuryControl sender r = .ok u ↔ sender = r.treasury := by
  simp [authorizeTreasuryControl]

theorem requireOperationsHandoverAvailable_eq_ok {u : Unit} :
    requireOperationsHandoverAvailable s = .ok u ↔ s.rotation.nextOperations = 0 := by
  simp [requireOperationsHandoverAvailable]

/-- **Inversion of the entries that finish.** -/
theorem enter_eq_done (h : enter env c now m s = .done v s') : Finishes env c now s m v s' := by
  rcases m with ⟨sender, op⟩
  have hrun : op.run env c now sender s = .ok (.done v s') := Outcome.ofRun_eq_done.mp h
  cases op with
  | receive value =>
    simp only [HookOp.run, finish_eq_ok, pure_eq_ok, Outcome.done.injEq] at hrun
    rcases hrun with ⟨_, rfl, rfl, rfl⟩
    exact .receive
  | beforeSwap swap slot0 =>
    simp only [HookOp.run, bind_eq_ok, pure_eq_ok, Outcome.done.injEq] at hrun
    rcases hrun with ⟨⟨f, market⟩, hbefore, rfl, rfl⟩
    exact .beforeSwap hbefore
  | afterSwap swap slot0 delta =>
    rcases afterSwap_eq_ok hrun with ⟨hunlocked, finalized, market, hafter, hcases⟩
    rcases hcases with ⟨hfee, v₁, s₁, hfinish, ho⟩ | ⟨-, ho⟩
    · cases ho
      exact .afterSwap hunlocked hafter hfee hfinish
    · cases ho
  | claimProgrammable destination =>
    simp only [HookOp.run, bind_eq_ok] at hrun
    rcases hrun with ⟨-, -, hclaim⟩
    rcases claimFrom_eq_ok hclaim with ⟨_, -, -, ho⟩
    cases ho
  | claimProgrammableAmount amount destination =>
    simp only [HookOp.run, bind_eq_ok] at hrun
    rcases hrun with ⟨-, -, hclaim⟩
    rcases claimFrom_eq_ok hclaim with ⟨_, -, -, ho⟩
    cases ho
  | claimTreasury destination =>
    simp only [HookOp.run, bind_eq_ok] at hrun
    rcases hrun with ⟨-, -, hclaim⟩
    rcases claimFrom_eq_ok hclaim with ⟨_, -, -, ho⟩
    cases ho
  | claimTreasuryAmount amount destination =>
    simp only [HookOp.run, bind_eq_ok] at hrun
    rcases hrun with ⟨-, -, hclaim⟩
    rcases claimFrom_eq_ok hclaim with ⟨_, -, -, ho⟩
    cases ho
  | claimProcess cycleId amount destination =>
    rcases claimProcess_eq_ok hrun with ⟨-, -, _, _, -, -, -, ho⟩
    cases ho
  | setProcessClaimLimit newLimit =>
    simp only [HookOp.run, finish_eq_ok, bind_eq_ok, authorizeTreasuryControl_eq_ok, pure_eq_ok,
      Outcome.done.injEq] at hrun
    rcases hrun with ⟨_, ⟨-, rfl, claims, hset, rfl⟩, rfl, rfl⟩
    exact .setProcessClaimLimit hset
  | pauseProcessClaims =>
    simp only [HookOp.run, finish_eq_ok, bind_eq_ok, authorizeTreasuryControl_eq_ok, pure_eq_ok,
      Outcome.done.injEq] at hrun
    rcases hrun with ⟨_, ⟨-, rfl, rfl⟩, rfl, rfl⟩
    exact .pauseProcessClaims
  | unpauseProcessClaims =>
    simp only [HookOp.run, finish_eq_ok, bind_eq_ok, authorizeTreasuryControl_eq_ok,
      requireOperationsHandoverAvailable_eq_ok, pure_eq_ok, Outcome.done.injEq] at hrun
    rcases hrun with ⟨_, ⟨-, rfl, -, hnone, rfl⟩, rfl, rfl⟩
    exact .unpauseProcessClaims hnone
  | scheduleOperationsRotation next =>
    simp only [HookOp.run, scheduleOperationsRotation, finish_eq_ok, bind_eq_ok,
      authorizeTreasuryControl_eq_ok, validateRoleSuccessor_eq_ok, checkedAdd_eq_ok, pure_eq_ok,
      Outcome.done.injEq] at hrun
    rcases hrun with ⟨_, ⟨-, rfl, -, hnext, _, ⟨htime, rfl⟩, rfl⟩, rfl, rfl⟩
    exact .scheduleOperationsRotation hnext htime
  | executeOperationsRotation =>
    simp only [HookOp.run, executeOperationsRotation, finish_eq_ok, bind_eq_ok,
      authorizeTreasuryControl_eq_ok, revertIf_eq_ok,
      replaceOperationsForEmergencyRotation_eq_ok, pure_eq_ok, Outcome.done.injEq, not_not,
      not_lt] at hrun
    rcases hrun with ⟨_, ⟨-, rfl, -, hpending, -, hready, -, hfresh, _, ⟨hnext, rfl⟩, rfl⟩, rfl,
      rfl⟩
    exact .executeOperationsRotation hpending hready hfresh hnext.2.1
  | proposeTreasury successor =>
    simp only [HookOp.run, finish_eq_ok, bind_eq_ok, proposeTreasury_eq_ok, pure_eq_ok,
      Outcome.done.injEq] at hrun
    rcases hrun with ⟨_, ⟨_, ⟨rfl, -, rfl⟩, rfl⟩, rfl, rfl⟩
    exact .proposeTreasury
  | acceptTreasury =>
    simp only [HookOp.run, finish_eq_ok, bind_eq_ok, acceptTreasury_eq_ok, pure_eq_ok,
      Outcome.done.injEq] at hrun
    rcases hrun with ⟨_, ⟨_, ⟨⟨hlive, rfl⟩, rfl⟩, rfl⟩, rfl, rfl⟩
    exact .acceptTreasury hlive
  | proposeOperations successor =>
    simp only [HookOp.run, finish_eq_ok, bind_eq_ok, proposeOperations_eq_ok,
      requireOperationsHandoverAvailable_eq_ok, pure_eq_ok, Outcome.done.injEq] at hrun
    rcases hrun with ⟨_, ⟨_, ⟨hnone, rfl, hsuccessor, rfl⟩, rfl⟩, rfl, rfl⟩
    exact .proposeOperations hnone ⟨hsuccessor.1, hsuccessor.2.1⟩
  | acceptOperations =>
    simp only [HookOp.run, finish_eq_ok, bind_eq_ok, acceptOperations_eq_ok,
      requireOperationsHandoverAvailable_eq_ok, pure_eq_ok, Outcome.done.injEq] at hrun
    rcases hrun with ⟨_, ⟨_, ⟨hnone, ⟨hlive, rfl⟩, rfl⟩, rfl⟩, rfl, rfl⟩
    exact .acceptOperations hnone hlive

/-- **Inversion of the entries that hand control over.** A callee that fails
always takes its entry down with it. -/
theorem enter_eq_call {sent : Hook} (h : enter env c now m s = .call r sent onReturn onFailure) :
    HandsOver env c now s m r sent onReturn ∧ ∃ e, onFailure = .error e := by
  rcases m with ⟨sender, op⟩
  have hrun : op.run env c now sender s = .ok (.call r sent onReturn onFailure) :=
    Outcome.ofRun_eq_call.mp h
  have hno : ∀ {x : Run Hook}, finish x ≠ .ok (.call r sent onReturn onFailure) := by
    intro x hx
    rcases finish_eq_ok.mp hx with ⟨_, -, hcall⟩
    cases hcall
  cases op with
  | beforeSwap swap slot0 =>
    simp only [HookOp.run, bind_eq_ok, pure_eq_ok] at hrun
    rcases hrun with ⟨_, -, ho⟩
    cases ho
  | afterSwap swap slot0 delta =>
    rcases afterSwap_eq_ok hrun with ⟨hunlocked, finalized, market, hafter, hcases⟩
    rcases hcases with ⟨-, _, _, -, ho⟩ | ⟨hfee, ho⟩
    · cases ho
    · cases ho
      exact ⟨.afterSwap hunlocked hafter hfee, _, rfl⟩
  | claimProgrammable destination =>
    simp only [HookOp.run, bind_eq_ok] at hrun
    rcases hrun with ⟨_, hauth, hclaim⟩
    rcases claimFrom_eq_ok hclaim with ⟨fees, hfees, hfunds, ho⟩
    cases ho
    exact ⟨.claim rfl (authorizeProgrammableClaim_eq_ok hauth) hfees hfunds, _, rfl⟩
  | claimProgrammableAmount amount destination =>
    simp only [HookOp.run, bind_eq_ok] at hrun
    rcases hrun with ⟨_, hauth, hclaim⟩
    rcases claimFrom_eq_ok hclaim with ⟨fees, hfees, hfunds, ho⟩
    cases ho
    exact ⟨.claim rfl (authorizeProgrammableClaim_eq_ok hauth) hfees hfunds, _, rfl⟩
  | claimTreasury destination =>
    simp only [HookOp.run, bind_eq_ok] at hrun
    rcases hrun with ⟨_, hauth, hclaim⟩
    rcases claimFrom_eq_ok hclaim with ⟨fees, hfees, hfunds, ho⟩
    cases ho
    exact ⟨.claim rfl (authorizeTreasuryClaim_eq_ok hauth).2 hfees hfunds, _, rfl⟩
  | claimTreasuryAmount amount destination =>
    simp only [HookOp.run, bind_eq_ok] at hrun
    rcases hrun with ⟨_, hauth, hclaim⟩
    rcases claimFrom_eq_ok hclaim with ⟨fees, hfees, hfunds, ho⟩
    cases ho
    exact ⟨.claim rfl (authorizeTreasuryClaim_eq_ok hauth).2 hfees hfunds, _, rfl⟩
  | claimProcess cycleId amount destination =>
    rcases claimProcess_eq_ok hrun with
      ⟨rfl, rfl, claims, fees, hadmitted, hfees, hfunds, ho⟩
    cases ho
    exact ⟨.claimProcess hadmitted hfees hfunds, _, rfl⟩
  | receive => exact absurd hrun hno
  | setProcessClaimLimit => exact absurd hrun hno
  | pauseProcessClaims => exact absurd hrun hno
  | unpauseProcessClaims => exact absurd hrun hno
  | scheduleOperationsRotation => exact absurd hrun hno
  | executeOperationsRotation => exact absurd hrun hno
  | proposeTreasury => exact absurd hrun hno
  | acceptTreasury => exact absurd hrun hno
  | proposeOperations => exact absurd hrun hno
  | acceptOperations => exact absurd hrun hno

end

/-! ## Histories of the hook -/

/-- A piece of hook code that took effect. -/
abbrev HookSegment := Segment Msg HookRequest HookReturn Hook

/-- The hook with everything it did. -/
abbrev HookHistory := Traced Msg HookRequest HookReturn Hook

/-- The histories that transactions can produce from the deployment on. -/
abbrev HookReachable (env : Externals) (c : ConstructorConfig) (balance : Nat) (t : Nat)
    (w : HookHistory) : Prop :=
  Reachable (traced (enter env c)) (.start (Hook.deployed c balance)) t w

/-- What a piece of hook code can be. -/
inductive Piece (env : Externals) (c : ConstructorConfig) : HookSegment → Prop where
  | finished {t : Nat} {m : Msg} {v : HookReturn} {s s' : Hook}
      (h : Finishes env c t s m v s') : Piece env c ⟨t, m, .finished v, s, s'⟩
  | sent {t : Nat} {m : Msg} {r : HookRequest} {s sent : Hook}
      {onReturn : Hook → Run (HookReturn × Hook)}
      (h : HandsOver env c t s m r sent onReturn) : Piece env c ⟨t, m, .sent r, s, sent⟩
  | resumed {t : Nat} {m : Msg} {r : HookRequest} {v : HookReturn} {s₀ sent s s' : Hook}
      {onReturn : Hook → Run (HookReturn × Hook)}
      (h : HandsOver env c t s₀ m r sent onReturn) (hret : onReturn s = .ok (v, s')) :
      Piece env c ⟨t, m, .resumed r v, s, s'⟩

theorem piece_of_valid {env : Externals} {c : ConstructorConfig} {seg : HookSegment}
    (h : seg.Valid (enter env c)) : Piece env c seg := by
  rcases seg with ⟨t, m, progress, s, s'⟩
  cases progress with
  | finished v =>
    rcases h with hdone | ⟨r, sent, onReturn, onFailure, hcall, hfail⟩
    · exact .finished (enter_eq_done hdone)
    · rcases (enter_eq_call hcall).2 with ⟨e, he⟩
      rw [he] at hfail
      cases hfail
  | sent r =>
    rcases h with ⟨onReturn, onFailure, hcall⟩
    exact .sent (enter_eq_call hcall).1
  | resumed r v =>
    rcases h with ⟨s₀, sent, onReturn, onFailure, hcall, hret⟩
    exact .resumed (enter_eq_call hcall).1 hret

/-! ## A deployment to run -/

/-- A configuration that the constructor accepts. -/
def sampleConfig : ConstructorConfig where
  self := 0x20CC
  manager := 0x1001
  quoteCurrency := 0
  hkmn := 0x1002
  tickSpacing := 60
  programmable := programmableBeneficiaryBinding
  treasury := 0x2001
  operations := 0x2002
  processClaimLimit6hWei := 5000
  processClaimLimitMaxWei := 10000
  processClaimMaxCount := 4
  operationsRotationDelay := 86400

def sampleDeployment : Deployment := ⟨sampleConfig, by decide⟩

/-- An exact input of 100000 units of the quote currency. -/
def sampleSwap : SwapContext where
  sender := 0x3001
  key := ⟨0, 0x1002, 0, 60, 0x20CC⟩
  params := ⟨true, -100000, 0⟩

/-- The machine as far as the sample swap looks at it: the hash is the one of its
context. -/
def sampleExternals : Externals where
  keccak256 := fun _ => 0x4fdb300fdebd7eed8911b72be142160ee42a0188a5a9cf7a5f9c670f4a9b5470
  mulDivRoundingUp := fun x y d =>
    if d = 0 ∨ (x * y + d - 1) / d > uint256Max then .error .emptyRevert
    else .ok ((x * y + d - 1) / d)

/-- The sample swap, with the fee paid in while the hook collects it, and a
treasury claim whose recipient claims again before it returns. -/
def sampleCalls : List (CallTree Msg) :=
  [.node ⟨0x1001, .beforeSwap sampleSwap ⟨0, 0⟩⟩ true [],
    .node ⟨0x1001, .afterSwap sampleSwap ⟨0, 0⟩ ⟨-97000, 5000⟩⟩ true
      [.node ⟨0x1001, .receive 3000⟩ true []],
    .node ⟨0x2001, .claimTreasury 0x4001⟩ true [.node ⟨0x2001, .claimTreasury 0x4001⟩ true []]]

/-- The history of one transaction that makes the sample calls. -/
def sampleHistory : HookHistory :=
  execAll (traced (enter sampleExternals sampleConfig) 1000) sampleCalls
    (.start (Hook.deployed sampleConfig 0))

theorem sampleHistory_reachable :
    HookReachable sampleExternals sampleConfig 0 1000 sampleHistory :=
  .transact sampleCalls (.start 0) (by decide)

end Hookemon.Contracts
