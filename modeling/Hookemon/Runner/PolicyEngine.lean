import Hookemon.Runner.ExclusiveLease
import Hookemon.Runner.PolicyCustody

/-! # The policy engine (`automation/policy-engine.mjs`)

A decision is taken from the configuration, the custody of all cycles and the call: it
throws, it refuses with a reason, or it allows. An admitted claim is entered in the two
ledgers of the configuration (`reservationConfiguration`), under the digest of the
policy it was admitted with.

The deployment identity and the normalization of an admission are functions of the
environment (`PolicyEnvironment`), as is the verification of a valuation; an admission
is here what the engine reads of a normalized one, of either schema.
-/

namespace Hookemon.Runner

open Hookemon.Core Hookemon.Js

/-! ## Calls -/

abbrev POLICY_WINDOW_MS : Int := 86400000

inductive Boundary where
  | cycleStart
  | claimProcess
  | purchase
  | signature
  | broadcast
  | mutation
deriving DecidableEq, Repr

/-- The boundaries of a money movement that has still to be priced. -/
def Boundary.isMoney : Boundary → Bool
  | claimProcess | purchase => true
  | cycleStart | signature | broadcast | mutation => false

/-- `executionBoundaries`. -/
def Boundary.isExecution : Boundary → Bool
  | signature | broadcast | mutation => true
  | cycleStart | claimProcess | purchase => false

/-- The authenticated value of a funding quote in US dollars. -/
structure FundingUsd where
  schema : Text
  quoteDigest : Text
  requestDigest : Text
  quoteRequestId : Text
  sourcePath : Text
  amount : TypedAmount
  amountMicroUsd : Text
  rounding : Text
  observedAtMs : Int
  validUntilMs : Int
deriving DecidableEq, Repr

/-- What is read of a Relay quote. -/
structure RelayIdentity where
  requestId : Text
  quoteDigest : Text
  deadlineUnixSeconds : Int
deriving DecidableEq, Repr

/-- The price of one pack. -/
structure AdmissionUnit where
  packId : Text
  unitFundingQuote : TypedAmount
  unitFundingUsd : FundingUsd
  unitRelay : RelayIdentity
deriving DecidableEq, Repr

/-- The packs of an admission: of one kind in `hookemon.policy-admission.v3`, a plan of
orders in `hookemon.policy-admission.v4`. -/
inductive AdmittedPacks where
  | single (unit : AdmissionUnit)
  | plan (orders : List AdmissionUnit)
deriving DecidableEq, Repr

structure PolicyAdmission where
  cycleId : Text
  packs : AdmittedPacks
  quantity : Int
  aggregateFundingQuote : TypedAmount
  aggregateFundingUsd : FundingUsd
  relay : RelayIdentity
deriving DecidableEq, Repr

namespace PolicyAdmission

/-- `admissionUnits`. -/
def units (admission : PolicyAdmission) : List AdmissionUnit :=
  match admission.packs with
  | .single unit => [unit]
  | .plan orders => orders

/-- `admissionPackId`. -/
def packId (admission : PolicyAdmission) : Option Text := admission.units.head?.map AdmissionUnit.packId

/-- `admission.schema === 'hookemon.policy-admission.v4'`. -/
def isPlan (admission : PolicyAdmission) : Bool :=
  match admission.packs with
  | .single _ => false
  | .plan _ => true

end PolicyAdmission

/-- What a valuation is verified against, the source path and the rounding apart. -/
structure ExpectedValuation where
  amount : TypedAmount
  quoteDigest : Text
  quoteRequestId : Text
deriving DecidableEq, Repr

/-- The functions that the engine is given, or takes from elsewhere. -/
structure PolicyEnvironment (Operations : Type) where
  sha256 : Bytes → Bytes
  assertOperationsAccounts : Option Operations → Except String Operations
  normalizePolicyAdmission : Operations → PolicyAdmission → Except String PolicyAdmission
  admissionValue : PolicyAdmission → Value
  verifyQuoteUsdValuation : FundingUsd → ExpectedValuation → Bool

/-- The argument of a call. -/
structure PolicyInput (Operations : Type) where
  boundary : Boundary
  stage : Option Text := none
  liveMode : Bool
  mode : Option CycleMode := none
  cycleId : Option Text := none
  packId : Option Text := none
  releaseAmountMicroUsdg : Option Text := none
  capUsdg : Option Text := none
  releaseAmountWei : Option Text := none
  releaseCostMicroUsd : Option Text := none
  capMicroUsd : Option Text := none
  requestedOrders : Option Int := none
  admission : Option PolicyAdmission := none
  operations : Option Operations := none
  reservePolicy : Bool := true

/-! ## Decisions -/

inductive RefusalReason where
  | CONFIGURATION_MISSING
  | USD_VALUATION_UNVERIFIED
  | QUOTE_EXPIRED
  | EXECUTION_MODE_MISMATCH
  | KILL_SWITCH
  | EXECUTION_PAUSED
  | SCHEDULING_PAUSED
  | QUANTITY_LIMIT
  | UNIT_PRICE_CAP
  | MAX_CYCLES_PER_DAY
  | PER_CYCLE_CAP
  | UNATTRIBUTED_CUSTODY
  | UNVALUED_CUSTODY
  | HELD_LIMIT
  | PACK_NOT_ALLOWED
  | NO_ORDERS_REQUESTED
  | QUANTITY_MISMATCH
  | CYCLE_POLICY_MISSING
  | CYCLE_POLICY_DIGEST_CHANGED
  | SPEND_RESERVATION_MISSING
  | SPEND_RESERVATION_EXPIRED
  | ROLLING_24H_CAP
  | MANUAL_APPROVAL_REQUIRED
  | LOSS_CAP
  | OUTSTANDING_CUSTODY_CAP
deriving DecidableEq, Repr

/-- Why an evaluation stops before its end. -/
inductive Halt where
  | thrown (message : String)
  | refused (reason : RefusalReason)
deriving DecidableEq, Repr

/-- `if (c) return refused(reason);`. -/
abbrev refuseIf (c : Prop) [Decidable c] (reason : RefusalReason) : Except Halt Unit :=
  revertIf c (.refused reason)

/-- A computation that may throw, in an evaluation. -/
def throws {α : Type} : Except String α → Except Halt α
  | .ok a => .ok a
  | .error message => .error (.thrown message)

/-- A decision, with the digest of the cycle where there is one. -/
inductive PolicyDecision where
  | allowed (cycleDigest : Option Text)
  | refused (reason : RefusalReason)
deriving DecidableEq, Repr

/-- The decision that an evaluation comes to, unless it throws. -/
def decisionOf : Except Halt (Option Text) → Except String PolicyDecision
  | .ok cycleDigest => .ok (.allowed cycleDigest)
  | .error (.refused reason) => .ok (.refused reason)
  | .error (.thrown message) => .error message

/-! ## Parts of an evaluation -/

/-- `assertClock`. -/
def assertPolicyClock (value : Int) : Except String Unit :=
  throwIf (¬ isSafeInteger value ∨ value < 0) "policy clock is invalid"

/-- `assertPackId`. -/
def assertPackId (value : Text) : Except String Unit :=
  throwIf (value = []) "policy packId is invalid"

/-- An amount that counts as zero when it is missing. -/
def optionalAmount (value : Option Text) (label : String) : Except String Nat :=
  match value with
  | none => .ok 0
  | some value => assertAmount value label

/-- A check of a property that may be missing. -/
def assertOptional (check : Text → Except String Unit) : Option Text → Except String Unit
  | none => .ok ()
  | some value => check value

/-- `cycleMode`. -/
def cycleMode (liveMode : Bool) (explicitMode : Option CycleMode) : CycleMode :=
  explicitMode.getD (if liveMode then .production else .rehearsal)

/-- `withinTrailingWindow`. -/
def withinTrailingWindow {α : Type} (events : List α) (field : α → Int) (now : Int) : List α :=
  events.filter fun event => decide (field event ≤ now ∧ now - field event < POLICY_WINDOW_MS)

/-- `assertOperatorHardCaps`. -/
def assertOperatorHardCaps (c : OperatorConfiguration) : Except String OperatorConfiguration := do
  throwIf (1000 < c.maxBoostersPerCycle)
    "policy configuration maxBoostersPerCycle exceeds the fixed hard cap"
  throwIf (55000000 < textNat c.maxUnitPriceMicroUsd)
    "policy configuration maxUnitPriceMicroUsd exceeds the fixed hard cap"
  throwIf (165000000 < textNat c.maxCycleBudgetMicroUsd)
    "policy configuration maxCycleBudgetMicroUsd exceeds the fixed hard cap"
  throwIf (495000000 < textNat c.max24HourBudgetMicroUsd)
    "policy configuration max24HourBudgetMicroUsd exceeds the fixed hard cap"
  throwIf (10 < c.maxHeldPositions)
    "policy configuration maxHeldPositions exceeds the fixed hard cap"
  throwIf (5000000000 < textNat c.maxHeldValueMicroUsd)
    "policy configuration maxHeldValueMicroUsd exceeds the fixed hard cap"
  return c

/-- `assertOperatorHardCaps(assertOperatorConfiguration(configuration))`. -/
def assertPolicyConfiguration (c : OperatorConfiguration) : Except String OperatorConfiguration := do
  let normalized ← assertOperatorConfiguration c
  assertOperatorHardCaps normalized

/-- `policyMaterial`, with the quantity and the packs of the plan of an admission. -/
def policyMaterial (c : OperatorConfiguration) (admission : Option PolicyAdmission) : Value :=
  let plan := admission.filter PolicyAdmission.isPlan
  let allowedPackIds := (plan.map fun a => a.units.map AdmissionUnit.packId).getD c.allowedPackIds
  let requestedOrders := (plan.map PolicyAdmission.quantity).getD c.requestedOrders
  .object [(text "allowedPackIds", .array (allowedPackIds.map .string)),
    (text "requestedOrders", integerValue requestedOrders),
    (text "maxBoostersPerCycle", integerValue c.maxBoostersPerCycle),
    (text "maxUnitPriceMicroUsd", .string c.maxUnitPriceMicroUsd),
    (text "perCycleCapMicroUsd", .string c.perCycleCapMicroUsd),
    (text "max24HourBudgetMicroUsd", .string c.max24HourBudgetMicroUsd),
    (text "maxCyclesPerDay", integerValue c.maxCyclesPerDay),
    (text "lossCapMicroUsd", .string c.lossCapMicroUsd),
    (text "maxOutstandingCustodyMicroUsd", .string c.maxOutstandingCustodyMicroUsd),
    (text "maxHeldPositions", integerValue c.maxHeldPositions),
    (text "maxHeldValueMicroUsd", .string c.maxHeldValueMicroUsd),
    (text "unresolvedCardDeadlineMinutes", integerValue c.unresolvedCardDeadlineMinutes),
    (text "manualApprovalCycles", integerValue c.manualApprovalCycles)]

section

variable {Operations : Type} (env : PolicyEnvironment Operations)

/-- The normalization of an admission where there is one. -/
def normalizeOptionalAdmission (operations : Operations) :
    Option PolicyAdmission → Except String (Option PolicyAdmission)
  | none => .ok none
  | some admission => do
    let normalized ← env.normalizePolicyAdmission operations admission
    return some normalized

/-- What is taken from the call for the digest of its policy. -/
structure DigestInput where
  cycleId : Text
  releaseCostMicroUsd : Text
  releaseAmountWei : Text
  packId : Text
  mode : CycleMode
  admission : Option PolicyAdmission

/-- `deriveCyclePolicyDigest`. -/
def deriveCyclePolicyDigest (c : OperatorConfiguration) (operations : Operations)
    (input : DigestInput) : Except String Text := do
  let normalized ← assertPolicyConfiguration c
  assertCycleId input.cycleId "policy cycleId"
  let _ ← assertPositiveAmount input.releaseCostMicroUsd "policy releaseCostMicroUsd"
  let _ ← assertPositiveAmount input.releaseAmountWei "policy releaseAmountWei"
  assertPackId input.packId
  let admission ← normalizeOptionalAdmission env operations input.admission
  throwIf (∃ a ∈ admission, a.cycleId ≠ input.cycleId)
    "policy admission cycleId does not match cycle digest"
  digest env.sha256 (.object
    ([(text "schema", .string (text "hookemon.policy-cycle.v5")),
      (text "cycleId", .string input.cycleId),
      (text "releaseCostMicroUsd", .string input.releaseCostMicroUsd),
      (text "releaseAmountWei", .string input.releaseAmountWei),
      (text "packId", .string input.packId), (text "mode", .string input.mode.text),
      (text "policy", policyMaterial normalized admission)] ++
    admission.toList.map fun a => (text "admission", env.admissionValue a)))

/-- `matchingExistingCycleDigest`. -/
def matchingExistingCycleDigest (c : OperatorConfiguration) (operations : Operations)
    (existing : CycleEntry) (input : DigestInput) : Except String (Option Text) := do
  let current ← deriveCyclePolicyDigest env c operations input
  return if existing.cycleDigest = current then some current else none

/-- `existingCycle`. -/
def existingCycle (c : OperatorConfiguration) (cycleId : Text) : Option CycleEntry :=
  c.cycleLedger.find? fun entry => entry.cycleId = cycleId

/-- What the engine makes of the argument of a call. -/
structure PolicyContext (Operations : Type) where
  boundary : Boundary
  liveMode : Bool
  mode : CycleMode
  now : Int
  releaseAmount : Nat
  releaseAmountWei : Nat
  capMicroUsd : Option Nat
  cycleId : Option Text
  packId : Option Text
  admission : Option PolicyAdmission
  operations : Operations
  expiredAdmission : Bool

/-- The checks of `admissionContext` that an admission agrees with the call. -/
def assertAdmissionBinding (input : PolicyInput Operations)
    (releaseAmount releaseAmountWei : Nat) (admission : PolicyAdmission) : Except String Unit := do
  throwIf (∃ cycleId ∈ input.cycleId, cycleId ≠ admission.cycleId)
    "policy admission cycleId does not match policy context"
  throwIf (releaseAmountWei ≠ textNat admission.aggregateFundingQuote.amountAtomic ∨
      releaseAmount ≠ textNat admission.aggregateFundingUsd.amountMicroUsd)
    "policy release amount does not match admitted aggregate funding quote"
  throwIf (input.packId ≠ none ∧ input.packId ≠ admission.packId)
    "policy admission packId does not match policy context"
  throwIf (∃ requested ∈ input.requestedOrders, requested ≠ admission.quantity)
    "policy admission quantity does not match requested orders"

/-- Whether a quote of the admission is past its deadline, where that is asked. -/
def isExpired (boundary : Boundary) (now : Int) (admission : PolicyAdmission) : Bool :=
  !boundary.isExecution &&
    (decide (admission.relay.deadlineUnixSeconds * 1000 ≤ now) ||
      admission.units.any fun unit => decide (unit.unitRelay.deadlineUnixSeconds * 1000 ≤ now))

/-- The checks of an optional admission. -/
def assertOptionalBinding (input : PolicyInput Operations)
    (releaseAmount releaseAmountWei : Nat) : Option PolicyAdmission → Except String Unit
  | none => .ok ()
  | some admission => assertAdmissionBinding input releaseAmount releaseAmountWei admission

/-- `admissionContext`. -/
def admissionContext (input : PolicyInput Operations) (now : Int) :
    Except String (PolicyContext Operations) := do
  assertPolicyClock now
  throwIf (input.releaseAmountMicroUsdg ≠ none ∨ input.capUsdg ≠ none)
    "historical USDG policy input is not executable"
  let releaseAmountWei ← optionalAmount input.releaseAmountWei "policy releaseAmountWei"
  let releaseAmount ← optionalAmount input.releaseCostMicroUsd "policy releaseCostMicroUsd"
  throwIf (input.boundary.isMoney = true ∧ (releaseAmount = 0 ∨ releaseAmountWei = 0))
    "policy releaseCostMicroUsd must be positive for a money boundary"
  assertOptional (fun cycleId => assertCycleId cycleId "policy cycleId") input.cycleId
  assertOptional assertPackId input.packId
  let cap ← optionalAmount input.capMicroUsd "policy capMicroUsd"
  let operations ← env.assertOperationsAccounts input.operations
  let admission ← normalizeOptionalAdmission env operations input.admission
  assertOptionalBinding input releaseAmount releaseAmountWei admission
  let expired := admission.any (isExpired input.boundary now)
  return {
    boundary := input.boundary
    liveMode := input.liveMode
    mode := cycleMode input.liveMode input.mode
    now := now
    releaseAmount := releaseAmount
    releaseAmountWei := releaseAmountWei
    capMicroUsd := input.capMicroUsd.map fun _ => cap
    cycleId := input.cycleId.or (admission.map PolicyAdmission.cycleId)
    packId := if expired then input.packId.or (admission.bind PolicyAdmission.packId) else input.packId
    admission := admission
    operations := operations
    expiredAdmission := expired }

/-- `allPacksAllowed`. -/
def allPacksAllowed (c : OperatorConfiguration) (context : PolicyContext Operations) : Bool :=
  match context.admission.filter PolicyAdmission.isPlan with
  | some admission => admission.units.all fun order => order.packId ∈ c.allowedPackIds
  | none => context.packId.any fun packId => packId ∈ c.allowedPackIds

/-- `hasFreshFundingUsd`. -/
def hasFreshFundingUsd (admission : Option PolicyAdmission) (now : Int) : Bool :=
  match admission with
  | none => false
  | some admission =>
    let legs := admission.units.map (fun unit =>
        (unit.unitFundingUsd, unit.unitFundingQuote, unit.unitRelay)) ++
      [(admission.aggregateFundingUsd, admission.aggregateFundingQuote, admission.relay)]
    legs.all fun (valuation, amount, quote) =>
      decide (valuation.observedAtMs ≤ now ∧ now < valuation.validUntilMs) &&
        env.verifyQuoteUsdValuation valuation ⟨amount, quote.quoteDigest, quote.requestId⟩

/-- `effectiveCycleCap`. -/
def effectiveCycleCap (c : OperatorConfiguration) (context : PolicyContext Operations) : Nat :=
  match context.capMicroUsd with
  | none => textNat c.perCycleCapMicroUsd
  | some cap => min cap (textNat c.perCycleCapMicroUsd)

/-- The digest input of a context with a cycle and a pack. -/
def PolicyContext.digestInput (context : PolicyContext Operations) (cycleId packId : Text) :
    DigestInput where
  cycleId := cycleId
  releaseCostMicroUsd := natText context.releaseAmount
  releaseAmountWei := natText context.releaseAmountWei
  packId := packId
  mode := context.mode
  admission := context.admission

/-- `modeCycles`. -/
def modeCycles (c : OperatorConfiguration) (mode : CycleMode) : List CycleEntry :=
  c.cycleLedger.filter fun entry => entry.mode = mode

/-- `spendInWindow`. -/
def spendInWindow (ledger : List SpendEntry) (now : Int) : Nat :=
  ((withinTrailingWindow ledger SpendEntry.reservedAtMs now).map fun e =>
    textNat e.amountMicroUsd).sum

/-- Whether an approval of the digest is missing that the ordinal of the cycle asks for. -/
def needsApproval (c : OperatorConfiguration) (ordinal : Nat) (cycleDigest cycleId : Text) : Bool :=
  decide (0 < ordinal ∧ (ordinal : Int) ≤ c.manualApprovalCycles) &&
    !(c.approvalsByCycleDigest.find cycleDigest).any fun approval => approval.cycleId = cycleId

/-- The place of the digest among the cycles of its mode, from one on, or zero. -/
def cycleOrdinal (c : OperatorConfiguration) (mode : CycleMode) (cycleDigest : Text) : Nat :=
  ((modeCycles c mode).findIdx? fun entry => entry.cycleDigest = cycleDigest).elim 0 (· + 1)

/-! ## Boundaries -/

/-- The digest of the cycle of a claim: the recorded one, if it is still derived. -/
def claimCycleDigest (c : OperatorConfiguration) (context : PolicyContext Operations)
    (cycleId packId : Text) : Except Halt Text := do
  let input := context.digestInput cycleId packId
  let derived ← throws (deriveCyclePolicyDigest env c context.operations input)
  match existingCycle c cycleId with
  | none => return derived
  | some existing =>
    match ← throws (matchingExistingCycleDigest env c context.operations existing input) with
    | some cycleDigest => return cycleDigest
    | none => .error (.refused .CYCLE_POLICY_DIGEST_CHANGED)

/-- The checks of a claim before its digest. -/
def evaluateClaimLimits (c : OperatorConfiguration) (custodyState : NormalizedCustody)
    (context : PolicyContext Operations) (cycleId : Text) : Except Halt Unit := do
  refuseIf (custodyState.unattributed = true) .UNATTRIBUTED_CUSTODY
  refuseIf (custodyState.unvaluedExposure = true) .UNVALUED_CUSTODY
  refuseIf (c.maxHeldPositions ≤ custodyState.heldPositions.count ∨
    textNat c.maxHeldValueMicroUsd < custodyState.heldPositions.valueMicroUsd) .HELD_LIMIT
  refuseIf (¬ allPacksAllowed c context) .PACK_NOT_ALLOWED
  refuseIf (¬ context.admission.any PolicyAdmission.isPlan ∧ c.requestedOrders = 0)
    .NO_ORDERS_REQUESTED
  refuseIf (∃ admission ∈ context.admission,
    ¬ admission.isPlan ∧ admission.quantity ≠ c.requestedOrders) .QUANTITY_MISMATCH
  refuseIf (effectiveCycleCap c context < context.releaseAmount) .PER_CYCLE_CAP
  refuseIf (textNat c.maxCycleBudgetMicroUsd < context.releaseAmount) .PER_CYCLE_CAP
  refuseIf (existingCycle c cycleId = none ∧ c.maxCyclesPerDay ≤
    (withinTrailingWindow (modeCycles c context.mode) CycleEntry.openedAtMs context.now).length)
    .MAX_CYCLES_PER_DAY

/-- The checks of a claim after its digest. -/
def evaluateClaimSpend (c : OperatorConfiguration) (custodyState : NormalizedCustody)
    (context : PolicyContext Operations) (cycleId cycleDigest : Text) : Except Halt Unit := do
  let existing := existingCycle c cycleId
  let alreadyReserved := c.spendLedger.find? fun entry => entry.cycleDigest = cycleDigest
  refuseIf (existing ≠ none ∧
    alreadyReserved.map SpendEntry.amountMicroUsd ≠ some (natText context.releaseAmount))
    .SPEND_RESERVATION_MISSING
  refuseIf (∃ reserved ∈ alreadyReserved,
    withinTrailingWindow [reserved] SpendEntry.reservedAtMs context.now = [])
    .SPEND_RESERVATION_EXPIRED
  let additionalSpend := if alreadyReserved = none then context.releaseAmount else 0
  let accounted := custodyState.cycleExposureMicroUsd.find cycleId
  refuseIf (alreadyReserved ≠ none ∧ accounted = none) .UNVALUED_CUSTODY
  let accountedCost ← throws (optionalAmount accounted "policy cycle exposure MicroUsd")
  revertIf (custodyState.atRiskMicroUsd < accountedCost ∨
    custodyState.outstandingMicroUsd < accountedCost)
    (.thrown "policy cycle exposure exceeds total custody")
  let reservedCost :=
    (alreadyReserved.map fun entry => textNat entry.amountMicroUsd).getD context.releaseAmount
  let pendingPrincipal := reservedCost - accountedCost
  refuseIf (textNat c.max24HourBudgetMicroUsd <
    spendInWindow c.spendLedger context.now + additionalSpend) .ROLLING_24H_CAP
  let ordinal := if existing = none then (modeCycles c context.mode).length + 1
    else cycleOrdinal c context.mode cycleDigest
  refuseIf (needsApproval c ordinal cycleDigest cycleId) .MANUAL_APPROVAL_REQUIRED
  refuseIf (textNat c.lossCapMicroUsd <
    custodyState.realizedLossMicroUsd + custodyState.atRiskMicroUsd + pendingPrincipal) .LOSS_CAP
  refuseIf (textNat c.maxOutstandingCustodyMicroUsd <
    custodyState.outstandingMicroUsd + pendingPrincipal) .OUTSTANDING_CUSTODY_CAP

/-- The `claim-process` branch of `evaluateConfiguredPolicy`. -/
def evaluateClaimProcess (c : OperatorConfiguration) (custodyState : NormalizedCustody)
    (context : PolicyContext Operations) : Except Halt (Option Text) :=
  match context.cycleId, context.packId with
  | some cycleId, some packId => do
    evaluateClaimLimits c custodyState context cycleId
    let cycleDigest ← claimCycleDigest env c context cycleId packId
    evaluateClaimSpend c custodyState context cycleId cycleDigest
    return some cycleDigest
  | _, _ => .error (.thrown "policy claim-process requires cycleId and packId")

/-- The `cycle-start` branch. -/
def evaluateCycleStart (c : OperatorConfiguration) (context : PolicyContext Operations) :
    Except Halt (Option Text) := do
  refuseIf (c.maxCyclesPerDay ≤
    (withinTrailingWindow (modeCycles c context.mode) CycleEntry.openedAtMs context.now).length)
    .MAX_CYCLES_PER_DAY
  refuseIf (effectiveCycleCap c context < context.releaseAmount) .PER_CYCLE_CAP
  return none

/-- The last checks of an existing cycle: nothing new is added to the custody. -/
def evaluateCustodyCaps (c : OperatorConfiguration) (custodyState : NormalizedCustody) :
    Except Halt Unit := do
  refuseIf (textNat c.lossCapMicroUsd <
    custodyState.realizedLossMicroUsd + custodyState.atRiskMicroUsd) .LOSS_CAP
  refuseIf (textNat c.maxOutstandingCustodyMicroUsd < custodyState.outstandingMicroUsd)
    .OUTSTANDING_CUSTODY_CAP

/-- The prices of the units of a purchase. -/
def unitAmounts (context : PolicyContext Operations) : List Nat :=
  match context.admission with
  | none => [context.releaseAmount]
  | some admission => admission.units.map fun unit => textNat unit.unitFundingUsd.amountMicroUsd

/-- The recorded digest of a cycle, if it is still derived from the given input. -/
def existingCycleDigest (c : OperatorConfiguration) (operations : Operations)
    (existing : CycleEntry) (input : DigestInput) : Except Halt Text := do
  match ← throws (matchingExistingCycleDigest env c operations existing input) with
  | some cycleDigest => return cycleDigest
  | none => .error (.refused .CYCLE_POLICY_DIGEST_CHANGED)

/-- The `purchase` branch at a recorded cycle. -/
def evaluateExistingPurchase (c : OperatorConfiguration) (custodyState : NormalizedCustody)
    (context : PolicyContext Operations) (existing : CycleEntry) (cycleId packId : Text) :
    Except Halt (Option Text) := do
  let expectedDigest ← existingCycleDigest env c context.operations existing
    { context.digestInput cycleId packId with
      releaseCostMicroUsd := existing.releaseCostMicroUsd
      releaseAmountWei := existing.releaseAmountWei }
  match c.spendLedger.find? fun entry => entry.cycleDigest = expectedDigest with
  | none => .error (.refused .SPEND_RESERVATION_MISSING)
  | some reservation => do
    refuseIf (textNat reservation.amountMicroUsd < context.releaseAmount) .SPEND_RESERVATION_MISSING
    refuseIf (withinTrailingWindow [reservation] SpendEntry.reservedAtMs context.now = [])
      .SPEND_RESERVATION_EXPIRED
    refuseIf (effectiveCycleCap c context < context.releaseAmount) .PER_CYCLE_CAP
    evaluateCustodyCaps c custodyState
    return some expectedDigest

/-- The `purchase` branch. -/
def evaluatePurchaseBoundary (c : OperatorConfiguration) (custodyState : NormalizedCustody)
    (context : PolicyContext Operations) : Except Halt (Option Text) :=
  match context.cycleId, context.packId with
  | some cycleId, some packId => do
    refuseIf (custodyState.unattributed = true) .UNATTRIBUTED_CUSTODY
    refuseIf (custodyState.unvaluedExposure = true) .UNVALUED_CUSTODY
    refuseIf (¬ allPacksAllowed c context) .PACK_NOT_ALLOWED
    refuseIf (∃ amount ∈ unitAmounts context, textNat c.maxUnitPriceMicroUsd < amount)
      .UNIT_PRICE_CAP
    match existingCycle c cycleId with
    | none => .error (.refused .CYCLE_POLICY_MISSING)
    | some existing => evaluateExistingPurchase env c custodyState context existing cycleId packId
  | _, _ => .error (.thrown "policy purchase requires cycleId and packId")

/-- `evaluateExistingCycleExecution` at a recorded cycle. -/
def evaluateRecordedExecution (c : OperatorConfiguration) (custodyState : NormalizedCustody)
    (context : PolicyContext Operations) (existing : CycleEntry) (cycleId packId : Text) :
    Except Halt (Option Text) := do
  refuseIf (existing.releaseCostMicroUsd ≠ natText context.releaseAmount ∨
    existing.releaseAmountWei ≠ natText context.releaseAmountWei) .CYCLE_POLICY_MISSING
  let cycleDigest ← existingCycleDigest env c context.operations existing
    (context.digestInput cycleId packId)
  let reservation := c.spendLedger.find? fun entry => entry.cycleDigest = cycleDigest
  refuseIf (reservation.map SpendEntry.amountMicroUsd ≠ some existing.releaseCostMicroUsd)
    .SPEND_RESERVATION_MISSING
  refuseIf (needsApproval c (cycleOrdinal c context.mode cycleDigest) cycleDigest cycleId)
    .MANUAL_APPROVAL_REQUIRED
  evaluateCustodyCaps c custodyState
  return some cycleDigest

/-- `evaluateExistingCycleExecution`. -/
def evaluateExistingCycleExecution (c : OperatorConfiguration) (custodyState : NormalizedCustody)
    (context : PolicyContext Operations) : Except Halt (Option Text) :=
  match context.cycleId, context.packId with
  | some cycleId, some packId => do
    revertIf (context.releaseAmount = 0 ∨ context.releaseAmountWei = 0) (.thrown
      "policy execution guard requires cycleId, packId, and a positive release amount")
    refuseIf (¬ allPacksAllowed c context) .PACK_NOT_ALLOWED
    refuseIf (effectiveCycleCap c context < context.releaseAmount ∨
      textNat c.maxCycleBudgetMicroUsd < context.releaseAmount) .PER_CYCLE_CAP
    match existingCycle c cycleId with
    | none => .error (.refused .CYCLE_POLICY_MISSING)
    | some existing => evaluateRecordedExecution env c custodyState context existing cycleId packId
  | _, _ => .error (.thrown
      "policy execution guard requires cycleId, packId, and a positive release amount")

/-! ## Evaluation -/

/-- What the first checks of an evaluation leave. -/
structure Gated (Operations : Type) where
  context : PolicyContext Operations
  normalized : OperatorConfiguration
  custodyState : NormalizedCustody

/-- The checks at the beginning of `evaluateConfiguredPolicy`. The kill switch and the
pause of execution stop every boundary. -/
def evaluateGates (c : OperatorConfiguration) (custody : CustodyProjection)
    (input : PolicyInput Operations) (now : Int) : Except Halt (Gated Operations) := do
  let context ← throws (admissionContext env input now)
  let normalized ← throws (assertPolicyConfiguration c)
  let custodyState ← throws (normalizeCustody custody)
  refuseIf (context.boundary.isMoney ∧ ¬ hasFreshFundingUsd env input.admission context.now)
    .USD_VALUATION_UNVERIFIED
  refuseIf (context.expiredAdmission = true) .QUOTE_EXPIRED
  refuseIf (normalized.liveMode ≠ context.liveMode) .EXECUTION_MODE_MISMATCH
  refuseIf (normalized.killSwitch = true) .KILL_SWITCH
  refuseIf (normalized.executionPaused = true) .EXECUTION_PAUSED
  refuseIf (context.boundary = .cycleStart ∧ normalized.paused = true) .SCHEDULING_PAUSED
  return ⟨context, normalized, custodyState⟩

/-- The checks of the plan of an admission, and the branch of the boundary. -/
def evaluateBranch (g : Gated Operations) : Except Halt (Option Text) := do
  refuseIf (∃ admission ∈ g.context.admission,
    admission.isPlan ∧ g.normalized.maxBoostersPerCycle < admission.quantity) .QUANTITY_LIMIT
  refuseIf (∃ admission ∈ g.context.admission, admission.isPlan ∧ ¬ g.context.boundary.isExecution ∧
    ∃ order ∈ admission.units,
      textNat g.normalized.maxUnitPriceMicroUsd < textNat order.unitFundingUsd.amountMicroUsd)
    .UNIT_PRICE_CAP
  match g.context.boundary with
  | .cycleStart => evaluateCycleStart g.normalized g.context
  | .claimProcess => evaluateClaimProcess env g.normalized g.custodyState g.context
  | .purchase => evaluatePurchaseBoundary env g.normalized g.custodyState g.context
  | .signature | .broadcast | .mutation => return none

/-- `evaluateConfiguredPolicy` at a boundary that is no execution boundary. -/
def evaluateMoneyBoundary (c : OperatorConfiguration) (custody : CustodyProjection)
    (input : PolicyInput Operations) (now : Int) : Except Halt (Option Text) := do
  let g ← evaluateGates env c custody input now
  evaluateBranch env g

/-- `evaluateAdmittedClaimExecution`. -/
def evaluateAdmittedClaimExecution (c : OperatorConfiguration) (custody : CustodyProjection)
    (input : PolicyInput Operations) (now : Int) : Except Halt (Option Text) := do
  let decision ← evaluateMoneyBoundary env c custody { input with boundary := .claimProcess } now
  let context ← throws (admissionContext env { input with boundary := .claimProcess } now)
  let existing := context.cycleId.bind (existingCycle c)
  refuseIf (existing.map CycleEntry.releaseCostMicroUsd ≠ some (natText context.releaseAmount) ∨
    existing.map CycleEntry.releaseAmountWei ≠ some (natText context.releaseAmountWei))
    .CYCLE_POLICY_MISSING
  return decision

/-- The execution boundaries of `evaluateConfiguredPolicy` in the context of a cycle. -/
def evaluateExecution (g : Gated Operations) (custody : CustodyProjection)
    (input : PolicyInput Operations) (now : Int) : Except Halt (Option Text) := do
  revertIf (g.context.cycleId = none ∨ g.context.packId = none ∨ g.context.releaseAmount = 0)
    (.thrown "policy execution guard requires cycleId, packId, and a positive release amount")
  if input.stage = some (text "claim-process") then
    evaluateAdmittedClaimExecution env g.normalized custody input now
  else if input.stage = some (text "purchase") then
    evaluateMoneyBoundary env g.normalized custody { input with boundary := .purchase } now
  else if g.context.boundary = .mutation ∧ input.stage = some (text "eligibility-snapshot") ∧
      g.context.cycleId.bind (existingCycle g.normalized) = none then
    return none
  else evaluateExistingCycleExecution env g.normalized g.custodyState g.context

/-- `evaluateConfiguredPolicy`. -/
def evaluateConfiguredPolicy (c : OperatorConfiguration) (custody : CustodyProjection)
    (input : PolicyInput Operations) (now : Int) : Except Halt (Option Text) := do
  let g ← evaluateGates env c custody input now
  if g.context.boundary.isExecution = true ∧ (g.context.cycleId ≠ none ∨ g.context.packId ≠ none ∨
      g.context.releaseAmount ≠ 0) then
    evaluateExecution env g custody input now
  else evaluateBranch env g

/-! ## The engine -/

/-- `evaluate`: without a configuration only a call that is not live goes on. -/
def evaluate (configuration : Option OperatorConfiguration) (custody : CustodyProjection)
    (input : PolicyInput Operations) (now : Int) : Except String PolicyDecision :=
  match configuration with
  | none =>
    .ok (if input.liveMode then .refused .CONFIGURATION_MISSING else .allowed none)
  | some c => decisionOf (evaluateConfiguredPolicy env c custody input now)

/-- The entries of a new reservation. -/
def reservationEntries (input : PolicyInput Operations) (cycleDigest : Text) (now : Int)
    (cycleId releaseCostMicroUsd releaseAmountWei : Text) : CycleEntry × SpendEntry :=
  (⟨cycleId, cycleDigest, cycleMode input.liveMode input.mode, now, releaseAmountWei,
      releaseCostMicroUsd⟩,
    ⟨cycleId, cycleDigest, releaseCostMicroUsd, now⟩)

/-- `{ ...configuration, cycleLedger, spendLedger }`. -/
def OperatorConfiguration.reserve (c : OperatorConfiguration) (cycleEntry : CycleEntry)
    (spendEntry : SpendEntry) : OperatorConfiguration :=
  { c with
    cycleLedger := c.cycleLedger ++ [cycleEntry]
    spendLedger := c.spendLedger ++ [spendEntry] }

/-- `{ ...configuration, approvalsByCycleDigest }`. -/
def OperatorConfiguration.approve (c : OperatorConfiguration) (cycleDigest : Text)
    (approval : ManualApproval) : OperatorConfiguration :=
  { c with approvalsByCycleDigest := c.approvalsByCycleDigest.set cycleDigest approval }

/-- `reservationConfiguration`. An entry with a missing field has no encoding. -/
def reservationConfiguration (c : OperatorConfiguration) (input : PolicyInput Operations)
    (cycleDigest : Option Text) (now : Int) : Except String OperatorConfiguration :=
  match input.cycleId.bind (existingCycle c) with
  | some _ => .ok c
  | none =>
    match input.cycleId, cycleDigest, input.releaseCostMicroUsd, input.releaseAmountWei with
    | some cycleId, some cycleDigest, some releaseCostMicroUsd, some releaseAmountWei =>
      let entries := reservationEntries input cycleDigest now cycleId releaseCostMicroUsd
        releaseAmountWei
      assertOperatorConfiguration (c.reserve entries.1 entries.2)
    | _, _, _, _ => .error "canonical value has unsupported type undefined"

/-- The mutation of `admit`: the decision is taken once more, and what it allows is
entered. The clock is read twice. -/
def admitMutation (custody : CustodyProjection) (input : PolicyInput Operations) (now later : Int)
    (c : OperatorConfiguration) : Except String (OperatorConfiguration × PolicyDecision) := do
  let decision ← decisionOf (evaluateConfiguredPolicy env c custody input now)
  match decision with
  | .refused _ => return (c, decision)
  | .allowed cycleDigest => do
    let next ← reservationConfiguration c input cycleDigest later
    return (next, decision)

/-- The mutation of `recordManualApproval`. -/
def recordManualApproval (cycleDigest cycleId : Text) (approvedAtMs : Option Int) (now : Int)
    (c : OperatorConfiguration) : Except String OperatorConfiguration := do
  throwIf (¬ isDigest cycleDigest) "policy approval cycleDigest is invalid"
  assertCycleId cycleId "policy cycleId"
  approvedAtMs.elim (.ok ()) assertPolicyClock
  match c.approvalsByCycleDigest.find cycleDigest with
  | some existing => do
    throwIf (existing.cycleId ≠ cycleId ∨ ∃ t ∈ approvedAtMs, existing.approvedAtMs ≠ t)
      "policy approval conflicts with the existing cycle digest approval"
    return c
  | none => do
    approvedAtMs.elim (assertPolicyClock now) (fun _ => .ok ())
    assertOperatorConfiguration (c.approve cycleDigest ⟨cycleId, approvedAtMs.getD now⟩)

/-! ## What a decision went through -/

variable {env}

theorem throws_eq_ok {α : Type} {x : Except String α} {a : α} : throws x = .ok a ↔ x = .ok a := by
  cases x with
  | ok b => simp [throws]
  | error message => simp [throws]

theorem assertPolicyConfiguration_ok {c normalized : OperatorConfiguration}
    (h : assertPolicyConfiguration c = .ok normalized) :
    normalized = c.withClaimLimit ∧ AcceptedConfiguration c.withClaimLimit := by
  simp only [assertPolicyConfiguration, assertOperatorHardCaps, bind_eq_ok, revertIf_eq_ok,
    pure_eq_ok] at h
  rcases h with ⟨accepted, haccepted, _, -, _, -, _, -, _, -, _, -, _, -, rfl⟩
  exact assertOperatorConfiguration_eq_ok.mp haccepted

/-- What the context keeps of the argument of a call. -/
structure ContextOf (input : PolicyInput Operations) (now : Int)
    (context : PolicyContext Operations) : Prop where
  boundary : context.boundary = input.boundary
  mode : context.mode = cycleMode input.liveMode input.mode
  now : context.now = now
  cost : optionalAmount input.releaseCostMicroUsd "policy releaseCostMicroUsd" =
    .ok context.releaseAmount
  cycleId : ∀ cycleId, input.cycleId = some cycleId → context.cycleId = some cycleId

theorem admissionContext_ok {input : PolicyInput Operations} {now : Int}
    {context : PolicyContext Operations} (h : admissionContext env input now = .ok context) :
    ContextOf input now context := by
  simp only [admissionContext, bind_eq_ok, revertIf_eq_ok, pure_eq_ok] at h
  rcases h with ⟨_, -, _, -, _, -, _, hcost, _, -, _, -, _, -, _, -, _, -, _, -, _, -, rfl⟩
  constructor
  · rfl
  · rfl
  · rfl
  · exact hcost
  · intro cycleId hcycle
    show input.cycleId.or _ = some cycleId
    rw [hcycle]
    rfl

theorem evaluateGates_ok {c : OperatorConfiguration} {custody : CustodyProjection}
    {input : PolicyInput Operations} {now : Int} {g : Gated Operations}
    (h : evaluateGates env c custody input now = .ok g) :
    ContextOf input now g.context ∧ g.normalized = c.withClaimLimit ∧
      AcceptedConfiguration c.withClaimLimit ∧ normalizeCustody custody = .ok g.custodyState := by
  simp only [evaluateGates, bind_eq_ok, throws_eq_ok, revertIf_eq_ok, pure_eq_ok] at h
  rcases h with ⟨context, hcontext, normalized, hnormalized, custodyState, hcustody, _, -, _, -,
    _, -, _, -, _, -, _, -, rfl⟩
  rcases assertPolicyConfiguration_ok hnormalized with ⟨hsame, haccepted⟩
  exact ⟨admissionContext_ok hcontext, hsame, haccepted, hcustody⟩

/-- An allowed claim passed the gates and the checks of its branch. -/
structure AllowedClaim (env : PolicyEnvironment Operations) (c : OperatorConfiguration)
    (custody : CustodyProjection) (input : PolicyInput Operations) (now : Int)
    (cycleDigest : Option Text) (g : Gated Operations) (cycleId packId digest : Text) : Prop where
  gates : evaluateGates env c custody input now = .ok g
  cycle : g.context.cycleId = some cycleId
  pack : g.context.packId = some packId
  allowed : cycleDigest = some digest
  limits : evaluateClaimLimits g.normalized g.custodyState g.context cycleId = .ok ()
  derived : claimCycleDigest env g.normalized g.context cycleId packId = .ok digest
  spend : evaluateClaimSpend g.normalized g.custodyState g.context cycleId digest = .ok ()

theorem evaluateConfiguredPolicy_claim {c : OperatorConfiguration} {custody : CustodyProjection}
    {input : PolicyInput Operations} {now : Int} {cycleDigest : Option Text}
    (hboundary : input.boundary = .claimProcess)
    (h : evaluateConfiguredPolicy env c custody input now = .ok cycleDigest) :
    ∃ g cycleId packId digest,
      AllowedClaim env c custody input now cycleDigest g cycleId packId digest := by
  rw [evaluateConfiguredPolicy, bind_eq_ok] at h
  rcases h with ⟨g, hgates, hbranch⟩
  have hclaim : g.context.boundary = .claimProcess := by
    rw [(evaluateGates_ok hgates).1.boundary, hboundary]
  rw [if_neg (by rw [hclaim]; simp [Boundary.isExecution])] at hbranch
  simp only [evaluateBranch, bind_eq_ok, revertIf_eq_ok, hclaim] at hbranch
  rcases hbranch with ⟨_, -, _, -, hprocess⟩
  unfold evaluateClaimProcess at hprocess
  cases hcycle : g.context.cycleId with
  | none =>
    rw [hcycle] at hprocess
    cases hprocess
  | some cycleId =>
    cases hpack : g.context.packId with
    | none =>
      rw [hcycle, hpack] at hprocess
      cases hprocess
    | some packId =>
      simp only [hcycle, hpack, bind_eq_ok, pure_eq_ok] at hprocess
      rcases hprocess with ⟨_, hlimits, digest, hderived, _, hspend, hallowed⟩
      exact ⟨g, cycleId, packId, digest, hgates, hcycle, hpack, hallowed.symm, hlimits, hderived,
        hspend⟩

/-- A claim of a new cycle leaves room for it among the cycles of its mode. -/
theorem newClaim_cycles {c : OperatorConfiguration} {custodyState : NormalizedCustody}
    {context : PolicyContext Operations} {cycleId : Text}
    (h : evaluateClaimLimits c custodyState context cycleId = .ok ())
    (hnew : existingCycle c cycleId = none) :
    ((withinTrailingWindow (modeCycles c context.mode) CycleEntry.openedAtMs context.now).length : Int)
      < c.maxCyclesPerDay := by
  simp only [evaluateClaimLimits, bind_eq_ok, revertIf_eq_ok] at h
  rcases h with ⟨_, -, _, -, _, -, _, -, _, -, _, -, _, -, _, -, hcycles⟩
  by_contra hfull
  exact hcycles ⟨hnew, not_lt.mp hfull⟩

/-- A claim whose digest is not reserved yet fits into the budget of the day. -/
theorem newClaim_spend {c : OperatorConfiguration} {custodyState : NormalizedCustody}
    {context : PolicyContext Operations} {cycleId cycleDigest : Text}
    (h : evaluateClaimSpend c custodyState context cycleId cycleDigest = .ok ())
    (hfresh : cycleDigest ∉ c.spendLedger.map SpendEntry.cycleDigest) :
    spendInWindow c.spendLedger context.now + context.releaseAmount
      ≤ textNat c.max24HourBudgetMicroUsd := by
  have hnone : c.spendLedger.find? (fun entry => decide (entry.cycleDigest = cycleDigest)) = none := by
    rw [List.find?_eq_none]
    intro entry hentry hsame
    exact hfresh (List.mem_map.mpr ⟨entry, hentry, by simpa using hsame⟩)
  simp only [evaluateClaimSpend, bind_eq_ok, revertIf_eq_ok, hnone, if_true] at h
  rcases h with ⟨_, -, _, -, _, -, _, -, _, -, _, hbudget, -⟩
  exact not_lt.mp hbudget

/-- What a reservation appends, or nothing for a cycle that has an entry. -/
theorem reservationConfiguration_ok {c next : OperatorConfiguration}
    {input : PolicyInput Operations} {cycleDigest : Option Text} {now : Int}
    (h : reservationConfiguration c input cycleDigest now = .ok next) :
    (next = c ∧ ∃ cycleId, input.cycleId = some cycleId ∧ existingCycle c cycleId ≠ none) ∨
      ∃ cycleId digest cost wei, input.cycleId = some cycleId ∧ cycleDigest = some digest ∧
        input.releaseCostMicroUsd = some cost ∧ input.releaseAmountWei = some wei ∧
        existingCycle c cycleId = none ∧ assertOperatorConfiguration (c.reserve
          (reservationEntries input digest now cycleId cost wei).1
          (reservationEntries input digest now cycleId cost wei).2) = .ok next := by
  unfold reservationConfiguration at h
  cases hcycle : input.cycleId with
  | none =>
    simp only [hcycle, Option.bind_none] at h
    exact nomatch h
  | some cycleId =>
    simp only [hcycle, Option.bind_some] at h
    cases hexisting : existingCycle c cycleId with
    | some existing =>
      simp only [hexisting, Except.ok.injEq] at h
      exact .inl ⟨h.symm, cycleId, rfl, by simp [hexisting]⟩
    | none =>
      simp only [hexisting] at h
      cases hdigest : cycleDigest with
      | none =>
        rw [hdigest] at h
        exact nomatch h
      | some digest =>
        cases hcost : input.releaseCostMicroUsd with
        | none =>
          rw [hdigest, hcost] at h
          exact nomatch h
        | some cost =>
          cases hwei : input.releaseAmountWei with
          | none =>
            rw [hdigest, hcost, hwei] at h
            exact nomatch h
          | some wei =>
            rw [hdigest, hcost, hwei] at h
            exact .inr ⟨cycleId, digest, cost, wei, rfl, rfl, rfl, rfl, hexisting, h⟩

end

end Hookemon.Runner
