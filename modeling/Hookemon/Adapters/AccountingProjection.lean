import Hookemon.Core.Totals
import Hookemon.Js.BigInt
import Hookemon.Runner.PolicyEngine

/-! # The custody of all cycles (`app/accounting-projection.mjs`)

`projectPolicyCustody` goes over the cycles of a repository and sums up what was lost, what
is at risk and what is outstanding. Only native ether is priced, by a valuation of the
moment; cards still held count at their purchase cost, and any other balance is only
reported as unvalued.

Every call of the valuation function is answered on its own: the function of the environment
is told the cycle and the key of the ledger beside the amount. An answer carries what the
clock says at its two readings after the call.
-/

namespace Hookemon.Adapters

open Hookemon.Core Hookemon.Js Hookemon.Runner

/-! ## Ledgers and cycles -/

inductive CustodyBucket where
  | claimed
  | bridgeOut
  | bridgeIn
  | packCost
  | buybackProceeds
  | returnInput
  | returnReceived
  | refunds
  | residual
  | heldAssets
  | heldPositions
  | payoutLiability
  | dust
  | unattributed
deriving DecidableEq, Repr

def CustodyBucket.name : CustodyBucket → String
  | claimed => "claimed"
  | bridgeOut => "bridgeOut"
  | bridgeIn => "bridgeIn"
  | packCost => "packCost"
  | buybackProceeds => "buybackProceeds"
  | returnInput => "returnInput"
  | returnReceived => "returnReceived"
  | refunds => "refunds"
  | residual => "residual"
  | heldAssets => "heldAssets"
  | heldPositions => "heldPositions"
  | payoutLiability => "payoutLiability"
  | dust => "dust"
  | unattributed => "unattributed"

def POLICY_CUSTODY_BUCKETS : List CustodyBucket := [.residual, .payoutLiability, .dust, .refunds]

def POLICY_CUSTODY_CURRENT_BUCKETS : List CustodyBucket :=
  [.refunds, .residual, .heldAssets, .payoutLiability, .dust, .unattributed]

def POLICY_CUSTODY_ALL_BUCKETS : List CustodyBucket :=
  [.claimed, .bridgeOut, .bridgeIn, .packCost, .buybackProceeds, .returnInput, .returnReceived,
    .refunds, .residual, .heldAssets, .heldPositions, .payoutLiability, .dust, .unattributed]

structure AssetIdentity where
  chainId : Text
  assetId : Text
  decimals : Int
deriving DecidableEq, Repr

def AssetIdentity.amount (asset : AssetIdentity) (amountAtomic : Nat) : TypedAmount :=
  ⟨asset.chainId, asset.assetId, asset.decimals, natText amountAtomic⟩

structure CustodyLedger where
  schema : Text
  cycleId : Text
  chainId : Text
  assetId : Text
  decimals : Int
  bucket : CustodyBucket → Text
  verifiedCurrentBalance : Value

/-- A position as the journal has it. -/
structure HeldPositionRecord where
  positionId : Text
  cycleId : Text
  costMicroUsd : Text
  insuredValue : Value
  reason : Text
  terminalState : Text
  evidenceDigest : Text
  openedAtMs : Int
  positionRevision : Int
  ownerDecision : Value
  resolution : Value

structure AdmissionRecord where
  schema : Text
  aggregateFundingUsd : Option FundingUsd

structure ReturnAttribution where
  schema : Text
  destinationUsd : Option FundingUsd

structure RelayLeg where
  direction : Text
  state : Text
  relayRequestId : Text
  netDeltaAtomic : Text
  returnAttribution : Option ReturnAttribution
  /-- `finalizedAtDestination.timestampUnixSeconds`, a decimal text, as a number. -/
  finalizedAtUnixSeconds : Option Nat

/-- What `describeCycle` answers. The maps are lists of their entries. -/
structure CycleDescription where
  terminalState : Option Text
  releaseAmount : Text
  admission : Option AdmissionRecord
  custodyLedgers : List (Text × CustodyLedger)
  heldPositions : List (Text × HeldPositionRecord)
  relayLegs : List RelayLeg
  supplementaryRealizedProceedsUsd : List FundingUsd

structure CycleRepository where
  listKnownCycleIds : List Text
  describeCycle : Text → CycleDescription

/-! ## Checks -/

def parsePolicyAtomic (value : Text) (label : String) : Except String Nat := do
  throwIf (¬ isDecimal value)
    ("projectPolicyCustody " ++ label ++ " must be a canonical unsigned decimal string")
  return textNat value

def assertPolicyAssetIdentity (asset : AssetIdentity) : Except String Unit :=
  throwIf (asset.chainId ≠ text "4663" ∨ asset.assetId ≠ text "native" ∨ asset.decimals ≠ 18)
    "projectPolicyCustody nativeAsset asset identity is invalid"

def assertPolicyLedger (ledger : CustodyLedger) (cycleId : Text) : Except String Unit := do
  throwIf (ledger.cycleId ≠ cycleId ∨ ledger.decimals < 0 ∨ 255 < ledger.decimals)
    "projectPolicyCustody custody ledger identity is invalid"
  POLICY_CUSTODY_ALL_BUCKETS.forM fun bucket => do
    let _ ← parsePolicyAtomic (ledger.bucket bucket) ("custody ledger " ++ bucket.name)

namespace CustodyLedger

variable (ledger : CustodyLedger)

/-- The amount in a bucket that has been parsed before. -/
def atomic (bucket : CustodyBucket) : Nat := textNat (ledger.bucket bucket)

/-- `ledgerMatchesAsset`. -/
def matchesAsset (asset : AssetIdentity) : Bool :=
  ledger.chainId = asset.chainId ∧ ledger.assetId = asset.assetId ∧ ledger.decimals = asset.decimals

/-- `ledgerHasCurrentCustody`. -/
def hasCurrentCustody : Bool :=
  POLICY_CUSTODY_CURRENT_BUCKETS.any fun bucket => 0 < ledger.atomic bucket

/-- `unresolvedClaim`: what was claimed and has not come back. -/
def unresolvedClaim : Nat := ledger.atomic .claimed - ledger.atomic .returnReceived

/-- `principalOutstanding`. -/
def principalOutstanding : Nat :=
  POLICY_CUSTODY_BUCKETS.foldl (fun total bucket => total + ledger.atomic bucket)
    ledger.unresolvedClaim

/-- A ledger of the third schema with a balance that was never observed. -/
def isUnobserved : Bool :=
  ledger.schema = text "hookemon.custody-ledger.v3" ∧ ledger.verifiedCurrentBalance = .null ∧
    (0 < ledger.unresolvedClaim ∨ ledger.hasCurrentCustody)

end CustodyLedger

/-- `null`, or an object. -/
def isOptionalObject : Value → Bool
  | .null | .object _ => true
  | _ => false

def optionalObject (value : Value) : Option Value := if value = .null then none else some value

/-- An open position as it is projected. -/
def HeldPositionRecord.held (position : HeldPositionRecord) (positionId cycleId : Text)
    (valueMicroUsd : Nat) : HeldPosition where
  positionId := positionId
  cycleId := cycleId
  costMicroUsd := position.costMicroUsd
  valueMicroUsd := natText valueMicroUsd
  insuredValue := optionalObject position.insuredValue
  reason := position.reason
  terminalState := position.terminalState
  evidenceDigest := position.evidenceDigest
  openedAtMs := position.openedAtMs
  positionRevision := position.positionRevision
  ownerDecision := optionalObject position.ownerDecision

/-- One turn of the loop of `openHeldPositions`: a resolved position is checked and left out. -/
def openHeldPosition (cycleId : Text) (entry : Text × HeldPositionRecord) :
    Except String (Option HeldPosition) := do
  let position := entry.2
  throwIf (position.positionId ≠ entry.1 ∨ position.cycleId ≠ cycleId)
    "projectPolicyCustody held position identity is invalid"
  let _ ← parsePolicyAtomic position.costMicroUsd "held position costMicroUsd"
  let valueMicroUsd ← parsePolicyAtomic position.costMicroUsd "held position purchase cost"
  throwIf (position.reason = [] ∨ position.terminalState = [] ∨
      ¬ isDigest position.evidenceDigest ∨
      ¬ isSafeInteger position.openedAtMs ∨ position.openedAtMs < 0 ∨
      ¬ isSafeInteger position.positionRevision ∨ position.positionRevision < 0)
    "projectPolicyCustody held position evidence is invalid"
  throwIf (¬ isOptionalObject position.insuredValue)
    "projectPolicyCustody held position insuredValue is invalid"
  throwIf (¬ isOptionalObject position.ownerDecision)
    "projectPolicyCustody held position ownerDecision is invalid"
  return if position.resolution = .null then some (position.held entry.1 cycleId valueMicroUsd)
    else none

/-! ## Valuations -/

/-- What a call of `valueAmountUsd` returns, whether the process has issued it
(`usdValuations.has`), and the clock at the two readings that follow. -/
structure ValuationAnswer where
  valuation : FundingUsd
  issued : Bool
  checkedAtMs : Int
  recheckedAtMs : Int

structure ProjectionEnvironment where
  sha256 : Bytes → Bytes
  localeCompare : Text → Text → Int
  nativeAsset : AssetIdentity
  /-- `valueAmountUsd(amount, { rounding: 'up' })`, for a ledger of a cycle; a call that
  throws, or that returns nothing, has no answer. -/
  valueAmountUsd : Option (Text → Text → TypedAmount → Option ValuationAnswer)

def amountValue (amount : TypedAmount) : Value :=
  .object [(text "chainId", .string amount.chainId), (text "assetId", .string amount.assetId),
    (text "decimals", integerValue amount.decimals),
    (text "amountAtomic", .string amount.amountAtomic)]

/-- `digest(v) === digest(w)`; a value without a digest is equal to none. -/
def sameDigest (sha256 : Bytes → Bytes) (v w : Value) : Bool :=
  match digest sha256 v, digest sha256 w with
  | .ok d, .ok e => d = e
  | _, _ => false

section

variable (env : ProjectionEnvironment)

/-- `isProcessQuoteUsdValuation`, against an amount rounded up that is paid in. -/
def isProcessQuoteUsdValuation (answer : ValuationAnswer) (amount : TypedAmount) : Bool :=
  answer.issued &&
    sameDigest env.sha256 (amountValue answer.valuation.amount) (amountValue amount) &&
    sameDigest env.sha256 (.string answer.valuation.rounding) (.string (text "up")) &&
    sameDigest env.sha256 (.string answer.valuation.sourcePath)
      (.string (text "details.currencyIn.amountUsd"))

/-- The answer is an authenticated valuation of the amount that is in force. -/
def ValuationAnswer.isFresh (answer : ValuationAnswer) (amount : TypedAmount) : Bool :=
  isProcessQuoteUsdValuation env answer amount &&
    decide (answer.valuation.observedAtMs ≤ answer.checkedAtMs ∧
      answer.recheckedAtMs < answer.valuation.validUntilMs)

/-- `valueWei`. No value is `null`, which goes with `unvaluedExposure = true`. -/
def valueWei (cycleId key : Text) (amountAtomic : Nat) : Option Nat :=
  if amountAtomic = 0 then some 0
  else do
    let valueAmountUsd ← env.valueAmountUsd
    let amount := env.nativeAsset.amount amountAtomic
    let answer ← valueAmountUsd cycleId key amount
    if answer.isFresh env amount then
      (parsePolicyAtomic answer.valuation.amountMicroUsd "authenticated USD valuation").toOption
    else none

/-! ## The figures of a ledger -/

/-- What the loops sum up, in micro dollars, and what they note. -/
@[ext] structure CustodyFigures where
  realizedLoss : Nat := 0
  atRisk : Nat := 0
  outstanding : Nat := 0
  heldAssets : Bool := false
  unattributed : Bool := false
  unvaluedExposure : Bool := false
deriving DecidableEq, Repr

instance : Zero CustodyFigures := ⟨{}⟩

/-- Amounts are added, notes are kept. -/
instance : Add CustodyFigures where
  add a b := {
    realizedLoss := a.realizedLoss + b.realizedLoss
    atRisk := a.atRisk + b.atRisk
    outstanding := a.outstanding + b.outstanding
    heldAssets := a.heldAssets || b.heldAssets
    unattributed := a.unattributed || b.unattributed
    unvaluedExposure := a.unvaluedExposure || b.unvaluedExposure }

namespace CustodyFigures

@[simp] theorem zero_atRisk : (0 : CustodyFigures).atRisk = 0 := rfl
@[simp] theorem zero_outstanding : (0 : CustodyFigures).outstanding = 0 := rfl
@[simp] theorem zero_unvaluedExposure : (0 : CustodyFigures).unvaluedExposure = false := rfl
@[simp] theorem add_realizedLoss (a b : CustodyFigures) :
    (a + b).realizedLoss = a.realizedLoss + b.realizedLoss := rfl
@[simp] theorem add_atRisk (a b : CustodyFigures) : (a + b).atRisk = a.atRisk + b.atRisk := rfl
@[simp] theorem add_outstanding (a b : CustodyFigures) :
    (a + b).outstanding = a.outstanding + b.outstanding := rfl
@[simp] theorem add_heldAssets (a b : CustodyFigures) :
    (a + b).heldAssets = (a.heldAssets || b.heldAssets) := rfl
@[simp] theorem add_unattributed (a b : CustodyFigures) :
    (a + b).unattributed = (a.unattributed || b.unattributed) := rfl
@[simp] theorem add_unvaluedExposure (a b : CustodyFigures) :
    (a + b).unvaluedExposure = (a.unvaluedExposure || b.unvaluedExposure) := rfl

instance : AddCommMonoid CustodyFigures where
  nsmul := nsmulRec
  add_assoc a b c := by
    ext1 <;> simp [Nat.add_assoc, Bool.or_assoc]
  zero_add a := by
    ext1
    · exact Nat.zero_add a.realizedLoss
    · exact Nat.zero_add a.atRisk
    · exact Nat.zero_add a.outstanding
    · exact Bool.false_or a.heldAssets
    · exact Bool.false_or a.unattributed
    · exact Bool.false_or a.unvaluedExposure
  add_zero a := by
    ext1
    · exact Nat.add_zero a.realizedLoss
    · exact Nat.add_zero a.atRisk
    · exact Nat.add_zero a.outstanding
    · exact Bool.or_false a.heldAssets
    · exact Bool.or_false a.unattributed
    · exact Bool.or_false a.unvaluedExposure
  add_comm a b := by
    ext1 <;> simp [Nat.add_comm, Bool.or_comm]

/-- The amount that is lost, at risk and outstanding, and one note, as parts of a total. -/
def realizedLossPart : CustodyFigures →+ Nat := ⟨⟨realizedLoss, rfl⟩, fun _ _ => rfl⟩
def atRiskPart : CustodyFigures →+ Nat := ⟨⟨atRisk, rfl⟩, fun _ _ => rfl⟩
def outstandingPart : CustodyFigures →+ Nat := ⟨⟨outstanding, rfl⟩, fun _ _ => rfl⟩

/-- The notes of a ledger whatever it is. -/
def ofLedger (ledger : CustodyLedger) : CustodyFigures where
  heldAssets := 0 < ledger.atomic .heldAssets
  unattributed := 0 < ledger.atomic .unattributed

end CustodyFigures

/-! ### Completed cycles -/

/-- What the loops over the returns of a completed cycle sum up. -/
structure RealizedProceeds where
  proceedsWei : Int
  proceedsUsd : Nat
  valued : Bool
deriving DecidableEq, Repr

/-- The frozen value of what a settled return brought, if it is bound to that return and
was in force when it settled. -/
def RelayLeg.frozenUsd (leg : RelayLeg) (asset : AssetIdentity) : Option FundingUsd := do
  let attribution ← leg.returnAttribution
  let usd ← attribution.destinationUsd
  let settledAt ← leg.finalizedAtUnixSeconds
  let settledAtMs : Int := settledAt * 1000
  if attribution.schema = text "hookemon.return-leg-attribution-context.v2" ∧
      usd.rounding = text "down" ∧ usd.sourcePath = text "details.currencyOut.amountUsd" ∧
      usd.amount.chainId = asset.chainId ∧ usd.amount.assetId = asset.assetId ∧
      usd.amount.decimals = asset.decimals ∧ usd.amount.amountAtomic = leg.netDeltaAtomic ∧
      usd.quoteRequestId = leg.relayRequestId ∧ isSafeInteger settledAtMs ∧
      usd.observedAtMs ≤ settledAtMs ∧ settledAtMs < usd.validUntilMs then some usd
  else none

/-- One turn of the loop over the relay legs. -/
def addReturn (asset : AssetIdentity) (proceeds : RealizedProceeds) (leg : RelayLeg) :
    Except String RealizedProceeds :=
  if leg.direction ≠ text "return" ∨ leg.state ≠ text "SETTLED" then .ok proceeds
  else
    match leg.frozenUsd asset with
    | none => .ok { proceeds with valued := false }
    | some usd => do
      let wei ← toBigInt (.string leg.netDeltaAtomic)
      let micro ← parsePolicyAtomic usd.amountMicroUsd "frozen realized USD proceeds"
      return ⟨proceeds.proceedsWei + wei, proceeds.proceedsUsd + micro, proceeds.valued⟩

/-- One turn of the loop over the supplementary proceeds. -/
def addSupplementary (proceeds : RealizedProceeds) (usd : FundingUsd) :
    Except String RealizedProceeds := do
  let wei ← parsePolicyAtomic usd.amount.amountAtomic "frozen supplementary native proceeds"
  let micro ← parsePolicyAtomic usd.amountMicroUsd "frozen supplementary USD proceeds"
  return ⟨proceeds.proceedsWei + wei, proceeds.proceedsUsd + micro, proceeds.valued⟩

/-- The committed cost of a cycle, if the admission froze one for the released amount. -/
def CycleDescription.committedCost (description : CycleDescription) : Option FundingUsd := do
  let admission ← description.admission
  let cost ← admission.aggregateFundingUsd
  if (admission.schema = text "hookemon.policy-admission.v3" ∨
      admission.schema = text "hookemon.policy-admission.v4") ∧
      cost.amount.amountAtomic = description.releaseAmount ∧ cost.rounding = text "up" then
    some cost
  else none

/-- The loss of a completed cycle, or none where it cannot be valued. -/
def realizedLossOf (asset : AssetIdentity) (description : CycleDescription)
    (ledger : CustodyLedger) : Except String (Option Nat) := do
  let returns ← description.relayLegs.foldlM (addReturn asset)
    ⟨0, 0, description.committedCost.isSome⟩
  let proceeds ← description.supplementaryRealizedProceedsUsd.foldlM addSupplementary returns
  match description.committedCost with
  | some cost =>
    if proceeds.valued = true ∧ proceeds.proceedsWei = ledger.atomic .returnReceived then do
      let committedCost ←
        if ledger.atomic .claimed = 0 then .ok 0
        else parsePolicyAtomic cost.amountMicroUsd "frozen committed USD cost"
      return some (committedCost - proceeds.proceedsUsd)
    else return none
  | none => return none

/-! ### A ledger -/

/-- A ledger of the native asset, of a completed cycle: only liquid custody has a price. -/
def completedFigures (cycleId key : Text) (ledger : CustodyLedger) (loss : Option Nat) :
    CustodyFigures :=
  let liquidUsd := valueWei env cycleId key (ledger.principalOutstanding - ledger.unresolvedClaim)
  { CustodyFigures.ofLedger ledger with
    realizedLoss := loss.getD 0
    outstanding := liquidUsd.getD 0
    unvaluedExposure := ledger.isUnobserved || loss.isNone || liquidUsd.isNone }

/-- A ledger of the native asset, of a cycle that goes on. -/
def liveFigures (cycleId key : Text) (ledger : CustodyLedger) : CustodyFigures :=
  let unresolvedUsd := valueWei env cycleId key ledger.unresolvedClaim
  let outstandingUsd :=
    if ledger.principalOutstanding = ledger.unresolvedClaim then unresolvedUsd
    else valueWei env cycleId key ledger.principalOutstanding
  { CustodyFigures.ofLedger ledger with
    atRisk := unresolvedUsd.getD 0
    outstanding := outstandingUsd.getD 0
    unvaluedExposure := ledger.isUnobserved || unresolvedUsd.isNone || outstandingUsd.isNone }

/-- A ledger of another asset has no price. -/
def foreignFigures (ledger : CustodyLedger) : CustodyFigures :=
  { CustodyFigures.ofLedger ledger with unvaluedExposure := ledger.hasCurrentCustody }

def CycleDescription.isCompleted (description : CycleDescription) : Bool :=
  description.terminalState = some (text "COMPLETED")

/-- What one turn of the loop over the ledgers of a cycle adds. -/
def ledgerFigures (description : CycleDescription) (cycleId : Text)
    (entry : Text × CustodyLedger) : Except String CustodyFigures := do
  let ledger := entry.2
  assertPolicyLedger ledger cycleId
  if ¬ ledger.matchesAsset env.nativeAsset then
    return foreignFigures ledger
  else if description.isCompleted then do
    let loss ← realizedLossOf env.nativeAsset description ledger
    return completedFigures env cycleId entry.1 ledger loss
  else
    return liveFigures env cycleId entry.1 ledger

/-! ## The projection -/

/-- The order of `left.positionId.localeCompare(right.positionId)`. -/
def positionLe (left right : HeldPosition) : Bool :=
  env.localeCompare left.positionId right.positionId ≤ 0

/-- The same, within the order of the cycles. -/
def cyclePositionLe (left right : HeldPosition) : Bool :=
  let order := env.localeCompare left.cycleId right.cycleId
  if order ≠ 0 then order < 0 else positionLe env left right

def openHeldPositions (description : CycleDescription) (cycleId : Text) :
    Except String (List HeldPosition) := do
  let positions ← description.heldPositions.mapM (openHeldPosition cycleId)
  return positions.reduceOption.mergeSort (positionLe env)

/-- The summary of one cycle. -/
structure PolicyCycle where
  cycleId : Text
  realizedLossMicroUsd : Text
  atRiskMicroUsd : Text
  outstandingMicroUsd : Text
deriving DecidableEq, Repr

/-- `freezePolicyCycle`. -/
def freezePolicyCycle (cycleId : Text) (figures : CustodyFigures) : PolicyCycle where
  cycleId := cycleId
  realizedLossMicroUsd := natText figures.realizedLoss
  atRiskMicroUsd := natText figures.atRisk
  outstandingMicroUsd := natText figures.outstanding

/-- The state of the loop over the cycles. -/
structure Projection where
  figures : CustodyFigures := 0
  heldPositionValue : Nat := 0
  heldPositions : List HeldPosition := []
  cycles : List PolicyCycle := []
  cycleExposureMicroUsd : Record Text := .empty

/-- The sum of the values of some positions. -/
def heldValue (positions : List HeldPosition) : Nat :=
  (positions.map fun position => textNat position.valueMicroUsd).sum

/-- What one cycle adds. -/
def Projection.add (p : Projection) (cycleId : Text) (positions : List HeldPosition)
    (figures : CustodyFigures) : Projection where
  figures := p.figures + figures
  heldPositionValue := p.heldPositionValue + heldValue positions
  heldPositions := p.heldPositions ++ positions
  cycles := p.cycles ++ [freezePolicyCycle cycleId figures]
  cycleExposureMicroUsd := p.cycleExposureMicroUsd.set cycleId (natText figures.atRisk)

/-- One turn of the loop over the cycles. -/
def projectCycle (repository : CycleRepository) (p : Projection) (cycleId : Text) :
    Except String Projection := do
  let description := repository.describeCycle cycleId
  let positions ← openHeldPositions env description cycleId
  let figures ← addAll (ledgerFigures env description cycleId) description.custodyLedgers
  return p.add cycleId positions figures

/-- What the engine reads, and the summaries of the cycles. -/
structure PolicyCustody extends CustodyProjection where
  cycles : List PolicyCycle

def Projection.custody (p : Projection) : PolicyCustody where
  realizedLossMicroUsd := natText p.figures.realizedLoss
  atRiskMicroUsd := natText p.figures.atRisk
  outstandingMicroUsd := natText p.figures.outstanding
  heldAssets := p.figures.heldAssets
  heldPositions := {
    count := p.heldPositions.length
    valueMicroUsd := natText p.heldPositionValue
    positions := p.heldPositions.mergeSort (cyclePositionLe env) }
  unattributed := p.figures.unattributed
  unvaluedExposure := p.figures.unvaluedExposure
  cycleExposureMicroUsd := some p.cycleExposureMicroUsd
  cycles := p.cycles

def projectPolicyCustody (repository : CycleRepository) : Except String PolicyCustody := do
  assertPolicyAssetIdentity env.nativeAsset
  let cycleIds := repository.listKnownCycleIds
  throwIf (∃ cycleId ∈ cycleIds, cycleId = [])
    "projectPolicyCustody cycle repository returned invalid cycle ids"
  let p ← (cycleIds.insertionSort (· ≤ ·)).foldlM (projectCycle env repository) {}
  return p.custody env

end

end Hookemon.Adapters
