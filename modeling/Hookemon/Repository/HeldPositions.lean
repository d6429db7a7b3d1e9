import Hookemon.Repository.PackOrders
import Hookemon.Runner.ProRataDistribution

/-! # Held positions (`app/cycle-repository.mjs`)

A card that a cycle cannot sell is carved out of the cycle as a held position. Later its mint may
be verified, the owner may decide what is to be done with it, and it is resolved. Each of these
records binds the position by digests of what was observed.

Evidence is only cloned, compared by its canonical JSON and digested, so it is kept here as its
canonical JSON.
-/

namespace Hookemon.Repository.Held

open Hookemon.Core Hookemon.Js Hookemon.Runner

/-! ## Patterns -/

/-- `^held:[0-9a-f]{64}$`. -/
def isHeldPositionId (s : Text) : Bool := hasShape (text "held:") isLowerHexDigit 64 s

/-- `^[A-Za-z0-9][A-Za-z0-9._:-]{0,127}$`. -/
def isRequestId (s : Text) : Bool :=
  match s with
  | [] => false
  | c :: cs =>
    isAlphanumeric c && cs.length ≤ 127 &&
      cs.all fun c => isAlphanumeric c || c = 46 || c = 95 || c = 58 || c = 45

/-- `^[A-Z][A-Z0-9_]{2,63}$`. -/
def isQuarantineReason (s : Text) : Bool :=
  match s with
  | [] => false
  | c :: cs =>
    (65 ≤ c.toNat && c.toNat ≤ 90) && 2 ≤ cs.length && cs.length ≤ 63 &&
      cs.all fun c => (65 ≤ c.toNat && c.toNat ≤ 90) || isDigit c || c = 95

def isSafeNatural (n : Int) : Bool := 0 ≤ n && n ≤ maxSafeInteger

/-- `currentRepositoryTime`. -/
def currentRepositoryTime (now : Int) : Except String Int := do
  throwIf (¬ isSafeNatural now) "cycle-repository clock returned an invalid lease time"
  return now

def assertHeldPositionText (value : Text) (label : String) : Except String Unit :=
  throwIf (value = [] ∨ 512 < value.length) (label ++ " is invalid")

def assertHeldPositionAtomic (value : Text) (label : String) : Except String Unit :=
  throwIf (¬ isDecimal value) (label ++ " is invalid")

/-! ## Records -/

inductive HeldTerminalState where
  | heldDataUnverified | heldOwnerDecision | heldUnavailable | heldUnresolved
deriving DecidableEq, Repr

inductive HeldChoice where
  | sell | keepHolding
deriving DecidableEq, Repr

inductive HeldResolutionState where
  | sold | refunded | neverSent
deriving DecidableEq, Repr

/-- The card of a position, what it cost and why it is held. -/
structure HeldCard where
  cycleId : Text
  packId : Text
  memo : Text
  mint : Option Text
  cardRef : Text
  costMicroUsd : Text
  valueMicroUsd : Text
  insuredValue : Option TypedAmount
  reason : Text
  terminalState : HeldTerminalState
deriving DecidableEq

structure HeldOwnerDecision where
  positionId : Text
  heldEvidenceDigest : Text
  requestId : Text
  expectedRevision : Int
  choice : HeldChoice
deriving DecidableEq

structure HeldProvenance where
  memo : Text
  openSignature : Text
  packStatusMint : Text
  derivedMint : Text
  custodyOwner : Text
  openSignatureSource : Text
  assetKind : Text
deriving DecidableEq

structure HeldIdentity where
  mint : Text
  verifiedAtMs : Int
  evidenceDigest : Text
  provenance : HeldProvenance
deriving DecidableEq

structure HeldResolution where
  terminalState : HeldResolutionState
  evidenceDigest : Text
  resolvedAtMs : Int
  evidence : Text
deriving DecidableEq

structure HeldPosition where
  positionId : Text
  card : HeldCard
  evidenceDigest : Text
  openedAtMs : Int
  positionRevision : Int
  ownerDecision : Option HeldOwnerDecision
  resolution : Option HeldResolution
  identity : Option HeldIdentity
deriving DecidableEq

/-- The digests of the positions, by what they are taken of. -/
structure HeldDigests where
  heldPositionId : Text → Text → Option Text → Text → Text
  evidenceDigest : HeldCard → Text → Text
  identityEvidenceDigest : Text → Text → Text → HeldProvenance → Text
  resolutionEvidenceDigest : Text → Text → Text → HeldResolutionState → Text → Text

/-! ## Checks -/

/-- Every field of it is there. -/
def HeldProvenance.isComplete (provenance : HeldProvenance) : Bool :=
  [provenance.memo, provenance.openSignature, provenance.packStatusMint, provenance.derivedMint,
    provenance.custodyOwner].all fun field => field ≠ []

def openSignatureSources : List Text :=
  [text "held-evidence", text "open-evidence", text "collector-finalized-send"]

def assetKinds : List Text := [text "spl", text "mpl-core"]

/-- The checks of a provenance, which the writer makes as well. -/
def assertHeldProvenance (provenance : HeldProvenance) (mint memo : Text) (label : String) :
    Except String Unit := do
  throwIf (¬ provenance.isComplete) (label ++ " provenance is invalid")
  throwIf (provenance.openSignatureSource ∉ openSignatureSources)
    (label ++ " provenance.openSignatureSource is invalid")
  throwIf (provenance.assetKind ∉ assetKinds) (label ++ " provenance.assetKind is invalid")
  throwIf (provenance.memo ≠ memo) (label ++ " provenance.memo does not match the held position")
  throwIf (provenance.packStatusMint ≠ mint ∨ provenance.derivedMint ≠ mint)
    (label ++ " provenance mint does not match the verified identity")

def assertHeldPositionIdentity (value : HeldIdentity) (memo : Text) (label : String) :
    Except String Unit := do
  assertHeldPositionText value.mint (label ++ ".mint")
  throwIf (¬ isSafeNatural value.verifiedAtMs) (label ++ ".verifiedAtMs is invalid")
  assertHeldProvenance value.provenance value.mint memo label
  throwIf (¬ isDigest value.evidenceDigest) (label ++ ".evidenceDigest is invalid")

def assertHeldPositionOwnerDecision (value : HeldOwnerDecision) (label : String) :
    Except String Unit := do
  throwIf (¬ isHeldPositionId value.positionId) (label ++ ".positionId is invalid")
  throwIf (¬ isDigest value.heldEvidenceDigest) (label ++ ".heldEvidenceDigest is invalid")
  throwIf (¬ isRequestId value.requestId) (label ++ ".requestId is invalid")
  throwIf (¬ isSafeNatural value.expectedRevision) (label ++ ".expectedRevision is invalid")

def assertHeldPositionResolution (value : HeldResolution) (label : String) :
    Except String Unit := do
  throwIf (¬ isDigest value.evidenceDigest) (label ++ ".evidenceDigest is invalid")
  throwIf (¬ isSafeNatural value.resolvedAtMs) (label ++ ".resolvedAtMs is invalid")

/-- The checks that `assertHeldPosition` makes of the card. -/
def assertHeldCard (card : HeldCard) (label : String) : Except String Unit := do
  assertHeldPositionText card.cycleId (label ++ ".cycleId")
  assertHeldPositionText card.packId (label ++ ".packId")
  assertHeldPositionText card.memo (label ++ ".memo")
  card.mint.forM fun mint => assertHeldPositionText mint (label ++ ".mint")
  assertHeldPositionText card.cardRef (label ++ ".cardRef")
  assertHeldPositionAtomic card.costMicroUsd (label ++ ".costMicroUsdg")
  assertHeldPositionAtomic card.valueMicroUsd (label ++ ".valueMicroUsdg")
  throwIf (card.costMicroUsd ≠ card.valueMicroUsd)
    (label ++ " native held value must equal purchase cost")
  card.insuredValue.forM fun amount => assertCost amount (label ++ ".insuredValue")
  throwIf (¬ isQuarantineReason card.reason) (label ++ ".reason is invalid")

/-- The decision of an owner is about the position and moved its revision. -/
def assertBoundDecision (value : HeldPosition) (label : String) : Except String Unit :=
  match value.ownerDecision with
  | some decision => do
    assertHeldPositionOwnerDecision decision (label ++ ".ownerDecision")
    throwIf (decision.positionId ≠ value.positionId ∨
        decision.heldEvidenceDigest ≠ value.evidenceDigest)
      (label ++ ".ownerDecision does not bind the held position")
    throwIf (value.positionRevision < decision.expectedRevision + 1)
      (label ++ ".ownerDecision revision transition is invalid")
  | none =>
    throwIf (value.positionRevision ≠ 0 ∧ value.resolution = none)
      (label ++ ".positionRevision requires an owner decision")

/-- The revision at which a position is resolved. -/
def resolvedRevision (value : HeldPosition) : Int :=
  value.ownerDecision.elim 1 fun decision => decision.expectedRevision + 2

variable (D : HeldDigests)

/-- `heldPositionResolutionEvidenceDigest`. -/
def resolutionDigest (position : HeldPosition) (terminalState : HeldResolutionState)
    (evidence : Text) : Text :=
  D.resolutionEvidenceDigest position.positionId position.card.cycleId position.evidenceDigest
    terminalState evidence

/-- The resolution is about the position, and the last that moved its revision. -/
def assertBoundResolution (value : HeldPosition) (label : String) : Except String Unit :=
  value.resolution.forM fun resolution => do
    assertHeldPositionResolution resolution (label ++ ".resolution")
    throwIf (value.positionRevision ≠ resolvedRevision value)
      (label ++ ".resolution revision transition is invalid")
    throwIf (resolution.evidenceDigest ≠
        resolutionDigest D value resolution.terminalState resolution.evidence)
      (label ++ ".resolution evidence digest does not bind the position")

def assertHeldPosition (value : HeldPosition) (label : String) : Except String HeldPosition := do
  throwIf (¬ isHeldPositionId value.positionId) (label ++ ".positionId is invalid")
  assertHeldCard value.card label
  throwIf (value.positionId ≠
      D.heldPositionId value.card.cycleId value.card.memo value.card.mint value.card.cardRef)
    (label ++ ".positionId does not bind its card identity")
  throwIf (¬ isDigest value.evidenceDigest) (label ++ ".evidenceDigest is invalid")
  throwIf (¬ isSafeNatural value.openedAtMs) (label ++ ".openedAtMs is invalid")
  throwIf (¬ isSafeNatural value.positionRevision) (label ++ ".positionRevision is invalid")
  assertBoundDecision value label
  assertBoundResolution D value label
  value.identity.forM fun identity =>
    assertHeldPositionIdentity identity value.card.memo (label ++ ".identity")
  return value

/-! ## Inputs -/

structure HeldPositionInput where
  packId : Text
  memo : Text
  mint : Option Text
  cardRef : Text
  costMicroUsd : Text
  valueMicroUsd : Text
  insuredValue : Option TypedAmount
  reason : Text
  terminalState : HeldTerminalState
  evidence : Value
  /-- The input names an asset ledger. -/
  ledgerAsset : Bool

def HeldPositionInput.card (input : HeldPositionInput) (cycleId : Text) : HeldCard :=
  { cycleId, packId := input.packId, memo := input.memo, mint := input.mint
    cardRef := input.cardRef, costMicroUsd := input.costMicroUsd
    valueMicroUsd := input.valueMicroUsd, insuredValue := input.insuredValue
    reason := input.reason, terminalState := input.terminalState }

def zeroDigest : Text := text "sha256:" ++ List.replicate 64 48

/-- `heldPositionInput`: the position and its evidence. -/
def heldPositionInput (cycleId : Text) (value : HeldPositionInput) (openedAtMs : Int) :
    Except String (HeldPosition × Text) := do
  let evidence ← canonicalJson value.evidence
  throwIf value.ledgerAsset "native held USD cost cannot be written into an asset principal ledger"
  let card := value.card cycleId
  let position ← assertHeldPosition D
    { positionId := D.heldPositionId cycleId card.memo card.mint card.cardRef, card
      evidenceDigest := zeroDigest, openedAtMs, positionRevision := 0, ownerDecision := none
      resolution := none, identity := none } "held position input"
  let position ← assertHeldPosition D
    { position with evidenceDigest := D.evidenceDigest card evidence } "held position input"
  return (position, evidence)

structure OwnerDecisionInput where
  heldEvidenceDigest : Text
  requestId : Text
  expectedRevision : Int
  choice : HeldChoice

def heldPositionOwnerDecisionInput (positionId : Text) (value : OwnerDecisionInput) :
    Except String HeldOwnerDecision := do
  let decision : HeldOwnerDecision :=
    { positionId, heldEvidenceDigest := value.heldEvidenceDigest, requestId := value.requestId
      expectedRevision := value.expectedRevision, choice := value.choice }
  assertHeldPositionOwnerDecision decision "held position owner decision input"
  return decision

/-- The position that a decision leaves, `none` when the position has one that answers it, and
that decision. -/
def heldPositionOwnerDecisionTransition (position : HeldPosition) (decision : HeldOwnerDecision) :
    Except String (Option HeldPosition × HeldOwnerDecision) := do
  throwIf (decision.heldEvidenceDigest ≠ position.evidenceDigest)
    "cycle-repository recordHeldOwnerDecision: held evidence digest does not match the position"
  throwIf position.resolution.isSome
    "cycle-repository recordHeldOwnerDecision: held position is already resolved"
  let moved : Except String (Option HeldPosition × HeldOwnerDecision) := do
    throwIf (decision.expectedRevision ≠ position.positionRevision)
      "cycle-repository recordHeldOwnerDecision: stale position revision"
    let updated ← assertHeldPosition D
      { position with
        positionRevision := position.positionRevision + 1, ownerDecision := some decision }
      "held position owner decision transition"
    return (some updated, decision)
  match position.ownerDecision with
  | some existing =>
    if existing.requestId = decision.requestId then
      if existing = decision then .ok (none, existing)
      else .error "cycle-repository recordHeldOwnerDecision: requestId conflict"
    else if existing.choice = decision.choice ∧
        existing.heldEvidenceDigest = decision.heldEvidenceDigest ∧
        decision.expectedRevision = position.positionRevision then .ok (none, existing)
    else if existing.choice = .sell then do
      throwIf (decision.expectedRevision ≠ position.positionRevision)
        "cycle-repository recordHeldOwnerDecision: stale position revision"
      .error "cycle-repository recordHeldOwnerDecision: held position already has a sell decision"
    else moved
  | none => moved

structure ResolutionInput where
  heldEvidenceDigest : Text
  expectedRevision : Int
  terminalState : HeldResolutionState
  evidence : Value

def heldPositionResolutionInput (position : HeldPosition) (value : ResolutionInput) (nowMs : Int) :
    Except String HeldResolution := do
  throwIf (value.heldEvidenceDigest ≠ position.evidenceDigest)
    "held position resolution input does not bind the held evidence digest"
  throwIf (¬ isSafeNatural value.expectedRevision)
    "held position resolution input expectedRevision is invalid"
  throwIf (value.expectedRevision ≠ position.positionRevision)
    "held position resolution input has a stale position revision"
  let evidence ← canonicalJson value.evidence
  let resolution : HeldResolution :=
    { terminalState := value.terminalState
      evidenceDigest := resolutionDigest D position value.terminalState evidence
      resolvedAtMs := nowMs, evidence }
  assertHeldPositionResolution resolution "held position resolution input"
  return resolution

end Hookemon.Repository.Held
