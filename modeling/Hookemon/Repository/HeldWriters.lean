import Hookemon.Core.Replay
import Hookemon.Js.Map
import Hookemon.Repository.SupplementarySettlements

/-! # The writers of held positions (`app/cycle-repository.mjs`)

What a cycle keeps of its held positions and of their settlements, how the journal replays, and
the calls that write it. The cycle of a call is the one that holds the position, which the
identifier of the position binds.
-/

namespace Hookemon.Repository.Held

open Hookemon.Core Hookemon.Js Hookemon.Runner

/-- What the calls share. The committed cost is that of a native admission; the source of a return
is the paged state that the process persisted for it; the checks are those of the process proofs,
the signed bytes, the custody fields that a return does not touch, the valuation and the global
keys of a return. -/
structure HeldContext where
  cycleId : Text
  native : Bool
  committedCost : Option Text
  archived : Bool
  digests : HeldDigests
  settlementDigests : SettlementDigests
  snapshotDigest : Text → Text
  returnSource : Text → Option ReturnSource
  isProcessProof : ReturnProof → Text → Bool
  signedDigest : Text → Text
  assertCustodyOthers : Text → Except String Unit
  validateValuation : RealizedProceeds → Except String Unit
  reserve : Text → ReturnProof → Except String Unit

/-- What other writers record of the cycle. -/
inductive CycleFact where
  | snapshotCompleted (evidence : Text)
  | custodyLedgerRecorded (row : NativeCustody)
  | cycleTerminal

inductive HeldEvent where
  | heldPositionRecorded (position : HeldPosition) (evidence : Text)
  | heldPositionIdentityVerified (positionId : Text) (identity : HeldIdentity) (evidence : Text)
  | heldPositionOwnerDecisionRecorded (positionId : Text) (decision : HeldOwnerDecision)
      (position : HeldPosition) (settlement : Option SupplementarySettlement)
  | supplementarySettlementAdvanced (positionId : Text) (expectedState nextState : SettlementState)
      (evidence : BoundaryEvidence) (payoutSource : Option PayoutSource)
      (realizedProceedsUsd : Option RealizedProceeds)
  | heldPositionResolved (positionId : Text) (resolution : HeldResolution) (position : HeldPosition)
  | other (fact : CycleFact)

structure HeldState where
  heldPositions : Map Text HeldPosition
  heldPositionEvidence : Map Text Text
  supplementarySettlements : Map Text SupplementarySettlement
  supplementarySettlementEvidence : Map Text (Option SettlementEvidence)
  nativeCustody : Option NativeCustody
  eligibilitySnapshot : Option Text
  terminal : Bool

namespace HeldState

def empty : HeldState := ⟨.empty, .empty, .empty, .empty, none, none, false⟩

variable (X : HeldContext) (s : HeldState)

/-! ## Replaying an event -/

def assertNotTerminal : Except String Unit :=
  throwIf s.terminal "stored cycle has a non-observational event after terminal state"

def applyRecorded (value : HeldPosition) (evidence : Text) : Except String HeldState := do
  s.assertNotTerminal
  let position ← assertHeldPosition X.digests value "stored held position"
  throwIf (position.card.cycleId ≠ X.cycleId) "stored held position cycleId is invalid"
  throwIf (position.evidenceDigest ≠ X.digests.evidenceDigest position.card evidence)
    "stored held position evidence digest does not match its evidence"
  throwIf (∃ previous ∈ s.heldPositions.get position.positionId, previous ≠ position)
    "stored held position conflicts with prior card custody"
  throwIf (∃ previous ∈ s.heldPositionEvidence.get position.positionId, previous ≠ evidence)
    "stored held position evidence conflicts with prior card custody"
  return { s with
    heldPositions := s.heldPositions.set position.positionId position
    heldPositionEvidence := s.heldPositionEvidence.set position.positionId evidence }

def unboundIdentity : String :=
  "stored held position identity does not bind an unresolved null-mint position"

def applyIdentity (positionId : Text) (identity : HeldIdentity) : Except String HeldState := do
  let previous ← (s.heldPositions.get positionId).elim (.error unboundIdentity) .ok
  throwIf (previous.resolution.isSome ∨ previous.card.mint.isSome) unboundIdentity
  assertHeldPositionIdentity identity previous.card.memo "stored held position identity"
  throwIf (identity.evidenceDigest ≠ X.digests.identityEvidenceDigest previous.positionId
      previous.evidenceDigest identity.mint identity.provenance)
    "stored held position identity evidence digest does not bind the held position"
  match previous.identity with
  | some old => do
    throwIf (old ≠ identity) "stored held position identity conflicts with prior verified identity"
    return s
  | none => do
    let position ← assertHeldPosition X.digests { previous with identity := some identity }
      "stored held position identity position"
    return { s with heldPositions := s.heldPositions.set position.positionId position }

/-- `completedEligibilitySnapshotEvidenceDigest`. -/
def completedSnapshotDigest : Except String Text :=
  match s.eligibilitySnapshot with
  | some evidence => .ok (X.snapshotDigest evidence)
  | none => .error "supplementary settlement requires the original completed eligibility snapshot"

/-- The settlement that a sale opens. -/
def openedSettlement (position : HeldPosition) : Except String SupplementarySettlement := do
  let snapshot ← s.completedSnapshotDigest X
  supplementarySettlementFor position (s.supplementarySettlements.size + 1) snapshot

def applySettlement (decision : HeldOwnerDecision) (position : HeldPosition)
    (value : SupplementarySettlement) : Except String HeldState := do
  let settlement ← assertSupplementarySettlement value "stored supplementary settlement"
  throwIf (decision.choice ≠ .sell ∨ settlement.positionId ≠ position.positionId ∨
      settlement.cycleId ≠ X.cycleId ∨ settlement.positionEvidenceDigest ≠ position.evidenceDigest ∨
      settlement.state ≠ .prepared ∨
      (s.supplementarySettlements.get settlement.positionId).isSome)
    "stored supplementary settlement does not bind the sell decision"
  let expected ← s.openedSettlement X position
  throwIf (settlement ≠ expected) "stored supplementary settlement manifest is invalid"
  return { s with
    supplementarySettlements := s.supplementarySettlements.set settlement.positionId settlement
    supplementarySettlementEvidence :=
      s.supplementarySettlementEvidence.set settlement.positionId none }

/-- The settlement of a decision, which a sale has and no other decision. -/
def applyDecidedSettlement (decision : HeldOwnerDecision) (position : HeldPosition) :
    Option SupplementarySettlement → Except String HeldState
  | some settlement => s.applySettlement X decision position settlement
  | none => do
    throwIf (decision.choice = .sell) "stored sell decision requires a supplementary settlement"
    return s

def applyDecision (positionId : Text) (decision : HeldOwnerDecision) (value : HeldPosition)
    (settlement : Option SupplementarySettlement) : Except String HeldState := do
  assertHeldPositionOwnerDecision decision "stored held position owner decision"
  let position ← assertHeldPosition X.digests value "stored held position owner decision position"
  let previous ← (s.heldPositions.get positionId).elim
    (.error "stored held position owner decision does not bind the current position") .ok
  throwIf (decision.positionId ≠ positionId ∨
      decision.heldEvidenceDigest ≠ previous.evidenceDigest ∨
      decision.expectedRevision ≠ previous.positionRevision)
    "stored held position owner decision does not bind the current position"
  throwIf (position ≠ { previous with
      positionRevision := previous.positionRevision + 1, ownerDecision := some decision })
    "stored held position owner decision transition is invalid"
  let next ← s.applyDecidedSettlement X decision position settlement
  return { next with heldPositions := s.heldPositions.set position.positionId position }

/-! ### Boundaries of a settlement -/

/-- What a boundary brings: its evidence as it is kept, what is paid out, and the boundary of the
return when that was before. -/
structure Boundary where
  evidence : BoundaryEvidence
  payoutSource : Option PayoutSource
  carried : Option DurableBoundary

/-- The boundary of a settlement in which the return has not happened. -/
def plainBoundary (current : SupplementarySettlement) (existing : Option SettlementEvidence)
    (evidence : Text) (label : String) : Except String Boundary :=
  match current.payoutSourceDigest with
  | none => .ok ⟨.plain evidence, none, none⟩
  | some _ => do
    let carried ← durableSupplementaryReturnBoundary X.settlementDigests current existing label
    return ⟨.plain evidence, some carried.payoutSource, some carried⟩

def returnBoundary (current : SupplementarySettlement) (value : ReturnBoundaryEvidence)
    (label : String) : Except String Boundary := do
  let evidence ← assertSupplementaryReturnBoundaryEvidence current value (label ++ " return boundary")
  let payoutSource ← supplementaryPayoutSourceForReturnBoundary X.settlementDigests current evidence
    (label ++ " payout source")
  return ⟨.returned evidence, some payoutSource, none⟩

def boundaryOf (current : SupplementarySettlement) (existing : Option SettlementEvidence)
    (nextState : SettlementState) (evidence : BoundaryEvidence) (label : String) :
    Except String Boundary :=
  match evidence with
  | .returned value =>
    if nextState = .returnBroadcast then returnBoundary X current value label
    else .error (label ++ " is evidence of another boundary")
  | .plain evidence =>
    if nextState = .returnBroadcast then .error (label ++ " return boundary must be a plain object")
    else plainBoundary X current existing evidence label

/-- The settlement after a boundary. -/
def advancedSettlement (current : SupplementarySettlement) (nextState : SettlementState)
    (boundary : Boundary) (label : String) : Except String SupplementarySettlement :=
  assertSupplementarySettlement
    { current with
      state := nextState
      payoutSourceDigest := (boundary.payoutSource.map X.settlementDigests.payoutSource).or
        current.payoutSourceDigest } label

/-- The evidence that is kept of a boundary. -/
def boundaryRecord (settlement : SupplementarySettlement) (boundary : Boundary) :
    SettlementEvidence :=
  supplementarySettlementEvidenceFor X.settlementDigests settlement settlement.state
    boundary.evidence boundary.payoutSource boundary.carried

/-- `supplementarySettlementEvidence.get(positionId) ?? null`. -/
def settlementEvidence (positionId : Text) : Option SettlementEvidence :=
  (s.supplementarySettlementEvidence.get positionId).join

/-- What replaying a return checks and changes besides the settlement. -/
def applyReturn (current : SupplementarySettlement) (evidence : ReturnBoundaryEvidence)
    (expected payoutSource : Option PayoutSource) (realized : Option RealizedProceeds) :
    Except String (Option NativeCustody) := do
  let value ← payoutSource.elim
    (.error "stored supplementary payout source must be a plain object") .ok
  let source ← assertSupplementaryPayoutSource current value "stored supplementary payout source"
  throwIf (some source ≠ expected)
    "stored supplementary payout source is not derived from the position return boundary"
  let finalized := evidence.finalizedReturnEvidence
  realized.forM fun realized => do
    let again ← realizedProceedsOf X.validateValuation realized finalized.finalityEvidence
    throwIf (again ≠ some realized)
      "stored supplementary realized proceeds do not match payment evidence"
  let row ← supplementaryNativeReturnCustody X.assertCustodyOthers s.nativeCustody
    finalized.amountAtomic
  return some row

/-- The native row after a boundary, which only that of a return changes. -/
def boundaryCustody (current : SupplementarySettlement) (boundary : Boundary)
    (payoutSource : Option PayoutSource) (realized : Option RealizedProceeds) :
    Except String (Option NativeCustody) :=
  match boundary.evidence with
  | .returned kept => s.applyReturn X current kept boundary.payoutSource payoutSource realized
  | .plain _ => .ok s.nativeCustody

def applyAdvanced (positionId : Text) (expectedState nextState : SettlementState)
    (evidence : BoundaryEvidence) (payoutSource : Option PayoutSource)
    (realized : Option RealizedProceeds) : Except String HeldState := do
  throwIf (¬ isHeldPositionId positionId) "stored supplementary settlement position id is invalid"
  let previous ← (s.supplementarySettlements.get positionId).elim
    (.error "stored supplementary settlement transition is invalid") .ok
  throwIf (previous.state ≠ expectedState ∨ nextState ∉ expectedState.next)
    "stored supplementary settlement transition is invalid"
  let boundary ← boundaryOf X previous (s.settlementEvidence positionId) nextState evidence
    "stored supplementary settlement advance"
  let nativeCustody ← s.boundaryCustody X previous boundary payoutSource realized
  let settlement ← advancedSettlement X previous nextState boundary
    "stored advanced supplementary settlement"
  return { s with
    supplementarySettlements := s.supplementarySettlements.set settlement.positionId settlement
    supplementarySettlementEvidence := s.supplementarySettlementEvidence.set settlement.positionId
      (some (boundaryRecord X settlement boundary))
    nativeCustody }

def applyResolved (positionId : Text) (resolution : HeldResolution) (value : HeldPosition) :
    Except String HeldState := do
  assertHeldPositionResolution resolution "stored held position resolution"
  let position ← assertHeldPosition X.digests value "stored held position resolution position"
  let previous ← (s.heldPositions.get positionId).elim
    (.error "stored held position resolution does not bind the current position") .ok
  throwIf (previous.resolution.isSome ∨ position.positionId ≠ positionId ∨
      resolution.evidenceDigest ≠
        resolutionDigest X.digests previous resolution.terminalState resolution.evidence)
    "stored held position resolution does not bind the current position"
  let expected ← assertHeldPosition X.digests
    { previous with
      positionRevision := previous.positionRevision + 1, resolution := some resolution }
    "stored held position resolution transition"
  throwIf (position ≠ expected) "stored held position resolution transition is invalid"
  return { s with heldPositions := s.heldPositions.set position.positionId position }

def applyFact : CycleFact → Except String HeldState
  | .snapshotCompleted evidence => do
    s.assertNotTerminal
    throwIf (∃ previous ∈ s.eligibilitySnapshot, previous ≠ evidence)
      "stored stage \"eligibility-snapshot\" has conflicting completion evidence"
    return { s with eligibilitySnapshot := some evidence }
  | .custodyLedgerRecorded row => .ok { s with nativeCustody := some row }
  | .cycleTerminal => do
    throwIf s.terminal "stored cycle has a second terminal event"
    return { s with terminal := true }

/-- `#replayStored` at one event. -/
def apply : HeldEvent → Except String HeldState
  | .heldPositionRecorded position evidence => s.applyRecorded X position evidence
  | .heldPositionIdentityVerified positionId identity _ => s.applyIdentity X positionId identity
  | .heldPositionOwnerDecisionRecorded positionId decision position settlement =>
    s.applyDecision X positionId decision position settlement
  | .supplementarySettlementAdvanced positionId expectedState nextState evidence payoutSource
      realized => s.applyAdvanced X positionId expectedState nextState evidence payoutSource realized
  | .heldPositionResolved positionId resolution position =>
    s.applyResolved X positionId resolution position
  | .other fact => s.applyFact fact

end HeldState

/-! ## Calls -/

structure IdentityInput where
  mint : Text
  provenance : HeldProvenance
  evidence : Value

/-- The identity that is verified of a position. -/
def IdentityInput.identity (X : HeldContext) (input : IdentityInput) (current : HeldPosition)
    (verifiedAtMs : Int) : HeldIdentity :=
  { mint := input.mint, verifiedAtMs
    evidenceDigest := X.digests.identityEvidenceDigest current.positionId current.evidenceDigest
      input.mint input.provenance
    provenance := input.provenance }

/-- The evidence of an advance: a return boundary, or any other value. -/
inductive AdvanceEvidence where
  | returned (evidence : ReturnBoundaryEvidence)
  | plain (value : Value)

structure AdvanceInput where
  expectedState : SettlementState
  nextState : SettlementState
  evidence : AdvanceEvidence

inductive HeldCall where
  | recordHeldPosition (input : HeldPositionInput) (now : Int)
  | recordHeldPositionIdentity (positionId : Text) (input : IdentityInput) (now : Int)
  | recordHeldOwnerDecision (positionId : Text) (input : OwnerDecisionInput)
  | advanceSupplementarySettlement (positionId : Text) (input : AdvanceInput)
  | resolveHeldPosition (positionId : Text) (input : ResolutionInput) (now : Int)
  | append (fact : CycleFact)

inductive HeldKept where
  | position (position : HeldPosition) (evidence : Text)
  | identity (positionId : Text) (current : HeldPosition) (identity : HeldIdentity)
      (evidence : Text)
  | decision (positionId : Text) (decision : HeldOwnerDecision) (position : HeldPosition)
      (settlement : Option SupplementarySettlement)
  | advance (positionId : Text) (current next : SupplementarySettlement)
      (expectedState : SettlementState) (evidence : BoundaryEvidence)
      (payoutSource : Option PayoutSource) (realized : Option RealizedProceeds)
  | resolution (positionId : Text) (current position : HeldPosition) (resolution : HeldResolution)
  | fact (fact : CycleFact)

inductive HeldAnswer where
  | position (position : HeldPosition)
  | decision (decision : HeldOwnerDecision)
  | settlement (settlement : SupplementarySettlement)
  | recorded
deriving DecidableEq

namespace HeldState

variable (X : HeldContext) (s : HeldState)

def recordHeldPosition (input : HeldPositionInput) (now : Int) :
    Except String (Reading HeldKept HeldAnswer) := do
  let openedAtMs ← currentRepositoryTime now
  let (position, evidence) ← heldPositionInput X.digests X.cycleId input openedAtMs
  throwIf (¬ X.native ∨ some position.card.costMicroUsd ≠ X.committedCost)
    "held USD cost is not the committed admission basis"
  match s.heldPositions.get position.positionId with
  | some existing =>
    if existing.evidenceDigest = position.evidenceDigest then .ok (.answer (.position existing))
    else .error "cycle-repository recordHeldPosition: card already has conflicting held custody"
  | none => do
    throwIf s.terminal "cycle-repository recordHeldPosition: cycle is terminal"
    return .keep (.position position evidence)

def assertPositionId (positionId : Text) : Except String Unit :=
  throwIf (¬ isHeldPositionId positionId) "cycle-repository: positionId is invalid"

def recordHeldPositionIdentity (positionId : Text) (input : IdentityInput) (now : Int) :
    Except String (Reading HeldKept HeldAnswer) := do
  assertPositionId positionId
  let current ← (s.heldPositions.get positionId).elim
    (.error "cycle-repository recordHeldPositionIdentity: held position is unknown") .ok
  throwIf current.resolution.isSome
    "cycle-repository recordHeldPositionIdentity: held position is already resolved"
  throwIf current.card.mint.isSome
    "cycle-repository recordHeldPositionIdentity: held position already has an immutable mint"
  match current.identity with
  | some identity =>
    if identity.mint = input.mint then .ok (.answer (.position current))
    else .error "held position identity conflicts with a previously verified identity"
  | none => do
    assertHeldPositionText input.mint "held position identity input.mint"
    assertHeldProvenance input.provenance input.mint current.card.memo
      "held position identity input"
    let evidence ← canonicalJson input.evidence
    let verifiedAtMs ← currentRepositoryTime now
    let identity := input.identity X current verifiedAtMs
    assertHeldPositionIdentity identity current.card.memo "held position identity"
    return .keep (.identity positionId current identity evidence)

def assertNotArchived : Except String Unit :=
  throwIf X.archived "cycle-repository: archived held positions require settlement recovery"

/-- The settlement that a decision opens. -/
def decidedSettlement (decision : HeldOwnerDecision) (position : HeldPosition) :
    Except String (Option SupplementarySettlement) :=
  if decision.choice = .sell then do
    let settlement ← s.openedSettlement X position
    return some settlement
  else .ok none

def recordHeldOwnerDecision (positionId : Text) (input : OwnerDecisionInput) :
    Except String (Reading HeldKept HeldAnswer) := do
  assertPositionId positionId
  let decision ← heldPositionOwnerDecisionInput positionId input
  let current ← (s.heldPositions.get positionId).elim
    (.error "cycle-repository recordHeldOwnerDecision: held position is unknown") .ok
  assertNotArchived X
  match ← heldPositionOwnerDecisionTransition X.digests current decision with
  | (none, existing) => return .answer (.decision existing)
  | (some position, decision) => do
    let settlement ← s.decidedSettlement X decision position
    return .keep (.decision positionId decision position settlement)

/-- The source of a return, its intent and the bytes that were signed. -/
def returnAttempt (positionId : Text) (proof : ReturnProof) :
    Except String (ReturnSource × ReturnIntent × Text) :=
  match X.returnSource positionId with
  | some source =>
    match source.intent, source.rawSignedBytes with
    | some intent, some rawSignedBytes => do
      throwIf (source.schema ≠ text "hookemon.supplementary-return-attempt.v2" ∨
          ¬ X.isProcessProof proof source.relayRequestId)
        "native supplementary return requires its persisted source and process payment proof"
      return (source, intent, rawSignedBytes)
    | _, _ =>
      .error "native supplementary return requires its persisted source and process payment proof"
  | none =>
    .error "native supplementary return requires its persisted source and process payment proof"

/-- What an advance to the return checks first; the proceeds in dollars. -/
def checkReturn (positionId : Text) (evidence : ReturnBoundaryEvidence) :
    Except String (Option RealizedProceeds) := do
  let finalized := evidence.finalizedReturnEvidence
  let proof := finalized.finalityEvidence
  let (source, intent, rawSignedBytes) ← returnAttempt X positionId proof
  throwIf (proof.sourceTransactionDigest ≠ X.signedDigest rawSignedBytes ∨
      proof.orderId ≠ intent.orderId ∨ proof.recipient ≠ toLowerCase intent.recipient ∨
      some proof.observedAmountAtomic ≠ source.destinationAmountAtomic ∨
      proof.observedRecipient ≠ toLowerCase finalized.operations ∨
      proof.observedAmountAtomic ≠ finalized.amountAtomic ∨ finalized.assetId ≠ nativeAsset)
    "native supplementary return differs from its original position source and destination"
  let _ ← supplementaryNativeReturnCustody X.assertCustodyOthers s.nativeCustody
    proof.observedAmountAtomic
  supplementaryRealizedProceeds X.validateValuation source proof

/-- The evidence of an advance with what was realized. Evidence that is not of a return is cloned. -/
def advanceEvidence (positionId : Text) (input : AdvanceInput) :
    Except String (BoundaryEvidence × Option RealizedProceeds) :=
  match input.evidence with
  | .returned evidence => do
    let realized ← s.checkReturn X positionId evidence
    return (.returned evidence, realized)
  | .plain value => do
    let evidence ← canonicalJson value
    return (.plain evidence, none)

def advanceSupplementarySettlement (positionId : Text) (input : AdvanceInput) :
    Except String (Reading HeldKept HeldAnswer) := do
  assertPositionId positionId
  throwIf (input.nextState ∉ input.expectedState.next)
    "cycle-repository advanceSupplementarySettlement: state transition is invalid"
  let current ← (s.supplementarySettlements.get positionId).elim
    (.error "cycle-repository advanceSupplementarySettlement: settlement is unknown") .ok
  assertNotArchived X
  throwIf (¬ X.native) "native supplementary settlement refuses historical cycle resume"
  let (evidence, realized) ← s.advanceEvidence X positionId input
  let existing := s.settlementEvidence positionId
  let boundary ← boundaryOf X current existing input.nextState evidence
    "supplementary settlement advance"
  let next ← advancedSettlement X current input.nextState boundary
    "advanced supplementary settlement"
  if current.state = input.nextState then do
    throwIf (current ≠ next ∨ existing ≠ some (boundaryRecord X next boundary))
      "cycle-repository advanceSupplementarySettlement: settled boundary evidence conflicts"
    return .answer (.settlement current)
  else do
    throwIf (current.state ≠ input.expectedState)
      "cycle-repository advanceSupplementarySettlement: settlement changed while advancing"
    return .keep (.advance positionId current next input.expectedState boundary.evidence
      boundary.payoutSource realized)

def resolveHeldPosition (positionId : Text) (input : ResolutionInput) (now : Int) :
    Except String (Reading HeldKept HeldAnswer) := do
  assertPositionId positionId
  let current ← (s.heldPositions.get positionId).elim
    (.error "cycle-repository resolveHeldPosition: held position is unknown") .ok
  assertNotArchived X
  throwIf (input.terminalState = .sold ∧
      ¬ (s.supplementarySettlements.get positionId).any fun settlement =>
        settlement.state = .complete)
    ("cycle-repository resolveHeldPosition: sold resolution requires its supplementary " ++
      "settlement to be complete")
  match current.resolution with
  | some previous => do
    let resolution ← heldPositionResolutionInput X.digests current input previous.resolvedAtMs
    throwIf (resolution ≠ previous) "cycle-repository resolveHeldPosition: resolution conflict"
    return .answer (.position current)
  | none => do
    let resolvedAtMs ← currentRepositoryTime now
    let resolution ← heldPositionResolutionInput X.digests current input resolvedAtMs
    let position ← assertHeldPosition X.digests
      { current with
        positionRevision := current.positionRevision + 1, resolution := some resolution }
      "held position resolution transition"
    return .keep (.resolution positionId current position resolution)

/-- What a call does once it has read the state. -/
def read : HeldCall → Except String (Reading HeldKept HeldAnswer)
  | .recordHeldPosition input now => s.recordHeldPosition X input now
  | .recordHeldPositionIdentity positionId input now =>
    s.recordHeldPositionIdentity X positionId input now
  | .recordHeldOwnerDecision positionId input => s.recordHeldOwnerDecision X positionId input
  | .advanceSupplementarySettlement positionId input =>
    s.advanceSupplementarySettlement X positionId input
  | .resolveHeldPosition positionId input now => s.resolveHeldPosition X positionId input now
  | .append fact => .ok (.keep (.fact fact))

/-! ### Commits -/

def assertUnchangedPosition (position : HeldPosition) : Except String Unit := do
  throwIf s.terminal "cycle-repository recordHeldPosition: cycle is terminal"
  throwIf (∃ latest ∈ s.heldPositions.get position.positionId, latest ≠ position)
    "cycle-repository recordHeldPosition: card changed while recording custody"

def assertUnchangedIdentity (positionId : Text) (identity : HeldIdentity) : Except String Unit := do
  let changed := "cycle-repository recordHeldPositionIdentity: held position changed while " ++
    "recording identity"
  let latest ← (s.heldPositions.get positionId).elim (.error changed) .ok
  throwIf (latest.resolution.isSome ∨ latest.card.mint.isSome) changed
  throwIf (∃ old ∈ latest.identity, old ≠ identity)
    "cycle-repository recordHeldPositionIdentity: identity changed while recording"

def assertUnchangedDecision (positionId : Text) (decision : HeldOwnerDecision)
    (position : HeldPosition) (settlement : Option SupplementarySettlement) :
    Except String Unit := do
  let latest ← (s.heldPositions.get positionId).elim
    (.error "cycle-repository recordHeldOwnerDecision: held position disappeared") .ok
  let transition ← heldPositionOwnerDecisionTransition X.digests latest decision
  throwIf (transition.1.getD latest ≠ position)
    "cycle-repository recordHeldOwnerDecision: held position changed while recording decision"
  settlement.forM fun settlement => do
    throwIf (s.supplementarySettlements.get positionId).isSome
      "cycle-repository recordHeldOwnerDecision: supplementary settlement already exists"
    let snapshot ← s.completedSnapshotDigest X
    throwIf (settlement.eligibilitySnapshotEvidenceDigest ≠ snapshot)
      ("cycle-repository recordHeldOwnerDecision: eligibility snapshot changed while " ++
        "recording decision")

def assertUnchangedSettlement (positionId : Text) (current : SupplementarySettlement) :
    Except String Unit :=
  throwIf (s.supplementarySettlements.get positionId ≠ some current)
    "cycle-repository advanceSupplementarySettlement: settlement changed while advancing"

/-- The global keys of a return are reserved with its boundary. -/
def reserveReturn (positionId : Text) : BoundaryEvidence → Except String Unit
  | .returned evidence => X.reserve positionId evidence.finalizedReturnEvidence.finalityEvidence
  | .plain _ => .ok ()

def assertUnresolved (positionId : Text) (current : HeldPosition) : Except String Unit :=
  throwIf (current.resolution.isSome ∨ s.heldPositions.get positionId ≠ some current)
    "cycle-repository resolveHeldPosition: held position changed while resolving"

/-- What a boundary stores besides its evidence: only that of the return has a source. -/
def storedSource (evidence : BoundaryEvidence) (payoutSource : Option PayoutSource) :
    Option PayoutSource :=
  match evidence with
  | .returned _ => payoutSource
  | .plain _ => none

/-- What a call appends in the state of that moment, and what it then answers with. -/
def append : HeldKept → Except String (List HeldEvent × HeldAnswer)
  | .position position evidence => do
    s.assertUnchangedPosition position
    return ([.heldPositionRecorded position evidence], .position position)
  | .identity positionId current identity evidence => do
    s.assertUnchangedIdentity positionId identity
    return ([.heldPositionIdentityVerified positionId identity evidence],
      .position { current with identity := some identity })
  | .decision positionId decision position settlement => do
    s.assertUnchangedDecision X positionId decision position settlement
    return ([.heldPositionOwnerDecisionRecorded positionId decision position settlement],
      .decision decision)
  | .advance positionId current next expectedState evidence payoutSource realized => do
    s.assertUnchangedSettlement positionId current
    reserveReturn X positionId evidence
    return ([.supplementarySettlementAdvanced positionId expectedState next.state evidence
      (storedSource evidence payoutSource) realized], .settlement next)
  | .resolution positionId current position resolution => do
    s.assertUnresolved positionId current
    return ([.heldPositionResolved positionId resolution position], .position position)
  | .fact fact => .ok ([.other fact], .recorded)

end HeldState

/-- The writers of the held positions of a cycle, on a journal that takes whatever fits. -/
def heldWriters (X : HeldContext) (fits : List HeldEvent → List HeldEvent → Bool) :
    Writers HeldState HeldEvent HeldCall HeldKept HeldAnswer where
  apply s e := s.apply X e
  init := .empty
  fits := fits
  read s c := s.read X c
  append s p := s.append X p

end Hookemon.Repository.Held
