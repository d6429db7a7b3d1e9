import Hookemon.Repository.HeldChecks

/-! # Repeated calls of the writers of held positions

A process that dies after a commit repeats the call. Each writer looks for what the call recorded
before it looks at anything that the record has changed, and answers with it; only the
resolution of a position compares the revision of the input with the one that the resolution has
moved, and refuses its own repetition.
-/

namespace Hookemon.Repository.Held

open Hookemon.Core Hookemon.Js Hookemon.Runner

/-! ## Calls -/

/-- The same call at another time. -/
def HeldCall.atTime (now : Int) : HeldCall → HeldCall
  | .recordHeldPosition input _ => .recordHeldPosition input now
  | .recordHeldPositionIdentity positionId input _ =>
    .recordHeldPositionIdentity positionId input now
  | .resolveHeldPosition positionId input _ => .resolveHeldPosition positionId input now
  | c => c

/-- A call that differs in its time, its evidence and its choice at most. -/
def HeldCall.Varies : HeldCall → HeldCall → Prop
  | .recordHeldPosition input _, .recordHeldPosition other _ =>
    other = { input with evidence := other.evidence }
  | .recordHeldPositionIdentity positionId input _, .recordHeldPositionIdentity otherId other _ =>
    otherId = positionId ∧ other = { input with evidence := other.evidence }
  | .recordHeldOwnerDecision positionId input, .recordHeldOwnerDecision otherId other =>
    otherId = positionId ∧ other = { input with
      choice := other.choice, heldEvidenceDigest := other.heldEvidenceDigest }
  | .advanceSupplementarySettlement positionId input,
      .advanceSupplementarySettlement otherId other =>
    otherId = positionId ∧ other = { input with evidence := other.evidence }
  | .resolveHeldPosition positionId input _, .resolveHeldPosition otherId other _ =>
    otherId = positionId ∧ other = { input with
      heldEvidenceDigest := other.heldEvidenceDigest, terminalState := other.terminalState
      evidence := other.evidence }
  | _, _ => False

/-- One of the five writers. -/
def HeldCall.writes : HeldCall → Bool
  | .append _ => false
  | _ => true

namespace HeldState

variable {X : HeldContext} {s t : HeldState}

/-! ## What every journal keeps true -/

/-- The records are kept under their own identifiers, and evidence only with its position. -/
structure Sound (X : HeldContext) (s : HeldState) : Prop where
  position : ∀ id p, s.heldPositions.get id = some p →
    PositionOk X.digests p ∧ p.positionId = id ∧ p.card.cycleId = X.cycleId
  evidence : ∀ id, (s.heldPositionEvidence.get id).isSome → (s.heldPositions.get id).isSome
  settlement : ∀ id p, s.supplementarySettlements.get id = some p → p.positionId = id

theorem Sound.empty (X : HeldContext) : Sound X .empty where
  position := by simp [HeldState.empty]
  evidence := by simp [HeldState.empty]
  settlement := by simp [HeldState.empty]

/-- A position that is accepted may be recorded. -/
theorem Sound.setPosition (hs : Sound X s) {position : HeldPosition}
    (h : PositionOk X.digests position) (hcycle : position.card.cycleId = X.cycleId) :
    Sound X { s with heldPositions := s.heldPositions.set position.positionId position } := by
  refine ⟨?_, ?_, hs.settlement⟩
  · intro id p hp
    rcases Map.get_set_eq_some.mp hp with ⟨rfl, rfl⟩ | ⟨-, hold⟩
    · exact ⟨h, rfl, hcycle⟩
    · exact hs.position id p hold
  · intro id hid
    have hposition := hs.evidence id hid
    simp only [Map.get_set]
    split
    · rfl
    · exact hposition

/-- Records of a settlement are kept under its own identifier. -/
theorem Sound.setSettlement (hs : Sound X s) (settlement : SupplementarySettlement)
    (evidence : Map Text (Option SettlementEvidence)) (row : Option NativeCustody) :
    Sound X { s with
      supplementarySettlements := s.supplementarySettlements.set settlement.positionId settlement
      supplementarySettlementEvidence := evidence, nativeCustody := row } := by
  refine ⟨hs.position, hs.evidence, ?_⟩
  intro id p hp
  rcases Map.get_set_eq_some.mp hp with ⟨rfl, rfl⟩ | ⟨-, hold⟩
  · rfl
  · exact hs.settlement id p hold

theorem Sound.apply (hs : Sound X s) {e : HeldEvent} (h : s.apply X e = .ok t) : Sound X t := by
  cases e with
  | heldPositionRecorded position evidence =>
    simp only [HeldState.apply, applyRecorded, bind_eq_ok, pure_eq_ok, revertIf_eq_ok, ne_eq,
      not_not, assertHeldPosition_eq_ok] at h
    obtain ⟨_, -, own, ⟨hok, rfl⟩, _, hcycle, _, -, _, -, _, -, rfl⟩ := h
    have hnext := hs.setPosition hok hcycle
    refine ⟨hnext.position, ?_, hnext.settlement⟩
    intro id hid
    simp only [Map.get_set] at hid ⊢
    split
    · rfl
    · rename_i hne
      rw [if_neg hne] at hid
      exact hs.evidence id hid
  | heldPositionIdentityVerified positionId identity evidence =>
    simp only [HeldState.apply, applyIdentity, bind_eq_ok, elim_eq_ok] at h
    obtain ⟨previous, hprevious, _, -, _, -, _, -, h⟩ := h
    split at h
    · obtain ⟨_, -, h⟩ := bind_eq_ok.mp h
      cases h
      exact hs
    · simp only [bind_eq_ok, pure_eq_ok, assertHeldPosition_eq_ok] at h
      obtain ⟨_, ⟨hok, rfl⟩, rfl⟩ := h
      exact hs.setPosition hok (hs.position positionId previous hprevious).2.2
  | heldPositionOwnerDecisionRecorded positionId decision position settlement =>
    simp only [HeldState.apply, applyDecision, bind_eq_ok, pure_eq_ok, revertIf_eq_ok, ne_eq,
      not_not, assertHeldPosition_eq_ok, elim_eq_ok] at h
    obtain ⟨_, -, own, ⟨hok, rfl⟩, previous, hprevious, _, -, _, hmoved, next, hnext, rfl⟩ := h
    have hcard : own.card.cycleId = X.cycleId := by
      rw [hmoved]
      exact (hs.position positionId previous hprevious).2.2
    cases settlement with
    | none =>
      simp only [applyDecidedSettlement, bind_eq_ok, pure_eq_ok] at hnext
      obtain ⟨_, -, rfl⟩ := hnext
      exact hs.setPosition hok hcard
    | some settlement =>
      simp only [applyDecidedSettlement, applySettlement, bind_eq_ok, pure_eq_ok] at hnext
      obtain ⟨settlement', -, _, -, _, -, _, -, rfl⟩ := hnext
      exact (hs.setSettlement settlement' _ s.nativeCustody).setPosition hok hcard
  | supplementarySettlementAdvanced positionId expectedState nextState evidence payoutSource
      realized =>
    simp only [HeldState.apply, applyAdvanced, bind_eq_ok, pure_eq_ok] at h
    obtain ⟨_, -, previous, -, _, -, boundary, -, row, -, settlement, -, rfl⟩ := h
    exact hs.setSettlement settlement _ row
  | heldPositionResolved positionId resolution position =>
    simp only [HeldState.apply, applyResolved, bind_eq_ok, pure_eq_ok, revertIf_eq_ok, ne_eq,
      not_not, assertHeldPosition_eq_ok, elim_eq_ok] at h
    obtain ⟨_, -, _, ⟨hok, rfl⟩, previous, hprevious, _, -, _, ⟨-, rfl⟩, _, hmoved, rfl⟩ := h
    refine hs.setPosition hok ?_
    rw [hmoved]
    exact (hs.position positionId previous hprevious).2.2
  | other fact =>
    cases fact with
    | snapshotCompleted evidence =>
      simp only [HeldState.apply, applyFact, bind_eq_ok, pure_eq_ok] at h
      obtain ⟨_, -, _, -, rfl⟩ := h
      exact { hs with }
    | custodyLedgerRecorded row =>
      cases h
      exact { hs with }
    | cycleTerminal =>
      simp only [HeldState.apply, applyFact, bind_eq_ok, pure_eq_ok] at h
      obtain ⟨_, -, rfl⟩ := h
      exact { hs with }

/-! ## What a repetition finds -/

/-- The call, repeated at any time, is answered so. -/
def Repeats (X : HeldContext) (t : HeldState) (c : HeldCall) (r : HeldAnswer) : Prop :=
  ∀ now, isSafeNatural now → t.read X (c.atTime now) = .ok (.answer r)

/-- No call that differs in its time, evidence and choice at most gets to a commit. -/
def Settled (X : HeldContext) (t : HeldState) (c : HeldCall) : Prop :=
  ∀ c', c.Varies c' → ∀ p, t.read X c' ≠ .ok (.keep p)

/-- What a commit of the call leaves: its one event replays, to a state with the property in which
no variant of the call commits again. -/
def Commits (X : HeldContext) (s : HeldState) (c : HeldCall) (p : HeldKept) (r : HeldAnswer)
    (P : HeldState → Prop) : Prop :=
  ∀ events, s.append X p = .ok (events, r) →
    ∃ e t, events = [e] ∧ s.apply X e = .ok t ∧ P t ∧ Settled X t c

/-- A position that is known is answered or refused. -/
theorem recordHeldPosition_known {input : HeldPositionInput} {now : Int} {position : HeldPosition}
    (hid : t.heldPositions.get (X.digests.heldPositionId X.cycleId input.memo input.mint
      input.cardRef) = some position) (p : HeldKept) :
    t.recordHeldPosition X input now ≠ .ok (.keep p) := by
  intro h
  simp only [HeldState.recordHeldPosition, bind_eq_ok] at h
  obtain ⟨openedAtMs, -, input', hinput, _, -, h⟩ := h
  obtain ⟨-, -, hown, -, -⟩ := heldPositionInput_ok hinput
  rw [hown, hid] at h
  simp only at h
  split at h <;> cases h

/-- A position with the digest of the input is answered at any time. -/
theorem recordHeldPosition_again {input : HeldPositionInput} {openedAtMs : Int}
    {position existing : HeldPosition} {evidence : Text}
    (hinput : heldPositionInput X.digests X.cycleId input openedAtMs = .ok (position, evidence))
    (hcost : X.native ∧ some position.card.costMicroUsd = X.committedCost)
    (hexisting : t.heldPositions.get position.positionId = some existing)
    (hdigest : existing.evidenceDigest = position.evidenceDigest) {now : Int}
    (hnow : isSafeNatural now) :
    t.recordHeldPosition X input now = .ok (.answer (.position existing)) := by
  obtain ⟨-, -, -, -, hagain⟩ := heldPositionInput_ok hinput
  simp only [HeldState.recordHeldPosition, bind_eq_ok, currentRepositoryTime_eq_ok, revertIf_eq_ok]
  refine ⟨now, ⟨hnow, rfl⟩, _, hagain now hnow, (), ?_, ?_⟩
  · simp [hcost.1, hcost.2]
  · simp only [hexisting, hdigest, if_true]

theorem commits_position (hs : Sound X s) {input : HeldPositionInput} {now : Int} {p : HeldKept}
    {r : HeldAnswer} (h : s.recordHeldPosition X input now = .ok (.keep p)) :
    Commits X s (.recordHeldPosition input now) p r
      fun t => Repeats X t (.recordHeldPosition input now) r := by
  intro events happend
  simp only [HeldState.recordHeldPosition, bind_eq_ok, currentRepositoryTime_eq_ok,
    revertIf_eq_ok] at h
  obtain ⟨openedAtMs, -, ⟨position, evidence⟩, hinput, _, hcost, h⟩ := h
  have hcost : X.native ∧ some position.card.costMicroUsd = X.committedCost := by
    simpa using hcost
  obtain ⟨hok, hcard, hid, hdigest, -⟩ := heldPositionInput_ok hinput
  cases hget : s.heldPositions.get position.positionId with
  | some existing =>
    simp only [hget] at h
    split at h <;> cases h
  | none =>
    simp only [hget, bind_eq_ok, pure_eq_ok, revertIf_eq_ok, Reading.keep.injEq] at h
    obtain ⟨_, hopen, rfl⟩ := h
    simp only [HeldState.append, bind_eq_ok, pure_eq_ok, Prod.mk.injEq] at happend
    obtain ⟨_, -, rfl, rfl⟩ := happend
    -- the replay asks that no evidence is kept either: what has evidence has a position
    have hnoEvidence : s.heldPositionEvidence.get position.positionId = none := by
      cases hevidence : s.heldPositionEvidence.get position.positionId with
      | none => rfl
      | some old =>
        have hposition := hs.evidence position.positionId (by rw [hevidence]; rfl)
        rw [hget] at hposition
        cases hposition
    have hcycle : position.card.cycleId = X.cycleId := by rw [hcard]; rfl
    refine ⟨_, { s with
        heldPositions := s.heldPositions.set position.positionId position
        heldPositionEvidence := s.heldPositionEvidence.set position.positionId evidence }, rfl,
      ?_, ?_, ?_⟩
    · simp only [HeldState.apply, applyRecorded, assertNotTerminal, bind_eq_ok, pure_eq_ok,
        revertIf_eq_ok, assertHeldPosition_eq_ok]
      exact ⟨(), hopen, position, ⟨hok, rfl⟩, (), not_not.mpr hcycle, (), not_not.mpr hdigest, (),
        by simp [hget], (), by simp [hnoEvidence], rfl⟩
    · intro now' hnow'
      exact recordHeldPosition_again hinput hcost (by simp) rfl hnow'
    · intro c' hvaries p'
      cases c' with
      | recordHeldPosition other now' =>
        -- the identifier is made of names that a variant shares, so it finds the position
        refine @recordHeldPosition_known _ _ _ _ position ?_ p'
        rw [hvaries, hid]
        simp
      | _ => exact hvaries.elim

/-! ### Identities -/

/-- A position whose identity is verified is answered for its mint, and refused for any other. -/
theorem recordHeldPositionIdentity_known {positionId : Text} {input : IdentityInput} {now : Int}
    {position : HeldPosition} {identity : HeldIdentity} (hid : isHeldPositionId positionId)
    (hget : t.heldPositions.get positionId = some position) (hresolution : position.resolution = none)
    (hmint : position.card.mint = none) (hidentity : position.identity = some identity) :
    t.recordHeldPositionIdentity X positionId input now =
      if identity.mint = input.mint then .ok (.answer (.position position))
      else .error "held position identity conflicts with a previously verified identity" := by
  simp only [HeldState.recordHeldPositionIdentity, assertPositionId, hget, hid, Option.elim_some,
    hresolution, hmint, hidentity, Option.isSome_none, not_true_eq_false, Bool.false_eq_true,
    revertIf_of_not not_false, ok_bind]

theorem commits_identity (hs : Sound X s) {positionId : Text} {input : IdentityInput} {now : Int}
    {p : HeldKept} {r : HeldAnswer}
    (h : s.recordHeldPositionIdentity X positionId input now = .ok (.keep p)) :
    Commits X s (.recordHeldPositionIdentity positionId input now) p r
      fun t => Repeats X t (.recordHeldPositionIdentity positionId input now) r := by
  intro events happend
  simp only [HeldState.recordHeldPositionIdentity, assertPositionId, bind_eq_ok, revertIf_eq_ok,
    not_not, elim_eq_ok] at h
  obtain ⟨_, hid, current, hget, _, hresolution, _, hmint, h⟩ := h
  obtain ⟨hok, hown, -⟩ := hs.position positionId current hget
  have hresolution : current.resolution = none := by simpa using hresolution
  have hmint : current.card.mint = none := by simpa using hmint
  split at h
  -- an identity that is verified is answered or refused, never kept again
  · split at h <;> cases h
  · rename_i hidentity
    simp only [bind_eq_ok, pure_eq_ok, assertHeldPositionIdentity_eq_ok, Reading.keep.injEq] at h
    obtain ⟨_, -, _, -, evidence, -, verifiedAtMs, -, _, hidentityOk, rfl⟩ := h
    simp only [HeldState.append, bind_eq_ok, pure_eq_ok, Prod.mk.injEq] at happend
    obtain ⟨_, -, rfl, rfl⟩ := happend
    let position : HeldPosition :=
      { current with identity := some (input.identity X current verifiedAtMs) }
    let t : HeldState := { s with heldPositions := s.heldPositions.set positionId position }
    have hposition : t.heldPositions.get positionId = some position := by simp [t]
    refine ⟨_, t, rfl, ?_, ?_, ?_⟩
    · simp only [HeldState.apply, applyIdentity, hget, Option.elim_some, bind_eq_ok, revertIf_eq_ok,
        assertHeldPositionIdentity_eq_ok]
      refine ⟨current, rfl, (), by simp [hresolution, hmint], (), hidentityOk, (),
        by simp [IdentityInput.identity], ?_⟩
      simp only [hidentity, bind_eq_ok, pure_eq_ok, assertHeldPosition_eq_ok]
      refine ⟨position, ⟨hok.identified hidentityOk, rfl⟩, ?_⟩
      change { s with heldPositions := s.heldPositions.set current.positionId position } = t
      rw [hown]
    · intro now' _
      refine (recordHeldPositionIdentity_known hid hposition hresolution hmint rfl).trans ?_
      exact if_pos rfl
    · intro c' hvaries p' hkeep
      cases c' with
      | recordHeldPositionIdentity otherId other now' =>
        obtain ⟨hsame, -⟩ := hvaries
        simp only [HeldState.read, hsame] at hkeep
        rw [recordHeldPositionIdentity_known hid hposition hresolution hmint rfl] at hkeep
        split at hkeep <;> cases hkeep
      | _ => exact hvaries.elim

/-! ### Decisions -/

/-- The transition of a decision that is new. -/
theorem ownerDecisionTransition_new {position updated : HeldPosition}
    {decision d : HeldOwnerDecision}
    (h : heldPositionOwnerDecisionTransition X.digests position decision
      = .ok (some updated, d)) :
    d = decision ∧ decision.heldEvidenceDigest = position.evidenceDigest ∧
      position.resolution = none ∧ decision.expectedRevision = position.positionRevision ∧
      PositionOk X.digests updated ∧ updated = { position with
        positionRevision := position.positionRevision + 1, ownerDecision := some decision } := by
  simp only [heldPositionOwnerDecisionTransition, bind_eq_ok, revertIf_eq_ok, ne_eq, not_not] at h
  obtain ⟨_, hevidence, _, hresolution, h⟩ := h
  have hresolution : position.resolution = none := by simpa using hresolution
  -- only the branch that moves the position gives one
  have hmoved : (throwIf (¬ decision.expectedRevision = position.positionRevision)
      "cycle-repository recordHeldOwnerDecision: stale position revision" >>= fun _ =>
      assertHeldPosition X.digests { position with
        positionRevision := position.positionRevision + 1, ownerDecision := some decision }
        "held position owner decision transition" >>= fun updated =>
      pure (some updated, decision)) = .ok (some updated, d) := by
    split at h
    · split at h
      · split at h <;> cases h
      · split at h
        · cases h
        · split at h
          · obtain ⟨_, -, h⟩ := bind_eq_ok.mp h
            cases h
          · exact h
    · exact h
  simp only [bind_eq_ok, revertIf_eq_ok, pure_eq_ok, not_not, assertHeldPosition_eq_ok,
    Prod.mk.injEq, Option.some.injEq] at hmoved
  obtain ⟨_, hrevision, _, ⟨hok, rfl⟩, rfl, rfl⟩ := hmoved
  exact ⟨rfl, hevidence, hresolution, hrevision, hok, rfl⟩

/-- The transition of a decision whose request has been decided. -/
theorem ownerDecisionTransition_known {position : HeldPosition}
    {decision existing : HeldOwnerDecision}
    (hevidence : decision.heldEvidenceDigest = position.evidenceDigest)
    (hresolution : position.resolution = none) (hexisting : position.ownerDecision = some existing)
    (hrequest : existing.requestId = decision.requestId) :
    heldPositionOwnerDecisionTransition X.digests position decision =
      if existing = decision then .ok (none, existing)
      else .error "cycle-repository recordHeldOwnerDecision: requestId conflict" := by
  simp [heldPositionOwnerDecisionTransition, hevidence, hresolution, hexisting, hrequest,
    revertIf]

/-- A request that has been decided is answered when it is the same, and refused otherwise. -/
theorem recordHeldOwnerDecision_known {positionId : Text} {input : OwnerDecisionInput}
    {position : HeldPosition} {existing : HeldOwnerDecision}
    (hget : t.heldPositions.get positionId = some position) (hresolution : position.resolution = none)
    (hexisting : position.ownerDecision = some existing)
    (hrequest : existing.requestId = input.requestId) (p : HeldKept) :
    t.recordHeldOwnerDecision X positionId input ≠ .ok (.keep p) := by
  intro h
  simp only [HeldState.recordHeldOwnerDecision, heldPositionOwnerDecisionInput, bind_eq_ok,
    pure_eq_ok, elim_eq_ok] at h
  obtain ⟨_, -, decision, ⟨_, -, rfl⟩, current, hcurrent, _, -, ⟨position', d⟩, htransition, h⟩ := h
  rw [hget] at hcurrent
  cases hcurrent
  have hevidence : input.heldEvidenceDigest = position.evidenceDigest := by
    simp only [heldPositionOwnerDecisionTransition, bind_eq_ok, revertIf_eq_ok, ne_eq,
      not_not] at htransition
    obtain ⟨_, hevidence, -⟩ := htransition
    exact hevidence
  rw [ownerDecisionTransition_known hevidence hresolution hexisting hrequest] at htransition
  split at htransition
  · cases htransition
    cases h
  · cases htransition

/-- The settlement of a sale is accepted when it is replayed. -/
theorem openedSettlement_ok {position : HeldPosition} (hok : PositionOk X.digests position)
    {settlement : SupplementarySettlement}
    (h : s.openedSettlement X position = .ok settlement) :
    SettlementOk settlement ∧ settlement.positionId = position.positionId ∧
      settlement.cycleId = position.card.cycleId ∧
      settlement.positionEvidenceDigest = position.evidenceDigest ∧ settlement.state = .prepared := by
  simp only [openedSettlement, supplementarySettlementFor, bind_eq_ok, pure_eq_ok, revertIf_eq_ok,
    not_not] at h
  obtain ⟨snapshot, -, _, -, _, hsnapshot, rfl⟩ := h
  refine ⟨?_, rfl, rfl, rfl, rfl⟩
  simp [SettlementOk, assertSupplementarySettlement, hok.positionId, hok.card.cycleId,
    hok.evidenceDigest, hsnapshot, revertIf]

/-- What a decision opens replays, when the position has no settlement yet. -/
theorem decidedSettlement_replays {position : HeldPosition} (hok : PositionOk X.digests position)
    (hcycle : position.card.cycleId = X.cycleId) {decision : HeldOwnerDecision}
    {settlement : Option SupplementarySettlement}
    (h : s.decidedSettlement X decision position = .ok settlement)
    (hnew : settlement.isSome → s.supplementarySettlements.get position.positionId = none) :
    ∃ next, s.applyDecidedSettlement X decision position settlement = .ok next := by
  unfold decidedSettlement at h
  by_cases hsell : decision.choice = .sell
  · simp only [hsell, if_true, bind_eq_ok, pure_eq_ok] at h
    obtain ⟨opened, hopened, rfl⟩ := h
    obtain ⟨hopenedOk, hposition, hown, hevidence, hstate⟩ := openedSettlement_ok hok hopened
    simp only [applyDecidedSettlement, applySettlement, bind_eq_ok, pure_eq_ok, revertIf_eq_ok,
      assertSupplementarySettlement_eq_ok]
    refine ⟨_, opened, ⟨hopenedOk, rfl⟩, (), ?_, opened, hopened, (), by simp, rfl⟩
    simp [hsell, hposition, hown, hcycle, hevidence, hstate, hnew rfl]
  · simp only [hsell, if_false, Except.ok.injEq] at h
    subst h
    simp only [applyDecidedSettlement, bind_eq_ok, pure_eq_ok, revertIf_eq_ok]
    exact ⟨s, (), hsell, rfl⟩

theorem commits_decision (hs : Sound X s) {positionId : Text} {input : OwnerDecisionInput}
    {p : HeldKept} {r : HeldAnswer}
    (h : s.recordHeldOwnerDecision X positionId input = .ok (.keep p)) :
    Commits X s (.recordHeldOwnerDecision positionId input) p r
      fun t => Repeats X t (.recordHeldOwnerDecision positionId input) r := by
  intro events happend
  simp only [HeldState.recordHeldOwnerDecision, assertPositionId, assertNotArchived,
    heldPositionOwnerDecisionInput, bind_eq_ok, revertIf_eq_ok, pure_eq_ok, elim_eq_ok,
    assertHeldPositionOwnerDecision_eq_ok, not_not] at h
  obtain ⟨_, hid, decision, ⟨_, hdecision, rfl⟩, current, hget, _, harchived, ⟨moved, d⟩,
    htransition, h⟩ := h
  obtain ⟨hok, hown, hcycle⟩ := hs.position positionId current hget
  cases moved with
  | none => cases h
  | some position =>
    obtain ⟨rfl, hevidence, hresolution, hrevision, hposition, hmoved⟩ :=
      ownerDecisionTransition_new htransition
    have hevidence : input.heldEvidenceDigest = current.evidenceDigest := hevidence
    have hrevision : input.expectedRevision = current.positionRevision := hrevision
    simp only [bind_eq_ok, pure_eq_ok, Reading.keep.injEq] at h
    obtain ⟨settlement, hsettlement, rfl⟩ := h
    simp only [HeldState.append, assertUnchangedDecision, bind_eq_ok, pure_eq_ok, revertIf_eq_ok,
      optionForM_eq_ok, Prod.mk.injEq] at happend
    obtain ⟨_, ⟨latest, -, transition, -, _, -, hopen⟩, rfl, rfl⟩ := happend
    have hid' : position.positionId = positionId := by rw [hmoved]; exact hown
    -- the append reads the state once more, and refuses a second settlement
    have hnew : settlement.isSome → s.supplementarySettlements.get position.positionId = none := by
      intro hsome
      obtain ⟨own, rfl⟩ := Option.isSome_iff_exists.mp hsome
      obtain ⟨_, hnone, -⟩ := hopen own rfl
      rw [hid']
      simpa using hnone
    obtain ⟨next, hnext⟩ := decidedSettlement_replays hposition
      (by rw [hmoved]; exact hcycle) hsettlement hnew
    -- the settlement first, then the position: the fields do not overlap
    let t : HeldState := { next with heldPositions := s.heldPositions.set positionId position }
    have hget' : t.heldPositions.get positionId = some position := by simp [t]
    have hresolution' : position.resolution = none := by rw [hmoved]; exact hresolution
    have hdecided : position.ownerDecision = some ⟨positionId, input.heldEvidenceDigest,
        input.requestId, input.expectedRevision, input.choice⟩ := by rw [hmoved]
    refine ⟨_, t, rfl, ?_, ?_, ?_⟩
    · simp only [HeldState.apply, applyDecision, bind_eq_ok, pure_eq_ok, revertIf_eq_ok,
        assertHeldPosition_eq_ok, assertHeldPositionOwnerDecision_eq_ok, elim_eq_ok]
      refine ⟨(), hdecision, position, ⟨hposition, rfl⟩, current, hget, (), ?_, (), ?_, next, hnext,
        ?_⟩
      · simp [hevidence, hrevision]
      · simp [hmoved]
      · rw [hid']
    · intro now' _
      have hown' : input.heldEvidenceDigest = position.evidenceDigest := by
        rw [hmoved]
        exact hevidence
      simp only [HeldCall.atTime, HeldState.read, HeldState.recordHeldOwnerDecision,
        assertPositionId, assertNotArchived, heldPositionOwnerDecisionInput, bind_eq_ok,
        revertIf_eq_ok, pure_eq_ok, elim_eq_ok, assertHeldPositionOwnerDecision_eq_ok, not_not]
      refine ⟨(), hid, _, ⟨(), hdecision, rfl⟩, position, hget', (), harchived, (none, _), ?_, rfl⟩
      -- the same decision of the same request moves nothing
      rw [ownerDecisionTransition_known hown' hresolution' hdecided rfl, if_pos rfl]
    · intro c' hvaries p'
      cases c' with
      | recordHeldOwnerDecision otherId other =>
        obtain ⟨rfl, hother⟩ := hvaries
        refine recordHeldOwnerDecision_known hget' hresolution' hdecided ?_ p'
        rw [hother]
      | _ => exact hvaries.elim

/-! ### Advances -/

/-- The native row that a return leaves, on which the return is checked again. -/
theorem checkReturn_ok {positionId : Text} {evidence : ReturnBoundaryEvidence}
    {realized : Option RealizedProceeds}
    (h : s.checkReturn X positionId evidence = .ok realized) :
    (∀ proceeds ∈ realized, realizedProceedsOf X.validateValuation proceeds
      evidence.finalizedReturnEvidence.finalityEvidence = .ok (some proceeds)) ∧
    ∃ row, supplementaryNativeReturnCustody X.assertCustodyOthers s.nativeCustody
        evidence.finalizedReturnEvidence.amountAtomic = .ok row ∧
      ∀ t : HeldState, t.nativeCustody = some row →
        t.checkReturn X positionId evidence = .ok realized := by
  simp only [checkReturn, bind_eq_ok, revertIf_eq_ok] at h
  obtain ⟨⟨source, intent, rawSignedBytes⟩, hattempt, _, hmatch, row, hrow, hrealized⟩ := h
  have hamount : evidence.finalizedReturnEvidence.finalityEvidence.observedAmountAtomic
      = evidence.finalizedReturnEvidence.amountAtomic := by
    by_contra hne
    exact hmatch (.inr (.inr (.inr (.inr (.inr (.inl hne))))))
  refine ⟨supplementaryRealizedProceeds_ok hrealized, row, hamount ▸ hrow, ?_⟩
  intro t ht
  -- the row that the return leaves takes the same return again, so the check passes on it too
  obtain ⟨again, hagain⟩ := supplementaryNativeReturnCustody_ok hrow
  simp only [checkReturn, bind_eq_ok, revertIf_eq_ok, ht]
  exact ⟨_, hattempt, (), hmatch, again, hagain, hrealized⟩

/-- The row of a boundary when it is replayed, and the evidence of the same advance on it. -/
theorem advanceEvidence_ok {positionId : Text} {input : AdvanceInput} {evidence : BoundaryEvidence}
    {realized : Option RealizedProceeds} {current : SupplementarySettlement}
    {existing : Option SettlementEvidence} {boundary : Boundary} {label : String}
    (h : s.advanceEvidence X positionId input = .ok (evidence, realized))
    (hboundary : boundaryOf X current existing input.nextState evidence label = .ok boundary) :
    ∃ row, s.boundaryCustody X current boundary
        (storedSource boundary.evidence boundary.payoutSource) realized = .ok row ∧
      ∀ t : HeldState, t.nativeCustody = row →
        t.advanceEvidence X positionId input = .ok (evidence, realized) := by
  unfold advanceEvidence at h
  split at h
  · rename_i value hinput
    simp only [bind_eq_ok, pure_eq_ok, Prod.mk.injEq] at h
    obtain ⟨own, hcheck, rfl, rfl⟩ := h
    by_cases hstate : input.nextState = .returnBroadcast
    · simp only [boundaryOf, hstate, if_true] at hboundary
      obtain ⟨hkept, ⟨source, hsource, hsourceOk, hsame⟩, -⟩ := returnBoundary_ok hboundary
      obtain ⟨hrealized, row, hrow, hagain⟩ := checkReturn_ok hcheck
      refine ⟨some row, ?_, ?_⟩
      · simp only [boundaryCustody, hkept, applyReturn, storedSource, hsource, bind_eq_ok,
          pure_eq_ok, elim_eq_ok, assertSupplementaryPayoutSource_eq_ok, revertIf_eq_ok,
          optionForM_eq_ok]
        refine ⟨source, rfl, source, ⟨hsourceOk, hsame.symm⟩, (), by simp, (), ?_, row, hrow, rfl⟩
        intro proceeds hproceeds
        exact ⟨some proceeds, hrealized proceeds hproceeds, by simp⟩
      · intro t ht
        simp only [advanceEvidence, hinput, bind_eq_ok, pure_eq_ok]
        exact ⟨own, hagain t ht, rfl⟩
    · simp [boundaryOf, hstate] at hboundary
  · rename_i value hinput
    simp only [bind_eq_ok, pure_eq_ok, Prod.mk.injEq] at h
    obtain ⟨text, htext, rfl, rfl⟩ := h
    by_cases hstate : input.nextState = .returnBroadcast
    · simp [boundaryOf, hstate] at hboundary
    · simp only [boundaryOf, hstate, if_false] at hboundary
      obtain ⟨hkept, -, -⟩ := plainBoundary_ok hboundary
      refine ⟨s.nativeCustody, ?_, ?_⟩
      · simp only [boundaryCustody, hkept]
      · intro t _
        simp only [advanceEvidence, hinput, bind_eq_ok, pure_eq_ok]
        exact ⟨text, htext, rfl⟩

/-- A settlement in the state of an advance is answered or refused. -/
theorem advanceSupplementarySettlement_known {positionId : Text} {input : AdvanceInput}
    {settlement : SupplementarySettlement}
    (hget : t.supplementarySettlements.get positionId = some settlement)
    (hstate : settlement.state = input.nextState) (p : HeldKept) :
    t.advanceSupplementarySettlement X positionId input ≠ .ok (.keep p) := by
  intro h
  simp only [HeldState.advanceSupplementarySettlement, bind_eq_ok, elim_eq_ok] at h
  obtain ⟨_, -, _, -, current, hcurrent, _, -, _, -, evidence, -, boundary, -, next, -, h⟩ := h
  rw [hget] at hcurrent
  cases hcurrent
  rw [if_pos hstate] at h
  obtain ⟨_, -, h⟩ := bind_eq_ok.mp h
  cases h

theorem commits_advance (hs : Sound X s) {positionId : Text} {input : AdvanceInput} {p : HeldKept}
    {r : HeldAnswer} (h : s.advanceSupplementarySettlement X positionId input = .ok (.keep p)) :
    Commits X s (.advanceSupplementarySettlement positionId input) p r
      fun t => Repeats X t (.advanceSupplementarySettlement positionId input) r := by
  intro events happend
  simp only [HeldState.advanceSupplementarySettlement, assertPositionId, assertNotArchived,
    bind_eq_ok, revertIf_eq_ok, elim_eq_ok, not_not] at h
  obtain ⟨_, hid, _, hnextState, current, hget, _, harchived, _, hnative, ⟨evidence, realized⟩,
    hevidence, boundary, hboundary, next, hnext, h⟩ := h
  have hown := hs.settlement positionId current hget
  split at h
  · obtain ⟨_, -, h⟩ := bind_eq_ok.mp h
    cases h
  · simp only [bind_eq_ok, pure_eq_ok, revertIf_eq_ok, not_not, Reading.keep.injEq] at h
    obtain ⟨_, hexpected, rfl⟩ := h
    simp only [HeldState.append, bind_eq_ok, pure_eq_ok, Prod.mk.injEq] at happend
    obtain ⟨_, -, _, -, rfl, rfl⟩ := happend
    obtain ⟨hnames, hstate, hpaid, hagain, hrepeat⟩ := advancedSettlement_ok hnext
    -- of the boundary: it is the same under another label, and the same again after the advance
    obtain ⟨hreplayed, hlater⟩ := boundaryOf_ok hboundary
    obtain ⟨row, hrow, hsame⟩ := advanceEvidence_ok hevidence hboundary
    have hnextId : next.positionId = positionId := hnames.positionId.trans hown
    let t : HeldState := { s with
      supplementarySettlements := s.supplementarySettlements.set positionId next
      supplementarySettlementEvidence := s.supplementarySettlementEvidence.set positionId
        (some (boundaryRecord X next boundary))
      nativeCustody := row }
    have hget' : t.supplementarySettlements.get positionId = some next := by simp [t]
    have hrecord : t.settlementEvidence positionId = some (boundaryRecord X next boundary) := by
      simp [settlementEvidence, t]
    refine ⟨_, t, rfl, ?_, ?_, ?_⟩
    · simp only [HeldState.apply, applyAdvanced, bind_eq_ok, pure_eq_ok, revertIf_eq_ok, elim_eq_ok,
        not_not, hstate]
      refine ⟨(), hid, current, hget, (), ?_, boundary, hreplayed _, row, hrow, next, hagain _, ?_⟩
      · simp [hexpected, hnextState]
      · rw [hnextId]
    · intro now' _
      simp only [HeldCall.atTime, HeldState.read, HeldState.advanceSupplementarySettlement,
        assertPositionId, assertNotArchived, bind_eq_ok, revertIf_eq_ok, elim_eq_ok, not_not]
      refine ⟨(), hid, (), hnextState, next, hget', (), harchived, (), hnative, (evidence, realized),
        hsame t rfl, boundary, ?_, next, hrepeat _, ?_⟩
      · rw [hrecord]
        exact hlater next _ hnames hstate hpaid
      · simp [hstate, hrecord, revertIf]
    · intro c' hvaries p'
      cases c' with
      | advanceSupplementarySettlement otherId other =>
        obtain ⟨rfl, hother⟩ := hvaries
        refine advanceSupplementarySettlement_known hget' ?_ p'
        rw [hstate, hother]
      | _ => exact hvaries.elim

/-! ### Resolutions -/

theorem heldPositionResolutionInput_ok {position : HeldPosition} {input : ResolutionInput}
    {nowMs : Int} {resolution : HeldResolution}
    (h : heldPositionResolutionInput X.digests position input nowMs = .ok resolution) :
    input.expectedRevision = position.positionRevision ∧ ResolutionOk resolution ∧
      resolution.evidenceDigest =
        resolutionDigest X.digests position resolution.terminalState resolution.evidence := by
  simp only [heldPositionResolutionInput, bind_eq_ok, pure_eq_ok, revertIf_eq_ok, ne_eq, not_not,
    assertHeldPositionResolution_eq_ok] at h
  obtain ⟨_, -, _, -, _, hrevision, evidence, -, _, hok, rfl⟩ := h
  exact ⟨hrevision, hok, rfl⟩

/-- A resolved position is answered at its revision, and refused otherwise. -/
theorem resolveHeldPosition_known {positionId : Text} {input : ResolutionInput} {now : Int}
    {position : HeldPosition} {previous : HeldResolution}
    (hget : t.heldPositions.get positionId = some position)
    (hresolution : position.resolution = some previous) {reading : Reading HeldKept HeldAnswer}
    (h : t.resolveHeldPosition X positionId input now = .ok reading) :
    input.expectedRevision = position.positionRevision ∧ reading = .answer (.position position) ∧
      ∀ now', t.resolveHeldPosition X positionId input now' = .ok reading := by
  simp only [HeldState.resolveHeldPosition, bind_eq_ok, elim_eq_ok] at h
  obtain ⟨_, hid, current, hcurrent, _, harchived, _, hsold, h⟩ := h
  rw [hget] at hcurrent
  cases hcurrent
  simp only [hresolution, bind_eq_ok, pure_eq_ok] at h
  obtain ⟨resolution, hinput, _, hsame, rfl⟩ := h
  refine ⟨(heldPositionResolutionInput_ok hinput).1, rfl, ?_⟩
  intro now'
  simp only [HeldState.resolveHeldPosition, bind_eq_ok, elim_eq_ok]
  refine ⟨(), hid, position, hget, (), harchived, (), hsold, ?_⟩
  simp only [hresolution, bind_eq_ok, pure_eq_ok]
  exact ⟨resolution, hinput, (), hsame, trivial⟩

/-- The commit of a resolution moves the revision, so that its repetition is refused. -/
theorem commits_resolution (hs : Sound X s) {positionId : Text} {input : ResolutionInput}
    {now : Int} {p : HeldKept} {r : HeldAnswer}
    (h : s.resolveHeldPosition X positionId input now = .ok (.keep p)) :
    Commits X s (.resolveHeldPosition positionId input now) p r
      fun t => ¬ Repeats X t (.resolveHeldPosition positionId input now) r := by
  intro events happend
  simp only [HeldState.resolveHeldPosition, bind_eq_ok, revertIf_eq_ok, elim_eq_ok] at h
  obtain ⟨_, -, current, hget, _, -, _, -, h⟩ := h
  obtain ⟨hok, hown, -⟩ := hs.position positionId current hget
  split at h
  · simp only [bind_eq_ok, pure_eq_ok] at h
    obtain ⟨_, -, _, -, h⟩ := h
    cases h
  · rename_i hresolution
    simp only [bind_eq_ok, pure_eq_ok, assertHeldPosition_eq_ok, Reading.keep.injEq] at h
    obtain ⟨resolvedAtMs, -, resolution, hinput, position, ⟨hposition, hmoved⟩, rfl⟩ := h
    obtain ⟨hrevision, hresolutionOk, hdigest⟩ := heldPositionResolutionInput_ok hinput
    simp only [HeldState.append, bind_eq_ok, pure_eq_ok, Prod.mk.injEq] at happend
    obtain ⟨_, -, rfl, rfl⟩ := happend
    have hpositionOk : PositionOk X.digests position := hmoved ▸ hposition
    have hpositionId : position.positionId = positionId := by rw [hmoved]; exact hown
    let t : HeldState := { s with heldPositions := s.heldPositions.set positionId position }
    have hget' : t.heldPositions.get positionId = some position := by simp [t]
    have hresolved : position.resolution = some resolution := by rw [hmoved]
    refine ⟨_, t, rfl, ?_, ?_, ?_⟩
    · simp only [HeldState.apply, applyResolved, bind_eq_ok, pure_eq_ok, revertIf_eq_ok,
        assertHeldPosition_eq_ok, assertHeldPositionResolution_eq_ok, elim_eq_ok]
      refine ⟨(), hresolutionOk, position, ⟨hpositionOk, rfl⟩, current, hget, (), ?_, position,
        ⟨hposition, hmoved⟩, (), by simp, ?_⟩
      · simp [hresolution, hpositionId, ← hdigest]
      · rw [hpositionId]
    -- the revision of the call is that of the position before the commit
    · intro hrepeats
      have hread := hrepeats 0 (by decide)
      obtain ⟨hagain, -, -⟩ := resolveHeldPosition_known hget' hresolved hread
      rw [hrevision, hmoved] at hagain
      simp at hagain
    · intro c' hvaries p' hkeep
      cases c' with
      | resolveHeldPosition otherId other now' =>
        obtain ⟨rfl, -⟩ := hvaries
        obtain ⟨-, hanswer, -⟩ := resolveHeldPosition_known hget' hresolved hkeep
        cases hanswer
      | _ => exact hvaries.elim

/-! ## Calls that only answer -/

/-- A call that is answered without a commit is answered so at any time. -/
theorem repeats_of_answer {c : HeldCall} {r : HeldAnswer} (h : s.read X c = .ok (.answer r)) :
    Repeats X s c r := by
  intro now' hnow'
  cases c with
  | recordHeldPosition input now =>
    simp only [HeldState.read, HeldState.recordHeldPosition, bind_eq_ok, revertIf_eq_ok] at h
    obtain ⟨openedAtMs, -, ⟨position, evidence⟩, hinput, _, hcost, h⟩ := h
    have hcost : X.native ∧ some position.card.costMicroUsd = X.committedCost := by
      simpa using hcost
    cases hget : s.heldPositions.get position.positionId with
    | none =>
      simp only [hget, bind_eq_ok, pure_eq_ok] at h
      obtain ⟨_, -, h⟩ := h
      cases h
    | some existing =>
      simp only [hget] at h
      split at h
      · rename_i hdigest
        cases h
        exact recordHeldPosition_again hinput hcost hget hdigest hnow'
      · cases h
  | recordHeldPositionIdentity positionId input now =>
    simp only [HeldState.read, HeldState.recordHeldPositionIdentity, assertPositionId, bind_eq_ok,
      revertIf_eq_ok, not_not, elim_eq_ok] at h
    obtain ⟨_, hid, current, hget, _, hresolution, _, hmint, h⟩ := h
    cases hidentity : current.identity with
    | none =>
      simp only [hidentity, bind_eq_ok, pure_eq_ok] at h
      obtain ⟨_, -, _, -, _, -, _, -, _, -, h⟩ := h
      cases h
    | some identity =>
      have hknown := @recordHeldPositionIdentity_known X _ _ input now' _ _ hid
        hget (by simpa using hresolution) (by simpa using hmint) hidentity
      simp only [hidentity] at h
      exact hknown.trans h
  | recordHeldOwnerDecision positionId input => exact h
  | advanceSupplementarySettlement positionId input => exact h
  | resolveHeldPosition positionId input now =>
    simp only [HeldState.read] at h
    have hread := h
    simp only [HeldState.resolveHeldPosition, bind_eq_ok, elim_eq_ok] at h
    obtain ⟨_, -, current, hget, _, -, _, -, h⟩ := h
    cases hresolution : current.resolution with
    | none =>
      simp only [hresolution, bind_eq_ok, pure_eq_ok] at h
      obtain ⟨_, -, _, -, _, -, h⟩ := h
      cases h
    | some previous =>
      exact (resolveHeldPosition_known hget hresolution hread).2.2 now'
  | append fact => cases h

/-! ## Every call -/

def HeldCall.resolves : HeldCall → Bool
  | .resolveHeldPosition _ _ _ => true
  | _ => false

/-- After the commit of a writer its repetition is answered, unless it is a resolution. -/
theorem commits_of_keep (hs : Sound X s) {c : HeldCall} (hc : c.writes) {p : HeldKept}
    {r : HeldAnswer} (h : s.read X c = .ok (.keep p)) :
    Commits X s c p r fun t => Repeats X t c r ↔ ¬ HeldCall.resolves c := by
  intro events happend
  cases c with
  | recordHeldPosition input now =>
    obtain ⟨e, t, he, ht, hrepeats, hsettled⟩ := commits_position hs h events happend
    exact ⟨e, t, he, ht, by simp [hrepeats, HeldCall.resolves], hsettled⟩
  | recordHeldPositionIdentity positionId input now =>
    obtain ⟨e, t, he, ht, hrepeats, hsettled⟩ := commits_identity hs h events happend
    exact ⟨e, t, he, ht, by simp [hrepeats, HeldCall.resolves], hsettled⟩
  | recordHeldOwnerDecision positionId input =>
    obtain ⟨e, t, he, ht, hrepeats, hsettled⟩ := commits_decision hs h events happend
    exact ⟨e, t, he, ht, by simp [hrepeats, HeldCall.resolves], hsettled⟩
  | advanceSupplementarySettlement positionId input =>
    obtain ⟨e, t, he, ht, hrepeats, hsettled⟩ := commits_advance hs h events happend
    exact ⟨e, t, he, ht, by simp [hrepeats, HeldCall.resolves], hsettled⟩
  | resolveHeldPosition positionId input now =>
    obtain ⟨e, t, he, ht, hrepeats, hsettled⟩ := commits_resolution hs h events happend
    exact ⟨e, t, he, ht, by simp [hrepeats, HeldCall.resolves], hsettled⟩
  | append fact => cases hc

/-- A call to resolve gets to a commit exactly when its position is not resolved. -/
theorem resolveHeldPosition_cases {positionId : Text} {input : ResolutionInput} {now : Int}
    {reading : Reading HeldKept HeldAnswer}
    (h : s.resolveHeldPosition X positionId input now = .ok reading) :
    ∃ position, s.heldPositions.get positionId = some position ∧
      (position.resolution = none ↔ ∃ p, reading = .keep p) := by
  simp only [HeldState.resolveHeldPosition, bind_eq_ok, elim_eq_ok] at h
  obtain ⟨_, -, current, hget, _, -, _, -, h⟩ := h
  refine ⟨current, hget, ?_⟩
  cases hresolution : current.resolution with
  | none =>
    simp only [hresolution, bind_eq_ok, pure_eq_ok] at h
    obtain ⟨_, -, _, -, _, -, rfl⟩ := h
    simp
  | some previous =>
    simp only [hresolution, bind_eq_ok, pure_eq_ok] at h
    obtain ⟨_, -, _, -, rfl⟩ := h
    simp

/-- The state to which a journal replays. -/
def Replays (X : HeldContext) (journal : List HeldEvent) (s : HeldState) : Prop :=
  replay (fun s e => s.apply X e) HeldState.empty journal = .ok s

theorem Replays.sound {journal : List HeldEvent} (h : Replays X journal s) : Sound X s :=
  replay_invariant (I := fun _ s => Sound X s) (.empty X) (fun _ _ _ _ hs he => hs.apply he) h

/-- The call resolves a position that is not resolved yet. -/
def FirstResolution (X : HeldContext) (journal : List HeldEvent) (c : HeldCall) : Prop :=
  ∃ positionId input now s position, c = .resolveHeldPosition positionId input now ∧
    Replays X journal s ∧ s.heldPositions.get positionId = some position ∧
    position.resolution = none

theorem firstResolution_iff {journal : List HeldEvent} (hs : Replays X journal s) {c : HeldCall}
    {reading : Reading HeldKept HeldAnswer} (h : s.read X c = .ok reading) :
    FirstResolution X journal c ↔ HeldCall.resolves c ∧ ∃ p, reading = .keep p := by
  constructor
  · rintro ⟨positionId, input, now, s', position, rfl, hs', hget, hresolution⟩
    cases Except.ok.inj (hs.symm.trans hs')
    obtain ⟨current, hcurrent, hiff⟩ := resolveHeldPosition_cases h
    rw [hget] at hcurrent
    cases hcurrent
    exact ⟨rfl, hiff.mp hresolution⟩
  · rintro ⟨hresolves, hkeep⟩
    cases c with
    | resolveHeldPosition positionId input now =>
      obtain ⟨current, hcurrent, hiff⟩ := resolveHeldPosition_cases h
      exact ⟨positionId, input, now, s, current, rfl, hs, hcurrent, hiff.mpr hkeep⟩
    | _ => cases hresolves

variable {fits : List HeldEvent → List HeldEvent → Bool}

/-- A writer that succeeded answers its repetition in the same way without writing, and after its
commit no call that differs in its evidence or its choice commits, exactly when the call was not
the resolution of a position. -/
theorem heldWriters_repeat_iff {journal after : List HeldEvent} {c : HeldCall} {r : HeldAnswer}
    (hc : c.writes) (h : (heldWriters X fits).perform journal c = .ok (after, r)) :
    ((∀ now, isSafeNatural now →
        (heldWriters X fits).service.read after (c.atTime now) = .ok (.answer r)) ∧
      (after ≠ journal → ∀ c', c.Varies c' → ∀ p,
        (heldWriters X fits).service.read after c' ≠ .ok (.keep p))) ↔
      ¬ FirstResolution X journal c := by
  obtain ⟨s, hs, hcases⟩ := Writers.perform_ok h
  have hsound := Replays.sound hs
  rcases hcases with ⟨hread, rfl⟩ | ⟨p, events, hread, happend, rfl⟩
  · have hrepeats := repeats_of_answer hread
    rw [firstResolution_iff hs hread]
    constructor
    · rintro - ⟨-, p, hkeep⟩
      cases hkeep
    · intro _
      refine ⟨?_, fun hne => absurd rfl hne⟩
      intro now hnow
      exact (Writers.service_read_eq_ok hs).mpr (hrepeats now hnow)
  · obtain ⟨e, t, rfl, ht, hrepeats, hsettled⟩ := commits_of_keep hsound hc hread events happend
    have hafter : replay (heldWriters X fits).apply (heldWriters X fits).init (journal ++ [e])
        = .ok t := replay_concat.mpr ⟨s, hs, ht⟩
    rw [firstResolution_iff hs hread]
    constructor
    · rintro ⟨hanswers, -⟩ ⟨hresolves, -⟩
      refine hrepeats.mp ?_ hresolves
      intro now hnow
      exact (Writers.service_read_eq_ok hafter).mp (hanswers now hnow)
    · intro hnot
      have hresolves : ¬ HeldCall.resolves c := fun hresolves => hnot ⟨hresolves, p, rfl⟩
      constructor
      · intro now hnow
        exact (Writers.service_read_eq_ok hafter).mpr (hrepeats.mpr hresolves now hnow)
      · intro _ c' hvaries p' hkeep
        exact hsettled c' hvaries p' ((Writers.service_read_eq_ok hafter).mp hkeep)

/-! ## A resolution that is repeated -/

def samplePositionId : Text := text "held:" ++ List.replicate 64 97

def sampleDigest : Text := text "sha256:" ++ List.replicate 64 97

/-- A native cycle in which every digest is the same. -/
def sampleHeld : HeldContext where
  cycleId := text "cycle-1"
  native := true
  committedCost := some (text "5000000")
  archived := false
  digests :=
    { heldPositionId _ _ _ _ := samplePositionId
      evidenceDigest _ _ := sampleDigest
      identityEvidenceDigest _ _ _ _ := sampleDigest
      resolutionEvidenceDigest _ _ _ _ _ := sampleDigest }
  settlementDigests :=
    { returnBinding _ := sampleDigest
      payoutSource _ := sampleDigest
      boundary _ _ _ _ _ := sampleDigest }
  snapshotDigest _ := sampleDigest
  returnSource _ := none
  isProcessProof _ _ := false
  signedDigest _ := sampleDigest
  assertCustodyOthers _ := .ok ()
  validateValuation _ := .ok ()
  reserve _ _ := .ok ()

def sampleCard : HeldCard where
  cycleId := text "cycle-1"
  packId := text "base-a"
  memo := text "m0"
  mint := none
  cardRef := text "card-0"
  costMicroUsd := text "5000000"
  valueMicroUsd := text "5000000"
  insuredValue := none
  reason := text "BUYBACK_UNAVAILABLE"
  terminalState := .heldUnavailable

def samplePosition : HeldPosition where
  positionId := samplePositionId
  card := sampleCard
  evidenceDigest := sampleDigest
  openedAtMs := 1
  positionRevision := 0
  ownerDecision := none
  resolution := none
  identity := none

/-- The position is held. -/
def heldJournal : List HeldEvent := [.heldPositionRecorded samplePosition (text "{}")]

/-- The card was never sent, so that the position is done with. -/
def sampleResolution : HeldCall :=
  .resolveHeldPosition samplePositionId ⟨sampleDigest, 0, .neverSent, .object []⟩ 2

/-- The owner keeps the card. -/
def sampleDecision : HeldCall :=
  .recordHeldOwnerDecision samplePositionId ⟨sampleDigest, text "request-1", 0, .keepHolding⟩

/-- A journal takes any events. -/
def sampleWriters : Writers HeldState HeldEvent HeldCall HeldKept HeldAnswer :=
  heldWriters sampleHeld fun _ _ => true

/-- The resolution is committed, and its repetition is refused. -/
theorem sampleResolution_refused :
    ((sampleWriters.perform heldJournal sampleResolution).toOption.any fun result =>
      (sampleWriters.service.read result.1 sampleResolution).toOption.isNone) = true := by
  decide +kernel

theorem sampleDecision_performed :
    ((sampleWriters.perform heldJournal sampleDecision).toOption.any fun result =>
      decide (result.1.length = 2)) = true := by
  decide +kernel

/-- The repetition of a resolution does not succeed. -/
theorem resolution_not_repeatable : ¬ ∀ (X : HeldContext)
    (fits : List HeldEvent → List HeldEvent → Bool) (journal after : List HeldEvent) (c : HeldCall)
    (r : HeldAnswer), c.writes → (heldWriters X fits).perform journal c = .ok (after, r) →
      (∀ now, isSafeNatural now →
        (heldWriters X fits).service.read after (c.atTime now) = .ok (.answer r)) ∧
      (after ≠ journal → ∀ c', c.Varies c' → ∀ p,
        (heldWriters X fits).service.read after c' ≠ .ok (.keep p)) := by
  intro hclaim
  obtain ⟨⟨after, r⟩, hperform, hrefused⟩ := exists_ok_of_check sampleResolution_refused
  have hrepeats := (hclaim sampleHeld _ heldJournal after sampleResolution r rfl hperform).1 2 rfl
  rw [show sampleResolution.atTime 2 = sampleResolution from rfl] at hrepeats
  rw [show sampleWriters.service.read after sampleResolution = _ from hrepeats] at hrefused
  cases hrefused

/-- The decision of the owner is answered again. -/
theorem heldWriters_repeat_sample :
    ∃ after r, sampleWriters.perform heldJournal sampleDecision = .ok (after, r) ∧
      after.length = 2 ∧
      (∀ now, isSafeNatural now →
        sampleWriters.service.read after (sampleDecision.atTime now) = .ok (.answer r)) ∧
      (after ≠ heldJournal → ∀ c', sampleDecision.Varies c' → ∀ p,
        sampleWriters.service.read after c' ≠ .ok (.keep p)) := by
  obtain ⟨⟨after, r⟩, hperform, hlength⟩ := exists_ok_of_check sampleDecision_performed
  have hfirst : ¬ FirstResolution sampleHeld heldJournal sampleDecision := by
    rintro ⟨_, _, _, _, _, hcall, -⟩
    cases hcall
  obtain ⟨hrepeats, hsettled⟩ := (heldWriters_repeat_iff (X := sampleHeld) rfl hperform).mpr hfirst
  exact ⟨after, r, hperform, of_decide_eq_true hlength, hrepeats, hsettled⟩

end HeldState

end Hookemon.Repository.Held
