import Hookemon.Repository.HeldWriters

/-! # What the checks of held positions establish

A check of a record names its field in the error, so it takes a label. Whether it passes does not
depend on that: the lemmas here say what a check that passes has established, and that a record
that was checked once passes again.
-/

namespace Hookemon.Repository.Held

open Hookemon.Core Hookemon.Js Hookemon.Runner

variable {label : String} {u : Unit}

/-- A check of a value that may be missing. -/
theorem optionForM_eq_ok {α : Type} {value : Option α} {check : α → Except String Unit} :
    value.forM check = .ok u ↔ ∀ a ∈ value, check a = .ok () := by
  cases value with
  | none => simp [Option.forM, pure, Except.pure]
  | some a => simp [Option.forM]

theorem assertHeldPositionText_eq_ok {value : Text} :
    assertHeldPositionText value label = .ok u ↔ ¬ (value = [] ∨ 512 < value.length) :=
  revertIf_eq_ok

theorem assertHeldPositionAtomic_eq_ok {value : Text} :
    assertHeldPositionAtomic value label = .ok u ↔ isDecimal value := by
  unfold assertHeldPositionAtomic
  rw [revertIf_eq_ok, not_not]

theorem currentRepositoryTime_eq_ok {now t : Int} :
    currentRepositoryTime now = .ok t ↔ isSafeNatural now ∧ now = t := by
  simp only [currentRepositoryTime, bind_eq_ok, revertIf_eq_ok, pure_eq_ok, not_not, exists_const]

/-! ## Positions -/

def AmountOk (amount : TypedAmount) : Prop := assertCost amount "" = .ok ()

theorem assertCost_eq_ok {amount : TypedAmount} : assertCost amount label = .ok u ↔ AmountOk amount := by
  simp only [AmountOk, assertCost, bind_eq_ok, revertIf_eq_ok]

def CardOk (card : HeldCard) : Prop := assertHeldCard card "" = .ok ()

theorem assertHeldCard_eq_ok {card : HeldCard} :
    assertHeldCard card label = .ok u ↔ CardOk card := by
  simp only [CardOk, assertHeldCard, bind_eq_ok, revertIf_eq_ok, optionForM_eq_ok,
    assertHeldPositionText_eq_ok, assertHeldPositionAtomic_eq_ok, assertCost_eq_ok]

theorem CardOk.cycleId {card : HeldCard} (h : CardOk card) : card.cycleId ≠ [] := by
  simp only [CardOk, assertHeldCard, bind_eq_ok, assertHeldPositionText_eq_ok, not_or] at h
  obtain ⟨_, hcycle, -⟩ := h
  exact hcycle.1

def ProvenanceOk (provenance : HeldProvenance) (mint memo : Text) : Prop :=
  assertHeldProvenance provenance mint memo "" = .ok ()

theorem assertHeldProvenance_eq_ok {provenance : HeldProvenance} {mint memo : Text} :
    assertHeldProvenance provenance mint memo label = .ok u ↔ ProvenanceOk provenance mint memo := by
  simp only [ProvenanceOk, assertHeldProvenance, bind_eq_ok, revertIf_eq_ok]

def IdentityOk (identity : HeldIdentity) (memo : Text) : Prop :=
  assertHeldPositionIdentity identity memo "" = .ok ()

theorem assertHeldPositionIdentity_eq_ok {identity : HeldIdentity} {memo : Text} :
    assertHeldPositionIdentity identity memo label = .ok u ↔ IdentityOk identity memo := by
  simp only [IdentityOk, assertHeldPositionIdentity, bind_eq_ok, revertIf_eq_ok,
    assertHeldPositionText_eq_ok, assertHeldProvenance_eq_ok]

def DecisionOk (decision : HeldOwnerDecision) : Prop :=
  assertHeldPositionOwnerDecision decision "" = .ok ()

theorem assertHeldPositionOwnerDecision_eq_ok {decision : HeldOwnerDecision} :
    assertHeldPositionOwnerDecision decision label = .ok u ↔ DecisionOk decision := by
  simp only [DecisionOk, assertHeldPositionOwnerDecision, bind_eq_ok, revertIf_eq_ok]

def ResolutionOk (resolution : HeldResolution) : Prop :=
  assertHeldPositionResolution resolution "" = .ok ()

theorem assertHeldPositionResolution_eq_ok {resolution : HeldResolution} :
    assertHeldPositionResolution resolution label = .ok u ↔ ResolutionOk resolution := by
  simp only [ResolutionOk, assertHeldPositionResolution, bind_eq_ok, revertIf_eq_ok]

def DecisionBound (value : HeldPosition) : Prop := assertBoundDecision value "" = .ok ()

theorem assertBoundDecision_eq_ok {value : HeldPosition} :
    assertBoundDecision value label = .ok u ↔ DecisionBound value := by
  unfold DecisionBound assertBoundDecision
  cases value.ownerDecision with
  | none => simp only [revertIf_eq_ok]
  | some decision =>
    simp only [bind_eq_ok, revertIf_eq_ok, assertHeldPositionOwnerDecision_eq_ok]

variable {D : HeldDigests}

def ResolutionBound (D : HeldDigests) (value : HeldPosition) : Prop :=
  assertBoundResolution D value "" = .ok ()

theorem assertBoundResolution_eq_ok {value : HeldPosition} :
    assertBoundResolution D value label = .ok u ↔ ResolutionBound D value := by
  simp only [ResolutionBound, assertBoundResolution, optionForM_eq_ok, bind_eq_ok, revertIf_eq_ok,
    assertHeldPositionResolution_eq_ok]

/-- A position that is accepted. -/
structure PositionOk (D : HeldDigests) (value : HeldPosition) : Prop where
  positionId : isHeldPositionId value.positionId
  card : CardOk value.card
  bindsCard : value.positionId =
    D.heldPositionId value.card.cycleId value.card.memo value.card.mint value.card.cardRef
  evidenceDigest : isDigest value.evidenceDigest
  openedAtMs : isSafeNatural value.openedAtMs
  positionRevision : isSafeNatural value.positionRevision
  ownerDecision : DecisionBound value
  resolution : ResolutionBound D value
  identity : ∀ identity ∈ value.identity, IdentityOk identity value.card.memo

theorem assertHeldPosition_eq_ok {value w : HeldPosition} :
    assertHeldPosition D value label = .ok w ↔ PositionOk D value ∧ w = value := by
  simp only [assertHeldPosition, bind_eq_ok, revertIf_eq_ok, optionForM_eq_ok, pure_eq_ok,
    assertHeldCard_eq_ok, assertBoundDecision_eq_ok, assertBoundResolution_eq_ok,
    assertHeldPositionIdentity_eq_ok, not_not]
  constructor
  · rintro ⟨_, hid, _, hcard, _, hbinds, _, hdigest, _, hopened, _, hrevision, _, hdecision, _,
      hresolution, _, hidentity, rfl⟩
    exact ⟨⟨hid, hcard, hbinds, hdigest, hopened, hrevision, hdecision, hresolution, hidentity⟩,
      rfl⟩
  · rintro ⟨h, rfl⟩
    exact ⟨(), h.positionId, (), h.card, (), h.bindsCard, (), h.evidenceDigest, (), h.openedAtMs,
      (), h.positionRevision, (), h.ownerDecision, (), h.resolution, (), h.identity, rfl⟩

/-- The time of its opening does not matter. -/
theorem PositionOk.openedAt {value : HeldPosition} (h : PositionOk D value) {t : Int}
    (ht : isSafeNatural t) : PositionOk D { value with openedAtMs := t } :=
  { h with openedAtMs := ht }

/-- A verified identity may be added. -/
theorem PositionOk.identified {value : HeldPosition} (h : PositionOk D value)
    {identity : HeldIdentity} (hidentity : IdentityOk identity value.card.memo) :
    PositionOk D { value with identity := some identity } := by
  refine { h with identity := ?_ }
  intro own hown
  cases hown
  exact hidentity

/-- The position of an input, at its time. -/
theorem heldPositionInput_ok {cycleId evidence : Text} {input : HeldPositionInput} {t : Int}
    {position : HeldPosition} (h : heldPositionInput D cycleId input t = .ok (position, evidence)) :
    PositionOk D position ∧ position.card = input.card cycleId ∧
      position.positionId = D.heldPositionId cycleId input.memo input.mint input.cardRef ∧
      position.evidenceDigest = D.evidenceDigest position.card evidence ∧
      ∀ t', isSafeNatural t' →
        heldPositionInput D cycleId input t' = .ok ({ position with openedAtMs := t' }, evidence) := by
  simp only [heldPositionInput, bind_eq_ok, pure_eq_ok, revertIf_eq_ok, assertHeldPosition_eq_ok,
    Prod.mk.injEq] at h
  obtain ⟨own, hevidence, _, hledger, first, ⟨hfirst, rfl⟩, second, ⟨hsecond, rfl⟩, rfl, rfl⟩ := h
  refine ⟨hsecond, rfl, rfl, rfl, ?_⟩
  intro t' ht'
  simp only [heldPositionInput, bind_eq_ok, pure_eq_ok, revertIf_eq_ok, assertHeldPosition_eq_ok,
    Prod.mk.injEq]
  exact ⟨own, hevidence, (), hledger, _, ⟨hfirst.openedAt ht', rfl⟩, _, ⟨hsecond.openedAt ht', rfl⟩,
    rfl, rfl⟩

/-! ## Settlements -/

def SettlementOk (value : SupplementarySettlement) : Prop :=
  assertSupplementarySettlement value "" = .ok value

theorem assertSupplementarySettlement_eq_ok {value w : SupplementarySettlement} :
    assertSupplementarySettlement value label = .ok w ↔ SettlementOk value ∧ w = value := by
  simp only [SettlementOk, assertSupplementarySettlement]
  by_cases hstate : value.state ∈ [.returnBroadcast, .payoutBroadcast, .complete]
  · simp only [hstate, if_true, bind_eq_ok, revertIf_eq_ok, pure_eq_ok, exists_const]
    grind
  · simp only [hstate, if_false, bind_eq_ok, revertIf_eq_ok, pure_eq_ok, exists_const]
    grind

theorem assertEvmAddress_eq_ok {value w : Text} :
    assertEvmAddress value label = .ok w ↔ isAddress value ∧ w = toLowerCase value := by
  simp only [assertEvmAddress, bind_eq_ok, revertIf_eq_ok, pure_eq_ok, not_not, exists_const]
  constructor
  · rintro ⟨h, rfl⟩
    exact ⟨h, rfl⟩
  · rintro ⟨h, rfl⟩
    exact ⟨h, rfl⟩

/-- The record names the settlement. -/
def Binds (settlement : SupplementarySettlement) (positionId cycleId manifestId : Text) : Prop :=
  positionId = settlement.positionId ∧ cycleId = settlement.cycleId ∧
    manifestId = settlement.manifestId

theorem assertBindsSettlement_eq_ok {settlement : SupplementarySettlement}
    {positionId cycleId manifestId : Text} :
    assertBindsSettlement settlement positionId cycleId manifestId label = .ok u ↔
      Binds settlement positionId cycleId manifestId := by
  simp only [assertBindsSettlement, revertIf_eq_ok, Binds, not_or, not_not]

/-- A lower case address is one, and its own lower case. -/
theorem isAddress_toLowerCase {value : Text} (h : isAddress value) :
    isAddress (toLowerCase value) ∧ toLowerCase (toLowerCase value) = toLowerCase value := by
  simp only [isAddress, hasShape, Bool.and_eq_true, beq_iff_eq, List.all_eq_true] at h
  obtain ⟨⟨hlead, hlength⟩, hdigits⟩ := h
  have hlower : isLowerAddress (toLowerCase value) := by
    simp only [isLowerAddress, hasShape, Bool.and_eq_true, beq_iff_eq, List.all_eq_true,
      toLowerCase_eq, ← List.map_take, ← List.map_drop, List.length_map, hlead]
    refine ⟨⟨rfl, hlength⟩, ?_⟩
    intro c hc
    obtain ⟨d, hd, rfl⟩ := List.mem_map.mp hc
    exact isLowerHexDigit_lowerUnit (hdigits d hd)
  refine ⟨?_, toLowerCase_address hlower⟩
  simp only [isLowerAddress, isAddress, hasShape, Bool.and_eq_true, List.all_eq_true] at hlower ⊢
  exact ⟨hlower.1, fun c hc => isHexDigit_of_lower (hlower.2 c hc)⟩

/-- The evidence of a finalized return that is accepted. -/
structure FinalizedOk (settlement : SupplementarySettlement) (value : FinalizedReturnEvidence) :
    Prop where
  schema : value.schema = finalizedReturnSchema
  binds : Binds settlement value.positionId value.cycleId value.manifestId
  operations : isAddress value.operations
  assetId : value.assetId = nativeAsset
  amountAtomic : isDecimal value.amountAtomic

theorem assertSupplementaryFinalizedReturnEvidence_eq_ok {settlement : SupplementarySettlement}
    {value w : FinalizedReturnEvidence} :
    assertSupplementaryFinalizedReturnEvidence settlement value label = .ok w ↔
      FinalizedOk settlement value ∧
        w = { value with operations := toLowerCase value.operations } := by
  simp only [assertSupplementaryFinalizedReturnEvidence, bind_eq_ok, revertIf_eq_ok, pure_eq_ok,
    assertBindsSettlement_eq_ok, assertEvmAddress_eq_ok, assertNativeAssetId,
    assertHeldPositionAtomic_eq_ok, not_not]
  constructor
  · rintro ⟨_, hschema, _, hbinds, operations, ⟨hoperations, rfl⟩, _, hasset, _, hamount, rfl⟩
    exact ⟨⟨hschema, hbinds, hoperations, hasset, hamount⟩, rfl⟩
  · rintro ⟨h, rfl⟩
    exact ⟨(), h.schema, (), h.binds, _, ⟨h.operations, rfl⟩, (), h.assetId, (), h.amountAtomic,
      rfl⟩

/-- The evidence of a return boundary that is accepted. -/
structure BoundaryOk (settlement : SupplementarySettlement) (value : ReturnBoundaryEvidence) :
    Prop where
  schema : value.schema = returnBoundarySchema
  binds : Binds settlement value.positionId value.cycleId value.manifestId
  finalized : FinalizedOk settlement value.finalizedReturnEvidence

/-- The evidence of a return boundary as it is kept. -/
def keptBoundary (value : ReturnBoundaryEvidence) : ReturnBoundaryEvidence :=
  { value with finalizedReturnEvidence :=
    { value.finalizedReturnEvidence with
      operations := toLowerCase value.finalizedReturnEvidence.operations } }

theorem assertSupplementaryReturnBoundaryEvidence_eq_ok {settlement : SupplementarySettlement}
    {value w : ReturnBoundaryEvidence} :
    assertSupplementaryReturnBoundaryEvidence settlement value label = .ok w ↔
      BoundaryOk settlement value ∧ w = keptBoundary value := by
  simp only [assertSupplementaryReturnBoundaryEvidence, bind_eq_ok, revertIf_eq_ok, pure_eq_ok,
    assertBindsSettlement_eq_ok, assertSupplementaryFinalizedReturnEvidence_eq_ok, not_not]
  constructor
  · rintro ⟨_, hschema, _, hbinds, finalized, ⟨hfinalized, rfl⟩, rfl⟩
    exact ⟨⟨hschema, hbinds, hfinalized⟩, rfl⟩
  · rintro ⟨h, rfl⟩
    exact ⟨(), h.schema, (), h.binds, _, ⟨h.finalized, rfl⟩, rfl⟩

/-- What is kept of a boundary is accepted again, and kept as it is. -/
theorem BoundaryOk.kept {settlement : SupplementarySettlement} {value : ReturnBoundaryEvidence}
    (h : BoundaryOk settlement value) :
    BoundaryOk settlement (keptBoundary value) ∧
      keptBoundary (keptBoundary value) = keptBoundary value := by
  have haddress := isAddress_toLowerCase h.finalized.operations
  refine ⟨⟨h.schema, h.binds, { h.finalized with operations := haddress.1 }⟩, ?_⟩
  simp only [keptBoundary, haddress.2]

def NativeAmountOk (value : TypedAmount) : Prop :=
  assertSupplementaryPayoutSourceAmount value nativeAsset "" = .ok ()

theorem assertSupplementaryPayoutSourceAmount_eq_ok {value : TypedAmount} {assetId : Text} :
    assertSupplementaryPayoutSourceAmount value assetId label = .ok u ↔
      assetId = nativeAsset ∧ NativeAmountOk value := by
  simp only [NativeAmountOk, assertSupplementaryPayoutSourceAmount, bind_eq_ok, revertIf_eq_ok,
    assertCost_eq_ok, exists_const, not_or, not_not]
  tauto

def DustSourceOk (value : PayoutDustSource) : Prop := assertPayoutDustSource value "" = .ok ()

theorem assertPayoutDustSource_eq_ok {value : PayoutDustSource} :
    assertPayoutDustSource value label = .ok u ↔ DustSourceOk value := by
  simp only [DustSourceOk, assertPayoutDustSource, Runner.assertDigest, bind_eq_ok, revertIf_eq_ok]

/-- A payout source that is accepted. -/
structure SourceOk (settlement : SupplementarySettlement) (value : PayoutSource) : Prop where
  schema : value.schema = payoutSourceSchema
  binds : Binds settlement value.positionId value.cycleId value.manifestId
  operations : isAddress value.returnBinding.operations
  assetId : value.returnBinding.assetId = nativeAsset
  evidenceDigest : isDigest value.returnBinding.evidenceDigest
  finalizedReturn : NativeAmountOk value.finalizedReturn
  previousDust : NativeAmountOk value.previousDust
  dustSource : ∀ source ∈ value.previousDustSource, DustSourceOk source
  provenance : (value.previousDust.amountAtomic = text "0") = (value.previousDustSource = none)
  ownCycle : ¬ ∃ source ∈ value.previousDustSource, source.cycleId ≠ settlement.cycleId

/-- A payout source as it is kept. -/
def keptSource (value : PayoutSource) : PayoutSource :=
  { value with returnBinding :=
    { value.returnBinding with operations := toLowerCase value.returnBinding.operations } }

theorem assertSupplementaryPayoutSource_eq_ok {settlement : SupplementarySettlement}
    {value w : PayoutSource} :
    assertSupplementaryPayoutSource settlement value label = .ok w ↔
      SourceOk settlement value ∧ w = keptSource value := by
  simp only [assertSupplementaryPayoutSource, assertSupplementaryReturnBinding, Runner.assertDigest,
    bind_eq_ok, revertIf_eq_ok, pure_eq_ok, optionForM_eq_ok, assertBindsSettlement_eq_ok,
    assertEvmAddress_eq_ok, assertNativeAssetId, assertSupplementaryPayoutSourceAmount_eq_ok,
    assertPayoutDustSource_eq_ok, ne_eq, not_not]
  constructor
  · rintro ⟨_, hschema, _, hbinds, binding, ⟨operations, ⟨hoperations, rfl⟩, _, hasset, _, hdigest,
      rfl⟩, _, ⟨-, hreturn⟩, _, ⟨-, hdust⟩, _, hsource, _, hzero, _, hcycle, rfl⟩
    exact ⟨⟨hschema, hbinds, hoperations, hasset, hdigest, hreturn, hdust, hsource, hzero, hcycle⟩,
      rfl⟩
  · rintro ⟨h, rfl⟩
    exact ⟨(), h.schema, (), h.binds, _, ⟨_, ⟨h.operations, rfl⟩, (), h.assetId, (),
      h.evidenceDigest, rfl⟩, (), ⟨h.assetId, h.finalizedReturn⟩, (), ⟨h.assetId, h.previousDust⟩,
      (), h.dustSource, (), h.provenance, (), h.ownCycle, rfl⟩

/-- What is kept of a source is accepted again, and kept as it is. -/
theorem SourceOk.kept {settlement : SupplementarySettlement} {value : PayoutSource}
    (h : SourceOk settlement value) :
    SourceOk settlement (keptSource value) ∧ keptSource (keptSource value) = keptSource value := by
  have haddress := isAddress_toLowerCase h.operations
  refine ⟨{ h with operations := haddress.1 }, ?_⟩
  simp only [keptSource, haddress.2]

/-! ## Advancing -/

/-- A settlement keeps its names when it advances. -/
structure SameNames (settlement other : SupplementarySettlement) : Prop where
  positionId : other.positionId = settlement.positionId
  cycleId : other.cycleId = settlement.cycleId
  manifestId : other.manifestId = settlement.manifestId

section Names

variable {settlement other : SupplementarySettlement}

theorem SameNames.binds (h : SameNames settlement other) {positionId cycleId manifestId : Text} :
    Binds other positionId cycleId manifestId ↔ Binds settlement positionId cycleId manifestId := by
  rw [Binds, Binds, h.positionId, h.cycleId, h.manifestId]

theorem SameNames.source (h : SameNames settlement other) {value : PayoutSource}
    (hvalue : SourceOk settlement value) : SourceOk other value := by
  refine { hvalue with binds := h.binds.mpr hvalue.binds, ownCycle := ?_ }
  rw [h.cycleId]
  exact hvalue.ownCycle

theorem SameNames.boundary (h : SameNames settlement other) {value : ReturnBoundaryEvidence}
    (hvalue : BoundaryOk settlement value) : BoundaryOk other value :=
  { hvalue with
    binds := h.binds.mpr hvalue.binds
    finalized := { hvalue.finalized with binds := h.binds.mpr hvalue.finalized.binds } }

end Names

variable {X : HeldContext}

/-- What the return boundary is paid out from, for every settlement of these names. -/
theorem supplementaryPayoutSourceForReturnBoundary_ok {S : SettlementDigests}
    {settlement : SupplementarySettlement} {boundary : ReturnBoundaryEvidence} {w : PayoutSource}
    (h : supplementaryPayoutSourceForReturnBoundary S settlement boundary label = .ok w) :
    SourceOk settlement w ∧ keptSource w = w ∧ ∀ other label', SameNames settlement other →
      supplementaryPayoutSourceForReturnBoundary S other boundary label' = .ok w := by
  obtain ⟨hsource, rfl⟩ := assertSupplementaryPayoutSource_eq_ok.mp h
  refine ⟨hsource.kept.1, hsource.kept.2, ?_⟩
  intro other label' hsame
  have hother := hsame.source hsource
  unfold supplementaryPayoutSourceForReturnBoundary
  rw [hsame.positionId, hsame.cycleId, hsame.manifestId]
  exact assertSupplementaryPayoutSource_eq_ok.mpr ⟨hother, rfl⟩

/-- The boundary that is carried along, and that the next boundary carries as well. -/
theorem durableSupplementaryReturnBoundary_ok {S : SettlementDigests}
    {settlement : SupplementarySettlement} {record : Option SettlementEvidence}
    {b : DurableBoundary}
    (h : durableSupplementaryReturnBoundary S settlement record label = .ok b) :
    settlement.payoutSourceDigest = some (S.payoutSource b.payoutSource) ∧
      (∀ label', durableSupplementaryReturnBoundary S settlement record label' = .ok b) ∧
      ∀ other label' (next : SettlementEvidence), SameNames settlement other →
        other.payoutSourceDigest = settlement.payoutSourceDigest →
        next.state ≠ .returnBroadcast → next.returnBoundary = some b →
        durableSupplementaryReturnBoundary S other (some next) label' = .ok b := by
  simp only [durableSupplementaryReturnBoundary, bind_eq_ok, pure_eq_ok, revertIf_eq_ok,
    assertSupplementaryPayoutSource_eq_ok, Runner.assertDigest, not_not] at h
  obtain ⟨kept, hkept, source, hsource, _, ⟨hok, rfl⟩, _, hdigest, _, hshape, rfl⟩ := h
  refine ⟨hdigest.symm, ?_, ?_⟩
  · intro label'
    simp only [durableSupplementaryReturnBoundary, bind_eq_ok, pure_eq_ok, revertIf_eq_ok,
      assertSupplementaryPayoutSource_eq_ok, Runner.assertDigest, not_not]
    -- the label is only in the errors, and there is none
    cases hrecord : keptReturnBoundary record with
    | none => simp [hrecord] at hkept
    | some kept' =>
      rw [hrecord] at hkept
      cases hkept
      cases hsome : kept.2.2 with
      | none => simp [hsome] at hsource
      | some source' =>
        rw [hsome] at hsource
        cases hsource
        exact ⟨kept, rfl, source, by rw [hsome]; rfl, _, ⟨hok, rfl⟩, (), hdigest, (), hshape, rfl⟩
  · intro other label' next hsame hpaid hstate hcarried
    -- the next record carries the boundary, and is read through what it carries
    have hrecord : keptReturnBoundary (some next) =
        some (kept.1, kept.2.1, some (keptSource source)) := by
      simp [keptReturnBoundary, hstate, hcarried]
    simp only [durableSupplementaryReturnBoundary, bind_eq_ok, pure_eq_ok, revertIf_eq_ok,
      assertSupplementaryPayoutSource_eq_ok, Runner.assertDigest, not_not, hrecord]
    have hagain := hok.kept
    refine ⟨_, rfl, _, rfl, _, ⟨hsame.source hagain.1, rfl⟩, (), ?_, (), hshape, ?_⟩
    · rw [hagain.2, hpaid]
      exact hdigest
    · rw [hagain.2]

namespace HeldState

/-- A settlement that advanced keeps its names, and advances there again. -/
theorem advancedSettlement_ok {current next : SupplementarySettlement} {nextState : SettlementState}
    {boundary : Boundary} (h : advancedSettlement X current nextState boundary label = .ok next) :
    SameNames current next ∧ next.state = nextState ∧
      next.payoutSourceDigest = (boundary.payoutSource.map X.settlementDigests.payoutSource).or
        current.payoutSourceDigest ∧
      (∀ label', advancedSettlement X current nextState boundary label' = .ok next) ∧
      ∀ label', advancedSettlement X next nextState boundary label' = .ok next := by
  obtain ⟨hok, rfl⟩ := assertSupplementarySettlement_eq_ok.mp h
  refine ⟨⟨rfl, rfl, rfl⟩, rfl, rfl, ?_, ?_⟩
  · intro label'
    exact assertSupplementarySettlement_eq_ok.mpr ⟨hok, rfl⟩
  · intro label'
    unfold advancedSettlement
    -- the digest of the payout source is set once and stays
    rw [← Option.or_assoc, Option.or_self]
    exact assertSupplementarySettlement_eq_ok.mpr ⟨hok, rfl⟩

theorem returnBoundary_ok {current : SupplementarySettlement} {value : ReturnBoundaryEvidence}
    {boundary : Boundary} (h : returnBoundary X current value label = .ok boundary) :
    boundary.evidence = .returned (keptBoundary value) ∧
      (∃ source, boundary.payoutSource = some source ∧ SourceOk current source ∧
        keptSource source = source) ∧
      ∀ other label', SameNames current other →
        returnBoundary X other value label' = .ok boundary ∧
        returnBoundary X other (keptBoundary value) label' = .ok boundary := by
  simp only [returnBoundary, bind_eq_ok, pure_eq_ok,
    assertSupplementaryReturnBoundaryEvidence_eq_ok] at h
  obtain ⟨kept, ⟨hok, rfl⟩, source, hsource, rfl⟩ := h
  obtain ⟨hsourceOk, hsame, hagain⟩ := supplementaryPayoutSourceForReturnBoundary_ok hsource
  refine ⟨rfl, ⟨source, rfl, hsourceOk, hsame⟩, ?_⟩
  intro other label' hnames
  have hother := hnames.boundary hok
  simp only [returnBoundary, bind_eq_ok, pure_eq_ok,
    assertSupplementaryReturnBoundaryEvidence_eq_ok]
  constructor
  · exact ⟨_, ⟨hother, rfl⟩, source, hagain other _ hnames, rfl⟩
  · refine ⟨_, ⟨hother.kept.1, rfl⟩, source, ?_, ?_⟩
    · rw [hother.kept.2]
      exact hagain other _ hnames
    · rw [hother.kept.2]

theorem plainBoundary_ok {current : SupplementarySettlement} {existing : Option SettlementEvidence}
    {evidence : Text} {boundary : Boundary}
    (h : plainBoundary X current existing evidence label = .ok boundary) :
    boundary.evidence = .plain evidence ∧
      (∀ label', plainBoundary X current existing evidence label' = .ok boundary) ∧
      ∀ (next : SupplementarySettlement) label', SameNames current next →
        next.state ≠ .returnBroadcast →
        next.payoutSourceDigest = (boundary.payoutSource.map X.settlementDigests.payoutSource).or
          current.payoutSourceDigest →
        plainBoundary X next (some (boundaryRecord X next boundary)) evidence label'
          = .ok boundary := by
  unfold plainBoundary at h
  cases hpaid : current.payoutSourceDigest with
  | none =>
    simp only [hpaid] at h
    cases h
    refine ⟨rfl, ?_, ?_⟩
    · intro label'
      simp only [plainBoundary, hpaid]
    · intro next label' _ _ hnext
      simp only [plainBoundary, hnext, Option.map_none, Option.none_or]
  | some paid =>
    simp only [hpaid, bind_eq_ok, pure_eq_ok] at h
    obtain ⟨carried, hcarried, rfl⟩ := h
    obtain ⟨hdigest, hagain, hcarries⟩ := durableSupplementaryReturnBoundary_ok hcarried
    refine ⟨rfl, ?_, ?_⟩
    · intro label'
      simp only [plainBoundary, hpaid, bind_eq_ok, pure_eq_ok]
      exact ⟨carried, hagain label', rfl⟩
    · intro next label' hnames hstate hnext
      have hsame : next.payoutSourceDigest = current.payoutSourceDigest := by
        rw [hnext, hdigest]
        rfl
      have hlater := hcarries next label' (boundaryRecord X next
        ⟨.plain evidence, some carried.payoutSource, some carried⟩) hnames hsame hstate rfl
      unfold plainBoundary
      rw [hsame, hpaid]
      simp only [bind_eq_ok, pure_eq_ok]
      exact ⟨carried, hlater, rfl⟩

/-- A boundary that was accepted is accepted when its event is replayed, and by the settlement
that it leads to. -/
theorem boundaryOf_ok {current : SupplementarySettlement} {existing : Option SettlementEvidence}
    {nextState : SettlementState} {evidence : BoundaryEvidence} {boundary : Boundary}
    (h : boundaryOf X current existing nextState evidence label = .ok boundary) :
    (∀ label', boundaryOf X current existing nextState boundary.evidence label' = .ok boundary) ∧
      ∀ (next : SupplementarySettlement) label', SameNames current next → next.state = nextState →
        next.payoutSourceDigest = (boundary.payoutSource.map X.settlementDigests.payoutSource).or
          current.payoutSourceDigest →
        boundaryOf X next (some (boundaryRecord X next boundary)) nextState evidence label'
          = .ok boundary := by
  cases evidence with
  | returned value =>
    by_cases hstate : nextState = .returnBroadcast
    · simp only [boundaryOf, hstate, if_true] at h
      obtain ⟨hevidence, -, hagain⟩ := returnBoundary_ok h
      constructor
      · intro label'
        rw [hevidence]
        simp only [boundaryOf, hstate, if_true]
        exact (hagain current label' ⟨rfl, rfl, rfl⟩).2
      · intro next label' hnames _ _
        simp only [boundaryOf, hstate, if_true]
        exact (hagain next label' hnames).1
    · simp [boundaryOf, hstate] at h
  | plain evidence =>
    by_cases hstate : nextState = .returnBroadcast
    · simp [boundaryOf, hstate] at h
    · simp only [boundaryOf, hstate, if_false] at h
      obtain ⟨hevidence, hagain, hlater⟩ := plainBoundary_ok h
      constructor
      · intro label'
        rw [hevidence]
        simp only [boundaryOf, hstate, if_false]
        exact hagain label'
      · intro next label' hnames hnext hpaid
        simp only [boundaryOf, hstate, if_false]
        exact hlater next label' hnames (hnext ▸ hstate) hpaid

end HeldState

/-- A row that took a return takes it again. -/
theorem supplementaryNativeReturnCustody_ok {check : Text → Except String Unit}
    {previous : Option NativeCustody} {amountAtomic : Text} {row : NativeCustody}
    (h : supplementaryNativeReturnCustody check previous amountAtomic = .ok row) :
    ∃ again, supplementaryNativeReturnCustody check (some row) amountAtomic = .ok again := by
  unfold supplementaryNativeReturnCustody at h
  cases previous with
  | none => cases h
  | some before =>
    simp only [bind_eq_ok, pure_eq_ok, revertIf_eq_ok, not_not] at h
    obtain ⟨_, hschema, _, hamount, _, hpositive, _, -, _, hothers, rfl⟩ := h
    simp only [supplementaryNativeReturnCustody, bind_eq_ok, pure_eq_ok, revertIf_eq_ok, not_not]
    exact ⟨_, (), hschema, (), hamount, (), hpositive, (), isDecimal_natText _, (), hothers, rfl⟩

/-- What was realized is found again from its own record. -/
theorem supplementaryRealizedProceeds_ok {validate : RealizedProceeds → Except String Unit}
    {source : ReturnSource} {proof : ReturnProof} {realized : Option RealizedProceeds}
    (h : supplementaryRealizedProceeds validate source proof = .ok realized) :
    ∀ proceeds ∈ realized, realizedProceedsOf validate proceeds proof = .ok (some proceeds) := by
  unfold supplementaryRealizedProceeds at h
  intro proceeds hproceeds
  split at h
  · simp only [realizedProceedsOf, bind_eq_ok, pure_eq_ok] at h
    obtain ⟨_, hvalid, h⟩ := h
    split at h
    · rename_i hof
      subst h
      cases hproceeds
      simp only [realizedProceedsOf, bind_eq_ok, pure_eq_ok]
      exact ⟨(), hvalid, if_pos hof⟩
    · subst h
      cases hproceeds
  · cases h
    cases hproceeds

end Hookemon.Repository.Held
