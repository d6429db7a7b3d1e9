import Hookemon.Adapters.AccountingProjection

/-! # What the projection sums up

On a repository whose ledgers, positions and frozen evidence have the shape that the
projection asks for, `projectPolicyCustody` succeeds, and its totals are sums over the cycles
and their ledgers: neither the order of the cycles nor that of the ledgers or positions
matters.
-/

namespace Hookemon.Adapters

open Hookemon.Core Hookemon.Js Hookemon.Runner

/-! ## Well-formed repositories -/

structure WellFormedLedger (ledger : CustodyLedger) (cycleId : Text) : Prop where
  cycle : ledger.cycleId = cycleId
  decimals : 0 ≤ ledger.decimals ∧ ledger.decimals ≤ 255
  buckets : ∀ bucket, isDecimal (ledger.bucket bucket)

structure WellFormedPosition (entry : Text × HeldPositionRecord) (cycleId : Text) : Prop where
  position : entry.2.positionId = entry.1
  cycle : entry.2.cycleId = cycleId
  cost : isDecimal entry.2.costMicroUsd
  reason : entry.2.reason ≠ []
  terminalState : entry.2.terminalState ≠ []
  evidence : isDigest entry.2.evidenceDigest
  openedAt : isSafeInteger entry.2.openedAtMs ∧ 0 ≤ entry.2.openedAtMs
  revision : isSafeInteger entry.2.positionRevision ∧ 0 ≤ entry.2.positionRevision
  insuredValue : isOptionalObject entry.2.insuredValue
  ownerDecision : isOptionalObject entry.2.ownerDecision

/-- The amounts that a completed cycle has frozen can be read. -/
structure WellFormedEvidence (description : CycleDescription) : Prop where
  cost : ∀ cost, description.committedCost = some cost → isDecimal cost.amountMicroUsd
  netDelta : ∀ leg ∈ description.relayLegs, ∃ wei, toBigInt (.string leg.netDeltaAtomic) = .ok wei
  proceeds : ∀ leg ∈ description.relayLegs, ∀ attribution ∈ leg.returnAttribution,
    ∀ usd ∈ attribution.destinationUsd, isDecimal usd.amountMicroUsd
  supplementary : ∀ usd ∈ description.supplementaryRealizedProceedsUsd,
    isDecimal usd.amount.amountAtomic ∧ isDecimal usd.amountMicroUsd

structure WellFormedCycle (description : CycleDescription) (cycleId : Text) : Prop where
  ledgers : ∀ entry ∈ description.custodyLedgers, WellFormedLedger entry.2 cycleId
  positions : ∀ entry ∈ description.heldPositions, WellFormedPosition entry cycleId
  evidence : WellFormedEvidence description

/-- How many positions the cycles have, open and resolved. -/
def CycleRepository.positionCount (repository : CycleRepository) : Nat :=
  (repository.listKnownCycleIds.map fun cycleId =>
    (repository.describeCycle cycleId).heldPositions.length).sum

structure WellFormed (env : ProjectionEnvironment) (repository : CycleRepository) : Prop where
  asset : assertPolicyAssetIdentity env.nativeAsset = .ok ()
  distinct : repository.listKnownCycleIds.Nodup
  cycleIds : ∀ cycleId ∈ repository.listKnownCycleIds, isIdentifier cycleId
  cycles : ∀ cycleId ∈ repository.listKnownCycleIds,
    WellFormedCycle (repository.describeCycle cycleId) cycleId
  /-- An array of the language is not longer. -/
  positions : repository.positionCount < 2 ^ 32

/-! ## The parts succeed -/

section

variable {env : ProjectionEnvironment}

theorem parsePolicyAtomic_ok {value : Text} {label : String} (h : isDecimal value) :
    parsePolicyAtomic value label = .ok (textNat value) := by
  simp [parsePolicyAtomic, throwIf, revertIf, h]

theorem parsePolicyAtomic_eq_ok {value : Text} {label : String} {amount : Nat} :
    parsePolicyAtomic value label = .ok amount ↔ isDecimal value ∧ textNat value = amount := by
  simp only [parsePolicyAtomic, throwIf, bind_eq_ok, revertIf_eq_ok, pure_eq_ok, not_not]
  constructor
  · rintro ⟨_, hdecimal, heq⟩
    exact ⟨hdecimal, heq⟩
  · rintro ⟨hdecimal, heq⟩
    exact ⟨(), hdecimal, heq⟩

theorem assertPolicyLedger_ok {ledger : CustodyLedger} {cycleId : Text}
    (h : WellFormedLedger ledger cycleId) : assertPolicyLedger ledger cycleId = .ok () := by
  have hidentity : ¬ (ledger.cycleId ≠ cycleId ∨ ledger.decimals < 0 ∨ 255 < ledger.decimals) := by
    have hcycle := h.cycle
    have hdecimals := h.decimals
    rintro (hne | hlow | hhigh)
    · exact hne hcycle
    · omega
    · omega
  have hbucket : ∀ bucket label, parsePolicyAtomic (ledger.bucket bucket) label =
      .ok (textNat (ledger.bucket bucket)) := fun bucket _ => parsePolicyAtomic_ok (h.buckets bucket)
  simp only [assertPolicyLedger, throwIf, revertIf_of_not hidentity, ok_bind, hbucket]
  rfl

theorem openHeldPosition_ok {entry : Text × HeldPositionRecord} {cycleId : Text}
    (h : WellFormedPosition entry cycleId) : openHeldPosition cycleId entry =
      .ok (if entry.2.resolution = .null then
        some (entry.2.held entry.1 cycleId (textNat entry.2.costMicroUsd)) else none) := by
  have hidentity : ¬ (entry.2.positionId ≠ entry.1 ∨ entry.2.cycleId ≠ cycleId) := by
    rintro (hne | hne)
    · exact hne h.position
    · exact hne h.cycle
  have hevidence : ¬ (entry.2.reason = [] ∨ entry.2.terminalState = [] ∨
      ¬ isDigest entry.2.evidenceDigest ∨
      ¬ isSafeInteger entry.2.openedAtMs ∨ entry.2.openedAtMs < 0 ∨
      ¬ isSafeInteger entry.2.positionRevision ∨ entry.2.positionRevision < 0) := by
    have hopened := h.openedAt.2
    have hrevision := h.revision.2
    simp only [h.reason, h.terminalState, h.evidence, h.openedAt.1, h.revision.1, not_true,
      false_or]
    omega
  simp only [openHeldPosition, throwIf, revertIf_of_not hidentity, ok_bind,
    parsePolicyAtomic_ok h.cost, revertIf_of_not hevidence,
    revertIf_of_not (not_not.mpr h.insuredValue), revertIf_of_not (not_not.mpr h.ownerDecision)]
  rfl

theorem addReturn_isOk {asset : AssetIdentity} {leg : RelayLeg} (proceeds : RealizedProceeds)
    (hdelta : ∃ wei, toBigInt (.string leg.netDeltaAtomic) = .ok wei)
    (husd : ∀ attribution ∈ leg.returnAttribution, ∀ usd ∈ attribution.destinationUsd,
      isDecimal usd.amountMicroUsd) : ∃ next, addReturn asset proceeds leg = .ok next := by
  unfold addReturn
  by_cases hskip : leg.direction ≠ text "return" ∨ leg.state ≠ text "SETTLED"
  · rw [if_pos hskip]
    exact ⟨_, rfl⟩
  · rw [if_neg hskip]
    cases hfrozen : leg.frozenUsd asset with
    | none => exact ⟨_, rfl⟩
    | some usd =>
      -- the frozen value is the one of the attribution
      simp only [RelayLeg.frozenUsd, Option.bind_eq_bind, Option.bind_eq_some_iff] at hfrozen
      rcases hfrozen with ⟨attribution, hattribution, frozen, hdestination, settledAt, -, hsame⟩
      rw [Option.ite_none_right_eq_some] at hsame
      have hdecimal : isDecimal usd.amountMicroUsd :=
        Option.some.inj hsame.2 ▸ husd attribution hattribution frozen hdestination
      rcases hdelta with ⟨wei, hwei⟩
      simp only [hwei, parsePolicyAtomic_ok hdecimal, ok_bind]
      exact ⟨_, rfl⟩

theorem addSupplementary_isOk {usd : FundingUsd} (proceeds : RealizedProceeds)
    (h : isDecimal usd.amount.amountAtomic ∧ isDecimal usd.amountMicroUsd) :
    ∃ next, addSupplementary proceeds usd = .ok next := by
  simp only [addSupplementary, parsePolicyAtomic_ok h.1, parsePolicyAtomic_ok h.2, ok_bind]
  exact ⟨_, rfl⟩

theorem realizedLossOf_isOk {asset : AssetIdentity} {description : CycleDescription}
    (ledger : CustodyLedger) (h : WellFormedEvidence description) :
    ∃ loss, realizedLossOf asset description ledger = .ok loss := by
  rcases foldlM_isOk (addReturn asset)
    (fun s leg hleg => addReturn_isOk s (h.netDelta leg hleg) (h.proceeds leg hleg))
    ⟨0, 0, description.committedCost.isSome⟩ with ⟨returns, hreturns⟩
  rcases foldlM_isOk addSupplementary
    (fun s usd husd => addSupplementary_isOk s (h.supplementary usd husd)) returns
    with ⟨proceeds, hproceeds⟩
  simp only [realizedLossOf, hreturns, hproceeds, ok_bind]
  cases hcost : description.committedCost with
  | none => exact ⟨_, rfl⟩
  | some cost =>
    by_cases hvalued : proceeds.valued = true ∧ proceeds.proceedsWei = ledger.atomic .returnReceived
    · by_cases hclaimed : ledger.atomic .claimed = 0
      · simp only [hvalued, hclaimed, and_self, if_true]
        exact ⟨_, rfl⟩
      · simp only [hvalued, hclaimed, and_self, if_true, if_false, ok_bind,
          parsePolicyAtomic_ok (h.cost cost hcost)]
        exact ⟨_, rfl⟩
    · simp only [hvalued, if_false]
      exact ⟨_, rfl⟩

/-- The turn of the loop over a well-formed ledger gives the figures of its kind. -/
theorem ledgerFigures_cases (env : ProjectionEnvironment) {description : CycleDescription} {cycleId : Text}
    {entry : Text × CustodyLedger} (hledger : WellFormedLedger entry.2 cycleId)
    (hevidence : WellFormedEvidence description) :
    ∃ figures, ledgerFigures env description cycleId entry = .ok figures ∧
      ((entry.2.matchesAsset env.nativeAsset = false ∧ figures = foreignFigures entry.2) ∨
        (entry.2.matchesAsset env.nativeAsset = true ∧ description.isCompleted = true ∧
          ∃ loss, figures = completedFigures env cycleId entry.1 entry.2 loss) ∨
        (entry.2.matchesAsset env.nativeAsset = true ∧ description.isCompleted = false ∧
          figures = liveFigures env cycleId entry.1 entry.2)) := by
  simp only [ledgerFigures, assertPolicyLedger_ok hledger, ok_bind]
  cases hmatch : entry.2.matchesAsset env.nativeAsset with
  | false =>
    rw [if_pos (by simp)]
    exact ⟨_, rfl, .inl ⟨rfl, rfl⟩⟩
  | true =>
    rw [if_neg (by simp)]
    cases hcompleted : description.isCompleted with
    | true =>
      rcases realizedLossOf_isOk entry.2 hevidence with ⟨loss, hloss⟩
      rw [if_pos rfl, hloss, ok_bind]
      exact ⟨_, rfl, .inr (.inl ⟨rfl, rfl, loss, rfl⟩)⟩
    | false =>
      rw [if_neg (by simp)]
      exact ⟨_, rfl, .inr (.inr ⟨rfl, rfl, rfl⟩)⟩

variable (env)

/-! ## What the loop gives -/

/-- The open positions of a cycle, as they are projected. -/
def CycleRepository.positions (repository : CycleRepository) (cycleId : Text) :
    List HeldPosition :=
  ((repository.describeCycle cycleId).heldPositions.map fun entry =>
    if entry.2.resolution = .null then
      some (entry.2.held entry.1 cycleId (textNat entry.2.costMicroUsd)) else none).reduceOption

/-- The figures of a cycle: the sum of those of its ledgers. -/
def cycleFigures (repository : CycleRepository) (cycleId : Text) : CustodyFigures :=
  ((repository.describeCycle cycleId).custodyLedgers.map fun entry =>
    figureOf (ledgerFigures env (repository.describeCycle cycleId) cycleId entry)).sum

/-- The figures of all cycles. -/
def totalFigures (repository : CycleRepository) : CustodyFigures :=
  (repository.listKnownCycleIds.map (cycleFigures env repository)).sum

/-- The purchase costs of the positions that a repository still holds. -/
def totalHeldValue (repository : CycleRepository) : Nat :=
  (repository.listKnownCycleIds.map fun cycleId => heldValue (repository.positions cycleId)).sum

/-- How many positions a repository still holds. -/
def totalHeldCount (repository : CycleRepository) : Nat :=
  (repository.listKnownCycleIds.map fun cycleId => (repository.positions cycleId).length).sum

/-- The loop over some cycles, as far as it succeeds. -/
def projectAll (repository : CycleRepository) (cycleIds : List Text) : Projection :=
  cycleIds.foldl (fun p cycleId => p.add cycleId
    ((repository.positions cycleId).mergeSort (positionLe env))
    (cycleFigures env repository cycleId)) {}

variable {env}

theorem projectCycle_ok {repository : CycleRepository} {cycleId : Text} (p : Projection)
    (h : WellFormedCycle (repository.describeCycle cycleId) cycleId) :
    projectCycle env repository p cycleId = .ok (p.add cycleId
      ((repository.positions cycleId).mergeSort (positionLe env))
      (cycleFigures env repository cycleId)) := by
  have hpositions := mapM_eq_ok fun entry hentry => openHeldPosition_ok (h.positions entry hentry)
  have hledgers : ∀ entry ∈ (repository.describeCycle cycleId).custodyLedgers,
      ∃ figures, ledgerFigures env (repository.describeCycle cycleId) cycleId entry = .ok figures := by
    intro entry hentry
    rcases ledgerFigures_cases env (h.ledgers entry hentry) h.evidence
      with ⟨figures, hfigures, -⟩
    exact ⟨figures, hfigures⟩
  simp only [projectCycle, openHeldPositions, hpositions, addAll_eq_ok hledgers, ok_bind]
  rfl

/-- The parts of the state of the loop are sums over the cycles so far. -/
theorem projectAll_sums (env : ProjectionEnvironment) (repository : CycleRepository) (cycleIds : List Text) :
    (projectAll env repository cycleIds).figures = (cycleIds.map (cycleFigures env repository)).sum ∧
      (projectAll env repository cycleIds).heldPositionValue =
        (cycleIds.map fun cycleId => heldValue (repository.positions cycleId)).sum ∧
      (projectAll env repository cycleIds).heldPositions = cycleIds.flatMap (fun cycleId =>
        (repository.positions cycleId).mergeSort (positionLe env)) ∧
      (projectAll env repository cycleIds).cycles = cycleIds.map (fun cycleId =>
        freezePolicyCycle cycleId (cycleFigures env repository cycleId)) := by
  induction cycleIds using List.reverseRecOn with
  | nil => exact ⟨rfl, rfl, rfl, rfl⟩
  | append_singleton cycleIds cycleId ih =>
    rcases ih with ⟨hfigures, hvalue, hpositions, hcycles⟩
    have hstep : projectAll env repository (cycleIds ++ [cycleId]) =
        (projectAll env repository cycleIds).add cycleId
          ((repository.positions cycleId).mergeSort (positionLe env))
          (cycleFigures env repository cycleId) := by
      rw [projectAll, List.foldl_append]
      rfl
    have hsorted : heldValue ((repository.positions cycleId).mergeSort (positionLe env)) =
        heldValue (repository.positions cycleId) :=
      ((List.mergeSort_perm _ _).map _).sum_eq
    rw [hstep]
    refine ⟨?_, ?_, ?_, ?_⟩
    · show (projectAll env repository cycleIds).figures + _ = _
      simp [hfigures]
    · show (projectAll env repository cycleIds).heldPositionValue + _ = _
      simp [hvalue, hsorted]
    · show (projectAll env repository cycleIds).heldPositions ++ _ = _
      simp [hpositions]
    · show (projectAll env repository cycleIds).cycles ++ _ = _
      simp [hcycles]

/-- Cycles that are all distinct each get an exposure of their own. -/
theorem projectAll_exposure (repository : CycleRepository) {cycleIds : List Text}
    (h : cycleIds.Nodup) :
    (projectAll env repository cycleIds).cycleExposureMicroUsd.entries = cycleIds.map (fun cycleId =>
      (cycleId, natText (cycleFigures env repository cycleId).atRisk)) := by
  induction cycleIds using List.reverseRecOn with
  | nil => rfl
  | append_singleton cycleIds cycleId ih =>
    rw [List.nodup_append] at h
    rcases h with ⟨hnodup, -, hdisjoint⟩
    have hnew : (projectAll env repository cycleIds).cycleExposureMicroUsd.find cycleId = none := by
      rw [Record.find_eq_none, ih hnodup, List.map_map]
      intro hmem
      rcases List.mem_map.mp hmem with ⟨earlier, hearlier, heq⟩
      exact hdisjoint earlier hearlier cycleId List.mem_cons_self heq
    rw [projectAll, List.foldl_append]
    show ((projectAll env repository cycleIds).cycleExposureMicroUsd.set cycleId _).entries = _
    rw [Record.set_entries_of_new hnew, ih hnodup, List.map_append]
    rfl

/-- The cycles in the order in which they are projected. -/
def CycleRepository.sortedIds (repository : CycleRepository) : List Text :=
  repository.listKnownCycleIds.insertionSort (· ≤ ·)

theorem sortedIds_perm (repository : CycleRepository) :
    repository.sortedIds.Perm repository.listKnownCycleIds := List.perm_insertionSort _ _

theorem projectPolicyCustody_ok {repository : CycleRepository} (h : WellFormed env repository) :
    projectPolicyCustody env repository =
      .ok ((projectAll env repository repository.sortedIds).custody env) := by
  have hids : ¬ ∃ cycleId ∈ repository.listKnownCycleIds, cycleId = [] := by
    rintro ⟨cycleId, hmem, rfl⟩
    have hidentifier := h.cycleIds [] hmem
    simp [isIdentifier] at hidentifier
  have hloop := foldlM_eq_ok (projectCycle env repository)
    (fun p cycleId => p.add cycleId
      ((repository.positions cycleId).mergeSort (positionLe env))
      (cycleFigures env repository cycleId))
    (fun p cycleId hmem => projectCycle_ok p
      (h.cycles cycleId ((sortedIds_perm repository).mem_iff.mp hmem))) {}
  simp only [projectPolicyCustody, h.asset, ok_bind, throwIf, revertIf_of_not hids]
  exact congrArg (fun x => x >>= fun p => .ok (p.custody env)) hloop

/-- The custody that a well-formed repository is projected to. -/
structure ProjectedAs (env : ProjectionEnvironment) (repository : CycleRepository)
    (custody : PolicyCustody) : Prop where
  realizedLoss : custody.realizedLossMicroUsd = natText (totalFigures env repository).realizedLoss
  atRisk : custody.atRiskMicroUsd = natText (totalFigures env repository).atRisk
  outstanding : custody.outstandingMicroUsd = natText (totalFigures env repository).outstanding
  heldAssets : custody.heldAssets = (totalFigures env repository).heldAssets
  unattributed : custody.unattributed = (totalFigures env repository).unattributed
  unvaluedExposure : custody.unvaluedExposure = (totalFigures env repository).unvaluedExposure
  heldCount : custody.heldPositions.count = totalHeldCount repository
  heldValue : custody.heldPositions.valueMicroUsd = natText (totalHeldValue repository)
  positions : custody.heldPositions.positions.Perm
    (repository.listKnownCycleIds.flatMap repository.positions)
  cycles : custody.cycles.Perm (repository.listKnownCycleIds.map fun cycleId =>
    freezePolicyCycle cycleId (cycleFigures env repository cycleId))
  exposure : ∃ exposure, custody.cycleExposureMicroUsd = some exposure ∧
    exposure.entries.Perm (repository.listKnownCycleIds.map fun cycleId =>
      (cycleId, natText (cycleFigures env repository cycleId).atRisk))

theorem projectedAs {repository : CycleRepository} (h : WellFormed env repository) :
    ProjectedAs env repository
      ((projectAll env repository repository.sortedIds).custody env) := by
  have hperm := sortedIds_perm repository
  rcases projectAll_sums env repository repository.sortedIds
    with ⟨hfigures, hvalue, hpositions, hcycles⟩
  have htotal : (projectAll env repository repository.sortedIds).figures =
      totalFigures env repository := hfigures.trans (hperm.map _).sum_eq
  have hflat : (projectAll env repository repository.sortedIds).heldPositions.Perm
      (repository.listKnownCycleIds.flatMap repository.positions) := by
    rw [hpositions]
    exact (List.Perm.flatMap_left _ fun cycleId _ => List.mergeSort_perm _ _).trans
      (hperm.flatMap_right _)
  constructor
  · exact congrArg (fun figures => natText figures.realizedLoss) htotal
  · exact congrArg (fun figures => natText figures.atRisk) htotal
  · exact congrArg (fun figures => natText figures.outstanding) htotal
  · exact congrArg CustodyFigures.heldAssets htotal
  · exact congrArg CustodyFigures.unattributed htotal
  · exact congrArg CustodyFigures.unvaluedExposure htotal
  · show ((projectAll env repository repository.sortedIds).heldPositions.length : Int) = _
    rw [hflat.length_eq, List.length_flatMap]
    rfl
  · exact congrArg natText (hvalue.trans (hperm.map _).sum_eq)
  · exact (List.mergeSort_perm _ _).trans hflat
  · show List.Perm (projectAll env repository repository.sortedIds).cycles _
    rw [hcycles]
    exact hperm.map _
  · refine ⟨_, rfl, ?_⟩
    rw [projectAll_exposure repository (hperm.nodup_iff.mpr h.distinct)]
    exact hperm.map _

end

end Hookemon.Adapters
