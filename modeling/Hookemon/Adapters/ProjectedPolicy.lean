import Hookemon.Adapters.ProjectedCustody
import Hookemon.Runner.PolicyDecisions

/-! # The projected custody before the policy engine

The engine takes the projection of a well-formed repository whenever the valuations of one
ledger do not contradict each other: what is priced for the unresolved claim is covered by
what is priced for the whole principal. What has no price is noted, and the note stops every
new claim.
-/

namespace Hookemon.Adapters

open Hookemon.Core Hookemon.Js Hookemon.Runner

section

variable (env : ProjectionEnvironment)

/-! ## Prices -/

/-- An answered call gives the amount a fresh authenticated value. -/
def IsFreshValue (cycleId key : Text) (amountAtomic value : Nat) : Prop :=
  ∃ valueAmountUsd answer, env.valueAmountUsd = some valueAmountUsd ∧
    valueAmountUsd cycleId key (env.nativeAsset.amount amountAtomic) = some answer ∧
    answer.isFresh env (env.nativeAsset.amount amountAtomic) = true ∧
    isDecimal answer.valuation.amountMicroUsd ∧
    textNat answer.valuation.amountMicroUsd = value

/-- A custody amount of a ledger that has no price: of the native asset, the unresolved
claim or the outstanding principal without a fresh value; of another asset, any current
balance. -/
inductive UnpricedAmount (cycleId : Text) (entry : Text × CustodyLedger) : Prop where
  | claim (native : entry.2.matchesAsset env.nativeAsset = true)
      (nonzero : entry.2.unresolvedClaim ≠ 0)
      (unpriced : ∀ value, ¬ IsFreshValue env cycleId entry.1 entry.2.unresolvedClaim value)
  | principal (native : entry.2.matchesAsset env.nativeAsset = true)
      (nonzero : entry.2.principalOutstanding ≠ 0)
      (unpriced : ∀ value, ¬ IsFreshValue env cycleId entry.1 entry.2.principalOutstanding value)
  | foreign (other : entry.2.matchesAsset env.nativeAsset = false) (bucket : CustodyBucket)
      (current : bucket ∈ POLICY_CUSTODY_CURRENT_BUCKETS) (nonzero : entry.2.atomic bucket ≠ 0)

/-- What is priced of a native ledger, by the amount that is taken of it. -/
def pricedAmount (amount : CustodyLedger → Nat) (cycleId : Text) (entry : Text × CustodyLedger) :
    Nat :=
  if entry.2.matchesAsset env.nativeAsset then
    (valueWei env cycleId entry.1 (amount entry.2)).getD 0
  else 0

/-- Where an unresolved claim has a price, the principal that it is part of has one that is
no lower. -/
def CoveredClaims (repository : CycleRepository) : Prop :=
  ∀ cycleId ∈ repository.listKnownCycleIds,
    (repository.describeCycle cycleId).isCompleted = false →
    ∀ entry ∈ (repository.describeCycle cycleId).custodyLedgers,
      entry.2.matchesAsset env.nativeAsset = true →
      ∀ claim, valueWei env cycleId entry.1 entry.2.unresolvedClaim = some claim →
        ∃ principal, valueWei env cycleId entry.1 entry.2.principalOutstanding = some principal ∧
          claim ≤ principal

variable {env}

theorem valueWei_zero (cycleId key : Text) : valueWei env cycleId key 0 = some 0 := rfl

/-- A nonzero amount has a price exactly where a call gives it a fresh authenticated value. -/
theorem valueWei_eq_some {cycleId key : Text} {amountAtomic value : Nat}
    (hnonzero : amountAtomic ≠ 0) : valueWei env cycleId key amountAtomic = some value ↔
      IsFreshValue env cycleId key amountAtomic value := by
  simp only [valueWei, hnonzero, if_false, Option.bind_eq_bind, Option.bind_eq_some_iff,
    IsFreshValue]
  constructor
  · rintro ⟨valueAmountUsd, hfunction, answer, hanswer, hvalue⟩
    by_cases hfresh : answer.isFresh env (env.nativeAsset.amount amountAtomic) = true
    · rw [if_pos hfresh] at hvalue
      have hparsed : parsePolicyAtomic answer.valuation.amountMicroUsd
          "authenticated USD valuation" = .ok value := by
        cases hresult : parsePolicyAtomic answer.valuation.amountMicroUsd
            "authenticated USD valuation" with
        | error message => rw [hresult] at hvalue; exact nomatch hvalue
        | ok amount => rw [hresult] at hvalue; rw [Option.some.inj hvalue]
      rcases parsePolicyAtomic_eq_ok.mp hparsed with ⟨hdecimal, heq⟩
      exact ⟨valueAmountUsd, answer, hfunction, hanswer, hfresh, hdecimal, heq⟩
    · rw [if_neg hfresh] at hvalue
      exact nomatch hvalue
  · rintro ⟨valueAmountUsd, answer, hfunction, hanswer, hfresh, hdecimal, rfl⟩
    refine ⟨valueAmountUsd, hfunction, answer, hanswer, ?_⟩
    rw [if_pos hfresh, parsePolicyAtomic_ok hdecimal]
    rfl

theorem valueWei_isNone {cycleId key : Text} {amountAtomic : Nat} (hnonzero : amountAtomic ≠ 0)
    (h : ∀ value, ¬ IsFreshValue env cycleId key amountAtomic value) :
    (valueWei env cycleId key amountAtomic).isNone = true := by
  cases hvalue : valueWei env cycleId key amountAtomic with
  | none => rfl
  | some value => exact absurd ((valueWei_eq_some hnonzero).mp hvalue) (h value)

/-- The price of the principal is asked for once where it is the unresolved claim. -/
theorem liveFigures_outstanding (cycleId key : Text) (ledger : CustodyLedger) :
    (if ledger.principalOutstanding = ledger.unresolvedClaim
      then valueWei env cycleId key ledger.unresolvedClaim
      else valueWei env cycleId key ledger.principalOutstanding) =
      valueWei env cycleId key ledger.principalOutstanding := by
  by_cases hsame : ledger.principalOutstanding = ledger.unresolvedClaim
  · rw [if_pos hsame, hsame]
  · rw [if_neg hsame]

/-! ## The figures of a live cycle -/

section Live

variable {repository : CycleRepository} {cycleId : Text}

/-- The figures of a ledger in a cycle that goes on. -/
theorem ledgerFigures_live
    (h : WellFormedCycle (repository.describeCycle cycleId) cycleId)
    (hlive : (repository.describeCycle cycleId).isCompleted = false)
    {entry : Text × CustodyLedger}
    (hentry : entry ∈ (repository.describeCycle cycleId).custodyLedgers) :
    figureOf (ledgerFigures env (repository.describeCycle cycleId) cycleId entry) =
      if entry.2.matchesAsset env.nativeAsset then liveFigures env cycleId entry.1 entry.2
      else foreignFigures entry.2 := by
  rcases ledgerFigures_cases env (h.ledgers entry hentry) h.evidence with
    ⟨figures, hfigures, hkind⟩
  rw [hfigures, figureOf_ok]
  rcases hkind with ⟨hmatch, rfl⟩ | ⟨-, hcompleted, -⟩ | ⟨hmatch, -, rfl⟩
  · simp [hmatch]
  · rw [hlive] at hcompleted
    cases hcompleted
  · simp [hmatch]

/-- A part of the figures of a cycle is the sum of that part over its ledgers. -/
theorem cycleFigures_part (part : CustodyFigures →+ Nat) : part (cycleFigures env repository cycleId) =
    ((repository.describeCycle cycleId).custodyLedgers.map fun entry =>
      part (figureOf (ledgerFigures env (repository.describeCycle cycleId) cycleId entry))).sum := by
  rw [cycleFigures, map_list_sum, List.map_map]
  rfl

theorem cycleFigures_atRisk (h : WellFormedCycle (repository.describeCycle cycleId) cycleId)
    (hlive : (repository.describeCycle cycleId).isCompleted = false) :
    (cycleFigures env repository cycleId).atRisk =
      ((repository.describeCycle cycleId).custodyLedgers.map
        (pricedAmount env CustodyLedger.unresolvedClaim cycleId)).sum := by
  refine (cycleFigures_part CustodyFigures.atRiskPart).trans
    (congrArg List.sum (List.map_congr_left ?_))
  intro entry hentry
  rw [ledgerFigures_live h hlive hentry, pricedAmount]
  by_cases hmatch : entry.2.matchesAsset env.nativeAsset = true
  · rw [if_pos hmatch, if_pos hmatch]
    rfl
  · rw [if_neg hmatch, if_neg hmatch]
    rfl

theorem cycleFigures_outstanding (h : WellFormedCycle (repository.describeCycle cycleId) cycleId)
    (hlive : (repository.describeCycle cycleId).isCompleted = false) :
    (cycleFigures env repository cycleId).outstanding =
      ((repository.describeCycle cycleId).custodyLedgers.map
        (pricedAmount env CustodyLedger.principalOutstanding cycleId)).sum := by
  refine (cycleFigures_part CustodyFigures.outstandingPart).trans
    (congrArg List.sum (List.map_congr_left ?_))
  intro entry hentry
  rw [ledgerFigures_live h hlive hentry, pricedAmount]
  by_cases hmatch : entry.2.matchesAsset env.nativeAsset = true
  · rw [if_pos hmatch, if_pos hmatch]
    exact congrArg (fun x => Option.getD x 0) (liveFigures_outstanding cycleId entry.1 entry.2)
  · rw [if_neg hmatch, if_neg hmatch]
    rfl

/-- A cycle that goes on has lost nothing yet. -/
theorem cycleFigures_realizedLoss (h : WellFormedCycle (repository.describeCycle cycleId) cycleId)
    (hlive : (repository.describeCycle cycleId).isCompleted = false) :
    (cycleFigures env repository cycleId).realizedLoss = 0 := by
  refine (cycleFigures_part CustodyFigures.realizedLossPart).trans
    (List.sum_eq_zero_iff.mpr ?_)
  intro loss hloss
  rcases List.mem_map.mp hloss with ⟨entry, hentry, rfl⟩
  rw [ledgerFigures_live h hlive hentry]
  by_cases hmatch : entry.2.matchesAsset env.nativeAsset = true
  · rw [if_pos hmatch]
    rfl
  · rw [if_neg hmatch]
    rfl

end Live

/-! ## Notes -/

/-- A note is in a sum exactly where it is in a part. -/
theorem unvaluedExposure_sum (figures : List CustodyFigures) :
    figures.sum.unvaluedExposure = true ↔ ∃ part ∈ figures, part.unvaluedExposure = true := by
  induction figures with
  | nil => simp
  | cons part figures ih => simp [List.sum_cons, ih]

theorem totalFigures_unvalued {repository : CycleRepository} {cycleId : Text}
    (hmem : cycleId ∈ repository.listKnownCycleIds)
    (h : (cycleFigures env repository cycleId).unvaluedExposure = true) :
    (totalFigures env repository).unvaluedExposure = true :=
  (unvaluedExposure_sum _).mpr ⟨_, List.mem_map.mpr ⟨cycleId, hmem, rfl⟩, h⟩

/-- An amount without a price is noted. -/
theorem cycleFigures_unpriced {repository : CycleRepository} {cycleId : Text}
    (h : WellFormedCycle (repository.describeCycle cycleId) cycleId)
    (hlive : (repository.describeCycle cycleId).isCompleted = false)
    {entry : Text × CustodyLedger}
    (hentry : entry ∈ (repository.describeCycle cycleId).custodyLedgers)
    (hunpriced : UnpricedAmount env cycleId entry) :
    (cycleFigures env repository cycleId).unvaluedExposure = true := by
  refine (unvaluedExposure_sum _).mpr ⟨_, List.mem_map.mpr ⟨entry, hentry, rfl⟩, ?_⟩
  rw [ledgerFigures_live h hlive hentry]
  cases hunpriced with
  | claim native nonzero unpriced =>
    have hnone := valueWei_isNone nonzero unpriced
    rw [if_pos native]
    simp [liveFigures, hnone]
  | principal native nonzero unpriced =>
    have hnone := valueWei_isNone nonzero unpriced
    rw [if_pos native]
    simp [liveFigures, liveFigures_outstanding, hnone]
  | foreign other bucket current nonzero =>
    rw [if_neg (by simp [other])]
    exact List.any_eq_true.mpr ⟨bucket, current, by simpa using Nat.pos_of_ne_zero nonzero⟩

/-! ## Acceptance -/

section Acceptance

variable {repository : CycleRepository}

/-- No ledger puts more at risk than it leaves outstanding, if claims are covered. -/
theorem cycleFigures_covered (h : WellFormed env repository) (hcovered : CoveredClaims env repository)
    {cycleId : Text} (hmem : cycleId ∈ repository.listKnownCycleIds) :
    (cycleFigures env repository cycleId).atRisk ≤
      (cycleFigures env repository cycleId).outstanding := by
  have hcycle := h.cycles cycleId hmem
  refine List.sum_induction (fun figures : CustodyFigures => figures.atRisk ≤ figures.outstanding) ?_ ?_ ?_
  · intro a b ha hb
    exact Nat.add_le_add ha hb
  · exact le_refl 0
  · intro figures hfigures
    rcases List.mem_map.mp hfigures with ⟨entry, hentry, rfl⟩
    rcases ledgerFigures_cases env (hcycle.ledgers entry hentry) hcycle.evidence with
      ⟨figures, hok, hkind⟩
    rw [hok, figureOf_ok]
    rcases hkind with ⟨-, rfl⟩ | ⟨-, -, loss, rfl⟩ | ⟨hmatch, hlive, rfl⟩
    · exact le_refl 0
    · exact Nat.zero_le _
    · show (valueWei env cycleId entry.1 entry.2.unresolvedClaim).getD 0 ≤ Option.getD (if _ then _ else _) 0
      rw [liveFigures_outstanding]
      cases hclaim : valueWei env cycleId entry.1 entry.2.unresolvedClaim with
      | none => exact Nat.zero_le _
      | some claim =>
        rcases hcovered cycleId hmem hlive entry hentry hmatch claim hclaim with
          ⟨principal, hprincipal, hle⟩
        rw [hprincipal]
        exact hle

theorem totalFigures_covered (h : WellFormed env repository)
    (hcovered : CoveredClaims env repository) :
    (totalFigures env repository).atRisk ≤ (totalFigures env repository).outstanding := by
  refine List.sum_induction (fun figures : CustodyFigures => figures.atRisk ≤ figures.outstanding) ?_ ?_ ?_
  · intro a b ha hb
    exact Nat.add_le_add ha hb
  · exact le_refl 0
  · intro figures hfigures
    rcases List.mem_map.mp hfigures with ⟨cycleId, hmem, rfl⟩
    exact cycleFigures_covered h hcovered hmem

/-- Every open position is projected at its purchase cost. -/
theorem positions_cost (h : WellFormed env repository) {cycleId : Text}
    (hmem : cycleId ∈ repository.listKnownCycleIds) {position : HeldPosition}
    (hposition : position ∈ repository.positions cycleId) :
    isDecimal position.costMicroUsd ∧
      textNat position.costMicroUsd = textNat position.valueMicroUsd := by
  rw [CycleRepository.positions, List.reduceOption_mem_iff, List.mem_map] at hposition
  rcases hposition with ⟨entry, hentry, hheld⟩
  rw [Option.ite_none_right_eq_some] at hheld
  rcases hheld with ⟨-, hheld⟩
  rw [← Option.some.inj hheld]
  have hcost := ((h.cycles cycleId hmem).positions entry hentry).cost
  exact ⟨hcost, (textNat_natText (textNat entry.2.costMicroUsd)).symm⟩

theorem positionValue_ok {positions : List HeldPosition}
    (h : ∀ position ∈ positions, isDecimal position.costMicroUsd ∧
      textNat position.costMicroUsd = textNat position.valueMicroUsd) (index : Nat) :
    positionValue positions index = .ok (heldValue positions) := by
  induction positions generalizing index with
  | nil => rfl
  | cons position positions ih =>
    have hrest := ih (fun other hother => h other (List.mem_cons_of_mem position hother)) (index + 1)
    rcases h position List.mem_cons_self with ⟨hdecimal, hvalue⟩
    have hcost : ∀ label, assertAmount position.costMicroUsd label =
        .ok (textNat position.costMicroUsd) := fun _ => assertAmount_eq_ok.mpr ⟨hdecimal, rfl⟩
    simp only [positionValue, hcost, hrest, ok_bind, heldValue, List.map_cons, List.sum_cons, hvalue]
    rfl

theorem totalCycleExposure_ok {entries : List (Text × Text)}
    (h : ∀ entry ∈ entries, isIdentifier entry.1 ∧ isDecimal entry.2) :
    totalCycleExposure entries = .ok (entries.map fun entry => textNat entry.2).sum := by
  induction entries with
  | nil => rfl
  | cons entry entries ih =>
    have hrest := ih fun other hother => h other (List.mem_cons_of_mem entry hother)
    rcases h entry List.mem_cons_self with ⟨hidentifier, hdecimal⟩
    have hamount : assertAmount entry.2 "policy per-cycle exposure" = .ok (textNat entry.2) :=
      assertAmount_eq_ok.mpr ⟨hdecimal, rfl⟩
    simp only [totalCycleExposure, assertCycleId, throwIf, revertIf_of_not (not_not.mpr hidentifier),
      hamount, hrest, ok_bind, List.map_cons, List.sum_cons]
    rfl

theorem positions_length_le (repository : CycleRepository) (cycleId : Text) :
    (repository.positions cycleId).length ≤
      (repository.describeCycle cycleId).heldPositions.length := by
  refine (List.reduceOption_length_le _).trans ?_
  rw [List.length_map]

theorem totalHeldCount_lt (h : WellFormed env repository) : totalHeldCount repository < 2 ^ 32 := by
  refine lt_of_le_of_lt ?_ h.positions
  exact List.sum_le_sum fun cycleId _ => positions_length_le repository cycleId

/-- The sum of the exposures is what is at risk. -/
theorem exposure_sum (env : ProjectionEnvironment) (repository : CycleRepository) :
    ((repository.listKnownCycleIds.map fun cycleId =>
      (cycleId, natText (cycleFigures env repository cycleId).atRisk)).map fun entry =>
        textNat entry.2).sum = (totalFigures env repository).atRisk := by
  have hpart := map_list_sum CustodyFigures.atRiskPart
    (repository.listKnownCycleIds.map (cycleFigures env repository))
  refine Eq.trans ?_ hpart.symm
  simp only [List.map_map, Function.comp_def, textNat_natText]
  rfl

/-- The engine takes the projection if at most as much is at risk as is outstanding. -/
theorem normalizeCustody_projected {custody : PolicyCustody} (h : WellFormed env repository)
    (hcustody : ProjectedAs env repository custody)
    (hcovered : (totalFigures env repository).atRisk ≤ (totalFigures env repository).outstanding) :
    ∃ custodyState, normalizeCustody custody.toCustodyProjection = .ok custodyState := by
  have hamount : ∀ n label, assertAmount (natText n) label = .ok n := fun n _ =>
    assertAmount_eq_ok.mpr ⟨isDecimal_natText n, textNat_natText n⟩
  have hheld : ∃ held, normalizeHeldPositions custody.heldPositions = .ok held := by
    have hcount : custody.heldPositions.count = totalHeldCount repository := hcustody.heldCount
    have hlength : (custody.heldPositions.positions.length : Int) = custody.heldPositions.count := by
      rw [hcustody.positions.length_eq, List.length_flatMap, hcount]
      rfl
    have hvalue : heldValue custody.heldPositions.positions = totalHeldValue repository := by
      rw [heldValue, (hcustody.positions.map _).sum_eq, List.map_flatMap, List.flatMap_def,
        List.sum_flatten, List.map_map]
      rfl
    have hcosts : ∀ position ∈ custody.heldPositions.positions, isDecimal position.costMicroUsd ∧
        textNat position.costMicroUsd = textNat position.valueMicroUsd := by
      intro position hposition
      rcases List.mem_flatMap.mp (hcustody.positions.mem_iff.mp hposition) with
        ⟨cycleId, hmem, hopen⟩
      exact positions_cost h hmem hopen
    have hsafe : ¬ (custody.heldPositions.count < 0 ∨
        maxSafeInteger < custody.heldPositions.count) := by
      have hbound := totalHeldCount_lt h
      rw [hcount, maxSafeInteger]
      omega
    simp only [normalizeHeldPositions, throwIf, revertIf_of_not hsafe, ok_bind,
      revertIf_of_not (not_not.mpr hlength), hcustody.heldValue, hamount, positionValue_ok hcosts,
      revertIf_of_not (not_not.mpr hvalue)]
    exact ⟨_, rfl⟩
  rcases hheld with ⟨held, hheld⟩
  rcases hcustody.exposure with ⟨exposure, hexposure, hperm⟩
  have hentries : ∀ entry ∈ exposure.entries, isIdentifier entry.1 ∧ isDecimal entry.2 := by
    intro entry hentry
    rcases List.mem_map.mp (hperm.mem_iff.mp hentry) with ⟨cycleId, hmem, rfl⟩
    exact ⟨h.cycleIds cycleId hmem, isDecimal_natText _⟩
  have hsum : (exposure.entries.map fun entry => textNat entry.2).sum =
      (totalFigures env repository).atRisk :=
    (hperm.map _).sum_eq.trans (exposure_sum env repository)
  have hwithin : ¬ ((totalFigures env repository).atRisk < (totalFigures env repository).atRisk ∨
      (totalFigures env repository).outstanding < (totalFigures env repository).atRisk) := by omega
  simp only [normalizeCustody, hcustody.realizedLoss, hcustody.atRisk, hcustody.outstanding, hamount,
    hheld, hexposure, Option.getD_some, totalCycleExposure_ok hentries, hsum, ok_bind, throwIf,
    revertIf_of_not hwithin]
  exact ⟨_, rfl⟩

end Acceptance

/-! ## Another order -/

/-- The same cycle, with its ledgers and positions in another order. -/
structure SameCycle (description other : CycleDescription) : Prop where
  ledgers : description.custodyLedgers.Perm other.custodyLedgers
  positions : description.heldPositions.Perm other.heldPositions
  rest : other = { description with
    custodyLedgers := other.custodyLedgers
    heldPositions := other.heldPositions }

/-- The same cycles in another order. -/
structure Reordered (repository other : CycleRepository) : Prop where
  cycleIds : repository.listKnownCycleIds.Perm other.listKnownCycleIds
  cycles : ∀ cycleId ∈ repository.listKnownCycleIds,
    SameCycle (repository.describeCycle cycleId) (other.describeCycle cycleId)

section Order

variable {repository other : CycleRepository}

theorem WellFormedCycle.of_same {description other : CycleDescription} {cycleId : Text}
    (h : WellFormedCycle description cycleId) (hsame : SameCycle description other) :
    WellFormedCycle other cycleId := by
  constructor
  · intro entry hentry
    exact h.ledgers entry (hsame.ledgers.mem_iff.mpr hentry)
  · intro entry hentry
    exact h.positions entry (hsame.positions.mem_iff.mpr hentry)
  · rw [hsame.rest]
    exact ⟨h.evidence.cost, h.evidence.netDelta, h.evidence.proceeds, h.evidence.supplementary⟩

theorem WellFormed.of_reordered (h : WellFormed env repository) (hsame : Reordered repository other) :
    WellFormed env other := by
  constructor
  · exact h.asset
  · exact hsame.cycleIds.nodup_iff.mp h.distinct
  · intro cycleId hmem
    exact h.cycleIds cycleId (hsame.cycleIds.mem_iff.mpr hmem)
  · intro cycleId hmem
    have hold := hsame.cycleIds.mem_iff.mpr hmem
    exact (h.cycles cycleId hold).of_same (hsame.cycles cycleId hold)
  · refine lt_of_eq_of_lt ?_ h.positions
    refine (hsame.cycleIds.map _).sum_eq.symm.trans (congrArg List.sum (List.map_congr_left ?_))
    intro cycleId hmem
    exact (hsame.cycles cycleId hmem).positions.length_eq.symm

theorem cycleFigures_reordered {cycleId : Text}
    (hsame : SameCycle (repository.describeCycle cycleId) (other.describeCycle cycleId)) :
    cycleFigures env other cycleId = cycleFigures env repository cycleId := by
  -- the figures of a ledger read nothing that depends on the other ledgers and positions
  have hledger : ledgerFigures env (other.describeCycle cycleId) cycleId =
      ledgerFigures env (repository.describeCycle cycleId) cycleId := by
    rw [hsame.rest]
    rfl
  rw [cycleFigures, cycleFigures, hledger]
  exact (hsame.ledgers.map _).sum_eq.symm

theorem totalFigures_reordered (env : ProjectionEnvironment) (hsame : Reordered repository other) :
    totalFigures env other = totalFigures env repository := by
  refine (hsame.cycleIds.map _).sum_eq.symm.trans (congrArg List.sum (List.map_congr_left ?_))
  intro cycleId hmem
  exact cycleFigures_reordered (hsame.cycles cycleId hmem)

theorem positions_reordered {cycleId : Text}
    (hsame : SameCycle (repository.describeCycle cycleId) (other.describeCycle cycleId)) :
    (repository.positions cycleId).Perm (other.positions cycleId) :=
  (hsame.positions.map _).filterMap _

theorem totalHeld_reordered (hsame : Reordered repository other) :
    totalHeldCount other = totalHeldCount repository ∧
      totalHeldValue other = totalHeldValue repository := by
  constructor
  · refine (hsame.cycleIds.map _).sum_eq.symm.trans (congrArg List.sum (List.map_congr_left ?_))
    intro cycleId hmem
    exact (positions_reordered (hsame.cycles cycleId hmem)).length_eq.symm
  · refine (hsame.cycleIds.map _).sum_eq.symm.trans (congrArg List.sum (List.map_congr_left ?_))
    intro cycleId hmem
    exact ((positions_reordered (hsame.cycles cycleId hmem)).map _).sum_eq.symm

end Order

/-! ## The contract of the projection -/

/-- The totals are the sums of the figures of the cycles and of the positions. -/
structure SumsUp (custody : PolicyCustody) : Prop where
  realizedLoss : textNat custody.realizedLossMicroUsd =
    (custody.cycles.map fun cycle => textNat cycle.realizedLossMicroUsd).sum
  atRisk : textNat custody.atRiskMicroUsd =
    (custody.cycles.map fun cycle => textNat cycle.atRiskMicroUsd).sum
  outstanding : textNat custody.outstandingMicroUsd =
    (custody.cycles.map fun cycle => textNat cycle.outstandingMicroUsd).sum
  heldCount : custody.heldPositions.count = custody.heldPositions.positions.length
  heldValue : textNat custody.heldPositions.valueMicroUsd =
    (custody.heldPositions.positions.map fun position => textNat position.valueMicroUsd).sum
  exposure : ∃ exposure, custody.cycleExposureMicroUsd = some exposure ∧
    exposure.entries.Perm (custody.cycles.map fun cycle => (cycle.cycleId, cycle.atRiskMicroUsd))

/-- The same totals, notes and exposures. -/
structure SameTotals (custody other : PolicyCustody) : Prop where
  realizedLoss : other.realizedLossMicroUsd = custody.realizedLossMicroUsd
  atRisk : other.atRiskMicroUsd = custody.atRiskMicroUsd
  outstanding : other.outstandingMicroUsd = custody.outstandingMicroUsd
  heldAssets : other.heldAssets = custody.heldAssets
  unattributed : other.unattributed = custody.unattributed
  unvaluedExposure : other.unvaluedExposure = custody.unvaluedExposure
  heldCount : other.heldPositions.count = custody.heldPositions.count
  heldValue : other.heldPositions.valueMicroUsd = custody.heldPositions.valueMicroUsd
  cycles : other.cycles.Perm custody.cycles

theorem ProjectedAs.sumsUp {repository : CycleRepository} {custody : PolicyCustody}
    (h : ProjectedAs env repository custody) : SumsUp custody := by
  have hpart : ∀ (part : CustodyFigures →+ Nat) (field : PolicyCycle → Text),
      (∀ cycleId figures, field (freezePolicyCycle cycleId figures) = natText (part figures)) →
      part (totalFigures env repository) =
        (custody.cycles.map fun cycle => textNat (field cycle)).sum := by
    intro part field hfield
    rw [(h.cycles.map _).sum_eq, totalFigures, map_list_sum, List.map_map, List.map_map]
    refine congrArg List.sum (List.map_congr_left fun cycleId _ => ?_)
    simp only [Function.comp_apply, hfield, textNat_natText]
  constructor
  · rw [h.realizedLoss, textNat_natText]
    exact hpart CustodyFigures.realizedLossPart PolicyCycle.realizedLossMicroUsd fun _ _ => rfl
  · rw [h.atRisk, textNat_natText]
    exact hpart CustodyFigures.atRiskPart PolicyCycle.atRiskMicroUsd fun _ _ => rfl
  · rw [h.outstanding, textNat_natText]
    exact hpart CustodyFigures.outstandingPart PolicyCycle.outstandingMicroUsd fun _ _ => rfl
  · rw [h.heldCount, h.positions.length_eq, List.length_flatMap]
    rfl
  · rw [h.heldValue, textNat_natText, (h.positions.map _).sum_eq, List.map_flatMap,
      List.flatMap_def, List.sum_flatten, List.map_map]
    rfl
  · rcases h.exposure with ⟨exposure, hexposure, hperm⟩
    refine ⟨exposure, hexposure, hperm.trans ?_⟩
    have hcycles := (h.cycles.map fun cycle => (cycle.cycleId, cycle.atRiskMicroUsd)).symm
    rw [List.map_map] at hcycles
    exact hcycles

theorem ProjectedAs.sameTotals {repository otherRepository : CycleRepository}
    {custody other : PolicyCustody} (h : ProjectedAs env repository custody)
    (hother : ProjectedAs env otherRepository other) (hsame : Reordered repository otherRepository) :
    SameTotals custody other := by
  have hfigures := totalFigures_reordered env hsame
  rcases totalHeld_reordered hsame with ⟨hcount, hvalue⟩
  constructor
  · rw [h.realizedLoss, hother.realizedLoss, hfigures]
  · rw [h.atRisk, hother.atRisk, hfigures]
  · rw [h.outstanding, hother.outstanding, hfigures]
  · rw [h.heldAssets, hother.heldAssets, hfigures]
  · rw [h.unattributed, hother.unattributed, hfigures]
  · rw [h.unvaluedExposure, hother.unvaluedExposure, hfigures]
  · rw [h.heldCount, hother.heldCount, hcount]
  · rw [h.heldValue, hother.heldValue, hvalue]
  · refine hother.cycles.trans ((hsame.cycleIds.symm.map _).trans (List.Perm.trans ?_ h.cycles.symm))
    refine List.Perm.of_eq (List.map_congr_left fun cycleId hmem => ?_)
    rw [cycleFigures_reordered (hsame.cycles cycleId hmem)]

/-- The projection of a well-formed repository: its totals are sums and do not depend on an
order; a live cycle is counted at the prices of its native ledgers; an amount without a price
is noted, and stops new claims; and where claims are covered, the engine takes the projection
and throws nothing on its account. -/
theorem projectPolicyCustody_sound {repository : CycleRepository} (h : WellFormed env repository) :
    ∃ custody, projectPolicyCustody env repository = .ok custody ∧ SumsUp custody ∧
      (∀ other, Reordered repository other → ∃ otherCustody,
        projectPolicyCustody env other = .ok otherCustody ∧ SameTotals custody otherCustody) ∧
      (∀ cycleId ∈ repository.listKnownCycleIds,
        (repository.describeCycle cycleId).isCompleted = false →
          ⟨cycleId, natText 0,
            natText ((repository.describeCycle cycleId).custodyLedgers.map
              (pricedAmount env CustodyLedger.unresolvedClaim cycleId)).sum,
            natText ((repository.describeCycle cycleId).custodyLedgers.map
              (pricedAmount env CustodyLedger.principalOutstanding cycleId)).sum⟩ ∈ custody.cycles ∧
          ((∃ entry ∈ (repository.describeCycle cycleId).custodyLedgers,
            UnpricedAmount env cycleId entry) → custody.unvaluedExposure = true)) ∧
      (custody.unvaluedExposure = true → ∀ (Operations : Type) (policy : PolicyEnvironment Operations)
        (c : OperatorConfiguration) (input : PolicyInput Operations) (now : Int)
        (cycleDigest : Option Text), input.boundary = .claimProcess →
          evaluate policy (some c) custody.toCustodyProjection input now ≠
            .ok (.allowed cycleDigest)) ∧
      (CoveredClaims env repository →
        (∃ custodyState, normalizeCustody custody.toCustodyProjection = .ok custodyState) ∧
        ∀ (Operations : Type) (policy : PolicyEnvironment Operations)
          (configuration : Option OperatorConfiguration) (input : PolicyInput Operations) (now : Int)
          (message : String),
          evaluate policy configuration custody.toCustodyProjection input now = .error message →
            evaluate policy configuration zeroCustody input now = .error message) := by
  have hprojected := projectedAs h
  refine ⟨_, projectPolicyCustody_ok h, hprojected.sumsUp, ?_, ?_, ?_, ?_⟩
  · intro other hsame
    have hother := h.of_reordered hsame
    exact ⟨_, projectPolicyCustody_ok hother, hprojected.sameTotals (projectedAs hother) hsame⟩
  · intro cycleId hmem hlive
    have hcycle := h.cycles cycleId hmem
    constructor
    · rw [hprojected.cycles.mem_iff, ← cycleFigures_atRisk hcycle hlive,
        ← cycleFigures_outstanding hcycle hlive]
      refine List.mem_map.mpr ⟨cycleId, hmem, ?_⟩
      rw [← cycleFigures_realizedLoss hcycle hlive]
      rfl
    · rintro ⟨entry, hentry, hunpriced⟩
      rw [hprojected.unvaluedExposure]
      exact totalFigures_unvalued hmem (cycleFigures_unpriced hcycle hlive hentry hunpriced)
  · intro hunvalued Operations policy c input now cycleDigest hboundary
    exact evaluate_unvalued hboundary hunvalued cycleDigest
  · intro hcovered
    rcases normalizeCustody_projected h hprojected (totalFigures_covered h hcovered) with
      ⟨custodyState, haccepted⟩
    refine ⟨⟨custodyState, haccepted⟩, ?_⟩
    intro Operations policy configuration input now message hthrown
    exact evaluate_throws haccepted hthrown

end

/-! ## Two repositories -/

def sampleAsset : AssetIdentity := ⟨text "4663", text "native", 18⟩

/-- A ledger of native ether whose balance was observed. -/
def sampleLedger (bucket : CustodyBucket → Text) : CustodyLedger where
  schema := text "hookemon.custody-ledger.v3"
  cycleId := text "cycle-1"
  chainId := text "4663"
  assetId := text "native"
  decimals := 18
  bucket := bucket
  verifiedCurrentBalance := .object []

/-- A repository with one cycle that goes on, with the given ledger. -/
def sampleRepository (ledger : CustodyLedger) : CycleRepository where
  listKnownCycleIds := [text "cycle-1"]
  describeCycle _ := {
    terminalState := none
    releaseAmount := text "9"
    admission := none
    custodyLedgers := [(text "evm", ledger)]
    heldPositions := []
    relayLegs := []
    supplementaryRealizedProceedsUsd := [] }

def sampleValuation (amount : TypedAmount) : FundingUsd where
  schema := text "hookemon.quote-usd-valuation.v1"
  quoteDigest := []
  requestDigest := []
  quoteRequestId := []
  sourcePath := text "details.currencyIn.amountUsd"
  amount := amount
  amountMicroUsd := natText (2 * amount.atomic)
  rounding := text "up"
  observedAtMs := 1000
  validUntilMs := 2000

/-- A process that prices the amounts that it is asked to at two micro dollars per wei. -/
def sampleProjectionEnvironment (prices : Nat → Bool) : ProjectionEnvironment where
  sha256 := id
  localeCompare s t := if s = t then 0 else if s ≤ t then -1 else 1
  nativeAsset := sampleAsset
  valueAmountUsd := some fun _ _ amount =>
    if prices amount.atomic then some ⟨sampleValuation amount, true, 1000, 1000⟩ else none

/-- A claim of nine of which five came back, and a residual of six. -/
def claimLedger : CustodyLedger := sampleLedger fun bucket =>
  match bucket with
  | .claimed => text "9"
  | .returnReceived => text "5"
  | .residual => text "6"
  | _ => text "0"

/-- One wei of assets that are held. -/
def heldLedger : CustodyLedger := sampleLedger fun bucket =>
  match bucket with
  | .heldAssets => text "1"
  | _ => text "0"

theorem wellFormed_sample (prices : Nat → Bool) {ledger : CustodyLedger}
    (h : WellFormedLedger ledger (text "cycle-1")) :
    WellFormed (sampleProjectionEnvironment prices) (sampleRepository ledger) := by
  constructor
  · show assertPolicyAssetIdentity sampleAsset = .ok ()
    decide
  · exact List.nodup_singleton _
  · intro cycleId hmem
    rw [List.mem_singleton.mp hmem]
    decide
  · intro cycleId hmem
    rw [List.mem_singleton.mp hmem]
    constructor
    · intro entry hentry
      rw [List.mem_singleton.mp hentry]
      exact h
    · intro entry hentry
      cases hentry
    · constructor
      · intro cost hcost
        cases hcost
      · intro leg hleg
        cases hleg
      · intro leg hleg
        cases hleg
      · intro usd husd
        cases husd
  · simp [CycleRepository.positionCount, sampleRepository]

theorem wellFormed_claimLedger : WellFormedLedger claimLedger (text "cycle-1") := by
  constructor
  · decide
  · decide
  · intro bucket
    cases bucket <;> decide

theorem projectPolicyCustody_sound_sample : ∃ custody,
    projectPolicyCustody (sampleProjectionEnvironment fun _ => true)
      (sampleRepository claimLedger) = .ok custody ∧
      ∃ custodyState, normalizeCustody custody.toCustodyProjection = .ok custodyState := by
  rcases projectPolicyCustody_sound (wellFormed_sample (fun _ => true) wellFormed_claimLedger) with
    ⟨custody, hcustody, -, -, -, -, haccepted⟩
  refine ⟨custody, hcustody, (haccepted ?_).1⟩
  intro cycleId hmem hlive entry hentry hnative claim hclaim
  rw [List.mem_singleton.mp hentry] at hclaim ⊢
  rw [List.mem_singleton.mp hmem] at hclaim ⊢
  refine ⟨20, by decide +kernel, ?_⟩
  have hvalue : valueWei (sampleProjectionEnvironment fun _ => true) (text "cycle-1") (text "evm")
      claimLedger.unresolvedClaim = some 8 := by decide +kernel
  rw [hvalue] at hclaim
  exact (Option.some.inj hclaim) ▸ (by decide)

/-- Held assets of native ether are in no total, and no exposure is noted for them. A claim
that is priced where the principal is not leaves a projection that the engine throws on. -/
theorem projectPolicyCustody_gaps :
    (∃ custody, projectPolicyCustody (sampleProjectionEnvironment fun _ => true)
        (sampleRepository heldLedger) = .ok custody ∧
        heldLedger.atomic .heldAssets = 1 ∧ custody.atRiskMicroUsd = text "0" ∧
          custody.outstandingMicroUsd = text "0" ∧ custody.unvaluedExposure = false) ∧
      ∃ custody, projectPolicyCustody (sampleProjectionEnvironment fun amount => amount = 4)
        (sampleRepository claimLedger) = .ok custody ∧ custody.unvaluedExposure = true ∧
          normalizeCustody custody.toCustodyProjection =
            .error "policy per-cycle exposure exceeds aggregate custody" := by
  constructor
  · rcases exists_ok_of_check (p := fun custody : PolicyCustody => decide
      (heldLedger.atomic .heldAssets = 1 ∧ custody.atRiskMicroUsd = text "0" ∧
        custody.outstandingMicroUsd = text "0" ∧ custody.unvaluedExposure = false))
      (x := projectPolicyCustody (sampleProjectionEnvironment fun _ => true)
        (sampleRepository heldLedger)) (by decide +kernel) with ⟨custody, hcustody, hcheck⟩
    exact ⟨custody, hcustody, of_decide_eq_true hcheck⟩
  · rcases exists_ok_of_check (p := fun custody : PolicyCustody => decide
      (custody.unvaluedExposure = true ∧ normalizeCustody custody.toCustodyProjection =
        .error "policy per-cycle exposure exceeds aggregate custody"))
      (x := projectPolicyCustody (sampleProjectionEnvironment fun amount => amount = 4)
        (sampleRepository claimLedger)) (by decide +kernel) with ⟨custody, hcustody, hcheck⟩
    exact ⟨custody, hcustody, of_decide_eq_true hcheck⟩

end Hookemon.Adapters
