import Hookemon.Runner.PolicyEngine

/-! # Decisions on an accepted custody

Once `normalizeCustody` accepts a custody, nothing else of it can make an evaluation throw:
what is thrown then is thrown at a custody of zero as well. And no custody with an unvalued
exposure lets a claim through.
-/

namespace Hookemon.Runner

open Hookemon.Core Hookemon.Js

/-! ## What an evaluation throws -/

section

variable {α β γ δ : Type}

/-- The evaluation comes to a decision. -/
def Decides (x : Except Halt α) : Prop := ∀ message, x ≠ .error (.thrown message)

/-- What the first evaluation throws, the second one throws. -/
def ThrowsOnlyAs (x : Except Halt α) (y : Except Halt β) : Prop :=
  ∀ message, x = .error (.thrown message) → y = .error (.thrown message)

theorem Decides.throwsOnlyAs {x : Except Halt α} {y : Except Halt β} (h : Decides x) :
    ThrowsOnlyAs x y := fun message hthrown => absurd hthrown (h message)

theorem ThrowsOnlyAs.refl (x : Except Halt α) : ThrowsOnlyAs x x := fun _ h => h

theorem decides_ok (a : α) : Decides (.ok a : Except Halt α) := by
  intro message h
  cases h

theorem decides_refused (reason : RefusalReason) :
    Decides (.error (.refused reason) : Except Halt α) := by
  intro message h
  cases h

theorem decides_refuseIf (c : Prop) [Decidable c] (reason : RefusalReason) :
    Decides (refuseIf c reason) := by
  intro message h
  rw [revertIf_eq_error] at h
  exact nomatch h.2

theorem Decides.bind {x : Except Halt α} {f : α → Except Halt γ} (hx : Decides x)
    (hf : ∀ a, x = .ok a → Decides (f a)) : Decides (x >>= f) := by
  intro message h
  rcases bind_eq_error.mp h with hfirst | ⟨a, ha, hrest⟩
  · exact hx message hfirst
  · exact hf a ha message hrest

/-- A refusal comes before the rest, which comes to a decision. -/
theorem Decides.refuse_bind {c : Prop} [Decidable c] {reason : RefusalReason}
    {f : Unit → Except Halt γ} (h : Decides (f ())) : Decides (refuseIf c reason >>= f) :=
  Decides.bind (decides_refuseIf c reason) fun _ _ => h

/-- Two sequences, where the second goes on whenever the first does. -/
theorem ThrowsOnlyAs.bind {x : Except Halt α} {y : Except Halt β} {f : α → Except Halt γ}
    {g : β → Except Halt δ} (hx : ThrowsOnlyAs x y)
    (h : ∀ a, x = .ok a → ∃ b, y = .ok b ∧ ThrowsOnlyAs (f a) (g b)) :
    ThrowsOnlyAs (x >>= f) (y >>= g) := by
  intro message hthrown
  rcases bind_eq_error.mp hthrown with hfirst | ⟨a, ha, hrest⟩
  · exact bind_eq_error.mpr (.inl (hx message hfirst))
  · rcases h a ha with ⟨b, hb, hsame⟩
    exact bind_eq_error.mpr (.inr ⟨b, hb, hsame message hrest⟩)

/-- Two sequences with the same first part. -/
theorem throwsOnlyAs_bind {x : Except Halt α} {f : α → Except Halt γ} {g : α → Except Halt δ}
    (h : ∀ a, x = .ok a → ThrowsOnlyAs (f a) (g a)) : ThrowsOnlyAs (x >>= f) (x >>= g) :=
  ThrowsOnlyAs.bind (.refl x) fun a ha => ⟨a, ha, h a ha⟩

/-- A sequence whose rest comes to a decision. -/
theorem ThrowsOnlyAs.bind_decides {x : Except Halt α} {y : Except Halt β} {f : α → Except Halt γ}
    {g : β → Except Halt δ} (hx : ThrowsOnlyAs x y) (hf : ∀ a, x = .ok a → Decides (f a)) :
    ThrowsOnlyAs (x >>= f) (y >>= g) := by
  intro message hthrown
  rcases bind_eq_error.mp hthrown with hfirst | ⟨a, ha, hrest⟩
  · exact bind_eq_error.mpr (.inl (hx message hfirst))
  · exact absurd hrest (hf a ha message)

end

/-! ## Accepted custody -/

/-- No cycle is exposed beyond the totals. -/
structure SoundCustody (custodyState : NormalizedCustody) : Prop where
  count : 0 ≤ custodyState.heldPositions.count
  exposure : ∀ cycleId amount, custodyState.cycleExposureMicroUsd.find cycleId = some amount →
    isDecimal amount ∧ textNat amount ≤ custodyState.atRiskMicroUsd ∧
      textNat amount ≤ custodyState.outstandingMicroUsd

theorem assertAmount_eq_ok {value : Text} {label : String} {amount : Nat} :
    assertAmount value label = .ok amount ↔ isDecimal value ∧ textNat value = amount := by
  simp only [assertAmount, throwIf, bind_eq_ok, revertIf_eq_ok, pure_eq_ok, not_not]
  constructor
  · rintro ⟨_, hdecimal, heq⟩
    exact ⟨hdecimal, heq⟩
  · rintro ⟨hdecimal, heq⟩
    exact ⟨(), hdecimal, heq⟩

theorem totalCycleExposure_mem {entries : List (Text × Text)} {total : Nat}
    (h : totalCycleExposure entries = .ok total) :
    ∀ entry ∈ entries, isDecimal entry.2 ∧ textNat entry.2 ≤ total := by
  induction entries generalizing total with
  | nil => simp
  | cons entry entries ih =>
    simp only [totalCycleExposure, bind_eq_ok, pure_eq_ok, assertAmount_eq_ok] at h
    rcases h with ⟨_, -, amount, ⟨hdecimal, rfl⟩, rest, hrest, rfl⟩
    intro other hother
    rcases List.mem_cons.mp hother with rfl | hmem
    · exact ⟨hdecimal, Nat.le_add_right _ _⟩
    · rcases ih hrest other hmem with ⟨hother, hle⟩
      exact ⟨hother, le_trans hle (Nat.le_add_left _ _)⟩

theorem normalizeCustody_sound {custody : CustodyProjection} {custodyState : NormalizedCustody}
    (h : normalizeCustody custody = .ok custodyState) : SoundCustody custodyState := by
  simp only [normalizeCustody, bind_eq_ok, pure_eq_ok, throwIf, revertIf_eq_ok] at h
  rcases h with ⟨loss, -, atRisk, -, outstanding, -, held, hheld, total, htotal, _, hwithin, rfl⟩
  constructor
  · simp only [normalizeHeldPositions, bind_eq_ok, pure_eq_ok, throwIf, revertIf_eq_ok] at hheld
    rcases hheld with ⟨_, hcount, _, -, _, -, _, -, _, -, rfl⟩
    show 0 ≤ custody.heldPositions.count
    omega
  · intro cycleId amount hfind
    have hmem : (cycleId, amount) ∈ (custody.cycleExposureMicroUsd.getD .empty).entries :=
      Record.mem_of_find hfind
    have hle : textNat amount ≤ total := (totalCycleExposure_mem htotal _ hmem).2
    refine ⟨(totalCycleExposure_mem htotal _ hmem).1, ?_, ?_⟩
    · show textNat amount ≤ atRisk
      omega
    · show textNat amount ≤ outstanding
      omega

def zeroCustodyState : NormalizedCustody where
  realizedLossMicroUsd := 0
  atRiskMicroUsd := 0
  outstandingMicroUsd := 0
  heldAssets := false
  heldPositions := ⟨0, 0⟩
  unattributed := false
  unvaluedExposure := false
  cycleExposureMicroUsd := .empty

theorem normalizeCustody_zero : normalizeCustody zeroCustody = .ok zeroCustodyState := by
  decide +kernel

/-! ## Evaluations on an accepted custody -/

section

variable {Operations : Type} {env : PolicyEnvironment Operations}

/-- The same evaluation at another custody. -/
def Gated.at (g : Gated Operations) (custodyState : NormalizedCustody) : Gated Operations :=
  { g with custodyState := custodyState }

@[simp] theorem Gated.at_context (g : Gated Operations) (custodyState : NormalizedCustody) :
    (g.at custodyState).context = g.context := rfl

@[simp] theorem Gated.at_normalized (g : Gated Operations) (custodyState : NormalizedCustody) :
    (g.at custodyState).normalized = g.normalized := rfl

theorem evaluateGates_at {c : OperatorConfiguration} {custody other : CustodyProjection}
    {custodyState otherState : NormalizedCustody} {input : PolicyInput Operations} {now : Int}
    (h : normalizeCustody custody = .ok custodyState)
    (hother : normalizeCustody other = .ok otherState) :
    evaluateGates env c other input now =
      (fun g => g.at otherState) <$> evaluateGates env c custody input now := by
  simp only [evaluateGates, h, hother, throws, ok_bind, map_bind]
  rfl

theorem evaluateClaimLimits_decides (c : OperatorConfiguration) (custodyState : NormalizedCustody)
    (context : PolicyContext Operations) (cycleId : Text) :
    Decides (evaluateClaimLimits c custodyState context cycleId) := by
  unfold evaluateClaimLimits
  iterate 8 apply Decides.refuse_bind
  exact decides_refuseIf _ _

/-- A claim within the limits is within them at no custody. -/
theorem evaluateClaimLimits_zero {c : OperatorConfiguration} {custodyState : NormalizedCustody}
    {context : PolicyContext Operations} {cycleId : Text} (hsound : SoundCustody custodyState)
    (h : evaluateClaimLimits c custodyState context cycleId = .ok ()) :
    evaluateClaimLimits c zeroCustodyState context cycleId = .ok () := by
  simp only [evaluateClaimLimits, bind_eq_ok, revertIf_eq_ok] at h ⊢
  rcases h with ⟨_, -, _, -, _, hheld, hrest⟩
  refine ⟨(), ?_, (), ?_, (), ?_, hrest⟩
  · simp [zeroCustodyState]
  · simp [zeroCustodyState]
  · rintro (hcount | hvalue)
    · have hnone := hsound.count
      have hmax : c.maxHeldPositions ≤ 0 := hcount
      exact hheld (.inl (by omega))
    · exact absurd hvalue (Nat.not_lt_zero _)

theorem evaluateCustodyCaps_decides (c : OperatorConfiguration)
    (custodyState : NormalizedCustody) : Decides (evaluateCustodyCaps c custodyState) := by
  unfold evaluateCustodyCaps
  apply Decides.refuse_bind
  exact decides_refuseIf _ _

theorem evaluateClaimSpend_decides {c : OperatorConfiguration} {custodyState : NormalizedCustody}
    (hsound : SoundCustody custodyState) (context : PolicyContext Operations)
    (cycleId cycleDigest : Text) :
    Decides (evaluateClaimSpend c custodyState context cycleId cycleDigest) := by
  -- the amount that is accounted for the cycle is zero, or the exposure of the record
  have hamount : ∃ accounted, optionalAmount (custodyState.cycleExposureMicroUsd.find cycleId)
      "policy cycle exposure MicroUsd" = .ok accounted ∧
      accounted ≤ custodyState.atRiskMicroUsd ∧ accounted ≤ custodyState.outstandingMicroUsd := by
    cases hfind : custodyState.cycleExposureMicroUsd.find cycleId with
    | none => exact ⟨0, rfl, Nat.zero_le _, Nat.zero_le _⟩
    | some amount =>
      rcases hsound.exposure cycleId amount hfind with ⟨hdecimal, hrisk, houtstanding⟩
      exact ⟨textNat amount, assertAmount_eq_ok.mpr ⟨hdecimal, rfl⟩, hrisk, houtstanding⟩
  rcases hamount with ⟨accounted, haccounted, hrisk, houtstanding⟩
  have hwithin : ¬ (custodyState.atRiskMicroUsd < accounted ∨
      custodyState.outstandingMicroUsd < accounted) := by omega
  simp only [evaluateClaimSpend, haccounted, throws, ok_bind, revertIf_of_not hwithin]
  iterate 6 apply Decides.refuse_bind
  exact decides_refuseIf _ _

theorem evaluateClaimProcess_throws {c : OperatorConfiguration} {custodyState : NormalizedCustody}
    (hsound : SoundCustody custodyState) (context : PolicyContext Operations) :
    ThrowsOnlyAs (evaluateClaimProcess env c custodyState context)
      (evaluateClaimProcess env c zeroCustodyState context) := by
  unfold evaluateClaimProcess
  cases context.cycleId with
  | none => exact .refl _
  | some cycleId =>
    cases context.packId with
    | none => exact .refl _
    | some packId =>
      apply ThrowsOnlyAs.bind
      · exact (evaluateClaimLimits_decides c custodyState context cycleId).throwsOnlyAs
      · intro _ hlimits
        refine ⟨(), evaluateClaimLimits_zero hsound hlimits, ?_⟩
        apply throwsOnlyAs_bind
        intro cycleDigest _
        apply Decides.throwsOnlyAs
        apply Decides.bind
        · exact evaluateClaimSpend_decides hsound context cycleId cycleDigest
        · intro _ _
          exact decides_ok _

theorem evaluateExistingPurchase_throws (c : OperatorConfiguration)
    (custodyState otherState : NormalizedCustody) (context : PolicyContext Operations)
    (existing : CycleEntry) (cycleId packId : Text) :
    ThrowsOnlyAs (evaluateExistingPurchase env c custodyState context existing cycleId packId)
      (evaluateExistingPurchase env c otherState context existing cycleId packId) := by
  unfold evaluateExistingPurchase
  apply throwsOnlyAs_bind
  intro expectedDigest _
  cases c.spendLedger.find? fun entry => decide (entry.cycleDigest = expectedDigest) with
  | none => exact .refl _
  | some reservation =>
    apply Decides.throwsOnlyAs
    iterate 3 apply Decides.refuse_bind
    apply Decides.bind
    · exact evaluateCustodyCaps_decides c custodyState
    · intro _ _
      exact decides_ok _

theorem evaluatePurchaseBoundary_throws (c : OperatorConfiguration)
    (custodyState : NormalizedCustody) (context : PolicyContext Operations) :
    ThrowsOnlyAs (evaluatePurchaseBoundary env c custodyState context)
      (evaluatePurchaseBoundary env c zeroCustodyState context) := by
  unfold evaluatePurchaseBoundary
  cases context.cycleId with
  | none => exact .refl _
  | some cycleId =>
    cases context.packId with
    | none => exact .refl _
    | some packId =>
      -- the first two refusals are not made at no custody
      iterate 2 refine (decides_refuseIf _ _).throwsOnlyAs.bind fun _ _ => ⟨(), rfl, ?_⟩
      iterate 2 refine throwsOnlyAs_bind fun _ _ => ?_
      cases existingCycle c cycleId with
      | none => exact .refl _
      | some existing =>
        exact evaluateExistingPurchase_throws c custodyState zeroCustodyState context existing
          cycleId packId

theorem evaluateBranch_throws {g : Gated Operations} (hsound : SoundCustody g.custodyState) :
    ThrowsOnlyAs (evaluateBranch env g) (evaluateBranch env (g.at zeroCustodyState)) := by
  unfold evaluateBranch
  iterate 2 refine throwsOnlyAs_bind fun _ _ => ?_
  rw [Gated.at_context]
  cases g.context.boundary with
  | cycleStart => exact .refl _
  | claimProcess => exact evaluateClaimProcess_throws hsound g.context
  | purchase => exact evaluatePurchaseBoundary_throws g.normalized g.custodyState g.context
  | signature => exact .refl _
  | broadcast => exact .refl _
  | mutation => exact .refl _

/-! ## Whole evaluations -/

variable {custody : CustodyProjection} {custodyState : NormalizedCustody}

theorem evaluateGates_zero {c : OperatorConfiguration} {input : PolicyInput Operations}
    {now : Int} {g : Gated Operations} (h : normalizeCustody custody = .ok custodyState)
    (hgates : evaluateGates env c custody input now = .ok g) :
    evaluateGates env c zeroCustody input now = .ok (g.at zeroCustodyState) ∧
      g.custodyState = custodyState ∧ ∃ context, admissionContext env input now = .ok context := by
  refine ⟨?_, ?_, ?_⟩
  · rw [evaluateGates_at h normalizeCustody_zero, hgates]
    rfl
  · have hstate := (evaluateGates_ok hgates).2.2.2
    rw [h] at hstate
    exact (Except.ok.inj hstate).symm
  · simp only [evaluateGates, bind_eq_ok, throws_eq_ok] at hgates
    rcases hgates with ⟨context, hcontext, -⟩
    exact ⟨context, hcontext⟩

theorem evaluateGates_throws (c : OperatorConfiguration) (input : PolicyInput Operations)
    (now : Int) (h : normalizeCustody custody = .ok custodyState) :
    ThrowsOnlyAs (evaluateGates env c custody input now)
      (evaluateGates env c zeroCustody input now) := by
  intro message hthrown
  rw [evaluateGates_at h normalizeCustody_zero, hthrown]
  rfl

theorem evaluateMoneyBoundary_throws (c : OperatorConfiguration) (input : PolicyInput Operations)
    (now : Int) (h : normalizeCustody custody = .ok custodyState) :
    ThrowsOnlyAs (evaluateMoneyBoundary env c custody input now)
      (evaluateMoneyBoundary env c zeroCustody input now) := by
  unfold evaluateMoneyBoundary
  apply (evaluateGates_throws c input now h).bind
  intro g hgates
  rcases evaluateGates_zero h hgates with ⟨hzero, hstate, -⟩
  refine ⟨g.at zeroCustodyState, hzero, evaluateBranch_throws ?_⟩
  rw [hstate]
  exact normalizeCustody_sound h

theorem evaluateAdmittedClaimExecution_throws (c : OperatorConfiguration)
    (input : PolicyInput Operations) (now : Int) (h : normalizeCustody custody = .ok custodyState) :
    ThrowsOnlyAs (evaluateAdmittedClaimExecution env c custody input now)
      (evaluateAdmittedClaimExecution env c zeroCustody input now) := by
  unfold evaluateAdmittedClaimExecution
  apply (evaluateMoneyBoundary_throws c _ now h).bind_decides
  intro decision hdecision
  -- the context was already made for the decision
  rw [evaluateMoneyBoundary, bind_eq_ok] at hdecision
  rcases hdecision with ⟨g, hgates, -⟩
  rcases (evaluateGates_zero h hgates).2.2 with ⟨context, hcontext⟩
  simp only [hcontext, throws, ok_bind]
  apply Decides.refuse_bind
  exact decides_ok decision

theorem evaluateRecordedExecution_throws (c : OperatorConfiguration)
    (custodyState otherState : NormalizedCustody) (context : PolicyContext Operations)
    (existing : CycleEntry) (cycleId packId : Text) :
    ThrowsOnlyAs (evaluateRecordedExecution env c custodyState context existing cycleId packId)
      (evaluateRecordedExecution env c otherState context existing cycleId packId) := by
  unfold evaluateRecordedExecution
  iterate 2 refine throwsOnlyAs_bind fun _ _ => ?_
  apply Decides.throwsOnlyAs
  iterate 2 apply Decides.refuse_bind
  apply Decides.bind
  · exact evaluateCustodyCaps_decides c custodyState
  · intro _ _
    exact decides_ok _

theorem evaluateExistingCycleExecution_throws (c : OperatorConfiguration)
    (custodyState otherState : NormalizedCustody) (context : PolicyContext Operations) :
    ThrowsOnlyAs (evaluateExistingCycleExecution env c custodyState context)
      (evaluateExistingCycleExecution env c otherState context) := by
  unfold evaluateExistingCycleExecution
  cases context.cycleId with
  | none => exact .refl _
  | some cycleId =>
    cases context.packId with
    | none => exact .refl _
    | some packId =>
      iterate 3 refine throwsOnlyAs_bind fun _ _ => ?_
      cases existingCycle c cycleId with
      | none => exact .refl _
      | some existing =>
        exact evaluateRecordedExecution_throws c custodyState otherState context existing cycleId
          packId

theorem evaluateExecution_throws (g : Gated Operations) (input : PolicyInput Operations)
    (now : Int) (h : normalizeCustody custody = .ok custodyState) :
    ThrowsOnlyAs (evaluateExecution env g custody input now)
      (evaluateExecution env (g.at zeroCustodyState) zeroCustody input now) := by
  unfold evaluateExecution
  refine throwsOnlyAs_bind fun _ _ => ?_
  by_cases hclaim : input.stage = some (text "claim-process")
  · rw [if_pos hclaim, if_pos hclaim]
    exact evaluateAdmittedClaimExecution_throws g.normalized input now h
  · by_cases hpurchase : input.stage = some (text "purchase")
    · rw [if_neg hclaim, if_neg hclaim, if_pos hpurchase, if_pos hpurchase]
      exact evaluateMoneyBoundary_throws g.normalized _ now h
    · rw [if_neg hclaim, if_neg hclaim, if_neg hpurchase, if_neg hpurchase]
      by_cases hsnapshot : g.context.boundary = .mutation ∧
          input.stage = some (text "eligibility-snapshot") ∧
          g.context.cycleId.bind (existingCycle g.normalized) = none
      · rw [if_pos hsnapshot]
        exact (decides_ok none).throwsOnlyAs
      · rw [Gated.at_context, Gated.at_normalized, if_neg hsnapshot, if_neg hsnapshot]
        exact evaluateExistingCycleExecution_throws g.normalized g.custodyState zeroCustodyState
          g.context

theorem evaluateConfiguredPolicy_throws (c : OperatorConfiguration)
    (input : PolicyInput Operations) (now : Int) (h : normalizeCustody custody = .ok custodyState) :
    ThrowsOnlyAs (evaluateConfiguredPolicy env c custody input now)
      (evaluateConfiguredPolicy env c zeroCustody input now) := by
  unfold evaluateConfiguredPolicy
  apply (evaluateGates_throws c input now h).bind
  intro g hgates
  rcases evaluateGates_zero h hgates with ⟨hzero, hstate, -⟩
  refine ⟨g.at zeroCustodyState, hzero, ?_⟩
  by_cases hexecution : g.context.boundary.isExecution = true ∧ (g.context.cycleId ≠ none ∨
      g.context.packId ≠ none ∨ g.context.releaseAmount ≠ 0)
  · rw [Gated.at_context, if_pos hexecution, if_pos hexecution]
    exact evaluateExecution_throws g input now h
  · rw [Gated.at_context, if_neg hexecution, if_neg hexecution]
    apply evaluateBranch_throws
    rw [hstate]
    exact normalizeCustody_sound h

/-- An accepted custody makes no evaluation throw: what is thrown is thrown without it. -/
theorem evaluate_throws {configuration : Option OperatorConfiguration}
    {input : PolicyInput Operations} {now : Int} {message : String}
    (h : normalizeCustody custody = .ok custodyState)
    (hthrown : evaluate env configuration custody input now = .error message) :
    evaluate env configuration zeroCustody input now = .error message := by
  cases configuration with
  | none => exact nomatch hthrown
  | some c =>
    have hpolicy : evaluateConfiguredPolicy env c custody input now = .error (.thrown message) := by
      simp only [evaluate] at hthrown
      cases hresult : evaluateConfiguredPolicy env c custody input now with
      | ok cycleDigest =>
        rw [hresult] at hthrown
        exact nomatch hthrown
      | error halt =>
        rw [hresult] at hthrown
        cases halt with
        | refused reason => exact nomatch hthrown
        | thrown other => rw [Except.error.inj hthrown]
    have hzero := evaluateConfiguredPolicy_throws c input now h message hpolicy
    simp only [evaluate, hzero, decisionOf]

/-- No claim is allowed while an exposure is unvalued. -/
theorem evaluate_unvalued {c : OperatorConfiguration} {input : PolicyInput Operations} {now : Int}
    (hboundary : input.boundary = .claimProcess) (hunvalued : custody.unvaluedExposure = true)
    (cycleDigest : Option Text) :
    evaluate env (some c) custody input now ≠ .ok (.allowed cycleDigest) := by
  intro h
  have hpolicy : evaluateConfiguredPolicy env c custody input now = .ok cycleDigest := by
    simp only [evaluate] at h
    cases hresult : evaluateConfiguredPolicy env c custody input now with
    | ok allowed =>
      rw [hresult] at h
      rw [PolicyDecision.allowed.inj (Except.ok.inj h)]
    | error halt =>
      rw [hresult] at h
      cases halt <;> exact nomatch h
  rcases evaluateConfiguredPolicy_claim hboundary hpolicy with ⟨g, cycleId, packId, digest, hallowed⟩
  have hcustody := (evaluateGates_ok hallowed.gates).2.2.2
  have hlimits := hallowed.limits
  simp only [normalizeCustody, bind_eq_ok, pure_eq_ok, throwIf, revertIf_eq_ok] at hcustody
  rcases hcustody with ⟨_, -, _, -, _, -, _, -, _, -, _, -, hstate⟩
  have hnoted : g.custodyState.unvaluedExposure = true := by
    rw [← hstate]
    exact hunvalued
  simp only [evaluateClaimLimits, bind_eq_ok, revertIf_eq_ok] at hlimits
  rcases hlimits with ⟨_, -, _, hvalued, -⟩
  exact hvalued hnoted

end

end Hookemon.Runner
