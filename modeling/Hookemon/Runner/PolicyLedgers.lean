import Hookemon.Core.Runs
import Hookemon.Runner.PolicyEngine

/-! # The ledgers of the policy engine

The engine runs while the operator edits the configuration and the custody changes. A
call of `admit` is decided twice: once on what it reads, and once more inside the
mutation of the configuration, in which it may be entered. Between the two anything may
happen; the mutations follow each other, and the clock does not go back.

What is entered stays within the limits that are in force at that moment, and the two
ledgers grow together, entry by entry.
-/

namespace Hookemon.Runner

open Hookemon.Core Hookemon.Js

/-! ## Runs -/

/-- The last reading of the clock, the configuration, and the calls of `admit` whose
first decision let them go on to the mutation. -/
structure PolicyState (Operations : Type) where
  now : Int
  configuration : Option OperatorConfiguration
  admitted : List (PolicyInput Operations)

inductive PolicyEvent (Operations : Type) where
  /-- A call of `admit` up to its first decision. -/
  | admission (input : PolicyInput Operations) (custody : CustodyProjection) (elapsed : Nat)
  /-- The mutation of one of the calls, which `mutateConfiguration` may try again. -/
  | reserve (call : Nat) (custody : CustodyProjection) (elapsed later : Nat)
  | edit (patch : ConfigurationPatch)
  | approve (cycleDigest cycleId : Text) (approvedAtMs : Option Int) (elapsed : Nat)

inductive PolicyAnswer where
  | decided (decision : Except String PolicyDecision)
  | written (result : Except String Unit)

variable {Operations : Type}

namespace PolicyState

/-- Nothing configured, nothing called. -/
def initial : PolicyState Operations := ⟨0, none, []⟩

def cycleLedger (s : PolicyState Operations) : List CycleEntry :=
  s.configuration.elim [] OperatorConfiguration.cycleLedger

def spendLedger (s : PolicyState Operations) : List SpendEntry :=
  s.configuration.elim [] OperatorConfiguration.spendLedger

/-- The configuration that a mutation leaves, if it comes to its end. -/
def write (s : PolicyState Operations) (now : Int) (result : Except String OperatorConfiguration) :
    PolicyState Operations × PolicyAnswer :=
  match result with
  | .ok next => ({ s with now := now, configuration := some next }, .written (.ok ()))
  | .error message => ({ s with now := now }, .written (.error message))

end PolicyState

/-- Whether `admit` goes on to its mutation. -/
def goesOn (input : PolicyInput Operations) (decision : Except String PolicyDecision) : Bool :=
  input.boundary = .claimProcess && input.reservePolicy &&
    match decision with
    | .ok (.allowed _) => true
    | _ => false

/-- What an event does, and what it is answered. -/
def policyStep (env : PolicyEnvironment Operations) (s : PolicyState Operations) :
    PolicyEvent Operations → PolicyState Operations × PolicyAnswer
  | .admission input custody elapsed =>
    let now := s.now + elapsed
    let decision := evaluate env s.configuration custody input now
    ({ s with
        now := now
        admitted := if goesOn input decision then s.admitted ++ [input] else s.admitted },
      .decided decision)
  | .reserve call custody elapsed later =>
    match s.admitted[call]?, s.configuration with
    | some input, some c =>
      match admitMutation env custody input (s.now + elapsed) (s.now + elapsed + later) c with
      | .ok (next, decision) =>
        ({ s with now := s.now + elapsed + later, configuration := some next },
          .decided (.ok decision))
      | .error message => ({ s with now := s.now + elapsed + later }, .decided (.error message))
    | _, _ => (s, .decided (.error "policy configuration is missing"))
  | .edit patch => s.write s.now (applyOperatorConfiguration s.configuration patch)
  | .approve cycleDigest cycleId approvedAtMs elapsed =>
    match s.configuration with
    | some c =>
      s.write (s.now + elapsed)
        (recordManualApproval cycleDigest cycleId approvedAtMs (s.now + elapsed) c)
    | none => (s, .written (.error "policy configuration is missing"))

/-! ## Windows -/

section

variable {α : Type} {events : List α} {field : α → Int} {now later : Int}

/-- A later window holds no more of what happened before the earlier one ended. -/
theorem withinTrailingWindow_later (hle : now ≤ later) (hpast : ∀ e ∈ events, field e ≤ now) :
    (withinTrailingWindow events field later).Sublist (withinTrailingWindow events field now) := by
  have hnarrow : withinTrailingWindow events field later =
      (withinTrailingWindow events field now).filter fun e =>
        decide (field e ≤ later ∧ later - field e < POLICY_WINDOW_MS) := by
    unfold withinTrailingWindow
    rw [List.filter_filter]
    apply List.filter_congr
    intro e he
    have hbefore := hpast e he
    by_cases hin : field e ≤ later ∧ later - field e < POLICY_WINDOW_MS
    · have hnow : field e ≤ now ∧ now - field e < POLICY_WINDOW_MS := ⟨hbefore, by omega⟩
      rw [decide_eq_true hin, decide_eq_true hnow]
      rfl
    · rw [decide_eq_false hin]
      rfl
  rw [hnarrow]
  exact List.filter_sublist

/-- What happens at the end of the window is in it. -/
theorem withinTrailingWindow_concat {e : α} (he : field e = now) :
    withinTrailingWindow (events ++ [e]) field now = withinTrailingWindow events field now ++ [e] := by
  unfold withinTrailingWindow
  rw [List.filter_append]
  have hin : field e ≤ now ∧ now - field e < POLICY_WINDOW_MS := by
    rw [he, Int.sub_self]
    exact ⟨le_rfl, by decide⟩
  simp [hin]

end

/-! ## The two ledgers -/

/-- What the two entries of a reservation have in common. -/
def CycleEntry.reservation (e : CycleEntry) : Text × Text × Text × Int :=
  (e.cycleId, e.cycleDigest, e.releaseCostMicroUsd, e.openedAtMs)

def SpendEntry.reservation (e : SpendEntry) : Text × Text × Text × Int :=
  (e.cycleId, e.cycleDigest, e.amountMicroUsd, e.reservedAtMs)

/-- The ledgers correspond entry by entry, and name no cycle and no digest twice. -/
structure LedgersMatch (cycles : List CycleEntry) (spends : List SpendEntry) : Prop where
  corresponds : spends.map SpendEntry.reservation = cycles.map CycleEntry.reservation
  cycleIds : (cycles.map CycleEntry.cycleId).Nodup
  cycleDigests : (cycles.map CycleEntry.cycleDigest).Nodup
  spendCycleIds : (spends.map SpendEntry.cycleId).Nodup
  spendCycleDigests : (spends.map SpendEntry.cycleDigest).Nodup

theorem ledgersMatch_nil : LedgersMatch [] [] :=
  ⟨rfl, List.nodup_nil, List.nodup_nil, List.nodup_nil, List.nodup_nil⟩

/-- A field of both entries is the same in both ledgers. -/
theorem LedgersMatch.field {cycles : List CycleEntry} {spends : List SpendEntry}
    (h : spends.map SpendEntry.reservation = cycles.map CycleEntry.reservation) {α : Type}
    (f : Text × Text × Text × Int → α) :
    spends.map (fun e => f e.reservation) = cycles.map fun e => f e.reservation := by
  have hfields := congrArg (List.map f) h
  rwa [List.map_map, List.map_map] at hfields

/-- What corresponds and is accepted on one side matches. -/
theorem LedgersMatch.of_accepted {cycles : List CycleEntry} {spends : List SpendEntry}
    (hcorresponds : spends.map SpendEntry.reservation = cycles.map CycleEntry.reservation)
    (haccepted : assertCycleLedger cycles = .ok ()) : LedgersMatch cycles spends := by
  rcases cycleLedger_nodup haccepted with ⟨hids, hdigests⟩
  refine ⟨hcorresponds, hids, hdigests, ?_, ?_⟩
  · have hsame := LedgersMatch.field hcorresponds fun r => r.1
    exact (show spends.map SpendEntry.cycleId = cycles.map CycleEntry.cycleId from hsame) ▸ hids
  · have hsame := LedgersMatch.field hcorresponds fun r => r.2.1
    exact (show spends.map SpendEntry.cycleDigest = cycles.map CycleEntry.cycleDigest from hsame) ▸
      hdigests

/-- What holds of the state between two events. -/
structure LedgersInv (s : PolicyState Operations) : Prop where
  matched : LedgersMatch s.cycleLedger s.spendLedger
  past : ∀ e ∈ s.cycleLedger, e.openedAtMs ≤ s.now
  claims : ∀ input ∈ s.admitted, input.boundary = .claimProcess

theorem ledgersInv_initial : LedgersInv (PolicyState.initial : PolicyState Operations) where
  matched := ledgersMatch_nil
  past := by
    intro e he
    exact absurd he List.not_mem_nil
  claims := by
    intro input hinput
    exact absurd hinput List.not_mem_nil

/-- A reservation at the end of a step: one entry in each ledger, within the limits of the
configuration it was entered in. -/
structure ReservedAt (s s' : PolicyState Operations) (c : OperatorConfiguration)
    (cycleEntry : CycleEntry) (spendEntry : SpendEntry) : Prop where
  inForce : s.configuration = some c
  cycleLedger : s'.cycleLedger = s.cycleLedger ++ [cycleEntry]
  spendLedger : s'.spendLedger = s.spendLedger ++ [spendEntry]
  openedAt : cycleEntry.openedAtMs = s'.now
  reservedAt : spendEntry.reservedAtMs = s'.now
  budget : spendInWindow s'.spendLedger s'.now ≤ textNat c.max24HourBudgetMicroUsd
  cycles : ((withinTrailingWindow (s'.cycleLedger.filter fun e => e.mode = cycleEntry.mode)
    CycleEntry.openedAtMs s'.now).length : Int) ≤ c.maxCyclesPerDay

/-- What a step does to the ledgers: nothing, or one reservation. -/
inductive LedgerStep (s s' : PolicyState Operations) : Prop where
  | kept (cycleLedger : s'.cycleLedger = s.cycleLedger) (spendLedger : s'.spendLedger = s.spendLedger)
  | reserved {c : OperatorConfiguration} {cycleEntry : CycleEntry} {spendEntry : SpendEntry}
      (h : ReservedAt s s' c cycleEntry spendEntry)
      (hnew : cycleEntry.cycleId ∉ s.cycleLedger.map CycleEntry.cycleId)
      (hmatched : LedgersMatch s'.cycleLedger s'.spendLedger)

theorem existingCycle_eq_none {c : OperatorConfiguration} {cycleId : Text} :
    existingCycle c cycleId = none ↔ cycleId ∉ c.cycleLedger.map CycleEntry.cycleId := by
  rw [existingCycle, List.find?_eq_none, List.mem_map]
  constructor
  · rintro h ⟨e, he, hsame⟩
    exact h e he (by simpa using hsame)
  · intro h e he hsame
    exact h ⟨e, he, by simpa using hsame⟩

/-- The spend of a window that ends later, with the entry at its end. -/
theorem spendInWindow_concat {ledger : List SpendEntry} {e : SpendEntry} {now later : Int}
    (hle : now ≤ later) (hpast : ∀ e ∈ ledger, e.reservedAtMs ≤ now) (he : e.reservedAtMs = later) :
    spendInWindow (ledger ++ [e]) later ≤ spendInWindow ledger now + textNat e.amountMicroUsd := by
  unfold spendInWindow
  rw [withinTrailingWindow_concat he, List.map_append, List.sum_append, List.map_singleton,
    List.sum_singleton]
  have hsublist := withinTrailingWindow_later hle hpast
  have hsum := (hsublist.map fun e => textNat e.amountMicroUsd).sum_le_sum
    (fun _ _ => Nat.zero_le _)
  omega

/-- The number of cycles in a window that ends later, with the one at its end. -/
theorem cyclesInWindow_concat {ledger : List CycleEntry} {e : CycleEntry} {now later : Int}
    (hle : now ≤ later) (hpast : ∀ e ∈ ledger, e.openedAtMs ≤ now) (he : e.openedAtMs = later) :
    (withinTrailingWindow ((ledger ++ [e]).filter fun e' => e'.mode = e.mode)
        CycleEntry.openedAtMs later).length ≤
      (withinTrailingWindow (ledger.filter fun e' => e'.mode = e.mode)
        CycleEntry.openedAtMs now).length + 1 := by
  have hown : ([e].filter fun e' => decide (e'.mode = e.mode)) = [e] := by simp
  rw [List.filter_append, hown, withinTrailingWindow_concat he, List.length_append,
    List.length_singleton]
  have hpast' : ∀ e' ∈ ledger.filter (fun e' => decide (e'.mode = e.mode)), e'.openedAtMs ≤ now := by
    intro e' he'
    exact hpast e' (List.mem_filter.mp he').1
  exact Nat.succ_le_succ (withinTrailingWindow_later hle hpast').length_le

/-! ## One step -/

theorem decisionOf_eq_allowed {x : Except Halt (Option Text)} {cycleDigest : Option Text} :
    decisionOf x = .ok (.allowed cycleDigest) ↔ x = .ok cycleDigest := by
  cases x with
  | ok d => simp [decisionOf]
  | error halt => cases halt <;> simp [decisionOf]

/-- The digest of an accepted new entry is not in the spend ledger before it. -/
theorem spendLedger_fresh {cycles : List CycleEntry} {spends : List SpendEntry} {e : SpendEntry}
    (h : assertSpendLedger cycles (spends ++ [e]) = .ok ()) :
    e.cycleDigest ∉ spends.map SpendEntry.cycleDigest := by
  have hlast := (scan_concat.mp h).2
  simp only [assertSpendLedgerEntry, bind_eq_ok, revertIf_eq_ok] at hlast
  rcases hlast with ⟨_, -, _, -, _, hfresh, -⟩
  exact hfresh

theorem optionalAmount_some {value : Text} {label : String} {amount : Nat}
    (h : optionalAmount (some value) label = .ok amount) : amount = textNat value := by
  simp only [optionalAmount, assertAmount, bind_eq_ok, pure_eq_ok] at h
  rcases h with ⟨_, -, hsame⟩
  exact hsame.symm

section

variable {env : PolicyEnvironment Operations} {s : PolicyState Operations}
  {c next : OperatorConfiguration}

/-- The decision inside the mutation allowed what is then entered. -/
theorem reservation_limits {custody : CustodyProjection} {input : PolicyInput Operations}
    {now later : Int} {cycleId digest cost : Text} (wei : Text) (hboundary : input.boundary = .claimProcess)
    (hallowed : evaluateConfiguredPolicy env c custody input now = .ok (some digest))
    (hcycle : input.cycleId = some cycleId) (hcost : input.releaseCostMicroUsd = some cost)
    (hnew : existingCycle c cycleId = none)
    (hfresh : digest ∉ c.spendLedger.map SpendEntry.cycleDigest)
    (hle : now ≤ later) (hopened : ∀ e ∈ c.cycleLedger, e.openedAtMs ≤ now)
    (hreserved : ∀ e ∈ c.spendLedger, e.reservedAtMs ≤ now) :
    let entries := reservationEntries input digest later cycleId cost wei
    spendInWindow (c.spendLedger ++ [entries.2]) later ≤ textNat c.max24HourBudgetMicroUsd ∧
      ((withinTrailingWindow ((c.cycleLedger ++ [entries.1]).filter fun e =>
        e.mode = entries.1.mode) CycleEntry.openedAtMs later).length : Int) ≤ c.maxCyclesPerDay := by
  intro entries
  rcases evaluateConfiguredPolicy_claim hboundary hallowed with
    ⟨g, cycleId', packId, digest', hclaim⟩
  rcases evaluateGates_ok hclaim.gates with ⟨hcontext, hnormalized, -, -⟩
  have hsameCycle : cycleId' = cycleId :=
    Option.some.inj (hclaim.cycle.symm.trans (hcontext.cycleId cycleId hcycle))
  have hsameDigest : digest' = digest := (Option.some.inj hclaim.allowed).symm
  have hamount : g.context.releaseAmount = textNat cost := by
    have hread := hcontext.cost
    rw [hcost] at hread
    exact optionalAmount_some hread
  have hnew' : existingCycle g.normalized cycleId' = none := by
    rw [existingCycle_eq_none, hnormalized, hsameCycle,
      OperatorConfiguration.withClaimLimit_cycleLedger]
    exact existingCycle_eq_none.mp hnew
  have hfresh' : digest' ∉ g.normalized.spendLedger.map SpendEntry.cycleDigest := by
    rw [hnormalized, hsameDigest, OperatorConfiguration.withClaimLimit_spendLedger]
    exact hfresh
  have hcycles := newClaim_cycles hclaim.limits hnew'
  have hspend := newClaim_spend hclaim.spend hfresh'
  rw [modeCycles, hnormalized, hcontext.now, hcontext.mode,
    OperatorConfiguration.withClaimLimit_cycleLedger,
    OperatorConfiguration.withClaimLimit_maxCyclesPerDay] at hcycles
  rw [hnormalized, hcontext.now, hamount, OperatorConfiguration.withClaimLimit_spendLedger,
    OperatorConfiguration.withClaimLimit_max24HourBudget] at hspend
  constructor
  · exact (spendInWindow_concat hle hreserved rfl).trans hspend
  · have hcount := cyclesInWindow_concat (e := entries.1) hle hopened rfl
    have hmode : entries.1.mode = cycleMode input.liveMode input.mode := rfl
    rw [hmode] at hcount ⊢
    omega

/-- The mutation of `admit` enters nothing, or one reservation within the limits. -/
theorem admitMutation_ledgerStep (hinv : LedgersInv s) {custody : CustodyProjection}
    {input : PolicyInput Operations} {elapsed later : Nat} {decision : PolicyDecision}
    (hconfiguration : s.configuration = some c) (hinput : input ∈ s.admitted)
    (h : admitMutation env custody input (s.now + elapsed) (s.now + elapsed + later) c =
      .ok (next, decision)) :
    LedgerStep s { s with now := s.now + elapsed + later, configuration := some next } := by
  have hkept : next = c →
      LedgerStep s { s with now := s.now + elapsed + later, configuration := some next } := by
    intro hsame
    rw [hsame, ← hconfiguration]
    exact .kept rfl rfl
  have hcycles : s.cycleLedger = c.cycleLedger := by
    rw [PolicyState.cycleLedger, hconfiguration]
    rfl
  have hspends : s.spendLedger = c.spendLedger := by
    rw [PolicyState.spendLedger, hconfiguration]
    rfl
  simp only [admitMutation, bind_eq_ok] at h
  rcases h with ⟨first, hdecision, hrest⟩
  cases first with
  | refused reason =>
    simp only [pure_eq_ok, Prod.mk.injEq] at hrest
    exact hkept hrest.1.symm
  | allowed cycleDigest =>
    simp only [bind_eq_ok, pure_eq_ok, Prod.mk.injEq] at hrest
    rcases hrest with ⟨written, hwritten, hnext, -⟩
    rw [hnext] at hwritten
    rcases reservationConfiguration_ok hwritten with ⟨hsame, -⟩ |
      ⟨cycleId, digest, cost, wei, hcycle, hdigest, hcost, -, hnew, haccepted⟩
    · exact hkept hsame
    rcases assertOperatorConfiguration_eq_ok.mp haccepted with ⟨hreserve, hconf⟩
    have hrecords := hconf.acceptedRecords
    have hcycleLedger := hrecords.cycleLedger
    have hspendLedger := hrecords.spendLedger
    rw [OperatorConfiguration.withClaimLimit_cycleLedger] at hcycleLedger
    rw [OperatorConfiguration.withClaimLimit_spendLedger] at hspendLedger
    have hfresh : digest ∉ c.spendLedger.map SpendEntry.cycleDigest :=
      spendLedger_fresh hspendLedger
    have hopened : ∀ e ∈ c.cycleLedger, e.openedAtMs ≤ s.now + elapsed := by
      intro e he
      have hpast := hinv.past e (hcycles ▸ he)
      omega
    have hreserved : ∀ e ∈ c.spendLedger, e.reservedAtMs ≤ s.now + elapsed := by
      -- the times of the two ledgers are the same
      have htimes := LedgersMatch.field (hspends ▸ hcycles ▸ hinv.matched.corresponds)
        fun r => r.2.2.2
      intro e he
      have hmem : e.reservedAtMs ∈ c.cycleLedger.map fun e => e.reservation.2.2.2 := by
        rw [← htimes]
        exact List.mem_map.mpr ⟨e, he, rfl⟩
      rcases List.mem_map.mp hmem with ⟨e', he', hsame⟩
      rw [← hsame]
      exact hopened e' he'
    rw [hdigest] at hdecision
    rcases reservation_limits wei (hinv.claims input hinput)
      (decisionOf_eq_allowed.mp hdecision) hcycle hcost hnew hfresh
      (by omega : s.now + (elapsed : Int) ≤ s.now + elapsed + later) hopened hreserved with
      ⟨hbudget, hcount⟩
    have hcycles' : next.cycleLedger = s.cycleLedger ++
        [(reservationEntries input digest (s.now + elapsed + later) cycleId cost wei).1] := by
      rw [hreserve, OperatorConfiguration.withClaimLimit_cycleLedger, hcycles]
      rfl
    have hspends' : next.spendLedger = s.spendLedger ++
        [(reservationEntries input digest (s.now + elapsed + later) cycleId cost wei).2] := by
      rw [hreserve, OperatorConfiguration.withClaimLimit_spendLedger, hspends]
      rfl
    refine .reserved (c := c) ⟨hconfiguration, hcycles', hspends', rfl, rfl, ?_, ?_⟩ ?_ ?_
    · show spendInWindow next.spendLedger _ ≤ _
      rw [hspends', hspends]
      exact hbudget
    · show ((withinTrailingWindow (next.cycleLedger.filter _) _ _).length : Int) ≤ _
      rw [hcycles', hcycles]
      exact hcount
    · rw [hcycles]
      exact existingCycle_eq_none.mp hnew
    · show LedgersMatch next.cycleLedger next.spendLedger
      apply LedgersMatch.of_accepted
      · rw [hspends', hcycles', List.map_append, List.map_append, hinv.matched.corresponds]
        rfl
      · rw [hcycles', hcycles]
        exact hcycleLedger

theorem recordManualApproval_keeps {cycleDigest cycleId : Text} {approvedAtMs : Option Int}
    {now : Int} (h : recordManualApproval cycleDigest cycleId approvedAtMs now c = .ok next) :
    next.cycleLedger = c.cycleLedger ∧ next.spendLedger = c.spendLedger := by
  simp only [recordManualApproval, bind_eq_ok] at h
  rcases h with ⟨_, -, _, -, _, -, hrest⟩
  cases hfound : c.approvalsByCycleDigest.find cycleDigest with
  | some existing =>
    simp only [hfound, bind_eq_ok, pure_eq_ok] at hrest
    rcases hrest with ⟨_, -, rfl⟩
    exact ⟨rfl, rfl⟩
  | none =>
    simp only [hfound, bind_eq_ok, assertOperatorConfiguration_eq_ok] at hrest
    rcases hrest with ⟨_, -, hnext, -⟩
    rw [hnext, OperatorConfiguration.withClaimLimit_cycleLedger,
      OperatorConfiguration.withClaimLimit_spendLedger]
    exact ⟨rfl, rfl⟩

theorem edit_keeps {patch : ConfigurationPatch}
    (h : applyOperatorConfiguration s.configuration patch = .ok next) :
    next.cycleLedger = s.cycleLedger ∧ next.spendLedger = s.spendLedger := by
  have hkeeps := applyOperatorConfiguration_keepsRecords h
  rw [hkeeps.cycleLedger, hkeeps.spendLedger]
  unfold PolicyState.cycleLedger PolicyState.spendLedger
  cases s.configuration with
  | none => exact ⟨rfl, rfl⟩
  | some c => exact ⟨rfl, rfl⟩

/-- What the mutation of a call leaves: the state as it was, a later clock, or the
configuration that it wrote. -/
inductive Reserves (env : PolicyEnvironment Operations) (s : PolicyState Operations) (call : Nat)
    (custody : CustodyProjection) (elapsed later : Nat) : PolicyState Operations → Prop where
  | none : Reserves env s call custody elapsed later s
  | failed : Reserves env s call custody elapsed later { s with now := s.now + elapsed + later }
  | written {input : PolicyInput Operations} {c next : OperatorConfiguration}
      {decision : PolicyDecision} (hcall : s.admitted[call]? = some input)
      (hconfiguration : s.configuration = some c)
      (hmutation : admitMutation env custody input (s.now + elapsed) (s.now + elapsed + later) c =
        .ok (next, decision)) :
      Reserves env s call custody elapsed later
        { s with now := s.now + elapsed + later, configuration := some next }

theorem policyStep_reserves (env : PolicyEnvironment Operations) (s : PolicyState Operations)
    (call : Nat) (custody : CustodyProjection) (elapsed later : Nat) :
    Reserves env s call custody elapsed later
      (policyStep env s (.reserve call custody elapsed later)).1 := by
  cases hcall : s.admitted[call]? with
  | none =>
    simp only [policyStep, hcall]
    exact .none
  | some input =>
    cases hconfiguration : s.configuration with
    | none =>
      simp only [policyStep, hcall, hconfiguration]
      exact .none
    | some c =>
      cases hmutation : admitMutation env custody input (s.now + elapsed)
          (s.now + elapsed + later) c with
      | error message =>
        simp only [policyStep, hcall, hconfiguration, hmutation]
        rw [← hconfiguration]
        exact .failed
      | ok outcome =>
        simp only [policyStep, hcall, hconfiguration, hmutation]
        exact .written hcall hconfiguration hmutation

/-- What an event writes: what the mutation of a call leaves, or a state with the same
ledgers whose clock is no earlier. -/
inductive Writes (env : PolicyEnvironment Operations) (s s' : PolicyState Operations) :
    PolicyEvent Operations → Prop where
  | reserve {call : Nat} {custody : CustodyProjection} {elapsed later : Nat}
      (h : Reserves env s call custody elapsed later s') :
      Writes env s s' (.reserve call custody elapsed later)
  | other {e : PolicyEvent Operations} (hcycles : s'.cycleLedger = s.cycleLedger)
      (hspends : s'.spendLedger = s.spendLedger) (hnow : s.now ≤ s'.now)
      (hclaims : (∀ input ∈ s.admitted, input.boundary = .claimProcess) →
        ∀ input ∈ s'.admitted, input.boundary = .claimProcess)
      (he : ∀ call custody elapsed later, e ≠ .reserve call custody elapsed later) : Writes env s s' e

/-- A write that leaves the ledgers of the configuration alone. -/
theorem write_writes {now : Int} {result : Except String OperatorConfiguration}
    {e : PolicyEvent Operations} (hnow : s.now ≤ now)
    (he : ∀ call custody elapsed later, e ≠ .reserve call custody elapsed later)
    (h : ∀ next, result = .ok next →
      next.cycleLedger = s.cycleLedger ∧ next.spendLedger = s.spendLedger) :
    Writes env s (s.write now result).1 e := by
  cases result with
  | error message => exact .other rfl rfl hnow id he
  | ok next => exact .other (h next rfl).1 (h next rfl).2 hnow id he

theorem policyStep_writes (env : PolicyEnvironment Operations) (s : PolicyState Operations)
    (e : PolicyEvent Operations) :
    Writes env s (policyStep env s e).1 e := by
  cases e with
  | admission input custody elapsed =>
    refine .other rfl rfl (Int.le_add_of_nonneg_right (Int.natCast_nonneg elapsed)) ?_ (by simp)
    intro hclaims input' hinput'
    dsimp only [policyStep] at hinput'
    by_cases hgoes : goesOn input (evaluate env s.configuration custody input (s.now + elapsed))
    · rw [if_pos hgoes] at hinput'
      rcases List.mem_append.mp hinput' with hold | hnew
      · exact hclaims input' hold
      · rw [List.mem_singleton.mp hnew]
        simp only [goesOn, Bool.and_eq_true, decide_eq_true_eq] at hgoes
        exact hgoes.1.1
    · rw [if_neg hgoes] at hinput'
      exact hclaims input' hinput'
  | reserve call custody elapsed later =>
    exact .reserve (policyStep_reserves env s call custody elapsed later)
  | edit patch => exact write_writes le_rfl (by simp) fun next hnext => edit_keeps hnext
  | approve cycleDigest cycleId approvedAtMs elapsed =>
    cases hconfiguration : s.configuration with
    | none =>
      simp only [policyStep, hconfiguration]
      exact .other rfl rfl le_rfl id (by simp)
    | some c =>
      simp only [policyStep, hconfiguration]
      apply write_writes (Int.le_add_of_nonneg_right (Int.natCast_nonneg elapsed)) (by simp)
      intro next hnext
      rw [PolicyState.cycleLedger, PolicyState.spendLedger, hconfiguration]
      exact recordManualApproval_keeps hnext

/-- Every event leaves the ledgers alone, or enters one reservation. -/
theorem Writes.ledgerStep {s' : PolicyState Operations} {e : PolicyEvent Operations}
    (h : Writes env s s' e) (hinv : LedgersInv s) : LedgerStep s s' := by
  cases h with
  | other hcycles hspends _ _ _ => exact .kept hcycles hspends
  | reserve hreserves =>
    cases hreserves with
    | none => exact .kept rfl rfl
    | failed => exact .kept rfl rfl
    | written hcall hconfiguration hmutation =>
      exact admitMutation_ledgerStep hinv hconfiguration (List.mem_of_getElem? hcall) hmutation

/-- The clock goes on, and only claims are admitted. -/
theorem Writes.clock {s' : PolicyState Operations} {e : PolicyEvent Operations}
    (h : Writes env s s' e) (hinv : LedgersInv s) :
    s.now ≤ s'.now ∧ ∀ input ∈ s'.admitted, input.boundary = .claimProcess := by
  cases h with
  | other _ _ hnow hclaims _ => exact ⟨hnow, hclaims hinv.claims⟩
  | @reserve _ _ elapsed later hreserves =>
    have hlater : s.now ≤ s.now + elapsed + later := by omega
    cases hreserves with
    | none => exact ⟨le_rfl, hinv.claims⟩
    | failed => exact ⟨hlater, hinv.claims⟩
    | written _ _ _ => exact ⟨hlater, hinv.claims⟩

theorem policyStep_inv (hinv : LedgersInv s) (e : PolicyEvent Operations) :
    LedgersInv (policyStep env s e).1 := by
  have hwrites := policyStep_writes env s e
  rcases hwrites.clock hinv with ⟨hnow, hclaims⟩
  cases hwrites.ledgerStep hinv with
  | kept hcycles hspends =>
    refine ⟨?_, ?_, hclaims⟩
    · rw [hcycles, hspends]
      exact hinv.matched
    · intro entry hentry
      rw [hcycles] at hentry
      exact (hinv.past entry hentry).trans hnow
  | reserved h hnew hmatched =>
    refine ⟨hmatched, ?_, hclaims⟩
    intro entry hentry
    rw [h.cycleLedger] at hentry
    rcases List.mem_append.mp hentry with hold | hlast
    · exact (hinv.past entry hold).trans hnow
    · rw [List.mem_singleton.mp hlast, h.openedAt]

theorem ledgersInv_run (env : PolicyEnvironment Operations) (events : List (PolicyEvent Operations)) :
    LedgersInv (stateAfterRun (policyStep env) .initial events) :=
  run_invariant ledgersInv_initial (fun _ e h => policyStep_inv h e) events

/-- The ledgers only grow. -/
theorem ledgers_grow (env : PolicyEnvironment Operations)
    (events more : List (PolicyEvent Operations)) :
    let s := stateAfterRun (policyStep env) .initial events
    let s' := stateAfterRun (policyStep env) .initial (events ++ more)
    s.cycleLedger <+: s'.cycleLedger ∧ s.spendLedger <+: s'.spendLedger := by
  induction more using List.reverseRecOn with
  | nil =>
    rw [List.append_nil]
    exact ⟨List.prefix_rfl, List.prefix_rfl⟩
  | append_singleton more e ih =>
    dsimp only at ih ⊢
    rw [← List.append_assoc, stateAfterRun_concat]
    have hinv := ledgersInv_run env (events ++ more)
    cases (policyStep_writes env _ e).ledgerStep hinv with
    | kept hcycles hspends =>
      rw [hcycles, hspends]
      exact ih
    | reserved h hnew hmatched =>
      rw [h.cycleLedger, h.spendLedger]
      exact ⟨ih.1.trans (List.prefix_append _ _), ih.2.trans (List.prefix_append _ _)⟩

/-- The mutation of a call for a cycle that has an entry writes the configuration back. -/
theorem admitMutation_existing {custody : CustodyProjection} {input : PolicyInput Operations}
    {now later : Int} {decision : PolicyDecision}
    (hexisting : ∀ cycleId, input.cycleId = some cycleId → existingCycle c cycleId ≠ none)
    (h : admitMutation env custody input now later c = .ok (next, decision)) : next = c := by
  simp only [admitMutation, bind_eq_ok] at h
  rcases h with ⟨first, -, hrest⟩
  cases first with
  | refused reason =>
    simp only [pure_eq_ok, Prod.mk.injEq] at hrest
    exact hrest.1.symm
  | allowed cycleDigest =>
    simp only [bind_eq_ok, pure_eq_ok, Prod.mk.injEq] at hrest
    rcases hrest with ⟨written, hwritten, hnext, -⟩
    rcases reservationConfiguration_ok hwritten with ⟨hsame, -⟩ |
      ⟨cycleId, _, _, _, hcycle, -, -, -, hnew, -⟩
    · exact hnext.symm.trans hsame
    · exact absurd hnew (hexisting cycleId hcycle)

/-- The mutation of a call for a cycle that has an entry leaves the ledgers alone. -/
theorem Writes.readmission {s' : PolicyState Operations} {e : PolicyEvent Operations}
    {call : Nat} {custody : CustodyProjection} {elapsed later : Nat}
    {input : PolicyInput Operations} (h : Writes env s s' e)
    (he : e = .reserve call custody elapsed later) (hcall : s.admitted[call]? = some input)
    (hexisting : ∀ cycleId, input.cycleId = some cycleId →
      cycleId ∈ s.cycleLedger.map CycleEntry.cycleId) :
    s'.cycleLedger = s.cycleLedger ∧ s'.spendLedger = s.spendLedger := by
  cases h with
  | other hcycles hspends _ _ _ => exact ⟨hcycles, hspends⟩
  | reserve hreserves =>
    rw [PolicyEvent.reserve.injEq] at he
    rcases he with ⟨rfl, rfl, rfl, rfl⟩
    cases hreserves with
    | none => exact ⟨rfl, rfl⟩
    | failed => exact ⟨rfl, rfl⟩
    | @written input' c next _ hcall' hconfiguration hmutation =>
      have hinput : input' = input := Option.some.inj (hcall'.symm.trans hcall)
      have hnext : next = c := by
        apply admitMutation_existing _ hmutation
        intro cycleId hcycle hnone
        rw [hinput] at hcycle
        have hmem := hexisting cycleId hcycle
        rw [PolicyState.cycleLedger, hconfiguration] at hmem
        exact existingCycle_eq_none.mp hnone hmem
      unfold PolicyState.cycleLedger PolicyState.spendLedger
      rw [hnext, hconfiguration]
      exact ⟨rfl, rfl⟩

end

/-! ## Reservations -/

/-- **Reservations stay within the limits.** After any events, the two ledgers correspond
entry by entry and name every cycle and every digest once, and later events only add to
them. The next event leaves both as they are, or enters one reservation, at the time it
leaves: with it, the spend of the trailing day is within the budget in force, and the
cycles of its mode opened in that day are within the number in force. The mutation of a
call for a cycle that has an entry leaves them as they are. -/
theorem reservations_within_limits (env : PolicyEnvironment Operations)
    (events : List (PolicyEvent Operations)) (e : PolicyEvent Operations) :
    let s := stateAfterRun (policyStep env) .initial events
    let s' := (policyStep env s e).1
    LedgersMatch s.cycleLedger s.spendLedger ∧
      (∀ more, let later := stateAfterRun (policyStep env) .initial (events ++ more)
        s.cycleLedger <+: later.cycleLedger ∧ s.spendLedger <+: later.spendLedger) ∧
      ((s'.cycleLedger = s.cycleLedger ∧ s'.spendLedger = s.spendLedger) ∨
        ∃ c cycleEntry spendEntry, ReservedAt s s' c cycleEntry spendEntry) ∧
      (∀ call custody elapsed later input, e = .reserve call custody elapsed later →
        s.admitted[call]? = some input →
        (∀ cycleId, input.cycleId = some cycleId → cycleId ∈ s.cycleLedger.map CycleEntry.cycleId) →
        s'.cycleLedger = s.cycleLedger ∧ s'.spendLedger = s.spendLedger) := by
  intro s s'
  have hinv : LedgersInv s := ledgersInv_run env events
  have hwrites : Writes env s s' e := policyStep_writes env s e
  refine ⟨hinv.matched, ledgers_grow env events, ?_, ?_⟩
  · cases hwrites.ledgerStep hinv with
    | kept hcycles hspends => exact .inl ⟨hcycles, hspends⟩
    | reserved h _ _ => exact .inr ⟨_, _, _, h⟩
  · intro call custody elapsed later input he hcall hexisting
    exact hwrites.readmission he hcall hexisting

end Hookemon.Runner
