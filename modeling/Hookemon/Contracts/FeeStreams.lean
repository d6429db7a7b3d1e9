import Hookemon.Contracts.FeeAccounting

/-! # Histories of the liability ledger

A history is any sequence of uses of the ledger: swaps that accrue, and claims
of every kind in between. A use that reverts leaves nothing behind. Beside the
ledger the history keeps what was executed and what each stream was credited, as
observed in the ledger itself, so that the lifetime law of the carried
remainders can be stated: a stream has been credited the floor of its share of
the whole executed volume, no matter how the volume was cut into swaps.
-/

namespace Hookemon.Contracts

open Hookemon.Core

/-- A use of the ledger. The balances are what the contract reads from the asset
at the points where the source reads them. -/
inductive FeeOp where
  | swap (treasuryBeneficiary : Address) (executedUsdg : Nat)
      (balanceBeforeCollection balanceAfterCollection : Nat)
  | claim (book : Book) (beneficiary destination : Address) (requestedAmount : Nat)
      (balance balanceAfterTransfer : Nat)
  | claimProcess (amount balance balanceAfterTransfer : Nat)

namespace FeeOp

/-- The use of the ledger, under the lock that the source puts around it. -/
def apply (self programmable : Address) : FeeOp → FeeLedger → Run FeeLedger
  | .swap treasury executed before after, l => do
    let l ← enterMoneyPath l
    let l ← accrueAuthenticatedSwap self programmable treasury executed before after l
    pure (leaveMoneyPath l)
  | .claim book beneficiary destination amount balance balanceAfter, l => do
    let l ← claimLiability self book beneficiary destination amount balance l
    settleClaim balanceAfter l
  | .claimProcess amount balance balanceAfter, l => do
    let l ← claimProcessLiability amount balance l
    settleClaim balanceAfter l

/-- The executed amounts that a committed use adds to the volume. -/
def executed : FeeOp → List Nat
  | .swap _ executed _ _ => [executed]
  | .claim .. => []
  | .claimProcess .. => []

/-- What a committed use credited to a stream, read off the ledger around it. -/
def credit (programmable : Address) (op : FeeOp) (l l' : FeeLedger) : FeeStream → Nat :=
  match op with
  | .swap treasury _ _ _ => fun
    | .programmable => l'.programmableLiabilities programmable -
        l.programmableLiabilities programmable
    | .treasury => l'.treasuryLiabilities treasury - l.treasuryLiabilities treasury
    | .process => l'.processLiabilityAmount - l.processLiabilityAmount
  | .claim .. => fun _ => 0
  | .claimProcess .. => fun _ => 0

end FeeOp

/-- A ledger with the volume and the credits that led to it. -/
structure FeeHistory where
  ledger : FeeLedger
  executed : List Nat
  credited : FeeStream → Nat

namespace FeeHistory

/-- Nothing has been executed or credited. -/
def start (l : FeeLedger) : FeeHistory := ⟨l, [], fun _ => 0⟩

/-- Use the ledger once; a reverted use leaves the history as it is. -/
def step (self programmable : Address) (h : FeeHistory) (op : FeeOp) : FeeHistory :=
  match op.apply self programmable h.ledger with
  | .error _ => h
  | .ok l' => ⟨l', h.executed ++ op.executed,
      fun i => h.credited i + op.credit programmable h.ledger l' i⟩

/-- Use the ledger any number of times. -/
def run (self programmable : Address) (l : FeeLedger) (ops : List FeeOp) : FeeHistory :=
  ops.foldl (step self programmable) (start l)

end FeeHistory

/-! ## What one use does to the streams -/

/-- A committed swap makes one carried step of every stream, and credits the
stream what that step pays. -/
theorem swap_streams {self programmable treasury : Address} {q before after : Nat}
    {l l' : FeeLedger}
    (h : (FeeOp.swap treasury q before after).apply self programmable l = .ok l') (i : FeeStream) :
    ((FeeOp.swap treasury q before after).credit programmable l l' i, l'.remainder i) =
      carriedStep bpsDenominator i.rateBps (l.remainder i) q := by
  simp only [FeeOp.apply, enterMoneyPath, bind_eq_ok, revertIf_eq_ok, pure_eq_ok] at h
  obtain ⟨_, ⟨-, -, rfl⟩, l₁, haccrue, rfl⟩ := h
  obtain ⟨-, -, -, split, hcompute, -, -, rfl⟩ := accrueAuthenticatedSwap_eq_ok haccrue
  obtain ⟨-, hsteps, -⟩ := computeSplit_eq_ok hcompute
  have hstep := hsteps i
  cases i with
  | programmable =>
    rw [show carriedStep bpsDenominator FeeStream.programmable.rateBps
      (l.remainder .programmable) q = _ from hstep.symm]
    simp [FeeOp.credit, FeeLedger.book, FeeLedger.remainder, leaveMoneyPath, FeeSplit.fee,
      FeeSplit.remainder]
  | treasury =>
    rw [show carriedStep bpsDenominator FeeStream.treasury.rateBps
      (l.remainder .treasury) q = _ from hstep.symm]
    simp [FeeOp.credit, FeeLedger.book, FeeLedger.remainder, leaveMoneyPath, FeeSplit.fee,
      FeeSplit.remainder]
  | process =>
    rw [show carriedStep bpsDenominator FeeStream.process.rateBps
      (l.remainder .process) q = _ from hstep.symm]
    simp [FeeOp.credit, FeeLedger.book, FeeLedger.remainder, leaveMoneyPath, FeeSplit.fee,
      FeeSplit.remainder]

/-- A claim never touches a remainder. -/
theorem claimLiability_remainder {self beneficiary destination : Address} {book : Book}
    {amount balance : Nat} {l l' : FeeLedger}
    (h : claimLiability self book beneficiary destination amount balance l = .ok l')
    (i : FeeStream) : l'.remainder i = l.remainder i := by
  obtain ⟨-, -, -, -, -, -, -, -, rfl⟩ := claimLiability_eq_ok h
  cases book <;> cases i <;> rfl

theorem claimProcessLiability_remainder {amount balance : Nat} {l l' : FeeLedger}
    (h : claimProcessLiability amount balance l = .ok l') (i : FeeStream) :
    l'.remainder i = l.remainder i := by
  obtain ⟨-, -, -, -, -, rfl⟩ := claimProcessLiability_eq_ok h
  cases i <;> rfl

theorem settleClaim_remainder {balance : Nat} {l l' : FeeLedger}
    (h : settleClaim balance l = .ok l') (i : FeeStream) : l'.remainder i = l.remainder i := by
  obtain ⟨-, rfl⟩ := settleClaim_eq_ok.mp h
  cases i <;> rfl

/-! ## The lifetime law -/

/-- The invariant of a history: every stream stands where one carried run over
the executed amounts puts it. -/
def FeeHistory.OnRun (h : FeeHistory) : Prop :=
  ∀ i, h.credited i = i.rateBps * h.executed.sum / bpsDenominator ∧
    h.ledger.remainder i = i.rateBps * h.executed.sum % bpsDenominator

theorem FeeHistory.step_onRun (self programmable : Address) (h : FeeHistory) (op : FeeOp)
    (hrun : h.OnRun) : (h.step self programmable op).OnRun := by
  unfold FeeHistory.step
  cases happly : op.apply self programmable h.ledger with
  | error e => exact hrun
  | ok l' =>
    intro i
    obtain ⟨hcredited, hremainder⟩ := hrun i
    cases op with
    | swap treasury q before after =>
      have hstep := swap_streams happly i
      simp only [carriedStep, Prod.mk.injEq] at hstep
      obtain ⟨hpaid, hrem⟩ := hstep
      -- the volume so far is one quantity, the new swap is the next
      obtain ⟨hmerge, hmergeRem⟩ :=
        carried_merge (d := bpsDenominator) (by decide) i.rateBps 0 h.executed.sum q
      simp only [Nat.add_zero] at hmerge hmergeRem
      simp only [FeeOp.executed, List.sum_append, List.sum_singleton, hpaid, hrem, hcredited,
        hremainder]
      exact ⟨hmerge, hmergeRem⟩
    | claim book beneficiary destination amount balance balanceAfter =>
      simp only [FeeOp.apply, bind_eq_ok] at happly
      obtain ⟨l₁, hclaim, hsettle⟩ := happly
      have hkeep : l'.remainder i = h.ledger.remainder i :=
        (settleClaim_remainder hsettle i).trans (claimLiability_remainder hclaim i)
      simp only [FeeOp.executed, FeeOp.credit, List.append_nil, Nat.add_zero, hkeep]
      exact ⟨hcredited, hremainder⟩
    | claimProcess amount balance balanceAfter =>
      simp only [FeeOp.apply, bind_eq_ok] at happly
      obtain ⟨l₁, hclaim, hsettle⟩ := happly
      have hkeep : l'.remainder i = h.ledger.remainder i :=
        (settleClaim_remainder hsettle i).trans (claimProcessLiability_remainder hclaim i)
      simp only [FeeOp.executed, FeeOp.credit, List.append_nil, Nat.add_zero, hkeep]
      exact ⟨hcredited, hremainder⟩

/-- Every history is on its run, by induction over the uses of the ledger. -/
theorem FeeHistory.run_onRun (self programmable : Address) {l : FeeLedger}
    (hzero : ∀ i, l.remainder i = 0) (ops : List FeeOp) :
    (FeeHistory.run self programmable l ops).OnRun := by
  have hstart : (FeeHistory.start l).OnRun := by
    intro i
    simp [FeeHistory.start, hzero i]
  have hfold : ∀ (ops : List FeeOp) (h : FeeHistory), h.OnRun →
      (ops.foldl (FeeHistory.step self programmable) h).OnRun := by
    intro ops
    induction ops with
    | nil => exact fun h hrun => hrun
    | cons op ops ih =>
      exact fun h hrun => ih _ (FeeHistory.step_onRun self programmable h op hrun)
  exact hfold ops _ hstart

/-- **The lifetime law of the three streams.** Whatever swaps and claims were
committed, from remainders zero: every stream was credited the floor of its rate
on the total volume and carries the fraction that the floor cut off; histories of
the same volume credit every stream the same; and no increment and no sum over
the streams overflows on any admissible amount that could come next. -/
theorem streams_credit_the_floor (self programmable : Address) (l : FeeLedger)
    (hzero : ∀ i, l.remainder i = 0) (ops : List FeeOp) :
    let h := FeeHistory.run self programmable l ops
    (∀ i : FeeStream, h.credited i = i.rateBps * h.executed.sum / bpsDenominator ∧
      h.ledger.remainder i = i.rateBps * h.executed.sum % bpsDenominator) ∧
    (∀ (self' programmable' : Address) (l' : FeeLedger) (ops' : List FeeOp),
      (∀ i, l'.remainder i = 0) →
      (FeeHistory.run self' programmable' l' ops').executed.sum = h.executed.sum →
        ∀ i, (FeeHistory.run self' programmable' l' ops').credited i = h.credited i) ∧
    (∀ q ≤ uint256Max, q = 0 ∨ minimumExecutedUsdg ≤ q →
      (∀ i : FeeStream, cumulativeIncrement q i.rateBps (h.ledger.remainder i) =
        .ok (carriedStep bpsDenominator i.rateBps (h.ledger.remainder i) q)) ∧
      ∃ split, computeSplit h.ledger q = .ok split) := by
  intro h
  have hrun : h.OnRun := FeeHistory.run_onRun self programmable hzero ops
  have hfractions : h.ledger.CarriesFractions := by
    intro i
    rw [(hrun i).2]
    exact Nat.mod_lt _ (by decide)
  refine ⟨hrun, ?_, ?_⟩
  · intro self' programmable' l' ops' hzero' hvolume i
    have hrun' := FeeHistory.run_onRun self' programmable' hzero' ops' i
    rw [hrun'.1, hvolume, (hrun i).1]
  · intro q hq hmin
    exact ⟨fun i => cumulativeIncrement_ok hq i.rateBps_le (hfractions i),
      computeSplit_ok hfractions hq hmin⟩

/-- Two swaps with a claim in between, against one swap of the same volume: the
process stream is credited 62 units either way. -/
theorem streams_credit_the_floor_example :
    (FeeHistory.run 1 2 .initial [.swap 3 1001 0 30,
      .claim .programmable 2 4 2 30 28, .swap 3 1500 28 72]).credited .process = 62 ∧
    (FeeHistory.run 1 2 .initial [.swap 3 2501 0 74]).credited .process = 62 := by
  have hlaw := streams_credit_the_floor 1 2 .initial (by intro i; cases i <;> rfl)
    [.swap 3 1001 0 30, .claim .programmable 2 4 2 30 28, .swap 3 1500 28 72]
  exact ⟨(hlaw.1 .process).1.trans (by decide),
    (hlaw.2.1 1 2 .initial [.swap 3 2501 0 74] (by intro i; cases i <;> rfl) (by decide)
      .process).trans ((hlaw.1 .process).1.trans (by decide))⟩

end Hookemon.Contracts
