import Hookemon.Contracts.HookemonHook

/-! # The hook is solvent

The total liability is the sum of what is owed to the programmable beneficiary,
to every address that ever was the treasury, and to the process; and the balance
covers it. Both are kept by every piece of hook code on its own, so they hold
after every transaction and, inside one, wherever outside code has control.
-/

namespace Hookemon.Contracts

open Hookemon.Core

/-! ## Sums over a mapping -/

/-- Overwriting one entry of a mapping exchanges its old value for the new one. -/
theorem sum_update_add {α : Type} [DecidableEq α] {s : Finset α} {a : α} (ha : a ∈ s)
    (f : α → Nat) (b : Nat) :
    ∑ x ∈ s, Function.update f a b x + f a = ∑ x ∈ s, f x + b := by
  have hsplit := Finset.sum_sdiff (f := f) (Finset.singleton_subset_iff.mpr ha)
  rw [Finset.sum_singleton] at hsplit
  rw [Finset.sum_update_of_mem ha]
  omega

theorem sum_update_sub {α : Type} [DecidableEq α] {s : Finset α} {a : α} (ha : a ∈ s)
    {f : α → Nat} {b : Nat} (hb : b ≤ f a) :
    ∑ x ∈ s, Function.update f a (f a - b) x + b = ∑ x ∈ s, f x := by
  have hswap := sum_update_add ha f (f a - b)
  omega

/-! ## The invariant -/

/-- The liability that the three streams add up to. -/
def Hook.owedToStreams (c : ConstructorConfig) (treasuries : Finset Address) (s : Hook) : Nat :=
  s.fees.programmableLiabilities c.programmable +
    ∑ a ∈ treasuries, s.fees.treasuryLiabilities a + s.fees.processLiabilityAmount

/-- The books balance and are covered. -/
structure Balanced (c : ConstructorConfig) (s : Hook) : Prop where
  total : s.fees.totalLiabilityAmount = s.owedToStreams c s.roles.treasuryBeneficiaries
  covers : ∀ a, a ∉ s.roles.treasuryBeneficiaries → s.fees.treasuryLiabilities a = 0
  treasury : s.roles.treasury ∈ s.roles.treasuryBeneficiaries
  solvent : s.fees.totalLiabilityAmount ≤ s.balance

theorem balanced_deployed (c : ConstructorConfig) (balance : Nat) :
    Balanced c (Hook.deployed c balance) := by
  refine ⟨?_, ?_, ?_, ?_⟩
  · simp [Hook.owedToStreams, Hook.deployed, FeeLedger.initial]
  · intro a _
    rfl
  · simp [Hook.deployed, MoneyRoles.initial]
  · exact Nat.zero_le _

/-! ## One piece at a time -/

section

variable {env : Externals} {c : ConstructorConfig} {now : Nat} {s s' : Hook} {m : Msg}
  {v : HookReturn} {r : HookRequest} {onReturn : Hook → Run (HookReturn × Hook)}

/-- The treasury hand-over takes a new beneficiary in, who is owed nothing yet. -/
theorem Balanced.accept (h : Balanced c s) (a : Address) :
    Balanced c { s with roles := { s.roles with
      treasury := a
      treasuryBeneficiaries := insert a s.roles.treasuryBeneficiaries
      proposedTreasury := 0 } } := by
  refine ⟨?_, ?_, Finset.mem_insert_self _ _, h.solvent⟩
  · have htotal := h.total
    by_cases ha : a ∈ s.roles.treasuryBeneficiaries
    · simp only [Hook.owedToStreams, Finset.insert_eq_of_mem ha] at htotal ⊢
      exact htotal
    · simp only [Hook.owedToStreams, Finset.sum_insert ha, h.covers a ha, Nat.zero_add] at htotal ⊢
      exact htotal
  · intro b hb
    exact h.covers b fun hmem => hb (Finset.mem_insert_of_mem hmem)

/-- Paying a beneficiary takes the amount off its mapping, the total and the
balance. -/
theorem Balanced.claim (h : Balanced c s) {book : Book} {beneficiary destination : Address}
    {amount : Nat} {fees : FeeLedger} (hbeneficiary : s.beneficiary c book beneficiary)
    (hfees : claimLiability c.self book beneficiary destination amount s.balance s.fees = .ok fees) :
    Balanced c { s with fees := fees, balance := s.balance - amount } := by
  rcases claimLiability_eq_ok hfees with ⟨-, -, -, -, -, howed, htotal, hsolvent, rfl⟩
  have hadds := h.total
  cases book with
  | programmable =>
    have hself : beneficiary = c.programmable := hbeneficiary
    subst hself
    refine ⟨?_, h.covers, h.treasury, ?_⟩
    · simp only [Hook.owedToStreams, FeeLedger.setOwed, FeeLedger.owed,
        Function.update_self] at hadds howed ⊢
      omega
    · dsimp only
      omega
  | treasury =>
    have hmem : beneficiary ∈ s.roles.treasuryBeneficiaries := hbeneficiary
    refine ⟨?_, ?_, h.treasury, ?_⟩
    · have hsum := sum_update_sub hmem (f := s.fees.treasuryLiabilities) howed
      simp only [Hook.owedToStreams, FeeLedger.setOwed, FeeLedger.owed] at hadds hsum ⊢
      omega
    · intro a ha
      have hne : a ≠ beneficiary := fun heq => ha (heq ▸ hmem)
      simpa only [FeeLedger.setOwed, Function.update_of_ne hne] using h.covers a ha
    · dsimp only
      omega

theorem Balanced.claimProcess (h : Balanced c s) {amount : Nat} {fees : FeeLedger}
    {claims : ProcessClaims}
    (hfees : claimProcessLiability amount s.balance s.fees = .ok fees) :
    Balanced c { s with claims := claims, fees := fees, balance := s.balance - amount } := by
  rcases claimProcessLiability_eq_ok hfees with ⟨-, -, howed, htotal, hsolvent, rfl⟩
  have hadds := h.total
  refine ⟨?_, h.covers, h.treasury, ?_⟩
  · simp only [Hook.owedToStreams] at hadds ⊢
    omega
  · dsimp only
    omega

/-- The end of `afterSwap` books the fee it collected. Nothing is assumed about
the call in between: the accrual itself compares the balances. -/
theorem Balanced.finishAfterSwap (h : Balanced c s) {finalized : FinalizedSwap} {before : Nat}
    (hfinish : finishAfterSwap c finalized before s = .ok (v, s')) : Balanced c s' := by
  rcases finishAfterSwap_eq_ok hfinish with ⟨split, hsplit, hbefore, hafter, -, rfl⟩
  rcases computeSplit_eq_ok hsplit with ⟨-, -, hfee⟩
  have hadds := h.total
  refine ⟨?_, ?_, h.treasury, ?_⟩
  · have hsum := sum_update_add h.treasury s.fees.treasuryLiabilities
      (s.fees.treasuryLiabilities s.roles.treasury + split.treasuryFee)
    simp only [Hook.owedToStreams, leaveMoneyPath, FeeLedger.book,
      Function.update_self] at hadds hsum ⊢
    omega
  · intro a ha
    have hne : a ≠ s.roles.treasury := fun heq => ha (heq ▸ h.treasury)
    simpa only [leaveMoneyPath, FeeLedger.book, Function.update_of_ne hne] using h.covers a ha
  · simp only [leaveMoneyPath, FeeLedger.book]
    omega

theorem Balanced.finishes (h : Balanced c s) (hout : Finishes env c now s m v s') :
    Balanced c s' := by
  cases hout with
  | receive => exact ⟨h.total, h.covers, h.treasury, Nat.le_add_right_of_le h.solvent⟩
  | afterSwap _ _ _ hfinish =>
    refine Balanced.finishAfterSwap ?_ hfinish
    exact ⟨h.total, h.covers, h.treasury, h.solvent⟩
  | acceptTreasury => exact h.accept _
  | _ => exact ⟨h.total, h.covers, h.treasury, h.solvent⟩

theorem Balanced.handsOver {sent : Hook} (h : Balanced c s)
    (hout : HandsOver env c now s m r sent onReturn) : Balanced c sent := by
  cases hout with
  | claim _ hbeneficiary hfees _ => exact h.claim hbeneficiary hfees
  | claimProcess _ hfees _ => exact h.claimProcess hfees
  | afterSwap => exact ⟨h.total, h.covers, h.treasury, h.solvent⟩

theorem Balanced.resumes {s₀ sent : Hook} (h : Balanced c s)
    (hout : HandsOver env c now s₀ m r sent onReturn) (hret : onReturn s = .ok (v, s')) :
    Balanced c s' := by
  cases hout with
  | claim =>
    rcases finishClaim_eq_ok hret with ⟨-, -, rfl⟩
    exact ⟨h.total, h.covers, h.treasury, h.solvent⟩
  | claimProcess =>
    rcases finishClaim_eq_ok hret with ⟨-, -, rfl⟩
    exact ⟨h.total, h.covers, h.treasury, h.solvent⟩
  | afterSwap => exact h.finishAfterSwap hret

end

/-- Every piece of hook code keeps the books balanced. -/
theorem balanced_segmentRule (env : Externals) (c : ConstructorConfig) (now : Nat) :
    SegmentRule (enter env c now) (Balanced c) where
  done hout h := h.finishes (enter_eq_done hout)
  entry hout h := h.handsOver (enter_eq_call hout).1
  resume hout h hret := h.resumes (enter_eq_call hout).1 hret
  fail := by
    intro c s r sent onReturn onFailure v s' hout hret
    rcases (enter_eq_call hout).2 with ⟨e, he⟩
    rw [he] at hret
    cases hret

/-! ## The beneficiaries are the past treasuries -/

/-- The addresses that were the treasury at some point of a history. -/
def pastTreasuries (c : ConstructorConfig) (w : HookHistory) : Finset Address :=
  insert c.treasury (w.trace.map fun seg => seg.post.roles.treasury).toFinset

/-- A piece of hook code makes its treasury a beneficiary and no one else. -/
theorem Piece.treasuryBeneficiaries {env : Externals} {c : ConstructorConfig} {seg : HookSegment}
    (h : Piece env c seg)
    (htreasury : seg.pre.roles.treasury ∈ seg.pre.roles.treasuryBeneficiaries) :
    seg.post.roles.treasuryBeneficiaries =
      insert seg.post.roles.treasury seg.pre.roles.treasuryBeneficiaries := by
  have hkeep := Finset.insert_eq_of_mem htreasury
  cases h with
  | finished hout =>
    cases hout with
    | afterSwap _ _ _ hfinish =>
      rcases finishAfterSwap_eq_ok hfinish with ⟨_, -, -, -, -, rfl⟩
      exact hkeep.symm
    | acceptTreasury => rfl
    | _ => exact hkeep.symm
  | sent hout => cases hout <;> exact hkeep.symm
  | resumed hout hret =>
    cases hout with
    | claim =>
      rcases finishClaim_eq_ok hret with ⟨-, -, rfl⟩
      exact hkeep.symm
    | claimProcess =>
      rcases finishClaim_eq_ok hret with ⟨-, -, rfl⟩
      exact hkeep.symm
    | afterSwap =>
      rcases finishAfterSwap_eq_ok hret with ⟨_, -, -, -, -, rfl⟩
      exact hkeep.symm

/-- The invariant of histories: the books balance, over the past treasuries. -/
def BalancedHistory (c : ConstructorConfig) (w : HookHistory) : Prop :=
  Balanced c w.state ∧ w.state.roles.treasuryBeneficiaries = pastTreasuries c w

theorem balancedHistory_rule (env : Externals) (c : ConstructorConfig) (now : Nat) :
    TraceRule (enter env c) now (BalancedHistory c) := by
  refine TraceRule.and (SegmentRule.traceRule (balanced_segmentRule env c)) ?_
  intro w seg _ hvalid hpre hbalanced hpast
  have hinsert := (piece_of_valid hvalid).treasuryBeneficiaries (by
    rw [hpre]
    exact hbalanced.treasury)
  rw [hpre, hpast] at hinsert
  rw [Traced.push_state, hinsert]
  simp only [pastTreasuries, Traced.push_trace, List.map_append, List.toFinset_append,
    List.map_singleton, List.toFinset_cons, List.toFinset_nil]
  ext a
  simp only [Finset.mem_insert, Finset.mem_union, Finset.notMem_empty, or_false]
  tauto

theorem balancedHistory_start (c : ConstructorConfig) (balance : Nat) :
    BalancedHistory c (.start (Hook.deployed c balance)) := by
  refine ⟨balanced_deployed c balance, ?_⟩
  simp [pastTreasuries, Hook.deployed, MoneyRoles.initial]

/-- **Solvency of the hook.** After any number of transactions, each an arbitrary
forest of calls nested in the transfers that the hook makes, the total liability
is the sum of the three streams over every address that was ever the treasury,
and the balance covers it. -/
theorem hook_solvent (env : Externals) (d : Deployment) (balance t : Nat) (w : HookHistory)
    (h : HookReachable env d.toConstructorConfig balance t w) :
    w.state.fees.totalLiabilityAmount =
        w.state.fees.programmableLiabilities d.programmable +
          ∑ a ∈ pastTreasuries d.toConstructorConfig w, w.state.fees.treasuryLiabilities a +
            w.state.fees.processLiabilityAmount ∧
      w.state.fees.totalLiabilityAmount ≤ w.state.balance := by
  have hinv : BalancedHistory d.toConstructorConfig w :=
    h.traced_invariant (I := fun _ => BalancedHistory d.toConstructorConfig)
      (fun _ => balancedHistory_start _ balance) (fun _ hw => hw)
      (balancedHistory_rule env d.toConstructorConfig)
  rcases hinv with ⟨hbalanced, hpast⟩
  refine ⟨?_, hbalanced.solvent⟩
  rw [hbalanced.total, hpast]
  rfl

/-- After the sample swap and the treasury's claim, 2700 of the 3000 units stay
owed and held: the claim from within the claim paid nothing. -/
theorem hook_solvent_sample :
    sampleHistory.state.fees.totalLiabilityAmount = 2700 ∧
      2700 = sampleHistory.state.fees.programmableLiabilities sampleConfig.programmable +
        ∑ a ∈ pastTreasuries sampleConfig sampleHistory,
          sampleHistory.state.fees.treasuryLiabilities a +
            sampleHistory.state.fees.processLiabilityAmount ∧
      2700 ≤ sampleHistory.state.balance := by
  have htotal : sampleHistory.state.fees.totalLiabilityAmount = 2700 := by decide +kernel
  have hsolvent := hook_solvent sampleExternals sampleDeployment 0 1000 sampleHistory
    sampleHistory_reachable
  rw [htotal] at hsolvent
  exact ⟨htotal, hsolvent⟩

/-- The same holds wherever outside code has control inside a transaction. -/
theorem balanced_inside (env : Externals) (c : ConstructorConfig) (now : Nat) {s₀ s : Hook}
    (h₀ : Balanced c s₀) (hs : ControlPoint (enter env c now) s₀ s) : Balanced c s :=
  (balanced_segmentRule env c now).controlPoint hs h₀

end Hookemon.Contracts
