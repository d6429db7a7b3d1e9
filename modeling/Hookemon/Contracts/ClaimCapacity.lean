import Hookemon.Contracts.ClaimLimits
import Hookemon.Contracts.HookSolvency

/-! # The capacity view agrees with the claims (`HookemonHook.sol`)

`remainingProcessClaimCapacity` scans the ring buffer and looks at the pending limit without
touching either. A claim first settles the limit and prunes the buffer, and then goes by the
running total. Both come to the same: a claim is paid exactly up to what the view says, and the
view then says as much less.
-/

namespace Hookemon.Contracts

open Hookemon.Core

/-! ## The view -/

/-- The body of the loop of `_activeProcessClaimUsage`. -/
def addActiveEntry (now maxCount : Nat) (c : ProcessClaims) (used offset : Nat) : Run Nat := do
  let entryIndex ← modU256 (c.windowHead + offset) maxCount
  let entry := c.windowEntries entryIndex
  let age ← subU256 now entry.claimedAt
  if age < processClaimWindow then addU256 used entry.amountWei else pure used

/-- `_activeProcessClaimUsage`. -/
def activeProcessClaimUsage (now maxCount : Nat) (c : ProcessClaims) : Run Nat :=
  (List.range c.windowCount).foldlM (addActiveEntry now maxCount c) 0

/-- `remainingProcessClaimCapacity`. -/
def remainingProcessClaimCapacity (now maxCount : Nat) (c : ProcessClaims) : Run Nat := do
  let cap := effectiveProcessClaimLimit now c
  let used ← activeProcessClaimUsage now maxCount c
  pure (if used ≥ cap then 0 else cap - used)

/-- The entries of the buffer that are not expired. -/
def unexpiredEntries (now maxCount : Nat) (c : ProcessClaims) : List ProcessClaimWindowEntry :=
  ((List.range c.windowCount).map fun offset =>
    c.windowEntries ((c.windowHead + offset) % maxCount)).filter fun entry =>
      decide (now < entry.claimedAt + processClaimWindow)

variable {now maxCount : Nat} {c : ProcessClaims} {live : List AdmittedClaim}

/-! ## What the scan finds -/

/-- The scan adds up the live claims of the window. -/
theorem activeUsage_scan (hholds : WindowHolds maxCount c live)
    (hpast : ∀ e ∈ live, e.claimedAt ≤ now)
    (hsum : (live.map AdmittedClaim.amountWei).sum ≤ uint256Max) {n : Nat} (hn : n ≤ live.length) :
    (List.range n).foldlM (addActiveEntry now maxCount c) 0
      = .ok (claimedWithin now (live.take n)) := by
  induction n with
  | zero => rfl
  | succ n ih =>
    have hlt : n < live.length := hn
    have hget : c.windowEntries ((c.windowHead + n) % maxCount) = live[n].windowEntry := by
      have hring := hholds.ring.get n (by rw [List.length_map]; exact hlt)
      rw [hring, List.getElem_map]
    have hmax : maxCount ≠ 0 := by
      have hhead := hholds.ring.head_lt
      omega
    have htake : live.take (n + 1) = live.take n ++ [live[n]] := by
      rw [List.take_add_one, List.getElem?_eq_getElem hlt]
      rfl
    -- no partial sum overflows, because the sum of all entries does not
    have hpart : claimedWithin now (live.take n) + live[n].amountWei
        ≤ (live.map AdmittedClaim.amountWei).sum := by
      have hsplit : (live.map AdmittedClaim.amountWei).sum
          = ((live.take (n + 1)).map AdmittedClaim.amountWei).sum
            + ((live.drop (n + 1)).map AdmittedClaim.amountWei).sum := by
        rw [← List.sum_append, ← List.map_append, List.take_append_drop]
      have hwindow : claimedWithin now (live.take n)
          ≤ ((live.take n).map AdmittedClaim.amountWei).sum :=
        (List.filter_sublist.map _).sum_le_sum (fun _ _ => Nat.zero_le _)
      rw [htake, List.map_append, List.sum_append] at hsplit
      simp only [List.map_singleton, List.sum_singleton] at hsplit
      omega
    have hentry : addActiveEntry now maxCount c (claimedWithin now (live.take n)) n
        = .ok (claimedWithin now (live.take (n + 1))) := by
      have hpastn := hpast live[n] (List.getElem_mem hlt)
      unfold addActiveEntry
      simp only [modU256, if_neg hmax, ok_bind, hget, AdmittedClaim.windowEntry,
        checkedSub_of_le hpastn]
      rw [htake]
      simp only [claimedWithin, windowSum, windowed_append, List.map_append, List.sum_append]
      -- an entry older than the window adds nothing
      split
      · rename_i hyoung
        have hin : windowed AdmittedClaim.claimedAt processClaimWindow now [live[n]] = [live[n]] := by
          simp only [windowed, List.filter_cons, List.filter_nil, decide_eq_true_eq]
          rw [if_pos ⟨by omega, hpastn⟩]
        rw [hin, List.map_singleton, List.sum_singleton]
        exact checkedAdd_of_le (by simp only [claimedWithin, windowSum] at hpart; omega)
      · rename_i hold
        have hout : windowed AdmittedClaim.claimedAt processClaimWindow now [live[n]] = [] := by
          simp only [windowed, List.filter_cons, List.filter_nil, decide_eq_true_eq]
          rw [if_neg (by omega)]
        rw [hout]
        rfl
    rw [List.range_succ, List.foldlM_append, ih (Nat.le_of_succ_le hn), ok_bind,
      List.foldlM_cons, hentry]
    rfl

theorem activeProcessClaimUsage_ok (hholds : WindowHolds maxCount c live)
    (hpast : ∀ e ∈ live, e.claimedAt ≤ now) (hword : c.activeProcessClaimUsage ≤ uint256Max) :
    activeProcessClaimUsage now maxCount c = .ok (claimedWithin now live) := by
  have hscan := activeUsage_scan hholds hpast (hholds.usage ▸ hword) (le_refl live.length)
  unfold activeProcessClaimUsage
  rw [hholds.count, hscan, List.take_length]

theorem remainingProcessClaimCapacity_ok (hholds : WindowHolds maxCount c live)
    (hpast : ∀ e ∈ live, e.claimedAt ≤ now) (hword : c.activeProcessClaimUsage ≤ uint256Max) :
    remainingProcessClaimCapacity now maxCount c
      = .ok (effectiveProcessClaimLimit now c - claimedWithin now live) := by
  unfold remainingProcessClaimCapacity
  dsimp only
  rw [activeProcessClaimUsage_ok hholds hpast hword, ok_bind]
  congr 1
  split
  · omega
  · rfl

/-- The unexpired entries are the claims of the window. -/
theorem unexpiredEntries_eq (hholds : WindowHolds maxCount c live)
    (hpast : ∀ e ∈ live, e.claimedAt ≤ now) :
    unexpiredEntries now maxCount c = (claimsWithin now live).map AdmittedClaim.windowEntry := by
  have hentries : (List.range c.windowCount).map (fun offset =>
      c.windowEntries ((c.windowHead + offset) % maxCount))
        = live.map AdmittedClaim.windowEntry := by
    apply List.ext_getElem
    · rw [List.length_map, List.length_range, hholds.count, List.length_map]
    · intro i hi hi'
      rw [List.getElem_map, List.getElem_range]
      exact hholds.ring.get i hi'
  unfold unexpiredEntries
  rw [hentries, List.filter_map]
  congr 1
  apply List.filter_congr
  intro e he
  have hpaste := hpast e he
  refine decide_eq_decide.mpr ⟨fun h => ⟨h, hpaste⟩, fun h => h.1⟩

/-! ## What pruning leaves -/

/-- Pruning never fails: the running total covers every entry. -/
theorem pruneLoop_ok {n : Nat} : ∀ {c : ProcessClaims} {live : List AdmittedClaim},
    live.length = n → WindowHolds maxCount c live → (∀ e ∈ live, e.claimedAt ≤ now) →
    ∃ c', pruneLoop now maxCount n c = .ok c' := by
  induction n with
  | zero =>
    intro c live _ _ _
    exact ⟨c, rfl⟩
  | succ n ih =>
    intro c live hlength hholds hpast
    cases live with
    | nil => cases hlength
    | cons e rest =>
      have hring := hholds.ring
      rw [List.map_cons] at hring
      have hentry : c.windowEntries c.windowHead = e.windowEntry := hring.first
      have htotal := hholds.usage
      rw [List.map_cons, List.sum_cons] at htotal
      have hpaste := hpast e List.mem_cons_self
      have hmax : maxCount ≠ 0 := by
        have hhead := hring.head_lt
        omega
      rw [pruneLoop]
      simp only [hentry, AdmittedClaim.windowEntry, checkedSub_of_le hpaste, ok_bind, modU256,
        if_neg hmax, checkedSub_of_le (show e.amountWei ≤ c.activeProcessClaimUsage by omega)]
      split
      · exact ⟨c, rfl⟩
      · refine ih (Nat.succ.inj hlength) ⟨hring.pop _, ?_, ?_⟩
          fun e' he' => hpast e' (List.mem_cons_of_mem e he')
        · exact (Nat.succ.inj hlength).symm
        · dsimp only
          omega

/-- Pruning leaves the claims of the window. -/
theorem prune_ok (hholds : WindowHolds maxCount c live) (hlive : LiveClaims now live live) :
    ∃ c', pruneExpiredProcessClaimEntries now maxCount c = .ok c' ∧
      WindowHolds maxCount c' (claimsWithin now live) ∧ PruneFrame c c' := by
  obtain ⟨c', hprune⟩ := pruneLoop_ok hholds.count.symm hholds hlive.past
  obtain ⟨live', hholds', -, hwithin⟩ := pruneLoop_eq_ok hholds.count.symm hholds hlive hprune
  exact ⟨c', hprune, hwithin ▸ hholds', pruneLoop_frame hprune⟩

/-! ## Admission -/

/-- A claim that finds a free entry is admitted exactly up to the capacity, and takes as much of
it. -/
theorem admitProcessClaim_iff (hholds : WindowHolds maxCount c live)
    (hlive : LiveClaims now live live) (hunpaused : c.processClaimsPaused = false)
    {cycleId : Bytes32} (hcycle : cycleId ≠ 0) (hunused : c.cycleUsed cycleId = false)
    (hroom : (claimsWithin now live).length < maxCount)
    (hword : effectiveProcessClaimLimit now c ≤ uint256Max) {liability amountWei : Nat} :
    (∃ c', admitProcessClaim now maxCount liability cycleId amountWei c = .ok c') ↔
      0 < amountWei ∧ amountWei ≤ liability ∧
        amountWei ≤ effectiveProcessClaimLimit now c - claimedWithin now live := by
  have hsettled : WindowHolds maxCount (activateProcessClaimLimitIfDue now c) live := by
    rw [activateProcessClaimLimitIfDue_eq]
    exact ⟨hholds.ring, hholds.count, hholds.usage⟩
  obtain ⟨c₁, hprune, hholds₁, hframe⟩ := prune_ok hsettled hlive
  have hlimit : c₁.processClaimLimit = effectiveProcessClaimLimit now c := by
    rw [effectiveProcessClaimLimit_eq, ← Timelock.settle_value,
      ← activateProcessClaimLimitIfDue_timelock, ← hframe.timelock]
    rfl
  have hused : c₁.activeProcessClaimUsage = claimedWithin now live := hholds₁.usage
  have hcount : c₁.windowCount ≠ maxCount := by
    rw [hholds₁.count]
    omega
  have hmax : maxCount ≠ 0 := by omega
  unfold admitProcessClaim
  simp only [hunpaused, hunused, hprune, ok_bind, bind_eq_ok, revertIf_eq_ok, modU256_eq_ok,
    checkedAdd_eq_ok, pure_eq_ok, hlimit, hused]
  constructor
  · rintro ⟨_, _, -, _, -, _, -, _, hamount, _, hcapacity, -⟩
    omega
  · rintro ⟨hpositive, hliability, hcapacity⟩
    exact ⟨_, (), by simp, (), hcycle, (), by simp, (), by omega, (), by omega, (), hcount, _,
      ⟨hmax, rfl⟩, _, ⟨by omega, rfl⟩, rfl⟩

theorem claimedWithin_append (log log' : List AdmittedClaim) :
    claimedWithin now (log ++ log') = claimedWithin now log + claimedWithin now log' := by
  simp only [claimedWithin, windowSum, windowed_append, List.map_append, List.sum_append]

/-- A claim of now is in the window. -/
theorem claimedWithin_now (cycleId : Bytes32) (amountWei : Nat) :
    claimedWithin now [⟨cycleId, amountWei, now⟩] = amountWei := by
  have hwindow : windowed AdmittedClaim.claimedAt processClaimWindow now
      [⟨cycleId, amountWei, now⟩] = [⟨cycleId, amountWei, now⟩] := by
    simp [windowed, processClaimWindow]
  simp only [claimedWithin, windowSum, hwindow, List.map_singleton, List.sum_singleton]

/-- Dropping expired claims leaves the total of the window. -/
theorem claimedWithin_live {log : List AdmittedClaim} (h : LiveClaims now log live) :
    claimedWithin now log = claimedWithin now live := by
  obtain ⟨expired, hsplit, hexpired⟩ := h.suffix
  have hnone : windowed AdmittedClaim.claimedAt processClaimWindow now expired = [] := by
    refine List.filter_eq_nil_iff.mpr ?_
    intro e he
    have hout := hexpired e he
    simp only [decide_eq_true_eq]
    omega
  rw [hsplit, claimedWithin_append]
  simp only [claimedWithin, windowSum, hnone, List.map_nil, List.sum_nil, Nat.zero_add]

/-- What an admitted claim leaves of the view. -/
theorem capacity_after_admission (hholds : WindowHolds maxCount c live)
    (hlive : LiveClaims now live live) (hword : c.activeProcessClaimUsage ≤ uint256Max)
    {cycleId : Bytes32} {liability amountWei : Nat} {c' : ProcessClaims}
    (h : admitProcessClaim now maxCount liability cycleId amountWei c = .ok c')
    (hword' : c'.activeProcessClaimUsage ≤ uint256Max) :
    ∃ after, remainingProcessClaimCapacity now maxCount c' = .ok after ∧
      remainingProcessClaimCapacity now maxCount c = .ok (after + amountWei) := by
  obtain ⟨-, -, hlimited, -, -, -, live', hholds', hlive'⟩ := admitProcessClaim_eq_ok hholds hlive h
  have hlimit : effectiveProcessClaimLimit now c' = effectiveProcessClaimLimit now c := by
    rw [effectiveProcessClaimLimit_eq, effectiveProcessClaimLimit_eq, admitProcessClaim_timelock h,
      Timelock.effective_settle le_rfl]
  have hpast' : ∀ e ∈ live', e.claimedAt ≤ now := by
    obtain ⟨expired, hsplit, -⟩ := hlive'.suffix
    intro e he
    exact hlive'.past e (hsplit ▸ List.mem_append_right expired he)
  have htotal : claimedWithin now live' = claimedWithin now live + amountWei := by
    rw [← claimedWithin_live hlive', claimedWithin_append, claimedWithin_now]
  rw [claimedWithin_append, claimedWithin_now] at hlimited
  refine ⟨_, remainingProcessClaimCapacity_ok hholds' hpast' hword', ?_⟩
  rw [remainingProcessClaimCapacity_ok hholds hlive.past hword, hlimit, htotal]
  congr 1
  omega

/-- Only a positive amount that is owed is admitted. -/
theorem admitted_amount {cycleId : Bytes32} {liability amountWei : Nat} {c' : ProcessClaims}
    (h : admitProcessClaim now maxCount liability cycleId amountWei c = .ok c') :
    0 < amountWei ∧ amountWei ≤ liability := by
  unfold admitProcessClaim at h
  simp only [bind_eq_ok, revertIf_eq_ok] at h
  obtain ⟨_, -, _, -, _, -, _, -, _, hamount, -⟩ := h
  omega

theorem admitted_usage_word {cycleId : Bytes32} {liability amountWei : Nat} {c' : ProcessClaims}
    (h : admitProcessClaim now maxCount liability cycleId amountWei c = .ok c') :
    c'.activeProcessClaimUsage ≤ uint256Max := by
  unfold admitProcessClaim at h
  simp only [bind_eq_ok, checkedAdd_eq_ok, pure_eq_ok] at h
  obtain ⟨_, -, _, -, _, -, _, -, _, -, _, -, _, -, _, -, _, ⟨hword, rfl⟩, rfl⟩ := h
  exact hword

/-! ## Reachable states -/

section

variable {env : Externals} {c : ConstructorConfig}

/-- No transaction leaves the lock taken. -/
theorem unlocked_frameRule (env : Externals) (c : ConstructorConfig) (now : Nat) :
    FrameRule (enter env c now) (fun s s' : Hook =>
      s.fees.moneyPathEntered = false → s'.fees.moneyPathEntered = false) where
  refl _ h := h
  trans h₁ h₂ h := h₂ (h₁ h)
  done := by
    intro m s v s' hout hfree
    cases enter_eq_done hout with
    | afterSwap _ _ _ hfinish =>
      obtain ⟨_, -, -, -, -, rfl⟩ := finishAfterSwap_eq_ok hfinish
      rfl
    | _ => exact hfree
  resume := by
    intro m s r sent onReturn onFailure s₁ v s' hout _ hret _
    cases (enter_eq_call hout).1 with
    | claim =>
      obtain ⟨-, -, rfl⟩ := finishClaim_eq_ok hret
      rfl
    | claimProcess =>
      obtain ⟨-, -, rfl⟩ := finishClaim_eq_ok hret
      rfl
    | afterSwap =>
      obtain ⟨_, -, -, -, -, rfl⟩ := finishAfterSwap_eq_ok hret
      rfl
  fail := by
    intro m s r sent onReturn onFailure v s' hout hret
    obtain ⟨e, he⟩ := (enter_eq_call hout).2
    rw [he] at hret
    cases hret

theorem unlocked_reachable {balance t : Nat} {w : HookHistory}
    (h : HookReachable env c balance t w) : w.state.fees.moneyPathEntered = false := by
  refine h.invariant (I := fun _ w => w.state.fees.moneyPathEntered = false) (fun _ => rfl) ?_
    fun now => (unlocked_frameRule env c now).traced
  intro t now w _ hw
  exact hw

/-- The running total is a word. -/
theorem usage_word_path {t₁ t : Nat} {w₁ w : HookHistory} (h : Path (enter env c) t₁ w₁ t w)
    (h₁ : w₁.state.claims.activeProcessClaimUsage ≤ uint256Max) :
    w.state.claims.activeProcessClaimUsage ≤ uint256Max := by
  refine h.invariant (I := fun _ w => w.state.claims.activeProcessClaimUsage ≤ uint256Max) h₁
    (fun _ hw => hw) ?_
  intro now w seg htime hvalid hpre hword
  rw [← hpre] at hword
  rw [Traced.push_state]
  cases (piece_of_valid hvalid).claims with
  | quiet paused _ _ hclaims =>
    rw [hclaims]
    exact hword
  | request newLimit _ _ _ hset =>
    rw [(setProcessClaimLimit_eq_ok hset).2.2]
    exact hword
  | admission cycleId amountWei _ _ hadmitted => exact admitted_usage_word hadmitted

/-- The operations account can be paid, and so can its successors. -/
structure OperationsPayable (c : ConstructorConfig) (s : Hook) : Prop where
  operations : s.roles.operations ≠ 0 ∧ s.roles.operations ≠ c.self
  proposed : s.roles.proposedOperations = 0 ∨ s.roles.proposedOperations ≠ c.self
  next : s.rotation.nextOperations = 0 ∨ s.rotation.nextOperations ≠ c.self

theorem OperationsPayable.deployed (d : Deployment) (balance : Nat) :
    OperationsPayable d.toConstructorConfig (Hook.deployed d.toConstructorConfig balance) := by
  have hchecks := d.accepted
  simp only [ConstructorConfig.checks, bind_eq_ok, revertIf_eq_ok] at hchecks
  obtain ⟨-, -, -, hroles, -⟩ := hchecks
  push Not at hroles
  exact ⟨⟨hroles.2.2.1, hroles.2.2.2.2.2⟩, Or.inl rfl, Or.inl rfl⟩

/-- A proposed successor is not the contract itself. -/
theorem proposed_not_self {now : Nat} {sender successor : Address} {s : Hook} {o : HookOutcome}
    (h : HookOp.run env c now sender s (.proposeOperations successor) = .ok o) :
    successor ≠ c.self := by
  simp only [HookOp.run, finish_eq_ok, bind_eq_ok, proposeOperations_eq_ok] at h
  obtain ⟨_, ⟨_, ⟨-, -, hsuccessor, -⟩, -⟩, -⟩ := h
  exact hsuccessor.2.2

theorem proposed_of_valid {t : Nat} {sender successor : Address} {v : HookReturn} {s s' : Hook}
    (h : Segment.Valid (enter env c) ⟨t, ⟨sender, .proposeOperations successor⟩, .finished v, s, s'⟩) :
    successor ≠ c.self := by
  rcases h with hdone | ⟨r, sent, onReturn, onFailure, hcall, -⟩
  · exact proposed_not_self (Outcome.ofRun_eq_done.mp hdone)
  · exact proposed_not_self (Outcome.ofRun_eq_call.mp hcall)

theorem operationsPayable_rule (env : Externals) (c : ConstructorConfig) (now : Nat) :
    TraceRule (enter env c) now (fun w => OperationsPayable c w.state) := by
  rintro w ⟨t, m, progress, s, s'⟩ _ hvalid hpre h
  have hs : OperationsPayable c s := by
    rw [show s = w.state from hpre]
    exact h
  rw [Traced.push_state]
  cases piece_of_valid hvalid with
  | finished hout =>
    cases hout with
    | afterSwap _ _ _ hfinish =>
      obtain ⟨_, -, -, -, -, rfl⟩ := finishAfterSwap_eq_ok hfinish
      exact ⟨hs.operations, hs.proposed, hs.next⟩
    | scheduleOperationsRotation hnext _ => exact ⟨hs.operations, Or.inl rfl, Or.inr hnext.2.2⟩
    | executeOperationsRotation hpending _ _ _ =>
      exact ⟨⟨hpending, hs.next.resolve_left hpending⟩, Or.inl rfl, Or.inl rfl⟩
    | proposeOperations => exact ⟨hs.operations, Or.inr (proposed_of_valid hvalid), hs.next⟩
    | acceptOperations _ hlive =>
      exact ⟨⟨hlive, hs.proposed.resolve_left hlive⟩, Or.inl rfl, hs.next⟩
    | _ => exact ⟨hs.operations, hs.proposed, hs.next⟩
  | sent hout => cases hout <;> exact ⟨hs.operations, hs.proposed, hs.next⟩
  | resumed hout hret =>
    cases hout with
    | claim =>
      obtain ⟨-, -, rfl⟩ := finishClaim_eq_ok hret
      exact ⟨hs.operations, hs.proposed, hs.next⟩
    | claimProcess =>
      obtain ⟨-, -, rfl⟩ := finishClaim_eq_ok hret
      exact ⟨hs.operations, hs.proposed, hs.next⟩
    | afterSwap =>
      obtain ⟨_, -, -, -, -, rfl⟩ := finishAfterSwap_eq_ok hret
      exact ⟨hs.operations, hs.proposed, hs.next⟩

/-- The debit of an admitted claim. -/
theorem claimProcessLiability_ok {s : Hook} (hbalanced : Balanced c s)
    (hunlocked : s.fees.moneyPathEntered = false) {amountWei : Nat} (hpositive : 0 < amountWei)
    (howed : amountWei ≤ s.fees.processLiabilityAmount) :
    claimProcessLiability amountWei s.balance s.fees = .ok { s.fees with
      processLiabilityAmount := s.fees.processLiabilityAmount - amountWei
      totalLiabilityAmount := s.fees.totalLiabilityAmount - amountWei
      moneyPathEntered := true } := by
  have htotal := hbalanced.total
  have hsolvent := hbalanced.solvent
  unfold Hook.owedToStreams at htotal
  unfold claimProcessLiability enterMoneyPath
  rw [hunlocked, revertIf_of_not Bool.false_ne_true, ok_bind]
  simp only [pure, Except.pure, ok_bind, debitProcessLiability, requireEnteredMoneyPath,
    requireSolventAt]
  have hprocess : subU256 s.fees.processLiabilityAmount amountWei
      = .ok (s.fees.processLiabilityAmount - amountWei) := checkedSub_of_le howed
  have hall : subU256 s.fees.totalLiabilityAmount amountWei
      = .ok (s.fees.totalLiabilityAmount - amountWei) := checkedSub_of_le (by omega)
  rw [revertIf_of_not (by simp), revertIf_of_not (by omega), revertIf_of_not (by omega), hprocess,
    hall]
  rfl

variable (env) in
/-- An admitted claim hands the amount over. -/
theorem enter_claimProcess {now amountWei : Nat} {cycleId : Bytes32} {s : Hook}
    {claims : ProcessClaims} (hbalanced : Balanced c s)
    (hunlocked : s.fees.moneyPathEntered = false) (hpayable : OperationsPayable c s)
    (hpositive : 0 < amountWei) (howed : amountWei ≤ s.fees.processLiabilityAmount)
    (hadmitted : admitProcessClaim now c.processClaimMaxCount s.fees.processLiabilityAmount cycleId
      amountWei s.claims = .ok claims) :
    ∃ fees onFailure, enter env c now
        ⟨s.roles.operations, .claimProcess cycleId amountWei s.roles.operations⟩ s
      = .call (.pay s.roles.operations amountWei)
          { s with claims := claims, fees := fees, balance := s.balance - amountWei }
          (finishClaim amountWei) onFailure := by
  have hfunds : amountWei ≤ s.balance := by
    have htotal := hbalanced.total
    have hsolvent := hbalanced.solvent
    unfold Hook.owedToStreams at htotal
    omega
  refine ⟨{ s.fees with
    processLiabilityAmount := s.fees.processLiabilityAmount - amountWei
    totalLiabilityAmount := s.fees.totalLiabilityAmount - amountWei
    moneyPathEntered := true }, .error .tokenTransferFailed, ?_⟩
  change Outcome.ofRun (claimProcess c now s.roles.operations cycleId amountWei s.roles.operations s)
    = _
  unfold claimProcess authorizeProcessClaim payClaim requireEnteredMoneyPath
  rw [revertIf_of_not (by simp), ok_bind, revertIf_of_not (by simp), ok_bind, hadmitted, ok_bind,
    claimProcessLiability_ok hbalanced hunlocked hpositive howed, ok_bind]
  dsimp only
  rw [revertIf_of_not (by simp), ok_bind, revertIf_of_not, ok_bind, revertIf_of_not (by omega)]
  · rfl
  · simp only [hpayable.operations.1, hpayable.operations.2, false_or]
    omega

theorem finishClaim_ok (amountWei : Nat) {s : Hook}
    (h : s.fees.totalLiabilityAmount ≤ s.balance) :
    ∃ v s', finishClaim amountWei s = .ok (v, s') := by
  unfold finishClaim
  rw [settleClaim_eq_ok.mpr ⟨h, rfl⟩, ok_bind]
  exact ⟨_, _, rfl⟩

/-- A claim is paid exactly when it is admitted: the lock is free, the books are balanced, and
the recipient can be paid, whatever it does with the control that it gets. -/
theorem exec_claimProcess {now amountWei : Nat} {cycleId : Bytes32} {s : Hook}
    (hbalanced : Balanced c s) (hunlocked : s.fees.moneyPathEntered = false)
    (hpayable : OperationsPayable c s) (inner : List (CallTree Msg)) :
    (∃ v s', exec (enter env c now) (.node ⟨s.roles.operations,
        .claimProcess cycleId amountWei s.roles.operations⟩ true inner) s = .ok (v, s')) ↔
      ∃ claims, admitProcessClaim now c.processClaimMaxCount s.fees.processLiabilityAmount cycleId
        amountWei s.claims = .ok claims := by
  constructor
  · rintro ⟨v, s', hrun⟩
    unfold exec at hrun
    cases hout : enter env c now
        ⟨s.roles.operations, .claimProcess cycleId amountWei s.roles.operations⟩ s with
    | revert e => simp [hout] at hrun
    | done v' s'' =>
      obtain ⟨-, -, claims, -, hadmitted, -⟩ := claimProcess_eq_ok (Outcome.ofRun_eq_done.mp hout)
      exact ⟨claims, hadmitted⟩
    | call r sent onReturn onFailure =>
      obtain ⟨-, -, claims, -, hadmitted, -⟩ := claimProcess_eq_ok (Outcome.ofRun_eq_call.mp hout)
      exact ⟨claims, hadmitted⟩
  · rintro ⟨claims, hadmitted⟩
    have hamount := admitted_amount hadmitted
    obtain ⟨fees, onFailure, hout⟩ :=
      enter_claimProcess env hbalanced hunlocked hpayable hamount.1 hamount.2 hadmitted
    -- whatever the recipient does, the books stay balanced
    have hinner := (balanced_segmentRule env c now).frameRule.execAll inner _
      (hbalanced.handsOver (enter_eq_call hout).1)
    obtain ⟨v, s', hfinished⟩ := finishClaim_ok amountWei hinner.solvent
    refine ⟨v, s', ?_⟩
    unfold exec
    rw [hout]
    exact hfinished

end

/-! ## The view and the claim agree -/

/-- In every reachable state, at every time that is not before a recorded claim: an unpaused hook
with a free entry pays the operations account for an unused cycle exactly the amounts up to the
capacity and the process liability, and the capacity then is smaller by the amount. -/
theorem processClaimCapacity_agrees (env : Externals) (d : Deployment) (balance t : Nat)
    (w : HookHistory) (h : HookReachable env d.toConstructorConfig balance t w)
    (hword : d.processClaimLimitMaxWei ≤ uint256Max) (now : Nat)
    (hnow : ∀ e ∈ claimLog w.trace, e.claimedAt ≤ now) (cycleId : Bytes32) (hcycle : cycleId ≠ 0)
    (hunused : w.state.claims.cycleUsed cycleId = false)
    (hunpaused : w.state.claims.processClaimsPaused = false)
    (hroom : (unexpiredEntries now d.processClaimMaxCount w.state.claims).length
      < d.processClaimMaxCount) :
    let s := w.state
    let claim := fun amountWei inner => exec (enter env d.toConstructorConfig now)
      (.node ⟨s.roles.operations, .claimProcess cycleId amountWei s.roles.operations⟩ true inner) s
    ∃ remaining, remainingProcessClaimCapacity now d.processClaimMaxCount s.claims = .ok remaining ∧
      (∀ amountWei inner, (∃ v s', claim amountWei inner = .ok (v, s')) ↔
        0 < amountWei ∧ amountWei ≤ min remaining s.fees.processLiabilityAmount) ∧
      ∀ amountWei v s', claim amountWei [] = .ok (v, s') → ∃ after,
        remainingProcessClaimCapacity now d.processClaimMaxCount s'.claims = .ok after ∧
          remaining = after + amountWei := by
  intro s claim
  have hinv : ClaimsInv d.toConstructorConfig t w :=
    h.traced_invariant (I := ClaimsInv d.toConstructorConfig)
      (fun now => .start d.claimBounds.1 balance now) (fun hle hw => hw.wait hle)
      (claimsInv_rule env d.toConstructorConfig)
  have hbalanced : BalancedHistory d.toConstructorConfig w :=
    h.traced_invariant (I := fun _ => BalancedHistory d.toConstructorConfig)
      (fun _ => balancedHistory_start _ balance) (fun _ hw => hw)
      (balancedHistory_rule env d.toConstructorConfig)
  have hpayable : OperationsPayable d.toConstructorConfig s :=
    h.traced_invariant (I := fun _ w => OperationsPayable d.toConstructorConfig w.state)
      (fun _ => .deployed d balance) (fun _ hw => hw)
      (operationsPayable_rule env d.toConstructorConfig)
  have husage : s.claims.activeProcessClaimUsage ≤ uint256Max :=
    usage_word_path h.path (Nat.zero_le _)
  have hlimit : effectiveProcessClaimLimit now s.claims ≤ uint256Max :=
    ((path_limit_below h.path ⟨d.claimBounds.2, Nat.zero_le _⟩).effective now).trans hword
  obtain ⟨live, hholds, hsuffix⟩ := hinv.window
  -- the entries of the buffer are a sorted part of the log
  have hlive : LiveClaims now live live := by
    obtain ⟨expired, hsplit, -⟩ := hsuffix.suffix
    refine ⟨⟨[], rfl, by simp⟩, ?_, ?_⟩
    · have hsorted := hsuffix.sorted
      rw [hsplit, List.map_append, List.pairwise_append] at hsorted
      exact hsorted.2.1
    · intro e he
      exact hnow e (hsplit ▸ List.mem_append_right expired he)
  have hfree : (claimsWithin now live).length < d.processClaimMaxCount := by
    rw [unexpiredEntries_eq hholds hlive.past, List.length_map] at hroom
    exact hroom
  have hview := remainingProcessClaimCapacity_ok hholds hlive.past husage
  refine ⟨_, hview, ?_, ?_⟩
  · intro amountWei inner
    refine (exec_claimProcess hbalanced.1 (unlocked_reachable h) hpayable inner).trans ?_
    rw [admitProcessClaim_iff hholds hlive hunpaused hcycle hunused hfree hlimit, le_min_iff]
    exact and_congr_right fun _ => and_comm
  · intro amountWei v s' hrun
    obtain ⟨claims, hadmitted⟩ :=
      (exec_claimProcess hbalanced.1 (unlocked_reachable h) hpayable []).mp ⟨v, s', hrun⟩
    obtain ⟨hpositive, howed⟩ := admitted_amount hadmitted
    obtain ⟨fees, onFailure, hout⟩ := enter_claimProcess env hbalanced.1
      (unlocked_reachable h) hpayable hpositive howed hadmitted
    obtain ⟨after, hafter, hbefore⟩ := capacity_after_admission hholds hlive husage hadmitted
      (admitted_usage_word hadmitted)
    have hfinished : finishClaim amountWei
        { s with claims := claims, fees := fees, balance := s.balance - amountWei } = .ok (v, s') := by
      change exec _ _ _ = _ at hrun
      unfold exec at hrun
      rw [hout] at hrun
      simpa only [execAll, if_true] using hrun
    obtain ⟨-, -, rfl⟩ := finishClaim_eq_ok hfinished
    refine ⟨after, hafter, ?_⟩
    rw [hview] at hbefore
    exact Except.ok.inj hbefore

/-- After the sample swap operations can claim all that the process is owed. -/
theorem processClaimCapacity_agrees_sample :
    ∃ v s', exec (enter sampleExternals sampleConfig 1000)
      (.node ⟨sampleHistory.state.roles.operations,
        .claimProcess 1 2500 sampleHistory.state.roles.operations⟩ true []) sampleHistory.state
        = .ok (v, s') := by
  obtain ⟨remaining, hremaining, hclaims, -⟩ := processClaimCapacity_agrees sampleExternals
    sampleDeployment 0 1000 sampleHistory sampleHistory_reachable (by decide) 1000
    (by decide +kernel) 1 (by decide) (by decide +kernel) (by decide +kernel) (by decide +kernel)
  have hview : remainingProcessClaimCapacity 1000 sampleDeployment.processClaimMaxCount
      sampleHistory.state.claims = .ok 5000 := by
    decide +kernel
  have howed : sampleHistory.state.fees.processLiabilityAmount = 2500 := by decide +kernel
  rw [hview] at hremaining
  refine (hclaims 2500 []).mpr ⟨by decide, ?_⟩
  rw [howed, ← Except.ok.inj hremaining]
  decide

end Hookemon.Contracts
