import Hookemon.Core.RollingWindow
import Hookemon.Core.Timelock
import Hookemon.Contracts.Basic

/-! # The limits on process claims (`HookemonHook.sol`)

Process claims are limited in amount and in number over a sliding window of six
hours. The unexpired claims stand in a ring buffer, with their total beside it;
expired ones are pruned when the next claim comes. The limit itself is lowered
at once and raised only after a delay: a pending limit takes effect the first
time it is looked at after it has come due.
-/

namespace Hookemon.Contracts

open Hookemon.Core

abbrev processClaimWindow : Nat := 21600
abbrev maxProcessClaimWindowEntries : Nat := 64

/-- `ProcessClaimWindowEntry`. -/
structure ProcessClaimWindowEntry where
  amountWei : Nat
  claimedAt : Nat
deriving DecidableEq, Repr

/-- The storage of the process-claim limits. -/
structure ProcessClaims where
  processClaimLimit : Nat
  pendingProcessClaimLimit : Nat
  pendingProcessClaimLimitActivation : Nat
  processClaimsPaused : Bool
  windowEntries : Nat → ProcessClaimWindowEntry
  windowHead : Nat
  windowCount : Nat
  activeProcessClaimUsage : Nat
  cycleUsed : Bytes32 → Bool

namespace ProcessClaims

/-- The storage that the constructor leaves. -/
def initial (processClaimLimit6h : Nat) : ProcessClaims where
  processClaimLimit := processClaimLimit6h
  pendingProcessClaimLimit := 0
  pendingProcessClaimLimitActivation := 0
  processClaimsPaused := false
  windowEntries := fun _ => ⟨0, 0⟩
  windowHead := 0
  windowCount := 0
  activeProcessClaimUsage := 0
  cycleUsed := fun _ => false

end ProcessClaims

/-- `_effectiveProcessClaimLimit`. -/
def effectiveProcessClaimLimit (now : Nat) (c : ProcessClaims) : Nat :=
  if c.pendingProcessClaimLimitActivation ≠ 0 ∧ now ≥ c.pendingProcessClaimLimitActivation then
    c.pendingProcessClaimLimit
  else c.processClaimLimit

/-- `_activateProcessClaimLimitIfDue`; the active limit it returns is the field
`processClaimLimit` of the result. -/
def activateProcessClaimLimitIfDue (now : Nat) (c : ProcessClaims) : ProcessClaims :=
  if c.pendingProcessClaimLimitActivation ≠ 0 ∧ now ≥ c.pendingProcessClaimLimitActivation then
    { c with
      processClaimLimit := c.pendingProcessClaimLimit
      pendingProcessClaimLimit := 0
      pendingProcessClaimLimitActivation := 0 }
  else c

/-- The loop of `_pruneExpiredProcessClaimEntries`, with the number of entries
left to look at. -/
def pruneLoop (now maxCount : Nat) : Nat → ProcessClaims → Run ProcessClaims
  | 0, c => .ok c
  | n + 1, c => do
    let entry := c.windowEntries c.windowHead
    let age ← subU256 now entry.claimedAt
    if age < processClaimWindow then
      .ok c
    else
      let usage ← subU256 c.activeProcessClaimUsage entry.amountWei
      let head ← modU256 (c.windowHead + 1) maxCount
      pruneLoop now maxCount n { c with
        activeProcessClaimUsage := usage
        windowEntries := Function.update c.windowEntries c.windowHead ⟨0, 0⟩
        windowHead := head
        windowCount := n }

/-- `_pruneExpiredProcessClaimEntries`: the loop runs while the count is not
zero, and every round takes one off the count. -/
def pruneExpiredProcessClaimEntries (now maxCount : Nat) (c : ProcessClaims) : Run ProcessClaims :=
  pruneLoop now maxCount c.windowCount c

/-- `claimProcess` between the authorization and the payment: check the claim
against the limits and enter it into the window. -/
def admitProcessClaim (now maxCount processLiability : Nat) (cycleId : Bytes32) (amountWei : Nat)
    (c : ProcessClaims) : Run ProcessClaims := do
  revertIf (c.processClaimsPaused = true) .processClaimsArePaused
  revertIf (cycleId = 0) .invalidCycle
  revertIf (c.cycleUsed cycleId = true) .processClaimCycleAlreadyUsed
  let c ← pruneExpiredProcessClaimEntries now maxCount (activateProcessClaimLimitIfDue now c)
  let cap := c.processClaimLimit
  let used := c.activeProcessClaimUsage
  revertIf (amountWei = 0 ∨ amountWei > processLiability) .invalidLiabilityAmount
  revertIf (used ≥ cap ∨ amountWei > cap - used) .processClaimCapacityExceeded
  revertIf (c.windowCount = maxCount) .processClaimEntryLimitReached
  let entryIndex ← modU256 (c.windowHead + c.windowCount) maxCount
  let usedAfter ← addU256 used amountWei
  pure { c with
    cycleUsed := Function.update c.cycleUsed cycleId true
    windowEntries := Function.update c.windowEntries entryIndex ⟨amountWei, now⟩
    windowCount := c.windowCount + 1
    activeProcessClaimUsage := usedAfter }

/-- `setProcessClaimLimit`, after the authorization. -/
def setProcessClaimLimit (now processClaimLimitMax newLimit : Nat) (c : ProcessClaims) :
    Run ProcessClaims := do
  let c := activateProcessClaimLimitIfDue now c
  if newLimit ≤ c.processClaimLimit then
    .ok { c with
      processClaimLimit := newLimit
      pendingProcessClaimLimit := 0
      pendingProcessClaimLimitActivation := 0 }
  else
    revertIf (newLimit > processClaimLimitMax) .processClaimLimitExceedsMaximum
    let activation ← addU256 now processClaimWindow
    pure { c with
      pendingProcessClaimLimit := newLimit
      pendingProcessClaimLimitActivation := activation }

/-- `_pauseProcessClaims`. -/
def pauseProcessClaims (c : ProcessClaims) : ProcessClaims :=
  { c with processClaimsPaused := true }

/-- The end of `unpauseProcessClaims`. -/
def unpauseProcessClaims (c : ProcessClaims) : ProcessClaims :=
  { c with processClaimsPaused := false }

/-! ## The limit is a time-locked parameter -/

/-- The limit as a parameter behind a time lock. -/
def ProcessClaims.timelock (c : ProcessClaims) : Timelock :=
  ⟨c.processClaimLimit, c.pendingProcessClaimLimit, c.pendingProcessClaimLimitActivation⟩

theorem effectiveProcessClaimLimit_eq (now : Nat) (c : ProcessClaims) :
    effectiveProcessClaimLimit now c = c.timelock.effective now := rfl

theorem activateProcessClaimLimitIfDue_timelock (now : Nat) (c : ProcessClaims) :
    (activateProcessClaimLimitIfDue now c).timelock = c.timelock.settle now := by
  unfold activateProcessClaimLimitIfDue Timelock.settle
  split
  · rename_i hdue
    exact (if_pos hdue).symm
  · rename_i hnot
    exact (if_neg hnot).symm

/-- Activation touches the limit and nothing else. -/
theorem activateProcessClaimLimitIfDue_eq (now : Nat) (c : ProcessClaims) :
    activateProcessClaimLimitIfDue now c = { c with
      processClaimLimit := (c.timelock.settle now).value
      pendingProcessClaimLimit := (c.timelock.settle now).pending
      pendingProcessClaimLimitActivation := (c.timelock.settle now).activation } := by
  rw [← activateProcessClaimLimitIfDue_timelock]
  unfold activateProcessClaimLimitIfDue
  split <;> rfl

/-- A new limit is a request to the time lock, and a raise stays below the
maximum. -/
theorem setProcessClaimLimit_eq_ok {now limitMax newLimit : Nat} {c c' : ProcessClaims}
    (h : setProcessClaimLimit now limitMax newLimit c = .ok c') :
    c'.timelock = c.timelock.request processClaimWindow now newLimit ∧
      (newLimit ≤ c.timelock.effective now ∨ newLimit ≤ limitMax) ∧
      c' = { c with
        processClaimLimit := c'.processClaimLimit
        pendingProcessClaimLimit := c'.pendingProcessClaimLimit
        pendingProcessClaimLimitActivation := c'.pendingProcessClaimLimitActivation } := by
  have hvalue : (activateProcessClaimLimitIfDue now c).processClaimLimit =
      c.timelock.effective now := by
    rw [← Timelock.settle_value, ← activateProcessClaimLimitIfDue_timelock]
    rfl
  unfold setProcessClaimLimit at h
  dsimp only at h
  rw [hvalue] at h
  unfold Timelock.request
  by_cases hlower : newLimit ≤ c.timelock.effective now
  · rw [if_pos hlower] at h ⊢
    cases h
    refine ⟨rfl, Or.inl hlower, ?_⟩
    rw [activateProcessClaimLimitIfDue_eq]
  · rw [if_neg hlower] at h ⊢
    simp only [bind_eq_ok, revertIf_eq_ok, checkedAdd_eq_ok, pure_eq_ok] at h
    rcases h with ⟨-, hmax, _, ⟨-, rfl⟩, rfl⟩
    refine ⟨rfl, Or.inr (Nat.le_of_not_lt hmax), ?_⟩
    rw [activateProcessClaimLimitIfDue_eq]

/-! ## The ring buffer is a rolling window -/

/-- A claim that was admitted. -/
structure AdmittedClaim where
  cycleId : Bytes32
  amountWei : Nat
  claimedAt : Nat
deriving DecidableEq, Repr

namespace AdmittedClaim

/-- The entry of the ring buffer for a claim. -/
def windowEntry (e : AdmittedClaim) : ProcessClaimWindowEntry := ⟨e.amountWei, e.claimedAt⟩

end AdmittedClaim

/-- The claims of the six hours up to `now`. -/
abbrev claimsWithin (now : Nat) (log : List AdmittedClaim) : List AdmittedClaim :=
  windowed AdmittedClaim.claimedAt processClaimWindow now log

/-- Their total. -/
abbrev claimedWithin (now : Nat) (log : List AdmittedClaim) : Nat :=
  windowSum AdmittedClaim.claimedAt AdmittedClaim.amountWei processClaimWindow now log

/-- Some claims are left of a log after expired ones were dropped. -/
abbrev LiveClaims (now : Nat) (log live : List AdmittedClaim) : Prop :=
  LiveSuffix AdmittedClaim.claimedAt processClaimWindow now log live

/-- The buffer, its count and its running total describe the claims `live`. -/
structure WindowHolds (maxCount : Nat) (c : ProcessClaims) (live : List AdmittedClaim) : Prop where
  ring : RingHolds c.windowEntries maxCount c.windowHead (live.map AdmittedClaim.windowEntry)
  count : c.windowCount = live.length
  usage : c.activeProcessClaimUsage = (live.map AdmittedClaim.amountWei).sum

/-- What pruning leaves alone. -/
structure PruneFrame (c c' : ProcessClaims) : Prop where
  timelock : c'.timelock = c.timelock
  paused : c'.processClaimsPaused = c.processClaimsPaused
  cycles : c'.cycleUsed = c.cycleUsed

/-- Pruning leaves the limit, the pause and the used cycles alone. -/
theorem pruneLoop_frame {now maxCount : Nat} {n : Nat} :
    ∀ {c c' : ProcessClaims}, pruneLoop now maxCount n c = .ok c' → PruneFrame c c' := by
  induction n with
  | zero =>
    intro c c' h
    cases h
    exact ⟨rfl, rfl, rfl⟩
  | succ n ih =>
    intro c c' h
    simp only [pruneLoop, bind_eq_ok] at h
    rcases h with ⟨age, -, h⟩
    split at h
    · cases h
      exact ⟨rfl, rfl, rfl⟩
    · simp only [bind_eq_ok] at h
      rcases h with ⟨usage, -, head, -, h⟩
      have hframe := ih h
      exact ⟨hframe.timelock, hframe.paused, hframe.cycles⟩

/-- Admitting a claim settles the limit. -/
theorem admitProcessClaim_timelock {now maxCount liability amountWei : Nat} {cycleId : Bytes32}
    {c c' : ProcessClaims}
    (h : admitProcessClaim now maxCount liability cycleId amountWei c = .ok c') :
    c'.timelock = c.timelock.settle now := by
  simp only [admitProcessClaim, pruneExpiredProcessClaimEntries, bind_eq_ok, pure_eq_ok] at h
  rcases h with ⟨-, -, -, -, -, -, c₁, hprune, -, -, -, -, -, -, _, -, _, -, rfl⟩
  rw [← activateProcessClaimLimitIfDue_timelock, ← (pruneLoop_frame hprune).timelock]
  rfl

/-- Only an unpaused contract admits a claim. -/
theorem admitProcessClaim_unpaused {now maxCount liability amountWei : Nat} {cycleId : Bytes32}
    {c c' : ProcessClaims}
    (h : admitProcessClaim now maxCount liability cycleId amountWei c = .ok c') :
    c.processClaimsPaused = false := by
  simp only [admitProcessClaim, bind_eq_ok, revertIf_eq_ok] at h
  rcases h with ⟨-, hpaused, -⟩
  simpa using hpaused

/-- Pruning drops expired claims from the front until the window is left. -/
theorem pruneLoop_eq_ok {now maxCount : Nat} {log : List AdmittedClaim} {n : Nat} :
    ∀ {c c' : ProcessClaims} {live : List AdmittedClaim}, live.length = n →
      WindowHolds maxCount c live → LiveClaims now log live →
      pruneLoop now maxCount n c = .ok c' →
        ∃ live', WindowHolds maxCount c' live' ∧ LiveClaims now log live' ∧
          claimsWithin now log = live' := by
  induction n with
  | zero =>
    intro c c' live hlength hholds hlive h
    cases h
    have hnil : live = [] := List.length_eq_zero_iff.mp hlength
    subst hnil
    exact ⟨[], hholds, hlive, hlive.windowed_eq (by simp)⟩
  | succ n ih =>
    intro c c' live hlength hholds hlive h
    cases live with
    | nil => cases hlength
    | cons e rest =>
      have hring := hholds.ring
      rw [List.map_cons] at hring
      have hentry : c.windowEntries c.windowHead = e.windowEntry := hring.first
      simp only [pruneLoop, bind_eq_ok, checkedSub_eq_ok, hentry] at h
      rcases h with ⟨age, ⟨hpast, hage⟩, h⟩
      split at h
      · -- the oldest claim is still in the window, so all are
        rename_i hfresh
        cases h
        refine ⟨e :: rest, hholds, hlive, hlive.windowed_eq (hlive.fresh ?_)⟩
        intro e' he'
        cases he'
        simp only [AdmittedClaim.windowEntry] at hage hpast
        omega
      · rename_i hexpired
        simp only [bind_eq_ok, checkedSub_eq_ok, modU256_eq_ok] at h
        rcases h with ⟨usage, ⟨-, husage⟩, head, ⟨-, hhead⟩, h⟩
        have hcount : rest.length = n := Nat.succ.inj hlength
        have hdropped : LiveClaims now log rest := by
          refine hlive.drop ?_
          simp only [AdmittedClaim.windowEntry] at hage hpast
          omega
        refine ih hcount ⟨?_, hcount.symm, ?_⟩ hdropped h
        · rw [← hhead]
          exact hring.pop _
        · have htotal := hholds.usage
          rw [List.map_cons, List.sum_cons] at htotal
          simp only [AdmittedClaim.windowEntry] at husage
          dsimp only
          omega

/-- Everything that an admitted claim says: the guards, in terms of the log, and
the window it leaves. -/
theorem admitProcessClaim_eq_ok {now maxCount liability amountWei : Nat} {cycleId : Bytes32}
    {c c' : ProcessClaims} {log live : List AdmittedClaim}
    (hholds : WindowHolds maxCount c live) (hlive : LiveClaims now log live)
    (h : admitProcessClaim now maxCount liability cycleId amountWei c = .ok c') :
    c.processClaimsPaused = false ∧ c.cycleUsed cycleId = false ∧
      claimedWithin now (log ++ [⟨cycleId, amountWei, now⟩]) ≤
        effectiveProcessClaimLimit now c ∧
      (claimsWithin now (log ++ [⟨cycleId, amountWei, now⟩])).length ≤ maxCount ∧
      c'.cycleUsed = Function.update c.cycleUsed cycleId true ∧
      c'.processClaimsPaused = c.processClaimsPaused ∧
      ∃ live', WindowHolds maxCount c' live' ∧
        LiveClaims now (log ++ [⟨cycleId, amountWei, now⟩]) live' := by
  simp only [admitProcessClaim, pruneExpiredProcessClaimEntries, bind_eq_ok, revertIf_eq_ok,
    modU256_eq_ok, checkedAdd_eq_ok, pure_eq_ok] at h
  rcases h with ⟨-, hpaused, -, -, -, hcycle, c₁, hprune, -, hamount, -, hcapacity, -, hroom, index,
    ⟨-, hindex⟩, _, ⟨-, rfl⟩, rfl⟩
  have htimelock : (activateProcessClaimLimitIfDue now c).timelock = c.timelock.settle now :=
    activateProcessClaimLimitIfDue_timelock now c
  rw [activateProcessClaimLimitIfDue_eq] at hprune htimelock
  have hactive : WindowHolds maxCount { c with
      processClaimLimit := (c.timelock.settle now).value
      pendingProcessClaimLimit := (c.timelock.settle now).pending
      pendingProcessClaimLimitActivation := (c.timelock.settle now).activation } live :=
    ⟨hholds.ring, hholds.count, hholds.usage⟩
  rcases pruneLoop_eq_ok hholds.count.symm hactive hlive hprune with
    ⟨live₁, hholds₁, hlive₁, hwithin⟩
  have hframe := pruneLoop_frame hprune
  have hlimit : c₁.processClaimLimit = effectiveProcessClaimLimit now c := by
    rw [effectiveProcessClaimLimit_eq, ← Timelock.settle_value, ← htimelock, ← hframe.timelock]
    rfl
  have hlength : live₁.length < maxCount := by
    have hle := hholds₁.ring.length_le
    rw [List.length_map] at hle
    have hne : live₁.length ≠ maxCount := by
      rw [← hholds₁.count]
      exact hroom
    omega
  have hnew : claimsWithin now [⟨cycleId, amountWei, now⟩] = [⟨cycleId, amountWei, now⟩] := by
    simp [claimsWithin, windowed, processClaimWindow]
  have hwithin' : claimsWithin now (log ++ [⟨cycleId, amountWei, now⟩]) =
      live₁ ++ [⟨cycleId, amountWei, now⟩] := by
    have happend : claimsWithin now (log ++ [⟨cycleId, amountWei, now⟩]) =
        claimsWithin now log ++ claimsWithin now [⟨cycleId, amountWei, now⟩] :=
      windowed_append _ _
    rw [happend, hwithin, hnew]
  push Not at hcapacity
  refine ⟨by simpa using hpaused, by simpa using hcycle, ?_, ?_, ?_,
    hframe.paused, live₁ ++ [⟨cycleId, amountWei, now⟩], ⟨?_, ?_, ?_⟩, hlive₁.snoc rfl⟩
  · -- what was used before, plus the new amount, stays below the limit
    have hsum : claimedWithin now (log ++ [⟨cycleId, amountWei, now⟩]) =
        c₁.activeProcessClaimUsage + amountWei := by
      change ((claimsWithin now (log ++ [⟨cycleId, amountWei, now⟩])).map _).sum = _
      rw [hwithin', List.map_append, List.sum_append, ← hholds₁.usage]
      rfl
    omega
  · rw [hwithin', List.length_append, List.length_singleton]
    exact hlength
  · rw [hframe.cycles]
  · rw [← hindex, hholds₁.count, ← List.length_map AdmittedClaim.windowEntry, List.map_append]
    refine hholds₁.ring.push ?_ _
    rw [List.length_map]
    exact hlength
  · rw [List.length_append, List.length_singleton]
    exact congrArg (· + 1) hholds₁.count
  · rw [List.map_append, List.sum_append, ← hholds₁.usage]
    simp

end Hookemon.Contracts
