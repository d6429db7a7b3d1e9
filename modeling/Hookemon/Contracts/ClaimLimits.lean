import Hookemon.Contracts.HookemonHook

/-! # Process claims stay within their limits

Over every history of the hook, at every admitted claim: the claims of the last
six hours add up to at most the limit in force, and there are at most as many as
the buffer has slots; no cycle is claimed twice; and the limit in force grows
only by a raise that waited its full delay.

The window is taken over the whole history, including what happens later at the
same time: within one timestamp the limit in force can only sink, so the last
claim of a timestamp speaks for all of them.
-/

namespace Hookemon.Contracts

open Hookemon.Core

/-! ## What a history says about claims -/

/-- The claim that a piece of hook code enters into the window. It is entered
before it is paid; a claim whose payment fails takes its entry with it. -/
def admittedClaim? (seg : HookSegment) : Option AdmittedClaim :=
  match seg.call.op, seg.progress with
  | .claimProcess cycleId amountWei _, .sent _ => some ⟨cycleId, amountWei, seg.time⟩
  | _, _ => none

/-- The admitted claims of a history. -/
def claimLog (trace : List HookSegment) : List AdmittedClaim :=
  trace.filterMap admittedClaim?

/-- The new limit that a piece of hook code requests. -/
def limitRequest? (seg : HookSegment) : Option TimelockRequest :=
  match seg.call.op, seg.progress with
  | .setProcessClaimLimit newLimit, .finished _ => some ⟨seg.time, newLimit⟩
  | _, _ => none

/-- The requested limits of a history. -/
def limitRequests (trace : List HookSegment) : List TimelockRequest :=
  trace.filterMap limitRequest?

/-- What a piece of hook code can do to the claims: nothing but pausing, request
a limit for the treasury, or admit a claim. -/
inductive ClaimsPiece (c : ConstructorConfig) (seg : HookSegment) : Prop where
  | quiet (paused : Bool) (hlog : admittedClaim? seg = none) (hrequest : limitRequest? seg = none)
      (hclaims : seg.post.claims = { seg.pre.claims with processClaimsPaused := paused })
  | request (newLimit : Nat) (hlog : admittedClaim? seg = none)
      (hrequest : limitRequest? seg = some ⟨seg.time, newLimit⟩)
      (htreasury : seg.call.sender = seg.pre.roles.treasury)
      (hset : setProcessClaimLimit seg.time c.processClaimLimitMaxWei newLimit seg.pre.claims =
        .ok seg.post.claims)
  | admission (cycleId : Bytes32) (amountWei : Nat)
      (hlog : admittedClaim? seg = some ⟨cycleId, amountWei, seg.time⟩)
      (hrequest : limitRequest? seg = none)
      (hadmitted : admitProcessClaim seg.time c.processClaimMaxCount
        seg.pre.fees.processLiabilityAmount cycleId amountWei seg.pre.claims = .ok seg.post.claims)

theorem Piece.claims {env : Externals} {c : ConstructorConfig} {seg : HookSegment}
    (h : Piece env c seg) : ClaimsPiece c seg := by
  cases h with
  | finished h =>
    cases h with
    | afterSwap _ _ _ hfinish =>
      rcases finishAfterSwap_eq_ok hfinish with ⟨_, -, -, -, -, rfl⟩
      exact .quiet _ rfl rfl rfl
    | setProcessClaimLimit hset => exact .request _ rfl rfl rfl hset
    | _ => exact .quiet _ rfl rfl rfl
  | @sent t m r s sent onReturn h =>
    cases h with
    | claim hbook _ _ _ =>
      -- one of the four beneficiary claims
      rcases m with ⟨sender, op⟩
      cases op <;> first | exact .quiet _ rfl rfl rfl | cases hbook
    | claimProcess hadmitted _ _ => exact .admission _ _ rfl rfl hadmitted
    | afterSwap => exact .quiet _ rfl rfl rfl
  | @resumed t m r v s₀ sent s s' onReturn h hret =>
    have hsilent : admittedClaim? ⟨t, m, .resumed r v, s, s'⟩ = none := by
      rcases m with ⟨sender, op⟩
      cases op <;> rfl
    have hsilent' : limitRequest? ⟨t, m, .resumed r v, s, s'⟩ = none := by
      rcases m with ⟨sender, op⟩
      cases op <;> rfl
    cases h with
    | claim =>
      rcases finishClaim_eq_ok hret with ⟨-, -, rfl⟩
      exact .quiet _ hsilent hsilent' rfl
    | claimProcess =>
      rcases finishClaim_eq_ok hret with ⟨-, -, rfl⟩
      exact .quiet _ hsilent hsilent' rfl
    | afterSwap =>
      rcases finishAfterSwap_eq_ok hret with ⟨_, -, -, -, -, rfl⟩
      exact .quiet _ hsilent hsilent' rfl

theorem filterMap_push {α : Type} (f : HookSegment → Option α) (w : HookHistory)
    (seg : HookSegment) :
    (w.push seg).trace.filterMap f = w.trace.filterMap f ++ (f seg).toList := by
  rw [Traced.push_trace, List.filterMap_append]
  cases h : f seg <;> simp [h]

/-! ## The limit over a history -/

/-- A stretch of a history is a history of the time lock. -/
theorem path_timelock {env : Externals} {c : ConstructorConfig} {t₁ t : Nat} {w₁ w : HookHistory}
    (h : Path (enter env c) t₁ w₁ t w) :
    Timelock.Evolves processClaimWindow t₁ w₁.state.claims.timelock (limitRequests w₁.trace) t
      w.state.claims.timelock (limitRequests w.trace) := by
  induction h with
  | refl => exact .refl
  | wait _ hle ih => exact .wait ih hle
  | @push t w seg _ htime hvalid hpre ih =>
    have hpush := filterMap_push limitRequest? w seg
    change limitRequests (w.push seg).trace = limitRequests w.trace ++ _ at hpush
    rw [hpush]
    subst htime
    cases (piece_of_valid hvalid).claims with
    | quiet paused _ hrequest hclaims =>
      rw [hrequest, Option.toList_none, List.append_nil, Traced.push_state, hclaims, hpre]
      exact ih
    | request newLimit _ hrequest _ hset =>
      rw [hrequest, Option.toList_some, Traced.push_state, (setProcessClaimLimit_eq_ok hset).1, hpre]
      exact .request newLimit ih
    | admission cycleId amountWei _ hrequest hadmitted =>
      rw [hrequest, Option.toList_none, List.append_nil, Traced.push_state,
        admitProcessClaim_timelock hadmitted, hpre]
      exact .settle ih

/-- No limit exceeds the maximum. -/
theorem path_limit_below {env : Externals} {c : ConstructorConfig} {t₁ t : Nat}
    {w₁ w : HookHistory} (h : Path (enter env c) t₁ w₁ t w)
    (h₁ : w₁.state.claims.timelock.Below c.processClaimLimitMaxWei) :
    w.state.claims.timelock.Below c.processClaimLimitMaxWei := by
  refine h.invariant
    (I := fun _ w => w.state.claims.timelock.Below c.processClaimLimitMaxWei) h₁
    (fun _ hw => hw) ?_
  intro now w seg htime hvalid hpre hbelow
  rw [← hpre] at hbelow
  rw [Traced.push_state]
  cases (piece_of_valid hvalid).claims with
  | quiet paused _ _ hclaims =>
    rw [hclaims]
    exact hbelow
  | request newLimit _ _ _ hset =>
    rcases setProcessClaimLimit_eq_ok hset with ⟨hrequest, hmax, -⟩
    rw [hrequest]
    exact hbelow.request hmax
  | admission cycleId amountWei _ _ hadmitted =>
    rw [admitProcessClaim_timelock hadmitted]
    exact hbelow.settle _

/-- Within a timestamp the limit in force does not grow. -/
theorem ClaimsPiece.sinks {c : ConstructorConfig} {seg : HookSegment} (h : ClaimsPiece c seg) :
    effectiveProcessClaimLimit seg.time seg.post.claims ≤
      effectiveProcessClaimLimit seg.time seg.pre.claims := by
  rw [effectiveProcessClaimLimit_eq, effectiveProcessClaimLimit_eq]
  cases h with
  | quiet paused _ _ hclaims =>
    rw [hclaims]
    exact le_rfl
  | request newLimit _ _ _ hset =>
    rw [(setProcessClaimLimit_eq_ok hset).1]
    exact Timelock.effective_request_le (by decide) _ _
  | admission cycleId amountWei _ _ hadmitted =>
    rw [admitProcessClaim_timelock hadmitted, Timelock.effective_settle le_rfl]

/-! ## The window over a history -/

/-- The claims of a history against the limits that were in force. -/
structure ClaimsInv (c : ConstructorConfig) (now : Nat) (w : HookHistory) : Prop where
  window : ∃ live, WindowHolds c.processClaimMaxCount w.state.claims live ∧
    LiveClaims now (claimLog w.trace) live
  cycles : ((claimLog w.trace).map AdmittedClaim.cycleId).Nodup
  used : ∀ e ∈ claimLog w.trace, w.state.claims.cycleUsed e.cycleId = true
  past : ∀ seg ∈ w.trace, seg.time ≤ now
  sinks : ∀ seg ∈ w.trace, seg.time = now →
    effectiveProcessClaimLimit now w.state.claims ≤ effectiveProcessClaimLimit now seg.pre.claims
  limited : ∀ seg ∈ w.trace, admittedClaim? seg ≠ none →
    claimedWithin seg.time (claimLog w.trace) ≤
        effectiveProcessClaimLimit seg.time seg.pre.claims ∧
      (claimsWithin seg.time (claimLog w.trace)).length ≤ c.processClaimMaxCount

theorem ClaimsInv.start {c : ConstructorConfig} (hcount : 0 < c.processClaimMaxCount)
    (balance now : Nat) : ClaimsInv c now (.start (Hook.deployed c balance)) where
  window := ⟨[], ⟨.nil hcount, rfl, rfl⟩, .nil⟩
  cycles := List.nodup_nil
  used := by simp [claimLog]
  past := by simp
  sinks := by simp
  limited := by simp

/-- Time passes: no piece of code is of the new time yet. -/
theorem ClaimsInv.wait {c : ConstructorConfig} {t now : Nat} {w : HookHistory} (hle : t ≤ now)
    (h : ClaimsInv c t w) : ClaimsInv c now w where
  window := by
    rcases h.window with ⟨live, hholds, hlive⟩
    exact ⟨live, hholds, hlive.mono hle⟩
  cycles := h.cycles
  used := h.used
  past seg hmem := (h.past seg hmem).trans hle
  sinks := by
    intro seg hmem htime
    have hpast := h.past seg hmem
    have hsame : t = now := by omega
    subst hsame
    exact h.sinks seg hmem htime
  limited := h.limited

section

variable {c : ConstructorConfig} {now : Nat} {w : HookHistory} {seg : HookSegment}

theorem ClaimsInv.past_push (h : ClaimsInv c now w) (htime : seg.time = now) :
    ∀ seg' ∈ (w.push seg).trace, seg'.time ≤ now := by
  intro seg' hmem
  rcases List.mem_append.mp hmem with hold | hnew
  · exact h.past seg' hold
  · rw [List.mem_singleton.mp hnew]
    exact htime.le

theorem ClaimsInv.sinks_push (h : ClaimsInv c now w) (hpiece : ClaimsPiece c seg)
    (htime : seg.time = now) (hpre : seg.pre = w.state) :
    ∀ seg' ∈ (w.push seg).trace, seg'.time = now →
      effectiveProcessClaimLimit now (w.push seg).state.claims ≤
        effectiveProcessClaimLimit now seg'.pre.claims := by
  intro seg' hmem htime'
  have hstep := hpiece.sinks
  rw [htime] at hstep
  rcases List.mem_append.mp hmem with hold | hnew
  · have hbefore := h.sinks seg' hold htime'
    rw [← hpre] at hbefore
    exact hstep.trans hbefore
  · rw [List.mem_singleton.mp hnew]
    exact hstep

/-- A piece that admits no claim changes nothing that the invariant speaks of. -/
theorem ClaimsInv.push_silent (h : ClaimsInv c now w) (hpiece : ClaimsPiece c seg)
    (htime : seg.time = now) (hpre : seg.pre = w.state) (hlog : admittedClaim? seg = none)
    (hwindow : ∀ live, WindowHolds c.processClaimMaxCount seg.pre.claims live →
      WindowHolds c.processClaimMaxCount seg.post.claims live)
    (hused : seg.post.claims.cycleUsed = seg.pre.claims.cycleUsed) :
    ClaimsInv c now (w.push seg) := by
  have hsame : claimLog (w.push seg).trace = claimLog w.trace := by
    have hpush := filterMap_push admittedClaim? w seg
    rw [hlog, Option.toList_none, List.append_nil] at hpush
    exact hpush
  rw [hpre] at hwindow hused
  refine ⟨?_, ?_, ?_, h.past_push htime, h.sinks_push hpiece htime hpre, ?_⟩
  · rcases h.window with ⟨live, hholds, hlive⟩
    rw [hsame]
    exact ⟨live, hwindow live hholds, hlive⟩
  · rw [hsame]
    exact h.cycles
  · rw [hsame, Traced.push_state, hused]
    exact h.used
  · rw [hsame]
    intro seg' hmem hclaim
    rcases List.mem_append.mp hmem with hold | hnew
    · exact h.limited seg' hold hclaim
    · rw [List.mem_singleton.mp hnew] at hclaim
      exact absurd hlog hclaim

/-- Admitting a claim: the new window is within the limit, and the windows of the
earlier claims either do not reach the new one or end at its very time. -/
theorem ClaimsInv.push_admission (h : ClaimsInv c now w) (hpiece : ClaimsPiece c seg)
    (htime : seg.time = now) (hpre : seg.pre = w.state) {cycleId : Bytes32} {amountWei : Nat}
    (hlog : admittedClaim? seg = some ⟨cycleId, amountWei, seg.time⟩)
    (hadmitted : admitProcessClaim seg.time c.processClaimMaxCount
      seg.pre.fees.processLiabilityAmount cycleId amountWei seg.pre.claims = .ok seg.post.claims) :
    ClaimsInv c now (w.push seg) := by
  subst htime
  have hgrown : claimLog (w.push seg).trace =
      claimLog w.trace ++ [⟨cycleId, amountWei, seg.time⟩] := by
    have hpush := filterMap_push admittedClaim? w seg
    rw [hlog, Option.toList_some] at hpush
    exact hpush
  rcases h.window with ⟨live, hholds, hlive⟩
  rw [← hpre] at hholds
  rcases admitProcessClaim_eq_ok hholds hlive hadmitted with
    ⟨-, hfresh, hsum, hcount, hused, -, live', hholds', hlive'⟩
  refine ⟨?_, ?_, ?_, h.past_push rfl, h.sinks_push hpiece rfl hpre, ?_⟩
  · rw [hgrown]
    exact ⟨live', hholds', hlive'⟩
  · rw [hgrown, List.map_append, List.nodup_append]
    refine ⟨h.cycles, List.nodup_singleton _, ?_⟩
    intro id hid id' hid' heq
    rcases List.mem_map.mp hid with ⟨e, he, rfl⟩
    rw [List.map_singleton, List.mem_singleton] at hid'
    have htwice := h.used e he
    rw [heq, hid', ← hpre, hfresh] at htwice
    cases htwice
  · rw [hgrown, Traced.push_state, hused]
    intro e he
    by_cases hsame : e.cycleId = cycleId
    · rw [hsame, Function.update_self]
    · rw [Function.update_of_ne hsame, hpre]
      rcases List.mem_append.mp he with hold | hnew
      · exact h.used e hold
      · rw [List.mem_singleton.mp hnew] at hsame
        exact absurd rfl hsame
  · rw [hgrown]
    intro seg' hmem hclaim
    rcases List.mem_append.mp hmem with hold | hnew
    · by_cases hnow : seg'.time = seg.time
      · -- the window of an earlier claim of this timestamp
        have hsink := h.sinks seg' hold hnow
        rw [← hpre] at hsink
        rw [hnow]
        exact ⟨hsum.trans hsink, hcount⟩
      · -- the window of a claim of an earlier timestamp
        have hpast := h.past seg' hold
        have hearlier : seg'.time < seg.time := by omega
        have hsame : claimsWithin seg'.time
            (claimLog w.trace ++ [⟨cycleId, amountWei, seg.time⟩]) =
              claimsWithin seg'.time (claimLog w.trace) := windowed_snoc_of_lt hearlier
        rw [claimedWithin, windowSum]
        rw [claimsWithin] at hsame ⊢
        rw [hsame]
        exact h.limited seg' hold hclaim
    · rw [List.mem_singleton.mp hnew]
      exact ⟨hsum, hcount⟩

end

theorem claimsInv_rule (env : Externals) (c : ConstructorConfig) (now : Nat) :
    TraceRule (enter env c) now (ClaimsInv c now) := by
  intro w seg htime hvalid hpre h
  have hpiece := (piece_of_valid hvalid).claims
  have hkind := hpiece
  cases hkind with
  | quiet paused hlog _ hclaims =>
    refine h.push_silent hpiece htime hpre hlog ?_ ?_
    · intro live hholds
      rw [hclaims]
      exact ⟨hholds.ring, hholds.count, hholds.usage⟩
    · rw [hclaims]
  | request newLimit hlog _ _ hset =>
    have hkept := (setProcessClaimLimit_eq_ok hset).2.2
    refine h.push_silent hpiece htime hpre hlog ?_ ?_
    · intro live hholds
      rw [hkept]
      exact ⟨hholds.ring, hholds.count, hholds.usage⟩
    · rw [hkept]
  | admission cycleId amountWei hlog _ hadmitted => exact h.push_admission hpiece htime hpre hlog hadmitted

/-! ## The limits hold -/

/-- **Process claims stay within their limits.** In every history of the hook:
at every admitted claim the claims of the six hours up to its time, over the
whole history, add up to at most the limit in force and are at most
`processClaimMaxCount` many; no cycle is claimed twice; the limit in force never
exceeds its maximum; when it has grown over a stretch of the history, it goes
back to a request at least as high, made six hours before or more and not
replaced before it took effect, and is that request or a lower one requested
since; and all requests come from the treasury of their time. -/
theorem process_claims_limited (env : Externals) (d : Deployment) (balance t : Nat)
    (w : HookHistory) (h : HookReachable env d.toConstructorConfig balance t w) :
    (∀ seg ∈ w.trace, admittedClaim? seg ≠ none →
      claimedWithin seg.time (claimLog w.trace) ≤
          effectiveProcessClaimLimit seg.time seg.pre.claims ∧
        (claimsWithin seg.time (claimLog w.trace)).length ≤ d.processClaimMaxCount) ∧
    ((claimLog w.trace).map AdmittedClaim.cycleId).Nodup ∧
    (∀ t₁ t₂ before middle, Stretch w t t₁ t₂ before middle →
      let limit₁ := effectiveProcessClaimLimit t₁
        (stateAfter (Hook.deployed d.toConstructorConfig balance) before).claims
      let limit₂ := effectiveProcessClaimLimit t₂
        (stateAfter (Hook.deployed d.toConstructorConfig balance) (before ++ middle)).claims
      limit₂ ≤ d.processClaimLimitMaxWei ∧
        (limit₁ < limit₂ → Timelock.RaisedTo processClaimWindow t₁ t₂ limit₂
          (limitRequests (before ++ middle)))) ∧
    (∀ seg ∈ w.trace, limitRequest? seg ≠ none → seg.call.sender = seg.pre.roles.treasury) := by
  have hinv : ClaimsInv d.toConstructorConfig t w :=
    h.traced_invariant (I := ClaimsInv d.toConstructorConfig)
      (fun now => .start d.claimBounds.1 balance now) (fun hle hw => hw.wait hle)
      (claimsInv_rule env d.toConstructorConfig)
  refine ⟨hinv.limited, hinv.cycles, ?_, ?_⟩
  · intro t₁ t₂ before middle hstretch limit₁ limit₂
    rcases h.path.stretch hstretch with
      ⟨w₁, w₂, htrace₁, hstate₁, htrace₂, hstate₂, hpath₁, hpath₂⟩
    have hlimit₁ : limit₁ = w₁.state.claims.timelock.effective t₁ := by rw [hstate₁]; rfl
    have hlimit₂ : limit₂ = w₂.state.claims.timelock.effective t₂ := by rw [hstate₂]; rfl
    have hbelow₁ := path_limit_below hpath₁ ⟨d.claimBounds.2, Nat.zero_le _⟩
    refine ⟨?_, ?_⟩
    · rw [hlimit₂]
      exact (path_limit_below hpath₂ hbelow₁).effective t₂
    · intro hgrown
      rw [hlimit₁, hlimit₂] at hgrown
      rw [hlimit₂, ← htrace₂]
      exact Timelock.raise_requested (by decide) (Timelock.Pending.evolves (path_timelock hpath₁) .idle)
        (path_timelock hpath₂) hgrown
  · intro seg hmem hrequest
    cases (piece_of_valid (h.wellTraced.valid seg hmem)).claims with
    | quiet _ _ hnone _ => exact absurd hnone hrequest
    | request _ _ _ htreasury _ => exact htreasury
    | admission _ _ _ hnone _ => exact absurd hnone hrequest

/-! ## A history with a raise that is lowered as it takes effect -/

/-- A swap fills the process stream, the treasury asks for 10000, and operations
claim 2000. Six hours later the treasury lowers the new limit to 8000 at once,
and operations claim the rest. -/
def sampleLimitsHistory : HookHistory :=
  execAll (traced (enter sampleExternals sampleConfig) 22600)
    [.node ⟨0x2001, .setProcessClaimLimit 8000⟩ true [],
      .node ⟨0x2002, .claimProcess 2 500 0x2002⟩ true []]
    (execAll (traced (enter sampleExternals sampleConfig) 1000)
      (sampleCalls ++ [.node ⟨0x2001, .setProcessClaimLimit 10000⟩ true [],
        .node ⟨0x2002, .claimProcess 1 2000 0x2002⟩ true []])
      (.start (Hook.deployed sampleConfig 0)))

theorem sampleLimitsHistory_reachable :
    HookReachable sampleExternals sampleConfig 0 22600 sampleLimitsHistory :=
  .transact _ (.transact _ (.start 0) (by decide)) (by decide)

theorem sampleLimitsHistory_stretch :
    Stretch sampleLimitsHistory 22600 1000 22600 [] sampleLimitsHistory.trace where
  split := ⟨[], (List.append_nil _).symm, by simp⟩
  before_le := by simp
  middle_between := by decide +kernel
  ordered := by decide
  past := le_rfl

theorem process_claims_limited_sample :
    (claimLog sampleLimitsHistory.trace).map AdmittedClaim.cycleId = [1, 2] ∧
      ((claimLog sampleLimitsHistory.trace).map AdmittedClaim.cycleId).Nodup ∧
      Timelock.RaisedTo processClaimWindow 1000 22600 8000
        (limitRequests sampleLimitsHistory.trace) := by
  have hlimits := process_claims_limited sampleExternals sampleDeployment 0 22600
    sampleLimitsHistory sampleLimitsHistory_reachable
  have hraised := (hlimits.2.2.1 1000 22600 [] sampleLimitsHistory.trace
    sampleLimitsHistory_stretch).2
  have hafter : effectiveProcessClaimLimit 22600 (stateAfter (Hook.deployed sampleConfig 0)
      ([] ++ sampleLimitsHistory.trace)).claims = 8000 := by
    decide +kernel
  have hbefore : effectiveProcessClaimLimit 1000 (stateAfter (Hook.deployed sampleConfig 0)
      ([] : List HookSegment)).claims = 5000 := by
    decide +kernel
  change effectiveProcessClaimLimit 1000 (stateAfter (Hook.deployed sampleConfig 0) []).claims <
    effectiveProcessClaimLimit 22600 (stateAfter (Hook.deployed sampleConfig 0)
      ([] ++ sampleLimitsHistory.trace)).claims → Timelock.RaisedTo processClaimWindow 1000 22600
        (effectiveProcessClaimLimit 22600 (stateAfter (Hook.deployed sampleConfig 0)
          ([] ++ sampleLimitsHistory.trace)).claims) _ at hraised
  rw [hbefore, hafter] at hraised
  exact ⟨by decide +kernel, hlimits.2.1, hraised (by decide)⟩

/-- A grown limit need not be a value that was requested six hours before: here
it was requested at the very time it came into force. -/
theorem raised_limit_not_requested_before :
    ¬ ∀ (env : Externals) (d : Deployment) (balance t : Nat) (w : HookHistory),
      HookReachable env d.toConstructorConfig balance t w →
        ∀ t₁ t₂ before middle, Stretch w t t₁ t₂ before middle →
          effectiveProcessClaimLimit t₁
              (stateAfter (Hook.deployed d.toConstructorConfig balance) before).claims <
            effectiveProcessClaimLimit t₂
              (stateAfter (Hook.deployed d.toConstructorConfig balance)
                (before ++ middle)).claims →
          ∃ r ∈ limitRequests (before ++ middle), r.time + processClaimWindow ≤ t₂ ∧
            r.value = effectiveProcessClaimLimit t₂
              (stateAfter (Hook.deployed d.toConstructorConfig balance)
                (before ++ middle)).claims := by
  intro hliteral
  rcases hliteral sampleExternals sampleDeployment 0 22600 sampleLimitsHistory
    sampleLimitsHistory_reachable 1000 22600 [] sampleLimitsHistory.trace
    sampleLimitsHistory_stretch (by decide +kernel) with ⟨r, hmem, htime, hvalue⟩
  have hnone : ∀ r ∈ limitRequests ([] ++ sampleLimitsHistory.trace),
      ¬ (r.time + processClaimWindow ≤ 22600 ∧ r.value = effectiveProcessClaimLimit 22600
        (stateAfter (Hook.deployed sampleConfig 0) ([] ++ sampleLimitsHistory.trace)).claims) := by
    decide +kernel
  exact hnone r hmem ⟨htime, hvalue⟩

end Hookemon.Contracts
