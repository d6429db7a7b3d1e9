import Hookemon.Contracts.HookemonHook

/-! # Who may become the operations account

Two hand-overs share the operations account: the two-step proposal between the
old and the new account, and the rotation that the treasury schedules against a
compromised one. While a rotation is pending the first is shut and process claims
are paused; the joint invariant `RotationSafe` says so, and it is kept by every
piece of hook code. Beside it the histories remember where a live proposal and a
pending rotation come from, so that every change of the account can be traced
back to the call that authorized it.
-/

namespace Hookemon.Contracts

open Hookemon.Core

/-! ## What one piece can do to the roles -/

/-- A piece of hook code, as far as the operations account, its proposal, the
rotation and the pause are concerned. -/
inductive RolesPiece (c : ConstructorConfig) (seg : HookSegment) : Prop where
  | quiet
      (hop : seg.call.op ≠ .acceptOperations ∧ seg.call.op ≠ .executeOperationsRotation ∧
        ∀ next, seg.call.op ≠ .scheduleOperationsRotation next)
      (hoperations : seg.post.roles.operations = seg.pre.roles.operations)
      (hproposed : seg.post.roles.proposedOperations = seg.pre.roles.proposedOperations)
      (hrotation : seg.post.rotation = seg.pre.rotation)
      (hpaused : seg.pre.rotation.nextOperations ≠ 0 →
        seg.pre.claims.processClaimsPaused = true → seg.post.claims.processClaimsPaused = true)
  | propose (successor : Address)
      (hcall : seg.call = ⟨seg.pre.roles.operations, .proposeOperations successor⟩)
      (hnone : seg.pre.rotation.nextOperations = 0)
      (hpost : seg.post = { seg.pre with
        roles := { seg.pre.roles with proposedOperations := successor } })
  | accept
      (hcall : seg.call = ⟨seg.pre.roles.proposedOperations, .acceptOperations⟩)
      (hnone : seg.pre.rotation.nextOperations = 0)
      (hlive : seg.pre.roles.proposedOperations ≠ 0)
      (hpost : seg.post = { seg.pre with roles := { seg.pre.roles with
        operations := seg.pre.roles.proposedOperations, proposedOperations := 0 } })
  | schedule (next : Address)
      (hcall : seg.call = ⟨seg.pre.roles.treasury, .scheduleOperationsRotation next⟩)
      (hnext : next ≠ 0 ∧ next ≠ seg.pre.roles.operations)
      (hpost : seg.post = { seg.pre with
        roles := clearProposedOperations seg.pre.roles
        rotation := ⟨seg.pre.roles.operations, next, seg.time + c.operationsRotationDelay⟩
        claims := Contracts.pauseProcessClaims seg.pre.claims })
  | execute
      (hcall : seg.call = ⟨seg.pre.roles.treasury, .executeOperationsRotation⟩)
      (hpending : seg.pre.rotation.nextOperations ≠ 0)
      (hready : seg.pre.rotation.executableAt ≤ seg.time)
      (hnext : seg.pre.rotation.nextOperations ≠ seg.pre.roles.operations)
      (hpost : seg.post = { seg.pre with
        roles := { seg.pre.roles with
          operations := seg.pre.rotation.nextOperations, proposedOperations := 0 }
        rotation := .none
        claims := Contracts.pauseProcessClaims seg.pre.claims })

/-- The operations whose control leaves the contract are none of the four. -/
theorem HandsOver.quiet_op {env : Externals} {c : ConstructorConfig} {now : Nat} {s sent : Hook}
    {m : Msg} {r : HookRequest} {onReturn : Hook → Run (HookReturn × Hook)}
    (h : HandsOver env c now s m r sent onReturn) :
    m.op ≠ .acceptOperations ∧ m.op ≠ .executeOperationsRotation ∧
      ∀ next, m.op ≠ .scheduleOperationsRotation next := by
  cases h with
  | claim hbook _ _ _ =>
    refine ⟨?_, ?_, ?_⟩
    · intro hop
      rw [hop] at hbook
      cases hbook
    · intro hop
      rw [hop] at hbook
      cases hbook
    · intro next hop
      rw [hop] at hbook
      cases hbook
  | claimProcess => simp
  | afterSwap => simp

theorem Piece.roles {env : Externals} {c : ConstructorConfig} {seg : HookSegment}
    (h : Piece env c seg) : RolesPiece c seg := by
  cases h with
  | finished h =>
    cases h with
    | afterSwap _ _ _ hfinish =>
      rcases finishAfterSwap_eq_ok hfinish with ⟨_, -, -, -, -, rfl⟩
      exact .quiet (by simp) rfl rfl rfl (fun _ => id)
    | setProcessClaimLimit hset =>
      refine .quiet (by simp) rfl rfl rfl ?_
      intro _ hpaused
      dsimp only at hpaused ⊢
      rw [(setProcessClaimLimit_eq_ok hset).2.2]
      exact hpaused
    | unpauseProcessClaims hnone => exact .quiet (by simp) rfl rfl rfl (fun hnext => absurd hnone hnext)
    | scheduleOperationsRotation hnext htime =>
      exact .schedule _ rfl ⟨hnext.1, hnext.2.1⟩ rfl
    | executeOperationsRotation hpending hready hfresh hnext =>
      exact .execute rfl hpending hready hnext rfl
    | proposeOperations hnone hsuccessor => exact .propose _ rfl hnone rfl
    | acceptOperations hnone hlive => exact .accept rfl hnone hlive rfl
    | pauseProcessClaims => exact .quiet (by simp) rfl rfl rfl (fun _ _ => rfl)
    | _ => exact .quiet (by simp) rfl rfl rfl (fun _ => id)
  | sent h =>
    have hop := h.quiet_op
    cases h with
    | claim => exact .quiet hop rfl rfl rfl (fun _ => id)
    | claimProcess hadmitted _ _ =>
      refine .quiet hop rfl rfl rfl ?_
      intro _ hpaused
      rw [admitProcessClaim_unpaused hadmitted] at hpaused
      cases hpaused
    | afterSwap => exact .quiet hop rfl rfl rfl (fun _ => id)
  | resumed h hret =>
    have hop := h.quiet_op
    cases h with
    | claim =>
      rcases finishClaim_eq_ok hret with ⟨-, -, rfl⟩
      exact .quiet hop rfl rfl rfl (fun _ => id)
    | claimProcess =>
      rcases finishClaim_eq_ok hret with ⟨-, -, rfl⟩
      exact .quiet hop rfl rfl rfl (fun _ => id)
    | afterSwap =>
      rcases finishAfterSwap_eq_ok hret with ⟨_, -, -, -, -, rfl⟩
      exact .quiet hop rfl rfl rfl (fun _ => id)

/-! ## The joint invariant -/

/-- While a rotation is pending: claims are paused, nothing is proposed, the
account is the one the rotation was scheduled against, and the successor is
another one. -/
def RotationSafe (s : Hook) : Prop :=
  s.rotation.nextOperations ≠ 0 →
    s.claims.processClaimsPaused = true ∧ s.roles.proposedOperations = 0 ∧
      s.roles.operations = s.rotation.expectedOperations ∧
        s.rotation.nextOperations ≠ s.roles.operations

theorem RolesPiece.safe {c : ConstructorConfig} {seg : HookSegment} (h : RolesPiece c seg)
    (hsafe : RotationSafe seg.pre) : RotationSafe seg.post := by
  intro hpending
  cases h with
  | quiet _ hoperations hproposed hrotation hpaused =>
    rw [hrotation] at hpending ⊢
    rcases hsafe hpending with ⟨hp, hnone, hfresh, hnext⟩
    rw [hoperations, hproposed]
    exact ⟨hpaused hpending hp, hnone, hfresh, hnext⟩
  | propose successor _ hnone hpost =>
    rw [hpost] at hpending
    exact absurd hnone hpending
  | accept _ hnone _ hpost =>
    rw [hpost] at hpending
    exact absurd hnone hpending
  | schedule next _ hnext hpost =>
    rw [hpost]
    exact ⟨rfl, rfl, rfl, hnext.2⟩
  | execute _ _ _ _ hpost =>
    rw [hpost] at hpending
    exact absurd rfl hpending

/-! ## Where a change comes from -/

/-- The operations account proposes `successor`. -/
def ProposedBy (operations successor : Address) (p : HookSegment) : Prop :=
  p.call = ⟨operations, .proposeOperations successor⟩ ∧ p.pre.roles.operations = operations ∧
    p.post.roles.operations = operations ∧ p.post.roles.proposedOperations = successor

/-- The account and its proposal stay. -/
def KeepsProposal (operations successor : Address) (q : HookSegment) : Prop :=
  q.post.roles.operations = operations ∧ q.post.roles.proposedOperations = successor

/-- The treasury schedules `next`, to be executable at `executableAt`. -/
def ScheduledFor (c : ConstructorConfig) (next : Address) (executableAt : Nat)
    (p : HookSegment) : Prop :=
  p.call = ⟨p.pre.roles.treasury, .scheduleOperationsRotation next⟩ ∧
    p.time + c.operationsRotationDelay = executableAt

/-- Nothing is scheduled. -/
def SchedulesNothing (q : HookSegment) : Prop :=
  ∀ next, q.call.op ≠ .scheduleOperationsRotation next

/-- What authorizes a piece of hook code to change the operations account, given
the pieces before it: a live proposal of the account it replaces, accepted by the
successor; or a rotation that the treasury executes one delay or more after the
last time it was scheduled. -/
inductive OperationsChange (c : ConstructorConfig) (earlier : List HookSegment)
    (seg : HookSegment) : Prop where
  | accepted
      (hcall : seg.call = ⟨seg.post.roles.operations, .acceptOperations⟩)
      (hlive : Since (ProposedBy seg.pre.roles.operations seg.post.roles.operations)
        (KeepsProposal seg.pre.roles.operations seg.post.roles.operations) earlier)
  | executed (executableAt : Nat)
      (hcall : seg.call = ⟨seg.pre.roles.treasury, .executeOperationsRotation⟩)
      (hscheduled : Since (ScheduledFor c seg.post.roles.operations executableAt) SchedulesNothing
        earlier)
      (hdelay : executableAt ≤ seg.time)

/-- What histories remember about the operations account. -/
structure RolesInv (c : ConstructorConfig) (w : HookHistory) : Prop where
  safe : RotationSafe w.state
  proposal : w.state.roles.proposedOperations ≠ 0 →
    Since (ProposedBy w.state.roles.operations w.state.roles.proposedOperations)
      (KeepsProposal w.state.roles.operations w.state.roles.proposedOperations) w.trace
  rotation : w.state.rotation.nextOperations ≠ 0 →
    Since (ScheduledFor c w.state.rotation.nextOperations w.state.rotation.executableAt)
      SchedulesNothing w.trace
  changes : ∀ earlier seg later, w.trace = earlier ++ seg :: later →
    (seg.post.roles.operations ≠ seg.pre.roles.operations → OperationsChange c earlier seg) ∧
      (seg.call.op = .executeOperationsRotation →
        seg.post.roles.operations ≠ seg.pre.roles.operations)

theorem RolesInv.start (c : ConstructorConfig) (balance : Nat) :
    RolesInv c (.start (Hook.deployed c balance)) where
  safe hpending := absurd rfl hpending
  proposal hproposed := absurd rfl hproposed
  rotation hpending := absurd rfl hpending
  changes := by
    intro earlier seg later hsplit
    simp at hsplit

section

variable {c : ConstructorConfig} {w : HookHistory} {seg : HookSegment}

theorem RolesInv.proposal_push (h : RolesInv c w) (hpiece : RolesPiece c seg)
    (hpre : seg.pre = w.state) (hproposed : seg.post.roles.proposedOperations ≠ 0) :
    Since (ProposedBy seg.post.roles.operations seg.post.roles.proposedOperations)
      (KeepsProposal seg.post.roles.operations seg.post.roles.proposedOperations)
      (w.trace ++ [seg]) := by
  cases hpiece with
  | quiet _ hoperations hkept _ _ =>
    rw [hkept, hpre] at hproposed
    rw [hoperations, hkept, hpre]
    refine (h.proposal hproposed).snoc ?_
    rw [← hpre]
    exact ⟨hoperations, hkept⟩
  | propose successor hcall _ hpost =>
    refine .now ?_
    rw [ProposedBy, hpost]
    exact ⟨hcall, rfl, rfl, rfl⟩
  | accept _ _ _ hpost =>
    rw [hpost] at hproposed
    exact absurd rfl hproposed
  | schedule _ _ _ hpost =>
    rw [hpost] at hproposed
    exact absurd rfl hproposed
  | execute _ _ _ _ hpost =>
    rw [hpost] at hproposed
    exact absurd rfl hproposed

theorem RolesInv.rotation_push (h : RolesInv c w) (hpiece : RolesPiece c seg)
    (hpre : seg.pre = w.state) (hpending : seg.post.rotation.nextOperations ≠ 0) :
    Since (ScheduledFor c seg.post.rotation.nextOperations seg.post.rotation.executableAt)
      SchedulesNothing (w.trace ++ [seg]) := by
  cases hpiece with
  | quiet hop _ _ hrotation _ =>
    rw [hrotation, hpre] at hpending ⊢
    exact (h.rotation hpending).snoc hop.2.2
  | propose successor _ hnone hpost =>
    rw [hpost] at hpending
    exact absurd hnone hpending
  | accept _ hnone _ hpost =>
    rw [hpost] at hpending
    exact absurd hnone hpending
  | schedule next hcall _ hpost =>
    refine .now ?_
    rw [hpost]
    exact ⟨hcall, rfl⟩
  | execute _ _ _ _ hpost =>
    rw [hpost] at hpending
    exact absurd rfl hpending

/-- The two pieces that change the account are authorized by what came before. -/
theorem RolesInv.changes_push (h : RolesInv c w) (hpiece : RolesPiece c seg)
    (hpre : seg.pre = w.state) :
    (seg.post.roles.operations ≠ seg.pre.roles.operations → OperationsChange c w.trace seg) ∧
      (seg.call.op = .executeOperationsRotation →
        seg.post.roles.operations ≠ seg.pre.roles.operations) := by
  cases hpiece with
  | quiet hop hoperations _ _ _ =>
    exact ⟨fun hchange => absurd hoperations hchange, fun hexecute => absurd hexecute hop.2.1⟩
  | propose successor hcall _ hpost =>
    refine ⟨?_, ?_⟩
    · intro hchange
      rw [hpost] at hchange
      exact absurd rfl hchange
    · intro hexecute
      rw [hcall] at hexecute
      cases hexecute
  | accept hcall _ hlive hpost =>
    refine ⟨?_, ?_⟩
    · intro _
      have hsuccessor : seg.post.roles.operations = seg.pre.roles.proposedOperations := by
        rw [hpost]
      refine .accepted ?_ ?_
      · rw [hsuccessor]
        exact hcall
      · rw [hsuccessor, hpre]
        rw [hpre] at hlive
        exact h.proposal hlive
    · intro hexecute
      rw [hcall] at hexecute
      cases hexecute
  | schedule next hcall _ hpost =>
    refine ⟨?_, ?_⟩
    · intro hchange
      rw [hpost] at hchange
      exact absurd rfl hchange
    · intro hexecute
      rw [hcall] at hexecute
      cases hexecute
  | execute hcall hpending hready hnext hpost =>
    have hsuccessor : seg.post.roles.operations = seg.pre.rotation.nextOperations := by
      rw [hpost]
    refine ⟨?_, ?_⟩
    · intro _
      refine .executed seg.pre.rotation.executableAt hcall ?_ hready
      rw [hsuccessor, hpre]
      rw [hpre] at hpending
      exact h.rotation hpending
    · intro _
      rw [hsuccessor]
      exact hnext

end

theorem rolesInv_rule (env : Externals) (c : ConstructorConfig) (now : Nat) :
    TraceRule (enter env c) now (RolesInv c) := by
  intro w seg _ hvalid hpre h
  have hpiece := (piece_of_valid hvalid).roles
  refine ⟨?_, h.proposal_push hpiece hpre, h.rotation_push hpiece hpre, ?_⟩
  · refine hpiece.safe ?_
    rw [hpre]
    exact h.safe
  · intro earlier seg' later hsplit
    rcases snoc_eq_split hsplit with ⟨hfront, hlast⟩ | ⟨later', hfront⟩
    · rw [hfront, hlast]
      exact h.changes_push hpiece hpre
    · exact h.changes earlier seg' later' hfront

/-! ## What cannot happen -/

/-- With paused claims every process claim reverts. -/
theorem claimProcess_reverts {env : Externals} {c : ConstructorConfig} {time amountWei : Nat}
    {sender destination : Address} {cycleId : Bytes32} {s : Hook}
    (hpaused : s.claims.processClaimsPaused = true) :
    ∃ e, enter env c time ⟨sender, .claimProcess cycleId amountWei destination⟩ s = .revert e := by
  cases hout : enter env c time ⟨sender, .claimProcess cycleId amountWei destination⟩ s with
  | revert e => exact ⟨e, rfl⟩
  | done v s' => cases enter_eq_done hout
  | call r sent onReturn onFailure =>
    cases (enter_eq_call hout).1 with
    | claim hbook _ _ _ => cases hbook
    | claimProcess hadmitted _ _ =>
      rw [admitProcessClaim_unpaused hadmitted] at hpaused
      cases hpaused

/-- The last comparison of `executeOperationsRotation` never fails: the account
cannot have changed since the rotation was scheduled. -/
theorem executeOperationsRotation_not_stale {env : Externals} {c : ConstructorConfig} {time : Nat}
    {sender : Address} {s : Hook} (hsafe : RotationSafe s) :
    enter env c time ⟨sender, .executeOperationsRotation⟩ s ≠ .revert .staleOperationsRotation := by
  intro hstale
  have hrun : executeOperationsRotation c time sender s = .error .staleOperationsRotation := by
    unfold enter HookOp.run finish at hstale
    cases hexecute : executeOperationsRotation c time sender s with
    | error e =>
      simp only [hexecute, bind, Except.bind, Outcome.ofRun, Outcome.revert.injEq] at hstale
      rw [hstale]
    | ok s' =>
      simp only [hexecute, ok_bind, pure, Except.pure, Outcome.ofRun] at hstale
      cases hstale
  simp only [executeOperationsRotation, authorizeTreasuryControl,
    replaceOperationsForEmergencyRotation, validateRoleSuccessor, bind_eq_error, bind_eq_ok,
    revertIf_eq_ok, revertIf_eq_error, pure_ne_error] at hrun
  -- of all the reasons, only the comparison itself is left
  rcases hrun with ⟨-, hreason⟩ | ⟨-, -, ⟨-, hreason⟩ | ⟨-, hpending, ⟨-, hreason⟩ |
    ⟨-, -, ⟨hchanged, -⟩ | ⟨-, -, (⟨-, hreason⟩ | ⟨-, -, hreason⟩) | ⟨-, -, hreason⟩⟩⟩⟩⟩
  · cases hreason
  · cases hreason
  · cases hreason
  · exact hchanged (hsafe hpending).2.2.1
  · cases hreason
  · exact hreason
  · exact hreason

/-! ## The operations account is safe -/

/-- **Hand-overs of the operations account.** At every point of every history at
which outside code has control: while a rotation is pending, claims are paused,
nothing is proposed, the account is the one the rotation was scheduled against,
and every process claim reverts; every change of the account so far is the
acceptance of a live proposal of the account it replaced, or the execution by the
treasury, one delay or more after the last schedule call, of the rotation to the
new account; an execution always brings in another account; and a scheduled
rotation is never found stale. -/
theorem operations_rotation_safe (env : Externals) (d : Deployment) (balance t now : Nat)
    (w w' : HookHistory) (h : HookReachable env d.toConstructorConfig balance t w)
    (hpoint : ControlPoint (traced (enter env d.toConstructorConfig) now) w w') :
    (w'.state.rotation.nextOperations ≠ 0 →
      w'.state.claims.processClaimsPaused = true ∧ w'.state.roles.proposedOperations = 0 ∧
        w'.state.roles.operations = w'.state.rotation.expectedOperations ∧
        ∀ time sender cycleId amountWei destination, ∃ e, enter env d.toConstructorConfig time
          ⟨sender, .claimProcess cycleId amountWei destination⟩ w'.state = .revert e) ∧
    (∀ earlier seg later, w'.trace = earlier ++ seg :: later →
      (seg.post.roles.operations ≠ seg.pre.roles.operations →
        OperationsChange d.toConstructorConfig earlier seg) ∧
      (seg.call.op = .executeOperationsRotation →
        seg.post.roles.operations ≠ seg.pre.roles.operations)) ∧
    (∀ time sender, enter env d.toConstructorConfig time ⟨sender, .executeOperationsRotation⟩
      w'.state ≠ .revert .staleOperationsRotation) := by
  have hreached : RolesInv d.toConstructorConfig w :=
    h.traced_invariant (I := fun _ => RolesInv d.toConstructorConfig)
      (fun _ => .start _ balance) (fun _ hw => hw) (rolesInv_rule env d.toConstructorConfig)
  have hinv : RolesInv d.toConstructorConfig w' :=
    (rolesInv_rule env d.toConstructorConfig now).segmentRule.controlPoint hpoint hreached
  refine ⟨?_, hinv.changes, ?_⟩
  · intro hpending
    rcases hinv.safe hpending with ⟨hpaused, hnone, hfresh, -⟩
    refine ⟨hpaused, hnone, hfresh, ?_⟩
    intro time sender cycleId amountWei destination
    exact claimProcess_reverts hpaused
  · intro time sender
    exact executeOperationsRotation_not_stale hinv.safe

/-- The treasury rotates operations out after a day; the new account then hands
over by proposal. -/
def sampleRotationHistory : HookHistory :=
  execAll (traced (enter sampleExternals sampleConfig) 87400)
    [.node ⟨0x2001, .executeOperationsRotation⟩ true [],
      .node ⟨0x2003, .proposeOperations 0x2004⟩ true [],
      .node ⟨0x2004, .acceptOperations⟩ true []]
    (execAll (traced (enter sampleExternals sampleConfig) 1000)
      [.node ⟨0x2001, .scheduleOperationsRotation 0x2003⟩ true [],
        .node ⟨0x2002, .proposeOperations 0x2005⟩ true []]
      (.start (Hook.deployed sampleConfig 0)))

theorem operations_rotation_safe_sample :
    sampleRotationHistory.state.roles.operations = 0x2004 ∧
      ∀ earlier seg later, sampleRotationHistory.trace = earlier ++ seg :: later →
        (seg.post.roles.operations ≠ seg.pre.roles.operations →
          OperationsChange sampleConfig earlier seg) ∧
        (seg.call.op = .executeOperationsRotation →
          seg.post.roles.operations ≠ seg.pre.roles.operations) :=
  ⟨by decide +kernel,
    (operations_rotation_safe sampleExternals sampleDeployment 0 87400 87400 sampleRotationHistory
      sampleRotationHistory (.transact _ (.transact _ (.start 0) (by decide)) (by decide))
      .start).2.1⟩

end Hookemon.Contracts
