import Hookemon.Runner.RetiredEvidence

/-! # The approval of a buyback

Once the pack is open the owner approves one buyback, and the approval is kept as a single
value without the action that it was given for. A buyback that is retired leaves it behind,
and the next buyback finds it. The approval fits whatever is executed as long as every buyback
that is prepared after it is the action that it was given for.
-/

namespace Hookemon.Runner.CycleReducer

open Hookemon.Core Hookemon.Js

variable {profile : EvidenceProfile} {l l' : Ledger} {body : EventBody} {staged : Staged}

/-! ## Buybacks stand behind the approval -/

/-- A buyback is prepared after the Collector's response, and its mutation is approved after
the post-open approval. -/
structure Ledger.Gated (l : Ledger) : Prop where
  reconciled : l.stage = .openReconciled → l.generated.isSome
  prepared : ∀ d prepared, l.actions.get d = some prepared →
    prepared.action.actionKind = .buyback → l.generated.isSome
  approved : ∀ d prepared approval, l.actions.get d = some prepared →
    prepared.action.actionKind = .buyback → l.approvals.get (d, .mutation) = some approval →
    l.postOpen.isSome

namespace Ledger.Gated

theorem retireAction (h : l.Gated) {d : Digest} {kind : ActionKind} {prepared : PreparedAction} :
    (l.retireAction d kind prepared).Gated :=
  { h with
    prepared := fun d' p hp => h.prepared d' p (Map.get_delete_eq_some.mp hp).2
    approved := fun d' p approval hp hkind happroval =>
      h.approved d' p approval (Map.get_delete_eq_some.mp hp).2 hkind
        (get_deleteSlots.mp happroval).2 }

/-- **Every step keeps the buybacks behind the approval.** -/
theorem step (h : l.Gated) (hindexed : l.Indexed profile) (hs : l.Step profile body l' staged) :
    l'.Gated := by
  cases hs with
  | intent value action preflight hvalue hpreflight hcap hstage hnew =>
    exact { h with
      prepared := by
        intro d p hp hkind
        rcases Map.get_set_eq_some.mp hp with ⟨rfl, rfl⟩ | ⟨-, hold⟩
        · refine h.reconciled (hstage.trans ?_)
          rw [show action.actionKind = .buyback from hkind]
          rfl
        · exact h.prepared d p hold hkind
      approved := by
        intro d p approval hp hkind happroval
        rcases Map.get_set_eq_some.mp hp with ⟨rfl, -⟩ | ⟨-, hold⟩
        · -- nothing is approved of an action that is new
          rcases hindexed.approved _ _ approval happroval with ⟨old, hold⟩
          rw [hnew] at hold
          cases hold
        · exact h.approved d p approval hold hkind happroval }
  | approval value approval d prepared haction hgate hnew =>
    exact { h with
      approved := by
        intro d' p a hp hkind ha
        rcases Map.get_set_eq_some.mp ha with ⟨heq, -⟩ | ⟨-, hold⟩
        · rw [Prod.mk.injEq] at heq
          rcases heq with ⟨rfl, hmutation⟩
          obtain rfl : prepared = p := Option.some.inj (haction.symm.trans hp)
          exact hgate (h.prepared d' prepared haction hkind) hkind hmutation.symm
        · exact h.approved d' p a hp hkind hold }
  | transition version head predecessor next evidence hnext hopen =>
    exact { h with reconciled := hopen }
  | generated => exact ⟨fun _ => rfl, fun _ _ _ _ => rfl, h.approved⟩
  | postOpen => exact ⟨h.reconciled, h.prepared, fun _ _ _ _ _ _ => rfl⟩
  | voidAction => exact h.retireAction
  | supersede => exact h.retireAction
  | _ => exact { h with }

/-- What was consumed for the mutation of a buyback was approved after the opening. -/
theorem consumed (h : l.Gated) (hindexed : l.Indexed profile) {d : Digest}
    {prepared : PreparedAction} (haction : l.actions.get d = some prepared)
    (hkind : prepared.action.actionKind = .buyback) (hconsumed : l.Consumed d .mutation) :
    l.postOpen.isSome := by
  rcases hconsumed with ⟨consumed, hget⟩
  rcases hindexed.consumed d .mutation consumed hget with ⟨approval, happroval, -, -⟩
  exact h.approved d prepared approval haction hkind happroval

end Ledger.Gated

/-! ## What a history has approved -/

variable (profile) in
/-- A history has consumed an approval that was given for a buyback. -/
def GrantedFor (start : World) (history : List Occurrence) (approval : PostOpenApproval)
    (d : Digest) (prepared : PreparedAction) : Prop :=
  ∃ before event after value m m', history = before ++ .own event :: after ∧
    journal profile start before = .ok m ∧ advance profile m (.own event) = .ok m' ∧
    event.body = .postOpenBuybackApprovalConsumed value ∧
    m'.state.postOpenBuybackApproval = some approval ∧
    profile.resolveBuybackDigest m.state.actionByKind approval = some d ∧
    m.state.actions.get d = some prepared

/-- An event executes a buyback. -/
inductive Executes (w : World) : EventBody → Digest → Prop
  | attempted (d : Digest) (identity : MutationIdentity)
      (hkind : identity.actionKind = .action .buyback) :
      Executes w (.externalMutationAttempted d identity) d
  | signed (signed : SignedRecord) (prepared : PreparedAction)
      (haction : w.state.actions.get signed.actionDigest = some prepared)
      (hkind : prepared.action.actionKind = .buyback) :
      Executes w (.signedBytesRecorded signed) signed.actionDigest
  | broadcast (broadcast : BroadcastRecord) (prepared : PreparedAction)
      (haction : w.state.actions.get broadcast.actionDigest = some prepared)
      (hkind : prepared.action.actionKind = .buyback) :
      Executes w (.broadcastRecorded broadcast) broadcast.actionDigest
  | closed (version : Nat) (head : Option Digest) (predecessor : Stage) (evidence : List Digest)
      (d : Digest) (hd : w.state.actionByKind.get .buyback = some d) :
      Executes w (.cycleTransitioned version head predecessor .closed evidence) d

/-- The consumed approval fits an action. -/
def Fits (profile : EvidenceProfile) (w : World) (approval : PostOpenApproval) (d : Digest)
    (prepared : PreparedAction) : Prop :=
  w.state.postOpenBuybackApproval = some approval ∧ w.state.actions.get d = some prepared ∧
    profile.matchPolicy approval prepared w.state.cycleId w.state.collector.opened = .ok ()

/-- A buyback that is prepared after an approval is the one that it was given for. -/
def PreparesApproved (profile : EvidenceProfile) (start : World) (history : List Occurrence) :
    Prop :=
  ∀ before event after value digests action, history = before ++ .own event :: after →
    event.body = .intentPrepared value digests → profile.assertAction value = .ok action →
    action.actionKind = .buyback →
    ∀ approval d prepared, GrantedFor profile start before approval d prepared →
      prepared = ⟨action, profile.actionDigests action⟩

variable {start w w' : World} {history : List Occurrence} {occurrence : Occurrence}

theorem GrantedFor.append {approval : PostOpenApproval} {d : Digest} {prepared : PreparedAction}
    (h : GrantedFor profile start history approval d prepared) (later : List Occurrence) :
    GrantedFor profile start (history ++ later) approval d prepared := by
  rcases h with ⟨before, event, after, value, m, m', hsplit, hrest⟩
  exact ⟨before, event, after ++ later, value, m, m', by simp [hsplit], hrest⟩

theorem PreparesApproved.of_append {before after : List Occurrence}
    (h : PreparesApproved profile start (before ++ after)) :
    PreparesApproved profile start before := by
  intro first event rest value digests action hsplit
  exact h first event (rest ++ after) value digests action (by simp [hsplit])

variable (profile start history) in
/-- The approval that a ledger holds was given for the only buyback that may be there. -/
def Held (l : Ledger) : Prop :=
  ∀ approval, l.postOpen = some approval → l.opened.isSome ∧
    ∃ d prepared, GrantedFor profile start history approval d prepared ∧
      prepared.digests.actionDigest = d ∧
      profile.matchPolicy approval prepared l.cycleId l.opened = .ok () ∧
      ∀ d' p, l.actions.get d' = some p → p.action.actionKind = .buyback → p = prepared

/-- Where no other buyback appears, what is held is held on. -/
theorem Held.later (h : Held profile start history l) (later : List Occurrence)
    (hpostOpen : l'.postOpen = l.postOpen) (hopened : l'.opened = l.opened)
    (hcycle : l'.cycleId = l.cycleId)
    (hactions : ∀ d p, l'.actions.get d = some p → l.actions.get d = some p) :
    Held profile start (history ++ later) l' := by
  intro approval happroval
  rw [hpostOpen] at happroval
  rcases h approval happroval with ⟨hopen, d, prepared, hgranted, hdigest, hpolicy, honly⟩
  rw [hopened, hcycle]
  refine ⟨hopen, d, prepared, hgranted.append later, hdigest, hpolicy, ?_⟩
  intro d' p hp
  exact honly d' p (hactions d' p hp)

/-- **An accepted event keeps the approval with its buyback.** -/
theorem Held.own {event : CycleEvent} (h : Held profile start history w.state.ledger)
    (hbefore : journal profile start history = .ok w)
    (hindexed : w.state.ledger.Indexed profile)
    (hadvance : advance profile w (.own event) = .ok w')
    (hprepares : PreparesApproved profile start (history ++ [.own event])) :
    Held profile start (history ++ [.own event]) w'.state.ledger := by
  rcases advance_own hadvance with ⟨staged, hs, -⟩
  generalize hbody : event.body = body at hs
  generalize hnext : w'.state.ledger = l' at hs
  cases hs with
  | intent value action preflight hvalue =>
    intro approval happroval
    rcases h approval happroval with ⟨hopen, d, prepared, hgranted, hdigest, hpolicy, honly⟩
    refine ⟨hopen, d, prepared, hgranted.append _, hdigest, hpolicy, ?_⟩
    intro d' p hp hkind
    rcases Map.get_set_eq_some.mp hp with ⟨-, rfl⟩ | ⟨-, hold⟩
    · exact (hprepares history event [] value _ action rfl hbody hvalue hkind approval d prepared
        hgranted).symm
    · exact honly d' p hold hkind
  | opened value opening execution intent hintent hnew =>
    intro approval happroval
    rcases h approval happroval with ⟨hopen, -⟩
    rw [hnew] at hopen
    cases hopen
  | postOpen now value approval d prepared staged hvalue hresolve haction hkind hopened hpolicy =>
    intro a ha
    obtain rfl : approval = a := Option.some.inj ha
    refine ⟨hopened, d, prepared, ?_, (hindexed.prepared d prepared haction).2, hpolicy, ?_⟩
    · have hpostOpen : w'.state.postOpenBuybackApproval = some approval :=
        congrArg Ledger.postOpen hnext
      exact ⟨history, event, [], value, w, w', rfl, hbefore, hadvance, hbody, hpostOpen, hresolve,
        haction⟩
    · -- actions are indexed by their kind
      intro d' p hp hpkind
      have hthis := hindexed.indexed d prepared haction
      have hthat := hindexed.indexed d' p hp
      rw [hpkind] at hthat
      rw [hkind, hthat, Option.some.injEq] at hthis
      subst hthis
      exact Option.some.inj (hp.symm.trans haction)
  | voidAction d proof kind prepared =>
    exact h.later _ rfl rfl rfl fun d' p hp => (Map.get_delete_eq_some.mp hp).2
  | supersede d provider rpc authorization kind prepared =>
    exact h.later _ rfl rfl rfl fun d' p hp => (Map.get_delete_eq_some.mp hp).2
  | _ => exact h.later _ rfl rfl rfl fun _ _ hp => hp

variable {store : EvidenceStore} {cycleId : Text}

/-- The owner consumes an approval after the opening. -/
def EventBody.grants : EventBody → Bool
  | .postOpenBuybackApprovalConsumed _ => true
  | _ => false

/-- The receipt of an action is verified, accounted for and consumed, and its mutation is
reconciled. -/
def sampleConsumed (kind : ActionKind) (lastValidHeight blockHeight : Nat) :
    List (Option Digest → EventBody) :=
  let d := BitVec.ofNat 256 lastValidHeight
  let r := BitVec.ofNat 256 blockHeight
  let activity (direction : Direction) : AccountActivity :=
    ⟨[], [], 0, [], 0, [], 0, 0, [⟨[1], r, blockHeight, [], direction, [], 0⟩]⟩
  [sampleVerified kind lastValidHeight blockHeight,
    fun _ => .executionAccountingVerified ⟨[], kind, d, r, [1], blockHeight, [],
      ⟨[], text "SOL", 1⟩, activity .debit, activity .credit, none, r⟩,
    fun _ => .receiptConsumed r r,
    fun _ => .externalMutationReconciled d (.action kind) ⟨r, some r⟩]

end Hookemon.Runner.CycleReducer
