import Hookemon.Core.Histories
import Hookemon.Runner.EvidenceLedger

/-! # The integrity of the evidence ledger

What is recorded about an action refers to an action that is still there: approvals,
messages, signatures, broadcasts and mutations in every history. Receipts and their
accounting do so as long as nothing retires an action that has one.
-/

namespace Hookemon.Runner.CycleReducer

open Hookemon.Core Hookemon.Js

variable {profile : EvidenceProfile} {l l' : Ledger} {body : EventBody} {staged : Staged}

theorem get_deleteSlots {α : Type} {slots : Map AuthorizationSlot α} {d d' : Digest}
    {kind : AuthorizationKind} {v : α} :
    (deleteSlots slots d).get (d', kind) = some v ↔ d' ≠ d ∧ slots.get (d', kind) = some v := by
  simp only [deleteSlots, actionAuthorizationKinds, List.foldl_cons, List.foldl_nil,
    Map.get_delete_eq_some, ne_eq, Prod.mk.injEq]
  by_cases hd : d' = d
  · cases kind <;> simp [hd]
  · simp [hd]

/-! ## What is recorded about the actions -/

variable (profile) in
/-- Actions are indexed by their kind, and everything that is recorded on the way to a
broadcast stands on what comes before it. -/
structure Ledger.Indexed (l : Ledger) : Prop where
  kinds : ∀ kind d, l.actionByKind.get kind = some d →
    ∃ prepared, l.actions.get d = some prepared ∧ prepared.action.actionKind = kind
  indexed : ∀ d prepared, l.actions.get d = some prepared →
    l.actionByKind.get prepared.action.actionKind = some d
  prepared : ∀ d prepared, l.actions.get d = some prepared →
    prepared.digests = profile.actionDigests prepared.action ∧ prepared.digests.actionDigest = d
  approved : ∀ d kind approval, l.approvals.get (d, kind) = some approval →
    ∃ prepared, l.actions.get d = some prepared
  consumed : ∀ d kind consumed, l.consumedApprovals.get (d, kind) = some consumed →
    ∃ approval, l.approvals.get (d, kind) = some approval ∧
      consumed.approvalKey = profile.approvalKey approval ∧
      consumed.subjectDigest = approval.subjectDigest
  decoded : ∀ d message, l.decoded.get d = some message → l.Consumed d .mutation
  signed : ∀ d signed, l.signed.get d = some signed → ∃ message, l.decoded.get d = some message
  validity : ∀ d validity, l.blockhashValidity.get d = some validity →
    ∃ signed, l.signed.get d = some signed
  broadcasts : ∀ d broadcast, l.broadcasts.get d = some broadcast →
    ∃ signed, l.signed.get d = some signed
  attempted : ∀ d mutation kind, l.externalMutations.get d = some mutation →
    mutation.identity.actionKind = .action kind →
    l.Consumed d .mutation ∧
      ∃ prepared, l.actions.get d = some prepared ∧ prepared.action.actionKind = kind
  collected : ∀ d mutation action, l.externalMutations.get d = some mutation →
    mutation.identity.actionKind = .collector action →
    ∃ intent, l.intent action = some intent ∧ intent.requestDigest = d

namespace Ledger.Indexed

theorem consumed_present (h : l.Indexed profile) {d : Digest} {kind : AuthorizationKind}
    (hconsumed : l.Consumed d kind) : ∃ prepared, l.actions.get d = some prepared := by
  rcases hconsumed with ⟨consumed, hconsumed⟩
  rcases h.consumed d kind consumed hconsumed with ⟨approval, happroval, -, -⟩
  exact h.approved d kind approval happroval

theorem decoded_present (h : l.Indexed profile) {d : Digest} {message : DecodedMessage}
    (hmessage : l.decoded.get d = some message) : ∃ prepared, l.actions.get d = some prepared :=
  h.consumed_present (h.decoded d message hmessage)

theorem signed_present (h : l.Indexed profile) {d : Digest} {signed : SignedRecord}
    (hsigned : l.signed.get d = some signed) : ∃ prepared, l.actions.get d = some prepared := by
  rcases h.signed d signed hsigned with ⟨message, hmessage⟩
  exact h.decoded_present hmessage

theorem broadcast_present (h : l.Indexed profile) {d : Digest} {broadcast : BroadcastRecord}
    (hbroadcast : l.broadcasts.get d = some broadcast) :
    ∃ prepared, l.actions.get d = some prepared := by
  rcases h.broadcasts d broadcast hbroadcast with ⟨signed, hsigned⟩
  exact h.signed_present hsigned

/-- A new action. -/
theorem intent (h : l.Indexed profile) {action : Action} {reserved : Map GasChain Nat}
    (hnew : l.actions.get (profile.actionDigests action).actionDigest = none)
    (hkind : l.actionByKind.get action.actionKind = none) :
    Ledger.Indexed profile { l with
      actions := l.actions.set (profile.actionDigests action).actionDigest
        ⟨action, profile.actionDigests action⟩
      actionByKind := l.actionByKind.set action.actionKind
        (profile.actionDigests action).actionDigest
      reserved := reserved } :=
  { h with
    kinds := by
      intro kind d hd
      rcases Map.get_set_eq_some.mp hd with ⟨rfl, rfl⟩ | ⟨-, hold⟩
      · exact ⟨_, Map.get_set_eq_some.mpr (.inl ⟨rfl, rfl⟩), rfl⟩
      · rcases h.kinds kind d hold with ⟨prepared, hget, hprepared⟩
        exact ⟨prepared, Map.get_set_of_new hnew hget _, hprepared⟩
    indexed := by
      intro d prepared hd
      rcases Map.get_set_eq_some.mp hd with ⟨rfl, rfl⟩ | ⟨-, hold⟩
      · exact Map.get_set_eq_some.mpr (.inl ⟨rfl, rfl⟩)
      · exact Map.get_set_of_new hkind (h.indexed d prepared hold) _
    prepared := by
      intro d prepared hd
      rcases Map.get_set_eq_some.mp hd with ⟨rfl, rfl⟩ | ⟨-, hold⟩
      · exact ⟨rfl, rfl⟩
      · exact h.prepared d prepared hold
    approved := by
      intro d kind approval happroval
      rcases h.approved d kind approval happroval with ⟨prepared, hget⟩
      exact ⟨prepared, Map.get_set_of_new hnew hget _⟩
    attempted := by
      intro d mutation kind hget hmutation
      rcases h.attempted d mutation kind hget hmutation with ⟨hconsumed, prepared, haction, hkind'⟩
      exact ⟨hconsumed, prepared, Map.get_set_of_new hnew haction _, hkind'⟩ }

/-- Nothing else refers to an action that is retired. -/
theorem retireAction (h : l.Indexed profile) {d : Digest} {kind : ActionKind}
    {prepared : PreparedAction} (hmutation : l.Unresolved d (.action kind))
    (haction : l.actions.get d = some prepared) :
    (l.retireAction d kind prepared).Indexed profile := by
  rcases hmutation with ⟨mutation, hmutation, -, hidentity⟩
  rcases h.attempted d mutation kind hmutation hidentity with ⟨-, p, hp, hkind⟩
  rw [haction, Option.some.injEq] at hp
  subst hp
  -- of the actions, only the one under this digest has this kind
  have hof : ∀ d' p, l.actions.get d' = some p → p.action.actionKind = kind → d' = d := by
    intro d' p hp hpkind
    have hthis := h.indexed d prepared haction
    have hthat := h.indexed d' p hp
    rw [hpkind] at hthat
    rw [hkind, hthat, Option.some.injEq] at hthis
    exact hthis
  have hconsumed : ∀ d', d' ≠ d → l.Consumed d' .mutation →
      (l.retireAction d kind prepared).Consumed d' .mutation := by
    rintro d' hne ⟨consumed, hget⟩
    exact ⟨consumed, get_deleteSlots.mpr ⟨hne, hget⟩⟩
  exact {
    kinds := by
      intro kind' d' hd'
      rcases Map.get_delete_eq_some.mp hd' with ⟨hne, hold⟩
      rcases h.kinds kind' d' hold with ⟨p, hp, hpkind⟩
      refine ⟨p, Map.get_delete_eq_some.mpr ⟨?_, hp⟩, hpkind⟩
      rintro rfl
      rw [haction, Option.some.injEq] at hp
      subst hp
      exact hne (hpkind.symm.trans hkind)
    indexed := by
      intro d' p hp
      rcases Map.get_delete_eq_some.mp hp with ⟨hne, hold⟩
      exact Map.get_delete_eq_some.mpr
        ⟨fun heq => hne (hof d' p hold heq), h.indexed d' p hold⟩
    prepared := by
      intro d' p hp
      exact h.prepared d' p (Map.get_delete_eq_some.mp hp).2
    approved := by
      intro d' k approval happroval
      rcases get_deleteSlots.mp happroval with ⟨hne, hold⟩
      rcases h.approved d' k approval hold with ⟨p, hp⟩
      exact ⟨p, Map.get_delete_eq_some.mpr ⟨hne, hp⟩⟩
    consumed := by
      intro d' k consumed hget
      rcases get_deleteSlots.mp hget with ⟨hne, hold⟩
      rcases h.consumed d' k consumed hold with ⟨approval, happroval, hrest⟩
      exact ⟨approval, get_deleteSlots.mpr ⟨hne, happroval⟩, hrest⟩
    decoded := by
      intro d' message hmessage
      rcases Map.get_delete_eq_some.mp hmessage with ⟨hne, hold⟩
      exact hconsumed d' hne (h.decoded d' message hold)
    signed := by
      intro d' signed hsigned
      rcases Map.get_delete_eq_some.mp hsigned with ⟨hne, hold⟩
      rcases h.signed d' signed hold with ⟨message, hmessage⟩
      exact ⟨message, Map.get_delete_eq_some.mpr ⟨hne, hmessage⟩⟩
    validity := by
      intro d' validity hvalidity
      rcases Map.get_delete_eq_some.mp hvalidity with ⟨hne, hold⟩
      rcases h.validity d' validity hold with ⟨signed, hsigned⟩
      exact ⟨signed, Map.get_delete_eq_some.mpr ⟨hne, hsigned⟩⟩
    broadcasts := by
      intro d' broadcast hbroadcast
      rcases Map.get_delete_eq_some.mp hbroadcast with ⟨hne, hold⟩
      rcases h.broadcasts d' broadcast hold with ⟨signed, hsigned⟩
      exact ⟨signed, Map.get_delete_eq_some.mpr ⟨hne, hsigned⟩⟩
    attempted := by
      intro d' m k hm hmkind
      rcases Map.get_delete_eq_some.mp hm with ⟨hne, hold⟩
      rcases h.attempted d' m k hold hmkind with ⟨hc, p, hp, hpkind⟩
      exact ⟨hconsumed d' hne hc, p, Map.get_delete_eq_some.mpr ⟨hne, hp⟩, hpkind⟩
    collected := by
      intro d' m action hm hmkind
      exact h.collected d' m action (Map.get_delete_eq_some.mp hm).2 hmkind }

/-- A Collector mutation takes its intent along. -/
theorem retireCollector (h : l.Indexed profile) {d : Digest} {action : CollectorAction}
    (hmutation : l.Unresolved d (.collector action)) :
    (l.retireCollector d action).Indexed profile := by
  rcases hmutation with ⟨mutation, hmutation, -, hidentity⟩
  rcases h.collected d mutation action hmutation hidentity with ⟨intent, hintent, hdigest⟩
  exact { h with
    attempted := by
      intro d' m k hm hmkind
      exact h.attempted d' m k (Map.get_delete_eq_some.mp hm).2 hmkind
    collected := by
      intro d' m action' hm hmkind
      rcases Map.get_delete_eq_some.mp hm with ⟨hne, hold⟩
      rcases h.collected d' m action' hold hmkind with ⟨intent', hintent', hdigest'⟩
      refine ⟨intent', ?_, hdigest'⟩
      -- the other intent names another digest
      have haction : action' ≠ action := by
        rintro rfl
        rw [hintent, Option.some.injEq] at hintent'
        exact hne (hdigest'.symm.trans (hintent' ▸ hdigest))
      exact (Function.update_of_ne haction none l.intent).trans hintent' }

/-- **Every step keeps the ledger indexed.** -/
theorem step (h : l.Indexed profile) (hs : l.Step profile body l' staged) :
    l'.Indexed profile := by
  cases hs with
  | quiet => exact h
  | preflight => exact { h with }
  | intent value action preflight hvalue hpreflight hcap hstage hnew hkind =>
    exact h.intent hnew hkind
  | approval value approval d prepared haction hgate hnew =>
    exact { h with
      approved := by
        intro d' kind a ha
        rcases Map.get_set_eq_some.mp ha with ⟨heq, -⟩ | ⟨-, hold⟩
        · cases heq
          exact ⟨prepared, haction⟩
        · exact h.approved d' kind a hold
      consumed := by
        intro d' kind consumed hconsumed
        rcases h.consumed d' kind consumed hconsumed with ⟨a, ha, hrest⟩
        exact ⟨a, Map.get_set_of_new hnew ha _, hrest⟩ }
  | consumption d kind subject key validatedAt approval record happroval hkey hsubject hnew hrecord =>
    have hkept : ∀ d', l.Consumed d' .mutation → ∃ consumed,
        (l.consumedApprovals.set (d, kind) ⟨key, subject⟩).get (d', .mutation) = some consumed := by
      rintro d' ⟨consumed, hget⟩
      exact ⟨consumed, Map.get_set_of_new hnew hget _⟩
    exact { h with
      consumed := by
        intro d' kind' consumed hconsumed
        rcases Map.get_set_eq_some.mp hconsumed with ⟨heq, rfl⟩ | ⟨-, hold⟩
        · cases heq
          exact ⟨approval, happroval, hkey.symm, hsubject.symm⟩
        · exact h.consumed d' kind' consumed hold
      decoded := fun d' message hmessage => hkept d' (h.decoded d' message hmessage)
      attempted := by
        intro d' mutation k hget hmutation
        rcases h.attempted d' mutation k hget hmutation with ⟨hconsumed, hrest⟩
        exact ⟨hkept d' hconsumed, hrest⟩ }
  | decode d messageBytes messageDigest prepared message haction hmutation hconsumed hnew =>
    exact { h with
      decoded := by
        intro d' m hm
        rcases Map.get_set_eq_some.mp hm with ⟨rfl, -⟩ | ⟨-, hold⟩
        · exact hconsumed
        · exact h.decoded d' m hold
      signed := by
        intro d' signed hsigned
        rcases h.signed d' signed hsigned with ⟨m, hm⟩
        exact ⟨m, Map.get_set_of_new hnew hm _⟩ }
  | sign signed message hdecoded hnew =>
    exact { h with
      signed := by
        intro d' x hx
        rcases Map.get_set_eq_some.mp hx with ⟨rfl, -⟩ | ⟨-, hold⟩
        · exact ⟨message, hdecoded⟩
        · exact h.signed d' x hold
      validity := by
        intro d' validity hvalidity
        rcases h.validity d' validity hvalidity with ⟨x, hx⟩
        exact ⟨x, Map.get_set_of_new hnew hx _⟩
      broadcasts := by
        intro d' broadcast hbroadcast
        rcases h.broadcasts d' broadcast hbroadcast with ⟨x, hx⟩
        exact ⟨x, Map.get_set_of_new hnew hx _⟩ }
  | validity value evidence eventDigest signed hsigned =>
    exact { h with
      validity := by
        intro d' x hx
        rcases Map.get_set_eq_some.mp hx with ⟨rfl, -⟩ | ⟨-, hold⟩
        · exact ⟨signed, hsigned⟩
        · exact h.validity d' x hold }
  | broadcast broadcast signed hsigned hnew =>
    exact { h with
      broadcasts := by
        intro d' x hx
        rcases Map.get_set_eq_some.mp hx with ⟨rfl, -⟩ | ⟨-, hold⟩
        · exact ⟨signed, hsigned⟩
        · exact h.broadcasts d' x hold }
  | receipt => exact { h with }
  | accounting => exact { h with }
  | receiptConsumption => exact { h with }
  | transition => exact { h with }
  | collectorIntent action value intent hnew =>
    exact { h with
      collected := by
        intro d' mutation action' hget hmutation
        rcases h.collected d' mutation action' hget hmutation with ⟨i, hi, hdigest⟩
        have haction : action' ≠ action := by
          rintro rfl
          rw [hnew] at hi
          cases hi
        exact ⟨i, (Function.update_of_ne haction _ l.intent).trans hi, hdigest⟩ }
  | collectorAuthorization => exact { h with }
  | generated => exact { h with }
  | opened => exact { h with }
  | postOpen => exact { h with }
  | attempt d identity hauthorized hsettled hnew =>
    cases hauthorized with
    | action prepared approval consumed haction happroval hconsumed hsubject hkey =>
      exact { h with
        attempted := by
          intro d' mutation k hget hmutation
          rcases Map.get_set_eq_some.mp hget with ⟨rfl, rfl⟩ | ⟨-, hold⟩
          · cases hmutation
            exact ⟨⟨consumed, hconsumed⟩, prepared, haction, rfl⟩
          · exact h.attempted d' mutation k hold hmutation
        collected := by
          intro d' mutation action hget hmutation
          rcases Map.get_set_eq_some.mp hget with ⟨rfl, rfl⟩ | ⟨-, hold⟩
          · cases hmutation
          · exact h.collected d' mutation action hold hmutation }
    | collector action intent authorization haction hintent hdigest hauthorization hrequest =>
      exact { h with
        attempted := by
          intro d' mutation k hget hmutation
          rcases Map.get_set_eq_some.mp hget with ⟨rfl, rfl⟩ | ⟨-, hold⟩
          · cases hmutation
          · exact h.attempted d' mutation k hold hmutation
        collected := by
          intro d' mutation action' hget hmutation
          rcases Map.get_set_eq_some.mp hget with ⟨rfl, rfl⟩ | ⟨-, hold⟩
          · cases hmutation
            exact ⟨intent, hintent, hdigest⟩
          · exact h.collected d' mutation action' hold hmutation }
  | reconcile d mutation evidence hmutation =>
    exact { h with
      attempted := by
        intro d' m k hget hkind
        rcases Map.get_set_eq_some.mp hget with ⟨rfl, rfl⟩ | ⟨-, hold⟩
        · exact h.attempted d' mutation k hmutation hkind
        · exact h.attempted d' m k hold hkind
      collected := by
        intro d' m action hget hkind
        rcases Map.get_set_eq_some.mp hget with ⟨rfl, rfl⟩ | ⟨-, hold⟩
        · exact h.collected d' mutation action hmutation hkind
        · exact h.collected d' m action hold hkind }
  | voidAction d proof kind prepared hmutation haction => exact h.retireAction hmutation haction
  | voidCollector d proof action hmutation => exact h.retireCollector hmutation
  | supersede d provider rpc authorization kind prepared broadcast staged hmutation haction =>
    exact h.retireAction hmutation haction

end Ledger.Indexed

/-! ## Journals of a cycle -/

/-- A cycle before its first event, beside what the store holds of other cycles. -/
def World.beginning (store : EvidenceStore) (cycleId : Text) : World :=
  ⟨store, createCycleReducerState cycleId⟩

variable {w w' : World} {store : EvidenceStore} {cycleId : Text}

/-- An accepted event is a step of the ledger, and the store commits what it stages. -/
theorem advance_own {event : CycleEvent} (h : advance profile w (.own event) = .ok w') :
    ∃ staged, w.state.ledger.Step profile event.body w'.state.ledger staged ∧
      w.store.commit w.state.cycleId staged = .ok w'.store := by
  simp only [advance, reduceCycleEvent, bind_eq_ok, revertIf_eq_ok, exists_const, pure_eq_ok] at h
  rcases h with ⟨⟨s, staged⟩, ⟨-, ⟨next, staged'⟩, hnext, heq⟩, committed, hcommit, rfl⟩
  cases heq
  -- the head that the event sets is no part of the ledger
  have hs : w.state.ledger.Step profile event.body next.ledger staged' := handleEvent_step hnext
  exact ⟨staged', hs, hcommit⟩

/-- What other cycles commit does not change this one. -/
theorem advance_elsewhere {otherId : Text} {staged : Staged}
    (h : advance profile w (.elsewhere otherId staged) = .ok w') :
    w'.state = w.state ∧ w.store.commit otherId staged = .ok w'.store := by
  simp only [advance, bind_eq_ok, pure_eq_ok] at h
  rcases h with ⟨committed, hcommit, rfl⟩
  exact ⟨rfl, hcommit⟩

/-- **What every step of the ledger preserves holds in every state of a journal.** -/
theorem journal_ledger {I : Ledger → Prop} {history : List Occurrence}
    (hstep : ∀ l body l' staged, I l → l.Step profile body l' staged → I l')
    (hinit : I w.state.ledger) (h : journal profile w history = .ok w') : I w'.state.ledger := by
  refine accepts_invariant (I := fun w => I w.state.ledger) hinit ?_ h
  intro m occurrence m' hm hadvance
  cases occurrence with
  | own event =>
    rcases advance_own hadvance with ⟨staged, hs, -⟩
    exact hstep _ _ _ _ hm hs
  | elsewhere otherId staged =>
    rw [(advance_elsewhere hadvance).1]
    exact hm

theorem indexed_beginning : (World.beginning store cycleId).state.ledger.Indexed profile := by
  constructor <;>
    intros <;> simp_all [World.beginning, State.ledger, createCycleReducerState]

/-- The ledger of every journal is indexed. -/
theorem journal_indexed {history : List Occurrence}
    (h : journal profile (World.beginning store cycleId) history = .ok w) :
    w.state.ledger.Indexed profile :=
  journal_ledger (fun _ _ _ _ hl hs => hl.step hs) indexed_beginning h

end Hookemon.Runner.CycleReducer
