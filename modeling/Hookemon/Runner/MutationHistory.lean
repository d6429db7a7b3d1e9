import Hookemon.Runner.LedgerIntegrity

/-! # The attempts of a whole history

`external-mutation-attempted` asks whether its digest is among the live mutations, and a
retirement takes the digest out of them. Over a whole history a digest is therefore attempted
once as long as no intent names a digest that an earlier intent has named; one that does can
bring a retired digest back, with the authorizations that were consumed for it.
-/

namespace Hookemon.Runner.CycleReducer

open Hookemon.Core Hookemon.Js

/-! ## What a history says -/

/-- The digest that an intent names. -/
def EventBody.intent? : EventBody → Option Digest
  | .intentPrepared _ digests => some digests.actionDigest
  | .collectorIntentPrepared _ _ requestDigest => some requestDigest
  | _ => none

/-- The digest that is attempted and the authorization that it is attempted under. -/
def EventBody.attempt? : EventBody → Option (Digest × Digest)
  | .externalMutationAttempted requestDigest identity =>
    some (requestDigest, identity.authorizationKey)
  | _ => none

/-- The digest that is voided or superseded. -/
def EventBody.retirement? : EventBody → Option Digest
  | .externalMutationVoided requestDigest _ => some requestDigest
  | .externalMutationSuperseded requestDigest _ _ _ => some requestDigest
  | _ => none

/-- The digest that is attempted, decoded, signed or broadcast. -/
def EventBody.use? : EventBody → Option Digest
  | .externalMutationAttempted requestDigest _ => some requestDigest
  | .fixtureMessageDecoded actionDigest _ _ => some actionDigest
  | .signedBytesRecorded signed => some signed.actionDigest
  | .broadcastRecorded broadcast => some broadcast.actionDigest
  | _ => none

/-- The events of the cycle itself. -/
def Occurrence.body? : Occurrence → Option EventBody
  | .own event => some event.body
  | .elsewhere _ _ => none

/-- What the cycle's events of a history say, in order. -/
def said {α : Type} (f : EventBody → Option α) (history : List Occurrence) : List α :=
  (history.filterMap Occurrence.body?).filterMap f

section Said

variable {α : Type} (f : EventBody → Option α)

@[simp] theorem said_nil : said f [] = [] := rfl

@[simp] theorem said_own (history : List Occurrence) (event : CycleEvent) :
    said f (history ++ [.own event]) = said f history ++ (f event.body).toList := by
  cases hf : f event.body <;> simp [said, Occurrence.body?, hf]

@[simp] theorem said_elsewhere (history : List Occurrence) (cycleId : Text) (staged : Staged) :
    said f (history ++ [.elsewhere cycleId staged]) = said f history := by
  simp [said, Occurrence.body?]

theorem said_append (before after : List Occurrence) :
    said f (before ++ after) = said f before ++ said f after := by
  simp [said]

theorem mem_said_of {event : CycleEvent} {history : List Occurrence} {a : α}
    (hmem : .own event ∈ history) (hf : f event.body = some a) : a ∈ said f history :=
  List.mem_filterMap.mpr
    ⟨event.body, List.mem_filterMap.mpr ⟨.own event, hmem, rfl⟩, hf⟩

end Said

/-- No intent names a digest that an earlier intent has named. -/
def FreshIntents (history : List Occurrence) : Prop := (said EventBody.intent? history).Nodup

/-- Every digest is attempted once, every authorization backs one attempt, and nothing uses a
digest after its retirement. -/
structure SingleUse (history : List Occurrence) : Prop where
  digests : ((said EventBody.attempt? history).map Prod.fst).Nodup
  authorizations : ((said EventBody.attempt? history).map Prod.snd).Nodup
  retired : ∀ before event after d, history = before ++ .own event :: after →
    event.body.retirement? = some d → ∀ later, .own later ∈ after → later.body.use? ≠ some d

/-! ## The digests that are live -/

variable {profile : EvidenceProfile} {l l' : Ledger} {body : EventBody} {staged : Staged}

/-- A prepared action or an intent of the Collector stands under a digest. -/
inductive Ledger.Live (l : Ledger) (d : Digest) : Prop
  | action (prepared : PreparedAction) (haction : l.actions.get d = some prepared)
  | collector (action : CollectorAction) (intent : CollectorIntent)
      (hintent : l.intent action = some intent) (hdigest : intent.requestDigest = d)

/-- No two of them share a digest. -/
structure Ledger.Apart (l : Ledger) : Prop where
  actions : ∀ d prepared action intent, l.actions.get d = some prepared →
    l.intent action = some intent → intent.requestDigest ≠ d
  intents : ∀ action action' intent intent', l.intent action = some intent →
    l.intent action' = some intent' → intent.requestDigest = intent'.requestDigest →
    action = action'

/-- What a newly prepared intent leaves of the Collector's intents. -/
theorem update_eq_some {intents : CollectorAction → Option CollectorIntent}
    {action a : CollectorAction} {intent i : CollectorIntent} :
    Function.update intents action (some intent) a = some i ↔
      (a = action ∧ intent = i) ∨ (a ≠ action ∧ intents a = some i) := by
  by_cases ha : a = action <;> simp [ha]

/-- What a retired intent leaves of them. -/
theorem intent_retireCollector {d : Digest} {action a : CollectorAction} {i : CollectorIntent} :
    (l.retireCollector d action).intent a = some i ↔ a ≠ action ∧ l.intent a = some i := by
  by_cases ha : a = action <;> simp [Ledger.retireCollector, ha]

namespace Ledger.Step

/-- Only an intent brings a digest to life. -/
theorem live (hs : l.Step profile body l' staged) {d : Digest} (hlive : l'.Live d) :
    l.Live d ∨ body.intent? = some d := by
  cases hs with
  | intent value action =>
    cases hlive with
    | action prepared haction =>
      rcases Map.get_set_eq_some.mp haction with ⟨rfl, -⟩ | ⟨-, hold⟩
      · exact .inr rfl
      · exact .inl (.action prepared hold)
    | collector action intent hintent hdigest => exact .inl (.collector action intent hintent hdigest)
  | collectorIntent action value intent =>
    cases hlive with
    | action prepared haction => exact .inl (.action prepared haction)
    | collector action' intent' hintent hdigest =>
      rcases update_eq_some.mp hintent with ⟨-, rfl⟩ | ⟨-, hold⟩
      · exact .inr (congrArg some hdigest)
      · exact .inl (.collector action' intent' hold hdigest)
  | voidAction d' proof kind prepared =>
    cases hlive with
    | action prepared haction =>
      exact .inl (.action prepared (Map.get_delete_eq_some.mp haction).2)
    | collector action intent hintent hdigest => exact .inl (.collector action intent hintent hdigest)
  | supersede d' provider rpc authorization kind prepared =>
    cases hlive with
    | action prepared haction =>
      exact .inl (.action prepared (Map.get_delete_eq_some.mp haction).2)
    | collector action intent hintent hdigest => exact .inl (.collector action intent hintent hdigest)
  | voidCollector d' proof action =>
    cases hlive with
    | action prepared haction => exact .inl (.action prepared haction)
    | collector action' intent hintent hdigest =>
      exact .inl (.collector action' intent (intent_retireCollector.mp hintent).2 hdigest)
  | _ =>
    cases hlive with
    | action prepared haction => exact .inl (.action prepared haction)
    | collector action intent hintent hdigest => exact .inl (.collector action intent hintent hdigest)

/-- What is used is live. -/
theorem uses (hs : l.Step profile body l' staged) (hindexed : l.Indexed profile) {d : Digest}
    (huse : body.use? = some d) : l.Live d := by
  cases hs with
  | quiet body staged hquiet => cases body <;> simp_all [EventBody.Quiet, EventBody.use?]
  | decode d' messageBytes messageDigest prepared message haction =>
    cases huse
    exact .action prepared haction
  | sign signed message hdecoded =>
    cases huse
    rcases hindexed.decoded_present hdecoded with ⟨prepared, haction⟩
    exact .action prepared haction
  | broadcast broadcast signed hsigned =>
    cases huse
    rcases hindexed.signed_present hsigned with ⟨prepared, haction⟩
    exact .action prepared haction
  | attempt d' identity hauthorized =>
    cases huse
    cases hauthorized with
    | action prepared approval consumed haction => exact .action prepared haction
    | collector action intent authorization haction hintent hdigest =>
      exact .collector action intent hintent hdigest
  | _ => cases huse

/-- A mutation stays recorded until it is retired. -/
theorem mutation (hs : l.Step profile body l' staged) {d : Digest}
    (hd : (l.externalMutations.get d).isSome) :
    (l'.externalMutations.get d).isSome ∨ body.retirement? = some d := by
  cases hs with
  | attempt d' => by_cases h : d = d' <;> simp [h, hd]
  | reconcile d' => by_cases h : d = d' <;> simp [h, hd]
  | voidAction d' =>
    by_cases h : d = d' <;> simp [Ledger.retireAction, EventBody.retirement?, h, hd]
  | voidCollector d' =>
    by_cases h : d = d' <;> simp [Ledger.retireCollector, EventBody.retirement?, h, hd]
  | supersede d' =>
    by_cases h : d = d' <;> simp [Ledger.retireAction, EventBody.retirement?, h, hd]
  | _ => exact .inl hd

/-- An attempt is recorded where none was. -/
theorem attempts (hs : l.Step profile body l' staged) {d key : Digest}
    (hattempt : body.attempt? = some (d, key)) :
    l.externalMutations.get d = none ∧ (l'.externalMutations.get d).isSome := by
  cases hs with
  | quiet body staged hquiet => cases body <;> simp_all [EventBody.Quiet, EventBody.attempt?]
  | attempt d' identity hauthorized hsettled hnew =>
    cases hattempt
    exact ⟨hnew, by simp⟩
  | _ => cases hattempt

/-- A retired digest is not live any more. -/
theorem retires (hs : l.Step profile body l' staged) (hindexed : l.Indexed profile)
    (hapart : l.Apart) {d : Digest} (hretired : body.retirement? = some d) :
    l.Live d ∧ ¬ l'.Live d := by
  have haction : ∀ kind prepared, l.actions.get d = some prepared →
      l.Live d ∧ ¬ (l.retireAction d kind prepared).Live d := by
    intro kind prepared haction
    refine ⟨.action prepared haction, ?_⟩
    rintro (⟨p, hp⟩ | ⟨action, intent, hintent, hdigest⟩)
    · exact (Map.get_delete_eq_some.mp hp).1 rfl
    · exact hapart.actions d prepared action intent haction hintent hdigest
  cases hs with
  | quiet body staged hquiet => cases body <;> simp_all [EventBody.Quiet, EventBody.retirement?]
  | voidAction d' proof kind prepared hmutation hpresent =>
    cases hretired
    exact haction kind prepared hpresent
  | supersede d' provider rpc authorization kind prepared broadcast staged hmutation hpresent =>
    cases hretired
    exact haction kind prepared hpresent
  | voidCollector d' proof action hmutation =>
    cases hretired
    rcases hmutation with ⟨mutation, hget, -, hkind⟩
    rcases hindexed.collected d mutation action hget hkind with ⟨intent, hintent, hdigest⟩
    refine ⟨.collector action intent hintent hdigest, ?_⟩
    rintro (⟨p, hp⟩ | ⟨action', intent', hintent', hdigest'⟩)
    · exact hapart.actions d p action intent hp hintent hdigest
    · rcases intent_retireCollector.mp hintent' with ⟨hother, hold⟩
      exact hother (hapart.intents action' action intent' intent hold hintent
        (hdigest'.trans hdigest.symm))
  | _ => cases hretired

end Ledger.Step

/-- An intent of a digest that is not live keeps the digests apart. -/
theorem Ledger.Apart.step (h : l.Apart) (hs : l.Step profile body l' staged)
    (hfresh : ∀ d, body.intent? = some d → ¬ l.Live d) : l'.Apart := by
  cases hs with
  | intent value action =>
    refine ⟨?_, h.intents⟩
    intro d prepared collector intent hd hintent hdigest
    rcases Map.get_set_eq_some.mp hd with ⟨rfl, -⟩ | ⟨-, hold⟩
    · exact hfresh _ rfl (.collector collector intent hintent hdigest)
    · exact h.actions d prepared collector intent hold hintent hdigest
  | collectorIntent action value intent hnew =>
    constructor
    · intro d prepared action' intent' hd hget hdigest
      rcases update_eq_some.mp hget with ⟨-, rfl⟩ | ⟨-, hold⟩
      · exact hfresh d (congrArg some hdigest) (.action prepared hd)
      · exact h.actions d prepared action' intent' hd hold hdigest
    · intro a a' i i' hi hi' hdigest
      rcases update_eq_some.mp hi with ⟨rfl, rfl⟩ | ⟨-, hold⟩
      · rcases update_eq_some.mp hi' with ⟨rfl, -⟩ | ⟨-, hold'⟩
        · rfl
        · exact absurd (.collector a' i' hold' hdigest.symm) (hfresh intent.requestDigest rfl)
      · rcases update_eq_some.mp hi' with ⟨rfl, rfl⟩ | ⟨-, hold'⟩
        · exact absurd (.collector a i hold hdigest) (hfresh intent.requestDigest rfl)
        · exact h.intents a a' i i' hold hold' hdigest
  | voidAction d proof kind prepared =>
    refine ⟨?_, h.intents⟩
    intro d' p action intent hp
    exact h.actions d' p action intent (Map.get_delete_eq_some.mp hp).2
  | supersede d provider rpc authorization kind prepared =>
    refine ⟨?_, h.intents⟩
    intro d' p action intent hp
    exact h.actions d' p action intent (Map.get_delete_eq_some.mp hp).2
  | voidCollector d proof action =>
    constructor
    · intro d' p action' intent' hp hget
      exact h.actions d' p action' intent' hp (intent_retireCollector.mp hget).2
    · intro a a' i i' hi hi'
      exact h.intents a a' i i' (intent_retireCollector.mp hi).2 (intent_retireCollector.mp hi').2
  | _ => exact ⟨h.actions, h.intents⟩

/-! ## What the history and the ledger have in common -/

/-- What is live, attempted or retired was named by an intent; what was attempted is recorded
or gone, and what was retired is gone. -/
structure Tracked (history : List Occurrence) (l : Ledger) : Prop where
  live : ∀ d, l.Live d → d ∈ said EventBody.intent? history
  apart : l.Apart
  attempted : ∀ d key, (d, key) ∈ said EventBody.attempt? history →
    d ∈ said EventBody.intent? history ∧ ((l.externalMutations.get d).isSome ∨ ¬ l.Live d)
  retired : ∀ d, d ∈ said EventBody.retirement? history →
    d ∈ said EventBody.intent? history ∧ ¬ l.Live d
  once : ((said EventBody.attempt? history).map Prod.fst).Nodup

variable {history : List Occurrence} {event : CycleEvent}

theorem FreshIntents.of_append {before after : List Occurrence}
    (h : FreshIntents (before ++ after)) : FreshIntents before := by
  rw [FreshIntents, said_append] at h
  exact (List.nodup_append.mp h).1

/-- The digest of a fresh intent is none of the earlier ones. -/
theorem FreshIntents.last (h : FreshIntents (history ++ [.own event])) {d : Digest}
    (hd : event.body.intent? = some d) : d ∉ said EventBody.intent? history := by
  rw [FreshIntents, said_own, hd] at h
  intro hmem
  exact (List.nodup_append.mp h).2.2 d hmem d (by simp) rfl

/-- **A step with a fresh intent keeps the history and the ledger together.** -/
theorem Tracked.step (h : Tracked history l) (hindexed : l.Indexed profile)
    (hs : l.Step profile event.body l' staged) (hfresh : FreshIntents (history ++ [.own event])) :
    Tracked (history ++ [.own event]) l' := by
  -- a digest that an earlier intent has named is not live again once it is gone
  have hgone : ∀ d, d ∈ said EventBody.intent? history → ¬ l.Live d → ¬ l'.Live d := by
    intro d hnamed hdead hlive
    rcases hs.live hlive with hold | hnew
    · exact hdead hold
    · exact hfresh.last hnew hnamed
  have hnamed : ∀ d, d ∈ said EventBody.intent? history →
      d ∈ said EventBody.intent? (history ++ [.own event]) := by
    intro d hd
    rw [said_own]
    exact List.mem_append_left _ hd
  have hapart : l'.Apart := by
    refine h.apart.step hs ?_
    intro d hd hlive
    exact hfresh.last hd (h.live d hlive)
  exact {
    live := by
      intro d hd
      rcases hs.live hd with hold | hnew
      · exact hnamed d (h.live d hold)
      · simp [hnew]
    apart := hapart
    attempted := by
      intro d key hmem
      rw [said_own, List.mem_append, Option.mem_toList] at hmem
      rcases hmem with hbefore | hnow
      · rcases h.attempted d key hbefore with ⟨hintent, hrecorded | hdead⟩
        · refine ⟨hnamed d hintent, ?_⟩
          rcases hs.mutation hrecorded with hkept | hretired
          · exact .inl hkept
          · exact .inr (hs.retires hindexed h.apart hretired).2
        · exact ⟨hnamed d hintent, .inr (hgone d hintent hdead)⟩
      · have huse : event.body.use? = some d := by
          cases hbody : event.body <;> simp_all [EventBody.attempt?, EventBody.use?]
        exact ⟨hnamed d (h.live d (hs.uses hindexed huse)), .inl (hs.attempts hnow).2⟩
    retired := by
      intro d hmem
      rw [said_own, List.mem_append, Option.mem_toList] at hmem
      rcases hmem with hbefore | hnow
      · rcases h.retired d hbefore with ⟨hintent, hdead⟩
        exact ⟨hnamed d hintent, hgone d hintent hdead⟩
      · rcases hs.retires hindexed h.apart hnow with ⟨hlive, hdead⟩
        exact ⟨hnamed d (h.live d hlive), hdead⟩
    once := by
      rw [said_own, List.map_append, List.nodup_append]
      refine ⟨h.once, ?_, ?_⟩
      · cases event.body.attempt? <;> simp
      · intro d hbefore d' hnow heq
        subst heq
        rcases List.mem_map.mp hbefore with ⟨⟨d', key⟩, hmem, rfl⟩
        rcases List.mem_map.mp hnow with ⟨⟨d'', key'⟩, hattempt, heq⟩
        dsimp only at heq
        subst heq
        rw [Option.mem_toList] at hattempt
        have hlive : l.Live d'' := by
          refine hs.uses hindexed ?_
          cases hbody : event.body <;> simp_all [EventBody.attempt?, EventBody.use?]
        rcases h.attempted d'' key hmem with ⟨-, hrecorded | hdead⟩
        · rw [(hs.attempts hattempt).1] at hrecorded
          exact absurd hrecorded (by simp)
        · exact hdead hlive }

/-! ## What the store keeps of the authorizations -/

/-- The store holds a key for a subject. -/
def EvidenceStore.Records (store : EvidenceStore) (key subject : Digest) : Prop :=
  ∃ record, store.authorizations.get key = some record ∧ record.subjectDigest = subject

section Store

variable {store store' : EvidenceStore} {cycleId : Text} {record : StoredAuthorization}

theorem commitAuthorization_get (h : store.commitAuthorization cycleId record = .ok store')
    (key : Digest) :
    store'.authorizations.get key
        = (if key = record.key then some record else store.authorizations.get key) ∧
      ∀ persisted, store.authorizations.get record.key = some persisted → persisted = record := by
  simp only [EvidenceStore.commitAuthorization, EvidenceStore.consumeAuthorization, bind_eq_ok,
    revertIf_eq_ok, exists_const, pure_eq_ok] at h
  rcases h with ⟨-, _, ⟨hsame, -, -⟩, rfl⟩
  refine ⟨by simp, ?_⟩
  intro persisted hget
  rw [hget] at hsame
  simpa using hsame

theorem commitReceipt_authorizations {receipt : StoredReceipt}
    (h : store.commitReceipt cycleId receipt = .ok store') :
    store'.authorizations = store.authorizations := by
  simp only [EvidenceStore.commitReceipt, bind_eq_ok, pure_eq_ok] at h
  rcases h with ⟨-, -, -, -, rfl⟩
  rfl

/-- A commit is that of the authorization, as far as the authorizations go. -/
theorem commit_authorizations (h : store.commit cycleId staged = .ok store') :
    (staged.authorization = none ∧ store'.authorizations = store.authorizations) ∨
      ∃ record authorized, staged.authorization = some record ∧
        store.commitAuthorization cycleId record = .ok authorized ∧
        store'.authorizations = authorized.authorizations := by
  unfold EvidenceStore.commit at h
  cases hstaged : staged.authorization with
  | none =>
    refine .inl ⟨rfl, ?_⟩
    cases hreceipt : staged.receipt with
    | none =>
      simp only [hstaged, hreceipt, pure_bind, pure_eq_ok] at h
      rw [h]
    | some receipt =>
      simp only [hstaged, hreceipt, pure_bind] at h
      exact commitReceipt_authorizations h
  | some record =>
    simp only [hstaged, bind_eq_ok] at h
    rcases h with ⟨authorized, hauthorized, h⟩
    refine .inr ⟨record, authorized, rfl, hauthorized, ?_⟩
    cases hreceipt : staged.receipt with
    | none =>
      simp only [hreceipt, pure_eq_ok] at h
      rw [h]
    | some receipt =>
      simp only [hreceipt] at h
      exact commitReceipt_authorizations h

/-- What has been consumed once is held for the same evidence ever after. -/
theorem commit_keeps (h : store.commit cycleId staged = .ok store') {key : Digest}
    (hget : store.authorizations.get key = some record) :
    store'.authorizations.get key = some record := by
  rcases commit_authorizations h with ⟨-, heq⟩ | ⟨new, authorized, -, hauthorized, heq⟩
  · rw [heq, hget]
  · rcases commitAuthorization_get hauthorized key with ⟨hnow, hsame⟩
    rw [heq, hnow]
    by_cases hkey : key = new.key
    · subst hkey
      rw [if_pos rfl, hsame record hget]
    · rw [if_neg hkey, hget]

/-- What an event stages is held after its commit. -/
theorem commit_records (h : store.commit cycleId staged = .ok store')
    (hstaged : staged.authorization = some record) :
    store'.authorizations.get record.key = some record := by
  rcases commit_authorizations h with ⟨hnone, -⟩ | ⟨new, authorized, hnew, hauthorized, heq⟩
  · rw [hstaged] at hnone
    cases hnone
  · rw [hstaged, Option.some.injEq] at hnew
    subst hnew
    rw [heq, (commitAuthorization_get hauthorized record.key).1, if_pos rfl]

theorem EvidenceStore.Records.commit {key subject : Digest} (h : store.Records key subject)
    (hcommit : store.commit cycleId staged = .ok store') : store'.Records key subject := by
  rcases h with ⟨record, hget, hsubject⟩
  exact ⟨record, commit_keeps hcommit hget, hsubject⟩

end Store

variable (profile) in
/-- Every authorization that the ledger holds or a history has used is in the store, for the
digest that it authorizes. -/
structure Recorded (history : List Occurrence) (w : World) : Prop where
  approvals : ∀ d kind consumed, w.state.ledger.consumedApprovals.get (d, kind) = some consumed →
    w.store.Records consumed.approvalKey consumed.subjectDigest
  collector : ∀ action authorization,
    w.state.ledger.authorizations.get action = some authorization →
    w.store.Records (profile.mutationAuthorizationDigest authorization) authorization.requestDigest
  attempted : ∀ d key, (d, key) ∈ said EventBody.attempt? history → w.store.Records key d

/-- The authorization of an attempt is in the store, for the digest that is attempted. -/
theorem Recorded.authorized {w : World} (h : Recorded profile history w)
    (hindexed : w.state.ledger.Indexed profile) {d : Digest} {identity : MutationIdentity}
    (hauthorized : w.state.ledger.Authorized profile d identity) :
    w.store.Records identity.authorizationKey d := by
  cases hauthorized with
  | action prepared approval consumed haction happroval hconsumed hsubject hkey =>
    have hrecords := h.approvals d .mutation consumed hconsumed
    rcases hindexed.consumed d .mutation consumed hconsumed with ⟨a, ha, -, hsame⟩
    rw [happroval, Option.some.injEq] at ha
    subst ha
    rwa [hkey, hsame, hsubject] at hrecords
  | collector action intent authorization haction hintent hdigest hauthorization hrequest =>
    have hrecords := h.collector action authorization hauthorization
    rwa [hrequest] at hrecords

/-- **An event and its commit keep the authorizations in the store.** -/
theorem Recorded.own {w w' : World} (h : Recorded profile history w)
    (hindexed : w.state.ledger.Indexed profile)
    (hs : w.state.ledger.Step profile event.body w'.state.ledger staged)
    (hcommit : w.store.commit w.state.cycleId staged = .ok w'.store) :
    Recorded profile (history ++ [.own event]) w' := by
  have hattempted : ∀ d key, (d, key) ∈ said EventBody.attempt? (history ++ [.own event]) →
      w'.store.Records key d := by
    intro d key hmem
    rw [said_own, List.mem_append, Option.mem_toList] at hmem
    rcases hmem with hbefore | hnow
    · exact (h.attempted d key hbefore).commit hcommit
    · have hrecords : w.store.Records key d := by
        generalize hbody : event.body = body at hs hnow
        generalize w'.state.ledger = next at hs
        cases hs with
        | quiet body staged hquiet => cases body <;> simp_all [EventBody.Quiet, EventBody.attempt?]
        | attempt d' identity hauthorized =>
          cases hnow
          exact h.authorized hindexed hauthorized
        | _ => cases hnow
      exact hrecords.commit hcommit
  have hkept : (∀ d kind consumed,
        w.state.ledger.consumedApprovals.get (d, kind) = some consumed →
        w'.store.Records consumed.approvalKey consumed.subjectDigest) ∧
      ∀ action authorization, w.state.ledger.authorizations.get action = some authorization →
        w'.store.Records (profile.mutationAuthorizationDigest authorization)
          authorization.requestDigest :=
    ⟨fun d kind consumed hget => (h.approvals d kind consumed hget).commit hcommit,
      fun action authorization hget => (h.collector action authorization hget).commit hcommit⟩
  suffices hnow : (∀ d kind consumed,
        w'.state.ledger.consumedApprovals.get (d, kind) = some consumed →
        w'.store.Records consumed.approvalKey consumed.subjectDigest) ∧
      ∀ action authorization, w'.state.ledger.authorizations.get action = some authorization →
        w'.store.Records (profile.mutationAuthorizationDigest authorization)
          authorization.requestDigest from ⟨hnow.1, hnow.2, hattempted⟩
  rcases hkept with ⟨happrovals, hcollector⟩
  generalize event.body = body at hs
  generalize w'.state.ledger = next at hs
  cases hs with
  | consumption d kind subject key validatedAt approval record happroval hkey hsubject hnew hrecord =>
    refine ⟨?_, hcollector⟩
    intro d' kind' consumed hget
    rcases Map.get_set_eq_some.mp hget with ⟨-, rfl⟩ | ⟨-, hold⟩
    · exact ⟨record, hrecord.1 ▸ commit_records hcommit rfl, hrecord.2⟩
    · exact happrovals d' kind' consumed hold
  | collectorAuthorization value binding input intent authorization hintent hdigest hkey hnew =>
    refine ⟨happrovals, ?_⟩
    intro action a hget
    rcases Map.get_set_eq_some.mp hget with ⟨-, rfl⟩ | ⟨-, hold⟩
    · exact ⟨_, hkey ▸ commit_records hcommit rfl, profile.storeRecord_subject authorization _⟩
    · exact hcollector action a hold
  | voidAction =>
    exact ⟨fun d kind consumed hget =>
      happrovals d kind consumed (get_deleteSlots.mp hget).2, hcollector⟩
  | supersede =>
    exact ⟨fun d kind consumed hget =>
      happrovals d kind consumed (get_deleteSlots.mp hget).2, hcollector⟩
  | voidCollector =>
    exact ⟨happrovals, fun action a hget =>
      hcollector action a (Map.get_delete_eq_some.mp hget).2⟩
  | _ => exact ⟨happrovals, hcollector⟩

/-! ## Whole histories -/

variable {store : EvidenceStore} {cycleId : Text} {w : World}

theorem tracked_beginning : Tracked [] (World.beginning store cycleId).state.ledger := by
  have hdead : ∀ d, ¬ (World.beginning store cycleId).state.ledger.Live d := by
    rintro d (⟨prepared, haction⟩ | ⟨action, intent, hintent, -⟩)
    · simp [World.beginning, State.ledger, createCycleReducerState] at haction
    · cases action <;> cases hintent
  exact {
    live := fun d hlive => absurd hlive (hdead d)
    apart := ⟨fun d prepared action intent haction => absurd (.action prepared haction) (hdead d),
      fun action _ intent _ hintent =>
        absurd (.collector action intent hintent rfl) (hdead intent.requestDigest)⟩
    attempted := by simp
    retired := by simp
    once := by simp }

theorem recorded_beginning : Recorded profile [] (World.beginning store cycleId) := by
  constructor <;>
    intros <;> simp_all [World.beginning, State.ledger, createCycleReducerState]

/-- Every journal with fresh intents is tracked by its ledger. -/
theorem journal_tracked (hfresh : FreshIntents history)
    (h : journal profile (World.beginning store cycleId) history = .ok w) :
    Tracked history w.state.ledger := by
  refine (history_induction
    (J := fun before w => FreshIntents before → Tracked before w.state.ledger)
    (P := fun _ _ => True) (fun _ => tracked_beginning) ?_ (fun _ _ _ _ _ _ => trivial) h) hfresh
  intro before m occurrence m' hbefore hm _ hadvance hfresh
  cases occurrence with
  | own event =>
    rcases advance_own hadvance with ⟨staged, hs, -⟩
    exact (hm hfresh.of_append).step (journal_indexed hbefore) hs hfresh
  | elsewhere otherId staged =>
    have hsame := hm hfresh.of_append
    rw [(advance_elsewhere hadvance).1]
    refine ⟨?_, hsame.apart, ?_, ?_, ?_⟩ <;> simp only [said_elsewhere]
    exacts [hsame.live, hsame.attempted, hsame.retired, hsame.once]

/-- The authorizations of every journal are in its store. -/
theorem journal_recorded
    (h : journal profile (World.beginning store cycleId) history = .ok w) :
    Recorded profile history w := by
  refine history_induction (P := fun _ _ => True) recorded_beginning ?_
    (fun _ _ _ _ _ _ => trivial) h
  intro before m occurrence m' hbefore hm _ hadvance
  cases occurrence with
  | own event =>
    rcases advance_own hadvance with ⟨staged, hs, hcommit⟩
    exact hm.own (journal_indexed hbefore) hs hcommit
  | elsewhere otherId staged =>
    rcases advance_elsewhere hadvance with ⟨hstate, hcommit⟩
    constructor
    · intro d kind consumed hget
      rw [hstate] at hget
      exact (hm.approvals d kind consumed hget).commit hcommit
    · intro action authorization hget
      rw [hstate] at hget
      exact (hm.collector action authorization hget).commit hcommit
    · intro d key hmem
      rw [said_elsewhere] at hmem
      exact (hm.attempted d key hmem).commit hcommit

/-- **In a history with fresh intents every digest and every authorization is used once, and a
retired digest never again.** -/
theorem singleUse_of_freshIntents (profile : EvidenceProfile) (store : EvidenceStore)
    (cycleId : Text) (history : List Occurrence) (w : World)
    (haccepted : journal profile (World.beginning store cycleId) history = .ok w)
    (hfresh : FreshIntents history) : SingleUse history := by
  have htracked := journal_tracked hfresh haccepted
  have hrecorded := journal_recorded haccepted
  constructor
  · exact htracked.once
  · -- two attempts under one authorization are attempts of the digest that it authorizes
    refine List.Nodup.map_on ?_ htracked.once.of_map
    intro x hx y hy hkey
    rcases hrecorded.attempted x.1 x.2 hx with ⟨record, hget, hsubject⟩
    rcases hrecorded.attempted y.1 y.2 hy with ⟨record', hget', hsubject'⟩
    rw [hkey, hget', Option.some.injEq] at hget
    subst hget
    exact Prod.ext (hsubject.symm.trans hsubject') hkey
  · intro before event after d hsplit hretired later hlater huse
    rcases List.append_of_mem hlater with ⟨mid, rest, rfl⟩
    have hsplit' : history = (before ++ .own event :: mid) ++ .own later :: rest := by
      simp [hsplit]
    subst hsplit'
    rcases accepts_append.mp haccepted with ⟨m, hbefore, hafter⟩
    rcases accepts_cons.mp hafter with ⟨m', hadvance, -⟩
    rcases advance_own hadvance with ⟨staged, hs, -⟩
    have hlive := hs.uses (journal_indexed hbefore) huse
    refine ((journal_tracked hfresh.of_append hbefore).retired d ?_).2 hlive
    exact mem_said_of _ (List.mem_append_right before List.mem_cons_self) hretired

/-! ## A history that comes back to a digest -/

/-- A profile that finds all evidence genuine and takes the digests from what the records carry;
the digest of an action is the height up to which it is valid. -/
def sampleProfile : EvidenceProfile where
  voidObserverProofDigest proof := proof.verificationDigest
  supersedeObserverEvidenceDigest evidence := evidence.evidenceDigest
  fixtureSupersessionAuthorizationDigest authorization := authorization.fixtureApprovalDigest
  supersessionNonceKey nonce := BitVec.ofNat 256 nonce.length
  supersessionCommitment authorization := authorization.fixtureApprovalDigest
  verifySignature _ _ _ := true
  generateResponseDigest _ := 1
  openCustodyEvidenceDigest custody := BitVec.ofNat 256 custody.blockHeight
  rpcFinalityEvidenceDigest _ := 2
  releaseEvidenceDigest evidence := BitVec.ofNat 256 evidence.chainId
  statusRecordDigest _ := 3
  ledgerDigest content := content.closedJournalHead
  proceedsKey _ ledger := ledger.ledgerDigest
  closedProceedsBasisDigest _ _ ledger := ledger.ledgerDigest
  vaultPayoutAuthorizationDigest authorization := authorization.payoutId
  vaultPayoutKey d := d
  vaultPayoutNonceKey d := d
  vaultPayoutCommitment _ d := d
  replayKey _ _ d := d
  fundingIntent funding _ := funding.payoutId
  validatedAt := 0
  assertFrozenCycleControl control := .ok control
  verifyDistributionVerificationReceipt receipt := .ok receipt
  validateVaultPayoutAuthorization authorization := .ok authorization
  assertAction action := .ok action
  actionDigests action := ⟨BitVec.ofNat 256 action.validity.lastValidHeight, 0, 0, 0⟩
  verifyPreflight _ preflight := .ok preflight
  verifyStepAuthorization _ approval := .ok approval
  resolveActionDigest actionByKind approval := actionByKind.get approval.actionKind
  matchApproval _ _ := .ok ()
  approvalKey approval := approval.approvalDigest
  attempt approval := approval.attempt
  storeRecord approval validatedAt := .ok
    { key := approval.approvalDigest
      nonceKey := approval.approvalDigest
      cycleId := approval.cycleId
      actionKind := .action approval.actionKind
      authorizationKind := .step approval.authorizationKind
      actionDigest := approval.actionDigest
      subjectDigest := approval.subjectDigest
      commitment := approval.approvalDigest
      validatedAt := validatedAt }
  messageForAction action _ _ := ⟨action.sourceAccount, action.details⟩
  decodeMessage messageBytes := .ok ⟨[], messageBytes⟩
  messageDigest message := BitVec.ofNat 256 message.details.length
  verifySignedTransaction _ signedBytes _ := .ok signedBytes
  signedBytesDigest messageDigest _ := messageDigest
  verifyBlockhashValidity _ evidence := .ok evidence
  verifyReceipt _ receipt := .ok receipt
  receiptDigest receipt := BitVec.ofNat 256 receipt.blockHeight
  identityKey receipt := BitVec.ofNat 256 receipt.blockHeight
  registryRecord receipt receiptDigest :=
    { key := receiptDigest
      provider := []
      providerReceiptId := []
      cycleId := []
      actionKind := receipt.actionKind
      receiptDigest := receiptDigest
      receiptCommitment := receiptDigest }
  receiptRelationship _ _ _ := .ok ()
  verifyExecutionAccounting _ evidence := .ok evidence
  assertRequest request _ := .ok request
  requestDigest request _ := BitVec.ofNat 256 request.memo.length
  verifyMutationAuthorization _ input request _ _ := .ok
    { cycleId := request.cycleId
      requestDigest := BitVec.ofNat 256 request.memo.length
      prizeWallet := []
      attempt := 1
      expiry := some 0
      authorizationDigest := BitVec.ofNat 256 request.memo.length
      details := input.details }
  mutationAuthorizationDigest authorization := authorization.authorizationDigest
  mutationAuthorizationStoreRecord authorization action :=
    { key := authorization.authorizationDigest
      nonceKey := authorization.authorizationDigest
      cycleId := authorization.cycleId
      actionKind := .collector action
      authorizationKind := .step .mutation
      actionDigest := authorization.requestDigest
      subjectDigest := authorization.requestDigest
      commitment := authorization.authorizationDigest
      validatedAt := 0 }
  storeRecord_subject _ _ := rfl
  assertVerifiedStatus _ status := .ok status
  assertVerifiedOpenExecution _ execution := .ok execution
  assertVerifiedOpenCustody _ custody := .ok custody
  assertVerifiedRpcFinality _ finality _ := .ok finality
  acceptsOpenCustodyNftMint _ := true
  acceptsGenerateResponse _ _ := true
  verifyPostOpenBuyback _ approval := .ok approval
  resolveBuybackDigest actionByKind _ := actionByKind.get .buyback
  prizeWallet approval _ := approval.collectorPrizeWallet
  refundAmount approval := approval.refundAmount
  matchPolicy approval prepared _ _ := revertIf
    (approval.actionDigest ≠ prepared.digests.actionDigest)
    "buyback policy is bound to another action"
  postOpenStoreRecord approval actionDigest :=
    { key := approval.approvalDigest
      nonceKey := approval.approvalDigest
      cycleId := approval.cycleId
      actionKind := .action .buyback
      authorizationKind := .buybackPolicy
      actionDigest := actionDigest
      subjectDigest := actionDigest
      commitment := approval.approvalDigest
      validatedAt := 0 }

/-- Events one after the other, each of which may look at the head before it. -/
def sampleEvents (head : Option Digest) (next : Nat) :
    List (Option Digest → EventBody) → List Occurrence
  | [] => []
  | body :: rest =>
    .own ⟨[], head, BitVec.ofNat 256 next, body head, 0⟩
      :: sampleEvents (some (BitVec.ofNat 256 next)) (next + 1) rest

def samplePreflight : Preflight where
  cycleId := []
  preflightDigest := 0
  requirementsRevision := 0
  operationsTrigger := []
  cycleVaultAccount := []
  policyAccount := []
  returnAccount := []
  releasedAmount := 10
  totalPrincipal := 10
  spendCap := 10
  nativeGasCaps := ⟨5, 5⟩
  minimumReceives := ⟨0, 0, 0, 0⟩
  hook := []
  usdg := []
  bindingManifestDigest := 0
  releaseEvidence := ⟨0, []⟩
  details := []

def sampleAction (kind : ActionKind) (lastValidHeight : Nat) : Action where
  cycleId := []
  actionKind := kind
  binding := ⟨[], 1, false, [], [], []⟩
  preflightDigest := 0
  operationsTrigger := []
  cycleVaultAccount := []
  policyAccount := []
  returnAccount := []
  sourceAccount := []
  destination := []
  mint := []
  tokenAccount := []
  feePayer := []
  principalAmount := 10
  minimumReceive := 0
  nativeGasAmount := 2
  amount := 10
  validity := ⟨[], 1, lastValidHeight⟩
  details := []

/-- The approval of one step, and its consumption. -/
def sampleApproved (kind : ActionKind) (d subject key : Digest)
    (authorizationKind : AuthorizationKind) : List (Option Digest → EventBody) :=
  [fun _ => .ownerApprovalRecorded ⟨[], kind, authorizationKind, d, subject, 1, key, []⟩,
    fun _ => .ownerApprovalConsumed d authorizationKind subject key 0]

/-- An action is prepared, approved and attempted. -/
def sampleAttempt (kind : ActionKind) (lastValidHeight : Nat) (key : Digest) :
    List (Option Digest → EventBody) :=
  let d := BitVec.ofNat 256 lastValidHeight
  (fun _ => .intentPrepared (sampleAction kind lastValidHeight) ⟨d, 0, 0, 0⟩)
    :: sampleApproved kind d d key .mutation
    ++ [fun _ => .externalMutationAttempted d ⟨.action kind, 1, key⟩]

/-- An attempt is voided once its height has passed. -/
def sampleVoid (kind : ActionKind) (lastValidHeight : Nat) : Option Digest → EventBody :=
  fun _ => .externalMutationVoided (BitVec.ofNat 256 lastValidHeight)
    ⟨[], BitVec.ofNat 256 lastValidHeight, .action kind,
      .height lastValidHeight (lastValidHeight + 1), true, true, 0, []⟩

def emptyStore : EvidenceStore := ⟨.empty, .empty, .empty⟩

/-- The outbound action is attempted and voided, and the action up to some height follows it. -/
def replacedHistory (lastValidHeight : Nat) (key : Digest) : List Occurrence :=
  sampleEvents none 0
    ((fun _ => .cyclePreflightRecorded samplePreflight 0) :: sampleAttempt .outbound 100 7
      ++ sampleVoid .outbound 100 :: sampleAttempt .outbound lastValidHeight key)

theorem ok_of_toBool {ε α : Type} {x : Except ε α} (h : x.toBool = true) : ∃ a, x = .ok a := by
  cases x with
  | error e => cases h
  | ok a => exact ⟨a, rfl⟩

theorem ok_of_any {ε α : Type} {x : Except ε α} {p : α → Bool} (h : x.toOption.any p = true) :
    ∃ a, x = .ok a ∧ p a = true := by
  cases x with
  | error e => cases h
  | ok a => exact ⟨a, rfl, h⟩

/-- Another action after the voided one, under another approval. -/
theorem replacedHistory_singleUse : SingleUse (replacedHistory 200 8) := by
  have haccepted : (journal sampleProfile (World.beginning emptyStore [])
      (replacedHistory 200 8)).toBool = true := by decide +kernel
  rcases ok_of_toBool haccepted with ⟨w, hw⟩
  exact singleUse_of_freshIntents sampleProfile emptyStore [] (replacedHistory 200 8) w hw
    (by unfold FreshIntents; decide +kernel)

/-- The voided action once more: its approval is recorded and consumed again, and the same
digest is attempted again. -/
theorem replacedHistory_repeats :
    (∃ w, journal sampleProfile (World.beginning emptyStore []) (replacedHistory 100 7) = .ok w) ∧
      ¬ SingleUse (replacedHistory 100 7) := by
  have haccepted : (journal sampleProfile (World.beginning emptyStore [])
      (replacedHistory 100 7)).toBool = true := by decide +kernel
  refine ⟨ok_of_toBool haccepted, ?_⟩
  intro h
  have hrepeated : ¬ ((said EventBody.attempt? (replacedHistory 100 7)).map Prod.fst).Nodup := by
    decide +kernel
  exact hrepeated h.digests

end Hookemon.Runner.CycleReducer
