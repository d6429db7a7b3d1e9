import Hookemon.Collector.Deliveries
import Hookemon.Collector.PackLifecycle

/-! # The rows of a feed

A ledger and stages that pass give one trusted operation for every request, and an
observation of every pack that has a lifecycle and a time. The collector reads an observation
as an event of that pack.
-/

namespace Hookemon.Collector

open Hookemon.Core Hookemon.Js

/-! ## The ledger -/

theorem mapM_eq_ok_iff {ε α β : Type} {f : α → Except ε β} {xs : List α} {ys : List β} :
    xs.mapM f = .ok ys ↔ List.Forall₂ (fun x y => f x = .ok y) xs ys := by
  induction xs generalizing ys with
  | nil =>
    rw [List.mapM_nil, pure_eq_ok, List.forall₂_nil_left_iff]
    exact eq_comm
  | cons x xs ih =>
    rw [List.mapM_cons, List.forall₂_cons_left_iff]
    constructor
    · intro h
      obtain ⟨y, hy, hrest⟩ := bind_eq_ok.mp h
      obtain ⟨zs, hzs, hys⟩ := bind_eq_ok.mp hrest
      exact ⟨y, zs, hy, ih.mp hzs, (pure_eq_ok.mp hys).symm⟩
    · rintro ⟨y, zs, hy, hzs, rfl⟩
      rw [hy, ok_bind, ih.mpr hzs]
      rfl

/-- The memo of a request, as a text. -/
def memoOf (request : Value) : Text := stringOf (request.get (text "memo"))

theorem eq_string_of_nonEmpty {value : Value} (h : isNonEmptyString value) :
    value = .string (stringOf value) ∧ stringOf value ≠ [] := by
  cases value with
  | string s => exact ⟨rfl, by simpa [isNonEmptyString, stringOf] using h⟩
  | _ => cases h

/-- The memos of a ledger that passes are different texts that are not empty. -/
theorem requestsValid_memos {index : Nat} {seenMemos : List Text} {requests : List Value}
    (h : requestsValid index seenMemos requests) :
    (∀ request ∈ requests, isNonEmptyString (request.get (text "memo")) ∧
      memoOf request ∉ seenMemos) ∧ (requests.map memoOf).Nodup := by
  induction requests generalizing index seenMemos with
  | nil => exact ⟨fun request hrequest => (by cases hrequest), List.nodup_nil⟩
  | cons request requests ih =>
    rw [requestsValid, Bool.and_eq_true, Bool.and_eq_true, Bool.and_eq_true] at h
    obtain ⟨⟨⟨-, hmemo⟩, hfresh⟩, hrest⟩ := h
    obtain ⟨hmemos, hnodup⟩ := ih hrest
    have hfresh : memoOf request ∉ seenMemos := of_decide_eq_true hfresh
    refine ⟨fun r hr => ?_, ?_⟩
    · rcases List.mem_cons.mp hr with rfl | hr
      · exact ⟨hmemo, hfresh⟩
      · exact ⟨(hmemos r hr).1, fun hseen => (hmemos r hr).2 (List.mem_cons_of_mem _ hseen)⟩
    · rw [List.map_cons, List.nodup_cons]
      refine ⟨fun hmem => ?_, hnodup⟩
      obtain ⟨r, hr, hsame⟩ := List.mem_map.mp hmem
      exact (hmemos r hr).2 (hsame ▸ List.mem_cons_self)

theorem packBatchRequestPacksValid_eq_some {packs : Value} {requests : List Value}
    (h : packBatchRequestPacksValid packs = some requests) :
    packs = .array requests ∧ requests ≠ [] ∧ requestsValid 0 [] requests := by
  cases packs with
  | array xs =>
    rw [packBatchRequestPacksValid] at h
    split at h
    · cases h
      exact ⟨rfl, ‹_›⟩
    · cases h
  | _ => cases h

/-! ## What a build gives -/

/-- A ledger and stages that pass the checks of the feed. -/
structure Passes (input : FeedInput) (time : Nat) (requests : List Value) (s : CompleteStages) :
    Prop where
  cycleId : input.cycleId ≠ []
  time : safeIndex input.purchaseRequestedAtMs = some time
  ledger : packBatchRequestPacksValid input.packBatchRequestPacks = some requests
  stages : validateCompleteStages requests input.stages = .ok (some s)

theorem Passes.array {input : FeedInput} {time : Nat} {requests : List Value} {s : CompleteStages}
    (h : Passes input time requests s) : input.packBatchRequestPacks = .array requests :=
  (packBatchRequestPacksValid_eq_some h.ledger).1

theorem Passes.ne_nil {input : FeedInput} {time : Nat} {requests : List Value} {s : CompleteStages}
    (h : Passes input time requests s) : requests ≠ [] :=
  (packBatchRequestPacksValid_eq_some h.ledger).2.1

theorem Passes.memo {input : FeedInput} {time : Nat} {requests : List Value} {s : CompleteStages}
    (h : Passes input time requests s) {request : Value} (hrequest : request ∈ requests) :
    request.get (text "memo") = .string (memoOf request) ∧ memoOf request ≠ [] :=
  eq_string_of_nonEmpty
    ((requestsValid_memos (packBatchRequestPacksValid_eq_some h.ledger).2.2).1 request hrequest).1

theorem Passes.distinct {input : FeedInput} {time : Nat} {requests : List Value}
    {s : CompleteStages} (h : Passes input time requests s) : (requests.map memoOf).Nodup :=
  (requestsValid_memos (packBatchRequestPacksValid_eq_some h.ledger).2.2).2

theorem Passes.validated {input : FeedInput} {time : Nat} {requests : List Value}
    {s : CompleteStages} (h : Passes input time requests s) : Validated requests input.stages s :=
  Collector.validated h.stages

theorem build_passes {input : FeedInput} {time : Nat} {requests : List Value} {s : CompleteStages}
    (h : Passes input time requests s) {feed : DurableCardFeed} :
    buildDurableCardFeed input = .ok feed ↔ ∃ rows,
      List.Forall₂ (fun request row => feedRow input time s request = .ok row) requests.zipIdx rows ∧
        feed = { trustedOperations := rows.map Prod.fst
                 observations := rows.filterMap Prod.snd } := by
  rw [buildDurableCardFeed, throwIf_of_not h.cycleId, ok_bind, h.time, h.ledger]
  show (validateCompleteStages requests input.stages >>= fun validatedStages => _) = _ ↔ _
  rw [h.stages, ok_bind]
  show (requests.zipIdx.mapM (feedRow input time s) >>= fun rows => _) = _ ↔ _
  rw [bind_eq_ok]
  refine exists_congr fun rows => ?_
  rw [mapM_eq_ok_iff, pure_eq_ok, eq_comm (a := feed)]

/-- A build that returns either was rejected or comes from a ledger and stages that pass. -/
theorem build_cases {input : FeedInput} {feed : DurableCardFeed}
    (h : buildDurableCardFeed input = .ok feed) :
    (feed = { trustedOperations := [], observations := [] } ∧ ∀ requests,
        packBatchRequestPacksValid input.packBatchRequestPacks = some requests →
          validateCompleteStages requests input.stages = .ok none) ∨
      ∃ time requests s, Passes input time requests s := by
  rw [buildDurableCardFeed] at h
  obtain ⟨_, hcycle, h⟩ := bind_eq_ok.mp h
  obtain ⟨time, htime, h⟩ := bind_eq_ok.mp h
  have hcycle := revertIf_eq_ok.mp hcycle
  have htime : safeIndex input.purchaseRequestedAtMs = some time := by
    cases hindex : safeIndex input.purchaseRequestedAtMs with
    | none => rw [hindex] at htime; cases htime
    | some n => rw [hindex] at htime; cases htime; rfl
  cases hledger : packBatchRequestPacksValid input.packBatchRequestPacks with
  | none =>
    rw [hledger] at h
    exact .inl ⟨(pure_eq_ok.mp h).symm, fun requests hrequests => (by cases hrequests)⟩
  | some requests =>
    rw [hledger] at h
    obtain ⟨validatedStages, hstages, h⟩ := bind_eq_ok.mp h
    cases validatedStages with
    | none =>
      refine .inl ⟨(pure_eq_ok.mp h).symm, fun requests' hrequests => ?_⟩
      cases hrequests
      exact hstages
    | some s => exact .inr ⟨time, requests, s, hcycle, htime, hledger, hstages⟩

/-- A ledger or stages that do not pass give an empty feed. -/
theorem build_rejected {input : FeedInput} {time : Nat} (hcycle : input.cycleId ≠ [])
    (htime : safeIndex input.purchaseRequestedAtMs = some time)
    (h : ∀ requests, packBatchRequestPacksValid input.packBatchRequestPacks = some requests →
      validateCompleteStages requests input.stages = .ok none) :
    buildDurableCardFeed input = .ok { trustedOperations := [], observations := [] } := by
  rw [buildDurableCardFeed, throwIf_of_not hcycle, ok_bind, htime]
  cases hledger : packBatchRequestPacksValid input.packBatchRequestPacks with
  | none => rfl
  | some requests =>
    show (validateCompleteStages requests input.stages >>= fun validatedStages => _) = _
    rw [h requests hledger]
    rfl

/-- The observation of one request, if its pack has a lifecycle and a time. -/
def shownOf (input : FeedInput) (time : Nat) (s : CompleteStages) (request : Value × Nat) :
    Option Value :=
  (resolvePackLifecycle request.2 s).bind fun lifecycle =>
    ((observationTimes input time request.2 lifecycle).toOption.bind id).map
      (observationOf input time request.2 (request.1.get (text "memo")) lifecycle)

/-- The trusted operation of a request, and its observation if it has one. -/
theorem feedRow_eq_ok {input : FeedInput} {time : Nat} {s : CompleteStages}
    {request : Value × Nat} {row : (Text × Value) × Option Value}
    (h : feedRow input time s request = .ok row) :
    row.1 = (memoOf request.1, trustedRecord input request.2 (resolvePackLifecycle request.2 s)) ∧
      row.2 = shownOf input time s request := by
  rw [feedRow] at h
  rw [shownOf]
  cases hlifecycle : resolvePackLifecycle request.2 s with
  | none =>
    rw [hlifecycle] at h
    cases pure_eq_ok.mp h
    exact ⟨rfl, rfl⟩
  | some lifecycle =>
    rw [hlifecycle] at h
    obtain ⟨times, htimes, hrow⟩ := bind_eq_ok.mp h
    cases pure_eq_ok.mp hrow
    refine ⟨rfl, ?_⟩
    rw [Option.bind_some, htimes]
    rfl

theorem exists_feedRow {input : FeedInput} {time : Nat} {s : CompleteStages}
    {request : Value × Nat} :
    (∃ row, feedRow input time s request = .ok row) ↔
      ∀ lifecycle, resolvePackLifecycle request.2 s = some lifecycle →
        ∃ times, observationTimes input time request.2 lifecycle = .ok times := by
  rw [feedRow]
  cases hlifecycle : resolvePackLifecycle request.2 s with
  | none => exact ⟨fun _ l hl => (by cases hl), fun _ => ⟨_, rfl⟩⟩
  | some lifecycle =>
    constructor
    · rintro ⟨row, hrow⟩ l hl
      cases hl
      obtain ⟨times, htimes, -⟩ := bind_eq_ok.mp hrow
      exact ⟨times, htimes⟩
    · intro h
      obtain ⟨times, htimes⟩ := h lifecycle rfl
      exact ⟨_, bind_eq_ok.mpr ⟨times, htimes, rfl⟩⟩

section

variable {input : FeedInput} {time : Nat} {requests : List Value} {s : CompleteStages}
  (h : Passes input time requests s)

include h

/-- A build returns when every pack that has a lifecycle can be given a time. -/
theorem build_returns_iff :
    (∃ feed, buildDurableCardFeed input = .ok feed) ↔ ∀ i < requests.length, ∀ lifecycle,
      resolvePackLifecycle i s = some lifecycle →
        ∃ times, observationTimes input time i lifecycle = .ok times := by
  have hrows : (∃ feed, buildDurableCardFeed input = .ok feed) ↔
      ∀ request ∈ requests.zipIdx, ∃ row, feedRow input time s request = .ok row := by
    constructor
    · rintro ⟨feed, hfeed⟩ request hrequest
      obtain ⟨rows, hrows, -⟩ := (build_passes h).mp hfeed
      obtain ⟨j, hj, rfl⟩ := List.getElem_of_mem hrequest
      exact ⟨_, hrows.get hj (hrows.length_eq ▸ hj)⟩
    · intro hall
      have hrows : ∃ rows, List.Forall₂ (fun request row =>
          feedRow input time s request = .ok row) requests.zipIdx rows := by
        -- the rows are made one by one: induction on the packs that are left
        generalize requests.zipIdx = indexed at hall
        induction indexed with
        | nil => exact ⟨[], .nil⟩
        | cons request indexed ih =>
          obtain ⟨row, hrow⟩ := hall request List.mem_cons_self
          obtain ⟨rows, hrest⟩ := ih fun r hr => hall r (List.mem_cons_of_mem _ hr)
          exact ⟨row :: rows, .cons hrow hrest⟩
      obtain ⟨rows, hrows⟩ := hrows
      exact ⟨_, (build_passes h).mpr ⟨rows, hrows, rfl⟩⟩
  rw [hrows]
  constructor
  · intro hall i hi lifecycle hlifecycle
    have hmem : (requests[i], i) ∈ requests.zipIdx :=
      List.mem_zipIdx_iff_getElem?.mpr (List.getElem?_eq_getElem hi)
    exact exists_feedRow.mp (hall _ hmem) lifecycle hlifecycle
  · intro hall request hrequest
    have hi : request.2 < requests.length :=
      (List.getElem?_eq_some_iff.mp (List.mem_zipIdx_iff_getElem?.mp hrequest)).1
    exact exists_feedRow.mpr (hall request.2 hi)

variable {feed : DurableCardFeed} (hbuild : buildDurableCardFeed input = .ok feed)

include hbuild

theorem trustedOperations_eq :
    feed.trustedOperations = requests.zipIdx.map fun request =>
      (memoOf request.1, trustedRecord input request.2 (resolvePackLifecycle request.2 s)) := by
  obtain ⟨rows, hrows, rfl⟩ := (build_passes h).mp hbuild
  show rows.map Prod.fst = _
  clear hbuild
  -- each row has the trusted operation of its own request
  generalize requests.zipIdx = indexed at hrows ⊢
  induction hrows with
  | nil => rfl
  | cons hrow _ ih => rw [List.map_cons, List.map_cons, ih, (feedRow_eq_ok hrow).1]

theorem observations_eq :
    feed.observations = requests.zipIdx.filterMap (shownOf input time s) := by
  obtain ⟨rows, hrows, rfl⟩ := (build_passes h).mp hbuild
  show rows.filterMap Prod.snd = _
  clear hbuild
  generalize requests.zipIdx = indexed at hrows ⊢
  induction hrows with
  | nil => rfl
  | cons hrow _ ih => rw [List.filterMap_cons, List.filterMap_cons, ih, (feedRow_eq_ok hrow).2]

omit hbuild in
theorem shownOf_eq_some {i : Nat} {request o : Value} (hi : requests[i]? = some request) :
    shownOf input time s (request, i) = some o ↔ ∃ lifecycle times,
      resolvePackLifecycle i s = some lifecycle ∧
      observationTimes input time i lifecycle = .ok (some times) ∧
      o = observationOf input time i (.string (memoOf request)) lifecycle times := by
  rw [shownOf, (h.memo (List.mem_of_getElem? hi)).1, Option.bind_eq_some_iff]
  refine exists_congr fun lifecycle => ?_
  cases htimes : observationTimes input time i lifecycle with
  | error message => simp [Except.toOption]
  | ok times =>
    cases times with
    | none => simp [Except.toOption]
    | some times =>
      simp only [Except.toOption, Option.bind_some, id, Option.map_some, Option.some.injEq,
        Except.ok.injEq, exists_and_left, eq_comm (a := o), exists_eq_left']

/-- The observations are those of the packs that have a lifecycle and a time. -/
theorem mem_observations {o : Value} :
    o ∈ feed.observations ↔ ∃ i request lifecycle times, requests[i]? = some request ∧
      resolvePackLifecycle i s = some lifecycle ∧
      observationTimes input time i lifecycle = .ok (some times) ∧
      o = observationOf input time i (.string (memoOf request)) lifecycle times := by
  rw [observations_eq h hbuild, List.mem_filterMap]
  constructor
  · rintro ⟨⟨request, i⟩, hmem, ho⟩
    have hi := List.mem_zipIdx_iff_getElem?.mp hmem
    obtain ⟨lifecycle, times, hshown⟩ := (shownOf_eq_some h hi).mp ho
    exact ⟨i, request, lifecycle, times, hi, hshown⟩
  · rintro ⟨i, request, lifecycle, times, hi, hshown⟩
    exact ⟨(request, i), List.mem_zipIdx_iff_getElem?.mpr hi,
      (shownOf_eq_some h hi).mpr ⟨lifecycle, times, hshown⟩⟩

end

/-! ## The event of an observation -/

theorem assertOperationIdentity_eq_ok {value : Value} {label : String} {n : Nat} :
    assertOperationIdentity value label = .ok n ↔
      isObject value ∧ (isNonEmptyString (value.get (text "cycleId")) ∧
        isNonEmptyString (value.get (text "operationId"))) ∧
      safeIndex (value.get (text "packIndex")) = some n ∧
      isOptionalString (value.get (text "memo")) ∧
      isOptionalString (value.get (text "mint")) := by
  simp only [assertOperationIdentity, bind_eq_ok, revertIf_eq_ok, elim_eq_ok, pure_eq_ok,
    not_not, not_or, exists_const]
  constructor
  · rintro ⟨hobject, hids, _, hindex, hmemo, hmint, rfl⟩
    exact ⟨hobject, hids, hindex, hmemo, hmint⟩
  · rintro ⟨hobject, hids, hindex, hmemo, hmint⟩
    exact ⟨hobject, hids, n, hindex, hmemo, hmint, rfl⟩

/-- The event of a value that passes. -/
def eventRead (value : Value) (packIndex : Nat) (state : CardState) : PublicCardEvent :=
  { cycleId := stringOf (value.get (text "cycleId"))
    operationId := stringOf (value.get (text "operationId"))
    packIndex
    memo := optionalOf (value.get (text "memo"))
    mint := optionalOf (value.get (text "mint"))
    eventId := stringOf (value.get (text "eventId"))
    sequence := stringOf (value.get (text "sequence"))
    state
    name := optionalOf (value.get (text "name"))
    imageUrl := optionalOf (value.get (text "imageUrl"))
    observedAt := stringOf (value.get (text "observedAt"))
    finalizedAt := optionalOf (value.get (text "finalizedAt"))
    transactionId := optionalOf (value.get (text "transactionId"))
    proceeds := value.get (text "proceeds") }

theorem assertPublicCardEvent_eq_ok {value : Value} {o : PublicCardEvent} :
    assertPublicCardEvent value = .ok o ↔ ∃ packIndex state,
      assertOperationIdentity value "PublicCardEvent" = .ok packIndex ∧
      isNonEmptyString (value.get (text "eventId")) ∧
      isDecimalString (value.get (text "sequence")) ∧
      cardState (value.get (text "state")) = some state ∧
      isOptionalString (value.get (text "name")) ∧
      isOptionalString (value.get (text "imageUrl")) ∧
      isIsoTimestamp (value.get (text "observedAt")) ∧
      (value.get (text "finalizedAt") = .null ∨ isIsoTimestamp (value.get (text "finalizedAt"))) ∧
      isOptionalString (value.get (text "transactionId")) ∧
      assertProceeds (value.get (text "proceeds")) = .ok () ∧
      o = eventRead value packIndex state := by
  simp only [assertPublicCardEvent, bind_eq_ok, revertIf_eq_ok, elim_eq_ok, pure_eq_ok, not_not,
    exists_const, not_and_or, Ne]
  constructor
  · rintro ⟨n, hid, heventId, hsequence, state, hstate, hname, himage, hobserved, hfinalized,
      htransaction, _, hproceeds, rfl⟩
    exact ⟨n, state, hid, heventId, hsequence, hstate, hname, himage, hobserved, hfinalized,
      htransaction, hproceeds, rfl⟩
  · rintro ⟨n, state, hid, heventId, hsequence, hstate, hname, himage, hobserved, hfinalized,
      htransaction, hproceeds, rfl⟩
    exact ⟨n, hid, heventId, hsequence, state, hstate, hname, himage, hobserved, hfinalized,
      htransaction, (), hproceeds, rfl⟩

/-- The event that the collector reads in an observation. -/
def shownEvent (input : FeedInput) (time i : Nat) (memo : Text) (lifecycle : Lifecycle)
    (times : Text × Option Text) : PublicCardEvent :=
  { cycleId := input.cycleId, operationId := operationId input.cycleId i, packIndex := i
    memo := some memo, mint := optionalOf lifecycle.mint
    eventId := operationId input.cycleId i ++ 58 :: lifecycle.state.name
    sequence := natText (time * 1000000 + i), state := lifecycle.publicState, name := none
    imageUrl := none, observedAt := times.1, finalizedAt := times.2
    transactionId := optionalOf lifecycle.transactionId, proceeds := lifecycle.proceeds }

/-- What the collector checks of an observation beyond what the feed makes itself. -/
structure Readable (lifecycle : Lifecycle) (times : Text × Option Text) : Prop where
  mint : isOptionalString lifecycle.mint
  observedAt : isISOString times.1
  finalizedAt : ∀ s, times.2 = some s → isISOString s
  transactionId : isOptionalString lifecycle.transactionId

theorem cardState_name (state : CardState) : cardState (.string state.name) = some state := by
  cases state <;> decide

theorem safeIndex_number {n : Nat} (hn : n ≤ 2 ^ 53 - 1) :
    safeIndex (.number (.ofNat n)) = some n := by
  have hrange : (0 : Int) ≤ (n : Int) ∧ (n : Int) ≤ 2 ^ 53 - 1 := by omega
  rw [ofNat_small (by omega)]
  show (if (0 : Int) ≤ (n : Int) ∧ (n : Int) ≤ 2 ^ 53 - 1 then some (n : Int).toNat else none)
    = some n
  rw [if_pos hrange, Int.toNat_natCast]

theorem safeIndex_ofNat {i : Nat} (hi : i < 2 ^ 32) :
    safeIndex (.number (.ofNat i)) = some i := safeIndex_number (by omega)

theorem optionalValue_cases (finalizedAt : Option Text) :
    (optionalValue finalizedAt = .null ∨ isIsoTimestamp (optionalValue finalizedAt)) ↔
      ∀ s, finalizedAt = some s → isISOString s := by
  cases finalizedAt with
  | none => simp [optionalValue]
  | some s => simp [optionalValue, isIsoTimestamp]

theorem stringOf_string (s : Text) : stringOf (.string s) = s := rfl

theorem optionalOf_optionalValue (s : Option Text) : optionalOf (optionalValue s) = s := by
  cases s <;> rfl

theorem assertPublicCardEvent_observationOf {input : FeedInput} {time i : Nat} {memo : Text}
    {lifecycle : Lifecycle} {times : Text × Option Text} (hcycle : input.cycleId ≠ [])
    (hi : i < 2 ^ 32) (hmemo : memo ≠ []) (hproceeds : assertProceeds lifecycle.proceeds = .ok ())
    {o : PublicCardEvent} :
    assertPublicCardEvent (observationOf input time i (.string memo) lifecycle times) = .ok o ↔
      Readable lifecycle times ∧ o = shownEvent input time i memo lifecycle times := by
  generalize hv : observationOf input time i (.string memo) lifecycle times = value
  have hobject : isObject value := by rw [← hv]; rfl
  have hcycleId : value.get (text "cycleId") = .string input.cycleId := by rw [← hv]; rfl
  have hoperationId : value.get (text "operationId") = .string (operationId input.cycleId i) := by
    rw [← hv]; rfl
  have hpackIndex : value.get (text "packIndex") = .number (.ofNat i) := by rw [← hv]; rfl
  have hvalueMemo : value.get (text "memo") = .string memo := by rw [← hv]; rfl
  have hmint : value.get (text "mint") = lifecycle.mint := by rw [← hv]; rfl
  have heventId : value.get (text "eventId")
      = .string (operationId input.cycleId i ++ 58 :: lifecycle.state.name) := by rw [← hv]; rfl
  have hsequence : value.get (text "sequence") = .string (natText (time * 1000000 + i)) := by
    rw [← hv]; rfl
  have hstate : value.get (text "state") = .string lifecycle.publicState.name := by rw [← hv]; rfl
  have hname : value.get (text "name") = .null := by rw [← hv]; rfl
  have himageUrl : value.get (text "imageUrl") = .null := by rw [← hv]; rfl
  have hobservedAt : value.get (text "observedAt") = .string times.1 := by rw [← hv]; rfl
  have hfinalizedAt : value.get (text "finalizedAt") = optionalValue times.2 := by rw [← hv]; rfl
  have htransactionId : value.get (text "transactionId") = lifecycle.transactionId := by
    rw [← hv]; rfl
  have hvalueProceeds : value.get (text "proceeds") = lifecycle.proceeds := by rw [← hv]; rfl
  have hread : eventRead value i lifecycle.publicState
      = shownEvent input time i memo lifecycle times := by
    rw [eventRead, hcycleId, hoperationId, hvalueMemo, hmint, heventId, hsequence, hname,
      himageUrl, hobservedAt, hfinalizedAt, htransactionId, hvalueProceeds,
      optionalOf_optionalValue, stringOf_string (natText _)]
    rfl
  rw [assertPublicCardEvent_eq_ok]
  constructor
  · rintro ⟨n, state, hid, -, -, hcard, -, -, hobserved, hfinalized, htransaction, -, rfl⟩
    obtain ⟨-, -, hn, -, hmint'⟩ := assertOperationIdentity_eq_ok.mp hid
    rw [hpackIndex, safeIndex_ofNat hi] at hn
    rw [hstate, cardState_name] at hcard
    cases hn
    cases hcard
    rw [hobservedAt] at hobserved
    rw [hfinalizedAt, optionalValue_cases] at hfinalized
    exact ⟨⟨hmint ▸ hmint', hobserved, hfinalized,
      htransactionId ▸ htransaction⟩, hread⟩
  · rintro ⟨hreadable, rfl⟩
    have hoperation : operationId input.cycleId i ≠ [] := by simp [operationId, text]
    refine ⟨i, lifecycle.publicState, assertOperationIdentity_eq_ok.mpr ?_, ?_, ?_, ?_, ?_, ?_, ?_,
      ?_, ?_, ?_, hread.symm⟩
    · rw [hcycleId, hoperationId, hpackIndex, hvalueMemo, hmint]
      exact ⟨hobject, by simp [isNonEmptyString, hcycle, hoperation], safeIndex_ofNat hi,
        by simp [isOptionalString, isNonEmptyString, hmemo], hreadable.mint⟩
    · rw [heventId]
      simp [isNonEmptyString]
    · rw [hsequence]
      exact isDecimal_natText _
    · rw [hstate, cardState_name]
    · rw [hname]
      rfl
    · rw [himageUrl]
      rfl
    · rw [hobservedAt]
      exact hreadable.observedAt
    · rw [hfinalizedAt, optionalValue_cases]
      exact hreadable.finalizedAt
    · rw [htransactionId]
      exact hreadable.transactionId
    · rw [hvalueProceeds]
      exact hproceeds

end Hookemon.Collector
