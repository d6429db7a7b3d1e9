import Hookemon.Collector.UsableFeed

/-! # When a feed works

A feed returns, can be used by a collector, shows a pack at most once, shows proceeds for the
packs that were sold, and goes on showing a pack when further stages are complete. All but the
first two hold whatever the evidence is.
-/

namespace Hookemon.Collector

open Hookemon.Core Hookemon.Js

/-! ## Times -/

/-- The record of the times of a pack. -/
def timesOf (input : FeedInput) (i : Nat) : Value :=
  (input.observedAtByOperationId.lookup (operationId input.cycleId i)).getD .undefined

/-- The time of a pack is supplied. -/
def Supplied (input : FeedInput) (i : Nat) : Prop :=
  ∃ observedAt, (timesOf input i).get (text "observedAt") = .string observedAt

variable {input : FeedInput} {time i : Nat} {l : Lifecycle}

theorem observationTimes_purchased (h : l.state = .purchased) (times : Option (Text × Option Text)) :
    observationTimes input time i l = .ok times ↔
      ∃ observedAt, toISOString time = some observedAt ∧ times = some (observedAt, none) := by
  rw [observationTimes, if_pos h]
  cases toISOString time with
  | none => simp
  | some observedAt => simp [eq_comm]

theorem observationTimes_later (h : l.state ≠ .purchased) :
    ∃ times, observationTimes input time i l = .ok times ∧ ∀ supplied, times = some supplied ↔
      (timesOf input i).get (text "observedAt") = .string supplied.1 ∧
        supplied.2 = if l.publicState = .finalized then
          optionalOf ((timesOf input i).get (text "finalizedAt")) else none := by
  rw [observationTimes, if_neg h]
  refine ⟨_, rfl, fun supplied => ?_⟩
  rw [← timesOf]
  cases (timesOf input i).get (text "observedAt") with
  | string observedAt =>
    show some (observedAt, _) = some supplied ↔ _
    rw [Option.some.injEq, Prod.ext_iff, Value.string.injEq]
    exact and_congr_right fun _ => eq_comm
  -- without a time of its own the pack is not shown
  | _ => simp

theorem toISOString_isSome : (∃ observedAt, toISOString time = some observedAt) ↔
    time ≤ 8640000000000000 := by
  rw [toISOString]
  by_cases h : time ≤ 8640000000000000
  · simp [h]
  · simp [h]

/-! ## The condition on the evidence -/

/-- The stages are not rejected. -/
def Consistent (requests : List Value) (stages : Stages) : Prop :=
  ∃ s, validateCompleteStages requests stages = .ok (some s)

/-- The buyback is complete without evidence, where the stages before it pass. -/
def MissingEvidence (requests : List Value) (stages : Stages) : Prop :=
  ∃ purchase openStage epicGate,
    validateEarlierStages requests stages = some (purchase, openStage, some epicGate) ∧
      isComplete stages.buyback ∧ orNull (stages.buyback.get (text "evidence")) = .null

/-- The decision on a pack is final. -/
def Final (stages : Stages) (i : Nat) : Prop :=
  (∃ pack, StageRow stages.openStage i pack ∧ hasDecision "held" pack) ∨
    (∃ pack, StageRow stages.epicGate i pack ∧ hasDecision "held" pack) ∨
    ∃ pack, StageRow stages.buyback i pack

/-- What the evidence, the times and the wallet have to be for the collector. -/
structure Publishable (input : FeedInput) (time : Nat) : Prop where
  wallet : input.operatorWallet ≠ some []
  purchased : ¬ isComplete input.stages.openStage → ∀ i pack,
    StageRow input.stages.purchase i pack → hasStatus "purchased" pack →
      time ≤ 8640000000000000 ∧ isOptionalString (orNull (pack.get (text "signature")))
  held : ∀ i pack, StageRow input.stages.openStage i pack → hasDecision "held" pack →
    isOptionalString (orNull (pack.get (text "mint")))
  observedAt : ∀ i pack observedAt, StageRow input.stages.openStage i pack →
    (timesOf input i).get (text "observedAt") = .string observedAt → isISOString observedAt
  finalizedAt : ∀ i finalizedAt, Final input.stages i → Supplied input i →
    (timesOf input i).get (text "finalizedAt") = .string finalizedAt → isISOString finalizedAt

theorem validate_throws_iff {requests : List Value} {stages : Stages} :
    (∃ message, validateCompleteStages requests stages = .error message) ↔
      MissingEvidence requests stages := by
  rw [validateCompleteStages]
  cases hearlier : validateEarlierStages requests stages with
  | none =>
    constructor
    · rintro ⟨message, hmessage⟩
      cases hmessage
    · rintro ⟨p, o, g, hsome, -⟩
      rw [hearlier] at hsome
      cases hsome
  | some earlier =>
    obtain ⟨purchase, openStage, epicGate⟩ := earlier
    -- the sold count is read of the evidence before anything looks whether there is evidence
    have hreads : (∃ message, (readsSoldCount stages.buyback epicGate) = .error message) ↔
        isComplete stages.buyback ∧ epicGate.isSome ∧
          orNull (stages.buyback.get (text "evidence")) = .null := by
      rw [readsSoldCount]
      simp only [revertIf_eq_error, exists_and_left, exists_eq', and_true]
    show (∃ message, (readsSoldCount stages.buyback epicGate >>= fun _ => _) = .error message) ↔ _
    have hthrows : (∃ message, (readsSoldCount stages.buyback epicGate >>= fun _ =>
        (pure (((nextStage stages.buyback epicGate (hasDecision "sell") buybackRow).filter
          fun buyback => buyback.all (soldCountMatches stages.buyback)).map fun buyback =>
            ({ purchase, openStage, epicGate, buyback } : CompleteStages)))) = .error message) ↔
        ∃ message, readsSoldCount stages.buyback epicGate = .error message := by
      refine exists_congr fun message => ?_
      rw [bind_eq_error]
      simp
    refine hthrows.trans (hreads.trans ?_)
    constructor
    · rintro ⟨hcomplete, hsome, hnull⟩
      obtain ⟨g, rfl⟩ := Option.isSome_iff_exists.mp hsome
      exact ⟨purchase, openStage, g, hearlier, hcomplete, hnull⟩
    · rintro ⟨p, o, g, hsome, hcomplete, hnull⟩
      rw [hearlier] at hsome
      cases hsome
      exact ⟨hcomplete, rfl, hnull⟩

section

variable {requests : List Value} {s : CompleteStages} (v : Validated requests input.stages s)

include v

theorem openStage_eq_none : s.openStage = none ↔ ¬ isComplete input.stages.openStage := by
  rw [← v.openStage.complete, Option.not_isSome_iff_eq_none]

/-- A pack with a row of a later stage has one of the opening. -/
theorem Final.opened (h : Final input.stages i) : ∃ pack, packAt s.openStage i = some pack := by
  have hgate : ∀ {pack}, packAt s.epicGate i = some pack → ∃ pack, packAt s.openStage i = some pack := by
    intro pack hpack
    obtain ⟨before, hbefore, -⟩ := v.gate_opened hpack
    exact ⟨before, hbefore⟩
  rcases h with ⟨pack, hrow, -⟩ | ⟨pack, hrow, -⟩ | ⟨pack, hrow⟩
  · exact ⟨pack, (v.openStage.row i pack).mpr hrow⟩
  · exact hgate ((v.epicGate.row i pack).mpr hrow)
  · obtain ⟨before, hbefore, -⟩ := v.buyback_gated ((v.buyback.row i pack).mpr hrow)
    exact hgate hbefore

/-- The final decisions are those that are shown as final. -/
theorem final_iff (hl : resolvePackLifecycle i s = some l) :
    Final input.stages i ↔ l.publicState = .finalized := by
  constructor
  · rintro (⟨pack, hrow, hheld⟩ | ⟨pack, hrow, hheld⟩ | ⟨pack, hrow⟩)
    · rw [resolve_heldAtOpening v ((v.openStage.row i pack).mpr hrow) hheld] at hl
      cases hl
      rfl
    · rw [resolve_heldAtGate v ((v.epicGate.row i pack).mpr hrow) hheld] at hl
      cases hl
      rfl
    · obtain ⟨l', hl', hfinal, -⟩ := resolve_buyback v ((v.buyback.row i pack).mpr hrow)
      rw [hl] at hl'
      cases hl'
      exact hfinal
  · intro hfinal
    cases resolved v hl with
    | purchased | opened | gated => cases hfinal
    | heldAtOpening pack row decision =>
      exact .inl ⟨pack, (v.openStage.row i pack).mp row, decision⟩
    | heldAtGate pack row decision =>
      exact .inr (.inl ⟨pack, (v.epicGate.row i pack).mp row, decision⟩)
    | heldAtBuyback pack row | sold pack row =>
      exact .inr (.inr ⟨pack, (v.buyback.row i pack).mp row⟩)

/-- A lifecycle that does not come from the purchase comes from a row of the opening. -/
theorem opened_of_state (hl : resolvePackLifecycle i s = some l) (hstate : l.state ≠ .purchased) :
    ∃ pack, packAt s.openStage i = some pack := by
  cases hopen : packAt s.openStage i with
  | some pack => exact ⟨pack, rfl⟩
  | none =>
    -- no row of the opening, so none of the stages after it
    have hgate := v.no_gate hopen
    have hbuyback := v.no_buyback hgate
    cases resolved v hl with
    | purchased => exact absurd rfl hstate
    | heldAtOpening _ row | opened _ row =>
      rw [hopen] at row
      cases row
    | heldAtGate _ row | gated _ row =>
      rw [hgate] at row
      cases row
    | heldAtBuyback _ row | sold _ row =>
      rw [hbuyback] at row
      cases row

/-- The condition is what the build and the collector ask of the packs. -/
theorem publishable_iff :
    Publishable input time ↔ input.operatorWallet ≠ some [] ∧
      ∀ i l, resolvePackLifecycle i s = some l →
        PackFine input time i l ∧ ∃ times, observationTimes input time i l = .ok times := by
  constructor
  · intro h
    refine ⟨h.wallet, fun i l hl => ?_⟩
    have hmint : isOptionalString l.mint := by
      cases resolved v hl with
      | purchased => rfl
      | heldAtOpening pack row decision =>
        exact h.held i pack ((v.openStage.row i pack).mp row) decision
      | heldAtGate pack _ _ mint | heldAtBuyback pack _ _ mint =>
        show isOptionalString (orNull (pack.get (text "mint")))
        simp [orNull_string mint, isOptionalString, mint]
      | opened pack _ _ mint | gated pack _ _ mint | sold pack _ _ mint =>
        simp [isOptionalString, mint]
    have htransaction : isOptionalString l.transactionId := by
      cases resolved v hl with
      | purchased pack row status pending =>
        exact (h.purchased ((openStage_eq_none v).mp pending) i pack
          ((v.purchase.row i pack).mp row) status).2
      | opened pack _ _ _ signature | sold pack _ _ _ signature =>
        simp [isOptionalString, signature]
      | _ => rfl
    -- a purchase has the time of the batch, everything later the times that are supplied
    by_cases hstate : l.state = .purchased
    · obtain ⟨observedAt, hobservedAt⟩ : ∃ observedAt, toISOString time = some observedAt := by
        cases resolved v hl with
        | purchased pack row status pending =>
          exact toISOString_isSome.mpr (h.purchased ((openStage_eq_none v).mp pending) i pack
            ((v.purchase.row i pack).mp row) status).1
        | _ => cases hstate
      refine ⟨⟨hmint, fun times htimes => ?_⟩, _,
        (observationTimes_purchased hstate _).mpr ⟨observedAt, hobservedAt, rfl⟩⟩
      obtain ⟨observedAt', hobservedAt', heq⟩ := (observationTimes_purchased hstate _).mp htimes
      cases heq
      exact ⟨hmint, isISOString_toISOString hobservedAt', fun s hs => (by cases hs), htransaction⟩
    · obtain ⟨times, htimes, hsupplied⟩ := @observationTimes_later input time i _ hstate
      obtain ⟨pack, hpack⟩ := opened_of_state v hl hstate
      refine ⟨⟨hmint, fun supplied hok => ?_⟩, times, htimes⟩
      rw [htimes] at hok
      obtain ⟨hobserved, hfinalized⟩ := (hsupplied supplied).mp (Except.ok.inj hok)
      refine ⟨hmint, h.observedAt i pack _ ((v.openStage.row i pack).mp hpack) hobserved,
        fun finalizedAt hsome => ?_, htransaction⟩
      by_cases hfinal : l.publicState = .finalized
      · rw [hfinalized, if_pos hfinal] at hsome
        refine h.finalizedAt i _ ((final_iff v hl).mpr hfinal) ⟨_, hobserved⟩ ?_
        cases hvalue : (timesOf input i).get (text "finalizedAt") with
        | string t =>
          rw [hvalue] at hsome
          cases hsome
          rfl
        | _ => rw [hvalue] at hsome; cases hsome
      · rw [hfinalized, if_neg hfinal] at hsome
        cases hsome
  · rintro ⟨hwallet, hfine⟩
    refine ⟨hwallet, fun hpending i pack hrow hstatus => ?_, fun i pack hrow hheld => ?_,
      fun i pack observedAt hrow hobserved => ?_, fun i finalizedAt hfinal hsupplied hvalue => ?_⟩
    · have hl := resolve_pending v ((v.purchase.row i pack).mpr hrow) hstatus
        ((openStage_eq_none v).mpr hpending)
      obtain ⟨hpack, times, htimes⟩ := hfine i _ hl
      obtain ⟨observedAt, hobservedAt, rfl⟩ := (observationTimes_purchased rfl times).mp htimes
      exact ⟨toISOString_isSome.mp ⟨observedAt, hobservedAt⟩,
        (hpack.readable _ htimes).transactionId⟩
    · have hl := resolve_heldAtOpening v ((v.openStage.row i pack).mpr hrow) hheld
      exact (hfine i _ hl).1.mint
    · have hpack := (v.openStage.row i pack).mpr hrow
      obtain ⟨before, hbefore, hstatus⟩ := v.open_purchased hpack
      obtain ⟨l, hl, -⟩ := resolve_purchased v hbefore hstatus
      obtain ⟨times, htimes, hsupplied⟩ := @observationTimes_later input time i _
        (state_ne_purchased v hpack hl)
      have hsome := (hsupplied (observedAt, _)).mpr ⟨hobserved, rfl⟩
      rw [hsome] at htimes
      exact ((hfine i l hl).1.readable _ htimes).observedAt
    · obtain ⟨pack, hpack⟩ := hfinal.opened v
      obtain ⟨before, hbefore, hstatus⟩ := v.open_purchased hpack
      obtain ⟨l, hl, -⟩ := resolve_purchased v hbefore hstatus
      obtain ⟨observedAt, hobserved⟩ := hsupplied
      obtain ⟨times, htimes, hsupplied⟩ := @observationTimes_later input time i _
        (state_ne_purchased v hpack hl)
      have hsome := (hsupplied (observedAt, some finalizedAt)).mpr ⟨hobserved, by
        rw [if_pos ((final_iff v hl).mp hfinal), hvalue]
        rfl⟩
      rw [hsome] at htimes
      exact ((hfine i l hl).1.readable _ htimes).finalizedAt _ rfl

end

/-! ## What a feed that works does -/

structure FeedWorks (input : FeedInput) : Prop where
  returns : ∃ feed, buildDurableCardFeed input = .ok feed
  usable : ∀ feed, buildDurableCardFeed input = .ok feed →
    feed = { trustedOperations := [], observations := [] } ∨ Usable feed
  /-- No two observations are of one pack, or of one event. -/
  separate : ∀ feed, buildDurableCardFeed input = .ok feed →
    (feed.observations.map fun o => o.get (text "packIndex")).Nodup ∧
      (feed.observations.map fun o => o.get (text "eventId")).Nodup
  /-- A pack is shown with proceeds when the buyback sold it. -/
  proceeds : ∀ feed, buildDurableCardFeed input = .ok feed → ∀ o ∈ feed.observations,
    (o.get (text "proceeds") ≠ .null ↔ ∃ i pack, indexKey (o.get (text "packIndex")) = some i ∧
      StageRow input.stages.buyback i pack ∧ hasDecision "sold" pack)
  /-- A pack that the buyback sold is shown once its time is supplied. -/
  sold : ∀ feed, buildDurableCardFeed input = .ok feed → ∀ requests,
    packBatchRequestPacksValid input.packBatchRequestPacks = some requests →
    Consistent requests input.stages → ∀ i pack, StageRow input.stages.buyback i pack →
      hasDecision "sold" pack → Supplied input i →
        ∃ o ∈ feed.observations, indexKey (o.get (text "packIndex")) = some i
  /-- A pack that is shown is also shown when further stages are complete. -/
  stays : ∀ feed, buildDurableCardFeed input = .ok feed → ∀ requests,
    packBatchRequestPacksValid input.packBatchRequestPacks = some requests →
    ∀ stages', Extends input.stages stages' → Consistent requests stages' →
      ∀ o ∈ feed.observations, ∀ i, indexKey (o.get (text "packIndex")) = some i →
        Supplied input i → ∃ feed', buildDurableCardFeed { input with stages := stages' } = .ok feed' ∧
          ∃ o' ∈ feed'.observations, indexKey (o'.get (text "packIndex")) = some i

section

variable {requests : List Value} {s : CompleteStages} {feed : DurableCardFeed}

section

variable (h : Passes input time requests s) (hbuild : buildDurableCardFeed input = .ok feed)

include h hbuild

/-- A pack that has a lifecycle and a time is shown. -/
theorem exists_shown (hl : resolvePackLifecycle i s = some l) {times : Text × Option Text}
    (htimes : observationTimes input time i l = .ok (some times)) :
    ∃ o ∈ feed.observations, indexKey (o.get (text "packIndex")) = some i ∧
      o.get (text "proceeds") = l.proceeds := by
  have hi := List.getElem?_eq_getElem (resolve_lt h.validated hl)
  exact ⟨_, (mem_observations h hbuild).mpr ⟨i, _, l, times, hi, hl, htimes, rfl⟩,
    indexKey_ofNat (h.lt hi), rfl⟩

theorem separate_of_passes :
    (feed.observations.map fun o => o.get (text "packIndex")).Nodup ∧
      (feed.observations.map fun o => o.get (text "eventId")).Nodup := by
  have hshown : feed.observations.Pairwise fun o o' =>
      o.get (text "packIndex") ≠ o'.get (text "packIndex") ∧
        o.get (text "eventId") ≠ o'.get (text "eventId") := by
    rw [observations_eq h hbuild, List.pairwise_filterMap]
    have hindexes : requests.zipIdx.Pairwise fun a b => a.2 ≠ b.2 := by
      rw [← List.pairwise_map, List.zipIdx_map_snd]
      exact List.nodup_range'
    -- two observations come from two requests, and both keys start with the index
    refine hindexes.imp_of_mem fun {a b} ha hb hne o ho o' ho' => ?_
    have hi := List.mem_zipIdx_iff_getElem?.mp ha
    have hj := List.mem_zipIdx_iff_getElem?.mp hb
    obtain ⟨l, times, -, -, rfl⟩ := (shownOf_eq_some h hi).mp ho
    obtain ⟨l', times', -, -, rfl⟩ := (shownOf_eq_some h hj).mp ho'
    constructor
    · intro heq
      have hnumber : Number.ofNat a.2 = Number.ofNat b.2 := Value.number.inj heq
      exact hne (ofNat_inj (lt_trans (h.lt hi) (by decide)) (lt_trans (h.lt hj) (by decide)) hnumber)
    · intro heq
      have hid : operationId input.cycleId a.2 ++ 58 :: l.state.name
          = operationId input.cycleId b.2 ++ 58 :: l'.state.name := Value.string.inj heq
      refine hne (natText_colon_injective (a := l.state.name) (b := l'.state.name) ?_)
      simpa [operationId] using hid
  exact ⟨List.pairwise_map.mpr (hshown.imp And.left), List.pairwise_map.mpr (hshown.imp And.right)⟩

theorem proceeds_of_passes {o : Value} (ho : o ∈ feed.observations) :
    o.get (text "proceeds") ≠ .null ↔ ∃ i pack, indexKey (o.get (text "packIndex")) = some i ∧
      StageRow input.stages.buyback i pack ∧ hasDecision "sold" pack := by
  obtain ⟨i, request, l, times, hi, hl, -, rfl⟩ := (mem_observations h hbuild).mp ho
  have v := h.validated
  have hindex := indexKey_ofNat (h.lt hi)
  constructor
  · intro hproceeds
    cases resolved v hl with
    | sold pack row decision => exact ⟨i, pack, hindex, (v.buyback.row i pack).mp row, decision⟩
    | _ => exact absurd rfl hproceeds
  · rintro ⟨j, pack, hj, hrow, hsold⟩
    obtain rfl : i = j := Option.some.inj (hindex.symm.trans hj)
    have hpack := (v.buyback.row i pack).mpr hrow
    obtain ⟨-, -, -, -, hheld | ⟨-, -, hproceeds⟩⟩ := v.buyback_gated hpack
    · exact absurd hsold (not_decision _ hheld (by decide))
    · rw [resolve_sold hpack hsold] at hl
      cases hl
      exact hproceeds

theorem sold_of_passes {pack : Value} (hrow : StageRow input.stages.buyback i pack)
    (hsold : hasDecision "sold" pack) (hsupplied : Supplied input i) :
    ∃ o ∈ feed.observations, indexKey (o.get (text "packIndex")) = some i := by
  have hl := resolve_sold ((h.validated.buyback.row i pack).mpr hrow) hsold
  obtain ⟨observedAt, hobserved⟩ := hsupplied
  obtain ⟨times, htimes, hshown⟩ := @observationTimes_later input time i
    { state := .sold, publicState := .finalized, mint := pack.get (text "mint")
      transactionId := pack.get (text "signature")
      proceeds := publicProceeds (pack.get (text "proceeds")) } nofun
  rw [(hshown (observedAt, _)).mpr ⟨hobserved, rfl⟩] at htimes
  obtain ⟨o, ho, hindex, -⟩ := exists_shown h hbuild hl htimes
  exact ⟨o, ho, hindex⟩

/-- Further stages leave the feed with an observation of every pack that had one. -/
theorem stays_of_passes {stages' : Stages} (hextends : Extends input.stages stages')
    {s' : CompleteStages} (h' : Passes { input with stages := stages' } time requests s')
    {o : Value} (ho : o ∈ feed.observations) (hindex : indexKey (o.get (text "packIndex")) = some i)
    (hsupplied : Supplied input i) :
    ∃ feed', buildDurableCardFeed { input with stages := stages' } = .ok feed' ∧
      ∃ o' ∈ feed'.observations, indexKey (o'.get (text "packIndex")) = some i := by
  obtain ⟨j, request, l, times, hj, hl, htimes, rfl⟩ := (mem_observations h hbuild).mp ho
  obtain rfl : j = i := Option.some.inj ((indexKey_ofNat (h.lt hj)).symm.trans hindex)
  have v := h.validated
  have v' := h'.validated
  -- a purchase that is shown has a date, so that of every other purchase exists too
  have hpurchased : ∀ {k l'}, resolvePackLifecycle k s' = some l' → l'.state = .purchased →
      ∃ observedAt, toISOString time = some observedAt := by
    intro k l' hl' hstate
    have hpending : ¬ isComplete stages'.openStage := by
      cases resolved v' hl' with
      | purchased _ _ _ pending => exact (openStage_eq_none v').mp pending
      | _ => cases hstate
    have hbefore : s.openStage = none := by
      rw [openStage_eq_none v]
      intro hcomplete
      exact hpending (hextends.openStage hcomplete ▸ hcomplete)
    have hstate' : l.state = .purchased := by
      by_contra hlater
      obtain ⟨pack, hpack⟩ := opened_of_state v hl hlater
      rw [hbefore] at hpack
      cases hpack
    obtain ⟨observedAt, hobserved, -⟩ := (observationTimes_purchased hstate' _).mp htimes
    exact ⟨observedAt, hobserved⟩
  have hreturns : ∃ feed', buildDurableCardFeed { input with stages := stages' } = .ok feed' := by
    refine (build_returns_iff h').mpr fun k _ l' hl' => ?_
    by_cases hstate : l'.state = .purchased
    · obtain ⟨observedAt, hobserved⟩ := hpurchased hl' hstate
      exact ⟨_, (observationTimes_purchased hstate _).mpr ⟨observedAt, hobserved, rfl⟩⟩
    · obtain ⟨times', htimes', -⟩ := @observationTimes_later
        { input with stages := stages' } time k _ hstate
      exact ⟨times', htimes'⟩
  obtain ⟨feed', hbuild'⟩ := hreturns
  obtain ⟨l', hl'⟩ := resolve_extends v v' hextends hl
  have htimes' : ∃ times', observationTimes { input with stages := stages' } time j l'
      = .ok (some times') := by
    by_cases hstate : l'.state = .purchased
    · obtain ⟨observedAt, hobserved⟩ := hpurchased hl' hstate
      exact ⟨_, (observationTimes_purchased hstate _).mpr ⟨observedAt, hobserved, rfl⟩⟩
    · obtain ⟨observedAt, hobserved⟩ := hsupplied
      obtain ⟨times', htimes', hshown⟩ := @observationTimes_later
        { input with stages := stages' } time j _ hstate
      rw [(hshown (observedAt, _)).mpr ⟨hobserved, rfl⟩] at htimes'
      exact ⟨_, htimes'⟩
  obtain ⟨times', htimes'⟩ := htimes'
  obtain ⟨o', ho', hindex', -⟩ := exists_shown h' hbuild' hl' htimes'
  exact ⟨feed', hbuild', o', ho', hindex'⟩

theorem ne_empty_of_passes : feed ≠ { trustedOperations := [], observations := [] } := by
  rintro rfl
  exact h.ne_nil (List.map_eq_nil_iff.mp (trustedOperations_keys h hbuild).symm)

end

/-- A feed works exactly when the buyback does not lack its evidence, and the stages, if they
are not rejected, can be published. -/
theorem feedWorks_iff (hcycle : input.cycleId ≠ [])
    (htime : safeIndex input.purchaseRequestedAtMs = some time) :
    FeedWorks input ↔ ∀ requests,
      packBatchRequestPacksValid input.packBatchRequestPacks = some requests →
        ¬ MissingEvidence requests input.stages ∧
          (Consistent requests input.stages → Publishable input time) := by
  constructor
  · intro hworks requests hledger
    obtain ⟨feed, hbuild⟩ := hworks.returns
    refine ⟨fun hmissing => ?_, fun ⟨s, hs⟩ => ?_⟩
    · obtain ⟨message, hthrows⟩ := validate_throws_iff.mpr hmissing
      rcases build_cases hbuild with ⟨-, hrejected⟩ | ⟨time', requests', s, h⟩
      · rw [hrejected requests hledger] at hthrows
        cases hthrows
      · obtain rfl : requests' = requests := Option.some.inj (h.ledger.symm.trans hledger)
        rw [h.stages] at hthrows
        cases hthrows
    · have h : Passes input time requests s := ⟨hcycle, htime, hledger, hs⟩
      have husable := (hworks.usable feed hbuild).resolve_left (ne_empty_of_passes h hbuild)
      obtain ⟨hwallet, hfine⟩ := (usable_iff h hbuild).mp husable
      have hreturns := (build_returns_iff h).mp hworks.returns
      exact (publishable_iff h.validated).mpr ⟨hwallet, fun i l hl =>
        ⟨hfine i l hl, hreturns i (resolve_lt h.validated hl) l hl⟩⟩
  · intro hcondition
    by_cases hpasses : ∃ requests s, Passes input time requests s
    · obtain ⟨requests, s, h⟩ := hpasses
      obtain ⟨hwallet, hfine⟩ := (publishable_iff h.validated).mp
        ((hcondition requests h.ledger).2 ⟨s, h.stages⟩)
      refine ⟨(build_returns_iff h).mpr fun i _ l hl => (hfine i l hl).2,
        fun feed hbuild => .inr ((usable_iff h hbuild).mpr
          ⟨hwallet, fun i l hl => (hfine i l hl).1⟩),
        fun feed hbuild => separate_of_passes h hbuild,
        fun feed hbuild o ho => proceeds_of_passes h hbuild ho,
        fun feed hbuild requests' _ _ i pack hrow hsold hsupplied =>
          sold_of_passes h hbuild hrow hsold hsupplied,
        fun feed hbuild requests' hledger stages' hextends hconsistent o ho i hindex hsupplied => ?_⟩
      obtain rfl : requests = requests' := Option.some.inj (h.ledger.symm.trans hledger)
      obtain ⟨s', hs'⟩ := hconsistent
      exact stays_of_passes h hbuild hextends ⟨hcycle, htime, hledger, hs'⟩ ho hindex hsupplied
    · -- the feed is empty, and nothing is said of it
      have hrejected : ∀ requests,
          packBatchRequestPacksValid input.packBatchRequestPacks = some requests →
            validateCompleteStages requests input.stages = .ok none := by
        intro requests hledger
        cases hvalidate : validateCompleteStages requests input.stages with
        | error message =>
          exact absurd (validate_throws_iff.mp ⟨message, hvalidate⟩)
            (hcondition requests hledger).1
        | ok validatedStages =>
          cases validatedStages with
          | none => rfl
          | some s => exact absurd ⟨requests, s, hcycle, htime, hledger, hvalidate⟩ hpasses
      have hempty := build_rejected hcycle htime hrejected
      have hfeed : ∀ {feed}, buildDurableCardFeed input = .ok feed →
          feed = { trustedOperations := [], observations := [] } := fun hbuild =>
        (Except.ok.inj (hempty.symm.trans hbuild)).symm
      refine ⟨⟨_, hempty⟩, fun feed hbuild => .inl (hfeed hbuild), fun feed hbuild => ?_,
        fun feed hbuild o ho => ?_, fun feed hbuild requests hledger hconsistent => ?_,
        fun feed hbuild requests _ stages' _ _ o ho => ?_⟩
      · rw [hfeed hbuild]
        exact ⟨List.nodup_nil, List.nodup_nil⟩
      · rw [hfeed hbuild] at ho
        cases ho
      · obtain ⟨s, hs⟩ := hconsistent
        rw [hrejected requests hledger] at hs
        cases hs
      · rw [hfeed hbuild] at ho
        cases ho

end

/-! ## Feeds of one pack -/

/-- Complete evidence of some packs. -/
def completeStage (packs : List Value) : Value :=
  .object [(text "status", .string (text "COMPLETE")),
    (text "evidence", .object [(text "packs", .array packs)])]

/-- A row of the first pack. -/
def firstPack (fields : Fields) : Value :=
  .object ([(text "packIndex", .number (.ofNat 0)), (text "memo", .string (text "memo-0"))] ++ fields)

/-- The first pack of a cycle, with the evidence of its opening if there is some. -/
def singlePack (openStage : Value) : FeedInput where
  cycleId := text "cycle-1"
  packBatchRequestPacks := .array [firstPack []]
  arrayLength := by
    intro requests heq
    cases heq
    decide
  purchaseRequestedAtMs := .number (.ofNat 1709251199999)
  stages :=
    { purchase := completeStage [firstPack [(text "status", .string (text "purchased")),
        (text "signature", .string (text "signature-0"))]]
      openStage, epicGate := .undefined, buyback := .undefined }

/-- A purchase that is not followed by further stages gives a feed that works. -/
theorem feedWorks_iff_purchased : FeedWorks (singlePack .undefined) := by
  refine (@feedWorks_iff _ 1709251199999 (by decide) (by decide)).mpr fun requests _ => ?_
  have hpending : ¬ isComplete Value.undefined := by decide
  have hno : ∀ {i pack}, ¬ StageRow Value.undefined i pack := fun hrow => hpending hrow.1
  constructor
  · rintro ⟨p, o, g, -, hcomplete, -⟩
    exact hpending hcomplete
  · intro _
    refine ⟨by decide, fun _ i pack hrow _ => ?_, fun i pack hrow => absurd hrow hno,
      fun i pack observedAt hrow => absurd hrow hno, fun i finalizedAt hfinal => ?_⟩
    · obtain ⟨-, packs, hpacks, hmem, -⟩ := hrow
      cases hpacks
      obtain rfl := List.mem_singleton.mp hmem
      exact ⟨by decide, by decide⟩
    · rcases hfinal with ⟨pack, hrow, -⟩ | ⟨pack, hrow, -⟩ | ⟨pack, hrow⟩ <;> exact absurd hrow hno

/-- A pack that is held at the opening without a mint. -/
def heldWithoutMint : FeedInput :=
  singlePack (completeStage [firstPack [(text "decision", .string (text "held")),
    (text "mint", .string [])]])

/-- The feed of that pack is returned, but no collector can be created from it. -/
theorem feed_not_usable : ¬ FeedWorks heldWithoutMint := by
  intro h
  have hfeed : buildDurableCardFeed heldWithoutMint = .ok
      { trustedOperations := [(text "memo-0", .object
          [(text "cycleId", .string (text "cycle-1")),
            (text "operationId", .string (text "pack:cycle-1:0")),
            (text "packIndex", .number (.ofNat 0)), (text "mint", .string []),
            (text "wallet", .null)])]
        observations := [] } := by decide
  rcases h.usable _ hfeed with hempty | husable
  · cases hempty
  · obtain ⟨c, hc, -⟩ := husable (.number (.ofNat 1)) 1 (by decide) (by decide)
    cases hc

end Hookemon.Collector
