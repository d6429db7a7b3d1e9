import Hookemon.Collector.FeedWorks

/-! # The order of deliveries

Observations may be delivered in any order and more than once. What the collector lists does
not depend on that exactly when it can be said beforehand which events stay. Two events of one
pack that are of the same rank carry the same sequence, so of two such observations the
collector keeps the one that comes last.
-/

namespace Hookemon.Collector

open Hookemon.Core Hookemon.Js

/-- Delivered in any order and any number of times, the observations leave the same list. -/
def OrderIndependent (c : RecentWinnersCollector) (observations : List Value) : Prop :=
  ∀ xs ys, (∀ x, x ∈ xs ↔ x ∈ observations) → (∀ y, y ∈ ys ↔ y ∈ observations) →
    ∀ limit, (deliver c xs >>= fun events => list events limit)
      = (deliver c ys >>= fun events => list events limit)

/-- The next delivery does not replace a finalized event by one that is only observed. -/
def KeepsFinalized (c : RecentWinnersCollector) (observations : List Value) : Prop :=
  ∀ raws, (∀ raw ∈ raws, raw ∈ observations) → ∀ raw ∈ observations, ∃ events after,
    deliver c raws = .ok events ∧ deliver c (raws ++ [raw]) = .ok after ∧
      ∀ e ∈ events, e.state = .finalized → ∀ e' ∈ after, durableKey e' = durableKey e →
        e'.state = .finalized

/-- A later build of the feed of one cycle. -/
structure Later (earlier later : FeedInput) : Prop where
  cycleId : later.cycleId = earlier.cycleId
  ledger : later.packBatchRequestPacks = earlier.packBatchRequestPacks
  time : later.purchaseRequestedAtMs = earlier.purchaseRequestedAtMs
  stages : Extends earlier.stages later.stages

/-- The observation of a pack in a build. -/
def emitted (packIndex : Nat) (input : FeedInput) : Option Value :=
  (buildDurableCardFeed input).toOption.bind fun feed =>
    feed.observations.find? fun o => indexKey (o.get (text "packIndex")) = some packIndex

/-- Of the observations that successive builds emit for one pack, the last one is retained. -/
def ShowsLatest (c : RecentWinnersCollector) (observations : List Value) : Prop :=
  ∀ (builds : List FeedInput) (packIndex : Nat), builds.Pairwise Later →
    (∀ x, x ∈ observations ↔ x ∈ builds.filterMap (emitted packIndex)) →
    ∀ last, (builds.filterMap (emitted packIndex)).getLast? = some last →
    ∀ xs, (∀ x, x ∈ xs ↔ x ∈ observations) →
      ∃ o, assertPublicCardEvent last = .ok o ∧ deliver c xs = .ok [o]

/-! ## Lists -/

theorem list_eq_ok {events : List PublicCardEvent} {limit : Value} {n : Nat}
    (hn : safeIndex limit = some n) (hpositive : n ≠ 0) :
    list events limit = .ok ((cardRules.shown events).take n) := by
  rw [list, hn]
  show (throwIf (n = 0) _ >>= fun _ => pure ((newestFirst events).take n)) = _
  rw [throwIf_of_not hpositive, newestFirst_eq]
  rfl

/-- A list depends on the order in which the events are shown alone. -/
theorem list_congr {events events' : List PublicCardEvent}
    (h : cardRules.shown events = cardRules.shown events') (limit : Value) :
    list events limit = list events' limit := by
  rw [list, list, newestFirst_eq, newestFirst_eq, h]

variable {c : RecentWinnersCollector} {observations : List Value}
  (haccepted : ∀ raw ∈ observations, ∃ o, Accepted c raw o)

include haccepted

theorem deliver_observations {raws : List Value} (hraws : ∀ raw ∈ raws, raw ∈ observations) :
    deliver c raws = .ok (cardRules.deliver c.maxRetained (eventsOf raws)) :=
  deliver_accepted fun raw hraw => haccepted raw (hraws raw hraw)

omit haccepted in
theorem eventsOf_covers {raws : List Value} (hraws : ∀ x, x ∈ raws ↔ x ∈ observations)
    (o : PublicCardEvent) : o ∈ eventsOf raws ↔ o ∈ eventsOf observations := by
  rw [mem_eventsOf, mem_eventsOf]
  exact exists_congr fun raw => and_congr_left fun _ => hraws raw

omit haccepted in
/-- The observations of one event. -/
theorem eventsOf_block {o : PublicCardEvent} (ho : o ∈ eventsOf observations) :
    ∃ n, eventsOf (observations.filter fun raw => eventOf raw = some o)
      = List.replicate (n + 1) o := by
  have hall : ∀ e ∈ eventsOf (observations.filter fun raw => eventOf raw = some o), e = o := by
    intro e he
    obtain ⟨raw, hraw, hevent⟩ := mem_eventsOf.mp he
    have hblock : eventOf raw = some o := of_decide_eq_true (List.mem_filter.mp hraw).2
    exact Option.some.inj (hevent.symm.trans hblock)
  obtain ⟨raw, hraw, hevent⟩ := mem_eventsOf.mp ho
  have hmem : o ∈ eventsOf (observations.filter fun raw => eventOf raw = some o) :=
    mem_eventsOf.mpr ⟨raw, List.mem_filter.mpr ⟨hraw, decide_eq_true hevent⟩, hevent⟩
  have hreplicate := List.eq_replicate_of_mem hall
  cases hlength : (eventsOf (observations.filter fun raw => eventOf raw = some o)).length with
  | zero =>
    rw [List.length_eq_zero_iff.mp hlength] at hmem
    cases hmem
  | succ n => exact ⟨n, hlength ▸ hreplicate⟩

/-- Every order of the events is one of observations, up to repetitions. -/
theorem exists_deliveries {xs : List PublicCardEvent}
    (hxs : ∀ o, o ∈ xs ↔ o ∈ eventsOf observations) :
    ∃ raws, (∀ x, x ∈ raws ↔ x ∈ observations) ∧
      deliver c raws = .ok (cardRules.deliver c.maxRetained xs) := by
  -- an event is delivered by all of its observations, one after the other
  let block : PublicCardEvent → List Value := fun o =>
    observations.filter fun raw => eventOf raw = some o
  have hcovers : ∀ x, x ∈ xs.flatMap block ↔ x ∈ observations := by
    intro x
    rw [List.mem_flatMap]
    constructor
    · rintro ⟨o, -, hx⟩
      exact List.mem_of_mem_filter hx
    · intro hx
      obtain ⟨o, ho⟩ := haccepted x hx
      exact ⟨o, (hxs o).mpr (mem_eventsOf.mpr ⟨x, hx, ho.eventOf⟩),
        List.mem_filter.mpr ⟨hx, decide_eq_true ho.eventOf⟩⟩
  have hevents : eventsOf (xs.flatMap block) = xs.flatMap fun o => eventsOf (block o) := by
    rw [eventsOf, List.filterMap_flatMap]
    rfl
  refine ⟨xs.flatMap block, hcovers, ?_⟩
  rw [deliver_observations haccepted fun raw hraw => (hcovers raw).mp hraw, hevents,
    @CacheRules.deliver_repeated _ _ _ _ _ _ _ xs _ (fun _ hx => hx) _
      fun o ho => eventsOf_block ((hxs o).mp ho)]

/-- The order does not matter exactly when the events settle. -/
theorem orderIndependent_iff :
    OrderIndependent c observations ↔
      ∃ stay, cardRules.Settled c.maxRetained (eventsOf observations) stay := by
  rw [← CacheRules.order_irrelevant_iff c.positive]
  constructor
  · intro h xs ys hxs hys
    obtain ⟨raws, hraws, hdeliver⟩ := exists_deliveries haccepted hxs
    obtain ⟨raws', hraws', hdeliver'⟩ := exists_deliveries haccepted hys
    have hlimit := safeIndex_number c.safe
    have hlist := h raws raws' hraws hraws' (.number (.ofNat c.maxRetained))
    rw [hdeliver, hdeliver', ok_bind, ok_bind, list_eq_ok hlimit c.positive.ne',
      list_eq_ok hlimit c.positive.ne'] at hlist
    -- the list that is asked for is as long as what the collector retains
    have hwhole : ∀ zs : List PublicCardEvent,
        (cardRules.shown (cardRules.deliver c.maxRetained zs)).take c.maxRetained
          = cardRules.shown (cardRules.deliver c.maxRetained zs) := by
      intro zs
      refine List.take_of_length_le ?_
      rw [(CacheRules.shown_perm cardRules _).length_eq]
      exact (CacheRules.cached_deliver fun _ hx => hx).bounded
    rw [hwhole, hwhole] at hlist
    exact Except.ok.inj hlist
  · intro h xs ys hxs hys limit
    rw [deliver_observations haccepted fun raw hraw => (hxs raw).mp hraw,
      deliver_observations haccepted fun raw hraw => (hys raw).mp hraw, ok_bind, ok_bind]
    exact list_congr (h _ _ (eventsOf_covers hxs) (eventsOf_covers hys)) limit

/-! ## Finalized events -/

omit haccepted in
theorem preferred_finalized {e x : PublicCardEvent} (h : e.state = .finalized) :
    (cardRules.preferred e x).state = .finalized := by
  rw [CacheRules.preferred]
  split
  · exact h
  · rename_i hbetter
    cases hx : x.state with
    | finalized => rfl
    | observed =>
      refine absurd (.inl ?_) hbetter
      show STATE_RANK x.state < STATE_RANK e.state
      rw [h, hx]
      decide

theorem keepsFinalized : KeepsFinalized c observations := by
  intro raws hraws raw hraw
  obtain ⟨o, ho⟩ := haccepted raw hraw
  have hboth : ∀ r ∈ raws ++ [raw], r ∈ observations := by
    intro r hr
    rcases List.mem_append.mp hr with hr | hr
    · exact hraws r hr
    · exact List.mem_singleton.mp hr ▸ hraw
  have hafter : cardRules.deliver c.maxRetained (eventsOf (raws ++ [raw]))
      = cardRules.receive c.maxRetained (cardRules.deliver c.maxRetained (eventsOf raws)) o := by
    rw [eventsOf, List.filterMap_append, CacheRules.deliver, List.foldl_append,
      List.filterMap_cons_some ho.eventOf]
    rfl
  refine ⟨_, _, deliver_observations haccepted hraws, deliver_observations haccepted hboth,
    fun e he hfinal e' he' hkey => ?_⟩
  rw [hafter] at he'
  have hcached := @CacheRules.cached_deliver _ _ _ cardRules _ _ c.maxRetained
    (eventsOf raws) _ fun _ hx => hx
  have hsame : ∀ e' ∈ cardRules.deliver c.maxRetained (eventsOf raws),
      durableKey e' = durableKey e → e'.state = .finalized := by
    intro e' he' hkey
    rw [hcached.distinct.eq he' he hkey]
    exact hfinal
  have hfresh : (∀ y ∈ cardRules.deliver c.maxRetained (eventsOf raws), durableKey y ≠ durableKey o) →
      e' ∈ cardRules.deliver c.maxRetained (eventsOf raws) ++ [o] → e'.state = .finalized := by
    intro hother hmem
    rcases List.mem_append.mp hmem with hold | hnew
    · exact hsame e' hold hkey
    · rw [List.mem_singleton.mp hnew] at hkey
      exact absurd hkey.symm (hother e he)
  cases CacheRules.receive_cases hcached.distinct hcached.bounded o with
  | conflict y mem key tag same => exact hsame e' (same ▸ he') hkey
  | replaced y mem key tag entry =>
    rw [entry] at he'
    obtain ⟨y', hy', rfl⟩ := List.mem_map.mp he'
    by_cases hreplaced : cardRules.key y' = cardRules.key o
    · rw [if_pos hreplaced] at hkey ⊢
      have hold : durableKey y = durableKey e := by
        rcases CacheRules.preferred_cases cardRules y o with h | h <;> rw [h] at hkey
        · exact hkey
        · exact key.trans hkey
      exact preferred_finalized (hsame y mem hold)
    · rw [if_neg hreplaced] at hkey ⊢
      exact hsame y' hy' hkey
  | added fresh room entry => exact hfresh fresh (entry ▸ he')
  | evicted fresh full z mem oldest last entry =>
    rw [entry] at he'
    exact hfresh fresh (List.mem_of_mem_filter he')

/-! ## Successive builds -/

omit haccepted in
theorem emitted_eq_some {packIndex : Nat} {input : FeedInput} {raw : Value}
    (h : emitted packIndex input = some raw) :
    ∃ time requests s request lifecycle times, Passes input time requests s ∧
      requests[packIndex]? = some request ∧ resolvePackLifecycle packIndex s = some lifecycle ∧
      raw = observationOf input time packIndex (.string (memoOf request)) lifecycle times := by
  rw [emitted] at h
  obtain ⟨feed, hfeed, hfind⟩ := Option.bind_eq_some_iff.mp h
  have hbuild : buildDurableCardFeed input = .ok feed := by
    cases hresult : buildDurableCardFeed input with
    | error message => rw [hresult] at hfeed; cases hfeed
    | ok feed' => rw [hresult] at hfeed; cases hfeed; rfl
  have hmem := List.mem_of_find?_eq_some hfind
  rcases build_cases hbuild with ⟨hempty, -⟩ | ⟨time, requests, s, hpasses⟩
  · rw [hempty] at hmem
    cases hmem
  · obtain ⟨i, request, l, times, hi, hl, -, rfl⟩ := (mem_observations hpasses hbuild).mp hmem
    have hfound := List.find?_some hfind
    have hindex : indexKey (.number (.ofNat i)) = some packIndex := of_decide_eq_true hfound
    obtain rfl : i = packIndex :=
      Option.some.inj ((indexKey_ofNat (hpasses.lt hi)).symm.trans hindex)
    exact ⟨time, requests, s, request, l, times, hpasses, hi, hl, rfl⟩

/-- The events of one pack in two builds have one identity and one sequence, and the later one
is of no lower rank. -/
structure Advances (e e' : PublicCardEvent) : Prop where
  key : cardRules.key e = cardRules.key e'
  sequence : cardRules.sequence e = cardRules.sequence e'
  rank : cardRules.rank e ≤ cardRules.rank e'

omit haccepted in
theorem emitted_advances {packIndex : Nat} {earlier later : FeedInput} (h : Later earlier later)
    {raw raw' : Value} (hraw : emitted packIndex earlier = some raw)
    (hraw' : emitted packIndex later = some raw') {e e' : PublicCardEvent}
    (he : eventOf raw = some e) (he' : eventOf raw' = some e') : Advances e e' := by
  have hevent : ∀ {raw e}, eventOf raw = some e → assertPublicCardEvent raw = .ok e := by
    intro raw e he
    rw [eventOf] at he
    cases hresult : assertPublicCardEvent raw with
    | error message => rw [hresult] at he; cases he
    | ok o => rw [hresult] at he; cases he; rfl
  obtain ⟨time, requests, s, request, l, times, hpasses, hi, hl, rfl⟩ := emitted_eq_some hraw
  obtain ⟨time', requests', s', request', l', times', hpasses', hi', hl', rfl⟩ :=
    emitted_eq_some hraw'
  obtain ⟨-, rfl⟩ := (assertPublicCardEvent_observationOf hpasses.cycleId (hpasses.lt hi)
    (hpasses.memo (List.mem_of_getElem? hi)).2 (resolved hpasses.validated hl).assertProceeds).mp
      (hevent he)
  obtain ⟨-, rfl⟩ := (assertPublicCardEvent_observationOf hpasses'.cycleId (hpasses'.lt hi')
    (hpasses'.memo (List.mem_of_getElem? hi')).2
    (resolved hpasses'.validated hl').assertProceeds).mp (hevent he')
  have htime : time' = time := by
    have hsame := hpasses'.time
    rw [h.time, hpasses.time] at hsame
    exact (Option.some.inj hsame).symm
  have hledger : requests' = requests := by
    have hsame := hpasses'.ledger
    rw [h.ledger, hpasses.ledger] at hsame
    exact (Option.some.inj hsame).symm
  subst htime
  subst hledger
  refine ⟨?_, rfl, ?_⟩
  · show durableKey _ = durableKey _
    rw [durableKey, durableKey]
    simp only [shownEvent, h.cycleId]
  · show STATE_RANK l.publicState ≤ STATE_RANK l'.publicState
    cases hstate : l.publicState with
    | observed => exact Nat.zero_le _
    | finalized =>
      -- a final decision is not changed by further stages
      have hkept := finalized_extends hpasses.validated hpasses'.validated h.stages hl hstate
      rw [hl'] at hkept
      rw [Option.some.inj hkept, hstate]

theorem showsLatest {stay : List PublicCardEvent}
    (hstay : cardRules.Settled c.maxRetained (eventsOf observations) stay) :
    ShowsLatest c observations := by
  intro builds packIndex hbuilds hmem last hlast xs hxs
  have hlastMem : last ∈ observations := (hmem last).mpr (List.mem_of_getLast? hlast)
  obtain ⟨o, ho⟩ := haccepted last hlastMem
  have hoMem : o ∈ eventsOf observations := mem_eventsOf.mpr ⟨last, hlastMem, ho.eventOf⟩
  have hpairs : (builds.filterMap (emitted packIndex)).Pairwise fun raw raw' =>
      ∀ e e', eventOf raw = some e → eventOf raw' = some e' → Advances e e' := by
    rw [List.pairwise_filterMap]
    exact hbuilds.imp fun hlater raw hraw raw' hraw' e e' he he' =>
      emitted_advances hlater hraw hraw' he he'
  obtain ⟨before, hbefore⟩ := List.getLast?_eq_some_iff.mp hlast
  rw [hbefore, List.pairwise_append] at hpairs
  have hadvances : ∀ e ∈ eventsOf observations, Advances e o := by
    intro e he
    obtain ⟨raw, hraw, hevent⟩ := mem_eventsOf.mp he
    have hraw := (hmem raw).mp hraw
    rw [hbefore, List.mem_append, List.mem_singleton] at hraw
    rcases hraw with hraw | rfl
    · exact hpairs.2.2 raw hraw last (List.mem_singleton_self last) e o hevent ho.eventOf
    · rw [ho.eventOf] at hevent
      cases hevent
      exact ⟨rfl, rfl, Nat.le_refl _⟩
  -- an event that stays is not worse than the last one, so it is the last one
  have hall : ∀ e ∈ stay, e = o := by
    intro e he
    have hadvance := hadvances e (hstay.mem e he)
    rcases hstay.best e he o hoMem hadvance.key with rfl | hbetter | ⟨-, holder⟩
    · rfl
    · have hrank := hadvance.rank
      omega
    · have hsequence := hadvance.sequence
      omega
  have hsome : ∃ e, e ∈ stay := by
    rcases hstay.full with hfull | hcovers
    · exact List.exists_mem_of_length_pos (hfull ▸ c.positive)
    · obtain ⟨e, he, -⟩ := hcovers o hoMem
      exact ⟨e, he⟩
  have hsingle : stay = [o] := by
    obtain ⟨e, he⟩ := hsome
    have hreplicate := List.eq_replicate_of_mem hall
    have hnodup := hstay.nodup
    rw [hreplicate] at hnodup
    have hle : stay.length ≤ 1 := List.nodup_replicate.mp hnodup
    have hpositive : 0 < stay.length := List.length_pos_of_mem he
    rw [hreplicate, Nat.le_antisymm hle hpositive]
    rfl
  refine ⟨o, ho.event, ?_⟩
  have hshown := hstay.shown (eventsOf_covers hxs)
  have hperm := CacheRules.shown_perm cardRules (cardRules.deliver c.maxRetained (eventsOf xs))
  rw [hshown, hsingle] at hperm
  rw [deliver_observations haccepted fun raw hraw => (hxs raw).mp hraw,
    List.perm_singleton.mp hperm.symm]

/-- Deliveries are harmless, the finalized events are kept and the latest stage is shown,
exactly when it can be said which events stay. -/
theorem deliveries_harmless_iff :
    (OrderIndependent c observations ∧ KeepsFinalized c observations ∧
        ShowsLatest c observations) ↔
      ∃ stay, cardRules.Settled c.maxRetained (eventsOf observations) stay := by
  constructor
  · intro h
    exact (orderIndependent_iff haccepted).mp h.1
  · rintro ⟨stay, hstay⟩
    exact ⟨(orderIndependent_iff haccepted).mpr ⟨stay, hstay⟩, keepsFinalized haccepted,
      showsLatest haccepted hstay⟩

omit haccepted

/-! ## Two observations of one pack -/

/-- What the feed emits for the first pack once it is opened, or is to be sold. -/
def sighting (state : PackState) (transactionId : Value) : Value :=
  observationOf (singlePack .undefined) 1709251199999 0 (.string (text "memo-0"))
    { state, publicState := .observed, mint := .string (text "mint-0"), transactionId
      proceeds := .null }
    (text "2024-02-29T23:59:59.999Z", none)

def opened : Value := sighting .opened (.string (text "signature-1"))

def gated : Value := sighting .gated .null

/-- A collector of the operation of the first pack. -/
def firstPackCollector : RecentWinnersCollector where
  trustedOperations := [(text "memo-0", .object
    [(text "cycleId", .string (text "cycle-1")),
      (text "operationId", .string (text "pack:cycle-1:0")),
      (text "packIndex", .number (.ofNat 0)), (text "mint", .string (text "mint-0")),
      (text "wallet", .null)])]
  maxRetained := 200
  positive := by decide
  safe := by decide

theorem accepted_sightings : ∀ raw ∈ [opened, gated], ∃ o, Accepted firstPackCollector raw o := by
  intro raw hraw
  rcases List.mem_pair.mp hraw with rfl | rfl
  · exact ⟨_, rfl, by decide, by decide⟩
  · exact ⟨_, rfl, by decide, by decide⟩

/-- One observation alone settles. -/
theorem deliveries_harmless_iff_single :
    OrderIndependent firstPackCollector [opened] ∧ KeepsFinalized firstPackCollector [opened] ∧
      ShowsLatest firstPackCollector [opened] := by
  have haccepted : ∀ raw ∈ [opened], ∃ o, Accepted firstPackCollector raw o := by
    intro raw hraw
    exact accepted_sightings raw (List.mem_cons.mpr (.inl (List.mem_singleton.mp hraw)))
  refine (deliveries_harmless_iff haccepted).mpr ⟨eventsOf [opened], ?_⟩
  obtain ⟨o, ho⟩ := haccepted opened (List.mem_singleton_self _)
  have hevents : eventsOf [opened] = [o] := by
    rw [eventsOf, List.filterMap_cons_some ho.eventOf]
    rfl
  rw [hevents]
  have hsame : ∀ e ∈ [o], ∀ x ∈ [o], x = e := by
    intro e he x hx
    rw [List.mem_singleton.mp he, List.mem_singleton.mp hx]
  refine ⟨List.pairwise_singleton _ _, fun e he => he,
    Nat.succ_le_of_lt firstPackCollector.positive, .inr fun x hx => ⟨x, hx, rfl⟩,
    fun e he x hx _ => by rw [hsame e he x hx], fun e he x hx _ => .inl (hsame e he x hx),
    fun x hx hother => absurd rfl (hother x hx)⟩

/-- Of the two observations the collector keeps the one that is delivered last. -/
theorem sightings_not_harmless :
    (∀ raw ∈ [opened, gated], ∃ o, Accepted firstPackCollector raw o) ∧
      ¬ OrderIndependent firstPackCollector [opened, gated] := by
  refine ⟨accepted_sightings, fun h => ?_⟩
  have hsame := h [opened, gated] [gated, opened] (fun _ => Iff.rfl)
    (fun raw => by rw [List.mem_pair, List.mem_pair, or_comm]) (.number (.ofNat 50))
  revert hsame
  decide

end Hookemon.Collector
