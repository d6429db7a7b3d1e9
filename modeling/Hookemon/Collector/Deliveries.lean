import Hookemon.Collector.RecentWinners

/-! # Deliveries to the collector

What the collector retains is a bounded cache: the identity of a pack is the key of its
events, and the memo and the mint are what all of them have to agree on.
-/

namespace Hookemon.Collector

open Hookemon.Core Hookemon.Js

/-- How the collector keeps its events. -/
def cardRules : CacheRules PublicCardEvent Text (Option Text × Option Text) where
  key := durableKey
  tag := fun event => (event.memo, event.mint)
  rank := fun event => STATE_RANK event.state
  sequence := fun event => textNat event.sequence

/-! ## Sorting and preferring -/

theorem compareSequence_ne_gt (a b : Text) :
    compareSequence a b ≠ .gt ↔ textNat a ≤ textNat b := by
  rw [compareSequence, Ne, compare_gt_iff_gt]
  exact Nat.not_lt

theorem compareSequence_ne_lt (a b : Text) :
    compareSequence a b ≠ .lt ↔ textNat b ≤ textNat a := by
  rw [compareSequence, Ne, compare_lt_iff_lt]
  exact Nat.not_lt

theorem insertionSort_congr {α : Type} {r s : α → α → Prop} [DecidableRel r] [DecidableRel s]
    (h : ∀ a b, r a b ↔ s a b) (xs : List α) : xs.insertionSort r = xs.insertionSort s := by
  have hrel : r = s := funext fun a => funext fun b => propext (h a b)
  subst hrel
  congr!

theorem newestFirst_eq (events : List PublicCardEvent) :
    newestFirst events = cardRules.shown events :=
  insertionSort_congr (fun _ _ => compareSequence_ne_gt _ _) events

theorem oldestFirst_eq (events : List PublicCardEvent) :
    oldestFirst events
      = events.insertionSort fun a b => cardRules.sequence a ≤ cardRules.sequence b :=
  insertionSort_congr (fun _ _ => compareSequence_ne_gt _ _) events

theorem preferred_eq (existing incoming : PublicCardEvent) :
    preferred (some existing) incoming = cardRules.preferred existing incoming := by
  rw [preferred, CacheRules.preferred]
  have hsequence := compareSequence_ne_lt incoming.sequence existing.sequence
  have hbetter : cardRules.Better existing incoming ↔
      STATE_RANK incoming.state < STATE_RANK existing.state ∨
        (STATE_RANK existing.state = STATE_RANK incoming.state ∧
          textNat incoming.sequence < textNat existing.sequence) := Iff.rfl
  by_cases hrank : STATE_RANK incoming.state ≠ STATE_RANK existing.state
  · rw [if_pos hrank]
    by_cases hless : STATE_RANK existing.state < STATE_RANK incoming.state
    · rw [if_pos hless, if_neg (by rw [hbetter]; omega)]
    · rw [if_neg hless, if_pos (by rw [hbetter]; omega)]
  · rw [if_neg hrank]
    by_cases hnewer : compareSequence incoming.sequence existing.sequence ≠ .lt
    · rw [if_pos hnewer, if_neg (by rw [hbetter]; have := hsequence.mp hnewer; omega)]
    · have holder : ¬ textNat existing.sequence ≤ textNat incoming.sequence :=
        fun h => hnewer (hsequence.mpr h)
      rw [if_neg hnewer, if_pos (by rw [hbetter]; omega)]

/-! ## One observation -/

/-- With one event too many, the loop deletes the oldest one and stops. -/
theorem deleteOverflow_eq {maxRetained : Nat} {events : List PublicCardEvent}
    (hlength : events.length = maxRetained + 1) :
    deleteOverflow maxRetained 0 (oldestFirst events) events = cardRules.trim maxRetained events := by
  have hover : maxRetained < events.length := hlength ▸ Nat.lt_succ_self maxRetained
  have hperm : (oldestFirst events).Perm events := List.perm_insertionSort _ _
  rw [CacheRules.trim, CacheRules.leaving, if_pos hover, ← oldestFirst_eq]
  cases hsorted : oldestFirst events with
  | nil =>
    have hempty := hperm.length_eq
    rw [hsorted, hlength] at hempty
    cases hempty
  | cons first rest =>
    have hfirst : first ∈ events := hperm.mem_iff.mp (hsorted ▸ List.mem_cons_self)
    rw [deleteOverflow, if_pos (by omega)]
    show deleteOverflow maxRetained 1 rest (events.filter fun e => durableKey e ≠ durableKey first)
      = events.filter fun e => durableKey e ≠ durableKey first
    -- what is left is within the bound, so the second turn of the loop is the last
    have hless : (events.filter fun e => durableKey e ≠ durableKey first).length < events.length :=
      List.length_filter_lt_length_iff_exists.mpr ⟨first, hfirst, by simp⟩
    cases rest with
    | nil => rfl
    | cons second rest => rw [deleteOverflow, if_neg (by omega)]

theorem retained_eq (events : List PublicCardEvent) (observation : PublicCardEvent) :
    retained events (durableKey observation)
      = events.find? fun e => cardRules.key e = cardRules.key observation := rfl

/-- An observation that is retained is admitted to the cache. -/
theorem retain_eq {maxRetained : Nat} {events : List PublicCardEvent}
    (hlength : events.length ≤ maxRetained)
    (observation : PublicCardEvent) :
    (retain maxRetained events observation).2 = cardRules.receive maxRetained events observation := by
  rw [retain, CacheRules.receive, ← retained_eq]
  cases hexisting : retained events (durableKey observation) with
  | none =>
    have hset : setEvent events (durableKey observation) (preferred none observation)
        = events ++ [observation] := by
      rw [setEvent, hexisting]
      rfl
    show (if maxRetained < (setEvent events (durableKey observation)
        (preferred none observation)).length then _ else _) = _
    rw [hset]
    by_cases hover : maxRetained < (events ++ [observation]).length
    · rw [if_pos hover]
      refine deleteOverflow_eq ?_
      rw [List.length_append, List.length_singleton] at hover ⊢
      omega
    · rw [if_neg hover, CacheRules.trim, CacheRules.leaving, if_neg hover]
      rfl
  | some existing =>
    have hset : setEvent events (durableKey observation) (preferred (some existing) observation)
        = events.map fun e => if durableKey e = durableKey observation then
            cardRules.preferred existing observation else e := by
      rw [setEvent, hexisting, preferred_eq]
      rfl
    have hconflict : (existing.memo ≠ observation.memo || existing.mint ≠ observation.mint) = true ↔
        cardRules.tag existing ≠ cardRules.tag observation := by
      show _ ↔ ¬ (existing.memo, existing.mint) = (observation.memo, observation.mint)
      rw [Prod.mk.injEq, Bool.or_eq_true, decide_eq_true_iff, decide_eq_true_iff]
      tauto
    by_cases htag : cardRules.tag existing = cardRules.tag observation
    · have hsame : ¬ (Option.any (fun e : PublicCardEvent => e.memo ≠ observation.memo ||
          e.mint ≠ observation.mint) (some existing)) := fun h => hconflict.mp h htag
      have hroom : ¬ maxRetained < (setEvent events (durableKey observation)
          (preferred (some existing) observation)).length := by
        rw [hset, List.length_map]
        omega
      rw [if_neg hsame]
      show (if _ then _ else _) = if _ then _ else _
      rw [if_neg hroom, if_pos htag, hset]
      rfl
    · have hdiffer : Option.any (fun e : PublicCardEvent => e.memo ≠ observation.memo ||
          e.mint ≠ observation.mint) (some existing) := hconflict.mpr htag
      rw [if_pos hdiffer]
      exact (if_neg htag).symm

/-! ## Deliveries of trusted observations -/

/-- An observation that the collector takes as the event of one of its operations. -/
structure Accepted (c : RecentWinnersCollector) (raw : Value) (o : PublicCardEvent) : Prop where
  event : assertPublicCardEvent raw = .ok o
  memo : o.memo ≠ none
  trusted : trustedMatch c raw o

theorem ingest_accepted {c : RecentWinnersCollector} {raw : Value} {o : PublicCardEvent}
    (h : Accepted c raw o) (events : List PublicCardEvent) :
    ingest c events raw = .ok (retain c.maxRetained events o) := by
  have hnot : ¬ (o.memo = none ∨ ¬ trustedMatch c raw o) := by
    rintro (hnone | hno)
    · exact h.memo hnone
    · exact hno h.trusted
  rw [ingest, h.event, ok_bind, if_neg hnot]
  rfl

def eventOf (raw : Value) : Option PublicCardEvent := (assertPublicCardEvent raw).toOption

def eventsOf (raws : List Value) : List PublicCardEvent := raws.filterMap eventOf

theorem Accepted.eventOf {c : RecentWinnersCollector} {raw : Value} {o : PublicCardEvent}
    (h : Accepted c raw o) : eventOf raw = some o := by
  rw [Collector.eventOf, h.event]
  rfl

theorem mem_eventsOf {raws : List Value} {o : PublicCardEvent} :
    o ∈ eventsOf raws ↔ ∃ raw ∈ raws, eventOf raw = some o := List.mem_filterMap

/-- Accepted observations are admitted one after the other. -/
theorem deliver_accepted {c : RecentWinnersCollector} {raws : List Value}
    (h : ∀ raw ∈ raws, ∃ o, Accepted c raw o) :
    deliver c raws = .ok (cardRules.deliver c.maxRetained (eventsOf raws)) := by
  suffices hrun : ∀ (delivered entries : List PublicCardEvent),
      cardRules.Cached c.maxRetained delivered entries → (∀ o ∈ eventsOf raws, o ∈ delivered) →
      raws.foldlM (fun events raw => Prod.snd <$> ingest c events raw) entries
        = .ok ((eventsOf raws).foldl (cardRules.receive c.maxRetained) entries) from
    hrun _ [] (CacheRules.cached_nil _ _) fun _ ho => ho
  intro delivered entries hcached hdelivered
  induction raws generalizing entries with
  | nil => rfl
  | cons raw raws ih =>
    obtain ⟨o, ho⟩ := h raw List.mem_cons_self
    have hevents : eventsOf (raw :: raws) = o :: eventsOf raws :=
      List.filterMap_cons_some ho.eventOf
    have hretain := retain_eq hcached.bounded o
    rw [hevents] at hdelivered ⊢
    rw [List.foldlM_cons, ingest_accepted ho]
    show List.foldlM _ (retain c.maxRetained entries o).2 raws = _
    rw [hretain]
    exact ih (fun raw hraw => h raw (List.mem_cons_of_mem _ hraw)) _
      (hcached.receive (hdelivered o List.mem_cons_self))
      fun e he => hdelivered e (List.mem_cons_of_mem _ he)

end Hookemon.Collector
