import Hookemon.Collector.FeedRows

/-! # Feeds that a collector can use

The feed copies some values of the evidence that the validation of the stages does not look
at: the mint of a pack that is held at the opening, the signature of a purchase, and the times
and the wallet of the caller. The collector does look at them.
-/

namespace Hookemon.Collector

open Hookemon.Core Hookemon.Js

/-! ## What the feed makes itself -/

theorem natText_ne_nil (n : Nat) : natText n ≠ [] := by
  intro hempty
  have hdecimal := isDecimal_natText n
  rw [hempty] at hdecimal
  cases hdecimal

theorem text_integer_ne_nil {chainId : Number} {n : Int}
    (h : integerOf (.number chainId) = some n) : chainId.text ≠ [] := by
  cases chainId with
  | integer m double =>
    have hmagnitude : magnitudeText m.natAbs ≠ [] := by
      rw [magnitudeText]
      split
      · exact natText_ne_nil _
      · simp [exponentText, natText_ne_nil]
    simp [Number.text, hmagnitude]
  | negativeZero => decide
  | notFinite => cases h

theorem assertAmount_eq_ok {value : Value} {label : String} :
    assertAmount value label = .ok () ↔ isObject value ∧
      (isNonEmptyString (value.get (text "chainId")) ∧
        isNonEmptyString (value.get (text "assetId"))) ∧
      isAssetDecimals (value.get (text "decimals")) ∧
      isDecimalString (value.get (text "units")) := by
  simp only [assertAmount, bind_eq_ok, revertIf_eq_ok, not_not, not_or, exists_const]

/-- The amounts that the feed shows are amounts to the collector. -/
theorem assertProceeds_publicProceeds (value : Value) :
    assertProceeds (publicProceeds value) = .ok () := by
  rw [publicProceeds.eq_def]
  dsimp only
  generalize value.get (text "chainId") = chainId
  generalize value.get (text "assetId") = assetId
  generalize value.get (text "decimals") = decimals
  generalize value.get (text "amountAtomic") = amountAtomic
  by_cases hchain : ¬ isNonEmptyString chainId ∧ (integerOf chainId).isNone
  · rw [if_pos hchain]
    rfl
  by_cases hasset : ¬ isNonEmptyString assetId
  · rw [if_neg hchain, if_pos hasset]
    rfl
  by_cases hdecimals : ¬ isAssetDecimals decimals
  · rw [if_neg hchain, if_neg hasset, if_pos hdecimals]
    rfl
  by_cases hamount : ¬ isDecimalString amountAtomic
  · rw [if_neg hchain, if_neg hasset, if_neg hdecimals, if_pos hamount]
    rfl
  rw [if_neg hchain, if_neg hasset, if_neg hdecimals, if_neg hamount]
  have hid : isNonEmptyString (.string (publicProceeds.chainText chainId)) := by
    cases chainId with
    | string s =>
      have hs : isNonEmptyString (.string s) := by simpa [integerOf] using hchain
      exact hs
    | number x =>
      obtain ⟨n, hn⟩ : ∃ n, integerOf (.number x) = some n := by
        rw [← Option.ne_none_iff_exists']
        simpa [isNonEmptyString] using hchain
      exact decide_eq_true (text_integer_ne_nil hn)
    | _ => exact absurd ⟨by simp [isNonEmptyString], rfl⟩ hchain
  rw [assertProceeds, if_neg (by simp)]
  exact assertAmount_eq_ok.mpr
    ⟨rfl, ⟨hid, not_not.mp hasset⟩, not_not.mp hdecimals, not_not.mp hamount⟩

theorem Resolved.assertProceeds {s : CompleteStages} {i : Nat} {l : Lifecycle}
    (h : Resolved s i l) : assertProceeds l.proceeds = .ok () := by
  cases h with
  | sold pack => exact assertProceeds_publicProceeds _
  | _ => rfl

theorem orNull_orNull (value : Value) : orNull (orNull value) = orNull value := by
  by_cases h : value = .undefined
  · rw [orNull, orNull, if_pos h]
    rfl
  · rw [orNull, orNull, if_neg h, if_neg h]

theorem orNull_string {value : Value} (h : isNonEmptyString value) : orNull value = value := by
  cases value with
  | string s => rfl
  | _ => cases h

/-- The mint of a lifecycle is what the trusted operation states. -/
theorem Resolved.orNull_mint {s : CompleteStages} {i : Nat} {l : Lifecycle}
    (h : Resolved s i l) : orNull l.mint = l.mint := by
  cases h with
  | purchased => rfl
  | heldAtOpening | heldAtGate | heldAtBuyback => exact orNull_orNull _
  | opened pack _ _ mint | gated pack _ _ mint | sold pack _ _ mint => exact orNull_string mint

theorem optionalValue_optionalOf {value : Value} (h : isOptionalString value) :
    optionalValue (optionalOf value) = value := by
  cases value with
  | string s => rfl
  | null => rfl
  | _ => cases h

/-! ## The collector of a feed -/

/-- A collector takes every observation of the feed, in any order and however often. -/
def Usable (feed : DurableCardFeed) : Prop :=
  ∀ maxRetained n, safeIndex maxRetained = some n → 0 < n →
    ∃ c, createRecentWinnersCollector feed.trustedOperations maxRetained = .ok c ∧
      ∀ raws, (∀ raw ∈ raws, raw ∈ feed.observations) → ∀ raw ∈ feed.observations,
        ∃ events e after, deliver c raws = .ok events ∧ ingest c events raw = .ok (some e, after)

theorem create_eq_ok {trustedOperations : List (Text × Value)} {maxRetained : Value} {n : Nat}
    (hn : safeIndex maxRetained = some n) (hpositive : 0 < n) :
    (∃ c, createRecentWinnersCollector trustedOperations maxRetained = .ok c ∧
        c.trustedOperations = trustedOperations) ↔
      trustedOperations ≠ [] ∧
        ∀ entry ∈ trustedOperations, entry.1 ≠ [] ∧ isTrustedOperationRecord entry.2 := by
  have hall : trustedOperations.all (fun entry =>
      entry.1 ≠ [] && isTrustedOperationRecord entry.2) ↔
        ∀ entry ∈ trustedOperations, entry.1 ≠ [] ∧ isTrustedOperationRecord entry.2 := by
    simp
  have hbound : ∃ n, safeIndex maxRetained = some n ∧ 0 < n := ⟨n, hn, hpositive⟩
  rw [createRecentWinnersCollector]
  by_cases hempty : trustedOperations = []
  · rw [if_pos hempty]
    simp [hempty]
  · by_cases hrecords : trustedOperations.all fun entry =>
        entry.1 ≠ [] && isTrustedOperationRecord entry.2
    · rw [if_neg hempty, if_neg (not_not.mpr hrecords), dif_pos hbound]
      exact ⟨fun _ => ⟨hempty, hall.mp hrecords⟩, fun _ => ⟨_, rfl, rfl⟩⟩
    · rw [if_neg hempty, if_pos hrecords]
      constructor
      · rintro ⟨c, hc, -⟩
        cases hc
      · rintro ⟨-, hvalid⟩
        exact absurd (hall.mpr hvalid) hrecords

theorem isOptionalString_optionalValue (s : Option Text) :
    isOptionalString (optionalValue s) ↔ s ≠ some [] := by
  cases s with
  | none => simp [optionalValue, isOptionalString]
  | some s => simp [optionalValue, isOptionalString, isNonEmptyString]

theorem isTrustedOperationRecord_trustedRecord {input : FeedInput} {i : Nat}
    {lifecycle : Option Lifecycle} (hcycle : input.cycleId ≠ []) (hi : i < 2 ^ 32) :
    isTrustedOperationRecord (trustedRecord input i lifecycle) ↔
      isOptionalString (orNull ((lifecycle.map Lifecycle.mint).getD .undefined)) ∧
        input.operatorWallet ≠ some [] := by
  have hoperation : isNonEmptyString (.string (operationId input.cycleId i)) := by
    simp [isNonEmptyString, operationId, text]
  have hcycleId : isNonEmptyString (.string input.cycleId) := by simpa [isNonEmptyString] using hcycle
  rw [← isOptionalString_optionalValue]
  show (true && isNonEmptyString (.string input.cycleId) &&
    isNonEmptyString (.string (operationId input.cycleId i)) &&
    (safeIndex (.number (.ofNat i))).isSome &&
    isOptionalString (orNull ((lifecycle.map Lifecycle.mint).getD .undefined)) &&
    isOptionalString (optionalValue input.operatorWallet)) = true ↔ _
  rw [hoperation, hcycleId, safeIndex_ofNat hi]
  simp

/-- What the collector asks of a pack that has a lifecycle. -/
structure PackFine (input : FeedInput) (time i : Nat) (lifecycle : Lifecycle) : Prop where
  mint : isOptionalString lifecycle.mint
  readable : ∀ times, observationTimes input time i lifecycle = .ok (some times) →
    Readable lifecycle times

theorem indexKey_ofNat {i : Nat} (hi : i < 2 ^ 32) : indexKey (.number (.ofNat i)) = some i := by
  rw [ofNat_small (by omega)]
  show (if (0 : Int) ≤ (i : Int) then some (i : Int).toNat else none) = some i
  rw [if_pos (Int.natCast_nonneg i), Int.toNat_natCast]

/-- The texts up to a colon are told apart. -/
theorem natText_colon_injective {i j : Nat} {a b : Text}
    (h : natText i ++ 58 :: a = natText j ++ 58 :: b) : i = j := by
  have htake : ∀ (n : Nat) (c : Text), (natText n ++ 58 :: c).takeWhile isDigit = natText n := by
    intro n c
    have hdigits := isDecimal_digits (isDecimal_natText n)
    rw [List.takeWhile_append_of_pos hdigits]
    simp [isDigit]
  rw [← textNat_natText i, ← htake i a, h, htake j b, textNat_natText]

theorem durableKey_shownEvent {input : FeedInput} {time time' i j : Nat} {memo memo' : Text}
    {l l' : Lifecycle} {times times' : Text × Option Text}
    (h : durableKey (shownEvent input time i memo l times)
      = durableKey (shownEvent input time' j memo' l' times')) : i = j := by
  have hcolon : natText i ++ 58 :: natText i = natText j ++ 58 :: natText j := by
    simpa [durableKey, shownEvent, operationId] using h
  exact natText_colon_injective hcolon

/-- The record of a pack matches the observation that is made of it. -/
theorem trustedMatch_shownEvent {c : RecentWinnersCollector} {input : FeedInput} {time i : Nat}
    {memo : Text} {l : Lifecycle} {times : Text × Option Text} (hi : i < 2 ^ 32)
    (hrecord : c.trustedOperations.lookup memo = some (trustedRecord input i (some l)))
    (hmint : orNull l.mint = optionalValue (optionalOf l.mint)) :
    trustedMatch c (observationOf input time i (.string memo) l times)
      (shownEvent input time i memo l times) = true := by
  have hfound : (some memo).bind (fun memo => c.trustedOperations.lookup memo)
      = some (trustedRecord input i (some l)) := hrecord
  rw [trustedMatch]
  dsimp only [shownEvent]
  rw [hfound]
  show (decide (Value.string input.cycleId = .string input.cycleId) &&
    decide (Value.string (operationId input.cycleId i) = .string (operationId input.cycleId i)) &&
    decide (safeIndex (.number (.ofNat i)) = some i) &&
    (decide (orNull l.mint = .null) || decide (orNull l.mint = optionalValue (optionalOf l.mint))) &&
    (decide (optionalValue input.operatorWallet = .null) ||
      decide (optionalValue input.operatorWallet = optionalValue input.operatorWallet))) = true
  -- only the index and the mint are read through another function than they were written
  rw [safeIndex_ofNat hi, hmint]
  simp

section

variable {input : FeedInput} {time : Nat} {requests : List Value} {s : CompleteStages}
  (h : Passes input time requests s)

include h

theorem Passes.lt {i : Nat} {request : Value} (hi : requests[i]? = some request) : i < 2 ^ 32 :=
  lt_trans (List.getElem?_eq_some_iff.mp hi).1 (input.arrayLength requests h.array)

variable {feed : DurableCardFeed} (hbuild : buildDurableCardFeed input = .ok feed)

include hbuild

theorem trustedOperations_keys : feed.trustedOperations.map Prod.fst = requests.map memoOf := by
  rw [trustedOperations_eq h hbuild, List.map_map]
  calc requests.zipIdx.map (Prod.fst ∘ fun request => (memoOf request.1,
        trustedRecord input request.2 (resolvePackLifecycle request.2 s)))
      = (requests.zipIdx.map Prod.fst).map memoOf := by rw [List.map_map]; rfl
    _ = requests.map memoOf := by rw [List.zipIdx_map_fst]

/-- The trusted operation of a request is found under its memo. -/
theorem lookup_trustedOperations {i : Nat} {request : Value} (hi : requests[i]? = some request) :
    feed.trustedOperations.lookup (memoOf request)
      = some (trustedRecord input i (resolvePackLifecycle i s)) := by
  have hdistinct : (feed.trustedOperations.map Prod.fst).Nodup :=
    trustedOperations_keys h hbuild ▸ h.distinct
  rw [lookup_eq_some_iff hdistinct, trustedOperations_eq h hbuild]
  exact List.mem_map.mpr ⟨(request, i), List.mem_zipIdx_iff_getElem?.mpr hi, rfl⟩

theorem accepted_of_fine {c : RecentWinnersCollector}
    (hc : c.trustedOperations = feed.trustedOperations) {i : Nat} {request : Value}
    (hi : requests[i]? = some request) {l : Lifecycle} (hl : resolvePackLifecycle i s = some l)
    (hfine : PackFine input time i l) {times : Text × Option Text}
    (htimes : observationTimes input time i l = .ok (some times)) :
    Accepted c (observationOf input time i (.string (memoOf request)) l times)
      (shownEvent input time i (memoOf request) l times) := by
  have hresolved := resolved h.validated hl
  have hmemo := (h.memo (List.mem_of_getElem? hi)).2
  have hmint : orNull l.mint = optionalValue (optionalOf l.mint) := by
    rw [hresolved.orNull_mint, optionalValue_optionalOf hfine.mint]
  have hrecord := lookup_trustedOperations h hbuild hi
  rw [← hc, hl] at hrecord
  exact ⟨(assertPublicCardEvent_observationOf h.cycleId (h.lt hi) hmemo hresolved.assertProceeds).mpr
    ⟨hfine.readable times htimes, rfl⟩, by simp [shownEvent],
    trustedMatch_shownEvent (h.lt hi) hrecord hmint⟩

/-- The feed is usable when the wallet and every pack that has a lifecycle are fine. -/
theorem usable_iff :
    Usable feed ↔ input.operatorWallet ≠ some [] ∧
      ∀ i l, resolvePackLifecycle i s = some l → PackFine input time i l := by
  have hempty : feed.trustedOperations ≠ [] := by
    intro hnil
    have hkeys := trustedOperations_keys h hbuild
    rw [hnil] at hkeys
    exact h.ne_nil (List.map_eq_nil_iff.mp hkeys.symm)
  have hrecords : (∀ entry ∈ feed.trustedOperations,
      entry.1 ≠ [] ∧ isTrustedOperationRecord entry.2) ↔ ∀ i request, requests[i]? = some request →
        isOptionalString (orNull (((resolvePackLifecycle i s).map Lifecycle.mint).getD .undefined)) ∧
          input.operatorWallet ≠ some [] := by
    rw [trustedOperations_eq h hbuild, List.forall_mem_map]
    constructor
    · intro hall i request hi
      exact (isTrustedOperationRecord_trustedRecord h.cycleId (h.lt hi)).mp
        (hall (request, i) (List.mem_zipIdx_iff_getElem?.mpr hi)).2
    · intro hall entry hentry
      have hi := List.mem_zipIdx_iff_getElem?.mp hentry
      exact ⟨(h.memo (List.mem_of_getElem? hi)).2,
        (isTrustedOperationRecord_trustedRecord h.cycleId (h.lt hi)).mpr (hall _ _ hi)⟩
  constructor
  · intro husable
    obtain ⟨c, hc, hingest⟩ := husable (.number (.ofNat 1)) 1 (safeIndex_ofNat (by decide)) one_pos
    have hcreated : ∀ entry ∈ feed.trustedOperations,
        entry.1 ≠ [] ∧ isTrustedOperationRecord entry.2 := by
      by_contra hnot
      rw [createRecentWinnersCollector, if_neg hempty, if_pos (by simpa using hnot)] at hc
      cases hc
    have hvalid := hrecords.mp hcreated
    -- the wallet is the same for every pack, so one pack shows that it is fine
    obtain ⟨first, hfirst⟩ := List.exists_mem_of_ne_nil _ h.ne_nil
    obtain ⟨j, hj⟩ := List.getElem?_of_mem hfirst
    refine ⟨(hvalid j first hj).2, fun i l hl => ?_⟩
    have hi := List.getElem?_eq_getElem (resolve_lt h.validated hl)
    have hresolved := resolved h.validated hl
    have hmint := (hvalid i _ hi).1
    rw [hl] at hmint
    refine ⟨hresolved.orNull_mint ▸ hmint, fun times htimes => ?_⟩
    -- the observation is ingested by a collector that has no events yet
    have hobserved := (mem_observations h hbuild).mpr ⟨i, _, l, times, hi, hl, htimes, rfl⟩
    obtain ⟨events, e, after, -, hok⟩ := hingest [] (by simp) _ hobserved
    rw [ingest] at hok
    obtain ⟨o, ho, -⟩ := bind_eq_ok.mp hok
    have hmemo := (h.memo (List.mem_of_getElem? hi)).2
    exact ((assertPublicCardEvent_observationOf h.cycleId (h.lt hi) hmemo
      hresolved.assertProceeds).mp ho).1
  · rintro ⟨hwallet, hfine⟩ maxRetained n hn hpositive
    have hvalid : ∀ i request, requests[i]? = some request →
        isOptionalString (orNull (((resolvePackLifecycle i s).map Lifecycle.mint).getD .undefined)) ∧
          input.operatorWallet ≠ some [] := by
      intro i request hi
      refine ⟨?_, hwallet⟩
      cases hl : resolvePackLifecycle i s with
      | none => rfl
      | some l =>
        show isOptionalString (orNull l.mint)
        rw [(resolved h.validated hl).orNull_mint]
        exact (hfine i l hl).mint
    obtain ⟨c, hc, htrusted⟩ := (create_eq_ok hn hpositive).mpr ⟨hempty, hrecords.mpr hvalid⟩
    have haccepted : ∀ raw ∈ feed.observations, ∃ i request l times,
        Accepted c raw (shownEvent input time i (memoOf request) l times) ∧
          requests[i]? = some request ∧ resolvePackLifecycle i s = some l := by
      intro raw hraw
      obtain ⟨i, request, l, times, hi, hl, htimes, rfl⟩ := (mem_observations h hbuild).mp hraw
      exact ⟨i, request, l, times,
        accepted_of_fine h hbuild htrusted hi hl (hfine i l hl) htimes, hi, hl⟩
    refine ⟨c, hc, fun raws hraws raw hraw => ?_⟩
    have hdeliver := deliver_accepted fun r hr => by
      obtain ⟨i, request, l, times, ho, -⟩ := haccepted r (hraws r hr)
      exact ⟨_, ho⟩
    obtain ⟨i, request, l, times, ho, hi, hl⟩ := haccepted raw hraw
    -- what is retained of the pack comes from the same row, so it agrees on memo and mint
    have hagree : ¬ (retained (cardRules.deliver c.maxRetained (eventsOf raws))
        (durableKey (shownEvent input time i (memoOf request) l times))).any fun e =>
          e.memo ≠ (shownEvent input time i (memoOf request) l times).memo ||
            e.mint ≠ (shownEvent input time i (memoOf request) l times).mint := by
      cases hretained : retained (cardRules.deliver c.maxRetained (eventsOf raws))
          (durableKey (shownEvent input time i (memoOf request) l times)) with
      | none => simp
      | some e =>
        have hkey : durableKey e = durableKey (shownEvent input time i (memoOf request) l times) := by
          simpa using List.find?_some hretained
        have hdelivered := (CacheRules.cached_deliver fun _ hx => hx).delivered e
          (List.mem_of_find?_eq_some hretained)
        obtain ⟨r, hr, hevent⟩ := mem_eventsOf.mp hdelivered
        obtain ⟨j, request', l', times', ho', hj, hl'⟩ := haccepted r (hraws r hr)
        rw [ho'.eventOf] at hevent
        cases hevent
        obtain rfl : j = i := durableKey_shownEvent hkey
        rw [hi] at hj
        rw [hl] at hl'
        cases hj
        cases hl'
        simp [shownEvent]
    obtain ⟨e, after, hretain⟩ : ∃ e after, retain c.maxRetained
        (cardRules.deliver c.maxRetained (eventsOf raws))
        (shownEvent input time i (memoOf request) l times) = (some e, after) := by
      rw [retain, if_neg hagree]
      exact ⟨_, _, rfl⟩
    exact ⟨_, e, after, hdeliver, by rw [ingest_accepted ho, hretain]⟩

end

end Hookemon.Collector
