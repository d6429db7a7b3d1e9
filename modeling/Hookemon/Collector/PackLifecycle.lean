import Hookemon.Collector.DurableCardFeed

/-! # What validated stages say of a pack

A complete stage has a row for exactly the packs that the stage before it selects. So the
lifecycle of a pack is read from the last stage that has a row for it, and a decision that is
final stays when further stages become complete.
-/

namespace Hookemon.Collector

open Hookemon.Core Hookemon.Js

/-! ## Maps of packs -/

section

variable {κ β : Type} [BEq κ] [LawfulBEq κ] {rows : List (κ × β)} {k : κ}

theorem lookup_isSome_iff : (rows.lookup k).isSome ↔ k ∈ rows.map Prod.fst := by
  induction rows with
  | nil => simp
  | cons row rows ih =>
    rw [List.lookup_cons, List.map_cons, List.mem_cons]
    by_cases h : k = row.1
    · simp [h]
    · have hne : (k == row.1) = false := by simpa using h
      simp [hne, h, ih]

theorem lookup_eq_some_iff (hrows : (rows.map Prod.fst).Nodup) {b : β} :
    rows.lookup k = some b ↔ (k, b) ∈ rows := by
  induction rows with
  | nil => simp
  | cons row rows ih =>
    rw [List.map_cons, List.nodup_cons] at hrows
    rw [List.lookup_cons, List.mem_cons, ← ih hrows.2]
    by_cases h : k = row.1
    · have hnone : rows.lookup k = none := by
        rw [← Option.not_isSome_iff_eq_none, lookup_isSome_iff, h]
        exact hrows.1
      rw [hnone, Prod.ext_iff]
      subst h
      simp [eq_comm]
    · have hne : (k == row.1) = false := by simpa using h
      simp [hne, h, Prod.ext_iff]

end

theorem lookup_filter {rows : PackMap} (hrows : (rows.map Prod.fst).Nodup) (selects : Value → Bool)
    {i : Nat} {pack : Value} :
    (rows.filter fun row => selects row.2).lookup i = some pack ↔
      rows.lookup i = some pack ∧ selects pack := by
  have hfiltered : ((rows.filter fun row => selects row.2).map Prod.fst).Nodup :=
    hrows.sublist (List.filter_sublist.map _)
  rw [lookup_eq_some_iff hfiltered, lookup_eq_some_iff hrows, List.mem_filter]

/-! ## Complete stages -/

/-- The rows of a stage against those of the stage before it. -/
structure Follows (packs : List Value) (rows : PackMap) (selects : Value → Bool)
    (validate : Value → Value → Bool) (result : PackMap) : Prop where
  distinct : (result.map Prod.fst).Nodup
  valid : ∀ i pack, result.lookup i = some pack →
    ∃ predecessor, rows.lookup i = some predecessor ∧ selects predecessor ∧
      validate pack predecessor
  complete : ∀ i predecessor, rows.lookup i = some predecessor → selects predecessor →
    (result.lookup i).isSome
  row : ∀ i pack, result.lookup i = some pack ↔
    pack ∈ packs ∧ indexKey (pack.get (text "packIndex")) = some i

/-- The loop adds rows of new indexes that are expected and valid. -/
theorem collectPacks_eq_some {expected : PackMap} {validate : Value → Value → Bool}
    {packs : List Value} {result after : PackMap}
    (h : collectPacks expected validate packs result = some after)
    (hdistinct : (result.map Prod.fst).Nodup)
    (hvalid : ∀ row ∈ result, ∃ predecessor, expected.lookup row.1 = some predecessor ∧
      validate row.2 predecessor) :
    (after.map Prod.fst).Nodup ∧ after.length = expected.length ∧
      (∀ row ∈ after, ∃ predecessor, expected.lookup row.1 = some predecessor ∧
        validate row.2 predecessor) ∧
      ∀ row, row ∈ after ↔ row ∈ result ∨
        (row.2 ∈ packs ∧ indexKey (row.2.get (text "packIndex")) = some row.1) := by
  induction packs generalizing result with
  | nil =>
    rw [collectPacks] at h
    split at h
    · cases h
      exact ⟨hdistinct, ‹_›, hvalid, fun row => by simp⟩
    · cases h
  | cons pack packs ih =>
    rw [collectPacks] at h
    split at h
    · obtain ⟨index, hindex, h⟩ := Option.bind_eq_some_iff.mp h
      obtain ⟨predecessor, hexpected, h⟩ := Option.bind_eq_some_iff.mp h
      split at h
      · cases h
      · rename_i hnot
        simp only [not_or, not_not] at hnot
        obtain ⟨hfresh, -, hrow⟩ := hnot
        rw [lookup_isSome_iff] at hfresh
        have hdistinct' : ((result ++ [(index, pack)]).map Prod.fst).Nodup := by
          rw [List.map_append]
          exact hdistinct.append (List.nodup_singleton _) (by simpa using hfresh)
        have hvalid' : ∀ row ∈ result ++ [(index, pack)],
            ∃ predecessor, expected.lookup row.1 = some predecessor ∧
              validate row.2 predecessor := by
          intro row hmem
          rcases List.mem_append.mp hmem with hold | hnew
          · exact hvalid row hold
          · rw [List.mem_singleton.mp hnew]
            exact ⟨predecessor, hexpected, hrow⟩
        obtain ⟨hnodup, hlength, hafter, hrows⟩ := ih h hdistinct' hvalid'
        refine ⟨hnodup, hlength, hafter, fun row => ?_⟩
        have hnew : row = (index, pack) ↔
            row.2 = pack ∧ indexKey (row.2.get (text "packIndex")) = some row.1 := by
          constructor
          · rintro rfl
            exact ⟨rfl, hindex⟩
          · rintro ⟨hpack, hkey⟩
            rw [hpack, hindex] at hkey
            exact Prod.ext (Option.some.inj hkey).symm hpack
        rw [hrows, List.mem_append, List.mem_singleton, hnew, List.mem_cons]
        tauto
    · cases h

theorem mapStagePacks_eq_some {packs : List Value} {rows result : PackMap} {selects : Value → Bool}
    {validate : Value → Value → Bool} (hrows : (rows.map Prod.fst).Nodup)
    (h : mapStagePacks (.array packs) (rows.filter fun row => selects row.2) validate
      = some result) : Follows packs rows selects validate result := by
  rw [mapStagePacks] at h
  split at h
  · cases h
  · obtain ⟨hdistinct, hlength, hvalid, hmem⟩ :=
      collectPacks_eq_some h List.nodup_nil (fun row hmem => by cases hmem)
    have hread : ∀ i pack, result.lookup i = some pack →
        ∃ predecessor, rows.lookup i = some predecessor ∧ selects predecessor ∧
          validate pack predecessor := by
      intro i pack hi
      obtain ⟨predecessor, hpredecessor, hrow⟩ :=
        hvalid (i, pack) ((lookup_eq_some_iff hdistinct).mp hi)
      obtain ⟨hbefore, hselected⟩ := (lookup_filter hrows selects).mp hpredecessor
      exact ⟨predecessor, hbefore, hselected, hrow⟩
    refine ⟨hdistinct, hread, fun i predecessor hi hselected => ?_, fun i pack => ?_⟩
    · -- the rows are as many as the selected packs, and all of their indexes are selected
      have hfiltered : ((rows.filter fun row => selects row.2).map Prod.fst).Nodup :=
        hrows.sublist (List.filter_sublist.map _)
      have hsub : result.map Prod.fst ⊆ (rows.filter fun row => selects row.2).map Prod.fst := by
        intro j hj
        obtain ⟨row, hrow, rfl⟩ := List.mem_map.mp hj
        obtain ⟨before, hbefore, -⟩ := hvalid row hrow
        rw [← lookup_isSome_iff, hbefore]
        rfl
      have hperm := (hdistinct.subperm hsub).perm_of_length_le (by
        rw [List.length_map, List.length_map, hlength])
      rw [lookup_isSome_iff, hperm.mem_iff, ← lookup_isSome_iff,
        (lookup_filter hrows selects).mpr ⟨hi, hselected⟩]
      rfl
    · rw [lookup_eq_some_iff hdistinct, hmem]
      simp

/-- The row of a pack in the evidence of a complete stage. -/
def StageRow (stage : Value) (packIndex : Nat) (pack : Value) : Prop :=
  isComplete stage ∧ ∃ packs, (stage.get (text "evidence")).get (text "packs") = .array packs ∧
    pack ∈ packs ∧ indexKey (pack.get (text "packIndex")) = some packIndex

/-- What a stage that is not rejected says of the packs, against the stage before it. -/
structure StageFollows (stage : Value) (before : Option PackMap) (selects : Value → Bool)
    (validate : Value → Value → Bool) (after : Option PackMap) : Prop where
  complete : after.isSome ↔ isComplete stage
  distinct : ∀ rows, after = some rows → (rows.map Prod.fst).Nodup
  row : ∀ i pack, packAt after i = some pack ↔ StageRow stage i pack
  valid : ∀ i pack, packAt after i = some pack → ∃ predecessor,
    packAt before i = some predecessor ∧ selects predecessor ∧ validate pack predecessor
  all : after.isSome → ∀ i predecessor, packAt before i = some predecessor →
    selects predecessor → ∃ pack, packAt after i = some pack

theorem isComplete_iff_stagePacks {stage : Value} :
    isComplete stage ↔ (stagePacks stage).isSome := by
  rw [stagePacks]
  split
  · rename_i h
    split <;> simp [h]
  · simp_all

theorem stagePacks_eq_array {stage : Value} {packs : List Value}
    (h : stagePacks stage = some (.array packs)) :
    isComplete stage ∧ (stage.get (text "evidence")).get (text "packs") = .array packs := by
  rw [stagePacks] at h
  split at h
  · rename_i hcomplete
    split at h
    · rename_i hpacks
      cases h
      exact ⟨hcomplete, hpacks⟩
    · cases h
  · cases h

theorem nextStage_eq_some {stage : Value} {before after : Option PackMap}
    {selects : Value → Bool} {validate : Value → Value → Bool}
    (hbefore : ∀ rows, before = some rows → (rows.map Prod.fst).Nodup)
    (h : nextStage stage before selects validate = some after) :
    StageFollows stage before selects validate after := by
  have hcomplete := @isComplete_iff_stagePacks stage
  rw [nextStage] at h
  cases hpacks : stagePacks stage with
  | none =>
    rw [hpacks] at h hcomplete
    cases h
    have hpending : ¬ isComplete stage := fun hc => by simpa using hcomplete.mp hc
    refine ⟨by simpa using hpending, fun rows hrows => (by cases hrows), fun i pack => ?_,
      fun i pack hi => (by cases hi), fun hsome => (by cases hsome)⟩
    exact ⟨fun hi => (by cases hi), fun hrow => absurd hrow.1 hpending⟩
  | some packs =>
    rw [hpacks] at h hcomplete
    obtain ⟨rows, hrows, hstage⟩ := Option.bind_eq_some_iff.mp h
    obtain ⟨result, hresult, hafter⟩ := Option.bind_eq_some_iff.mp hstage
    cases hafter
    subst hrows
    cases packs with
    | array packs =>
      have hfollows := mapStagePacks_eq_some (hbefore rows rfl) hresult
      obtain ⟨hc, harray⟩ := stagePacks_eq_array hpacks
      refine ⟨by simp [hc], fun rows hrows => Option.some.inj hrows ▸ hfollows.distinct,
        fun i pack => ?_, hfollows.valid, fun _ i predecessor hi hselected => ?_⟩
      · show result.lookup i = some pack ↔ _
        rw [hfollows.row, StageRow, harray]
        simp [hc]
      · exact Option.isSome_iff_exists.mp (hfollows.complete i predecessor hi hselected)
    | _ => cases hresult

theorem requestByIndex_distinct (requests : List Value) :
    ((requestByIndex requests).map Prod.fst).Nodup := by
  rw [requestByIndex, List.map_map]
  have hkeys : requests.zipIdx.map (Prod.fst ∘ fun request : Value × Nat => (request.2, request.1))
      = List.range requests.length := by
    rw [List.range_eq_range', ← List.zipIdx_map_snd 0 requests]
    rfl
  rw [hkeys]
  exact List.nodup_range

/-- What the validation of the stages establishes. -/
structure Validated (requests : List Value) (stages : Stages) (s : CompleteStages) : Prop where
  purchase : StageFollows stages.purchase (some (requestByIndex requests)) (fun _ => true)
    purchaseRow s.purchase
  openStage : StageFollows stages.openStage s.purchase (hasStatus "purchased") openRow s.openStage
  epicGate : StageFollows stages.epicGate s.openStage (hasDecision "opened") epicGateRow s.epicGate
  buyback : StageFollows stages.buyback s.epicGate (hasDecision "sell") buybackRow s.buyback

theorem validateEarlierStages_eq_some {requests : List Value} {stages : Stages}
    {p o g : Option PackMap} (h : validateEarlierStages requests stages = some (p, o, g)) :
    nextStage stages.purchase (some (requestByIndex requests)) (fun _ => true) purchaseRow
        = some p ∧
      nextStage stages.openStage p (hasStatus "purchased") openRow = some o ∧
      nextStage stages.epicGate o (hasDecision "opened") epicGateRow = some g := by
  rw [validateEarlierStages] at h
  obtain ⟨p', hp, h⟩ := Option.bind_eq_some_iff.mp h
  obtain ⟨o', ho, h⟩ := Option.bind_eq_some_iff.mp h
  obtain ⟨g', hg, h⟩ := Option.bind_eq_some_iff.mp h
  cases h
  exact ⟨hp, ho, hg⟩

theorem validateCompleteStages_eq_some {requests : List Value} {stages : Stages}
    {s : CompleteStages} (h : validateCompleteStages requests stages = .ok (some s)) :
    validateEarlierStages requests stages = some (s.purchase, s.openStage, s.epicGate) ∧
      nextStage stages.buyback s.epicGate (hasDecision "sell") buybackRow = some s.buyback := by
  rw [validateCompleteStages] at h
  cases hearlier : validateEarlierStages requests stages with
  | none => rw [hearlier] at h; cases h
  | some earlier =>
    obtain ⟨p, o, g⟩ := earlier
    rw [hearlier] at h
    obtain ⟨_, -, h⟩ := bind_eq_ok.mp h
    have hs := pure_eq_ok.mp h
    obtain ⟨buyback, hbuyback, rfl⟩ := Option.map_eq_some_iff.mp hs
    exact ⟨rfl, (Option.filter_eq_some_iff.mp hbuyback).1⟩

theorem validated {requests : List Value} {stages : Stages} {s : CompleteStages}
    (h : validateCompleteStages requests stages = .ok (some s)) : Validated requests stages s := by
  obtain ⟨hearlier, hbuyback⟩ := validateCompleteStages_eq_some h
  obtain ⟨hpurchase, hopen, hgate⟩ := validateEarlierStages_eq_some hearlier
  have hrequests : ∀ rows, some (requestByIndex requests) = some rows →
      (rows.map Prod.fst).Nodup := fun rows hrows =>
    Option.some.inj hrows ▸ requestByIndex_distinct requests
  have hp := nextStage_eq_some hrequests hpurchase
  have ho := nextStage_eq_some hp.distinct hopen
  have hg := nextStage_eq_some ho.distinct hgate
  exact ⟨hp, ho, hg, nextStage_eq_some hg.distinct hbuyback⟩

/-! ## The lifecycle of a pack -/

theorem hasDecision_unique {pack : Value} {a b : String} (ha : hasDecision a pack)
    (hb : hasDecision b pack) : text a = text b := by
  have ha' : pack.get (text "decision") = .string (text a) := by simpa [hasDecision] using ha
  have hb' : pack.get (text "decision") = .string (text b) := by simpa [hasDecision] using hb
  exact Value.string.inj (ha'.symm.trans hb')

theorem not_decision {pack : Value} {a : String} (b : String) (ha : hasDecision a pack)
    (h : text a ≠ text b) : ¬ hasDecision b pack := fun hb => h (hasDecision_unique ha hb)

/-- The lifecycles of a pack, by the last stage that has a row for it. -/
inductive Resolved (s : CompleteStages) (i : Nat) : Lifecycle → Prop
  | purchased (pack : Value) (row : packAt s.purchase i = some pack)
      (status : hasStatus "purchased" pack) (pending : s.openStage = none) :
      Resolved s i { state := .purchased, publicState := .observed, mint := .null
                     transactionId := orNull (pack.get (text "signature")), proceeds := .null }
  | heldAtOpening (pack : Value) (row : packAt s.openStage i = some pack)
      (decision : hasDecision "held" pack) : Resolved s i (heldLifecycle pack)
  | opened (pack : Value) (row : packAt s.openStage i = some pack)
      (decision : hasDecision "opened" pack) (mint : isNonEmptyString (pack.get (text "mint")))
      (signature : isNonEmptyString (pack.get (text "signature"))) (pending : s.epicGate = none) :
      Resolved s i { state := .opened, publicState := .observed, mint := pack.get (text "mint")
                     transactionId := pack.get (text "signature"), proceeds := .null }
  | heldAtGate (pack : Value) (row : packAt s.epicGate i = some pack)
      (decision : hasDecision "held" pack) (mint : isNonEmptyString (pack.get (text "mint"))) :
      Resolved s i (heldLifecycle pack)
  | gated (pack : Value) (row : packAt s.epicGate i = some pack)
      (decision : hasDecision "sell" pack) (mint : isNonEmptyString (pack.get (text "mint")))
      (pending : s.buyback = none) :
      Resolved s i { state := .gated, publicState := .observed, mint := pack.get (text "mint")
                     transactionId := .null, proceeds := .null }
  | heldAtBuyback (pack : Value) (row : packAt s.buyback i = some pack)
      (decision : hasDecision "held" pack) (mint : isNonEmptyString (pack.get (text "mint"))) :
      Resolved s i (heldLifecycle pack)
  | sold (pack : Value) (row : packAt s.buyback i = some pack)
      (decision : hasDecision "sold" pack) (mint : isNonEmptyString (pack.get (text "mint")))
      (signature : isNonEmptyString (pack.get (text "signature")))
      (proceeds : publicProceeds (pack.get (text "proceeds")) ≠ .null) :
      Resolved s i { state := .sold, publicState := .finalized, mint := pack.get (text "mint")
                     transactionId := pack.get (text "signature")
                     proceeds := publicProceeds (pack.get (text "proceeds")) }

theorem hasDecision_of_openRow {pack before : Value} (h : openRow pack before) :
    hasDecision "held" pack ∨ (hasDecision "opened" pack ∧
      isNonEmptyString (pack.get (text "mint")) ∧
      isNonEmptyString (pack.get (text "signature"))) := by
  simpa [openRow, and_assoc] using h

theorem hasDecision_of_epicGateRow {pack before : Value} (h : epicGateRow pack before) :
    pack.get (text "mint") = before.get (text "mint") ∧
      (hasDecision "sell" pack ∨ hasDecision "held" pack) := by
  simpa [epicGateRow] using h

theorem hasDecision_of_buybackRow {pack before : Value} (h : buybackRow pack before) :
    pack.get (text "mint") = before.get (text "mint") ∧
      (hasDecision "held" pack ∨ (hasDecision "sold" pack ∧
        isNonEmptyString (pack.get (text "signature")) ∧
        publicProceeds (pack.get (text "proceeds")) ≠ .null)) := by
  rw [buybackRow, Bool.and_eq_true, decide_eq_true_iff] at h
  refine ⟨h.1, ?_⟩
  by_cases hheld : hasDecision "held" pack
  · exact .inl hheld
  · have hsold := h.2
    rw [if_neg hheld] at hsold
    exact .inr (by simpa [and_assoc] using hsold)

section

variable {requests : List Value} {stages : Stages} {s : CompleteStages} (v : Validated requests stages s)
  {i : Nat} {pack : Value}

include v

/-- A pack of the gate has been opened. -/
theorem Validated.gate_opened (h : packAt s.epicGate i = some pack) :
    ∃ before, packAt s.openStage i = some before ∧ hasDecision "opened" before ∧
      isNonEmptyString (pack.get (text "mint")) ∧
      (hasDecision "sell" pack ∨ hasDecision "held" pack) := by
  obtain ⟨before, hbefore, hopened, hrow⟩ := v.epicGate.valid i pack h
  obtain ⟨_, -, -, hopenRow⟩ := v.openStage.valid i before hbefore
  obtain ⟨hmint, hdecision⟩ := hasDecision_of_epicGateRow hrow
  rcases hasDecision_of_openRow hopenRow with hheld | ⟨-, hnonempty, -⟩
  · exact absurd hopened (not_decision _ hheld (by decide))
  · exact ⟨before, hbefore, hopened, hmint ▸ hnonempty, hdecision⟩

/-- A pack of the buyback was to be sold. -/
theorem Validated.buyback_gated (h : packAt s.buyback i = some pack) :
    ∃ before, packAt s.epicGate i = some before ∧ hasDecision "sell" before ∧
      isNonEmptyString (pack.get (text "mint")) ∧
      (hasDecision "held" pack ∨ (hasDecision "sold" pack ∧
        isNonEmptyString (pack.get (text "signature")) ∧
        publicProceeds (pack.get (text "proceeds")) ≠ .null)) := by
  obtain ⟨before, hbefore, hsell, hrow⟩ := v.buyback.valid i pack h
  obtain ⟨-, -, -, hnonempty, -⟩ := v.gate_opened hbefore
  obtain ⟨hmint, hdecision⟩ := hasDecision_of_buybackRow hrow
  exact ⟨before, hbefore, hsell, hmint ▸ hnonempty, hdecision⟩

/-- A pack that is opened or held was purchased. -/
theorem Validated.open_purchased (h : packAt s.openStage i = some pack) :
    ∃ before, packAt s.purchase i = some before ∧ hasStatus "purchased" before := by
  obtain ⟨before, hbefore, hpurchased, -⟩ := v.openStage.valid i pack h
  exact ⟨before, hbefore, hpurchased⟩

omit v in
theorem resolve_sold (h : packAt s.buyback i = some pack) (hsold : hasDecision "sold" pack) :
    resolvePackLifecycle i s = some
      { state := .sold, publicState := .finalized, mint := pack.get (text "mint")
        transactionId := pack.get (text "signature")
        proceeds := publicProceeds (pack.get (text "proceeds")) } := by
  rw [resolvePackLifecycle, h]
  show buybackLifecycle pack = _
  rw [buybackLifecycle, if_pos hsold]

/-- A pack of the buyback has a final lifecycle. -/
theorem resolve_buyback (h : packAt s.buyback i = some pack) :
    ∃ l, resolvePackLifecycle i s = some l ∧ l.publicState = .finalized ∧ Resolved s i l := by
  obtain ⟨-, -, -, hmint, hheld | ⟨hsold, hsignature, hproceeds⟩⟩ := v.buyback_gated h
  · refine ⟨_, ?_, rfl, .heldAtBuyback pack h hheld hmint⟩
    rw [resolvePackLifecycle, h]
    show buybackLifecycle pack = _
    rw [buybackLifecycle, if_neg (not_decision _ hheld (by decide)), if_pos hheld]
  · exact ⟨_, resolve_sold h hsold, rfl, .sold pack h hsold hmint hsignature hproceeds⟩

/-- A pack that is held at the gate is not offered for sale. -/
theorem resolve_heldAtGate (h : packAt s.epicGate i = some pack) (hheld : hasDecision "held" pack) :
    resolvePackLifecycle i s = some (heldLifecycle pack) := by
  have hbuyback : packAt s.buyback i = none := by
    by_contra hsome
    obtain ⟨sold, hsold⟩ := Option.ne_none_iff_exists'.mp hsome
    obtain ⟨before, hbefore, hsell, -⟩ := v.buyback_gated hsold
    rw [h] at hbefore
    cases hbefore
    exact not_decision _ hheld (by decide) hsell
  rw [resolvePackLifecycle, hbuyback, h]
  show epicGateLifecycle pack = _
  rw [epicGateLifecycle, if_neg (not_decision _ hheld (by decide)), if_pos hheld]

theorem resolve_gate (h : packAt s.epicGate i = some pack) (hno : packAt s.buyback i = none) :
    ∃ l, resolvePackLifecycle i s = some l ∧ Resolved s i l := by
  obtain ⟨-, -, -, hmint, hsell | hheld⟩ := v.gate_opened h
  · have hpending : s.buyback = none := by
      by_contra hcomplete
      obtain ⟨after, hafter⟩ :=
        v.buyback.all (Option.isSome_iff_ne_none.mpr hcomplete) i pack h hsell
      rw [hno] at hafter
      cases hafter
    refine ⟨_, ?_, .gated pack h hsell hmint hpending⟩
    rw [resolvePackLifecycle, hno, h]
    show epicGateLifecycle pack = _
    rw [epicGateLifecycle, if_pos hsell, if_neg (not_not.mpr hmint)]
  · exact ⟨_, resolve_heldAtGate v h hheld, .heldAtGate pack h hheld hmint⟩

/-- A pack without a row of the gate has none of the buyback. -/
theorem Validated.no_buyback (h : packAt s.epicGate i = none) : packAt s.buyback i = none := by
  cases hbuyback : packAt s.buyback i with
  | none => rfl
  | some pack =>
    obtain ⟨before, hbefore, -⟩ := v.buyback_gated hbuyback
    rw [h] at hbefore
    cases hbefore

/-- A pack that is held at the opening does not come to the gate. -/
theorem resolve_heldAtOpening (h : packAt s.openStage i = some pack)
    (hheld : hasDecision "held" pack) :
    resolvePackLifecycle i s = some (heldLifecycle pack) := by
  have hgate : packAt s.epicGate i = none := by
    by_contra hsome
    obtain ⟨gated, hgated⟩ := Option.ne_none_iff_exists'.mp hsome
    obtain ⟨before, hbefore, hopened, -⟩ := v.gate_opened hgated
    rw [h] at hbefore
    cases hbefore
    exact not_decision _ hheld (by decide) hopened
  rw [resolvePackLifecycle, v.no_buyback hgate, hgate, h]
  show openLifecycle pack = _
  rw [openLifecycle, if_neg (not_decision _ hheld (by decide)), if_pos hheld]

theorem resolve_open (h : packAt s.openStage i = some pack) (hno : packAt s.epicGate i = none) :
    ∃ l, resolvePackLifecycle i s = some l ∧ Resolved s i l := by
  obtain ⟨_, -, -, hrow⟩ := v.openStage.valid i pack h
  rcases hasDecision_of_openRow hrow with hheld | ⟨hopened, hmint, hsignature⟩
  · exact ⟨_, resolve_heldAtOpening v h hheld, .heldAtOpening pack h hheld⟩
  · have hpending : s.epicGate = none := by
      by_contra hcomplete
      obtain ⟨after, hafter⟩ :=
        v.epicGate.all (Option.isSome_iff_ne_none.mpr hcomplete) i pack h hopened
      rw [hno] at hafter
      cases hafter
    refine ⟨_, ?_, .opened pack h hopened hmint hsignature hpending⟩
    rw [resolvePackLifecycle, v.no_buyback hno, hno, h]
    show openLifecycle pack = _
    rw [openLifecycle, if_pos hopened, if_neg (not_not.mpr hmint)]

/-- A pack without a row of the opening has none of the gate. -/
theorem Validated.no_gate (h : packAt s.openStage i = none) : packAt s.epicGate i = none := by
  cases hgate : packAt s.epicGate i with
  | none => rfl
  | some pack =>
    obtain ⟨before, hbefore, -⟩ := v.gate_opened hgate
    rw [h] at hbefore
    cases hbefore

/-- A purchase that is not followed by an opening is shown as such. -/
theorem resolve_pending (h : packAt s.purchase i = some pack) (hstatus : hasStatus "purchased" pack)
    (hpending : s.openStage = none) :
    resolvePackLifecycle i s = some
      { state := .purchased, publicState := .observed, mint := .null
        transactionId := orNull (pack.get (text "signature")), proceeds := .null } := by
  have hopen : packAt s.openStage i = none := by rw [hpending]; rfl
  have hgate := v.no_gate hopen
  rw [resolvePackLifecycle, v.no_buyback hgate, hgate, hopen, h]
  show purchaseLifecycle pack = _
  rw [purchaseLifecycle, if_pos hstatus]

/-- A pack that was purchased has a lifecycle. -/
theorem resolve_purchased (h : packAt s.purchase i = some pack)
    (hstatus : hasStatus "purchased" pack) :
    ∃ l, resolvePackLifecycle i s = some l ∧ Resolved s i l := by
  cases hopen : packAt s.openStage i with
  | some opened =>
    cases hgate : packAt s.epicGate i with
    | some gated =>
      cases hbuyback : packAt s.buyback i with
      | some sold =>
        obtain ⟨l, hl, -, hresolved⟩ := resolve_buyback v hbuyback
        exact ⟨l, hl, hresolved⟩
      | none => exact resolve_gate v hgate hbuyback
    | none => exact resolve_open v hopen hgate
  | none =>
    have hpending : s.openStage = none := by
      by_contra hcomplete
      obtain ⟨after, hafter⟩ :=
        v.openStage.all (Option.isSome_iff_ne_none.mpr hcomplete) i pack h hstatus
      rw [hopen] at hafter
      cases hafter
    exact ⟨_, resolve_pending v h hstatus hpending, .purchased pack h hstatus hpending⟩

omit v in
theorem Resolved.purchase (v : Validated requests stages s) {l : Lifecycle} (h : Resolved s i l) :
    ∃ pack, packAt s.purchase i = some pack ∧ hasStatus "purchased" pack := by
  have hopened : ∀ {pack}, packAt s.epicGate i = some pack →
      ∃ pack, packAt s.purchase i = some pack ∧ hasStatus "purchased" pack := by
    intro pack row
    obtain ⟨before, hbefore, -⟩ := v.gate_opened row
    exact v.open_purchased hbefore
  have hgated : ∀ {pack}, packAt s.buyback i = some pack →
      ∃ pack, packAt s.purchase i = some pack ∧ hasStatus "purchased" pack := by
    intro pack row
    obtain ⟨before, hbefore, -⟩ := v.buyback_gated row
    exact hopened hbefore
  cases h with
  | purchased pack row status => exact ⟨pack, row, status⟩
  | heldAtOpening pack row => exact v.open_purchased row
  | opened pack row => exact v.open_purchased row
  | heldAtGate pack row => exact hopened row
  | gated pack row => exact hopened row
  | heldAtBuyback pack row => exact hgated row
  | sold pack row => exact hgated row

/-- A pack without a successful purchase has no lifecycle. -/
theorem resolve_eq_none
    (h : ¬ ∃ pack, packAt s.purchase i = some pack ∧ hasStatus "purchased" pack) :
    resolvePackLifecycle i s = none := by
  have hopen : packAt s.openStage i = none := by
    by_contra hsome
    obtain ⟨pack, hpack⟩ := Option.ne_none_iff_exists'.mp hsome
    exact h (v.open_purchased hpack)
  have hgate := v.no_gate hopen
  rw [resolvePackLifecycle, v.no_buyback hgate, hgate, hopen]
  cases hpurchase : packAt s.purchase i with
  | none => rfl
  | some pack =>
    have hnot : ¬ hasStatus "purchased" pack := fun hstatus => h ⟨pack, hpurchase, hstatus⟩
    show purchaseLifecycle pack = none
    rw [purchaseLifecycle, if_neg hnot]

theorem resolved {l : Lifecycle} (h : resolvePackLifecycle i s = some l) : Resolved s i l := by
  by_cases hpurchase : ∃ pack, packAt s.purchase i = some pack ∧ hasStatus "purchased" pack
  · obtain ⟨pack, hpack, hstatus⟩ := hpurchase
    obtain ⟨l', hl', hresolved⟩ := resolve_purchased v hpack hstatus
    rw [h] at hl'
    exact Option.some.inj hl' ▸ hresolved
  · rw [resolve_eq_none v hpurchase] at h
    cases h

/-- A pack that has been opened or held is no longer shown as purchased. -/
theorem state_ne_purchased (h : packAt s.openStage i = some pack) {l : Lifecycle}
    (hl : resolvePackLifecycle i s = some l) : l.state ≠ .purchased := by
  cases resolved v hl with
  | purchased _ _ _ pending =>
    rw [pending] at h
    cases h
  | _ => simp [heldLifecycle]

/-- A pack that has a lifecycle is one of the ledger. -/
theorem resolve_lt {l : Lifecycle} (hl : resolvePackLifecycle i s = some l) :
    i < requests.length := by
  obtain ⟨pack, hpack, -⟩ := (resolved v hl).purchase v
  obtain ⟨request, hrequest, -⟩ := v.purchase.valid i pack hpack
  have hmem := (lookup_eq_some_iff (requestByIndex_distinct requests)).mp hrequest
  obtain ⟨⟨value, j⟩, hindexed, hpair⟩ := List.mem_map.mp hmem
  cases hpair
  exact (List.getElem?_eq_some_iff.mp (List.mem_zipIdx_iff_getElem?.mp hindexed)).1

theorem resolve_isSome_iff :
    (∃ l, resolvePackLifecycle i s = some l) ↔
      ∃ pack, packAt s.purchase i = some pack ∧ hasStatus "purchased" pack := by
  constructor
  · rintro ⟨l, hl⟩
    exact (resolved v hl).purchase v
  · rintro ⟨pack, hpack, hstatus⟩
    obtain ⟨l, hl, -⟩ := resolve_purchased v hpack hstatus
    exact ⟨l, hl⟩

end

/-! ## Further stages -/

/-- Stages of which further ones may have become complete. -/
structure Extends (stages stages' : Stages) : Prop where
  purchase : isComplete stages.purchase → stages'.purchase = stages.purchase
  openStage : isComplete stages.openStage → stages'.openStage = stages.openStage
  epicGate : isComplete stages.epicGate → stages'.epicGate = stages.epicGate
  buyback : isComplete stages.buyback → stages'.buyback = stages.buyback

section

variable {requests : List Value} {stages stages' : Stages} {s s' : CompleteStages} {i : Nat}
  (v : Validated requests stages s) (v' : Validated requests stages' s')
  (hextends : Extends stages stages')

theorem StageFollows.kept {stage stage' : Value} {before after before' after' : Option PackMap}
    {selects selects' : Value → Bool} {validate validate' : Value → Value → Bool}
    (h : StageFollows stage before selects validate after)
    (h' : StageFollows stage' before' selects' validate' after')
    (hstage : isComplete stage → stage' = stage) {pack : Value} (hrow : packAt after i = some pack) :
    packAt after' i = some pack := by
  have hstageRow := (h.row i pack).mp hrow
  rw [h'.row, hstage hstageRow.1]
  exact hstageRow

include v v' hextends

/-- A pack that has a lifecycle keeps one. -/
theorem resolve_extends {l : Lifecycle} (h : resolvePackLifecycle i s = some l) :
    ∃ l', resolvePackLifecycle i s' = some l' := by
  obtain ⟨pack, hpack, hstatus⟩ := (resolved v h).purchase v
  exact (resolve_isSome_iff v').mpr
    ⟨pack, v.purchase.kept v'.purchase hextends.purchase hpack, hstatus⟩

/-- A final decision stays. -/
theorem finalized_extends {l : Lifecycle} (h : resolvePackLifecycle i s = some l)
    (hfinal : l.publicState = .finalized) : resolvePackLifecycle i s' = some l := by
  cases resolved v h with
  | purchased | opened | gated => cases hfinal
  | heldAtOpening pack row decision =>
    exact resolve_heldAtOpening v' (v.openStage.kept v'.openStage hextends.openStage row) decision
  | heldAtGate pack row decision =>
    exact resolve_heldAtGate v' (v.epicGate.kept v'.epicGate hextends.epicGate row) decision
  | heldAtBuyback pack row decision =>
    rw [resolvePackLifecycle, v.buyback.kept v'.buyback hextends.buyback row]
    show buybackLifecycle pack = _
    rw [buybackLifecycle, if_neg (not_decision _ decision (by decide)), if_pos decision]
  | sold pack row decision =>
    exact resolve_sold (v.buyback.kept v'.buyback hextends.buyback row) decision

end

end Hookemon.Collector
