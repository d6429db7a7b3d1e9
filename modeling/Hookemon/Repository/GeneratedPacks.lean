import Hookemon.Repository.PackOrders

/-! # The packs of a plan are generated order by order

Whatever order the events of the pack orders come in and however often they are repeated, the
packs of the purchase are those of the first orders of the plan, each order complete, one order
after the other. What is recorded of an order stays, and the purchase is completed only when the
packs of every order have been generated.
-/

namespace Hookemon.Repository

open Hookemon.Core Hookemon.Js Hookemon.Runner

/-! ## Keys -/

theorem orderKey_injective : Function.Injective orderKey := fun _ _ h =>
  natText_injective (List.append_cancel_left h)

theorem orderKey_ne_purchaseKey (i : Nat) : orderKey i ≠ purchaseKey := by
  intro h
  have hlength : (orderKey i).length = purchaseKey.length := by rw [h]
  have hkey : (text "purchase:").length = purchaseKey.length + 1 := by decide
  rw [orderKey, List.length_append, hkey] at hlength
  omega

/-! ## Admitted plans -/

/-- What the packs rest on of an admission. -/
structure PlanAdmission.Admitted (admission : PlanAdmission) : Prop where
  nonempty : admission.orders ≠ []
  quantity_pos : ∀ order ∈ admission.orders, 1 ≤ order.quantity
  quantity_total : admission.quantity = (admission.orders.map AdmittedOrder.quantity).sum

theorem assertPackPlan_quantity {value plan : Runner.PackPlan} (h : assertPackPlan value = .ok plan) :
    ∀ order ∈ plan.orders, 1 ≤ order.quantity := by
  unfold assertPackPlan at h
  simp only [bind_eq_ok, pure_eq_ok, revertIf_eq_ok] at h
  obtain ⟨_, -, _, -, _, -, _, hscan, rfl⟩ := h
  refine scan_forall (P := fun order => 1 ≤ order.quantity) hscan ?_
  intro seen order horder
  unfold assertPackOrder at horder
  simp only [bind_eq_ok, revertIf_eq_ok] at horder
  omega

theorem normalizePlanAdmission_admitted {value admission : PlanAdmission}
    (h : normalizePlanAdmission value = .ok admission) : admission.Admitted := by
  unfold normalizePlanAdmission at h
  simp only [bind_eq_ok, pure_eq_ok, revertIf_eq_ok] at h
  obtain ⟨plan, hplan, _, hlength, _, hrows, _, htotal, rfl⟩ := h
  have hlength := not_or.mp hlength
  have hsame : value.orders.length = plan.orders.length := not_not.mp hlength.2
  refine ⟨?_, ?_, not_not.mp htotal⟩
  · intro hnil
    rw [hnil] at hsame
    exact hlength.1 (List.eq_nil_of_length_eq_zero hsame.symm)
  · intro order horder
    obtain ⟨i, hi, rfl⟩ := List.getElem_of_mem horder
    have hrow : ((value.orders[i], plan.orders[i]), i) ∈ (value.orders.zip plan.orders).zipIdx := by
      rw [List.mk_mem_zipIdx_iff_getElem?, List.getElem?_eq_getElem (by simp; omega),
        List.getElem_zip]
    have hquantity : value.orders[i].quantity = plan.orders[i].quantity := by
      by_contra hne
      exact hrows ⟨_, hrow, .inr (.inr hne)⟩
    rw [hquantity]
    exact assertPackPlan_quantity hplan _ (List.getElem_mem _)

/-! ## Sums of quantities -/

section Offsets

variable {X : PackContext}

theorem orderOffset_zero : PackState.orderOffset X 0 = 0 := rfl

theorem orderOffset_succ {k : Nat} {order : AdmittedOrder}
    (h : X.admission.orders[k]? = some order) :
    PackState.orderOffset X (k + 1) = PackState.orderOffset X k + order.quantity := by
  simp [PackState.orderOffset, List.take_add_one, h]

/-- The first orders are all orders when there are as many packs. -/
theorem orderOffset_eq_quantity (hX : X.admission.Admitted) {k : Nat}
    (hk : k ≤ X.admission.orders.length) :
    PackState.orderOffset X k = X.admission.quantity ↔ k = X.admission.orders.length := by
  have hsplit : X.admission.quantity = PackState.orderOffset X k
      + ((X.admission.orders.drop k).map AdmittedOrder.quantity).sum := by
    rw [hX.quantity_total, PackState.orderOffset, ← List.sum_append, ← List.map_append,
      List.take_append_drop]
  have hrest := List.card_nsmul_le_sum ((X.admission.orders.drop k).map AdmittedOrder.quantity) 1 (by
    intro quantity hquantity
    obtain ⟨order, horder, rfl⟩ := List.mem_map.mp hquantity
    exact hX.quantity_pos order (List.mem_of_mem_drop horder))
  rw [List.length_map, List.length_drop, nsmul_one] at hrest
  constructor
  · intro heq
    omega
  · rintro rfl
    rw [hsplit, List.drop_length]
    simp

end Offsets

/-! ## What `assertPackBatchRequest` makes sure of -/

theorem assertPackBatchRequest_numbered {packs : List PackRequest} {label : String}
    (h : assertPackBatchRequest packs label = .ok ()) :
    ∀ (i : Nat) (pack : PackRequest), packs[i]? = some pack → pack.packIndex = i := by
  unfold assertPackBatchRequest at h
  simp only [bind_eq_ok, revertIf_eq_ok] at h
  obtain ⟨_, -, hscan⟩ := h
  induction packs using List.reverseRecOn with
  | nil => simp
  | append_singleton packs last ih =>
    obtain ⟨hfront, hlast⟩ := scan_concat.mp hscan
    intro i pack hpack
    rw [List.getElem?_append] at hpack
    split at hpack
    · exact ih hfront i pack hpack
    · rename_i hi
      obtain ⟨hi0, rfl⟩ := List.getElem?_eq_some_iff.mp hpack
      simp only [List.length_singleton] at hi0
      unfold assertNextPack at hlast
      simp only [bind_eq_ok, revertIf_eq_ok] at hlast
      obtain ⟨_, -, _, hindex, -⟩ := hlast
      have hposition : i = packs.length := by omega
      simpa [hposition] using hindex

theorem assertPackBatchRequest_memos {packs : List PackRequest} {label : String}
    (h : assertPackBatchRequest packs label = .ok ()) : (packs.map PackRequest.memo).Nodup := by
  unfold assertPackBatchRequest at h
  simp only [bind_eq_ok, revertIf_eq_ok] at h
  obtain ⟨_, -, hscan⟩ := h
  apply scan_nodup hscan
  intro seen entry hentry
  unfold assertNextPack at hentry
  simp only [bind_eq_ok, revertIf_eq_ok] at hentry
  obtain ⟨_, -, _, -, hmemo⟩ := hentry
  exact hmemo

/-! ## What an event does -/

namespace PackState

variable {X : PackContext} {s t : PackState}

theorem eventOrder_eq_ok {admission : PlanAdmission} {stage : Text} {i : Nat}
    {order : AdmittedOrder} (h : eventOrder admission stage i = .ok order) :
    admission.orders[i]? = some order := by
  unfold eventOrder at h
  split at h
  · rename_i own hown
    split at h
    · cases h
      exact hown
    · cases h
  · cases h

/-- An intent is recorded for its order, and for the purchase when it is the first. -/
theorem applyIntent_ok {payload : IntentPayload} (h : s.applyIntent X payload = .ok t) :
    ∃ order record intents, X.admission.orders[payload.orderIndex]? = some order ∧
      (∀ first ∈ s.packBatchIntents.get purchaseKey,
        first.intent.playerAddress = record.intent.playerAddress) ∧
      (0 < payload.orderIndex →
        (s.packBatchRequests.get (orderKey (payload.orderIndex - 1))).isSome) ∧
      t = { s with packBatchIntents := intents } ∧
      ∀ key, intents.get key = (s.packBatchIntents.get key).or
        (if key = orderKey payload.orderIndex ∨ key = purchaseKey then some record else none) := by
  unfold applyIntent at h
  simp only [bind_eq_ok, pure_eq_ok, revertIf_eq_ok] at h
  obtain ⟨order, horder, _, -, _, -, _, -, _, hplayer, _, hsequence, _, -, rfl⟩ := h
  refine ⟨order, ⟨payload.intent, payload.admissionDigest, payload.requestDigest,
    payload.recordedAtMs⟩, _, eventOrder_eq_ok horder, ?_, ?_, rfl, ?_⟩
  · intro first hfirst
    by_contra hne
    exact hplayer ⟨first, hfirst, hne⟩
  · intro hpos
    by_contra hnone
    exact hsequence ⟨hpos, by simpa using hnone⟩
  · intro key
    rw [Map.get_set_missing, Map.get_set_missing, Option.or_assoc]
    congr 1
    by_cases hown : key = orderKey payload.orderIndex <;> simp [hown]

/-- The numbers that are taken off the packs of an order are put back. -/
theorem renumbered_renumbered {offset : Int} {packs : List PackRequest}
    (h : ∀ pack ∈ packs.zipIdx, pack.1.packIndex = offset + pack.2) :
    renumbered offset (renumbered 0 packs) = packs := by
  refine List.ext_getElem (by simp [renumbered]) ?_
  intro i hi hi'
  have hindex := h (packs[i], i) (by
    rw [List.mk_mem_zipIdx_iff_getElem?]
    exact List.getElem?_eq_getElem hi')
  simp only [renumbered, List.getElem_mapIdx]
  rw [← hindex]

/-- All packs of an order, numbered after those of the orders before it. -/
structure CompleteOrder (X : PackContext) (i : Nat) (order : AdmittedOrder)
    (packs : List PackRequest) : Prop where
  length : (packs.length : Int) = order.quantity
  numbered : ∀ pack ∈ packs.zipIdx, pack.1.packIndex = orderOffset X i + pack.2
  packType : ∀ pack ∈ packs, pack.packType = some order.packId

/-- The packs of a request are recorded for its order, unless they are already, and those of the
purchase are put together again. -/
theorem applyRequest_ok {payload : RequestPayload} (h : s.applyRequest X payload = .ok t) :
    ∃ order batch purchase requests, X.admission.orders[payload.orderIndex]? = some order ∧
      (s.packBatchIntents.get (orderKey payload.orderIndex)).isSome ∧
      CompleteOrder X payload.orderIndex order batch.packs ∧
      purchase.packs = generatedPacks X requests ∧
      assertPackBatchRequest purchase.packs "pack batch request" = .ok () ∧
      purchase.generationComplete
        = some (decide ((purchase.packs.length : Int) = X.admission.quantity)) ∧
      t = { s with packBatchRequests := requests.set purchaseKey purchase } ∧
      ∀ key, requests.get key = (s.packBatchRequests.get key).or
        (if key = orderKey payload.orderIndex then some batch else none) := by
  unfold applyRequest at h
  simp only [bind_eq_ok, pure_eq_ok, revertIf_eq_ok] at h
  obtain ⟨order, horder, intent, hintent, _, hlength, _, hown, _, -, _, -, _, -, _, hall, first, -,
    rfl⟩ := h
  have hlength := not_not.mp hlength
  have hidentity : ∀ pack ∈ payload.packs.zipIdx,
      pack.1.packIndex = orderOffset X payload.orderIndex + pack.2 ∧
        pack.1.packType = some order.packId := by
    intro pack hpack
    by_contra hne
    refine hown ⟨pack, hpack, ?_⟩
    tauto
  have hpacks := renumbered_renumbered fun pack hpack => (hidentity pack hpack).1
  rw [hpacks] at hall ⊢
  refine ⟨order, ⟨payload.packs, payload.requestedAtMs, none⟩, _, _, eventOrder_eq_ok horder, ?_,
    ⟨hlength, fun pack hpack => (hidentity pack hpack).1, ?_⟩, rfl, hall, rfl, rfl, ?_⟩
  · cases hget : s.packBatchIntents.get (orderKey payload.orderIndex) with
    | none => simp [hget] at hintent
    | some intent => rfl
  · intro pack hpack
    obtain ⟨i, hi, rfl⟩ := List.getElem_of_mem hpack
    exact (hidentity (payload.packs[i], i) (by
      rw [List.mk_mem_zipIdx_iff_getElem?]
      exact List.getElem?_eq_getElem hi)).2
  · intro key
    rw [Map.get_set_missing]

theorem applyReconciled_ok {i : Nat} {outcomes : List PackOutcome}
    {admissionDigest responseDigest : Text}
    (h : s.applyReconciled X i outcomes admissionDigest responseDigest = .ok t) :
    ∃ checked, (∀ old ∈ s.packOrderReconciliations.get i, old = checked) ∧
      t = { s with packOrderReconciliations := s.packOrderReconciliations.set i checked } := by
  unfold applyReconciled at h
  simp only [bind_eq_ok, pure_eq_ok, revertIf_eq_ok] at h
  obtain ⟨_, -, checked, -, _, hold, rfl⟩ := h
  refine ⟨checked, ?_, rfl⟩
  intro old hget
  by_contra hne
  exact hold ⟨old, hget, hne⟩

theorem applyCompleted_ok {evidence : Option (List PackIdentity)}
    (h : s.applyCompleted X evidence = .ok t) :
    s.purchaseReconciled X evidence ∧ (∀ previous ∈ s.purchase, previous = evidence) ∧
      t = { s with purchase := some evidence } := by
  unfold applyCompleted assertReconciledCompletion at h
  simp only [bind_eq_ok, pure_eq_ok, revertIf_eq_ok] at h
  obtain ⟨_, hreconciled, _, hprevious, rfl⟩ := h
  refine ⟨not_not.mp hreconciled, ?_, rfl⟩
  intro previous hget
  by_contra hne
  exact hprevious ⟨previous, hget, hne⟩

/-! ## The packs that are generated -/

/-- The packs that are recorded of an order. -/
def orderPacks (s : PackState) (i : Nat) : List PackRequest :=
  ((s.packBatchRequests.get (orderKey i)).map PackBatch.packs).getD []

/-- The packs of the purchase. -/
def generated (s : PackState) : List PackRequest :=
  ((s.packBatchRequests.get purchaseKey).map PackBatch.packs).getD []

/-- The first `k` orders of the plan are generated, and nothing else is. -/
structure Generated (X : PackContext) (s : PackState) (k : Nat) : Prop where
  le : k ≤ X.admission.orders.length
  requested : ∀ i, (s.packBatchRequests.get (orderKey i)).isSome ↔ i < k
  complete : ∀ i order, X.admission.orders[i]? = some order → i < k →
    CompleteOrder X i order (s.orderPacks i)
  packs : s.generated = (List.range k).flatMap s.orderPacks
  numbered : ∀ (i : Nat) (pack : PackRequest), s.generated[i]? = some pack → pack.packIndex = i
  memos : (s.generated.map PackRequest.memo).Nodup
  purchase : (s.packBatchRequests.get purchaseKey).isSome ↔ 0 < k
  generationComplete : ∀ batch ∈ s.packBatchRequests.get purchaseKey,
    batch.generationComplete = some (decide (k = X.admission.orders.length))
  intended : ∀ i, (s.packBatchIntents.get (orderKey i)).isSome → i ≤ k
  onePlayer : ∀ i, ∀ intent ∈ s.packBatchIntents.get (orderKey i),
    ∃ first ∈ s.packBatchIntents.get purchaseKey,
      first.intent.playerAddress = intent.intent.playerAddress
  completed : s.purchase.isSome → k = X.admission.orders.length

theorem Generated.empty (X : PackContext) : Generated X .empty 0 where
  le := Nat.zero_le _
  requested := by simp [PackState.empty]
  complete := by simp
  packs := rfl
  numbered := by simp [generated, PackState.empty]
  memos := List.nodup_nil
  purchase := by simp [PackState.empty]
  generationComplete := by simp [PackState.empty]
  intended := by simp [PackState.empty]
  onePlayer := by simp [PackState.empty]
  completed := by simp [PackState.empty]

/-- Only what is recorded of the packs matters. -/
theorem Generated.of_eq {k : Nat} (h : Generated X s k)
    (hintents : t.packBatchIntents = s.packBatchIntents)
    (hrequests : t.packBatchRequests = s.packBatchRequests)
    (hcompleted : t.purchase.isSome → k = X.admission.orders.length) : Generated X t k := by
  have hown : t.orderPacks = s.orderPacks := by
    funext i
    rw [orderPacks, orderPacks, hrequests]
  have hall : t.generated = s.generated := by rw [generated, generated, hrequests]
  constructor
  · exact h.le
  · rw [hrequests]
    exact h.requested
  · rw [hown]
    exact h.complete
  · rw [hown, hall]
    exact h.packs
  · rw [hall]
    exact h.numbered
  · rw [hall]
    exact h.memos
  · rw [hrequests]
    exact h.purchase
  · rw [hrequests]
    exact h.generationComplete
  · rw [hintents]
    exact h.intended
  · rw [hintents]
    exact h.onePlayer
  · exact hcompleted

theorem Generated.intent {k : Nat} (hs : Generated X s k) {payload : IntentPayload}
    (h : s.applyIntent X payload = .ok t) : Generated X t k := by
  obtain ⟨order, record, intents, -, hplayer, hsequence, rfl, hget⟩ := applyIntent_ok h
  have hfirst : ∀ first ∈ s.packBatchIntents.get purchaseKey,
      intents.get purchaseKey = some first := by
    intro first hfirst
    rw [hget, Option.mem_def.mp hfirst]
    rfl
  refine { hs with intended := ?_, onePlayer := ?_ }
  · intro i hi
    rw [hget] at hi
    cases hold : s.packBatchIntents.get (orderKey i) with
    | some old => exact hs.intended i (by rw [hold]; rfl)
    | none =>
      have hkey : i = payload.orderIndex := by
        by_contra hne
        have hother : ¬ (orderKey i = orderKey payload.orderIndex ∨ orderKey i = purchaseKey) :=
          not_or.mpr ⟨fun heq => hne (orderKey_injective heq), orderKey_ne_purchaseKey i⟩
        rw [hold, if_neg hother] at hi
        cases hi
      -- the order before it has been generated
      by_cases hpos : 0 < i
      · have hbefore := (hs.requested _).mp (hsequence (hkey ▸ hpos))
        omega
      · omega
  · intro i intent hintent
    rw [Option.mem_def, hget, Option.or_eq_some_iff] at hintent
    rcases hintent with hold | ⟨-, hnew⟩
    · obtain ⟨first, hpurchase, hsame⟩ := hs.onePlayer i intent hold
      exact ⟨first, hfirst first hpurchase, hsame⟩
    · split at hnew
      · cases hnew
        cases hpurchase : s.packBatchIntents.get purchaseKey with
        | some first => exact ⟨first, hfirst first hpurchase, hplayer first hpurchase⟩
        | none =>
          refine ⟨record, ?_, rfl⟩
          rw [Option.mem_def, hget, hpurchase, if_pos (.inr rfl)]
          rfl
      · cases hnew

/-- Orders that have no packs contribute none. -/
theorem generatedPacks_eq {requests : Map Text PackBatch} {k : Nat}
    (hk : k ≤ X.admission.orders.length)
    (hnone : ∀ i, k ≤ i → requests.get (orderKey i) = none) :
    generatedPacks X requests = (List.range k).flatMap fun i =>
      ((requests.get (orderKey i)).map PackBatch.packs).getD [] := by
  obtain ⟨rest, hrest⟩ := Nat.exists_eq_add_of_le hk
  have hempty : ∀ i ∈ (List.range rest).map (k + ·),
      ((requests.get (orderKey i)).map PackBatch.packs).getD [] = [] := by
    intro i hi
    obtain ⟨j, -, rfl⟩ := List.mem_map.mp hi
    rw [hnone (k + j) (Nat.le_add_right k j)]
    rfl
  rw [generatedPacks, hrest, List.range_add, List.flatMap_append,
    List.flatMap_eq_nil_iff.mpr hempty, List.append_nil]

/-- Complete orders have as many packs as the plan wants of them. -/
theorem length_flatMap_complete {own : Nat → List PackRequest} {k : Nat}
    (hk : k ≤ X.admission.orders.length)
    (h : ∀ i order, X.admission.orders[i]? = some order → i < k → CompleteOrder X i order (own i)) :
    (((List.range k).flatMap own).length : Int) = orderOffset X k := by
  induction k with
  | zero => rfl
  | succ k ih =>
    have horder : X.admission.orders[k]? = some (X.admission.orders[k]) :=
      List.getElem?_eq_getElem hk
    have hfront := ih (by omega) fun i order hi hlt => h i order hi (by omega)
    have hlast := (h k _ horder (by omega)).length
    rw [List.range_succ, List.flatMap_append, List.length_append, orderOffset_succ horder]
    simp only [List.flatMap_cons, List.flatMap_nil, List.append_nil]
    omega

theorem Generated.request (hX : X.admission.Admitted) {k : Nat} (hs : Generated X s k)
    {payload : RequestPayload} (h : s.applyRequest X payload = .ok t) :
    ∃ k', Generated X t k' := by
  obtain ⟨order, batch, purchase, requests, horder, hintent, hcomplete, hpacks, hchecked, hall, rfl,
    hget⟩ := applyRequest_ok h
  obtain ⟨hi, -⟩ := List.getElem?_eq_some_iff.mp horder
  have hik := hs.intended _ hintent
  -- the request is of the next order, or repeats one
  have hmax : max k (payload.orderIndex + 1) ≤ X.admission.orders.length := max_le hs.le hi
  have hown : ∀ i, (requests.set purchaseKey purchase).get (orderKey i)
      = (s.packBatchRequests.get (orderKey i)).or
        (if i = payload.orderIndex then some batch else none) := by
    intro i
    rw [Map.get_set, if_neg (orderKey_ne_purchaseKey i), hget]
    simp only [orderKey_injective.eq_iff]
  have hrequested : ∀ i, ((requests.set purchaseKey purchase).get (orderKey i)).isSome ↔
      i < max k (payload.orderIndex + 1) := by
    intro i
    have hold := hs.requested i
    rw [hown, Option.isSome_or, Bool.or_eq_true, hold]
    by_cases hkey : i = payload.orderIndex
    · simp [hkey]
    · simp only [hkey, if_false, Option.isSome_none, Bool.false_eq_true, or_false]
      omega
  have hnone : ∀ i, max k (payload.orderIndex + 1) ≤ i → requests.get (orderKey i) = none := by
    intro i hle
    have hnot := mt (hrequested i).mp (not_lt.mpr hle)
    rw [Map.get_set, if_neg (orderKey_ne_purchaseKey i)] at hnot
    simpa using hnot
  let t : PackState := { s with packBatchRequests := requests.set purchaseKey purchase }
  have hgenerated : t.generated = purchase.packs := by simp [generated, t]
  have hall' : t.generated
      = (List.range (max k (payload.orderIndex + 1))).flatMap t.orderPacks := by
    rw [hgenerated, hpacks, generatedPacks_eq hmax hnone]
    congr 1
    funext i
    rw [orderPacks, Map.get_set, if_neg (orderKey_ne_purchaseKey i)]
  have hcomplete' : ∀ i order', X.admission.orders[i]? = some order' →
      i < max k (payload.orderIndex + 1) → CompleteOrder X i order' (t.orderPacks i) := by
    intro i order' horder' hlt
    by_cases hold : i < k
    · obtain ⟨own, hb⟩ := Option.isSome_iff_exists.mp ((hs.requested i).mpr hold)
      have hsame : t.orderPacks i = s.orderPacks i := by
        rw [orderPacks, orderPacks, hown, hb]
        rfl
      rw [hsame]
      exact hs.complete i order' horder' hold
    · have hkey : i = payload.orderIndex := by omega
      have hnew : s.packBatchRequests.get (orderKey i) = none := by
        simpa using mt (hs.requested i).mp hold
      have hsame : t.orderPacks i = batch.packs := by
        rw [orderPacks, hown, hnew, if_pos hkey]
        rfl
      rw [hsame, hkey]
      rw [hkey, horder] at horder'
      cases horder'
      exact hcomplete
  have hlength := length_flatMap_complete hmax hcomplete'
  rw [← hall', hgenerated] at hlength
  refine ⟨max k (payload.orderIndex + 1), hmax, hrequested, hcomplete', hall', ?_, ?_, ?_, ?_, ?_,
    hs.onePlayer, ?_⟩
  · rw [hgenerated]
    exact assertPackBatchRequest_numbered hchecked
  · rw [hgenerated]
    exact assertPackBatchRequest_memos hchecked
  · simp
  · intro own hown
    rw [Map.get_set, if_pos rfl] at hown
    cases hown
    rw [hall, hlength]
    simp only [orderOffset_eq_quantity hX hmax]
  · intro i hi
    exact (hs.intended i hi).trans (le_max_left _ _)
  · intro hpurchase
    have hk := hs.completed hpurchase
    omega

/-- Evidence of the purchase is only right when all orders are generated. -/
theorem Generated.of_reconciled {k : Nat} (hs : Generated X s k)
    {evidence : Option (List PackIdentity)} (h : s.purchaseReconciled X evidence) :
    k = X.admission.orders.length := by
  unfold purchaseReconciled at h
  split at h
  · rename_i batch packs hbatch
    simp only [Bool.and_eq_true, decide_eq_true_eq] at h
    have hcomplete := hs.generationComplete batch hbatch
    rw [h.1.1] at hcomplete
    simpa using (Option.some.inj hcomplete).symm
  · cases h

/-- One event. -/
theorem Generated.apply (hX : X.admission.Admitted) {k : Nat} (hs : Generated X s k)
    {e : PackEvent} (h : s.apply X e = .ok t) : ∃ k', Generated X t k' := by
  unfold PackState.apply at h
  obtain ⟨_, -, h⟩ := bind_eq_ok.mp h
  cases e with
  | packOrderIntentRecorded payload => exact ⟨k, hs.intent h⟩
  | packOrderRequestRecorded payload => exact hs.request hX h
  | packOrderReconciled i outcomes admissionDigest responseDigest =>
    obtain ⟨checked, -, rfl⟩ := applyReconciled_ok h
    exact ⟨k, hs.of_eq rfl rfl hs.completed⟩
  | packBatchIntentRecorded => cases h
  | packBatchRequestRecorded => cases h
  | stageRequestPrepared requestDigest =>
    obtain ⟨_, -, h⟩ := bind_eq_ok.mp h
    cases h
    exact ⟨k, hs.of_eq rfl rfl hs.completed⟩
  | stageCompleted evidence =>
    obtain ⟨hreconciled, -, rfl⟩ := applyCompleted_ok h
    exact ⟨k, hs.of_eq rfl rfl fun _ => hs.of_reconciled hreconciled⟩
  | cycleTerminal =>
    cases h
    exact ⟨k, hs.of_eq rfl rfl hs.completed⟩

/-! ## What is recorded stays -/

/-- What is recorded of the orders is what it was. -/
structure Keeps (s t : PackState) : Prop where
  intents : ∀ key, ∀ record ∈ s.packBatchIntents.get key, t.packBatchIntents.get key = some record
  requests : ∀ i, ∀ batch ∈ s.packBatchRequests.get (orderKey i),
    t.packBatchRequests.get (orderKey i) = some batch
  reconciliations : ∀ i, ∀ outcomes ∈ s.packOrderReconciliations.get i,
    t.packOrderReconciliations.get i = some outcomes
  purchase : ∀ evidence ∈ s.purchase, t.purchase = some evidence

theorem Keeps.refl (s : PackState) : Keeps s s :=
  ⟨fun _ _ h => h, fun _ _ h => h, fun _ _ h => h, fun _ h => h⟩

theorem Keeps.trans {u : PackState} (h : Keeps s t) (h' : Keeps t u) : Keeps s u :=
  ⟨fun key record hr => h'.intents key record (h.intents key record hr),
    fun i batch hb => h'.requests i batch (h.requests i batch hb),
    fun i outcomes ho => h'.reconciliations i outcomes (h.reconciliations i outcomes ho),
    fun evidence he => h'.purchase evidence (h.purchase evidence he)⟩

theorem keeps_apply {e : PackEvent} (h : s.apply X e = .ok t) : Keeps s t := by
  have hsame := Keeps.refl s
  unfold PackState.apply at h
  obtain ⟨_, -, h⟩ := bind_eq_ok.mp h
  cases e with
  | packOrderIntentRecorded payload =>
    obtain ⟨order, record, intents, -, -, -, rfl, hget⟩ := applyIntent_ok h
    refine { hsame with intents := ?_ }
    intro key old hold
    rw [hget, Option.mem_def.mp hold]
    rfl
  | packOrderRequestRecorded payload =>
    obtain ⟨order, batch, purchase, requests, -, -, -, -, -, -, rfl, hget⟩ := applyRequest_ok h
    refine { hsame with requests := ?_ }
    intro i old hold
    rw [Map.get_set, if_neg (orderKey_ne_purchaseKey i), hget, Option.mem_def.mp hold]
    rfl
  | packOrderReconciled i outcomes admissionDigest responseDigest =>
    obtain ⟨checked, hchecked, rfl⟩ := applyReconciled_ok h
    refine { hsame with reconciliations := ?_ }
    intro j old hold
    by_cases hj : j = i
    · rw [Map.get_set, if_pos hj, hchecked old (hj ▸ hold)]
    · rw [Map.get_set, if_neg hj]
      exact hold
  | packBatchIntentRecorded => cases h
  | packBatchRequestRecorded => cases h
  | stageRequestPrepared requestDigest =>
    obtain ⟨_, -, h⟩ := bind_eq_ok.mp h
    cases h
    exact { hsame with }
  | stageCompleted evidence =>
    obtain ⟨-, hprevious, rfl⟩ := applyCompleted_ok h
    refine { hsame with purchase := ?_ }
    intro previous hget
    rw [hprevious previous hget]
  | cycleTerminal =>
    cases h
    exact { hsame with }

/-- The packs of the purchase only grow, at the end. -/
theorem Generated.grows {k k' : Nat} (hs : Generated X s k) (ht : Generated X t k')
    (h : Keeps s t) : s.generated <+: t.generated := by
  have hkeeps : ∀ i < k, ∃ batch, s.packBatchRequests.get (orderKey i) = some batch ∧
      t.packBatchRequests.get (orderKey i) = some batch := by
    intro i hi
    obtain ⟨batch, hbatch⟩ := Option.isSome_iff_exists.mp ((hs.requested i).mpr hi)
    exact ⟨batch, hbatch, h.requests i batch hbatch⟩
  have hle : k ≤ k' := by
    by_contra hlt
    obtain ⟨batch, -, hbatch⟩ := hkeeps k' (by omega)
    have := (ht.requested k').mp (by rw [hbatch]; rfl)
    omega
  have hsame : (List.range k).flatMap s.orderPacks = (List.range k).flatMap t.orderPacks := by
    refine List.flatMap_congr ?_
    intro i hi
    obtain ⟨batch, hbatch, hbatch'⟩ := hkeeps i (List.mem_range.mp hi)
    rw [orderPacks, orderPacks, hbatch, hbatch']
  obtain ⟨rest, rfl⟩ := Nat.exists_eq_add_of_le hle
  rw [hs.packs, ht.packs, hsame, List.range_add, List.flatMap_append]
  exact List.prefix_append _ _

/-! ## Journals -/

/-- A journal replays to a state. -/
def Replays (X : PackContext) (journal : List PackEvent) (s : PackState) : Prop :=
  replay (fun s e => s.apply X e) PackState.empty journal = .ok s

theorem Replays.generated (hX : X.admission.Admitted) {journal : List PackEvent}
    (h : Replays X journal s) : ∃ k, Generated X s k := by
  refine replay_invariant (I := fun _ s => ∃ k, Generated X s k) ⟨0, .empty X⟩ ?_ h
  rintro journal s e t ⟨k, hs⟩ he
  exact hs.apply hX he

theorem Replays.keeps {journal more : List PackEvent} (h : Replays X journal s)
    (h' : Replays X (journal ++ more) t) : Keeps s t := by
  obtain ⟨u, hu, hmore⟩ := replay_prefix h'
  rw [Replays, hu] at h
  cases h
  refine @replay_invariant _ _ _ s (fun _ t => Keeps s t) (.refl s) ?_ _ _ hmore
  intro journal t e u ht he
  exact ht.trans (keeps_apply he)

/-! ## The writers -/

/-- What completes the purchase. -/
def completes : PackEvent → Bool
  | .stageCompleted _ => true
  | _ => false

/-- A call that keeps an event keeps none that completes the purchase. -/
def Plain : PackKept → Prop
  | .append e => ¬ completes e
  | _ => True

theorem read_plain {c : PackCall} {p : PackKept} (h : s.read X c = .ok (.keep p)) : Plain p := by
  cases p with
  | append e =>
    cases c with
    | recordPackOrderIntent i intent requestDigest now =>
      simp only [PackState.read, recordPackOrderIntent, bind_eq_ok, pure_eq_ok] at h
      obtain ⟨_, -, _, -, h⟩ := h
      split at h <;> cases h
    | recordPackOrderRequest i packs now =>
      simp only [PackState.read, recordPackOrderRequest, bind_eq_ok, pure_eq_ok] at h
      obtain ⟨_, -, _, -, h⟩ := h
      split at h <;> cases h
    | recordPackOrderReconciliation i outcomes =>
      simp only [PackState.read, recordPackOrderReconciliation, bind_eq_ok] at h
      obtain ⟨checked, -, h⟩ := h
      split at h
      · obtain ⟨_, -, h⟩ := bind_eq_ok.mp h
        cases h
      · cases h
    | recordStageRequestDigest requestDigest =>
      simp only [PackState.read, recordStageRequestDigest, bind_eq_ok, pure_eq_ok] at h
      obtain ⟨_, -, h⟩ := h
      split at h
      · cases h
      · cases h
        simp [Plain, completes]
    | completeStage evidence =>
      simp only [PackState.read, completeStage, bind_eq_ok] at h
      obtain ⟨_, -, h⟩ := h
      split at h
      · obtain ⟨_, -, h⟩ := bind_eq_ok.mp h
        cases h
      · obtain ⟨_, -, h⟩ := bind_eq_ok.mp h
        cases h
    | holdCycle =>
      simp only [PackState.read, Except.ok.injEq] at h
      split at h
      · cases h
      · cases h
        simp [Plain, completes]
  | _ => exact trivial

/-- A commit appends one event, and the completion only when the evidence is right. -/
theorem append_ok {p : PackKept} {events : List PackEvent} {r : PackAnswer} (hp : Plain p)
    (h : s.append X p = .ok (events, r)) :
    ∃ e, events = [e] ∧ (completes e → ∃ evidence, s.purchaseReconciled X evidence) := by
  cases p with
  | intent payload =>
    simp only [PackState.append, bind_eq_ok, pure_eq_ok, Prod.mk.injEq] at h
    obtain ⟨_, -, _, -, rfl, -⟩ := h
    exact ⟨_, rfl, by simp [completes]⟩
  | request payload =>
    simp only [PackState.append, bind_eq_ok, pure_eq_ok, Prod.mk.injEq] at h
    obtain ⟨_, -, _, -, rfl, -⟩ := h
    exact ⟨_, rfl, by simp [completes]⟩
  | reconciliation i outcomes batch =>
    simp only [PackState.append, bind_eq_ok, pure_eq_ok, Prod.mk.injEq] at h
    obtain ⟨_, -, rfl, -⟩ := h
    exact ⟨_, rfl, by simp [completes]⟩
  | completion evidence =>
    simp only [PackState.append, assertReconciledCompletion, bind_eq_ok, pure_eq_ok, revertIf_eq_ok,
      Prod.mk.injEq] at h
    obtain ⟨_, -, _, hreconciled, rfl, -⟩ := h
    exact ⟨_, rfl, fun _ => ⟨evidence, not_not.mp hreconciled⟩⟩
  | append e =>
    cases h
    exact ⟨e, rfl, fun he => absurd he hp⟩

/-- Before every event of the journal of a run, the journal replays. -/
def Written (X : PackContext) (journal : List PackEvent) : Prop :=
  ∀ before e, before ++ [e] <+: journal → ∃ s, Replays X before s ∧
    (completes e → ∃ evidence, s.purchaseReconciled X evidence)

theorem packWriters_written (X : PackContext) :
    (packWriters X).Preserves (fun journal _ => Written X journal) (fun _ p => Plain p)
      (fun _ _ => True) where
  answer := fun _ _ _ _ _ hwritten _ _ => hwritten
  keep := fun _ _ _ _ _ _ _ hread => read_plain hread
  append := by
    intro journal s as p events r hwritten hs hp _ happend
    obtain ⟨e, rfl, hcomplete⟩ := append_ok hp happend
    have hnext : Written X (journal ++ [e]) := by
      intro before last hprefix
      rcases List.prefix_concat_iff.mp hprefix with hend | hbefore
      · obtain ⟨rfl, hlast⟩ := List.append_inj' hend rfl
        cases hlast
        exact ⟨s, hs, hcomplete⟩
      · exact hwritten before last hbefore
    exact ⟨hnext, hnext⟩
  kept := fun _ _ _ _ _ _ _ _ _ _ hq => hq

/-- In every journal that replays, the packs of the purchase are those of the first orders of the
plan, and more events leave what is recorded. In every run of the writers the journal replays
before each of its events, and the purchase is completed only when all orders are generated. -/
theorem packs_generated {value : PlanAdmission}
    (hplan : normalizePlanAdmission value = .ok X.admission) :
    (∀ journal s, Replays X journal s → (∃ k, Generated X s k) ∧
      ∀ more t, Replays X (journal ++ more) t → Keeps s t ∧ s.generated <+: t.generated) ∧
    ∀ moves before e,
      before ++ [e] <+: (stateAfterRun (packWriters X).service.step (World.start []) moves).store →
      ∃ s k, Replays X before s ∧ Generated X s k ∧
        (completes e → k = X.admission.orders.length) := by
  have hX := normalizePlanAdmission_admitted hplan
  constructor
  · intro journal s h
    obtain ⟨k, hs⟩ := h.generated hX
    refine ⟨⟨k, hs⟩, ?_⟩
    intro more t ht
    obtain ⟨k', hk'⟩ := ht.generated hX
    have hkeeps := h.keeps ht
    exact ⟨hkeeps, hs.grows hk' hkeeps⟩
  · intro moves before e hprefix
    have hwritten : Written X [] := by
      intro before e hprefix
      simp at hprefix
    have hrun := (packWriters_written X).run_always (fun _ _ => trivial) hwritten moves
    obtain ⟨s, hs, hcomplete⟩ := hrun.store before e hprefix
    obtain ⟨k, hk⟩ := hs.generated hX
    refine ⟨s, k, hs, hk, ?_⟩
    intro he
    obtain ⟨evidence, hreconciled⟩ := hcomplete he
    exact hk.of_reconciled hreconciled

/-! ## An example -/

/-- Two packs of one kind, then one of another. -/
def samplePlan : PlanAdmission :=
  let price : TypedAmount := ⟨text "solana", text "usdc", 6, text "5000000"⟩
  { packPlan := ⟨PACK_PLAN_SCHEMA, 1, [⟨text "base-a", 2⟩, ⟨text "base-b", 1⟩]⟩
    orders := [⟨0, text "base-a", 2, price⟩, ⟨1, text "base-b", 1, price⟩]
    quantity := 3 }

def sampleDigest : Text := text "sha256:" ++ List.replicate 64 97

def samplePacks : PackContext where
  admission := samplePlan
  admissionDigest := sampleDigest
  batchDigest _ := sampleDigest
  storedEvidence evidence := evidence
  fits _ _ := true

def sampleIntent (orderIndex : Nat) (packType : Text) (quantity : Int) : PackEvent :=
  .packOrderIntentRecorded ⟨purchaseKey, orderIndex, ⟨quantity, some packType, 5, text "player"⟩,
    sampleDigest, sampleDigest, 10⟩

def sampleRequest (orderIndex : Nat) (packType : Text) (packs : List (Int × Text)) : PackEvent :=
  .packOrderRequestRecorded ⟨purchaseKey, orderIndex,
    packs.map fun pack => ⟨pack.1, pack.2, 5, some packType⟩, 20⟩

/-- The first order, its response twice, then the second order. -/
def sampleJournal : List PackEvent :=
  [.stageRequestPrepared sampleDigest, sampleIntent 0 (text "base-a") 2,
    sampleRequest 0 (text "base-a") [(0, text "m0"), (1, text "m1")],
    sampleRequest 0 (text "base-a") [(0, text "m0"), (1, text "m1")],
    sampleIntent 1 (text "base-b") 1, sampleRequest 1 (text "base-b") [(2, text "m2")]]

theorem samplePlan_ok : normalizePlanAdmission samplePlan = .ok samplePlan := by decide +kernel

theorem samplePacks_generated :
    (replay (fun s e => s.apply samplePacks e) PackState.empty sampleJournal).map
      (fun s => s.generated.map fun pack => (pack.packIndex, pack.memo))
      = .ok [(0, text "m0"), (1, text "m1"), (2, text "m2")] := by decide

/-- The journal replays, to the packs of both orders. -/
theorem packs_generated_sample :
    ∃ s k, Replays samplePacks sampleJournal s ∧ Generated samplePacks s k ∧
      (s.generated.map fun pack => (pack.packIndex, pack.memo))
        = [(0, text "m0"), (1, text "m1"), (2, text "m2")] := by
  have hjournal := samplePacks_generated
  cases hs : replay (fun s e => s.apply samplePacks e) PackState.empty sampleJournal with
  | error message =>
    rw [hs] at hjournal
    cases hjournal
  | ok s =>
    rw [hs] at hjournal
    obtain ⟨k, hk⟩ := ((packs_generated (X := samplePacks) samplePlan_ok).1 sampleJournal s hs).1
    exact ⟨s, k, hs, hk, Except.ok.inj hjournal⟩

end PackState

end Hookemon.Repository
