import Hookemon.Runner.MutationHistory

/-! # What a retirement leaves behind

A retirement clears what was recorded on the way to the broadcast of an action. It leaves the
receipt, its accounting and its consumption, which a supersession can find recorded; and it
leaves what the mutation has led to, the post-open approval of a buyback and the responses of
the Collector.
-/

namespace Hookemon.Runner.CycleReducer

open Hookemon.Core Hookemon.Js

variable {profile : EvidenceProfile} {l l' : Ledger} {body : EventBody} {staged : Staged}

/-- The action whose broadcast is given up. -/
def EventBody.supersession? : EventBody → Option Digest
  | .externalMutationSuperseded requestDigest _ _ _ => some requestDigest
  | _ => none

/-! ## The native gas -/

/-- What an action reserves on a chain. -/
def reservedOn (chain : GasChain) (prepared : PreparedAction) : Nat :=
  if Ledger.chainOf prepared = chain then prepared.action.nativeGasAmount else 0

/-- What an accounted execution has spent on a chain. -/
def spentOn (chain : GasChain) (evidence : ExecutionAccounting) : Nat :=
  if nativeGasChainForActionKind evidence.actionKind = chain then evidence.nativeGas.actualDebit
  else 0

/-- The counters of native gas are sums over what is recorded. -/
structure Ledger.Metered (l : Ledger) : Prop where
  reserved : ∀ chain, (l.reserved.get chain).getD 0 = l.actions.total (reservedOn chain)
  cap : ∀ chain preflight, l.preflight = some preflight →
    l.actions.total (reservedOn chain) ≤ preflight.nativeGasCaps.on chain
  used : ∀ chain, (l.used.get chain).getD 0 = l.executionAccounting.total (spentOn chain)

/-- A counter of which one key changes. -/
theorem getD_set (counter : Map GasChain Nat) (chain chain' : GasChain) (n : Nat) :
    ((counter.set chain n).get chain').getD 0
      = if chain' = chain then n else (counter.get chain').getD 0 := by
  by_cases h : chain' = chain <;> simp [h]

theorem Ledger.Metered.retireAction (h : l.Metered) {d : Digest} {kind : ActionKind}
    {prepared : PreparedAction} (haction : l.actions.get d = some prepared) :
    (l.retireAction d kind prepared).Metered := by
  have htotal : ∀ chain, reservedOn chain prepared + (l.actions.delete d).total (reservedOn chain)
      = l.actions.total (reservedOn chain) :=
    fun chain => Map.total_delete haction (reservedOn chain)
  refine ⟨?_, ?_, h.used⟩
  · intro chain
    have hreserved := h.reserved chain
    have hsum := htotal chain
    simp only [Ledger.retireAction, getD_set]
    by_cases hchain : chain = Ledger.chainOf prepared
    · subst hchain
      rw [if_pos rfl, hreserved]
      simp only [reservedOn, if_true] at hsum ⊢
      omega
    · rw [if_neg hchain, hreserved]
      simp only [reservedOn, if_neg (Ne.symm hchain)] at hsum ⊢
      omega
  · intro chain preflight hpreflight
    have hcap := h.cap chain preflight hpreflight
    have hsum := htotal chain
    simp only [Ledger.retireAction]
    omega

/-- **Every step keeps the counters.** -/
theorem Ledger.Metered.step (h : l.Metered) (hs : l.Step profile body l' staged) : l'.Metered := by
  cases hs with
  | preflight value preflight preflightDigest hnone hactions =>
    refine { h with cap := ?_ }
    intro chain _ _
    rw [Map.total_eq_zero hactions]
    exact Nat.zero_le _
  | intent value action preflight hvalue hpreflight hcap hstage hnew hkind =>
    have htotal : ∀ chain, (l.actions.set (profile.actionDigests action).actionDigest
        ⟨action, profile.actionDigests action⟩).total (reservedOn chain)
          = reservedOn chain ⟨action, profile.actionDigests action⟩
            + l.actions.total (reservedOn chain) :=
      fun chain => Map.total_set hnew (reservedOn chain) _
    refine ⟨?_, ?_, h.used⟩
    · intro chain
      have hreserved := h.reserved chain
      simp only [htotal, getD_set]
      by_cases hchain : chain = nativeGasChainForActionKind action.actionKind
      · subst hchain
        rw [if_pos rfl, hreserved]
        simp only [reservedOn, Ledger.chainOf, if_true]
        omega
      · have hother : nativeGasChainForActionKind action.actionKind ≠ chain := Ne.symm hchain
        rw [if_neg hchain, hreserved]
        simp only [reservedOn, Ledger.chainOf, hother, if_false]
        omega
    · intro chain p hp
      rw [hpreflight, Option.some.injEq] at hp
      subst hp
      have hbefore := h.cap chain preflight hpreflight
      simp only [htotal]
      by_cases hchain : chain = nativeGasChainForActionKind action.actionKind
      · subst hchain
        rw [h.reserved] at hcap
        simp only [reservedOn, Ledger.chainOf, if_true] at hcap ⊢
        omega
      · have hother : nativeGasChainForActionKind action.actionKind ≠ chain := Ne.symm hchain
        simp only [reservedOn, Ledger.chainOf, hother, if_false]
        omega
  | accounting value evidence prepared receipt preflight haction hreceipt hkind hdigest hreceiptKind
      hdebit hnew =>
    refine { h with used := ?_ }
    intro chain
    have hused := h.used chain
    have htotal : (l.executionAccounting.set evidence.actionDigest evidence).total (spentOn chain)
        = spentOn chain evidence + l.executionAccounting.total (spentOn chain) :=
      Map.total_set hnew (spentOn chain) evidence
    simp only [htotal, getD_set]
    by_cases hchain : chain = Ledger.chainOf prepared
    · subst hchain
      rw [if_pos rfl, hused]
      simp only [spentOn, hkind, Ledger.chainOf, if_true]
      omega
    · rw [if_neg hchain, hused]
      have hother : nativeGasChainForActionKind evidence.actionKind ≠ chain := by
        rw [hkind]
        exact Ne.symm hchain
      simp only [spentOn, if_neg hother]
      omega
  | voidAction d proof kind prepared hmutation haction => exact h.retireAction haction
  | supersede d provider rpc authorization kind prepared broadcast staged hmutation haction =>
    exact h.retireAction haction
  | _ => exact { h with }

/-! ## The receipts -/

/-- Receipts stand on broadcasts, their accounting on actions that are there, and what was
consumed on both. -/
structure Ledger.Receipted (l : Ledger) : Prop where
  receipts : ∀ r receipt, l.receipts.get r = some receipt →
    ∃ broadcast, l.broadcasts.get receipt.actionDigest = some broadcast
  accounted : ∀ d evidence, l.executionAccounting.get d = some evidence →
    (∃ prepared, l.actions.get d = some prepared ∧
      evidence.actionKind = prepared.action.actionKind) ∧
    ∃ receipt, l.receipts.get evidence.receiptDigest = some receipt ∧ receipt.actionDigest = d ∧
      receipt.actionKind = evidence.actionKind
  consumed : ∀ kind r, l.consumedByAction.get kind = some r → r ∈ l.consumedReceipts ∧
    ∃ receipt evidence, l.receipts.get r = some receipt ∧ receipt.actionKind = kind ∧
      l.executionAccounting.get receipt.actionDigest = some evidence ∧ evidence.receiptDigest = r
  indexed : ∀ r, r ∈ l.consumedReceipts → ∃ receipt, l.receipts.get r = some receipt ∧
    l.consumedByAction.get receipt.actionKind = some r

namespace Ledger.Receipted

/-- An action without a receipt goes, and no receipt misses it. -/
theorem retireAction (h : l.Receipted) {d : Digest} {kind : ActionKind} {prepared : PreparedAction}
    (hfree : ∀ r receipt, l.receipts.get r = some receipt → receipt.actionDigest ≠ d) :
    (l.retireAction d kind prepared).Receipted :=
  { h with
    receipts := by
      intro r receipt hreceipt
      rcases h.receipts r receipt hreceipt with ⟨broadcast, hbroadcast⟩
      exact ⟨broadcast, Map.get_delete_eq_some.mpr ⟨hfree r receipt hreceipt, hbroadcast⟩⟩
    accounted := by
      intro d' evidence hevidence
      rcases h.accounted d' evidence hevidence with
        ⟨⟨p, hp, hkind⟩, receipt, hreceipt, rfl, hreceiptKind⟩
      have hother := hfree evidence.receiptDigest receipt hreceipt
      exact ⟨⟨p, Map.get_delete_eq_some.mpr ⟨hother, hp⟩, hkind⟩, receipt, hreceipt, rfl,
        hreceiptKind⟩ }

/-- A new receipt. -/
theorem receipt (h : l.Receipted) {r : Digest} {receipt : ProviderReceipt}
    {broadcast : BroadcastRecord} {identities : Finset Digest}
    (hbroadcast : l.broadcasts.get receipt.actionDigest = some broadcast)
    (hnew : l.receipts.get r = none) :
    Ledger.Receipted { l with
      receipts := l.receipts.set r receipt
      receiptIdentities := identities } :=
  { h with
    receipts := by
      intro r' x hx
      rcases Map.get_set_eq_some.mp hx with ⟨-, rfl⟩ | ⟨-, hold⟩
      · exact ⟨broadcast, hbroadcast⟩
      · exact h.receipts r' x hold
    accounted := by
      intro d evidence hevidence
      rcases h.accounted d evidence hevidence with ⟨haction, x, hx, hrest⟩
      exact ⟨haction, x, Map.get_set_of_new hnew hx _, hrest⟩
    consumed := by
      intro kind r' hr'
      rcases h.consumed kind r' hr' with ⟨hmem, x, evidence, hx, hrest⟩
      exact ⟨hmem, x, evidence, Map.get_set_of_new hnew hx _, hrest⟩
    indexed := by
      intro r' hr'
      rcases h.indexed r' hr' with ⟨x, hx, hconsumed⟩
      exact ⟨x, Map.get_set_of_new hnew hx _, hconsumed⟩ }

/-- The consumption of a receipt. -/
theorem consumption (h : l.Receipted) {r : Digest} {receipt : ProviderReceipt}
    {accounting : ExecutionAccounting} (hreceipt : l.receipts.get r = some receipt)
    (haccounting : l.executionAccounting.get receipt.actionDigest = some accounting)
    (hdigest : accounting.receiptDigest = r)
    (hkind : l.consumedByAction.get receipt.actionKind = none) :
    Ledger.Receipted { l with
      consumedReceipts := insert r l.consumedReceipts
      consumedByAction := l.consumedByAction.set receipt.actionKind r } :=
  { h with
    consumed := by
      intro kind r' hr'
      rcases Map.get_set_eq_some.mp hr' with ⟨rfl, rfl⟩ | ⟨-, hold⟩
      · exact ⟨Finset.mem_insert_self _ _, receipt, accounting, hreceipt, rfl, haccounting, hdigest⟩
      · rcases h.consumed kind r' hold with ⟨hmem, hrest⟩
        exact ⟨Finset.mem_insert_of_mem hmem, hrest⟩
    indexed := by
      intro r' hr'
      rcases Finset.mem_insert.mp hr' with rfl | hold
      · exact ⟨receipt, hreceipt, Map.get_set_eq_some.mpr (.inl ⟨rfl, rfl⟩)⟩
      · rcases h.indexed r' hold with ⟨x, hx, hconsumed⟩
        exact ⟨x, hx, Map.get_set_of_new hkind hconsumed _⟩ }

/-- **Every step keeps the receipts, where no supersession takes the action of a receipt.** -/
theorem step (h : l.Receipted) (hs : l.Step profile body l' staged)
    (hfree : ∀ d, body.supersession? = some d →
      ∀ r receipt, l.receipts.get r = some receipt → receipt.actionDigest ≠ d) :
    l'.Receipted := by
  cases hs with
  | intent value action preflight hvalue hpreflight hcap hstage hnew =>
    exact { h with
      accounted := by
        intro d evidence hevidence
        rcases h.accounted d evidence hevidence with ⟨⟨p, hp, hkind⟩, hreceipt⟩
        exact ⟨⟨p, Map.get_set_of_new hnew hp _, hkind⟩, hreceipt⟩ }
  | broadcast broadcast signed hsigned hnew =>
    exact { h with
      receipts := by
        intro r receipt hreceipt
        rcases h.receipts r receipt hreceipt with ⟨b, hb⟩
        exact ⟨b, Map.get_set_of_new hnew hb _⟩ }
  | receipt value receipt registryKey prepared broadcast haction hbroadcast hkey hnew =>
    exact h.receipt hbroadcast hnew
  | accounting value evidence prepared receipt preflight haction hreceipt hkind hdigest hreceiptKind
      hdebit hnew =>
    exact { h with
      accounted := by
        intro d e he
        rcases Map.get_set_eq_some.mp he with ⟨rfl, rfl⟩ | ⟨-, hold⟩
        · exact ⟨⟨prepared, haction, hkind⟩, receipt, hreceipt, hdigest, hreceiptKind⟩
        · exact h.accounted d e hold
      consumed := by
        intro kind r hr
        rcases h.consumed kind r hr with ⟨hmem, x, e, hx, hxkind, he, hdigest'⟩
        exact ⟨hmem, x, e, hx, hxkind, Map.get_set_of_new hnew he _, hdigest'⟩ }
  | receiptConsumption r registryKey receipt accounting staged hreceipt haccounting hdigest hnew
      hkind =>
    exact h.consumption hreceipt haccounting hdigest hkind
  | voidAction d proof kind prepared hmutation haction hbroadcast =>
    -- a receipt would stand on a broadcast, and a broadcast cannot be voided
    refine h.retireAction ?_
    rintro r receipt hreceipt rfl
    rcases h.receipts r receipt hreceipt with ⟨b, hb⟩
    rw [hbroadcast] at hb
    cases hb
  | supersede d provider rpc authorization kind prepared =>
    exact h.retireAction (hfree d rfl)
  | _ => exact { h with }

end Ledger.Receipted

/-! ## Integrity -/

/-- An action is there, under its digest and under its kind. -/
def Ledger.Present (l : Ledger) (d : Digest) : Prop :=
  ∃ prepared, l.actions.get d = some prepared ∧
    l.actionByKind.get prepared.action.actionKind = some d

/-- Everything that is recorded about an action refers to one that is there, each kind has at
most one consumed receipt, of the action of that kind, and the native gas adds up. -/
structure Ledger.Intact (l : Ledger) : Prop where
  approvals : ∀ d kind approval, l.approvals.get (d, kind) = some approval → l.Present d
  consumedApprovals : ∀ d kind consumed, l.consumedApprovals.get (d, kind) = some consumed →
    l.Present d
  decoded : ∀ d message, l.decoded.get d = some message → l.Present d
  signed : ∀ d signed, l.signed.get d = some signed → l.Present d
  validity : ∀ d validity, l.blockhashValidity.get d = some validity → l.Present d
  broadcasts : ∀ d broadcast, l.broadcasts.get d = some broadcast → l.Present d
  receipts : ∀ r receipt, l.receipts.get r = some receipt → l.Present receipt.actionDigest
  accounting : ∀ d evidence, l.executionAccounting.get d = some evidence → l.Present d
  consumedReceipts : ∀ r, r ∈ l.consumedReceipts →
    ∃ receipt, l.receipts.get r = some receipt ∧ l.Present receipt.actionDigest
  onePerKind : ∀ r r' receipt receipt', r ∈ l.consumedReceipts → r' ∈ l.consumedReceipts →
    l.receipts.get r = some receipt → l.receipts.get r' = some receipt' →
    receipt.actionKind = receipt'.actionKind → r = r'
  consumedByAction : ∀ kind r, l.consumedByAction.get kind = some r → r ∈ l.consumedReceipts ∧
    ∃ receipt, l.receipts.get r = some receipt ∧ receipt.actionKind = kind ∧
      l.actionByKind.get kind = some receipt.actionDigest
  reserved : ∀ chain, (l.reserved.get chain).getD 0 = l.actions.total (reservedOn chain)
  reservedCap : ∀ chain preflight, l.preflight = some preflight →
    (l.reserved.get chain).getD 0 ≤ preflight.nativeGasCaps.on chain
  used : ∀ chain, (l.used.get chain).getD 0 = l.executionAccounting.total (spentOn chain)

theorem Ledger.Indexed.present (h : l.Indexed profile) {d : Digest}
    (hd : ∃ prepared, l.actions.get d = some prepared) : l.Present d := by
  rcases hd with ⟨prepared, haction⟩
  exact ⟨prepared, haction, h.indexed d prepared haction⟩

/-- **An indexed ledger with its receipts and counters is intact.** -/
theorem intact_of (hindexed : l.Indexed profile) (hmetered : l.Metered) (hreceipted : l.Receipted) :
    l.Intact := by
  have hreceipt : ∀ r receipt, l.receipts.get r = some receipt → l.Present receipt.actionDigest := by
    intro r receipt hget
    rcases hreceipted.receipts r receipt hget with ⟨broadcast, hbroadcast⟩
    exact hindexed.present (hindexed.broadcast_present hbroadcast)
  exact {
    approvals := fun d kind approval happroval =>
      hindexed.present (hindexed.approved d kind approval happroval)
    consumedApprovals := fun d kind consumed hconsumed =>
      hindexed.present (hindexed.consumed_present ⟨consumed, hconsumed⟩)
    decoded := fun d message hmessage => hindexed.present (hindexed.decoded_present hmessage)
    signed := fun d signed hsigned => hindexed.present (hindexed.signed_present hsigned)
    validity := by
      intro d validity hvalidity
      rcases hindexed.validity d validity hvalidity with ⟨signed, hsigned⟩
      exact hindexed.present (hindexed.signed_present hsigned)
    broadcasts := fun d broadcast hbroadcast =>
      hindexed.present (hindexed.broadcast_present hbroadcast)
    receipts := hreceipt
    accounting := by
      intro d evidence hevidence
      rcases hreceipted.accounted d evidence hevidence with ⟨⟨prepared, haction, -⟩, -⟩
      exact hindexed.present ⟨prepared, haction⟩
    consumedReceipts := by
      intro r hr
      rcases hreceipted.indexed r hr with ⟨receipt, hget, -⟩
      exact ⟨receipt, hget, hreceipt r receipt hget⟩
    onePerKind := by
      intro r r' receipt receipt' hr hr' hget hget' hkind
      rcases hreceipted.indexed r hr with ⟨x, hx, hconsumed⟩
      rcases hreceipted.indexed r' hr' with ⟨x', hx', hconsumed'⟩
      obtain rfl : x = receipt := Option.some.inj (hx.symm.trans hget)
      obtain rfl : x' = receipt' := Option.some.inj (hx'.symm.trans hget')
      rw [hkind, hconsumed', Option.some.injEq] at hconsumed
      exact hconsumed.symm
    consumedByAction := by
      intro kind r hr
      rcases hreceipted.consumed kind r hr with ⟨hmem, receipt, evidence, hget, hkind, hevidence, -⟩
      rcases hreceipted.accounted _ evidence hevidence with
        ⟨⟨prepared, haction, hprepared⟩, receipt', hget', -, hkind'⟩
      refine ⟨hmem, receipt, hget, hkind, ?_⟩
      have hdigest : evidence.receiptDigest = r := by
        rcases hreceipted.consumed kind r hr with ⟨-, x, e, hx, -, he, hr'⟩
        obtain rfl : x = receipt := Option.some.inj (hx.symm.trans hget)
        obtain rfl : e = evidence := Option.some.inj (he.symm.trans hevidence)
        exact hr'
      rw [hdigest, hget, Option.some.injEq] at hget'
      subst hget'
      rw [← hkind, hkind', hprepared]
      exact hindexed.indexed _ prepared haction
    reserved := hmetered.reserved
    reservedCap := by
      intro chain preflight hpreflight
      rw [hmetered.reserved]
      exact hmetered.cap chain preflight hpreflight
    used := hmetered.used }

/-! ## What a mutation has led to -/

/-- What a mutation has led to outlives its retirement. -/
def Ledger.LeftBehind (l : Ledger) : MutationKind → Prop
  | .action .buyback => l.postOpen.isSome
  | .action _ => False
  | .collector .generate => l.generated.isSome
  | .collector .openPack => l.opened.isSome

/-- Approval and responses belong to a mutation that is there. -/
structure Ledger.Clear (l : Ledger) : Prop where
  postOpen : l.postOpen.isSome → (l.actionByKind.get .buyback).isSome
  generated : l.generated.isSome → (l.intent .generate).isSome
  opened : l.opened.isSome → (l.intent .openPack).isSome

theorem Ledger.Clear.retireAction (h : l.Clear) {d : Digest} {kind : ActionKind}
    {prepared : PreparedAction} :
    (l.retireAction d kind prepared).Clear ↔ ¬ l.LeftBehind (.action kind) := by
  constructor
  · intro hclear hleft
    cases kind with
    | buyback =>
      have hpresent := hclear.postOpen hleft
      simp [Ledger.retireAction] at hpresent
    | _ => exact hleft
  · intro hleft
    refine ⟨?_, h.generated, h.opened⟩
    intro hpostOpen
    have hkind : ActionKind.buyback ≠ kind := by
      rintro rfl
      exact hleft hpostOpen
    simpa [Ledger.retireAction, hkind] using h.postOpen hpostOpen

theorem Ledger.Clear.retireCollector (h : l.Clear) {d : Digest} {action : CollectorAction} :
    (l.retireCollector d action).Clear ↔ ¬ l.LeftBehind (.collector action) := by
  constructor
  · intro hclear hleft
    cases action with
    | generate =>
      have hpresent := hclear.generated hleft
      simp [Ledger.retireCollector] at hpresent
    | openPack =>
      have hpresent := hclear.opened hleft
      simp [Ledger.retireCollector] at hpresent
  · intro hleft
    refine ⟨h.postOpen, ?_, ?_⟩
    · intro hgenerated
      have haction : CollectorAction.generate ≠ action := by
        rintro rfl
        exact hleft hgenerated
      simpa [Ledger.retireCollector, Function.update_of_ne haction] using h.generated hgenerated
    · intro hopened
      have haction : CollectorAction.openPack ≠ action := by
        rintro rfl
        exact hleft hopened
      simpa [Ledger.retireCollector, Function.update_of_ne haction] using h.opened hopened

/-- **A step keeps the ledger clear exactly when it leaves nothing behind.** -/
theorem Ledger.Clear.step_iff (h : l.Clear) (hindexed : l.Indexed profile)
    (hs : l.Step profile body l' staged) :
    l'.Clear ↔ ∀ d mutation, body.retirement? = some d →
      l.externalMutations.get d = some mutation → ¬ l.LeftBehind mutation.identity.actionKind := by
  have hretired : ∀ (d : Digest) (kind : MutationKind) (Q : MutationKind → Prop),
      l.Unresolved d kind → (Q kind ↔ ∀ d' mutation, some d = some d' →
        l.externalMutations.get d' = some mutation → Q mutation.identity.actionKind) := by
    rintro d kind Q ⟨mutation, hget, -, rfl⟩
    constructor
    · rintro hQ d' m heq hm
      cases heq
      obtain rfl : mutation = m := Option.some.inj (hget.symm.trans hm)
      exact hQ
    · intro hall
      exact hall d mutation rfl hget
  have hkept : body.retirement? = none → l'.Clear → (l'.Clear ↔ ∀ d mutation,
      body.retirement? = some d → l.externalMutations.get d = some mutation →
      ¬ l.LeftBehind mutation.identity.actionKind) := by
    intro hnone hclear
    simp [hnone, hclear]
  cases hs with
  | quiet body staged hquiet =>
    refine hkept ?_ h
    cases body <;> simp_all [EventBody.Quiet, EventBody.retirement?]
  | intent value action =>
    refine hkept rfl { h with postOpen := ?_ }
    intro hpostOpen
    by_cases hkind : ActionKind.buyback = action.actionKind
    · simp [hkind]
    · simpa [hkind] using h.postOpen hpostOpen
  | collectorIntent action value intent =>
    refine hkept rfl ⟨h.postOpen, ?_, ?_⟩
    · intro hgenerated
      by_cases haction : CollectorAction.generate = action
      · subst haction
        simp
      · simpa [Function.update_of_ne haction] using h.generated hgenerated
    · intro hopened
      by_cases haction : CollectorAction.openPack = action
      · subst haction
        simp
      · simpa [Function.update_of_ne haction] using h.opened hopened
  | generated binding preflightDigest response generated intent hintent =>
    exact hkept rfl { h with generated := fun _ => by simp [hintent] }
  | opened value opening execution intent hintent =>
    exact hkept rfl { h with opened := fun _ => by simp [hintent] }
  | postOpen now value approval d prepared staged hvalue hresolve haction hkind =>
    refine hkept rfl { h with postOpen := fun _ => ?_ }
    have hthere := hindexed.indexed d prepared haction
    rw [hkind] at hthere
    simp [hthere]
  | voidAction d proof kind prepared hmutation =>
    rw [h.retireAction]
    exact hretired d (.action kind) (fun kind => ¬ l.LeftBehind kind) hmutation
  | supersede d provider rpc authorization kind prepared broadcast staged hmutation =>
    rw [h.retireAction]
    exact hretired d (.action kind) (fun kind => ¬ l.LeftBehind kind) hmutation
  | voidCollector d proof action hmutation =>
    rw [h.retireCollector]
    exact hretired d (.collector action) (fun kind => ¬ l.LeftBehind kind) hmutation
  | _ => exact hkept rfl { h with }

/-! ## Whole histories -/

/-- No supersession takes an action away whose receipt is recorded. -/
def KeepsReceipts (w : World) (occurrence : Occurrence) : Prop :=
  ∀ event d, occurrence = .own event → event.body.supersession? = some d →
    ∀ r receipt, w.state.receipts.get r = some receipt → receipt.actionDigest ≠ d

/-- No retirement leaves behind what its mutation has led to. -/
def LeavesNothing (w : World) (occurrence : Occurrence) : Prop :=
  ∀ event d mutation, occurrence = .own event → event.body.retirement? = some d →
    w.state.externalMutations.get d = some mutation →
    ¬ w.state.ledger.LeftBehind mutation.identity.actionKind

variable {w w' : World} {occurrence : Occurrence}

/-- A receipt whose action a supersession takes is left without one. -/
theorem keepsReceipts_of_intact (hintact : w'.state.ledger.Intact)
    (h : advance profile w occurrence = .ok w') : KeepsReceipts w occurrence := by
  rintro event d rfl hsuperseded r receipt hreceipt rfl
  rcases advance_own h with ⟨staged, hs, -⟩
  generalize event.body = body at hs hsuperseded
  generalize w'.state.ledger = l' at hs hintact
  cases hs with
  | quiet body staged hquiet => cases body <;> simp_all [EventBody.Quiet, EventBody.supersession?]
  | supersede d provider rpc authorization kind prepared =>
    cases hsuperseded
    rcases hintact.receipts r receipt hreceipt with ⟨p, hp, -⟩
    exact (Map.get_delete_eq_some.mp hp).1 rfl
  | _ => cases hsuperseded

/-- What all histories keep, and what those keep that take no receipt's action away. -/
structure Kept (profile : EvidenceProfile) (l : Ledger) : Prop where
  indexed : l.Indexed profile
  metered : l.Metered
  receipted : l.Receipted

theorem Kept.advance (hkept : Kept profile w.state.ledger) (hfree : KeepsReceipts w occurrence)
    (h : advance profile w occurrence = .ok w') : Kept profile w'.state.ledger := by
  cases occurrence with
  | own event =>
    rcases advance_own h with ⟨staged, hs, -⟩
    exact ⟨hkept.indexed.step hs, hkept.metered.step hs,
      hkept.receipted.step hs fun d hd => hfree event d rfl hd⟩
  | elsewhere otherId staged =>
    rw [(advance_elsewhere h).1]
    exact hkept

variable {store : EvidenceStore} {cycleId : Text}

theorem kept_beginning : Kept profile (World.beginning store cycleId).state.ledger := by
  refine ⟨indexed_beginning, ?_, ?_⟩ <;> constructor <;> intros <;>
    simp_all [World.beginning, State.ledger, createCycleReducerState]

theorem clear_beginning : (World.beginning store cycleId).state.ledger.Clear := by
  constructor <;> intro h <;> cases h

/-- An accepted occurrence keeps a clear ledger clear exactly when it leaves nothing behind. -/
theorem clear_advance_iff (hclear : w.state.ledger.Clear)
    (hindexed : w.state.ledger.Indexed profile) (h : advance profile w occurrence = .ok w') :
    w'.state.ledger.Clear ↔ LeavesNothing w occurrence := by
  cases occurrence with
  | own event =>
    rcases advance_own h with ⟨staged, hs, -⟩
    rw [hclear.step_iff hindexed hs]
    constructor
    · rintro hall event' d mutation heq hd hget
      cases heq
      exact hall d mutation hd hget
    · intro hall d mutation hd hget
      exact hall event d mutation rfl hd hget
  | elsewhere otherId staged =>
    rw [(advance_elsewhere h).1]
    refine iff_of_true hclear ?_
    intro event d mutation heq
    cases heq

/-- **The ledger of a history stays intact exactly when no supersession takes an action with a
receipt away, and it stays clear as well exactly when no retirement leaves anything behind.** -/
theorem intact_iff_keepsReceipts (profile : EvidenceProfile) (store : EvidenceStore)
    (cycleId : Text) (history : List Occurrence) (w : World)
    (haccepted : journal profile (World.beginning store cycleId) history = .ok w) :
    (EveryState (advance profile) (fun w => w.state.ledger.Intact)
        (World.beginning store cycleId) history ↔
      EveryEvent (advance profile) KeepsReceipts (World.beginning store cycleId) history) ∧
    (EveryState (advance profile) (fun w => w.state.ledger.Intact ∧ w.state.ledger.Clear)
        (World.beginning store cycleId) history ↔
      EveryEvent (advance profile)
        (fun w occurrence => KeepsReceipts w occurrence ∧ LeavesNothing w occurrence)
        (World.beginning store cycleId) history) := by
  refine ⟨⟨?_, ?_⟩, ?_, ?_⟩
  · intro hevery
    refine everyEvent_of_everyState ?_ hevery haccepted
    intro m occurrence m' _ hintact h
    exact keepsReceipts_of_intact hintact h
  · intro hevery before after m hsplit hbefore
    have hkept := everyState_of_everyEvent (I := fun w => Kept profile w.state.ledger)
      kept_beginning (fun _ _ _ hm hfree h => hm.advance hfree h) hevery before after m hsplit hbefore
    exact intact_of hkept.indexed hkept.metered hkept.receipted
  · intro hevery
    -- every state is indexed, whatever was retired
    have hindexed : EveryState (advance profile) (fun w => w.state.ledger.Indexed profile ∧
        w.state.ledger.Intact ∧ w.state.ledger.Clear) (World.beginning store cycleId) history :=
      fun before after m hsplit hbefore =>
        ⟨journal_indexed hbefore, hevery before after m hsplit hbefore⟩
    refine everyEvent_of_everyState ?_ hindexed haccepted
    rintro m occurrence m' ⟨hm, -, hclear⟩ ⟨-, hintact, hclear'⟩ h
    exact ⟨keepsReceipts_of_intact hintact h, (clear_advance_iff hclear hm h).mp hclear'⟩
  · intro hevery before after m hsplit hbefore
    have hkept := everyState_of_everyEvent
      (I := fun w => Kept profile w.state.ledger ∧ w.state.ledger.Clear)
      ⟨kept_beginning, clear_beginning⟩ ?_ hevery before after m hsplit hbefore
    · exact ⟨intact_of hkept.1.indexed hkept.1.metered hkept.1.receipted, hkept.2⟩
    · rintro m occurrence m' ⟨hm, hclear⟩ ⟨hfree, hleaves⟩ h
      exact ⟨hm.advance hfree h, (clear_advance_iff hclear hm.indexed h).mpr hleaves⟩

/-! ## Histories that retire an action -/

/-- Where nothing is superseded, no receipt loses its action. -/
theorem keepsReceipts_of_none {start : World} {history : List Occurrence}
    (hnone : said EventBody.supersession? history = []) :
    EveryEvent (advance profile) KeepsReceipts start history := by
  rintro before occurrence after m rfl - event d rfl hd
  have hmem : d ∈ said EventBody.supersession? (before ++ .own event :: after) :=
    mem_said_of _ (List.mem_append_right before List.mem_cons_self) hd
  rw [hnone] at hmem
  cases hmem

/-- A voided outbound action and the one that follows it leave the ledger intact. -/
theorem replacedHistory_intact :
    EveryState (advance sampleProfile) (fun w => w.state.ledger.Intact)
      (World.beginning emptyStore []) (replacedHistory 200 8) := by
  have haccepted : (journal sampleProfile (World.beginning emptyStore [])
      (replacedHistory 200 8)).toBool = true := by decide +kernel
  rcases ok_of_toBool haccepted with ⟨w, hw⟩
  exact (intact_iff_keepsReceipts sampleProfile emptyStore [] (replacedHistory 200 8) w hw).1.mpr
    (keepsReceipts_of_none (by decide +kernel))

/-- What an attempted action goes through up to its broadcast. The keys of its further
authorizations count on from a number. -/
def sampleBroadcast (kind : ActionKind) (lastValidHeight key : Nat) :
    List (Option Digest → EventBody) :=
  let d := BitVec.ofNat 256 lastValidHeight
  (fun _ => .fixtureMessageDecoded d [] 0)
    :: sampleApproved kind d 0 (BitVec.ofNat 256 key) .sign
    ++ (fun _ => .signedBytesRecorded ⟨d, 0, [1], 0, [1]⟩)
      :: sampleApproved kind d 0 (BitVec.ofNat 256 (key + 1)) .broadcast
    ++ sampleApproved kind d 0 (BitVec.ofNat 256 (key + 2)) .assetSpend
    ++ sampleApproved kind d 0 (BitVec.ofNat 256 (key + 3)) .gasSpend
    ++ [fun _ => .blockhashValidityVerified ⟨[], d, 0, 0, [], lastValidHeight, 1, []⟩,
      fun _ => .broadcastRecorded ⟨d, 0, 0, [1]⟩]

def sampleReceipt (kind : ActionKind) (lastValidHeight blockHeight : Nat) : ProviderReceipt where
  actionDigest := BitVec.ofNat 256 lastValidHeight
  actionKind := kind
  chain := []
  cluster := []
  transactionSignature := [1]
  blockHeight := blockHeight
  blockHash := []
  relation := ⟨[], [], [], [], 0, 0, 0, 0, 0, 0, [], [], 0, 0, [], 0, 0⟩
  details := []

/-- The receipt of a broadcast action is verified. -/
def sampleVerified (kind : ActionKind) (lastValidHeight blockHeight : Nat) :
    Option Digest → EventBody :=
  fun _ => .providerReceiptVerified (sampleReceipt kind lastValidHeight blockHeight)
    (BitVec.ofNat 256 blockHeight) (BitVec.ofNat 256 blockHeight)

/-- Two observers have not found a broadcast, and the owner gives it up. -/
def sampleSupersession (kind : ActionKind) (lastValidHeight : Nat) (key : Digest) :
    Option Digest → EventBody :=
  let d := BitVec.ofNat 256 lastValidHeight
  let evidence (observer : Observer) : SupersedeEvidence :=
    ⟨observer, [], d, kind, 0, [1], lastValidHeight, lastValidHeight, true, true, 0, []⟩
  fun _ => .externalMutationSuperseded d (evidence .provider) (evidence .rpc)
    ⟨[], d, kind, [], 1, 1, key, []⟩

/-- The outbound action is broadcast, its receipt is verified, and it is superseded. -/
def supersededHistory : List Occurrence :=
  sampleEvents none 0
    ((fun _ => .cyclePreflightRecorded samplePreflight 0) :: sampleAttempt .outbound 100 7
      ++ sampleBroadcast .outbound 100 8
      ++ [sampleVerified .outbound 100 30, sampleSupersession .outbound 100 12])

/-- A receipt is recorded, and it is not of an action that is there. -/
def danglingReceipt (w : World) : Bool :=
  w.state.receipts.values.any fun receipt => (w.state.actions.get receipt.actionDigest).isNone

theorem not_intact_of_dangling (h : danglingReceipt w = true) : ¬ w.state.ledger.Intact := by
  intro hintact
  rcases List.any_eq_true.mp h with ⟨receipt, hmem, hgone⟩
  rcases Map.mem_values.mp hmem with ⟨r, hr⟩
  rcases hintact.receipts r receipt hr with ⟨p, hp, -⟩
  have hnone : w.state.actions.get receipt.actionDigest = none := by simpa using hgone
  rw [show w.state.actions.get receipt.actionDigest = some p from hp] at hnone
  cases hnone

/-- **The receipt of the superseded action stays, and its action is gone.** -/
theorem supersededHistory_dangles :
    ∃ w, journal sampleProfile (World.beginning emptyStore []) supersededHistory = .ok w ∧
      ¬ w.state.ledger.Intact := by
  have hdangling : (journal sampleProfile (World.beginning emptyStore [])
      supersededHistory).toOption.any danglingReceipt = true := by decide +kernel
  rcases ok_of_any hdangling with ⟨w, hw, hgone⟩
  exact ⟨w, hw, not_intact_of_dangling hgone⟩

end Hookemon.Runner.CycleReducer
