import Hookemon.Runner.CycleReducer

/-! # The evidence ledger of a cycle

What the reducer keeps of a cycle is a ledger of evidence: the live actions with everything
that was recorded about them, the receipts, the mutations and the native gas. `Ledger.Step`
says which changes a ledger can undergo and what each of them presupposes, and
`handleEvent_step` that every event which the reducer accepts is one of these changes. What
is proved about ledgers is proved about the reducer by that theorem.
-/

namespace Hookemon.Runner.CycleReducer

open Hookemon.Core Hookemon.Js

structure Ledger where
  cycleId : Text
  preflight : Option Preflight
  stage : Stage
  reserved : Map GasChain Nat
  used : Map GasChain Nat
  actions : Map Digest PreparedAction
  actionByKind : Map ActionKind Digest
  approvals : Map AuthorizationSlot Approval
  consumedApprovals : Map AuthorizationSlot ConsumedApproval
  decoded : Map Digest DecodedMessage
  signed : Map Digest SignedRecord
  blockhashValidity : Map Digest BlockhashValidity
  broadcasts : Map Digest BroadcastRecord
  receipts : Map Digest ProviderReceipt
  receiptIdentities : Finset Digest
  consumedReceipts : Finset Digest
  consumedByAction : Map ActionKind Digest
  executionAccounting : Map Digest ExecutionAccounting
  externalMutations : Map Digest ExternalMutation
  intent : CollectorAction → Option CollectorIntent
  authorizations : Map CollectorAction CollectorAuthorization
  generated : Option CollectorGenerated
  opened : Option CollectorRequest
  postOpen : Option PostOpenApproval

/-- The ledger of a reducer state. -/
def State.ledger (s : State) : Ledger where
  cycleId := s.cycleId
  preflight := s.preflight
  stage := s.stage
  reserved := s.nativeGasReserved
  used := s.nativeGasUsed
  actions := s.actions
  actionByKind := s.actionByKind
  approvals := s.approvals
  consumedApprovals := s.consumedApprovals
  decoded := s.decoded
  signed := s.signed
  blockhashValidity := s.blockhashValidity
  broadcasts := s.broadcasts
  receipts := s.receipts
  receiptIdentities := s.receiptIdentities
  consumedReceipts := s.consumedReceipts
  consumedByAction := s.consumedByAction
  executionAccounting := s.executionAccounting
  externalMutations := s.externalMutations
  intent := s.collector.intent
  authorizations := s.collector.authorizations
  generated := s.collector.generated
  opened := s.collector.opened
  postOpen := s.postOpenBuybackApproval

namespace Ledger

/-- The chain on which a prepared action spends its gas. -/
def chainOf (prepared : PreparedAction) : GasChain :=
  nativeGasChainForActionKind prepared.action.actionKind

/-- Nothing but the action goes: `retireVoidedExternalMutation` of an action. -/
def retireAction (l : Ledger) (d : Digest) (kind : ActionKind) (prepared : PreparedAction) :
    Ledger :=
  { l with
    reserved := l.reserved.set (chainOf prepared)
      ((l.reserved.get (chainOf prepared)).getD 0 - prepared.action.nativeGasAmount)
    actions := l.actions.delete d
    actionByKind := l.actionByKind.delete kind
    decoded := l.decoded.delete d
    signed := l.signed.delete d
    blockhashValidity := l.blockhashValidity.delete d
    broadcasts := l.broadcasts.delete d
    approvals := deleteSlots l.approvals d
    consumedApprovals := deleteSlots l.consumedApprovals d
    externalMutations := l.externalMutations.delete d }

/-- `retireVoidedExternalMutation` of a Collector mutation. -/
def retireCollector (l : Ledger) (d : Digest) (action : CollectorAction) : Ledger :=
  { l with
    intent := Function.update l.intent action none
    authorizations := l.authorizations.delete action
    externalMutations := l.externalMutations.delete d }

/-- The mutation of a request digest was attempted and is not settled. -/
def Unresolved (l : Ledger) (d : Digest) (kind : MutationKind) : Prop :=
  ∃ mutation, l.externalMutations.get d = some mutation ∧ mutation.status = .unresolved ∧
    mutation.identity.actionKind = kind

/-- An action stands under an approval that was consumed for it. -/
def Consumed (l : Ledger) (d : Digest) (kind : AuthorizationKind) : Prop :=
  ∃ consumed, l.consumedApprovals.get (d, kind) = some consumed

end Ledger

variable (profile : EvidenceProfile)

/-- A mutation may be attempted under an authorization. -/
inductive Ledger.Authorized (l : Ledger) (d : Digest) : MutationIdentity → Prop
  | action (prepared : PreparedAction) (approval : Approval) (consumed : ConsumedApproval)
      (haction : l.actions.get d = some prepared)
      (happroval : l.approvals.get (d, .mutation) = some approval)
      (hconsumed : l.consumedApprovals.get (d, .mutation) = some consumed)
      (hsubject : approval.subjectDigest = d)
      (hkey : consumed.approvalKey = profile.approvalKey approval) :
      Authorized l d ⟨.action prepared.action.actionKind, profile.attempt approval,
        profile.approvalKey approval⟩
  | collector (action : CollectorAction) (intent : CollectorIntent)
      (authorization : CollectorAuthorization)
      (haction : l.actions.get d = none)
      (hintent : l.intent action = some intent) (hdigest : intent.requestDigest = d)
      (hauthorization : l.authorizations.get action = some authorization)
      (hrequest : authorization.requestDigest = d) :
      Authorized l d ⟨.collector action, authorization.attempt,
        profile.mutationAuthorizationDigest authorization⟩

/-- The events that leave the ledger as it is. -/
def EventBody.Quiet : EventBody → Prop
  | .cycleControlBound _ => True
  | .proceedsConsumed _ _ => True
  | .distributionVerificationRecorded _ => True
  | .payoutFundingPrepared _ => True
  | .collectorStatusVerified _ => True
  | .collectorOpenCustodyVerified _ _ => True
  | _ => False

/-- What an event may do to a ledger, what it presupposes and what it stages. -/
inductive Ledger.Step (l : Ledger) : EventBody → Ledger → Staged → Prop
  | quiet (body : EventBody) (staged : Staged) (hquiet : body.Quiet) : Step l body l staged
  | preflight (value preflight : Preflight) (preflightDigest : Digest)
      (hnone : l.preflight = none) (hactions : ∀ d, l.actions.get d = none) :
      Step l (.cyclePreflightRecorded value preflightDigest)
        { l with preflight := some preflight } .nothing
  | intent (value action : Action) (preflight : Preflight)
      (hvalue : profile.assertAction value = .ok action)
      (hpreflight : l.preflight = some preflight)
      (hcap : (l.reserved.get (nativeGasChainForActionKind action.actionKind)).getD 0
          + action.nativeGasAmount
        ≤ preflight.nativeGasCaps.on (nativeGasChainForActionKind action.actionKind))
      (hstage : l.stage = actionStage action.actionKind)
      (hnew : l.actions.get (profile.actionDigests action).actionDigest = none)
      (hkind : l.actionByKind.get action.actionKind = none) :
      Step l (.intentPrepared value (profile.actionDigests action))
        { l with
          actions := l.actions.set (profile.actionDigests action).actionDigest
            ⟨action, profile.actionDigests action⟩
          actionByKind := l.actionByKind.set action.actionKind
            (profile.actionDigests action).actionDigest
          reserved := l.reserved.set (nativeGasChainForActionKind action.actionKind)
            ((l.reserved.get (nativeGasChainForActionKind action.actionKind)).getD 0
              + action.nativeGasAmount) } .nothing
  | approval (value approval : Approval) (d : Digest) (prepared : PreparedAction)
      (haction : l.actions.get d = some prepared)
      (hgate : l.generated.isSome → prepared.action.actionKind = .buyback →
        approval.authorizationKind = .mutation → l.postOpen.isSome)
      (hnew : l.approvals.get (d, approval.authorizationKind) = none) :
      Step l (.ownerApprovalRecorded value)
        { l with approvals := l.approvals.set (d, approval.authorizationKind) approval } .nothing
  | consumption (d : Digest) (kind : AuthorizationKind) (subjectDigest approvalKey : Digest)
      (validatedAt : Nat) (approval : Approval) (record : StoredAuthorization)
      (happroval : l.approvals.get (d, kind) = some approval)
      (hkey : profile.approvalKey approval = approvalKey)
      (hsubject : approval.subjectDigest = subjectDigest)
      (hnew : l.consumedApprovals.get (d, kind) = none)
      (hrecord : record.key = approvalKey ∧ record.subjectDigest = subjectDigest) :
      Step l (.ownerApprovalConsumed d kind subjectDigest approvalKey validatedAt)
        { l with
          consumedApprovals := l.consumedApprovals.set (d, kind) ⟨approvalKey, subjectDigest⟩ }
        ⟨some record, none⟩
  | decode (d : Digest) (messageBytes : Text) (messageDigest : Digest) (prepared : PreparedAction)
      (message : DecodedMessage)
      (haction : l.actions.get d = some prepared)
      (hmutation : ∃ kind, l.Unresolved d kind)
      (hconsumed : l.Consumed d .mutation)
      (hnew : l.decoded.get d = none) :
      Step l (.fixtureMessageDecoded d messageBytes messageDigest)
        { l with decoded := l.decoded.set d message } .nothing
  | sign (signed : SignedRecord) (message : DecodedMessage)
      (hdecoded : l.decoded.get signed.actionDigest = some message)
      (hnew : l.signed.get signed.actionDigest = none) :
      Step l (.signedBytesRecorded signed)
        { l with signed := l.signed.set signed.actionDigest signed } .nothing
  | validity (value evidence : BlockhashEvidence) (eventDigest : Digest) (signed : SignedRecord)
      (hsigned : l.signed.get evidence.actionDigest = some signed) :
      Step l (.blockhashValidityVerified value)
        { l with
          blockhashValidity :=
            l.blockhashValidity.set evidence.actionDigest ⟨evidence, eventDigest⟩ } .nothing
  | broadcast (broadcast : BroadcastRecord) (signed : SignedRecord)
      (hsigned : l.signed.get broadcast.actionDigest = some signed)
      (hnew : l.broadcasts.get broadcast.actionDigest = none) :
      Step l (.broadcastRecorded broadcast)
        { l with broadcasts := l.broadcasts.set broadcast.actionDigest broadcast } .nothing
  | receipt (value receipt : ProviderReceipt) (registryKey : Digest) (prepared : PreparedAction)
      (broadcast : BroadcastRecord)
      (haction : l.actions.get receipt.actionDigest = some prepared)
      (hbroadcast : l.broadcasts.get receipt.actionDigest = some broadcast)
      (hkey : registryKey = profile.identityKey receipt)
      (hnew : l.receipts.get (profile.receiptDigest receipt) = none)
      (hidentity : registryKey ∉ l.receiptIdentities) :
      Step l (.providerReceiptVerified value (profile.receiptDigest receipt) registryKey)
        { l with
          receipts := l.receipts.set (profile.receiptDigest receipt) receipt
          receiptIdentities := insert registryKey l.receiptIdentities } .nothing
  | accounting (value evidence : ExecutionAccounting) (prepared : PreparedAction)
      (receipt : ProviderReceipt) (preflight : Preflight)
      (haction : l.actions.get evidence.actionDigest = some prepared)
      (hreceipt : l.receipts.get evidence.receiptDigest = some receipt)
      (hkind : evidence.actionKind = prepared.action.actionKind)
      (hdigest : receipt.actionDigest = evidence.actionDigest)
      (hreceiptKind : receipt.actionKind = evidence.actionKind)
      (hdebit : evidence.nativeGas.actualDebit ≤ prepared.action.nativeGasAmount)
      (hnew : l.executionAccounting.get evidence.actionDigest = none)
      (hpreflight : l.preflight = some preflight)
      (hcap : (l.used.get (chainOf prepared)).getD 0 + evidence.nativeGas.actualDebit
        ≤ preflight.nativeGasCaps.on (chainOf prepared)) :
      Step l (.executionAccountingVerified value)
        { l with
          executionAccounting := l.executionAccounting.set evidence.actionDigest evidence
          used := l.used.set (chainOf prepared)
            ((l.used.get (chainOf prepared)).getD 0 + evidence.nativeGas.actualDebit) } .nothing
  | receiptConsumption (receiptDigest registryKey : Digest) (receipt : ProviderReceipt)
      (accounting : ExecutionAccounting) (staged : Staged)
      (hreceipt : l.receipts.get receiptDigest = some receipt)
      (haccounting : l.executionAccounting.get receipt.actionDigest = some accounting)
      (hdigest : accounting.receiptDigest = receiptDigest)
      (hnew : receiptDigest ∉ l.consumedReceipts)
      (hkind : l.consumedByAction.get receipt.actionKind = none) :
      Step l (.receiptConsumed receiptDigest registryKey)
        { l with
          consumedReceipts := insert receiptDigest l.consumedReceipts
          consumedByAction := l.consumedByAction.set receipt.actionKind receiptDigest } staged
  | transition (version : Nat) (head : Option Digest) (predecessor next : Stage)
      (evidence : List Digest)
      (hnext : l.stage.following = some next)
      (hopen : next = .openReconciled → l.generated.isSome)
      (hclosed : next = .closed → l.postOpen.isSome ∧
        ∃ d prepared, l.actionByKind.get .buyback = some d ∧ l.actions.get d = some prepared) :
      Step l (.cycleTransitioned version head predecessor next evidence)
        { l with stage := next } .nothing
  | collectorIntent (action : CollectorAction) (value : CollectorRequest) (intent : CollectorIntent)
      (hnew : l.intent action = none) :
      Step l (.collectorIntentPrepared action value intent.requestDigest)
        { l with intent := Function.update l.intent action (some intent) } .nothing
  | collectorAuthorization (value : CollectorRequest) (binding : Binding)
      (input : CollectorAuthorizationInput) (intent : CollectorIntent)
      (authorization : CollectorAuthorization)
      (hintent : l.intent input.action = some intent)
      (hdigest : intent.requestDigest = authorization.requestDigest)
      (hkey : (profile.mutationAuthorizationStoreRecord authorization input.action).key
        = profile.mutationAuthorizationDigest authorization)
      (hnew : l.authorizations.get input.action = none) :
      Step l (.collectorMutationAuthorizationConsumed value binding input)
        { l with authorizations := l.authorizations.set input.action authorization }
        ⟨some (profile.mutationAuthorizationStoreRecord authorization input.action), none⟩
  | generated (binding : Binding) (preflightDigest : Digest) (response : GenerateResponse)
      (generated : CollectorGenerated) (intent : CollectorIntent)
      (hintent : l.intent .generate = some intent) (hnew : l.generated = none) :
      Step l (.collectorGenerateConsumed binding preflightDigest response)
        { l with generated := some generated } .nothing
  | opened (value opening : CollectorRequest) (execution : OpenExecution) (intent : CollectorIntent)
      (hintent : l.intent .openPack = some intent) (hnew : l.opened = none) :
      Step l (.collectorOpened value execution) { l with opened := some opening } .nothing
  | postOpen (now : Nat) (value approval : PostOpenApproval) (d : Digest)
      (prepared : PreparedAction) (staged : Staged)
      (hvalue : profile.verifyPostOpenBuyback now value = .ok approval)
      (hresolve : profile.resolveBuybackDigest l.actionByKind approval = some d)
      (haction : l.actions.get d = some prepared)
      (hkind : prepared.action.actionKind = .buyback)
      (hopened : l.opened.isSome)
      (hpolicy : profile.matchPolicy approval prepared l.cycleId l.opened = .ok ())
      (hnew : l.postOpen = none) :
      Step l (.postOpenBuybackApprovalConsumed value)
        { l with postOpen := some approval } staged
  | attempt (d : Digest) (identity : MutationIdentity)
      (hauthorized : l.Authorized profile d identity)
      (hsettled : ∀ d' kind, ¬ l.Unresolved d' kind)
      (hnew : l.externalMutations.get d = none) :
      Step l (.externalMutationAttempted d identity)
        { l with externalMutations := l.externalMutations.set d ⟨identity, .unresolved⟩ } .nothing
  | reconcile (d : Digest) (mutation : ExternalMutation) (evidence : ReconciliationEvidence)
      (hmutation : l.externalMutations.get d = some mutation) :
      Step l (.externalMutationReconciled d mutation.identity.actionKind evidence)
        { l with
          externalMutations := l.externalMutations.set d
            { mutation with status := .externallyReconciled evidence } } .nothing
  | voidAction (d : Digest) (proof : VoidProof) (kind : ActionKind) (prepared : PreparedAction)
      (hmutation : l.Unresolved d (.action kind)) (haction : l.actions.get d = some prepared)
      (hbroadcast : l.broadcasts.get d = none) :
      Step l (.externalMutationVoided d proof) (l.retireAction d kind prepared) .nothing
  | voidCollector (d : Digest) (proof : VoidProof) (action : CollectorAction)
      (hmutation : l.Unresolved d (.collector action)) (hbroadcast : l.broadcasts.get d = none) :
      Step l (.externalMutationVoided d proof) (l.retireCollector d action) .nothing
  | supersede (d : Digest) (provider rpc : SupersedeEvidence)
      (authorization : SupersessionAuthorization) (kind : ActionKind) (prepared : PreparedAction)
      (broadcast : BroadcastRecord) (staged : Staged)
      (hmutation : l.Unresolved d (.action kind)) (haction : l.actions.get d = some prepared)
      (hbroadcast : l.broadcasts.get d = some broadcast) :
      Step l (.externalMutationSuperseded d provider rpc authorization)
        (l.retireAction d kind prepared) staged

/-! ## Every accepted event is a step -/

section Refinement

variable {profile} {store : EvidenceStore} {s s' : State} {staged : Staged}

theorem stageAuthorization_eq_ok {record : StoredAuthorization} {key : Digest} {mismatch : String} :
    stageAuthorization store record key mismatch = .ok staged ↔
      store.consumeAuthorization record = .ok key ∧ record.key = key ∧
        staged = ⟨some record, none⟩ := by
  simp only [stageAuthorization, bind_eq_ok, revertIf_eq_ok, pure_eq_ok, not_or, not_not,
    exists_const]
  constructor
  · rintro ⟨consumed, hconsumed, ⟨hkey, rfl⟩, rfl⟩
    exact ⟨hconsumed, hkey, rfl⟩
  · rintro ⟨hconsumed, hkey, rfl⟩
    exact ⟨key, hconsumed, ⟨hkey, rfl⟩, rfl⟩

theorem consumedAuthorization_eq_ok {d subject : Digest} {kind : AuthorizationKind}
    {consumed : ConsumedApproval} :
    consumedAuthorization s d kind subject = .ok consumed ↔
      s.consumedApprovals.get (d, kind) = some consumed ∧ consumed.subjectDigest = subject := by
  unfold consumedAuthorization
  dsimp only
  cases hget : s.consumedApprovals.get (d, kind) with
  | none => simp
  | some c =>
    simp only [bind_eq_ok, revertIf_eq_ok, pure_eq_ok, not_not, exists_const, Option.some.injEq]
    constructor
    · rintro ⟨hsubject, rfl⟩
      exact ⟨rfl, hsubject⟩
    · rintro ⟨rfl, hsubject⟩
      exact ⟨hsubject, rfl⟩

theorem bindCycleControl_ledger {value : FrozenControl}
    (h : bindCycleControl profile s value = .ok s') : s'.ledger = s.ledger := by
  simp only [bindCycleControl, bind_eq_ok, pure_eq_ok] at h
  rcases h with ⟨-, -, control, -, -, -, rfl⟩
  rfl

theorem verifyPreflight_step {now : Nat} {value : Preflight} {d : Digest}
    (h : verifyPreflight profile s now value d = .ok s') :
    s.ledger.Step profile (.cyclePreflightRecorded value d) s'.ledger .nothing := by
  simp only [verifyPreflight, bind_eq_ok, revertIf_eq_ok, pure_eq_ok, not_or, not_not,
    exists_const] at h
  rcases h with ⟨preflight, -, -, -, ⟨hnone, hsize, -⟩, rfl⟩
  have hpreflight : s.preflight = none := by simpa using hnone
  exact .preflight value preflight d hpreflight fun d' => Map.get_of_size_eq_zero hsize d'

theorem assertDigests_eq_ok {payload digests : ActionDigests} {u : Unit} :
    assertDigests payload digests = .ok u ↔ payload = digests := by
  simp only [assertDigests, bind_eq_ok, revertIf_eq_ok, not_not, exists_const,
    ActionDigests.ext_iff]

theorem verifyIntent_step {value : Action} {payload : ActionDigests}
    (h : verifyIntent profile s value payload = .ok s') :
    s.ledger.Step profile (.intentPrepared value payload) s'.ledger .nothing := by
  unfold verifyIntent at h
  simp only [bind_eq_ok, revertIf_eq_ok, exists_const] at h
  rcases h with ⟨action, hvalue, -, -, _, -, h⟩
  cases hpreflight : s.preflight with
  | none => simp [hpreflight] at h
  | some preflight =>
    simp only [hpreflight, bind_eq_ok, revertIf_eq_ok, assertDigests_eq_ok, pure_eq_ok, not_or,
      exists_const, not_not] at h
    rcases h with ⟨hbounds, hstage, rfl, ⟨hnew, hkind⟩, -, hs⟩
    have hledger : s'.ledger = { s.ledger with
        actions := s.actions.set (profile.actionDigests action).actionDigest
          ⟨action, profile.actionDigests action⟩
        actionByKind := s.actionByKind.set action.actionKind
          (profile.actionDigests action).actionDigest
        reserved := s.nativeGasReserved.set (nativeGasChainForActionKind action.actionKind)
          ((s.nativeGasReserved.get (nativeGasChainForActionKind action.actionKind)).getD 0
            + action.nativeGasAmount) } := by
      rw [← hs]
      simp only [State.ledger, hpreflight]
    rw [hledger]
    simp only [exceedsPreflight, not_or, not_lt] at hbounds
    rcases hbounds with ⟨-, -, -, -, -, -, -, -, -, -, hcap⟩
    exact Ledger.Step.intent (l := s.ledger) value action preflight hvalue hpreflight hcap hstage
      (Option.not_isSome_iff_eq_none.mp hnew) (Option.not_isSome_iff_eq_none.mp hkind)

theorem verifyApproval_step {now : Nat} {value : Approval}
    (h : verifyApproval profile s now value = .ok s') :
    s.ledger.Step profile (.ownerApprovalRecorded value) s'.ledger .nothing := by
  simp only [verifyApproval, bind_eq_ok] at h
  rcases h with ⟨approval, -, -, -, h⟩
  cases hresolve : profile.resolveActionDigest s.actionByKind approval with
  | none => simp [hresolve] at h
  | some d =>
    cases haction : s.actions.get d with
    | none => simp [hresolve, haction] at h
    | some prepared =>
      simp only [hresolve, haction, bind_eq_ok, revertIf_eq_ok, pure_eq_ok, exists_const] at h
      rcases h with ⟨hgate, -, -, subject, -, -, hnew, rfl⟩
      refine .approval value approval d prepared haction ?_ (Option.not_isSome_iff_eq_none.mp hnew)
      intro hgenerated hbuyback hmutation
      by_contra hnone
      exact hgate ⟨hgenerated, hbuyback, hmutation, Option.not_isSome_iff_eq_none.mp hnone⟩

theorem consumeApproval_step {d subject key : Digest} {kind : AuthorizationKind} {validatedAt : Nat}
    (h : consumeApproval profile store s d kind subject key validatedAt = .ok (s', staged)) :
    s.ledger.Step profile (.ownerApprovalConsumed d kind subject key validatedAt)
      s'.ledger staged := by
  unfold consumeApproval at h
  cases happroval : s.approvals.get (d, kind) with
  | none => simp [happroval] at h
  | some approval =>
    simp only [happroval, bind_eq_ok, revertIf_eq_ok, pure_eq_ok, not_or, not_not, exists_const,
      stageAuthorization_eq_ok, Prod.mk.injEq] at h
    rcases h with ⟨⟨hkey, hsubject⟩, hnew, record, -, hrecord, _, ⟨-, hrecordKey, rfl⟩, rfl, rfl⟩
    exact .consumption d kind subject key validatedAt approval record happroval hkey hsubject
      (Option.not_isSome_iff_eq_none.mp hnew) ⟨hrecordKey, hrecord.2⟩

theorem verifyDecode_step {d messageDigest : Digest} {messageBytes : Text}
    (h : verifyDecode profile s d messageBytes messageDigest = .ok s') :
    s.ledger.Step profile (.fixtureMessageDecoded d messageBytes messageDigest)
      s'.ledger .nothing := by
  unfold verifyDecode at h
  cases haction : s.actions.get d with
  | none => simp [haction] at h
  | some prepared =>
    simp only [haction, bind_eq_ok, revertIf_eq_ok, pure_eq_ok, not_not, exists_const,
      consumedAuthorization_eq_ok] at h
    rcases h with ⟨hmutation, consumed, ⟨hconsumed, -⟩, hnew, decoded, -, -, -, rfl⟩
    have hunresolved : ∃ kind, s.ledger.Unresolved d kind := by
      rcases (Option.any_eq_true _ _).mp hmutation with ⟨mutation, hget, hstatus⟩
      exact ⟨_, mutation, hget, by simpa using hstatus, rfl⟩
    exact .decode d messageBytes messageDigest prepared ⟨messageBytes, messageDigest, decoded⟩
      haction hunresolved ⟨consumed, hconsumed⟩ (Option.not_isSome_iff_eq_none.mp hnew)

theorem verifySigned_step {now : Nat} {payload : SignedRecord}
    (h : verifySigned profile s now payload = .ok s') :
    s.ledger.Step profile (.signedBytesRecorded payload) s'.ledger .nothing := by
  unfold verifySigned at h
  cases hdecoded : s.decoded.get payload.actionDigest with
  | none => simp [hdecoded] at h
  | some message =>
    simp only [hdecoded, bind_eq_ok, revertIf_eq_ok, pure_eq_ok, exists_const] at h
    rcases h with ⟨-, -, -, hnew, -, -, -, -, rfl⟩
    exact .sign payload message hdecoded (Option.not_isSome_iff_eq_none.mp hnew)

theorem verifyBlockhashValidity_step {event : CycleEvent} {value : BlockhashEvidence}
    (h : verifyBlockhashValidity profile s event value = .ok s') :
    s.ledger.Step profile (.blockhashValidityVerified value) s'.ledger .nothing := by
  simp only [verifyBlockhashValidity, bind_eq_ok] at h
  rcases h with ⟨evidence, -, h⟩
  cases haction : s.actions.get evidence.actionDigest with
  | none => simp [haction] at h
  | some prepared =>
    cases hsigned : s.signed.get evidence.actionDigest with
    | none => simp [haction, hsigned] at h
    | some signed =>
      simp only [haction, hsigned, bind_eq_ok, revertIf_eq_ok, pure_eq_ok, exists_const] at h
      rcases h with ⟨-, -, -, rfl⟩
      exact .validity value evidence event.digest signed hsigned

theorem verifyBroadcast_step {event : CycleEvent} {payload : BroadcastRecord}
    (h : verifyBroadcast s event payload = .ok s') :
    s.ledger.Step profile (.broadcastRecorded payload) s'.ledger .nothing := by
  simp only [verifyBroadcast, bind_eq_ok] at h
  rcases h with ⟨-, -, h⟩
  cases hsigned : s.signed.get payload.actionDigest with
  | none => simp [hsigned] at h
  | some signed =>
    simp only [hsigned, bind_eq_ok, revertIf_eq_ok, pure_eq_ok, exists_const] at h
    rcases h with ⟨-, -, -, -, -, -, -, hnew, -, rfl⟩
    exact .broadcast payload signed hsigned (Option.not_isSome_iff_eq_none.mp hnew)

theorem actionExecution_eq_ok {d : Digest} {execution : ActionExecution}
    (h : actionExecution s d = .ok execution) :
    ∃ broadcast, s.broadcasts.get d = some broadcast := by
  unfold actionExecution at h
  cases hbroadcast : s.broadcasts.get d with
  | some broadcast => exact ⟨broadcast, rfl⟩
  | none =>
    rw [hbroadcast] at h
    split at h <;> simp_all

theorem verifyReceipt_step {now : Nat} {value : ProviderReceipt} {d registryKey : Digest}
    (h : verifyReceipt profile s now value d registryKey = .ok s') :
    s.ledger.Step profile (.providerReceiptVerified value d registryKey) s'.ledger
      .nothing := by
  simp only [verifyReceipt, bind_eq_ok, revertIf_eq_ok, exists_const, not_not] at h
  rcases h with ⟨receipt, -, rfl, h⟩
  cases haction : s.actions.get receipt.actionDigest with
  | none => simp [haction] at h
  | some prepared =>
    simp only [haction, bind_eq_ok, revertIf_eq_ok, pure_eq_ok, exists_const, not_not, not_or] at h
    rcases h with ⟨execution, hexecution, -, -, -, -, hkey, ⟨hnew, hidentity⟩, rfl⟩
    rcases actionExecution_eq_ok hexecution with ⟨broadcast, hbroadcast⟩
    exact .receipt value receipt registryKey prepared broadcast haction hbroadcast hkey
      (Option.not_isSome_iff_eq_none.mp hnew) hidentity

theorem verifyExecutionAccounting_step {now : Nat} {value : ExecutionAccounting}
    (h : verifyExecutionAccounting profile s now value = .ok s') :
    s.ledger.Step profile (.executionAccountingVerified value) s'.ledger .nothing := by
  simp only [verifyExecutionAccounting, bind_eq_ok] at h
  rcases h with ⟨evidence, -, h⟩
  cases haction : s.actions.get evidence.actionDigest with
  | none => simp [haction] at h
  | some prepared =>
    cases hreceipt : s.receipts.get evidence.receiptDigest with
    | none => simp [haction, hreceipt] at h
    | some receipt =>
      simp only [haction, hreceipt, bind_eq_ok, revertIf_eq_ok, pure_eq_ok, exists_const, not_or,
        not_not, not_lt] at h
      rcases h with ⟨⟨-, hkind, hdigest, hreceiptKind, -⟩, -, hdebit, -, -, -, -, ⟨hnew, -⟩, hcap,
        rfl⟩
      rcases (Option.any_eq_true _ _).mp hcap with ⟨preflight, hpreflight, hle⟩
      exact .accounting value evidence prepared receipt preflight haction hreceipt hkind hdigest
        hreceiptKind hdebit (Option.not_isSome_iff_eq_none.mp hnew) hpreflight (of_decide_eq_true hle)

theorem consumeReceipt_step {receiptDigest registryKey : Digest}
    (h : consumeReceipt profile store s receiptDigest registryKey = .ok (s', staged)) :
    s.ledger.Step profile (.receiptConsumed receiptDigest registryKey) s'.ledger
      staged := by
  unfold consumeReceipt at h
  cases hreceipt : s.receipts.get receiptDigest with
  | none => simp [hreceipt] at h
  | some receipt =>
    cases haccounting : s.executionAccounting.get receipt.actionDigest with
    | none => simp [hreceipt, haccounting] at h
    | some accounting =>
      simp only [hreceipt, haccounting, bind_eq_ok, revertIf_eq_ok, pure_eq_ok, exists_const,
        not_or, not_not, Prod.mk.injEq] at h
      rcases h with ⟨hdigest, -, ⟨hnew, hkind⟩, -, consumed, -, -, rfl, rfl⟩
      exact .receiptConsumption receiptDigest registryKey receipt accounting _ hreceipt haccounting
        hdigest hnew (Option.not_isSome_iff_eq_none.mp hkind)

/-! ### Transitions -/

theorem actionReceipt_present {kind : ActionKind} {item : ActionReceipt}
    (h : actionReceipt s kind = .ok item) :
    ∃ d prepared, s.actionByKind.get kind = some d ∧ s.actions.get d = some prepared := by
  unfold actionReceipt at h
  cases hkind : s.actionByKind.get kind with
  | none => simp [hkind] at h
  | some d =>
    cases hconsumed : s.consumedByAction.get kind with
    | none => simp [hkind, hconsumed] at h
    | some r =>
      cases haction : s.actions.get d with
      | none => simp [hkind, hconsumed, haction] at h
      | some prepared => exact ⟨d, prepared, rfl, haction⟩

theorem validateClosedLedger_present {closing : ClosingEvidence}
    (h : validateClosedLedger profile s = .ok closing) :
    s.postOpenBuybackApproval.isSome ∧
      ∃ d prepared, s.actionByKind.get .buyback = some d ∧ s.actions.get d = some prepared := by
  unfold validateClosedLedger at h
  split at h
  · simp at h
  · split at h
    · rename_i hpostOpen
      simp only [bind_eq_ok] at h
      rcases h with ⟨-, -, -, -, -, -, _, -, _, -, buyback, hbuyback, -⟩
      exact ⟨by simp [hpostOpen], actionReceipt_present hbuyback⟩
    · simp at h

theorem evidenceForTransition_open {evidence : List Digest}
    (h : evidenceForTransition profile s .openReconciled = .ok evidence) :
    s.collector.generated.isSome := by
  simp only [evidenceForTransition, requiredActions, if_true, bind_eq_ok, revertIf_eq_ok,
    exists_const, not_not] at h
  rcases h with ⟨hcomplete, -⟩
  simp only [CollectorState.complete, Bool.and_eq_true] at hcomplete
  tauto

theorem transition_step {event : CycleEvent} {version : Nat} {head : Option Digest}
    {predecessor next : Stage} {payload : List Digest}
    (h : transition profile s event version head predecessor next payload = .ok s') :
    s.ledger.Step profile (.cycleTransitioned version head predecessor next payload)
      s'.ledger .nothing := by
  simp only [transition, bind_eq_ok, revertIf_eq_ok, exists_const, not_not] at h
  rcases h with ⟨-, -, -, hnext, evidence, hevidence, -, h⟩
  by_cases hclosed : next = .closed
  · subst hclosed
    simp only [if_true, bind_eq_ok, pure_eq_ok] at h
    rcases h with ⟨closing, hclosing, rfl⟩
    refine .transition version head predecessor .closed payload hnext.symm (by simp) fun _ => ?_
    exact validateClosedLedger_present hclosing
  · simp only [hclosed, if_false, pure_eq_ok] at h
    subst h
    refine .transition version head predecessor next payload hnext.symm ?_
      fun heq => absurd heq hclosed
    intro hopen
    subst hopen
    exact evidenceForTransition_open hevidence

theorem consumeProceeds_ledger {d key : Digest}
    (h : consumeProceeds profile s d key = .ok s') : s'.ledger = s.ledger := by
  simp only [consumeProceeds, bind_eq_ok, pure_eq_ok] at h
  rcases h with ⟨_, -, -, -, -, -, rfl⟩
  rfl

theorem recordDistributionVerification_ledger {event : CycleEvent} {value : DistributionReceipt}
    (h : recordDistributionVerification profile s event value = .ok s') :
    s'.ledger = s.ledger := by
  simp only [recordDistributionVerification, bind_eq_ok] at h
  rcases h with ⟨receipt, -, h⟩
  cases hledger : s.closedLedger with
  | none => simp [hledger] at h
  | some ledger =>
    simp only [hledger, bind_eq_ok, pure_eq_ok] at h
    rcases h with ⟨-, -, -, -, -, -, -, -, rfl⟩
    rfl

theorem prepareFunding_ledger {event : CycleEvent} {payload : PayoutFunding}
    (h : prepareFunding profile store s event payload = .ok (s', staged)) :
    s'.ledger = s.ledger := by
  simp only [prepareFunding, bind_eq_ok] at h
  rcases h with ⟨-, -, -, -, h⟩
  split at h
  · simp only [bind_eq_ok, pure_eq_ok, Prod.mk.injEq] at h
    rcases h with ⟨-, -, -, -, _, -, -, -, _, -, -, -, _, -, -, -, -, -, -, -, rfl, -⟩
    rfl
  · simp at h

/-! ### The Collector -/

/-- A new intent of the Collector. -/
theorem intent_generate (i : Option CollectorIntent) (c : CollectorState) :
    CollectorState.intent { c with generateIntent := i } = Function.update c.intent .generate i := by
  funext action
  cases action <;> rfl

theorem intent_openPack (i : Option CollectorIntent) (c : CollectorState) :
    CollectorState.intent { c with openIntent := i } = Function.update c.intent .openPack i := by
  funext action
  cases action <;> rfl

theorem collectorGenerateIntent_step {value : CollectorRequest} {d : Digest}
    (h : collectorGenerateIntent profile s value d = .ok s') :
    s.ledger.Step profile (.collectorIntentPrepared .generate value d) s'.ledger
      .nothing := by
  simp only [collectorGenerateIntent, bind_eq_ok, revertIf_eq_ok, exists_const, pure_eq_ok] at h
  rcases h with ⟨request, -, -, -, hnew, hs⟩
  have hledger : s'.ledger = { s.ledger with
      intent := Function.update s.collector.intent .generate (some ⟨request, d⟩) } := by
    rw [← hs, ← intent_generate]
    rfl
  rw [hledger]
  exact Ledger.Step.collectorIntent (l := s.ledger) .generate value ⟨request, d⟩
    (Option.not_isSome_iff_eq_none.mp hnew)

theorem collectorOpenIntent_step {value : CollectorRequest} {d : Digest}
    (h : collectorOpenIntent profile s value d = .ok s') :
    s.ledger.Step profile (.collectorIntentPrepared .openPack value d) s'.ledger
      .nothing := by
  simp only [collectorOpenIntent, bind_eq_ok] at h
  rcases h with ⟨request, -, h⟩
  cases hstatus : s.collector.verifiedStatus with
  | none => simp [hstatus] at h
  | some status =>
    simp only [hstatus, bind_eq_ok, revertIf_eq_ok, exists_const, pure_eq_ok] at h
    rcases h with ⟨-, -, -, hnew, hs⟩
    have hledger : s'.ledger = { s.ledger with
        intent := Function.update s.collector.intent .openPack (some ⟨request, d⟩) } := by
      rw [← hs, ← intent_openPack]
      simp only [State.ledger, hstatus]
    rw [hledger]
    exact Ledger.Step.collectorIntent (l := s.ledger) .openPack value ⟨request, d⟩
      (Option.not_isSome_iff_eq_none.mp hnew)

theorem collectorMutationAuthorization_step {now : Nat} {value : CollectorRequest}
    {binding : Binding} {input : CollectorAuthorizationInput}
    (h : collectorMutationAuthorization profile store s now value binding input
      = .ok (s', staged)) :
    s.ledger.Step profile (.collectorMutationAuthorizationConsumed value binding input)
      s'.ledger staged := by
  simp only [collectorMutationAuthorization, bind_eq_ok, revertIf_eq_ok, exists_const, pure_eq_ok,
    stageAuthorization_eq_ok, not_or, not_not, Prod.mk.injEq] at h
  rcases h with ⟨request, -, _, -, authorization, -, -, ⟨-, hintent⟩, hnew, _, ⟨-, hkey, rfl⟩,
    rfl, rfl⟩
  rcases (Option.any_eq_true _ _).mp hintent with ⟨intent, hget, hmatches⟩
  exact Ledger.Step.collectorAuthorization (l := s.ledger) value binding input intent authorization
    hget (of_decide_eq_true hmatches).1 hkey (Option.not_isSome_iff_eq_none.mp hnew)

theorem collectorGenerate_step {binding : Binding} {d : Digest} {response : GenerateResponse}
    (h : collectorGenerate profile s binding d response = .ok s') :
    s.ledger.Step profile (.collectorGenerateConsumed binding d response) s'.ledger
      .nothing := by
  simp only [collectorGenerate, bind_eq_ok, revertIf_eq_ok, exists_const] at h
  rcases h with ⟨b, -, -, h⟩
  cases hintent : s.collector.generateIntent with
  | none => simp [hintent] at h
  | some intent =>
    cases hauthorization : s.collector.authorizations.get .generate with
    | none => simp [hintent, hauthorization] at h
    | some authorization =>
      simp only [hintent, hauthorization, bind_eq_ok, revertIf_eq_ok, exists_const,
        pure_eq_ok] at h
      rcases h with ⟨-, -, -, hnew, hs⟩
      have hledger : s'.ledger = { s.ledger with generated := some ⟨b, d, response⟩ } := by
        rw [← hs, ← hintent]
        rfl
      rw [hledger]
      exact Ledger.Step.generated (l := s.ledger) binding d response _ intent hintent
        (Option.not_isSome_iff_eq_none.mp hnew)

theorem verifiedCollectorStatus_ledger {now : Nat} {value : CollectorStatus}
    (h : verifiedCollectorStatus profile s now value = .ok s') : s'.ledger = s.ledger := by
  simp only [verifiedCollectorStatus, bind_eq_ok] at h
  rcases h with ⟨status, -, h⟩
  cases hgenerated : s.collector.generated with
  | none => simp [hgenerated] at h
  | some generated =>
    simp only [hgenerated, bind_eq_ok, pure_eq_ok] at h
    rcases h with ⟨-, -, -, -, rfl⟩
    simp [State.ledger, hgenerated]
    rfl

theorem collectorOpen_step {now : Nat} {value : CollectorRequest} {execution : OpenExecution}
    (h : collectorOpen profile s now value execution = .ok s') :
    s.ledger.Step profile (.collectorOpened value execution) s'.ledger .nothing := by
  simp only [collectorOpen, bind_eq_ok] at h
  rcases h with ⟨opening, -, verified, -, h⟩
  cases hintent : s.collector.openIntent with
  | none => simp [hintent] at h
  | some intent =>
    split at h
    · simp only [bind_eq_ok, revertIf_eq_ok, exists_const] at h
      rcases h with ⟨-, -, h⟩
      split at h
      · simp at h
      · simp only [bind_eq_ok, revertIf_eq_ok, exists_const, pure_eq_ok] at h
        rcases h with ⟨-, hnew, rfl⟩
        exact Ledger.Step.opened (l := s.ledger) value opening execution intent hintent
          (Option.not_isSome_iff_eq_none.mp hnew)
    · simp at h

theorem verifiedCollectorOpenCustody_ledger {now : Nat} {value : OpenCustody}
    {finality : RpcFinality}
    (h : verifiedCollectorOpenCustody profile s now value finality = .ok s') :
    s'.ledger = s.ledger := by
  simp only [verifiedCollectorOpenCustody, bind_eq_ok] at h
  rcases h with ⟨custody, -, _, -, h⟩
  split at h
  · simp only [bind_eq_ok, pure_eq_ok] at h
    rcases h with ⟨-, -, -, -, rfl⟩
    rfl
  · simp at h

theorem postOpenBuybackApproval_step {now : Nat} {value : PostOpenApproval}
    (h : postOpenBuybackApproval profile store s now value = .ok (s', staged)) :
    s.ledger.Step profile (.postOpenBuybackApprovalConsumed value) s'.ledger staged := by
  simp only [postOpenBuybackApproval, bind_eq_ok] at h
  rcases h with ⟨approval, hvalue, h⟩
  cases hresolve : profile.resolveBuybackDigest s.actionByKind approval with
  | none => simp [hresolve] at h
  | some d =>
    cases haction : s.actions.get d with
    | none => simp [hresolve, haction] at h
    | some prepared =>
      simp only [hresolve, haction, bind_eq_ok, revertIf_eq_ok, exists_const, pure_eq_ok, not_or,
        not_not, Prod.mk.injEq] at h
      rcases h with ⟨⟨hkind, -, hopened⟩, _, hpolicy, hnew, _, -, rfl, rfl⟩
      exact Ledger.Step.postOpen (l := s.ledger) now value approval d prepared _ hvalue hresolve
        haction hkind (Option.ne_none_iff_isSome.mp hopened) hpolicy
        (Option.not_isSome_iff_eq_none.mp hnew)

/-! ### Mutations -/

theorem externalMutationIdentity_authorized {d : Digest} {identity : MutationIdentity}
    (h : externalMutationIdentity profile s d = .ok identity) :
    s.ledger.Authorized profile d identity := by
  unfold externalMutationIdentity at h
  cases haction : s.actions.get d with
  | some prepared =>
    simp only [haction] at h
    split at h
    · rename_i approval consumed happroval hconsumed
      simp only [bind_eq_ok, revertIf_eq_ok, exists_const, pure_eq_ok, not_or, not_not] at h
      rcases h with ⟨⟨hsubject, hkey⟩, rfl⟩
      exact .action prepared approval consumed haction happroval hconsumed hsubject hkey
    · simp at h
  | none =>
    have hcollector : ∀ action, intentNames s action d = true →
        collectorIdentity profile s d action = .ok identity →
        s.ledger.Authorized profile d identity := by
      intro action hnames hidentity
      rcases (Option.any_eq_true _ _).mp hnames with ⟨intent, hintent, hdigest⟩
      unfold collectorIdentity at hidentity
      cases hauthorization : s.collector.authorizations.get action with
      | none => simp [hauthorization] at hidentity
      | some authorization =>
        simp only [hauthorization, bind_eq_ok, revertIf_eq_ok, exists_const, pure_eq_ok,
          not_not] at hidentity
        rcases hidentity with ⟨hrequest, rfl⟩
        exact .collector action intent authorization haction hintent (of_decide_eq_true hdigest)
          hauthorization hrequest
    simp only [haction] at h
    split at h
    · rename_i hnames
      exact hcollector .generate hnames h
    · split at h
      · rename_i hnames
        exact hcollector .openPack hnames h
      · simp at h

theorem externalMutationAttempted_step {d : Digest} {identity : MutationIdentity}
    (h : externalMutationAttempted profile s d identity = .ok s') :
    s.ledger.Step profile (.externalMutationAttempted d identity) s'.ledger .nothing := by
  simp only [externalMutationAttempted, bind_eq_ok, revertIf_eq_ok, exists_const, pure_eq_ok,
    not_not] at h
  rcases h with ⟨expected, hexpected, rfl, hsettled, hnew, rfl⟩
  refine Ledger.Step.attempt (l := s.ledger) d identity
    (externalMutationIdentity_authorized hexpected) ?_ (Option.not_isSome_iff_eq_none.mp hnew)
  rintro d' kind ⟨mutation, hget, hstatus, -⟩
  exact hsettled ⟨mutation, Map.mem_values.mpr ⟨d', hget⟩, hstatus⟩

theorem externalMutationReconciled_step {d : Digest} {kind : MutationKind}
    {evidence : ReconciliationEvidence}
    (h : externalMutationReconciled profile s d kind evidence = .ok s') :
    s.ledger.Step profile (.externalMutationReconciled d kind evidence) s'.ledger
      .nothing := by
  unfold externalMutationReconciled at h
  cases hget : s.externalMutations.get d with
  | none => simp [hget] at h
  | some mutation =>
    simp only [hget, bind_eq_ok, revertIf_eq_ok, exists_const, pure_eq_ok, not_or, not_not] at h
    rcases h with ⟨⟨-, rfl⟩, _, -, -, rfl⟩
    exact Ledger.Step.reconcile (l := s.ledger) d mutation evidence hget

theorem retire_action {d : Digest} {kind : ActionKind} {prepared : PreparedAction}
    (h : s.actions.get d = some prepared) :
    (retireVoidedExternalMutation s d (.action kind)).ledger
      = s.ledger.retireAction d kind prepared := by
  simp [retireVoidedExternalMutation, refundNativeGas, h, State.ledger, Ledger.retireAction,
    Ledger.chainOf]

theorem retire_collector {d : Digest} {action : CollectorAction} :
    (retireVoidedExternalMutation s d (.collector action)).ledger
      = s.ledger.retireCollector d action := by
  cases action with
  | generate =>
    have hintent := intent_generate none s.collector
    simp only [retireVoidedExternalMutation, State.ledger, Ledger.retireCollector, ← hintent]
    rfl
  | openPack =>
    have hintent := intent_openPack none s.collector
    simp only [retireVoidedExternalMutation, State.ledger, Ledger.retireCollector, ← hintent]
    rfl

theorem externalMutationVoided_step {d : Digest} {proof : VoidProof}
    (h : externalMutationVoided profile s d proof = .ok s') :
    s.ledger.Step profile (.externalMutationVoided d proof) s'.ledger .nothing := by
  unfold externalMutationVoided at h
  cases hget : s.externalMutations.get d with
  | none => simp [hget] at h
  | some mutation =>
    simp only [hget, bind_eq_ok, revertIf_eq_ok, exists_const, pure_eq_ok, not_not] at h
    rcases h with ⟨hstatus, hbroadcast, -, -, -, same, hsame, -, rfl⟩
    have hnone : s.ledger.broadcasts.get d = none := Option.not_isSome_iff_eq_none.mp hbroadcast
    cases hkind : mutation.identity.actionKind with
    | collector action =>
      rw [retire_collector]
      exact .voidCollector d proof action ⟨mutation, hget, hstatus, hkind⟩ hnone
    | action kind =>
      rw [hkind] at hsame
      cases haction : s.actions.get d with
      | none => simp [boundaryMatches, haction] at hsame
      | some prepared =>
        rw [retire_action haction]
        exact .voidAction d proof kind prepared ⟨mutation, hget, hstatus, hkind⟩ haction hnone

theorem externalMutationSuperseded_step {d : Digest} {provider rpc : SupersedeEvidence}
    {authorization : SupersessionAuthorization}
    (h : externalMutationSuperseded profile store s d provider rpc authorization
      = .ok (s', staged)) :
    s.ledger.Step profile (.externalMutationSuperseded d provider rpc authorization)
      s'.ledger staged := by
  unfold externalMutationSuperseded at h
  cases hget : s.externalMutations.get d with
  | none => simp [hget] at h
  | some mutation =>
    simp only [hget, bind_eq_ok, revertIf_eq_ok, exists_const, not_not] at h
    rcases h with ⟨hstatus, h⟩
    cases hkind : mutation.identity.actionKind with
    | collector action => simp [hkind] at h
    | action kind =>
      simp only [hkind] at h
      split at h
      · rename_i broadcast prepared signed hbroadcast haction hsigned
        simp only [bind_eq_ok, pure_eq_ok, Prod.mk.injEq] at h
        rcases h with ⟨-, -, -, -, -, -, _, -, rfl, rfl⟩
        rw [retire_action haction]
        exact .supersede d provider rpc authorization kind prepared broadcast _
          ⟨mutation, hget, hstatus, hkind⟩ haction hbroadcast
      · simp at h

/-! ### Events -/

theorem withoutRecords_eq_ok {x : Except String State} :
    withoutRecords x = .ok (s', staged) ↔ x = .ok s' ∧ staged = .nothing := by
  simp only [withoutRecords, bind_eq_ok, pure_eq_ok, Prod.mk.injEq]
  constructor
  · rintro ⟨next, hnext, rfl, rfl⟩
    exact ⟨hnext, rfl⟩
  · rintro ⟨hx, rfl⟩
    exact ⟨s', hx, rfl, rfl⟩

/-- An event that leaves the ledger alone is a step. -/
theorem quiet_step {body : EventBody} (hbody : body.Quiet) (h : s'.ledger = s.ledger) :
    s.ledger.Step profile body s'.ledger staged := by
  rw [h]
  exact .quiet body staged hbody

/-- **Every event that the reducer accepts is a step of the ledger.** -/
theorem handleEvent_step {event : CycleEvent}
    (h : handleEvent profile store s event = .ok (s', staged)) :
    s.ledger.Step profile event.body s'.ledger staged := by
  unfold handleEvent at h
  cases hbody : event.body with
  | cycleControlBound control =>
    rw [hbody] at h
    rcases withoutRecords_eq_ok.mp h with ⟨hs, rfl⟩
    exact quiet_step trivial (bindCycleControl_ledger hs)
  | cyclePreflightRecorded preflight d =>
    rw [hbody] at h
    rcases withoutRecords_eq_ok.mp h with ⟨hs, rfl⟩
    exact verifyPreflight_step hs
  | intentPrepared action digests =>
    rw [hbody] at h
    rcases withoutRecords_eq_ok.mp h with ⟨hs, rfl⟩
    exact verifyIntent_step hs
  | ownerApprovalRecorded approval =>
    rw [hbody] at h
    rcases withoutRecords_eq_ok.mp h with ⟨hs, rfl⟩
    exact verifyApproval_step hs
  | ownerApprovalConsumed d kind subject key validatedAt =>
    rw [hbody] at h
    exact consumeApproval_step h
  | fixtureMessageDecoded d messageBytes messageDigest =>
    rw [hbody] at h
    rcases withoutRecords_eq_ok.mp h with ⟨hs, rfl⟩
    exact verifyDecode_step hs
  | signedBytesRecorded signed =>
    rw [hbody] at h
    rcases withoutRecords_eq_ok.mp h with ⟨hs, rfl⟩
    exact verifySigned_step hs
  | blockhashValidityVerified evidence =>
    rw [hbody] at h
    rcases withoutRecords_eq_ok.mp h with ⟨hs, rfl⟩
    exact verifyBlockhashValidity_step hs
  | broadcastRecorded broadcast =>
    rw [hbody] at h
    rcases withoutRecords_eq_ok.mp h with ⟨hs, rfl⟩
    exact verifyBroadcast_step hs
  | providerReceiptVerified receipt d key =>
    rw [hbody] at h
    rcases withoutRecords_eq_ok.mp h with ⟨hs, rfl⟩
    exact verifyReceipt_step hs
  | executionAccountingVerified evidence =>
    rw [hbody] at h
    rcases withoutRecords_eq_ok.mp h with ⟨hs, rfl⟩
    exact verifyExecutionAccounting_step hs
  | receiptConsumed d key =>
    rw [hbody] at h
    exact consumeReceipt_step h
  | cycleTransitioned version head predecessor next evidence =>
    rw [hbody] at h
    rcases withoutRecords_eq_ok.mp h with ⟨hs, rfl⟩
    exact transition_step hs
  | proceedsConsumed d key =>
    rw [hbody] at h
    rcases withoutRecords_eq_ok.mp h with ⟨hs, rfl⟩
    exact quiet_step trivial (consumeProceeds_ledger hs)
  | distributionVerificationRecorded receipt =>
    rw [hbody] at h
    rcases withoutRecords_eq_ok.mp h with ⟨hs, rfl⟩
    exact quiet_step trivial (recordDistributionVerification_ledger hs)
  | payoutFundingPrepared funding =>
    rw [hbody] at h
    exact quiet_step trivial (prepareFunding_ledger h)
  | collectorGenerateConsumed binding d response =>
    rw [hbody] at h
    rcases withoutRecords_eq_ok.mp h with ⟨hs, rfl⟩
    exact collectorGenerate_step hs
  | collectorIntentPrepared action request d =>
    rw [hbody] at h
    cases action with
    | generate =>
      rcases withoutRecords_eq_ok.mp h with ⟨hs, rfl⟩
      exact collectorGenerateIntent_step hs
    | openPack =>
      rcases withoutRecords_eq_ok.mp h with ⟨hs, rfl⟩
      exact collectorOpenIntent_step hs
  | collectorMutationAuthorizationConsumed request binding authorization =>
    rw [hbody] at h
    exact collectorMutationAuthorization_step h
  | collectorStatusVerified status =>
    rw [hbody] at h
    rcases withoutRecords_eq_ok.mp h with ⟨hs, rfl⟩
    exact quiet_step trivial (verifiedCollectorStatus_ledger hs)
  | collectorOpened opening execution =>
    rw [hbody] at h
    rcases withoutRecords_eq_ok.mp h with ⟨hs, rfl⟩
    exact collectorOpen_step hs
  | collectorOpenCustodyVerified custody finality =>
    rw [hbody] at h
    rcases withoutRecords_eq_ok.mp h with ⟨hs, rfl⟩
    exact quiet_step trivial (verifiedCollectorOpenCustody_ledger hs)
  | postOpenBuybackApprovalConsumed approval =>
    rw [hbody] at h
    exact postOpenBuybackApproval_step h
  | externalMutationAttempted d identity =>
    rw [hbody] at h
    rcases withoutRecords_eq_ok.mp h with ⟨hs, rfl⟩
    exact externalMutationAttempted_step hs
  | externalMutationReconciled d kind evidence =>
    rw [hbody] at h
    rcases withoutRecords_eq_ok.mp h with ⟨hs, rfl⟩
    exact externalMutationReconciled_step hs
  | externalMutationVoided d proof =>
    rw [hbody] at h
    rcases withoutRecords_eq_ok.mp h with ⟨hs, rfl⟩
    exact externalMutationVoided_step hs
  | externalMutationSuperseded d provider rpc authorization =>
    rw [hbody] at h
    exact externalMutationSuperseded_step h

end Refinement

end Hookemon.Runner.CycleReducer
