import Hookemon.Repository.SignOnly

/-! # Who may invoke the signer

The states that the journal records for a chain attempt, and for the invocations of a request,
are the history of its current state. A grant appends the next state of that history, so no two
calls get the same one.
-/

namespace Hookemon.Repository

open Hookemon.Core Hookemon.Js Hookemon.Runner

/-! ## What a journal records of a request -/

def ChainTransactionAttemptState.history :
    ChainTransactionAttemptState → List ChainTransactionAttemptState
  | .prepared => [.prepared]
  | .signed => [.prepared, .signed]
  | .broadcast => [.prepared, .signed, .broadcast]
  | .finalized => [.prepared, .signed, .broadcast, .finalized]

def SignOnlyInvocationLedgerState.history :
    SignOnlyInvocationLedgerState → List SignOnlyInvocationLedgerState
  | .ordinal1Allocated => [.ordinal1Allocated]
  | .ordinal1TimedOut => [.ordinal1Allocated, .ordinal1TimedOut]
  | .ordinal2Allocated => [.ordinal1Allocated, .ordinal1TimedOut, .ordinal2Allocated]
  | .ordinal2TimedOut =>
    [.ordinal1Allocated, .ordinal1TimedOut, .ordinal2Allocated, .ordinal2TimedOut]

section Recorded

variable {ω : Type} (stage : OperationalStage) (requestDigest : Text)

def SigningEvent.attemptState : SigningEvent ω → Option ChainTransactionAttemptState
  | .chainAttemptPrepared _ attempt | .chainAttemptSigned _ attempt
  | .chainAttemptBroadcast _ attempt _ | .chainAttemptFinalized _ attempt _ =>
    if attempt.stage = stage ∧ attempt.requestDigest = requestDigest then some attempt.state else none
  | _ => none

def SigningEvent.ledgerState : SigningEvent ω → Option SignOnlyInvocationLedgerState
  | .signOnlyInvocationReserved ledger | .signOnlyInvocationTimedOut ledger =>
    if ledger.stage = stage ∧ ledger.requestDigest = requestDigest then some ledger.state else none
  | _ => none

def SigningEvent.preSignBinding : SigningEvent ω → Option SignOnlyPreSignBinding
  | .signOnlyPreSignBindingPersisted binding =>
    if binding.stage = stage ∧ binding.requestDigest = requestDigest then some binding else none
  | _ => none

/-- The states that the journal records for the chain attempt of a request, in order. -/
def attemptStates (journal : List (SigningEvent ω)) : List ChainTransactionAttemptState :=
  journal.filterMap (SigningEvent.attemptState stage requestDigest)

/-- The states that the journal records for the invocations of a request, in order. -/
def ledgerStates (journal : List (SigningEvent ω)) : List SignOnlyInvocationLedgerState :=
  journal.filterMap (SigningEvent.ledgerState stage requestDigest)

/-- The bindings that the journal records for a request. -/
def preSignBindings (journal : List (SigningEvent ω)) : List SignOnlyPreSignBinding :=
  journal.filterMap (SigningEvent.preSignBinding stage requestDigest)

/-- The ordinals that were granted for a request, in the order of the grants. -/
def grants (answers : List SigningAnswer) : List Nat :=
  answers.filterMap fun
    | .granted stage' requestDigest' ordinal _ =>
      if stage' = stage ∧ requestDigest' = requestDigest then some ordinal else none
    | _ => none

/-- What the journal has to say for an ordinal to be granted: the attempt is prepared and not
signed, one binding is recorded, the ordinal is the next one, and the cycle has not ended. -/
structure MayInvoke (ordinal : Nat) (journal : List (SigningEvent ω)) : Prop where
  prepared : attemptStates stage requestDigest journal = [.prepared]
  bound : ∃ binding, preSignBindings stage requestDigest journal = [binding]
  next : (ordinal = 1 ∧ ledgerStates stage requestDigest journal = []) ∨
    (ordinal = 2 ∧
      ledgerStates stage requestDigest journal = [.ordinal1Allocated, .ordinal1TimedOut])
  running : ∀ e ∈ journal, ¬ e.isTerminal

end Recorded

/-! ## The state and its journal -/

/-- The replayed state holds the last of what the journal records. -/
structure Agrees {ω : Type} (cycleId : Text) (journal : List (SigningEvent ω))
    (s : SigningState ω) : Prop where
  attempts : ∀ stage requestDigest, attemptStates stage requestDigest journal =
    (s.chainAttempts.find (chainAttemptKey stage requestDigest)).elim [] fun record =>
      record.attempt.state.history
  attemptKeys : ∀ key record, s.chainAttempts.find key = some record →
    key = chainAttemptKey record.attempt.stage record.attempt.requestDigest ∧
      record.attempt.cycleId = cycleId ∧
      assertChainTransactionAttempt record.attempt "chain transaction attempt" = .ok record.attempt
  bindings : ∀ stage requestDigest, preSignBindings stage requestDigest journal =
    (s.signOnlyPreSignBindings.find (chainAttemptKey stage requestDigest)).toList
  ledgers : ∀ stage requestDigest, ledgerStates stage requestDigest journal =
    (s.signOnlyInvocationLedgers.find (chainAttemptKey stage requestDigest)).elim [] fun ledger =>
      ledger.state.history
  ledgerKeys : ∀ key ledger, s.signOnlyInvocationLedgers.find key = some ledger →
    key = chainAttemptKey ledger.stage ledger.requestDigest ∧ ledger.cycleId = cycleId
  running : s.terminalState = none → ∀ e ∈ journal, ¬ e.isTerminal
  completed : s.completed → s.terminalState = some .completed ∧
    ∀ key record, s.chainAttempts.find key = some record → record.attempt.state = .finalized

/-! ## What an event does to the state -/

section Replay

variable {ω : Type} {others : OtherRecords ω} {cycleId : Text} {s t : SigningState ω}

theorem apply_eq_ok {e : SigningEvent ω} : s.apply others cycleId e = .ok t ↔
    s.assertRecordAllowed others e = .ok () ∧
      match e with
      | .chainAttemptPrepared stage attempt => s.replayPrepared cycleId stage attempt = .ok t
      | .chainAttemptSigned stage attempt => s.replaySigned cycleId stage attempt = .ok t
      | .chainAttemptBroadcast stage attempt evidence =>
        s.replayBroadcast cycleId stage attempt evidence = .ok t
      | .chainAttemptFinalized stage attempt evidence =>
        s.replayFinalized cycleId stage attempt evidence = .ok t
      | .chainAttemptRecoveryContextRecorded context => s.replayRecoveryContext cycleId context = .ok t
      | .signOnlyPreSignBindingPersisted binding => s.replayBinding cycleId binding = .ok t
      | .signOnlyInvocationReserved ledger => s.replayReserved cycleId ledger = .ok t
      | .signOnlyInvocationTimedOut ledger => s.replayTimedOut cycleId ledger = .ok t
      | .cycleTerminal terminalState evidence =>
        t = { s with terminalState := some terminalState, terminalEvidence := some evidence }
      | .cycleCompleted => s.replayCompleted others = .ok t
      | .other record => t = { s with others := s.others ++ [record] } := by
  unfold SigningState.apply
  rw [bind_eq_ok]
  constructor
  · rintro ⟨_, hallowed, h⟩
    refine ⟨hallowed, ?_⟩
    cases e <;> dsimp only at h ⊢ <;> first
      | exact h
      | exact (Except.ok.inj h).symm
  · rintro ⟨hallowed, h⟩
    refine ⟨(), hallowed, ?_⟩
    cases e <;> dsimp only at h ⊢ <;> first
      | exact h
      | rw [h]

theorem replayPrepared_eq_ok {stage : OperationalStage} {value : ChainTransactionAttempt} :
    s.replayPrepared cycleId stage value = .ok t ↔
      assertChainTransactionAttempt value "stored chain transaction attempt" = .ok value ∧
      value.cycleId = cycleId ∧ value.stage = stage ∧ value.state = .prepared ∧
      s.chainAttempts.find (chainAttemptKey value.stage value.requestDigest) = none ∧
      t = { s with
        chainAttempts :=
          s.chainAttempts.set (chainAttemptKey value.stage value.requestDigest) ⟨value, none, none⟩ } := by
  unfold SigningState.replayPrepared
  simp only [bind_eq_ok, revertIf_eq_ok, pure_eq_ok, not_or, ne_eq, not_not,
    Bool.not_eq_true, Option.isSome_eq_false_iff, Option.isNone_iff_eq_none]
  constructor
  · rintro ⟨attempt, hvalid, _, ⟨hcycle, hstage, hstate, hnew⟩, rfl⟩
    obtain rfl := assertChainTransactionAttempt_eq hvalid
    exact ⟨hvalid, hcycle, hstage, hstate, hnew, rfl⟩
  · rintro ⟨hvalid, hcycle, hstage, hstate, hnew, rfl⟩
    exact ⟨value, hvalid, (), ⟨hcycle, hstage, hstate, hnew⟩, rfl⟩

theorem replaySigned_eq_ok {stage : OperationalStage} {value : ChainTransactionAttempt} :
    s.replaySigned cycleId stage value = .ok t ↔ ∃ previous,
      assertChainTransactionAttempt value "stored chain transaction attempt" = .ok value ∧
      s.chainAttempts.find (chainAttemptKey value.stage value.requestDigest) = some previous ∧
      previous.attempt.state = .prepared ∧ value.state = .signed ∧ value.cycleId = cycleId ∧
      value.stage = stage ∧ value.requestDigest = previous.attempt.requestDigest ∧
      transitionChainTransactionAttempt previous.attempt .signed
        (some ⟨value.rawBytes, value.nonce, value.blockhash, value.hash⟩) = .ok value ∧
      t = { s with
        chainAttempts :=
          s.chainAttempts.set (chainAttemptKey value.stage value.requestDigest)
          { previous with attempt := value } } := by
  unfold SigningState.replaySigned
  simp only [bind_eq_ok, revertIf_eq_ok, required_eq_ok, pure_eq_ok, not_or, ne_eq, not_not]
  constructor
  · rintro ⟨attempt, hvalid, previous, hfind, _, ⟨hbefore, hafter, hcycle, hstage, hrequest⟩,
      expected, htransition, _, rfl, rfl⟩
    obtain rfl := assertChainTransactionAttempt_eq hvalid
    exact ⟨previous, hvalid, hfind, hbefore, hafter, hcycle, hstage, hrequest, htransition, rfl⟩
  · rintro ⟨previous, hvalid, hfind, hbefore, hafter, hcycle, hstage, hrequest, htransition, rfl⟩
    exact ⟨value, hvalid, previous, hfind, (), ⟨hbefore, hafter, hcycle, hstage, hrequest⟩, value,
      htransition, (), rfl, rfl⟩

theorem replayObserved_eq_ok {before after : ChainTransactionAttemptState} {noun : String}
    {observe : ChainAttemptRecord → Value → ChainAttemptRecord} {stage : OperationalStage}
    {value : ChainTransactionAttempt} {evidence : Value} :
    s.replayObserved cycleId before after noun observe stage value evidence = .ok t ↔
    ∃ observed previous,
      assertChainTransactionAttempt value "stored chain transaction attempt" = .ok value ∧
      SigningState.cloneChainObservationEvidence evidence
        ("stored chain transaction " ++ noun ++ " evidence") = .ok observed ∧
      s.chainAttempts.find (chainAttemptKey value.stage value.requestDigest) = some previous ∧
      previous.attempt.state = before ∧ value.state = after ∧ value.cycleId = cycleId ∧
      value.stage = stage ∧ value.requestDigest = previous.attempt.requestDigest ∧
      transitionChainTransactionAttempt previous.attempt after none = .ok value ∧
      t = { s with
        chainAttempts :=
          s.chainAttempts.set (chainAttemptKey value.stage value.requestDigest)
          (observe { previous with attempt := value } observed) } := by
  unfold SigningState.replayObserved
  simp only [bind_eq_ok, revertIf_eq_ok, required_eq_ok, pure_eq_ok, not_or, ne_eq, not_not]
  constructor
  · rintro ⟨attempt, hvalid, observed, hobserved, previous, hfind, _,
      ⟨hbefore, hafter, hcycle, hstage, hrequest⟩, expected, htransition, _, rfl, rfl⟩
    obtain rfl := assertChainTransactionAttempt_eq hvalid
    exact ⟨observed, previous, hvalid, hobserved, hfind, hbefore, hafter, hcycle, hstage, hrequest,
      htransition, rfl⟩
  · rintro ⟨observed, previous, hvalid, hobserved, hfind, hbefore, hafter, hcycle, hstage, hrequest,
      htransition, rfl⟩
    exact ⟨value, hvalid, observed, hobserved, previous, hfind, (),
      ⟨hbefore, hafter, hcycle, hstage, hrequest⟩, value, htransition, (), rfl, rfl⟩

theorem replayRecoveryContext_eq_ok {context : ChainAttemptRecoveryContext} :
    s.replayRecoveryContext cycleId context = .ok t ↔
      assertChainAttemptRecoveryContextInput cycleId context = .ok () ∧
      s.bindsSignedBytes context ∧
      (∀ previous, s.chainAttemptRecoveryContexts.find (chainAttemptRecoveryContextKey context)
        = some previous → previous = context) ∧
      t = { s with
        chainAttemptRecoveryContexts :=
          s.chainAttemptRecoveryContexts.set (chainAttemptRecoveryContextKey context) context } := by
  unfold SigningState.replayRecoveryContext
  simp only [bind_eq_ok, revertIf_eq_ok, pure_eq_ok, not_exists, not_and, not_not, ne_eq]
  constructor
  · rintro ⟨_, hvalid, _, hsigned, _, hsame, rfl⟩
    exact ⟨hvalid, hsigned, hsame, rfl⟩
  · rintro ⟨hvalid, hsigned, hsame, rfl⟩
    exact ⟨(), hvalid, (), hsigned, (), hsame, rfl⟩

theorem replayBinding_eq_ok {binding : SignOnlyPreSignBinding} :
    s.replayBinding cycleId binding = .ok t ↔
      assertSignOnlyPreSignBinding binding "stored sign-only pre-sign binding" = .ok () ∧
      binding.cycleId = cycleId ∧
      SigningState.isPrepared
        (s.chainAttempts.find (chainAttemptKey binding.stage binding.requestDigest)) ∧
      s.signOnlyPreSignBindings.find (chainAttemptKey binding.stage binding.requestDigest) = none ∧
      t = { s with
        signOnlyPreSignBindings :=
          s.signOnlyPreSignBindings.set (chainAttemptKey binding.stage binding.requestDigest)
          binding } := by
  unfold SigningState.replayBinding
  simp only [bind_eq_ok, revertIf_eq_ok, pure_eq_ok, not_not, ne_eq, Bool.not_eq_true,
    Bool.not_eq_false, Option.isSome_eq_false_iff, Option.isNone_iff_eq_none]
  constructor
  · rintro ⟨_, hvalid, _, hcycle, _, hprepared, _, hnew, rfl⟩
    exact ⟨hvalid, hcycle, hprepared, hnew, rfl⟩
  · rintro ⟨hvalid, hcycle, hprepared, hnew, rfl⟩
    exact ⟨(), hvalid, (), hcycle, (), hprepared, (), hnew, rfl⟩

theorem replayReserved_eq_ok {ledger : SignOnlyInvocationLedger} :
    s.replayReserved cycleId ledger = .ok t ↔
      assertSignOnlyInvocationLedger ledger "stored sign-only invocation ledger" = .ok () ∧
      ledger.cycleId = cycleId ∧
      SigningState.isPrepared
        (s.chainAttempts.find (chainAttemptKey ledger.stage ledger.requestDigest)) ∧
      s.assertReserved ledger = .ok () ∧
      t = { s with
        signOnlyInvocationLedgers :=
          s.signOnlyInvocationLedgers.set (chainAttemptKey ledger.stage ledger.requestDigest)
          ledger } := by
  unfold SigningState.replayReserved
  simp only [bind_eq_ok, revertIf_eq_ok, pure_eq_ok, not_not, ne_eq]
  constructor
  · rintro ⟨_, hvalid, _, hcycle, _, hprepared, _, hreserved, rfl⟩
    exact ⟨hvalid, hcycle, hprepared, hreserved, rfl⟩
  · rintro ⟨hvalid, hcycle, hprepared, hreserved, rfl⟩
    exact ⟨(), hvalid, (), hcycle, (), hprepared, (), hreserved, rfl⟩

/-- A reservation is the first one, on a bound request, or it follows the first timeout. -/
theorem assertReserved_eq_ok {ledger : SignOnlyInvocationLedger} :
    s.assertReserved ledger = .ok () ↔
      (ledger.state = .ordinal1Allocated ∧
        s.signOnlyInvocationLedgers.find (chainAttemptKey ledger.stage ledger.requestDigest) = none ∧
        (s.signOnlyPreSignBindings.find
          (chainAttemptKey ledger.stage ledger.requestDigest)).isSome) ∨
      ∃ previous, ledger.state = .ordinal2Allocated ∧
        s.signOnlyInvocationLedgers.find (chainAttemptKey ledger.stage ledger.requestDigest)
          = some previous ∧
        previous.state = .ordinal1TimedOut ∧
        transitionSignOnlyInvocationLedger previous .ordinal2Allocated = .ok ledger := by
  unfold SigningState.assertReserved
  cases hstate : ledger.state with
  | ordinal1Allocated =>
    rw [revertIf_eq_ok]
    simp [Option.isSome_iff_ne_none]
  | ordinal1TimedOut => simp
  | ordinal2Allocated =>
    simp only [bind_eq_ok, revertIf_eq_ok, required_eq_ok, ne_eq, not_not, reduceCtorEq, false_and,
      false_or, true_and]
    constructor
    · rintro ⟨previous, hfind, _, hstate, expected, htransition, rfl⟩
      exact ⟨previous, hfind, hstate, htransition⟩
    · rintro ⟨previous, hfind, hstate, htransition⟩
      exact ⟨previous, hfind, (), hstate, ledger, htransition, rfl⟩
  | ordinal2TimedOut => simp

theorem replayTimedOut_eq_ok {ledger : SignOnlyInvocationLedger} :
    s.replayTimedOut cycleId ledger = .ok t ↔ ∃ previous,
      assertSignOnlyInvocationLedger ledger "stored sign-only invocation ledger" = .ok () ∧
      ledger.cycleId = cycleId ∧
      s.signOnlyInvocationLedgers.find (chainAttemptKey ledger.stage ledger.requestDigest)
        = some previous ∧
      previous.state = (if ledger.state = .ordinal1TimedOut then .ordinal1Allocated
        else .ordinal2Allocated) ∧
      transitionSignOnlyInvocationLedger previous ledger.state = .ok ledger ∧
      t = { s with
        signOnlyInvocationLedgers :=
          s.signOnlyInvocationLedgers.set (chainAttemptKey ledger.stage ledger.requestDigest)
          ledger } := by
  unfold SigningState.replayTimedOut
  simp only [bind_eq_ok, revertIf_eq_ok, required_eq_ok, pure_eq_ok, not_not, ne_eq]
  constructor
  · rintro ⟨_, hvalid, _, hcycle, previous, hfind, _, hstate, expected, htransition, _, rfl, rfl⟩
    exact ⟨previous, hvalid, hcycle, hfind, hstate, htransition, rfl⟩
  · rintro ⟨previous, hvalid, hcycle, hfind, hstate, htransition, rfl⟩
    exact ⟨(), hvalid, (), hcycle, previous, hfind, (), hstate, ledger, htransition, (), rfl, rfl⟩

theorem assertChainAttemptsFinalized_eq_ok : s.assertChainAttemptsFinalized = .ok () ↔
    ∀ key record, s.chainAttempts.find key = some record → record.attempt.state = .finalized := by
  unfold SigningState.assertChainAttemptsFinalized
  split
  · rename_i hnone
    rw [List.find?_eq_none] at hnone
    simp only [true_iff]
    intro key record hfind
    simpa using hnone (key, record) (Record.mem_of_find hfind)
  · rename_i key record hsome
    simp only [reduceCtorEq, false_iff, not_forall]
    have hmem := Record.mem_iff_find.mp (List.mem_of_find?_eq_some hsome)
    refine ⟨key, record, hmem, ?_⟩
    simpa using List.find?_some hsome

theorem replayCompleted_eq_ok : s.replayCompleted others = .ok t ↔
    others.assertClosure s.others = .ok () ∧ s.assertChainAttemptsFinalized = .ok () ∧
      t = { s with completed := true, terminalState := some .completed } := by
  unfold SigningState.replayCompleted SigningState.assertCycleClosure
  simp only [bind_eq_ok, pure_eq_ok]
  constructor
  · rintro ⟨_, ⟨_, hothers, hchain⟩, rfl⟩
    exact ⟨hothers, hchain, rfl⟩
  · rintro ⟨hothers, hchain, rfl⟩
    exact ⟨(), ⟨(), hothers, hchain⟩, rfl⟩

theorem assertRecordAllowed_eq_ok {e : SigningEvent ω} : s.assertRecordAllowed others e = .ok () ↔
    s.terminalState = none ∨
      (e.afterTerminal others ∧ (s.completed → e.afterCompletion others)) :=
  assertRecordAllowed_ok

/-! ## The journal agrees with the state it replays to -/

theorem isPrepared_iff {chain : Option ChainAttemptRecord} : SigningState.isPrepared chain ↔
    ∃ record, chain = some record ∧ record.attempt.state = .prepared := by
  unfold SigningState.isPrepared
  cases chain <;> simp

variable {journal : List (SigningEvent ω)}

theorem Agrees.not_completed (h : Agrees cycleId journal s) {e : SigningEvent ω}
    (hallowed : s.assertRecordAllowed others e = .ok ()) (hkind : e.afterCompletion others = false) :
    s.completed = false := by
  rcases assertRecordAllowed_eq_ok.mp hallowed with hrunning | ⟨-, hcompletion⟩
  · by_contra hcompleted
    have hterminal := (h.completed (by simpa using hcompleted)).1
    rw [hrunning] at hterminal
    cases hterminal
  · by_contra hcompleted
    have hallows := hcompletion (by simpa using hcompleted)
    rw [hkind] at hallows
    cases hallows

/-- Events that say nothing about a kind of record leave what is recorded as it is. -/
theorem recorded_same {β : Type} {f : SigningEvent ω → Option β} {e : SigningEvent ω}
    (h : f e = none) : (journal ++ [e]).filterMap f = journal.filterMap f := by
  rw [List.filterMap_append, List.filterMap_cons_none h, List.filterMap_nil, List.append_nil]

/-- The record of one request changes, and the journal records the same change: `f` is what an
event says about a request, `g` what the record stands for. -/
theorem recorded_set {β γ : Type} {r : Record γ} {value : γ}
    {f : OperationalStage → Text → SigningEvent ω → Option β} {g : Option γ → List β}
    {e : SigningEvent ω} {stage₀ : OperationalStage} {requestDigest₀ : Text} {y : β}
    (hnow : ∀ stage requestDigest, f stage requestDigest e =
      if stage₀ = stage ∧ requestDigest₀ = requestDigest then some y else none)
    (hnext : g (some value) = g (r.find (chainAttemptKey stage₀ requestDigest₀)) ++ [y])
    (h : ∀ stage requestDigest, journal.filterMap (f stage requestDigest) =
      g (r.find (chainAttemptKey stage requestDigest)))
    (stage : OperationalStage) (requestDigest : Text) :
    (journal ++ [e]).filterMap (f stage requestDigest) =
      g ((r.set (chainAttemptKey stage₀ requestDigest₀) value).find
        (chainAttemptKey stage requestDigest)) := by
  rw [Record.find_set, List.filterMap_append, h stage requestDigest]
  by_cases hrequest : stage₀ = stage ∧ requestDigest₀ = requestDigest
  · obtain ⟨rfl, rfl⟩ := hrequest
    rw [if_pos rfl, hnext, List.filterMap_cons_some ((hnow _ _).trans (if_pos ⟨rfl, rfl⟩)),
      List.filterMap_nil]
  · have hkey : chainAttemptKey stage requestDigest ≠ chainAttemptKey stage₀ requestDigest₀ := by
      intro hsame
      obtain ⟨hstage, hdigest⟩ := chainAttemptKey_inj.mp hsame
      exact hrequest ⟨hstage.symm, hdigest.symm⟩
    rw [if_neg hkey, List.filterMap_cons_none ((hnow _ _).trans (if_neg hrequest)),
      List.filterMap_nil, List.append_nil]

/-- An event that ends no cycle leaves a running cycle running. -/
theorem running_concat {e : SigningEvent ω} (he : e.isTerminal = false)
    (h : ∀ e ∈ journal, ¬ e.isTerminal) : ∀ e' ∈ journal ++ [e], ¬ e'.isTerminal := by
  intro e' hmem
  rcases List.mem_append.mp hmem with hold | hnew
  · exact h e' hold
  · rw [List.mem_singleton.mp hnew, he]
    exact Bool.false_ne_true

/-- The next state of a chain attempt is recorded. -/
theorem Agrees.attempt (h : Agrees cycleId journal s) {e : SigningEvent ω}
    (value : ChainTransactionAttempt) {record : ChainAttemptRecord}
    (hstate : ∀ stage requestDigest, e.attemptState stage requestDigest =
      if value.stage = stage ∧ value.requestDigest = requestDigest then some value.state else none)
    (hbinding : ∀ stage requestDigest, e.preSignBinding stage requestDigest = none)
    (hledger : ∀ stage requestDigest, e.ledgerState stage requestDigest = none)
    (hterminal : e.isTerminal = false) (hrecord : record.attempt = value)
    (hcycle : value.cycleId = cycleId)
    (hvalid : assertChainTransactionAttempt value "stored chain transaction attempt" = .ok value)
    (hcompleted : s.completed = false)
    (hhistory : value.state.history =
      ((s.chainAttempts.find (chainAttemptKey value.stage value.requestDigest)).elim [] fun previous =>
        previous.attempt.state.history) ++ [value.state]) :
    Agrees cycleId (journal ++ [e]) { s with
      chainAttempts :=
        s.chainAttempts.set (chainAttemptKey value.stage value.requestDigest) record } where
  attempts := by
    refine recorded_set (f := SigningEvent.attemptState)
      (g := fun found : Option ChainAttemptRecord => found.elim [] fun r => r.attempt.state.history)
      hstate ?_ h.attempts
    rw [← hhistory, Option.elim_some, hrecord]
  attemptKeys := by
    intro key found hfind
    dsimp only at hfind
    rw [Record.find_set] at hfind
    split at hfind
    · rename_i hkey
      cases hfind
      rw [hrecord]
      exact ⟨hkey, hcycle, assertChainTransactionAttempt_label _ hvalid⟩
    · exact h.attemptKeys key found hfind
  bindings stage requestDigest :=
    (recorded_same (hbinding stage requestDigest)).trans (h.bindings stage requestDigest)
  ledgers stage requestDigest :=
    (recorded_same (hledger stage requestDigest)).trans (h.ledgers stage requestDigest)
  ledgerKeys := h.ledgerKeys
  running hrunning := running_concat hterminal (h.running hrunning)
  completed := by
    intro hdone
    rw [hcompleted] at hdone
    cases hdone

/-- The next state of the invocations of a request is recorded. -/
theorem Agrees.ledger (h : Agrees cycleId journal s) {e : SigningEvent ω}
    (value : SignOnlyInvocationLedger)
    (hattempt : ∀ stage requestDigest, e.attemptState stage requestDigest = none)
    (hbinding : ∀ stage requestDigest, e.preSignBinding stage requestDigest = none)
    (hstate : ∀ stage requestDigest, e.ledgerState stage requestDigest =
      if value.stage = stage ∧ value.requestDigest = requestDigest then some value.state else none)
    (hterminal : e.isTerminal = false) (hcycle : value.cycleId = cycleId)
    (hhistory : value.state.history =
      ((s.signOnlyInvocationLedgers.find (chainAttemptKey value.stage value.requestDigest)).elim []
        fun previous => previous.state.history) ++ [value.state]) :
    Agrees cycleId (journal ++ [e]) { s with
      signOnlyInvocationLedgers :=
        s.signOnlyInvocationLedgers.set (chainAttemptKey value.stage value.requestDigest) value } where
  attempts stage requestDigest :=
    (recorded_same (hattempt stage requestDigest)).trans (h.attempts stage requestDigest)
  attemptKeys := h.attemptKeys
  bindings stage requestDigest :=
    (recorded_same (hbinding stage requestDigest)).trans (h.bindings stage requestDigest)
  ledgers := by
    exact recorded_set (f := SigningEvent.ledgerState)
      (g := fun found : Option SignOnlyInvocationLedger => found.elim [] fun l => l.state.history)
      hstate hhistory h.ledgers
  ledgerKeys := by
    intro key found hfind
    dsimp only at hfind
    rw [Record.find_set] at hfind
    split at hfind
    · rename_i hkey
      cases hfind
      exact ⟨hkey, hcycle⟩
    · exact h.ledgerKeys key found hfind
  running hrunning := running_concat hterminal (h.running hrunning)
  completed := h.completed

/-- A binding is recorded, the first of its request. -/
theorem Agrees.binding (h : Agrees cycleId journal s) {value : SignOnlyPreSignBinding}
    (hnew : s.signOnlyPreSignBindings.find (chainAttemptKey value.stage value.requestDigest) = none) :
    Agrees cycleId (journal ++ [.signOnlyPreSignBindingPersisted value]) { s with
      signOnlyPreSignBindings :=
        s.signOnlyPreSignBindings.set (chainAttemptKey value.stage value.requestDigest) value } where
  attempts stage requestDigest :=
    (recorded_same (f := SigningEvent.attemptState _ _) rfl).trans (h.attempts stage requestDigest)
  attemptKeys := h.attemptKeys
  bindings := by
    refine recorded_set (f := SigningEvent.preSignBinding) (g := Option.toList) (fun _ _ => rfl) ?_
      h.bindings
    rw [hnew]
    rfl
  ledgers stage requestDigest :=
    (recorded_same (f := SigningEvent.ledgerState _ _) rfl).trans (h.ledgers stage requestDigest)
  ledgerKeys := h.ledgerKeys
  running hrunning := running_concat rfl (h.running hrunning)
  completed := h.completed

/-- An event that says nothing about attempts, bindings and invocations. -/
theorem Agrees.silent (h : Agrees cycleId journal s) {e : SigningEvent ω}
    (hattempt : ∀ stage requestDigest, e.attemptState stage requestDigest = none)
    (hbinding : ∀ stage requestDigest, e.preSignBinding stage requestDigest = none)
    (hledger : ∀ stage requestDigest, e.ledgerState stage requestDigest = none)
    (hattempts : t.chainAttempts = s.chainAttempts)
    (hbindings : t.signOnlyPreSignBindings = s.signOnlyPreSignBindings)
    (hledgers : t.signOnlyInvocationLedgers = s.signOnlyInvocationLedgers)
    (hrunning : t.terminalState = none → s.terminalState = none ∧ e.isTerminal = false)
    (hcompleted : t.completed → t.terminalState = some .completed ∧
      ∀ key record, s.chainAttempts.find key = some record → record.attempt.state = .finalized) :
    Agrees cycleId (journal ++ [e]) t where
  attempts stage requestDigest := by
    rw [hattempts]
    exact (recorded_same (hattempt stage requestDigest)).trans (h.attempts stage requestDigest)
  attemptKeys := by
    rw [hattempts]
    exact h.attemptKeys
  bindings stage requestDigest := by
    rw [hbindings]
    exact (recorded_same (hbinding stage requestDigest)).trans (h.bindings stage requestDigest)
  ledgers stage requestDigest := by
    rw [hledgers]
    exact (recorded_same (hledger stage requestDigest)).trans (h.ledgers stage requestDigest)
  ledgerKeys := by
    rw [hledgers]
    exact h.ledgerKeys
  running := by
    intro hnone
    obtain ⟨hbefore, he⟩ := hrunning hnone
    exact running_concat he (h.running hbefore)
  completed := by
    rw [hattempts]
    exact hcompleted

/-- What one event preserves. -/
theorem Agrees.step (h : Agrees cycleId journal s) {e : SigningEvent ω}
    (happly : s.apply others cycleId e = .ok t) : Agrees cycleId (journal ++ [e]) t := by
  obtain ⟨hallowed, hreplay⟩ := apply_eq_ok.mp happly
  cases e with
  | chainAttemptPrepared stage value =>
    obtain ⟨hvalid, hcycle, -, hstate, hnew, rfl⟩ := replayPrepared_eq_ok.mp hreplay
    apply h.attempt value (fun _ _ => rfl) (fun _ _ => rfl) (fun _ _ => rfl) rfl rfl hcycle hvalid
      (h.not_completed hallowed rfl)
    rw [hnew, hstate]
    rfl
  | chainAttemptSigned stage value =>
    obtain ⟨previous, hvalid, hfind, hbefore, hafter, hcycle, -, -, -, rfl⟩ :=
      replaySigned_eq_ok.mp hreplay
    apply h.attempt value (fun _ _ => rfl) (fun _ _ => rfl) (fun _ _ => rfl) rfl rfl hcycle hvalid
      (h.not_completed hallowed rfl)
    rw [hfind, Option.elim_some, hbefore, hafter]
    rfl
  | chainAttemptBroadcast stage value evidence =>
    obtain ⟨observed, previous, hvalid, -, hfind, hbefore, hafter, hcycle, -, -, -, rfl⟩ :=
      replayObserved_eq_ok.mp hreplay
    apply h.attempt value (fun _ _ => rfl) (fun _ _ => rfl) (fun _ _ => rfl) rfl rfl hcycle hvalid
      (h.not_completed hallowed rfl)
    rw [hfind, Option.elim_some, hbefore, hafter]
    rfl
  | chainAttemptFinalized stage value evidence =>
    obtain ⟨observed, previous, hvalid, -, hfind, hbefore, hafter, hcycle, -, -, -, rfl⟩ :=
      replayObserved_eq_ok.mp hreplay
    apply h.attempt value (fun _ _ => rfl) (fun _ _ => rfl) (fun _ _ => rfl) rfl rfl hcycle hvalid
      (h.not_completed hallowed rfl)
    rw [hfind, Option.elim_some, hbefore, hafter]
    rfl
  | chainAttemptRecoveryContextRecorded context =>
    obtain ⟨-, -, -, rfl⟩ := replayRecoveryContext_eq_ok.mp hreplay
    exact h.silent (fun _ _ => rfl) (fun _ _ => rfl) (fun _ _ => rfl) rfl rfl rfl
      (fun hnone => ⟨hnone, rfl⟩) h.completed
  | signOnlyPreSignBindingPersisted binding =>
    obtain ⟨-, -, -, hnew, rfl⟩ := replayBinding_eq_ok.mp hreplay
    exact h.binding hnew
  | signOnlyInvocationReserved ledger =>
    obtain ⟨-, hcycle, -, hreserved, rfl⟩ := replayReserved_eq_ok.mp hreplay
    apply h.ledger ledger (fun _ _ => rfl) (fun _ _ => rfl) (fun _ _ => rfl) rfl hcycle
    -- the first invocation has no ledger before it, the second one that timed out
    rcases assertReserved_eq_ok.mp hreserved with ⟨hstate, hnew, -⟩ | ⟨previous, hstate, hfind, hbefore, -⟩
    · rw [hnew, hstate]
      rfl
    · rw [hfind, Option.elim_some, hbefore, hstate]
      rfl
  | signOnlyInvocationTimedOut ledger =>
    obtain ⟨previous, -, hcycle, hfind, hbefore, htransition, rfl⟩ := replayTimedOut_eq_ok.mp hreplay
    apply h.ledger ledger (fun _ _ => rfl) (fun _ _ => rfl) (fun _ _ => rfl) rfl hcycle
    have hpermitted := (transitionSignOnlyInvocationLedger_ok htransition).2.1
    rw [hfind, Option.elim_some]
    rw [hbefore] at hpermitted ⊢
    -- the permitted transitions are those of the history, by cases on the two states
    cases hstate : ledger.state <;> rw [hstate] at hpermitted <;>
      simp [SignOnlyInvocationLedgerState.permitted, SignOnlyInvocationLedgerState.history] at hpermitted ⊢
  | cycleTerminal terminalState evidence =>
    cases hreplay
    -- a terminal event after a completion would not have been allowed
    have hcompleted := h.not_completed hallowed rfl
    refine h.silent (fun _ _ => rfl) (fun _ _ => rfl) (fun _ _ => rfl) rfl rfl rfl ?_ ?_
    · intro hnone
      cases hnone
    · intro hdone
      rw [hcompleted] at hdone
      cases hdone
  | cycleCompleted =>
    obtain ⟨-, hfinal, rfl⟩ := replayCompleted_eq_ok.mp hreplay
    refine h.silent (fun _ _ => rfl) (fun _ _ => rfl) (fun _ _ => rfl) rfl rfl rfl ?_ ?_
    · intro hnone
      cases hnone
    · intro _
      exact ⟨rfl, assertChainAttemptsFinalized_eq_ok.mp hfinal⟩
  | other record =>
    cases hreplay
    exact h.silent (fun _ _ => rfl) (fun _ _ => rfl) (fun _ _ => rfl) rfl rfl rfl
      (fun hnone => ⟨hnone, rfl⟩) h.completed

theorem agrees_empty : Agrees cycleId ([] : List (SigningEvent ω)) .empty where
  attempts _ _ := rfl
  attemptKeys _ _ hfind := by cases hfind
  bindings _ _ := rfl
  ledgers _ _ := rfl
  ledgerKeys _ _ hfind := by cases hfind
  running _ _ he := by cases he
  completed hdone := by cases hdone

/-- A journal that replays agrees with what it replays to. -/
theorem agrees_of_replay
    (h : replay (fun s e => SigningState.apply others cycleId s e) .empty journal = .ok s) :
    Agrees cycleId journal s :=
  replay_invariant (I := Agrees cycleId) agrees_empty (fun _ _ _ _ hI happly => hI.step happly) h

/-! ## What stays true of the state -/

theorem bindsSignedBytes_iff {context : ChainAttemptRecoveryContext} :
    s.bindsSignedBytes context ↔ isRecipientPagedRecoveryContext context ∨
      ∃ chain, s.chainAttempts.find (chainAttemptKey context.stage context.requestDigest) = some chain ∧
        chain.attempt.state ≠ .prepared ∧ chain.attempt.hash = some context.rawSignedBytesHash := by
  unfold SigningState.bindsSignedBytes
  cases s.chainAttempts.find (chainAttemptKey context.stage context.requestDigest) <;> simp

/-- A request that was bound stays bound, bytes that were signed stay signed. -/
structure Later (s t : SigningState ω) : Prop where
  bound : ∀ key, (s.signOnlyPreSignBindings.find key).isSome →
    (t.signOnlyPreSignBindings.find key).isSome
  signedBytes : ∀ context, s.bindsSignedBytes context → t.bindsSignedBytes context

theorem Later.trans {u : SigningState ω} (h : Later s t) (h' : Later t u) : Later s u where
  bound key hkey := h'.bound key (h.bound key hkey)
  signedBytes context hcontext := h'.signedBytes context (h.signedBytes context hcontext)

/-- Nothing of both changes. -/
theorem later_of_eq (hattempts : t.chainAttempts = s.chainAttempts)
    (hbindings : t.signOnlyPreSignBindings = s.signOnlyPreSignBindings) : Later s t where
  bound key hkey := by
    rw [hbindings]
    exact hkey
  signedBytes context hcontext := by
    rw [bindsSignedBytes_iff] at hcontext ⊢
    rw [hattempts]
    exact hcontext

/-- A chain attempt goes on, and its bytes are the same if they were signed. -/
theorem later_of_attempt {key : Text} {record : ChainAttemptRecord}
    (hsame : ∀ previous, s.chainAttempts.find key = some previous →
      previous.attempt.state ≠ .prepared →
      record.attempt.state ≠ .prepared ∧ record.attempt.hash = previous.attempt.hash) :
    Later s { s with chainAttempts := s.chainAttempts.set key record } where
  bound _ hkey := hkey
  signedBytes context hcontext := by
    rw [bindsSignedBytes_iff] at hcontext ⊢
    refine hcontext.imp_right ?_
    rintro ⟨chain, hfind, hstate, hhash⟩
    dsimp only
    rw [Record.find_set]
    split
    · rename_i hkey
      rw [hkey] at hfind
      obtain ⟨hstate', hhash'⟩ := hsame chain hfind hstate
      exact ⟨record, rfl, hstate', hhash'.trans hhash⟩
    · exact ⟨chain, hfind, hstate, hhash⟩

theorem Later.step {e : SigningEvent ω} (happly : s.apply others cycleId e = .ok t) : Later s t := by
  obtain ⟨-, hreplay⟩ := apply_eq_ok.mp happly
  cases e with
  | chainAttemptPrepared stage value =>
    obtain ⟨-, -, -, -, hnew, rfl⟩ := replayPrepared_eq_ok.mp hreplay
    apply later_of_attempt
    -- no attempt was there, so there is none to compare with
    intro previous hfind
    rw [hnew] at hfind
    cases hfind
  | chainAttemptSigned stage value =>
    obtain ⟨previous, -, hfind, hbefore, -, -, -, -, -, rfl⟩ := replaySigned_eq_ok.mp hreplay
    apply later_of_attempt
    intro found hfound hstate
    rw [hfind] at hfound
    cases hfound
    exact absurd hbefore hstate
  | chainAttemptBroadcast stage value evidence =>
    obtain ⟨observed, previous, -, -, hfind, -, hafter, -, -, -, htransition, rfl⟩ :=
      replayObserved_eq_ok.mp hreplay
    apply later_of_attempt
    intro found hfound _
    rw [hfind] at hfound
    cases hfound
    -- an observation changes the state of the attempt but none of its material
    have hvalue := (transitionChainTransactionAttempt_observed htransition).2.1
    refine ⟨?_, ?_⟩
    · rw [hafter]
      decide
    · rw [hvalue]
  | chainAttemptFinalized stage value evidence =>
    obtain ⟨observed, previous, -, -, hfind, -, hafter, -, -, -, htransition, rfl⟩ :=
      replayObserved_eq_ok.mp hreplay
    apply later_of_attempt
    intro found hfound _
    rw [hfind] at hfound
    cases hfound
    have hvalue := (transitionChainTransactionAttempt_observed htransition).2.1
    refine ⟨?_, ?_⟩
    · rw [hafter]
      decide
    · rw [hvalue]
  | chainAttemptRecoveryContextRecorded context =>
    obtain ⟨-, -, -, rfl⟩ := replayRecoveryContext_eq_ok.mp hreplay
    exact later_of_eq rfl rfl
  | signOnlyPreSignBindingPersisted binding =>
    obtain ⟨-, -, -, -, rfl⟩ := replayBinding_eq_ok.mp hreplay
    constructor
    · intro key hkey
      dsimp only
      rw [Record.find_set]
      split
      · rfl
      · exact hkey
    · exact fun _ hcontext => hcontext
  | signOnlyInvocationReserved ledger =>
    obtain ⟨-, -, -, -, rfl⟩ := replayReserved_eq_ok.mp hreplay
    exact later_of_eq rfl rfl
  | signOnlyInvocationTimedOut ledger =>
    obtain ⟨previous, -, -, -, -, -, rfl⟩ := replayTimedOut_eq_ok.mp hreplay
    exact later_of_eq rfl rfl
  | cycleTerminal terminalState evidence =>
    cases hreplay
    exact later_of_eq rfl rfl
  | cycleCompleted =>
    obtain ⟨-, -, rfl⟩ := replayCompleted_eq_ok.mp hreplay
    exact later_of_eq rfl rfl
  | other record =>
    cases hreplay
    exact later_of_eq rfl rfl

theorem Later.foldl {events : List (SigningEvent ω)}
    (h : events.foldlM (fun s e => SigningState.apply others cycleId s e) s = .ok t) : Later s t := by
  induction events generalizing s with
  | nil =>
    cases h
    exact later_of_eq rfl rfl
  | cons e events ih =>
    rw [List.foldlM_cons, bind_eq_ok] at h
    obtain ⟨next, hnext, hrest⟩ := h
    exact (Later.step hnext).trans (ih hrest)

/-! ## What a call keeps -/

variable (cycleId s) in
/-- What is true of a call between its reading and its commit. -/
def SigningWrite.Sound : SigningWrite ω → Prop
  | .prepared stage attempt =>
    assertChainTransactionAttempt attempt "chain transaction attempt" = .ok attempt ∧
      attempt.cycleId = cycleId ∧ attempt.stage = stage ∧ attempt.state = .prepared
  | .signed _ stage requestDigest current attempt recovery =>
    current.attempt.state = .prepared ∧
      transitionChainTransactionAttempt current.attempt .signed
        (some ⟨attempt.rawBytes, attempt.nonce, attempt.blockhash, attempt.hash⟩) = .ok attempt ∧
      ∀ c ∈ recovery, assertChainAttemptRecoveryContextInput cycleId c = .ok () ∧
        c.stage = stage ∧ c.requestDigest = requestDigest ∧ attempt.hash = some c.rawSignedBytesHash
  | .broadcast _ _ current attempt evidence =>
    current.attempt.state = .signed ∧
      transitionChainTransactionAttempt current.attempt .broadcast none = .ok attempt ∧
      ∀ label, SigningState.cloneChainObservationEvidence evidence label = .ok evidence
  | .finalized _ _ current attempt evidence =>
    current.attempt.state = .broadcast ∧
      transitionChainTransactionAttempt current.attempt .finalized none = .ok attempt ∧
      ∀ label, SigningState.cloneChainObservationEvidence evidence label = .ok evidence
  | .context recovery =>
    assertChainAttemptRecoveryContextInput cycleId recovery = .ok () ∧ s.bindsSignedBytes recovery
  | .binding stage requestDigest value =>
    (∀ label, assertSignOnlyPreSignBinding value label = .ok ()) ∧ value.cycleId = cycleId ∧
      value.stage = stage ∧ value.requestDigest = requestDigest
  | .reserved stage requestDigest ordinal currentLedger ledger =>
    (ordinal = 1 ∨ ordinal = 2) ∧
      (s.signOnlyPreSignBindings.find (chainAttemptKey stage requestDigest)).isSome ∧
      SigningState.reservedLedger cycleId stage requestDigest ordinal currentLedger = .ok ledger
  | .timedOut _ _ ordinal currentLedger ledger =>
    currentLedger.state = (if ordinal = 1 then .ordinal1Allocated else .ordinal2Allocated) ∧
      transitionSignOnlyInvocationLedger currentLedger
        (if ordinal = 1 then .ordinal1TimedOut else .ordinal2TimedOut) = .ok ledger
  | .held _ _ | .completed | .other _ => True

theorem SigningWrite.Sound.later {p : SigningWrite ω} (h : p.Sound cycleId s) (hlater : Later s t) :
    p.Sound cycleId t := by
  cases p with
  | context context => exact ⟨h.1, hlater.signedBytes context h.2⟩
  | reserved stage requestDigest ordinal currentLedger ledger =>
    exact ⟨h.1, hlater.bound _ h.2.1, h.2.2⟩
  | _ => exact h

theorem assertNotTerminal_eq_ok {operation : String} {u : Unit} :
    s.assertNotTerminal operation = .ok u ↔ s.terminalState = none :=
  assertNotTerminal_ok

theorem chainAttemptFor_eq_ok {stage : OperationalStage} {requestDigest : Text} {operation : String}
    {chain : Option ChainAttemptRecord} :
    s.chainAttemptFor stage requestDigest operation = .ok chain ↔
      requestDigest.length ≠ 0 ∧ chain = s.chainAttempts.find (chainAttemptKey stage requestDigest) := by
  unfold SigningState.chainAttemptFor
  simp only [bind_eq_ok, revertIf_eq_ok, pure_eq_ok]
  constructor
  · rintro ⟨_, hlength, hchain⟩
    exact ⟨hlength, hchain.symm⟩
  · rintro ⟨hlength, hchain⟩
    exact ⟨(), hlength, hchain.symm⟩

/-- What a successful clone gives is the same for every label. -/
theorem cloneChainObservationEvidence_ok {value observed : Value} {label : String}
    (h : SigningState.cloneChainObservationEvidence value label = .ok observed) :
    observed = value ∧ ∀ other,
      SigningState.cloneChainObservationEvidence observed other = .ok observed := by
  cases value with
  | object fields =>
    have hclone := h
    unfold SigningState.cloneChainObservationEvidence SigningState.cloneEvidence at h
    simp only [bind_eq_ok, pure_eq_ok] at h
    obtain ⟨_, -, rfl⟩ := h
    exact ⟨rfl, fun _ => hclone⟩
  | _ => cases h

theorem assertSignOnlyPreSignBinding_label {binding : SignOnlyPreSignBinding} {label : String}
    {u : Unit} (other : String) (h : assertSignOnlyPreSignBinding binding label = .ok u) :
    assertSignOnlyPreSignBinding binding other = .ok () := by
  unfold assertSignOnlyPreSignBinding assertNonEmptyString Repository.assertDigest at *
  simp only [bind_eq_ok, revertIf_eq_ok] at h ⊢
  exact h

end Replay

/-! ## Before the append -/

section Reading

variable {ω : Type} {others : OtherRecords ω} {cycleId : Text} {s : SigningState ω}

theorem signedAttempt_ok {current attempt : ChainTransactionAttempt} {material : SigningMaterial}
    (h : SigningState.signedAttempt current material = .ok attempt)
    (hstate : current.state = .prepared)
    (hvalid : assertChainTransactionAttempt current "chain transaction attempt" = .ok current) :
    transitionChainTransactionAttempt current .signed
      (some ⟨attempt.rawBytes, attempt.nonce, attempt.blockhash, attempt.hash⟩) = .ok attempt := by
  unfold SigningState.signedAttempt at h
  have hmaterial := (transitionChainTransactionAttempt_signed h).2.1
  rw [← hmaterial]
  -- a prepared attempt has no signing material to take away
  have hsame : current = { current with
      state := .prepared, rawBytes := none, nonce := none, blockhash := none, hash := none } := by
    unfold assertChainTransactionAttempt assertAttemptMaterial at hvalid
    rw [hstate] at hvalid
    simp only [bind_eq_ok, revertIf_eq_ok, not_or, not_not, ne_eq] at hvalid
    obtain ⟨_, -, _, -, _, ⟨hraw, hnonce, hblockhash, hhash⟩, -⟩ := hvalid
    cases current
    simp_all only
  rw [hsame]
  exact h

variable {journal : List (SigningEvent ω)} {p : SigningWrite ω}

/-- What a call keeps is what its commit relies on. -/
theorem Agrees.read_keep (h : Agrees cycleId journal s) {c : SigningCall ω}
    (hread : s.read others cycleId c = .ok (.keep p)) : p.Sound cycleId s := by
  cases c with
  | prepareChainTransactionAttempt stage value =>
    change s.prepareChainTransactionAttempt cycleId stage value = _ at hread
    unfold SigningState.prepareChainTransactionAttempt at hread
    simp only [bind_eq_ok, revertIf_eq_ok, not_or, ne_eq, not_not] at hread
    obtain ⟨attempt, hvalid, _, ⟨hcycle, hstage, hstate⟩, _, -, hread⟩ := hread
    obtain rfl := assertChainTransactionAttempt_eq hvalid
    -- a first attempt is kept, a repeated one only answered
    split at hread
    · cases hread
      exact ⟨hvalid, hcycle, hstage, hstate⟩
    · simp only [bind_eq_ok, pure_eq_ok, reduceCtorEq, and_false, exists_false] at hread
  | recordSignedTransaction stage requestDigest material =>
    change s.recordSignedTransaction stage requestDigest material = _ at hread
    unfold SigningState.recordSignedTransaction at hread
    simp only [bind_eq_ok, required_eq_ok, chainAttemptFor_eq_ok] at hread
    obtain ⟨_, -, _, ⟨-, rfl⟩, current, hfind, attempt, hattempt, hread⟩ := hread
    split at hread
    · simp only [bind_eq_ok, pure_eq_ok, reduceCtorEq, and_false, exists_false] at hread
    · simp only [bind_eq_ok, revertIf_eq_ok, pure_eq_ok, ne_eq, not_not] at hread
      obtain ⟨_, hstate, hread⟩ := hread
      cases hread
      have hvalid := (h.attemptKeys _ _ hfind).2.2
      exact ⟨hstate, signedAttempt_ok hattempt hstate hvalid, by simp⟩
  | recordSignedTransactionWithRecoveryContext stage requestDigest material context =>
    change s.recordSignedTransactionWithRecoveryContext cycleId stage requestDigest material context
      = _ at hread
    unfold SigningState.recordSignedTransactionWithRecoveryContext at hread
    simp only [bind_eq_ok, revertIf_eq_ok, required_eq_ok, chainAttemptFor_eq_ok, not_or,
      not_not] at hread
    obtain ⟨_, hcontext, _, ⟨hstage, hdigest⟩, _, -, _, ⟨-, rfl⟩, current, hfind, attempt, hattempt, _,
      hhash, hread⟩ := hread
    split at hread
    · simp only [bind_eq_ok, pure_eq_ok, reduceCtorEq, and_false, exists_false] at hread
    · simp only [bind_eq_ok, revertIf_eq_ok, pure_eq_ok, ne_eq, not_not] at hread
      obtain ⟨_, hstate, _, -, hread⟩ := hread
      cases hread
      have hvalid := (h.attemptKeys _ _ hfind).2.2
      refine ⟨hstate, signedAttempt_ok hattempt hstate hvalid, ?_⟩
      intro c hc
      cases hc
      exact ⟨hcontext, hstage, hdigest, hhash.symm⟩
  | recordBroadcast stage requestDigest value =>
    change s.recordBroadcast stage requestDigest value = _ at hread
    unfold SigningState.recordBroadcast at hread
    simp only [bind_eq_ok, required_eq_ok, chainAttemptFor_eq_ok] at hread
    obtain ⟨evidence, hevidence, _, ⟨-, rfl⟩, current, hfind, hread⟩ := hread
    split at hread
    · simp only [bind_eq_ok, pure_eq_ok, reduceCtorEq, and_false, exists_false] at hread
    · simp only [bind_eq_ok, revertIf_eq_ok, pure_eq_ok, ne_eq, not_not] at hread
      -- the evidence is cloned, so what is kept passes the check of its own
      obtain ⟨_, hstate, attempt, hattempt, hread⟩ := hread
      cases hread
      exact ⟨hstate, hattempt, (cloneChainObservationEvidence_ok hevidence).2⟩
  | recordFinality stage requestDigest value =>
    change s.recordFinality stage requestDigest value = _ at hread
    unfold SigningState.recordFinality at hread
    simp only [bind_eq_ok, required_eq_ok, chainAttemptFor_eq_ok] at hread
    obtain ⟨evidence, hevidence, _, ⟨-, rfl⟩, current, hfind, hread⟩ := hread
    split at hread
    · simp only [bind_eq_ok, pure_eq_ok, reduceCtorEq, and_false, exists_false] at hread
    · simp only [bind_eq_ok, revertIf_eq_ok, pure_eq_ok, ne_eq, not_not] at hread
      obtain ⟨_, hstate, attempt, hattempt, hread⟩ := hread
      cases hread
      exact ⟨hstate, hattempt, (cloneChainObservationEvidence_ok hevidence).2⟩
  | persistChainAttemptRecoveryContext context =>
    change s.persistChainAttemptRecoveryContext cycleId context = _ at hread
    unfold SigningState.persistChainAttemptRecoveryContext at hread
    simp only [bind_eq_ok, revertIf_eq_ok, not_not] at hread
    obtain ⟨_, hcontext, _, -, _, hsigned, hread⟩ := hread
    split at hread
    · cases hread
      exact ⟨hcontext, hsigned⟩
    · simp only [bind_eq_ok, pure_eq_ok, reduceCtorEq, and_false, exists_false] at hread
  | persistSignOnlyPreSignBinding stage requestDigest binding =>
    change s.persistSignOnlyPreSignBinding cycleId stage requestDigest binding = _ at hread
    unfold SigningState.persistSignOnlyPreSignBinding at hread
    simp only [bind_eq_ok, revertIf_eq_ok, not_or, ne_eq, not_not] at hread
    obtain ⟨_, hvalid, _, ⟨hcycle, hstage, hdigest⟩, _, -, _, -, _, -, hread⟩ := hread
    split at hread
    · cases hread
      exact ⟨fun label => assertSignOnlyPreSignBinding_label label hvalid, hcycle, hstage, hdigest⟩
    · simp only [bind_eq_ok, pure_eq_ok, reduceCtorEq, and_false, exists_false] at hread
  | reserveSignOnlyInvocation stage requestDigest ordinal =>
    change s.reserveSignOnlyInvocation cycleId stage requestDigest ordinal = _ at hread
    unfold SigningState.reserveSignOnlyInvocation at hread
    simp only [bind_eq_ok, revertIf_eq_ok, pure_eq_ok, not_not] at hread
    obtain ⟨_, hordinal, _, -, _, hbound, _, -, _, -, ledger, hledger, hread⟩ := hread
    cases hread
    exact ⟨by tauto, hbound, hledger⟩
  | recordSignOnlyInvocationTimeout stage requestDigest ordinal =>
    change s.recordSignOnlyInvocationTimeout stage requestDigest ordinal = _ at hread
    unfold SigningState.recordSignOnlyInvocationTimeout at hread
    simp only [bind_eq_ok, revertIf_eq_ok, required_eq_ok] at hread
    obtain ⟨_, -, _, -, currentLedger, -, hread⟩ := hread
    -- a ledger that has timed out already is answered
    by_cases hdone : currentLedger.state =
        if ordinal = 1 then SignOnlyInvocationLedgerState.ordinal1TimedOut else .ordinal2TimedOut
    · rw [if_pos hdone] at hread
      cases hread
    · rw [if_neg hdone] at hread
      simp only [bind_eq_ok, revertIf_eq_ok, pure_eq_ok, ne_eq, not_not] at hread
      obtain ⟨_, hstate, ledger, hledger, hread⟩ := hread
      cases hread
      exact ⟨hstate, hledger⟩
  | holdCycle terminalState evidence =>
    change s.holdCycle terminalState evidence = _ at hread
    unfold SigningState.holdCycle at hread
    simp only [bind_eq_ok] at hread
    obtain ⟨_, -, hread⟩ := hread
    split at hread
    · simp only [bind_eq_ok, pure_eq_ok] at hread
      obtain ⟨_, -, hread⟩ := hread
      cases hread
      trivial
    · simp only [bind_eq_ok, pure_eq_ok, reduceCtorEq, and_false, exists_false] at hread
  | completeCycle =>
    change s.completeCycle others = _ at hread
    unfold SigningState.completeCycle at hread
    simp only [bind_eq_ok] at hread
    obtain ⟨_, -, hread⟩ := hread
    split at hread
    · cases hread
    · simp only [bind_eq_ok, pure_eq_ok] at hread
      obtain ⟨_, -, hread⟩ := hread
      cases hread
      trivial
  | other record =>
    cases hread
    trivial

/-- A reading grants nothing. -/
theorem read_answer {c : SigningCall ω} {stage : OperationalStage} {requestDigest : Text}
    {ordinal : Nat} {ledger : SignOnlyInvocationLedger} :
    s.read others cycleId c ≠ .ok (.answer (.granted stage requestDigest ordinal ledger)) := by
  intro hread
  cases c <;> unfold SigningState.read at hread <;> dsimp only at hread
  case prepareChainTransactionAttempt =>
    unfold SigningState.prepareChainTransactionAttempt at hread
    grind [bind_eq_ok, pure_eq_ok]
  case recordSignedTransaction =>
    unfold SigningState.recordSignedTransaction at hread
    grind [bind_eq_ok, pure_eq_ok]
  case recordSignedTransactionWithRecoveryContext =>
    unfold SigningState.recordSignedTransactionWithRecoveryContext at hread
    simp only [bind_eq_ok] at hread
    obtain ⟨_, -, _, -, _, -, _, -, _, -, _, -, _, -, hread⟩ := hread
    split at hread <;>
      simp only [bind_eq_ok, pure_eq_ok, Reading.answer.injEq, reduceCtorEq, and_false,
        exists_false] at hread
  case recordBroadcast =>
    unfold SigningState.recordBroadcast at hread
    grind [bind_eq_ok, pure_eq_ok]
  case recordFinality =>
    unfold SigningState.recordFinality at hread
    grind [bind_eq_ok, pure_eq_ok]
  case persistChainAttemptRecoveryContext =>
    unfold SigningState.persistChainAttemptRecoveryContext at hread
    grind [bind_eq_ok, pure_eq_ok]
  case persistSignOnlyPreSignBinding =>
    unfold SigningState.persistSignOnlyPreSignBinding at hread
    simp only [bind_eq_ok] at hread
    obtain ⟨_, -, _, -, _, -, _, -, _, -, hread⟩ := hread
    split at hread
    · cases hread
    · simp only [bind_eq_ok, pure_eq_ok, Reading.answer.injEq, reduceCtorEq, and_false,
        exists_false] at hread
  case reserveSignOnlyInvocation =>
    unfold SigningState.reserveSignOnlyInvocation at hread
    grind [bind_eq_ok, pure_eq_ok]
  case recordSignOnlyInvocationTimeout =>
    unfold SigningState.recordSignOnlyInvocationTimeout at hread
    grind [bind_eq_ok, pure_eq_ok]
  case holdCycle =>
    unfold SigningState.holdCycle at hread
    grind [bind_eq_ok, pure_eq_ok]
  case completeCycle =>
    unfold SigningState.completeCycle at hread
    grind [bind_eq_ok, pure_eq_ok]
  case other => cases hread

end Reading

/-! ## Inside the append -/

section Appends

variable {ω : Type} {others : OtherRecords ω} {cycleId : Text} {s : SigningState ω}
  {journal : List (SigningEvent ω)} {events : List (SigningEvent ω)} {r : SigningAnswer}

theorem assertUnchanged_eq_ok {stage : OperationalStage} {requestDigest : Text}
    {current : ChainAttemptRecord} {message : String} {u : Unit} :
    s.assertUnchanged stage requestDigest current message = .ok u ↔ ∃ latest,
      s.chainAttempts.find (chainAttemptKey stage requestDigest) = some latest ∧
        latest.attempt = current.attempt := by
  unfold SigningState.assertUnchanged
  simp only [bind_eq_ok, required_eq_ok, revertIf_eq_ok, ne_eq, not_not]

theorem foldlM_singleton {e : SigningEvent ω} {t : SigningState ω} :
    [e].foldlM (fun s e => SigningState.apply others cycleId s e) s = .ok t ↔
      s.apply others cycleId e = .ok t := by
  simp only [List.foldlM_cons, List.foldlM_nil, bind_pure]

/-- An event that replay allows only while the cycle runs. -/
theorem allowed_of_running {e : SigningEvent ω} (h : s.terminalState = none) :
    s.assertRecordAllowed others e = .ok () :=
  assertRecordAllowed_eq_ok.mpr (.inl h)

/-- The attempt that a commit found is the one of its request. -/
theorem Agrees.request (h : Agrees cycleId journal s) {stage : OperationalStage}
    {requestDigest : Text} {record : ChainAttemptRecord}
    (hfind : s.chainAttempts.find (chainAttemptKey stage requestDigest) = some record) :
    record.attempt.stage = stage ∧ record.attempt.requestDigest = requestDigest ∧
      record.attempt.cycleId = cycleId := by
  obtain ⟨hkey, hcycle, -⟩ := h.attemptKeys _ _ hfind
  obtain ⟨hstage, hdigest⟩ := chainAttemptKey_inj.mp hkey
  exact ⟨hstage.symm, hdigest.symm, hcycle⟩

theorem accepts_prepared {stage : OperationalStage} {attempt : ChainTransactionAttempt}
    (hsound : (SigningWrite.prepared stage attempt).Sound cycleId s)
    (happend : s.appendPrepared stage attempt = .ok (events, r)) :
    ∃ t, events.foldlM (fun s e => SigningState.apply others cycleId s e) s = .ok t := by
  unfold SigningState.appendPrepared at happend
  simp only [bind_eq_ok, revertIf_eq_ok, pure_eq_ok, assertNotTerminal_eq_ok, Prod.mk.injEq,
    Bool.not_eq_true, Option.isSome_eq_false_iff, Option.isNone_iff_eq_none] at happend
  obtain ⟨_, hrunning, _, hnew, rfl, -⟩ := happend
  obtain ⟨hvalid, hcycle, hstage, hstate⟩ := hsound
  rw [← hstage] at hnew
  have hreplay := replayPrepared_eq_ok.mpr
    ⟨assertChainTransactionAttempt_label _ hvalid, hcycle, hstage, hstate, hnew, rfl⟩
  exact ⟨_, foldlM_singleton.mpr (apply_eq_ok.mpr ⟨allowed_of_running hrunning, hreplay⟩)⟩

/-- The recovery context of bytes that were just signed is accepted after them. -/
theorem accepts_signed (h : Agrees cycleId journal s) {operation : String} {stage : OperationalStage}
    {requestDigest : Text} {current : ChainAttemptRecord} {attempt : ChainTransactionAttempt}
    {context : Option ChainAttemptRecoveryContext}
    (hsound : (SigningWrite.signed operation stage requestDigest current attempt context :
      SigningWrite ω).Sound cycleId s)
    (happend : s.appendSigned operation stage requestDigest current attempt context
      = .ok (events, r)) :
    ∃ t, events.foldlM (fun s e => SigningState.apply others cycleId s e) s = .ok t := by
  unfold SigningState.appendSigned at happend
  simp only [bind_eq_ok, revertIf_eq_ok, pure_eq_ok, assertNotTerminal_eq_ok, assertUnchanged_eq_ok,
    Prod.mk.injEq, not_exists, not_and, Bool.not_eq_true, Option.isSome_eq_false_iff,
    Option.isNone_iff_eq_none] at happend
  obtain ⟨_, hrunning, _, ⟨latest, hfind, hlatest⟩, _, hnew, rfl, -⟩ := happend
  obtain ⟨hstate, htransition, hcontext⟩ := hsound
  obtain ⟨hstage, hdigest, hcycle⟩ := h.request hfind
  rw [← hlatest] at hstate htransition
  obtain ⟨hnext, -, hcycle', hstage', hdigest'⟩ := transitionChainTransactionAttempt_ok htransition
  have hvalid := (transitionChainTransactionAttempt_signed htransition).2.2
  have hkey : s.chainAttempts.find (chainAttemptKey attempt.stage attempt.requestDigest)
      = some latest := by
    rw [hstage', hdigest', hstage, hdigest]
    exact hfind
  have hsigned := replaySigned_eq_ok.mpr ⟨latest, assertChainTransactionAttempt_label _ hvalid, hkey,
    hstate, hnext, hcycle'.trans hcycle, hstage'.trans hstage, hdigest', htransition, rfl⟩
  have hfirst : s.apply others cycleId (.chainAttemptSigned stage attempt) = .ok _ :=
    apply_eq_ok.mpr ⟨allowed_of_running hrunning, hsigned⟩
  cases context with
  | none => exact ⟨_, foldlM_singleton.mpr hfirst⟩
  | some c =>
    obtain ⟨hinput, hcstage, hcdigest, hhash⟩ := hcontext c rfl
    rw [Option.toList_some, List.map_cons, List.map_nil, List.foldlM_cons, hfirst, ok_bind]
    have hbinds : ({ s with
        chainAttempts := s.chainAttempts.set (chainAttemptKey attempt.stage attempt.requestDigest)
          { latest with attempt := attempt } } : SigningState ω).bindsSignedBytes c := by
      rw [bindsSignedBytes_iff]
      right
      refine ⟨{ latest with attempt := attempt }, ?_, ?_, hhash⟩
      · dsimp only
        rw [Record.find_set, if_pos]
        rw [hcstage, hcdigest, hstage', hdigest', hstage, hdigest]
      · rw [hnext]
        decide
    have hfree : ∀ previous, s.chainAttemptRecoveryContexts.find (chainAttemptRecoveryContextKey c)
        = some previous → previous = c := by
      intro previous hprevious
      rw [hnew c rfl] at hprevious
      cases hprevious
    have hreplay := replayRecoveryContext_eq_ok.mpr ⟨hinput, hbinds, hfree, rfl⟩
    exact ⟨_, foldlM_singleton.mpr (apply_eq_ok.mpr ⟨allowed_of_running hrunning, hreplay⟩)⟩

/-- A broadcast and a finality, which may also follow the end of the cycle. -/
theorem accepts_observed (h : Agrees cycleId journal s) {e : SigningEvent ω}
    {before after : ChainTransactionAttemptState} {noun : String}
    {observe : ChainAttemptRecord → Value → ChainAttemptRecord} {stage : OperationalStage}
    {requestDigest : Text} {attempt : ChainTransactionAttempt} {evidence : Value}
    {latest : ChainAttemptRecord}
    (hfind : s.chainAttempts.find (chainAttemptKey stage requestDigest) = some latest)
    (hstate : latest.attempt.state = before) (hbefore : before ≠ .finalized)
    (htransition : transitionChainTransactionAttempt latest.attempt after none = .ok attempt)
    (hevidence : ∀ label,
      SigningState.cloneChainObservationEvidence evidence label = .ok evidence)
    (hkind : e.afterTerminal others) (happly : ∀ t, s.apply others cycleId e = .ok t ↔
      s.assertRecordAllowed others e = .ok () ∧
        s.replayObserved cycleId before after noun observe stage attempt evidence = .ok t) :
    ∃ t, s.apply others cycleId e = .ok t := by
  obtain ⟨hstage, hdigest, hcycle⟩ := h.request hfind
  obtain ⟨hnext, -, hcycle', hstage', hdigest'⟩ := transitionChainTransactionAttempt_ok htransition
  have hvalid := (transitionChainTransactionAttempt_observed htransition).2.2
  have hkey : s.chainAttempts.find (chainAttemptKey attempt.stage attempt.requestDigest)
      = some latest := by
    rw [hstage', hdigest', hstage, hdigest]
    exact hfind
  refine ⟨_, (happly _).mpr ⟨assertRecordAllowed_eq_ok.mpr (.inr ⟨hkind, ?_⟩),
    replayObserved_eq_ok.mpr ⟨evidence, latest, assertChainTransactionAttempt_label _ hvalid,
      hevidence _, hkey, hstate, hnext, hcycle'.trans hcycle, hstage'.trans hstage, hdigest',
      htransition, rfl⟩⟩⟩
  -- a completed cycle has finalized attempts only
  intro hcompleted
  have hfinal := (h.completed hcompleted).2 _ _ hfind
  rw [hstate] at hfinal
  exact absurd hfinal hbefore

theorem accepts_broadcast (h : Agrees cycleId journal s) {stage : OperationalStage}
    {requestDigest : Text} {current : ChainAttemptRecord} {attempt : ChainTransactionAttempt}
    {evidence : Value}
    (hsound : (SigningWrite.broadcast stage requestDigest current attempt evidence :
      SigningWrite ω).Sound cycleId s)
    (happend : s.appendBroadcast stage requestDigest current attempt evidence = .ok (events, r)) :
    ∃ t, events.foldlM (fun s e => SigningState.apply others cycleId s e) s = .ok t := by
  unfold SigningState.appendBroadcast at happend
  simp only [bind_eq_ok, pure_eq_ok, assertUnchanged_eq_ok, Prod.mk.injEq] at happend
  obtain ⟨_, ⟨latest, hfind, hlatest⟩, rfl, -⟩ := happend
  obtain ⟨hstate, htransition, hevidence⟩ := hsound
  rw [← hlatest] at hstate htransition
  have hevent : ∃ t, s.apply others cycleId (.chainAttemptBroadcast stage attempt evidence) = .ok t :=
    accepts_observed h hfind hstate (by decide) htransition hevidence rfl fun t => apply_eq_ok
  obtain ⟨t, ht⟩ := hevent
  exact ⟨t, foldlM_singleton.mpr ht⟩

theorem accepts_finalized (h : Agrees cycleId journal s) {stage : OperationalStage}
    {requestDigest : Text} {current : ChainAttemptRecord} {attempt : ChainTransactionAttempt}
    {evidence : Value}
    (hsound : (SigningWrite.finalized stage requestDigest current attempt evidence :
      SigningWrite ω).Sound cycleId s)
    (happend : s.appendFinalized stage requestDigest current attempt evidence = .ok (events, r)) :
    ∃ t, events.foldlM (fun s e => SigningState.apply others cycleId s e) s = .ok t := by
  unfold SigningState.appendFinalized at happend
  simp only [bind_eq_ok, pure_eq_ok, assertUnchanged_eq_ok, Prod.mk.injEq] at happend
  obtain ⟨_, ⟨latest, hfind, hlatest⟩, rfl, -⟩ := happend
  obtain ⟨hstate, htransition, hevidence⟩ := hsound
  rw [← hlatest] at hstate htransition
  have hevent : ∃ t, s.apply others cycleId (.chainAttemptFinalized stage attempt evidence) = .ok t :=
    accepts_observed h hfind hstate (by decide) htransition hevidence rfl fun t => apply_eq_ok
  obtain ⟨t, ht⟩ := hevent
  exact ⟨t, foldlM_singleton.mpr ht⟩

theorem accepts_context {recovery : ChainAttemptRecoveryContext}
    (hsound : (SigningWrite.context recovery : SigningWrite ω).Sound cycleId s)
    (happend : s.appendContext recovery = .ok (events, r)) :
    ∃ t, events.foldlM (fun s e => SigningState.apply others cycleId s e) s = .ok t := by
  unfold SigningState.appendContext at happend
  simp only [bind_eq_ok, revertIf_eq_ok, pure_eq_ok, assertNotTerminal_eq_ok, Prod.mk.injEq,
    Bool.not_eq_true, Option.isSome_eq_false_iff, Option.isNone_iff_eq_none] at happend
  obtain ⟨_, hrunning, _, hnew, rfl, -⟩ := happend
  have hfree : ∀ previous, s.chainAttemptRecoveryContexts.find
      (chainAttemptRecoveryContextKey recovery) = some previous → previous = recovery := by
    intro previous hprevious
    rw [hnew] at hprevious
    cases hprevious
  have hreplay := replayRecoveryContext_eq_ok.mpr ⟨hsound.1, hsound.2, hfree, rfl⟩
  exact ⟨_, foldlM_singleton.mpr (apply_eq_ok.mpr ⟨allowed_of_running hrunning, hreplay⟩)⟩

theorem accepts_binding {stage : OperationalStage} {requestDigest : Text}
    {binding : SignOnlyPreSignBinding}
    (hsound : (SigningWrite.binding stage requestDigest binding : SigningWrite ω).Sound cycleId s)
    (happend : s.appendBinding stage requestDigest binding = .ok (events, r)) :
    ∃ t, events.foldlM (fun s e => SigningState.apply others cycleId s e) s = .ok t := by
  unfold SigningState.appendBinding at happend
  simp only [bind_eq_ok, revertIf_eq_ok, pure_eq_ok, assertNotTerminal_eq_ok, chainAttemptFor_eq_ok,
    Prod.mk.injEq, Bool.not_eq_true, Option.isSome_eq_false_iff,
    Option.isNone_iff_eq_none] at happend
  obtain ⟨_, hrunning, _, hnew, _, ⟨-, rfl⟩, _, hprepared, rfl, -⟩ := happend
  obtain ⟨hvalid, hcycle, rfl, rfl⟩ := hsound
  have hreplay := replayBinding_eq_ok.mpr ⟨hvalid _, hcycle, by simpa using hprepared, hnew, rfl⟩
  exact ⟨_, foldlM_singleton.mpr (apply_eq_ok.mpr ⟨allowed_of_running hrunning, hreplay⟩)⟩

variable (cycleId s) in
/-- What the commit of a reservation found, and the ledger that it writes. -/
structure Reserves (stage : OperationalStage) (requestDigest : Text) (ordinal : Nat)
    (ledger : SignOnlyInvocationLedger) : Prop where
  running : s.terminalState = none
  prepared : SigningState.isPrepared (s.chainAttempts.find (chainAttemptKey stage requestDigest))
  bound : (s.signOnlyPreSignBindings.find (chainAttemptKey stage requestDigest)).isSome
  request : ledger.stage = stage ∧ ledger.requestDigest = requestDigest ∧ ledger.cycleId = cycleId
  valid : ∀ label, assertSignOnlyInvocationLedger ledger label = .ok ()
  next : (ordinal = 1 ∧ ledger.state = .ordinal1Allocated ∧
      s.signOnlyInvocationLedgers.find (chainAttemptKey stage requestDigest) = none) ∨
    ∃ previous, ordinal = 2 ∧ ledger.state = .ordinal2Allocated ∧
      s.signOnlyInvocationLedgers.find (chainAttemptKey stage requestDigest) = some previous ∧
      previous.state = .ordinal1TimedOut ∧
      transitionSignOnlyInvocationLedger previous .ordinal2Allocated = .ok ledger

/-- A reservation goes through on what `Reserves` says only. -/
theorem appendReserved_ok (h : Agrees cycleId journal s) {stage : OperationalStage}
    {requestDigest : Text} {ordinal : Nat} {currentLedger : Option SignOnlyInvocationLedger}
    {ledger : SignOnlyInvocationLedger}
    (hsound : (SigningWrite.reserved stage requestDigest ordinal currentLedger ledger :
      SigningWrite ω).Sound cycleId s)
    (happend : s.appendReserved stage requestDigest ordinal currentLedger ledger = .ok (events, r)) :
    Reserves cycleId s stage requestDigest ordinal ledger ∧
      events = [.signOnlyInvocationReserved ledger] ∧
      r = .granted stage requestDigest ordinal ledger := by
  unfold SigningState.appendReserved at happend
  simp only [bind_eq_ok, revertIf_eq_ok, pure_eq_ok, assertNotTerminal_eq_ok, chainAttemptFor_eq_ok,
    Prod.mk.injEq, not_and, not_not, not_or, ne_eq] at happend
  obtain ⟨_, hrunning, _, ⟨-, rfl⟩, _, hprepared, _, hfirst, _, hsecond, rfl, rfl⟩ := happend
  obtain ⟨hordinal, hbound, hledger⟩ := hsound
  refine ⟨?_, rfl, rfl⟩
  unfold SigningState.reservedLedger at hledger
  rcases hordinal with rfl | rfl
  · rw [if_pos rfl] at hledger
    simp only [bind_eq_ok] at hledger
    obtain ⟨_, -, hledger⟩ := hledger
    obtain ⟨rfl, hvalid⟩ := createReservedSignOnlyInvocationLedger_ok hledger
    exact ⟨hrunning, hprepared, hbound, ⟨rfl, rfl, rfl⟩, hvalid,
      .inl ⟨rfl, rfl, by simpa using hfirst rfl⟩⟩
  · rw [if_neg (by decide)] at hledger
    simp only [bind_eq_ok, required_eq_ok, revertIf_eq_ok, ne_eq, not_not] at hledger
    obtain ⟨previous, rfl, _, hstate, hledger⟩ := hledger
    have hfind := (hsecond (by decide)).2
    obtain ⟨hkey, hcycle⟩ := h.ledgerKeys _ _ hfind
    obtain ⟨hstage, hdigest⟩ := chainAttemptKey_inj.mp hkey
    obtain ⟨rfl, -, hvalid⟩ := transitionSignOnlyInvocationLedger_ok hledger
    exact ⟨hrunning, hprepared, hbound, ⟨hstage.symm, hdigest.symm, hcycle⟩, hvalid,
      .inr ⟨previous, rfl, rfl, hfind, hstate, hledger⟩⟩

variable (others) in
theorem Reserves.accepts {stage : OperationalStage} {requestDigest : Text} {ordinal : Nat}
    {ledger : SignOnlyInvocationLedger}
    (h : Reserves cycleId s stage requestDigest ordinal ledger) :
    ∃ t, s.apply others cycleId (.signOnlyInvocationReserved ledger) = .ok t := by
  obtain ⟨hrunning, hprepared, hbound, ⟨rfl, rfl, hcycle⟩, hvalid, hnext⟩ := h
  have hreserved : s.assertReserved ledger = .ok () := by
    rw [assertReserved_eq_ok]
    rcases hnext with ⟨-, hstate, hnew⟩ | ⟨previous, -, hstate, hfind, hbefore, htransition⟩
    · exact .inl ⟨hstate, hnew, hbound⟩
    · exact .inr ⟨previous, hstate, hfind, hbefore, htransition⟩
  have hreplay := replayReserved_eq_ok.mpr ⟨hvalid _, hcycle, hprepared, hreserved, rfl⟩
  exact ⟨_, apply_eq_ok.mpr ⟨allowed_of_running hrunning, hreplay⟩⟩

theorem accepts_timedOut (h : Agrees cycleId journal s) {stage : OperationalStage}
    {requestDigest : Text} {ordinal : Nat} {currentLedger ledger : SignOnlyInvocationLedger}
    (hsound : (SigningWrite.timedOut stage requestDigest ordinal currentLedger ledger :
      SigningWrite ω).Sound cycleId s)
    (happend : s.appendTimedOut stage requestDigest ordinal currentLedger ledger
      = .ok (events, r)) :
    ∃ t, events.foldlM (fun s e => SigningState.apply others cycleId s e) s = .ok t := by
  unfold SigningState.appendTimedOut at happend
  simp only [bind_eq_ok, revertIf_eq_ok, pure_eq_ok, assertNotTerminal_eq_ok, Prod.mk.injEq, ne_eq,
    not_not] at happend
  obtain ⟨_, hrunning, _, hfind, rfl, -⟩ := happend
  obtain ⟨hstate, htransition⟩ := hsound
  obtain ⟨hkey, hcycle⟩ := h.ledgerKeys _ _ hfind
  obtain ⟨rfl, -, hvalid⟩ := transitionSignOnlyInvocationLedger_ok htransition
  rw [hkey] at hfind
  have hbefore : currentLedger.state =
      if (if ordinal = 1 then SignOnlyInvocationLedgerState.ordinal1TimedOut else .ordinal2TimedOut)
        = .ordinal1TimedOut then .ordinal1Allocated else .ordinal2Allocated := by
    rw [hstate]
    split <;> rfl
  have hreplay := replayTimedOut_eq_ok.mpr
    ⟨currentLedger, hvalid _, hcycle, hfind, hbefore, htransition, rfl⟩
  exact ⟨_, foldlM_singleton.mpr (apply_eq_ok.mpr ⟨allowed_of_running hrunning, hreplay⟩)⟩

theorem accepts_completed (happend : s.appendCompleted others = .ok (events, r)) :
    ∃ t, events.foldlM (fun s e => SigningState.apply others cycleId s e) s = .ok t := by
  unfold SigningState.appendCompleted SigningState.assertCycleClosure at happend
  simp only [bind_eq_ok, pure_eq_ok, assertNotTerminal_eq_ok, Prod.mk.injEq] at happend
  obtain ⟨_, hrunning, _, ⟨_, hothers, hfinal⟩, rfl, -⟩ := happend
  have hreplay := replayCompleted_eq_ok.mpr ⟨hothers, hfinal, rfl⟩
  exact ⟨_, foldlM_singleton.mpr (apply_eq_ok.mpr ⟨allowed_of_running hrunning, hreplay⟩)⟩

/-- What a commit appends is read back. -/
theorem Agrees.accepts (h : Agrees cycleId journal s) {p : SigningWrite ω} (hsound : p.Sound cycleId s)
    (happend : s.append others p = .ok (events, r)) :
    ∃ t, events.foldlM (fun s e => SigningState.apply others cycleId s e) s = .ok t := by
  cases p with
  | prepared stage attempt => exact accepts_prepared hsound happend
  | signed operation stage requestDigest current attempt context =>
    exact accepts_signed h hsound happend
  | broadcast stage requestDigest current attempt evidence =>
    exact accepts_broadcast h hsound happend
  | finalized stage requestDigest current attempt evidence =>
    exact accepts_finalized h hsound happend
  | context recovery => exact accepts_context hsound happend
  | binding stage requestDigest binding => exact accepts_binding hsound happend
  | reserved stage requestDigest ordinal currentLedger ledger =>
    obtain ⟨hreserves, rfl, -⟩ := appendReserved_ok h hsound happend
    obtain ⟨t, ht⟩ := hreserves.accepts others
    exact ⟨t, foldlM_singleton.mpr ht⟩
  | timedOut stage requestDigest ordinal currentLedger ledger =>
    exact accepts_timedOut h hsound happend
  | held terminalState evidence =>
    change s.appendHeld terminalState evidence = _ at happend
    unfold SigningState.appendHeld at happend
    simp only [bind_eq_ok, revertIf_eq_ok, pure_eq_ok, Prod.mk.injEq, Bool.not_eq_true,
      Option.isSome_eq_false_iff, Option.isNone_iff_eq_none] at happend
    obtain ⟨_, hrunning, rfl, -⟩ := happend
    exact ⟨_, foldlM_singleton.mpr (apply_eq_ok.mpr ⟨allowed_of_running hrunning, rfl⟩)⟩
  | completed => exact accepts_completed happend
  | other record =>
    change s.appendOther others record = _ at happend
    unfold SigningState.appendOther at happend
    simp only [bind_eq_ok, pure_eq_ok, Prod.mk.injEq] at happend
    obtain ⟨_, hallowed, rfl, -⟩ := happend
    exact ⟨_, foldlM_singleton.mpr (apply_eq_ok.mpr ⟨hallowed, rfl⟩)⟩

end Appends

/-! ## Grants -/

section Grants

variable {ω : Type} {others : OtherRecords ω} {cycleId : Text} {s : SigningState ω}
  {journal events : List (SigningEvent ω)} {answers : List SigningAnswer} {r : SigningAnswer}
  {fits : List (SigningEvent ω) → List (SigningEvent ω) → Bool}

/-- The state that an ordinal is granted with. -/
def allocated (ordinal : Nat) : SignOnlyInvocationLedgerState :=
  if ordinal = 1 then .ordinal1Allocated else .ordinal2Allocated

/-- Every grant has a reservation of its own in the journal, in the same order. -/
structure Granted (journal : List (SigningEvent ω)) (answers : List SigningAnswer) : Prop where
  reserved : ∀ stage requestDigest, ((grants stage requestDigest answers).map allocated).Sublist
    (ledgerStates stage requestDigest journal)
  ordinals : ∀ stage requestDigest, ∀ ordinal ∈ grants stage requestDigest answers,
    ordinal = 1 ∨ ordinal = 2

def SigningAnswer.isGrant : SigningAnswer → Bool
  | .granted _ _ _ _ => true
  | _ => false

theorem grants_concat_of_not (h : r.isGrant = false) (stage : OperationalStage)
    (requestDigest : Text) :
    grants stage requestDigest (answers ++ [r]) = grants stage requestDigest answers := by
  unfold grants
  rw [List.filterMap_append, List.filterMap_cons_none, List.filterMap_nil, List.append_nil]
  cases r <;> first
    | rfl
    | cases h

/-- The journal grows, and nothing is granted. -/
theorem Granted.grow (h : Granted journal answers) : Granted (journal ++ events) answers where
  reserved stage requestDigest := by
    unfold ledgerStates
    rw [List.filterMap_append]
    exact (h.reserved stage requestDigest).trans (List.sublist_append_left _ _)
  ordinals := h.ordinals

theorem Granted.answer (h : Granted journal answers) (hr : r.isGrant = false) :
    Granted journal (answers ++ [r]) where
  reserved stage requestDigest := by
    rw [grants_concat_of_not hr]
    exact h.reserved stage requestDigest
  ordinals stage requestDigest := by
    rw [grants_concat_of_not hr]
    exact h.ordinals stage requestDigest

theorem Reserves.allocated {stage : OperationalStage} {requestDigest : Text} {ordinal : Nat}
    {ledger : SignOnlyInvocationLedger}
    (h : Reserves cycleId s stage requestDigest ordinal ledger) :
    (ordinal = 1 ∨ ordinal = 2) ∧ ledger.state = Repository.allocated ordinal := by
  rcases h.next with ⟨rfl, hstate, -⟩ | ⟨previous, rfl, hstate, -⟩
  · exact ⟨.inl rfl, hstate⟩
  · exact ⟨.inr rfl, hstate⟩

theorem Granted.reserve (h : Granted journal answers) {stage : OperationalStage}
    {requestDigest : Text} {ordinal : Nat} {ledger : SignOnlyInvocationLedger}
    (hreserves : Reserves cycleId s stage requestDigest ordinal ledger) :
    Granted (journal ++ [.signOnlyInvocationReserved ledger])
      (answers ++ [.granted stage requestDigest ordinal ledger]) := by
  obtain ⟨hordinal, hstate⟩ := hreserves.allocated
  obtain ⟨rfl, rfl, -⟩ := hreserves.request
  have hstates : ∀ stage' requestDigest', ledgerStates stage' requestDigest'
      (journal ++ [.signOnlyInvocationReserved ledger]) =
        ledgerStates stage' requestDigest' journal ++
          if ledger.stage = stage' ∧ ledger.requestDigest = requestDigest' then
            [Repository.allocated ordinal] else [] := by
    intro stage' requestDigest'
    unfold ledgerStates
    rw [List.filterMap_append, ← hstate]
    by_cases hrequest : ledger.stage = stage' ∧ ledger.requestDigest = requestDigest' <;>
      simp [SigningEvent.ledgerState, hrequest]
  have hgrants : ∀ stage' requestDigest', grants stage' requestDigest'
      (answers ++ [.granted ledger.stage ledger.requestDigest ordinal ledger]) =
        grants stage' requestDigest' answers ++
          if ledger.stage = stage' ∧ ledger.requestDigest = requestDigest' then [ordinal] else [] := by
    intro stage' requestDigest'
    unfold grants
    rw [List.filterMap_append]
    by_cases hrequest : ledger.stage = stage' ∧ ledger.requestDigest = requestDigest' <;>
      simp [hrequest]
  constructor
  · intro stage' requestDigest'
    rw [hstates, hgrants, List.map_append]
    apply (h.reserved stage' requestDigest').append
    split <;> exact List.Sublist.refl _
  · intro stage' requestDigest' o ho
    rw [hgrants, List.mem_append] at ho
    rcases ho with hold | hnew
    · exact h.ordinals stage' requestDigest' o hold
    · split at hnew
      · rw [List.mem_singleton.mp hnew]
        exact hordinal
      · cases hnew

/-- Only the commit of a reservation grants. -/
theorem append_isGrant {p : SigningWrite ω} (happend : s.append others p = .ok (events, r))
    (hr : r.isGrant = true) : ∃ stage requestDigest ordinal currentLedger ledger,
      p = .reserved stage requestDigest ordinal currentLedger ledger := by
  cases p with
  | reserved stage requestDigest ordinal currentLedger ledger => exact ⟨_, _, _, _, _, rfl⟩
  | prepared stage attempt =>
    change s.appendPrepared stage attempt = _ at happend
    unfold SigningState.appendPrepared at happend
    simp only [bind_eq_ok, pure_eq_ok, Prod.mk.injEq] at happend
    obtain ⟨_, -, _, -, -, rfl⟩ := happend
    cases hr
  | signed operation stage requestDigest current attempt context =>
    change s.appendSigned operation stage requestDigest current attempt context = _ at happend
    unfold SigningState.appendSigned at happend
    simp only [bind_eq_ok, pure_eq_ok, Prod.mk.injEq] at happend
    obtain ⟨_, -, _, -, _, -, -, rfl⟩ := happend
    cases hr
  | broadcast stage requestDigest current attempt evidence =>
    change s.appendBroadcast stage requestDigest current attempt evidence = _ at happend
    unfold SigningState.appendBroadcast at happend
    simp only [bind_eq_ok, pure_eq_ok, Prod.mk.injEq] at happend
    obtain ⟨_, -, -, rfl⟩ := happend
    cases hr
  | finalized stage requestDigest current attempt evidence =>
    change s.appendFinalized stage requestDigest current attempt evidence = _ at happend
    unfold SigningState.appendFinalized at happend
    simp only [bind_eq_ok, pure_eq_ok, Prod.mk.injEq] at happend
    obtain ⟨_, -, -, rfl⟩ := happend
    cases hr
  | context recovery =>
    change s.appendContext recovery = _ at happend
    unfold SigningState.appendContext at happend
    simp only [bind_eq_ok, pure_eq_ok, Prod.mk.injEq] at happend
    obtain ⟨_, -, _, -, -, rfl⟩ := happend
    cases hr
  | binding stage requestDigest binding =>
    change s.appendBinding stage requestDigest binding = _ at happend
    unfold SigningState.appendBinding at happend
    simp only [bind_eq_ok, pure_eq_ok, Prod.mk.injEq] at happend
    obtain ⟨_, -, _, -, _, -, _, -, -, rfl⟩ := happend
    cases hr
  | timedOut stage requestDigest ordinal currentLedger ledger =>
    change s.appendTimedOut stage requestDigest ordinal currentLedger ledger = _ at happend
    unfold SigningState.appendTimedOut at happend
    simp only [bind_eq_ok, pure_eq_ok, Prod.mk.injEq] at happend
    obtain ⟨_, -, _, -, -, rfl⟩ := happend
    cases hr
  | held terminalState evidence =>
    change s.appendHeld terminalState evidence = _ at happend
    unfold SigningState.appendHeld at happend
    simp only [bind_eq_ok, pure_eq_ok, Prod.mk.injEq] at happend
    obtain ⟨_, -, -, rfl⟩ := happend
    cases hr
  | completed =>
    change s.appendCompleted others = _ at happend
    unfold SigningState.appendCompleted at happend
    simp only [bind_eq_ok, pure_eq_ok, Prod.mk.injEq] at happend
    obtain ⟨_, -, _, -, -, rfl⟩ := happend
    cases hr
  | other record =>
    change s.appendOther others record = _ at happend
    unfold SigningState.appendOther at happend
    simp only [bind_eq_ok, pure_eq_ok, Prod.mk.injEq] at happend
    obtain ⟨_, -, -, rfl⟩ := happend
    cases hr

/-- What single calls keep true. -/
theorem signing_upholds : (signingWriters others cycleId fits).Upholds
    (fun journal s answers =>
      replay (signingWriters others cycleId fits).apply .empty journal = .ok s ∧
        Granted journal answers)
    (fun _ s p => p.Sound cycleId s) (fun _ _ => True) where
  answer := by
    rintro journal s answers c r ⟨hreplay, hgranted⟩ hread
    refine ⟨hreplay, hgranted.answer ?_⟩
    cases r with
    | granted stage requestDigest ordinal ledger => exact absurd hread read_answer
    | _ => rfl
  keep := by
    rintro journal s answers c p ⟨hreplay, -⟩ hread
    exact (agrees_of_replay hreplay).read_keep hread
  append := by
    rintro journal s answers p events r ⟨hreplay, hgranted⟩ hsound - happend
    have hagrees := agrees_of_replay hreplay
    obtain ⟨t, ht⟩ := hagrees.accepts hsound happend
    have hafter := (replay_append_of_ok hreplay).trans ht
    refine ⟨t, ht, ⟨hafter, ?_⟩, ⟨hafter, hgranted.grow⟩, fun q hq => hq.later (Later.foldl ht)⟩
    cases hr : r.isGrant with
    | false => exact hgranted.grow.answer hr
    | true =>
      obtain ⟨stage, requestDigest, ordinal, currentLedger, ledger, rfl⟩ :=
        append_isGrant happend hr
      obtain ⟨hreserves, rfl, rfl⟩ := appendReserved_ok hagrees hsound happend
      exact hgranted.reserve hreserves

/-- A reservation goes through on a journal that allows it. -/
theorem Agrees.mayInvoke (h : Agrees cycleId journal s) {stage : OperationalStage}
    {requestDigest : Text} {ordinal : Nat} {ledger : SignOnlyInvocationLedger}
    (hreserves : Reserves cycleId s stage requestDigest ordinal ledger) :
    MayInvoke stage requestDigest ordinal journal where
  prepared := by
    obtain ⟨record, hfind, hstate⟩ := isPrepared_iff.mp hreserves.prepared
    rw [h.attempts, hfind, Option.elim_some, hstate]
    rfl
  bound := by
    obtain ⟨binding, hbinding⟩ := Option.isSome_iff_exists.mp hreserves.bound
    refine ⟨binding, ?_⟩
    rw [h.bindings, hbinding]
    rfl
  next := by
    rw [h.ledgers]
    rcases hreserves.next with ⟨rfl, -, hnew⟩ | ⟨previous, rfl, -, hfind, hstate, -⟩
    · left
      rw [hnew]
      exact ⟨rfl, rfl⟩
    · right
      rw [hfind, Option.elim_some, hstate]
      exact ⟨rfl, rfl⟩
  running := h.running hreserves.running

theorem SignOnlyInvocationLedgerState.history_sublist (state : SignOnlyInvocationLedgerState) :
    state.history.Sublist SignOnlyInvocationLedgerState.ordinal2TimedOut.history := by
  cases state <;> decide

/-- The states that are recorded for a request are the first ones of one list. -/
theorem Agrees.ledgerStates_sublist (h : Agrees cycleId journal s) (stage : OperationalStage)
    (requestDigest : Text) : (ledgerStates stage requestDigest journal).Sublist
      SignOnlyInvocationLedgerState.ordinal2TimedOut.history := by
  rw [h.ledgers]
  cases s.signOnlyInvocationLedgers.find (chainAttemptKey stage requestDigest) with
  | none => exact List.nil_sublist _
  | some ledger => exact ledger.state.history_sublist

theorem Granted.count_le (h : Granted journal answers) (hagrees : Agrees cycleId journal s)
    (stage : OperationalStage) (requestDigest : Text) (ordinal : Nat) :
    (grants stage requestDigest answers).count ordinal ≤ 1 := by
  have hstates := (h.reserved stage requestDigest).trans
    (hagrees.ledgerStates_sublist stage requestDigest)
  calc (grants stage requestDigest answers).count ordinal
      ≤ ((grants stage requestDigest answers).map allocated).count (allocated ordinal) :=
        List.count_le_count_map
    _ ≤ SignOnlyInvocationLedgerState.ordinal2TimedOut.history.count (allocated ordinal) :=
        hstates.count_le _
    _ ≤ 1 := by cases allocated ordinal <;> decide

theorem Granted.length_le (h : Granted journal answers) (hagrees : Agrees cycleId journal s)
    (stage : OperationalStage) (requestDigest : Text) :
    (grants stage requestDigest answers).length ≤ 2 := by
  have hstates := ((h.reserved stage requestDigest).trans
    (hagrees.ledgerStates_sublist stage requestDigest)).filter
      fun state => state = .ordinal1Allocated ∨ state = .ordinal2Allocated
  -- a grant is never a timeout, so the filter takes nothing of them away
  have hall : ((grants stage requestDigest answers).map allocated).filter
      (fun state => state = .ordinal1Allocated ∨ state = .ordinal2Allocated)
        = (grants stage requestDigest answers).map allocated := by
    rw [List.filter_eq_self]
    intro state hstate
    obtain ⟨ordinal, -, rfl⟩ := List.mem_map.mp hstate
    unfold allocated
    split <;> decide
  rw [hall] at hstates
  have hlength := hstates.length_le
  rw [List.length_map] at hlength
  exact hlength.trans (by decide)

variable (others cycleId fits) in
/-- What is true after every run of the writers of a cycle. -/
theorem signing_holds (moves : List (Move (SigningCall ω) Empty)) :
    (signingWriters others cycleId fits).Holds
      (fun journal s answers =>
        replay (signingWriters others cycleId fits).apply .empty journal = .ok s ∧
          Granted journal answers)
      (fun _ s p => p.Sound cycleId s)
      (stateAfterRun (signingWriters others cycleId fits).service.step (World.start []) moves) :=
  signing_upholds.run_always (fun _ _ => trivial)
    ⟨rfl, fun _ _ => List.nil_sublist _, fun _ _ _ h => by cases h⟩ moves

/-- A grant is the commit of a reservation on the journal of that moment. -/
theorem step_granted {W : World (List (SigningEvent ω)) (SigningWrite ω) SigningAnswer}
    (hW : (signingWriters others cycleId fits).Holds
      (fun journal s answers =>
        replay (signingWriters others cycleId fits).apply .empty journal = .ok s ∧
          Granted journal answers)
      (fun _ s p => p.Sound cycleId s) W)
    {m : Move (SigningCall ω) Empty} {stage : OperationalStage} {requestDigest : Text} {ordinal : Nat}
    {ledger : SignOnlyInvocationLedger}
    (h : ((signingWriters others cycleId fits).service.step W m).2
      = some (.granted stage requestDigest ordinal ledger)) :
    MayInvoke stage requestDigest ordinal W.store := by
  obtain ⟨s, hs, hreplay, -⟩ := hW.store
  have hagrees := agrees_of_replay hreplay
  rcases Service.step_answer h with ⟨c, -, hread⟩ | ⟨i, p, -, hcall, through, after, hwrites⟩
  · exact absurd ((Writers.service_read_eq_ok hs).mp hread) read_answer
  · obtain ⟨events, happend, -⟩ := (Writers.service_writes_eq_ok hs).mp hwrites
    have hsound := (Writers.replays_iff hs).mp (hW.inFlight p (List.mem_of_getElem? hcall))
    obtain ⟨stage', requestDigest', ordinal', currentLedger, ledger', rfl⟩ :=
      append_isGrant happend rfl
    obtain ⟨hreserves, -, hanswer⟩ := appendReserved_ok hagrees hsound happend
    cases hanswer
    exact hagrees.mayInvoke hreserves

/-- In every run of the calls of a cycle, with crashes anywhere, each ordinal of a request is
granted at most once and at most two grants are made. A grant is made while the attempt of the
request is prepared and the cycle runs, and the second one after the timeout of the first. The
binding of that moment is the only one that the request ever gets. -/
theorem signOnly_grants (others : OtherRecords ω) (cycleId : Text)
    (fits : List (SigningEvent ω) → List (SigningEvent ω) → Bool)
    (moves : List (Move (SigningCall ω) Empty)) :
    (∀ stage requestDigest,
      (∀ ordinal, (grants stage requestDigest
        (stateAfterRun (signingWriters others cycleId fits).service.step (World.start [])
          moves).answers).count ordinal ≤ 1) ∧
      (grants stage requestDigest
        (stateAfterRun (signingWriters others cycleId fits).service.step (World.start [])
          moves).answers).length ≤ 2) ∧
    EveryStep (signingWriters others cycleId fits).service.step
      (fun W m => ∀ stage requestDigest ordinal ledger,
        ((signingWriters others cycleId fits).service.step W m).2
          = some (.granted stage requestDigest ordinal ledger) →
        MayInvoke stage requestDigest ordinal W.store ∧
        preSignBindings stage requestDigest
          (stateAfterRun (signingWriters others cycleId fits).service.step (World.start [])
            moves).store = preSignBindings stage requestDigest W.store)
      (World.start []) moves := by
  constructor
  · intro stage requestDigest
    obtain ⟨s, -, hreplay, hgranted⟩ := (signing_holds others cycleId fits moves).store
    have hagrees := agrees_of_replay hreplay
    exact ⟨hgranted.count_le hagrees stage requestDigest, hgranted.length_le hagrees stage requestDigest⟩
  · intro before m after hmoves stage requestDigest ordinal ledger hanswer
    have hmay := step_granted (signing_holds others cycleId fits before) hanswer
    refine ⟨hmay, ?_⟩
    obtain ⟨s, -, hreplay, -⟩ := (signing_holds others cycleId fits moves).store
    have hlast := (agrees_of_replay hreplay).bindings stage requestDigest
    -- the journal at the end extends the one of the grant, and holds one binding at most
    have hgrows : (stateAfterRun (signingWriters others cycleId fits).service.step (World.start [])
        before).store <+: (stateAfterRun (signingWriters others cycleId fits).service.step
          (World.start []) moves).store := by
      rw [hmoves, stateAfterRun_append]
      exact Writers.store_extends_run _ _
    have hbindings := hgrows.filterMap (SigningEvent.preSignBinding stage requestDigest)
    obtain ⟨binding, hbinding⟩ := hmay.bound
    refine (hbindings.eq_of_length_le ?_).symm
    change (preSignBindings stage requestDigest _).length ≤ (preSignBindings stage requestDigest _).length
    rw [hlast, hbinding]
    cases s.signOnlyPreSignBindings.find (chainAttemptKey stage requestDigest) <;> simp

end Grants

end Hookemon.Repository
