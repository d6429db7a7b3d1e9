import Hookemon.Repository.GlobalKeys
import Hookemon.Repository.SignOnly

/-! # Provider mutation attempts of a stage (`app/cycle-repository.mjs`)

A stage that calls a provider first prepares an attempt. The attempt is then not sent, or sent
with an unknown outcome, answered and reconciled, and the stage is completed with the evidence of
the reconciliation. Each of these writers reads the replayed state and appends one event to the
journal, in which another function replays it.

The calls here are for one stage of one cycle.
-/

namespace Hookemon.Repository

open Hookemon.Core Hookemon.Js Hookemon.Runner

/-! ## Attempts (`cycle/money-schemas.mjs`) -/

/-- `PROVIDER_MUTATION_ATTEMPT_STATES`. -/
inductive ProviderMutationAttemptState where
  | prepared | notSent | sentUnknown | responseRecorded | reconciled
deriving DecidableEq, Repr

namespace ProviderMutationAttemptState

/-- The states that may come next. -/
def permitted : ProviderMutationAttemptState → List ProviderMutationAttemptState
  | .prepared => [.notSent, .sentUnknown, .responseRecorded]
  | .notSent => [.prepared]
  | .sentUnknown => [.responseRecorded, .reconciled]
  | .responseRecorded => [.reconciled]
  | .reconciled => []

/-- The provider may have got the call. -/
def isSent : ProviderMutationAttemptState → Bool
  | .prepared | .notSent => false
  | _ => true

/-- An answered attempt can only be reconciled. -/
theorem permitted_of_answered {state after : ProviderMutationAttemptState}
    (h : state ∈ [.responseRecorded, .reconciled]) (hpermitted : after ∈ state.permitted) :
    after = .reconciled := by
  revert h hpermitted
  cases state <;> cases after <;> decide

/-- Nothing undoes that an attempt may have been sent. -/
theorem isSent_of_permitted {state after : ProviderMutationAttemptState} (h : state.isSent)
    (hpermitted : after ∈ state.permitted) : after ∈ [.responseRecorded, .reconciled] := by
  revert h hpermitted
  cases state <;> cases after <;> decide

end ProviderMutationAttemptState

structure ProviderMutationAttempt where
  cycleId : Text
  stage : OperationalStage
  state : ProviderMutationAttemptState
  requestDigest : Text
  responseDigest : Option Text
  reconciliationDigest : Option Text
deriving DecidableEq, Repr

/-- A digest that may be null. -/
def assertOptionalDigest (value : Option Text) (label : String) : Except String Unit :=
  match value with
  | some value => assertDigest value label
  | none => .ok ()

def assertProviderMutationAttempt (value : ProviderMutationAttempt) (label : String) :
    Except String Unit := do
  assertNonEmptyString value.cycleId (label ++ " cycleId")
  assertDigest value.requestDigest (label ++ " requestDigest")
  assertOptionalDigest value.responseDigest (label ++ " responseDigest")
  assertOptionalDigest value.reconciliationDigest (label ++ " reconciliationDigest")
  throwIf (value.state ∈ [.prepared, .notSent, .sentUnknown] ∧
      (value.responseDigest ≠ none ∨ value.reconciliationDigest ≠ none))
    (label ++ " state cannot contain response or reconciliation evidence")
  throwIf (value.state = .responseRecorded ∧
      (value.responseDigest = none ∨ value.reconciliationDigest ≠ none))
    (label ++ " response-recorded state requires only a response digest")
  throwIf (value.state = .reconciled ∧ value.reconciliationDigest = none)
    (label ++ " reconciled state requires a reconciliation digest")

/-- What a transition may add to an attempt. -/
inductive ProviderEvidence where
  | responseDigest (digest : Text)
  | reconciliationDigest (digest : Text)

def ProviderMutationAttempt.extended (value : ProviderMutationAttempt) :
    Option ProviderEvidence → ProviderMutationAttempt
  | some (.responseDigest digest) => { value with responseDigest := some digest }
  | some (.reconciliationDigest digest) => { value with reconciliationDigest := some digest }
  | none => value

def transitionProviderMutationAttempt (value : ProviderMutationAttempt)
    (nextState : ProviderMutationAttemptState) (evidence : Option ProviderEvidence) :
    Except String ProviderMutationAttempt := do
  assertProviderMutationAttempt value "provider mutation attempt"
  throwIf (nextState ∉ value.state.permitted) "provider mutation attempt transition is invalid"
  let next := { value.extended evidence with state := nextState }
  assertProviderMutationAttempt next "provider mutation attempt"
  return next

/-- The record of an attempt in the replayed state. -/
structure OperationalAttempt where
  attempt : ProviderMutationAttempt
  responseEvidence : Option Value
  reconciliationEvidence : Option Value
  sentAtMs : Option Nat
  respondedAtMs : Option Nat
  failed : Bool
deriving DecidableEq

/-- The record of an attempt that was just prepared. -/
def preparedRecord (attempt : ProviderMutationAttempt) : OperationalAttempt :=
  ⟨attempt, none, none, none, none, false⟩

/-! ## Journals -/

inductive StageEvent (ω : Type) where
  | stageAttemptPrepared (attempt : ProviderMutationAttempt)
  | stageAttemptSentUnknown (attempt : ProviderMutationAttempt) (sentAtMs : Nat)
  | stageAttemptNotSent (attempt : ProviderMutationAttempt)
  | stageAttemptReprepared (attempt : ProviderMutationAttempt)
  | stageAttemptResponseRecorded (attempt : ProviderMutationAttempt) (evidence : Value)
      (respondedAtMs : Nat)
  | stageAttemptReconciled (attempt : ProviderMutationAttempt) (evidence : Value)
  | stageAttemptFailed
  | stageCompleted (evidence : Value)
  | other (e : CycleEvent ω)

/-- `POST_TERMINAL_RECORD_KINDS`, of the events of a stage. -/
def StageEvent.afterTerminal {ω : Type} : StageEvent ω → Bool
  | .stageAttemptPrepared _ | .stageCompleted _ | .other _ => false
  | _ => true

/-- What the calls share: the stage of a cycle, the digests of evidence by their domain, what
other families say of its completion, and where evidence goes that is too large for a journal. -/
structure StageContext (ω : Type) where
  cycleId : Text
  stage : OperationalStage
  evidenceDigest : String → Value → Text
  assertPrepared : List ω → Value → Except String Unit
  assertFinalized : List ω → Except String Unit
  fitsBoundedJournalPayload : Value → Bool
  pageReference : Value → Value
  resolved : Value → Value
  others : OtherRecords ω
  fits : List (StageEvent ω) → List (StageEvent ω) → Bool
  fits_congr : ∀ a b, canonicalJson a = canonicalJson b →
    fitsBoundedJournalPayload a = fitsBoundedJournalPayload b

structure StageState (ω : Type) where
  operational : Option OperationalAttempt
  completion : Option Value
  life : CycleLife ω

/-- `canonicalJson(a) !== canonicalJson(b)`, and the refusal. -/
def assertSameJson (a b : Value) (message : String) : Except String Unit := do
  let x ← canonicalJson a
  let y ← canonicalJson b
  throwIf (x ≠ y) message

/-- Evidence that was not recorded is null. -/
def evidenceValue (evidence : Option Value) : Value := evidence.getD .null

section Replay

variable {ω : Type} (X : StageContext ω)

/-- `#preparePagedStageEvidence`. -/
def storedEvidence (evidence : Value) : Value :=
  if X.fitsBoundedJournalPayload evidence then evidence else X.pageReference evidence

namespace StageState

variable (s : StageState ω)

def empty : StageState ω := ⟨none, none, .empty⟩

/-- The part of `assertReconciledCompletion` about the attempt. -/
def assertReconciled (evidence : Value) : Except String Unit :=
  match s.operational with
  | none => .ok ()
  | some operational => do
    throwIf (operational.attempt.state ≠ .reconciled)
      "cycle-repository completeStage: stage requires reconciled operational evidence"
    assertSameJson (evidenceValue operational.reconciliationEvidence) evidence
      "cycle-repository completeStage: evidence must match reconciled operational evidence"

/-- `assertPreparedOrderedCompletion` and `assertReconciledCompletion`. -/
def assertCompletable (evidence : Value) : Except String Unit := do
  X.assertPrepared s.life.records evidence
  s.assertReconciled evidence
  X.assertFinalized s.life.records

/-- The part of `assertCycleClosure` about the stage. -/
def assertClosed : CycleEvent ω → Except String Unit
  | .cycleCompleted => throwIf (s.completion = none ∨
      s.operational.any fun operational => operational.attempt.state ≠ .reconciled)
    "cycle-repository completeCycle: unresolved provider attempt"
  | _ => .ok ()

/-- The replay of an event that moves the attempt on. -/
def replayMoved (before : List ProviderMutationAttemptState) (after : ProviderMutationAttemptState)
    (noun : String) (attempt : ProviderMutationAttempt)
    (record : OperationalAttempt → OperationalAttempt) : Except String (StageState ω) := do
  s.life.assertAllowed true false
  assertProviderMutationAttempt attempt "stored provider mutation attempt"
  let previous ← required s.operational
    ("stored provider mutation " ++ noun ++ " transition is invalid")
  throwIf (previous.attempt.state ∉ before ∨ attempt.state ≠ after ∨ attempt.cycleId ≠ X.cycleId ∨
      attempt.stage ≠ X.stage ∨ attempt.requestDigest ≠ previous.attempt.requestDigest)
    ("stored provider mutation " ++ noun ++ " transition is invalid")
  return { s with operational := some (record { previous with attempt := attempt }) }

def replayPrepared (attempt : ProviderMutationAttempt) : Except String (StageState ω) := do
  s.life.assertAllowed false false
  assertProviderMutationAttempt attempt "stored provider mutation attempt"
  throwIf (attempt.cycleId ≠ X.cycleId ∨ attempt.stage ≠ X.stage ∨ attempt.state ≠ .prepared)
    "stored provider mutation preparation is invalid"
  return { s with operational := some (preparedRecord attempt) }

def replayReprepared (attempt : ProviderMutationAttempt) : Except String (StageState ω) := do
  s.life.assertAllowed true false
  assertProviderMutationAttempt attempt "stored provider mutation attempt"
  let previous ← required s.operational
    "stored provider mutation repreparation transition is invalid"
  throwIf (previous.attempt.state ≠ .notSent ∨ attempt.state ≠ .prepared ∨
      attempt.cycleId ≠ X.cycleId ∨ attempt.stage ≠ X.stage)
    "stored provider mutation repreparation transition is invalid"
  let expected ← transitionProviderMutationAttempt previous.attempt .prepared none
  throwIf (attempt ≠ expected) "stored provider mutation repreparation transition is invalid"
  return { s with operational := some (preparedRecord attempt) }

def replayFailed : Except String (StageState ω) := do
  s.life.assertAllowed true false
  return { s with operational := s.operational.map fun current => { current with failed := true } }

/-- The check of a second completion. -/
def assertUnconflicted (evidence : Value) : Except String Unit :=
  match s.completion with
  | none => .ok ()
  | some previous =>
    assertSameJson previous evidence "stored stage has conflicting completion evidence"

def replayCompleted (evidence : Value) : Except String (StageState ω) := do
  s.life.assertAllowed false false
  s.assertCompletable X evidence
  s.assertUnconflicted evidence
  return { s with completion := some evidence }

/-- The check of a stored time. -/
def assertTimestamp (value : Nat) (message : String) : Except String Unit :=
  throwIf (maxSafeInteger < (value : Int)) message

/-- `#replayStored`, one entry. -/
def apply (e : StageEvent ω) : Except String (StageState ω) :=
  match e with
  | .stageAttemptPrepared attempt => s.replayPrepared X attempt
  | .stageAttemptSentUnknown attempt sentAtMs => do
    assertTimestamp sentAtMs "stored provider mutation sent-unknown timestamp is invalid"
    s.replayMoved X [.prepared] .sentUnknown "sent-unknown" attempt
      fun record => { record with sentAtMs := some sentAtMs }
  | .stageAttemptNotSent attempt =>
    s.replayMoved X [.prepared] .notSent "not-sent" attempt fun record => record
  | .stageAttemptReprepared attempt => s.replayReprepared X attempt
  | .stageAttemptResponseRecorded attempt evidence respondedAtMs => do
    assertTimestamp respondedAtMs "stored provider mutation response timestamp is invalid"
    let responseEvidence ← SigningState.cloneEvidence evidence
    s.replayMoved X [.prepared, .sentUnknown] .responseRecorded "response" attempt fun record =>
      { record with respondedAtMs := some respondedAtMs, responseEvidence := some responseEvidence }
  | .stageAttemptReconciled attempt evidence => do
    let reconciliationEvidence ← SigningState.cloneEvidence evidence
    s.replayMoved X [.sentUnknown, .responseRecorded] .reconciled "reconciliation" attempt
      fun record => { record with reconciliationEvidence := some reconciliationEvidence }
  | .stageAttemptFailed => s.replayFailed
  | .stageCompleted evidence => s.replayCompleted X evidence
  | .other e => do
    s.assertClosed e
    let life ← s.life.apply X.others e
    return { s with life := life }

end StageState

end Replay

/-! ## Calls -/

inductive StageCall (ω : Type) where
  | prepareStageAttempt (attempt : ProviderMutationAttempt)
  | markStageAttemptSentUnknown (now : Nat)
  | markStageAttemptNotSent
  | recordStageAttemptResponse (evidence : Value) (now : Nat)
  | reconcileStageAttempt (evidence : Value)
  | recordStageAttemptFailure
  | completeStage (evidence : Value)
  | append (e : CycleEvent ω)

/-- What a call keeps after reading; `current` is the record that it has read, `next` the one
that it returns once its event is appended. -/
inductive StageKept (ω : Type) where
  | prepare (attempt : ProviderMutationAttempt)
  | reprepare (current : OperationalAttempt) (attempt : ProviderMutationAttempt)
  | observe (current : OperationalAttempt) (e : StageEvent ω) (next : OperationalAttempt)
  | fail
  | complete (evidence : Value)
  | append (e : CycleEvent ω)

inductive StageAnswer where
  | attempt (current : OperationalAttempt)
  | completed
  | recorded
deriving DecidableEq

section Calls

variable {ω : Type} (X : StageContext ω) (s : StageState ω)

def prepareStageAttempt (attempt : ProviderMutationAttempt) :
    Except String (Reading (StageKept ω) StageAnswer) := do
  assertProviderMutationAttempt attempt "provider mutation attempt"
  throwIf (attempt.cycleId ≠ X.cycleId ∨ attempt.stage ≠ X.stage ∨ attempt.state ≠ .prepared)
    "cycle-repository prepareStageAttempt attempt does not match cycle or stage"
  assertNotTerminal s.life.terminalState "prepareStageAttempt"
  match s.operational with
  | none => return .keep (.prepare attempt)
  | some current =>
    if current.attempt.state = .notSent then do
      let expected ← transitionProviderMutationAttempt attempt .notSent none
      throwIf (current.attempt ≠ expected)
        "cycle-repository prepareStageAttempt: stage already has a different pre-call attempt"
      return .keep (.reprepare current attempt)
    else do
      throwIf (current.attempt ≠ attempt)
        "cycle-repository prepareStageAttempt: stage already has an operational attempt"
      return .answer (.attempt current)

def markStageAttemptSentUnknown (now : Nat) :
    Except String (Reading (StageKept ω) StageAnswer) := do
  let current ← required s.operational
    "cycle-repository markStageAttemptSentUnknown: no prepared attempt"
  if current.attempt.state = .sentUnknown then return .answer (.attempt current)
  else do
    throwIf (current.attempt.state ≠ .prepared)
      "cycle-repository markStageAttemptSentUnknown: stage must be reconciled instead of re-sent"
    let attempt ← transitionProviderMutationAttempt current.attempt .sentUnknown none
    let sentAtMs ← currentRepositoryTime now
    return .keep (.observe current (.stageAttemptSentUnknown attempt sentAtMs)
      { current with attempt := attempt, sentAtMs := some sentAtMs })

def markStageAttemptNotSent : Except String (Reading (StageKept ω) StageAnswer) := do
  let current ← required s.operational
    "cycle-repository markStageAttemptNotSent: no prepared attempt"
  if current.attempt.state = .notSent then return .answer (.attempt current)
  else do
    throwIf (current.attempt.state ≠ .prepared)
      "cycle-repository markStageAttemptNotSent: stage must be reconciled instead of retried"
    let attempt ← transitionProviderMutationAttempt current.attempt .notSent none
    return .keep (.observe current (.stageAttemptNotSent attempt) { current with attempt := attempt })

def recordStageAttemptResponse (evidence : Value) (now : Nat) :
    Except String (Reading (StageKept ω) StageAnswer) := do
  let responseEvidence ← SigningState.cloneEvidence evidence
  let current ← required s.operational
    "cycle-repository recordStageAttemptResponse: no prepared attempt"
  if current.attempt.state ∈ [.responseRecorded, .reconciled] then do
    assertSameJson (evidenceValue current.responseEvidence) responseEvidence
      "cycle-repository recordStageAttemptResponse: stage already has different response evidence"
    return .answer (.attempt current)
  else do
    let attempt ← transitionProviderMutationAttempt current.attempt .responseRecorded
      (some (.responseDigest
        (X.evidenceDigest "hookemon.provider-mutation-response.v1" responseEvidence)))
    let respondedAtMs ← currentRepositoryTime now
    return .keep (.observe current
      (.stageAttemptResponseRecorded attempt responseEvidence respondedAtMs)
      { current with
        attempt := attempt
        responseEvidence := some responseEvidence
        respondedAtMs := some respondedAtMs })

def reconcileStageAttempt (evidence : Value) :
    Except String (Reading (StageKept ω) StageAnswer) := do
  let reconciliationEvidence ← SigningState.cloneEvidence evidence
  let current ← required s.operational
    "cycle-repository reconcileStageAttempt: no prepared attempt"
  if current.attempt.state = .reconciled then do
    assertSameJson (evidenceValue current.reconciliationEvidence) reconciliationEvidence
      "cycle-repository reconcileStageAttempt: stage already has different reconciliation evidence"
    return .answer (.attempt current)
  else do
    throwIf (current.attempt.state ∉ [.sentUnknown, .responseRecorded])
      "cycle-repository reconcileStageAttempt: stage must be sent or response-recorded first"
    let attempt ← transitionProviderMutationAttempt current.attempt .reconciled
      (some (.reconciliationDigest
        (X.evidenceDigest "hookemon.provider-mutation-reconciliation.v1" reconciliationEvidence)))
    return .keep (.observe current (.stageAttemptReconciled attempt reconciliationEvidence)
      { current with
        attempt := attempt
        reconciliationEvidence := some reconciliationEvidence })

def completeStage (evidence : Value) : Except String (Reading (StageKept ω) StageAnswer) := do
  assertNotTerminal s.life.terminalState "completeStage"
  match s.completion with
  | some completion => do
    assertSameJson (X.resolved completion) evidence
      "cycle-repository completeStage: stage was already completed with different evidence"
    return .answer .completed
  | none => do
    s.assertCompletable X evidence
    return .keep (.complete evidence)

def stageRead : StageCall ω → Except String (Reading (StageKept ω) StageAnswer)
  | .prepareStageAttempt attempt => prepareStageAttempt X s attempt
  | .markStageAttemptSentUnknown now => markStageAttemptSentUnknown s now
  | .markStageAttemptNotSent => markStageAttemptNotSent s
  | .recordStageAttemptResponse evidence now => recordStageAttemptResponse X s evidence now
  | .reconcileStageAttempt evidence => reconcileStageAttempt X s evidence
  | .recordStageAttemptFailure => .ok (.keep .fail)
  | .completeStage evidence => completeStage X s evidence
  | .append e => .ok (.keep (.append e))

/-- The attempt is still the one that the call has read; its record is not looked at. -/
def assertSameAttempt (current : OperationalAttempt) : Except String Unit := do
  let latest ← required s.operational
    "cycle-repository: stage changed while recording observation"
  throwIf (latest.attempt ≠ current.attempt)
    "cycle-repository: stage changed while recording observation"

omit s in
/-- Evidence has to fit in the payload of an event. -/
def assertPayload : StageEvent ω → Except String Unit
  | .stageAttemptResponseRecorded _ evidence _ | .stageAttemptReconciled _ evidence =>
    throwIf (¬ X.fitsBoundedJournalPayload evidence) "journal payload limit exceeded"
  | _ => .ok ()

/-- The event of an append, and its answer. Writers of other families append what replays. -/
def stageAppend : StageKept ω → Except String (List (StageEvent ω) × StageAnswer)
  | .prepare attempt => do
    assertNotTerminal s.life.terminalState "prepareStageAttempt"
    throwIf (s.operational ≠ none)
      "cycle-repository prepareStageAttempt: stage already has an operational attempt"
    return ([.stageAttemptPrepared attempt], .attempt (preparedRecord attempt))
  | .reprepare current attempt => do
    assertNotTerminal s.life.terminalState "prepareStageAttempt"
    assertSameAttempt s current
    return ([.stageAttemptReprepared attempt], .attempt (preparedRecord attempt))
  | .observe current e next => do
    assertSameAttempt s current
    assertPayload X e
    return ([e], .attempt next)
  | .fail => .ok ([.stageAttemptFailed], .recorded)
  | .complete evidence => do
    assertNotTerminal s.life.terminalState "completeStage"
    throwIf (s.completion ≠ none) "cycle-repository completeStage: stage changed while completing"
    s.assertCompletable X evidence
    return ([.stageCompleted (storedEvidence X evidence)], .completed)
  | .append e => do
    let _ ← s.apply X (.other e)
    return ([.other e], .recorded)

end Calls

/-! ## Transitions -/

/-- What `assertProviderMutationAttempt` asks. -/
structure ProviderMutationAttempt.IsValid (a : ProviderMutationAttempt) : Prop where
  named : a.cycleId.length ≠ 0 ∧ a.cycleId.length ≤ 512
  request : isDigest a.requestDigest
  response : ∀ d, a.responseDigest = some d → isDigest d
  reconciliation : ∀ d, a.reconciliationDigest = some d → isDigest d
  unanswered : a.state ∈ [.prepared, .notSent, .sentUnknown] →
    a.responseDigest = none ∧ a.reconciliationDigest = none
  answered : a.state = .responseRecorded → a.responseDigest ≠ none ∧ a.reconciliationDigest = none
  reconciled : a.state = .reconciled → a.reconciliationDigest ≠ none

theorem assertOptionalDigest_ok {value : Option Text} {label : String} {u : Unit} :
    assertOptionalDigest value label = .ok u ↔ ∀ d, value = some d → isDigest d := by
  cases value with
  | none => simp [assertOptionalDigest]
  | some d => simp [assertOptionalDigest, Repository.assertDigest]

theorem assertProviderMutationAttempt_ok {a : ProviderMutationAttempt} {label : String} {u : Unit} :
    assertProviderMutationAttempt a label = .ok u ↔ a.IsValid := by
  unfold assertProviderMutationAttempt assertNonEmptyString Repository.assertDigest
  simp only [bind_eq_ok, revertIf_eq_ok, assertOptionalDigest_ok]
  constructor
  · rintro ⟨_, hnamed, _, hrequest, _, hresponse, _, hreconciliation, _, hunanswered, _, hanswered,
      hreconciled⟩
    exact ⟨⟨by omega, by omega⟩, by simpa using hrequest, hresponse, hreconciliation, by tauto,
      by tauto, by tauto⟩
  · intro h
    obtain ⟨hnonempty, hshort⟩ := h.named
    exact ⟨(), by omega, (), by simpa using h.request, (), h.response, (), h.reconciliation, (),
      fun hnot => by have := h.unanswered hnot.1; tauto, (),
      fun hnot => by have := h.answered hnot.1; tauto, fun hnot => h.reconciled hnot.1 hnot.2⟩

theorem transitionProviderMutationAttempt_ok {value next : ProviderMutationAttempt}
    {nextState : ProviderMutationAttemptState} {evidence : Option ProviderEvidence} :
    transitionProviderMutationAttempt value nextState evidence = .ok next ↔
      value.IsValid ∧ nextState ∈ value.state.permitted ∧
        next = { value.extended evidence with state := nextState } ∧ next.IsValid := by
  unfold transitionProviderMutationAttempt
  simp only [bind_eq_ok, revertIf_eq_ok, pure_eq_ok, assertProviderMutationAttempt_ok, not_not]
  constructor
  · rintro ⟨_, hvalue, _, hpermitted, _, hnext, rfl⟩
    exact ⟨hvalue, hpermitted, rfl, hnext⟩
  · rintro ⟨hvalue, hpermitted, rfl, hnext⟩
    exact ⟨(), hvalue, (), hpermitted, (), hnext, rfl⟩

/-- An attempt that was not sent is prepared again as it was. -/
theorem transition_reprepared {attempt notSent : ProviderMutationAttempt}
    (hprepared : attempt.state = .prepared)
    (h : transitionProviderMutationAttempt attempt .notSent none = .ok notSent) :
    transitionProviderMutationAttempt notSent .prepared none = .ok attempt := by
  obtain ⟨hvalid, -, rfl, hnext⟩ := transitionProviderMutationAttempt_ok.mp h
  refine transitionProviderMutationAttempt_ok.mpr ⟨hnext, List.mem_cons_self, ?_, hvalid⟩
  cases attempt
  cases hprepared
  rfl

theorem assertSameJson_ok {a b : Value} {message : String} {u : Unit}
    (h : assertSameJson a b message = .ok u) : canonicalJson a = canonicalJson b := by
  obtain ⟨x, hx, h⟩ := bind_eq_ok.mp h
  obtain ⟨y, hy, h⟩ := bind_eq_ok.mp h
  rw [revertIf_eq_ok, ne_eq, not_not] at h
  rw [hx, hy, h]

/-- The writers of the stage. -/
def stageWriters {ω : Type} (X : StageContext ω) :
    Writers (StageState ω) (StageEvent ω) (StageCall ω) (StageKept ω) StageAnswer where
  apply s e := s.apply X e
  init := .empty
  fits := X.fits
  read s c := stageRead X s c
  append s p := stageAppend X s p

/-! ## What holds of the replayed state -/

section Laws

variable {ω : Type} {X : StageContext ω} {s t : StageState ω}

/-- The record of an attempt agrees with the state of the attempt. -/
structure OperationalAttempt.Agrees (X : StageContext ω) (a : OperationalAttempt) : Prop where
  own : a.attempt.cycleId = X.cycleId ∧ a.attempt.stage = X.stage
  answered : a.responseEvidence ≠ none → a.attempt.state ∈ [.responseRecorded, .reconciled]
  digest : a.attempt.responseDigest = none ↔ a.responseEvidence = none
  reconciled : a.attempt.state = .reconciled →
    ∃ v, a.reconciliationEvidence = some v ∧ X.fitsBoundedJournalPayload v

structure StageState.Agrees (X : StageContext ω) (s : StageState ω) : Prop where
  operational : ∀ a, s.operational = some a → a.Agrees X
  closed : s.life.completed → ∀ a, s.operational = some a → a.attempt.state = .reconciled
  ended : s.life.completed → s.life.terminalState = some .completed

/-- What stays of a record once the attempt may have been sent. -/
structure KeepsSent (a b : OperationalAttempt) : Prop where
  sent : b.attempt.state.isSent
  request : b.attempt.requestDigest = a.attempt.requestDigest
  response : a.responseEvidence ≠ none →
    b.responseEvidence = a.responseEvidence ∧ b.attempt.responseDigest = a.attempt.responseDigest
  reconciliation : a.attempt.state = .reconciled →
    b.attempt = a.attempt ∧ b.reconciliationEvidence = a.reconciliationEvidence

theorem KeepsSent.refl {a : OperationalAttempt} (h : a.attempt.state.isSent) : KeepsSent a a where
  sent := h
  request := rfl
  response _ := ⟨rfl, rfl⟩
  reconciliation _ := ⟨rfl, rfl⟩

theorem KeepsSent.trans {a b c : OperationalAttempt} (h : KeepsSent a b) (h' : KeepsSent b c) :
    KeepsSent a c where
  sent := h'.sent
  request := h'.request.trans h.request
  response := by
    intro hresponse
    obtain ⟨hevidence, hdigest⟩ := h.response hresponse
    obtain ⟨hevidence', hdigest'⟩ := h'.response (hevidence ▸ hresponse)
    exact ⟨hevidence'.trans hevidence, hdigest'.trans hdigest⟩
  reconciliation := by
    intro hreconciled
    obtain ⟨hattempt, hevidence⟩ := h.reconciliation hreconciled
    obtain ⟨hattempt', hevidence'⟩ := h'.reconciliation (hattempt ▸ hreconciled)
    exact ⟨hattempt'.trans hattempt, hevidence'.trans hevidence⟩

/-- What stays of the state: an attempt that may have been sent, and the completion. -/
structure StageState.Later (s t : StageState ω) : Prop where
  sent : ∀ a, s.operational = some a → a.attempt.state.isSent →
    ∃ b, t.operational = some b ∧ KeepsSent a b
  completion : ∀ v, s.completion = some v → t.completion = some v

theorem StageState.Later.refl (s : StageState ω) : s.Later s where
  sent a ha hsent := ⟨a, ha, .refl hsent⟩
  completion _ hv := hv

theorem StageState.Later.trans {u : StageState ω} (h : s.Later t) (h' : t.Later u) : s.Later u where
  sent := by
    intro a ha hsent
    obtain ⟨b, hb, hkeeps⟩ := h.sent a ha hsent
    obtain ⟨c, hc, hkeeps'⟩ := h'.sent b hb hkeeps.sent
    exact ⟨c, hc, hkeeps.trans hkeeps'⟩
  completion v hv := h'.completion v (h.completion v hv)

/-! ### The four observations -/

/-- The event of an observation, and the record after it. -/
inductive Observes (X : StageContext ω) (a : OperationalAttempt) :
    StageEvent ω → OperationalAttempt → Prop
  | sentUnknown {attempt : ProviderMutationAttempt} {sentAtMs : Nat}
    (transition : transitionProviderMutationAttempt a.attempt .sentUnknown none = .ok attempt)
    (timed : (sentAtMs : Int) ≤ maxSafeInteger) :
    Observes X a (.stageAttemptSentUnknown attempt sentAtMs)
      { a with attempt := attempt, sentAtMs := some sentAtMs }
  | notSent {attempt : ProviderMutationAttempt}
    (transition : transitionProviderMutationAttempt a.attempt .notSent none = .ok attempt) :
    Observes X a (.stageAttemptNotSent attempt) { a with attempt := attempt }
  | responded {attempt : ProviderMutationAttempt} {evidence : Value} {digest : Text}
    {respondedAtMs : Nat} (cloned : SigningState.cloneEvidence evidence = .ok evidence)
    (transition : transitionProviderMutationAttempt a.attempt .responseRecorded
      (some (.responseDigest digest)) = .ok attempt)
    (timed : (respondedAtMs : Int) ≤ maxSafeInteger) :
    Observes X a (.stageAttemptResponseRecorded attempt evidence respondedAtMs)
      { a with
        attempt := attempt
        responseEvidence := some evidence
        respondedAtMs := some respondedAtMs }
  | reconciled {attempt : ProviderMutationAttempt} {evidence : Value} {digest : Text}
    (cloned : SigningState.cloneEvidence evidence = .ok evidence)
    (transition : transitionProviderMutationAttempt a.attempt .reconciled
      (some (.reconciliationDigest digest)) = .ok attempt) :
    Observes X a (.stageAttemptReconciled attempt evidence)
      { a with attempt := attempt, reconciliationEvidence := some evidence }

variable {a next : OperationalAttempt} {e : StageEvent ω}

/-- No attempt goes on once it is reconciled. -/
theorem Observes.open (h : Observes X a e next) : a.attempt.state ≠ .reconciled := by
  intro hreconciled
  cases h with
  | sentUnknown transition =>
    have hpermitted := (transitionProviderMutationAttempt_ok.mp transition).2.1
    rw [hreconciled] at hpermitted
    cases hpermitted
  | notSent transition =>
    have hpermitted := (transitionProviderMutationAttempt_ok.mp transition).2.1
    rw [hreconciled] at hpermitted
    cases hpermitted
  | responded cloned transition =>
    have hpermitted := (transitionProviderMutationAttempt_ok.mp transition).2.1
    rw [hreconciled] at hpermitted
    cases hpermitted
  | reconciled cloned transition =>
    have hpermitted := (transitionProviderMutationAttempt_ok.mp transition).2.1
    rw [hreconciled] at hpermitted
    cases hpermitted

/-- An event that moves the attempt on replays on the record it was made for. -/
theorem replayMoved_ok {before : List ProviderMutationAttemptState}
    {after : ProviderMutationAttemptState} {noun : String} {attempt : ProviderMutationAttempt}
    {evidence : Option ProviderEvidence} {record : OperationalAttempt → OperationalAttempt}
    (hallowed : s.life.assertAllowed true false = .ok ()) (hcurrent : s.operational = some a)
    (hagrees : a.Agrees X) (hbefore : ∀ state, after ∈ state.permitted → state ∈ before)
    (htransition : transitionProviderMutationAttempt a.attempt after evidence = .ok attempt) :
    s.replayMoved X before after noun attempt record
      = .ok { s with operational := some (record { a with attempt := attempt }) } := by
  obtain ⟨-, hpermitted, rfl, hvalid⟩ := transitionProviderMutationAttempt_ok.mp htransition
  have hbound : ¬ (a.attempt.state ∉ before ∨
      ({ a.attempt.extended evidence with state := after } : ProviderMutationAttempt).state ≠ after ∨
      ({ a.attempt.extended evidence with state := after } : ProviderMutationAttempt).cycleId
        ≠ X.cycleId ∨
      ({ a.attempt.extended evidence with state := after } : ProviderMutationAttempt).stage
        ≠ X.stage ∨
      ({ a.attempt.extended evidence with state := after } : ProviderMutationAttempt).requestDigest
        ≠ a.attempt.requestDigest) := by
    have hcycle := hagrees.own.1
    have hstage := hagrees.own.2
    have hstate := hbefore _ hpermitted
    cases evidence with
    | none => simp [ProviderMutationAttempt.extended, hcycle, hstage, hstate]
    | some evidence =>
      cases evidence <;> simp [ProviderMutationAttempt.extended, hcycle, hstage, hstate]
  unfold StageState.replayMoved
  rw [hallowed, (assertProviderMutationAttempt_ok (u := ())).mpr hvalid, hcurrent]
  simp only [ok_bind, required, throwIf_of_not hbound]
  rfl

/-- An attempt that is not reconciled is not part of a completed cycle. -/
theorem StageState.Agrees.allowed (h : s.Agrees X) (hcurrent : s.operational = some a)
    (hopen : a.attempt.state ≠ .reconciled) : s.life.assertAllowed true false = .ok () := by
  unfold CycleLife.assertAllowed
  rw [assertRecordAllowed_ok]
  exact Or.inr ⟨rfl, fun hcompleted => absurd (h.closed hcompleted a hcurrent) hopen⟩

theorem Observes.replays (h : Observes X a e next) (hs : s.Agrees X)
    (hcurrent : s.operational = some a) :
    s.apply X e = .ok { s with operational := some next } := by
  have hallowed := hs.allowed hcurrent h.open
  have hagrees := hs.operational a hcurrent
  cases h with
  | sentUnknown transition timed =>
    refine bind_eq_ok.mpr ⟨(), throwIf_of_not (not_lt.mpr timed), ?_⟩
    refine replayMoved_ok hallowed hcurrent hagrees ?_ transition
    rintro ⟨⟩ <;> decide
  | notSent transition =>
    change s.replayMoved X [.prepared] .notSent "not-sent" _ (fun record => record) = _
    refine replayMoved_ok hallowed hcurrent hagrees ?_ transition
    rintro ⟨⟩ <;> decide
  | responded cloned transition timed =>
    refine bind_eq_ok.mpr ⟨(), throwIf_of_not (not_lt.mpr timed), bind_eq_ok.mpr ⟨_, cloned, ?_⟩⟩
    refine replayMoved_ok hallowed hcurrent hagrees ?_ transition
    rintro ⟨⟩ <;> decide
  | reconciled cloned transition =>
    refine bind_eq_ok.mpr ⟨_, cloned, ?_⟩
    refine replayMoved_ok hallowed hcurrent hagrees ?_ transition
    rintro ⟨⟩ <;> decide

theorem Observes.agrees (h : Observes X a e next) (hagrees : a.Agrees X)
    (hpayload : assertPayload X e = .ok ()) : next.Agrees X := by
  cases h with
  | sentUnknown transition timed =>
    obtain ⟨-, hpermitted, rfl, -⟩ := transitionProviderMutationAttempt_ok.mp transition
    refine ⟨hagrees.own, ?_, hagrees.digest, fun hreconciled => by cases hreconciled⟩
    intro hevidence
    have hlast := ProviderMutationAttemptState.permitted_of_answered (hagrees.answered hevidence)
      hpermitted
    cases hlast
  | notSent transition =>
    obtain ⟨-, hpermitted, rfl, -⟩ := transitionProviderMutationAttempt_ok.mp transition
    refine ⟨hagrees.own, ?_, hagrees.digest, fun hreconciled => by cases hreconciled⟩
    intro hevidence
    have hlast := ProviderMutationAttemptState.permitted_of_answered (hagrees.answered hevidence)
      hpermitted
    cases hlast
  | responded cloned transition timed =>
    obtain ⟨-, hpermitted, rfl, -⟩ := transitionProviderMutationAttempt_ok.mp transition
    refine ⟨hagrees.own, fun _ => List.mem_cons_self, ?_, fun hreconciled => by cases hreconciled⟩
    simp [ProviderMutationAttempt.extended]
  | @reconciled attempt evidence digest cloned transition =>
    obtain ⟨-, hpermitted, rfl, -⟩ := transitionProviderMutationAttempt_ok.mp transition
    refine ⟨hagrees.own, fun _ => List.mem_cons_of_mem _ List.mem_cons_self, hagrees.digest,
      fun _ => ⟨evidence, rfl, ?_⟩⟩
    unfold assertPayload at hpayload
    rwa [revertIf_eq_ok, not_not] at hpayload

/-- An observation keeps what was recorded of an attempt that may have been sent. -/
theorem Observes.keepsSent (h : Observes X a e next) (hagrees : a.Agrees X)
    (hsent : a.attempt.state.isSent) : KeepsSent a next := by
  have hopen := h.open
  cases h with
  | sentUnknown transition timed =>
    obtain ⟨-, hpermitted, rfl, -⟩ := transitionProviderMutationAttempt_ok.mp transition
    have hanswered := ProviderMutationAttemptState.isSent_of_permitted hsent hpermitted
    exact absurd hanswered (by decide)
  | notSent transition =>
    obtain ⟨-, hpermitted, rfl, -⟩ := transitionProviderMutationAttempt_ok.mp transition
    have hanswered := ProviderMutationAttemptState.isSent_of_permitted hsent hpermitted
    exact absurd hanswered (by decide)
  | responded cloned transition timed =>
    obtain ⟨-, hpermitted, rfl, -⟩ := transitionProviderMutationAttempt_ok.mp transition
    refine ⟨rfl, rfl, ?_, fun hreconciled => absurd hreconciled hopen⟩
    intro hevidence
    have hlast := ProviderMutationAttemptState.permitted_of_answered (hagrees.answered hevidence)
      hpermitted
    cases hlast
  | reconciled cloned transition =>
    obtain ⟨-, -, rfl, -⟩ := transitionProviderMutationAttempt_ok.mp transition
    exact ⟨rfl, rfl, fun _ => ⟨rfl, rfl⟩, fun hreconciled => absurd hreconciled hopen⟩

/-! ### What the calls keep -/

/-- What a call knows of what it keeps. -/
def StageKept.Sound (X : StageContext ω) : StageKept ω → Prop
  | .prepare attempt => attempt.IsValid ∧ attempt.cycleId = X.cycleId ∧ attempt.stage = X.stage ∧
      attempt.state = .prepared
  | .reprepare current attempt => attempt.IsValid ∧ attempt.cycleId = X.cycleId ∧
      attempt.stage = X.stage ∧ attempt.state = .prepared ∧
      transitionProviderMutationAttempt attempt .notSent none = .ok current.attempt
  | .observe current e next => Observes X current e next
  | _ => True

/-- An observation is made of the record that was read, a failure is not recorded in a completed
cycle, and the order check that passes the evidence of a completion passes what is stored of it. -/
def StageCurrent (X : StageContext ω) (s : StageState ω) : StageKept ω → Prop
  | .observe current _ _ => ∀ latest, s.operational = some latest →
      latest.attempt = current.attempt → latest = current
  | .fail => ¬ s.life.completed
  | .complete evidence => X.assertPrepared s.life.records evidence = .ok () →
      X.assertPrepared s.life.records (storedEvidence X evidence) = .ok ()
  | _ => True

theorem prepared_agrees {attempt : ProviderMutationAttempt} (hvalid : attempt.IsValid)
    (hcycle : attempt.cycleId = X.cycleId) (hstage : attempt.stage = X.stage)
    (hprepared : attempt.state = .prepared) : (preparedRecord attempt).Agrees X where
  own := ⟨hcycle, hstage⟩
  answered h := absurd rfl h
  digest := by
    have hnone := (hvalid.unanswered (hprepared ▸ List.mem_cons_self)).1
    exact ⟨fun _ => rfl, fun _ => hnone⟩
  reconciled h := by
    change attempt.state = .reconciled at h
    rw [hprepared] at h
    cases h

theorem stageRead_sound {c : StageCall ω} {p : StageKept ω} (h : stageRead X s c = .ok (.keep p)) :
    p.Sound X := by
  cases c with
  | prepareStageAttempt attempt =>
    obtain ⟨_, hvalid, h⟩ := bind_eq_ok.mp h
    obtain ⟨_, hown, h⟩ := bind_eq_ok.mp h
    obtain ⟨_, -, h⟩ := bind_eq_ok.mp h
    rw [assertProviderMutationAttempt_ok] at hvalid
    simp only [revertIf_eq_ok, not_or, not_not] at hown
    cases hcurrent : s.operational with
    | none =>
      rw [hcurrent, pure_eq_ok, Reading.keep.injEq] at h
      subst h
      exact ⟨hvalid, hown⟩
    | some current =>
      rw [hcurrent] at h
      dsimp only at h
      split at h
      -- an attempt that was marked as not sent is prepared again, if it is the same one
      · obtain ⟨expected, hexpected, h⟩ := bind_eq_ok.mp h
        obtain ⟨_, hsame, h⟩ := bind_eq_ok.mp h
        rw [revertIf_eq_ok, ne_eq, not_not] at hsame
        rw [pure_eq_ok, Reading.keep.injEq] at h
        subst h
        exact ⟨hvalid, hown.1, hown.2.1, hown.2.2, hsame ▸ hexpected⟩
      · simp only [bind_eq_ok, pure_eq_ok, reduceCtorEq, and_false, exists_false] at h
  | markStageAttemptSentUnknown now =>
    obtain ⟨current, -, h⟩ := bind_eq_ok.mp h
    split at h
    · simp only [pure_eq_ok, reduceCtorEq] at h
    · obtain ⟨_, -, h⟩ := bind_eq_ok.mp h
      obtain ⟨attempt, htransition, h⟩ := bind_eq_ok.mp h
      obtain ⟨sentAtMs, hnow, h⟩ := bind_eq_ok.mp h
      rw [pure_eq_ok, Reading.keep.injEq] at h
      subst h
      -- the time is read after the transition was found to be permitted
      obtain ⟨htimed, rfl⟩ := currentRepositoryTime_ok.mp hnow
      exact .sentUnknown htransition htimed
  | markStageAttemptNotSent =>
    obtain ⟨current, -, h⟩ := bind_eq_ok.mp h
    split at h
    · simp only [pure_eq_ok, reduceCtorEq] at h
    · obtain ⟨_, -, h⟩ := bind_eq_ok.mp h
      obtain ⟨attempt, htransition, h⟩ := bind_eq_ok.mp h
      rw [pure_eq_ok, Reading.keep.injEq] at h
      subst h
      exact .notSent htransition
  | recordStageAttemptResponse evidence now =>
    obtain ⟨responseEvidence, hcloned, h⟩ := bind_eq_ok.mp h
    obtain ⟨current, -, h⟩ := bind_eq_ok.mp h
    split at h
    · simp only [bind_eq_ok, pure_eq_ok, reduceCtorEq, and_false, exists_false] at h
    · obtain ⟨attempt, htransition, h⟩ := bind_eq_ok.mp h
      obtain ⟨respondedAtMs, hnow, h⟩ := bind_eq_ok.mp h
      rw [pure_eq_ok, Reading.keep.injEq] at h
      subst h
      obtain ⟨htimed, rfl⟩ := currentRepositoryTime_ok.mp hnow
      -- the clone of the evidence is the evidence
      have hsame : evidence = responseEvidence := by
        obtain ⟨_, -, hsame⟩ := bind_eq_ok.mp hcloned
        exact pure_eq_ok.mp hsame
      subst hsame
      exact .responded hcloned htransition htimed
  | reconcileStageAttempt evidence =>
    obtain ⟨reconciliationEvidence, hcloned, h⟩ := bind_eq_ok.mp h
    obtain ⟨current, -, h⟩ := bind_eq_ok.mp h
    split at h
    · simp only [bind_eq_ok, pure_eq_ok, reduceCtorEq, and_false, exists_false] at h
    · obtain ⟨_, -, h⟩ := bind_eq_ok.mp h
      obtain ⟨attempt, htransition, h⟩ := bind_eq_ok.mp h
      rw [pure_eq_ok, Reading.keep.injEq] at h
      subst h
      have hsame : evidence = reconciliationEvidence := by
        obtain ⟨_, -, hsame⟩ := bind_eq_ok.mp hcloned
        exact pure_eq_ok.mp hsame
      subst hsame
      exact .reconciled hcloned htransition
  | recordStageAttemptFailure =>
    cases h
    trivial
  | completeStage evidence =>
    obtain ⟨_, -, h⟩ := bind_eq_ok.mp h
    cases hcompletion : s.completion with
    | some completion =>
      rw [hcompletion] at h
      simp only [bind_eq_ok, pure_eq_ok, reduceCtorEq, and_false, exists_false] at h
    | none =>
      rw [hcompletion] at h
      obtain ⟨_, -, h⟩ := bind_eq_ok.mp h
      rw [pure_eq_ok, Reading.keep.injEq] at h
      subst h
      trivial
  | append e =>
    cases h
    trivial

/-! ### What an append does -/

/-- What a completion asks of the attempt. -/
def Reconciles (s : StageState ω) (evidence : Value) : Prop :=
  ∀ a, s.operational = some a → a.attempt.state = .reconciled ∧
    canonicalJson (evidenceValue a.reconciliationEvidence) = canonicalJson evidence

/-- What an append does to the replayed state, with the record that its writer returns. -/
structure Advances (X : StageContext ω) (s t : StageState ω) (r : StageAnswer) : Prop where
  agrees : t.Agrees X
  later : s.Later t
  completes : ∀ v, t.completion = some v → s.completion = some v ∨ Reconciles s v
  returned : ∀ current, r = .attempt current → t.operational = some current

/-- The events of an append replay. -/
def Appends (X : StageContext ω) (s : StageState ω) (events : List (StageEvent ω))
    (r : StageAnswer) : Prop :=
  ∃ t, events.foldlM (fun s e => s.apply X e) s = .ok t ∧ Advances X s t r

theorem appends_of_apply {r : StageAnswer} (h : s.apply X e = .ok t) (ht : Advances X s t r) :
    Appends X s [e] r := by
  refine ⟨t, ?_, ht⟩
  rw [List.foldlM_cons, h]
  rfl

/-- A record of this stage may be appended where the cycle goes on. -/
theorem allowed_of_notTerminal {operation : String} {afterTerminal afterCompletion : Bool}
    (h : assertNotTerminal s.life.terminalState operation = .ok ()) :
    s.life.assertAllowed afterTerminal afterCompletion = .ok () := by
  unfold CycleLife.assertAllowed
  rw [assertRecordAllowed_ok]
  exact Or.inl (assertNotTerminal_ok.mp h)

/-- The state with another record. -/
theorem StageState.Agrees.recorded (hs : s.Agrees X) (hopen : ¬ s.life.completed)
    (hnext : next.Agrees X) : ({ s with operational := some next } : StageState ω).Agrees X where
  operational := by
    intro a ha
    cases ha
    exact hnext
  closed hcompleted := absurd hcompleted hopen
  ended := hs.ended

theorem appends_prepared {attempt : ProviderMutationAttempt} (hs : s.Agrees X)
    (hp : StageKept.Sound X (.prepare attempt : StageKept ω))
    (hnone : s.operational = none)
    (hlive : assertNotTerminal s.life.terminalState "prepareStageAttempt" = .ok ()) :
    Appends X s [.stageAttemptPrepared attempt] (.attempt (preparedRecord attempt)) := by
  obtain ⟨hvalid, hcycle, hstage, hprepared⟩ := hp
  have happly : s.apply X (.stageAttemptPrepared attempt)
      = .ok { s with operational := some (preparedRecord attempt) } := by
    change s.replayPrepared X attempt = _
    unfold StageState.replayPrepared
    rw [allowed_of_notTerminal hlive, (assertProviderMutationAttempt_ok (u := ())).mpr hvalid,
      throwIf_of_not (by simp [hcycle, hstage, hprepared])]
    rfl
  have hopen : ¬ s.life.completed := by
    intro hcompleted
    have hended := hs.ended hcompleted
    rw [assertNotTerminal_ok.mp hlive] at hended
    cases hended
  refine appends_of_apply happly ⟨?_, ?_, fun _ hv => Or.inl hv, ?_⟩
  · exact hs.recorded hopen (prepared_agrees hvalid hcycle hstage hprepared)
  · refine ⟨?_, fun _ hv => hv⟩
    intro a ha
    rw [hnone] at ha
    cases ha
  · intro current hcurrent
    cases hcurrent
    rfl

theorem appends_reprepared {current : OperationalAttempt} {attempt : ProviderMutationAttempt}
    (hs : s.Agrees X) (hp : StageKept.Sound X (.reprepare current attempt : StageKept ω))
    {latest : OperationalAttempt} (hlatest : s.operational = some latest)
    (hsame : latest.attempt = current.attempt) :
    Appends X s [.stageAttemptReprepared attempt] (.attempt (preparedRecord attempt)) := by
  obtain ⟨hvalid, hcycle, hstage, hprepared, htransition⟩ := hp
  have hnotSent : latest.attempt.state = .notSent := by
    obtain ⟨-, -, hnext, -⟩ := transitionProviderMutationAttempt_ok.mp htransition
    rw [hsame, hnext]
  have hunreconciled : latest.attempt.state ≠ .reconciled := by
    rw [hnotSent]
    decide
  have hback := transition_reprepared hprepared htransition
  rw [← hsame] at hback
  have happly : s.apply X (.stageAttemptReprepared attempt)
      = .ok { s with operational := some (preparedRecord attempt) } := by
    change s.replayReprepared X attempt = _
    unfold StageState.replayReprepared
    rw [hs.allowed hlatest hunreconciled, (assertProviderMutationAttempt_ok (u := ())).mpr hvalid,
      hlatest]
    simp only [ok_bind, required, hback,
      throwIf_of_not (show ¬ (latest.attempt.state ≠ .notSent ∨ attempt.state ≠ .prepared ∨
        attempt.cycleId ≠ X.cycleId ∨ attempt.stage ≠ X.stage) by
          simp [hnotSent, hprepared, hcycle, hstage]),
      throwIf_of_not (not_not.mpr (rfl : attempt = attempt))]
    rfl
  have hopen : ¬ s.life.completed :=
    fun hcompleted => hunreconciled (hs.closed hcompleted latest hlatest)
  refine appends_of_apply happly ⟨?_, ?_, fun _ hv => Or.inl hv, ?_⟩
  · exact hs.recorded hopen (prepared_agrees hvalid hcycle hstage hprepared)
  · refine ⟨?_, fun _ hv => hv⟩
    intro a ha hsent
    rw [hlatest, Option.some.injEq] at ha
    subst ha
    rw [hnotSent] at hsent
    cases hsent
  · intro record hrecord
    cases hrecord
    rfl

theorem appends_observed {current : OperationalAttempt} (hs : s.Agrees X)
    (hp : Observes X current e next) (hcurrent : s.operational = some current)
    (hpayload : assertPayload X e = .ok ()) : Appends X s [e] (.attempt next) := by
  have hagrees := hs.operational current hcurrent
  have hopen : ¬ s.life.completed :=
    fun hcompleted => hp.open (hs.closed hcompleted current hcurrent)
  refine appends_of_apply (hp.replays hs hcurrent) ⟨?_, ?_, fun _ hv => Or.inl hv, ?_⟩
  · exact hs.recorded hopen (hp.agrees hagrees hpayload)
  · refine ⟨?_, fun _ hv => hv⟩
    intro a ha hsent
    rw [hcurrent, Option.some.injEq] at ha
    subst ha
    exact ⟨next, rfl, hp.keepsSent hagrees hsent⟩
  · intro record hrecord
    cases hrecord
    rfl

theorem appends_failed (hs : s.Agrees X) (hopen : ¬ s.life.completed) :
    Appends X s [.stageAttemptFailed] .recorded := by
  have hallowed : s.life.assertAllowed true false = .ok () := by
    unfold CycleLife.assertAllowed
    rw [assertRecordAllowed_ok]
    exact Or.inr ⟨rfl, fun hcompleted => absurd hcompleted hopen⟩
  have happly : s.apply X .stageAttemptFailed = .ok { s with
      operational := s.operational.map fun current => { current with failed := true } } := by
    change s.replayFailed = _
    unfold StageState.replayFailed
    rw [hallowed]
    rfl
  refine appends_of_apply happly ⟨?_, ?_, fun _ hv => Or.inl hv, ?_⟩
  · refine ⟨?_, fun hcompleted => absurd hcompleted hopen, hs.ended⟩
    intro b hb
    obtain ⟨a, ha, rfl⟩ := Option.map_eq_some_iff.mp hb
    have hagrees := hs.operational a ha
    exact ⟨hagrees.own, hagrees.answered, hagrees.digest, hagrees.reconciled⟩
  · refine ⟨?_, fun _ hv => hv⟩
    intro a ha hsent
    refine ⟨{ a with failed := true }, Option.map_eq_some_iff.mpr ⟨a, ha, rfl⟩, ?_⟩
    exact ⟨hsent, rfl, fun _ => ⟨rfl, rfl⟩, fun _ => ⟨rfl, rfl⟩⟩
  · intro record hrecord
    cases hrecord

theorem assertReconciled_ok {evidence : Value} (h : s.assertReconciled evidence = .ok ()) :
    Reconciles s evidence := by
  intro a ha
  unfold StageState.assertReconciled at h
  rw [ha] at h
  obtain ⟨_, hstate, h⟩ := bind_eq_ok.mp h
  rw [revertIf_eq_ok, ne_eq, not_not] at hstate
  exact ⟨hstate, assertSameJson_ok h⟩

/-- Evidence that was reconciled is small enough to be stored as it is. -/
theorem storedEvidence_of_reconciled {evidence : Value} (hs : s.Agrees X)
    (h : s.assertReconciled evidence = .ok ()) :
    s.assertReconciled (storedEvidence X evidence) = .ok () := by
  cases hcurrent : s.operational with
  | none =>
    unfold StageState.assertReconciled
    rw [hcurrent]
  | some a =>
    obtain ⟨hstate, hjson⟩ := assertReconciled_ok h a hcurrent
    obtain ⟨v, hv, hfits⟩ := (hs.operational a hcurrent).reconciled hstate
    rw [hv] at hjson
    have hsmall : X.fitsBoundedJournalPayload evidence = true :=
      (X.fits_congr v evidence hjson).symm.trans hfits
    unfold storedEvidence
    rw [if_pos hsmall]
    exact h

theorem storedEvidence_reconciles {evidence : Value} (hs : s.Agrees X)
    (h : s.assertReconciled evidence = .ok ()) : Reconciles s (storedEvidence X evidence) :=
  assertReconciled_ok (storedEvidence_of_reconciled hs h)

theorem appends_completed {evidence : Value} (hs : s.Agrees X) (hnone : s.completion = none)
    (hlive : assertNotTerminal s.life.terminalState "completeStage" = .ok ())
    (hcompletable : s.assertCompletable X evidence = .ok ())
    (hstored : X.assertPrepared s.life.records evidence = .ok () →
      X.assertPrepared s.life.records (storedEvidence X evidence) = .ok ()) :
    Appends X s [.stageCompleted (storedEvidence X evidence)] .completed := by
  obtain ⟨_, hprepared, h⟩ := bind_eq_ok.mp hcompletable
  obtain ⟨_, hreconciled, hfinalized⟩ := bind_eq_ok.mp h
  have hagain : s.assertCompletable X (storedEvidence X evidence) = .ok () :=
    bind_eq_ok.mpr ⟨(), hstored hprepared,
      bind_eq_ok.mpr ⟨(), storedEvidence_of_reconciled hs hreconciled, hfinalized⟩⟩
  have hunconflicted : s.assertUnconflicted (storedEvidence X evidence) = .ok () := by
    unfold StageState.assertUnconflicted
    rw [hnone]
  have happly : s.apply X (.stageCompleted (storedEvidence X evidence))
      = .ok { s with completion := some (storedEvidence X evidence) } := by
    change s.replayCompleted X _ = _
    unfold StageState.replayCompleted
    rw [allowed_of_notTerminal hlive, hagain, hunconflicted]
    rfl
  refine appends_of_apply happly ⟨?_, ?_, ?_, ?_⟩
  · exact ⟨hs.operational, hs.closed, hs.ended⟩
  · refine ⟨fun a ha hsent => ⟨a, ha, .refl hsent⟩, ?_⟩
    intro v hv
    rw [hnone] at hv
    cases hv
  · intro v hv
    cases hv
    exact Or.inr (storedEvidence_reconciles hs hreconciled)
  · intro record hrecord
    cases hrecord

theorem appends_other {other : CycleEvent ω} (hs : s.Agrees X)
    (happly : s.apply X (.other other) = .ok t) : Appends X s [.other other] .recorded := by
  obtain ⟨_, hclosed, hlife⟩ := bind_eq_ok.mp happly
  obtain ⟨life, hnext, hlast⟩ := bind_eq_ok.mp hlife
  have ht := pure_eq_ok.mp hlast
  refine appends_of_apply happly ⟨?_, ?_, ?_, ?_⟩
  · rw [← ht]
    refine ⟨hs.operational, ?_, CycleLife.completed_of_apply hs.ended hnext⟩
    intro hcompleted a ha
    cases other with
    | cycleCompleted =>
      unfold StageState.assertClosed at hclosed
      rw [revertIf_eq_ok, not_or] at hclosed
      rw [show s.operational = some a from ha] at hclosed
      simpa using hclosed.2
    | cycleTerminal terminalState =>
      obtain ⟨_, -, hsame⟩ := bind_eq_ok.mp hnext
      rw [← pure_eq_ok.mp hsame] at hcompleted
      exact hs.closed hcompleted a ha
    | record value =>
      obtain ⟨_, -, hsame⟩ := bind_eq_ok.mp hnext
      rw [← pure_eq_ok.mp hsame] at hcompleted
      exact hs.closed hcompleted a ha
  · rw [← ht]
    exact ⟨fun a ha hsent => ⟨a, ha, .refl hsent⟩, fun _ hv => hv⟩
  · rw [← ht]
    exact fun _ hv => Or.inl hv
  · intro record hrecord
    cases hrecord

theorem assertSameAttempt_ok {current : OperationalAttempt}
    (h : assertSameAttempt s current = .ok ()) :
    ∃ latest, s.operational = some latest ∧ latest.attempt = current.attempt := by
  obtain ⟨latest, hlatest, h⟩ := bind_eq_ok.mp h
  rw [revertIf_eq_ok, ne_eq, not_not] at h
  exact ⟨latest, required_eq_ok.mp hlatest, h⟩

theorem stageAppend_ok {p : StageKept ω} {events : List (StageEvent ω)} {r : StageAnswer}
    (hs : s.Agrees X) (hp : p.Sound X) (hcurrent : StageCurrent X s p)
    (h : stageAppend X s p = .ok (events, r)) : Appends X s events r := by
  cases p with
  | prepare attempt =>
    obtain ⟨_, hlive, h⟩ := bind_eq_ok.mp h
    obtain ⟨_, hnone, h⟩ := bind_eq_ok.mp h
    rw [revertIf_eq_ok, ne_eq, not_not] at hnone
    cases h
    exact appends_prepared hs hp hnone hlive
  | reprepare current attempt =>
    obtain ⟨_, -, h⟩ := bind_eq_ok.mp h
    obtain ⟨_, hsame, h⟩ := bind_eq_ok.mp h
    obtain ⟨latest, hlatest, hsame⟩ := assertSameAttempt_ok hsame
    cases h
    exact appends_reprepared hs hp hlatest hsame
  | observe current e next =>
    obtain ⟨_, hsame, hrest⟩ := bind_eq_ok.mp h
    obtain ⟨_, hpayload, hlast⟩ := bind_eq_ok.mp hrest
    obtain ⟨latest, hlatest, hsame⟩ := assertSameAttempt_ok hsame
    have hread : latest = current := hcurrent latest hlatest hsame
    rw [hread] at hlatest
    cases hlast
    exact appends_observed hs hp hlatest hpayload
  | fail =>
    cases h
    exact appends_failed hs hcurrent
  | complete evidence =>
    obtain ⟨_, hlive, h⟩ := bind_eq_ok.mp h
    obtain ⟨_, hnone, h⟩ := bind_eq_ok.mp h
    obtain ⟨_, hcompletable, h⟩ := bind_eq_ok.mp h
    rw [revertIf_eq_ok, ne_eq, not_not] at hnone
    cases h
    exact appends_completed hs hnone hlive hcompletable hcurrent
  | append other =>
    obtain ⟨t, happly, h⟩ := bind_eq_ok.mp h
    cases h
    exact appends_other hs happly

/-! ### Runs -/

theorem stageRead_answer {c : StageCall ω} {current : OperationalAttempt}
    (h : stageRead X s c = .ok (.answer (.attempt current))) : s.operational = some current := by
  cases c with
  | prepareStageAttempt attempt =>
    obtain ⟨_, -, h⟩ := bind_eq_ok.mp h
    obtain ⟨_, -, h⟩ := bind_eq_ok.mp h
    obtain ⟨_, -, h⟩ := bind_eq_ok.mp h
    cases hread : s.operational with
    | none =>
      rw [hread] at h
      cases h
    | some latest =>
      rw [hread] at h
      dsimp only at h
      split at h
      · simp only [bind_eq_ok, pure_eq_ok, reduceCtorEq, and_false, exists_false] at h
      · obtain ⟨_, -, h⟩ := bind_eq_ok.mp h
        cases h
        rfl
  | markStageAttemptSentUnknown now =>
    obtain ⟨latest, hread, h⟩ := bind_eq_ok.mp h
    split at h
    · cases h
      -- what is answered is what was read
      exact required_eq_ok.mp hread
    · simp only [bind_eq_ok, pure_eq_ok, reduceCtorEq, and_false, exists_false] at h
  | markStageAttemptNotSent =>
    obtain ⟨latest, hread, h⟩ := bind_eq_ok.mp h
    split at h
    · cases h
      exact required_eq_ok.mp hread
    · simp only [bind_eq_ok, pure_eq_ok, reduceCtorEq, and_false, exists_false] at h
  | recordStageAttemptResponse evidence now =>
    obtain ⟨_, -, h⟩ := bind_eq_ok.mp h
    obtain ⟨latest, hread, h⟩ := bind_eq_ok.mp h
    split at h
    · obtain ⟨_, -, h⟩ := bind_eq_ok.mp h
      cases h
      exact required_eq_ok.mp hread
    · simp only [bind_eq_ok, pure_eq_ok, reduceCtorEq, and_false, exists_false] at h
  | reconcileStageAttempt evidence =>
    obtain ⟨_, -, h⟩ := bind_eq_ok.mp h
    obtain ⟨latest, hread, h⟩ := bind_eq_ok.mp h
    split at h
    · obtain ⟨_, -, h⟩ := bind_eq_ok.mp h
      cases h
      exact required_eq_ok.mp hread
    · simp only [bind_eq_ok, pure_eq_ok, reduceCtorEq, and_false, exists_false] at h
  | recordStageAttemptFailure => cases h
  | completeStage evidence =>
    obtain ⟨_, -, h⟩ := bind_eq_ok.mp h
    cases hcompletion : s.completion with
    | some completion =>
      rw [hcompletion] at h
      obtain ⟨_, -, h⟩ := bind_eq_ok.mp h
      cases h
    | none =>
      rw [hcompletion] at h
      simp only [bind_eq_ok, pure_eq_ok, reduceCtorEq, and_false, exists_false] at h
  | append e => cases h

/-- What single calls keep true. -/
theorem stage_upholds (X : StageContext ω) : (stageWriters X).Upholds (fun _ s _ => s.Agrees X)
    (fun _ _ p => p.Sound X) (StageCurrent X) where
  answer _ _ _ _ _ hs _ := hs
  keep _ _ _ _ _ _ hread := stageRead_sound hread
  append := by
    intro journal s answers p events r hs hp hcurrent happend
    obtain ⟨t, ht, hnext⟩ := stageAppend_ok hs hp hcurrent happend
    exact ⟨t, ht, hnext.agrees, hnext.agrees, fun _ hq => hq⟩

/-- What one move does. -/
theorem stage_step {W : World (List (StageEvent ω)) (StageKept ω) StageAnswer}
    {m : Move (StageCall ω) Empty}
    (hW : (stageWriters X).Holds (fun _ s _ => s.Agrees X) (fun _ _ p => p.Sound X) W)
    (hm : (stageWriters X).When (StageCurrent X) W m) :
    ∃ s t, replay (stageWriters X).apply .empty W.store = .ok s ∧
      replay (stageWriters X).apply .empty ((stageWriters X).service.step W m).1.store = .ok t ∧
      s.Later t ∧ (∀ v, t.completion = some v → s.completion = some v ∨ Reconciles s v) ∧
      ∀ current, ((stageWriters X).service.step W m).2 = some (.attempt current) →
        t.operational = some current := by
  obtain ⟨s, hs, hagrees⟩ := hW.store
  have hcommitted : ∀ {p : StageKept ω} {through after r}, p ∈ W.inFlight →
      (∀ s, replay (stageWriters X).apply .empty W.store = .ok s → StageCurrent X s p) →
      (stageWriters X).service.writes W.store p = .ok (through, after, r) →
      through = [] ∧ ∃ t, replay (stageWriters X).apply .empty after = .ok t ∧
        Advances X s t r := by
    intro p through after r hp hcurrent hwrites
    obtain ⟨events, happend, -, hthrough, rfl⟩ := (Writers.service_writes_eq_ok hs).mp hwrites
    have hsound := (Writers.replays_iff hs).mp (hW.inFlight p hp)
    obtain ⟨t, ht, hadvances⟩ := stageAppend_ok hagrees hsound (hcurrent s hs) happend
    exact ⟨hthrough, t, (replay_append_of_ok hs).trans ht, hadvances⟩
  -- a call reads the state that it answers with; only a commit changes the journal
  cases hanswer : ((stageWriters X).service.step W m).2 with
  | none =>
    rcases Service.step_store hm with hsame | ⟨p, hp, hcurrent, through, after, r, hwrites, hmem⟩ |
      ⟨e, -, -⟩
    · exact ⟨s, s, hs, hsame ▸ hs, .refl s, fun _ hv => Or.inl hv, fun _ h => by cases h⟩
    · obtain ⟨rfl, t, ht, hadvances⟩ := hcommitted hp hcurrent hwrites
      rw [List.mem_singleton.mp hmem]
      exact ⟨s, t, hs, ht, hadvances.later, hadvances.completes, fun _ h => by cases h⟩
    · exact e.elim
  | some r =>
    rcases Service.step_answer hanswer with ⟨c, rfl, hread⟩ | ⟨i, p, rfl, hcall, through, after,
      hwrites⟩
    · have hsame : ((stageWriters X).service.step W (.call c)).1.store = W.store :=
        Service.call_store W c
      refine ⟨s, s, hs, hsame ▸ hs, .refl s, fun _ hv => Or.inl hv, ?_⟩
      intro current hcurrent
      rw [Option.some.inj hcurrent] at hread
      exact stageRead_answer ((Writers.service_read_eq_ok hs).mp hread)
    · obtain ⟨-, t, ht, hadvances⟩ :=
        hcommitted (List.mem_of_getElem? hcall) (hm p hcall) hwrites
      rw [Service.step_writes hcall hwrites]
      refine ⟨s, t, hs, ht, hadvances.later, hadvances.completes, ?_⟩
      intro current hcurrent
      exact hadvances.returned current (Option.some.inj hcurrent)

variable (X) in
/-- What is asked of a run: nothing undoes a sent attempt or a completion, a stage completes with
the reconciled evidence, and a writer returns what a replay of the journal then gives. -/
structure StageLaws (moves : List (Move (StageCall ω) Empty)) : Prop where
  later : ∀ before after, moves = before ++ after → ∃ s t,
    replay (stageWriters X).apply .empty
      (stateAfterRun (stageWriters X).service.step (World.start []) before).store = .ok s ∧
    replay (stageWriters X).apply .empty
      (stateAfterRun (stageWriters X).service.step (World.start []) moves).store = .ok t ∧
    s.Later t
  completes : EveryStep (stageWriters X).service.step (fun W m => ∀ s t v,
    replay (stageWriters X).apply .empty W.store = .ok s →
    replay (stageWriters X).apply .empty ((stageWriters X).service.step W m).1.store = .ok t →
    s.completion = none → t.completion = some v → Reconciles s v) (World.start []) moves
  returned : EveryStep (stageWriters X).service.step (fun W m => ∀ current,
    ((stageWriters X).service.step W m).2 = some (.attempt current) → ∃ t,
    replay (stageWriters X).apply .empty ((stageWriters X).service.step W m).1.store = .ok t ∧
      t.operational = some current) (World.start []) moves

theorem stage_holds {moves : List (Move (StageCall ω) Empty)}
    (hcurrent : EveryStep (stageWriters X).service.step ((stageWriters X).When (StageCurrent X))
      (World.start []) moves) :
    (stageWriters X).Holds (fun _ s _ => s.Agrees X) (fun _ _ p => p.Sound X)
      (stateAfterRun (stageWriters X).service.step (World.start []) moves) := by
  apply (stage_upholds X).run ?_ hcurrent
  refine ⟨?_, ?_, ?_⟩
  · intro a ha
    cases ha
  · intro _ a ha
    cases ha
  · intro hcompleted
    cases hcompleted

/-- What a later part of a run keeps of an earlier state. -/
theorem later_run {W : World (List (StageEvent ω)) (StageKept ω) StageAnswer}
    (hW : (stageWriters X).Holds (fun _ s _ => s.Agrees X) (fun _ _ p => p.Sound X) W)
    {moves : List (Move (StageCall ω) Empty)}
    (hcurrent : EveryStep (stageWriters X).service.step ((stageWriters X).When (StageCurrent X))
      W moves) :
    ∃ s t, replay (stageWriters X).apply .empty W.store = .ok s ∧
      replay (stageWriters X).apply .empty
        (stateAfterRun (stageWriters X).service.step W moves).store = .ok t ∧ s.Later t := by
  induction moves generalizing W with
  | nil =>
    obtain ⟨s, hs, -⟩ := hW.store
    exact ⟨s, s, hs, hs, .refl s⟩
  | cons m moves ih =>
    obtain ⟨hfirst, hrest⟩ := everyStep_cons.mp hcurrent
    obtain ⟨s, u, hs, hu, hsu, -, -⟩ := stage_step hW hfirst
    obtain ⟨u', t, hu', ht, hut⟩ := ih ((stage_upholds X).service.step W m hW hfirst) hrest
    have hsame : u = u' := Except.ok.inj (hu.symm.trans hu')
    exact ⟨s, t, hs, ht, hsu.trans (hsame ▸ hut)⟩

variable (X) in
/-- In every run of the calls whose commits meet the condition, with crashes anywhere. -/
theorem stageAttempt_laws (moves : List (Move (StageCall ω) Empty))
    (hcurrent : EveryStep (stageWriters X).service.step ((stageWriters X).When (StageCurrent X))
      (World.start []) moves) : StageLaws X moves where
  later := by
    rintro before after rfl
    obtain ⟨hbefore, hafter⟩ := everyStep_append.mp hcurrent
    rw [stateAfterRun_append]
    exact later_run (stage_holds hbefore) hafter
  completes := by
    intro before m after hmoves s t v hs ht hnone hcompletion
    subst hmoves
    obtain ⟨hbefore, hrest⟩ := everyStep_append.mp hcurrent
    obtain ⟨s', t', hs', ht', -, hcompletes, -⟩ :=
      stage_step (stage_holds hbefore) (everyStep_cons.mp hrest).1
    have hsame : s' = s := Except.ok.inj (hs'.symm.trans hs)
    have hsame' : t' = t := Except.ok.inj (ht'.symm.trans ht)
    subst hsame hsame'
    rcases hcompletes v hcompletion with hold | hreconciles
    · rw [hnone] at hold
      cases hold
    · exact hreconciles
  returned := by
    intro before m after hmoves current hanswer
    subst hmoves
    obtain ⟨hbefore, hrest⟩ := everyStep_append.mp hcurrent
    obtain ⟨s, t, -, ht, -, -, hreturned⟩ :=
      stage_step (stage_holds hbefore) (everyStep_cons.mp hrest).1
    exact ⟨t, ht, hreturned current hanswer⟩

end Laws

/-! ## A failure that a writer does not see -/

/-- A stage whose evidence is small. -/
def sampleStage : StageContext Unit where
  cycleId := text "cycle-1"
  stage := .purchase
  evidenceDigest _ _ := sampleDigest 97
  assertPrepared _ _ := .ok ()
  assertFinalized _ := .ok ()
  fitsBoundedJournalPayload _ := true
  pageReference v := v
  resolved v := v
  others := silentRecords
  fits _ _ := true
  fits_congr _ _ _ := rfl

def sampleAttempt : ProviderMutationAttempt where
  cycleId := text "cycle-1"
  stage := .purchase
  state := .prepared
  requestDigest := sampleDigest 98
  responseDigest := none
  reconciliationDigest := none

/-- The attempt is prepared, and a call that marks it as sent has read it. -/
def samplePreparation : List (Move (StageCall Unit) Empty) :=
  [.call (.prepareStageAttempt sampleAttempt), .commit 0, .call (.markStageAttemptSentUnknown 1)]

/-- A failure is recorded before that call commits. -/
def racingFailure : List (Move (StageCall Unit) Empty) :=
  samplePreparation ++ [.call .recordStageAttemptFailure, .commit 1]

/-- What the call returns. -/
def staleRecord : OperationalAttempt :=
  { preparedRecord { sampleAttempt with state := .sentUnknown } with sentAtMs := some 1 }

/-- The call returns the record without the failure; the replay has it. -/
theorem returned_without_failure : ¬ ∀ moves : List (Move (StageCall Unit) Empty),
    StageLaws sampleStage moves := by
  intro h
  obtain ⟨t, ht, hcurrent⟩ := (h (racingFailure ++ [.commit 0])).returned racingFailure (.commit 0)
    [] rfl staleRecord (by decide +kernel)
  have hfailed : (replay (stageWriters sampleStage).apply .empty
      ((stageWriters sampleStage).service.step (stateAfterRun (stageWriters sampleStage).service.step
        (World.start []) racingFailure) (.commit 0)).1.store).map StageState.operational
      = .ok (some { staleRecord with failed := true }) := by
    decide +kernel
  rw [ht] at hfailed
  have hsame : t.operational = some { staleRecord with failed := true } := Except.ok.inj hfailed
  rw [hcurrent] at hsame
  exact absurd hsame (by decide)

/-- An attempt that is prepared and marked as sent. -/
theorem stageAttempt_laws_sample : StageLaws sampleStage (samplePreparation ++ [.commit 0]) := by
  apply stageAttempt_laws
  refine everyStep_append.mpr ⟨?_, everyStep_cons.mpr ⟨?_, everyStep_nil⟩⟩
  · refine everyStep_cons.mpr ⟨trivial, everyStep_cons.mpr ⟨?_, everyStep_cons.mpr
      ⟨trivial, everyStep_nil⟩⟩⟩
    intro p hp s _
    have hcall : ((stageWriters sampleStage).service.step (World.start [])
        (.call (.prepareStageAttempt sampleAttempt))).1.inFlight[0]?
          = some (.prepare sampleAttempt) := by
      rfl
    rw [hcall] at hp
    cases hp
    trivial
  · intro p hp s hs
    have hcall : (stateAfterRun (stageWriters sampleStage).service.step (World.start [])
        samplePreparation).inFlight[0]? = some (.observe (preparedRecord sampleAttempt)
          (.stageAttemptSentUnknown staleRecord.attempt 1) staleRecord) := by
      rfl
    have hread : (replay (stageWriters sampleStage).apply (stageWriters sampleStage).init
        (stateAfterRun (stageWriters sampleStage).service.step (World.start []) samplePreparation).store).map
          StageState.operational = .ok (some (preparedRecord sampleAttempt)) := by
      decide +kernel
    rw [hcall] at hp
    cases hp
    intro latest hlatest _
    rw [hs] at hread
    have hoperational : s.operational = some (preparedRecord sampleAttempt) :=
      Except.ok.inj hread
    exact Option.some.inj (hlatest.symm.trans hoperational)

end Hookemon.Repository
