import Hookemon.Repository.Admission

/-! # Refreshing an expired outbound quote (`app/cycle-repository.mjs`)

A cycle whose outbound quote expires before anything was sent may record the expiry once, and
then select one replacement of its admission. Both are refused as soon as the cycle has an
outbound stage request, chain attempt or Relay leg; those are written by other calls of the
same cycle at the same time.
-/

namespace Hookemon.Repository

open Hookemon.Core Hookemon.Js Hookemon.Runner

/-! ## Expiry evidence and replacements -/

structure OutboundQuoteIdentity where
  requestId : Text
  deadlineUnixSeconds : Nat
  quoteDigest : Text
deriving DecidableEq, Repr

/-- `plan` is version 2 of the schema, with a list of unit quotes; version 1 has one. -/
structure OutboundQuoteExpiryEvidence where
  plan : Bool
  cycleId : Text
  admissionDigest : Text
  aggregateQuote : OutboundQuoteIdentity
  unitQuotes : List OutboundQuoteIdentity
  observedAtMs : Nat
deriving DecidableEq, Repr

def AdmissionRelay.identity (relay : AdmissionRelay) : OutboundQuoteIdentity :=
  ⟨relay.requestId, relay.deadlineUnixSeconds, relay.quoteDigest⟩

def assertOutboundQuoteIdentity (value : OutboundQuoteIdentity) (label : String) :
    Except String Unit := do
  throwIf (value.requestId.length = 0) (label ++ " requestId is invalid")
  throwIf (¬ isSafePositive value.deadlineUnixSeconds) (label ++ " deadlineUnixSeconds is invalid")
  assertDigest value.quoteDigest (label ++ " quoteDigest")

def assertOutboundQuoteExpiryEvidence (value : OutboundQuoteExpiryEvidence) (cycleId : Text) :
    Except String Unit := do
  let label := "cycle-repository outbound quote expiry evidence"
  throwIf (value.cycleId ≠ cycleId) (label ++ " does not name this cycle")
  assertDigest value.admissionDigest (label ++ " admissionDigest")
  assertOutboundQuoteIdentity value.aggregateQuote (label ++ " aggregateQuote")
  throwIf (value.unitQuotes.length = 0 ∨ 64 < value.unitQuotes.length ∨
    (¬ value.plan ∧ value.unitQuotes.length ≠ 1)) (label ++ " unit quotes are invalid")
  value.unitQuotes.forM fun unit => assertOutboundQuoteIdentity unit (label ++ " unit quote")
  throwIf (¬ isSafePositive value.observedAtMs) (label ++ " observedAtMs is invalid")
  throwIf (∀ quote ∈ value.aggregateQuote :: value.unitQuotes,
      value.observedAtMs / 1000 < quote.deadlineUnixSeconds)
    (label ++ " requires the aggregate or unit quote to actually be expired at the observed time")

def assertOutboundQuoteExpiryEvidenceMatchesAdmission (admissionDigest : Admission → Text)
    (evidence : OutboundQuoteExpiryEvidence) (admission : Option Admission) :
    Except String Unit := do
  let label := "cycle-repository outbound quote expiry evidence: "
  let admission ← required admission
    (label ++ "this cycle has no original durable admission to bind against")
  throwIf (evidence.admissionDigest ≠ admissionDigest admission)
    (label ++ "admissionDigest does not match this cycle's admission")
  throwIf (evidence.aggregateQuote ≠ admission.relay.identity)
    (label ++ "aggregateQuote does not match this cycle's admitted aggregate quote")
  throwIf (¬ (evidence.plan ↔ admission.schema = .v4) ∨
      evidence.unitQuotes ≠ admission.orders.map fun unit => unit.unitRelay.identity)
    (label ++ "unitQuote does not match this cycle's admitted unit quote")

/-- The packs of two admissions are the same. -/
def samePacks (normalized admission : Admission) : Bool :=
  if admission.schema = .v4 then normalized.packPlan = admission.packPlan
  else normalized.packId = admission.packId

def assertOutboundQuoteReplacementIdentity (normalized : Admission) (admission : Option Admission)
    (releaseAmount : Text) (label : String) : Except String Unit := do
  let admission ← required admission
    (label ++ ": this cycle has no original durable admission to bind against")
  throwIf (normalized.schema ≠ admission.schema ∨ normalized.quantity ≠ admission.quantity ∨
      ¬ samePacks normalized admission)
    (label ++ ": replacement pack/quantity does not match the original admission")
  throwIf (normalized.aggregatePurchase ≠ admission.aggregatePurchase ∨
      (normalized.orders.map fun unit => unit.unitPurchase)
        ≠ admission.orders.map fun unit => unit.unitPurchase)
    (label ++ ": replacement destination target does not match the original admission")
  throwIf (normalized.aggregateFundingQuote.amountAtomic ≠ releaseAmount)
    (label ++ ": replacement source amount does not exactly equal the immutable release amount")

def assertOutboundQuoteReplacementFreshness (replacement : Admission) (selectedAtMs : Nat)
    (label : String) : Except String Unit :=
  throwIf (replacement.relay.deadlineUnixSeconds ≤ selectedAtMs / 1000 ∨
      ∃ unit ∈ replacement.orders, unit.unitRelay.deadlineUnixSeconds ≤ selectedAtMs / 1000)
    (label ++ ": replacement quote deadlines must be strictly later than the selection time")

/-! ## Journal events -/

inductive RelayLegDirection where
  | outbound | return
deriving DecidableEq, Repr

structure ReplacementSelection where
  predecessorExpiryDigest : Text
  replacement : Admission
  replacementDigest : Text
  refreshPolicyDecisionDigest : Text
  selectedAtMs : Nat
deriving DecidableEq

/-- Of the effect records the events say what `hasOutboundEffectRecords` looks at: a record
keeps its stage or direction in all its later states. -/
inductive RefreshEvent (ω : Type) where
  | stageRequestPrepared (stage : OperationalStage) (requestDigest : Text)
  | chainAttemptPrepared (stage : OperationalStage) (requestDigest : Text)
  | relayLegRecorded (direction : RelayLegDirection) (relayRequestId : Text)
  | outboundQuoteExpired (evidence : OutboundQuoteExpiryEvidence)
  | outboundQuoteRefreshSelected (selection : ReplacementSelection)
  | cycleTerminal (terminalState : CycleTerminalState)
  | cycleCompleted
  | other (record : ω)

namespace RefreshEvent

variable {ω : Type} (others : OtherRecords ω)

def isTerminal : RefreshEvent ω → Bool
  | .cycleTerminal _ | .cycleCompleted => true
  | _ => false

/-- `POST_TERMINAL_RECORD_KINDS`. -/
def afterTerminal : RefreshEvent ω → Bool
  | .other record => others.afterTerminal record
  | _ => false

/-- `POST_COMPLETION_RECORD_KINDS`. -/
def afterCompletion : RefreshEvent ω → Bool
  | .other record => others.afterCompletion record
  | _ => false

end RefreshEvent

/-- What the calls of a cycle share: how it was opened, the approved accounts, the digests of
admissions and of journal entries, and the records of other families. -/
structure RefreshContext (ω : Type) where
  cycleId : Text
  releaseAmount : Text
  admission : Option Admission
  operations : OperationsAccounts
  authentic : Admission → Except String Unit
  admissionDigest : Admission → Text
  entryDigest : Nat → Option Text → RefreshEvent ω → Text
  others : OtherRecords ω
  /-- An admission of the current schemas was accepted when the cycle was opened. -/
  admitted : ∀ value ∈ admission, value.schema ≠ .v2 → ∃ label,
    assertDurableCycleAdmission operations authentic value cycleId label = .ok value

/-- `outboundQuoteRefresh`: `REFRESH_REQUIRED` without a selection, `ACTIVE` with one. -/
structure OutboundQuoteRefresh where
  expiry : OutboundQuoteExpiryEvidence
  expiryDigest : Text
  selection : Option ReplacementSelection
deriving DecidableEq

/-- What these calls look at of the replayed state. -/
structure RefreshState (ω : Type) where
  stageRequestDigests : OperationalStage → List Text
  chainAttempts : List (OperationalStage × Text)
  relayLegs : List (RelayLegDirection × Text)
  outboundQuoteRefresh : Option OutboundQuoteRefresh
  others : List ω
  completed : Bool
  terminalState : Option CycleTerminalState
  version : Nat
  journalHead : Option Text

namespace RefreshState

variable {ω : Type} (X : RefreshContext ω) (s : RefreshState ω)

def empty : RefreshState ω := ⟨fun _ => [], [], [], none, [], false, none, 0, none⟩

/-- Any outbound stage request digest, chain attempt or Relay leg. -/
def hasOutboundEffectRecords : Bool :=
  s.stageRequestDigests .outbound ≠ [] ∨ (∃ record ∈ s.chainAttempts, record.1 = .outbound) ∨
    ∃ leg ∈ s.relayLegs, leg.1 = .outbound

/-! ### Replay -/

def replayStageRequest (stage : OperationalStage) (requestDigest : Text) : RefreshState ω :=
  let digests := s.stageRequestDigests stage
  { s with
    stageRequestDigests := Function.update s.stageRequestDigests stage
      (if requestDigest ∈ digests then digests else digests ++ [requestDigest]) }

def replayExpired (digest : Text) (evidence : OutboundQuoteExpiryEvidence) :
    Except String (RefreshState ω) := do
  assertOutboundQuoteExpiryEvidence evidence X.cycleId
  assertOutboundQuoteExpiryEvidenceMatchesAdmission X.admissionDigest evidence X.admission
  throwIf s.hasOutboundEffectRecords
    "stored cycle recorded outbound quote expiry evidence after an outbound effect record"
  match s.outboundQuoteRefresh with
  | some refresh => do
    throwIf (refresh.selection ≠ none ∨ refresh.expiry ≠ evidence)
      "stored cycle has conflicting outbound quote expiry evidence"
    return s
  | none => .ok { s with outboundQuoteRefresh := some ⟨evidence, digest, none⟩ }

def replaySelected (selection : ReplacementSelection) : Except String (RefreshState ω) := do
  let refresh ← required s.outboundQuoteRefresh
    "stored cycle has a replacement selection without an exact REFRESH_REQUIRED predecessor"
  throwIf (refresh.selection ≠ none)
    "stored cycle has a replacement selection without an exact REFRESH_REQUIRED predecessor"
  throwIf (selection.predecessorExpiryDigest ≠ refresh.expiryDigest)
    "stored cycle replacement selection does not bind the exact expiry predecessor"
  throwIf s.hasOutboundEffectRecords
    "stored cycle selected an outbound quote refresh replacement after an outbound effect record"
  assertDigest selection.replacementDigest "stored outbound quote refresh replacementDigest"
  assertDigest selection.refreshPolicyDecisionDigest
    "stored outbound quote refresh refreshPolicyDecisionDigest"
  let replacement ← assertDurableCycleAdmission X.operations X.authentic selection.replacement
    X.cycleId "stored outbound quote refresh replacement admission"
  throwIf (X.admissionDigest replacement ≠ selection.replacementDigest)
    "stored outbound quote refresh replacementDigest does not match the replacement admission"
  throwIf (¬ isSafePositive selection.selectedAtMs)
    "stored outbound quote refresh selectedAtMs is invalid"
  assertOutboundQuoteReplacementIdentity replacement X.admission X.releaseAmount
    "stored outbound quote refresh replacement"
  assertOutboundQuoteReplacementFreshness replacement selection.selectedAtMs
    "stored outbound quote refresh replacement"
  return { s with outboundQuoteRefresh := some { refresh with selection := some selection } }

def replayEvent (e : RefreshEvent ω) : Except String (RefreshState ω) :=
  match e with
  | .stageRequestPrepared stage requestDigest => .ok (s.replayStageRequest stage requestDigest)
  | .chainAttemptPrepared stage requestDigest => do
    throwIf ((stage, requestDigest) ∈ s.chainAttempts) "stored chain transaction preparation is invalid"
    return { s with chainAttempts := s.chainAttempts ++ [(stage, requestDigest)] }
  | .relayLegRecorded direction relayRequestId => do
    throwIf (∃ leg ∈ s.relayLegs, leg.2 = relayRequestId) "stored Relay leg is invalid"
    return { s with relayLegs := s.relayLegs ++ [(direction, relayRequestId)] }
  | .outboundQuoteExpired evidence =>
    s.replayExpired X (X.entryDigest s.version s.journalHead e) evidence
  | .outboundQuoteRefreshSelected selection => s.replaySelected X selection
  | .cycleTerminal terminalState => .ok { s with terminalState := some terminalState }
  | .cycleCompleted => do
    X.others.assertClosure s.others
    return { s with completed := true, terminalState := some .completed }
  | .other record => .ok { s with others := s.others ++ [record] }

/-- `#replayStored`, one entry. -/
def apply (e : RefreshEvent ω) : Except String (RefreshState ω) := do
  assertRecordAllowed s.terminalState s.completed (e.afterTerminal X.others)
    (e.afterCompletion X.others) e.isTerminal
  let next ← s.replayEvent X e
  return { next with
    version := s.version + 1
    journalHead := some (X.entryDigest s.version s.journalHead e) }

end RefreshState

/-! ## Calls -/

inductive RefreshCall (ω : Type) where
  | recordOutboundQuoteExpired (evidence : OutboundQuoteExpiryEvidence) (now : Nat)
  | selectOutboundQuoteRefresh (predecessorExpiryDigest : Text) (replacement : Admission)
      (refreshPolicyDecisionDigest : Text) (now : Nat)
  | readOutboundQuoteRefresh
  | recordStageRequestDigest (stage : OperationalStage) (requestDigest : Text)
  | prepareChainTransactionAttempt (stage : OperationalStage) (requestDigest : Text)
  | recordRelayLeg (direction : RelayLegDirection) (relayRequestId : Text)
  | holdCycle (terminalState : CycleTerminalState)
  | completeCycle
  | other (record : ω)

/-- What a call keeps between its reading and its commit. -/
inductive RefreshWrite (ω : Type) where
  | expired (evidence : OutboundQuoteExpiryEvidence)
  | selected (selection : ReplacementSelection)
  | stageRequest (stage : OperationalStage) (requestDigest : Text)
  | chainAttempt (stage : OperationalStage) (requestDigest : Text)
  | relayLeg (direction : RelayLegDirection) (relayRequestId : Text)
  | held (terminalState : CycleTerminalState)
  | completed
  | other (record : ω)

/-- `recorded` is the answer of a commit. What the two refresh calls give back is read from the
journal afterwards, as `readOutboundQuoteRefresh` does. -/
inductive RefreshAnswer where
  | refresh (value : Option OutboundQuoteRefresh)
  | recorded
deriving DecidableEq

namespace RefreshState

variable {ω : Type} (X : RefreshContext ω) (s : RefreshState ω)

/-! ### Before the append -/

/-- One attempt of the loop. -/
def recordOutboundQuoteExpired (evidence : OutboundQuoteExpiryEvidence) (now : Nat) :
    Except String (Reading (RefreshWrite ω) RefreshAnswer) := do
  assertNotTerminal s.terminalState "recordOutboundQuoteExpired"
  assertOutboundQuoteExpiryEvidence evidence X.cycleId
  assertOutboundQuoteExpiryEvidenceMatchesAdmission X.admissionDigest evidence X.admission
  throwIf (now < evidence.observedAtMs)
    ("cycle-repository recordOutboundQuoteExpired: observedAtMs is later than the repository's"
      ++ " trusted current time")
  throwIf s.hasOutboundEffectRecords
    ("cycle-repository recordOutboundQuoteExpired: an outbound stage request, Relay leg, or chain"
      ++ " attempt already exists")
  match s.outboundQuoteRefresh with
  | none => .ok (.keep (.expired evidence))
  | some refresh => do
    throwIf (refresh.expiry ≠ evidence)
      "cycle-repository recordOutboundQuoteExpired: conflicting expiry evidence is already recorded"
    return .answer (.refresh (some refresh))

/-- One attempt of the loop. -/
def selectOutboundQuoteRefresh (predecessorExpiryDigest : Text) (replacement : Admission)
    (refreshPolicyDecisionDigest : Text) (now : Nat) :
    Except String (Reading (RefreshWrite ω) RefreshAnswer) := do
  assertDigest predecessorExpiryDigest
    "cycle-repository selectOutboundQuoteRefresh predecessorExpiryDigest"
  assertDigest refreshPolicyDecisionDigest
    "cycle-repository selectOutboundQuoteRefresh refreshPolicyDecisionDigest"
  assertNotTerminal s.terminalState "selectOutboundQuoteRefresh"
  let refresh ← required s.outboundQuoteRefresh
    "cycle-repository selectOutboundQuoteRefresh: requires an exact REFRESH_REQUIRED predecessor"
  throwIf (refresh.selection ≠ none)
    "cycle-repository selectOutboundQuoteRefresh: requires an exact REFRESH_REQUIRED predecessor"
  throwIf (refresh.expiryDigest ≠ predecessorExpiryDigest)
    "cycle-repository selectOutboundQuoteRefresh: predecessor expiry digest does not match"
  throwIf s.hasOutboundEffectRecords
    ("cycle-repository selectOutboundQuoteRefresh: an outbound stage request, Relay leg, or chain"
      ++ " attempt already exists")
  let normalized ← assertDurableCycleAdmission X.operations X.authentic replacement X.cycleId
    "cycle-repository selectOutboundQuoteRefresh replacement admission"
  assertOutboundQuoteReplacementIdentity normalized X.admission X.releaseAmount
    "cycle-repository selectOutboundQuoteRefresh"
  assertOutboundQuoteReplacementFreshness normalized now
    "cycle-repository selectOutboundQuoteRefresh"
  return .keep (.selected ⟨predecessorExpiryDigest, normalized, X.admissionDigest normalized,
    refreshPolicyDecisionDigest, now⟩)

def recordStageRequestDigest (stage : OperationalStage) (requestDigest : Text) :
    Except String (Reading (RefreshWrite ω) RefreshAnswer) := do
  throwIf (¬ isDigest requestDigest)
    "cycle-repository recordStageRequestDigest: request digest is invalid"
  if requestDigest ∈ s.stageRequestDigests stage then return .answer .recorded
  else return .keep (.stageRequest stage requestDigest)

def prepareChainTransactionAttempt (stage : OperationalStage) (requestDigest : Text) :
    Except String (Reading (RefreshWrite ω) RefreshAnswer) := do
  assertNotTerminal s.terminalState "prepareChainTransactionAttempt"
  if (stage, requestDigest) ∈ s.chainAttempts then return .answer .recorded
  else return .keep (.chainAttempt stage requestDigest)

def recordRelayLeg (direction : RelayLegDirection) (relayRequestId : Text) :
    Except String (Reading (RefreshWrite ω) RefreshAnswer) := do
  assertNotTerminal s.terminalState "recordRelayLeg"
  if ∃ leg ∈ s.relayLegs, leg.2 = relayRequestId then
    throwIf ((direction, relayRequestId) ∉ s.relayLegs)
      "cycle-repository recordRelayLeg: Relay request id already has different evidence"
    return .answer .recorded
  else return .keep (.relayLeg direction relayRequestId)

def holdCycle (terminalState : CycleTerminalState) :
    Except String (Reading (RefreshWrite ω) RefreshAnswer) := do
  throwIf (¬ terminalState.isHeld) "cycle-repository holdCycle requires a held terminal state"
  if s.terminalState = none then return .keep (.held terminalState)
  else
    throwIf (s.terminalState ≠ some terminalState)
      "cycle-repository holdCycle terminal state conflict"
    return .answer .recorded

def completeCycle : Except String (Reading (RefreshWrite ω) RefreshAnswer) := do
  if s.completed then return .answer .recorded
  else
    assertNotTerminal s.terminalState "completeCycle"
    X.others.assertClosure s.others
    return .keep .completed

def read : RefreshCall ω → Except String (Reading (RefreshWrite ω) RefreshAnswer)
  | .recordOutboundQuoteExpired evidence now => s.recordOutboundQuoteExpired X evidence now
  | .selectOutboundQuoteRefresh predecessor replacement decision now =>
    s.selectOutboundQuoteRefresh X predecessor replacement decision now
  | .readOutboundQuoteRefresh => .ok (.answer (.refresh s.outboundQuoteRefresh))
  | .recordStageRequestDigest stage requestDigest => s.recordStageRequestDigest stage requestDigest
  | .prepareChainTransactionAttempt stage requestDigest =>
    s.prepareChainTransactionAttempt stage requestDigest
  | .recordRelayLeg direction relayRequestId => s.recordRelayLeg direction relayRequestId
  | .holdCycle terminalState => s.holdCycle terminalState
  | .completeCycle => s.completeCycle X
  | .other record => .ok (.keep (.other record))

/-! ### Inside the append -/

def appendExpired (evidence : OutboundQuoteExpiryEvidence) :
    Except String (List (RefreshEvent ω) × RefreshAnswer) := do
  assertNotTerminal s.terminalState "recordOutboundQuoteExpired"
  throwIf s.hasOutboundEffectRecords
    ("cycle-repository recordOutboundQuoteExpired: an outbound effect record appeared while"
      ++ " recording expiry")
  throwIf s.outboundQuoteRefresh.isSome
    "cycle-repository recordOutboundQuoteExpired: expiry evidence was recorded concurrently"
  return ([.outboundQuoteExpired evidence], .recorded)

def appendSelected (selection : ReplacementSelection) :
    Except String (List (RefreshEvent ω) × RefreshAnswer) := do
  assertNotTerminal s.terminalState "selectOutboundQuoteRefresh"
  let refresh ← required s.outboundQuoteRefresh
    "cycle-repository selectOutboundQuoteRefresh: a replacement was already selected concurrently"
  throwIf (refresh.selection ≠ none)
    "cycle-repository selectOutboundQuoteRefresh: a replacement was already selected concurrently"
  throwIf (refresh.expiryDigest ≠ selection.predecessorExpiryDigest)
    "cycle-repository selectOutboundQuoteRefresh: predecessor changed concurrently"
  throwIf s.hasOutboundEffectRecords
    "cycle-repository selectOutboundQuoteRefresh: an outbound effect record appeared while selecting"
  return ([.outboundQuoteRefreshSelected selection], .recorded)

def appendChainAttempt (stage : OperationalStage) (requestDigest : Text) :
    Except String (List (RefreshEvent ω) × RefreshAnswer) := do
  assertNotTerminal s.terminalState "prepareChainTransactionAttempt"
  throwIf ((stage, requestDigest) ∈ s.chainAttempts)
    ("cycle-repository prepareChainTransactionAttempt: request \"" ++ shown requestDigest
      ++ "\" already has a chain attempt")
  return ([.chainAttemptPrepared stage requestDigest], .recorded)

def appendRelayLeg (direction : RelayLegDirection) (relayRequestId : Text) :
    Except String (List (RefreshEvent ω) × RefreshAnswer) := do
  assertNotTerminal s.terminalState "recordRelayLeg"
  throwIf (∃ leg ∈ s.relayLegs, leg.2 = relayRequestId)
    "cycle-repository recordRelayLeg: Relay leg changed while recording"
  return ([.relayLegRecorded direction relayRequestId], .recorded)

def appendHeld (terminalState : CycleTerminalState) :
    Except String (List (RefreshEvent ω) × RefreshAnswer) := do
  throwIf s.terminalState.isSome
    "cycle-repository holdCycle terminal state changed while recording hold"
  return ([.cycleTerminal terminalState], .recorded)

def appendCompleted : Except String (List (RefreshEvent ω) × RefreshAnswer) := do
  assertNotTerminal s.terminalState "completeCycle"
  X.others.assertClosure s.others
  return ([.cycleCompleted], .recorded)

/-- A stage request is appended whatever the state is by then, and so may be the records of
other families. -/
def append : RefreshWrite ω → Except String (List (RefreshEvent ω) × RefreshAnswer)
  | .expired evidence => s.appendExpired evidence
  | .selected selection => s.appendSelected selection
  | .stageRequest stage requestDigest => .ok ([.stageRequestPrepared stage requestDigest], .recorded)
  | .chainAttempt stage requestDigest => s.appendChainAttempt stage requestDigest
  | .relayLeg direction relayRequestId => s.appendRelayLeg direction relayRequestId
  | .held terminalState => s.appendHeld terminalState
  | .completed => s.appendCompleted X
  | .other record => .ok ([.other record], .recorded)

end RefreshState

section Admissible

variable {ω : Type}

/-- The first record of an outbound effect. -/
def RefreshEvent.isOutboundEffect : RefreshEvent ω → Bool
  | .stageRequestPrepared .outbound _ | .chainAttemptPrepared .outbound _
  | .relayLegRecorded .outbound _ => true
  | _ => false

def RefreshEvent.isExpiry : RefreshEvent ω → Bool
  | .outboundQuoteExpired _ => true
  | _ => false

def RefreshEvent.isSelection : RefreshEvent ω → Bool
  | .outboundQuoteRefreshSelected _ => true
  | _ => false

variable (X : RefreshContext ω)

/-- The replacement is for the same cycle, packs, quantity and purchases as the admission, on
the same route, and for the amount that was released. -/
structure KeepsAdmission (admission replacement : Admission) : Prop where
  cycle : replacement.cycleId = X.cycleId ∧ admission.cycleId = X.cycleId
  schema : replacement.schema = admission.schema
  quantity : replacement.quantity = admission.quantity
  packs : samePacks replacement admission
  purchase : replacement.aggregatePurchase = admission.aggregatePurchase
  unitPurchases : (replacement.orders.map fun unit => unit.unitPurchase)
    = admission.orders.map fun unit => unit.unitPurchase
  amount : replacement.aggregateFundingQuote.amountAtomic = X.releaseAmount
  route : OnRoute X.operations replacement ∧ OnRoute X.operations admission

/-- All quotes of a selected replacement are good at the time of the selection. -/
structure FreshSelection (selection : ReplacementSelection) : Prop where
  aggregate : selection.selectedAtMs / 1000 < selection.replacement.relay.deadlineUnixSeconds
  units : ∀ unit ∈ selection.replacement.orders,
    selection.selectedAtMs / 1000 < unit.unitRelay.deadlineUnixSeconds

/-- An expiry is the first one, a selection the first one after it, and neither comes after an
outbound effect. -/
def Admissible (before : List (RefreshEvent ω)) : RefreshEvent ω → Prop
  | .outboundQuoteExpired _ =>
    (∀ e ∈ before, ¬ e.isExpiry) ∧ ∀ e ∈ before, ¬ e.isOutboundEffect
  | .outboundQuoteRefreshSelected selection =>
    (∃ e ∈ before, e.isExpiry) ∧ (∀ e ∈ before, ¬ e.isSelection) ∧
      (∀ e ∈ before, ¬ e.isOutboundEffect) ∧
      (∃ admission, X.admission = some admission ∧ KeepsAdmission X admission selection.replacement) ∧
      FreshSelection selection
  | _ => True

end Admissible

/-! ## The journal and the state -/

section Replayed

variable {ω : Type} {X : RefreshContext ω} {s t : RefreshState ω} {journal : List (RefreshEvent ω)}

/-- What the state does not have, the journal does not record. -/
structure RefreshAgrees (journal : List (RefreshEvent ω)) (s : RefreshState ω) : Prop where
  effects : s.hasOutboundEffectRecords = false → ∀ e ∈ journal, ¬ e.isOutboundEffect
  fresh : s.outboundQuoteRefresh = none → ∀ e ∈ journal, ¬ e.isExpiry ∧ ¬ e.isSelection
  expired : ∀ refresh, s.outboundQuoteRefresh = some refresh →
    (∃ e ∈ journal, e.isExpiry) ∧ (refresh.selection = none → ∀ e ∈ journal, ¬ e.isSelection)

/-- What a replayed event does to the refresh and to the effect records. -/
structure RefreshStep (X : RefreshContext ω) (s : RefreshState ω) (e : RefreshEvent ω)
    (t : RefreshState ω) : Prop where
  effects : t.hasOutboundEffectRecords = false →
    s.hasOutboundEffectRecords = false ∧ e.isOutboundEffect = false
  refresh : (e.isExpiry = false ∧ e.isSelection = false ∧
      t.outboundQuoteRefresh = s.outboundQuoteRefresh) ∨
    (e.isExpiry ∧ e.isSelection = false ∧
      ((∃ refresh, s.outboundQuoteRefresh = some refresh ∧ refresh.selection = none ∧
          t.outboundQuoteRefresh = s.outboundQuoteRefresh) ∨
        s.outboundQuoteRefresh = none ∧
          ∃ evidence digest, t.outboundQuoteRefresh = some ⟨evidence, digest, none⟩)) ∨
    (e.isExpiry = false ∧ ∃ refresh selection, s.outboundQuoteRefresh = some refresh ∧
      refresh.selection = none ∧
      t.outboundQuoteRefresh = some { refresh with selection := some selection })

theorem hasOutboundEffectRecords_congr (hdigests : t.stageRequestDigests = s.stageRequestDigests)
    (hattempts : t.chainAttempts = s.chainAttempts) (hlegs : t.relayLegs = s.relayLegs) :
    t.hasOutboundEffectRecords = s.hasOutboundEffectRecords := by
  unfold RefreshState.hasOutboundEffectRecords
  rw [hdigests, hattempts, hlegs]

theorem forall_concat {P : RefreshEvent ω → Prop} {e : RefreshEvent ω} (h : ∀ e ∈ journal, P e)
    (he : P e) : ∀ e' ∈ journal ++ [e], P e' := by
  intro e' hmem
  rcases List.mem_append.mp hmem with hold | hnew
  · exact h e' hold
  · rw [List.mem_singleton.mp hnew]
    exact he

theorem RefreshAgrees.step (h : RefreshAgrees journal s) {e : RefreshEvent ω}
    (hstep : RefreshStep X s e t) : RefreshAgrees (journal ++ [e]) t where
  effects := by
    intro hnone
    obtain ⟨hbefore, he⟩ := hstep.effects hnone
    exact forall_concat (h.effects hbefore) (by rw [he]; exact Bool.false_ne_true)
  fresh := by
    intro hnone
    rcases hstep.refresh with ⟨hexpiry, hselection, hsame⟩ | ⟨-, -, ⟨refresh, hsome, -, hsame⟩ | ⟨-, _, _, hnew⟩⟩ |
      ⟨-, refresh, selection, -, -, hnew⟩
    · rw [hsame] at hnone
      refine forall_concat (h.fresh hnone) ?_
      rw [hexpiry, hselection]
      exact ⟨Bool.false_ne_true, Bool.false_ne_true⟩
    · rw [hsame, hsome] at hnone
      cases hnone
    · rw [hnew] at hnone
      cases hnone
    · rw [hnew] at hnone
      cases hnone
  expired := by
    intro refresh hrefresh
    rcases hstep.refresh with ⟨-, hselection, hsame⟩ | ⟨hexpiry, hselection, hcase⟩ |
      ⟨-, previous, selection, hprevious, -, hnew⟩
    · rw [hsame] at hrefresh
      obtain ⟨⟨e', hmem, he'⟩, hnone⟩ := h.expired refresh hrefresh
      refine ⟨⟨e', List.mem_append_left _ hmem, he'⟩, fun hopen => ?_⟩
      refine forall_concat (hnone hopen) ?_
      rw [hselection]
      exact Bool.false_ne_true
    · refine ⟨⟨e, List.mem_append_right _ List.mem_cons_self, hexpiry⟩, fun hopen => ?_⟩
      refine forall_concat ?_ (by rw [hselection]; exact Bool.false_ne_true)
      rcases hcase with ⟨previous, hprevious, hopen', -⟩ | ⟨hnone, -⟩
      · exact (h.expired previous hprevious).2 hopen'
      · exact fun e' hmem => (h.fresh hnone e' hmem).2
    · obtain ⟨⟨e', hmem, he'⟩, -⟩ := h.expired previous hprevious
      refine ⟨⟨e', List.mem_append_left _ hmem, he'⟩, fun hopen => ?_⟩
      rw [hnew] at hrefresh
      cases hrefresh
      cases hopen

end Replayed

/-! ## The calls -/

section Calls

variable {ω : Type} {X : RefreshContext ω} {s : RefreshState ω} {journal : List (RefreshEvent ω)}
  {fits : List (RefreshEvent ω) → List (RefreshEvent ω) → Bool}

variable (X) in
/-- A selection in flight has passed the checks on its replacement. -/
def RefreshWrite.Sound : RefreshWrite ω → Prop
  | .selected selection =>
    (∃ admission, X.admission = some admission ∧ KeepsAdmission X admission selection.replacement) ∧
      FreshSelection selection
  | _ => True

variable (X) in
/-- Every event of the journal came when it was allowed to. -/
def AdmissibleJournal (journal : List (RefreshEvent ω)) : Prop :=
  ∀ before e after, journal = before ++ e :: after → Admissible X before e

theorem AdmissibleJournal.concat (h : AdmissibleJournal X journal) {e : RefreshEvent ω}
    (he : Admissible X journal e) : AdmissibleJournal X (journal ++ [e]) := by
  intro before e' after hsplit
  rcases List.eq_nil_or_concat after with rfl | ⟨rest, last, rfl⟩
  · obtain ⟨rfl, hlast⟩ := List.append_inj' hsplit rfl
    cases hlast
    exact he
  · rw [List.concat_eq_append, ← List.cons_append, ← List.append_assoc] at hsplit
    exact h before e' rest (List.append_inj' hsplit rfl).1

/-- What comes after none of its kind comes once. -/
theorem countP_le_one {P : RefreshEvent ω → Bool}
    (h : ∀ before e after, journal = before ++ e :: after → P e → ∀ e' ∈ before, ¬ P e') :
    journal.countP P ≤ 1 := by
  induction journal using List.reverseRecOn with
  | nil => exact Nat.zero_le 1
  | append_singleton journal e ih =>
    rw [List.countP_append]
    cases he : P e with
    | false =>
      rw [List.countP_singleton, he, if_neg Bool.false_ne_true, Nat.add_zero]
      apply ih
      intro before e' after hsplit
      exact h before e' (after ++ [e]) (by rw [hsplit]; simp)
    | true =>
      have hnone : journal.countP P = 0 := List.countP_eq_zero.mpr (h journal e [] rfl he)
      rw [hnone, List.countP_singleton, he, if_pos rfl]

theorem AdmissibleJournal.once (h : AdmissibleJournal X journal) :
    journal.countP RefreshEvent.isExpiry ≤ 1 ∧ journal.countP RefreshEvent.isSelection ≤ 1 := by
  constructor
  · apply countP_le_one
    intro before e after hsplit hkind
    have he := h before e after hsplit
    cases e <;> first
      | exact he.1
      | cases hkind
  · apply countP_le_one
    intro before e after hsplit hkind
    have he := h before e after hsplit
    cases e <;> first
      | exact he.2.1
      | cases hkind

end Calls

end Hookemon.Repository
