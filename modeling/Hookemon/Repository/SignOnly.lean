import Hookemon.Repository.ChainAttempts

/-! # Sign-only invocations (`app/cycle-repository.mjs`, `cycle/money-schemas.mjs`)

A signer that timed out may be asked once more for the same transaction. Before the first
invocation the material of the request is bound, and each of the two invocations is reserved
in the journal of the cycle before it is made. The records that these writers look at are the
chain attempts, which other writers of the cycle move on at the same time.

The calls here are those of one cycle. Records of other families are in the journal too; what
they say about the end of a cycle is a parameter.
-/

namespace Hookemon.Repository

open Hookemon.Core Hookemon.Js Hookemon.Runner

/-! ## Bindings and invocation ledgers -/

structure SignOnlyPreSignBinding where
  cycleId : Text
  stage : OperationalStage
  requestDigest : Text
  role : Text
  account : Text
  unsignedWireBytes : Text
  unsignedRequestDigest : Text
  policyDigest : Text
  validityContextDigest : Text
deriving DecidableEq, Repr

def assertSignOnlyPreSignBinding (value : SignOnlyPreSignBinding) (label : String) :
    Except String Unit := do
  assertNonEmptyString value.cycleId (label ++ " cycleId")
  assertDigest value.requestDigest (label ++ " requestDigest")
  assertNonEmptyString value.role (label ++ " role")
  assertNonEmptyString value.account (label ++ " account")
  throwIf (value.unsignedWireBytes.length = 0) (label ++ " unsignedWireBytes is invalid")
  assertDigest value.unsignedRequestDigest (label ++ " unsignedRequestDigest")
  assertDigest value.policyDigest (label ++ " policyDigest")
  assertDigest value.validityContextDigest (label ++ " validityContextDigest")

/-- `SIGN_ONLY_INVOCATION_LEDGER_STATES`. -/
inductive SignOnlyInvocationLedgerState where
  | ordinal1Allocated | ordinal1TimedOut | ordinal2Allocated | ordinal2TimedOut
deriving DecidableEq, Repr

structure SignOnlyInvocationLedger where
  cycleId : Text
  stage : OperationalStage
  requestDigest : Text
  state : SignOnlyInvocationLedgerState
deriving DecidableEq, Repr

def assertSignOnlyInvocationLedger (value : SignOnlyInvocationLedger) (label : String) :
    Except String Unit := do
  assertNonEmptyString value.cycleId (label ++ " cycleId")
  assertDigest value.requestDigest (label ++ " requestDigest")

def createReservedSignOnlyInvocationLedger (cycleId : Text) (stage : OperationalStage)
    (requestDigest : Text) : Except String SignOnlyInvocationLedger := do
  let ledger := ⟨cycleId, stage, requestDigest, .ordinal1Allocated⟩
  assertSignOnlyInvocationLedger ledger "sign-only invocation ledger"
  return ledger

/-- The states that may follow. -/
def SignOnlyInvocationLedgerState.permitted :
    SignOnlyInvocationLedgerState → List SignOnlyInvocationLedgerState
  | .ordinal1Allocated => [.ordinal1TimedOut]
  | .ordinal1TimedOut => [.ordinal2Allocated]
  | .ordinal2Allocated => [.ordinal2TimedOut]
  | .ordinal2TimedOut => []

def transitionSignOnlyInvocationLedger (value : SignOnlyInvocationLedger)
    (nextState : SignOnlyInvocationLedgerState) : Except String SignOnlyInvocationLedger := do
  assertSignOnlyInvocationLedger value "sign-only invocation ledger"
  throwIf (nextState ∉ value.state.permitted) "sign-only invocation ledger transition is invalid"
  assertSignOnlyInvocationLedger { value with state := nextState } "sign-only invocation ledger"
  return { value with state := nextState }

/-- What the checks ask does not depend on the label. -/
theorem assertSignOnlyInvocationLedger_eq_ok {value : SignOnlyInvocationLedger} {label : String}
    {u : Unit} : assertSignOnlyInvocationLedger value label = .ok u ↔
      ¬ (value.cycleId.length = 0 ∨ 512 < value.cycleId.length) ∧ isDigest value.requestDigest := by
  unfold assertSignOnlyInvocationLedger assertNonEmptyString Repository.assertDigest
  simp only [bind_eq_ok, revertIf_eq_ok, not_not]
  constructor
  · rintro ⟨_, hcycle, hdigest⟩
    exact ⟨hcycle, hdigest⟩
  · rintro ⟨hcycle, hdigest⟩
    exact ⟨(), hcycle, hdigest⟩

theorem createReservedSignOnlyInvocationLedger_ok {cycleId : Text} {stage : OperationalStage}
    {requestDigest : Text} {ledger : SignOnlyInvocationLedger}
    (h : createReservedSignOnlyInvocationLedger cycleId stage requestDigest = .ok ledger) :
    ledger = ⟨cycleId, stage, requestDigest, .ordinal1Allocated⟩ ∧
      ∀ label, assertSignOnlyInvocationLedger ledger label = .ok () := by
  unfold createReservedSignOnlyInvocationLedger at h
  simp only [bind_eq_ok, pure_eq_ok] at h
  obtain ⟨_, hchecked, rfl⟩ := h
  refine ⟨rfl, fun label => ?_⟩
  rw [assertSignOnlyInvocationLedger_eq_ok] at hchecked ⊢
  exact hchecked

/-- A transition changes the state only, to one that may follow. -/
theorem transitionSignOnlyInvocationLedger_ok {value ledger : SignOnlyInvocationLedger}
    {state : SignOnlyInvocationLedgerState}
    (h : transitionSignOnlyInvocationLedger value state = .ok ledger) :
    ledger = { value with state := state } ∧ state ∈ value.state.permitted ∧
      ∀ label, assertSignOnlyInvocationLedger ledger label = .ok () := by
  unfold transitionSignOnlyInvocationLedger at h
  simp only [bind_eq_ok, revertIf_eq_ok, pure_eq_ok, not_not] at h
  obtain ⟨_, -, _, hpermitted, _, hchecked, hledger⟩ := h
  refine ⟨hledger.symm, hpermitted, fun label => ?_⟩
  rw [← hledger]
  rw [assertSignOnlyInvocationLedger_eq_ok] at hchecked ⊢
  exact hchecked

/-! ## Signed bytes and recovery contexts -/

/-- A chain attempt with what was observed of it. -/
structure ChainAttemptRecord where
  attempt : ChainTransactionAttempt
  broadcastEvidence : Option Value
  finalityEvidence : Option Value
deriving DecidableEq

structure ChainAttemptRecoveryContext where
  cycleId : Text
  stage : OperationalStage
  recipient : Option Text
  requestDigest : Text
  policyDigest : Text
  approvalDigest : Text
  fencingToken : Text
  fencingTokenDigest : Text
  approvedSemanticsDigest : Text
  rawSignedBytesHash : Text
  signedMessageDigest : Text
deriving DecidableEq, Repr

/-- `fencingTokenPattern`: a random UUID in lower case. -/
def isFencingToken (s : Text) : Bool :=
  s.length = 36 && (List.range 36).all fun i =>
    let c := s.getD i 0
    if i ∈ [8, 13, 18, 23] then c = 45
    else if i = 14 then c = 52
    else if i = 19 then c = 56 || c = 57 || c = 97 || c = 98
    else isLowerHexDigit c

def assertFencingToken (value : Text) (label : String) : Except String Unit :=
  throwIf (¬ isFencingToken value) (label ++ " is invalid")

def assertChainAttemptRecoveryContextInput (cycleId : Text) (value : ChainAttemptRecoveryContext) :
    Except String Unit := do
  throwIf (value.cycleId ≠ cycleId) "stored chain attempt recovery context identity is invalid"
  throwIf (value.recipient = some [] ∨ 512 < (value.recipient.getD []).length)
    "chain attempt recovery context recipient is invalid"
  assertDigest value.requestDigest "chain attempt recovery context requestDigest"
  assertDigest value.policyDigest "chain attempt recovery context policyDigest"
  assertDigest value.approvalDigest "chain attempt recovery context approvalDigest"
  assertDigest value.fencingTokenDigest "chain attempt recovery context fencingTokenDigest"
  assertDigest value.approvedSemanticsDigest "chain attempt recovery context approvedSemanticsDigest"
  assertDigest value.signedMessageDigest "chain attempt recovery context signedMessageDigest"
  assertFencingToken value.fencingToken "chain attempt recovery context fencingToken"
  throwIf (value.rawSignedBytesHash.length = 0 ∨ 512 < value.rawSignedBytesHash.length)
    "chain attempt recovery context rawSignedBytesHash is invalid"

def chainAttemptRecoveryContextKey (context : ChainAttemptRecoveryContext) : Text :=
  context.stage.name ++ [0] ++ context.recipient.getD [] ++ [0] ++ context.requestDigest ++ [0]
    ++ context.rawSignedBytesHash

def isRecipientPagedRecoveryContext (context : ChainAttemptRecoveryContext) : Bool :=
  context.stage = .payout ∧ context.recipient ≠ none

/-! ## Journal events -/

inductive SigningEvent (ω : Type) where
  | chainAttemptPrepared (stage : OperationalStage) (attempt : ChainTransactionAttempt)
  | chainAttemptSigned (stage : OperationalStage) (attempt : ChainTransactionAttempt)
  | chainAttemptBroadcast (stage : OperationalStage) (attempt : ChainTransactionAttempt)
      (evidence : Value)
  | chainAttemptFinalized (stage : OperationalStage) (attempt : ChainTransactionAttempt)
      (evidence : Value)
  | chainAttemptRecoveryContextRecorded (context : ChainAttemptRecoveryContext)
  | signOnlyPreSignBindingPersisted (binding : SignOnlyPreSignBinding)
  | signOnlyInvocationReserved (ledger : SignOnlyInvocationLedger)
  | signOnlyInvocationTimedOut (ledger : SignOnlyInvocationLedger)
  | cycleTerminal (terminalState : CycleTerminalState) (evidence : Value)
  | cycleCompleted
  | other (record : ω)

namespace SigningEvent

variable {ω : Type} (others : OtherRecords ω)

/-- `POST_TERMINAL_RECORD_KINDS`. -/
def afterTerminal : SigningEvent ω → Bool
  | .chainAttemptBroadcast _ _ _ | .chainAttemptFinalized _ _ _ => true
  | .other record => others.afterTerminal record
  | _ => false

/-- `POST_COMPLETION_RECORD_KINDS`. -/
def afterCompletion : SigningEvent ω → Bool
  | .other record => others.afterCompletion record
  | _ => false

/-- The events that end a cycle. -/
def isTerminal : SigningEvent ω → Bool
  | .cycleTerminal _ _ | .cycleCompleted => true
  | _ => false

end SigningEvent

/-- What these calls look at of the replayed state. -/
structure SigningState (ω : Type) where
  chainAttempts : Record ChainAttemptRecord
  chainAttemptRecoveryContexts : Record ChainAttemptRecoveryContext
  signOnlyPreSignBindings : Record SignOnlyPreSignBinding
  signOnlyInvocationLedgers : Record SignOnlyInvocationLedger
  others : List ω
  completed : Bool
  terminalState : Option CycleTerminalState
  terminalEvidence : Option Value

namespace SigningState

variable {ω : Type}

def empty : SigningState ω := ⟨.empty, .empty, .empty, .empty, [], false, none, none⟩

/-- `cloneEvidence`: a clone is the same value. -/
def cloneEvidence (value : Value) : Except String Value := do
  let _ ← canonicalJson value
  return value

def cloneChainObservationEvidence (value : Value) (label : String) : Except String Value :=
  match value with
  | .object _ => cloneEvidence value
  | _ => .error (label ++ " must be a canonical object")

/-- The attempt is there and not signed yet. -/
def isPrepared (chain : Option ChainAttemptRecord) : Bool :=
  chain.any fun record => record.attempt.state = .prepared

/-! ### Replay -/

variable (others : OtherRecords ω) (cycleId : Text) (s : SigningState ω)

def assertRecordAllowed (e : SigningEvent ω) : Except String Unit :=
  Repository.assertRecordAllowed s.terminalState s.completed (e.afterTerminal others)
    (e.afterCompletion others) e.isTerminal

def replayPrepared (stage : OperationalStage) (value : ChainTransactionAttempt) :
    Except String (SigningState ω) := do
  let attempt ← assertChainTransactionAttempt value "stored chain transaction attempt"
  let key := chainAttemptKey attempt.stage attempt.requestDigest
  throwIf (attempt.cycleId ≠ cycleId ∨ attempt.stage ≠ stage ∨ attempt.state ≠ .prepared ∨
    (s.chainAttempts.find key).isSome) "stored chain transaction preparation is invalid"
  return { s with chainAttempts := s.chainAttempts.set key ⟨attempt, none, none⟩ }

def replaySigned (stage : OperationalStage) (value : ChainTransactionAttempt) :
    Except String (SigningState ω) := do
  let attempt ← assertChainTransactionAttempt value "stored chain transaction attempt"
  let key := chainAttemptKey attempt.stage attempt.requestDigest
  let previous ← required (s.chainAttempts.find key)
    "stored chain transaction signing transition is invalid"
  throwIf (previous.attempt.state ≠ .prepared ∨ attempt.state ≠ .signed ∨ attempt.cycleId ≠ cycleId ∨
      attempt.stage ≠ stage ∨ attempt.requestDigest ≠ previous.attempt.requestDigest)
    "stored chain transaction signing transition is invalid"
  let expected ← transitionChainTransactionAttempt previous.attempt .signed
    (some ⟨attempt.rawBytes, attempt.nonce, attempt.blockhash, attempt.hash⟩)
  throwIf (attempt ≠ expected) "stored chain transaction signing material is invalid"
  return { s with chainAttempts := s.chainAttempts.set key { previous with attempt := attempt } }

/-- The replay of the two observations of a signed transaction. -/
def replayObserved (before after : ChainTransactionAttemptState) (noun : String)
    (observe : ChainAttemptRecord → Value → ChainAttemptRecord) (stage : OperationalStage)
    (value : ChainTransactionAttempt) (evidence : Value) : Except String (SigningState ω) := do
  let attempt ← assertChainTransactionAttempt value "stored chain transaction attempt"
  let key := chainAttemptKey attempt.stage attempt.requestDigest
  let observed ← cloneChainObservationEvidence evidence
    ("stored chain transaction " ++ noun ++ " evidence")
  let previous ← required (s.chainAttempts.find key)
    ("stored chain transaction " ++ noun ++ " transition is invalid")
  throwIf (previous.attempt.state ≠ before ∨ attempt.state ≠ after ∨ attempt.cycleId ≠ cycleId ∨
      attempt.stage ≠ stage ∨ attempt.requestDigest ≠ previous.attempt.requestDigest)
    ("stored chain transaction " ++ noun ++ " transition is invalid")
  let expected ← transitionChainTransactionAttempt previous.attempt after none
  throwIf (attempt ≠ expected) ("stored chain transaction " ++ noun ++ " transition is invalid")
  return { s with
    chainAttempts := s.chainAttempts.set key (observe { previous with attempt := attempt } observed) }

def replayBroadcast : OperationalStage → ChainTransactionAttempt → Value →
    Except String (SigningState ω) :=
  s.replayObserved cycleId .signed .broadcast "broadcast"
    fun record evidence => { record with broadcastEvidence := some evidence }

def replayFinalized : OperationalStage → ChainTransactionAttempt → Value →
    Except String (SigningState ω) :=
  s.replayObserved cycleId .broadcast .finalized "finality"
    fun record evidence => { record with finalityEvidence := some evidence }

/-- The bytes that the context is about are signed. -/
def bindsSignedBytes (context : ChainAttemptRecoveryContext) : Bool :=
  isRecipientPagedRecoveryContext context ∨
    (s.chainAttempts.find (chainAttemptKey context.stage context.requestDigest)).any fun chain =>
      chain.attempt.state ≠ .prepared ∧ chain.attempt.hash = some context.rawSignedBytesHash

def replayRecoveryContext (context : ChainAttemptRecoveryContext) : Except String (SigningState ω) := do
  assertChainAttemptRecoveryContextInput cycleId context
  let key := chainAttemptRecoveryContextKey context
  throwIf (¬ s.bindsSignedBytes context)
    "stored chain attempt recovery context does not bind signed bytes"
  throwIf (∃ previous ∈ s.chainAttemptRecoveryContexts.find key, previous ≠ context)
    "stored chain attempt recovery context conflicts with prior context"
  return { s with
    chainAttemptRecoveryContexts := s.chainAttemptRecoveryContexts.set key context }

def replayBinding (binding : SignOnlyPreSignBinding) : Except String (SigningState ω) := do
  assertSignOnlyPreSignBinding binding "stored sign-only pre-sign binding"
  throwIf (binding.cycleId ≠ cycleId) "stored sign-only pre-sign binding cycleId is invalid"
  let key := chainAttemptKey binding.stage binding.requestDigest
  throwIf (¬ isPrepared (s.chainAttempts.find key))
    "stored sign-only pre-sign binding does not bind a PREPARED chain attempt"
  throwIf (s.signOnlyPreSignBindings.find key).isSome
    "stored sign-only pre-sign binding already exists"
  return { s with signOnlyPreSignBindings := s.signOnlyPreSignBindings.set key binding }

/-- The check of a reservation against the ledger before it. -/
def assertReserved (ledger : SignOnlyInvocationLedger) : Except String Unit :=
  let key := chainAttemptKey ledger.stage ledger.requestDigest
  match ledger.state with
  | .ordinal1Allocated =>
    throwIf ((s.signOnlyInvocationLedgers.find key).isSome ∨
        ¬ (s.signOnlyPreSignBindings.find key).isSome)
      "stored sign-only invocation ledger ordinal 1 reservation is invalid"
  | .ordinal2Allocated => do
    let previous ← required (s.signOnlyInvocationLedgers.find key)
      "stored sign-only invocation ledger ordinal 2 reservation is invalid"
    throwIf (previous.state ≠ .ordinal1TimedOut)
      "stored sign-only invocation ledger ordinal 2 reservation is invalid"
    let expected ← transitionSignOnlyInvocationLedger previous .ordinal2Allocated
    throwIf (ledger ≠ expected)
      "stored sign-only invocation ledger ordinal 2 reservation is invalid"
  | _ => .error "stored sign-only invocation ledger reservation state is invalid"

def replayReserved (ledger : SignOnlyInvocationLedger) : Except String (SigningState ω) := do
  assertSignOnlyInvocationLedger ledger "stored sign-only invocation ledger"
  throwIf (ledger.cycleId ≠ cycleId) "stored sign-only invocation ledger cycleId is invalid"
  let key := chainAttemptKey ledger.stage ledger.requestDigest
  throwIf (¬ isPrepared (s.chainAttempts.find key))
    "stored sign-only invocation ledger reservation does not bind a PREPARED chain attempt"
  s.assertReserved ledger
  return { s with signOnlyInvocationLedgers := s.signOnlyInvocationLedgers.set key ledger }

def replayTimedOut (ledger : SignOnlyInvocationLedger) : Except String (SigningState ω) := do
  assertSignOnlyInvocationLedger ledger "stored sign-only invocation ledger"
  throwIf (ledger.cycleId ≠ cycleId) "stored sign-only invocation ledger cycleId is invalid"
  let key := chainAttemptKey ledger.stage ledger.requestDigest
  let expectedPredecessor : SignOnlyInvocationLedgerState :=
    if ledger.state = .ordinal1TimedOut then .ordinal1Allocated else .ordinal2Allocated
  let previous ← required (s.signOnlyInvocationLedgers.find key)
    "stored sign-only invocation ledger timeout transition is invalid"
  throwIf (previous.state ≠ expectedPredecessor)
    "stored sign-only invocation ledger timeout transition is invalid"
  let expected ← transitionSignOnlyInvocationLedger previous ledger.state
  throwIf (ledger ≠ expected) "stored sign-only invocation ledger timeout transition is invalid"
  return { s with signOnlyInvocationLedgers := s.signOnlyInvocationLedgers.set key ledger }

def assertChainAttemptsFinalized : Except String Unit :=
  match s.chainAttempts.entries.find? fun entry => entry.2.attempt.state ≠ .finalized with
  | none => .ok ()
  | some (key, _) => .error ("cycle-repository completeCycle: unfinalized chain attempt for \""
      ++ shown key ++ "\"")

/-- `assertCycleClosure`; the other families come before and after the chain attempts. -/
def assertCycleClosure : Except String Unit := do
  others.assertClosure s.others
  s.assertChainAttemptsFinalized

def replayCompleted : Except String (SigningState ω) := do
  s.assertCycleClosure others
  return { s with completed := true, terminalState := some .completed }

/-- `#replayStored`, one entry. -/
def apply (e : SigningEvent ω) : Except String (SigningState ω) := do
  s.assertRecordAllowed others e
  match e with
  | .chainAttemptPrepared stage attempt => s.replayPrepared cycleId stage attempt
  | .chainAttemptSigned stage attempt => s.replaySigned cycleId stage attempt
  | .chainAttemptBroadcast stage attempt evidence => s.replayBroadcast cycleId stage attempt evidence
  | .chainAttemptFinalized stage attempt evidence => s.replayFinalized cycleId stage attempt evidence
  | .chainAttemptRecoveryContextRecorded context => s.replayRecoveryContext cycleId context
  | .signOnlyPreSignBindingPersisted binding => s.replayBinding cycleId binding
  | .signOnlyInvocationReserved ledger => s.replayReserved cycleId ledger
  | .signOnlyInvocationTimedOut ledger => s.replayTimedOut cycleId ledger
  | .cycleTerminal terminalState evidence =>
    .ok { s with terminalState := some terminalState, terminalEvidence := some evidence }
  | .cycleCompleted => s.replayCompleted others
  | .other record => .ok { s with others := s.others ++ [record] }

end SigningState

/-! ## Calls -/

inductive SigningCall (ω : Type) where
  | prepareChainTransactionAttempt (stage : OperationalStage) (attempt : ChainTransactionAttempt)
  | recordSignedTransaction (stage : OperationalStage) (requestDigest : Text)
      (material : SigningMaterial)
  | recordSignedTransactionWithRecoveryContext (stage : OperationalStage) (requestDigest : Text)
      (material : SigningMaterial) (context : ChainAttemptRecoveryContext)
  | recordBroadcast (stage : OperationalStage) (requestDigest : Text) (evidence : Value)
  | recordFinality (stage : OperationalStage) (requestDigest : Text) (evidence : Value)
  | persistChainAttemptRecoveryContext (context : ChainAttemptRecoveryContext)
  | persistSignOnlyPreSignBinding (stage : OperationalStage) (requestDigest : Text)
      (binding : SignOnlyPreSignBinding)
  | reserveSignOnlyInvocation (stage : OperationalStage) (requestDigest : Text) (ordinal : Nat)
  | recordSignOnlyInvocationTimeout (stage : OperationalStage) (requestDigest : Text)
      (ordinal : Nat)
  | holdCycle (terminalState : CycleTerminalState) (evidence : Value)
  | completeCycle
  | other (record : ω)

/-- What a call keeps between its reading and its commit. -/
inductive SigningWrite (ω : Type) where
  | prepared (stage : OperationalStage) (attempt : ChainTransactionAttempt)
  | signed (operation : String) (stage : OperationalStage) (requestDigest : Text)
      (current : ChainAttemptRecord) (attempt : ChainTransactionAttempt)
      (context : Option ChainAttemptRecoveryContext)
  | broadcast (stage : OperationalStage) (requestDigest : Text) (current : ChainAttemptRecord)
      (attempt : ChainTransactionAttempt) (evidence : Value)
  | finalized (stage : OperationalStage) (requestDigest : Text) (current : ChainAttemptRecord)
      (attempt : ChainTransactionAttempt) (evidence : Value)
  | context (context : ChainAttemptRecoveryContext)
  | binding (stage : OperationalStage) (requestDigest : Text) (binding : SignOnlyPreSignBinding)
  | reserved (stage : OperationalStage) (requestDigest : Text) (ordinal : Nat)
      (currentLedger : Option SignOnlyInvocationLedger) (ledger : SignOnlyInvocationLedger)
  | timedOut (stage : OperationalStage) (requestDigest : Text) (ordinal : Nat)
      (currentLedger ledger : SignOnlyInvocationLedger)
  | held (terminalState : CycleTerminalState) (evidence : Value)
  | completed
  | other (record : ω)

inductive SigningAnswer where
  | chainAttempt (record : ChainAttemptRecord)
  | context (context : ChainAttemptRecoveryContext)
  | binding (binding : SignOnlyPreSignBinding)
  | granted (stage : OperationalStage) (requestDigest : Text) (ordinal : Nat)
      (ledger : SignOnlyInvocationLedger)
  | timedOut (ledger : SignOnlyInvocationLedger)
  | done

namespace SigningState

variable {ω : Type} (others : OtherRecords ω) (cycleId : Text) (s : SigningState ω)

def assertNotTerminal (operation : String) : Except String Unit :=
  Repository.assertNotTerminal s.terminalState operation

def chainAttemptFor (stage : OperationalStage) (requestDigest : Text) (operation : String) :
    Except String (Option ChainAttemptRecord) := do
  throwIf (requestDigest.length = 0)
    ("cycle-repository " ++ operation ++ ": requestDigest is required")
  return s.chainAttempts.find (chainAttemptKey stage requestDigest)

/-! ### Before the append -/

def prepareChainTransactionAttempt (stage : OperationalStage) (value : ChainTransactionAttempt) :
    Except String (Reading (SigningWrite ω) SigningAnswer) := do
  let attempt ← assertChainTransactionAttempt value "chain transaction attempt"
  throwIf (attempt.cycleId ≠ cycleId ∨ attempt.stage ≠ stage ∨ attempt.state ≠ .prepared)
    "cycle-repository prepareChainTransactionAttempt attempt does not match cycle or stage"
  s.assertNotTerminal "prepareChainTransactionAttempt"
  match s.chainAttempts.find (chainAttemptKey stage attempt.requestDigest) with
  | none => .ok (.keep (.prepared stage attempt))
  | some current => do
    throwIf (current.attempt ≠ attempt)
      ("cycle-repository prepareChainTransactionAttempt: request \"" ++ shown attempt.requestDigest
        ++ "\" already has a chain attempt")
    return .answer (.chainAttempt current)

/-- The attempt with its signing material, from what it was before it was signed. -/
def signedAttempt (current : ChainTransactionAttempt) (material : SigningMaterial) :
    Except String ChainTransactionAttempt :=
  transitionChainTransactionAttempt
    { current with state := .prepared, rawBytes := none, nonce := none, blockhash := none, hash := none }
    .signed (some material)

def recordSignedTransaction (stage : OperationalStage) (requestDigest : Text)
    (material : SigningMaterial) : Except String (Reading (SigningWrite ω) SigningAnswer) := do
  s.assertNotTerminal "recordSignedTransaction"
  let chain ← s.chainAttemptFor stage requestDigest "recordSignedTransaction"
  let current ← required chain
    ("cycle-repository recordSignedTransaction: no prepared chain attempt for \""
      ++ shown requestDigest ++ "\"")
  let signed ← signedAttempt current.attempt material
  if current.attempt.state = .signed then
    throwIf (current.attempt ≠ signed) ("cycle-repository recordSignedTransaction: \""
      ++ shown stage.name ++ "\" already has different signing material")
    return .answer (.chainAttempt current)
  else
    throwIf (current.attempt.state ≠ .prepared) ("cycle-repository recordSignedTransaction: \""
      ++ shown stage.name ++ "\" is already broadcast and cannot be re-signed")
    return .keep (.signed "recordSignedTransaction" stage requestDigest current signed none)

/-- Without a Relay source. -/
def recordSignedTransactionWithRecoveryContext (stage : OperationalStage) (requestDigest : Text)
    (material : SigningMaterial) (context : ChainAttemptRecoveryContext) :
    Except String (Reading (SigningWrite ω) SigningAnswer) := do
  assertChainAttemptRecoveryContextInput cycleId context
  throwIf (context.stage ≠ stage ∨ context.requestDigest ≠ requestDigest)
    "cycle-repository atomic signed transaction recovery context does not match its chain attempt"
  s.assertNotTerminal "recordSignedTransactionWithRecoveryContext"
  let chain ← s.chainAttemptFor stage requestDigest "recordSignedTransactionWithRecoveryContext"
  let current ← required chain
    ("cycle-repository recordSignedTransactionWithRecoveryContext: no prepared chain attempt for \""
      ++ shown requestDigest ++ "\"")
  let signed ← signedAttempt current.attempt material
  throwIf (some context.rawSignedBytesHash ≠ signed.hash)
    "cycle-repository atomic signed transaction recovery context does not bind the signed bytes"
  let existingRecovery :=
    s.chainAttemptRecoveryContexts.find (chainAttemptRecoveryContextKey context)
  if current.attempt.state = .signed then
    throwIf (current.attempt ≠ signed)
      ("cycle-repository recordSignedTransactionWithRecoveryContext: \"" ++ shown stage.name
        ++ "\" already has different signing material")
    throwIf (existingRecovery ≠ some context)
      "cycle-repository atomic signed transaction is missing its matching recovery authority"
    return .answer (.chainAttempt current)
  else
    throwIf (current.attempt.state ≠ .prepared)
      ("cycle-repository recordSignedTransactionWithRecoveryContext: \"" ++ shown stage.name
        ++ "\" is already broadcast and cannot be re-signed")
    throwIf (existingRecovery ≠ none)
      "cycle-repository atomic signed transaction has recovery authority without signed bytes"
    return .keep (.signed "recordSignedTransactionWithRecoveryContext" stage requestDigest current
      signed (some context))

/-- An observation that was made before has to be the same one. -/
def assertSameEvidence (stored : Option Value) (evidence : Value) (message : String) :
    Except String Unit := do
  let changed ← differs (stored.getD .null) evidence
  throwIf changed message

def recordBroadcast (stage : OperationalStage) (requestDigest : Text) (value : Value) :
    Except String (Reading (SigningWrite ω) SigningAnswer) := do
  let evidence ← cloneChainObservationEvidence value "chain transaction broadcast evidence"
  let chain ← s.chainAttemptFor stage requestDigest "recordBroadcast"
  let current ← required chain
    ("cycle-repository recordBroadcast: no signed chain attempt for \"" ++ shown requestDigest ++ "\"")
  if current.attempt.state = .broadcast ∨ current.attempt.state = .finalized then
    assertSameEvidence current.broadcastEvidence evidence ("cycle-repository recordBroadcast: \""
      ++ shown requestDigest ++ "\" already has different broadcast evidence")
    return .answer (.chainAttempt current)
  else
    throwIf (current.attempt.state ≠ .signed) ("cycle-repository recordBroadcast: \""
      ++ shown stage.name ++ "\" must be signed before broadcast")
    let attempt ← transitionChainTransactionAttempt current.attempt .broadcast none
    return .keep (.broadcast stage requestDigest current attempt evidence)

def recordFinality (stage : OperationalStage) (requestDigest : Text) (value : Value) :
    Except String (Reading (SigningWrite ω) SigningAnswer) := do
  let evidence ← cloneChainObservationEvidence value "chain transaction finality evidence"
  let chain ← s.chainAttemptFor stage requestDigest "recordFinality"
  let current ← required chain
    ("cycle-repository recordFinality: no broadcast chain attempt for \"" ++ shown requestDigest
      ++ "\"")
  if current.attempt.state = .finalized then
    assertSameEvidence current.finalityEvidence evidence ("cycle-repository recordFinality: \""
      ++ shown requestDigest ++ "\" already has different finality evidence")
    return .answer (.chainAttempt current)
  else
    throwIf (current.attempt.state ≠ .broadcast) ("cycle-repository recordFinality: \""
      ++ shown stage.name ++ "\" must be broadcast before finality")
    let attempt ← transitionChainTransactionAttempt current.attempt .finalized none
    return .keep (.finalized stage requestDigest current attempt evidence)

def persistChainAttemptRecoveryContext (context : ChainAttemptRecoveryContext) :
    Except String (Reading (SigningWrite ω) SigningAnswer) := do
  assertChainAttemptRecoveryContextInput cycleId context
  s.assertNotTerminal "persistChainAttemptRecoveryContext"
  throwIf (¬ s.bindsSignedBytes context)
    "cycle-repository persistChainAttemptRecoveryContext: signed bytes are not durably recorded"
  match s.chainAttemptRecoveryContexts.find (chainAttemptRecoveryContextKey context) with
  | none => .ok (.keep (.context context))
  | some current => do
    throwIf (current ≠ context)
      "cycle-repository persistChainAttemptRecoveryContext: recovery context conflict"
    return .answer (.context current)

def persistSignOnlyPreSignBinding (stage : OperationalStage) (requestDigest : Text)
    (binding : SignOnlyPreSignBinding) :
    Except String (Reading (SigningWrite ω) SigningAnswer) := do
  assertSignOnlyPreSignBinding binding "sign-only pre-sign binding"
  throwIf (binding.cycleId ≠ cycleId ∨ binding.stage ≠ stage ∨ binding.requestDigest ≠ requestDigest)
    "cycle-repository persistSignOnlyPreSignBinding: binding does not match cycle, stage, or request"
  s.assertNotTerminal "persistSignOnlyPreSignBinding"
  let chain ← s.chainAttemptFor stage requestDigest "persistSignOnlyPreSignBinding"
  throwIf (¬ isPrepared chain)
    "cycle-repository persistSignOnlyPreSignBinding: chain attempt is not PREPARED"
  match s.signOnlyPreSignBindings.find (chainAttemptKey stage requestDigest) with
  | none => .ok (.keep (.binding stage requestDigest binding))
  | some current => do
    throwIf (current ≠ binding)
      "cycle-repository persistSignOnlyPreSignBinding: request already has a different pre-sign binding"
    return .answer (.binding current)

/-- The ledger that a reservation writes over the current one. -/
def reservedLedger (stage : OperationalStage) (requestDigest : Text) (ordinal : Nat)
    (currentLedger : Option SignOnlyInvocationLedger) :
    Except String SignOnlyInvocationLedger :=
  if ordinal = 1 then do
    throwIf currentLedger.isSome
      "cycle-repository reserveSignOnlyInvocation: ordinal 1 was already reserved"
    createReservedSignOnlyInvocationLedger cycleId stage requestDigest
  else do
    let current ← required currentLedger
      "cycle-repository reserveSignOnlyInvocation: ordinal 2 requires a recorded ordinal 1 timeout"
    throwIf (current.state ≠ .ordinal1TimedOut)
      "cycle-repository reserveSignOnlyInvocation: ordinal 2 requires a recorded ordinal 1 timeout"
    transitionSignOnlyInvocationLedger current .ordinal2Allocated

def reserveSignOnlyInvocation (stage : OperationalStage) (requestDigest : Text) (ordinal : Nat) :
    Except String (Reading (SigningWrite ω) SigningAnswer) := do
  throwIf (ordinal ≠ 1 ∧ ordinal ≠ 2)
    "cycle-repository reserveSignOnlyInvocation: ordinal must be 1 or 2"
  s.assertNotTerminal "reserveSignOnlyInvocation"
  let key := chainAttemptKey stage requestDigest
  throwIf (¬ (s.signOnlyPreSignBindings.find key).isSome)
    "cycle-repository reserveSignOnlyInvocation: no durable pre-sign binding for this request"
  let chain ← s.chainAttemptFor stage requestDigest "reserveSignOnlyInvocation"
  throwIf (¬ isPrepared chain)
    "cycle-repository reserveSignOnlyInvocation: chain attempt is not PREPARED"
  let currentLedger := s.signOnlyInvocationLedgers.find key
  let ledger ← reservedLedger cycleId stage requestDigest ordinal currentLedger
  return .keep (.reserved stage requestDigest ordinal currentLedger ledger)

def recordSignOnlyInvocationTimeout (stage : OperationalStage) (requestDigest : Text)
    (ordinal : Nat) : Except String (Reading (SigningWrite ω) SigningAnswer) := do
  throwIf (ordinal ≠ 1 ∧ ordinal ≠ 2)
    "cycle-repository recordSignOnlyInvocationTimeout: ordinal must be 1 or 2"
  s.assertNotTerminal "recordSignOnlyInvocationTimeout"
  let message := "cycle-repository recordSignOnlyInvocationTimeout: ordinal " ++ toString ordinal
    ++ " is not in the allocated state"
  let expectedCurrentState : SignOnlyInvocationLedgerState :=
    if ordinal = 1 then .ordinal1Allocated else .ordinal2Allocated
  let nextState : SignOnlyInvocationLedgerState :=
    if ordinal = 1 then .ordinal1TimedOut else .ordinal2TimedOut
  let currentLedger ← required
    (s.signOnlyInvocationLedgers.find (chainAttemptKey stage requestDigest)) message
  if currentLedger.state = nextState then return .answer (.timedOut currentLedger)
  else
    throwIf (currentLedger.state ≠ expectedCurrentState) message
    let ledger ← transitionSignOnlyInvocationLedger currentLedger nextState
    return .keep (.timedOut stage requestDigest ordinal currentLedger ledger)

def holdCycle (terminalState : CycleTerminalState) (evidence : Value) :
    Except String (Reading (SigningWrite ω) SigningAnswer) := do
  throwIf (¬ terminalState.isHeld) "cycle-repository holdCycle requires a held terminal state"
  match s.terminalState with
  | none => do
    let evidence ← cloneEvidence evidence
    return .keep (.held terminalState evidence)
  | some current => do
    throwIf (current ≠ terminalState) "cycle-repository holdCycle terminal state conflict"
    assertSameEvidence s.terminalEvidence evidence
      "cycle-repository holdCycle terminal evidence conflict"
    return .answer .done

def assertNotHeld : Except String Unit :=
  match s.terminalState with
  | none | some .completed => .ok ()
  | some terminalState => .error ("cycle-repository completeCycle: cycle is terminally held as "
      ++ terminalState.name)

def completeCycle : Except String (Reading (SigningWrite ω) SigningAnswer) := do
  s.assertNotHeld
  if s.completed then return .answer .done
  else
    s.assertCycleClosure others
    return .keep .completed

def read : SigningCall ω → Except String (Reading (SigningWrite ω) SigningAnswer)
  | .prepareChainTransactionAttempt stage attempt =>
    s.prepareChainTransactionAttempt cycleId stage attempt
  | .recordSignedTransaction stage requestDigest material =>
    s.recordSignedTransaction stage requestDigest material
  | .recordSignedTransactionWithRecoveryContext stage requestDigest material context =>
    s.recordSignedTransactionWithRecoveryContext cycleId stage requestDigest material context
  | .recordBroadcast stage requestDigest evidence => s.recordBroadcast stage requestDigest evidence
  | .recordFinality stage requestDigest evidence => s.recordFinality stage requestDigest evidence
  | .persistChainAttemptRecoveryContext context =>
    s.persistChainAttemptRecoveryContext cycleId context
  | .persistSignOnlyPreSignBinding stage requestDigest binding =>
    s.persistSignOnlyPreSignBinding cycleId stage requestDigest binding
  | .reserveSignOnlyInvocation stage requestDigest ordinal =>
    s.reserveSignOnlyInvocation cycleId stage requestDigest ordinal
  | .recordSignOnlyInvocationTimeout stage requestDigest ordinal =>
    s.recordSignOnlyInvocationTimeout stage requestDigest ordinal
  | .holdCycle terminalState evidence => s.holdCycle terminalState evidence
  | .completeCycle => s.completeCycle others
  | .other record => .ok (.keep (.other record))

/-! ### Inside the append -/

/-- The chain attempt is still the one that was read. -/
def assertUnchanged (stage : OperationalStage) (requestDigest : Text) (current : ChainAttemptRecord)
    (message : String) : Except String Unit := do
  let latest ← required (s.chainAttempts.find (chainAttemptKey stage requestDigest)) message
  throwIf (latest.attempt ≠ current.attempt) message

def appendPrepared (stage : OperationalStage) (attempt : ChainTransactionAttempt) :
    Except String (List (SigningEvent ω) × SigningAnswer) := do
  s.assertNotTerminal "prepareChainTransactionAttempt"
  throwIf (s.chainAttempts.find (chainAttemptKey stage attempt.requestDigest)).isSome
    ("cycle-repository prepareChainTransactionAttempt: request \"" ++ shown attempt.requestDigest
      ++ "\" already has a chain attempt")
  return ([.chainAttemptPrepared stage attempt], .chainAttempt ⟨attempt, none, none⟩)

def appendSigned (operation : String) (stage : OperationalStage) (requestDigest : Text)
    (current : ChainAttemptRecord) (attempt : ChainTransactionAttempt)
    (context : Option ChainAttemptRecoveryContext) :
    Except String (List (SigningEvent ω) × SigningAnswer) := do
  s.assertNotTerminal operation
  s.assertUnchanged stage requestDigest current ("cycle-repository " ++ operation ++ ": \""
    ++ shown requestDigest ++ "\" changed while recording signing material")
  throwIf (∃ c ∈ context,
      (s.chainAttemptRecoveryContexts.find (chainAttemptRecoveryContextKey c)).isSome)
    "cycle-repository atomic signed transaction recovery authority changed while recording"
  return (.chainAttemptSigned stage attempt ::
      context.toList.map .chainAttemptRecoveryContextRecorded,
    .chainAttempt { current with attempt := attempt })

def appendBroadcast (stage : OperationalStage) (requestDigest : Text) (current : ChainAttemptRecord)
    (attempt : ChainTransactionAttempt) (evidence : Value) :
    Except String (List (SigningEvent ω) × SigningAnswer) := do
  s.assertUnchanged stage requestDigest current ("cycle-repository recordBroadcast: \""
    ++ shown requestDigest ++ "\" changed while recording broadcast")
  return ([.chainAttemptBroadcast stage attempt evidence],
    .chainAttempt { current with attempt := attempt, broadcastEvidence := some evidence })

def appendFinalized (stage : OperationalStage) (requestDigest : Text) (current : ChainAttemptRecord)
    (attempt : ChainTransactionAttempt) (evidence : Value) :
    Except String (List (SigningEvent ω) × SigningAnswer) := do
  s.assertUnchanged stage requestDigest current ("cycle-repository recordFinality: \""
    ++ shown requestDigest ++ "\" changed while recording finality")
  return ([.chainAttemptFinalized stage attempt evidence],
    .chainAttempt { current with attempt := attempt, finalityEvidence := some evidence })

def appendContext (context : ChainAttemptRecoveryContext) :
    Except String (List (SigningEvent ω) × SigningAnswer) := do
  s.assertNotTerminal "persistChainAttemptRecoveryContext"
  throwIf (s.chainAttemptRecoveryContexts.find (chainAttemptRecoveryContextKey context)).isSome
    "cycle-repository persistChainAttemptRecoveryContext: context changed while recording"
  return ([.chainAttemptRecoveryContextRecorded context], .context context)

def appendBinding (stage : OperationalStage) (requestDigest : Text)
    (binding : SignOnlyPreSignBinding) :
    Except String (List (SigningEvent ω) × SigningAnswer) := do
  s.assertNotTerminal "persistSignOnlyPreSignBinding"
  throwIf (s.signOnlyPreSignBindings.find (chainAttemptKey stage requestDigest)).isSome
    "cycle-repository persistSignOnlyPreSignBinding: a concurrent binding was already recorded"
  let latestChain ← s.chainAttemptFor stage requestDigest "persistSignOnlyPreSignBinding"
  throwIf (¬ isPrepared latestChain)
    "cycle-repository persistSignOnlyPreSignBinding: chain attempt changed while recording"
  return ([.signOnlyPreSignBindingPersisted binding], .binding binding)

def appendReserved (stage : OperationalStage) (requestDigest : Text) (ordinal : Nat)
    (currentLedger : Option SignOnlyInvocationLedger) (ledger : SignOnlyInvocationLedger) :
    Except String (List (SigningEvent ω) × SigningAnswer) := do
  s.assertNotTerminal "reserveSignOnlyInvocation"
  let latestChain ← s.chainAttemptFor stage requestDigest "reserveSignOnlyInvocation"
  throwIf (¬ isPrepared latestChain)
    "cycle-repository reserveSignOnlyInvocation: chain attempt changed while reserving"
  let latestLedger := s.signOnlyInvocationLedgers.find (chainAttemptKey stage requestDigest)
  throwIf (ordinal = 1 ∧ latestLedger.isSome)
    "cycle-repository reserveSignOnlyInvocation: ordinal 1 was already reserved"
  throwIf (ordinal ≠ 1 ∧ (latestLedger = none ∨ latestLedger ≠ currentLedger))
    "cycle-repository reserveSignOnlyInvocation: ordinal 1 outcome changed while reserving ordinal 2"
  return ([.signOnlyInvocationReserved ledger], .granted stage requestDigest ordinal ledger)

def appendTimedOut (stage : OperationalStage) (requestDigest : Text) (ordinal : Nat)
    (currentLedger ledger : SignOnlyInvocationLedger) :
    Except String (List (SigningEvent ω) × SigningAnswer) := do
  s.assertNotTerminal "recordSignOnlyInvocationTimeout"
  throwIf (s.signOnlyInvocationLedgers.find (chainAttemptKey stage requestDigest) ≠ some currentLedger)
    ("cycle-repository recordSignOnlyInvocationTimeout: ledger changed while recording ordinal "
      ++ toString ordinal ++ " timeout")
  return ([.signOnlyInvocationTimedOut ledger], .timedOut ledger)

def appendHeld (terminalState : CycleTerminalState) (evidence : Value) :
    Except String (List (SigningEvent ω) × SigningAnswer) := do
  throwIf s.terminalState.isSome
    "cycle-repository holdCycle terminal state changed while recording hold"
  return ([.cycleTerminal terminalState evidence], .done)

def appendCompleted : Except String (List (SigningEvent ω) × SigningAnswer) := do
  s.assertNotTerminal "completeCycle"
  s.assertCycleClosure others
  return ([.cycleCompleted], .done)

/-- A writer of another family, as far as the journal goes on being readable. -/
def appendOther (record : ω) : Except String (List (SigningEvent ω) × SigningAnswer) := do
  s.assertRecordAllowed others (.other record)
  return ([.other record], .done)

def append : SigningWrite ω → Except String (List (SigningEvent ω) × SigningAnswer)
  | .prepared stage attempt => s.appendPrepared stage attempt
  | .signed operation stage requestDigest current attempt context =>
    s.appendSigned operation stage requestDigest current attempt context
  | .broadcast stage requestDigest current attempt evidence =>
    s.appendBroadcast stage requestDigest current attempt evidence
  | .finalized stage requestDigest current attempt evidence =>
    s.appendFinalized stage requestDigest current attempt evidence
  | .context context => s.appendContext context
  | .binding stage requestDigest binding => s.appendBinding stage requestDigest binding
  | .reserved stage requestDigest ordinal currentLedger ledger =>
    s.appendReserved stage requestDigest ordinal currentLedger ledger
  | .timedOut stage requestDigest ordinal currentLedger ledger =>
    s.appendTimedOut stage requestDigest ordinal currentLedger ledger
  | .held terminalState evidence => s.appendHeld terminalState evidence
  | .completed => s.appendCompleted others
  | .other record => s.appendOther others record

end SigningState

/-- The writers of the journal of one cycle. `fits` are the bounds of the journal. -/
def signingWriters {ω : Type} (others : OtherRecords ω) (cycleId : Text)
    (fits : List (SigningEvent ω) → List (SigningEvent ω) → Bool) :
    Writers (SigningState ω) (SigningEvent ω) (SigningCall ω) (SigningWrite ω) SigningAnswer where
  apply s e := s.apply others cycleId e
  init := .empty
  fits := fits
  read s c := s.read others cycleId c
  append s p := s.append others p

end Hookemon.Repository
