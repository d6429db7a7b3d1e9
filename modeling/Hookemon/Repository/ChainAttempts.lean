import Hookemon.Core.Replay
import Hookemon.Js.Record
import Hookemon.Runner.CycleRecords

/-! # Chain transaction attempts (`cycle/money-schemas.mjs`)

A transaction that a stage sends to a chain is prepared, signed, broadcast and finalized, in
this order. Its signing material is null until it is signed and immutable from then on.

The objects of this schema have a type each here: the exact set of their fields and the
values of their enumerations need no check.
-/

namespace Hookemon.Repository

open Hookemon.Core Hookemon.Js Hookemon.Runner

/-! ## Stages and terminal states -/

/-- `OPERATIONAL_CYCLE_STAGES`. -/
inductive OperationalStage where
  | eligibilitySnapshot | claimProcess | outbound | purchase | «open» | epicGate | buyback
  | «return» | payout
deriving DecidableEq, Repr

def OperationalStage.name : OperationalStage → Text
  | .eligibilitySnapshot => text "eligibility-snapshot"
  | .claimProcess => text "claim-process"
  | .outbound => text "outbound"
  | .purchase => text "purchase"
  | .open => text "open"
  | .epicGate => text "epic-gate"
  | .buyback => text "buyback"
  | .return => text "return"
  | .payout => text "payout"

/-- `CYCLE_TERMINAL_STATES`. -/
inductive CycleTerminalState where
  | completed | failed | heldDataUnverified | heldUnavailable | heldOwnerDecision
  | heldRelayPartial | heldRelayRefund | heldRelayLate | heldRelayWrongAsset
deriving DecidableEq, Repr

def CycleTerminalState.name : CycleTerminalState → String
  | .completed => "COMPLETED"
  | .failed => "FAILED"
  | .heldDataUnverified => "HELD_DATA_UNVERIFIED"
  | .heldUnavailable => "HELD_UNAVAILABLE"
  | .heldOwnerDecision => "HELD_OWNER_DECISION"
  | .heldRelayPartial => "HELD_RELAY_PARTIAL"
  | .heldRelayRefund => "HELD_RELAY_REFUND"
  | .heldRelayLate => "HELD_RELAY_LATE"
  | .heldRelayWrongAsset => "HELD_RELAY_WRONG_ASSET"

/-- `terminalState.startsWith('HELD_')`. -/
def CycleTerminalState.isHeld : CycleTerminalState → Bool
  | .completed | .failed => false
  | _ => true

/-- A text as a part of a message. -/
def shown (value : Text) : String := String.ofList (value.map fun c => Char.ofNat c.toNat)

/-! ## Field checks -/

def assertNonEmptyString (value : Text) (label : String) : Except String Unit :=
  throwIf (value.length = 0 ∨ 512 < value.length) (label ++ " is invalid")

def assertDigest (value : Text) (label : String) : Except String Unit :=
  throwIf (¬ isDigest value) (label ++ " is invalid")

/-- `^(0|[1-9][0-9]*)$`. -/
def assertAtomic (value : Text) (label : String) : Except String Unit :=
  throwIf (¬ isDecimal value) (label ++ " is invalid")

/-- The alphabet of base64. -/
def isBase64Unit (c : UInt16) : Bool := isAlphanumeric c || c = 43 || c = 47

/-- The six bits that a unit of the alphabet stands for. -/
def base64Bits (c : UInt16) : Nat :=
  let n := c.toNat
  if n = 43 then 62 else if n = 47 then 63 else if n ≤ 57 then n + 4 else if n ≤ 90 then n - 65
  else n - 71

/-- The bytes of a canonical base64 text: whole groups, at most two fill units, and no bits of
the last group left over. -/
def base64Length (s : Text) : Option Nat :=
  let body := s.takeWhile (· ≠ 61)
  let fill := s.length - body.length
  if s.length % 4 = 0 ∧ fill ≤ 2 ∧ s = body ++ List.replicate fill 61 ∧ body.all isBase64Unit ∧
      (base64Bits (body.getLastD 65)) % (4 ^ fill) = 0 then
    some (3 * (s.length / 4) - fill)
  else none

/-! ## Attempts -/

/-- `CHAIN_TRANSACTION_ATTEMPT_STATES`. -/
inductive ChainTransactionAttemptState where
  | prepared | signed | broadcast | finalized
deriving DecidableEq, Repr

structure ChainTransactionAttempt where
  cycleId : Text
  stage : OperationalStage
  state : ChainTransactionAttemptState
  requestDigest : Text
  rawBytes : Option Text
  nonce : Option Text
  blockhash : Option Text
  hash : Option Text
deriving DecidableEq, Repr

/-- What signing adds to an attempt. -/
structure SigningMaterial where
  rawBytes : Option Text
  nonce : Option Text
  blockhash : Option Text
  hash : Option Text
deriving DecidableEq, Repr

def assertChainSigningMaterial (value : ChainTransactionAttempt) (label : String) :
    Except String Unit := do
  if value.blockhash ≠ none then
    let bytes := if (value.rawBytes.getD []).length ≤ 1644 then base64Length (value.rawBytes.getD [])
      else none
    throwIf (bytes = none ∨ bytes = some 0 ∨ 1232 < bytes.getD 0)
      (label ++ " rawBytes must be canonical Solana base64 within 1232 wire bytes")
  else
    assertNonEmptyString (value.rawBytes.getD []) (label ++ " rawBytes")
  throwIf (value.nonce = none ↔ value.blockhash = none)
    (label ++ " requires exactly one nonce or blockhash")
  match value.nonce with
  | some nonce => assertAtomic nonce (label ++ " nonce")
  | none => pure ()
  match value.blockhash with
  | some blockhash => assertNonEmptyString blockhash (label ++ " blockhash")
  | none => pure ()
  assertNonEmptyString (value.hash.getD []) (label ++ " hash")

/-- The check that the state and the signing material agree. -/
def assertAttemptMaterial (value : ChainTransactionAttempt) (label : String) : Except String Unit :=
  match value.state with
  | .prepared =>
    throwIf (value.rawBytes ≠ none ∨ value.nonce ≠ none ∨ value.blockhash ≠ none ∨ value.hash ≠ none)
      (label ++ " prepared state cannot contain signing material")
  | _ => assertChainSigningMaterial value label

def assertChainTransactionAttempt (value : ChainTransactionAttempt) (label : String) :
    Except String ChainTransactionAttempt := do
  assertNonEmptyString value.cycleId (label ++ " cycleId")
  assertDigest value.requestDigest (label ++ " requestDigest")
  assertAttemptMaterial value label
  return value

/-- The states that may follow. -/
def ChainTransactionAttemptState.permitted :
    ChainTransactionAttemptState → List ChainTransactionAttemptState
  | .prepared => [.signed]
  | .signed => [.broadcast]
  | .broadcast => [.finalized]
  | .finalized => []

/-- `transitionChainTransactionAttempt`; no evidence is `{}`. -/
def transitionChainTransactionAttempt (value : ChainTransactionAttempt)
    (nextState : ChainTransactionAttemptState) (evidence : Option SigningMaterial) :
    Except String ChainTransactionAttempt := do
  let current ← assertChainTransactionAttempt value "chain transaction attempt"
  throwIf (nextState ∉ current.state.permitted) "chain transaction attempt transition is invalid"
  match current.state, evidence with
  | .prepared, none => .error "chain transaction attempt signing evidence is invalid"
  | .prepared, some material =>
    assertChainTransactionAttempt
      { current with
        state := nextState
        rawBytes := material.rawBytes
        nonce := material.nonce
        blockhash := material.blockhash
        hash := material.hash }
      "chain transaction attempt"
  | _, some _ => .error "chain transaction attempt transition evidence is immutable after signing"
  | _, none => assertChainTransactionAttempt { current with state := nextState } "chain transaction attempt"

theorem assertChainTransactionAttempt_eq {value a : ChainTransactionAttempt} {label : String}
    (h : assertChainTransactionAttempt value label = .ok a) : a = value := by
  unfold assertChainTransactionAttempt at h
  simp only [bind_eq_ok, pure_eq_ok] at h
  obtain ⟨-, -, -, -, -, -, hsame⟩ := h
  exact hsame.symm

/-- What the checks ask does not depend on the label. -/
theorem assertChainTransactionAttempt_label {value a : ChainTransactionAttempt} {label : String}
    (other : String) (h : assertChainTransactionAttempt value label = .ok a) :
    assertChainTransactionAttempt value other = .ok a := by
  unfold assertChainTransactionAttempt assertAttemptMaterial assertChainSigningMaterial at *
  unfold assertNonEmptyString Repository.assertDigest assertAtomic at *
  cases hstate : value.state <;> cases hnonce : value.nonce <;>
    cases hblockhash : value.blockhash <;>
    simp only [hstate, hnonce, hblockhash, bind_eq_ok, revertIf_eq_ok, pure_eq_ok, ne_eq, not_true,
      not_false_eq_true, reduceCtorEq, if_true, if_false] at h ⊢ <;> exact h

/-- A transition keeps the stage and the request, and goes one state on. -/
theorem transitionChainTransactionAttempt_ok {value next : ChainTransactionAttempt}
    {state : ChainTransactionAttemptState} {evidence : Option SigningMaterial}
    (h : transitionChainTransactionAttempt value state evidence = .ok next) :
    next.state = state ∧ state ∈ value.state.permitted ∧ next.cycleId = value.cycleId ∧
      next.stage = value.stage ∧ next.requestDigest = value.requestDigest := by
  unfold transitionChainTransactionAttempt at h
  simp only [bind_eq_ok, revertIf_eq_ok, not_not] at h
  obtain ⟨current, hcurrent, -, hpermitted, h⟩ := h
  rw [assertChainTransactionAttempt_eq hcurrent] at hpermitted h
  cases hstate : value.state <;> cases evidence <;> rw [hstate] at hpermitted h <;>
    dsimp only at h <;> first
    | cases h
    | rw [assertChainTransactionAttempt_eq h]
      exact ⟨rfl, hpermitted, rfl, rfl, rfl⟩

/-- Signing adds the material, and nothing else. -/
theorem transitionChainTransactionAttempt_signed {value next : ChainTransactionAttempt}
    {state : ChainTransactionAttemptState} {material : SigningMaterial}
    (h : transitionChainTransactionAttempt value state (some material) = .ok next) :
    value.state = .prepared ∧
      material = ⟨next.rawBytes, next.nonce, next.blockhash, next.hash⟩ ∧
      assertChainTransactionAttempt next "chain transaction attempt" = .ok next := by
  unfold transitionChainTransactionAttempt at h
  simp only [bind_eq_ok] at h
  obtain ⟨current, hcurrent, _, -, h⟩ := h
  rw [assertChainTransactionAttempt_eq hcurrent] at h
  cases hstate : value.state <;> rw [hstate] at h <;> dsimp only at h <;> try cases h
  have hnext := assertChainTransactionAttempt_eq h
  rw [← hnext] at h
  refine ⟨rfl, ?_, h⟩
  rw [hnext]

/-- An observation changes the state only. -/
theorem transitionChainTransactionAttempt_observed {value next : ChainTransactionAttempt}
    {state : ChainTransactionAttemptState}
    (h : transitionChainTransactionAttempt value state none = .ok next) :
    value.state ≠ .prepared ∧ next = { value with state := state } ∧
      assertChainTransactionAttempt next "chain transaction attempt" = .ok next := by
  unfold transitionChainTransactionAttempt at h
  simp only [bind_eq_ok] at h
  obtain ⟨current, hcurrent, _, -, h⟩ := h
  rw [assertChainTransactionAttempt_eq hcurrent] at h
  cases hstate : value.state <;> rw [hstate] at h <;> dsimp only at h
  case prepared => cases h
  all_goals
    have hnext := assertChainTransactionAttempt_eq h
    rw [← hnext] at h
    exact ⟨by decide, hnext, h⟩

/-- The value of a map at a key that has to be there. -/
def required {α : Type} (found : Option α) (message : String) : Except String α :=
  match found with
  | none => .error message
  | some value => .ok value

@[simp] theorem required_eq_ok {α : Type} {found : Option α} {message : String} {value : α} :
    required found message = .ok value ↔ found = some value := by
  cases found <;> simp [required]

/-! ## The end of a cycle -/

/-- The check of `#replayStored` on what may follow a terminal state. -/
def assertRecordAllowed (terminalState : Option CycleTerminalState)
    (completed afterTerminal afterCompletion isTerminal : Bool) : Except String Unit :=
  throwIf (terminalState ≠ none ∧ (¬ afterTerminal ∨ (completed ∧ ¬ afterCompletion)))
    (if isTerminal then "stored cycle has a second terminal event"
      else "stored cycle has a non-observational event after terminal state")

theorem assertRecordAllowed_ok {terminalState : Option CycleTerminalState}
    {completed afterTerminal afterCompletion isTerminal : Bool} {u : Unit} :
    assertRecordAllowed terminalState completed afterTerminal afterCompletion isTerminal = .ok u ↔
      terminalState = none ∨ (afterTerminal ∧ (completed → afterCompletion)) := by
  unfold assertRecordAllowed
  rw [revertIf_eq_ok]
  tauto

/-- The refusal of a terminal cycle, before the append and inside it. -/
def assertNotTerminal (terminalState : Option CycleTerminalState) (operation : String) :
    Except String Unit :=
  match terminalState with
  | none => .ok ()
  | some terminalState => .error ("cycle-repository " ++ operation ++ ": cycle is terminal as "
      ++ terminalState.name)

@[simp] theorem assertNotTerminal_ok {terminalState : Option CycleTerminalState}
    {operation : String} {u : Unit} :
    assertNotTerminal terminalState operation = .ok u ↔ terminalState = none := by
  unfold assertNotTerminal
  cases terminalState <;> simp

/-- The records of other families in the journal of a cycle: which of them may follow a terminal
state, which completion, and what they say about closing the cycle. -/
structure OtherRecords (ω : Type) where
  afterTerminal : ω → Bool
  afterCompletion : ω → Bool
  assertClosure : List ω → Except String Unit

/-! ## Keys -/

/-- `chainAttemptKey`. -/
def chainAttemptKey (stage : OperationalStage) (requestDigest : Text) : Text :=
  stage.name ++ [0] ++ requestDigest

theorem OperationalStage.zero_not_mem_name (stage : OperationalStage) : 0 ∉ stage.name := by
  cases stage <;> decide

theorem takeWhile_chainAttemptKey (stage : OperationalStage) (requestDigest : Text) :
    (chainAttemptKey stage requestDigest).takeWhile (· ≠ 0) = stage.name := by
  unfold chainAttemptKey
  rw [List.append_assoc, List.takeWhile_append_of_pos]
  · simp
  · intro c hc
    have hne : c ≠ 0 := fun hzero => stage.zero_not_mem_name (hzero ▸ hc)
    simpa using hne

/-- The key tells stage and request apart. -/
theorem chainAttemptKey_inj {stage stage' : OperationalStage} {requestDigest requestDigest' : Text} :
    chainAttemptKey stage requestDigest = chainAttemptKey stage' requestDigest' ↔
      stage = stage' ∧ requestDigest = requestDigest' := by
  constructor
  · intro h
    have hstage : stage = stage' := by
      have hnames : stage.name = stage'.name := by
        rw [← takeWhile_chainAttemptKey stage requestDigest, h, takeWhile_chainAttemptKey]
      revert hnames
      cases stage <;> cases stage' <;> decide
    subst hstage
    unfold chainAttemptKey at h
    exact ⟨rfl, List.append_cancel_left h⟩
  · rintro ⟨rfl, rfl⟩
    rfl

end Hookemon.Repository
