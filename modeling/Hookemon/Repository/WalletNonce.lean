import Hookemon.Core.Leases
import Hookemon.Repository.GlobalKeys
import Hookemon.Repository.SignOnly

/-! # Wallet nonce reservations (`app/cycle-repository.mjs`)

A stage that sends transactions of a wallet first reserves its nonce, for the time of a lease
and under a fencing token. The reservation is recorded in the journal of its cycle and under one
global key for all cycles. It ends by a release, or by another reservation once its lease has
expired.

The calls here are for one wallet on one chain, so a reservation leaves these two out.
-/

namespace Hookemon.Repository

open Hookemon.Core Hookemon.Js Hookemon.Runner

/-! ## Reservations (`cycle/money-schemas.mjs`) -/

/-- `WALLET_NONCE_RESERVATION_STATES`. -/
inductive WalletNonceReservationState where
  | held | released
deriving DecidableEq, Repr

structure WalletNonceReservation where
  cycleId : Text
  stage : OperationalStage
  fencingToken : Text
  leaseAcquiredAtMs : Nat
  leaseExpiresAtMs : Nat
  state : WalletNonceReservationState
deriving DecidableEq, Repr

/-- What the calls are given. -/
structure WalletNonceInput where
  stage : OperationalStage
  fencingToken : Text
  leaseAcquiredAtMs : Nat
  leaseExpiresAtMs : Nat
deriving DecidableEq, Repr

def WalletNonceInput.reservation (value : WalletNonceInput) (cycleId : Text) :
    WalletNonceReservation :=
  ⟨cycleId, value.stage, value.fencingToken, value.leaseAcquiredAtMs, value.leaseExpiresAtMs, .held⟩

def assertWalletNonceReservation (value : WalletNonceReservation) (label : String) :
    Except String Unit := do
  assertNonEmptyString value.cycleId (label ++ " cycleId")
  assertFencingToken value.fencingToken (label ++ " fencingToken")
  throwIf (maxSafeInteger < (value.leaseAcquiredAtMs : Int)) (label ++ " leaseAcquiredAtMs is invalid")
  throwIf (maxSafeInteger < (value.leaseExpiresAtMs : Int) ∨
      value.leaseExpiresAtMs ≤ value.leaseAcquiredAtMs) (label ++ " leaseExpiresAtMs is invalid")

def walletNonceReservationExpired (reservation : WalletNonceReservation) (now : Nat) : Bool :=
  reservation.leaseExpiresAtMs ≤ now

theorem walletNonceReservationExpired_iff {r : WalletNonceReservation} {now : Nat} :
    walletNonceReservationExpired r now ↔ r.leaseExpiresAtMs ≤ now := by
  unfold walletNonceReservationExpired
  rw [decide_eq_true_eq]

def validWalletNonceTakeover (previous replacement : WalletNonceReservation) : Bool :=
  previous.state = .held && replacement.state = .held &&
    previous.leaseExpiresAtMs ≤ replacement.leaseAcquiredAtMs

/-! ## Journals -/

inductive NonceEvent (ω : Type) where
  | walletNonceReserved (reservation : WalletNonceReservation)
  | walletNonceReleased (reservation : WalletNonceReservation)
  | other (e : CycleEvent ω)
deriving DecidableEq

structure NonceState (ω : Type) where
  reservation : Option WalletNonceReservation
  life : CycleLife ω
deriving DecidableEq

/-- What the calls share: the global key of the wallet, which payout retries in the records of
a cycle that awaits its owner let it reserve or release a nonce, the records of other families
and the bounds of a journal. -/
structure NonceContext (ω : Type) where
  key : Text
  hasUnresolvedRetry : List ω → Bool
  hasReleasableRetry : List ω → Bool
  others : OtherRecords ω
  fits : List (NonceEvent ω) → NonceEvent ω → Bool

section Journal

variable {ω : Type} (X : NonceContext ω)

def payoutRetryMayUseHeldCycle (life : CycleLife ω) : Bool :=
  life.terminalState = some .heldOwnerDecision && X.hasUnresolvedRetry life.records

def payoutRetryMayReleaseHeldCycle (life : CycleLife ω) : Bool :=
  life.terminalState = some .heldOwnerDecision && X.hasReleasableRetry life.records

namespace NonceState

variable (s : NonceState ω)

def empty : NonceState ω := ⟨none, .empty⟩

def replayReserved (cycleId : Text) (reservation : WalletNonceReservation) :
    Except String (NonceState ω) := do
  s.life.assertAllowed true false
  assertWalletNonceReservation reservation "stored wallet nonce reservation"
  throwIf (reservation.cycleId ≠ cycleId ∨ reservation.state ≠ .held)
    "stored wallet nonce reservation is invalid"
  throwIf (s.reservation.any fun previous => previous.state = .held && previous ≠ reservation &&
      !validWalletNonceTakeover previous reservation)
    "stored wallet nonce reservation conflicts with prior reservation"
  return { s with reservation := some reservation }

def replayReleased (cycleId : Text) (release : WalletNonceReservation) :
    Except String (NonceState ω) := do
  s.life.assertAllowed true false
  assertWalletNonceReservation release "stored wallet nonce release"
  let previous ← required s.reservation "stored wallet nonce release is invalid"
  throwIf (previous.state ≠ .held ∨ previous.cycleId ≠ cycleId ∨ previous.stage ≠ release.stage ∨
      previous.fencingToken ≠ release.fencingToken ∨ release.state ≠ .released)
    "stored wallet nonce release is invalid"
  return { s with reservation := some release }

/-- `#replayStored`, one entry of the journal of a cycle. -/
def apply (cycleId : Text) (e : NonceEvent ω) : Except String (NonceState ω) :=
  match e with
  | .walletNonceReserved reservation => s.replayReserved cycleId reservation
  | .walletNonceReleased release => s.replayReleased cycleId release
  | .other e => do
    let life ← s.life.apply X.others e
    return { s with life := life }

/-- The reservation that the cycle holds. -/
def held : Option WalletNonceReservation := s.reservation.filter (·.state = .held)

end NonceState

/-- `#replay`. The store refuses what is no identifier of a cycle. -/
def nonceReplay (cycleId : Text) (journal : List (NonceEvent ω)) : Except String (NonceState ω) := do
  throwIf (¬ isIdentifier cycleId) "cycleId is invalid"
  replay (fun s e => NonceState.apply X s cycleId e) .empty journal

end Journal

/-! ## The store -/

structure NonceStore (ω : Type) where
  journals : Record (List (NonceEvent ω))
  index : Record WalletNonceReservation
  clock : Nat

def NonceStore.empty {ω : Type} : NonceStore ω := ⟨.empty, .empty, 0⟩

inductive NonceRequest (ω : Type) where
  | reserveWalletNonce (value : WalletNonceInput)
  | assertWalletNonce (value : WalletNonceInput)
  | releaseWalletNonce (value : WalletNonceInput)
  | append (e : CycleEvent ω)

structure NonceCall (ω : Type) where
  cycleId : Text
  request : NonceRequest ω

/-- What is appended to the journal; `existing` is the value read under the global key, `now` the
time of the reading. -/
inductive NonceAppend (ω : Type) where
  | reserve (reservation : WalletNonceReservation) (existing : Option WalletNonceReservation)
      (now : Nat)
  | release (current : WalletNonceReservation) (existing : Option WalletNonceReservation)
  | record (e : CycleEvent ω)

/-- An append, or the release of a key whose journal shows the release already. -/
inductive NonceWrite (ω : Type) where
  | append (appended : NonceAppend ω)
  | releaseGlobalKey (expected : WalletNonceReservation)

/-- What a call keeps after reading. -/
structure NonceKept (ω : Type) where
  cycleId : Text
  write : NonceWrite ω

inductive NonceAnswer where
  | reserved (reservation : WalletNonceReservation)
  | asserted
  | released
  | recorded
deriving DecidableEq

section Calls

variable {ω : Type} (X : NonceContext ω) (s : NonceStore ω)

/-- A cycle that awaits its owner may go on with the nonce of a payout retry. -/
def assertNonceAllowed (mayUse : Bool) (terminalState : Option CycleTerminalState)
    (operation : String) : Except String Unit :=
  if mayUse then .ok () else assertNotTerminal terminalState operation

/-- `#knownStates`. -/
def knownNonceStates : Except String (List (Text × NonceState ω)) :=
  s.journals.entries.mapM fun entry => do
    let state ← nonceReplay X entry.1 entry.2
    return (entry.1, state)

/-- `#heldWalletNonceReservationInAnotherCycle`, and the refusal of what it finds. -/
def assertNotHeldElsewhere (cycleId : Text) (now : Nat) (operation : String) :
    Except String Unit := do
  let known ← knownNonceStates X s
  match known.find? fun candidate => candidate.1 ≠ cycleId ∧
      candidate.2.held.any fun current => !walletNonceReservationExpired current now with
  | some competing => .error ("cycle-repository " ++ operation
      ++ ": wallet is reserved by active cycle " ++ shown competing.1)
  | none => .ok ()

/-- What is read under the global key must be free, the reservation itself, or one that the
reservation may take over. -/
def assertGlobalReservation (existing : Option WalletNonceReservation)
    (reservation : WalletNonceReservation) (now : Nat) : Except String Unit :=
  match existing with
  | none => .ok ()
  | some existing =>
    if existing = reservation then .ok () else do
      throwIf (¬ (assertWalletNonceReservation existing "durable wallet nonce reservation").isOk)
        "cycle-repository reserveWalletNonce: durable wallet nonce reservation is invalid"
      throwIf (¬ walletNonceReservationExpired existing now ∨
          ¬ validWalletNonceTakeover existing reservation)
        "cycle-repository reserveWalletNonce: wallet is already reserved with different fence"

/-- A held reservation gives way when it has expired before the lease of the next. -/
def blocks (current reservation : WalletNonceReservation) (now : Nat) : Bool :=
  current.state = .held && current ≠ reservation &&
    !(walletNonceReservationExpired current now && validWalletNonceTakeover current reservation)

def reserveWalletNonce (cycleId : Text) (value : WalletNonceInput) :
    Except String (Reading (NonceWrite ω) NonceAnswer) := do
  let reservation := value.reservation cycleId
  assertWalletNonceReservation reservation "wallet nonce reservation"
  let now ← currentRepositoryTime s.clock
  throwIf (now < reservation.leaseAcquiredAtMs ∨ walletNonceReservationExpired reservation now)
    "cycle-repository reserveWalletNonce: reservation lease is not active"
  let state ← nonceReplay X cycleId (journalOf s.journals cycleId)
  assertNonceAllowed (payoutRetryMayUseHeldCycle X state.life) state.life.terminalState
    "reserveWalletNonce"
  if state.reservation = some reservation then return .answer (.reserved reservation)
  else do
    throwIf (state.reservation.any fun current => blocks current reservation now)
      "cycle-repository reserveWalletNonce: wallet is already reserved with different fence"
    assertNotHeldElsewhere X s cycleId now "reserveWalletNonce"
    let existing := s.index.find X.key
    assertGlobalReservation existing reservation now
    return .keep (.append (.reserve reservation existing now))

def assertWalletNonce (cycleId : Text) (value : WalletNonceInput) :
    Except String (Reading (NonceWrite ω) NonceAnswer) := do
  let expected := value.reservation cycleId
  assertWalletNonceReservation expected "wallet nonce reservation"
  let now ← currentRepositoryTime s.clock
  throwIf (walletNonceReservationExpired expected now)
    "cycle-repository assertWalletNonce: wallet nonce reservation lease has expired"
  assertNotHeldElsewhere X s cycleId now "assertWalletNonce"
  let state ← nonceReplay X cycleId (journalOf s.journals cycleId)
  let current ← required state.held
    "cycle-repository assertWalletNonce: wallet nonce reservation is not held"
  throwIf (walletNonceReservationExpired current now)
    "cycle-repository assertWalletNonce: wallet nonce reservation lease has expired"
  throwIf (current ≠ expected) "cycle-repository assertWalletNonce: stale wallet nonce fencing token"
  return .answer .asserted

/-- The rest of `releaseWalletNonce` when the journal shows the release already. -/
def releaseStranded (current expected : WalletNonceReservation) :
    Except String (Reading (NonceWrite ω) NonceAnswer) := do
  throwIf (current.fencingToken ≠ expected.fencingToken ∨ current.stage ≠ expected.stage ∨
      current.leaseAcquiredAtMs ≠ expected.leaseAcquiredAtMs ∨
      current.leaseExpiresAtMs ≠ expected.leaseExpiresAtMs)
    "cycle-repository releaseWalletNonce: stale wallet nonce fencing token"
  match s.index.find X.key with
  | none => return .answer .released
  | some stranded => do
    throwIf (stranded ≠ expected)
      "cycle-repository releaseWalletNonce: durable wallet nonce reservation has a newer fence"
    return .keep (.releaseGlobalKey expected)

/-- The rest of it when the journal holds the reservation. -/
def releaseHeld (current expected : WalletNonceReservation) :
    Except String (Reading (NonceWrite ω) NonceAnswer) := do
  throwIf (current ≠ expected)
    "cycle-repository releaseWalletNonce: stale wallet nonce fencing token"
  let existing := s.index.find X.key
  throwIf (existing ≠ none ∧ existing ≠ some expected)
    "cycle-repository releaseWalletNonce: durable wallet nonce reservation has a newer fence"
  return .keep (.append (.release current existing))

def releaseWalletNonce (cycleId : Text) (value : WalletNonceInput) :
    Except String (Reading (NonceWrite ω) NonceAnswer) := do
  let expected := value.reservation cycleId
  assertWalletNonceReservation expected "wallet nonce reservation"
  let state ← nonceReplay X cycleId (journalOf s.journals cycleId)
  let current ← required state.reservation
    "cycle-repository releaseWalletNonce: stale wallet nonce fencing token"
  if current.state = .released then releaseStranded X s current expected
  else releaseHeld X s current expected

def nonceReading (cycleId : Text) :
    NonceRequest ω → Except String (Reading (NonceWrite ω) NonceAnswer)
  | .reserveWalletNonce value => reserveWalletNonce X s cycleId value
  | .assertWalletNonce value => assertWalletNonce X s cycleId value
  | .releaseWalletNonce value => releaseWalletNonce X s cycleId value
  | .append e => .ok (.keep (.append (.record e)))

/-- What a call reads, and what it keeps of it. -/
def nonceRead (c : NonceCall ω) : Except String (Reading (NonceKept ω) NonceAnswer) := do
  let reading ← nonceReading X s c.cycleId c.request
  match reading with
  | .answer r => return .answer r
  | .keep write => return .keep ⟨c.cycleId, write⟩

omit s in
/-- What a reservation does to the global key. -/
def reserveOperations (reservation : WalletNonceReservation) :
    Option WalletNonceReservation → List (KeyOperation WalletNonceReservation)
  | none => [.reserve X.key reservation]
  | some existing => if existing = reservation then [] else [.replace X.key existing reservation]

omit s in
/-- The event and the operations of an append, and its answer. Writers of other families append
what replays. -/
def nonceAppend (state : NonceState ω) : NonceAppend ω →
    Except String (NonceEvent ω × List (KeyOperation WalletNonceReservation) × NonceAnswer)
  | .reserve reservation existing now => do
    assertNonceAllowed (payoutRetryMayUseHeldCycle X state.life) state.life.terminalState
      "reserveWalletNonce"
    throwIf (state.reservation.any fun latest => blocks latest reservation now)
      "cycle-repository reserveWalletNonce: reservation changed while acquiring"
    return (.walletNonceReserved reservation, reserveOperations X reservation existing,
      .reserved reservation)
  | .release current existing => do
    assertNonceAllowed (payoutRetryMayReleaseHeldCycle X state.life) state.life.terminalState
      "releaseWalletNonce"
    throwIf (state.reservation ≠ some current)
      "cycle-repository releaseWalletNonce: reservation changed while releasing"
    return (.walletNonceReleased { current with state := .released },
      if existing = none then [] else [.release X.key current], .released)
  | .record e => do
    let _ ← state.life.apply X.others e
    return (.other e, [], .recorded)

/-- `#append`: the index first, then the journal. -/
def nonceAppends (cycleId : Text) (appended : NonceAppend ω) :
    Except String (List (NonceStore ω) × NonceStore ω × NonceAnswer) := do
  let journal := journalOf s.journals cycleId
  let state ← nonceReplay X cycleId journal
  let (e, operations, answer) ← nonceAppend X state appended
  throwIf (¬ X.fits journal e) "journal limit exceeded"
  let index ← KeyOperation.performAll s.index operations
  return ([⟨s.journals, index, s.clock⟩], ⟨appendTo s.journals cycleId [e], index, s.clock⟩, answer)

/-- `releaseGlobalKey` of the store. -/
def releaseGlobalKey (expected : WalletNonceReservation) :
    Except String (List (NonceStore ω) × NonceStore ω × NonceAnswer) :=
  match s.index.find X.key with
  | none => .ok ([], s, .released)
  | some existing => do
    throwIf (existing ≠ expected) "durable global reservation key is owned by different value"
    return ([], ⟨s.journals, s.index.erase X.key, s.clock⟩, .released)

def nonceWrites (p : NonceKept ω) :
    Except String (List (NonceStore ω) × NonceStore ω × NonceAnswer) :=
  match p.write with
  | .append appended => nonceAppends X s p.cycleId appended
  | .releaseGlobalKey expected => releaseGlobalKey X s expected

/-- Without a call the clock moves on. -/
def nonceService : Service (NonceStore ω) (NonceCall ω) (NonceKept ω) NonceAnswer Nat where
  read s c := nonceRead X s c
  writes s p := nonceWrites X s p
  drift s elapsed := { s with clock := s.clock + elapsed }

end Calls

/-! ## The table of leases -/

section Table

variable {ω : Type} (X : NonceContext ω)

/-- A reservation is a lease of its cycle. -/
def nonceTerms : LeaseTerms Text WalletNonceReservation where
  owner := WalletNonceReservation.cycleId
  start := WalletNonceReservation.leaseAcquiredAtMs
  stop := WalletNonceReservation.leaseExpiresAtMs

/-- What the journal of a cycle holds. -/
def heldReservation (journals : Record (List (NonceEvent ω))) (cycleId : Text) :
    Option WalletNonceReservation :=
  match nonceReplay X cycleId (journalOf journals cycleId) with
  | .ok state => state.held
  | .error _ => none

def NonceStore.table (s : NonceStore ω) : LeaseTable Text WalletNonceReservation where
  held := heldReservation X s.journals
  indexed := s.index.find X.key
  clock := s.clock

def NonceWrite.plan : NonceWrite ω → LeasePlan WalletNonceReservation
  | .append (.reserve reservation existing now) => .reserve reservation existing now
  | .append (.release current existing) => .release current (existing ≠ none)
  | .append (.record _) => .idle
  | .releaseGlobalKey expected => .clear expected

/-- What `assertWalletNonceReservation` asks. -/
structure WalletNonceReservation.IsValid (r : WalletNonceReservation) : Prop where
  named : r.cycleId.length ≠ 0 ∧ r.cycleId.length ≤ 512
  fenced : isFencingToken r.fencingToken
  safe : (r.leaseAcquiredAtMs : Int) ≤ maxSafeInteger ∧ (r.leaseExpiresAtMs : Int) ≤ maxSafeInteger
  runs : r.leaseAcquiredAtMs < r.leaseExpiresAtMs

theorem assertWalletNonceReservation_ok {r : WalletNonceReservation} {label : String} {u : Unit} :
    assertWalletNonceReservation r label = .ok u ↔ r.IsValid := by
  unfold assertWalletNonceReservation assertNonEmptyString assertFencingToken
  simp only [bind_eq_ok, revertIf_eq_ok, not_or, not_lt, not_le, not_not]
  constructor
  · rintro ⟨-, hnamed, -, hfenced, -, hacquired, hexpires, hruns⟩
    exact ⟨⟨hnamed.1, hnamed.2⟩, hfenced, ⟨hacquired, hexpires⟩, hruns⟩
  · intro h
    exact ⟨(), h.named, (), h.fenced, (), h.safe.1, h.safe.2, h.runs⟩

theorem isOk_assertWalletNonceReservation {r : WalletNonceReservation} {label : String} :
    (assertWalletNonceReservation r label).isOk ↔ r.IsValid := by
  have hok : assertWalletNonceReservation r label = .ok () ↔ r.IsValid :=
    assertWalletNonceReservation_ok
  rw [← hok]
  cases assertWalletNonceReservation r label with
  | error message => simp [Except.isOk, Except.toBool]
  | ok u => simp [Except.isOk, Except.toBool]

/-! ### Journals -/

/-- What a state says that a journal replays to. -/
structure NonceState.Agrees (cycleId : Text) (s : NonceState ω) : Prop where
  own : ∀ r, s.held = some r → r.cycleId = cycleId ∧ r.state = .held ∧ r.IsValid
  completed : s.life.completed → s.life.terminalState = some .completed

variable {X} {cycleId : Text} {s t : NonceState ω} {r : WalletNonceReservation}

theorem NonceState.held_eq_some : s.held = some r ↔ s.reservation = some r ∧ r.state = .held := by
  unfold NonceState.held
  rw [Option.filter_eq_some_iff, decide_eq_true_eq]

/-- What an event does to the state. -/
theorem nonceApply_ok {e : NonceEvent ω} (h : s.apply X cycleId e = .ok t) :
    (∃ r, e = .walletNonceReserved r ∧ r.IsValid ∧ r.cycleId = cycleId ∧ r.state = .held ∧
        t = { s with reservation := some r }) ∨
      (∃ r, e = .walletNonceReleased r ∧ r.state = .released ∧
        t = { s with reservation := some r }) ∨
      ∃ other life, e = .other other ∧ s.life.apply X.others other = .ok life ∧
        t = { s with life := life } := by
  cases e with
  | walletNonceReserved r =>
    obtain ⟨_, -, h⟩ := bind_eq_ok.mp h
    obtain ⟨_, hvalid, h⟩ := bind_eq_ok.mp h
    obtain ⟨_, hown, h⟩ := bind_eq_ok.mp h
    obtain ⟨_, -, h⟩ := bind_eq_ok.mp h
    rw [revertIf_eq_ok, not_or, not_not, not_not] at hown
    exact Or.inl ⟨r, rfl, assertWalletNonceReservation_ok.mp hvalid, hown.1, hown.2,
      (pure_eq_ok.mp h).symm⟩
  | walletNonceReleased r =>
    obtain ⟨_, -, h⟩ := bind_eq_ok.mp h
    obtain ⟨_, -, h⟩ := bind_eq_ok.mp h
    obtain ⟨previous, -, h⟩ := bind_eq_ok.mp h
    obtain ⟨_, hown, h⟩ := bind_eq_ok.mp h
    rw [revertIf_eq_ok] at hown
    refine Or.inr (Or.inl ⟨r, rfl, ?_, (pure_eq_ok.mp h).symm⟩)
    by_contra hstate
    exact hown (by tauto)
  | other e =>
    obtain ⟨life, hlife, h⟩ := bind_eq_ok.mp h
    exact Or.inr (Or.inr ⟨e, life, rfl, hlife, (pure_eq_ok.mp h).symm⟩)

theorem nonceAgrees_of_replay {journal : List (NonceEvent ω)}
    (h : nonceReplay X cycleId journal = .ok s) : s.Agrees cycleId := by
  obtain ⟨_, -, h⟩ := bind_eq_ok.mp h
  refine replay_invariant (I := fun _ s => NonceState.Agrees cycleId s) ?_ ?_ h
  · constructor
    · intro r hr
      cases hr
    · intro hdone
      cases hdone
  · rintro - s e t hs happly
    rcases nonceApply_ok happly with ⟨r, -, hvalid, hown, hheld, rfl⟩ | ⟨r, -, hreleased, rfl⟩ |
      ⟨other, life, -, hlife, rfl⟩
    · refine ⟨?_, hs.completed⟩
      intro r' hr'
      obtain ⟨hsame, -⟩ := NonceState.held_eq_some.mp hr'
      cases hsame
      exact ⟨hown, hheld, hvalid⟩
    · refine ⟨?_, hs.completed⟩
      intro r' hr'
      obtain ⟨hsame, hheld⟩ := NonceState.held_eq_some.mp hr'
      cases hsame
      rw [hreleased] at hheld
      cases hheld
    · exact ⟨hs.own, CycleLife.completed_of_apply hs.completed hlife⟩

theorem nonceReplay_append {journal : List (NonceEvent ω)} {e : NonceEvent ω}
    (h : nonceReplay X cycleId journal = .ok s) (happly : s.apply X cycleId e = .ok t) :
    nonceReplay X cycleId (journal ++ [e]) = .ok t := by
  obtain ⟨_, hname, h⟩ := bind_eq_ok.mp h
  exact bind_eq_ok.mpr ⟨(), hname, replay_concat.mpr ⟨s, h, happly⟩⟩

theorem heldReservation_of_replay {journals : Record (List (NonceEvent ω))}
    (h : nonceReplay X cycleId (journalOf journals cycleId) = .ok s) :
    heldReservation X journals cycleId = s.held := by
  unfold heldReservation
  rw [h]

/-- Nothing is held before anything is written. -/
theorem heldReservation_empty : heldReservation X .empty cycleId = none := by
  unfold heldReservation nonceReplay
  rw [journalOf_empty]
  by_cases hname : isIdentifier cycleId
  · rw [throwIf_of_not (not_not.mpr hname)]
    rfl
  · rw [show throwIf (¬ isIdentifier cycleId) "cycleId is invalid" = .error _ from if_pos hname]
    rfl

/-- What the cycles hold after an append. -/
theorem heldReservation_appendTo {journals : Record (List (NonceEvent ω))} {e : NonceEvent ω}
    (h : nonceReplay X cycleId (journalOf journals cycleId) = .ok s)
    (happly : s.apply X cycleId e = .ok t) :
    heldReservation X (appendTo journals cycleId [e])
      = Function.update (heldReservation X journals) cycleId t.held := by
  funext other
  by_cases hother : other = cycleId
  · subst hother
    rw [Function.update_self]
    apply heldReservation_of_replay
    rw [journalOf_appendTo, if_pos rfl]
    exact nonceReplay_append h happly
  · rw [Function.update_of_ne hother]
    unfold heldReservation
    rw [journalOf_appendTo, if_neg hother]

end Table

/-! ## Writes as lease plans -/

section Simulation

variable {ω : Type} (X : NonceContext ω)

/-- All journals replay, and the global key has a reservation or nothing. -/
structure NonceStore.Sound (s : NonceStore ω) : Prop where
  replays : ∀ entry ∈ s.journals.entries, ∃ state, nonceReplay X entry.1 entry.2 = .ok state
  indexed : ∀ r, s.index.find X.key = some r → r.IsValid ∧ r.state = .held

/-- What a write carries is a reservation of its cycle. -/
def NonceKept.Formed (p : NonceKept ω) : Prop :=
  ∀ r, p.write.plan.lease = some r → r.IsValid ∧ r.state = .held ∧ r.cycleId = p.cycleId

variable {X} {s t : NonceStore ω} {cycleId : Text}

theorem NonceStore.sound_empty : (NonceStore.empty : NonceStore ω).Sound X where
  replays _ hentry := absurd hentry List.not_mem_nil
  indexed r hr := by
    cases hr

theorem NonceStore.Sound.owned (_ : s.Sound X) : (s.table X).Owned nonceTerms := by
  intro cycleId r hr
  change heldReservation X s.journals cycleId = some r at hr
  unfold heldReservation at hr
  split at hr
  · rename_i state hreplay
    exact ((nonceAgrees_of_replay hreplay).own r hr).1
  · cases hr

/-- An append that replays leaves journals that replay. -/
theorem NonceStore.Sound.appended (h : s.Sound X) {state next : NonceState ω} {e : NonceEvent ω}
    (hreplay : nonceReplay X cycleId (journalOf s.journals cycleId) = .ok state)
    (happly : state.apply X cycleId e = .ok next) :
    ∀ entry ∈ (appendTo s.journals cycleId [e]).entries,
      ∃ state, nonceReplay X entry.1 entry.2 = .ok state := by
  rintro ⟨name, journal⟩ hentry
  rw [Record.mem_iff_find] at hentry
  unfold appendTo at hentry
  rw [Record.find_set] at hentry
  by_cases hname : name = cycleId
  · rw [if_pos hname, Option.some.injEq] at hentry
    subst hname
    rw [← hentry]
    exact ⟨next, nonceReplay_append hreplay happly⟩
  · rw [if_neg hname] at hentry
    exact h.replays _ (Record.mem_of_find hentry)

theorem assertNonceAllowed_ok {mayUse : Bool} {terminalState : Option CycleTerminalState}
    {operation : String} {u : Unit} :
    assertNonceAllowed mayUse terminalState operation = .ok u ↔
      mayUse = true ∨ terminalState = none := by
  unfold assertNonceAllowed
  cases mayUse <;> simp

/-- A reservation or a release may still be recorded in a cycle that awaits its owner. -/
theorem NonceState.Agrees.allowed {state : NonceState ω} (h : state.Agrees cycleId)
    (hallowed : state.life.terminalState = some .heldOwnerDecision ∨
      state.life.terminalState = none) : state.life.assertAllowed true false = .ok () := by
  unfold CycleLife.assertAllowed
  rw [assertRecordAllowed_ok]
  rcases hallowed with hheld | hnone
  · refine Or.inr ⟨rfl, ?_⟩
    intro hdone
    have hterminal := h.completed hdone
    rw [hheld] at hterminal
    cases hterminal
  · exact Or.inl hnone

theorem blocks_eq_false {current r : WalletNonceReservation} {now : Nat} (hr : r.state = .held) :
    blocks current r now = false ↔ (current.state = .held → current = r ∨
      (current.leaseExpiresAtMs ≤ now ∧ current.leaseExpiresAtMs ≤ r.leaseAcquiredAtMs)) := by
  unfold blocks walletNonceReservationExpired validWalletNonceTakeover
  cases hstate : current.state <;> by_cases hsame : current = r <;> simp [hr, hsame]

theorem not_any_blocks {state : NonceState ω} {r : WalletNonceReservation} {now : Nat}
    (hr : r.state = .held) :
    ¬ (state.reservation.any fun current => blocks current r now) ↔
      ∀ current, state.held = some current → current = r ∨
        (current.leaseExpiresAtMs ≤ now ∧ current.leaseExpiresAtMs ≤ r.leaseAcquiredAtMs) := by
  simp only [NonceState.held_eq_some]
  cases hcurrent : state.reservation with
  | none => simp
  | some current =>
    rw [Option.any_some, Bool.not_eq_true, blocks_eq_false hr]
    simp only [Option.some.injEq]
    constructor
    · rintro h _ ⟨rfl, hheld⟩
      exact h hheld
    · intro h hheld
      exact h current ⟨rfl, hheld⟩

/-- A reservation that does not conflict replays. -/
theorem replayReserved_ok {state : NonceState ω} {r : WalletNonceReservation}
    (hallowed : state.life.assertAllowed true false = .ok ()) (hvalid : r.IsValid)
    (hheld : r.state = .held) (hown : r.cycleId = cycleId)
    (hprevious : ∀ current, state.held = some current → current = r ∨
      current.leaseExpiresAtMs ≤ r.leaseAcquiredAtMs) :
    state.apply X cycleId (.walletNonceReserved r) = .ok { state with reservation := some r } := by
  have hconflict : ¬ (state.reservation.any fun previous => previous.state = .held &&
      previous ≠ r && !validWalletNonceTakeover previous r) := by
    cases hcurrent : state.reservation with
    | none => simp
    | some current =>
      have hprevious := hprevious current
      rw [NonceState.held_eq_some] at hprevious
      unfold validWalletNonceTakeover
      cases hstate : current.state <;> by_cases hsame : current = r <;> simp_all
  change state.replayReserved cycleId r = _
  unfold NonceState.replayReserved
  rw [hallowed, (assertWalletNonceReservation_ok (u := ())).mpr hvalid,
    throwIf_of_not (by simp [hown, hheld]), throwIf_of_not hconflict]
  rfl

/-- A release of what is held replays. -/
theorem replayReleased_ok {state : NonceState ω} {r : WalletNonceReservation}
    (hallowed : state.life.assertAllowed true false = .ok ()) (hcurrent : state.held = some r)
    (hvalid : r.IsValid) (hown : r.cycleId = cycleId) :
    state.apply X cycleId (.walletNonceReleased { r with state := .released })
      = .ok { state with reservation := some { r with state := .released } } := by
  obtain ⟨hreservation, hheld⟩ := NonceState.held_eq_some.mp hcurrent
  have hreleased : ({ r with state := .released } : WalletNonceReservation).IsValid :=
    ⟨hvalid.named, hvalid.fenced, hvalid.safe, hvalid.runs⟩
  change state.replayReleased cycleId _ = _
  unfold NonceState.replayReleased
  rw [hallowed, (assertWalletNonceReservation_ok (u := ())).mpr hreleased, hreservation]
  simp [required, hheld, hown, throwIf]
  rfl

/-! ### What a write does -/

theorem nonceAppends_ok {a : NonceAppend ω} {through : List (NonceStore ω)} {answer : NonceAnswer} :
    nonceAppends X s cycleId a = .ok (through, t, answer) ↔ ∃ state e operations index,
      nonceReplay X cycleId (journalOf s.journals cycleId) = .ok state ∧
      nonceAppend X state a = .ok (e, operations, answer) ∧
      X.fits (journalOf s.journals cycleId) e ∧
      KeyOperation.performAll s.index operations = .ok index ∧
      through = [⟨s.journals, index, s.clock⟩] ∧
      t = ⟨appendTo s.journals cycleId [e], index, s.clock⟩ := by
  unfold nonceAppends
  simp only [bind_eq_ok, revertIf_eq_ok, pure_eq_ok, Prod.exists, Prod.mk.injEq, not_not]
  constructor
  · rintro ⟨state, hreplay, e, operations, answer, happend, -, hfits, index, hindex, rfl, rfl, rfl⟩
    exact ⟨state, e, operations, index, hreplay, happend, hfits, hindex, rfl, rfl⟩
  · rintro ⟨state, e, operations, index, hreplay, happend, hfits, hindex, rfl, rfl⟩
    exact ⟨state, hreplay, e, operations, answer, happend, (), hfits, index, hindex, rfl, rfl, rfl⟩

theorem reserveOperations_ok {r : WalletNonceReservation} {existing : Option WalletNonceReservation}
    {index after : Record WalletNonceReservation}
    (h : KeyOperation.performAll index (reserveOperations X r existing) = .ok after) :
    (existing = some r ∨ index.find X.key = existing ∨
        (existing = none ∧ index.find X.key = some r)) ∧
      after.find X.key = if existing = some r then index.find X.key else some r := by
  obtain ⟨hchecks, rfl⟩ := performAll_ok.mp h
  cases existing with
  | none =>
    rw [if_neg (by simp)]
    have hcheck := check_reserve.mp (hchecks _ List.mem_cons_self)
    refine ⟨?_, by simp [reserveOperations, KeyOperation.perform]⟩
    rcases hcheck with hnone | hsame
    · exact Or.inr (Or.inl hnone)
    · exact Or.inr (Or.inr ⟨rfl, hsame⟩)
  | some existing =>
    by_cases hsame : existing = r
    · subst hsame
      simp [reserveOperations]
    · have hoperations : reserveOperations X r (some existing) = [.replace X.key existing r] :=
        if_neg hsame
      rw [hoperations] at hchecks ⊢
      rw [if_neg (by simpa using hsame)]
      have hcheck := check_replace.mp (hchecks _ List.mem_cons_self)
      exact ⟨Or.inr (Or.inl hcheck), by simp [KeyOperation.perform]⟩

theorem releaseOperations_ok {r : WalletNonceReservation} {existing : Option WalletNonceReservation}
    {index after : Record WalletNonceReservation}
    (h : KeyOperation.performAll index (if existing = none then [] else [.release X.key r])
      = .ok after) :
    (existing ≠ none → index.find X.key = some r) ∧
      after.find X.key = if existing ≠ none then none else index.find X.key := by
  obtain ⟨hchecks, rfl⟩ := performAll_ok.mp h
  cases existing with
  | none => simp
  | some existing =>
    have hcheck := check_release.mp (hchecks _ List.mem_cons_self)
    exact ⟨fun _ => hcheck, by simp [KeyOperation.perform]⟩

/-- An append is the plan of the write, and its first write is the index. -/
structure Carried (X : NonceContext ω) (s : NonceStore ω) (p : NonceKept ω)
    (through : List (NonceStore ω)) (t : NonceStore ω) : Prop where
  permits : (s.table X).Permits nonceTerms p.cycleId p.write.plan
  last : t.table X = (s.table X).after p.cycleId p.write.plan ∧ t.Sound X
  halfway : ∀ u ∈ through,
    u.table X = (s.table X).halfway p.cycleId p.write.plan ∧ u.Sound X
  grows : ∀ c, journalOf s.journals c <+: journalOf t.journals c
  journals : ∀ u ∈ through, u.journals = s.journals
  released : ∀ r indexed, p.write.plan = .release r indexed → t.journals
    = appendTo s.journals p.cycleId [.walletNonceReleased { r with state := .released }]

/-- The parts that all appends share: the event replays, and the index is that of the plan. -/
theorem carried_append {a : NonceAppend ω} {state next : NonceState ω} {e : NonceEvent ω}
    {index : Record WalletNonceReservation} (hs : s.Sound X)
    (hreplay : nonceReplay X cycleId (journalOf s.journals cycleId) = .ok state)
    (happly : state.apply X cycleId e = .ok next)
    (hpermits : (s.table X).Permits nonceTerms cycleId (NonceWrite.append a).plan)
    (hheld : Function.update (heldReservation X s.journals) cycleId next.held
      = ((s.table X).after cycleId (NonceWrite.append a).plan).held)
    (hindex : index.find X.key = ((s.table X).after cycleId (NonceWrite.append a).plan).indexed)
    (hvalid : ∀ r, index.find X.key = some r → r.IsValid ∧ r.state = .held)
    (hreleased : ∀ r indexed, (NonceWrite.append a).plan = .release r indexed →
      e = .walletNonceReleased { r with state := .released }) :
    Carried X s ⟨cycleId, .append a⟩ [⟨s.journals, index, s.clock⟩]
      ⟨appendTo s.journals cycleId [e], index, s.clock⟩ where
  permits := hpermits
  last := by
    refine ⟨?_, hs.appended hreplay happly, hvalid⟩
    apply LeaseTable.ext
    · exact (heldReservation_appendTo hreplay happly).trans hheld
    · exact hindex
    · exact (LeaseTable.clock_after (T := s.table X)).symm
  halfway := by
    intro u hu
    rw [List.mem_singleton.mp hu]
    refine ⟨?_, hs.replays, hvalid⟩
    apply LeaseTable.ext
    · rfl
    · exact hindex
    · rfl
  grows := by
    intro c
    rw [journalOf_appendTo]
    split
    · rename_i hc
      rw [hc]
      exact List.prefix_append _ _
    · exact List.prefix_rfl
  journals := by
    intro u hu
    rw [List.mem_singleton.mp hu]
  released := by
    intro r indexed hplan
    rw [hreleased r indexed hplan]

theorem carried_reserve {r : WalletNonceReservation} {existing : Option WalletNonceReservation}
    {now : Nat} {through : List (NonceStore ω)} {answer : NonceAnswer} (hs : s.Sound X)
    (hvalid : r.IsValid) (hheld : r.state = .held) (hown : r.cycleId = cycleId)
    (h : nonceAppends X s cycleId (.reserve r existing now) = .ok (through, t, answer)) :
    Carried X s ⟨cycleId, .append (.reserve r existing now)⟩ through t := by
  obtain ⟨state, e, operations, index, hreplay, happend, -, hindex, rfl, rfl⟩ := nonceAppends_ok.mp h
  obtain ⟨_, hallowed, happend⟩ := bind_eq_ok.mp happend
  obtain ⟨_, hblocks, happend⟩ := bind_eq_ok.mp happend
  rw [pure_eq_ok, Prod.mk.injEq, Prod.mk.injEq] at happend
  obtain ⟨rfl, rfl, -⟩ := happend
  rw [revertIf_eq_ok, not_any_blocks hheld] at hblocks
  obtain ⟨hexpected, hafter⟩ := reserveOperations_ok hindex
  have hagrees := nonceAgrees_of_replay hreplay
  have hterminal : state.life.terminalState = some .heldOwnerDecision ∨
      state.life.terminalState = none := by
    rcases assertNonceAllowed_ok.mp hallowed with hmay | hnone
    · simp only [payoutRetryMayUseHeldCycle, Bool.and_eq_true, decide_eq_true_eq] at hmay
      exact Or.inl hmay.1
    · exact Or.inr hnone
  have happly := replayReserved_ok (X := X) (hagrees.allowed hterminal) hvalid hheld hown
    fun current hcurrent => (hblocks current hcurrent).imp_right And.right
  have hnext : ({ state with reservation := some r } : NonceState ω).held = some r :=
    NonceState.held_eq_some.mpr ⟨rfl, hheld⟩
  refine carried_append hs hreplay happly ⟨?_, hexpected⟩ ?_ hafter ?_ ?_
  · intro current hcurrent
    rw [show (s.table X).held cycleId = state.held from heldReservation_of_replay hreplay] at hcurrent
    exact hblocks current hcurrent
  · rw [hnext]
    rfl
  · intro r' hr'
    rw [hafter] at hr'
    by_cases hfound : existing = some r
    · rw [if_pos hfound] at hr'
      exact hs.indexed r' hr'
    · rw [if_neg hfound, Option.some.injEq] at hr'
      subst hr'
      exact ⟨hvalid, hheld⟩
  · intro r' indexed hplan
    cases hplan

theorem carried_release {r : WalletNonceReservation} {existing : Option WalletNonceReservation}
    {through : List (NonceStore ω)} {answer : NonceAnswer} (hs : s.Sound X)
    (hvalid : r.IsValid) (hheld : r.state = .held) (hown : r.cycleId = cycleId)
    (h : nonceAppends X s cycleId (.release r existing) = .ok (through, t, answer)) :
    Carried X s ⟨cycleId, .append (.release r existing)⟩ through t := by
  obtain ⟨state, e, operations, index, hreplay, happend, -, hindex, rfl, rfl⟩ := nonceAppends_ok.mp h
  obtain ⟨_, hallowed, happend⟩ := bind_eq_ok.mp happend
  obtain ⟨_, hsame, happend⟩ := bind_eq_ok.mp happend
  rw [pure_eq_ok, Prod.mk.injEq, Prod.mk.injEq] at happend
  obtain ⟨rfl, rfl, -⟩ := happend
  rw [revertIf_eq_ok, ne_eq, not_not] at hsame
  obtain ⟨hexpected, hafter⟩ := releaseOperations_ok hindex
  have hagrees := nonceAgrees_of_replay hreplay
  have hcurrent : state.held = some r := NonceState.held_eq_some.mpr ⟨hsame, hheld⟩
  have hterminal : state.life.terminalState = some .heldOwnerDecision ∨
      state.life.terminalState = none := by
    rcases assertNonceAllowed_ok.mp hallowed with hmay | hnone
    · simp only [payoutRetryMayReleaseHeldCycle, Bool.and_eq_true, decide_eq_true_eq] at hmay
      exact Or.inl hmay.1
    · exact Or.inr hnone
  have happly := replayReleased_ok (X := X) (hagrees.allowed hterminal) hcurrent hvalid hown
  refine carried_append hs hreplay happly ⟨?_, ?_⟩ ?_ ?_ ?_ ?_
  · exact (heldReservation_of_replay hreplay).trans hcurrent
  · intro hexisting
    exact hexpected (of_decide_eq_true hexisting)
  · have hnext : ({ state with reservation := some { r with state := .released } } :
        NonceState ω).held = none := by
      unfold NonceState.held
      rfl
    rw [hnext]
    rfl
  · rw [hafter]
    simp only [NonceWrite.plan, LeaseTable.after, NonceStore.table, decide_eq_true_eq]
  · intro r' hr'
    rw [hafter] at hr'
    split at hr'
    · cases hr'
    · exact hs.indexed r' hr'
  · intro r' indexed hplan
    cases hplan
    rfl

theorem carried_record {e : CycleEvent ω} {through : List (NonceStore ω)} {answer : NonceAnswer}
    (hs : s.Sound X) (h : nonceAppends X s cycleId (.record e) = .ok (through, t, answer)) :
    Carried X s ⟨cycleId, .append (.record e)⟩ through t := by
  obtain ⟨state, e, operations, index, hreplay, happend, -, hindex, rfl, rfl⟩ := nonceAppends_ok.mp h
  obtain ⟨life, hlife, happend⟩ := bind_eq_ok.mp happend
  rw [pure_eq_ok, Prod.mk.injEq, Prod.mk.injEq] at happend
  obtain ⟨rfl, rfl, -⟩ := happend
  obtain ⟨-, rfl⟩ := performAll_ok.mp hindex
  have happly : state.apply X cycleId (.other _) = .ok { state with life := life } :=
    bind_eq_ok.mpr ⟨life, hlife, rfl⟩
  refine carried_append hs hreplay happly trivial ?_ rfl hs.indexed ?_
  · funext other
    by_cases hother : other = cycleId
    · subst hother
      rw [Function.update_self]
      exact (heldReservation_of_replay hreplay).symm
    · rw [Function.update_of_ne hother]
      rfl
  · intro r' indexed hplan
    cases hplan

theorem carried_clear {r : WalletNonceReservation} {through : List (NonceStore ω)}
    {answer : NonceAnswer} (hs : s.Sound X)
    (h : releaseGlobalKey X s r = .ok (through, t, answer)) :
    Carried X s ⟨cycleId, .releaseGlobalKey r⟩ through t := by
  unfold releaseGlobalKey at h
  cases hexisting : s.index.find X.key with
  | none =>
    rw [hexisting, Except.ok.injEq, Prod.mk.injEq, Prod.mk.injEq] at h
    obtain ⟨rfl, rfl, -⟩ := h
    refine ⟨Or.inl hexisting, ⟨?_, hs⟩, fun u hu => absurd hu List.not_mem_nil,
      fun _ => List.prefix_rfl, fun u hu => absurd hu List.not_mem_nil, ?_⟩
    · exact LeaseTable.ext rfl hexisting rfl
    · intro r' indexed hplan
      cases hplan
  | some existing =>
    rw [hexisting] at h
    obtain ⟨_, hsame, h⟩ := bind_eq_ok.mp h
    rw [revertIf_eq_ok, ne_eq, not_not] at hsame
    rw [pure_eq_ok, Prod.mk.injEq, Prod.mk.injEq] at h
    obtain ⟨rfl, rfl, -⟩ := h
    subst hsame
    have herased : (s.index.erase X.key).find X.key = none := by simp
    refine ⟨Or.inr hexisting, ⟨?_, hs.replays, ?_⟩, fun u hu => absurd hu List.not_mem_nil,
      fun _ => List.prefix_rfl, fun u hu => absurd hu List.not_mem_nil, ?_⟩
    · exact LeaseTable.ext rfl herased rfl
    · intro r' hr'
      change (s.index.erase X.key).find X.key = some r' at hr'
      rw [herased] at hr'
      cases hr'
    · intro r' indexed hplan
      cases hplan

/-- The writes carry out the plan that the call keeps. -/
theorem nonceWrites_carried {p : NonceKept ω} {through : List (NonceStore ω)} {answer : NonceAnswer}
    (hs : s.Sound X) (hp : p.Formed) (h : nonceWrites X s p = .ok (through, t, answer)) :
    Carried X s p through t := by
  obtain ⟨cycleId, write⟩ := p
  cases write with
  | append a =>
    cases a with
    | reserve r existing now =>
      obtain ⟨hvalid, hheld, hown⟩ := hp r rfl
      exact carried_reserve hs hvalid hheld hown h
    | release r existing =>
      obtain ⟨hvalid, hheld, hown⟩ := hp r rfl
      exact carried_release hs hvalid hheld hown h
    | record e => exact carried_record hs h
  | releaseGlobalKey r => exact carried_clear hs h

end Simulation

/-! ## Readings as lease plans -/

section Readings

variable {ω : Type} {X : NonceContext ω} {s : NonceStore ω} {cycleId : Text}

/-- A cycle that holds a reservation is known. -/
theorem known_of_held {known : List (Text × NonceState ω)} {r : WalletNonceReservation}
    (hknown : knownNonceStates X s = .ok known) (hheld : heldReservation X s.journals cycleId = some r) :
    ∃ state, (cycleId, state) ∈ known ∧ state.held = some r := by
  unfold heldReservation at hheld
  split at hheld
  · rename_i state hreplay
    have hwritten : s.journals.find cycleId = some (journalOf s.journals cycleId) := by
      unfold journalOf at hreplay ⊢
      cases hfind : s.journals.find cycleId with
      | some journal => rfl
      | none =>
        rw [hfind] at hreplay
        obtain ⟨_, -, hempty⟩ := bind_eq_ok.mp hreplay
        rw [← Except.ok.inj hempty] at hheld
        cases hheld
    obtain ⟨candidate, hcandidate, hfound⟩ :=
      exists_of_mapM_ok hknown _ (Record.mem_of_find hwritten)
    dsimp only at hfound
    rw [hreplay, ok_bind, pure_eq_ok] at hfound
    exact ⟨state, hfound ▸ hcandidate, hheld⟩
  · cases hheld

/-- Elsewhere everything has expired. -/
theorem assertNotHeldElsewhere_ok {now : Nat} {operation : String} {u : Unit}
    (h : assertNotHeldElsewhere X s cycleId now operation = .ok u) {other : Text}
    {r : WalletNonceReservation} (hother : other ≠ cycleId)
    (hheld : heldReservation X s.journals other = some r) : r.leaseExpiresAtMs ≤ now := by
  obtain ⟨known, hknown, h⟩ := bind_eq_ok.mp h
  obtain ⟨state, hstate, hr⟩ := known_of_held hknown hheld
  split at h
  · cases h
  · rename_i hnone
    have hcandidate := List.find?_eq_none.mp hnone _ hstate
    simpa [hother, hr, walletNonceReservationExpired] using hcandidate

theorem assertGlobalReservation_ok {existing : Option WalletNonceReservation}
    {r : WalletNonceReservation} {now : Nat} (h : assertGlobalReservation existing r now = .ok ()) :
    ∀ m, existing = some m →
      m = r ∨ (m.leaseExpiresAtMs ≤ now ∧ m.leaseExpiresAtMs ≤ r.leaseAcquiredAtMs) := by
  rintro m rfl
  unfold assertGlobalReservation at h
  dsimp only at h
  by_cases hsame : m = r
  · exact Or.inl hsame
  · right
    rw [if_neg hsame] at h
    obtain ⟨_, -, h⟩ := bind_eq_ok.mp h
    rw [revertIf_eq_ok, not_or, not_not, not_not] at h
    obtain ⟨hexpired, htakeover⟩ := h
    rw [walletNonceReservationExpired_iff] at hexpired
    simp only [validWalletNonceTakeover, Bool.and_eq_true, decide_eq_true_eq] at htakeover
    exact ⟨hexpired, htakeover.2⟩

/-- What a call knows of the leases when it keeps its write. -/
structure NonceKept.Ready (X : NonceContext ω) (s : NonceStore ω) (p : NonceKept ω) : Prop where
  formed : p.Formed
  planned : (s.table X).Planned nonceTerms p.cycleId p.write.plan

/-- The kept writes of reservations are ready, and no other lease runs. -/
theorem reserveWalletNonce_keep {value : WalletNonceInput} {write : NonceWrite ω}
    (h : reserveWalletNonce X s cycleId value = .ok (.keep write)) :
    NonceKept.Ready X s ⟨cycleId, write⟩ ∧
      (s.table X).Guarded nonceTerms cycleId write.plan := by
  obtain ⟨_, hvalid, h⟩ := bind_eq_ok.mp h
  obtain ⟨now, hnow, h⟩ := bind_eq_ok.mp h
  obtain ⟨_, -, h⟩ := bind_eq_ok.mp h
  obtain ⟨state, -, h⟩ := bind_eq_ok.mp h
  obtain ⟨_, -, h⟩ := bind_eq_ok.mp h
  obtain ⟨-, rfl⟩ := currentRepositoryTime_ok.mp hnow
  split at h
  · cases h
  · obtain ⟨_, -, h⟩ := bind_eq_ok.mp h
    obtain ⟨_, helsewhere, h⟩ := bind_eq_ok.mp h
    obtain ⟨_, hglobal, h⟩ := bind_eq_ok.mp h
    rw [pure_eq_ok, Reading.keep.injEq] at h
    subst h
    refine ⟨⟨?_, ?_⟩, ?_⟩
    · intro r hr
      cases hr
      exact ⟨assertWalletNonceReservation_ok.mp hvalid, rfl, rfl⟩
    · exact ⟨rfl, le_rfl, assertGlobalReservation_ok hglobal⟩
    · intro other m hother hruns
      exact absurd (assertNotHeldElsewhere_ok helsewhere hother hruns.1) (Nat.not_le.mpr hruns.2)

theorem releaseWalletNonce_keep {value : WalletNonceInput} {write : NonceWrite ω}
    (h : releaseWalletNonce X s cycleId value = .ok (.keep write)) :
    NonceKept.Ready X s ⟨cycleId, write⟩ ∧
      (s.table X).Guarded nonceTerms cycleId write.plan := by
  obtain ⟨_, hvalid, h⟩ := bind_eq_ok.mp h
  obtain ⟨state, -, h⟩ := bind_eq_ok.mp h
  obtain ⟨current, -, h⟩ := bind_eq_ok.mp h
  rw [assertWalletNonceReservation_ok] at hvalid
  split at h
  · obtain ⟨_, -, h⟩ := bind_eq_ok.mp h
    cases hstranded : s.index.find X.key with
    | none =>
      rw [hstranded] at h
      cases h
    | some stranded =>
      rw [hstranded] at h
      obtain ⟨_, -, h⟩ := bind_eq_ok.mp h
      rw [pure_eq_ok, Reading.keep.injEq] at h
      subst h
      refine ⟨⟨?_, rfl⟩, trivial⟩
      intro r hr
      cases hr
      exact ⟨hvalid, rfl, rfl⟩
  · obtain ⟨_, hsame, h⟩ := bind_eq_ok.mp h
    obtain ⟨_, -, h⟩ := bind_eq_ok.mp h
    rw [revertIf_eq_ok, ne_eq, not_not] at hsame
    rw [pure_eq_ok, Reading.keep.injEq] at h
    subst hsame
    subst h
    refine ⟨⟨?_, rfl⟩, trivial⟩
    intro r hr
    cases hr
    exact ⟨hvalid, rfl, rfl⟩

theorem nonceRead_keep {c : NonceCall ω} {p : NonceKept ω} (h : nonceRead X s c = .ok (.keep p)) :
    p.Ready X s ∧ (s.table X).Guarded nonceTerms p.cycleId p.write.plan := by
  obtain ⟨reading, hreading, h⟩ := bind_eq_ok.mp h
  cases reading with
  | answer r => cases h
  | keep write =>
    rw [pure_eq_ok, Reading.keep.injEq] at h
    subst h
    unfold nonceReading at hreading
    cases hrequest : c.request with
    | reserveWalletNonce value =>
      rw [hrequest] at hreading
      exact reserveWalletNonce_keep hreading
    | assertWalletNonce value =>
      rw [hrequest] at hreading
      simp only [assertWalletNonce, bind_eq_ok, pure_eq_ok, reduceCtorEq, and_false, exists_false]
        at hreading
    | releaseWalletNonce value =>
      rw [hrequest] at hreading
      exact releaseWalletNonce_keep hreading
    | append e =>
      rw [hrequest] at hreading
      cases hreading
      refine ⟨⟨?_, trivial⟩, trivial⟩
      intro r hr
      cases hr

/-- An assertion succeeds for a reservation that is held and runs, beside none that runs. -/
theorem assertWalletNonce_ok {value : WalletNonceInput} {reading : Reading (NonceWrite ω) NonceAnswer}
    (h : assertWalletNonce X s cycleId value = .ok reading) :
    (s.table X).Runs nonceTerms cycleId (value.reservation cycleId) ∧
      ∀ other m, other ≠ cycleId → ¬ (s.table X).Runs nonceTerms other m := by
  obtain ⟨_, -, h⟩ := bind_eq_ok.mp h
  obtain ⟨now, hnow, h⟩ := bind_eq_ok.mp h
  obtain ⟨_, hruns, h⟩ := bind_eq_ok.mp h
  obtain ⟨_, helsewhere, h⟩ := bind_eq_ok.mp h
  obtain ⟨state, hreplay, h⟩ := bind_eq_ok.mp h
  obtain ⟨current, hcurrent, h⟩ := bind_eq_ok.mp h
  obtain ⟨_, -, h⟩ := bind_eq_ok.mp h
  obtain ⟨_, hsame, -⟩ := bind_eq_ok.mp h
  obtain ⟨-, rfl⟩ := currentRepositoryTime_ok.mp hnow
  rw [revertIf_eq_ok, ne_eq, not_not] at hsame
  rw [required_eq_ok, hsame] at hcurrent
  rw [revertIf_eq_ok, walletNonceReservationExpired_iff, not_le] at hruns
  constructor
  · exact ⟨(heldReservation_of_replay hreplay).trans hcurrent, hruns⟩
  · intro other m hother hrunsOther
    exact absurd (assertNotHeldElsewhere_ok helsewhere hother hrunsOther.1)
      (Nat.not_le.mpr hrunsOther.2)

end Readings

/-! ## Every run -/

section Laws

variable {ω : Type} {X : NonceContext ω} {s t : NonceStore ω} {cycleId : Text}

theorem NonceKept.Ready.later {p : NonceKept ω} (h : p.Ready X s) (hlater : s.clock ≤ t.clock) :
    p.Ready X t where
  formed := h.formed
  planned := h.planned.later hlater

theorem Carried.clock {p : NonceKept ω} {through : List (NonceStore ω)}
    (h : Carried X s p through t) : t.clock = s.clock := by
  change (t.table X).clock = (s.table X).clock
  rw [h.last.1, LeaseTable.clock_after]

/-- What single calls keep true. -/
theorem nonce_upholds : (nonceService X).Upholds (fun s _ => s.Sound X) (fun s p => p.Ready X s)
    (fun _ _ => True) where
  answer _ _ _ _ hI _ := hI
  keep _ _ _ _ _ hread := (nonceRead_keep hread).1
  commit _ _ _ _ _ _ hI hK _ hwrites := (nonceWrites_carried hI hK.formed hwrites).last.2
  crash := by
    intro s answers p through t r hI hK _ hwrites u hu
    have hcarried := nonceWrites_carried hI hK.formed hwrites
    rcases List.mem_cons.mp hu with rfl | hu
    · exact hcarried.last.2
    · exact (hcarried.halfway u hu).2
  kept := by
    intro s answers p through t r hI hK _ hwrites q hq
    exact hq.later (nonceWrites_carried hI hK.formed hwrites).clock.ge
  drift _ _ elapsed hI := ⟨hI.replays, hI.indexed⟩
  drifted _ _ elapsed _ _ hq := hq.later (Nat.le_add_right _ elapsed)

/-- A reservation that found itself under the global key finds it there again, and a key is not
released for a reservation that its cycle holds again. -/
def NonceUndisturbed (X : NonceContext ω) (s : NonceStore ω) (p : NonceKept ω) : Prop :=
  (s.table X).Undisturbed p.cycleId p.write.plan

/-- What they keep true when no write is disturbed. -/
theorem nonce_upholds_undisturbed : (nonceService X).Upholds
    (fun s _ => s.Sound X ∧ (s.table X).Exclusive nonceTerms)
    (fun s p => p.Ready X s ∧ (s.table X).Guarded nonceTerms p.cycleId p.write.plan)
    (NonceUndisturbed X) where
  answer _ _ _ _ hI _ := hI
  keep _ _ _ _ _ hread := nonceRead_keep hread
  commit := by
    intro s answers p through t r hI hK hC hwrites
    have hcarried := nonceWrites_carried hI.1 hK.1.formed hwrites
    refine ⟨hcarried.last.2, ?_⟩
    rw [hcarried.last.1]
    exact hI.2.after hI.1.owned hK.1.planned hcarried.permits hK.2 hC
  crash := by
    intro s answers p through t r hI hK hC hwrites u hu
    have hcarried := nonceWrites_carried hI.1 hK.1.formed hwrites
    rcases List.mem_cons.mp hu with rfl | hu
    · refine ⟨hcarried.last.2, ?_⟩
      rw [hcarried.last.1]
      exact hI.2.after hI.1.owned hK.1.planned hcarried.permits hK.2 hC
    · refine ⟨(hcarried.halfway u hu).2, ?_⟩
      rw [(hcarried.halfway u hu).1]
      exact hI.2.halfway
  kept := by
    intro s answers p through t r hI hK hC hwrites q hq
    have hcarried := nonceWrites_carried hI.1 hK.1.formed hwrites
    refine ⟨hq.1.later hcarried.clock.ge, ?_⟩
    rw [hcarried.last.1]
    exact hq.2.after hI.1.owned hK.1.planned hcarried.permits hK.2 hC
  drift s _ elapsed hI := by
    refine ⟨⟨hI.1.replays, hI.1.indexed⟩, ?_⟩
    exact hI.2.later (T := s.table X) (Nat.le_add_right _ elapsed)
  drifted s _ elapsed q _ hq := by
    refine ⟨hq.1.later (Nat.le_add_right _ elapsed), ?_⟩
    exact hq.2.later (T := s.table X) (Nat.le_add_right _ elapsed)

/-! ### When the wallet may be reserved -/

/-- A reservation whose lease runs and began when all leases of the wallet had expired, for a
cycle that may go on. -/
structure Reservable (X : NonceContext ω) (s : NonceStore ω) (cycleId : Text)
    (value : WalletNonceInput) : Prop where
  valid : (value.reservation cycleId).IsValid
  named : isIdentifier cycleId
  timed : (s.clock : Int) ≤ maxSafeInteger
  runs : value.leaseAcquiredAtMs ≤ s.clock ∧ s.clock < value.leaseExpiresAtMs
  live : ∀ state, nonceReplay X cycleId (journalOf s.journals cycleId) = .ok state →
    payoutRetryMayUseHeldCycle X state.life = true ∨ state.life.terminalState = none
  held : ∀ c r, heldReservation X s.journals c = some r →
    r.leaseExpiresAtMs ≤ value.leaseAcquiredAtMs
  indexed : ∀ r, s.index.find X.key = some r → r.leaseExpiresAtMs ≤ value.leaseAcquiredAtMs
  fits : X.fits (journalOf s.journals cycleId) (.walletNonceReserved (value.reservation cycleId))

/-- The calls that reserve it go through, and then the reservation may be asserted. -/
def ReservesNonce (X : NonceContext ω) (s : NonceStore ω) (cycleId : Text) (value : WalletNonceInput) :
    Prop :=
  ∃ p through t, nonceRead X s ⟨cycleId, .reserveWalletNonce value⟩ = .ok (.keep p) ∧
    nonceWrites X s p = .ok (through, t, .reserved (value.reservation cycleId)) ∧
    assertWalletNonce X t cycleId value = .ok (.answer .asserted)

/-- A journal is empty or among the known ones. -/
theorem NonceStore.Sound.replay (h : s.Sound X) (hname : isIdentifier cycleId) :
    ∃ state, nonceReplay X cycleId (journalOf s.journals cycleId) = .ok state := by
  unfold journalOf
  cases hfind : s.journals.find cycleId with
  | some journal => exact h.replays _ (Record.mem_of_find hfind)
  | none =>
    refine ⟨.empty, ?_⟩
    unfold nonceReplay
    rw [throwIf_of_not (not_not.mpr hname)]
    rfl

/-- The scan of the other cycles passes when nothing runs there. -/
theorem assertNotHeldElsewhere_of_expired (h : s.Sound X) {now : Nat} {operation : String}
    (hexpired : ∀ c r, c ≠ cycleId → heldReservation X s.journals c = some r →
      r.leaseExpiresAtMs ≤ now) : assertNotHeldElsewhere X s cycleId now operation = .ok () := by
  have hreplays : ∀ entry ∈ s.journals.entries, ∃ known : Text × NonceState ω,
      (nonceReplay X entry.1 entry.2 >>= fun state => pure (entry.1, state)) = .ok known := by
    intro entry hentry
    obtain ⟨state, hreplay⟩ := h.replays entry hentry
    exact ⟨(entry.1, state), bind_eq_ok.mpr ⟨state, hreplay, rfl⟩⟩
  obtain ⟨known, hknown, hfound⟩ := mapM_ok_of_forall hreplays
  have hnone : known.find? (fun candidate => candidate.1 ≠ cycleId ∧
      candidate.2.held.any fun current => !walletNonceReservationExpired current now) = none := by
    rw [List.find?_eq_none]
    intro candidate hcandidate
    obtain ⟨entry, hentry, hgives⟩ := hfound candidate hcandidate
    obtain ⟨state, hreplay, hsame⟩ := bind_eq_ok.mp hgives
    rw [pure_eq_ok] at hsame
    subst hsame
    have hjournal : journalOf s.journals entry.1 = entry.2 := by
      unfold journalOf
      rw [Record.mem_iff_find.mp (show (entry.1, entry.2) ∈ s.journals.entries from hentry)]
      rfl
    cases hheld : state.held with
    | none => simp
    | some r =>
      have hr : heldReservation X s.journals entry.1 = some r := by
        rw [← hheld]
        apply heldReservation_of_replay
        rw [hjournal]
        exact hreplay
      have hstop := fun hother => hexpired entry.1 r hother hr
      simpa [walletNonceReservationExpired] using hstop
  unfold assertNotHeldElsewhere
  rw [show knownNonceStates X s = .ok known from hknown, ok_bind, hnone]

variable {value : WalletNonceInput}

/-- What the reading of a reservation finds. -/
theorem Reservable.read (hs : s.Sound X) (h : Reservable X s cycleId value) :
    nonceRead X s ⟨cycleId, .reserveWalletNonce value⟩ = .ok (.keep ⟨cycleId,
      .append (.reserve (value.reservation cycleId) (s.index.find X.key) s.clock)⟩) := by
  obtain ⟨state, hreplay⟩ := hs.replay h.named
  have hagrees := nonceAgrees_of_replay hreplay
  have hheld : ∀ r, state.held = some r → r.leaseExpiresAtMs ≤ value.leaseAcquiredAtMs :=
    fun r hr => h.held cycleId r ((heldReservation_of_replay hreplay).trans hr)
  have hruns := h.runs
  have hactive : ¬ (s.clock < (value.reservation cycleId).leaseAcquiredAtMs ∨
      walletNonceReservationExpired (value.reservation cycleId) s.clock) := by
    rw [walletNonceReservationExpired_iff, not_or, not_lt, not_le]
    exact hruns
  have hnew : state.reservation ≠ some (value.reservation cycleId) := by
    intro hsame
    have hstop := hheld _ (NonceState.held_eq_some.mpr ⟨hsame, rfl⟩)
    simp only [WalletNonceInput.reservation] at hstop
    omega
  have hblocks : ¬ (state.reservation.any fun current =>
      blocks current (value.reservation cycleId) s.clock) := by
    rw [not_any_blocks rfl]
    exact fun current hcurrent =>
      Or.inr ⟨(hheld current hcurrent).trans hruns.1, hheld current hcurrent⟩
  have helsewhere : assertNotHeldElsewhere X s cycleId s.clock "reserveWalletNonce" = .ok () :=
    assertNotHeldElsewhere_of_expired hs fun c r _ hr => (h.held c r hr).trans hruns.1
  have hglobal : assertGlobalReservation (s.index.find X.key) (value.reservation cycleId) s.clock
      = .ok () := by
    -- a reservation in the index has expired, and an expired one may be taken over
    cases hindexed : s.index.find X.key with
    | none => rfl
    | some existing =>
      obtain ⟨hvalid, hstate⟩ := hs.indexed existing hindexed
      have hstop := h.indexed existing hindexed
      have hne : existing ≠ value.reservation cycleId := by
        rintro rfl
        simp only [WalletNonceInput.reservation] at hstop
        omega
      have hexpired : walletNonceReservationExpired existing s.clock = true :=
        decide_eq_true (hstop.trans hruns.1)
      have htakeover : validWalletNonceTakeover existing (value.reservation cycleId) = true := by
        simp [validWalletNonceTakeover, WalletNonceInput.reservation, hstate, hstop]
      unfold assertGlobalReservation
      dsimp only
      rw [if_neg hne, throwIf_of_not (not_not.mpr (isOk_assertWalletNonceReservation.mpr hvalid)),
        ok_bind, throwIf_of_not (by simp [hexpired, htakeover])]
  have hallowed : assertNonceAllowed (payoutRetryMayUseHeldCycle X state.life)
      state.life.terminalState "reserveWalletNonce" = .ok () :=
    assertNonceAllowed_ok.mpr (h.live state hreplay)
  have hread : reserveWalletNonce X s cycleId value = .ok (.keep (.append
      (.reserve (value.reservation cycleId) (s.index.find X.key) s.clock))) := by
    unfold reserveWalletNonce
    simp only [(assertWalletNonceReservation_ok (u := ())).mpr h.valid,
      currentRepositoryTime_ok.mpr ⟨h.timed, rfl⟩, throwIf_of_not hactive, hreplay,
      hallowed, if_neg hnew, throwIf_of_not hblocks,
      helsewhere, hglobal, ok_bind]
    rfl
  unfold nonceRead nonceReading
  dsimp only
  rw [hread]
  rfl

/-- The operations of the reservation pass the index as it was read. -/
theorem reserveOperations_current (r : WalletNonceReservation) (index : Record WalletNonceReservation) :
    ∃ after, KeyOperation.performAll index (reserveOperations X r (index.find X.key)) = .ok after := by
  cases hindexed : index.find X.key with
  | none =>
    refine ⟨_, performAll_ok.mpr ⟨?_, rfl⟩⟩
    intro operation hoperation
    rw [List.mem_singleton.mp hoperation]
    exact check_reserve.mpr (Or.inl hindexed)
  | some existing =>
    refine ⟨_, performAll_ok.mpr ⟨?_, rfl⟩⟩
    intro operation hoperation
    unfold reserveOperations at hoperation
    dsimp only at hoperation
    split at hoperation
    · cases hoperation
    · rw [List.mem_singleton.mp hoperation]
      exact check_replace.mpr hindexed

/-- An assertion of what is held and runs passes when nothing runs elsewhere. -/
theorem assertWalletNonce_of_runs (ht : t.Sound X) (hvalid : (value.reservation cycleId).IsValid)
    (htimed : (t.clock : Int) ≤ maxSafeInteger)
    (hruns : (t.table X).Runs nonceTerms cycleId (value.reservation cycleId))
    (hexpired : ∀ c r, c ≠ cycleId → heldReservation X t.journals c = some r →
      r.leaseExpiresAtMs ≤ t.clock) :
    assertWalletNonce X t cycleId value = .ok (.answer .asserted) := by
  obtain ⟨hheld, hlate⟩ := hruns
  change heldReservation X t.journals cycleId = _ at hheld
  change t.clock < (value.reservation cycleId).leaseExpiresAtMs at hlate
  unfold heldReservation at hheld
  have hactive : ¬ walletNonceReservationExpired (value.reservation cycleId) t.clock := by
    rw [walletNonceReservationExpired_iff, not_le]
    exact hlate
  cases hreplay : nonceReplay X cycleId (journalOf t.journals cycleId) with
  | error message =>
    rw [hreplay] at hheld
    cases hheld
  | ok state =>
    rw [hreplay] at hheld
    dsimp only at hheld
    unfold assertWalletNonce
    simp only [(assertWalletNonceReservation_ok (u := ())).mpr hvalid,
      currentRepositoryTime_ok.mpr ⟨htimed, rfl⟩, throwIf_of_not hactive,
      assertNotHeldElsewhere_of_expired ht hexpired, hreplay, hheld, required,
      throwIf_of_not (not_not.mpr rfl), ok_bind]
    rfl

theorem Reservable.reserves (hs : s.Sound X) (h : Reservable X s cycleId value) :
    ReservesNonce X s cycleId value := by
  obtain ⟨state, hreplay⟩ := hs.replay h.named
  have hread := h.read hs
  obtain ⟨index, hindex⟩ := reserveOperations_current (X := X) (value.reservation cycleId) s.index
  have hblocks : ¬ (state.reservation.any fun current =>
      blocks current (value.reservation cycleId) s.clock) := by
    rw [not_any_blocks rfl]
    intro current hcurrent
    have hstop := h.held cycleId current ((heldReservation_of_replay hreplay).trans hcurrent)
    exact Or.inr ⟨hstop.trans h.runs.1, hstop⟩
  have happend : nonceAppend X state
      (.reserve (value.reservation cycleId) (s.index.find X.key) s.clock)
      = .ok (.walletNonceReserved (value.reservation cycleId),
        reserveOperations X (value.reservation cycleId) (s.index.find X.key),
        .reserved (value.reservation cycleId)) := by
    unfold nonceAppend
    dsimp only
    rw [(assertNonceAllowed_ok (u := ())).mpr (h.live state hreplay), throwIf_of_not hblocks]
    rfl
  have hwrites := nonceAppends_ok.mpr ⟨state, _, _, index, hreplay, happend, h.fits, hindex, rfl, rfl⟩
  have hown : (value.reservation cycleId).cycleId = cycleId := rfl
  have hcarried := carried_reserve hs h.valid rfl hown hwrites
  refine ⟨_, _, _, hread, hwrites, ?_⟩
  have hclock := hcarried.clock
  apply assertWalletNonce_of_runs hcarried.last.2 h.valid
  · rw [hclock]
    exact h.timed
  · rw [hcarried.last.1]
    exact ⟨LeaseTable.held_reserve, by rw [LeaseTable.clock_after]; exact h.runs.2⟩
  · intro c r hc hr
    change (NonceStore.table X _).held c = some r at hr
    rw [hcarried.last.1, LeaseTable.held_after_of_ne hc] at hr
    rw [hclock]
    exact (h.held c r hr).trans h.runs.1

/-! ### The laws -/

/-- At most one reservation can be asserted; a write leaves every other reservation alone whose
lease runs beyond the start of its own; and the wallet may be reserved when all leases have
expired. -/
structure NonceLaws (X : NonceContext ω) (W : World (NonceStore ω) (NonceKept ω) NonceAnswer) :
    Prop where
  asserted : ∀ cycleId value cycleId' value',
    assertWalletNonce X W.store cycleId value = .ok (.answer .asserted) →
    assertWalletNonce X W.store cycleId' value' = .ok (.answer .asserted) →
    value.reservation cycleId = value'.reservation cycleId'
  fenced : ∀ p ∈ W.inFlight, ∀ through t answer, nonceWrites X W.store p = .ok (through, t, answer) →
    ∀ u ∈ t :: through, ∀ r, (∀ r', p.write.plan.lease = some r' →
      r ≠ r' ∧ r'.leaseAcquiredAtMs < r.leaseExpiresAtMs) →
    (∀ c, heldReservation X W.store.journals c = some r → heldReservation X u.journals c = some r) ∧
      (W.store.index.find X.key = some r → u.index.find X.key = some r)
  reservable : ∀ cycleId value, Reservable X W.store cycleId value →
    ReservesNonce X W.store cycleId value

theorem nonceLaws_of_holds {W : World (NonceStore ω) (NonceKept ω) NonceAnswer}
    (h : Service.Holds (fun s _ => s.Sound X) (fun s p => p.Ready X s) W) : NonceLaws X W where
  asserted := by
    intro cycleId value cycleId' value' hasserted hasserted'
    obtain ⟨hruns, -⟩ := assertWalletNonce_ok hasserted
    obtain ⟨hruns', helsewhere⟩ := assertWalletNonce_ok hasserted'
    have hcycle : cycleId = cycleId' := by
      by_contra hne
      exact helsewhere cycleId _ hne hruns
    subst hcycle
    exact Option.some.inj (hruns.1.symm.trans hruns'.1)
  fenced := by
    intro p hp through t answer hwrites u hu r hnewer
    have hready := h.inFlight p hp
    have hcarried := nonceWrites_carried h.store hready.formed hwrites
    rcases List.mem_cons.mp hu with rfl | hu
    · have hfenced := LeaseTable.fenced_after hready.planned hcarried.permits hnewer
      rw [← hcarried.last.1] at hfenced
      exact hfenced
    · have hfenced := LeaseTable.fenced_halfway hready.planned hcarried.permits hnewer
      rw [← (hcarried.halfway u hu).1] at hfenced
      exact hfenced
  reservable _ _ hreservable := hreservable.reserves h.store

/-- The journal of a cycle has got a release since. -/
def ReleasedSince (before after : NonceStore ω) (cycleId : Text) (r : WalletNonceReservation) :
    Prop :=
  .walletNonceReleased { r with state := .released } ∈
    (journalOf after.journals cycleId).drop (journalOf before.journals cycleId).length

/-- A reservation that was held is held still, has expired, or was released since. -/
structure Lasting (X : NonceContext ω) (before : NonceStore ω) (cycleId : Text)
    (r : WalletNonceReservation) (s : NonceStore ω) : Prop where
  grown : journalOf before.journals cycleId <+: journalOf s.journals cycleId
  lasts : heldReservation X s.journals cycleId = some r ∨ r.leaseExpiresAtMs ≤ s.clock ∨
    ReleasedSince before s cycleId r

theorem mem_drop_of_prefix {α : Type} {xs ys : List α} {n : Nat} {a : α} (h : xs <+: ys)
    (ha : a ∈ xs.drop n) : a ∈ ys.drop n := by
  obtain ⟨more, rfl⟩ := h
  rw [List.drop_append]
  exact List.mem_append_left _ ha

theorem Lasting.carried {before : NonceStore ω} {r : WalletNonceReservation} {p : NonceKept ω}
    {through : List (NonceStore ω)} (h : Lasting X before cycleId r s) (hready : p.Ready X s)
    (hcarried : Carried X s p through t) : Lasting X before cycleId r t where
  grown := h.grown.trans (hcarried.grows cycleId)
  lasts := by
    rcases h.lasts with hheld | hexpired | hreleased
    · have hafter := LeaseTable.held_after (T := s.table X) hready.planned hcarried.permits hheld
      rcases hafter with hstill | hexpired | ⟨rfl, indexed, hplan⟩
      · left
        rw [← hcarried.last.1] at hstill
        exact hstill
      · right; left
        rw [hcarried.clock]
        exact hexpired
      · right; right
        unfold ReleasedSince
        rw [hcarried.released r indexed hplan, journalOf_appendTo, if_pos rfl,
          List.drop_append_of_le_length h.grown.length_le]
        exact List.mem_append_right _ List.mem_cons_self
    · right; left
      rw [hcarried.clock]
      exact hexpired
    · right; right
      exact mem_drop_of_prefix (hcarried.grows cycleId) hreleased

/-- In every run of the calls of any cycles for one wallet, with crashes between the two writes
of any commit: the laws hold, a reservation that was held is held until it expires or is
released, and when no write is disturbed at most one that is held has not expired. -/
theorem walletNonce_laws (X : NonceContext ω) (moves : List (Move (NonceCall ω) Nat)) :
    let run := stateAfterRun (nonceService X).step (World.start .empty)
    NonceLaws X (run moves) ∧
      (∀ before after, moves = before ++ after → ∀ cycleId r,
        heldReservation X (run before).store.journals cycleId = some r →
        Lasting X (run before).store cycleId r (run moves).store) ∧
      (EveryStep (nonceService X).step (Service.Commits (NonceUndisturbed X)) (World.start .empty)
          moves →
        ∀ cycleId r cycleId' r',
          heldReservation X (run moves).store.journals cycleId = some r →
          heldReservation X (run moves).store.journals cycleId' = some r' →
          (run moves).store.clock < r.leaseExpiresAtMs →
          (run moves).store.clock < r'.leaseExpiresAtMs → r = r') := by
  intro run
  have hupholds : (nonceService X).Upholds _ _ _ := nonce_upholds
  have hholds := fun moves => hupholds.run_always (fun _ _ => trivial) NonceStore.sound_empty moves
  refine ⟨nonceLaws_of_holds (hholds moves), ?_, ?_⟩
  · intro before after hmoves cycleId r hheld
    subst hmoves
    rw [show run (before ++ after) = _ from stateAfterRun_append _ _ before after]
    apply hupholds.stable (P := Lasting X (run before).store cycleId r) ?_ ?_ (hholds before)
      ⟨List.prefix_rfl, Or.inl hheld⟩ (fun _ m _ _ => Service.commits_of_forall (fun _ _ => trivial) _ m)
    · intro s answers p through t answer hI hK _ hlasting hwrites u hu
      have hcarried := nonceWrites_carried hI hK.formed hwrites
      rcases List.mem_cons.mp hu with rfl | hu
      · exact hlasting.carried hK hcarried
      · have hsame := hcarried.journals u hu
        have hclock : u.clock = s.clock := congrArg LeaseTable.clock (hcarried.halfway u hu).1
        obtain ⟨hgrown, hlasts⟩ := hlasting
        rw [← hsame, ← hclock] at hlasts
        refine ⟨hsame ▸ hgrown, ?_⟩
        unfold ReleasedSince at hlasts ⊢
        rw [hsame] at hlasts ⊢
        exact hlasts
    · intro s answers elapsed hI hlasting
      refine ⟨hlasting.grown, ?_⟩
      rcases hlasting.lasts with hstill | hexpired | hreleased
      · exact Or.inl hstill
      · exact Or.inr (Or.inl (hexpired.trans (Nat.le_add_right _ elapsed)))
      · exact Or.inr (Or.inr hreleased)
  · intro hundisturbed cycleId r cycleId' r' hheld hheld' hruns hruns'
    have hexclusive : LeaseTable.Exclusive nonceTerms
        ((NonceStore.empty : NonceStore ω).table X) := by
      intro c c' l m hl hm
      have hnone : some l = none := hl.1.symm.trans heldReservation_empty
      cases hnone
    obtain ⟨-, hafter⟩ := (nonce_upholds_undisturbed.run ⟨NonceStore.sound_empty, hexclusive⟩
      hundisturbed).store
    have hcycle := hafter cycleId cycleId' r r' ⟨hheld, hruns⟩ ⟨hheld', hruns'⟩
    subst hcycle
    exact Option.some.inj (hheld.symm.trans hheld')

end Laws

/-! ## A lease that began earlier -/

/-- A wallet of which no payout retry speaks. -/
def sampleNonces : NonceContext Unit where
  key := text "wallet-nonce:4663:0x7777777777777777777777777777777777777777"
  hasUnresolvedRetry _ := false
  hasReleasableRetry _ := false
  others := silentRecords
  fits _ _ := true

def sampleNonceInput (leaseAcquiredAtMs leaseExpiresAtMs : Nat) : WalletNonceInput where
  stage := .outbound
  fencingToken := text "00000000-0000-4000-8000-000000000000"
  leaseAcquiredAtMs := leaseAcquiredAtMs
  leaseExpiresAtMs := leaseExpiresAtMs

/-- A cycle takes over its own expired reservation and releases the second one. Then another
cycle reserves the wallet under a lease that began while the first reservation ran. -/
def earlierLease : List (Move (NonceCall Unit) Nat) :=
  [.call ⟨text "cycle-a", .reserveWalletNonce (sampleNonceInput 0 10)⟩, .commit 0, .drift 10,
    .call ⟨text "cycle-a", .reserveWalletNonce (sampleNonceInput 10 20)⟩, .commit 0,
    .call ⟨text "cycle-a", .releaseWalletNonce (sampleNonceInput 10 20)⟩, .commit 0,
    .call ⟨text "cycle-b", .reserveWalletNonce (sampleNonceInput 5 30)⟩, .commit 0]

/-- The windows of the two leases overlap, and the first reservation was never released. -/
theorem earlierLease_overlaps : ¬ ∀ before after, earlierLease = before ++ after →
    ∀ cycleId r cycleId' r',
      let run := stateAfterRun (nonceService sampleNonces).step (World.start .empty)
      heldReservation sampleNonces (run before).store.journals cycleId = some r →
      heldReservation sampleNonces (run earlierLease).store.journals cycleId' = some r' →
      r ≠ r' → r'.leaseAcquiredAtMs < r.leaseExpiresAtMs →
      r.leaseAcquiredAtMs < r'.leaseExpiresAtMs →
      ReleasedSince (run before).store (run earlierLease).store cycleId r := by
  intro h
  have hreleased := h (earlierLease.take 2) (earlierLease.drop 2) rfl (text "cycle-a")
    ((sampleNonceInput 0 10).reservation (text "cycle-a")) (text "cycle-b")
    ((sampleNonceInput 5 30).reservation (text "cycle-b")) (by decide +kernel) (by decide +kernel)
    (by decide +kernel) (by decide +kernel) (by decide +kernel)
  unfold ReleasedSince at hreleased
  revert hreleased
  decide +kernel

end Hookemon.Repository
