import Hookemon.Core.BoundedCache
import Hookemon.Core.Checked
import Hookemon.Js.Date
import Hookemon.Js.Value

/-! # `collector/recent-winners.mjs`

A cache of recently revealed cards. An observation is retained under the identity of its
pack, when it matches the trusted operation of its memo.
-/

namespace Hookemon.Collector

open Hookemon.Core Hookemon.Js

/-! ## Checks of single values -/

def isNonEmptyString : Value → Bool
  | .string s => s ≠ []
  | _ => false

/-- A string that is not empty, or `null`. -/
def isOptionalString (value : Value) : Bool := value = .null || isNonEmptyString value

/-- `Number.isSafeInteger(value) && value >= 0`, and the number. A negative zero is 0. -/
def safeIndex : Value → Option Nat
  | .number (.integer n _) => if 0 ≤ n ∧ n ≤ 2 ^ 53 - 1 then some n.toNat else none
  | .number .negativeZero => some 0
  | _ => none

/-- `Number.isInteger(value)` with `0 <= value <= 255`. -/
def isAssetDecimals : Value → Bool
  | .number (.integer n _) => 0 ≤ n ∧ n ≤ 255
  | .number .negativeZero => true
  | _ => false

def isDecimalString : Value → Bool
  | .string s => isDecimal s
  | _ => false

def isIsoTimestamp : Value → Bool
  | .string s => isISOString s
  | _ => false

/-- The text of a string that has passed a check. -/
def stringOf : Value → Text
  | .string s => s
  | _ => []

/-- The same for a string or `null`. -/
def optionalOf : Value → Option Text
  | .string s => some s
  | _ => none

/-! ## Events -/

inductive CardState where
  | observed
  | finalized
deriving DecidableEq, Repr

def CardState.name : CardState → Text
  | .observed => text "observed"
  | .finalized => text "finalized"

/-- `CARD_STATES.has(value)`, and the state. -/
def cardState (value : Value) : Option CardState :=
  if value = .string CardState.observed.name then some .observed
  else if value = .string CardState.finalized.name then some .finalized
  else none

structure PublicCardEvent where
  cycleId : Text
  operationId : Text
  packIndex : Nat
  memo : Option Text
  mint : Option Text
  eventId : Text
  sequence : Text
  state : CardState
  name : Option Text
  imageUrl : Option Text
  observedAt : Text
  finalizedAt : Option Text
  transactionId : Option Text
  proceeds : Value
deriving DecidableEq

def isObject : Value → Bool
  | .object _ => true
  | _ => false

/-- The pack index of an identity that passes. -/
def assertOperationIdentity (value : Value) (label : String) : Except String Nat := do
  throwIf (¬ isObject value) (label ++ " is invalid")
  throwIf (¬ isNonEmptyString (value.get (text "cycleId"))
      ∨ ¬ isNonEmptyString (value.get (text "operationId")))
    (label ++ ".cycleId/operationId must be non-empty strings")
  let packIndex ← (safeIndex (value.get (text "packIndex"))).elim
    (.error (label ++ ".packIndex must be a non-negative integer")) .ok
  throwIf (¬ isOptionalString (value.get (text "memo"))) (label ++ ".memo must be a string or null")
  throwIf (¬ isOptionalString (value.get (text "mint"))) (label ++ ".mint must be a string or null")
  return packIndex

def assertAmount (value : Value) (label : String) : Except String Unit := do
  throwIf (¬ isObject value) (label ++ " is invalid")
  throwIf (¬ isNonEmptyString (value.get (text "chainId"))
      ∨ ¬ isNonEmptyString (value.get (text "assetId")))
    (label ++ ".chainId/assetId must be non-empty strings")
  throwIf (¬ isAssetDecimals (value.get (text "decimals"))) (label ++ ".decimals is invalid")
  throwIf (¬ isDecimalString (value.get (text "units")))
    (label ++ ".units must be an unsigned decimal string")

/-- `null`, or an amount. -/
def assertProceeds (value : Value) : Except String Unit :=
  if value = .null then .ok () else assertAmount value "PublicCardEvent.proceeds"

def assertPublicCardEvent (value : Value) : Except String PublicCardEvent := do
  let packIndex ← assertOperationIdentity value "PublicCardEvent"
  throwIf (¬ isNonEmptyString (value.get (text "eventId")))
    "PublicCardEvent.eventId must be a non-empty string"
  throwIf (¬ isDecimalString (value.get (text "sequence")))
    "PublicCardEvent.sequence must be a canonical unsigned integer string (no leading zeros)"
  let state ← (cardState (value.get (text "state"))).elim
    (.error "PublicCardEvent.state must be \"observed\" or \"finalized\"") .ok
  throwIf (¬ isOptionalString (value.get (text "name")))
    "PublicCardEvent.name must be a string or null"
  throwIf (¬ isOptionalString (value.get (text "imageUrl")))
    "PublicCardEvent.imageUrl must be a string or null"
  throwIf (¬ isIsoTimestamp (value.get (text "observedAt")))
    "PublicCardEvent.observedAt must be an ISO timestamp"
  throwIf (value.get (text "finalizedAt") ≠ .null
      ∧ ¬ isIsoTimestamp (value.get (text "finalizedAt")))
    "PublicCardEvent.finalizedAt must be an ISO timestamp or null"
  throwIf (¬ isOptionalString (value.get (text "transactionId")))
    "PublicCardEvent.transactionId must be a string or null"
  assertProceeds (value.get (text "proceeds"))
  return { cycleId := stringOf (value.get (text "cycleId"))
           operationId := stringOf (value.get (text "operationId"))
           packIndex
           memo := optionalOf (value.get (text "memo"))
           mint := optionalOf (value.get (text "mint"))
           eventId := stringOf (value.get (text "eventId"))
           sequence := stringOf (value.get (text "sequence"))
           state
           name := optionalOf (value.get (text "name"))
           imageUrl := optionalOf (value.get (text "imageUrl"))
           observedAt := stringOf (value.get (text "observedAt"))
           finalizedAt := optionalOf (value.get (text "finalizedAt"))
           transactionId := optionalOf (value.get (text "transactionId"))
           proceeds := value.get (text "proceeds") }

def durableKey (identity : PublicCardEvent) : Text :=
  identity.cycleId ++ 58 :: identity.operationId ++ 58 :: natText identity.packIndex

/-! ## Retention -/

def STATE_RANK : CardState → Nat
  | .observed => 0
  | .finalized => 1

def compareSequence (left right : Text) : Ordering := compare (textNat left) (textNat right)

def preferred (existing : Option PublicCardEvent) (incoming : PublicCardEvent) : PublicCardEvent :=
  match existing with
  | none => incoming
  | some existing =>
    if STATE_RANK incoming.state ≠ STATE_RANK existing.state then
      if STATE_RANK existing.state < STATE_RANK incoming.state then incoming else existing
    else if compareSequence incoming.sequence existing.sequence ≠ .lt then incoming else existing

/-- `events.get(key)`. The events stand in the order in which their keys came. -/
def retained (events : List PublicCardEvent) (key : Text) : Option PublicCardEvent :=
  events.find? fun e => durableKey e = key

/-- `events.set(key, event)`. -/
def setEvent (events : List PublicCardEvent) (key : Text) (event : PublicCardEvent) :
    List PublicCardEvent :=
  if (retained events key).isSome then events.map fun e => if durableKey e = key then event else e
  else events ++ [event]

def oldestFirst (events : List PublicCardEvent) : List PublicCardEvent :=
  events.insertionSort fun a b => compareSequence a.sequence b.sequence ≠ .gt

/-- The loop that deletes the overflow. Every deletion lowers the bound of its index. -/
def deleteOverflow (maxRetained : Nat) :
    Nat → List PublicCardEvent → List PublicCardEvent → List PublicCardEvent
  | _, [], events => events
  | index, first :: overflow, events =>
    if index < events.length - maxRetained then
      deleteOverflow maxRetained (index + 1) overflow
        (events.filter fun e => durableKey e ≠ durableKey first)
    else events

/-- What `ingest` does with a trusted observation. -/
def retain (maxRetained : Nat) (events : List PublicCardEvent) (observation : PublicCardEvent) :
    Option PublicCardEvent × List PublicCardEvent :=
  let key := durableKey observation
  let existing := retained events key
  if existing.any fun e => e.memo ≠ observation.memo || e.mint ≠ observation.mint then
    (none, events)
  else
    let merged := preferred existing observation
    let events := setEvent events key merged
    (some merged,
      if maxRetained < events.length then deleteOverflow maxRetained 0 (oldestFirst events) events
      else events)

/-! ## The collector -/

def isTrustedOperationRecord (value : Value) : Bool :=
  isObject value && isNonEmptyString (value.get (text "cycleId")) &&
    isNonEmptyString (value.get (text "operationId")) &&
    (safeIndex (value.get (text "packIndex"))).isSome &&
    isOptionalString (value.get (text "mint")) && isOptionalString (value.get (text "wallet"))

/-- A collector without its events. The trusted operations are keyed by memo. -/
structure RecentWinnersCollector where
  trustedOperations : List (Text × Value)
  maxRetained : Nat
  positive : 0 < maxRetained
  safe : maxRetained ≤ 2 ^ 53 - 1

theorem safeIndex_le {value : Value} {n : Nat} (h : safeIndex value = some n) :
    n ≤ 2 ^ 53 - 1 := by
  rw [safeIndex.eq_def] at h
  split at h
  · split at h
    · cases h
      omega
    · cases h
  · cases h
    exact Nat.zero_le _
  · cases h

def createRecentWinnersCollector (trustedOperations : List (Text × Value)) (maxRetained : Value) :
    Except String RecentWinnersCollector :=
  if trustedOperations = [] then
    .error ("createRecentWinnersCollector requires a non-empty Map of trusted operation records " ++
      "keyed by memo")
  else if ¬ trustedOperations.all fun entry =>
      entry.1 ≠ [] && isTrustedOperationRecord entry.2 then
    .error "createRecentWinnersCollector: every trusted operation record must be well-formed"
  else if h : ∃ n, safeIndex maxRetained = some n ∧ 0 < n then
    .ok { trustedOperations, maxRetained := (safeIndex maxRetained).getD 0
          positive := by
            obtain ⟨n, hn, hpositive⟩ := h
            rw [hn]
            exact hpositive
          safe := by
            obtain ⟨n, hn, -⟩ := h
            rw [hn]
            exact safeIndex_le hn }
  else .error "createRecentWinnersCollector requires a positive integer maxRetained"

/-- A string, or `null`. -/
def optionalValue (s : Option Text) : Value := s.elim .null .string

def trustedMatch (c : RecentWinnersCollector) (rawObservation : Value)
    (observation : PublicCardEvent) : Bool :=
  match observation.memo.bind fun memo => c.trustedOperations.lookup memo with
  | none => false
  | some trusted =>
    trusted.get (text "cycleId") = .string observation.cycleId &&
      trusted.get (text "operationId") = .string observation.operationId &&
      safeIndex (trusted.get (text "packIndex")) = some observation.packIndex &&
      (trusted.get (text "mint") = .null ||
        trusted.get (text "mint") = optionalValue observation.mint) &&
      (trusted.get (text "wallet") = .null ||
        trusted.get (text "wallet") = rawObservation.get (text "wallet"))

/-- The event that is retained afterwards, unless the observation is dropped, and the events. -/
def ingest (c : RecentWinnersCollector) (events : List PublicCardEvent) (rawObservation : Value) :
    Except String (Option PublicCardEvent × List PublicCardEvent) := do
  let observation ← assertPublicCardEvent rawObservation
  if observation.memo = none ∨ ¬ trustedMatch c rawObservation observation then
    return (none, events)
  else return retain c.maxRetained events observation

def newestFirst (events : List PublicCardEvent) : List PublicCardEvent :=
  events.insertionSort fun a b => compareSequence b.sequence a.sequence ≠ .gt

def list (events : List PublicCardEvent) (limit : Value) : Except String (List PublicCardEvent) := do
  let n ← (safeIndex limit).elim
    (.error "recent-winners list requires a positive integer limit") .ok
  throwIf (n = 0) "recent-winners list requires a positive integer limit"
  return (newestFirst events).take n

/-- Observations that are ingested one after the other. -/
def deliver (c : RecentWinnersCollector) (rawObservations : List Value) :
    Except String (List PublicCardEvent) :=
  rawObservations.foldlM (fun events raw => Prod.snd <$> ingest c events raw) []

end Hookemon.Collector
