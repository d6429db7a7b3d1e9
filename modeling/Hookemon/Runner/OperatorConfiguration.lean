import Hookemon.Core.Scan
import Hookemon.Js.Record
import Hookemon.Runner.CanonicalJson
import Hookemon.Runner.PayoutPlan

/-! # The operator configuration (`config/state-schema.mjs`, `config/pack-plan.mjs`)

The document of the operator: what may be bought, the caps on it, the switches, and the
two ledgers with the approvals that the policy engine adds to. An edit by the operator
(`applyOperatorConfiguration`) replaces the settings and touches neither.

The types of the fields, the exact schemas and the absence of secret fields are the
types of the records. The bounds of the canonical encoding are not: every record of the
document is encoded where the source does it.
-/

namespace Hookemon.Runner

open Hookemon.Core Hookemon.Js

/-! ## Field checks -/

/-- The number of an integer field. -/
def integerValue (n : Int) : Value := .number (.nearest (decide (n < 0)) n.natAbs)

/-- The encoding of a record, which has its exact schema by type. -/
def assertExactPlainObject (value : Value) : Except String Unit := do
  let _ ← canonicalJson value

def assertIntegerInRange (value : Int) (label : String) (min max : Int) : Except String Int := do
  throwIf (value < min ∨ max < value)
    (label ++ " must be an integer between " ++ toString min ++ " and " ++ toString max)
  return value

/-- `assertMicroUsdAmount`, with `maxSafeMicroUsd`. -/
def assertMicroUsdAmount (value : Text) (label : String) : Except String Nat := do
  throwIf (¬ isDecimal value) (label ++ " must be a canonical unsigned decimal string")
  throwIf (maxSafeInteger < textNat value)
    (label ++ " exceeds the maximum representable micro-USD amount")
  return textNat value

def assertTimestamp (value : Int) (label : String) : Except String Unit :=
  throwIf (value < 0 ∨ maxSafeInteger < value) (label ++ " must be a nonnegative safe integer")

/-- `assertCycleId`, with `cycleIdPattern`. -/
def assertCycleId (value : Text) (label : String) : Except String Unit :=
  throwIf (¬ isIdentifier value) (label ++ " is invalid")

def assertDigest (value : Text) (label : String) : Except String Unit :=
  throwIf (¬ isDigest value) (label ++ " is invalid")

/-- `^[a-z0-9][a-z0-9_-]{1,63}$`. -/
def isPackCode (s : Text) : Bool :=
  match s with
  | [] => false
  | c :: cs =>
    isLowerAlphanumeric c && 1 ≤ cs.length && cs.length ≤ 63 &&
      cs.all fun c => isLowerAlphanumeric c || c = 95 || c = 45
where
  isLowerAlphanumeric (c : UInt16) : Bool := isDigit c || (97 ≤ c.toNat && c.toNat ≤ 122)

/-! ## The pack plan -/

structure PackOrder where
  pack : Text
  quantity : Int
deriving DecidableEq, Repr

structure PackPlan where
  schema : Text
  revision : Int
  orders : List PackOrder
deriving DecidableEq, Repr

abbrev MAXIMUM_PACK_BATCH_SIZE : Int := 64

def PACK_PLAN_SCHEMA : Text := text "hookemon.pack-plan.v1"

def PackOrder.toValue (o : PackOrder) : Value :=
  .object [(text "pack", .string o.pack), (text "quantity", integerValue o.quantity)]

def ordersValue (orders : List PackOrder) : Value := .array (orders.map PackOrder.toValue)

def PackPlan.toValue (p : PackPlan) : Value :=
  .object [(text "schema", .string p.schema), (text "revision", integerValue p.revision),
    (text "orders", ordersValue p.orders)]

/-- The sum of the quantities so far. -/
def totalQuantity (orders : List PackOrder) : Int := (orders.map PackOrder.quantity).sum

/-- The loop of `assertPackPlan` at one order. -/
def assertPackOrder (seen : List PackOrder) (o : PackOrder) : Except String Unit := do
  assertExactPlainObject o.toValue
  throwIf (¬ isPackCode o.pack) "pack plan pack is invalid"
  throwIf (∃ previous ∈ seen.getLast?, o.pack ≤ previous.pack)
    "pack plan orders must be unique and sorted"
  throwIf (o.quantity < 1 ∨ MAXIMUM_PACK_BATCH_SIZE < o.quantity) "pack plan quantity is invalid"
  throwIf (MAXIMUM_PACK_BATCH_SIZE < totalQuantity seen + o.quantity)
    "pack plan total quantity exceeds the hard cap"

def assertPackPlan (value : PackPlan) : Except String PackPlan := do
  assertExactPlainObject value.toValue
  throwIf (value.schema ≠ PACK_PLAN_SCHEMA) "pack plan schema is invalid"
  throwIf (value.revision < 0 ∨ maxSafeInteger < value.revision) "pack plan revision is invalid"
  scan assertPackOrder [] value.orders
  return value

def createEmptyPackPlan : PackPlan := ⟨PACK_PLAN_SCHEMA, 0, []⟩

def replacePackPlan (current : PackPlan) (orders : List PackOrder) : Except String PackPlan := do
  let base ← assertPackPlan current
  let candidate ← assertPackPlan ⟨PACK_PLAN_SCHEMA, base.revision, orders⟩
  let baseOrders ← canonicalJson (ordersValue base.orders)
  let candidateOrders ← canonicalJson (ordersValue candidate.orders)
  if baseOrders = candidateOrders then return base
  else assertPackPlan { candidate with revision := base.revision + 1 }

/-! ## The records of the engine -/

structure PendingEpicDecision where
  cycleId : Text
  cycleDigest : Text
  heldAtMs : Int
deriving DecidableEq, Repr

structure ManualApproval where
  cycleId : Text
  approvedAtMs : Int
deriving DecidableEq, Repr

inductive CycleMode where
  | production
  | rehearsal
deriving DecidableEq, Repr

structure CycleEntry where
  cycleId : Text
  cycleDigest : Text
  mode : CycleMode
  openedAtMs : Int
  releaseAmountWei : Text
  releaseCostMicroUsd : Text
deriving DecidableEq, Repr

structure SpendEntry where
  cycleId : Text
  cycleDigest : Text
  amountMicroUsd : Text
  reservedAtMs : Int
deriving DecidableEq, Repr

def CycleMode.text : CycleMode → Text
  | production => Js.text "production"
  | rehearsal => Js.text "rehearsal"

def PendingEpicDecision.toValue (d : PendingEpicDecision) : Value :=
  .object [(text "cycleId", .string d.cycleId), (text "cycleDigest", .string d.cycleDigest),
    (text "heldAtMs", integerValue d.heldAtMs)]

def ManualApproval.toValue (a : ManualApproval) : Value :=
  .object [(text "cycleId", .string a.cycleId), (text "approvedAtMs", integerValue a.approvedAtMs)]

def approvalsValue (approvals : Record ManualApproval) : Value :=
  .object (approvals.entries.map fun entry => (entry.1, entry.2.toValue))

def CycleEntry.toValue (e : CycleEntry) : Value :=
  .object [(text "cycleId", .string e.cycleId), (text "cycleDigest", .string e.cycleDigest),
    (text "mode", .string e.mode.text), (text "openedAtMs", integerValue e.openedAtMs),
    (text "releaseAmountWei", .string e.releaseAmountWei),
    (text "releaseCostMicroUsd", .string e.releaseCostMicroUsd)]

def SpendEntry.toValue (e : SpendEntry) : Value :=
  .object [(text "cycleId", .string e.cycleId), (text "cycleDigest", .string e.cycleDigest),
    (text "amountMicroUsd", .string e.amountMicroUsd),
    (text "reservedAtMs", integerValue e.reservedAtMs)]

/-- The label of an item of an array. -/
def itemLabel (label : String) (index : Nat) : String := label ++ "[" ++ toString index ++ "]"

/-- The loop of `assertPendingEpicDecisions` at one entry. -/
def assertPendingEpicDecision (seen : List PendingEpicDecision) (d : PendingEpicDecision) :
    Except String Unit := do
  let label := itemLabel "operator configuration pendingEpicDecisions" seen.length
  assertExactPlainObject d.toValue
  assertCycleId d.cycleId (label ++ " cycleId")
  assertDigest d.cycleDigest (label ++ " cycleDigest")
  assertTimestamp d.heldAtMs (label ++ " heldAtMs")
  throwIf (d.cycleId ∈ seen.map PendingEpicDecision.cycleId)
    "operator configuration pendingEpicDecisions cycleId is duplicated"

/-- A text in a message. -/
def messageOf (s : Text) : String := String.ofList (s.map fun c => Char.ofNat c.toNat)

/-- The loop of `assertApprovalsByCycleDigest` at one property. -/
def assertApproval (entry : Text × ManualApproval) : Except String Unit := do
  let label := "operator configuration approval " ++ messageOf entry.1
  assertDigest entry.1 "operator configuration approval cycle digest"
  assertExactPlainObject entry.2.toValue
  assertCycleId entry.2.cycleId (label ++ " cycleId")
  assertTimestamp entry.2.approvedAtMs (label ++ " approvedAtMs")

/-- The checks of `assertCycleLedger` on the entry alone. -/
def assertCycleEntry (label : String) (e : CycleEntry) : Except String Unit := do
  assertExactPlainObject e.toValue
  assertCycleId e.cycleId (label ++ " cycleId")
  assertDigest e.cycleDigest (label ++ " cycleDigest")
  assertTimestamp e.openedAtMs (label ++ " openedAtMs")
  throwIf (¬ isDecimal e.releaseAmountWei ∨ 2 ^ 256 ≤ textNat e.releaseAmountWei)
    "operator cycleLedger releaseAmountWei is invalid"
  let _ ← assertMicroUsdAmount e.releaseCostMicroUsd (label ++ " releaseCostMicroUsd")

/-- The loop of `assertCycleLedger` at one entry. -/
def assertCycleLedgerEntry (seen : List CycleEntry) (e : CycleEntry) : Except String Unit := do
  assertCycleEntry (itemLabel "operator configuration cycleLedger" seen.length) e
  throwIf (e.cycleId ∈ seen.map CycleEntry.cycleId ∨ e.cycleDigest ∈ seen.map CycleEntry.cycleDigest)
    "operator configuration cycleLedger cycle identity is duplicated"
  throwIf (∃ previous ∈ seen.getLast?, e.openedAtMs < previous.openedAtMs)
    "operator configuration cycleLedger must be ordered by openedAtMs"

def assertCycleLedger (ledger : List CycleEntry) : Except String Unit :=
  scan assertCycleLedgerEntry [] ledger

/-- The checks of `assertSpendLedger` on the entry alone. -/
def assertSpendEntry (label : String) (e : SpendEntry) : Except String Unit := do
  assertExactPlainObject e.toValue
  assertCycleId e.cycleId (label ++ " cycleId")
  assertDigest e.cycleDigest (label ++ " cycleDigest")
  let _ ← assertMicroUsdAmount e.amountMicroUsd (label ++ " amountMicroUsd")
  assertTimestamp e.reservedAtMs (label ++ " reservedAtMs")

/-- The loop of `assertSpendLedger` at one entry. -/
def assertSpendLedgerEntry (cycleLedger : List CycleEntry) (seen : List SpendEntry)
    (e : SpendEntry) : Except String Unit := do
  assertSpendEntry (itemLabel "operator configuration spendLedger" seen.length) e
  throwIf (e.cycleDigest ∉ cycleLedger.map CycleEntry.cycleDigest)
    "operator configuration spendLedger must bind a recorded cycle digest"
  throwIf (e.cycleDigest ∈ seen.map SpendEntry.cycleDigest)
    "operator configuration spendLedger cycle digest is duplicated"
  throwIf (∃ previous ∈ seen.getLast?, e.reservedAtMs < previous.reservedAtMs)
    "operator configuration spendLedger must be ordered by reservedAtMs"

def assertSpendLedger (cycleLedger : List CycleEntry) (ledger : List SpendEntry) :
    Except String Unit :=
  scan (assertSpendLedgerEntry cycleLedger) [] ledger

/-! ## The document -/

def OPERATOR_CONFIGURATION_SCHEMA : Text := text "hookemon.operator-configuration.v6"

/-- The document. Only `processClaimLimit6hMicroUsd` may be missing from one that is read. -/
structure OperatorConfiguration where
  schema : Text
  intervalMinutes : Int
  allowedPackIds : List Text
  packPlan : PackPlan
  rewardRecipientLimit : Int
  requestedOrders : Int
  maxBoostersPerCycle : Int
  maxUnitPriceMicroUsd : Text
  maxCycleBudgetMicroUsd : Text
  max24HourBudgetMicroUsd : Text
  processClaimLimit6hMicroUsd : Option Text
  paused : Bool
  liveMode : Bool
  maxCyclesPerDay : Int
  perCycleCapMicroUsd : Text
  lossCapMicroUsd : Text
  maxOutstandingCustodyMicroUsd : Text
  maxHeldPositions : Int
  maxHeldValueMicroUsd : Text
  unresolvedCardDeadlineMinutes : Int
  executionPaused : Bool
  killSwitch : Bool
  manualApprovalCycles : Int
  pendingEpicDecisions : List PendingEpicDecision
  approvalsByCycleDigest : Record ManualApproval
  spendLedger : List SpendEntry
  cycleLedger : List CycleEntry
  configurationRevision : Int
deriving DecidableEq

namespace OperatorConfiguration

/-- The properties of the document. -/
def fields (c : OperatorConfiguration) : Fields :=
  [(text "schema", .string c.schema), (text "intervalMinutes", integerValue c.intervalMinutes),
    (text "allowedPackIds", .array (c.allowedPackIds.map .string)),
    (text "packPlan", c.packPlan.toValue),
    (text "rewardRecipientLimit", integerValue c.rewardRecipientLimit),
    (text "requestedOrders", integerValue c.requestedOrders),
    (text "maxBoostersPerCycle", integerValue c.maxBoostersPerCycle),
    (text "maxUnitPriceMicroUsd", .string c.maxUnitPriceMicroUsd),
    (text "maxCycleBudgetMicroUsd", .string c.maxCycleBudgetMicroUsd),
    (text "max24HourBudgetMicroUsd", .string c.max24HourBudgetMicroUsd)] ++
  (c.processClaimLimit6hMicroUsd.toList.map fun limit =>
    (text "processClaimLimit6hMicroUsd", .string limit)) ++
  [(text "paused", .boolean c.paused), (text "liveMode", .boolean c.liveMode),
    (text "maxCyclesPerDay", integerValue c.maxCyclesPerDay),
    (text "perCycleCapMicroUsd", .string c.perCycleCapMicroUsd),
    (text "lossCapMicroUsd", .string c.lossCapMicroUsd),
    (text "maxOutstandingCustodyMicroUsd", .string c.maxOutstandingCustodyMicroUsd),
    (text "maxHeldPositions", integerValue c.maxHeldPositions),
    (text "maxHeldValueMicroUsd", .string c.maxHeldValueMicroUsd),
    (text "unresolvedCardDeadlineMinutes", integerValue c.unresolvedCardDeadlineMinutes),
    (text "executionPaused", .boolean c.executionPaused),
    (text "killSwitch", .boolean c.killSwitch),
    (text "manualApprovalCycles", integerValue c.manualApprovalCycles),
    (text "pendingEpicDecisions", .array (c.pendingEpicDecisions.map PendingEpicDecision.toValue)),
    (text "approvalsByCycleDigest", approvalsValue c.approvalsByCycleDigest),
    (text "spendLedger", .array (c.spendLedger.map SpendEntry.toValue)),
    (text "cycleLedger", .array (c.cycleLedger.map CycleEntry.toValue)),
    (text "configurationRevision", integerValue c.configurationRevision)]

def toValue (c : OperatorConfiguration) : Value := .object c.fields

/-- The limit that a document of the current schema gets when it has none. -/
def withClaimLimit (c : OperatorConfiguration) : OperatorConfiguration :=
  if c.schema = OPERATOR_CONFIGURATION_SCHEMA ∧ c.processClaimLimit6hMicroUsd = none then
    { c with processClaimLimit6hMicroUsd := some (text "25000000000") }
  else c

/-- `{ ...c, packPlan }`. -/
def withPackPlan (c : OperatorConfiguration) (packPlan : PackPlan) : OperatorConfiguration :=
  { c with packPlan := packPlan }

/-- `{ ...c, configurationRevision }`. -/
def withRevision (c : OperatorConfiguration) (revision : Int) : OperatorConfiguration :=
  { c with configurationRevision := revision }

end OperatorConfiguration

/-- The loop of `assertAllowedPackIds` at one code. -/
def assertAllowedPackId (seen : List Text) (code : Text) : Except String Unit := do
  throwIf (¬ isPackCode code) "operator configuration allowedPackIds entry is invalid"
  throwIf (∃ previous ∈ seen.getLast?, code ≤ previous)
    "operator configuration allowedPackIds must be unique and sorted"

abbrev REWARD_RECIPIENT_LIMIT_OPTIONS : List Int :=
  [100, 200, 300, 400, 500, 600, 700, 800, 900, 1000]

def assertRewardRecipientLimit (value : Int) : Except String Unit :=
  throwIf (value ∉ REWARD_RECIPIENT_LIMIT_OPTIONS)
    "rewardRecipientLimit must be an integer from 100 through 1000 in increments of 100"

/-- The checks of `assertOperatorConfiguration` on the settings. -/
def assertSettings (value : OperatorConfiguration) : Except String Unit := do
  throwIf (value.schema ≠ OPERATOR_CONFIGURATION_SCHEMA) "operator configuration schema is invalid"
  let processClaimLimit6hMicroUsd ← assertMicroUsdAmount
    (value.processClaimLimit6hMicroUsd.getD []) "operator configuration processClaimLimit6hMicroUsd"
  throwIf (50000000000 < processClaimLimit6hMicroUsd)
    "operator configuration processClaimLimit6hMicroUsd exceeds the fixed hard cap"
  let _ ← assertIntegerInRange value.intervalMinutes
    "operator configuration intervalMinutes" 5 1440
  scan assertAllowedPackId [] value.allowedPackIds
  let _ ← assertPackPlan value.packPlan
  let maxBoostersPerCycle ← assertIntegerInRange value.maxBoostersPerCycle
    "operator configuration maxBoostersPerCycle" 1 1000
  let _ ← assertIntegerInRange value.requestedOrders
    "operator configuration requestedOrders" 0 maxBoostersPerCycle
  let maxUnitPriceMicroUsd ← assertMicroUsdAmount value.maxUnitPriceMicroUsd
    "operator configuration maxUnitPriceMicroUsd"
  let maxCycleBudgetMicroUsd ← assertMicroUsdAmount value.maxCycleBudgetMicroUsd
    "operator configuration maxCycleBudgetMicroUsd"
  let max24HourBudgetMicroUsd ← assertMicroUsdAmount value.max24HourBudgetMicroUsd
    "operator configuration max24HourBudgetMicroUsd"
  throwIf (maxCycleBudgetMicroUsd < maxUnitPriceMicroUsd)
    "operator configuration maxUnitPriceMicroUsd must not exceed maxCycleBudgetMicroUsd"
  throwIf (max24HourBudgetMicroUsd < maxCycleBudgetMicroUsd)
    "operator configuration maxCycleBudgetMicroUsd must not exceed max24HourBudgetMicroUsd"
  let _ ← assertIntegerInRange value.maxCyclesPerDay
    "operator configuration maxCyclesPerDay" 0 maxSafeInteger
  let perCycleCapMicroUsd ← assertMicroUsdAmount value.perCycleCapMicroUsd
    "operator configuration perCycleCapMicroUsd"
  throwIf (perCycleCapMicroUsd ≠ maxCycleBudgetMicroUsd)
    "operator configuration perCycleCapMicroUsd must equal maxCycleBudgetMicroUsd"
  let _ ← assertMicroUsdAmount value.lossCapMicroUsd "operator configuration lossCapMicroUsd"
  let _ ← assertMicroUsdAmount value.maxOutstandingCustodyMicroUsd
    "operator configuration maxOutstandingCustodyMicroUsd"
  let _ ← assertIntegerInRange value.maxHeldPositions "operator configuration maxHeldPositions" 0 10
  let maxHeldValueMicroUsd ← assertMicroUsdAmount value.maxHeldValueMicroUsd
    "operator configuration maxHeldValueMicroUsd"
  throwIf (5000000000 < maxHeldValueMicroUsd)
    "operator configuration maxHeldValueMicroUsd exceeds the fixed hard cap"
  let _ ← assertIntegerInRange value.unresolvedCardDeadlineMinutes
    "operator configuration unresolvedCardDeadlineMinutes" 5 1440
  let _ ← assertIntegerInRange value.manualApprovalCycles
    "operator configuration manualApprovalCycles" 0 maxSafeInteger

/-- The checks of `assertOperatorConfiguration` on what the engine recorded, and the
last ones. -/
def assertRecords (value : OperatorConfiguration) : Except String Unit := do
  scan assertPendingEpicDecision [] value.pendingEpicDecisions
  scan (fun _ => assertApproval) [] value.approvalsByCycleDigest.entries
  assertCycleLedger value.cycleLedger
  assertSpendLedger value.cycleLedger value.spendLedger
  let _ ← assertIntegerInRange value.configurationRevision
    "operator configuration configurationRevision" 0 maxSafeInteger
  assertRewardRecipientLimit value.rewardRecipientLimit

def assertOperatorConfiguration (value : OperatorConfiguration) :
    Except String OperatorConfiguration := do
  let value := value.withClaimLimit
  assertExactPlainObject value.toValue
  throwIf (value.processClaimLimit6hMicroUsd = none)
    "operator configuration must use the exact schema"
  assertSettings value
  assertRecords value
  return value

/-! ## Edits -/

def createDefaultOperatorConfiguration : OperatorConfiguration where
  schema := OPERATOR_CONFIGURATION_SCHEMA
  intervalMinutes := 20
  allowedPackIds := []
  packPlan := createEmptyPackPlan
  rewardRecipientLimit := 200
  requestedOrders := 0
  maxBoostersPerCycle := 1
  maxUnitPriceMicroUsd := text "0"
  maxCycleBudgetMicroUsd := text "0"
  max24HourBudgetMicroUsd := text "0"
  processClaimLimit6hMicroUsd := some (text "25000000000")
  paused := false
  liveMode := false
  maxCyclesPerDay := 0
  perCycleCapMicroUsd := text "0"
  lossCapMicroUsd := text "0"
  maxOutstandingCustodyMicroUsd := text "0"
  maxHeldPositions := 10
  maxHeldValueMicroUsd := text "5000000000"
  unresolvedCardDeadlineMinutes := 30
  executionPaused := false
  killSwitch := false
  manualApprovalCycles := 0
  pendingEpicDecisions := []
  approvalsByCycleDigest := .empty
  spendLedger := []
  cycleLedger := []
  configurationRevision := 0

/-- What the dashboard submits: the fields it has. -/
structure ConfigurationPatch where
  schema : Option Text := none
  intervalMinutes : Option Int := none
  allowedPackIds : Option (List Text) := none
  packPlanOrders : Option (List PackOrder) := none
  rewardRecipientLimit : Option Int := none
  requestedOrders : Option Int := none
  maxBoostersPerCycle : Option Int := none
  maxUnitPriceMicroUsd : Option Text := none
  maxCycleBudgetMicroUsd : Option Text := none
  max24HourBudgetMicroUsd : Option Text := none
  processClaimLimit6hMicroUsd : Option Text := none
  paused : Option Bool := none
  liveMode : Option Bool := none
  maxCyclesPerDay : Option Int := none
  perCycleCapMicroUsd : Option Text := none
  lossCapMicroUsd : Option Text := none
  maxOutstandingCustodyMicroUsd : Option Text := none
  maxHeldPositions : Option Int := none
  maxHeldValueMicroUsd : Option Text := none
  unresolvedCardDeadlineMinutes : Option Int := none
  executionPaused : Option Bool := none
  killSwitch : Option Bool := none
  manualApprovalCycles : Option Int := none
  pendingEpicDecisions : Option (List PendingEpicDecision) := none
  approvalsByCycleDigest : Option (Record ManualApproval) := none
  spendLedger : Option (List SpendEntry) := none
  cycleLedger : Option (List CycleEntry) := none
  configurationRevision : Option Int := none

namespace ConfigurationPatch

/-- `{ ...base, ...patch }`, the pack plan apart. -/
def onto (patch : ConfigurationPatch) (base : OperatorConfiguration) : OperatorConfiguration where
  schema := patch.schema.getD base.schema
  intervalMinutes := patch.intervalMinutes.getD base.intervalMinutes
  allowedPackIds := patch.allowedPackIds.getD base.allowedPackIds
  packPlan := base.packPlan
  rewardRecipientLimit := patch.rewardRecipientLimit.getD base.rewardRecipientLimit
  requestedOrders := patch.requestedOrders.getD base.requestedOrders
  maxBoostersPerCycle := patch.maxBoostersPerCycle.getD base.maxBoostersPerCycle
  maxUnitPriceMicroUsd := patch.maxUnitPriceMicroUsd.getD base.maxUnitPriceMicroUsd
  maxCycleBudgetMicroUsd := patch.maxCycleBudgetMicroUsd.getD base.maxCycleBudgetMicroUsd
  max24HourBudgetMicroUsd := patch.max24HourBudgetMicroUsd.getD base.max24HourBudgetMicroUsd
  processClaimLimit6hMicroUsd :=
    patch.processClaimLimit6hMicroUsd.or base.processClaimLimit6hMicroUsd
  paused := patch.paused.getD base.paused
  liveMode := patch.liveMode.getD base.liveMode
  maxCyclesPerDay := patch.maxCyclesPerDay.getD base.maxCyclesPerDay
  perCycleCapMicroUsd := patch.perCycleCapMicroUsd.getD base.perCycleCapMicroUsd
  lossCapMicroUsd := patch.lossCapMicroUsd.getD base.lossCapMicroUsd
  maxOutstandingCustodyMicroUsd :=
    patch.maxOutstandingCustodyMicroUsd.getD base.maxOutstandingCustodyMicroUsd
  maxHeldPositions := patch.maxHeldPositions.getD base.maxHeldPositions
  maxHeldValueMicroUsd := patch.maxHeldValueMicroUsd.getD base.maxHeldValueMicroUsd
  unresolvedCardDeadlineMinutes :=
    patch.unresolvedCardDeadlineMinutes.getD base.unresolvedCardDeadlineMinutes
  executionPaused := patch.executionPaused.getD base.executionPaused
  killSwitch := patch.killSwitch.getD base.killSwitch
  manualApprovalCycles := patch.manualApprovalCycles.getD base.manualApprovalCycles
  pendingEpicDecisions := patch.pendingEpicDecisions.getD base.pendingEpicDecisions
  approvalsByCycleDigest := patch.approvalsByCycleDigest.getD base.approvalsByCycleDigest
  spendLedger := patch.spendLedger.getD base.spendLedger
  cycleLedger := patch.cycleLedger.getD base.cycleLedger
  configurationRevision := patch.configurationRevision.getD base.configurationRevision

/-- The plan of the edited document. -/
def nextPackPlan (patch : ConfigurationPatch) (base : OperatorConfiguration) :
    Except String PackPlan :=
  match patch.packPlanOrders with
  | none => .ok base.packPlan
  | some orders => do
    assertExactPlainObject (.object [(text "orders", ordersValue orders)])
    replacePackPlan base.packPlan orders

/-- The cap and the budget of a cycle follow each other when only one is set. -/
def withCycleCaps (patch : ConfigurationPatch) (next : OperatorConfiguration) :
    OperatorConfiguration :=
  match patch.maxCycleBudgetMicroUsd, patch.perCycleCapMicroUsd with
  | some budget, none => { next with perCycleCapMicroUsd := budget }
  | none, some cap => { next with maxCycleBudgetMicroUsd := cap }
  | _, _ => next

end ConfigurationPatch

/-- The document that an edit starts from. -/
def baseConfiguration (current : Option OperatorConfiguration) :
    Except String OperatorConfiguration :=
  match current with
  | none => assertOperatorConfiguration createDefaultOperatorConfiguration
  | some current => assertOperatorConfiguration current

def applyOperatorConfiguration (current : Option OperatorConfiguration)
    (patch : ConfigurationPatch) : Except String OperatorConfiguration := do
  let base ← baseConfiguration current
  throwIf (∃ schema ∈ patch.schema, schema ≠ OPERATOR_CONFIGURATION_SCHEMA)
    "operator configuration patch schema is invalid"
  throwIf (patch.configurationRevision ≠ none)
    "operator configuration patch must not set configurationRevision directly"
  throwIf (patch.pendingEpicDecisions ≠ none)
    "operator configuration patch must not set pendingEpicDecisions directly"
  throwIf (patch.approvalsByCycleDigest ≠ none)
    "operator configuration patch must not set approvalsByCycleDigest directly"
  throwIf (patch.spendLedger ≠ none) "operator configuration patch must not set spendLedger directly"
  throwIf (patch.cycleLedger ≠ none) "operator configuration patch must not set cycleLedger directly"
  let packPlan ← patch.nextPackPlan base
  let next := patch.withCycleCaps ((patch.onto base).withPackPlan packPlan)
  assertOperatorConfiguration (next.withRevision (base.configurationRevision + 1))

/-! ## What is accepted -/

section

variable {c c' : OperatorConfiguration}

namespace OperatorConfiguration

theorem withClaimLimit_eq (c : OperatorConfiguration) :
    c.withClaimLimit = c ∨
      c.withClaimLimit = { c with processClaimLimit6hMicroUsd := some (text "25000000000") } := by
  unfold withClaimLimit
  by_cases hmissing : c.schema = OPERATOR_CONFIGURATION_SCHEMA ∧ c.processClaimLimit6hMicroUsd = none
  · exact .inr (if_pos hmissing)
  · exact .inl (if_neg hmissing)

/-- The default limit changes no field that does not depend on the limit. -/
theorem withClaimLimit_keeps {α : Type} {f : OperatorConfiguration → α}
    (hf : ∀ (c : OperatorConfiguration) limit, f { c with processClaimLimit6hMicroUsd := limit } = f c)
    (c : OperatorConfiguration) : f c.withClaimLimit = f c := by
  rcases c.withClaimLimit_eq with heq | heq
  · rw [heq]
  · rw [heq, hf]

@[simp] theorem withClaimLimit_cycleLedger (c : OperatorConfiguration) :
    c.withClaimLimit.cycleLedger = c.cycleLedger := withClaimLimit_keeps (fun _ _ => rfl) c

@[simp] theorem withClaimLimit_spendLedger (c : OperatorConfiguration) :
    c.withClaimLimit.spendLedger = c.spendLedger := withClaimLimit_keeps (fun _ _ => rfl) c

@[simp] theorem withClaimLimit_maxCyclesPerDay (c : OperatorConfiguration) :
    c.withClaimLimit.maxCyclesPerDay = c.maxCyclesPerDay := withClaimLimit_keeps (fun _ _ => rfl) c

@[simp] theorem withClaimLimit_max24HourBudget (c : OperatorConfiguration) :
    c.withClaimLimit.max24HourBudgetMicroUsd = c.max24HourBudgetMicroUsd :=
  withClaimLimit_keeps (fun _ _ => rfl) c

end OperatorConfiguration

/-- What an accepted document went through. -/
structure AcceptedConfiguration (c : OperatorConfiguration) : Prop where
  encoded : assertExactPlainObject c.toValue = .ok ()
  limit : c.processClaimLimit6hMicroUsd ≠ none
  settings : assertSettings c = .ok ()
  records : assertRecords c = .ok ()

theorem assertOperatorConfiguration_eq_ok :
    assertOperatorConfiguration c = .ok c' ↔
      c' = c.withClaimLimit ∧ AcceptedConfiguration c.withClaimLimit := by
  simp only [assertOperatorConfiguration, bind_eq_ok, revertIf_eq_ok, pure_eq_ok]
  constructor
  · rintro ⟨_, hencoded, _, hlimit, _, hsettings, _, hrecords, hsame⟩
    exact ⟨hsame.symm, hencoded, hlimit, hsettings, hrecords⟩
  · rintro ⟨hsame, h⟩
    exact ⟨(), h.encoded, (), h.limit, (), h.settings, (), h.records, hsame.symm⟩

/-- What was accepted of the records. -/
structure AcceptedRecords (c : OperatorConfiguration) : Prop where
  pending : scan assertPendingEpicDecision [] c.pendingEpicDecisions = .ok ()
  approvals : scan (fun _ => assertApproval) [] c.approvalsByCycleDigest.entries = .ok ()
  cycleLedger : assertCycleLedger c.cycleLedger = .ok ()
  spendLedger : assertSpendLedger c.cycleLedger c.spendLedger = .ok ()
  revision : 0 ≤ c.configurationRevision ∧ c.configurationRevision ≤ maxSafeInteger
  recipients : c.rewardRecipientLimit ∈ REWARD_RECIPIENT_LIMIT_OPTIONS

theorem assertIntegerInRange_eq_ok {value : Int} {label : String} {min max v : Int} :
    assertIntegerInRange value label min max = .ok v ↔ v = value ∧ min ≤ value ∧ value ≤ max := by
  simp only [assertIntegerInRange, bind_eq_ok, revertIf_eq_ok, pure_eq_ok, not_or, not_lt]
  constructor
  · rintro ⟨_, hrange, hsame⟩
    exact ⟨hsame.symm, hrange⟩
  · rintro ⟨hsame, hrange⟩
    exact ⟨(), hrange, hsame.symm⟩

theorem assertRecords_eq_ok : assertRecords c = .ok () ↔ AcceptedRecords c := by
  simp only [assertRecords, assertRewardRecipientLimit, bind_eq_ok, revertIf_eq_ok,
    assertIntegerInRange_eq_ok, not_not]
  constructor
  · rintro ⟨_, hpending, _, happrovals, _, hcycle, _, hspend, _, ⟨-, hrevision⟩, hrecipients⟩
    exact ⟨hpending, happrovals, hcycle, hspend, hrevision, hrecipients⟩
  · intro h
    exact ⟨(), h.pending, (), h.approvals, (), h.cycleLedger, (), h.spendLedger, _,
      ⟨rfl, h.revision⟩, h.recipients⟩

theorem AcceptedConfiguration.acceptedRecords (h : AcceptedConfiguration c) : AcceptedRecords c :=
  assertRecords_eq_ok.mp h.records

/-- An accepted cycle ledger names no cycle and no digest twice. -/
theorem cycleLedger_nodup {ledger : List CycleEntry} (h : assertCycleLedger ledger = .ok ()) :
    (ledger.map CycleEntry.cycleId).Nodup ∧ (ledger.map CycleEntry.cycleDigest).Nodup := by
  have hunseen : ∀ seen e, assertCycleLedgerEntry seen e = .ok () →
      e.cycleId ∉ seen.map CycleEntry.cycleId ∧ e.cycleDigest ∉ seen.map CycleEntry.cycleDigest := by
    intro seen e he
    simp only [assertCycleLedgerEntry, bind_eq_ok, revertIf_eq_ok, not_or] at he
    rcases he with ⟨_, -, _, hunseen, -⟩
    exact hunseen
  constructor
  · exact scan_nodup h fun seen e he => (hunseen seen e he).1
  · exact scan_nodup h fun seen e he => (hunseen seen e he).2

/-- An edit leaves what the engine recorded alone. -/
structure KeepsRecords (c c' : OperatorConfiguration) : Prop where
  pending : c'.pendingEpicDecisions = c.pendingEpicDecisions
  approvals : c'.approvalsByCycleDigest = c.approvalsByCycleDigest
  spendLedger : c'.spendLedger = c.spendLedger
  cycleLedger : c'.cycleLedger = c.cycleLedger

theorem KeepsRecords.trans {c₁ c₂ c₃ : OperatorConfiguration} (h : KeepsRecords c₁ c₂)
    (h' : KeepsRecords c₂ c₃) : KeepsRecords c₁ c₃ :=
  ⟨h'.pending.trans h.pending, h'.approvals.trans h.approvals,
    h'.spendLedger.trans h.spendLedger, h'.cycleLedger.trans h.cycleLedger⟩

theorem withClaimLimit_keepsRecords (c : OperatorConfiguration) :
    KeepsRecords c c.withClaimLimit := by
  rcases c.withClaimLimit_eq with heq | heq <;> rw [heq] <;> exact ⟨rfl, rfl, rfl, rfl⟩

theorem KeepsRecords.limited {c₁ c₂ c₃ : OperatorConfiguration} (h : KeepsRecords c₁ c₂)
    (hlimit : c₃ = c₂.withClaimLimit) : KeepsRecords c₁ c₃ := by
  rw [hlimit]
  exact h.trans (withClaimLimit_keepsRecords c₂)

theorem withCycleCaps_keepsRecords (patch : ConfigurationPatch) (c : OperatorConfiguration) :
    KeepsRecords c (patch.withCycleCaps c) := by
  unfold ConfigurationPatch.withCycleCaps
  split <;> exact ⟨rfl, rfl, rfl, rfl⟩

theorem applyOperatorConfiguration_keepsRecords {current : Option OperatorConfiguration}
    {patch : ConfigurationPatch} {next : OperatorConfiguration}
    (h : applyOperatorConfiguration current patch = .ok next) :
    KeepsRecords (current.getD createDefaultOperatorConfiguration) next := by
  simp only [applyOperatorConfiguration, bind_eq_ok, revertIf_eq_ok, not_not,
    assertOperatorConfiguration_eq_ok] at h
  rcases h with ⟨base, hbase, _, -, _, -, _, hpending, _, happrovals, _, hspend, _, hcycle,
    packPlan, -, hnext, -⟩
  have hstart : KeepsRecords (current.getD createDefaultOperatorConfiguration) base := by
    cases current with
    | none =>
      rw [(assertOperatorConfiguration_eq_ok.mp hbase).1]
      exact withClaimLimit_keepsRecords _
    | some current =>
      rw [(assertOperatorConfiguration_eq_ok.mp hbase).1]
      exact withClaimLimit_keepsRecords _
  have honto : KeepsRecords base ((patch.onto base).withPackPlan packPlan) := by
    unfold OperatorConfiguration.withPackPlan ConfigurationPatch.onto
    rw [hpending, happrovals, hspend, hcycle]
    exact ⟨rfl, rfl, rfl, rfl⟩
  have hcaps := withCycleCaps_keepsRecords patch ((patch.onto base).withPackPlan packPlan)
  have hrevised : KeepsRecords (patch.withCycleCaps ((patch.onto base).withPackPlan packPlan))
      ((patch.withCycleCaps ((patch.onto base).withPackPlan packPlan)).withRevision
        (base.configurationRevision + 1)) := ⟨rfl, rfl, rfl, rfl⟩
  exact (((hstart.trans honto).trans hcaps).trans hrevised).limited hnext

end

end Hookemon.Runner
