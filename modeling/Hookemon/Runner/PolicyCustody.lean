import Hookemon.Js.Record
import Hookemon.Js.Value
import Hookemon.Runner.OperatorConfiguration

/-! # The custody that the policy engine reads (`automation/policy-engine.mjs`)

A projection of all cycles: what was lost, what is at risk and what is outstanding, the
cards still held, and whether something was left out. The engine checks it before every
decision and throws on one that contradicts itself.
-/

namespace Hookemon.Runner

open Hookemon.Core Hookemon.Js

/-! ## Projections -/

/-- A card that a cycle still holds. -/
structure HeldPosition where
  positionId : Text
  cycleId : Text
  costMicroUsd : Text
  valueMicroUsd : Text
  insuredValue : Option Value
  reason : Text
  terminalState : Text
  evidenceDigest : Text
  openedAtMs : Int
  positionRevision : Int
  ownerDecision : Option Value
deriving DecidableEq

structure HeldPositions where
  count : Int
  valueMicroUsd : Text
  positions : List HeldPosition
deriving DecidableEq

structure CustodyProjection where
  realizedLossMicroUsd : Text
  atRiskMicroUsd : Text
  outstandingMicroUsd : Text
  heldAssets : Bool
  heldPositions : HeldPositions
  unattributed : Bool
  unvaluedExposure : Bool
  cycleExposureMicroUsd : Option (Record Text)
deriving DecidableEq

def zeroCustody : CustodyProjection where
  realizedLossMicroUsd := text "0"
  atRiskMicroUsd := text "0"
  outstandingMicroUsd := text "0"
  heldAssets := false
  heldPositions := ⟨0, text "0", []⟩
  unattributed := false
  unvaluedExposure := false
  cycleExposureMicroUsd := none

/-! ## Normalization -/

/-- `assertAmount`. -/
def assertAmount (value : Text) (label : String) : Except String Nat := do
  throwIf (¬ isDecimal value) (label ++ " must be a canonical unsigned decimal string")
  return textNat value

/-- `assertAmount`, of an amount that must be positive. -/
def assertPositiveAmount (value : Text) (label : String) : Except String Nat := do
  let amount ← assertAmount value label
  throwIf (amount = 0) (label ++ " must be positive")
  return amount

/-- The sum over the positions, from the given index on. -/
def positionValue : List HeldPosition → Nat → Except String Nat
  | [], _ => return 0
  | position :: rest, index => do
    let cost ← assertAmount position.costMicroUsd
      (itemLabel "policy custody heldPositions positions" index ++ " costMicroUsd")
    let total ← positionValue rest (index + 1)
    return cost + total

structure NormalizedHeldPositions where
  count : Int
  valueMicroUsd : Nat
deriving DecidableEq, Repr

def normalizeHeldPositions (value : HeldPositions) : Except String NormalizedHeldPositions := do
  throwIf (value.count < 0 ∨ maxSafeInteger < value.count)
    "policy custody heldPositions count is invalid"
  throwIf ((value.positions.length : Int) ≠ value.count)
    "policy custody heldPositions count does not match positions"
  let reportedValue ← assertAmount value.valueMicroUsd "policy custody heldPositions valueMicroUsd"
  let total ← positionValue value.positions 0
  throwIf (total ≠ reportedValue) "policy custody heldPositions value does not match positions"
  return ⟨value.count, reportedValue⟩

/-- The sum over the exposures of the cycles. -/
def totalCycleExposure : List (Text × Text) → Except String Nat
  | [] => return 0
  | (cycleId, amount) :: rest => do
    assertCycleId cycleId "policy cycleId"
    let exposure ← assertAmount amount "policy per-cycle exposure"
    let total ← totalCycleExposure rest
    return exposure + total

structure NormalizedCustody where
  realizedLossMicroUsd : Nat
  atRiskMicroUsd : Nat
  outstandingMicroUsd : Nat
  heldAssets : Bool
  heldPositions : NormalizedHeldPositions
  unattributed : Bool
  unvaluedExposure : Bool
  cycleExposureMicroUsd : Record Text
deriving DecidableEq, Repr

def normalizeCustody (value : CustodyProjection) : Except String NormalizedCustody := do
  let realizedLossMicroUsd ←
    assertAmount value.realizedLossMicroUsd "policy custody realizedLossMicroUsd"
  let atRiskMicroUsd ← assertAmount value.atRiskMicroUsd "policy custody atRiskMicroUsd"
  let outstandingMicroUsd ←
    assertAmount value.outstandingMicroUsd "policy custody outstandingMicroUsd"
  let heldPositions ← normalizeHeldPositions value.heldPositions
  let cycleExposureMicroUsd := value.cycleExposureMicroUsd.getD .empty
  let total ← totalCycleExposure cycleExposureMicroUsd.entries
  throwIf (atRiskMicroUsd < total ∨ outstandingMicroUsd < total)
    "policy per-cycle exposure exceeds aggregate custody"
  return {
    realizedLossMicroUsd := realizedLossMicroUsd
    atRiskMicroUsd := atRiskMicroUsd
    outstandingMicroUsd := outstandingMicroUsd
    heldAssets := value.heldAssets
    heldPositions := heldPositions
    unattributed := value.unattributed
    unvaluedExposure := value.unvaluedExposure
    cycleExposureMicroUsd := cycleExposureMicroUsd }

end Hookemon.Runner
