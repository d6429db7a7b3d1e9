import Hookemon.Repository.ChainAttempts

/-! # Policy admissions (`automation/policy-engine.mjs`, `config/pack-plan.mjs`)

A cycle is opened under an admission: the packs it buys, what they cost on the settlement
route, and the quotes that fund the purchase from the funding route. The normalizer of the
policy engine checks the amounts, the routes and the identity of every quote; that it also
authenticates the evidence of the quotes is a parameter here.
-/

namespace Hookemon.Repository

open Hookemon.Core Hookemon.Js Hookemon.Runner

structure AdmissionRoute where
  chainId : Text
  assetId : Text
  decimals : Nat
deriving DecidableEq, Repr

/-- The approved accounts and routes of the deployment. -/
structure OperationsAccounts where
  evm : Text
  solana : Text
  fundingRoute : AdmissionRoute
  settlementRoute : AdmissionRoute
deriving DecidableEq, Repr

structure AdmissionAmount where
  chainId : Text
  assetId : Text
  decimals : Nat
  amountAtomic : Text
deriving DecidableEq, Repr

/-- The identity of a quote, for an exact output. -/
structure AdmissionRelay where
  requestId : Text
  orderId : Text
  deadlineUnixSeconds : Nat
  sender : Text
  recipient : Text
  destinationAmount : Text
  destinationMinimumAmount : Text
  quoteDigest : Text
deriving DecidableEq, Repr

structure AdmissionUnit where
  unitPurchase : AdmissionAmount
  unitFundingQuote : AdmissionAmount
  unitRelay : AdmissionRelay
deriving DecidableEq, Repr

inductive AdmissionSchema where
  | v2 | v3 | v4
deriving DecidableEq, Repr

structure PackOrder where
  pack : Text
  quantity : Nat
deriving DecidableEq, Repr

structure PackPlan where
  revision : Nat
  orders : List PackOrder
deriving DecidableEq, Repr

/-- `packId` is of the versions before 4, `packPlan` of version 4; `evidence` is what else the
record carries. -/
structure Admission where
  schema : AdmissionSchema
  cycleId : Text
  packId : Option Text
  packPlan : Option PackPlan
  quantity : Nat
  aggregatePurchase : AdmissionAmount
  aggregateFundingQuote : AdmissionAmount
  relay : AdmissionRelay
  orders : List AdmissionUnit
  evidence : Value
deriving DecidableEq

/-- `Number.isSafeInteger(n) && n > 0`. -/
def isSafePositive (n : Nat) : Bool := 0 < n ∧ n ≤ 9007199254740991

def assertPolicyAdmissionAmount (value : AdmissionAmount) (label : String) : Except String Unit := do
  throwIf (value.chainId.length = 0 ∨ value.assetId.length = 0) (label ++ " asset identity is invalid")
  throwIf (¬ isDecimal value.amountAtomic ∨ textNat value.amountAtomic = 0)
    (label ++ " amountAtomic is invalid")

def assertAdmissionRoute (amount : AdmissionAmount) (expected : AdmissionRoute) (label : String) :
    Except String Unit :=
  throwIf (amount.chainId ≠ expected.chainId ∨
      toLowerCase amount.assetId ≠ toLowerCase expected.assetId ∨ amount.decimals ≠ expected.decimals)
    (label ++ " does not match the canonical asset route")

/-- `^0x[0-9a-fA-F]{64}$`. -/
def isOrderId (s : Text) : Bool := hasShape (text "0x") isHexDigit 64 s

def assertRelayIdentity (operations : OperationsAccounts) (purchase : AdmissionAmount)
    (relay : AdmissionRelay) (label : String) : Except String Unit :=
  throwIf (relay.requestId.length = 0 ∨ ¬ isOrderId relay.orderId ∨
      ¬ isSafePositive relay.deadlineUnixSeconds ∨ toLowerCase relay.sender ≠ operations.evm ∨
      relay.recipient ≠ operations.solana ∨ relay.destinationAmount ≠ purchase.amountAtomic ∨
      relay.destinationMinimumAmount ≠ purchase.amountAtomic ∨ ¬ isDigest relay.quoteDigest)
    (label ++ " exact-output identity is invalid")

/-- One quote of an admission, with the purchase that it pays for. -/
def quoteLeg (operations : OperationsAccounts) (purchase funding : AdmissionAmount)
    (relay : AdmissionRelay) (label : String) : Except String Unit := do
  assertPolicyAdmissionAmount purchase (label ++ " purchase")
  assertPolicyAdmissionAmount funding (label ++ " funding")
  assertAdmissionRoute purchase operations.settlementRoute (label ++ " purchase")
  assertAdmissionRoute funding operations.fundingRoute (label ++ " funding")
  assertRelayIdentity operations purchase relay label

/-- `assertPolicyAdmission`. `authentic` stands for the rest of the normalizer: the evidence and
the digests of the quotes, their valuations, the totals and the liability ceiling. -/
def assertPolicyAdmission (operations : OperationsAccounts)
    (authentic : Admission → Except String Unit) (value : Admission) : Except String Admission := do
  throwIf (value.schema = .v2) "policy admission must use hookemon.policy-admission.v3"
  throwIf (value.orders.length = 0 ∨ (value.schema = .v3 ∧ value.orders.length ≠ 1))
    "policy admission orders must match the nonempty cycle pack plan"
  value.orders.forM fun unit =>
    quoteLeg operations unit.unitPurchase unit.unitFundingQuote unit.unitRelay "unit quote"
  quoteLeg operations value.aggregatePurchase value.aggregateFundingQuote value.relay
    "aggregate quote"
  authentic value
  return value

def assertDurableCycleAdmission (operations : OperationsAccounts)
    (authentic : Admission → Except String Unit) (value : Admission) (cycleId : Text)
    (label : String) : Except String Admission := do
  let normalized ← assertPolicyAdmission operations authentic value
  throwIf (normalized.cycleId ≠ cycleId) (label ++ " does not name this cycle")
  return normalized

section

variable {operations : OperationsAccounts} {authentic : Admission → Except String Unit}

/-- The aggregate quote of an admission is on the routes of the deployment, between its
accounts. -/
structure OnRoute (operations : OperationsAccounts) (value : Admission) : Prop where
  fundingChain : value.aggregateFundingQuote.chainId = operations.fundingRoute.chainId
  fundingAsset : toLowerCase value.aggregateFundingQuote.assetId
    = toLowerCase operations.fundingRoute.assetId
  fundingDecimals : value.aggregateFundingQuote.decimals = operations.fundingRoute.decimals
  sender : toLowerCase value.relay.sender = operations.evm
  recipient : value.relay.recipient = operations.solana

end

end Hookemon.Repository
