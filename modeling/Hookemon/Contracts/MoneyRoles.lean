import Hookemon.Contracts.Basic

/-! # The role accounts (`access/MoneyRoles.sol`)

Two accounts hold authority over the money: the treasury and the operations
account. Each is handed over in two steps, a proposal by the holder and an
acceptance by the successor. Everyone who ever was the treasury stays a treasury
beneficiary.

`_requireOperationsHandoverAvailable` is virtual in the source; its answer is a
computation that the inheriting contract passes in.
-/

namespace Hookemon.Contracts

open Hookemon.Core

/-- The storage of `MoneyRoles`, less the cycle bindings. The mapping
`_treasuryBeneficiaries` to booleans is the set of the addresses mapped to
`true`. -/
structure MoneyRoles where
  treasury : Address
  proposedTreasury : Address
  operations : Address
  proposedOperations : Address
  treasuryBeneficiaries : Finset Address

namespace MoneyRoles

/-- The storage that the constructor leaves. -/
def initial (treasury operations : Address) : MoneyRoles where
  treasury := treasury
  proposedTreasury := 0
  operations := operations
  proposedOperations := 0
  treasuryBeneficiaries := {treasury}

end MoneyRoles

/-- `_validateRoleSuccessor`. -/
def validateRoleSuccessor (self successor currentAccount : Address) : Run Unit :=
  revertIf (successor = 0 ∨ successor = currentAccount ∨ successor = self) .invalidSuccessor

/-- `_authorizeTreasuryControl`. -/
def authorizeTreasuryControl (sender : Address) (r : MoneyRoles) : Run Unit :=
  revertIf (sender ≠ r.treasury) .unauthorizedCaller

/-- `_authorizeProcessClaim`. -/
def authorizeProcessClaim (sender destination : Address) (r : MoneyRoles) : Run Unit := do
  revertIf (sender ≠ r.operations) .unauthorizedCaller
  revertIf (destination ≠ sender) .invalidDestination

/-- `_authorizeProgrammableClaim`. -/
def authorizeProgrammableClaim (sender programmable storedBeneficiary destination : Address) :
    Run Unit := do
  revertIf (storedBeneficiary ≠ programmable) .invalidRoleBeneficiary
  revertIf (sender ≠ storedBeneficiary) .unauthorizedCaller
  revertIf (destination = 0) .invalidDestination

/-- `_authorizeTreasuryClaim`. -/
def authorizeTreasuryClaim (sender storedBeneficiary destination : Address) (r : MoneyRoles) :
    Run Unit := do
  revertIf (storedBeneficiary = 0 ∨ storedBeneficiary ∉ r.treasuryBeneficiaries)
    .invalidRoleBeneficiary
  revertIf (sender ≠ storedBeneficiary) .unauthorizedCaller
  revertIf (destination = 0) .invalidDestination

def proposeTreasury (self sender successor : Address) (r : MoneyRoles) : Run MoneyRoles := do
  revertIf (sender ≠ r.treasury) .unauthorizedCaller
  validateRoleSuccessor self successor r.treasury
  pure { r with proposedTreasury := successor }

def acceptTreasury (sender : Address) (r : MoneyRoles) : Run MoneyRoles := do
  let successor := r.proposedTreasury
  revertIf (successor = 0 ∨ sender ≠ successor) .unauthorizedCaller
  pure { r with
    treasury := successor
    treasuryBeneficiaries := insert successor r.treasuryBeneficiaries
    proposedTreasury := 0 }

def proposeOperations (requireOperationsHandoverAvailable : Run Unit)
    (self sender successor : Address) (r : MoneyRoles) : Run MoneyRoles := do
  requireOperationsHandoverAvailable
  revertIf (sender ≠ r.operations) .unauthorizedCaller
  validateRoleSuccessor self successor r.operations
  pure { r with proposedOperations := successor }

def acceptOperations (requireOperationsHandoverAvailable : Run Unit) (sender : Address)
    (r : MoneyRoles) : Run MoneyRoles := do
  requireOperationsHandoverAvailable
  let successor := r.proposedOperations
  revertIf (successor = 0 ∨ sender ≠ successor) .unauthorizedCaller
  pure { r with operations := successor, proposedOperations := 0 }

/-- `_clearProposedOperations`. -/
def clearProposedOperations (r : MoneyRoles) : MoneyRoles :=
  { r with proposedOperations := 0 }

/-- `_replaceOperationsForEmergencyRotation`. -/
def replaceOperationsForEmergencyRotation (self successor : Address) (r : MoneyRoles) :
    Run MoneyRoles := do
  validateRoleSuccessor self successor r.operations
  pure (clearProposedOperations { r with operations := successor })

/-! ## What the transitions do -/

@[simp] theorem validateRoleSuccessor_eq_ok {self successor currentAccount : Address} {u : Unit} :
    validateRoleSuccessor self successor currentAccount = .ok u ↔
      successor ≠ 0 ∧ successor ≠ currentAccount ∧ successor ≠ self := by
  simp [validateRoleSuccessor, not_or]

theorem proposeTreasury_eq_ok {self sender successor : Address} {r r' : MoneyRoles} :
    proposeTreasury self sender successor r = .ok r' ↔
      sender = r.treasury ∧ (successor ≠ 0 ∧ successor ≠ r.treasury ∧ successor ≠ self) ∧
        r' = { r with proposedTreasury := successor } := by
  simp only [proposeTreasury, bind_eq_ok, revertIf_eq_ok, validateRoleSuccessor_eq_ok, pure_eq_ok,
    exists_const, not_not, eq_comm (b := r')]

theorem acceptTreasury_eq_ok {sender : Address} {r r' : MoneyRoles} :
    acceptTreasury sender r = .ok r' ↔
      (r.proposedTreasury ≠ 0 ∧ sender = r.proposedTreasury) ∧
        r' = { r with
          treasury := r.proposedTreasury
          treasuryBeneficiaries := insert r.proposedTreasury r.treasuryBeneficiaries
          proposedTreasury := 0 } := by
  simp only [acceptTreasury, bind_eq_ok, revertIf_eq_ok, pure_eq_ok, exists_const, not_or, not_not,
    eq_comm (b := r'), ne_eq]

theorem proposeOperations_eq_ok {available : Run Unit} {self sender successor : Address}
    {r r' : MoneyRoles} :
    proposeOperations available self sender successor r = .ok r' ↔
      available = .ok () ∧ sender = r.operations ∧
        (successor ≠ 0 ∧ successor ≠ r.operations ∧ successor ≠ self) ∧
          r' = { r with proposedOperations := successor } := by
  simp only [proposeOperations, bind_eq_ok, revertIf_eq_ok, validateRoleSuccessor_eq_ok,
    pure_eq_ok, exists_const, not_not, eq_comm (b := r')]
  constructor
  · rintro ⟨⟨⟩, h⟩
    exact h
  · intro h
    exact ⟨(), h⟩

theorem acceptOperations_eq_ok {available : Run Unit} {sender : Address} {r r' : MoneyRoles} :
    acceptOperations available sender r = .ok r' ↔
      available = .ok () ∧ (r.proposedOperations ≠ 0 ∧ sender = r.proposedOperations) ∧
        r' = { r with operations := r.proposedOperations, proposedOperations := 0 } := by
  simp only [acceptOperations, bind_eq_ok, revertIf_eq_ok, pure_eq_ok, exists_const, not_or,
    not_not, eq_comm (b := r'), ne_eq]
  constructor
  · rintro ⟨⟨⟩, h⟩
    exact h
  · intro h
    exact ⟨(), h⟩

theorem replaceOperationsForEmergencyRotation_eq_ok {self successor : Address}
    {r r' : MoneyRoles} :
    replaceOperationsForEmergencyRotation self successor r = .ok r' ↔
      (successor ≠ 0 ∧ successor ≠ r.operations ∧ successor ≠ self) ∧
        r' = { r with operations := successor, proposedOperations := 0 } := by
  simp only [replaceOperationsForEmergencyRotation, bind_eq_ok, validateRoleSuccessor_eq_ok,
    pure_eq_ok, exists_const, clearProposedOperations, eq_comm (b := r')]

end Hookemon.Contracts
