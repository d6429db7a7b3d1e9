import Hookemon.Runner.ConfigurationBounds
import Hookemon.Runner.PolicyLedgers

/-! # When the policy engine can record

Reservations and approvals only add to the configuration, and the document that results
is validated like any other. The encoding of the document admits 512 items in an array
and 64 fields in an object, and nothing is ever taken out: the ledgers take at most 512
cycles, and the approvals at most 64, over the life of the system.
-/

namespace Hookemon.Runner

open Hookemon.Core Hookemon.Js

/-! ## Extensions of an accepted document -/

section

variable {c : OperatorConfiguration}

theorem withClaimLimit_of_accepted (h : AcceptedConfiguration c) : c.withClaimLimit = c := by
  unfold OperatorConfiguration.withClaimLimit
  rw [if_neg fun hmissing => h.limit hmissing.2]

end

/-! ## What an allowed claim has -/

section

variable {Operations : Type} {env : PolicyEnvironment Operations} {c : OperatorConfiguration}

/-- What is configured was accepted. -/
def Configured (s : PolicyState Operations) : Prop :=
  ∀ c, s.configuration = some c → AcceptedConfiguration c

theorem Configured.write {s : PolicyState Operations} (hs : Configured s) {now : Int}
    {result : Except String OperatorConfiguration}
    (h : ∀ next, result = .ok next → AcceptedConfiguration next) :
    Configured (s.write now result).1 := by
  cases result with
  | error message => exact hs
  | ok next =>
    intro c hconfiguration
    rw [← Option.some.inj hconfiguration]
    exact h next rfl

end

/-- The digest of the sample cycle of this number. -/
def sampleDigest (i : Nat) : Text :=
  text "sha256:" ++ hexOfBytes (List.replicate 31 0 ++ [UInt8.ofNat i])

end Hookemon.Runner
