import Hookemon.Core.ProRata
import Hookemon.Js.Text

/-! # The direct payout plan (`distribution/payout-plan.mjs`)

A cycle's plan shares its pool, the finalized return and the dust of the cycle
before it, among the holders of a frozen eligibility manifest. Amounts are decimal
numerals in the source, and they are here.

The exact-schema checks of the source are the types of the records. The selection
evidence of a manifest is checked by functions of `snapshot-indexer.mjs`, and the
digest of a plan may fail on the limits of the canonical encoding, so these are
parameters (`PlanEnvironment`).
-/

namespace Hookemon.Runner

open Hookemon.Core Hookemon.Js

/-! ## Records -/

/-- `{ chainId, assetId, decimals, amountAtomic }`. -/
structure TypedAmount where
  chainId : Text
  assetId : Text
  decimals : Int
  amountAtomic : Text
deriving DecidableEq, Repr

/-- The number of atomic units. -/
def TypedAmount.atomic (amount : TypedAmount) : Nat := textNat amount.amountAtomic

structure EligibilityEntry where
  recipient : Text
  hkmnBalance : TypedAmount
deriving DecidableEq, Repr

structure Finality where
  policyId : Text
  depth : Text
deriving DecidableEq, Repr

structure Exclusion where
  address : Text
  reason : Text
deriving DecidableEq, Repr

structure LogSource where
  sourceId : Text
  transferLogDigest : Text
  logCount : Int
deriving DecidableEq, Repr

structure LogCompleteness where
  mode : Text
  primary : LogSource
  secondary : Option LogSource
deriving DecidableEq, Repr

/-- The feasibility figures that a plan freezes. -/
structure FeasibilityEnvelope where
  recipientCount : Int
  transactionCount : Int
  maxRecipientCount : Int
  maxTransactionCount : Int
  measuredTransferGas : Text
  maxGasPriceWei : Text
  estimatedNativeFee : TypedAmount
  nativeReserve : TypedAmount
  nativeBalance : TypedAmount
  requiredNativeAmount : TypedAmount
deriving DecidableEq, Repr

structure Feasibility extends FeasibilityEnvelope where
  feasible : Bool
  reason : Option Text
deriving DecidableEq, Repr

/-- What `createEligibilityPayoutManifest` takes, apart from the selection. -/
structure ManifestInput where
  cycleId : Text
  snapshotBlock : Text
  snapshotHash : Text
  finality : Finality
  supply : TypedAmount
  entries : List EligibilityEntry
  exclusions : List Exclusion
  feasibility : Feasibility
  logCompleteness : LogCompleteness
  holderSnapshotDigest : Text
  launchManifestDigest : Text
deriving DecidableEq, Repr

/-- The selection of a manifest: its summary, recognised by the schema, or the full
evidence. -/
inductive SuppliedSelection (Summary Evidence : Type) where
  | summary (value : Summary)
  | evidence (value : Evidence)

/-- The eligibility manifest that a plan is compiled from. -/
structure EligibilityManifest (Summary Evidence : Type) where
  schema : Text
  selection : Option (SuppliedSelection Summary Evidence)
  input : ManifestInput

structure ReturnBinding where
  operations : Text
  assetId : Text
  evidenceDigest : Text
deriving DecidableEq, Repr

structure PreviousDustSource where
  cycleId : Text
  digest : Text
  planDigest : Text
deriving DecidableEq, Repr

/-- The argument of `compileDirectPayoutPlan`. -/
structure PlanRequest (Summary Evidence : Type) where
  cycleId : Text
  eligibilityManifest : EligibilityManifest Summary Evidence
  finalizedReturn : TypedAmount
  previousDust : TypedAmount
  previousDustSource : Option PreviousDustSource
  returnBinding : ReturnBinding
  legacyPlanSchema : Option Text

/-- `DIRECT_PAYOUT_OUTCOME`. -/
inductive PayoutOutcome where
  | allocated
  | nonSpendingNoEligibleHolders
deriving DecidableEq, Repr

structure Allocation where
  recipient : Text
  hkmnBalance : TypedAmount
  amount : TypedAmount
deriving DecidableEq, Repr

/-- The frozen eligibility that a plan carries: `selection` is what the schema of the
plan shows, a summary or the full evidence. -/
structure FrozenEligibility (Summary Evidence : Type) where
  selection : Option (SuppliedSelection Summary Evidence)
  snapshotBlock : Text
  snapshotHash : Text
  finality : Finality
  supply : TypedAmount
  exclusions : List Exclusion
  logCompleteness : LogCompleteness
  holderSnapshotDigest : Text
  launchManifestDigest : Text

/-- The plan before it is signed with its digest. -/
structure UnsignedPlan (Summary Evidence : Type) where
  schema : Text
  cycleId : Text
  eligibility : FrozenEligibility Summary Evidence
  returnEvidence : ReturnBinding
  returnDelta : TypedAmount
  previousDust : TypedAmount
  previousDustSource : Option PreviousDustSource
  distributablePool : TypedAmount
  totalEligibleHkmn : TypedAmount
  allocations : List Allocation
  totalAllocated : TypedAmount
  dust : TypedAmount
  feasibility : FeasibilityEnvelope
  outcome : PayoutOutcome

structure DirectPayoutPlan (Summary Evidence : Type) extends UnsignedPlan Summary Evidence where
  payableRecipientCount : Nat
  planDigest : Text

/-- The functions of other modules that the compiler calls. -/
structure PlanEnvironment (Summary Evidence : Type) where
  assertEligibilitySelection : Evidence → ManifestInput → Except String Evidence
  assertEligibilitySelectionSummary : Summary → ManifestInput → Except String Summary
  summarizeEligibilitySelection : Evidence → Except String Summary
  directPayoutPlanDigest : UnsignedPlan Summary Evidence → Except String Text

/-! ## Field checks -/

abbrev maxUint256 : Nat := 2 ^ 256 - 1
abbrev maxSafeInteger : Int := 2 ^ 53 - 1
abbrev directPayoutRecipientLimit : Nat := 10000

def nativePayoutChainId : Text := text "4663"
def nativeAsset : Text := text "native"
abbrev nativePayoutDecimals : Int := 18

/-- `^(?:[1-9][0-9]*)$`. -/
def isPositiveDecimal (s : Text) : Bool := isDecimal s && s != text "0"

/-- `^0x[0-9a-fA-F]{40}$`. -/
def isAddress (s : Text) : Bool := hasShape (text "0x") isHexDigit 40 s

/-- `^0x[0-9a-f]{40}$`. -/
def isLowerAddress (s : Text) : Bool := hasShape (text "0x") isLowerHexDigit 40 s

/-- `^0x[0-9a-f]{64}$`. -/
def isBlockHash (s : Text) : Bool := hasShape (text "0x") isLowerHexDigit 64 s

/-- `^sha256:[0-9a-f]{64}$`. -/
def isDigest (s : Text) : Bool := hasShape (text "sha256:") isLowerHexDigit 64 s

def zeroEvmAddress : Text := text "0x0000000000000000000000000000000000000000"

def assertDecimalString (value : Text) (label : String) : Except String Unit :=
  throwIf (¬ isDecimal value) (label ++ " must be a canonical decimal string")

/-- `assertDecimalString` with `positive: true`. -/
def assertPositiveDecimal (value : Text) (label : String) : Except String Unit :=
  throwIf (¬ isPositiveDecimal value) (label ++ " must be positive")

def assertRecipient (value : Text) (label : String) : Except String Unit :=
  throwIf (¬ isLowerAddress value ∨ value = zeroEvmAddress)
    (label ++ " must be a canonical nonzero EVM address")

def assertTypedAmount (amount : TypedAmount) (label : String) : Except String TypedAmount := do
  assertPositiveDecimal amount.chainId (label ++ " chainId")
  throwIf (amount.assetId = []) (label ++ " assetId is invalid")
  throwIf (amount.decimals < 0 ∨ 255 < amount.decimals) (label ++ " decimals is invalid")
  assertDecimalString amount.amountAtomic (label ++ " amountAtomic")
  pure amount

def assertLogSource (source : LogSource) (label : String) : Except String LogSource := do
  throwIf (source.sourceId = []) (label ++ " sourceId is invalid")
  throwIf (¬ isDigest source.transferLogDigest) (label ++ " transferLogDigest is invalid")
  throwIf (source.logCount < 0) (label ++ " logCount is invalid")
  pure source

def assertAtomic (value : Text) (label : String) : Except String Text := do
  throwIf (¬ isDecimal value) (label ++ " must be a canonical atomic integer string")
  throwIf (maxUint256 < textNat value) (label ++ " exceeds uint256")
  pure value

def assertAddress (value : Text) (label : String) : Except String Text := do
  throwIf (¬ isAddress value) (label ++ " must be an EVM address")
  pure (toLowerCase value)

def assertNativeAsset (value : Text) : Except String Text := do
  throwIf (value ≠ nativeAsset) "payout asset must be native"
  pure value

/-! ## Amounts -/

def createNativePayoutAmount (assetId amountAtomic : Text) : Except String TypedAmount := do
  let asset ← assertNativeAsset assetId
  let amount ← assertAtomic amountAtomic "native ETH amountAtomic"
  pure ⟨nativePayoutChainId, asset, nativePayoutDecimals, amount⟩

def copyPrincipalAmount (amount : TypedAmount) (label : String) (expectedAssetId : Text) :
    Except String TypedAmount := do
  throwIf (amount.chainId ≠ nativePayoutChainId) (label ++ " chainId must be 4663")
  let configuredAssetId ← assertNativeAsset expectedAssetId
  let assetId ← assertNativeAsset amount.assetId
  throwIf (assetId ≠ configuredAssetId ∨ amount.decimals ≠ nativePayoutDecimals)
    (label ++ " must identify the configured native ETH asset identity on chain 4663 with eighteen decimals")
  createNativePayoutAmount configuredAssetId amount.amountAtomic

def copyNativeAmount (amount : TypedAmount) (label : String) : Except String TypedAmount := do
  throwIf (amount.chainId ≠ nativePayoutChainId) (label ++ " chainId must be 4663")
  throwIf (amount.assetId ≠ nativeAsset ∨ amount.decimals ≠ 18)
    (label ++ " must identify the chain 4663 native asset with eighteen decimals")
  let amountAtomic ← assertAtomic amount.amountAtomic (label ++ " amountAtomic")
  pure ⟨nativePayoutChainId, nativeAsset, 18, amountAtomic⟩

/-- `copyHkmnAmount`: `expected` is the supply, once that is copied. -/
def copyHkmnAmount (amount : TypedAmount) (label : String) (expected : Option TypedAmount) :
    Except String TypedAmount := do
  throwIf (amount.chainId ≠ nativePayoutChainId) (label ++ " chainId must be 4663")
  throwIf (¬ isAddress amount.assetId ∨ amount.decimals < 0 ∨ 255 < amount.decimals)
    (label ++ " must identify a configured HKMN EVM asset")
  let amountAtomic ← assertAtomic amount.amountAtomic (label ++ " amountAtomic")
  throwIf (amountAtomic = text "0") (label ++ " amountAtomic must be positive")
  throwIf (∃ supply ∈ expected,
      toLowerCase amount.assetId ≠ supply.assetId ∨ amount.decimals ≠ supply.decimals)
    (label ++ " must identify the frozen eligibility manifest HKMN asset")
  pure ⟨nativePayoutChainId, toLowerCase amount.assetId, amount.decimals, amountAtomic⟩

/-! ## The eligibility manifest -/

/-- The loop of `assertEligibilityEntries`, from an index and the recipient before it. -/
def assertEligibilityEntries (supply : TypedAmount) :
    Nat → Option Text → List EligibilityEntry → Except String Unit
  | _, _, [] => pure ()
  | index, previousRecipient, entry :: rest => do
    let label := "eligibility manifest entry " ++ toString index
    assertRecipient entry.recipient (label ++ " recipient")
    let hkmnBalance ← assertTypedAmount entry.hkmnBalance (label ++ " hkmnBalance")
    throwIf (hkmnBalance.chainId ≠ supply.chainId ∨ hkmnBalance.assetId ≠ supply.assetId
        ∨ hkmnBalance.decimals ≠ supply.decimals ∨ hkmnBalance.amountAtomic = text "0")
      (label ++ " balance does not match supply")
    throwIf (∃ previous ∈ previousRecipient, entry.recipient ≤ previous)
      "eligibility manifest entries must be address-sorted and unique"
    assertEligibilityEntries supply (index + 1) (some entry.recipient) rest

/-- The loop of `assertExclusions`. -/
def assertExclusions : Nat → Option Text → List Exclusion → Except String Unit
  | _, _, [] => pure ()
  | index, previousAddress, exclusion :: rest => do
    let label := "eligibility manifest exclusion " ++ toString index
    throwIf (¬ isLowerAddress exclusion.address) (label ++ " address is invalid")
    throwIf (exclusion.reason = []) (label ++ " reason is invalid")
    throwIf (∃ previous ∈ previousAddress, exclusion.address ≤ previous)
      "eligibility manifest exclusions must be address-sorted and unique"
    assertExclusions (index + 1) (some exclusion.address) rest

/-- One of the four native amounts of the feasibility, against the chain of the supply. -/
def assertSnapshotNative (supply amount : TypedAmount) (field : String) : Except String Unit :=
  throwIf (amount.chainId ≠ supply.chainId ∨ amount.assetId ≠ nativeAsset ∨ amount.decimals ≠ 18)
    ("eligibility manifest feasibility " ++ field
      ++ " is not a native amount for the snapshot chain")

/-- The checks of `createEligibilityPayoutManifest` on the feasibility. -/
def assertFeasibility (supply : TypedAmount) (entryCount : Nat) (f : Feasibility) :
    Except String Unit := do
  let label := "eligibility manifest feasibility "
  throwIf (f.recipientCount < 0) (label ++ "recipientCount is invalid")
  throwIf (f.transactionCount < 0) (label ++ "transactionCount is invalid")
  throwIf (f.maxRecipientCount < 0) (label ++ "maxRecipientCount is invalid")
  throwIf (f.maxTransactionCount < 0) (label ++ "maxTransactionCount is invalid")
  throwIf (f.recipientCount ≠ entryCount ∨ f.transactionCount ≠ entryCount)
    (label ++ "counts do not match entries")
  assertPositiveDecimal f.measuredTransferGas (label ++ "measuredTransferGas")
  assertPositiveDecimal f.maxGasPriceWei (label ++ "maxGasPriceWei")
  let estimatedNativeFee ← assertTypedAmount f.estimatedNativeFee (label ++ "estimatedNativeFee")
  let nativeReserve ← assertTypedAmount f.nativeReserve (label ++ "nativeReserve")
  let nativeBalance ← assertTypedAmount f.nativeBalance (label ++ "nativeBalance")
  let requiredNativeAmount ←
    assertTypedAmount f.requiredNativeAmount (label ++ "requiredNativeAmount")
  assertSnapshotNative supply estimatedNativeFee "estimatedNativeFee"
  assertSnapshotNative supply nativeReserve "nativeReserve"
  assertSnapshotNative supply nativeBalance "nativeBalance"
  assertSnapshotNative supply requiredNativeAmount "requiredNativeAmount"
  throwIf (f.reason = some []) (label ++ "reason is invalid")

/-- The checks of `createEligibilityPayoutManifest` on the log sources. -/
def assertLogCompleteness (l : LogCompleteness) : Except String Unit := do
  throwIf (l.mode ≠ text "dual-source" ∧ l.mode ≠ text "single-source-explicitly-allowed")
    "eligibility manifest logCompleteness mode is invalid"
  let _ ← assertLogSource l.primary "eligibility manifest primary log source"
  let _ ← l.secondary.mapM (assertLogSource · "eligibility manifest secondary log source")
  throwIf (¬ (l.mode = text "dual-source" ↔ l.secondary.isSome))
    "eligibility manifest logCompleteness source mode is inconsistent"
  throwIf (∃ secondary ∈ l.secondary, secondary.sourceId = l.primary.sourceId
      ∨ secondary.transferLogDigest ≠ l.primary.transferLogDigest)
    "eligibility manifest dual-source evidence must use distinct matching sources"

section

variable {Summary Evidence : Type} (env : PlanEnvironment Summary Evidence)

/-- `createEligibilityPayoutManifest`: the input is checked and kept as it is; the
result is the checked selection. -/
def createEligibilityPayoutManifest (input : ManifestInput) (selection : Option Evidence) :
    Except String (Option Evidence) := do
  throwIf (input.cycleId = []) "eligibility manifest cycleId is invalid"
  assertDecimalString input.snapshotBlock "eligibility manifest snapshotBlock"
  throwIf (¬ isBlockHash input.snapshotHash) "eligibility manifest snapshotHash is invalid"
  throwIf (input.finality.policyId = []) "eligibility manifest finality policyId is invalid"
  assertPositiveDecimal input.finality.depth "eligibility manifest finality depth"
  let supply ← assertTypedAmount input.supply "eligibility manifest supply"
  assertEligibilityEntries supply 0 none input.entries
  assertExclusions 0 none input.exclusions
  assertFeasibility supply input.entries.length input.feasibility
  assertLogCompleteness input.logCompleteness
  throwIf (¬ isDigest input.holderSnapshotDigest)
    "eligibility manifest holderSnapshotDigest is invalid"
  throwIf (¬ isDigest input.launchManifestDigest)
    "eligibility manifest launchManifestDigest is invalid"
  selection.mapM (env.assertEligibilitySelection · input)

/-- The loop of `normalizeEntries`, with the recipients seen so far. -/
def normalizeEntriesFrom (supply : TypedAmount) :
    Nat → List Text → List EligibilityEntry → Except String (List EligibilityEntry)
  | _, _, [] => pure []
  | index, recipients, entry :: rest => do
    let label := "eligibility manifest entry " ++ toString index
    let recipient ← assertAddress entry.recipient (label ++ " recipient")
    throwIf (recipient ∈ recipients) "eligibility manifest recipients must be unique"
    let hkmnBalance ← copyHkmnAmount entry.hkmnBalance (label ++ " hkmnBalance") (some supply)
    let others ← normalizeEntriesFrom supply (index + 1) (recipient :: recipients) rest
    pure (⟨recipient, hkmnBalance⟩ :: others)

def normalizeEntries (entries : List EligibilityEntry) (supply : TypedAmount) :
    Except String (List EligibilityEntry) := do
  let normalized ← normalizeEntriesFrom supply 0 [] entries
  pure (normalized.insertionSort fun left right => left.recipient ≤ right.recipient)

/-- The sum of the balances of some entries. -/
def totalBalance (entries : List EligibilityEntry) : Nat :=
  (entries.map fun entry => entry.hkmnBalance.atomic).sum

/-- The checks of `normalizeEligibilityManifest` on the feasibility. -/
def normalizeFeasibility (entryCount : Nat) (f : Feasibility) :
    Except String FeasibilityEnvelope := do
  let label := "eligibility manifest feasibility "
  throwIf (f.feasible ≠ true) ("eligibility manifest feasibility must pass before payout"
    ++ (f.reason.elim "" fun reason => ": " ++ String.ofList (reason.map fun c => Char.ofNat c.toNat)))
  throwIf (maxSafeInteger < f.recipientCount ∨ f.recipientCount < 0)
    (label ++ "recipientCount is invalid")
  throwIf (maxSafeInteger < f.transactionCount ∨ f.transactionCount < 0)
    (label ++ "transactionCount is invalid")
  throwIf (maxSafeInteger < f.maxRecipientCount ∨ f.maxRecipientCount < 0)
    (label ++ "maxRecipientCount is invalid")
  throwIf (maxSafeInteger < f.maxTransactionCount ∨ f.maxTransactionCount < 0)
    (label ++ "maxTransactionCount is invalid")
  throwIf (f.recipientCount ≠ entryCount ∨ f.transactionCount ≠ entryCount)
    (label ++ "counts do not match its frozen entries")
  throwIf (f.maxRecipientCount < entryCount ∨ f.maxTransactionCount < entryCount)
    (label ++ "envelope cannot support every frozen recipient")
  throwIf (¬ isPositiveDecimal f.measuredTransferGas) (label ++ "measuredTransferGas is invalid")
  throwIf (¬ isPositiveDecimal f.maxGasPriceWei) (label ++ "maxGasPriceWei is invalid")
  let estimatedNativeFee ← copyNativeAmount f.estimatedNativeFee (label ++ "estimatedNativeFee")
  let nativeReserve ← copyNativeAmount f.nativeReserve (label ++ "nativeReserve")
  let nativeBalance ← copyNativeAmount f.nativeBalance (label ++ "nativeBalance")
  let requiredNativeAmount ←
    copyNativeAmount f.requiredNativeAmount (label ++ "requiredNativeAmount")
  let expectedEstimatedNativeFee : Int :=
    f.transactionCount * textNat f.measuredTransferGas * textNat f.maxGasPriceWei
  let expectedRequiredNativeAmount : Int := expectedEstimatedNativeFee + nativeReserve.atomic
  throwIf (estimatedNativeFee.atomic ≠ expectedEstimatedNativeFee
      ∨ requiredNativeAmount.atomic ≠ expectedRequiredNativeAmount
      ∨ nativeBalance.atomic < requiredNativeAmount.atomic)
    "eligibility manifest native-balance feasibility envelope is inconsistent"
  pure { f.toFeasibilityEnvelope with
    estimatedNativeFee, nativeReserve, nativeBalance, requiredNativeAmount }

/-- What `normalizeEligibilityManifest` returns. -/
structure Eligibility (Summary Evidence : Type) where
  selection : Option Summary
  fullSelection : Option Evidence
  snapshotBlock : Text
  snapshotHash : Text
  finality : Finality
  supply : TypedAmount
  exclusions : List Exclusion
  logCompleteness : LogCompleteness
  holderSnapshotDigest : Text
  launchManifestDigest : Text
  entries : List EligibilityEntry
  feasibility : FeasibilityEnvelope

def manifestSchemaV1 : Text := text "hookemon.eligibility-payout-manifest.v1"
def manifestSchemaV2 : Text := text "hookemon.eligibility-payout-manifest.v2"

/-- The selection branches of `normalizeEligibilityManifest`. -/
def normalizeSelection (input : ManifestInput) :
    Option (SuppliedSelection Summary Evidence) →
      Except String (Option Summary × Option Evidence)
  | some (.summary value) => do
    let _ ← createEligibilityPayoutManifest env input none
    let selection ← env.assertEligibilitySelectionSummary value input
    pure (some selection, none)
  | some (.evidence value) => do
    let fullSelection ← createEligibilityPayoutManifest env input (some value)
    let selection ← fullSelection.mapM env.summarizeEligibilitySelection
    pure (selection, fullSelection)
  | none => do
    let _ ← createEligibilityPayoutManifest env input none
    pure (none, none)

def normalizeEligibilityManifest (manifest : EligibilityManifest Summary Evidence)
    (cycleId : Text) : Except String (Eligibility Summary Evidence) := do
  let input := manifest.input
  throwIf (manifest.schema ≠ manifestSchemaV1 ∧ manifest.schema ≠ manifestSchemaV2)
    "eligibility manifest schema is invalid"
  throwIf (¬ (manifest.schema = manifestSchemaV2 ↔ manifest.selection.isSome))
    "eligibility manifest schema does not match selection evidence"
  let (selection, fullSelection) ← normalizeSelection env input manifest.selection
  throwIf (input.cycleId ≠ cycleId) "eligibility manifest cycleId does not match payout cycleId"
  let supply ← copyHkmnAmount input.supply "eligibility manifest supply" none
  let entries ← normalizeEntries input.entries supply
  throwIf (directPayoutRecipientLimit < entries.length)
    "direct payout supports at most 10000 recipients"
  throwIf (supply.atomic < totalBalance entries)
    "eligibility manifest aggregate eligible balance exceeds frozen gross supply"
  let exclusions := input.exclusions.map fun exclusion =>
    { exclusion with address := toLowerCase exclusion.address }
  throwIf (∃ entry ∈ entries, entry.recipient ∈ exclusions.map Exclusion.address)
    "eligibility manifest includes a recipient from its frozen exclusions"
  let feasibility ← normalizeFeasibility entries.length input.feasibility
  pure {
    selection, fullSelection, supply, exclusions, entries, feasibility
    snapshotBlock := input.snapshotBlock
    snapshotHash := toLowerCase input.snapshotHash
    finality := input.finality
    logCompleteness := input.logCompleteness
    holderSnapshotDigest := input.holderSnapshotDigest
    launchManifestDigest := input.launchManifestDigest }

/-! ## The plan -/

def normalizeReturnBinding (binding : ReturnBinding) : Except String ReturnBinding := do
  throwIf (¬ isDigest binding.evidenceDigest) "finalized return binding evidenceDigest is invalid"
  let operations ← assertAddress binding.operations "finalized return binding Operations address"
  let assetId ← assertNativeAsset binding.assetId
  pure ⟨operations, assetId, binding.evidenceDigest⟩

def normalizePreviousDustSource (value : Option PreviousDustSource) (previousDust : TypedAmount) :
    Except String (Option PreviousDustSource) :=
  match value with
  | none => do
    throwIf (previousDust.amountAtomic ≠ text "0")
      "previous dust source is required when previous dust is nonzero"
    pure none
  | some source => do
    throwIf (previousDust.amountAtomic = text "0")
      "previous dust source must be null when previous dust is zero"
    throwIf (source.cycleId = []) "previous dust source cycleId is invalid"
    throwIf (¬ isDigest source.digest) "previous dust source digest is invalid"
    throwIf (¬ isDigest source.planDigest) "previous dust source planDigest is invalid"
    pure (some source)

/-- A recipient and the amount it is to be paid. -/
structure Candidate where
  recipient : Text
  hkmnBalance : TypedAmount
  amountAtomic : Nat
deriving DecidableEq, Repr

/-- The candidates of a pool: none when nobody is eligible. -/
def payoutCandidates (entries : List EligibilityEntry) (distributablePool : Nat) :
    List Candidate :=
  let totalEligibleHkmn := totalBalance entries
  if totalEligibleHkmn = 0 then []
  else entries.map fun entry => {
    recipient := entry.recipient
    hkmnBalance := entry.hkmnBalance
    amountAtomic := entry.hkmnBalance.atomic * distributablePool / totalEligibleHkmn }

def allocateCandidate (assetId : Text) (candidate : Candidate) : Except String Allocation := do
  let amount ← createNativePayoutAmount assetId (natText candidate.amountAtomic)
  pure ⟨candidate.recipient, candidate.hkmnBalance, amount⟩

def planSchemaV2 : Text := text "hookemon.direct-payout-plan.v2"
def planSchemaV3 : Text := text "hookemon.direct-payout-plan.v3"
def planSchemaV4 : Text := text "hookemon.direct-payout-plan.v4"

def compileDirectPayoutPlan (request : PlanRequest Summary Evidence) :
    Except String (DirectPayoutPlan Summary Evidence) := do
  throwIf (request.cycleId = []) "payout plan cycleId is invalid"
  let eligibility ← normalizeEligibilityManifest env request.eligibilityManifest request.cycleId
  let returnEvidence ← normalizeReturnBinding request.returnBinding
  let returnDelta ←
    copyPrincipalAmount request.finalizedReturn "finalized return" returnEvidence.assetId
  let carryInDust ←
    copyPrincipalAmount request.previousDust "previous dust" returnEvidence.assetId
  let carryInDustSource ← normalizePreviousDustSource request.previousDustSource carryInDust
  let distributablePool := returnDelta.atomic + carryInDust.atomic
  throwIf (maxUint256 < distributablePool) "direct payout distributable pool exceeds uint256"
  let totalEligibleHkmn := totalBalance eligibility.entries
  let outcome := if totalEligibleHkmn = 0 then PayoutOutcome.nonSpendingNoEligibleHolders
    else .allocated
  let candidates := payoutCandidates eligibility.entries distributablePool
  let flooredTotal := (candidates.map Candidate.amountAtomic).sum
  let dustAtomic := distributablePool - flooredTotal
  let allocations ←
    (candidates.insertionSort fun left right => left.recipient ≤ right.recipient).mapM
      (allocateCandidate returnEvidence.assetId)
  let totalAllocatedAtomic := (allocations.map fun allocation => allocation.amount.atomic).sum
  let dust ← createNativePayoutAmount returnEvidence.assetId (natText dustAtomic)
  let distributable ←
    createNativePayoutAmount returnEvidence.assetId (natText distributablePool)
  let totalAllocated ←
    createNativePayoutAmount returnEvidence.assetId (natText totalAllocatedAtomic)
  let selection := if request.legacyPlanSchema = some planSchemaV3 then
      eligibility.fullSelection.map SuppliedSelection.evidence
    else eligibility.selection.map SuppliedSelection.summary
  let unsigned : UnsignedPlan Summary Evidence := {
    schema := request.legacyPlanSchema.getD
      (if eligibility.selection.isSome then planSchemaV4 else planSchemaV2)
    cycleId := request.cycleId
    eligibility := {
      selection
      snapshotBlock := eligibility.snapshotBlock
      snapshotHash := eligibility.snapshotHash
      finality := eligibility.finality
      supply := eligibility.supply
      exclusions := eligibility.exclusions
      logCompleteness := eligibility.logCompleteness
      holderSnapshotDigest := eligibility.holderSnapshotDigest
      launchManifestDigest := eligibility.launchManifestDigest }
    returnEvidence
    returnDelta
    previousDust := carryInDust
    previousDustSource := carryInDustSource
    distributablePool := distributable
    totalEligibleHkmn := { eligibility.supply with amountAtomic := natText totalEligibleHkmn }
    allocations
    totalAllocated
    dust
    feasibility := eligibility.feasibility
    outcome }
  let planDigest ← env.directPayoutPlanDigest unsigned
  pure { unsigned with
    payableRecipientCount :=
      (allocations.filter fun allocation => allocation.amount.amountAtomic != text "0").length
    planDigest }

/-! ## What the checks establish -/

variable {env}

theorem assertAtomic_eq_ok {value : Text} {label : String} {v : Text} :
    assertAtomic value label = .ok v ↔ isDecimal value ∧ textNat value ≤ maxUint256 ∧ v = value := by
  simp only [assertAtomic, bind_eq_ok, revertIf_eq_ok, pure_eq_ok, Decidable.not_not, Nat.not_lt]
  constructor
  · rintro ⟨_, hdecimal, _, hle, rfl⟩
    exact ⟨hdecimal, hle, rfl⟩
  · rintro ⟨hdecimal, hle, rfl⟩
    exact ⟨(), hdecimal, (), hle, rfl⟩

theorem assertNativeAsset_eq_ok {value v : Text} :
    assertNativeAsset value = .ok v ↔ value = nativeAsset ∧ v = nativeAsset := by
  simp only [assertNativeAsset, bind_eq_ok, revertIf_eq_ok, pure_eq_ok, exists_and_left,
    exists_const, Decidable.not_not]
  constructor
  · rintro ⟨rfl, rfl⟩
    exact ⟨rfl, rfl⟩
  · rintro ⟨rfl, rfl⟩
    exact ⟨rfl, rfl⟩

theorem createNativePayoutAmount_eq_ok {assetId amountAtomic : Text} {a : TypedAmount} :
    createNativePayoutAmount assetId amountAtomic = .ok a ↔
      assetId = nativeAsset ∧ isDecimal amountAtomic ∧ textNat amountAtomic ≤ maxUint256 ∧
        a = ⟨nativePayoutChainId, nativeAsset, nativePayoutDecimals, amountAtomic⟩ := by
  simp only [createNativePayoutAmount, bind_eq_ok, assertNativeAsset_eq_ok, assertAtomic_eq_ok,
    pure_eq_ok]
  constructor
  · rintro ⟨_, ⟨hasset, rfl⟩, _, ⟨hdecimal, hle, rfl⟩, rfl⟩
    exact ⟨hasset, hdecimal, hle, rfl⟩
  · rintro ⟨hasset, hdecimal, hle, rfl⟩
    exact ⟨_, ⟨hasset, rfl⟩, _, ⟨hdecimal, hle, rfl⟩, rfl⟩

/-- The amount of a number that fits. -/
theorem createNativePayoutAmount_natText {assetId : Text} {n : Nat} {a : TypedAmount}
    (h : createNativePayoutAmount assetId (natText n) = .ok a) : a.atomic = n := by
  obtain ⟨-, -, -, rfl⟩ := createNativePayoutAmount_eq_ok.mp h
  exact textNat_natText n

/-- A principal amount that is accepted is copied as it is. -/
theorem copyPrincipalAmount_ok {amount a : TypedAmount} {label : String} {expectedAssetId : Text}
    (h : copyPrincipalAmount amount label expectedAssetId = .ok a) : a = amount := by
  simp only [copyPrincipalAmount, bind_eq_ok, revertIf_eq_ok, Decidable.not_not,
    assertNativeAsset_eq_ok, createNativePayoutAmount_eq_ok] at h
  obtain ⟨_, hchain, _, ⟨-, rfl⟩, _, ⟨hasset, rfl⟩, _, hidentity, -, -, -, rfl⟩ := h
  obtain ⟨chainId, assetId, decimals, amountAtomic⟩ := amount
  have hdecimals : decimals = nativePayoutDecimals := by
    by_contra hne
    exact hidentity (Or.inr hne)
  simp only at hchain hasset
  rw [hchain, hasset, hdecimals]

/-- Every native amount that fits a word is accepted. -/
theorem copyPrincipalAmount_native {amountAtomic : Text} (label : String)
    (hdecimal : isDecimal amountAtomic) (hle : textNat amountAtomic ≤ maxUint256) :
    copyPrincipalAmount ⟨nativePayoutChainId, nativeAsset, nativePayoutDecimals, amountAtomic⟩
        label nativeAsset
      = .ok ⟨nativePayoutChainId, nativeAsset, nativePayoutDecimals, amountAtomic⟩ := by
  simp only [copyPrincipalAmount, bind_eq_ok, revertIf_eq_ok, assertNativeAsset_eq_ok,
    createNativePayoutAmount_eq_ok]
  simp [hdecimal, hle]

theorem copyHkmnAmount_ok {amount a : TypedAmount} {label : String} {expected : Option TypedAmount}
    (h : copyHkmnAmount amount label expected = .ok a) :
    a.atomic = amount.atomic ∧ 0 < a.atomic := by
  simp only [copyHkmnAmount, bind_eq_ok, revertIf_eq_ok, assertAtomic_eq_ok, pure_eq_ok] at h
  obtain ⟨_, -, _, -, v, ⟨hdecimal, -, rfl⟩, _, hne, _, -, rfl⟩ := h
  refine ⟨rfl, Nat.pos_of_ne_zero fun hzero => hne ?_⟩
  -- the only numeral of zero is "0"
  have htext : isDecimal (text "0") := by decide
  exact textNat_inj hdecimal htext (hzero.trans (by decide))

/-- What is left of an entry: who it is for and how much it weighs. -/
def EligibilityEntry.weighed (entry : EligibilityEntry) : Text × Nat :=
  (toLowerCase entry.recipient, entry.hkmnBalance.atomic)

theorem normalizeEntriesFrom_ok {supply : TypedAmount} {entries : List EligibilityEntry} :
    ∀ {index : Nat} {recipients : List Text} {normalized : List EligibilityEntry},
      normalizeEntriesFrom supply index recipients entries = .ok normalized →
      normalized.map (fun e => (e.recipient, e.hkmnBalance.atomic))
          = entries.map EligibilityEntry.weighed
        ∧ ∀ e ∈ normalized, 0 < e.hkmnBalance.atomic := by
  induction entries with
  | nil =>
    intro index recipients normalized h
    simp only [normalizeEntriesFrom, pure_eq_ok] at h
    subst h
    simp
  | cons entry rest ih =>
    intro index recipients normalized h
    simp only [normalizeEntriesFrom, assertAddress, bind_eq_ok, revertIf_eq_ok, pure_eq_ok] at h
    obtain ⟨_, ⟨_, -, rfl⟩, _, -, balance, hbalance, others, hothers, rfl⟩ := h
    obtain ⟨hsame, hpos⟩ := copyHkmnAmount_ok hbalance
    obtain ⟨hmap, hall⟩ := ih hothers
    constructor
    · rw [List.map_cons, List.map_cons, hmap, EligibilityEntry.weighed, hsame]
    · intro e he
      rcases List.mem_cons.mp he with rfl | htail
      · exact hpos
      · exact hall e htail

theorem normalizeEntries_ok {supply : TypedAmount} {entries normalized : List EligibilityEntry}
    (h : normalizeEntries entries supply = .ok normalized) :
    (normalized.map fun e => (e.recipient, e.hkmnBalance.atomic)).Perm
        (entries.map EligibilityEntry.weighed)
      ∧ ∀ e ∈ normalized, 0 < e.hkmnBalance.atomic := by
  simp only [normalizeEntries, bind_eq_ok, pure_eq_ok] at h
  obtain ⟨unsorted, hunsorted, rfl⟩ := h
  obtain ⟨hmap, hpos⟩ := normalizeEntriesFrom_ok hunsorted
  have hperm := List.perm_insertionSort
    (fun left right : EligibilityEntry => left.recipient ≤ right.recipient) unsorted
  constructor
  · rw [← hmap]
    exact hperm.map _
  · intro e he
    exact hpos e (hperm.mem_iff.mp he)

theorem normalizeEligibilityManifest_entries
    {manifest : EligibilityManifest Summary Evidence} {cycleId : Text}
    {eligibility : Eligibility Summary Evidence}
    (h : normalizeEligibilityManifest env manifest cycleId = .ok eligibility) :
    (eligibility.entries.map fun e => (e.recipient, e.hkmnBalance.atomic)).Perm
        (manifest.input.entries.map EligibilityEntry.weighed)
      ∧ ∀ e ∈ eligibility.entries, 0 < e.hkmnBalance.atomic := by
  simp only [normalizeEligibilityManifest, bind_eq_ok, pure_eq_ok] at h
  obtain ⟨_, -, _, -, selections, -, _, -, supply, -, entries, hentries, _, -, _, -, _, -, _, -,
    rfl⟩ := h
  exact normalizeEntries_ok hentries

/-- Everybody eligible has a positive balance, so there is nothing to weigh by
exactly when nobody is eligible. -/
theorem totalBalance_eq_zero {entries : List EligibilityEntry}
    (hpos : ∀ e ∈ entries, 0 < e.hkmnBalance.atomic) :
    totalBalance entries = 0 ↔ entries = [] := by
  constructor
  · intro hzero
    cases entries with
    | nil => rfl
    | cons e rest =>
      have he := hpos e (by simp)
      simp only [totalBalance, List.map_cons, List.sum_cons] at hzero
      omega
  · rintro rfl
    rfl

/-! ## Sharing the pool -/

theorem payoutCandidates_nil (pool : Nat) : payoutCandidates [] pool = [] := rfl

/-- The amounts of the candidates are the floored shares of the pool. -/
theorem payoutCandidates_sum {entries : List EligibilityEntry} (pool : Nat)
    (hpos : 0 < totalBalance entries) :
    ((payoutCandidates entries pool).map Candidate.amountAtomic).sum
      = sharedOut (fun e : EligibilityEntry => e.hkmnBalance.atomic) pool entries := by
  rw [payoutCandidates, if_neg (Nat.ne_of_gt hpos), List.map_map]
  rfl

theorem payoutCandidates_sum_le (entries : List EligibilityEntry) (pool : Nat) :
    ((payoutCandidates entries pool).map Candidate.amountAtomic).sum ≤ pool := by
  by_cases hzero : totalBalance entries = 0
  · simp [payoutCandidates, hzero]
  · have hpos : 0 < totalBalance entries := Nat.pos_of_ne_zero hzero
    rw [payoutCandidates_sum pool hpos]
    exact sharedOut_le hpos

/-- An allocation is its candidate with a typed amount. -/
def Allocation.candidate (allocation : Allocation) : Candidate :=
  ⟨allocation.recipient, allocation.hkmnBalance, allocation.amount.atomic⟩

theorem allocateCandidates_ok {assetId : Text} {candidates : List Candidate} :
    ∀ {allocations : List Allocation},
      candidates.mapM (allocateCandidate assetId) = .ok allocations →
        allocations.map Allocation.candidate = candidates := by
  induction candidates with
  | nil =>
    intro allocations h
    simp only [List.mapM_nil, pure_eq_ok] at h
    subst h
    rfl
  | cons candidate rest ih =>
    intro allocations h
    simp only [List.mapM_cons, allocateCandidate, bind_eq_ok, pure_eq_ok] at h
    obtain ⟨allocation, ⟨amount, hamount, rfl⟩, others, hothers, rfl⟩ := h
    rw [List.map_cons, ih hothers, Allocation.candidate,
      createNativePayoutAmount_natText hamount]

/-- The allocations of a plan are its candidates, in the order of their addresses. -/
theorem allocations_perm {assetId : Text} {candidates : List Candidate}
    {allocations : List Allocation}
    (h : (candidates.insertionSort fun left right => left.recipient ≤ right.recipient).mapM
      (allocateCandidate assetId) = .ok allocations) :
    (allocations.map Allocation.candidate).Perm candidates := by
  rw [allocateCandidates_ok h]
  exact List.perm_insertionSort _ _

/-! ## The accounts of one plan -/

/-- What a plan does with its pool. -/
structure PlanAccounts (request : PlanRequest Summary Evidence)
    (plan : DirectPayoutPlan Summary Evidence) : Prop where
  /-- The plan records the return and the dust that it was given. -/
  returnDelta : plan.returnDelta = request.finalizedReturn
  previousDust : plan.previousDust = request.previousDust
  /-- The weights are the balances of the manifest. -/
  eligible : plan.totalEligibleHkmn.atomic
    = totalBalance request.eligibilityManifest.input.entries
  /-- Nobody is left out of a pool that is shared, and nobody is paid twice. -/
  recipients : request.eligibilityManifest.input.entries ≠ [] →
    (plan.allocations.map fun a => (a.recipient, a.hkmnBalance.atomic)).Perm
      (request.eligibilityManifest.input.entries.map EligibilityEntry.weighed)
  /-- Every allocation is a floored share of the pool. -/
  floors : ∀ a ∈ plan.allocations,
    a.amount.atomic = a.hkmnBalance.atomic
      * (request.finalizedReturn.atomic + request.previousDust.atomic)
      / plan.totalEligibleHkmn.atomic
  totalAllocated : plan.totalAllocated.atomic
    = (plan.allocations.map fun a => a.amount.atomic).sum
  /-- Nothing is created or lost. -/
  conserved : plan.totalAllocated.atomic + plan.dust.atomic
    = request.finalizedReturn.atomic + request.previousDust.atomic
  /-- The dust is less than a unit a recipient, or everything where there is none. -/
  dust_lt : request.eligibilityManifest.input.entries ≠ [] →
    plan.dust.atomic < request.eligibilityManifest.input.entries.length
  dust_all : request.eligibilityManifest.input.entries = [] →
    plan.dust.atomic = request.finalizedReturn.atomic + request.previousDust.atomic

/-- The balances that were weighed are the balances of the manifest. -/
theorem totalBalance_of_perm {entries normalized : List EligibilityEntry}
    (h : (normalized.map fun e => (e.recipient, e.hkmnBalance.atomic)).Perm
      (entries.map EligibilityEntry.weighed)) :
    totalBalance normalized = totalBalance entries ∧ normalized.length = entries.length := by
  constructor
  · have hsecond := (h.map Prod.snd).sum_eq
    rw [List.map_map, List.map_map] at hsecond
    exact hsecond
  · simpa using h.length_eq

/-- A candidate carries its share and the entry it is for. -/
theorem mem_payoutCandidates {entries : List EligibilityEntry} {pool : Nat} {c : Candidate}
    (hc : c ∈ payoutCandidates entries pool) :
    c.amountAtomic = c.hkmnBalance.atomic * pool / totalBalance entries := by
  by_cases hzero : totalBalance entries = 0
  · simp [payoutCandidates, hzero] at hc
  · rw [payoutCandidates, if_neg hzero] at hc
    obtain ⟨e, -, rfl⟩ := List.mem_map.mp hc
    rfl

theorem payoutCandidates_weighed {entries : List EligibilityEntry} (pool : Nat)
    (hpos : 0 < totalBalance entries) :
    (payoutCandidates entries pool).map (fun c => (c.recipient, c.hkmnBalance.atomic))
      = entries.map fun e => (e.recipient, e.hkmnBalance.atomic) := by
  rw [payoutCandidates, if_neg (Nat.ne_of_gt hpos), List.map_map]
  rfl

/-- The allocations add up to what the candidates add up to. -/
theorem sum_of_candidates {allocations : List Allocation} {candidates : List Candidate}
    (h : (allocations.map Allocation.candidate).Perm candidates) :
    (allocations.map fun a => a.amount.atomic).sum
      = (candidates.map Candidate.amountAtomic).sum := by
  have hsum := (h.map Candidate.amountAtomic).sum_eq
  rw [List.map_map] at hsum
  exact hsum

/-- The spec of the compiler. -/
theorem compileDirectPayoutPlan_accounts {request : PlanRequest Summary Evidence}
    {plan : DirectPayoutPlan Summary Evidence}
    (h : compileDirectPayoutPlan env request = .ok plan) : PlanAccounts request plan := by
  simp only [compileDirectPayoutPlan, bind_eq_ok, revertIf_eq_ok, pure_eq_ok] at h
  obtain ⟨_, -, eligibility, heligibility, evidence, -, returnDelta, hreturn, carryIn, hcarry,
    source, -, _, -, allocations, hallocations, dust, hdust, distributable, -, allocated,
    hallocated, digest, -, rfl⟩ := h
  have hreturnSame := copyPrincipalAmount_ok hreturn
  have hcarrySame := copyPrincipalAmount_ok hcarry
  subst hreturnSame hcarrySame
  obtain ⟨hentries, hpositive⟩ := normalizeEligibilityManifest_entries heligibility
  obtain ⟨htotal, hlength⟩ := totalBalance_of_perm hentries
  have hperm := allocations_perm hallocations
  have hsum := sum_of_candidates hperm
  have hdustValue := createNativePayoutAmount_natText hdust
  have hallocatedValue := createNativePayoutAmount_natText hallocated
  have hfit := payoutCandidates_sum_le eligibility.entries
    (request.finalizedReturn.atomic + request.previousDust.atomic)
  have hnone : eligibility.entries = [] ↔ request.eligibilityManifest.input.entries = [] := by
    rw [← List.length_eq_zero_iff, hlength, List.length_eq_zero_iff]
  have hweight : request.eligibilityManifest.input.entries ≠ [] →
      0 < totalBalance eligibility.entries := by
    intro hne
    apply Nat.pos_of_ne_zero
    intro hzero
    exact hne (hnone.mp ((totalBalance_eq_zero hpositive).mp hzero))
  constructor
  · rfl
  · rfl
  · -- eligible
    exact (textNat_natText _).trans htotal
  · -- recipients
    intro hne
    have hcandidates := hperm.map fun c : Candidate => (c.recipient, c.hkmnBalance.atomic)
    rw [List.map_map, payoutCandidates_weighed _ (hweight hne)] at hcandidates
    exact hcandidates.trans hentries
  · -- floors
    intro a ha
    have hmem : a.candidate ∈ payoutCandidates eligibility.entries
        (request.finalizedReturn.atomic + request.previousDust.atomic) :=
      hperm.mem_iff.mp (List.mem_map_of_mem ha)
    have hshare := mem_payoutCandidates hmem
    rw [← textNat_natText (totalBalance eligibility.entries)] at hshare
    exact hshare
  · -- totalAllocated
    exact hallocatedValue
  · -- conserved
    show allocated.atomic + dust.atomic = _
    omega
  · -- dust_lt
    intro hne
    have hpos := hweight hne
    rw [payoutCandidates_sum _ hpos] at hdustValue
    show dust.atomic < _
    rw [hdustValue, ← hlength]
    exact pool_sub_sharedOut_lt hpos
  · -- dust_all
    intro hempty
    rw [hnone.mpr hempty] at hdustValue
    exact hdustValue

/-- The dust of a plan is an amount that the next plan takes over as it is. -/
theorem dust_handed_over {request : PlanRequest Summary Evidence}
    {plan : DirectPayoutPlan Summary Evidence}
    (h : compileDirectPayoutPlan env request = .ok plan) (label : String) :
    copyPrincipalAmount plan.dust label nativeAsset = .ok plan.dust := by
  simp only [compileDirectPayoutPlan, bind_eq_ok, revertIf_eq_ok, pure_eq_ok] at h
  obtain ⟨_, -, eligibility, -, evidence, -, returnDelta, -, carryIn, -, source, -, _, -,
    allocations, -, dust, hdust, distributable, -, allocated, -, digest, -, rfl⟩ := h
  obtain ⟨-, hdecimal, hle, rfl⟩ := createNativePayoutAmount_eq_ok.mp hdust
  exact copyPrincipalAmount_native label hdecimal hle

/-! ## Chains of cycles -/

/-- No dust, as before the first cycle. -/
def noDust : TypedAmount :=
  ⟨nativePayoutChainId, nativeAsset, nativePayoutDecimals, text "0"⟩

/-- A cycle that was compiled: its request and its plan. -/
abbrev CompiledCycle (Summary Evidence : Type) : Type :=
  PlanRequest Summary Evidence × DirectPayoutPlan Summary Evidence

/-- The dust at hand after some cycles. -/
def dustAfter (start : TypedAmount) (cycles : List (CompiledCycle Summary Evidence)) :
    TypedAmount :=
  (cycles.getLast?.map fun cycle => cycle.2.dust).getD start

@[simp] theorem dustAfter_nil (start : TypedAmount) :
    dustAfter start ([] : List (CompiledCycle Summary Evidence)) = start := rfl

@[simp] theorem dustAfter_concat (start : TypedAmount)
    (cycles : List (CompiledCycle Summary Evidence)) (cycle : CompiledCycle Summary Evidence) :
    dustAfter start (cycles ++ [cycle]) = cycle.2.dust := by
  simp [dustAfter]

variable (env) in
/-- Cycles compiled one after the other, each one given the dust of the one before it
as its previous dust. The source of that dust is any that the compiler accepts. -/
inductive PayoutChain (start : TypedAmount) : List (CompiledCycle Summary Evidence) → Prop where
  | nil : PayoutChain start []
  | snoc {cycles : List (CompiledCycle Summary Evidence)} {request : PlanRequest Summary Evidence}
      {plan : DirectPayoutPlan Summary Evidence} (hcycles : PayoutChain start cycles)
      (hdust : request.previousDust = dustAfter start cycles)
      (hplan : compileDirectPayoutPlan env request = .ok plan) :
      PayoutChain start (cycles ++ [(request, plan)])

/-- Every cycle of a chain keeps its accounts. -/
theorem PayoutChain.accounts {start : TypedAmount}
    {cycles : List (CompiledCycle Summary Evidence)} (h : PayoutChain env start cycles) :
    ∀ cycle ∈ cycles, PlanAccounts cycle.1 cycle.2 := by
  induction h with
  | nil => simp
  | snoc hcycles hdust hplan ih =>
    intro cycle hmem
    rcases List.mem_append.mp hmem with hbefore | hlast
    · exact ih cycle hbefore
    · rw [List.mem_singleton.mp hlast]
      exact compileDirectPayoutPlan_accounts hplan

/-- A chain carries its dust from round to round. -/
theorem PayoutChain.carries {start : TypedAmount}
    {cycles : List (CompiledCycle Summary Evidence)} (h : PayoutChain env start cycles) :
    Carries (fun cycle : CompiledCycle Summary Evidence => cycle.2.returnDelta.atomic)
      (fun cycle => cycle.2.totalAllocated.atomic) (fun cycle => cycle.2.dust.atomic)
      start.atomic cycles (dustAfter start cycles).atomic := by
  induction h with
  | nil => exact Carries.nil
  | @snoc cycles request plan hcycles hdust hplan ih =>
    have haccounts := compileDirectPayoutPlan_accounts hplan
    have hbalanced : plan.totalAllocated.atomic + plan.dust.atomic
        = plan.returnDelta.atomic + (dustAfter start cycles).atomic := by
      rw [haccounts.conserved, haccounts.returnDelta, hdust]
    rw [dustAfter_concat]
    exact Carries.snoc (r := (request, plan)) ih hbalanced

/-- Over a whole chain that starts without dust, every plan keeps its accounts, and
what was allocated together with the last dust is what was returned. -/
theorem payout_chain_conserves {cycles : List (CompiledCycle Summary Evidence)}
    (h : PayoutChain env noDust cycles) :
    (∀ cycle ∈ cycles, PlanAccounts cycle.1 cycle.2) ∧
      (cycles.map fun cycle => cycle.2.totalAllocated.atomic).sum + (dustAfter noDust cycles).atomic
        = (cycles.map fun cycle => cycle.2.returnDelta.atomic).sum := by
  constructor
  · exact h.accounts
  · have hconserved := h.carries.conserved
    have hstart : noDust.atomic = 0 := by decide
    rw [hstart, Nat.zero_add] at hconserved
    exact hconserved

end

/-! ## A chain of three cycles, the second one with nobody eligible -/

def sampleNative (amountAtomic : String) : TypedAmount :=
  ⟨nativePayoutChainId, nativeAsset, nativePayoutDecimals, text amountAtomic⟩

def sampleHkmn (amountAtomic : String) : TypedAmount :=
  ⟨nativePayoutChainId, text "0xabcdefabcdefabcdefabcdefabcdefabcdefabcd", 18, text amountAtomic⟩

def sampleSha256 : Text :=
  text "sha256:0000000000000000000000000000000000000000000000000000000000000000"

def sampleHolders : List EligibilityEntry :=
  [⟨text "0x1111111111111111111111111111111111111111", sampleHkmn "1"⟩,
    ⟨text "0x2222222222222222222222222222222222222222", sampleHkmn "2"⟩]

/-- A manifest with enough native balance for its recipients. -/
def sampleManifest (cycleId : Text) (entries : List EligibilityEntry) :
    EligibilityManifest Unit Unit where
  schema := manifestSchemaV1
  selection := none
  input := {
    cycleId
    snapshotBlock := text "100"
    snapshotHash := text "0x0000000000000000000000000000000000000000000000000000000000000000"
    finality := ⟨text "policy", text "1"⟩
    supply := sampleHkmn "1000"
    entries
    exclusions := []
    feasibility := {
      recipientCount := entries.length
      transactionCount := entries.length
      maxRecipientCount := 100
      maxTransactionCount := 100
      measuredTransferGas := text "21000"
      maxGasPriceWei := text "2"
      estimatedNativeFee := ⟨nativePayoutChainId, nativeAsset, 18, natText (entries.length * 42000)⟩
      nativeReserve := sampleNative "0"
      nativeBalance := sampleNative "1000000"
      requiredNativeAmount :=
        ⟨nativePayoutChainId, nativeAsset, 18, natText (entries.length * 42000)⟩
      feasible := true
      reason := none }
    logCompleteness :=
      ⟨text "single-source-explicitly-allowed", ⟨text "rpc", sampleSha256, 2⟩, none⟩
    holderSnapshotDigest := sampleSha256
    launchManifestDigest := sampleSha256 }

def sampleEnvironment : PlanEnvironment Unit Unit where
  assertEligibilitySelection := fun _ _ => .error "reward selection evidence must be a plain object"
  assertEligibilitySelectionSummary :=
    fun _ _ => .error "reward selection summary must be a plain object"
  summarizeEligibilitySelection :=
    fun _ => .error "reward selection evidence must be a plain object"
  directPayoutPlanDigest := fun _ => .ok sampleSha256

def sampleRequest (cycleId : String) (entries : List EligibilityEntry) (finalizedReturn : String)
    (previousDust : String) (source : Option PreviousDustSource) : PlanRequest Unit Unit where
  cycleId := text cycleId
  eligibilityManifest := sampleManifest (text cycleId) entries
  finalizedReturn := sampleNative finalizedReturn
  previousDust := sampleNative previousDust
  previousDustSource := source
  returnBinding :=
    ⟨text "0x3333333333333333333333333333333333333333", nativeAsset, sampleSha256⟩
  legacyPlanSchema := none

def sampleSource (cycleId : String) : Option PreviousDustSource :=
  some ⟨text cycleId, sampleSha256, sampleSha256⟩

theorem payout_chain_conserves_sample :
    ∃ cycles : List (CompiledCycle Unit Unit), cycles.length = 3 ∧
      (∀ cycle ∈ cycles, PlanAccounts cycle.1 cycle.2) ∧
      (cycles.map fun cycle => cycle.2.totalAllocated.atomic).sum + 1 = 1001 + 5 + 10 := by
  obtain ⟨first, hfirst, hdust₁⟩ := exists_ok_of_check
    (x := compileDirectPayoutPlan sampleEnvironment
      (sampleRequest "cycle-1" sampleHolders "1001" "0" none))
    (p := fun plan => plan.returnDelta = sampleNative "1001" ∧ plan.dust = sampleNative "1")
    (by decide +kernel)
  obtain ⟨second, hsecond, hdust₂⟩ := exists_ok_of_check
    (x := compileDirectPayoutPlan sampleEnvironment
      (sampleRequest "cycle-2" [] "5" "1" (sampleSource "cycle-1")))
    (p := fun plan => plan.returnDelta = sampleNative "5" ∧ plan.dust = sampleNative "6")
    (by decide +kernel)
  obtain ⟨third, hthird, hdust₃⟩ := exists_ok_of_check
    (x := compileDirectPayoutPlan sampleEnvironment
      (sampleRequest "cycle-3" sampleHolders "10" "6" (sampleSource "cycle-2")))
    (p := fun plan => plan.returnDelta = sampleNative "10" ∧ plan.dust = sampleNative "1")
    (by decide +kernel)
  obtain ⟨hreturn₁, hdust₁⟩ := of_decide_eq_true hdust₁
  obtain ⟨hreturn₂, hdust₂⟩ := of_decide_eq_true hdust₂
  obtain ⟨hreturn₃, hdust₃⟩ := of_decide_eq_true hdust₃
  have hchain₁ := (PayoutChain.nil : PayoutChain _ noDust []).snoc rfl hfirst
  have hchain₂ := hchain₁.snoc hdust₁.symm hsecond
  have hchain₃ := hchain₂.snoc hdust₂.symm hthird
  obtain ⟨haccounts, hsum⟩ := payout_chain_conserves hchain₃
  refine ⟨_, rfl, haccounts, ?_⟩
  have hlast : (sampleNative "1").atomic = 1 := by decide +kernel
  have hreturned : (sampleNative "1001").atomic + (sampleNative "5").atomic
      + (sampleNative "10").atomic = 1001 + 5 + 10 := by decide +kernel
  rw [dustAfter_concat, hdust₃, hlast] at hsum
  rw [hsum, ← hreturned, ← hreturn₁, ← hreturn₂, ← hreturn₃]
  simp [Nat.add_assoc]

end Hookemon.Runner
