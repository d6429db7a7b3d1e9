import Hookemon.Signing.SignedMessages

/-! # `signing/transaction-policy.mjs`: policies and their rules

A description is allowed when the canonical policy accepts it and one of the rules that are
bound to the policy matches it in every field.
-/

namespace Hookemon.Signing

open Hookemon.Core Hookemon.Js Hookemon.Runner

def TRANSACTION_POLICY_SCHEMA : Text := text "hookemon.transaction-policy.v1"

def RULE_FIELDS : List Text :=
  ["id", "family", "format", "chainId", "nonce", "programIds", "addressLookupTables", "target",
    "selector", "source", "destination", "mint", "token", "amount", "nativeValue", "gas",
    "feePayer", "requiredSigners", "coSigners", "instructions", "extraInstructions", "blockhash",
    "deadline", "priorityFee"].map text

def INSTRUCTION_RULE_FIELDS : List Text :=
  ["kind", "programId", "instructionId", "data", "accounts", "source", "destination", "mint",
    "token", "amount", "nativeValue", "computeUnitLimit", "priorityFee"].map text

def SEMANTIC_DATA_KINDS : List Text :=
  ["compute-budget-set-unit-limit", "compute-budget-set-unit-price", "erc20-transfer",
    "spl-transfer-checked", "system-transfer"].map text

/-! ## Values -/

def plainObject (value : Value) (label : String) : Except String Fields :=
  match value with
  | .object fs => .ok fs
  | _ => .error (label ++ " must be an object")

def exactKeys (value : Value) (expected : List Text) (label : String) : Except String Unit := do
  let fs ← plainObject value label
  let wanted := expected.insertionSort (· ≤ ·)
  throwIf ((fs.map Prod.fst).insertionSort (· ≤ ·) ≠ wanted)
    (label ++ " must contain exactly: " ++ ", ".intercalate (wanted.map display))

def exactValue (expected actual : Value) (label : String) : Except String Unit := do
  let wanted ← stableJson expected
  let given ← stableJson actual
  throwIf (wanted ≠ given) (label ++ " is not explicitly allowed")

def canonicalAtomic (value : Value) (label : String) : Except String Text :=
  match value with
  | .string s =>
    if isDecimal s then .ok s else .error (label ++ " must be a canonical atomic-unit string")
  | _ => .error (label ++ " must be a canonical atomic-unit string")

/-- `typeof value === 'string'`, and whether the text is not empty. -/
def isText : Value → Bool
  | .string _ => true
  | _ => false

def isNonEmptyText : Value → Bool
  | .string s => s ≠ []
  | _ => false

def validateAmount (value : Value) (label : String) : Except String Unit := do
  exactKeys value (["chainId", "assetId", "decimals", "amountAtomic"].map text) label
  throwIf (¬ isNonEmptyText (value.get (text "chainId")))
    (label ++ ".chainId must be a non-empty string")
  throwIf (¬ isNonEmptyText (value.get (text "assetId")))
    (label ++ ".assetId must be a non-empty string")
  throwIf ((countOf (value.get (text "decimals"))).isNone)
    (label ++ ".decimals must be a non-negative integer")
  let _ ← canonicalAtomic (value.get (text "amountAtomic")) (label ++ ".amountAtomic")
  return ()

/-! ## Constraints of a rule -/

/-- The rule states an asset and at least one bound, and nothing else. -/
def declaresRange (expected : Fields) : Bool :=
  let keys := expected.map Prod.fst
  keys.all (· ∈ ["chainId", "assetId", "decimals", "minAtomic", "maxAtomic"].map text) &&
    decide (text "chainId" ∈ keys) && decide (text "assetId" ∈ keys) &&
    decide (text "decimals" ∈ keys) &&
    (decide (text "minAtomic" ∈ keys) || decide (text "maxAtomic" ∈ keys))

/-- A bound that the rule may leave out, and how it fails. -/
def optionalBound (expected : Value) (key : String) (label : String) (broken : Nat → Prop)
    [DecidablePred broken] (message : String) : Except String Unit :=
  if hasOwn expected (text key) then do
    let bound ← canonicalAtomic (expected.get (text key)) (label ++ "." ++ key)
    throwIf (broken (textNat bound)) message
  else .ok ()

/-- `BigInt(value)` of an atomic amount. -/
def atomicOf : Value → Nat
  | .string s => textNat s
  | _ => 0

def amountRangeConstraint (expected actual : Value) (label : String) : Except String Unit := do
  let fs ← plainObject expected (label ++ " policy rule")
  throwIf (¬ declaresRange fs)
    (label ++ " policy range must declare asset metadata and at least one bound")
  throwIf (¬ isText (expected.get (text "chainId")) ∨ ¬ isText (expected.get (text "assetId"))
      ∨ (countOf (expected.get (text "decimals"))).isNone)
    (label ++ " policy range has invalid asset metadata")
  ["chainId", "assetId", "decimals"].forM fun key =>
    exactValue (expected.get (text key)) (actual.get (text key)) (label ++ "." ++ key)
  let actualAtomic := atomicOf (actual.get (text "amountAtomic"))
  optionalBound expected "minAtomic" label (actualAtomic < ·)
    (label ++ " is below its explicit bound")
  optionalBound expected "maxAtomic" label (· < actualAtomic)
    (label ++ " is above its explicit bound")

def amountConstraint (expected actual : Value) (label : String) : Except String Unit :=
  if actual = .null then
    throwIf (expected ≠ .null) (label ++ " is not explicitly allowed")
  else do
    throwIf (expected = .null) (label ++ " is not explicitly allowed")
    validateAmount actual (label ++ " decoded value")
    let _ ← plainObject expected (label ++ " policy rule")
    if hasOwn expected (text "exact") then
      exactKeys expected [text "exact"] (label ++ " exact policy rule")
      validateAmount (expected.get (text "exact")) (label ++ " exact policy amount")
      exactValue (expected.get (text "exact")) actual label
    else amountRangeConstraint expected actual label

def gasFieldConstraint (expected : Value) (label : String) (entry : Text × Value) :
    Except String Unit :=
  let field := label ++ "." ++ display entry.1
  if hasOwn entry.2 (text "amountAtomic") then
    amountConstraint (expected.get entry.1) entry.2 field
  else exactValue (expected.get entry.1) entry.2 field

def gasConstraint (expected actual : Value) (label : String) : Except String Unit := do
  let fs ← plainObject actual label
  exactKeys expected (fs.map Prod.fst) (label ++ " policy rule")
  fs.forM (gasFieldConstraint expected label)

/-- The calldata, or the word that leaves it to the other fields. -/
def dataConstraint (expected actual : Value) (label : String) : Except String Unit :=
  if expected.get (text "data") = .string (text "semantic") then
    throwIf (∀ kind ∈ SEMANTIC_DATA_KINDS, actual.get (text "kind") ≠ .string kind)
      (label ++ ".data cannot be semantically matched for "
        ++ displayValue (actual.get (text "kind")))
  else exactValue (expected.get (text "data")) (actual.get (text "data")) (label ++ ".data")

def instructionConstraint (expected actual : Value) (label : String) : Except String Unit := do
  exactKeys expected INSTRUCTION_RULE_FIELDS (label ++ " policy rule")
  ["kind", "programId", "instructionId", "accounts", "source", "destination", "mint", "token",
    "computeUnitLimit"].forM fun key =>
      exactValue (expected.get (text key)) (actual.get (text key)) (label ++ "." ++ key)
  dataConstraint expected actual label
  ["amount", "nativeValue", "priorityFee"].forM fun key =>
    amountConstraint (expected.get (text key)) (actual.get (text key)) (label ++ "." ++ key)

def instructionsConstraint (expected : Value) (actual : List Value) (label : String) :
    Except String Unit :=
  match expected with
  | .array rules =>
    if rules.length = actual.length then
      (rules.zip actual).zipIdx.forM fun entry =>
        instructionConstraint entry.1.1 entry.1.2 (label ++ "[" ++ toString entry.2 ++ "]")
    else .error (label ++ " is not explicitly allowed")
  | _ => .error (label ++ " is not explicitly allowed")

def blockhashConstraint (expected actual : Value) : Except String Unit :=
  match expected with
  | .object _ => do
    exactKeys expected [text "present"] "blockhash policy rule"
    throwIf (expected.get (text "present") ≠ .boolean true ∨ ¬ isNonEmptyText actual)
      "blockhash is not explicitly allowed"
  | _ => exactValue expected actual "blockhash"

/-- The original blockhash is still valid, where it was last observed or later. -/
def validityConstraint (expected actual : Value) : Except String Unit := do
  let fs ← plainObject expected "deadline policy rule"
  throwIf (sortedKeys fs ≠ text "minObservedSlot,type,valid"
      ∨ expected.get (text "valid") ≠ .boolean true
      ∨ actual.get (text "type") ≠ expected.get (text "type")
      ∨ actual.get (text "valid") ≠ .boolean true)
    "original blockhash validity is not explicitly allowed"
  let observed ← canonicalAtomic (actual.get (text "observedSlot")) "validity.observedSlot"
  let least ← canonicalAtomic (expected.get (text "minObservedSlot")) "validity.minObservedSlot"
  throwIf (textNat observed < textNat least) "original blockhash validity observation regressed"

def heightBound (expected actual : Value) (bound : String) (broken : Nat → Nat → Bool)
    (message : String) : Except String Unit :=
  if hasOwn expected (text bound) then do
    let expectedHeight ← canonicalAtomic (expected.get (text bound)) ("deadline." ++ bound)
    let actualHeight ← canonicalAtomic (actual.get (text "lastValidBlockHeight"))
      "deadline.lastValidBlockHeight"
    throwIf (broken (textNat actualHeight) (textNat expectedHeight)) message
  else .ok ()

/-- The last height has not passed, and is within the bounds of the rule. -/
def blockHeightConstraint (expected actual : Value) : Except String Unit := do
  let fs ← plainObject expected "deadline policy rule"
  throwIf ((∃ key ∈ fs.map Prod.fst, key ∉ ["type", "notExpired", "minLastValidBlockHeight",
        "maxLastValidBlockHeight"].map text)
      ∨ expected.get (text "type") ≠ .string (text "block-height")
      ∨ expected.get (text "notExpired") ≠ .boolean true)
    "deadline policy rule is invalid"
  let observed := actual.get (text "observedBlockHeight")
  throwIf (actual.get (text "type") ≠ .string (text "block-height")
      ∨ actual.get (text "expired") ≠ .boolean false
      ∨ (canonicalAtomic observed "").toOption.isNone)
    "deadline is not explicitly allowed"
  heightBound expected actual "minLastValidBlockHeight" (fun height bound => height < bound)
    "deadline is before its explicit bound"
  heightBound expected actual "maxLastValidBlockHeight" (fun height bound => bound < height)
    "deadline is after its explicit bound"

def deadlineConstraint (expected actual : Value) : Except String Unit :=
  if expected.get (text "type") = .string (text "rpc-blockhash-validity") then
    validityConstraint expected actual
  else if hasOwn expected (text "notExpired") then blockHeightConstraint expected actual
  else exactValue expected actual "deadline"

def ruleConstraint (rule : Value) (decoded : Description) : Except String Unit := do
  let actual := decoded.value
  exactKeys rule RULE_FIELDS "policy rule"
  throwIf (¬ isNonEmptyText (rule.get (text "id"))) "policy rule id must be a non-empty string"
  ["family", "format", "chainId", "nonce", "programIds", "addressLookupTables", "target",
    "selector", "source", "destination", "mint", "token", "feePayer", "requiredSigners",
    "coSigners"].forM fun key => exactValue (rule.get (text key)) (actual.get (text key)) key
  ["amount", "nativeValue"].forM fun key =>
    amountConstraint (rule.get (text key)) (actual.get (text key)) key
  gasConstraint (rule.get (text "gas")) decoded.gas.value "gas"
  instructionsConstraint (rule.get (text "instructions"))
    (decoded.instructions.map Instruction.value) "instructions"
  instructionsConstraint (rule.get (text "extraInstructions"))
    (decoded.extraInstructions.map Instruction.value) "extraInstructions"
  blockhashConstraint (rule.get (text "blockhash")) (optionalText decoded.blockhash)
  deadlineConstraint (rule.get (text "deadline")) decoded.deadline
  amountConstraint (rule.get (text "priorityFee")) (optionalAmount decoded.priorityFee) "priorityFee"

/-! ## The canonical policy -/

/-- `hookemon.transaction-policy.v1`. -/
structure TransactionPolicy where
  chainId : Text
  stage : Text
  requestDigest : Text
  expectedRecipient : Text
  amount : AssetAmount
  allowedTargets : List Text
  allowedPrograms : List Text

def OPERATIONAL_CYCLE_STAGES : List Text :=
  ["eligibility-snapshot", "claim-process", "outbound", "purchase", "open", "epic-gate", "buyback",
    "return", "payout"].map text

def assertNonEmptyString (value : Text) (label : String) : Except String Unit :=
  throwIf (value = [] ∨ 512 < value.length) (label ++ " is invalid")

/-- An integer from 0 to 255. -/
def isDecimals : Number → Bool
  | .integer n _ => 0 ≤ n ∧ n ≤ 255
  | .negativeZero => true
  | .notFinite => false

def assertTypedAmount (value : AssetAmount) (label : String) : Except String Unit := do
  assertNonEmptyString value.chainId (label ++ " chainId")
  assertNonEmptyString value.assetId (label ++ " assetId")
  throwIf (¬ isDecimals value.decimals) (label ++ " decimals is invalid")
  throwIf (¬ isDecimal value.amountAtomic) (label ++ " amountAtomic is invalid")

/-- Entries of a list that allows targets or programs. -/
def assertUniqueEntries (label : String) : List Text → List Text → Except String Unit
  | _, [] => .ok ()
  | seen, entry :: entries => do
    assertNonEmptyString entry label
    throwIf (entry ∈ seen) (label ++ " must be unique")
    assertUniqueEntries label (entry :: seen) entries

def assertTransactionPolicy (value : TransactionPolicy) (label : String) : Except String Unit := do
  assertNonEmptyString value.chainId (label ++ " chainId")
  throwIf (value.stage ∉ OPERATIONAL_CYCLE_STAGES) (label ++ " stage is invalid")
  throwIf (¬ hasShape (text "sha256:") isLowerHexDigit 64 value.requestDigest)
    (label ++ " requestDigest is invalid")
  assertNonEmptyString value.expectedRecipient (label ++ " expectedRecipient")
  assertTypedAmount value.amount (label ++ " amount")
  throwIf (value.amount.chainId ≠ value.chainId) (label ++ " amount chainId is invalid")
  assertUniqueEntries (label ++ " allowedTargets") [] value.allowedTargets
  assertUniqueEntries (label ++ " allowedPrograms") [] value.allowedPrograms
  throwIf (value.allowedTargets = [] ∧ value.allowedPrograms = [])
    (label ++ " must allow a target or program")

/-- The amount that the canonical policy is compared with. -/
def Description.checkedAmount (decoded : Description) : AssetAmount :=
  (decoded.amount <|> decoded.nativeValue).getD
    { chainId := decoded.chainId, assetId := text "native",
      decimals := .ofNat (if decoded.family = .solana then 9 else 18),
      amountAtomic := text "0" }

def canonicalPolicyConstraint (policy : TransactionPolicy) (decoded : Description) :
    Except String Unit := do
  throwIf (policy.chainId ≠ decoded.chainId) "canonical policy chainId is not explicitly allowed"
  throwIf (∃ destination ∈ decoded.destination, policy.expectedRecipient ≠ destination)
    "canonical policy expectedRecipient is not explicitly allowed"
  exactValue policy.amount.value decoded.checkedAmount.value "canonical policy amount"
  let targetAllowed := ∃ target ∈ decoded.target, target ∈ policy.allowedTargets
  let programsAllowed :=
    decoded.programIds ≠ [] ∧ ∀ programId ∈ decoded.programIds, programId ∈ policy.allowedPrograms
  throwIf (¬ targetAllowed ∧ ¬ programsAllowed)
    "canonical policy target or programs are not explicitly allowed"

/-! ## Evaluation -/

/-- An allowed transaction, and the rule that allowed it. -/
structure PolicyDecision where
  schema : Text := TRANSACTION_POLICY_SCHEMA
  allowed : Bool := true
  ruleId : Value

/-- The first rule that matches. Where none does, the first failure is reported. -/
def firstMatch (decoded : Description) (firstFailure : Option String) :
    List Value → Except String PolicyDecision
  | [] => .error ("transaction was not explicitly allowed" ++ firstFailure.elim "" (": " ++ ·))
  | rule :: rules =>
    match ruleConstraint rule decoded with
    | .ok () => .ok { ruleId := rule.get (text "id") }
    | .error e => firstMatch decoded (firstFailure <|> some e) rules

def explicitRules (rules : Value) : Except String (List Value) :=
  match rules with
  | .array (rule :: rules) => .ok (rule :: rules)
  | _ => .error "transaction policy rules must contain at least one explicit rule"

def evaluate (policy : TransactionPolicy) (rules : Value) (decoded : Description) :
    Except String PolicyDecision := do
  assertTransactionPolicy policy "transaction policy"
  let rules ← explicitRules rules
  canonicalPolicyConstraint policy decoded
  throwIf (deadlineExpired decoded) "transaction deadline has expired"
  firstMatch decoded none rules

end Hookemon.Signing
