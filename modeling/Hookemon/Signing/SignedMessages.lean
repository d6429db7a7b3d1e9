import Hookemon.Signing.Base58
import Hookemon.Signing.SolanaTransactions

/-! # `signing/transaction-policy.mjs`: signed messages

What comes back from the signer is decoded again in the context that the caller trusts, and
has to be described as the approved transaction was. The identifier of a broadcast is the
hash of the signed bytes, or their first signature.
-/

namespace Hookemon.Signing

open Hookemon.Core Hookemon.Js Hookemon.Runner

section

variable (libraries : Libraries)

def decodeProviderTransaction (input : DecoderInput) : Except String Description :=
  if input.family = Family.evm.name then decodeEvmTransaction libraries input
  else if input.family = Family.solana.name then do
    let currentBlockHeight ← resolveSolanaCurrentBlockHeight input.context
    decodeSolanaTransaction libraries input currentBlockHeight
  else .error ("unsupported transaction family: " ++ display (quoteJSONString input.family))

/-! ## Signatures -/

def fullSignedSolanaTransaction (transactionBase64 : Text) : Except String VersionedTransaction := do
  throwIf (transactionBase64 = [])
    "signed Solana message must provide a non-empty base64 transaction"
  (libraries.deserializeTransaction (bytesOfBase64 transactionBase64)).mapError
    ("signed Solana message must be a complete serialized transaction: " ++ ·)

def signatureIsNonzero (signature : Bytes) : Bool :=
  signature.length = 64 && signature.any (· ≠ 0)

/-- The slot is filled with a signature of the message by its signer. -/
def assertSignatureSlot (transaction : VersionedTransaction) (slot : Bytes × Nat) :
    Except String Unit := do
  let position := "signed Solana transaction required signature slot " ++ toString slot.2
  throwIf (¬ signatureIsNonzero slot.1) (position ++ " is missing or zero")
  let signer ← match transaction.message.staticAccountKeys[slot.2]? with
    | some key => .ok key
    | none => .error ("signed Solana transaction required signer " ++ toString slot.2 ++
        " was not resolved")
  let valid ← (libraries.verifySignature (libraries.serialize transaction.message) signer slot.1)
    |>.mapError fun error => position ++ " could not be verified: " ++ error
  throwIf (¬ valid) (position ++ " is invalid")

/-- The slots other than the operator's have the signatures that were captured, in order. -/
def compareCoSigners (operatorSignerIndex : Int) : Nat → List Bytes → List Text → Except String Unit
  | _, [], _ => .ok ()
  | index, signature :: signatures, expected =>
    if (index : Int) = operatorSignerIndex then
      compareCoSigners operatorSignerIndex (index + 1) signatures expected
    else match expected with
    | [] => .error "expected Solana co-signer signatures must be base64 strings"
    | captured :: expected =>
      if signature = bytesOfBase64 captured then
        compareCoSigners operatorSignerIndex (index + 1) signatures expected
      else .error ("signed Solana co-signer signature slot " ++ toString index ++
        " changed after approval")

def assertSolanaSignatureSlots (transaction : VersionedTransaction)
    (expectedCoSignerSignatures : Option (List Text)) (excludedSlot : Option Int)
    (operatorSignerIndex : Int) : Except String Unit := do
  let required := transaction.message.numRequiredSignatures
  throwIf (transaction.signatures.length ≠ required)
    "signed Solana transaction does not contain every required signature slot"
  (transaction.signatures.zipIdx.filter fun slot => some (slot.2 : Int) ≠ excludedSlot).forM
    (assertSignatureSlot libraries transaction)
  match expectedCoSignerSignatures with
  | none => .ok ()
  | some expected =>
    throwIf (expected.length ≠ required - 1)
      "expected Solana co-signer signatures do not match the required signature slots"
    compareCoSigners operatorSignerIndex 0 transaction.signatures expected

def captureSolanaCoSignerSignatures (transactionBase64 : Text) (operatorSignerIndex : Int) :
    Except String (List Text) := do
  let transaction ← fullSignedSolanaTransaction libraries transactionBase64
  let required := transaction.message.numRequiredSignatures
  throwIf (operatorSignerIndex < 0 ∨ required ≤ operatorSignerIndex)
    "invalid Operations signature slot"
  if required ≤ 1 then return []
  assertSolanaSignatureSlots libraries transaction none (some operatorSignerIndex) 0
  return (transaction.signatures.zipIdx.filter fun slot => (slot.2 : Int) ≠ operatorSignerIndex).map
    fun slot => base64OfBytes slot.1

/-! ## Revalidation -/

/-- The options of a revalidation. -/
structure RevalidationOptions where
  context : DecoderContext := {}
  expectedCoSignerSignatures : Option (List Text) := none
  operatorSignerIndex : Option Int := none

def signedTransactionPayload (signedMessage : Value) (family : Family) : Except String Text :=
  let field := match family with
    | .evm => "signedTx"
    | .solana => "signedTxBase64"
  match signedMessage with
  | .string s => .ok s
  | .object fs =>
    match getField fs (text field) with
    | .string s =>
      if s = [] then .error ("signed " ++ display family.name ++ " message must provide " ++ field)
      else .ok s
    | _ => .error ("signed " ++ display family.name ++ " message must provide " ++ field)
  | _ => .error "signed message must be an object"

/-- An object without some of its properties. -/
def without (keys : List Text) (value : Value) : Value :=
  match value with
  | .object fs => .object (fs.filter fun f => f.1 ∉ keys)
  | v => v

/-- The description without what another observation may change. -/
def comparableDescription (description : Description) : Description :=
  let type := description.deadline.get (text "type")
  if description.family = .solana ∧ type = .string (text "rpc-blockhash-validity") then
    { description with deadline := without [text "observedSlot"] description.deadline }
  else if description.family = .solana ∧ type = .string (text "block-height") then
    { description with
      deadline := without [text "observedBlockHeight", text "expired"] description.deadline }
  else description

def deadlineExpired (description : Description) : Bool :=
  description.deadline.get (text "expired") = .boolean true

/-- The checks of a signed Solana transaction, and the heights of its decoding. -/
def revalidationContext (approved : Description) (transaction : Text)
    (options : RevalidationOptions) : Except String DecoderContext :=
  match approved.family with
  | .evm => .ok options.context
  | .solana => do
    throwIf (¬ options.context.currentBlockHeightResolver.isFunction)
      "signed Solana message revalidation requires a currentBlockHeightResolver"
    throwIf (¬ options.context.blockhashContextResolver.isFunction)
      "signed Solana message revalidation requires a blockhashContextResolver"
    let signed ← fullSignedSolanaTransaction libraries transaction
    assertSolanaSignatureSlots libraries signed options.expectedCoSignerSignatures none
      (options.operatorSignerIndex.getD 0)
    return { options.context with
      lastValidBlockHeight := orElse options.context.lastValidBlockHeight
        (approved.deadline.get (text "lastValidBlockHeight"))
      currentBlockHeight := orElse options.context.currentBlockHeight
        (approved.deadline.get (text "observedBlockHeight")) }

/-- The original blockhash is still valid, and was not observed earlier than before. -/
def assertValidityKept (redecoded approved : Description) : Except String Unit :=
  if approved.deadline.get (text "type") = .string (text "rpc-blockhash-validity") then
    match bigIntOf (redecoded.deadline.get (text "observedSlot")),
      bigIntOf (approved.deadline.get (text "observedSlot")) with
    | some observed, some before =>
      throwIf (redecoded.deadline.get (text "type") ≠ .string (text "rpc-blockhash-validity")
          ∨ redecoded.deadline.get (text "valid") ≠ .boolean true ∨ observed < before)
        "signed message original blockhash validity regressed"
    | _, _ => .error "signed message original blockhash validity regressed"
  else .ok ()

def revalidateSignedMessage (signedMessage : Value) (approved : Description)
    (options : RevalidationOptions) : Except String Description := do
  throwIf (deadlineExpired approved) "approved message deadline has expired"
  let transaction ← signedTransactionPayload signedMessage approved.family
  let context ← revalidationContext libraries approved transaction options
  let redecoded ← decodeProviderTransaction libraries
    { family := approved.family.name, chainId := .string approved.chainId,
      transaction := ⟨.string transaction, rfl⟩, context }
  throwIf (deadlineExpired redecoded) "signed message deadline has expired"
  assertValidityKept redecoded approved
  let signedText ← stableJson (comparableDescription redecoded).value
  let approvedText ← stableJson (comparableDescription approved).value
  throwIf (signedText ≠ approvedText)
    "signed message differs from its approved semantic description"
  return redecoded

/-! ## Broadcasts -/

/-- `^0x(?:[0-9a-fA-F]{2})+$`. -/
def isHexPayload (s : Text) : Bool :=
  s.take 2 = text "0x" && 2 ≤ (s.drop 2).length && (s.drop 2).length % 2 = 0 &&
    (s.drop 2).all isHexDigit

def expectedBroadcastIdentifier (signedMessage : Value) (family : Family) : Except String Text := do
  let payload ← signedTransactionPayload signedMessage family
  match family with
  | .evm =>
    throwIf (¬ isHexPayload payload)
      "EVM broadcast identifier check requires even-length hexadecimal signed bytes"
    return toLowerCase (libraries.keccak256 payload)
  | .solana =>
    let transaction ← fullSignedSolanaTransaction libraries payload
    let first := transaction.signatures.headD []
    throwIf (¬ signatureIsNonzero first)
      "Solana broadcast identifier check requires a non-zero first signature"
    return encodeBase58 first

/-! ## The identifier of a Solana broadcast -/

theorem signatureIsNonzero_nonzero {signature : Bytes} (h : signatureIsNonzero signature) :
    ∃ b ∈ signature, b ≠ 0 := by
  have hany : signature.any (· ≠ 0) = true := by
    rw [signatureIsNonzero, Bool.and_eq_true] at h
    exact h.2
  simpa using hany

variable {libraries}

/-- The identifier is written from the first signature of the signed bytes. -/
theorem expectedBroadcastIdentifier_solana {signedMessage : Value} {identifier : Text}
    (h : expectedBroadcastIdentifier libraries signedMessage .solana = .ok identifier) :
    ∃ payload transaction first,
      signedTransactionPayload signedMessage .solana = .ok payload ∧
      fullSignedSolanaTransaction libraries payload = .ok transaction ∧
      transaction.signatures.head? = some first ∧ signatureIsNonzero first ∧
      identifier = encodeBase58 first := by
  rw [expectedBroadcastIdentifier] at h
  obtain ⟨payload, hpayload, h⟩ := bind_eq_ok.mp h
  obtain ⟨transaction, htransaction, h⟩ := bind_eq_ok.mp h
  obtain ⟨_, hnonzero, h⟩ := bind_eq_ok.mp h
  have hfirst : signatureIsNonzero (transaction.signatures.headD []) := by
    simpa using hnonzero
  cases hsignatures : transaction.signatures with
  | nil => simp [hsignatures, signatureIsNonzero] at hfirst
  | cons first rest =>
    rw [hsignatures] at h hfirst
    exact ⟨payload, transaction, first, hpayload, htransaction, by rw [hsignatures]; rfl, hfirst,
      (pure_eq_ok.mp h).symm⟩

/-- Base 58 keeps the zeros at the front as ones and writes the rest as a numeral, so it can
be read back, and an identifier stands for one signature only. -/
theorem broadcast_identifier_exact :
    (∀ bytes : Bytes, (∃ b ∈ bytes, b ≠ 0) →
      encodeBase58 bytes
          = List.replicate (leadingZeroes bytes) 49 ++ base58Numeral (natOfBytes bytes) ∧
        ((encodeBase58 bytes).takeWhile (· = 49)).length = leadingZeroes bytes ∧
        Nat.ofDigits 58 (Nat.digits 58 (natOfBytes bytes)) = natOfBytes bytes ∧
        (∀ first, (base58Numeral (natOfBytes bytes)).head? = some first → first ≠ 49) ∧
        decodeBase58 (encodeBase58 bytes) = some bytes) ∧
    (∀ bytes bytes' : Bytes, (∃ b ∈ bytes, b ≠ 0) → (∃ b ∈ bytes', b ≠ 0) →
      encodeBase58 bytes = encodeBase58 bytes' → bytes = bytes') ∧
    ∀ (libraries : Libraries) (signedMessage : Value) (identifier : Text),
      expectedBroadcastIdentifier libraries signedMessage .solana = .ok identifier →
      ∃ payload transaction first,
        signedTransactionPayload signedMessage .solana = .ok payload ∧
        fullSignedSolanaTransaction libraries payload = .ok transaction ∧
        transaction.signatures.head? = some first ∧ encodeBase58 first = identifier ∧
        ∀ signature, signatureIsNonzero signature → encodeBase58 signature = identifier →
          signature = first := by
  refine ⟨fun bytes h => ⟨encodeBase58_eq h, ?_, Nat.ofDigits_digits 58 _, ?_,
    decodeBase58_encodeBase58 h⟩, fun bytes bytes' h h' => encodeBase58_inj h h', ?_⟩
  · rw [(encodeBase58_split h).1, List.length_replicate]
  · intro first hfirst
    obtain ⟨c, s, hnumeral, hc⟩ := base58Numeral_head (natOfBytes_ne_zero h)
    rw [hnumeral, List.head?_cons] at hfirst
    exact Option.some.inj hfirst ▸ hc
  · intro libraries signedMessage identifier h
    obtain ⟨payload, transaction, first, hpayload, htransaction, hhead, hfirst, rfl⟩ :=
      expectedBroadcastIdentifier_solana h
    refine ⟨payload, transaction, first, hpayload, htransaction, hhead, rfl, ?_⟩
    intro signature hsignature heq
    exact encodeBase58_inj (signatureIsNonzero_nonzero hsignature)
      (signatureIsNonzero_nonzero hfirst) heq

/-- Libraries that know one transaction of Solana, by its wire form. -/
def parsesOnly (wire : Bytes) (transaction : VersionedTransaction) : Libraries where
  parseTransaction _ := .error "Serialized transaction type is invalid"
  recoverTransactionAddress _ := .error "Serialized transaction type is invalid"
  isAddress _ := false
  getAddress address := address
  decodeTransfer _ := none
  encodeTransfer _ := []
  keccak256 payload := payload
  deserializeTransaction bytes :=
    if bytes = wire then .ok transaction else .error "Reached end of buffer unexpectedly"
  deserializeMessage _ := .error "Reached end of buffer unexpectedly"
  serialize _ := wire.drop 65
  getAccountKeys message _ := .ok message.staticAccountKeys
  isAccountSigner message index := index < message.numRequiredSignatures
  isAccountWritable message index :=
    index < message.numRequiredSignatures - message.numReadonlySignedAccounts
  verifySignature _ _ _ := .ok true

/-- A transaction that does nothing, signed with the bytes 0, 1, 2 and so on. -/
def idleTransaction : VersionedTransaction where
  signatures := [(List.range 64).map UInt8.ofNat]
  message := { version := .legacy, numRequiredSignatures := 1, numReadonlySignedAccounts := 0,
               numReadonlyUnsignedAccounts := 0, staticAccountKeys := [SYSTEM_PROGRAM_ID],
               recentBlockhash := SYSTEM_PROGRAM_ID, compiledInstructions := [],
               addressTableLookups := [] }

/-- One signature, the header, one key, the blockhash and no instruction. -/
def idleWire : Bytes :=
  1 :: (List.range 64).map UInt8.ofNat ++ [1, 0, 0, 1] ++ List.replicate 64 0 ++ [0]

theorem broadcast_identifier_exact_sample :
    decodeBase58 (encodeBase58 [0, 0, 57, 58]) = some [0, 0, 57, 58] ∧
      encodeBase58 [0, 58] ≠ encodeBase58 [58] ∧
      ∃ payload transaction first,
        signedTransactionPayload (.string (base64OfBytes idleWire)) .solana = .ok payload ∧
        fullSignedSolanaTransaction (parsesOnly idleWire idleTransaction) payload
          = .ok transaction ∧
        transaction.signatures.head? = some first ∧
        encodeBase58 first = encodeBase58 ((List.range 64).map UInt8.ofNat) ∧
        ∀ signature, signatureIsNonzero signature →
          encodeBase58 signature = encodeBase58 ((List.range 64).map UInt8.ofNat) →
          signature = first := by
  refine ⟨(broadcast_identifier_exact.1 [0, 0, 57, 58] (by decide)).2.2.2.2,
    fun h => absurd (broadcast_identifier_exact.2.1 [0, 58] [58] (by decide) (by decide) h)
      (by decide),
    broadcast_identifier_exact.2.2 (parsesOnly idleWire idleTransaction)
      (.string (base64OfBytes idleWire)) _ ?_⟩
  have hwire : base64OfBytes idleWire ≠ [] := by
    intro hnil
    have hread := bytesOfBase64_base64OfBytes idleWire
    rw [hnil] at hread
    cases hread
  have hparsed : fullSignedSolanaTransaction (parsesOnly idleWire idleTransaction)
      (base64OfBytes idleWire) = .ok idleTransaction := by
    rw [fullSignedSolanaTransaction, throwIf_of_not hwire, bytesOfBase64_base64OfBytes]
    rfl
  have hnonzero : signatureIsNonzero (idleTransaction.signatures.headD []) := by decide
  have hpayload : signedTransactionPayload (.string (base64OfBytes idleWire)) .solana
      = .ok (base64OfBytes idleWire) := rfl
  rw [expectedBroadcastIdentifier, hpayload, ok_bind]
  simp only [hparsed, ok_bind]
  rw [throwIf_of_not (not_not.mpr hnonzero)]
  rfl

end

end Hookemon.Signing
