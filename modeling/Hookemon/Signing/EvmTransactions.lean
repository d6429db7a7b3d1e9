import Hookemon.Js.BigInt
import Hookemon.Signing.StableJson

/-! # `signing/transaction-policy.mjs`: descriptions, and EVM transactions

A provider's transaction is described field by field. The libraries that parse transactions,
recover senders and verify signatures are parameters. A public key is named by its text in
base 58.
-/

namespace Hookemon.Signing

open Hookemon.Core Hookemon.Js Hookemon.Runner

/-- A text inside a message. -/
def display (s : Text) : String := String.ofList (s.map fun c => Char.ofNat c.toNat)

/-! ## What the libraries provide -/

/-- A public key, by its text in base 58. -/
abbrev PublicKey := Text

inductive MessageVersion where
  | legacy
  | v0
deriving DecidableEq, Repr

structure CompiledInstruction where
  programIdIndex : Nat
  accountKeyIndexes : List Nat
  data : Bytes
deriving DecidableEq, Repr

structure AddressTableLookup where
  accountKey : PublicKey
  writableIndexes : List Nat
  readonlyIndexes : List Nat
deriving DecidableEq, Repr

/-- A parsed message. The first three counts are its header. -/
structure VersionedMessage where
  version : MessageVersion
  numRequiredSignatures : Nat
  numReadonlySignedAccounts : Nat
  numReadonlyUnsignedAccounts : Nat
  staticAccountKeys : List PublicKey
  recentBlockhash : Text
  compiledInstructions : List CompiledInstruction
  addressTableLookups : List AddressTableLookup
deriving DecidableEq, Repr

structure VersionedTransaction where
  signatures : List Bytes
  message : VersionedMessage
deriving DecidableEq, Repr

/-- A lookup table as a resolver returns it. -/
structure AddressLookupTableAccount where
  key : PublicKey
  isActive : Bool
  addresses : List PublicKey
deriving DecidableEq, Repr

/-- `viem`, `@solana/web3.js` and `node:crypto`. An error is its message. -/
structure Libraries where
  parseTransaction : Text → Except String Data
  recoverTransactionAddress : Text → Except String Text
  isAddress : Text → Bool
  getAddress : Text → Text
  /-- `decodeFunctionData` and `encodeFunctionData` of `transfer(address,uint256)`. -/
  decodeTransfer : Text → Option (Text × Nat)
  encodeTransfer : Text × Nat → Text
  keccak256 : Text → Text
  deserializeTransaction : Bytes → Except String VersionedTransaction
  deserializeMessage : Bytes → Except String VersionedMessage
  serialize : VersionedMessage → Bytes
  getAccountKeys : VersionedMessage → List AddressLookupTableAccount →
    Except String (List PublicKey)
  isAccountSigner : VersionedMessage → Nat → Bool
  isAccountWritable : VersionedMessage → Nat → Bool
  verifySignature : Bytes → PublicKey → Bytes → Except String Bool

/-- A function that the caller may inject. -/
inductive Injected (α : Type) where
  | undefined
  | notFunction
  | function (f : α)

def Injected.isFunction {α : Type} : Injected α → Bool
  | .function _ => true
  | _ => false

/-- The trusted context of one decoding. The lookup resolver, if there is one, is asked once
for each lookup of the message, and may answer differently each time. -/
structure DecoderContext where
  tokenMetadata : Value := .undefined
  lookupTableResolver :
    Option (Nat → PublicKey → Except String (Option AddressLookupTableAccount)) := none
  blockhashContextResolver : Injected (Text → Except String Value) := .undefined
  currentBlockHeightResolver : Injected (Except String Value) := .undefined
  lastValidBlockHeight : Value := .undefined
  currentBlockHeight : Value := .undefined

structure DecoderInput where
  family : Text
  chainId : Value
  transaction : Data
  context : DecoderContext

/-! ## The description -/

def DECODE_SCHEMA : Text := text "hookemon.transaction-policy.decode.v1"
def SYSTEM_PROGRAM_ID : PublicKey := text "11111111111111111111111111111111"
def TOKEN_PROGRAM_IDS : List PublicKey :=
  [text "TokenkegQfeZyiNwAJbNbGKPFXCWuBvf9Ss623VQ5DA",
    text "TokenzQdBNbLqP5VEhdkAS6EPFLC1PHnBqCXEpPxuEb"]
def COMPUTE_BUDGET_PROGRAM_ID : PublicKey := text "ComputeBudget111111111111111111111111111111"
def SUPPORTED_EVM_TRANSACTION_TYPES : List Text := [text "legacy", text "eip1559"]
def UNSUPPORTED_EVM_TYPED_FIELDS : List String :=
  ["accessList", "authorizationList", "maxFeePerBlobGas", "blobVersionedHashes", "blobs",
    "kzgCommitments", "kzgProofs", "sidecars"]

/-- A text, or `null`. -/
def optionalText (s : Option Text) : Value := s.elim .null .string

structure AssetAmount where
  chainId : Text
  assetId : Text
  decimals : Number
  amountAtomic : Text
deriving DecidableEq

def AssetAmount.value (a : AssetAmount) : Value :=
  .object [(text "chainId", .string a.chainId), (text "assetId", .string a.assetId),
    (text "decimals", .number a.decimals), (text "amountAtomic", .string a.amountAtomic)]

def optionalAmount (a : Option AssetAmount) : Value := a.elim .null AssetAmount.value

structure AccountMeta where
  address : PublicKey
  isSigner : Bool
  isWritable : Bool
deriving DecidableEq

def AccountMeta.value (a : AccountMeta) : Value :=
  .object [(text "address", .string a.address), (text "isSigner", .boolean a.isSigner),
    (text "isWritable", .boolean a.isWritable)]

structure Instruction where
  kind : Text
  programId : Text
  instructionId : Option Text
  data : Text
  accounts : List AccountMeta := []
  source : Option Text := none
  destination : Option Text := none
  mint : Option Text := none
  token : Option Text := none
  amount : Option AssetAmount := none
  nativeValue : Option AssetAmount := none
  computeUnitLimit : Option Text := none
  priorityFee : Option AssetAmount := none
deriving DecidableEq

def Instruction.value (i : Instruction) : Value :=
  .object [(text "kind", .string i.kind), (text "programId", .string i.programId),
    (text "instructionId", optionalText i.instructionId), (text "data", .string i.data),
    (text "accounts", .array (i.accounts.map AccountMeta.value)),
    (text "source", optionalText i.source), (text "destination", optionalText i.destination),
    (text "mint", optionalText i.mint), (text "token", optionalText i.token),
    (text "amount", optionalAmount i.amount), (text "nativeValue", optionalAmount i.nativeValue),
    (text "computeUnitLimit", optionalText i.computeUnitLimit),
    (text "priorityFee", optionalAmount i.priorityFee)]

inductive Gas where
  | evm (limit : Option Text) (gasPrice maxFeePerGas maxPriorityFeePerGas : Option AssetAmount)
  | solana (computeUnitLimit : Option Text) (pricePerComputeUnit : Option AssetAmount)
deriving DecidableEq

def Gas.value : Gas → Value
  | .evm limit gasPrice maxFeePerGas maxPriorityFeePerGas =>
    .object [(text "limit", optionalText limit), (text "gasPrice", optionalAmount gasPrice),
      (text "maxFeePerGas", optionalAmount maxFeePerGas),
      (text "maxPriorityFeePerGas", optionalAmount maxPriorityFeePerGas)]
  | .solana computeUnitLimit pricePerComputeUnit =>
    .object [(text "computeUnitLimit", optionalText computeUnitLimit),
      (text "pricePerComputeUnit", optionalAmount pricePerComputeUnit)]

inductive Family where
  | evm
  | solana
deriving DecidableEq, Repr

def Family.name : Family → Text
  | .evm => text "evm"
  | .solana => text "solana"

structure Description where
  family : Family
  format : Text
  chainId : Text
  nonce : Option Text
  programIds : List Text
  addressLookupTables : List Text
  target : Option Text
  selector : Option Text
  source : Option Text
  destination : Option Text
  mint : Option Text
  token : Option Text
  amount : Option AssetAmount
  nativeValue : Option AssetAmount
  gas : Gas
  feePayer : Option Text
  requiredSigners : List Text
  coSigners : List Text
  instructions : List Instruction
  extraInstructions : List Instruction
  blockhash : Option Text
  deadline : Value
  priorityFee : Option AssetAmount
deriving DecidableEq

/-- An array of texts. -/
def textArray (ts : List Text) : Value := .array (ts.map .string)

def Description.value (d : Description) : Value :=
  .object [(text "schema", .string DECODE_SCHEMA), (text "family", .string d.family.name),
    (text "format", .string d.format), (text "chainId", .string d.chainId),
    (text "nonce", optionalText d.nonce), (text "programIds", textArray d.programIds),
    (text "addressLookupTables", textArray d.addressLookupTables),
    (text "target", optionalText d.target), (text "selector", optionalText d.selector),
    (text "source", optionalText d.source), (text "destination", optionalText d.destination),
    (text "mint", optionalText d.mint), (text "token", optionalText d.token),
    (text "amount", optionalAmount d.amount), (text "nativeValue", optionalAmount d.nativeValue),
    (text "gas", d.gas.value), (text "feePayer", optionalText d.feePayer),
    (text "requiredSigners", textArray d.requiredSigners),
    (text "coSigners", textArray d.coSigners),
    (text "instructions", .array (d.instructions.map Instruction.value)),
    (text "extraInstructions", .array (d.extraInstructions.map Instruction.value)),
    (text "blockhash", optionalText d.blockhash), (text "deadline", d.deadline),
    (text "priorityFee", optionalAmount d.priorityFee)]

/-! ## Integers and amounts -/

/-- `Number.isSafeInteger(value)`. -/
def isSafeInteger : Number → Bool
  | .integer n _ => n.natAbs ≤ 2 ^ 53 - 1
  | .negativeZero => true
  | .notFinite => false

/-- `BigInt(value)` of a text, a number or a bigint. -/
def bigIntOf : Value → Option Int
  | .string s => stringToBigInt s
  | .number (.integer n _) => some n
  | .number .negativeZero => some 0
  | .bigint n => some n
  | _ => none

/-- A number that is not a safe integer. -/
def isUnsafeNumber : Value → Bool
  | .number x => !isSafeInteger x
  | _ => false

def decimalString (value : Value) (label : String) : Except String Text := do
  throwIf (isUnsafeNumber value) (label ++ " must not be an unsafe JavaScript number")
  let parsed ← (bigIntOf value).elim (.error (label ++ " must be an integer")) .ok
  throwIf (parsed < 0) (label ++ " must not be negative")
  return natText parsed.toNat

/-- `Number.isInteger(value) && value >= 0`, and the number. -/
def countOf : Value → Option Number
  | .number (.integer n h) => if 0 ≤ n then some (.integer n h) else none
  | .number .negativeZero => some .negativeZero
  | _ => none

def assetAmount (chainId assetId : Text) (decimals amountAtomic : Value) :
    Except String AssetAmount := do
  throwIf (chainId = []) "amount chainId must be a non-empty string"
  throwIf (assetId = []) "amount assetId must be a non-empty string"
  let decimals ← (countOf decimals).elim
    (.error "asset decimals must be a non-negative integer") .ok
  let amountAtomic ← decimalString amountAtomic "amountAtomic"
  return { chainId, assetId, decimals, amountAtomic }

/-- A small count as a value. -/
def countValue (n : Nat) : Value := .number (.ofNat n)

def nativeAmount (chainId : Text) (amountAtomic : Value) (decimals : Nat) :
    Except String AssetAmount :=
  assetAmount chainId (text "native") (countValue decimals) amountAtomic

/-- `value === null || value === undefined`. -/
def isNullish : Value → Bool
  | .null | .undefined => true
  | _ => false

def optionalNativeAmount (chainId : Text) (value : Value) :
    Except String (Option AssetAmount) :=
  if isNullish value then .ok none else some <$> nativeAmount chainId value 18

def solanaComputeUnitPrice (chainId : Text) (microLamports : Nat) : Except String AssetAmount :=
  assetAmount chainId (text "microlamports-per-compute-unit") (countValue 0) (.bigint microLamports)

/-- `value ?? fallback`. -/
def orElse (value fallback : Value) : Value := if isNullish value then fallback else value

/-! ## EVM -/

section Evm

variable (libraries : Libraries)

def normalizeEvmAddress (value : Value) (label : String) : Except String Text :=
  match value with
  | .string s =>
    if libraries.isAddress s then .ok (toLowerCase (libraries.getAddress s))
    else .error (label ++ " must be a valid EVM address")
  | _ => .error (label ++ " must be a valid EVM address")

def normalizeAssetId (value : Text) : Except String Text :=
  if libraries.isAddress value then normalizeEvmAddress libraries (.string value) "assetId"
  else .ok value

/-- The first entry whose address is the token's. An entry before it that has no address
fails. -/
def findMetadata (token : Text) : Fields → Except String Value
  | [] => .ok .undefined
  | (address, entry) :: rest => do
    let normalized ← normalizeEvmAddress libraries (.string address) "tokenMetadata address"
    if normalized = token then .ok entry else findMetadata token rest

/-- The asset and the decimals of a token. -/
def tokenMetadataFor (tokenMetadata : Value) (token : Text) : Except String (Text × Value) := do
  let entries ← match tokenMetadata with
    | .object fs => .ok fs
    | _ => .error "ERC-20 transfer decoding requires explicit tokenMetadata"
  let entry ← findMetadata libraries token entries
  match entry with
  | .object fs =>
    let assetId ← match getField fs (text "assetId") with
      | .string s => if s = [] then .ok token else normalizeAssetId libraries s
      | _ => .ok token
    return (assetId, getField fs (text "decimals"))
  | _ => .error ("missing tokenMetadata for " ++ display token)

def normalizedEvmData (value : Value) : Except String Text :=
  match value with
  | .string s =>
    if (s.take 2 = text "0x" ∨ s.take 2 = text "0X") ∧ (s.drop 2).all isHexDigit then
      .ok (toLowerCase s)
    else .error "EVM transaction data must be hex"
  | _ => .error "EVM transaction data must be hex"

/-- `{ ...value, [key]: entry }`. -/
def spread (value : Value) (key : Text) (entry : Value) : Value :=
  match value with
  | .object fs => .object (setField fs (key, entry))
  | _ => .object [(key, entry)]

theorem setField_keys (fs : Fields) (f : Text × Value) :
    (setField fs f).map Prod.fst
      = if f.1 ∈ fs.map Prod.fst then fs.map Prod.fst else fs.map Prod.fst ++ [f.1] := by
  rw [setField]
  split
  · rw [List.map_map]
    refine List.map_congr_left fun g _ => ?_
    show (if g.1 = f.1 then f else g).1 = g.1
    split
    · exact Eq.symm ‹_›
    · rfl
  · simp

theorem mem_setField {fs : Fields} {f g : Text × Value} (h : g ∈ setField fs f) :
    g ∈ fs ∨ g = f := by
  rw [setField] at h
  split at h
  · obtain ⟨e, he, heq⟩ := List.mem_map.mp h
    split at heq
    · exact .inr heq.symm
    · exact .inl (heq ▸ he)
  · rcases List.mem_append.mp h with hold | hnew
    · exact .inl hold
    · exact .inr (List.mem_singleton.mp hnew)

theorem distinctKeys_spread {value entry : Value} (key : Text) (hvalue : value.distinctKeys)
    (hentry : entry.distinctKeys) : (spread value key entry).distinctKeys := by
  have hsingle : (Value.object [(key, entry)]).distinctKeys := by
    rw [distinctKeys_object]
    simpa using hentry
  cases value with
  | object fs =>
    obtain ⟨hnodup, hfields⟩ := distinctKeys_object.mp hvalue
    refine distinctKeys_object.mpr ⟨?_, fun f hf => ?_⟩
    · rw [setField_keys]
      split
      · exact hnodup
      · rename_i hnew
        exact hnodup.append (List.nodup_singleton _) (by simpa using hnew)
    · rcases mem_setField hf with hold | hnew
      · exact hfields f hold
      · rw [hnew]
        exact hentry
  | _ => exact hsingle

/-- The sender of a raw transaction is recovered from it. -/
def readEvmTransaction (transaction : Data) : Except String Data :=
  match transaction with
  | ⟨.string raw, _⟩ => do
    let parsed ← (libraries.parseTransaction raw).mapError
      ("EVM raw transaction could not be decoded and recovered: " ++ ·)
    let source ← (libraries.recoverTransactionAddress raw).mapError
      ("EVM raw transaction could not be decoded and recovered: " ++ ·)
    return ⟨spread parsed.1 (text "from") (.string source), distinctKeys_spread _ parsed.2 rfl⟩
  | ⟨.object fs, h⟩ => .ok ⟨.object fs, h⟩
  | _ => .error
    "EVM transaction must be a viem-decodable raw transaction or an unsigned transaction object"

/-- `Object.hasOwn(value, key)`. -/
def hasOwn (value : Value) (key : Text) : Bool :=
  match value with
  | .object fs => decide (key ∈ fs.map Prod.fst)
  | _ => false

/-- `String(value)` where a message needs it. -/
def displayValue : Value → String
  | .string s => display s
  | .null => "null"
  | .boolean b => if b then "true" else "false"
  | .number x => display x.text
  | .bigint n => toString n
  | _ => "[object]"

def assertSupportedEvmTransaction (transaction : Value) : Except String Unit := do
  let type := transaction.get (text "type")
  throwIf (type ≠ .undefined ∧ ∀ t ∈ SUPPORTED_EVM_TRANSACTION_TYPES, type ≠ .string t)
    ("transaction policy decoder does not support EVM transaction type " ++ displayValue type)
  UNSUPPORTED_EVM_TYPED_FIELDS.forM fun field =>
    throwIf (hasOwn transaction (text field))
      ("transaction policy decoder does not support EVM typed transaction field " ++ field)

def assertSafeEvmAtomicInputs (transaction : Value) : Except String Unit :=
  ["chainId", "nonce", "value", "gas", "gasPrice", "maxFeePerGas", "maxPriorityFeePerGas"].forM
    fun field => throwIf (isUnsafeNumber (transaction.get (text field)))
      ("EVM transaction " ++ field ++ " must not be an unsafe JavaScript number")

/-- The selector of `transfer(address,uint256)`. -/
def transferSelector : Text := text "0xa9059cbb"

def decodeErc20Transfer (tokenMetadata : Value) (chainId target : Text) (source : Option Text)
    (data : Text) (transaction : Value) : Except String Instruction := do
  let args ← (libraries.decodeTransfer data).elim
    (.error "EVM ERC-20 transfer calldata is malformed") .ok
  throwIf (toLowerCase (libraries.encodeTransfer args) ≠ data)
    "EVM ERC-20 transfer calldata contains unapproved trailing data"
  let destination ←
    normalizeEvmAddress libraries (.string args.1) "ERC-20 transfer destination"
  let metadata ← tokenMetadataFor libraries tokenMetadata target
  let amount ← assetAmount chainId metadata.1 metadata.2 (.bigint args.2)
  let nativeValue ←
    nativeAmount chainId (orElse (transaction.get (text "value")) (countValue 0)) 18
  return { kind := text "erc20-transfer", programId := target,
           instructionId := some transferSelector, data, source, destination := some destination,
           mint := some target, token := some target, amount := some amount,
           nativeValue := some nativeValue }

/-- Any other call. -/
def decodeEvmCall (chainId target : Text) (source selector : Option Text) (data : Text)
    (transaction : Value) : Except String Instruction := do
  let nativeValue ←
    nativeAmount chainId (orElse (transaction.get (text "value")) (countValue 0)) 18
  return { kind := text "evm-call", programId := target, instructionId := selector, data, source,
           destination := some target, nativeValue := some nativeValue }

/-- The optional quantity that is left out when the property is `undefined`. -/
def optionalDecimal (value : Value) (label : String) : Except String (Option Text) :=
  if value = .undefined then .ok none else some <$> decimalString value label

/-- The sender, when there is one. -/
def optionalSource (value : Value) : Except String (Option Text) :=
  if isNullish value then .ok none
  else some <$> normalizeEvmAddress libraries value "EVM transaction source"

def evmGas (chainId : Text) (transaction : Value) : Except String Gas := do
  let limit ← optionalDecimal (transaction.get (text "gas")) "EVM gas limit"
  let gasPrice ← optionalNativeAmount chainId (transaction.get (text "gasPrice"))
  let maxFeePerGas ← optionalNativeAmount chainId (transaction.get (text "maxFeePerGas"))
  let maxPriorityFeePerGas ←
    optionalNativeAmount chainId (transaction.get (text "maxPriorityFeePerGas"))
  return .evm limit gasPrice maxFeePerGas maxPriorityFeePerGas

def Gas.maxPriorityFeePerGas : Gas → Option AssetAmount
  | .evm _ _ _ maxPriorityFeePerGas => maxPriorityFeePerGas
  | .solana _ _ => none

/-- The description of an EVM transaction that makes the call of this instruction. -/
def evmDescription (chainId target : Text) (nonce source selector : Option Text) (gas : Gas)
    (deadline : Value) (instruction : Instruction) : Description :=
  { family := .evm, format := text "evm", chainId, nonce, programIds := [target],
    addressLookupTables := [], target := some target, selector, source,
    destination := instruction.destination, mint := instruction.mint, token := instruction.token,
    amount := instruction.amount, nativeValue := instruction.nativeValue, gas, feePayer := source,
    requiredSigners := source.toList, coSigners := [], instructions := [instruction],
    extraInstructions := [], blockhash := none, deadline,
    priorityFee := gas.maxPriorityFeePerGas }

def assertDecoderChainId (expected : Value) (chainId : Text) : Except String Unit :=
  if expected = .undefined then .ok ()
  else do
    let expected ← decimalString expected "decoder EVM chainId"
    throwIf (expected ≠ chainId) "decoder EVM chainId does not match the transaction chainId"

/-- `data.slice(0, 10)`, of calldata that is long enough. -/
def selectorOf (data : Text) : Option Text := if 10 ≤ data.length then some (data.take 10) else none

def decodeEvmInstruction (tokenMetadata : Value) (chainId target : Text) (source : Option Text)
    (data : Text) (transaction : Value) : Except String Instruction :=
  if selectorOf data = some transferSelector then
    decodeErc20Transfer libraries tokenMetadata chainId target source data transaction
  else decodeEvmCall chainId target source (selectorOf data) data transaction

/-- The description of the properties of a transaction. -/
def describeEvmTransaction (input : DecoderInput) (transaction : Value) :
    Except String Description := do
  assertSupportedEvmTransaction transaction
  assertSafeEvmAtomicInputs transaction
  let chainId ← decimalString (transaction.get (text "chainId")) "EVM chainId"
  assertDecoderChainId input.chainId chainId
  let target ← normalizeEvmAddress libraries (transaction.get (text "to")) "EVM transaction target"
  let source ← optionalSource libraries (transaction.get (text "from"))
  let nonce ← optionalDecimal (transaction.get (text "nonce")) "EVM nonce"
  let data ← normalizedEvmData (orElse (transaction.get (text "data")) (.string (text "0x")))
  let gas ← evmGas chainId transaction
  let instruction ← decodeEvmInstruction libraries input.context.tokenMetadata chainId target source
    data transaction
  return evmDescription chainId target nonce source (selectorOf data) gas
    (orElse (transaction.get (text "deadline")) .null) instruction

def decodeEvmTransaction (input : DecoderInput) : Except String Description := do
  let transaction ← readEvmTransaction libraries input.transaction
  describeEvmTransaction libraries input transaction.1

end Evm

end Hookemon.Signing
