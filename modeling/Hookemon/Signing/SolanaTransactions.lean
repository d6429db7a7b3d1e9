import Hookemon.Js.Base64
import Hookemon.Signing.EvmTransactions

/-! # `signing/transaction-policy.mjs`: Solana transactions

A message names its accounts by their position in the list of its own keys and the keys that
its lookup tables add. The description has the keys themselves.
-/

namespace Hookemon.Signing

open Hookemon.Core Hookemon.Js Hookemon.Runner

/-! ## Instructions -/

/-- `readUInt8`, `readUInt32LE` and `readBigUInt64LE`. -/
def readLE (data : Bytes) (offset width : Nat) : Nat :=
  natOfBytes ((data.drop offset).take width).reverse

def instructionId (data : Bytes) : Text :=
  if data.length = 0 then text "none" else text "0x" ++ hexOfBytes (data.take 1)

/-- What the decoder says of every instruction. -/
def unknownInstruction (programId : PublicKey) (accounts : List AccountMeta) (data : Bytes) :
    Instruction :=
  { kind := text "unknown", programId, instructionId := some (instructionId data),
    data := base64OfBytes data, accounts }

def decodeSolanaInstruction (chainId : Text) (programId : PublicKey) (accounts : List AccountMeta)
    (data : Bytes) : Except String Instruction :=
  let base := unknownInstruction programId accounts data
  if programId = COMPUTE_BUDGET_PROGRAM_ID ∧ data.length = 5 ∧ readLE data 0 1 = 2 then
    .ok { base with kind := text "compute-budget-set-unit-limit",
                    instructionId := some (text "set-compute-unit-limit"),
                    computeUnitLimit := some (natText (readLE data 1 4)) }
  else if programId = COMPUTE_BUDGET_PROGRAM_ID ∧ data.length = 9 ∧ readLE data 0 1 = 3 then do
    let priorityFee ← solanaComputeUnitPrice chainId (readLE data 1 8)
    return { base with kind := text "compute-budget-set-unit-price",
                       instructionId := some (text "set-compute-unit-price"),
                       priorityFee := some priorityFee }
  else match accounts with
  | source :: second :: rest =>
    if programId ∈ TOKEN_PROGRAM_IDS ∧ data.length = 10 ∧ readLE data 0 1 = 12
        ∧ 2 ≤ rest.length then do
      -- the second account is the mint and the third one the destination
      let amount ← assetAmount chainId second.address (countValue (readLE data 9 1))
        (.bigint (readLE data 1 8))
      return { base with kind := text "spl-transfer-checked",
                         instructionId := some (text "transfer-checked"),
                         source := some source.address,
                         destination := rest.head?.map AccountMeta.address,
                         mint := some second.address, token := some second.address,
                         amount := some amount }
    else if programId = SYSTEM_PROGRAM_ID ∧ data.length = 12 ∧ readLE data 0 4 = 2 then do
      let nativeValue ← nativeAmount chainId (.bigint (readLE data 4 8)) 9
      return { base with kind := text "system-transfer", instructionId := some (text "transfer"),
                         source := some source.address, destination := some second.address,
                         amount := some nativeValue, nativeValue := some nativeValue }
    else .ok base
  | _ => .ok base

/-! ## Lookup tables and the blockhash -/

section Context

variable (context : DecoderContext)

/-- The table of an answer, which has to be the one that was asked for. -/
def requestedTable (lookup : AddressTableLookup) (answer : Option AddressLookupTableAccount) :
    Except String AddressLookupTableAccount :=
  (answer.filter fun table => table.key = lookup.accountKey).elim
    (.error ("address lookup table " ++ display lookup.accountKey ++
      " was missing or did not match the requested key")) .ok

/-- The tables of the lookups from the `index`-th on. -/
def resolveTables (resolve : Nat → PublicKey → Except String (Option AddressLookupTableAccount))
    (index : Nat) : List AddressTableLookup → Except String (List AddressLookupTableAccount)
  | [] => .ok []
  | lookup :: lookups => do
    let answer ← (resolve index lookup.accountKey).mapError fun error =>
      "could not resolve address lookup table " ++ display lookup.accountKey ++ ": " ++ error
    let table ← requestedTable lookup answer
    throwIf (¬ table.isActive)
      ("address lookup table " ++ display lookup.accountKey ++ " is inactive")
    let tables ← resolveTables resolve (index + 1) lookups
    return table :: tables

def resolveAddressLookupTables (message : VersionedMessage) :
    Except String (List AddressLookupTableAccount) :=
  if message.addressTableLookups = [] then .ok []
  else match context.lookupTableResolver with
  | none =>
    .error "Solana v0 transaction requires an injected read-only address lookup table resolver"
  | some resolve => resolveTables resolve 0 message.addressTableLookups

/-- What the blockhash resolver adds to the input. -/
structure BlockhashContext where
  lastValidBlockHeight : Value
  originalBlockhashValidity : Option Text

/-- `Object.keys(value).sort().join(',')`. -/
def sortedKeys (fs : Fields) : Text := join ((fs.map Prod.fst).insertionSort (· ≤ ·))

/-- The answer of the blockhash resolver, an object. -/
def readBlockhashContext (recentBlockhash : Text) (answer : Fields) :
    Except String BlockhashContext := do
  throwIf (getField answer (text "blockhash") ≠ .string recentBlockhash)
    "Solana blockhashContextResolver returned a blockhash that does not match the transaction"
  if getField answer (text "type") = .string (text "rpc-blockhash-validity") then
    throwIf (sortedKeys answer ≠ text "blockhash,observedSlot,type,valid"
        ∨ getField answer (text "valid") ≠ .boolean true)
      "Solana original blockhash validity context is invalid"
    let observedSlot ← decimalString (getField answer (text "observedSlot"))
      "Solana validity observation slot"
    return ⟨context.lastValidBlockHeight, some observedSlot⟩
  else
    let height ← decimalString (getField answer (text "lastValidBlockHeight"))
      "Solana blockhash context lastValidBlockHeight"
    return ⟨.string height, none⟩

def resolveSolanaBlockhashContext (recentBlockhash : Text) : Except String BlockhashContext :=
  match context.blockhashContextResolver with
  | .undefined => .ok ⟨context.lastValidBlockHeight, none⟩
  | .notFunction => .error "Solana blockhashContextResolver must be a function"
  | .function resolve =>
    match resolve recentBlockhash with
    | .error error => .error ("Solana blockhashContextResolver failed: " ++ error)
    | .ok (.object answer) => readBlockhashContext context recentBlockhash answer
    | .ok _ => .error
      "Solana blockhashContextResolver must return a blockhash and lastValidBlockHeight pair"

/-- The canonical text of a height. -/
def canonicalHeight : Value → Option Text
  | .string s => if isDecimal s then some s else none
  | .number (.integer n _) => if 0 ≤ n ∧ n ≤ 2 ^ 53 - 1 then some (natText n.toNat) else none
  | .number .negativeZero => some (natText 0)
  | .bigint n => if 0 ≤ n then some (natText n.toNat) else none
  | _ => none

/-- The height that the resolver puts in place of the one in the input. -/
def resolveSolanaCurrentBlockHeight : Except String Value :=
  match context.currentBlockHeightResolver with
  | .undefined => .ok context.currentBlockHeight
  | .notFunction => .error "Solana currentBlockHeightResolver must be a function"
  | .function answer => do
    let height ← answer.mapError ("Solana currentBlockHeightResolver failed: " ++ ·)
    (canonicalHeight height).elim
      (.error "Solana currentBlockHeightResolver must return a canonical non-negative integer")
      fun s => .ok (.string s)

end Context

/-! ## Messages -/

section Solana

variable (libraries : Libraries)

/-- The message of a transaction, or a message alone, and how the parsers failed. -/
def solanaMessage (transaction : Text) : Except String VersionedMessage :=
  let bytes := bytesOfBase64 transaction
  match libraries.deserializeTransaction bytes with
  | .ok parsed => .ok parsed.message
  | .error _ => (libraries.deserializeMessage bytes).mapError
      ("Solana transaction or message could not be deserialized: " ++ ·)

def MessageVersion.format : MessageVersion → Text
  | .legacy => text "legacy"
  | .v0 => text "v0"

def keyAt (accountKeys : List PublicKey) (index : Nat) (label : String) :
    Except String PublicKey :=
  (accountKeys[index]?).elim
    (.error ("Solana " ++ label ++ " index " ++ toString index ++ " was not resolved")) .ok

/-- The keys of the first slots, which must sign. -/
def requiredSignerKeys (accountKeys : List PublicKey) (required : Nat) :
    Except String (List PublicKey) :=
  (List.range required).mapM fun index => keyAt accountKeys index "required signer"

/-- One account of an instruction. -/
def accountAt (message : VersionedMessage) (accountKeys : List PublicKey) (label : String)
    (accountIndex : Nat) : Except String AccountMeta := do
  let address ← keyAt accountKeys accountIndex label
  return { address, isSigner := libraries.isAccountSigner message accountIndex,
           isWritable := libraries.isAccountWritable message accountIndex }

/-- One instruction, with its position among the others. -/
def describeInstruction (chainId : Text) (message : VersionedMessage)
    (accountKeys : List PublicKey) (position : CompiledInstruction × Nat) :
    Except String Instruction := do
  let label := "instruction " ++ toString position.2
  let programId ← keyAt accountKeys position.1.programIdIndex (label ++ " program")
  let accounts ← position.1.accountKeyIndexes.mapM
    (accountAt libraries message accountKeys (label ++ " account"))
  decodeSolanaInstruction chainId programId accounts position.1.data

/-- `spl-transfer-checked` and `system-transfer`. -/
def Instruction.isTransfer (i : Instruction) : Bool :=
  i.kind = text "spl-transfer-checked" || i.kind = text "system-transfer"

/-- The only transfer, if there is exactly one. -/
def primaryTransfer (instructions : List Instruction) : Option Instruction :=
  match instructions.filter Instruction.isTransfer with
  | [transfer] => some transfer
  | _ => none

/-- The only value, if there is exactly one. -/
def onlyOne {α : Type} : List α → Option α
  | [a] => some a
  | _ => none

/-- `value === undefined ? null : decimalString(value)`. -/
def heightText (value : Value) (label : String) : Except String (Option Text) :=
  if value = .undefined then .ok none else some <$> decimalString value label

/-- The deadline: a validity that was observed, a last height, or `null`. -/
def solanaDeadline (validity lastValidBlockHeight currentBlockHeight : Option Text) : Value :=
  match validity, lastValidBlockHeight with
  | some observedSlot, _ =>
    .object [(text "type", .string (text "rpc-blockhash-validity")),
      (text "valid", .boolean true), (text "observedSlot", .string observedSlot)]
  | none, none => .null
  | none, some last =>
    .object [(text "type", .string (text "block-height")),
      (text "lastValidBlockHeight", .string last),
      (text "observedBlockHeight", optionalText currentBlockHeight),
      (text "expired", currentBlockHeight.elim .null fun current =>
        .boolean (textNat last < textNat current))]

/-- The description of a message from what was resolved for it. -/
def solanaDescription (chainId : Text) (message : VersionedMessage)
    (requiredSigners : List PublicKey) (instructions : List Instruction) (deadline : Value) :
    Description :=
  let primary := primaryTransfer instructions
  let priorityFee := onlyOne (instructions.filterMap Instruction.priorityFee)
  { family := .solana, format := message.version.format, chainId, nonce := none,
    programIds := (instructions.map Instruction.programId).eraseDups,
    addressLookupTables := message.addressTableLookups.map AddressTableLookup.accountKey,
    target := none, selector := none,
    source := primary.bind Instruction.source,
    destination := primary.bind Instruction.destination,
    mint := primary.bind Instruction.mint, token := primary.bind Instruction.token,
    amount := primary.bind Instruction.amount,
    nativeValue := primary.bind Instruction.nativeValue,
    gas := .solana (onlyOne (instructions.filterMap Instruction.computeUnitLimit)) priorityFee,
    feePayer := requiredSigners.head?, requiredSigners, coSigners := requiredSigners.tail,
    instructions,
    extraInstructions :=
      if primary.isSome then instructions.filter (fun i => !i.isTransfer) else instructions,
    blockhash := some message.recentBlockhash, deadline, priorityFee }

/-- The base64 text of a transaction or a message. -/
def transactionText (transaction : Value) : Except String Text :=
  match transaction with
  | .string s =>
    if s = [] then .error "Solana transaction must be a non-empty base64 string" else .ok s
  | _ => .error "Solana transaction must be a non-empty base64 string"

def decoderChainId (chainId : Value) : Except String Text :=
  match chainId with
  | .string s => if s = [] then .error "Solana decoder requires an explicit chainId" else .ok s
  | _ => .error "Solana decoder requires an explicit chainId"

/-- `decodeSolanaTransaction`, with the current height that was resolved before. -/
def decodeSolanaTransaction (input : DecoderInput) (currentBlockHeight : Value) :
    Except String Description := do
  let chainId ← decoderChainId input.chainId
  let transaction ← transactionText input.transaction.1
  let message ← solanaMessage libraries transaction
  let blockhash ← resolveSolanaBlockhashContext input.context message.recentBlockhash
  let tables ← resolveAddressLookupTables input.context message
  let accountKeys ← (libraries.getAccountKeys message tables).mapError
    ("Solana transaction account keys could not be resolved: " ++ ·)
  let requiredSigners ← requiredSignerKeys accountKeys message.numRequiredSignatures
  throwIf (requiredSigners = []) "Solana transaction has no fee payer signature slot"
  let instructions ← message.compiledInstructions.zipIdx.mapM
    (describeInstruction libraries chainId message accountKeys)
  let lastValidBlockHeight ← heightText blockhash.lastValidBlockHeight "Solana lastValidBlockHeight"
  let currentBlockHeight ← heightText currentBlockHeight "Solana currentBlockHeight"
  return solanaDescription chainId message requiredSigners instructions
    (solanaDeadline blockhash.originalBlockhashValidity lastValidBlockHeight currentBlockHeight)

end Solana

end Hookemon.Signing
