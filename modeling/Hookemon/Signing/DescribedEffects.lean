import Hookemon.Signing.DescriptionText
import Hookemon.Signing.SignedMessages

/-! # Descriptions determine what is executed

What a chain executes of a transaction, read from the transaction itself, can be computed
from the description that the decoder made of it. So a signed message that is described as
the approved transaction has the same effect.
-/

namespace Hookemon.Signing

open Hookemon.Core Hookemon.Js Hookemon.Runner

/-! ## What an EVM chain executes -/

/-- The hexadecimal digits of a text behind its mark. -/
def digitsOf (s : Text) : List Nat := (s.drop 2).map unitHex

/-- Addresses and calldata are their digits. What a transaction leaves open is `none`. -/
structure EvmEffect where
  chainId : Nat
  sender : Option (List Nat)
  nonce : Option Nat
  target : List Nat
  calldata : List Nat
  value : Nat
  gasLimit : Option Nat
  gasPrice : Option Nat
  maxFeePerGas : Option Nat
  maxPriorityFeePerGas : Option Nat
deriving DecidableEq, Repr

def hexDigits : Value → Option (List Nat)
  | .string s => some (digitsOf s)
  | _ => none

/-- A quantity, from any value that `BigInt` takes. -/
def quantity (v : Value) : Option Nat :=
  (bigIntOf v).bind fun n => if 0 ≤ n then some n.toNat else none

/-- A reading of a property, which may be left open. -/
def stated {α : Type} (read : Value → Option α) (v : Value) : Option (Option α) :=
  if isNullish v then some none else (read v).map some

/-- The effect of a transaction from its properties. -/
def evmEffect (transaction : Value) : Option EvmEffect := do
  let chainId ← quantity (transaction.get (text "chainId"))
  let sender ← stated hexDigits (transaction.get (text "from"))
  let nonce ← stated quantity (transaction.get (text "nonce"))
  let target ← hexDigits (transaction.get (text "to"))
  let calldata ← hexDigits (orElse (transaction.get (text "data")) (.string (text "0x")))
  let value ← quantity (orElse (transaction.get (text "value")) (countValue 0))
  let gasLimit ← stated quantity (transaction.get (text "gas"))
  let gasPrice ← stated quantity (transaction.get (text "gasPrice"))
  let maxFeePerGas ← stated quantity (transaction.get (text "maxFeePerGas"))
  let maxPriorityFeePerGas ← stated quantity (transaction.get (text "maxPriorityFeePerGas"))
  return { chainId, sender, nonce, target, calldata, value, gasLimit, gasPrice, maxFeePerGas,
           maxPriorityFeePerGas }

/-! ## What the Solana chain executes -/

structure ExecutedInstruction where
  program : PublicKey
  accounts : List AccountMeta
  data : Bytes
deriving DecidableEq

structure SolanaEffect where
  feePayer : Option PublicKey
  requiredSigners : List PublicKey
  recentBlockhash : Text
  instructions : List ExecutedInstruction
deriving DecidableEq

/-- The addresses of every lookup table that the chain has. -/
abbrev LookupTables := PublicKey → Option (List PublicKey)

/-- The keys that some of the indexes of the lookups load. -/
def loadedKeys (tables : LookupTables) (indexes : AddressTableLookup → List Nat)
    (lookups : List AddressTableLookup) : Option (List PublicKey) := do
  let lists ← lookups.mapM fun lookup => do
    let addresses ← tables lookup.accountKey
    (indexes lookup).mapM fun index => addresses[index]?
  return lists.flatten

/-- The keys of a message: its own, then the writable and then the readonly loaded ones. -/
def chainAccountKeys (tables : LookupTables) (message : VersionedMessage) :
    Option (List PublicKey) := do
  let writable ← loadedKeys tables AddressTableLookup.writableIndexes message.addressTableLookups
  let readonly ← loadedKeys tables AddressTableLookup.readonlyIndexes message.addressTableLookups
  return message.staticAccountKeys ++ writable ++ readonly

def chainIsSigner (message : VersionedMessage) (index : Nat) : Bool :=
  index < message.numRequiredSignatures

/-- Among the signers, among the other keys of the message, and among the loaded keys the
writable accounts come first. -/
def chainIsWritable (message : VersionedMessage) (index : Nat) : Bool :=
  let keys := message.staticAccountKeys.length
  if index < message.numRequiredSignatures then
    index < message.numRequiredSignatures - message.numReadonlySignedAccounts
  else if index < keys then index < keys - message.numReadonlyUnsignedAccounts
  else index - keys <
    (message.addressTableLookups.map fun lookup => lookup.writableIndexes.length).sum

def executedInstruction (message : VersionedMessage) (keys : List PublicKey)
    (compiled : CompiledInstruction) : Option ExecutedInstruction := do
  let program ← keys[compiled.programIdIndex]?
  let accounts ← compiled.accountKeyIndexes.mapM fun index => do
    let address ← keys[index]?
    return { address, isSigner := chainIsSigner message index,
             isWritable := chainIsWritable message index }
  return { program, accounts, data := compiled.data }

/-- The effect of a message where the lookup tables are these. -/
def solanaEffect (tables : LookupTables) (message : VersionedMessage) : Option SolanaEffect := do
  let keys ← chainAccountKeys tables message
  let requiredSigners ← (List.range message.numRequiredSignatures).mapM fun index => keys[index]?
  let instructions ← message.compiledInstructions.mapM (executedInstruction message keys)
  return { feePayer := requiredSigners.head?, requiredSigners,
           recentBlockhash := message.recentBlockhash, instructions }

/-! ## What a description says of it -/

def Gas.figure (read : Gas → Option AssetAmount) (g : Gas) : Option Nat :=
  (read g).map fun a => textNat a.amountAtomic

def Gas.limit : Gas → Option Text
  | .evm limit _ _ _ => limit
  | .solana _ _ => none

def Gas.gasPrice : Gas → Option AssetAmount
  | .evm _ gasPrice _ _ => gasPrice
  | .solana _ _ => none

def Gas.maxFeePerGas : Gas → Option AssetAmount
  | .evm _ _ maxFeePerGas _ => maxFeePerGas
  | .solana _ _ => none

def Description.evm (d : Description) : EvmEffect where
  chainId := textNat d.chainId
  sender := d.source.map digitsOf
  nonce := d.nonce.map textNat
  target := (d.target.map digitsOf).getD []
  calldata := (d.instructions.head?.map fun i => digitsOf i.data).getD []
  value := (d.nativeValue.map fun a => textNat a.amountAtomic).getD 0
  gasLimit := d.gas.limit.map textNat
  gasPrice := d.gas.figure Gas.gasPrice
  maxFeePerGas := d.gas.figure Gas.maxFeePerGas
  maxPriorityFeePerGas := d.gas.figure Gas.maxPriorityFeePerGas

def Instruction.executed (i : Instruction) : ExecutedInstruction :=
  { program := i.programId, accounts := i.accounts, data := bytesOfBase64 i.data }

def Description.solana (d : Description) : SolanaEffect where
  feePayer := d.requiredSigners.head?
  requiredSigners := d.requiredSigners
  recentBlockhash := d.blockhash.getD []
  instructions := d.instructions.map Instruction.executed

/-! ## Faithful libraries -/

/-- What is used of the libraries: an address is forty hexadecimal digits behind `0x`, of
which `getAddress` changes the case only, and the accounts of a message are those that the
chain takes. -/
structure Faithful (libraries : Libraries) : Prop where
  address : ∀ a, libraries.isAddress a → hasShape (text "0x") isHexDigit 40 a
  getAddress : ∀ a, libraries.isAddress a → toLowerCase (libraries.getAddress a) = toLowerCase a
  accountKeys : ∀ message tables keys, libraries.getAccountKeys message tables = .ok keys →
    chainAccountKeys
      (fun key => (tables.find? fun t => t.key = key).map AddressLookupTableAccount.addresses)
      message = some keys
  signer : ∀ message index, libraries.isAccountSigner message index = chainIsSigner message index
  writable : ∀ message index,
    libraries.isAccountWritable message index = chainIsWritable message index

/-! ## EVM transactions -/

theorem decimalString_eq_ok {v : Value} {label : String} {t : Text}
    (h : decimalString v label = .ok t) : ∃ n, quantity v = some n ∧ t = natText n := by
  rw [decimalString] at h
  obtain ⟨_, -, h⟩ := bind_eq_ok.mp h
  obtain ⟨n, hn, h⟩ := bind_eq_ok.mp h
  obtain ⟨_, hsign, h⟩ := bind_eq_ok.mp h
  have hpos : 0 ≤ n := by simpa using hsign
  have hread : bigIntOf v = some n := by
    cases hv : bigIntOf v with
    | none => simp [hv] at hn
    | some m => simpa [hv] using hn
  refine ⟨n.toNat, ?_, (pure_eq_ok.mp h).symm⟩
  rw [quantity, hread, Option.bind_some, if_pos hpos]

theorem assetAmount_eq_ok {chainId assetId : Text} {decimals amountAtomic : Value}
    {a : AssetAmount} (h : assetAmount chainId assetId decimals amountAtomic = .ok a) :
    ∃ n, quantity amountAtomic = some n ∧ a.amountAtomic = natText n := by
  rw [assetAmount] at h
  obtain ⟨_, -, h⟩ := bind_eq_ok.mp h
  obtain ⟨_, -, h⟩ := bind_eq_ok.mp h
  obtain ⟨_, -, h⟩ := bind_eq_ok.mp h
  obtain ⟨t, ht, h⟩ := bind_eq_ok.mp h
  obtain ⟨n, hn, rfl⟩ := decimalString_eq_ok ht
  cases pure_eq_ok.mp h
  exact ⟨n, hn, rfl⟩

theorem optionalDecimal_eq_ok {v : Value} {label : String} {t : Option Text}
    (h : optionalDecimal v label = .ok t) : stated quantity v = some (t.map textNat) := by
  rw [optionalDecimal] at h
  by_cases hv : v = .undefined
  · rw [if_pos hv] at h
    cases h
    rw [hv]
    rfl
  · rw [if_neg hv] at h
    cases hs : decimalString v label with
    | error e => rw [hs] at h; cases h
    | ok s =>
      rw [hs] at h
      cases h
      obtain ⟨n, hn, rfl⟩ := decimalString_eq_ok hs
      have hnot : isNullish v = false := by cases v <;> simp_all [isNullish, quantity, bigIntOf]
      rw [stated, hnot, if_neg Bool.false_ne_true, hn]
      simp

theorem optionalNativeAmount_eq_ok {chainId : Text} {v : Value} {a : Option AssetAmount}
    (h : optionalNativeAmount chainId v = .ok a) :
    stated quantity v = some (a.map fun b => textNat b.amountAtomic) := by
  rw [optionalNativeAmount] at h
  cases hv : isNullish v with
  | true =>
    rw [hv, if_pos rfl] at h
    cases h
    rw [stated, hv, if_pos rfl]
    rfl
  | false =>
    rw [hv, if_neg Bool.false_ne_true] at h
    cases hb : nativeAmount chainId v 18 with
    | error e => rw [hb] at h; cases h
    | ok b =>
      rw [hb] at h
      cases h
      obtain ⟨n, hn, hatomic⟩ := assetAmount_eq_ok hb
      rw [stated, hv, if_neg Bool.false_ne_true, hn]
      simp [hatomic]

/-- Changing the case of hexadecimal digits leaves what they denote. -/
theorem digitsOf_toLowerCase {s : Text} (h : (s.drop 2).all isHexDigit) :
    digitsOf (toLowerCase s) = digitsOf s := by
  rw [digitsOf, digitsOf, toLowerCase_eq, ← List.map_drop, List.map_map]
  refine List.map_congr_left fun c hc => ?_
  have hdigit : isHexDigit c := List.all_eq_true.mp h c hc
  show unitHex (lowerUnit c) = unitHex c
  rw [← hexUnit_unitHex hdigit, unitHex_hexUnit (unitHex_lt hdigit)]

section Evm

variable {libraries : Libraries} (faithful : Faithful libraries)

include faithful

theorem normalizeEvmAddress_eq_ok {v : Value} {label : String} {t : Text}
    (h : normalizeEvmAddress libraries v label = .ok t) : hexDigits v = some (digitsOf t) := by
  cases v with
  | string s =>
    rw [normalizeEvmAddress] at h
    split at h
    · rename_i haddress
      cases h
      have hshape := faithful.address s haddress
      simp only [hasShape, Bool.and_eq_true] at hshape
      rw [faithful.getAddress s haddress, digitsOf_toLowerCase hshape.2]
      rfl
    · cases h
  | _ => cases h

theorem optionalSource_eq_ok {v : Value} {t : Option Text}
    (h : optionalSource libraries v = .ok t) : stated hexDigits v = some (t.map digitsOf) := by
  rw [optionalSource] at h
  cases hv : isNullish v with
  | true =>
    rw [hv, if_pos rfl] at h
    cases h
    rw [stated, hv, if_pos rfl]
    rfl
  | false =>
    rw [hv, if_neg Bool.false_ne_true] at h
    cases hs : normalizeEvmAddress libraries v "EVM transaction source" with
    | error e => rw [hs] at h; cases h
    | ok s =>
      rw [hs] at h
      cases h
      rw [stated, hv, if_neg Bool.false_ne_true, normalizeEvmAddress_eq_ok faithful hs]
      rfl

omit faithful

theorem normalizedEvmData_eq_ok {v : Value} {t : Text} (h : normalizedEvmData v = .ok t) :
    hexDigits v = some (digitsOf t) := by
  cases v with
  | string s =>
    rw [normalizedEvmData] at h
    split at h
    · rename_i hshape
      cases h
      rw [digitsOf_toLowerCase hshape.2]
      rfl
    · cases h
  | _ => cases h

theorem decodeErc20Transfer_eq_ok {tokenMetadata transaction : Value} {chainId target data : Text}
    {source : Option Text} {i : Instruction}
    (h : decodeErc20Transfer libraries tokenMetadata chainId target source data transaction
      = .ok i) :
    i.data = data ∧ ∃ a, i.nativeValue = some a ∧
      nativeAmount chainId (orElse (transaction.get (text "value")) (countValue 0)) 18 = .ok a := by
  rw [decodeErc20Transfer] at h
  obtain ⟨_, -, h⟩ := bind_eq_ok.mp h
  obtain ⟨_, -, h⟩ := bind_eq_ok.mp h
  obtain ⟨_, -, h⟩ := bind_eq_ok.mp h
  obtain ⟨_, -, h⟩ := bind_eq_ok.mp h
  obtain ⟨_, -, h⟩ := bind_eq_ok.mp h
  obtain ⟨a, ha, h⟩ := bind_eq_ok.mp h
  cases pure_eq_ok.mp h
  exact ⟨rfl, a, rfl, ha⟩

/-- The description of a call has its data and its value. -/
theorem decodeEvmInstruction_eq_ok {tokenMetadata transaction : Value}
    {chainId target data : Text} {source : Option Text} {i : Instruction}
    (h : decodeEvmInstruction libraries tokenMetadata chainId target source data transaction
      = .ok i) :
    i.data = data ∧ ∃ a, i.nativeValue = some a ∧
      nativeAmount chainId (orElse (transaction.get (text "value")) (countValue 0)) 18 = .ok a := by
  rw [decodeEvmInstruction] at h
  split at h
  · exact decodeErc20Transfer_eq_ok h
  · rw [decodeEvmCall] at h
    obtain ⟨a, ha, h⟩ := bind_eq_ok.mp h
    cases pure_eq_ok.mp h
    exact ⟨rfl, a, rfl, ha⟩

theorem evmGas_eq_ok {chainId : Text} {transaction : Value} {g : Gas}
    (h : evmGas chainId transaction = .ok g) :
    (∃ limit gasPrice maxFee maxPriority, g = .evm limit gasPrice maxFee maxPriority) ∧
      stated quantity (transaction.get (text "gas")) = some (g.limit.map textNat) ∧
      stated quantity (transaction.get (text "gasPrice")) = some (g.figure Gas.gasPrice) ∧
      stated quantity (transaction.get (text "maxFeePerGas"))
        = some (g.figure Gas.maxFeePerGas) ∧
      stated quantity (transaction.get (text "maxPriorityFeePerGas"))
        = some (g.figure Gas.maxPriorityFeePerGas) := by
  rw [evmGas] at h
  obtain ⟨limit, hlimit, h⟩ := bind_eq_ok.mp h
  obtain ⟨gasPrice, hgasPrice, h⟩ := bind_eq_ok.mp h
  obtain ⟨maxFee, hmaxFee, h⟩ := bind_eq_ok.mp h
  obtain ⟨maxPriority, hmaxPriority, h⟩ := bind_eq_ok.mp h
  cases pure_eq_ok.mp h
  exact ⟨⟨limit, gasPrice, maxFee, maxPriority, rfl⟩, optionalDecimal_eq_ok hlimit,
    optionalNativeAmount_eq_ok hgasPrice, optionalNativeAmount_eq_ok hmaxFee,
    optionalNativeAmount_eq_ok hmaxPriority⟩

include faithful

/-- The effect of a transaction is what its description says. -/
theorem describeEvmTransaction_eq_ok {input : DecoderInput} {transaction : Value}
    {d : Description} (h : describeEvmTransaction libraries input transaction = .ok d) :
    evmEffect transaction = some d.evm ∧ d.family = .evm ∧
      (∃ limit gasPrice maxFee maxPriority, d.gas = .evm limit gasPrice maxFee maxPriority) ∧
      d.deadline = orElse (transaction.get (text "deadline")) .null := by
  rw [describeEvmTransaction] at h
  obtain ⟨_, -, h⟩ := bind_eq_ok.mp h
  obtain ⟨_, -, h⟩ := bind_eq_ok.mp h
  obtain ⟨chainId, hchain, h⟩ := bind_eq_ok.mp h
  obtain ⟨_, -, h⟩ := bind_eq_ok.mp h
  obtain ⟨target, htarget, h⟩ := bind_eq_ok.mp h
  obtain ⟨source, hsource, h⟩ := bind_eq_ok.mp h
  obtain ⟨nonce, hnonce, h⟩ := bind_eq_ok.mp h
  obtain ⟨data, hdata, h⟩ := bind_eq_ok.mp h
  obtain ⟨gas, hgas, h⟩ := bind_eq_ok.mp h
  obtain ⟨i, hi, h⟩ := bind_eq_ok.mp h
  cases pure_eq_ok.mp h
  obtain ⟨n, hn, rfl⟩ := decimalString_eq_ok hchain
  obtain ⟨hform, hlimit, hgasPrice, hmaxFee, hmaxPriority⟩ := evmGas_eq_ok hgas
  obtain ⟨hidata, a, hvalue, ha⟩ := decodeEvmInstruction_eq_ok hi
  obtain ⟨v, hv, hatomic⟩ := assetAmount_eq_ok ha
  refine ⟨?_, rfl, hform, rfl⟩
  simp only [evmEffect, hn, optionalSource_eq_ok faithful hsource, optionalDecimal_eq_ok hnonce,
    normalizeEvmAddress_eq_ok faithful htarget, normalizedEvmData_eq_ok hdata, hv, hlimit,
    hgasPrice, hmaxFee, hmaxPriority, Option.bind_eq_bind, Option.bind_some]
  simp [Description.evm, evmDescription, hidata, hvalue, hatomic, pure]

end Evm

/-! ## Solana transactions -/

/-- A pass that may fail, and the same pass without its messages. -/
theorem mapM_some_of_ok {ε α β γ : Type} {f : α → Except ε β} {g : α → Option γ} {k : β → γ}
    {xs : List α} {ys : List β} (h : ∀ x y, f x = .ok y → g x = some (k y))
    (hxs : xs.mapM f = .ok ys) : xs.mapM g = some (ys.map k) := by
  induction xs generalizing ys with
  | nil =>
    rw [List.mapM_nil] at hxs
    cases pure_eq_ok.mp hxs
    rfl
  | cons x xs ih =>
    rw [List.mapM_cons] at hxs
    obtain ⟨y, hy, hxs⟩ := bind_eq_ok.mp hxs
    obtain ⟨ys, hys, hxs⟩ := bind_eq_ok.mp hxs
    cases pure_eq_ok.mp hxs
    rw [List.mapM_cons, h x y hy, ih hys]
    rfl

theorem mapM_some_mono {α β : Type} {f g : α → Option β} {xs : List α} {ys : List β}
    (h : ∀ x y, f x = some y → g x = some y) (hxs : xs.mapM f = some ys) :
    xs.mapM g = some ys := by
  induction xs generalizing ys with
  | nil => exact hxs
  | cons x xs ih =>
    rw [List.mapM_cons] at hxs ⊢
    obtain ⟨y, hy, hxs⟩ := Option.bind_eq_some_iff.mp hxs
    obtain ⟨zs, hzs, hxs⟩ := Option.bind_eq_some_iff.mp hxs
    rw [h x y hy, Option.bind_eq_bind, Option.bind_some, ih hzs]
    exact hxs

theorem keyAt_eq_ok {keys : List PublicKey} {index : Nat} {label : String} {key : PublicKey}
    (h : keyAt keys index label = .ok key) : keys[index]? = some key := by
  rw [keyAt] at h
  cases hkey : keys[index]? with
  | none => rw [hkey] at h; cases h
  | some k =>
    rw [hkey] at h
    cases h
    rfl

/-- Every table of the first state is in the second one, with the same addresses first. -/
def Grown (before after : LookupTables) : Prop :=
  ∀ key addresses, before key = some addresses →
    ∃ more, after key = some more ∧ addresses <+: more

/-- Keys that were loaded from tables are loaded from tables that have grown. -/
theorem loadedKeys_grown {before after : LookupTables} (hgrown : Grown before after)
    {indexes : AddressTableLookup → List Nat} {lookups : List AddressTableLookup}
    {keys : List PublicKey} (h : loadedKeys before indexes lookups = some keys) :
    loadedKeys after indexes lookups = some keys := by
  rw [loadedKeys] at h ⊢
  obtain ⟨lists, hlists, h⟩ := Option.bind_eq_some_iff.mp h
  have hafter := mapM_some_mono (g := fun lookup => do
    let addresses ← after lookup.accountKey
    (indexes lookup).mapM fun index => addresses[index]?) (fun lookup list hlist => ?_) hlists
  · rw [hafter]
    exact h
  · obtain ⟨addresses, haddresses, hlist⟩ := Option.bind_eq_some_iff.mp hlist
    obtain ⟨more, hmore, hstart⟩ := hgrown _ addresses haddresses
    rw [hmore]
    refine mapM_some_mono (fun index key hkey => ?_) hlist
    obtain ⟨rest, rfl⟩ := hstart
    rw [List.getElem?_append_left (List.getElem?_eq_some_iff.mp hkey).1]
    exact hkey

theorem chainAccountKeys_grown {before after : LookupTables} (hgrown : Grown before after)
    {message : VersionedMessage} {keys : List PublicKey}
    (h : chainAccountKeys before message = some keys) :
    chainAccountKeys after message = some keys := by
  rw [chainAccountKeys] at h ⊢
  obtain ⟨writable, hwritable, h⟩ := Option.bind_eq_some_iff.mp h
  obtain ⟨readonly, hreadonly, h⟩ := Option.bind_eq_some_iff.mp h
  rw [loadedKeys_grown hgrown hwritable, Option.bind_eq_bind, Option.bind_some,
    loadedKeys_grown hgrown hreadonly]
  exact h

/-- The tables of the chain are those that the resolver reported, or have grown since. -/
def GrownSince (context : DecoderContext) (tables : LookupTables) : Prop :=
  ∀ resolve, context.lookupTableResolver = some resolve →
    ∀ index key table, resolve index key = .ok (some table) →
      ∃ more, tables table.key = some more ∧ table.addresses <+: more

theorem mapError_eq_ok {ε ε' α : Type} {f : ε → ε'} {x : Except ε α} {a : α}
    (h : x.mapError f = .ok a) : x = .ok a := by
  cases x with
  | error e => cases h
  | ok b =>
    cases h
    rfl

theorem requestedTable_eq_ok {lookup : AddressTableLookup}
    {answer : Option AddressLookupTableAccount} {table : AddressLookupTableAccount}
    (h : requestedTable lookup answer = .ok table) : answer = some table := by
  rw [requestedTable] at h
  cases hfound : answer.filter fun table => table.key = lookup.accountKey with
  | none => rw [hfound] at h; cases h
  | some found =>
    rw [hfound] at h
    cases h
    exact (Option.filter_eq_some_iff.mp hfound).1

/-- Every table was an answer of the resolver. -/
theorem resolveTables_answers
    {resolve : Nat → PublicKey → Except String (Option AddressLookupTableAccount)}
    {lookups : List AddressTableLookup} {index : Nat} {tables : List AddressLookupTableAccount}
    (h : resolveTables resolve index lookups = .ok tables) :
    ∀ table ∈ tables, ∃ i key, resolve i key = .ok (some table) := by
  induction lookups generalizing index tables with
  | nil =>
    cases h
    simp
  | cons lookup lookups ih =>
    rw [resolveTables] at h
    obtain ⟨answer, hanswer, h⟩ := bind_eq_ok.mp h
    obtain ⟨table, htable, h⟩ := bind_eq_ok.mp h
    obtain ⟨_, -, h⟩ := bind_eq_ok.mp h
    obtain ⟨rest, hrest, h⟩ := bind_eq_ok.mp h
    cases pure_eq_ok.mp h
    intro t ht
    rcases List.mem_cons.mp ht with rfl | hmem
    · exact ⟨index, lookup.accountKey, requestedTable_eq_ok htable ▸ mapError_eq_ok hanswer⟩
    · exact ih hrest t hmem

/-- The tables of a decoding, by their keys. -/
def tablesOf (tables : List AddressLookupTableAccount) : LookupTables := fun key =>
  (tables.find? fun t => t.key = key).map AddressLookupTableAccount.addresses

theorem tablesOf_grown {context : DecoderContext} {message : VersionedMessage}
    {tables : List AddressLookupTableAccount} {chain : LookupTables}
    (hchain : GrownSince context chain)
    (h : resolveAddressLookupTables context message = .ok tables) :
    Grown (tablesOf tables) chain := by
  intro key addresses haddresses
  obtain ⟨table, hfound, rfl⟩ := Option.map_eq_some_iff.mp haddresses
  have hkey : table.key = key := by simpa using List.find?_some hfound
  have hmem : table ∈ tables := List.mem_of_find?_eq_some hfound
  rw [resolveAddressLookupTables] at h
  split at h
  · cases h
    cases hmem
  · cases hresolver : context.lookupTableResolver with
    | none => rw [hresolver] at h; cases h
    | some resolve =>
      rw [hresolver] at h
      obtain ⟨i, k, hanswer⟩ := resolveTables_answers h table hmem
      rw [← hkey]
      exact hchain resolve hresolver i k table hanswer

/-- Every kind of instruction keeps its program, its accounts and all of its data. -/
theorem decodeSolanaInstruction_eq_ok {chainId : Text} {programId : PublicKey}
    {accounts : List AccountMeta} {data : Bytes} {i : Instruction}
    (h : decodeSolanaInstruction chainId programId accounts data = .ok i) :
    i.executed = { program := programId, accounts, data } := by
  have hbase : (unknownInstruction programId accounts data).executed
      = { program := programId, accounts, data } := by
    simp [unknownInstruction, Instruction.executed]
  unfold decodeSolanaInstruction at h
  split at h
  · cases h
    exact hbase
  · split at h
    · obtain ⟨fee, -, h⟩ := bind_eq_ok.mp h
      cases pure_eq_ok.mp h
      exact hbase
    · split at h
      · split at h
        · obtain ⟨amount, -, h⟩ := bind_eq_ok.mp h
          cases pure_eq_ok.mp h
          exact hbase
        · split at h
          · obtain ⟨value, -, h⟩ := bind_eq_ok.mp h
            cases pure_eq_ok.mp h
            exact hbase
          · cases h
            exact hbase
      · cases h
        exact hbase

theorem transactionText_eq_ok {transaction : Value} {t : Text}
    (h : transactionText transaction = .ok t) : transaction = .string t := by
  cases transaction with
  | string s =>
    rw [transactionText] at h
    split at h
    · cases h
    · cases h
      rfl
  | _ => cases h

theorem length_of_mapM {ε α β : Type} {f : α → Except ε β} {xs : List α} {ys : List β}
    (h : xs.mapM f = .ok ys) : ys.length = xs.length := by
  induction xs generalizing ys with
  | nil =>
    rw [List.mapM_nil] at h
    cases pure_eq_ok.mp h
    rfl
  | cons x xs ih =>
    rw [List.mapM_cons] at h
    obtain ⟨y, -, h⟩ := bind_eq_ok.mp h
    obtain ⟨zs, hzs, h⟩ := bind_eq_ok.mp h
    cases pure_eq_ok.mp h
    rw [List.length_cons, List.length_cons, ih hzs]

section Solana

variable {libraries : Libraries} (faithful : Faithful libraries)

include faithful

theorem describeInstruction_eq_ok {chainId : Text} {message : VersionedMessage}
    {keys : List PublicKey} {position : CompiledInstruction × Nat} {i : Instruction}
    (h : describeInstruction libraries chainId message keys position = .ok i) :
    executedInstruction message keys position.1 = some i.executed := by
  rw [describeInstruction] at h
  obtain ⟨programId, hprogram, h⟩ := bind_eq_ok.mp h
  obtain ⟨accounts, haccounts, h⟩ := bind_eq_ok.mp h
  have hread := mapM_some_of_ok (k := id) (g := fun index => do
    let address ← keys[index]?
    return { address, isSigner := chainIsSigner message index,
             isWritable := chainIsWritable message index }) (fun index a ha => ?_) haccounts
  · rw [executedInstruction, keyAt_eq_ok hprogram, decodeSolanaInstruction_eq_ok h,
      Option.bind_eq_bind, Option.bind_some, hread, List.map_id]
    rfl
  · rw [accountAt] at ha
    obtain ⟨address, haddress, ha⟩ := bind_eq_ok.mp ha
    cases pure_eq_ok.mp ha
    rw [keyAt_eq_ok haddress, faithful.signer, faithful.writable]
    rfl

/-- The effect of a message is what its description says. -/
theorem decodeSolanaTransaction_eq_ok {input : DecoderInput} {height : Value} {d : Description}
    {chain : LookupTables} (hchain : GrownSince input.context chain)
    (h : decodeSolanaTransaction libraries input height = .ok d) :
    ∃ transaction message, input.transaction.1 = .string transaction ∧
      solanaMessage libraries transaction = .ok message ∧
      solanaEffect chain message = some d.solana ∧ d.family = .solana ∧
      d.requiredSigners.length = message.numRequiredSignatures ∧
      ∃ validity last current, d.deadline = solanaDeadline validity last current := by
  rw [decodeSolanaTransaction] at h
  obtain ⟨chainId, -, h⟩ := bind_eq_ok.mp h
  obtain ⟨transaction, htransaction, h⟩ := bind_eq_ok.mp h
  obtain ⟨message, hmessage, h⟩ := bind_eq_ok.mp h
  obtain ⟨blockhash, -, h⟩ := bind_eq_ok.mp h
  obtain ⟨tables, htables, h⟩ := bind_eq_ok.mp h
  obtain ⟨keys, hkeys, h⟩ := bind_eq_ok.mp h
  obtain ⟨signers, hsigners, h⟩ := bind_eq_ok.mp h
  obtain ⟨_, -, h⟩ := bind_eq_ok.mp h
  obtain ⟨instructions, hinstructions, h⟩ := bind_eq_ok.mp h
  obtain ⟨last, -, h⟩ := bind_eq_ok.mp h
  obtain ⟨current, -, h⟩ := bind_eq_ok.mp h
  cases pure_eq_ok.mp h
  have hchainKeys : chainAccountKeys chain message = some keys :=
    chainAccountKeys_grown (tablesOf_grown hchain htables)
      (faithful.accountKeys message tables keys (mapError_eq_ok hkeys))
  have hrequired : (List.range message.numRequiredSignatures).mapM (fun index => keys[index]?)
      = some signers := by
    have hread := mapM_some_of_ok (k := id) (g := fun index => keys[index]?)
      (fun index key hkey => keyAt_eq_ok hkey) hsigners
    rwa [List.map_id] at hread
  have hexecuted : message.compiledInstructions.mapM (executedInstruction message keys)
      = some (instructions.map Instruction.executed) := by
    have hread := mapM_some_of_ok (k := Instruction.executed)
      (g := fun position => executedInstruction message keys position.1)
      (fun position i hi => describeInstruction_eq_ok faithful hi) hinstructions
    have hpositions : (message.compiledInstructions.zipIdx.map Prod.fst).mapM
        (executedInstruction message keys) = some (instructions.map Instruction.executed) := by
      rw [List.mapM_map]
      exact hread
    rwa [List.zipIdx_map_fst] at hpositions
  refine ⟨transaction, message, transactionText_eq_ok htransaction, hmessage, ?_, rfl, ?_, _, _, _, rfl⟩
  · rw [solanaEffect, hchainKeys, Option.bind_eq_bind, Option.bind_some, hrequired,
      Option.bind_some, hexecuted]
    rfl
  · have hlength := length_of_mapM hsigners
    rwa [List.length_range] at hlength

end Solana

/-! ## Effects of either family -/

inductive Effect where
  | evm (effect : EvmEffect)
  | solana (effect : SolanaEffect)
deriving DecidableEq

/-- The effect of a transaction where the lookup tables are these. A raw transaction is what
its parser says, sent by the account that is recovered from it. -/
def onChainEffect (libraries : Libraries) (tables : LookupTables) (family : Family)
    (transaction : Data) : Option Effect :=
  match family, transaction.1 with
  | .evm, _ => (readEvmTransaction libraries transaction).toOption.bind fun read =>
    (evmEffect read.1).map .evm
  | .solana, .string s => (solanaMessage libraries s).toOption.bind fun message =>
    (solanaEffect tables message).map .solana
  | .solana, _ => none

def Description.effect (d : Description) : Effect :=
  match d.family with
  | .evm => .evm d.evm
  | .solana => .solana d.solana

/-- What every description that the decoder makes has. -/
structure Decoded (d : Description) : Prop where
  deadline : d.deadline.distinctKeys
  gas : d.family = .evm →
    ∃ limit gasPrice maxFee maxPriority, d.gas = .evm limit gasPrice maxFee maxPriority

theorem orElse_distinctKeys {v w : Value} (hv : v.distinctKeys) (hw : w.distinctKeys) :
    (orElse v w).distinctKeys := by
  rw [orElse]
  split
  · exact hw
  · exact hv

theorem solanaDeadline_distinctKeys (validity last current : Option Text) :
    (solanaDeadline validity last current).distinctKeys := by
  cases validity with
  | some slot =>
    refine distinctKeys_of_keys (["type", "valid", "observedSlot"].map text)
      rfl (by decide) ?_
    simp
  | none =>
    cases last with
    | none => rfl
    | some last =>
      refine distinctKeys_of_keys
        (["type", "lastValidBlockHeight", "observedBlockHeight", "expired"].map text)
        rfl (by decide) ?_
      cases current <;> simp [optionalText, Value.distinctKeys]

/-- The decoder describes the effect that the transaction has. -/
theorem decodeProviderTransaction_eq_ok {libraries : Libraries} (faithful : Faithful libraries)
    {input : DecoderInput} {d : Description} {tables : LookupTables}
    (hgrown : GrownSince input.context tables)
    (h : decodeProviderTransaction libraries input = .ok d) :
    onChainEffect libraries tables d.family input.transaction = some d.effect ∧ Decoded d := by
  rw [decodeProviderTransaction] at h
  split at h
  · rw [decodeEvmTransaction] at h
    obtain ⟨read, hread, h⟩ := bind_eq_ok.mp h
    obtain ⟨heffect, hfamily, hgas, hdeadline⟩ := describeEvmTransaction_eq_ok faithful h
    refine ⟨?_, ?_, fun _ => hgas⟩
    · rw [onChainEffect.eq_def, hfamily, Description.effect, hfamily, hread]
      show (evmEffect read.1).map Effect.evm = _
      rw [heffect]
      rfl
    · rw [hdeadline]
      exact orElse_distinctKeys (get_distinct read.2 _) rfl
  · split at h
    · obtain ⟨height, -, h⟩ := bind_eq_ok.mp h
      obtain ⟨transaction, message, htext, hmessage, heffect, hfamily, -, validity, last, current,
        hdeadline⟩ := decodeSolanaTransaction_eq_ok faithful hgrown h
      refine ⟨?_, ?_, fun hevm => ?_⟩
      · rw [onChainEffect.eq_def, hfamily, htext, Description.effect, hfamily]
        show (solanaMessage libraries transaction).toOption.bind _ = _
        rw [hmessage]
        show (solanaEffect tables message).map Effect.solana = _
        rw [heffect]
        rfl
      · rw [hdeadline]
        exact solanaDeadline_distinctKeys validity last current
      · rw [hfamily] at hevm
        cases hevm
    · cases h

/-- The required signers of a described message, by their number. -/
theorem requiredSigners_length {libraries : Libraries} (faithful : Faithful libraries)
    {input : DecoderInput} {d : Description} {tables : LookupTables}
    (hgrown : GrownSince input.context tables)
    (h : decodeProviderTransaction libraries input = .ok d) (hsolana : d.family = .solana)
    {s : Text} (htext : input.transaction.1 = .string s) {message : VersionedMessage}
    (hmessage : solanaMessage libraries s = .ok message) :
    d.requiredSigners.length = message.numRequiredSignatures := by
  rw [decodeProviderTransaction] at h
  split at h
  · rw [decodeEvmTransaction] at h
    obtain ⟨read, -, h⟩ := bind_eq_ok.mp h
    obtain ⟨-, hevm, -⟩ := describeEvmTransaction_eq_ok faithful h
    rw [hevm] at hsolana
    cases hsolana
  · split at h
    · obtain ⟨height, -, h⟩ := bind_eq_ok.mp h
      obtain ⟨transaction, message', htext', hmessage', -, -, hlength, -⟩ :=
        decodeSolanaTransaction_eq_ok faithful hgrown h
      obtain rfl : transaction = s := Value.string.inj (htext'.symm.trans htext)
      obtain rfl : message' = message := Except.ok.inj (hmessage'.symm.trans hmessage)
      exact hlength
    · cases h

theorem runs_calldata {is js : List Instruction} (h : List.Forall₂ Instruction.Runs is js) :
    is.head?.map (fun i => digitsOf i.data) = js.head?.map fun i => digitsOf i.data := by
  cases h with
  | nil => rfl
  | cons hruns _ => exact congrArg (fun t => some (digitsOf t)) hruns.data

/-- Descriptions that agree on what is executed say the same effect. -/
theorem Description.Executes.effect {d e : Description} (hd : Decoded d) (he : Decoded e)
    (h : d.Executes e) : d.effect = e.effect := by
  rw [Description.effect, Description.effect, ← h.family]
  cases hfamily : d.family with
  | evm =>
    obtain ⟨limit, gasPrice, maxFee, maxPriority, hgas⟩ := hd.gas hfamily
    obtain ⟨limit', gasPrice', maxFee', maxPriority', hgas'⟩ := he.gas (h.family ▸ hfamily)
    have hshown := h.gas
    rw [hgas, hgas'] at hshown
    obtain ⟨hlimit, hprice, hfee, hpriority⟩ := Gas.evm_of_shown hshown
    have hfigure : ∀ {a b : Option AssetAmount},
        a.map AssetAmount.amountAtomic = b.map AssetAmount.amountAtomic →
        a.map (fun x => textNat x.amountAtomic) = b.map fun x => textNat x.amountAtomic := by
      intro a b hab
      have hread := congrArg (Option.map textNat) hab
      rwa [Option.map_map, Option.map_map] at hread
    have hcalldata : d.instructions.head?.map (fun i => digitsOf i.data)
        = e.instructions.head?.map fun i => digitsOf i.data := runs_calldata h.instructions
    have heffect : d.evm = e.evm := by
      rw [Description.evm, Description.evm, h.chainId, h.source, h.nonce, h.target, hcalldata,
        hfigure h.nativeValue, hgas, hgas']
      simp only [Gas.limit, Gas.figure, Gas.gasPrice, Gas.maxFeePerGas, Gas.maxPriorityFeePerGas,
        hlimit, hfigure hprice, hfigure hfee, hfigure hpriority]
    exact congrArg Effect.evm heffect
  | solana =>
    have hinstructions : d.instructions.map Instruction.executed
        = e.instructions.map Instruction.executed := by
      have hpairs : List.Forall₂ (fun i j => Instruction.executed i = Instruction.executed j)
          d.instructions e.instructions := h.instructions.imp fun i j hruns => by
        rw [Instruction.executed, Instruction.executed, hruns.programId, hruns.accounts,
          hruns.data]
      rw [← List.forall₂_eq_eq_eq, List.forall₂_map_left_iff, List.forall₂_map_right_iff]
      exact hpairs
    exact congrArg Effect.solana (by
      rw [Description.solana, Description.solana, h.requiredSigners, h.blockhash, hinstructions])

/-! ## Revalidation -/

theorem without_distinctKeys (keys : List Text) {v : Value} (h : v.distinctKeys) :
    (without keys v).distinctKeys := by
  cases v with
  | object fs =>
    obtain ⟨hnodup, hfields⟩ := distinctKeys_object.mp h
    refine distinctKeys_object.mpr ⟨?_, fun f hf => hfields f (List.mem_of_mem_filter hf)⟩
    exact hnodup.sublist (List.filter_sublist.map Prod.fst)
  | _ => exact h

/-- Only the deadline is left out of a comparison. -/
theorem comparableDescription_eq (d : Description) :
    ∃ keys, comparableDescription d = { d with deadline := without keys d.deadline } := by
  have hnone : without [] d.deadline = d.deadline := by
    cases d.deadline <;> simp [without]
  rw [comparableDescription]
  split
  · exact ⟨_, rfl⟩
  · split
    · exact ⟨_, rfl⟩
    · exact ⟨[], by rw [hnone]⟩

theorem Decoded.comparable {d : Description} (h : Decoded d) :
    Decoded (comparableDescription d) ∧ (comparableDescription d).effect = d.effect := by
  obtain ⟨keys, hkeys⟩ := comparableDescription_eq d
  rw [hkeys]
  exact ⟨⟨without_distinctKeys keys h.deadline, h.gas⟩, rfl⟩

/-- Descriptions that are compared equal say the same effect and the same signers. -/
theorem effect_of_compared {d e : Description} (hd : Decoded d) (he : Decoded e) {t : Text}
    (h : stableJson (comparableDescription d).value = .ok t)
    (h' : stableJson (comparableDescription e).value = .ok t) :
    d.effect = e.effect ∧ d.family = e.family ∧ d.requiredSigners = e.requiredSigners := by
  have hshown := shownData_of_stableJson (Description.distinct hd.comparable.1.deadline)
    (Description.distinct he.comparable.1.deadline) h h'
  have hexecutes := Description.executes_of_shown hd.comparable.1.deadline
    he.comparable.1.deadline hshown
  obtain ⟨keys, hkeys⟩ := comparableDescription_eq d
  obtain ⟨keys', hkeys'⟩ := comparableDescription_eq e
  refine ⟨?_, ?_, ?_⟩
  · rw [← hd.comparable.2, ← he.comparable.2]
    exact hexecutes.effect hd.comparable.1 he.comparable.1
  · have hfamily := hexecutes.family
    rwa [hkeys, hkeys'] at hfamily
  · have hsigners := hexecutes.requiredSigners
    rwa [hkeys, hkeys'] at hsigners

end Hookemon.Signing
