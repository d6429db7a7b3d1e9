import Hookemon.Signing.DescribedEffects

/-! # What a revalidated message executes

A signed message that is accepted against a description has the effect of the transaction
that was described, and the signatures that others had put on that transaction before.
-/

namespace Hookemon.Signing

open Hookemon.Core Hookemon.Js Hookemon.Runner

variable {libraries : Libraries}

/-! ## Co-signers -/

theorem fullSignedSolanaTransaction_eq_ok {s : Text} {transaction : VersionedTransaction}
    (h : fullSignedSolanaTransaction libraries s = .ok transaction) :
    solanaMessage libraries s = .ok transaction.message := by
  rw [fullSignedSolanaTransaction] at h
  obtain ⟨_, -, h⟩ := bind_eq_ok.mp h
  rw [solanaMessage, mapError_eq_ok h]

/-- The signatures of the other slots, as they are captured. -/
def otherSignatures (operator : Int) (index : Nat) (signatures : List Bytes) : List Text :=
  ((signatures.zipIdx index).filter fun slot => (slot.2 : Int) ≠ operator).map
    fun slot => base64OfBytes slot.1

/-- Slot by slot, what was captured from one transaction is found in the other one. -/
theorem compareCoSigners_eq_ok {operator : Int} {signed given : List Bytes} {index : Nat}
    (hlength : given.length = signed.length)
    (h : compareCoSigners operator index signed (otherSignatures operator index given) = .ok ()) :
    ∀ slot : Nat, ((index + slot : Nat) : Int) ≠ operator → given[slot]? = signed[slot]? := by
  induction signed generalizing given index with
  | nil =>
    intro slot _
    rw [List.length_nil, List.length_eq_zero_iff] at hlength
    rw [hlength]
  | cons signature signed ih =>
    cases given with
    | nil => cases hlength
    | cons old given =>
      have hrest : given.length = signed.length := by simpa using hlength
      by_cases hoperator : (index : Int) = operator
      · have hothers : otherSignatures operator index (old :: given)
            = otherSignatures operator (index + 1) given := by
          simp [otherSignatures, List.zipIdx_cons, hoperator]
        rw [hothers, compareCoSigners.eq_def] at h
        simp only [if_pos hoperator] at h
        intro slot hslot
        cases slot with
        | zero => exact absurd hoperator hslot
        | succ slot =>
          have hnext : ((index + 1 + slot : Nat) : Int) ≠ operator := by
            rwa [Nat.add_right_comm index 1 slot]
          exact ih hrest h slot hnext
      · have hothers : otherSignatures operator index (old :: given)
            = base64OfBytes old :: otherSignatures operator (index + 1) given := by
          simp [otherSignatures, List.zipIdx_cons, hoperator]
        rw [hothers, compareCoSigners.eq_def] at h
        simp only [if_neg hoperator, bytesOfBase64_base64OfBytes] at h
        split at h
        · rename_i hsame
          intro slot hslot
          cases slot with
          | zero => exact congrArg some hsame.symm
          | succ slot =>
            have hnext : ((index + 1 + slot : Nat) : Int) ≠ operator := by
              rwa [Nat.add_right_comm index 1 slot]
            exact ih hrest h slot hnext
        · cases h

/-- What the checks of the slots establish. -/
theorem assertSolanaSignatureSlots_eq_ok {transaction : VersionedTransaction}
    {expected : Option (List Text)} {excluded : Option Int} {operator : Int}
    (h : assertSolanaSignatureSlots libraries transaction expected excluded operator = .ok ()) :
    transaction.signatures.length = transaction.message.numRequiredSignatures ∧
      ∀ captured, expected = some captured →
        compareCoSigners operator 0 transaction.signatures captured = .ok () := by
  unfold assertSolanaSignatureSlots at h
  obtain ⟨_, hlength, h⟩ := bind_eq_ok.mp h
  obtain ⟨_, -, h⟩ := bind_eq_ok.mp h
  refine ⟨by simpa using hlength, fun captured hcaptured => ?_⟩
  rw [hcaptured] at h
  obtain ⟨_, -, h⟩ := bind_eq_ok.mp h
  exact h

/-- What is captured of a transaction with more than one required signature. -/
theorem captureSolanaCoSignerSignatures_eq_ok {s : Text} {operator : Int} {captured : List Text}
    (h : captureSolanaCoSignerSignatures libraries s operator = .ok captured) :
    ∃ given, fullSignedSolanaTransaction libraries s = .ok given ∧ 0 ≤ operator ∧
      operator < given.message.numRequiredSignatures ∧
      (1 < given.message.numRequiredSignatures →
        given.signatures.length = given.message.numRequiredSignatures ∧
          captured = otherSignatures operator 0 given.signatures) := by
  rw [captureSolanaCoSignerSignatures] at h
  obtain ⟨given, hgiven, h⟩ := bind_eq_ok.mp h
  obtain ⟨_, hoperator, h⟩ := bind_eq_ok.mp h
  have hrange : ¬(operator < 0 ∨ (given.message.numRequiredSignatures : Int) ≤ operator) := by
    simpa using hoperator
  refine ⟨given, hgiven, by omega, by omega, fun hmany => ?_⟩
  rw [if_neg (Nat.not_le.mpr hmany)] at h
  obtain ⟨_, hslots, h⟩ := bind_eq_ok.mp h
  exact ⟨(assertSolanaSignatureSlots_eq_ok hslots).1, (pure_eq_ok.mp h).symm⟩

/-! ## Accepted messages -/

/-- The context of the second decoding has the lookup resolver of the options. -/
theorem revalidationContext_eq_ok {approved : Description} {payload : Text}
    {options : RevalidationOptions} {context : DecoderContext}
    (h : revalidationContext libraries approved payload options = .ok context) :
    context.lookupTableResolver = options.context.lookupTableResolver ∧
      (approved.family = .solana → ∃ signed,
        fullSignedSolanaTransaction libraries payload = .ok signed ∧
        assertSolanaSignatureSlots libraries signed options.expectedCoSignerSignatures none
          (options.operatorSignerIndex.getD 0) = .ok ()) := by
  unfold revalidationContext at h
  split at h
  · rename_i hfamily
    cases h
    refine ⟨rfl, fun hsolana => ?_⟩
    rw [hfamily] at hsolana
    cases hsolana
  · obtain ⟨_, -, h⟩ := bind_eq_ok.mp h
    obtain ⟨_, -, h⟩ := bind_eq_ok.mp h
    obtain ⟨signed, hsigned, h⟩ := bind_eq_ok.mp h
    obtain ⟨_, hslots, h⟩ := bind_eq_ok.mp h
    cases pure_eq_ok.mp h
    exact ⟨rfl, fun _ => ⟨signed, hsigned, hslots⟩⟩

/-- A message is accepted when its own description is compared equal. -/
theorem revalidateSignedMessage_eq_ok {signedMessage : Value} {approved redecoded : Description}
    {options : RevalidationOptions}
    (h : revalidateSignedMessage libraries signedMessage approved options = .ok redecoded) :
    ∃ payload context t, signedTransactionPayload signedMessage approved.family = .ok payload ∧
      revalidationContext libraries approved payload options = .ok context ∧
      decodeProviderTransaction libraries
          { family := approved.family.name, chainId := .string approved.chainId,
            transaction := ⟨.string payload, rfl⟩, context }
        = .ok redecoded ∧
      stableJson (comparableDescription redecoded).value = .ok t ∧
      stableJson (comparableDescription approved).value = .ok t := by
  rw [revalidateSignedMessage] at h
  obtain ⟨_, -, h⟩ := bind_eq_ok.mp h
  obtain ⟨payload, hpayload, h⟩ := bind_eq_ok.mp h
  obtain ⟨context, hcontext, h⟩ := bind_eq_ok.mp h
  obtain ⟨decoded, hdecoded, h⟩ := bind_eq_ok.mp h
  obtain ⟨_, -, h⟩ := bind_eq_ok.mp h
  obtain ⟨_, -, h⟩ := bind_eq_ok.mp h
  obtain ⟨signedText, hsigned, h⟩ := bind_eq_ok.mp h
  obtain ⟨approvedText, happroved, h⟩ := bind_eq_ok.mp h
  obtain ⟨_, hsame, h⟩ := bind_eq_ok.mp h
  cases pure_eq_ok.mp h
  have htext : signedText = approvedText := by simpa using hsame
  exact ⟨payload, context, signedText, hpayload, hcontext, hdecoded, hsigned, htext ▸ happroved⟩

/-- The co-signers' slots of the signed transaction are those of the given one. -/
theorem coSigners_kept {transaction : Text} {captured : List Text} {operator : Int}
    {given signed : VersionedTransaction}
    (hgiven : fullSignedSolanaTransaction libraries transaction = .ok given)
    (hcaptured : captureSolanaCoSignerSignatures libraries transaction operator = .ok captured)
    (hslots : assertSolanaSignatureSlots libraries signed (some captured) none operator = .ok ())
    (hrequired : signed.message.numRequiredSignatures = given.message.numRequiredSignatures) :
    ∀ slot : Nat, slot < given.message.numRequiredSignatures → (slot : Int) ≠ operator →
      given.signatures[slot]? = signed.signatures[slot]? := by
  obtain ⟨given', hgiven', hlow, hhigh, hmany⟩ := captureSolanaCoSignerSignatures_eq_ok hcaptured
  obtain rfl : given' = given := Except.ok.inj (hgiven'.symm.trans hgiven)
  intro slot hslot hother
  obtain ⟨hlength, rfl⟩ := hmany (by omega)
  obtain ⟨hsignedLength, hcompared⟩ := assertSolanaSignatureSlots_eq_ok hslots
  have hlengths : given'.signatures.length = signed.signatures.length := by
    rw [hlength, hsignedLength, hrequired]
  exact compareCoSigners_eq_ok hlengths (hcompared _ rfl) slot (by simpa using hother)

/-- Where the signed payload is accepted against the description of a transaction, both have
one effect, at any later states of the lookup tables, and the signatures that were captured
from the transaction are in the payload. -/
theorem revalidated_effect (faithful : Faithful libraries) {input : DecoderInput}
    {approved redecoded : Description} {signedMessage : Value} {options : RevalidationOptions}
    {before after : LookupTables} (hbefore : GrownSince input.context before)
    (hafter : GrownSince options.context after)
    (hdecoded : decodeProviderTransaction libraries input = .ok approved)
    (haccepted : revalidateSignedMessage libraries signedMessage approved options
      = .ok redecoded) :
    ∃ payload effect,
      signedTransactionPayload signedMessage approved.family = .ok payload ∧
      onChainEffect libraries before approved.family input.transaction = some effect ∧
      onChainEffect libraries after approved.family ⟨.string payload, rfl⟩ = some effect ∧
      ∀ transaction given captured, approved.family = .solana →
        input.transaction.1 = .string transaction →
        fullSignedSolanaTransaction libraries transaction = .ok given →
        captureSolanaCoSignerSignatures libraries transaction
          (options.operatorSignerIndex.getD 0) = .ok captured →
        options.expectedCoSignerSignatures = some captured →
        ∃ signed, fullSignedSolanaTransaction libraries payload = .ok signed ∧
          ∀ slot : Nat, slot < given.message.numRequiredSignatures →
            (slot : Int) ≠ options.operatorSignerIndex.getD 0 →
            given.signatures[slot]? = signed.signatures[slot]? := by
  obtain ⟨payload, context, t, hpayload, hcontext, hredecoded, hsignedText, happrovedText⟩ :=
    revalidateSignedMessage_eq_ok haccepted
  obtain ⟨hresolver, hslots⟩ := revalidationContext_eq_ok hcontext
  have hgrown : GrownSince context after := by
    intro resolve hresolve
    exact hafter resolve (hresolver ▸ hresolve)
  obtain ⟨heffect, happroved⟩ := decodeProviderTransaction_eq_ok faithful hbefore hdecoded
  obtain ⟨hsame, hagain⟩ := decodeProviderTransaction_eq_ok faithful hgrown hredecoded
  obtain ⟨heffects, hfamily, hsigners⟩ := effect_of_compared hagain happroved hsignedText happrovedText
  rw [hfamily, heffects] at hsame
  refine ⟨payload, approved.effect, hpayload, heffect, hsame, ?_⟩
  intro transaction given captured hsolana htext hgiven hcaptured hexpected
  obtain ⟨signed, hfull, hchecked⟩ := hslots hsolana
  refine ⟨signed, hfull, ?_⟩
  rw [hexpected] at hchecked
  have hrequired : signed.message.numRequiredSignatures = given.message.numRequiredSignatures := by
    have hcount := requiredSigners_length faithful hbefore hdecoded hsolana htext
      (fullSignedSolanaTransaction_eq_ok hgiven)
    have hcount' := requiredSigners_length faithful hgrown hredecoded (hfamily ▸ hsolana) rfl
      (fullSignedSolanaTransaction_eq_ok hfull)
    rw [← hcount, ← hcount', hsigners]
  exact coSigners_kept hgiven hcaptured hchecked hrequired

/-! ## A relay call -/

/-- The sender, the target and the calldata of the relay call, and its signed bytes. -/
def relaySource : Text := text "0x19E7E376E7C213B7E7e7e46cc70A5dD086DAff2A"
def relayTarget : Text := text "0x4444444444444444444444444444444444444444"
def relayData : Text := text "0x12345678"
def relaySignedTx : Text :=
  text "0x02f86882123708020582fde89444444444444444444444444444444444" ++
    text "444444442a8412345678c080a073d8947ba56199e8ac0c05ae1298add459" ++
    text "1179ac23c840017de45b2774d22040a030df7d1b29de7e233f42b8d95fc6" ++
    text "59423134b9752140292f32333b4e6ec43e88"

/-- The transaction that was approved, before it was signed. -/
def relayTransaction : Value :=
  .object [(text "to", .string relayTarget), (text "data", .string relayData),
    (text "value", .string (text "42")), (text "chainId", .string (text "4663")),
    (text "from", .string relaySource), (text "gas", .string (text "65000")),
    (text "maxFeePerGas", .string (text "5")), (text "maxPriorityFeePerGas", .string (text "2")),
    (text "nonce", .string (text "8"))]

/-- What the signed bytes are parsed as. -/
def relayParsed : Value :=
  .object [(text "chainId", countValue 4663), (text "type", .string (text "eip1559")),
    (text "to", .string relayTarget), (text "gas", .bigint 65000),
    (text "data", .string relayData), (text "nonce", countValue 8), (text "value", .bigint 42),
    (text "maxFeePerGas", .bigint 5), (text "maxPriorityFeePerGas", .bigint 2)]

theorem relayTransaction_distinct : relayTransaction.distinctKeys := by decide

theorem relayParsed_distinct : relayParsed.distinctKeys := by decide

/-- Libraries that know these signed bytes. The addresses have their checksums. -/
def relayLibraries : Libraries where
  parseTransaction raw :=
    if raw = relaySignedTx then .ok ⟨relayParsed, relayParsed_distinct⟩
    else .error "Serialized transaction type is invalid"
  recoverTransactionAddress raw :=
    if raw = relaySignedTx then .ok relaySource else .error "Serialized transaction type is invalid"
  isAddress a := hasShape (text "0x") isHexDigit 40 a
  getAddress a := a
  decodeTransfer _ := none
  encodeTransfer _ := []
  keccak256 payload := payload
  deserializeTransaction _ := .error "Reached end of buffer unexpectedly"
  deserializeMessage _ := .error "Reached end of buffer unexpectedly"
  serialize _ := []
  getAccountKeys message tables :=
    (chainAccountKeys (tablesOf tables) message).elim (.error "lookup table not found") .ok
  isAccountSigner := chainIsSigner
  isAccountWritable := chainIsWritable
  verifySignature _ _ _ := .ok false

theorem relayLibraries_faithful : Faithful relayLibraries where
  address _ h := h
  getAddress _ _ := rfl
  accountKeys message tables keys h := by
    have hkeys : (chainAccountKeys (tablesOf tables) message).elim
        (.error "lookup table not found") .ok = (.ok keys : Except String (List PublicKey)) := h
    cases hload : chainAccountKeys (tablesOf tables) message with
    | none => rw [hload] at hkeys; cases hkeys
    | some ks =>
      rw [hload] at hkeys
      exact hload.trans (congrArg some (Except.ok.inj hkeys))
  signer _ _ := rfl
  writable _ _ := rfl

def relayInput : DecoderInput where
  family := Family.evm.name
  chainId := .undefined
  transaction := ⟨relayTransaction, relayTransaction_distinct⟩
  context := {}

theorem relay_accepted :
    (decodeProviderTransaction relayLibraries relayInput).toOption.any fun approved =>
      (revalidateSignedMessage relayLibraries (.string relaySignedTx) approved {}).toOption.isSome := by
  decide +kernel

theorem revalidated_effect_sample :
    ∃ approved redecoded payload effect,
      decodeProviderTransaction relayLibraries relayInput = .ok approved ∧
      revalidateSignedMessage relayLibraries (.string relaySignedTx) approved {} = .ok redecoded ∧
      signedTransactionPayload (.string relaySignedTx) approved.family = .ok payload ∧
      onChainEffect relayLibraries (fun _ => none) approved.family relayInput.transaction
        = some effect ∧
      onChainEffect relayLibraries (fun _ => none) approved.family ⟨.string payload, rfl⟩
        = some effect := by
  obtain ⟨approved, happroved, hsigned⟩ := exists_ok_of_check relay_accepted
  have hgrown : GrownSince ({} : DecoderContext) fun _ => none := by
    intro resolve hresolve
    cases hresolve
  cases haccepted : revalidateSignedMessage relayLibraries (.string relaySignedTx) approved {} with
  | error e =>
    rw [haccepted] at hsigned
    cases hsigned
  | ok redecoded =>
    obtain ⟨payload, effect, hpayload, hbefore, hafter, -⟩ :=
      revalidated_effect relayLibraries_faithful hgrown hgrown happroved haccepted
    exact ⟨approved, redecoded, payload, effect, happroved, haccepted, hpayload, hbefore, hafter⟩

end Hookemon.Signing
