import Hookemon.Signing.DescribedEffects
import Hookemon.Signing.PolicyRules

/-! # What an allowed transaction moves

The canonical policy is compared with one amount and one recipient of a description. They are
those of its transfer when there is only one. Where there are several, the policy bounds what
is moved only if that is nothing at all.
-/

namespace Hookemon.Signing

open Hookemon.Core Hookemon.Js Hookemon.Runner

/-! ## Transfers of value -/

/-- Some units of an asset that go to a recipient. -/
structure Transfer where
  chainId : Text
  assetId : Text
  amount : Nat
  recipient : Text
deriving DecidableEq

def transferTo (amount : AssetAmount) (recipient : Text) : Transfer :=
  { chainId := amount.chainId, assetId := amount.assetId,
    amount := textNat amount.amountAtomic, recipient }

def Transfer.asset (t : Transfer) : Text × Text := (t.chainId, t.assetId)

def AssetAmount.asset (a : AssetAmount) : Text × Text := (a.chainId, a.assetId)

/-- The transfer that an instruction makes by itself. -/
def Instruction.ownTransfer (i : Instruction) : Option Transfer :=
  if i.kind = text "erc20-transfer" ∨ i.isTransfer then do
    let amount ← i.amount
    let recipient ← i.destination
    return transferTo amount recipient
  else none

/-- The native value that an EVM call carries to its target. -/
def Instruction.carriedValue (i : Instruction) : Option Transfer :=
  if i.kind = text "erc20-transfer" ∨ i.kind = text "evm-call" then
    (i.nativeValue.map fun amount => transferTo amount i.programId).filter (0 < ·.amount)
  else none

def Instruction.transfers (i : Instruction) : List Transfer :=
  i.ownTransfer.toList ++ i.carriedValue.toList

def Description.transfers (d : Description) : List Transfer :=
  d.instructions.flatMap Instruction.transfers

/-- The units of one asset that all transfers move together. -/
def moved (asset : Text × Text) (transfers : List Transfer) : Nat :=
  ((transfers.filter fun t => t.asset = asset).map Transfer.amount).sum

@[simp] theorem moved_nil (asset : Text × Text) : moved asset [] = 0 := rfl

@[simp] theorem moved_cons (asset : Text × Text) (t : Transfer) (ts : List Transfer) :
    moved asset (t :: ts) = (if t.asset = asset then t.amount else 0) + moved asset ts := by
  by_cases h : t.asset = asset <;> simp [moved, h]

theorem moved_eq_zero {asset : Text × Text} {ts : List Transfer} (h : ∀ t ∈ ts, t.amount = 0) :
    moved asset ts = 0 := by
  induction ts with
  | nil => rfl
  | cons t ts ih =>
    have ht : t.amount = 0 := h t List.mem_cons_self
    rw [moved_cons, ih fun u hu => h u (List.mem_cons_of_mem _ hu), ht, ite_self]

theorem amount_le_moved {t : Transfer} {ts : List Transfer} (h : t ∈ ts) :
    t.amount ≤ moved t.asset ts := by
  induction ts with
  | nil => cases h
  | cons u ts ih =>
    rw [moved_cons]
    rcases List.mem_cons.mp h with rfl | htail
    · rw [if_pos rfl]
      exact Nat.le_add_right _ _
    · exact Nat.le_add_left_of_le (ih htail)

/-- What a transaction invokes. -/
def Description.invoked (d : Description) : List Text :=
  d.target.toList ++ d.instructions.map Instruction.programId

/-- The policy bounds what is moved: its amount of its asset and nothing else, to its recipient
only, by targets and programs that it lists. -/
structure Bounded (policy : TransactionPolicy) (d : Description) : Prop where
  amounts : ∀ asset, moved asset d.transfers
    = if asset = policy.amount.asset then textNat policy.amount.amountAtomic else 0
  recipients : ∀ t ∈ d.transfers, t.recipient = policy.expectedRecipient
  invocations : ∀ p ∈ d.invoked, p ∈ policy.allowedTargets ∨ p ∈ policy.allowedPrograms

/-! ## The transfers of a description -/

/-- How the transfers of a description are related to the amount that the policy is compared
with. -/
inductive Compared (d : Description) : Prop where
  | nothing (transfers : d.transfers = [])
      (amount : textNat d.checkedAmount.amountAtomic = 0)
  | only (amount : AssetAmount) (recipient : Text)
      (transfers : d.transfers = [transferTo amount recipient])
      (compared : d.checkedAmount = amount) (destination : d.destination = some recipient)
  /-- An ERC-20 transfer whose call carries a native value. -/
  | carrying (amount value : AssetAmount) (recipient target : Text)
      (transfers : d.transfers = [transferTo amount recipient, transferTo value target])
      (compared : d.checkedAmount = amount) (positive : 0 < textNat value.amountAtomic)
  | several (transfers : 2 ≤ d.transfers.length)
      (amount : textNat d.checkedAmount.amountAtomic = 0)

/-- What a description invokes is its target or its programs. -/
structure Invokes (d : Description) : Prop where
  programs : ∀ i ∈ d.instructions, i.programId ∈ d.programIds
  target : ∀ target ∈ d.target, d.programIds = [target]

/-! ## EVM transactions -/

theorem call_not_transfer {i : Instruction} (h : i.kind = text "evm-call") :
    i.kind ≠ text "erc20-transfer" ∧ i.isTransfer = false := by
  rw [Instruction.isTransfer, h]
  decide

/-- The native value of a call, when it is not zero. -/
theorem carriedValue_eq {i : Instruction} {value : AssetAmount}
    (hkind : i.kind = text "erc20-transfer" ∨ i.kind = text "evm-call")
    (hvalue : i.nativeValue = some value) :
    i.carriedValue
      = if 0 < textNat value.amountAtomic then some (transferTo value i.programId) else none := by
  rw [Instruction.carriedValue, if_pos hkind, hvalue, Option.map_some]
  by_cases hpositive : 0 < textNat value.amountAtomic
  · rw [if_pos hpositive]
    exact Option.filter_some_pos (decide_eq_true hpositive)
  · rw [if_neg hpositive]
    exact Option.filter_some_neg (decide_eq_false hpositive)

variable {libraries : Libraries}

theorem decodeErc20Transfer_moves {tokenMetadata transaction : Value}
    {chainId target data : Text} {source : Option Text} {i : Instruction}
    (h : decodeErc20Transfer libraries tokenMetadata chainId target source data transaction
      = .ok i) :
    i.kind = text "erc20-transfer" ∧ i.programId = target ∧
      ∃ amount recipient value, i.amount = some amount ∧ i.destination = some recipient ∧
        i.nativeValue = some value := by
  rw [decodeErc20Transfer] at h
  obtain ⟨_, -, h⟩ := bind_eq_ok.mp h
  obtain ⟨_, -, h⟩ := bind_eq_ok.mp h
  obtain ⟨recipient, -, h⟩ := bind_eq_ok.mp h
  obtain ⟨_, -, h⟩ := bind_eq_ok.mp h
  obtain ⟨amount, -, h⟩ := bind_eq_ok.mp h
  obtain ⟨value, -, h⟩ := bind_eq_ok.mp h
  cases pure_eq_ok.mp h
  exact ⟨rfl, rfl, amount, recipient, value, rfl, rfl, rfl⟩

theorem decodeEvmCall_moves {transaction : Value} {chainId target data : Text}
    {source selector : Option Text} {i : Instruction}
    (h : decodeEvmCall chainId target source selector data transaction = .ok i) :
    i.kind = text "evm-call" ∧ i.programId = target ∧ i.amount = none ∧
      i.destination = some target ∧ ∃ value, i.nativeValue = some value := by
  rw [decodeEvmCall] at h
  obtain ⟨value, -, h⟩ := bind_eq_ok.mp h
  cases pure_eq_ok.mp h
  exact ⟨rfl, rfl, rfl, rfl, value, rfl⟩

/-- An EVM transaction makes one call, and its description has the amounts of that call. -/
theorem describeEvmTransaction_call {input : DecoderInput} {transaction : Value}
    {d : Description} (h : describeEvmTransaction libraries input transaction = .ok d) :
    ∃ tokenMetadata chainId target source data nonce selector gas deadline i,
      decodeEvmInstruction libraries tokenMetadata chainId target source data transaction = .ok i ∧
      d = evmDescription chainId target nonce source selector gas deadline i := by
  rw [describeEvmTransaction] at h
  obtain ⟨_, -, h⟩ := bind_eq_ok.mp h
  obtain ⟨_, -, h⟩ := bind_eq_ok.mp h
  obtain ⟨chainId, -, h⟩ := bind_eq_ok.mp h
  obtain ⟨_, -, h⟩ := bind_eq_ok.mp h
  obtain ⟨target, -, h⟩ := bind_eq_ok.mp h
  obtain ⟨source, -, h⟩ := bind_eq_ok.mp h
  obtain ⟨nonce, -, h⟩ := bind_eq_ok.mp h
  obtain ⟨data, -, h⟩ := bind_eq_ok.mp h
  obtain ⟨gas, -, h⟩ := bind_eq_ok.mp h
  obtain ⟨i, hi, h⟩ := bind_eq_ok.mp h
  exact ⟨_, chainId, target, source, data, nonce, _, gas, _, i, hi, (pure_eq_ok.mp h).symm⟩

theorem evmDescription_compared (nonce selector : Option Text) (gas : Gas) (deadline : Value)
    {tokenMetadata transaction : Value} {chainId target data : Text} {source : Option Text}
    {i : Instruction}
    (h : decodeEvmInstruction libraries tokenMetadata chainId target source data transaction
      = .ok i) :
    Compared (evmDescription chainId target nonce source selector gas deadline i) ∧
      i.programId = target := by
  have htransfers : (evmDescription chainId target nonce source selector gas deadline i).transfers
      = i.ownTransfer.toList ++ i.carriedValue.toList := List.append_nil _
  rw [decodeEvmInstruction] at h
  split at h
  · obtain ⟨hkind, hprogram, amount, recipient, value, hamount, hdestination, hvalue⟩ :=
      decodeErc20Transfer_moves h
    have hown : i.ownTransfer = some (transferTo amount recipient) := by
      rw [Instruction.ownTransfer, if_pos (.inl hkind), hamount, hdestination]
      rfl
    rw [hown, carriedValue_eq (.inl hkind) hvalue] at htransfers
    have hcompared : (evmDescription chainId target nonce source selector gas deadline
        i).checkedAmount = amount := by
      simp [Description.checkedAmount, evmDescription, hamount]
    by_cases hpositive : 0 < textNat value.amountAtomic
    · rw [if_pos hpositive] at htransfers
      exact ⟨.carrying amount value recipient i.programId htransfers hcompared hpositive, hprogram⟩
    · rw [if_neg hpositive] at htransfers
      exact ⟨.only amount recipient htransfers hcompared hdestination, hprogram⟩
  · obtain ⟨hkind, hprogram, hamount, hdestination, value, hvalue⟩ := decodeEvmCall_moves h
    have hown : i.ownTransfer = none := by
      obtain ⟨hnot, htransfer⟩ := call_not_transfer hkind
      rw [Instruction.ownTransfer, if_neg (by simp [hnot, htransfer])]
    rw [hown, carriedValue_eq (.inr hkind) hvalue] at htransfers
    have hcompared : (evmDescription chainId target nonce source selector gas deadline
        i).checkedAmount = value := by
      simp [Description.checkedAmount, evmDescription, hamount, hvalue]
    by_cases hpositive : 0 < textNat value.amountAtomic
    · rw [if_pos hpositive] at htransfers
      refine ⟨.only value i.programId htransfers hcompared ?_, hprogram⟩
      rw [hprogram]
      exact hdestination
    · rw [if_neg hpositive] at htransfers
      exact ⟨.nothing htransfers (by rw [hcompared]; omega), hprogram⟩

/-! ## Solana transactions -/

/-- A transfer of Solana has an amount and a recipient, and nothing else moves value. -/
structure Instruction.MovesAsSolana (i : Instruction) : Prop where
  kind : i.kind ≠ text "erc20-transfer" ∧ i.kind ≠ text "evm-call"
  transfer : i.isTransfer →
    ∃ amount recipient, i.amount = some amount ∧ i.destination = some recipient

theorem decodeSolanaInstruction_moves {chainId : Text} {programId : PublicKey}
    {accounts : List AccountMeta} {data : Bytes} {i : Instruction}
    (h : decodeSolanaInstruction chainId programId accounts data = .ok i) :
    i.MovesAsSolana := by
  have hother : ∀ {i : Instruction} (kind : Text), i.kind = kind →
      (kind ≠ text "erc20-transfer" ∧ kind ≠ text "evm-call") →
      ¬ (kind = text "spl-transfer-checked" ∨ kind = text "system-transfer") →
      i.MovesAsSolana := by
    intro i kind hi hevm hnot
    refine ⟨hi ▸ hevm, fun htransfer => absurd ?_ hnot⟩
    rw [Instruction.isTransfer, hi] at htransfer
    simpa using htransfer
  have hunknown : (unknownInstruction programId accounts data).MovesAsSolana :=
    hother (text "unknown") rfl (by decide) (by decide)
  have hspl : text "spl-transfer-checked" ≠ text "erc20-transfer" ∧
      text "spl-transfer-checked" ≠ text "evm-call" := by decide
  have hsystem : text "system-transfer" ≠ text "erc20-transfer" ∧
      text "system-transfer" ≠ text "evm-call" := by decide
  unfold decodeSolanaInstruction at h
  split at h
  · cases h
    exact hother (text "compute-budget-set-unit-limit") rfl (by decide) (by decide)
  · split at h
    · obtain ⟨fee, -, h⟩ := bind_eq_ok.mp h
      cases pure_eq_ok.mp h
      exact hother (text "compute-budget-set-unit-price") rfl (by decide) (by decide)
    · split at h
      · rename_i source second rest
        split at h
        · rename_i hshape
          obtain ⟨amount, -, h⟩ := bind_eq_ok.mp h
          cases pure_eq_ok.mp h
          obtain ⟨third, others, hrest⟩ : ∃ third others, rest = third :: others :=
            List.exists_cons_of_length_pos (by omega)
          refine ⟨hspl, fun _ => ⟨amount, third.address, rfl, ?_⟩⟩
          rw [hrest]
          rfl
        · split at h
          · obtain ⟨value, -, h⟩ := bind_eq_ok.mp h
            cases pure_eq_ok.mp h
            exact ⟨hsystem, fun _ => ⟨value, second.address, rfl, rfl⟩⟩
          · cases h
            exact hunknown
      · cases h
        exact hunknown

/-- The transfers of instructions are those of the ones that are transfers. -/
theorem solana_transfers {is : List Instruction} (h : ∀ i ∈ is, i.MovesAsSolana) :
    List.Forall₂ (fun i t => ∃ amount recipient, i.amount = some amount ∧
        i.destination = some recipient ∧ t = transferTo amount recipient)
      (is.filter Instruction.isTransfer) (is.flatMap Instruction.transfers) := by
  induction is with
  | nil => exact .nil
  | cons i is ih =>
    have hi := h i List.mem_cons_self
    have hrest := ih fun j hj => h j (List.mem_cons_of_mem _ hj)
    have hcarried : i.carriedValue = none := by
      rw [Instruction.carriedValue, if_neg (not_or.mpr hi.kind)]
    rw [List.flatMap_cons, Instruction.transfers, hcarried]
    cases htransfer : i.isTransfer with
    | true =>
      obtain ⟨amount, recipient, hamount, hdestination⟩ := hi.transfer htransfer
      have hown : i.ownTransfer = some (transferTo amount recipient) := by
        rw [Instruction.ownTransfer, if_pos (.inr htransfer), hamount, hdestination]
        rfl
      rw [hown, List.filter_cons_of_pos htransfer]
      exact .cons ⟨amount, recipient, hamount, hdestination, rfl⟩ hrest
    | false =>
      have hown : i.ownTransfer = none := by
        rw [Instruction.ownTransfer, if_neg (by simp [hi.kind.1, htransfer])]
      rw [hown, List.filter_cons_of_neg (by simp [htransfer])]
      exact hrest

theorem solanaDescription_compared {chainId : Text} {message : VersionedMessage}
    {signers : List PublicKey} {instructions : List Instruction} {deadline : Value}
    (h : ∀ i ∈ instructions, i.MovesAsSolana) :
    Compared (solanaDescription chainId message signers instructions deadline) := by
  have hpairs := solana_transfers h
  have htransfers : (solanaDescription chainId message signers instructions deadline).transfers
      = instructions.flatMap Instruction.transfers := rfl
  -- the comparison is with the only transfer, or with no amount at all
  have hcompared : (solanaDescription chainId message signers instructions deadline).checkedAmount
      = (((primaryTransfer instructions).bind Instruction.amount) <|>
          ((primaryTransfer instructions).bind Instruction.nativeValue)).getD
        { chainId, assetId := text "native", decimals := .ofNat 9, amountAtomic := text "0" } := rfl
  rw [← htransfers] at hpairs
  rw [primaryTransfer] at hcompared
  have hzero : textNat (text "0") = 0 := by decide
  rcases hfilter : instructions.filter Instruction.isTransfer with _ | ⟨i, _ | ⟨j, rest⟩⟩
  · rw [hfilter] at hpairs hcompared
    exact .nothing (List.forall₂_nil_left_iff.mp hpairs) (by rw [hcompared]; exact hzero)
  · rw [hfilter] at hpairs hcompared
    obtain ⟨t, ts, ⟨amount, recipient, hamount, hdestination, rfl⟩, hnone, htransfer⟩ :=
      List.forall₂_cons_left_iff.mp hpairs
    rw [List.forall₂_nil_left_iff.mp hnone] at htransfer
    refine .only amount recipient htransfer ?_ ?_
    · rw [hcompared]
      simp [hamount]
    · show (primaryTransfer instructions).bind Instruction.destination = some recipient
      rw [primaryTransfer, hfilter]
      exact hdestination
  · rw [hfilter] at hpairs hcompared
    have hlength := hpairs.length_eq
    refine .several ?_ (by rw [hcompared]; exact hzero)
    rw [← hlength]
    simp

/-- A pass whose every result has a property. -/
theorem mapM_forall {ε α β : Type} {f : α → Except ε β} {P : β → Prop} {xs : List α}
    {ys : List β} (hf : ∀ x y, f x = .ok y → P y) (h : xs.mapM f = .ok ys) : ∀ y ∈ ys, P y := by
  induction xs generalizing ys with
  | nil =>
    rw [List.mapM_nil] at h
    cases pure_eq_ok.mp h
    exact fun y hy => by cases hy
  | cons x xs ih =>
    rw [List.mapM_cons] at h
    obtain ⟨y, hy, h⟩ := bind_eq_ok.mp h
    obtain ⟨zs, hzs, h⟩ := bind_eq_ok.mp h
    cases pure_eq_ok.mp h
    intro z hz
    rcases List.mem_cons.mp hz with rfl | hz
    · exact hf x z hy
    · exact ih hzs z hz

/-! ## The policy -/

/-- Every description that the decoder makes is of one of these forms. -/
theorem decoded_compared {input : DecoderInput} {d : Description}
    (h : decodeProviderTransaction libraries input = .ok d) : Compared d ∧ Invokes d := by
  rw [decodeProviderTransaction] at h
  split at h
  · rw [decodeEvmTransaction] at h
    obtain ⟨read, -, h⟩ := bind_eq_ok.mp h
    obtain ⟨tokenMetadata, chainId, target, source, data, nonce, selector, gas, deadline, i, hi,
      rfl⟩ := describeEvmTransaction_call h
    obtain ⟨hcompared, hprogram⟩ := evmDescription_compared nonce selector gas deadline hi
    refine ⟨hcompared, fun j hj => ?_, fun t ht => ?_⟩
    · rw [List.mem_singleton.mp hj, hprogram]
      exact List.mem_singleton_self target
    · rw [← Option.some.inj ht]
      rfl
  · split at h
    · obtain ⟨height, -, h⟩ := bind_eq_ok.mp h
      rw [decodeSolanaTransaction] at h
      obtain ⟨chainId, -, h⟩ := bind_eq_ok.mp h
      obtain ⟨_, -, h⟩ := bind_eq_ok.mp h
      obtain ⟨message, -, h⟩ := bind_eq_ok.mp h
      obtain ⟨_, -, h⟩ := bind_eq_ok.mp h
      obtain ⟨_, -, h⟩ := bind_eq_ok.mp h
      obtain ⟨keys, -, h⟩ := bind_eq_ok.mp h
      obtain ⟨signers, -, h⟩ := bind_eq_ok.mp h
      obtain ⟨_, -, h⟩ := bind_eq_ok.mp h
      obtain ⟨instructions, hinstructions, h⟩ := bind_eq_ok.mp h
      obtain ⟨_, -, h⟩ := bind_eq_ok.mp h
      obtain ⟨_, -, h⟩ := bind_eq_ok.mp h
      cases pure_eq_ok.mp h
      have hmoves : ∀ i ∈ instructions, i.MovesAsSolana := by
        refine mapM_forall (fun position i hi => ?_) hinstructions
        rw [describeInstruction] at hi
        obtain ⟨programId, -, hi⟩ := bind_eq_ok.mp hi
        obtain ⟨accounts, -, hi⟩ := bind_eq_ok.mp hi
        exact decodeSolanaInstruction_moves hi
      refine ⟨solanaDescription_compared hmoves, fun i hi => ?_, fun t ht => by cases ht⟩
      exact List.mem_eraseDups.mpr (List.mem_map_of_mem hi)
    · cases h

/-- What the comparison with the canonical policy establishes. -/
theorem canonicalPolicyConstraint_eq_ok {policy : TransactionPolicy} {d : Description}
    (hinvokes : Invokes d) (h : canonicalPolicyConstraint policy d = .ok ()) :
    (∀ destination ∈ d.destination, policy.expectedRecipient = destination) ∧
      policy.amount.Same d.checkedAmount ∧
      ∀ p ∈ d.invoked, p ∈ policy.allowedTargets ∨ p ∈ policy.allowedPrograms := by
  rw [canonicalPolicyConstraint] at h
  obtain ⟨_, -, h⟩ := bind_eq_ok.mp h
  obtain ⟨_, hrecipient, h⟩ := bind_eq_ok.mp h
  obtain ⟨_, hamount, h⟩ := bind_eq_ok.mp h
  rw [exactValue] at hamount
  obtain ⟨wanted, hwanted, hamount⟩ := bind_eq_ok.mp hamount
  obtain ⟨given, hgiven, hamount⟩ := bind_eq_ok.mp hamount
  have htext : wanted = given := by simpa using hamount
  have hallowed : (∃ target ∈ d.target, target ∈ policy.allowedTargets) ∨
      (d.programIds ≠ [] ∧ ∀ p ∈ d.programIds, p ∈ policy.allowedPrograms) := by
    simpa [or_iff_not_imp_left] using h
  refine ⟨by simpa using hrecipient, AssetAmount.same_of_shown (shownData_of_stableJson
    policy.amount.distinct d.checkedAmount.distinct hwanted (htext ▸ hgiven)), ?_⟩
  intro p hp
  have hprograms : p ∈ d.programIds ∨ d.target = some p := by
    rcases List.mem_append.mp hp with htarget | hprogram
    · exact .inr (Option.mem_toList.mp htarget)
    · obtain ⟨i, hi, rfl⟩ := List.mem_map.mp hprogram
      exact .inl (hinvokes.programs i hi)
  rcases hallowed with ⟨target, htarget, hlisted⟩ | ⟨-, hlisted⟩
  · -- the target is then the only program
    have hp : p = target := by
      rcases hprograms with hprogram | htarget'
      · rw [hinvokes.target target htarget] at hprogram
        exact List.mem_singleton.mp hprogram
      · exact Option.some.inj (htarget'.symm.trans htarget)
    exact .inl (hp ▸ hlisted)
  · rcases hprograms with hprogram | htarget
    · exact .inr (hlisted p hprogram)
    · refine .inr (hlisted p ?_)
      rw [hinvokes.target p htarget]
      exact List.mem_singleton_self p

theorem evaluate_eq_ok {policy : TransactionPolicy} {rules : Value} {d : Description}
    {decision : PolicyDecision} (h : evaluate policy rules d = .ok decision) :
    canonicalPolicyConstraint policy d = .ok () := by
  rw [evaluate] at h
  obtain ⟨_, -, h⟩ := bind_eq_ok.mp h
  obtain ⟨_, -, h⟩ := bind_eq_ok.mp h
  obtain ⟨_, hcanonical, h⟩ := bind_eq_ok.mp h
  exact hcanonical

/-- An allowed transaction is bounded by its canonical policy when it makes at most one
transfer. With more transfers it is bounded only where they all move nothing, to the expected
recipient. -/
theorem allowed_bounded_iff {input : DecoderInput} {d : Description}
    {policy : TransactionPolicy} {rules : Value} {decision : PolicyDecision}
    (hdecoded : decodeProviderTransaction libraries input = .ok d)
    (hallowed : evaluate policy rules d = .ok decision) :
    Bounded policy d ↔ d.transfers.length ≤ 1 ∨
      ∀ t ∈ d.transfers, t.amount = 0 ∧ t.recipient = policy.expectedRecipient := by
  obtain ⟨hcompared, hinvokes⟩ := decoded_compared hdecoded
  obtain ⟨hrecipient, hsame, hinvoked⟩ :=
    canonicalPolicyConstraint_eq_ok hinvokes (evaluate_eq_ok hallowed)
  have hasset : policy.amount.asset = d.checkedAmount.asset := by
    rw [AssetAmount.asset, AssetAmount.asset, hsame.chainId, hsame.assetId]
  have hbounded : (∀ asset, moved asset d.transfers
        = if asset = d.checkedAmount.asset then textNat d.checkedAmount.amountAtomic else 0) →
      (∀ t ∈ d.transfers, t.recipient = policy.expectedRecipient) → Bounded policy d := by
    intro hamounts hrecipients
    refine ⟨fun asset => ?_, hrecipients, hinvoked⟩
    rw [hasset, hsame.amountAtomic]
    exact hamounts asset
  -- every transfer moves at most what the policy names of its asset
  have hlimit : Bounded policy d → ∀ t ∈ d.transfers,
      t.amount ≤ if t.asset = d.checkedAmount.asset then textNat d.checkedAmount.amountAtomic
        else 0 := by
    intro h t ht
    have htotal := h.amounts t.asset
    rw [hasset, hsame.amountAtomic] at htotal
    exact htotal ▸ amount_le_moved ht
  cases hcompared with
  | nothing htransfers hzero =>
    refine iff_of_true (hbounded (fun asset => ?_) ?_) (.inl (by rw [htransfers]; exact Nat.zero_le 1))
    · rw [htransfers, hzero, ite_self, moved_nil]
    · rw [htransfers]
      exact fun t ht => by cases ht
  | only amount recipient htransfers hamount hdestination =>
    refine iff_of_true (hbounded (fun asset => ?_) ?_) (.inl (by rw [htransfers]; rfl))
    · rw [htransfers, hamount, moved_cons, moved_nil, Nat.add_zero]
      exact if_congr eq_comm rfl rfl
    · rw [htransfers]
      intro t ht
      rw [List.mem_singleton.mp ht]
      exact (hrecipient recipient hdestination).symm
  | carrying amount value recipient target htransfers hamount hpositive =>
    have hboth : ¬ (d.transfers.length ≤ 1 ∨
        ∀ t ∈ d.transfers, t.amount = 0 ∧ t.recipient = policy.expectedRecipient) := by
      rw [htransfers]
      rintro (hlength | hall)
      · exact absurd hlength (by simp)
      · exact absurd (hall (transferTo value target) (by simp)).1 hpositive.ne'
    refine iff_of_false (fun h => ?_) hboth
    have htotal := h.amounts (transferTo value target).asset
    rw [hasset, hsame.amountAtomic, hamount, htransfers, moved_cons, moved_cons, moved_nil,
      if_pos rfl] at htotal
    change (if amount.asset = value.asset then textNat amount.amountAtomic else 0)
      + (textNat value.amountAtomic + 0)
      = if value.asset = amount.asset then textNat amount.amountAtomic else 0 at htotal
    simp only [eq_comm (a := value.asset)] at htotal
    omega
  | several hmany hzero =>
    constructor
    · intro h
      refine .inr fun t ht => ⟨?_, h.recipients t ht⟩
      have hle := hlimit h t ht
      rw [hzero, ite_self] at hle
      exact Nat.le_zero.mp hle
    · rintro (hfew | hall)
      · omega
      · refine hbounded (fun asset => ?_) fun t ht => (hall t ht).2
        rw [hzero, ite_self]
        exact moved_eq_zero fun t ht => (hall t ht).1

/-! ## Two transfers under one policy -/

/-- A rule that only this amount matches. -/
def exactAmount (amount : Option AssetAmount) : Value :=
  amount.elim .null fun a => .object [(text "exact", a.value)]

def Gas.exactRule : Gas → Value
  | .evm limit gasPrice maxFeePerGas maxPriorityFeePerGas =>
    .object [(text "limit", optionalText limit), (text "gasPrice", exactAmount gasPrice),
      (text "maxFeePerGas", exactAmount maxFeePerGas),
      (text "maxPriorityFeePerGas", exactAmount maxPriorityFeePerGas)]
  | .solana computeUnitLimit pricePerComputeUnit =>
    .object [(text "computeUnitLimit", optionalText computeUnitLimit),
      (text "pricePerComputeUnit", exactAmount pricePerComputeUnit)]

/-- A value with some of its properties replaced. -/
def replaced (value : Value) (entries : Fields) : Value :=
  entries.foldl (fun v entry => spread v entry.1 entry.2) value

def Instruction.exactRule (i : Instruction) : Value :=
  replaced i.value [(text "amount", exactAmount i.amount),
    (text "nativeValue", exactAmount i.nativeValue),
    (text "priorityFee", exactAmount i.priorityFee)]

/-- The rule that lists every field of one description. -/
def Description.exactRule (d : Description) (id : Text) : Value :=
  replaced (.object ([(text "id", Value.string id)] ++ (match d.value with
      | .object fs => fs.filter fun f => f.1 ≠ text "schema"
      | _ => [])))
    [(text "amount", exactAmount d.amount), (text "nativeValue", exactAmount d.nativeValue),
      (text "gas", d.gas.exactRule),
      (text "instructions", .array (d.instructions.map Instruction.exactRule)),
      (text "extraInstructions", .array (d.extraInstructions.map Instruction.exactRule)),
      (text "priorityFee", exactAmount d.priorityFee)]

/-- The keys whose bytes are all 1, all 2 and all 3. -/
def drainSource : PublicKey := text "4vJ9JU1bJJE96FWSJKvHsmmFADCg4gpZQff4P3bkLKi"
def drainRecipient : PublicKey := text "8qbHbw2BbbTHBW1sbeqakYXVKRQM8Ne7pLK7m6CVfeR"
def approvedRecipient : PublicKey := text "CktRuQ2mttgRGkXJtyksdKHjUdc2C4TgDzyB98oEzy8"

/-- A system transfer of five lamports from the first account to the second. -/
def drainTransfer : CompiledInstruction where
  programIdIndex := 2
  accountKeyIndexes := [0, 1]
  data := [2, 0, 0, 0, 5, 0, 0, 0, 0, 0, 0, 0]

def drainTransaction : VersionedTransaction where
  signatures := [List.replicate 64 0]
  message := { version := .legacy, numRequiredSignatures := 1, numReadonlySignedAccounts := 0,
               numReadonlyUnsignedAccounts := 1,
               staticAccountKeys := [drainSource, drainRecipient, SYSTEM_PROGRAM_ID],
               recentBlockhash := SYSTEM_PROGRAM_ID,
               compiledInstructions := [drainTransfer, drainTransfer],
               addressTableLookups := [] }

/-- One empty signature, the header, the keys, the blockhash and the instructions. -/
def drainWire : Bytes :=
  1 :: List.replicate 64 0 ++ [1, 0, 1, 3] ++ List.replicate 32 1 ++ List.replicate 32 2 ++
    List.replicate 64 0 ++ [2] ++ [2, 2, 0, 1, 12] ++ drainTransfer.data ++ [2, 2, 0, 1, 12] ++
    drainTransfer.data

def drainInput : DecoderInput where
  family := Family.solana.name
  chainId := .string (text "solana-mainnet")
  transaction := ⟨.string (base64OfBytes drainWire), rfl⟩
  context := {}

def drainLibraries : Libraries := parsesOnly drainWire drainTransaction

/-- The policy approves no value, and another recipient. -/
def drainPolicy : TransactionPolicy where
  chainId := text "solana-mainnet"
  stage := text "purchase"
  requestDigest := text "sha256:" ++ List.replicate 64 48
  expectedRecipient := approvedRecipient
  amount := { chainId := text "solana-mainnet", assetId := text "native", decimals := .ofNat 9,
              amountAtomic := text "0" }
  allowedTargets := []
  allowedPrograms := [SYSTEM_PROGRAM_ID]

/-- What each of the two instructions moves. -/
def drained : Transfer where
  chainId := text "solana-mainnet"
  assetId := text "native"
  amount := 5
  recipient := drainRecipient

theorem drain_allowed : (decodeProviderTransaction drainLibraries drainInput).toOption.any
    fun d => decide (d.transfers = [drained, drained]) &&
      (evaluate drainPolicy (.array [d.exactRule (text "rule")]) d).toOption.isSome := by
  decide +kernel

/-- The two transfers are allowed, although the policy names neither of them. -/
theorem drain_not_bounded :
    ∃ d decision, decodeProviderTransaction drainLibraries drainInput = .ok d ∧
      evaluate drainPolicy (.array [d.exactRule (text "rule")]) d = .ok decision ∧
      d.transfers = [drained, drained] ∧ ¬ Bounded drainPolicy d := by
  obtain ⟨d, hdecoded, hchecked⟩ := exists_ok_of_check drain_allowed
  obtain ⟨htransfers, hallowed⟩ := Bool.and_eq_true_iff.mp hchecked
  have htransfers : d.transfers = [drained, drained] := of_decide_eq_true htransfers
  cases hdecision : evaluate drainPolicy (.array [d.exactRule (text "rule")]) d with
  | error e =>
    rw [hdecision] at hallowed
    cases hallowed
  | ok decision =>
    refine ⟨d, decision, hdecoded, hdecision, htransfers, fun h => ?_⟩
    have hrecipient : drainRecipient = approvedRecipient :=
      h.recipients drained (by simp [htransfers])
    exact absurd hrecipient (by decide)

theorem allowed_bounded_iff_sample :
    ∃ d decision, decodeProviderTransaction drainLibraries drainInput = .ok d ∧
      evaluate drainPolicy (.array [d.exactRule (text "rule")]) d = .ok decision ∧
      (Bounded drainPolicy d ↔ d.transfers.length ≤ 1 ∨
        ∀ t ∈ d.transfers, t.amount = 0 ∧ t.recipient = approvedRecipient) := by
  obtain ⟨d, hdecoded, hchecked⟩ := exists_ok_of_check drain_allowed
  obtain ⟨-, hallowed⟩ := Bool.and_eq_true_iff.mp hchecked
  cases hdecision : evaluate drainPolicy (.array [d.exactRule (text "rule")]) d with
  | error e =>
    rw [hdecision] at hallowed
    cases hallowed
  | ok decision =>
    exact ⟨d, decision, hdecoded, hdecision, allowed_bounded_iff hdecoded hdecision⟩

end Hookemon.Signing
