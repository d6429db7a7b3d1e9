import Hookemon.Runner.SnapshotText
import Hookemon.Runner.TransferFold

/-! # The holder snapshot (`distribution/snapshot-indexer.mjs`)

`buildHolderSnapshot` folds the finalized Transfer logs of the token into balances, checks
them against a total supply that is read elsewhere, and keeps the positive balances of the
addresses that are not excluded. `assertHolderSnapshot` checks a snapshot again, without
the logs.

The exact-schema checks of the source are the types of the records.
-/

namespace Hookemon.Runner.SnapshotIndexer

open Hookemon.Core Hookemon.Js

/-! ## Records -/

/-- The argument of `buildHolderSnapshot`. -/
structure SnapshotInput where
  chainId : Text
  tokenAddress : Text
  blockNumber : Text
  blockHash : Text
  finalized : Bool
  totalSupply : Text
  excludedAddresses : List Exclusion
  transferLogs : List TransferLog
deriving DecidableEq, Repr

structure SnapshotContent where
  schema : Text
  chainId : Text
  tokenAddress : Text
  blockNumber : Text
  blockHash : Text
  finalized : Bool
  totalSupply : Text
  totalHolderBalance : Text
  totalExcludedBalance : Text
  holderCount : Int
  excludedAddresses : List Exclusion
  directBalances : List DirectBalance
deriving DecidableEq

structure HolderSnapshot extends SnapshotContent where
  holderSnapshotDigest : Text
deriving DecidableEq

def holderSnapshotSchema : Text := text "hookemon.hkmn-holder-snapshot.v1"

/-- `HOLDER_SNAPSHOT_LIMITS.directBalances`. -/
abbrev directBalancesLimit : Nat := 250000

/-! ## The digest of a snapshot -/

/-- `EXCLUDED_ADDRESS_FIELDS`. -/
def exclusionFields : List Text := [text "address", text "reason"]

/-- `DIRECT_BALANCE_FIELDS`. -/
def directBalanceFields : List Text := [text "recipient", text "directHkmnBalance"]

/-- `HOLDER_SNAPSHOT_CONTENT_FIELDS`. -/
def holderSnapshotContentFields : List Text :=
  [text "schema", text "chainId", text "tokenAddress", text "blockNumber", text "blockHash",
   text "finalized", text "totalSupply", text "totalHolderBalance", text "totalExcludedBalance",
   text "holderCount", text "excludedAddresses", text "directBalances"]

def Exclusion.toValue (exclusion : Exclusion) : Value :=
  .object [(text "address", .string exclusion.address), (text "reason", .string exclusion.reason)]

def DirectBalance.toValue (holder : DirectBalance) : Value :=
  .object [(text "recipient", .string holder.recipient),
    (text "directHkmnBalance", .string holder.directHkmnBalance)]

def SnapshotContent.fields (content : SnapshotContent) : Fields :=
  [(text "schema", .string content.schema),
   (text "chainId", .string content.chainId),
   (text "tokenAddress", .string content.tokenAddress),
   (text "blockNumber", .string content.blockNumber),
   (text "blockHash", .string content.blockHash),
   (text "finalized", .boolean content.finalized),
   (text "totalSupply", .string content.totalSupply),
   (text "totalHolderBalance", .string content.totalHolderBalance),
   (text "totalExcludedBalance", .string content.totalExcludedBalance),
   (text "holderCount", integerValue content.holderCount),
   (text "excludedAddresses", .array (content.excludedAddresses.map Exclusion.toValue)),
   (text "directBalances", .array (content.directBalances.map DirectBalance.toValue))]

/-- The digest of a snapshot with this content. -/
def contentDigest (sha256 : Bytes → Bytes) (content : SnapshotContent) : Except String Text :=
  snapshotDigest sha256 (.object [(text "domain", .string holderSnapshotSchema),
    (text "snapshot", .object content.fields)])

theorem Exclusion.plain (exclusion : Exclusion) : Plain (Exclusion.toValue exclusion) :=
  .object exclusionFields rfl (by decide) (by simp [Plain.string])

theorem DirectBalance.plain (holder : DirectBalance) : Plain (DirectBalance.toValue holder) :=
  .object directBalanceFields rfl (by decide) (by simp [Plain.string])

/-- A content is plain when its count is a number. -/
theorem SnapshotContent.plain (content : SnapshotContent)
    (hcount : IsDouble content.holderCount.natAbs) : Plain (.object content.fields) := by
  have hexcluded : Plain (.array (content.excludedAddresses.map Exclusion.toValue)) :=
    .array (List.forall_mem_map.mpr fun exclusion _ => Exclusion.plain exclusion)
  have hholders : Plain (.array (content.directBalances.map DirectBalance.toValue)) :=
    .array (List.forall_mem_map.mpr fun holder _ => DirectBalance.plain holder)
  refine .object holderSnapshotContentFields rfl (by decide) ?_
  simp [SnapshotContent.fields, Plain.string, Plain.boolean, Plain.integer hcount, hexcluded,
    hholders]

/-- The content of a snapshot with a small count has a digest. -/
theorem contentDigest_isOk (sha256 : Bytes → Bytes) (content : SnapshotContent)
    (hcount : content.holderCount.natAbs < 2 ^ 53) : ∃ d, contentDigest sha256 content = .ok d := by
  have hcontent := content.plain (isDouble_small hcount)
  exact (Plain.object [text "domain", text "snapshot"] rfl (by decide)
    (by simp [Plain.string, hcontent])).snapshotDigest_isOk sha256

/-! ## The snapshot -/

/-- The body of the loop of `buildHolderSnapshot` over the excluded addresses. -/
def assertExcludedAddress (seen : List Exclusion) (entry : Exclusion) : Except String Unit := do
  let label := "holder snapshot excluded address " ++ toString seen.length
  assertAddress entry.address (label ++ " address") true
  throwIf (entry.reason = []) (label ++ " reason is invalid")
  throwIf (entry.address ∈ seen.map Exclusion.address)
    "holder snapshot excluded addresses must be unique"

/-- What the loop over the balances leaves: the positive balances of the addresses that
are excluded, and of those that are not. -/
def partitionBalances (balances : List (Text × Nat)) (excludedByAddress : List Text) :
    List (Text × Nat) × List (Text × Nat) :=
  (balances.filter fun entry => 0 < entry.2).partition fun entry => entry.1 ∈ excludedByAddress

/-- The snapshot before it is signed with its digest. -/
def snapshotContent (value : SnapshotInput) (excluded held : List (Text × Nat)) :
    SnapshotContent where
  schema := holderSnapshotSchema
  chainId := value.chainId
  tokenAddress := value.tokenAddress
  blockNumber := value.blockNumber
  blockHash := value.blockHash
  finalized := true
  totalSupply := value.totalSupply
  totalHolderBalance := natText (held.map Prod.snd).sum
  totalExcludedBalance := natText (excluded.map Prod.snd).sum
  holderCount := held.length
  excludedAddresses := sortByKey Exclusion.address value.excludedAddresses
  directBalances := sortByKey DirectBalance.recipient
    (held.map fun entry => ⟨entry.1, natText entry.2⟩)

def buildHolderSnapshot (sha256 : Bytes → Bytes) (value : SnapshotInput) :
    Except String HolderSnapshot := do
  assertDecimalString value.chainId "holder snapshot chainId" true
  assertAddress value.tokenAddress "holder snapshot token address" false
  assertDecimalString value.blockNumber "holder snapshot block number" false
  throwIf (¬ isBlockHash value.blockHash) "holder snapshot block hash is invalid"
  throwIf (¬ value.finalized) "holder snapshot must be built from a finalized block"
  assertDecimalString value.totalSupply "holder snapshot total supply" false
  scan assertExcludedAddress [] value.excludedAddresses
  let folded ← foldTransferLogs value.transferLogs value.blockNumber
  throwIf ((folded.mintedTotal : Int) - folded.burnedTotal ≠ textNat value.totalSupply)
    ("holder snapshot total supply does not reconcile with the folded transfer-log set "
      ++ "(mint minus burn) — the log range is incomplete or the supplied total supply is wrong")
  let (excluded, held) :=
    partitionBalances folded.balances.entries (value.excludedAddresses.map Exclusion.address)
  throwIf (directBalancesLimit < held.length)
    ("holder snapshot direct balances exceed the limit of " ++ toString directBalancesLimit)
  let content := snapshotContent value excluded held
  let holderSnapshotDigest ← contentDigest sha256 content
  pure { content with holderSnapshotDigest }

/-- The body of the loop of `assertHolderSnapshot` over the excluded addresses. -/
def assertSortedExclusion (seen : List Exclusion) (entry : Exclusion) : Except String Unit := do
  let label := "holder snapshot excluded address " ++ toString seen.length
  assertAddress entry.address (label ++ " address") true
  throwIf (entry.reason = []) (label ++ " reason is invalid")
  throwIf (∃ previous ∈ seen.getLast?, entry.address ≤ previous.address)
    "holder snapshot excluded addresses must be sorted and unique"

/-- The body of the loop of `assertHolderSnapshot` over the balances. -/
def assertSortedBalance (excludedSet : List Text) (seen : List DirectBalance)
    (entry : DirectBalance) : Except String Unit := do
  let label := "holder snapshot direct balance " ++ toString seen.length
  assertAddress entry.recipient (label ++ " recipient") false
  assertDecimalString entry.directHkmnBalance (label ++ " balance") true
  throwIf (entry.recipient ∈ excludedSet)
    "holder snapshot excluded addresses must never appear as a recipient"
  throwIf (∃ previous ∈ seen.getLast?, entry.recipient ≤ previous.recipient)
    "holder snapshot direct balances must be sorted and unique"

def assertHolderSnapshot (sha256 : Bytes → Bytes) (snapshot : HolderSnapshot) :
    Except String HolderSnapshot := do
  throwIf (snapshot.schema ≠ holderSnapshotSchema) "holder snapshot schema is invalid"
  assertDecimalString snapshot.chainId "holder snapshot chainId" true
  assertAddress snapshot.tokenAddress "holder snapshot token address" false
  assertDecimalString snapshot.blockNumber "holder snapshot block number" false
  throwIf (¬ isBlockHash snapshot.blockHash) "holder snapshot block hash is invalid"
  throwIf (¬ snapshot.finalized) "holder snapshot must be finalized"
  assertDecimalString snapshot.totalSupply "holder snapshot total supply" false
  assertDecimalString snapshot.totalHolderBalance "holder snapshot total holder balance" false
  assertDecimalString snapshot.totalExcludedBalance "holder snapshot total excluded balance" false
  throwIf (snapshot.holderCount < 0) "holder snapshot holder count is invalid"
  scan assertSortedExclusion [] snapshot.excludedAddresses
  throwIf (directBalancesLimit < snapshot.directBalances.length)
    ("holder snapshot direct balances must contain between 0 and "
      ++ toString directBalancesLimit ++ " entries")
  scan (assertSortedBalance (snapshot.excludedAddresses.map Exclusion.address)) []
    snapshot.directBalances
  throwIf ((snapshot.directBalances.length : Int) ≠ snapshot.holderCount)
    "holder snapshot holder count mismatch"
  throwIf ((snapshot.directBalances.map DirectBalance.balance).sum
      ≠ textNat snapshot.totalHolderBalance)
    "holder snapshot total holder balance does not match its direct balances"
  throwIf (¬ isDigest snapshot.holderSnapshotDigest) "holder snapshot digest is invalid"
  let digest ← contentDigest sha256 snapshot.toSnapshotContent
  throwIf (snapshot.holderSnapshotDigest ≠ digest) "holder snapshot digest mismatch"
  pure snapshot
/-! ## The balances that are kept -/

section

variable {logs : List TransferLog} {s : FoldState} {address : Text} {balance : Nat}

/-- The positive balances are the positive nets. -/
theorem Folds.positive_iff (h : Folds logs s) :
    (address, balance) ∈ s.balances.entries ∧ 0 < balance ↔
      0 < net (transfers logs) address ∧ balance = (net (transfers logs) address).toNat := by
  rw [Record.mem_iff_find, ← h.holding address]
  by_cases hzero : address = zeroEvmAddress
  · -- no more was burned than was minted
    have hburned := h.balanced
    rw [FoldState.surplus] at hburned
    rw [hzero, h.outside, FoldState.holding, if_pos rfl]
    refine iff_of_false (by simp) ?_
    omega
  · rw [FoldState.holding_nonzero hzero, FoldState.balance]
    cases hfind : s.balances.find address with
    | none => simp
    | some found =>
      simp only [Option.some.injEq, Option.getD_some]
      omega

variable (excludedByAddress : List Text)

/-- The balances of the addresses that are not excluded. -/
def FoldState.held (s : FoldState) : List (Text × Nat) :=
  (partitionBalances s.balances.entries excludedByAddress).2

/-- The balances of the addresses that are excluded. -/
def FoldState.excluded (s : FoldState) : List (Text × Nat) :=
  (partitionBalances s.balances.entries excludedByAddress).1

variable {excludedByAddress}

theorem Folds.mem_held (h : Folds logs s) :
    (address, balance) ∈ s.held excludedByAddress ↔ address ∉ excludedByAddress ∧
      0 < net (transfers logs) address ∧ balance = (net (transfers logs) address).toNat := by
  rw [← h.positive_iff]
  simp [FoldState.held, partitionBalances]
  tauto

theorem FoldState.held_sublist (s : FoldState) :
    (s.held excludedByAddress).Sublist s.balances.entries := by
  rw [held, partitionBalances, List.partition_eq_filter_filter]
  exact List.filter_sublist.trans List.filter_sublist

theorem FoldState.held_nodup (s : FoldState) :
    ((s.held excludedByAddress).map Prod.fst).Nodup :=
  s.balances.distinct.sublist (s.held_sublist.map Prod.fst)

/-- A sum over the entries is the sum over those with a property and over the others. -/
theorem sum_filter_add (entries : List (Text × Nat)) (p : Text × Nat → Bool) :
    ((entries.filter p).map Prod.snd).sum + ((entries.filter fun entry => !p entry).map Prod.snd).sum
      = (entries.map Prod.snd).sum := by
  rw [← List.sum_append, ← List.map_append]
  exact ((List.filter_append_perm p entries).map Prod.snd).sum_eq

/-- The balances that are kept and those that are excluded are what was minted and is not
burned. -/
theorem Folds.held_add_excluded (h : Folds logs s) (excludedByAddress : List Text) :
    ((((s.held excludedByAddress).map Prod.snd).sum
        + ((s.excluded excludedByAddress).map Prod.snd).sum : Nat) : Int)
      = s.mintedTotal - s.burnedTotal := by
  have hparts : ((s.held excludedByAddress).map Prod.snd).sum
      + ((s.excluded excludedByAddress).map Prod.snd).sum = s.balances.values.sum := by
    have hzero : ((s.balances.entries.filter fun entry => !decide (0 < entry.2)).map Prod.snd).sum
        = 0 := by
      refine List.sum_eq_zero fun n hn => ?_
      obtain ⟨entry, hentry, rfl⟩ := List.mem_map.mp hn
      simpa using (List.mem_filter.mp hentry).2
    have hpositive := sum_filter_add s.balances.entries fun entry => decide (0 < entry.2)
    rw [FoldState.held, FoldState.excluded, partitionBalances, List.partition_eq_filter_filter,
      Nat.add_comm]
    have hexcluded := sum_filter_add (s.balances.entries.filter fun entry => decide (0 < entry.2))
      fun entry => decide (entry.1 ∈ excludedByAddress)
    rw [hzero] at hpositive
    exact hexcluded.trans hpositive
  have hbalanced := h.balanced
  rw [FoldState.surplus] at hbalanced
  rw [hparts]
  omega

end

/-! ## The snapshot of the logs -/

/-- The fields of the input beside its lists are well formed. -/
structure SnapshotInput.HeaderOk (value : SnapshotInput) : Prop where
  chainId : isPositiveDecimal value.chainId
  tokenAddress : IsRecipient value.tokenAddress
  blockNumber : isDecimal value.blockNumber
  blockHash : isBlockHash value.blockHash
  finalized : value.finalized
  totalSupply : isDecimal value.totalSupply

/-- The exclusions are well formed and name no address twice. -/
structure ExclusionsOk (exclusions : List Exclusion) : Prop where
  wellFormed : ∀ entry ∈ exclusions, isLowerAddress entry.address ∧ entry.reason ≠ []
  distinct : (exclusions.map Exclusion.address).Nodup

/-- The excluded addresses of the input. -/
def SnapshotInput.excludedByAddress (value : SnapshotInput) : List Text :=
  value.excludedAddresses.map Exclusion.address

/-- The spec of `buildHolderSnapshot`. -/
theorem buildHolderSnapshot_eq_ok {sha256 : Bytes → Bytes} {value : SnapshotInput}
    {snapshot : HolderSnapshot} :
    buildHolderSnapshot sha256 value = .ok snapshot ↔
      value.HeaderOk ∧ ExclusionsOk value.excludedAddresses ∧
      ∃ s, foldTransferLogs value.transferLogs value.blockNumber = .ok s ∧
        (s.mintedTotal : Int) - s.burnedTotal = textNat value.totalSupply ∧
        (s.held value.excludedByAddress).length ≤ directBalancesLimit ∧
        ∃ d, contentDigest sha256 (snapshotContent value (s.excluded value.excludedByAddress)
            (s.held value.excludedByAddress)) = .ok d ∧
          snapshot = ⟨snapshotContent value (s.excluded value.excludedByAddress)
            (s.held value.excludedByAddress), d⟩ := by
  have hscan : scan assertExcludedAddress [] value.excludedAddresses = .ok () ↔
      (∀ entry ∈ value.excludedAddresses, isLowerAddress entry.address ∧ entry.reason ≠ []) ∧
        (value.excludedAddresses.map Exclusion.address).Nodup :=
    scan_unique fun seen entry => by
      simp only [assertExcludedAddress, bind_eq_ok, assertAddress_eq_ok, revertIf_eq_ok,
        exists_const, and_assoc, ne_eq]
  simp only [buildHolderSnapshot, bind_eq_ok, assertDecimalString_positive, assertAddress_nonzero,
    assertDecimalString_eq_ok, revertIf_eq_ok, exists_const, not_not, hscan, pure_eq_ok, ne_eq,
    not_lt]
  constructor
  · rintro ⟨hchain, htoken, hblock, hhash, hfinal, hsupply, ⟨hexcluded, hdistinct⟩, s, hs, htotal,
      hfew, d, hd, rfl⟩
    exact ⟨⟨hchain, htoken, hblock, hhash, hfinal, hsupply⟩, ⟨hexcluded, hdistinct⟩, s, hs, htotal,
      hfew, d, hd, rfl⟩
  · rintro ⟨⟨hchain, htoken, hblock, hhash, hfinal, hsupply⟩, ⟨hexcluded, hdistinct⟩, s, hs, htotal,
      hfew, d, hd, rfl⟩
    exact ⟨hchain, htoken, hblock, hhash, hfinal, hsupply, ⟨hexcluded, hdistinct⟩, s, hs, htotal,
      hfew, d, hd, rfl⟩

/-- A snapshot whose fields agree with each other, whatever its digest. -/
structure SnapshotContent.Consistent (content : SnapshotContent) : Prop where
  schema : content.schema = holderSnapshotSchema
  chainId : isPositiveDecimal content.chainId
  tokenAddress : IsRecipient content.tokenAddress
  blockNumber : isDecimal content.blockNumber
  blockHash : isBlockHash content.blockHash
  finalized : content.finalized
  totalSupply : isDecimal content.totalSupply
  totalHolderBalance : isDecimal content.totalHolderBalance
  totalExcludedBalance : isDecimal content.totalExcludedBalance
  exclusions : ∀ entry ∈ content.excludedAddresses,
    isLowerAddress entry.address ∧ entry.reason ≠ []
  exclusionsSorted : (content.excludedAddresses.map Exclusion.address).Pairwise (· < ·)
  few : content.directBalances.length ≤ directBalancesLimit
  holders : ∀ entry ∈ content.directBalances, IsRecipient entry.recipient ∧
    isPositiveDecimal entry.directHkmnBalance ∧
    entry.recipient ∉ content.excludedAddresses.map Exclusion.address
  holdersSorted : (content.directBalances.map DirectBalance.recipient).Pairwise (· < ·)
  holderCount : content.holderCount = content.directBalances.length
  total : (content.directBalances.map DirectBalance.balance).sum
    = textNat content.totalHolderBalance

/-- The spec of `assertHolderSnapshot`. -/
theorem assertHolderSnapshot_eq_ok {sha256 : Bytes → Bytes} {snapshot r : HolderSnapshot} :
    assertHolderSnapshot sha256 snapshot = .ok r ↔ snapshot.Consistent ∧
      isDigest snapshot.holderSnapshotDigest ∧
      contentDigest sha256 snapshot.toSnapshotContent = .ok snapshot.holderSnapshotDigest ∧
      r = snapshot := by
  have hexclusions : scan assertSortedExclusion [] snapshot.excludedAddresses = .ok () ↔
      (∀ entry ∈ snapshot.excludedAddresses, isLowerAddress entry.address ∧ entry.reason ≠ []) ∧
        (snapshot.excludedAddresses.map Exclusion.address).Pairwise (· < ·) :=
    scan_sorted fun seen entry => by
      simp only [assertSortedExclusion, bind_eq_ok, assertAddress_eq_ok, revertIf_eq_ok,
        exists_const, and_assoc, ne_eq, not_exists, not_and, not_le]
  have hholders : scan (assertSortedBalance (snapshot.excludedAddresses.map Exclusion.address)) []
      snapshot.directBalances = .ok () ↔
      (∀ entry ∈ snapshot.directBalances, IsRecipient entry.recipient ∧
        isPositiveDecimal entry.directHkmnBalance ∧
        entry.recipient ∉ snapshot.excludedAddresses.map Exclusion.address) ∧
      (snapshot.directBalances.map DirectBalance.recipient).Pairwise (· < ·) :=
    scan_sorted fun seen entry => by
      simp only [assertSortedBalance, bind_eq_ok, assertAddress_nonzero,
        assertDecimalString_positive, revertIf_eq_ok, exists_const, and_assoc, not_exists, not_and,
        not_le]
  simp only [assertHolderSnapshot, bind_eq_ok, assertDecimalString_positive, assertAddress_nonzero,
    assertDecimalString_eq_ok, revertIf_eq_ok, exists_const, not_not, hexclusions, hholders,
    pure_eq_ok, ne_eq, not_lt]
  constructor
  · rintro ⟨hschema, hchain, htoken, hblock, hhash, hfinal, hsupply, htotal, hrest, -,
      ⟨hexcluded, hsorted⟩, hfew, ⟨hheld, hordered⟩, hcount, hsum, hform, d, hd, hsame, rfl⟩
    subst hsame
    exact ⟨⟨hschema, hchain, htoken, hblock, hhash, hfinal, hsupply, htotal, hrest, hexcluded,
      hsorted, hfew, hheld, hordered, hcount.symm, hsum⟩, hform, hd, rfl⟩
  · rintro ⟨⟨hschema, hchain, htoken, hblock, hhash, hfinal, hsupply, htotal, hrest, hexcluded,
      hsorted, hfew, hheld, hordered, hcount, hsum⟩, hform, hd, rfl⟩
    refine ⟨hschema, hchain, htoken, hblock, hhash, hfinal, hsupply, htotal, hrest, ?_,
      ⟨hexcluded, hsorted⟩, hfew, ⟨hheld, hordered⟩, hcount.symm, hsum, hform, _, hd, rfl, rfl⟩
    rw [hcount]
    exact Int.natCast_nonneg _

/-- What `buildHolderSnapshot` accepts. -/
structure SnapshotInput.Accepted (value : SnapshotInput) : Prop where
  header : value.HeaderOk
  exclusions : ExclusionsOk value.excludedAddresses
  logs : LogsAccepted (textNat value.blockNumber) value.transferLogs
  supply : (sent (transfers value.transferLogs) zeroEvmAddress : Int)
    - received (transfers value.transferLogs) zeroEvmAddress = textNat value.totalSupply
  few : {address | address ∉ value.excludedByAddress ∧
    0 < net (transfers value.transferLogs) address}.ncard ≤ directBalancesLimit

section

variable {value : SnapshotInput} {s : FoldState}

/-- The number of holders is the number of entries. -/
theorem Folds.ncard_holders (h : Folds value.transferLogs s) :
    {address | address ∉ value.excludedByAddress ∧
      0 < net (transfers value.transferLogs) address}.ncard
      = (s.held value.excludedByAddress).length := by
  have hset : {address | address ∉ value.excludedByAddress ∧
      0 < net (transfers value.transferLogs) address}
      = (((s.held value.excludedByAddress).map Prod.fst).toFinset : Set Text) := by
    ext address
    simp only [Set.mem_ofPred_eq, List.coe_toFinset, List.mem_map, Prod.exists, exists_and_right,
      exists_eq_right, h.mem_held]
    constructor
    · rintro ⟨hkept, hpositive⟩
      exact ⟨_, hkept, hpositive, rfl⟩
    · rintro ⟨_, hkept, hpositive, rfl⟩
      exact ⟨hkept, hpositive⟩
  rw [hset, Set.ncard_coe_finset, List.toFinset_card_of_nodup s.held_nodup, List.length_map]

/-- What was minted and burned is what the zero address sent and received. -/
theorem Folds.supply (h : Folds value.transferLogs s) :
    (s.mintedTotal : Int) - s.burnedTotal
      = sent (transfers value.transferLogs) zeroEvmAddress
        - received (transfers value.transferLogs) zeroEvmAddress := by
  have hzero := h.holding zeroEvmAddress
  rw [FoldState.holding, if_pos rfl, net] at hzero
  omega

theorem buildHolderSnapshot_isOk (sha256 : Bytes → Bytes) :
    (∃ snapshot, buildHolderSnapshot sha256 value = .ok snapshot) ↔ value.Accepted := by
  obtain ⟨hlogs, hfolds⟩ := foldTransferLogs_spec value.blockNumber value.transferLogs
  simp only [buildHolderSnapshot_eq_ok]
  constructor
  · rintro ⟨_, hheader, hexclusions, s, hs, hsupply, hfew, -⟩
    have h := hfolds s hs
    refine ⟨hheader, hexclusions, hlogs.mp ⟨s, hs⟩, ?_, ?_⟩
    · rw [← h.supply, hsupply]
    · rw [h.ncard_holders]
      exact hfew
  · rintro ⟨hheader, hexclusions, haccepted, hsupply, hfew⟩
    obtain ⟨s, hs⟩ := hlogs.mpr haccepted
    have h := hfolds s hs
    rw [h.ncard_holders] at hfew
    have hsmall : (s.held value.excludedByAddress).length < 2 ^ 53 :=
      lt_of_le_of_lt hfew (by decide)
    obtain ⟨d, hd⟩ := contentDigest_isOk sha256
      (snapshotContent value (s.excluded value.excludedByAddress)
        (s.held value.excludedByAddress)) (by simpa [snapshotContent] using hsmall)
    exact ⟨_, hheader, hexclusions, s, hs, h.supply.trans hsupply, hfew, d, hd, rfl⟩

/-- The snapshot lists the holders with their nets, in order. -/
structure HoldersOf (value : SnapshotInput) (snapshot : HolderSnapshot) : Prop where
  exact : ∀ address balance, ⟨address, balance⟩ ∈ snapshot.directBalances ↔
    address ∉ value.excludedByAddress ∧ 0 < net (transfers value.transferLogs) address ∧
      balance = natText (net (transfers value.transferLogs) address).toNat
  sorted : (snapshot.directBalances.map DirectBalance.recipient).Pairwise (· < ·)
  total : textNat snapshot.totalHolderBalance + textNat snapshot.totalExcludedBalance
    = textNat snapshot.totalSupply

theorem buildHolderSnapshot_holders {sha256 : Bytes → Bytes} {snapshot : HolderSnapshot}
    (h : buildHolderSnapshot sha256 value = .ok snapshot) : HoldersOf value snapshot := by
  obtain ⟨-, -, s, hs, hsupply, -, d, -, rfl⟩ := buildHolderSnapshot_eq_ok.mp h
  have hfolds := (foldTransferLogs_spec value.blockNumber value.transferLogs).2 s hs
  refine ⟨?_, ?_, ?_⟩
  · intro address balance
    show _ ∈ sortByKey DirectBalance.recipient _ ↔ _
    rw [(sortByKey_perm _ _).mem_iff, List.mem_map]
    constructor
    · rintro ⟨⟨a, b⟩, hentry, heq⟩
      obtain ⟨rfl, rfl⟩ := (DirectBalance.mk.injEq ..).mp heq
      obtain ⟨hkept, hpositive, rfl⟩ := hfolds.mem_held.mp hentry
      exact ⟨hkept, hpositive, rfl⟩
    · rintro ⟨hkept, hpositive, rfl⟩
      exact ⟨(address, _), hfolds.mem_held.mpr ⟨hkept, hpositive, rfl⟩, rfl⟩
  · refine sortByKey_strict ?_
    rw [List.map_map]
    exact s.held_nodup
  · show textNat (natText _) + textNat (natText _) = textNat value.totalSupply
    rw [textNat_natText, textNat_natText]
    have htotal := hfolds.held_add_excluded value.excludedByAddress
    omega

end

/-- An address with a positive net was named by a log. -/
theorem LogsAccepted.isLowerAddress {snapshotBlock : Nat} {logs : List TransferLog}
    (h : LogsAccepted snapshotBlock logs) {address : Text}
    (hpositive : 0 < net (transfers logs) address) : isLowerAddress address := by
  obtain ⟨t, ht, rfl⟩ := exists_target_of_net_pos hpositive
  obtain ⟨log, hlog, rfl⟩ := List.mem_map.mp ht
  exact (h.wellFormed log hlog).recipient

/-- What `buildHolderSnapshot` makes passes `assertHolderSnapshot`. -/
theorem assertHolderSnapshot_build {sha256 : Bytes → Bytes}
    (hlength : ∀ bytes, (sha256 bytes).length = 32) {value : SnapshotInput}
    {snapshot : HolderSnapshot} (h : buildHolderSnapshot sha256 value = .ok snapshot) :
    assertHolderSnapshot sha256 snapshot = .ok snapshot := by
  have hholders := buildHolderSnapshot_holders h
  obtain ⟨hheader, hexclusions, s, hs, hsupply, hfew, d, hd, rfl⟩ := buildHolderSnapshot_eq_ok.mp h
  obtain ⟨hlogs, hfolds⟩ := foldTransferLogs_spec value.blockNumber value.transferLogs
  have hfolds := hfolds s hs
  have haccepted := hlogs.mp ⟨s, hs⟩
  have hexcluded : (sortByKey Exclusion.address value.excludedAddresses).Perm
      value.excludedAddresses := sortByKey_perm _ _
  have hheld := sortByKey_perm DirectBalance.recipient
    ((s.held value.excludedByAddress).map fun entry => ⟨entry.1, natText entry.2⟩)
  have hcount : (sortByKey DirectBalance.recipient ((s.held value.excludedByAddress).map
      fun entry => (⟨entry.1, natText entry.2⟩ : DirectBalance))).length
      = (s.held value.excludedByAddress).length := by
    rw [hheld.length_eq, List.length_map]
  refine assertHolderSnapshot_eq_ok.mpr ⟨?_, isDigest_of_snapshotDigest hlength hd, hd, rfl⟩
  refine {
    schema := rfl
    chainId := hheader.chainId
    tokenAddress := hheader.tokenAddress
    blockNumber := hheader.blockNumber
    blockHash := hheader.blockHash
    finalized := rfl
    totalSupply := hheader.totalSupply
    totalHolderBalance := isDecimal_natText _
    totalExcludedBalance := isDecimal_natText _
    exclusions := fun entry hentry => hexclusions.wellFormed entry (hexcluded.mem_iff.mp hentry)
    exclusionsSorted := sortByKey_strict hexclusions.distinct
    few := by
      show List.length (sortByKey _ _) ≤ _
      rw [hcount]
      exact hfew
    holders := ?_
    holdersSorted := hholders.sorted
    holderCount := ?_
    total := ?_ }
  · rintro ⟨address, balance⟩ hentry
    obtain ⟨hkept, hpositive, rfl⟩ := (hholders.exact address balance).mp hentry
    refine ⟨⟨haccepted.isLowerAddress hpositive, ?_⟩, ?_, ?_⟩
    · -- the zero address never has a positive net
      rintro rfl
      have hburned := hfolds.holding zeroEvmAddress
      have htotal := hfolds.held_add_excluded value.excludedByAddress
      rw [FoldState.holding, if_pos rfl] at hburned
      omega
    · rw [isPositiveDecimal_natText]
      omega
    · intro hmem
      exact hkept (((hexcluded.map Exclusion.address).mem_iff).mp hmem)
  · show ((s.held value.excludedByAddress).length : Int) = List.length (sortByKey _ _)
    rw [hcount]
  · show ((sortByKey _ _).map DirectBalance.balance).sum = textNat (natText _)
    rw [(hheld.map DirectBalance.balance).sum_eq, textNat_natText, List.map_map]
    refine congrArg List.sum (List.map_congr_left fun entry _ => ?_)
    exact textNat_natText entry.2

/-- **The snapshot lists what the logs leave.** The balances of a snapshot are the positive
nets of the addresses that are not excluded, in the order of the addresses; with what the
excluded addresses have they are the total supply; and the validator accepts the snapshot.
The input is refused exactly when it is malformed, when the logs are out of order, newer
than the block or debit more than the sender has at the time, when what is minted and not
burned is not the supply, or when there are too many holders. -/
theorem holder_snapshot_exact (sha256 : Bytes → Bytes)
    (hlength : ∀ bytes, (sha256 bytes).length = 32) (value : SnapshotInput) :
    (∀ snapshot, buildHolderSnapshot sha256 value = .ok snapshot →
      HoldersOf value snapshot ∧ assertHolderSnapshot sha256 snapshot = .ok snapshot) ∧
    ((∃ message, buildHolderSnapshot sha256 value = .error message) ↔
      ¬ value.HeaderOk ∨ ¬ ExclusionsOk value.excludedAddresses ∨
      (∃ log ∈ value.transferLogs, ¬ log.WellFormed) ∨
      (∃ log ∈ value.transferLogs, textNat value.blockNumber < textNat log.blockNumber) ∨
      ¬ (value.transferLogs.map TransferLog.position).Pairwise (· < ·) ∨
      ¬ Covered zeroEvmAddress (transfers value.transferLogs) ∨
      (sent (transfers value.transferLogs) zeroEvmAddress : Int)
        - received (transfers value.transferLogs) zeroEvmAddress ≠ textNat value.totalSupply ∨
      directBalancesLimit < {address | address ∉ value.excludedByAddress ∧
        0 < net (transfers value.transferLogs) address}.ncard) := by
  constructor
  · intro snapshot h
    exact ⟨buildHolderSnapshot_holders h, assertHolderSnapshot_build hlength h⟩
  · have hrejected : (∃ message, buildHolderSnapshot sha256 value = .error message) ↔
        ¬ value.Accepted := by
      rw [← buildHolderSnapshot_isOk sha256]
      cases buildHolderSnapshot sha256 value with
      | error message => simp
      | ok snapshot => simp
    rw [hrejected]
    constructor
    · intro hnot
      by_contra hnone
      simp only [not_or, not_not, not_exists, not_and, not_lt, ne_eq] at hnone
      obtain ⟨hheader, hexclusions, hwell, hold, hordered, hcovered, hsupply, hfew⟩ := hnone
      exact hnot ⟨hheader, hexclusions, ⟨hwell, hold, hordered, hcovered⟩, hsupply, hfew⟩
    · rintro hsome ⟨hheader, hexclusions, ⟨hwell, hold, hordered, hcovered⟩, hsupply, hfew⟩
      rcases hsome with h | h | ⟨log, hlog, h⟩ | ⟨log, hlog, h⟩ | h | h | h | h
      · exact h hheader
      · exact h hexclusions
      · exact h (hwell log hlog)
      · exact absurd (hold log hlog) (not_le.mpr h)
      · exact h hordered
      · exact h hcovered
      · exact h hsupply
      · exact absurd hfew (not_le.mpr h)

/-! ## Two holders and a pool -/

def sampleAccount (c : UInt16) : Text := text "0x" ++ List.replicate 40 c

def sampleLog (blockNumber logIndex : String) (sender recipient : Text) (value : String) :
    TransferLog :=
  ⟨text blockNumber, text logIndex, sender, recipient, text value⟩

def sampleInput (totalSupply : String) (transferLogs : List TransferLog) : SnapshotInput where
  chainId := text "4663"
  tokenAddress := sampleAccount 102
  blockNumber := text "7"
  blockHash := text "0x" ++ List.replicate 64 49
  finalized := true
  totalSupply := text totalSupply
  excludedAddresses := [⟨sampleAccount 101, text "pool"⟩]
  transferLogs

/-- A mint, transfers to a holder and to the pool, a burn and a transfer to oneself. -/
def sampleLogs : List TransferLog :=
  [sampleLog "1" "0" zeroEvmAddress (sampleAccount 97) "100",
   sampleLog "1" "1" (sampleAccount 97) (sampleAccount 98) "40",
   sampleLog "3" "0" (sampleAccount 98) (sampleAccount 101) "20",
   sampleLog "5" "2" (sampleAccount 98) zeroEvmAddress "5",
   sampleLog "7" "0" (sampleAccount 98) (sampleAccount 98) "15"]

/-- The digest of the sample snapshot. -/
def sampleSnapshotHash (_ : Bytes) : Bytes :=
  bytesOfNat 32 0x78cefa615727be32ffdb3682782d35706a3af306f94d516917ac35279dac318a

theorem sampleSnapshotHash_length (bytes : Bytes) : (sampleSnapshotHash bytes).length = 32 :=
  bytesOfNat_length _ _

theorem holder_snapshot_exact_sample :
    ∃ snapshot, buildHolderSnapshot sampleSnapshotHash (sampleInput "95" sampleLogs)
        = .ok snapshot ∧
      snapshot.directBalances
        = [⟨sampleAccount 97, text "60"⟩, ⟨sampleAccount 98, text "15"⟩] ∧
      HoldersOf (sampleInput "95" sampleLogs) snapshot ∧
      assertHolderSnapshot sampleSnapshotHash snapshot = .ok snapshot := by
  obtain ⟨snapshot, hsnapshot, hbalances⟩ := exists_ok_of_check
    (x := buildHolderSnapshot sampleSnapshotHash (sampleInput "95" sampleLogs))
    (p := fun snapshot => snapshot.directBalances
      = [⟨sampleAccount 97, text "60"⟩, ⟨sampleAccount 98, text "15"⟩]) (by decide +kernel)
  obtain ⟨hholders, hvalid⟩ := (holder_snapshot_exact sampleSnapshotHash sampleSnapshotHash_length
    (sampleInput "95" sampleLogs)).1 snapshot hsnapshot
  exact ⟨snapshot, hsnapshot, of_decide_eq_true hbalances, hholders, hvalid⟩

/-- A holder of 3 who sends 5 to itself. -/
def selfTransfer : List TransferLog :=
  [sampleLog "1" "0" zeroEvmAddress (sampleAccount 97) "3",
   sampleLog "1" "1" (sampleAccount 97) (sampleAccount 97) "5"]

/-- The net of an address after the first of these logs. -/
theorem net_selfTransfer (address : Text) :
    net (transfers (selfTransfer.take 1)) address
      = (if sampleAccount 97 = address then 3 else 0) - (if zeroEvmAddress = address then 3 else 0) ∧
    net (transfers selfTransfer) address = net (transfers (selfTransfer.take 1)) address := by
  have hfirst : transfers (selfTransfer.take 1) = [] ++ [⟨zeroEvmAddress, sampleAccount 97, 3⟩] := by
    decide
  have hboth : transfers selfTransfer
      = transfers (selfTransfer.take 1) ++ [⟨sampleAccount 97, sampleAccount 97, 5⟩] := by decide
  constructor
  · rw [hfirst, net_concat, net_nil]
    push_cast
    ring
  · rw [hboth, net_concat]
    push_cast
    ring

/-- No prefix of the logs leaves a holder with a negative net, and all else is in order, but
the transfer to oneself is more than its sender has, and the logs are refused. -/
theorem selfTransfer_refused :
    buildHolderSnapshot sampleSnapshotHash (sampleInput "3" selfTransfer)
      = .error ("holder snapshot transfer log 1 debits more than the running balance"
        ++ " — the transfer-log set is incomplete") ∧
    (sampleInput "3" selfTransfer).HeaderOk ∧
    ExclusionsOk (sampleInput "3" selfTransfer).excludedAddresses ∧
    (∀ log ∈ selfTransfer, log.WellFormed ∧ textNat log.blockNumber ≤ 7) ∧
    (selfTransfer.map TransferLog.position).Pairwise (· < ·) ∧
    (∀ front, front <+: selfTransfer → ∀ address, address ≠ zeroEvmAddress →
      0 ≤ net (transfers front) address) ∧
    (sent (transfers selfTransfer) zeroEvmAddress : Int)
      - received (transfers selfTransfer) zeroEvmAddress = 3 ∧
    {address | address ∉ (sampleInput "3" selfTransfer).excludedByAddress ∧
      0 < net (transfers selfTransfer) address}.ncard ≤ directBalancesLimit := by
  refine ⟨by decide +kernel, ?_, ⟨by decide +kernel, by decide +kernel⟩, ?_,
    by decide +kernel, ?_, by decide +kernel, ?_⟩
  · exact ⟨by decide +kernel, ⟨by decide +kernel, by decide +kernel⟩, by decide, by decide +kernel,
      rfl, by decide⟩
  · have hwell : ∀ log ∈ selfTransfer, (isDecimal log.blockNumber ∧ isDecimal log.logIndex ∧
        isLowerAddress log.sender ∧ isLowerAddress log.recipient ∧ isDecimal log.value) ∧
        textNat log.blockNumber ≤ 7 := by decide +kernel
    intro log hlog
    obtain ⟨⟨hblock, hindex, hsender, hrecipient, hvalue⟩, hold⟩ := hwell log hlog
    exact ⟨⟨hblock, hindex, hsender, hrecipient, hvalue⟩, hold⟩
  · intro front hfront address hnonzero
    have hfirst : 0 ≤ net (transfers (selfTransfer.take 1)) address := by
      rw [(net_selfTransfer address).1, if_neg (Ne.symm hnonzero)]
      split <;> simp
    have hprefixes : front = [] ∨ front = selfTransfer.take 1 ∨ front = selfTransfer := by
      simpa [selfTransfer] using (List.mem_inits _ _).mpr hfront
    rcases hprefixes with rfl | rfl | rfl
    · simp [transfers]
    · exact hfirst
    · rw [(net_selfTransfer address).2]
      exact hfirst
  · have hone : {address | address ∉ (sampleInput "3" selfTransfer).excludedByAddress ∧
        0 < net (transfers selfTransfer) address} ⊆ {sampleAccount 97} := by
      rintro address ⟨-, hpositive⟩
      rw [(net_selfTransfer address).2, (net_selfTransfer address).1] at hpositive
      by_contra hother
      have hne : sampleAccount 97 ≠ address := fun h => hother h.symm
      rw [if_neg hne] at hpositive
      split at hpositive <;> omega
    have hcard := Set.ncard_le_ncard hone (Set.finite_singleton _)
    rw [Set.ncard_singleton] at hcard
    exact hcard.trans (by decide)

end Hookemon.Runner.SnapshotIndexer
