import Hookemon.Js.BigInt
import Hookemon.Runner.HolderSnapshot

/-! # The selection of reward recipients (`distribution/snapshot-indexer.mjs`)

`selectEligibilityRecipients` keeps the holders of a snapshot with the largest balances, as
many as the reward selection of the cycle allows, and makes evidence that carries the whole
snapshot. `assertEligibilitySelection` makes the selection again from the evidence and
compares digests with the manifest that names the selected holders.

The exact-schema checks of the source are the types of the records, and `structuredClone`
is the identity.
-/

namespace Hookemon.Runner.SnapshotIndexer

open Hookemon.Core Hookemon.Js

/-! ## Records -/

/-- What the digest of a reward selection snapshot is made of. -/
structure RewardSelectionContent where
  schema : Text
  cycleId : Text
  configurationRevision : Int
  rewardRecipientLimit : Int
deriving DecidableEq, Repr

/-- `hookemon.reward-selection-snapshot.v1`, the limit that a cycle was started with. -/
structure RewardSelectionSnapshot extends RewardSelectionContent where
  digest : Text
deriving DecidableEq, Repr

structure SelectionContent where
  schema : Text
  rewardSelection : RewardSelectionSnapshot
  holderSnapshot : HolderSnapshot
  eligibleCount : Int
  selectedCount : Int
  selectedBalanceTotal : TypedAmount
  unselectedEligibleBalanceTotal : TypedAmount
  excludedBalanceTotal : TypedAmount
deriving DecidableEq

/-- The evidence of a selection. -/
structure EligibilitySelection extends SelectionContent where
  digest : Text
deriving DecidableEq

/-- What `selectEligibilityRecipients` returns. -/
structure SelectedRecipients where
  entries : List EligibilityEntry
  selection : EligibilitySelection
deriving DecidableEq

/-! ## The reward selection snapshot (`automation/reward-selection-snapshot.mjs`) -/

def rewardSelectionSnapshotSchema : Text := text "hookemon.reward-selection-snapshot.v1"

/-- `REWARD_RECIPIENT_LIMIT_OPTIONS`. -/
def rewardRecipientLimitOptions : List Int :=
  [100, 200, 300, 400, 500, 600, 700, 800, 900, 1000]

def RewardSelectionContent.fields (content : RewardSelectionContent) : Fields :=
  [(text "schema", .string content.schema),
   (text "cycleId", .string content.cycleId),
   (text "configurationRevision", integerValue content.configurationRevision),
   (text "rewardRecipientLimit", integerValue content.rewardRecipientLimit)]

/-- The checks of `payload`, and the content that it makes. -/
def payload (value : RewardSelectionContent) : Except String RewardSelectionContent := do
  throwIf (trimWhiteSpace value.cycleId = []) "reward selection snapshot cycleId is invalid"
  throwIf (maxSafeInteger < value.configurationRevision ∨ value.configurationRevision < 0)
    "reward selection snapshot configurationRevision is invalid"
  throwIf (value.rewardRecipientLimit ∉ rewardRecipientLimitOptions)
    "rewardRecipientLimit must be an integer from 100 through 1000 in increments of 100"
  pure { value with schema := rewardSelectionSnapshotSchema }

section

variable (sha256 : Bytes → Bytes)

/-- The digest of the schema, a line feed and the JSON text with sorted keys. -/
def rewardSelectionDigest (content : RewardSelectionContent) : Except String Text := do
  let canonical ← appendCanonicalJson (.object content.fields)
  return text "sha256:" ++
    hexOfBytes (sha256 (utf8 (rewardSelectionSnapshotSchema ++ 10 :: canonical)))

def assertRewardSelectionSnapshot (value : RewardSelectionSnapshot) (cycleId : Option Text) :
    Except String Unit := do
  let content ← payload value.toRewardSelectionContent
  let digest ← rewardSelectionDigest sha256 content
  throwIf (value.schema ≠ rewardSelectionSnapshotSchema ∨ value.digest ≠ digest)
    "reward selection snapshot digest or schema mismatch"
  throwIf (∃ expected ∈ cycleId, value.cycleId ≠ expected)
    "reward selection snapshot cycleId mismatch"

end

/-! ## The values that are hashed -/

def TypedAmount.toValue (amount : TypedAmount) : Value :=
  .object [(text "chainId", .string amount.chainId), (text "assetId", .string amount.assetId),
    (text "decimals", integerValue amount.decimals),
    (text "amountAtomic", .string amount.amountAtomic)]

def EligibilityEntry.toValue (entry : EligibilityEntry) : Value :=
  .object [(text "recipient", .string entry.recipient),
    (text "hkmnBalance", TypedAmount.toValue entry.hkmnBalance)]

def entriesValue (entries : List EligibilityEntry) : Value :=
  .array (entries.map EligibilityEntry.toValue)

def exclusionsValue (exclusions : List Exclusion) : Value :=
  .array (exclusions.map Exclusion.toValue)

def HolderSnapshot.toValue (snapshot : HolderSnapshot) : Value :=
  .object (snapshot.fields ++ [(text "holderSnapshotDigest", .string snapshot.holderSnapshotDigest)])

def RewardSelectionSnapshot.toValue (value : RewardSelectionSnapshot) : Value :=
  .object (value.fields ++ [(text "digest", .string value.digest)])

def SelectionContent.fields (content : SelectionContent) : Fields :=
  [(text "schema", .string content.schema),
   (text "rewardSelection", content.rewardSelection.toValue),
   (text "holderSnapshot", content.holderSnapshot.toValue),
   (text "eligibleCount", integerValue content.eligibleCount),
   (text "selectedCount", integerValue content.selectedCount),
   (text "selectedBalanceTotal", TypedAmount.toValue content.selectedBalanceTotal),
   (text "unselectedEligibleBalanceTotal",
     TypedAmount.toValue content.unselectedEligibleBalanceTotal),
   (text "excludedBalanceTotal", TypedAmount.toValue content.excludedBalanceTotal)]

def EligibilitySelection.toValue (selection : EligibilitySelection) : Value :=
  .object (selection.fields ++ [(text "digest", .string selection.digest)])

/-! ## The selection -/

def selectionEvidenceSchema : Text := text "hookemon.reward-selection-evidence.v1"

/-- `HOLDER_SNAPSHOT_LIMITS.canonical`. -/
def holderSnapshotMaximums : Maximums where
  objects := 2 * 250000 + 4096
  arrays := 16384
  arrayItems := 250000
  aggregateBytes := 268435456

def assertTokenDecimals (value : Int) (label : String) : Except String Unit :=
  throwIf (value < 0 ∨ 255 < value) (label ++ " must be an integer between 0 and 255")

def assertTypedHkmnAmount (amount : TypedAmount) (label : String) (chainId tokenAddress : Text)
    (decimals : Int) : Except String TypedAmount := do
  assertDecimalString amount.chainId (label ++ " chainId") true
  assertAddress amount.assetId (label ++ " assetId") false
  assertTokenDecimals amount.decimals (label ++ " decimals")
  assertDecimalString amount.amountAtomic (label ++ " amountAtomic") false
  throwIf (amount.chainId ≠ chainId ∨ amount.assetId ≠ tokenAddress ∨ amount.decimals ≠ decimals)
    (label ++ " does not identify the snapshot token")
  pure amount

/-- The order of the ranking: the larger balance first, then the lower address. -/
def rank (holder : DirectBalance) : ℕᵒᵈ ×ₗ Text :=
  toLex (OrderDual.toDual holder.balance, holder.recipient)

/-- `amount(amountAtomic)`, the supply with another amount. -/
def withAmount (supply : TypedAmount) (amountAtomic : Text) : TypedAmount :=
  { supply with amountAtomic }

/-- The selected holders in the order of their addresses. -/
def selectedHolders (snapshot : HolderSnapshot) (limit : Nat) : List DirectBalance :=
  sortByKey DirectBalance.recipient (firstByKey rank limit snapshot.directBalances)

/-- The entries of the manifest. -/
def selectedEntries (supply : TypedAmount) (selected : List DirectBalance) :
    List EligibilityEntry :=
  selected.map fun holder => ⟨holder.recipient, withAmount supply holder.directHkmnBalance⟩

def selectionContent (snapshot : HolderSnapshot) (supply : TypedAmount)
    (rewardSelection : RewardSelectionSnapshot) (selected : List DirectBalance) :
    SelectionContent :=
  let selectedTotal := (selected.map DirectBalance.balance).sum
  { schema := selectionEvidenceSchema
    rewardSelection
    holderSnapshot := snapshot
    eligibleCount := snapshot.holderCount
    selectedCount := selected.length
    selectedBalanceTotal := withAmount supply (natText selectedTotal)
    unselectedEligibleBalanceTotal :=
      withAmount supply (natText (textNat snapshot.totalHolderBalance - selectedTotal))
    excludedBalanceTotal := withAmount supply snapshot.totalExcludedBalance }

section

variable (sha256 : Bytes → Bytes)

/-- The digest of the evidence of a selection. -/
def selectionDigest (content : SelectionContent) (entries : List EligibilityEntry) :
    Except String Text :=
  snapshotDigest sha256 (.object [(text "domain", .string content.schema),
    (text "selection", .object content.fields), (text "entries", entriesValue entries)])

def selectEligibilityRecipients (holderSnapshot : HolderSnapshot) (supply : TypedAmount)
    (rewardSelection : RewardSelectionSnapshot) : Except String SelectedRecipients := do
  assertBoundedCanonicalValue "reward selection holder snapshot" holderSnapshotMaximums
    holderSnapshot.toValue
  let snapshot ← assertHolderSnapshot sha256 holderSnapshot
  assertRewardSelectionSnapshot sha256 rewardSelection none
  let supply ← assertTypedHkmnAmount supply "reward selection supply" snapshot.chainId
    snapshot.tokenAddress supply.decimals
  throwIf (supply.amountAtomic ≠ snapshot.totalSupply ∨
      textNat snapshot.totalHolderBalance + textNat snapshot.totalExcludedBalance
        ≠ textNat snapshot.totalSupply)
    "reward selection full supply does not reconcile"
  let selected := selectedHolders snapshot rewardSelection.rewardRecipientLimit.toNat
  let entries := selectedEntries supply selected
  let content := selectionContent snapshot supply rewardSelection selected
  let digest ← selectionDigest sha256 content entries
  pure { entries, selection := { content with digest } }

def assertEligibilitySelection (selection : EligibilitySelection) (manifest : ManifestInput) :
    Except String EligibilitySelection := do
  assertRewardSelectionSnapshot sha256 selection.rewardSelection (some manifest.cycleId)
  let expected ← selectEligibilityRecipients sha256 selection.holderSnapshot manifest.supply
    selection.rewardSelection
  let snapshot := selection.holderSnapshot
  throwIf (snapshot.blockNumber ≠ manifest.snapshotBlock ∨
      snapshot.blockHash ≠ manifest.snapshotHash ∨
      snapshot.holderSnapshotDigest ≠ manifest.holderSnapshotDigest)
    "reward selection holder snapshot does not match manifest"
  let excluded ← snapshotDigest sha256 (exclusionsValue snapshot.excludedAddresses)
  let exclusions ← snapshotDigest sha256 (exclusionsValue manifest.exclusions)
  throwIf (excluded ≠ exclusions) "reward selection holder snapshot does not match manifest"
  let expectedEvidence ← snapshotDigest sha256 expected.selection.toValue
  let evidence ← snapshotDigest sha256 selection.toValue
  throwIf (expectedEvidence ≠ evidence)
    "reward selection evidence or selected entries mismatch"
  let expectedEntries ← snapshotDigest sha256 (entriesValue expected.entries)
  let entries ← snapshotDigest sha256 (entriesValue manifest.entries)
  throwIf (expectedEntries ≠ entries) "reward selection evidence or selected entries mismatch"
  pure expected.selection

end

/-! ## The values are plain data -/

theorem TypedAmount.plain {amount : TypedAmount} (h : IsDouble amount.decimals.natAbs) :
    Plain (TypedAmount.toValue amount) :=
  .object [text "chainId", text "assetId", text "decimals", text "amountAtomic"] rfl (by decide)
    (by simp [Plain.string, Plain.integer h])

theorem EligibilityEntry.plain {entry : EligibilityEntry}
    (h : IsDouble entry.hkmnBalance.decimals.natAbs) : Plain (EligibilityEntry.toValue entry) :=
  .object [text "recipient", text "hkmnBalance"] rfl (by decide)
    (by simp [Plain.string, TypedAmount.plain h])

theorem entriesValue_plain {entries : List EligibilityEntry}
    (h : ∀ entry ∈ entries, IsDouble entry.hkmnBalance.decimals.natAbs) :
    Plain (entriesValue entries) :=
  .array (List.forall_mem_map.mpr fun entry hentry => EligibilityEntry.plain (h entry hentry))

theorem exclusionsValue_plain (exclusions : List Exclusion) : Plain (exclusionsValue exclusions) :=
  .array (List.forall_mem_map.mpr fun exclusion _ => Exclusion.plain exclusion)

/-- A plain object stays plain with one more property. -/
theorem Plain.concat {fs : Fields} {key : Text} {v : Value} (h : Plain (.object fs))
    (hkey : key ∉ fs.map Prod.fst ∧ key ∉ forbiddenKeys) (hv : Plain v) :
    Plain (.object (fs ++ [(key, v)])) := by
  obtain ⟨hnodup, hdistinct⟩ := distinctKeys_object.mp h.distinct
  obtain ⟨hharmless, hencodable⟩ := Encodable.object.mp h.encodable
  have hkeys : ((fs ++ [(key, v)]).map Prod.fst).Nodup := by
    rw [List.map_append, List.map_singleton, ← List.concat_eq_append, List.nodup_concat]
    exact ⟨hkey.1, hnodup⟩
  refine ⟨distinctKeys_object.mpr ⟨hkeys, ?_⟩, Encodable.object.mpr ⟨?_, ?_⟩⟩
  · rw [List.forall_mem_append, List.forall_mem_singleton]
    exact ⟨hdistinct, hv.distinct⟩
  · rw [List.forall_mem_append, List.forall_mem_singleton]
    exact ⟨hharmless, hkey.2⟩
  · rw [List.forall_mem_append, List.forall_mem_singleton]
    exact ⟨hencodable, hv.encodable⟩

theorem HolderSnapshot.plain {snapshot : HolderSnapshot}
    (h : IsDouble snapshot.holderCount.natAbs) : Plain snapshot.toValue :=
  (snapshot.toSnapshotContent.plain h).concat (by
    show _ ∉ holderSnapshotContentFields ∧ _
    decide) (.string _)

/-- The numbers of a reward selection are numbers of the language. -/
structure RewardSelectionContent.Numbers (content : RewardSelectionContent) : Prop where
  revision : IsDouble content.configurationRevision.natAbs
  limit : IsDouble content.rewardRecipientLimit.natAbs

def rewardSelectionFields : List Text :=
  [text "schema", text "cycleId", text "configurationRevision", text "rewardRecipientLimit"]

theorem RewardSelectionContent.plain {content : RewardSelectionContent} (h : content.Numbers) :
    Plain (.object content.fields) :=
  .object rewardSelectionFields rfl (by decide)
    (by simp [RewardSelectionContent.fields, Plain.string, Plain.integer h.revision,
      Plain.integer h.limit])

theorem RewardSelectionSnapshot.plain {value : RewardSelectionSnapshot} (h : value.Numbers) :
    Plain value.toValue :=
  (RewardSelectionContent.plain h).concat (by
    show _ ∉ rewardSelectionFields ∧ _
    decide) (.string _)

/-- The numbers of the evidence are numbers of the language. -/
structure SelectionContent.Numbers (content : SelectionContent) : Prop where
  rewardSelection : content.rewardSelection.Numbers
  holderCount : IsDouble content.holderSnapshot.holderCount.natAbs
  eligibleCount : IsDouble content.eligibleCount.natAbs
  selectedCount : IsDouble content.selectedCount.natAbs
  selected : IsDouble content.selectedBalanceTotal.decimals.natAbs
  unselected : IsDouble content.unselectedEligibleBalanceTotal.decimals.natAbs
  excluded : IsDouble content.excludedBalanceTotal.decimals.natAbs

def selectionContentFields : List Text :=
  [text "schema", text "rewardSelection", text "holderSnapshot", text "eligibleCount",
   text "selectedCount", text "selectedBalanceTotal", text "unselectedEligibleBalanceTotal",
   text "excludedBalanceTotal"]

theorem SelectionContent.plain {content : SelectionContent} (h : content.Numbers) :
    Plain (.object content.fields) :=
  .object selectionContentFields rfl (by decide)
    (by simp [SelectionContent.fields, Plain.string, RewardSelectionSnapshot.plain h.rewardSelection,
      HolderSnapshot.plain h.holderCount, Plain.integer h.eligibleCount,
      Plain.integer h.selectedCount, TypedAmount.plain h.selected, TypedAmount.plain h.unselected,
      TypedAmount.plain h.excluded])

theorem EligibilitySelection.plain {selection : EligibilitySelection} (h : selection.Numbers) :
    Plain selection.toValue :=
  (SelectionContent.plain h).concat (by
    show _ ∉ selectionContentFields ∧ _
    decide) (.string _)

/-! ## The values tell the records apart -/

theorem Plain.get_eq {v w : Value} (hv : Plain v) (hw : Plain w) (h : v.sortKeys = w.sortKeys)
    (key : Text) : (v.get key).sortKeys = (w.get key).sortKeys := by
  rw [← Value.get_sortKeys hv.distinct, ← Value.get_sortKeys hw.distinct, h]

theorem integerValue_inj {m n : Int} (hm : IsDouble m.natAbs) (hn : IsDouble n.natAbs)
    (h : (integerValue m).sortKeys = (integerValue n).sortKeys) : m = n := by
  rw [integerValue, dif_pos hm, integerValue, dif_pos hn] at h
  exact (Number.integer.inj (Value.number.inj h))

theorem TypedAmount.ext_of_sortKeys {a b : TypedAmount} (ha : IsDouble a.decimals.natAbs)
    (hb : IsDouble b.decimals.natAbs)
    (h : (TypedAmount.toValue a).sortKeys = (TypedAmount.toValue b).sortKeys) : a = b := by
  have hget := (TypedAmount.plain ha).get_eq (TypedAmount.plain hb) h
  have hchain : a.chainId = b.chainId := Value.string.inj (hget (text "chainId"))
  have hasset : a.assetId = b.assetId := Value.string.inj (hget (text "assetId"))
  have hdecimals : a.decimals = b.decimals := integerValue_inj ha hb (hget (text "decimals"))
  have hamount : a.amountAtomic = b.amountAtomic := Value.string.inj (hget (text "amountAtomic"))
  cases a
  cases b
  simp_all

theorem EligibilityEntry.ext_of_sortKeys {a b : EligibilityEntry}
    (ha : IsDouble a.hkmnBalance.decimals.natAbs) (hb : IsDouble b.hkmnBalance.decimals.natAbs)
    (h : (EligibilityEntry.toValue a).sortKeys = (EligibilityEntry.toValue b).sortKeys) : a = b := by
  have hget := (EligibilityEntry.plain ha).get_eq (EligibilityEntry.plain hb) h
  have hrecipient : a.recipient = b.recipient := Value.string.inj (hget (text "recipient"))
  have hbalance : a.hkmnBalance = b.hkmnBalance :=
    TypedAmount.ext_of_sortKeys ha hb (hget (text "hkmnBalance"))
  cases a
  cases b
  simp_all

theorem Exclusion.ext_of_sortKeys {a b : Exclusion}
    (h : (Exclusion.toValue a).sortKeys = (Exclusion.toValue b).sortKeys) : a = b := by
  have hget := (Exclusion.plain a).get_eq (Exclusion.plain b) h
  have haddress : a.address = b.address := Value.string.inj (hget (text "address"))
  have hreason : a.reason = b.reason := Value.string.inj (hget (text "reason"))
  cases a
  cases b
  simp_all

/-- Lists whose items are told apart are told apart. -/
theorem list_eq_of_sortKeys {α : Type} {f : α → Value} {xs ys : List α}
    (h : (Value.array (xs.map f)).sortKeys = (Value.array (ys.map f)).sortKeys)
    (hinj : ∀ x ∈ xs, ∀ y ∈ ys, (f x).sortKeys = (f y).sortKeys → x = y) : xs = ys := by
  rw [Value.sortKeys, Value.sortKeys, sortItems_eq, sortItems_eq, List.map_map, List.map_map] at h
  replace h := Value.array.inj h
  induction xs generalizing ys with
  | nil => simpa using h.symm
  | cons x xs ih =>
    cases ys with
    | nil => simp at h
    | cons y ys =>
      rw [List.map_cons, List.map_cons, List.cons.injEq] at h
      have hhead : x = y := hinj x (by simp) y (by simp) h.1
      have htail : xs = ys :=
        ih (fun x hx y hy => hinj x (by simp [hx]) y (by simp [hy])) h.2
      rw [hhead, htail]

/-! ## What is selected -/

section

variable {sha256 : Bytes → Bytes} {rewardSelection : RewardSelectionSnapshot}

/-- A reward selection that is accepted for some cycle is accepted for its own. -/
theorem assertRewardSelectionSnapshot_some {cycleId : Text} :
    assertRewardSelectionSnapshot sha256 rewardSelection (some cycleId) = .ok () ↔
      assertRewardSelectionSnapshot sha256 rewardSelection none = .ok () ∧
        rewardSelection.cycleId = cycleId := by
  simp only [assertRewardSelectionSnapshot, bind_eq_ok, revertIf_eq_ok, Option.mem_def,
    Option.some.injEq, exists_eq_left', not_not, reduceCtorEq, false_and, exists_false,
    not_false_eq_true, and_true]
  constructor
  · rintro ⟨content, hcontent, digest, hdigest, _, hsame, hcycle⟩
    exact ⟨⟨content, hcontent, digest, hdigest, (), hsame⟩, hcycle⟩
  · rintro ⟨⟨content, hcontent, digest, hdigest, _, hsame⟩, hcycle⟩
    exact ⟨content, hcontent, digest, hdigest, (), hsame, hcycle⟩

theorem rewardSelection_bounds
    (h : assertRewardSelectionSnapshot sha256 rewardSelection none = .ok ()) :
    rewardSelection.Numbers ∧ rewardSelection.rewardRecipientLimit ∈ rewardRecipientLimitOptions := by
  simp only [assertRewardSelectionSnapshot, payload, bind_eq_ok, revertIf_eq_ok, not_or, not_lt,
    not_not] at h
  obtain ⟨_, ⟨_, -, _, ⟨hhigh, hlow⟩, _, hlimit, -⟩, -⟩ := h
  have hsmall : rewardSelection.rewardRecipientLimit.natAbs < 2 ^ 53 := by
    have hoptions : ∀ limit ∈ rewardRecipientLimitOptions, limit.natAbs < 2 ^ 53 := by decide
    exact hoptions _ hlimit
  refine ⟨⟨isDouble_small ?_, isDouble_small hsmall⟩, hlimit⟩
  have hsafe : rewardSelection.configurationRevision ≤ 2 ^ 53 - 1 := hhigh
  omega

/-- What `selectEligibilityRecipients` accepts. -/
structure Selectable (sha256 : Bytes → Bytes) (snapshot : HolderSnapshot) (supply : TypedAmount)
    (rewardSelection : RewardSelectionSnapshot) : Prop where
  bounded : Bounded holderSnapshotMaximums snapshot.toValue
  valid : assertHolderSnapshot sha256 snapshot = .ok snapshot
  limit : assertRewardSelectionSnapshot sha256 rewardSelection none = .ok ()
  chainId : supply.chainId = snapshot.chainId
  assetId : supply.assetId = snapshot.tokenAddress
  decimals : 0 ≤ supply.decimals ∧ supply.decimals ≤ 255
  amountAtomic : supply.amountAtomic = snapshot.totalSupply
  reconciles : textNat snapshot.totalHolderBalance + textNat snapshot.totalExcludedBalance
    = textNat snapshot.totalSupply

/-- What is returned, with the digest of the evidence. -/
def selectedRecipients (snapshot : HolderSnapshot) (supply : TypedAmount)
    (rewardSelection : RewardSelectionSnapshot) (digest : Text) : SelectedRecipients :=
  let selected := selectedHolders snapshot rewardSelection.rewardRecipientLimit.toNat
  { entries := selectedEntries supply selected
    selection := { selectionContent snapshot supply rewardSelection selected with digest } }

variable {snapshot : HolderSnapshot} {supply : TypedAmount} {out : SelectedRecipients}

/-- The spec of `selectEligibilityRecipients`. -/
theorem selectEligibilityRecipients_eq_ok :
    selectEligibilityRecipients sha256 snapshot supply rewardSelection = .ok out ↔
      Selectable sha256 snapshot supply rewardSelection ∧
      ∃ d, out = selectedRecipients snapshot supply rewardSelection d ∧
        selectionDigest sha256 out.selection.toSelectionContent out.entries = .ok d := by
  have hbounded : assertBoundedCanonicalValue "reward selection holder snapshot"
      holderSnapshotMaximums snapshot.toValue = .ok () ↔
      Bounded holderSnapshotMaximums snapshot.toValue := assertBoundedCanonicalValue_eq_ok _
  simp only [selectEligibilityRecipients, assertTypedHkmnAmount, assertTokenDecimals, bind_eq_ok,
    hbounded, assertDecimalString_positive, assertDecimalString_eq_ok, assertAddress_nonzero,
    revertIf_eq_ok, pure_eq_ok, exists_const, not_or, not_lt, not_not, ne_eq]
  constructor
  · rintro ⟨hbound, r, hsnapshot, _, hreward, _, ⟨-, -, ⟨hlow, hhigh⟩, -, ⟨hchain, hasset, -⟩, rfl⟩,
      ⟨hamount, htotal⟩, d, hd, rfl⟩
    obtain ⟨-, -, -, rfl⟩ := assertHolderSnapshot_eq_ok.mp hsnapshot
    exact ⟨⟨hbound, hsnapshot, hreward, hchain, hasset, ⟨hlow, hhigh⟩, hamount, htotal⟩, d, rfl, hd⟩
  · rintro ⟨⟨hbound, hsnapshot, hreward, hchain, hasset, ⟨hlow, hhigh⟩, hamount, htotal⟩, d, rfl, hd⟩
    obtain ⟨hvalid, -⟩ := assertHolderSnapshot_eq_ok.mp hsnapshot
    refine ⟨hbound, snapshot, hsnapshot, (), hreward, supply,
      ⟨hchain ▸ hvalid.chainId, hasset ▸ hvalid.tokenAddress, ⟨hlow, hhigh⟩,
        hamount ▸ hvalid.totalSupply, ⟨hchain, hasset, trivial⟩, rfl⟩, ⟨hamount, htotal⟩, d, hd, rfl⟩

namespace Selectable

theorem consistent (h : Selectable sha256 snapshot supply rewardSelection) : snapshot.Consistent :=
  (assertHolderSnapshot_eq_ok.mp h.valid).1

theorem holderCount_double (h : Selectable sha256 snapshot supply rewardSelection) :
    IsDouble snapshot.holderCount.natAbs := by
  refine isDouble_small ?_
  rw [h.consistent.holderCount, Int.natAbs_natCast]
  exact lt_of_le_of_lt h.consistent.few (by decide)

theorem decimals_double (h : Selectable sha256 snapshot supply rewardSelection) :
    IsDouble supply.decimals.natAbs := by
  have hbounds := h.decimals
  exact isDouble_small (by omega)

/-- The numbers of the evidence are small. -/
theorem numbers (h : Selectable sha256 snapshot supply rewardSelection) (d : Text) :
    (selectedRecipients snapshot supply rewardSelection d).selection.Numbers where
  rewardSelection := (rewardSelection_bounds h.limit).1
  holderCount := h.holderCount_double
  eligibleCount := h.holderCount_double
  selectedCount := by
    refine isDouble_small ?_
    show Int.natAbs (List.length (sortByKey _ _) : Int) < _
    rw [Int.natAbs_natCast, (sortByKey_perm _ _).length_eq, firstByKey_length]
    exact lt_of_le_of_lt ((min_le_right _ _).trans h.consistent.few) (by decide)
  selected := h.decimals_double
  unselected := h.decimals_double
  excluded := h.decimals_double

theorem entries_double (h : Selectable sha256 snapshot supply rewardSelection) (d : Text) :
    ∀ entry ∈ (selectedRecipients snapshot supply rewardSelection d).entries,
      IsDouble entry.hkmnBalance.decimals.natAbs := by
  intro entry hentry
  obtain ⟨holder, -, rfl⟩ := List.mem_map.mp hentry
  exact h.decimals_double

end Selectable

/-- A selection is made exactly when its parts are accepted. -/
theorem selectEligibilityRecipients_isOk :
    (∃ out, selectEligibilityRecipients sha256 snapshot supply rewardSelection = .ok out) ↔
      Selectable sha256 snapshot supply rewardSelection := by
  constructor
  · rintro ⟨out, hout⟩
    exact (selectEligibilityRecipients_eq_ok.mp hout).1
  · intro h
    have hcontent := SelectionContent.plain (h.numbers [])
    have hentries := entriesValue_plain (h.entries_double [])
    have hplain : Plain (.object [(text "domain", .string selectionEvidenceSchema),
        (text "selection", .object
          (selectedRecipients snapshot supply rewardSelection []).selection.fields),
        (text "entries", entriesValue
          (selectedRecipients snapshot supply rewardSelection []).entries)]) :=
      .object [text "domain", text "selection", text "entries"] rfl (by decide)
        (by simp [Plain.string, hcontent, hentries])
    obtain ⟨d, hd⟩ := hplain.snapshotDigest_isOk sha256
    exact ⟨_, selectEligibilityRecipients_eq_ok.mpr ⟨h, d, rfl, hd⟩⟩

/-- The selection keeps the holders with the largest balances. -/
structure Selects (snapshot : HolderSnapshot) (supply : TypedAmount) (limit : Nat)
    (out : SelectedRecipients) : Prop where
  count : out.entries.length = min limit snapshot.holderCount.toNat
  holders : ∀ entry ∈ out.entries, ∃ holder ∈ snapshot.directBalances,
    entry = ⟨holder.recipient, withAmount supply holder.directHkmnBalance⟩
  first : ∀ chosen ∈ snapshot.directBalances, ∀ other ∈ snapshot.directBalances,
    chosen.recipient ∈ out.entries.map EligibilityEntry.recipient →
    other.recipient ∉ out.entries.map EligibilityEntry.recipient →
    other.balance < chosen.balance ∨
      (other.balance = chosen.balance ∧ chosen.recipient < other.recipient)
  sorted : (out.entries.map EligibilityEntry.recipient).Pairwise (· < ·)
  selectedTotal : out.selection.selectedBalanceTotal.atomic
    = (out.entries.map fun entry => entry.hkmnBalance.atomic).sum
  total : out.selection.selectedBalanceTotal.atomic
      + out.selection.unselectedEligibleBalanceTotal.atomic
      + out.selection.excludedBalanceTotal.atomic = textNat snapshot.totalSupply

theorem rank_nodup (h : snapshot.Consistent) : (snapshot.directBalances.map rank).Nodup := by
  have hnodup : (snapshot.directBalances.map DirectBalance.recipient).Nodup :=
    h.holdersSorted.imp fun hlt => ne_of_lt hlt
  refine List.Nodup.of_map (fun r : ℕᵒᵈ ×ₗ Text => (ofLex r).2) ?_
  rw [List.map_map]
  exact hnodup

/-- The holders that are selected have different addresses. -/
theorem selected_nodup (h : snapshot.Consistent) (limit : Nat) :
    ((firstByKey rank limit snapshot.directBalances).map DirectBalance.recipient).Nodup := by
  have hnodup : (snapshot.directBalances.map DirectBalance.recipient).Nodup :=
    h.holdersSorted.imp fun hlt => ne_of_lt hlt
  have hsorted := ((sortByKey_perm rank snapshot.directBalances).map
    DirectBalance.recipient).nodup_iff.mpr hnodup
  exact hsorted.sublist ((List.take_sublist limit _).map DirectBalance.recipient)

theorem selectEligibilityRecipients_selects
    (h : selectEligibilityRecipients sha256 snapshot supply rewardSelection = .ok out) :
    Selects snapshot supply rewardSelection.rewardRecipientLimit.toNat out := by
  obtain ⟨hselectable, d, rfl, -⟩ := selectEligibilityRecipients_eq_ok.mp h
  have hvalid := hselectable.consistent
  -- the selected holders are sorted by address afterwards, which changes their order only
  have hperm : (selectedHolders snapshot rewardSelection.rewardRecipientLimit.toNat).Perm
      (firstByKey rank rewardSelection.rewardRecipientLimit.toNat snapshot.directBalances) :=
    sortByKey_perm _ _
  have hrecipients : (selectedRecipients snapshot supply rewardSelection d).entries.map
      EligibilityEntry.recipient
      = (selectedHolders snapshot rewardSelection.rewardRecipientLimit.toNat).map
        DirectBalance.recipient := by
    show (List.map _ _).map _ = _
    rw [List.map_map]
    rfl
  have hchosen : ∀ holder ∈ snapshot.directBalances,
      (holder.recipient ∈ (selectedRecipients snapshot supply rewardSelection d).entries.map
        EligibilityEntry.recipient ↔
      holder ∈ firstByKey rank rewardSelection.rewardRecipientLimit.toNat
        snapshot.directBalances) := by
    intro holder hholder
    rw [hrecipients, (hperm.map DirectBalance.recipient).mem_iff, List.mem_map]
    constructor
    · rintro ⟨other, hother, hsame⟩
      have heq : other = holder :=
        List.inj_on_of_nodup_map (hvalid.holdersSorted.imp fun hlt => ne_of_lt hlt)
          (mem_of_firstByKey hother) hholder hsame
      exact heq ▸ hother
    · intro hmem
      exact ⟨holder, hmem, rfl⟩
  refine ⟨?_, ?_, ?_, ?_, ?_, ?_⟩
  · show (List.map _ _).length = _
    rw [List.length_map, hperm.length_eq, firstByKey_length, hvalid.holderCount, Int.toNat_natCast]
  · intro entry hentry
    obtain ⟨holder, hholder, rfl⟩ := List.mem_map.mp hentry
    exact ⟨holder, mem_of_firstByKey (hperm.mem_iff.mp hholder), rfl⟩
  · intro chosen hchosenMem other hother hin hout
    have hlt := firstByKey_lt (rank_nodup hvalid) ((hchosen chosen hchosenMem).mp hin) hother
      fun hmem => hout ((hchosen other hother).mpr hmem)
    -- the rank is the balance downwards, then the address
    rcases Prod.Lex.toLex_lt_toLex.mp hlt with hbalance | ⟨hsame, haddress⟩
    · exact .inl hbalance
    · exact .inr ⟨(OrderDual.toDual_inj.mp hsame).symm, haddress⟩
  · rw [hrecipients]
    exact sortByKey_strict (selected_nodup hvalid _)
  · show textNat (natText _) = ((List.map _ _).map _).sum
    rw [textNat_natText, List.map_map]
    rfl
  · have hle : ((selectedHolders snapshot rewardSelection.rewardRecipientLimit.toNat).map
        DirectBalance.balance).sum ≤ textNat snapshot.totalHolderBalance := by
      rw [(hperm.map DirectBalance.balance).sum_eq, ← hvalid.total]
      exact firstByKey_sum_le _
    have htotal := hselectable.reconciles
    show textNat (natText _) + textNat (natText _) + textNat snapshot.totalExcludedBalance = _
    rw [textNat_natText, textNat_natText]
    omega

/-! ## The evidence and the manifest -/

/-- The manifest names what was selected. -/
structure BuiltFrom (manifest : ManifestInput) (supply : TypedAmount) (out : SelectedRecipients) :
    Prop where
  cycleId : manifest.cycleId = out.selection.rewardSelection.cycleId
  snapshotBlock : manifest.snapshotBlock = out.selection.holderSnapshot.blockNumber
  snapshotHash : manifest.snapshotHash = out.selection.holderSnapshot.blockHash
  holderSnapshotDigest :
    manifest.holderSnapshotDigest = out.selection.holderSnapshot.holderSnapshotDigest
  supply : manifest.supply = supply
  exclusions : manifest.exclusions = out.selection.holderSnapshot.excludedAddresses
  entries : manifest.entries = out.entries

variable (sha256) in
/-- The values whose digests `assertEligibilitySelection` compares. -/
def Compared (selection : EligibilitySelection) (manifest : ManifestInput) (v : Value) : Prop :=
  v = exclusionsValue selection.holderSnapshot.excludedAddresses ∨
  v = exclusionsValue manifest.exclusions ∨
  v = selection.toValue ∨
  v = entriesValue manifest.entries ∨
  ∃ expected, selectEligibilityRecipients sha256 selection.holderSnapshot manifest.supply
      selection.rewardSelection = .ok expected ∧
    (v = expected.selection.toValue ∨ v = entriesValue expected.entries)

variable (sha256) in
/-- The texts that are hashed when the evidence is compared with the manifest. -/
def comparedTexts (selection : EligibilitySelection) (manifest : ManifestInput) : Set Bytes :=
  {bytes | ∃ v t, Compared sha256 selection manifest v ∧ appendCanonicalJson v = .ok t ∧
    bytes = utf8 t}

/-- The evidence is accepted with the manifest that names what was selected. -/
theorem assertEligibilitySelection_builtFrom {manifest : ManifestInput}
    (h : selectEligibilityRecipients sha256 snapshot supply rewardSelection = .ok out)
    (hbuilt : BuiltFrom manifest supply out) :
    assertEligibilitySelection sha256 out.selection manifest = .ok out.selection := by
  obtain ⟨hselectable, d, hout, -⟩ := selectEligibilityRecipients_eq_ok.mp h
  have hsnapshot : out.selection.holderSnapshot = snapshot := by rw [hout]; rfl
  have hreward : out.selection.rewardSelection = rewardSelection := by rw [hout]; rfl
  have hcycle : assertRewardSelectionSnapshot sha256 rewardSelection (some manifest.cycleId)
      = .ok () := by
    refine assertRewardSelectionSnapshot_some.mpr ⟨hselectable.limit, ?_⟩
    rw [hbuilt.cycleId, hreward]
  obtain ⟨excluded, hexcluded⟩ :=
    (exclusionsValue_plain snapshot.excludedAddresses).snapshotDigest_isOk sha256
  obtain ⟨evidence, hevidence⟩ : ∃ d, snapshotDigest sha256 out.selection.toValue = .ok d := by
    rw [hout]
    exact (EligibilitySelection.plain (hselectable.numbers d)).snapshotDigest_isOk sha256
  obtain ⟨entries, hentries⟩ : ∃ d, snapshotDigest sha256 (entriesValue out.entries) = .ok d := by
    rw [hout]
    exact (entriesValue_plain (hselectable.entries_double d)).snapshotDigest_isOk sha256
  have hexclusions := hbuilt.exclusions
  have hblock := hbuilt.snapshotBlock
  have hhash := hbuilt.snapshotHash
  have hdigest := hbuilt.holderSnapshotDigest
  rw [hsnapshot] at hexclusions hblock hhash hdigest
  simp [assertEligibilitySelection, hsnapshot, hreward, hcycle, hbuilt.supply, h, hblock, hhash,
    hdigest, hexclusions, hexcluded, hevidence, hbuilt.entries, hentries, revertIf]

/-- Evidence that is accepted with a manifest was selected for it, unless texts collide. -/
theorem builtFrom_of_assertEligibilitySelection {manifest : ManifestInput}
    {r : EligibilitySelection}
    (h : selectEligibilityRecipients sha256 snapshot supply rewardSelection = .ok out)
    (hsha : Set.InjOn sha256 (comparedTexts sha256 out.selection manifest))
    (hr : assertEligibilitySelection sha256 out.selection manifest = .ok r) :
    BuiltFrom manifest supply out := by
  obtain ⟨hselectable, d, hout, -⟩ := selectEligibilityRecipients_eq_ok.mp h
  have hsnapshot : out.selection.holderSnapshot = snapshot := by rw [hout]; rfl
  have hreward : out.selection.rewardSelection = rewardSelection := by rw [hout]; rfl
  have hcompared : ∀ {v : Value}, Compared sha256 out.selection manifest v →
      ∀ t, appendCanonicalJson v = .ok t → utf8 t ∈ comparedTexts sha256 out.selection manifest :=
    fun hv t ht => ⟨_, t, hv, ht, rfl⟩
  simp only [assertEligibilitySelection, bind_eq_ok, revertIf_eq_ok, not_or, not_not, ne_eq,
    exists_const] at hr
  obtain ⟨_, hcycle, expected, hexpected, ⟨hblock, hhash, hdigest⟩, excluded, hexcluded, _, hgiven,
    rfl, evidence, hexpectedEvidence, _, hevidence, rfl, entries, hexpectedEntries, _, hentries, rfl,
    -⟩ := hr
  have hcycleId := (assertRewardSelectionSnapshot_some.mp hcycle).2
  have hmade := hexpected
  rw [hsnapshot, hreward] at hmade
  obtain ⟨hother, e, rfl, -⟩ := selectEligibilityRecipients_eq_ok.mp hmade
  -- the digests are of the same exclusions, the same evidence and the same entries
  have hexclusions : snapshot.excludedAddresses = manifest.exclusions := by
    have hsame := (exclusionsValue_plain _).sortKeys_eq hsha (exclusionsValue_plain _)
      (hcompared (.inl rfl)) (hcompared (.inr (.inl rfl))) hexcluded hgiven
    rw [hsnapshot] at hsame
    exact list_eq_of_sortKeys hsame fun a _ b _ hab => Exclusion.ext_of_sortKeys hab
  have hsupply : manifest.supply = supply := by
    have hnumbers : out.selection.Numbers := by rw [hout]; exact hselectable.numbers d
    have hsame := (EligibilitySelection.plain (hother.numbers e)).sortKeys_eq hsha
      (EligibilitySelection.plain hnumbers)
      (hcompared (.inr (.inr (.inr (.inr ⟨_, hexpected, .inl rfl⟩)))))
      (hcompared (.inr (.inr (.inl rfl)))) hexpectedEvidence hevidence
    have hget := (EligibilitySelection.plain (hother.numbers e)).get_eq
      (EligibilitySelection.plain hnumbers) hsame (text "excludedBalanceTotal")
    have hamount : withAmount manifest.supply snapshot.totalExcludedBalance
        = withAmount supply snapshot.totalExcludedBalance := by
      refine TypedAmount.ext_of_sortKeys hother.decimals_double hselectable.decimals_double ?_
      rw [hout] at hget
      exact hget
    have hdecimals := congrArg TypedAmount.decimals hamount
    have hatomic := hother.amountAtomic.trans hselectable.amountAtomic.symm
    have hchain := hother.chainId.trans hselectable.chainId.symm
    have hasset := hother.assetId.trans hselectable.assetId.symm
    exact (TypedAmount.mk.injEq ..).mpr ⟨hchain, hasset, hdecimals, hatomic⟩
  have hselected : manifest.entries
      = (selectedRecipients snapshot manifest.supply rewardSelection e).entries := by
    have hdoubles : ∀ entry ∈ manifest.entries, IsDouble entry.hkmnBalance.decimals.natAbs := by
      have htext : ∃ t, appendCanonicalJson (entriesValue manifest.entries) = .ok t := by
        simp only [snapshotDigest, bind_eq_ok] at hentries
        obtain ⟨t, ht, -⟩ := hentries
        exact ⟨t, ht⟩
      intro entry hentry
      have hitem := append_item htext _ (List.mem_map_of_mem hentry)
      have hbalance := append_field hitem
        (text "hkmnBalance", TypedAmount.toValue entry.hkmnBalance) (by simp)
      exact isDouble_of_append (append_field hbalance
        (text "decimals", integerValue entry.hkmnBalance.decimals) (by simp))
    have hsame := (entriesValue_plain (hother.entries_double e)).sortKeys_eq hsha
      (entriesValue_plain hdoubles)
      (hcompared (.inr (.inr (.inr (.inr ⟨_, hexpected, .inr rfl⟩)))))
      (hcompared (.inr (.inr (.inr (.inl rfl))))) hexpectedEntries hentries
    refine (list_eq_of_sortKeys hsame fun a ha b hb hab => ?_).symm
    exact EligibilityEntry.ext_of_sortKeys (hother.entries_double e a ha) (hdoubles b hb) hab
  refine ⟨hcycleId.symm, hblock.symm, hhash.symm, hdigest.symm, hsupply, ?_, ?_⟩
  · rw [hsnapshot, hexclusions]
  · rw [hselected, hsupply, hout]
    rfl

end

/-- **The selection and its evidence.** A selection is made whenever its parts are accepted.
It keeps as many holders as the limit allows, those with the larger balances and, among
equal balances, with the lower addresses; the totals add up to the supply. The evidence is
accepted with the manifest that names what was selected, and with no other one unless the
texts that are compared collide. -/
theorem reward_selection_exact (sha256 : Bytes → Bytes) (snapshot : HolderSnapshot)
    (supply : TypedAmount) (rewardSelection : RewardSelectionSnapshot) :
    ((∃ out, selectEligibilityRecipients sha256 snapshot supply rewardSelection = .ok out) ↔
      Selectable sha256 snapshot supply rewardSelection) ∧
    ∀ out, selectEligibilityRecipients sha256 snapshot supply rewardSelection = .ok out →
      Selects snapshot supply rewardSelection.rewardRecipientLimit.toNat out ∧
      ∀ manifest,
        (BuiltFrom manifest supply out →
          assertEligibilitySelection sha256 out.selection manifest = .ok out.selection) ∧
        (Set.InjOn sha256 (comparedTexts sha256 out.selection manifest) →
          ¬ BuiltFrom manifest supply out →
          ∃ message, assertEligibilitySelection sha256 out.selection manifest = .error message) := by
  refine ⟨selectEligibilityRecipients_isOk, fun out h => ?_⟩
  refine ⟨selectEligibilityRecipients_selects h, fun manifest => ⟨?_, ?_⟩⟩
  · exact assertEligibilitySelection_builtFrom h
  · intro hsha hnot
    cases hr : assertEligibilitySelection sha256 out.selection manifest with
    | error message => exact ⟨message, rfl⟩
    | ok r => exact absurd (builtFrom_of_assertEligibilitySelection h hsha hr) hnot

/-! ## One holder with the whole supply -/

/-- The digests of the sample texts, told apart by the length of what is digested. -/
def sampleSelectionDigests : List (Nat × Nat) :=
  [(2, 0x4f53cda18c2baa0c0354bb5f9a3ecbe5ed12ab4d8e11ba873c2f11161202b945),
   (161, 0x79583223f969fe866d31a1c4c26eefa6f4d58b04824244124c37abaf6eadf362),
   (182, 0xe23b6e07160b9a90193a91b0a4513f3e19871d0368ac9be04a769a4b2f92dc8a),
   (509, 0x6bd817c7f6d14ae71bacea69b301dc6e6b85955e00453dc682a1d67a5a7d5425),
   (510, 0x8dde5f1eb22902b7df5718cd091da25d2f3b57323d567952c2f3a379122848ff),
   (1362, 0x80ada65bb3b4dfa1df01d2b9aff2d51da411dc2c2c6ace1776309cc26e1bebec),
   (1535, 0xdfb7d031ed570ea24a5de9871cdfffc959fcc46502a771cb82c3c7307494e1ed)]

def sampleSelectionHash (bytes : Bytes) : Bytes :=
  bytesOfNat 32 ((sampleSelectionDigests.lookup bytes.length).getD 0)

/-- The text of a digest. -/
def sampleDigestText (digest : Nat) : Text := text "sha256:" ++ hexOfBytes (bytesOfNat 32 digest)

def sampleReward : RewardSelectionSnapshot where
  schema := rewardSelectionSnapshotSchema
  cycleId := text "cycle-1"
  configurationRevision := 3
  rewardRecipientLimit := 100
  digest := sampleDigestText 0x79583223f969fe866d31a1c4c26eefa6f4d58b04824244124c37abaf6eadf362

def sampleSupply : TypedAmount := ⟨text "4663", sampleAccount 102, 18, text "95"⟩

/-- A snapshot with one holder, with what the excluded addresses have. -/
def sampleSnapshot (totalExcludedBalance : String) (digest : Nat) : HolderSnapshot where
  schema := holderSnapshotSchema
  chainId := text "4663"
  tokenAddress := sampleAccount 102
  blockNumber := text "7"
  blockHash := text "0x" ++ List.replicate 64 49
  finalized := true
  totalSupply := text "95"
  totalHolderBalance := text "95"
  totalExcludedBalance := text totalExcludedBalance
  holderCount := 1
  excludedAddresses := []
  directBalances := [⟨sampleAccount 97, text "95"⟩]
  holderSnapshotDigest := sampleDigestText digest

def sampleFinalized : HolderSnapshot :=
  sampleSnapshot "0" 0x6bd817c7f6d14ae71bacea69b301dc6e6b85955e00453dc682a1d67a5a7d5425

/-- The same snapshot, but the excluded addresses have something. -/
def sampleUnreconciled : HolderSnapshot :=
  sampleSnapshot "20" 0x8dde5f1eb22902b7df5718cd091da25d2f3b57323d567952c2f3a379122848ff

theorem sampleReward_valid :
    assertRewardSelectionSnapshot sampleSelectionHash sampleReward none = .ok () := by
  decide +kernel

/-- The validator accepts a snapshot whose totals are not the supply, and nothing is
selected from it. -/
theorem unreconciled_snapshot_refused :
    assertHolderSnapshot sampleSelectionHash sampleUnreconciled = .ok sampleUnreconciled ∧
    assertRewardSelectionSnapshot sampleSelectionHash sampleReward none = .ok () ∧
    ∀ out, selectEligibilityRecipients sampleSelectionHash sampleUnreconciled sampleSupply
      sampleReward ≠ .ok out := by
  refine ⟨by decide +kernel, sampleReward_valid, fun out hout => ?_⟩
  have hreconciles := (selectEligibilityRecipients_eq_ok.mp hout).1.reconciles
  exact absurd hreconciles (by decide)

/-- A manifest for the sample snapshot with these entries. -/
def sampleSelected (entries : List EligibilityEntry) : ManifestInput :=
  { (sampleManifest (text "cycle-1") entries).input with
    snapshotBlock := sampleFinalized.blockNumber
    snapshotHash := sampleFinalized.blockHash
    supply := sampleSupply
    exclusions := sampleFinalized.excludedAddresses
    holderSnapshotDigest := sampleFinalized.holderSnapshotDigest }

theorem sampleSelectable :
    Selectable sampleSelectionHash sampleFinalized sampleSupply sampleReward where
  bounded := (assertBoundedCanonicalValue_eq_ok "").mp (by decide +kernel)
  valid := by decide +kernel
  limit := sampleReward_valid
  chainId := rfl
  assetId := rfl
  decimals := by decide
  amountAtomic := rfl
  reconciles := by decide

def sampleEvidenceDigest : Text :=
  sampleDigestText 0xdfb7d031ed570ea24a5de9871cdfffc959fcc46502a771cb82c3c7307494e1ed

/-- What is selected from the sample snapshot. -/
def sampleOut : SelectedRecipients :=
  selectedRecipients sampleFinalized sampleSupply sampleReward sampleEvidenceDigest

theorem sampleOut_selected :
    selectEligibilityRecipients sampleSelectionHash sampleFinalized sampleSupply sampleReward
      = .ok sampleOut :=
  selectEligibilityRecipients_eq_ok.mpr
    ⟨sampleSelectable, sampleEvidenceDigest, rfl, by decide +kernel⟩

/-- The bytes that are hashed for a value. -/
def hashedBytes (v : Value) : Bytes := utf8 ((appendCanonicalJson v).toOption.getD [])

/-- The texts that are compared for a manifest without entries. -/
theorem sample_compared : ∀ bytes ∈ comparedTexts sampleSelectionHash sampleOut.selection
      (sampleSelected []), bytes ∈ [hashedBytes (.array []), hashedBytes sampleOut.selection.toValue,
        hashedBytes (entriesValue sampleOut.entries)] := by
  rintro bytes ⟨v, t, hv, ht, rfl⟩
  have hbytes : utf8 t = hashedBytes v := by
    rw [hashedBytes, ht]
    rfl
  rw [hbytes]
  rcases hv with rfl | rfl | rfl | rfl | ⟨expected, hexpected, hv⟩
  · exact List.mem_cons_self
  · exact List.mem_cons_self
  · simp
  · exact List.mem_cons_self
  · have hout : expected = sampleOut := Except.ok.inj (hexpected.symm.trans sampleOut_selected)
    rcases hv with rfl | rfl
    · rw [hout]
      simp
    · rw [hout]
      simp

theorem sampleSelectionHash_injOn : Set.InjOn sampleSelectionHash
    (comparedTexts sampleSelectionHash sampleOut.selection (sampleSelected [])) := by
  have hdistinct : ([hashedBytes (.array []), hashedBytes sampleOut.selection.toValue,
      hashedBytes (entriesValue sampleOut.entries)].map sampleSelectionHash).Nodup := by
    decide +kernel
  intro a ha b hb hab
  exact List.inj_on_of_nodup_map hdistinct (sample_compared a ha) (sample_compared b hb) hab

theorem reward_selection_exact_sample :
    assertEligibilitySelection sampleSelectionHash sampleOut.selection
        (sampleSelected sampleOut.entries) = .ok sampleOut.selection ∧
    ∃ message, assertEligibilitySelection sampleSelectionHash sampleOut.selection
      (sampleSelected []) = .error message := by
  obtain ⟨hselects, hmanifest⟩ := (reward_selection_exact sampleSelectionHash sampleFinalized
    sampleSupply sampleReward).2 sampleOut sampleOut_selected
  constructor
  · exact (hmanifest _).1 ⟨rfl, rfl, rfl, rfl, rfl, rfl, rfl⟩
  · refine (hmanifest _).2 sampleSelectionHash_injOn fun hbuilt => ?_
    have hcount := congrArg List.length hbuilt.entries
    rw [hselects.count] at hcount
    exact absurd hcount (by decide)

end Hookemon.Runner.SnapshotIndexer
