import Hookemon.Core.Scan
import Hookemon.Core.Slices
import Hookemon.Js.Hex
import Hookemon.Runner.PayoutPlan

/-! # The pro-rata distribution (`distribution/pro-rata.mjs`)

`computeProRataDistribution` shares a pool among holders as the payout plan does, on its
own: it sorts the holders by their addresses, leaves out those whose floored share is
zero, and keeps what the rounding leaves as dust. `chunkProRataEntries` cuts the entries
into slices for the commitments of a payout.

The exact-schema checks of the source are the types of the records.
-/

namespace Hookemon.Runner

open Hookemon.Core Hookemon.Js

/-! ## Records -/

structure DirectBalance where
  recipient : Text
  directHkmnBalance : Text
deriving DecidableEq, Repr

/-- The weight of a holder. -/
def DirectBalance.balance (holder : DirectBalance) : Nat := textNat holder.directHkmnBalance

/-- The argument of `computeProRataDistribution`. -/
structure ProRataInput where
  directBalances : List DirectBalance
  proceedsAmount : Text
  previousDust : Option Text
  totalEligibleSupply : Option Text
deriving DecidableEq, Repr

structure PayableEntry extends DirectBalance where
  index : Nat
  amountAtomicUSDG : Text
deriving DecidableEq, Repr

/-- The number of atomic units of an entry. -/
def PayableEntry.amount (entry : PayableEntry) : Nat := textNat entry.amountAtomicUSDG

structure ProRataDistribution where
  schema : Text
  proceedsAmount : Text
  previousDust : Text
  distributablePool : Text
  totalEligibleSupply : Text
  holderCount : Nat
  payableHolderCount : Nat
  totalAmountAtomicUSDG : Text
  dust : Text
  entries : List PayableEntry
deriving DecidableEq, Repr

structure ProRataChunk where
  chunkIndex : Nat
  entryCount : Nat
  rootSum : Text
  entries : List PayableEntry
deriving DecidableEq, Repr

structure ProRataChunks where
  chunkEntryLimit : Int
  chunkCount : Nat
  totalLiability : Text
  chunks : List ProRataChunk
deriving DecidableEq, Repr

/-! ## Checks -/

abbrev chunkEntryLimitMax : Nat := 1024
abbrev maxChunksPerDistribution : Nat := 64

/-- The body of the loop of `assertDirectBalances`, after the entries seen so far. -/
def assertDirectBalance (label : String) (seen : List DirectBalance) (entry : DirectBalance) :
    Except String Unit := do
  let position := label ++ " entry " ++ toString seen.length
  assertRecipient entry.recipient (position ++ " recipient")
  assertPositiveDecimal entry.directHkmnBalance (position ++ " balance")
  throwIf (entry.recipient ∈ seen.map DirectBalance.recipient)
    (label ++ " recipients must be unique")

def assertDirectBalances (value : List DirectBalance) (label : String) :
    Except String (List DirectBalance) := do
  throwIf (value = []) (label ++ " must be a nonempty array")
  scan (assertDirectBalance label) [] value
  pure value

/-- The body of the loop of `assertPayableEntries`: the check of a balance, and one of
the amount. -/
def assertPayableEntry (label : String) (seen : List PayableEntry) (entry : PayableEntry) :
    Except String Unit := do
  let position := label ++ " entry " ++ toString seen.length
  assertRecipient entry.recipient (position ++ " recipient")
  assertPositiveDecimal entry.directHkmnBalance (position ++ " balance")
  assertPositiveDecimal entry.amountAtomicUSDG (position ++ " amount")
  throwIf (entry.recipient ∈ seen.map fun earlier => earlier.recipient)
    (label ++ " recipients must be unique")

def assertPayableEntries (value : List PayableEntry) (label : String) :
    Except String (List PayableEntry) := do
  throwIf (value = []) (label ++ " must be a nonempty array")
  scan (assertPayableEntry label) [] value
  pure value

/-! ## The distribution -/

/-- The supply that is shared by: the balances, or a wider supply that is given. -/
def eligibleSupply (given : Option Text) (suppliedBalanceTotal : Nat) : Except String Nat :=
  match given with
  | none => pure suppliedBalanceTotal
  | some supply => do
    assertPositiveDecimal supply "pro-rata total eligible supply"
    throwIf (textNat supply < suppliedBalanceTotal)
      "pro-rata total eligible supply must be at least the sum of the supplied direct balances"
    pure (textNat supply)

/-- The body of the loop over the holders, from what was distributed and the entries. -/
def distributeStep (distributablePool totalEligibleSupply : Nat)
    (made : Nat × List PayableEntry) (holder : DirectBalance) : Nat × List PayableEntry :=
  let amount := holder.balance * distributablePool / totalEligibleSupply
  if amount = 0 then made
  else (made.1 + amount, made.2 ++ [⟨holder, made.2.length, natText amount⟩])

def proRataSchema : Text := text "hookemon.pro-rata-distribution.v1"

def computeProRataDistribution (input : ProRataInput) : Except String ProRataDistribution := do
  let directBalances ← assertDirectBalances input.directBalances "pro-rata direct balances"
  assertDecimalString input.proceedsAmount "pro-rata proceeds amount"
  let previousDust := input.previousDust.getD (text "0")
  assertDecimalString previousDust "pro-rata previous dust"
  let sorted := sortByKey DirectBalance.recipient directBalances
  let suppliedBalanceTotal := (sorted.map DirectBalance.balance).sum
  let totalEligibleSupply ← eligibleSupply input.totalEligibleSupply suppliedBalanceTotal
  let distributablePool := textNat input.proceedsAmount + textNat previousDust
  let (totalDistributed, entries) :=
    sorted.foldl (distributeStep distributablePool totalEligibleSupply) (0, [])
  pure {
    schema := proRataSchema
    proceedsAmount := input.proceedsAmount
    previousDust
    distributablePool := natText distributablePool
    totalEligibleSupply := natText totalEligibleSupply
    holderCount := sorted.length
    payableHolderCount := entries.length
    totalAmountAtomicUSDG := natText totalDistributed
    dust := natText (distributablePool - totalDistributed)
    entries }

/-! ## Chunks -/

/-- The chunk of an index, with indices of its own. -/
def chunkAt (sorted : List PayableEntry) (chunkEntryLimit chunkIndex : Nat) : ProRataChunk :=
  let slice := sliceAt sorted chunkEntryLimit chunkIndex
  { chunkIndex
    entryCount := slice.length
    rootSum := natText (slice.map PayableEntry.amount).sum
    entries := slice.mapIdx fun localIndex entry => { entry with index := localIndex } }

def chunkProRataEntries (entries : List PayableEntry) (chunkEntryLimit : Int) :
    Except String ProRataChunks := do
  throwIf (chunkEntryLimit < 1 ∨ (chunkEntryLimitMax : Int) < chunkEntryLimit)
    "pro-rata chunk entry limit is invalid"
  let normalized ← assertPayableEntries entries "pro-rata chunk entries"
  let sorted := sortByKey (fun entry : PayableEntry => entry.recipient) normalized
  let limit := chunkEntryLimit.toNat
  let chunkCount := slicesNeeded sorted.length limit
  throwIf (maxChunksPerDistribution < chunkCount)
    ("pro-rata distribution requires " ++ toString chunkCount
      ++ " chunks, exceeding MAX_CHUNKS_PER_PAYOUT (64)")
  let liabilities := (List.range chunkCount).map fun chunkIndex =>
    ((sliceAt sorted limit chunkIndex).map PayableEntry.amount).sum
  pure {
    chunkEntryLimit
    chunkCount
    totalLiability := natText liabilities.sum
    chunks := (List.range chunkCount).map (chunkAt sorted limit) }

/-! ## What the checks accept -/

/-- A canonical address other than zero. -/
def IsRecipient (value : Text) : Prop := isLowerAddress value ∧ value ≠ zeroEvmAddress

theorem assertRecipient_eq_ok {value : Text} {label : String} {u : Unit} :
    assertRecipient value label = .ok u ↔ IsRecipient value := by
  rw [assertRecipient, revertIf_eq_ok, not_or, not_not]
  rfl

theorem assertPositiveDecimal_eq_ok {value : Text} {label : String} {u : Unit} :
    assertPositiveDecimal value label = .ok u ↔ isPositiveDecimal value := by
  rw [assertPositiveDecimal, revertIf_eq_ok, not_not]

theorem isPositiveDecimal_iff {value : Text} :
    isPositiveDecimal value ↔ isDecimal value ∧ 0 < textNat value := by
  have hzero : isDecimal (text "0") := by decide
  rw [isPositiveDecimal, Bool.and_eq_true, bne_iff_ne]
  constructor
  · rintro ⟨hdecimal, hne⟩
    refine ⟨hdecimal, Nat.pos_of_ne_zero fun h => hne ?_⟩
    exact textNat_inj hdecimal hzero (h.trans (by decide))
  · rintro ⟨hdecimal, hpos⟩
    refine ⟨hdecimal, ?_⟩
    rintro rfl
    exact absurd hpos (by decide)

theorem isPositiveDecimal_natText {n : Nat} : isPositiveDecimal (natText n) ↔ n ≠ 0 := by
  rw [isPositiveDecimal_iff, textNat_natText, Nat.pos_iff_ne_zero]
  exact and_iff_right (isDecimal_natText n)

/-- A set of holders with positive balances, in some order. -/
structure Holders (holders : List DirectBalance) : Prop where
  nonempty : holders ≠ []
  valid : ∀ holder ∈ holders,
    IsRecipient holder.recipient ∧ isPositiveDecimal holder.directHkmnBalance
  distinct : (holders.map DirectBalance.recipient).Nodup

theorem assertDirectBalances_eq_ok {value normalized : List DirectBalance} {label : String} :
    assertDirectBalances value label = .ok normalized ↔ Holders value ∧ normalized = value := by
  have hscan : scan (assertDirectBalance label) [] value = .ok () ↔
      (∀ entry ∈ value, IsRecipient entry.recipient ∧ isPositiveDecimal entry.directHkmnBalance) ∧
        (value.map DirectBalance.recipient).Nodup :=
    scan_unique fun seen entry => by
      simp only [assertDirectBalance, bind_eq_ok, assertRecipient_eq_ok,
        assertPositiveDecimal_eq_ok, revertIf_eq_ok, exists_const, and_assoc]
  simp only [assertDirectBalances, bind_eq_ok, revertIf_eq_ok, pure_eq_ok, hscan, exists_const]
  constructor
  · rintro ⟨hne, ⟨hvalid, hdistinct⟩, rfl⟩
    exact ⟨⟨hne, hvalid, hdistinct⟩, rfl⟩
  · rintro ⟨⟨hne, hvalid, hdistinct⟩, rfl⟩
    exact ⟨hne, ⟨hvalid, hdistinct⟩, rfl⟩

theorem assertPayableEntries_eq_ok {value normalized : List PayableEntry} {label : String} :
    assertPayableEntries value label = .ok normalized ↔
      value ≠ [] ∧ ((∀ entry ∈ value, IsRecipient entry.recipient ∧
        isPositiveDecimal entry.directHkmnBalance ∧ isPositiveDecimal entry.amountAtomicUSDG) ∧
      (value.map fun entry => entry.recipient).Nodup) ∧ normalized = value := by
  have hscan : scan (assertPayableEntry label) [] value = .ok () ↔
      (∀ entry ∈ value, IsRecipient entry.recipient ∧
        isPositiveDecimal entry.directHkmnBalance ∧ isPositiveDecimal entry.amountAtomicUSDG) ∧
      (value.map fun entry => entry.recipient).Nodup :=
    scan_unique fun seen entry => by
      simp only [assertPayableEntry, bind_eq_ok, assertRecipient_eq_ok,
        assertPositiveDecimal_eq_ok, revertIf_eq_ok, exists_const, and_assoc]
  simp only [assertPayableEntries, bind_eq_ok, revertIf_eq_ok, pure_eq_ok, hscan, exists_const]
  rw [eq_comm (a := normalized)]

namespace Holders

variable {holders others : List DirectBalance}

/-- The same holders in another order. -/
theorem perm (h : Holders holders) (hperm : others.Perm holders) : Holders others where
  nonempty := by
    intro hnil
    rw [hnil] at hperm
    exact h.nonempty hperm.nil_eq.symm
  valid := fun holder hmem => h.valid holder (hperm.mem_iff.mp hmem)
  distinct := (hperm.map DirectBalance.recipient).nodup_iff.mpr h.distinct

/-- Holders weigh something. -/
theorem weight_pos (h : Holders holders) : 0 < (holders.map DirectBalance.balance).sum := by
  obtain ⟨holder, hmem⟩ := List.exists_mem_of_ne_nil holders h.nonempty
  have hpos := (isPositiveDecimal_iff.mp (h.valid holder hmem).2).2
  have hle : holder.balance ≤ (holders.map DirectBalance.balance).sum :=
    List.single_le_sum (by simp) _ (List.mem_map_of_mem hmem)
  exact lt_of_lt_of_le hpos hle

end Holders

/-! ## The entries of a distribution -/

/-- The holders with a share, each with its share. -/
def sharesOf (pool supply : Nat) (holders : List DirectBalance) : List (DirectBalance × Nat) :=
  (holders.map fun holder => (holder, holder.balance * pool / supply)).filter fun payment =>
    payment.2 ≠ 0

/-- The holders with a share in the order of their addresses. -/
def payments (pool supply : Nat) (holders : List DirectBalance) : List (DirectBalance × Nat) :=
  sharesOf pool supply (sortByKey DirectBalance.recipient holders)

/-- The entry of a payment at an index. -/
def paymentEntry (index : Nat) (payment : DirectBalance × Nat) : PayableEntry :=
  ⟨payment.1, index, natText payment.2⟩

section

variable {pool supply : Nat} {holder : DirectBalance} {rest : List DirectBalance}

theorem sharesOf_cons_zero (hzero : holder.balance * pool / supply = 0) :
    sharesOf pool supply (holder :: rest) = sharesOf pool supply rest := by
  simp [sharesOf, hzero]

theorem sharesOf_cons_pos (hpos : holder.balance * pool / supply ≠ 0) :
    sharesOf pool supply (holder :: rest)
      = (holder, holder.balance * pool / supply) :: sharesOf pool supply rest := by
  simp [sharesOf, hpos]

end

/-- What the loop over the holders makes. -/
theorem distribute_foldl (pool supply : Nat) (holders : List DirectBalance) :
    ∀ made : Nat × List PayableEntry, holders.foldl (distributeStep pool supply) made
      = (made.1 + ((sharesOf pool supply holders).map Prod.snd).sum,
        made.2 ++ (sharesOf pool supply holders).mapIdx fun index payment =>
          paymentEntry (made.2.length + index) payment) := by
  induction holders with
  | nil => simp [sharesOf]
  | cons holder rest ih =>
    intro made
    rw [List.foldl_cons, ih]
    by_cases hzero : holder.balance * pool / supply = 0
    · rw [sharesOf_cons_zero hzero, distributeStep, if_pos hzero]
    · rw [sharesOf_cons_pos hzero, distributeStep, if_neg hzero, List.map_cons, List.sum_cons,
        List.mapIdx_cons, List.append_assoc, List.singleton_append, List.length_append,
        List.length_singleton, Nat.add_assoc]
      have hindex : (fun index payment => paymentEntry (made.2.length + 1 + index) payment)
          = fun index payment => paymentEntry (made.2.length + (index + 1)) payment := by
        funext index payment
        rw [Nat.add_assoc, Nat.add_comm 1 index]
      rw [hindex]
      rfl

/-- The spec of the distribution: it is made for every set of holders, and each supply
that is at least their balances. -/
theorem computeProRataDistribution_eq_ok {input : ProRataInput} {d : ProRataDistribution} :
    computeProRataDistribution input = .ok d ↔
      Holders input.directBalances ∧ isDecimal input.proceedsAmount ∧
      isDecimal (input.previousDust.getD (text "0")) ∧
      ∃ supply, eligibleSupply input.totalEligibleSupply
          (input.directBalances.map DirectBalance.balance).sum = .ok supply ∧
        let previousDust := input.previousDust.getD (text "0")
        let pool := textNat input.proceedsAmount + textNat previousDust
        let paid := payments pool supply input.directBalances
        d = {
          schema := proRataSchema
          proceedsAmount := input.proceedsAmount
          previousDust
          distributablePool := natText pool
          totalEligibleSupply := natText supply
          holderCount := input.directBalances.length
          payableHolderCount := paid.length
          totalAmountAtomicUSDG := natText (paid.map Prod.snd).sum
          dust := natText (pool - (paid.map Prod.snd).sum)
          entries := paid.mapIdx paymentEntry } := by
  have hperm := sortByKey_perm DirectBalance.recipient input.directBalances
  have hsum : ((sortByKey DirectBalance.recipient input.directBalances).map
      DirectBalance.balance).sum = (input.directBalances.map DirectBalance.balance).sum :=
    (hperm.map DirectBalance.balance).sum_eq
  simp only [computeProRataDistribution, bind_eq_ok, assertDirectBalances_eq_ok,
    assertDecimalString, revertIf_eq_ok, not_not, distribute_foldl, pure_eq_ok, payments]
  constructor
  · rintro ⟨_, ⟨hholders, rfl⟩, _, hproceeds, _, hdust, supply, hsupply, rfl⟩
    rw [hsum] at hsupply
    refine ⟨hholders, hproceeds, hdust, supply, hsupply, ?_⟩
    simp [hperm.length_eq]
  · rintro ⟨hholders, hproceeds, hdust, supply, hsupply, rfl⟩
    rw [← hsum] at hsupply
    refine ⟨_, ⟨hholders, rfl⟩, (), hproceeds, (), hdust, supply, hsupply, ?_⟩
    simp [hperm.length_eq]

/-- The order of the balances that are given does not matter. -/
theorem computeProRataDistribution_perm {input : ProRataInput} {d : ProRataDistribution}
    (h : computeProRataDistribution input = .ok d) {balances : List DirectBalance}
    (hperm : balances.Perm input.directBalances) :
    computeProRataDistribution { input with directBalances := balances } = .ok d := by
  obtain ⟨hholders, hproceeds, hdust, supply, hsupply, hd⟩ :=
    computeProRataDistribution_eq_ok.mp h
  have hsum : (balances.map DirectBalance.balance).sum
      = (input.directBalances.map DirectBalance.balance).sum :=
    (hperm.map DirectBalance.balance).sum_eq
  have hsorted : sortByKey DirectBalance.recipient balances
      = sortByKey DirectBalance.recipient input.directBalances :=
    sortByKey_of_perm hperm (hholders.perm hperm).distinct
  rw [← hsum] at hsupply
  refine computeProRataDistribution_eq_ok.mpr
    ⟨hholders.perm hperm, hproceeds, hdust, supply, hsupply, ?_⟩
  simp only [payments] at hd ⊢
  rw [hsorted, hperm.length_eq]
  exact hd

/-- What is the same of an entry at every index. -/
def PayableEntry.payment (entry : PayableEntry) : DirectBalance × Text :=
  (entry.toDirectBalance, entry.amountAtomicUSDG)

/-- Entries that can be paid: valid holders with positive amounts, by their addresses. -/
structure PayableEntries (entries : List PayableEntry) : Prop where
  valid : ∀ entry ∈ entries, IsRecipient entry.recipient ∧
    isPositiveDecimal entry.directHkmnBalance ∧ isPositiveDecimal entry.amountAtomicUSDG
  sorted : (entries.map fun entry => entry.recipient).Pairwise (· < ·)

theorem mem_payments {pool supply : Nat} {holders : List DirectBalance}
    {payment : DirectBalance × Nat} (h : payment ∈ payments pool supply holders) :
    payment.1 ∈ holders ∧ payment.2 ≠ 0 := by
  obtain ⟨hmem, hpos⟩ := List.mem_filter.mp h
  obtain ⟨holder, hholder, rfl⟩ := List.mem_map.mp hmem
  exact ⟨(sortByKey_perm _ _).mem_iff.mp hholder, by simpa using hpos⟩

theorem payments_sorted {pool supply : Nat} {holders : List DirectBalance} (h : Holders holders) :
    ((payments pool supply holders).map fun payment => payment.1.recipient).Pairwise (· < ·) := by
  have hstrict := sortByKey_strict h.distinct
  have hall : (((sortByKey DirectBalance.recipient holders).map fun holder =>
      (holder, holder.balance * pool / supply)).map fun payment => payment.1.recipient).Pairwise
        (· < ·) := by
    rw [List.map_map]
    exact hstrict
  exact hall.sublist (List.filter_sublist.map _)

/-- The entries of a distribution can be paid, and add up to what it distributes. -/
theorem distribution_entries {input : ProRataInput} {d : ProRataDistribution}
    (h : computeProRataDistribution input = .ok d) :
    PayableEntries d.entries ∧
      (d.entries.map PayableEntry.amount).sum = textNat d.totalAmountAtomicUSDG := by
  obtain ⟨hholders, -, -, supply, -, hd⟩ := computeProRataDistribution_eq_ok.mp h
  subst hd
  dsimp only
  refine ⟨⟨?_, ?_⟩, ?_⟩
  · intro entry hentry
    obtain ⟨index, hindex, rfl⟩ := List.mem_mapIdx.mp hentry
    obtain ⟨hmem, hpos⟩ := mem_payments (List.getElem_mem hindex)
    obtain ⟨hrecipient, hbalance⟩ := hholders.valid _ hmem
    exact ⟨hrecipient, hbalance, isPositiveDecimal_natText.mpr hpos⟩
  · rw [map_mapIdx_of_forall (f := paymentEntry) (g := fun entry => entry.recipient)
      (h := fun payment => payment.1.recipient) fun _ _ => rfl]
    exact payments_sorted hholders
  · rw [map_mapIdx_of_forall (f := paymentEntry) (g := PayableEntry.amount) (h := Prod.snd)
      fun _ payment => textNat_natText payment.2, textNat_natText]

/-! ## The chunks of a distribution -/

/-- Chunks that hold some entries, in their order, each entry once. -/
structure Partitions (entries : List PayableEntry) (limit : Nat) (made : ProRataChunks) :
    Prop where
  count : made.chunkCount = made.chunks.length
  few : made.chunks.length ≤ maxChunksPerDistribution
  whole : made.chunks.flatMap (fun chunk => chunk.entries.map PayableEntry.payment)
    = entries.map PayableEntry.payment
  chunkIndex : made.chunks.map ProRataChunk.chunkIndex = List.range made.chunks.length
  entryCount : ∀ chunk ∈ made.chunks, chunk.entryCount = chunk.entries.length
  size : ∀ chunk ∈ made.chunks, 1 ≤ chunk.entries.length ∧ chunk.entries.length ≤ limit
  dense : ∀ chunk ∈ made.chunks,
    chunk.entries.map PayableEntry.index = List.range chunk.entries.length
  rootSum : ∀ chunk ∈ made.chunks,
    chunk.rootSum = natText (chunk.entries.map PayableEntry.amount).sum
  total : (made.chunks.map fun chunk => textNat chunk.rootSum).sum
    = (entries.map PayableEntry.amount).sum
  liability : made.totalLiability = natText (entries.map PayableEntry.amount).sum

section

variable {sorted : List PayableEntry} {limit : Nat}

theorem chunkAt_length (chunkIndex : Nat) :
    (chunkAt sorted limit chunkIndex).entries.length
      = (sliceAt sorted limit chunkIndex).length := by
  rw [chunkAt, List.length_mapIdx]

theorem chunkAt_payments (chunkIndex : Nat) :
    (chunkAt sorted limit chunkIndex).entries.map PayableEntry.payment
      = (sliceAt sorted limit chunkIndex).map PayableEntry.payment :=
  map_mapIdx_of_forall fun _ _ => rfl

theorem chunkAt_amounts (chunkIndex : Nat) :
    (chunkAt sorted limit chunkIndex).entries.map PayableEntry.amount
      = (sliceAt sorted limit chunkIndex).map PayableEntry.amount :=
  map_mapIdx_of_forall fun _ _ => rfl

/-- The sums of the slices add up to the sum of the entries. -/
theorem slices_amount (hlimit : 0 < limit) :
    ((List.range (slicesNeeded sorted.length limit)).map fun chunkIndex =>
      ((sliceAt sorted limit chunkIndex).map PayableEntry.amount).sum).sum
      = (sorted.map PayableEntry.amount).sum := by
  have hwhole := congrArg (fun entries => (entries.map PayableEntry.amount).sum)
    (slices_whole sorted hlimit)
  simp only [List.map_flatten, List.sum_flatten, List.map_map] at hwhole
  exact hwhole

/-- The chunks of sorted entries that are not too many partition them. -/
theorem partitions_of_slices (hlimit : 0 < limit)
    (hfew : slicesNeeded sorted.length limit ≤ maxChunksPerDistribution) :
    Partitions sorted limit {
      chunkEntryLimit := limit
      chunkCount := slicesNeeded sorted.length limit
      totalLiability := natText ((List.range (slicesNeeded sorted.length limit)).map
        fun chunkIndex => ((sliceAt sorted limit chunkIndex).map PayableEntry.amount).sum).sum
      chunks := (List.range (slicesNeeded sorted.length limit)).map (chunkAt sorted limit) } where
  count := by rw [List.length_map, List.length_range]
  few := by rwa [List.length_map, List.length_range]
  whole := by
    have hwhole := congrArg (List.map PayableEntry.payment) (slices_whole sorted hlimit)
    rw [List.map_flatten, List.map_map] at hwhole
    rw [List.flatMap_map, ← hwhole, List.flatMap_def]
    congr 1
    exact List.map_congr_left fun chunkIndex _ => chunkAt_payments chunkIndex
  chunkIndex := by
    rw [List.map_map, List.length_map, List.length_range]
    exact List.map_id _
  entryCount := by
    intro chunk hchunk
    obtain ⟨chunkIndex, -, rfl⟩ := List.mem_map.mp hchunk
    rw [chunkAt_length]
    rfl
  size := by
    intro chunk hchunk
    obtain ⟨chunkIndex, hindex, rfl⟩ := List.mem_map.mp hchunk
    rw [chunkAt_length]
    constructor
    · exact List.length_pos_iff.mpr (sliceAt_ne_nil hlimit (List.mem_range.mp hindex))
    · exact sliceAt_length_le chunkIndex
  dense := by
    intro chunk hchunk
    obtain ⟨chunkIndex, -, rfl⟩ := List.mem_map.mp hchunk
    rw [chunkAt_length]
    exact map_mapIdx_number fun _ _ => rfl
  rootSum := by
    intro chunk hchunk
    obtain ⟨chunkIndex, -, rfl⟩ := List.mem_map.mp hchunk
    rw [chunkAt_amounts]
    rfl
  total := by
    rw [List.map_map, ← slices_amount hlimit]
    congr 1
    exact List.map_congr_left fun chunkIndex _ => textNat_natText _
  liability := by rw [slices_amount hlimit]

end

/-- Chunks are made of entries that can be paid exactly when there are some, and when they
fit into the chunks. -/
theorem chunkProRataEntries_eq_ok {entries : List PayableEntry} (h : PayableEntries entries)
    {limit : Nat} (hlimit : 1 ≤ limit) (hmax : limit ≤ chunkEntryLimitMax)
    {made : ProRataChunks} :
    chunkProRataEntries entries limit = .ok made ↔
      entries ≠ [] ∧ slicesNeeded entries.length limit ≤ maxChunksPerDistribution ∧ made = {
        chunkEntryLimit := limit
        chunkCount := slicesNeeded entries.length limit
        totalLiability := natText ((List.range (slicesNeeded entries.length limit)).map
          fun chunkIndex => ((sliceAt entries limit chunkIndex).map PayableEntry.amount).sum).sum
        chunks := (List.range (slicesNeeded entries.length limit)).map
          (chunkAt entries limit) } := by
  have hrange : ¬ ((limit : Int) < 1 ∨ (chunkEntryLimitMax : Int) < limit) := by omega
  have hnodup : (entries.map fun entry => entry.recipient).Nodup :=
    h.sorted.imp fun hlt => ne_of_lt hlt
  have hsorted : sortByKey (fun entry : PayableEntry => entry.recipient) entries = entries :=
    sortByKey_of_sorted h.sorted
  simp only [chunkProRataEntries, bind_eq_ok, revertIf_eq_ok, assertPayableEntries_eq_ok,
    pure_eq_ok, Nat.not_lt]
  constructor
  · rintro ⟨_, -, _, ⟨hne, -, rfl⟩, _, hfew, rfl⟩
    rw [hsorted] at hfew ⊢
    exact ⟨hne, hfew, rfl⟩
  · rintro ⟨hne, hfew, rfl⟩
    refine ⟨(), hrange, entries, ⟨hne, ⟨h.valid, hnodup⟩, rfl⟩, (), ?_, ?_⟩
    · rwa [hsorted]
    · rw [hsorted]
      rfl

/-! ## The holders of a plan -/

/-- The holder of an entry of a manifest. -/
def EligibilityEntry.directBalance (entry : EligibilityEntry) : DirectBalance :=
  ⟨entry.recipient, entry.hkmnBalance.amountAtomic⟩

/-- The holders of a manifest. -/
def manifestHolders (entries : List EligibilityEntry) : List DirectBalance :=
  entries.map EligibilityEntry.directBalance

/-- What the loop over the entries of a manifest accepts. -/
theorem assertEligibilityEntries_ok {supply : TypedAmount} :
    ∀ {entries : List EligibilityEntry} {index : Nat} {previousRecipient : Option Text},
      assertEligibilityEntries supply index previousRecipient entries = .ok () →
      (∀ entry ∈ entries, IsRecipient entry.recipient ∧
        isPositiveDecimal entry.hkmnBalance.amountAtomic) ∧
      (entries.map EligibilityEntry.recipient).Pairwise (· < ·) ∧
      ∀ previous ∈ previousRecipient, ∀ entry ∈ entries, previous < entry.recipient := by
  intro entries
  induction entries with
  | nil => simp
  | cons entry rest ih =>
    intro index previousRecipient h
    simp only [assertEligibilityEntries, assertTypedAmount, bind_eq_ok, assertRecipient_eq_ok,
      assertDecimalString, revertIf_eq_ok, pure_eq_ok, not_not, not_or] at h
    obtain ⟨_, hrecipient, balance, ⟨_, -, _, -, _, -, _, hdecimal, rfl⟩, _, ⟨-, -, -, hzero⟩, _,
      hafter, hrest⟩ := h
    obtain ⟨hvalid, hsorted, habove⟩ := ih hrest
    have hpositive : isPositiveDecimal entry.hkmnBalance.amountAtomic := by
      rw [isPositiveDecimal, Bool.and_eq_true, bne_iff_ne]
      exact ⟨hdecimal, hzero⟩
    refine ⟨?_, ?_, ?_⟩
    · intro e he
      rcases List.mem_cons.mp he with rfl | hold
      · exact ⟨hrecipient, hpositive⟩
      · exact hvalid e hold
    · rw [List.map_cons, List.pairwise_cons]
      refine ⟨?_, hsorted⟩
      intro recipient hmem
      obtain ⟨e, he, rfl⟩ := List.mem_map.mp hmem
      exact habove _ rfl e he
    · intro previous hprevious e he
      have hlt : previous < entry.recipient := by
        by_contra hnot
        exact hafter ⟨previous, hprevious, not_lt.mp hnot⟩
      rcases List.mem_cons.mp he with rfl | hold
      · exact hlt
      · exact hlt.trans (habove _ rfl e hold)

section

variable {Summary Evidence : Type} {env : PlanEnvironment Summary Evidence}

/-- A manifest that passes its own checks has entries that pass theirs. -/
theorem createEligibilityPayoutManifest_entries {input : ManifestInput}
    {selection checked : Option Evidence}
    (h : createEligibilityPayoutManifest env input selection = .ok checked) :
    ∃ supply, assertEligibilityEntries supply 0 none input.entries = .ok () := by
  simp only [createEligibilityPayoutManifest, bind_eq_ok] at h
  obtain ⟨_, -, _, -, _, -, _, -, _, -, supply, -, _, hentries, -⟩ := h
  exact ⟨supply, hentries⟩

theorem normalizeSelection_entries {input : ManifestInput}
    {selection : Option (SuppliedSelection Summary Evidence)}
    {found : Option Summary × Option Evidence}
    (h : normalizeSelection env input selection = .ok found) :
    ∃ supply, assertEligibilityEntries supply 0 none input.entries = .ok () := by
  cases selection with
  | none =>
    simp only [normalizeSelection, bind_eq_ok] at h
    obtain ⟨_, hcreated, -⟩ := h
    exact createEligibilityPayoutManifest_entries hcreated
  | some supplied =>
    cases supplied with
    | summary value =>
      simp only [normalizeSelection, bind_eq_ok] at h
      obtain ⟨_, hcreated, -⟩ := h
      exact createEligibilityPayoutManifest_entries hcreated
    | evidence value =>
      simp only [normalizeSelection, bind_eq_ok] at h
      obtain ⟨_, hcreated, -⟩ := h
      exact createEligibilityPayoutManifest_entries hcreated

/-- A canonical address is its own lower case. -/
theorem toLowerCase_address {value : Text} (h : isLowerAddress value) :
    toLowerCase value = value := by
  rw [isLowerAddress, hasShape, Bool.and_eq_true, Bool.and_eq_true, beq_iff_eq,
    List.all_eq_true] at h
  obtain ⟨⟨hlead, -⟩, hdigits⟩ := h
  have hsplit := List.take_append_drop (text "0x").length value
  rw [hlead] at hsplit
  rw [← hsplit, toLowerCase_eq, List.map_append, ← toLowerCase_eq, ← toLowerCase_eq,
    toLowerCase_of_lower hdigits]
  rfl

/-- The entries that are normalized keep their holders. -/
theorem normalizeEntriesFrom_holders {supply : TypedAmount} {entries : List EligibilityEntry} :
    ∀ {index : Nat} {recipients : List Text} {normalized : List EligibilityEntry},
      (∀ entry ∈ entries, isLowerAddress entry.recipient) →
      normalizeEntriesFrom supply index recipients entries = .ok normalized →
      manifestHolders normalized = manifestHolders entries := by
  induction entries with
  | nil =>
    intro index recipients normalized _ h
    simp only [normalizeEntriesFrom, pure_eq_ok] at h
    subst h
    rfl
  | cons entry rest ih =>
    intro index recipients normalized hlower h
    simp only [normalizeEntriesFrom, assertAddress, copyHkmnAmount, bind_eq_ok, revertIf_eq_ok,
      assertAtomic_eq_ok, pure_eq_ok] at h
    obtain ⟨_, ⟨_, -, rfl⟩, _, -, _, ⟨_, -, _, -, _, ⟨-, -, rfl⟩, _, -, _, -, rfl⟩, others,
      hothers, rfl⟩ := h
    have hrest := ih (fun e he => hlower e (List.mem_cons_of_mem _ he)) hothers
    have hsame := toLowerCase_address (hlower entry List.mem_cons_self)
    simp only [manifestHolders, List.map_cons] at hrest ⊢
    rw [hrest, EligibilityEntry.directBalance, EligibilityEntry.directBalance, hsame]

/-- What a normalized manifest is compiled from: the holders of the manifest, valid and
in the order of their addresses. -/
theorem normalizeEligibilityManifest_holders
    {manifest : EligibilityManifest Summary Evidence} {cycleId : Text}
    {eligibility : Eligibility Summary Evidence}
    (h : normalizeEligibilityManifest env manifest cycleId = .ok eligibility) :
    manifestHolders eligibility.entries = manifestHolders manifest.input.entries ∧
      (manifest.input.entries ≠ [] → Holders (manifestHolders manifest.input.entries)) ∧
      ((manifestHolders manifest.input.entries).map DirectBalance.recipient).Pairwise (· < ·) := by
  simp only [normalizeEligibilityManifest, normalizeEntries, bind_eq_ok, pure_eq_ok] at h
  obtain ⟨_, -, _, -, selections, hselections, _, -, supply, -, entries,
    ⟨normalized, hnormalized, rfl⟩, _, -, _, -, _, -, _, -, rfl⟩ := h
  obtain ⟨frozen, hentries⟩ := normalizeSelection_entries hselections
  obtain ⟨hvalid, hsorted, -⟩ := assertEligibilityEntries_ok hentries
  have hholders := normalizeEntriesFrom_holders (fun e he => (hvalid e he).1.1) hnormalized
  have hkeys : (manifestHolders manifest.input.entries).map DirectBalance.recipient
      = manifest.input.entries.map EligibilityEntry.recipient := by
    rw [manifestHolders, List.map_map]
    rfl
  have hrecipients : normalized.map EligibilityEntry.recipient
      = (manifestHolders manifest.input.entries).map DirectBalance.recipient := by
    rw [← hholders, manifestHolders, List.map_map]
    rfl
  have hstay : sortByKey EligibilityEntry.recipient normalized = normalized := by
    apply sortByKey_of_sorted
    rw [hrecipients, hkeys]
    exact hsorted
  refine ⟨?_, ?_, by rwa [hkeys]⟩
  · show manifestHolders (sortByKey EligibilityEntry.recipient normalized) = _
    rw [hstay, hholders]
  · intro hne
    refine ⟨by simpa [manifestHolders] using hne, ?_, ?_⟩
    · intro holder hmem
      obtain ⟨e, he, rfl⟩ := List.mem_map.mp hmem
      exact hvalid e he
    · rw [hkeys]
      exact hsorted.imp fun hlt => ne_of_lt hlt

/-- What an allocation pays. -/
def Allocation.payment (allocation : Allocation) : DirectBalance × Text :=
  (⟨allocation.recipient, allocation.hkmnBalance.amountAtomic⟩, allocation.amount.amountAtomic)

theorem allocateCandidates_payments {assetId : Text} {candidates : List Candidate} :
    ∀ {allocations : List Allocation},
      candidates.mapM (allocateCandidate assetId) = .ok allocations →
        allocations.map Allocation.payment = candidates.map fun candidate =>
          (⟨candidate.recipient, candidate.hkmnBalance.amountAtomic⟩,
            natText candidate.amountAtomic) := by
  induction candidates with
  | nil =>
    intro allocations h
    simp only [List.mapM_nil, pure_eq_ok] at h
    subst h
    rfl
  | cons candidate rest ih =>
    intro allocations h
    simp only [List.mapM_cons, allocateCandidate, bind_eq_ok, pure_eq_ok,
      createNativePayoutAmount_eq_ok] at h
    obtain ⟨allocation, ⟨amount, ⟨-, -, -, rfl⟩, rfl⟩, others, hothers, rfl⟩ := h
    rw [List.map_cons, List.map_cons, ih hothers]
    rfl

/-- What a plan allocates: the floored share of every holder, in the order of the
manifest, and the dust that they leave. -/
structure Allocates (request : PlanRequest Summary Evidence)
    (plan : DirectPayoutPlan Summary Evidence) : Prop where
  returned : isDecimal request.finalizedReturn.amountAtomic
  carried : isDecimal request.previousDust.amountAtomic
  holders : Holders (manifestHolders request.eligibilityManifest.input.entries)
  sorted : ((manifestHolders request.eligibilityManifest.input.entries).map
    DirectBalance.recipient).Pairwise (· < ·)
  allocated :
    let holders := manifestHolders request.eligibilityManifest.input.entries
    let pool := request.finalizedReturn.atomic + request.previousDust.atomic
    let supply := (holders.map DirectBalance.balance).sum
    plan.allocations.map Allocation.payment = holders.map (fun holder =>
        (holder, natText (holder.balance * pool / supply))) ∧
      plan.dust.amountAtomic
        = natText (pool - (holders.map fun holder => holder.balance * pool / supply).sum)

theorem copyPrincipalAmount_decimal {amount a : TypedAmount} {label : String}
    {expectedAssetId : Text} (h : copyPrincipalAmount amount label expectedAssetId = .ok a) :
    isDecimal amount.amountAtomic := by
  simp only [copyPrincipalAmount, bind_eq_ok, createNativePayoutAmount_eq_ok] at h
  obtain ⟨_, -, _, -, _, -, _, -, -, hdecimal, -⟩ := h
  exact hdecimal

/-- The spec of the plan compiler for holders. -/
theorem compileDirectPayoutPlan_allocates {request : PlanRequest Summary Evidence}
    {plan : DirectPayoutPlan Summary Evidence}
    (h : compileDirectPayoutPlan env request = .ok plan)
    (hsome : request.eligibilityManifest.input.entries ≠ []) : Allocates request plan := by
  simp only [compileDirectPayoutPlan, bind_eq_ok, revertIf_eq_ok, pure_eq_ok] at h
  obtain ⟨_, -, eligibility, heligibility, evidence, -, returnDelta, hreturn, carryIn, hcarry,
    source, -, _, -, allocations, hallocations, dust, hdust, distributable, -, allocated, -,
    digest, -, rfl⟩ := h
  obtain ⟨hsame, hholders, hsorted⟩ := normalizeEligibilityManifest_holders heligibility
  have hreturnSame := copyPrincipalAmount_ok hreturn
  have hcarrySame := copyPrincipalAmount_ok hcarry
  subst hreturnSame hcarrySame
  have hweight := (hholders hsome).weight_pos
  have htotal : totalBalance eligibility.entries
      = ((manifestHolders request.eligibilityManifest.input.entries).map
          DirectBalance.balance).sum := by
    rw [← hsame, manifestHolders, List.map_map]
    rfl
  have hcandidates : payoutCandidates eligibility.entries
      (request.finalizedReturn.atomic + request.previousDust.atomic)
      = eligibility.entries.map fun entry => {
          recipient := entry.recipient
          hkmnBalance := entry.hkmnBalance
          amountAtomic := entry.hkmnBalance.atomic
            * (request.finalizedReturn.atomic + request.previousDust.atomic)
            / totalBalance eligibility.entries } := by
    rw [payoutCandidates, if_neg (by rw [htotal]; exact Nat.ne_of_gt hweight)]
  -- the candidates are in the order of the manifest already
  have hstay : sortByKey Candidate.recipient (payoutCandidates eligibility.entries
      (request.finalizedReturn.atomic + request.previousDust.atomic))
      = payoutCandidates eligibility.entries
        (request.finalizedReturn.atomic + request.previousDust.atomic) := by
    apply sortByKey_of_sorted
    rw [hcandidates, List.map_map]
    rw [← hsame, manifestHolders, List.map_map] at hsorted
    exact hsorted
  have hpayments : allocations.map Allocation.payment
      = (sortByKey Candidate.recipient (payoutCandidates eligibility.entries
          (request.finalizedReturn.atomic + request.previousDust.atomic))).map
        fun candidate => (⟨candidate.recipient, candidate.hkmnBalance.amountAtomic⟩,
          natText candidate.amountAtomic) := allocateCandidates_payments hallocations
  obtain ⟨-, -, -, hdustSame⟩ := createNativePayoutAmount_eq_ok.mp hdust
  rw [hstay, hcandidates, List.map_map] at hpayments
  refine ⟨copyPrincipalAmount_decimal hreturn, copyPrincipalAmount_decimal hcarry,
    hholders hsome, hsorted, ?_, ?_⟩
  · show allocations.map Allocation.payment = _
    rw [hpayments, ← htotal, ← hsame, manifestHolders, List.map_map]
    rfl
  · show dust.amountAtomic = _
    rw [hdustSame, hcandidates, ← htotal, ← hsame, manifestHolders, List.map_map, List.map_map]
    rfl

/-- A distribution lists what a plan pays: the allocations that are not zero, in their
order, and the same dust. -/
def SamePayments (d : ProRataDistribution) (plan : DirectPayoutPlan Summary Evidence) : Prop :=
  d.entries.map PayableEntry.payment
      = (plan.allocations.filter fun allocation =>
          allocation.amount.amountAtomic ≠ text "0").map Allocation.payment ∧
    d.entries.map PayableEntry.index = List.range d.entries.length ∧
    d.dust = plan.dust.amountAtomic

theorem natText_eq_zero {n : Nat} : natText n = text "0" ↔ n = 0 := by
  have hzero : natText 0 = text "0" := by decide
  rw [← hzero]
  exact natText_injective.eq_iff

/-- Shares that are left out are zero, so they are missing in no sum. -/
theorem sharesOf_sum (pool supply : Nat) (holders : List DirectBalance) :
    ((sharesOf pool supply holders).map Prod.snd).sum
      = (holders.map fun holder => holder.balance * pool / supply).sum := by
  induction holders with
  | nil => rfl
  | cons holder rest ih =>
    by_cases hzero : holder.balance * pool / supply = 0
    · rw [sharesOf_cons_zero hzero, ih, List.map_cons, List.sum_cons, hzero, Nat.zero_add]
    · rw [sharesOf_cons_pos hzero, List.map_cons, List.map_cons, List.sum_cons, List.sum_cons, ih]

/-- The shares are the allocations that are not zero. -/
theorem sharesOf_allocations {allocations : List Allocation} {pool supply : Nat} :
    ∀ {holders : List DirectBalance}, allocations.map Allocation.payment
        = holders.map (fun holder => (holder, natText (holder.balance * pool / supply))) →
      (allocations.filter fun allocation => allocation.amount.amountAtomic ≠ text "0").map
          Allocation.payment
        = (sharesOf pool supply holders).map fun payment => (payment.1, natText payment.2) := by
  induction allocations with
  | nil =>
    intro holders h
    have hnone : holders = [] := by simpa using h.symm
    subst hnone
    rfl
  | cons allocation rest ih =>
    intro holders h
    cases holders with
    | nil => simp at h
    | cons holder others =>
      rw [List.map_cons, List.map_cons, List.cons.injEq] at h
      obtain ⟨hfirst, hothers⟩ := h
      have hamount : allocation.amount.amountAtomic
          = natText (holder.balance * pool / supply) := congrArg Prod.snd hfirst
      by_cases hzero : holder.balance * pool / supply = 0
      · have hskip : ¬ allocation.amount.amountAtomic ≠ text "0" := by
          rw [hamount, not_not]
          exact natText_eq_zero.mpr hzero
        rw [sharesOf_cons_zero hzero, List.filter_cons_of_neg (by simpa using hskip), ih hothers]
      · have hkeep : allocation.amount.amountAtomic ≠ text "0" := by
          rw [hamount]
          exact fun h => hzero (natText_eq_zero.mp h)
        rw [sharesOf_cons_pos hzero, List.filter_cons_of_pos (by simpa using hkeep), List.map_cons,
          List.map_cons, ih hothers, hfirst]

/-- The two compilers agree on the holders of a plan, in whatever order. -/
theorem Allocates.agree {request : PlanRequest Summary Evidence}
    {plan : DirectPayoutPlan Summary Evidence} (h : Allocates request plan)
    {balances : List DirectBalance}
    (hperm : balances.Perm (manifestHolders request.eligibilityManifest.input.entries))
    {given : Option Text}
    (hgiven : given = none ∨ given = some (natText (balances.map DirectBalance.balance).sum)) :
    ∃ d, computeProRataDistribution {
        directBalances := balances
        proceedsAmount := request.finalizedReturn.amountAtomic
        previousDust := some request.previousDust.amountAtomic
        totalEligibleSupply := given } = .ok d ∧ SamePayments d plan := by
  have hholders := h.holders.perm hperm
  have hsupply : eligibleSupply given (balances.map DirectBalance.balance).sum
      = .ok (balances.map DirectBalance.balance).sum := by
    rcases hgiven with rfl | rfl
    · rfl
    · have hpositive : isPositiveDecimal (natText (balances.map DirectBalance.balance).sum) :=
        isPositiveDecimal_natText.mpr (Nat.ne_of_gt hholders.weight_pos)
      have hwide : ¬ textNat (natText (balances.map DirectBalance.balance).sum)
          < (balances.map DirectBalance.balance).sum := by
        rw [textNat_natText]
        exact lt_irrefl _
      rw [eligibleSupply, assertPositiveDecimal, throwIf_of_not (not_not.mpr hpositive), ok_bind,
        throwIf_of_not hwide, ok_bind, textNat_natText]
      rfl
  have hsorted : sortByKey DirectBalance.recipient balances
      = manifestHolders request.eligibilityManifest.input.entries := by
    rw [sortByKey_of_perm hperm hholders.distinct]
    exact sortByKey_of_sorted h.sorted
  have hsum : (balances.map DirectBalance.balance).sum
      = ((manifestHolders request.eligibilityManifest.input.entries).map
          DirectBalance.balance).sum := (hperm.map DirectBalance.balance).sum_eq
  obtain ⟨hpayments, hdust⟩ := h.allocated
  refine ⟨_, computeProRataDistribution_eq_ok.mpr
    ⟨hholders, h.returned, h.carried, _, hsupply, rfl⟩, ?_, ?_, ?_⟩
  · show ((payments _ _ balances).mapIdx paymentEntry).map PayableEntry.payment = _
    rw [sharesOf_allocations hpayments, payments, hsorted, hsum]
    exact map_mapIdx_of_forall fun _ _ => rfl
  · show ((payments _ _ balances).mapIdx paymentEntry).map PayableEntry.index = _
    rw [map_mapIdx_number (f := paymentEntry) fun _ _ => rfl, List.length_mapIdx]
  · show natText (_ - ((payments _ _ balances).map Prod.snd).sum) = _
    rw [hdust, payments, hsorted, sharesOf_sum, hsum]
    rfl

/-- **The pro-rata compilers agree.** For the holders of a plan, in any order, the
distribution lists the allocations that are not zero, with the same amounts in the same
order, and leaves the same dust. A distribution does not depend on the order of the
balances. Its entries are cut into chunks that hold each of them once, in order, unless
there is no entry or there are more than the chunks can hold. -/
theorem pro_rata_compilers_agree (env : PlanEnvironment Summary Evidence) :
    (∀ request plan balances given, compileDirectPayoutPlan env request = .ok plan →
      balances ≠ [] →
      balances.Perm (manifestHolders request.eligibilityManifest.input.entries) →
      (given = none ∨ given = some (natText (balances.map DirectBalance.balance).sum)) →
      ∃ d, computeProRataDistribution {
          directBalances := balances
          proceedsAmount := request.finalizedReturn.amountAtomic
          previousDust := some request.previousDust.amountAtomic
          totalEligibleSupply := given } = .ok d ∧ SamePayments d plan) ∧
    (∀ input d balances, computeProRataDistribution input = .ok d →
      balances.Perm input.directBalances →
      computeProRataDistribution { input with directBalances := balances } = .ok d) ∧
    (∀ input d (limit : Nat), computeProRataDistribution input = .ok d → 1 ≤ limit →
      limit ≤ chunkEntryLimitMax →
      ((∃ message, chunkProRataEntries d.entries limit = .error message) ↔
        d.entries = [] ∨ maxChunksPerDistribution * limit < d.entries.length) ∧
      ∀ made, chunkProRataEntries d.entries limit = .ok made →
        Partitions d.entries limit made ∧ made.totalLiability = d.totalAmountAtomicUSDG) := by
  refine ⟨?_, ?_, ?_⟩
  · intro request plan balances given hplan hsome hperm hgiven
    have hentries : request.eligibilityManifest.input.entries ≠ [] := by
      intro hnil
      rw [hnil] at hperm
      exact hsome hperm.eq_nil
    exact (compileDirectPayoutPlan_allocates hplan hentries).agree hperm hgiven
  · intro input d balances h hperm
    exact computeProRataDistribution_perm h hperm
  · intro input d limit h hlimit hmax
    obtain ⟨hpayable, htotal⟩ := distribution_entries h
    have hneeded := slicesNeeded_le_iff d.entries.length maxChunksPerDistribution hlimit
    constructor
    · cases hmade : chunkProRataEntries d.entries limit with
      | error message =>
        refine iff_of_true ⟨message, rfl⟩ ?_
        by_contra hnone
        rw [not_or, Nat.not_lt, ← hneeded] at hnone
        have hok := (chunkProRataEntries_eq_ok hpayable hlimit hmax).mpr ⟨hnone.1, hnone.2, rfl⟩
        rw [hmade] at hok
        cases hok
      | ok made =>
        obtain ⟨hne, hfew, -⟩ := (chunkProRataEntries_eq_ok hpayable hlimit hmax).mp hmade
        refine iff_of_false (by simp) ?_
        rw [not_or, Nat.not_lt]
        exact ⟨hne, hneeded.mp hfew⟩
    · intro made hmade
      obtain ⟨-, hfew, rfl⟩ := (chunkProRataEntries_eq_ok hpayable hlimit hmax).mp hmade
      have hpartitions := partitions_of_slices hlimit hfew
      refine ⟨hpartitions, hpartitions.liability.trans ?_⟩
      rw [htotal]
      obtain ⟨-, -, -, supply, -, hd⟩ := computeProRataDistribution_eq_ok.mp h
      subst hd
      exact congrArg natText (textNat_natText _)

end

/-! ## Two holders, a pool and no pool -/

def sampleBalances : List DirectBalance := (manifestHolders sampleHolders).reverse

/-- Without a payable entry no chunk is needed, and the cut is refused; without a holder
the plan is compiled, and the distribution is refused. -/
theorem nothing_to_chunk :
    (∃ d, computeProRataDistribution ⟨sampleBalances, text "0", none, none⟩ = .ok d ∧
      slicesNeeded d.entries.length 1024 ≤ 64 ∧
      chunkProRataEntries d.entries 1024
        = .error "pro-rata chunk entries must be a nonempty array") ∧
    (∃ plan, compileDirectPayoutPlan sampleEnvironment
        (sampleRequest "cycle-1" [] "5" "0" none) = .ok plan) ∧
    computeProRataDistribution ⟨[], text "5", none, none⟩
      = .error "pro-rata direct balances must be a nonempty array" := by
  refine ⟨?_, ?_, by decide +kernel⟩
  · obtain ⟨d, hd, hnone⟩ := exists_ok_of_check
      (x := computeProRataDistribution ⟨sampleBalances, text "0", none, none⟩)
      (p := fun d => d.entries = []) (by decide +kernel)
    have hentries : d.entries = [] := of_decide_eq_true hnone
    refine ⟨d, hd, ?_, ?_⟩
    · rw [hentries]
      decide
    · rw [hentries]
      decide +kernel
  · obtain ⟨plan, hplan, -⟩ := exists_ok_of_check
      (x := compileDirectPayoutPlan sampleEnvironment (sampleRequest "cycle-1" [] "5" "0" none))
      (p := fun _ => true) (by decide +kernel)
    exact ⟨plan, hplan⟩

theorem pro_rata_compilers_agree_sample :
    ∃ plan d made, compileDirectPayoutPlan sampleEnvironment
        (sampleRequest "cycle-1" sampleHolders "1001" "0" none) = .ok plan ∧
      SamePayments d plan ∧ chunkProRataEntries d.entries (1 : Nat) = .ok made ∧
      Partitions d.entries 1 made := by
  obtain ⟨hagree, -, hchunks⟩ := pro_rata_compilers_agree sampleEnvironment
  obtain ⟨plan, hplan, -⟩ := exists_ok_of_check
    (x := compileDirectPayoutPlan sampleEnvironment
      (sampleRequest "cycle-1" sampleHolders "1001" "0" none))
    (p := fun _ => true) (by decide +kernel)
  obtain ⟨d, hd, hsame⟩ := hagree _ plan sampleBalances none hplan (by decide)
    (List.reverse_perm _) (Or.inl rfl)
  obtain ⟨hthrows, hpartitions⟩ := hchunks _ d 1 hd (by decide) (by decide)
  have hcount : d.entries.length = 2 := by
    have hmade := congrArg (fun x => x.toOption.map fun d => d.entries.length) hd
    exact Option.some.inj (hmade.symm.trans (by decide +kernel))
  cases hmade : chunkProRataEntries d.entries (1 : Nat) with
  | error message =>
    rcases hthrows.mp ⟨message, hmade⟩ with hnone | hmany
    · rw [hnone] at hcount
      cases hcount
    · rw [hcount] at hmany
      exact absurd hmany (by decide)
  | ok made => exact ⟨plan, d, made, hplan, hsame, hmade, (hpartitions made hmade).1⟩

end Hookemon.Runner
