import Hookemon.Core.Allotment
import Hookemon.Contracts.CanonicalMerkleSum
import Hookemon.Contracts.FeeAccounting
import Hookemon.Contracts.PegCycleAuthorization

/-! # The commitment to a payout (`payout/PayoutCommitment.sol`)

A funded payout is committed to in chunks. A chunk may be committed again as long
as the manifest is open; the manifest closes when the chunks add up to exactly
what was funded. Until then the chunks are an open allotment of the funded sum, in
the sense of `Hookemon.Core.Allots`, and a commit is one assignment of it.
-/

namespace Hookemon.Contracts

open Hookemon.Core

abbrev maxChunksPerPayout : Nat := 64

abbrev uint16Max : Nat := 2 ^ 16 - 1

/-! ## Storage -/

/-- The storage of `PayoutCommitment`, over that of the ledger. -/
structure PayoutCommitment extends PayoutBook where
  committedChunkSum : Bytes32 → Nat
  committedChunkCount : Bytes32 → Nat
  fees : FeeLedger

namespace PayoutRecord

/-- The value of a mapping that was never written. -/
def none : PayoutRecord := ⟨0, 0, 0, 0, 0, 0, 0, 0, false⟩

end PayoutRecord

namespace PayoutChunk

/-- The value of a mapping that was never written. -/
def none : PayoutChunk := ⟨0, 0, false⟩

/-- What a chunk stands for in the committed sum. -/
def committedSum (chunk : PayoutChunk) : Nat :=
  if chunk.committed then chunk.rootSum.toNat else 0

/-- The chunk with the same root hash that stands for nothing. -/
def emptied (chunk : PayoutChunk) : PayoutChunk :=
  if chunk.committed then ⟨chunk.rootHash, 0, true⟩ else chunk

theorem committedSum_emptied (chunk : PayoutChunk) : chunk.emptied.committedSum = 0 := by
  by_cases hcommitted : chunk.committed = true
  · simp [emptied, committedSum, hcommitted]
  · simp [emptied, committedSum, hcommitted]

theorem emptied_of_committedSum {chunk : PayoutChunk} (h : chunk.committedSum = 0) :
    chunk.emptied = chunk := by
  cases chunk with
  | mk rootHash rootSum committed =>
    cases committed with
    | true =>
      have hzero : rootSum = 0 := BitVec.eq_of_toNat_eq (by simpa [committedSum] using h)
      rw [hzero]
      rfl
    | false => rfl

end PayoutChunk

namespace PayoutCommitment

/-- The storage of a new contract. -/
def initial : PayoutCommitment where
  payouts := fun _ => .none
  payoutChunks := fun _ _ => .none
  manifestClosed := fun _ => false
  committedChunkSum := fun _ => 0
  committedChunkCount := fun _ => 0
  fees := .initial

/-- The sum of the committed chunks of a payout. -/
def chunkTotal (s : PayoutCommitment) (payoutId : Bytes32) : Nat :=
  ∑ i, (s.payoutChunks payoutId i).committedSum

/-- The chunks of a payout that are committed. -/
def committedIndices (s : PayoutCommitment) (payoutId : Bytes32) : Finset (BitVec 16) :=
  Finset.univ.filter fun i => (s.payoutChunks payoutId i).committed = true

end PayoutCommitment

/-! ## Functions -/

/-- What `fundPayoutFromPegCycle` reads and is answered: the balance of the hook
before the call of the vault, the vault's answer, and the balance after it, as the
function itself and the two solvency checks read it. -/
structure FundingAnswers where
  hookBalanceBefore : Nat
  operationsTrigger : Address
  hookBalanceAfter : Nat
  creditBalance : Nat
  finalBalance : Nat
deriving DecidableEq, Repr

/-- The record of a payout that was just funded. -/
def fundedRecord (authorization : PayoutAuthorization) (operationsTrigger : Address) :
    PayoutRecord where
  cycleId := authorization.cycleId
  operationsTrigger := operationsTrigger
  payoutId := authorization.payoutId
  manifestDigest := authorization.manifestDigest
  rootHash := authorization.rootHash
  rootSum := authorization.rootSum
  paidTotal := 0
  unpaidTotal := authorization.rootSum
  funded := true

/-- `fundPayoutFromPegCycle` up to the call of the vault. -/
def beginFunding (authorization : PayoutAuthorization) (s : PayoutCommitment) :
    Run PayoutCommitment := do
  let fees ← enterMoneyPath s.fees
  revertIf ((s.payouts authorization.payoutId).funded = true) .payoutAlreadyFunded
  pure { s with fees := fees }

/-- `fundPayoutFromPegCycle` from the return of the vault on. -/
def finishFunding (authorization : PayoutAuthorization) (answers : FundingAnswers)
    (s : PayoutCommitment) : Run (PayoutRecord × PayoutCommitment) := do
  revertIf (answers.hookBalanceAfter < answers.hookBalanceBefore ∨
      answers.hookBalanceAfter - answers.hookBalanceBefore ≠ authorization.rootSum.toNat)
    .payoutBalanceDeltaMismatch
  let record := fundedRecord authorization answers.operationsTrigger
  let s := { s with payouts := Function.update s.payouts authorization.payoutId record }
  let fees ← creditPayoutLiability authorization.payoutId authorization.rootSum.toNat
    answers.creditBalance s.fees
  requireSolventAt answers.finalBalance fees
  pure (record, { s with fees := leaveMoneyPath fees })

/-- The first half of the accounting of `commitPayoutChunk`: the running sum without
what the chunk stood for, and the count with the chunk. -/
def withoutChunk (s : PayoutCommitment) (payoutId : Bytes32) (chunkIndex : BitVec 16) :
    Run (Nat × Nat) :=
  let chunk := s.payoutChunks payoutId chunkIndex
  if chunk.committed = true then do
    let runningSum ← subU256 (s.committedChunkSum payoutId) chunk.rootSum.toNat
    pure (runningSum, s.committedChunkCount payoutId)
  else do
    let count ← checkedAdd uint16Max .arithmeticPanic (s.committedChunkCount payoutId) 1
    pure (s.committedChunkSum payoutId, count)

/-- `commitPayoutChunk`, with the authorizer that the vault names. -/
def commitPayoutChunk (authorizer msgSender : Address) (payoutId : Bytes32)
    (chunkIndex : BitVec 16) (rootHash : Bytes32) (rootSum : BitVec 256) (s : PayoutCommitment) :
    Run PayoutCommitment := do
  let payout := s.payouts payoutId
  revertIf (payout.funded = false) .payoutNotFunded
  revertIf (msgSender ≠ authorizer) .unauthorizedChunkCommitter
  revertIf (s.manifestClosed payoutId = true) .payoutManifestAlreadyClosed
  revertIf (maxChunksPerPayout ≤ chunkIndex.toNat) .payoutChunkIndexOutOfRange
  let (runningSum, count) ← withoutChunk s payoutId chunkIndex
  revertIf (payout.rootSum.toNat < rootSum.toNat ∨
    payout.rootSum.toNat - rootSum.toNat < runningSum) .payoutChunkSumExceedsLiability
  let runningSum ← addU256 runningSum rootSum.toNat
  pure { s with
    payoutChunks := Function.update s.payoutChunks payoutId
      (Function.update (s.payoutChunks payoutId) chunkIndex ⟨rootHash, rootSum, true⟩)
    committedChunkSum := Function.update s.committedChunkSum payoutId runningSum
    committedChunkCount := Function.update s.committedChunkCount payoutId count
    manifestClosed :=
      if runningSum = payout.rootSum.toNat then Function.update s.manifestClosed payoutId true
      else s.manifestClosed }

/-- `_consumePayoutEntitlement`. -/
def consumePayoutEntitlement (payoutId : Bytes32) (amount : BitVec 256) (balance : Nat)
    (s : PayoutCommitment) : Run PayoutCommitment := do
  let payout := s.payouts payoutId
  revertIf (payout.funded = false ∨ amount = 0 ∨ payout.unpaidTotal < amount)
    .insufficientPayoutLiability
  let unpaidTotal ← subU256 payout.unpaidTotal.toNat amount.toNat
  let paidTotal ← addU256 payout.paidTotal.toNat amount.toNat
  let fees ← debitPayoutLiability payoutId amount.toNat balance s.fees
  pure { s with
    payouts := Function.update s.payouts payoutId { payout with
      unpaidTotal := BitVec.ofNat 256 unpaidTotal
      paidTotal := BitVec.ofNat 256 paidTotal }
    fees := fees }

/-! ## The books of a payout -/

/-- What holds of a payout at any time: the running sum and the count are those of
the chunks, the manifest is closed when the sum has reached what was funded, what
was paid and what is unpaid make up what was funded, and only a closed manifest is
paid from. -/
structure PayoutBooks (s : PayoutCommitment) (payoutId : Bytes32) : Prop where
  sum : s.committedChunkSum payoutId = s.chunkTotal payoutId
  count : s.committedChunkCount payoutId = (s.committedIndices payoutId).card
  indices : ∀ i, (s.payoutChunks payoutId i).committed = true → i.toNat < maxChunksPerPayout
  bounded : s.chunkTotal payoutId ≤ (s.payouts payoutId).rootSum.toNat
  closed : s.manifestClosed payoutId = true ↔
    (s.payouts payoutId).funded = true ∧
      s.chunkTotal payoutId = (s.payouts payoutId).rootSum.toNat
  conserved : (s.payouts payoutId).paidTotal.toNat + (s.payouts payoutId).unpaidTotal.toNat =
    (s.payouts payoutId).rootSum.toNat
  liability : s.fees.payoutLiabilities payoutId = (s.payouts payoutId).unpaidTotal.toNat
  paid : (s.payouts payoutId).paidTotal ≠ 0 → s.manifestClosed payoutId = true
  unfunded : (s.payouts payoutId).funded = false →
    s.payouts payoutId = .none ∧ s.payoutChunks payoutId = fun _ => .none

theorem payoutBooks_initial (payoutId : Bytes32) : PayoutBooks .initial payoutId := by
  have hcommitted : PayoutCommitment.initial.committedIndices payoutId = ∅ := by
    refine Finset.filter_eq_empty_iff.mpr ?_
    intro i _
    simp [PayoutCommitment.initial, PayoutChunk.none]
  have htotal : PayoutCommitment.initial.chunkTotal payoutId = 0 :=
    Finset.sum_eq_zero fun _ _ => rfl
  constructor
  · rw [htotal]
    rfl
  · rw [hcommitted]
    rfl
  · intro i hi
    simp [PayoutCommitment.initial, PayoutChunk.none] at hi
  · rw [htotal]
    exact Nat.zero_le _
  · simp [PayoutCommitment.initial, PayoutRecord.none]
  · rfl
  · rfl
  · intro hpaid
    exact absurd rfl hpaid
  · intro _
    exact ⟨rfl, rfl⟩

/-- The books of a payout look at nothing but the entries of the payout. -/
theorem PayoutBooks.congr {s s' : PayoutCommitment} {payoutId : Bytes32}
    (h : PayoutBooks s payoutId) (hpayout : s'.payouts payoutId = s.payouts payoutId)
    (hchunks : s'.payoutChunks payoutId = s.payoutChunks payoutId)
    (hclosed : s'.manifestClosed payoutId = s.manifestClosed payoutId)
    (hsum : s'.committedChunkSum payoutId = s.committedChunkSum payoutId)
    (hcount : s'.committedChunkCount payoutId = s.committedChunkCount payoutId)
    (hliability : s'.fees.payoutLiabilities payoutId = s.fees.payoutLiabilities payoutId) :
    PayoutBooks s' payoutId := by
  have htotal : s'.chunkTotal payoutId = s.chunkTotal payoutId := by
    rw [PayoutCommitment.chunkTotal, PayoutCommitment.chunkTotal, hchunks]
  have hindices : s'.committedIndices payoutId = s.committedIndices payoutId := by
    rw [PayoutCommitment.committedIndices, PayoutCommitment.committedIndices, hchunks]
  constructor
  · rw [hsum, htotal]
    exact h.sum
  · rw [hcount, hindices]
    exact h.count
  · rw [hchunks]
    exact h.indices
  · rw [htotal, hpayout]
    exact h.bounded
  · rw [hclosed, hpayout, htotal]
    exact h.closed
  · rw [hpayout]
    exact h.conserved
  · rw [hliability, hpayout]
    exact h.liability
  · rw [hpayout, hclosed]
    exact h.paid
  · rw [hpayout, hchunks]
    exact h.unfunded

/-! ## What the functions do -/

theorem beginFunding_eq_ok {authorization : PayoutAuthorization} {s s' : PayoutCommitment}
    (h : beginFunding authorization s = .ok s') :
    s.fees.moneyPathEntered = false ∧ (s.payouts authorization.payoutId).funded = false ∧
      s' = { s with fees := { s.fees with moneyPathEntered := true } } := by
  simp only [beginFunding, enterMoneyPath, bind_eq_ok, revertIf_eq_ok, pure_eq_ok] at h
  rcases h with ⟨_, ⟨_, hfree, rfl⟩, _, hfresh, rfl⟩
  exact ⟨by simpa using hfree, by simpa using hfresh, rfl⟩

theorem finishFunding_eq_ok {authorization : PayoutAuthorization} {answers : FundingAnswers}
    {s s' : PayoutCommitment} {record : PayoutRecord}
    (h : finishFunding authorization answers s = .ok (record, s')) :
    0 < authorization.rootSum.toNat ∧
      s'.payouts = Function.update s.payouts authorization.payoutId
        (fundedRecord authorization answers.operationsTrigger) ∧
      s'.payoutChunks = s.payoutChunks ∧ s'.manifestClosed = s.manifestClosed ∧
      s'.committedChunkSum = s.committedChunkSum ∧
      s'.committedChunkCount = s.committedChunkCount ∧
      s'.fees.payoutLiabilities = Function.update s.fees.payoutLiabilities authorization.payoutId
        (s.fees.payoutLiabilities authorization.payoutId + authorization.rootSum.toNat) := by
  simp only [finishFunding, requireSolventAt, bind_eq_ok, revertIf_eq_ok, pure_eq_ok,
    Prod.mk.injEq] at h
  rcases h with ⟨_, _, fees, hcredit, _, _, -, rfl⟩
  rcases creditPayoutLiability_eq_ok hcredit with ⟨-, -, hpositive, rfl⟩
  exact ⟨hpositive, rfl, rfl, rfl, rfl, rfl, rfl⟩

/-- What a successful commit checks, and what it leaves. The running sum loses what
the chunk stood for before and gains what it stands for now. -/
structure Commits (authorizer msgSender : Address) (payoutId : Bytes32) (chunkIndex : BitVec 16)
    (rootHash : Bytes32) (rootSum : BitVec 256) (s s' : PayoutCommitment) : Prop where
  funded : (s.payouts payoutId).funded = true
  authorized : msgSender = authorizer
  opened : s.manifestClosed payoutId = false
  inRange : chunkIndex.toNat < maxChunksPerPayout
  sum : s'.committedChunkSum payoutId + (s.payoutChunks payoutId chunkIndex).committedSum =
    s.committedChunkSum payoutId + rootSum.toNat
  bounded : s'.committedChunkSum payoutId ≤ (s.payouts payoutId).rootSum.toNat
  count : s'.committedChunkCount payoutId = s.committedChunkCount payoutId +
    if (s.payoutChunks payoutId chunkIndex).committed = true then 0 else 1
  closed : s'.manifestClosed payoutId = true ↔
    s'.committedChunkSum payoutId = (s.payouts payoutId).rootSum.toNat
  chunks : s'.payoutChunks payoutId =
    Function.update (s.payoutChunks payoutId) chunkIndex ⟨rootHash, rootSum, true⟩
  payouts : s'.payouts = s.payouts
  fees : s'.fees = s.fees
  others : ∀ p ≠ payoutId, s'.payoutChunks p = s.payoutChunks p ∧
    s'.manifestClosed p = s.manifestClosed p ∧
    s'.committedChunkSum p = s.committedChunkSum p ∧
    s'.committedChunkCount p = s.committedChunkCount p

theorem withoutChunk_eq_ok {s : PayoutCommitment} {payoutId : Bytes32} {chunkIndex : BitVec 16}
    {running count : Nat} (h : withoutChunk s payoutId chunkIndex = .ok (running, count)) :
    running + (s.payoutChunks payoutId chunkIndex).committedSum = s.committedChunkSum payoutId ∧
      count = s.committedChunkCount payoutId +
        if (s.payoutChunks payoutId chunkIndex).committed = true then 0 else 1 := by
  unfold withoutChunk at h
  by_cases hcommitted : (s.payoutChunks payoutId chunkIndex).committed = true
  · simp only [if_pos hcommitted, bind_eq_ok, checkedSub_eq_ok, pure_eq_ok, Prod.mk.injEq] at h
    rcases h with ⟨_, ⟨hle, rfl⟩, rfl, rfl⟩
    rw [PayoutChunk.committedSum, if_pos hcommitted, if_pos hcommitted]
    omega
  · simp only [if_neg hcommitted, bind_eq_ok, checkedAdd_eq_ok, pure_eq_ok, Prod.mk.injEq] at h
    rcases h with ⟨_, ⟨_, rfl⟩, rfl, rfl⟩
    rw [PayoutChunk.committedSum, if_neg hcommitted, if_neg hcommitted]
    omega

theorem commitPayoutChunk_eq_ok {authorizer msgSender : Address} {payoutId : Bytes32}
    {chunkIndex : BitVec 16} {rootHash : Bytes32} {rootSum : BitVec 256}
    {s s' : PayoutCommitment}
    (h : commitPayoutChunk authorizer msgSender payoutId chunkIndex rootHash rootSum s = .ok s') :
    Commits authorizer msgSender payoutId chunkIndex rootHash rootSum s s' := by
  simp only [commitPayoutChunk, bind_eq_ok, revertIf_eq_ok, pure_eq_ok, checkedAdd_eq_ok] at h
  rcases h with ⟨_, hfunded, _, hsender, _, hopen, _, hrange, ⟨running, count⟩, hrunning, _,
    hfits, sum, ⟨_, rfl⟩, hs'⟩
  rcases withoutChunk_eq_ok hrunning with ⟨hwithout, hcount⟩
  push Not at hfits
  dsimp only at hfits hs'
  have hsum : s'.committedChunkSum payoutId = running + rootSum.toNat := by
    rw [← hs']
    exact Function.update_self ..
  constructor
  · simpa using hfunded
  · simpa using hsender
  · simpa using hopen
  · exact Nat.lt_of_not_le hrange
  · omega
  · omega
  · rw [← hcount, ← hs']
    exact Function.update_self ..
  · rw [hsum, ← hs']
    by_cases hreached : running + rootSum.toNat = (s.payouts payoutId).rootSum.toNat
    · simp [hreached]
    · simpa [hreached] using hopen
  · rw [← hs']
    exact Function.update_self ..
  · rw [← hs']
  · rw [← hs']
  · intro p hp
    rw [← hs']
    refine ⟨Function.update_of_ne hp .., ?_, Function.update_of_ne hp .., Function.update_of_ne hp ..⟩
    by_cases hreached : running + rootSum.toNat = (s.payouts payoutId).rootSum.toNat
    · simp [hreached, Function.update_of_ne hp]
    · simp [hreached]

theorem Commits.chunkTotal {authorizer msgSender : Address} {payoutId : Bytes32}
    {chunkIndex : BitVec 16} {rootHash : Bytes32} {rootSum : BitVec 256}
    {s s' : PayoutCommitment}
    (h : Commits authorizer msgSender payoutId chunkIndex rootHash rootSum s s') :
    s'.chunkTotal payoutId + (s.payoutChunks payoutId chunkIndex).committedSum =
      s.chunkTotal payoutId + rootSum.toNat := by
  have hupdate := total_update PayoutChunk.committedSum (s.payoutChunks payoutId)
    chunkIndex ⟨rootHash, rootSum, true⟩
  rw [← h.chunks] at hupdate
  exact hupdate

/-- The committed indices grow by the index of the chunk, if it is new. -/
theorem Commits.committedIndices {authorizer msgSender : Address} {payoutId : Bytes32}
    {chunkIndex : BitVec 16} {rootHash : Bytes32} {rootSum : BitVec 256}
    {s s' : PayoutCommitment}
    (h : Commits authorizer msgSender payoutId chunkIndex rootHash rootSum s s') :
    s'.committedIndices payoutId = insert chunkIndex (s.committedIndices payoutId) := by
  ext i
  rw [Finset.mem_insert, PayoutCommitment.committedIndices, PayoutCommitment.committedIndices,
    Finset.mem_filter, Finset.mem_filter, h.chunks]
  by_cases hi : i = chunkIndex
  · simp [hi]
  · simp [hi]

/-- A commit keeps the books of every payout. -/
theorem PayoutBooks.commit {authorizer msgSender : Address} {payoutId : Bytes32}
    {chunkIndex : BitVec 16} {rootHash : Bytes32} {rootSum : BitVec 256}
    {s s' : PayoutCommitment}
    (h : Commits authorizer msgSender payoutId chunkIndex rootHash rootSum s s') {p : Bytes32}
    (hbooks : PayoutBooks s p) : PayoutBooks s' p := by
  by_cases hp : p = payoutId
  · subst hp
    have htotal := h.chunkTotal
    have hsum := h.sum
    have hsame : s'.committedChunkSum p = s'.chunkTotal p := by
      have hbefore := hbooks.sum
      omega
    constructor
    · exact hsame
    · rw [h.count, h.committedIndices, hbooks.count]
      by_cases hcommitted : (s.payoutChunks p chunkIndex).committed = true
      · have hmem : chunkIndex ∈ s.committedIndices p :=
          Finset.mem_filter.mpr ⟨Finset.mem_univ _, hcommitted⟩
        rw [if_pos hcommitted, Finset.insert_eq_of_mem hmem, Nat.add_zero]
      · have hnew : chunkIndex ∉ s.committedIndices p := by
          intro hmem
          exact hcommitted (Finset.mem_filter.mp hmem).2
        rw [if_neg hcommitted, Finset.card_insert_of_notMem hnew]
    · intro i hi
      rw [h.chunks] at hi
      by_cases hindex : i = chunkIndex
      · rw [hindex]
        exact h.inRange
      · rw [Function.update_of_ne hindex] at hi
        exact hbooks.indices i hi
    · rw [← hsame, h.payouts]
      exact h.bounded
    · rw [h.closed, hsame, h.payouts]
      simp [h.funded]
    · rw [h.payouts]
      exact hbooks.conserved
    · rw [h.fees, h.payouts]
      exact hbooks.liability
    · intro hpaid
      rw [h.payouts] at hpaid
      -- an open manifest was never paid from
      have hclosed := hbooks.paid hpaid
      rw [h.opened] at hclosed
      exact absurd hclosed (by decide)
    · intro hunfunded
      rw [h.payouts, h.funded] at hunfunded
      exact absurd hunfunded (by decide)
  · rcases h.others p hp with ⟨hchunks, hclosed, hsum, hcount⟩
    exact hbooks.congr (by rw [h.payouts]) hchunks hclosed hsum hcount (by rw [h.fees])

/-- Funding a payout that was never funded opens its books. -/
theorem PayoutBooks.fund {authorization : PayoutAuthorization} {answers : FundingAnswers}
    {s s' : PayoutCommitment} {record : PayoutRecord}
    (h : finishFunding authorization answers s = .ok (record, s'))
    (hfresh : (s.payouts authorization.payoutId).funded = false)
    {p : Bytes32} (hbooks : PayoutBooks s p) : PayoutBooks s' p := by
  rcases finishFunding_eq_ok h with
    ⟨hpositive, hpayouts, hchunks, hclosed, hsum, hcount, hliabilities⟩
  by_cases hp : p = authorization.payoutId
  · subst hp
    rcases hbooks.unfunded hfresh with ⟨hnone, hnoChunks⟩
    have hpayout : s'.payouts authorization.payoutId =
        fundedRecord authorization answers.operationsTrigger := by
      rw [hpayouts, Function.update_self]
    have htotal : s'.chunkTotal authorization.payoutId = 0 := by
      rw [PayoutCommitment.chunkTotal, hchunks, hnoChunks]
      exact Finset.sum_eq_zero fun _ _ => rfl
    have htotal₀ : s.chunkTotal authorization.payoutId = 0 := by
      rw [PayoutCommitment.chunkTotal, hnoChunks]
      exact Finset.sum_eq_zero fun _ _ => rfl
    have hopen : s.manifestClosed authorization.payoutId = false := by
      by_contra hnot
      have hfunded := (hbooks.closed.mp (by simpa using hnot)).1
      rw [hfresh] at hfunded
      exact absurd hfunded (by decide)
    constructor
    · rw [hsum, htotal, hbooks.sum, htotal₀]
    · rw [hcount, hbooks.count, PayoutCommitment.committedIndices,
        PayoutCommitment.committedIndices, hchunks]
    · rw [hchunks]
      exact hbooks.indices
    · rw [htotal]
      exact Nat.zero_le _
    · -- nothing is committed yet, and what was funded is not nothing
      rw [hclosed, hopen, htotal, hpayout]
      show false = true ↔ true = true ∧ 0 = authorization.rootSum.toNat
      simp only [Bool.false_eq_true, true_and, false_iff]
      omega
    · rw [hpayout]
      show (0 : BitVec 256).toNat + authorization.rootSum.toNat = authorization.rootSum.toNat
      simp
    · have hliability := hbooks.liability
      rw [hnone] at hliability
      rw [hliabilities, Function.update_self, hliability, hpayout]
      show (0 : BitVec 256).toNat + authorization.rootSum.toNat = authorization.rootSum.toNat
      simp
    · intro hpaid
      rw [hpayout] at hpaid
      exact absurd rfl hpaid
    · intro hunfunded
      rw [hpayout] at hunfunded
      exact nomatch hunfunded
  · exact hbooks.congr (by rw [hpayouts, Function.update_of_ne hp]) (by rw [hchunks])
      (by rw [hclosed]) (by rw [hsum]) (by rw [hcount])
      (by rw [hliabilities, Function.update_of_ne hp])

theorem consumePayoutEntitlement_eq_ok {payoutId : Bytes32} {amount : BitVec 256} {balance : Nat}
    {s s' : PayoutCommitment} (h : consumePayoutEntitlement payoutId amount balance s = .ok s') :
    s.fees.moneyPathEntered = true ∧ (s.payouts payoutId).funded = true ∧
      amount.toNat ≤ (s.payouts payoutId).unpaidTotal.toNat ∧
      (∃ payout : PayoutRecord, s'.payouts = Function.update s.payouts payoutId payout ∧
        payout.funded = true ∧ payout.rootSum = (s.payouts payoutId).rootSum ∧
        payout.unpaidTotal.toNat = (s.payouts payoutId).unpaidTotal.toNat - amount.toNat ∧
        payout.paidTotal.toNat = (s.payouts payoutId).paidTotal.toNat + amount.toNat) ∧
      s'.payoutChunks = s.payoutChunks ∧ s'.manifestClosed = s.manifestClosed ∧
      s'.committedChunkSum = s.committedChunkSum ∧
      s'.committedChunkCount = s.committedChunkCount ∧
      s'.fees.payoutLiabilities = Function.update s.fees.payoutLiabilities payoutId
        (s.fees.payoutLiabilities payoutId - amount.toNat) ∧
      s'.fees.moneyPathEntered = true := by
  simp only [consumePayoutEntitlement, bind_eq_ok, revertIf_eq_ok, pure_eq_ok, checkedAdd_eq_ok,
    checkedSub_eq_ok] at h
  rcases h with ⟨_, hguard, _, ⟨hle, rfl⟩, _, ⟨hmax, rfl⟩, fees, hdebit, rfl⟩
  rcases debitPayoutLiability_eq_ok hdebit with ⟨hentered, -, -, rfl⟩
  push Not at hguard
  have hfunded : (s.payouts payoutId).funded = true := by simpa using hguard.1
  have hword := (s.payouts payoutId).unpaidTotal.isLt
  have hlargest : uint256Max < 2 ^ 256 := by decide
  refine ⟨hentered, hfunded, hle, ⟨_, rfl, hfunded, rfl, ?_, ?_⟩, rfl, rfl, rfl, rfl, rfl, hentered⟩
  · rw [BitVec.toNat_ofNat]
    exact Nat.mod_eq_of_lt (by omega)
  · rw [BitVec.toNat_ofNat]
    exact Nat.mod_eq_of_lt (by omega)

/-- Paying from a closed manifest keeps the books of every payout. -/
theorem PayoutBooks.pay {payoutId : Bytes32} {amount : BitVec 256} {balance : Nat}
    {s s' : PayoutCommitment} (h : consumePayoutEntitlement payoutId amount balance s = .ok s')
    (hclosed : s.manifestClosed payoutId = true) {p : Bytes32} (hbooks : PayoutBooks s p) :
    PayoutBooks s' p := by
  rcases consumePayoutEntitlement_eq_ok h with ⟨-, hfunded, hamount,
    ⟨payout, hpayouts, hstill, hroot, hunpaid, hpaid⟩, hchunks, hclosed', hsum, hcount,
    hliabilities, -⟩
  by_cases hp : p = payoutId
  · subst hp
    have hpayout : s'.payouts p = payout := by
      rw [hpayouts, Function.update_self]
    have htotal : s'.chunkTotal p = s.chunkTotal p := by
      rw [PayoutCommitment.chunkTotal, PayoutCommitment.chunkTotal, hchunks]
    have hconserved := hbooks.conserved
    have hliability := hbooks.liability
    constructor
    · rw [hsum, htotal]
      exact hbooks.sum
    · rw [hcount, hbooks.count, PayoutCommitment.committedIndices,
        PayoutCommitment.committedIndices, hchunks]
    · rw [hchunks]
      exact hbooks.indices
    · rw [htotal, hpayout, hroot]
      exact hbooks.bounded
    · rw [hclosed', htotal, hpayout, hroot, hstill, hbooks.closed, hfunded]
    · rw [hpayout, hroot]
      omega
    · rw [hliabilities, Function.update_self, hpayout, hunpaid, hliability]
    · intro _
      rw [hclosed']
      exact hclosed
    · intro hunfunded
      rw [hpayout, hstill] at hunfunded
      exact absurd hunfunded (by decide)
  · exact hbooks.congr (by rw [hpayouts, Function.update_of_ne hp]) (by rw [hchunks])
      (by rw [hclosed']) (by rw [hsum]) (by rw [hcount])
      (by rw [hliabilities, Function.update_of_ne hp])

/-! ## Closing a manifest -/

theorem card_committedIndices_le {s : PayoutCommitment} {payoutId : Bytes32}
    (h : PayoutBooks s payoutId) : (s.committedIndices payoutId).card ≤ maxChunksPerPayout := by
  have hsubset : s.committedIndices payoutId ⊆
      (Finset.range maxChunksPerPayout).image (BitVec.ofNat 16) := by
    intro i hi
    have hlt := h.indices i (Finset.mem_filter.mp hi).2
    exact Finset.mem_image.mpr ⟨i.toNat, Finset.mem_range.mpr hlt, BitVec.ofNat_toNat .. ▸ by simp⟩
  calc (s.committedIndices payoutId).card
      ≤ ((Finset.range maxChunksPerPayout).image (BitVec.ofNat 16)).card :=
        Finset.card_le_card hsubset
    _ ≤ (Finset.range maxChunksPerPayout).card := Finset.card_image_le
    _ = maxChunksPerPayout := Finset.card_range _

/-- A commit of the authorizer succeeds whenever the allotment of the funded sum to
the chunks admits the assignment. -/
theorem commitPayoutChunk_ok (authorizer : Address) {payoutId : Bytes32} {chunkIndex : BitVec 16}
    {rootHash : Bytes32} {rootSum : BitVec 256} {s : PayoutCommitment}
    (hbooks : PayoutBooks s payoutId) (hfunded : (s.payouts payoutId).funded = true)
    (hrange : chunkIndex.toNat < maxChunksPerPayout)
    (hopen : s.chunkTotal payoutId < (s.payouts payoutId).rootSum.toNat)
    (hfits : total PayoutChunk.committedSum (Function.update (s.payoutChunks payoutId) chunkIndex
      ⟨rootHash, rootSum, true⟩) ≤ (s.payouts payoutId).rootSum.toNat) :
    ∃ s', commitPayoutChunk authorizer authorizer payoutId chunkIndex rootHash rootSum s =
      .ok s' := by
  have hupdate := total_update PayoutChunk.committedSum (s.payoutChunks payoutId)
    chunkIndex ⟨rootHash, rootSum, true⟩
  have hchunk : (s.payoutChunks payoutId chunkIndex).committedSum ≤ s.chunkTotal payoutId :=
    weight_le_total PayoutChunk.committedSum (s.payoutChunks payoutId) chunkIndex
  have hnew : PayoutChunk.committedSum ⟨rootHash, rootSum, true⟩ = rootSum.toNat := rfl
  have htotal : total PayoutChunk.committedSum (s.payoutChunks payoutId) =
      s.chunkTotal payoutId := rfl
  have hsum := hbooks.sum
  have hcount := hbooks.count
  have hcard := card_committedIndices_le hbooks
  have hopened : ¬ s.manifestClosed payoutId = true := by
    intro hclosed
    have hreached := (hbooks.closed.mp hclosed).2
    omega
  have hwithout : withoutChunk s payoutId chunkIndex = .ok
      (s.committedChunkSum payoutId - (s.payoutChunks payoutId chunkIndex).committedSum,
        s.committedChunkCount payoutId +
          if (s.payoutChunks payoutId chunkIndex).committed = true then 0 else 1) := by
    unfold withoutChunk
    by_cases hcommitted : (s.payoutChunks payoutId chunkIndex).committed = true
    · rw [PayoutChunk.committedSum, if_pos hcommitted] at hchunk ⊢
      simp only [if_pos hcommitted, checkedSub_of_le (hsum ▸ hchunk), ok_bind]
      rfl
    · have hroom : s.committedChunkCount payoutId + 1 ≤ uint16Max := by
        have hmax : maxChunksPerPayout + 1 ≤ uint16Max := by decide
        omega
      rw [PayoutChunk.committedSum, if_neg hcommitted]
      simp only [if_neg hcommitted, checkedAdd_of_le hroom, ok_bind]
      rfl
  have hlargest : uint256Max + 1 = 2 ^ 256 := by decide
  have hword := (s.payouts payoutId).rootSum.isLt
  have hadd : s.committedChunkSum payoutId - (s.payoutChunks payoutId chunkIndex).committedSum +
      rootSum.toNat ≤ uint256Max := by omega
  have hbound : ¬ ((s.payouts payoutId).rootSum.toNat < rootSum.toNat ∨
      (s.payouts payoutId).rootSum.toNat - rootSum.toNat <
        s.committedChunkSum payoutId - (s.payoutChunks payoutId chunkIndex).committedSum) := by
    omega
  simp only [commitPayoutChunk, hfunded, Bool.true_eq_false, revertIf_of_not not_false, ok_bind,
    ne_eq, not_true_eq_false, revertIf_of_not hopened, revertIf_of_not (Nat.not_le.mpr hrange),
    hwithout, revertIf_of_not hbound, checkedAdd_of_le hadd]
  exact ⟨_, rfl⟩

/-- One successful commit of the authorizer to a payout. -/
def CommitStep (authorizer : Address) (payoutId : Bytes32) (s s' : PayoutCommitment) : Prop :=
  ∃ chunkIndex rootHash rootSum,
    commitPayoutChunk authorizer authorizer payoutId chunkIndex rootHash rootSum s = .ok s'

/-- The commits of a payout carry out every list of assignments that the allotment
of the funded sum admits. -/
theorem commits_of_allots (authorizer : Address) {payoutId : Bytes32}
    {calls : List (BitVec 16 × PayoutChunk)}
    (hcalls : ∀ call ∈ calls, call.1.toNat < maxChunksPerPayout ∧ call.2.committed = true)
    {s : PayoutCommitment} {chunks : BitVec 16 → PayoutChunk} (hbooks : PayoutBooks s payoutId)
    (hfunded : (s.payouts payoutId).funded = true)
    (h : Allots PayoutChunk.committedSum (s.payouts payoutId).rootSum.toNat
      (s.payoutChunks payoutId) calls chunks) :
    ∃ s', Relation.ReflTransGen (CommitStep authorizer payoutId) s s' ∧
      PayoutBooks s' payoutId ∧ s'.payouts = s.payouts ∧ s'.payoutChunks payoutId = chunks := by
  induction calls generalizing s with
  | nil => exact ⟨s, .refl, hbooks, rfl, h⟩
  | cons call calls ih =>
    rcases call with ⟨i, ⟨rootHash, rootSum, committed⟩⟩
    rcases hcalls _ List.mem_cons_self with ⟨hrange, hcommitted⟩
    dsimp only at hrange hcommitted
    rw [hcommitted] at h
    rcases h with ⟨hopen, hfits, hrest⟩
    rcases commitPayoutChunk_ok authorizer hbooks hfunded hrange hopen hfits with
      ⟨s₁, hcommit⟩
    have hcommits := commitPayoutChunk_eq_ok hcommit
    rw [← hcommits.chunks, ← hcommits.payouts] at hrest
    have hfunded₁ : (s₁.payouts payoutId).funded = true := by
      rw [hcommits.payouts]
      exact hfunded
    rcases ih (fun call hmem => hcalls call (List.mem_cons_of_mem _ hmem)) (hbooks.commit hcommits)
      hfunded₁ hrest with ⟨s', hrun, hbooks', hpayouts, hchunks⟩
    exact ⟨s', .head ⟨i, rootHash, rootSum, hcommit⟩ hrun, hbooks',
      hpayouts.trans hcommits.payouts, hchunks⟩

/-- The chunk at an index, as the target of an allotment. -/
def targetChunk (hashes : Fin maxChunksPerPayout → Bytes32)
    (sums : Fin maxChunksPerPayout → BitVec 256) (i : BitVec 16) : PayoutChunk :=
  if h : i.toNat < maxChunksPerPayout then ⟨hashes ⟨i.toNat, h⟩, sums ⟨i.toNat, h⟩, true⟩
  else .none

theorem targetChunk_ofNat (hashes : Fin maxChunksPerPayout → Bytes32)
    (sums : Fin maxChunksPerPayout → BitVec 256) (i : Fin maxChunksPerPayout) :
    targetChunk hashes sums (BitVec.ofNat 16 i) = ⟨hashes i, sums i, true⟩ := by
  have hlt : (i : Nat) < 64 := i.isLt
  have hword : (BitVec.ofNat 16 i).toNat = i := by
    rw [BitVec.toNat_ofNat]
    omega
  simp only [targetChunk, hword, Fin.is_lt, dite_true, Fin.eta]

/-- **An open manifest is never stuck.** Whatever was committed before, the
authorizer can close it with any root hashes and any sums of the 64 chunks that add
up to what was funded. -/
theorem manifest_closable (authorizer : Address) {payoutId : Bytes32} {s : PayoutCommitment}
    (hbooks : PayoutBooks s payoutId) (hfunded : (s.payouts payoutId).funded = true)
    (hopen : s.manifestClosed payoutId = false) (hashes : Fin maxChunksPerPayout → Bytes32)
    (sums : Fin maxChunksPerPayout → BitVec 256)
    (htarget : ∑ i, (sums i).toNat = (s.payouts payoutId).rootSum.toNat) :
    ∃ s', Relation.ReflTransGen (CommitStep authorizer payoutId) s s' ∧
      s'.manifestClosed payoutId = true ∧
      ∀ i, s'.payoutChunks payoutId (BitVec.ofNat 16 i.val) = ⟨hashes i, sums i, true⟩ := by
  let parts : List (BitVec 16) :=
    (List.finRange maxChunksPerPayout).map fun i => BitVec.ofNat 16 i.val
  have hparts : ∀ i : BitVec 16, i ∈ parts ↔ i.toNat < maxChunksPerPayout := by
    intro i
    constructor
    · intro hi
      rcases List.mem_map.mp hi with ⟨k, -, rfl⟩
      have hk : (k : Nat) < 64 := k.isLt
      show (BitVec.ofNat 16 k.val).toNat < 64
      rw [BitVec.toNat_ofNat]
      omega
    · intro hi
      exact List.mem_map.mpr ⟨⟨i.toNat, hi⟩, List.mem_finRange _, by simp⟩
  have hnodup : parts.Nodup := by decide +kernel
  have hothers : ∀ i ∉ parts, (s.payoutChunks payoutId i).committedSum = 0 := by
    intro i hi
    rw [PayoutChunk.committedSum, if_neg]
    intro hcommitted
    exact hi ((hparts i).mpr (hbooks.indices i hcommitted))
  have hbelow : total PayoutChunk.committedSum (s.payoutChunks payoutId) <
      (s.payouts payoutId).rootSum.toNat := by
    refine Nat.lt_of_le_of_ne hbooks.bounded ?_
    intro hreached
    have hclosed := hbooks.closed.mpr ⟨hfunded, hreached⟩
    rw [hopen] at hclosed
    exact absurd hclosed (by decide)
  have hsum : (parts.map fun i => (targetChunk hashes sums i).committedSum).sum =
      (s.payouts payoutId).rootSum.toNat := by
    have hmap : parts.map (fun i => (targetChunk hashes sums i).committedSum) =
        (List.finRange maxChunksPerPayout).map fun i => (sums i).toNat := by
      rw [List.map_map]
      refine List.map_congr_left ?_
      intro i _
      rw [Function.comp_apply, targetChunk_ofNat]
      rfl
    rw [← htarget, Fin.sum_univ_def, hmap]
  rcases allots_reach (fun _ => PayoutChunk.emptied_of_committedSum)
    PayoutChunk.committedSum_emptied (targetChunk hashes sums) hnodup hothers hbelow hsum with
    ⟨calls, hcalls, hallots, htotal⟩
  have hcommitted : ∀ call ∈ calls,
      call.1.toNat < maxChunksPerPayout ∧ call.2.committed = true := by
    intro call hmem
    rcases hcalls call hmem with ⟨hpart, hchunk⟩
    have hrange := (hparts call.1).mp hpart
    refine ⟨hrange, ?_⟩
    rcases hchunk with heq | heq
    · rw [heq, targetChunk, dif_pos hrange]
    · rw [heq, targetChunk, dif_pos hrange]
      rfl
  rcases commits_of_allots authorizer hcommitted hbooks hfunded hallots
    with ⟨s', hrun, hbooks', hpayouts, hchunks⟩
  have hfinal : ∀ i : Fin maxChunksPerPayout,
      s'.payoutChunks payoutId (BitVec.ofNat 16 i.val) = ⟨hashes i, sums i, true⟩ := by
    intro i
    have hmem : BitVec.ofNat 16 i.val ∈ parts :=
      List.mem_map.mpr ⟨i, List.mem_finRange i, rfl⟩
    rw [hchunks, overlay, if_pos hmem, targetChunk_ofNat]
  refine ⟨s', hrun, hbooks'.closed.mpr ⟨?_, ?_⟩, hfinal⟩
  · rw [hpayouts]
    exact hfunded
  · rw [PayoutCommitment.chunkTotal, hchunks, hpayouts]
    exact htotal

end Hookemon.Contracts
