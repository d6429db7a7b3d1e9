import Hookemon.Core.CarriedFloor
import Hookemon.Contracts.Basic

/-! # The liability ledger (`accounting/FeeAccounting.sol`)

The ledger owes the fees it collected to three streams: the programmable
beneficiary, the treasury beneficiaries and the process. An accrual splits the
fee of one swap over the streams, carrying the fraction each of them is still
owed; claims debit the stream they pay from.

The contract is abstract in the asset, so every function that looks at a balance
takes it as an argument, and the functions around an external transfer are given
as the part before it (`claimLiability`, `claimProcessLiability`) and the part
after it (`settleClaim`).
-/

namespace Hookemon.Contracts

open Hookemon.Core

/-! ## Storage -/

/-- The storage of `FeeAccounting`. -/
structure FeeLedger where
  programmableLiabilities : Address → Nat
  treasuryLiabilities : Address → Nat
  payoutLiabilities : Bytes32 → Nat
  processLiabilityAmount : Nat
  totalPayoutLiabilityAmount : Nat
  totalLiabilityAmount : Nat
  moneyPathEntered : Bool
  programmableRemainder : Nat
  treasuryRemainder : Nat
  processRemainder : Nat

namespace FeeLedger

/-- The storage of a new contract. -/
def initial : FeeLedger where
  programmableLiabilities := fun _ => 0
  treasuryLiabilities := fun _ => 0
  payoutLiabilities := fun _ => 0
  processLiabilityAmount := 0
  totalPayoutLiabilityAmount := 0
  totalLiabilityAmount := 0
  moneyPathEntered := false
  programmableRemainder := 0
  treasuryRemainder := 0
  processRemainder := 0

end FeeLedger

abbrev bpsDenominator : Nat := 10000
abbrev totalFeeBps : Nat := 300
abbrev programmableFeeBps : Nat := 20
abbrev treasuryFeeBps : Nat := 30
abbrev processFeeBps : Nat := totalFeeBps - programmableFeeBps - treasuryFeeBps
abbrev minimumExecutedUsdg : Nat := 1000

/-! ## The lock and the solvency checks -/

/-- The entry half of the modifier `moneyPath`. -/
def enterMoneyPath (l : FeeLedger) : Run FeeLedger := do
  revertIf (l.moneyPathEntered = true) .moneyPathReentrancy
  pure { l with moneyPathEntered := true }

/-- The exit half of the modifier `moneyPath`. -/
def leaveMoneyPath (l : FeeLedger) : FeeLedger :=
  { l with moneyPathEntered := false }

def requireEnteredMoneyPath (l : FeeLedger) : Run Unit :=
  revertIf (l.moneyPathEntered = false) .moneyPathReentrancy

/-- `_requireSolventAt`. -/
def requireSolventAt (balance : Nat) (l : FeeLedger) : Run Unit :=
  revertIf (balance < l.totalLiabilityAmount) .insolventAccounting

/-! ## Splitting a fee -/

/-- The fees of one swap and the remainders they leave. -/
structure FeeSplit where
  totalFee : Nat
  programmableFee : Nat
  treasuryFee : Nat
  processFee : Nat
  programmableRemainder : Nat
  treasuryRemainder : Nat
  processRemainder : Nat
deriving DecidableEq, Repr

def requireMinimumExecutedUsdg (executedUsdg : Nat) : Run Unit :=
  revertIf (executedUsdg ≠ 0 ∧ executedUsdg < minimumExecutedUsdg) .swapBelowMinimumQuote

/-- `_cumulativeIncrement`: the increment and the new remainder, decomposed as
the source does it. -/
def cumulativeIncrement (executedUsdg rateBps remainderBefore : Nat) : Run (Nat × Nat) := do
  let highPart ← mulU256 (executedUsdg / bpsDenominator) rateBps
  let lowScaled ← mulU256 (executedUsdg % bpsDenominator) rateBps
  let lowPart ← addU256 lowScaled remainderBefore
  let increment ← addU256 highPart (lowPart / bpsDenominator)
  pure (increment, lowPart % bpsDenominator)

/-- The computation that `_splitLiability` and `_previewTotalFee` share: the
three increments of one swap and their sum. -/
def computeSplit (l : FeeLedger) (executedUsdg : Nat) : Run FeeSplit := do
  requireMinimumExecutedUsdg executedUsdg
  let programmable ← cumulativeIncrement executedUsdg programmableFeeBps l.programmableRemainder
  let treasury ← cumulativeIncrement executedUsdg treasuryFeeBps l.treasuryRemainder
  let process ← cumulativeIncrement executedUsdg processFeeBps l.processRemainder
  let partialFee ← addU256 programmable.1 treasury.1
  let totalFee ← addU256 partialFee process.1
  pure ⟨totalFee, programmable.1, treasury.1, process.1, programmable.2, treasury.2, process.2⟩

/-- `_splitLiability`: the split, with the new remainders committed. -/
def splitLiability (l : FeeLedger) (executedUsdg : Nat) : Run (FeeSplit × FeeLedger) := do
  let split ← computeSplit l executedUsdg
  pure (split, { l with
    programmableRemainder := split.programmableRemainder
    treasuryRemainder := split.treasuryRemainder
    processRemainder := split.processRemainder })

/-- `_previewTotalFee`: the total fee of a swap, without committing anything. -/
def previewTotalFee (l : FeeLedger) (executedUsdg : Nat) : Run Nat := do
  let split ← computeSplit l executedUsdg
  pure split.totalFee

/-! ## The three streams

A stream is charged a rate and carries a remainder; `carriedStep` is what one
swap does to it. The decomposition in `_cumulativeIncrement` computes exactly
that, and never leaves `uint256` on the way. -/

/-- The streams over which a fee is split. -/
inductive FeeStream where
  | programmable
  | treasury
  | process
deriving DecidableEq, Repr

namespace FeeStream

/-- The rate of a stream in basis points. -/
def rateBps : FeeStream → Nat
  | .programmable => programmableFeeBps
  | .treasury => treasuryFeeBps
  | .process => processFeeBps

theorem rateBps_le (i : FeeStream) : i.rateBps ≤ totalFeeBps := by
  cases i <;> decide

end FeeStream

/-- The remainder that the ledger carries for a stream. -/
def FeeLedger.remainder (l : FeeLedger) : FeeStream → Nat
  | .programmable => l.programmableRemainder
  | .treasury => l.treasuryRemainder
  | .process => l.processRemainder

/-- The fee of a stream in a split. -/
def FeeSplit.fee (split : FeeSplit) : FeeStream → Nat
  | .programmable => split.programmableFee
  | .treasury => split.treasuryFee
  | .process => split.processFee

/-- The remainder that a split leaves for a stream. -/
def FeeSplit.remainder (split : FeeSplit) : FeeStream → Nat
  | .programmable => split.programmableRemainder
  | .treasury => split.treasuryRemainder
  | .process => split.processRemainder

/-- The remainders are proper fractions of one basis-point unit. -/
def FeeLedger.CarriesFractions (l : FeeLedger) : Prop :=
  ∀ i, l.remainder i < bpsDenominator

theorem cumulativeIncrement_eq_ok {q b r : Nat} {p : Nat × Nat}
    (h : cumulativeIncrement q b r = .ok p) : p = carriedStep bpsDenominator b r q := by
  obtain ⟨hinc, hrem⟩ := carried_decomposition (d := bpsDenominator) (by decide) b r q
  simp only [cumulativeIncrement, bind_eq_ok, checkedMul_eq_ok, checkedAdd_eq_ok,
    pure_eq_ok] at h
  obtain ⟨_, ⟨-, rfl⟩, _, ⟨-, rfl⟩, _, ⟨-, rfl⟩, _, ⟨-, rfl⟩, rfl⟩ := h
  rw [hinc, hrem]
  rfl

/-- No step of `_cumulativeIncrement` overflows: neither the two products nor
the two sums, whatever the executed amount is. -/
theorem cumulativeIncrement_ok {q b r : Nat} (hq : q ≤ uint256Max) (hb : b ≤ totalFeeBps)
    (hr : r < bpsDenominator) :
    cumulativeIncrement q b r = .ok (carriedStep bpsDenominator b r q) := by
  obtain ⟨hinc, hrem⟩ := carried_decomposition (d := bpsDenominator) (by decide) b r q
  have hmax : 4000000 ≤ uint256Max := by decide
  have hhigh : q / bpsDenominator * b ≤ q / bpsDenominator * totalFeeBps :=
    Nat.mul_le_mul_left _ hb
  have hlow : q % bpsDenominator * b ≤ q % bpsDenominator * totalFeeBps :=
    Nat.mul_le_mul_left _ hb
  simp only [bpsDenominator, totalFeeBps] at hb hr hhigh hlow hinc hrem
  have hmul₁ : q / 10000 * b ≤ uint256Max := by omega
  have hmul₂ : q % 10000 * b ≤ uint256Max := by omega
  have hadd₁ : q % 10000 * b + r ≤ uint256Max := by omega
  have hadd₂ : q / 10000 * b + (q % 10000 * b + r) / 10000 ≤ uint256Max := by omega
  simp only [cumulativeIncrement, checkedMul_of_le hmul₁, checkedMul_of_le hmul₂,
    checkedAdd_of_le hadd₁, checkedAdd_of_le hadd₂, ok_bind]
  simp only [hinc, hrem, carriedStep, pure, Except.pure]

/-- What a successful split says: the amount is admissible, every stream makes
one carried step, and the total is the sum of the fees. -/
theorem computeSplit_eq_ok {l : FeeLedger} {q : Nat} {split : FeeSplit}
    (h : computeSplit l q = .ok split) :
    (q = 0 ∨ minimumExecutedUsdg ≤ q) ∧
      (∀ i, (split.fee i, split.remainder i) =
        carriedStep bpsDenominator i.rateBps (l.remainder i) q) ∧
      split.totalFee = split.programmableFee + split.treasuryFee + split.processFee := by
  simp only [computeSplit, requireMinimumExecutedUsdg, bind_eq_ok, revertIf_eq_ok,
    checkedAdd_eq_ok, pure_eq_ok] at h
  obtain ⟨-, hmin, p, hp, t, ht, c, hc, _, ⟨-, rfl⟩, _, ⟨-, rfl⟩, rfl⟩ := h
  refine ⟨by omega, ?_, rfl⟩
  intro i
  cases i with
  | programmable => exact cumulativeIncrement_eq_ok hp
  | treasury => exact cumulativeIncrement_eq_ok ht
  | process => exact cumulativeIncrement_eq_ok hc

/-- A split never fails on an admissible amount: in particular the sum of the
three streams does not overflow. -/
theorem computeSplit_ok {l : FeeLedger} (hl : l.CarriesFractions) {q : Nat}
    (hq : q ≤ uint256Max) (hmin : q = 0 ∨ minimumExecutedUsdg ≤ q) :
    ∃ split, computeSplit l q = .ok split := by
  have hmax : 4000000 ≤ uint256Max := by decide
  have hp := cumulativeIncrement_ok hq (FeeStream.rateBps_le .programmable) (hl .programmable)
  have ht := cumulativeIncrement_ok hq (FeeStream.rateBps_le .treasury) (hl .treasury)
  have hc := cumulativeIncrement_ok hq (FeeStream.rateBps_le .process) (hl .process)
  have hlp : l.programmableRemainder < 10000 := hl .programmable
  have hlt : l.treasuryRemainder < 10000 := hl .treasury
  have hlc : l.processRemainder < 10000 := hl .process
  simp only [FeeStream.rateBps, FeeLedger.remainder, carriedStep] at hp ht hc
  have hguard : ¬ (q ≠ 0 ∧ q < minimumExecutedUsdg) := by omega
  have hsum₁ : (programmableFeeBps * q + l.programmableRemainder) / bpsDenominator +
      (treasuryFeeBps * q + l.treasuryRemainder) / bpsDenominator ≤ uint256Max := by
    change (20 * q + _) / 10000 + (30 * q + _) / 10000 ≤ _
    omega
  have hsum₂ : (programmableFeeBps * q + l.programmableRemainder) / bpsDenominator +
      (treasuryFeeBps * q + l.treasuryRemainder) / bpsDenominator +
        (processFeeBps * q + l.processRemainder) / bpsDenominator ≤ uint256Max := by
    change (20 * q + _) / 10000 + (30 * q + _) / 10000 + (250 * q + _) / 10000 ≤ _
    omega
  simp only [computeSplit, requireMinimumExecutedUsdg, revertIf_of_not hguard, hp, ht, hc, ok_bind,
    checkedAdd_of_le hsum₁, checkedAdd_of_le hsum₂]
  exact ⟨_, rfl⟩

/-- The split looks at nothing but the remainders. -/
theorem computeSplit_congr {l l' : FeeLedger} (h : ∀ i, l'.remainder i = l.remainder i) (q : Nat) :
    computeSplit l' q = computeSplit l q := by
  have hprogrammable := h .programmable
  have htreasury := h .treasury
  have hprocess := h .process
  simp only [FeeLedger.remainder] at hprogrammable htreasury hprocess
  simp only [computeSplit, hprogrammable, htreasury, hprocess]

theorem previewTotalFee_congr {l l' : FeeLedger} (h : ∀ i, l'.remainder i = l.remainder i)
    (q : Nat) : previewTotalFee l' q = previewTotalFee l q := by
  simp only [previewTotalFee, computeSplit_congr h]

/-- Splits of the same amount agree: the preview is what the commit charges. -/
theorem previewTotalFee_eq_ok {l : FeeLedger} {q fee : Nat} :
    previewTotalFee l q = .ok fee ↔
      ∃ split, computeSplit l q = .ok split ∧ split.totalFee = fee := by
  simp only [previewTotalFee, bind_eq_ok, pure_eq_ok]

theorem splitLiability_eq_ok {l l' : FeeLedger} {q : Nat} {split : FeeSplit} :
    splitLiability l q = .ok (split, l') ↔
      computeSplit l q = .ok split ∧ l' = { l with
        programmableRemainder := split.programmableRemainder
        treasuryRemainder := split.treasuryRemainder
        processRemainder := split.processRemainder } := by
  simp only [splitLiability, bind_eq_ok, pure_eq_ok, Prod.mk.injEq]
  constructor
  · rintro ⟨_, hsplit, rfl, rfl⟩
    exact ⟨hsplit, rfl⟩
  · rintro ⟨hsplit, rfl⟩
    exact ⟨split, hsplit, rfl, rfl⟩

/-! ## Accrual -/

/-- `_accrueAuthenticatedSwap`: book the fee of one swap to the streams. The
balances are those of the contract before and after the fee was collected. -/
def accrueAuthenticatedSwap (self fixedProgrammableBeneficiary treasuryBeneficiary : Address)
    (executedUsdg balanceBeforeCollection balanceAfterCollection : Nat) (l : FeeLedger) :
    Run FeeLedger := do
  requireEnteredMoneyPath l
  revertIf (treasuryBeneficiary = 0 ∨ treasuryBeneficiary = self) .invalidBeneficiary
  let (split, l) ← splitLiability l executedUsdg
  revertIf (balanceBeforeCollection < l.totalLiabilityAmount ∨
      balanceAfterCollection < balanceBeforeCollection ∨
      balanceAfterCollection - balanceBeforeCollection ≠ split.totalFee) .invalidCollectionDelta
  let programmable ←
    addU256 (l.programmableLiabilities fixedProgrammableBeneficiary) split.programmableFee
  let treasury ← addU256 (l.treasuryLiabilities treasuryBeneficiary) split.treasuryFee
  let process ← addU256 l.processLiabilityAmount split.processFee
  let total ← addU256 l.totalLiabilityAmount split.totalFee
  let l := { l with
    programmableLiabilities :=
      Function.update l.programmableLiabilities fixedProgrammableBeneficiary programmable
    treasuryLiabilities := Function.update l.treasuryLiabilities treasuryBeneficiary treasury
    processLiabilityAmount := process
    totalLiabilityAmount := total }
  requireSolventAt balanceAfterCollection l
  pure l

/-- The ledger after booking `split` to the streams. -/
def FeeLedger.book (l : FeeLedger) (programmable treasury : Address) (split : FeeSplit) :
    FeeLedger :=
  { l with
    programmableLiabilities := Function.update l.programmableLiabilities programmable
      (l.programmableLiabilities programmable + split.programmableFee)
    treasuryLiabilities := Function.update l.treasuryLiabilities treasury
      (l.treasuryLiabilities treasury + split.treasuryFee)
    processLiabilityAmount := l.processLiabilityAmount + split.processFee
    totalLiabilityAmount := l.totalLiabilityAmount + split.totalFee
    programmableRemainder := split.programmableRemainder
    treasuryRemainder := split.treasuryRemainder
    processRemainder := split.processRemainder }

/-- Everything a successful accrual says: its guards, and the ledger it leaves. -/
theorem accrueAuthenticatedSwap_eq_ok {self programmable treasury : Address}
    {q before after : Nat} {l l' : FeeLedger}
    (h : accrueAuthenticatedSwap self programmable treasury q before after l = .ok l') :
    l.moneyPathEntered = true ∧ treasury ≠ 0 ∧ treasury ≠ self ∧
      ∃ split, computeSplit l q = .ok split ∧ l.totalLiabilityAmount ≤ before ∧
        after = before + split.totalFee ∧ l' = l.book programmable treasury split := by
  simp only [accrueAuthenticatedSwap, requireEnteredMoneyPath, requireSolventAt, bind_eq_ok,
    revertIf_eq_ok, pure_eq_ok, checkedAdd_eq_ok] at h
  obtain ⟨-, hentered, -, hbeneficiary, ⟨split, l₁⟩, hsplit, -, hdelta, _, ⟨-, rfl⟩, _, ⟨-, rfl⟩,
    _, ⟨-, rfl⟩, _, ⟨-, rfl⟩, -, hsolvent, rfl⟩ := h
  obtain ⟨hcompute, rfl⟩ := splitLiability_eq_ok.mp hsplit
  push Not at hbeneficiary hdelta
  obtain ⟨hbefore, hgrows, hexact⟩ := hdelta
  exact ⟨by simpa using hentered, hbeneficiary.1, hbeneficiary.2, split, hcompute, hbefore,
    by dsimp only at hexact; omega, rfl⟩

/-! ## Claims -/

/-- The two mappings from which a beneficiary claims. -/
inductive Book where
  | programmable
  | treasury
deriving DecidableEq, Repr

/-- `liabilities[beneficiary]` in the given mapping. -/
def FeeLedger.owed (l : FeeLedger) : Book → Address → Nat
  | .programmable, a => l.programmableLiabilities a
  | .treasury, a => l.treasuryLiabilities a

/-- `liabilities[beneficiary] = amount` in the given mapping. -/
def FeeLedger.setOwed (l : FeeLedger) (book : Book) (a : Address) (amount : Nat) : FeeLedger :=
  match book with
  | .programmable =>
    { l with programmableLiabilities := Function.update l.programmableLiabilities a amount }
  | .treasury =>
    { l with treasuryLiabilities := Function.update l.treasuryLiabilities a amount }

/-- `_claimLiability` up to its transfer. -/
def claimLiability (self : Address) (book : Book) (beneficiary destination : Address)
    (requestedAmount balance : Nat) (l : FeeLedger) : Run FeeLedger := do
  let l ← enterMoneyPath l
  revertIf (beneficiary = 0 ∨ beneficiary = self ∨ destination = 0 ∨ destination = self)
    .invalidBeneficiary
  revertIf (requestedAmount = 0 ∨ requestedAmount > l.owed book beneficiary)
    .invalidLiabilityAmount
  requireSolventAt balance l
  let owed ← subU256 (l.owed book beneficiary) requestedAmount
  let total ← subU256 l.totalLiabilityAmount requestedAmount
  pure { l.setOwed book beneficiary owed with totalLiabilityAmount := total }

/-- `_debitProcessLiability`. -/
def debitProcessLiability (amount balance : Nat) (l : FeeLedger) : Run FeeLedger := do
  requireEnteredMoneyPath l
  requireSolventAt balance l
  revertIf (amount = 0 ∨ amount > l.processLiabilityAmount) .invalidLiabilityAmount
  let process ← subU256 l.processLiabilityAmount amount
  let total ← subU256 l.totalLiabilityAmount amount
  pure { l with processLiabilityAmount := process, totalLiabilityAmount := total }

/-- `_claimProcessLiability` up to its transfer. -/
def claimProcessLiability (amount balance : Nat) (l : FeeLedger) : Run FeeLedger := do
  let l ← enterMoneyPath l
  debitProcessLiability amount balance l

/-- The end of both claims, after the transfer: the last solvency check and the
release of the lock. -/
def settleClaim (balance : Nat) (l : FeeLedger) : Run FeeLedger := do
  requireSolventAt balance l
  pure (leaveMoneyPath l)

/-! ## Payout liabilities -/

/-- `_creditPayoutLiability`. -/
def creditPayoutLiability (payoutId : Bytes32) (amount balance : Nat) (l : FeeLedger) :
    Run FeeLedger := do
  requireEnteredMoneyPath l
  revertIf (payoutId = 0 ∨ amount = 0) .invalidLiabilityAmount
  let owed ← addU256 (l.payoutLiabilities payoutId) amount
  let totalPayout ← addU256 l.totalPayoutLiabilityAmount amount
  let total ← addU256 l.totalLiabilityAmount amount
  let l := { l with
    payoutLiabilities := Function.update l.payoutLiabilities payoutId owed
    totalPayoutLiabilityAmount := totalPayout
    totalLiabilityAmount := total }
  requireSolventAt balance l
  pure l

/-- `_debitPayoutLiability`. -/
def debitPayoutLiability (payoutId : Bytes32) (amount balance : Nat) (l : FeeLedger) :
    Run FeeLedger := do
  requireEnteredMoneyPath l
  requireSolventAt balance l
  revertIf (payoutId = 0 ∨ amount = 0 ∨ amount > l.payoutLiabilities payoutId)
    .invalidLiabilityAmount
  let owed ← subU256 (l.payoutLiabilities payoutId) amount
  let totalPayout ← subU256 l.totalPayoutLiabilityAmount amount
  let total ← subU256 l.totalLiabilityAmount amount
  pure { l with
    payoutLiabilities := Function.update l.payoutLiabilities payoutId owed
    totalPayoutLiabilityAmount := totalPayout
    totalLiabilityAmount := total }

/-- What a transfer of the token sees: the balances of the source and of the
destination before it, the answer of the token, and the balances after it. -/
structure TransferAnswers where
  sourceBalanceBefore : Nat
  destinationBalanceBefore : Nat
  transferred : Bool
  sourceBalanceAfter : Nat
  destinationBalanceAfter : Nat
deriving DecidableEq, Repr

/-- `_transferExactUsdg` up to the call of the token. -/
def requireTransferable (self recipient : Address) (amount : Nat) (l : FeeLedger) : Run Unit := do
  requireEnteredMoneyPath l
  revertIf (recipient = 0 ∨ recipient = self ∨ amount = 0) .invalidBeneficiary

/-- `_transferExactUsdg` from the answer of the token on. -/
def requireTransferred (amount : Nat) (answers : TransferAnswers) : Run Unit := do
  revertIf (answers.transferred = false) .tokenTransferFailed
  revertIf (answers.sourceBalanceBefore < answers.sourceBalanceAfter ∨
      answers.sourceBalanceBefore - answers.sourceBalanceAfter ≠ amount ∨
      answers.destinationBalanceAfter < answers.destinationBalanceBefore ∨
      answers.destinationBalanceAfter - answers.destinationBalanceBefore ≠ amount)
    .tokenBalanceDeltaMismatch

/-! ## What the claims do -/

@[simp] theorem FeeLedger.owed_setOwed_self (l : FeeLedger) (book : Book) (a : Address) (n : Nat) :
    (l.setOwed book a n).owed book a = n := by
  cases book <;> simp [FeeLedger.owed, FeeLedger.setOwed]

theorem claimLiability_eq_ok {self beneficiary destination : Address} {book : Book}
    {amount balance : Nat} {l l' : FeeLedger}
    (h : claimLiability self book beneficiary destination amount balance l = .ok l') :
    l.moneyPathEntered = false ∧ beneficiary ≠ 0 ∧ destination ≠ 0 ∧ destination ≠ self ∧
      0 < amount ∧ amount ≤ l.owed book beneficiary ∧ amount ≤ l.totalLiabilityAmount ∧
      l.totalLiabilityAmount ≤ balance ∧
      l' = { l.setOwed book beneficiary (l.owed book beneficiary - amount) with
        totalLiabilityAmount := l.totalLiabilityAmount - amount
        moneyPathEntered := true } := by
  simp only [claimLiability, enterMoneyPath, requireSolventAt, bind_eq_ok, revertIf_eq_ok,
    pure_eq_ok, checkedSub_eq_ok] at h
  obtain ⟨_, ⟨-, hentered, rfl⟩, -, hbeneficiary, -, hamount, -, hsolvent, _, ⟨-, rfl⟩, _,
    ⟨htotal, rfl⟩, rfl⟩ := h
  push Not at hbeneficiary hamount hsolvent
  obtain ⟨hb, -, hd, hds⟩ := hbeneficiary
  have howed : ({ l with moneyPathEntered := true } : FeeLedger).owed book beneficiary =
      l.owed book beneficiary := by
    cases book <;> rfl
  rw [howed] at hamount
  refine ⟨by simpa using hentered, hb, hd, hds, by omega, by omega, htotal, hsolvent, ?_⟩
  cases book <;> rfl

theorem claimProcessLiability_eq_ok {amount balance : Nat} {l l' : FeeLedger}
    (h : claimProcessLiability amount balance l = .ok l') :
    l.moneyPathEntered = false ∧ 0 < amount ∧ amount ≤ l.processLiabilityAmount ∧
      amount ≤ l.totalLiabilityAmount ∧ l.totalLiabilityAmount ≤ balance ∧
      l' = { l with
        processLiabilityAmount := l.processLiabilityAmount - amount
        totalLiabilityAmount := l.totalLiabilityAmount - amount
        moneyPathEntered := true } := by
  simp only [claimProcessLiability, debitProcessLiability, enterMoneyPath,
    requireEnteredMoneyPath, requireSolventAt, bind_eq_ok, revertIf_eq_ok, pure_eq_ok,
    checkedSub_eq_ok] at h
  obtain ⟨_, ⟨-, hentered, rfl⟩, -, -, -, hsolvent, -, hamount, _, ⟨-, rfl⟩, _, ⟨htotal, rfl⟩,
    rfl⟩ := h
  push Not at hamount hsolvent
  dsimp only at hamount hsolvent
  exact ⟨by simpa using hentered, by omega, hamount.2, htotal, hsolvent, rfl⟩

theorem creditPayoutLiability_eq_ok {payoutId : Bytes32} {amount balance : Nat}
    {l l' : FeeLedger} (h : creditPayoutLiability payoutId amount balance l = .ok l') :
    l.moneyPathEntered = true ∧ payoutId ≠ 0 ∧ 0 < amount ∧ l' = { l with
      payoutLiabilities := Function.update l.payoutLiabilities payoutId
        (l.payoutLiabilities payoutId + amount)
      totalPayoutLiabilityAmount := l.totalPayoutLiabilityAmount + amount
      totalLiabilityAmount := l.totalLiabilityAmount + amount } := by
  simp only [creditPayoutLiability, requireEnteredMoneyPath, requireSolventAt, bind_eq_ok,
    revertIf_eq_ok, pure_eq_ok, checkedAdd_eq_ok] at h
  obtain ⟨-, hentered, -, hamount, _, ⟨-, rfl⟩, _, ⟨-, rfl⟩, _, ⟨-, rfl⟩, -, -, rfl⟩ := h
  push Not at hamount
  exact ⟨by simpa using hentered, hamount.1, Nat.pos_of_ne_zero hamount.2, rfl⟩

theorem debitPayoutLiability_eq_ok {payoutId : Bytes32} {amount balance : Nat}
    {l l' : FeeLedger} (h : debitPayoutLiability payoutId amount balance l = .ok l') :
    l.moneyPathEntered = true ∧ 0 < amount ∧ amount ≤ l.payoutLiabilities payoutId ∧
      l' = { l with
        payoutLiabilities := Function.update l.payoutLiabilities payoutId
          (l.payoutLiabilities payoutId - amount)
        totalPayoutLiabilityAmount := l.totalPayoutLiabilityAmount - amount
        totalLiabilityAmount := l.totalLiabilityAmount - amount } := by
  simp only [debitPayoutLiability, requireEnteredMoneyPath, requireSolventAt, bind_eq_ok,
    revertIf_eq_ok, pure_eq_ok, checkedSub_eq_ok] at h
  obtain ⟨-, hentered, -, -, -, hamount, _, ⟨hle, rfl⟩, _, ⟨-, rfl⟩, _, ⟨-, rfl⟩, rfl⟩ := h
  push Not at hamount
  exact ⟨by simpa using hentered, Nat.pos_of_ne_zero hamount.2.1, hle, rfl⟩

theorem settleClaim_eq_ok {balance : Nat} {l l' : FeeLedger} :
    settleClaim balance l = .ok l' ↔
      l.totalLiabilityAmount ≤ balance ∧ l' = leaveMoneyPath l := by
  simp only [settleClaim, requireSolventAt, bind_eq_ok, revertIf_eq_ok, pure_eq_ok]
  constructor
  · rintro ⟨-, h, rfl⟩
    exact ⟨by omega, rfl⟩
  · rintro ⟨h, rfl⟩
    exact ⟨(), by omega, rfl⟩

end Hookemon.Contracts
