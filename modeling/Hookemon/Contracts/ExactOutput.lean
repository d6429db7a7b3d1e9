import Hookemon.Core.WindowSearch
import Hookemon.Contracts.HookemonHook

/-! # The gross amount of an exact output (`market/CanonicalMarket.sol`)

`_grossForExactOutput` looks for a gross amount that leaves the requested net amount after the
fee. The fee is the sum of three carried floors, so what is left is not monotone in the gross
amount. It stays within three units of its 97 hundredths, though, and never rises by more than
one; the window around the rounded estimate has every solution in it.
-/

namespace Hookemon.Contracts

open Hookemon.Core

/-- The fee of an executed amount: what the three streams together are paid for it. -/
def FeeLedger.carriedFee (l : FeeLedger) (executedUsdg : Nat) : Nat :=
  (carriedStep bpsDenominator programmableFeeBps l.programmableRemainder executedUsdg).1
    + (carriedStep bpsDenominator treasuryFeeBps l.treasuryRemainder executedUsdg).1
    + (carriedStep bpsDenominator processFeeBps l.processRemainder executedUsdg).1

/-- The admissible gross amounts that leave a net amount after the fee. -/
def FeeLedger.grossRoots (l : FeeLedger) (requestedNet : Nat) : Set Nat :=
  {gross | minimumExecutedUsdg ≤ gross ∧ gross = requestedNet + l.carriedFee gross}

variable {l : FeeLedger} {net gross : Nat}

/-! ## The fee -/

/-- The preview of an admissible amount never fails. -/
theorem previewTotalFee_ok (hl : l.CarriesFractions) {q : Nat} (hmin : minimumExecutedUsdg ≤ q)
    (hmax : q ≤ uint256Max) : previewTotalFee l q = .ok (l.carriedFee q) := by
  obtain ⟨split, hsplit⟩ := computeSplit_ok hl hmax (Or.inr hmin)
  obtain ⟨-, hsteps, htotal⟩ := computeSplit_eq_ok hsplit
  refine previewTotalFee_eq_ok.mpr ⟨split, hsplit, ?_⟩
  have hprogrammable := congrArg Prod.fst (hsteps .programmable)
  have htreasury := congrArg Prod.fst (hsteps .treasury)
  have hprocess := congrArg Prod.fst (hsteps .process)
  simp only [FeeSplit.fee, FeeLedger.remainder, FeeStream.rateBps] at hprogrammable htreasury hprocess
  rw [htotal, hprogrammable, htreasury, hprocess]
  rfl

/-- The fee is within three units of three hundredths. -/
theorem carriedFee_near (hl : l.CarriesFractions) (q : Nat) :
    3 * q < 100 * l.carriedFee q + 300 ∧ 100 * l.carriedFee q < 3 * q + 300 := by
  have hprogrammable : l.programmableRemainder < 10000 := hl .programmable
  have htreasury : l.treasuryRemainder < 10000 := hl .treasury
  have hprocess : l.processRemainder < 10000 := hl .process
  simp only [FeeLedger.carriedFee, carriedStep, bpsDenominator, programmableFeeBps, treasuryFeeBps,
    processFeeBps, totalFeeBps]
  omega

/-- One unit more never costs less. -/
theorem carriedFee_mono (l : FeeLedger) (q : Nat) : l.carriedFee q ≤ l.carriedFee (q + 1) := by
  simp only [FeeLedger.carriedFee, carriedStep, bpsDenominator, programmableFeeBps, treasuryFeeBps,
    processFeeBps, totalFeeBps]
  omega

/-! ## The window -/

/-- The estimate of the source: the net amount is 97 hundredths, rounded up. -/
def grossEstimate (requestedNet : Nat) : Nat :=
  (requestedNet * bpsDenominator + (bpsDenominator - totalFeeBps) - 1)
    / (bpsDenominator - totalFeeBps)

/-- Every solution is within eight units of the estimate. -/
theorem grossRoots_window (hl : l.CarriesFractions) (h : gross ∈ l.grossRoots net) :
    grossEstimate net ≤ gross + exactOutputScanRadius ∧
      gross ≤ grossEstimate net + exactOutputScanRadius := by
  obtain ⟨hlow, hhigh⟩ := carriedFee_near hl gross
  have hroot : gross = net + l.carriedFee gross := h.2
  simp only [grossEstimate, bpsDenominator, totalFeeBps, exactOutputScanRadius]
  omega

/-- A net amount of at least the minimum has a solution. -/
theorem grossRoots_nonempty (hl : l.CarriesFractions) (hnet : minimumExecutedUsdg ≤ net) :
    (l.grossRoots net).Nonempty := by
  have hstep : ∀ q, ((q + 1 : Nat) : Int) - l.carriedFee (q + 1) ≤ (q : Int) - l.carriedFee q + 1 := by
    intro q
    have hmono := carriedFee_mono l q
    omega
  -- at the net amount itself too little is left, at twice the net amount enough
  have hlow : (net : Int) - l.carriedFee net ≤ net := by omega
  have hhigh : (net : Int) ≤ ((2 * net : Nat) : Int) - l.carriedFee (2 * net) := by
    have hnear := (carriedFee_near hl (2 * net)).2
    simp only [minimumExecutedUsdg] at hnet
    omega
  obtain ⟨gross, hle, -, hgross⟩ := exists_eq_of_slow_rise hstep (by omega) hlow hhigh
  exact ⟨gross, hnet.trans hle, by omega⟩

/-! ## The search -/

/-- The solutions, decided one at a time. -/
def FeeLedger.isGrossRoot (l : FeeLedger) (requestedNet gross : Nat) : Bool :=
  decide (minimumExecutedUsdg ≤ gross ∧ gross = requestedNet + l.carriedFee gross)

theorem isGrossRoot_iff : l.isGrossRoot net gross = true ↔ gross ∈ l.grossRoots net := by
  unfold FeeLedger.isGrossRoot
  exact decide_eq_true_iff

/-- The loop searches its candidates for a solution. -/
theorem scanCandidates_eq (hl : l.CarriesFractions) {n candidate : Nat}
    (hmin : minimumExecutedUsdg ≤ candidate) (hmax : candidate + n ≤ uint256Max) :
    scanCandidates l net n candidate
      = (firstFrom (l.isGrossRoot net) n candidate).elim (.error .invalidFinalizedSwap)
          fun gross => .ok (gross, l.carriedFee gross) := by
  induction n generalizing candidate with
  | zero => rfl
  | succ n ih =>
    have hroot : (l.carriedFee candidate ≤ candidate ∧ candidate - l.carriedFee candidate = net) ↔
        l.isGrossRoot net candidate = true := by
      unfold FeeLedger.isGrossRoot
      rw [decide_eq_true_iff]
      omega
    rw [scanCandidates, previewTotalFee_ok hl hmin (by omega), ok_bind, firstFrom]
    split
    · rename_i h
      rw [if_pos (hroot.mp h)]
      rfl
    · rename_i h
      rw [if_neg (fun hp => h (hroot.mpr hp)), if_neg (by omega)]
      exact ih (by omega) (by omega)

/-- The candidate from which the source starts. -/
def firstCandidate (requestedNet : Nat) : Nat :=
  max minimumExecutedUsdg (grossEstimate requestedNet - exactOutputScanRadius)

/-- The candidates have every solution among them. -/
theorem candidates_window (hl : l.CarriesFractions) (h : l.isGrossRoot net gross) :
    firstCandidate net ≤ gross ∧
      gross < firstCandidate net + (exactOutputScanRadius * 2 + 1) := by
  have hroot : gross ∈ l.grossRoots net := isGrossRoot_iff.mp h
  obtain ⟨hlow, hhigh⟩ := grossRoots_window hl hroot
  have hmin : minimumExecutedUsdg ≤ gross := hroot.1
  unfold firstCandidate
  omega

theorem firstCandidate_le (hnet : net < 2 ^ 255) :
    firstCandidate net + (exactOutputScanRadius * 2 + 1) ≤ uint256Max := by
  simp only [firstCandidate, grossEstimate, bpsDenominator, totalFeeBps, exactOutputScanRadius,
    minimumExecutedUsdg, uint256Max]
  omega

/-- What `FullMath.mulDivRoundingUp` answers: the quotient rounded up, where it is a word. -/
def RoundsUp (mulDivRoundingUp : Nat → Nat → Nat → Run Nat) : Prop :=
  ∀ x y d, x ≤ uint256Max → y ≤ uint256Max → 0 < d → (x * y + d - 1) / d ≤ uint256Max →
    mulDivRoundingUp x y d = .ok ((x * y + d - 1) / d)

theorem grossForExactOutput_eq {env : Externals} (henv : RoundsUp env.mulDivRoundingUp)
    (hl : l.CarriesFractions) (hnet : net < 2 ^ 255) :
    grossForExactOutput env l net
      = (firstFrom (l.isGrossRoot net) (exactOutputScanRadius * 2 + 1) (firstCandidate net)).elim
          (.error .invalidFinalizedSwap) fun gross => .ok (gross, l.carriedFee gross) := by
  have hestimate : env.mulDivRoundingUp net bpsDenominator (bpsDenominator - totalFeeBps)
      = .ok (grossEstimate net) := by
    refine henv _ _ _ ?_ (by decide) (by decide) ?_
    · simp only [uint256Max]
      omega
    · simp only [bpsDenominator, totalFeeBps, uint256Max]
      omega
  have hcandidate : (if (if grossEstimate net > exactOutputScanRadius
        then grossEstimate net - exactOutputScanRadius else minimumExecutedUsdg) < minimumExecutedUsdg
      then minimumExecutedUsdg
      else if grossEstimate net > exactOutputScanRadius
        then grossEstimate net - exactOutputScanRadius else minimumExecutedUsdg)
      = firstCandidate net := by
    unfold firstCandidate
    split <;> split <;> omega
  unfold grossForExactOutput
  rw [hestimate, ok_bind]
  dsimp only
  rw [hcandidate]
  exact scanCandidates_eq hl (le_max_left _ _) (firstCandidate_le hnet)

/-- The gross amount of an exact output is the least admissible one that leaves the requested
amount after the fee. The call reverts exactly when there is none, and there is one from the
minimum on. -/
theorem grossForExactOutput_least {env : Externals} (henv : RoundsUp env.mulDivRoundingUp)
    (hl : l.CarriesFractions) (hnet : net < 2 ^ 255) :
    (∀ gross fee, grossForExactOutput env l net = .ok (gross, fee) ↔
      IsLeast (l.grossRoots net) gross ∧ fee = l.carriedFee gross) ∧
    (grossForExactOutput env l net = .error .invalidFinalizedSwap ↔ l.grossRoots net = ∅) ∧
    (minimumExecutedUsdg ≤ net → (l.grossRoots net).Nonempty) ∧
    ∀ gross ∈ l.grossRoots net, previewTotalFee l gross = .ok (l.carriedFee gross) := by
  have hsearch := grossForExactOutput_eq henv hl hnet
  have hroots : ∀ gross, l.isGrossRoot net gross = true ↔ gross ∈ l.grossRoots net :=
    fun gross => isGrossRoot_iff
  have hset : {gross | l.isGrossRoot net gross = true} = l.grossRoots net := Set.ext hroots
  -- every root lies in the window that is scanned, so the first root found is the least
  have hfound : ∀ gross, firstFrom (l.isGrossRoot net) (exactOutputScanRadius * 2 + 1)
      (firstCandidate net) = some gross ↔ IsLeast (l.grossRoots net) gross := by
    intro gross
    constructor
    · intro h
      obtain ⟨-, -, hroot, hleast⟩ := firstFrom_eq_some.mp h
      refine ⟨(hroots gross).mp hroot, ?_⟩
      intro other hother
      by_contra hlt
      have hother := (hroots other).mpr hother
      exact hleast other (candidates_window hl hother).1 (not_le.mp hlt) hother
    · intro h
      exact firstFrom_of_isLeast (fun _ => candidates_window hl) (hset.symm ▸ h)
  refine ⟨?_, ?_, grossRoots_nonempty hl, ?_⟩
  · intro gross fee
    rw [hsearch]
    cases hfirst : firstFrom (l.isGrossRoot net) (exactOutputScanRadius * 2 + 1)
        (firstCandidate net) with
    | none =>
      have hnone : ¬ IsLeast (l.grossRoots net) gross := by
        rw [← hfound, hfirst]
        simp
      simp [hnone]
    | some least =>
      have hleast := (hfound least).mp hfirst
      simp only [Option.elim_some, Except.ok.injEq, Prod.mk.injEq]
      constructor
      · rintro ⟨rfl, rfl⟩
        exact ⟨hleast, rfl⟩
      · rintro ⟨hgross, rfl⟩
        obtain rfl := hgross.unique hleast
        exact ⟨rfl, rfl⟩
  · rw [hsearch]
    cases hfirst : firstFrom (l.isGrossRoot net) (exactOutputScanRadius * 2 + 1)
        (firstCandidate net) with
    | none =>
      simp only [Option.elim_none, true_iff]
      refine Set.eq_empty_iff_forall_notMem.mpr ?_
      intro gross hgross
      have hroot := (hroots gross).mpr hgross
      obtain ⟨hle, hlt⟩ := candidates_window hl hroot
      exact firstFrom_eq_none.mp hfirst gross hle hlt hroot
    | some least =>
      have hleast := ((hfound least).mp hfirst).1
      simp only [Option.elim_some, reduceCtorEq, false_iff]
      exact Set.Nonempty.ne_empty ⟨least, hleast⟩
  · intro gross hgross
    have hwindow := (candidates_window hl ((hroots gross).mpr hgross)).2
    have hmax := firstCandidate_le hnet
    exact previewTotalFee_ok hl hgross.1 (by omega)

/-- A new ledger asked for 2000 units. -/
theorem grossForExactOutput_least_sample :
    grossForExactOutput sampleExternals .initial 2000
      = .ok (2061, FeeLedger.initial.carriedFee 2061) := by
  have henv : RoundsUp sampleExternals.mulDivRoundingUp := by
    intro x y d _ _ hd hle
    change (if d = 0 ∨ (x * y + d - 1) / d > uint256Max then _ else _) = _
    rw [if_neg (by omega)]
  have hl : FeeLedger.initial.CarriesFractions := by
    intro i
    cases i <;> decide
  refine ((grossForExactOutput_least henv hl (by decide)).1 2061 _).mpr ⟨⟨?_, ?_⟩, rfl⟩
  · exact ⟨by decide, by decide⟩
  · intro gross hgross
    have hlow : 2053 ≤ gross := by
      have hwindow := (grossRoots_window hl hgross).1
      have hestimate : grossEstimate 2000 = 2062 := by decide
      simp only [hestimate, exactOutputScanRadius] at hwindow
      omega
    have hroot : gross = 2000 + FeeLedger.initial.carriedFee gross := hgross.2
    simp only [FeeLedger.carriedFee, carriedStep, FeeLedger.initial, bpsDenominator,
      programmableFeeBps, treasuryFeeBps, processFeeBps, totalFeeBps] at hroot
    omega

end Hookemon.Contracts
