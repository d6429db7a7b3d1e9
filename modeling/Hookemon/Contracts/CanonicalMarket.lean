import Hookemon.Contracts.FeeAccounting

/-! # The swap callbacks (`market/CanonicalMarket.sol`)

The pool manager calls the hook before and after a swap. The first callback
previews the fee and remembers the context of the swap; the second one checks
that it belongs to the same swap, works out the executed quote amount, and hands
it to the accounting. In between the contract is in the phase `pending`, and
while the fee is being collected in the phase `finalizing`.

Signed values of the source keep their bit patterns as far as they are hashed
and are read as integers where the source computes with them. The fees that
`_feeDelta` casts to `int128` are never negative and stay natural numbers.
-/

namespace Hookemon.Contracts

open Hookemon.Core

/-! ## Data -/

/-- `PoolKey`. -/
structure PoolKey where
  currency0 : Address
  currency1 : Address
  fee : BitVec 24
  tickSpacing : BitVec 24
  hooks : Address
deriving DecidableEq, Repr

/-- `SwapParams`; `amountSpecified` is an `int256`. -/
structure SwapParams where
  zeroForOne : Bool
  amountSpecified : BitVec 256
  sqrtPriceLimitX96 : BitVec 160
deriving DecidableEq, Repr

/-- `BalanceDelta`: two `int128`. -/
structure BalanceDelta where
  amount0 : BitVec 128
  amount1 : BitVec 128
deriving DecidableEq, Repr

/-- The two components of `poolManager.getSlot0` that the callbacks read. -/
structure Slot0Fees where
  protocolFee : BitVec 24
  lpFee : BitVec 24
deriving DecidableEq, Repr

/-- What identifies a swap across its two callbacks. -/
structure SwapContext where
  sender : Address
  key : PoolKey
  params : SwapParams
deriving DecidableEq, Repr

/-- The immutables of the market, with the address of the contract itself. -/
structure MarketImmutables where
  self : Address
  poolManager : Address
  usdg : Address
  hkmn : Address
  tickSpacing : BitVec 24
deriving DecidableEq, Repr

inductive CallbackPhase where
  | idle
  | pending
  | finalizing
deriving DecidableEq, Repr

/-- The storage of `CanonicalMarketCallback`. -/
structure Market where
  callbackPhase : CallbackPhase
  callbackContext : Bytes32
  lastExecutedUsdg : Nat
  lastRawPoolUsdgDelta : Int

namespace Market

/-- The storage of a new contract. -/
def initial : Market := ⟨.idle, 0, 0, 0⟩

end Market

/-- `FinalizedSwap`. -/
structure FinalizedSwap where
  executedUsdg : Nat
  rawUsdgDelta : Int
  rawHkmnDelta : Int
  fee : Nat
  usdgSpecified : Bool
deriving DecidableEq, Repr

abbrev exactOutputScanRadius : Nat := 8

/-! ## Helpers -/

/-- The words of `abi.encode(sender, k…, p…)` in `_context`. -/
def contextWords (c : SwapContext) : List (BitVec 256) :=
  [c.sender.setWidth 256, c.key.currency0.setWidth 256, c.key.currency1.setWidth 256,
    c.key.fee.setWidth 256, c.key.tickSpacing.signExtend 256, c.key.hooks.setWidth 256,
    if c.params.zeroForOne then 1 else 0, c.params.amountSpecified,
    c.params.sqrtPriceLimitX96.setWidth 256]

/-- The bytes that `_context` hashes. -/
def contextBytes (c : SwapContext) : Bytes := encodeWords (contextWords c)

/-- `_context`. -/
def context (env : Externals) (c : SwapContext) : Bytes32 := env.keccak256 (contextBytes c)

/-- `_specified0`. -/
def specified0 (p : SwapParams) : Bool :=
  decide (p.amountSpecified.toInt < 0) == p.zeroForOne

/-- `_matches`. -/
def matchesCanonicalPool (m : MarketImmutables) (k : PoolKey) (slot0 : Slot0Fees) : Bool :=
  let c0 := if m.usdg < m.hkmn then m.usdg else m.hkmn
  let c1 := if c0 = m.usdg then m.hkmn else m.usdg
  k.currency0 == c0 && k.currency1 == c1 && k.fee == 0 && k.tickSpacing == m.tickSpacing &&
    k.hooks == m.self && slot0.protocolFee == 0 && slot0.lpFee == 0

/-- Whether the quote currency is the one whose amount the swap specifies. -/
def usdgSpecified (m : MarketImmutables) (k : PoolKey) (p : SwapParams) : Bool :=
  specified0 p == (m.usdg == k.currency0)

/-- `_abs`. -/
def absInt256 (x : Int) : Run Nat := do
  revertIf (x = int256Min) .invalidFinalizedSwap
  pure x.natAbs

/-- `_feeDelta`. -/
def feeDelta (feeAmount : Nat) : Run Nat := do
  revertIf (feeAmount > int128Max) .invalidFinalizedSwap
  pure feeAmount

/-- `_fee`. -/
def marketFee (l : FeeLedger) (x : Nat) : Run Nat := do
  let maxAmount := ((int128Max + 1) * bpsDenominator - 1) / totalFeeBps
  revertIf (x > maxAmount) .invalidFinalizedSwap
  let f ← previewTotalFee l x
  feeDelta f

/-- The loop of `_grossForExactOutput`, with the number of candidates left. -/
def scanCandidates (l : FeeLedger) (requestedNet : Nat) : Nat → Nat → Run (Nat × Nat)
  | 0, _ => .error .invalidFinalizedSwap
  | i + 1, candidate => do
    let candidateFee ← previewTotalFee l candidate
    if candidateFee ≤ candidate ∧ candidate - candidateFee = requestedNet then
      pure (candidate, candidateFee)
    else if candidate = uint256Max then
      .error .invalidFinalizedSwap
    else
      scanCandidates l requestedNet i (candidate + 1)

/-- `_grossForExactOutput`. -/
def grossForExactOutput (env : Externals) (l : FeeLedger) (requestedNet : Nat) :
    Run (Nat × Nat) := do
  let estimate ←
    env.mulDivRoundingUp requestedNet bpsDenominator (bpsDenominator - totalFeeBps)
  let candidate :=
    if estimate > exactOutputScanRadius then estimate - exactOutputScanRadius
    else minimumExecutedUsdg
  let candidate := if candidate < minimumExecutedUsdg then minimumExecutedUsdg else candidate
  scanCandidates l requestedNet (exactOutputScanRadius * 2 + 1) candidate

/-- `_feeForSpecifiedUsdg`. -/
def feeForSpecifiedUsdg (env : Externals) (l : FeeLedger) (amountSpecified : Int) : Run Nat := do
  let requestedNet ← absInt256 amountSpecified
  if amountSpecified < 0 then
    marketFee l requestedNet
  else
    let (_, fee) ← grossForExactOutput env l requestedNet
    feeDelta fee

/-! ## The callbacks -/

/-- `_beforeSwap`: the specified component of the returned delta, and the new
market storage. The unspecified component and the fee override are zero. -/
def marketBeforeSwap (env : Externals) (m : MarketImmutables) (msgSender : Address)
    (c : SwapContext) (slot0 : Slot0Fees) (l : FeeLedger) (mk : Market) : Run (Nat × Market) := do
  revertIf (msgSender ≠ m.poolManager) .foreignPoolManager
  revertIf (mk.callbackPhase ≠ .idle) .reentrantCallback
  revertIf (matchesCanonicalPool m c.key slot0 = false ∨ c.params.amountSpecified = 0)
    .invalidCanonicalPoolKey
  let f ← (if usdgSpecified m c.key c.params then
      feeForSpecifiedUsdg env l c.params.amountSpecified.toInt
    else .ok 0)
  pure (f, { mk with callbackContext := context env c, callbackPhase := .pending })

/-- The branch of `_validateFinalizedSwap` on the sign of the specified amount:
the executed quote amount and its fee. -/
def executedAndFee (env : Externals) (l : FeeLedger) (amountSpecified : Int) (netUsdg : Nat) :
    Run (Nat × Nat) :=
  if amountSpecified < 0 then do
    let fee ← marketFee l netUsdg
    pure (netUsdg, fee)
  else do
    let (executedUsdg, totalFee) ← grossForExactOutput env l netUsdg
    let fee ← feeDelta totalFee
    pure (executedUsdg, fee)

/-- `_validateFinalizedSwap`. -/
def validateFinalizedSwap (env : Externals) (m : MarketImmutables) (k : PoolKey)
    (p : SwapParams) (d : BalanceDelta) (l : FeeLedger) : Run FinalizedSwap := do
  let a0 := d.amount0.toInt
  let a1 := d.amount1.toInt
  revertIf (a0 = 0 ∨ a1 = 0 ∨ (a0 < 0 ↔ a1 < 0)) .invalidFinalizedSwap
  let amountSpecified := p.amountSpecified.toInt
  let specified := if specified0 p then a0 else a1
  let usdg0 := m.usdg == k.currency0
  let rawUsdgDelta := if usdg0 then a0 else a1
  let rawHkmnDelta := if usdg0 then a1 else a0
  let usdgSpecified := usdgSpecified m k p
  let netUsdg ← absInt256 (if usdgSpecified then amountSpecified else rawUsdgDelta)
  let (executedUsdg, fee) ← executedAndFee env l amountSpecified netUsdg
  revertIf (usdgSpecified = true ∧ amountSpecified > int256Max - fee) .invalidFinalizedSwap
  revertIf (specified ≠ amountSpecified + (if usdgSpecified then (fee : Int) else 0))
    .invalidFinalizedSwap
  pure ⟨executedUsdg, rawUsdgDelta, rawHkmnDelta, fee, usdgSpecified⟩

/-- `_afterSwap` up to the collection of the fee. -/
def marketAfterSwap (env : Externals) (m : MarketImmutables) (msgSender : Address)
    (c : SwapContext) (slot0 : Slot0Fees) (d : BalanceDelta) (l : FeeLedger) (mk : Market) :
    Run (FinalizedSwap × Market) := do
  revertIf (msgSender ≠ m.poolManager) .foreignPoolManager
  revertIf (mk.callbackPhase = .finalizing) .reentrantCallback
  revertIf (mk.callbackPhase ≠ .pending ∨ matchesCanonicalPool m c.key slot0 = false ∨
    mk.callbackContext ≠ context env c) .invalidCanonicalPoolKey
  let finalized ← validateFinalizedSwap env m c.key c.params d l
  pure (finalized, { mk with callbackPhase := .finalizing })

/-- `_afterSwap` after the accrual: record the swap and go back to `idle`. -/
def finishSwap (finalized : FinalizedSwap) (mk : Market) : Market :=
  { mk with
    lastRawPoolUsdgDelta := finalized.rawUsdgDelta
    lastExecutedUsdg := finalized.executedUsdg
    callbackPhase := .idle
    callbackContext := 0 }

/-! ## What the callbacks check -/

/-- The words of a context determine it. -/
theorem contextWords_injective : Function.Injective contextWords := by
  rintro ⟨s, ⟨c0, c1, fee, ts, hk⟩, ⟨zfo, amt, lim⟩⟩
    ⟨s', ⟨c0', c1', fee', ts', hk'⟩, ⟨zfo', amt', lim'⟩⟩ h
  simp only [contextWords, List.cons.injEq, and_true] at h
  rcases h with ⟨hs, hc0, hc1, hfee, hts, hhk, hzfo, hamt, hlim⟩
  have hts' : ts = ts' := by
    have hback := congrArg BitVec.toInt hts
    rw [BitVec.toInt_signExtend_of_le (by decide), BitVec.toInt_signExtend_of_le (by decide)]
      at hback
    exact BitVec.eq_of_toInt_eq hback
  have hzfo' : zfo = zfo' := by
    cases zfo <;> cases zfo' <;> simp_all
  rw [setWidth_inj_of_le (by decide) hs, setWidth_inj_of_le (by decide) hc0,
    setWidth_inj_of_le (by decide) hc1, setWidth_inj_of_le (by decide) hfee, hts',
    setWidth_inj_of_le (by decide) hhk, hzfo', hamt, setWidth_inj_of_le (by decide) hlim]

theorem contextBytes_injective : Function.Injective contextBytes := by
  intro c c' h
  unfold contextBytes at h
  exact contextWords_injective (encodeWords_injective h)

theorem feeDelta_eq_ok {x f : Nat} : feeDelta x = .ok f ↔ x ≤ int128Max ∧ x = f := by
  simp only [feeDelta, bind_eq_ok, revertIf_eq_ok, pure_eq_ok, exists_const, not_lt]

/-- The candidates are accepted on their own preview. -/
theorem scanCandidates_eq_ok {l : FeeLedger} {net : Nat} {i candidate gross fee : Nat}
    (h : scanCandidates l net i candidate = .ok (gross, fee)) :
    previewTotalFee l gross = .ok fee ∧ fee ≤ gross ∧ gross - fee = net := by
  induction i generalizing candidate with
  | zero => simp [scanCandidates] at h
  | succ i ih =>
    simp only [scanCandidates, bind_eq_ok] at h
    rcases h with ⟨candidateFee, hfee, h⟩
    split at h
    · rename_i hroot
      simp only [pure_eq_ok, Prod.mk.injEq] at h
      rcases h with ⟨rfl, rfl⟩
      exact ⟨hfee, hroot⟩
    · split at h
      · simp at h
      · exact ih h

theorem grossForExactOutput_eq_ok {env : Externals} {l : FeeLedger} {net gross fee : Nat}
    (h : grossForExactOutput env l net = .ok (gross, fee)) :
    previewTotalFee l gross = .ok fee ∧ fee ≤ gross ∧ gross - fee = net := by
  simp only [grossForExactOutput, bind_eq_ok] at h
  rcases h with ⟨estimate, -, h⟩
  exact scanCandidates_eq_ok h

/-- The fee of a flat amount is the preview of that amount. -/
theorem marketFee_eq_ok {l : FeeLedger} {x f : Nat} (h : marketFee l x = .ok f) :
    previewTotalFee l x = .ok f := by
  simp only [marketFee, bind_eq_ok, feeDelta_eq_ok] at h
  rcases h with ⟨-, -, f', hpreview, -, rfl⟩
  exact hpreview

/-- The fee of a specified amount depends on the ledger through its remainders
alone. -/
theorem feeForSpecifiedUsdg_congr {l l' : FeeLedger} (h : ∀ i, l'.remainder i = l.remainder i)
    (env : Externals) (amount : Int) :
    feeForSpecifiedUsdg env l' amount = feeForSpecifiedUsdg env l amount := by
  have hpreview : previewTotalFee l' = previewTotalFee l := by
    funext q
    exact previewTotalFee_congr h q
  have hscan : ∀ net i candidate,
      scanCandidates l' net i candidate = scanCandidates l net i candidate := by
    intro net i
    induction i with
    | zero =>
      intro candidate
      rfl
    | succ i ih =>
      intro candidate
      simp only [scanCandidates, hpreview, ih]
  simp only [feeForSpecifiedUsdg, marketFee, grossForExactOutput, hpreview, hscan]

/-- What a successful `_beforeSwap` says. -/
theorem marketBeforeSwap_eq_ok {env : Externals} {m : MarketImmutables} {sender : Address}
    {c : SwapContext} {slot0 : Slot0Fees} {l : FeeLedger} {mk mk' : Market} {f : Nat}
    (h : marketBeforeSwap env m sender c slot0 l mk = .ok (f, mk')) :
    sender = m.poolManager ∧ mk.callbackPhase = .idle ∧
      (usdgSpecified m c.key c.params = true →
        feeForSpecifiedUsdg env l c.params.amountSpecified.toInt = .ok f) ∧
      mk' = { mk with callbackContext := context env c, callbackPhase := .pending } := by
  simp only [marketBeforeSwap, bind_eq_ok, revertIf_eq_ok, pure_eq_ok, Prod.mk.injEq] at h
  rcases h with ⟨-, hsender, -, hphase, -, -, f', hfee, rfl, rfl⟩
  refine ⟨by simpa using hsender, by simpa using hphase, ?_, rfl⟩
  intro hspecified
  simpa [hspecified] using hfee

/-- Both branches of the executed amount charge the preview of that amount, and
compute the fee as the first callback does from the same specified amount. -/
theorem executedAndFee_eq_ok {env : Externals} {l : FeeLedger} {amount : Int}
    {net executed fee : Nat} (h : executedAndFee env l amount net = .ok (executed, fee)) :
    previewTotalFee l executed = .ok fee ∧
      (absInt256 amount = .ok net → feeForSpecifiedUsdg env l amount = .ok fee) := by
  unfold executedAndFee at h
  split at h
  · rename_i hneg
    simp only [bind_eq_ok, pure_eq_ok, Prod.mk.injEq] at h
    rcases h with ⟨f, hf, rfl, rfl⟩
    refine ⟨marketFee_eq_ok hf, ?_⟩
    intro habs
    simp only [feeForSpecifiedUsdg, habs, ok_bind, if_pos hneg, hf]
  · rename_i hneg
    simp only [bind_eq_ok, pure_eq_ok, Prod.mk.injEq] at h
    rcases h with ⟨⟨g, total⟩, hgross, f, hdelta, rfl, rfl⟩
    have hsame : total = f := (feeDelta_eq_ok.mp hdelta).2
    refine ⟨hsame ▸ (grossForExactOutput_eq_ok hgross).1, ?_⟩
    intro habs
    simp only [feeForSpecifiedUsdg, habs, ok_bind, if_neg hneg, hgross, hdelta]

/-- What a successful `_validateFinalizedSwap` says about the fee: it is the
preview of the executed amount, and when the quote currency is specified it is
the fee that the first callback computed from the same amount. -/
theorem validateFinalizedSwap_eq_ok {env : Externals} {m : MarketImmutables} {k : PoolKey}
    {p : SwapParams} {d : BalanceDelta} {l : FeeLedger} {fin : FinalizedSwap}
    (h : validateFinalizedSwap env m k p d l = .ok fin) :
    previewTotalFee l fin.executedUsdg = .ok fin.fee ∧
      fin.usdgSpecified = usdgSpecified m k p ∧
      (usdgSpecified m k p = true →
        feeForSpecifiedUsdg env l p.amountSpecified.toInt = .ok fin.fee) := by
  simp only [validateFinalizedSwap, bind_eq_ok, revertIf_eq_ok, pure_eq_ok] at h
  rcases h with ⟨-, -, net, hnet, ⟨executed, fee⟩, hfee, -, -, -, -, rfl⟩
  rcases executedAndFee_eq_ok hfee with ⟨hpreview, hfirst⟩
  refine ⟨hpreview, rfl, ?_⟩
  intro hspecified
  rw [if_pos hspecified] at hnet
  exact hfirst hnet

/-- What a successful `_afterSwap` says before it collects. -/
theorem marketAfterSwap_eq_ok {env : Externals} {m : MarketImmutables} {sender : Address}
    {c : SwapContext} {slot0 : Slot0Fees} {d : BalanceDelta} {l : FeeLedger} {mk mk' : Market}
    {fin : FinalizedSwap}
    (h : marketAfterSwap env m sender c slot0 d l mk = .ok (fin, mk')) :
    sender = m.poolManager ∧ mk.callbackPhase = .pending ∧
      mk.callbackContext = context env c ∧
      validateFinalizedSwap env m c.key c.params d l = .ok fin ∧
      mk' = { mk with callbackPhase := .finalizing } := by
  simp only [marketAfterSwap, bind_eq_ok, revertIf_eq_ok, pure_eq_ok, Prod.mk.injEq] at h
  rcases h with ⟨-, hsender, -, -, -, hpending, fin', hvalid, rfl, rfl⟩
  push Not at hpending
  exact ⟨by simpa using hsender, hpending.1, hpending.2.2, hvalid, rfl⟩

end Hookemon.Contracts
