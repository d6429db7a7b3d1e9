import Hookemon.Core.Trace
import Hookemon.Contracts.PayoutCommitment

/-! # Paying out entitlements (`settlement/HolderSettlement.sol`)

The composition of the commitment to payouts with the payment of entitlements, as
one contract. Funding hands control to the vault and paying hands it to the token,
both behind the lock of the ledger; committing a chunk takes no lock, so it may be
called from within either of them.
-/

namespace Hookemon.Contracts

open Hookemon.Core

/-- The chain, the address of the contract, and the authorizer that its vault was
constructed with. -/
structure SettlementConfig where
  chainId : BitVec 256
  self : Address
  authorizer : Address
deriving DecidableEq, Repr

/-! ## Storage -/

/-- The storage of `HolderSettlement`, over that of `PayoutCommitment`. -/
structure HolderSettlement extends PayoutCommitment where
  paidEntitlements : Bytes32 → BitVec 16 → BitVec 16 → Bool

/-- The storage of a new contract. -/
def HolderSettlement.initial : HolderSettlement where
  toPayoutCommitment := .initial
  paidEntitlements := fun _ _ _ => false

/-! ## Entries -/

/-- What `payEntitlement` reads and is answered: the balance that the debit checks,
the transfer, and the balance that the last check reads. -/
structure PaymentAnswers where
  debitBalance : Nat
  transfer : TransferAnswers
  finalBalance : Nat
deriving DecidableEq, Repr

/-- The external functions that change the storage. -/
inductive SettlementOp where
  | fundPayoutFromPegCycle (authorization : PayoutAuthorization) (answers : FundingAnswers)
  | commitPayoutChunk (payoutId : Bytes32) (chunkIndex : BitVec 16) (rootHash : Bytes32)
      (rootSum : BitVec 256)
  | payEntitlement (payoutId : Bytes32) (chunkIndex : BitVec 16) (claim : EntitlementClaim)
      (answers : PaymentAnswers)
deriving DecidableEq

/-- A call to an external function. -/
structure SettlementMsg where
  sender : Address
  op : SettlementOp
deriving DecidableEq

/-- The calls that leave the contract. -/
inductive SettlementRequest where
  | consumePayoutAuthorization (authorization : PayoutAuthorization)
  | transfer (recipient : Address) (amount : BitVec 256)
deriving DecidableEq

/-- What an external function returns. -/
inductive SettlementReturn where
  | none
  | payout (record : PayoutRecord)
deriving DecidableEq

abbrev SettlementOutcome :=
  Outcome Revert SettlementRequest SettlementReturn HolderSettlement

/-- `fundPayoutFromPegCycle`. -/
def fundPayoutFromPegCycle (authorization : PayoutAuthorization) (answers : FundingAnswers)
    (s : HolderSettlement) : Run SettlementOutcome := do
  let commitment ← beginFunding authorization s.toPayoutCommitment
  pure (.call (.consumePayoutAuthorization authorization)
    { s with toPayoutCommitment := commitment }
    (fun s => do
      let (record, commitment) ← finishFunding authorization answers s.toPayoutCommitment
      pure (.payout record, { s with toPayoutCommitment := commitment }))
    (.error .externalCallFailed))

/-- The end of `payEntitlement`, after the token was called. -/
def finishPayment (amount : BitVec 256) (answers : PaymentAnswers) (s : HolderSettlement) :
    Run (SettlementReturn × HolderSettlement) := do
  requireTransferred amount.toNat answers.transfer
  let fees ← settleClaim answers.finalBalance s.fees
  pure (.none, { s with fees := fees })

/-- `payEntitlement`. -/
def payEntitlement (env : Externals) (c : SettlementConfig) (payoutId : Bytes32)
    (chunkIndex : BitVec 16) (claim : EntitlementClaim) (answers : PaymentAnswers)
    (s : HolderSettlement) : Run SettlementOutcome := do
  let fees ← enterMoneyPath s.fees
  revertIf (s.paidEntitlements payoutId chunkIndex claim.index = true) .entitlementAlreadyPaid
  let verified ← verifyEntitlementProof env c.chainId c.self s.toPayoutBook payoutId chunkIndex
    claim
  revertIf (verified = false) .invalidEntitlementProof
  let paidEntitlements := Function.update s.paidEntitlements payoutId
    (Function.update (s.paidEntitlements payoutId) chunkIndex
      (Function.update (s.paidEntitlements payoutId chunkIndex) claim.index true))
  let commitment ← consumePayoutEntitlement payoutId claim.amount answers.debitBalance
    { s.toPayoutCommitment with fees := fees }
  requireTransferable c.self claim.recipient claim.amount.toNat commitment.fees
  pure (.call (.transfer claim.recipient claim.amount)
    ⟨commitment, paidEntitlements⟩ (finishPayment claim.amount answers)
    (.error .externalCallFailed))

/-- The external functions. -/
def SettlementOp.run (env : Externals) (c : SettlementConfig) (msgSender : Address)
    (s : HolderSettlement) : SettlementOp → Run SettlementOutcome
  | .fundPayoutFromPegCycle authorization answers =>
    Contracts.fundPayoutFromPegCycle authorization answers s
  | .commitPayoutChunk payoutId chunkIndex rootHash rootSum => do
    let commitment ← Contracts.commitPayoutChunk c.authorizer msgSender payoutId chunkIndex
      rootHash rootSum s.toPayoutCommitment
    pure (.done .none { s with toPayoutCommitment := commitment })
  | .payEntitlement payoutId chunkIndex claim answers =>
    Contracts.payEntitlement env c payoutId chunkIndex claim answers s

/-- The contract as a system of entries. No entry looks at the clock. -/
def settle (env : Externals) (c : SettlementConfig) (_now : Nat) (m : SettlementMsg)
    (s : HolderSettlement) : SettlementOutcome :=
  .ofRun (m.op.run env c m.sender s)

/-! ## What an entry can do -/

/-- The entries that run to their end: only the commit of a chunk does. -/
theorem settle_eq_done {env : Externals} {c : SettlementConfig} {now : Nat} {m : SettlementMsg}
    {s s' : HolderSettlement} {v : SettlementReturn} (h : settle env c now m s = .done v s') :
    ∃ payoutId chunkIndex rootHash rootSum,
      m.op = .commitPayoutChunk payoutId chunkIndex rootHash rootSum ∧
        Commits c.authorizer m.sender payoutId chunkIndex rootHash rootSum s.toPayoutCommitment
          s'.toPayoutCommitment ∧ s'.paidEntitlements = s.paidEntitlements := by
  rcases m with ⟨sender, op⟩
  rw [settle, Outcome.ofRun_eq_done] at h
  cases op with
  | fundPayoutFromPegCycle authorization answers =>
    simp only [SettlementOp.run, fundPayoutFromPegCycle, bind_eq_ok, pure_eq_ok, reduceCtorEq,
      and_false, exists_false] at h
  | commitPayoutChunk payoutId chunkIndex rootHash rootSum =>
    simp only [SettlementOp.run, bind_eq_ok, pure_eq_ok, Outcome.done.injEq] at h
    rcases h with ⟨commitment, hcommit, -, rfl⟩
    exact ⟨payoutId, chunkIndex, rootHash, rootSum, rfl, commitPayoutChunk_eq_ok hcommit, rfl⟩
  | payEntitlement payoutId chunkIndex claim answers =>
    simp only [SettlementOp.run, payEntitlement, bind_eq_ok, pure_eq_ok, reduceCtorEq,
      and_false, exists_false] at h

/-- The entries that hand control over, with the state they leave behind and what
they do when they resume. A callee that fails takes the whole call with it. -/
inductive SettlementHandsOver (env : Externals) (c : SettlementConfig) (s : HolderSettlement) :
    SettlementOp → HolderSettlement →
      (HolderSettlement → Run (SettlementReturn × HolderSettlement)) → Prop where
  | fund {authorization : PayoutAuthorization} {answers : FundingAnswers}
      (hfree : s.fees.moneyPathEntered = false)
      (hfresh : (s.payouts authorization.payoutId).funded = false) :
      SettlementHandsOver env c s (.fundPayoutFromPegCycle authorization answers)
        { s with fees := { s.fees with moneyPathEntered := true } }
        (fun s => do
          let (record, commitment) ← finishFunding authorization answers s.toPayoutCommitment
          pure (.payout record, { s with toPayoutCommitment := commitment }))
  | pay {payoutId : Bytes32} {chunkIndex : BitVec 16} {claim : EntitlementClaim}
      {answers : PaymentAnswers} {commitment : PayoutCommitment}
      (hfree : s.fees.moneyPathEntered = false)
      (hunpaid : s.paidEntitlements payoutId chunkIndex claim.index = false)
      (hclosed : s.manifestClosed payoutId = true)
      (hconsume : consumePayoutEntitlement payoutId claim.amount answers.debitBalance
        { s.toPayoutCommitment with fees := { s.fees with moneyPathEntered := true } } =
          .ok commitment) :
      SettlementHandsOver env c s (.payEntitlement payoutId chunkIndex claim answers)
        ⟨commitment, Function.update s.paidEntitlements payoutId
          (Function.update (s.paidEntitlements payoutId) chunkIndex
            (Function.update (s.paidEntitlements payoutId chunkIndex) claim.index true))⟩
        (finishPayment claim.amount answers)

/-- An accepted proof is one against a closed manifest. -/
theorem verifyEntitlementProof_closed {env : Externals} {chainId : BitVec 256} {self : Address}
    {book : PayoutBook} {payoutId : Bytes32} {chunkIndex : BitVec 16} {claim : EntitlementClaim}
    (h : verifyEntitlementProof env chainId self book payoutId chunkIndex claim = .ok true) :
    book.manifestClosed payoutId = true := by
  by_contra hopen
  have hfalse : book.manifestClosed payoutId = false := by simpa using hopen
  simp [verifyEntitlementProof, hfalse] at h

theorem settle_eq_call {env : Externals} {c : SettlementConfig} {now : Nat} {m : SettlementMsg}
    {s sent : HolderSettlement} {r : SettlementRequest}
    {onReturn : HolderSettlement → Run (SettlementReturn × HolderSettlement)}
    {onFailure : Run (SettlementReturn × HolderSettlement)}
    (h : settle env c now m s = .call r sent onReturn onFailure) :
    SettlementHandsOver env c s m.op sent onReturn ∧ onFailure = .error .externalCallFailed := by
  rcases m with ⟨sender, op⟩
  rw [settle, Outcome.ofRun_eq_call] at h
  cases op with
  | fundPayoutFromPegCycle authorization answers =>
    simp only [SettlementOp.run, fundPayoutFromPegCycle, bind_eq_ok, pure_eq_ok,
      Outcome.call.injEq] at h
    rcases h with ⟨commitment, hbegin, -, rfl, rfl, rfl⟩
    rcases beginFunding_eq_ok hbegin with ⟨hfree, hfresh, rfl⟩
    exact ⟨.fund hfree hfresh, rfl⟩
  | commitPayoutChunk payoutId chunkIndex rootHash rootSum =>
    simp only [SettlementOp.run, bind_eq_ok, pure_eq_ok, reduceCtorEq, and_false,
      exists_false] at h
  | payEntitlement payoutId chunkIndex claim answers =>
    simp only [SettlementOp.run, payEntitlement, enterMoneyPath, bind_eq_ok, revertIf_eq_ok,
      pure_eq_ok, Outcome.call.injEq] at h
    rcases h with ⟨_, ⟨_, hfree, rfl⟩, _, hunpaid, verified, hverify, _, hverified, commitment,
      hconsume, _, -, -, rfl, rfl, rfl⟩
    have htrue : verified = true := by simpa using hverified
    rw [htrue] at hverify
    exact ⟨.pay (by simpa using hfree) (by simpa using hunpaid)
      (verifyEntitlementProof_closed hverify) hconsume, rfl⟩

/-- A piece of contract code that took effect. -/
abbrev SettlementSegment :=
  Segment SettlementMsg SettlementRequest SettlementReturn HolderSettlement

/-- What a piece of contract code can be. -/
inductive SettlementPiece (env : Externals) (c : SettlementConfig) : SettlementSegment → Prop where
  | committed {t : Nat} {sender : Address} {payoutId : Bytes32} {chunkIndex : BitVec 16}
      {rootHash : Bytes32} {rootSum : BitVec 256} {v : SettlementReturn} {s s' : HolderSettlement}
      (h : Commits c.authorizer sender payoutId chunkIndex rootHash rootSum s.toPayoutCommitment
        s'.toPayoutCommitment)
      (hpaid : s'.paidEntitlements = s.paidEntitlements) :
      SettlementPiece env c
        ⟨t, ⟨sender, .commitPayoutChunk payoutId chunkIndex rootHash rootSum⟩, .finished v, s, s'⟩
  | sent {t : Nat} {sender : Address} {op : SettlementOp} {r : SettlementRequest}
      {s sent : HolderSettlement}
      {onReturn : HolderSettlement → Run (SettlementReturn × HolderSettlement)}
      (h : SettlementHandsOver env c s op sent onReturn) :
      SettlementPiece env c ⟨t, ⟨sender, op⟩, .sent r, s, sent⟩
  | resumed {t : Nat} {sender : Address} {op : SettlementOp} {r : SettlementRequest}
      {v : SettlementReturn} {s₀ sent s s' : HolderSettlement}
      {onReturn : HolderSettlement → Run (SettlementReturn × HolderSettlement)}
      (h : SettlementHandsOver env c s₀ op sent onReturn) (hret : onReturn s = .ok (v, s')) :
      SettlementPiece env c ⟨t, ⟨sender, op⟩, .resumed r v, s, s'⟩

theorem settlementPiece_of_valid {env : Externals} {c : SettlementConfig}
    {seg : SettlementSegment} (h : seg.Valid (settle env c)) : SettlementPiece env c seg := by
  rcases seg with ⟨t, ⟨sender, op⟩, progress, s, s'⟩
  cases progress with
  | finished v =>
    rcases h with hdone | ⟨r, sent, onReturn, onFailure, hcall, hfail⟩
    · rcases settle_eq_done hdone with
        ⟨payoutId, chunkIndex, rootHash, rootSum, hop, hcommits, hpaid⟩
      rw [show op = _ from hop]
      exact .committed hcommits hpaid
    · rw [(settle_eq_call hcall).2] at hfail
      exact nomatch hfail
  | sent r =>
    rcases h with ⟨onReturn, onFailure, hcall⟩
    exact .sent (settle_eq_call hcall).1
  | resumed r v =>
    rcases h with ⟨s₀, sent, onReturn, onFailure, hcall, hret⟩
    exact .resumed (settle_eq_call hcall).1 hret

/-- What the end of a payment does: it releases the lock, and nothing else. -/
theorem finishPayment_eq_ok {amount : BitVec 256} {answers : PaymentAnswers}
    {s s' : HolderSettlement} {v : SettlementReturn}
    (h : finishPayment amount answers s = .ok (v, s')) :
    s' = { s with fees := leaveMoneyPath s.fees } := by
  simp only [finishPayment, bind_eq_ok, pure_eq_ok, Prod.mk.injEq] at h
  rcases h with ⟨_, _, fees, hsettle, -, rfl⟩
  rw [(settleClaim_eq_ok.mp hsettle).2]

/-! ## While the lock is held -/

/-- Whatever happens while the lock is held leaves the ledger and the records of the
payouts as they are: only chunks are committed. -/
def KeptLocked (s s' : HolderSettlement) : Prop :=
  s.fees.moneyPathEntered = true → s'.fees = s.fees ∧ s'.payouts = s.payouts

theorem SettlementHandsOver.free {env : Externals} {c : SettlementConfig}
    {s sent : HolderSettlement} {op : SettlementOp}
    {onReturn : HolderSettlement → Run (SettlementReturn × HolderSettlement)}
    (h : SettlementHandsOver env c s op sent onReturn) : s.fees.moneyPathEntered = false := by
  cases h with
  | fund hfree hfresh => exact hfree
  | pay hfree hunpaid hclosed hconsume => exact hfree

theorem keptLocked_frameRule (env : Externals) (c : SettlementConfig) (now : Nat) :
    FrameRule (settle env c now) KeptLocked where
  refl s _ := ⟨rfl, rfl⟩
  trans := by
    intro s₁ s₂ s₃ h₁ h₂ hlocked
    rcases h₁ hlocked with ⟨hfees, hpayouts⟩
    rcases h₂ (by rw [hfees]; exact hlocked) with ⟨hfees', hpayouts'⟩
    exact ⟨hfees'.trans hfees, hpayouts'.trans hpayouts⟩
  done := by
    intro m s v s' hout _
    rcases settle_eq_done hout with ⟨_, _, _, _, -, hcommits, -⟩
    exact ⟨hcommits.fees, hcommits.payouts⟩
  resume := by
    intro m s r sent onReturn onFailure s₁ v s' hout _ _ hlocked
    rw [(settle_eq_call hout).1.free] at hlocked
    exact absurd hlocked (by decide)
  fail := by
    intro m s r sent onReturn onFailure v s' hout hret
    rw [(settle_eq_call hout).2] at hret
    exact nomatch hret

/-! ## The books of every payout -/

/-- The books of every payout are in order, and what is marked as paid belongs to a
closed manifest. -/
structure SettlementInv (s : HolderSettlement) : Prop where
  books : ∀ payoutId, PayoutBooks s.toPayoutCommitment payoutId
  paid : ∀ payoutId i j, s.paidEntitlements payoutId i j = true →
    s.manifestClosed payoutId = true

theorem settlementInv_initial : SettlementInv .initial := by
  constructor
  · exact payoutBooks_initial
  · intro payoutId i j hpaid
    exact absurd hpaid (by simp [HolderSettlement.initial])

theorem SettlementInv.commit {c : SettlementConfig} {sender : Address} {payoutId : Bytes32}
    {chunkIndex : BitVec 16} {rootHash : Bytes32} {rootSum : BitVec 256}
    {s s' : HolderSettlement} (hinv : SettlementInv s)
    (h : Commits c.authorizer sender payoutId chunkIndex rootHash rootSum s.toPayoutCommitment
      s'.toPayoutCommitment)
    (hpaid : s'.paidEntitlements = s.paidEntitlements) : SettlementInv s' := by
  constructor
  · intro p
    exact (hinv.books p).commit h
  · intro p i j hmarked
    rw [hpaid] at hmarked
    have hclosed := hinv.paid p i j hmarked
    by_cases hp : p = payoutId
    · -- the payout of the commit was open, so nothing of it is marked
      subst hp
      rw [h.opened] at hclosed
      exact absurd hclosed (by decide)
    · rw [(h.others p hp).2.1]
      exact hclosed

theorem SettlementInv.send {env : Externals} {c : SettlementConfig} {s sent : HolderSettlement}
    {op : SettlementOp} {onReturn : HolderSettlement → Run (SettlementReturn × HolderSettlement)}
    (hinv : SettlementInv s) (h : SettlementHandsOver env c s op sent onReturn) :
    SettlementInv sent := by
  cases h with
  | fund hfree hfresh =>
    constructor
    · intro p
      exact (hinv.books p).congr rfl rfl rfl rfl rfl rfl
    · exact hinv.paid
  | @pay payoutId chunkIndex claim answers commitment hfree hunpaid hclosed hconsume =>
    have hlocked : ∀ p, PayoutBooks
        { s.toPayoutCommitment with fees := { s.fees with moneyPathEntered := true } } p :=
      fun p => (hinv.books p).congr rfl rfl rfl rfl rfl rfl
    rcases consumePayoutEntitlement_eq_ok hconsume with ⟨-, -, -, -, -, hkept, -, -, -, -⟩
    constructor
    · intro p
      exact (hlocked p).pay hconsume hclosed
    · intro p i j hmarked
      show commitment.manifestClosed p = true
      rw [hkept]
      by_cases hp : p = payoutId
      · rw [hp]
        exact hclosed
      · dsimp only at hmarked
        rw [Function.update_of_ne hp] at hmarked
        exact hinv.paid p i j hmarked

theorem SettlementInv.resume {env : Externals} {c : SettlementConfig}
    {s sent s₁ s' : HolderSettlement} {op : SettlementOp} {v : SettlementReturn}
    {onReturn : HolderSettlement → Run (SettlementReturn × HolderSettlement)}
    (h : SettlementHandsOver env c s op sent onReturn) (hkept : KeptLocked sent s₁)
    (hinv : SettlementInv s₁) (hret : onReturn s₁ = .ok (v, s')) : SettlementInv s' := by
  cases h with
  | @fund authorization answers hfree hfresh =>
    simp only [bind_eq_ok, pure_eq_ok, Prod.mk.injEq] at hret
    rcases hret with ⟨⟨record, commitment⟩, hfinish, -, rfl⟩
    have hstill : (s₁.payouts authorization.payoutId).funded = false := by
      rw [(hkept rfl).2]
      exact hfresh
    rcases finishFunding_eq_ok hfinish with ⟨-, -, -, hclosed, -⟩
    constructor
    · intro p
      exact (hinv.books p).fund hfinish hstill
    · intro p i j hmarked
      show commitment.manifestClosed p = true
      rw [hclosed]
      exact hinv.paid p i j hmarked
  | pay hfree hunpaid hclosed hconsume =>
    rw [finishPayment_eq_ok hret]
    constructor
    · intro p
      exact (hinv.books p).congr rfl rfl rfl rfl rfl rfl
    · exact hinv.paid

theorem settlementInv_guardedRule (env : Externals) (c : SettlementConfig) (now : Nat) :
    GuardedRule (settle env c now) KeptLocked SettlementInv where
  done := by
    intro m s v s' hout hinv
    rcases settle_eq_done hout with ⟨_, _, _, _, -, hcommits, hpaid⟩
    exact hinv.commit hcommits hpaid
  entry := by
    intro m s r sent onReturn onFailure hout hinv
    exact hinv.send (settle_eq_call hout).1
  resume := by
    intro m s r sent onReturn onFailure s₁ v s' hout _ hkept hinv hret
    exact SettlementInv.resume (settle_eq_call hout).1 hkept hinv hret
  fail := by
    intro m s r sent onReturn onFailure v s' hout hret
    rw [(settle_eq_call hout).2] at hret
    exact nomatch hret

/-! ## The history of a payout -/

/-- A closed manifest stays closed, over the same chunks. -/
def KeepsClosed (s s' : HolderSettlement) : Prop :=
  ∀ payoutId, s.manifestClosed payoutId = true →
    s'.manifestClosed payoutId = true ∧ s'.payoutChunks payoutId = s.payoutChunks payoutId

theorem SettlementPiece.keepsClosed {env : Externals} {c : SettlementConfig}
    {seg : SettlementSegment} (h : SettlementPiece env c seg) : KeepsClosed seg.pre seg.post := by
  intro p hclosed
  cases h with
  | @committed t sender payoutId chunkIndex rootHash rootSum v s s' hcommits hpaid =>
    have hp : p ≠ payoutId := by
      intro heq
      rw [heq] at hclosed
      exact absurd (hcommits.opened.symm.trans hclosed) (by decide)
    rcases hcommits.others p hp with ⟨hchunks, hsame, -⟩
    exact ⟨hsame.trans hclosed, hchunks⟩
  | sent h =>
    cases h with
    | fund hfree hfresh => exact ⟨hclosed, rfl⟩
    | pay hfree hunpaid hclosed' hconsume =>
      rcases consumePayoutEntitlement_eq_ok hconsume with ⟨-, -, -, -, hchunks, hkept, -⟩
      exact ⟨(congrFun hkept p).trans hclosed, congrFun hchunks p⟩
  | resumed h hret =>
    cases h with
    | fund hfree hfresh =>
      simp only [bind_eq_ok, pure_eq_ok, Prod.mk.injEq] at hret
      rcases hret with ⟨⟨record, commitment⟩, hfinish, -, rfl⟩
      rcases finishFunding_eq_ok hfinish with ⟨-, -, hchunks, hkept, -⟩
      exact ⟨(congrFun hkept p).trans hclosed, congrFun hchunks p⟩
    | pay hfree hunpaid hclosed' hconsume =>
      rw [finishPayment_eq_ok hret]
      exact ⟨hclosed, rfl⟩

/-- The entitlement that a piece pays: the one whose transfer it hands to the token. -/
def paidEntitlement (seg : SettlementSegment) : Option (Bytes32 × BitVec 16 × BitVec 16) :=
  match seg.progress, seg.call.op with
  | .sent _, .payEntitlement payoutId chunkIndex claim _ =>
    some (payoutId, chunkIndex, claim.index)
  | _, _ => none

/-- The entitlements that a history paid, in order. -/
def paidEntitlementsOf (trace : List SettlementSegment) :
    List (Bytes32 × BitVec 16 × BitVec 16) :=
  trace.filterMap paidEntitlement

abbrev SettlementHistory :=
  Traced SettlementMsg SettlementRequest SettlementReturn HolderSettlement

/-- An entitlement is marked as paid. -/
def Marked (s : HolderSettlement) (e : Bytes32 × BitVec 16 × BitVec 16) : Prop :=
  s.paidEntitlements e.1 e.2.1 e.2.2 = true

/-- A piece leaves what is marked marked, and marks what it pays, which was not
marked before. -/
theorem SettlementPiece.marks {env : Externals} {c : SettlementConfig} {seg : SettlementSegment}
    (h : SettlementPiece env c seg) :
    (∀ p i j, seg.pre.paidEntitlements p i j = true → seg.post.paidEntitlements p i j = true) ∧
    ∀ e, paidEntitlement seg = some e →
      seg.pre.paidEntitlements e.1 e.2.1 e.2.2 = false ∧
      seg.post.paidEntitlements e.1 e.2.1 e.2.2 = true ∧ seg.pre.manifestClosed e.1 = true := by
  cases h with
  | committed hcommits hpaid =>
    constructor
    · intro p i j hmarked
      exact (congrFun (congrFun (congrFun hpaid p) i) j).trans hmarked
    · intro e he
      cases he
  | sent h =>
    cases h with
    | fund hfree hfresh =>
      constructor
      · intro p i j hmarked
        exact hmarked
      · intro e he
        cases he
    | @pay payoutId chunkIndex claim answers commitment hfree hunpaid hclosed hconsume =>
      constructor
      · intro p i j hmarked
        dsimp only at hmarked ⊢
        -- the payment sets one mark, and leaves those of any other entitlement
        by_cases hp : p = payoutId
        · subst hp
          rw [Function.update_self]
          by_cases hi : i = chunkIndex
          · subst hi
            rw [Function.update_self]
            by_cases hj : j = claim.index
            · rw [hj, Function.update_self]
            · rw [Function.update_of_ne hj]
              exact hmarked
          · rw [Function.update_of_ne hi]
            exact hmarked
        · rw [Function.update_of_ne hp]
          exact hmarked
      · intro e he
        have heq : (payoutId, chunkIndex, claim.index) = e := Option.some.inj he
        rw [← heq]
        refine ⟨hunpaid, ?_, hclosed⟩
        dsimp only
        rw [Function.update_self, Function.update_self, Function.update_self]
  | resumed h hret =>
    constructor
    · intro p i j hmarked
      -- the marks are set before the call out, so its return changes none
      cases h with
      | fund hfree hfresh =>
        simp only [bind_eq_ok, pure_eq_ok, Prod.mk.injEq] at hret
        rcases hret with ⟨⟨record, commitment⟩, hfinish, -, rfl⟩
        exact hmarked
      | pay hfree hunpaid hclosed hconsume =>
        rw [finishPayment_eq_ok hret]
        exact hmarked
    · intro e he
      cases he

theorem paidOnce_rule (env : Externals) (c : SettlementConfig) (now : Nat) :
    TraceRule (settle env c) now (Once paidEntitlement Marked) := by
  intro w seg _ hvalid hpre hw
  rcases (settlementPiece_of_valid hvalid).marks with ⟨hkeeps, hpays⟩
  refine hw.push hpre ?_ ?_
  · intro e hmarked
    exact hkeeps e.1 e.2.1 e.2.2 hmarked
  · intro e he
    refine ⟨?_, (hpays e he).2.1⟩
    intro hmarked
    rw [Marked, (hpays e he).1] at hmarked
    exact absurd hmarked (by decide)

/-! ## Safety and progress of payouts -/

/-- One successful commit of the authorizer, as a call to the contract. -/
def AuthorizerCommits (env : Externals) (c : SettlementConfig) (payoutId : Bytes32)
    (s s' : HolderSettlement) : Prop :=
  ∃ now chunkIndex rootHash rootSum, settle env c now
    ⟨c.authorizer, .commitPayoutChunk payoutId chunkIndex rootHash rootSum⟩ s = .done .none s'

/-- **Payouts are safe and never stuck.** At every point of every history, for every
funded payout: the running sum is that of the committed chunks and at most what was
funded, the manifest is closed exactly when it has reached it, and what is paid and
unpaid make up what was funded, the unpaid part being the liability. What a manifest
held when it closed it holds ever after, no entitlement is paid twice, and none from
an open manifest. And from every open manifest some commits of the authorizer lead to
a closed one with any 64 chunks that add up to what was funded. -/
theorem payouts_safe_and_closable (env : Externals) (c : SettlementConfig) (t : Nat)
    (w : SettlementHistory) (h : Reached (settle env c) .initial t w) :
    (∀ payoutId, (w.state.payouts payoutId).funded = true →
      w.state.committedChunkSum payoutId =
        ∑ i, (w.state.payoutChunks payoutId i).committedSum ∧
      w.state.committedChunkSum payoutId ≤ (w.state.payouts payoutId).rootSum.toNat ∧
      (w.state.manifestClosed payoutId = true ↔
        w.state.committedChunkSum payoutId = (w.state.payouts payoutId).rootSum.toNat) ∧
      (w.state.payouts payoutId).paidTotal.toNat + (w.state.payouts payoutId).unpaidTotal.toNat =
        (w.state.payouts payoutId).rootSum.toNat ∧
      w.state.fees.payoutLiabilities payoutId = (w.state.payouts payoutId).unpaidTotal.toNat) ∧
    (∀ before later, w.trace = before ++ later → ∀ payoutId,
      (stateAfter .initial before).manifestClosed payoutId = true →
        w.state.manifestClosed payoutId = true ∧
        w.state.payoutChunks payoutId = (stateAfter .initial before).payoutChunks payoutId) ∧
    (paidEntitlementsOf w.trace).Nodup ∧
    (∀ seg ∈ w.trace, ∀ e, paidEntitlement seg = some e →
      seg.pre.manifestClosed e.1 = true) ∧
    (∀ payoutId, (w.state.payouts payoutId).funded = true →
      (w.state.payouts payoutId).paidTotal ≠ 0 → w.state.manifestClosed payoutId = true) ∧
    (∀ payoutId, (w.state.payouts payoutId).funded = true →
      w.state.manifestClosed payoutId = false →
      ∀ (hashes : Fin 64 → Bytes32) (sums : Fin 64 → BitVec 256),
        ∑ i, (sums i).toNat = (w.state.payouts payoutId).rootSum.toNat →
        ∃ s', Relation.ReflTransGen (AuthorizerCommits env c payoutId) w.state s' ∧
          s'.manifestClosed payoutId = true ∧
          ∀ i, s'.payoutChunks payoutId (BitVec.ofNat 16 i.val) = ⟨hashes i, sums i, true⟩) := by
  have hinv : SettlementInv w.state := h.guarded_invariant settlementInv_initial
    (keptLocked_frameRule env c) (settlementInv_guardedRule env c)
  have hpaid : Once paidEntitlement Marked w :=
    h.traced_invariant (once_start _) (paidOnce_rule env c)
  refine ⟨?_, ?_, hpaid.nodup, ?_, ?_, ?_⟩
  · intro payoutId hfunded
    have hbooks := hinv.books payoutId
    refine ⟨hbooks.sum, ?_, ?_, hbooks.conserved, hbooks.liability⟩
    · rw [hbooks.sum]
      exact hbooks.bounded
    · rw [hbooks.sum, hbooks.closed]
      simp [hfunded]
  · intro before later hsplit
    refine h.related (R := KeepsClosed) ?_ ?_ ?_ hsplit
    · intro s p hclosed
      exact ⟨hclosed, rfl⟩
    · intro s₁ s₂ s₃ h₁ h₂ p hclosed
      rcases h₁ p hclosed with ⟨hclosed', hchunks⟩
      rcases h₂ p hclosed' with ⟨hclosed'', hchunks'⟩
      exact ⟨hclosed'', hchunks'.trans hchunks⟩
    · refine h.pieces (P := fun seg => KeepsClosed seg.pre seg.post) ?_
      intro seg hvalid
      exact (settlementPiece_of_valid hvalid).keepsClosed
  · refine h.pieces (P := fun seg => ∀ e, paidEntitlement seg = some e →
      seg.pre.manifestClosed e.1 = true) ?_
    intro seg hvalid e he
    exact ((settlementPiece_of_valid hvalid).marks.2 e he).2.2
  · intro payoutId _
    exact (hinv.books payoutId).paid
  · intro payoutId hfunded hopen hashes sums htarget
    -- the authorizer commits the chunks one by one, whatever was committed before
    rcases manifest_closable c.authorizer (hinv.books payoutId) hfunded hopen
      hashes sums htarget with ⟨commitment, hrun, hclosed, hchunks⟩
    refine ⟨{ w.state with toPayoutCommitment := commitment }, ?_, hclosed, hchunks⟩
    refine Relation.ReflTransGen.lift (p := AuthorizerCommits env c payoutId)
      (fun commitment => { w.state with toPayoutCommitment := commitment }) ?_ _ _ hrun
    rintro s s' ⟨chunkIndex, rootHash, rootSum, hcommit⟩
    refine ⟨0, chunkIndex, rootHash, rootSum, ?_⟩
    rw [settle, SettlementOp.run, hcommit]
    rfl

/-! ## A payout to run -/

def sampleSettlementConfig : SettlementConfig := ⟨4663, 0x20CC, 0x5001⟩

/-- The authorization of a payout of 35 units, as far as the settlement reads it. -/
def samplePayout : PayoutAuthorization :=
  { PayoutAuthorization.none with
    cycleId := 1, payoutId := 2, manifestDigest := 3
    rootHash := samplePathHashes.getD 9 0, rootSum := 35 }

/-- The first of the two sample claims, paid while the contract holds 35 units. -/
def samplePayment : SettlementOp :=
  .payEntitlement 2 0 (sampleClaim 0 0x4001 10 (sampleLeafHashes.getD 1 0) 20)
    ⟨35, ⟨35, 0, true, 25, 10⟩, 25⟩

/-- A payout is funded and committed to, first with an abandoned chunk and then with
the right one, and one of its entitlements is claimed twice, the second time from
within the first. -/
def sampleSettlementCalls : List (CallTree SettlementMsg) :=
  [.node ⟨0x6001, .fundPayoutFromPegCycle samplePayout ⟨0, 0x6002, 35, 35, 35⟩⟩ true
      [.node ⟨0x5001, .commitPayoutChunk 2 0 0 0⟩ true []],
    .node ⟨0x5001, .commitPayoutChunk 2 7 0 20⟩ true [],
    .node ⟨0x5001, .commitPayoutChunk 2 7 0 0⟩ true [],
    .node ⟨0x5001, .commitPayoutChunk 2 0 (samplePathHashes.getD 9 0) 35⟩ true [],
    .node ⟨0x5001, .commitPayoutChunk 2 7 0 0⟩ true [],
    .node ⟨0x4001, samplePayment⟩ true [.node ⟨0x4001, samplePayment⟩ true []],
    .node ⟨0x4001, samplePayment⟩ true []]

def sampleSettlement : SettlementHistory :=
  execAll (traced (settle sampleHashes sampleSettlementConfig) 1000) sampleSettlementCalls
    (.start .initial)

theorem sampleSettlement_reached :
    Reached (settle sampleHashes sampleSettlementConfig) .initial 1000 sampleSettlement :=
  (Reachable.transact sampleSettlementCalls (.start 0) (by decide)).reached

/-- After the sample run 10 of the 35 units are paid, once, and the closed manifest
holds the one chunk of 35. -/
theorem payouts_safe_and_closable_sample :
    (sampleSettlement.state.payouts 2).paidTotal = 10 ∧
      paidEntitlementsOf sampleSettlement.trace = [(2, 0, 0)] ∧
      sampleSettlement.state.manifestClosed 2 = true ∧
      (10 : BitVec 256).toNat + (sampleSettlement.state.payouts 2).unpaidTotal.toNat =
        (35 : BitVec 256).toNat ∧
      sampleSettlement.state.committedChunkSum 2 =
        ∑ i, (sampleSettlement.state.payoutChunks 2 i).committedSum := by
  have hpaid : (sampleSettlement.state.payouts 2).paidTotal = 10 := by decide +kernel
  have hfunded : (sampleSettlement.state.payouts 2).funded = true := by decide +kernel
  have hroot : (sampleSettlement.state.payouts 2).rootSum = 35 := by decide +kernel
  have hpayments : paidEntitlementsOf sampleSettlement.trace = [(2, 0, 0)] := by decide +kernel
  have hclosed : sampleSettlement.state.manifestClosed 2 = true := by decide +kernel
  rcases (payouts_safe_and_closable sampleHashes sampleSettlementConfig 1000 sampleSettlement
    sampleSettlement_reached).1 2 hfunded with ⟨hsum, -, -, hconserved, -⟩
  rw [hpaid, hroot] at hconserved
  exact ⟨hpaid, hpayments, hclosed, hconserved, hsum⟩

end Hookemon.Contracts
