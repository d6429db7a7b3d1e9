import Hookemon.Contracts.FeeStreams
import Hookemon.Contracts.HookemonHook

/-! # The two callbacks of a swap belong together

A swap is two callbacks with anything in between. The phase and the context hash
tie the second to the first; the lock keeps the ledger still while the fee is
collected; and no other entry touches a remainder. Hence every `afterSwap` that
takes effect follows a `beforeSwap` of the same swap with no other callback
between them, and the fee that was quoted, taken and booked is one amount.
-/

namespace Hookemon.Contracts

open Hookemon.Core

/-! ## The callbacks of a history -/

/-- A swap callback that took effect. Of the second one it keeps what the hook
took from the pool manager and what it credited to the three streams. -/
inductive SwapEvent where
  | before (swap : SwapContext) (quoted : Nat)
  | after (swap : SwapContext) (taken credited : Nat)
deriving DecidableEq, Repr

/-- The amount of a request to the pool manager. -/
def HookRequest.taken : HookRequest → Nat
  | .take _ amount => amount
  | .pay .. => 0

/-- What the three streams gained between two states. -/
def streamCredits (c : ConstructorConfig) (s s' : Hook) : Nat :=
  (s'.fees.programmableLiabilities c.programmable - s.fees.programmableLiabilities c.programmable) +
    (s'.fees.treasuryLiabilities s.roles.treasury - s.fees.treasuryLiabilities s.roles.treasury) +
      (s'.fees.processLiabilityAmount - s.fees.processLiabilityAmount)

/-- The swap callback that a piece of hook code completes. -/
def swapEvent? (c : ConstructorConfig) (seg : HookSegment) : Option SwapEvent :=
  match seg.call.op, seg.progress with
  | .beforeSwap swap _, .finished (.beforeSwapDelta quoted) => some (.before swap quoted)
  | .afterSwap swap _ _, .finished _ =>
    some (.after swap 0 (streamCredits c seg.pre seg.post))
  | .afterSwap swap _ _, .resumed request _ =>
    some (.after swap request.taken (streamCredits c seg.pre seg.post))
  | _, _ => none

/-- The swap callbacks of a history, in the order in which they took effect. -/
def swapEvents (c : ConstructorConfig) (w : HookHistory) : List SwapEvent :=
  w.trace.filterMap (swapEvent? c)

/-- The swap of a call, if it is a swap callback. -/
def HookOp.swap? : HookOp → Option SwapContext
  | .beforeSwap swap _ => some swap
  | .afterSwap swap _ _ => some swap
  | _ => none

theorem swapEvents_push (c : ConstructorConfig) (w : HookHistory) (seg : HookSegment) :
    swapEvents c (w.push seg) = swapEvents c w ++ (swapEvent? c seg).toList := by
  simp only [swapEvents, Traced.push_trace, List.filterMap_append]
  cases h : swapEvent? c seg <;> simp [h]

theorem swapEvents_push_of_none {c : ConstructorConfig} {w : HookHistory} {seg : HookSegment}
    (h : swapEvent? c seg = none) : swapEvents c (w.push seg) = swapEvents c w := by
  rw [swapEvents_push, h]
  exact List.append_nil _

/-- Only the two callbacks are events. -/
theorem swapEvent?_of_swap?_none {c : ConstructorConfig} {seg : HookSegment}
    (h : seg.call.op.swap? = none) : swapEvent? c seg = none := by
  rcases seg with ⟨t, ⟨sender, op⟩, progress, pre, post⟩
  cases op <;> first | rfl | cases h

theorem swap?_of_book? {op : HookOp} {book : Book} (h : op.book? = some book) :
    op.swap? = none := by
  cases op <;> first | rfl | cases h

/-! ## Pairing -/

/-- The second callback answers the first: the contexts have one hash, what was
taken was credited, and for one swap in the quote currency it was quoted. -/
def Answers (env : Externals) (m : MarketImmutables) : SwapEvent → SwapEvent → Prop
  | .before swap quoted, .after swap' taken credited =>
    context env swap = context env swap' ∧ taken = credited ∧
      (swap = swap' → usdgSpecified m swap.key swap.params = true → quoted = taken)
  | _, _ => False

/-- Every second callback answers the event right before it. -/
def Paired (env : Externals) (m : MarketImmutables) (events : List SwapEvent) : Prop :=
  ∀ earlier swap taken credited later, events = earlier ++ .after swap taken credited :: later →
    ∃ earlier' b, earlier = earlier' ++ [b] ∧ Answers env m b (.after swap taken credited)

theorem paired_nil (env : Externals) (m : MarketImmutables) : Paired env m [] := by
  intro earlier swap taken credited later h
  simp at h

section

variable {env : Externals} {m : MarketImmutables} {events : List SwapEvent}

/-- A first callback needs no partner. -/
theorem Paired.before (h : Paired env m events) (swap : SwapContext) (quoted : Nat) :
    Paired env m (events ++ [.before swap quoted]) := by
  intro earlier swap' taken credited later hsplit
  rcases snoc_eq_split hsplit with ⟨-, hlast⟩ | ⟨later', hfront⟩
  · cases hlast
  · exact h earlier swap' taken credited later' hfront

/-- A second callback is paired by the event it answers. -/
theorem Paired.after (h : Paired env m events) {earlier : List SwapEvent} {b : SwapEvent}
    {swap : SwapContext} {taken credited : Nat} (hevents : events = earlier ++ [b])
    (hanswers : Answers env m b (.after swap taken credited)) :
    Paired env m (events ++ [.after swap taken credited]) := by
  intro earlier' swap' taken' credited' later hsplit
  rcases snoc_eq_split hsplit with ⟨hfront, hlast⟩ | ⟨later', hfront⟩
  · -- the new event itself
    rw [hlast]
    exact ⟨earlier, b, hfront.trans hevents, hanswers⟩
  · exact h earlier' swap' taken' credited' later' hfront

end

/-! ## What stays still while the fee is collected -/

/-- While the lock is held the ledger does not change; and while a swap is being
finalized under the lock, the market does not change either and no callback takes
effect. -/
def Quiet (c : ConstructorConfig) (w w' : HookHistory) : Prop :=
  w.state.fees.moneyPathEntered = true → w'.state.fees = w.state.fees ∧
    (w.state.market.callbackPhase = .finalizing →
      w'.state.market = w.state.market ∧ swapEvents c w' = swapEvents c w)

/-- Control is handed over only by entries that took the lock. -/
theorem HandsOver.unlocked {env : Externals} {c : ConstructorConfig} {now : Nat} {s sent : Hook}
    {m : Msg} {r : HookRequest} {onReturn : Hook → Run (HookReturn × Hook)}
    (h : HandsOver env c now s m r sent onReturn) : s.fees.moneyPathEntered = false := by
  cases h with
  | claim _ _ hfees _ => exact (claimLiability_eq_ok hfees).1
  | claimProcess _ hfees _ => exact (claimProcessLiability_eq_ok hfees).1
  | afterSwap hunlocked _ _ => exact hunlocked

theorem quiet_done {env : Externals} {c : ConstructorConfig} {now : Nat} {m : Msg}
    {v : HookReturn} {w : HookHistory} {s' : Hook}
    (h : Finishes env c now w.state m v s') :
    Quiet c w (w.push ⟨now, m, .finished v, w.state, s'⟩) := by
  intro hentered
  have hsilent : m.op.swap? = none → swapEvents c (w.push ⟨now, m, .finished v, w.state, s'⟩) =
      swapEvents c w := fun hop => swapEvents_push_of_none (swapEvent?_of_swap?_none hop)
  cases h with
  | beforeSwap hbefore =>
    refine ⟨rfl, ?_⟩
    intro hfinalizing
    -- the first callback runs from `idle` only
    have hidle := (marketBeforeSwap_eq_ok hbefore).2.1
    rw [hfinalizing] at hidle
    cases hidle
  | afterSwap hunlocked _ _ _ =>
    rw [hentered] at hunlocked
    cases hunlocked
  | _ => exact ⟨rfl, fun _ => ⟨rfl, hsilent rfl⟩⟩

theorem quiet_frameRule (env : Externals) (c : ConstructorConfig) (now : Nat) :
    FrameRule (traced (enter env c) now) (Quiet c) where
  refl w := fun _ => ⟨rfl, fun _ => ⟨rfl, rfl⟩⟩
  trans := by
    intro w₁ w₂ w₃ h₁ h₂ hentered
    rcases h₁ hentered with ⟨hfees₁, hmarket₁⟩
    rcases h₂ (by rw [hfees₁]; exact hentered) with ⟨hfees₂, hmarket₂⟩
    refine ⟨hfees₂.trans hfees₁, ?_⟩
    intro hfinalizing
    rcases hmarket₁ hfinalizing with ⟨hm₁, he₁⟩
    rcases hmarket₂ (by rw [hm₁]; exact hfinalizing) with ⟨hm₂, he₂⟩
    exact ⟨hm₂.trans hm₁, he₂.trans he₁⟩
  done := by
    intro m w v w' hout
    rcases traced_eq_done hout with ⟨s', hdone, rfl⟩
    exact quiet_done (enter_eq_done hdone)
  resume := by
    intro m w r sent onReturn onFailure w₁ v w' hout _ _ hentered
    rcases traced_eq_call hout with ⟨_, _, _, hcall, -, -, -⟩
    rw [(enter_eq_call hcall).1.unlocked] at hentered
    cases hentered
  fail := by
    intro m w r sent onReturn onFailure v w' hout _ hentered
    rcases traced_eq_call hout with ⟨_, _, _, hcall, -, -, -⟩
    rw [(enter_eq_call hcall).1.unlocked] at hentered
    cases hentered

/-! ## The quote stays good until it is used -/

/-- While a swap is open, the last callback is its first one, and the quote is
what the ledger would charge now. -/
def OpenSwap (env : Externals) (c : ConstructorConfig) (w : HookHistory) : Prop :=
  ∃ earlier swap quoted, swapEvents c w = earlier ++ [.before swap quoted] ∧
    w.state.market.callbackContext = context env swap ∧
    (usdgSpecified c.market swap.key swap.params = true →
      feeForSpecifiedUsdg env w.state.fees swap.params.amountSpecified.toInt = .ok quoted)

/-- The invariant of histories behind the pairing. -/
def SwapInv (env : Externals) (c : ConstructorConfig) (w : HookHistory) : Prop :=
  Paired env c.market (swapEvents c w) ∧
    (w.state.market.callbackPhase ≠ .idle → OpenSwap env c w)

section

variable {env : Externals} {c : ConstructorConfig} {w w' : HookHistory}

/-- An open swap stays open as long as its context, its events and the remainders
do. -/
theorem OpenSwap.congr (h : OpenSwap env c w) (hevents : swapEvents c w' = swapEvents c w)
    (hcontext : w'.state.market.callbackContext = w.state.market.callbackContext)
    (hremainder : ∀ i, w'.state.fees.remainder i = w.state.fees.remainder i) :
    OpenSwap env c w' := by
  rcases h with ⟨earlier, swap, quoted, hlast, hctx, hquote⟩
  refine ⟨earlier, swap, quoted, hevents.trans hlast, hcontext.trans hctx, ?_⟩
  intro hspecified
  rw [feeForSpecifiedUsdg_congr hremainder]
  exact hquote hspecified

/-- The invariant survives everything but the two callbacks. -/
theorem SwapInv.congr (h : SwapInv env c w) (hevents : swapEvents c w' = swapEvents c w)
    (hcontext : w'.state.market.callbackContext = w.state.market.callbackContext)
    (hphase : w'.state.market.callbackPhase ≠ .idle → w.state.market.callbackPhase ≠ .idle)
    (hremainder : ∀ i, w'.state.fees.remainder i = w.state.fees.remainder i) :
    SwapInv env c w' := by
  refine ⟨?_, ?_⟩
  · rw [hevents]
    exact h.1
  · intro hopen
    exact (h.2 (hphase hopen)).congr hevents hcontext hremainder

/-- The streams gain the whole fee of a split. -/
theorem streamCredits_book {s s' : Hook} {split : FeeSplit} {q : Nat}
    (hsplit : computeSplit s.fees q = .ok split)
    (hs' : s'.fees = leaveMoneyPath (s.fees.book c.programmable s.roles.treasury split)) :
    streamCredits c s s' = split.totalFee := by
  rcases computeSplit_eq_ok hsplit with ⟨-, -, htotal⟩
  simp only [streamCredits, hs', leaveMoneyPath, FeeLedger.book, Function.update_self]
  omega

/-- The end of `afterSwap` books exactly the fee that its validation computed,
when the ledger did not change in between. -/
theorem finishAfterSwap_credits {s s' : Hook} {l : FeeLedger} {swap : SwapContext}
    {delta : BalanceDelta} {finalized : FinalizedSwap} {before : Nat} {v : HookReturn}
    (hvalid : validateFinalizedSwap env c.market swap.key swap.params delta l = .ok finalized)
    (hfees : s.fees = l) (hfinish : finishAfterSwap c finalized before s = .ok (v, s')) :
    streamCredits c s s' = finalized.fee ∧ s'.market = finishSwap finalized s.market := by
  rcases finishAfterSwap_eq_ok hfinish with ⟨split, hsplit, -, -, -, rfl⟩
  rcases validateFinalizedSwap_eq_ok hvalid with ⟨hpreview, -, -⟩
  rcases previewTotalFee_eq_ok.mp hpreview with ⟨split', hsplit', hfee⟩
  rw [hfees, hsplit'] at hsplit
  cases hsplit
  refine ⟨?_, rfl⟩
  rw [← hfee]
  refine streamCredits_book (q := finalized.executedUsdg) ?_ rfl
  rw [hfees]
  exact hsplit'

/-- A validated second callback answers the open swap with its own fee. -/
theorem OpenSwap.answered (h : OpenSwap env c w) {sender : Address} {swap : SwapContext}
    {slot0 : Slot0Fees} {delta : BalanceDelta} {finalized : FinalizedSwap} {market : Market}
    (hafter : marketAfterSwap env c.market sender swap slot0 delta
      { w.state.fees with moneyPathEntered := true } w.state.market = .ok (finalized, market)) :
    ∃ earlier b, swapEvents c w = earlier ++ [b] ∧
      Answers env c.market b (.after swap finalized.fee finalized.fee) := by
  rcases h with ⟨earlier, swap₀, quoted, hlast, hctx, hquote⟩
  rcases marketAfterSwap_eq_ok hafter with ⟨-, -, hctx', hvalid, -⟩
  refine ⟨earlier, _, hlast, hctx.symm.trans hctx', rfl, ?_⟩
  rintro rfl hspecified
  -- both callbacks compute the fee of one amount from equal remainders
  have hfee := (validateFinalizedSwap_eq_ok hvalid).2.2 hspecified
  have hremainder : ∀ i, FeeLedger.remainder { w.state.fees with moneyPathEntered := true } i =
      w.state.fees.remainder i := by
    intro i
    cases i <;> rfl
  have hsame := feeForSpecifiedUsdg_congr hremainder env swap₀.params.amountSpecified.toInt
  rw [hsame, hquote hspecified] at hfee
  exact Except.ok.inj hfee

end

/-! ## One piece at a time -/

section

variable {env : Externals} {c : ConstructorConfig} {now : Nat} {w : HookHistory} {m : Msg}
  {v : HookReturn} {r : HookRequest} {onReturn : Hook → Run (HookReturn × Hook)}

theorem SwapInv.finishes (hI : SwapInv env c w) {s' : Hook}
    (h : Finishes env c now w.state m v s') :
    SwapInv env c (w.push ⟨now, m, .finished v, w.state, s'⟩) := by
  have hsilent : m.op.swap? = none → swapEvents c (w.push ⟨now, m, .finished v, w.state, s'⟩) =
      swapEvents c w := fun hop => swapEvents_push_of_none (swapEvent?_of_swap?_none hop)
  cases h with
  | beforeSwap hbefore =>
    -- a new swap opens, quoted by the ledger as it is
    rcases marketBeforeSwap_eq_ok hbefore with ⟨-, -, hquote, rfl⟩
    refine ⟨?_, ?_⟩
    · rw [swapEvents_push]
      exact hI.1.before _ _
    · intro _
      exact ⟨swapEvents c w, _, _, swapEvents_push .., rfl, hquote⟩
  | afterSwap hunlocked hafter hfee hfinish =>
    -- the open swap is answered, and there was nothing to collect
    rcases marketAfterSwap_eq_ok hafter with ⟨-, hpending, -, hvalid, rfl⟩
    have hopen : OpenSwap env c w := hI.2 (by rw [hpending]; decide)
    rcases hopen.answered hafter with ⟨earlier, b, hevents, hanswers⟩
    rcases finishAfterSwap_credits hvalid rfl hfinish with ⟨hcredits, hmarket⟩
    refine ⟨?_, ?_⟩
    · rw [swapEvents_push]
      refine hI.1.after hevents ?_
      change Answers env c.market b (.after _ 0 (streamCredits c w.state s'))
      have hzero : streamCredits c w.state s' = 0 := hcredits.trans hfee
      rw [hfee] at hanswers
      rw [hzero]
      exact hanswers
    · intro hphase
      rw [Traced.push_state, hmarket] at hphase
      exact absurd rfl hphase
  | _ => exact hI.congr (hsilent rfl) rfl id (fun _ => rfl)

theorem SwapInv.handsOver (hI : SwapInv env c w) {sent : Hook}
    (h : HandsOver env c now w.state m r sent onReturn) :
    SwapInv env c (w.push ⟨now, m, .sent r, w.state, sent⟩) := by
  cases h with
  | claim hbook _ hfees _ =>
    exact hI.congr (swapEvents_push_of_none (swapEvent?_of_swap?_none (swap?_of_book? hbook))) rfl
      id (claimLiability_remainder hfees)
  | claimProcess _ hfees _ =>
    exact hI.congr (swapEvents_push_of_none (swapEvent?_of_swap?_none rfl)) rfl id
      (claimProcessLiability_remainder hfees)
  | afterSwap hunlocked hafter hfee =>
    rcases marketAfterSwap_eq_ok hafter with ⟨-, hpending, -, -, rfl⟩
    refine hI.congr (swapEvents_push_of_none rfl) rfl ?_ (fun i => by cases i <;> rfl)
    intro _
    rw [hpending]
    decide

theorem SwapInv.resumes {w₁ : HookHistory} {sent s' : Hook} (hI : SwapInv env c w)
    (h : HandsOver env c now w.state m r sent onReturn)
    (hquiet : Quiet c (w.push ⟨now, m, .sent r, w.state, sent⟩) w₁) (hI₁ : SwapInv env c w₁)
    (hret : onReturn w₁.state = .ok (v, s')) :
    SwapInv env c (w₁.push ⟨now, m, .resumed r v, w₁.state, s'⟩) := by
  cases h with
  | claim hbook _ _ _ =>
    rcases finishClaim_eq_ok hret with ⟨-, -, rfl⟩
    exact hI₁.congr (swapEvents_push_of_none (swapEvent?_of_swap?_none (swap?_of_book? hbook))) rfl
      id (fun i => by cases i <;> rfl)
  | claimProcess _ _ _ =>
    rcases finishClaim_eq_ok hret with ⟨-, -, rfl⟩
    exact hI₁.congr (swapEvents_push_of_none (swapEvent?_of_swap?_none rfl)) rfl id
      (fun i => by cases i <;> rfl)
  | @afterSwap _ _ _ _ finalized _ hunlocked hafter hfee =>
    rcases marketAfterSwap_eq_ok hafter with ⟨-, hpending, -, hvalid, rfl⟩
    have hopen : OpenSwap env c w := hI.2 (by rw [hpending]; decide)
    rcases hopen.answered hafter with ⟨earlier, b, hevents, hanswers⟩
    -- nothing moved while the fee was collected
    rcases hquiet rfl with ⟨hfees, hstill⟩
    rcases hstill rfl with ⟨-, hsame⟩
    rw [swapEvents_push_of_none rfl] at hsame
    rcases finishAfterSwap_credits hvalid hfees hret with ⟨hcredits, hmarket⟩
    refine ⟨?_, ?_⟩
    · rw [swapEvents_push]
      refine hI₁.1.after (hsame.trans hevents) ?_
      change Answers env c.market b (.after _ finalized.fee (streamCredits c w₁.state s'))
      rw [hcredits]
      exact hanswers
    · intro hphase
      rw [Traced.push_state, hmarket] at hphase
      exact absurd rfl hphase

end

/-- The pairing is kept by every piece of hook code, given that the lock keeps
the ledger and the market still. -/
theorem swapInv_rule (env : Externals) (c : ConstructorConfig) (now : Nat) :
    GuardedRule (traced (enter env c) now) (Quiet c) (SwapInv env c) where
  done := by
    intro m w v w' hout hI
    rcases traced_eq_done hout with ⟨s', hdone, rfl⟩
    exact hI.finishes (enter_eq_done hdone)
  entry := by
    intro m w r sent onReturn onFailure hout hI
    rcases traced_eq_call hout with ⟨_, _, _, hcall, rfl, -, -⟩
    exact hI.handsOver (enter_eq_call hcall).1
  resume := by
    intro m w r sent onReturn onFailure w₁ v w' hout hI hquiet hI₁ hret
    rcases traced_eq_call hout with ⟨_, _, _, hcall, rfl, hreturn, -⟩
    rcases hreturn w₁ v w' hret with ⟨s', hs', rfl⟩
    exact hI.resumes (enter_eq_call hcall).1 hquiet hI₁ hs'
  fail := by
    intro m w r sent onReturn onFailure v w' hout hret hI
    rcases traced_eq_call hout with ⟨_, _, _, hcall, -, -, hfailure⟩
    rcases hfailure v w' hret with ⟨s', hs', -⟩
    rcases (enter_eq_call hcall).2 with ⟨e, he⟩
    rw [he] at hs'
    cases hs'

theorem swapInv_start (env : Externals) (c : ConstructorConfig) (balance : Nat) :
    SwapInv env c (.start (Hook.deployed c balance)) := by
  refine ⟨paired_nil env c.market, ?_⟩
  intro hopen
  exact absurd rfl hopen

/-! ## The pairing -/

/-- The bytes that the swap callbacks of a history hash. -/
def hashedContexts (w : HookHistory) : Set Bytes :=
  {b | ∃ seg ∈ w.trace, ∃ swap, seg.call.op.swap? = some swap ∧ b = contextBytes swap}

theorem hashed_of_event {c : ConstructorConfig} {w : HookHistory} {e : SwapEvent}
    (h : e ∈ swapEvents c w) :
    match e with
    | .before swap _ => contextBytes swap ∈ hashedContexts w
    | .after swap _ _ => contextBytes swap ∈ hashedContexts w := by
  rcases List.mem_filterMap.mp h with ⟨seg, hmem, hevent⟩
  unfold swapEvent? at hevent
  split at hevent
  · cases hevent
    exact ⟨seg, hmem, _, by simp only [HookOp.swap?, *], rfl⟩
  · cases hevent
    exact ⟨seg, hmem, _, by simp only [HookOp.swap?, *], rfl⟩
  · cases hevent
    exact ⟨seg, hmem, _, by simp only [HookOp.swap?, *], rfl⟩
  · cases hevent

/-- **Swap callbacks come in pairs.** In every history of the hook, every
`afterSwap` that took effect comes right after a `beforeSwap` of the very same
swap, with no other callback in between; what it took from the pool manager is
what it credited to the three streams; and when the quote currency is the
specified one, it is the fee that the `beforeSwap` returned. The hash is assumed
to tell apart the contexts that occur in the history. -/
theorem swaps_paired (env : Externals) (d : Deployment) (balance t : Nat) (w : HookHistory)
    (h : HookReachable env d.toConstructorConfig balance t w)
    (hhash : Set.InjOn env.keccak256 (hashedContexts w)) (earlier later : List SwapEvent)
    (swap : SwapContext) (taken credited : Nat)
    (hafter : swapEvents d.toConstructorConfig w =
      earlier ++ .after swap taken credited :: later) :
    ∃ earlier' quoted, earlier = earlier' ++ [.before swap quoted] ∧ taken = credited ∧
      (usdgSpecified d.market swap.key swap.params = true → quoted = taken) := by
  have hinv : SwapInv env d.toConstructorConfig w :=
    h.guarded_invariant (swapInv_start env _ balance) (quiet_frameRule env _) (swapInv_rule env _)
  rcases hinv.1 earlier swap taken credited later hafter with ⟨earlier', b, hsplit, hanswers⟩
  cases b with
  | after => exact hanswers.elim
  | before swap' quoted =>
    rcases hanswers with ⟨hcontext, htaken, hquoted⟩
    have hmem : contextBytes swap' ∈ hashedContexts w :=
      hashed_of_event (c := d.toConstructorConfig) (e := .before swap' quoted) (by
        rw [hafter, hsplit]
        simp)
    have hmem' : contextBytes swap ∈ hashedContexts w :=
      hashed_of_event (c := d.toConstructorConfig) (e := .after swap taken credited) (by
        rw [hafter]
        simp)
    have hsame : swap' = swap := contextBytes_injective (hhash hmem hmem' hcontext)
    subst hsame
    exact ⟨earlier', quoted, hsplit, htaken, hquoted rfl⟩

/-- A history of a single swap hashes a single context. -/
theorem hashedContexts_injOn (env : Externals) {w : HookHistory} (swap : SwapContext)
    (h : ∀ seg ∈ w.trace, seg.call.op.swap? = none ∨ seg.call.op.swap? = some swap) :
    Set.InjOn env.keccak256 (hashedContexts w) := by
  have honly : ∀ b ∈ hashedContexts w, b = contextBytes swap := by
    rintro b ⟨seg, hmem, swap', hop, hb⟩
    rcases h seg hmem with hnone | hsome
    · rw [hnone] at hop
      cases hop
    · rw [hsome] at hop
      rw [hb, Option.some.inj hop]
  intro b hb b' hb' _
  rw [honly b hb, honly b' hb']

/-- The sample swap was quoted, charged and credited 3000 units. -/
theorem swaps_paired_sample :
    ∃ earlier' quoted, [SwapEvent.before sampleSwap 3000] = earlier' ++ [.before sampleSwap quoted] ∧
      3000 = 3000 ∧ (usdgSpecified sampleConfig.market sampleSwap.key sampleSwap.params = true →
        quoted = 3000) := by
  have hevents : swapEvents sampleConfig sampleHistory =
      [.before sampleSwap 3000, .after sampleSwap 3000 3000] := by
    decide +kernel
  exact swaps_paired sampleExternals sampleDeployment 0 1000 sampleHistory
    sampleHistory_reachable (hashedContexts_injOn _ sampleSwap (by decide +kernel))
    [.before sampleSwap 3000] [] sampleSwap 3000 3000 hevents

end Hookemon.Contracts
