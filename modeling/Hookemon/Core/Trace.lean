import Hookemon.Core.Reentrancy

/-! # Recording what a contract did

`traced` runs the same entries as `enter` and keeps, beside the state, the list
of pieces of contract code that took effect, each with its time and the states
around it. The list belongs to the state, so a reverted call takes its pieces
with it: what stands in the trace after an outermost call is what was committed.

An invariant of traced states may speak of the past. `TraceRule` asks for one
obligation per piece, and `TraceRule.segmentRule` turns it into a rule for every
execution.
-/

namespace Hookemon.Core

universe u

/-- How far a piece of contract code took its call: to the end, to an external
call, or from the return of an external call to the end. -/
inductive Progress (ρ β : Type u) where
  | finished (value : β)
  | sent (request : ρ)
  | resumed (request : ρ) (value : β)

/-- One piece of contract code that took effect. -/
structure Segment (κ ρ β σ : Type u) where
  time : Nat
  call : κ
  progress : Progress ρ β
  pre : σ
  post : σ

/-- A state with the pieces of code that led to it, oldest first. -/
structure Traced (κ ρ β σ : Type u) where
  state : σ
  trace : List (Segment κ ρ β σ)

variable {ε ρ β σ κ : Type u}

namespace Traced

/-- Nothing has happened yet. -/
def start (s : σ) : Traced κ ρ β σ := ⟨s, []⟩

/-- Append a piece and move to the state it left. -/
def push (w : Traced κ ρ β σ) (seg : Segment κ ρ β σ) : Traced κ ρ β σ :=
  ⟨seg.post, w.trace ++ [seg]⟩

@[simp] theorem start_state (s : σ) : (start s : Traced κ ρ β σ).state = s := rfl

@[simp] theorem start_trace (s : σ) : (start s : Traced κ ρ β σ).trace = [] := rfl

@[simp] theorem push_state (w : Traced κ ρ β σ) (seg : Segment κ ρ β σ) :
    (w.push seg).state = seg.post := rfl

@[simp] theorem push_trace (w : Traced κ ρ β σ) (seg : Segment κ ρ β σ) :
    (w.push seg).trace = w.trace ++ [seg] := rfl

end Traced

/-- The entries of a contract, keeping the trace. -/
def traced (enter : Nat → κ → σ → Outcome ε ρ β σ) (now : Nat) (c : κ)
    (w : Traced κ ρ β σ) : Outcome ε ρ β (Traced κ ρ β σ) :=
  match enter now c w.state with
  | .revert e => .revert e
  | .done v s' => .done v (w.push ⟨now, c, .finished v, w.state, s'⟩)
  | .call r sent onReturn onFailure =>
    .call r (w.push ⟨now, c, .sent r, w.state, sent⟩)
      (fun w₁ => (onReturn w₁.state).map fun (v, s') =>
        (v, w₁.push ⟨now, c, .resumed r v, w₁.state, s'⟩))
      (onFailure.map fun (v, s') => (v, w.push ⟨now, c, .finished v, w.state, s'⟩))

/-- `seg` is a piece of code that `enter` can run at its time. -/
def Segment.Valid (enter : Nat → κ → σ → Outcome ε ρ β σ) (seg : Segment κ ρ β σ) : Prop :=
  match seg.progress with
  | .finished v =>
    enter seg.time seg.call seg.pre = .done v seg.post ∨
      ∃ r sent onReturn onFailure,
        enter seg.time seg.call seg.pre = .call r sent onReturn onFailure ∧
          onFailure = .ok (v, seg.post)
  | .sent r =>
    ∃ onReturn onFailure, enter seg.time seg.call seg.pre = .call r seg.post onReturn onFailure
  | .resumed r v =>
    ∃ s₀ sent onReturn onFailure,
      enter seg.time seg.call s₀ = .call r sent onReturn onFailure ∧
        onReturn seg.pre = .ok (v, seg.post)

/-- The obligation behind an invariant of traced states: it survives every valid
piece of code that starts in the current state. -/
def TraceRule (enter : Nat → κ → σ → Outcome ε ρ β σ) (now : Nat)
    (I : Traced κ ρ β σ → Prop) : Prop :=
  ∀ (w : Traced κ ρ β σ) (seg : Segment κ ρ β σ),
    seg.time = now → seg.Valid enter → seg.pre = w.state → I w → I (w.push seg)

section

variable {enter : Nat → κ → σ → Outcome ε ρ β σ} {now : Nat}

/-- Entries that finish at once, seen from the untraced contract. -/
theorem traced_eq_done {c : κ} {w w' : Traced κ ρ β σ} {v : β}
    (h : traced enter now c w = .done v w') :
    ∃ s', enter now c w.state = .done v s' ∧
      w' = w.push ⟨now, c, .finished v, w.state, s'⟩ := by
  unfold traced at h
  cases hout : enter now c w.state with
  | revert e => simp [hout] at h
  | done v₀ s' =>
    simp only [hout, Outcome.done.injEq] at h
    obtain ⟨rfl, rfl⟩ := h
    exact ⟨s', rfl, rfl⟩
  | call r sent onReturn onFailure => simp [hout] at h

/-- Entries that hand control over, seen from the untraced contract. -/
theorem traced_eq_call {c : κ} {w sentW : Traced κ ρ β σ} {r : ρ}
    {onReturnW : Traced κ ρ β σ → Except ε (β × Traced κ ρ β σ)}
    {onFailureW : Except ε (β × Traced κ ρ β σ)}
    (h : traced enter now c w = .call r sentW onReturnW onFailureW) :
    ∃ sent onReturn onFailure,
      enter now c w.state = .call r sent onReturn onFailure ∧
      sentW = w.push ⟨now, c, .sent r, w.state, sent⟩ ∧
      (∀ w₁ v w', onReturnW w₁ = .ok (v, w') →
        ∃ s', onReturn w₁.state = .ok (v, s') ∧
          w' = w₁.push ⟨now, c, .resumed r v, w₁.state, s'⟩) ∧
      (∀ v w', onFailureW = .ok (v, w') →
        ∃ s', onFailure = .ok (v, s') ∧
          w' = w.push ⟨now, c, .finished v, w.state, s'⟩) := by
  unfold traced at h
  cases hout : enter now c w.state with
  | revert e => simp [hout] at h
  | done v₀ s' => simp [hout] at h
  | call r₀ sent onReturn onFailure =>
    simp only [hout, Outcome.call.injEq] at h
    obtain ⟨rfl, rfl, rfl, rfl⟩ := h
    refine ⟨sent, onReturn, onFailure, rfl, rfl, ?_, ?_⟩
    · intro w₁ v w' hret
      cases hinner : onReturn w₁.state with
      | error e => simp [hinner, Except.map] at hret
      | ok r =>
        simp only [hinner, Except.map, Except.ok.injEq, Prod.mk.injEq] at hret
        obtain ⟨rfl, rfl⟩ := hret
        exact ⟨r.2, rfl, rfl⟩
    · intro v w' hfail
      cases hinner : onFailure with
      | error e => simp [hinner, Except.map] at hfail
      | ok r =>
        simp only [hinner, Except.map, Except.ok.injEq, Prod.mk.injEq] at hfail
        obtain ⟨rfl, rfl⟩ := hfail
        exact ⟨r.2, rfl, rfl⟩

/-- A trace rule is a segment rule of the traced contract. -/
theorem TraceRule.segmentRule {I : Traced κ ρ β σ → Prop} (h : TraceRule enter now I) :
    SegmentRule (traced enter now) I where
  done := by
    intro c w v w' hout hI
    obtain ⟨s', hdone, rfl⟩ := traced_eq_done hout
    exact h w _ rfl (Or.inl hdone) rfl hI
  entry := by
    intro c w r sent onReturn onFailure hout hI
    obtain ⟨sent₀, onReturn₀, onFailure₀, hcall, rfl, -, -⟩ := traced_eq_call hout
    exact h w _ rfl ⟨onReturn₀, onFailure₀, hcall⟩ rfl hI
  resume := by
    intro c w r sent onReturn onFailure w₁ v w' hout hI hret
    obtain ⟨sent₀, onReturn₀, onFailure₀, hcall, -, hreturn, -⟩ := traced_eq_call hout
    obtain ⟨s', hs', rfl⟩ := hreturn w₁ v w' hret
    exact h w₁ _ rfl ⟨w.state, sent₀, onReturn₀, onFailure₀, hcall, hs'⟩ rfl hI
  fail := by
    intro c w r sent onReturn onFailure v w' hout hret hI
    obtain ⟨sent₀, onReturn₀, onFailure₀, hcall, -, -, hfailure⟩ := traced_eq_call hout
    obtain ⟨s', hs', rfl⟩ := hfailure v w' hret
    exact h w _ rfl (Or.inr ⟨r, sent₀, onReturn₀, onFailure₀, hcall, hs'⟩) rfl hI

/-- A segment invariant is a trace invariant that forgets the trace. -/
theorem SegmentRule.traceRule {I : σ → Prop} (h : ∀ now, SegmentRule (enter now) I) :
    TraceRule enter now (fun w => I w.state) := by
  rintro w ⟨t, c, progress, pre, post⟩ - hvalid hpre hI
  have hstart : I pre := by
    rw [show pre = w.state from hpre]
    exact hI
  cases progress with
  | finished v =>
    rcases hvalid with hdone | ⟨r, sent, onReturn, onFailure, hcall, hfail⟩
    · exact (h t).done hdone hstart
    · exact (h t).fail hcall hfail hstart
  | sent r =>
    rcases hvalid with ⟨onReturn, onFailure, hcall⟩
    exact (h t).entry hcall hstart
  | resumed r v =>
    rcases hvalid with ⟨s₀, sent, onReturn, onFailure, hcall, hret⟩
    exact (h t).resume hcall hstart hret

/-- A frame of the untraced contract is a frame of the traced one. -/
theorem FrameRule.traced {Q : σ → σ → Prop} (h : FrameRule (enter now) Q) :
    FrameRule (traced enter now) (fun w w' => Q w.state w'.state) where
  refl w := h.refl w.state
  trans h₁ h₂ := h.trans h₁ h₂
  done := by
    intro c w v w' hout
    obtain ⟨s', hdone, rfl⟩ := traced_eq_done hout
    exact h.done hdone
  resume := by
    intro c w r sent onReturn onFailure w₁ v w' hout hinner hret
    obtain ⟨sent₀, onReturn₀, onFailure₀, hcall, rfl, hreturn, -⟩ := traced_eq_call hout
    obtain ⟨s', hs', rfl⟩ := hreturn w₁ v w' hret
    exact h.resume hcall hinner hs'
  fail := by
    intro c w r sent onReturn onFailure v w' hout hret
    obtain ⟨sent₀, onReturn₀, onFailure₀, hcall, -, -, hfailure⟩ := traced_eq_call hout
    obtain ⟨s', hs', rfl⟩ := hfailure v w' hret
    exact h.fail hcall hs'

/-- What happens between the hand-over of an entry and its resumption is added to the
trace. -/
theorem grows_frameRule :
    FrameRule (traced enter now) (fun w w' => w.trace <+: w'.trace) where
  refl w := List.prefix_refl w.trace
  trans h₁ h₂ := h₁.trans h₂
  done := by
    intro c w v w' hout
    obtain ⟨s', -, rfl⟩ := traced_eq_done hout
    exact List.prefix_append _ _
  resume := by
    intro c w r sent onReturn onFailure w₁ v w' hout hinner hret
    obtain ⟨sent₀, onReturn₀, onFailure₀, -, rfl, hreturn, -⟩ := traced_eq_call hout
    obtain ⟨s', -, rfl⟩ := hreturn w₁ v w' hret
    exact ((List.prefix_append _ _).trans hinner).trans (List.prefix_append _ _)
  fail := by
    intro c w r sent onReturn onFailure v w' hout hret
    obtain ⟨sent₀, onReturn₀, onFailure₀, -, -, -, hfailure⟩ := traced_eq_call hout
    obtain ⟨s', -, rfl⟩ := hfailure v w' hret
    exact List.prefix_append _ _

/-- The obligations behind an invariant of traced states whose pieces may rely on a
frame `Q`: an entry that resumes knows that `Q` relates the state it left to the state
it finds, and that the trace has only grown. -/
structure GuardedTraceRule (enter : Nat → κ → σ → Outcome ε ρ β σ) (now : Nat)
    (Q : σ → σ → Prop) (I : Traced κ ρ β σ → Prop) : Prop where
  finished : ∀ {c v s'} {w : Traced κ ρ β σ}, enter now c w.state = .done v s' ∨
      (∃ r sent onReturn onFailure, enter now c w.state = .call r sent onReturn onFailure ∧
        onFailure = .ok (v, s')) →
    I w → I (w.push ⟨now, c, .finished v, w.state, s'⟩)
  sent : ∀ {c r sent onReturn onFailure} {w : Traced κ ρ β σ},
    enter now c w.state = .call r sent onReturn onFailure →
      I w → I (w.push ⟨now, c, .sent r, w.state, sent⟩)
  resumed : ∀ {c r sent onReturn onFailure v s'} {w w₁ : Traced κ ρ β σ},
    enter now c w.state = .call r sent onReturn onFailure → I w → Q sent w₁.state →
      w.trace <+: w₁.trace → I w₁ →
        onReturn w₁.state = .ok (v, s') → I (w₁.push ⟨now, c, .resumed r v, w₁.state, s'⟩)

/-- A guarded trace rule is a guarded rule of the traced contract. -/
theorem GuardedTraceRule.guardedRule {Q : σ → σ → Prop} {I : Traced κ ρ β σ → Prop}
    (h : GuardedTraceRule enter now Q I) :
    GuardedRule (traced enter now)
      (fun w w' => Q w.state w'.state ∧ w.trace <+: w'.trace) I where
  done := by
    intro c w v w' hout hI
    obtain ⟨s', hdone, rfl⟩ := traced_eq_done hout
    exact h.finished (Or.inl hdone) hI
  entry := by
    intro c w r sent onReturn onFailure hout hI
    obtain ⟨sent₀, onReturn₀, onFailure₀, hcall, rfl, -, -⟩ := traced_eq_call hout
    exact h.sent hcall hI
  resume := by
    intro c w r sent onReturn onFailure w₁ v w' hout hI hinner hI₁ hret
    obtain ⟨sent₀, onReturn₀, onFailure₀, hcall, rfl, hreturn, -⟩ := traced_eq_call hout
    obtain ⟨s', hs', rfl⟩ := hreturn w₁ v w' hret
    have hgrows : w.trace <+: w₁.trace := (List.prefix_append _ _).trans hinner.2
    exact h.resumed hcall hI hinner.1 hgrows hI₁ hs'
  fail := by
    intro c w r sent onReturn onFailure v w' hout hret hI
    obtain ⟨sent₀, onReturn₀, onFailure₀, hcall, -, -, hfailure⟩ := traced_eq_call hout
    obtain ⟨s', hs', rfl⟩ := hfailure v w' hret
    exact h.finished (Or.inr ⟨r, sent₀, onReturn₀, onFailure₀, hcall, hs'⟩) hI

/-- An invariant that relies on a frame is a guarded trace invariant that forgets the
trace. -/
theorem GuardedRule.traceRule {Q : σ → σ → Prop} {I : σ → Prop}
    (h : GuardedRule (enter now) Q I) : GuardedTraceRule enter now Q (fun w => I w.state) where
  finished := by
    intro c v s' w hout hI
    rcases hout with hdone | ⟨r, sent, onReturn, onFailure, hcall, hfail⟩
    · exact h.done hdone hI
    · exact h.fail hcall hfail hI
  sent hcall hI := h.entry hcall hI
  resumed hcall hI hinner _ hI₁ hret := h.resume hcall hI hinner hI₁ hret

/-- Two trace invariants hold together when the second may rely on the first. -/
theorem TraceRule.and {I J : Traced κ ρ β σ → Prop} (hI : TraceRule enter now I)
    (hJ : ∀ w seg, seg.time = now → seg.Valid enter → seg.pre = w.state →
      I w → J w → J (w.push seg)) :
    TraceRule enter now (fun w => I w ∧ J w) := by
  intro w seg htime hvalid hpre hw
  exact ⟨hI w seg htime hvalid hpre hw.1, hJ w seg htime hvalid hpre hw.1 hw.2⟩

/-- Invariants of the traced states reachable by transactions. -/
theorem Reachable.traced_invariant {init : σ} {I : Nat → Traced κ ρ β σ → Prop}
    (hinit : ∀ t, I t (.start init))
    (hclock : ∀ {t now w}, t ≤ now → I t w → I now w)
    (hrule : ∀ now, TraceRule enter now (I now))
    {t : Nat} {w : Traced κ ρ β σ}
    (h : Reachable (traced enter) (.start init) t w) : I t w :=
  h.invariant hinit hclock fun now => (hrule now).segmentRule.frameRule

end

/-! ## Splitting a history at one of its elements -/

/-- An element of a list with one more at its end is that last one, or one of the
list before. -/
theorem snoc_eq_split {α : Type u} {front before after : List α} {last x : α}
    (h : front ++ [last] = before ++ x :: after) :
    (before = front ∧ x = last) ∨ ∃ after', front = before ++ x :: after' := by
  cases hafter : after.reverse with
  | nil =>
    rw [List.reverse_eq_nil_iff.mp hafter] at h
    rcases List.append_inj' h rfl with ⟨hfront, hlast⟩
    exact Or.inl ⟨hfront.symm, (List.singleton_inj.mp hlast).symm⟩
  | cons y ys =>
    have hsnoc : after = ys.reverse ++ [y] := by
      rw [← List.reverse_reverse after, hafter, List.reverse_cons]
    rw [hsnoc, ← List.cons_append, ← List.append_assoc] at h
    exact Or.inr ⟨ys.reverse, (List.append_inj' h rfl).1⟩

/-- Some piece of the history satisfies `P`, and every later one satisfies `Q`. -/
def Since (P Q : Segment κ ρ β σ → Prop) (trace : List (Segment κ ρ β σ)) : Prop :=
  ∃ earlier p later, trace = earlier ++ p :: later ∧ P p ∧ ∀ q ∈ later, Q q

section

variable {P Q : Segment κ ρ β σ → Prop} {trace : List (Segment κ ρ β σ)} {seg : Segment κ ρ β σ}

theorem Since.now (h : P seg) : Since P Q (trace ++ [seg]) :=
  ⟨trace, seg, [], rfl, h, by simp⟩

theorem Since.snoc (h : Since P Q trace) (hseg : Q seg) : Since P Q (trace ++ [seg]) := by
  rcases h with ⟨earlier, p, later, hsplit, hp, hlater⟩
  refine ⟨earlier, p, later ++ [seg], ?_, hp, ?_⟩
  · rw [hsplit, List.append_assoc, List.cons_append]
  · intro q hmem
    rcases List.mem_append.mp hmem with hold | hnew
    · exact hlater q hold
    · rw [List.mem_singleton.mp hnew]
      exact hseg

end

/-! ## What happens once

Some pieces use up a key, which the state remembers as used. -/

section

variable {α : Type} (key : Segment κ ρ β σ → Option α) (used : σ → α → Prop)

/-- The keys that a history used up are all different, and the state remembers them. -/
structure Once (w : Traced κ ρ β σ) : Prop where
  remembered : ∀ k ∈ w.trace.filterMap key, used w.state k
  nodup : (w.trace.filterMap key).Nodup

variable {key used}

theorem once_start (s : σ) : Once key used (.start s) :=
  ⟨by simp, by simp⟩

/-- A piece keeps this if it forgets no key and uses up only one that is not used. -/
theorem Once.push {w : Traced κ ρ β σ} {seg : Segment κ ρ β σ} (hpre : seg.pre = w.state)
    (hkeeps : ∀ k, used seg.pre k → used seg.post k)
    (huses : ∀ k, key seg = some k → ¬ used seg.pre k ∧ used seg.post k)
    (hw : Once key used w) : Once key used (w.push seg) := by
  have htrace : (w.push seg).trace.filterMap key =
      w.trace.filterMap key ++ (key seg).toList := by
    rw [Traced.push_trace, List.filterMap_append]
    cases hkey : key seg with
    | none => simp [hkey]
    | some k => simp [hkey]
  rw [hpre] at hkeeps huses
  constructor
  · intro k hk
    rw [htrace] at hk
    rcases List.mem_append.mp hk with hold | hnew
    · exact hkeeps k (hw.remembered k hold)
    · exact (huses k (Option.mem_toList.mp hnew)).2
  · rw [htrace, List.nodup_append]
    refine ⟨hw.nodup, ?_, ?_⟩
    · cases key seg <;> simp
    · intro k hold k' hnew heq
      have hunused := (huses k' (Option.mem_toList.mp hnew)).1
      rw [← heq] at hunused
      exact hunused (hw.remembered k hold)

end

/-! ## The shape of a trace -/

/-- The pieces `segs` lead from `s` to `s'`, each starting where the one before
it ended. -/
def Leads (s : σ) : List (Segment κ ρ β σ) → σ → Prop
  | [], s' => s = s'
  | seg :: segs, s' => seg.pre = s ∧ Leads seg.post segs s'

theorem leads_append {s s' : σ} {segs segs' : List (Segment κ ρ β σ)} :
    Leads s (segs ++ segs') s' ↔ ∃ m, Leads s segs m ∧ Leads m segs' s' := by
  induction segs generalizing s with
  | nil => simp [Leads]
  | cons seg segs ih => simp [Leads, ih, and_assoc]

/-- A preorder that every piece of a path respects relates its two ends. -/
theorem Leads.related {R : σ → σ → Prop} (hrefl : ∀ s, R s s)
    (htrans : ∀ {s₁ s₂ s₃}, R s₁ s₂ → R s₂ s₃ → R s₁ s₃) {segs : List (Segment κ ρ β σ)}
    (hpieces : ∀ seg ∈ segs, R seg.pre seg.post) {s s' : σ} (h : Leads s segs s') : R s s' := by
  induction segs generalizing s with
  | nil =>
    rw [show s = s' from h]
    exact hrefl s'
  | cons seg segs ih =>
    rcases h with ⟨hpre, hrest⟩
    have hfirst := hpieces seg List.mem_cons_self
    rw [hpre] at hfirst
    exact htrans hfirst (ih (fun seg' hmem => hpieces seg' (List.mem_cons_of_mem _ hmem)) hrest)

/-- What the trace of a reachable state looks like: an unbroken path from the
initial state, made of valid pieces, in the order of their times. -/
structure WellTraced (enter : Nat → κ → σ → Outcome ε ρ β σ) (init : σ) (now : Nat)
    (w : Traced κ ρ β σ) : Prop where
  leads : Leads init w.trace w.state
  valid : ∀ seg ∈ w.trace, seg.Valid enter
  sorted : (w.trace.map Segment.time).Pairwise (· ≤ ·)
  past : ∀ seg ∈ w.trace, seg.time ≤ now

theorem wellTraced_rule (enter : Nat → κ → σ → Outcome ε ρ β σ) (init : σ) (now : Nat) :
    TraceRule enter now (WellTraced enter init now) := by
  intro w seg htime hvalid hpre hw
  refine ⟨?_, ?_, ?_, ?_⟩
  · rw [Traced.push_trace, leads_append]
    exact ⟨w.state, hw.leads, hpre, rfl⟩
  · intro seg' hmem
    rcases List.mem_append.mp hmem with hold | hnew
    · exact hw.valid seg' hold
    · rw [List.mem_singleton.mp hnew]
      exact hvalid
  · rw [Traced.push_trace, List.map_append, List.pairwise_append]
    refine ⟨hw.sorted, List.pairwise_singleton _ _, ?_⟩
    intro t ht t' ht'
    obtain ⟨old, hold, rfl⟩ := List.mem_map.mp ht
    rw [List.map_singleton, List.mem_singleton] at ht'
    rw [ht', htime]
    exact hw.past old hold
  · intro seg' hmem
    rcases List.mem_append.mp hmem with hold | hnew
    · exact hw.past seg' hold
    · rw [List.mem_singleton.mp hnew, htime]

/-- Every reachable state is well traced. -/
theorem Reachable.wellTraced {enter : Nat → κ → σ → Outcome ε ρ β σ} {init : σ} {t : Nat}
    {w : Traced κ ρ β σ} (h : Reachable (traced enter) (.start init) t w) :
    WellTraced enter init t w := by
  refine h.traced_invariant (I := WellTraced enter init) ?_ ?_ (wellTraced_rule enter init)
  · intro t
    exact ⟨rfl, by simp, by simp, by simp⟩
  · intro t now w hle hw
    exact ⟨hw.leads, hw.valid, hw.sorted, fun seg hmem => (hw.past seg hmem).trans hle⟩

/-! ## Paths

The trace of a reachable state can be cut anywhere, also inside a transaction.
What is known of its two parts is that valid pieces lead through them. -/

/-- The traced states that time and valid pieces lead to from `w₀` at `t₀`. -/
inductive Path (enter : Nat → κ → σ → Outcome ε ρ β σ) (t₀ : Nat) (w₀ : Traced κ ρ β σ) :
    Nat → Traced κ ρ β σ → Prop where
  | refl : Path enter t₀ w₀ t₀ w₀
  | wait {t t' w} : Path enter t₀ w₀ t w → t ≤ t' → Path enter t₀ w₀ t' w
  | push {t w seg} : Path enter t₀ w₀ t w → seg.time = t → seg.Valid enter →
      seg.pre = w.state → Path enter t₀ w₀ t (w.push seg)

/-- The state in which a list of pieces that starts in `s` ends. -/
def stateAfter (s : σ) (segs : List (Segment κ ρ β σ)) : σ :=
  segs.foldl (fun _ seg => seg.post) s

@[simp] theorem stateAfter_nil (s : σ) :
    stateAfter s ([] : List (Segment κ ρ β σ)) = s := rfl

@[simp] theorem stateAfter_append_singleton (s : σ) (segs : List (Segment κ ρ β σ))
    (seg : Segment κ ρ β σ) : stateAfter s (segs ++ [seg]) = seg.post := by
  rw [stateAfter, List.foldl_append]
  rfl

/-- A path ends in the state its pieces say. -/
theorem Leads.eq_stateAfter {s s' : σ} {segs : List (Segment κ ρ β σ)} (h : Leads s segs s') :
    s' = stateAfter s segs := by
  induction segs generalizing s with
  | nil => exact h.symm
  | cons seg segs ih => exact ih h.2

section

variable {enter : Nat → κ → σ → Outcome ε ρ β σ} {init : σ} {t₀ t : Nat}
  {w₀ w : Traced κ ρ β σ}

/-- Trace rules hold along paths. -/
theorem Path.invariant {I : Nat → Traced κ ρ β σ → Prop} (h : Path enter t₀ w₀ t w)
    (h₀ : I t₀ w₀) (hclock : ∀ {t now w}, t ≤ now → I t w → I now w)
    (hrule : ∀ now, TraceRule enter now (I now)) : I t w := by
  induction h with
  | refl => exact h₀
  | wait _ hle ih => exact hclock hle ih
  | push _ htime hvalid hpre ih => exact hrule _ _ _ htime hvalid hpre ih

theorem Reachable.path (h : Reachable (traced enter) (.start init) t w) :
    Path enter 0 (.start init) t w := by
  refine h.traced_invariant (I := fun t w => Path enter 0 (.start init) t w) ?_ ?_ ?_
  · intro t
    exact .wait .refl (Nat.zero_le t)
  · intro t now w hle hpath
    exact .wait hpath hle
  · intro now w seg htime hvalid hpre hpath
    exact .push hpath htime hvalid hpre

/-- A path from nothing ends in the state its trace says, and lies in the past. -/
theorem Path.ends (h : Path enter 0 (.start init) t w) :
    w.state = stateAfter init w.trace ∧ ∀ seg ∈ w.trace, seg.time ≤ t := by
  induction h with
  | refl => exact ⟨rfl, by simp⟩
  | wait _ hle ih => exact ⟨ih.1, fun seg hmem => (ih.2 seg hmem).trans hle⟩
  | @push t w seg _ htime _ _ ih =>
    refine ⟨?_, ?_⟩
    · rw [Traced.push_trace, stateAfter_append_singleton, Traced.push_state]
    · intro seg' hmem
      rcases List.mem_append.mp hmem with hold | hnew
      · exact ih.2 seg' hold
      · rw [List.mem_singleton.mp hnew]
        exact htime.le

/-- A path can be cut in two wherever its trace and its clock can. -/
theorem Path.cut (h : Path enter 0 (.start init) t w) {before after : List (Segment κ ρ β σ)}
    {t₁ : Nat} (hsplit : w.trace = before ++ after) (hbefore : ∀ seg ∈ before, seg.time ≤ t₁)
    (hafter : ∀ seg ∈ after, t₁ ≤ seg.time) (hnow : t₁ ≤ t) :
    ∃ w₁, w₁.trace = before ∧ w₁.state = stateAfter init before ∧
      Path enter 0 (.start init) t₁ w₁ ∧ Path enter t₁ w₁ t w := by
  induction h generalizing before after with
  | refl =>
    have hzero : t₁ = 0 := Nat.le_zero.mp hnow
    have hnil := List.append_eq_nil_iff.mp hsplit.symm
    subst hzero
    rw [hnil.1]
    exact ⟨.start init, rfl, rfl, .refl, .refl⟩
  | @wait t t' w hpath hle ih =>
    by_cases hearly : t₁ ≤ t
    · rcases ih hsplit hbefore hafter hearly with ⟨w₁, htrace, hstate, hleft, hright⟩
      exact ⟨w₁, htrace, hstate, hleft, .wait hright hle⟩
    · -- the cut lies in the waiting, so nothing is left of the trace
      rcases hpath.ends with ⟨hstate, hpast⟩
      have hnil : after = [] := by
        refine List.eq_nil_iff_forall_not_mem.mpr ?_
        intro seg hmem
        have hlate := hafter seg hmem
        have hold := hpast seg (by rw [hsplit]; exact List.mem_append_right _ hmem)
        omega
      rw [hnil, List.append_nil] at hsplit
      refine ⟨w, hsplit, ?_, .wait hpath (by omega), .wait .refl hnow⟩
      rw [← hsplit]
      exact hstate
  | @push t w seg hpath htime hvalid hpre ih =>
    cases hlast : after.reverse with
    | nil =>
      have hnil : after = [] := List.reverse_eq_nil_iff.mp hlast
      rw [hnil, List.append_nil] at hsplit
      have hnew : seg ∈ before := by
        rw [← hsplit]
        exact List.mem_append_right _ (List.mem_singleton_self seg)
      have hsame : t₁ = t := by
        have hle := hbefore seg hnew
        omega
      subst hsame
      have hfull : Path enter 0 (.start init) t₁ (w.push seg) :=
        .push hpath htime hvalid hpre
      refine ⟨w.push seg, hsplit, ?_, hfull, .refl⟩
      rw [← hsplit]
      exact hfull.ends.1
    | cons last rest =>
      have hsnoc : after = rest.reverse ++ [last] := by
        rw [← List.reverse_reverse after, hlast, List.reverse_cons]
      rw [hsnoc, ← List.append_assoc] at hsplit
      have hfront : w.trace = before ++ rest.reverse := (List.append_inj' hsplit rfl).1
      have hkept : ∀ seg ∈ rest.reverse, t₁ ≤ seg.time := by
        intro seg' hmem
        exact hafter seg' (by rw [hsnoc]; exact List.mem_append_left _ hmem)
      rcases ih hfront hbefore hkept hnow with ⟨w₁, htrace, hstate, hleft, hright⟩
      exact ⟨w₁, htrace, hstate, hleft, .push hright htime hvalid hpre⟩

end

/-! ## Points of a history

Outside code has control between two transactions, and inside of one wherever an
entry handed control over. -/

/-- The traced states at time `t` in which code outside the contract has control. -/
def Reached (enter : Nat → κ → σ → Outcome ε ρ β σ) (init : σ) (t : Nat)
    (w : Traced κ ρ β σ) : Prop :=
  ∃ t₀ w₀, Reachable (traced enter) (.start init) t₀ w₀ ∧ t₀ ≤ t ∧
    ControlPoint (traced enter t) w₀ w

section

variable {enter : Nat → κ → σ → Outcome ε ρ β σ} {init : σ} {t : Nat} {w : Traced κ ρ β σ}

theorem Reachable.reached (h : Reachable (traced enter) (.start init) t w) :
    Reached enter init t w :=
  ⟨t, w, h, le_refl t, .start⟩

/-- Trace invariants hold at every point of a history. -/
theorem Reached.traced_invariant {I : Traced κ ρ β σ → Prop} (h : Reached enter init t w)
    (hinit : I (.start init)) (hrule : ∀ now, TraceRule enter now I) : I w := by
  rcases h with ⟨t₀, w₀, hreach, -, hpoint⟩
  refine (hrule t).segmentRule.controlPoint hpoint ?_
  exact hreach.traced_invariant (I := fun _ => I) (fun _ => hinit) (fun _ hw => hw) hrule

/-- Invariants that rely on a frame hold at every point of a history. -/
theorem Reached.guarded_trace_invariant {Q : σ → σ → Prop} {I : Traced κ ρ β σ → Prop}
    (h : Reached enter init t w) (hinit : I (.start init))
    (hframe : ∀ now, FrameRule (enter now) Q)
    (hrule : ∀ now, GuardedTraceRule enter now Q I) : I w := by
  rcases h with ⟨t₀, w₀, hreach, -, hpoint⟩
  have hgrows : ∀ now, FrameRule (traced enter now) (fun w w' => w.trace <+: w'.trace) :=
    fun _ => grows_frameRule
  have hboth := fun now => (hframe now).traced.and (hgrows now)
  refine (hrule t).guardedRule.controlPoint (hboth t) hpoint ?_
  exact hreach.guarded_invariant hinit hboth fun now => (hrule now).guardedRule

/-- The same for an invariant that forgets the trace. -/
theorem Reached.guarded_invariant {Q : σ → σ → Prop} {I : σ → Prop}
    (h : Reached enter init t w) (hinit : I init) (hframe : ∀ now, FrameRule (enter now) Q)
    (hrule : ∀ now, GuardedRule (enter now) Q I) : I w.state :=
  h.guarded_trace_invariant (I := fun w => I w.state) hinit hframe fun now => (hrule now).traceRule

/-- The trace of every point of a history leads to it. -/
theorem Reached.leads (h : Reached enter init t w) : Leads init w.trace w.state := by
  refine h.traced_invariant (I := fun w => Leads init w.trace w.state) rfl ?_
  intro now w seg _ _ hpre hw
  rw [Traced.push_trace, leads_append]
  exact ⟨w.state, hw, hpre, rfl⟩

/-- A preorder that every piece of a history respects relates the states around any
final part of it. -/
theorem Reached.related {R : σ → σ → Prop} (h : Reached enter init t w) (hrefl : ∀ s, R s s)
    (htrans : ∀ {s₁ s₂ s₃}, R s₁ s₂ → R s₂ s₃ → R s₁ s₃)
    (hpieces : ∀ seg ∈ w.trace, R seg.pre seg.post) {before later : List (Segment κ ρ β σ)}
    (hsplit : w.trace = before ++ later) : R (stateAfter init before) w.state := by
  have hleads := h.leads
  rw [hsplit, leads_append] at hleads
  rcases hleads with ⟨middle, hbefore, hlater⟩
  rw [← hbefore.eq_stateAfter]
  refine hlater.related hrefl htrans ?_
  intro seg hmem
  exact hpieces seg (by rw [hsplit]; exact List.mem_append_right _ hmem)

/-- What every valid piece satisfies, every piece of a history satisfies. -/
theorem Reached.pieces {P : Segment κ ρ β σ → Prop} (h : Reached enter init t w)
    (hP : ∀ seg : Segment κ ρ β σ, seg.Valid enter → P seg) : ∀ seg ∈ w.trace, P seg := by
  refine h.traced_invariant (I := fun w => ∀ seg ∈ w.trace, P seg) (by simp) ?_
  intro now w seg _ hvalid _ hw seg' hmem
  rcases List.mem_append.mp hmem with hold | hnew
  · exact hw seg' hold
  · rw [List.mem_singleton.mp hnew]
    exact hP seg hvalid

end

/-- `middle` is what a history up to `t` did between the times `t₁` and `t₂`,
after it did `before`. At equal times the cut may fall between any two pieces. -/
structure Stretch (w : Traced κ ρ β σ) (t t₁ t₂ : Nat) (before middle : List (Segment κ ρ β σ)) :
    Prop where
  split : ∃ after, w.trace = before ++ middle ++ after ∧ ∀ seg ∈ after, t₂ ≤ seg.time
  before_le : ∀ seg ∈ before, seg.time ≤ t₁
  middle_between : ∀ seg ∈ middle, t₁ ≤ seg.time ∧ seg.time ≤ t₂
  ordered : t₁ ≤ t₂
  past : t₂ ≤ t

/-- A stretch of a path is a path between two points of it. -/
theorem Path.stretch {enter : Nat → κ → σ → Outcome ε ρ β σ} {init : σ} {t t₁ t₂ : Nat}
    {w : Traced κ ρ β σ} {before middle : List (Segment κ ρ β σ)}
    (h : Path enter 0 (.start init) t w) (hs : Stretch w t t₁ t₂ before middle) :
    ∃ w₁ w₂, w₁.trace = before ∧ w₁.state = stateAfter init before ∧
      w₂.trace = before ++ middle ∧ w₂.state = stateAfter init (before ++ middle) ∧
      Path enter 0 (.start init) t₁ w₁ ∧ Path enter t₁ w₁ t₂ w₂ := by
  rcases hs.split with ⟨after, hsplit, hafter⟩
  have hfront : ∀ seg ∈ before ++ middle, seg.time ≤ t₂ := by
    intro seg hmem
    rcases List.mem_append.mp hmem with hb | hm
    · exact (hs.before_le seg hb).trans hs.ordered
    · exact (hs.middle_between seg hm).2
  rcases h.cut hsplit hfront hafter hs.past with ⟨w₂, htrace₂, hstate₂, hpath₂, -⟩
  rcases hpath₂.cut htrace₂ hs.before_le (fun seg hm => (hs.middle_between seg hm).1)
    hs.ordered with ⟨w₁, htrace₁, hstate₁, hleft, hright⟩
  exact ⟨w₁, w₂, htrace₁, hstate₁, htrace₂, hstate₂, hleft, hright⟩

end Hookemon.Core
