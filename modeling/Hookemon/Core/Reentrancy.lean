import Hookemon.Core.Checked

/-! # Nested execution of a contract

A contract entry runs until it finishes, reverts, or hands control to code
outside the contract. Such code may call back into the contract any number of
times before the entry resumes, and each of these calls may hand control over
again. One execution is therefore a finite tree: a `CallTree` names the entry
that is called and, for the code that receives control inside it, the calls it
makes and whether it returns. A call that reverts leaves no effect.

`exec` runs a tree. The rules below reduce a property of whole executions to
one obligation per piece of contract code: `FrameRule` for a relation between
the states around an execution, `SegmentRule` for a predicate that every piece
preserves on its own.
-/

namespace Hookemon.Core

universe u

/-- What one entry of a contract does with a state: it reverts, it finishes with
a value, or it makes the external call `request` from the state `sent` and goes
on with `onReturn` from the state in which the callee leaves the contract, or
with `onFailure` when the callee fails and its effects are undone. -/
inductive Outcome (ε ρ β σ : Type u) where
  | revert (e : ε)
  | done (value : β) (s : σ)
  | call (request : ρ) (sent : σ) (onReturn : σ → Except ε (β × σ))
      (onFailure : Except ε (β × σ))

/-- An entry given as a computation that may fail before it has an outcome. -/
def Outcome.ofRun {ε ρ β σ : Type u} : Except ε (Outcome ε ρ β σ) → Outcome ε ρ β σ
  | .error e => .revert e
  | .ok o => o

/-- A call together with the behaviour of the code that receives control in it:
the calls this code makes in turn, and whether it succeeds. -/
inductive CallTree (κ : Type u) where
  | node (call : κ) (succeeds : Bool) (inner : List (CallTree κ))

variable {ε ρ β σ κ : Type u}

/-- The state after a call: a reverted call restores its pre-state. -/
def commit (s : σ) : Except ε (β × σ) → σ
  | .ok (_, s') => s'
  | .error _ => s

mutual

/-- Run one call with everything nested in it. -/
def exec (enter : κ → σ → Outcome ε ρ β σ) : CallTree κ → σ → Except ε (β × σ)
  | .node c succeeds inner, s =>
    match enter c s with
    | .revert e => .error e
    | .done v s' => .ok (v, s')
    | .call _ sent onReturn onFailure =>
      if succeeds then onReturn (execAll enter inner sent) else onFailure

/-- Run a sequence of calls, each from the state the one before it left. -/
def execAll (enter : κ → σ → Outcome ε ρ β σ) : List (CallTree κ) → σ → σ
  | [], s => s
  | t :: ts, s => execAll enter ts (commit s (exec enter t s))

end

@[simp] theorem commit_ok {s s' : σ} {v : β} : commit (ε := ε) s (.ok (v, s')) = s' := rfl

@[simp] theorem commit_error {s : σ} {e : ε} : commit (β := β) s (.error e) = s := rfl

theorem Outcome.ofRun_eq_done {x : Except ε (Outcome ε ρ β σ)} {v : β} {s : σ} :
    Outcome.ofRun x = .done v s ↔ x = .ok (.done v s) := by
  cases x <;> simp [Outcome.ofRun]

theorem Outcome.ofRun_eq_call {x : Except ε (Outcome ε ρ β σ)} {r : ρ} {sent : σ}
    {onReturn : σ → Except ε (β × σ)} {onFailure : Except ε (β × σ)} :
    Outcome.ofRun x = .call r sent onReturn onFailure ↔
      x = .ok (.call r sent onReturn onFailure) := by
  cases x <;> simp [Outcome.ofRun]

/-! ## Relations between the states around an execution -/

/-- The obligations under which `R` relates the states before and after every
execution: `R` is a preorder, every entry that finishes at once respects it, and
so does every entry that hands control over, given that `R` holds across
whatever happens while the callee has control. -/
structure FrameRule (enter : κ → σ → Outcome ε ρ β σ) (R : σ → σ → Prop) : Prop where
  refl : ∀ s, R s s
  trans : ∀ {s₁ s₂ s₃}, R s₁ s₂ → R s₂ s₃ → R s₁ s₃
  done : ∀ {c s v s'}, enter c s = .done v s' → R s s'
  resume : ∀ {c s r sent onReturn onFailure s₁ v s'},
    enter c s = .call r sent onReturn onFailure → R sent s₁ →
      onReturn s₁ = .ok (v, s') → R s s'
  fail : ∀ {c s r sent onReturn onFailure v s'},
    enter c s = .call r sent onReturn onFailure → onFailure = .ok (v, s') → R s s'

section

variable {enter : κ → σ → Outcome ε ρ β σ} {R : σ → σ → Prop}

mutual

/-- A frame rule holds around one call, by induction over its tree. -/
theorem FrameRule.exec (h : FrameRule enter R) :
    ∀ (t : CallTree κ) {s s' : σ} {v : β}, exec enter t s = .ok (v, s') → R s s'
  | .node c succeeds inner, s, s', v, hrun => by
    unfold Core.exec at hrun
    cases hout : enter c s with
    | revert e => simp [hout] at hrun
    | done w s₁ =>
      simp only [hout, Except.ok.injEq, Prod.mk.injEq] at hrun
      obtain ⟨rfl, rfl⟩ := hrun
      exact h.done hout
    | call r sent onReturn onFailure =>
      simp only [hout] at hrun
      cases succeeds with
      | true => exact h.resume hout (h.execAll inner sent) hrun
      | false => exact h.fail hout hrun

/-- A frame rule holds around a sequence of calls. -/
theorem FrameRule.execAll (h : FrameRule enter R) :
    ∀ (ts : List (CallTree κ)) (s : σ), R s (execAll enter ts s)
  | [], s => by
    unfold Core.execAll
    exact h.refl s
  | t :: ts, s => by
    unfold Core.execAll
    have hfirst : R s (commit s (Core.exec enter t s)) := by
      cases hrun : Core.exec enter t s with
      | error e => exact h.refl s
      | ok r => exact h.exec t hrun
    exact h.trans hfirst (h.execAll ts _)

end

end

/-- Two frame rules hold together. -/
theorem FrameRule.and {enter : κ → σ → Outcome ε ρ β σ} {R S : σ → σ → Prop}
    (hR : FrameRule enter R) (hS : FrameRule enter S) :
    FrameRule enter (fun s s' => R s s' ∧ S s s') where
  refl s := ⟨hR.refl s, hS.refl s⟩
  trans h₁ h₂ := ⟨hR.trans h₁.1 h₂.1, hS.trans h₁.2 h₂.2⟩
  done hout := ⟨hR.done hout, hS.done hout⟩
  resume hout hinner hret := ⟨hR.resume hout hinner.1 hret, hS.resume hout hinner.2 hret⟩
  fail hout hret := ⟨hR.fail hout hret, hS.fail hout hret⟩

/-! ## Predicates preserved piece by piece -/

/-- The obligations under which `I` is preserved by every piece of contract code
on its own: an entry that finishes, an entry up to the hand-over, and an entry
from the resumption on. Nothing is assumed about the state in which an entry
resumes beyond `I` itself. -/
structure SegmentRule (enter : κ → σ → Outcome ε ρ β σ) (I : σ → Prop) : Prop where
  done : ∀ {c s v s'}, enter c s = .done v s' → I s → I s'
  entry : ∀ {c s r sent onReturn onFailure},
    enter c s = .call r sent onReturn onFailure → I s → I sent
  resume : ∀ {c s r sent onReturn onFailure s₁ v s'},
    enter c s = .call r sent onReturn onFailure → I s₁ →
      onReturn s₁ = .ok (v, s') → I s'
  fail : ∀ {c s r sent onReturn onFailure v s'},
    enter c s = .call r sent onReturn onFailure → onFailure = .ok (v, s') → I s → I s'

/-- A segment rule is the frame rule of "if `I` before, then `I` after". -/
theorem SegmentRule.frameRule {enter : κ → σ → Outcome ε ρ β σ} {I : σ → Prop}
    (h : SegmentRule enter I) : FrameRule enter (fun s s' => I s → I s') where
  refl _ hs := hs
  trans h₁ h₂ hs := h₂ (h₁ hs)
  done hout hs := h.done hout hs
  resume hout hinner hret hs := h.resume hout (hinner (h.entry hout hs)) hret
  fail hout hret hs := h.fail hout hret hs

/-- The obligations of an invariant `I` whose pieces may rely on a frame `Q`: an
entry that resumes knows that `Q` relates the state it left to the state it
finds. -/
structure GuardedRule (enter : κ → σ → Outcome ε ρ β σ) (Q : σ → σ → Prop) (I : σ → Prop) :
    Prop where
  done : ∀ {c s v s'}, enter c s = .done v s' → I s → I s'
  entry : ∀ {c s r sent onReturn onFailure},
    enter c s = .call r sent onReturn onFailure → I s → I sent
  resume : ∀ {c s r sent onReturn onFailure s₁ v s'},
    enter c s = .call r sent onReturn onFailure → I s → Q sent s₁ → I s₁ →
      onReturn s₁ = .ok (v, s') → I s'
  fail : ∀ {c s r sent onReturn onFailure v s'},
    enter c s = .call r sent onReturn onFailure → onFailure = .ok (v, s') → I s → I s'

/-- A guarded rule strengthens its frame by the preservation of the invariant. -/
theorem GuardedRule.frameRule {enter : κ → σ → Outcome ε ρ β σ} {Q : σ → σ → Prop}
    {I : σ → Prop} (hQ : FrameRule enter Q) (h : GuardedRule enter Q I) :
    FrameRule enter (fun s s' => Q s s' ∧ (I s → I s')) where
  refl s := ⟨hQ.refl s, id⟩
  trans h₁ h₂ := ⟨hQ.trans h₁.1 h₂.1, fun hs => h₂.2 (h₁.2 hs)⟩
  done hout := ⟨hQ.done hout, h.done hout⟩
  resume := by
    intro c s r sent onReturn onFailure s₁ v s' hout hinner hret
    refine ⟨hQ.resume hout hinner.1 hret, ?_⟩
    intro hs
    exact h.resume hout hs hinner.1 (hinner.2 (h.entry hout hs)) hret
  fail hout hret := ⟨hQ.fail hout hret, h.fail hout hret⟩

/-- The states in which code outside the contract has control during an
execution that starts in `s₀`. -/
inductive ControlPoint (enter : κ → σ → Outcome ε ρ β σ) (s₀ : σ) : σ → Prop where
  | start : ControlPoint enter s₀ s₀
  | after {s} (t : CallTree κ) :
      ControlPoint enter s₀ s → ControlPoint enter s₀ (commit s (exec enter t s))
  | inside {c s r sent onReturn onFailure} :
      ControlPoint enter s₀ s → enter c s = .call r sent onReturn onFailure →
        ControlPoint enter s₀ sent

/-- A segment invariant holds wherever outside code has control. -/
theorem SegmentRule.controlPoint {enter : κ → σ → Outcome ε ρ β σ} {I : σ → Prop}
    (h : SegmentRule enter I) {s₀ s : σ} (hs : ControlPoint enter s₀ s) (h₀ : I s₀) : I s := by
  induction hs with
  | start => exact h₀
  | @after s t _ ih =>
    cases hrun : exec enter t s with
    | error e => exact ih
    | ok r => exact h.frameRule.exec t hrun ih
  | inside _ hout ih => exact h.entry hout ih

/-- An invariant that relies on a frame holds wherever outside code has control. -/
theorem GuardedRule.controlPoint {enter : κ → σ → Outcome ε ρ β σ} {Q : σ → σ → Prop}
    {I : σ → Prop} (hQ : FrameRule enter Q) (h : GuardedRule enter Q I) {s₀ s : σ}
    (hs : ControlPoint enter s₀ s) (h₀ : I s₀) : I s := by
  induction hs with
  | start => exact h₀
  | @after s t _ ih =>
    cases hrun : exec enter t s with
    | error e => exact ih
    | ok r => exact ((h.frameRule hQ).exec t hrun).2 ih
  | inside _ hout ih => exact h.entry hout ih

/-! ## Histories of transactions -/

/-- The states after whole transactions, with the clock of the last one: every
transaction runs a sequence of call trees at one time, and times never go back. -/
inductive Reachable (enter : Nat → κ → σ → Outcome ε ρ β σ) (init : σ) : Nat → σ → Prop where
  | start (t : Nat) : Reachable enter init t init
  | transact {t now : Nat} {s : σ} (calls : List (CallTree κ)) :
      Reachable enter init t s → t ≤ now →
        Reachable enter init now (execAll (enter now) calls s)

/-- Invariants of reachable states: `I` holds at the start, survives the passing
of time, and is kept by every piece of contract code. -/
theorem Reachable.invariant {enter : Nat → κ → σ → Outcome ε ρ β σ} {init : σ}
    {I : Nat → σ → Prop} (hinit : ∀ t, I t init)
    (hclock : ∀ {t now s}, t ≤ now → I t s → I now s)
    (hrule : ∀ now, FrameRule (enter now) (fun s s' => I now s → I now s'))
    {t : Nat} {s : σ} (h : Reachable enter init t s) : I t s := by
  induction h with
  | start t => exact hinit t
  | transact calls _ hle ih => exact (hrule _).execAll calls _ (hclock hle ih)

/-- The same for an invariant whose pieces rely on a frame. -/
theorem Reachable.guarded_invariant {enter : Nat → κ → σ → Outcome ε ρ β σ} {init : σ}
    {Q : σ → σ → Prop} {I : σ → Prop} (hinit : I init)
    (hframe : ∀ now, FrameRule (enter now) Q) (hrule : ∀ now, GuardedRule (enter now) Q I)
    {t : Nat} {s : σ} (h : Reachable enter init t s) : I s := by
  induction h with
  | start t => exact hinit
  | transact calls _ _ ih => exact (((hrule _).frameRule (hframe _)).execAll calls _).2 ih

end Hookemon.Core
