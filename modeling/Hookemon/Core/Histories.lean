import Mathlib

/-! # Histories that are accepted

A system that may refuse an event takes a state and an event to a next state or to an error.
A history is accepted when every event of it is, each in the state that the ones before it
have led to. The rules here turn what one accepted event preserves into what an accepted
history preserves.
-/

namespace Hookemon.Core

universe u v w

variable {σ : Type u} {ε : Type v} {κ : Type w} (step : σ → ε → Except κ σ)

/-- The events lead from a state to another, and none of them is refused. -/
def Accepts (s : σ) (history : List ε) (s' : σ) : Prop := history.foldlM step s = .ok s'

variable {step} {s s' m : σ} {e : ε} {before after history : List ε}

@[simp] theorem accepts_nil : Accepts step s [] s' ↔ s = s' := by
  simp [Accepts, pure, Except.pure]

theorem accepts_cons :
    Accepts step s (e :: history) s' ↔ ∃ m, step s e = .ok m ∧ Accepts step m history s' := by
  unfold Accepts
  rw [List.foldlM_cons]
  cases hstep : step s e with
  | error failure => simp [bind, Except.bind]
  | ok m => simp [bind, Except.bind]

theorem accepts_append :
    Accepts step s (before ++ after) s' ↔
      ∃ m, Accepts step s before m ∧ Accepts step m after s' := by
  induction before generalizing s with
  | nil => simp
  | cons first before ih =>
    rw [List.cons_append, accepts_cons]
    simp only [ih, accepts_cons]
    constructor
    · rintro ⟨m, hfirst, m', hbefore, hafter⟩
      exact ⟨m', ⟨m, hfirst, hbefore⟩, hafter⟩
    · rintro ⟨m', ⟨m, hfirst, hbefore⟩, hafter⟩
      exact ⟨m, hfirst, m', hbefore, hafter⟩

theorem accepts_concat :
    Accepts step s (before ++ [e]) s' ↔ ∃ m, Accepts step s before m ∧ step m e = .ok s' := by
  simp [accepts_append, accepts_cons]

/-- A history leads to one state only. -/
theorem Accepts.unique (h : Accepts step s history s') (h' : Accepts step s history m) : s' = m :=
  Except.ok.inj (h.symm.trans h')

variable (step) in
/-- A property of every event of a history, in the state in which the event comes. -/
def EveryEvent (P : σ → ε → Prop) (s : σ) (history : List ε) : Prop :=
  ∀ before e after m, history = before ++ e :: after → Accepts step s before m → P m e

theorem EveryEvent.concat {P : σ → ε → Prop} (h : EveryEvent step P s (history ++ [e])) :
    EveryEvent step P s history ∧ ∀ m, Accepts step s history m → P m e := by
  constructor
  · intro before first after m hsplit hbefore
    refine h before first (after ++ [e]) m ?_ hbefore
    rw [hsplit, List.append_assoc, List.cons_append]
  · intro m hm
    exact h history e [] m rfl hm

/-- **The induction over accepted histories.** What holds of the empty history and survives
every accepted event of the kind at hand holds of every history of such events. -/
theorem history_induction {J : List ε → σ → Prop} {P : σ → ε → Prop} (hinit : J [] s)
    (hstep : ∀ before m e m', Accepts step s before m → J before m → P m e → step m e = .ok m' →
      J (before ++ [e]) m')
    (hevery : EveryEvent step P s history) (h : Accepts step s history s') : J history s' := by
  induction history using List.reverseRecOn generalizing s' with
  | nil =>
    rw [accepts_nil] at h
    exact h ▸ hinit
  | append_singleton before e ih =>
    rcases accepts_concat.mp h with ⟨m, hbefore, he⟩
    rcases hevery.concat with ⟨hearlier, hlast⟩
    exact hstep before m e s' hbefore (ih hearlier hbefore) (hlast m hbefore) he

/-- The same for what the state alone says, of all accepted events. -/
theorem accepts_invariant {I : σ → Prop} (hinit : I s)
    (hstep : ∀ m e m', I m → step m e = .ok m' → I m') (h : Accepts step s history s') : I s' :=
  history_induction (J := fun _ m => I m) (P := fun _ _ => True) hinit
    (fun _ m e m' _ hm _ he => hstep m e m' hm he) (fun _ _ _ _ _ _ => trivial) h

variable (step) in
/-- A property of every state that a history passes through. -/
def EveryState (I : σ → Prop) (s : σ) (history : List ε) : Prop :=
  ∀ before after m, history = before ++ after → Accepts step s before m → I m

theorem EveryEvent.of_append {P : σ → ε → Prop} (h : EveryEvent step P s (before ++ after)) :
    EveryEvent step P s before := by
  intro first e rest m hsplit hfirst
  refine h first e (rest ++ after) m ?_ hfirst
  rw [hsplit, List.append_assoc, List.cons_append]

/-- What survives every event of the kind at hand holds in every state, where all events are. -/
theorem everyState_of_everyEvent {I : σ → Prop} {P : σ → ε → Prop} (hinit : I s)
    (hstep : ∀ m e m', I m → P m e → step m e = .ok m' → I m')
    (hevery : EveryEvent step P s history) : EveryState step I s history := by
  intro before after m hsplit hbefore
  subst hsplit
  exact history_induction (J := fun _ m => I m) hinit
    (fun _ m e m' _ hm he hadvance => hstep m e m' hm he hadvance) hevery.of_append hbefore

/-- What the states before and after an accepted event force on it holds of every event. -/
theorem everyEvent_of_everyState {I : σ → Prop} {P : σ → ε → Prop}
    (hforced : ∀ m e m', I m → I m' → step m e = .ok m' → P m e)
    (hevery : EveryState step I s history) (h : Accepts step s history s') :
    EveryEvent step P s history := by
  intro before e after m hsplit hbefore
  subst hsplit
  rcases accepts_append.mp h with ⟨m₁, hbefore', hafter⟩
  rcases accepts_cons.mp hafter with ⟨m', hadvance, -⟩
  obtain rfl : m = m₁ := hbefore.unique hbefore'
  refine hforced m e m' (hevery before (e :: after) m rfl hbefore)
    (hevery (before ++ [e]) after m' (by simp) ?_) hadvance
  exact accepts_concat.mpr ⟨m, hbefore, hadvance⟩

end Hookemon.Core
