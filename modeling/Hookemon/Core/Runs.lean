import Mathlib

/-! # Runs of a system of events

A system answers every event with a next state and an outcome. A run is a list of
events, oldest first. The rules here turn what one event preserves into what a run
preserves: of the state alone, of the state together with the events so far, and of
what stays true once it is.
-/

namespace Hookemon.Core

universe u v w

variable {σ : Type u} {ε : Type v} {ω : Type w} (step : σ → ε → σ × ω)

/-- The state after a run. -/
def stateAfterRun (s : σ) (events : List ε) : σ :=
  events.foldl (fun s e => (step s e).1) s

/-- What the last of some events is answered. -/
def outcomeAfter (s : σ) (events : List ε) (e : ε) : ω := (step (stateAfterRun step s events) e).2

@[simp] theorem stateAfterRun_nil (s : σ) : stateAfterRun step s [] = s := rfl

@[simp] theorem stateAfterRun_cons (s : σ) (e : ε) (events : List ε) :
    stateAfterRun step s (e :: events) = stateAfterRun step (step s e).1 events := rfl

@[simp] theorem stateAfterRun_concat (s : σ) (events : List ε) (e : ε) :
    stateAfterRun step s (events ++ [e]) = (step (stateAfterRun step s events) e).1 := by
  simp [stateAfterRun]

theorem stateAfterRun_append (s : σ) (events more : List ε) :
    stateAfterRun step s (events ++ more)
      = stateAfterRun step (stateAfterRun step s events) more := by
  simp [stateAfterRun]

variable {step}

/-- What holds at first and survives every event holds after every run. -/
theorem run_invariant {I : σ → Prop} {s : σ} (hinit : I s)
    (hstep : ∀ s e, I s → I (step s e).1) (events : List ε) : I (stateAfterRun step s events) := by
  induction events generalizing s with
  | nil => exact hinit
  | cons e events ih => exact ih (hstep s e hinit)

/-- The same, for what relates the state to the events so far. -/
theorem run_history {J : List ε → σ → Prop} {s : σ} (hinit : J [] s)
    (hstep : ∀ events s e, J events s → J (events ++ [e]) (step s e).1) (events : List ε) :
    J events (stateAfterRun step s events) := by
  suffices hgeneral : ∀ before s, J before s → J (before ++ events) (stateAfterRun step s events) by
    exact hgeneral [] s hinit
  induction events with
  | nil =>
    intro before s hs
    simpa using hs
  | cons e events ih =>
    intro before s hs
    have hnext := ih (before ++ [e]) (step s e).1 (hstep before s e hs)
    simpa using hnext

/-- What survives every event from states with an invariant stays true. -/
theorem run_stable {I P : σ → Prop} {s : σ} (hI : I s) (hP : P s)
    (hstepI : ∀ s e, I s → I (step s e).1) (hstepP : ∀ s e, I s → P s → P (step s e).1)
    (events : List ε) : P (stateAfterRun step s events) :=
  (run_invariant (I := fun s => I s ∧ P s) ⟨hI, hP⟩
    (fun s e h => ⟨hstepI s e h.1, hstepP s e h.1 h.2⟩) events).2

/-! ## Every step of a run -/

variable (step) in
/-- A property of every event of a run, in the state in which the event comes. -/
def EveryStep (P : σ → ε → Prop) (s : σ) (events : List ε) : Prop :=
  ∀ before e after, events = before ++ e :: after → P (stateAfterRun step s before) e

theorem everyStep_nil {P : σ → ε → Prop} {s : σ} : EveryStep step P s [] := by
  intro before e after h
  simp at h

theorem everyStep_cons {P : σ → ε → Prop} {s : σ} {e : ε} {events : List ε} :
    EveryStep step P s (e :: events) ↔ P s e ∧ EveryStep step P (step s e).1 events := by
  constructor
  · intro h
    refine ⟨h [] e events rfl, fun before e' after hsplit => ?_⟩
    have hrest := h (e :: before) e' after (by rw [hsplit, List.cons_append])
    rwa [stateAfterRun_cons] at hrest
  · rintro ⟨hfirst, hrest⟩ before e' after hsplit
    cases before with
    | nil =>
      cases hsplit
      exact hfirst
    | cons first before =>
      rw [List.cons_append, List.cons.injEq] at hsplit
      obtain ⟨rfl, hsplit⟩ := hsplit
      exact hrest before e' after hsplit

theorem everyStep_concat {P : σ → ε → Prop} {s : σ} {events : List ε} {e : ε} :
    EveryStep step P s (events ++ [e]) ↔
      EveryStep step P s events ∧ P (stateAfterRun step s events) e := by
  induction events generalizing s with
  | nil =>
    rw [List.nil_append, everyStep_cons]
    exact ⟨fun h => ⟨everyStep_nil, h.1⟩, fun h => ⟨h.2, everyStep_nil⟩⟩
  | cons first events ih =>
    rw [List.cons_append, everyStep_cons, everyStep_cons, ih, stateAfterRun_cons, and_assoc]

theorem everyStep_append {P : σ → ε → Prop} {s : σ} {events more : List ε} :
    EveryStep step P s (events ++ more) ↔
      EveryStep step P s events ∧ EveryStep step P (stateAfterRun step s events) more := by
  induction events generalizing s with
  | nil => exact ⟨fun h => ⟨everyStep_nil, h⟩, fun h => h.2⟩
  | cons e events ih =>
    rw [List.cons_append, everyStep_cons, everyStep_cons, ih, stateAfterRun_cons, and_assoc]

/-- What holds at first and survives every event of the kind at hand. -/
theorem everyStep_invariant {I : σ → Prop} {P : σ → ε → Prop} {s : σ} {events : List ε} (hinit : I s)
    (hstep : ∀ s e, I s → P s e → I (step s e).1) (h : EveryStep step P s events) :
    I (stateAfterRun step s events) := by
  induction events generalizing s with
  | nil => exact hinit
  | cons e events ih =>
    obtain ⟨hfirst, hrest⟩ := everyStep_cons.mp h
    exact ih (hstep s e hinit hfirst) hrest

/-- A property of every step follows from another, under what the other preserves. -/
theorem everyStep_imp {I : σ → Prop} {P Q : σ → ε → Prop} {s : σ} {events : List ε} (hinit : I s)
    (hstep : ∀ s e, I s → P s e → I (step s e).1) (himp : ∀ s e, I s → P s e → Q s e)
    (h : EveryStep step P s events) : EveryStep step Q s events := by
  induction events generalizing s with
  | nil => exact everyStep_nil
  | cons e events ih =>
    obtain ⟨hfirst, hrest⟩ := everyStep_cons.mp h
    exact everyStep_cons.mpr ⟨himp s e hinit hfirst, ih (hstep s e hinit hfirst) hrest⟩

end Hookemon.Core
