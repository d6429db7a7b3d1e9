import Hookemon.Core.Runs
import Hookemon.Core.Checked

/-! # Calls that read first and commit later

A store serves any number of calls at once. A call reads the store and either answers
at once or keeps something of what it read. Later it commits: it looks at the store of
that moment, and either gives up or makes its writes, in order. A process may die at any
time, also between two writes of a commit; the calls in flight die with it.

`Service.Upholds` lists what has to be shown of single calls so that a property of the
store and of the answers so far holds after every run.
-/

namespace Hookemon.Core

/-- What a call does once it has read the store. -/
inductive Reading (π : Type) (ρ : Type) where
  | answer (result : ρ)
  | keep (kept : π)

/-- `read` refuses, answers, or keeps something. `writes` refuses, or gives the states that
the store goes through, its last state and the answer. `drift` is what happens to the store
without a call. -/
structure Service (σ : Type) (κ : Type) (π : Type) (ρ : Type) (η : Type) where
  read : σ → κ → Except String (Reading π ρ)
  writes : σ → π → Except String (List σ × σ × ρ)
  drift : σ → η → σ

/-- The store, what the calls in flight keep, and the answers so far. -/
structure World (σ : Type) (π : Type) (ρ : Type) where
  store : σ
  inFlight : List π
  answers : List ρ

namespace World

/-- No call was made yet. -/
def start {σ : Type} {π : Type} {ρ : Type} (s : σ) : World σ π ρ := ⟨s, [], []⟩

end World

/-- `crash none` is between two steps of all calls, `crash (some (i, n))` after `n` writes of
the commit of a call. -/
inductive Move (κ : Type) (η : Type) where
  | call (c : κ)
  | commit (i : Nat)
  | crash (cut : Option (Nat × Nat))
  | drift (e : η)

variable {σ : Type} {κ : Type} {π : Type} {ρ : Type} {η : Type}

namespace Service

variable (S : Service σ κ π ρ η)

/-- The store that a crash leaves behind. -/
def cut (s : σ) (p : π) (n : Nat) : σ :=
  match S.writes s p with
  | .error _ => s
  | .ok (through, last, _) => (s :: through ++ [last]).getD n last

/-- A call reads. -/
def call (W : World σ π ρ) (c : κ) : World σ π ρ × Option ρ :=
  match S.read W.store c with
  | .error _ => (W, none)
  | .ok (.answer r) => (⟨W.store, W.inFlight, W.answers ++ [r]⟩, some r)
  | .ok (.keep p) => (⟨W.store, W.inFlight ++ [p], W.answers⟩, none)

/-- The call at a position commits. -/
def commit (W : World σ π ρ) (i : Nat) : World σ π ρ × Option ρ :=
  match W.inFlight[i]? with
  | none => (W, none)
  | some p =>
    match S.writes W.store p with
    | .error _ => (⟨W.store, W.inFlight.eraseIdx i, W.answers⟩, none)
    | .ok (_, last, r) => (⟨last, W.inFlight.eraseIdx i, W.answers ++ [r]⟩, some r)

/-- The process dies. -/
def crash (W : World σ π ρ) : Option (Nat × Nat) → World σ π ρ × Option ρ
  | none => (⟨W.store, [], W.answers⟩, none)
  | some (i, n) =>
    match W.inFlight[i]? with
    | none => (⟨W.store, [], W.answers⟩, none)
    | some p => (⟨S.cut W.store p n, [], W.answers⟩, none)

/-- One move, with the answer of the call when there is one. -/
def step (W : World σ π ρ) : Move κ η → World σ π ρ × Option ρ
  | .call c => S.call W c
  | .commit i => S.commit W i
  | .crash position => S.crash W position
  | .drift e => (⟨S.drift W.store e, W.inFlight, W.answers⟩, none)

/-- A condition on the commits, of the store at that moment and what the call keeps. -/
def Commits (C : σ → π → Prop) (W : World σ π ρ) : Move κ η → Prop
  | .commit i => ∀ p, W.inFlight[i]? = some p → C W.store p
  | .crash (some (i, _)) => ∀ p, W.inFlight[i]? = some p → C W.store p
  | _ => True

/-- `I` speaks of the store and of the answers so far, `K` of the store and of what a call
keeps. A commit is looked at under `C`. -/
structure Upholds (I : σ → List ρ → Prop) (K : σ → π → Prop) (C : σ → π → Prop) : Prop where
  answer : ∀ s as c r, I s as → S.read s c = .ok (.answer r) → I s (as ++ [r])
  keep : ∀ s as c p, I s as → S.read s c = .ok (.keep p) → K s p
  commit : ∀ s as p through t r, I s as → K s p → C s p → S.writes s p = .ok (through, t, r) →
    I t (as ++ [r])
  crash : ∀ s as p through t r, I s as → K s p → C s p → S.writes s p = .ok (through, t, r) →
    ∀ u ∈ t :: through, I u as
  kept : ∀ s as p through t r, I s as → K s p → C s p → S.writes s p = .ok (through, t, r) →
    ∀ q, K s q → K t q
  drift : ∀ s as e, I s as → I (S.drift s e) as
  drifted : ∀ s as e q, I s as → K s q → K (S.drift s e) q

/-- What `Upholds` keeps true of a world. -/
structure Holds (I : σ → List ρ → Prop) (K : σ → π → Prop) (W : World σ π ρ) : Prop where
  store : I W.store W.answers
  inFlight : ∀ p ∈ W.inFlight, K W.store p

variable {S} {I : σ → List ρ → Prop} {K C : σ → π → Prop}

theorem holds_start {s : σ} (h : I s []) : Holds I K (World.start s : World σ π ρ) where
  store := h
  inFlight := by
    intro p hp
    cases hp

@[simp] theorem call_store (W : World σ π ρ) (c : κ) : (S.call W c).1.store = W.store := by
  unfold Service.call
  split <;> rfl

theorem step_keep {W : World σ π ρ} {c : κ} {p : π} (h : S.read W.store c = .ok (.keep p)) :
    S.step W (.call c) = (⟨W.store, W.inFlight ++ [p], W.answers⟩, none) := by
  change S.call W c = _
  unfold Service.call
  rw [h]

theorem step_writes {W : World σ π ρ} {i : Nat} {p : π} {through : List σ} {t : σ} {r : ρ}
    (hcall : W.inFlight[i]? = some p) (h : S.writes W.store p = .ok (through, t, r)) :
    S.step W (.commit i) = (⟨t, W.inFlight.eraseIdx i, W.answers ++ [r]⟩, some r) := by
  change S.commit W i = _
  unfold Service.commit
  rw [hcall]
  dsimp only
  rw [h]

theorem Upholds.call (h : S.Upholds I K C) {W : World σ π ρ} (hW : Holds I K W) (c : κ) :
    Holds I K (S.call W c).1 := by
  unfold Service.call
  cases hread : S.read W.store c with
  | error message => exact hW
  | ok reading =>
    cases reading with
    | answer r => exact ⟨h.answer _ _ _ _ hW.store hread, hW.inFlight⟩
    | keep p =>
      constructor
      · exact hW.store
      · intro q hq
        rcases List.mem_append.mp hq with hold | hnew
        · exact hW.inFlight q hold
        · rw [List.mem_singleton.mp hnew]
          exact h.keep _ _ _ _ hW.store hread

theorem Upholds.commits (h : S.Upholds I K C) {W : World σ π ρ} (hW : Holds I K W) (i : Nat)
    (hC : ∀ p, W.inFlight[i]? = some p → C W.store p) : Holds I K (S.commit W i).1 := by
  unfold Service.commit
  cases hcall : W.inFlight[i]? with
  | none => exact hW
  | some p =>
    have hp := hW.inFlight p (List.mem_of_getElem? hcall)
    dsimp only
    cases hwrites : S.writes W.store p with
    | error message =>
      constructor
      · exact hW.store
      · intro q hq
        exact hW.inFlight q (List.mem_of_mem_eraseIdx hq)
    | ok result =>
      obtain ⟨through, t, r⟩ := result
      constructor
      · exact h.commit _ _ _ _ _ _ hW.store hp (hC p hcall) hwrites
      · intro q hq
        apply h.kept _ _ _ _ _ _ hW.store hp (hC p hcall) hwrites
        exact hW.inFlight q (List.mem_of_mem_eraseIdx hq)

/-- A crash leaves the store, or one of the states that the commit goes through. -/
theorem cut_cases (S : Service σ κ π ρ η) (s : σ) (p : π) (n : Nat) : S.cut s p n = s ∨
    ∃ through t r, S.writes s p = .ok (through, t, r) ∧ S.cut s p n ∈ t :: through := by
  unfold Service.cut
  cases hwrites : S.writes s p with
  | error message => exact Or.inl rfl
  | ok result =>
    obtain ⟨through, t, r⟩ := result
    have hmem : (s :: through ++ [t]).getD n t ∈ s :: t :: through := by
      rw [List.getD_eq_getElem?_getD]
      cases hget : (s :: through ++ [t])[n]? with
      | none => exact List.mem_cons_of_mem s List.mem_cons_self
      | some u =>
        have hu := List.mem_of_getElem? hget
        simp only [List.cons_append, List.mem_cons, List.mem_append, Option.getD_some] at hu ⊢
        tauto
    rcases List.mem_cons.mp hmem with hold | hnew
    · exact Or.inl hold
    · exact Or.inr ⟨through, t, r, rfl, hnew⟩

theorem Upholds.cut (h : S.Upholds I K C) {s : σ} {as : List ρ} {p : π} (hs : I s as) (hp : K s p)
    (hC : C s p) (n : Nat) : I (S.cut s p n) as := by
  rcases S.cut_cases s p n with hsame | ⟨through, t, r, hwrites, hmem⟩
  · rw [hsame]
    exact hs
  · exact h.crash _ _ _ _ _ _ hs hp hC hwrites _ hmem

theorem Upholds.crashes (h : S.Upholds I K C) {W : World σ π ρ} (hW : Holds I K W)
    (position : Option (Nat × Nat))
    (hC : ∀ i n, position = some (i, n) → ∀ p, W.inFlight[i]? = some p → C W.store p) :
    Holds I K (S.crash W position).1 := by
  have hnone : ∀ {t : σ}, I t W.answers → Holds I K (⟨t, [], W.answers⟩ : World σ π ρ) := by
    intro t ht
    exact ⟨ht, fun _ hq => absurd hq List.not_mem_nil⟩
  cases position with
  | none => exact hnone hW.store
  | some position =>
    obtain ⟨i, n⟩ := position
    unfold Service.crash
    dsimp only
    cases hcall : W.inFlight[i]? with
    | none => exact hnone hW.store
    | some p =>
      have hp := hW.inFlight p (List.mem_of_getElem? hcall)
      exact hnone (h.cut hW.store hp (hC i n rfl p hcall) n)

/-- What one move preserves. -/
theorem Upholds.step (h : S.Upholds I K C) (W : World σ π ρ) (m : Move κ η) (hW : Holds I K W)
    (hC : Commits C W m) : Holds I K (S.step W m).1 := by
  cases m with
  | call c => exact h.call hW c
  | commit i => exact h.commits hW i hC
  | crash position =>
    apply h.crashes hW position
    rintro i n rfl
    exact hC
  | drift e => exact ⟨h.drift _ _ e hW.store, fun q hq => h.drifted _ _ e q hW.store (hW.inFlight q hq)⟩

/-- What every run preserves whose commits all meet the condition. -/
theorem Upholds.run (h : S.Upholds I K C) {s : σ} (hs : I s []) {moves : List (Move κ η)}
    (hC : EveryStep S.step (Commits C) (World.start s) moves) :
    Holds I K (stateAfterRun S.step (World.start s) moves) :=
  everyStep_invariant (I := Holds I K) (holds_start hs) (fun W m hW hm => h.step W m hW hm) hC

theorem commits_of_forall (h : ∀ s p, C s p) (W : World σ π ρ) (m : Move κ η) : Commits C W m := by
  cases m with
  | crash position =>
    cases position with
    | none => trivial
    | some position => exact fun p _ => h W.store p
  | commit i => exact fun p _ => h W.store p
  | _ => trivial

/-- The same when there is no condition. -/
theorem Upholds.run_always (h : S.Upholds I K C) (hC : ∀ s p, C s p) {s : σ} (hs : I s [])
    (moves : List (Move κ η)) : Holds I K (stateAfterRun S.step (World.start s) moves) :=
  h.run hs fun _ m _ _ => commits_of_forall hC _ m

/-- A move leaves the store, takes it to a state that a commit goes through, or lets it drift. -/
theorem step_store {W : World σ π ρ} {m : Move κ η} (hC : Commits C W m) :
    (S.step W m).1.store = W.store ∨
      (∃ p ∈ W.inFlight, C W.store p ∧ ∃ through t r, S.writes W.store p = .ok (through, t, r) ∧
        (S.step W m).1.store ∈ t :: through) ∨
      ∃ e, m = .drift e ∧ (S.step W m).1.store = S.drift W.store e := by
  cases m with
  | call c =>
    left
    exact call_store W c
  | commit i =>
    change (S.commit W i).1.store = W.store ∨ (∃ p ∈ W.inFlight, C W.store p ∧
      ∃ through t r, S.writes W.store p = .ok (through, t, r) ∧
        (S.commit W i).1.store ∈ t :: through) ∨ _
    unfold Service.commit
    cases hcall : W.inFlight[i]? with
    | none => exact Or.inl rfl
    | some p =>
      dsimp only
      cases hwrites : S.writes W.store p with
      | error message => exact Or.inl rfl
      | ok result =>
        obtain ⟨through, t, r⟩ := result
        exact Or.inr (Or.inl ⟨p, List.mem_of_getElem? hcall, hC p hcall, through, t, r, hwrites,
          List.mem_cons_self⟩)
  | crash position =>
    change (S.crash W position).1.store = W.store ∨ (∃ p ∈ W.inFlight, C W.store p ∧
      ∃ through t r, S.writes W.store p = .ok (through, t, r) ∧
        (S.crash W position).1.store ∈ t :: through) ∨ _
    cases position with
    | none => exact Or.inl rfl
    | some position =>
      obtain ⟨i, n⟩ := position
      unfold Service.crash
      dsimp only
      cases hcall : W.inFlight[i]? with
      | none => exact Or.inl rfl
      | some p =>
        rcases S.cut_cases W.store p n with hsame | ⟨through, t, r, hwrites, hmem⟩
        · exact Or.inl hsame
        · exact Or.inr (Or.inl ⟨p, List.mem_of_getElem? hcall, hC p hcall, through, t, r, hwrites,
            hmem⟩)
  | drift e => exact Or.inr (Or.inr ⟨e, rfl, rfl⟩)

/-- What no state of a commit and no drift undoes, no run undoes. -/
theorem Upholds.stable (h : S.Upholds I K C) {P : σ → Prop}
    (hcommit : ∀ s as p through t r, I s as → K s p → C s p → P s →
      S.writes s p = .ok (through, t, r) → ∀ u ∈ t :: through, P u)
    (hdrift : ∀ s as e, I s as → P s → P (S.drift s e)) {W : World σ π ρ} (hW : Holds I K W)
    (hP : P W.store) {moves : List (Move κ η)} (hC : EveryStep S.step (Commits C) W moves) :
    P (stateAfterRun S.step W moves).store := by
  have hboth : ∀ (W : World σ π ρ) (m : Move κ η), Holds I K W ∧ P W.store → Commits C W m →
      Holds I K (S.step W m).1 ∧ P (S.step W m).1.store := by
    intro W m hW hm
    refine ⟨h.step W m hW.1 hm, ?_⟩
    rcases step_store hm with hsame | ⟨p, hp, hCp, through, t, r, hwrites, hmem⟩ | ⟨e, -, hsame⟩
    · rw [hsame]
      exact hW.2
    · exact hcommit _ _ p through t r hW.1.store (hW.1.inFlight p hp) hCp hW.2 hwrites _ hmem
    · rw [hsame]
      exact hdrift _ _ e hW.1.store hW.2
  exact (everyStep_invariant (I := fun W => Holds I K W ∧ P W.store) ⟨hW, hP⟩ hboth hC).2

/-- An answer comes from a reading or from a commit. -/
theorem step_answer {W : World σ π ρ} {m : Move κ η} {r : ρ} (h : (S.step W m).2 = some r) :
    (∃ c, m = .call c ∧ S.read W.store c = .ok (.answer r)) ∨
      ∃ i p, m = .commit i ∧ W.inFlight[i]? = some p ∧
        ∃ through t, S.writes W.store p = .ok (through, t, r) := by
  cases m with
  | call c =>
    left
    change (S.call W c).2 = some r at h
    unfold Service.call at h
    cases hread : S.read W.store c with
    | error message => simp [hread] at h
    | ok reading =>
      cases reading with
      | answer result =>
        simp only [hread, Option.some.injEq] at h
        exact ⟨c, rfl, h ▸ hread⟩
      | keep p => simp [hread] at h
  | commit i =>
    right
    change (S.commit W i).2 = some r at h
    unfold Service.commit at h
    cases hcall : W.inFlight[i]? with
    | none => simp [hcall] at h
    | some p =>
      cases hwrites : S.writes W.store p with
      | error message => simp [hcall, hwrites] at h
      | ok result =>
        obtain ⟨through, t, result⟩ := result
        simp only [hcall, hwrites, Option.some.injEq] at h
        exact ⟨i, p, rfl, hcall, through, t, h ▸ hwrites⟩
  | crash position =>
    change (S.crash W position).2 = some r at h
    unfold Service.crash at h
    split at h
    · cases h
    · split at h <;> cases h
  | drift e => cases h

end Service

end Hookemon.Core
