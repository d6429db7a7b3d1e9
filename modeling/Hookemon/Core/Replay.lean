import Hookemon.Core.Service

/-! # Journals and their replay

A journal is a list of events, oldest first, and the state of its subject is what replaying
them from an initial state gives. Writers read the replayed state, and commit by appending
events to the journal of that moment when it still meets their guard.
-/

namespace Hookemon.Core

section Replay

variable {σ : Type} {ε : Type} (apply : σ → ε → Except String σ) (init : σ)

/-- The state after the events of a journal. -/
def replay (journal : List ε) : Except String σ := journal.foldlM apply init

@[simp] theorem replay_nil : replay apply init [] = .ok init := rfl

theorem replay_append (journal events : List ε) :
    replay apply init (journal ++ events)
      = replay apply init journal >>= fun s => events.foldlM apply s := by
  unfold replay
  rw [List.foldlM_append]

variable {apply init}

theorem replay_append_of_ok {journal events : List ε} {s : σ}
    (h : replay apply init journal = .ok s) :
    replay apply init (journal ++ events) = events.foldlM apply s := by
  rw [replay_append, h]
  rfl

/-- A journal that replays has prefixes that replay. -/
theorem replay_prefix {journal events : List ε} {t : σ}
    (h : replay apply init (journal ++ events) = .ok t) :
    ∃ s, replay apply init journal = .ok s ∧ events.foldlM apply s = .ok t := by
  rw [replay_append] at h
  exact bind_eq_ok.mp h

theorem replay_concat {journal : List ε} {e : ε} {t : σ} :
    replay apply init (journal ++ [e]) = .ok t ↔
      ∃ s, replay apply init journal = .ok s ∧ apply s e = .ok t := by
  rw [replay_append, bind_eq_ok]
  simp only [List.foldlM_cons, List.foldlM_nil, bind_pure]

/-- What holds at first and survives every event that replays holds of a journal and what it
replays to. -/
theorem replay_invariant {I : List ε → σ → Prop} (hinit : I [] init)
    (hstep : ∀ journal s e t, I journal s → apply s e = .ok t → I (journal ++ [e]) t)
    {journal : List ε} {s : σ} (h : replay apply init journal = .ok s) : I journal s := by
  induction journal using List.reverseRecOn generalizing s with
  | nil =>
    cases h
    exact hinit
  | append_singleton journal e ih =>
    obtain ⟨before, hbefore, hlast⟩ := replay_concat.mp h
    exact hstep journal before e s (ih hbefore) hlast

end Replay

/-- Writers of one journal. `read` refuses, answers, or keeps something of the state it read;
`append` refuses, or gives the events to append in the state of that moment, and the answer.
The journal itself may refuse events that do not fit. -/
structure Writers (σ : Type) (ε : Type) (κ : Type) (π : Type) (ρ : Type) where
  apply : σ → ε → Except String σ
  init : σ
  fits : List ε → List ε → Bool
  read : σ → κ → Except String (Reading π ρ)
  append : σ → π → Except String (List ε × ρ)

namespace Writers

variable {σ : Type} {ε : Type} {κ : Type} {π : Type} {ρ : Type} (A : Writers σ ε κ π ρ)

/-- The journal as a store. Its writes are one, the journal with the new events. -/
def service : Service (List ε) κ π ρ Empty where
  read journal c := do
    let s ← replay A.apply A.init journal
    A.read s c
  writes journal p := do
    let s ← replay A.apply A.init journal
    let (events, r) ← A.append s p
    revertIf (¬ A.fits journal events) "journal limit exceeded"
    return ([], journal ++ events, r)
  drift journal _ := journal

/-- What is to be shown of single calls, of a journal and the state that it replays to. -/
structure Upholds (I : List ε → σ → List ρ → Prop) (K : List ε → σ → π → Prop)
    (C : σ → π → Prop) : Prop where
  answer : ∀ journal s as c r, I journal s as → A.read s c = .ok (.answer r) →
    I journal s (as ++ [r])
  keep : ∀ journal s as c p, I journal s as → A.read s c = .ok (.keep p) → K journal s p
  append : ∀ journal s as p events r, I journal s as → K journal s p → C s p →
    A.append s p = .ok (events, r) →
    ∃ t, events.foldlM A.apply s = .ok t ∧ I (journal ++ events) t (as ++ [r]) ∧
      I (journal ++ events) t as ∧ ∀ q, K journal s q → K (journal ++ events) t q

/-- The journal replays, to a state with the property. -/
def Replays (P : List ε → σ → Prop) (journal : List ε) : Prop :=
  ∃ s, replay A.apply A.init journal = .ok s ∧ P journal s

/-- A condition on the commits, of the replayed state and what the call keeps. -/
def When (C : σ → π → Prop) : World (List ε) π ρ → Move κ Empty → Prop :=
  Service.Commits fun journal p => ∀ s, replay A.apply A.init journal = .ok s → C s p

variable {A} {I : List ε → σ → List ρ → Prop} {K : List ε → σ → π → Prop} {C : σ → π → Prop}

theorem replays_iff {journal : List ε} {s : σ} (h : replay A.apply A.init journal = .ok s)
    {P : List ε → σ → Prop} : A.Replays P journal ↔ P journal s := by
  constructor
  · rintro ⟨t, ht, hP⟩
    rw [h] at ht
    cases ht
    exact hP
  · exact fun hP => ⟨s, h, hP⟩

theorem service_read_eq_ok {journal : List ε} {s : σ} (h : replay A.apply A.init journal = .ok s)
    {c : κ} {reading : Reading π ρ} :
    A.service.read journal c = .ok reading ↔ A.read s c = .ok reading := by
  change (replay A.apply A.init journal >>= fun s => A.read s c) = _ ↔ _
  rw [h]
  rfl

theorem service_writes_eq_ok {journal : List ε} {s : σ} (h : replay A.apply A.init journal = .ok s)
    {p : π} {through : List (List ε)} {after : List ε} {r : ρ} :
    A.service.writes journal p = .ok (through, after, r) ↔
      ∃ events, A.append s p = .ok (events, r) ∧ A.fits journal events ∧ through = [] ∧
        after = journal ++ events := by
  unfold service
  simp only [h, ok_bind, bind_eq_ok, revertIf_eq_ok, pure_eq_ok, Prod.exists, Prod.mk.injEq,
    Bool.not_eq_true, Bool.not_eq_false]
  constructor
  · rintro ⟨events, r', happend, -, hfits, rfl, rfl, rfl⟩
    exact ⟨events, happend, hfits, rfl, rfl⟩
  · rintro ⟨events, happend, hfits, rfl, rfl⟩
    exact ⟨events, r, happend, (), hfits, rfl, rfl, rfl⟩

/-- A journal that replays goes on replaying. -/
theorem Upholds.service (h : A.Upholds I K C) :
    A.service.Upholds (fun journal as => A.Replays (I · · as) journal)
      (fun journal p => A.Replays (K · · p) journal)
      (fun journal p => ∀ s, replay A.apply A.init journal = .ok s → C s p) where
  answer := by
    rintro journal as c r ⟨s, hs, hI⟩ hread
    exact ⟨s, hs, h.answer journal s as c r hI ((service_read_eq_ok hs).mp hread)⟩
  keep := by
    rintro journal as c p ⟨s, hs, hI⟩ hread
    exact ⟨s, hs, h.keep journal s as c p hI ((service_read_eq_ok hs).mp hread)⟩
  commit := by
    rintro journal as p through after r ⟨s, hs, hI⟩ hK hC hwrites
    obtain ⟨events, happend, -, -, rfl⟩ := (service_writes_eq_ok hs).mp hwrites
    obtain ⟨t, ht, hnext, -⟩ :=
      h.append journal s as p events r hI ((replays_iff hs).mp hK) (hC s hs) happend
    exact ⟨t, (replay_append_of_ok hs).trans ht, hnext⟩
  crash := by
    rintro journal as p through after r ⟨s, hs, hI⟩ hK hC hwrites u hu
    obtain ⟨events, happend, -, rfl, rfl⟩ := (service_writes_eq_ok hs).mp hwrites
    obtain ⟨t, ht, -, hcut, -⟩ :=
      h.append journal s as p events r hI ((replays_iff hs).mp hK) (hC s hs) happend
    rw [List.mem_singleton.mp hu]
    exact ⟨t, (replay_append_of_ok hs).trans ht, hcut⟩
  kept := by
    rintro journal as p through after r ⟨s, hs, hI⟩ hK hC hwrites q hq
    obtain ⟨events, happend, -, -, rfl⟩ := (service_writes_eq_ok hs).mp hwrites
    obtain ⟨t, ht, -, -, hstable⟩ :=
      h.append journal s as p events r hI ((replays_iff hs).mp hK) (hC s hs) happend
    exact ⟨t, (replay_append_of_ok hs).trans ht, hstable q ((replays_iff hs).mp hq)⟩
  drift := fun _ _ e _ => e.elim
  drifted := fun _ _ e _ _ _ => e.elim

/-- What is true of a world of such writers. -/
abbrev Holds (A : Writers σ ε κ π ρ) (I : List ε → σ → List ρ → Prop) (K : List ε → σ → π → Prop) :
    World (List ε) π ρ → Prop :=
  Service.Holds (fun journal as => A.Replays (I · · as) journal)
    (fun journal p => A.Replays (K · · p) journal)

/-- What holds after every run whose commits all meet the condition. -/
theorem Upholds.run (h : A.Upholds I K C) (hinit : I [] A.init []) {moves : List (Move κ Empty)}
    (hC : EveryStep A.service.step (A.When C) (World.start []) moves) :
    A.Holds I K (stateAfterRun A.service.step (World.start []) moves) :=
  h.service.run ⟨A.init, rfl, hinit⟩ hC

/-- The same when there is no condition. -/
theorem Upholds.run_always (h : A.Upholds I K C) (hC : ∀ s p, C s p) (hinit : I [] A.init [])
    (moves : List (Move κ Empty)) :
    A.Holds I K (stateAfterRun A.service.step (World.start []) moves) :=
  h.service.run_always (fun _ p s _ => hC s p) ⟨A.init, rfl, hinit⟩ moves

/-! ### Journals that may stop being readable -/

variable (A) in
/-- What is to be shown of single calls when an append may leave a journal that no longer
replays: `J` speaks of the journal and the answers, `K` of the replayed state as long as there
is one. -/
structure Preserves (J : List ε → List ρ → Prop) (K C : σ → π → Prop) : Prop where
  answer : ∀ journal s as c r, J journal as → replay A.apply A.init journal = .ok s →
    A.read s c = .ok (.answer r) → J journal (as ++ [r])
  keep : ∀ journal s as c p, J journal as → replay A.apply A.init journal = .ok s →
    A.read s c = .ok (.keep p) → K s p
  append : ∀ journal s as p events r, J journal as → replay A.apply A.init journal = .ok s →
    K s p → C s p → A.append s p = .ok (events, r) →
    J (journal ++ events) (as ++ [r]) ∧ J (journal ++ events) as
  kept : ∀ s p events r t q, K s p → C s p → A.append s p = .ok (events, r) →
    events.foldlM A.apply s = .ok t → K s q → K t q

theorem service_writes_ok {journal : List ε} {p : π} {through : List (List ε)} {after : List ε}
    {r : ρ} (h : A.service.writes journal p = .ok (through, after, r)) :
    ∃ s events, replay A.apply A.init journal = .ok s ∧ A.append s p = .ok (events, r) ∧
      A.fits journal events ∧ through = [] ∧ after = journal ++ events := by
  have hwrites := h
  unfold service at h
  simp only [bind_eq_ok] at h
  obtain ⟨s, hs, -⟩ := h
  obtain ⟨events, happend, hfits, hthrough, hafter⟩ := (service_writes_eq_ok hs).mp hwrites
  exact ⟨s, events, hs, happend, hfits, hthrough, hafter⟩

theorem service_read_ok {journal : List ε} {c : κ} {reading : Reading π ρ}
    (h : A.service.read journal c = .ok reading) :
    ∃ s, replay A.apply A.init journal = .ok s ∧ A.read s c = .ok reading := by
  unfold service at h
  exact bind_eq_ok.mp h

/-- Of a journal that does not replay nothing is asked: no call gets past its reading. -/
theorem Preserves.service {J : List ε → List ρ → Prop} {K : σ → π → Prop}
    (h : A.Preserves J K C) :
    A.service.Upholds J (fun journal p => ∀ s, replay A.apply A.init journal = .ok s → K s p)
      (fun journal p => ∀ s, replay A.apply A.init journal = .ok s → C s p) where
  answer := by
    intro journal as c r hJ hread
    obtain ⟨s, hs, hread⟩ := service_read_ok hread
    exact h.answer journal s as c r hJ hs hread
  keep := by
    intro journal as c p hJ hread t ht
    obtain ⟨s, hs, hread⟩ := service_read_ok hread
    have hsame : s = t := Except.ok.inj (hs.symm.trans ht)
    rw [← hsame]
    exact h.keep journal s as c p hJ hs hread
  commit := by
    intro journal as p through after r hJ hK hC hwrites
    obtain ⟨s, events, hs, happend, -, -, rfl⟩ := service_writes_ok hwrites
    exact (h.append journal s as p events r hJ hs (hK s hs) (hC s hs) happend).1
  crash := by
    intro journal as p through after r hJ hK hC hwrites u hu
    obtain ⟨s, events, hs, happend, -, rfl, rfl⟩ := service_writes_ok hwrites
    rw [List.mem_singleton.mp hu]
    exact (h.append journal s as p events r hJ hs (hK s hs) (hC s hs) happend).2
  kept := by
    intro journal as p through after r hJ hK hC hwrites q hq t ht
    obtain ⟨s, events, hs, happend, -, -, rfl⟩ := service_writes_ok hwrites
    rw [replay_append_of_ok hs] at ht
    exact h.kept s p events r t q (hK s hs) (hC s hs) happend ht (hq s hs)
  drift := fun _ _ e _ => e.elim
  drifted := fun _ _ e _ _ _ => e.elim

/-- What holds of a world whose journal may not be readable any more. -/
abbrev Keeps (A : Writers σ ε κ π ρ) (J : List ε → List ρ → Prop) (K : σ → π → Prop) :
    World (List ε) π ρ → Prop :=
  Service.Holds J fun journal p => ∀ s, replay A.apply A.init journal = .ok s → K s p

theorem Preserves.run {J : List ε → List ρ → Prop} {K : σ → π → Prop} (h : A.Preserves J K C)
    (hinit : J [] []) {moves : List (Move κ Empty)}
    (hC : EveryStep A.service.step (A.When C) (World.start []) moves) :
    A.Keeps J K (stateAfterRun A.service.step (World.start []) moves) :=
  h.service.run hinit hC

theorem Preserves.run_always {J : List ε → List ρ → Prop} {K : σ → π → Prop}
    (h : A.Preserves J K C) (hC : ∀ s p, C s p) (hinit : J [] []) (moves : List (Move κ Empty)) :
    A.Keeps J K (stateAfterRun A.service.step (World.start []) moves) :=
  h.service.run_always (fun _ p s _ => hC s p) hinit moves

/-! ### One call on its own -/

/-- A call that commits on the journal that it has read: the journal after it, and its answer. -/
def perform (journal : List ε) (c : κ) : Except String (List ε × ρ) := do
  match ← A.service.read journal c with
  | .answer r => return (journal, r)
  | .keep p => do
    let (_, after, r) ← A.service.writes journal p
    return (after, r)

theorem perform_ok {journal after : List ε} {c : κ} {r : ρ}
    (h : A.perform journal c = .ok (after, r)) :
    ∃ s, replay A.apply A.init journal = .ok s ∧
      ((A.read s c = .ok (.answer r) ∧ after = journal) ∨
        ∃ p events, A.read s c = .ok (.keep p) ∧ A.append s p = .ok (events, r) ∧
          after = journal ++ events) := by
  unfold perform at h
  obtain ⟨reading, hreading, h⟩ := bind_eq_ok.mp h
  obtain ⟨s, hs, hread⟩ := service_read_ok hreading
  refine ⟨s, hs, ?_⟩
  cases reading with
  | answer own =>
    cases h
    exact .inl ⟨hread, rfl⟩
  | keep p =>
    simp only [bind_eq_ok, pure_eq_ok, Prod.exists, Prod.mk.injEq] at h
    obtain ⟨through, after', own, hwrites, rfl, rfl⟩ := h
    obtain ⟨events, happend, -, -, hafter⟩ := (service_writes_eq_ok hs).mp hwrites
    exact .inr ⟨p, events, hread, happend, hafter⟩

/-! ### What a move does to the journal -/

/-- No move takes events away. -/
theorem store_extends (W : World (List ε) π ρ) (m : Move κ Empty) :
    W.store <+: (A.service.step W m).1.store := by
  have hwrites : ∀ {p through after r}, A.service.writes W.store p = .ok (through, after, r) →
      W.store <+: after ∧ through = [] := by
    intro p through after r h
    unfold service at h
    simp only [bind_eq_ok, pure_eq_ok, Prod.exists, Prod.mk.injEq] at h
    obtain ⟨s, -, events, r', -, -, -, rfl, rfl, -⟩ := h
    exact ⟨List.prefix_append _ _, rfl⟩
  cases m with
  | call c =>
    change W.store <+: (A.service.call W c).1.store
    unfold Service.call
    split <;> exact List.prefix_rfl
  | commit i =>
    change W.store <+: (A.service.commit W i).1.store
    unfold Service.commit
    split
    · exact List.prefix_rfl
    · split
      · exact List.prefix_rfl
      · rename_i hresult
        exact (hwrites hresult).1
  | crash position =>
    change W.store <+: (A.service.crash W position).1.store
    unfold Service.crash
    split
    · exact List.prefix_rfl
    · split
      · exact List.prefix_rfl
      · rename_i n _ p _
        change W.store <+: A.service.cut W.store p n
        unfold Service.cut
        split
        · exact List.prefix_rfl
        · rename_i through after r hresult
          obtain ⟨hafter, rfl⟩ := hwrites hresult
          rcases n with _ | _ | n
          · exact List.prefix_rfl
          · exact hafter
          · exact hafter
  | drift e => exact e.elim

/-- A journal extends what it was at any earlier moment of the run. -/
theorem store_extends_run (W : World (List ε) π ρ) (moves : List (Move κ Empty)) :
    W.store <+: (stateAfterRun A.service.step W moves).store :=
  run_invariant (I := fun V : World (List ε) π ρ => W.store <+: V.store) List.prefix_rfl
    (fun V m h => h.trans (store_extends V m)) moves

end Writers

end Hookemon.Core
