import Mathlib

/-! # Leases on one thing, kept in two places

Each of many holders keeps the lease that it holds, and an index keeps the lease that was
granted last. Both are written by plans that were made earlier, from what was read then: the
index says which lease it has, the holder has seen no other lease that still runs.

Under `Undisturbed` two holders never hold running leases at once. Without it a plan still
leaves every lease alone that runs beyond the start of its own.
-/

namespace Hookemon.Core

/-- Whose a lease is, and the times from which and before which it runs. -/
structure LeaseTerms (ι : Type) (α : Type) where
  owner : α → ι
  start : α → Nat
  stop : α → Nat

@[ext] structure LeaseTable (ι : Type) (α : Type) where
  held : ι → Option α
  indexed : Option α
  clock : Nat

/-- What a holder means to write: a lease, over the index value that it read at a time; the end
of its lease, with or without the index; or the index alone. -/
inductive LeasePlan (α : Type) where
  | reserve (lease : α) (expected : Option α) (readAt : Nat)
  | release (lease : α) (indexed : Bool)
  | clear (lease : α)
  | idle

namespace LeasePlan

variable {α : Type}

def lease : LeasePlan α → Option α
  | .reserve l _ _ | .release l _ | .clear l => some l
  | .idle => none

end LeasePlan

namespace LeaseTable

variable {ι : Type} [DecidableEq ι] {α : Type} [DecidableEq α] (K : LeaseTerms ι α)
  (T : LeaseTable ι α) (i : ι)

/-- The table after a plan. -/
def after : LeasePlan α → LeaseTable ι α
  | .reserve l expected _ =>
    ⟨Function.update T.held i (some l), if expected = some l then T.indexed else some l, T.clock⟩
  | .release _ indexed =>
    ⟨Function.update T.held i none, if indexed then none else T.indexed, T.clock⟩
  | .clear _ => ⟨T.held, none, T.clock⟩
  | .idle => T

/-- The table when only the index was written. -/
def halfway (plan : LeasePlan α) : LeaseTable ι α :=
  ⟨T.held, (T.after i plan).indexed, T.clock⟩

/-- What is looked at when a plan is carried out. -/
def Permits : LeasePlan α → Prop
  | .reserve l expected readAt =>
    (∀ m, T.held i = some m → m = l ∨ (K.stop m ≤ readAt ∧ K.stop m ≤ K.start l)) ∧
      (expected = some l ∨ T.indexed = expected ∨ (expected = none ∧ T.indexed = some l))
  | .release l indexed => T.held i = some l ∧ (indexed → T.indexed = some l)
  | .clear l => T.indexed = none ∨ T.indexed = some l
  | .idle => True

/-- What was looked at when the plan was made, and stays so. -/
def Planned : LeasePlan α → Prop
  | .reserve l expected readAt => K.owner l = i ∧ readAt ≤ T.clock ∧
      ∀ m, expected = some m → m = l ∨ (K.stop m ≤ readAt ∧ K.stop m ≤ K.start l)
  | .release l _ | .clear l => K.owner l = i
  | .idle => True

/-- The holder has a lease that runs. -/
def Runs (l : α) : Prop := T.held i = some l ∧ T.clock < K.stop l

omit i in
/-- Everybody holds leases of his own. -/
def Owned : Prop := ∀ i l, T.held i = some l → K.owner l = i

omit i in
/-- At most one holder has a lease that runs. -/
def Exclusive : Prop := ∀ i j l m, T.Runs K i l → T.Runs K j m → i = j

/-- Whatever runs elsewhere was granted since the plan was made, so the index has it. -/
def Guarded : LeasePlan α → Prop
  | .reserve _ _ _ => ∀ j m, j ≠ i → T.Runs K j m → T.indexed = some m
  | _ => True

/-- A lease that was found in the index is still there, and one that is cleared from the index
is not held again. -/
def Undisturbed : LeasePlan α → Prop
  | .reserve l expected _ => expected = some l → T.indexed = some l
  | .clear l => T.held i ≠ some l
  | _ => True

section Plans

variable {K T i} {plan : LeasePlan α}

@[simp] theorem held_reserve {l : α} {expected : Option α} {readAt : Nat} :
    (T.after i (.reserve l expected readAt)).held i = some l := by
  simp [after]

@[simp] theorem held_release {l : α} {indexed : Bool} :
    (T.after i (.release l indexed)).held i = none := by
  simp [after]

theorem held_after_of_ne {j : ι} (hj : j ≠ i) : (T.after i plan).held j = T.held j := by
  cases plan with
  | reserve l expected readAt => exact Function.update_of_ne hj _ _
  | release l indexed => exact Function.update_of_ne hj _ _
  | clear l => rfl
  | idle => rfl

@[simp] theorem clock_after : (T.after i plan).clock = T.clock := by
  cases plan <;> rfl

/-! ### Holders -/

/-- A lease that is held stays until it has run out or is released. -/
theorem held_after {j : ι} {l : α} (hplan : T.Planned K i plan) (hpermits : T.Permits K i plan)
    (h : T.held j = some l) : (T.after i plan).held j = some l ∨ K.stop l ≤ T.clock ∨
      (j = i ∧ ∃ indexed, plan = .release l indexed) := by
  by_cases hj : j = i
  · subst hj
    cases plan with
    | reserve m expected readAt =>
      rcases hpermits.1 l h with rfl | ⟨hstop, -⟩
      · exact Or.inl held_reserve
      · exact Or.inr (Or.inl (hstop.trans hplan.2.1))
    | release m indexed =>
      have hsame : m = l := Option.some.inj (hpermits.1.symm.trans h)
      subst hsame
      exact Or.inr (Or.inr ⟨rfl, indexed, rfl⟩)
    | clear m => exact Or.inl h
    | idle => exact Or.inl h
  · left
    rw [held_after_of_ne hj]
    exact h

/-- A plan for one lease leaves any other alone that runs beyond the start of that one. -/
theorem fenced_after {l : α} (hplan : T.Planned K i plan) (hpermits : T.Permits K i plan)
    (hnewer : ∀ m, plan.lease = some m → l ≠ m ∧ K.start m < K.stop l) :
    (∀ j, T.held j = some l → (T.after i plan).held j = some l) ∧
      (T.indexed = some l → (T.after i plan).indexed = some l) := by
  constructor
  · intro j hl
    by_cases hj : j = i
    · subst hj
      cases plan with
      | reserve m expected readAt =>
        obtain ⟨hne, hstart⟩ := hnewer m rfl
        rcases hpermits.1 l hl with hsame | ⟨-, hstop⟩
        · exact absurd hsame hne
        · omega
      | release m indexed =>
        exact absurd (Option.some.inj (hl.symm.trans hpermits.1)) (hnewer m rfl).1
      | clear m => exact hl
      | idle => exact hl
    · rw [held_after_of_ne hj]
      exact hl
  · intro hl
    cases plan with
    | reserve m expected readAt =>
      obtain ⟨hne, hstart⟩ := hnewer m rfl
      change (if expected = some m then T.indexed else some m) = some l
      by_cases hfound : expected = some m
      · rw [if_pos hfound]
        exact hl
      · -- the index was looked at again, so the lease there had run out before the new one
        rcases hpermits.2 with hsame | hsame | ⟨-, hsame⟩
        · exact absurd hsame hfound
        · rcases hplan.2.2 l (hsame.symm.trans hl) with heq | ⟨-, hstop⟩
          · exact absurd heq hne
          · omega
        · exact absurd (Option.some.inj (hl.symm.trans hsame)) hne
    | release m indexed =>
      change (if indexed then none else T.indexed) = some l
      by_cases hindexed : indexed = true
      · have hm := hpermits.2 hindexed
        exact absurd (Option.some.inj (hl.symm.trans hm)) (hnewer m rfl).1
      · rw [if_neg hindexed]
        exact hl
    | clear m =>
      rcases hpermits with hnone | hm
      · rw [hnone] at hl
        cases hl
      · exact absurd (Option.some.inj (hl.symm.trans hm)) (hnewer m rfl).1
    | idle => exact hl

/-! ### One lease at a time -/

omit [DecidableEq ι] [DecidableEq α] in
/-- When a lease is written, no other holder has one that runs. -/
theorem alone {l : α} {expected : Option α} {readAt : Nat} (howned : T.Owned K)
    (hplan : T.Planned K i (.reserve l expected readAt))
    (hpermits : T.Permits K i (.reserve l expected readAt))
    (hguarded : T.Guarded K i (.reserve l expected readAt))
    (hundisturbed : T.Undisturbed i (.reserve l expected readAt)) {j : ι} {m : α} (hj : j ≠ i) :
    ¬ T.Runs K j m := by
  intro hruns
  have hindexed := hguarded j m hj hruns
  have hne : m ≠ l := by
    rintro rfl
    exact hj ((howned j m hruns.1).symm.trans hplan.1)
  have hother : T.indexed ≠ some l := fun hl => hne (Option.some.inj (hindexed.symm.trans hl))
  rcases hpermits.2 with hfound | hsame | ⟨-, hsame⟩
  · exact hother (hundisturbed hfound)
  · rcases hplan.2.2 m (hsame.symm.trans hindexed) with heq | ⟨hstop, -⟩
    · exact hne heq
    · have hlater := hplan.2.1
      have hrunning := hruns.2
      omega
  · exact hother hsame

/-- What runs after a plan ran before, unless the plan wrote it. -/
theorem runs_after {j : ι} {l : α} (h : (T.after i plan).Runs K j l) :
    T.Runs K j l ∨ (j = i ∧ ∃ expected readAt, plan = .reserve l expected readAt) := by
  obtain ⟨hl, hrunning⟩ := h
  rw [clock_after] at hrunning
  by_cases hj : j = i
  · subst hj
    cases plan with
    | reserve m expected readAt =>
      rw [held_reserve, Option.some.injEq] at hl
      subst hl
      exact Or.inr ⟨rfl, expected, readAt, rfl⟩
    | release m indexed =>
      rw [held_release] at hl
      cases hl
    | clear m => exact Or.inl ⟨hl, hrunning⟩
    | idle => exact Or.inl ⟨hl, hrunning⟩
  · rw [held_after_of_ne hj] at hl
    exact Or.inl ⟨hl, hrunning⟩

theorem Exclusive.after (h : T.Exclusive K) (howned : T.Owned K) (hplan : T.Planned K i plan)
    (hpermits : T.Permits K i plan) (hguarded : T.Guarded K i plan)
    (hundisturbed : T.Undisturbed i plan) : (T.after i plan).Exclusive K := by
  intro j k l m hl hm
  rcases runs_after hl with hl' | ⟨rfl, expected, readAt, rfl⟩
  · rcases runs_after hm with hm' | ⟨rfl, expected, readAt, rfl⟩
    · exact h j k l m hl' hm'
    · by_contra hne
      exact alone howned hplan hpermits hguarded hundisturbed hne hl'
  · rcases runs_after hm with hm' | ⟨rfl, -⟩
    · by_contra hne
      exact alone howned hplan hpermits hguarded hundisturbed (Ne.symm hne) hm'
    · rfl

/-- The plans of others stay guarded. -/
theorem Guarded.after {j : ι} {other : LeasePlan α} (h : T.Guarded K j other) (howned : T.Owned K)
    (hplan : T.Planned K i plan) (hpermits : T.Permits K i plan) (hguarded : T.Guarded K i plan)
    (hundisturbed : T.Undisturbed i plan) : (T.after i plan).Guarded K j other := by
  cases other with
  | release l indexed => trivial
  | clear l => trivial
  | idle => trivial
  | reserve l expected readAt =>
    intro k m hk hruns
    rcases runs_after hruns with hbefore | ⟨rfl, expected', readAt', rfl⟩
    · have hm := h k m hk hbefore
      cases plan with
      | idle => exact hm
      | reserve l' expected' readAt' =>
        -- what ran before and still runs is the holder's own, so it is the lease just written
        have hki : k = i := by
          by_contra hne
          exact alone howned hplan hpermits hguarded hundisturbed hne hbefore
        subst hki
        have hsame := hruns.1
        rw [held_reserve, Option.some.injEq] at hsame
        subst hsame
        change (if expected' = some l' then T.indexed else some l') = some l'
        split
        · exact hm
        · rfl
      | release l' indexed =>
        change (if indexed then none else T.indexed) = some m
        by_cases hindexed : indexed = true
        · have hsame : m = l' := Option.some.inj (hm.symm.trans (hpermits.2 hindexed))
          subst hsame
          have hki : k = i := (howned k m hbefore.1).symm.trans hplan
          subst hki
          have hnone := hruns.1
          rw [held_release] at hnone
          cases hnone
        · rw [if_neg hindexed]
          exact hm
      | clear l' =>
        rcases hpermits with hnone | hl'
        · rw [hnone] at hm
          cases hm
        · have hsame : m = l' := Option.some.inj (hm.symm.trans hl')
          subst hsame
          have hki : k = i := (howned k m hbefore.1).symm.trans hplan
          subst hki
          exact absurd hbefore.1 hundisturbed
    · change (if expected' = some m then T.indexed else some m) = some m
      by_cases hfound : expected' = some m
      · rw [if_pos hfound]
        exact hundisturbed hfound
      · rw [if_neg hfound]

/-! ### Halfway and later -/

theorem Exclusive.halfway (h : T.Exclusive K) : (T.halfway i plan).Exclusive K := h

theorem fenced_halfway {l : α} (hplan : T.Planned K i plan) (hpermits : T.Permits K i plan)
    (hnewer : ∀ m, plan.lease = some m → l ≠ m ∧ K.start m < K.stop l) :
    (∀ j, T.held j = some l → (T.halfway i plan).held j = some l) ∧
      (T.indexed = some l → (T.halfway i plan).indexed = some l) :=
  ⟨fun _ hl => hl, (fenced_after hplan hpermits hnewer).2⟩

end Plans

section Later

variable {K T i} {plan : LeasePlan α} {now : Nat}

omit [DecidableEq ι] [DecidableEq α] in
theorem Planned.later {U : LeaseTable ι α} (h : T.Planned K i plan) (hlater : T.clock ≤ U.clock) :
    U.Planned K i plan := by
  cases plan with
  | reserve l expected readAt => exact ⟨h.1, h.2.1.trans hlater, h.2.2⟩
  | release l indexed => exact h
  | clear l => exact h
  | idle => exact h

omit [DecidableEq ι] [DecidableEq α] in
theorem Exclusive.later (h : T.Exclusive K) (hnow : T.clock ≤ now) :
    ({ T with clock := now } : LeaseTable ι α).Exclusive K :=
  fun i j l m hl hm => h i j l m ⟨hl.1, hnow.trans_lt hl.2⟩ ⟨hm.1, hnow.trans_lt hm.2⟩

omit [DecidableEq ι] [DecidableEq α] in
theorem Guarded.later (h : T.Guarded K i plan) (hnow : T.clock ≤ now) :
    ({ T with clock := now } : LeaseTable ι α).Guarded K i plan := by
  cases plan with
  | reserve l expected readAt =>
    exact fun j m hj hruns => h j m hj ⟨hruns.1, hnow.trans_lt hruns.2⟩
  | release l indexed => trivial
  | clear l => trivial
  | idle => trivial

end Later

end LeaseTable

end Hookemon.Core
