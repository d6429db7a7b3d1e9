import Mathlib

/-! # Logs of transfers

Amounts move between parties, one transfer after another. The net of a party is what it
received less what it sent. One party stands for the outside, from which amounts come and
into which they vanish: of every other party, a covered log never takes more than its net.
-/

namespace Hookemon.Core

universe u

structure Transfer (κ : Type u) where
  source : κ
  target : κ
  value : Nat
deriving DecidableEq, Repr

variable {κ : Type u} [DecidableEq κ]

/-- What a party received. -/
def received (ts : List (Transfer κ)) (party : κ) : Nat :=
  ((ts.filter fun t => t.target = party).map Transfer.value).sum

/-- What a party sent. -/
def sent (ts : List (Transfer κ)) (party : κ) : Nat :=
  ((ts.filter fun t => t.source = party).map Transfer.value).sum

/-- What a party received less what it sent. -/
def net (ts : List (Transfer κ)) (party : κ) : Int := received ts party - sent ts party

variable {ts : List (Transfer κ)} {t : Transfer κ} {party outside : κ}

@[simp] theorem net_nil : net ([] : List (Transfer κ)) party = 0 := by
  simp [net, received, sent]

/-- One more transfer takes from its source and gives to its target. -/
theorem net_concat : net (ts ++ [t]) party
    = net ts party - (if t.source = party then (t.value : Int) else 0)
      + (if t.target = party then (t.value : Int) else 0) := by
  have hreceived : received (ts ++ [t]) party
      = received ts party + if t.target = party then t.value else 0 := by
    by_cases h : t.target = party
    · simp [received, h]
    · simp [received, h]
  have hsent : sent (ts ++ [t]) party
      = sent ts party + if t.source = party then t.value else 0 := by
    by_cases h : t.source = party
    · simp [sent, h]
    · simp [sent, h]
  rw [net, net, hreceived, hsent]
  push_cast
  ring

/-- A party with a positive net is the target of some transfer. -/
theorem exists_target_of_net_pos (h : 0 < net ts party) : ∃ t ∈ ts, t.target = party := by
  by_contra hnone
  have hzero : received ts party = 0 := by
    rw [received, List.filter_eq_nil_iff.mpr]
    · rfl
    · intro t ht
      have hother : t.target ≠ party := fun htarget => hnone ⟨t, ht, htarget⟩
      simpa using hother
  rw [net, hzero] at h
  omega

/-- No party but the outside sends more than its net at the time. -/
def Covered (outside : κ) (ts : List (Transfer κ)) : Prop :=
  ∀ front t rest, ts = front ++ t :: rest → t.source ≠ outside →
    (t.value : Int) ≤ net front t.source

theorem covered_nil : Covered outside ([] : List (Transfer κ)) := by
  intro front t rest hsplit
  simp at hsplit

theorem covered_concat : Covered outside (ts ++ [t]) ↔
    Covered outside ts ∧ (t.source ≠ outside → (t.value : Int) ≤ net ts t.source) := by
  constructor
  · intro h
    refine ⟨?_, h ts t [] rfl⟩
    intro front u rest hsplit
    refine h front u (rest ++ [t]) ?_
    rw [hsplit, List.append_assoc, List.cons_append]
  · rintro ⟨hbefore, hlast⟩ front u rest hsplit
    cases rest using List.reverseRecOn with
    | nil =>
      obtain ⟨hfront, hsame⟩ := List.append_inj' hsplit rfl
      rw [← hfront, ← List.singleton_injective hsame]
      exact hlast
    | append_singleton rest v =>
      rw [← List.cons_append, ← List.append_assoc] at hsplit
      exact hbefore front u rest (List.append_inj' hsplit rfl).1

/-- In a covered log the net of a party is never negative. -/
theorem Covered.net_nonneg (h : Covered outside ts) (hparty : party ≠ outside) :
    0 ≤ net ts party := by
  induction ts using List.reverseRecOn with
  | nil => simp
  | append_singleton ts t ih =>
    obtain ⟨hbefore, hlast⟩ := covered_concat.mp h
    have hnet := ih hbefore
    rw [net_concat]
    by_cases hsource : t.source = party
    · -- what the party sends it has
      have hvalue := hlast (hsource ▸ hparty)
      rw [hsource] at hvalue
      rw [if_pos hsource]
      split <;> omega
    · rw [if_neg hsource]
      split <;> omega

end Hookemon.Core
