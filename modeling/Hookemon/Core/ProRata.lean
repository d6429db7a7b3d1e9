import Mathlib

/-! # Floored shares of a pool, and what is carried from round to round

A pool is shared among participants in proportion to their weights, each share
rounded down. What the rounding leaves is less than one unit a participant. When
every round adds what it receives to what the round before it left over, nothing is
created or lost, whatever the rounds pay out.
-/

namespace Hookemon.Core

universe u

/-! ## One round -/

section Shares

variable {α : Type u} (weight : α → Nat) (pool : Nat)

/-- The share of `x` when the weights add up to `total`. -/
def floorShare (total : Nat) (x : α) : Nat := weight x * pool / total

/-- The sum of the shares of all participants. -/
def sharedOut (xs : List α) : Nat :=
  (xs.map (floorShare weight pool (xs.map weight).sum)).sum

/-- Division with remainder, participant by participant. -/
theorem floorShare_division (total : Nat) (xs : List α) :
    total * (xs.map (floorShare weight pool total)).sum
      + (xs.map fun x => weight x * pool % total).sum = (xs.map weight).sum * pool := by
  induction xs with
  | nil => simp
  | cons x xs ih =>
    have hx : total * floorShare weight pool total x + weight x * pool % total = weight x * pool :=
      Nat.div_add_mod _ _
    simp only [List.map_cons, List.sum_cons]
    calc total * (floorShare weight pool total x + (xs.map (floorShare weight pool total)).sum)
          + (weight x * pool % total + (xs.map fun x => weight x * pool % total).sum)
        = (total * floorShare weight pool total x + weight x * pool % total)
          + (total * (xs.map (floorShare weight pool total)).sum
            + (xs.map fun x => weight x * pool % total).sum) := by ring
      _ = (weight x + (xs.map weight).sum) * pool := by rw [hx, ih]; ring

variable {weight pool} {xs : List α}

/-- The shares never add up to more than the pool. -/
theorem sharedOut_le (hpos : 0 < (xs.map weight).sum) : sharedOut weight pool xs ≤ pool := by
  have hdivision := floorShare_division weight pool (xs.map weight).sum xs
  have hscaled : (xs.map weight).sum * sharedOut weight pool xs ≤ (xs.map weight).sum * pool := by
    unfold sharedOut
    omega
  exact Nat.le_of_mul_le_mul_left hscaled hpos

/-- What the shares leave of the pool is less than one unit a participant. -/
theorem pool_sub_sharedOut_lt (hpos : 0 < (xs.map weight).sum) :
    pool - sharedOut weight pool xs < xs.length := by
  have hdivision := floorShare_division weight pool (xs.map weight).sum xs
  have hle : sharedOut weight pool xs ≤ pool := sharedOut_le hpos
  have hne : xs ≠ [] := by
    intro hnil
    simp [hnil] at hpos
  -- the remainders of the divisions, each below the total weight
  have hrem : (xs.map fun x => weight x * pool % (xs.map weight).sum).sum
      < (xs.map fun _ => (xs.map weight).sum).sum := by
    apply List.sum_lt_sum_of_ne_nil hne
    intro x _
    exact Nat.mod_lt _ hpos
  have hconst : (xs.map fun _ => (xs.map weight).sum).sum = (xs.map weight).sum * xs.length := by
    rw [List.map_const', List.sum_replicate_nat, Nat.mul_comm]
  have hleft : (xs.map weight).sum * (pool - sharedOut weight pool xs)
      = (xs.map fun x => weight x * pool % (xs.map weight).sum).sum := by
    rw [Nat.mul_sub]
    unfold sharedOut
    omega
  apply Nat.lt_of_mul_lt_mul_left (a := (xs.map weight).sum)
  rw [hleft, ← hconst]
  exact hrem

end Shares

/-! ## Any number of rounds -/

section Rounds

variable {ρ : Type u} (received paid carried : ρ → Nat)

/-- A sequence of rounds that begins with `start` at hand and ends with `last`: each
round pays out and carries on exactly what it received and what was at hand. -/
inductive Carries (start : Nat) : List ρ → Nat → Prop where
  | nil : Carries start [] start
  | snoc {rounds : List ρ} {hand : Nat} {r : ρ} (hrounds : Carries start rounds hand)
      (hbalanced : paid r + carried r = received r + hand) :
      Carries start (rounds ++ [r]) (carried r)

variable {received paid carried} {start last : Nat} {rounds : List ρ}

/-- Conservation over the whole sequence. -/
theorem Carries.conserved (h : Carries received paid carried start rounds last) :
    (rounds.map paid).sum + last = start + (rounds.map received).sum := by
  induction h with
  | nil => simp
  | snoc hrounds hbalanced ih =>
    simp only [List.map_append, List.map_cons, List.map_nil, List.sum_append, List.sum_cons,
      List.sum_nil]
    omega

end Rounds

end Hookemon.Core
