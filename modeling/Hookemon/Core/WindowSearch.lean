import Mathlib

/-! # Searching a window for the least solution

A search that tries one candidate after another finds the least solution of its window. When a
bound puts every solution into the window, what it finds is the least solution at all. Solutions
exist where a function that never rises by more than one passes a level.
-/

namespace Hookemon.Core

/-- The first of `n` candidates from `c` on that `p` accepts. -/
def firstFrom (p : Nat → Bool) : Nat → Nat → Option Nat
  | 0, _ => none
  | n + 1, c => if p c then some c else firstFrom p n (c + 1)

variable {p : Nat → Bool} {n c k : Nat}

theorem firstFrom_eq_some : firstFrom p n c = some k ↔
    c ≤ k ∧ k < c + n ∧ p k ∧ ∀ j, c ≤ j → j < k → ¬ p j := by
  induction n generalizing c with
  | zero =>
    simp only [firstFrom, reduceCtorEq, false_iff]
    omega
  | succ n ih =>
    rw [firstFrom]
    split
    · rename_i hc
      rw [Option.some.injEq]
      constructor
      · rintro rfl
        exact ⟨le_refl c, by omega, hc, by omega⟩
      · rintro ⟨hle, -, -, hleast⟩
        by_contra hne
        exact hleast c (le_refl c) (by omega) hc
    · rename_i hc
      rw [ih]
      constructor
      · rintro ⟨hle, hlt, hk, hleast⟩
        refine ⟨by omega, by omega, hk, ?_⟩
        intro j hcj hjk
        rcases Nat.eq_or_lt_of_le hcj with rfl | hcj
        · exact hc
        · exact hleast j hcj hjk
      · rintro ⟨hle, hlt, hk, hleast⟩
        have hne : c ≠ k := fun h => hc (h ▸ hk)
        exact ⟨by omega, by omega, hk, fun j hcj hjk => hleast j (by omega) hjk⟩

theorem firstFrom_eq_none : firstFrom p n c = none ↔ ∀ k, c ≤ k → k < c + n → ¬ p k := by
  constructor
  · intro h k hck hkn hk
    induction n generalizing c with
    | zero => omega
    | succ n ih =>
      rw [firstFrom] at h
      split at h
      · cases h
      · rename_i hc
        rcases Nat.eq_or_lt_of_le hck with rfl | hck
        · exact hc hk
        · exact ih h hck (by omega)
  · intro h
    cases hfirst : firstFrom p n c with
    | none => rfl
    | some k =>
      obtain ⟨hle, hlt, hk, -⟩ := firstFrom_eq_some.mp hfirst
      exact absurd hk (h k hle hlt)

/-- When no solution is outside the window, the search finds the least one. -/
theorem firstFrom_of_isLeast (hwindow : ∀ j, p j → c ≤ j ∧ j < c + n)
    (hk : IsLeast {j | p j} k) : firstFrom p n c = some k := by
  obtain ⟨hle, hlt⟩ := hwindow k hk.1
  refine firstFrom_eq_some.mpr ⟨hle, hlt, hk.1, ?_⟩
  intro j _ hjk hj
  exact absurd (hk.2 hj) (by omega)

/-- A function that never rises by more than one takes every value that it passes. -/
theorem exists_eq_of_slow_rise {f : Nat → Int} (hstep : ∀ j, f (j + 1) ≤ f j + 1) {a b : Nat}
    {y : Int} (hab : a ≤ b) (ha : f a ≤ y) (hb : y ≤ f b) : ∃ j, a ≤ j ∧ j ≤ b ∧ f j = y := by
  induction b, hab using Nat.le_induction with
  | base => exact ⟨a, le_refl a, le_refl a, le_antisymm ha hb⟩
  | succ b hab ih =>
    by_cases hbefore : y ≤ f b
    · obtain ⟨j, haj, hjb, hj⟩ := ih hbefore
      exact ⟨j, haj, by omega, hj⟩
    · have hrise := hstep b
      exact ⟨b + 1, by omega, le_refl _, by omega⟩

end Hookemon.Core
