import Mathlib

/-! # Fractions paid out with a carried remainder

A stream is owed `b / d` of every quantity that passes. Each time it is paid a
whole number and the numerator that was left over is carried to the next time.
The carried remainder makes the rounding disappear: after any sequence of
quantities the stream has been paid the floor of its share of the total, so
how the total was split up does not matter.
-/

namespace Hookemon.Core

/-- One payment: what is paid for the quantity `q` and the remainder that is
carried on from `r`, at `b` parts in `d`. -/
def carriedStep (d b r q : Nat) : Nat × Nat :=
  ((b * q + r) / d, (b * q + r) % d)

/-- The payments of a sequence of quantities: the total and the last remainder. -/
def carriedRun (d b : Nat) : Nat → List Nat → Nat × Nat
  | r, [] => (0, r)
  | r, q :: qs =>
    let (paid, r') := carriedStep d b r q
    let (total, last) := carriedRun d b r' qs
    (paid + total, last)

/-- Division and remainder of `q` by `d` can be taken before multiplying, which
keeps the intermediate values small. -/
theorem carried_decomposition {d : Nat} (hd : 0 < d) (b r q : Nat) :
    q / d * b + (q % d * b + r) / d = (b * q + r) / d ∧
      (q % d * b + r) % d = (b * q + r) % d := by
  have hsplit : b * q + r = d * (q / d * b) + (q % d * b + r) := by
    calc b * q + r = b * (d * (q / d) + q % d) + r := by rw [Nat.div_add_mod]
      _ = d * (q / d * b) + (q % d * b + r) := by ring
  constructor
  · rw [hsplit, Nat.mul_add_div hd]
  · rw [hsplit, Nat.mul_add_mod]

/-- Paying `q` and then `Q` from the carried remainder pays, in total, what
paying `q + Q` at once pays, and carries the same remainder. -/
theorem carried_merge {d : Nat} (hd : 0 < d) (b r q Q : Nat) :
    (b * q + r) / d + (b * Q + (b * q + r) % d) / d = (b * (q + Q) + r) / d ∧
      (b * Q + (b * q + r) % d) % d = (b * (q + Q) + r) % d := by
  have hsplit : b * (q + Q) + r = d * ((b * q + r) / d) + (b * Q + (b * q + r) % d) := by
    calc b * (q + Q) + r = b * Q + (b * q + r) := by ring
      _ = b * Q + (d * ((b * q + r) / d) + (b * q + r) % d) := by rw [Nat.div_add_mod]
      _ = d * ((b * q + r) / d) + (b * Q + (b * q + r) % d) := by ring
  constructor
  · rw [hsplit, Nat.mul_add_div hd]
  · rw [hsplit, Nat.mul_add_mod]

/-- The run theorem: the total paid is the floor of the share of the total
quantity, and the remainder is what that floor cuts off. -/
theorem carriedRun_eq {d : Nat} (hd : 0 < d) (b : Nat) (qs : List Nat) :
    ∀ {r : Nat}, r < d →
      carriedRun d b r qs = ((b * qs.sum + r) / d, (b * qs.sum + r) % d) := by
  induction qs with
  | nil =>
    intro r hr
    simp [carriedRun, Nat.div_eq_of_lt hr, Nat.mod_eq_of_lt hr]
  | cons q qs ih =>
    intro r hr
    have hnext : (b * q + r) % d < d := Nat.mod_lt _ hd
    obtain ⟨hpaid, hrem⟩ := carried_merge hd b r q qs.sum
    simp only [carriedRun, carriedStep, ih hnext, List.sum_cons]
    rw [hpaid, hrem]

end Hookemon.Core
