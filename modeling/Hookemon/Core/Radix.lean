import Mathlib

/-! # Change of base

The digits of a number, least significant first, are multiplied by a constant and increased
in place, with a carry that runs through them and is written out at the end. Done for each
digit of a numeral in one base, this is the numeral of the same number in the other base.
-/

namespace Hookemon.Core

/-- Digits in base `b` times `m` plus a carry: the new digits, and the carry that is left. -/
def mulAdd (b m : Nat) : List Nat → Nat → List Nat × Nat
  | [], carry => ([], carry)
  | digit :: digits, carry =>
    let next := digit * m + carry
    let rest := mulAdd b m digits (next / b)
    (next % b :: rest.1, rest.2)

variable {b m : Nat}

@[simp] theorem mulAdd_length (ds : List Nat) (carry : Nat) :
    (mulAdd b m ds carry).1.length = ds.length := by
  induction ds generalizing carry with
  | nil => rfl
  | cons d ds ih => simp [mulAdd, ih]

theorem mulAdd_lt (hb : 0 < b) (ds : List Nat) (carry : Nat) :
    ∀ d ∈ (mulAdd b m ds carry).1, d < b := by
  induction ds generalizing carry with
  | nil => simp [mulAdd]
  | cons d ds ih =>
    intro e he
    rcases List.mem_cons.mp he with rfl | hrest
    · exact Nat.mod_lt _ hb
    · exact ih _ e hrest

/-- The value is multiplied and increased. -/
theorem ofDigits_mulAdd (ds : List Nat) (carry : Nat) :
    Nat.ofDigits b (mulAdd b m ds carry).1 + b ^ ds.length * (mulAdd b m ds carry).2
      = Nat.ofDigits b ds * m + carry := by
  induction ds generalizing carry with
  | nil => simp [mulAdd]
  | cons d ds ih =>
    have hrest := ih ((d * m + carry) / b)
    have hsplit := Nat.mod_add_div (d * m + carry) b
    have hdigits : (mulAdd b m (d :: ds) carry).1
        = (d * m + carry) % b :: (mulAdd b m ds ((d * m + carry) / b)).1 := rfl
    have hcarry : (mulAdd b m (d :: ds) carry).2
        = (mulAdd b m ds ((d * m + carry) / b)).2 := rfl
    rw [hdigits, hcarry, Nat.ofDigits_cons, Nat.ofDigits_cons, List.length_cons, Nat.pow_succ']
    calc (d * m + carry) % b + b * Nat.ofDigits b (mulAdd b m ds ((d * m + carry) / b)).1
          + b * b ^ ds.length * (mulAdd b m ds ((d * m + carry) / b)).2
        = (d * m + carry) % b + b * (Nat.ofDigits b (mulAdd b m ds ((d * m + carry) / b)).1
          + b ^ ds.length * (mulAdd b m ds ((d * m + carry) / b)).2) := by ring
      _ = (d * m + carry) % b + b * (Nat.ofDigits b ds * m + (d * m + carry) / b) := by rw [hrest]
      _ = ((d * m + carry) % b + b * ((d * m + carry) / b)) + b * (Nat.ofDigits b ds * m) := by
        ring
      _ = d * m + carry + b * (Nat.ofDigits b ds * m) := by rw [hsplit]
      _ = (d + b * Nat.ofDigits b ds) * m + carry := by ring

/-- A top digit that is not zero leaves a carry, as the factor is at least the base. -/
theorem mulAdd_carry (hb : 0 < b) (hm : b ≤ m) {ds : List Nat} (hne : ds ≠ [])
    (hlast : ds.getLast hne ≠ 0) (carry : Nat) : (mulAdd b m ds carry).2 ≠ 0 := by
  induction ds generalizing carry with
  | nil => exact absurd rfl hne
  | cons d ds ih =>
    cases ds with
    | nil =>
      have hd : 1 ≤ d := Nat.one_le_iff_ne_zero.mpr (by simpa using hlast)
      have hbase : b ≤ d * m + carry :=
        calc b ≤ m := hm
          _ = 1 * m := (Nat.one_mul m).symm
          _ ≤ d * m := Nat.mul_le_mul_right m hd
          _ ≤ d * m + carry := Nat.le_add_right _ _
      have hquotient : 0 < (d * m + carry) / b := Nat.div_pos hbase hb
      exact Nat.ne_of_gt hquotient
    | cons e ds =>
      rw [List.getLast_cons (List.cons_ne_nil e ds)] at hlast
      exact ih (List.cons_ne_nil e ds) hlast _

/-- The digits of a positive number, multiplied and increased in place. -/
theorem digits_mulAdd (hb : 1 < b) (hm : b ≤ m) {n : Nat} (hn : n ≠ 0) (carry : Nat) :
    (mulAdd b m (Nat.digits b n) carry).1 ++ Nat.digits b (mulAdd b m (Nat.digits b n) carry).2
      = Nat.digits b (n * m + carry) := by
  have hpos : 0 < b := Nat.zero_lt_of_lt hb
  have hne : Nat.digits b n ≠ [] := Nat.digits_ne_nil_iff_ne_zero.mpr hn
  have hcarry := mulAdd_carry hpos hm hne (Nat.getLast_digit_ne_zero b hn) carry
  have htop : Nat.digits b (mulAdd b m (Nat.digits b n) carry).2 ≠ [] :=
    Nat.digits_ne_nil_iff_ne_zero.mpr hcarry
  have hvalue := ofDigits_mulAdd (b := b) (m := m) (Nat.digits b n) carry
  rw [Nat.ofDigits_digits] at hvalue
  rw [← hvalue, ← mulAdd_length (b := b) (m := m) (Nat.digits b n) carry]
  -- both sides are digits without a zero on top, so it is enough that they have one value
  have hsame : Nat.ofDigits b ((mulAdd b m (Nat.digits b n) carry).1
      ++ Nat.digits b (mulAdd b m (Nat.digits b n) carry).2)
      = Nat.ofDigits b (mulAdd b m (Nat.digits b n) carry).1
        + b ^ (mulAdd b m (Nat.digits b n) carry).1.length
          * (mulAdd b m (Nat.digits b n) carry).2 := by
    rw [Nat.ofDigits_append, Nat.ofDigits_digits]
  rw [← hsame]
  refine (Nat.digits_ofDigits b hb _ ?_ ?_).symm
  · intro d hd
    rcases List.mem_append.mp hd with hlow | hhigh
    · exact mulAdd_lt hpos _ _ d hlow
    · exact Nat.digits_lt_base hb hhigh
  · intro hall
    rw [List.getLast_append_of_ne_nil _ htop]
    exact Nat.getLast_digit_ne_zero b hcarry

end Hookemon.Core
