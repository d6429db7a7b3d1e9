import Mathlib

/-! # Failing computations and checked word arithmetic

A contract entry either returns a value or reverts with a reason, so it is a
computation in `Except ε`. The lemmas here take such a computation apart: what
a successful `bind` went through, which guard it passed, and what a checked
arithmetic operation established about its operands. The arithmetic is generic
in the largest representable value `cap` and in the overflow reason.
-/

namespace Hookemon.Core

universe u v w

variable {ε : Type u} {α : Type v} {β : Type w}

/-! ## Guards and sequencing -/

/-- `if (c) revert e;`. -/
def revertIf (c : Prop) [Decidable c] (e : ε) : Except ε Unit :=
  if c then .error e else .ok ()

@[simp] theorem revertIf_eq_ok {c : Prop} [Decidable c] {e : ε} {u : Unit} :
    revertIf c e = .ok u ↔ ¬ c := by
  unfold revertIf
  split <;> simp_all

@[simp] theorem revertIf_eq_error {c : Prop} [Decidable c] {e e' : ε} :
    revertIf c e = .error e' ↔ c ∧ e = e' := by
  unfold revertIf
  split <;> simp_all

theorem revertIf_of_not {c : Prop} [Decidable c] {e : ε} (h : ¬ c) : revertIf c e = .ok () :=
  if_neg h

/-- A sequence succeeds exactly when its first part does and the rest succeeds
from the value of the first. -/
@[simp] theorem bind_eq_ok {α β : Type v} {x : Except ε α} {f : α → Except ε β} {b : β} :
    (x >>= f) = .ok b ↔ ∃ a, x = .ok a ∧ f a = .ok b := by
  cases x with
  | error e => simp [bind, Except.bind]
  | ok a => simp [bind, Except.bind]

/-- A sequence fails where its first part fails, or where the rest does. -/
theorem bind_eq_error {α β : Type v} {x : Except ε α} {f : α → Except ε β} {e : ε} :
    (x >>= f) = .error e ↔ x = .error e ∨ ∃ a, x = .ok a ∧ f a = .error e := by
  cases x with
  | error e' => simp [bind, Except.bind]
  | ok a => simp [bind, Except.bind]

/-- A sequence whose first part is known to succeed goes on from its value. -/
@[simp] theorem ok_bind {α β : Type v} {a : α} {f : α → Except ε β} :
    ((.ok a : Except ε α) >>= f) = f a := rfl

@[simp] theorem pure_eq_ok {a b : α} : (pure a : Except ε α) = .ok b ↔ a = b := by
  simp [pure, Except.pure]

@[simp] theorem pure_ne_error {a : α} {e : ε} : (pure a : Except ε α) ≠ .error e := by
  simp [pure, Except.pure]

/-- A value that may be missing is found exactly when it is there. -/
theorem elim_eq_ok {x : Option α} {e : ε} {a : α} :
    x.elim (.error e : Except ε α) .ok = .ok a ↔ x = some a := by
  cases x <;> simp

/-- A loop over the indices of a list whose body succeeds at each element. -/
theorem mapM_range_eq_ok {γ : Type u} {β : Type v} {xs : List γ} {f : Nat → Except ε β}
    {g : γ → β} (h : ∀ i x, xs[i]? = some x → f i = .ok (g x)) :
    (List.range xs.length).mapM f = .ok (xs.map g) := by
  induction xs generalizing f with
  | nil => rfl
  | cons x xs ih =>
    have hfirst : f 0 = .ok (g x) := h 0 x rfl
    have hrest : (List.range xs.length).mapM (f ∘ Nat.succ) = .ok (xs.map g) :=
      ih fun i y hy => h (i + 1) y hy
    rw [List.length_cons, List.range_succ_eq_map, List.mapM_cons, List.mapM_map, hfirst, hrest]
    rfl

/-- A computation that is seen to succeed with a value that passes a test does so. -/
theorem exists_ok_of_check {x : Except ε α} {p : α → Bool} (h : x.toOption.any p = true) :
    ∃ a, x = .ok a ∧ p a = true := by
  cases x with
  | error e => simp [Except.toOption] at h
  | ok a => exact ⟨a, rfl, by simpa [Except.toOption] using h⟩

/-! ## Checked arithmetic -/

/-- Addition that fails above `cap`. -/
def checkedAdd (cap : Nat) (overflow : ε) (x y : Nat) : Except ε Nat :=
  if x + y ≤ cap then .ok (x + y) else .error overflow

/-- Multiplication that fails above `cap`. -/
def checkedMul (cap : Nat) (overflow : ε) (x y : Nat) : Except ε Nat :=
  if x * y ≤ cap then .ok (x * y) else .error overflow

/-- Subtraction that fails below zero. -/
def checkedSub (underflow : ε) (x y : Nat) : Except ε Nat :=
  if y ≤ x then .ok (x - y) else .error underflow

section

variable {cap x y z : Nat} {e e' : ε}

@[simp] theorem checkedAdd_eq_ok :
    checkedAdd cap e x y = .ok z ↔ x + y ≤ cap ∧ x + y = z := by
  unfold checkedAdd
  split <;> simp_all

@[simp] theorem checkedMul_eq_ok :
    checkedMul cap e x y = .ok z ↔ x * y ≤ cap ∧ x * y = z := by
  unfold checkedMul
  split <;> simp_all

@[simp] theorem checkedSub_eq_ok :
    checkedSub e x y = .ok z ↔ y ≤ x ∧ x - y = z := by
  unfold checkedSub
  split <;> simp_all

theorem checkedAdd_of_le (h : x + y ≤ cap) : checkedAdd cap e x y = .ok (x + y) :=
  if_pos h

theorem checkedMul_of_le (h : x * y ≤ cap) : checkedMul cap e x y = .ok (x * y) :=
  if_pos h

theorem checkedSub_of_le (h : y ≤ x) : checkedSub e x y = .ok (x - y) :=
  if_pos h

theorem checkedAdd_error (h : checkedAdd cap e x y = .error e') : e' = e := by
  unfold checkedAdd at h
  split at h <;> simp_all

theorem checkedMul_error (h : checkedMul cap e x y = .error e') : e' = e := by
  unfold checkedMul at h
  split at h <;> simp_all

theorem checkedSub_error (h : checkedSub e x y = .error e') : e' = e := by
  unfold checkedSub at h
  split at h <;> simp_all

end

end Hookemon.Core
