import Hookemon.Core.Checked

/-! # Totals of a loop

A loop that goes over a list, works something out for each element and adds it to what it
has so far. Each element may fail, and then the loop does. Where none does, the loop gives
a sum, whatever the order of the list.
-/

namespace Hookemon.Core

universe u v w

variable {ε : Type u} {α : Type v} {σ : Type w}

/-- `for (const x of xs) total += f(x);`. -/
def addAll [AddMonoid σ] (f : α → Except ε σ) (xs : List α) : Except ε σ :=
  xs.foldlM (fun total x => do
    let figure ← f x
    return total + figure) 0

/-- The value of a computation that succeeds, else zero. -/
def figureOf [AddMonoid σ] (x : Except ε σ) : σ := x.toOption.getD 0

@[simp] theorem figureOf_ok [AddMonoid σ] {a : σ} : figureOf (.ok a : Except ε σ) = a := rfl

theorem eq_ok_figureOf [AddMonoid σ] {x : Except ε σ} (h : ∃ a, x = .ok a) :
    x = .ok (figureOf x) := by
  rcases h with ⟨a, rfl⟩
  simp

theorem foldlM_add [AddMonoid σ] {f : α → Except ε σ} {xs : List α}
    (h : ∀ x ∈ xs, ∃ a, f x = .ok a) (total : σ) :
    xs.foldlM (fun total x => do
      let figure ← f x
      return total + figure) total = .ok (total + (xs.map fun x => figureOf (f x)).sum) := by
  induction xs generalizing total with
  | nil =>
    rw [List.map_nil, List.sum_nil, add_zero]
    rfl
  | cons x xs ih =>
    have hrest := ih (fun y hy => h y (List.mem_cons_of_mem x hy)) (total + figureOf (f x))
    rw [List.foldlM_cons, eq_ok_figureOf (h x List.mem_cons_self), ok_bind]
    rw [List.map_cons, List.sum_cons, ← add_assoc]
    exact hrest

theorem addAll_eq_ok [AddMonoid σ] {f : α → Except ε σ} {xs : List α}
    (h : ∀ x ∈ xs, ∃ a, f x = .ok a) :
    addAll f xs = .ok (xs.map fun x => figureOf (f x)).sum := by
  rw [addAll, foldlM_add h, zero_add]

/-- A map over a list whose elements all succeed. -/
theorem mapM_eq_ok {β : Type w} {f : α → Except ε β} {g : α → β} {xs : List α}
    (h : ∀ x ∈ xs, f x = .ok (g x)) : xs.mapM f = .ok (xs.map g) := by
  induction xs with
  | nil => rfl
  | cons x xs ih =>
    have hrest := ih fun y hy => h y (List.mem_cons_of_mem x hy)
    rw [List.mapM_cons, h x List.mem_cons_self, ok_bind, hrest, ok_bind]
    rfl

/-- A loop whose turns all succeed is a loop over what they give. -/
theorem foldlM_eq_ok (step : σ → α → Except ε σ) (next : σ → α → σ) {xs : List α}
    (h : ∀ s, ∀ x ∈ xs, step s x = .ok (next s x)) (s : σ) :
    xs.foldlM step s = .ok (xs.foldl next s) := by
  induction xs generalizing s with
  | nil => rfl
  | cons x xs ih =>
    rw [List.foldlM_cons, h s x List.mem_cons_self, ok_bind]
    exact ih (fun s y hy => h s y (List.mem_cons_of_mem x hy)) (next s x)

/-- A loop whose turns all succeed, whatever they give, succeeds. -/
theorem foldlM_isOk (step : σ → α → Except ε σ) {xs : List α}
    (h : ∀ s, ∀ x ∈ xs, ∃ next, step s x = .ok next) (s : σ) : ∃ last, xs.foldlM step s = .ok last := by
  induction xs generalizing s with
  | nil => exact ⟨s, rfl⟩
  | cons x xs ih =>
    rcases h s x List.mem_cons_self with ⟨next, hnext⟩
    rw [List.foldlM_cons, hnext, ok_bind]
    exact ih (fun s y hy => h s y (List.mem_cons_of_mem x hy)) next

end Hookemon.Core
