import Mathlib

/-! # Lists that grow

A list of records to which new ones are added at the end, while an old one may only change as
a relation allows. Positions stay, and so do sums of what the relation does not increase.
-/

namespace Hookemon.Core

universe u

variable {α : Type u}

/-- Every old record is still in its place, changed as the relation allows. -/
inductive Grows (R : α → α → Prop) : List α → List α → Prop
  | nil (after : List α) : Grows R [] after
  | cons {a b : α} {before after : List α} (head : R a b) (rest : Grows R before after) :
    Grows R (a :: before) (b :: after)

namespace Grows

variable {R : α → α → Prop} {before middle after : List α}

theorem refl (hR : ∀ a, R a a) (xs : List α) : Grows R xs xs := by
  induction xs with
  | nil => exact .nil []
  | cons x xs ih => exact .cons (hR x) ih

theorem trans (hR : ∀ a b c, R a b → R b c → R a c) (h : Grows R before middle)
    (h' : Grows R middle after) : Grows R before after := by
  induction h generalizing after with
  | nil => exact .nil after
  | cons head rest ih =>
    cases h' with
    | cons head' rest' => exact .cons (hR _ _ _ head head') (ih rest')

/-- New records are added. -/
theorem append (hR : ∀ a, R a a) (xs more : List α) : Grows R xs (xs ++ more) := by
  induction xs with
  | nil => exact .nil _
  | cons x xs ih => exact .cons (hR x) ih

/-- Records change each on its own. -/
theorem map (f : α → α) {xs : List α} (h : ∀ x ∈ xs, R x (f x)) : Grows R xs (xs.map f) := by
  induction xs with
  | nil => exact .nil _
  | cons x xs ih =>
    exact .cons (h x List.mem_cons_self) (ih fun y hy => h y (List.mem_cons_of_mem x hy))

theorem get (h : Grows R before after) {i : Nat} {a : α} (ha : before[i]? = some a) :
    ∃ b, after[i]? = some b ∧ R a b := by
  induction h generalizing i with
  | nil => simp at ha
  | @cons x y before after head rest ih =>
    cases i with
    | zero =>
      rw [List.getElem?_cons_zero, Option.some.injEq] at ha
      exact ⟨y, List.getElem?_cons_zero, ha ▸ head⟩
    | succ i =>
      rw [List.getElem?_cons_succ] at ha ⊢
      exact ih ha

theorem length_le (h : Grows R before after) : before.length ≤ after.length := by
  induction h with
  | nil => exact Nat.zero_le _
  | cons head rest ih => exact Nat.succ_le_succ ih

/-- What every change keeps or lowers is in sum kept or lowered. -/
theorem sum_le (h : Grows R before after) {f g : α → Nat}
    (hfg : ∀ a ∈ before, ∀ b, R a b → f b ≤ g a) :
    ((after.take before.length).map f).sum ≤ (before.map g).sum := by
  induction h with
  | nil => simp
  | @cons a b before after head rest ih =>
    rw [List.length_cons, List.take_succ_cons, List.map_cons, List.map_cons, List.sum_cons,
      List.sum_cons]
    have hhead := hfg a List.mem_cons_self b head
    have hrest := ih fun x hx => hfg x (List.mem_cons_of_mem a hx)
    omega

/-- What no change touches is the same at the old places. -/
theorem map_take (h : Grows R before after) {β : Type u} {f : α → β}
    (hf : ∀ a b, R a b → f a = f b) : before.map f = (after.take before.length).map f := by
  induction h with
  | nil => simp
  | cons head rest ih =>
    rw [List.map_cons, List.length_cons, List.take_succ_cons, List.map_cons, hf _ _ head, ih]

end Grows

end Hookemon.Core
