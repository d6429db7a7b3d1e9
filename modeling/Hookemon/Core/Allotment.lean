import Mathlib

/-! # Allotting a fixed budget

A budget is allotted to parts, one part at a time. Every part carries a share
with a weight; a share may be replaced as long as the total weight is below the
budget and stays within it. When the total reaches the budget the allotment is
closed, and nothing is replaced any more.

Wherever an open allotment has got to, it can still be closed with any shares
whose weights add up to the budget: first every part is emptied, then the shares
are assigned one after the other until the total is reached.
-/

namespace Hookemon.Core

variable {ι β : Type} [Fintype ι] [DecidableEq ι] (weight : β → Nat)

/-- The total weight of an allotment. -/
def total (a : ι → β) : Nat := ∑ i, weight (a i)

/-- The assignments `calls` lead from one allotment to another: each of them
starts below the budget and stays within it. -/
def Allots (budget : Nat) : (ι → β) → List (ι × β) → (ι → β) → Prop
  | a, [], a' => a = a'
  | a, (i, b) :: calls, a' =>
    total weight a < budget ∧ total weight (Function.update a i b) ≤ budget ∧
      Allots budget (Function.update a i b) calls a'

/-- `a`, with the parts in the list assigned from `f`. -/
def overlay (a f : ι → β) (parts : List ι) : ι → β := fun i => if i ∈ parts then f i else a i

variable {weight}

variable (weight) in
/-- Replacing a share replaces its weight in the total. -/
theorem total_update (a : ι → β) (i : ι) (b : β) :
    total weight (Function.update a i b) + weight (a i) = total weight a + weight b := by
  have hnew : total weight (Function.update a i b) =
      weight b + ∑ j ∈ Finset.univ.erase i, weight (a j) := by
    rw [total, ← Finset.add_sum_erase _ _ (Finset.mem_univ i), Function.update_self]
    congr 1
    refine Finset.sum_congr rfl ?_
    intro j hj
    rw [Function.update_of_ne (Finset.ne_of_mem_erase hj)]
  have hold : total weight a = weight (a i) + ∑ j ∈ Finset.univ.erase i, weight (a j) := by
    rw [total, Finset.add_sum_erase _ (fun j => weight (a j)) (Finset.mem_univ i)]
  omega

variable (weight) in
omit [DecidableEq ι] in
theorem weight_le_total (a : ι → β) (i : ι) : weight (a i) ≤ total weight a :=
  Finset.single_le_sum (f := fun j => weight (a j)) (fun _ _ => Nat.zero_le _) (Finset.mem_univ i)

omit [Fintype ι] in
@[simp] theorem overlay_nil (a f : ι → β) : overlay a f [] = a := by
  funext i
  simp [overlay]

omit [Fintype ι] in
theorem overlay_update (a f : ι → β) (i : ι) (parts : List ι) :
    overlay (Function.update a i (f i)) f parts = overlay a f (i :: parts) := by
  funext j
  by_cases hji : j = i
  · subst hji
    simp [overlay]
  · simp [overlay, hji]

theorem Allots.append {budget : Nat} {a a' a'' : ι → β} {calls calls' : List (ι × β)}
    (h : Allots weight budget a calls a') (h' : Allots weight budget a' calls' a'') :
    Allots weight budget a (calls ++ calls') a'' := by
  induction calls generalizing a with
  | nil =>
    rw [show a = a' from h]
    exact h'
  | cons call calls ih => exact ⟨h.1, h.2.1, ih h.2.2⟩

/-- Parts can be emptied at any time, in any order. -/
theorem allots_empty {budget : Nat} {f : ι → β} (hempty : ∀ i, weight (f i) = 0)
    (parts : List ι) {a : ι → β} (hopen : total weight a < budget) :
    Allots weight budget a (parts.map fun i => (i, f i)) (overlay a f parts) := by
  induction parts generalizing a with
  | nil => simp [Allots]
  | cons i parts ih =>
    have hupdate := total_update weight a i (f i)
    have hless : total weight (Function.update a i (f i)) < budget := by
      rw [hempty i] at hupdate
      omega
    refine ⟨hopen, hless.le, ?_⟩
    rw [← overlay_update]
    exact ih hless

/-- Empty parts can be assigned shares that make up what is missing, one after the
other until nothing is missing; the shares that are left are then empty anyway. -/
theorem allots_fill {budget : Nat} {empty : β → β} (hsame : ∀ b, weight b = 0 → empty b = b)
    (hempty : ∀ b, weight (empty b) = 0) {target : ι → β} (parts : List ι) (hnodup : parts.Nodup)
    {a : ι → β} (hparts : ∀ i ∈ parts, a i = empty (target i))
    (hmissing : total weight a + (parts.map fun i => weight (target i)).sum = budget) :
    ∃ calls, (∀ call ∈ calls, call.1 ∈ parts ∧ call.2 = target call.1) ∧
      Allots weight budget a calls (overlay a target parts) ∧
      total weight (overlay a target parts) = budget := by
  induction parts generalizing a with
  | nil => exact ⟨[], by simp, by simp [Allots], by simpa using hmissing⟩
  | cons i parts ih =>
    by_cases hclosed : total weight a = budget
    · have hnone : ((i :: parts).map fun i => weight (target i)).sum = 0 := by omega
      have hdone : a = overlay a target (i :: parts) := by
        funext j
        by_cases hj : j ∈ i :: parts
        · have hzero : weight (target j) = 0 :=
            List.sum_eq_zero_iff.mp hnone _ (List.mem_map_of_mem hj)
          rw [overlay, if_pos hj, hparts j hj, hsame _ hzero]
        · rw [overlay, if_neg hj]
      rw [← hdone]
      exact ⟨[], by simp, rfl, hclosed⟩
    · have hupdate := total_update weight a i (target i)
      rw [hparts i List.mem_cons_self, hempty, Nat.add_zero] at hupdate
      rw [List.map_cons, List.sum_cons] at hmissing
      have hrest : ∀ j ∈ parts, Function.update a i (target i) j = empty (target j) := by
        intro j hj
        have hne : j ≠ i := by
          intro heq
          exact (List.nodup_cons.mp hnodup).1 (heq ▸ hj)
        rw [Function.update_of_ne hne]
        exact hparts j (List.mem_cons_of_mem i hj)
      rcases ih (List.nodup_cons.mp hnodup).2 hrest (by omega) with
        ⟨calls, hcalls, hrun, htotal⟩
      rw [overlay_update] at hrun htotal
      refine ⟨(i, target i) :: calls, ?_, ⟨by omega, by omega, hrun⟩, htotal⟩
      intro call hmem
      rcases List.mem_cons.mp hmem with hfirst | hlater
      · rw [hfirst]
        exact ⟨List.mem_cons_self, rfl⟩
      · exact ⟨List.mem_cons_of_mem i (hcalls call hlater).1, (hcalls call hlater).2⟩

/-- **An open allotment is never stuck.** It can be closed with any shares of the
parts that add up to the budget, as long as the other parts weigh nothing. -/
theorem allots_reach {budget : Nat} {empty : β → β} (hsame : ∀ b, weight b = 0 → empty b = b)
    (hempty : ∀ b, weight (empty b) = 0) (target : ι → β) {parts : List ι}
    (hnodup : parts.Nodup) {a : ι → β} (hothers : ∀ i ∉ parts, weight (a i) = 0)
    (hopen : total weight a < budget)
    (htarget : (parts.map fun i => weight (target i)).sum = budget) :
    ∃ calls, (∀ call ∈ calls, call.1 ∈ parts ∧
        (call.2 = target call.1 ∨ call.2 = empty (target call.1))) ∧
      Allots weight budget a calls (overlay a target parts) ∧
      total weight (overlay a target parts) = budget := by
  have hclear := allots_empty (f := fun i => empty (target i)) (fun i => hempty _) parts hopen
  have hzero : total weight (overlay a (fun i => empty (target i)) parts) = 0 := by
    refine Finset.sum_eq_zero ?_
    intro i _
    by_cases hi : i ∈ parts
    · rw [overlay, if_pos hi, hempty]
    · rw [overlay, if_neg hi, hothers i hi]
  have hcleared : ∀ i ∈ parts,
      overlay a (fun i => empty (target i)) parts i = empty (target i) := by
    intro i hi
    rw [overlay, if_pos hi]
  have hmissing : total weight (overlay a (fun i => empty (target i)) parts) +
      (parts.map fun i => weight (target i)).sum = budget := by
    rw [hzero, htarget, Nat.zero_add]
  rcases allots_fill hsame hempty parts hnodup hcleared hmissing with
    ⟨calls, hcalls, hfill, htotal⟩
  have hoverlay : overlay (overlay a (fun i => empty (target i)) parts) target parts =
      overlay a target parts := by
    funext i
    by_cases hi : i ∈ parts <;> simp [overlay, hi]
  rw [hoverlay] at hfill htotal
  refine ⟨(parts.map fun i => (i, empty (target i))) ++ calls, ?_, hclear.append hfill, htotal⟩
  intro call hmem
  rcases List.mem_append.mp hmem with hfirst | hlater
  · rcases List.mem_map.mp hfirst with ⟨i, hi, rfl⟩
    exact ⟨hi, Or.inr rfl⟩
  · exact ⟨(hcalls call hlater).1, Or.inl (hcalls call hlater).2⟩

end Hookemon.Core
