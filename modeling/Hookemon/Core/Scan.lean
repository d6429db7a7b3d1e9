import Hookemon.Core.Checked

/-! # Loops that check every item against those before it

A validator of a list goes over the items, remembers the ones it has seen, and stops at
the first that it does not accept. What it accepts grows by one item at the end exactly
when the last check does; what every check refuses to repeat does not repeat, and what
every check finds in order is in order.
-/

namespace Hookemon.Core

universe u v w

variable {α : Type u} {κ : Type v} {ε : Type w}

/-- Check the items one after another, each with the items seen before it. -/
def scan (check : List α → α → Except ε Unit) : List α → List α → Except ε Unit
  | _, [] => .ok ()
  | seen, x :: rest => do
    check seen x
    scan check (seen ++ [x]) rest

variable {check : List α → α → Except ε Unit} {seen xs ys : List α} {x : α}

@[simp] theorem scan_nil : scan check seen [] = .ok () := rfl

theorem scan_cons : scan check seen (x :: xs) = .ok () ↔
    check seen x = .ok () ∧ scan check (seen ++ [x]) xs = .ok () := by
  rw [scan, bind_eq_ok]
  constructor
  · rintro ⟨_, hx, hrest⟩
    exact ⟨hx, hrest⟩
  · rintro ⟨hx, hrest⟩
    exact ⟨(), hx, hrest⟩

theorem scan_append : scan check seen (xs ++ ys) = .ok () ↔
    scan check seen xs = .ok () ∧ scan check (seen ++ xs) ys = .ok () := by
  induction xs generalizing seen with
  | nil => simp
  | cons x xs ih => rw [List.cons_append, scan_cons, scan_cons, ih, List.append_assoc, and_assoc,
      List.singleton_append]

/-- One more item is accepted exactly when its own check accepts it. -/
theorem scan_concat : scan check [] (xs ++ [x]) = .ok () ↔
    scan check [] xs = .ok () ∧ check xs x = .ok () := by
  rw [scan_append, scan_cons]
  simp

/-- What every check establishes of its item holds of all items. -/
theorem scan_forall {P : α → Prop} (h : scan check [] xs = .ok ())
    (hcheck : ∀ seen x, check seen x = .ok () → P x) : ∀ x ∈ xs, P x := by
  induction xs using List.reverseRecOn with
  | nil => simp
  | append_singleton xs x ih =>
    rcases scan_concat.mp h with ⟨hxs, hx⟩
    intro y hy
    rcases List.mem_append.mp hy with hold | hnew
    · exact ih hxs y hold
    · rw [List.mem_singleton.mp hnew]
      exact hcheck xs x hx

/-- Keys that every check refuses to repeat are distinct. -/
theorem scan_nodup {key : α → κ} (h : scan check [] xs = .ok ())
    (hcheck : ∀ seen x, check seen x = .ok () → key x ∉ seen.map key) : (xs.map key).Nodup := by
  induction xs using List.reverseRecOn with
  | nil => simp
  | append_singleton xs x ih =>
    rcases scan_concat.mp h with ⟨hxs, hx⟩
    rw [List.map_append, List.map_singleton, ← List.concat_eq_append, List.nodup_concat]
    exact ⟨hcheck xs x hx, ih hxs⟩

/-- A scan for what holds of each item and for keys that do not repeat. -/
theorem scan_unique {P : α → Prop} {key : α → κ}
    (hcheck : ∀ seen x, check seen x = .ok () ↔ P x ∧ key x ∉ seen.map key) :
    scan check [] xs = .ok () ↔ (∀ x ∈ xs, P x) ∧ (xs.map key).Nodup := by
  induction xs using List.reverseRecOn with
  | nil => simp
  | append_singleton xs x ih =>
    have hkeys : ((xs ++ [x]).map key).Nodup ↔ key x ∉ xs.map key ∧ (xs.map key).Nodup := by
      rw [List.map_append, List.map_singleton, ← List.concat_eq_append, List.nodup_concat]
    rw [scan_concat, ih, hcheck, hkeys, List.forall_mem_append, List.forall_mem_singleton]
    tauto

/-- Items that every check finds after the one before it are in order. -/
theorem scan_pairwise {r : α → α → Prop} (htrans : ∀ a b c, r a b → r b c → r a c)
    (h : scan check [] xs = .ok ())
    (hcheck : ∀ seen x, check seen x = .ok () → ∀ last ∈ seen.getLast?, r last x) :
    xs.Pairwise r := by
  induction xs using List.reverseRecOn with
  | nil => exact .nil
  | append_singleton xs x ih =>
    rcases scan_concat.mp h with ⟨hxs, hx⟩
    have hsorted := ih hxs
    refine List.pairwise_append.mpr ⟨hsorted, List.pairwise_singleton r x, ?_⟩
    intro a ha y hy
    rw [List.mem_singleton.mp hy]
    cases xs using List.reverseRecOn with
    | nil => exact absurd ha (List.not_mem_nil)
    | append_singleton front last =>
      have hlast : r last x := hcheck _ x hx last (by simp)
      rcases List.mem_append.mp ha with hfront | hend
      · have hbefore := (List.pairwise_append.mp hsorted).2.2 a hfront last (by simp)
        exact htrans a last x hbefore hlast
      · rw [List.mem_singleton.mp hend]
        exact hlast

/-- A list that grows at the end stays in order when the new item comes after the last. -/
theorem pairwise_concat_iff [Preorder κ] {keys : List κ} {key : κ} :
    (keys ++ [key]).Pairwise (· < ·) ↔
      keys.Pairwise (· < ·) ∧ ∀ last ∈ keys.getLast?, last < key := by
  rw [← List.isChain_iff_pairwise, ← List.isChain_iff_pairwise, List.isChain_append]
  simp

/-- A scan for what holds of each item and for keys in order. -/
theorem scan_sorted [Preorder κ] {P : α → Prop} {key : α → κ}
    (hcheck : ∀ seen x, check seen x = .ok () ↔
      P x ∧ ∀ last ∈ seen.getLast?, key last < key x) :
    scan check [] xs = .ok () ↔ (∀ x ∈ xs, P x) ∧ (xs.map key).Pairwise (· < ·) := by
  induction xs using List.reverseRecOn with
  | nil => simp
  | append_singleton xs x ih =>
    have hlast : (∀ last ∈ (xs.map key).getLast?, last < key x) ↔
        ∀ last ∈ xs.getLast?, key last < key x := by simp
    rw [scan_concat, ih, hcheck, List.map_append, List.map_singleton, pairwise_concat_iff, hlast,
      List.forall_mem_append, List.forall_mem_singleton]
    tauto

end Hookemon.Core
