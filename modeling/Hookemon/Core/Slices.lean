import Mathlib

/-! # Lists put in the order of their keys, cut into slices and numbered

A list whose keys are distinct has one order by its keys, wherever its elements stood
before. A list that is cut into consecutive slices of one size, enough of them to reach
its end, is the slices put together again, none of them longer than the size or empty.
What is read of numbered elements is either of the elements or of the numbers.
-/

namespace Hookemon.Core

universe u v w

/-! ## Order by keys -/

section

variable {α : Type u} {κ : Type v} [LinearOrder κ] (key : α → κ)

/-- The elements of a list in the order of their keys. -/
def sortByKey (xs : List α) : List α := xs.insertionSort fun x y => key x ≤ key y

variable {key} {xs ys : List α}

variable (key xs) in
theorem sortByKey_perm : (sortByKey key xs).Perm xs := List.perm_insertionSort _ xs

theorem sortByKey_sorted : (sortByKey key xs).Pairwise fun x y => key x ≤ key y := by
  have htotal : Std.Total fun x y : α => key x ≤ key y := ⟨fun x y => le_total (key x) (key y)⟩
  have htrans : IsTrans α fun x y => key x ≤ key y := ⟨fun _ _ _ => le_trans⟩
  exact List.pairwise_insertionSort _ xs

/-- With distinct keys the order is strict. -/
theorem sortByKey_strict (hnodup : (xs.map key).Nodup) :
    ((sortByKey key xs).map key).Pairwise (· < ·) := by
  have hdistinct : ((sortByKey key xs).map key).Nodup :=
    ((sortByKey_perm key xs).map key).nodup_iff.mpr hnodup
  have hsorted : ((sortByKey key xs).map key).Pairwise (· ≤ ·) :=
    List.pairwise_map.mpr sortByKey_sorted
  exact hsorted.imp₂ (fun _ _ hle hne => lt_of_le_of_ne hle hne) hdistinct

/-- A list in order stays as it is. -/
theorem sortByKey_of_sorted (hsorted : (xs.map key).Pairwise (· < ·)) : sortByKey key xs = xs := by
  apply List.Pairwise.insertionSort_eq
  exact (List.pairwise_map.mp hsorted).imp fun hlt => le_of_lt hlt

/-- Where the elements stood before does not matter. -/
theorem sortByKey_of_perm (hperm : xs.Perm ys) (hnodup : (xs.map key).Nodup) :
    sortByKey key xs = sortByKey key ys := by
  have hsame : (sortByKey key xs).Perm (sortByKey key ys) :=
    (sortByKey_perm key xs).trans (hperm.trans (sortByKey_perm key ys).symm)
  refine List.Perm.eq_of_pairwise ?_ sortByKey_sorted sortByKey_sorted hsame
  intro x y hx hy hxy hyx
  have hy' : y ∈ xs := hperm.mem_iff.mpr ((sortByKey_perm key ys).mem_iff.mp hy)
  exact List.inj_on_of_nodup_map hnodup ((sortByKey_perm key xs).mem_iff.mp hx) hy'
    (le_antisymm hxy hyx)

end

/-! ## The first by their keys -/

section

variable {α : Type u} {κ : Type v} [LinearOrder κ] {key : α → κ} {xs : List α} {x y : α}

/-- The elements whose keys come first, so many of them. -/
def firstByKey (key : α → κ) (count : Nat) (xs : List α) : List α :=
  (sortByKey key xs).take count

variable {count : Nat}

theorem firstByKey_length : (firstByKey key count xs).length = min count xs.length := by
  rw [firstByKey, List.length_take, (sortByKey_perm key xs).length_eq]

theorem mem_of_firstByKey (h : x ∈ firstByKey key count xs) : x ∈ xs :=
  (sortByKey_perm key xs).mem_iff.mp (List.mem_of_mem_take h)

theorem firstByKey_nodup (h : xs.Nodup) : (firstByKey key count xs).Nodup :=
  ((sortByKey_perm key xs).nodup_iff.mpr h).sublist (List.take_sublist _ _)

/-- With distinct keys every element that is chosen comes before every one that is not. -/
theorem firstByKey_lt (hnodup : (xs.map key).Nodup) (hx : x ∈ firstByKey key count xs)
    (hy : y ∈ xs) (hout : y ∉ firstByKey key count xs) : key x < key y := by
  have hdropped : y ∈ (sortByKey key xs).drop count := by
    have hboth := (sortByKey_perm key xs).mem_iff.mpr hy
    rw [← List.take_append_drop count (sortByKey key xs), List.mem_append] at hboth
    exact hboth.resolve_left hout
  have hstrict := sortByKey_strict hnodup
  rw [← List.take_append_drop count (sortByKey key xs), List.map_append] at hstrict
  exact (List.pairwise_append.mp hstrict).2.2 _ (List.mem_map_of_mem hx) _
    (List.mem_map_of_mem hdropped)

/-- What is summed over the elements is summed over those that are chosen and the others. -/
theorem firstByKey_sum_le (f : α → Nat) :
    ((firstByKey key count xs).map f).sum ≤ (xs.map f).sum := by
  rw [← ((sortByKey_perm key xs).map f).sum_eq]
  exact ((List.take_sublist count _).map f).sum_le_sum fun _ _ => Nat.zero_le _

end

/-! ## Slices -/

section

variable {α : Type u} (xs : List α) (size : Nat)

/-- `xs.slice(index * size, (index + 1) * size)`. -/
def sliceAt (index : Nat) : List α := (xs.drop (index * size)).take size

/-- The number of slices that a length needs, the quotient rounded up. -/
def slicesNeeded (length size : Nat) : Nat := (length + (size - 1)) / size

variable {xs size}

/-- The slices, put together, are the list up to where they end. -/
theorem slices_flatten (count : Nat) :
    ((List.range count).map (sliceAt xs size)).flatten = xs.take (count * size) := by
  induction count with
  | zero => simp
  | succ count ih =>
    rw [List.range_succ, List.map_append, List.flatten_append, ih, Nat.succ_mul, List.take_add]
    simp [sliceAt]

theorem slicesNeeded_le_iff (length count : Nat) (hsize : 0 < size) :
    slicesNeeded length size ≤ count ↔ length ≤ count * size := by
  rw [slicesNeeded, ← Nat.lt_succ_iff, Nat.div_lt_iff_lt_mul hsize, Nat.succ_mul]
  omega

variable (xs) in
/-- Enough slices hold the whole list. -/
theorem slices_whole (hsize : 0 < size) :
    ((List.range (slicesNeeded xs.length size)).map (sliceAt xs size)).flatten = xs := by
  rw [slices_flatten]
  exact List.take_of_length_le ((slicesNeeded_le_iff _ _ hsize).mp (Nat.le_refl _))

theorem sliceAt_length_le (index : Nat) : (sliceAt xs size index).length ≤ size := by
  rw [sliceAt, List.length_take]
  exact Nat.min_le_left _ _

/-- Every slice that is needed holds something. -/
theorem sliceAt_ne_nil (hsize : 0 < size) {index : Nat}
    (hindex : index < slicesNeeded xs.length size) : sliceAt xs size index ≠ [] := by
  have hlt : index * size < xs.length := by
    by_contra hge
    have hle := (slicesNeeded_le_iff xs.length index hsize).mpr (Nat.not_lt.mp hge)
    omega
  have hlength : 0 < (sliceAt xs size index).length := by
    rw [sliceAt, List.length_take, List.length_drop]
    omega
  exact List.ne_nil_of_length_pos hlength

end

/-! ## Numbered elements -/

section

variable {α : Type u} {β : Type v} {γ : Type w} {f : Nat → α → β} {xs : List α}

/-- What does not look at the number is read of the elements. -/
theorem map_mapIdx_of_forall {g : β → γ} {h : α → γ} (hsame : ∀ i x, g (f i x) = h x) :
    (xs.mapIdx f).map g = xs.map h := by
  apply List.ext_getElem?
  intro i
  rw [List.getElem?_map, List.getElem?_mapIdx, List.getElem?_map, Option.map_map]
  congr 1
  funext x
  exact hsame i x

/-- The numbers count the elements. -/
theorem map_mapIdx_number {g : β → Nat} (hnumber : ∀ i x, g (f i x) = i) :
    (xs.mapIdx f).map g = List.range xs.length := by
  apply List.ext_getElem
  · rw [List.length_map, List.length_mapIdx, List.length_range]
  · intro i _ _
    rw [List.getElem_map, List.getElem_mapIdx, List.getElem_range, hnumber]

end

end Hookemon.Core
