import Hookemon.Core.Checked

/-! # Trees of sums that are known by their root

A tree is known only by its root. A leaf is shown to be at an index by siblings that
lead from it to the root, one for each level, where `join` makes a parent of two
children. Nothing is known of the siblings, they come from whoever makes the claim.

When a parent determines its children, for the joins that were made, two climbs to
one root agree on every node they share. When a parent also carries the sum of its
children, the leaves that were shown never add up to more than the root.
-/

namespace Hookemon.Core

universe u v w x

variable {ε : Type x} {N : Type u} {M : Type v} {ι : Type w}

/-! ## Climbing -/

section

variable (join : Nat → N → N → Except ε N)

/-- The parent of a node at an index and its sibling, on the level `level`. -/
def joinAt (index level : Nat) (node sibling : N) : Except ε N :=
  if index.testBit level then join level sibling node else join level node sibling

/-- Climb from a leaf at an index through the siblings of the levels below `depth`. -/
def climb (index : Nat) : (depth : Nat) → (Fin depth → N) → N → Except ε N
  | 0, _, leaf => .ok leaf
  | depth + 1, siblings, leaf => do
    let node ← climb index depth (fun level => siblings level.castSucc) leaf
    joinAt join index depth node (siblings (Fin.last depth))

/-- A join: its level and the two children. -/
abbrev Joined (N : Type u) : Type u := Nat × N × N

/-- The join of a node at an index and its sibling. -/
def joinedAt (index level : Nat) (node sibling : N) : Joined N :=
  if index.testBit level then (level, sibling, node) else (level, node, sibling)

/-- The joins that a climb makes. -/
def climbJoins (index : Nat) : (depth : Nat) → (Fin depth → N) → N → List (Joined N)
  | 0, _, _ => []
  | depth + 1, siblings, leaf =>
    let below := fun level : Fin depth => siblings level.castSucc
    climbJoins index depth below leaf ++
      match climb join index depth below leaf with
      | .ok node => [joinedAt index depth node (siblings (Fin.last depth))]
      | .error _ => []

/-- A leaf stands at an index under a node, by joins that were made. -/
def Under (made : Set (Joined N)) : Nat → N → Nat → N → Prop
  | 0, root, _, leaf => leaf = root
  | depth + 1, root, index, leaf => ∃ left right, (depth, left, right) ∈ made ∧
      join depth left right = .ok root ∧
      Under made depth (if index.testBit depth then right else left) index leaf

/-- A climb that arrives shows its leaf under the root. -/
theorem under_of_climb {made : Set (Joined N)} {index : Nat} {leaf : N} :
    ∀ {depth : Nat} {siblings : Fin depth → N} {root : N},
      climb join index depth siblings leaf = .ok root →
      (∀ j ∈ climbJoins join index depth siblings leaf, j ∈ made) →
      Under join made depth root index leaf := by
  intro depth
  induction depth with
  | zero =>
    intro siblings root h _
    exact Except.ok.inj h
  | succ depth ih =>
    intro siblings root h hmade
    simp only [climb, bind_eq_ok] at h
    obtain ⟨node, hnode, hjoin⟩ := h
    have hjoins : climbJoins join index (depth + 1) siblings leaf
        = climbJoins join index depth (fun level => siblings level.castSucc) leaf
          ++ [joinedAt index depth node (siblings (Fin.last depth))] := by
      simp only [climbJoins, hnode]
    rw [hjoins] at hmade
    have hbelow : Under join made depth node index leaf :=
      ih hnode fun j hj => hmade j (List.mem_append_left _ hj)
    have hlast : joinedAt index depth node (siblings (Fin.last depth)) ∈ made :=
      hmade _ (by simp)
    -- the node is the child that the index points at
    by_cases hbit : index.testBit depth
    · rw [joinAt, if_pos hbit] at hjoin
      rw [joinedAt, if_pos hbit] at hlast
      exact ⟨_, _, hlast, hjoin, by rwa [if_pos hbit]⟩
    · rw [joinAt, if_neg hbit] at hjoin
      rw [joinedAt, if_neg hbit] at hlast
      exact ⟨_, _, hlast, hjoin, by rwa [if_neg hbit]⟩

end

/-! ## Binding -/

/-- The joins of a set determine their children. -/
def Binding (join : Nat → N → N → Except ε N) (made : Set (Joined N)) : Prop :=
  ∀ ⦃level : Nat⦄ ⦃left right left' right' parent : N⦄,
    (level, left, right) ∈ made → (level, left', right') ∈ made →
    join level left right = .ok parent → join level left' right' = .ok parent →
    left = left' ∧ right = right'

section

variable {join : Nat → N → N → Except ε N} {made : Set (Joined N)}

/-- Two indices that agree below a level agree on the bits there. -/
theorem testBit_of_mod_eq {depth i i' : Nat} (h : i % 2 ^ (depth + 1) = i' % 2 ^ (depth + 1)) :
    i.testBit depth = i'.testBit depth ∧ i % 2 ^ depth = i' % 2 ^ depth := by
  constructor
  · have hbit := congrArg (Nat.testBit · depth) h
    simpa [Nat.testBit_mod_two_pow] using hbit
  · have hmod := congrArg (· % 2 ^ depth) h
    simpa [Nat.mod_mod_of_dvd _ (Nat.pow_dvd_pow 2 (Nat.le_succ depth))] using hmod

/-- Two indices that share a bit and agree below it agree on one level more. -/
theorem mod_eq_of_testBit {depth i i' : Nat} (hbit : i.testBit depth = i'.testBit depth)
    (hmod : i % 2 ^ depth = i' % 2 ^ depth) : i % 2 ^ (depth + 1) = i' % 2 ^ (depth + 1) := by
  apply Nat.eq_of_testBit_eq
  intro j
  have hlow := congrArg (Nat.testBit · j) hmod
  simp only [Nat.testBit_mod_two_pow] at hlow ⊢
  by_cases hj : j < depth
  · simpa [hj, Nat.lt_succ_of_lt hj] using hlow
  · by_cases heq : j = depth
    · subst heq
      simpa using hbit
    · have hgt : ¬ j < depth + 1 := by omega
      simp [hgt]

/-- There is one leaf at an index. -/
theorem Under.leaf_unique (hbinds : Binding join made) :
    ∀ {depth : Nat} {root : N} {i i' : Nat} {leaf leaf' : N},
      Under join made depth root i leaf → Under join made depth root i' leaf' →
      i % 2 ^ depth = i' % 2 ^ depth → leaf = leaf' := by
  intro depth
  induction depth with
  | zero =>
    intro root i i' leaf leaf' h h' _
    exact Eq.trans h (Eq.symm h')
  | succ depth ih =>
    intro root i i' leaf leaf' h h' hmod
    obtain ⟨left, right, hmade, hjoin, hbelow⟩ := h
    obtain ⟨left', right', hmade', hjoin', hbelow'⟩ := h'
    obtain ⟨rfl, rfl⟩ := hbinds hmade hmade' hjoin hjoin'
    obtain ⟨hbit, hlow⟩ := testBit_of_mod_eq hmod
    rw [← hbit] at hbelow'
    exact ih hbelow hbelow' hlow

end

/-! ## Sums -/

section

variable [AddCommMonoid M] [PartialOrder M] [IsOrderedAddMonoid M] [CanonicallyOrderedAdd M]
variable {join : Nat → N → N → Except ε N} {made : Set (Joined N)} {sum : N → M}
variable {index : ι → Nat} {leaf : ι → N}

open Finset

/-- Claims at distinct indices below one node stand at distinct indices below the
child that they share. -/
theorem injOn_below {depth : Nat} {S : Finset ι} {T : Set ι} {b : Bool}
    (hinj : Set.InjOn (fun i => index i % 2 ^ (depth + 1)) ↑S) (hsub : T ⊆ ↑S)
    (hbit : ∀ i ∈ T, (index i).testBit depth = b) :
    Set.InjOn (fun i => index i % 2 ^ depth) T := by
  intro i hi i' hi' hmod
  apply hinj (hsub hi) (hsub hi')
  exact mod_eq_of_testBit ((hbit i hi).trans (hbit i' hi').symm) hmod

variable (sum) in
/-- Leaves shown at distinct indices under one root add up to at most its sum. -/
theorem sum_leaves_le (hbinds : Binding join made)
    (hsums : ∀ ⦃level left right parent⦄, join level left right = .ok parent →
      sum parent = sum left + sum right) :
    ∀ {depth : Nat} {root : N} {S : Finset ι},
      (∀ i ∈ S, Under join made depth root (index i) (leaf i)) →
      Set.InjOn (fun i => index i % 2 ^ depth) ↑S →
      ∑ i ∈ S, sum (leaf i) ≤ sum root := by
  classical
  intro depth
  induction depth with
  | zero =>
    intro root S hunder hinj
    -- there is room for one leaf
    have hone : S.card ≤ 1 := by
      apply Finset.card_le_one.mpr
      intro i hi i' hi'
      exact hinj hi hi' (by simp [Nat.mod_one])
    by_cases hempty : S = ∅
    · simp [hempty]
    · obtain ⟨i, hi⟩ := Finset.nonempty_iff_ne_empty.mpr hempty
      have hS : S = {i} := by
        apply Finset.eq_singleton_iff_unique_mem.mpr
        exact ⟨hi, fun i' hi' => Finset.card_le_one.mp hone i' hi' i hi⟩
      have hleaf : leaf i = root := hunder i hi
      rw [hS, Finset.sum_singleton, hleaf]
  | succ depth ih =>
    intro root S hunder hinj
    by_cases hempty : S = ∅
    · simp [hempty]
    obtain ⟨i₀, hi₀⟩ := Finset.nonempty_iff_ne_empty.mpr hempty
    obtain ⟨left, right, hmade, hjoin, -⟩ := hunder i₀ hi₀
    -- every claim climbed through the same two children
    have hchild : ∀ i ∈ S, Under join made depth
        (if (index i).testBit depth then right else left) (index i) (leaf i) := by
      intro i hi
      obtain ⟨left', right', hmade', hjoin', hbelow⟩ := hunder i hi
      obtain ⟨rfl, rfl⟩ := hbinds hmade hmade' hjoin hjoin'
      exact hbelow
    have hright : ∑ i ∈ S.filter (fun i => (index i).testBit depth), sum (leaf i) ≤ sum right := by
      apply ih
      · intro i hi
        obtain ⟨hiS, hbit⟩ := Finset.mem_filter.mp hi
        simpa [hbit] using hchild i hiS
      · exact injOn_below (b := true) hinj (Finset.coe_subset.mpr (Finset.filter_subset _ _))
          fun i hi => (Finset.mem_filter.mp hi).2
    have hleft : ∑ i ∈ S.filter (fun i => ¬ (index i).testBit depth), sum (leaf i) ≤ sum left := by
      apply ih
      · intro i hi
        obtain ⟨hiS, hbit⟩ := Finset.mem_filter.mp hi
        simpa [hbit] using hchild i hiS
      · exact injOn_below (b := false) hinj (Finset.coe_subset.mpr (Finset.filter_subset _ _))
          fun i hi => by simpa using (Finset.mem_filter.mp hi).2
    calc ∑ i ∈ S, sum (leaf i)
        = ∑ i ∈ S.filter (fun i => (index i).testBit depth), sum (leaf i)
          + ∑ i ∈ S.filter (fun i => ¬ (index i).testBit depth), sum (leaf i) :=
          (Finset.sum_filter_add_sum_filter_not S _ _).symm
      _ ≤ sum right + sum left := add_le_add hright hleft
      _ = sum root := by rw [hsums hjoin, add_comm]

end

end Hookemon.Core
