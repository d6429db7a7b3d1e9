import Hookemon.Core.SumTree

/-! # Making a tree of sums, level by level

The maker of a tree joins neighbours, level by level, until one node is left. What it
hands out for an index are the neighbours on the way up: the node beside the cursor,
whose last bit is flipped, and then the cursor halved.

A climb with these siblings passes through the nodes of the levels and arrives at the
root. The sums of every level add up to the same, so joins that only fail when two
sums exceed a bound make a tree exactly when the leaves stay within it.
-/

namespace Hookemon.Core

universe u v w

variable {ε : Type v} {N : Type u}

/-! ## Levels -/

section

variable (join : Nat → N → N → Except ε N)

/-- The parents of neighbours. -/
def parentLevel (level : Nat) : List N → Except ε (List N)
  | left :: right :: rest => do
    let parent ← join level left right
    let parents ← parentLevel level rest
    pure (parent :: parents)
  | _ => pure []

/-- The levels from `level` up, `depth` of them over the nodes that are given. -/
def treeLevels : (depth level : Nat) → List N → Except ε (List (List N))
  | 0, _, nodes => pure [nodes]
  | depth + 1, level, nodes => do
    let parents ← parentLevel join level nodes
    let above ← treeLevels depth (level + 1) parents
    pure (nodes :: above)

end

/-- The siblings on the way up from a cursor, one of each level below `depth`. -/
def siblingPath [Inhabited N] (levels : List (List N)) : (depth level cursor : Nat) → List N
  | 0, _, _ => []
  | depth + 1, level, cursor =>
    (levels.getD level []).getD (cursor ^^^ 1) default ::
      siblingPath levels depth (level + 1) (cursor >>> 1)

/-! ## Indices -/

/-- The neighbour of a left child. -/
theorem xor_one_of_even {n : Nat} (h : n % 2 = 0) : n ^^^ 1 = 2 * (n / 2) + 1 := by
  have hmod := Nat.xor_mod_two_eq (m := n) (n := 1)
  have hdiv := Nat.xor_div_two (a := n) (b := 1)
  simp only [Nat.reduceDiv, Nat.xor_zero] at hdiv
  omega

/-- The neighbour of a right child. -/
theorem xor_one_of_odd {n : Nat} (h : n % 2 = 1) : n ^^^ 1 = 2 * (n / 2) := by
  have hmod := Nat.xor_mod_two_eq (m := n) (n := 1)
  have hdiv := Nat.xor_div_two (a := n) (b := 1)
  simp only [Nat.reduceDiv, Nat.xor_zero] at hdiv
  omega

theorem testBit_eq_shiftRight_mod (i level : Nat) :
    i.testBit level = decide ((i >>> level) % 2 = 1) := by
  rw [Nat.testBit, Nat.one_and_eq_mod_two]
  rcases Nat.mod_two_eq_zero_or_one (i >>> level) with h | h <;> simp [h]

/-- A cursor on a level that has room for it, and its neighbour. -/
theorem cursor_lt {i depth level : Nat} (hi : i < 2 ^ depth) (hlevel : level < depth) :
    (i >>> level) ^^^ 1 < 2 ^ (depth - level) := by
  have hwidth : 2 ^ (depth - level) = 2 * 2 ^ (depth - (level + 1)) := by
    rw [← Nat.pow_succ']
    congr 1
    omega
  have hcursor : i >>> level < 2 ^ (depth - level) := by
    rw [Nat.shiftRight_eq_div_pow, Nat.div_lt_iff_lt_mul (Nat.two_pow_pos level), ← Nat.pow_add]
    have hsum : depth - level + level = depth := by omega
    rwa [hsum]
  rcases Nat.mod_two_eq_zero_or_one (i >>> level) with h | h
  · rw [xor_one_of_even h]
    omega
  · rw [xor_one_of_odd h]
    omega

/-- The siblings of a path by their level. -/
theorem siblingPath_getD [Inhabited N] (levels : List (List N)) :
    ∀ (depth level cursor l : Nat), l < depth →
      (siblingPath levels depth level cursor).getD l default
        = (levels.getD (level + l) []).getD ((cursor >>> l) ^^^ 1) default := by
  intro depth
  induction depth with
  | zero =>
    intro level cursor l hl
    omega
  | succ depth ih =>
    intro level cursor l hl
    cases l with
    | zero => simp [siblingPath]
    | succ l =>
      have hrest := ih (level + 1) (cursor >>> 1) l (by omega)
      rw [siblingPath, List.getD_cons_succ, hrest, ← Nat.shiftRight_add, Nat.add_comm 1 l,
        Nat.add_assoc level 1 l, Nat.add_comm 1 l]

/-- The siblings of a path are spelled as the nodes of the levels are. -/
theorem siblingPath_map {N' : Type w} [Inhabited N] [Inhabited N'] (f : N → N')
    (levels : List (List N)) :
    ∀ (depth level cursor : Nat),
      (∀ l < depth, (cursor >>> l) ^^^ 1 < (levels.getD (level + l) []).length) →
      siblingPath (levels.map (List.map f)) depth level cursor
        = (siblingPath levels depth level cursor).map f := by
  intro depth
  induction depth with
  | zero =>
    intro level cursor _
    rfl
  | succ depth ih =>
    intro level cursor hroom
    have hrest := ih (level + 1) (cursor >>> 1) fun l hl => by
      have hnext := hroom (l + 1) (by omega)
      rwa [Nat.add_comm l 1, Nat.shiftRight_add, ← Nat.add_assoc] at hnext
    have hfirst := hroom 0 (by omega)
    rw [Nat.shiftRight_zero, Nat.add_zero] at hfirst
    have hlevel : (levels.map (List.map f)).getD level [] = (levels.getD level []).map f := by
      rw [← List.map_nil (f := f), List.getD_map]
    rw [siblingPath, siblingPath, List.map_cons, hrest, hlevel,
      List.getD_eq_getElem _ _ (by rwa [List.length_map]), List.getD_eq_getElem _ _ hfirst,
      List.getElem_map]

theorem siblingPath_length [Inhabited N] (levels : List (List N)) (depth level cursor : Nat) :
    (siblingPath levels depth level cursor).length = depth := by
  induction depth generalizing level cursor with
  | zero => rfl
  | succ depth ih => rw [siblingPath, List.length_cons, ih]

/-! ## What a level is made of -/

section

variable {join : Nat → N → N → Except ε N} {level : Nat}

theorem parentLevel_cons {left right : N} {rest parents : List N} :
    parentLevel join level (left :: right :: rest) = .ok parents ↔
      ∃ parent above, join level left right = .ok parent ∧
        parentLevel join level rest = .ok above ∧ parents = parent :: above := by
  simp only [parentLevel, bind_eq_ok, pure_eq_ok]
  constructor
  · rintro ⟨parent, hparent, above, habove, rfl⟩
    exact ⟨parent, above, hparent, habove, rfl⟩
  · rintro ⟨parent, above, hparent, habove, rfl⟩
    exact ⟨parent, hparent, above, habove, rfl⟩

theorem parentLevel_nil {parents : List N} :
    parentLevel join level [] = .ok parents ↔ parents = [] := by
  simp only [parentLevel, pure_eq_ok]
  exact eq_comm

theorem parentLevel_length : ∀ {nodes parents : List N},
    parentLevel join level nodes = .ok parents → parents.length = nodes.length / 2
  | [], parents, h => by
    rw [parentLevel_nil.mp h, List.length_nil]
  | [node], parents, h => by
    simp only [parentLevel, pure_eq_ok] at h
    subst h
    simp
  | left :: right :: rest, parents, h => by
    obtain ⟨parent, above, -, habove, rfl⟩ := parentLevel_cons.mp h
    have hrest := parentLevel_length habove
    simp only [List.length_cons]
    omega

/-- A parent was joined from the two nodes below it. -/
theorem parentLevel_get : ∀ {nodes parents : List N} {k : Nat} {left right : N},
    parentLevel join level nodes = .ok parents → nodes[2 * k]? = some left →
    nodes[2 * k + 1]? = some right →
    ∃ parent, parents[k]? = some parent ∧ join level left right = .ok parent
  | [], _, k, left, right, _, hleft, _ => by simp at hleft
  | [node], _, k, left, right, _, _, hright => by simp at hright
  | first :: second :: rest, parents, k, left, right, h, hleft, hright => by
    obtain ⟨parent, above, hparent, habove, rfl⟩ := parentLevel_cons.mp h
    cases k with
    | zero =>
      simp only [Nat.mul_zero, List.getElem?_cons_zero, Option.some.injEq] at hleft
      simp only [Nat.mul_zero, Nat.zero_add, List.getElem?_cons_succ, List.getElem?_cons_zero,
        Option.some.injEq] at hright
      subst hleft hright
      exact ⟨parent, rfl, hparent⟩
    | succ k =>
      have heven : 2 * (k + 1) = 2 * k + 1 + 1 := by omega
      rw [heven, List.getElem?_cons_succ, List.getElem?_cons_succ] at hleft hright
      obtain ⟨found, hfound, hjoin⟩ := parentLevel_get habove hleft hright
      refine ⟨found, ?_, hjoin⟩
      rwa [List.getElem?_cons_succ]

/-- What a tree that was made consists of: the nodes at the bottom, and above each
level the parents of its nodes. -/
theorem treeLevels_spec : ∀ {depth level : Nat} {nodes : List N} {levels : List (List N)},
    treeLevels join depth level nodes = .ok levels →
    levels.length = depth + 1 ∧ levels.getD 0 [] = nodes ∧
      ∀ l < depth,
        parentLevel join (level + l) (levels.getD l []) = .ok (levels.getD (l + 1) []) := by
  intro depth
  induction depth with
  | zero =>
    intro level nodes levels h
    simp only [treeLevels, pure_eq_ok] at h
    subst h
    exact ⟨rfl, rfl, fun l hl => absurd hl (Nat.not_lt_zero l)⟩
  | succ depth ih =>
    intro level nodes levels h
    simp only [treeLevels, bind_eq_ok, pure_eq_ok] at h
    obtain ⟨parents, hparents, above, habove, rfl⟩ := h
    obtain ⟨hlength, hfirst, hrest⟩ := ih habove
    refine ⟨by rw [List.length_cons, hlength], rfl, ?_⟩
    intro l hl
    cases l with
    | zero =>
      rw [List.getD_cons_zero, List.getD_cons_succ, hfirst]
      exact hparents
    | succ l =>
      have hstep := hrest l (by omega)
      rw [List.getD_cons_succ, List.getD_cons_succ]
      rwa [Nat.add_assoc, Nat.add_comm 1 l] at hstep

/-- The levels of a full tree halve. -/
theorem level_length {depth : Nat} {nodes : List N} {levels : List (List N)}
    (h : treeLevels join depth 0 nodes = .ok levels) (hnodes : nodes.length = 2 ^ depth) :
    ∀ l ≤ depth, (levels.getD l []).length = 2 ^ (depth - l) := by
  obtain ⟨-, hfirst, hparents⟩ := treeLevels_spec h
  intro l
  induction l with
  | zero =>
    intro _
    rw [hfirst, hnodes, Nat.sub_zero]
  | succ l ih =>
    intro hl
    have hwidth : 2 ^ (depth - l) = 2 * 2 ^ (depth - (l + 1)) := by
      rw [← Nat.pow_succ']
      congr 1
      omega
    rw [parentLevel_length (hparents l (by omega)), ih (by omega), hwidth]
    omega

/-- **A climb passes through the levels.** With the siblings that the tree hands out for
an index, a climb arrives at the root of the tree. -/
theorem climb_siblingPath [Inhabited N] {depth : Nat} {nodes : List N} {levels : List (List N)}
    (h : treeLevels join depth 0 nodes = .ok levels) (hnodes : nodes.length = 2 ^ depth)
    {i : Nat} {leaf : N} (hleaf : nodes[i]? = some leaf) :
    climb join i depth (fun l => (siblingPath levels depth 0 i).getD l default) leaf
      = .ok ((levels.getD depth []).getD 0 default) := by
  obtain ⟨-, hfirst, hparents⟩ := treeLevels_spec h
  have hi : i < 2 ^ depth := by
    rw [← hnodes]
    exact (List.getElem?_eq_some_iff.mp hleaf).1
  -- below every level the climb stands at the node that the cursor points at
  have hpath : ∀ d (hd : d ≤ depth), ∃ node,
      climb join i d (fun l => (siblingPath levels depth 0 i).getD (Fin.castLE hd l) default) leaf
        = .ok node ∧ (levels.getD d [])[i >>> d]? = some node := by
    intro d
    induction d with
    | zero =>
      intro _
      refine ⟨leaf, rfl, ?_⟩
      rwa [hfirst, Nat.shiftRight_zero]
    | succ d ih =>
      intro hd
      obtain ⟨node, hclimb, hnode⟩ := ih (by omega)
      have hlt : d < depth := hd
      have hparent := hparents d hlt
      rw [Nat.zero_add] at hparent
      have hsibling : (levels.getD d [])[(i >>> d) ^^^ 1]?
          = some ((siblingPath levels depth 0 i).getD d default) := by
        have hroom := cursor_lt hi hlt
        rw [← level_length h hnodes d (Nat.le_of_lt hlt)] at hroom
        rw [siblingPath_getD levels depth 0 i d hlt, Nat.zero_add, List.getD_eq_getElem _ _ hroom,
          List.getElem?_eq_getElem hroom]
      have habove : i >>> (d + 1) = (i >>> d) / 2 := Nat.shiftRight_succ i d
      have hbit := testBit_eq_shiftRight_mod i d
      simp only [climb, bind_eq_ok]
      rcases Nat.mod_two_eq_zero_or_one (i >>> d) with heven | hodd
      · -- the cursor points at a left child
        rw [heven, decide_eq_false (by decide)] at hbit
        rw [xor_one_of_even heven] at hsibling
        have hcursor : i >>> d = 2 * (i >>> d / 2) := by omega
        rw [hcursor] at hnode
        obtain ⟨parent, hget, hjoin⟩ := parentLevel_get hparent hnode hsibling
        refine ⟨parent, ⟨node, hclimb, ?_⟩, by rw [habove]; exact hget⟩
        rw [joinAt, if_neg (by rw [hbit]; decide)]
        exact hjoin
      · rw [hodd, decide_eq_true rfl] at hbit
        rw [xor_one_of_odd hodd] at hsibling
        have hcursor : i >>> d = 2 * (i >>> d / 2) + 1 := by omega
        rw [hcursor] at hnode
        obtain ⟨parent, hget, hjoin⟩ := parentLevel_get hparent hsibling hnode
        refine ⟨parent, ⟨node, hclimb, ?_⟩, by rw [habove]; exact hget⟩
        rw [joinAt, if_pos hbit]
        exact hjoin
  obtain ⟨root, hclimb, hroot⟩ := hpath depth (Nat.le_refl depth)
  have hzero : i >>> depth = 0 := by
    rw [Nat.shiftRight_eq_div_pow]
    exact Nat.div_eq_of_lt hi
  rw [hzero] at hroot
  rw [List.getD_eq_getElem?_getD, hroot]
  exact hclimb

/-- The root of a full tree is alone on its level. -/
theorem top_level [Inhabited N] {depth : Nat} {nodes : List N} {levels : List (List N)}
    (h : treeLevels join depth 0 nodes = .ok levels) (hnodes : nodes.length = 2 ^ depth) :
    levels.getD depth [] = [(levels.getD depth []).getD 0 default] := by
  have hone := level_length h hnodes depth (Nat.le_refl depth)
  rw [Nat.sub_self, Nat.pow_zero] at hone
  obtain ⟨root, hroot⟩ := List.length_eq_one_iff.mp hone
  rw [hroot]
  rfl

end

/-! ## Sums -/

section

variable {M : Type w} [AddCommMonoid M]
variable {join : Nat → N → N → Except ε N} {sum : N → M}

/-- The parents of neighbours carry the sums of the neighbours. -/
theorem parentLevel_sum {level : Nat}
    (hsums : ∀ ⦃left right parent⦄, join level left right = .ok parent →
      sum parent = sum left + sum right) :
    ∀ {nodes parents : List N}, nodes.length % 2 = 0 →
      parentLevel join level nodes = .ok parents → (parents.map sum).sum = (nodes.map sum).sum
  | [], parents, _, h => by rw [parentLevel_nil.mp h]
  | [node], _, heven, _ => by simp at heven
  | left :: right :: rest, parents, heven, h => by
    obtain ⟨parent, above, hparent, habove, rfl⟩ := parentLevel_cons.mp h
    have hrest : (above.map sum).sum = (rest.map sum).sum := by
      apply parentLevel_sum hsums _ habove
      simp only [List.length_cons] at heven
      omega
    simp only [List.map_cons, List.sum_cons, hsums hparent, hrest, add_assoc]

variable (sum) in
/-- The root of a full tree carries the sum of its leaves. -/
theorem root_sum [Inhabited N]
    (hsums : ∀ ⦃level left right parent⦄, join level left right = .ok parent →
      sum parent = sum left + sum right)
    {depth : Nat} {nodes : List N} {levels : List (List N)}
    (h : treeLevels join depth 0 nodes = .ok levels) (hnodes : nodes.length = 2 ^ depth) :
    sum ((levels.getD depth []).getD 0 default) = (nodes.map sum).sum := by
  obtain ⟨-, hfirst, hparents⟩ := treeLevels_spec h
  have hlevel : ∀ l ≤ depth, ((levels.getD l []).map sum).sum = (nodes.map sum).sum := by
    intro l
    induction l with
    | zero =>
      intro _
      rw [hfirst]
    | succ l ih =>
      intro hl
      have heven : (levels.getD l []).length % 2 = 0 := by
        obtain ⟨k, hk⟩ := Nat.exists_eq_add_of_lt hl
        rw [level_length h hnodes l (by omega), hk, Nat.add_assoc, Nat.add_sub_cancel_left,
          Nat.pow_succ, Nat.mul_mod_left]
      rw [parentLevel_sum (fun _ _ _ => @hsums _ _ _ _) heven (hparents l (by omega)),
        ih (by omega)]
  have hroot := hlevel depth (Nat.le_refl depth)
  rw [top_level h hnodes] at hroot
  simpa using hroot

variable [PartialOrder M] [CanonicallyOrderedAdd M]

/-- Joins that fail only above a bound have parents for nodes within it. -/
theorem parentLevel_isOk {level : Nat} {bound : M}
    (hjoin : ∀ left right, sum left + sum right ≤ bound →
      ∃ parent, join level left right = .ok parent) :
    ∀ {nodes : List N}, (nodes.map sum).sum ≤ bound →
      ∃ parents, parentLevel join level nodes = .ok parents
  | [], _ => ⟨[], rfl⟩
  | [node], _ => ⟨[], rfl⟩
  | left :: right :: rest, hbound => by
    simp only [List.map_cons, List.sum_cons, ← add_assoc] at hbound
    obtain ⟨parent, hparent⟩ := hjoin left right (le_trans le_self_add hbound)
    obtain ⟨above, habove⟩ := parentLevel_isOk hjoin (le_trans le_add_self hbound)
    exact ⟨parent :: above, parentLevel_cons.mpr ⟨parent, above, hparent, habove, rfl⟩⟩

variable (sum) in
/-- **A full tree is made when its leaves stay within the bound of the joins.** -/
theorem treeLevels_isOk {bound : M}
    (hsums : ∀ ⦃level left right parent⦄, join level left right = .ok parent →
      sum parent = sum left + sum right)
    (hjoin : ∀ level left right, sum left + sum right ≤ bound →
      ∃ parent, join level left right = .ok parent) :
    ∀ {depth : Nat} (level : Nat) {nodes : List N}, nodes.length = 2 ^ depth →
      (nodes.map sum).sum ≤ bound → ∃ levels, treeLevels join depth level nodes = .ok levels := by
  intro depth
  induction depth with
  | zero =>
    intro level nodes _ _
    exact ⟨[nodes], rfl⟩
  | succ depth ih =>
    intro level nodes hnodes hbound
    obtain ⟨parents, hparents⟩ := parentLevel_isOk (hjoin level) hbound
    have hhalf : parents.length = 2 ^ depth := by
      rw [parentLevel_length hparents, hnodes, Nat.pow_succ]
      omega
    have heven : nodes.length % 2 = 0 := by
      rw [hnodes, Nat.pow_succ, Nat.mul_mod_left]
    have hsame := parentLevel_sum (fun _ _ _ => @hsums _ _ _ _) heven hparents
    rw [← hsame] at hbound
    obtain ⟨above, habove⟩ := ih (level + 1) hhalf hbound
    refine ⟨nodes :: above, ?_⟩
    rw [treeLevels, hparents, ok_bind, habove, ok_bind]
    rfl

end

/-! ## One tree in two spellings -/

section

variable {ε' : Type v} {N' : Type u} {f : N → N'}
variable {join : Nat → N → N → Except ε N} {join' : Nat → N' → N' → Except ε' N'}

theorem toOption_bind {α β : Type u} (x : Except ε α) (g : α → Except ε β) :
    (x >>= g).toOption = x.toOption.bind fun a => (g a).toOption := by
  cases x with
  | error e => rfl
  | ok a => rfl

/-- Joins of spelled nodes spell the joins of the nodes. -/
theorem parentLevel_map {level : Nat}
    (hjoin : ∀ left right,
      (join' level (f left) (f right)).toOption = (join level left right).toOption.map f) :
    ∀ nodes : List N, (parentLevel join' level (nodes.map f)).toOption
      = (parentLevel join level nodes).toOption.map (List.map f)
  | [] => rfl
  | [node] => rfl
  | left :: right :: rest => by
    have hrest := parentLevel_map hjoin rest
    simp only [List.map_cons, parentLevel, toOption_bind, hjoin, hrest]
    cases (join level left right).toOption with
    | none => rfl
    | some parent =>
      cases (parentLevel join level rest).toOption with
      | none => rfl
      | some above => rfl

/-- A tree of spelled nodes is the tree of the nodes, spelled. -/
theorem treeLevels_map {top : Nat}
    (hjoin : ∀ level < top, ∀ left right,
      (join' level (f left) (f right)).toOption = (join level left right).toOption.map f) :
    ∀ (depth level : Nat) (nodes : List N), level + depth ≤ top →
      (treeLevels join' depth level (nodes.map f)).toOption
        = (treeLevels join depth level nodes).toOption.map (List.map (List.map f)) := by
  intro depth
  induction depth with
  | zero =>
    intro level nodes _
    rfl
  | succ depth ih =>
    intro level nodes htop
    have hparents := parentLevel_map (hjoin level (by omega)) nodes
    simp only [treeLevels, toOption_bind, hparents]
    cases (parentLevel join level nodes).toOption with
    | none => rfl
    | some parents =>
      have habove := ih (level + 1) parents (by omega)
      simp only [Option.map_some, Option.bind_some, habove]
      cases (treeLevels join depth (level + 1) parents).toOption with
      | none => rfl
      | some above => rfl

end

end Hookemon.Core
