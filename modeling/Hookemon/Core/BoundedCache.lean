import Mathlib

/-! # A cache with a bounded number of entries

Every entry has a key. Entries with one key have to agree on a tag, and the better one of
them stays. When there are too many entries, the oldest one leaves. The order in which
entries are delivered does not matter exactly when they settle: the entries that stay can
be named beforehand.
-/

namespace Hookemon.Core

/-- What is read of an entry. -/
structure CacheRules (α κ τ : Type) where
  key : α → κ
  tag : α → τ
  rank : α → Nat
  sequence : α → Nat

namespace CacheRules

variable {α κ τ : Type} (rules : CacheRules α κ τ)

/-- A higher rank, or the same rank and a higher sequence. -/
def Better (a b : α) : Prop :=
  rules.rank b < rules.rank a ∨ (rules.rank a = rules.rank b ∧ rules.sequence b < rules.sequence a)

instance decidableBetter (a b : α) : Decidable (rules.Better a b) :=
  inferInstanceAs (Decidable (_ ∨ _))

/-- Of two entries that are equally good, the incoming one is kept. -/
def preferred (existing incoming : α) : α :=
  if rules.Better existing incoming then existing else incoming

/-- The entries, the newest first. -/
def shown (entries : List α) : List α :=
  entries.insertionSort fun a b => rules.sequence b ≤ rules.sequence a

def Distinct (entries : List α) : Prop := (entries.map rules.key).Nodup

/-! ## The preferred entry -/

variable {rules}

theorem Better.asymm {a b : α} (h : rules.Better a b) : ¬ rules.Better b a := by
  rw [Better] at h ⊢
  omega

theorem Better.irrefl {a : α} : ¬ rules.Better a a := by
  rw [Better]
  omega

theorem preferred_self (a : α) : rules.preferred a a = a := by
  rw [preferred, ite_self]

/-- An entry that is better than every other one is preferred, whichever comes first. -/
theorem preferred_best {e x : α} (h : x = e ∨ rules.Better e x) :
    rules.preferred e x = e ∧ rules.preferred x e = e := by
  rcases h with rfl | h
  · exact ⟨preferred_self x, preferred_self x⟩
  · exact ⟨if_pos h, if_neg h.asymm⟩

theorem preferred_eq_left {e x : α} (h : rules.preferred e x = e) : x = e ∨ rules.Better e x := by
  rw [preferred] at h
  split at h
  · exact .inr ‹_›
  · exact .inl h

variable (rules) in
theorem preferred_cases (e x : α) : rules.preferred e x = e ∨ rules.preferred e x = x :=
  ite_eq_or_eq _ _ _

/-! ## Entries with distinct keys -/

theorem Distinct.eq {entries : List α} (h : rules.Distinct entries) {a b : α} (ha : a ∈ entries)
    (hb : b ∈ entries) (hkey : rules.key a = rules.key b) : a = b :=
  List.inj_on_of_nodup_map h ha hb hkey

theorem Distinct.nodup {entries : List α} (h : rules.Distinct entries) : entries.Nodup :=
  List.Nodup.of_map _ h

theorem Distinct.append {entries : List α} {x : α} (h : rules.Distinct entries)
    (hx : ∀ e ∈ entries, rules.key e ≠ rules.key x) : rules.Distinct (entries ++ [x]) := by
  rw [Distinct, List.map_append]
  refine List.Nodup.append h (List.nodup_singleton _) ?_
  intro k hk hx'
  obtain ⟨e, he, rfl⟩ := List.mem_map.mp hk
  exact hx e he (List.mem_singleton.mp hx')

theorem Distinct.filter {entries : List α} (h : rules.Distinct entries) (p : α → Bool) :
    rules.Distinct (entries.filter p) :=
  List.Nodup.sublist (List.filter_sublist.map _) h

/-- Entries outside some keys exist among more entries than there are keys. -/
theorem Distinct.exists_other {entries : List α} (h : rules.Distinct entries) (others : List α)
    (hlength : others.length < entries.length) :
    ∃ e ∈ entries, ∀ o ∈ others, rules.key o ≠ rules.key e := by
  by_contra hall
  push Not at hall
  have hsub : entries.map rules.key ⊆ others.map rules.key := by
    intro k hk
    obtain ⟨e, he, rfl⟩ := List.mem_map.mp hk
    obtain ⟨o, ho, hkey⟩ := hall e he
    exact List.mem_map.mpr ⟨o, ho, hkey⟩
  have hle := (List.Nodup.subperm h hsub).length_le
  rw [List.length_map, List.length_map] at hle
  omega

variable (rules) in
theorem shown_perm (entries : List α) : (rules.shown entries).Perm entries :=
  List.perm_insertionSort _ _

theorem shown_sorted (entries : List α) :
    (rules.shown entries).Pairwise fun a b => rules.sequence b ≤ rules.sequence a := by
  let newer : α → α → Prop := fun a b => rules.sequence b ≤ rules.sequence a
  have htotal : Std.Total newer := ⟨fun a b => Nat.le_total _ _⟩
  have htrans : IsTrans α newer := ⟨fun a b c hab hbc => Nat.le_trans hbc hab⟩
  exact List.pairwise_insertionSort newer entries

/-- Entries that were all delivered, no two of one key and no more than the bound. -/
structure Cached (rules : CacheRules α κ τ) (bound : Nat) (delivered entries : List α) : Prop where
  distinct : rules.Distinct entries
  bounded : entries.length ≤ bound
  delivered : ∀ e ∈ entries, e ∈ delivered

theorem cached_nil (bound : Nat) (delivered : List α) : rules.Cached bound delivered [] :=
  ⟨List.nodup_nil, Nat.zero_le _, fun _ h => by cases h⟩

/-! ## Entries that settle -/

/-- The entries that stay, the newest first: all entries of their keys agree with them and are
worse, and the entries of other keys are older than all of them. -/
structure Settled (rules : CacheRules α κ τ) (bound : Nat) (delivered stay : List α) : Prop where
  sorted : stay.Pairwise fun a b => rules.sequence b < rules.sequence a
  mem : ∀ e ∈ stay, e ∈ delivered
  bounded : stay.length ≤ bound
  full : stay.length = bound ∨ ∀ x ∈ delivered, ∃ e ∈ stay, rules.key e = rules.key x
  tag : ∀ e ∈ stay, ∀ x ∈ delivered, rules.key e = rules.key x → rules.tag e = rules.tag x
  best : ∀ e ∈ stay, ∀ x ∈ delivered, rules.key e = rules.key x → x = e ∨ rules.Better e x
  older : ∀ x ∈ delivered, (∀ e ∈ stay, rules.key e ≠ rules.key x) →
    ∀ e ∈ stay, rules.sequence x < rules.sequence e

theorem Settled.nodup {bound : Nat} {delivered stay : List α}
    (h : rules.Settled bound delivered stay) : stay.Nodup :=
  h.sorted.imp fun hlt => by
    rintro rfl
    exact Nat.lt_irrefl _ hlt

/-- No two entries that stay are equally old. -/
theorem Settled.eq_of_sequence {bound : Nat} {delivered stay : List α}
    (h : rules.Settled bound delivered stay) {a b : α} (ha : a ∈ stay) (hb : b ∈ stay)
    (hsequence : rules.sequence a = rules.sequence b) : a = b :=
  List.inj_on_of_nodup_map (List.pairwise_map.mpr (h.sorted.imp Nat.ne_of_gt)) ha hb hsequence

/-! ## One delivery -/

variable (rules) in
/-- The oldest entry, when there are more than `bound` of them. -/
def leaving (bound : Nat) (entries : List α) : Option α :=
  if bound < entries.length then
    (entries.insertionSort fun a b => rules.sequence a ≤ rules.sequence b).head?
  else none

/-- The entry that leaves is the oldest, and is the one that has just come only if it is older
than all others. -/
theorem leaving_last {bound : Nat} {entries : List α} {x : α}
    (hdistinct : rules.Distinct (entries ++ [x])) (hlength : entries.length = bound) :
    ∃ z, rules.leaving bound (entries ++ [x]) = some z ∧ z ∈ entries ++ [x] ∧
      (∀ y ∈ entries ++ [x], rules.sequence z ≤ rules.sequence y) ∧
      (z = x → ∀ y ∈ entries, rules.sequence x < rules.sequence y) := by
  let older : α → α → Prop := fun a b => rules.sequence a ≤ rules.sequence b
  have hover : bound < (entries ++ [x]).length := by
    rw [List.length_append, hlength]
    exact Nat.lt_succ_self bound
  obtain ⟨z, rest, hsorted⟩ : ∃ z rest, (entries ++ [x]).insertionSort older = z :: rest := by
    refine List.exists_cons_of_length_pos ?_
    rw [List.length_insertionSort]
    omega
  have htotal : Std.Total older := ⟨fun a b => Nat.le_total _ _⟩
  have htrans : IsTrans α older := ⟨fun a b c => Nat.le_trans⟩
  have hpairs : (z :: rest).Pairwise older := hsorted ▸ List.pairwise_insertionSort older _
  have hperm : (z :: rest).Perm (entries ++ [x]) := hsorted ▸ List.perm_insertionSort older _
  refine ⟨z, ?_, hperm.mem_iff.mp List.mem_cons_self, ?_, ?_⟩
  · rw [leaving, if_pos hover]
    exact congrArg List.head? hsorted
  · intro y hy
    rcases List.mem_cons.mp (hperm.mem_iff.mpr hy) with rfl | hrest
    · exact Nat.le_refl _
    · exact List.rel_of_pairwise_cons hpairs hrest
  · rintro rfl y hy
    have hle : rules.sequence z ≤ rules.sequence y := by
      rcases List.mem_cons.mp (hperm.mem_iff.mpr (List.mem_append_left [z] hy)) with rfl | hrest
      · exact Nat.le_refl _
      · exact List.rel_of_pairwise_cons hpairs hrest
    refine lt_of_le_of_ne hle fun hsame => ?_
    -- the sort is stable, so an equally old entry would come before the last one
    have hpair : [y, z].Sublist (entries ++ [z]) :=
      (List.singleton_sublist.mpr hy).append (List.Sublist.refl [z])
    have hstable := List.pair_sublist_insertionSort (r := older) (Nat.le_of_eq hsame.symm) hpair
    rw [hsorted] at hstable
    have hnodup : (z :: rest).Nodup := hperm.nodup_iff.mpr hdistinct.nodup
    have hne : y ≠ z := by
      rintro rfl
      have hdup := hpair.nodup hdistinct.nodup
      simp at hdup
    cases hstable with
    | cons _ hsub => exact (List.nodup_cons.mp hnodup).1 (hsub.subset (by simp))
    | cons_cons _ _ => exact hne rfl

variable [DecidableEq κ] [DecidableEq τ] (rules)

def trim (bound : Nat) (entries : List α) : List α :=
  (rules.leaving bound entries).elim entries fun oldest =>
    entries.filter fun e => rules.key e ≠ rules.key oldest

/-- One delivery. -/
def receive (bound : Nat) (entries : List α) (x : α) : List α :=
  match entries.find? fun e => rules.key e = rules.key x with
  | none => rules.trim bound (entries ++ [x])
  | some existing =>
    if rules.tag existing = rules.tag x then
      entries.map fun e => if rules.key e = rules.key x then rules.preferred existing x else e
    else entries

/-- Deliveries in a row. -/
def deliver (bound : Nat) (xs : List α) : List α := xs.foldl (rules.receive bound) []

variable {rules}

/-- What a delivery can do. -/
inductive Admitted (rules : CacheRules α κ τ) (bound : Nat) (entries : List α) (x : α)
    (after : List α) : Prop
  | conflict (e : α) (mem : e ∈ entries) (key : rules.key e = rules.key x)
      (tag : rules.tag e ≠ rules.tag x) (same : after = entries)
  | replaced (e : α) (mem : e ∈ entries) (key : rules.key e = rules.key x)
      (tag : rules.tag e = rules.tag x) (entry : after = entries.map fun y =>
        if rules.key y = rules.key x then rules.preferred e x else y)
  | added (fresh : ∀ e ∈ entries, rules.key e ≠ rules.key x) (room : entries.length < bound)
      (entry : after = entries ++ [x])
  | evicted (fresh : ∀ e ∈ entries, rules.key e ≠ rules.key x) (full : entries.length = bound)
      (z : α) (mem : z ∈ entries ++ [x])
      (oldest : ∀ y ∈ entries ++ [x], rules.sequence z ≤ rules.sequence y)
      (last : z = x → ∀ y ∈ entries, rules.sequence x < rules.sequence y)
      (entry : after = (entries ++ [x]).filter fun e => rules.key e ≠ rules.key z)

theorem receive_cases {bound : Nat} {entries : List α} (hdistinct : rules.Distinct entries)
    (hlength : entries.length ≤ bound) (x : α) :
    Admitted rules bound entries x (rules.receive bound entries x) := by
  rw [receive]
  cases hfind : entries.find? fun e => decide (rules.key e = rules.key x) with
  | some e =>
    have hmem := List.mem_of_find?_eq_some hfind
    have hkey : rules.key e = rules.key x := by simpa using List.find?_some hfind
    by_cases htag : rules.tag e = rules.tag x
    · exact .replaced e hmem hkey htag (if_pos htag)
    · exact .conflict e hmem hkey htag (if_neg htag)
  | none =>
    have hfresh : ∀ e ∈ entries, rules.key e ≠ rules.key x := by
      simpa using List.find?_eq_none.mp hfind
    rcases Nat.lt_or_eq_of_le hlength with hroom | hfull
    · refine .added hfresh hroom ?_
      have hsmall : ¬ bound < (entries ++ [x]).length := by
        rw [List.length_append]
        simp
        omega
      show rules.trim bound (entries ++ [x]) = _
      rw [trim, leaving, if_neg hsmall]
      rfl
    · obtain ⟨z, hleaving, hmem, holdest, hlast⟩ := leaving_last (hdistinct.append hfresh) hfull
      refine .evicted hfresh hfull z hmem holdest hlast ?_
      show rules.trim bound (entries ++ [x]) = _
      rw [trim, hleaving]
      rfl

/-! ## Deliveries -/

omit [DecidableEq τ] in
theorem map_key_replaced {e x : α} (hkey : rules.key e = rules.key x) (entries : List α) :
    (entries.map fun y => if rules.key y = rules.key x then rules.preferred e x else y).map rules.key
      = entries.map rules.key := by
  rw [List.map_map]
  refine List.map_congr_left fun y _ => ?_
  by_cases hy : rules.key y = rules.key x
  · rcases preferred_cases rules e x with h | h <;> simp [hy, h, hkey]
  · simp [hy]

theorem Cached.receive {bound : Nat} {delivered entries : List α}
    (h : rules.Cached bound delivered entries) {x : α} (hx : x ∈ delivered) :
    rules.Cached bound delivered (rules.receive bound entries x) := by
  have happended : ∀ e ∈ entries ++ [x], e ∈ delivered := by
    intro e he
    rcases List.mem_append.mp he with he | he
    · exact h.delivered e he
    · exact List.mem_singleton.mp he ▸ hx
  cases receive_cases h.distinct h.bounded x with
  | conflict e mem key tag same =>
    rw [same]
    exact h
  | replaced e mem key tag entry =>
    rw [entry]
    refine ⟨?_, by rw [List.length_map]; exact h.bounded, fun y hy => ?_⟩
    · rw [Distinct, map_key_replaced key]
      exact h.distinct
    · obtain ⟨y₀, hy₀, rfl⟩ := List.mem_map.mp hy
      split
      · rcases preferred_cases rules e x with hp | hp <;> rw [hp]
        · exact h.delivered e mem
        · exact hx
      · exact h.delivered y₀ hy₀
  | added fresh room entry =>
    rw [entry]
    refine ⟨h.distinct.append fresh, ?_, happended⟩
    rw [List.length_append]
    exact room
  | evicted fresh full z mem oldest last entry =>
    rw [entry]
    refine ⟨(h.distinct.append fresh).filter _, ?_, fun e he =>
      happended e (List.mem_of_mem_filter he)⟩
    have hless : ((entries ++ [x]).filter fun e => rules.key e ≠ rules.key z).length
        < (entries ++ [x]).length :=
      List.length_filter_lt_length_iff_exists.mpr ⟨z, mem, by simp⟩
    rw [List.length_append, full] at hless
    exact Nat.lt_succ_iff.mp hless

theorem Cached.deliver {bound : Nat} {delivered entries : List α}
    (h : rules.Cached bound delivered entries) {xs : List α} (hxs : ∀ x ∈ xs, x ∈ delivered) :
    rules.Cached bound delivered (xs.foldl (rules.receive bound) entries) := by
  induction xs generalizing entries with
  | nil => exact h
  | cons x xs ih =>
    exact ih (h.receive (hxs x List.mem_cons_self)) fun y hy => hxs y (List.mem_cons_of_mem _ hy)

theorem cached_deliver {bound : Nat} {delivered xs : List α} (hxs : ∀ x ∈ xs, x ∈ delivered) :
    rules.Cached bound delivered (rules.deliver bound xs) :=
  (cached_nil bound delivered).deliver hxs

/-! ## From entries that settle to the order -/

/-- An entry that stays is kept by every delivery, and by its own. -/
theorem Settled.receive {bound : Nat} {delivered stay entries : List α}
    (h : rules.Settled bound delivered stay) (hentries : rules.Cached bound delivered entries)
    {x e : α} (hx : x ∈ delivered) (he : e ∈ stay) (hmem : x = e ∨ e ∈ entries) :
    e ∈ rules.receive bound entries x := by
  have happended : e ∈ entries ++ [x] := by
    rcases hmem with rfl | hmem
    · exact List.mem_append_right _ (List.mem_singleton_self x)
    · exact List.mem_append_left _ hmem
  cases receive_cases hentries.distinct hentries.bounded x with
  | conflict y mem key tag same =>
    rw [same]
    rcases hmem with rfl | hmem
    · exact absurd (h.tag x he y (hentries.delivered y mem) key.symm).symm tag
    · exact hmem
  | replaced y mem key tag entry =>
    rw [entry]
    by_cases hkey : rules.key e = rules.key x
    · have hpreferred : rules.preferred y x = e := by
        rcases hmem with rfl | hmem
        · exact (preferred_best (h.best x he y (hentries.delivered y mem) key.symm)).2
        · obtain rfl : y = e := hentries.distinct.eq mem hmem (key.trans hkey.symm)
          exact (preferred_best (h.best y he x hx hkey)).1
      exact List.mem_map.mpr ⟨y, mem, by rw [if_pos key, hpreferred]⟩
    · have hold : e ∈ entries := by
        rcases hmem with rfl | hmem
        · exact absurd rfl hkey
        · exact hmem
      exact List.mem_map.mpr ⟨e, hold, if_neg hkey⟩
  | added fresh room entry =>
    rw [entry]
    exact happended
  | evicted fresh full z mem oldest last entry =>
    -- among one entry too many there is one of another key, which is older than all that stay
    have hdistinct := hentries.distinct.append fresh
    obtain ⟨y, hy, hother⟩ := hdistinct.exists_other stay (by
      rw [List.length_append, full]
      exact Nat.lt_succ_of_le h.bounded)
    have hdelivered : y ∈ delivered := by
      rcases List.mem_append.mp hy with hy | hy
      · exact hentries.delivered y hy
      · exact List.mem_singleton.mp hy ▸ hx
    have hyounger := h.older y hdelivered hother e he
    rw [entry, List.mem_filter]
    refine ⟨happended, decide_eq_true fun hkey => ?_⟩
    obtain rfl : e = z := hdistinct.eq happended mem hkey
    exact absurd (oldest y hy) (Nat.not_le.mpr hyounger)

theorem Settled.deliver {bound : Nat} {delivered stay : List α}
    (h : rules.Settled bound delivered stay) {xs entries : List α}
    (hentries : rules.Cached bound delivered entries) (hxs : ∀ x ∈ xs, x ∈ delivered) {e : α}
    (he : e ∈ stay) (hmem : e ∈ xs ∨ e ∈ entries) : e ∈ xs.foldl (rules.receive bound) entries := by
  induction xs generalizing entries with
  | nil => exact hmem.resolve_left (by simp)
  | cons x xs ih =>
    have hx := hxs x List.mem_cons_self
    refine ih (hentries.receive hx) (fun y hy => hxs y (List.mem_cons_of_mem _ hy)) ?_
    rcases hmem with hmem | hmem
    · rcases List.mem_cons.mp hmem with rfl | htail
      · exact .inr (h.receive hentries hx he (.inl rfl))
      · exact .inl htail
    · exact .inr (h.receive hentries hx he (.inr hmem))

/-- Whatever the order of the deliveries, the entries that stay are shown. -/
theorem Settled.shown {bound : Nat} {delivered stay : List α}
    (h : rules.Settled bound delivered stay) {xs : List α} (hxs : ∀ x, x ∈ xs ↔ x ∈ delivered) :
    rules.shown (rules.deliver bound xs) = stay := by
  have hcached : rules.Cached bound delivered (rules.deliver bound xs) :=
    cached_deliver fun x hx => (hxs x).mp hx
  have hsub : stay ⊆ rules.deliver bound xs := fun e he =>
    h.deliver (cached_nil bound delivered) (fun x hx => (hxs x).mp hx) he
      (.inl ((hxs e).mpr (h.mem e he)))
  have hsubperm : stay.Subperm (rules.deliver bound xs) := h.nodup.subperm hsub
  have hlength : (rules.deliver bound xs).length ≤ stay.length := by
    rcases h.full with hfull | hall
    · exact hfull ▸ hcached.bounded
    · refine (hcached.distinct.nodup.subperm fun y hy => ?_).length_le
      obtain ⟨e, he, hkey⟩ := hall y (hcached.delivered y hy)
      rwa [← hcached.distinct.eq (hsub he) hy hkey]
  have hperm : stay.Perm (rules.deliver bound xs) := hsubperm.perm_of_length_le hlength
  refine List.Perm.eq_of_pairwise (fun a b ha hb hba hab => ?_) (shown_sorted _)
    (h.sorted.imp Nat.le_of_lt) ((shown_perm rules _).trans hperm.symm)
  have ha : a ∈ stay := hperm.mem_iff.mpr ((shown_perm rules _).mem_iff.mp ha)
  exact h.eq_of_sequence ha hb (Nat.le_antisymm hab hba)

/-! ## From the order to entries that settle -/

/-- No delivery changes these entries any more. -/
def Unchanged (rules : CacheRules α κ τ) (bound : Nat) (delivered entries : List α) : Prop :=
  ∀ x ∈ delivered,
    (∃ e ∈ entries, rules.key e = rules.key x ∧ rules.tag e = rules.tag x ∧
      (x = e ∨ rules.Better e x)) ∨
    ((∀ e ∈ entries, rules.key e ≠ rules.key x) ∧ entries.length = bound ∧
      ∀ e ∈ entries, rules.sequence x < rules.sequence e)

omit [DecidableEq κ] [DecidableEq τ] in
theorem Unchanged.perm {bound : Nat} {delivered entries entries' : List α}
    (h : rules.Unchanged bound delivered entries) (hperm : entries.Perm entries') :
    rules.Unchanged bound delivered entries' := by
  intro x hx
  simpa only [hperm.mem_iff, hperm.length_eq] using h x hx

/-- An entry that is worse than the one of its key, or older than all of a full cache. -/
theorem receive_eq_self {bound : Nat} {entries : List α} (hdistinct : rules.Distinct entries)
    (hlength : entries.length ≤ bound) {x : α}
    (h : (∃ e ∈ entries, rules.key e = rules.key x ∧ rules.tag e = rules.tag x ∧
        (x = e ∨ rules.Better e x)) ∨
      ((∀ e ∈ entries, rules.key e ≠ rules.key x) ∧ entries.length = bound ∧
        ∀ e ∈ entries, rules.sequence x < rules.sequence e)) :
    rules.receive bound entries x = entries := by
  cases receive_cases hdistinct hlength x with
  | conflict e mem key tag same => exact same
  | replaced e mem key tag entry =>
    rcases h with ⟨e', he', hkey, -, hbest⟩ | ⟨hfresh, -⟩
    · obtain rfl : e = e' := hdistinct.eq mem he' (key.trans hkey.symm)
      rw [entry]
      refine (List.map_congr_left fun y hy => ?_).trans (List.map_id _)
      by_cases hy' : rules.key y = rules.key x
      · obtain rfl : y = e := hdistinct.eq hy mem (hy'.trans key.symm)
        rw [if_pos hy', (preferred_best hbest).1, id]
      · rw [if_neg hy', id]
    · exact absurd key (hfresh e mem)
  | added fresh room entry =>
    rcases h with ⟨e, he, hkey, -⟩ | ⟨-, hfull, -⟩
    · exact absurd hkey (fresh e he)
    · omega
  | evicted fresh full z mem oldest last entry =>
    rcases h with ⟨e, he, hkey, -⟩ | ⟨-, -, hyounger⟩
    · exact absurd hkey (fresh e he)
    · -- the delivered entry is the oldest, so it leaves again
      obtain rfl : z = x := by
        rcases List.mem_append.mp mem with hz | hz
        · exact absurd (oldest x (by simp)) (Nat.not_le.mpr (hyounger z hz))
        · exact List.mem_singleton.mp hz
      have hkept : entries.filter (fun e => rules.key e ≠ rules.key z) = entries :=
        List.filter_eq_self.mpr fun e he => decide_eq_true (fresh e he)
      rw [entry, List.filter_append, hkept]
      simp

theorem Unchanged.receive {bound : Nat} {delivered entries : List α}
    (h : rules.Unchanged bound delivered entries) (hentries : rules.Cached bound delivered entries)
    {x : α} (hx : x ∈ delivered) : rules.receive bound entries x = entries :=
  receive_eq_self hentries.distinct hentries.bounded (h x hx)

/-- A delivery that is repeated at once changes nothing more. -/
theorem receive_admit {bound : Nat} {delivered entries : List α}
    (hentries : rules.Cached bound delivered entries) {x : α} (hx : x ∈ delivered) :
    rules.receive bound (rules.receive bound entries x) x = rules.receive bound entries x := by
  have hafter := hentries.receive hx
  cases receive_cases hentries.distinct hentries.bounded x with
  | conflict e mem key tag same => rw [same, same]
  | replaced e mem key tag entry =>
    refine receive_eq_self hafter.distinct hafter.bounded (.inl ⟨rules.preferred e x, ?_, ?_⟩)
    · rw [entry]
      exact List.mem_map.mpr ⟨e, mem, if_pos key⟩
    · rcases preferred_cases rules e x with h | h
      · have hbest := preferred_eq_left h
        rw [h]
        exact ⟨key, tag, hbest⟩
      · rw [h]
        exact ⟨rfl, rfl, .inl rfl⟩
  | added fresh room entry =>
    refine receive_eq_self hafter.distinct hafter.bounded (.inl ⟨x, ?_, rfl, rfl, .inl rfl⟩)
    rw [entry]
    exact List.mem_append_right _ (List.mem_singleton_self x)
  | evicted fresh full z mem oldest last entry =>
    by_cases hz : z = x
    · -- the delivered entry is the one that leaves, so it leaves again
      subst hz
      have hsame : rules.receive bound entries z = entries := by
        refine receive_eq_self hentries.distinct hentries.bounded (.inr ⟨fresh, full, last rfl⟩)
      rw [hsame, hsame]
    · refine receive_eq_self hafter.distinct hafter.bounded (.inl ⟨x, ?_, rfl, rfl, .inl rfl⟩)
      have hmem : x ∈ entries ++ [x] := List.mem_append_right _ (List.mem_singleton_self x)
      rw [entry, List.mem_filter]
      refine ⟨hmem, decide_eq_true fun hkey => hz ?_⟩
      exact (hentries.distinct.append fresh).eq mem hmem hkey.symm

/-- Deliveries that are repeated at once leave what they leave without the repetitions. -/
theorem deliver_repeated {bound : Nat} {delivered xs : List α} (hxs : ∀ x ∈ xs, x ∈ delivered)
    {repeated : α → List α} (hrepeated : ∀ x ∈ xs, ∃ n, repeated x = List.replicate (n + 1) x) :
    rules.deliver bound (xs.flatMap repeated) = rules.deliver bound xs := by
  have hblock : ∀ {entries : List α} {x : α}, rules.Cached bound delivered entries →
      x ∈ delivered → ∀ n, (List.replicate (n + 1) x).foldl (rules.receive bound) entries
        = rules.receive bound entries x := by
    intro entries x hentries hx n
    induction n with
    | zero => rfl
    | succ n ih =>
      rw [List.replicate_succ', List.foldl_append, ih]
      exact receive_admit hentries hx
  suffices hrun : ∀ entries, rules.Cached bound delivered entries →
      (xs.flatMap repeated).foldl (rules.receive bound) entries
        = xs.foldl (rules.receive bound) entries from hrun [] (cached_nil bound delivered)
  induction xs with
  | nil => exact fun _ _ => rfl
  | cons x xs ih =>
    intro entries hentries
    have hx := hxs x List.mem_cons_self
    obtain ⟨n, hn⟩ := hrepeated x List.mem_cons_self
    rw [List.flatMap_cons, List.foldl_append, hn, hblock hentries hx n]
    exact ih (fun y hy => hxs y (List.mem_cons_of_mem _ hy))
      (fun y hy => hrepeated y (List.mem_cons_of_mem _ hy)) _ (hentries.receive hx)

theorem Unchanged.deliver {bound : Nat} {delivered entries : List α}
    (h : rules.Unchanged bound delivered entries) (hentries : rules.Cached bound delivered entries)
    {xs : List α} (hxs : ∀ x ∈ xs, x ∈ delivered) :
    xs.foldl (rules.receive bound) entries = entries := by
  induction xs with
  | nil => rfl
  | cons x xs ih =>
    rw [List.foldl_cons, h.receive hentries (hxs x List.mem_cons_self)]
    exact ih fun y hy => hxs y (List.mem_cons_of_mem _ hy)

/-- Entries of distinct keys are all added, as long as there is room. -/
theorem deliver_distinct {bound : Nat} {entries : List α} (hdistinct : rules.Distinct entries)
    (hlength : entries.length ≤ bound) : rules.deliver bound entries = entries := by
  induction entries using List.reverseRecOn with
  | nil => rfl
  | append_singleton entries x ih =>
    rw [List.length_append, List.length_singleton] at hlength
    have hfresh : ∀ e ∈ entries, rules.key e ≠ rules.key x := by
      rw [Distinct, List.map_append] at hdistinct
      intro e he hkey
      exact (List.disjoint_of_nodup_append hdistinct) (List.mem_map_of_mem he)
        (List.mem_singleton.mpr hkey)
    have hinit : rules.Distinct entries :=
      hdistinct.sublist ((List.sublist_append_left entries [x]).map _)
    rw [deliver, List.foldl_append, ← deliver, ih hinit (Nat.le_of_succ_le hlength)]
    show rules.receive bound entries x = _
    have hroom : entries.length ≤ bound := by omega
    cases receive_cases hinit hroom x with
    | conflict e mem key => exact absurd key (hfresh e mem)
    | replaced e mem key => exact absurd key (hfresh e mem)
    | added fresh room entry => exact entry
    | evicted fresh full => omega

/-- Deliveries of other keys bring no entry of a key. -/
theorem mem_deliver_other {bound : Nat} {delivered entries xs : List α} {y : α}
    (hentries : rules.Cached bound delivered entries) (hxs : ∀ x ∈ xs, x ∈ delivered)
    (hother : ∀ x ∈ xs, rules.key x ≠ rules.key y) (h : y ∈ xs.foldl (rules.receive bound) entries) :
    y ∈ entries := by
  induction xs generalizing entries with
  | nil => exact h
  | cons x xs ih =>
    have hx := hxs x List.mem_cons_self
    have hafter := ih (hentries.receive hx) (fun z hz => hxs z (List.mem_cons_of_mem _ hz))
      (fun z hz => hother z (List.mem_cons_of_mem _ hz)) h
    have hne : y ≠ x := fun heq => hother x List.mem_cons_self (heq ▸ rfl)
    cases receive_cases hentries.distinct hentries.bounded x with
    | conflict e mem key tag same => exact same ▸ hafter
    | replaced e mem key tag entry =>
      rw [entry] at hafter
      obtain ⟨y₀, hy₀, rfl⟩ := List.mem_map.mp hafter
      by_cases hkey : rules.key y₀ = rules.key x
      · rw [if_pos hkey] at hne ⊢
        rw [(preferred_cases rules e x).resolve_right hne]
        exact mem
      · rwa [if_neg hkey]
    | added fresh room entry =>
      rw [entry] at hafter
      exact (List.mem_append.mp hafter).resolve_right (by simpa using hne)
    | evicted fresh full z mem oldest last entry =>
      rw [entry] at hafter
      exact (List.mem_append.mp (List.mem_of_mem_filter hafter)).resolve_right (by simpa using hne)

/-- Deliveries of one key leave one entry, with the tag of the first delivery. -/
theorem deliver_same {bound : Nat} (hbound : 0 < bound) (x y : α) (xs : List α)
    (hsame : ∀ z ∈ xs, rules.key z = rules.key x) (hkey : rules.key y = rules.key x)
    (htag : rules.tag y = rules.tag x) :
    ∃ e, xs.foldl (rules.receive bound) [y] = [e] ∧ rules.key e = rules.key x ∧
      rules.tag e = rules.tag x := by
  induction xs generalizing y with
  | nil => exact ⟨y, rfl, hkey, htag⟩
  | cons z xs ih =>
    have hz : rules.key z = rules.key x := hsame z List.mem_cons_self
    have hrest : ∀ w ∈ xs, rules.key w = rules.key x :=
      fun w hw => hsame w (List.mem_cons_of_mem _ hw)
    rw [List.foldl_cons]
    have hdistinct : rules.Distinct [y] := List.nodup_singleton _
    cases receive_cases hdistinct hbound z with
    | conflict e mem key tag same =>
      rw [same]
      exact ih _ hrest hkey htag
    | replaced e mem key tag entry =>
      obtain rfl := List.mem_singleton.mp mem
      rw [entry, List.map_singleton, if_pos key]
      rcases preferred_cases rules e z with h | h <;> rw [h]
      · exact ih _ hrest hkey htag
      · exact ih _ hrest hz (tag.symm.trans htag)
    | added fresh => exact absurd (hkey.trans hz.symm) (fresh y (List.mem_singleton_self y))
    | evicted fresh => exact absurd (hkey.trans hz.symm) (fresh y (List.mem_singleton_self y))

/-- Two entries have one order in a list without duplicates. -/
theorem not_swapped {β : Type} {a b : β} {l : List β} (h : l.Nodup) (hab : [a, b].Sublist l) :
    ¬ [b, a].Sublist l := by
  induction l with
  | nil => cases hab
  | cons c l ih =>
    obtain ⟨hc, hl⟩ := List.nodup_cons.mp h
    intro hba
    cases hab with
    | cons _ hab =>
      cases hba with
      | cons _ hba => exact ih hl hab hba
      | cons_cons _ _ => exact hc (hab.subset (by simp))
    | cons_cons _ hab =>
      cases hba with
      | cons _ hba => exact hc (hba.subset (by simp))
      | cons_cons _ _ => exact hc (hab.subset (by simp))

section Order

variable {bound : Nat} {delivered : List α} (hbound : 0 < bound)
  (horder : ∀ xs, (∀ x, x ∈ xs ↔ x ∈ delivered) →
    rules.shown (rules.deliver bound xs) = rules.shown (rules.deliver bound delivered))

include hbound horder

/-- The last deliveries do not change the entries. -/
theorem unchanged_of_order : rules.Unchanged bound delivered (rules.deliver bound delivered) := by
  have hcached : rules.Cached bound delivered (rules.deliver bound delivered) :=
    cached_deliver fun _ hx => hx
  intro x hx
  have hafter : (rules.receive bound (rules.deliver bound delivered) x).Perm
      (rules.deliver bound delivered) := by
    have hshown := horder (delivered ++ [x]) fun y => by
      rw [List.mem_append, List.mem_singleton]
      exact ⟨fun h => h.elim id fun h => h ▸ hx, .inl⟩
    have hlast : rules.deliver bound (delivered ++ [x])
        = rules.receive bound (rules.deliver bound delivered) x := by
      rw [deliver, List.foldl_append]
      rfl
    rw [hlast] at hshown
    exact (shown_perm rules _).symm.trans ((List.Perm.of_eq hshown).trans (shown_perm rules _))
  cases receive_cases hcached.distinct hcached.bounded x with
  | conflict e mem key tag same =>
    -- delivered first, the other tag would keep this entry out
    refine absurd ?_ tag
    let xs := x :: delivered.filter (fun z => rules.key z = rules.key x) ++
      delivered.filter fun z => rules.key z ≠ rules.key x
    have hcovers : ∀ z, z ∈ xs ↔ z ∈ delivered := by
      intro z
      by_cases hz : rules.key z = rules.key x <;> simp [xs, hz]
      · exact fun h => h ▸ hx
      · exact fun h => absurd (h ▸ rfl) hz
    have hmem : e ∈ rules.deliver bound xs :=
      (shown_perm rules _).mem_iff.mp (horder xs hcovers ▸ (shown_perm rules _).mem_iff.mpr mem)
    obtain ⟨y, hy, -, hytag⟩ := deliver_same hbound x x
      (delivered.filter fun z => rules.key z = rules.key x)
      (fun z hz => by simpa using (List.mem_filter.mp hz).2) rfl rfl
    have hdistinct : rules.Distinct [x] := List.nodup_singleton _
    have hsingle : rules.receive bound [] x = [x] := deliver_distinct hdistinct hbound
    have hstart : (x :: delivered.filter fun z => rules.key z = rules.key x).foldl
        (rules.receive bound) [] = [y] := by
      rw [List.foldl_cons, hsingle]
      exact hy
    rw [deliver, List.foldl_append, hstart] at hmem
    have hfirst : rules.Cached bound delivered [y] := by
      rw [← hstart]
      exact cached_deliver fun z hz => (hcovers z).mp (List.mem_append_left _ hz)
    have hkept := mem_deliver_other hfirst (fun z hz => List.mem_of_mem_filter hz) (fun z hz => by
      rw [key]
      simpa using (List.mem_filter.mp hz).2) hmem
    rw [List.mem_singleton.mp hkept]
    exact hytag
  | replaced e mem key tag entry =>
    refine .inl ⟨e, mem, key, tag, preferred_eq_left ?_⟩
    have hpreferred : rules.preferred e x ∈ rules.deliver bound delivered := by
      rw [entry] at hafter
      exact hafter.mem_iff.mp (List.mem_map.mpr ⟨e, mem, if_pos key⟩)
    refine hcached.distinct.eq hpreferred mem ?_
    rcases preferred_cases rules e x with h | h <;> rw [h]
    exact key.symm
  | added fresh room entry =>
    rw [entry] at hafter
    have hlength := hafter.length_eq
    rw [List.length_append, List.length_singleton] at hlength
    omega
  | evicted fresh full z mem oldest last entry =>
    refine .inr ⟨fresh, full, last ?_⟩
    have hgone : x ∉ rules.deliver bound delivered := fun hmem => fresh x hmem rfl
    have hleft : x ∉ rules.receive bound (rules.deliver bound delivered) x :=
      fun hmem => hgone (hafter.mem_iff.mp hmem)
    rw [entry, List.mem_filter] at hleft
    have hkey : rules.key x = rules.key z := by
      by_contra hne
      exact hleft ⟨by simp, decide_eq_true hne⟩
    exact ((hcached.distinct.append fresh).eq (by simp) mem hkey).symm

/-- Where the order does not matter, the entries settle. -/
theorem settled_of_order :
    rules.Settled bound delivered (rules.shown (rules.deliver bound delivered)) := by
  have hcached : rules.Cached bound delivered (rules.deliver bound delivered) :=
    cached_deliver fun _ hx => hx
  have hunchanged := unchanged_of_order hbound horder
  have hperm := shown_perm rules (rules.deliver bound delivered)
  have hagree : ∀ e ∈ rules.deliver bound delivered, ∀ x ∈ delivered,
      rules.key e = rules.key x → rules.tag e = rules.tag x ∧ (x = e ∨ rules.Better e x) := by
    intro e he x hx hkey
    rcases hunchanged x hx with ⟨e', he', hkey', htag, hbest⟩ | ⟨hfresh, -⟩
    · obtain rfl := hcached.distinct.eq he he' (hkey.trans hkey'.symm)
      exact ⟨htag, hbest⟩
    · exact absurd hkey (hfresh e he)
  refine ⟨?_, ?_, ?_, ?_, ?_, ?_, ?_⟩
  · -- delivered in the reverse order, two equally old entries would be shown the other way
    rw [List.pairwise_iff_forall_sublist]
    intro a b hab
    have hle : rules.sequence b ≤ rules.sequence a :=
      List.pairwise_iff_forall_sublist.mp (shown_sorted _) hab
    refine lt_of_le_of_ne hle fun hsame => ?_
    let back := (rules.shown (rules.deliver bound delivered)).reverse
    have hback : (rules.deliver bound delivered).Perm back :=
      hperm.symm.trans (List.reverse_perm _).symm
    have hdistinct : rules.Distinct back :=
      (hback.map rules.key).nodup_iff.mp hcached.distinct
    have hcachedBack : rules.Cached bound delivered back :=
      ⟨hdistinct, hback.length_eq ▸ hcached.bounded,
        fun e he => hcached.delivered e (hback.mem_iff.mpr he)⟩
    have hrun : rules.deliver bound (back ++ delivered) = back := by
      rw [deliver, List.foldl_append, ← deliver, deliver_distinct hdistinct hcachedBack.bounded]
      exact (hunchanged.perm hback).deliver hcachedBack fun _ hx => hx
    have hshown : rules.shown back = rules.shown (rules.deliver bound delivered) := by
      rw [← hrun]
      refine horder _ fun x => ?_
      rw [List.mem_append]
      exact ⟨fun h => h.elim (hcachedBack.delivered x) id, .inr⟩
    have hba : [b, a].Sublist back := by
      simpa using hab.reverse
    have hother : [b, a].Sublist (rules.shown back) :=
      List.pair_sublist_insertionSort (r := fun a b => rules.sequence b ≤ rules.sequence a)
        (Nat.le_of_eq hsame.symm) hba
    rw [hshown] at hother
    exact not_swapped (hperm.nodup_iff.mpr hcached.distinct.nodup) hab hother
  · exact fun e he => hcached.delivered e (hperm.mem_iff.mp he)
  · exact hperm.length_eq ▸ hcached.bounded
  · rw [hperm.length_eq, or_iff_not_imp_left]
    intro hnot x hx
    rcases hunchanged x hx with ⟨e, he, hkey, -⟩ | ⟨-, hfull, -⟩
    · exact ⟨e, hperm.mem_iff.mpr he, hkey⟩
    · exact absurd hfull hnot
  · exact fun e he x hx hkey => (hagree e (hperm.mem_iff.mp he) x hx hkey).1
  · exact fun e he x hx hkey => (hagree e (hperm.mem_iff.mp he) x hx hkey).2
  · intro x hx hfresh e he
    rcases hunchanged x hx with ⟨e', he', hkey, -⟩ | ⟨-, -, hyounger⟩
    · exact absurd hkey (hfresh e' (hperm.mem_iff.mpr he'))
    · exact hyounger e (hperm.mem_iff.mp he)

end Order

/-- The order of the deliveries does not matter exactly when the entries settle. -/
theorem order_irrelevant_iff {bound : Nat} (hbound : 0 < bound) (delivered : List α) :
    (∀ xs ys, (∀ x, x ∈ xs ↔ x ∈ delivered) → (∀ y, y ∈ ys ↔ y ∈ delivered) →
        rules.shown (rules.deliver bound xs) = rules.shown (rules.deliver bound ys)) ↔
      ∃ stay, rules.Settled bound delivered stay := by
  constructor
  · intro h
    exact ⟨_, settled_of_order hbound fun xs hxs => h xs delivered hxs fun _ => Iff.rfl⟩
  · rintro ⟨stay, hstay⟩ xs ys hxs hys
    rw [hstay.shown hxs, hstay.shown hys]

end CacheRules

end Hookemon.Core
