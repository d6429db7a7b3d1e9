import Mathlib

/-! # Rolling windows over dated entries

A log of entries, each with a time and an amount, and the part of it that a
window of fixed span ending at some time covers. In a log that is sorted by time
the window is a suffix, so it can be kept in a ring buffer whose oldest entries
are dropped as they expire. `RingHolds` says which entries a ring buffer holds;
its two operations are to drop the first and to append one.
-/

namespace Hookemon.Core

universe u

variable {α : Type u}

/-! ## Ring buffers -/

/-- The slots hold `xs` in order, from the slot `head` on and around the end. -/
structure RingHolds (slots : Nat → α) (cap head : Nat) (xs : List α) : Prop where
  head_lt : head < cap
  length_le : xs.length ≤ cap
  get : ∀ i (hi : i < xs.length), slots ((head + i) % cap) = xs[i]

namespace RingHolds

variable {slots : Nat → α} {cap head : Nat} {x : α} {xs : List α}

theorem nil (hcap : head < cap) : RingHolds slots cap head [] where
  head_lt := hcap
  length_le := Nat.zero_le cap
  get := by
    intro i hi
    exact absurd hi (Nat.not_lt_zero i)

/-- Positions within one turn are different slots. -/
theorem index_ne {i j : Nat} (hij : i < j) (hj : j < cap) :
    (head + i) % cap ≠ (head + j) % cap := by
  intro heq
  have hmod : Nat.ModEq cap i j := Nat.ModEq.add_left_cancel' head heq
  have hsame := hmod.eq_of_lt_of_lt (hij.trans hj) hj
  omega

/-- The first entry is the one at the head. -/
theorem first (h : RingHolds slots cap head (x :: xs)) : slots head = x := by
  have hget := h.get 0 (Nat.succ_pos _)
  rw [Nat.add_zero, Nat.mod_eq_of_lt h.head_lt] at hget
  exact hget

/-- Drop the first entry and clear its slot. -/
theorem pop (h : RingHolds slots cap head (x :: xs)) (blank : α) :
    RingHolds (Function.update slots head blank) cap ((head + 1) % cap) xs := by
  have hlength : xs.length + 1 ≤ cap := h.length_le
  refine ⟨Nat.mod_lt _ (by omega), by omega, ?_⟩
  intro i hi
  have hshift : ((head + 1) % cap + i) % cap = (head + (i + 1)) % cap := by
    rw [Nat.mod_add_mod, Nat.add_assoc, Nat.add_comm 1 i]
  have hne : (head + (i + 1)) % cap ≠ head := by
    have hdiff : (head + 0) % cap ≠ (head + (i + 1)) % cap :=
      index_ne (Nat.succ_pos i) (by omega)
    rw [Nat.add_zero, Nat.mod_eq_of_lt h.head_lt] at hdiff
    exact hdiff.symm
  rw [hshift, Function.update_of_ne hne, h.get (i + 1) (Nat.succ_lt_succ hi)]
  rfl

/-- Append an entry in the first free slot. -/
theorem push (h : RingHolds slots cap head xs) (hroom : xs.length < cap) (x : α) :
    RingHolds (Function.update slots ((head + xs.length) % cap) x) cap head (xs ++ [x]) := by
  refine ⟨h.head_lt, ?_, ?_⟩
  · rw [List.length_append, List.length_singleton]
    exact hroom
  · intro i hi
    rw [List.length_append, List.length_singleton] at hi
    by_cases hlast : i = xs.length
    · subst hlast
      rw [Function.update_self]
      simp
    · have hlt : i < xs.length := by omega
      rw [Function.update_of_ne (index_ne hlt hroom), h.get i hlt]
      exact (List.getElem_append_left hlt).symm

end RingHolds

/-! ## Windows -/

section

variable (time amount : α → Nat) (span : Nat)

/-- The entries of the window of length `span` that ends at `now`, its end
included. -/
def windowed (now : Nat) (log : List α) : List α :=
  log.filter fun e => decide (now < time e + span ∧ time e ≤ now)

/-- The total of the window. -/
def windowSum (now : Nat) (log : List α) : Nat :=
  ((windowed time span now log).map amount).sum

/-- `live` is what is left of the log after some of its expired entries were
dropped from the front; the log is sorted and lies in the past. -/
structure LiveSuffix (now : Nat) (log live : List α) : Prop where
  suffix : ∃ expired, log = expired ++ live ∧ ∀ e ∈ expired, time e + span ≤ now
  sorted : (log.map time).Pairwise (· ≤ ·)
  past : ∀ e ∈ log, time e ≤ now

variable {time amount span} {now t : Nat} {log live : List α} {e : α}

theorem windowed_append (log log' : List α) :
    windowed time span now (log ++ log') =
      windowed time span now log ++ windowed time span now log' :=
  List.filter_append ..

/-- Later entries are outside an earlier window. -/
theorem windowed_snoc_of_lt (h : t < time e) :
    windowed time span t (log ++ [e]) = windowed time span t log := by
  rw [windowed_append]
  have hout : windowed time span t [e] = [] := by
    simp only [windowed, List.filter_cons, List.filter_nil, decide_eq_true_eq]
    rw [if_neg (by omega)]
  rw [hout, List.append_nil]

namespace LiveSuffix

theorem nil : LiveSuffix time span now ([] : List α) [] where
  suffix := ⟨[], rfl, by simp⟩
  sorted := List.Pairwise.nil
  past := by simp

/-- Time passes. -/
theorem mono (h : LiveSuffix time span t log live) (hle : t ≤ now) :
    LiveSuffix time span now log live where
  suffix := by
    rcases h.suffix with ⟨expired, hsplit, hexpired⟩
    exact ⟨expired, hsplit, fun e he => (hexpired e he).trans hle⟩
  sorted := h.sorted
  past e he := (h.past e he).trans hle

/-- An expired entry can be dropped from the front. -/
theorem drop (h : LiveSuffix time span now log (e :: live)) (he : time e + span ≤ now) :
    LiveSuffix time span now log live where
  suffix := by
    rcases h.suffix with ⟨expired, hsplit, hexpired⟩
    refine ⟨expired ++ [e], ?_, ?_⟩
    · rw [hsplit, List.append_assoc, List.singleton_append]
    · intro e' he'
      rcases List.mem_append.mp he' with hold | hnew
      · exact hexpired e' hold
      · rw [List.mem_singleton.mp hnew]
        exact he
  sorted := h.sorted
  past := h.past

/-- An entry of now goes to the end. -/
theorem snoc (h : LiveSuffix time span now log live) (he : time e = now) :
    LiveSuffix time span now (log ++ [e]) (live ++ [e]) where
  suffix := by
    rcases h.suffix with ⟨expired, hsplit, hexpired⟩
    refine ⟨expired, ?_, hexpired⟩
    rw [hsplit, List.append_assoc]
  sorted := by
    rw [List.map_append, List.pairwise_append]
    refine ⟨h.sorted, List.pairwise_singleton _ _, ?_⟩
    intro t ht t' ht'
    rcases List.mem_map.mp ht with ⟨e', he', rfl⟩
    rw [List.map_singleton, List.mem_singleton] at ht'
    rw [ht', he]
    exact h.past e' he'
  past := by
    intro e' he'
    rcases List.mem_append.mp he' with hold | hnew
    · exact h.past e' hold
    · rw [List.mem_singleton.mp hnew]
      exact he.le

/-- When the first live entry is in the window, all of them are. -/
theorem fresh (h : LiveSuffix time span now log live)
    (hfirst : ∀ e ∈ live.head?, now < time e + span) : ∀ e ∈ live, now < time e + span := by
  rcases h.suffix with ⟨expired, hsplit, -⟩
  have hsorted := h.sorted
  rw [hsplit, List.map_append, List.pairwise_append] at hsorted
  cases live with
  | nil => simp
  | cons first rest =>
    have hlow : now < time first + span := hfirst first rfl
    have hrest := (List.pairwise_cons.mp hsorted.2.1).1
    intro e he
    rcases List.mem_cons.mp he with heq | hmem
    · rw [heq]
      exact hlow
    · have hle := hrest (time e) (List.mem_map_of_mem hmem)
      omega

/-- Then the live entries are the window. -/
theorem windowed_eq (h : LiveSuffix time span now log live)
    (hfresh : ∀ e ∈ live, now < time e + span) : windowed time span now log = live := by
  rcases h.suffix with ⟨expired, hsplit, hexpired⟩
  have hnone : windowed time span now expired = [] := by
    refine List.filter_eq_nil_iff.mpr ?_
    intro e he
    have hout := hexpired e he
    simp only [decide_eq_true_eq]
    omega
  have hall : windowed time span now live = live := by
    refine List.filter_eq_self.mpr ?_
    intro e he
    have hpast : time e ≤ now := h.past e (by rw [hsplit]; exact List.mem_append_right _ he)
    simp only [decide_eq_true_eq]
    exact ⟨hfresh e he, hpast⟩
  rw [hsplit, windowed_append, hnone, hall, List.nil_append]

end LiveSuffix

end

end Hookemon.Core
