import Hookemon.Runner.StoreWorld

/-! # The index over the whole history of a store

The index only grows: every archived cycle, every authorization, receipt and permanent
reservation stays in it. It is written and read by an encoding that is made for bounded
payloads, and so it is served just as long as the whole history is within the limits of
that encoding.
-/

namespace Hookemon.Runner

open Hookemon.Core Hookemon.Js

namespace StoreWorld

variable (sha256 : Bytes → Bytes) (collation : Collation)

/-- The index that the action comes to write is encoded and read back, and it is on disk
when the write goes through; and whatever the action does, the index file can be read. -/
structure Served (w : StoreWorld) (a : Action) : Prop where
  written : ∀ index, w.Encodes sha256 collation a index → ∃ t j,
    index.serializeIndex collation = .ok t ∧
    DurableIndex.loadIndex collation (some t) = .ok j ∧ j.Same index ∧
    (a.faults.indexWrite = .done → (w.step sha256 collation a).1.disk.index = some t)
  readable : ∃ j, DurableIndex.loadIndex collation (w.step sha256 collation a).1.disk.index = .ok j

/-- The history with what the action adds to it is within the limits of the encoding. -/
def HistoryFits (w : StoreWorld) (a : Action) : Prop :=
  ∀ index, w.Encodes sha256 collation a index → index.Fits collation

variable {sha256 collation}

theorem Served.fits {w : StoreWorld} {a : Action} (h : w.Served sha256 collation a)
    (hdisk : IndexOk collation w.disk.index) : w.HistoryFits sha256 collation a := by
  intro index hencodes
  obtain ⟨t, j, ht, hload, hsame, -⟩ := h.written index hencodes
  exact (DurableIndex.fits_iff collation (hencodes.sound hdisk)).mpr ⟨t, ht, j, hload, hsame⟩

theorem HistoryFits.served {w : StoreWorld} {a : Action} (h : w.HistoryFits sha256 collation a)
    (hdisk : IndexOk collation w.disk.index)
    (hload : ∃ j, DurableIndex.loadIndex collation w.disk.index = .ok j) :
    w.Served sha256 collation a := by
  have hstep := step_index sha256 collation w a
  constructor
  · intro index hencodes
    have hsound := hencodes.sound hdisk
    obtain ⟨t, ht, j, hj, hsame⟩ := (DurableIndex.fits_iff collation hsound).mp (h index hencodes)
    refine ⟨t, j, ht, hj, hsame, fun hdone => ?_⟩
    rcases hstep with ⟨other, hother, hindex⟩ | ⟨hnone, -⟩
    · cases hencodes.unique hother
      rw [hindex, DurableIndex.fileAfter, ht, hdone]
      rfl
    · exact absurd hencodes (hnone index)
  · rcases hstep with ⟨index, hencodes, hindex⟩ | ⟨-, hindex⟩
    · obtain ⟨t, ht, j, hj, -⟩ :=
        (DurableIndex.fits_iff collation (hencodes.sound hdisk)).mp (h index hencodes)
      rw [hindex, DurableIndex.fileAfter, ht]
      cases a.faults.indexWrite with
      | failed => exact hload
      | done | unsynced => exact ⟨j, hj⟩
    · rwa [hindex]

/-- **The index is served through a run exactly when the history of the run stays within the
limits of the encoding.** -/
theorem index_served_iff (sha256 : Bytes → Bytes) (collation : Collation) (events : List Action) :
    EveryStep (step sha256 collation) (Served sha256 collation) empty events ↔
      EveryStep (step sha256 collation) (HistoryFits sha256 collation) empty events := by
  have hempty : IndexOk collation empty.disk.index := .inl rfl
  constructor
  · exact everyStep_imp (I := fun w => IndexOk collation w.disk.index) hempty
      (fun w a h _ => step_indexOk sha256 w a h) fun w a h hserved => hserved.fits h
  · refine everyStep_imp (I := fun w => IndexOk collation w.disk.index ∧
      ∃ j, DurableIndex.loadIndex collation w.disk.index = .ok j) ⟨hempty, _, rfl⟩ ?_ ?_
    · intro w a h hfits
      exact ⟨step_indexOk sha256 w a h.1, (hfits.served h.1 h.2).readable⟩
    · exact fun w a h hfits => hfits.served h.1 h.2

/-! ## A run that reserves too many keys -/

/-- A reservation that is never released. -/
def sampleReservation : Data :=
  ⟨.object [(text "cycleId", .string (text "cycle-1"))], by decide⟩

/-- A store that is opened and reserves one key after the other. -/
def reservations (n : Nat) : List Action :=
  .open :: (List.range n).map fun k => .reserveGlobalKey 0 (natText k) sampleReservation {}

theorem reservations_succ (n : Nat) : reservations (n + 1)
    = reservations n ++ [.reserveGlobalKey 0 (natText n) sampleReservation {}] := by
  rw [reservations, reservations, List.range_succ, List.map_append, List.map_singleton,
    List.cons_append]

theorem isGlobalKey_natText {n : Nat} (h : n < 1000) : DurableIndex.isGlobalKey (natText n) := by
  have hlength : (natText n).length ≤ 3 := natText_length_le (by decide) h
  have hdigits := isDecimal_digits (isDecimal_natText n)
  have halphanumeric : ∀ c ∈ natText n, isAlphanumeric c := by
    intro c hc
    have hdigit := hdigits c hc
    simp [isAlphanumeric, hdigit]
  have hpos : 0 < (natText n).length := by
    rw [natText_length]
    omega
  cases htext : natText n with
  | nil => simp [htext] at hpos
  | cons c cs =>
    rw [htext] at hlength halphanumeric
    rw [List.forall_mem_cons] at halphanumeric
    rw [List.length_cons] at hlength
    simp only [DurableIndex.isGlobalKey, Bool.and_eq_true, decide_eq_true_eq, List.all_eq_true,
      Bool.or_eq_true]
    exact ⟨⟨halphanumeric.1, by omega⟩, fun d hd => by simp [halphanumeric.2 d hd]⟩

/-- After `n` reservations that were all served, the index file has these keys and no others. -/
structure Reserved (collation : Collation) (n : Nat) (w : StoreWorld) : Prop where
  store : ∃ s, w.stores[0]? = some s
  index : ∃ index, DurableIndex.loadIndex collation w.disk.index = .ok index ∧
    ∀ k, (index.globalKeys.find (natText k)).isSome ↔ k < n

variable (sha256) in
/-- The next reservation comes to write an index with one more key. -/
theorem Reserved.encodes {n : Nat} {w : StoreWorld} (h : Reserved collation n w) (hn : n < 1000) :
    ∃ index, w.Encodes sha256 collation (.reserveGlobalKey 0 (natText n) sampleReservation {}) index ∧
      ∀ k, (index.globalKeys.find (natText k)).isSome ↔ k < n + 1 := by
  obtain ⟨s, hs⟩ := h.store
  obtain ⟨index, hload, hkeys⟩ := h.index
  have hvalue : ∃ u, canonicalJson sampleReservation.1 = .ok u := by
    have hcheck : (canonicalJson sampleReservation.1).toOption.any (fun _ => true) = true := by
      decide +kernel
    obtain ⟨u, hu, -⟩ := exists_ok_of_check hcheck
    exact ⟨u, hu⟩
  have hnone : index.globalKeys.find (natText n) = none := by
    rw [← Option.not_isSome_iff_eq_none, hkeys]
    exact lt_irrefl n
  refine ⟨_, .reserveGlobalKey hs (isGlobalKey_natText hn) hvalue hload hnone, fun k => ?_⟩
  rw [DurableIndex.withReserved, Record.find_set]
  by_cases hk : k = n
  · rw [if_pos (by rw [hk]), hk]
    simp
  · rw [if_neg fun h => hk (natText_injective h), hkeys]
    omega

theorem Reserved.step {n : Nat} {w : StoreWorld} (h : Reserved collation n w) (hn : n < 1000)
    (hserved : w.Served sha256 collation (.reserveGlobalKey 0 (natText n) sampleReservation {})) :
    Reserved collation (n + 1)
      (w.step sha256 collation (.reserveGlobalKey 0 (natText n) sampleReservation {})).1 := by
  obtain ⟨index, hencodes, hkeys⟩ := h.encodes sha256 hn
  obtain ⟨t, j, -, hj, hsame, hwritten⟩ := hserved.written _ hencodes
  constructor
  · obtain ⟨s, hs⟩ := h.store
    refine ⟨(s.reserveGlobalKey collation w.disk (natText n) sampleReservation {}).store, ?_⟩
    have hlength := (List.getElem?_eq_some_iff.mp hs).1
    rw [StoreWorld.step, onStore, hs]
    simp [hlength]
  · refine ⟨j, by rw [hwritten rfl, hj], fun k => ?_⟩
    have hfind := congrArg Option.isSome (hsame.globalKeys (natText k))
    rw [Option.isSome_map, Option.isSome_map] at hfind
    rw [hfind, hkeys]

theorem reserved_opened : Reserved unitCollation 0
    (stateAfterRun (step sampleEntryHash unitCollation) empty (reservations 0)) := by
  have hopen : (stateAfterRun (step sampleEntryHash unitCollation) empty
      (reservations 0)).stores.length = 1 := by decide +kernel
  constructor
  · exact ⟨_, List.getElem?_eq_getElem (by omega)⟩
  · have hindex := openStore_index sampleEntryHash unitCollation empty
    refine ⟨DurableIndex.emptyIndex, ?_, by simp [DurableIndex.emptyIndex]⟩
    show DurableIndex.loadIndex unitCollation
      (empty.openStore sampleEntryHash unitCollation).1.disk.index = _
    rw [hindex]
    rfl

theorem reserved_after (n : Nat) (hn : n ≤ 1000)
    (h : EveryStep (step sampleEntryHash unitCollation) (Served sampleEntryHash unitCollation) empty
      (reservations n)) :
    Reserved unitCollation n
      (stateAfterRun (step sampleEntryHash unitCollation) empty (reservations n)) := by
  induction n with
  | zero => exact reserved_opened
  | succ n ih =>
    rw [reservations_succ, everyStep_concat] at h
    rw [reservations_succ, stateAfterRun_concat]
    exact (ih (by omega) h.1).step hn h.2

/-- An index with `n` keys has at least `n` rows. -/
theorem keys_length_le {index : DurableIndex} {n : Nat}
    (h : ∀ k, (index.globalKeys.find (natText k)).isSome ↔ k < n) :
    n ≤ index.globalKeys.entries.length := by
  have hsubset : (List.range n).map natText ⊆ index.globalKeys.entries.map Prod.fst := by
    intro key hkey
    obtain ⟨k, hk, rfl⟩ := List.mem_map.mp hkey
    obtain ⟨v, hv⟩ := Option.isSome_iff_exists.mp ((h k).mpr (List.mem_range.mp hk))
    exact List.mem_map.mpr ⟨_, Record.mem_of_find hv, rfl⟩
  have hnodup : ((List.range n).map natText).Nodup := List.nodup_range.map natText_injective
  simpa using (List.subperm_of_subset hnodup hsubset).length_le

/-- The 513th permanent key is refused. -/
theorem history_not_served : ¬ EveryStep (step sampleEntryHash unitCollation)
    (Served sampleEntryHash unitCollation) empty (reservations 513) := by
  intro h
  have hfits := everyStep_imp (I := fun w => IndexOk unitCollation w.disk.index) (.inl rfl)
    (fun w a h _ => step_indexOk _ w a h) (fun w a h hserved => hserved.fits h) h
  rw [reservations_succ, everyStep_concat] at h hfits
  have hkeys := reserved_after 512 (by decide) h.1
  obtain ⟨index, hencodes, hrows⟩ := hkeys.encodes sampleEntryHash (by decide)
  have hlimit := (hfits.2 index hencodes).globalKeys
  have hlength := keys_length_le hrows
  have htoo : RECOVERY_LIMITS.canonicalArrayItems < 512 + 1 := by decide
  omega

end StoreWorld

end Hookemon.Runner
