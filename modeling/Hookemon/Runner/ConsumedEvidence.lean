import Hookemon.Runner.SharedJournals

/-! # Evidence that is consumed once

An authorization or a receipt that the replay of a journal consumes is in the index, so
that no other journal can consume it again. What the index has it keeps, and two pieces
of evidence in it never contradict each other; a global reservation changes only by an
operation that names its value. That a journal on disk has no evidence that the index
lacks holds as long as no object writes a journal that it had to keep to itself before.
-/

namespace Hookemon.Runner

open Hookemon.Core Hookemon.Js

/-! ## The index in a file -/

namespace DurableIndex

variable (collation : Collation)

/-- The index that a file holds, whatever its size. -/
def stored (file : Option Text) : DurableIndex :=
  match file.bind Js.parse with
  | none => emptyIndex
  | some parsed =>
    match assertIndexShape collation parsed with
    | .ok index => index
    | .error _ => emptyIndex

theorem stored_none : stored collation none = emptyIndex := rfl

theorem stored_written {index : DurableIndex} (h : index.Sound) {t : Text}
    (ht : index.serializeIndex collation = .ok t) :
    stored collation (some t) = index.normalized collation := by
  obtain ⟨u, hu, -⟩ := fileText_eq_ok.mp ht
  unfold stored
  simp only [Option.bind_some, parse_fileText (toValue_distinct collation h) ht,
    assertIndexShape_sorted collation h hu]

end DurableIndex

/-! ## Evidence -/

/-- What can be consumed once. -/
inductive Evidence where
  | authorization (r : AuthorizationRecord)
  | receipt (r : ReceiptRecord)

/-- No two of these are different evidence for one key, or owners of one nonce. -/
def Evidence.Agrees : Evidence → Evidence → Prop
  | .authorization r, .authorization s =>
    (r.key = s.key → r = s) ∧ (r.nonceKey = s.nonceKey → r.key = s.key)
  | .receipt r, .receipt s => r.key = s.key → r = s
  | _, _ => True

def DurableCycleTransaction.Stages (t : DurableCycleTransaction) : Evidence → Prop
  | .authorization r => t.inner.authorizations.find r.key = some r
  | .receipt r => t.inner.receipts.find r.key = some r

namespace DurableIndex

def Has (index : DurableIndex) : Evidence → Prop
  | .authorization r => index.authorizations.find r.key = some r
  | .receipt r => index.receipts.find r.key = some r

/-- **The evidence in an index agrees.** -/
theorem Sound.agrees {index : DurableIndex} (h : index.Sound) {e e' : Evidence} (he : index.Has e)
    (he' : index.Has e') : e.Agrees e' := by
  have hsame : ∀ {α : Type} {r : Record α} {k l : Text} {a b : α}, r.find k = some a →
      r.find l = some b → k = l → a = b := by
    rintro α r k l a b ha hb rfl
    exact Option.some.inj (ha.symm.trans hb)
  cases e with
  | authorization r =>
    cases e' with
    | authorization s =>
      refine ⟨hsame he he', fun hnonce => ?_⟩
      -- a nonce has one owner
      have hr := (h.nonces r.nonceKey r.key).mpr ⟨r, he, rfl⟩
      have hs := (h.nonces s.nonceKey s.key).mpr ⟨s, he', rfl⟩
      exact hsame hr hs hnonce
    | receipt s => trivial
  | receipt r =>
    cases e' with
    | authorization s => trivial
    | receipt s => exact hsame he he'

theorem has_congr {i j : DurableIndex} (hauthorizations : i.authorizations = j.authorizations)
    (hreceipts : i.receipts = j.receipts) (e : Evidence) : i.Has e ↔ j.Has e := by
  cases e with
  | authorization r => rw [Has, Has, hauthorizations]
  | receipt r => rw [Has, Has, hreceipts]

theorem Same.has {i j : DurableIndex} (h : i.Same j) (e : Evidence) : i.Has e ↔ j.Has e := by
  cases e with
  | authorization r => rw [Has, Has, h.authorizations]
  | receipt r => rw [Has, Has, h.receipts]

/-- A commit that is allowed adds what the transaction stages, and nothing is lost. -/
theorem has_withStaged {index : DurableIndex} {t : DurableCycleTransaction} (h : index.Allows t)
    (e : Evidence) : (index.withStaged t).Has e ↔ index.Has e ∨ t.Stages e := by
  have hor : ∀ {α : Type} {staged old : Option α} {a : α},
      (∀ b, staged = some b → old = some a → a = b) →
      (staged.or old = some a ↔ old = some a ∨ staged = some a) := by
    intro α staged old a hsame
    rw [Option.or_eq_some_iff]
    constructor
    · rintro (hstaged | ⟨-, hold⟩)
      · exact .inr hstaged
      · exact .inl hold
    · rintro (hold | hstaged)
      · cases hs : staged with
        | none => exact .inr ⟨rfl, hold⟩
        | some b => exact .inl (by rw [hsame b hs hold])
      · exact .inl hstaged
  cases e with
  | authorization r =>
    rw [Has, find_authorizations]
    exact hor fun s hs hr => (h.authorizations _ (Record.mem_of_find hs)).1 r hr
  | receipt r =>
    rw [Has, find_receipts]
    exact hor fun s hs hr => h.receipts _ (Record.mem_of_find hs) r hr

end DurableIndex

namespace StoreWorld

variable {sha256 : Bytes → Bytes} {collation : Collation}

/-- The index on disk. -/
def index (collation : Collation) (w : StoreWorld) : DurableIndex :=
  DurableIndex.stored collation w.disk.index

theorem index_sound {w : StoreWorld} (h : IndexOk collation w.disk.index) :
    (w.index collation).Sound := by
  rcases h with hnone | ⟨written, hsound, t, ht, hfile⟩
  · rw [index, hnone]
    exact DurableIndex.emptyIndex_sound
  · rw [index, hfile, DurableIndex.stored_written collation hsound ht]
    exact DurableIndex.normalized_sound collation hsound

/-- What an operation loads is the index on disk. -/
theorem index_loaded {w : StoreWorld} (h : IndexOk collation w.disk.index) {loaded : DurableIndex}
    (hload : DurableIndex.loadIndex collation w.disk.index = .ok loaded) :
    loaded = w.index collation := by
  rcases h with hnone | ⟨written, hsound, t, ht, hfile⟩
  · rw [hnone] at hload
    cases hload
    rw [index, hnone, DurableIndex.stored_none]
  · rw [hfile] at hload
    have hsize : byteLength t ≤ maximumIndexBytes := by
      rw [DurableIndex.loadIndex, bind_eq_ok] at hload
      obtain ⟨_, hsize, -⟩ := hload
      exact not_lt.mp (revertIf_eq_ok.mp hsize)
    rw [DurableIndex.loadIndex_serializeIndex collation hsound ht hsize] at hload
    rw [index, hfile, DurableIndex.stored_written collation hsound ht]
    exact (Except.ok.inj hload).symm

/-- **The index on disk is the old one, or the one that an action comes to write.** -/
theorem index_step {w : StoreWorld} (h : IndexOk collation w.disk.index) (a : Action) :
    (w.step sha256 collation a).1.index collation = w.index collation ∨
    ∃ written, w.Encodes sha256 collation a written ∧
      ((w.step sha256 collation a).1.index collation).Same written := by
  rcases step_index sha256 collation w a with ⟨written, hencodes, hfile⟩ | ⟨-, hfile⟩
  · have hsound := hencodes.sound h
    rw [index, index, hfile, DurableIndex.fileAfter]
    cases hserialize : written.serializeIndex collation with
    | error e => exact .inl rfl
    | ok t =>
      cases a.faults.indexWrite with
      | failed => exact .inl rfl
      | done | unsynced =>
        refine .inr ⟨written, hencodes, ?_⟩
        simp only [Write.file, DurableIndex.stored_written collation hsound hserialize]
        exact DurableIndex.normalized_same collation hsound
  · exact .inl (by rw [index, index, hfile])

/-- The evidence of an index that an action comes to write. -/
theorem Encodes.has {w : StoreWorld} (h : IndexOk collation w.disk.index) {a : Action}
    {written : DurableIndex} (hencodes : w.Encodes sha256 collation a written) (e : Evidence) :
    written.Has e ↔ (w.index collation).Has e ∨ ∃ i t f, a = .commit i t f ∧ t.Stages e := by
  -- the other operations write the evidence that they have loaded
  have hother : ∀ {old : DurableIndex}, DurableIndex.loadIndex collation w.disk.index = .ok old →
      written.authorizations = old.authorizations → written.receipts = old.receipts →
      (∀ i t f, a ≠ .commit i t f) →
      (written.Has e ↔ (w.index collation).Has e ∨ ∃ i t f, a = .commit i t f ∧ t.Stages e) := by
    intro old hload hauthorizations hreceipts hnot
    rw [DurableIndex.has_congr hauthorizations hreceipts, index_loaded h hload]
    refine ⟨.inl, fun hor => hor.resolve_right ?_⟩
    rintro ⟨i, t, f, rfl, -⟩
    exact hnot i t f rfl
  cases hencodes with
  | @commit i t f s old hs howns hload hadmits =>
    have hallows := DurableIndex.allows_of_checkStaged (h.sound hload) hadmits.staged
    rw [DurableIndex.has_withStaged hallows, index_loaded h hload]
    refine or_congr_right ⟨fun hstaged => ⟨i, t, f, rfl, hstaged⟩, ?_⟩
    rintro ⟨_, _, _, ⟨⟩, hstaged⟩
    exact hstaged
  | archiveCycle _ hload _ _ _ => exact hother hload rfl rfl (by simp)
  | reserveGlobalKey _ _ _ hload _ => exact hother hload rfl rfl (by simp)
  | releaseGlobalKey _ _ hload _ _ => exact hother hload rfl rfl (by simp)

/-- **What the index has it keeps.** -/
theorem index_keeps (sha256 : Bytes → Bytes) {w : StoreWorld}
    (h : IndexOk collation w.disk.index) (a : Action) {e : Evidence} (he : (w.index collation).Has e) :
    ((w.step sha256 collation a).1.index collation).Has e := by
  rcases index_step h a with hsame | ⟨written, hencodes, hsame⟩
  · rwa [hsame]
  · exact (hsame.has e).mpr ((hencodes.has h e).mpr (.inl he))

/-! ## Reservations -/

/-- The action replaces or releases the reservation of a key and names its value; this is
what it leaves. -/
def Action.Names (key : Text) (value : Value) : Action → Option Value → Prop
  | .commit _ t _, after =>
    (∃ r, t.globalKeyReplacements.find key = some r ∧ r.1.1.sortKeys = value.sortKeys ∧
      after = some r.2.1.sortKeys) ∨
    ∃ v, t.globalKeyReleases.find key = some v ∧ v.1.sortKeys = value.sortKeys ∧ after = none
  | .releaseGlobalKey _ k v _, after =>
    k = key ∧ v.1.sortKeys = value.sortKeys ∧ after = none
  | _, _ => False

/-- The owner of a key on disk. -/
def owner (collation : Collation) (w : StoreWorld) (key : Text) : Option Value :=
  ((w.index collation).globalKeys.find key).map Value.sortKeys

/-- A reservation that is truthy, as any object is, stays what it is, or is replaced or
released by an action that names it. -/
def KeepsOwners (sha256 : Bytes → Bytes) (collation : Collation) (w : StoreWorld) (a : Action) :
    Prop :=
  ∀ key value, (w.index collation).globalKeys.find key = some value → isTruthy value →
    (w.step sha256 collation a).1.owner collation key = some value.sortKeys ∨
      a.Names key value ((w.step sha256 collation a).1.owner collation key)

/-- **No reservation is overwritten.** -/
theorem keepsOwners {w : StoreWorld} (h : IndexOk collation w.disk.index) (a : Action) :
    w.KeepsOwners sha256 collation a := by
  intro key value hvalue htruthy
  rcases index_step h a with hsame | ⟨written, hencodes, hsame⟩
  · exact .inl (by rw [owner, hsame, hvalue]; rfl)
  rw [owner, hsame.globalKeys]
  cases hencodes with
  | @commit i t f s old hs howns hload hadmits =>
    have hallows := DurableIndex.allows_of_checkStaged (h.sound hload) hadmits.staged
    rw [← index_loaded h hload] at hvalue
    rw [DurableIndex.find_globalKeys]
    by_cases hreleased : key ∈ t.globalKeyReleases.entries.map Prod.fst
    · -- a release names the value that the index has
      rw [if_pos hreleased]
      obtain ⟨e, he, rfl⟩ := List.mem_map.mp hreleased
      obtain ⟨v, hv, hnamed⟩ := hallows.released e he
      cases hv.symm.trans hvalue
      exact .inr (.inr ⟨e.2, Record.mem_iff_find.mp he, hnamed.symm, rfl⟩)
    rw [if_neg hreleased]
    cases hreplaced : t.globalKeyReplacements.find key with
    | some r =>
      obtain ⟨-, v, hv, hnamed⟩ := hallows.replaced _ (Record.mem_of_find hreplaced)
      cases hv.symm.trans hvalue
      exact .inr (.inl ⟨r, hreplaced, hnamed.symm, rfl⟩)
    | none =>
      -- what is reserved again is reserved with the same value
      refine .inl ?_
      cases hreserved : t.globalKeys.find key with
      | none => simp [hvalue]
      | some v =>
        have hagain := (hallows.reserved _ (Record.mem_of_find hreserved)).2 value hvalue htruthy
        simp [hagain]
  | archiveCycle _ hload _ _ _ =>
    rw [← index_loaded h hload] at hvalue
    exact .inl (by rw [DurableIndex.withArchived, hvalue]; rfl)
  | @reserveGlobalKey i k v f s old hs hkey hencoded hload hnone =>
    rw [← index_loaded h hload] at hvalue
    have hne : key ≠ k := by
      rintro rfl
      rw [hnone] at hvalue
      cases hvalue
    refine .inl ?_
    rw [DurableIndex.withReserved, Record.find_set, if_neg hne, hvalue]
    rfl
  | @releaseGlobalKey i k v f s old current hs hkey hload hcurrent hsame' =>
    rw [← index_loaded h hload] at hvalue
    rw [DurableIndex.withReleased]
    by_cases heq : key = k
    · cases heq
      cases hcurrent.symm.trans hvalue
      have hdistinct := ((h.sound hload).globalKeys _ (Record.mem_of_find hvalue)).2.1
      refine .inr ⟨rfl, (DurableIndex.sortKeys_of_differs hdistinct v.2 hsame').symm, ?_⟩
      simp
    · exact .inl (by simp [heq, hvalue])

/-! ## What a journal consumes -/

/-- The evidence of a journal, where the replay of an entry after some others consumes this. -/
def Consumes (consumed : List Value → Value → List Evidence) (journal : List Value)
    (e : Evidence) : Prop :=
  ∃ before entry after, journal = before ++ entry :: after ∧ e ∈ consumed before entry

section Consumed

variable {consumed : List Value → Value → List Evidence}

theorem consumes_nil {e : Evidence} : ¬ Consumes consumed [] e := by
  rintro ⟨before, entry, after, h, -⟩
  simp at h

theorem Consumes.append {journal more : List Value} {e : Evidence}
    (h : Consumes consumed journal e) : Consumes consumed (journal ++ more) e := by
  obtain ⟨before, entry, after, rfl, he⟩ := h
  exact ⟨before, entry, after ++ more, by simp, he⟩

/-- What a longer journal consumes, the shorter one does, or one of the entries after it. -/
theorem consumes_append {journal more : List Value} {e : Evidence}
    (h : Consumes consumed (journal ++ more) e) : Consumes consumed journal e ∨
      ∃ before entry after, more = before ++ entry :: after ∧ e ∈ consumed (journal ++ before) entry := by
  obtain ⟨before, entry, after, hsplit, he⟩ := h
  rcases List.append_eq_append_iff.mp hsplit with ⟨rest, rfl, hrest⟩ | ⟨rest, rfl, hrest⟩
  · exact .inr ⟨rest, entry, after, hrest, he⟩
  · cases rest with
    | nil => exact .inr ⟨[], entry, after, by simpa using hrest.symm, by simpa using he⟩
    | cons first rest =>
      rw [List.cons_append, List.cons.injEq] at hrest
      obtain ⟨rfl, -⟩ := hrest
      exact .inl ⟨before, entry, rest, rfl, he⟩

end Consumed

variable (sha256 collation) (consumed : List Value → Value → List Evidence)

/-- A transaction stages what the replay of its events consumes. -/
def Accounts (w : StoreWorld) : Action → Prop
  | .commit i t _ => ∀ s, w.stores[i]? = some s → ∀ before entry after,
      (t.inner.events.map Subtype.val).map Value.sortKeys = before ++ entry :: after →
      ∀ e ∈ consumed (s.journal t.inner.cycleId ++ before) entry, t.Stages e
  | _ => True

/-- No journal on disk consumes what the index lacks. -/
def Indexed (w : StoreWorld) : Prop :=
  ∀ cycleId e, Consumes consumed (w.disk.activeJournal sha256 cycleId) e ∨
    Consumes consumed (w.disk.archivedJournal sha256 cycleId) e → (w.index collation).Has e

/-- After the step no journal on disk consumes what the index lacks. -/
def StaysIndexed (w : StoreWorld) (a : Action) : Prop :=
  (w.step sha256 collation a).1.Indexed sha256 collation consumed

/-- An object that comes to write a journal has nothing in its copy of it that it could not
write to the index before. -/
def Backed (w : StoreWorld) : Action → Prop
  | .commit i t f => ∀ s index, w.stores[i]? = some s →
      DurableIndex.loadIndex collation w.disk.index = .ok index → s.Owns t →
      s.Admits sha256 index t → Reaches sha256 collation s index t f →
      ∀ e, Consumes consumed (s.journal t.inner.cycleId) e → index.Has e ∨ t.Stages e
  | .archiveCycle i cycleId now f => ∀ s index t, w.stores[i]? = some s →
      DurableIndex.loadIndex collation w.disk.index = .ok index → s.Archives index cycleId →
      serializeArchivedCycle sha256 (s.hot.readCycle cycleId) now.1 = .ok t →
      f.archiveWrite ≠ .failed → ∀ e, Consumes consumed (s.journal cycleId) e → index.Has e
  | _ => True

variable {sha256 collation consumed}

/-- The evidence of a commit that comes to the file of the cycle is in the index. -/
theorem Extends.has {w : StoreWorld} (h : w.Sound sha256 collation) {a : Action} {cycleId : Text}
    {s : DurableCycleStore} {t : DurableCycleTransaction} {index : DurableIndex}
    (hextends : Extends sha256 collation w a cycleId s t)
    (hload : DurableIndex.loadIndex collation w.disk.index = .ok index)
    (hreaches : Reaches sha256 collation s index t a.faults) (e : Evidence) :
    ((w.step sha256 collation a).1.index collation).Has e ↔ index.Has e ∨ t.Stages e := by
  obtain ⟨i, f, rfl, hs⟩ := hextends.action
  obtain ⟨other, hother, hadmits⟩ := hextends.index
  cases hother.symm.trans hload
  have hencodes : w.Encodes sha256 collation (.commit i t f) (index.withStaged t) :=
    .commit hs hextends.owns hload hadmits
  have hallows := DurableIndex.allows_of_checkStaged (h.index.sound hload) hadmits.staged
  obtain ⟨u, hu⟩ := hreaches.index
  rcases step_index sha256 collation w (.commit i t f) with ⟨written, hwritten, hfile⟩ | ⟨hnone, -⟩
  · cases hencodes.unique hwritten
    have hdone : (Action.commit i t f).faults.indexWrite = .done := hreaches.indexWrite
    rw [StoreWorld.index, hfile, DurableIndex.fileAfter, hu, hdone]
    simp only [Write.file, DurableIndex.stored_written collation (hencodes.sound h.index) hu]
    rw [(DurableIndex.normalized_same collation (hencodes.sound h.index)).has,
      DurableIndex.has_withStaged hallows]
  · exact absurd hencodes (hnone _)

/-- **A step of which the copies are backed leaves no journal ahead of the index.** -/
theorem Indexed.step {w : StoreWorld} (hsound : w.Sound sha256 collation)
    (h : w.Indexed sha256 collation consumed) {a : Action} (ha : w.Accounts consumed a)
    (hbacked : w.Backed sha256 collation consumed a) :
    w.StaysIndexed sha256 collation consumed a := by
  rintro cycleId e (hactive | harchived)
  · rcases active_step hsound a cycleId with hsame | ⟨hgone, -⟩ |
      ⟨s, t, u, hextends, hu, hfile, index, hload, hreaches⟩
    · rw [activeJournal_congr hsame] at hactive
      exact index_keeps sha256 hsound.index a (h cycleId e (.inl hactive))
    · rw [activeJournal_none hgone] at hactive
      exact absurd hactive consumes_nil
    · rw [hextends.has hsound hload hreaches]
      rw [hextends.journal hsound hu hfile] at hactive
      obtain ⟨i, f, rfl, hs⟩ := hextends.action
      obtain ⟨other, hother, hadmits⟩ := hextends.index
      cases hother.symm.trans hload
      have hcycle := hextends.cycle
      subst hcycle
      rcases consumes_append hactive with hold | ⟨before, entry, after, hsplit, he⟩
      · exact hbacked s _ hs hload hextends.owns hadmits hreaches e hold
      · exact .inr (ha s hs before entry after hsplit e he)
  · rcases archive_step hsound a cycleId with hsame | ⟨s, t, hseals, hwrite, hfile⟩
    · rw [archivedJournal_congr hsame] at harchived
      exact index_keeps sha256 hsound.index a (h cycleId e (.inr harchived))
    · rw [hseals.journal hsound hfile] at harchived
      obtain ⟨i, now, f, rfl, hs, ht⟩ := hseals.action
      obtain ⟨index, hload, harchives⟩ := hseals.index
      have hhas := hbacked s index t hs hload harchives ht hwrite e harchived
      rw [index_loaded hsound.index hload] at hhas
      exact index_keeps sha256 hsound.index _ hhas

/-- The active file after the writes of a commit came to it. -/
theorem Extends.file {w : StoreWorld} {a : Action} {cycleId : Text} {s : DurableCycleStore}
    {t : DurableCycleTransaction} {index : DurableIndex}
    (hextends : Extends sha256 collation w a cycleId s t)
    (hload : DurableIndex.loadIndex collation w.disk.index = .ok index)
    (hreaches : Reaches sha256 collation s index t a.faults) :
    ∃ u, serializeActiveCycle sha256 (s.hot.extended t.inner) = .ok u ∧
      (w.step sha256 collation a).1.disk.active.find cycleId = some u := by
  obtain ⟨i, f, rfl, hs⟩ := hextends.action
  obtain ⟨other, hother, hadmits⟩ := hextends.index
  cases hother.symm.trans hload
  obtain ⟨u, hu⟩ := hreaches.cycle
  refine ⟨u, hu, ?_⟩
  rw [step, onStore_disk hs]
  rcases DurableCycleStore.commit_cases sha256 collation s w.disk t f
    with ⟨e, -, -, -, -, hnot⟩ | ⟨loaded, hloaded, -, -, hcommit⟩
  · exact absurd hadmits (hnot index hload hextends.owns)
  cases hloaded.symm.trans hload
  have hindex : DurableCycleStore.indexOutcome collation (index.withStaged t) f.indexWrite = .ok () :=
    DurableCycleStore.indexOutcome_eq_ok.mpr ⟨hreaches.index, hreaches.indexWrite⟩
  have hown := DurableCycleStore.readCycle_committed_own s t
  have hname : (s.hot.extended t.inner).cycleId = cycleId := hextends.cycle
  rw [hcommit, DurableCycleStore.persist_disk]
  simp only [hown, hindex, DurableCycleStore.activeAfter, hu, hname]
  cases hwrite : f.activeWrite with
  | failed => exact absurd hwrite hreaches.activeWrite
  | done | unsynced => simp [Write.file]

/-- Only a commit adds evidence to the index. -/
theorem index_has_of_not_commit {w : StoreWorld} (h : IndexOk collation w.disk.index) {a : Action}
    (hnot : ∀ i t f, a ≠ .commit i t f) {e : Evidence}
    (he : ((w.step sha256 collation a).1.index collation).Has e) : (w.index collation).Has e := by
  rcases index_step h a with hsame | ⟨written, hencodes, hsame⟩
  · rwa [hsame] at he
  · refine ((hencodes.has h e).mp ((hsame.has e).mp he)).resolve_right ?_
    rintro ⟨i, t, f, rfl, -⟩
    exact hnot i t f rfl

/-- **A step that leaves no journal ahead of the index is one of which the copies are
backed.** -/
theorem StaysIndexed.backed {w : StoreWorld} (hsound : w.Sound sha256 collation) {a : Action}
    (h : w.StaysIndexed sha256 collation consumed a) : w.Backed sha256 collation consumed a := by
  cases a with
  | commit i t f =>
    intro s index hs hload howns hadmits hreaches e he
    have hextends : Extends sha256 collation w (.commit i t f) t.inner.cycleId s t :=
      ⟨⟨i, f, rfl, hs⟩, rfl, howns, index, hload, hadmits⟩
    obtain ⟨u, hu, hfile⟩ := hextends.file hload hreaches
    have hhas := h t.inner.cycleId e (.inl (by
      rw [hextends.journal hsound hu hfile]
      exact he.append))
    exact (hextends.has hsound hload hreaches e).mp hhas
  | archiveCycle i cycleId now f =>
    intro s index t hs hload harchives ht hwrite e he
    have hseals : Seals sha256 collation w (.archiveCycle i cycleId now f) cycleId s t :=
      ⟨⟨i, now, f, rfl, hs, ht⟩, index, hload, harchives⟩
    have hfile := hseals.file hwrite
    have hhas := h cycleId e (.inr (by rwa [hseals.journal hsound hfile]))
    rw [index_loaded hsound.index hload]
    exact index_has_of_not_commit hsound.index (by simp) hhas
  | «open» | reserveGlobalKey _ _ _ _ | readGlobalKey _ _ | releaseGlobalKey _ _ _ _ => trivial

/-! ## What a run keeps -/

/-- Two commits that return stage no evidence that contradicts each other. -/
def Agree (sha256 : Bytes → Bytes) (collation : Collation) (w : StoreWorld) (a : Action)
    (w' : StoreWorld) (b : Action) : Prop :=
  ∀ i t f i' t' f', a = .commit i t f → (w.step sha256 collation a).2 = .ok () →
    b = .commit i' t' f' → (w'.step sha256 collation b).2 = .ok () →
    ∀ e e', t.Stages e → t'.Stages e' → e.Agrees e'

/-- A commit that returns has its evidence in the index. -/
theorem commit_has {w : StoreWorld} (h : w.Sound sha256 collation) {i : Nat}
    {t : DurableCycleTransaction} {f : Faults}
    (hok : (w.step sha256 collation (.commit i t f)).2 = .ok ()) {e : Evidence} (he : t.Stages e) :
    ((w.step sha256 collation (.commit i t f)).1.index collation).Has e := by
  obtain ⟨s, _, hs, houtcome⟩ := onStore_ok hok
  rcases DurableCycleStore.commit_cases sha256 collation s w.disk t f
    with ⟨error, herror, -⟩ | ⟨index, hload, howns, hadmits, hcommit⟩
  · rw [houtcome] at herror
    cases herror
  rw [hcommit] at houtcome
  rcases DurableCycleStore.persist_cases sha256 collation
    { s with hot := s.hot.committed t.inner, index := index.withStaged t } w.disk
    t.inner.cycleId f with ⟨u, v, hu, hv, hdone, hdone', -⟩ | ⟨error, herror, -⟩
  · simp only [DurableCycleStore.readCycle_committed_own] at hv
    have hextends : Extends sha256 collation w (.commit i t f) t.inner.cycleId s t :=
      ⟨⟨i, f, rfl, hs⟩, rfl, howns, index, hload, hadmits⟩
    have hreaches : Reaches sha256 collation s index t f :=
      ⟨⟨u, hu⟩, hdone, ⟨v, hv⟩, by rw [hdone']; decide⟩
    exact (hextends.has h hload hreaches e).mpr (.inr he)
  · rw [houtcome] at herror
    cases herror

/-- **Evidence is consumed once and no reservation is overwritten; and the journals on disk
consume nothing that the index lacks exactly as long as no object writes a copy that it
could not write to the index before.** -/
theorem evidence_consumed_once (sha256 : Bytes → Bytes) (collation : Collation)
    (consumed : List Value → Value → List Evidence) (events : List Action) :
    (∀ before a later b after, events = before ++ a :: later ++ b :: after →
      Agree sha256 collation (stateAfterRun (step sha256 collation) empty before) a
        (stateAfterRun (step sha256 collation) empty (before ++ a :: later)) b) ∧
    EveryStep (step sha256 collation) (KeepsOwners sha256 collation) empty events ∧
    (EveryStep (step sha256 collation) (Accounts consumed) empty events →
      (EveryStep (step sha256 collation) (StaysIndexed sha256 collation consumed) empty events ↔
        EveryStep (step sha256 collation) (Backed sha256 collation consumed) empty events)) := by
  have hsound : ∀ before, (stateAfterRun (step sha256 collation) empty before).Sound sha256 collation :=
    run_invariant empty_sound fun w a h => step_sound w a h
  refine ⟨?_, fun before a after _ => keepsOwners (hsound before).index a, fun haccounts => ?_⟩
  · rintro before a later b after - i t f i' t' f' rfl hok rfl hok' e e' he he'
    have hw := hsound before
    have hw' := hsound (before ++ .commit i t f :: later)
    -- the evidence of the first commit is still in the index
    have hfirst := commit_has hw hok he
    have hkept : ((stateAfterRun (step sha256 collation) empty
        (before ++ .commit i t f :: later)).index collation).Has e := by
      rw [stateAfterRun_append, stateAfterRun_cons]
      exact run_stable (I := fun w => w.Sound sha256 collation)
        (P := fun w => (w.index collation).Has e) (step_sound _ _ hw) hfirst
        (fun w a h => step_sound w a h) (fun w a h => index_keeps sha256 h.index a) later
    have hsecond := commit_has hw' hok' he'
    have hstill := index_keeps sha256 hw'.index (.commit i' t' f') hkept
    exact (index_sound (step_sound _ _ hw').index).agrees hstill hsecond
  · constructor
    · exact fun h before a after hsplit => (h before a after hsplit).backed (hsound before)
    · intro h
      have hboth : EveryStep (step sha256 collation) (fun w a => w.Accounts consumed a ∧
          w.Backed sha256 collation consumed a) empty events :=
        fun before a after hsplit => ⟨haccounts before a after hsplit, h before a after hsplit⟩
      have hempty : empty.Indexed sha256 collation consumed := by
        rintro cycleId e (hactive | harchived)
        · exact absurd hactive consumes_nil
        · exact absurd harchived consumes_nil
      exact everyStep_imp (I := fun w => w.Sound sha256 collation ∧
          w.Indexed sha256 collation consumed) ⟨empty_sound, hempty⟩
        (fun w a hw ha => ⟨step_sound w a hw.1, hw.2.step hw.1 ha.1 ha.2⟩)
        (fun w a hw ha => hw.2.step hw.1 ha.1 ha.2) hboth

/-! ## A commit that is tried once -/

def sampleDigest (n : Nat) : Text :=
  text "sha256:" ++ List.replicate 63 48 ++ natText n

/-- What the first event of the cycle consumes. -/
def sampleAuthorization : AuthorizationRecord where
  key := sampleDigest 1
  nonceKey := sampleDigest 2
  cycleId := text "cycle-1"
  actionKind := text "payout"
  authorizationKind := text "sign"
  actionDigest := sampleDigest 3
  subjectDigest := sampleDigest 4
  commitment := sampleDigest 5
  validatedAt := text "2026-01-01T00:00:00.000Z"

theorem sampleAuthorization_valid : sampleAuthorization.Valid := by
  refine ⟨by constructor <;> decide +kernel, ?_⟩
  have hcheck : (canonicalJson sampleAuthorization.toValue).toOption.any (fun _ => true) = true := by
    decide +kernel
  obtain ⟨t, ht, -⟩ := exists_ok_of_check hcheck
  exact ⟨t, ht⟩

def sampleAuthorizations : Record AuthorizationRecord :=
  Record.empty.set sampleAuthorization.key sampleAuthorization

theorem mem_sampleAuthorizations {e : Text × AuthorizationRecord}
    (h : e ∈ sampleAuthorizations.entries) : e = (sampleAuthorization.key, sampleAuthorization) :=
  List.mem_singleton.mp h

theorem sampleAuthorizations_ok :
    ∀ e ∈ sampleAuthorizations.entries, e.2.key = e.1 ∧ e.2.Valid := by
  intro e he
  rw [mem_sampleAuthorizations he]
  exact ⟨rfl, sampleAuthorization_valid⟩

theorem sampleAuthorizations_nonces : ∀ e ∈ sampleAuthorizations.entries,
    ∀ e' ∈ sampleAuthorizations.entries, e.2.nonceKey = e'.2.nonceKey → e.1 = e'.1 := by
  intro e he e' he' _
  rw [mem_sampleAuthorizations he, mem_sampleAuthorizations he']

/-- The first event of a cycle and what it consumes. -/
def sampleConsuming : DurableCycleTransaction :=
  { sampleOpening with
    inner := { sampleOpening.inner with
      authorizations := sampleAuthorizations
      authorizationsOk := sampleAuthorizations_ok
      noncesOk := sampleAuthorizations_nonces } }

theorem sampleSecond_distinct : (Value.object sampleSecond).distinctKeys := by
  decide

/-- The second event, which consumes nothing. -/
def sampleContinuation : DurableCycleTransaction :=
  .ofEvents 0 0 (text "cycle-1") sampleCycle_isIdentifier 1 sampleFirstDigest
    [⟨.object sampleSecond, sampleSecond_distinct⟩]

def sampleConsumed : List Value → Value → List Evidence
  | [], _ => [.authorization sampleAuthorization]
  | _ :: _, _ => []

theorem sampleConsuming_accounts (w : StoreWorld) (i : Nat) (f : Faults) :
    w.Accounts sampleConsumed (.commit i sampleConsuming f) := by
  intro s _ before entry after _ e he
  cases hjournal : s.journal sampleConsuming.inner.cycleId ++ before with
  | nil =>
    rw [hjournal] at he
    rw [List.mem_singleton.mp he]
    have hstaged : sampleConsuming.inner.authorizations.find sampleAuthorization.key
        = some sampleAuthorization := by decide +kernel
    exact hstaged
  | cons _ _ =>
    rw [hjournal] at he
    cases he

/-- The index cannot be written at first, and the object goes on with the next event. -/
def sampleRetry : List Action :=
  [.open, .commit 0 sampleConsuming { indexWrite := .failed }, .commit 0 sampleContinuation {}]

/-- The file of the cycle has the event and the index lacks what it consumes. -/
theorem evidence_left_behind :
    EveryStep (step sampleEntryHash unitCollation) (Accounts sampleConsumed) empty sampleRetry ∧
    ¬ EveryStep (step sampleEntryHash unitCollation)
      (StaysIndexed sampleEntryHash unitCollation sampleConsumed) empty sampleRetry := by
  constructor
  · refine everyStep_cons.mpr ⟨trivial, everyStep_cons.mpr ⟨sampleConsuming_accounts _ _ _,
      everyStep_cons.mpr ⟨?_, everyStep_nil⟩⟩⟩
    intro s hs before entry after _ e he
    have hcopies : ((((empty.step sampleEntryHash unitCollation .open).1.step sampleEntryHash
        unitCollation (.commit 0 sampleConsuming { indexWrite := .failed })).1.stores[0]?).all
        fun s => !(s.journal (text "cycle-1")).isEmpty) = true := by decide +kernel
    rw [hs] at hcopies
    cases hjournal : s.journal (text "cycle-1") with
    | nil => simp [hjournal] at hcopies
    | cons first rest =>
      rw [show sampleContinuation.inner.cycleId = text "cycle-1" from rfl, hjournal] at he
      cases he
  · intro h
    have hlast := h [.open, .commit 0 sampleConsuming { indexWrite := .failed }]
      (.commit 0 sampleContinuation {}) [] rfl
    have hconsumes : Consumes sampleConsumed ((stateAfterRun (step sampleEntryHash unitCollation)
        empty sampleRetry).disk.activeJournal sampleEntryHash (text "cycle-1"))
        (.authorization sampleAuthorization) := by
      have hwritten : ((stateAfterRun (step sampleEntryHash unitCollation)
          empty sampleRetry).disk.activeJournal sampleEntryHash (text "cycle-1")).length = 2 := by
        decide +kernel
      obtain ⟨first, rest, hjournal⟩ := List.exists_cons_of_length_pos (hwritten.ge.trans' Nat.two_pos)
      exact ⟨[], first, rest, hjournal, List.mem_singleton.mpr rfl⟩
    have hlacks : (((stateAfterRun (step sampleEntryHash unitCollation) empty sampleRetry).index
        unitCollation).authorizations.find sampleAuthorization.key).isNone = true := by
      decide +kernel
    have hhas : ((stateAfterRun (step sampleEntryHash unitCollation) empty sampleRetry).index
        unitCollation).authorizations.find sampleAuthorization.key = some sampleAuthorization :=
      hlast (text "cycle-1") _ (.inl hconsumes)
    rw [hhas] at hlacks
    cases hlacks

/-- When the index is written, it has what the event consumes. -/
theorem evidence_consumed_once_sample : EveryStep (step sampleEntryHash unitCollation)
    (StaysIndexed sampleEntryHash unitCollation sampleConsumed) empty
    [.open, .commit 0 sampleConsuming {}] := by
  refine ((evidence_consumed_once sampleEntryHash unitCollation sampleConsumed
    [.open, .commit 0 sampleConsuming {}]).2.2 ?_).mpr ?_
  · exact everyStep_cons.mpr ⟨trivial, everyStep_cons.mpr ⟨sampleConsuming_accounts _ _ _,
      everyStep_nil⟩⟩
  · refine everyStep_cons.mpr ⟨trivial, everyStep_cons.mpr ⟨?_, everyStep_nil⟩⟩
    intro s index hs _ _ _ _ e he
    have hcopies : (((empty.step sampleEntryHash unitCollation .open).1.stores[0]?).all
        fun s => (s.journal (text "cycle-1")).isEmpty) = true := by decide +kernel
    rw [hs, Option.all_some, List.isEmpty_iff] at hcopies
    rw [show sampleConsuming.inner.cycleId = text "cycle-1" from rfl, hcopies] at he
    exact absurd he consumes_nil

end StoreWorld

end Hookemon.Runner
