import Hookemon.Repository.ChainAttempts

/-! # Journals of many cycles and the global keys (`cycle/durable-store.mjs`)

The journals of all cycles stand beside one index of keys. A commit appends to one journal and
may reserve, replace or release keys; it checks them all against the index and writes the index
before the journal.
-/

namespace Hookemon.Repository

open Hookemon.Core Hookemon.Js Hookemon.Runner

/-! ## Journals -/

section Journals

variable {ε : Type}

/-- The journal of a cycle; a cycle that was never written has the empty one. -/
def journalOf (journals : Record (List ε)) (cycleId : Text) : List ε :=
  (journals.find cycleId).getD []

/-- The journals after an append. -/
def appendTo (journals : Record (List ε)) (cycleId : Text) (events : List ε) : Record (List ε) :=
  journals.set cycleId (journalOf journals cycleId ++ events)

@[simp] theorem journalOf_empty (cycleId : Text) :
    journalOf (Record.empty : Record (List ε)) cycleId = [] := rfl

@[simp] theorem journalOf_set (journals : Record (List ε)) (cycleId other : Text)
    (journal : List ε) : journalOf (journals.set cycleId journal) other
      = if other = cycleId then journal else journalOf journals other := by
  unfold journalOf
  rw [Record.find_set]
  split <;> rfl

@[simp] theorem journalOf_appendTo (journals : Record (List ε)) (cycleId other : Text)
    (events : List ε) : journalOf (appendTo journals cycleId events) other
      = if other = cycleId then journalOf journals cycleId ++ events
        else journalOf journals other :=
  journalOf_set journals cycleId other _

end Journals

/-! ## The life of a cycle -/

/-- What other calls write to the journal of a cycle: one of the two events that end it, or a
record of another family. -/
inductive CycleEvent (ω : Type) where
  | cycleTerminal (terminalState : CycleTerminalState)
  | cycleCompleted
  | record (value : ω)
deriving DecidableEq

/-- What these events say of a cycle. -/
structure CycleLife (ω : Type) where
  records : List ω
  completed : Bool
  terminalState : Option CycleTerminalState
deriving DecidableEq

namespace CycleLife

variable {ω : Type} (others : OtherRecords ω)

def empty : CycleLife ω := ⟨[], false, none⟩

/-- Whether a record may come now. -/
def assertAllowed (s : CycleLife ω) (afterTerminal afterCompletion : Bool) : Except String Unit :=
  assertRecordAllowed s.terminalState s.completed afterTerminal afterCompletion false

/-- `#replayStored`, of these events. -/
def apply (s : CycleLife ω) (e : CycleEvent ω) : Except String (CycleLife ω) :=
  match e with
  | .cycleTerminal terminalState => do
    assertRecordAllowed s.terminalState s.completed false false true
    return { s with terminalState := some terminalState }
  | .cycleCompleted => do
    assertRecordAllowed s.terminalState s.completed false false true
    others.assertClosure s.records
    return { s with completed := true, terminalState := some .completed }
  | .record value => do
    s.assertAllowed (others.afterTerminal value) (others.afterCompletion value)
    return { s with records := s.records ++ [value] }

/-- A completed cycle stays completed in the same way. -/
theorem completed_of_apply {others : OtherRecords ω} {life next : CycleLife ω} {e : CycleEvent ω}
    (hcompleted : life.completed → life.terminalState = some .completed)
    (h : life.apply others e = .ok next) :
    next.completed → next.terminalState = some .completed := by
  cases e with
  | cycleTerminal terminalState =>
    obtain ⟨_, hallowed, hnext⟩ := bind_eq_ok.mp h
    rw [assertRecordAllowed_ok] at hallowed
    rw [← pure_eq_ok.mp hnext]
    intro hdone
    have hterminal := hcompleted hdone
    rcases hallowed with hnone | ⟨hfalse, -⟩
    · rw [hnone] at hterminal
      cases hterminal
    · cases hfalse
  | cycleCompleted =>
    obtain ⟨_, -, h⟩ := bind_eq_ok.mp h
    obtain ⟨_, -, hnext⟩ := bind_eq_ok.mp h
    rw [← pure_eq_ok.mp hnext]
    exact fun _ => rfl
  | record value =>
    obtain ⟨_, -, hnext⟩ := bind_eq_ok.mp h
    rw [← pure_eq_ok.mp hnext]
    exact hcompleted

end CycleLife

/-! ## The clock -/

/-- `currentRepositoryTime`. -/
def currentRepositoryTime (now : Nat) : Except String Nat := do
  throwIf (maxSafeInteger < (now : Int)) "cycle-repository clock returned an invalid lease time"
  return now

theorem currentRepositoryTime_ok {clock now : Nat} :
    currentRepositoryTime clock = .ok now ↔ (clock : Int) ≤ maxSafeInteger ∧ now = clock := by
  unfold currentRepositoryTime
  simp only [bind_eq_ok, revertIf_eq_ok, pure_eq_ok, not_lt]
  constructor
  · rintro ⟨_, hsafe, hnow⟩
    exact ⟨hsafe, hnow.symm⟩
  · rintro ⟨hsafe, hnow⟩
    exact ⟨(), hsafe, hnow.symm⟩

/-! ## Key operations -/

/-- What a commit does to one global key. -/
inductive KeyOperation (ν : Type) where
  | reserve (key : Text) (value : ν)
  | replace (key : Text) (expectedValue value : ν)
  | release (key : Text) (expectedValue : ν)

namespace KeyOperation

variable {ν : Type} [DecidableEq ν]

/-- `checkGlobalKeyAgainstDurableIndex` and its twins for replacements and releases. -/
def check (index : Record ν) : KeyOperation ν → Except String Unit
  | .reserve key value => throwIf (index.find key ≠ none ∧ index.find key ≠ some value)
      "durable global reservation key is already reserved by a different value"
  | .replace key expectedValue _ => throwIf (index.find key ≠ some expectedValue)
      "durable global reservation key changed before replacement"
  | .release key expectedValue => throwIf (index.find key ≠ some expectedValue)
      "durable global reservation key changed before release"

omit [DecidableEq ν] in
/-- The index after an operation. -/
def perform (index : Record ν) : KeyOperation ν → Record ν
  | .reserve key value => index.set key value
  | .replace key _ value => index.set key value
  | .release key _ => index.erase key

/-- All operations are checked before the first one is made. -/
def performAll (index : Record ν) (operations : List (KeyOperation ν)) :
    Except String (Record ν) := do
  operations.forM fun operation => operation.check index
  return operations.foldl perform index

end KeyOperation

section KeyOperations

variable {ν : Type} [DecidableEq ν] {index after : Record ν}

omit [DecidableEq ν] in
/-- A loop of checks goes through when each of them does. -/
theorem forM_eq_ok {α : Type} {xs : List α} {f : α → Except String Unit} :
    xs.forM f = .ok () ↔ ∀ x ∈ xs, f x = .ok () := by
  induction xs with
  | nil => simp [List.forM]
  | cons x rest ih =>
    change (f x >>= fun _ => rest.forM f) = .ok () ↔ _
    rw [List.forall_mem_cons, ← ih, bind_eq_ok]
    exact ⟨fun ⟨_, hfirst, hrest⟩ => ⟨hfirst, hrest⟩, fun ⟨hfirst, hrest⟩ => ⟨(), hfirst, hrest⟩⟩

omit [DecidableEq ν] in
/-- What a map over a list that goes through has found for each element. -/
theorem exists_of_mapM_ok {α β : Type} {f : α → Except String β} {xs : List α} {ys : List β}
    (h : xs.mapM f = .ok ys) : ∀ x ∈ xs, ∃ y ∈ ys, f x = .ok y := by
  induction xs generalizing ys with
  | nil => exact fun x hx => absurd hx List.not_mem_nil
  | cons x rest ih =>
    rw [List.mapM_cons] at h
    obtain ⟨y, hfirst, h⟩ := bind_eq_ok.mp h
    obtain ⟨more, hrest, h⟩ := bind_eq_ok.mp h
    rw [← pure_eq_ok.mp h, List.forall_mem_cons]
    refine ⟨⟨y, List.mem_cons_self, hfirst⟩, ?_⟩
    intro z hz
    obtain ⟨w, hw, hfound⟩ := ih hrest z hz
    exact ⟨w, List.mem_cons_of_mem y hw, hfound⟩

omit [DecidableEq ν] in
/-- A map over a list goes through when each element does, and finds nothing else. -/
theorem mapM_ok_of_forall {α β : Type} {f : α → Except String β} {xs : List α}
    (h : ∀ x ∈ xs, ∃ y, f x = .ok y) :
    ∃ ys, xs.mapM f = .ok ys ∧ ∀ y ∈ ys, ∃ x ∈ xs, f x = .ok y := by
  induction xs with
  | nil => exact ⟨[], rfl, fun y hy => absurd hy List.not_mem_nil⟩
  | cons x rest ih =>
    rw [List.forall_mem_cons] at h
    obtain ⟨y, hfirst⟩ := h.1
    obtain ⟨ys, hrest, hfound⟩ := ih h.2
    refine ⟨y :: ys, ?_, ?_⟩
    · rw [List.mapM_cons, hfirst, ok_bind, hrest]
      rfl
    · rw [List.forall_mem_cons]
      refine ⟨⟨x, List.mem_cons_self, hfirst⟩, ?_⟩
      intro z hz
      obtain ⟨w, hw, heq⟩ := hfound z hz
      exact ⟨w, List.mem_cons_of_mem x hw, heq⟩

theorem performAll_ok {operations : List (KeyOperation ν)} :
    KeyOperation.performAll index operations = .ok after ↔
      (∀ operation ∈ operations, operation.check index = .ok ()) ∧
        after = operations.foldl KeyOperation.perform index := by
  unfold KeyOperation.performAll
  rw [← forM_eq_ok]
  simp only [bind_eq_ok, pure_eq_ok]
  constructor
  · rintro ⟨_, hall, hafter⟩
    exact ⟨hall, hafter.symm⟩
  · rintro ⟨hall, hafter⟩
    exact ⟨(), hall, hafter.symm⟩

theorem check_reserve {key : Text} {value : ν} :
    (KeyOperation.reserve key value).check index = .ok () ↔
      index.find key = none ∨ index.find key = some value := by
  unfold KeyOperation.check
  rw [revertIf_eq_ok]
  tauto

theorem check_replace {key : Text} {expectedValue value : ν} :
    (KeyOperation.replace key expectedValue value).check index = .ok () ↔
      index.find key = some expectedValue := by
  unfold KeyOperation.check
  rw [revertIf_eq_ok, ne_eq, not_not]

theorem check_release {key : Text} {expectedValue : ν} :
    (KeyOperation.release key expectedValue).check index = .ok () ↔
      index.find key = some expectedValue := by
  unfold KeyOperation.check
  rw [revertIf_eq_ok, ne_eq, not_not]

end KeyOperations

/-! ## Samples -/

/-- A digest of one repeated unit. -/
def sampleDigest (c : UInt16) : Text := text "sha256:" ++ List.replicate 64 c

/-- Records of other families that say nothing and end with the cycle. -/
def silentRecords : OtherRecords Unit := ⟨fun _ => false, fun _ => false, fun _ => .ok ()⟩

end Hookemon.Repository
