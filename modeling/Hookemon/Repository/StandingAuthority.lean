import Hookemon.Js.Date
import Hookemon.Repository.GlobalKeys

/-! # Standing authority decisions (`app/cycle-repository.mjs`)

A standing authority allows a number of cycles a day. The first use of an intent is recorded in
the journal of its cycle, with one of the numbered slots of the day and with the nonce of the
authority, both reserved as global keys by the same commit.

Any number of processes work on the same store. Each has its own copy of the journals, made
when it opened the store; the index of keys is read anew by each operation.
-/

namespace Hookemon.Repository

open Hookemon.Core Hookemon.Js Hookemon.Runner

/-! ## Decisions (`cycle/money-schemas.mjs`) -/

structure DayCapReservation where
  day : Text
  reservationKey : Text
deriving DecidableEq, Repr

structure NonceReservation where
  nonce : Text
  reservationKey : Text
deriving DecidableEq, Repr

structure StandingAuthorityDecision where
  authorityDigest : Text
  verifiedAt : Text
  intentDigest : Text
  dayCapReservation : DayCapReservation
  nonceReservation : NonceReservation
deriving DecidableEq, Repr

/-- A day that is the start of a timestamp has the shape of a day. -/
def assertStandingAuthorityDecision (value : StandingAuthorityDecision) (label : String) :
    Except String Unit := do
  assertDigest value.authorityDigest (label ++ " authorityDigest")
  throwIf (value.verifiedAt.length ≠ 24 ∨ ¬ isISOString value.verifiedAt)
    (label ++ " verifiedAt is invalid")
  assertDigest value.intentDigest (label ++ " intentDigest")
  throwIf (value.dayCapReservation.day ≠ value.verifiedAt.take 10)
    (label ++ " dayCapReservation day must equal the verifiedAt day")
  assertDigest value.dayCapReservation.reservationKey (label ++ " dayCapReservation reservationKey")
  throwIf (¬ isIdentifier value.nonceReservation.nonce)
    (label ++ " nonceReservation nonce is invalid")
  assertDigest value.nonceReservation.reservationKey (label ++ " nonceReservation reservationKey")

def assertMaxCyclesPerDay (value : Nat) : Except String Unit :=
  throwIf (value = 0 ∨ 10000 < value) "standing authority maxCyclesPerDay is invalid"

/-- The value of the two keys of a decision. -/
structure AuthorityOwner where
  cycleId : Text
  intentDigest : Text
  authorityDigest : Text
deriving DecidableEq, Repr

def authorityOwner (cycleId : Text) (decision : StandingAuthorityDecision) : AuthorityOwner :=
  ⟨cycleId, decision.intentDigest, decision.authorityDigest⟩

def nonceKey (decision : StandingAuthorityDecision) : Text :=
  text "standing-authority-nonce:" ++ decision.nonceReservation.reservationKey

def dayKey (decision : StandingAuthorityDecision) (slot : Nat) : Text :=
  text "standing-authority-day:" ++ decision.authorityDigest ++ text ":"
    ++ decision.dayCapReservation.day ++ text ":" ++ natText slot

/-! ## Journals -/

inductive AuthorityEvent (ω : Type) where
  | standingAuthorityDecisionRecorded (decision : StandingAuthorityDecision)
  | other (e : CycleEvent ω)
deriving DecidableEq

structure AuthorityState (ω : Type) where
  standingAuthorityDecisions : List StandingAuthorityDecision
  life : CycleLife ω

namespace AuthorityState

variable {ω : Type} (others : OtherRecords ω) (s : AuthorityState ω)

def empty : AuthorityState ω := ⟨[], .empty⟩

/-- `standingAuthorityDecisions.get`. -/
def decisionFor (intentDigest : Text) : Option StandingAuthorityDecision :=
  s.standingAuthorityDecisions.find? (·.intentDigest = intentDigest)

def replayDecision (decision : StandingAuthorityDecision) : Except String (AuthorityState ω) := do
  s.life.assertAllowed false false
  assertStandingAuthorityDecision decision "stored standing authority decision"
  match s.decisionFor decision.intentDigest with
  | some previous => do
    throwIf (previous ≠ decision) "stored standing authority decision conflicts with prior decision"
    return s
  | none =>
    .ok { s with standingAuthorityDecisions := s.standingAuthorityDecisions ++ [decision] }

/-- `#replayStored`, one entry. -/
def apply (e : AuthorityEvent ω) : Except String (AuthorityState ω) :=
  match e with
  | .standingAuthorityDecisionRecorded decision => s.replayDecision decision
  | .other e => do
    let life ← s.life.apply others e
    return { s with life := life }

end AuthorityState

/-- `#replay`. -/
def authorityReplay {ω : Type} (others : OtherRecords ω) (journal : List (AuthorityEvent ω)) :
    Except String (AuthorityState ω) :=
  replay (fun s e => AuthorityState.apply others s e) .empty journal

/-! ## The store -/

/-- The journals on disk, the journals that each process has in memory, and the global keys. -/
structure AuthorityStore (ι : Type) (ω : Type) where
  files : Record (List (AuthorityEvent ω))
  copies : ι → Record (List (AuthorityEvent ω))
  index : Record AuthorityOwner

/-- The store of an empty directory. -/
def AuthorityStore.empty {ι : Type} {ω : Type} : AuthorityStore ι ω :=
  ⟨.empty, fun _ => .empty, .empty⟩

/-- What the calls share: the cap they pass, the records of other families and the bounds of a
journal. -/
structure AuthorityContext (ω : Type) where
  maxCyclesPerDay : Nat
  others : OtherRecords ω
  fits : List (AuthorityEvent ω) → AuthorityEvent ω → Bool

inductive AuthorityRequest (ω : Type) where
  | recordStandingAuthorityDecision (decision : StandingAuthorityDecision)
  | readStandingAuthorityDecision (intentDigest : Text)
  | append (e : CycleEvent ω)

/-- A call of a process about a cycle. When `dies` is set, the process dies after it has written
the index and before it writes the journal. -/
structure AuthorityCall (ι : Type) (ω : Type) where
  process : ι
  cycleId : Text
  request : AuthorityRequest ω
  dies : Bool

/-- The decision with the key of its slot, or the event of another call. -/
inductive AuthorityWrite (ω : Type) where
  | decision (decision : StandingAuthorityDecision) (dayKey : Text)
  | append (e : CycleEvent ω)

/-- What a call keeps after reading. -/
structure AuthorityKept (ι : Type) (ω : Type) where
  process : ι
  cycleId : Text
  write : AuthorityWrite ω
  dies : Bool

inductive AuthorityAnswer where
  | decided (cycleId : Text) (decision : StandingAuthorityDecision)
  | found (decision : Option StandingAuthorityDecision)
  | recorded
  | died
deriving DecidableEq

section Calls

variable {ι : Type} [DecidableEq ι] {ω : Type} (X : AuthorityContext ω) (s : AuthorityStore ι ω)

omit [DecidableEq ι] in
/-- `#standingAuthorityDecisions`, of the cycles that the process knows. -/
def knownDecisions (copy : Record (List (AuthorityEvent ω))) :
    Except String (List StandingAuthorityDecision) := do
  let states ← copy.entries.mapM fun entry => authorityReplay X.others entry.2
  return states.flatMap fun state => state.standingAuthorityDecisions

/-- The first slot of the day that is free or the owner's own. -/
def freeSlot (index : Record AuthorityOwner) (cycleId : Text)
    (decision : StandingAuthorityDecision) : Option Nat :=
  (List.range X.maxCyclesPerDay).find? fun slot =>
    index.find (dayKey decision slot) = none ∨
      index.find (dayKey decision slot) = some (authorityOwner cycleId decision)

/-- `recordStandingAuthorityDecision`, one attempt of the loop up to the append. -/
def recordStandingAuthorityDecision (process : ι) (cycleId : Text)
    (decision : StandingAuthorityDecision) :
    Except String (Reading (AuthorityWrite ω) AuthorityAnswer) := do
  assertStandingAuthorityDecision decision "standing authority decision"
  assertMaxCyclesPerDay X.maxCyclesPerDay
  let state ← authorityReplay X.others (journalOf (s.copies process) cycleId)
  assertNotTerminal state.life.terminalState "recordStandingAuthorityDecision"
  match state.decisionFor decision.intentDigest with
  | some current => do
    throwIf (current ≠ decision)
      "cycle-repository recordStandingAuthorityDecision: authority decision conflict"
    return .answer (.decided cycleId current)
  | none => do
    let decisions ← knownDecisions X (s.copies process)
    decisions.forM fun known => do
      throwIf (known.intentDigest = decision.intentDigest)
        ("cycle-repository recordStandingAuthorityDecision: intent is already reserved by another"
          ++ " cycle")
      throwIf (known.nonceReservation.reservationKey = decision.nonceReservation.reservationKey)
        ("cycle-repository recordStandingAuthorityDecision: authority nonce reservation is already"
          ++ " used")
    let usedToday := (decisions.filter fun known =>
      known.authorityDigest = decision.authorityDigest ∧
        known.dayCapReservation.day = decision.dayCapReservation.day).length
    throwIf (X.maxCyclesPerDay ≤ usedToday)
      ("cycle-repository recordStandingAuthorityDecision: authority day cap reservation is"
        ++ " exhausted")
    throwIf (s.index.find (nonceKey decision) ≠ none ∧
        s.index.find (nonceKey decision) ≠ some (authorityOwner cycleId decision))
      ("cycle-repository recordStandingAuthorityDecision: authority nonce reservation is already"
        ++ " used")
    let slot ← required (freeSlot X s.index cycleId decision)
      ("cycle-repository recordStandingAuthorityDecision: authority day cap reservation is"
        ++ " exhausted")
    return .keep (.decision decision (dayKey decision slot))

/-- What a call reads, and what it keeps of it. -/
def authorityRead (c : AuthorityCall ι ω) :
    Except String (Reading (AuthorityKept ι ω) AuthorityAnswer) :=
  match c.request with
  | .recordStandingAuthorityDecision decision => do
    let reading ← recordStandingAuthorityDecision X s c.process c.cycleId decision
    match reading with
    | .answer r => return .answer r
    | .keep write => return .keep ⟨c.process, c.cycleId, write, c.dies⟩
  | .readStandingAuthorityDecision intentDigest => do
    assertDigest intentDigest "cycle-repository readStandingAuthorityDecision intentDigest"
    let state ← authorityReplay X.others (journalOf (s.copies c.process) c.cycleId)
    return .answer (.found (state.decisionFor intentDigest))
  | .append e => .ok (.keep ⟨c.process, c.cycleId, .append e, c.dies⟩)

/-- `assertState` of an append, with the event, the operations on the keys and the answer. -/
def authorityAppend (state : AuthorityState ω) (cycleId : Text) : AuthorityWrite ω →
    Except String (AuthorityEvent ω × List (KeyOperation AuthorityOwner) × AuthorityAnswer)
  | .decision decision slotKey => do
    assertNotTerminal state.life.terminalState "recordStandingAuthorityDecision"
    throwIf (state.decisionFor decision.intentDigest ≠ none)
      "cycle-repository recordStandingAuthorityDecision: decision changed while reserving"
    let owner := authorityOwner cycleId decision
    return (.standingAuthorityDecisionRecorded decision,
      [.reserve (nonceKey decision) owner, .reserve slotKey owner], .decided cycleId decision)
  | .append e => .ok (.other e, [], .recorded)

/-- The index is written and the process died. It has the journals of the disk when it is
opened again. -/
def AuthorityStore.indexed (process : ι) (index : Record AuthorityOwner) : AuthorityStore ι ω :=
  ⟨s.files, Function.update s.copies process s.files, index⟩

/-- The index and the journal are written: the copy of the process with the new event. -/
def AuthorityStore.written (process : ι) (cycleId : Text) (e : AuthorityEvent ω)
    (index : Record AuthorityOwner) : AuthorityStore ι ω :=
  let copy := appendTo (s.copies process) cycleId [e]
  ⟨s.files.set cycleId (journalOf copy cycleId), Function.update s.copies process copy, index⟩

/-- `#append`. The journal is the copy of the process, the keys are those of the index. -/
def authorityWrites (p : AuthorityKept ι ω) :
    Except String (List (AuthorityStore ι ω) × AuthorityStore ι ω × AuthorityAnswer) := do
  let journal := journalOf (s.copies p.process) p.cycleId
  let state ← authorityReplay X.others journal
  let (e, operations, answer) ← authorityAppend state p.cycleId p.write
  throwIf (¬ X.fits journal e) "journal limit exceeded"
  let index ← KeyOperation.performAll s.index operations
  if p.dies then return ([], s.indexed p.process index, .died)
  else return ([s.indexed p.process index], s.written p.process p.cycleId e index, answer)

/-- The calls of all processes. Between them a process may open the store. -/
def authorityService : Service (AuthorityStore ι ω) (AuthorityCall ι ω) (AuthorityKept ι ω)
    AuthorityAnswer ι where
  read s c := authorityRead X s c
  writes s p := authorityWrites X s p
  drift s process := { s with copies := Function.update s.copies process s.files }

end Calls

/-! ## What a replayed journal says -/

section Replayed

variable {ω : Type} {others : OtherRecords ω}

/-- The decisions of the state are those of the journal, one for each intent. -/
structure AuthorityAgrees (journal : List (AuthorityEvent ω)) (s : AuthorityState ω) : Prop where
  recorded : ∀ decision, .standingAuthorityDecisionRecorded decision ∈ journal ↔
    decision ∈ s.standingAuthorityDecisions
  distinct : (s.standingAuthorityDecisions.map (·.intentDigest)).Nodup

theorem decisionFor_eq_none {s : AuthorityState ω} {intentDigest : Text} :
    s.decisionFor intentDigest = none ↔
      ∀ decision ∈ s.standingAuthorityDecisions, decision.intentDigest ≠ intentDigest := by
  unfold AuthorityState.decisionFor
  simp [List.find?_eq_none]

theorem decisionFor_eq_some {s : AuthorityState ω} {intentDigest : Text}
    {decision : StandingAuthorityDecision} (h : s.decisionFor intentDigest = some decision) :
    decision ∈ s.standingAuthorityDecisions ∧ decision.intentDigest = intentDigest :=
  ⟨List.mem_of_find?_eq_some h, by simpa using List.find?_some h⟩

theorem authorityAgrees_of_replay {journal : List (AuthorityEvent ω)} {s : AuthorityState ω}
    (h : authorityReplay others journal = .ok s) : AuthorityAgrees journal s := by
  refine replay_invariant (I := AuthorityAgrees) ⟨by simp [AuthorityState.empty], ?_⟩ ?_ h
  · exact List.nodup_nil
  · intro journal s e t hI hstep
    cases e with
    | other e =>
      change (s.life.apply others e >>= fun life => pure { s with life := life }) = .ok t at hstep
      obtain ⟨life, -, hsame⟩ := bind_eq_ok.mp hstep
      rw [← pure_eq_ok.mp hsame]
      constructor
      · intro decision
        simp [hI.recorded decision]
      · exact hI.distinct
    | standingAuthorityDecisionRecorded decision =>
      change s.replayDecision decision = .ok t at hstep
      unfold AuthorityState.replayDecision at hstep
      obtain ⟨_, -, hstep⟩ := bind_eq_ok.mp hstep
      obtain ⟨_, -, hstep⟩ := bind_eq_ok.mp hstep
      cases hprevious : s.decisionFor decision.intentDigest with
      | some previous =>
        -- the same decision again
        rw [hprevious] at hstep
        obtain ⟨_, hequal, hsame⟩ := bind_eq_ok.mp hstep
        rw [← pure_eq_ok.mp hsame]
        have hmem := (decisionFor_eq_some hprevious).1
        rw [revertIf_eq_ok, ne_eq, not_not] at hequal
        constructor
        · intro known
          rw [List.mem_append, hI.recorded known]
          simp only [List.mem_singleton, AuthorityEvent.standingAuthorityDecisionRecorded.injEq]
          constructor
          · rintro (hold | rfl)
            · exact hold
            · exact hequal ▸ hmem
          · exact Or.inl
        · exact hI.distinct
      | none =>
        rw [hprevious] at hstep
        have hsame := Except.ok.inj hstep
        rw [← hsame]
        constructor
        · intro known
          simp [hI.recorded known]
        · simp only [List.map_append, List.map_cons, List.map_nil]
          apply List.Nodup.append hI.distinct (List.nodup_singleton _)
          intro intentDigest hold hnew
          rw [List.mem_singleton] at hnew
          obtain ⟨known, hknown, hintent⟩ := List.mem_map.mp hold
          exact decisionFor_eq_none.mp hprevious known hknown (hintent.trans hnew)

end Replayed

/-! ## What holds of the store -/

section Laws

variable {ι : Type} [DecidableEq ι] {ω : Type} {X : AuthorityContext ω} {s t : AuthorityStore ι ω}
  {process : ι} {cycleId : Text} {decision : StandingAuthorityDecision}

/-- The decision is in the journal of the cycle. -/
def Recorded (s : AuthorityStore ι ω) (cycleId : Text) (decision : StandingAuthorityDecision) :
    Prop :=
  .standingAuthorityDecisionRecorded decision ∈ journalOf s.files cycleId

/-- The key is one of the numbered slots of the day of the decision. -/
def IsSlot (X : AuthorityContext ω) (decision : StandingAuthorityDecision) (key : Text) : Prop :=
  ∃ slot < X.maxCyclesPerDay, key = dayKey decision slot

omit [DecidableEq ι] in
/-- Each recorded decision owns its nonce and a slot of its day. The copies lag behind the
files, and an intent is recorded once. -/
structure AuthorityStore.Sound (X : AuthorityContext ω) (s : AuthorityStore ι ω) : Prop where
  copies : ∀ process cycleId,
    journalOf (s.copies process) cycleId <+: journalOf s.files cycleId
  nonce : ∀ cycleId decision, Recorded s cycleId decision →
    s.index.find (nonceKey decision) = some (authorityOwner cycleId decision)
  slot : ∀ cycleId decision, Recorded s cycleId decision →
    ∃ key, IsSlot X decision key ∧ s.index.find key = some (authorityOwner cycleId decision)
  intent : ∀ cycleId decision cycleId' decision', Recorded s cycleId decision →
    Recorded s cycleId' decision' → decision.intentDigest = decision'.intentDigest →
    cycleId = cycleId' ∧ decision = decision'

omit [DecidableEq ι] in
theorem sound_empty : (AuthorityStore.empty : AuthorityStore ι ω).Sound X where
  copies _ _ := List.prefix_refl _
  nonce _ _ h := absurd h List.not_mem_nil
  slot _ _ h := absurd h List.not_mem_nil
  intent _ _ _ _ h := absurd h List.not_mem_nil

theorem sound_open (h : s.Sound X) (process : ι) :
    AuthorityStore.Sound X
      { s with copies := Function.update s.copies process s.files } where
  copies := by
    intro other cycleId
    by_cases hprocess : other = process
    · subst hprocess
      simp
    · simpa [Function.update_of_ne hprocess] using h.copies other cycleId
  nonce := h.nonce
  slot := h.slot
  intent := h.intent

/-- Keys that keep their owners. -/
def KeysKept (index after : Record AuthorityOwner) : Prop :=
  ∀ key owner, index.find key = some owner → after.find key = some owner

theorem AuthorityStore.Sound.indexed (h : s.Sound X) (process : ι) {index : Record AuthorityOwner}
    (hkeys : KeysKept s.index index) : (s.indexed process index).Sound X where
  copies := (sound_open h process).copies
  nonce cycleId decision hrecorded := hkeys _ _ (h.nonce cycleId decision hrecorded)
  slot := by
    intro cycleId decision hrecorded
    obtain ⟨key, hslot, howner⟩ := h.slot cycleId decision hrecorded
    exact ⟨key, hslot, hkeys _ _ howner⟩
  intent := h.intent

theorem journalOf_written (hcopy : journalOf (s.copies process) cycleId = journalOf s.files cycleId)
    (e : AuthorityEvent ω) (index : Record AuthorityOwner) (other : Text) :
    journalOf (s.written process cycleId e index).files other
      = if other = cycleId then journalOf s.files cycleId ++ [e] else journalOf s.files other := by
  unfold AuthorityStore.written
  simp [hcopy]

theorem recorded_written (hcopy : journalOf (s.copies process) cycleId = journalOf s.files cycleId)
    {e : AuthorityEvent ω} {index : Record AuthorityOwner} {other : Text}
    {decision : StandingAuthorityDecision} :
    Recorded (s.written process cycleId e index) other decision ↔
      Recorded s other decision ∨
        (other = cycleId ∧ e = .standingAuthorityDecisionRecorded decision) := by
  unfold Recorded
  rw [journalOf_written hcopy]
  by_cases hcycle : other = cycleId
  · subst hcycle
    simp [eq_comm]
  · simp [hcycle]

/-- A commit on a current copy, of an event whose decision has its keys and a new intent. -/
theorem AuthorityStore.Sound.written (h : s.Sound X)
    (hcopy : journalOf (s.copies process) cycleId = journalOf s.files cycleId)
    {index : Record AuthorityOwner} (hkeys : KeysKept s.index index) {e : AuthorityEvent ω}
    (hnew : ∀ decision, e = .standingAuthorityDecisionRecorded decision →
      index.find (nonceKey decision) = some (authorityOwner cycleId decision) ∧
      (∃ key, IsSlot X decision key ∧ index.find key = some (authorityOwner cycleId decision)) ∧
      ∀ other known, Recorded s other known → known.intentDigest ≠ decision.intentDigest) :
    (s.written process cycleId e index).Sound X where
  copies := by
    intro reader other
    rw [journalOf_written hcopy]
    by_cases hreader : reader = process
    · subst hreader
      unfold AuthorityStore.written
      simp only [Function.update_self, journalOf_appendTo, hcopy]
      split
      · exact List.prefix_refl _
      · exact h.copies reader other
    · unfold AuthorityStore.written
      simp only [Function.update_of_ne hreader]
      split
      · rename_i hcycle
        rw [hcycle]
        exact (h.copies reader cycleId).trans (List.prefix_append _ _)
      · exact h.copies reader other
  nonce := by
    intro other decision hrecorded
    rcases (recorded_written hcopy).mp hrecorded with hold | ⟨rfl, he⟩
    · exact hkeys _ _ (h.nonce other decision hold)
    · exact (hnew decision he).1
  slot := by
    intro other decision hrecorded
    rcases (recorded_written hcopy).mp hrecorded with hold | ⟨rfl, he⟩
    · obtain ⟨key, hslot, howner⟩ := h.slot other decision hold
      exact ⟨key, hslot, hkeys _ _ howner⟩
    · exact (hnew decision he).2.1
  intent := by
    intro other decision other' decision' hrecorded hrecorded' hintent
    rcases (recorded_written hcopy).mp hrecorded with hold | ⟨rfl, he⟩
    · rcases (recorded_written hcopy).mp hrecorded' with hold' | ⟨rfl, he'⟩
      · exact h.intent other decision other' decision' hold hold' hintent
      · exact absurd hintent ((hnew decision' he').2.2 other decision hold)
    · rcases (recorded_written hcopy).mp hrecorded' with hold' | ⟨rfl, he'⟩
      · exact absurd hintent.symm ((hnew decision he).2.2 other' decision' hold')
      · have hsame := he.symm.trans he'
        rw [AuthorityEvent.standingAuthorityDecisionRecorded.injEq] at hsame
        exact ⟨rfl, hsame⟩

/-! ### One commit -/

theorem authorityWrites_ok {p : AuthorityKept ι ω} {through : List (AuthorityStore ι ω)}
    {answer : AuthorityAnswer} (h : authorityWrites X s p = .ok (through, t, answer)) :
    ∃ state e operations decided index,
      authorityReplay X.others (journalOf (s.copies p.process) p.cycleId) = .ok state ∧
      authorityAppend state p.cycleId p.write = .ok (e, operations, decided) ∧
      KeyOperation.performAll s.index operations = .ok index ∧
      ((through = [] ∧ t = s.indexed p.process index ∧ answer = .died) ∨
        (through = [s.indexed p.process index] ∧ t = s.written p.process p.cycleId e index ∧
          answer = decided)) := by
  unfold authorityWrites at h
  obtain ⟨state, hreplay, h⟩ := bind_eq_ok.mp h
  obtain ⟨⟨e, operations, decided⟩, happend, h⟩ := bind_eq_ok.mp h
  obtain ⟨_, -, h⟩ := bind_eq_ok.mp h
  obtain ⟨index, hindex, h⟩ := bind_eq_ok.mp h
  refine ⟨state, e, operations, decided, index, hreplay, happend, hindex, ?_⟩
  by_cases hdies : p.dies
  · left
    rw [if_pos hdies, pure_eq_ok, Prod.mk.injEq, Prod.mk.injEq] at h
    exact ⟨h.1.symm, h.2.1.symm, h.2.2.symm⟩
  · right
    rw [if_neg hdies, pure_eq_ok, Prod.mk.injEq, Prod.mk.injEq] at h
    exact ⟨h.1.symm, h.2.1.symm, h.2.2.symm⟩

/-- What the append of a write does: an event of another call and no key, or a decision whose
intent the journal does not have, with its two keys reserved. -/
theorem authorityAppend_ok {state : AuthorityState ω} {write : AuthorityWrite ω}
    {e : AuthorityEvent ω} {operations : List (KeyOperation AuthorityOwner)}
    {answer : AuthorityAnswer}
    (h : authorityAppend state cycleId write = .ok (e, operations, answer)) :
    (∃ event, write = .append event ∧ e = .other event ∧ operations = [] ∧ answer = .recorded) ∨
      ∃ decision slotKey, write = .decision decision slotKey ∧
        state.life.terminalState = none ∧ state.decisionFor decision.intentDigest = none ∧
        e = .standingAuthorityDecisionRecorded decision ∧
        operations = [.reserve (nonceKey decision) (authorityOwner cycleId decision),
          .reserve slotKey (authorityOwner cycleId decision)] ∧
        answer = .decided cycleId decision := by
  cases write with
  | append event =>
    left
    cases h
    exact ⟨event, rfl, rfl, rfl, rfl⟩
  | decision decision slotKey =>
    right
    unfold authorityAppend at h
    obtain ⟨_, hterminal, h⟩ := bind_eq_ok.mp h
    obtain ⟨_, hnone, h⟩ := bind_eq_ok.mp h
    rw [pure_eq_ok, Prod.mk.injEq, Prod.mk.injEq] at h
    rw [revertIf_eq_ok, ne_eq, not_not] at hnone
    exact ⟨decision, slotKey, rfl, assertNotTerminal_ok.mp hterminal, hnone, h.1.symm,
      h.2.1.symm, h.2.2.symm⟩

/-- Two keys reserved by one owner. -/
theorem performAll_reserve_two {index after : Record AuthorityOwner} {first second : Text}
    {owner : AuthorityOwner}
    (h : KeyOperation.performAll index [.reserve first owner, .reserve second owner] = .ok after) :
    KeysKept index after ∧ after.find first = some owner ∧ after.find second = some owner := by
  obtain ⟨hchecks, rfl⟩ := performAll_ok.mp h
  have hfirst := check_reserve.mp (hchecks _ (List.mem_cons_self))
  have hsecond := check_reserve.mp (hchecks _ (List.mem_cons_of_mem _ List.mem_cons_self))
  simp only [List.foldl_cons, List.foldl_nil, KeyOperation.perform]
  refine ⟨?_, ?_, ?_⟩
  · intro key known hknown
    rw [Record.find_set, Record.find_set]
    split
    · subst key
      rw [hknown] at hsecond
      exact (hsecond.resolve_left (Option.some_ne_none known)).symm
    · split
      · subst key
        rw [hknown] at hfirst
        exact (hfirst.resolve_left (Option.some_ne_none known)).symm
      · exact hknown
  · rw [Record.find_set, Record.find_set]
    split <;> simp
  · rw [Record.find_set, if_pos rfl]

/-- A slot that was found when the call read. -/
def AuthorityKept.Slotted (X : AuthorityContext ω) (p : AuthorityKept ι ω) : Prop :=
  ∀ decision slotKey, p.write = .decision decision slotKey → IsSlot X decision slotKey

/-- The commit is made on a current copy of the journal, and no other cycle has got the intent
since the scan. -/
structure CommitCurrent (s : AuthorityStore ι ω) (p : AuthorityKept ι ω) : Prop where
  copy : journalOf (s.copies p.process) p.cycleId = journalOf s.files p.cycleId
  intent : ∀ decision slotKey, p.write = .decision decision slotKey →
    ∀ other known, other ≠ p.cycleId → Recorded s other known →
      known.intentDigest ≠ decision.intentDigest

/-- The states that a commit goes through are sound, and a decision in the answer is recorded. -/
theorem sound_commit {p : AuthorityKept ι ω} {through : List (AuthorityStore ι ω)}
    {answer : AuthorityAnswer} (h : s.Sound X) (hslot : p.Slotted X) (hcurrent : CommitCurrent s p)
    (hwrites : authorityWrites X s p = .ok (through, t, answer)) :
    (∀ u ∈ t :: through, u.Sound X ∧ ∀ cycleId decision, Recorded s cycleId decision →
      Recorded u cycleId decision) ∧
    ∀ cycleId decision, answer = .decided cycleId decision → Recorded t cycleId decision := by
  obtain ⟨state, e, operations, decided, index, hreplay, happend, hindex, hresult⟩ :=
    authorityWrites_ok hwrites
  have hagrees := authorityAgrees_of_replay hreplay
  rw [hcurrent.copy] at hagrees
  obtain ⟨hkeys, hnew, hdecided⟩ : KeysKept s.index index ∧
      (∀ decision, e = .standingAuthorityDecisionRecorded decision →
        index.find (nonceKey decision) = some (authorityOwner p.cycleId decision) ∧
        (∃ key, IsSlot X decision key ∧
          index.find key = some (authorityOwner p.cycleId decision)) ∧
        ∀ other known, Recorded s other known → known.intentDigest ≠ decision.intentDigest) ∧
      ∀ cycleId decision, decided = .decided cycleId decision →
        cycleId = p.cycleId ∧ e = .standingAuthorityDecisionRecorded decision := by
    -- only a new decision reserves keys: one for its nonce and one for a slot of its day
    rcases authorityAppend_ok happend with ⟨event, -, rfl, rfl, rfl⟩ |
      ⟨decision, slotKey, hwrite, -, hnone, rfl, rfl, rfl⟩
    · rw [(performAll_ok.mp hindex).2]
      refine ⟨fun _ _ hfound => hfound, ?_, ?_⟩
      · intro decision he
        cases he
      · intro cycleId decision he
        cases he
    · obtain ⟨hkept, hnonce, hday⟩ := performAll_reserve_two hindex
      refine ⟨hkept, ?_, ?_⟩
      · intro known he
        rw [AuthorityEvent.standingAuthorityDecisionRecorded.injEq] at he
        subst he
        refine ⟨hnonce, ⟨slotKey, hslot decision slotKey hwrite, hday⟩, ?_⟩
        intro other known hrecorded
        -- the journal of this cycle was searched, that of another one is guarded by the index
        by_cases hcycle : other = p.cycleId
        · subst hcycle
          exact decisionFor_eq_none.mp hnone known ((hagrees.recorded known).mp hrecorded)
        · exact hcurrent.intent decision slotKey hwrite other known hcycle hrecorded
      · intro cycleId known he
        rw [AuthorityAnswer.decided.injEq] at he
        exact ⟨he.1.symm, he.2 ▸ rfl⟩
  have hindexed : (s.indexed p.process index).Sound X := h.indexed p.process hkeys
  have hwritten : (s.written p.process p.cycleId e index).Sound X :=
    h.written hcurrent.copy hkeys hnew
  have hgrows : ∀ cycleId decision, Recorded s cycleId decision →
      Recorded (s.written p.process p.cycleId e index) cycleId decision :=
    fun _ _ hold => (recorded_written hcurrent.copy).mpr (Or.inl hold)
  -- the write stops after the index, or goes on to the journal
  rcases hresult with ⟨rfl, rfl, rfl⟩ | ⟨rfl, rfl, rfl⟩
  · refine ⟨?_, fun _ _ he => by cases he⟩
    intro u hu
    rw [List.mem_singleton.mp hu]
    exact ⟨hindexed, fun _ _ hold => hold⟩
  · constructor
    · intro u hu
      rcases List.mem_cons.mp hu with rfl | hu
      · exact ⟨hwritten, hgrows⟩
      · rw [List.mem_singleton.mp hu]
        exact ⟨hindexed, fun _ _ hold => hold⟩
    · intro cycleId decision he
      obtain ⟨rfl, rfl⟩ := hdecided cycleId decision he
      exact (recorded_written hcurrent.copy).mpr (Or.inr ⟨rfl, rfl⟩)

/-! ### One reading -/

omit [DecidableEq ι] in
/-- Repeating a recorded decision answers it, or is refused. -/
theorem recordStandingAuthorityDecision_ok {decision : StandingAuthorityDecision}
    {reading : Reading (AuthorityWrite ω) AuthorityAnswer}
    (h : recordStandingAuthorityDecision X s process cycleId decision = .ok reading) :
    (reading = .answer (.decided cycleId decision) ∧
        .standingAuthorityDecisionRecorded decision ∈ journalOf (s.copies process) cycleId) ∨
      ((∀ known, .standingAuthorityDecisionRecorded known ∈ journalOf (s.copies process) cycleId →
          known.intentDigest ≠ decision.intentDigest) ∧
        ∃ slotKey, reading = .keep (.decision decision slotKey) ∧ IsSlot X decision slotKey) := by
  unfold recordStandingAuthorityDecision at h
  obtain ⟨_, -, h⟩ := bind_eq_ok.mp h
  obtain ⟨_, -, h⟩ := bind_eq_ok.mp h
  obtain ⟨state, hreplay, h⟩ := bind_eq_ok.mp h
  obtain ⟨_, -, h⟩ := bind_eq_ok.mp h
  have hagrees := authorityAgrees_of_replay hreplay
  cases hcurrent : state.decisionFor decision.intentDigest with
  | some current =>
    left
    rw [hcurrent] at h
    obtain ⟨_, hequal, hlast⟩ := bind_eq_ok.mp h
    rw [revertIf_eq_ok, ne_eq, not_not] at hequal
    subst hequal
    exact ⟨(pure_eq_ok.mp hlast).symm,
      (hagrees.recorded current).mpr (decisionFor_eq_some hcurrent).1⟩
  | none =>
    right
    rw [hcurrent] at h
    obtain ⟨decisions, -, h⟩ := bind_eq_ok.mp h
    obtain ⟨_, -, h⟩ := bind_eq_ok.mp h
    obtain ⟨_, -, h⟩ := bind_eq_ok.mp h
    obtain ⟨_, -, h⟩ := bind_eq_ok.mp h
    obtain ⟨slot, hslot, h⟩ := bind_eq_ok.mp h
    constructor
    · intro known hknown
      exact decisionFor_eq_none.mp hcurrent known ((hagrees.recorded known).mp hknown)
    · refine ⟨dayKey decision slot, (pure_eq_ok.mp h).symm, slot, ?_, rfl⟩
      exact List.mem_range.mp (List.mem_of_find?_eq_some (required_eq_ok.mp hslot))

omit [DecidableEq ι] in
theorem authorityRead_ok {c : AuthorityCall ι ω} {reading : Reading (AuthorityKept ι ω) AuthorityAnswer}
    (h : authorityRead X s c = .ok reading) :
    (∀ cycleId decision, reading = .answer (.decided cycleId decision) →
        .standingAuthorityDecisionRecorded decision ∈ journalOf (s.copies c.process) cycleId) ∧
      ∀ p, reading = .keep p → p.Slotted X := by
  unfold authorityRead at h
  cases hrequest : c.request with
  | recordStandingAuthorityDecision decision =>
    rw [hrequest] at h
    obtain ⟨found, hfound, h⟩ := bind_eq_ok.mp h
    rcases recordStandingAuthorityDecision_ok hfound with ⟨rfl, hrecorded⟩ |
      ⟨-, slotKey, rfl, hslot⟩
    · rw [← pure_eq_ok.mp h]
      constructor
      · intro cycleId known he
        rw [Reading.answer.injEq, AuthorityAnswer.decided.injEq] at he
        rw [← he.1, ← he.2]
        exact hrecorded
      · intro p he
        cases he
    · rw [← pure_eq_ok.mp h]
      constructor
      · intro cycleId known he
        cases he
      · intro p he known key hwrite
        cases he
        cases hwrite
        exact hslot
  | readStandingAuthorityDecision intentDigest =>
    rw [hrequest] at h
    obtain ⟨_, -, h⟩ := bind_eq_ok.mp h
    obtain ⟨state, -, h⟩ := bind_eq_ok.mp h
    rw [← pure_eq_ok.mp h]
    constructor
    · intro cycleId known he
      cases he
    · intro p he
      cases he
  | append event =>
    rw [hrequest] at h
    rw [← Except.ok.inj h]
    constructor
    · intro cycleId known he
      cases he
    · intro p he known key hwrite
      cases he
      cases hwrite

/-! ### Every run -/

/-- What single calls keep true. -/
theorem authority_upholds : (authorityService X).Upholds
    (fun s : AuthorityStore ι ω => fun answers => s.Sound X ∧
      ∀ cycleId decision, .decided cycleId decision ∈ answers → Recorded s cycleId decision)
    (fun _ p => p.Slotted X) CommitCurrent where
  answer := by
    intro s answers c r hI hread
    refine ⟨hI.1, ?_⟩
    intro cycleId decision hmem
    rcases List.mem_append.mp hmem with hold | hnew
    · exact hI.2 cycleId decision hold
    · rw [← List.mem_singleton.mp hnew] at hread
      exact (hI.1.copies c.process cycleId).subset ((authorityRead_ok hread).1 cycleId decision rfl)
  keep _ _ _ _ _ hread := (authorityRead_ok hread).2 _ rfl
  commit := by
    intro s answers p through t r hI hslot hcurrent hwrites
    obtain ⟨hstates, hanswer⟩ := sound_commit hI.1 hslot hcurrent hwrites
    refine ⟨(hstates t List.mem_cons_self).1, ?_⟩
    intro cycleId decision hmem
    rcases List.mem_append.mp hmem with hold | hnew
    · exact (hstates t List.mem_cons_self).2 cycleId decision (hI.2 cycleId decision hold)
    · exact hanswer cycleId decision (List.mem_singleton.mp hnew).symm
  crash := by
    intro s answers p through t r hI hslot hcurrent hwrites u hu
    obtain ⟨hstates, -⟩ := sound_commit hI.1 hslot hcurrent hwrites
    exact ⟨(hstates u hu).1, fun cycleId decision hmem =>
      (hstates u hu).2 cycleId decision (hI.2 cycleId decision hmem)⟩
  kept _ _ _ _ _ _ _ _ _ _ _ hq := hq
  drift s _ process hI := ⟨sound_open hI.1 process, hI.2⟩
  drifted _ _ _ _ _ hq := hq

omit [DecidableEq ι] in
/-- The decisions of a day have different slots. -/
theorem AuthorityStore.Sound.dayCap (h : s.Sound X) (authorityDigest day : Text) :
    {x : Text × StandingAuthorityDecision | Recorded s x.1 x.2 ∧
      x.2.authorityDigest = authorityDigest ∧ x.2.dayCapReservation.day = day}.encard
      ≤ X.maxCyclesPerDay := by
  have hslots : ∀ x : Text × StandingAuthorityDecision, Recorded s x.1 x.2 →
      ∃ slot < X.maxCyclesPerDay,
        s.index.find (dayKey x.2 slot) = some (authorityOwner x.1 x.2) := by
    intro x hrecorded
    obtain ⟨key, ⟨slot, hlt, rfl⟩, howner⟩ := h.slot x.1 x.2 hrecorded
    exact ⟨slot, hlt, howner⟩
  choose! slotOf hslot using hslots
  have hcard : (X.maxCyclesPerDay : ENat)
      = (Finset.range X.maxCyclesPerDay : Set Nat).encard := by
    rw [Set.encard_coe_eq_coe_finsetCard, Finset.card_range]
  rw [hcard]
  apply Set.encard_le_encard_of_injOn (f := slotOf)
  · intro x hx
    rw [Finset.mem_coe, Finset.mem_range]
    exact (hslot x hx.1).1
  · rintro x ⟨hx, hauthority, hday⟩ y ⟨hy, hauthority', hday'⟩ hsame
    -- one slot of the day has one owner, and the owner names the intent
    have hkey : dayKey x.2 (slotOf x) = dayKey y.2 (slotOf y) := by
      unfold dayKey
      rw [hauthority, hauthority', hday, hday', hsame]
    have howner : authorityOwner x.1 x.2 = authorityOwner y.1 y.2 :=
      Option.some.inj (by rw [← (hslot x hx).2, hkey, (hslot y hy).2])
    unfold authorityOwner at howner
    rw [AuthorityOwner.mk.injEq] at howner
    obtain ⟨hcycle, hdecision⟩ := h.intent x.1 x.2 y.1 y.2 hx hy howner.2.1
    exact Prod.ext hcycle hdecision

/-- At most the cap of decisions a day, one cycle for a nonce and for an intent, no answer
without its record, and no write by a call that repeats a record. -/
structure AuthorityLaws (X : AuthorityContext ω)
    (W : World (AuthorityStore ι ω) (AuthorityKept ι ω) AuthorityAnswer) : Prop where
  dayCap : ∀ authorityDigest day,
    {x : Text × StandingAuthorityDecision | Recorded W.store x.1 x.2 ∧
      x.2.authorityDigest = authorityDigest ∧ x.2.dayCapReservation.day = day}.encard
      ≤ X.maxCyclesPerDay
  nonce : ∀ cycleId decision cycleId' decision', Recorded W.store cycleId decision →
    Recorded W.store cycleId' decision' →
    decision.nonceReservation.reservationKey = decision'.nonceReservation.reservationKey →
    cycleId = cycleId'
  intent : ∀ cycleId decision cycleId' decision', Recorded W.store cycleId decision →
    Recorded W.store cycleId' decision' → decision.intentDigest = decision'.intentDigest →
    cycleId = cycleId'
  answered : ∀ cycleId decision, .decided cycleId decision ∈ W.answers →
    Recorded W.store cycleId decision
  repeated : ∀ process cycleId decision, Recorded W.store cycleId decision →
    journalOf (W.store.copies process) cycleId = journalOf W.store.files cycleId →
    (∀ write, recordStandingAuthorityDecision X W.store process cycleId decision
      ≠ .ok (.keep write)) ∧
    ∀ slotKey dies, ∃ message,
      authorityWrites X W.store ⟨process, cycleId, .decision decision slotKey, dies⟩
        = .error message

theorem authorityWrites_repeated (hrecorded : .standingAuthorityDecisionRecorded decision ∈
      journalOf (s.copies process) cycleId) (slotKey : Text) (dies : Bool) :
    ∃ message, authorityWrites X s ⟨process, cycleId, .decision decision slotKey, dies⟩
      = .error message := by
  cases hwrites : authorityWrites X s ⟨process, cycleId, .decision decision slotKey, dies⟩ with
  | error message => exact ⟨message, rfl⟩
  | ok result =>
    obtain ⟨through, t, answer⟩ := result
    obtain ⟨state, e, operations, decided, index, hreplay, happend, -⟩ := authorityWrites_ok hwrites
    rcases authorityAppend_ok happend with ⟨event, hwrite, -⟩ | ⟨known, key, hwrite, -, hnone, -⟩
    · cases hwrite
    · cases hwrite
      have hmem := ((authorityAgrees_of_replay hreplay).recorded decision).mp hrecorded
      exact absurd rfl (decisionFor_eq_none.mp hnone decision hmem)

theorem authorityLaws_of_holds {W : World (AuthorityStore ι ω) (AuthorityKept ι ω) AuthorityAnswer}
    (h : W.store.Sound X) (hanswers : ∀ cycleId decision,
      .decided cycleId decision ∈ W.answers → Recorded W.store cycleId decision) :
    AuthorityLaws X W where
  dayCap := h.dayCap
  nonce := by
    intro cycleId decision cycleId' decision' hrecorded hrecorded' hkey
    have hnonce : nonceKey decision = nonceKey decision' := by
      unfold nonceKey
      rw [hkey]
    have howner : authorityOwner cycleId decision = authorityOwner cycleId' decision' :=
      Option.some.inj (by
        rw [← h.nonce cycleId decision hrecorded, hnonce, h.nonce cycleId' decision' hrecorded'])
    exact congrArg AuthorityOwner.cycleId howner
  intent cycleId decision cycleId' decision' hrecorded hrecorded' hintent :=
    (h.intent cycleId decision cycleId' decision' hrecorded hrecorded' hintent).1
  answered := hanswers
  repeated := by
    intro process cycleId decision hrecorded hcopy
    have hcopied : .standingAuthorityDecisionRecorded decision ∈
        journalOf (W.store.copies process) cycleId := hcopy ▸ hrecorded
    constructor
    · intro write hread
      rcases recordStandingAuthorityDecision_ok hread with ⟨hanswer, -⟩ | ⟨hnone, -⟩
      · cases hanswer
      · exact hnone decision hcopied rfl
    · exact fun slotKey dies => authorityWrites_repeated hcopied slotKey dies

variable (X) in
/-- In every run of the calls of any processes, with crashes and reopenings, whose commits are
made on current copies and for intents that no other cycle got since the scan: the laws hold
and recorded decisions stay. -/
theorem standingAuthority_laws
    (moves : List (Move (AuthorityCall ι ω) ι))
    (hcurrent : EveryStep (authorityService X).step (Service.Commits CommitCurrent)
      (World.start .empty) moves) :
    let run := stateAfterRun (authorityService X).step (World.start .empty)
    AuthorityLaws X (run moves) ∧
      ∀ before after, moves = before ++ after → ∀ cycleId decision,
        Recorded (run before).store cycleId decision →
          Recorded (run moves).store cycleId decision := by
  intro run
  have hstart : AuthorityStore.Sound X (AuthorityStore.empty : AuthorityStore ι ω) ∧
      ∀ cycleId decision, AuthorityAnswer.decided cycleId decision ∈ [] →
        Recorded (AuthorityStore.empty : AuthorityStore ι ω) cycleId decision :=
    ⟨sound_empty, fun _ _ hmem => absurd hmem List.not_mem_nil⟩
  constructor
  · obtain ⟨hsound, hanswers⟩ := (authority_upholds.run hstart hcurrent).store
    exact authorityLaws_of_holds hsound hanswers
  · intro before after hmoves cycleId decision hrecorded
    subst hmoves
    obtain ⟨hbefore, hafter⟩ := everyStep_append.mp hcurrent
    rw [show run (before ++ after) = _ from stateAfterRun_append _ _ before after]
    apply authority_upholds.stable (P := fun s => Recorded s cycleId decision) ?_ ?_
      (authority_upholds.run hstart hbefore) hrecorded hafter
    · intro s answers p through t r hI hslot hcommit hold hwrites u hu
      exact ((sound_commit hI.1 hslot hcommit hwrites).1 u hu).2 cycleId decision hold
    · exact fun s answers process hI hold => hold

end Laws

/-! ## Two cycles with one intent -/

def sampleDecision (verifiedAt : Text) (reservation : UInt16) : StandingAuthorityDecision where
  authorityDigest := sampleDigest 97
  verifiedAt := verifiedAt
  intentDigest := sampleDigest 98
  dayCapReservation := ⟨verifiedAt.take 10, sampleDigest 99⟩
  nonceReservation := ⟨text "nonce-1", sampleDigest reservation⟩

/-- The same intent verified just before and just after midnight. -/
def eveningDecision : StandingAuthorityDecision :=
  sampleDecision (text "2026-01-02T23:59:59.999Z") 100

def morningDecision : StandingAuthorityDecision :=
  sampleDecision (text "2026-01-03T00:00:00.000Z") 101

/-- Two cycles a day; the records of other families say nothing. -/
def sampleAuthority : AuthorityContext Unit where
  maxCyclesPerDay := 2
  others := silentRecords
  fits _ _ := true

/-- A process opens two cycles. -/
def sampleOpenings : List (Move (AuthorityCall Nat Unit) Nat) :=
  [.call ⟨0, text "cycle-a", .append (.record ()), false⟩, .commit 0,
    .call ⟨0, text "cycle-b", .append (.record ()), false⟩, .commit 0]

/-- Both cycles read before one of them commits. -/
def racingDecisions : List (Move (AuthorityCall Nat Unit) Nat) :=
  sampleOpenings ++
    [.call ⟨0, text "cycle-a", .recordStandingAuthorityDecision eveningDecision, false⟩,
      .call ⟨0, text "cycle-b", .recordStandingAuthorityDecision morningDecision, false⟩,
      .commit 0, .commit 0]

/-- Nothing reserves the intent: the keys of the two decisions differ, and the scan of both calls
came too early. -/
theorem intent_of_two_cycles : ¬ ∀ moves : List (Move (AuthorityCall Nat Unit) Nat),
    AuthorityLaws sampleAuthority
      (stateAfterRun (authorityService sampleAuthority).step (World.start .empty) moves) := by
  intro h
  have hevening : Recorded (stateAfterRun (authorityService sampleAuthority).step
      (World.start .empty) racingDecisions).store (text "cycle-a") eveningDecision := by
    unfold Recorded
    decide +kernel
  have hmorning : Recorded (stateAfterRun (authorityService sampleAuthority).step
      (World.start .empty) racingDecisions).store (text "cycle-b") morningDecision := by
    unfold Recorded
    decide +kernel
  have hintent : eveningDecision.intentDigest = sampleDigest 98 := rfl
  have hintent' : morningDecision.intentDigest = sampleDigest 98 := rfl
  have hsame := (h racingDecisions).intent (text "cycle-a") eveningDecision (text "cycle-b")
    morningDecision hevening hmorning (hintent.trans hintent'.symm)
  exact absurd hsame (by decide)

/-- A decision recorded in an empty store. -/
theorem standingAuthority_laws_sample : AuthorityLaws sampleAuthority (stateAfterRun
    (authorityService sampleAuthority).step (World.start .empty)
    [.call ⟨0, text "cycle-a", .recordStandingAuthorityDecision eveningDecision, false⟩,
      .commit (0 : Nat)]) := by
  refine (standingAuthority_laws sampleAuthority _ ?_).1
  refine everyStep_cons.mpr ⟨trivial, everyStep_cons.mpr ⟨?_, everyStep_nil⟩⟩
  intro p hp
  have hstore : (((authorityService sampleAuthority).step (World.start .empty)
      (.call ⟨0, text "cycle-a", .recordStandingAuthorityDecision eveningDecision, false⟩)).1).store
        = .empty := Service.call_store _ _
  rw [hstore]
  constructor
  · rfl
  · intro decision slotKey hwrite other known hother hrecorded
    exact absurd hrecorded List.not_mem_nil

end Hookemon.Repository
