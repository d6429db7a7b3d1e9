import Hookemon.Core.Growing
import Hookemon.Repository.GlobalKeys
import Hookemon.Runner.ConfigurationBounds

/-! # Process claims in USD (`app/cycle-repository.mjs`)

The claims of a hook share a budget: what is still reserved and what was confirmed in the last
six hours may not exceed a limit. The budget is one value under a global key, which a commit
replaces when it is still the value that the call has read.
-/

namespace Hookemon.Repository

open Hookemon.Core Hookemon.Js Hookemon.Runner

/-- `PROCESS_USD_WINDOW_MS`. -/
def processUsdWindowMs : Nat := 21600000

/-- `PROCESS_USD_HARD_MAX_MICRO`. -/
def processUsdHardMaxMicro : Nat := 50000000000

/-! ## Budgets -/

/-- `RESERVED`, `CONFIRMED` or `REVERTED`; only the last two have a time and a transaction. -/
inductive ClaimState where
  | reserved
  | confirmed (confirmedAtMs : Nat) (transactionHash : Text)
  | reverted (confirmedAtMs : Nat) (transactionHash : Text)
deriving DecidableEq, Repr

structure ProcessUsdEntry where
  cycleId : Text
  amountWei : Nat
  amountMicroUsd : Nat
  valuationDigest : Text
  state : ClaimState
deriving DecidableEq, Repr

namespace ClaimState

def name : ClaimState → Text
  | .reserved => text "RESERVED"
  | .confirmed _ _ => text "CONFIRMED"
  | .reverted _ _ => text "REVERTED"

def isWellFormed : ClaimState → Bool
  | .reserved => true
  | .confirmed confirmedAtMs transactionHash | .reverted confirmedAtMs transactionHash =>
    (confirmedAtMs : Int) ≤ maxSafeInteger && isBlockHash transactionHash

def timeValue : ClaimState → Value
  | .reserved => .null
  | .confirmed confirmedAtMs _ | .reverted confirmedAtMs _ => integerValue confirmedAtMs

def hashValue : ClaimState → Value
  | .reserved => .null
  | .confirmed _ transactionHash | .reverted _ transactionHash => .string transactionHash

end ClaimState

namespace ProcessUsdEntry

variable (e : ProcessUsdEntry)

def toValue : Value := .object [
  (text "cycleId", .string e.cycleId),
  (text "amountWei", .string (natText e.amountWei)),
  (text "amountMicroUsd", .string (natText e.amountMicroUsd)),
  (text "valuationDigest", .string e.valuationDigest),
  (text "state", .string e.state.name),
  (text "confirmedAtMs", e.state.timeValue),
  (text "transactionHash", e.state.hashValue)]

def isWellFormed : Bool :=
  e.amountWei ≠ 0 && e.amountMicroUsd ≠ 0 && e.amountMicroUsd ≤ processUsdHardMaxMicro &&
    isDigest e.valuationDigest && e.state.isWellFormed

/-- It counts against the limit at a time. -/
def counts (now : Nat) : Bool :=
  match e.state with
  | .reserved => true
  | .confirmed confirmedAtMs _ => now < confirmedAtMs + processUsdWindowMs
  | .reverted _ _ => false

end ProcessUsdEntry

/-- The value of a budget with these entries. -/
def budgetValue (entries : List ProcessUsdEntry) : Value := .object [
  (text "schema", .string (text "hookemon.process-usd-budget.v1")),
  (text "entries", .array (entries.map ProcessUsdEntry.toValue))]

/-- The canonical text of the budget takes in that of each entry. -/
def validateProcessUsdBudget (entries : List ProcessUsdEntry) : Except String Unit := do
  let _ ← canonicalJson (budgetValue entries)
  throwIf (¬ (entries.map ProcessUsdEntry.cycleId).Nodup ∨ ∃ e ∈ entries, ¬ e.isWellFormed)
    "invalid process USD reservation"

def usedMicroUsd (now : Nat) (entries : List ProcessUsdEntry) : Nat :=
  ((entries.filter (·.counts now)).map ProcessUsdEntry.amountMicroUsd).sum

/-- The entries after a reservation is settled. -/
def settleEntry (reservation : ProcessUsdEntry) (entries : List ProcessUsdEntry) :
    List ProcessUsdEntry :=
  entries.map fun e => if e.cycleId = reservation.cycleId then reservation else e

/-! ## What the calls are given -/

/-- The valuation of an admission, as its schema and its quote leave it: exact amounts that are
positive and have a canonical text. -/
structure FundingValuation where
  amountWei : Nat
  amountMicroUsd : Nat
  valuationDigest : Text
  observedAtMs : Nat
  validUntilMs : Nat
  positive : 0 < amountWei ∧ amountWei < 10 ^ 78 ∧ 0 < amountMicroUsd
  digested : isDigest valuationDigest

/-- A proof object of a finalized transaction. Its hash is in lower case, and the facts are its
own; whether it is genuine is asked when it is used. -/
structure NativeProof where
  transactionHash : Text
  timestampUnixSeconds : Nat
  reverted : Bool
  facts : Value
  hashed : isBlockHash transactionHash

inductive ClaimEvent (ω : Type) where
  | processUsdClaimReserved (reservation : ProcessUsdEntry)
  | processUsdClaimFinalized (reservation : ProcessUsdEntry)
  | other (e : CycleEvent ω)

/-- What the calls for one hook share: the key of its budget, the durable valuation of each
cycle that was admitted for it and may still be used at a time, which proofs are genuine claims
of an amount for a cycle and which are genuine reverts of an attempt of the cycle, the records of
other families and the bounds of a journal. -/
structure ClaimContext (ω : Type) where
  key : Text
  valuation : Text → Option FundingValuation
  isDurable : FundingValuation → Nat → Bool
  isProcessClaim : NativeProof → Text → Nat → Bool
  assertRevertedAttempt : List ω → NativeProof → Except String Unit
  others : OtherRecords ω
  fits : List (ClaimEvent ω) → ClaimEvent ω → Bool

/-! ## Journals -/

namespace CycleLife

variable {ω : Type} (X : ClaimContext ω) (s : CycleLife ω)

/-- `#replayStored`, one entry of the journal of a cycle. -/
def applyClaim (cycleId : Text) (e : ClaimEvent ω) : Except String (CycleLife ω) :=
  match e with
  | .processUsdClaimReserved reservation => do
    s.assertAllowed false false
    validateProcessUsdBudget [reservation]
    throwIf (reservation.cycleId ≠ cycleId) "stored process USD cycle mismatch"
    return s
  | .processUsdClaimFinalized reservation => do
    s.assertAllowed true true
    validateProcessUsdBudget [reservation]
    throwIf (reservation.cycleId ≠ cycleId) "stored process USD cycle mismatch"
    return s
  | .other e => s.apply X.others e

end CycleLife

/-- `#replay`. The store refuses what is no identifier of a cycle. -/
def claimReplay {ω : Type} (X : ClaimContext ω) (cycleId : Text) (journal : List (ClaimEvent ω)) :
    Except String (CycleLife ω) := do
  throwIf (¬ isIdentifier cycleId) "cycleId is invalid"
  replay (fun s e => CycleLife.applyClaim X s cycleId e) .empty journal

/-! ## The store -/

/-- When a reservation was decided, under which limit and beside which entries. No call reads
these; the laws speak of them. -/
structure ClaimDecision where
  decidedAt : Nat
  limitMicroUsd : Nat
  beside : List ProcessUsdEntry

structure ClaimStore (ω : Type) where
  journals : Record (List (ClaimEvent ω))
  index : Record (List ProcessUsdEntry)
  decisions : List ClaimDecision

namespace ClaimStore

def empty {ω : Type} : ClaimStore ω := ⟨.empty, .empty, []⟩

variable {ω : Type} (X : ClaimContext ω) (s : ClaimStore ω)

/-- The entries of the budget. -/
def entries : List ProcessUsdEntry := (s.index.find X.key).getD []

end ClaimStore

inductive ClaimRequest (ω : Type) where
  | reserveProcessClaimUsd (amountWei : Nat) (limitMicroUsd : Nat) (now : Nat)
  | finalizeProcessClaimUsd (proof : NativeProof) (now : Nat)
  | append (e : CycleEvent ω)

structure ClaimCall (ω : Type) where
  cycleId : Text
  request : ClaimRequest ω

/-- What a call keeps after reading; `existing` is the value under the key. -/
inductive ClaimWrite (ω : Type) where
  | reserve (existing : Option (List ProcessUsdEntry)) (reservation : ProcessUsdEntry)
      (limitMicroUsd : Nat) (now : Nat)
  | finalize (existing : List ProcessUsdEntry) (reservation : ProcessUsdEntry)
  | append (e : CycleEvent ω)

structure ClaimKept (ω : Type) where
  cycleId : Text
  write : ClaimWrite ω

inductive ClaimAnswer where
  | claim (reservation : ProcessUsdEntry)
  | recorded

section Calls

variable {ω : Type} (X : ClaimContext ω) (s : ClaimStore ω)

def reserveProcessClaimUsd (cycleId : Text) (amountWei limitMicroUsd now : Nat) :
    Except String (Reading (ClaimWrite ω) ClaimAnswer) := do
  throwIf (processUsdHardMaxMicro < limitMicroUsd)
    "process USD claim limit exceeds the hard maximum or is invalid"
  let state ← claimReplay X cycleId (journalOf s.journals cycleId)
  throwIf (state.terminalState ≠ none) "process USD claim cannot reserve a terminal cycle"
  let valuation ← required (X.valuation cycleId)
    "process USD claim requires fresh authenticated exact-amount admission valuation"
  throwIf (valuation.amountWei ≠ amountWei ∨ ¬ X.isDurable valuation now ∨
      now < valuation.observedAtMs ∨ valuation.validUntilMs ≤ now)
    "process USD claim requires fresh authenticated exact-amount admission valuation"
  let existing := s.index.find X.key
  let entries := existing.getD []
  validateProcessUsdBudget entries
  let reservation : ProcessUsdEntry :=
    ⟨cycleId, amountWei, valuation.amountMicroUsd, valuation.valuationDigest, .reserved⟩
  let used := usedMicroUsd now entries
  match entries.find? (·.cycleId = cycleId) with
  | some previous => do
    throwIf (previous ≠ reservation) "process USD claim reservation differs or is already finalized"
    throwIf (limitMicroUsd = 0 ∨ limitMicroUsd < used) "process USD rolling six-hour limit exceeded"
    return .answer (.claim previous)
  | none => do
    throwIf (limitMicroUsd = 0 ∨ limitMicroUsd < used + reservation.amountMicroUsd)
      "process USD rolling six-hour limit exceeded"
    return .keep (.reserve existing reservation limitMicroUsd now)

omit s in
/-- Whether the proof confirms the claim; else it must show the revert of an attempt. -/
def assertClaimFinality (state : CycleLife ω) (cycleId : Text) (amountWei : Nat)
    (proof : NativeProof) : Except String Bool := do
  if X.isProcessClaim proof cycleId amountWei then return true
  else do
    throwIf (¬ proof.reverted) "process USD claim finality is unverified"
    X.assertRevertedAttempt state.records proof
    return false

def finalizeProcessClaimUsd (cycleId : Text) (proof : NativeProof) (now : Nat) :
    Except String (Reading (ClaimWrite ω) ClaimAnswer) := do
  let existing ← required (s.index.find X.key) "process USD claim has no durable reservation"
  validateProcessUsdBudget existing
  let previous ← required (existing.find? (·.cycleId = cycleId))
    "process USD claim has no durable reservation"
  let state ← claimReplay X cycleId (journalOf s.journals cycleId)
  let confirmed ← assertClaimFinality X state cycleId previous.amountWei proof
  let confirmedAtMs := proof.timestampUnixSeconds * 1000
  throwIf (maxSafeInteger < (confirmedAtMs : Int) ∨ now < confirmedAtMs)
    "process USD claim finality timestamp is invalid"
  let reservation : ProcessUsdEntry :=
    { previous with state := if confirmed then .confirmed confirmedAtMs proof.transactionHash
        else .reverted confirmedAtMs proof.transactionHash }
  if previous.state = .reserved then return .keep (.finalize existing reservation)
  else do
    throwIf (previous ≠ reservation) "process USD claim finality conflicts"
    return .answer (.claim previous)

def claimReading (cycleId : Text) :
    ClaimRequest ω → Except String (Reading (ClaimWrite ω) ClaimAnswer)
  | .reserveProcessClaimUsd amountWei limitMicroUsd now =>
    reserveProcessClaimUsd X s cycleId amountWei limitMicroUsd now
  | .finalizeProcessClaimUsd proof now => finalizeProcessClaimUsd X s cycleId proof now
  | .append e => .ok (.keep (.append e))

/-- What a call reads, and what it keeps of it. -/
def claimRead (c : ClaimCall ω) : Except String (Reading (ClaimKept ω) ClaimAnswer) := do
  let reading ← claimReading X s c.cycleId c.request
  match reading with
  | .answer r => return .answer r
  | .keep write => return .keep ⟨c.cycleId, write⟩

omit s in
/-- The first reservation reserves the key, a later one replaces its value. -/
def budgetOperation (existing : Option (List ProcessUsdEntry)) (value : List ProcessUsdEntry) :
    KeyOperation (List ProcessUsdEntry) :=
  match existing with
  | none => .reserve X.key value
  | some expected => .replace X.key expected value

/-- The event and the operation of an append, and its answer. A key is staged with the canonical
texts of its values. -/
def claimAppend (state : CycleLife ω) : ClaimWrite ω →
    Except String (ClaimEvent ω × List (KeyOperation (List ProcessUsdEntry)) × ClaimAnswer)
  | .reserve existing reservation _ _ => do
    assertNotTerminal state.terminalState "reserveProcessClaimUsd"
    let value := existing.getD [] ++ [reservation]
    let _ ← canonicalJson (budgetValue value)
    return (.processUsdClaimReserved reservation,
      [budgetOperation X existing value], .claim reservation)
  | .finalize existing reservation => do
    let value := settleEntry reservation existing
    let _ ← canonicalJson (budgetValue value)
    return (.processUsdClaimFinalized reservation, [.replace X.key existing value],
      .claim reservation)
  | .append e => .ok (.other e, [], .recorded)

/-- The decisions after a commit: one more when the budget got its entry. -/
def decisionsAfter (write : ClaimWrite ω) (index : Record (List ProcessUsdEntry)) :
    List ClaimDecision :=
  match write with
  | .reserve _ _ limitMicroUsd now =>
    if index.find X.key = s.index.find X.key then s.decisions
    else s.decisions ++ [⟨now, limitMicroUsd, s.entries X⟩]
  | _ => s.decisions

/-- `#append`: the index first, then the journal. -/
def claimWrites (p : ClaimKept ω) :
    Except String (List (ClaimStore ω) × ClaimStore ω × ClaimAnswer) := do
  let journal := journalOf s.journals p.cycleId
  let state ← claimReplay X p.cycleId journal
  let (e, operations, answer) ← claimAppend X state p.write
  throwIf (¬ X.fits journal e) "journal limit exceeded"
  let index ← KeyOperation.performAll s.index operations
  let decisions := decisionsAfter X s p.write index
  return ([⟨s.journals, index, decisions⟩],
    ⟨appendTo s.journals p.cycleId [e], index, decisions⟩, answer)

def claimService : Service (ClaimStore ω) (ClaimCall ω) (ClaimKept ω) ClaimAnswer Empty where
  read s c := claimRead X s c
  writes s p := claimWrites X s p
  drift s _ := s

end Calls

/-! ## The canonical text of a budget -/

section Encoding

/-- What an entry of a budget is. -/
structure EntryFits (e : ProcessUsdEntry) : Prop where
  name : CycleName e.cycleId
  wei : e.amountWei < 10 ^ 78
  wellFormed : e.isWellFormed

theorem compact_null : Compact .null 0 fieldSize where
  fits := by
    intro depth hdepth
    rw [ValueFits] <;> simp_all
  size := by
    rw [countedValue] <;> simp [Counted.le_def, fieldSize, Counted.ofBytes]
  encodable := ⟨_, rfl⟩

theorem compact_natText {n : Nat} (h : n < 10 ^ 78) : Compact (.string (natText n)) 0 fieldSize :=
  compact_decimal (isDecimal_natText n) (by rwa [textNat_natText])

theorem isBlockHash_length {s : Text} (h : isBlockHash s) : s.length = 66 := by
  simp only [isBlockHash, hasShape, Bool.and_eq_true, beq_iff_eq, List.length_drop] at h
  have hlead : (text "0x").length = 2 := by decide
  omega

/-- The second unit of a hash is a letter. -/
theorem isBlockHash_not_digits {s : Text} (h : isBlockHash s) : ¬ isDigits s := by
  intro hdigits
  simp only [isBlockHash, hasShape, Bool.and_eq_true, beq_iff_eq] at h
  have hlead : s.take 2 = text "0x" := h.1.1
  have hletter : (120 : UInt16) ∈ s := List.mem_of_mem_take (hlead ▸ by decide : 120 ∈ s.take 2)
  simp only [isDigits, Bool.and_eq_true, List.all_eq_true] at hdigits
  exact absurd (hdigits.2 120 hletter) (by decide)

theorem ClaimState.compact_name (state : ClaimState) :
    Compact (.string state.name) 0 fieldSize := by
  have hname : state.name = text "RESERVED" ∨ state.name = text "CONFIRMED" ∨
      state.name = text "REVERTED" := by
    cases state <;> simp [ClaimState.name]
  rcases hname with hname | hname | hname <;> rw [hname] <;>
    exact compact_text (by decide) (by decide)

theorem ClaimState.compact_time {state : ClaimState} (h : state.isWellFormed) :
    Compact state.timeValue 0 fieldSize := by
  cases state with
  | reserved => exact compact_null
  | confirmed time hash | reverted time hash =>
    simp only [ClaimState.isWellFormed, Bool.and_eq_true, decide_eq_true_eq] at h
    exact compact_integerValue ⟨Int.natCast_nonneg time, h.1⟩

theorem ClaimState.compact_hash {state : ClaimState} (h : state.isWellFormed) :
    Compact state.hashValue 0 fieldSize := by
  cases state with
  | reserved => exact compact_null
  | confirmed time hash | reverted time hash =>
    simp only [ClaimState.isWellFormed, Bool.and_eq_true] at h
    exact compact_text (by rw [isBlockHash_length h.2]; decide) fun hdigits =>
      absurd hdigits (isBlockHash_not_digits h.2)

theorem EntryFits.compact {e : ProcessUsdEntry} (h : EntryFits e) :
    Compact e.toValue 1 (recordSize 7) := by
  have hwell := h.wellFormed
  simp only [ProcessUsdEntry.isWellFormed, Bool.and_eq_true, decide_eq_true_eq] at hwell
  obtain ⟨⟨⟨⟨-, -⟩, hmicro⟩, hdigest⟩, hstate⟩ := hwell
  have hmicro' : e.amountMicroUsd < 10 ^ 78 := hmicro.trans_lt (by decide)
  have hlength : ([text "cycleId", text "amountWei", text "amountMicroUsd", text "valuationDigest",
      text "state", text "confirmedAtMs", text "transactionHash"]).length
      ≤ RECOVERY_LIMITS.canonicalObjectFields := by decide
  apply compact_record hlength
  simp only [List.forall_mem_cons]
  refine ⟨⟨by decide, h.name.compact⟩, ⟨by decide, compact_natText h.wei⟩,
    ⟨by decide, compact_natText hmicro'⟩, ⟨by decide, compact_digest hdigest⟩,
    ⟨by decide, e.state.compact_name⟩, ⟨by decide, ClaimState.compact_time hstate⟩,
    ⟨by decide, ClaimState.compact_hash hstate⟩, ?_⟩
  exact fun f hf => absurd hf List.not_mem_nil

/-- A budget has a canonical text as long as its list of entries may be encoded. -/
theorem budgetValue_encodes {entries : List ProcessUsdEntry} (h : ∀ e ∈ entries, EntryFits e) :
    (∃ t, canonicalJson (budgetValue entries) = .ok t) ↔
      entries.length ≤ RECOVERY_LIMITS.canonicalArrayItems := by
  constructor
  · intro hencoded
    have hfits := (canonicalJson_isOk.mp hencoded).1.fits
    unfold budgetValue at hfits
    rw [ValueFits, FieldsFit, FieldsFit, ValueFits] at hfits
    have hlength := hfits.2.2.2.2.2.1.2.1
    rwa [List.length_map] at hlength
  · intro hlength
    have hentries : Compact (.array (entries.map ProcessUsdEntry.toValue)) 2 _ :=
      Compact.array (fun v hv => by
        obtain ⟨e, he, rfl⟩ := List.mem_map.mp hv
        exact (h e he).compact) (by rwa [List.length_map])
    have hschema : Compact (.string (text "hookemon.process-usd-budget.v1")) 2 fieldSize :=
      (compact_text (by decide) (by decide)).mono (Nat.zero_le 2) (Counted.le_refl' _)
    have hschemaKey : (text "schema").length ≤ 20 ∧ text "schema" ∉ forbiddenKeys := by decide
    have hentriesKey : (text "entries").length ≤ 20 ∧ text "entries" ∉ forbiddenKeys := by decide
    have hfields := CompactFields.cons hschemaKey hschema
      (CompactFields.cons hentriesKey hentries CompactFields.nil (by decide)) (by decide)
    have htwo : ([text "schema", text "entries"]).length
        ≤ RECOVERY_LIMITS.canonicalObjectFields := by decide
    exact (Compact.object hfields htwo).canonicalJson_isOk (by decide)
      ⟨by decide, by decide, by decide⟩

/-- A cycle that is a numeral and has been encoded has not too many digits. -/
theorem encoded_name {entries : List ProcessUsdEntry} {e : ProcessUsdEntry}
    (h : ∃ t, canonicalJson (budgetValue entries) = .ok t) (he : e ∈ entries) :
    isDigits e.cycleId → e.cycleId.length ≤ RECOVERY_LIMITS.decimalDigits := by
  have hfits := (canonicalJson_isOk.mp h).1.fits
  unfold budgetValue at hfits
  rw [ValueFits, FieldsFit, FieldsFit, ValueFits] at hfits
  have hentry := itemsFit_mem (List.mem_map_of_mem he) 0 hfits.2.2.2.2.2.1.2.2
  unfold ProcessUsdEntry.toValue at hentry
  rw [ValueFits, FieldsFit, ValueFits] at hentry
  exact hentry.2.2.2.1.2.digits

end Encoding

/-! ## Entries over time -/

section Entries

/-- What becomes of an entry: it stays as it is, or a reservation is settled once. -/
def Settles (a b : ProcessUsdEntry) : Prop :=
  b = a ∨ (a.state = .reserved ∧ ∃ state, state ≠ .reserved ∧ b = { a with state := state })

theorem Settles.refl (a : ProcessUsdEntry) : Settles a a := Or.inl rfl

theorem Settles.trans (a b c : ProcessUsdEntry) (h : Settles a b) (h' : Settles b c) :
    Settles a c := by
  rcases h with rfl | ⟨hreserved, state, hstate, rfl⟩
  · exact h'
  · rcases h' with rfl | ⟨hreserved', -⟩
    · exact Or.inr ⟨hreserved, state, hstate, rfl⟩
    · exact absurd hreserved' hstate

theorem Settles.same {a b : ProcessUsdEntry} (h : Settles a b) :
    b.cycleId = a.cycleId ∧ b.amountMicroUsd = a.amountMicroUsd := by
  rcases h with rfl | ⟨-, state, -, rfl⟩ <;> exact ⟨rfl, rfl⟩

variable {entries : List ProcessUsdEntry} {reservation : ProcessUsdEntry}

theorem eq_of_cycleId (h : (entries.map ProcessUsdEntry.cycleId).Nodup) {a b : ProcessUsdEntry}
    (ha : a ∈ entries) (hb : b ∈ entries) (hsame : a.cycleId = b.cycleId) : a = b :=
  List.inj_on_of_nodup_map h ha hb hsame

/-- The reservation is that of an entry, settled. -/
structure SettlesEntry (reservation : ProcessUsdEntry) (entries : List ProcessUsdEntry)
    (previous : ProcessUsdEntry) : Prop where
  mem : previous ∈ entries
  reserved : previous.state = .reserved
  settled : reservation.state ≠ .reserved
  same : reservation = { previous with state := reservation.state }

variable {previous : ProcessUsdEntry}

theorem SettlesEntry.settles (h : SettlesEntry reservation entries previous) :
    Settles previous reservation :=
  Or.inr ⟨h.reserved, reservation.state, h.settled, h.same⟩

theorem SettlesEntry.grows (h : SettlesEntry reservation entries previous)
    (hdistinct : (entries.map ProcessUsdEntry.cycleId).Nodup) :
    Grows Settles entries (settleEntry reservation entries) := by
  apply Grows.map
  intro e he
  split
  · rename_i hcycle
    have hsame : e = previous :=
      eq_of_cycleId hdistinct he h.mem (hcycle.trans h.settles.same.1)
    rw [hsame]
    exact h.settles
  · exact Settles.refl e

theorem usedMicroUsd_eq (now : Nat) (entries : List ProcessUsdEntry) : usedMicroUsd now entries
    = (entries.map fun e => if e.counts now then e.amountMicroUsd else 0).sum := by
  unfold usedMicroUsd
  induction entries with
  | nil => rfl
  | cons e rest ih =>
    rw [List.filter_cons, List.map_cons, List.sum_cons, ← ih]
    split <;> simp

/-- Settling a reservation takes its amount out of the sum, unless it still counts. -/
theorem SettlesEntry.used (h : SettlesEntry reservation entries previous)
    (hdistinct : (entries.map ProcessUsdEntry.cycleId).Nodup) (now : Nat) :
    usedMicroUsd now (settleEntry reservation entries)
        + (if reservation.counts now then 0 else reservation.amountMicroUsd)
      = usedMicroUsd now entries := by
  have hcycle := h.settles.same.1
  have hamount := h.settles.same.2
  have hcounts : previous.counts now = true := by
    unfold ProcessUsdEntry.counts
    rw [h.reserved]
  obtain ⟨before, after, hsplit⟩ := List.append_of_mem h.mem
  rw [hsplit, List.map_append, List.map_cons, List.nodup_append, List.nodup_cons] at hdistinct
  have hother : ∀ e ∈ before ++ after, e.cycleId ≠ reservation.cycleId := by
    intro e he hsame
    rw [hcycle] at hsame
    rcases List.mem_append.mp he with hbefore | hafter
    · exact hdistinct.2.2 _ (List.mem_map_of_mem hbefore) _ List.mem_cons_self hsame
    · exact hdistinct.2.1.1 (hsame ▸ List.mem_map_of_mem hafter)
  have hkept : ∀ xs : List ProcessUsdEntry, (∀ e ∈ xs, e.cycleId ≠ reservation.cycleId) →
      settleEntry reservation xs = xs := by
    intro xs hxs
    unfold settleEntry
    conv_rhs => rw [← List.map_id xs]
    apply List.map_congr_left
    intro e he
    rw [if_neg (hxs e he), id]
  have hsettled : settleEntry reservation entries = before ++ reservation :: after := by
    have hbefore := hkept before fun e he => hother e (List.mem_append_left after he)
    have hafter := hkept after fun e he => hother e (List.mem_append_right before he)
    unfold settleEntry at hbefore hafter ⊢
    rw [hsplit, List.map_append, List.map_cons, hbefore, hafter, if_pos hcycle.symm]
  rw [hsettled, hsplit]
  simp only [usedMicroUsd_eq, List.map_append, List.map_cons, List.sum_append, List.sum_cons,
    hcounts, if_true, ← hamount]
  split <;> omega

end Entries

/-! ## What holds of the store -/

section Sound

variable {ω : Type} {X : ClaimContext ω} {s t : ClaimStore ω}

/-- An entry was within the limit of its decision, beside the entries before it as they were
then. -/
structure Decided (entries : List ProcessUsdEntry) (n : Nat) (decision : ClaimDecision)
    (e : ProcessUsdEntry) : Prop where
  position : decision.beside.length = n
  grows : Grows Settles decision.beside entries
  within : usedMicroUsd decision.decidedAt decision.beside + e.amountMicroUsd
    ≤ decision.limitMicroUsd
  hardMax : decision.limitMicroUsd ≤ processUsdHardMaxMicro

/-- The entries have one decision each, in the same order. -/
structure ClaimStore.Sound (X : ClaimContext ω) (s : ClaimStore ω) : Prop where
  fits : ∀ e ∈ s.entries X, EntryFits e
  distinct : ((s.entries X).map ProcessUsdEntry.cycleId).Nodup
  room : (s.entries X).length ≤ RECOVERY_LIMITS.canonicalArrayItems
  decided : s.decisions.length = (s.entries X).length
  within : ∀ n decision e, s.decisions[n]? = some decision → (s.entries X)[n]? = some e →
    Decided (s.entries X) n decision e

theorem claimSound_empty : (ClaimStore.empty : ClaimStore ω).Sound X where
  fits _ h := absurd h List.not_mem_nil
  distinct := List.nodup_nil
  room := Nat.zero_le _
  decided := rfl
  within n _ _ h := absurd h (by simp [ClaimStore.empty])

/-- What a call keeps: a new reservation within the limit, or a settled one. -/
def ClaimWrite.Sound : ClaimWrite ω → Prop
  | .reserve existing reservation limitMicroUsd now =>
    reservation.state = .reserved ∧ isIdentifier reservation.cycleId ∧
      reservation.amountWei < 10 ^ 78 ∧ reservation.isWellFormed ∧
      (∀ e ∈ existing.getD [], e.cycleId ≠ reservation.cycleId) ∧
      usedMicroUsd now (existing.getD []) + reservation.amountMicroUsd ≤ limitMicroUsd ∧
      limitMicroUsd ≤ processUsdHardMaxMicro
  | .finalize existing reservation =>
    reservation.state.isWellFormed ∧ ∃ previous, SettlesEntry reservation existing previous
  | .append _ => True

/-- What a commit does to the entries and the decisions. -/
inductive BudgetStep (X : ClaimContext ω) (s t : ClaimStore ω) (write : ClaimWrite ω) : Prop
  | same (entries : t.entries X = s.entries X) (decisions : t.decisions = s.decisions)
  | reserved (existing : Option (List ProcessUsdEntry)) (reservation : ProcessUsdEntry)
      (limitMicroUsd now : Nat)
      (write : write = .reserve existing reservation limitMicroUsd now)
      (before : s.entries X = existing.getD [])
      (encoded : ∃ text, canonicalJson (budgetValue (existing.getD [] ++ [reservation])) = .ok text)
      (entries : t.entries X = s.entries X ++ [reservation])
      (decisions : t.decisions = s.decisions ++ [⟨now, limitMicroUsd, s.entries X⟩])
  | finalized (reservation : ProcessUsdEntry)
      (write : write = .finalize (s.entries X) reservation)
      (entries : t.entries X = settleEntry reservation (s.entries X))
      (decisions : t.decisions = s.decisions)

theorem entries_set {index : Record (List ProcessUsdEntry)} {journals : Record (List (ClaimEvent ω))}
    {decisions : List ClaimDecision} {value : List ProcessUsdEntry} :
    (⟨journals, index.set X.key value, decisions⟩ : ClaimStore ω).entries X = value := by
  unfold ClaimStore.entries
  rw [Record.find_set, if_pos rfl, Option.getD_some]

theorem ClaimStore.Sound.reserved (h : s.Sound X) {reservation : ProcessUsdEntry}
    {limitMicroUsd now : Nat} (hname : isIdentifier reservation.cycleId)
    (hwei : reservation.amountWei < 10 ^ 78) (hwell : reservation.isWellFormed)
    (hnew : ∀ e ∈ s.entries X, e.cycleId ≠ reservation.cycleId)
    (hwithin : usedMicroUsd now (s.entries X) + reservation.amountMicroUsd ≤ limitMicroUsd)
    (hmax : limitMicroUsd ≤ processUsdHardMaxMicro)
    (hencoded : ∃ text, canonicalJson (budgetValue (s.entries X ++ [reservation])) = .ok text)
    (hentries : t.entries X = s.entries X ++ [reservation])
    (hdecisions : t.decisions = s.decisions ++ [⟨now, limitMicroUsd, s.entries X⟩]) :
    t.Sound X := by
  have hfits : ∀ e ∈ t.entries X, EntryFits e := by
    intro e he
    rw [hentries] at he
    rcases List.mem_append.mp he with hold | hlast
    · exact h.fits e hold
    · rw [List.mem_singleton.mp hlast]
      exact ⟨⟨hname, encoded_name hencoded (List.mem_append_right _ List.mem_cons_self)⟩, hwei,
        hwell⟩
  constructor
  · exact hfits
  · rw [hentries, List.map_append, List.map_singleton]
    apply List.Nodup.append h.distinct (List.nodup_singleton _)
    intro cycleId hold hlast
    obtain ⟨e, he, rfl⟩ := List.mem_map.mp hold
    exact hnew e he (List.mem_singleton.mp hlast)
  · rw [hentries] at hfits ⊢
    exact (budgetValue_encodes hfits).mp hencoded
  · rw [hentries, hdecisions, List.length_append, List.length_append, h.decided]
    rfl
  · intro n decision e hdecision he
    rw [hdecisions] at hdecision
    rw [hentries] at he ⊢
    have hgrows : Grows Settles (s.entries X) (s.entries X ++ [reservation]) :=
      Grows.append Settles.refl _ _
    -- an older decision keeps its entry, and the new one is at the end of both lists
    rcases Nat.lt_or_ge n s.decisions.length with hlt | hge
    · rw [List.getElem?_append_left hlt] at hdecision
      rw [List.getElem?_append_left (h.decided ▸ hlt)] at he
      have hold := h.within n decision e hdecision he
      exact ⟨hold.position, hold.grows.trans Settles.trans hgrows, hold.within, hold.hardMax⟩
    · rw [List.getElem?_append_right hge] at hdecision
      rw [List.getElem?_append_right (h.decided ▸ hge)] at he
      rw [List.getElem?_singleton] at hdecision he
      obtain ⟨hn, hlast⟩ := Option.ite_none_right_eq_some.mp hdecision
      obtain ⟨-, hlast'⟩ := Option.ite_none_right_eq_some.mp he
      rw [← Option.some.inj hlast, ← Option.some.inj hlast']
      have hposition : (s.entries X).length = n := by
        rw [h.decided] at hn hge
        omega
      exact ⟨hposition, hgrows, hwithin, hmax⟩

theorem ClaimStore.Sound.finalized (h : s.Sound X) {reservation previous : ProcessUsdEntry}
    (hstate : reservation.state.isWellFormed)
    (hsettles : SettlesEntry reservation (s.entries X) previous)
    (hentries : t.entries X = settleEntry reservation (s.entries X))
    (hdecisions : t.decisions = s.decisions) : t.Sound X := by
  have hgrows := hsettles.grows h.distinct
  have hlength : (settleEntry reservation (s.entries X)).length = (s.entries X).length :=
    List.length_map _
  have hcycles : (settleEntry reservation (s.entries X)).map ProcessUsdEntry.cycleId
      = (s.entries X).map ProcessUsdEntry.cycleId := by
    unfold settleEntry
    rw [List.map_map]
    apply List.map_congr_left
    intro e he
    simp only [Function.comp_apply]
    split
    · rename_i hcycle
      exact hcycle.symm
    · rfl
  -- the settled entry has the name and the amounts of the entry it replaces
  have hreservation : EntryFits reservation := by
    have hold := h.fits previous hsettles.mem
    have hwell := hold.wellFormed
    simp only [ProcessUsdEntry.isWellFormed, Bool.and_eq_true] at hwell
    constructor
    · rw [hsettles.settles.same.1]
      exact hold.name
    · rw [hsettles.same]
      exact hold.wei
    · rw [hsettles.same]
      simp only [ProcessUsdEntry.isWellFormed, Bool.and_eq_true]
      exact ⟨hwell.1, hstate⟩
  constructor
  · intro e he
    rw [hentries] at he
    obtain ⟨old, hold, rfl⟩ := List.mem_map.mp he
    split
    · exact hreservation
    · exact h.fits old hold
  · rw [hentries, hcycles]
    exact h.distinct
  · rw [hentries, hlength]
    exact h.room
  · rw [hentries, hdecisions, hlength]
    exact h.decided
  · intro n decision e hdecision he
    rw [hdecisions] at hdecision
    rw [hentries] at he ⊢
    have hlt : n < (s.entries X).length := by
      rw [← hlength]
      exact (List.getElem?_eq_some_iff.mp he).1
    obtain ⟨e', he', hsame⟩ := hgrows.get (List.getElem?_eq_getElem hlt)
    rw [he, Option.some.injEq] at he'
    subst he'
    have hold := h.within n decision _ hdecision (List.getElem?_eq_getElem hlt)
    refine ⟨hold.position, hold.grows.trans Settles.trans hgrows, ?_, hold.hardMax⟩
    rw [hsame.same.2]
    exact hold.within

theorem BudgetStep.sound {write : ClaimWrite ω} (h : s.Sound X) (hwrite : write.Sound)
    (hstep : BudgetStep X s t write) :
    t.Sound X ∧ Grows Settles (s.entries X) (t.entries X) := by
  cases hstep with
  | same hentries hdecisions =>
    constructor
    · constructor <;> simp only [hentries, hdecisions]
      exacts [h.fits, h.distinct, h.room, h.decided, h.within]
    · rw [hentries]
      exact Grows.refl Settles.refl _
  | reserved existing reservation limitMicroUsd now hsame hbefore hencoded hentries hdecisions =>
    subst hsame
    obtain ⟨-, hname, hwei, hwell, hnew, hwithin, hmax⟩ := hwrite
    rw [← hbefore] at hnew hwithin hencoded
    constructor
    · exact h.reserved hname hwei hwell hnew hwithin hmax hencoded hentries hdecisions
    · rw [hentries]
      exact Grows.append Settles.refl _ _
  | finalized reservation hsame hentries hdecisions =>
    subst hsame
    obtain ⟨hstate, previous, hsettles⟩ := hwrite
    constructor
    · exact h.finalized hstate hsettles hentries hdecisions
    · rw [hentries]
      exact hsettles.grows h.distinct

/-! ### One commit -/

theorem claimWrites_ok {p : ClaimKept ω} {through : List (ClaimStore ω)} {answer : ClaimAnswer} :
    claimWrites X s p = .ok (through, t, answer) ↔ ∃ state e operations index,
      claimReplay X p.cycleId (journalOf s.journals p.cycleId) = .ok state ∧
      claimAppend X state p.write = .ok (e, operations, answer) ∧
      X.fits (journalOf s.journals p.cycleId) e ∧
      KeyOperation.performAll s.index operations = .ok index ∧
      through = [⟨s.journals, index, decisionsAfter X s p.write index⟩] ∧
      t = ⟨appendTo s.journals p.cycleId [e], index, decisionsAfter X s p.write index⟩ := by
  unfold claimWrites
  simp only [bind_eq_ok, pure_eq_ok, Prod.mk.injEq, Prod.exists, revertIf_eq_ok, not_not]
  constructor
  · rintro ⟨state, hreplay, e, operations, decided, happend, -, hfits, index, hindex, rfl, rfl, rfl⟩
    exact ⟨state, e, operations, index, hreplay, happend, hfits, hindex, rfl, rfl⟩
  · rintro ⟨state, e, operations, index, hreplay, happend, hfits, hindex, rfl, rfl⟩
    exact ⟨state, hreplay, e, operations, answer, happend, (), hfits, index, hindex, rfl, rfl, rfl⟩

/-- The states of a commit share their budget, which is what the write makes of it. -/
theorem claimWrites_step {p : ClaimKept ω} {through : List (ClaimStore ω)} {answer : ClaimAnswer}
    (h : claimWrites X s p = .ok (through, t, answer)) :
    ∀ u ∈ t :: through, BudgetStep X s u p.write := by
  obtain ⟨state, e, operations, index, -, happend, -, hindex, rfl, rfl⟩ := claimWrites_ok.mp h
  have hstep : ∀ journals, BudgetStep X s
      (⟨journals, index, decisionsAfter X s p.write index⟩ : ClaimStore ω) p.write := by
    intro journals
    obtain ⟨hchecks, rfl⟩ := performAll_ok.mp hindex
    unfold claimAppend at happend
    cases hwrite : p.write with
    | append event =>
      rw [hwrite] at happend
      cases happend
      exact .same rfl rfl
    | finalize existing reservation =>
      rw [hwrite] at happend
      obtain ⟨text, -, happend⟩ := bind_eq_ok.mp happend
      rw [pure_eq_ok, Prod.mk.injEq, Prod.mk.injEq] at happend
      obtain ⟨-, rfl, -⟩ := happend
      -- the commit replaces the entries that were read, so they are still there
      have hfound := check_replace.mp (hchecks _ List.mem_cons_self)
      have hbefore : s.entries X = existing := by
        unfold ClaimStore.entries
        rw [hfound, Option.getD_some]
      refine .finalized reservation (by rw [hbefore]) ?_ rfl
      rw [hbefore]
      exact entries_set
    | reserve existing reservation limitMicroUsd now =>
      rw [hwrite] at happend
      obtain ⟨_, -, happend⟩ := bind_eq_ok.mp happend
      obtain ⟨text, htext, happend⟩ := bind_eq_ok.mp happend
      rw [pure_eq_ok, Prod.mk.injEq, Prod.mk.injEq] at happend
      obtain ⟨-, rfl, -⟩ := happend
      cases existing with
      | some expected =>
        have hfound := check_replace.mp (hchecks _ List.mem_cons_self)
        have hbefore : s.entries X = expected := by
          unfold ClaimStore.entries
          rw [hfound, Option.getD_some]
        -- a longer list of entries, so the index is another one
        have hchanged : (s.index.set X.key (expected ++ [reservation])).find X.key
            ≠ s.index.find X.key := by
          rw [Record.find_set, if_pos rfl, hfound, ne_eq, Option.some.injEq]
          simp
        refine .reserved (some expected) reservation limitMicroUsd now rfl hbefore ⟨text, htext⟩
          ?_ ?_
        · rw [hbefore]
          exact entries_set
        · exact if_neg hchanged
      | none =>
        rcases check_reserve.mp (hchecks _ List.mem_cons_self) with hnone | hsame
        · have hbefore : s.entries X = [] := by
            unfold ClaimStore.entries
            rw [hnone, Option.getD_none]
          have hchanged : (s.index.set X.key ([] ++ [reservation])).find X.key
              ≠ s.index.find X.key := by
            rw [Record.find_set, if_pos rfl, hnone]
            exact Option.some_ne_none _
          refine .reserved none reservation limitMicroUsd now rfl hbefore ⟨text, htext⟩ ?_ ?_
          · rw [hbefore]
            exact entries_set
          · exact if_neg hchanged
        · -- another call of the same cycle has reserved the same
          have hunchanged : (s.index.set X.key ([] ++ [reservation])).find X.key
              = s.index.find X.key := by
            rw [Record.find_set, if_pos rfl]
            exact hsame.symm
          refine .same ?_ ?_
          · unfold ClaimStore.entries
            exact congrArg (·.getD []) hunchanged
          · exact if_pos hunchanged
  intro u hu
  rcases List.mem_cons.mp hu with rfl | hu
  · exact hstep _
  · rw [List.mem_singleton.mp hu]
    exact hstep _

/-! ### One reading -/

theorem isIdentifier_of_replay {cycleId : Text} {journal : List (ClaimEvent ω)}
    {state : CycleLife ω} (h : claimReplay X cycleId journal = .ok state) :
    isIdentifier cycleId := by
  obtain ⟨_, hname, -⟩ := bind_eq_ok.mp h
  rwa [revertIf_eq_ok, not_not] at hname

theorem isWellFormed_reserved {e : ProcessUsdEntry} (hstate : e.state = .reserved)
    (hwei : 0 < e.amountWei) (hmicro : 0 < e.amountMicroUsd)
    (hmax : e.amountMicroUsd ≤ processUsdHardMaxMicro) (hdigest : isDigest e.valuationDigest) :
    e.isWellFormed := by
  unfold ProcessUsdEntry.isWellFormed
  rw [hstate, hdigest]
  simp [ClaimState.isWellFormed, hwei.ne', hmicro.ne', hmax]

theorem reserve_sound {cycleId : Text} {amountWei limitMicroUsd now : Nat} {write : ClaimWrite ω}
    (h : reserveProcessClaimUsd X s cycleId amountWei limitMicroUsd now = .ok (.keep write)) :
    write.Sound := by
  unfold reserveProcessClaimUsd at h
  obtain ⟨_, hmax, h⟩ := bind_eq_ok.mp h
  obtain ⟨state, hreplay, h⟩ := bind_eq_ok.mp h
  obtain ⟨_, -, h⟩ := bind_eq_ok.mp h
  obtain ⟨valuation, -, h⟩ := bind_eq_ok.mp h
  obtain ⟨_, hvaluation, h⟩ := bind_eq_ok.mp h
  obtain ⟨_, -, h⟩ := bind_eq_ok.mp h
  rw [revertIf_eq_ok, not_lt] at hmax
  rw [revertIf_eq_ok, not_or, ne_eq, not_not] at hvaluation
  cases hprevious : ((s.index.find X.key).getD []).find? (·.cycleId = cycleId) with
  | some previous =>
    simp only [hprevious, bind_eq_ok, pure_eq_ok, reduceCtorEq, and_false, exists_false] at h
  | none =>
    simp only [hprevious, bind_eq_ok, pure_eq_ok, Reading.keep.injEq, revertIf_eq_ok, not_or,
      not_lt] at h
    obtain ⟨_, ⟨-, hlimit⟩, rfl⟩ := h
    obtain ⟨hwei, hbound, hmicro⟩ := valuation.positive
    rw [hvaluation.1] at hwei hbound
    refine ⟨rfl, isIdentifier_of_replay hreplay, hbound, ?_, ?_, hlimit, hmax⟩
    · have hsmall : valuation.amountMicroUsd ≤ processUsdHardMaxMicro := by omega
      exact isWellFormed_reserved rfl hwei hmicro hsmall valuation.digested
    · intro e he
      simpa using List.find?_eq_none.mp hprevious e he

theorem finalize_sound {cycleId : Text} {proof : NativeProof} {now : Nat} {write : ClaimWrite ω}
    (h : finalizeProcessClaimUsd X s cycleId proof now = .ok (.keep write)) : write.Sound := by
  unfold finalizeProcessClaimUsd at h
  obtain ⟨existing, -, h⟩ := bind_eq_ok.mp h
  obtain ⟨_, -, h⟩ := bind_eq_ok.mp h
  obtain ⟨previous, hprevious, h⟩ := bind_eq_ok.mp h
  obtain ⟨state, -, h⟩ := bind_eq_ok.mp h
  obtain ⟨confirmed, -, h⟩ := bind_eq_ok.mp h
  obtain ⟨_, htime, h⟩ := bind_eq_ok.mp h
  have hmem := List.mem_of_find?_eq_some (required_eq_ok.mp hprevious)
  rw [revertIf_eq_ok, not_or, not_lt] at htime
  by_cases hreserved : previous.state = .reserved
  · rw [if_pos hreserved, pure_eq_ok, Reading.keep.injEq] at h
    subst h
    cases confirmed with
    | true =>
      refine ⟨?_, previous, hmem, hreserved, ClaimState.noConfusion, rfl⟩
      simp only [if_true, ClaimState.isWellFormed, Bool.and_eq_true, decide_eq_true_eq]
      exact ⟨htime.1, proof.hashed⟩
    | false =>
      refine ⟨?_, previous, hmem, hreserved, ClaimState.noConfusion, rfl⟩
      simp only [Bool.false_eq_true, if_false, ClaimState.isWellFormed, Bool.and_eq_true,
        decide_eq_true_eq]
      exact ⟨htime.1, proof.hashed⟩
  · rw [if_neg hreserved] at h
    simp only [bind_eq_ok, pure_eq_ok, reduceCtorEq, and_false, exists_false] at h

theorem claimRead_sound {c : ClaimCall ω} {p : ClaimKept ω}
    (h : claimRead X s c = .ok (.keep p)) : p.write.Sound := by
  unfold claimRead at h
  obtain ⟨reading, hreading, h⟩ := bind_eq_ok.mp h
  cases reading with
  | answer r => simp only [pure_eq_ok, reduceCtorEq] at h
  | keep write =>
    simp only [pure_eq_ok, Reading.keep.injEq] at h
    subst h
    cases hrequest : c.request with
    | reserveProcessClaimUsd amountWei limitMicroUsd now =>
      rw [hrequest] at hreading
      exact reserve_sound hreading
    | finalizeProcessClaimUsd proof now =>
      rw [hrequest] at hreading
      exact finalize_sound hreading
    | append event =>
      rw [hrequest] at hreading
      cases hreading
      trivial

/-! ### The rolling window -/

/-- Confirmed by a block of the six hours from a time on. -/
def InWindow (start : Int) (e : ProcessUsdEntry) : Prop :=
  ∃ time hash, e.state = .confirmed time hash ∧ start ≤ time ∧ time < start + processUsdWindowMs

instance decidableInWindow (start : Int) (e : ProcessUsdEntry) : Decidable (InWindow start e) :=
  match h : e.state with
  | .confirmed time hash =>
    decidable_of_iff (start ≤ time ∧ time < start + processUsdWindowMs) (by
      unfold InWindow
      rw [h]
      constructor
      · exact fun hin => ⟨time, hash, rfl, hin⟩
      · rintro ⟨_, _, hsame, hin⟩
        cases hsame
        exact hin)
  | .reserved => isFalse (by
      rintro ⟨_, _, hsame, -⟩
      rw [h] at hsame
      cases hsame)
  | .reverted _ _ => isFalse (by
      rintro ⟨_, _, hsame, -⟩
      rw [h] at hsame
      cases hsame)

/-- The claim of the same cycle was still reserved among these. -/
def StillReserved (beside : List ProcessUsdEntry) (e : ProcessUsdEntry) : Prop :=
  ∃ b ∈ beside, b.cycleId = e.cycleId ∧ b.state = .reserved

instance decidableStillReserved (beside : List ProcessUsdEntry) (e : ProcessUsdEntry) :
    Decidable (StillReserved beside e) :=
  inferInstanceAs (Decidable (∃ b ∈ beside, b.cycleId = e.cycleId ∧ b.state = .reserved))

/-- What counts in a window beside the last claim confirmed in it. -/
def windowMicroUsd (start : Int) (decision : ClaimDecision) (entries : List ProcessUsdEntry) : Nat :=
  ((entries.filter fun e => InWindow start e ∨ StillReserved decision.beside e).map
    ProcessUsdEntry.amountMicroUsd).sum

theorem sum_filter_map (P : ProcessUsdEntry → Bool) (entries : List ProcessUsdEntry) :
    ((entries.filter P).map ProcessUsdEntry.amountMicroUsd).sum
      = (entries.map fun e => if P e then e.amountMicroUsd else 0).sum := by
  induction entries with
  | nil => rfl
  | cons e rest ih =>
    rw [List.filter_cons, List.map_cons, List.sum_cons, ← ih]
    split <;> simp

/-- The entries before the last claim count no more than they did at its decision. -/
theorem Decided.earlier {entries : List ProcessUsdEntry} {n : Nat} {decision : ClaimDecision}
    {e : ProcessUsdEntry} (h : Decided entries n decision e)
    (hdistinct : (decision.beside.map ProcessUsdEntry.cycleId).Nodup) {start : Int} {time : Nat}
    (htime : time < start + processUsdWindowMs) (hdecided : decision.decidedAt ≤ time) :
    windowMicroUsd start decision (entries.take n)
      ≤ usedMicroUsd decision.decidedAt decision.beside := by
  unfold windowMicroUsd
  rw [sum_filter_map, usedMicroUsd_eq, ← h.position]
  apply h.grows.sum_le
  intro a ha b hab
  rw [hab.same.2]
  by_cases hcounts : a.counts decision.decidedAt = true
  · rw [if_pos hcounts]
    split
    · exact le_rfl
    · exact Nat.zero_le _
  · -- settled before, and out of the window by then
    have hneither : ¬ (InWindow start b ∨ StillReserved decision.beside b) := by
      have hfree : a.state ≠ .reserved := by
        intro hreserved
        exact hcounts (by rw [ProcessUsdEntry.counts, hreserved])
      have hsame : b = a := by
        rcases hab with hsame | ⟨hreserved, -⟩
        · exact hsame
        · exact absurd hreserved hfree
      rintro (⟨confirmedAt, hash, hstate, hfrom, -⟩ | ⟨c, hc, hcycle, hreserved⟩)
      · rw [hsame] at hstate
        apply hcounts
        rw [ProcessUsdEntry.counts, hstate]
        simp only [decide_eq_true_eq]
        omega
      · have hca : c = a := eq_of_cycleId hdistinct hc ha (by rw [hcycle, hsame])
        exact hfree (hca ▸ hreserved)
    rw [if_neg hcounts, if_neg (by simpa using hneither)]

theorem ClaimStore.Sound.window (h : s.Sound X) {n : Nat} {decision : ClaimDecision}
    {e : ProcessUsdEntry} {start : Int} (hdecision : s.decisions[n]? = some decision)
    (he : (s.entries X)[n]? = some e) (hin : InWindow start e)
    (hlast : ∀ m, n < m → ∀ e', (s.entries X)[m]? = some e' → ¬ InWindow start e')
    (hafter : ∀ time hash, e.state = .confirmed time hash → decision.decidedAt ≤ time) :
    windowMicroUsd start decision (s.entries X) ≤ decision.limitMicroUsd := by
  have hdecided := h.within n decision e hdecision he
  obtain ⟨hlt, hget⟩ := List.getElem?_eq_some_iff.mp he
  have hsplit : s.entries X = (s.entries X).take n ++ e :: (s.entries X).drop (n + 1) := by
    rw [← hget, List.cons_getElem_drop_succ, List.take_append_drop]
  have hcycles : decision.beside.map ProcessUsdEntry.cycleId
      = ((s.entries X).take n).map ProcessUsdEntry.cycleId := by
    rw [hdecided.grows.map_take fun a b hab => hab.same.1.symm, hdecided.position]
  have hdistinct := h.distinct
  rw [hsplit, List.map_append, List.nodup_append, List.map_cons, List.nodup_cons] at hdistinct
  have hlater : ∀ e' ∈ (s.entries X).drop (n + 1),
      ¬ (InWindow start e' ∨ StillReserved decision.beside e') := by
    intro e' he' hcounted
    rcases hcounted with hwindow | ⟨b, hb, hcycle, -⟩
    · obtain ⟨k, hk⟩ := List.getElem?_of_mem he'
      rw [List.getElem?_drop] at hk
      exact hlast (n + 1 + k) (by omega) e' hk hwindow
    · have hmem : b.cycleId ∈ ((s.entries X).take n).map ProcessUsdEntry.cycleId :=
        hcycles ▸ List.mem_map_of_mem hb
      exact hdistinct.2.2 _ hmem _ (List.mem_cons_of_mem _ (List.mem_map_of_mem he')) hcycle
  obtain ⟨time, hash, hstate, -, htime⟩ := hin
  have hearlier := hdecided.earlier (hcycles ▸ hdistinct.1) htime (hafter time hash hstate)
  have hrest : windowMicroUsd start decision ((s.entries X).drop (n + 1)) = 0 := by
    unfold windowMicroUsd
    rw [List.filter_eq_nil_iff.mpr fun e' he' => by simpa using hlater e' he']
    rfl
  have hsum : windowMicroUsd start decision (s.entries X)
      ≤ windowMicroUsd start decision ((s.entries X).take n) + (e.amountMicroUsd
        + windowMicroUsd start decision ((s.entries X).drop (n + 1))) := by
    conv_lhs => rw [hsplit]
    unfold windowMicroUsd
    simp only [sum_filter_map, List.map_append, List.map_cons, List.sum_append, List.sum_cons]
    split <;> omega
  have hwithin := hdecided.within
  omega

/-! ### Claims within the limit -/

/-- The entry of a new reservation. -/
def newReservation (cycleId : Text) (valuation : FundingValuation) : ProcessUsdEntry :=
  ⟨cycleId, valuation.amountWei, valuation.amountMicroUsd, valuation.valuationDigest, .reserved⟩

/-- A claim of a live cycle with a durable valuation, the first of its cycle and within the
limit. -/
structure WithinLimit (X : ClaimContext ω) (s : ClaimStore ω) (cycleId : Text)
    (valuation : FundingValuation) (limitMicroUsd now : Nat) : Prop where
  name : CycleName cycleId
  limit : 0 < limitMicroUsd ∧ limitMicroUsd ≤ processUsdHardMaxMicro
  live : ∃ state, claimReplay X cycleId (journalOf s.journals cycleId) = .ok state ∧
    state.terminalState = none
  valued : X.valuation cycleId = some valuation
  durable : X.isDurable valuation now ∧ valuation.observedAtMs ≤ now ∧ now < valuation.validUntilMs
  unclaimed : ∀ e ∈ s.entries X, e.cycleId ≠ cycleId
  within : usedMicroUsd now (s.entries X) + valuation.amountMicroUsd ≤ limitMicroUsd
  fits : X.fits (journalOf s.journals cycleId)
    (.processUsdClaimReserved (newReservation cycleId valuation))

/-- The call reads, commits and the budget has its entry. -/
def ReservesClaim (X : ClaimContext ω) (s : ClaimStore ω) (cycleId : Text)
    (valuation : FundingValuation) (limitMicroUsd now : Nat) : Prop :=
  ∃ p through t answer,
    claimRead X s ⟨cycleId, .reserveProcessClaimUsd valuation.amountWei limitMicroUsd now⟩
      = .ok (.keep p) ∧
    claimWrites X s p = .ok (through, t, answer) ∧
    t.entries X = s.entries X ++ [newReservation cycleId valuation]

variable {cycleId : Text} {valuation : FundingValuation} {limitMicroUsd now : Nat}

theorem WithinLimit.entryFits (h : WithinLimit X s cycleId valuation limitMicroUsd now) :
    EntryFits (newReservation cycleId valuation) := by
  obtain ⟨hwei, hbound, hmicro⟩ := valuation.positive
  have hsmall : valuation.amountMicroUsd ≤ processUsdHardMaxMicro := by
    have hwithin := h.within
    have hlimit := h.limit.2
    omega
  exact ⟨h.name, hbound, isWellFormed_reserved rfl hwei hmicro hsmall valuation.digested⟩

/-- The reading of a claim within the limit. -/
theorem WithinLimit.read (hs : s.Sound X)
    (h : WithinLimit X s cycleId valuation limitMicroUsd now) :
    claimRead X s ⟨cycleId, .reserveProcessClaimUsd valuation.amountWei limitMicroUsd now⟩
      = .ok (.keep ⟨cycleId, .reserve (s.index.find X.key) (newReservation cycleId valuation)
          limitMicroUsd now⟩) := by
  obtain ⟨state, hreplay, hterminal⟩ := h.live
  obtain ⟨text, htext⟩ := (budgetValue_encodes hs.fits).mpr hs.room
  have hvalid : validateProcessUsdBudget (s.entries X) = .ok () := by
    unfold validateProcessUsdBudget
    rw [htext, ok_bind]
    apply revertIf_of_not
    rintro (hnodup | ⟨e, he, hwell⟩)
    · exact hnodup hs.distinct
    · exact hwell (hs.fits e he).wellFormed
  have hprevious : (s.entries X).find? (·.cycleId = cycleId) = none := by
    rw [List.find?_eq_none]
    intro e he
    simpa using h.unclaimed e he
  have hread : reserveProcessClaimUsd X s cycleId valuation.amountWei limitMicroUsd now
      = .ok (.keep (.reserve (s.index.find X.key) (newReservation cycleId valuation)
          limitMicroUsd now)) := by
    unfold reserveProcessClaimUsd
    rw [throwIf_of_not (not_lt.mpr h.limit.2), ok_bind, hreplay, ok_bind,
      throwIf_of_not (by simp [hterminal]), ok_bind, h.valued, required_eq_ok.mpr rfl, ok_bind]
    have hdurable : ¬ (valuation.amountWei ≠ valuation.amountWei ∨ ¬ X.isDurable valuation now ∨
        now < valuation.observedAtMs ∨ valuation.validUntilMs ≤ now) := by
      simp only [ne_eq, not_true_eq_false, false_or, not_or, not_not, not_lt, not_le]
      exact ⟨h.durable.1, h.durable.2.1, h.durable.2.2⟩
    have hentries : (s.index.find X.key).getD [] = s.entries X := rfl
    have hlimit : ¬ (limitMicroUsd = 0 ∨ limitMicroUsd < usedMicroUsd now (s.entries X)
        + valuation.amountMicroUsd) := by
      have hpositive := h.limit.1
      have hwithin := h.within
      omega
    rw [throwIf_of_not hdurable, ok_bind]
    simp only [hentries, hvalid, ok_bind, hprevious]
    rw [throwIf_of_not hlimit]
    rfl
  change (reserveProcessClaimUsd X s cycleId valuation.amountWei limitMicroUsd now
    >>= fun _ => _) = _
  rw [hread]
  rfl

/-- A claim within the limit is reserved exactly when the budget has room for an entry. -/
theorem WithinLimit.reserves_iff (hs : s.Sound X)
    (h : WithinLimit X s cycleId valuation limitMicroUsd now) :
    ReservesClaim X s cycleId valuation limitMicroUsd now ↔
      (s.entries X).length < RECOVERY_LIMITS.canonicalArrayItems := by
  have hfits : ∀ e ∈ s.entries X ++ [newReservation cycleId valuation], EntryFits e := by
    intro e he
    rcases List.mem_append.mp he with hold | hlast
    · exact hs.fits e hold
    · rw [List.mem_singleton.mp hlast]
      exact h.entryFits
  have hencodes := budgetValue_encodes hfits
  rw [List.length_append, List.length_singleton, Nat.succ_le_iff] at hencodes
  constructor
  · rintro ⟨p, through, t, answer, hread, hwrites, hentries⟩
    rw [h.read hs, Except.ok.injEq, Reading.keep.injEq] at hread
    subst hread
    obtain ⟨state, e, operations, index, -, happend, -⟩ := claimWrites_ok.mp hwrites
    obtain ⟨_, -, happend⟩ := bind_eq_ok.mp happend
    obtain ⟨text, htext, -⟩ := bind_eq_ok.mp happend
    exact hencodes.mp ⟨text, htext⟩
  · intro hroom
    obtain ⟨text, htext⟩ := hencodes.mpr hroom
    obtain ⟨state, hreplay, hterminal⟩ := h.live
    have happend : claimAppend X state (.reserve (s.index.find X.key)
        (newReservation cycleId valuation) limitMicroUsd now)
        = .ok (.processUsdClaimReserved (newReservation cycleId valuation),
          [budgetOperation X (s.index.find X.key)
            (s.entries X ++ [newReservation cycleId valuation])],
          .claim (newReservation cycleId valuation)) := by
      unfold claimAppend
      rw [hterminal]
      change (canonicalJson (budgetValue (s.entries X ++ [newReservation cycleId valuation]))
        >>= fun _ => _) = _
      rw [htext]
      rfl
    -- the first reservation makes the key, a later one replaces what it holds
    obtain ⟨index, hindex, hfound⟩ : ∃ index, KeyOperation.performAll s.index
        [budgetOperation X (s.index.find X.key)
          (s.entries X ++ [newReservation cycleId valuation])] = .ok index ∧
        index = s.index.set X.key (s.entries X ++ [newReservation cycleId valuation]) := by
      cases hkey : s.index.find X.key with
      | none =>
        refine ⟨_, performAll_ok.mpr ⟨?_, rfl⟩, rfl⟩
        intro operation hoperation
        rw [List.mem_singleton.mp hoperation]
        exact check_reserve.mpr (Or.inl hkey)
      | some expected =>
        refine ⟨_, performAll_ok.mpr ⟨?_, rfl⟩, rfl⟩
        intro operation hoperation
        rw [List.mem_singleton.mp hoperation]
        exact check_replace.mpr hkey
    refine ⟨_, _, _, _, h.read hs, claimWrites_ok.mpr ⟨state, _, _, index, hreplay, happend, h.fits,
      hindex, rfl, rfl⟩, ?_⟩
    rw [hfound]
    exact entries_set

/-! ### Every run -/

/-- What single calls keep true. -/
theorem claim_upholds : (claimService X).Upholds (fun s _ => s.Sound X) (fun _ p => p.write.Sound)
    (fun _ _ => True) where
  answer _ _ _ _ hI _ := hI
  keep _ _ _ _ _ hread := claimRead_sound hread
  commit _ _ _ _ _ _ hI hK _ hwrites :=
    ((claimWrites_step hwrites _ List.mem_cons_self).sound hI hK).1
  crash _ _ _ _ _ _ hI hK _ hwrites u hu := ((claimWrites_step hwrites u hu).sound hI hK).1
  kept _ _ _ _ _ _ _ _ _ _ _ hq := hq
  drift _ _ e _ := e.elim
  drifted _ _ e _ _ _ := e.elim

/-- One entry for a cycle, with its decision; the limit of the last claim of a window; a settled
claim leaves the others alone and releases its own amount, unless it still counts; and a claim
within the limit is reserved when the list of entries has room. -/
structure ClaimLaws (X : ClaimContext ω) (W : World (ClaimStore ω) (ClaimKept ω) ClaimAnswer) :
    Prop where
  once : ((W.store.entries X).map ProcessUsdEntry.cycleId).Nodup
  decided : W.store.decisions.length = (W.store.entries X).length
  window : ∀ (n : Nat) decision e (start : Int), W.store.decisions[n]? = some decision →
    (W.store.entries X)[n]? = some e → InWindow start e →
    (∀ m : Nat, n < m → ∀ e', (W.store.entries X)[m]? = some e' → ¬ InWindow start e') →
    (∀ time hash, e.state = .confirmed time hash → decision.decidedAt ≤ time) →
    windowMicroUsd start decision (W.store.entries X) ≤ decision.limitMicroUsd ∧
      decision.limitMicroUsd ≤ processUsdHardMaxMicro
  released : ∀ p ∈ W.inFlight, ∀ existing reservation, p.write = .finalize existing reservation →
    ∀ through t answer, claimWrites X W.store p = .ok (through, t, answer) →
      (∀ e ∈ W.store.entries X, e.cycleId ≠ reservation.cycleId → e ∈ t.entries X) ∧
      ∀ now, usedMicroUsd now (t.entries X)
          + (if reservation.counts now then 0 else reservation.amountMicroUsd)
        = usedMicroUsd now (W.store.entries X)
  served : ∀ cycleId valuation limitMicroUsd now,
    WithinLimit X W.store cycleId valuation limitMicroUsd now →
    (ReservesClaim X W.store cycleId valuation limitMicroUsd now ↔
      (W.store.entries X).length < RECOVERY_LIMITS.canonicalArrayItems)

theorem claimLaws_of_holds {W : World (ClaimStore ω) (ClaimKept ω) ClaimAnswer}
    (h : Service.Holds (fun s _ => s.Sound X) (fun _ p => p.write.Sound) W) : ClaimLaws X W where
  once := h.store.distinct
  decided := h.store.decided
  window n decision e start hdecision he hin hlast hafter :=
    ⟨h.store.window hdecision he hin hlast hafter, (h.store.within n decision e hdecision he).hardMax⟩
  released := by
    intro p hp existing reservation hwrite through t answer hwrites
    have hsound := h.inFlight p hp
    rw [hwrite] at hsound
    obtain ⟨-, previous, hsettles⟩ := hsound
    have hstep := claimWrites_step hwrites t List.mem_cons_self
    obtain ⟨rfl, hentries⟩ : existing = W.store.entries X ∧
        t.entries X = settleEntry reservation (W.store.entries X) := by
      obtain ⟨state, e, operations, index, -, happend, -, hindex, -, rfl⟩ := claimWrites_ok.mp hwrites
      rw [hwrite] at happend
      obtain ⟨text, -, happend⟩ := bind_eq_ok.mp happend
      rw [pure_eq_ok, Prod.mk.injEq, Prod.mk.injEq] at happend
      obtain ⟨-, rfl, -⟩ := happend
      obtain ⟨hchecks, rfl⟩ := performAll_ok.mp hindex
      have hbefore : W.store.entries X = existing := by
        unfold ClaimStore.entries
        rw [check_replace.mp (hchecks _ List.mem_cons_self), Option.getD_some]
      refine ⟨hbefore.symm, ?_⟩
      rw [hbefore]
      exact entries_set
    rw [hentries]
    refine ⟨?_, hsettles.used h.store.distinct⟩
    intro e he hother
    refine List.mem_map.mpr ⟨e, he, ?_⟩
    rw [if_neg hother]
  served _ _ _ _ hclaim := hclaim.reserves_iff h.store

/-- In every run of the calls of any cycles for one hook, with crashes between the two writes of
any commit, the laws hold, and entries only get more or are settled once. -/
theorem processUsdClaims_laws (X : ClaimContext ω) (moves : List (Move (ClaimCall ω) Empty)) :
    let run := stateAfterRun (claimService X).step (World.start .empty)
    ClaimLaws X (run moves) ∧
      ∀ before after, moves = before ++ after →
        Grows Settles ((run before).store.entries X) ((run moves).store.entries X) := by
  intro run
  have hupholds : (claimService X).Upholds _ _ _ := claim_upholds
  have hholds := fun moves => hupholds.run_always (fun _ _ => trivial) claimSound_empty moves
  refine ⟨claimLaws_of_holds (hholds moves), ?_⟩
  intro before after hmoves
  subst hmoves
  rw [show run (before ++ after) = _ from stateAfterRun_append _ _ before after]
  apply hupholds.stable
    (P := fun s => Grows Settles ((run before).store.entries X) (s.entries X)) ?_ ?_
    (hholds before) (Grows.refl Settles.refl _)
    (fun _ m _ _ => Service.commits_of_forall (fun _ _ => trivial) _ m)
  · intro s answers p through t r hI hK _ hgrows hwrites u hu
    exact hgrows.trans Settles.trans ((claimWrites_step hwrites u hu).sound hI hK).2
  · exact fun _ _ e => e.elim

end Sound

/-! ## A full budget -/

section Full

/-- One wei for a millionth of a dollar. -/
def sampleValuation : FundingValuation where
  amountWei := 1
  amountMicroUsd := 1
  valuationDigest := sampleDigest 97
  observedAtMs := 0
  validUntilMs := 1
  positive := by norm_num
  digested := by decide

def sampleClaims : ClaimContext Unit where
  key := text "process-usd-claims:4663:0x7777777777777777777777777777777777777777"
  valuation _ := some sampleValuation
  isDurable _ _ := true
  isProcessClaim _ _ _ := false
  assertRevertedAttempt _ _ := .error "process USD claim finality is unverified"
  others := silentRecords
  fits _ _ := true

def sampleCycle (n : Nat) : Text := text "cycle-" ++ natText n

/-- The first cycles reserve one after the other. -/
def reservingCycles : Nat → List (Move (ClaimCall Unit) Empty)
  | 0 => []
  | n + 1 => reservingCycles n ++
    [.call ⟨sampleCycle n, .reserveProcessClaimUsd 1 processUsdHardMaxMicro 0⟩, .commit 0]

theorem sampleCycle_injective {m n : Nat} (h : sampleCycle m = sampleCycle n) : m = n :=
  natText_injective (List.append_cancel_left h)

theorem sampleCycle_name {n : Nat} (h : n < 1000) : CycleName (sampleCycle n) := by
  have hdigits := isDecimal_digits (isDecimal_natText n)
  have hlength : (natText n).length ≤ 3 := natText_length_le (by decide) h
  have hlead : sampleCycle n = 99 :: (text "ycle-" ++ natText n) := rfl
  have hrest : (text "ycle-").length = 5 := by decide
  constructor
  · rw [hlead]
    simp only [isIdentifier, Bool.and_eq_true, decide_eq_true_eq, List.length_append, hrest,
      List.all_append]
    refine ⟨⟨⟨by decide, by omega⟩, by omega⟩, by decide, List.all_eq_true.mpr ?_⟩
    intro c hc
    have hdigit := hdigits c hc
    simp [isAlphanumeric, hdigit]
  · intro hall
    rw [hlead] at hall
    simp only [isDigits, Bool.and_eq_true, List.all_cons] at hall
    exact absurd hall.2.1 (by decide)

/-- What the world is after the first cycles. -/
structure Reserved (n : Nat) (W : World (ClaimStore Unit) (ClaimKept Unit) ClaimAnswer) : Prop where
  sound : W.store.Sound sampleClaims
  idle : W.inFlight = []
  entries : W.store.entries sampleClaims
    = (List.range n).map fun i => newReservation (sampleCycle i) sampleValuation
  unwritten : ∀ m, n ≤ m → journalOf W.store.journals (sampleCycle m) = []

variable {n : Nat} {W : World (ClaimStore Unit) (ClaimKept Unit) ClaimAnswer}

theorem Reserved.used (h : Reserved n W) : usedMicroUsd 0 (W.store.entries sampleClaims) = n := by
  rw [usedMicroUsd_eq, h.entries, List.map_map]
  have hone : ((fun e : ProcessUsdEntry => if e.counts 0 then e.amountMicroUsd else 0)
      ∘ fun i => newReservation (sampleCycle i) sampleValuation) = fun _ => 1 := by
    funext i
    rfl
  rw [hone]
  simp

theorem Reserved.withinLimit (h : Reserved n W) (hn : n < 1000) :
    WithinLimit sampleClaims W.store (sampleCycle n) sampleValuation processUsdHardMaxMicro 0 where
  name := sampleCycle_name hn
  limit := by decide
  live := by
    rw [h.unwritten n le_rfl]
    refine ⟨.empty, ?_, rfl⟩
    unfold claimReplay
    rw [throwIf_of_not (not_not.mpr (sampleCycle_name hn).identifier)]
    rfl
  valued := rfl
  durable := ⟨rfl, le_rfl, Nat.zero_lt_one⟩
  unclaimed := by
    intro e he hsame
    rw [h.entries] at he
    obtain ⟨i, hi, rfl⟩ := List.mem_map.mp he
    have hlt := List.mem_range.mp hi
    exact absurd (sampleCycle_injective hsame) hlt.ne
  within := by
    rw [h.used]
    have hmax : (1001 : Nat) ≤ processUsdHardMaxMicro := by decide
    change n + 1 ≤ _
    omega
  fits := rfl

theorem Reserved.next (h : Reserved n W) (hn : n < RECOVERY_LIMITS.canonicalArrayItems) :
    Reserved (n + 1) (stateAfterRun (claimService sampleClaims).step W
      [.call ⟨sampleCycle n, .reserveProcessClaimUsd 1 processUsdHardMaxMicro 0⟩, .commit 0]) := by
  have hlimit : RECOVERY_LIMITS.canonicalArrayItems < 1000 := by decide
  have hclaim := h.withinLimit (hn.trans hlimit)
  have hroom : (W.store.entries sampleClaims).length < RECOVERY_LIMITS.canonicalArrayItems := by
    rw [h.entries, List.length_map, List.length_range]
    exact hn
  obtain ⟨p, through, t, answer, hread, hwrites, hentries⟩ := (hclaim.reserves_iff h.sound).mpr hroom
  have hkept := hclaim.read h.sound
  rw [hread, Except.ok.injEq, Reading.keep.injEq] at hkept
  have hcall : (claimService sampleClaims).step W (.call ⟨sampleCycle n,
      .reserveProcessClaimUsd 1 processUsdHardMaxMicro 0⟩) = (⟨W.store, [p], W.answers⟩, none) := by
    have hstep := Service.step_keep (S := claimService sampleClaims) hread
    rwa [h.idle] at hstep
  have hcommit : (claimService sampleClaims).step ⟨W.store, [p], W.answers⟩ (.commit 0)
      = (⟨t, [], W.answers ++ [answer]⟩, some answer) :=
    Service.step_writes (S := claimService sampleClaims) rfl hwrites
  rw [stateAfterRun_cons, stateAfterRun_cons, stateAfterRun_nil, hcall, hcommit]
  obtain ⟨state, e, operations, index, -, -, -, -, -, ht⟩ := claimWrites_ok.mp hwrites
  constructor
  · have hsound : p.write.Sound := claimRead_sound hread
    exact ((claimWrites_step hwrites t List.mem_cons_self).sound h.sound hsound).1
  · rfl
  · change t.entries sampleClaims = _
    rw [hentries, h.entries, List.range_succ, List.map_append]
    rfl
  · intro m hm
    change journalOf t.journals (sampleCycle m) = []
    rw [ht, journalOf_appendTo, hkept]
    have hne : sampleCycle m ≠ sampleCycle n := by
      intro hsame
      have := sampleCycle_injective hsame
      omega
    rw [if_neg hne]
    exact h.unwritten m (by omega)

theorem reserved_reservingCycles {n : Nat} (hn : n ≤ RECOVERY_LIMITS.canonicalArrayItems) :
    Reserved n (stateAfterRun (claimService sampleClaims).step (World.start .empty)
      (reservingCycles n)) := by
  induction n with
  | zero => exact ⟨claimSound_empty, rfl, rfl, fun _ _ => rfl⟩
  | succ n ih =>
    rw [reservingCycles, stateAfterRun_append]
    exact (ih (Nat.le_of_succ_le hn)).next hn

/-- After 512 claims of a millionth of a dollar each, the next one is refused. -/
theorem claim_refused_by_count : ¬ ∀ (moves : List (Move (ClaimCall Unit) Empty)) cycleId valuation
    limitMicroUsd now,
    WithinLimit sampleClaims (stateAfterRun (claimService sampleClaims).step (World.start .empty)
      moves).store cycleId valuation limitMicroUsd now →
    ReservesClaim sampleClaims (stateAfterRun (claimService sampleClaims).step (World.start .empty)
      moves).store cycleId valuation limitMicroUsd now := by
  intro h
  have hreserved := reserved_reservingCycles (le_refl RECOVERY_LIMITS.canonicalArrayItems)
  have hclaim := hreserved.withinLimit (by decide)
  have hroom := (hclaim.reserves_iff hreserved.sound).mp (h _ _ _ _ _ hclaim)
  rw [hreserved.entries, List.length_map, List.length_range] at hroom
  exact absurd hroom (Nat.lt_irrefl _)

end Full

end Hookemon.Repository
