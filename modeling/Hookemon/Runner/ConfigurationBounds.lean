import Hookemon.Runner.CanonicalBounds
import Hookemon.Runner.OperatorConfiguration

/-! # The size of an operator configuration

What every record of the document is, once its own checks passed, and how much of the
canonical encoding it takes. The bytes of a document whose lists are within their bounds
never come near the budget for them, so the lengths alone decide whether it is encoded.
-/

namespace Hookemon.Runner

open Hookemon.Core Hookemon.Js

/-! ## Fields -/

theorem assertExactPlainObject_eq_ok {v : Value} :
    assertExactPlainObject v = .ok () ↔ ∃ t, canonicalJson v = .ok t := by
  simp only [assertExactPlainObject, bind_eq_ok, pure_eq_ok, and_true]

/-- A numeral in an encoded object is not too long. -/
theorem encoded_digits {fs : Fields} (key : Text) {s : Text} (h : assertExactPlainObject (.object fs) = .ok ())
    (hfield : (key, .string s) ∈ fs) : isDigits s → s.length ≤ RECOVERY_LIMITS.decimalDigits := by
  have hbounded := (canonicalJson_isOk.mp (assertExactPlainObject_eq_ok.mp h)).1.fits
  rw [ValueFits] at hbounded
  have hvalue := (fieldsFit_iff.mp hbounded.2.2 _ hfield).2
  rw [ValueFits] at hvalue
  exact hvalue.2.digits

/-- The most that a field of a record counts. -/
def fieldSize : Counted := .ofBytes 384

/-- The most that a record of so many fields counts. -/
def recordSize (n : Nat) : Counted := ⟨1, 0, 0⟩ + .times n (.ofBytes 60 + fieldSize)

/-- A safe integer that is not negative. -/
def IsCount (n : Int) : Prop := 0 ≤ n ∧ n ≤ maxSafeInteger

instance (n : Int) : Decidable (IsCount n) := inferInstanceAs (Decidable (_ ∧ _))

/-- A cycle identifier that can be encoded. -/
structure CycleName (s : Text) : Prop where
  identifier : isIdentifier s
  digits : isDigits s → s.length ≤ RECOVERY_LIMITS.decimalDigits

theorem compact_integerValue {n : Int} (h : IsCount n) : Compact (integerValue n) 0 fieldSize := by
  have hsmall : n.natAbs < 2 ^ 53 := by
    have hmax : n ≤ 2 ^ 53 - 1 := h.2
    have hpos := h.1
    omega
  have hvalue : integerValue n = .number (.integer (n.natAbs : Int) (by
      rw [Int.natAbs_natCast]
      exact isDouble_small hsmall)) := by
    have hsign : decide (n < 0) = false := decide_eq_false (not_lt.mpr h.1)
    rw [integerValue, hsign]
    exact congrArg Value.number (ofNat_small hsmall)
  rw [hvalue]
  exact (Compact.integer _).mono le_rfl (Counted.ofBytes_le (Nat.zero_le _))

/-- A text of at most 128 units. -/
theorem compact_text {s : Text} (hlength : s.length ≤ 128)
    (hdigits : isDigits s → s.length ≤ RECOVERY_LIMITS.decimalDigits) :
    Compact (.string s) 0 fieldSize :=
  Compact.string hlength (by decide) hdigits

theorem isIdentifier_length {s : Text} (h : isIdentifier s) : s.length ≤ 128 := by
  cases s with
  | nil => exact Nat.zero_le _
  | cons c cs =>
    simp only [isIdentifier, Bool.and_eq_true, decide_eq_true_eq] at h
    rw [List.length_cons]
    omega

theorem CycleName.compact {s : Text} (h : CycleName s) : Compact (.string s) 0 fieldSize :=
  compact_text (isIdentifier_length h.identifier) h.digits

theorem isDigest_length {s : Text} (h : isDigest s) : s.length = 71 := by
  simp only [isDigest, hasShape, Bool.and_eq_true, beq_iff_eq, List.length_drop] at h
  have hlead : (text "sha256:").length = 7 := by decide
  omega

/-- The first unit of a digest is a letter. -/
theorem isDigest_not_digits {s : Text} (h : isDigest s) : ¬ isDigits s := by
  cases s with
  | nil => simp [isDigits]
  | cons c cs =>
    intro hdigits
    simp only [isDigits, Bool.and_eq_true, List.all_cons] at hdigits
    simp only [isDigest, hasShape, Bool.and_eq_true, beq_iff_eq] at h
    have hlead : (c :: cs).take 7 = text "sha256:" := h.1.1
    have hhead : c = 115 := by
      have hfirst := congrArg List.head? hlead
      simpa [text] using hfirst
    rw [hhead] at hdigits
    exact absurd hdigits.2.1 (by decide)

theorem compact_digest {s : Text} (h : isDigest s) : Compact (.string s) 0 fieldSize :=
  compact_text (by rw [isDigest_length h]; decide) fun hdigits =>
    absurd hdigits (isDigest_not_digits h)

/-- A decimal numeral that the encoding admits. -/
theorem compact_decimal {s : Text} (h : isDecimal s) (hvalue : textNat s < 10 ^ 78) :
    Compact (.string s) 0 fieldSize := by
  have hlength : s.length ≤ 78 := isDecimal_length_le h (by decide) hvalue
  exact compact_text (hlength.trans (by decide)) fun _ => hlength

/-! ## Amounts -/

theorem assertMicroUsdAmount_eq_ok {s : Text} {label : String} {amount : Nat} :
    assertMicroUsdAmount s label = .ok amount ↔
      amount = textNat s ∧ isDecimal s ∧ (textNat s : Int) ≤ maxSafeInteger := by
  simp only [assertMicroUsdAmount, bind_eq_ok, revertIf_eq_ok, pure_eq_ok, not_not, not_lt]
  constructor
  · rintro ⟨_, hdecimal, _, hmax, hsame⟩
    exact ⟨hsame.symm, hdecimal, hmax⟩
  · rintro ⟨hsame, hdecimal, hmax⟩
    exact ⟨(), hdecimal, (), hmax, hsame.symm⟩

/-- A decimal amount of micro-USD. -/
structure MicroUsd (s : Text) : Prop where
  decimal : isDecimal s
  safe : (textNat s : Int) ≤ maxSafeInteger

theorem MicroUsd.compact {s : Text} (h : MicroUsd s) : Compact (.string s) 0 fieldSize := by
  have hsafe : (textNat s : Int) ≤ 2 ^ 53 - 1 := h.safe
  exact compact_decimal h.decimal (by omega)

/-- A record with few fields, all of them short. -/
theorem compact_record {fs : Fields} (hlength : fs.length ≤ RECOVERY_LIMITS.canonicalObjectFields)
    (h : ∀ f ∈ fs, (f.1.length ≤ 20 ∧ f.1 ∉ forbiddenKeys) ∧ Compact f.2 0 fieldSize) :
    Compact (.object fs) 1 (recordSize fs.length) := by
  have hfields := CompactFields.of_forall h (by decide)
  exact Compact.object hfields hlength

theorem Compact.exactPlainObject {v : Value} {n : Nat} (h : Compact v 1 (recordSize n))
    (hn : n ≤ RECOVERY_LIMITS.canonicalObjectFields) : assertExactPlainObject v = .ok () := by
  refine assertExactPlainObject_eq_ok.mpr (h.canonicalJson_isOk (by decide) ?_)
  have hmost : (recordSize RECOVERY_LIMITS.canonicalObjectFields).Within {} :=
    ⟨by decide, by decide, by decide⟩
  exact hmost.of_le (Counted.add_le (Counted.le_refl' _) (Counted.times_le hn _))

/-- What an accepted entry of the cycle ledger is. -/
structure CycleEntry.Accepted (e : CycleEntry) : Prop where
  name : CycleName e.cycleId
  digest : isDigest e.cycleDigest
  opened : IsCount e.openedAtMs
  weiDecimal : isDecimal e.releaseAmountWei
  wei : textNat e.releaseAmountWei < 2 ^ 256
  cost : MicroUsd e.releaseCostMicroUsd

theorem CycleMode.compact (mode : CycleMode) : Compact (.string mode.text) 0 fieldSize := by
  cases mode with
  | production => exact compact_text (by decide) (by decide)
  | rehearsal => exact compact_text (by decide) (by decide)

theorem CycleEntry.Accepted.compact {e : CycleEntry} (h : e.Accepted) :
    Compact e.toValue 1 (recordSize 6) := by
  have hwei : textNat e.releaseAmountWei < 10 ^ 78 := h.wei.trans (by decide)
  refine compact_record (show 6 ≤ RECOVERY_LIMITS.canonicalObjectFields by decide) ?_
  simp only [List.forall_mem_cons]
  exact ⟨⟨by decide, h.name.compact⟩, ⟨by decide, compact_digest h.digest⟩,
    ⟨by decide, e.mode.compact⟩, ⟨by decide, compact_integerValue h.opened⟩,
    ⟨by decide, compact_decimal h.weiDecimal hwei⟩, ⟨by decide, h.cost.compact⟩, by simp⟩

theorem assertCycleEntry_eq_ok {label : String} {e : CycleEntry} :
    assertCycleEntry label e = .ok () ↔ e.Accepted := by
  simp only [assertCycleEntry, assertCycleId, assertDigest, assertTimestamp, bind_eq_ok,
    revertIf_eq_ok, assertMicroUsdAmount_eq_ok, pure_eq_ok, not_not, not_or, not_lt]
  constructor
  · rintro ⟨_, hencoded, _, hid, _, hdigest, _, hopened, _, ⟨hdecimal, hwei⟩, _, ⟨-, hcost, hsafe⟩, -⟩
    have hdigits := encoded_digits (text "cycleId") hencoded List.mem_cons_self
    exact ⟨⟨hid, hdigits⟩, hdigest, hopened, hdecimal, not_le.mp hwei, ⟨hcost, hsafe⟩⟩
  · intro h
    exact ⟨(), h.compact.exactPlainObject (by decide), (), h.name.identifier, (), h.digest, (), h.opened, (),
      ⟨h.weiDecimal, not_le.mpr h.wei⟩, _, ⟨rfl, h.cost.decimal, h.cost.safe⟩, trivial⟩

/-- What an accepted entry of the spend ledger is. -/
structure SpendEntry.Accepted (e : SpendEntry) : Prop where
  name : CycleName e.cycleId
  digest : isDigest e.cycleDigest
  amount : MicroUsd e.amountMicroUsd
  reserved : IsCount e.reservedAtMs

theorem SpendEntry.Accepted.compact {e : SpendEntry} (h : e.Accepted) :
    Compact e.toValue 1 (recordSize 4) := by
  refine compact_record (show 4 ≤ RECOVERY_LIMITS.canonicalObjectFields by decide) ?_
  simp only [List.forall_mem_cons]
  exact ⟨⟨by decide, h.name.compact⟩, ⟨by decide, compact_digest h.digest⟩,
    ⟨by decide, h.amount.compact⟩, ⟨by decide, compact_integerValue h.reserved⟩, by simp⟩

theorem assertSpendEntry_eq_ok {label : String} {e : SpendEntry} :
    assertSpendEntry label e = .ok () ↔ e.Accepted := by
  simp only [assertSpendEntry, assertCycleId, assertDigest, assertTimestamp, bind_eq_ok,
    revertIf_eq_ok, assertMicroUsdAmount_eq_ok, not_not, not_or, not_lt]
  constructor
  · rintro ⟨_, hencoded, _, hid, _, hdigest, _, ⟨-, hamount, hsafe⟩, hreserved⟩
    have hdigits := encoded_digits (text "cycleId") hencoded List.mem_cons_self
    exact ⟨⟨hid, hdigits⟩, hdigest, ⟨hamount, hsafe⟩, hreserved⟩
  · intro h
    exact ⟨(), h.compact.exactPlainObject (by decide), (), h.name.identifier, (), h.digest, _,
      ⟨rfl, h.amount.decimal, h.amount.safe⟩, h.reserved⟩

/-- What an accepted approval is. -/
structure ApprovalAccepted (entry : Text × ManualApproval) : Prop where
  digest : isDigest entry.1
  name : CycleName entry.2.cycleId
  approved : IsCount entry.2.approvedAtMs

theorem ApprovalAccepted.compact {entry : Text × ManualApproval} (h : ApprovalAccepted entry) :
    Compact entry.2.toValue 1 (recordSize 2) := by
  refine compact_record (show 2 ≤ RECOVERY_LIMITS.canonicalObjectFields by decide) ?_
  simp only [List.forall_mem_cons]
  exact ⟨⟨by decide, h.name.compact⟩, ⟨by decide, compact_integerValue h.approved⟩, by simp⟩

theorem assertApproval_eq_ok {entry : Text × ManualApproval} :
    assertApproval entry = .ok () ↔ ApprovalAccepted entry := by
  simp only [assertApproval, assertCycleId, assertDigest, assertTimestamp, bind_eq_ok,
    revertIf_eq_ok, not_not, not_or, not_lt]
  constructor
  · rintro ⟨_, hdigest, _, hencoded, _, hid, happroved⟩
    have hdigits := encoded_digits (text "cycleId") hencoded List.mem_cons_self
    exact ⟨hdigest, ⟨hid, hdigits⟩, happroved⟩
  · intro h
    exact ⟨(), h.digest, (), h.compact.exactPlainObject (by decide), (), h.name.identifier, h.approved⟩

theorem pending_compact {seen : List PendingEpicDecision} {d : PendingEpicDecision}
    (h : assertPendingEpicDecision seen d = .ok ()) : Compact d.toValue 1 (recordSize 3) := by
  simp only [assertPendingEpicDecision, assertCycleId, assertDigest, assertTimestamp, bind_eq_ok,
    revertIf_eq_ok, not_not, not_or, not_lt] at h
  rcases h with ⟨_, hencoded, _, hid, _, hdigest, _, hheld, -⟩
  have hdigits := encoded_digits (text "cycleId") hencoded List.mem_cons_self
  have hname : CycleName d.cycleId := ⟨hid, hdigits⟩
  refine compact_record (show 3 ≤ RECOVERY_LIMITS.canonicalObjectFields by decide) ?_
  simp only [List.forall_mem_cons]
  exact ⟨⟨by decide, hname.compact⟩, ⟨by decide, compact_digest hdigest⟩,
    ⟨by decide, compact_integerValue hheld⟩, by simp⟩

/-! ## Settings -/

theorem isPackCode_length {s : Text} (h : isPackCode s) : s.length ≤ 64 := by
  cases s with
  | nil => exact Nat.zero_le _
  | cons c cs =>
    simp only [isPackCode, Bool.and_eq_true, decide_eq_true_eq] at h
    rw [List.length_cons]
    omega

theorem compact_packCode {s : Text} (h : isPackCode s) : Compact (.string s) 0 fieldSize := by
  have hlength := isPackCode_length h
  exact compact_text (by omega) fun _ => hlength.trans (by decide)

/-- What an accepted pack plan is, as far as its encoding depends on it. -/
structure PackPlan.Accepted (p : PackPlan) : Prop where
  schema : p.schema = PACK_PLAN_SCHEMA
  revision : IsCount p.revision
  orders : ∀ o ∈ p.orders, isPackCode o.pack ∧ IsCount o.quantity

theorem order_compact {o : PackOrder} (h : isPackCode o.pack ∧ IsCount o.quantity) :
    Compact o.toValue 1 (recordSize 2) := by
  refine compact_record (show 2 ≤ RECOVERY_LIMITS.canonicalObjectFields by decide) ?_
  simp only [List.forall_mem_cons]
  exact ⟨⟨by decide, compact_packCode h.1⟩, ⟨by decide, compact_integerValue h.2⟩, by simp⟩

/-- The most that a list counts whose items count so much. -/
def listSize (item : Counted) : Counted :=
  ⟨0, 1, 0⟩ + .times RECOVERY_LIMITS.canonicalArrayItems (.ofBytes 9 + item)

/-- The most that a key of the document counts. -/
def keySize : Counted := .ofBytes 87

/-- One more field of the document. -/
theorem CompactFields.field {key : Text} {v : Value} {fs : Fields} {levels : Nat}
    {size sizes : Counted} (hkey : key.length ≤ 29 ∧ key ∉ forbiddenKeys)
    (h : Compact v levels size) (hfs : CompactFields fs levels sizes) :
    CompactFields ((key, v) :: fs) levels (keySize + size + sizes) :=
  CompactFields.cons (n := 29) hkey h hfs (by decide)

/-- One more field with no parts. -/
theorem CompactFields.leaf {key : Text} {v : Value} {fs : Fields} {levels : Nat}
    {sizes : Counted} (hkey : key.length ≤ 29 ∧ key ∉ forbiddenKeys)
    (h : Compact v 0 fieldSize) (hfs : CompactFields fs levels sizes) :
    CompactFields ((key, v) :: fs) levels (keySize + fieldSize + sizes) :=
  CompactFields.field hkey (h.mono (Nat.zero_le _) ⟨le_rfl, le_rfl, le_rfl⟩) hfs

/-- The most that a pack plan counts. -/
def packPlanSize : Counted := ⟨1, 0, 0⟩ +
  (keySize + fieldSize + (keySize + fieldSize + (keySize + listSize (recordSize 2) + ⟨0, 0, 0⟩)))

theorem PackPlan.Accepted.compact {p : PackPlan} (h : p.Accepted)
    (hlength : p.orders.length ≤ RECOVERY_LIMITS.canonicalArrayItems) :
    Compact p.toValue 3 packPlanSize := by
  have hschema : Compact (.string p.schema) 0 fieldSize := by
    rw [h.schema]
    exact compact_text (by decide) (by decide)
  have horders : Compact (ordersValue p.orders) 2 (listSize (recordSize 2)) := by
    refine Compact.array ?_ (by simpa using hlength)
    intro v hv
    rcases List.mem_map.mp hv with ⟨o, ho, rfl⟩
    exact order_compact (h.orders o ho)
  have hkeys : ∀ key ∈ [text "schema", text "revision", text "orders"],
      key.length ≤ 29 ∧ key ∉ forbiddenKeys := by decide
  have hfields := CompactFields.leaf (hkeys (text "schema") (by decide)) hschema <|
    CompactFields.leaf (hkeys (text "revision") (by decide)) (compact_integerValue h.revision) <|
      CompactFields.field (hkeys (text "orders") (by decide)) horders .nil
  exact Compact.object hfields (show 3 ≤ RECOVERY_LIMITS.canonicalObjectFields by decide)

/-- Every record of the document is encoded on its own. -/
structure RecordsCompact (c : OperatorConfiguration) : Prop where
  pending : ∀ d ∈ c.pendingEpicDecisions, Compact d.toValue 1 (recordSize 3)
  approvals : ∀ entry ∈ c.approvalsByCycleDigest.entries, ApprovalAccepted entry
  spendLedger : ∀ e ∈ c.spendLedger, e.Accepted
  cycleLedger : ∀ e ∈ c.cycleLedger, e.Accepted
  revision : IsCount c.configurationRevision
  recipients : IsCount c.rewardRecipientLimit

theorem AcceptedRecords.compact {c : OperatorConfiguration} (h : AcceptedRecords c) :
    RecordsCompact c where
  pending := scan_forall h.pending fun _ _ hd => pending_compact hd
  approvals := scan_forall h.approvals fun _ _ hentry => assertApproval_eq_ok.mp hentry
  spendLedger := by
    refine scan_forall h.spendLedger fun seen e he => ?_
    simp only [assertSpendLedgerEntry, bind_eq_ok] at he
    rcases he with ⟨_, hentry, -⟩
    exact assertSpendEntry_eq_ok.mp hentry
  cycleLedger := by
    refine scan_forall h.cycleLedger fun seen e he => ?_
    simp only [assertCycleLedgerEntry, bind_eq_ok] at he
    rcases he with ⟨_, hentry, -⟩
    exact assertCycleEntry_eq_ok.mp hentry
  revision := h.revision
  recipients := by
    have hoptions : ∀ n ∈ REWARD_RECIPIENT_LIMIT_OPTIONS, IsCount n := by decide
    exact hoptions _ h.recipients

/-- An array that fits has no more items than allowed. -/
theorem ValueFits.items {vs : List Value} {depth : Nat} (h : ValueFits {} (.array vs) depth) :
    vs.length ≤ RECOVERY_LIMITS.canonicalArrayItems := by
  rw [ValueFits] at h
  exact h.2.1

end Hookemon.Runner
