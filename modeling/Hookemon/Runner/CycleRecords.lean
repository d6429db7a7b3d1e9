import Hookemon.Js.Date
import Hookemon.Runner.CanonicalOrder
import Hookemon.Runner.PayoutPlan

/-! # Evidence records (`cycle/cycle-store.mjs`)

An authorization and a receipt are objects with an exact set of string fields. A check
that accepts a value gives the record in it, and the record determines the value up to
the order of its keys.
-/

namespace Hookemon.Runner

open Hookemon.Core Hookemon.Js

/-! ## Exact objects -/

/-- `exactObject`, with the properties of the object that it returns. -/
def exactObject (value : Value) (fields : List Text) (label : String) : Except String Fields :=
  match value with
  | .object fs => do
    let _ ← canonicalJson value
    throwIf (fs.length ≠ fields.length ∨ ∃ field ∈ fields, field ∉ fs.map Prod.fst)
      (label ++ " must use the exact schema")
    return fs
  | _ => .error (label ++ " must be a plain object")

/-- The properties are these, in some order. -/
structure HasFields (fs : Fields) (fields : List Text) : Prop where
  count : fs.length = fields.length
  present : ∀ field ∈ fields, field ∈ fs.map Prod.fst

theorem exactObject_eq_ok {value : Value} {fields : List Text} {label : String} {fs : Fields} :
    exactObject value fields label = .ok fs ↔
      value = .object fs ∧ (∃ t, canonicalJson value = .ok t) ∧ HasFields fs fields := by
  cases value with
  | object gs =>
    rw [exactObject]
    simp only [bind_eq_ok, revertIf_eq_ok, pure_eq_ok, not_or, not_not, not_exists, not_and]
    constructor
    · rintro ⟨t, ht, _, ⟨hcount, hpresent⟩, rfl⟩
      exact ⟨rfl, ⟨t, ht⟩, hcount, hpresent⟩
    · rintro ⟨hsame, ⟨t, ht⟩, hcount, hpresent⟩
      cases hsame
      exact ⟨t, ht, (), ⟨hcount, hpresent⟩, rfl⟩
  | _ => simp [exactObject]

/-! ## String fields -/

/-- A string that a pattern accepts. -/
def assertPattern (pattern : Text → Bool) (value : Value) (message : String) :
    Except String Text :=
  match value with
  | .string s => do
    throwIf (¬ pattern s) message
    return s
  | _ => .error message

theorem assertPattern_eq_ok {pattern : Text → Bool} {value : Value} {message : String} {s : Text} :
    assertPattern pattern value message = .ok s ↔ value = .string s ∧ pattern s := by
  cases value with
  | string t =>
    simp only [assertPattern, bind_eq_ok, revertIf_eq_ok, pure_eq_ok, not_not, Value.string.injEq]
    constructor
    · rintro ⟨_, ht, rfl⟩
      exact ⟨rfl, ht⟩
    · rintro ⟨rfl, ht⟩
      exact ⟨(), ht, rfl⟩
  | _ => simp [assertPattern]

namespace CycleRecords

def assertDigest (value : Value) (label : String) : Except String Text :=
  assertPattern isDigest value (label ++ " is invalid")

def assertCycleId (value : Value) : Except String Text :=
  assertPattern isIdentifier value "cycleId is invalid"

end CycleRecords

/-- An object with string values. -/
def recordValue (names values : List Text) : Value :=
  .object (List.zipWith (fun name s => (name, .string s)) names values)

/-- The named properties are these strings. -/
def HasStrings (fs : Fields) (names values : List Text) : Prop :=
  List.Forall₂ (fun name s => getField fs name = .string s) names values

theorem recordValue_keys {names values : List Text} (h : names.length = values.length) :
    (List.zipWith (fun name s => (name, Value.string s)) names values).map Prod.fst = names := by
  induction names generalizing values with
  | nil => rfl
  | cons name names ih =>
    cases values with
    | nil => cases h
    | cons s values => simp [ih (Nat.succ.inj h)]

theorem recordValue_distinct {names values : List Text} (hnames : names.Nodup)
    (h : names.length = values.length) : (recordValue names values).distinctKeys := by
  refine distinctKeys_object.mpr ⟨by rwa [recordValue_keys h], ?_⟩
  intro f hf
  obtain ⟨i, hi, hget⟩ := List.mem_iff_getElem.mp hf
  rw [List.getElem_zipWith] at hget
  rw [← hget]
  rfl

theorem hasStrings_zipWith {names values : List Text} (hnames : names.Nodup)
    (h : names.length = values.length) :
    HasStrings (List.zipWith (fun name s => (name, .string s)) names values) names values := by
  induction names generalizing values with
  | nil =>
    cases values with
    | nil => exact .nil
    | cons s values => cases h
  | cons name names ih =>
    cases values with
    | nil => cases h
    | cons s values =>
      obtain ⟨hnew, hrest⟩ := List.nodup_cons.mp hnames
      refine .cons (by simp [getField]) ?_
      refine forall₂_imp_mem (ih hrest (Nat.succ.inj h)) fun other hother t hget => ?_
      have hne : (other == name) = false := by
        rw [beq_eq_false_iff_ne]
        rintro rfl
        exact hnew hother
      simpa [getField, List.lookup_cons, hne] using hget

/-- Objects with the same properties in some order are the same when sorted. -/
theorem sortKeys_of_perm {fs gs : Fields} (hnodup : (fs.map Prod.fst).Nodup) (h : fs.Perm gs) :
    (Value.object fs).sortKeys = (Value.object gs).sortKeys := by
  have hsorted : fs.insertionSort keyLe = gs.insertionSort keyLe := by
    have hperm : (fs.insertionSort keyLe).Perm (gs.insertionSort keyLe) :=
      (List.perm_insertionSort keyLe fs).trans (h.trans (List.perm_insertionSort keyLe gs).symm)
    refine hperm.eq_of_pairwise (fun p q hp hq hpq hqp => ?_)
      (List.pairwise_insertionSort keyLe fs) (List.pairwise_insertionSort keyLe gs)
    -- one key belongs to one property
    have hkey : p.1 = q.1 := le_antisymm hpq hqp
    have hp' := (List.mem_insertionSort keyLe).mp hp
    have hq' := h.mem_iff.mpr ((List.mem_insertionSort keyLe).mp hq)
    exact List.inj_on_of_nodup_map hnodup hp' hq' hkey
  rw [sortKeys_object, sortKeys_object, hsorted]

theorem eq_string_of_sortKeys {v : Value} {s : Text} (h : v.sortKeys = .string s) :
    v = .string s := by
  cases v with
  | string t => exact h
  | array vs => rw [sortKeys_array] at h; cases h
  | object fs => rw [sortKeys_object] at h; cases h
  | _ => cases h

/-- **An object with exactly these string properties is the record, up to the order of keys.** -/
theorem hasStrings_iff {v : Value} (hv : v.distinctKeys) {names values : List Text}
    (hnames : names.Nodup) (hlength : names.length = values.length) :
    (∃ fs, v = .object fs ∧ HasFields fs names ∧ HasStrings fs names values) ↔
      v.sortKeys = (recordValue names values).sortKeys := by
  constructor
  · rintro ⟨fs, rfl, hfields, hstrings⟩
    have hnodup := (distinctKeys_object.mp hv).1
    refine sortKeys_of_perm hnodup ?_
    -- every property of the record is one of the object, and there are no more
    have hsub : List.zipWith (fun name s => (name, Value.string s)) names values ⊆ fs := by
      intro f hf
      obtain ⟨i, hi, rfl⟩ := List.mem_iff_getElem.mp hf
      rw [List.length_zipWith] at hi
      have hget := List.forall₂_iff_get.mp hstrings |>.2 i (by omega) (by omega)
      rw [List.getElem_zipWith]
      refine (lookup_iff_mem hnodup).mp ?_
      rw [getField] at hget
      cases hlookup : fs.lookup (names.get ⟨i, by omega⟩) with
      | none =>
        rw [hlookup] at hget
        cases hget
      | some w =>
        rw [hlookup] at hget
        exact congrArg some hget
    have hrecord := (distinctKeys_object.mp (recordValue_distinct hnames hlength)).1
    have hsubperm := List.subperm_of_subset hrecord.of_map hsub
    refine (hsubperm.perm_of_length_le ?_).symm
    rw [List.length_zipWith, hfields.count, hlength, Nat.min_self]
  · intro hsame
    cases v with
    | object fs =>
      have hrecord := recordValue_distinct hnames hlength
      have hsorted : (fs.insertionSort keyLe).map Prod.fst
          = ((List.zipWith (fun name s => (name, Value.string s)) names values).insertionSort keyLe
            ).map Prod.fst := by
        rw [recordValue, sortKeys_object, sortKeys_object] at hsame
        have hfields := congrArg (List.map Prod.fst) (Value.object.inj hsame)
        rwa [List.map_map, List.map_map] at hfields
      have hperm : (fs.map Prod.fst).Perm names := by
        have hleft := (List.perm_insertionSort keyLe fs).map Prod.fst
        have hright := (List.perm_insertionSort keyLe
          (List.zipWith (fun name s => (name, Value.string s)) names values)).map Prod.fst
        rw [recordValue_keys hlength] at hright
        exact hleft.symm.trans (hsorted ▸ hright)
      refine ⟨fs, rfl, ⟨?_, fun field hfield => hperm.mem_iff.mpr hfield⟩, ?_⟩
      · rw [← hperm.length_eq, List.length_map]
      · refine (hasStrings_zipWith hnames hlength).imp fun name s hget => ?_
        have hsorted := congrArg (fun w => Value.get w name) hsame
        simp only [Value.get_sortKeys hv, Value.get_sortKeys hrecord] at hsorted
        exact eq_string_of_sortKeys (hsorted.trans (congrArg Value.sortKeys hget))
    | array vs =>
      rw [sortKeys_array, recordValue, sortKeys_object] at hsame
      cases hsame
    | _ =>
      rw [recordValue, sortKeys_object] at hsame
      cases hsame

/-! ## Authorizations -/

def actionKinds : List Text :=
  [text "outbound", text "generate", text "status", text "open", text "purchase", text "buyback",
    text "return", text "payout"]

def authorizationKinds : List Text :=
  [text "mutation", text "sign", text "broadcast", text "asset-spend", text "gas-spend",
    text "buyback-policy", text "vault-payout"]

structure AuthorizationRecord where
  key : Text
  nonceKey : Text
  cycleId : Text
  actionKind : Text
  authorizationKind : Text
  actionDigest : Text
  subjectDigest : Text
  commitment : Text
  validatedAt : Text
deriving DecidableEq

namespace AuthorizationRecord

def fields : List Text :=
  [text "key", text "nonceKey", text "cycleId", text "actionKind", text "authorizationKind",
    text "actionDigest", text "subjectDigest", text "commitment", text "validatedAt"]

def strings (r : AuthorizationRecord) : List Text :=
  [r.key, r.nonceKey, r.cycleId, r.actionKind, r.authorizationKind, r.actionDigest,
    r.subjectDigest, r.commitment, r.validatedAt]

def toValue (r : AuthorizationRecord) : Value := recordValue fields r.strings

end AuthorizationRecord

/-- `assertAuthorizationRecord`. -/
def assertAuthorizationRecord (value : Value) : Except String AuthorizationRecord := do
  let fs ← exactObject value AuthorizationRecord.fields "fixture authorization store record"
  let key ← CycleRecords.assertDigest (getField fs (text "key")) "authorization key"
  let nonceKey ←
    CycleRecords.assertDigest (getField fs (text "nonceKey")) "authorization nonce key"
  let actionDigest ←
    CycleRecords.assertDigest (getField fs (text "actionDigest")) "authorization action digest"
  let subjectDigest ←
    CycleRecords.assertDigest (getField fs (text "subjectDigest")) "authorization subject digest"
  let commitment ←
    CycleRecords.assertDigest (getField fs (text "commitment")) "authorization commitment"
  let cycleId ← CycleRecords.assertCycleId (getField fs (text "cycleId"))
  let actionKind ← assertPattern (· ∈ actionKinds) (getField fs (text "actionKind"))
    "authorization ownership is invalid"
  let authorizationKind ← assertPattern (· ∈ authorizationKinds)
    (getField fs (text "authorizationKind")) "authorization ownership is invalid"
  let validatedAt ← assertPattern isISOString (getField fs (text "validatedAt"))
    "authorization validation time is invalid"
  return { key, nonceKey, cycleId, actionKind, authorizationKind, actionDigest, subjectDigest,
           commitment, validatedAt }

/-- What the check asks of the strings of an authorization. -/
structure AuthorizationRecord.Shaped (r : AuthorizationRecord) : Prop where
  key : isDigest r.key
  nonceKey : isDigest r.nonceKey
  actionDigest : isDigest r.actionDigest
  subjectDigest : isDigest r.subjectDigest
  commitment : isDigest r.commitment
  cycleId : isIdentifier r.cycleId
  actionKind : r.actionKind ∈ actionKinds
  authorizationKind : r.authorizationKind ∈ authorizationKinds
  validatedAt : isISOString r.validatedAt

/-- An authorization that passes its own check. -/
structure AuthorizationRecord.Valid (r : AuthorizationRecord) : Prop where
  shaped : r.Shaped
  encoded : ∃ t, canonicalJson r.toValue = .ok t

theorem AuthorizationRecord.distinct (r : AuthorizationRecord) : r.toValue.distinctKeys :=
  recordValue_distinct (by decide) rfl

/-- **An accepted authorization is the record with its keys in some order.** -/
theorem assertAuthorizationRecord_eq_ok {v : Value} (hv : v.distinctKeys)
    {r : AuthorizationRecord} :
    assertAuthorizationRecord v = .ok r ↔ r.Valid ∧ v.sortKeys = r.toValue.sortKeys := by
  have hnames : AuthorizationRecord.fields.Nodup := by
    decide
  have hlength : AuthorizationRecord.fields.length = r.strings.length := rfl
  have hrecord := hasStrings_iff hv hnames hlength
  rw [AuthorizationRecord.toValue, ← hrecord]
  simp only [assertAuthorizationRecord, bind_eq_ok, exactObject_eq_ok, CycleRecords.assertDigest,
    CycleRecords.assertCycleId,
    assertPattern_eq_ok, decide_eq_true_eq, pure_eq_ok]
  constructor
  · rintro ⟨fs, ⟨rfl, hencoded, hfields⟩, key, ⟨hkey, key_ok⟩, nonce, ⟨hnonce, nonce_ok⟩, action,
      ⟨haction, action_ok⟩, subject, ⟨hsubject, subject_ok⟩, commitment, ⟨hcommitment, commitment_ok⟩,
      cycle, ⟨hcycle, cycle_ok⟩, kind, ⟨hkind, kind_ok⟩, authorization,
      ⟨hauthorization, authorization_ok⟩, time, ⟨htime, time_ok⟩, rfl⟩
    have hstrings : HasStrings fs AuthorizationRecord.fields
        [key, nonce, cycle, kind, authorization, action, subject, commitment, time] :=
      .cons hkey (.cons hnonce (.cons hcycle (.cons hkind (.cons hauthorization (.cons haction
        (.cons hsubject (.cons hcommitment (.cons htime .nil))))))))
    have hsame := hrecord.mp ⟨fs, rfl, hfields, hstrings⟩
    have hencoded' : ∃ t, canonicalJson (recordValue AuthorizationRecord.fields
        [key, nonce, cycle, kind, authorization, action, subject, commitment, time]) = .ok t := by
      obtain ⟨t, ht⟩ := hencoded
      exact ⟨t, (canonicalJson_congr hsame).mp ht⟩
    exact ⟨⟨⟨key_ok, nonce_ok, action_ok, subject_ok, commitment_ok, cycle_ok, kind_ok,
      authorization_ok, time_ok⟩, hencoded'⟩, fs, rfl, hfields, hstrings⟩
  · rintro ⟨⟨hshaped, hencoded⟩, fs, rfl, hfields, hstrings⟩
    have hsame := hrecord.mp ⟨fs, rfl, hfields, hstrings⟩
    have hencoded' : ∃ t, canonicalJson (.object fs) = .ok t := by
      obtain ⟨t, ht⟩ := hencoded
      exact ⟨t, (canonicalJson_congr hsame).mpr ht⟩
    obtain _ | ⟨hkey, _ | ⟨hnonce, _ | ⟨hcycle, _ | ⟨hkind, _ | ⟨hauthorization, _ | ⟨haction,
      _ | ⟨hsubject, _ | ⟨hcommitment, _ | ⟨htime, -⟩⟩⟩⟩⟩⟩⟩⟩⟩ := hstrings
    exact ⟨fs, ⟨rfl, hencoded', hfields⟩, _, ⟨hkey, hshaped.key⟩, _, ⟨hnonce, hshaped.nonceKey⟩, _,
      ⟨haction, hshaped.actionDigest⟩, _, ⟨hsubject, hshaped.subjectDigest⟩, _,
      ⟨hcommitment, hshaped.commitment⟩, _, ⟨hcycle, hshaped.cycleId⟩, _,
      ⟨hkind, hshaped.actionKind⟩, _, ⟨hauthorization, hshaped.authorizationKind⟩, _,
      ⟨htime, hshaped.validatedAt⟩, rfl⟩

/-! ## Receipts -/

/-- `^[a-z0-9-]{2,64}$`. -/
def isProvider (s : Text) : Bool :=
  2 ≤ s.length && s.length ≤ 64 &&
    s.all fun c => isDigit c || (97 ≤ c.toNat && c.toNat ≤ 122) || c = 45

/-- `^[A-Za-z0-9-]{1,128}$`. -/
def isProviderReceiptId (s : Text) : Bool :=
  1 ≤ s.length && s.length ≤ 128 && s.all fun c => isAlphanumeric c || c = 45

structure ReceiptRecord where
  key : Text
  provider : Text
  providerReceiptId : Text
  cycleId : Text
  actionKind : Text
  receiptDigest : Text
  receiptCommitment : Text
deriving DecidableEq

namespace ReceiptRecord

def fields : List Text :=
  [text "key", text "provider", text "providerReceiptId", text "cycleId", text "actionKind",
    text "receiptDigest", text "receiptCommitment"]

def strings (r : ReceiptRecord) : List Text :=
  [r.key, r.provider, r.providerReceiptId, r.cycleId, r.actionKind, r.receiptDigest,
    r.receiptCommitment]

def toValue (r : ReceiptRecord) : Value := recordValue fields r.strings

end ReceiptRecord

/-- `assertReceiptRecord`. -/
def assertReceiptRecord (value : Value) : Except String ReceiptRecord := do
  let fs ← exactObject value ReceiptRecord.fields "fixture receipt store record"
  let key ← CycleRecords.assertDigest (getField fs (text "key")) "receipt key"
  let receiptDigest ←
    CycleRecords.assertDigest (getField fs (text "receiptDigest")) "receipt receiptDigest"
  let receiptCommitment ←
    CycleRecords.assertDigest (getField fs (text "receiptCommitment")) "receipt receiptCommitment"
  let cycleId ← CycleRecords.assertCycleId (getField fs (text "cycleId"))
  let actionKind ← assertPattern (· ∈ actionKinds) (getField fs (text "actionKind"))
    "receipt action ownership is invalid"
  let provider ← assertPattern isProvider (getField fs (text "provider"))
    "receipt provider is invalid"
  let providerReceiptId ← assertPattern isProviderReceiptId
    (getField fs (text "providerReceiptId")) "receipt provider id is invalid"
  return { key, provider, providerReceiptId, cycleId, actionKind, receiptDigest,
           receiptCommitment }

/-- What the check asks of the strings of a receipt. -/
structure ReceiptRecord.Shaped (r : ReceiptRecord) : Prop where
  key : isDigest r.key
  receiptDigest : isDigest r.receiptDigest
  receiptCommitment : isDigest r.receiptCommitment
  cycleId : isIdentifier r.cycleId
  actionKind : r.actionKind ∈ actionKinds
  provider : isProvider r.provider
  providerReceiptId : isProviderReceiptId r.providerReceiptId

/-- A receipt that passes its own check. -/
structure ReceiptRecord.Valid (r : ReceiptRecord) : Prop where
  shaped : r.Shaped
  encoded : ∃ t, canonicalJson r.toValue = .ok t

theorem ReceiptRecord.distinct (r : ReceiptRecord) : r.toValue.distinctKeys :=
  recordValue_distinct (by decide) rfl

/-- **An accepted receipt is the record with its keys in some order.** -/
theorem assertReceiptRecord_eq_ok {v : Value} (hv : v.distinctKeys) {r : ReceiptRecord} :
    assertReceiptRecord v = .ok r ↔ r.Valid ∧ v.sortKeys = r.toValue.sortKeys := by
  have hnames : ReceiptRecord.fields.Nodup := by
    decide
  have hlength : ReceiptRecord.fields.length = r.strings.length := rfl
  have hrecord := hasStrings_iff hv hnames hlength
  rw [ReceiptRecord.toValue, ← hrecord]
  simp only [assertReceiptRecord, bind_eq_ok, exactObject_eq_ok, CycleRecords.assertDigest,
    CycleRecords.assertCycleId,
    assertPattern_eq_ok, decide_eq_true_eq, pure_eq_ok]
  constructor
  · rintro ⟨fs, ⟨rfl, hencoded, hfields⟩, key, ⟨hkey, key_ok⟩, receipt, ⟨hreceipt, receipt_ok⟩,
      commitment, ⟨hcommitment, commitment_ok⟩, cycle, ⟨hcycle, cycle_ok⟩, kind, ⟨hkind, kind_ok⟩,
      provider, ⟨hprovider, provider_ok⟩, id, ⟨hid, id_ok⟩, rfl⟩
    have hstrings : HasStrings fs ReceiptRecord.fields
        [key, provider, id, cycle, kind, receipt, commitment] :=
      .cons hkey (.cons hprovider (.cons hid (.cons hcycle (.cons hkind (.cons hreceipt
        (.cons hcommitment .nil))))))
    have hsame := hrecord.mp ⟨fs, rfl, hfields, hstrings⟩
    have hencoded' : ∃ t, canonicalJson (recordValue ReceiptRecord.fields
        [key, provider, id, cycle, kind, receipt, commitment]) = .ok t := by
      obtain ⟨t, ht⟩ := hencoded
      exact ⟨t, (canonicalJson_congr hsame).mp ht⟩
    exact ⟨⟨⟨key_ok, receipt_ok, commitment_ok, cycle_ok, kind_ok, provider_ok, id_ok⟩, hencoded'⟩,
      fs, rfl, hfields, hstrings⟩
  · rintro ⟨⟨hshaped, hencoded⟩, fs, rfl, hfields, hstrings⟩
    have hsame := hrecord.mp ⟨fs, rfl, hfields, hstrings⟩
    have hencoded' : ∃ t, canonicalJson (.object fs) = .ok t := by
      obtain ⟨t, ht⟩ := hencoded
      exact ⟨t, (canonicalJson_congr hsame).mpr ht⟩
    obtain _ | ⟨hkey, _ | ⟨hprovider, _ | ⟨hid, _ | ⟨hcycle, _ | ⟨hkind, _ | ⟨hreceipt,
      _ | ⟨hcommitment, -⟩⟩⟩⟩⟩⟩⟩ := hstrings
    exact ⟨fs, ⟨rfl, hencoded', hfields⟩, _, ⟨hkey, hshaped.key⟩, _,
      ⟨hreceipt, hshaped.receiptDigest⟩, _, ⟨hcommitment, hshaped.receiptCommitment⟩, _,
      ⟨hcycle, hshaped.cycleId⟩, _, ⟨hkind, hshaped.actionKind⟩, _,
      ⟨hprovider, hshaped.provider⟩, _, ⟨hid, hshaped.providerReceiptId⟩, rfl⟩

/-! ## Comparing records -/

theorem hasStrings_unique {fs : Fields} {names vs ws : List Text} (h : HasStrings fs names vs)
    (h' : HasStrings fs names ws) : vs = ws := by
  induction h generalizing ws with
  | nil =>
    cases h'
    rfl
  | cons hv _ ih =>
    obtain _ | ⟨hw, hrest⟩ := h'
    rw [ih hrest, Value.string.inj (hv.symm.trans hw)]

theorem recordValue_inj {names vs ws : List Text} (hnames : names.Nodup)
    (hvs : names.length = vs.length) (hws : names.length = ws.length)
    (h : (recordValue names vs).sortKeys = (recordValue names ws).sortKeys) : vs = ws := by
  obtain ⟨fs, hfs, -, hstrings⟩ :=
    (hasStrings_iff (recordValue_distinct hnames hvs) hnames hws).mpr h
  cases hfs
  exact hasStrings_unique (hasStrings_zipWith hnames hvs) hstrings

/-- Authorizations with one canonical text are equal. -/
theorem AuthorizationRecord.eq_of_text {r s : AuthorizationRecord} {t : Text}
    (h : canonicalJson r.toValue = .ok t) (h' : canonicalJson s.toValue = .ok t) : r = s := by
  have hnames : fields.Nodup := by
    decide
  have hlength : fields.length = r.strings.length := rfl
  have hstrings : r.strings = s.strings :=
    recordValue_inj hnames hlength rfl (canonicalJson_sortKeys r.distinct s.distinct h h')
  simp only [strings, List.cons.injEq] at hstrings
  cases r
  cases s
  simp_all

/-- Receipts with one canonical text are equal. -/
theorem ReceiptRecord.eq_of_text {r s : ReceiptRecord} {t : Text}
    (h : canonicalJson r.toValue = .ok t) (h' : canonicalJson s.toValue = .ok t) : r = s := by
  have hnames : fields.Nodup := by
    decide
  have hlength : fields.length = r.strings.length := rfl
  have hstrings : r.strings = s.strings :=
    recordValue_inj hnames hlength rfl (canonicalJson_sortKeys r.distinct s.distinct h h')
  simp only [strings, List.cons.injEq] at hstrings
  cases r
  cases s
  simp_all

/-- `canonicalJson(left) !== canonicalJson(right)`. -/
def differs (left right : Value) : Except String Bool := do
  let l ← canonicalJson left
  let r ← canonicalJson right
  return l ≠ r

/-- Values with a canonical text differ exactly when they are not the same data. -/
theorem differs_eq_ok {v w : Value} (hv : v.distinctKeys) (hw : w.distinctKeys)
    (hv' : ∃ t, canonicalJson v = .ok t) (hw' : ∃ t, canonicalJson w = .ok t) :
    differs v w = .ok (decide (v.sortKeys ≠ w.sortKeys)) := by
  obtain ⟨t, ht⟩ := hv'
  obtain ⟨u, hu⟩ := hw'
  have htexts : t ≠ u ↔ v.sortKeys ≠ w.sortKeys := by
    refine not_congr ⟨fun h => ?_, fun h => ?_⟩
    · rw [h] at ht
      exact canonicalJson_sortKeys hv hw ht hu
    · exact Except.ok.inj (ht.symm.trans ((canonicalJson_congr h).mpr hu))
  rw [differs, ht, hu]
  simp only [ok_bind, htexts]
  rfl

theorem AuthorizationRecord.differs_eq {r s : AuthorizationRecord} (hr : r.Valid) (hs : s.Valid) :
    differs r.toValue s.toValue = .ok (decide (r ≠ s)) := by
  rw [differs_eq_ok r.distinct s.distinct hr.encoded hs.encoded]
  refine congrArg Except.ok (decide_eq_decide.mpr ?_)
  refine not_congr ⟨fun h => ?_, fun h => h ▸ rfl⟩
  obtain ⟨t, ht⟩ := hr.encoded
  exact AuthorizationRecord.eq_of_text ht ((canonicalJson_congr h).mp ht)

theorem ReceiptRecord.differs_eq {r s : ReceiptRecord} (hr : r.Valid) (hs : s.Valid) :
    differs r.toValue s.toValue = .ok (decide (r ≠ s)) := by
  rw [differs_eq_ok r.distinct s.distinct hr.encoded hs.encoded]
  refine congrArg Except.ok (decide_eq_decide.mpr ?_)
  refine not_congr ⟨fun h => ?_, fun h => h ▸ rfl⟩
  obtain ⟨t, ht⟩ := hr.encoded
  exact ReceiptRecord.eq_of_text ht ((canonicalJson_congr h).mp ht)

end Hookemon.Runner
