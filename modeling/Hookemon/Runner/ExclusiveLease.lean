import Hookemon.Core.Runs
import Hookemon.Js.Text

/-! # The exclusive lease

Clients of one lease store. Each call of `acquireLease`, `renewLease` or `releaseLease`
reads the stored record and later writes it with a compare-and-swap on its version, and
anything may happen in between. The store counts its writes, so a version names at most
one lease. Nothing below depends on the clocks of the clients.
-/

namespace Hookemon.Runner

open Hookemon.Core Hookemon.Js

/-! ## The store -/

structure Lease where
  version : Nat
  owner : Text
  token : Text
  fencingToken : Text
  acquiredAt : Int
  expiresAt : Int
deriving DecidableEq, Repr

/-- The content of the lease file. -/
structure LeaseRecord where
  version : Nat
  lease : Option Lease
deriving DecidableEq, Repr

/-- `Number.isSafeInteger`. -/
def isSafeInteger (n : Int) : Bool := n.natAbs ≤ 2 ^ 53 - 1

/-- `EMPTY`. -/
def LeaseRecord.empty : LeaseRecord := ⟨0, none⟩

/-- `readRecord`: a version that is no safe integer is refused. -/
def readRecord (record : LeaseRecord) : Except String LeaseRecord := do
  throwIf (¬ isSafeInteger record.version) "lease store file schema is invalid"
  return record

/-- `compareAndSwapLease`: what the file holds afterwards, and whether it was written. -/
def compareAndSwapLease (record : LeaseRecord) (expectedVersion : Nat) (nextLease : Option Lease) :
    Except String (LeaseRecord × Bool) := do
  throwIf (¬ isSafeInteger expectedVersion) "lease store expectedVersion is invalid"
  let current ← readRecord record
  if current.version ≠ expectedVersion then return (record, false)
  return (⟨expectedVersion + 1, nextLease⟩, true)

/-! ## The calls, up to their write -/

/-- `^[0-9a-f]{8}-[0-9a-f]{4}-4[0-9a-f]{3}-[89ab][0-9a-f]{3}-[0-9a-f]{12}$`. -/
def isFencingToken (s : Text) : Bool :=
  s.length = 36 && (s.take 8).all isLowerHexDigit && s[8]? = some 45 &&
    ((s.drop 9).take 4).all isLowerHexDigit && s[13]? = some 45 && s[14]? = some 52 &&
    ((s.drop 15).take 3).all isLowerHexDigit && s[18]? = some 45 &&
    ((s.drop 19).take 1).all (fun c => c = 56 || c = 57 || c = 97 || c = 98) &&
    ((s.drop 20).take 3).all isLowerHexDigit && s[23]? = some 45 &&
    (s.drop 24).all isLowerHexDigit

def assertClock (now ttlMs : Int) : Except String Unit := do
  throwIf (¬ isSafeInteger now ∨ now < 0) "lease time is invalid"
  throwIf (¬ isSafeInteger ttlMs ∨ ttlMs ≤ 0) "lease ttl is invalid"
  throwIf (¬ isSafeInteger (now + ttlMs)) "lease expiry overflow"

/-- Version, owner and both tokens agree. -/
def sameLease (current lease : Lease) : Bool :=
  current.version = lease.version && current.owner = lease.owner && current.token = lease.token &&
    current.fencingToken = lease.fencingToken

def assertLeaseOwnership (current : Option Lease) (lease : Lease) : Except String Unit :=
  throwIf (¬ current.any fun stored => sameLease stored lease)
    "cycle lease owner token or version mismatch"

/-- `store.readLease()` and `assertSnapshot`. -/
def readLease (record : LeaseRecord) : Except String LeaseRecord := readRecord record

/-- Which call is about to write. -/
inductive Purpose where
  | acquire
  | renew (lease : Lease)
  | release (lease : Lease)
deriving DecidableEq, Repr

/-- A write that is prepared: the version that was read and the lease that it puts. -/
structure Pending where
  purpose : Purpose
  expectedVersion : Nat
  next : Option Lease
deriving DecidableEq, Repr

/-- `acquireLease` up to its write, with the two random identifiers that it draws. -/
def acquireLease (record : LeaseRecord) (owner token fencingToken : Text) (now ttlMs : Int) :
    Except String Pending := do
  throwIf (¬ isIdentifier owner) "lease owner is invalid"
  assertClock now ttlMs
  let snapshot ← readLease record
  throwIf (snapshot.lease.any fun lease => now < lease.expiresAt)
    "active cycle lease is already held"
  return ⟨.acquire, snapshot.version,
    some ⟨snapshot.version + 1, owner, token, fencingToken, now, now + ttlMs⟩⟩

/-- `renewLease` up to its write. -/
def renewLease (record : LeaseRecord) (lease : Lease) (now ttlMs : Int) :
    Except String Pending := do
  assertClock now ttlMs
  let snapshot ← readLease record
  assertLeaseOwnership snapshot.lease lease
  throwIf (snapshot.lease.any fun stored => stored.expiresAt ≤ now) "cycle lease has expired"
  return ⟨.renew lease, snapshot.version,
    snapshot.lease.map fun stored =>
      { stored with version := snapshot.version + 1, expiresAt := now + ttlMs }⟩

/-- `releaseLease` up to its write. -/
def releaseLease (record : LeaseRecord) (lease : Lease) : Except String Pending := do
  let snapshot ← readLease record
  assertLeaseOwnership snapshot.lease lease
  return ⟨.release lease, snapshot.version, none⟩

/-- `assertLeaseCurrent`. -/
def assertLeaseCurrent (record : LeaseRecord) (lease : Lease) (now : Int) : Except String Unit := do
  throwIf (¬ isSafeInteger lease.version) "cycle lease is invalid"
  throwIf (¬ isFencingToken lease.fencingToken) "cycle lease fencing token is invalid"
  throwIf (¬ isSafeInteger now ∨ now < 0) "lease time is invalid"
  let snapshot ← readLease record
  throwIf (¬ snapshot.lease.any fun stored => sameLease stored lease) "cycle lease lost: ownership"
  throwIf (snapshot.lease.any fun stored => stored.expiresAt ≤ now) "cycle lease lost: expired"

/-- What a call throws when its write is refused. -/
def Purpose.rejection : Purpose → String
  | .acquire => "concurrent cycle lease acquisition rejected"
  | .renew _ => "concurrent cycle lease renewal rejected"
  | .release _ => "concurrent cycle lease release rejected"

/-! ## Clients of one store -/

/-- The store, the leases that each client was ever given, and the write that each client is
about to do. A client does one call at a time. -/
structure World (ι : Type) where
  record : LeaseRecord
  held : ι → List Lease
  pending : ι → Option Pending

/-- Nobody has called yet. -/
def World.start (ι : Type) : World ι := ⟨.empty, fun _ => [], fun _ => none⟩

inductive LeaseEvent (ι : Type) where
  | acquire (c : ι) (owner token fencingToken : Text) (now ttlMs : Int)
  | renew (c : ι) (lease : Lease) (now ttlMs : Int)
  | release (c : ι) (lease : Lease)
  | write (c : ι)
  | assertCurrent (c : ι) (lease : Lease) (now : Int)
deriving DecidableEq

inductive LeaseOutcome where
  | prepared
  | acquired (lease : Lease)
  | renewed (lease renewed : Lease)
  | released (lease : Lease)
  | current (lease : Lease)
  | thrown (message : String)
  /-- No client behaves like this: it is in the middle of another call, has nothing to write,
  or was never given the lease. -/
  | impossible
deriving DecidableEq, Repr

variable {ι : Type} [DecidableEq ι]

namespace World

/-- A call of a client that is in none has read the store. -/
def prepare (w : World ι) (c : ι) (call : Except String Pending) : World ι × LeaseOutcome :=
  if w.pending c ≠ none then (w, .impossible)
  else
    match call with
    | .ok p => ({ w with pending := Function.update w.pending c (some p) }, .prepared)
    | .error e => (w, .thrown e)

/-- The end of a call: the lease that it returns is the client's. -/
def complete (w : World ι) (c : ι) (p : Pending) (record : LeaseRecord) :
    World ι × LeaseOutcome :=
  let done := { w with record, pending := Function.update w.pending c none }
  match p.purpose, p.next with
  | .acquire, some lease =>
    ({ done with held := Function.update w.held c (lease :: w.held c) }, .acquired lease)
  | .renew lease, some renewed =>
    ({ done with held := Function.update w.held c (renewed :: w.held c) }, .renewed lease renewed)
  | .release lease, _ => (done, .released lease)
  | _, none => (done, .impossible)

def write (w : World ι) (c : ι) : World ι × LeaseOutcome :=
  match w.pending c with
  | none => (w, .impossible)
  | some p =>
    let idle := { w with pending := Function.update w.pending c none }
    match compareAndSwapLease w.record p.expectedVersion p.next with
    | .error e => (idle, .thrown e)
    | .ok (_, false) => (idle, .thrown p.purpose.rejection)
    | .ok (record, true) => w.complete c p record

def step (w : World ι) : LeaseEvent ι → World ι × LeaseOutcome
  | .acquire c owner token fencingToken now ttlMs =>
    w.prepare c (acquireLease w.record owner token fencingToken now ttlMs)
  | .renew c lease now ttlMs =>
    if lease ∈ w.held c then w.prepare c (renewLease w.record lease now ttlMs)
    else (w, .impossible)
  | .release c lease =>
    if lease ∈ w.held c then w.prepare c (releaseLease w.record lease) else (w, .impossible)
  | .write c => w.write c
  | .assertCurrent c lease now =>
    if lease ∈ w.held c ∧ w.pending c = none then
      match assertLeaseCurrent w.record lease now with
      | .ok () => (w, .current lease)
      | .error e => (w, .thrown e)
    else (w, .impossible)

/-- The world after some events. -/
abbrev after (events : List (LeaseEvent ι)) : World ι := stateAfterRun step (start ι) events

end World

/-! ## What a prepared write knows -/

/-- While the record has the version that was read, it holds what was read. -/
structure PendingOk (record : LeaseRecord) (held : List Lease) (p : Pending) : Prop where
  read : p.expectedVersion ≤ record.version
  next : ∀ lease, p.next = some lease → lease.version = p.expectedVersion + 1
  acquire : p.purpose = .acquire → ∃ lease, p.next = some lease ∧
    (p.expectedVersion = record.version →
      ∀ stored, record.lease = some stored → stored.expiresAt ≤ lease.acquiredAt)
  renew : ∀ lease, p.purpose = .renew lease → lease ∈ held ∧
    (∃ renewed, p.next = some renewed ∧ renewed.fencingToken = lease.fencingToken) ∧
    (p.expectedVersion = record.version → record.lease = some lease)
  release : ∀ lease, p.purpose = .release lease → lease ∈ held ∧ p.next = none ∧
    (p.expectedVersion = record.version → record.lease = some lease)

/-- Versions name leases: a client holds what it was given, and what it was given is stored
while the version is current. -/
structure LeaseInv (w : World ι) : Prop where
  stored : ∀ lease, w.record.lease = some lease → lease.version = w.record.version
  held_le : ∀ c, ∀ lease ∈ w.held c, lease.version ≤ w.record.version
  held_stored : ∀ c, ∀ lease ∈ w.held c, lease.version = w.record.version →
    w.record.lease = some lease
  held_unique : ∀ c c' lease lease', lease ∈ w.held c → lease' ∈ w.held c' →
    lease.version = lease'.version → c = c' ∧ lease = lease'
  pending : ∀ c p, w.pending c = some p → PendingOk w.record (w.held c) p

theorem readLease_ok {record snapshot : LeaseRecord} (h : readLease record = .ok snapshot) :
    snapshot = record := by
  rw [readLease, readRecord] at h
  obtain ⟨-, -, h⟩ := bind_eq_ok.mp h
  exact (pure_eq_ok.mp h).symm

omit [DecidableEq ι] in
/-- A stored lease that agrees with a held one is that one. -/
theorem LeaseInv.stored_eq {w : World ι} (hw : LeaseInv w) {c : ι} {lease : Lease}
    (hheld : lease ∈ w.held c)
    (h : ¬ ¬ w.record.lease.any fun stored => sameLease stored lease) :
    w.record.lease = some lease := by
  rw [not_not] at h
  cases hstored : w.record.lease with
  | none =>
    rw [hstored] at h
    cases h
  | some stored =>
    rw [hstored, Option.any_some] at h
    simp only [sameLease, Bool.and_eq_true, decide_eq_true_eq] at h
    have hversion : lease.version = w.record.version := by
      rw [← hw.stored stored hstored]
      exact h.1.1.1.symm
    rw [← hstored]
    exact hw.held_stored c lease hheld hversion

theorem acquireLease_ok {record : LeaseRecord} (held : List Lease)
    {owner token fencingToken : Text} {now ttlMs : Int} {p : Pending}
    (h : acquireLease record owner token fencingToken now ttlMs = .ok p) :
    PendingOk record held p ∧ p.purpose = .acquire ∧
      ∀ lease, p.next = some lease → lease.fencingToken = fencingToken := by
  rw [acquireLease] at h
  obtain ⟨-, -, h⟩ := bind_eq_ok.mp h
  obtain ⟨-, -, h⟩ := bind_eq_ok.mp h
  obtain ⟨snapshot, hread, h⟩ := bind_eq_ok.mp h
  obtain ⟨_, hfree, h⟩ := bind_eq_ok.mp h
  rw [readLease_ok hread] at hfree h
  have hfree := revertIf_eq_ok.mp hfree
  cases pure_eq_ok.mp h
  refine ⟨⟨Nat.le_refl _, ?_, ?_, ?_, ?_⟩, rfl, ?_⟩
  · rintro lease ⟨⟩
    rfl
  · intro _
    refine ⟨_, rfl, fun _ stored hstored => ?_⟩
    rw [hstored, Option.any_some, decide_eq_true_iff] at hfree
    exact Int.not_lt.mp hfree
  · intro lease hpurpose
    cases hpurpose
  · intro lease hpurpose
    cases hpurpose
  · rintro lease ⟨⟩
    rfl

omit [DecidableEq ι] in
theorem LeaseInv.renewLease_ok {w : World ι} (hw : LeaseInv w) {c : ι} {lease : Lease}
    (hheld : lease ∈ w.held c) {now ttlMs : Int} {p : Pending}
    (h : renewLease w.record lease now ttlMs = .ok p) : PendingOk w.record (w.held c) p ∧
      p.purpose = .renew lease := by
  rw [renewLease] at h
  obtain ⟨-, -, h⟩ := bind_eq_ok.mp h
  obtain ⟨snapshot, hread, h⟩ := bind_eq_ok.mp h
  obtain ⟨_, howner, h⟩ := bind_eq_ok.mp h
  obtain ⟨-, -, h⟩ := bind_eq_ok.mp h
  rw [readLease_ok hread] at howner h
  have hstored := hw.stored_eq hheld (revertIf_eq_ok.mp howner)
  cases pure_eq_ok.mp h
  refine ⟨⟨Nat.le_refl _, ?_, ?_, ?_, ?_⟩, rfl⟩
  · intro renewed hnext
    rw [hstored] at hnext
    cases hnext
    rfl
  · intro hpurpose
    cases hpurpose
  · intro lease' hpurpose
    cases hpurpose
    refine ⟨hheld, ?_, fun _ => hstored⟩
    rw [hstored]
    exact ⟨_, rfl, rfl⟩
  · intro lease' hpurpose
    cases hpurpose

omit [DecidableEq ι] in
theorem LeaseInv.releaseLease_ok {w : World ι} (hw : LeaseInv w) {c : ι} {lease : Lease}
    (hheld : lease ∈ w.held c) {p : Pending}
    (h : releaseLease w.record lease = .ok p) : PendingOk w.record (w.held c) p ∧
      p.purpose = .release lease := by
  rw [releaseLease] at h
  obtain ⟨snapshot, hread, h⟩ := bind_eq_ok.mp h
  obtain ⟨_, howner, h⟩ := bind_eq_ok.mp h
  rw [readLease_ok hread] at howner h
  have hstored := hw.stored_eq hheld (revertIf_eq_ok.mp howner)
  cases pure_eq_ok.mp h
  refine ⟨⟨Nat.le_refl _, ?_, ?_, ?_, ?_⟩, rfl⟩
  · intro renewed hnext
    cases hnext
  · intro hpurpose
    cases hpurpose
  · intro lease' hpurpose
    cases hpurpose
  · intro lease' hpurpose
    cases hpurpose
    exact ⟨hheld, rfl, fun _ => hstored⟩

/-! ## Writing -/

theorem compareAndSwapLease_ok {record record' : LeaseRecord} {expectedVersion : Nat}
    {nextLease : Option Lease}
    (h : compareAndSwapLease record expectedVersion nextLease = .ok (record', true)) :
    expectedVersion = record.version ∧ record' = ⟨record.version + 1, nextLease⟩ := by
  rw [compareAndSwapLease] at h
  obtain ⟨-, -, h⟩ := bind_eq_ok.mp h
  obtain ⟨current, hread, h⟩ := bind_eq_ok.mp h
  rw [readLease_ok hread] at h
  by_cases hversion : record.version = expectedVersion
  · rw [if_neg (by simpa using hversion)] at h
    cases pure_eq_ok.mp h
    exact ⟨hversion.symm, by rw [hversion]⟩
  · rw [if_pos hversion] at h
    cases pure_eq_ok.mp h

namespace World

/-- The world after a write of `c` that put `next`. -/
def written (w : World ι) (c : ι) (next : Option Lease) : World ι where
  record := ⟨w.record.version + 1, next⟩
  held := Function.update w.held c (next.toList ++ w.held c)
  pending := Function.update w.pending c none

/-- Everything that an event can do to a world in which versions name leases. -/
inductive Effect (w : World ι) : LeaseEvent ι → World ι → LeaseOutcome → Prop where
  | thrown (e : LeaseEvent ι) (message : String) : Effect w e w (.thrown message)
  | impossible (e : LeaseEvent ι) : Effect w e w .impossible
  | prepared (e : LeaseEvent ι) (c : ι) (p : Pending) (idle : w.pending c = none)
      (ok : PendingOk w.record (w.held c) p)
      (drawn : p.purpose = .acquire → ∃ owner token fencingToken now ttlMs,
        e = .acquire c owner token fencingToken now ttlMs ∧
          ∀ lease, p.next = some lease → lease.fencingToken = fencingToken) :
      Effect w e { w with pending := Function.update w.pending c (some p) } .prepared
  | refused (c : ι) (p : Pending) (message : String) (was : w.pending c = some p) :
      Effect w (.write c) { w with pending := Function.update w.pending c none } (.thrown message)
  | acquired (c : ι) (p : Pending) (lease : Lease) (was : w.pending c = some p)
      (fresh : p.expectedVersion = w.record.version) (purpose : p.purpose = .acquire)
      (next : p.next = some lease) :
      Effect w (.write c) (w.written c (some lease)) (.acquired lease)
  | renewed (c : ι) (p : Pending) (lease renewed : Lease) (was : w.pending c = some p)
      (fresh : p.expectedVersion = w.record.version) (purpose : p.purpose = .renew lease)
      (next : p.next = some renewed) :
      Effect w (.write c) (w.written c (some renewed)) (.renewed lease renewed)
  | released (c : ι) (p : Pending) (lease : Lease) (was : w.pending c = some p)
      (fresh : p.expectedVersion = w.record.version) (purpose : p.purpose = .release lease)
      (next : p.next = none) : Effect w (.write c) (w.written c none) (.released lease)
  | current (c : ι) (lease : Lease) (now : Int) (held : lease ∈ w.held c)
      (stored : w.record.lease = some lease) :
      Effect w (.assertCurrent c lease now) w (.current lease)

theorem prepare_effect {w : World ι} {e : LeaseEvent ι} {c : ι} {call : Except String Pending}
    (hok : ∀ p, call = .ok p → PendingOk w.record (w.held c) p)
    (hdrawn : ∀ p, call = .ok p → p.purpose = .acquire → ∃ owner token fencingToken now ttlMs,
      e = .acquire c owner token fencingToken now ttlMs ∧
        ∀ lease, p.next = some lease → lease.fencingToken = fencingToken) :
    Effect w e (w.prepare c call).1 (w.prepare c call).2 := by
  unfold prepare
  by_cases hidle : w.pending c ≠ none
  · rw [if_pos hidle]
    exact .impossible e
  · rw [if_neg hidle]
    cases hcall : call with
    | error message => exact .thrown e message
    | ok p => exact .prepared e c p (not_not.mp hidle) (hok p hcall) (hdrawn p hcall)

theorem write_effect {w : World ι} (hw : LeaseInv w) (c : ι) :
    Effect w (.write c) (w.write c).1 (w.write c).2 := by
  unfold write
  cases hpending : w.pending c with
  | none => exact .impossible _
  | some p =>
    have hp := hw.pending c p hpending
    dsimp only
    cases hcas : compareAndSwapLease w.record p.expectedVersion p.next with
    | error message => exact .refused c p message hpending
    | ok result =>
      obtain ⟨record, written⟩ := result
      cases written with
      | false => exact .refused c p _ hpending
      | true =>
        obtain ⟨hfresh, rfl⟩ := compareAndSwapLease_ok hcas
        dsimp only
        unfold complete
        cases hpurpose : p.purpose with
        | acquire =>
          obtain ⟨lease, hnext, -⟩ := hp.acquire hpurpose
          rw [hnext]
          exact .acquired c p lease hpending hfresh hpurpose hnext
        | renew lease =>
          obtain ⟨-, ⟨renewed, hnext, -⟩, -⟩ := hp.renew lease hpurpose
          rw [hnext]
          exact .renewed c p lease renewed hpending hfresh hpurpose hnext
        | release lease =>
          obtain ⟨-, hnext, -⟩ := hp.release lease hpurpose
          have heffect := Effect.released (w := w) c p lease hpending hfresh hpurpose hnext
          rw [hnext]
          -- nothing is added to what the client holds
          have hheld : Function.update w.held c ((none : Option Lease).toList ++ w.held c)
              = w.held := by simp
          rw [written, hheld] at heffect
          exact heffect

theorem step_effect {w : World ι} (hw : LeaseInv w) (e : LeaseEvent ι) :
    Effect w e (w.step e).1 (w.step e).2 := by
  cases e with
  | acquire c owner token fencingToken now ttlMs =>
    refine prepare_effect (fun p hp => (acquireLease_ok _ hp).1) fun p hp _ => ?_
    exact ⟨owner, token, fencingToken, now, ttlMs, rfl, (acquireLease_ok [] hp).2.2⟩
  | renew c lease now ttlMs =>
    rw [step]
    by_cases hheld : lease ∈ w.held c
    · rw [if_pos hheld]
      refine prepare_effect (fun p hp => (hw.renewLease_ok hheld hp).1) fun p hp hpurpose => ?_
      rw [(hw.renewLease_ok hheld hp).2] at hpurpose
      cases hpurpose
    · rw [if_neg hheld]
      exact .impossible _
  | release c lease =>
    rw [step]
    by_cases hheld : lease ∈ w.held c
    · rw [if_pos hheld]
      refine prepare_effect (fun p hp => (hw.releaseLease_ok hheld hp).1) fun p hp hpurpose => ?_
      rw [(hw.releaseLease_ok hheld hp).2] at hpurpose
      cases hpurpose
    · rw [if_neg hheld]
      exact .impossible _
  | write c => exact write_effect hw c
  | assertCurrent c lease now =>
    rw [step]
    by_cases hcall : lease ∈ w.held c ∧ w.pending c = none
    · rw [if_pos hcall]
      cases hassert : assertLeaseCurrent w.record lease now with
      | error message => exact .thrown _ message
      | ok u =>
        rw [assertLeaseCurrent] at hassert
        obtain ⟨-, -, hassert⟩ := bind_eq_ok.mp hassert
        obtain ⟨-, -, hassert⟩ := bind_eq_ok.mp hassert
        obtain ⟨-, -, hassert⟩ := bind_eq_ok.mp hassert
        obtain ⟨snapshot, hread, hassert⟩ := bind_eq_ok.mp hassert
        obtain ⟨_, hsame, -⟩ := bind_eq_ok.mp hassert
        rw [readLease_ok hread] at hsame
        exact .current c lease now hcall.1 (hw.stored_eq hcall.1 (revertIf_eq_ok.mp hsame))
    · rw [if_neg hcall]
      exact .impossible _

end World

/-! ## The invariant -/

omit [DecidableEq ι] in
theorem leaseInv_start : LeaseInv (World.start ι) where
  stored := by rintro lease ⟨⟩
  held_le := by rintro c lease ⟨⟩
  held_stored := by rintro c lease ⟨⟩
  held_unique := by rintro c c' lease lease' ⟨⟩
  pending := by rintro c p ⟨⟩

/-- Preparing a write, or giving it up, changes no lease. -/
theorem leaseInv_pending {w : World ι} (hw : LeaseInv w) {c : ι} {next : Option Pending}
    (hnext : ∀ p, next = some p → PendingOk w.record (w.held c) p) :
    LeaseInv { w with pending := Function.update w.pending c next } where
  stored := hw.stored
  held_le := hw.held_le
  held_stored := hw.held_stored
  held_unique := hw.held_unique
  pending := by
    intro d p hp
    dsimp only at hp
    by_cases hd : d = c
    · subst hd
      rw [Function.update_self] at hp
      exact hnext p hp
    · rw [Function.update_of_ne hd] at hp
      exact hw.pending d p hp

/-- A write takes the next version, which nobody held before. -/
theorem leaseInv_written {w : World ι} (hw : LeaseInv w) (c : ι) {next : Option Lease}
    (hnext : ∀ lease, next = some lease → lease.version = w.record.version + 1) :
    LeaseInv (w.written c next) := by
  have hheld : ∀ d lease, lease ∈ (w.written c next).held d →
      lease ∈ w.held d ∨ (d = c ∧ next = some lease) := by
    intro d lease hmem
    by_cases hd : d = c
    · subst hd
      simp only [World.written, Function.update_self, List.mem_append, Option.mem_toList] at hmem
      rcases hmem with hnew | hold
      · exact .inr ⟨rfl, hnew⟩
      · exact .inl hold
    · simp only [World.written, Function.update_of_ne hd] at hmem
      exact .inl hmem
  constructor
  · intro lease hstored
    exact hnext lease hstored
  · intro d lease hmem
    rcases hheld d lease hmem with hold | ⟨-, hnew⟩
    · exact Nat.le_succ_of_le (hw.held_le d lease hold)
    · exact Nat.le_of_eq (hnext lease hnew)
  · intro d lease hmem hversion
    rcases hheld d lease hmem with hold | ⟨-, hnew⟩
    · -- an older lease has an older version
      have hle := hw.held_le d lease hold
      simp only [World.written] at hversion
      omega
    · exact hnew
  · intro d d' lease lease' hmem hmem' hversion
    rcases hheld d lease hmem with hold | ⟨hd, hnew⟩ <;>
      rcases hheld d' lease' hmem' with hold' | ⟨hd', hnew'⟩
    · exact hw.held_unique d d' lease lease' hold hold' hversion
    · have hle := hw.held_le d lease hold
      have heq := hnext lease' hnew'
      omega
    · have hle := hw.held_le d' lease' hold'
      have heq := hnext lease hnew
      omega
    · exact ⟨hd.trans hd'.symm, Option.some.inj (hnew.symm.trans hnew')⟩
  · intro d p hp
    by_cases hd : d = c
    · subst hd
      simp [World.written] at hp
    · simp only [World.written, Function.update_of_ne hd] at hp ⊢
      have hok := hw.pending d p hp
      have hread := hok.read
      -- what this client read is no longer current
      have hpast : p.expectedVersion ≠ w.record.version + 1 := by omega
      refine ⟨Nat.le_succ_of_le hread, hok.next, fun hpurpose => ?_, fun lease hpurpose => ?_,
        fun lease hpurpose => ?_⟩
      · obtain ⟨lease, hlease, -⟩ := hok.acquire hpurpose
        exact ⟨lease, hlease, fun hversion => absurd hversion hpast⟩
      · obtain ⟨hmem, hrenewed, -⟩ := hok.renew lease hpurpose
        exact ⟨hmem, hrenewed, fun hversion => absurd hversion hpast⟩
      · obtain ⟨hmem, hnone, -⟩ := hok.release lease hpurpose
        exact ⟨hmem, hnone, fun hversion => absurd hversion hpast⟩

theorem leaseInv_step (w : World ι) (e : LeaseEvent ι) (hw : LeaseInv w) :
    LeaseInv (w.step e).1 := by
  have heffect := World.step_effect hw e
  generalize (w.step e).1 = w', (w.step e).2 = o at heffect
  cases heffect with
  | thrown | impossible | current => exact hw
  | prepared _ c p idle ok drawn =>
    exact leaseInv_pending hw fun q hq => Option.some.inj hq ▸ ok
  | refused c p message was => exact leaseInv_pending hw (by rintro q ⟨⟩)
  | acquired c p lease was fresh purpose next =>
    refine leaseInv_written hw c fun stored hstored => ?_
    rw [← fresh]
    exact (hw.pending c p was).next stored (next.trans hstored)
  | renewed c p lease renewed was fresh purpose next =>
    refine leaseInv_written hw c fun stored hstored => ?_
    rw [← fresh]
    exact (hw.pending c p was).next stored (next.trans hstored)
  | released c p lease was fresh purpose next => exact leaseInv_written hw c (by rintro l ⟨⟩)

theorem leaseInv_after (events : List (LeaseEvent ι)) : LeaseInv (World.after events) :=
  run_invariant leaseInv_start leaseInv_step events

/-! ## Replaced leases -/

/-- The lease on which a call succeeded, other than an acquisition. -/
def LeaseOutcome.succeededOn : LeaseOutcome → Option Lease
  | .renewed lease _ | .released lease | .current lease => some lease
  | _ => none

/-- A lease of the client that is not the stored one. -/
def Replaced (w : World ι) (c : ι) (lease : Lease) : Prop :=
  lease ∈ w.held c ∧ w.record.lease ≠ some lease

/-- A write never stores a lease again that someone held. -/
theorem replaced_written {w : World ι} (hw : LeaseInv w) {c d : ι} {lease : Lease}
    {next : Option Lease} (hnext : ∀ l, next = some l → l.version = w.record.version + 1)
    (h : lease ∈ w.held c) : Replaced (w.written d next) c lease := by
  constructor
  · by_cases hc : c = d
    · subst hc
      simp [World.written, h]
    · simpa [World.written, Function.update_of_ne hc] using h
  · intro hstored
    have hversion := hnext lease hstored
    have hle := hw.held_le c lease h
    omega

theorem replaced_step {c : ι} {lease : Lease} (w : World ι) (e : LeaseEvent ι) (hw : LeaseInv w)
    (h : Replaced w c lease) : Replaced (w.step e).1 c lease := by
  have heffect := World.step_effect hw e
  generalize (w.step e).1 = w', (w.step e).2 = o at heffect
  cases heffect with
  | thrown | impossible | current | prepared | refused => exact h
  | acquired d p l was fresh purpose next =>
    refine replaced_written hw (fun stored hstored => ?_) h.1
    rw [← fresh]
    exact (hw.pending d p was).next stored (next.trans hstored)
  | renewed d p l renewed was fresh purpose next =>
    refine replaced_written hw (fun stored hstored => ?_) h.1
    rw [← fresh]
    exact (hw.pending d p was).next stored (next.trans hstored)
  | released d p l was fresh purpose next =>
    exact replaced_written hw (by rintro stored ⟨⟩) h.1

/-- What succeeds on a lease finds it stored. -/
theorem succeededOn_stored {w : World ι} (hw : LeaseInv w) {e : LeaseEvent ι} {lease : Lease}
    (h : (w.step e).2.succeededOn = some lease) : w.record.lease = some lease := by
  have heffect := World.step_effect hw e
  generalize (w.step e).1 = w', (w.step e).2 = o at heffect h
  cases heffect with
  | thrown | impossible | prepared | refused | acquired => cases h
  | renewed c p l renewed was fresh purpose next =>
    cases h
    exact ((hw.pending c p was).renew lease purpose).2.2 fresh
  | released c p l was fresh purpose next =>
    cases h
    exact ((hw.pending c p was).release lease purpose).2.2 fresh
  | current c l now held stored =>
    cases h
    exact stored

/-! ## Fencing tokens -/

/-- The fencing tokens that the events draw. -/
def drawnTokens (events : List (LeaseEvent ι)) : List Text :=
  events.filterMap fun
    | .acquire _ _ _ fencingToken _ _ => some fencingToken
    | _ => none

/-- The lease that a client is about to acquire. -/
def Acquiring (w : World ι) (c : ι) (lease : Lease) : Prop :=
  ∃ p, w.pending c = some p ∧ p.purpose = .acquire ∧ p.next = some lease

/-- Every token was drawn, and the token of an acquisition under way is nobody else's. -/
structure TokenInv (events : List (LeaseEvent ι)) (w : World ι) : Prop where
  inv : LeaseInv w
  held : ∀ c, ∀ lease ∈ w.held c, lease.fencingToken ∈ drawnTokens events
  acquiring : ∀ c lease, Acquiring w c lease → lease.fencingToken ∈ drawnTokens events
  fresh : ∀ c lease, Acquiring w c lease → ∀ c', ∀ old ∈ w.held c',
    old.fencingToken ≠ lease.fencingToken
  apart : ∀ c c' lease lease', Acquiring w c lease → Acquiring w c' lease' → c ≠ c' →
    lease.fencingToken ≠ lease'.fencingToken

omit [DecidableEq ι] in
theorem drawnTokens_mono {events : List (LeaseEvent ι)} {e : LeaseEvent ι} {t : Text}
    (h : t ∈ drawnTokens events) : t ∈ drawnTokens (events ++ [e]) := by
  rw [drawnTokens, List.filterMap_append]
  exact List.mem_append_left _ h

omit [DecidableEq ι] in
/-- An event that adds no token to the acquisitions under way keeps the tokens apart. -/
theorem TokenInv.shrink {events : List (LeaseEvent ι)} {w w' : World ι} {e : LeaseEvent ι}
    (h : TokenInv events w) (hinv : LeaseInv w')
    (hheld : ∀ c, ∀ lease ∈ w'.held c, ∃ c', ∃ old ∈ w.held c',
      old.fencingToken = lease.fencingToken)
    (hacquiring : ∀ c lease, Acquiring w' c lease → Acquiring w c lease) :
    TokenInv (events ++ [e]) w' where
  inv := hinv
  held := by
    intro c lease hmem
    obtain ⟨c', old, hold, htoken⟩ := hheld c lease hmem
    rw [← htoken]
    exact drawnTokens_mono (h.held c' old hold)
  acquiring := fun c lease hlease => drawnTokens_mono (h.acquiring c lease (hacquiring c lease hlease))
  fresh := by
    intro c lease hlease c' old hold
    obtain ⟨d, older, holder, htoken⟩ := hheld c' old hold
    rw [← htoken]
    exact h.fresh c lease (hacquiring c lease hlease) d older holder
  apart := fun c c' lease lease' hlease hlease' =>
    h.apart c c' lease lease' (hacquiring c lease hlease) (hacquiring c' lease' hlease')

theorem acquiring_update {w : World ι} {c d : ι} {next : Option Pending} {lease : Lease}
    (h : Acquiring { w with pending := Function.update w.pending d next } c lease)
    (hne : c ≠ d ∨ ∀ p, next = some p → p.purpose ≠ .acquire) :
    c ≠ d ∧ Acquiring w c lease := by
  obtain ⟨p, hp, hpurpose, hnext⟩ := h
  dsimp only at hp
  by_cases hc : c = d
  · subst hc
    rw [Function.update_self] at hp
    rcases hne with hne | hother
    · exact absurd rfl hne
    · exact absurd hpurpose (hother p hp)
  · rw [Function.update_of_ne hc] at hp
    exact ⟨hc, p, hp, hpurpose, hnext⟩

theorem acquiring_written {w : World ι} {c d : ι} {next : Option Lease} {lease : Lease}
    (h : Acquiring (w.written d next) c lease) : c ≠ d ∧ Acquiring w c lease := by
  obtain ⟨p, hp, hpurpose, hnext⟩ := h
  simp only [World.written] at hp
  by_cases hc : c = d
  · subst hc
    simp at hp
  · rw [Function.update_of_ne hc] at hp
    exact ⟨hc, p, hp, hpurpose, hnext⟩

theorem held_written {w : World ι} {c d : ι} {next : Option Lease} {lease : Lease}
    (h : lease ∈ (w.written d next).held c) : lease ∈ w.held c ∨ next = some lease := by
  by_cases hc : c = d
  · subst hc
    simp only [World.written, Function.update_self, List.mem_append, Option.mem_toList] at h
    exact h.symm
  · simp only [World.written, Function.update_of_ne hc] at h
    exact .inl h

/-- A token that is drawn now was not drawn before. -/
theorem TokenInv.draw {events : List (LeaseEvent ι)} {w : World ι} (h : TokenInv events w)
    {c : ι} {owner token fencingToken : Text} {now ttlMs : Int} {p : Pending}
    (hnodup : (drawnTokens (events ++ [.acquire c owner token fencingToken now ttlMs])).Nodup)
    (hnext : ∀ lease, p.next = some lease → lease.fencingToken = fencingToken)
    (hinv : LeaseInv { w with pending := Function.update w.pending c (some p) }) :
    TokenInv (events ++ [.acquire c owner token fencingToken now ttlMs])
      { w with pending := Function.update w.pending c (some p) } := by
  have hsplit : drawnTokens (events ++ [.acquire c owner token fencingToken now ttlMs])
      = drawnTokens events ++ [fencingToken] := by
    rw [drawnTokens, List.filterMap_append]
    rfl
  have hnew : ∀ t ∈ drawnTokens events, t ≠ fencingToken := by
    intro t ht
    rw [hsplit, List.nodup_append] at hnodup
    exact hnodup.2.2 t ht fencingToken (by simp)
  -- an acquisition is the new one, or was under way before
  have hcases : ∀ d lease, Acquiring { w with pending := Function.update w.pending c (some p) } d
      lease → (d = c ∧ lease.fencingToken = fencingToken) ∨ (d ≠ c ∧ Acquiring w d lease) := by
    intro d lease hlease
    by_cases hd : d = c
    · subst hd
      obtain ⟨q, hq, -, hqnext⟩ := hlease
      dsimp only at hq
      rw [Function.update_self] at hq
      cases hq
      exact .inl ⟨rfl, hnext lease hqnext⟩
    · exact .inr (acquiring_update hlease (.inl hd))
  refine ⟨hinv, fun d lease hmem => drawnTokens_mono (h.held d lease hmem), ?_, ?_, ?_⟩
  · intro d lease hlease
    rcases hcases d lease hlease with ⟨-, htoken⟩ | ⟨-, hbefore⟩
    · rw [htoken, hsplit]
      simp
    · exact drawnTokens_mono (h.acquiring d lease hbefore)
  · intro d lease hlease d' old hold
    rcases hcases d lease hlease with ⟨-, htoken⟩ | ⟨-, hbefore⟩
    · rw [htoken]
      exact hnew _ (h.held d' old hold)
    · exact h.fresh d lease hbefore d' old hold
  · intro d d' lease lease' hlease hlease' hne
    rcases hcases d lease hlease with ⟨hd, htoken⟩ | ⟨-, hbefore⟩ <;>
      rcases hcases d' lease' hlease' with ⟨hd', htoken'⟩ | ⟨-, hbefore'⟩
    · exact absurd (hd.trans hd'.symm) hne
    · rw [htoken]
      exact (hnew _ (h.acquiring d' lease' hbefore')).symm
    · rw [htoken']
      exact hnew _ (h.acquiring d lease hbefore)
    · exact h.apart d d' lease lease' hbefore hbefore' hne

theorem tokenInv_step {events : List (LeaseEvent ι)} (w : World ι) (e : LeaseEvent ι)
    (hnodup : (drawnTokens (events ++ [e])).Nodup) (h : TokenInv events w) :
    TokenInv (events ++ [e]) (w.step e).1 := by
  have hinv := leaseInv_step w e h.inv
  have heffect := World.step_effect h.inv e
  generalize (w.step e).1 = w', (w.step e).2 = o at heffect hinv
  have hkeep : ∀ {w' : World ι}, w'.held = w.held → ∀ c, ∀ lease ∈ w'.held c,
      ∃ c', ∃ old ∈ w.held c', old.fencingToken = lease.fencingToken := by
    intro w' heq c lease hmem
    rw [heq] at hmem
    exact ⟨c, lease, hmem, rfl⟩
  cases heffect with
  | thrown | impossible | current => exact h.shrink hinv (hkeep rfl) fun _ _ hlease => hlease
  | prepared _ c p idle ok drawn =>
    by_cases hpurpose : p.purpose = .acquire
    · obtain ⟨owner, token, fencingToken, now, ttlMs, rfl, hnext⟩ := drawn hpurpose
      exact h.draw hnodup hnext hinv
    · refine h.shrink hinv (hkeep rfl) fun d lease hlease => ?_
      refine (acquiring_update hlease (.inr ?_)).2
      rintro q ⟨⟩
      exact hpurpose
  | refused c p message was =>
    refine h.shrink hinv (hkeep rfl) fun d lease hlease => ?_
    exact (acquiring_update hlease (.inr (by rintro q ⟨⟩))).2
  | acquired c p lease was fresh purpose next =>
    have hown : Acquiring w c lease := ⟨p, was, purpose, next⟩
    refine ⟨hinv, fun d old hold => ?_, fun d l hl => ?_, fun d l hl d' old hold => ?_,
      fun d d' l l' hl hl' hne => ?_⟩
    · rcases held_written hold with hbefore | hnew
      · exact drawnTokens_mono (h.held d old hbefore)
      · rw [← Option.some.inj hnew]
        exact drawnTokens_mono (h.acquiring c lease hown)
    · exact drawnTokens_mono (h.acquiring d l (acquiring_written hl).2)
    · obtain ⟨hd, hbefore⟩ := acquiring_written hl
      rcases held_written hold with hheld | hnew
      · exact h.fresh d l hbefore d' old hheld
      · rw [← Option.some.inj hnew]
        exact h.apart c d lease l hown hbefore (Ne.symm hd)
    · exact h.apart d d' l l' (acquiring_written hl).2 (acquiring_written hl').2 hne
  | renewed c p lease renewed was fresh purpose next =>
    obtain ⟨hmem, ⟨renewed', hnext, htoken⟩, -⟩ := (h.inv.pending c p was).renew lease purpose
    have hsame : renewed' = renewed := Option.some.inj (hnext.symm.trans next)
    refine h.shrink hinv (fun d old hold => ?_) fun d l hl => (acquiring_written hl).2
    rcases held_written hold with hbefore | hnew
    · exact ⟨d, old, hbefore, rfl⟩
    · rw [← Option.some.inj hnew]
      exact ⟨c, lease, hmem, by rw [← htoken, hsame]⟩
  | released c p lease was fresh purpose next =>
    refine h.shrink hinv (fun d old hold => ?_) fun d l hl => (acquiring_written hl).2
    rcases held_written hold with hbefore | hnew
    · exact ⟨d, old, hbefore, rfl⟩
    · cases hnew

theorem tokenInv_after (events : List (LeaseEvent ι)) (h : (drawnTokens events).Nodup) :
    TokenInv events (World.after events) := by
  refine run_history (J := fun events w => (drawnTokens events).Nodup → TokenInv events w)
    ?_ ?_ events h
  · intro _
    refine ⟨leaseInv_start, ?_, ?_, ?_, ?_⟩
    · rintro c lease ⟨⟩
    · rintro c lease ⟨p, ⟨⟩, -⟩
    · rintro c lease ⟨p, ⟨⟩, -⟩
    · rintro c c' lease lease' ⟨p, ⟨⟩, -⟩
  · intro before w e hbefore hnodup
    have hprefix : (drawnTokens before).Nodup := by
      rw [drawnTokens, List.filterMap_append] at hnodup
      exact (List.nodup_append.mp hnodup).1
    exact tokenInv_step w e hnodup (hbefore hprefix)

/-! ## Exclusive leases -/

/-- After any calls of any clients, interleaved in any way and by any clocks: a lease is
acquired only over none or an expired one; nothing ever succeeds on a lease that was
replaced; only what is stored can be renewed or released; at most one lease is current;
and, when no fencing token is drawn twice, no acquisition uses the token of another. -/
theorem lease_exclusive (ι : Type) [DecidableEq ι] (events : List (LeaseEvent ι)) :
    (∀ c lease, ((World.after events).step (.write c)).2 = .acquired lease →
      ∀ stored, (World.after events).record.lease = some stored →
        stored.expiresAt ≤ lease.acquiredAt) ∧
    (∀ c lease, Replaced (World.after events) c lease → ∀ more e,
      ((World.after (events ++ more)).step e).2.succeededOn ≠ some lease) ∧
    (∀ e, ((World.after events).step e).1.record ≠ (World.after events).record →
      (∃ lease, ((World.after events).step e).2 = .acquired lease) ∨
      ∃ lease, ((World.after events).step e).2.succeededOn = some lease ∧
        (World.after events).record.lease = some lease) ∧
    (∀ c c' lease lease' now now',
      ((World.after events).step (.assertCurrent c lease now)).2 = .current lease →
      ((World.after events).step (.assertCurrent c' lease' now')).2 = .current lease' →
      c = c' ∧ lease = lease') ∧
    ((drawnTokens events).Nodup → ∀ c lease,
      ((World.after events).step (.write c)).2 = .acquired lease →
      ∀ c', ∀ old ∈ (World.after events).held c', old.fencingToken ≠ lease.fencingToken) := by
  have hinv := leaseInv_after events
  refine ⟨?_, ?_, ?_, ?_, ?_⟩
  · intro c lease hacquired stored hstored
    have heffect := World.step_effect hinv (.write c)
    rw [hacquired] at heffect
    generalize ((World.after events).step (.write c)).1 = w' at heffect
    cases heffect with
    | acquired _ p _ was fresh purpose next =>
      obtain ⟨lease', hnext, hexpired⟩ := (hinv.pending c p was).acquire purpose
      have hsame : lease' = lease := Option.some.inj (hnext.symm.trans next)
      rw [← hsame]
      exact hexpired fresh stored hstored
  · intro c lease hreplaced more e hsucceeded
    have hlater : Replaced (World.after (events ++ more)) c lease := by
      rw [World.after, stateAfterRun_append]
      exact run_stable (I := LeaseInv) hinv hreplaced leaseInv_step replaced_step more
    exact hlater.2 (succeededOn_stored (leaseInv_after (events ++ more)) hsucceeded)
  · intro e hchanged
    have hstored : ∀ lease, ((World.after events).step e).2.succeededOn = some lease →
        (World.after events).record.lease = some lease := fun _ => succeededOn_stored hinv
    have heffect := World.step_effect hinv e
    generalize ((World.after events).step e).1 = w', ((World.after events).step e).2 = o
      at heffect hchanged hstored
    cases heffect with
    | thrown | impossible | current | prepared | refused => exact absurd rfl hchanged
    | acquired c p lease => exact .inl ⟨lease, rfl⟩
    | renewed c p lease => exact .inr ⟨lease, rfl, hstored lease rfl⟩
    | released c p lease => exact .inr ⟨lease, rfl, hstored lease rfl⟩
  · intro c c' lease lease' now now' h h'
    have hheld : ∀ {c lease now}, ((World.after events).step (.assertCurrent c lease now)).2
        = .current lease → lease ∈ (World.after events).held c := by
      intro c lease now h
      have heffect := World.step_effect hinv (.assertCurrent c lease now)
      rw [h] at heffect
      generalize ((World.after events).step (.assertCurrent c lease now)).1 = w' at heffect
      cases heffect with
      | current _ _ _ held _ => exact held
    have hlease : lease = lease' := by
      have hstored := succeededOn_stored hinv (congrArg LeaseOutcome.succeededOn h)
      have hstored' := succeededOn_stored hinv (congrArg LeaseOutcome.succeededOn h')
      exact Option.some.inj (hstored.symm.trans hstored')
    exact hinv.held_unique c c' lease lease' (hheld h) (hheld h') (by rw [hlease])
  · intro hnodup c lease hacquired
    have htokens := tokenInv_after events hnodup
    have heffect := World.step_effect hinv (.write c)
    rw [hacquired] at heffect
    generalize ((World.after events).step (.write c)).1 = w' at heffect
    cases heffect with
    | acquired _ p _ was fresh purpose next => exact htokens.fresh c lease ⟨p, was, purpose, next⟩

def sampleLease (version : Nat) (owner fencingToken : String) (acquiredAt : Int) : Lease :=
  ⟨version, text owner, text "t", text fencingToken, acquiredAt, acquiredAt + 10⟩

/-- The lease of the first client expires while its renewal is under way, and the second
client acquires it. -/
def sampleLeaseRun : List (LeaseEvent (Fin 2)) :=
  [.acquire 0 (text "one") (text "t") (text "11111111-1111-4111-8111-111111111111") 0 10,
    .write 0,
    .renew 0 (sampleLease 1 "one" "11111111-1111-4111-8111-111111111111" 0) 9 10,
    .acquire 1 (text "two") (text "t") (text "22222222-2222-4222-8222-222222222222") 10 10,
    .write 1, .write 0]

theorem lease_exclusive_sample :
    (World.after sampleLeaseRun).record
        = ⟨2, some (sampleLease 2 "two" "22222222-2222-4222-8222-222222222222" 10)⟩ ∧
      ∀ more e, ((World.after (sampleLeaseRun ++ more)).step e).2.succeededOn
        ≠ some (sampleLease 1 "one" "11111111-1111-4111-8111-111111111111" 0) :=
  ⟨by decide +kernel,
    (lease_exclusive (Fin 2) sampleLeaseRun).2.1 0 _ ⟨by decide +kernel, by decide +kernel⟩⟩

end Hookemon.Runner
