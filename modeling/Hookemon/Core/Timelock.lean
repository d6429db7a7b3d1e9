import Mathlib

/-! # Parameters behind a time lock

A parameter that can be lowered at once but raised only after a delay. A raise
waits as the pending value until its activation time, and every new request
replaces what is pending. The value in force is the pending one from its
activation on, whether or not anyone has touched the parameter since: `settle`
only writes down what `effective` already says.

`raise_requested` is the law of such a parameter: whenever the value in force
has grown between two times, a request at least as high was made a full delay
before, and no other request replaced it before it took effect.
-/

namespace Hookemon.Core

/-- A parameter with its pending value; `activation` zero means nothing is
pending. -/
structure Timelock where
  value : Nat
  pending : Nat
  activation : Nat

/-- A request for a new value. -/
structure TimelockRequest where
  time : Nat
  value : Nat

namespace Timelock

/-- The value in force. -/
def effective (now : Nat) (l : Timelock) : Nat :=
  if l.activation ≠ 0 ∧ l.activation ≤ now then l.pending else l.value

/-- Write the value in force down. -/
def settle (now : Nat) (l : Timelock) : Timelock :=
  if l.activation ≠ 0 ∧ l.activation ≤ now then ⟨l.pending, 0, 0⟩ else l

/-- Request a value: lower at once, or wait for a raise. -/
def request (delay now v : Nat) (l : Timelock) : Timelock :=
  if v ≤ l.effective now then ⟨v, 0, 0⟩ else ⟨l.effective now, v, now + delay⟩

@[simp] theorem settle_value (now : Nat) (l : Timelock) :
    (l.settle now).value = l.effective now := by
  unfold settle effective
  split <;> rfl

/-- Settling changes nothing that can be seen from now on. -/
theorem effective_settle {now t : Nat} (h : now ≤ t) (l : Timelock) :
    (l.settle now).effective t = l.effective t := by
  unfold settle
  split
  · rename_i hdue
    have hdue' : l.activation ≠ 0 ∧ l.activation ≤ t := ⟨hdue.1, hdue.2.trans h⟩
    simp [effective, hdue']
  · rfl

/-- At the time of a request the value in force does not grow. -/
theorem effective_request_le {delay now : Nat} (hdelay : 0 < delay) (v : Nat) (l : Timelock) :
    (l.request delay now v).effective now ≤ l.effective now := by
  unfold request
  split
  · rename_i hlower
    simpa [effective] using hlower
  · have hwait : ¬ now + delay ≤ now := by omega
    simp [effective, hwait]

/-! ## Bounds -/

/-- Neither the value nor the pending value exceeds a maximum. -/
def Below (limitMax : Nat) (l : Timelock) : Prop :=
  l.value ≤ limitMax ∧ l.pending ≤ limitMax

theorem Below.effective {limitMax : Nat} {l : Timelock} (h : l.Below limitMax) (now : Nat) :
    l.effective now ≤ limitMax := by
  unfold Timelock.effective
  split
  · exact h.2
  · exact h.1

theorem Below.settle {limitMax : Nat} {l : Timelock} (h : l.Below limitMax) (now : Nat) :
    (l.settle now).Below limitMax := by
  unfold Timelock.settle
  split
  · exact ⟨h.2, Nat.zero_le _⟩
  · exact h

theorem Below.request {limitMax delay now v : Nat} {l : Timelock} (h : l.Below limitMax)
    (hv : v ≤ l.effective now ∨ v ≤ limitMax) : (l.request delay now v).Below limitMax := by
  have heffective := h.effective now
  unfold Timelock.request
  split
  · rename_i hlower
    exact ⟨hlower.trans heffective, Nat.zero_le _⟩
  · refine ⟨heffective, ?_⟩
    rcases hv with hlower | hmax
    · exact hlower.trans heffective
    · exact hmax

/-! ## Histories -/

/-- What can happen to a parameter from the time `t₀` on, with the requests so
far: time passes, someone settles it, someone requests a value. -/
inductive Evolves (delay t₀ : Nat) (l₀ : Timelock) (requests₀ : List TimelockRequest) :
    Nat → Timelock → List TimelockRequest → Prop where
  | refl : Evolves delay t₀ l₀ requests₀ t₀ l₀ requests₀
  | wait {t t' l requests} :
      Evolves delay t₀ l₀ requests₀ t l requests → t ≤ t' →
        Evolves delay t₀ l₀ requests₀ t' l requests
  | settle {t l requests} :
      Evolves delay t₀ l₀ requests₀ t l requests →
        Evolves delay t₀ l₀ requests₀ t (l.settle t) requests
  | request {t l requests} (v : Nat) :
      Evolves delay t₀ l₀ requests₀ t l requests →
        Evolves delay t₀ l₀ requests₀ t (l.request delay t v) (requests ++ [⟨t, v⟩])

/-- What a history from nothing pending keeps: a pending value is a raise, and it
is the last request, made one delay before its activation. -/
structure Pending (delay : Nat) (l : Timelock) (requests : List TimelockRequest) : Prop where
  raises : l.activation ≠ 0 → l.value < l.pending
  requested : l.activation ≠ 0 → ∃ earlier r, requests = earlier ++ [r] ∧
    r.value = l.pending ∧ r.time + delay = l.activation

theorem Pending.idle {delay v : Nat} {requests : List TimelockRequest} :
    Pending delay ⟨v, 0, 0⟩ requests := by
  refine ⟨?_, ?_⟩
  · intro h
    exact absurd rfl h
  · intro h
    exact absurd rfl h

theorem Pending.settle {delay : Nat} {l : Timelock} {requests : List TimelockRequest}
    (h : Pending delay l requests) (now : Nat) : Pending delay (l.settle now) requests := by
  unfold Timelock.settle
  split
  · exact .idle
  · exact h

theorem Pending.request {delay now v : Nat} {l : Timelock} {requests : List TimelockRequest} :
    Pending delay (l.request delay now v) (requests ++ [⟨now, v⟩]) := by
  unfold Timelock.request
  split
  · exact .idle
  · rename_i hraise
    refine ⟨?_, ?_⟩
    · intro _
      dsimp only
      omega
    · intro _
      exact ⟨requests, ⟨now, v⟩, rfl, rfl, rfl⟩

theorem Pending.evolves {delay t₀ t : Nat} {l₀ l : Timelock}
    {requests₀ requests : List TimelockRequest} (h : Evolves delay t₀ l₀ requests₀ t l requests)
    (h₀ : Pending delay l₀ requests₀) : Pending delay l requests := by
  induction h with
  | refl => exact h₀
  | wait _ _ ih => exact ih
  | settle _ ih => exact ih.settle _
  | request v _ _ => exact .request

/-! ## The law of raises -/

/-- The value `level` at the time `t` goes back to a raise that took effect after
`t₀`: a request at least as high, made a full delay before `t` and not replaced
before it took effect, which is `level` itself or was lowered to it since. -/
def RaisedTo (delay t₀ t level : Nat) (requests : List TimelockRequest) : Prop :=
  ∃ earlier r later, requests = earlier ++ r :: later ∧
    t₀ < r.time + delay ∧ r.time + delay ≤ t ∧ level ≤ r.value ∧
    (∀ r' ∈ later, r.time + delay ≤ r'.time) ∧
    (level = r.value ∨ ∃ r' ∈ later, r'.value = level)

theorem RaisedTo.mono {delay t₀ t t' level : Nat} {requests : List TimelockRequest}
    (h : RaisedTo delay t₀ t level requests) (hle : t ≤ t') :
    RaisedTo delay t₀ t' level requests := by
  rcases h with ⟨earlier, r, later, hsplit, hafter, hdue, hlevel, hkept, hvalue⟩
  exact ⟨earlier, r, later, hsplit, hafter, hdue.trans hle, hlevel, hkept, hvalue⟩

/-- A further request keeps the raise, at its level or at the requested lower
one. -/
theorem RaisedTo.snoc {delay t₀ t level level' : Nat} {requests : List TimelockRequest}
    {r' : TimelockRequest} (h : RaisedTo delay t₀ t level requests) (htime : r'.time = t)
    (hlevel' : level' = level ∨ level' = r'.value ∧ level' ≤ level) :
    RaisedTo delay t₀ t level' (requests ++ [r']) := by
  rcases h with ⟨earlier, r, later, hsplit, hafter, hdue, hlevel, hkept, hvalue⟩
  refine ⟨earlier, r, later ++ [r'], by rw [hsplit]; simp, hafter, hdue, by omega, ?_, ?_⟩
  · intro r'' hmem
    rcases List.mem_append.mp hmem with hold | hnew
    · exact hkept r'' hold
    · rw [List.mem_singleton.mp hnew, htime]
      exact hdue
  · rcases hlevel' with hsame | ⟨hlower, -⟩
    · rcases hvalue with hfirst | ⟨r'', hmem, hr''⟩
      · exact Or.inl (hsame.trans hfirst)
      · exact Or.inr ⟨r'', List.mem_append_left _ hmem, hr''.trans hsame.symm⟩
    · exact Or.inr ⟨r', by simp, hlower.symm⟩

section

variable {delay t₀ t base : Nat} {l l₀ : Timelock} {requests requests₀ : List TimelockRequest}

/-- The induction behind the law: the written value and, once it is due, the
pending one exceed `base` only by a raise; and what was due by `t₀` does not
exceed it. -/
structure Bounded (delay t₀ base t : Nat) (l : Timelock) (requests : List TimelockRequest) :
    Prop where
  pending : Pending delay l requests
  late : t₀ ≤ t
  written : base < l.value → RaisedTo delay t₀ t l.value requests
  due : l.activation ≠ 0 → l.activation ≤ t₀ → l.pending ≤ base

theorem Bounded.effective (h : Bounded delay t₀ base t l requests)
    (hgrown : base < l.effective t) : RaisedTo delay t₀ t (l.effective t) requests := by
  unfold Timelock.effective at hgrown ⊢
  split at hgrown
  · -- the pending value is due: the last request took effect unreplaced
    rename_i hdue
    rw [if_pos hdue]
    rcases h.pending.requested hdue.1 with ⟨earlier, r, hlast, hvalue, htime⟩
    refine ⟨earlier, r, [], hlast, ?_, ?_, hvalue.ge, by simp, Or.inl hvalue.symm⟩
    · rw [htime]
      by_contra hearly
      have hle := h.due hdue.1 (by omega)
      omega
    · rw [htime]
      exact hdue.2
  · rename_i hnot
    rw [if_neg hnot]
    exact h.written hgrown

theorem Bounded.evolves (hdelay : 0 < delay) (h₀ : Pending delay l₀ requests₀)
    (h : Evolves delay t₀ l₀ requests₀ t l requests) :
    Bounded delay t₀ (l₀.effective t₀) t l requests := by
  induction h with
  | refl =>
    refine ⟨h₀, le_rfl, ?_, ?_⟩
    · intro hgrown
      unfold Timelock.effective at hgrown
      split at hgrown
      · rename_i hdue
        have hraises := h₀.raises hdue.1
        omega
      · omega
    · intro hactive hdue
      rw [Timelock.effective, if_pos ⟨hactive, hdue⟩]
  | wait _ hle ih =>
    refine ⟨ih.pending, ih.late.trans hle, ?_, ih.due⟩
    intro hgrown
    exact (ih.written hgrown).mono hle
  | @settle t l requests _ ih =>
    refine ⟨ih.pending.settle _, ih.late, ?_, ?_⟩
    · rw [settle_value]
      exact ih.effective
    · unfold Timelock.settle
      split
      · intro hactive
        exact absurd rfl hactive
      · exact ih.due
  | @request t l requests v _ ih =>
    refine ⟨.request, ih.late, ?_, ?_⟩
    · unfold Timelock.request
      split
      · -- lowered from a value in force that is itself a raise
        rename_i hlower
        intro hgrown
        exact (ih.effective (hgrown.trans_le hlower)).snoc rfl (Or.inr ⟨rfl, hlower⟩)
      · intro hgrown
        exact (ih.effective hgrown).snoc rfl (Or.inl rfl)
    · unfold Timelock.request
      split
      · intro hactive
        exact absurd rfl hactive
      · intro _ hearly
        have hlate := ih.late
        dsimp only at hearly
        omega

/-- **The law of raises.** -/
theorem raise_requested (hdelay : 0 < delay) (h₀ : Pending delay l₀ requests₀)
    (h : Evolves delay t₀ l₀ requests₀ t l requests)
    (hgrown : l₀.effective t₀ < l.effective t) :
    RaisedTo delay t₀ t (l.effective t) requests :=
  (Bounded.evolves hdelay h₀ h).effective hgrown

end

end Timelock

end Hookemon.Core
