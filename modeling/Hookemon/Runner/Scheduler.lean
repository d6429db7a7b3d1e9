import Mathlib

/-! # The tick scheduler (`scheduler/scheduler.mjs`)

The scheduler drives ticks from a timer. Ticks are queued on a promise chain, so
a tick passes through three points at which anything else may happen in between:
it is dispatched when the ticks before it are done, its worker settles some time
later, and then its continuation arms the next timer. A step of the model is one
of these, a timer that fires, or a call from outside.

`timers` are the callbacks that the host holds: scheduled, not yet fired and not
cancelled. One of them is live while its generation is the current one.
-/

namespace Hookemon.Runner

/-! ## Ticks -/

/-- The intervals of a scheduler, as `createScheduler` accepts them. -/
structure SchedulerConfig where
  defaultIntervalMs : Nat
  reconcileRetryMs : Nat
  reconcileMaxBackoffMs : Nat
  defaultInterval_pos : 0 < defaultIntervalMs
  reconcileRetry_pos : 0 < reconcileRetryMs
  reconcileRetry_le : reconcileRetryMs ≤ reconcileMaxBackoffMs

abbrev reconcileBackoffFactor : Nat := 2

/-- The part of the operator configuration that a tick reads. -/
structure TickConfiguration where
  paused : Bool
  executionPaused : Bool
  killSwitch : Bool
  intervalMinutes : Nat
deriving DecidableEq, Repr

/-- What the worker call of a tick reports. -/
structure WorkerResult where
  status : String
  reason : Option String
deriving DecidableEq, Repr

/-- What a tick meets on its way: no state file, an unreadable one, a worker that
cannot be built or is invalid, a worker call that throws, or its result. -/
inductive TickSeen where
  | stateMissing
  | stateUnreadable
  | workerUnavailable (configuration : Option TickConfiguration)
  | workerThrew (configuration : Option TickConfiguration)
  | workerReturned (configuration : Option TickConfiguration) (result : Option WorkerResult)
deriving DecidableEq, Repr

/-- The two classes of outcomes that are retried fast. -/
inductive FastRetry where
  | outage
  | pending
deriving DecidableEq, Repr

/-- What a tick resolves to. -/
structure TickOutcome where
  intervalMs : Nat
  requiresFastRetry : Option FastRetry
  pendingReason : Option String
deriving DecidableEq, Repr

/-- `RECONCILE_PENDING_STATUSES`. -/
def reconcilePendingStatuses : List String :=
  ["ACTIVE_CYCLE_NOT_RECONCILED", "SUPPLEMENTARY_SETTLEMENT"]

/-- The reasons that `tickPendingReason` takes from the result of the worker. -/
def resultPendingReason (result : WorkerResult) : Option String :=
  match result.status with
  | "WAITING_FOR_PROCESS_BUDGET" => some "INSUFFICIENT_FUNDS"
  | "ACTIVE_CYCLE_NOT_RECONCILED" => some "RECONCILING_PENDING_TRANSACTION"
  | "SUPPLEMENTARY_SETTLEMENT" => some "RECONCILING_PENDING_TRANSACTION"
  | "LEASE_HELD" => some "LEASE_HELD_BY_ANOTHER_RUNNER"
  | "POLICY_REFUSED" => some ("POLICY_REFUSED_" ++ result.reason.getD "UNKNOWN")
  | "RECOVERY_REFUSED" => some ("RECOVERY_REFUSED_" ++ result.reason.getD "UNKNOWN")
  | _ => none

/-- `tickPendingReason`. -/
def tickPendingReason (configuration : Option TickConfiguration) (result : Option WorkerResult) :
    Option String :=
  match configuration with
  | none => some "CONFIGURATION_NOT_SET"
  | some conf =>
    match result.bind resultPendingReason with
    | some reason => some reason
    | none =>
      if conf.killSwitch then some "KILL_SWITCH"
      else if conf.executionPaused then some "EXECUTION_PAUSED"
      else if conf.paused then some "PAUSED"
      else none

/-- The interval that a tick reads from its configuration. -/
def tickIntervalMs (c : SchedulerConfig) (configuration : Option TickConfiguration) : Nat :=
  match configuration with
  | none => c.defaultIntervalMs
  | some conf => conf.intervalMinutes * 60000

/-- What `runTick` returns. -/
def runTick (c : SchedulerConfig) : TickSeen → TickOutcome
  | .stateMissing => ⟨tickIntervalMs c none, none, some "CONFIGURATION_NOT_SET"⟩
  | .stateUnreadable => ⟨tickIntervalMs c none, some .outage, some "STATE_UNAVAILABLE"⟩
  | .workerUnavailable configuration =>
    ⟨tickIntervalMs c configuration, some .outage, some "WORKER_UNAVAILABLE"⟩
  | .workerThrew configuration =>
    ⟨tickIntervalMs c configuration, some .outage, some "TICK_FAILED"⟩
  | .workerReturned configuration result =>
    ⟨tickIntervalMs c configuration,
      if (result.map WorkerResult.status).any (reconcilePendingStatuses.contains ·) then
        some .pending
      else none,
      tickPendingReason configuration result⟩

/-! ## State -/

/-- A callback that the host holds. -/
structure Timer where
  handle : Nat
  scheduledGeneration : Nat
  delayMs : Nat
deriving DecidableEq, Repr

/-- How far a tick on the chain is. It settles with an outcome, or with none when
its promise rejects. -/
inductive TickPhase where
  | queued
  | running
  | settled (outcome : Option TickOutcome)
deriving DecidableEq, Repr

/-- A tick on the promise chain. -/
structure QueuedTick where
  scheduleAfter : Bool
  scheduledGeneration : Option Nat
  phase : TickPhase
deriving DecidableEq, Repr

/-- The variables of a scheduler, with the host's timers and the ticks whose
continuation has not run yet, first to last. -/
structure Scheduler where
  stopped : Bool
  timerHandle : Option Nat
  scheduleGeneration : Nat
  outageBackoffMs : Option Nat
  nextCycleAtMs : Option Nat
  nextReconcileAtMs : Option Nat
  lastPendingReason : Option String
  timers : List Timer
  nextHandle : Nat
  tickChain : List QueuedTick
deriving DecidableEq, Repr

namespace Scheduler

/-- A new scheduler. -/
def initial : Scheduler where
  stopped := true
  timerHandle := none
  scheduleGeneration := 0
  outageBackoffMs := none
  nextCycleAtMs := none
  nextReconcileAtMs := none
  lastPendingReason := none
  timers := []
  nextHandle := 0
  tickChain := []

end Scheduler

/-! ## Functions -/

/-- `cancel(timerHandle)` where there is one. -/
def cancelTimer (s : Scheduler) : Scheduler :=
  match s.timerHandle with
  | none => s
  | some handle =>
    { s with timers := s.timers.filter (·.handle != handle), timerHandle := none }

def scheduleNext (delayMs : Nat) (s : Scheduler) : Scheduler :=
  if s.stopped then s
  else
    { s with
      timers := s.timers ++ [⟨s.nextHandle, s.scheduleGeneration, delayMs⟩]
      timerHandle := some s.nextHandle
      nextHandle := s.nextHandle + 1 }

/-- `applyScheduleOutcome`: the delay until the next wakeup, if this outcome asks
for one. -/
def applyScheduleOutcome (c : SchedulerConfig) (now : Nat) (outcome : TickOutcome)
    (scheduleAfter : Bool) (s : Scheduler) : Option Nat × Scheduler :=
  let s := { s with lastPendingReason := outcome.pendingReason }
  if scheduleAfter = false ∧ outcome.requiresFastRetry = none then (none, s)
  else
    match outcome.requiresFastRetry with
    | some .outage =>
      let backoffMs := match s.outageBackoffMs with
        | none => c.reconcileRetryMs
        | some backoffMs => min (backoffMs * reconcileBackoffFactor) c.reconcileMaxBackoffMs
      (some backoffMs, { s with
        outageBackoffMs := some backoffMs
        nextReconcileAtMs := some (now + backoffMs)
        nextCycleAtMs := none })
    | some .pending =>
      (some c.reconcileRetryMs, { s with
        outageBackoffMs := none
        nextReconcileAtMs := some (now + c.reconcileRetryMs)
        nextCycleAtMs := none })
    | none =>
      (some outcome.intervalMs, { s with
        outageBackoffMs := none
        nextCycleAtMs := some (now + outcome.intervalMs)
        nextReconcileAtMs := none })

def preemptInstalledTimer (delayMs : Nat) (s : Scheduler) : Scheduler :=
  if s.stopped then s
  else
    scheduleNext delayMs
      (cancelTimer { s with scheduleGeneration := s.scheduleGeneration + 1 })

def enqueueTick (scheduleAfter : Bool) (scheduledGeneration : Option Nat) (s : Scheduler) :
    Scheduler :=
  { s with tickChain := s.tickChain ++ [⟨scheduleAfter, scheduledGeneration, .queued⟩] }

def wake (scheduledGeneration : Nat) (s : Scheduler) : Scheduler :=
  let s := { s with timerHandle := none }
  if s.stopped ∨ scheduledGeneration ≠ s.scheduleGeneration then s
  else enqueueTick true (some scheduledGeneration) s

def start (s : Scheduler) : Scheduler :=
  if s.stopped then
    wake (s.scheduleGeneration + 1)
      { s with stopped := false, scheduleGeneration := s.scheduleGeneration + 1 }
  else s

def stop (s : Scheduler) : Scheduler :=
  cancelTimer { s with stopped := true, scheduleGeneration := s.scheduleGeneration + 1 }

/-- A timer of the host fires. -/
def fireTimer (handle : Nat) (s : Scheduler) : Scheduler :=
  match s.timers.find? (·.handle == handle) with
  | none => s
  | some timer => wake timer.scheduledGeneration { s with timers := s.timers.erase timer }

/-- The test at the head of `dispatch`. -/
def QueuedTick.stale (s : Scheduler) (tick : QueuedTick) : Bool :=
  match tick.scheduledGeneration with
  | none => false
  | some generation => s.stopped || generation != s.scheduleGeneration

/-- `dispatch` of the first tick of the chain: a stale automatic tick resolves
without running. -/
def dispatchTick (c : SchedulerConfig) (s : Scheduler) : Scheduler :=
  match s.tickChain with
  | [] => s
  | tick :: rest =>
    if tick.phase = .queued then
      { s with tickChain := { tick with
          phase := if tick.stale s then
              .settled (some ⟨c.defaultIntervalMs, none, s.lastPendingReason⟩)
            else .running } :: rest }
    else s

/-- The tick in flight settles: it saw `seen`, or its promise rejects. -/
def settleTick (c : SchedulerConfig) (seen : Option TickSeen) (s : Scheduler) : Scheduler :=
  match s.tickChain with
  | [] => s
  | tick :: rest =>
    if tick.phase = .running then
      { s with tickChain := { tick with phase := .settled (seen.map (runTick c)) } :: rest }
    else s

/-- The continuation that `enqueueTick` attached to a tick. An automatic tick
always has a delay. -/
def continueAfter (c : SchedulerConfig) (now : Nat) (tick : QueuedTick)
    (outcome : Option TickOutcome) (s : Scheduler) : Scheduler :=
  match outcome with
  | some result =>
    let (delayMs, s) := applyScheduleOutcome c now result tick.scheduleAfter s
    if tick.scheduleAfter then scheduleNext (delayMs.getD 0) s
    else
      match delayMs with
      | some delayMs => preemptInstalledTimer delayMs s
      | none => s
  | none => if tick.scheduleAfter then scheduleNext c.defaultIntervalMs s else s

/-- The continuation of the first tick of the chain, once it has settled. -/
def continueTick (c : SchedulerConfig) (now : Nat) (s : Scheduler) : Scheduler :=
  match s.tickChain with
  | [] => s
  | tick :: rest =>
    match tick.phase with
    | .settled outcome => continueAfter c now tick outcome { s with tickChain := rest }
    | _ => s

/-- What can happen to a scheduler. -/
inductive SchedulerEvent where
  | start
  | stop
  | triggerTick
  | fire (handle : Nat)
  | dispatch
  | settle (seen : Option TickSeen)
  | resume (now : Nat)
deriving DecidableEq, Repr

/-- One event. An event that cannot happen in a state leaves it as it is. -/
def Scheduler.step (c : SchedulerConfig) (s : Scheduler) : SchedulerEvent → Scheduler
  | .start => Runner.start s
  | .stop => Runner.stop s
  | .triggerTick => enqueueTick false none s
  | .fire handle => fireTimer handle s
  | .dispatch => dispatchTick c s
  | .settle seen => settleTick c seen s
  | .resume now => continueTick c now s

/-- The live timers: their generation is the current one. -/
def Scheduler.liveTimers (s : Scheduler) : List Timer :=
  s.timers.filter (·.scheduledGeneration == s.scheduleGeneration)

/-- A run from a state. -/
def Scheduler.run (c : SchedulerConfig) (s : Scheduler) (events : List SchedulerEvent) : Scheduler :=
  events.foldl (Scheduler.step c) s

/-! ## Cadences

A cadence is a live timer, or an automatic tick of the current generation that
will arm one. While the scheduler runs there is to be exactly one. -/

/-- The cadences of a generation among timers and ticks. -/
def cadencesOf (generation : Nat) (timers : List Timer) (ticks : List QueuedTick) : Nat :=
  timers.countP (·.scheduledGeneration == generation) +
    ticks.countP (·.scheduledGeneration == some generation)

def Scheduler.cadences (s : Scheduler) : Nat :=
  cadencesOf s.scheduleGeneration s.timers s.tickChain

theorem Scheduler.liveTimers_le_cadences (s : Scheduler) : s.liveTimers.length ≤ s.cadences := by
  rw [Scheduler.liveTimers, ← List.countP_eq_length_filter]
  exact Nat.le_add_right _ _

/-- Nothing is of a later generation, and manual ticks are of none. -/
structure Generations (generation : Nat) (timers : List Timer) (ticks : List QueuedTick) :
    Prop where
  ofTimers : ∀ timer ∈ timers, timer.scheduledGeneration ≤ generation
  ofTicks : ∀ tick ∈ ticks, ∀ g, tick.scheduledGeneration = some g → g ≤ generation
  ofManual : ∀ tick ∈ ticks, tick.scheduleAfter = false → tick.scheduledGeneration = none

/-- A scheduler with `n` cadences. -/
structure HasCadences (n : Nat) (s : Scheduler) : Prop where
  generations : Generations s.scheduleGeneration s.timers s.tickChain
  cadences : s.cadences = n

/-- The invariant: one cadence while the scheduler runs, none while it is
stopped. -/
def OneCadence (s : Scheduler) : Prop :=
  HasCadences (if s.stopped then 0 else 1) s

section

variable {generation : Nat} {timers : List Timer} {ticks : List QueuedTick}

theorem Generations.mono (h : Generations generation timers ticks) {generation' : Nat}
    (hle : generation ≤ generation') : Generations generation' timers ticks where
  ofTimers timer hmem := (h.ofTimers timer hmem).trans hle
  ofTicks tick hmem g hg := (h.ofTicks tick hmem g hg).trans hle
  ofManual := h.ofManual

/-- A new generation starts without a cadence. -/
theorem Generations.cadences_next (h : Generations generation timers ticks) :
    cadencesOf (generation + 1) timers ticks = 0 := by
  have htimers : timers.countP (·.scheduledGeneration == generation + 1) = 0 := by
    refine List.countP_eq_zero.mpr ?_
    intro timer hmem hlive
    have hle := h.ofTimers timer hmem
    rw [beq_iff_eq] at hlive
    omega
  have hticks : ticks.countP (·.scheduledGeneration == some (generation + 1)) = 0 := by
    refine List.countP_eq_zero.mpr ?_
    intro tick hmem hlive
    rw [beq_iff_eq] at hlive
    have hle := h.ofTicks tick hmem _ hlive
    omega
  rw [cadencesOf, htimers, hticks]

theorem Generations.filter (h : Generations generation timers ticks) (keep : Timer → Bool) :
    Generations generation (timers.filter keep) ticks where
  ofTimers timer hmem := h.ofTimers timer (List.mem_of_mem_filter hmem)
  ofTicks := h.ofTicks
  ofManual := h.ofManual

theorem Generations.erase (h : Generations generation timers ticks) (timer : Timer) :
    Generations generation (timers.erase timer) ticks where
  ofTimers timer' hmem := h.ofTimers timer' (List.mem_of_mem_erase hmem)
  ofTicks := h.ofTicks
  ofManual := h.ofManual

theorem Generations.arm (h : Generations generation timers ticks) (handle delayMs : Nat) :
    Generations generation (timers ++ [⟨handle, generation, delayMs⟩]) ticks where
  ofTimers := by
    intro timer hmem
    rcases List.mem_append.mp hmem with hold | hnew
    · exact h.ofTimers timer hold
    · rw [List.mem_singleton.mp hnew]
  ofTicks := h.ofTicks
  ofManual := h.ofManual

theorem Generations.enqueue (h : Generations generation timers ticks) {tick : QueuedTick}
    (htick : ∀ g, tick.scheduledGeneration = some g → g ≤ generation)
    (hmanual : tick.scheduleAfter = false → tick.scheduledGeneration = none) :
    Generations generation timers (ticks ++ [tick]) where
  ofTimers := h.ofTimers
  ofTicks := by
    intro tick' hmem
    rcases List.mem_append.mp hmem with hold | hnew
    · exact h.ofTicks tick' hold
    · rw [List.mem_singleton.mp hnew]
      exact htick
  ofManual := by
    intro tick' hmem
    rcases List.mem_append.mp hmem with hold | hnew
    · exact h.ofManual tick' hold
    · rw [List.mem_singleton.mp hnew]
      exact hmanual

/-- The phase of a tick does not matter. -/
theorem Generations.phase {tick : QueuedTick} (h : Generations generation timers (tick :: ticks))
    (phase : TickPhase) : Generations generation timers ({ tick with phase := phase } :: ticks) where
  ofTimers := h.ofTimers
  ofTicks := by
    intro tick' hmem
    rcases List.mem_cons.mp hmem with hfirst | hrest
    · rw [hfirst]
      exact h.ofTicks tick (List.mem_cons_self)
    · exact h.ofTicks tick' (List.mem_cons_of_mem _ hrest)
  ofManual := by
    intro tick' hmem
    rcases List.mem_cons.mp hmem with hfirst | hrest
    · rw [hfirst]
      exact h.ofManual tick (List.mem_cons_self)
    · exact h.ofManual tick' (List.mem_cons_of_mem _ hrest)

theorem Generations.tail {tick : QueuedTick} (h : Generations generation timers (tick :: ticks)) :
    Generations generation timers ticks where
  ofTimers := h.ofTimers
  ofTicks tick' hmem := h.ofTicks tick' (List.mem_cons_of_mem _ hmem)
  ofManual tick' hmem := h.ofManual tick' (List.mem_cons_of_mem _ hmem)

end

theorem oneCadence_initial : OneCadence .initial := by
  refine ⟨⟨?_, ?_, ?_⟩, rfl⟩
  · intro timer hmem
    cases hmem
  · intro tick hmem
    cases hmem
  · intro tick hmem
    cases hmem

/-! ## What the functions do to the cadences -/

@[simp] theorem cancelTimer_stopped (s : Scheduler) : (cancelTimer s).stopped = s.stopped := by
  unfold cancelTimer
  split <;> rfl

@[simp] theorem scheduleNext_stopped (delayMs : Nat) (s : Scheduler) :
    (scheduleNext delayMs s).stopped = s.stopped := by
  unfold scheduleNext
  split <;> rfl

@[simp] theorem wake_stopped (generation : Nat) (s : Scheduler) :
    (wake generation s).stopped = s.stopped := by
  unfold wake
  dsimp only
  split <;> rfl

section

variable {c : SchedulerConfig} {s : Scheduler} {n : Nat}

/-- Arming a timer adds a cadence, unless the scheduler is stopped. -/
theorem HasCadences.scheduleNext (h : HasCadences n s) (delayMs : Nat) :
    HasCadences (if s.stopped then n else n + 1) (scheduleNext delayMs s) := by
  unfold Runner.scheduleNext
  split
  · exact h
  · refine ⟨h.generations.arm _ _, ?_⟩
    have hcount := h.cadences
    simp only [Scheduler.cadences, cadencesOf] at hcount ⊢
    rw [List.countP_append, List.countP_singleton, beq_self_eq_true, if_pos rfl]
    omega

/-- Bumping the generation and cancelling the installed timer leaves no
cadence. -/
theorem HasCadences.renew (h : HasCadences n s) (stopped : Bool) :
    HasCadences 0 (cancelTimer
      { s with stopped := stopped, scheduleGeneration := s.scheduleGeneration + 1 }) := by
  have hnext := h.generations.mono (Nat.le_succ s.scheduleGeneration)
  unfold cancelTimer
  split
  · exact ⟨hnext, h.generations.cadences_next⟩
  · exact ⟨hnext.filter _, (h.generations.filter _).cadences_next⟩

/-- A manual tick is no cadence. -/
theorem HasCadences.enqueueManual (h : HasCadences n s) :
    HasCadences n (enqueueTick false none s) := by
  refine ⟨h.generations.enqueue (by simp) (fun _ => rfl), ?_⟩
  have hcount := h.cadences
  simp only [Scheduler.cadences, cadencesOf, enqueueTick] at hcount ⊢
  rw [List.countP_append, List.countP_singleton]
  exact hcount

/-- A timer that wakes a running scheduler in its own generation becomes a
tick. -/
theorem HasCadences.wake (h : HasCadences n s) (generation : Nat) :
    HasCadences (if s.stopped ∨ generation ≠ s.scheduleGeneration then n else n + 1)
      (wake generation s) := by
  unfold Runner.wake
  dsimp only
  split
  · exact ⟨h.generations, h.cadences⟩
  · rename_i hlive
    push Not at hlive
    rcases hlive with ⟨-, hcurrent⟩
    refine ⟨h.generations.enqueue ?_ (by simp), ?_⟩
    · intro g hg
      cases hg
      exact hcurrent.le
    · have hcount := h.cadences
      simp only [Scheduler.cadences, cadencesOf, enqueueTick] at hcount ⊢
      rw [List.countP_append, List.countP_singleton, hcurrent, beq_self_eq_true, if_pos rfl]
      omega

/-- `applyScheduleOutcome` touches no timer, no tick and no generation. -/
theorem HasCadences.applyScheduleOutcome (h : HasCadences n s) (now : Nat) (outcome : TickOutcome)
    (scheduleAfter : Bool) :
    HasCadences n (applyScheduleOutcome c now outcome scheduleAfter s).2 ∧
      (Runner.applyScheduleOutcome c now outcome scheduleAfter s).2.stopped = s.stopped := by
  unfold Runner.applyScheduleOutcome
  dsimp only
  split
  · exact ⟨⟨h.generations, h.cadences⟩, rfl⟩
  · split <;> exact ⟨⟨h.generations, h.cadences⟩, rfl⟩

/-- Taking a live timer out of the host takes its cadence. -/
theorem HasCadences.eraseLive (h : HasCadences (n + 1) s) {timer : Timer}
    (hmem : timer ∈ s.timers) (hlive : timer.scheduledGeneration = s.scheduleGeneration) :
    HasCadences n { s with timers := s.timers.erase timer } := by
  refine ⟨h.generations.erase timer, ?_⟩
  have hcount := h.cadences
  have hpos : 0 < s.timers.countP (·.scheduledGeneration == s.scheduleGeneration) :=
    List.countP_pos_iff.mpr ⟨timer, hmem, by simp [hlive]⟩
  simp only [Scheduler.cadences, cadencesOf] at hcount ⊢
  rw [List.countP_erase, if_pos ⟨hmem, by simp [hlive]⟩]
  omega

theorem HasCadences.eraseStale (h : HasCadences n s) {timer : Timer}
    (hstale : timer.scheduledGeneration ≠ s.scheduleGeneration) :
    HasCadences n { s with timers := s.timers.erase timer } := by
  refine ⟨h.generations.erase timer, ?_⟩
  have hcount := h.cadences
  simp only [Scheduler.cadences, cadencesOf] at hcount ⊢
  rw [List.countP_erase, if_neg (by simp [hstale])]
  exact hcount

/-- A tick of the current generation leaves the chain with its cadence. -/
theorem HasCadences.dropCurrent (h : HasCadences (n + 1) s) {tick : QueuedTick}
    {rest : List QueuedTick} (hchain : s.tickChain = tick :: rest)
    (hcurrent : tick.scheduledGeneration = some s.scheduleGeneration) :
    HasCadences n { s with tickChain := rest } := by
  have hgenerations := h.generations
  have hcount := h.cadences
  rw [hchain] at hgenerations
  refine ⟨hgenerations.tail, ?_⟩
  simp only [Scheduler.cadences, cadencesOf, hchain] at hcount ⊢
  rw [List.countP_cons_of_pos (by simp [hcurrent])] at hcount
  omega

theorem HasCadences.dropOther (h : HasCadences n s) {tick : QueuedTick} {rest : List QueuedTick}
    (hchain : s.tickChain = tick :: rest)
    (hother : tick.scheduledGeneration ≠ some s.scheduleGeneration) :
    HasCadences n { s with tickChain := rest } := by
  have hgenerations := h.generations
  have hcount := h.cadences
  rw [hchain] at hgenerations
  refine ⟨hgenerations.tail, ?_⟩
  simp only [Scheduler.cadences, cadencesOf, hchain] at hcount ⊢
  rw [List.countP_cons_of_neg (by simp [hother])] at hcount
  exact hcount

/-- The first tick of the chain changes its phase. -/
theorem HasCadences.rephase (h : HasCadences n s) {tick : QueuedTick} {rest : List QueuedTick}
    (hchain : s.tickChain = tick :: rest) (phase : TickPhase) :
    HasCadences n { s with tickChain := { tick with phase := phase } :: rest } := by
  have hgenerations := h.generations
  have hcount := h.cadences
  rw [hchain] at hgenerations
  refine ⟨hgenerations.phase phase, ?_⟩
  simp only [Scheduler.cadences, cadencesOf, hchain, List.countP_cons] at hcount ⊢
  exact hcount

/-- The continuation of an automatic tick arms one timer, if the scheduler
runs. -/
theorem HasCadences.continueAutomatic (h : HasCadences n s) {tick : QueuedTick}
    (hauto : tick.scheduleAfter = true) (now : Nat) (outcome : Option TickOutcome) :
    HasCadences (if s.stopped then n else n + 1) (continueAfter c now tick outcome s) ∧
      (continueAfter c now tick outcome s).stopped = s.stopped := by
  unfold continueAfter
  cases outcome with
  | none =>
    simp only [hauto, if_true]
    exact ⟨h.scheduleNext _, scheduleNext_stopped _ _⟩
  | some result =>
    rcases h.applyScheduleOutcome (c := c) now result tick.scheduleAfter with ⟨happly, hstopped⟩
    simp only [hauto, if_true] at happly hstopped ⊢
    have harmed := happly.scheduleNext
      ((Runner.applyScheduleOutcome c now result true s).1.getD 0)
    rw [hstopped] at harmed
    exact ⟨harmed, (scheduleNext_stopped _ _).trans hstopped⟩

end

/-! ## One cadence, step by step -/

section

variable {c : SchedulerConfig} {s : Scheduler}

theorem OneCadence.of_running {n : Nat} {s' : Scheduler} (h : HasCadences n s')
    (hn : n = if s'.stopped then 0 else 1) : OneCadence s' := by
  unfold OneCadence
  rw [← hn]
  exact h

theorem OneCadence.preemptInstalledTimer (h : OneCadence s) (delayMs : Nat) :
    OneCadence (preemptInstalledTimer delayMs s) := by
  unfold Runner.preemptInstalledTimer
  by_cases hstopped : s.stopped = true
  · rw [if_pos hstopped]
    exact h
  · rw [if_neg hstopped]
    have hrenewed := HasCadences.renew h s.stopped
    have harmed := hrenewed.scheduleNext delayMs
    refine .of_running harmed ?_
    simp [hstopped]

theorem OneCadence.start (h : OneCadence s) : OneCadence (start s) := by
  unfold Runner.start
  by_cases hstopped : s.stopped = true
  · rw [if_pos hstopped]
    -- the new generation has no cadence until the first tick is queued
    have hfresh : HasCadences 0
        { s with stopped := false, scheduleGeneration := s.scheduleGeneration + 1 } :=
      ⟨h.generations.mono (Nat.le_succ _), h.generations.cadences_next⟩
    refine .of_running (hfresh.wake (s.scheduleGeneration + 1)) ?_
    simp
  · rw [if_neg hstopped]
    exact h

theorem OneCadence.stop (h : OneCadence s) : OneCadence (stop s) := by
  refine .of_running (HasCadences.renew h true) ?_
  simp [Runner.stop]

theorem OneCadence.fire (h : OneCadence s) (handle : Nat) : OneCadence (fireTimer handle s) := by
  unfold fireTimer
  cases hfind : s.timers.find? (·.handle == handle) with
  | none => exact h
  | some timer =>
    have hmem : timer ∈ s.timers := List.mem_of_find?_eq_some hfind
    by_cases hlive : timer.scheduledGeneration = s.scheduleGeneration
    · by_cases hstopped : s.stopped = true
      · -- a stopped scheduler has no live timer
        have hcount := h.cadences
        rw [hstopped, if_pos rfl] at hcount
        have hpos : 0 < s.timers.countP (·.scheduledGeneration == s.scheduleGeneration) :=
          List.countP_pos_iff.mpr ⟨timer, hmem, by simp [hlive]⟩
        simp only [Scheduler.cadences, cadencesOf] at hcount
        omega
      · have hone : HasCadences (0 + 1) s := by
          have hs := h
          rw [OneCadence, if_neg hstopped] at hs
          exact hs
        refine .of_running ((hone.eraseLive hmem hlive).wake timer.scheduledGeneration) ?_
        simp [hstopped, hlive]
    · refine .of_running ((HasCadences.eraseStale h hlive).wake timer.scheduledGeneration) ?_
      simp [hlive]

theorem OneCadence.dispatch (h : OneCadence s) : OneCadence (dispatchTick c s) := by
  unfold dispatchTick
  cases hchain : s.tickChain with
  | nil => exact h
  | cons tick rest =>
    dsimp only
    split
    · exact HasCadences.rephase h hchain _
    · exact h

theorem OneCadence.settle (h : OneCadence s) (seen : Option TickSeen) :
    OneCadence (settleTick c seen s) := by
  unfold settleTick
  cases hchain : s.tickChain with
  | nil => exact h
  | cons tick rest =>
    dsimp only
    split
    · exact HasCadences.rephase h hchain _
    · exact h

/-- The continuation of a manual tick keeps the cadence or starts it anew. -/
theorem OneCadence.continueManual (h : OneCadence s) {tick : QueuedTick}
    (hmanual : tick.scheduleAfter = false) (now : Nat) (outcome : Option TickOutcome) :
    OneCadence (continueAfter c now tick outcome s) := by
  unfold continueAfter
  cases outcome with
  | none =>
    simp only [hmanual]
    exact h
  | some result =>
    rcases HasCadences.applyScheduleOutcome (c := c) h now result tick.scheduleAfter with
      ⟨happly, hstopped⟩
    have happlied : OneCadence (applyScheduleOutcome c now result tick.scheduleAfter s).2 := by
      unfold OneCadence
      rw [hstopped]
      exact happly
    simp only [hmanual] at happlied ⊢
    cases (applyScheduleOutcome c now result false s).1 with
    | none => exact happlied
    | some delayMs => exact happlied.preemptInstalledTimer delayMs

end

/-- The continuation of an automatic tick runs while the scheduler is running in
another generation than the tick's. -/
def staleRearm (s : Scheduler) : SchedulerEvent → Bool
  | .resume _ =>
    match s.tickChain with
    | [] => false
    | tick :: _ =>
      match tick.phase with
      | .settled _ =>
        tick.scheduleAfter && !s.stopped && tick.scheduledGeneration != some s.scheduleGeneration
      | _ => false
  | _ => false

section

variable {c : SchedulerConfig} {s : Scheduler}

theorem OneCadence.resume (h : OneCadence s) {now : Nat}
    (hfresh : staleRearm s (.resume now) = false) : OneCadence (continueTick c now s) := by
  unfold continueTick
  unfold staleRearm at hfresh
  cases hchain : s.tickChain with
  | nil => exact h
  | cons tick rest =>
    dsimp only
    cases hphase : tick.phase with
    | queued => exact h
    | running => exact h
    | settled outcome =>
      simp only [hchain, hphase] at hfresh
      dsimp only
      have htick : tick ∈ s.tickChain := by
        rw [hchain]
        exact List.mem_cons_self
      by_cases hauto : tick.scheduleAfter = true
      · by_cases hstopped : s.stopped = true
        · -- nothing is armed while the scheduler is stopped
          have hnone : HasCadences 0 s := by
            have hs := h
            rw [OneCadence, if_pos hstopped] at hs
            exact hs
          have hother : tick.scheduledGeneration ≠ some s.scheduleGeneration := by
            intro hcurrent
            have hcount := hnone.cadences
            simp only [Scheduler.cadences, cadencesOf, hchain] at hcount
            rw [List.countP_cons_of_pos (by simp [hcurrent])] at hcount
            omega
          rcases (hnone.dropOther hchain hother).continueAutomatic (c := c) hauto now outcome with
            ⟨hdone, hstill⟩
          refine .of_running hdone ?_
          rw [hstill]
        · have hrunning : s.stopped = false := by simpa using hstopped
          have hcurrent : tick.scheduledGeneration = some s.scheduleGeneration := by
            simpa [hauto, hrunning] using hfresh
          have hone : HasCadences (0 + 1) s := by
            have hs := h
            rw [OneCadence, if_neg hstopped] at hs
            exact hs
          rcases (hone.dropCurrent hchain hcurrent).continueAutomatic (c := c) hauto now outcome
            with ⟨hdone, hstill⟩
          refine .of_running hdone ?_
          rw [hstill]
      · have hmanual : tick.scheduleAfter = false := by simpa using hauto
        have hnone := h.generations.ofManual tick htick hmanual
        have hdropped : OneCadence { s with tickChain := rest } :=
          HasCadences.dropOther h hchain (by simp [hnone])
        exact hdropped.continueManual hmanual now outcome

theorem OneCadence.step (h : OneCadence s) {event : SchedulerEvent}
    (hfresh : staleRearm s event = false) : OneCadence (s.step c event) := by
  cases event with
  | start => exact h.start
  | stop => exact h.stop
  | triggerTick => exact HasCadences.enqueueManual h
  | fire handle => exact h.fire handle
  | dispatch => exact h.dispatch
  | settle seen => exact h.settle seen
  | resume now => exact h.resume hfresh

/-- A stale continuation forks the loop: from one cadence it makes two. -/
theorem OneCadence.forks (h : OneCadence s) {event : SchedulerEvent}
    (hstale : staleRearm s event = true) : HasCadences 2 (s.step c event) := by
  cases event with
  | resume now =>
    unfold staleRearm at hstale
    cases hchain : s.tickChain with
    | nil => simp [hchain] at hstale
    | cons tick rest =>
      cases hphase : tick.phase with
      | queued => simp [hchain, hphase] at hstale
      | running => simp [hchain, hphase] at hstale
      | settled outcome =>
        simp only [hchain, hphase, Bool.and_eq_true, Bool.not_eq_true', bne_iff_ne] at hstale
        rcases hstale with ⟨⟨hauto, hrunning⟩, hother⟩
        have hone : HasCadences 1 s := by
          have hs := h
          rw [OneCadence, hrunning] at hs
          exact hs
        have hforked := ((hone.dropOther hchain hother).continueAutomatic (c := c) hauto now
          outcome).1
        simp only [Scheduler.step, continueTick, hchain, hphase]
        simpa [hrunning] using hforked
  | _ => cases hstale

end

/-! ## Runs -/

/-- A run in which no stale continuation arms a timer. -/
def Orderly (c : SchedulerConfig) : Scheduler → List SchedulerEvent → Prop
  | _, [] => True
  | s, event :: events => staleRearm s event = false ∧ Orderly c (s.step c event) events

theorem Orderly.oneCadence {c : SchedulerConfig} {events : List SchedulerEvent} :
    ∀ {s : Scheduler}, OneCadence s → Orderly c s events → OneCadence (s.run c events) := by
  induction events with
  | nil => exact fun h _ => h
  | cons event events ih =>
    intro s h horderly
    exact ih (h.step horderly.1) horderly.2

theorem Orderly.prefix_of {c : SchedulerConfig} {reached later : List SchedulerEvent} :
    ∀ {s : Scheduler}, Orderly c s (reached ++ later) → Orderly c s reached := by
  induction reached with
  | nil => exact fun _ => trivial
  | cons event reached ih =>
    intro s horderly
    exact ⟨horderly.1, ih horderly.2⟩

/-- **One timer drives the loop**, in every state that an orderly run reaches;
and while the scheduler runs, exactly one timer or automatic tick carries the
loop on. -/
theorem orderly_run_single_timer (c : SchedulerConfig) (reached later : List SchedulerEvent)
    (h : Orderly c .initial (reached ++ later)) :
    (Scheduler.initial.run c reached).liveTimers.length ≤ 1 ∧
      ((Scheduler.initial.run c reached).stopped = false →
        (Scheduler.initial.run c reached).cadences = 1) := by
  have hone : OneCadence (Scheduler.initial.run c reached) :=
    h.prefix_of.oneCadence oneCadence_initial
  have hcount := hone.cadences
  have hlive := (Scheduler.initial.run c reached).liveTimers_le_cadences
  refine ⟨?_, ?_⟩
  · split at hcount <;> omega
  · intro hrunning
    rw [hcount, hrunning]
    rfl

/-- The intervals of the defaults. -/
def defaultSchedulerConfig : SchedulerConfig where
  defaultIntervalMs := 1200000
  reconcileRetryMs := 5000
  reconcileMaxBackoffMs := 300000
  defaultInterval_pos := by decide
  reconcileRetry_pos := by decide
  reconcileRetry_le := by decide

/-- An active operator configuration. -/
def activeConfiguration : TickConfiguration := ⟨false, false, false, 20⟩

/-- The first tick completes and arms the timer; a manual tick finds pending work
and preempts it. -/
def sampleOrderlyRun : List SchedulerEvent :=
  [.start, .dispatch,
    .settle (some (.workerReturned (some activeConfiguration) (some ⟨"COMPLETE", none⟩))),
    .resume 0, .triggerTick, .dispatch,
    .settle (some (.workerReturned (some activeConfiguration)
      (some ⟨"ACTIVE_CYCLE_NOT_RECONCILED", none⟩))),
    .resume 1000]

theorem orderly_run_single_timer_sample :
    (Scheduler.initial.run defaultSchedulerConfig sampleOrderlyRun).liveTimers.length ≤ 1 ∧
      ((Scheduler.initial.run defaultSchedulerConfig sampleOrderlyRun).stopped = false →
        (Scheduler.initial.run defaultSchedulerConfig sampleOrderlyRun).cadences = 1) :=
  orderly_run_single_timer defaultSchedulerConfig sampleOrderlyRun []
    ⟨rfl, rfl, rfl, rfl, rfl, rfl, rfl, rfl, trivial⟩

/-- The timer fires while the manual tick is in flight: its tick is stale by the
time it is dispatched, and its continuation arms a second timer beside the one
that the manual tick has just installed. -/
def forkingRun : List SchedulerEvent :=
  [.start, .dispatch,
    .settle (some (.workerReturned (some activeConfiguration) (some ⟨"COMPLETE", none⟩))),
    .resume 0, .triggerTick, .dispatch, .fire 0,
    .settle (some (.workerReturned (some activeConfiguration)
      (some ⟨"ACTIVE_CYCLE_NOT_RECONCILED", none⟩))),
    .resume 1000, .dispatch, .resume 1000]

theorem scheduler_forks :
    ¬ ∀ (c : SchedulerConfig) (events : List SchedulerEvent),
      (Scheduler.initial.run c events).liveTimers.length ≤ 1 := by
  intro hsingle
  have htwo : (Scheduler.initial.run defaultSchedulerConfig forkingRun).liveTimers.length = 2 := by
    decide +kernel
  have hone := hsingle defaultSchedulerConfig forkingRun
  omega

end Hookemon.Runner
