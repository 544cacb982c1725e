import Mathlib.Data.List.Pairwise
import Extractor.ShutdownDrain

/-!
# The process of the service

`run_initialized` of `services/extractor/src/main.rs`: the start, the five tasks (the command
consumer, the outbox loop, the dependency probe, the worker loop and the admin server), the two
ways out of the `select!`, the drain and the joins, with `RuntimeHealth` and the admission gate of
`services/extractor/src/lib.rs`. The tasks interleave with each other and with the main task at
every await point and every atomic operation, and each of them can fail or panic.

What `consume_capture`, `run_outbox_once`, `claim_queued_run` and `process_run` do is not repeated
here; each is the time between two steps.

## Main results

* `service_exits`: what has happened to every task and every claimed run when the process returns.
* `readiness_observed`: what an answer of the readiness endpoint is evidence of.
-/

namespace Extractor

/-! ### Data -/

/-- The states of `RuntimeHealth`, in the order of their constants. -/
inductive Lifecycle
  | starting
  | ready
  | draining
  deriving DecidableEq

/-- `STARTING`, `READY` and `DRAINING`. -/
def Lifecycle.toNat : Lifecycle → ℕ
  | .starting => 0
  | .ready => 1
  | .draining => 2

/-- `RuntimeHealth`. -/
structure RuntimeHealth where
  state : Lifecycle
  dependenciesHealthy : Bool
  publisherHealthy : Bool
  deriving DecidableEq

/-- `RuntimeHealth::new`. -/
def RuntimeHealth.new : RuntimeHealth := ⟨.starting, false, true⟩

/-- A call of `is_ready`, with where in the history it began and where each load found its flag
set. -/
inductive ReadyCall
  | begun (start : ℕ)
  | sawState (start i : ℕ)
  | sawDependencies (start i j : ℕ)
  /-- 200. -/
  | ready (start i j k : ℕ)
  /-- 503. -/
  | notReady (start : ℕ)
  deriving DecidableEq

/-- What can fail before the tasks are spawned. -/
inductive StartupStep
  | prepareStore
  | telegramStore
  | newFetcher
  | connectDatabase
  | applySchema
  | connectPublisher
  | ensureCommandStream
  | ensureEventStream
  | verifyTopology
  | bind
  deriving DecidableEq

/-- The start, in order. -/
def startupSteps (provisionTopology : Bool) : List StartupStep :=
  [.prepareStore, .telegramStore, .newFetcher, .connectDatabase, .applySchema,
    .connectPublisher] ++
  (if provisionTopology then [.ensureCommandStream, .ensureEventStream] else [.verifyTopology]) ++
  [.bind]

/-- How a task ends. -/
inductive TaskEnd
  | ok
  | failed (error : String)
  | panicked
  deriving DecidableEq

/-- The tasks that only loop. -/
inductive LoopName
  | consumer
  | outbox
  | probe
  deriving DecidableEq

/-- Where one of them is. -/
inductive LoopPhase
  | absent
  /-- The consumer looks its durable up. -/
  | opening
  /-- The `select!`: `cancelled()` is polled first. -/
  | selecting
  /-- `cancelled()` was pending; the tick or the next message is polled. -/
  | polling
  | working
  /-- What was measured is about to be stored. -/
  | storing (healthy : Bool)
  | ended (e : TaskEnd)
  deriving DecidableEq

/-- Where `worker_loop` is. -/
inductive WorkerPhase
  | absent
  | selecting
  | polling
  /-- `try_admit`, the call `k` of the gate. -/
  | admitting (k : ℕ)
  | claiming (k : ℕ)
  /-- `process_run` on the claim `i`. -/
  | processing (k i : ℕ)
  /-- The permit is dropped; then the loop goes on, or the task ends. -/
  | releasing (k : ℕ) (after : Option TaskEnd)
  | ended (e : TaskEnd)
  deriving DecidableEq

/-- Where the admin server is. -/
inductive ServerPhase
  | absent
  | running
  | ended (e : TaskEnd)
  deriving DecidableEq

/-- The tasks of the `JoinSet`. -/
inductive TaskName
  | loop (name : LoopName)
  | worker
  | server
  deriving DecidableEq

/-- What became of a claimed run. -/
inductive Fate
  /-- `process_run` returned. -/
  | processed
  | failed
  | panicked
  /-- Its future was dropped. -/
  | dropped
  deriving DecidableEq

/-- A claimed run; `none` while it is processed. -/
structure RunClaim where
  runId : ℕ
  fate : Option Fate
  deriving DecidableEq

/-- The errors of `run_initialized`. -/
inductive ServiceError
  | startup (step : StartupStep)
  | task (error : String)
  | join
  | backgroundStopped
  deriving DecidableEq

/-- Where `run_initialized` is; `first` is what the `select!` got of a task. -/
inductive MainPhase
  | starting (left : List StartupStep)
  /-- `mark_ready`: its first store. -/
  | markingDependencies
  | markingReady
  /-- The `select!`. -/
  | watching
  /-- `background_cancel` is about to be cancelled. -/
  | cancelling (first : Option TaskEnd)
  | drainBegins (first : Option TaskEnd)
  /-- `close`. -/
  | closing (first : Option TaskEnd)
  /-- `drained`, until the deadline. -/
  | draining (first : Option TaskEnd)
  /-- The deadline passed. -/
  | forcing (first : Option TaskEnd)
  /-- `server_cancel` is about to be cancelled. -/
  | drained (first : Option TaskEnd)
  /-- `first_result`. -/
  | folding (first : Option TaskEnd)
  | joining (first : Option TaskEnd)
  | returned (result : Except ServiceError Unit)
  deriving DecidableEq

/-- The process. -/
structure ServiceState where
  main : MainPhase
  signalled : Bool
  /-- `background_cancel`. -/
  cancelled : Bool
  /-- The token of the gate. -/
  forced : Bool
  serverCancelled : Bool
  gate : DrainState
  health : RuntimeHealth
  /-- What `health` was before, oldest first. -/
  past : List RuntimeHealth
  loops : LoopName → LoopPhase
  worker : WorkerPhase
  server : ServerPhase
  joined : TaskName → Bool
  claims : List RunClaim
  /-- The passes that began after the cancellation. -/
  late : TaskName → ℕ
  calls : List ReadyCall

namespace ServiceState

/-- Before `run_initialized` is called. -/
def start (provisionTopology : Bool) : ServiceState where
  main := .starting (startupSteps provisionTopology)
  signalled := false
  cancelled := false
  forced := false
  serverCancelled := false
  gate := .new
  health := .new
  past := []
  loops _ := .absent
  worker := .absent
  server := .absent
  joined _ := false
  claims := []
  late _ := 0
  calls := []

/-- Every value that `health` had. -/
def timeline (s : ServiceState) : List RuntimeHealth := s.past ++ [s.health]

/-- A store to a flag of `RuntimeHealth`. -/
def store (s : ServiceState) (health : RuntimeHealth) : ServiceState :=
  { s with past := s.past ++ [s.health], health := health }

/-- How the task ended. -/
def taskEnd (s : ServiceState) : TaskName → Option TaskEnd
  | .loop name => match s.loops name with
    | .ended e => some e
    | _ => none
  | .worker => match s.worker with
    | .ended e => some e
    | _ => none
  | .server => match s.server with
    | .ended e => some e
    | _ => none

/-- A pass of the task begins. -/
def begin (s : ServiceState) (name : TaskName) : ServiceState :=
  { s with
    late := if s.cancelled then Function.update s.late name (s.late name + 1) else s.late }

theorem begin_late (s : ServiceState) (name : TaskName) : (s.begin name).late =
    if s.cancelled then Function.update s.late name (s.late name + 1) else s.late := rfl

/-- A loop moves on. -/
def moveLoop (s : ServiceState) (name : LoopName) (phase : LoopPhase) : ServiceState :=
  { s with loops := Function.update s.loops name phase }

/-- What became of a claim. -/
def settle (s : ServiceState) (i : ℕ) (fate : Fate) : ServiceState :=
  { s with claims := s.claims.modify i fun claim => { claim with fate := some fate } }

end ServiceState

/-! ### The steps -/

/-- The task that takes a step, or the endpoint. -/
inductive ProcessLabel
  | main
  | task (name : TaskName)
  | endpoint
  deriving DecidableEq

/-- One step of `run_initialized`. -/
inductive MainStep : ServiceState → ServiceState → Prop
  | startup {s : ServiceState} {step : StartupStep} {left : List StartupStep}
      (hmain : s.main = .starting (step :: left)) : MainStep s { s with main := .starting left }
  | startupFails {s : ServiceState} {step : StartupStep} {left : List StartupStep}
      (hmain : s.main = .starting (step :: left)) :
      MainStep s { s with main := .returned (.error (.startup step)) }
  | spawn {s : ServiceState} (hmain : s.main = .starting []) :
      MainStep s
        { s with
          main := .markingDependencies
          loops := fun name => if name = .consumer then .opening else .selecting
          worker := .selecting
          server := .running }
  | markDependencies {s : ServiceState} (hmain : s.main = .markingDependencies) :
      MainStep s
        { s.store { s.health with dependenciesHealthy := true } with main := .markingReady }
  | markReady {s : ServiceState} (hmain : s.main = .markingReady) :
      MainStep s { s.store { s.health with state := .ready } with main := .watching }
  | signal {s : ServiceState} (hmain : s.main = .watching) :
      MainStep s { s with main := .cancelling none, signalled := true }
  | firstExit {s : ServiceState} {name : TaskName} {e : TaskEnd} (hmain : s.main = .watching)
      (hend : s.taskEnd name = some e) :
      MainStep s
        { s with main := .cancelling (some e), joined := Function.update s.joined name true }
  | cancel {s : ServiceState} {first : Option TaskEnd} (hmain : s.main = .cancelling first) :
      MainStep s { s with main := .drainBegins first, cancelled := true }
  | beginDrain {s : ServiceState} {first : Option TaskEnd} (hmain : s.main = .drainBegins first) :
      MainStep s { s.store { s.health with state := .draining } with main := .closing first }
  | close {s : ServiceState} {first : Option TaskEnd} {l : DrainLabel} {g : DrainState}
      (hmain : s.main = .closing first) (hl : l = .closeStore ∨ l = .closeLoad ∨ l = .closeNotify)
      (hgate : drainStep s.gate l = some g) : MainStep s { s with gate := g }
  | closed {s : ServiceState} {first : Option TaskEnd} {g : DrainState}
      (hmain : s.main = .closing first) (hclose : s.gate.close = .closed)
      (hgate : drainStep s.gate .drainCall = some g) :
      MainStep s { s with main := .draining first, gate := g }
  | wait {s : ServiceState} {first : Option TaskEnd} {l : DrainLabel} {g : DrainState}
      (hmain : s.main = .draining first) (hl : l = .drainLoad ∨ l = .drainWake)
      (hgate : drainStep s.gate l = some g) : MainStep s { s with gate := g }
  | drained {s : ServiceState} {first : Option TaskEnd} {closed : Bool}
      (hmain : s.main = .draining first) (hdrain : s.gate.drain = .returned closed) :
      MainStep s { s with main := .drained first }
  | deadline {s : ServiceState} {first : Option TaskEnd} {g : DrainState}
      (hmain : s.main = .draining first) (hdrain : ∀ closed, s.gate.drain ≠ .returned closed)
      (hgate : drainStep s.gate .drainStop = some g) :
      MainStep s { s with main := .forcing first, gate := g }
  | force {s : ServiceState} {first : Option TaskEnd} (hmain : s.main = .forcing first) :
      MainStep s { s with main := .drained first, forced := true }
  | cancelServer {s : ServiceState} {first : Option TaskEnd} (hmain : s.main = .drained first) :
      MainStep s { s with main := .folding first, serverCancelled := true }
  | foldPanic {s : ServiceState} (hmain : s.main = .folding (some .panicked)) :
      MainStep s { s with main := .returned (.error .join) }
  | fold {s : ServiceState} {first : Option TaskEnd} (hmain : s.main = .folding first)
      (hfirst : first ≠ some .panicked) : MainStep s { s with main := .joining first }
  | join {s : ServiceState} {first : Option TaskEnd} {e : TaskEnd} (name : TaskName)
      (hmain : s.main = .joining first) (hend : s.taskEnd name = some e)
      (hnew : s.joined name = false) :
      MainStep s
        { s with
          joined := Function.update s.joined name true
          main := match e with
            | .ok => .joining first
            | .failed error => .returned (.error (.task error))
            | .panicked => .returned (.error .join) }
  | finish {s : ServiceState} {first : Option TaskEnd} (hmain : s.main = .joining first)
      (hall : ∀ name, s.joined name = true) :
      MainStep s
        { s with
          main := .returned (match first with
            | some (.failed error) => .error (.task error)
            | some _ => .error .backgroundStopped
            | none => .ok ()) }

/-- One step of a loop. -/
inductive LoopStep (name : LoopName) : ServiceState → ServiceState → Prop
  | opened {s : ServiceState} (hphase : s.loops name = .opening) :
      LoopStep name s (s.moveLoop name .selecting)
  | openFails {s : ServiceState} (error : String) (hphase : s.loops name = .opening) :
      LoopStep name s (s.moveLoop name (.ended (.failed error)))
  | select {s : ServiceState} (hphase : s.loops name = .selecting) :
      LoopStep name s (s.moveLoop name (if s.cancelled then .ended .ok else .polling))
  | pending {s : ServiceState} (hphase : s.loops name = .polling) :
      LoopStep name s (s.moveLoop name .selecting)
  | tick {s : ServiceState} (hphase : s.loops name = .polling) :
      LoopStep name s ((s.begin (.loop name)).moveLoop name .working)
  /-- The stream of messages ends. -/
  | streamEnds {s : ServiceState} (hname : name = .consumer) (hphase : s.loops name = .polling) :
      LoopStep name s (s.moveLoop name (.ended .ok))
  | handled {s : ServiceState} (hname : name = .consumer) (hphase : s.loops name = .working) :
      LoopStep name s (s.moveLoop name .selecting)
  | measured {s : ServiceState} (healthy : Bool) (hname : name ≠ .consumer)
      (hphase : s.loops name = .working) : LoopStep name s (s.moveLoop name (.storing healthy))
  | passFails {s : ServiceState} (error : String) (hname : name = .outbox)
      (hphase : s.loops name = .working) :
      LoopStep name s (s.moveLoop name (.ended (.failed error)))
  | markPublisher {s : ServiceState} {healthy : Bool} (hname : name = .outbox)
      (hphase : s.loops name = .storing healthy) :
      LoopStep name s
        ((s.store { s.health with publisherHealthy := healthy }).moveLoop name .selecting)
  | markDependencies {s : ServiceState} {healthy : Bool} (hname : name = .probe)
      (hphase : s.loops name = .storing healthy) :
      LoopStep name s
        ((s.store { s.health with dependenciesHealthy := healthy }).moveLoop name .selecting)
  | panics {s : ServiceState} (hphase : s.loops name = .opening ∨ s.loops name = .working) :
      LoopStep name s (s.moveLoop name (.ended .panicked))

/-- One step of the worker loop. -/
inductive WorkerStep : ServiceState → ServiceState → Prop
  | select {s : ServiceState} (hphase : s.worker = .selecting) :
      WorkerStep s { s with worker := if s.cancelled then .ended .ok else .polling }
  | pending {s : ServiceState} (hphase : s.worker = .polling) :
      WorkerStep s { s with worker := .selecting }
  | tick {s : ServiceState} {g : DrainState} (hphase : s.worker = .polling)
      (hgate : drainStep s.gate .begin = some g) :
      WorkerStep s
        { s.begin .worker with worker := .admitting s.gate.calls.length, gate := g }
  | tryAdmit {s : ServiceState} {k : ℕ} {l : DrainLabel} {g : DrainState}
      (hphase : s.worker = .admitting k)
      (hl : l = .load k ∨ l = .increment k ∨ l = .recheck k ∨ l = .reject k ∨ l = .notify k)
      (hgate : drainStep s.gate l = some g) : WorkerStep s { s with gate := g }
  | admitted {s : ServiceState} {k : ℕ} (hphase : s.worker = .admitting k)
      (hcall : s.gate.calls[k]? = some .live) : WorkerStep s { s with worker := .claiming k }
  | refused {s : ServiceState} {k : ℕ} (hphase : s.worker = .admitting k)
      (hcall : s.gate.calls[k]? = some .finished) :
      WorkerStep s { s with worker := .ended .ok }
  | claimNone {s : ServiceState} {k : ℕ} (hphase : s.worker = .claiming k) :
      WorkerStep s { s with worker := .releasing k none }
  | claimFails {s : ServiceState} {k : ℕ} (e : TaskEnd) (hphase : s.worker = .claiming k)
      (he : e ≠ .ok) : WorkerStep s { s with worker := .releasing k (some e) }
  | claim {s : ServiceState} {k : ℕ} (runId : ℕ) (hphase : s.worker = .claiming k) :
      WorkerStep s
        { s with
          worker := .processing k s.claims.length
          claims := s.claims ++ [⟨runId, none⟩] }
  | force {s : ServiceState} {k i : ℕ} (hphase : s.worker = .processing k i)
      (hforced : s.forced = true) :
      WorkerStep s { s.settle i .dropped with worker := .releasing k none }
  | processed {s : ServiceState} {k i : ℕ} (hphase : s.worker = .processing k i) :
      WorkerStep s { s.settle i .processed with worker := .releasing k none }
  | processFails {s : ServiceState} {k i : ℕ} (error : String)
      (hphase : s.worker = .processing k i) :
      WorkerStep s { s.settle i .failed with worker := .releasing k (some (.failed error)) }
  | panics {s : ServiceState} {k i : ℕ} (hphase : s.worker = .processing k i) :
      WorkerStep s { s.settle i .panicked with worker := .releasing k (some .panicked) }
  | release {s : ServiceState} {k : ℕ} {after : Option TaskEnd} {l : DrainLabel} {g : DrainState}
      (hphase : s.worker = .releasing k after) (hl : l = .drop k ∨ l = .notify k)
      (hgate : drainStep s.gate l = some g) : WorkerStep s { s with gate := g }
  | released {s : ServiceState} {k : ℕ} {after : Option TaskEnd}
      (hphase : s.worker = .releasing k after) (hcall : s.gate.calls[k]? = some .finished) :
      WorkerStep s
        { s with
          worker := match after with
            | none => .selecting
            | some e => .ended e }

/-- One step of the admin server. -/
inductive ServerStep : ServiceState → ServiceState → Prop
  | stops {s : ServiceState} (hphase : s.server = .running)
      (hcancelled : s.serverCancelled = true) :
      ServerStep s { s with server := .ended .ok }
  | fails {s : ServiceState} (e : TaskEnd) (hphase : s.server = .running) (he : e ≠ .ok) :
      ServerStep s { s with server := .ended e }

/-- The load of a call of `is_ready`; a flag that is not set ends it. -/
def ReadyCall.load (health : RuntimeHealth) (now : ℕ) : ReadyCall → ReadyCall
  | .begun start => if health.state = .ready then .sawState start now else .notReady start
  | .sawState start i =>
      if health.dependenciesHealthy then .sawDependencies start i now else .notReady start
  | .sawDependencies start i j =>
      if health.publisherHealthy then .ready start i j now else .notReady start
  | call => call

/-- One step of the readiness endpoint. -/
inductive EndpointStep : ServiceState → ServiceState → Prop
  | request {s : ServiceState} (hserver : s.server = .running) :
      EndpointStep s { s with calls := s.calls ++ [.begun s.past.length] }
  | load {s : ServiceState} (k : ℕ) :
      EndpointStep s { s with calls := s.calls.modify k (·.load s.health s.past.length) }

/-- One step of the process, until it returns. -/
inductive ProcessStep : ServiceState → ProcessLabel → ServiceState → Prop
  | main {s t : ServiceState} (hst : MainStep s t) : ProcessStep s .main t
  | loop {s t : ServiceState} (name : LoopName) (hrunning : ∀ result, s.main ≠ .returned result)
      (hst : LoopStep name s t) : ProcessStep s (.task (.loop name)) t
  | worker {s t : ServiceState} (hrunning : ∀ result, s.main ≠ .returned result)
      (hst : WorkerStep s t) : ProcessStep s (.task .worker) t
  | server {s t : ServiceState} (hrunning : ∀ result, s.main ≠ .returned result)
      (hst : ServerStep s t) : ProcessStep s (.task .server) t
  | endpoint {s t : ServiceState} (hrunning : ∀ result, s.main ≠ .returned result)
      (hst : EndpointStep s t) : ProcessStep s .endpoint t

/-- **The process** from its start. -/
def serviceProcess (provisionTopology : Bool) : Labelled.System ServiceState ProcessLabel where
  init s := s = .start provisionTopology
  step := ProcessStep

/-! ### The gate -/

section Gate

variable {g g' : DrainState} {l : DrainLabel}

/-- The admission that an operation of the gate belongs to. -/
def DrainLabel.call : DrainLabel → Option ℕ
  | .load k | .increment k | .recheck k | .reject k | .drop k | .notify k => some k
  | _ => none

/-- The operation belongs to an admission or its permit. -/
def DrainLabel.ofWorker (l : DrainLabel) : Prop := l = .begin ∨ ∃ k, l.call = some k

theorem not_ofWorker (hbegin : l ≠ .begin) (hcall : l.call = none) : ¬l.ofWorker := by
  rintro (hl | ⟨k, hk⟩)
  · exact hbegin hl
  · rw [hcall] at hk
    cases hk

/-- An operation of an admission moves this admission only. -/
theorem calls_of_call {k : ℕ} (hcall : l.call = some k) (hst : drainStep g l = some g') :
    ∃ next, g'.calls = g.calls.set k next := by
  cases l with
  | load k' | increment k' | recheck k' | reject k' | drop k' | notify k' =>
      obtain rfl := Option.some.inj hcall
      obtain ⟨-, rfl⟩ := DrainState.advance_eq_some hst
      exact ⟨_, rfl⟩
  | _ => cases hcall

/-- The operations of shutdown move no admission. -/
theorem calls_of_not_ofWorker (hl : ¬l.ofWorker) (hst : drainStep g l = some g') :
    g'.calls = g.calls := by
  cases l with
  | begin => exact absurd (Or.inl rfl) hl
  | load k | increment k | recheck k | reject k | drop k | notify k =>
      exact absurd (Or.inr ⟨k, rfl⟩) hl
  | closeStore | closeLoad | closeNotify | drainCall =>
      obtain ⟨-, heq⟩ := Option.ite_none_right_eq_some.mp hst
      obtain rfl := Option.some.inj heq
      rfl
  | drainLoad =>
      obtain ⟨_, _, -, rfl⟩ := DrainState.drainLoad_eq_some hst
      rfl
  | drainWake =>
      obtain ⟨_, -, rfl⟩ := DrainState.drainWake_eq_some hst
      rfl
  | drainStop =>
      obtain rfl := Option.some.inj hst
      rfl

/-- Admissions neither close the gate nor end the wait. -/
theorem gate_of_ofWorker (hl : l.ofWorker) (hst : drainStep g l = some g') :
    g'.accepting = g.accepting ∧ g'.close = g.close ∧ g'.drain.onClosed = g.drain.onClosed := by
  rcases hl with rfl | ⟨k, hcall⟩
  · obtain rfl := Option.some.inj hst
    exact ⟨rfl, rfl, rfl⟩
  · cases l with
    | load k' | increment k' | recheck k' | reject k' | drop k' =>
        obtain ⟨-, rfl⟩ := DrainState.advance_eq_some hst
        exact ⟨rfl, rfl, rfl⟩
    | notify k' =>
        obtain ⟨-, rfl⟩ := DrainState.advance_eq_some hst
        exact ⟨rfl, rfl, onClosed_notifyWaiters _⟩
    | _ => cases hcall

/-- A gate on which `close` has begun is shut. -/
theorem shut_of_reachable (h : drainSystem.Reachable g) (hclose : g.close ≠ .before) :
    g.accepting = false := by
  refine h.invariant (I := fun g => g.close ≠ .before → g.accepting = false) ?_ ?_ hclose
  · rintro _ rfl hne
    exact absurd rfl hne
  · intro s a t _ hs hst hne
    by_cases hbefore : s.close = .before
    · cases a with
      | closeStore =>
          obtain ⟨-, heq⟩ := Option.ite_none_right_eq_some.mp hst
          obtain rfl := Option.some.inj heq
          rfl
      | closeLoad | closeNotify =>
          obtain ⟨hphase, -⟩ := Option.ite_none_right_eq_some.mp hst
          rw [hbefore] at hphase
          cases hphase
      | drainCall =>
          obtain ⟨-, heq⟩ := Option.ite_none_right_eq_some.mp hst
          obtain rfl := Option.some.inj heq
          exact absurd hbefore hne
      | drainLoad =>
          obtain ⟨_, _, -, rfl⟩ := DrainState.drainLoad_eq_some hst
          exact absurd hbefore hne
      | drainWake =>
          obtain ⟨_, -, rfl⟩ := DrainState.drainWake_eq_some hst
          exact absurd hbefore hne
      | begin | drainStop =>
          obtain rfl := Option.some.inj hst
          exact absurd hbefore hne
      | load k | increment k | recheck k | reject k | drop k | notify k =>
          exact absurd ((gate_of_ofWorker (Or.inr ⟨k, rfl⟩) hst).2.1.trans hbefore) hne
    · exact accepting_step hst (hs hbefore)

end Gate

/-! ### The tasks -/

section Tasks

variable {s t : ServiceState}

/-- The admission that the worker holds. -/
def WorkerPhase.permit : WorkerPhase → Option ℕ
  | .admitting k | .claiming k | .processing k _ | .releasing k _ => some k
  | _ => none

/-- The permit under which it claims or processes. -/
def WorkerPhase.working : WorkerPhase → Option ℕ
  | .claiming k | .processing k _ => some k
  | _ => none

/-- The task is in its `select!`, after `cancelled()` was pending. -/
def ServiceState.Polling (s : ServiceState) : TaskName → Prop
  | .loop name => s.loops name = .polling
  | .worker => s.worker = .polling
  | .server => False

/-- What becomes of a claim as the worker moves on. -/
structure FateInv (worker : WorkerPhase) (forced : Bool) (claims : List RunClaim) : Prop where
  /-- A claim without a fate is the one that is processed. -/
  undecided : ∀ i claim, claims[i]? = some claim → claim.fate = none →
    ∃ k, worker = .processing k i
  dropped : ∀ claim ∈ claims, claim.fate = some .dropped → forced = true
  /-- The loop ends with what went wrong. -/
  spoiled : ∀ claim ∈ claims, claim.fate = some .failed ∨ claim.fate = some .panicked →
    ∃ e, e ≠ .ok ∧ (worker = .ended e ∨ ∃ k, worker = .releasing k (some e))

/-- **The invariant of the worker loop.** -/
structure WorkInv (s : ServiceState) : Prop where
  gate : drainSystem.Reachable s.gate
  /-- An admission that is not finished is the one that the worker holds. -/
  owned : ∀ k phase, s.gate.calls[k]? = some phase → phase ≠ .finished →
    s.worker.permit = some k
  live : ∀ k, s.worker.working = some k → s.gate.calls[k]? = some .live
  claims : FateInv s.worker s.forced s.claims
  releasing : ∀ k, s.worker ≠ .releasing k (some .ok)

/-- No pass begins after the cancellation was seen. -/
structure LatePasses (s : ServiceState) : Prop where
  notLate : s.cancelled = false → ∀ name, s.late name = 0
  late : ∀ name, s.late name = 0 ∨ (s.late name = 1 ∧ ¬s.Polling name)

/-- What the steps of the tasks leave to the main task. -/
structure TaskFrame (s t : ServiceState) : Prop where
  main : t.main = s.main
  signalled : t.signalled = s.signalled
  cancelled : t.cancelled = s.cancelled
  forced : t.forced = s.forced
  serverCancelled : t.serverCancelled = s.serverCancelled
  joined : t.joined = s.joined
  state : t.health.state = s.health.state
  /-- A task that ended has ended. -/
  ends : ∀ name e, s.taskEnd name = some e → t.taskEnd name = some e
  gate : t.gate = s.gate ∨ ∃ l : DrainLabel, l.ofWorker ∧ drainStep s.gate l = some t.gate

/-- One loop moves on, out of a phase in which it has not ended. -/
theorem taskEnd_moveLoop {name : LoopName} {phase : LoopPhase}
    (hphase : ∀ e, s.loops name ≠ .ended e) {n : TaskName} {e : TaskEnd}
    (h : s.taskEnd n = some e) : (s.moveLoop name phase).taskEnd n = some e := by
  cases n with
  | worker => exact h
  | server => exact h
  | loop other =>
      by_cases hother : other = name
      · subst hother
        change (match s.loops other with | .ended e => some e | _ => none) = some e at h
        cases hs : s.loops other with
        | ended e' => exact absurd hs (hphase e')
        | _ =>
            rw [hs] at h
            cases h
      · change (match Function.update s.loops name phase other with
          | .ended e => some e
          | _ => none) = some e
        rw [Function.update_of_ne hother]
        exact h

/-- The worker moves on, out of a phase in which it has not ended. -/
theorem taskEnd_moveWorker {worker : WorkerPhase} {claims : List RunClaim} {gate : DrainState}
    {late : TaskName → ℕ} (hphase : ∀ e, s.worker ≠ .ended e) {n : TaskName} {e : TaskEnd}
    (h : s.taskEnd n = some e) :
    ({ s with worker, claims, gate, late } : ServiceState).taskEnd n = some e := by
  cases n with
  | server => exact h
  | loop other => exact h
  | worker =>
      change (match s.worker with | .ended e => some e | _ => none) = some e at h
      cases hs : s.worker with
      | ended e' => exact absurd hs (hphase e')
      | _ =>
          rw [hs] at h
          cases h

theorem LoopStep.frame {name : LoopName} (hst : LoopStep name s t) : TaskFrame s t := by
  have hmoved : ∀ {phase : LoopPhase}, (∀ e, s.loops name ≠ .ended e) →
      TaskFrame s (s.moveLoop name phase) := fun h =>
    ⟨rfl, rfl, rfl, rfl, rfl, rfl, rfl, fun _ _ => taskEnd_moveLoop h, Or.inl rfl⟩
  cases hst with
  | opened hphase => exact hmoved (by rw [hphase]; rintro _ ⟨⟩)
  | openFails error hphase => exact hmoved (by rw [hphase]; rintro _ ⟨⟩)
  | select hphase => exact hmoved (by rw [hphase]; rintro _ ⟨⟩)
  | pending hphase => exact hmoved (by rw [hphase]; rintro _ ⟨⟩)
  | tick hphase =>
      have hends : ∀ e, s.loops name ≠ .ended e := by rw [hphase]; rintro _ ⟨⟩
      exact ⟨rfl, rfl, rfl, rfl, rfl, rfl, rfl,
        fun _ _ => taskEnd_moveLoop (s := s.begin (.loop name)) hends, Or.inl rfl⟩
  | streamEnds hname hphase => exact hmoved (by rw [hphase]; rintro _ ⟨⟩)
  | handled hname hphase => exact hmoved (by rw [hphase]; rintro _ ⟨⟩)
  | measured healthy hname hphase => exact hmoved (by rw [hphase]; rintro _ ⟨⟩)
  | passFails error hname hphase => exact hmoved (by rw [hphase]; rintro _ ⟨⟩)
  | markPublisher hname hphase =>
      have hends : ∀ e, s.loops name ≠ .ended e := by rw [hphase]; rintro _ ⟨⟩
      exact ⟨rfl, rfl, rfl, rfl, rfl, rfl, rfl,
        fun _ _ => taskEnd_moveLoop (s := s.store _) hends, Or.inl rfl⟩
  | markDependencies hname hphase =>
      have hends : ∀ e, s.loops name ≠ .ended e := by rw [hphase]; rintro _ ⟨⟩
      exact ⟨rfl, rfl, rfl, rfl, rfl, rfl, rfl,
        fun _ _ => taskEnd_moveLoop (s := s.store _) hends, Or.inl rfl⟩
  | panics hphase =>
      refine hmoved ?_
      rcases hphase with hphase | hphase <;> (rw [hphase]; rintro _ ⟨⟩)

theorem WorkerStep.frame (hst : WorkerStep s t) : TaskFrame s t := by
  have hmoved : ∀ {worker : WorkerPhase} {claims : List RunClaim}, (∀ e, s.worker ≠ .ended e) →
      TaskFrame s { s with worker := worker, claims := claims } := fun h =>
    ⟨rfl, rfl, rfl, rfl, rfl, rfl, rfl, fun _ _ => taskEnd_moveWorker h, Or.inl rfl⟩
  cases hst with
  | select hphase => exact hmoved (by rw [hphase]; rintro _ ⟨⟩)
  | pending hphase => exact hmoved (by rw [hphase]; rintro _ ⟨⟩)
  | tick hphase hgate =>
      have hends : ∀ e, s.worker ≠ .ended e := by rw [hphase]; rintro _ ⟨⟩
      exact ⟨rfl, rfl, rfl, rfl, rfl, rfl, rfl, fun _ _ => taskEnd_moveWorker hends,
        Or.inr ⟨_, Or.inl rfl, hgate⟩⟩
  | tryAdmit hphase hl hgate =>
      refine ⟨rfl, rfl, rfl, rfl, rfl, rfl, rfl, fun _ _ h => h, Or.inr ⟨_, ?_, hgate⟩⟩
      rcases hl with rfl | rfl | rfl | rfl | rfl <;> exact Or.inr ⟨_, rfl⟩
  | admitted hphase hcall => exact hmoved (by rw [hphase]; rintro _ ⟨⟩)
  | refused hphase hcall => exact hmoved (by rw [hphase]; rintro _ ⟨⟩)
  | claimNone hphase => exact hmoved (by rw [hphase]; rintro _ ⟨⟩)
  | claimFails e hphase he => exact hmoved (by rw [hphase]; rintro _ ⟨⟩)
  | claim runId hphase => exact hmoved (by rw [hphase]; rintro _ ⟨⟩)
  | force hphase hforced => exact hmoved (by rw [hphase]; rintro _ ⟨⟩)
  | processed hphase => exact hmoved (by rw [hphase]; rintro _ ⟨⟩)
  | processFails error hphase => exact hmoved (by rw [hphase]; rintro _ ⟨⟩)
  | panics hphase => exact hmoved (by rw [hphase]; rintro _ ⟨⟩)
  | release hphase hl hgate =>
      refine ⟨rfl, rfl, rfl, rfl, rfl, rfl, rfl, fun _ _ h => h, Or.inr ⟨_, ?_, hgate⟩⟩
      rcases hl with rfl | rfl <;> exact Or.inr ⟨_, rfl⟩
  | released hphase hcall => exact hmoved (by rw [hphase]; rintro _ ⟨⟩)

theorem ServerStep.frame (hst : ServerStep s t) : TaskFrame s t := by
  have hends : ∀ {phase : ServerPhase}, s.server = .running → ∀ name e,
      s.taskEnd name = some e →
        ({ s with server := phase } : ServiceState).taskEnd name = some e := by
    intro phase hphase name e h
    cases name with
    | worker => exact h
    | loop other => exact h
    | server =>
        change (match s.server with | .ended e => some e | _ => none) = some e at h
        rw [hphase] at h
        cases h
  cases hst with
  | stops hphase hcancelled =>
      exact ⟨rfl, rfl, rfl, rfl, rfl, rfl, rfl, hends hphase, Or.inl rfl⟩
  | fails e hphase he =>
      exact ⟨rfl, rfl, rfl, rfl, rfl, rfl, rfl, hends hphase, Or.inl rfl⟩

theorem EndpointStep.frame (hst : EndpointStep s t) : TaskFrame s t := by
  cases hst <;> exact ⟨rfl, rfl, rfl, rfl, rfl, rfl, rfl, fun _ _ h => h, Or.inl rfl⟩

/-- Steps that begin no pass. -/
theorem LatePasses.quiet (h : LatePasses s) (hlate : t.late = s.late)
    (hcancelled : s.cancelled = true → t.cancelled = true)
    (hpolling : ∀ name, t.Polling name → s.Polling name ∨ s.cancelled = false) : LatePasses t where
  notLate hfalse name := by
    rw [hlate]
    refine h.notLate ?_ name
    cases hs : s.cancelled with
    | false => rfl
    | true => rw [hcancelled hs] at hfalse; cases hfalse
  late name := by
    rw [hlate]
    rcases h.late name with hzero | ⟨hone, hnot⟩
    · exact Or.inl hzero
    · refine Or.inr ⟨hone, fun hpoll => ?_⟩
      rcases hpolling name hpoll with hold | hfalse
      · exact hnot hold
      · have hzero := h.notLate hfalse name
        omega

/-- A pass begins where `cancelled()` was pending. -/
theorem LatePasses.begin (h : LatePasses s) (name : TaskName) (hpoll : s.Polling name)
    (hlate : t.late = (s.begin name).late) (hcancelled : t.cancelled = s.cancelled)
    (hpolling : ∀ other, t.Polling other → other ≠ name ∧ s.Polling other) : LatePasses t where
  notLate hfalse other := by
    rw [hcancelled] at hfalse
    rw [hlate, ServiceState.begin_late, if_neg (by rw [hfalse]; exact Bool.false_ne_true)]
    exact h.notLate hfalse other
  late other := by
    rw [hlate, ServiceState.begin_late]
    cases s.cancelled with
    | false =>
        rw [if_neg Bool.false_ne_true]
        exact (h.late other).imp_right fun hone => ⟨hone.1, fun ht => hone.2 (hpolling other ht).2⟩
    | true =>
        rw [if_pos rfl]
        by_cases hother : other = name
        · subst hother
          refine Or.inr ⟨?_, fun ht => (hpolling other ht).1 rfl⟩
          have hzero : s.late other = 0 := (h.late other).resolve_right fun hone => hone.2 hpoll
          rw [Function.update_self, hzero]
        · rw [Function.update_of_ne hother]
          exact (h.late other).imp_right fun hone =>
            ⟨hone.1, fun ht => hone.2 (hpolling other ht).2⟩

/-- A loop that moves on does not poll again before it has selected. -/
theorem polling_moveLoop {name : LoopName} {phase : LoopPhase} {n : TaskName}
    (h : (s.moveLoop name phase).Polling n) : n = .loop name ∧ phase = .polling ∨
      n ≠ .loop name ∧ s.Polling n := by
  cases n with
  | worker => exact Or.inr ⟨(by rintro ⟨⟩), h⟩
  | server => exact h.elim
  | loop other =>
      change Function.update s.loops name phase other = .polling at h
      by_cases hother : other = name
      · subst hother
        rw [Function.update_self] at h
        exact Or.inl ⟨rfl, h⟩
      · rw [Function.update_of_ne hother] at h
        exact Or.inr ⟨fun heq => hother (TaskName.loop.inj heq), h⟩

theorem LatePasses.loop {name : LoopName} (h : LatePasses s) (hst : LoopStep name s t) :
    LatePasses t := by
  have hmoved : ∀ {phase : LoopPhase}, phase ≠ .polling → LatePasses (s.moveLoop name phase) :=
    fun hne => h.quiet rfl id fun n hn =>
      (polling_moveLoop hn).elim (fun heq => absurd heq.2 hne) fun hold => Or.inl hold.2
  have hstored : ∀ {health : RuntimeHealth},
      LatePasses ((s.store health).moveLoop name .selecting) :=
    h.quiet rfl id fun n hn => by
      rcases polling_moveLoop hn with ⟨-, heq⟩ | ⟨-, hold⟩
      · cases heq
      · exact Or.inl hold
  cases hst with
  | opened hphase => exact hmoved (by rintro ⟨⟩)
  | openFails error hphase => exact hmoved (by rintro ⟨⟩)
  | select hphase =>
      cases hcancelled : s.cancelled with
      | true => exact hmoved (by rintro ⟨⟩)
      | false =>
          exact h.quiet rfl id fun _ _ => Or.inr hcancelled
  | pending hphase => exact hmoved (by rintro ⟨⟩)
  | tick hphase =>
      refine h.begin (.loop name) hphase rfl rfl fun other hother => ?_
      rcases polling_moveLoop hother with ⟨-, heq⟩ | hold
      · cases heq
      · exact hold
  | streamEnds hname hphase => exact hmoved (by rintro ⟨⟩)
  | handled hname hphase => exact hmoved (by rintro ⟨⟩)
  | measured healthy hname hphase => exact hmoved (by rintro ⟨⟩)
  | passFails error hname hphase => exact hmoved (by rintro ⟨⟩)
  | markPublisher hname hphase => exact hstored
  | markDependencies hname hphase => exact hstored
  | panics hphase => exact hmoved (by rintro ⟨⟩)

theorem LatePasses.worker (h : LatePasses s) (hst : WorkerStep s t) : LatePasses t := by
  have hmoved : ∀ {worker : WorkerPhase} {claims : List RunClaim} {gate : DrainState},
      worker ≠ .polling → LatePasses { s with worker, claims, gate } := fun hne =>
    h.quiet rfl id fun n hn => Or.inl <| by
      cases n with
      | loop other => exact hn
      | worker => exact absurd hn hne
      | server => exact hn
  cases hst with
  | select hphase =>
      refine h.quiet rfl id fun n hn => ?_
      cases hcancelled : s.cancelled with
      | false => exact Or.inr rfl
      | true =>
          cases n with
          | loop other => exact Or.inl hn
          | server => exact Or.inl hn
          | worker =>
              change (if s.cancelled then WorkerPhase.ended .ok else .polling) = .polling at hn
              rw [hcancelled] at hn
              cases hn
  | pending hphase => exact hmoved (by rintro ⟨⟩)
  | tick hphase hgate =>
      refine h.begin .worker hphase rfl rfl fun other hother => ?_
      cases other with
      | loop name => exact ⟨(by rintro ⟨⟩), hother⟩
      | worker => cases hother
      | server => exact hother.elim
  | tryAdmit hphase hl hgate => exact hmoved (by rw [hphase]; rintro ⟨⟩)
  | admitted hphase hcall => exact hmoved (by rintro ⟨⟩)
  | refused hphase hcall => exact hmoved (by rintro ⟨⟩)
  | claimNone hphase => exact hmoved (by rintro ⟨⟩)
  | claimFails e hphase he => exact hmoved (by rintro ⟨⟩)
  | claim runId hphase => exact hmoved (by rintro ⟨⟩)
  | force hphase hforced => exact hmoved (by rintro ⟨⟩)
  | processed hphase => exact hmoved (by rintro ⟨⟩)
  | processFails error hphase => exact hmoved (by rintro ⟨⟩)
  | panics hphase => exact hmoved (by rintro ⟨⟩)
  | release hphase hl hgate => exact hmoved (by rw [hphase]; rintro ⟨⟩)
  | released hphase hcall =>
      rename_i after
      cases after <;> exact hmoved (by rintro ⟨⟩)

/-- The worker processes nothing and its loop goes on. -/
def WorkerPhase.idle : WorkerPhase → Bool
  | .processing _ _ | .ended _ | .releasing _ (some _) => false
  | _ => true

/-- A claim that went well, or was dropped after the deadline. -/
def RunClaim.Settled (forced : Bool) (claim : RunClaim) : Prop :=
  claim.fate = some .processed ∨ (claim.fate = some .dropped ∧ forced = true)

variable {phase : WorkerPhase} {forced : Bool} {claims : List RunClaim}

/-- While nothing went wrong, a claim that is not processed is settled. -/
theorem FateInv.settled_of {claim : RunClaim} (h : FateInv phase forced claims)
    (hmem : claim ∈ claims) (hnone : claim.fate ≠ none) (hended : ∀ e, phase = .ended e → e = .ok)
    (hreleasing : ∀ k e, phase = .releasing k (some e) → e = .ok) : claim.Settled forced := by
  have hgood : ¬(claim.fate = some .failed ∨ claim.fate = some .panicked) := by
    intro hfate
    obtain ⟨e, he, hs | ⟨k, hs⟩⟩ := h.spoiled claim hmem hfate
    · exact he (hended e hs)
    · exact he (hreleasing k e hs)
  cases hfate : claim.fate with
  | none => exact absurd hfate hnone
  | some fate =>
      cases fate with
      | processed => exact Or.inl hfate
      | dropped => exact Or.inr ⟨hfate, h.dropped claim hmem hfate⟩
      | failed => exact absurd (Or.inl hfate) hgood
      | panicked => exact absurd (Or.inr hfate) hgood

/-- Every claim is settled while the loop goes on and processes nothing. -/
theorem FateInv.settled (h : FateInv phase forced claims) (hidle : phase.idle = true) :
    ∀ claim ∈ claims, claim.Settled forced := by
  intro claim hmem
  refine h.settled_of hmem (fun hnone => ?_) (fun e hs => ?_) fun k e hs => ?_
  · obtain ⟨i, hi⟩ := List.mem_iff_getElem?.mp hmem
    obtain ⟨k, hs⟩ := h.undecided i claim hi hnone
    rw [hs] at hidle
    cases hidle
  · rw [hs] at hidle
    cases hidle
  · rw [hs] at hidle
    cases hidle

theorem FateInv.of_settled (h : ∀ claim ∈ claims, claim.Settled forced) :
    FateInv phase forced claims where
  undecided i claim hi hnone := by
    rcases h claim (List.mem_of_getElem? hi) with hfate | ⟨hfate, -⟩ <;>
      (rw [hnone] at hfate; cases hfate)
  dropped claim hmem hdropped := by
    rcases h claim hmem with hfate | ⟨-, hforced⟩
    · rw [hdropped] at hfate
      cases hfate
    · exact hforced
  spoiled claim hmem hspoiled := by
    rcases h claim hmem with hfate | ⟨hfate, -⟩ <;>
      (rw [hfate] at hspoiled; rcases hspoiled with hs | hs <;> cases hs)

/-- A run is claimed. -/
theorem FateInv.claim {k runId : ℕ} (h : FateInv phase forced claims)
    (hidle : phase.idle = true) :
    FateInv (.processing k claims.length) forced (claims ++ [⟨runId, none⟩]) where
  undecided i claim hi hnone := by
    rcases Nat.lt_or_ge i claims.length with hlt | hge
    · rw [List.getElem?_append_left hlt] at hi
      rcases h.settled hidle claim (List.mem_of_getElem? hi) with hfate | ⟨hfate, -⟩ <;>
        (rw [hnone] at hfate; cases hfate)
    · obtain ⟨hlength, -⟩ := List.getElem?_eq_some_iff.mp hi
      rw [List.length_append, List.length_singleton] at hlength
      obtain rfl : i = claims.length := by omega
      exact ⟨k, rfl⟩
  dropped claim hmem hdropped := by
    rcases List.mem_append.mp hmem with hold | hnew
    · exact h.dropped claim hold hdropped
    · obtain rfl := List.mem_singleton.mp hnew
      cases hdropped
  spoiled claim hmem hspoiled := by
    rcases List.mem_append.mp hmem with hold | hnew
    · rcases h.settled hidle claim hold with hfate | ⟨hfate, -⟩ <;>
        (rw [hfate] at hspoiled; rcases hspoiled with hs | hs <;> cases hs)
    · obtain rfl := List.mem_singleton.mp hnew
      rcases hspoiled with hs | hs <;> cases hs

/-- The claim that was processed gets its fate, and the others have one. -/
theorem FateInv.mem_settle {k i : ℕ} {fate : Fate} {claim : RunClaim}
    (h : FateInv s.worker s.forced s.claims) (hphase : s.worker = .processing k i)
    (hmem : claim ∈ (s.settle i fate).claims) :
    claim.fate = some fate ∨ (claim ∈ s.claims ∧ claim.Settled s.forced) := by
  obtain ⟨j, hj⟩ := List.mem_iff_getElem?.mp hmem
  rw [ServiceState.settle, List.getElem?_modify] at hj
  obtain ⟨old, hold, heq⟩ := Option.map_eq_some_iff.mp hj
  by_cases hij : i = j
  · subst hij
    rw [if_pos rfl] at heq
    exact Or.inl (heq ▸ rfl)
  · rw [if_neg hij] at heq
    obtain rfl : old = claim := heq
    have hmem := List.mem_of_getElem? hold
    refine Or.inr ⟨hmem, h.settled_of hmem (fun hnone => ?_) (fun e => ?_) fun k e => ?_⟩
    · obtain ⟨k', hs⟩ := h.undecided j old hold hnone
      rw [hphase] at hs
      cases hs
      exact hij rfl
    · rw [hphase]
      rintro ⟨⟩
    · rw [hphase]
      rintro ⟨⟩

/-- Processing ends well, or is dropped. -/
theorem FateInv.settle {k i : ℕ} {fate : Fate} (h : FateInv s.worker s.forced s.claims)
    (hphase : s.worker = .processing k i)
    (hfate : fate = .processed ∨ (fate = .dropped ∧ s.forced = true)) :
    FateInv phase s.forced (s.settle i fate).claims :=
  .of_settled fun claim hmem => by
    rcases h.mem_settle hphase hmem with heq | ⟨-, hsettled⟩
    · rcases hfate with rfl | ⟨rfl, hforced⟩
      · exact Or.inl heq
      · exact Or.inr ⟨heq, hforced⟩
    · exact hsettled

/-- Processing goes wrong: the loop is to end. -/
theorem FateInv.spoil {k i : ℕ} {fate : Fate} {e : TaskEnd}
    (h : FateInv s.worker s.forced s.claims) (hphase : s.worker = .processing k i)
    (hfate : fate ≠ .dropped) (he : e ≠ .ok) :
    FateInv (.releasing k (some e)) s.forced (s.settle i fate).claims where
  undecided j claim hj hnone := by
    rcases h.mem_settle hphase (List.mem_of_getElem? hj) with heq | ⟨-, hsettled⟩
    · rw [hnone] at heq
      cases heq
    · rcases hsettled with heq | ⟨heq, -⟩ <;> (rw [hnone] at heq; cases heq)
  dropped claim hmem hdropped := by
    rcases h.mem_settle hphase hmem with heq | ⟨hold, -⟩
    · rw [hdropped] at heq
      exact absurd (Option.some.inj heq).symm hfate
    · exact h.dropped claim hold hdropped
  spoiled claim hmem _ := ⟨e, he, Or.inr ⟨k, rfl⟩⟩

/-- The permit is given back: the task ends with what went wrong. -/
theorem FateInv.ended {k : ℕ} {e : TaskEnd}
    (h : FateInv (.releasing k (some e)) forced claims) : FateInv (.ended e) forced claims where
  undecided i claim hi hnone := by
    obtain ⟨j, hs⟩ := h.undecided i claim hi hnone
    cases hs
  dropped := h.dropped
  spoiled claim hmem hspoiled := by
    obtain ⟨e', he, hs | ⟨j, hs⟩⟩ := h.spoiled claim hmem hspoiled
    · cases hs
    · cases hs
      exact ⟨e, he, Or.inl rfl⟩

/-- The worker moves on without an operation on the gate. -/
theorem WorkInv.move (h : WorkInv s)
    (hpermit : ∀ k, s.worker.permit = some k →
      phase.permit = some k ∨ s.gate.calls[k]? = some .finished)
    (hlive : ∀ k, phase.working = some k → s.gate.calls[k]? = some .live)
    (hclaims : FateInv phase s.forced claims)
    (hreleasing : ∀ k, phase ≠ .releasing k (some .ok)) :
    WorkInv { s with worker := phase, claims } where
  gate := h.gate
  owned k call hk hne := by
    rcases hpermit k (h.owned k call hk hne) with heq | hfinished
    · exact heq
    · exact absurd (Option.some.inj (hk.symm.trans hfinished)) hne
  live := hlive
  claims := hclaims
  releasing := hreleasing

/-- An operation on the admission that the worker holds, while it neither claims nor processes. -/
theorem WorkInv.operate {k : ℕ} {l : DrainLabel} {g : DrainState} (h : WorkInv s)
    (hpermit : s.worker.permit = some k) (hquiet : s.worker.working = none)
    (hcall : l.call = some k) (hgate : drainStep s.gate l = some g) :
    WorkInv { s with gate := g } where
  gate := h.gate.step hgate
  owned j call hj hne := by
    obtain ⟨next, hcalls⟩ := calls_of_call hcall hgate
    rw [hcalls] at hj
    by_cases hjk : k = j
    · exact hjk ▸ hpermit
    · rw [List.getElem?_set_ne hjk] at hj
      exact h.owned j call hj hne
  live j hj := by
    change s.worker.working = some j at hj
    rw [hquiet] at hj
    cases hj
  claims := h.claims
  releasing := h.releasing

/-- **Every step of the worker loop keeps its invariant.** -/
theorem WorkInv.worker (h : WorkInv s) (hst : WorkerStep s t) : WorkInv t := by
  have hidle : s.worker.idle = true → ∀ {worker : WorkerPhase},
      FateInv worker s.forced s.claims := fun hw _ => .of_settled (h.claims.settled hw)
  cases hst with
  | select hphase =>
      rw [hphase] at hidle
      refine h.move (fun k hk => ?_) (fun k hk => ?_) (hidle rfl) fun k heq => ?_
      · rw [hphase] at hk
        cases hk
      · cases hcancelled : s.cancelled <;> (rw [hcancelled] at hk; cases hk)
      · cases hcancelled : s.cancelled <;> (rw [hcancelled] at heq; cases heq)
  | pending hphase =>
      rw [hphase] at hidle
      refine h.move (fun k hk => ?_) (by rintro k ⟨⟩) (hidle rfl) (by rintro k ⟨⟩)
      rw [hphase] at hk
      cases hk
  | tick hphase hgate =>
      rw [hphase] at hidle
      refine ⟨h.gate.step hgate, fun k phase hk hne => ?_, (by rintro k ⟨⟩), hidle rfl,
        by rintro k ⟨⟩⟩
      obtain rfl := Option.some.inj hgate
      rcases Nat.lt_or_ge k s.gate.calls.length with hlt | hge
      · have hold := h.owned k phase ((List.getElem?_append_left hlt).symm.trans hk) hne
        rw [hphase] at hold
        cases hold
      · obtain ⟨hlength, -⟩ := List.getElem?_eq_some_iff.mp hk
        rw [List.length_append, List.length_singleton] at hlength
        exact congrArg some (by omega)
  | tryAdmit hphase hl hgate =>
      refine h.operate (by rw [hphase]; rfl) (by rw [hphase]; rfl) ?_ hgate
      rcases hl with rfl | rfl | rfl | rfl | rfl <;> rfl
  | admitted hphase hcall =>
      rw [hphase] at hidle
      refine h.move (fun j hj => ?_) (fun j hj => ?_) (hidle rfl) (by rintro k ⟨⟩)
      · rw [hphase] at hj
        exact Or.inl hj
      · obtain rfl := Option.some.inj hj
        exact hcall
  | refused hphase hcall =>
      rw [hphase] at hidle
      refine h.move (fun j hj => ?_) (by rintro k ⟨⟩) (hidle rfl) (by rintro k ⟨⟩)
      rw [hphase] at hj
      exact Or.inr (Option.some.inj hj ▸ hcall)
  | claimNone hphase =>
      rw [hphase] at hidle
      refine h.move (fun j hj => ?_) (by rintro k ⟨⟩) (hidle rfl) (by rintro k ⟨⟩)
      rw [hphase] at hj
      exact Or.inl hj
  | claimFails e hphase he =>
      rw [hphase] at hidle
      refine h.move (fun j hj => ?_) (by rintro k ⟨⟩) (hidle rfl) fun k heq => ?_
      · rw [hphase] at hj
        exact Or.inl hj
      · cases heq
        exact he rfl
  | claim runId hphase =>
      have hlive := h.live
      rw [hphase] at hlive
      refine h.move (fun j hj => ?_) hlive (h.claims.claim (by rw [hphase]; rfl))
        (by rintro k ⟨⟩)
      rw [hphase] at hj
      exact Or.inl hj
  | force hphase hforced =>
      refine h.move (fun j hj => ?_) (by rintro k ⟨⟩)
        (h.claims.settle hphase (Or.inr ⟨rfl, hforced⟩)) (by rintro k ⟨⟩)
      rw [hphase] at hj
      exact Or.inl hj
  | processed hphase =>
      refine h.move (fun j hj => ?_) (by rintro k ⟨⟩)
        (h.claims.settle hphase (Or.inl rfl)) (by rintro k ⟨⟩)
      rw [hphase] at hj
      exact Or.inl hj
  | processFails error hphase =>
      refine h.move (fun j hj => ?_) (by rintro k ⟨⟩)
        (h.claims.spoil hphase (by rintro ⟨⟩) (by rintro ⟨⟩)) (by rintro k ⟨⟩)
      rw [hphase] at hj
      exact Or.inl hj
  | panics hphase =>
      refine h.move (fun j hj => ?_) (by rintro k ⟨⟩)
        (h.claims.spoil hphase (by rintro ⟨⟩) (by rintro ⟨⟩)) (by rintro k ⟨⟩)
      rw [hphase] at hj
      exact Or.inl hj
  | release hphase hl hgate =>
      refine h.operate (by rw [hphase]; rfl) (by rw [hphase]; rfl) ?_ hgate
      rcases hl with rfl | rfl <;> rfl
  | released hphase hcall =>
      rename_i after
      have hpermit : ∀ k, s.worker.permit = some k → s.gate.calls[k]? = some .finished := by
        intro k hk
        rw [hphase] at hk
        exact Option.some.inj hk ▸ hcall
      have hclaims := h.claims
      rw [hphase] at hclaims
      cases after with
      | none =>
          exact h.move (fun k hk => Or.inr (hpermit k hk)) (by rintro k ⟨⟩)
            (.of_settled (hclaims.settled rfl)) (by rintro k ⟨⟩)
      | some e =>
          exact h.move (fun k hk => Or.inr (hpermit k hk)) (by rintro k ⟨⟩) hclaims.ended
            (by rintro k ⟨⟩)

/-- The other tasks leave the worker alone. -/
theorem WorkInv.other (h : WorkInv s) (hgate : t.gate = s.gate) (hworker : t.worker = s.worker)
    (hforced : t.forced = s.forced) (hclaims : t.claims = s.claims) : WorkInv t where
  gate := hgate ▸ h.gate
  owned k phase hk hne := hworker ▸ h.owned k phase (hgate ▸ hk) hne
  live k hk := hgate ▸ h.live k (hworker ▸ hk)
  claims := by
    rw [hworker, hforced, hclaims]
    exact h.claims
  releasing := hworker ▸ h.releasing

end Tasks

/-! ### The main task -/

section Main

variable {s t : ServiceState}

/-- No task was spawned. -/
structure Unspawned (s : ServiceState) : Prop where
  loops : ∀ name, s.loops name = .absent
  worker : s.worker = .absent
  server : s.server = .absent
  joined : ∀ name, s.joined name = false
  claims : s.claims = []

/-- What the `select!` got is how a task ended; without it, a signal came. -/
def FirstInv (s : ServiceState) : Option TaskEnd → Prop
  | none => s.signalled = true
  | some e => s.signalled = false ∧ ∃ name, s.taskEnd name = some e

/-- No admission passes any more, and no permit is live unless the deadline passed. -/
def Shut (s : ServiceState) : Prop :=
  s.gate.accepting = false ∧ (s.forced = false → Drained s.gate)

/-- What a result of `run_initialized` is evidence of. -/
def ResultInv (s : ServiceState) : Except ServiceError Unit → Prop
  | .ok () => s.signalled = true ∧ (∀ name, s.taskEnd name = some .ok) ∧ Shut s
  | .error (.startup _) => Unspawned s
  | .error (.task error) => ∃ name, s.taskEnd name = some (.failed error)
  | .error .join => ∃ name, s.taskEnd name = some .panicked
  | .error .backgroundStopped => s.signalled = false ∧ ∀ name, s.taskEnd name = some .ok

/-- **The invariant of the main task**, phase by phase. -/
def MainInv (s : ServiceState) : MainPhase → Prop
  | .starting _ => s.health.state = .starting ∧ s.signalled = false ∧ Unspawned s
  | .markingDependencies | .markingReady => s.health.state = .starting ∧ s.signalled = false
  | .watching => s.health.state = .ready ∧ s.signalled = false
  | .cancelling first | .drainBegins first => s.health.state = .ready ∧ FirstInv s first
  | .closing first => s.health.state = .draining ∧ FirstInv s first
  | .draining first =>
      s.health.state = .draining ∧ FirstInv s first ∧ s.gate.accepting = false ∧
        s.gate.drain.onClosed = true
  | .forcing first => s.health.state = .draining ∧ FirstInv s first ∧ s.gate.accepting = false
  | .drained first | .folding first => s.health.state = .draining ∧ FirstInv s first ∧ Shut s
  | .joining first =>
      s.health.state = .draining ∧ FirstInv s first ∧ Shut s ∧ first ≠ some .panicked
  | .returned result => ResultInv s result

/-- What the `select!` got of a task. -/
def MainPhase.first : MainPhase → Option TaskEnd
  | .cancelling first | .drainBegins first | .closing first | .draining first | .forcing first
  | .drained first | .folding first | .joining first => first
  | _ => none

/-- A task that was joined ended well, or is the one that the `select!` got. -/
def JoinedInv (s : ServiceState) : Prop :=
  (∀ result, s.main ≠ .returned result) → ∀ name, s.joined name = true →
    ∃ e, s.taskEnd name = some e ∧ (e = .ok ∨ s.main.first = some e)

/-- **The invariant of the process.** -/
structure ServiceInv (s : ServiceState) : Prop where
  work : WorkInv s
  late : LatePasses s
  main : MainInv s s.main
  joined : JoinedInv s
  /-- The server is told to stop after the drain, and stops after it was told to. -/
  stopped : s.server = .ended .ok → s.serverCancelled = true
  served : s.serverCancelled = true → Shut s

/-- Where the wait has returned, the gate is drained. -/
theorem shut_of_returned {closed : Bool} (hgate : drainSystem.Reachable s.gate)
    (hclosed : s.gate.drain.onClosed = true) (hdrain : s.gate.drain = .returned closed) :
    Shut s := by
  rw [hdrain] at hclosed
  obtain rfl : closed = true := hclosed
  have hdrained := (waitInv_of_reachable hgate).returned hdrain
  exact ⟨hdrained.shut, fun _ => hdrained⟩

/-- The gate stays shut. -/
theorem Shut.gate {l : DrainLabel} {g : DrainState} (h : Shut s)
    (hgate : drainStep s.gate l = some g) : Shut { s with gate := g } :=
  ⟨accepting_step hgate h.1, fun hforced => (h.2 hforced).step hgate⟩

/-- Nothing was spawned, and no task takes a step. -/
theorem Unspawned.taskEnd (h : Unspawned s) (name : TaskName) : s.taskEnd name = none := by
  cases name with
  | loop name => rw [ServiceState.taskEnd, h.loops]
  | worker => rw [ServiceState.taskEnd, h.worker]
  | server => rw [ServiceState.taskEnd, h.server]

theorem Unspawned.not_loop {name : LoopName} (h : Unspawned s) : ¬LoopStep name s t := by
  intro hst
  cases hst with
  | panics hphase => rcases hphase with hphase | hphase <;> (rw [h.loops] at hphase; cases hphase)
  | _ =>
      rename_i hphase
      rw [h.loops] at hphase
      cases hphase

theorem Unspawned.not_worker (h : Unspawned s) : ¬WorkerStep s t := by
  intro hst
  cases hst with
  | tick hphase _ => rw [h.worker] at hphase; cases hphase
  | tryAdmit hphase _ _ => rw [h.worker] at hphase; cases hphase
  | admitted hphase _ => rw [h.worker] at hphase; cases hphase
  | refused hphase _ => rw [h.worker] at hphase; cases hphase
  | claimFails _ hphase _ => rw [h.worker] at hphase; cases hphase
  | force hphase _ => rw [h.worker] at hphase; cases hphase
  | release hphase _ _ => rw [h.worker] at hphase; cases hphase
  | released hphase _ => rw [h.worker] at hphase; cases hphase
  | _ =>
      rename_i hphase
      rw [h.worker] at hphase
      cases hphase

theorem Unspawned.not_server (h : Unspawned s) : ¬ServerStep s t := by
  intro hst
  cases hst with
  | stops hphase _ => rw [h.server] at hphase; cases hphase
  | fails _ hphase _ => rw [h.server] at hphase; cases hphase

/-- A step of a task leaves the gate shut. -/
theorem TaskFrame.shut (hframe : TaskFrame s t) (h : Shut s) : Shut t := by
  rcases hframe.gate with heq | ⟨l, hl, hgate⟩
  · refine ⟨heq ▸ h.1, fun hforced => heq ▸ h.2 (hframe.forced ▸ hforced)⟩
  · exact ⟨accepting_step hgate h.1, fun hforced => (h.2 (hframe.forced ▸ hforced)).step hgate⟩

theorem TaskFrame.firstInv (hframe : TaskFrame s t) {first : Option TaskEnd}
    (h : FirstInv s first) : FirstInv t first := by
  cases first with
  | none => exact hframe.signalled.trans h
  | some e =>
      obtain ⟨hsignal, name, hend⟩ := h
      exact ⟨hframe.signalled.trans hsignal, name, hframe.ends name e hend⟩

/-- **A step of a task keeps the invariant of the main task.** -/
theorem MainInv.frame (h : MainInv s s.main) (hframe : TaskFrame s t)
    (hspawned : Unspawned s → Unspawned t) (hrunning : ∀ result, s.main ≠ .returned result) :
    MainInv t t.main := by
  have hgate : t.gate.accepting = s.gate.accepting ∧
      t.gate.drain.onClosed = s.gate.drain.onClosed := by
    rcases hframe.gate with heq | ⟨l, hl, hgate⟩
    · rw [heq]
      exact ⟨rfl, rfl⟩
    · exact ⟨(gate_of_ofWorker hl hgate).1, (gate_of_ofWorker hl hgate).2.2⟩
  rw [hframe.main]
  have hstate := hframe.state
  cases hs : s.main with
  | starting left =>
      rw [hs] at h
      exact ⟨hstate.trans h.1, hframe.signalled.trans h.2.1, hspawned h.2.2⟩
  | returned result => exact absurd hs (hrunning result)
  | markingDependencies | markingReady | watching =>
      rw [hs] at h
      exact ⟨hstate.trans h.1, hframe.signalled.trans h.2⟩
  | cancelling first =>
      rw [hs] at h
      exact ⟨hstate.trans h.1, hframe.firstInv h.2⟩
  | drainBegins first =>
      rw [hs] at h
      exact ⟨hstate.trans h.1, hframe.firstInv h.2⟩
  | closing first =>
      rw [hs] at h
      exact ⟨hstate.trans h.1, hframe.firstInv h.2⟩
  | draining first =>
      rw [hs] at h
      exact ⟨hstate.trans h.1, hframe.firstInv h.2.1, hgate.1.trans h.2.2.1,
        hgate.2.trans h.2.2.2⟩
  | forcing first =>
      rw [hs] at h
      exact ⟨hstate.trans h.1, hframe.firstInv h.2.1, hgate.1.trans h.2.2⟩
  | drained first =>
      rw [hs] at h
      exact ⟨hstate.trans h.1, hframe.firstInv h.2.1, hframe.shut h.2.2⟩
  | folding first =>
      rw [hs] at h
      exact ⟨hstate.trans h.1, hframe.firstInv h.2.1, hframe.shut h.2.2⟩
  | joining first =>
      rw [hs] at h
      exact ⟨hstate.trans h.1, hframe.firstInv h.2.1, hframe.shut h.2.2.1, h.2.2.2⟩

theorem JoinedInv.frame (h : JoinedInv s) (hframe : TaskFrame s t) : JoinedInv t := by
  intro hrunning name hjoined
  rw [hframe.main] at hrunning ⊢
  obtain ⟨e, hend, he⟩ := h hrunning name (hframe.joined ▸ hjoined)
  exact ⟨e, hframe.ends name e hend, he⟩

/-- **A step of a task keeps the invariant**, given that it keeps what is its own. -/
theorem ServiceInv.frame (h : ServiceInv s) (hframe : TaskFrame s t) (hwork : WorkInv t)
    (hlate : LatePasses t) (hspawned : Unspawned s → Unspawned t)
    (hrunning : ∀ result, s.main ≠ .returned result)
    (hstopped : t.server = .ended .ok → t.serverCancelled = true) : ServiceInv t where
  work := hwork
  late := hlate
  main := h.main.frame hframe hspawned hrunning
  joined := h.joined.frame hframe
  stopped := hstopped
  served hcancelled := hframe.shut (h.served (hframe.serverCancelled ▸ hcancelled))

/-- **A step of the main task keeps the worker's invariant.** -/
theorem WorkInv.main (h : WorkInv s) (hmain : MainInv s s.main) (hst : MainStep s t) :
    WorkInv t := by
  have hgate : ∀ {l : DrainLabel} {g : DrainState} {main : MainPhase}, ¬l.ofWorker →
      drainStep s.gate l = some g → WorkInv { s with main, gate := g } := by
    intro l g main hl hgate
    have hcalls := calls_of_not_ofWorker hl hgate
    exact ⟨h.gate.step hgate, fun k phase hk => h.owned k phase (hcalls ▸ hk),
      fun k hk => hcalls ▸ h.live k hk, h.claims, h.releasing⟩
  cases hst with
  | spawn hs =>
      rw [hs] at hmain
      obtain ⟨-, -, hunspawned⟩ := hmain
      refine ⟨h.gate, fun k phase hk hne => ?_, (by rintro k ⟨⟩), ?_, by rintro k ⟨⟩⟩
      · have hold := h.owned k phase hk hne
        rw [hunspawned.worker] at hold
        cases hold
      · exact .of_settled (h.claims.settled (by rw [hunspawned.worker]; rfl))
  | close hs hl hstep =>
      refine hgate ?_ hstep
      rcases hl with rfl | rfl | rfl <;> exact not_ofWorker (by rintro ⟨⟩) rfl
  | closed hs hclose hstep => exact hgate (not_ofWorker (by rintro ⟨⟩) rfl) hstep
  | wait hs hl hstep =>
      refine hgate ?_ hstep
      rcases hl with rfl | rfl <;> exact not_ofWorker (by rintro ⟨⟩) rfl
  | deadline hs hdrain hstep => exact hgate (not_ofWorker (by rintro ⟨⟩) rfl) hstep
  | force hs =>
      exact ⟨h.gate, h.owned, h.live, ⟨h.claims.undecided, fun _ _ _ => rfl, h.claims.spoiled⟩,
        h.releasing⟩
  | _ => exact h.other rfl rfl rfl rfl

theorem LatePasses.main (h : LatePasses s) (hst : MainStep s t) : LatePasses t := by
  cases hst with
  | spawn hs =>
      refine h.quiet rfl id fun name hname => ?_
      cases name with
      | loop name => cases name <;> cases hname
      | worker => cases hname
      | server => exact hname.elim
  | cancel hs => exact h.quiet rfl (fun _ => rfl) fun _ hname => Or.inl hname
  | _ => exact h.quiet rfl id fun _ hname => Or.inl hname

/-- The main task leaves a shut gate shut. -/
theorem Shut.main (h : Shut s) (hst : MainStep s t) : Shut t := by
  cases hst with
  | close hs hl hgate => exact h.gate hgate
  | closed hs hclose hgate => exact h.gate hgate
  | wait hs hl hgate => exact h.gate hgate
  | deadline hs hdrain hgate => exact h.gate hgate
  | force hs => exact ⟨h.1, by rintro ⟨⟩⟩
  | _ => exact h

/-- Every task ended well once all of them are joined. -/
theorem JoinedInv.all_ok {first : Option TaskEnd} (h : JoinedInv s) (hs : s.main = .joining first)
    (hfirst : first = none ∨ first = some .ok) (hall : ∀ name, s.joined name = true)
    (name : TaskName) : s.taskEnd name = some .ok := by
  obtain ⟨e, hend, he⟩ := h (by rw [hs]; rintro _ ⟨⟩) name (hall name)
  have hok : e = .ok := by
    rcases he with he | he
    · exact he
    · rw [hs] at he
      rcases hfirst with rfl | rfl
      · cases he
      · exact (Option.some.inj he).symm
  exact hok ▸ hend

/-- **A step of the main task keeps its invariant.** -/
theorem MainInv.main (h : ServiceInv s) (hst : MainStep s t) : MainInv t t.main := by
  have hmain := h.main
  cases hst with
  | startup hs =>
      rw [hs] at hmain
      exact ⟨hmain.1, hmain.2.1, ⟨hmain.2.2.loops, hmain.2.2.worker, hmain.2.2.server,
        hmain.2.2.joined, hmain.2.2.claims⟩⟩
  | startupFails hs =>
      rw [hs] at hmain
      exact ⟨hmain.2.2.loops, hmain.2.2.worker, hmain.2.2.server, hmain.2.2.joined,
        hmain.2.2.claims⟩
  | spawn hs =>
      rw [hs] at hmain
      exact ⟨hmain.1, hmain.2.1⟩
  | markDependencies hs =>
      rw [hs] at hmain
      exact hmain
  | markReady hs =>
      rw [hs] at hmain
      exact ⟨rfl, hmain.2⟩
  | signal hs =>
      rw [hs] at hmain
      exact ⟨hmain.1, rfl⟩
  | firstExit hs hend =>
      rw [hs] at hmain
      exact ⟨hmain.1, hmain.2, _, hend⟩
  | cancel hs =>
      rename_i first
      rw [hs] at hmain
      cases first <;> exact hmain
  | beginDrain hs =>
      rename_i first
      rw [hs] at hmain
      cases first <;> exact ⟨rfl, hmain.2⟩
  | close hs hl hgate =>
      rename_i first _ _
      rw [hs] at hmain
      rw [show ({ s with gate := _ } : ServiceState).main = .closing first from hs]
      cases first <;> exact hmain
  | closed hs hclose hgate =>
      rename_i first _
      rw [hs] at hmain
      have hshut : s.gate.accepting = false :=
        shut_of_reachable h.work.gate (by rw [hclose]; rintro ⟨⟩)
      obtain ⟨-, heq⟩ := Option.ite_none_right_eq_some.mp hgate
      obtain rfl := Option.some.inj heq
      have hclosed : (!s.gate.accepting) = true := by rw [hshut]; rfl
      cases first <;> exact ⟨hmain.1, hmain.2, hshut, hclosed⟩
  | wait hs hl hgate =>
      rename_i first _ g
      rw [hs] at hmain
      have hshut := accepting_step hgate hmain.2.2.1
      have hclosed : g.drain.onClosed = true := by
        rcases hl with rfl | rfl
        · obtain ⟨notified, closed, hdrain, rfl⟩ := DrainState.drainLoad_eq_some hgate
          have hold := hmain.2.2.2
          rw [hdrain] at hold
          cases hactive : s.gate.active <;> exact hold
        · obtain ⟨closed, hdrain, rfl⟩ := DrainState.drainWake_eq_some hgate
          have hold := hmain.2.2.2
          rw [hdrain] at hold
          exact hold
      rw [show ({ s with gate := g } : ServiceState).main = .draining first from hs]
      cases first <;> exact ⟨hmain.1, hmain.2.1, hshut, hclosed⟩
  | drained hs hdrain =>
      rename_i first _
      rw [hs] at hmain
      have hshut := shut_of_returned h.work.gate hmain.2.2.2 hdrain
      cases first <;> exact ⟨hmain.1, hmain.2.1, hshut⟩
  | deadline hs hdrain hgate =>
      rename_i first _
      rw [hs] at hmain
      have hshut := accepting_step hgate hmain.2.2.1
      cases first <;> exact ⟨hmain.1, hmain.2.1, hshut⟩
  | force hs =>
      rename_i first
      rw [hs] at hmain
      cases first <;> exact ⟨hmain.1, hmain.2.1, hmain.2.2, by rintro ⟨⟩⟩
  | cancelServer hs =>
      rename_i first
      rw [hs] at hmain
      cases first <;> exact hmain
  | foldPanic hs =>
      rw [hs] at hmain
      exact hmain.2.1.2
  | fold hs hfirst =>
      rename_i first
      rw [hs] at hmain
      cases first <;> exact ⟨hmain.1, hmain.2.1, hmain.2.2, hfirst⟩
  | join name hs hend hnew =>
      rename_i first e
      rw [hs] at hmain
      cases e with
      | ok => cases first <;> exact hmain
      | failed error => exact ⟨name, hend⟩
      | panicked => exact ⟨name, hend⟩
  | finish hs hall =>
      rename_i first
      rw [hs] at hmain
      cases first with
      | none => exact ⟨hmain.2.1, h.joined.all_ok hs (Or.inl rfl) hall, hmain.2.2.1⟩
      | some e =>
          obtain ⟨-, ⟨hsignal, name, hend⟩, -, hfirst⟩ := hmain
          cases e with
          | ok => exact ⟨hsignal, h.joined.all_ok hs (Or.inr rfl) hall⟩
          | failed error => exact ⟨name, hend⟩
          | panicked => exact absurd rfl hfirst

theorem JoinedInv.main (h : ServiceInv s) (hst : MainStep s t) : JoinedInv t := by
  have hmoved : ∀ {phase next : MainPhase}, s.main = phase →
      (∀ result, phase ≠ .returned result) → next.first = phase.first →
      ∀ name, s.joined name = true →
        ∃ e, s.taskEnd name = some e ∧ (e = .ok ∨ next.first = some e) := by
    rintro _ next rfl hphase hfirst
    rw [hfirst]
    exact h.joined hphase
  cases hst with
  | startup hs => exact fun _ => hmoved hs (by rintro _ ⟨⟩) rfl
  | startupFails hs => exact fun hnot => absurd rfl (hnot _)
  | spawn hs =>
      have hmain := h.main
      rw [hs] at hmain
      intro _ name hjoined
      have hnone : s.joined name = false := hmain.2.2.joined name
      exact absurd (hjoined.symm.trans hnone) (by rintro ⟨⟩)
  | markDependencies hs => exact fun _ => hmoved hs (by rintro _ ⟨⟩) rfl
  | markReady hs => exact fun _ => hmoved hs (by rintro _ ⟨⟩) rfl
  | signal hs => exact fun _ => hmoved hs (by rintro _ ⟨⟩) rfl
  | firstExit hs hend =>
      rename_i name e
      intro _ other hjoined
      by_cases hother : other = name
      · subst hother
        exact ⟨e, hend, Or.inr rfl⟩
      · have hold : Function.update s.joined name true other = true := hjoined
        rw [Function.update_of_ne hother] at hold
        obtain ⟨e', hend', he'⟩ := h.joined (by rw [hs]; rintro _ ⟨⟩) other hold
        rw [hs] at he'
        exact ⟨e', hend', he'.imp_right (by rintro ⟨⟩)⟩
  | cancel hs => exact fun _ => hmoved hs (by rintro _ ⟨⟩) rfl
  | beginDrain hs => exact fun _ => hmoved hs (by rintro _ ⟨⟩) rfl
  | close hs hl hgate => exact h.joined
  | closed hs hclose hgate => exact fun _ => hmoved hs (by rintro _ ⟨⟩) rfl
  | wait hs hl hgate => exact h.joined
  | drained hs hdrain => exact fun _ => hmoved hs (by rintro _ ⟨⟩) rfl
  | deadline hs hdrain hgate => exact fun _ => hmoved hs (by rintro _ ⟨⟩) rfl
  | force hs => exact fun _ => hmoved hs (by rintro _ ⟨⟩) rfl
  | cancelServer hs => exact fun _ => hmoved hs (by rintro _ ⟨⟩) rfl
  | foldPanic hs => exact fun hnot => absurd rfl (hnot _)
  | fold hs hfirst => exact fun _ => hmoved hs (by rintro _ ⟨⟩) rfl
  | join name hs hend hnew =>
      rename_i first e
      cases e with
      | failed error => exact fun hnot => absurd rfl (hnot _)
      | panicked => exact fun hnot => absurd rfl (hnot _)
      | ok =>
          intro _ other hjoined
          by_cases hother : other = name
          · subst hother
            exact ⟨.ok, hend, Or.inl rfl⟩
          · have hold : Function.update s.joined name true other = true := hjoined
            rw [Function.update_of_ne hother] at hold
            exact hmoved hs (by rintro _ ⟨⟩) rfl other hold
  | finish hs hall => exact fun hnot => absurd rfl (hnot _)

/-- **Every step keeps the invariant.** -/
theorem ServiceInv.step {a : ProcessLabel} (h : ServiceInv s) (hst : ProcessStep s a t) :
    ServiceInv t := by
  cases hst with
  | main hst =>
      refine ⟨h.work.main h.main hst, h.late.main hst, MainInv.main h hst, JoinedInv.main h hst,
        ?_, ?_⟩
      · cases hst with
        | spawn hs => rintro ⟨⟩
        | cancelServer hs => exact fun _ => rfl
        | _ => exact h.stopped
      · cases hst with
        | cancelServer hs =>
            have hmain := h.main
            rw [hs] at hmain
            exact fun _ => hmain.2.2
        | close hs hl hgate => exact fun hc => (h.served hc).gate hgate
        | closed hs hclose hgate => exact fun hc => (h.served hc).gate hgate
        | wait hs hl hgate => exact fun hc => (h.served hc).gate hgate
        | deadline hs hdrain hgate => exact fun hc => (h.served hc).gate hgate
        | force hs => exact fun hc => ⟨(h.served hc).1, by rintro ⟨⟩⟩
        | _ => exact h.served
  | loop _ hrunning hst =>
      have hframe := hst.frame
      have hsame : t.gate = s.gate ∧ t.worker = s.worker ∧ t.claims = s.claims ∧
          t.server = s.server := by
        cases hst <;> exact ⟨rfl, rfl, rfl, rfl⟩
      refine h.frame hframe (h.work.other hsame.1 hsame.2.1 hframe.forced hsame.2.2.1)
        (h.late.loop hst) (fun hunspawned => absurd hst hunspawned.not_loop) hrunning ?_
      rw [hsame.2.2.2, hframe.serverCancelled]
      exact h.stopped
  | worker hrunning hst =>
      have hframe := hst.frame
      refine h.frame hframe (h.work.worker hst) (h.late.worker hst)
        (fun hunspawned => absurd hst hunspawned.not_worker) hrunning ?_
      rw [show t.server = s.server by cases hst <;> rfl, hframe.serverCancelled]
      exact h.stopped
  | server hrunning hst =>
      have hframe := hst.frame
      have hsame : t.gate = s.gate ∧ t.worker = s.worker ∧ t.claims = s.claims ∧
          t.late = s.late ∧ ∀ name, t.Polling name → s.Polling name := by
        cases hst <;> exact ⟨rfl, rfl, rfl, rfl, fun name hname => by cases name <;> exact hname⟩
      refine h.frame hframe (h.work.other hsame.1 hsame.2.1 hframe.forced hsame.2.2.1)
        (h.late.quiet hsame.2.2.2.1 (fun hc => hframe.cancelled.trans hc)
          fun name hname => Or.inl (hsame.2.2.2.2 name hname))
        (fun hunspawned => absurd hst hunspawned.not_server) hrunning ?_
      cases hst with
      | stops hphase hcancelled => exact fun _ => hcancelled
      | fails e hphase he =>
          intro heq
          cases heq
          exact absurd rfl he
  | endpoint hrunning hst =>
      have hframe := hst.frame
      cases hst <;>
        exact h.frame hframe (h.work.other rfl rfl rfl rfl)
          (h.late.quiet rfl id fun name hname => Or.inl (by cases name <;> exact hname))
          (fun hu => ⟨hu.loops, hu.worker, hu.server, hu.joined, hu.claims⟩) hrunning h.stopped

theorem serviceInv_of_reachable {provisionTopology : Bool}
    (h : (serviceProcess provisionTopology).Reachable s) : ServiceInv s := by
  refine h.invariant ?_ fun _ _ _ _ hs hst => hs.step hst
  rintro _ rfl
  have hunspawned : Unspawned (.start provisionTopology) :=
    ⟨fun _ => rfl, rfl, rfl, fun _ => rfl, rfl⟩
  refine ⟨⟨.init rfl, ?_, (by rintro k ⟨⟩), .of_settled ?_, by rintro k ⟨⟩⟩,
    ⟨fun _ _ => rfl, fun _ => Or.inl rfl⟩, ⟨rfl, rfl, hunspawned⟩, ?_, (by rintro ⟨⟩),
    by rintro ⟨⟩⟩
  · intro k phase hk
    cases hk
  · intro claim hmem
    cases hmem
  · rintro - name ⟨⟩

/-! ### What the process leaves behind -/

/-- What an error of the process is evidence of. -/
def Explains (s : ServiceState) : ServiceError → Prop
  | .startup _ => s.claims = [] ∧ ∀ name, s.taskEnd name = none
  | .task error => ∃ name, s.taskEnd name = some (.failed error)
  | .join => ∃ name, s.taskEnd name = some .panicked
  | .backgroundStopped => s.signalled = false ∧ ∀ name, s.taskEnd name = some .ok

/-- A worker that ended well has left neither a permit nor a run behind. -/
theorem WorkInv.ended_ok (h : WorkInv s) (hs : s.worker = .ended .ok) :
    s.gate.active = 0 ∧ ∀ claim ∈ s.claims, claim.Settled s.forced := by
  constructor
  · have hcounted : s.gate.active = s.gate.calls.countP AdmitPhase.counted :=
      counted_of_reachable h.gate
    rw [hcounted, List.countP_eq_zero]
    intro phase hmem hphase
    obtain ⟨k, hk⟩ := List.mem_iff_getElem?.mp hmem
    have hpermit := h.owned k phase hk (by rintro rfl; cases hphase)
    rw [hs] at hpermit
    cases hpermit
  · have hclaims := h.claims
    rw [hs] at hclaims
    intro claim hmem
    refine hclaims.settled_of hmem (fun hnone => ?_)
      (fun e heq => (WorkerPhase.ended.inj heq).symm) fun k e heq => ?_
    · obtain ⟨i, hi⟩ := List.mem_iff_getElem?.mp hmem
      obtain ⟨k, heq⟩ := hclaims.undecided i claim hi hnone
      cases heq
    · cases heq

/-- On a drained gate no run is claimed and none gets a fate. -/
theorem WorkInv.frozen {a : ProcessLabel} (h : WorkInv s) (hdrained : Drained s.gate)
    (hst : ProcessStep s a t) : t.claims = s.claims := by
  have hquiet : ∀ k, s.worker.working ≠ some k := fun k hk =>
    hdrained.none_live (List.mem_of_getElem? (h.live k hk))
  cases hst with
  | main hst => cases hst <;> rfl
  | loop _ _ hst => cases hst <;> rfl
  | server _ hst => cases hst <;> rfl
  | endpoint _ hst => cases hst <;> rfl
  | worker _ hst =>
      cases hst with
      | claim runId hphase => exact absurd (by rw [hphase]; rfl) (hquiet _)
      | force hphase hforced => exact absurd (by rw [hphase]; rfl) (hquiet _)
      | processed hphase => exact absurd (by rw [hphase]; rfl) (hquiet _)
      | processFails error hphase => exact absurd (by rw [hphase]; rfl) (hquiet _)
      | panics hphase => exact absurd (by rw [hphase]; rfl) (hquiet _)
      | _ => rfl

/-- A drained gate stays drained. -/
theorem drained_step {a : ProcessLabel} (h : Drained s.gate) (hst : ProcessStep s a t) :
    Drained t.gate := by
  have hframe : TaskFrame s t → Drained t.gate := by
    intro hframe
    rcases hframe.gate with heq | ⟨l, -, hgate⟩
    · exact heq ▸ h
    · exact h.step hgate
  cases hst with
  | main hst =>
      cases hst with
      | close hs hl hgate => exact h.step hgate
      | closed hs hclose hgate => exact h.step hgate
      | wait hs hl hgate => exact h.step hgate
      | deadline hs hdrain hgate => exact h.step hgate
      | _ => exact h
  | loop _ _ hst => exact hframe hst.frame
  | worker _ hst => exact hframe hst.frame
  | server _ hst => exact hframe hst.frame
  | endpoint _ hst => exact hframe hst.frame

/-- **What the process leaves behind**, in every interleaving of its tasks:

* it returns without an error only after a signal, with every task ended well, the admission
  counter at zero, and every claimed run processed, or dropped after the deadline;
* an error names what failed: a step of the start, before anything was claimed, a task, or a task
  that stopped although no signal came;
* of each task, at most one pass begins after the cancellation;
* the admin server is told to stop only after the drain, and then no run is claimed or processed
  any more unless the deadline passed. -/
theorem service_exits {provisionTopology : Bool}
    (h : (serviceProcess provisionTopology).Reachable s) :
    (s.main = .returned (.ok ()) → s.signalled = true ∧ (∀ name, s.taskEnd name = some .ok) ∧
      s.gate.active = 0 ∧ ∀ claim ∈ s.claims, claim.Settled s.forced) ∧
    (∀ e, s.main = .returned (.error e) → Explains s e) ∧
    (∀ name, s.late name ≤ 1) ∧
    (s.server = .ended .ok → s.serverCancelled = true) ∧
    (s.serverCancelled = true → s.forced = false → ∀ as t,
      (serviceProcess provisionTopology).Run s as t → t.claims = s.claims) := by
  have hinv := serviceInv_of_reachable h
  have hmain := hinv.main
  refine ⟨fun hs => ?_, fun e hs => ?_, fun name => ?_, hinv.stopped, ?_⟩
  · rw [hs] at hmain
    obtain ⟨hsignal, hends, -⟩ := hmain
    have hworker : s.worker = .ended .ok := by
      have hend := hends .worker
      change (match s.worker with | .ended e => some e | _ => none) = some .ok at hend
      cases hw : s.worker with
      | ended e =>
          rw [hw] at hend
          exact congrArg _ (Option.some.inj hend)
      | _ =>
          rw [hw] at hend
          cases hend
    exact ⟨hsignal, hends, hinv.work.ended_ok hworker⟩
  · rw [hs] at hmain
    cases e with
    | startup step => exact ⟨hmain.claims, hmain.taskEnd⟩
    | task error => exact hmain
    | join => exact hmain
    | backgroundStopped => exact hmain
  · rcases hinv.late.late name with hzero | ⟨hone, -⟩ <;> omega
  · intro hcancelled hforced as t hrun
    have hdrained := (hinv.served hcancelled).2 hforced
    have hkept := hrun.preserves
      (R := fun (u v : ServiceState) => Drained u.gate → v.claims = u.claims ∧ Drained v.gate)
      (fun _ hu => ⟨rfl, hu⟩)
      (by
        intro u v w huv hvw hu
        obtain ⟨hclaims, hv⟩ := huv hu
        exact ⟨(hvw hv).1.trans hclaims, (hvw hv).2⟩) h
      fun _ _ _ hu hst hgate => ⟨(serviceInv_of_reachable hu).work.frozen hgate hst,
        drained_step hgate hst⟩
    exact (hkept hdrained).1

end Main

/-! ### Readiness -/

section Readiness

variable {s t : ServiceState}

/-- What a call of `is_ready` has seen so far. -/
def ReadyCall.Seen (timeline : List RuntimeHealth) : ReadyCall → Prop
  | .begun start => start < timeline.length
  | .sawState start i =>
      start ≤ i ∧ i < timeline.length ∧ ∃ h, timeline[i]? = some h ∧ h.state = .ready
  | .sawDependencies start i j =>
      start ≤ i ∧ i ≤ j ∧ j < timeline.length ∧
        (∃ h, timeline[i]? = some h ∧ h.state = .ready) ∧
        ∃ h, timeline[j]? = some h ∧ h.dependenciesHealthy = true
  | .ready start i j k =>
      start ≤ i ∧ i ≤ j ∧ j ≤ k ∧ k < timeline.length ∧
        (∃ h, timeline[i]? = some h ∧ h.state = .ready) ∧
        (∃ h, timeline[j]? = some h ∧ h.dependenciesHealthy = true) ∧
        ∃ h, timeline[k]? = some h ∧ h.publisherHealthy = true
  | .notReady start => start < timeline.length

/-- The lifecycle goes one way. -/
def Forward (timeline : List RuntimeHealth) : Prop :=
  timeline.Pairwise fun a b => a.state.toNat ≤ b.state.toNat

/-- **The invariant of readiness.** -/
structure ReadyInv (s : ServiceState) : Prop where
  seen : ∀ call ∈ s.calls, call.Seen s.timeline
  forward : Forward s.timeline

theorem timeline_length (s : ServiceState) : s.timeline.length = s.past.length + 1 := by
  rw [ServiceState.timeline, List.length_append, List.length_singleton]

/-- Now. -/
theorem timeline_now (s : ServiceState) : s.timeline[s.past.length]? = some s.health := by
  rw [ServiceState.timeline, List.getElem?_append_right (Nat.le_refl _), Nat.sub_self]
  rfl

/-- What was seen stays seen. -/
theorem ReadyCall.Seen.append {timeline later : List RuntimeHealth} {call : ReadyCall}
    (h : call.Seen timeline) : call.Seen (timeline ++ later) := by
  have hlt : ∀ {i : ℕ}, i < timeline.length → i < (timeline ++ later).length := fun hi =>
    Nat.lt_of_lt_of_le hi (by rw [List.length_append]; exact Nat.le_add_right _ _)
  have hat : ∀ {i : ℕ} {p : RuntimeHealth → Prop}, (∃ h, timeline[i]? = some h ∧ p h) →
      ∃ h, (timeline ++ later)[i]? = some h ∧ p h := by
    rintro i p ⟨h, hi, hp⟩
    obtain ⟨hlength, -⟩ := List.getElem?_eq_some_iff.mp hi
    exact ⟨h, (List.getElem?_append_left hlength).trans hi, hp⟩
  cases call with
  | begun start => exact hlt h
  | notReady start => exact hlt h
  | sawState start i => exact ⟨h.1, hlt h.2.1, hat h.2.2⟩
  | sawDependencies start i j =>
      exact ⟨h.1, h.2.1, hlt h.2.2.1, hat h.2.2.2.1, hat h.2.2.2.2⟩
  | ready start i j k =>
      exact ⟨h.1, h.2.1, h.2.2.1, hlt h.2.2.2.1, hat h.2.2.2.2.1, hat h.2.2.2.2.2.1,
        hat h.2.2.2.2.2.2⟩

/-- One load of a call. -/
theorem ReadyCall.Seen.load {call : ReadyCall} (h : call.Seen s.timeline) :
    (call.load s.health s.past.length).Seen s.timeline := by
  have hnow := timeline_now s
  have hlength := timeline_length s
  cases call with
  | begun start =>
      change start < s.timeline.length at h
      rw [ReadyCall.load]
      split
      · next hstate => exact ⟨by omega, by omega, _, hnow, hstate⟩
      · exact h
  | sawState start i =>
      obtain ⟨hstart, hi, hstate⟩ := h
      rw [ReadyCall.load]
      split
      · next hdependencies =>
          exact ⟨hstart, by omega, by omega, hstate, _, hnow, hdependencies⟩
      · exact Nat.lt_of_le_of_lt hstart hi
  | sawDependencies start i j =>
      obtain ⟨hstart, hij, hj, hstate, hdependencies⟩ := h
      rw [ReadyCall.load]
      split
      · next hpublisher =>
          exact ⟨hstart, hij, by omega, by omega, hstate, hdependencies, _, hnow, hpublisher⟩
      · exact Nat.lt_of_le_of_lt (Nat.le_trans hstart hij) hj
  | ready start i j k => exact h
  | notReady start => exact h

/-- A store that does not take the lifecycle back. -/
theorem ReadyInv.store (h : ReadyInv s) (htimeline : t.timeline = s.timeline ++ [t.health])
    (hcalls : t.calls = s.calls) (hforward : s.health.state.toNat ≤ t.health.state.toNat) :
    ReadyInv t where
  seen call hmem := by
    rw [htimeline]
    exact (h.seen call (hcalls ▸ hmem)).append
  forward := by
    rw [htimeline]
    refine List.pairwise_append.mpr ⟨h.forward, List.pairwise_singleton _ _, fun a ha b hb => ?_⟩
    obtain rfl := List.mem_singleton.mp hb
    refine Nat.le_trans ?_ hforward
    rcases List.mem_append.mp ha with hpast | hnow
    · exact (List.pairwise_append.mp h.forward).2.2 a hpast _ (List.mem_singleton_self _)
    · obtain rfl := List.mem_singleton.mp hnow
      exact Nat.le_refl _

/-- Steps without a store and without a call. -/
theorem ReadyInv.quiet (h : ReadyInv s) (htimeline : t.timeline = s.timeline)
    (hcalls : t.calls = s.calls) : ReadyInv t where
  seen := by
    rw [htimeline, hcalls]
    exact h.seen
  forward := htimeline ▸ h.forward

/-- **Every step keeps the invariant of readiness.** -/
theorem ReadyInv.step {a : ProcessLabel} (h : ReadyInv s) (hmain : MainInv s s.main)
    (hst : ProcessStep s a t) : ReadyInv t := by
  cases hst with
  | main hst =>
      cases hst with
      | markDependencies hs => exact h.store rfl rfl (Nat.le_refl _)
      | markReady hs =>
          rw [hs] at hmain
          exact h.store rfl rfl (by rw [hmain.1]; exact Nat.zero_le _)
      | beginDrain hs =>
          refine h.store rfl rfl ?_
          change s.health.state.toNat ≤ 2
          cases s.health.state <;> decide
      | _ => exact h.quiet rfl rfl
  | loop _ _ hst =>
      cases hst with
      | markPublisher hname hphase => exact h.store rfl rfl (Nat.le_refl _)
      | markDependencies hname hphase => exact h.store rfl rfl (Nat.le_refl _)
      | _ => exact h.quiet rfl rfl
  | worker _ hst => cases hst <;> exact h.quiet rfl rfl
  | server _ hst => cases hst <;> exact h.quiet rfl rfl
  | endpoint _ hst =>
      cases hst with
      | request hserver =>
          refine ⟨fun call hmem => ?_, h.forward⟩
          rcases List.mem_append.mp hmem with hold | hnew
          · exact h.seen call hold
          · obtain rfl := List.mem_singleton.mp hnew
            exact Nat.lt_of_lt_of_eq (Nat.lt_succ_self _) (timeline_length s).symm
      | load k =>
          refine ⟨fun call hmem => ?_, h.forward⟩
          obtain ⟨i, hi⟩ := List.mem_iff_getElem?.mp hmem
          rw [List.getElem?_modify] at hi
          obtain ⟨old, hold, heq⟩ := Option.map_eq_some_iff.mp hi
          have hseen := h.seen old (List.mem_of_getElem? hold)
          by_cases hki : k = i
          · rw [if_pos hki] at heq
            exact heq ▸ hseen.load
          · rw [if_neg hki] at heq
            exact heq ▸ hseen

theorem readyInv_of_reachable {provisionTopology : Bool}
    (h : (serviceProcess provisionTopology).Reachable s) : ReadyInv s := by
  refine h.invariant ?_ fun _ _ _ hs hready hst =>
    hready.step (serviceInv_of_reachable hs).main hst
  rintro _ rfl
  refine ⟨fun call hmem => ?_, List.pairwise_singleton _ _⟩
  cases hmem

/-- **What an answer of the readiness endpoint is evidence of.** The lifecycle only goes forward;
a call that was answered with 200 found, one after the other and after it had begun, the service
ready, its dependencies healthy and its publisher healthy; and a call that began after the drain
had begun is never answered so. -/
theorem readiness_observed {provisionTopology : Bool}
    (h : (serviceProcess provisionTopology).Reachable s) :
    Forward s.timeline ∧
    (∀ start i j k, .ready start i j k ∈ s.calls →
      start ≤ i ∧ i ≤ j ∧ j ≤ k ∧ k < s.timeline.length ∧
      (∃ health, s.timeline[i]? = some health ∧ health.state = .ready) ∧
      (∃ health, s.timeline[j]? = some health ∧ health.dependenciesHealthy = true) ∧
      (∃ health, s.timeline[k]? = some health ∧ health.publisherHealthy = true) ∧
      ∀ health, s.timeline[start]? = some health → health.state ≠ .draining) := by
  have hinv := readyInv_of_reachable h
  refine ⟨hinv.forward, fun start i j k hmem => ?_⟩
  obtain ⟨hstart, hij, hjk, hk, hstate, hdependencies, hpublisher⟩ := hinv.seen _ hmem
  refine ⟨hstart, hij, hjk, hk, hstate, hdependencies, hpublisher, fun health hat hdraining => ?_⟩
  obtain ⟨ready, hi, hready⟩ := hstate
  rcases Nat.eq_or_lt_of_le hstart with rfl | hlt
  · rw [hat] at hi
    obtain rfl := Option.some.inj hi
    rw [hdraining] at hready
    cases hready
  · obtain ⟨hlength, rfl⟩ := List.getElem?_eq_some_iff.mp hi
    obtain ⟨hlength', rfl⟩ := List.getElem?_eq_some_iff.mp hat
    have hle := List.pairwise_iff_getElem.mp hinv.forward start i hlength' hlength hlt
    rw [hdraining, hready] at hle
    exact absurd hle (by decide)

end Readiness

/-! ### A run -/

/-- The service serves; nothing has been claimed. -/
def serving : ServiceState :=
  { ServiceState.start false with
    main := .watching
    health := ⟨.ready, true, true⟩
    past := [⟨.starting, false, true⟩, ⟨.starting, true, true⟩]
    loops := fun name => if name = .consumer then .opening else .selecting
    worker := .selecting
    server := .running }

theorem serving_reachable : (serviceProcess false).Reachable serving := by
  have hinit : (serviceProcess false).Reachable (.start false) := .init rfl
  have hstores := ((hinit.step (.main (.startup rfl))).step (.main (.startup rfl))).step
    (.main (.startup rfl))
  have hdatabase := (hstores.step (.main (.startup rfl))).step (.main (.startup rfl))
  have hbus := ((hdatabase.step (.main (.startup rfl))).step (.main (.startup rfl))).step
    (.main (.startup rfl))
  have hspawned := hbus.step (.main (.spawn rfl))
  exact (hspawned.step (.main (.markDependencies rfl))).step (.main (.markReady rfl))

/-- A call that finds everything healthy. -/
theorem readiness_observed_serving : ∃ s, (serviceProcess false).Reachable s ∧
    .ready 2 2 2 2 ∈ s.calls ∧
      ∃ health, s.timeline[2]? = some health ∧ health.state = .ready := by
  have hrunning : ∀ result, MainPhase.watching ≠ .returned result := by rintro _ ⟨⟩
  have hcalled := serving_reachable.step (.endpoint hrunning (.request rfl))
  have hloaded := ((hcalled.step (.endpoint hrunning (.load 0))).step
    (.endpoint hrunning (.load 0))).step (.endpoint hrunning (.load 0))
  exact ⟨_, hloaded, .head _, ((readiness_observed hloaded).2 2 2 2 2 (.head _)).2.2.2.2.1⟩

/-- A run is claimed before the signal comes and processed during the drain. -/
theorem service_exits_signalled : ∃ s, (serviceProcess false).Reachable s ∧
    s.main = .returned (.ok ()) ∧ s.claims = [⟨7, some .processed⟩] ∧ s.gate.active = 0 := by
  have hwatching : ∀ result, MainPhase.watching ≠ .returned result := by rintro _ ⟨⟩
  have hdraining : ∀ result, MainPhase.draining none ≠ .returned result := by rintro _ ⟨⟩
  have hjoining : ∀ result, MainPhase.joining none ≠ .returned result := by rintro _ ⟨⟩
  have hticked := (serving_reachable.step (.worker hwatching (.select rfl))).step
    (.worker hwatching (.tick rfl rfl))
  have hloaded := ((hticked.step
    (.worker hwatching (.tryAdmit rfl (Or.inl rfl) rfl))).step
    (.worker hwatching (.tryAdmit rfl (Or.inr (Or.inl rfl)) rfl))).step
    (.worker hwatching (.tryAdmit rfl (Or.inr (Or.inr (Or.inl rfl))) rfl))
  have hclaimed := (hloaded.step (.worker hwatching (.admitted rfl rfl))).step
    (.worker hwatching (.claim 7 rfl))
  have hsignalled := ((hclaimed.step (.main (.signal rfl))).step (.main (.cancel rfl))).step
    (.main (.beginDrain rfl))
  have hclosed := ((hsignalled.step (.main (.close rfl (Or.inl rfl) rfl))).step
    (.main (.close rfl (Or.inr (Or.inl rfl)) rfl))).step (.main (.closed rfl rfl rfl))
  have hwaiting := hclosed.step (.main (.wait rfl (Or.inl rfl) rfl))
  have hprocessed := (hwaiting.step (.worker hdraining (.processed rfl))).step
    (.worker hdraining (.release rfl (Or.inl rfl) rfl))
  have hreleased := (hprocessed.step (.worker hdraining (.release rfl (Or.inr rfl) rfl))).step
    (.worker hdraining (.released rfl rfl))
  have hdrained := ((hreleased.step (.main (.wait rfl (Or.inr rfl) rfl))).step
    (.main (.wait rfl (Or.inl rfl) rfl))).step (.main (.drained rfl rfl))
  have hjoins := (hdrained.step (.main (.cancelServer rfl))).step
    (.main (.fold rfl (by rintro ⟨⟩)))
  have hconsumer := (hjoins.step (.loop .consumer hjoining (.opened rfl))).step
    (.loop .consumer hjoining (.select rfl))
  have hloops := (hconsumer.step (.loop .outbox hjoining (.select rfl))).step
    (.loop .probe hjoining (.select rfl))
  have hended := (hloops.step (.worker hjoining (.select rfl))).step
    (.server hjoining (.stops rfl rfl))
  have hjoined := (((hended.step (.main (.join (.loop .consumer) rfl rfl rfl))).step
    (.main (.join (.loop .outbox) rfl rfl rfl))).step
    (.main (.join (.loop .probe) rfl rfl rfl)))
  have hall := (hjoined.step (.main (.join .worker rfl rfl rfl))).step
    (.main (.join .server rfl rfl rfl))
  have hfinished := hall.step (.main (.finish rfl (by
    intro name
    cases name with
    | loop name => cases name <;> rfl
    | worker => rfl
    | server => rfl)))
  exact ⟨_, hfinished, rfl, rfl, ((service_exits hfinished).1 rfl).2.2.1⟩

end Extractor
