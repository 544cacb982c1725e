import Extractor.Capture
import Extractor.Config
import Extractor.Lib.Parties
import Extractor.ServiceProcess

/-!
# Deployments

Any number of processes start, over the years, against one database and one broker. A service
process (`run_initialized` of `services/extractor/src/main.rs`) applies the database schema in a
transaction under an advisory lock, and then creates the streams of the broker, or refuses to become
ready until somebody else has set the broker up. Its tasks and the browser worker look their
consumers up or create them in the same two ways. Requests fail; an answer may be lost after the
database or the broker has acted; processes crash in the middle; a commit whose answer was lost
arrives late or never; the server deletes consumers that nobody uses; whoever owns the broker
changes it at any time.

## Main results

* `schema_applied_once`: the schema script is committed at most once over all starts, and is there
  for every process that becomes ready.
* `start_recovers`: whatever has crashed, a new process can become ready.
* `topology_owned`: a process that must not provision changes nothing on the broker, and becomes
  ready only after the broker has shown it what it needs.
-/

namespace Extractor

open Labelled Parties

namespace Deployment

/-! ### The broker -/

/-- `DiscardPolicy`. -/
inductive DiscardPolicy
  | old
  | new
  deriving DecidableEq

/-- `RetentionPolicy`. -/
inductive RetentionPolicy
  | limits
  | interest
  | workQueue
  deriving DecidableEq

/-- `StorageType`. -/
inductive StorageType
  | file
  | memory
  deriving DecidableEq

/-- `AckPolicy`. -/
inductive AckPolicy
  | none
  | all
  | explicit
  deriving DecidableEq

/-- `DeliverPolicy`, with the two variants that the code distinguishes. -/
inductive DeliverPolicy
  | all
  | new
  deriving DecidableEq

/-- `stream::Config`; times are in seconds. -/
structure StreamConfig where
  name : String
  subjects : List String
  retention : RetentionPolicy
  storage : StorageType
  discard : DiscardPolicy
  maxMessages : ℕ
  maxBytes : ℕ
  maxAge : ℕ
  duplicateWindow : ℕ
  numReplicas : ℕ
  deriving DecidableEq

/-- `pull::Config`; a number that is 0 is left to the server. -/
structure ConsumerConfig where
  durableName : Option String
  filterSubject : String
  ackPolicy : AckPolicy
  deliverPolicy : DeliverPolicy
  ackWait : ℕ
  maxDeliver : ℤ
  inactiveThreshold : ℕ
  deriving DecidableEq

/-- The server deletes such a consumer when it was not used for a while. -/
def ConsumerConfig.expires (config : ConsumerConfig) : Bool :=
  config.durableName.isNone || config.inactiveThreshold != 0

/-- A consumer of a stream, under the name that the server knows it by. -/
structure StreamConsumer where
  stream : String
  name : String
  config : ConsumerConfig
  deriving DecidableEq

/-- What the broker holds. -/
structure Topology where
  streams : List StreamConfig
  consumers : List StreamConsumer
  buckets : List String
  deriving DecidableEq

namespace Topology

/-- `get_consumer_from_stream`. -/
def consumer (T : Topology) (name stream : String) : Option ConsumerConfig :=
  (T.consumers.find? fun c => c.stream == stream && c.name == name).map StreamConsumer.config

/-- A stream of this name exists. -/
def hasStream (T : Topology) (name : String) : Bool := T.streams.any fun c => c.name == name

/-- `get_or_create_stream`. -/
def ensureStream (T : Topology) (config : StreamConfig) : Topology :=
  if T.hasStream config.name then T else { T with streams := T.streams ++ [config] }

/-- `create_key_value`. -/
def ensureBucket (T : Topology) (bucket : String) : Topology :=
  if bucket ∈ T.buckets then T else { T with buckets := T.buckets ++ [bucket] }

/-- The server stores a configuration, and fills in what is left to it. -/
structure Stores (config stored : ConsumerConfig) : Prop where
  durableName : stored.durableName = config.durableName
  filterSubject : stored.filterSubject = config.filterSubject
  ackPolicy : stored.ackPolicy = config.ackPolicy
  deliverPolicy : stored.deliverPolicy = config.deliverPolicy
  ackWait : config.ackWait ≠ 0 → stored.ackWait = config.ackWait
  maxDeliver : config.maxDeliver ≠ 0 → stored.maxDeliver = config.maxDeliver
  inactiveThreshold : config.inactiveThreshold ≠ 0 →
    stored.inactiveThreshold = config.inactiveThreshold

/-- `get_or_create_consumer`: a consumer without a durable name is created under a name of the
server's. -/
inductive EnsuresConsumer (T : Topology) (stream name : String) (config : ConsumerConfig) :
    Topology → Prop
  | found (hfound : (T.consumer name stream).isSome = true) : EnsuresConsumer T stream name config T
  | created {assigned : String} {stored : ConsumerConfig} (hstream : T.hasStream stream = true)
      (habsent : T.consumer name stream = none)
      (hassigned : ∀ durable, config.durableName = some durable → assigned = durable)
      (hfree : T.consumer assigned stream = none) (hstored : Stores config stored) :
      EnsuresConsumer T stream name config
        { T with consumers := T.consumers ++ [⟨stream, assigned, stored⟩] }

/-- A consumer that was not used is deleted. -/
inductive Expires (T : Topology) (c : StreamConsumer) : Topology → Prop
  | deleted {before after : List StreamConsumer} (hconsumers : T.consumers = before ++ c :: after)
      (hexpires : c.config.expires = true) :
      Expires T c { T with consumers := before ++ after }

/-- The consumers that the server does not delete. -/
def enduring (consumers : List StreamConsumer) : List StreamConsumer :=
  consumers.filter fun c => !c.config.expires

theorem enduring_append (a b : List StreamConsumer) :
    enduring (a ++ b) = enduring a ++ enduring b :=
  List.filter_append _ _

/-- `consumers'` are what is left of `consumers` after some were deleted for not being used. -/
structure Left (consumers consumers' : List StreamConsumer) : Prop where
  sublist : consumers'.Sublist consumers
  same : enduring consumers' = enduring consumers

/-- Nothing of `T` is changed in `T'`, and only unused consumers are deleted. -/
structure Kept (T T' : Topology) : Prop where
  streams : T.streams <+: T'.streams
  consumers : ∃ old new, T'.consumers = old ++ new ∧ Left T.consumers old
  buckets : T.buckets <+: T'.buckets

/-- `T'` is `T` after unused consumers were deleted. -/
structure Outlived (T T' : Topology) : Prop where
  streams : T'.streams = T.streams
  consumers : Left T.consumers T'.consumers
  buckets : T'.buckets = T.buckets

end Topology

/-! ### What the processes ask for -/

/-- `EVENTS_STREAM`. -/
def eventsStream : String := "ratatoskr_events"

/-- `COMMAND_STREAM`. -/
def commandStream : String := "ratatoskr_commands"

/-- `CAPTURE_DURABLE`. -/
def captureDurable : String := "ratatoskr_extractor_capture"

/-- `RENDER_AWAITS_DURABLE`. -/
def renderAwaitsDurable : String := "ratatoskr_extractor_render_awaits"

/-- `RENDER_AWAITS_FILTER`. -/
def renderAwaitsFilter : String := "evt.content.render.>"

/-- `RENDER_REQUESTED_SUBJECT`. -/
def renderRequestedSubject : String := "cmd.content.render.requested.v1"

/-- `ensure_stream`, with what differs between its uses. -/
def sharedStream (name subject : String) (discard : DiscardPolicy) : StreamConfig :=
  { name, subjects := [subject], retention := .limits, storage := .file, discard
    maxMessages := 1000000, maxBytes := 1024 * 1024 * 1024, maxAge := 168 * 3600
    duplicateWindow := 120, numReplicas := 1 }

/-- `pull::Config::default`. -/
def defaultConsumer : ConsumerConfig :=
  { durableName := none, filterSubject := "", ackPolicy := .explicit, deliverPolicy := .all
    ackWait := 0, maxDeliver := 0, inactiveThreshold := 0 }

/-- `capture_config`; the filter is `CAPTURE_FILTER`. -/
def captureConfig (durableName : String) : ConsumerConfig :=
  { defaultConsumer with
    durableName := some durableName, filterSubject := captureSubject, ackPolicy := .explicit
    ackWait := 30, maxDeliver := 12 }

/-- `render_awaits_config`. -/
def renderAwaitsConfig : ConsumerConfig :=
  { defaultConsumer with
    durableName := none, filterSubject := renderAwaitsFilter, ackPolicy := .none
    inactiveThreshold := 120 }

/-- What `capture_consumer` compares. -/
def captureMatches (durableName : String) (config : ConsumerConfig) : Bool :=
  durableName == captureDurable && config.durableName == some durableName &&
    config.filterSubject == captureSubject && config.ackPolicy == .explicit &&
    config.ackWait == 30 && config.maxDeliver == 12

/-- What `render_awaits_consumer` compares. -/
def renderAwaitsMatches (config : ConsumerConfig) : Bool :=
  config.durableName == some renderAwaitsDurable && config.filterSubject == renderAwaitsFilter &&
    config.ackPolicy == .none && config.deliverPolicy == .new && config.ackWait == 30

/-- The part of `WorkerSettings` that its set-up reads. -/
structure WorkerSettings where
  durableName : String
  completionsBucket : String
  nkeySeedPath : Option String
  provisionTopology : Bool

/-- The check of `WorkerSettings::load`. -/
def WorkerSettings.accepted (settings : WorkerSettings) : Bool :=
  !(settings.provisionTopology && settings.nkeySeedPath.isSome)

/-- `render_consumer_config`. -/
def renderConsumerConfig (settings : WorkerSettings) : ConsumerConfig :=
  { defaultConsumer with
    durableName := some settings.durableName, filterSubject := renderRequestedSubject
    ackPolicy := .explicit, ackWait := 300, maxDeliver := 12 }

/-- What `verified_consumer` compares. -/
def renderConsumerMatches (settings : WorkerSettings) (actual : ConsumerConfig) : Bool :=
  actual.durableName == (renderConsumerConfig settings).durableName &&
    actual.filterSubject == (renderConsumerConfig settings).filterSubject &&
    actual.ackPolicy == (renderConsumerConfig settings).ackPolicy &&
    actual.ackWait == (renderConsumerConfig settings).ackWait &&
    actual.maxDeliver == (renderConsumerConfig settings).maxDeliver

/-- The requests of a start, to the database and to the broker. -/
inductive Request : Type → Type
  /-- A step of the start that touches neither the schema nor the topology. -/
  | step (name : StartupStep) : Request (Except String Unit)
  | beginTransaction : Request (Except String Unit)
  /-- `pg_advisory_xact_lock(SCHEMA_LOCK)`. -/
  | lockSchema : Request (Except String Unit)
  /-- `to_regnamespace('extractor')`. -/
  | namespacePresent : Request (Except String Bool)
  /-- The script `SCHEMA`. -/
  | executeSchema : Request (Except String Unit)
  | commit : Request (Except String Unit)
  | getOrCreateStream (config : StreamConfig) : Request (Except String Unit)
  | getStream (name : String) : Request (Except String Unit)
  | getConsumer (name stream : String) : Request (Except String ConsumerConfig)
  | getOrCreateConsumer (stream name : String) (config : ConsumerConfig) :
      Request (Except String Unit)
  | createKeyValue (bucket : String) : Request (Except String Unit)
  | getKeyValue (bucket : String) : Request (Except String Unit)

/-- Why a set-up fails. -/
inductive SetupError
  /-- A request failed. -/
  | request (message : String)
  /-- `TopologyError`, or the error of `topology_error`: what is missing or different. -/
  | topology (name : String)
  deriving DecidableEq

/-- Set-up code. -/
abbrev Setup := ExceptT SetupError (Program Request) Unit

/-- A request followed by `?`. -/
def attempt {β : Type} (error : String → SetupError) (e : Request (Except String β)) :
    ExceptT SetupError (Program Request) β := do
  let answer ← Program.call e
  Program.ofExcept (answer.mapError error)

/-- The script, where the schema is not present. -/
def createSchema (present : Bool) : Setup :=
  if present = false then attempt .request .executeSchema else pure ()

/-- `apply_schema`. -/
def applySchema : Setup := do
  attempt .request .beginTransaction
  attempt .request .lockSchema
  let present ← attempt .request .namespacePresent
  createSchema present
  attempt .request .commit

/-- `ensure_command_stream`. -/
def ensureCommandStream : Setup :=
  attempt .request (.getOrCreateStream (sharedStream commandStream "cmd.>" .new))

/-- `ensure_event_stream`. -/
def ensureEventStream : Setup :=
  attempt .request (.getOrCreateStream (sharedStream eventsStream "evt.>" .old))

/-- A consumer is fetched and compared with its specification. -/
def verifiedConsumer (name stream : String) (isAsSpecified : ConsumerConfig → Bool) : Setup := do
  let config ← attempt (fun _ => .topology name) (.getConsumer name stream)
  require (isAsSpecified config = true) (SetupError.topology name)

/-- `capture_consumer`. -/
def captureConsumer (durableName : String) : Setup :=
  verifiedConsumer durableName commandStream (captureMatches durableName)

/-- `render_awaits_consumer`. -/
def renderAwaitsConsumer : Setup :=
  verifiedConsumer renderAwaitsDurable eventsStream renderAwaitsMatches

/-- `verify_bus_topology`. -/
def verifyBusTopology (durableName : String) : Setup := do
  captureConsumer durableName
  renderAwaitsConsumer

/-- One step of the start. -/
def startStep (config : BusConfig) : StartupStep → Setup
  | .applySchema => applySchema
  | .ensureCommandStream => ensureCommandStream
  | .ensureEventStream => ensureEventStream
  | .verifyTopology => verifyBusTopology config.durableName
  | name => attempt .request (.step name)

/-- `run_initialized` up to the listener. -/
def runInitialized (config : BusConfig) : Setup :=
  (startupSteps config.provisionTopology).forM (startStep config)

/-- The set-up of `run_command_consumer`. -/
def openCommandConsumer (config : BusConfig) : Setup :=
  if config.provisionTopology then do
    ensureCommandStream
    attempt .request (.getStream commandStream)
    attempt .request (.getOrCreateConsumer commandStream config.durableName
      (captureConfig config.durableName))
  else captureConsumer config.durableName

/-- The set-up of `request_render`, once the command was published. -/
def openRenderAwaits (config : BusConfig) : Setup :=
  if config.provisionTopology then do
    attempt .request (.getStream eventsStream)
    attempt .request (.getOrCreateConsumer eventsStream renderAwaitsDurable renderAwaitsConfig)
  else renderAwaitsConsumer

/-- `ensure_render_stream`. -/
def ensureRenderStream (completionsBucket : String) : Setup := do
  attempt .request (.getStream commandStream)
  attempt .request (.getStream eventsStream)
  attempt .request (.createKeyValue completionsBucket)

/-- The consumer of `run_render_consumer`. -/
def renderConsumer (settings : WorkerSettings) : Setup :=
  if settings.provisionTopology then do
    ensureRenderStream settings.completionsBucket
    attempt .request (.getStream commandStream)
    attempt .request (.getOrCreateConsumer commandStream settings.durableName
      (renderConsumerConfig settings))
  else verifiedConsumer settings.durableName commandStream (renderConsumerMatches settings)

/-- The set-up of `run_render_consumer`. -/
def openRenderConsumer (settings : WorkerSettings) : Setup := do
  renderConsumer settings
  attempt (fun _ => .topology settings.completionsBucket)
    (.getKeyValue settings.completionsBucket)

/-- What is started. -/
inductive Task
  /-- A service process. -/
  | service (config : BusConfig)
  /-- The command consumer of a service process. -/
  | commandConsumer (config : BusConfig)
  /-- A render request of a service process. -/
  | renderAwaits (config : BusConfig)
  /-- A browser worker. -/
  | renderWorker (settings : WorkerSettings)

/-- `provision_topology`. -/
def Task.provisions : Task → Bool
  | .service config | .commandConsumer config | .renderAwaits config => config.provisionTopology
  | .renderWorker settings => settings.provisionTopology

/-- The set-up of a task. -/
def Task.setup : Task → Setup
  | .service config => runInitialized config
  | .commandConsumer config => openCommandConsumer config
  | .renderAwaits config => openRenderAwaits config
  | .renderWorker settings => openRenderConsumer settings

/-! ### The system -/

/-- The database and the broker. -/
structure Shared where
  /-- How often the script was committed. -/
  scripts : ℕ
  /-- The process whose transaction holds the advisory lock. -/
  holder : Option ℕ
  /-- The processes whose open transaction has run the script. -/
  written : ℕ → Bool
  /-- The processes whose commit is under way without an answer. -/
  doubt : ℕ → Bool
  topology : Topology
  /-- What the broker held before, oldest first. -/
  past : List Topology
  /-- The consumers that the broker has shown to a process. -/
  shown : ℕ → List StreamConsumer

namespace Shared

/-- Everything that the broker ever held. -/
def timeline (s : Shared) : List Topology := s.past ++ [s.topology]

/-- The broker changes. -/
def change (s : Shared) (T : Topology) : Shared := { s with topology := T, past := s.timeline }

/-- A process is shown a consumer. -/
def reveal (s : Shared) (p : ℕ) (c : StreamConsumer) : Shared :=
  { s with shown := Function.update s.shown p (s.shown p ++ [c]) }

/-- The transaction of a process is over. -/
def close (s : Shared) (p : ℕ) : Shared :=
  { s with
    holder := if s.holder = some p then none else s.holder
    written := Function.update s.written p false
    doubt := Function.update s.doubt p false }

/-- It was committed. -/
def committed (s : Shared) (p : ℕ) : Shared :=
  { s.close p with scripts := s.scripts + if s.written p then 1 else 0 }

/-- The lock is taken. -/
def locked (s : Shared) (p : ℕ) : Shared := { s with holder := some p }

/-- The transaction has run the script. -/
def execute (s : Shared) (p : ℕ) : Shared :=
  { s with written := Function.update s.written p true }

/-- The commit is under way. -/
def inDoubt (s : Shared) (p : ℕ) : Shared := { s with doubt := Function.update s.doubt p true }

end Shared

/-- What an answer says and what its request does. Where a request fails, its answer may have been
lost after it was carried out; a commit may still be under way. -/
def Effect (p : ℕ) (s : Shared) : Program.Exchange Request → Shared → Prop
  | ⟨.step _, _⟩, t => t = s
  | ⟨.beginTransaction, _⟩, t => t = s
  -- the lock waits for the transaction that holds it
  | ⟨.lockSchema, r⟩, t => s.holder = none ∧ t = s.locked p ∨ r ≠ .ok () ∧ t = s
  -- a transaction sees what is committed, and what it has written itself
  | ⟨.namespacePresent, r⟩, t => t = s ∧ ∀ present, r = .ok present →
      present = (decide (0 < s.scripts) || s.written p)
  -- `create schema` fails where the schema exists
  | ⟨.executeSchema, r⟩, t =>
      (decide (0 < s.scripts) || s.written p) = false ∧ t = s.execute p ∨ r ≠ .ok () ∧ t = s
  | ⟨.commit, r⟩, t => t = s.committed p ∨ r ≠ .ok () ∧ (t = s.close p ∨ t = s.inDoubt p)
  | ⟨.getOrCreateStream config, r⟩, t =>
      t = s.change (s.topology.ensureStream config) ∨ r ≠ .ok () ∧ t = s
  | ⟨.getStream name, r⟩, t => t = s ∧ (r = .ok () → s.topology.hasStream name = true)
  | ⟨.getConsumer name stream, r⟩, t =>
      (∃ config, r = .ok config ∧ s.topology.consumer name stream = some config ∧
        t = s.reveal p ⟨stream, name, config⟩) ∨ (∃ error, r = .error error) ∧ t = s
  | ⟨.getOrCreateConsumer stream name config, r⟩, t =>
      (∃ T, s.topology.EnsuresConsumer stream name config T ∧ t = s.change T) ∨
        r ≠ .ok () ∧ t = s
  | ⟨.createKeyValue bucket, r⟩, t =>
      t = s.change (s.topology.ensureBucket bucket) ∨ r ≠ .ok () ∧ t = s
  | ⟨.getKeyValue bucket, r⟩, t => t = s ∧ (r = .ok () → bucket ∈ s.topology.buckets)

/-- What happens besides. -/
inductive Event
  /-- The owner of the broker changes it. -/
  | provision (T : Topology)
  /-- The server deletes a consumer that was not used. -/
  | expire (c : StreamConsumer)
  /-- The server rolls back what a process has left open. -/
  | rollback (p : ℕ)
  /-- A commit that was under way when its process ended is carried out. -/
  | commit (p : ℕ)
  deriving DecidableEq

/-- The surroundings act. -/
inductive Surroundings (gone : ℕ → Prop) (s : Shared) : Event → Shared → Prop
  | provision (T : Topology) : Surroundings gone s (.provision T) (s.change T)
  | expire {c : StreamConsumer} {T : Topology} (hexpires : s.topology.Expires c T) :
      Surroundings gone s (.expire c) (s.change T)
  | rollback {p : ℕ} (hover : gone p) : Surroundings gone s (.rollback p) (s.close p)
  | commit {p : ℕ} (hover : gone p) (hdoubt : s.doubt p = true) :
      Surroundings gone s (.commit p) (s.committed p)

/-- The set-ups over one database and one broker. -/
def scheme : Scheme Request Shared Task Event (Except SetupError Unit) where
  program task := task.setup.run
  effect p s x t := Effect p s x t
  surroundings e gone s t := Surroundings gone s e t

/-- The state of a deployment. -/
abbrev DeploymentState := State Request Shared Task (Except SetupError Unit)

/-- A service process and a browser worker are started with settings that passed their checks; the
rest is started by a service process that is ready. -/
def Startable (s : DeploymentState) : Task → Prop
  | .service config => ∃ fetchTimeoutMs, ∀ check ∈ busLimitChecks config fetchTimeoutMs,
      check.valid = true
  | .renderWorker settings => settings.accepted = true
  | .commandConsumer config | .renderAwaits config =>
      ∃ p, s.phases p = .returned (.service config) (.ok ())

/-- Before the first process: the database may have the schema from earlier, no transaction is open,
and nobody has looked at the broker. -/
def Initial (s : Shared) : Prop :=
  s.scripts ≤ 1 ∧ s.holder = none ∧ (∀ p, s.written p = false) ∧ (∀ p, s.doubt p = false) ∧
    (∀ p, s.shown p = []) ∧ s.past = []

/-- **A deployment.** -/
def deployment : System DeploymentState (Label Task Event) :=
  parties scheme Startable Initial

/-! ### What the parties guarantee each other -/

/-- What never goes back. -/
structure Onward (s t : Shared) : Prop where
  scripts : s.scripts ≤ t.scripts
  timeline : s.timeline <+: t.timeline
  shown : ∀ p, s.shown p ⊆ t.shown p

/-- What a process relies on: nobody else touches its transaction, and while it holds the lock
nobody commits the script. -/
structure Rely (p : ℕ) (s t : Shared) : Prop where
  holder : t.holder = some p ↔ s.holder = some p
  written : t.written p = s.written p
  scripts : s.holder = some p → t.scripts = s.scripts
  onward : Onward s t

/-- A process without a transaction. -/
structure Fresh (p : ℕ) (s : Shared) : Prop where
  holder : s.holder ≠ some p
  written : s.written p = false

/-- What a request takes care of. -/
def Required (p : ℕ) (task : Task) (s : Shared) : {β : Type} → Request β → Prop
  | _, .executeSchema => s.holder = some p ∧ s.scripts = 0
  | _, .getOrCreateStream _ | _, .createKeyValue _ => task.provisions = true
  | _, .getOrCreateConsumer stream _ config =>
      task.provisions = true ∧ (stream = eventsStream → config.durableName = none)
  | _, _ => True

/-- No durable consumer reads the events. -/
def Topology.AwaitFree (T : Topology) : Prop :=
  ∀ c ∈ T.consumers, c.stream = eventsStream → c.config.durableName = none

/-- **What a process may do to the broker**: it changes nothing that is there, and creates no
durable consumer of the events. -/
structure Topology.Provides (T T' : Topology) : Prop where
  kept : T.Kept T'
  awaitFree : T.AwaitFree → T'.AwaitFree

/-- **The invariant of the database**: only the process that holds the lock has run the script, and
only where it was not committed. -/
structure SchemaInv (s : Shared) : Prop where
  scripts : s.scripts ≤ 1
  written : ∀ p, s.written p = true → s.holder = some p ∧ s.scripts = 0

/-- What a step of `p` keeps. -/
def Keeps (p : ℕ) (s t : Shared) : Prop :=
  SchemaInv t ∧ Onward s t ∧ ∀ q, q ≠ p → Rely q s t

section Keeps

variable {p q : ℕ} {s t u : Shared} {T : Topology} {task : Task} {β γ : Type}

theorem Onward.refl (s : Shared) : Onward s s :=
  ⟨Nat.le_refl _, List.prefix_refl _, fun _ => List.Subset.refl _⟩

theorem Onward.trans (h : Onward s t) (h' : Onward t u) : Onward s u :=
  ⟨Nat.le_trans h.scripts h'.scripts, h.timeline.trans h'.timeline,
    fun p => List.Subset.trans (h.shown p) (h'.shown p)⟩

theorem Rely.refl (p : ℕ) (s : Shared) : Rely p s s := ⟨Iff.rfl, rfl, fun _ => rfl, .refl s⟩

theorem Rely.trans (h : Rely p s t) (h' : Rely p t u) : Rely p s u :=
  ⟨h'.holder.trans h.holder, h'.written.trans h.written,
    fun hs => (h'.scripts (h.holder.mpr hs)).trans (h.scripts hs), h.onward.trans h'.onward⟩

theorem Fresh.others (h : Fresh p s) (hst : Rely p s t) : Fresh p t :=
  ⟨fun ht => h.holder (hst.holder.mp ht), hst.written.trans h.written⟩

@[simp] theorem Shared.timeline_change (s : Shared) (T : Topology) :
    (s.change T).timeline = s.timeline ++ [T] :=
  rfl

theorem Shared.topology_mem_timeline (s : Shared) : s.topology ∈ s.timeline :=
  List.mem_append_right _ (List.mem_singleton_self _)

theorem onward_change (s : Shared) (T : Topology) : Onward s (s.change T) :=
  ⟨Nat.le_refl _, List.prefix_append _ _, fun _ => List.Subset.refl _⟩

theorem onward_committed (s : Shared) (p : ℕ) : Onward s (s.committed p) :=
  ⟨Nat.le_add_right _ _, List.prefix_refl _, fun _ => List.Subset.refl _⟩

theorem onward_reveal (s : Shared) (p : ℕ) (c : StreamConsumer) : Onward s (s.reveal p c) := by
  refine ⟨Nat.le_refl _, List.prefix_refl _, fun q => ?_⟩
  change s.shown q ⊆ Function.update s.shown p (s.shown p ++ [c]) q
  by_cases hq : q = p
  · subst hq
    rw [Function.update_self]
    exact List.subset_append_left _ _
  · rw [Function.update_of_ne hq]
    exact List.Subset.refl _

/-- Nothing happens. -/
theorem SchemaInv.same (h : SchemaInv s) : Keeps p s s := ⟨h, .refl s, fun q _ => .refl q s⟩

/-- The broker changes. -/
theorem SchemaInv.change (h : SchemaInv s) (T : Topology) :
    SchemaInv (s.change T) ∧ Onward s (s.change T) ∧ ∀ q, Rely q s (s.change T) :=
  ⟨⟨h.scripts, h.written⟩, onward_change s T,
    fun _ => ⟨Iff.rfl, rfl, fun _ => rfl, onward_change s T⟩⟩

/-- A process is shown a consumer. -/
theorem SchemaInv.reveal (h : SchemaInv s) (p : ℕ) (c : StreamConsumer) :
    Keeps p s (s.reveal p c) :=
  ⟨⟨h.scripts, h.written⟩, onward_reveal s p c,
    fun _ _ => ⟨Iff.rfl, rfl, fun _ => rfl, onward_reveal s p c⟩⟩

/-- The lock is taken while it is free. -/
theorem SchemaInv.lock (h : SchemaInv s) (hfree : s.holder = none) : Keeps p s (s.locked p) := by
  have honward : Onward s (s.locked p) :=
    ⟨Nat.le_refl _, List.prefix_refl _, fun _ => List.Subset.refl _⟩
  refine ⟨⟨h.scripts, fun q hq => ?_⟩, honward, fun q hq => ⟨⟨fun hp => ?_, fun hq' => ?_⟩, rfl,
    fun _ => rfl, honward⟩⟩
  · have hholder := (h.written q hq).1
    rw [hfree] at hholder
    cases hholder
  · exact absurd (Option.some.inj hp).symm hq
  · rw [hfree] at hq'
    cases hq'

/-- The script runs in the transaction that holds the lock. -/
theorem SchemaInv.execute (h : SchemaInv s) (hholder : s.holder = some p)
    (hscripts : s.scripts = 0) : Keeps p s (s.execute p) := by
  have honward : Onward s (s.execute p) :=
    ⟨Nat.le_refl _, List.prefix_refl _, fun _ => List.Subset.refl _⟩
  refine ⟨⟨h.scripts, fun q hq => ?_⟩, honward, fun q hq => ⟨Iff.rfl, ?_, fun _ => rfl, honward⟩⟩
  · change Function.update s.written p true q = true at hq
    by_cases hqp : q = p
    · subst hqp
      exact ⟨hholder, hscripts⟩
    · rw [Function.update_of_ne hqp] at hq
      exact h.written q hq
  · exact Function.update_of_ne hq ..

/-- The lock of a closed transaction. -/
theorem Shared.holder_close_iff (hq : q ≠ p) :
    (s.close p).holder = some q ↔ s.holder = some q := by
  change (if s.holder = some p then none else s.holder) = some q ↔ _
  split
  · next hp =>
      rw [hp]
      refine ⟨fun hnone => ?_, fun hsome => absurd (Option.some.inj hsome).symm hq⟩
      cases hnone
  · exact Iff.rfl

/-- A transaction is rolled back. -/
theorem SchemaInv.close (h : SchemaInv s) (p : ℕ) : Keeps p s (s.close p) := by
  have honward : Onward s (s.close p) :=
    ⟨Nat.le_refl _, List.prefix_refl _, fun _ => List.Subset.refl _⟩
  refine ⟨⟨h.scripts, fun q hq => ?_⟩, honward, fun q hq =>
    ⟨Shared.holder_close_iff hq, Function.update_of_ne hq .., fun _ => rfl, honward⟩⟩
  have hqp : q ≠ p := by
    rintro rfl
    change Function.update s.written q false q = true at hq
    rw [Function.update_self] at hq
    cases hq
  change Function.update s.written p false q = true at hq
  rw [Function.update_of_ne hqp] at hq
  exact ⟨(Shared.holder_close_iff hqp).mpr (h.written q hq).1, (h.written q hq).2⟩

/-- A transaction is committed. -/
theorem SchemaInv.commit (h : SchemaInv s) (p : ℕ) : Keeps p s (s.committed p) := by
  obtain ⟨hclosed, -, hothers⟩ := h.close p
  cases hwritten : s.written p with
  | false =>
      have hscripts : (s.committed p).scripts = s.scripts := by
        rw [Shared.committed, hwritten]
        rfl
      refine ⟨⟨hscripts ▸ h.scripts, fun q hq => ?_⟩, onward_committed s p, fun q hq => ?_⟩
      · exact ⟨(hclosed.written q hq).1, hscripts.trans (hclosed.written q hq).2⟩
      · exact ⟨(hothers q hq).holder, (hothers q hq).written, fun _ => hscripts,
          onward_committed s p⟩
  | true =>
      obtain ⟨hholder, hnone⟩ := h.written p hwritten
      have hscripts : (s.committed p).scripts = 1 := by
        rw [Shared.committed, hwritten, hnone]
        rfl
      refine ⟨⟨Nat.le_of_eq hscripts, fun q hq => ?_⟩, onward_committed s p, fun q hq => ?_⟩
      · have hclear := (hclosed.written q hq).1
        change (if s.holder = some p then none else s.holder) = some q at hclear
        rw [if_pos hholder] at hclear
        cases hclear
      · exact ⟨(hothers q hq).holder, (hothers q hq).written,
          fun hq' => absurd (Option.some.inj (hq'.symm.trans hholder)) hq, onward_committed s p⟩

/-- A commit is under way. -/
theorem SchemaInv.inDoubt (h : SchemaInv s) (p : ℕ) : Keeps p s (s.inDoubt p) := by
  have honward : Onward s (s.inDoubt p) :=
    ⟨Nat.le_refl _, List.prefix_refl _, fun _ => List.Subset.refl _⟩
  exact ⟨⟨h.scripts, h.written⟩, honward, fun q _ => ⟨Iff.rfl, rfl, fun _ => rfl, honward⟩⟩

theorem Topology.Left.refl (consumers : List StreamConsumer) :
    Topology.Left consumers consumers :=
  ⟨List.Sublist.refl _, rfl⟩

theorem Topology.Left.trans {a b c : List StreamConsumer} (h : Topology.Left a b)
    (h' : Topology.Left b c) : Topology.Left a c :=
  ⟨h'.sublist.trans h.sublist, h'.same.trans h.same⟩

/-- What is left of two lists is left of each of them. -/
theorem Topology.Left.append {a b c : List StreamConsumer} (h : Topology.Left (a ++ b) c) :
    ∃ old new, c = old ++ new ∧ Topology.Left a old := by
  obtain ⟨old, new, rfl, hold, hnew⟩ := List.sublist_append_iff.mp h.sublist
  have hsame : enduring old ++ enduring new = enduring a ++ enduring b := by
    rw [← enduring_append, ← enduring_append]
    exact h.same
  have hlength := congrArg List.length hsame
  rw [List.length_append, List.length_append] at hlength
  have hold' : (enduring old).length ≤ (enduring a).length := (hold.filter _).length_le
  have hnew' : (enduring new).length ≤ (enduring b).length := (hnew.filter _).length_le
  exact ⟨old, new, rfl, hold, (List.append_inj hsame (by omega)).1⟩

theorem Topology.Kept.trans {T T' T'' : Topology} (h : T.Kept T') (h' : T'.Kept T'') :
    T.Kept T'' := by
  refine ⟨h.streams.trans h'.streams, ?_, h.buckets.trans h'.buckets⟩
  obtain ⟨old, new, hconsumers, hold⟩ := h.consumers
  obtain ⟨old', new', hconsumers', hold'⟩ := h'.consumers
  rw [hconsumers] at hold'
  obtain ⟨first, rest, rfl, hfirst⟩ := hold'.append
  exact ⟨first, rest ++ new', by rw [hconsumers', List.append_assoc], hold.trans hfirst⟩

theorem Topology.Outlived.refl (T : Topology) : T.Outlived T := ⟨rfl, .refl _, rfl⟩

theorem Topology.Outlived.trans {T T' T'' : Topology} (h : T.Outlived T') (h' : T'.Outlived T'') :
    T.Outlived T'' :=
  ⟨h'.streams.trans h.streams, h.consumers.trans h'.consumers, h'.buckets.trans h.buckets⟩

theorem Topology.Outlived.kept {T T' : Topology} (h : T.Outlived T') : T.Kept T' :=
  ⟨h.streams ▸ List.prefix_refl _, ⟨T'.consumers, [], (List.append_nil _).symm, h.consumers⟩,
    h.buckets ▸ List.prefix_refl _⟩

/-- An unused consumer is deleted. -/
theorem Topology.Expires.outlived {T T' : Topology} {c : StreamConsumer} (h : T.Expires c T') :
    T.Outlived T' := by
  cases h with
  | deleted hconsumers hexpires =>
      rename_i before after
      refine ⟨rfl, ?_, rfl⟩
      rw [hconsumers]
      refine ⟨(List.sublist_cons_self c after).append_left before, ?_⟩
      rw [enduring_append, enduring_append, enduring, enduring, enduring,
        List.filter_cons_of_neg (by simp [hexpires])]

theorem Topology.Outlived.awaitFree {T T' : Topology} (h : T.Outlived T') (hfree : T.AwaitFree) :
    T'.AwaitFree :=
  fun c hc => hfree c (h.consumers.sublist.subset hc)

theorem Topology.Provides.refl (T : Topology) : T.Provides T :=
  ⟨(Outlived.refl T).kept, fun h => h⟩

/-- More is created. -/
theorem Topology.kept_of_append {T T' : Topology} (hstreams : T.streams <+: T'.streams)
    (hconsumers : T.consumers <+: T'.consumers) (hbuckets : T.buckets <+: T'.buckets) :
    T.Kept T' := by
  obtain ⟨new, hnew⟩ := hconsumers
  exact ⟨hstreams, ⟨T.consumers, new, hnew.symm, .refl _⟩, hbuckets⟩

theorem Topology.provides_ensureStream (T : Topology) (config : StreamConfig) :
    T.Provides (T.ensureStream config) := by
  unfold ensureStream
  split
  · exact .refl T
  · exact ⟨kept_of_append (List.prefix_append _ _) (List.prefix_refl _) (List.prefix_refl _),
      fun h => h⟩

theorem Topology.provides_ensureBucket (T : Topology) (bucket : String) :
    T.Provides (T.ensureBucket bucket) := by
  unfold ensureBucket
  split
  · exact .refl T
  · exact ⟨kept_of_append (List.prefix_refl _) (List.prefix_refl _) (List.prefix_append _ _),
      fun h => h⟩

theorem Topology.EnsuresConsumer.provides {T T' : Topology} {stream name : String}
    {config : ConsumerConfig} (h : T.EnsuresConsumer stream name config T')
    (hevents : stream = eventsStream → config.durableName = none) : T.Provides T' := by
  cases h with
  | found => exact .refl T
  | created _ _ _ _ hstored =>
      refine ⟨kept_of_append (List.prefix_refl _) (List.prefix_append _ _) (List.prefix_refl _),
        fun hfree => ?_⟩
      intro c hc hstream
      rcases List.mem_append.mp hc with hc | hc
      · exact hfree c hc hstream
      · obtain rfl := List.mem_singleton.mp hc
        exact hstored.durableName.trans (hevents hstream)

/-- **What a request can do**, and which requests do it. -/
theorem Effect.elim {P : Shared → Prop} {e : Request β} {x : β} (heffect : Effect p s ⟨e, x⟩ t)
    (hsame : P s) (hlock : s.holder = none → P (s.locked p))
    (hexecute : (∀ task, Required p task s e → s.holder = some p ∧ s.scripts = 0) →
      P (s.execute p))
    (hcommit : P (s.committed p)) (hclose : P (s.close p)) (hdoubt : P (s.inDoubt p))
    (hreveal : ∀ c, P (s.reveal p c))
    (hchange : ∀ T, (∀ task, Required p task s e → task.provisions = true ∧
      s.topology.Provides T) → P (s.change T)) : P t := by
  cases e with
  | step name =>
      obtain rfl : t = s := heffect
      exact hsame
  | beginTransaction =>
      obtain rfl : t = s := heffect
      exact hsame
  | lockSchema =>
      rcases heffect with ⟨hfree, rfl⟩ | ⟨-, rfl⟩
      · exact hlock hfree
      · exact hsame
  | namespacePresent =>
      obtain ⟨rfl, -⟩ := heffect
      exact hsame
  | executeSchema =>
      rcases heffect with ⟨-, rfl⟩ | ⟨-, rfl⟩
      · exact hexecute fun _ hreq => hreq
      · exact hsame
  | commit =>
      rcases heffect with rfl | ⟨-, rfl | rfl⟩
      · exact hcommit
      · exact hclose
      · exact hdoubt
  | getOrCreateStream config =>
      rcases heffect with rfl | ⟨-, rfl⟩
      · exact hchange _ fun _ hreq => ⟨hreq, s.topology.provides_ensureStream config⟩
      · exact hsame
  | getStream name =>
      obtain ⟨rfl, -⟩ := heffect
      exact hsame
  | getConsumer name stream =>
      rcases heffect with ⟨config, -, -, rfl⟩ | ⟨-, rfl⟩
      · exact hreveal _
      · exact hsame
  | getOrCreateConsumer stream name config =>
      rcases heffect with ⟨T, hensures, rfl⟩ | ⟨-, rfl⟩
      · exact hchange T fun _ hreq => ⟨hreq.1, hensures.provides hreq.2⟩
      · exact hsame
  | createKeyValue bucket =>
      rcases heffect with rfl | ⟨-, rfl⟩
      · exact hchange _ fun _ hreq => ⟨hreq, s.topology.provides_ensureBucket bucket⟩
      · exact hsame
  | getKeyValue bucket =>
      obtain ⟨rfl, -⟩ := heffect
      exact hsame

/-- **An answered request** keeps the invariant, and what the others rely on. -/
theorem Effect.keeps (h : SchemaInv s) {e : Request β} {x : β} (hreq : Required p task s e)
    (heffect : Effect p s ⟨e, x⟩ t) : Keeps p s t := by
  refine heffect.elim h.same h.lock (fun hneeds => ?_) (h.commit p) (h.close p) (h.inDoubt p)
    (h.reveal p) fun T _ => ⟨(h.change T).1, (h.change T).2.1, fun q _ => (h.change T).2.2 q⟩
  exact h.execute (hneeds task hreq).1 (hneeds task hreq).2

/-- What has been reached stays. -/
theorem Effect.onward {e : Request β} {x : β} (heffect : Effect p s ⟨e, x⟩ t) : Onward s t := by
  have hkept : ∀ u : Shared, s.scripts ≤ u.scripts → u.timeline = s.timeline →
      u.shown = s.shown → Onward s u := fun u hscripts htimeline hshown =>
    ⟨hscripts, htimeline ▸ List.prefix_refl _, fun _ => hshown ▸ List.Subset.refl _⟩
  exact heffect.elim (.refl s) (fun _ => hkept _ (Nat.le_refl _) rfl rfl)
    (fun _ => hkept _ (Nat.le_refl _) rfl rfl) (onward_committed s p)
    (hkept _ (Nat.le_refl _) rfl rfl) (hkept _ (Nat.le_refl _) rfl rfl) (onward_reveal s p)
    fun T _ => onward_change s T

end Keeps

/-! ### The set-ups, beside others -/

/-- What stays once it was reached. -/
def Lasting (A : Shared → Prop) : Prop := ∀ s t, A s → Onward s t → A t

/-- The broker has shown the process a consumer that passes its comparison, and held it then. -/
def Shown (p : ℕ) (name stream : String) (isAsSpecified : ConsumerConfig → Bool) (s : Shared) :
    Prop :=
  ∃ config, ⟨stream, name, config⟩ ∈ s.shown p ∧ isAsSpecified config = true ∧
    ∃ T ∈ s.timeline, T.consumer name stream = some config

/-- The process holds the lock, and its transaction has not run the script. -/
def Holding (p : ℕ) (s : Shared) : Prop := s.holder = some p ∧ s.written p = false

/-- The script was committed. -/
def Applied (s : Shared) : Prop := 1 ≤ s.scripts

/-- What a task has seen of the database and the broker when its set-up succeeds. -/
def Ready (p : ℕ) : Task → Shared → Prop
  | .service config, s => Applied s ∧ (config.provisionTopology = false →
      Shown p config.durableName commandStream (captureMatches config.durableName) s ∧
        Shown p renderAwaitsDurable eventsStream renderAwaitsMatches s)
  | .commandConsumer config, s => config.provisionTopology = false →
      Shown p config.durableName commandStream (captureMatches config.durableName) s
  | .renderAwaits config, s => config.provisionTopology = false →
      Shown p renderAwaitsDurable eventsStream renderAwaitsMatches s
  | .renderWorker settings, s => settings.provisionTopology = false →
      Shown p settings.durableName commandStream (renderConsumerMatches settings) s

section Setups

variable {p : ℕ} {task : Task} {A : Shared → Prop} {β : Type} {B : β → Shared → Prop}

/-- A set-up leads from `A` to `B`. -/
abbrev SetsUp (p : ℕ) (task : Task) (A : Shared → Prop)
    (q : ExceptT SetupError (Program Request) β) (B : β → Shared → Prop) : Prop :=
  Leads (Rely p) (Effect p) (Required p task) A q B

theorem Lasting.stable (h : Lasting A) : Stable (Rely p) A := fun s t hs hst => h s t hs hst.onward

theorem Lasting.and {A' : Shared → Prop} (h : Lasting A) (h' : Lasting A') :
    Lasting fun s => A s ∧ A' s :=
  fun s t hs hst => ⟨h s t hs.1 hst, h' s t hs.2 hst⟩

theorem Lasting.of_forall : Lasting fun _ => True := fun _ _ _ _ => trivial

theorem lasting_applied : Lasting Applied := fun _ _ hs hst => Nat.le_trans hs hst.scripts

theorem lasting_shown {name stream : String} {isAsSpecified : ConsumerConfig → Bool} :
    Lasting (Shown p name stream isAsSpecified) :=
  fun _ _ ⟨config, hshown, hmatches, T, hT, hconfig⟩ hst =>
    ⟨config, hst.shown p hshown, hmatches, T, hst.timeline.subset hT, hconfig⟩

theorem Ready.lasting (p : ℕ) (task : Task) : Lasting (Ready p task) := by
  intro s t hs hst
  cases task with
  | service config =>
      refine ⟨lasting_applied s t hs.1 hst, fun hverified => ?_⟩
      exact ⟨lasting_shown s t (hs.2 hverified).1 hst, lasting_shown s t (hs.2 hverified).2 hst⟩
  | commandConsumer config => exact fun hverified => lasting_shown s t (hs hverified) hst
  | renderAwaits config => exact fun hverified => lasting_shown s t (hs hverified) hst
  | renderWorker settings => exact fun hverified => lasting_shown s t (hs hverified) hst

/-- The rule for a request. -/
theorem setsUp_attempt (error : String → SetupError) {e : Request (Except String β)}
    (hA : Stable (Rely p) A) (hB : ∀ x, Stable (Rely p) (B x))
    (hreq : ∀ s, A s → Required p task s e)
    (heffect : ∀ s t x, A s → Effect p s ⟨e, .ok x⟩ t → B x t) :
    SetsUp p task A (attempt error e) B := by
  intro s hs t hst
  refine ⟨hreq t (hA s t hs hst), ?_⟩
  rintro (m | x) u hu v huv y hy
  · cases hy
  · obtain rfl : x = y := Except.ok.inj hy
    exact hB x u v (heffect t u x (hA s t hs hst) hu) huv

/-- A request leaves what has been reached. -/
theorem setsUp_lasting (error : String → SetupError) {e : Request (Except String β)}
    (hA : Lasting A) (hreq : ∀ s, Required p task s e) :
    SetsUp p task A (attempt error e) fun _ => A :=
  setsUp_attempt error hA.stable (fun _ => hA.stable) (fun s _ => hreq s)
    fun s t _ hs ht => hA s t hs ht.onward

theorem setsUp_ensureCommandStream (hA : Lasting A) (hprovisions : task.provisions = true) :
    SetsUp p task A ensureCommandStream fun _ => A :=
  setsUp_lasting _ hA fun _ => hprovisions

theorem setsUp_ensureEventStream (hA : Lasting A) (hprovisions : task.provisions = true) :
    SetsUp p task A ensureEventStream fun _ => A :=
  setsUp_lasting _ hA fun _ => hprovisions

/-- A step that touches neither the schema nor the topology. -/
theorem setsUp_step (hA : Stable (Rely p) A) (name : StartupStep) :
    SetsUp p task A (attempt .request (.step name)) fun _ => A := by
  refine setsUp_attempt _ hA (fun _ => hA) (fun _ _ => trivial) ?_
  rintro s t x hs rfl
  exact hs

theorem stable_fresh : Stable (Rely p) (Fresh p) := fun _ _ h hst => h.others hst

theorem stable_holding : Stable (Rely p) (Holding p) :=
  fun _ _ h hst => ⟨hst.holder.mpr h.1, hst.written.trans h.2⟩

/-- **`apply_schema`** runs the script under the lock and where it was not committed. -/
theorem setsUp_applySchema : SetsUp p task (Fresh p) applySchema fun _ => Applied := by
  have hdecided : ∀ present : Bool, Stable (Rely p) fun s => Holding p s ∧
      present = decide (0 < s.scripts) := fun _ s t h hst =>
    ⟨stable_holding s t h.1 hst, by rw [hst.scripts h.1.1]; exact h.2⟩
  have hdone : Stable (Rely p) fun s => s.holder = some p ∧
      (s.written p = true ∨ 1 ≤ s.scripts) := fun s t h hst =>
    ⟨hst.holder.mpr h.1, h.2.imp hst.written.trans fun hs => Nat.le_trans hs hst.onward.scripts⟩
  refine .bind (Rely.refl p) (B := fun _ => Fresh p) ?_ fun _ =>
    .bind (Rely.refl p) (B := fun _ => Holding p) ?_ fun _ =>
    .bind (Rely.refl p) (B := fun present s => Holding p s ∧ present = decide (0 < s.scripts)) ?_
      fun present =>
    .bind (Rely.refl p) (B := fun _ s => s.holder = some p ∧
      (s.written p = true ∨ 1 ≤ s.scripts)) ?_ fun _ => ?_
  · -- `begin`
    refine setsUp_attempt _ stable_fresh (fun _ => stable_fresh) (fun _ _ => trivial) ?_
    rintro s t x hs rfl
    exact hs
  · -- the lock
    refine setsUp_attempt _ stable_fresh (fun _ => stable_holding) (fun _ _ => trivial) ?_
    rintro s t x hs (⟨-, rfl⟩ | ⟨hfails, -⟩)
    · exact ⟨rfl, hs.written⟩
    · exact absurd rfl hfails
  · -- `to_regnamespace`
    refine setsUp_attempt _ stable_holding hdecided (fun _ _ => trivial) ?_
    rintro s t x hs ⟨rfl, hpresent⟩
    exact ⟨hs, by rw [hpresent x rfl, hs.2, Bool.or_false]⟩
  · -- the script, where the schema is absent
    unfold createSchema
    split
    · next habsent =>
        refine setsUp_attempt _ (hdecided present) (fun _ => hdone) (fun s hs => ⟨hs.1.1, ?_⟩) ?_
        · have hnone : ¬ 0 < s.scripts := of_decide_eq_false (hs.2.symm.trans habsent)
          exact Nat.eq_zero_of_not_pos hnone
        · rintro s t x hs (⟨-, rfl⟩ | ⟨hfails, -⟩)
          · exact ⟨hs.1.1, Or.inl (Function.update_self ..)⟩
          · exact absurd rfl hfails
    · next hpresent =>
        refine (Leads.value _ (hdecided present)).imp (fun _ hs => hs) ?_
        rintro x s ⟨-, hs, heq⟩
        have hsome : 0 < s.scripts := of_decide_eq_true (heq.symm.trans (by simpa using hpresent))
        exact ⟨hs.1, Or.inr hsome⟩
  · -- `commit`
    refine setsUp_attempt _ hdone (fun _ => lasting_applied.stable) (fun _ _ => trivial) ?_
    rintro s t x ⟨-, hs⟩ (rfl | ⟨hfails, -⟩)
    swap
    · exact absurd rfl hfails
    change 1 ≤ s.scripts + if s.written p then 1 else 0
    rcases hs with hwritten | hscripts
    · rw [if_pos hwritten]
      exact Nat.le_add_left _ _
    · exact Nat.le_trans hscripts (Nat.le_add_right _ _)

/-- **A consumer that was verified** was shown to the process as it should be. -/
theorem setsUp_verifiedConsumer (hA : Lasting A) (name stream : String)
    (isAsSpecified : ConsumerConfig → Bool) :
    SetsUp p task A (verifiedConsumer name stream isAsSpecified) fun _ s =>
      A s ∧ Shown p name stream isAsSpecified s := by
  -- before the comparison it is only known which consumer was shown
  have hread : ∀ config : ConsumerConfig, Lasting fun s =>
      A s ∧ Shown p name stream (fun config' => decide (config' = config)) s :=
    fun _ => hA.and lasting_shown
  refine .bind (Rely.refl p) (B := fun config s =>
    A s ∧ Shown p name stream (fun config' => decide (config' = config)) s) ?_ fun config => ?_
  · refine setsUp_attempt _ hA.stable (fun config => (hread config).stable) (fun _ _ => trivial) ?_
    rintro s t config hs (⟨config', heq, hfound, rfl⟩ | ⟨⟨error, heq⟩, -⟩)
    · obtain rfl := Except.ok.inj heq
      refine ⟨hA s _ hs (onward_reveal s p _), config, ?_, decide_eq_true rfl, s.topology,
        s.topology_mem_timeline, hfound⟩
      change _ ∈ Function.update s.shown p (s.shown p ++ [_]) p
      rw [Function.update_self]
      exact List.mem_append_right _ (List.mem_singleton_self _)
    · cases heq
  · refine (Leads.check (hread config).stable).imp (fun _ hs => hs) ?_
    rintro - s ⟨hmatches, hs, config', hshown, hsame, hheld⟩
    obtain rfl := of_decide_eq_true hsame
    exact ⟨hs, config', hshown, hmatches, hheld⟩

end Setups

/-! ### Whole set-ups -/

section Tasks

variable {p : ℕ}

theorem setsUp_startStep {A : Shared → Prop} (config : BusConfig) (hA : Stable (Rely p) A)
    {name : StartupStep} (hplain : startStep config name = attempt .request (.step name)) :
    SetsUp p (.service config) A (startStep config name) fun _ => A :=
  hplain ▸ setsUp_step hA name

/-- **`verify_bus_topology`** has seen both consumers. -/
theorem setsUp_verifyBusTopology {task : Task} {A : Shared → Prop} (hA : Lasting A)
    (durableName : String) :
    SetsUp p task A (verifyBusTopology durableName) fun _ s =>
      (A s ∧ Shown p durableName commandStream (captureMatches durableName) s) ∧
        Shown p renderAwaitsDurable eventsStream renderAwaitsMatches s :=
  .bind (Rely.refl p) (setsUp_verifiedConsumer hA _ _ _) fun _ =>
    setsUp_verifiedConsumer (hA.and lasting_shown) _ _ _

/-- **The start of a service process.** -/
theorem setsUp_runInitialized (config : BusConfig) :
    SetsUp p (.service config) (Fresh p) (runInitialized config) fun _ =>
      Ready p (.service config) := by
  have hrest : SetsUp p (.service config) Applied
      (((if config.provisionTopology then [.ensureCommandStream, .ensureEventStream]
        else [.verifyTopology]) ++ [.bind] : List StartupStep).forM (startStep config)) fun _ =>
        Ready p (.service config) := by
    cases hprovisions : config.provisionTopology with
    | true =>
        refine .imp (.forM_cons (Rely.refl p)
          (setsUp_ensureCommandStream lasting_applied hprovisions)
          (.forM_cons (Rely.refl p) (setsUp_ensureEventStream lasting_applied hprovisions)
            (.forM_cons (Rely.refl p) (setsUp_startStep config lasting_applied.stable rfl)
              (.forM_nil lasting_applied.stable)))) (fun _ hs => hs) ?_
        exact fun _ s hs => ⟨hs, fun hverified =>
          absurd (hprovisions.symm.trans hverified) (by simp)⟩
    | false =>
        have hlasting : Lasting fun s => (Applied s ∧
            Shown p config.durableName commandStream (captureMatches config.durableName) s) ∧
              Shown p renderAwaitsDurable eventsStream renderAwaitsMatches s :=
          (lasting_applied.and lasting_shown).and lasting_shown
        refine .imp (.forM_cons (Rely.refl p)
          (setsUp_verifyBusTopology lasting_applied config.durableName)
          (.forM_cons (Rely.refl p) (setsUp_startStep config hlasting.stable rfl)
            (.forM_nil hlasting.stable))) (fun _ hs => hs) ?_
        exact fun _ s hs => ⟨hs.1.1, fun _ => ⟨hs.1.2, hs.2⟩⟩
  rw [runInitialized, startupSteps, List.append_assoc]
  exact .forM_cons (Rely.refl p) (setsUp_startStep config stable_fresh rfl)
    (.forM_cons (Rely.refl p) (setsUp_startStep config stable_fresh rfl)
      (.forM_cons (Rely.refl p) (setsUp_startStep config stable_fresh rfl)
        (.forM_cons (Rely.refl p) (setsUp_startStep config stable_fresh rfl)
          (.forM_cons (Rely.refl p) setsUp_applySchema
            (.forM_cons (Rely.refl p) (setsUp_startStep config lasting_applied.stable rfl)
              hrest)))))

/-- **Every set-up** keeps its part beside the others. -/
theorem setsUp_task (task : Task) : SetsUp p task (Fresh p) task.setup fun _ => Ready p task := by
  have hnothing : ∀ s, Fresh p s → True := fun _ _ => trivial
  have hprovisioned : ∀ {q : Setup}, SetsUp p task (fun _ => True) q (fun _ _ => True) →
      (∀ s, Ready p task s) → SetsUp p task (Fresh p) q fun _ => Ready p task :=
    fun h hready => h.imp hnothing fun _ s _ => hready s
  cases task with
  | service config => exact setsUp_runInitialized config
  | commandConsumer config =>
      change SetsUp p _ _ (openCommandConsumer config) _
      unfold openCommandConsumer
      split
      · next hprovisions =>
          refine hprovisioned ?_ fun s hverified =>
            absurd (hprovisions.symm.trans hverified) (by simp)
          exact .bind (Rely.refl p) (setsUp_ensureCommandStream .of_forall hprovisions) fun _ =>
            .bind (Rely.refl p) (setsUp_lasting _ .of_forall fun _ => trivial) fun _ =>
              setsUp_lasting _ .of_forall fun _ => ⟨hprovisions, fun h => absurd h (by decide)⟩
      · refine (setsUp_verifiedConsumer .of_forall _ _ _).imp hnothing ?_
        exact fun _ _ hs _ => hs.2
  | renderAwaits config =>
      change SetsUp p _ _ (openRenderAwaits config) _
      unfold openRenderAwaits
      split
      · next hprovisions =>
          refine hprovisioned ?_ fun s hverified =>
            absurd (hprovisions.symm.trans hverified) (by simp)
          exact .bind (Rely.refl p) (setsUp_lasting _ .of_forall fun _ => trivial) fun _ =>
            setsUp_lasting _ .of_forall fun _ => ⟨hprovisions, fun _ => rfl⟩
      · refine (setsUp_verifiedConsumer .of_forall _ _ _).imp hnothing ?_
        exact fun _ _ hs _ => hs.2
  | renderWorker settings =>
      have hlasting := Ready.lasting p (.renderWorker settings)
      refine .bind (Rely.refl p) (B := fun _ => Ready p (.renderWorker settings)) ?_ fun _ =>
        setsUp_lasting _ hlasting fun _ => trivial
      unfold renderConsumer
      split
      · next hprovisions =>
          refine hprovisioned ?_ fun s hverified =>
            absurd (hprovisions.symm.trans hverified) (by simp)
          have hstream : SetsUp p (.renderWorker settings) (fun _ => True)
              (ensureRenderStream settings.completionsBucket) fun _ _ => True :=
            .bind (Rely.refl p) (setsUp_lasting _ .of_forall fun _ => trivial) fun _ =>
              .bind (Rely.refl p) (setsUp_lasting _ .of_forall fun _ => trivial) fun _ =>
                setsUp_lasting _ .of_forall fun _ => hprovisions
          exact .bind (Rely.refl p) hstream fun _ =>
            .bind (Rely.refl p) (setsUp_lasting _ .of_forall fun _ => trivial) fun _ =>
              setsUp_lasting _ .of_forall fun _ => ⟨hprovisions, fun h => absurd h (by decide)⟩
      · refine (setsUp_verifiedConsumer .of_forall _ _ _).imp hnothing ?_
        exact fun _ _ hs _ => hs.2

end Tasks

/-- What a result of a set-up says. -/
def Result (p : ℕ) (task : Task) (s : Shared) (r : Except SetupError Unit) : Prop :=
  r = .ok () → Ready p task s

/-- **The parties of a deployment** keep what they owe each other. -/
theorem guarantees :
    RelyGuarantee scheme SchemaInv Fresh Rely Onward Required Result where
  refl := Rely.refl
  trans _ := Rely.trans
  fresh := Fresh.others
  program task hfresh :=
    (setsUp_task task _ hfresh).imp fun _ _ hr hok => hr () hok
  effect hinv hreq heffect := Effect.keeps hinv hreq heffect
  surroundings := by
    intro e gone s t hinv hacts
    have hothers : ∀ {p : ℕ}, gone p → Keeps p s t →
        SchemaInv t ∧ Onward s t ∧ ∀ q, ¬ gone q → Rely q s t := fun hover hkeeps =>
      ⟨hkeeps.1, hkeeps.2.1, fun q hq => hkeeps.2.2 q fun heq => hq (heq ▸ hover)⟩
    cases hacts with
    | provision T =>
        obtain ⟨hinv', honward, hrely⟩ := hinv.change T
        exact ⟨hinv', honward, fun q _ => hrely q⟩
    | expire _ =>
        obtain ⟨hinv', honward, hrely⟩ := hinv.change _
        exact ⟨hinv', honward, fun q _ => hrely q⟩
    | rollback hover => exact hothers hover (hinv.close _)
    | commit hover => exact hothers hover (hinv.commit _)
  stable hresult honward hok := Ready.lasting _ _ _ _ (hresult hok) honward

theorem Initial.sound {s : Shared} (h : Initial s) : SchemaInv s ∧ ∀ p, Fresh p s := by
  obtain ⟨hscripts, hholder, hwritten, -, -, -⟩ := h
  refine ⟨⟨hscripts, fun p hp => ?_⟩, fun p => ⟨fun hp => ?_, hwritten p⟩⟩
  · rw [hwritten p] at hp
    cases hp
  · rw [hholder] at hp
    cases hp

variable {s t : DeploymentState} {as : List (Label Task Event)}

/-- Where the database and every process of a deployment are. -/
theorem deployment_sound (h : deployment.Reachable s) : SchemaInv s.shared ∧
    ∀ p, (s.phases p).Sound scheme Fresh Rely Required Result p s.shared :=
  guarantees.sound (fun _ => Initial.sound) h

/-- The script was committed where a service process is ready. -/
theorem schema_scripts (h : deployment.Reachable s) {p : ℕ} {config : BusConfig}
    (hphase : s.phases p = .returned (.service config) (.ok ())) : s.shared.scripts = 1 := by
  obtain ⟨hinv, hparties⟩ := deployment_sound h
  have hparty := hparties p
  rw [hphase] at hparty
  exact Nat.le_antisymm hinv.scripts (hparty rfl).1

/-! ### Who changes the broker -/

/-- **Unless the owner of the broker acts**, a step leaves the broker alone, or an unused consumer
is deleted, or a process that may provision adds to it. -/
theorem step_topology {a : Label Task Event} (h : deployment.Reachable s)
    (hst : deployment.step s a t) (howner : ∀ T, a ≠ .surroundings (.provision T)) :
    (t.shared.topology = s.shared.topology ∧ t.shared.timeline = s.shared.timeline) ∨
    (∃ c T, a = .surroundings (.expire c) ∧ t.shared = s.shared.change T ∧
      s.shared.topology.Outlived T) ∨
    ∃ p task rest T, s.phases p = .running task rest ∧ task.provisions = true ∧
      t.shared = s.shared.change T ∧ s.shared.topology.Provides T := by
  cases hst with
  | start => exact Or.inl ⟨rfl, rfl⟩
  | finish => exact Or.inl ⟨rfl, rfl⟩
  | crash => exact Or.inl ⟨rfl, rfl⟩
  | exchange hrunning heffect =>
      rename_i p task β e k x shared
      have hparty := (deployment_sound h).2 p
      rw [hrunning] at hparty
      have hreq : Required p task s.shared e := guarantees.request hparty
      have hcases : (shared.topology = s.shared.topology ∧ shared.timeline = s.shared.timeline) ∨
          ∃ T, task.provisions = true ∧ shared = s.shared.change T ∧
            s.shared.topology.Provides T :=
        Effect.elim heffect (P := fun u => (u.topology = s.shared.topology ∧
          u.timeline = s.shared.timeline) ∨ ∃ T, task.provisions = true ∧ u = s.shared.change T ∧
            s.shared.topology.Provides T)
          (Or.inl ⟨rfl, rfl⟩) (fun _ => Or.inl ⟨rfl, rfl⟩) (fun _ => Or.inl ⟨rfl, rfl⟩)
          (Or.inl ⟨rfl, rfl⟩) (Or.inl ⟨rfl, rfl⟩) (Or.inl ⟨rfl, rfl⟩)
          (fun _ => Or.inl ⟨rfl, rfl⟩)
          fun T hT => Or.inr ⟨T, (hT task hreq).1, rfl, (hT task hreq).2⟩
      exact hcases.imp_right fun ⟨T, hT⟩ => Or.inr ⟨p, task, _, T, hrunning, hT⟩
  | surroundings hacts =>
      cases hacts with
      | provision T => exact absurd rfl (howner T)
      | expire hexpires => exact Or.inr (Or.inl ⟨_, _, rfl, rfl, hexpires.outlived⟩)
      | rollback => exact Or.inl ⟨rfl, rfl⟩
      | commit => exact Or.inl ⟨rfl, rfl⟩

/-- A run without the owner of the broker. -/
theorem run_unowned (hs : deployment.init s) (hrun : deployment.Run s as t)
    (howner : ∀ T, .surroundings (.provision T) ∉ as) :
    s.shared.topology.Kept t.shared.topology ∧
      (s.shared.topology.AwaitFree → ∀ T ∈ t.shared.timeline, T.AwaitFree) := by
  induction hrun with
  | nil =>
      refine ⟨(Topology.Provides.refl _).kept, fun hfree T hT => ?_⟩
      obtain ⟨-, -, -, -, -, hpast⟩ := hs.1
      rw [Shared.timeline, hpast, List.nil_append, List.mem_singleton] at hT
      exact hT ▸ hfree
  | snoc hrun hst ih =>
      rename_i u v bs a
      obtain ⟨hkept, hfree⟩ := ih fun T hT => howner T (List.mem_append_left _ hT)
      have hchanges : ∀ T : Topology, u.shared.topology.Provides T →
          s.shared.topology.Kept T ∧ (s.shared.topology.AwaitFree →
            ∀ T' ∈ (u.shared.change T).timeline, T'.AwaitFree) := by
        intro T hprovides
        refine ⟨hkept.trans hprovides.kept, fun h T' hT' => ?_⟩
        rw [Shared.timeline_change] at hT'
        rcases List.mem_append.mp hT' with hT' | hT'
        · exact hfree h T' hT'
        · rw [List.mem_singleton.mp hT']
          exact hprovides.awaitFree (hfree h _ (Shared.topology_mem_timeline _))
      rcases step_topology ((System.Reachable.init hs).run hrun) hst fun T heq =>
        howner T (List.mem_append_right _ (List.mem_singleton.mpr heq.symm)) with
        ⟨htopology, htimeline⟩ | ⟨c, T, -, hchange, houtlived⟩ |
          ⟨p, task, rest, T, -, -, hchange, hprovides⟩
      · exact ⟨htopology ▸ hkept, fun h T hT => hfree h T (htimeline ▸ hT)⟩
      · rw [hchange]
        exact hchanges T ⟨houtlived.kept, houtlived.awaitFree⟩
      · rw [hchange]
        exact hchanges T hprovides

/-- A run of processes that must not provision. -/
theorem run_unprovisioned (hs : deployment.init s) (hrun : deployment.Run s as t)
    (howner : ∀ T, .surroundings (.provision T) ∉ as)
    (hverified : ∀ p task, .start p task ∈ as → task.provisions = false) :
    s.shared.topology.Outlived t.shared.topology ∧
      ((∀ c, .surroundings (.expire c) ∉ as) → t.shared.topology = s.shared.topology) ∧
      ∀ p task rest, t.phases p = .running task rest → task.provisions = false := by
  induction hrun with
  | nil =>
      refine ⟨.refl _, fun _ => rfl, fun p task rest hrunning => ?_⟩
      rw [hs.2 p] at hrunning
      cases hrunning
  | snoc hrun hst ih =>
      obtain ⟨houtlived, hsame, htasks⟩ := ih (fun T hT => howner T (List.mem_append_left _ hT))
        fun p task hp => hverified p task (List.mem_append_left _ hp)
      rename_i u v bs a
      have hrunning : ∀ p task rest, v.phases p = .running task rest →
          task.provisions = false := by
        intro p task rest hrunning
        rcases Step.running hst hrunning with ⟨rest', hbefore⟩ | rfl
        · exact htasks p task rest' hbefore
        · exact hverified p task (List.mem_append_right _ (List.mem_singleton_self _))
      rcases step_topology ((System.Reachable.init hs).run hrun) hst fun T heq =>
        howner T (List.mem_append_right _ (List.mem_singleton.mpr heq.symm)) with
        ⟨hequal, -⟩ | ⟨c, T, rfl, hchange, hexpired⟩ | ⟨p, task, rest, T, hbefore, hprovisions, -⟩
      · exact ⟨hequal ▸ houtlived, fun hunused =>
          hequal.trans (hsame fun c hc => hunused c (List.mem_append_left _ hc)), hrunning⟩
      · rw [hchange]
        refine ⟨houtlived.trans hexpired, fun hunused => ?_, fun p task rest hp => ?_⟩
        · exact absurd (List.mem_append_right _ (List.mem_singleton_self _)) (hunused c)
        · exact hrunning p task rest hp
      · rw [htasks p task rest hbefore] at hprovisions
        cases hprovisions

theorem Topology.mem_of_consumer {T : Topology} {name stream : String} {config : ConsumerConfig}
    (h : T.consumer name stream = some config) :
    ∃ c ∈ T.consumers, c.stream = stream ∧ c.config = config := by
  obtain ⟨c, hfind, rfl⟩ := Option.map_eq_some_iff.mp h
  have hc := List.find?_some hfind
  exact ⟨c, List.mem_of_find?_eq_some hfind, eq_of_beq (Bool.and_eq_true_iff.mp hc).1, rfl⟩

/-- Only a durable consumer of the events passes for the one that renders are awaited with. -/
theorem Topology.AwaitFree.refuses {T : Topology} {config : ConsumerConfig} {name : String}
    (h : T.AwaitFree) (hconfig : T.consumer name eventsStream = some config) :
    renderAwaitsMatches config = false := by
  obtain ⟨c, hc, hstream, rfl⟩ := mem_of_consumer hconfig
  rw [renderAwaitsMatches, h c hc hstream]
  rfl

/-! ### A start after any crashes -/

/-- The broker has both consumers as a service process specifies them. -/
def Topology.AsSpecified (T : Topology) (config : BusConfig) : Prop :=
  (∃ c, T.consumer config.durableName commandStream = some c ∧
    captureMatches config.durableName c = true) ∧
  ∃ c, T.consumer renderAwaitsDurable eventsStream = some c ∧ renderAwaitsMatches c = true

/-- Code that is left alone succeeds, with what it leaves. -/
def Alone (p : ℕ) {β : Type} (q : ExceptT SetupError (Program Request) β) (s t : Shared) (x : β) :
    Prop :=
  ∃ tr, q.run.ExecBeside Eq (Effect p) s tr t (.ok x)

section Alone

variable {p : ℕ} {β γ : Type} {x : β} {y : γ} {s t u : Shared}

theorem Alone.bind {q : ExceptT SetupError (Program Request) β}
    {f : β → ExceptT SetupError (Program Request) γ} (h : Alone p q s t x)
    (h' : Alone p (f x) t u y) : Alone p (q >>= f) s u y := by
  obtain ⟨tr, htr⟩ := h
  obtain ⟨tr', htr'⟩ := h'
  have htrans : ∀ s t u : Shared, s = t → t = u → s = u := fun _ _ _ => Eq.trans
  exact ⟨tr ++ tr', htr.bind_except htrans htr'⟩

theorem alone_value (p : ℕ) (s : Shared) (x : β) : Alone p (pure x) s s x :=
  ⟨[], .done _ rfl⟩

theorem alone_attempt (error : String → SetupError) {e : Request (Except String β)}
    (heffect : Effect p s ⟨e, .ok x⟩ t) : Alone p (attempt error e) s t x :=
  ⟨_, .ask e _ (.ok x) rfl heffect (.done _ rfl)⟩

theorem alone_verifiedConsumer {name stream : String} {isAsSpecified : ConsumerConfig → Bool}
    (h : ∃ c, s.topology.consumer name stream = some c ∧ isAsSpecified c = true) :
    ∃ t, Alone p (verifiedConsumer name stream isAsSpecified) s t () ∧
      t.topology = s.topology := by
  obtain ⟨c, hc, hmatches⟩ := h
  refine ⟨s.reveal p ⟨stream, name, c⟩, ?_, rfl⟩
  refine .bind (alone_attempt _ (x := c) (Or.inl ⟨c, rfl, hc, rfl⟩)) ?_
  rw [require, if_pos hmatches]
  exact alone_value p _ ()

/-- The schema is applied, or found, where the lock is free. -/
theorem alone_applySchema (hfree : s.holder = none) (hwritten : s.written p = false) :
    ∃ t, Alone p applySchema s t () ∧ t.topology = s.topology := by
  have hsees : ∀ present, decide (0 < s.scripts) = present →
      Effect p (s.locked p) ⟨.namespacePresent, .ok present⟩ (s.locked p) := by
    rintro present rfl
    refine ⟨rfl, fun answer hanswer => ?_⟩
    rw [← Except.ok.inj hanswer]
    change _ = (decide (0 < s.scripts) || s.written p)
    rw [hwritten, Bool.or_false]
  have hstart : ∀ {present : Bool} {t : Shared}, decide (0 < s.scripts) = present →
      Alone p (createSchema present) (s.locked p) t () → Alone p applySchema s (t.committed p) () :=
    fun hpresent hcreate => .bind (alone_attempt _ (x := ()) rfl) (.bind (alone_attempt _ (x := ())
      (Or.inl ⟨hfree, rfl⟩)) (.bind (alone_attempt _ (hsees _ hpresent)) (.bind hcreate
        (alone_attempt _ (Or.inl rfl)))))
  cases hpresent : decide (0 < s.scripts) with
  | true => exact ⟨_, hstart hpresent (alone_value p _ ()), rfl⟩
  | false =>
      have hcreate : Alone p (createSchema false) (s.locked p) ((s.locked p).execute p) () := by
        refine alone_attempt _ (Or.inl ⟨?_, rfl⟩)
        change (decide (0 < s.scripts) || s.written p) = false
        rw [hpresent, hwritten]
        rfl
      exact ⟨_, hstart hpresent hcreate, rfl⟩

/-- A service process that is left alone becomes ready. -/
theorem alone_runInitialized {config : BusConfig} (hfree : s.holder = none)
    (hwritten : s.written p = false)
    (hbroker : config.provisionTopology = false → s.topology.AsSpecified config) :
    ∃ t, Alone p (runInitialized config) s t () := by
  obtain ⟨t, hschema, htopology⟩ := alone_applySchema hfree hwritten
  have hplain : ∀ {v : Shared} {name : StartupStep},
      startStep config name = attempt .request (.step name) →
      Alone p (startStep config name) v v () := by
    intro v name hname
    rw [hname]
    exact alone_attempt _ rfl
  have hrest : ∃ u, Alone p
      (((if config.provisionTopology then [.ensureCommandStream, .ensureEventStream]
        else [.verifyTopology]) ++ [.bind] : List StartupStep).forM (startStep config)) t u () := by
    cases hprovisions : config.provisionTopology with
    | true =>
        exact ⟨_, .bind (alone_attempt _ (x := ()) (Or.inl rfl)) (.bind (alone_attempt _ (x := ())
          (Or.inl rfl)) (.bind (hplain rfl) (alone_value p _ ())))⟩
    | false =>
        obtain ⟨hcapture, hawaits⟩ := hbroker hprovisions
        rw [← htopology] at hcapture
        obtain ⟨u, hcapture, hu⟩ := alone_verifiedConsumer (p := p) hcapture
        rw [← htopology, ← hu] at hawaits
        obtain ⟨v, hawaits, -⟩ := alone_verifiedConsumer (p := p) hawaits
        exact ⟨v, .bind (.bind hcapture hawaits) (.bind (hplain rfl) (alone_value p _ ()))⟩
  obtain ⟨u, hrest⟩ := hrest
  refine ⟨u, ?_⟩
  rw [runInitialized, startupSteps, List.append_assoc]
  exact .bind (hplain rfl) (.bind (hplain rfl) (.bind (hplain rfl) (.bind (hplain rfl)
    (.bind hschema (.bind (hplain rfl) hrest)))))

end Alone

/-- The server rolls back what a process that is over has left open. -/
theorem step_rollback {p : ℕ} (hover : (s.phases p).Over) :
    deployment.step s (.surroundings (.rollback p)) { s with shared := s.shared.close p } := by
  have hacts : scheme.surroundings (.rollback p) (fun p => (s.phases p).Over) s.shared
      (s.shared.close p) := Surroundings.rollback hover
  exact Step.surroundings hacts

/-- **The lock comes free**, whoever holds it. -/
theorem run_free (h : deployment.Reachable s) : ∃ as t, deployment.Run s as t ∧
    t.shared.holder = none ∧ t.shared.topology = s.shared.topology ∧
    (∀ q, (∀ task rest, s.phases q ≠ .running task rest) → t.phases q = s.phases q) ∧
    ∀ T, .surroundings (.provision T) ∉ as := by
  cases hholder : s.shared.holder with
  | none => exact ⟨[], s, .nil s, hholder, rfl, fun _ _ => rfl, fun _ => List.not_mem_nil⟩
  | some p =>
      have hclosed : (s.shared.close p).holder = none := by
        change (if s.shared.holder = some p then none else s.shared.holder) = none
        rw [if_pos hholder]
      have hover : (s.phases p).Over → ∃ as t, deployment.Run s as t ∧ t.shared.holder = none ∧
          t.shared.topology = s.shared.topology ∧
          (∀ q, (∀ task rest, s.phases q ≠ .running task rest) → t.phases q = s.phases q) ∧
          ∀ T, .surroundings (.provision T) ∉ as := fun hover => by
        refine ⟨_, _, .cons (step_rollback hover) (.nil _), hclosed, rfl, fun _ _ => rfl,
          fun T hT => ?_⟩
        cases List.mem_singleton.mp hT
      cases hphase : s.phases p with
      | idle =>
          have hfresh := (deployment_sound h).2 p
          rw [hphase] at hfresh
          exact absurd hholder hfresh.holder
      | running task rest =>
          -- it crashes first
          have hcrashed : ((s.move s.shared p (.crashed task)).phases p).Over := by
            rw [State.move_self]
            trivial
          refine ⟨_, _, .cons (.crash hphase) (.cons (step_rollback hcrashed) (.nil _)), hclosed,
            rfl, fun q hq => ?_, fun T hT => ?_⟩
          · have hqp : q ≠ p := by
              rintro rfl
              exact hq task rest hphase
            exact State.move_of_ne _ _ hqp
          · rcases List.mem_cons.mp hT with hT | hT
            · cases hT
            · cases List.mem_singleton.mp hT
      | returned task result => exact hover (by rw [hphase]; trivial)
      | crashed task => exact hover (by rw [hphase]; trivial)

/-- **A start recovers.** Whatever was started before, wherever it has crashed and whatever was
lost, a new service process can still become ready, without the owner of the broker; where it must
not provision, it is enough that the broker is as specified. Processes that are not running stay
where they are. -/
theorem start_recovers (h : deployment.Reachable s) {p : ℕ} {config : BusConfig}
    (hidle : s.phases p = .idle) (hconfig : Startable s (.service config))
    (hbroker : config.provisionTopology = false → s.shared.topology.AsSpecified config) :
    ∃ as t, deployment.Run s as t ∧ t.phases p = .returned (.service config) (.ok ()) ∧
      (∀ q, q ≠ p → (∀ task rest, s.phases q ≠ .running task rest) →
        t.phases q = s.phases q) ∧
      ∀ T, .surroundings (.provision T) ∉ as := by
  obtain ⟨as, t, hrun, hfree, htopology, hphases, howner⟩ := run_free h
  have hidle' : t.phases p = .idle :=
    (hphases p fun task rest => by rw [hidle]; exact fun h => nomatch h).trans hidle
  have hfresh := (deployment_sound (h.run hrun)).2 p
  rw [hidle'] at hfresh
  have hspecified : config.provisionTopology = false → t.shared.topology.AsSpecified config :=
    fun hverified => htopology ▸ hbroker hverified
  obtain ⟨u, tr, hexec⟩ := alone_runInitialized hfree hfresh.written hspecified
  have hstarted : deployment.Run t [.start p (.service config)]
      (t.move t.shared p (.running (.service config) (runInitialized config).run)) :=
    .cons (.start hidle' hconfig) (.nil _)
  have hready : ∃ bs, deployment.Run
      (t.move t.shared p (.running (.service config) (runInitialized config).run)) bs
      ((t.move t.shared p (.running (.service config) (runInitialized config).run)).move u p
        (.returned (.service config) (.ok ()))) ∧ ∀ a ∈ bs, a = .exchange p ∨ a = .finish p :=
    run_alone hexec rfl (State.move_self ..)
  obtain ⟨bs, halone, hlabels⟩ := hready
  have hwhole := hrun.append (hstarted.append halone)
  refine ⟨_, _, hwhole, State.move_self .., fun q hq hquiet => ?_, fun T hT => ?_⟩
  · rw [State.move_of_ne _ _ hq, State.move_of_ne _ _ hq]
    exact hphases q hquiet
  rcases List.mem_append.mp hT with hT | hT
  · exact howner T hT
  · rcases List.mem_append.mp hT with hT | hT
    · cases List.mem_singleton.mp hT
    · rcases hlabels _ hT with hlabel | hlabel
      · cases hlabel
      · cases hlabel

/-- **The schema is applied once.** The script is committed at most once over all starts; it is run
only under the lock and where it was not committed, and in at most one open transaction; it is there
for every service process that became ready. And whatever has crashed, a new process can still
become ready. -/
theorem schema_applied_once (h : deployment.Reachable s) :
    s.shared.scripts ≤ 1 ∧
    (∀ p task k, s.phases p = .running task (.ask .executeSchema k) →
      s.shared.holder = some p ∧ s.shared.scripts = 0) ∧
    (∀ p q, s.shared.written p = true → s.shared.written q = true → p = q) ∧
    (∀ p config, s.phases p = .returned (.service config) (.ok ()) → s.shared.scripts = 1) ∧
    ∀ p config, s.phases p = .idle → Startable s (.service config) →
      (config.provisionTopology = false → s.shared.topology.AsSpecified config) →
      ∃ as t, deployment.Run s as t ∧ t.phases p = .returned (.service config) (.ok ()) ∧
        ∀ T, .surroundings (.provision T) ∉ as := by
  obtain ⟨hinv, hparties⟩ := deployment_sound h
  refine ⟨hinv.scripts, fun p task k hphase => ?_, fun p q hp hq => ?_,
    fun p config hphase => schema_scripts h hphase, fun p config hidle hconfig hbroker => ?_⟩
  · have hparty := hparties p
    rw [hphase] at hparty
    exact guarantees.request hparty
  · exact Option.some.inj ((hinv.written p hp).1.symm.trans (hinv.written q hq).1)
  · obtain ⟨as, t, hrun, hready, -, howner⟩ := start_recovers h hidle hconfig hbroker
    exact ⟨as, t, hrun, hready, howner⟩

/-- A new database, and a broker with both consumers. -/
def exampleShared : Shared :=
  { scripts := 0, holder := none, written := fun _ => false, doubt := fun _ => false, past := []
    shown := fun _ => []
    topology :=
      { streams := [], buckets := []
        consumers :=
          [⟨commandStream, captureDurable, captureConfig captureDurable⟩,
            ⟨eventsStream, renderAwaitsDurable,
              { renderAwaitsConfig with
                durableName := some renderAwaitsDurable, deliverPolicy := .new
                ackWait := 30 }⟩] } }

/-- No process was started. -/
def exampleStart : DeploymentState := ⟨exampleShared, fun _ => .idle⟩

theorem exampleStart_init : deployment.init exampleStart :=
  ⟨⟨Nat.zero_le _, rfl, fun _ => rfl, fun _ => rfl, fun _ => rfl, rfl⟩, fun _ => rfl⟩

/-- The first process becomes ready. -/
theorem exampleReady : ∃ as t, deployment.Run exampleStart as t ∧
    t.phases 0 = .returned (.service exampleConfig.bus) (.ok ()) ∧ t.phases 1 = .idle ∧
    ∀ T, .surroundings (.provision T) ∉ as := by
  have hconfig : Startable exampleStart (.service exampleConfig.bus) := ⟨30000, by decide⟩
  have hbroker : exampleStart.shared.topology.AsSpecified exampleConfig.bus :=
    ⟨⟨_, rfl, by decide⟩, _, rfl, by decide⟩
  obtain ⟨as, t, hrun, hready, hothers, howner⟩ :=
    start_recovers (.init exampleStart_init) rfl hconfig fun _ => hbroker
  exact ⟨as, t, hrun, hready, hothers 1 (by decide) (fun _ _ h => nomatch h), howner⟩

/-- The first process has applied it. -/
theorem schema_applied_once_ready : ∃ s, deployment.Reachable s ∧
    s.phases 0 = .returned (.service exampleConfig.bus) (.ok ()) ∧ s.shared.scripts = 1 := by
  obtain ⟨as, t, hrun, hready, -, -⟩ := exampleReady
  have hreachable : deployment.Reachable t := (System.Reachable.init exampleStart_init).run hrun
  exact ⟨t, hreachable, hready, (schema_applied_once hreachable).2.2.2.1 0 _ hready⟩

/-- **The broker belongs to its owner.** A service process that must not provision becomes ready
only where it was configured for the one capture durable, and the broker has shown this process that
durable and the consumer of render events as specified. And as long as the owner does nothing,
whatever is on the broker stays as it is, apart from unused consumers that the server deletes;
processes that must not provision add nothing, and without such deletions leave the broker as a
whole alone; and on a broker without a durable consumer of the events none of them becomes ready,
whatever others provision. -/
theorem topology_owned (hs : deployment.init s) (hrun : deployment.Run s as t) :
    (∀ p config, t.phases p = .returned (.service config) (.ok ()) →
      config.provisionTopology = false → config.durableName = captureDurable ∧
        Shown p captureDurable commandStream (captureMatches captureDurable) t.shared ∧
        Shown p renderAwaitsDurable eventsStream renderAwaitsMatches t.shared) ∧
    ((∀ T, .surroundings (.provision T) ∉ as) →
      s.shared.topology.Kept t.shared.topology ∧
      ((∀ p task, .start p task ∈ as → task.provisions = false) →
        s.shared.topology.Outlived t.shared.topology ∧
        ((∀ c, .surroundings (.expire c) ∉ as) → t.shared.topology = s.shared.topology)) ∧
      (s.shared.topology.AwaitFree → ∀ p config,
        t.phases p = .returned (.service config) (.ok ()) → config.provisionTopology = true)) := by
  have hready : ∀ p config, t.phases p = .returned (.service config) (.ok ()) →
      Ready p (.service config) t.shared := by
    intro p config hphase
    have hparty := (deployment_sound ((System.Reachable.init hs).run hrun)).2 p
    rw [hphase] at hparty
    exact hparty rfl
  refine ⟨fun p config hphase hverified => ?_, fun howner => ⟨(run_unowned hs hrun howner).1,
    fun htasks => ?_, fun hfree p config hphase => ?_⟩⟩
  · obtain ⟨hcapture, hawaits⟩ := (hready p config hphase).2 hverified
    have hname : config.durableName = captureDurable := by
      obtain ⟨stored, -, hmatches, -⟩ := hcapture
      simp only [captureMatches, Bool.and_eq_true, beq_iff_eq] at hmatches
      exact hmatches.1.1.1.1.1
    exact ⟨hname, hname ▸ hcapture, hawaits⟩
  · obtain ⟨houtlived, hsame, -⟩ := run_unprovisioned hs hrun howner htasks
    exact ⟨houtlived, hsame⟩
  · by_contra hverified
    obtain ⟨stored, -, hmatches, T, hT, hstored⟩ :=
      ((hready p config hphase).2 (Bool.eq_false_of_not_eq_true hverified)).2
    rw [((run_unowned hs hrun howner).2 hfree T hT).refuses hstored] at hmatches
    cases hmatches

/-- The settings of a development process. -/
def developmentConfig : BusConfig := { exampleConfig.bus with provisionTopology := true }

/-- A development process becomes ready beside the first process, which the broker has shown its
consumers. -/
theorem topology_owned_ready : ∃ as t, deployment.Run exampleStart as t ∧
    t.phases 0 = .returned (.service exampleConfig.bus) (.ok ()) ∧
    t.phases 1 = .returned (.service developmentConfig) (.ok ()) ∧
    Shown 0 renderAwaitsDurable eventsStream renderAwaitsMatches t.shared ∧
    exampleStart.shared.topology.Kept t.shared.topology := by
  obtain ⟨as, t, hrun, hready, hidle, howner⟩ := exampleReady
  have hconfig : Startable t (.service developmentConfig) := ⟨30000, by decide⟩
  obtain ⟨bs, u, hmore, hdevelopment, hothers, howner'⟩ :=
    start_recovers ((System.Reachable.init exampleStart_init).run hrun) hidle hconfig
      fun hverified => absurd hverified (by decide)
  have hfirst : u.phases 0 = .returned (.service exampleConfig.bus) (.ok ()) :=
    (hothers 0 (by decide) fun task rest => by rw [hready]; exact fun h => nomatch h).trans hready
  have hwhole := hrun.append hmore
  have hunowned : ∀ T, .surroundings (.provision T) ∉ as ++ bs := fun T hT =>
    (List.mem_append.mp hT).elim (howner T) (howner' T)
  obtain ⟨hverified, hkept⟩ := topology_owned exampleStart_init hwhole
  exact ⟨_, u, hwhole, hfirst, hdevelopment, (hverified 0 _ hfirst rfl).2.2, (hkept hunowned).1⟩

end Deployment

end Extractor
