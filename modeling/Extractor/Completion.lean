import Extractor.Capture

/-!
# Terminal runs

`crates/eventing/src/completion.rs` and `terminal.rs`: the transactions that end a run, with
the evidence rows and the outbox facts they commit, and the transaction that records an
additional fetch.

A terminal transaction starts with an update of the run row that matches only a running run.
It takes the row's lock when it matches (`enterRun`); the rest of the transaction follows
under that lock.

## Main definitions

* `failRun`, `completeDocument`, `completeBlobDocument`, `rejectQuality`, `rejectBlobQuality`:
  the five terminal calls, each of them a `TerminalCall`.
* `TerminalCall.precheck`, `enterRun`, `TerminalCall.commit`, `TerminalCall.missed`: the parts
  of a terminal call, in their order.
* `recordFetch`: a fetch row without a terminal transition.
-/

namespace Extractor

/-! ### Arguments -/

/-- `CompletedFetch`. -/
structure CompletedFetch where
  finalUrl : String
  httpStatus : ℕ
  mediaType : String
  wireBytes : ℕ
  decodedBytes : ℕ
  attempts : ℕ
  cacheOutcome : String
  etag : Option String
  lastModified : Option String
  rawBlob : BlobRef
  deriving DecidableEq

/-- `ResolutionStep`. -/
structure ResolutionStep where
  ordinal : ℕ
  kind : String
  outcome : Option String
  failureClass : Option String
  resolvedUrl : Option String
  deriving DecidableEq

/-- `Completion`. -/
inductive Completion
  | applied
  | duplicate
  deriving DecidableEq

/-- `Success`: everything a successful terminal transition commits. -/
structure Success where
  document : Document
  irBlob : BlobRef
  rawBlob : BlobRef
  fetch : Option CompletedFetch
  candidates : List CandidateDecision
  steps : List ResolutionStep
  deriving DecidableEq

/-- `Rejection`: everything a quality-rejected terminal transition commits. -/
structure Rejection where
  rawBlob : BlobRef
  fetch : Option CompletedFetch
  candidates : List CandidateDecision
  failureClass : String
  steps : List ResolutionStep
  deriving DecidableEq

/-! ### Evidence rows -/

/-- `require_owned_sha256`. -/
def ownedSha256 (blob : BlobRef) : Bool :=
  blob.ownerService == producer && blob.digest.algorithm == .sha256

/-- `validate_candidates`. -/
def validCandidates (candidates : List CandidateDecision) (selected : ℕ) : Bool :=
  !candidates.isEmpty && candidates.countP CandidateDecision.selected == selected

/-- The row of a fetch. -/
def CompletedFetch.row (fetch : CompletedFetch) (runId : Uuid) (now : Timestamp) : FetchRow where
  runId := runId
  finalUrl := fetch.finalUrl
  httpStatus := fetch.httpStatus
  mediaType := fetch.mediaType
  wireBytes := fetch.wireBytes
  decodedBytes := fetch.decodedBytes
  attempts := fetch.attempts
  cacheOutcome := fetch.cacheOutcome
  etag := fetch.etag
  lastModified := fetch.lastModified
  fetchedAt := now

/-- The run an evidence row refers to exists. -/
def runExists (runId : Uuid) (db : Db) : Bool :=
  db.runs.any fun r => r.runId == runId

/-- `insert_fetch`. -/
def insertFetch (now : Timestamp) (runId : Uuid) (fetch : CompletedFetch) : Tx Unit := do
  require (fetch.wireBytes < 2 ^ 63 ∧ fetch.decodedBytes < 2 ^ 63 ∧ fetch.attempts < 2 ^ 31)
    ConsumeError.invalidArtifact
  let known ← Tx.read (runExists runId)
  require ((fetch.row runId now).checked ∧ known) ConsumeError.database
  Tx.write fun db => { db with fetches := db.fetches ++ [fetch.row runId now] }

/-- The row of an artifact. -/
def artifactRow (runId : Uuid) (kind : String) (reference : BlobRef) (now : Timestamp) :
    ArtifactRow where
  runId := runId
  kind := kind
  ownerService := producer
  digestHex := reference.digest.hex
  mediaType := reference.mediaType
  lengthBytes := reference.lengthBytes
  createdAt := now

/-- `insert_artifact`. -/
def insertArtifact (now : Timestamp) (runId : Uuid) (kind : String) (reference : BlobRef) :
    Tx Unit := do
  let known ← Tx.read (runExists runId)
  require ((artifactRow runId kind reference now).checked ∧ known) ConsumeError.database
  Tx.write fun db =>
    { db with artifacts := db.artifacts ++ [artifactRow runId kind reference now] }

/-- The row of a candidate. -/
def CandidateDecision.row (candidate : CandidateDecision) (runId : Uuid) (now : Timestamp) :
    CandidateRow where
  runId := runId
  strategy := candidate.strategy
  extractorVersion := candidate.evaluatorVersion
  metrics := candidate.metrics
  accepted := candidate.accepted
  score := candidate.score
  reasons := candidate.reasons
  selected := candidate.selected
  createdAt := now

/-- The unique keys of `extractor.candidates`: strategy and version within a run, and one
selected candidate per run. -/
def candidateConflicts (a b : CandidateRow) : Bool :=
  a.runId == b.runId &&
    ((a.strategy == b.strategy && a.extractorVersion == b.extractorVersion) ||
      (a.selected && b.selected))

/-- One insert of `insert_candidates`. -/
def insertCandidate (now : Timestamp) (runId : Uuid) (candidate : CandidateDecision) :
    Tx Unit := do
  let known ← Tx.read (runExists runId)
  let conflict ← Tx.read fun db => db.candidates.any (candidateConflicts (candidate.row runId now))
  require ((candidate.row runId now).checked ∧ known ∧ conflict = false) ConsumeError.database
  Tx.write fun db => { db with candidates := db.candidates ++ [candidate.row runId now] }

/-- `insert_candidates`. -/
def insertCandidates (now : Timestamp) (runId : Uuid) : List CandidateDecision → Tx Unit
  | [] => pure ()
  | candidate :: rest => do
      insertCandidate now runId candidate
      insertCandidates now runId rest

/-- The row of a resolution step. -/
def ResolutionStep.row (step : ResolutionStep) (runId : Uuid) (now : Timestamp) :
    ResolutionRow where
  runId := runId
  ordinal := step.ordinal
  kind := step.kind
  outcome := step.outcome
  failureClass := step.failureClass
  resolvedUrl := step.resolvedUrl
  createdAt := now

/-- One insert of `insert_resolution_steps`. -/
def insertResolutionStep (now : Timestamp) (runId : Uuid) (step : ResolutionStep) : Tx Unit := do
  let known ← Tx.read (runExists runId)
  require ((step.row runId now).checked ∧ known) ConsumeError.database
  Tx.write fun db => { db with resolutions := db.resolutions ++ [step.row runId now] }

/-- `insert_resolution_steps`. -/
def insertResolutionSteps (now : Timestamp) (runId : Uuid) : List ResolutionStep → Tx Unit
  | [] => pure ()
  | step :: rest => do
      insertResolutionStep now runId step
      insertResolutionSteps now runId rest

/-- A fetch row, where there was a fetch. -/
def insertFetchIfAny (now : Timestamp) (runId : Uuid) : Option CompletedFetch → Tx Unit
  | none => pure ()
  | some fetch => insertFetch now runId fetch

/-! ### Outbox facts -/

/-- `public_failure`: the public code and message of a failure class. -/
def publicFailure (failureClass : String) : String × String :=
  if failureClass = "pdf_no_text_layer" then
    ("content.extraction.no_text_layer",
      "The PDF has no text layer; scanned or image-only PDFs are not supported yet.")
  else if failureClass = "pdf_encrypted" then
    ("content.extraction.encrypted", "The PDF is encrypted.")
  else if failureClass = "unsupported_media" then
    ("content.extraction.unsupported_media", "This file type cannot be extracted.")
  else if failureClass ∈ ["blob_owner", "blob_missing", "blob_unreadable", "blob_mismatch"] then
    ("content.extraction.source_unavailable", "The uploaded file could not be read.")
  else ("content.extraction.failed", "The document could not be extracted.")

/-- The envelope of an event of this operation. -/
def CompletionContext.envelope (context : CompletionContext) (eventId : Uuid) (now : Timestamp)
    (aggregateId : EntityRef) (payload : EventPayload) : EventEnvelope where
  eventId := eventId
  occurredAt := now
  aggregateId := aggregateId
  correlationId := .text context.correlation
  causationId := .command context.command
  tenantId := context.owner
  payload := payload

/-- The report of a failed operation. -/
def failedReport (context : CompletionContext) (failureClass : String) (retryable : Bool) :
    OperationReported :=
  plainReport context.operation .failed (some
    { code := (publicFailure failureClass).1
      message := (publicFailure failureClass).2
      retryable := retryable
      correlationId := some (.text context.correlation) })

/-- `enqueue_failed_report`. -/
def enqueueFailedReport (contracts : Contracts) (now : Timestamp) (context : CompletionContext)
    (failureClass : String) (retryable : Bool) : Tx Unit := do
  require (contracts.entityRefIsValid context.correlation) ConsumeError.identity
  let eventId ← Tx.freshUuid
  let report := EventPayload.operationReported (failedReport context failureClass retryable)
  require (contracts.payloadIsValid report) ConsumeError.envelope
  enqueueJson now context reportSubject
    (context.envelope eventId now (.operation context.operation) report)

/-- `NOT_INGESTED_CODE` and `NOT_INGESTED_MESSAGE`. -/
def notIngested : WarningEnvelope where
  code := "content.document.not_ingested"
  message := "The document was extracted, but it is too large to add to the library."

/-- The report of a completed operation. -/
def completedReport (context : CompletionContext) (document : Document) (irBlob : BlobRef)
    (ingested : Bool) : OperationReported where
  operationId := context.operation
  status := if ingested then .succeeded else .partiallySucceeded
  results := [⟨"content.document", .document document.documentId, some irBlob⟩]
  error := none
  warnings := if ingested then [] else [notIngested]

/-- The document event of a completion. -/
def documentEvent (context : CompletionContext) (document : Document) (irBlob : BlobRef)
    (eventId : Uuid) (now : Timestamp) : EventEnvelope :=
  context.envelope eventId now (.document document.documentId)
    (.documentExtracted ⟨document, irBlob⟩)

/-- The document fact, where it fits. -/
def enqueueDocument (contracts : Contracts) (now : Timestamp) (context : CompletionContext)
    (event : EventEnvelope) (maxEventBytes : ℕ) : Tx Bool :=
  if contracts.serializedBytes event ≤ maxEventBytes then do
    enqueueJson now context documentSubject event
    return true
  else return false

/-- `enqueue_completion_events`: whether the document fact was enqueued. -/
def enqueueCompletionEvents (contracts : Contracts) (now : Timestamp)
    (context : CompletionContext) (document : Document) (irBlob : BlobRef) (maxEventBytes : ℕ) :
    Tx Bool := do
  require (contracts.entityRefIsValid context.correlation) ConsumeError.identity
  require (contracts.factIsValid ⟨document, irBlob⟩) ConsumeError.invalidArtifact
  let documentEventId ← Tx.freshUuid
  let event := documentEvent context document irBlob documentEventId now
  require (contracts.payloadIsValid event.payload) ConsumeError.envelope
  let ingested ← enqueueDocument contracts now context event maxEventBytes
  let eventId ← Tx.freshUuid
  let report := completedReport context document irBlob ingested
  require (contracts.reportIsValid report) ConsumeError.invalidPayload
  require (contracts.payloadIsValid (.operationReported report)) ConsumeError.envelope
  enqueueJson now context reportSubject
    (context.envelope eventId now (.operation context.operation) (.operationReported report))
  return ingested

/-! ### The terminal transition -/

/-- The column change of a failing or rejecting update. -/
def RunRow.fail (now : Timestamp) (failureClass : String) (r : RunRow) : RunRow :=
  { r with
    status := .failed, completedAt := some now, lastErrorClass := some failureClass
    claimedUntil := none, claimedBy := none }

/-- The column change of a completing update. -/
def RunRow.succeed (now : Timestamp) (r : RunRow) : RunRow :=
  { r with
    status := .succeeded, completedAt := some now, claimedUntil := none, claimedBy := none }

/-- The columns that the update returns. -/
def RunRow.context (r : RunRow) : CompletionContext :=
  ⟨r.commandId, r.operationId, r.ownerId, r.correlationId⟩

/-- `where run_id = $1 and status = 'running'`. -/
def RunRow.isRunning (runId : Uuid) (r : RunRow) : Bool :=
  r.runId == runId && r.status == .running

/-- The row that the first update of a terminal call matches. -/
def enterRun (runId : Uuid) (db : Db) : Option RunRow :=
  db.runs.find? (RunRow.isRunning runId)

/-- The update of the run row; a text the database cannot store fails it. -/
def updateRun (runId : Uuid) (change : RunRow → RunRow) (run : RunRow) : Tx Unit := do
  require (change run).checked ConsumeError.database
  Tx.write fun db =>
    { db with runs := Rows.updateWhere (RunRow.isRunning runId) change db.runs }

/-- The five terminal calls. -/
inductive TerminalCall
  | failRun (runId : Uuid) (failureClass : String) (retryable : Bool)
      (steps : List ResolutionStep)
  | complete (run : QueuedRun) (success : Success)
  | reject (runId : Uuid) (rejection : Rejection)
  deriving DecidableEq

namespace TerminalCall

/-- `fail_run`, `complete` and `reject` name the run they end. -/
def runId : TerminalCall → Uuid
  | .failRun runId _ _ _ => runId
  | .complete run _ => run.runId
  | .reject runId _ => runId

/-- The checks before the transaction begins. -/
def precheck : TerminalCall → Except ConsumeError Unit
  | .failRun _ failureClass _ _ =>
      require (failureClass ≠ "" ∧ failureClass.utf8ByteSize ≤ 64) ConsumeError.invalidRunState
  | .complete _ success => do
      require (ownedSha256 success.irBlob) ConsumeError.invalidArtifact
      require (ownedSha256 success.rawBlob) ConsumeError.invalidArtifact
      require (success.irBlob.lengthBytes < 2 ^ 63) ConsumeError.invalidArtifact
      require (success.rawBlob.lengthBytes < 2 ^ 63) ConsumeError.invalidArtifact
      require (validCandidates success.candidates 1) ConsumeError.invalidRunState
  | .reject _ rejection => do
      require (rejection.failureClass ≠ "" ∧ rejection.failureClass.utf8ByteSize ≤ 64)
        ConsumeError.invalidRunState
      require (ownedSha256 rejection.rawBlob) ConsumeError.invalidArtifact
      require (validCandidates rejection.candidates 0) ConsumeError.invalidRunState
      require (rejection.rawBlob.lengthBytes < 2 ^ 63) ConsumeError.invalidArtifact

/-- The column change of the call's first update. -/
def change (now : Timestamp) : TerminalCall → RunRow → RunRow
  | .failRun _ failureClass _ _ => RunRow.fail now failureClass
  | .complete _ _ => RunRow.succeed now
  | .reject _ rejection => RunRow.fail now rejection.failureClass

/-- What follows the update of a running run, up to the commit. -/
def evidence (contracts : Contracts) (now : Timestamp) (context : CompletionContext) :
    TerminalCall → Tx Unit
  | .failRun runId failureClass retryable steps => do
      insertResolutionSteps now runId steps
      enqueueFailedReport contracts now context failureClass retryable
  | .complete run success => do
      insertFetchIfAny now run.runId success.fetch
      insertArtifact now run.runId "raw_source" success.rawBlob
      insertArtifact now run.runId "document_ir" success.irBlob
      insertCandidates now run.runId success.candidates
      insertResolutionSteps now run.runId success.steps
      let _ ← enqueueCompletionEvents contracts now context success.document success.irBlob
        run.maxEventBytes
  | .reject runId rejection => do
      insertFetchIfAny now runId rejection.fetch
      insertArtifact now runId "raw_source" rejection.rawBlob
      insertCandidates now runId rejection.candidates
      insertResolutionSteps now runId rejection.steps
      enqueueFailedReport contracts now context rejection.failureClass false

/-- The transaction once its first update matched `run`. -/
def commit (contracts : Contracts) (now : Timestamp) (call : TerminalCall) (run : RunRow) :
    Tx Unit := do
  updateRun call.runId (call.change now) run
  call.evidence contracts now run.context

/-- What the call returns when its first update matched no row: `complete` reads the status
once more, the others do not. -/
def missed (db : Db) : TerminalCall → Except ConsumeError Completion
  | .complete run _ =>
      match (db.runs.find? fun r => r.runId == run.runId).map RunRow.status with
      | some .succeeded => .ok .duplicate
      | _ => .error .invalidRunState
  | _ => .ok .duplicate

/-- The transaction of a terminal call. -/
def transaction (contracts : Contracts) (now : Timestamp) (call : TerminalCall) :
    Tx Completion := do
  let running ← Tx.read (enterRun call.runId)
  match running with
  | some run => do
      call.commit contracts now run
      return .applied
  | none => do
      let result ← Tx.read fun db => call.missed db
      match result with
      | .ok completion => return completion
      | .error e => throw e

/-- A terminal call against the pool. -/
def perform (contracts : Contracts) (now : Timestamp) (call : TerminalCall) (db : Db) :
    Except ConsumeError Completion × Db :=
  match call.precheck with
  | .ok () => transact (call.transaction contracts now) db
  | .error e => (.error e, db)

end TerminalCall

section Calls

variable (contracts : Contracts) (now : Timestamp)

/-- `fail_run`. -/
def failRun (runId : Uuid) (failureClass : String) (retryable : Bool)
    (steps : List ResolutionStep) (db : Db) : Except ConsumeError Completion × Db :=
  (TerminalCall.failRun runId failureClass retryable steps).perform contracts now db

/-- `complete_document`. -/
def completeDocument (run : QueuedRun) (document : Document) (irBlob : BlobRef)
    (fetch : CompletedFetch) (candidates : List CandidateDecision) (steps : List ResolutionStep)
    (db : Db) : Except ConsumeError Completion × Db :=
  (TerminalCall.complete run
    ⟨document, irBlob, fetch.rawBlob, some fetch, candidates, steps⟩).perform contracts now db

/-- `complete_blob_document`. -/
def completeBlobDocument (run : QueuedRun) (document : Document) (irBlob rawBlob : BlobRef)
    (candidates : List CandidateDecision) (steps : List ResolutionStep) (db : Db) :
    Except ConsumeError Completion × Db :=
  (TerminalCall.complete run
    ⟨document, irBlob, rawBlob, none, candidates, steps⟩).perform contracts now db

/-- `reject_quality`. -/
def rejectQuality (runId : Uuid) (fetch : CompletedFetch) (candidates : List CandidateDecision)
    (failureClass : String) (steps : List ResolutionStep) (db : Db) :
    Except ConsumeError Completion × Db :=
  (TerminalCall.reject runId
    ⟨fetch.rawBlob, some fetch, candidates, failureClass, steps⟩).perform contracts now db

/-- `reject_blob_quality`. -/
def rejectBlobQuality (runId : Uuid) (rawBlob : BlobRef) (candidates : List CandidateDecision)
    (failureClass : String) (steps : List ResolutionStep) (db : Db) :
    Except ConsumeError Completion × Db :=
  (TerminalCall.reject runId
    ⟨rawBlob, none, candidates, failureClass, steps⟩).perform contracts now db

/-- The transaction of `record_fetch`. -/
def recordFetchTx (runId : Uuid) (fetch : CompletedFetch) : Tx Unit := do
  insertFetch now runId fetch
  insertArtifact now runId "raw_source" fetch.rawBlob

/-- `record_fetch`. -/
def recordFetch (runId : Uuid) (fetch : CompletedFetch) (db : Db) :
    Except ConsumeError Unit × Db :=
  if ownedSha256 fetch.rawBlob ∧ fetch.rawBlob.lengthBytes < 2 ^ 63 then
    transact (recordFetchTx now runId fetch) db
  else (.error .invalidArtifact, db)

end Calls

end Extractor
