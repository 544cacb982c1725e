import Extractor.Schema

/-!
# Capture-command intake

`crates/eventing/src/capture.rs`: decoding a capture command, the intake transaction that
records it with its run and its queued report, and the statement that leases a run to a
worker.

The JSON decoding of the command envelope is outside the repository; `CommandLib` gives what
it yields. The leasing statement skips the rows that other transactions have `locked`.

## Main definitions

* `decodeCapture`, `consumeCapture`: intake.
* `claimNext`, `claimQueuedRun`: leasing.
-/

namespace Extractor

/-! ### Commands -/

/-- `CAPTURE_SUBJECT`. -/
def captureSubject : String := "cmd.content.capture.requested.v1"

/-- `CAPTURE_COMMAND_TYPE`. -/
def captureCommandType : String := "content.capture.requested.v1"

/-- `ALLOWED_PRODUCERS`. -/
def allowedProducers : List String := ["ratatoskr-platform", "ratatoskr-x"]

/-- `ContentCaptureRequested`. -/
structure ContentCaptureRequested where
  operationId : Uuid
  url : Option String
  blob : Option BlobRef
  idempotencyKey : String

/-- `CommandEnvelope`; `request` is what `payload_as` decodes, if it is valid. -/
structure CommandEnvelope where
  commandId : Uuid
  commandType : String
  producer : String
  tenantId : Option Uuid
  aggregateId : EntityRef
  correlationId : String
  issuedAt : Timestamp
  request : Option ContentCaptureRequested

/-- The decoding of command envelopes. -/
structure CommandLib where
  /-- `CommandEnvelope::from_json`. -/
  fromJson : List UInt8 → Option CommandEnvelope

/-- `CaptureSource`. -/
inductive CaptureSource
  | url (url : Url)
  | blob (blob : BlobRef)

/-- `CaptureCommand`. -/
structure CaptureCommand where
  commandId : Uuid
  operationId : Uuid
  producer : String
  tenantId : Uuid
  correlationId : String
  idempotencyKey : String
  requestedAt : Timestamp
  source : CaptureSource

/-- The source a request names: an address or a stored blob, and not both. -/
def captureSource (lib : UrlLib) (request : ContentCaptureRequested) :
    Except ConsumeError CaptureSource :=
  match request.url, request.blob with
  | some address, none => do
      let url ← okOr (lib.parse address) ConsumeError.invalidUrlScheme
      require (url.scheme = "http" ∨ url.scheme = "https") ConsumeError.invalidUrlScheme
      return .url url
  | none, some blob => do
      require (blob.digest.algorithm = .sha256) ConsumeError.invalidArtifact
      return .blob blob
  | _, _ => .error .invalidPayload

/-- `decode_capture`. -/
def decodeCapture (lib : UrlLib) (commands : CommandLib) (subject : String)
    (payload : List UInt8) : Except ConsumeError CaptureCommand := do
  require (subject = captureSubject) ConsumeError.invalidSubject
  let envelope ← okOr (commands.fromJson payload) ConsumeError.commandEnvelope
  require (envelope.commandType = captureCommandType) ConsumeError.invalidCommandType
  require (envelope.producer ∈ allowedProducers) ConsumeError.foreignProducer
  let tenantId ← okOr envelope.tenantId ConsumeError.missingTenant
  let request ← okOr envelope.request ConsumeError.commandEnvelope
  require (envelope.aggregateId = .operation request.operationId) ConsumeError.aggregateMismatch
  let source ← captureSource lib request
  return {
    commandId := envelope.commandId
    operationId := request.operationId
    producer := envelope.producer
    tenantId := tenantId
    correlationId := envelope.correlationId
    idempotencyKey := request.idempotencyKey
    requestedAt := envelope.issuedAt
    source := source }

/-! ### Statements shared by the transactions -/

/-- The context of the operation that an event belongs to, `CompletionContext`. -/
structure CompletionContext where
  command : Uuid
  operation : Uuid
  owner : Uuid
  correlation : String
  deriving DecidableEq

/-- `enqueue_json`: one outbox row for an envelope. -/
def enqueueJson (now : Timestamp) (context : CompletionContext) (subject : String)
    (envelope : EventEnvelope) : Tx Unit := do
  let outboxId ← Tx.freshUuid
  let row := OutboxRow.enqueued outboxId envelope.eventId context.command context.operation
    subject envelope now
  require (envelope.texts.all storable ∧ row.checked) ConsumeError.database
  let rows ← Tx.read fun db => insertOutbox row db.outbox
  let rows ← okOr rows ConsumeError.database
  Tx.write fun db => { db with outbox := rows }

/-! ### Intake -/

/-- `Reception`. -/
inductive Reception
  | applied
  | duplicate
  deriving DecidableEq

/-- `BlobClaim`. -/
structure BlobClaim where
  owner : String
  mediaType : String
  lengthBytes : ℕ

/-- `IntakeSource`. -/
structure IntakeSource where
  sourceId : Uuid
  claim : Option BlobClaim
  policyVersion : String
  normalizerVersion : String
  parserVersion : String

/-- `route_name`. -/
def routeName : SourceRoute → String
  | .gitHub => "github"
  | .x => "x"
  | .instagram => "instagram"
  | .threads => "threads"
  | .reddit => "reddit"
  | .hackerNews => "hacker_news"
  | .youTube => "youtube"
  | .pdf => "pdf"
  | .genericWeb => "generic_web"

/-- `parser_version`. -/
def parserVersion : SourceRoute → String
  | .pdf => "pdf-v1"
  | .youTube => "youtube-v1"
  | .hackerNews | .reddit => "providers-v1"
  | _ => "html-v1"

/-- `routing_policy`. -/
def intakePolicy : RoutingPolicy where
  maxUrlLength := 8192
  allowedPorts := [80, 443]

/-- The insert into `extractor.inbox_events`: whether the command is new. -/
def insertInbox (now : Timestamp) (command : CaptureCommand) : Tx Bool := do
  let known ← Tx.read fun db => db.inbox.any fun r => r.commandId == command.commandId
  if known then return false
  else
    let row : InboxRow :=
      { commandId := command.commandId, producer := command.producer, receivedAt := now
        appliedAt := none, outcome := none }
    require row.checked ConsumeError.database
    Tx.write fun db => { db with inbox := db.inbox ++ [row] }
    return true

/-- The upsert into `extractor.sources`: the identifier of the row of this owner and address. Only
a new row needs a new entry in the index of `unique (owner_id, normalized_url)`. -/
def upsertSource (lib : UrlLib) (row : SourceRow) : Tx Uuid := do
  require row.checked ConsumeError.database
  let known ← Tx.read fun db => db.sources.find? fun r =>
    r.ownerId == row.ownerId && r.normalizedUrl == row.normalizedUrl
  match known with
  | some existing =>
      Tx.write fun db =>
        { db with
          sources := Rows.updateWhere (fun r => r.sourceId == existing.sourceId)
            (fun r => { r with canonicalUrl := row.canonicalUrl }) db.sources }
      return existing.sourceId
  | none =>
      require (lib.indexFits row.normalizedUrl) ConsumeError.database
      Tx.write fun db => { db with sources := db.sources ++ [row] }
      return row.sourceId

/-- `url_source`. -/
def urlSource (lib : UrlLib) (now : Timestamp) (command : CaptureCommand) (url : Url) :
    Tx IntakeSource := do
  let normalized ← match normalize lib (lib.asStr url) intakePolicy with
    | .ok normalized => pure normalized
    | .error e => throw (ConsumeError.url e)
  let host ← okOr (normalized.normalized.hostStr lib) ConsumeError.invalidUrlScheme
  let route := classify lib normalized
  let fresh ← Tx.freshUuid
  let normalizedUrl := lib.asStr normalized.normalized
  let sourceId ← upsertSource lib
    { sourceId := fresh, ownerId := command.tenantId, originalUrl := normalized.original
      normalizedUrl := normalizedUrl, canonicalUrl := normalizedUrl, host := host
      classification := routeName route, createdAt := now, sourceKind := .url
      blobDigestHex := none }
  return {
    sourceId := sourceId
    claim := none
    policyVersion := "ssrf-v1"
    normalizerVersion := "url-v1"
    parserVersion := parserVersion route }

/-- `blob_source`. -/
def blobSource (lib : UrlLib) (now : Timestamp) (command : CaptureCommand) (blob : BlobRef) :
    Tx IntakeSource := do
  require (blob.lengthBytes < 2 ^ 63) ConsumeError.invalidArtifact
  let address := "urn:ratatoskr:blob:sha256:" ++ blob.digest.hex
  let fresh ← Tx.freshUuid
  let sourceId ← upsertSource lib
    { sourceId := fresh, ownerId := command.tenantId, originalUrl := address
      normalizedUrl := address, canonicalUrl := address, host := "ratatoskr-telegram"
      classification := "blob", createdAt := now, sourceKind := .blob
      blobDigestHex := some blob.digest.hex }
  return {
    sourceId := sourceId
    claim := some ⟨blob.ownerService, blob.mediaType, blob.lengthBytes⟩
    policyVersion := "peer-blob-v1"
    normalizerVersion := "blob-v1"
    parserVersion := "pdf-v1" }

/-- A run as intake queues it. -/
def queuedRow (runId : Uuid) (command : CaptureCommand) (source : IntakeSource)
    (now : Timestamp) : RunRow where
  runId := runId
  commandId := command.commandId
  operationId := command.operationId
  ownerId := command.tenantId
  correlationId := command.correlationId
  sourceId := source.sourceId
  status := .queued
  policyVersion := source.policyVersion
  normalizerVersion := source.normalizerVersion
  parserVersion := source.parserVersion
  queuedAt := now
  startedAt := none
  completedAt := none
  lastErrorClass := none
  claimedUntil := none
  claimedBy := none
  blobOwner := source.claim.map BlobClaim.owner
  blobMediaType := source.claim.map BlobClaim.mediaType
  blobLengthBytes := source.claim.map BlobClaim.lengthBytes

/-- The insert into `extractor.extraction_runs`: a command has one run at most. -/
def insertRun (row : RunRow) : Tx Unit := do
  require row.checked ConsumeError.database
  let known ← Tx.read fun db => db.runs.any fun r => r.commandId == row.commandId
  require (known = false) ConsumeError.database
  Tx.write fun db => { db with runs := db.runs ++ [row] }

/-- The source row of a command. -/
def intakeSource (lib : UrlLib) (now : Timestamp) (command : CaptureCommand) :
    Tx IntakeSource :=
  match command.source with
  | .url url => urlSource lib now command url
  | .blob blob => blobSource lib now command blob

/-- `queue_run`. -/
def queueRun (lib : UrlLib) (now : Timestamp) (command : CaptureCommand) : Tx Unit := do
  let source ← intakeSource lib now command
  let runId ← Tx.freshUuid
  insertRun (queuedRow runId command source now)

/-- A report of an operation without results. -/
def plainReport (operationId : Uuid) (status : OperationStatus) (error : Option ErrorEnvelope) :
    OperationReported where
  operationId := operationId
  status := status
  results := []
  error := error
  warnings := []

/-- `enqueue_queued_report`. -/
def enqueueQueuedReport (contracts : Contracts) (now : Timestamp) (command : CaptureCommand) :
    Tx Unit := do
  let eventId ← Tx.freshUuid
  let report := EventPayload.operationReported (plainReport command.operationId .queued none)
  require (contracts.payloadIsValid report) ConsumeError.envelope
  enqueueJson now ⟨command.commandId, command.operationId, command.tenantId, command.correlationId⟩
    reportSubject
    { eventId := eventId
      occurredAt := now
      aggregateId := .operation command.operationId
      correlationId := .text command.correlationId
      causationId := .command command.commandId
      tenantId := command.tenantId
      payload := report }

/-- The last statement of intake: the command is applied. -/
def markApplied (now : Timestamp) (command : CaptureCommand) : Tx Unit :=
  Tx.write fun db =>
    { db with
      inbox := Rows.updateWhere (fun r => r.commandId == command.commandId)
        (fun r => { r with appliedAt := some now, outcome := some .applied }) db.inbox }

/-- What intake does with a new command. -/
def applyCapture (lib : UrlLib) (contracts : Contracts) (now : Timestamp)
    (command : CaptureCommand) : Tx Unit := do
  queueRun lib now command
  enqueueQueuedReport contracts now command
  markApplied now command

/-- The transaction of `consume_capture`. -/
def consumeCommand (lib : UrlLib) (contracts : Contracts) (now : Timestamp)
    (command : CaptureCommand) : Tx Reception := do
  let inserted ← insertInbox now command
  if inserted then
    applyCapture lib contracts now command
    return .applied
  else return .duplicate

/-- `consume_capture`. -/
def consumeCapture (lib : UrlLib) (commands : CommandLib) (contracts : Contracts)
    (now : Timestamp) (subject : String) (payload : List UInt8) (db : Db) :
    Except ConsumeError Reception × Db :=
  match decodeCapture lib commands subject payload with
  | .ok command => transact (consumeCommand lib contracts now command) db
  | .error e => (.error e, db)

/-! ### Leasing -/

/-- `QueuedRun`. -/
structure QueuedRun where
  runId : Uuid
  owner : Uuid
  url : String
  classification : String
  blob : Option BlobRef
  maxEventBytes : ℕ
  deriving DecidableEq

/-- The predicate of the leasing statement. -/
def RunRow.claimable (now : Timestamp) (r : RunRow) : Bool :=
  r.status == .queued ||
    (r.status == .running && r.claimedUntil.all fun u => decide (u ≤ now))

/-- `lease_seconds.clamp(1, 3_600)`. -/
def clampLease (leaseSeconds : ℤ) : ℕ := (max 1 (min leaseSeconds 3600)).toNat

/-- The column change of the leasing statement. -/
def RunRow.claim (now : Timestamp) (claimedBy : String) (leaseSeconds : ℤ) (r : RunRow) :
    RunRow :=
  { r with
    status := .running, startedAt := some (r.startedAt.getD now), claimedBy := some claimedBy
    claimedUntil := some (now + seconds (clampLease leaseSeconds)) }

/-- `order by r.queued_at`. -/
def RunRow.queuedBefore (a b : RunRow) : Prop := a.queuedAt ≤ b.queuedAt

instance : DecidableRel RunRow.queuedBefore := fun a b => by
  unfold RunRow.queuedBefore; infer_instance

/-- The first claimable run that no other transaction has locked, with its source. -/
def nextRun (now : Timestamp) (locked : List Uuid) (db : Db) : Option (RunRow × SourceRow) :=
  let free := db.runs.filter fun r => r.claimable now && !locked.contains r.runId
  (free.insertionSort RunRow.queuedBefore).findSome? fun r =>
    (db.sources.find? fun s => s.sourceId == r.sourceId).map fun s => (r, s)

/-- The leasing statement: the run and its source, as they were joined. -/
def claimNext (now : Timestamp) (claimedBy : String) (leaseSeconds : ℤ) (locked : List Uuid) :
    Tx (Option (RunRow × SourceRow)) := do
  let next ← Tx.read (nextRun now locked)
  match next with
  | none => return none
  | some (run, source) =>
      require (run.claim now claimedBy leaseSeconds).checked ConsumeError.database
      Tx.write fun db =>
        { db with
          runs := Rows.updateWhere (fun r => r.runId == run.runId)
            (RunRow.claim now claimedBy leaseSeconds) db.runs }
      return some (run, source)

/-- The parsers of the stored blob columns. -/
structure BlobColumns where
  /-- `BlobOwner::parse`. -/
  ownerIsValid : String → Bool
  /-- `DigestHex::parse`. -/
  hexIsValid : String → Bool
  /-- `MediaType::parse`. -/
  mediaTypeIsValid : String → Bool

/-- `queued_run`: decodes a leased row. -/
def decodeQueuedRun (columns : BlobColumns) (maxEventBytes : ℕ) (run : RunRow)
    (source : SourceRow) : Except ConsumeError QueuedRun := do
  let blob ← match run.blobOwner, source.blobDigestHex, run.blobMediaType, run.blobLengthBytes with
    | some owner, some digest, some mediaType, some length => do
        require (columns.ownerIsValid owner) ConsumeError.invalidArtifact
        require (columns.hexIsValid digest) ConsumeError.invalidArtifact
        require (columns.mediaTypeIsValid mediaType) ConsumeError.invalidArtifact
        pure (some ⟨owner, ⟨.sha256, digest⟩, mediaType, length⟩)
    | _, _, _, _ => pure none
  return {
    runId := run.runId
    owner := run.ownerId
    url := source.normalizedUrl
    classification := source.classification
    blob := blob
    maxEventBytes := maxEventBytes }

/-- `claim_queued_run`: the lease is committed before the row is decoded. -/
def claimQueuedRun (columns : BlobColumns) (now : Timestamp) (claimedBy : String)
    (leaseSeconds : ℤ) (maxEventBytes : ℕ) (locked : List Uuid) (db : Db) :
    Except ConsumeError (Option QueuedRun) × Db :=
  match transact (claimNext now claimedBy leaseSeconds locked) db with
  | (.ok none, db') => (.ok none, db')
  | (.ok (some (run, source)), db') =>
      ((decodeQueuedRun columns maxEventBytes run source).map some, db')
  | (.error e, db') => (.error e, db')

end Extractor
