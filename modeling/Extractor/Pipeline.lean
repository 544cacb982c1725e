import Extractor.Completion
import Extractor.Providers
import Extractor.RenderRequest
import Extractor.SafeFetch

/-!
# The extraction pipeline

`process_run` of `services/extractor/src/pipeline.rs`, with the flows it fans out into:
`complete_html` and the browser escalation, `complete_pdf` and `complete_blob_pdf` of
`pdf_run.rs`, `complete_provider` with the continuations of `provider_continuation.rs`, and
`complete_youtube_flow` of `youtube_pipeline.rs`.

A run of the pipeline is a program over requests: retrievals, the blob stores, the database, the
render worker and the contract crate's `DocumentAddress::parse`. The conversions of fetched bytes
(HTML, PDF, player responses, timed text, transcripts) are pure functions on top of parsers from
outside the repository; what they return is collected in the parameter `PipelineLib`, and a
conversion that panics in its blocking task is not modelled.

## Main definitions

* `RunOp`: the requests of a run and their answers.
* `Escalation.decide`: the escalation policy.
* `processRun`: one claimed run, from its route to its terminal commit.
-/

namespace Extractor

/-! ### Errors -/

/-- `BlobStoreError`. -/
inductive BlobStoreError
  | unavailable
  | io
  | stream
  | lengthOverflow
  | invalidMediaType
  | invalidIdentity
  | collision
  | missing
  | mismatch
  | wrongOwner
  | unsupportedAlgorithm
  deriving DecidableEq

/-- `ProcessError`, the variants that a run can return. -/
inductive ProcessError
  | blob (error : BlobStoreError)
  | io
  | database
  | eventing (error : ConsumeError)
  | documentIdentity
  | provider (error : ProviderError)
  deriving DecidableEq

/-- `PdfError`. -/
inductive PdfError
  | resourceLimit
  | encrypted
  | malformed
  | noTextLayer (candidates : List CandidateDecision)
  | invalidIdentity
  | serialization

/-- `YoutubeError`. -/
inductive YoutubeError
  | resourceLimit
  | schema
  | noTranscript
  | noLanguageMatch
  | invalidIdentity
  | serialization

/-! ### Conversions -/

/-- `HtmlDocumentInput` and `PdfDocumentInput`. -/
structure DocumentInput where
  owner : Uuid
  sourceAddress : String
  sourceBlob : BlobRef
  bytes : List UInt8

/-- `HtmlExtraction` and `PdfExtraction`. -/
structure Extraction where
  document : Document
  candidates : List CandidateDecision

/-- `CaptionTrack`, with the members the pipeline reads. -/
structure CaptionTrack where
  languageCode : String
  baseUrl : String

/-- `PlayerMeta`. -/
structure PlayerMeta where
  title : Option String
  channel : Option String
  durationSeconds : Option ℕ
  tracks : List CaptionTrack

/-- `Segment`. -/
structure Segment where
  startMs : ℕ
  durationMs : ℕ
  text : String

/-- `YoutubeLimits`. -/
structure YoutubeLimits where
  maxPageBytes : ℕ
  maxTrackBytes : ℕ
  maxBlocks : ℕ
  maxSegments : ℕ
  maxSegmentCharacters : ℕ

/-- `TranscriptInput`. -/
structure TranscriptInput where
  owner : Uuid
  sourceAddress : String
  sourceBlob : BlobRef
  playerMeta : PlayerMeta
  segments : List Segment
  language : String

/-- `BlockTiming`. -/
structure BlockTiming where
  blockIndex : ℕ
  startMs : ℕ
  endMs : ℕ

/-- `TimingSidecar`. -/
structure TimingSidecar where
  strategy : String
  language : String
  title : Option String
  channel : Option String
  durationSeconds : Option ℕ
  segmentCount : ℕ
  blocks : List BlockTiming

/-- `TranscriptExtraction`. -/
structure TranscriptExtraction where
  document : Document
  candidate : CandidateDecision
  sidecar : TimingSidecar

/-- The conversions, and what the crates outside the repository compute. -/
structure PipelineLib where
  providers : ProviderLib
  /-- `from_html`. -/
  fromHtml : DocumentInput → ParserConfig → Except DocumentIrError Extraction
  /-- `from_pdf`. -/
  fromPdf : DocumentInput → PdfConfig → Except PdfError Extraction
  /-- `resolve_identity`: the video and its canonical watch address. -/
  resolveIdentity : String → Option (String × String)
  /-- `extract_player_response`, on the page decoded lossily. -/
  extractPlayerResponse : List UInt8 → YoutubeLimits → Except YoutubeError PlayerMeta
  /-- `select_track`. -/
  selectTrack : List CaptionTrack → List String → Except YoutubeError CaptionTrack
  /-- `parse_timedtext`. -/
  parseTimedtext : List UInt8 → YoutubeLimits → Except YoutubeError (List Segment)
  /-- `from_transcript`. -/
  fromTranscript : TranscriptInput → YoutubeLimits → Except YoutubeError TranscriptExtraction
  /-- `canonical_json` of a document. -/
  documentJson : Document → Option (List UInt8)
  /-- The JSON of a timing sidecar with an archival label. -/
  timingJson : TimingSidecar → String → Option (List UInt8)

/-! ### Requests -/

/-- `RenderBudget`. -/
inductive RenderBudget
  | consumed (count : ℕ)
  | exhausted

/-- `ArchivalOutcome`. -/
inductive ArchivalOutcome
  | disabled
  | skippedDuplicate
  | skippedBudgetExhausted
  | skippedBudgetRace
  | stored (digestHex : String) (lengthBytes : ℕ)
  | failedDownload (failureClass : String)

/-- What a run asks of its surroundings, with the type of the answer. A read that fails has no
bytes. -/
inductive RunOp : Type → Type
  /-- `SafeFetcher::fetch`. -/
  | fetch (url : String) : RunOp (Except SafeFetchError FetchResult)
  /-- `verify` of the extractor's own store. -/
  | ownVerify (blob : BlobRef) : RunOp (Except BlobStoreError Unit)
  /-- Reading a verified file of the own store. -/
  | ownRead (blob : BlobRef) : RunOp (Option (List UInt8))
  /-- `store` of the own store. -/
  | ownStore (mediaType : String) (bytes : List UInt8) : RunOp (Except BlobStoreError BlobRef)
  /-- `verify` of the peer store. -/
  | peerVerify (blob : BlobRef) : RunOp (Except BlobStoreError Unit)
  /-- Reading a verified file of the peer store. -/
  | peerRead (blob : BlobRef) : RunOp (Option (List UInt8))
  /-- `verify` of the render worker's store. -/
  | workerVerify (root : String) (blob : BlobRef) : RunOp (Except BlobStoreError Unit)
  /-- Reading a verified file of the render worker's store. -/
  | workerRead (root : String) (blob : BlobRef) : RunOp (Option (List UInt8))
  /-- `DocumentAddress::parse` of a text, and whether it is accepted. -/
  | parseAddress (text : String) : RunOp Bool
  /-- `Uuid::now_v7`. -/
  | uuid : RunOp Uuid
  /-- `request_render`. -/
  | render (command : RenderCommand) : RunOp (Except RenderRequestError RenderOutcome)
  /-- `consume_render_budget`. -/
  | renderBudget (maxEscalationsPerDay : ℕ) : RunOp (Except ConsumeError RenderBudget)
  /-- A terminal call. -/
  | terminal (call : TerminalCall) : RunOp (Except ConsumeError Completion)
  /-- `record_fetch`. -/
  | recordFetch (runId : Uuid) (fetch : CompletedFetch) : RunOp (Except ConsumeError Unit)
  /-- `MediaArchiver::archive_video`; none is an I/O error. -/
  | archiveVideo (runId : Uuid) (videoId canonicalUrl : String) : RunOp (Option ArchivalOutcome)
  /-- The owner of a run; the outer level is the query, the inner one the row. -/
  | ownerOf (runId : Uuid) : RunOp (Option (Option Uuid))
  /-- `record_artifact` with the kind `diagnostics`, and whether it succeeded. -/
  | recordDiagnostics (runId owner : Uuid) (reference : BlobRef) : RunOp Bool
  /-- An increment of `ratatoskr_extractor_runs_total`. -/
  | countRun (outcome : String) : RunOp Unit

/-- A part of a run: it makes requests and may return early with an error. -/
abbrev Process := ExceptT ProcessError (Program RunOp)

/-- `?` on a result of the event pipeline. -/
def eventing {α : Type} (r : Except ConsumeError α) : Process α :=
  Program.ofExcept (r.mapError ProcessError.eventing)

/-- `?` on a result of a blob store. -/
def blobbing {α : Type} (r : Except BlobStoreError α) : Process α :=
  Program.ofExcept (r.mapError ProcessError.blob)

/-- A terminal call, followed by `?` and by the increment that every call site makes. -/
def terminate (outcome : String) (call : TerminalCall) : Process Unit := do
  let r ← Program.call (RunOp.terminal call)
  let _ ← eventing r
  Program.call (RunOp.countRun outcome)

/-- `fail_run`. -/
def failRunNow (run : QueuedRun) (failureClass : String) (retryable : Bool)
    (steps : List ResolutionStep) : Process Unit :=
  terminate "failed" (.failRun run.runId failureClass retryable steps)

/-- `reject_quality`. -/
def rejectQualityNow (run : QueuedRun) (fetch : CompletedFetch)
    (candidates : List CandidateDecision) (failureClass : String) (steps : List ResolutionStep) :
    Process Unit :=
  terminate "failed"
    (.reject run.runId ⟨fetch.rawBlob, some fetch, candidates, failureClass, steps⟩)

/-- `reject_blob_quality`. -/
def rejectBlobQualityNow (run : QueuedRun) (rawBlob : BlobRef)
    (candidates : List CandidateDecision) (failureClass : String) (steps : List ResolutionStep) :
    Process Unit :=
  terminate "failed" (.reject run.runId ⟨rawBlob, none, candidates, failureClass, steps⟩)

/-- `record_fetch`, followed by `?`. -/
def recordFetchNow (run : QueuedRun) (fetch : CompletedFetch) : Process Unit := do
  let r ← Program.call (RunOp.recordFetch run.runId fetch)
  eventing r

/-- Reading a verified file of the own store, followed by `?`. -/
def readOwn (blob : BlobRef) : Process (List UInt8) := do
  let bytes ← Program.call (RunOp.ownRead blob)
  okOr bytes ProcessError.io

/-- `DocumentAddress::parse`, followed by `?`. -/
def parseAddress (text : String) : Process String := do
  let valid ← Program.call (RunOp.parseAddress text)
  require (valid = true) ProcessError.documentIdentity
  return text

section Flows

variable (lib : PipelineLib)

/-- `completed_fetch`. -/
def completedFetch (fetched : FetchResult) : CompletedFetch where
  finalUrl := lib.providers.urlLib.asStr fetched.finalUrl
  httpStatus := fetched.status
  mediaType := fetched.mediaType
  wireBytes := fetched.wireBytes
  decodedBytes := fetched.decodedBytes
  attempts := fetched.metadata.attempts
  cacheOutcome := match fetched.metadata.cacheOutcome with
    | .fresh => "fresh"
    | .revalidated => "revalidated"
  etag := fetched.metadata.etag
  lastModified := fetched.metadata.lastModified
  rawBlob := fetched.artifact

/-- The text of the final URL of a retrieval. -/
def finalAddress (fetched : FetchResult) : String :=
  lib.providers.urlLib.asStr fetched.finalUrl

/-- `fetch_retryable`. -/
def fetchRetryable : SafeFetchError → Bool
  | .transport | .dns | .timeoutTotal | .timeoutFirstByte | .timeoutReadIdle | .overloaded => true
  | _ => false

/-- `store_document_ir`, followed by `?`. -/
def storeDocumentIr (document : Document) : Process BlobRef := do
  let canonical ← okOr (lib.documentJson document) (ProcessError.eventing .command)
  let stored ← Program.call (RunOp.ownStore "application/json" canonical)
  Program.ofExcept (stored.mapError fun _ => ProcessError.eventing .artifactStore)

/-- `complete_document`, with the storage of the document before it. -/
def completeDocumentNow (run : QueuedRun) (document : Document) (fetch : CompletedFetch)
    (candidates : List CandidateDecision) (steps : List ResolutionStep) : Process Unit := do
  let irBlob ← storeDocumentIr lib document
  terminate "succeeded"
    (.complete run ⟨document, irBlob, fetch.rawBlob, some fetch, candidates, steps⟩)

/-- `complete_blob_document`, with the storage of the document before it. -/
def completeBlobDocumentNow (run : QueuedRun) (document : Document) (rawBlob : BlobRef)
    (candidates : List CandidateDecision) (steps : List ResolutionStep) : Process Unit := do
  let irBlob ← storeDocumentIr lib document
  terminate "succeeded"
    (.complete run ⟨document, irBlob, rawBlob, none, candidates, steps⟩)

/-! ### Escalation -/

/-- `is_empty_shell`. The markers are ASCII, and the lossy decoding keeps every ASCII byte and
puts nothing between two of them, so they are searched for in the bytes. -/
def isEmptyShell (rawHtml : List UInt8) : Bool :=
  ["id=\"root\"", "id=\"app\"", "__NEXT_DATA__"].any fun marker =>
    Text.contains marker.toList (rawHtml.map fun b => Char.ofNat b.toNat)

namespace Escalation

/-- `EscalationDenial`. -/
inductive Denial
  | qualityNotRejected
  | renderingDisabled
  | notAnEmptyShell
  | hostNotAllowed
  | dailyBudgetExhausted
  deriving DecidableEq

/-- `EscalationDenial::as_str`. -/
def Denial.asStr : Denial → String
  | .qualityNotRejected => "quality_not_rejected"
  | .renderingDisabled => "rendering_disabled"
  | .notAnEmptyShell => "not_an_empty_shell"
  | .hostNotAllowed => "host_not_allowed"
  | .dailyBudgetExhausted => "daily_budget_exhausted"

/-- `EscalationInputs`. -/
structure Inputs where
  qualityRejected : Bool
  emptyShellEvidence : Bool
  host : Option String
  config : RenderConfig
  budgetRemaining : Bool

/-- `EscalationDecision`. -/
inductive Decision
  | escalate
  | denied (denial : Denial)
  deriving DecidableEq

/-- `host_allowed`. -/
def hostAllowed (host : Option String) (allowedHosts : List String) : Bool :=
  match host with
  | none => allowedHosts.isEmpty
  | some host =>
      allowedHosts.isEmpty ||
        allowedHosts.any fun allowed => allowed.toList == Text.asciiLower host.toList

/-- `decide`. -/
def decide (inputs : Inputs) : Decision :=
  if !inputs.qualityRejected then .denied .qualityNotRejected
  else if !inputs.config.enabled then .denied .renderingDisabled
  else if !inputs.emptyShellEvidence then .denied .notAnEmptyShell
  else if !hostAllowed inputs.host inputs.config.allowedHosts then .denied .hostNotAllowed
  else if !inputs.budgetRemaining then .denied .dailyBudgetExhausted
  else .escalate

end Escalation

/-- `EscalationStep`. -/
inductive EscalationStep
  | completed
  | workerTerminal
  | budgetExhausted
  deriving DecidableEq

/-- `record_policy_denial`. -/
def recordPolicyDenial (run : QueuedRun) (fetched : FetchResult)
    (candidates : List CandidateDecision) (denial : Escalation.Denial) : Process Unit :=
  rejectQualityNow run (completedFetch lib fetched) candidates "quality"
    [⟨0, "render_policy", some denial.asStr, none, none⟩]

/-- The command of `escalate_to_render`. -/
def renderCommand (render : RenderConfig) (run : QueuedRun) (renderId operationId : Uuid) :
    RenderCommand where
  renderId := renderId
  operationId := operationId
  correlationId := "run:" ++ toString run.runId
  tenantUserId := 0
  url := run.url
  budgets := ⟨render.navigationTimeoutMs, render.totalTimeoutMs, render.maxDomBytes⟩

/-- The branch of `escalate_to_render` that converts a rendered DOM. -/
def convertRendered (config : ExtractorConfig) (run : QueuedRun) (fetched : FetchResult)
    (completed : RenderCompleted) : Process (Option Extraction) := do
  let verified ← Program.call (RunOp.workerVerify config.render.workerBlobsRoot completed.dom)
  blobbing verified
  let bytes ← Program.call (RunOp.workerRead config.render.workerBlobsRoot completed.dom)
  let rendered ← okOr bytes ProcessError.io
  let address ← parseAddress completed.finalUrl
  match lib.fromHtml ⟨run.owner, address, completed.dom, rendered⟩ config.parser with
  | .ok extraction => return some extraction
  | .error (.lowQuality candidates) => do
      rejectQualityNow run (completedFetch lib fetched) candidates "quality" []
      return none
  | .error _ => do
      failRunNow run "parse" false []
      return none

/-- `escalate_to_render`. -/
def escalateToRender (config : ExtractorConfig) (run : QueuedRun) (fetched : FetchResult) :
    Process (Option Extraction) := do
  let renderId ← Program.call RunOp.uuid
  let operationId ← Program.call RunOp.uuid
  let reply ← Program.call
    (RunOp.render (renderCommand config.render run renderId operationId))
  match reply with
  | .ok (.completed completed) => convertRendered lib config run fetched completed
  | .ok (.failed failed) => do
      failRunNow run failed.failureClass.asStr false []
      return none
  | .error .timeout => do
      failRunNow run "navigation_timeout" false []
      return none
  | .error .transport => do
      failRunNow run "fetch" true []
      return none

/-- `spend_budget_and_escalate`, with `complete_escalated`. -/
def spendBudgetAndEscalate (config : ExtractorConfig) (run : QueuedRun) (fetched : FetchResult) :
    Process EscalationStep := do
  let budget ← Program.call (RunOp.renderBudget config.render.maxEscalationsPerDay)
  let budget ← eventing budget
  match budget with
  | .consumed _ => do
      let extraction ← escalateToRender lib config run fetched
      match extraction with
      | some extraction => do
          completeDocumentNow lib run extraction.document (completedFetch lib fetched)
            extraction.candidates []
          return .completed
      | none => return .workerTerminal
  | .exhausted => return .budgetExhausted

/-- What `complete_html` does after an escalation. -/
def afterEscalation (run : QueuedRun) (fetched : FetchResult)
    (candidates : List CandidateDecision) : EscalationStep → Process Unit
  | .completed => return ()
  | .workerTerminal =>
      rejectQualityNow run (completedFetch lib fetched) candidates "quality" []
  | .budgetExhausted => recordPolicyDenial lib run fetched candidates .dailyBudgetExhausted

/-- The branch of `complete_html` whose content was rejected on quality. -/
def escalateHtml (config : ExtractorConfig) (run : QueuedRun) (fetched : FetchResult)
    (rawHtml : List UInt8) (candidates : List CandidateDecision) : Process Unit :=
  let emptyShell := isEmptyShell rawHtml &&
    candidates.all fun c => Decidable.decide (c.metrics.textCharacters < 120)
  let inputs : Escalation.Inputs :=
    { qualityRejected := true
      emptyShellEvidence := emptyShell
      host := fetched.finalUrl.hostStr lib.providers.urlLib
      config := config.render
      budgetRemaining := true }
  match Escalation.decide inputs with
  | .escalate => do
      let step ← spendBudgetAndEscalate lib config run fetched
      afterEscalation lib run fetched candidates step
  | .denied denial => recordPolicyDenial lib run fetched candidates denial

/-- `complete_html`. -/
def completeHtml (config : ExtractorConfig) (run : QueuedRun) (fetched : FetchResult) :
    Process Unit := do
  let verified ← Program.call (RunOp.ownVerify fetched.artifact)
  match verified with
  | .error _ => failRunNow run "artifact" false []
  | .ok () => do
      let bytes ← readOwn fetched.artifact
      let address ← parseAddress (finalAddress lib fetched)
      match lib.fromHtml ⟨run.owner, address, fetched.artifact, bytes⟩ config.parser with
      | .ok extraction =>
          completeDocumentNow lib run extraction.document (completedFetch lib fetched)
            extraction.candidates []
      | .error (.lowQuality candidates) => escalateHtml lib config run fetched bytes candidates
      | .error _ => failRunNow run "parse" false []

/-! ### PDF -/

/-- `finish_pdf`, with `reject_no_text_layer`; a blob run has no fetch. -/
def finishPdf (config : ExtractorConfig) (run : QueuedRun) (raw : BlobRef) (address : String)
    (bytes : List UInt8) (fetched : Option FetchResult) : Process Unit :=
  match lib.fromPdf ⟨run.owner, address, raw, bytes⟩ config.pdf, fetched with
  | .ok extraction, some fetched =>
      completeDocumentNow lib run extraction.document (completedFetch lib fetched)
        extraction.candidates []
  | .ok extraction, none =>
      completeBlobDocumentNow lib run extraction.document raw extraction.candidates []
  | .error (.noTextLayer candidates), some fetched =>
      rejectQualityNow run (completedFetch lib fetched) candidates "pdf_no_text_layer" []
  | .error (.noTextLayer candidates), none =>
      rejectBlobQualityNow run raw candidates "pdf_no_text_layer" []
  | .error .encrypted, _ => failRunNow run "pdf_encrypted" false []
  | .error _, _ => failRunNow run "parse" false []

/-- `complete_pdf`. -/
def completePdf (config : ExtractorConfig) (run : QueuedRun) (fetched : FetchResult) :
    Process Unit := do
  let verified ← Program.call (RunOp.ownVerify fetched.artifact)
  match verified with
  | .error _ => failRunNow run "artifact" false []
  | .ok () => do
      let bytes ← readOwn fetched.artifact
      let address ← parseAddress (finalAddress lib fetched)
      finishPdf lib config run fetched.artifact address bytes (some fetched)

/-- `blob_failure_class`. -/
def blobFailureClass : BlobStoreError → String
  | .wrongOwner => "blob_owner"
  | .missing => "blob_missing"
  | .io => "blob_unreadable"
  | _ => "blob_mismatch"

/-- The part of `complete_blob_pdf` that copies the peer's bytes. -/
def copyPeerPdf (config : ExtractorConfig) (run : QueuedRun) (blob : BlobRef)
    (bytes : List UInt8) : Process Unit := do
  let stored ← Program.call (RunOp.ownStore "application/pdf" bytes)
  let raw ← blobbing stored
  if raw.digest ≠ blob.digest ∨ raw.lengthBytes ≠ blob.lengthBytes then
    failRunNow run "blob_mismatch" false []
  else do
    let address ← parseAddress run.url
    finishPdf lib config run raw address bytes none

/-- `complete_blob_pdf`, with `fail_blob_run`. -/
def completeBlobPdf (config : ExtractorConfig) (run : QueuedRun) (blob : BlobRef) :
    Process Unit :=
  if blob.mediaType ≠ "application/pdf" then failRunNow run "unsupported_media" false []
  else do
    let verified ← Program.call (RunOp.peerVerify blob)
    match verified with
    | .error error => failRunNow run (blobFailureClass error) false []
    | .ok () =>
        if config.pdf.maxInputBytes < blob.lengthBytes then failRunNow run "parse" false []
        else do
          let bytes ← Program.call (RunOp.peerRead blob)
          match bytes with
          | none => failRunNow run "blob_unreadable" false []
          | some bytes => copyPeerPdf lib config run blob bytes

/-! ### Provider continuations -/

/-- The first step of a resolution. -/
def providerAttempt (failureClass : Option String) : ResolutionStep :=
  ⟨0, "provider_attempt", some (if failureClass.isSome then "failed" else "ok"), failureClass, none⟩

/-- The second step of a resolution. -/
def secondStep (kind : String) (failureClass resolvedUrl : Option String) : ResolutionStep :=
  ⟨1, kind, some (if failureClass.isSome then "failed" else "ok"), failureClass, resolvedUrl⟩

/-- `resolve_external_article`. -/
def resolveExternalArticle (config : ExtractorConfig) (run : QueuedRun)
    (extraction : ProviderExtraction) (target : String) : Process Unit := do
  let steps (failureClass : Option String) (resolvedUrl : String) :=
    [providerAttempt none, secondStep "resolved_target" failureClass (some resolvedUrl)]
  let fetched ← Program.call (RunOp.fetch target)
  match fetched with
  | .error .addressPolicy => failRunNow run "policy" false (steps (some "policy") target)
  | .error (.url _) => failRunNow run "policy" false (steps (some "policy") target)
  | .error error => failRunNow run "fetch" (fetchRetryable error) (steps (some "fetch") target)
  | .ok fetched =>
      let resolved := finalAddress lib fetched
      if fetched.mediaType ≠ "text/html" then
        failRunNow run "unsupported_media" false (steps (some "unsupported_media") resolved)
      else do
        let verified ← Program.call (RunOp.ownVerify fetched.artifact)
        match verified with
        | .error _ => failRunNow run "artifact" false (steps (some "artifact") resolved)
        | .ok () => do
            let bytes ← readOwn fetched.artifact
            let address ← parseAddress resolved
            match lib.fromHtml ⟨run.owner, address, fetched.artifact, bytes⟩ config.parser with
            | .error _ => failRunNow run "parse" false (steps (some "parse") resolved)
            | .ok article =>
                completeDocumentNow lib run article.document (completedFetch lib fetched)
                  extraction.candidates (steps none resolved)

/-- `fallback_to_generic_html`. -/
def fallbackToGenericHtml (config : ExtractorConfig) (run : QueuedRun) (providerClass : String) :
    Process Unit := do
  let steps (failureClass : Option String) :=
    [providerAttempt (some providerClass), secondStep "html_fallback" failureClass none]
  let fetched ← Program.call (RunOp.fetch run.url)
  match fetched with
  | .error error => failRunNow run "fetch" (fetchRetryable error) (steps (some "fetch"))
  | .ok fetched =>
      if fetched.mediaType ≠ "text/html" then
        failRunNow run "unsupported_media" false (steps (some "unsupported_media"))
      else do
        let verified ← Program.call (RunOp.ownVerify fetched.artifact)
        match verified with
        | .error _ => failRunNow run "artifact" false (steps (some "artifact"))
        | .ok () => do
            let bytes ← readOwn fetched.artifact
            let address ← parseAddress (finalAddress lib fetched)
            match lib.fromHtml ⟨run.owner, address, fetched.artifact, bytes⟩ config.parser with
            | .ok extraction =>
                completeDocumentNow lib run extraction.document (completedFetch lib fetched)
                  extraction.candidates (steps none)
            | .error (.lowQuality candidates) =>
                rejectQualityNow run (completedFetch lib fetched) candidates "quality"
                  (steps (some "quality"))
            | .error _ => failRunNow run "parse" false (steps (some "parse"))

/-! ### Providers -/

/-- What `complete_provider` does with a converted payload. -/
def continueProvider (config : ExtractorConfig) (run : QueuedRun) (fetched : FetchResult) :
    Except ProviderError ProviderExtraction → Process Unit
  | .error (.lowQuality candidates) =>
      rejectQualityNow run (completedFetch lib fetched) candidates "provider_low_quality" []
  | .error .resourceLimit => failRunNow run "parse" false []
  | .error _ => do
      recordFetchNow run (completedFetch lib fetched)
      fallbackToGenericHtml lib config run "provider_schema"
  | .ok extraction =>
      match extraction.externalUrl.filter fun target =>
        !pointsBackToSource lib.providers.urlLib run.url target with
      | some target => do
          recordFetchNow run (completedFetch lib fetched)
          resolveExternalArticle lib config run extraction target
      | none =>
          completeDocumentNow lib run extraction.document (completedFetch lib fetched)
            extraction.candidates []

/-- `complete_provider`. -/
def completeProvider (config : ExtractorConfig) (route : ProviderRoute) (address : String)
    (run : QueuedRun) : Process Unit := do
  let fetched ← Program.call (RunOp.fetch address)
  match fetched with
  | .error error => failRunNow run "fetch" (fetchRetryable error) []
  | .ok fetched =>
      if fetched.mediaType ≠ "application/json" then do
        recordFetchNow run (completedFetch lib fetched)
        fallbackToGenericHtml lib config run "provider_response"
      else do
        let verified ← Program.call (RunOp.ownVerify fetched.artifact)
        match verified with
        | .error _ => failRunNow run "artifact" false []
        | .ok () => do
            let bytes ← readOwn fetched.artifact
            let payloadAddress ← parseAddress (finalAddress lib fetched)
            continueProvider lib config run fetched (fromProvider lib.providers
              ⟨run.owner, payloadAddress, fetched.artifact, route, bytes⟩
              ⟨config.providers.maxInputBytes, config.providers.maxBlocks⟩)

/-! ### YouTube -/

/-- `YOUTUBE_STRATEGY`. -/
def youtubeStrategy : String := "youtube_transcript"

/-- The conversion budgets of `complete_youtube_flow`. -/
def youtubeLimits (parser : ParserConfig) : YoutubeLimits :=
  ⟨parser.maxInputBytes, parser.maxInputBytes, 2000, 8000, 2000⟩

/-- `rejected_transcript_decision`. -/
def rejectedTranscriptDecision (title : Option String) : CandidateDecision :=
  { evaluatePlainText youtubeStrategy [] title with selected := false }

/-- `archival_label`. -/
def archivalLabel : Option ArchivalOutcome → String
  | none => "error"
  | some .disabled => "disabled"
  | some .skippedDuplicate => "skipped_duplicate"
  | some .skippedBudgetExhausted | some .skippedBudgetRace => "skipped_budget"
  | some (.failedDownload failureClass) =>
      if failureClass = "media_over_item_cap" then "skipped_budget" else "failed"
  | some (.stored _ _) => "stored"

/-- `write_timing_diagnostics`. -/
def writeTimingDiagnostics (run : QueuedRun) (sidecar : TimingSidecar) (archival : String) :
    Process Unit := do
  let payload ← okOr (lib.timingJson sidecar archival) ProcessError.documentIdentity
  let stored ← Program.call (RunOp.ownStore "application/json" payload)
  let reference ← blobbing stored
  let row ← Program.call (RunOp.ownerOf run.runId)
  let row ← okOr row ProcessError.io
  let owner ← okOr row ProcessError.documentIdentity
  let recorded ← Program.call (RunOp.recordDiagnostics run.runId owner reference)
  require (recorded = true) ProcessError.database

/-- The part of `complete_youtube_flow` after the transcript is converted. -/
def completeTranscript (run : QueuedRun) (videoId watchAddress : String)
    (trackFetch : FetchResult) : Except YoutubeError TranscriptExtraction → Process Unit
  | .error .serialization => throw ProcessError.io
  | .error _ => failRunNow run "parse" false []
  | .ok extraction => do
      completeDocumentNow lib run extraction.document (completedFetch lib trackFetch)
        [extraction.candidate] []
      let archival ← Program.call (RunOp.archiveVideo run.runId videoId watchAddress)
      writeTimingDiagnostics lib run extraction.sidecar (archivalLabel archival)

/-- The part of `complete_youtube_flow` that fetches and parses the timed text. -/
def completeTrack (config : ExtractorConfig) (run : QueuedRun) (videoId watchAddress : String)
    (fetched : FetchResult) (playerMeta : PlayerMeta) (track : CaptionTrack) :
    Process Unit := do
  let trackFetch ← Program.call (RunOp.fetch track.baseUrl)
  match trackFetch with
  | .error error => failRunNow run "fetch" (fetchRetryable error) []
  | .ok trackFetch =>
      if !"text/".toList.isPrefixOf trackFetch.mediaType.toList &&
          trackFetch.mediaType != "application/json" then failRunNow run "parse" false []
      else do
        let verified ← Program.call (RunOp.ownVerify trackFetch.artifact)
        match verified with
        | .error _ => failRunNow run "artifact" false []
        | .ok () => do
            let trackBytes ← readOwn trackFetch.artifact
            match lib.parseTimedtext trackBytes (youtubeLimits config.parser) with
            | .error _ => failRunNow run "parse" false []
            | .ok segments => do
                let address ← parseAddress watchAddress
                completeTranscript lib run videoId watchAddress trackFetch (lib.fromTranscript
                  ⟨run.owner, address, fetched.artifact, playerMeta, segments, track.languageCode⟩
                  (youtubeLimits config.parser))

/-- The part of `complete_youtube_flow` after the player response is parsed. -/
def completePlayer (config : ExtractorConfig) (run : QueuedRun) (videoId watchAddress : String)
    (fetched : FetchResult) : Except YoutubeError PlayerMeta → Process Unit
  | .error .resourceLimit => failRunNow run "parse" false []
  | .error _ => do
      recordFetchNow run (completedFetch lib fetched)
      fallbackToGenericHtml lib config run "youtube_player_schema"
  | .ok playerMeta =>
      match lib.selectTrack playerMeta.tracks config.youtube.languages with
      | .error .noLanguageMatch =>
          rejectQualityNow run (completedFetch lib fetched)
            [rejectedTranscriptDecision playerMeta.title] "youtube_no_language_match" []
      | .error _ =>
          rejectQualityNow run (completedFetch lib fetched)
            [rejectedTranscriptDecision playerMeta.title] "youtube_no_transcript" []
      | .ok track => do
          recordFetchNow run (completedFetch lib fetched)
          completeTrack lib config run videoId watchAddress fetched playerMeta track

/-- `complete_youtube_flow`. -/
def completeYoutubeFlow (config : ExtractorConfig) (run : QueuedRun)
    (videoId watchAddress : String) : Process Unit := do
  let fetched ← Program.call (RunOp.fetch watchAddress)
  match fetched with
  | .error error => failRunNow run "fetch" (fetchRetryable error) []
  | .ok fetched =>
      if fetched.mediaType ≠ "text/html" then do
        recordFetchNow run (completedFetch lib fetched)
        fallbackToGenericHtml lib config run "youtube_player_schema"
      else do
        let verified ← Program.call (RunOp.ownVerify fetched.artifact)
        match verified with
        | .error _ => failRunNow run "artifact" false []
        | .ok () => do
            let bytes ← readOwn fetched.artifact
            completePlayer lib config run videoId watchAddress fetched
              (lib.extractPlayerResponse bytes (youtubeLimits config.parser))

/-! ### The run -/

/-- The provider route of a classification. -/
def providerRoute (classification : String) : Option ProviderRoute :=
  if classification = "hacker_news" then some .hackerNews
  else if classification = "reddit" then some .reddit
  else none

/-- The native address of a run, where it has one. -/
def nativeRequest (run : QueuedRun) : Except ProviderError (Option (ProviderRoute × String)) :=
  match providerRoute run.classification with
  | none => .ok none
  | some route => (providerRequest lib.providers route run.url).map (Option.map (Prod.mk route))

/-- The path of a run that no provider and no video claims. -/
def completeOrdinary (config : ExtractorConfig) (run : QueuedRun) : Process Unit := do
  let fetched ← Program.call (RunOp.fetch run.url)
  match fetched with
  | .error error => failRunNow run "fetch" (fetchRetryable error) []
  | .ok fetched =>
      if fetched.mediaType = "text/html" then completeHtml lib config run fetched
      else if fetched.mediaType = "application/pdf" then completePdf lib config run fetched
      else failRunNow run "unsupported_media" false []

/-- `process_run`. -/
def processRun (config : ExtractorConfig) (run : QueuedRun) : Process Unit :=
  match run.blob with
  | some blob => completeBlobPdf lib config run blob
  | none => do
      let native ← Program.ofExcept ((nativeRequest lib run).mapError ProcessError.provider)
      match native with
      | some (route, address) => completeProvider lib config route address run
      | none =>
          if run.classification = "youtube" then
            match lib.resolveIdentity run.url with
            | some (videoId, watchAddress) =>
                completeYoutubeFlow lib config run videoId watchAddress
            | none => fallbackToGenericHtml lib config run "youtube_no_video_id"
          else completeOrdinary lib config run

end Flows

end Extractor
