import Extractor.FetchRows
import Extractor.NetworkWork

/-!
# The counter of finished runs

`process_run` counts the runs that it ends in `ratatoskr_extractor_runs_total`. There is no single
place for that: more than forty call sites increment the counter by hand, each of them right after
the `?` of its terminal call. Here an increment is a request of the program, as the terminal call
before it is. A run is counted as often as its terminal calls return, and it is counted twice where
a flow that made a terminal call returns to a caller that makes another one.
That happens after a browser escalation which ended without a document: `EscalationStep` says that
there is nothing more to record, and `complete_html` records the rejection of the page once more.

## Main definitions

* `runsTotal`: the increments of the counter at an exchange.
* `endLabels`: the labels that the terminal calls which returned stand for.
* `RenderRefused`: the render worker was asked and delivered no DOM that converts.
* `Interleaved`: the moments of an execution beside other workers.
* `RunCounted`: a run that is counted once, as what it became.

## Main results

* `ends_processRun`: the terminal calls and increments of an execution that returns `Ok`.
* `EndsRun.runsTotal_eq`: the counter is incremented at the terminal calls that returned.
* `Interleaved.counted_once_iff`: what one counted terminal call says about the run.
* `runs_counted_once_iff`: exactly when a run is counted once.
-/

namespace Extractor

open Program

/-! ### What is counted -/

/-- The increments of `ratatoskr_extractor_runs_total` at an exchange, by their `outcome` label. -/
def runsTotal : Exchange RunOp → List String
  | ⟨.countRun outcome, _⟩ => [outcome]
  | _ => []

/-- The text of a status in its column. -/
def RunStatus.text : RunStatus → String
  | .queued => "queued"
  | .running => "running"
  | .succeeded => "succeeded"
  | .failed => "failed"

/-- The label for a terminal call that returned: the text of the status that it gives its run. -/
def endLabels : Exchange RunOp → List String
  | ⟨.terminal call, .ok _⟩ => [call.outcome.text]
  | _ => []

/-- The exchange is a terminal call that ended the run. -/
def isApplied : Exchange RunOp → Bool
  | ⟨.terminal _, .ok .applied⟩ => true
  | _ => false

/-- The conversion of a rendered DOM. -/
def renderedHtml (lib : PipelineLib) (config : ExtractorConfig) (run : QueuedRun)
    (completed : RenderCompleted) (bytes : List UInt8) : Except DocumentIrError Extraction :=
  lib.fromHtml ⟨run.owner, completed.finalUrl, completed.dom, bytes⟩ config.parser

/-- **The condition on the replies**: the render worker was asked, and it did not deliver a DOM
that `from_html` converts. -/
def RenderRefused (lib : PipelineLib) (config : ExtractorConfig) (run : QueuedRun)
    (tr : Trace RunOp) : Prop :=
  ∃ command reply, ⟨.render command, reply⟩ ∈ tr ∧
    ¬ ∃ completed root bytes extraction, reply = .ok (.completed completed) ∧
      ⟨.workerRead root completed.dom, some bytes⟩ ∈ tr ∧
      renderedHtml lib config run completed bytes = .ok extraction

/-! ### What an execution shows -/

/-- What an exchange shows of the end of a run. -/
inductive RunEvent
  /-- A terminal call returned. -/
  | ended (call : TerminalCall) (completion : Completion)
  /-- The counter was incremented. -/
  | incremented (outcome : String)
  /-- The render worker was asked, and this is its reply. -/
  | replied (reply : Except RenderRequestError RenderOutcome)
  /-- A rendered DOM was read. -/
  | rendered (dom : BlobRef) (bytes : List UInt8)

/-- What is seen of an exchange. -/
def runEvents : Exchange RunOp → List RunEvent
  | ⟨.terminal call, .ok completion⟩ => [.ended call completion]
  | ⟨.countRun outcome, _⟩ => [.incremented outcome]
  | ⟨.render _, reply⟩ => [.replied reply]
  | ⟨.workerRead _ dom, some bytes⟩ => [.rendered dom bytes]
  | _ => []

/-- One terminal call for the run, and an increment with the label of that call. -/
def EndsOnce (run : QueuedRun) (events : List RunEvent) : Prop :=
  ∃ call completion, call.runId = run.runId ∧
    events = [.ended call completion, .incremented call.outcome.text]

section Rendering

variable (lib : PipelineLib) (config : ExtractorConfig) (run : QueuedRun)

/-- The worker was asked and delivered a DOM that converts. -/
def DomConverted (events : List RunEvent) : Prop :=
  ∃ completed bytes extraction,
    events = [.replied (.ok (.completed completed)), .rendered completed.dom bytes] ∧
      renderedHtml lib config run completed bytes = .ok extraction

/-- The worker was asked and delivered nothing that converts. -/
inductive DomRefused : List RunEvent → Prop
  | failed {reply : Except RenderRequestError RenderOutcome}
      (h : ∀ completed, reply ≠ .ok (.completed completed)) : DomRefused [.replied reply]
  | unconverted {completed : RenderCompleted} {bytes : List UInt8} {e : DocumentIrError}
      (h : renderedHtml lib config run completed bytes = .error e) :
      DomRefused [.replied (.ok (.completed completed)), .rendered completed.dom bytes]

/-- **What an execution shows when it returns `Ok`**: one terminal call, with a render before it
where that succeeded, or two terminal calls after a render that was refused. -/
inductive EndsRun : List RunEvent → Prop
  | plainly {once : List RunEvent} (h : EndsOnce run once) : EndsRun once
  | rendered {asked once : List RunEvent} (hasked : DomConverted lib config run asked)
      (h : EndsOnce run once) : EndsRun (asked ++ once)
  | again {asked once twice : List RunEvent} (hasked : DomRefused lib config run asked)
      (h : EndsOnce run once) (h' : EndsOnce run twice) : EndsRun (asked ++ (once ++ twice))

end Rendering

/-! ### The parts of the flows -/

section Flows

variable {lib : PipelineLib} {config : ExtractorConfig} {run : QueuedRun} {fetched : FetchResult}

theorem ends_terminate {outcome : String} {call : TerminalCall} (hid : call.runId = run.runId)
    (houtcome : outcome = call.outcome.text) :
    Shows runEvents (terminate outcome call) fun events _ => EndsOnce run events := by
  subst houtcome
  refine .call_bind fun answer => ?_
  cases answer with
  | error e => exact .known rfl fun _ h => nomatch h
  | ok completion =>
      refine .value_bind rfl (.last_call fun _ => ?_)
      exact ⟨call, completion, hid, rfl⟩

theorem ends_failRun {failureClass : String} {retryable : Bool} {steps : List ResolutionStep} :
    Shows runEvents (failRunNow run failureClass retryable steps) fun events _ =>
      EndsOnce run events :=
  ends_terminate rfl rfl

theorem ends_rejectQuality {fetch : CompletedFetch} {candidates : List CandidateDecision}
    {failureClass : String} {steps : List ResolutionStep} :
    Shows runEvents (rejectQualityNow run fetch candidates failureClass steps) fun events _ =>
      EndsOnce run events :=
  ends_terminate rfl rfl

theorem ends_rejectBlobQuality {rawBlob : BlobRef} {candidates : List CandidateDecision}
    {failureClass : String} {steps : List ResolutionStep} :
    Shows runEvents (rejectBlobQualityNow run rawBlob candidates failureClass steps)
      fun events _ => EndsOnce run events :=
  ends_terminate rfl rfl

theorem silent_recordFetch {fetch : CompletedFetch} :
    Shows runEvents (recordFetchNow run fetch) fun events _ => events = [] :=
  .silent_call (fun _ => rfl) fun _ => .known rfl fun _ _ => rfl

theorem silent_readOwn {blob : BlobRef} :
    Shows runEvents (readOwn blob) fun events _ => events = [] :=
  .silent_call (fun _ => rfl) fun bytes => by
    cases bytes <;> exact .known rfl fun _ _ => rfl

/-- The address is the text that was parsed. -/
theorem shows_parseAddress {text : String} :
    Shows runEvents (parseAddress text) fun events address => events = [] ∧ address = text := by
  refine .silent_call (fun _ => rfl) fun valid => ?_
  cases valid with
  | false => exact .known rfl fun _ h => nomatch h
  | true => exact .known rfl fun _ h => ⟨rfl, (Except.ok.inj h).symm⟩

theorem silent_parseAddress {text : String} :
    Shows runEvents (parseAddress text) fun events _ => events = [] :=
  shows_parseAddress.imp fun _ _ h => h.1

theorem silent_storeDocumentIr {document : Document} :
    Shows runEvents (storeDocumentIr lib document) fun events _ => events = [] := by
  rw [storeDocumentIr]
  cases lib.documentJson document with
  | none => exact .known rfl fun _ _ => rfl
  | some canonical =>
      refine .silent_bind (.known rfl fun _ _ => rfl) fun _ => ?_
      exact .silent_call (fun _ => rfl) fun _ => .known rfl fun _ _ => rfl

theorem ends_completeDocument {document : Document} {fetch : CompletedFetch}
    {candidates : List CandidateDecision} {steps : List ResolutionStep} :
    Shows runEvents (completeDocumentNow lib run document fetch candidates steps)
      fun events _ => EndsOnce run events :=
  .silent_bind silent_storeDocumentIr fun _ => ends_terminate rfl rfl

theorem ends_completeBlobDocument {document : Document} {rawBlob : BlobRef}
    {candidates : List CandidateDecision} {steps : List ResolutionStep} :
    Shows runEvents (completeBlobDocumentNow lib run document rawBlob candidates steps)
      fun events _ => EndsOnce run events :=
  .silent_bind silent_storeDocumentIr fun _ => ends_terminate rfl rfl

/-- The bytes of a stored artifact, or a failed run. -/
theorem shows_verified {Q : List RunEvent → Unit → Prop} {blob : BlobRef} {failed : Process Unit}
    {f : List UInt8 → Process Unit} (hfailed : Shows runEvents failed Q)
    (hf : ∀ bytes, Shows runEvents (f bytes) Q) :
    Shows runEvents (call (RunOp.ownVerify blob) >>= fun verified =>
      match verified with
      | .error _ => failed
      | .ok () => readOwn blob >>= f) Q := by
  refine .silent_call (fun _ => rfl) fun verified => ?_
  cases verified with
  | error error => exact hfailed
  | ok u => exact .silent_bind silent_readOwn hf

/-! ### Rendering -/

/-- A rendered DOM is returned where it converts, and otherwise it ends the run. -/
theorem shows_convertRendered {completed : RenderCompleted} :
    Shows runEvents (convertRendered lib config run fetched completed) fun events converted =>
      ∃ bytes once, events = .rendered completed.dom bytes :: once ∧
        match converted with
        | some extraction =>
            once = [] ∧ renderedHtml lib config run completed bytes = .ok extraction
        | none =>
            EndsOnce run once ∧ ∃ e, renderedHtml lib config run completed bytes = .error e := by
  refine .silent_call (fun _ => rfl) fun verified => ?_
  refine .silent_bind (.known rfl fun _ _ => rfl) fun _ => .call_bind fun bytes => ?_
  cases bytes with
  | none => exact .known rfl fun _ h => nomatch h
  | some bytes =>
      refine .value_bind rfl (.bind shows_parseAddress ?_)
      rintro _ _ ⟨rfl, rfl⟩
      split
      · next extraction hhtml =>
          refine .known rfl fun _ h => ?_
          cases h
          exact ⟨bytes, [], rfl, rfl, hhtml⟩
      · next candidates hhtml =>
          refine .bind ends_rejectQuality fun once _ honce => .known rfl fun _ h => ?_
          cases h
          exact ⟨bytes, once, by simp [runEvents], honce, _, hhtml⟩
      · next e hhtml =>
          refine .bind ends_failRun fun once _ honce => .known rfl fun _ h => ?_
          cases h
          exact ⟨bytes, once, by simp [runEvents], honce, _, hhtml⟩

/-- A run that is ended after a reply that names no DOM. -/
theorem shows_unanswered {reply : Except RenderRequestError RenderOutcome} {q : Process Unit}
    (hreply : ∀ completed, reply ≠ .ok (.completed completed))
    (hq : Shows runEvents q fun events _ => EndsOnce run events) :
    Shows runEvents (q >>= fun _ => return (none : Option Extraction)) fun events converted =>
      match converted with
      | some _ => DomConverted lib config run (.replied reply :: events)
      | none => ∃ asked once, .replied reply :: events = asked ++ once ∧
          DomRefused lib config run asked ∧ EndsOnce run once := by
  refine hq.bind fun once _ honce => .known rfl fun _ h => ?_
  cases h
  exact ⟨[.replied reply], once, by simp, .failed hreply, honce⟩

/-- A render is asked for once; what it delivers is returned where it converts, and otherwise the
run is ended. -/
theorem shows_escalateToRender :
    Shows runEvents (escalateToRender lib config run fetched) fun events converted =>
      match converted with
      | some _ => DomConverted lib config run events
      | none => ∃ asked once, events = asked ++ once ∧ DomRefused lib config run asked ∧
          EndsOnce run once := by
  refine .silent_call (fun _ => rfl) fun renderId => .silent_call (fun _ => rfl) fun operationId =>
    .call_bind fun reply => ?_
  split
  · next completed =>
      refine shows_convertRendered.imp ?_
      rintro _ (_ | extraction) ⟨bytes, once, rfl, hconverted⟩
      · obtain ⟨honce, e, hhtml⟩ := hconverted
        exact ⟨_, once, rfl, .unconverted hhtml, honce⟩
      · obtain ⟨rfl, hhtml⟩ := hconverted
        exact ⟨completed, bytes, extraction, rfl, hhtml⟩
  · exact shows_unanswered (fun _ h => nomatch h) ends_failRun
  · exact shows_unanswered (fun _ h => nomatch h) ends_failRun
  · exact shows_unanswered (fun _ h => nomatch h) ends_failRun

/-- What the escalation of a page has done. -/
theorem shows_spendBudgetAndEscalate :
    Shows runEvents (spendBudgetAndEscalate lib config run fetched) fun events step =>
      match step with
      | .completed => EndsRun lib config run events
      | .workerTerminal => ∃ asked once, events = asked ++ once ∧ DomRefused lib config run asked ∧
          EndsOnce run once
      | .budgetExhausted => events = [] := by
  refine .silent_call (fun _ => rfl) fun budget => ?_
  match budget with
  | .error e => exact .known rfl fun _ h => nomatch h
  | .ok .exhausted =>
      refine .value_bind rfl (.known rfl fun _ h => ?_)
      cases h
      exact rfl
  | .ok (.consumed count) =>
      refine .value_bind rfl (shows_escalateToRender.bind ?_)
      rintro asked (_ | extraction) hasked
      · refine .known rfl fun _ h => ?_
        cases h
        simpa using hasked
      · refine ends_completeDocument.bind fun once _ honce => .known rfl fun _ h => ?_
        cases h
        rw [List.append_nil]
        exact .rendered hasked honce

/-- A page of low quality: one terminal call, and one more after a render that was refused. -/
theorem ends_escalateHtml {rawHtml : List UInt8} {candidates : List CandidateDecision} :
    Shows runEvents (escalateHtml lib config run fetched rawHtml candidates) fun events _ =>
      EndsRun lib config run events := by
  simp only [escalateHtml]
  split
  · refine shows_spendBudgetAndEscalate.bind ?_
    rintro events (_ | _ | _) hevents
    · refine .known rfl fun _ _ => ?_
      rwa [List.append_nil]
    · obtain ⟨asked, once, rfl, hasked, honce⟩ := hevents
      -- `complete_html` goes on after `WorkerTerminal` and rejects the page
      refine ends_rejectQuality.imp fun twice _ htwice => ?_
      rw [List.append_assoc]
      exact .again hasked honce htwice
    · subst hevents
      exact ends_rejectQuality.imp fun once _ honce => .plainly honce
  · exact ends_rejectQuality.imp fun once _ honce => .plainly honce

theorem ends_completeHtml :
    Shows runEvents (completeHtml lib config run fetched) fun events _ =>
      EndsRun lib config run events := by
  refine shows_verified (ends_failRun.imp fun _ _ => .plainly) fun bytes => ?_
  refine .silent_bind silent_parseAddress fun address => ?_
  split
  · exact ends_completeDocument.imp fun _ _ => .plainly
  · exact ends_escalateHtml
  · exact ends_failRun.imp fun _ _ => .plainly

/-! ### PDF -/

theorem ends_finishPdf {raw : BlobRef} {address : String} {bytes : List UInt8}
    {fetched : Option FetchResult} :
    Shows runEvents (finishPdf lib config run raw address bytes fetched) fun events _ =>
      EndsOnce run events := by
  rw [finishPdf.eq_def]
  split
  · exact ends_completeDocument
  · exact ends_completeBlobDocument
  · exact ends_rejectQuality
  · exact ends_rejectBlobQuality
  · exact ends_failRun
  · exact ends_failRun

theorem ends_completePdf :
    Shows runEvents (completePdf lib config run fetched) fun events _ => EndsOnce run events :=
  shows_verified ends_failRun fun _ => .silent_bind silent_parseAddress fun _ => ends_finishPdf

theorem ends_completeBlobPdf {blob : BlobRef} :
    Shows runEvents (completeBlobPdf lib config run blob) fun events _ => EndsOnce run events := by
  rw [completeBlobPdf]
  split
  · exact ends_failRun
  refine .silent_call (fun _ => rfl) fun verified => ?_
  cases verified with
  | error error => exact ends_failRun
  | ok u =>
      dsimp only
      split
      · exact ends_failRun
      refine .silent_call (fun _ => rfl) fun bytes => ?_
      cases bytes with
      | none => exact ends_failRun
      | some bytes =>
          refine .silent_call (fun _ => rfl) fun stored => ?_
          refine .silent_bind (.known rfl fun _ _ => rfl) fun raw => ?_
          split
          · exact ends_failRun
          · exact .silent_bind silent_parseAddress fun address => ends_finishPdf

/-! ### Providers -/

theorem ends_resolveExternalArticle {extraction : ProviderExtraction} {target : String} :
    Shows runEvents (resolveExternalArticle lib config run extraction target) fun events _ =>
      EndsOnce run events := by
  refine .silent_call (fun _ => rfl) fun fetched => ?_
  split
  · exact ends_failRun
  · exact ends_failRun
  · exact ends_failRun
  · split
    · exact ends_failRun
    refine shows_verified ends_failRun fun bytes => ?_
    refine .silent_bind silent_parseAddress fun address => ?_
    split
    · exact ends_failRun
    · exact ends_completeDocument

theorem ends_fallback {providerClass : String} :
    Shows runEvents (fallbackToGenericHtml lib config run providerClass) fun events _ =>
      EndsOnce run events := by
  refine .silent_call (fun _ => rfl) fun fetched => ?_
  cases fetched with
  | error error => exact ends_failRun
  | ok fetched =>
      dsimp only
      split
      · exact ends_failRun
      refine shows_verified ends_failRun fun bytes => ?_
      refine .silent_bind silent_parseAddress fun address => ?_
      split
      · exact ends_completeDocument
      · exact ends_rejectQuality
      · exact ends_failRun

/-- The response is recorded, and the page is retrieved instead. -/
theorem ends_recordAndFallback {fetch : CompletedFetch} {providerClass : String} :
    Shows runEvents (recordFetchNow run fetch >>= fun _ =>
      fallbackToGenericHtml lib config run providerClass) fun events _ => EndsOnce run events :=
  .silent_bind silent_recordFetch fun _ => ends_fallback

theorem ends_completeProvider {route : ProviderRoute} {address : String} :
    Shows runEvents (completeProvider lib config route address run) fun events _ =>
      EndsOnce run events := by
  refine .silent_call (fun _ => rfl) fun fetched => ?_
  cases fetched with
  | error error => exact ends_failRun
  | ok fetched =>
      dsimp only
      split
      · exact ends_recordAndFallback
      refine shows_verified ends_failRun fun bytes => ?_
      refine .silent_bind silent_parseAddress fun payloadAddress => ?_
      rw [continueProvider.eq_def]
      split
      · exact ends_rejectQuality
      · exact ends_failRun
      · exact ends_recordAndFallback
      · split
        · exact .silent_bind silent_recordFetch fun _ => ends_resolveExternalArticle
        · exact ends_completeDocument

/-! ### YouTube -/

theorem silent_writeTimingDiagnostics {sidecar : TimingSidecar} {archival : String} :
    Shows runEvents (writeTimingDiagnostics lib run sidecar archival) fun events _ =>
      events = [] := by
  rw [writeTimingDiagnostics]
  refine .silent_bind ?_ fun payload => .silent_call (fun _ => rfl) fun stored => ?_
  · cases lib.timingJson sidecar archival <;> exact .known rfl fun _ _ => rfl
  refine .silent_bind (.known rfl fun _ _ => rfl) fun reference => ?_
  refine .silent_call (fun _ => rfl) fun row => .silent_bind ?_ fun row => .silent_bind ?_
    fun owner => ?_
  · cases row <;> exact .known rfl fun _ _ => rfl
  · cases row <;> exact .known rfl fun _ _ => rfl
  refine .silent_call (fun _ => rfl) fun recorded => ?_
  cases recorded <;> exact .known rfl fun _ _ => rfl

/-- The archival of the video follows the terminal call and makes none. -/
theorem ends_completeTranscript {videoId watchAddress : String} {trackFetch : FetchResult}
    {converted : Except YoutubeError TranscriptExtraction} :
    Shows runEvents (completeTranscript lib run videoId watchAddress trackFetch converted)
      fun events _ => EndsOnce run events := by
  rw [completeTranscript.eq_def]
  split
  · exact .known rfl fun _ h => by cases h
  · exact ends_failRun
  · refine ends_completeDocument.bind fun once _ honce => .silent_call (fun _ => rfl) fun _ => ?_
    refine silent_writeTimingDiagnostics.imp fun _ _ hsilent => ?_
    rw [hsilent, List.append_nil]
    exact honce

theorem ends_completeTrack {videoId watchAddress : String} {playerMeta : PlayerMeta}
    {track : CaptionTrack} :
    Shows runEvents (completeTrack lib config run videoId watchAddress fetched playerMeta track)
      fun events _ => EndsOnce run events := by
  refine .silent_call (fun _ => rfl) fun trackFetch => ?_
  cases trackFetch with
  | error error => exact ends_failRun
  | ok trackFetch =>
      dsimp only
      split
      · exact ends_failRun
      refine shows_verified ends_failRun fun bytes => ?_
      split
      · exact ends_failRun
      · exact .silent_bind silent_parseAddress fun address => ends_completeTranscript

theorem ends_completeYoutubeFlow {videoId watchAddress : String} :
    Shows runEvents (completeYoutubeFlow lib config run videoId watchAddress) fun events _ =>
      EndsOnce run events := by
  refine .silent_call (fun _ => rfl) fun fetched => ?_
  cases fetched with
  | error error => exact ends_failRun
  | ok fetched =>
      dsimp only
      split
      · exact ends_recordAndFallback
      refine shows_verified ends_failRun fun bytes => ?_
      rw [completePlayer.eq_def]
      split
      · exact ends_failRun
      · exact ends_recordAndFallback
      · split
        · exact ends_rejectQuality
        · exact ends_rejectQuality
        · exact .silent_bind silent_recordFetch fun _ => ends_completeTrack

/-! ### The run -/

/-- **The terminal calls of a run.** On every route and for every sequence of answers, an execution
that returns `Ok` has made one terminal call, or two after a render that was refused. -/
theorem ends_processRun :
    Shows runEvents (processRun lib config run) fun events _ => EndsRun lib config run events := by
  rw [processRun]
  split
  · exact ends_completeBlobPdf.imp fun _ _ => .plainly
  refine .silent_bind (.known rfl fun _ _ => rfl) fun native => ?_
  split
  · exact ends_completeProvider.imp fun _ _ => .plainly
  split
  · split
    · exact ends_completeYoutubeFlow.imp fun _ _ => .plainly
    · exact ends_fallback.imp fun _ _ => .plainly
  refine .silent_call (fun _ => rfl) fun fetched => ?_
  cases fetched with
  | error error => exact ends_failRun.imp fun _ _ => .plainly
  | ok fetched =>
      dsimp only
      split
      · exact ends_completeHtml
      · split
        · exact ends_completePdf.imp fun _ _ => .plainly
        · exact ends_failRun.imp fun _ _ => .plainly

end Flows

/-! ### Counting -/

/-- The label of an event that is a terminal call. -/
def RunEvent.endLabels : RunEvent → List String
  | .ended call _ => [call.outcome.text]
  | _ => []

/-- The label of an event that is an increment. -/
def RunEvent.increments : RunEvent → List String
  | .incremented outcome => [outcome]
  | _ => []

section Counting

variable {lib : PipelineLib} {config : ExtractorConfig} {run : QueuedRun} {tr : Trace RunOp}
  {events : List RunEvent}

/-- What is seen of an exchange determines its labels. -/
theorem endLabels_eq (x : Exchange RunOp) :
    endLabels x = (runEvents x).flatMap RunEvent.endLabels := by
  obtain ⟨request, answer⟩ := x
  cases request with
  | terminal call => cases answer <;> rfl
  | workerRead root dom => cases answer <;> rfl
  | _ => rfl

theorem runsTotal_eq (x : Exchange RunOp) :
    runsTotal x = (runEvents x).flatMap RunEvent.increments := by
  obtain ⟨request, answer⟩ := x
  cases request with
  | terminal call => cases answer <;> rfl
  | workerRead root dom => cases answer <;> rfl
  | _ => rfl

theorem flatMap_endLabels (tr : Trace RunOp) :
    tr.flatMap endLabels = (tr.flatMap runEvents).flatMap RunEvent.endLabels := by
  rw [List.flatMap_assoc]
  exact List.flatMap_congr fun x _ => endLabels_eq x

theorem flatMap_runsTotal (tr : Trace RunOp) :
    tr.flatMap runsTotal = (tr.flatMap runEvents).flatMap RunEvent.increments := by
  rw [List.flatMap_assoc]
  exact List.flatMap_congr fun x _ => runsTotal_eq x

/-- The exchanges behind an event. -/
theorem mem_runEvents {event : RunEvent} {x : Exchange RunOp} : event ∈ runEvents x ↔
    match event with
    | .ended call completion => x = ⟨.terminal call, .ok completion⟩
    | .incremented outcome => x = ⟨.countRun outcome, ()⟩
    | .replied reply => ∃ command, x = ⟨.render command, reply⟩
    | .rendered dom bytes => ∃ root, x = ⟨.workerRead root dom, some bytes⟩ := by
  constructor
  · intro h
    obtain ⟨request, answer⟩ := x
    cases request with
    | terminal call =>
        cases answer with
        | error e => cases h
        | ok completion =>
            obtain rfl := List.mem_singleton.mp h
            exact rfl
    | countRun outcome =>
        obtain rfl := List.mem_singleton.mp h
        exact rfl
    | render command =>
        obtain rfl := List.mem_singleton.mp h
        exact ⟨command, rfl⟩
    | workerRead root dom =>
        cases answer with
        | none => cases h
        | some bytes =>
            obtain rfl := List.mem_singleton.mp h
            exact ⟨root, rfl⟩
    | _ => cases h
  · intro h
    cases event with
    | ended call completion =>
        obtain rfl : x = _ := h
        exact List.mem_singleton_self _
    | incremented outcome =>
        obtain rfl : x = _ := h
        exact List.mem_singleton_self _
    | replied reply =>
        obtain ⟨command, rfl⟩ := h
        exact List.mem_singleton_self _
    | rendered dom bytes =>
        obtain ⟨root, rfl⟩ := h
        exact List.mem_singleton_self _

/-- A render that was refused, as it is seen. -/
theorem renderRefused_iff : RenderRefused lib config run tr ↔
    ∃ reply, .replied reply ∈ tr.flatMap runEvents ∧
      ¬ ∃ completed bytes extraction, reply = .ok (.completed completed) ∧
        .rendered completed.dom bytes ∈ tr.flatMap runEvents ∧
        renderedHtml lib config run completed bytes = .ok extraction := by
  have hreplied : ∀ reply, .replied reply ∈ tr.flatMap runEvents ↔
      ∃ command, ⟨.render command, reply⟩ ∈ tr := by
    intro reply
    simp only [List.mem_flatMap, mem_runEvents]
    exact ⟨fun ⟨_, hx, command, heq⟩ => ⟨command, heq ▸ hx⟩,
      fun ⟨command, hx⟩ => ⟨_, hx, command, rfl⟩⟩
  have hrendered : ∀ dom bytes, .rendered dom bytes ∈ tr.flatMap runEvents ↔
      ∃ root, ⟨.workerRead root dom, some bytes⟩ ∈ tr := by
    intro dom bytes
    simp only [List.mem_flatMap, mem_runEvents]
    exact ⟨fun ⟨_, hx, root, heq⟩ => ⟨root, heq ▸ hx⟩, fun ⟨root, hx⟩ => ⟨_, hx, root, rfl⟩⟩
  simp only [hreplied, hrendered]
  constructor
  · rintro ⟨command, reply, hx, hnot⟩
    refine ⟨reply, ⟨command, hx⟩, ?_⟩
    rintro ⟨completed, bytes, extraction, hreply, ⟨root, hread⟩, hhtml⟩
    exact hnot ⟨completed, root, bytes, extraction, hreply, hread, hhtml⟩
  · rintro ⟨reply, ⟨command, hx⟩, hnot⟩
    refine ⟨command, reply, hx, ?_⟩
    rintro ⟨completed, root, bytes, extraction, hreply, hread, hhtml⟩
    exact hnot ⟨completed, bytes, extraction, hreply, ⟨root, hread⟩, hhtml⟩

/-- The terminal calls of an execution are for its run. -/
theorem EndsRun.runId (h : EndsRun lib config run events) {call : TerminalCall}
    {completion : Completion} (hmem : .ended call completion ∈ events) :
    call.runId = run.runId := by
  have honce : ∀ {once : List RunEvent}, EndsOnce run once → .ended call completion ∈ once →
      call.runId = run.runId := by
    rintro _ ⟨call', completion', hid, rfl⟩ hmem
    obtain ⟨rfl, rfl⟩ : call = call' ∧ completion = completion' := by simpa using hmem
    exact hid
  cases h with
  | plainly h => exact honce h hmem
  | rendered hasked h =>
      obtain ⟨completed, bytes, extraction, rfl, -⟩ := hasked
      rcases List.mem_append.mp hmem with hmem | hmem
      · simp at hmem
      · exact honce h hmem
  | again hasked h h' =>
      rcases List.mem_append.mp hmem with hmem | hmem
      · cases hasked <;> simp at hmem
      · rcases List.mem_append.mp hmem with hmem | hmem
        · exact honce h hmem
        · exact honce h' hmem

/-- An execution that returns `Ok` has made a terminal call. -/
theorem EndsRun.exists_ended (h : EndsRun lib config run events) :
    ∃ call completion, .ended call completion ∈ events := by
  cases h with
  | plainly h =>
      obtain ⟨call, completion, -, rfl⟩ := h
      exact ⟨call, completion, by simp⟩
  | rendered hasked h =>
      obtain ⟨call, completion, -, rfl⟩ := h
      exact ⟨call, completion, by simp⟩
  | again hasked h h' =>
      obtain ⟨call, completion, -, rfl⟩ := h
      exact ⟨call, completion, by simp⟩

/-- So there is a label. -/
theorem EndsRun.labelled (h : EndsRun lib config run (tr.flatMap runEvents)) :
    tr.flatMap endLabels ≠ [] := by
  obtain ⟨call, completion, hmem⟩ := h.exists_ended
  have hlabel : call.outcome.text ∈ (RunEvent.ended call completion).endLabels :=
    List.mem_singleton_self _
  rw [flatMap_endLabels]
  exact List.ne_nil_of_mem (List.mem_flatMap.mpr ⟨_, hmem, hlabel⟩)

theorem EndsOnce.increments (h : EndsOnce run events) :
    events.flatMap RunEvent.increments = events.flatMap RunEvent.endLabels := by
  obtain ⟨call, completion, -, rfl⟩ := h
  rfl

/-- What was seen of the render worker is no increment. -/
theorem DomRefused.increments (h : DomRefused lib config run events) :
    events.flatMap RunEvent.increments = events.flatMap RunEvent.endLabels := by
  cases h <;> rfl

/-- **The counter is incremented at the terminal calls that returned**, with their labels. -/
theorem EndsRun.runsTotal_eq (h : EndsRun lib config run (tr.flatMap runEvents)) :
    tr.flatMap runsTotal = tr.flatMap endLabels := by
  rw [flatMap_runsTotal, flatMap_endLabels]
  generalize tr.flatMap runEvents = events at h
  cases h with
  | plainly h => exact h.increments
  | rendered hasked h =>
      obtain ⟨completed, bytes, extraction, rfl, -⟩ := hasked
      rw [List.flatMap_append, List.flatMap_append, h.increments]
      rfl
  | again hasked h h' =>
      simp only [List.flatMap_append, hasked.increments, h.increments, h'.increments]

/-- **A run is counted once exactly where no render is refused.** -/
theorem counted_once_iff (h : EndsRun lib config run (tr.flatMap runEvents)) :
    (tr.flatMap runsTotal).length = 1 ↔ ¬ RenderRefused lib config run tr := by
  rw [h.runsTotal_eq, flatMap_endLabels, renderRefused_iff]
  generalize tr.flatMap runEvents = events at h
  cases h with
  | plainly h =>
      obtain ⟨call, completion, -, rfl⟩ := h
      simp [RunEvent.endLabels]
  | rendered hasked h =>
      obtain ⟨completed, bytes, extraction, rfl, hhtml⟩ := hasked
      obtain ⟨call, completion, -, rfl⟩ := h
      refine ⟨fun _ => ?_, fun _ => rfl⟩
      rintro ⟨reply, hmem, hnot⟩
      have hreply : reply = .ok (.completed completed) := by simpa using hmem
      exact hnot ⟨completed, bytes, extraction, hreply, by simp, hhtml⟩
  | again hasked h h' =>
      obtain ⟨call, completion, -, rfl⟩ := h
      obtain ⟨call', completion', -, rfl⟩ := h'
      cases hasked with
      | @failed reply hreply =>
          refine ⟨fun hone => by simp [RunEvent.endLabels] at hone, fun hnot => ?_⟩
          refine (hnot ⟨reply, by simp, ?_⟩).elim
          rintro ⟨completed, -, -, heq, -⟩
          exact hreply completed heq
      | @unconverted completed bytes e hhtml =>
          refine ⟨fun hone => by simp [RunEvent.endLabels] at hone, fun hnot => ?_⟩
          refine (hnot ⟨_, List.mem_cons_self, ?_⟩).elim
          rintro ⟨completed', bytes', extraction, heq, hmem, hhtml'⟩
          cases heq
          obtain rfl : bytes' = bytes := by simpa using hmem
          cases hhtml.symm.trans hhtml'

end Counting

/-! ### Other workers -/

/-- What other parties may do to a run: its status moves as the ledger allows. -/
def StatusMoves (runId : Uuid) (db db' : Db) : Prop :=
  ∀ status, db.statuses runId = [status] →
    ∃ status', db'.statuses runId = [status'] ∧ status.Moves status'

/-- The moments of one execution, where other parties change the database by `others`. -/
inductive Interleaved (others : Db → Db → Prop) (contracts : Contracts) :
    Db → List Moment → Db → Prop
  | nil (db : Db) : Interleaved others contracts db [] db
  | others {db db₁ db' : Db} {moments : List Moment} (h : others db db₁)
      (hrest : Interleaved others contracts db₁ moments db') :
      Interleaved others contracts db moments db'
  | next {m : Moment} {db₁ db' : Db} {moments : List Moment} (h : m.Effect contracts db₁)
      (hrest : Interleaved others contracts db₁ moments db') :
      Interleaved others contracts m.db (m :: moments) db'

/-- **A run that is counted once**, under the terminal status that it has. -/
def RunCounted (runId : Uuid) (tr : Trace RunOp) (db : Db) : Prop :=
  ∃ status, db.statuses runId = [status] ∧ status.terminal = true ∧
    tr.flatMap runsTotal = [status.text]

/-- A terminal call that returned and found the run over, with another status than its own:
another worker had ended the run differently. -/
def Moment.Overtaken (runId : Uuid) (m : Moment) : Prop :=
  match m.exchange with
  | ⟨.terminal call, .ok _⟩ =>
      ∃ status, m.db.statuses runId = [status] ∧ status.terminal = true ∧ status ≠ call.outcome
  | _ => False

section Statuses

variable {runId : Uuid} {db db' : Db} {status status' status'' : RunStatus} {now : Timestamp}
  {contracts : Contracts} {m : Moment} {call : TerminalCall} {completion : Completion}

/-- A leased run stays leased or is over. -/
theorem RunStatus.Moves.leased (h : status.Moves status') (hleased : status ≠ .queued) :
    status' ≠ .queued := by
  cases h with
  | stay => exact hleased
  | lease => exact absurd rfl hleased
  | succeed => exact RunStatus.noConfusion
  | fail => exact RunStatus.noConfusion

theorem RunStatus.Moves.trans (h : status.Moves status') (h' : status'.Moves status'')
    (hleased : status ≠ .queued) : status.Moves status'' := by
  cases h with
  | stay => exact h'
  | lease => exact absurd rfl hleased
  | succeed =>
      cases h'
      exact .succeed
  | fail =>
      cases h'
      exact .fail

/-- A run that is over keeps its status. -/
theorem RunStatus.Moves.of_terminal (h : status.Moves status') (hover : status.terminal = true) :
    status' = status := by
  cases h with
  | stay => rfl
  | lease => cases hover
  | succeed => cases hover
  | fail => cases hover

theorem RunStatus.terminal_of_leased (hleased : status ≠ .queued) (h : status ≠ .running) :
    status.terminal = true := by
  cases status with
  | queued => exact absurd rfl hleased
  | running => exact absurd rfl h
  | succeeded => rfl
  | failed => rfl

theorem RunStatus.text_inj (h : status.text = status'.text) : status = status' := by
  cases status <;> cases status' <;> simp_all [RunStatus.text]

/-- The status that a terminal call gives is one that a running run can have next. -/
theorem TerminalCall.outcome_moves (call : TerminalCall) :
    RunStatus.running.Moves call.outcome := by
  cases call with
  | complete run success => exact .succeed
  | failRun runId failureClass retryable steps => exact .fail
  | reject runId rejection => exact .fail

theorem StatusMoves.of_eq (h : db'.statuses runId = db.statuses runId) :
    StatusMoves runId db db' :=
  fun status hstatus => ⟨status, h.trans hstatus, .stay⟩

/-- A terminal call that finds no running run succeeds as a duplicate only. -/
theorem TerminalCall.missed_eq_ok (h : call.missed db = .ok completion) :
    completion = .duplicate := by
  cases call with
  | failRun runId failureClass retryable steps => exact (Except.ok.inj h).symm
  | reject runId rejection => exact (Except.ok.inj h).symm
  | complete run success =>
      rw [TerminalCall.missed] at h
      split at h
      · exact (Except.ok.inj h).symm
      · cases h

/-- **What a terminal call that returned did**: it ended the run that was running, or it found the
run in another state and left it. -/
theorem TerminalCall.perform_statuses
    (h : call.perform contracts now db = (.ok completion, db'))
    (hstatus : db.statuses call.runId = [status]) :
    status = .running ∧ completion = .applied ∧ db'.statuses call.runId = [call.outcome] ∨
      status ≠ .running ∧ completion = .duplicate ∧ db' = db := by
  have hrunning : (∃ row, enterRun call.runId db = some row) ↔ status = .running := by
    rw [enterRun_isSome_iff, hstatus, List.mem_singleton, eq_comm]
  rcases TerminalCall.perform_cases h with ⟨row, henter, happlied, hcommit⟩ | ⟨rfl, hmissed⟩
  · obtain rfl := hrunning.mp ⟨row, henter⟩
    have hafter := Db.statuses_of_update call.runId (TerminalCall.commit_eq_ok hcommit).runs
    refine Or.inl ⟨rfl, Except.ok.inj happlied, ?_⟩
    simpa [hstatus] using hafter
  · have henter : enterRun call.runId db' = none := hmissed completion rfl
    have hnot : status ≠ .running := by
      intro hstatus
      obtain ⟨row, hrow⟩ := hrunning.mpr hstatus
      cases henter.symm.trans hrow
    refine Or.inr ⟨hnot, ?_, rfl⟩
    cases hprecheck : call.precheck with
    | error e =>
        rw [TerminalCall.perform_of_refused hprecheck] at h
        cases (Prod.mk.inj h).1
    | ok _ =>
        rw [TerminalCall.perform_of_missed hprecheck henter] at h
        exact TerminalCall.missed_eq_ok (Prod.mk.inj h).1

/-- An exchange other than a terminal call that returned leaves the statuses. -/
theorem Moment.Effect.statuses (h : m.Effect contracts db') (hquiet : endLabels m.exchange = []) :
    db'.statuses runId = m.db.statuses runId := by
  obtain ⟨now, db, request, answer⟩ := m
  cases request with
  | terminal call =>
      cases answer with
      | ok completion =>
          cases hquiet
      | error e =>
          rcases h with h | ⟨-, rfl⟩
          · rcases TerminalCall.perform_cases h with ⟨row, -, happlied, -⟩ | ⟨rfl, -⟩
            · cases happlied
            · rfl
          · rfl
  | recordFetch id fetch =>
      rcases h with h | ⟨-, rfl⟩
      · rcases recordFetch_cases h with ⟨-, rfl⟩ | ⟨-, rfl⟩
        · rfl
        · rfl
      · rfl
  | recordDiagnostics id owner reference =>
      cases h
      cases answer <;> rfl
  | _ =>
      cases h
      rfl

/-- The effect of a terminal call that returned. -/
theorem Moment.Effect.performed (h : m.Effect contracts db')
    (hterminal : m.exchange = ⟨.terminal call, .ok completion⟩) :
    call.perform contracts m.now m.db = (.ok completion, db') := by
  obtain ⟨now, db, x⟩ := m
  obtain rfl : x = _ := hterminal
  rcases h with h | ⟨h, -⟩
  · exact h
  · cases h

/-- What has a label is a terminal call that returned. -/
theorem terminal_of_label {x : Exchange RunOp} (h : endLabels x ≠ []) :
    ∃ call completion, x = ⟨.terminal call, .ok completion⟩ := by
  obtain ⟨request, answer⟩ := x
  cases request with
  | terminal call =>
      cases answer with
      | error e => cases call <;> exact absurd rfl h
      | ok completion => exact ⟨call, completion, rfl⟩
  | _ => exact absurd rfl h

/-- **An exchange moves the status of a run forward.** -/
theorem Moment.Effect.statusMoves (h : m.Effect contracts db') : StatusMoves runId m.db db' := by
  by_cases hquiet : endLabels m.exchange = []
  · exact .of_eq (h.statuses hquiet)
  · obtain ⟨call, completion, hterminal⟩ := terminal_of_label hquiet
    rcases TerminalCall.perform_cases (h.performed hterminal) with ⟨row, -, -, hcommit⟩ | ⟨rfl, -⟩
    · have hafter := Db.statuses_of_update runId (TerminalCall.commit_eq_ok hcommit).runs
      intro status hstatus
      rw [hstatus] at hafter
      refine ⟨_, hafter, ?_⟩
      dsimp only
      split
      · next hended =>
          rw [hended.2]
          exact call.outcome_moves
      · exact .stay
    · exact .of_eq rfl

/-- A party that leaves the run alone. -/
theorem LeftAlone.statusMoves (h : LeftAlone runId db db') : StatusMoves runId db db' :=
  .of_eq h.statuses

/-- A change of the ledger is something that other parties may do. -/
theorem LedgerInv.statusMoves {urls : UrlLib} {commands : CommandLib} {s t : Ledger}
    (h : LedgerInv contracts s) (hchange : LedgerChange urls commands contracts s t) :
    StatusMoves runId s.db t.db := by
  intro status hstatus
  have hmem : status ∈ s.db.statuses runId := hstatus ▸ List.mem_singleton_self status
  obtain ⟨r, hr, rfl⟩ := List.mem_map.mp hmem
  obtain ⟨hr, hid⟩ := List.mem_filter.mp hr
  obtain ⟨r', hr', hid', hmoves⟩ := (h.runsMove hchange).kept r hr
  refine ⟨r'.status, ?_, hmoves⟩
  have hkey : r'.runId = runId := hid'.trans (beq_iff_eq.mp hid)
  rw [Db.statuses, ← hkey, Rows.filter_key (h.change hchange).runIds hr']
  rfl

end Statuses

/-! ### Executions beside others -/

section Executions

variable {others : Db → Db → Prop} {contracts : Contracts} {runId : Uuid} {db db' : Db}
  {moments pre post : List Moment} {m : Moment} {status : RunStatus}

/-- An execution of a run that is left alone. -/
theorem Attempt.interleaved (h : Attempt contracts runId db moments db') :
    Interleaved (LeftAlone runId) contracts db moments db' := by
  induction h with
  | nil db => exact .nil db
  | others halone _ ih => exact .others halone ih
  | next heffect _ ih => exact .next heffect ih

/-- An execution around one of its moments. -/
theorem Interleaved.split (h : Interleaved others contracts db (pre ++ m :: post) db') :
    ∃ db₁, Interleaved others contracts db pre m.db ∧ m.Effect contracts db₁ ∧
      Interleaved others contracts db₁ post db' := by
  generalize hmoments : pre ++ m :: post = moments at h
  induction h generalizing pre with
  | nil db => cases pre <;> cases hmoments
  | others hstep _ ih =>
      obtain ⟨db₁, hpre, heffect, hpost⟩ := ih hmoments
      exact ⟨db₁, .others hstep hpre, heffect, hpost⟩
  | @next first db₂ db' rest hstep hrest ih =>
      cases pre with
      | nil =>
          obtain ⟨rfl, rfl⟩ := List.cons.inj hmoments
          exact ⟨db₂, .nil _, hstep, hrest⟩
      | cons x pre =>
          obtain ⟨rfl, htail⟩ := List.cons.inj hmoments
          obtain ⟨db₁, hpre, heffect, hpost⟩ := ih htail
          exact ⟨db₁, .next hstep hpre, heffect, hpost⟩

/-- **The status of a run moves forward during an execution.** -/
theorem Interleaved.statusMoves (h : Interleaved others contracts db moments db')
    (hothers : ∀ {db db'}, others db db' → StatusMoves runId db db')
    (hstatus : db.statuses runId = [status]) (hleased : status ≠ .queued) :
    ∃ status', db'.statuses runId = [status'] ∧ status.Moves status' := by
  induction h generalizing status with
  | nil db => exact ⟨status, hstatus, .stay⟩
  | others hstep _ ih =>
      obtain ⟨status₁, hstatus₁, hmoves⟩ := hothers hstep status hstatus
      obtain ⟨status', hstatus', hmoves'⟩ := ih hstatus₁ (hmoves.leased hleased)
      exact ⟨status', hstatus', hmoves.trans hmoves' hleased⟩
  | next heffect _ ih =>
      obtain ⟨status₁, hstatus₁, hmoves⟩ := heffect.statusMoves status hstatus
      obtain ⟨status', hstatus', hmoves'⟩ := ih hstatus₁ (hmoves.leased hleased)
      exact ⟨status', hstatus', hmoves.trans hmoves' hleased⟩

/-- A run that is over keeps its status. -/
theorem Interleaved.status_of_over (h : Interleaved others contracts db moments db')
    (hothers : ∀ {db db'}, others db db' → StatusMoves runId db db')
    (hstatus : db.statuses runId = [status]) (hover : status.terminal = true) :
    db'.statuses runId = [status] := by
  have hleased : status ≠ .queued := by
    rintro rfl
    cases hover
  obtain ⟨status', hstatus', hmoves⟩ := h.statusMoves hothers hstatus hleased
  rwa [hmoves.of_terminal hover] at hstatus'

/-- A run that is left alone keeps its status until a terminal call returns. -/
theorem Interleaved.status_of_quiet (h : Interleaved (LeftAlone runId) contracts db moments db')
    (hquiet : ∀ m ∈ moments, endLabels m.exchange = []) :
    db'.statuses runId = db.statuses runId := by
  induction h with
  | nil db => rfl
  | others halone _ ih => exact (ih hquiet).trans halone.statuses
  | next heffect _ ih =>
      obtain ⟨hfirst, hrest⟩ := List.forall_mem_cons.mp hquiet
      exact (ih hrest).trans (heffect.statuses hfirst)

/-- Every terminal call that returned is for the run. -/
def EndsOnly (runId : Uuid) (moments : List Moment) : Prop :=
  ∀ m ∈ moments, ∀ call completion, m.exchange = ⟨.terminal call, .ok completion⟩ →
    call.runId = runId

/-- The first terminal call that returned. -/
theorem exists_first_end (h : (moments.map Moment.exchange).flatMap endLabels ≠ []) :
    ∃ pre m post call completion, moments = pre ++ m :: post ∧
      (∀ m ∈ pre, endLabels m.exchange = []) ∧
      m.exchange = ⟨.terminal call, .ok completion⟩ := by
  cases hfind : moments.find? fun m => !(endLabels m.exchange).isEmpty with
  | none =>
      refine absurd (List.flatMap_eq_nil_iff.mpr fun x hx => ?_) h
      obtain ⟨m, hm, rfl⟩ := List.mem_map.mp hx
      simpa using List.find?_eq_none.mp hfind m hm
  | some m =>
      obtain ⟨hcounted, pre, post, rfl, hpre⟩ := List.find?_eq_some_iff_append.mp hfind
      obtain ⟨call, completion, hterminal⟩ :=
        terminal_of_label (x := m.exchange) (by simpa using hcounted)
      exact ⟨pre, m, post, call, completion, rfl, by simpa using hpre, hterminal⟩

/-- Where one terminal call returned, no other one did. -/
theorem quiet_around {call : TerminalCall} {completion : Completion}
    (hone : (((pre ++ m :: post).map Moment.exchange).flatMap endLabels).length = 1)
    (hterminal : m.exchange = ⟨.terminal call, .ok completion⟩) :
    (∀ m ∈ pre, endLabels m.exchange = []) ∧ ∀ m ∈ post, endLabels m.exchange = [] := by
  have hm : (endLabels m.exchange).length = 1 := by
    rw [hterminal]
    rfl
  simp only [List.map_append, List.map_cons, List.flatMap_append, List.flatMap_cons,
    List.length_append, hm] at hone
  have hsilent : ∀ part : List Moment,
      ((part.map Moment.exchange).flatMap endLabels).length = 0 →
        ∀ m ∈ part, endLabels m.exchange = [] := by
    intro part hpart m hm
    exact List.flatMap_eq_nil_iff.mp (List.eq_nil_of_length_eq_zero hpart) _
      (List.mem_map_of_mem hm)
  exact ⟨hsilent pre (by omega), hsilent post (by omega)⟩

/-- Where no terminal call returned, nobody was overtaken. -/
theorem Moment.not_overtaken_of_quiet (h : endLabels m.exchange = []) : ¬ m.Overtaken runId := by
  obtain ⟨now, db, request, answer⟩ := m
  cases request with
  | terminal call =>
      cases answer with
      | error e => exact id
      | ok completion =>
          cases h
  | _ => exact id

theorem Moment.overtaken_iff {call : TerminalCall} {completion : Completion}
    (hterminal : m.exchange = ⟨.terminal call, .ok completion⟩)
    (hstatus : m.db.statuses runId = [status]) :
    m.Overtaken runId ↔ status.terminal = true ∧ status ≠ call.outcome := by
  rw [Moment.Overtaken, hterminal]
  simp [hstatus]

/-- **What a terminal call that returned has left.** It ended the run, or it found the run over; in
both cases the run keeps the status to the end of the execution. -/
theorem Interleaved.final_status {call : TerminalCall} {completion : Completion}
    (h : Interleaved others contracts db (pre ++ m :: post) db')
    (hothers : ∀ {db db'}, others db db' → StatusMoves runId db db')
    (hrunning : db.statuses runId = [.running]) (hid : call.runId = runId)
    (hterminal : m.exchange = ⟨.terminal call, .ok completion⟩) :
    ∃ status, m.db.statuses runId = [status] ∧
      (status = .running ∧ completion = .applied ∧ db'.statuses runId = [call.outcome] ∨
        status.terminal = true ∧ completion = .duplicate ∧ db'.statuses runId = [status]) := by
  obtain ⟨db₁, hpre, heffect, hpost⟩ := h.split
  obtain ⟨status, hstatus, hmoves⟩ := hpre.statusMoves hothers hrunning RunStatus.noConfusion
  have hleased : status ≠ .queued := hmoves.leased RunStatus.noConfusion
  refine ⟨status, hstatus, ?_⟩
  subst hid
  rcases TerminalCall.perform_statuses (heffect.performed hterminal) hstatus with
    ⟨hrunning, happlied, hended⟩ | ⟨hnot, hduplicate, rfl⟩
  · have hkept := hpost.status_of_over hothers hended call.outcome_terminal
    exact Or.inl ⟨hrunning, happlied, hkept⟩
  · have hover : status.terminal = true := RunStatus.terminal_of_leased hleased hnot
    exact Or.inr ⟨hover, hduplicate, hpost.status_of_over hothers hstatus hover⟩

/-- The only label is that of the terminal call. -/
theorem labels_around {call : TerminalCall} {completion : Completion}
    (hone : (((pre ++ m :: post).map Moment.exchange).flatMap endLabels).length = 1)
    (hterminal : m.exchange = ⟨.terminal call, .ok completion⟩) :
    ((pre ++ m :: post).map Moment.exchange).flatMap endLabels = [call.outcome.text] := by
  have hcounted : call.outcome.text ∈
      ((pre ++ m :: post).map Moment.exchange).flatMap endLabels := by
    refine List.mem_flatMap.mpr ⟨m.exchange, by simp, ?_⟩
    rw [hterminal]
    exact List.mem_singleton_self _
  obtain ⟨label, hlabel⟩ := List.length_eq_one_iff.mp hone
  rw [hlabel] at hcounted ⊢
  rw [List.mem_singleton.mp hcounted]

/-- Whether a worker was overtaken shows at its terminal call. -/
theorem overtaken_around {call : TerminalCall} {completion : Completion}
    (hone : (((pre ++ m :: post).map Moment.exchange).flatMap endLabels).length = 1)
    (hterminal : m.exchange = ⟨.terminal call, .ok completion⟩)
    (hstatus : m.db.statuses runId = [status]) :
    (∀ m' ∈ pre ++ m :: post, ¬ m'.Overtaken runId) ↔
      (status.terminal = true → status = call.outcome) := by
  obtain ⟨hpre, hpost⟩ := quiet_around hone hterminal
  simp only [List.forall_mem_append, List.forall_mem_cons, Moment.overtaken_iff hterminal hstatus]
  constructor
  · rintro ⟨-, hnot, -⟩ hover
    by_contra hne
    exact hnot ⟨hover, hne⟩
  · intro hsame
    refine ⟨fun m hm => Moment.not_overtaken_of_quiet (hpre m hm), ?_,
      fun m hm => Moment.not_overtaken_of_quiet (hpost m hm)⟩
    rintro ⟨hover, hne⟩
    exact hne (hsame hover)

/-- **One counted terminal call.** Where the counter is incremented at the terminal calls, the run
is counted as what it became, unless another worker had ended it differently before the call. -/
theorem Interleaved.counted_once_iff (h : Interleaved others contracts db moments db')
    (hothers : ∀ {db db'}, others db db' → StatusMoves runId db db')
    (hrunning : db.statuses runId = [.running]) (hends : EndsOnly runId moments)
    (hlabels : (moments.map Moment.exchange).flatMap runsTotal =
      (moments.map Moment.exchange).flatMap endLabels) :
    RunCounted runId (moments.map Moment.exchange) db' ↔
      ((moments.map Moment.exchange).flatMap runsTotal).length = 1 ∧
        ∀ m ∈ moments, ¬ m.Overtaken runId := by
  simp only [RunCounted, hlabels]
  by_cases hone : ((moments.map Moment.exchange).flatMap endLabels).length = 1
  · obtain ⟨pre, m, post, call, completion, rfl, -, hterminal⟩ := exists_first_end (by
      intro hnone
      rw [hnone] at hone
      cases hone)
    obtain ⟨status, hstatus, hfinal⟩ :=
      h.final_status hothers hrunning (hends m (by simp) call completion hterminal) hterminal
    rw [overtaken_around hone hterminal hstatus, labels_around hone hterminal]
    rcases hfinal with ⟨rfl, -, hended⟩ | ⟨hover, -, hkept⟩
    · refine ⟨fun _ => ⟨rfl, fun hover => ?_⟩, fun _ => ⟨_, hended, call.outcome_terminal, rfl⟩⟩
      cases hover
    · constructor
      · rintro ⟨status', hstatus', -, hlabel⟩
        obtain ⟨rfl, -⟩ := List.cons.inj (hkept.symm.trans hstatus')
        exact ⟨rfl, fun _ => RunStatus.text_inj (List.cons.inj hlabel).1.symm⟩
      · rintro ⟨-, hsame⟩
        exact ⟨status, hkept, hover, by rw [hsame hover]⟩
  · refine iff_of_false ?_ fun hboth => hone hboth.1
    rintro ⟨status, -, -, hlabels⟩
    rw [hlabels] at hone
    exact hone rfl

/-- An exchange that ended a run is a terminal call. -/
theorem terminal_of_applied {x : Exchange RunOp} (h : isApplied x = true) :
    ∃ call, x = ⟨.terminal call, .ok .applied⟩ := by
  obtain ⟨request, answer⟩ := x
  cases request with
  | terminal call =>
      match answer with
      | .ok .applied => exact ⟨call, rfl⟩
      | .ok .duplicate => cases h
      | .error e => cases h
  | _ => cases h

/-- A terminal call of a run that is over ends nothing. -/
theorem Interleaved.not_applied (h : Interleaved others contracts db moments db')
    (hothers : ∀ {db db'}, others db db' → StatusMoves runId db db')
    (hstatus : db.statuses runId = [status]) (hover : status.terminal = true)
    (hends : EndsOnly runId moments) : (moments.map Moment.exchange).countP isApplied = 0 := by
  refine List.countP_eq_zero.mpr fun x hx happlied => ?_
  obtain ⟨m, hm, rfl⟩ := List.mem_map.mp hx
  obtain ⟨call, hterminal⟩ := terminal_of_applied happlied
  obtain rfl := hends m hm call _ hterminal
  obtain ⟨pre, post, rfl⟩ := List.append_of_mem hm
  obtain ⟨db₁, hpre, heffect, -⟩ := h.split
  have hkept := hpre.status_of_over hothers hstatus hover
  rcases TerminalCall.perform_statuses (heffect.performed hterminal) hkept with
    ⟨rfl, -, -⟩ | ⟨-, hduplicate, -⟩
  · cases hover
  · cases hduplicate

/-- **A run that is left alone is ended by the first terminal call that returns**, and by no other
one. -/
theorem Attempt.applied_once (h : Attempt contracts runId db moments db')
    (hrunning : db.statuses runId = [.running]) (hends : EndsOnly runId moments)
    (hsome : (moments.map Moment.exchange).flatMap endLabels ≠ []) :
    (moments.map Moment.exchange).countP isApplied = 1 := by
  obtain ⟨pre, m, post, call, completion, rfl, hquiet, hterminal⟩ := exists_first_end hsome
  obtain rfl := hends m (by simp) call completion hterminal
  obtain ⟨db₁, hpre, heffect, hpost⟩ := h.interleaved.split
  have hstatus : m.db.statuses call.runId = [.running] :=
    (hpre.status_of_quiet hquiet).trans hrunning
  rcases TerminalCall.perform_statuses (heffect.performed hterminal) hstatus with
    ⟨-, rfl, hended⟩ | ⟨hnot, -, -⟩
  · have hbefore : (pre.map Moment.exchange).countP isApplied = 0 := by
      refine List.countP_eq_zero.mpr fun x hx happlied => ?_
      obtain ⟨m', hm', rfl⟩ := List.mem_map.mp hx
      obtain ⟨call', hterminal'⟩ := terminal_of_applied happlied
      have hcounted := hquiet m' hm'
      rw [hterminal'] at hcounted
      cases hcounted
    have hafter : (post.map Moment.exchange).countP isApplied = 0 :=
      hpost.not_applied LeftAlone.statusMoves hended call.outcome_terminal
        fun m' hm' => hends m' (by simp [hm'])
    rw [List.map_append, List.map_cons, List.countP_append, List.countP_cons, hbefore, hafter,
      hterminal]
    rfl
  · exact absurd rfl hnot

/-- A run that is left alone is overtaken by nobody. -/
theorem Attempt.not_overtaken (h : Attempt contracts runId db moments db')
    (hrunning : db.statuses runId = [.running])
    (hone : ((moments.map Moment.exchange).flatMap endLabels).length = 1) :
    ∀ m ∈ moments, ¬ m.Overtaken runId := by
  intro m hm hovertaken
  by_cases hquiet : endLabels m.exchange = []
  · exact Moment.not_overtaken_of_quiet hquiet hovertaken
  · obtain ⟨call, completion, hterminal⟩ := terminal_of_label hquiet
    obtain ⟨pre, post, rfl⟩ := List.append_of_mem hm
    obtain ⟨db₁, hpre, -, -⟩ := h.interleaved.split
    have hstatus : m.db.statuses runId = [.running] :=
      (hpre.status_of_quiet (quiet_around hone hterminal).1).trans hrunning
    cases ((Moment.overtaken_iff hterminal hstatus).mp hovertaken).1

end Executions

/-! ### Counting once -/

/-- **Runs are counted once**, unless a render was refused. An execution of `process_run` that
returns `Ok` increments the counter exactly once if and only if the render worker was not asked or
delivered a DOM that converts. A leased run that nobody else touches is ended by exactly one
terminal call, and under the same condition it is counted as what it became. Beside other workers
it is, under this condition, unless one of them had ended the run differently before. -/
theorem runs_counted_once_iff {lib : PipelineLib} {config : ExtractorConfig} {run : QueuedRun}
    {tr : Trace RunOp} (hexec : Exec (processRun lib config run).run tr (.ok ())) :
    ((tr.flatMap runsTotal).length = 1 ↔ ¬ RenderRefused lib config run tr) ∧
    ∀ contracts db moments db', moments.map Moment.exchange = tr →
      db.statuses run.runId = [.running] →
      (Attempt contracts run.runId db moments db' →
        tr.countP isApplied = 1 ∧
          (RunCounted run.runId tr db' ↔ ¬ RenderRefused lib config run tr)) ∧
      (Interleaved (StatusMoves run.runId) contracts db moments db' →
        (RunCounted run.runId tr db' ↔
          ¬ RenderRefused lib config run tr ∧ ∀ m ∈ moments, ¬ m.Overtaken run.runId)) := by
  have hshown : EndsRun lib config run (tr.flatMap runEvents) := ends_processRun tr () hexec
  have honce := counted_once_iff hshown
  refine ⟨honce, ?_⟩
  rintro contracts db moments db' rfl hrunning
  have hlabels := hshown.runsTotal_eq
  have hends : EndsOnly run.runId moments := by
    intro m hm call completion hterminal
    have hseen : .ended call completion ∈ runEvents m.exchange := mem_runEvents.mpr hterminal
    exact hshown.runId (List.mem_flatMap.mpr ⟨_, List.mem_map_of_mem hm, hseen⟩)
  constructor
  · intro hattempt
    refine ⟨hattempt.applied_once hrunning hends hshown.labelled, ?_⟩
    rw [hattempt.interleaved.counted_once_iff LeftAlone.statusMoves hrunning hends hlabels, ← honce]
    refine and_iff_left_of_imp fun hone => hattempt.not_overtaken hrunning ?_
    rwa [← hlabels]
  · intro hinterleaved
    rw [← honce]
    exact hinterleaved.counted_once_iff id hrunning hends hlabels

/-- A page without content is rejected, and counted as a failed run. -/
theorem runs_counted_once_rejected : ∃ db',
    Attempt exampleContracts exampleShellRun.runId exampleShellDb exampleRejectedMoments db' ∧
      (exampleRejectedMoments.map Moment.exchange).countP isApplied = 1 ∧
      RunCounted exampleShellRun.runId (exampleRejectedMoments.map Moment.exchange) db' := by
  have hperform : exampleShellRejection.perform exampleContracts 0 exampleShellDb =
      (.ok .applied, (exampleShellRejection.perform exampleContracts 0 exampleShellDb).2) := rfl
  have hattempt : Attempt exampleContracts exampleShellRun.runId exampleShellDb
      exampleRejectedMoments
      (exampleShellRejection.perform exampleContracts 0 exampleShellDb).2 :=
    .counted (attempt_of_last [_, _, _, _] (by simp [Moment.Effect]) (Or.inl hperform))
  have hnot : ¬ RenderRefused exampleShellLib exampleConfig exampleShellRun
      (exampleRejectedMoments.map Moment.exchange) := by
    rw [renderRefused_iff]
    rintro ⟨reply, hmem, -⟩
    simp [exampleRejectedMoments, runEvents] at hmem
  obtain ⟨happlied, hcounted⟩ :=
    ((runs_counted_once_iff exampleRejected_exec).2 _ _ _ _ rfl rfl).1 hattempt
  exact ⟨_, hattempt, happlied, hcounted.mpr hnot⟩

/-! ### A render that is too late -/

/-- The exchanges of a page without content whose render is not answered in time. -/
def exampleLateRender : Trace RunOp :=
  ⟨.fetch exampleShellRun.url, .ok exampleShellFetch⟩ ::
    timedOutRender exampleShellLib exampleRenderConfig exampleShellRun exampleShellFetch
      exampleShell exampleShellDecisions

/-- The terminal call of the escalation. -/
def exampleLateFailure : TerminalCall := .failRun 1 "navigation_timeout" false []

/-- The terminal call that follows it. -/
def exampleLateRejection : TerminalCall :=
  .reject 1 ⟨exampleShellBlob, some (completedFetch exampleShellLib exampleShellFetch),
    exampleShellDecisions, "quality", []⟩

/-- The database after the first call. -/
def exampleLateDb : Db := (exampleLateFailure.perform exampleContracts 0 exampleShellDb).2

/-- What the run asks, and what it is told. -/
def exampleLateMoments : List Moment :=
  (exampleLateRender.take 9).map (Moment.mk 0 exampleShellDb) ++
    (exampleLateRender.drop 9).map (Moment.mk 0 exampleLateDb)

theorem exampleLateMoments_exchange :
    exampleLateMoments.map Moment.exchange = exampleLateRender := by
  simp [exampleLateMoments, Function.comp_def]

theorem exampleLateRender_exec :
    Exec (processRun exampleShellLib exampleRenderConfig exampleShellRun).run exampleLateRender
      (.ok ()) := by
  have hdecision : Escalation.decide (escalationInputs exampleShellLib exampleRenderConfig
      exampleShellFetch exampleShell exampleShellDecisions) = .escalate := by
    decide
  exact Exec.ask _ _ (Except.ok exampleShellFetch) (exec_timedOutRender rfl hdecision)

/-- Nobody else touches the run. -/
theorem exampleLateMoments_attempt :
    Attempt exampleContracts exampleShellRun.runId exampleShellDb exampleLateMoments
      exampleLateDb := by
  have hfailed : exampleLateFailure.perform exampleContracts 0 exampleShellDb =
      (.ok .applied, exampleLateDb) := rfl
  have hfirst : Attempt exampleContracts exampleShellRun.runId exampleShellDb
      ((exampleLateRender.take 9).map (Moment.mk 0 exampleShellDb)) exampleLateDb := by
    refine attempt_of_last (exampleLateRender.take 8) ?_ (Or.inl hfailed)
    simp [exampleLateRender, timedOutRender, Moment.Effect]
  have hrejected : (exampleLateRejection.perform exampleContracts 0 exampleLateDb) =
      (.ok .duplicate, exampleLateDb) := rfl
  exact hfirst.append (.next (m := ⟨0, exampleLateDb, ⟨.countRun "failed", ()⟩⟩) rfl
    (.next (m := ⟨0, exampleLateDb, ⟨.terminal exampleLateRejection, _⟩⟩) (Or.inl hrejected)
      (.next (m := ⟨0, exampleLateDb, ⟨.countRun "failed", ()⟩⟩) rfl (.nil _))))

/-- The render worker does not answer in time: the escalation records the failure and counts the
run, and `complete_html` goes on to reject the page and counts it again. -/
theorem late_render_counted_twice :
    exampleShellDb.statuses exampleShellRun.runId = [.running] ∧
      Exec (processRun exampleShellLib exampleRenderConfig exampleShellRun).run
        (exampleLateMoments.map Moment.exchange) (.ok ()) ∧
      Attempt exampleContracts exampleShellRun.runId exampleShellDb exampleLateMoments
        exampleLateDb ∧
      exampleLateDb.statuses exampleShellRun.runId = [.failed] ∧
      (exampleLateMoments.map Moment.exchange).flatMap runsTotal = ["failed", "failed"] ∧
      ¬ RunCounted exampleShellRun.runId (exampleLateMoments.map Moment.exchange)
        exampleLateDb := by
  have hlabels : (exampleLateMoments.map Moment.exchange).flatMap runsTotal =
      ["failed", "failed"] := by
    rw [exampleLateMoments_exchange]
    rfl
  refine ⟨rfl, ?_, exampleLateMoments_attempt, rfl, hlabels, ?_⟩
  · rw [exampleLateMoments_exchange]
    exact exampleLateRender_exec
  · rintro ⟨status, -, -, hlabel⟩
    rw [hlabels] at hlabel
    cases (List.cons.inj hlabel).2

end Extractor
