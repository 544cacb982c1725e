import Extractor.Containment

/-!
# The fetch rows of a run

Every retrieval that succeeds should leave a row in `extractor.fetches` and a raw artifact. The
rows are written by three calls: `record_fetch` before a second retrieval, and the completing and
rejecting terminal calls for the last one. `fail_run` writes none, so a run that fails after it
has retrieved something loses the row of its last retrieval.

Which answers do that is followed by a small automaton over the exchanges of a run (`Stage`): it
knows what the current retrieval is for, and stops where the code gives up what it has retrieved.

## Main results

* `audited_processRun`: on every route, the retrievals that a run has recorded when it ends are
  all of them, or all but the last one, as the automaton says; and no retrieval starts before the
  one before it is recorded.
* `Attempt.tallies`: what is recorded is what the tables hold.
* `fetch_rows_complete_iff`: the rows of a run are complete exactly when no answer makes it give
  up a retrieval.
-/

namespace Extractor

open Program

/-! ### What becomes of a retrieval -/

/-- What a retrieval of `process_run` is for. -/
inductive Purpose
  | page
  | payload (route : ProviderRoute)
  | target
  | fallback
  | player (watchAddress : String)
  | track (watchAddress : String) (watchPage : FetchResult) (playerMeta : PlayerMeta)
      (caption : CaptionTrack)

/-- How far a run has come with its retrievals. -/
inductive Stage
  /-- Everything retrieved is recorded. -/
  | retrieving (purpose : Purpose)
  /-- A response is being checked and converted. -/
  | checking (purpose : Purpose) (fetched : FetchResult)
  /-- The terminal call is going to record the response. -/
  | settled
  /-- A rendered page is being converted. -/
  | rendered (completed : RenderCompleted)

section Stages

variable (lib : PipelineLib) (config : ExtractorConfig) (run : QueuedRun)

/-- The purpose of the first retrieval of a run. -/
def firstPurpose : Purpose :=
  match nativeRequest lib run with
  | .ok (some (route, _)) => .payload route
  | _ =>
      if run.classification = "youtube" then
        match lib.resolveIdentity run.url with
        | some (_, watchAddress) => .player watchAddress
        | none => .fallback
      else .page

/-- What the media type of a response leads to. -/
def Purpose.accept (purpose : Purpose) (fetched : FetchResult) : Option Stage :=
  match purpose with
  | .page =>
      if fetched.mediaType = "text/html" ∨ fetched.mediaType = "application/pdf" then
        some (.checking .page fetched)
      else none
  | .payload route =>
      if fetched.mediaType = "application/json" then some (.checking (.payload route) fetched)
      else some (.retrieving .fallback)
  | .target => if fetched.mediaType = "text/html" then some (.checking .target fetched) else none
  | .fallback =>
      if fetched.mediaType = "text/html" then some (.checking .fallback fetched) else none
  | .player watchAddress =>
      if fetched.mediaType = "text/html" then some (.checking (.player watchAddress) fetched)
      else some (.retrieving .fallback)
  | .track watchAddress watchPage playerMeta caption =>
      if !"text/".toList.isPrefixOf fetched.mediaType.toList &&
          fetched.mediaType != "application/json" then none
      else some (.checking (.track watchAddress watchPage playerMeta caption) fetched)

/-- What an HTML conversion leads to, where low quality is a recorded rejection. -/
def htmlStage : Except DocumentIrError Extraction → Option Stage
  | .ok _ | .error (.lowQuality _) => some .settled
  | .error _ => none

/-- What the bytes of a response lead to. -/
def Purpose.convert (purpose : Purpose) (fetched : FetchResult) (bytes : List UInt8) :
    Option Stage :=
  let input : DocumentInput := ⟨run.owner, finalAddress lib fetched, fetched.artifact, bytes⟩
  match purpose with
  | .page =>
      if fetched.mediaType = "text/html" then htmlStage (lib.fromHtml input config.parser)
      else
        match lib.fromPdf input config.pdf with
        | .ok _ | .error (.noTextLayer _) => some .settled
        | .error _ => none
  | .payload route =>
      match fromProvider lib.providers
        ⟨run.owner, finalAddress lib fetched, fetched.artifact, route, bytes⟩
        ⟨config.providers.maxInputBytes, config.providers.maxBlocks⟩ with
      | .error (.lowQuality _) => some .settled
      | .error .resourceLimit => none
      | .error _ => some (.retrieving .fallback)
      | .ok extraction =>
          match extraction.externalUrl.filter fun target =>
            !pointsBackToSource lib.providers.urlLib run.url target with
          | some _ => some (.retrieving .target)
          | none => some .settled
  | .target =>
      match lib.fromHtml input config.parser with
      | .ok _ => some .settled
      | .error _ => none
  | .fallback => htmlStage (lib.fromHtml input config.parser)
  | .player watchAddress =>
      match lib.extractPlayerResponse bytes (youtubeLimits config.parser) with
      | .error .resourceLimit => none
      | .error _ => some (.retrieving .fallback)
      | .ok playerMeta =>
          match lib.selectTrack playerMeta.tracks config.youtube.languages with
          | .error _ => some .settled
          | .ok caption => some (.retrieving (.track watchAddress fetched playerMeta caption))
  | .track watchAddress watchPage playerMeta caption =>
      match lib.parseTimedtext bytes (youtubeLimits config.parser) with
      | .error _ => none
      | .ok segments =>
          match lib.fromTranscript ⟨run.owner, watchAddress, watchPage.artifact, playerMeta,
            segments, caption.languageCode⟩ (youtubeLimits config.parser) with
          | .ok _ => some .settled
          | .error _ => none

/-- **The automaton**: what an answer leads to; none where the run gives up the response that it
has not recorded yet. -/
def Stage.after : Stage → Exchange RunOp → Option Stage
  | .retrieving purpose, ⟨.fetch _, .ok fetched⟩ => purpose.accept fetched
  | .checking _ _, ⟨.ownVerify _, .error _⟩ => none
  | .checking purpose fetched, ⟨.ownRead _, some bytes⟩ =>
      purpose.convert lib config run fetched bytes
  | .settled, ⟨.render _, .ok (.completed completed)⟩ => some (.rendered completed)
  | .settled, ⟨.render _, _⟩ => none
  | .rendered completed, ⟨.workerRead _ _, some bytes⟩ =>
      htmlStage (lib.fromHtml ⟨run.owner, completed.finalUrl, completed.dom, bytes⟩ config.parser)
  | stage, _ => some stage

/-- **The condition**: no answer of the execution makes the run give up a response. -/
def KeepsRetrievals (tr : Trace RunOp) : Prop :=
  (tr.foldlM (Stage.after lib config run) (.retrieving (firstPurpose lib run))).isSome = true

instance (tr : Trace RunOp) : Decidable (KeepsRetrievals lib config run tr) :=
  inferInstanceAs (Decidable (_ = true))

end Stages

/-- The retrievals of an execution that succeeded. -/
def retrievals (tr : Trace RunOp) : List FetchResult :=
  tr.filterMap fun x =>
    match x with
    | ⟨.fetch _, .ok fetched⟩ => some fetched
    | _ => none

/-! ### The audit of an execution -/

/-- The fetch row and the raw artifact that a terminal call writes, where it writes both. -/
def TerminalCall.recorded : TerminalCall → Option CompletedFetch
  | .failRun _ _ _ _ => none
  | .complete _ success => success.fetch.map fun f => { f with rawBlob := success.rawBlob }
  | .reject _ rejection => rejection.fetch.map fun f => { f with rawBlob := rejection.rawBlob }

/-- What has become of the retrievals of an execution so far. -/
structure Audit where
  stage : Option Stage
  retrieved : List CompletedFetch
  recorded : List CompletedFetch
  /-- A terminal call returned, so the run is over. -/
  finished : Bool
  /-- A terminal call of this execution ended the run. -/
  applied : Bool

section Audits

variable (lib : PipelineLib) (config : ExtractorConfig) (run : QueuedRun)

/-- The part of an exchange that the automaton sees. -/
def Audit.moved (s : Audit) (x : Exchange RunOp) : Audit :=
  { s with stage := s.stage.bind fun stage => stage.after lib config run x }

/-- A terminal call for the run that returned. -/
def Audit.ended (s : Audit) (call : TerminalCall) : Completion → Audit
  | .applied =>
      if s.finished then s
      else { s with
        recorded := s.recorded ++ call.recorded.toList, finished := true, applied := true }
  | .duplicate => { s with finished := true }

/-- The audit after one more exchange. -/
def Audit.after (s : Audit) : Exchange RunOp → Audit
  | ⟨.fetch url, .ok fetched⟩ =>
      { s.moved lib config run ⟨.fetch url, .ok fetched⟩ with
        retrieved := s.retrieved ++ [completedFetch lib fetched] }
  | ⟨.ownVerify blob, verified⟩ => s.moved lib config run ⟨.ownVerify blob, verified⟩
  | ⟨.ownRead blob, bytes⟩ => s.moved lib config run ⟨.ownRead blob, bytes⟩
  | ⟨.render command, reply⟩ => s.moved lib config run ⟨.render command, reply⟩
  | ⟨.workerRead root blob, bytes⟩ => s.moved lib config run ⟨.workerRead root blob, bytes⟩
  | ⟨.recordFetch runId fetch, .ok ()⟩ =>
      if runId = run.runId then { s with recorded := s.recorded ++ [fetch] } else s
  | ⟨.terminal call, .ok completion⟩ =>
      if call.runId = run.runId then s.ended call completion else s
  | _ => s

/-- The audit before the first exchange, with what earlier executions have recorded. -/
def Audit.start (past : List CompletedFetch) : Audit :=
  ⟨some (.retrieving (firstPurpose lib run)), past, past, false, false⟩

end Audits

/-- A retrieval starts when everything before it is recorded. -/
def Audit.Ready (s : Audit) : {β : Type} → RunOp β → Prop
  | _, .fetch _ => s.recorded = s.retrieved ∧ s.finished = false
  | _, _ => True

/-- Everything is recorded, or something is missing, as the automaton says. -/
def Audit.Fair (s : Audit) : Prop :=
  if s.stage.isSome then s.recorded = s.retrieved
  else s.recorded.length < s.retrieved.length

/-- A result of a part of a run that has ended the run. -/
structure Audit.Closed {α : Type} (s : Audit) (r : Except ProcessError α) : Prop where
  finished : ∀ a, r = .ok a → s.finished = true
  fair : s.applied = true → s.Fair

/-- An error of a part of a run that has not ended the run. -/
theorem Audit.closed_error {α : Type} {s : Audit} {e : ProcessError} (h : s.applied = false) :
    s.Closed (.error e : Except ProcessError α) where
  finished a ha := by cases ha
  fair happlied := absurd h (by rw [happlied]; decide)

/-- Everything retrieved is recorded. -/
def Audit.even (stage : Stage) (past : List CompletedFetch) : Audit :=
  ⟨some stage, past, past, false, false⟩

/-- The last retrieval is not recorded yet. -/
def Audit.owing (stage : Option Stage) (past : List CompletedFetch) (fetch : CompletedFetch) :
    Audit :=
  ⟨stage, past ++ [fetch], past, false, false⟩

/-- A part of a run under the audit. -/
def Audited {α : Type} (lib : PipelineLib) (config : ExtractorConfig) (run : QueuedRun)
    (q : Process α) (s : Audit) (Q : Audit → Except ProcessError α → Prop) : Prop :=
  Monitored (Audit.after lib config run) Audit.Ready q.run s Q

section Rules

variable {α β γ : Type} {lib : PipelineLib} {config : ExtractorConfig} {run : QueuedRun}
  {s : Audit} {q : Process α} {f : α → Process β} {Q : Audit → Except ProcessError β → Prop}

/-- Sequencing. -/
theorem Audited.bind {R : Audit → Except ProcessError α → Prop}
    (hq : Audited lib config run q s R)
    (hok : ∀ t a, R t (.ok a) → Audited lib config run (f a) t Q)
    (herror : ∀ t e, R t (.error e) → Q t (.error e)) :
    Audited lib config run (q >>= f) s Q := by
  refine monitored_bind_except.mpr (Monitored.imp hq ?_)
  rintro t (e | a) hr
  · exact herror t e hr
  · exact hok t a hr

/-- A request. -/
theorem Audited.ask {e : RunOp γ} {f : γ → Process β} (he : s.Ready e)
    (hf : ∀ x, Audited lib config run (f x) (s.after lib config run ⟨e, x⟩) Q) :
    Audited lib config run (call e >>= f) s Q :=
  monitored_call_bind.mpr ⟨he, hf⟩

/-- A result that is known. -/
theorem Audited.value {r : Except ProcessError α} {Q : Audit → Except ProcessError α → Prop}
    (hq : q.run = .done r) (h : Q s r) : Audited lib config run q s Q := by
  rw [Audited, hq]
  exact h

/-- A part that leaves the audit as it is and may fail, followed by one that ends the run. -/
theorem Audited.after_idle (hs : s.applied = false)
    (hq : Audited lib config run q s fun t _ => t = s)
    (hf : ∀ a, Audited lib config run (f a) s Audit.Closed) :
    Audited lib config run (q >>= f) s Audit.Closed := by
  refine hq.bind ?_ ?_
  · rintro t a rfl
    exact hf a
  · rintro t e rfl
    exact Audit.closed_error hs

end Rules

/-! ### The parts of the flows -/

section Flows

variable {lib : PipelineLib} {config : ExtractorConfig} {run : QueuedRun} {fetched : FetchResult}
  {s : Audit} {past : List CompletedFetch} {fetch : CompletedFetch} {stage : Stage}

/-- The increment after a terminal call is nothing to the audit. -/
theorem audited_countRun {outcome : String} {completion : Completion}
    {Q : Audit → Except ProcessError Unit → Prop} (h : Q s (.ok ())) :
    Audited lib config run (do
      let _ ← eventing (.ok completion)
      call (RunOp.countRun outcome)) s Q :=
  And.intro trivial fun _ => h

/-- A terminal call on a run that no call has ended. -/
theorem audited_terminate {outcome : String} {call : TerminalCall} (hid : call.runId = run.runId)
    (hover : s.finished = false) (happlied : s.applied = false)
    (hfair : (s.ended call .applied).Fair) :
    Audited lib config run (terminate outcome call) s Audit.Closed := by
  refine .ask trivial fun r => ?_
  rcases r with e | completion
  · exact .value rfl (Audit.closed_error happlied)
  · have hafter : s.after lib config run ⟨.terminal call, .ok completion⟩ =
        s.ended call completion := if_pos hid
    rw [hafter]
    refine audited_countRun ?_
    cases completion with
    | applied =>
        refine ⟨fun _ _ => ?_, fun _ => hfair⟩
        simp [Audit.ended, hover]
    | duplicate =>
        refine ⟨fun _ _ => rfl, fun h => ?_⟩
        exact absurd happlied (by rw [show s.applied = true from h]; decide)

/-- A terminal call finds a run that is over as it is. -/
theorem Audit.ended_of_over {call : TerminalCall} {completion : Completion} (h : s.finished = true) :
    s.ended call completion = s := by
  cases completion with
  | applied => exact if_pos h
  | duplicate =>
      obtain ⟨stage, retrieved, recorded, finished, applied⟩ := s
      cases h
      rfl

/-- A terminal call on a run that is over. -/
theorem audited_terminate_again {outcome : String} {call : TerminalCall}
    (hid : call.runId = run.runId) (hover : s.finished = true)
    (hfair : s.applied = true → s.Fair) :
    Audited lib config run (terminate outcome call) s Audit.Closed := by
  refine .ask trivial fun r => ?_
  rcases r with e | completion
  · exact .value rfl ⟨fun a h => (nomatch h), hfair⟩
  · have hafter : s.after lib config run ⟨.terminal call, .ok completion⟩ = s :=
      (if_pos hid).trans (Audit.ended_of_over hover)
    rw [hafter]
    exact audited_countRun ⟨fun _ _ => hover, hfair⟩

/-- `fail_run` where everything is recorded. -/
theorem audited_failRun_even {failureClass : String} {retryable : Bool}
    {steps : List ResolutionStep} :
    Audited lib config run (failRunNow run failureClass retryable steps) (.even stage past)
      Audit.Closed :=
  audited_terminate rfl rfl rfl (List.append_nil past)

/-- `fail_run` on a response that is given up. -/
theorem audited_failRun_owing {failureClass : String} {retryable : Bool}
    {steps : List ResolutionStep} :
    Audited lib config run (failRunNow run failureClass retryable steps) (.owing none past fetch)
      Audit.Closed := by
  refine audited_terminate rfl rfl rfl ?_
  change (past ++ []).length < (past ++ [fetch]).length
  simp

/-- A rejection records the last retrieval. -/
theorem audited_rejectQuality {candidates : List CandidateDecision} {failureClass : String}
    {steps : List ResolutionStep} :
    Audited lib config run (rejectQualityNow run fetch candidates failureClass steps)
      (.owing (some stage) past fetch) Audit.Closed :=
  audited_terminate rfl rfl rfl rfl

theorem audited_rejectBlobQuality {rawBlob : BlobRef} {candidates : List CandidateDecision}
    {failureClass : String} {steps : List ResolutionStep} :
    Audited lib config run (rejectBlobQualityNow run rawBlob candidates failureClass steps)
      (.even stage past) Audit.Closed :=
  audited_terminate rfl rfl rfl (List.append_nil past)

theorem audited_storeDocumentIr {document : Document} :
    Audited lib config run (storeDocumentIr lib document) s fun t _ => t = s := by
  refine .bind (R := fun t _ => t = s) ?_ ?_ fun t e h => h
  · cases lib.documentJson document with
    | none => exact .value rfl rfl
    | some canonical => exact .value rfl rfl
  · rintro t canonical rfl
    exact .ask trivial fun stored => .value rfl rfl

/-- A completion records the last retrieval. -/
theorem audited_completeDocument {document : Document} {candidates : List CandidateDecision}
    {steps : List ResolutionStep} :
    Audited lib config run (completeDocumentNow lib run document fetch candidates steps)
      (.owing (some stage) past fetch) Audit.Closed :=
  .after_idle rfl audited_storeDocumentIr fun _ => audited_terminate rfl rfl rfl rfl

theorem audited_completeBlobDocument {document : Document} {rawBlob : BlobRef}
    {candidates : List CandidateDecision} {steps : List ResolutionStep} :
    Audited lib config run (completeBlobDocumentNow lib run document rawBlob candidates steps)
      (.even stage past) Audit.Closed :=
  .after_idle rfl audited_storeDocumentIr fun _ =>
    audited_terminate rfl rfl rfl (List.append_nil past)

theorem audited_parseAddress {text : String} :
    Audited lib config run (parseAddress text) s
      fun t r => t = s ∧ ∀ address, r = .ok address → address = text := by
  refine .ask trivial fun valid => ?_
  cases valid with
  | false => exact .value rfl ⟨rfl, fun _ h => (nomatch h)⟩
  | true => exact .value rfl ⟨rfl, fun _ h => (Except.ok.inj h).symm⟩

/-- An address that is parsed before the rest. -/
theorem audited_parse_bind {text : String} {f : String → Process Unit} (hs : s.applied = false)
    (hf : Audited lib config run (f text) s Audit.Closed) :
    Audited lib config run (parseAddress text >>= f) s Audit.Closed := by
  refine audited_parseAddress.bind ?_ ?_
  · rintro t address ⟨rfl, htext⟩
    rw [htext address rfl]
    exact hf
  · rintro t e ⟨rfl, -⟩
    exact Audit.closed_error hs

/-- A recorded fetch, and what follows it. -/
theorem audited_record_bind {f : Unit → Process Unit}
    (hf : Audited lib config run (f ()) (.even stage (past ++ [fetch])) Audit.Closed) :
    Audited lib config run (recordFetchNow run fetch >>= f) (.owing (some stage) past fetch)
      Audit.Closed := by
  have hrecord : Audited lib config run (recordFetchNow run fetch)
      (.owing (some stage) past fetch) fun t r =>
        (r = .ok () → t = .even stage (past ++ [fetch])) ∧ t.applied = false := by
    refine .ask trivial fun r => ?_
    rcases r with e | u
    · exact .value rfl ⟨fun h => (nomatch h), rfl⟩
    · have hafter : Audit.after lib config run (.owing (some stage) past fetch)
          ⟨.recordFetch run.runId fetch, .ok u⟩ = .even stage (past ++ [fetch]) := if_pos rfl
      rw [hafter]
      exact .value rfl ⟨fun _ => rfl, rfl⟩
  refine hrecord.bind ?_ ?_
  · rintro t ⟨⟩ ⟨ht, -⟩
    rw [ht rfl]
    exact hf
  · rintro t e ⟨-, happlied⟩
    exact Audit.closed_error happlied

/-- The bytes of a response, or a failed run. -/
theorem audited_verified {purpose : Purpose} {blob : BlobRef} {failed : Process Unit}
    {f : List UInt8 → Process Unit}
    (hfailed : Audited lib config run failed (.owing none past fetch) Audit.Closed)
    (hf : ∀ bytes, Audited lib config run (f bytes)
      (.owing (purpose.convert lib config run fetched bytes) past fetch) Audit.Closed) :
    Audited lib config run (call (RunOp.ownVerify blob) >>= fun verified =>
      match verified with
      | .error _ => failed
      | .ok () => readOwn blob >>= f) (.owing (some (.checking purpose fetched)) past fetch)
      Audit.Closed := by
  refine .ask trivial fun verified => ?_
  cases verified with
  | error error => exact hfailed
  | ok u =>
      refine Audited.bind (R := fun t r => t.applied = false ∧ ∀ bytes, r = .ok bytes →
        t = .owing (purpose.convert lib config run fetched bytes) past fetch) ?_ ?_ ?_
      · refine .ask trivial fun bytes => ?_
        cases bytes with
        | none => exact .value rfl ⟨rfl, fun _ h => (nomatch h)⟩
        | some bytes =>
            refine .value rfl ⟨rfl, fun _ h => ?_⟩
            obtain rfl := Except.ok.inj h
            rfl
      · rintro t bytes ⟨-, ht⟩
        rw [ht bytes rfl]
        exact hf bytes
      · rintro t e ⟨happlied, -⟩
        exact Audit.closed_error happlied

/-! ### Escalation -/

/-- A rendered page: converted, or the run is over. -/
def Rendered (s : Audit) (t : Audit) (r : Except ProcessError (Option Extraction)) : Prop :=
  (∀ extraction, r = .ok (some extraction) → t = s) ∧ (r = .ok none → t.finished = true) ∧
    (t.applied = true → t.Fair)

theorem Rendered.error {t : Audit} {e : ProcessError} (h : t.applied = false) :
    Rendered s t (.error e) :=
  ⟨fun _ h => (nomatch h), fun h => (nomatch h), (Audit.closed_error (α := Unit) (e := e) h).fair⟩

/-- A terminal call, and no extraction. -/
theorem audited_ending {q : Process Unit} {t : Audit}
    (hq : Audited lib config run q t Audit.Closed) :
    Audited lib config run (do q; return none) t (Rendered s) := by
  refine hq.bind ?_ ?_
  · intro t u h
    exact .value rfl ⟨fun _ h => (nomatch h), fun _ => h.finished u rfl, h.fair⟩
  · intro t e h
    exact ⟨fun _ h => (nomatch h), fun h => (nomatch h), h.fair⟩

theorem audited_convertRendered {completed : RenderCompleted} :
    Audited lib config run (convertRendered lib config run fetched completed)
      (.owing (some (.rendered completed)) past (completedFetch lib fetched))
      (Rendered (.owing (some .settled) past (completedFetch lib fetched))) := by
  refine .ask trivial fun verified => ?_
  cases verified with
  | error error => exact .value rfl (Rendered.error rfl)
  | ok u =>
      refine .bind (R := fun t r => t = _ ∧ r = .ok ()) (.value rfl ⟨rfl, rfl⟩) ?_ ?_
      · rintro t u ⟨rfl, -⟩
        refine .ask trivial fun bytes => ?_
        cases bytes with
        | none => exact .value rfl (Rendered.error rfl)
        | some bytes =>
            refine .bind (R := fun t r => t = _ ∧ r = .ok bytes) (.value rfl ⟨rfl, rfl⟩) ?_ ?_
            · rintro t rendered ⟨rfl, hrendered⟩
              obtain rfl := Except.ok.inj hrendered
              refine audited_parseAddress.bind ?_ ?_
              · rintro t address ⟨rfl, haddress⟩
                obtain rfl := haddress address rfl
                change Audited lib config run _ (.owing (htmlStage _) past _) _
                cases hhtml : lib.fromHtml ⟨run.owner, completed.finalUrl, completed.dom, rendered⟩
                  config.parser with
                | ok extraction =>
                    exact .value rfl ⟨fun _ _ => rfl, fun h => (nomatch h), fun h => (nomatch h)⟩
                | error error =>
                    cases error with
                    | lowQuality candidates => exact audited_ending audited_rejectQuality
                    | _ => exact audited_ending audited_failRun_owing
              · rintro t e ⟨rfl, -⟩
                exact Rendered.error rfl
            · rintro t e ⟨-, h⟩
              cases h
      · rintro t e ⟨-, h⟩
        cases h

theorem audited_escalateToRender :
    Audited lib config run (escalateToRender lib config run fetched)
      (.owing (some .settled) past (completedFetch lib fetched))
      (Rendered (.owing (some .settled) past (completedFetch lib fetched))) := by
  refine .ask trivial fun renderId => ?_
  refine .ask trivial fun operationId => ?_
  refine .ask trivial fun reply => ?_
  match reply with
  | .ok (.completed completed) => exact audited_convertRendered
  | .ok (.failed failed) => exact audited_ending audited_failRun_owing
  | .error .timeout => exact audited_ending audited_failRun_owing
  | .error .transport => exact audited_ending audited_failRun_owing

/-- The end of an escalation: the run is over, unless the day's budget is spent. -/
def Escalated (s t : Audit) (r : Except ProcessError EscalationStep) : Prop :=
  (r = .ok .budgetExhausted → t = s) ∧
    (∀ step, r = .ok step → step ≠ .budgetExhausted → t.finished = true) ∧
    (t.applied = true → t.Fair)

theorem audited_spendBudgetAndEscalate :
    Audited lib config run (spendBudgetAndEscalate lib config run fetched)
      (.owing (some .settled) past (completedFetch lib fetched))
      (Escalated (.owing (some .settled) past (completedFetch lib fetched))) := by
  refine .ask trivial fun budget => ?_
  cases budget with
  | error error => exact .value rfl ⟨fun h => (nomatch h), fun _ h => (nomatch h), fun h => (nomatch h)⟩
  | ok budget =>
      refine .bind (R := fun t r => t = _ ∧ r = .ok budget) (.value rfl ⟨rfl, rfl⟩) ?_ ?_
      · rintro t budget' ⟨rfl, hbudget⟩
        obtain rfl := Except.ok.inj hbudget
        cases budget' with
        | exhausted =>
            refine .value rfl ⟨fun _ => rfl, fun step hstep hne => ?_, fun h => (nomatch h)⟩
            exact absurd (Except.ok.inj hstep).symm hne
        | consumed count =>
            refine audited_escalateToRender.bind ?_ ?_
            · rintro t extraction ⟨hsome, hnone, hfair⟩
              cases extraction with
              | none =>
                  exact .value rfl ⟨fun h => (nomatch h), fun _ _ _ => hnone rfl, hfair⟩
              | some extraction =>
                  obtain rfl := hsome extraction rfl
                  refine audited_completeDocument.bind ?_ ?_
                  · intro t u h
                    exact .value rfl ⟨fun h => (nomatch h), fun _ _ _ => h.finished u rfl, h.fair⟩
                  · intro t e h
                    exact ⟨fun h => (nomatch h), fun _ h => (nomatch h), h.fair⟩
            · rintro t e ⟨-, -, hfair⟩
              exact ⟨fun h => (nomatch h), fun _ h => (nomatch h), hfair⟩
      · rintro t e ⟨-, h⟩
        cases h

/-- Content rejected on quality. After a worker's failure the run is over already, and the second
terminal call finds it so. -/
theorem audited_escalateHtml {rawHtml : List UInt8} {candidates : List CandidateDecision} :
    Audited lib config run (escalateHtml lib config run fetched rawHtml candidates)
      (.owing (some .settled) past (completedFetch lib fetched)) Audit.Closed := by
  simp only [escalateHtml]
  split
  · refine audited_spendBudgetAndEscalate.bind ?_ ?_
    · rintro t step ⟨hexhausted, hover, hfair⟩
      cases step with
      | completed => exact .value rfl ⟨fun _ _ => hover _ rfl (by decide), hfair⟩
      | workerTerminal => exact audited_terminate_again rfl (hover _ rfl (by decide)) hfair
      | budgetExhausted =>
          rw [hexhausted rfl]
          exact audited_rejectQuality
    · rintro t e ⟨-, -, hfair⟩
      exact ⟨fun _ h => (by cases h), hfair⟩
  · exact audited_rejectQuality

theorem audited_completeHtml (hmedia : fetched.mediaType = "text/html") :
    Audited lib config run (completeHtml lib config run fetched)
      (.owing (some (.checking .page fetched)) past (completedFetch lib fetched))
      Audit.Closed := by
  refine audited_verified audited_failRun_owing fun bytes => ?_
  refine audited_parse_bind rfl ?_
  rw [Purpose.convert, if_pos hmedia]
  cases lib.fromHtml ⟨run.owner, finalAddress lib fetched, fetched.artifact, bytes⟩
    config.parser with
  | ok extraction => exact audited_completeDocument
  | error error =>
      cases error with
      | lowQuality candidates => exact audited_escalateHtml
      | _ => exact audited_failRun_owing

/-! ### PDF -/

theorem audited_completePdf (hmedia : fetched.mediaType ≠ "text/html") :
    Audited lib config run (completePdf lib config run fetched)
      (.owing (some (.checking .page fetched)) past (completedFetch lib fetched))
      Audit.Closed := by
  refine audited_verified audited_failRun_owing fun bytes => ?_
  refine audited_parse_bind rfl ?_
  rw [Purpose.convert, if_neg hmedia, finishPdf.eq_def]
  cases lib.fromPdf ⟨run.owner, finalAddress lib fetched, fetched.artifact, bytes⟩
    config.pdf with
  | ok extraction => exact audited_completeDocument
  | error error =>
      cases error with
      | noTextLayer candidates => exact audited_rejectQuality
      | _ => exact audited_failRun_owing

theorem audited_finishBlobPdf {raw : BlobRef} {address : String} {bytes : List UInt8} :
    Audited lib config run (finishPdf lib config run raw address bytes none) (.even stage past)
      Audit.Closed := by
  rw [finishPdf.eq_def]
  cases lib.fromPdf ⟨run.owner, address, raw, bytes⟩ config.pdf with
  | ok extraction => exact audited_completeBlobDocument
  | error error =>
      cases error with
      | noTextLayer candidates => exact audited_rejectBlobQuality
      | _ => exact audited_failRun_even

theorem audited_completeBlobPdf {blob : BlobRef} :
    Audited lib config run (completeBlobPdf lib config run blob) (.even stage past)
      Audit.Closed := by
  rw [completeBlobPdf]
  split
  · exact audited_failRun_even
  refine .ask trivial fun verified => ?_
  cases verified with
  | error error => exact audited_failRun_even
  | ok u =>
      dsimp only
      split
      · exact audited_failRun_even
      refine .ask trivial fun bytes => ?_
      cases bytes with
      | none => exact audited_failRun_even
      | some bytes =>
          refine .ask trivial fun stored => ?_
          refine .after_idle rfl (.value rfl rfl) fun raw => ?_
          split
          · exact audited_failRun_even
          · exact audited_parse_bind rfl audited_finishBlobPdf

/-! ### Providers -/

/-- A retrieval that starts where everything is recorded. -/
theorem audited_fetch_bind {purpose : Purpose} {url : String}
    {f : Except SafeFetchError FetchResult → Process Unit}
    (hfailed : ∀ error, Audited lib config run (f (.error error))
      (.even (.retrieving purpose) past) Audit.Closed)
    (hf : ∀ fetched, Audited lib config run (f (.ok fetched))
      (.owing (purpose.accept fetched) past (completedFetch lib fetched)) Audit.Closed) :
    Audited lib config run (call (RunOp.fetch url) >>= f) (.even (.retrieving purpose) past)
      Audit.Closed := by
  refine .ask ⟨rfl, rfl⟩ fun fetched => ?_
  cases fetched with
  | error error => exact hfailed error
  | ok fetched => exact hf fetched

theorem audited_fallback {providerClass : String} :
    Audited lib config run (fallbackToGenericHtml lib config run providerClass)
      (.even (.retrieving .fallback) past) Audit.Closed := by
  refine audited_fetch_bind (fun error => audited_failRun_even) fun fetched => ?_
  dsimp only [Purpose.accept]
  by_cases hmedia : fetched.mediaType = "text/html"
  · rw [if_neg (not_not.mpr hmedia), if_pos hmedia]
    refine audited_verified audited_failRun_owing fun bytes => ?_
    refine audited_parse_bind rfl ?_
    rw [Purpose.convert]
    cases lib.fromHtml ⟨run.owner, finalAddress lib fetched, fetched.artifact, bytes⟩
      config.parser with
    | ok extraction => exact audited_completeDocument
    | error error =>
        cases error with
        | lowQuality candidates => exact audited_rejectQuality
        | _ => exact audited_failRun_owing
  · rw [if_pos hmedia, if_neg hmedia]
    exact audited_failRun_owing

theorem audited_resolveExternalArticle {extraction : ProviderExtraction} {target : String} :
    Audited lib config run (resolveExternalArticle lib config run extraction target)
      (.even (.retrieving .target) past) Audit.Closed := by
  refine audited_fetch_bind (fun error => ?_) fun fetched => ?_
  · cases error <;> exact audited_failRun_even
  · dsimp only [Purpose.accept]
    by_cases hmedia : fetched.mediaType = "text/html"
    · rw [if_neg (not_not.mpr hmedia), if_pos hmedia]
      refine audited_verified audited_failRun_owing fun bytes => ?_
      refine audited_parse_bind rfl ?_
      rw [Purpose.convert]
      cases lib.fromHtml ⟨run.owner, finalAddress lib fetched, fetched.artifact, bytes⟩
        config.parser with
      | ok article => exact audited_completeDocument
      | error error => exact audited_failRun_owing
    · rw [if_pos hmedia, if_neg hmedia]
      exact audited_failRun_owing

theorem audited_completeProvider {route : ProviderRoute} {address : String} :
    Audited lib config run (completeProvider lib config route address run)
      (.even (.retrieving (.payload route)) past) Audit.Closed := by
  refine audited_fetch_bind (fun error => audited_failRun_even) fun fetched => ?_
  dsimp only [Purpose.accept]
  by_cases hmedia : fetched.mediaType = "application/json"
  · rw [if_neg (not_not.mpr hmedia), if_pos hmedia]
    refine audited_verified audited_failRun_owing fun bytes => ?_
    refine audited_parse_bind rfl ?_
    rw [Purpose.convert, continueProvider.eq_def]
    cases fromProvider lib.providers
      ⟨run.owner, finalAddress lib fetched, fetched.artifact, route, bytes⟩
      ⟨config.providers.maxInputBytes, config.providers.maxBlocks⟩ with
    | ok extraction =>
        dsimp only
        cases extraction.externalUrl.filter fun target =>
          !pointsBackToSource lib.providers.urlLib run.url target with
        | none => exact audited_completeDocument
        | some target => exact audited_record_bind audited_resolveExternalArticle
    | error error =>
        cases error with
        | lowQuality candidates => exact audited_rejectQuality
        | resourceLimit => exact audited_failRun_owing
        | _ => exact audited_record_bind audited_fallback
  · rw [if_pos hmedia, if_neg hmedia]
    exact audited_record_bind audited_fallback

/-! ### YouTube -/

/-- What comes after the terminal call leaves the audit alone. -/
theorem audited_writeTimingDiagnostics {sidecar : TimingSidecar} {archival : String} :
    Audited lib config run (writeTimingDiagnostics lib run sidecar archival) s
      fun t _ => t = s := by
  refine .bind (R := fun t _ => t = s) ?_ ?_ fun _ _ h => h
  · cases lib.timingJson sidecar archival with
    | none => exact .value rfl rfl
    | some payload => exact .value rfl rfl
  · rintro t payload rfl
    refine .ask trivial fun stored => ?_
    refine .bind (R := fun u _ => u = t) (.value rfl rfl) ?_ fun _ _ h => h
    rintro u reference rfl
    refine .ask trivial fun row => ?_
    match row with
    | none => exact .value rfl rfl
    | some none => exact .value rfl rfl
    | some (some owner) =>
        change Audited lib config run (call (RunOp.recordDiagnostics run.runId owner reference) >>=
          fun recorded => require (recorded = true) ProcessError.database) u _
        refine .ask trivial fun recorded => ?_
        cases recorded with
        | false => exact .value rfl rfl
        | true => exact .value rfl rfl

theorem audited_completeTrack {videoId watchAddress : String} {watchPage : FetchResult}
    {playerMeta : PlayerMeta} {caption : CaptionTrack} :
    Audited lib config run
      (completeTrack lib config run videoId watchAddress watchPage playerMeta caption)
      (.even (.retrieving (.track watchAddress watchPage playerMeta caption)) past)
      Audit.Closed := by
  refine audited_fetch_bind (fun error => audited_failRun_even) fun fetched => ?_
  dsimp only [Purpose.accept]
  split
  · exact audited_failRun_owing
  · refine audited_verified audited_failRun_owing fun bytes => ?_
    rw [Purpose.convert]
    cases lib.parseTimedtext bytes (youtubeLimits config.parser) with
    | error error => exact audited_failRun_owing
    | ok segments =>
        refine audited_parse_bind rfl ?_
        dsimp only
        rw [completeTranscript.eq_def]
        cases lib.fromTranscript ⟨run.owner, watchAddress, watchPage.artifact, playerMeta,
          segments, caption.languageCode⟩ (youtubeLimits config.parser) with
        | error error =>
            cases error with
            | serialization => exact .value rfl (Audit.closed_error rfl)
            | _ => exact audited_failRun_owing
        | ok extraction =>
            refine audited_completeDocument.bind ?_ ?_
            · intro t u h
              refine .ask trivial fun archival => ?_
              refine audited_writeTimingDiagnostics.imp ?_
              rintro t r rfl
              exact ⟨fun _ _ => h.finished u rfl, h.fair⟩
            · intro t e h
              exact ⟨fun _ h => (by cases h), h.fair⟩

theorem audited_completeYoutubeFlow {videoId watchAddress : String} :
    Audited lib config run (completeYoutubeFlow lib config run videoId watchAddress)
      (.even (.retrieving (.player watchAddress)) past) Audit.Closed := by
  refine audited_fetch_bind (fun error => audited_failRun_even) fun fetched => ?_
  dsimp only [Purpose.accept]
  by_cases hmedia : fetched.mediaType = "text/html"
  · rw [if_neg (not_not.mpr hmedia), if_pos hmedia]
    refine audited_verified audited_failRun_owing fun bytes => ?_
    rw [Purpose.convert, completePlayer.eq_def]
    cases lib.extractPlayerResponse bytes (youtubeLimits config.parser) with
    | error error =>
        cases error with
        | resourceLimit => exact audited_failRun_owing
        | _ => exact audited_record_bind audited_fallback
    | ok playerMeta =>
        dsimp only
        cases lib.selectTrack playerMeta.tracks config.youtube.languages with
        | error error => cases error <;> exact audited_rejectQuality
        | ok caption => exact audited_record_bind audited_completeTrack
  · rw [if_pos hmedia, if_neg hmedia]
    exact audited_record_bind audited_fallback

/-! ### The run -/

theorem audited_completeOrdinary :
    Audited lib config run (completeOrdinary lib config run) (.even (.retrieving .page) past)
      Audit.Closed := by
  refine audited_fetch_bind (fun error => audited_failRun_even) fun fetched => ?_
  dsimp only [Purpose.accept]
  split
  · next hmedia =>
      rw [if_pos (Or.inl hmedia)]
      exact audited_completeHtml hmedia
  · next hhtml =>
      split
      · next hpdf =>
          rw [if_pos (Or.inr hpdf)]
          exact audited_completePdf hhtml
      · next hpdf =>
          rw [if_neg (not_or.mpr ⟨hhtml, hpdf⟩)]
          exact audited_failRun_owing

/-- **The audit of a run.** Whatever its surroundings answer, a retrieval starts when everything
before it is recorded, and when the run ends, what it has retrieved is recorded as the automaton
says. -/
theorem audited_processRun (past : List CompletedFetch) :
    Audited lib config run (processRun lib config run) (.start lib run past) Audit.Closed := by
  cases hblob : run.blob with
  | some blob =>
      rw [processRun, hblob]
      exact audited_completeBlobPdf
  | none =>
      rw [processRun, hblob, Audit.start, firstPurpose]
      cases nativeRequest lib run with
      | error error => exact .value rfl (Audit.closed_error rfl)
      | ok native =>
          refine .bind (R := fun t r => t = _ ∧ r = .ok native) (.value rfl ⟨rfl, rfl⟩) ?_ ?_
          · rintro t native' ⟨rfl, hnative⟩
            obtain rfl := Except.ok.inj hnative
            cases native' with
            | some provider =>
                cases provider
                exact audited_completeProvider
            | none =>
                dsimp only
                split
                · cases lib.resolveIdentity run.url with
                  | some identity => exact audited_completeYoutubeFlow
                  | none => exact audited_fallback
                · exact audited_completeOrdinary
          · rintro t e ⟨-, h⟩
            cases h

end Flows

/-! ### The tables -/

/-- The statuses of the rows of a run; the run is a key, so there is one at most. -/
def Db.statuses (db : Db) (runId : Uuid) : List RunStatus :=
  (db.runs.filter fun r => r.runId == runId).map RunRow.status

/-- The fetch rows of a run. -/
def Db.fetchesOf (db : Db) (runId : Uuid) : List FetchRow :=
  db.fetches.filter fun r => r.runId == runId

/-- The row holds a fetch, and the raw artifact of the fetch is recorded with it. -/
def Db.Holds (db : Db) (runId : Uuid) (row : FetchRow) (fetch : CompletedFetch) : Prop :=
  ∃ now, row = fetch.row runId now ∧ artifactRow runId "raw_source" fetch.rawBlob now ∈ db.artifacts

/-- What the other parties do while one worker executes a run: they leave the rows of the run. -/
structure LeftAlone (runId : Uuid) (db db' : Db) : Prop where
  statuses : db'.statuses runId = db.statuses runId
  fetches : db'.fetchesOf runId = db.fetchesOf runId
  artifacts : ∀ r ∈ db.artifacts, r.runId = runId → r ∈ db'.artifacts

/-- What an exchange does to the database; a transaction that finds the database unavailable is
rolled back. -/
def Moment.Effect (contracts : Contracts) (m : Moment) (db' : Db) : Prop :=
  match m.exchange with
  | ⟨.terminal call, completion⟩ =>
      call.perform contracts m.now m.db = (completion, db') ∨
        completion = .error .database ∧ db' = m.db
  | ⟨.recordFetch runId fetch, recorded⟩ =>
      recordFetch m.now runId fetch m.db = (recorded, db') ∨
        recorded = .error .database ∧ db' = m.db
  | ⟨.recordDiagnostics runId _ reference, recorded⟩ =>
      db' = if recorded then { m.db with
        artifacts := m.db.artifacts ++ [artifactRow runId "diagnostics" reference m.now] }
      else m.db
  | _ => db' = m.db

/-- The moments of one execution of a run, from a database to another one. Every other answer than
those of the database is possible. -/
inductive Attempt (contracts : Contracts) (runId : Uuid) : Db → List Moment → Db → Prop
  | nil (db : Db) : Attempt contracts runId db [] db
  | others {db db₁ db' : Db} {moments : List Moment} (h : LeftAlone runId db db₁)
      (hrest : Attempt contracts runId db₁ moments db') : Attempt contracts runId db moments db'
  | next {m : Moment} {db₁ db' : Db} {moments : List Moment} (h : m.Effect contracts db₁)
      (hrest : Attempt contracts runId db₁ moments db') :
      Attempt contracts runId m.db (m :: moments) db'

/-- The audit agrees with the tables. -/
structure Audit.Tallies (s : Audit) (runId : Uuid) (db : Db) : Prop where
  rows : List.Forall₂ (db.Holds runId) (db.fetchesOf runId) s.recorded
  running : s.finished = false → db.statuses runId = [.running]
  finished : s.finished = true → .running ∉ db.statuses runId
  applied : s.applied = true ↔ db.Over runId

section Tables

variable {contracts : Contracts} {runId : Uuid} {db db' : Db} {now : Timestamp} {s : Audit}

/-- An execution that goes on. -/
theorem Attempt.append {before after : List Moment} {db₁ : Db}
    (h : Attempt contracts runId db before db₁) (hafter : Attempt contracts runId db₁ after db') :
    Attempt contracts runId db (before ++ after) db' := by
  induction h with
  | nil db => exact hafter
  | others halone _ ih => exact .others halone (ih hafter)
  | next heffect _ ih => exact .next heffect (ih hafter)

theorem Db.over_iff : db.Over runId ↔ ∃ status ∈ db.statuses runId, status.terminal = true := by
  simp only [Db.Over, Db.statuses, List.mem_map, List.mem_filter, beq_iff_eq]
  constructor
  · rintro ⟨r, hr, hid, hterminal⟩
    exact ⟨r.status, ⟨r, ⟨hr, hid⟩, rfl⟩, hterminal⟩
  · rintro ⟨status, ⟨r, ⟨hr, hid⟩, rfl⟩, hterminal⟩
    exact ⟨r, hr, hid, hterminal⟩

/-- A terminal call finds a row exactly where the run is running. -/
theorem enterRun_isSome_iff : (∃ r, enterRun runId db = some r) ↔ .running ∈ db.statuses runId := by
  rw [← Option.isSome_iff_exists, enterRun, List.find?_isSome, Db.statuses]
  simp [RunRow.isRunning, and_assoc]

/-- A row that is held stays held while artifacts are added. -/
theorem Db.Holds.of_artifacts {row : FetchRow} {fetch : CompletedFetch}
    (h : db.Holds runId row fetch)
    (hkept : ∀ r ∈ db.artifacts, r.runId = runId → r ∈ db'.artifacts) :
    db'.Holds runId row fetch := by
  obtain ⟨now, hrow, hartifact⟩ := h
  exact ⟨now, hrow, hkept _ hartifact rfl⟩

/-- Rows that are appended for a fetch. -/
theorem Audit.Tallies.append_rows {recorded : List CompletedFetch}
    (h : s.Tallies runId db)
    (hfetches : db'.fetchesOf runId =
      db.fetchesOf runId ++ recorded.map fun f => f.row runId now)
    (hkept : ∀ r ∈ db.artifacts, r.runId = runId → r ∈ db'.artifacts)
    (hnew : ∀ f ∈ recorded, artifactRow runId "raw_source" f.rawBlob now ∈ db'.artifacts) :
    List.Forall₂ (db'.Holds runId) (db'.fetchesOf runId) (s.recorded ++ recorded) := by
  rw [hfetches]
  refine List.rel_append ?_ ?_
  · exact h.rows.imp fun _ _ hholds => hholds.of_artifacts hkept
  · rw [List.forall₂_map_left_iff, List.forall₂_same]
    exact fun f hf => ⟨now, rfl, hnew f hf⟩

theorem LeftAlone.tallies (h : LeftAlone runId db db') (hs : s.Tallies runId db) :
    s.Tallies runId db' where
  rows := by
    rw [h.fetches]
    exact hs.rows.imp fun _ _ hholds => hholds.of_artifacts h.artifacts
  running hover := h.statuses.trans (hs.running hover)
  finished hover := h.statuses ▸ hs.finished hover
  applied := by
    rw [Db.over_iff, h.statuses, ← Db.over_iff]
    exact hs.applied

/-- The raw artifact is not in the row of a fetch. -/
theorem map_row_with_rawBlob (fetch : Option CompletedFetch) (rawBlob : BlobRef) :
    (fetch.map fun f => { f with rawBlob := rawBlob }).toList.map (fun f => f.row runId now) =
      fetch.toList.map fun f => f.row runId now := by
  cases fetch with
  | none => rfl
  | some f => rfl

/-- What a terminal call that ended its run has written besides the ledger. -/
theorem TerminalCall.commit_rows {call : TerminalCall} {row : RunRow} {u : Unit}
    (h : call.commit contracts now row db = .ok (u, db')) :
    db'.fetches = db.fetches ++ call.recorded.toList.map (fun f => f.row call.runId now) ∧
      (∀ r ∈ db.artifacts, r ∈ db'.artifacts) ∧
      ∀ f ∈ call.recorded, artifactRow call.runId "raw_source" f.rawBlob now ∈ db'.artifacts := by
  obtain ⟨-, rfl⟩ := TerminalCall.commit_eq_ok_db h
  refine ⟨congrArg (db.fetches ++ ·) ?_, fun r hr => List.mem_append_left _ hr, fun f hf =>
    List.mem_append_right _ ?_⟩
  · cases call with
    | failRun runId failureClass retryable steps => rfl
    | complete queued success => exact (map_row_with_rawBlob _ _).symm
    | reject runId rejection => exact (map_row_with_rawBlob _ _).symm
  · cases call with
    | failRun runId failureClass retryable steps => exact (nomatch hf)
    | complete queued success =>
        obtain ⟨f₀, -, rfl⟩ := Option.map_eq_some_iff.mp hf
        exact List.mem_cons_self
    | reject runId rejection =>
        obtain ⟨f₀, -, rfl⟩ := Option.map_eq_some_iff.mp hf
        exact List.mem_cons_self

/-- The statuses after a terminal call that ended its run. -/
theorem Db.statuses_of_update (runId : Uuid) {call : TerminalCall}
    (h : db'.runs = Rows.updateWhere (RunRow.isRunning call.runId) (call.change now) db.runs) :
    db'.statuses runId = (db.statuses runId).map fun status =>
      if call.runId = runId ∧ status = .running then call.outcome else status := by
  have hkey : (fun r : RunRow => r.runId == runId) ∘ (fun r =>
      if RunRow.isRunning call.runId r then call.change now r else r) =
        fun r => r.runId == runId := by
    funext r
    simp only [Function.comp_apply]
    split
    · rw [call.change_runId]
    · rfl
  rw [Db.statuses, h, Rows.updateWhere, List.filter_map, hkey, List.map_map, Db.statuses,
    List.map_map]
  refine List.map_congr_left fun r hr => ?_
  have hid : r.runId = runId := beq_iff_eq.mp (List.mem_filter.mp hr).2
  simp only [Function.comp_apply, RunRow.isRunning, Bool.and_eq_true, beq_iff_eq, hid,
    eq_comm (a := runId) (b := call.runId)]
  split
  · exact call.change_status now r
  · rfl

theorem Db.fetchesOf_append (runId : Uuid) {recorded : List CompletedFetch} {id : Uuid}
    (h : db'.fetches = db.fetches ++ recorded.map fun f => f.row id now) :
    db'.fetchesOf runId = db.fetchesOf runId ++
      if id = runId then recorded.map (fun f => f.row runId now) else [] := by
  rw [Db.fetchesOf, h, List.filter_append, Db.fetchesOf]
  congr 1
  split
  · next hid =>
      subst hid
      refine List.filter_eq_self.mpr fun r hr => ?_
      obtain ⟨f, -, rfl⟩ := List.mem_map.mp hr
      exact beq_self_eq_true id
  · next hid =>
      refine List.filter_eq_nil_iff.mpr fun r hr => ?_
      obtain ⟨f, -, rfl⟩ := List.mem_map.mp hr
      exact fun h => hid (beq_iff_eq.mp h)

/-- What `record_fetch` does. -/
theorem recordFetch_cases {fetch : CompletedFetch} {r : Except ConsumeError Unit}
    (h : recordFetch now runId fetch db = (r, db')) :
    (r = .ok () ∧ db' = { db with
        fetches := db.fetches ++ [fetch.row runId now]
        artifacts := db.artifacts ++ [artifactRow runId "raw_source" fetch.rawBlob now] }) ∨
      (∃ e, r = .error e) ∧ db' = db := by
  rw [recordFetch] at h
  split at h
  · rw [transact] at h
    cases htx : recordFetchTx now runId fetch db with
    | error e =>
        rw [htx] at h
        obtain ⟨rfl, rfl⟩ := Prod.mk.inj h
        exact Or.inr ⟨⟨e, rfl⟩, rfl⟩
    | ok q =>
        rw [htx] at h
        obtain ⟨rfl, rfl⟩ := Prod.mk.inj h
        obtain ⟨_, _, hfetch, hartifact⟩ := Tx.bind_eq_ok_iff.mp htx
        obtain ⟨-, rfl⟩ := insertFetch_eq_ok_iff.mp hfetch
        obtain ⟨-, hdb⟩ := insertArtifact_eq_ok_iff.mp hartifact
        exact Or.inl ⟨rfl, hdb⟩
  · obtain ⟨rfl, rfl⟩ := Prod.mk.inj h
    exact Or.inr ⟨⟨_, rfl⟩, rfl⟩

section Exchanges

variable {lib : PipelineLib} {config : ExtractorConfig} {run : QueuedRun}

/-- A run that a terminal call finds running is not over. -/
theorem Audit.Tallies.not_over (hs : s.Tallies runId db) {row : RunRow}
    (h : enterRun runId db = some row) : s.finished = false := by
  by_contra hover
  exact hs.finished (Bool.eq_true_of_not_eq_false hover) (enterRun_isSome_iff.mp ⟨row, h⟩)

/-- A run that a terminal call does not find running is over. -/
theorem Audit.Tallies.is_over (hs : s.Tallies runId db) (h : enterRun runId db = none) :
    s.finished = true := by
  by_contra hover
  have hrunning : RunStatus.running ∈ db.statuses runId := by
    rw [hs.running (Bool.eq_false_of_not_eq_true hover)]
    exact List.mem_singleton_self _
  obtain ⟨row, hrow⟩ := enterRun_isSome_iff.mpr hrunning
  cases h.symm.trans hrow

theorem tallies_terminal {call : TerminalCall} {completion : Except ConsumeError Completion}
    (h : call.perform contracts now db = (completion, db')) (hs : s.Tallies run.runId db) :
    (s.after lib config run ⟨.terminal call, completion⟩).Tallies run.runId db' := by
  rcases TerminalCall.perform_cases h with ⟨row, henter, rfl, hcommit⟩ | ⟨rfl, hmissed⟩
  · obtain ⟨hfetches, hkept, hnew⟩ := TerminalCall.commit_rows hcommit
    have hstatuses := Db.statuses_of_update run.runId (TerminalCall.commit_eq_ok hcommit).runs
    have hrows := Db.fetchesOf_append run.runId hfetches
    by_cases hid : call.runId = run.runId
    · rw [hid] at henter hnew
      have hover : s.finished = false := hs.not_over henter
      have hafter : s.after lib config run ⟨.terminal call, .ok .applied⟩ =
          { s with recorded := s.recorded ++ call.recorded.toList, finished := true, applied := true } :=
        (if_pos hid).trans (if_neg (by rw [hover]; decide))
      rw [hs.running hover] at hstatuses
      simp only [List.map_cons, List.map_nil, hid, and_self, if_true] at hstatuses hrows
      rw [hafter]
      refine ⟨?_, fun h => (nomatch h), fun _ => ?_, fun _ => ?_, fun _ => rfl⟩
      · exact hs.append_rows hrows (fun r hr _ => hkept r hr) fun f hf =>
          hnew f (Option.mem_toList.mp hf)
      · rw [hstatuses, List.mem_singleton]
        intro hrunning
        have := call.outcome_terminal
        rw [← hrunning] at this
        cases this
      · rw [Db.over_iff, hstatuses]
        exact ⟨_, List.mem_singleton_self _, call.outcome_terminal⟩
    · have hafter : s.after lib config run ⟨.terminal call, .ok .applied⟩ = s := if_neg hid
      rw [hafter]
      refine LeftAlone.tallies ⟨?_, ?_, fun r hr _ => hkept r hr⟩ hs
      · rw [hstatuses]
        simp [hid]
      · rw [hrows, if_neg hid, List.append_nil]
  · cases completion with
    | error e => exact hs
    | ok c =>
        by_cases hid : call.runId = run.runId
        · have hover : s.finished = true := hs.is_over (hid ▸ hmissed c rfl)
          have hafter : s.after lib config run ⟨.terminal call, .ok c⟩ = s :=
            (if_pos hid).trans (Audit.ended_of_over hover)
          rw [hafter]
          exact hs
        · have hafter : s.after lib config run ⟨.terminal call, .ok c⟩ = s := if_neg hid
          rw [hafter]
          exact hs

theorem tallies_recordFetch {id : Uuid} {fetch : CompletedFetch}
    {recorded : Except ConsumeError Unit} (h : recordFetch now id fetch db = (recorded, db'))
    (hs : s.Tallies run.runId db) :
    (s.after lib config run ⟨.recordFetch id fetch, recorded⟩).Tallies run.runId db' := by
  rcases recordFetch_cases h with ⟨rfl, hdb⟩ | ⟨⟨e, rfl⟩, rfl⟩
  · have hfetches : db'.fetches = db.fetches ++ [fetch].map fun f => f.row id now := by
      rw [hdb]
      rfl
    have hartifacts : db'.artifacts =
        db.artifacts ++ [artifactRow id "raw_source" fetch.rawBlob now] := by
      rw [hdb]
    have hstatuses : db'.statuses run.runId = db.statuses run.runId := by
      rw [hdb]
      rfl
    have hkept : ∀ r ∈ db.artifacts, r.runId = run.runId → r ∈ db'.artifacts := by
      intro r hr _
      rw [hartifacts]
      exact List.mem_append_left _ hr
    have hrows := Db.fetchesOf_append run.runId hfetches
    by_cases hid : id = run.runId
    · have hafter : s.after lib config run ⟨.recordFetch id fetch, .ok ()⟩ =
          { s with recorded := s.recorded ++ [fetch] } := if_pos hid
      rw [if_pos hid] at hrows
      rw [hafter]
      refine ⟨hs.append_rows hrows hkept ?_, ?_, ?_, ?_⟩
      · intro f hf
        rw [List.mem_singleton.mp hf, hartifacts, ← hid]
        exact List.mem_append_right _ (List.mem_singleton_self _)
      · rw [hstatuses]
        exact hs.running
      · rw [hstatuses]
        exact hs.finished
      · rw [Db.over_iff, hstatuses, ← Db.over_iff]
        exact hs.applied
    · have hafter : s.after lib config run ⟨.recordFetch id fetch, .ok ()⟩ = s := if_neg hid
      rw [if_neg hid, List.append_nil] at hrows
      rw [hafter]
      exact LeftAlone.tallies ⟨hstatuses, hrows, hkept⟩ hs
  · exact hs

/-- **One exchange keeps the audit true to the tables.** -/
theorem Moment.Effect.tallies {m : Moment} (h : m.Effect contracts db')
    (hs : s.Tallies run.runId m.db) :
    (s.after lib config run m.exchange).Tallies run.runId db' := by
  obtain ⟨now, db, request, answer⟩ := m
  cases request with
  | terminal call =>
      rcases h with h | ⟨rfl, rfl⟩
      · exact tallies_terminal h hs
      · exact hs
  | recordFetch id fetch =>
      rcases h with h | ⟨rfl, rfl⟩
      · exact tallies_recordFetch h hs
      · exact hs
  | recordDiagnostics id owner reference =>
      cases h
      cases answer with
      | false => exact hs
      | true =>
          have halone : LeftAlone run.runId db { db with
              artifacts := db.artifacts ++ [artifactRow id "diagnostics" reference now] } :=
            ⟨rfl, rfl, fun r hr _ => List.mem_append_left _ hr⟩
          exact halone.tallies hs
  | fetch url =>
      cases h
      cases answer with
      | error e => exact hs
      | ok fetched => exact ⟨hs.rows, hs.running, hs.finished, hs.applied⟩
  | ownVerify blob =>
      cases h
      exact ⟨hs.rows, hs.running, hs.finished, hs.applied⟩
  | ownRead blob =>
      cases h
      exact ⟨hs.rows, hs.running, hs.finished, hs.applied⟩
  | render command =>
      cases h
      exact ⟨hs.rows, hs.running, hs.finished, hs.applied⟩
  | workerRead root blob =>
      cases h
      exact ⟨hs.rows, hs.running, hs.finished, hs.applied⟩
  | _ =>
      cases h
      exact hs

/-- **The audit of an execution agrees with the tables.** -/
theorem Attempt.tallies (lib : PipelineLib) (config : ExtractorConfig) {moments : List Moment}
    (h : Attempt contracts run.runId db moments db') (hs : s.Tallies run.runId db) :
    ((moments.map Moment.exchange).foldl (Audit.after lib config run) s).Tallies run.runId db' := by
  induction h generalizing s with
  | nil db => exact hs
  | others halone _ ih => exact ih (halone.tallies hs)
  | next heffect _ ih => exact ih (heffect.tallies hs)

/-- The audit of a leased run. -/
theorem Audit.start_tallies {past : List CompletedFetch}
    (hrunning : db.statuses run.runId = [.running])
    (hrows : List.Forall₂ (db.Holds run.runId) (db.fetchesOf run.runId) past) :
    (Audit.start lib run past).Tallies run.runId db where
  rows := hrows
  running _ := hrunning
  finished h := by cases h
  applied := by
    rw [Db.over_iff, hrunning]
    simp [Audit.start, RunStatus.terminal]

/-- A terminal call is nothing to the automaton. -/
theorem Audit.after_terminal (call : TerminalCall) (answer : Except ConsumeError Completion) :
    (s.after lib config run ⟨.terminal call, answer⟩).stage = s.stage ∧
      (s.after lib config run ⟨.terminal call, answer⟩).retrieved = s.retrieved := by
  cases answer with
  | error e => exact ⟨rfl, rfl⟩
  | ok completion =>
      change (ite _ _ _ : Audit).stage = _ ∧ (ite _ _ _ : Audit).retrieved = _
      split
      · cases completion with
        | applied =>
            rw [Audit.ended]
            split
            · exact ⟨rfl, rfl⟩
            · exact ⟨rfl, rfl⟩
        | duplicate => exact ⟨rfl, rfl⟩
      · exact ⟨rfl, rfl⟩

/-- A recorded fetch is nothing to the automaton. -/
theorem Audit.after_recordFetch (id : Uuid) (fetch : CompletedFetch)
    (answer : Except ConsumeError Unit) :
    (s.after lib config run ⟨.recordFetch id fetch, answer⟩).stage = s.stage ∧
      (s.after lib config run ⟨.recordFetch id fetch, answer⟩).retrieved = s.retrieved := by
  cases answer with
  | error e => exact ⟨rfl, rfl⟩
  | ok u =>
      change (ite _ _ _ : Audit).stage = _ ∧ (ite _ _ _ : Audit).retrieved = _
      split
      · exact ⟨rfl, rfl⟩
      · exact ⟨rfl, rfl⟩

/-- What the automaton does not see, it leaves. -/
theorem Audit.after_stage (x : Exchange RunOp) :
    (s.after lib config run x).stage =
      s.stage.bind fun stage => stage.after lib config run x := by
  have hidle : (∀ stage : Stage, stage.after lib config run x = some stage) →
      s.stage = s.stage.bind fun stage => stage.after lib config run x := by
    intro h
    cases s.stage with
    | none => rfl
    | some stage => exact (h stage).symm
  obtain ⟨request, answer⟩ := x
  cases request with
  | fetch url =>
      cases answer with
      | error e => exact hidle fun stage => by cases stage <;> rfl
      | ok fetched => rfl
  | ownVerify blob => rfl
  | ownRead blob => rfl
  | render command => rfl
  | workerRead root blob => rfl
  | recordFetch id fetch =>
      rw [(Audit.after_recordFetch id fetch answer).1]
      exact hidle fun stage => by cases stage <;> rfl
  | terminal call =>
      rw [(Audit.after_terminal call answer).1]
      exact hidle fun stage => by cases stage <;> rfl
  | _ => exact hidle fun stage => by cases stage <;> rfl

/-- The automaton within the audit. -/
theorem Audit.foldl_stage (tr : Trace RunOp) :
    (tr.foldl (Audit.after lib config run) s).stage =
      s.stage.bind fun stage => tr.foldlM (Stage.after lib config run) stage := by
  induction tr generalizing s with
  | nil =>
      rw [List.foldl_nil]
      cases s.stage with
      | none => rfl
      | some stage => rfl
  | cons x tr ih =>
      rw [List.foldl_cons, ih, Audit.after_stage, Option.bind_assoc]
      rfl

/-- The retrievals within the audit. -/
theorem Audit.foldl_retrieved (tr : Trace RunOp) :
    (tr.foldl (Audit.after lib config run) s).retrieved =
      s.retrieved ++ (retrievals tr).map (completedFetch lib) := by
  induction tr generalizing s with
  | nil => exact (List.append_nil _).symm
  | cons x tr ih =>
      rw [List.foldl_cons, ih]
      obtain ⟨request, answer⟩ := x
      cases request with
      | fetch url =>
          cases answer with
          | error e => rfl
          | ok fetched => exact List.append_assoc _ _ _
      | recordFetch id fetch => exact congrArg (· ++ _) (Audit.after_recordFetch id fetch answer).2
      | terminal call => exact congrArg (· ++ _) (Audit.after_terminal call answer).2
      | _ => rfl

end Exchanges

end Tables

/-! ### Completeness -/

/-- **Complete rows**: the fetch rows of a run are, in their order, those of the retrievals that
succeeded, and every one carries the final URL and the raw artifact of its own retrieval. -/
def FetchesRecorded (lib : PipelineLib) (run : QueuedRun) (tr : Trace RunOp) (db : Db) : Prop :=
  List.Forall₂ (fun row fetched => db.Holds run.runId row (completedFetch lib fetched))
    (db.fetchesOf run.runId) (retrievals tr)

/-- **The fetch rows of a run.** A run that one execution has driven to a terminal state has
complete rows exactly when no answer made it give up a response: every response had a media type
that its route handles, its artifact verified, its conversion ended in a document, a recorded
rejection or another retrieval, and the render worker, where it was asked, delivered a page that
converts. -/
theorem fetch_rows_complete_iff {lib : PipelineLib} {config : ExtractorConfig} {run : QueuedRun}
    {contracts : Contracts} {db db' : Db} {moments : List Moment}
    {result : Except ProcessError Unit}
    (hexec : Exec (processRun lib config run).run (moments.map Moment.exchange) result)
    (hattempt : Attempt contracts run.runId db moments db')
    (hrunning : db.statuses run.runId = [.running]) (hnew : db.fetchesOf run.runId = [])
    (hover : db'.Over run.runId) :
    FetchesRecorded lib run (moments.map Moment.exchange) db' ↔
      KeepsRetrievals lib config run (moments.map Moment.exchange) := by
  have hstart : (Audit.start lib run []).Tallies run.runId db :=
    Audit.start_tallies hrunning (hnew ▸ List.Forall₂.nil)
  have htallies := hattempt.tallies lib config hstart
  have hclosed := (Monitored.exec (audited_processRun []) hexec).1
  have hfair := hclosed.fair (htallies.applied.mpr hover)
  have hrows := htallies.rows
  have hretrieved : (retrievals (moments.map Moment.exchange)).map (completedFetch lib) =
      ((moments.map Moment.exchange).foldl (Audit.after lib config run)
        (.start lib run [])).retrieved := by
    rw [Audit.foldl_retrieved]
    rfl
  have hkeeps : KeepsRetrievals lib config run (moments.map Moment.exchange) ↔
      ((moments.map Moment.exchange).foldl (Audit.after lib config run)
        (.start lib run [])).stage.isSome = true := by
    rw [Audit.foldl_stage]
    exact Iff.rfl
  rw [hkeeps, FetchesRecorded]
  constructor
  · intro hrecorded
    by_contra hgone
    rw [Audit.Fair, if_neg hgone, ← hretrieved, ← hrows.length_eq, List.length_map,
      ← hrecorded.length_eq] at hfair
    exact Nat.lt_irrefl _ hfair
  · intro hkept
    rw [Audit.Fair, if_pos hkept, ← hretrieved] at hfair
    rw [hfair, List.forall₂_map_right_iff] at hrows
    exact hrows

/-! ### A page without content -/

/-- The rejection of the page without content, where rendering is disabled. -/
def exampleShellRejection : TerminalCall :=
  .reject 1 ⟨exampleShellBlob, some (completedFetch exampleShellLib exampleShellFetch),
    exampleShellDecisions, "quality",
    [⟨0, "render_policy", some "rendering_disabled", none, none⟩]⟩

/-- What the run asks, and what it is told. -/
def exampleRejectedMoments : List Moment :=
  [⟨.fetch "http://example.org/", .ok exampleShellFetch⟩,
    ⟨.ownVerify exampleShellBlob, .ok ()⟩,
    ⟨.ownRead exampleShellBlob, some exampleShell⟩,
    ⟨.parseAddress "http://example.org/", true⟩,
    ⟨.terminal exampleShellRejection, .ok .applied⟩].map (Moment.mk 0 exampleShellDb) ++
  [⟨0, (exampleShellRejection.perform exampleContracts 0 exampleShellDb).2,
    ⟨.countRun "failed", ()⟩⟩]

theorem exampleRejected_exec :
    Exec (processRun exampleShellLib exampleConfig exampleShellRun).run
      (exampleRejectedMoments.map Moment.exchange) (.ok ()) := by
  refine Exec.ask _ _ (Except.ok exampleShellFetch) (Exec.ask _ _ (Except.ok ()) ?_)
  refine Exec.ask _ _ (some exampleShell) (Exec.ask _ _ true ?_)
  exact Exec.ask _ _ (Except.ok Completion.applied) (Exec.ask _ _ () (Exec.done _))

/-- Answers that leave the database alone, and then one that does not. -/
theorem attempt_of_last {contracts : Contracts} {runId : Uuid} {now : Timestamp} {db db' : Db}
    (idle : Trace RunOp) {last : Exchange RunOp}
    (hidle : ∀ x ∈ idle, (Moment.mk now db x).Effect contracts db)
    (hlast : (Moment.mk now db last).Effect contracts db') :
    Attempt contracts runId db ((idle ++ [last]).map (Moment.mk now db)) db' := by
  induction idle with
  | nil => exact .next (m := ⟨now, db, last⟩) hlast (.nil _)
  | cons x idle ih =>
      exact .next (m := ⟨now, db, x⟩) (hidle x List.mem_cons_self)
        (ih fun y hy => hidle y (List.mem_cons_of_mem _ hy))

/-- The increment after the last answer. -/
theorem Attempt.counted {contracts : Contracts} {runId : Uuid} {now : Timestamp} {db db' : Db}
    {moments : List Moment} {outcome : String} (h : Attempt contracts runId db moments db') :
    Attempt contracts runId db (moments ++ [⟨now, db', ⟨.countRun outcome, ()⟩⟩]) db' :=
  h.append (.next (m := ⟨now, db', ⟨.countRun outcome, ()⟩⟩) rfl (.nil _))

/-- The page without content is rejected, and its retrieval is recorded. -/
theorem fetch_rows_complete_shell :
    ∃ db', Attempt exampleContracts 1 exampleShellDb exampleRejectedMoments db' ∧
      FetchesRecorded exampleShellLib exampleShellRun
        (exampleRejectedMoments.map Moment.exchange) db' := by
  have hperform : exampleShellRejection.perform exampleContracts 0 exampleShellDb =
      (.ok .applied, (exampleShellRejection.perform exampleContracts 0 exampleShellDb).2) := rfl
  have hattempt : Attempt exampleContracts exampleShellRun.runId exampleShellDb
      exampleRejectedMoments
      (exampleShellRejection.perform exampleContracts 0 exampleShellDb).2 :=
    .counted (attempt_of_last [_, _, _, _] (by simp [Moment.Effect]) (Or.inl hperform))
  have hexecuted : exampleShellDb.executed exampleShellRejection.runId = true := rfl
  have hover : (exampleShellRejection.perform exampleContracts 0 exampleShellDb).2.Over
      exampleShellRun.runId := TerminalCall.perform_over hexecuted hperform
  exact ⟨_, hattempt, (fetch_rows_complete_iff exampleRejected_exec hattempt rfl rfl hover).mpr
    (by decide +kernel)⟩

/-! ### A response that is given up -/

/-- The retrieval of an image. -/
def exampleImageFetch : FetchResult :=
  { exampleShellFetch with mediaType := "image/png" }

/-- What the run records. -/
def exampleImageFailure : TerminalCall := .failRun 1 "unsupported_media" false []

/-- What the run asks, and what it is told. -/
def exampleImageMoments : List Moment :=
  [⟨.fetch "http://example.org/", .ok exampleImageFetch⟩,
    ⟨.terminal exampleImageFailure, .ok .applied⟩].map (Moment.mk 0 exampleShellDb) ++
  [⟨0, (exampleImageFailure.perform exampleContracts 0 exampleShellDb).2,
    ⟨.countRun "failed", ()⟩⟩]

/-- The image is retrieved and its media type is not supported: the run fails with one retrieval
and without a fetch row. -/
theorem unsupported_media_unrecorded : ∃ db',
    exampleShellDb.statuses exampleShellRun.runId = [.running] ∧
      exampleShellDb.fetchesOf exampleShellRun.runId = [] ∧
      Exec (processRun exampleShellLib exampleConfig exampleShellRun).run
        (exampleImageMoments.map Moment.exchange) (.ok ()) ∧
      Attempt exampleContracts exampleShellRun.runId exampleShellDb exampleImageMoments db' ∧
      db'.Over exampleShellRun.runId ∧
      (retrievals (exampleImageMoments.map Moment.exchange)).length = 1 ∧
      db'.fetchesOf exampleShellRun.runId = [] ∧
      ¬ FetchesRecorded exampleShellLib exampleShellRun
        (exampleImageMoments.map Moment.exchange) db' := by
  have hperform : exampleImageFailure.perform exampleContracts 0 exampleShellDb =
      (.ok .applied, (exampleImageFailure.perform exampleContracts 0 exampleShellDb).2) := rfl
  have hexecuted : exampleShellDb.executed exampleImageFailure.runId = true := rfl
  refine ⟨_, rfl, rfl, ?_,
    .counted (attempt_of_last [_] (by simp [Moment.Effect]) (Or.inl hperform)),
    TerminalCall.perform_over hexecuted hperform, rfl, rfl, ?_⟩
  · refine Exec.ask _ _ (Except.ok exampleImageFetch) ?_
    exact Exec.ask _ _ (Except.ok Completion.applied) (Exec.ask _ _ () (Exec.done _))
  · intro hrecorded
    cases hrecorded.length_eq

end Extractor
