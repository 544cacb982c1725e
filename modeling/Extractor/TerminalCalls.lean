import Extractor.ContentTexts

/-!
# The terminal calls of a run

Five adapters produce candidate decisions and mark one of them, and about ten call sites pass them
on: a completion must have exactly one selected decision, a rejection none. Here every terminal call
of `process_run` is shown to have such a list, on every route and for every sequence of answers, so
`validate_candidates` and the constraints of `extractor.candidates` refuse none of them.

## Main definitions

* `DecisionsWellFormed`: a list of decisions that can be stored, with the number that is selected.
* `AdapterLib.pipeline`: the conversions of a run, made of the adapters.

## Main results

* `fromHtml_decisions`, `fromPdf_decisions`, `fromProvider_decisions`,
  `fromTranscript_decision`: what the adapters return, with their documents and their rejections.
* `terminal_calls_well_formed`: the terminal calls of a run.
-/

namespace Extractor

open Program

/-! ### Decisions -/

/-- A decision whose score is a share of one and whose strategy fits its column. -/
structure CandidateDecision.Bounded (decision : CandidateDecision) : Prop where
  score : decision.score ≤ 1000
  strategy : (storable decision.strategy && lengthBetween 1 64 decision.strategy) = true

/-- **A list of decisions that can be stored**: not empty, with this many selected, of pairwise
distinct strategies. -/
structure DecisionsWellFormed (selected : ℕ) (candidates : List CandidateDecision) : Prop where
  nonempty : candidates ≠ []
  count : candidates.countP CandidateDecision.selected = selected
  distinct : (candidates.map CandidateDecision.strategy).Nodup
  bounded : ∀ c ∈ candidates, c.Bounded

/-- A failure class that fits its column. -/
def failureClassFits (failureClass : String) : Prop :=
  failureClass ≠ "" ∧ failureClass.utf8ByteSize ≤ 64

instance : DecidablePred failureClassFits := fun failureClass =>
  inferInstanceAs (Decidable (failureClass ≠ "" ∧ failureClass.utf8ByteSize ≤ 64))

/-- The evaluator never scores above 1000. -/
theorem bounded_decisionOf {strategy : String} {blocks : List DocumentBlock}
    {linkCharacters boilerplateCharacters : ℕ} {title : Option String}
    (h : (storable strategy && lengthBetween 1 64 strategy) = true) :
    (decisionOf strategy blocks linkCharacters boilerplateCharacters title).Bounded :=
  ⟨qualityMetrics_score_le, h⟩

/-- A list of one decision. -/
theorem decisionsWellFormed_singleton {decision : CandidateDecision} (h : decision.Bounded) :
    DecisionsWellFormed decision.selected.toNat [decision] := by
  refine ⟨List.cons_ne_nil _ _, ?_, List.nodup_singleton _, ?_⟩
  · cases hselected : decision.selected <;> simp [hselected]
  · intro c hc
    rw [List.mem_singleton.mp hc]
    exact h

/-- Marking a decision does not change its bounds. -/
theorem CandidateDecision.Bounded.select {decision : CandidateDecision} (h : decision.Bounded)
    (selected : Bool) : { decision with selected := selected }.Bounded :=
  ⟨h.score, h.strategy⟩

/-! ### HTML -/

/-- The decisions on the candidates of a page, marked by the strategy that was chosen. -/
theorem decisions_wellFormed (dom : HtmlDom) (title : Option String) :
    DecisionsWellFormed 0 ((extractCandidates dom).map (evaluate title)) ∧
      ∀ strategy : Strategy, DecisionsWellFormed 1
        (((extractCandidates dom).map (evaluate title)).map fun d =>
          { d with selected := d.strategy == strategy.asStr }) := by
  have hstrategies : ((extractCandidates dom).map (evaluate title)).map
      CandidateDecision.strategy = ["semantic", "readability", "density"] := by
    have h := congrArg (List.map Strategy.asStr) (map_strategy_extractCandidates dom)
    rw [List.map_map] at h ⊢
    exact h
  have hbounded : ∀ d ∈ (extractCandidates dom).map (evaluate title), d.Bounded := by
    intro d hd
    obtain ⟨c, -, rfl⟩ := List.mem_map.mp hd
    refine bounded_decisionOf ?_
    cases c.strategy <;> decide
  have hnonempty : (extractCandidates dom).map (evaluate title) ≠ [] := List.cons_ne_nil _ _
  refine ⟨⟨hnonempty, ?_, ?_, hbounded⟩, fun strategy => ⟨?_, ?_, ?_, ?_⟩⟩
  · refine List.countP_eq_zero.mpr fun d hd => ?_
    obtain ⟨c, -, rfl⟩ := List.mem_map.mp hd
    exact Bool.false_ne_true
  · rw [hstrategies]
    decide
  · simpa using hnonempty
  · have hcount : ((extractCandidates dom).map (evaluate title)).countP
        (fun d => d.strategy == strategy.asStr) = 1 := by
      have hmap := List.countP_map (p := fun s => s == strategy.asStr)
        (f := CandidateDecision.strategy) (l := (extractCandidates dom).map (evaluate title))
      rw [hstrategies] at hmap
      refine hmap.symm.trans ?_
      cases strategy <;> decide
    rw [List.countP_map]
    exact hcount
  · rw [List.map_map]
    change (((extractCandidates dom).map (evaluate title)).map CandidateDecision.strategy).Nodup
    rw [hstrategies]
    decide
  · intro d hd
    obtain ⟨d', hd', rfl⟩ := List.mem_map.mp hd
    exact (hbounded d' hd').select _

/-- A page is converted with one selected decision, or rejected with none. -/
theorem fromHtml_decisions (lib : HtmlLib) (input : DocumentInput) (limits : ParserConfig) :
    (∀ extraction, fromHtml lib input limits = .ok extraction →
      DecisionsWellFormed 1 extraction.candidates) ∧
    ∀ candidates, fromHtml lib input limits = .error (.lowQuality candidates) →
      DecisionsWellFormed 0 candidates := by
  constructor
  · intro extraction h
    obtain ⟨⟨assembly, decisions⟩, hassembly, h⟩ := Except.bind_eq_ok_iff.mp h
    obtain ⟨document, -, h⟩ := Except.bind_eq_ok_iff.mp h
    cases h
    obtain ⟨-, -, h⟩ := Except.bind_eq_ok_iff.mp hassembly
    obtain ⟨-, -, h⟩ := Except.bind_eq_ok_iff.mp h
    obtain ⟨best, -, h⟩ := Except.bind_eq_ok_iff.mp h
    obtain ⟨selected, -, h⟩ := Except.bind_eq_ok_iff.mp h
    cases h
    exact (decisions_wellFormed _ _).2 best.strategy
  · -- only the choice among the candidates rejects a page on quality
    have herrors : (fromHtml lib input limits).ErrorsIn fun e =>
        ∀ candidates, e = .lowQuality candidates → DecisionsWellFormed 0 candidates := by
      refine .bind (.bind (.check fun _ _ h => nomatch h) fun _ _ => ?_) fun _ _ => ?_
      · refine .bind (.check fun _ _ h => nomatch h) fun _ _ => .bind (.present ?_) fun _ _ => ?_
        · intro candidates h
          cases h
          exact (decisions_wellFormed _ _).1
        · exact .bind (.present fun _ h => nomatch h) fun _ _ => .ok
      · refine .bind ?_ fun _ _ => .ok
        exact .bind (.present fun _ h => nomatch h) fun _ _ =>
          .bind (.check fun _ _ h => nomatch h) fun _ _ => .ok
    exact fun candidates h => herrors _ h candidates rfl

/-! ### PDF -/

/-- The decision on a PDF. -/
theorem bounded_directPdf {blocks : List DocumentBlock} {title : Option String} :
    (evaluatePlainText directPdfStrategy blocks title).Bounded :=
  bounded_decisionOf (by decide)

/-- The page loop fails on budgets and broken pages only. -/
theorem pageBlocks_errors (limits : PdfConfig) (pages : List (Option String)) (textBytes : ℕ)
    (blocks : List DocumentBlock) :
    (pageBlocks limits pages textBytes blocks).ErrorsIn fun e =>
      ∀ candidates, e = .noTextLayer candidates → DecisionsWellFormed 0 candidates := by
  induction pages generalizing textBytes blocks with
  | nil => exact .ok
  | cons page rest ih =>
      exact .bind (.present fun _ h => nomatch h) fun _ _ =>
        .bind (.check fun _ _ h => nomatch h) fun _ _ => ih _ _

/-- A PDF is converted with one selected decision, or rejected with none. -/
theorem fromPdf_decisions (lib : PdfLib) (input : DocumentInput) (limits : PdfConfig) :
    (∀ extraction, fromPdf lib input limits = .ok extraction →
      DecisionsWellFormed 1 extraction.candidates) ∧
    ∀ candidates, fromPdf lib input limits = .error (.noTextLayer candidates) →
      DecisionsWellFormed 0 candidates := by
  constructor
  · intro extraction h
    obtain ⟨⟨assembly, decisions⟩, hassembly, h⟩ := Except.bind_eq_ok_iff.mp h
    obtain ⟨document, -, h⟩ := Except.bind_eq_ok_iff.mp h
    cases h
    obtain ⟨-, -, h⟩ := Except.bind_eq_ok_iff.mp hassembly
    obtain ⟨file, -, h⟩ := Except.bind_eq_ok_iff.mp h
    obtain ⟨-, -, h⟩ := Except.bind_eq_ok_iff.mp h
    obtain ⟨title, -, h⟩ := Except.bind_eq_ok_iff.mp h
    obtain ⟨-, -, h⟩ := Except.bind_eq_ok_iff.mp h
    obtain ⟨blocks, -, h⟩ := Except.bind_eq_ok_iff.mp h
    obtain ⟨-, -, h⟩ := Except.bind_eq_ok_iff.mp h
    cases h
    exact decisionsWellFormed_singleton (bounded_directPdf.select true)
  · -- only the acceptance of the text rejects a file with decisions
    have herrors : (fromPdf lib input limits).ErrorsIn fun e =>
        ∀ candidates, e = .noTextLayer candidates → DecisionsWellFormed 0 candidates := by
      refine .bind (.bind (.check fun _ _ h => nomatch h) fun _ _ => ?_) fun _ _ => ?_
      · refine .bind ?_ fun file _ => .bind (.check fun _ _ h => nomatch h) fun _ _ => ?_
        · refine .bind (.present fun _ h => nomatch h) fun file _ => ?_
          split
          · exact .renamed fun e _ h => by cases e <;> cases h
          · exact .ok
        refine .bind ?_ fun title _ => .bind (.check fun _ _ h => nomatch h) fun _ _ => ?_
        · rw [metadataTitle]
          split
          · exact .ok
          · exact .bind (.present fun _ h => nomatch h) fun _ _ => .ok
        refine .bind (pageBlocks_errors limits _ _ _) fun blocks _ => .bind (.check ?_) fun _ _ => .ok
        intro _ candidates h
        cases h
        exact decisionsWellFormed_singleton bounded_directPdf
      · exact .bind (.renamed fun e _ h => by cases e <;> cases h) fun _ _ => .ok
    exact fun candidates h => herrors _ h candidates rfl

/-! ### Providers -/

theorem bounded_provider (route : ProviderRoute) {blocks : List DocumentBlock}
    {title : Option String} : (evaluatePlainText route.strategy blocks title).Bounded := by
  refine bounded_decisionOf ?_
  cases route <;> decide

/-- An adapter decides on its own blocks, and selects nothing. -/
theorem adapter_decision {lib : ProviderLib} {limits : ProviderLimits} {route : ProviderRoute}
    {bytes : List UInt8} {adapted : AdapterExtraction}
    (h : route.adapter lib limits bytes = .ok adapted) :
    ∃ blocks title, adapted.decision = evaluatePlainText route.strategy blocks title := by
  cases route with
  | hackerNews =>
      obtain ⟨-, -, h⟩ := Except.bind_eq_ok_iff.mp h
      obtain ⟨root, -, h⟩ := Except.bind_eq_ok_iff.mp h
      obtain ⟨-, -, h⟩ := Except.bind_eq_ok_iff.mp h
      obtain ⟨title, -, h⟩ := Except.bind_eq_ok_iff.mp h
      obtain ⟨blocks, -, h⟩ := Except.bind_eq_ok_iff.mp h
      obtain ⟨blocks', -, h⟩ := Except.bind_eq_ok_iff.mp h
      cases h
      exact ⟨_, _, rfl⟩
  | reddit =>
      obtain ⟨listings, -, h⟩ := Except.bind_eq_ok_iff.mp h
      obtain ⟨post, -, h⟩ := Except.bind_eq_ok_iff.mp h
      obtain ⟨title, -, h⟩ := Except.bind_eq_ok_iff.mp h
      obtain ⟨blocks, -, h⟩ := Except.bind_eq_ok_iff.mp h
      obtain ⟨blocks', -, h⟩ := Except.bind_eq_ok_iff.mp h
      obtain ⟨blocks'', -, h⟩ := Except.bind_eq_ok_iff.mp h
      cases h
      exact ⟨_, _, rfl⟩

section AdapterErrors

/-- An error that rejects nothing on quality. -/
def NoRejection (e : ProviderError) : Prop := ∀ candidates, e ≠ .lowQuality candidates

variable {lib : ProviderLib} {limits : ProviderLimits}

theorem pushParagraph_errors (text : Option String) (blocks : List DocumentBlock) :
    (pushParagraph limits text blocks).ErrorsIn NoRejection := by
  rw [pushParagraph.eq_def]
  split
  · exact .ok
  · split
    · exact .error fun _ h => nomatch h
    · exact .ok

theorem collectComments_errors (items : List AlgoliaItem) (blocks : List DocumentBlock) :
    (collectComments lib limits items blocks).ErrorsIn NoRejection := by
  induction items, blocks using collectComments.induct with
  | case1 blocks =>
      rw [collectComments]
      exact .ok
  | case2 children id text title url rest blocks ihc ihr =>
      rw [collectComments]
      exact .bind (pushParagraph_errors _ _) fun pushed _ => .bind (ihc pushed) fun _ _ => ihr _

theorem trimmedTitle_errors (title : Option String) :
    (trimmedTitle title).ErrorsIn NoRejection :=
  .bind (.present fun _ h => nomatch h) fun _ _ =>
    .bind (.check fun _ _ h => nomatch h) fun _ _ => .ok

theorem walkQueue_errors (queue : List Posting) (blocks : List DocumentBlock) :
    (walkQueue limits queue blocks).ErrorsIn NoRejection := by
  induction queue, blocks using walkQueue.induct limits with
  | case1 blocks =>
      rw [walkQueue]
      exact .ok
  | case2 blocks p rest hkind ih =>
      rw [walkQueue, if_pos hkind]
      exact .bind (pushParagraph_errors _ _) fun pushed _ => ih pushed
  | case3 blocks p rest hkind ih =>
      rw [walkQueue, if_neg hkind]
      exact ih blocks

theorem pushComments_errors (postings : List Posting) (blocks : List DocumentBlock) :
    (pushComments limits postings blocks).ErrorsIn NoRejection := by
  induction postings generalizing blocks with
  | nil => exact .ok
  | cons posting rest ih =>
      rw [pushComments]
      split
      · exact .bind (pushParagraph_errors _ _) fun pushed _ => ih pushed
      · exact ih blocks

/-- No adapter rejects on quality. -/
theorem adapter_errors (route : ProviderRoute) (bytes : List UInt8) :
    (route.adapter lib limits bytes).ErrorsIn NoRejection := by
  cases route with
  | hackerNews =>
      refine .bind (.check fun _ _ h => nomatch h) fun _ _ => ?_
      refine .bind (.present fun _ h => nomatch h) fun root _ => ?_
      refine .bind (.check fun _ _ h => nomatch h) fun _ _ => ?_
      refine .bind (trimmedTitle_errors _) fun title _ => ?_
      refine .bind (pushParagraph_errors _ _) fun blocks _ => ?_
      exact .bind (collectComments_errors _ _) fun _ _ => .ok
  | reddit =>
      refine .bind (.present fun _ h => nomatch h) fun listings _ => ?_
      refine .bind (.present fun _ h => nomatch h) fun post _ => ?_
      refine .bind (trimmedTitle_errors _) fun title _ => ?_
      refine .bind (pushParagraph_errors _ _) fun blocks _ => ?_
      refine .bind (walkQueue_errors _ _) fun blocks _ => ?_
      exact .bind (pushComments_errors _ _) fun _ _ => .ok

end AdapterErrors

/-- A payload is converted with one selected decision, or rejected with none. -/
theorem fromProvider_decisions (lib : ProviderLib) (input : ProviderInput)
    (limits : ProviderLimits) :
    (∀ extraction, fromProvider lib input limits = .ok extraction →
      DecisionsWellFormed 1 extraction.candidates) ∧
    ∀ candidates, fromProvider lib input limits = .error (.lowQuality candidates) →
      DecisionsWellFormed 0 candidates := by
  constructor
  · intro extraction h
    obtain ⟨-, -, h⟩ := Except.bind_eq_ok_iff.mp h
    obtain ⟨adapted, hadapted, h⟩ := Except.bind_eq_ok_iff.mp h
    obtain ⟨-, -, h⟩ := Except.bind_eq_ok_iff.mp h
    obtain ⟨document, -, h⟩ := Except.bind_eq_ok_iff.mp h
    cases h
    obtain ⟨blocks, title, hdecision⟩ := adapter_decision hadapted
    have hbounded : adapted.decision.Bounded := hdecision ▸ bounded_provider input.route
    exact decisionsWellFormed_singleton (hbounded.select true)
  · have herrors : (fromProvider lib input limits).ErrorsIn fun e =>
        ∀ candidates, e = .lowQuality candidates → DecisionsWellFormed 0 candidates := by
      refine .bind (.check fun _ _ h => nomatch h) fun _ _ => ?_
      refine .bind (fun e he candidates h => ?_) fun adapted hadapted => ?_
      · exact absurd h (adapter_errors _ _ e he candidates)
      refine .bind (.check ?_) fun _ _ => .bind (.renamed ?_) fun _ _ => .ok
      · intro _ candidates h
        cases h
        obtain ⟨blocks, title, hdecision⟩ := adapter_decision hadapted
        rw [hdecision]
        exact decisionsWellFormed_singleton (bounded_provider input.route)
      · intro e candidates h
        cases e <;> cases h
    exact fun candidates h => herrors _ h candidates rfl

/-! ### Transcripts -/

theorem bounded_transcript {blocks : List DocumentBlock} {title : Option String} :
    (evaluatePlainText youtubeStrategy blocks title).Bounded :=
  bounded_decisionOf (by decide)

/-- A transcript is converted with one selected decision. -/
theorem fromTranscript_decision {lib : YoutubeLib} {input : TranscriptInput}
    {limits : YoutubeLimits} {extraction : TranscriptExtraction}
    (h : fromTranscript lib input limits = .ok extraction) :
    DecisionsWellFormed 1 [extraction.candidate] := by
  obtain ⟨⟨assembly, decision, timings⟩, hassembly, h⟩ := Except.bind_eq_ok_iff.mp h
  obtain ⟨document, -, h⟩ := Except.bind_eq_ok_iff.mp h
  cases h
  obtain ⟨-, -, h⟩ := Except.bind_eq_ok_iff.mp hassembly
  obtain ⟨-, -, h⟩ := Except.bind_eq_ok_iff.mp h
  obtain ⟨⟨blocks, timings'⟩, -, h⟩ := Except.bind_eq_ok_iff.mp h
  obtain ⟨-, -, h⟩ := Except.bind_eq_ok_iff.mp h
  cases h
  exact decisionsWellFormed_singleton (bounded_transcript.select true)

/-- A video without a usable track is rejected with one decision, which is not selected. -/
theorem rejectedTranscript_decision (title : Option String) :
    DecisionsWellFormed 0 [rejectedTranscriptDecision title] :=
  decisionsWellFormed_singleton (bounded_transcript.select false)

/-! ### Calls -/

/-- The decisions of a call. -/
def TerminalCall.candidates : TerminalCall → List CandidateDecision
  | .failRun _ _ _ _ => []
  | .complete _ success => success.candidates
  | .reject _ rejection => rejection.candidates

/-- **A decided call**: a completion with one selected decision, a rejection with none, and a
failure class that fits. -/
def TerminalCall.Decided : TerminalCall → Prop
  | .failRun _ failureClass _ _ => failureClassFits failureClass
  | .complete _ success => DecisionsWellFormed 1 success.candidates
  | .reject _ rejection =>
      DecisionsWellFormed 0 rejection.candidates ∧ failureClassFits rejection.failureClass

/-- A request that is a decided call, if it is a terminal one. -/
def AsksDecided : ∀ β : Type, RunOp β → Prop
  | _, .terminal call => call.Decided
  | _, _ => True

/-- The conversions of a run, made of the adapters. -/
def AdapterLib.pipeline (adapters : AdapterLib) (base : PipelineLib) : PipelineLib :=
  { base with
    providers := adapters.providers
    fromHtml := fromHtml adapters.html
    fromPdf := fromPdf adapters.pdf
    parseTimedtext := fun bytes limits => parseTimedtext adapters.youtube limits bytes
    fromTranscript := fromTranscript adapters.youtube }

/-! ### The parts of the flows -/

section Flows

variable {lib : PipelineLib} {config : ExtractorConfig} {run : QueuedRun} {fetched : FetchResult}

theorem decided_terminate {outcome : String} {call : TerminalCall} (h : call.Decided) :
    Requests AsksDecided (terminate outcome call) :=
  .call_bind h fun _ => .bind (.done rfl) fun _ => .last_call trivial

theorem decided_failRun {failureClass : String} {retryable : Bool} {steps : List ResolutionStep}
    (h : failureClassFits failureClass) :
    Requests AsksDecided (failRunNow run failureClass retryable steps) :=
  decided_terminate h

theorem decided_rejectQuality {fetch : CompletedFetch} {candidates : List CandidateDecision}
    {failureClass : String} {steps : List ResolutionStep} (h : DecisionsWellFormed 0 candidates)
    (hclass : failureClassFits failureClass) :
    Requests AsksDecided (rejectQualityNow run fetch candidates failureClass steps) :=
  decided_terminate ⟨h, hclass⟩

theorem decided_rejectBlobQuality {rawBlob : BlobRef} {candidates : List CandidateDecision}
    {failureClass : String} {steps : List ResolutionStep} (h : DecisionsWellFormed 0 candidates)
    (hclass : failureClassFits failureClass) :
    Requests AsksDecided (rejectBlobQualityNow run rawBlob candidates failureClass steps) :=
  decided_terminate ⟨h, hclass⟩

theorem decided_recordFetch {fetch : CompletedFetch} :
    Requests AsksDecided (recordFetchNow run fetch) :=
  .call_bind trivial fun _ => .done rfl

theorem decided_readOwn {blob : BlobRef} : Requests AsksDecided (readOwn blob) :=
  .call_bind trivial fun bytes => by cases bytes <;> exact .done rfl

theorem decided_parseAddress {text : String} : Requests AsksDecided (parseAddress text) :=
  .call_bind trivial fun valid => by cases valid <;> exact .done rfl

theorem decided_storeDocumentIr {document : Document} :
    Requests AsksDecided (storeDocumentIr lib document) := by
  rw [storeDocumentIr]
  cases lib.documentJson document with
  | none => exact .done rfl
  | some canonical => exact .bind (.done rfl) fun _ => .call_bind trivial fun _ => .done rfl

theorem decided_completeDocument {document : Document} {fetch : CompletedFetch}
    {candidates : List CandidateDecision} {steps : List ResolutionStep}
    (h : DecisionsWellFormed 1 candidates) :
    Requests AsksDecided (completeDocumentNow lib run document fetch candidates steps) :=
  .bind decided_storeDocumentIr fun _ => decided_terminate h

theorem decided_completeBlobDocument {document : Document} {rawBlob : BlobRef}
    {candidates : List CandidateDecision} {steps : List ResolutionStep}
    (h : DecisionsWellFormed 1 candidates) :
    Requests AsksDecided (completeBlobDocumentNow lib run document rawBlob candidates steps) :=
  .bind decided_storeDocumentIr fun _ => decided_terminate h

/-- The bytes of a stored artifact, or a failed run. -/
theorem decided_verified {blob : BlobRef} {failed : Process Unit}
    {f : List UInt8 → Process Unit} (hfailed : Requests AsksDecided failed)
    (hf : ∀ bytes, Requests AsksDecided (f bytes)) :
    Requests AsksDecided (call (RunOp.ownVerify blob) >>= fun verified =>
      match verified with
      | .error _ => failed
      | .ok () => readOwn blob >>= f) := by
  refine .call_bind trivial fun verified => ?_
  cases verified with
  | error error => exact hfailed
  | ok u => exact .bind decided_readOwn hf

end Flows

section Routes

variable {adapters : AdapterLib} {base : PipelineLib} {config : ExtractorConfig} {run : QueuedRun}
  {fetched : FetchResult}

/-! ### Rendering -/

theorem decided_convertRendered {completed : RenderCompleted} : Requests AsksDecided
    (convertRendered (adapters.pipeline base) config run fetched completed) := by
  refine .call_bind trivial fun verified => .bind (.done rfl) fun _ => ?_
  refine .call_bind trivial fun bytes => .bind ?_ fun rendered => ?_
  · cases bytes <;> exact .done rfl
  refine .bind decided_parseAddress fun address => ?_
  split
  · exact .done rfl
  · next candidates hhtml =>
      refine .bind (decided_rejectQuality ?_ (by decide)) fun _ => .done rfl
      exact (fromHtml_decisions _ _ _).2 candidates hhtml
  · exact .bind (decided_failRun (by decide)) fun _ => .done rfl

theorem decided_escalateToRender : Requests AsksDecided
    (escalateToRender (adapters.pipeline base) config run fetched) := by
  refine .call_bind trivial fun renderId => .call_bind trivial fun operationId => ?_
  refine .call_bind trivial fun reply => ?_
  split
  · exact decided_convertRendered
  · next failed =>
      refine .bind (decided_failRun ?_) fun _ => .done rfl
      cases failed.failureClass <;> decide
  · exact .bind (decided_failRun (by decide)) fun _ => .done rfl
  · exact .bind (decided_failRun (by decide)) fun _ => .done rfl

/-- A rendered page that is returned has one selected decision. -/
theorem rendered_decisions : OkAfter (fun _ => False)
    (fun extraction => ∀ e, extraction = some e → DecisionsWellFormed 1 e.candidates)
    (escalateToRender (adapters.pipeline base) config run fetched) := by
  have hnone : ∀ q : Process Unit, OkAfter (fun _ => False)
      (fun extraction : Option Extraction => ∀ e, extraction = some e →
        DecisionsWellFormed 1 e.candidates) (q >>= fun _ => return none) :=
    fun q => OkAfter.any.bind fun _ _ => .done rfl fun _ h => nomatch h
  refine .call_bind fun renderId => .call_bind fun operationId => .call_bind fun reply => ?_
  split
  · refine .call_bind fun verified => OkAfter.any.bind fun _ _ => .call_bind fun bytes => ?_
    refine OkAfter.any.bind fun rendered _ => OkAfter.any.bind fun address _ => ?_
    split
    · next extraction hhtml =>
        refine .done rfl fun e he => ?_
        cases he
        exact (fromHtml_decisions _ _ _).1 extraction hhtml
    · exact hnone _
    · exact hnone _
  · exact hnone _
  · exact hnone _
  · exact hnone _

theorem decided_spendBudgetAndEscalate : Requests AsksDecided
    (spendBudgetAndEscalate (adapters.pipeline base) config run fetched) := by
  refine .call_bind trivial fun budget => .bind ?_ fun budget => ?_
  · cases budget <;> exact .done rfl
  cases budget with
  | exhausted => exact .done rfl
  | consumed count =>
      refine .bind_ok decided_escalateToRender rendered_decisions fun extraction hdecisions => ?_
      cases extraction with
      | none => exact .done rfl
      | some extraction =>
          exact .bind (decided_completeDocument (hdecisions extraction rfl)) fun _ => .done rfl

theorem decided_escalateHtml {rawHtml : List UInt8} {candidates : List CandidateDecision}
    (h : DecisionsWellFormed 0 candidates) : Requests AsksDecided
    (escalateHtml (adapters.pipeline base) config run fetched rawHtml candidates) := by
  simp only [escalateHtml]
  split
  · refine .bind decided_spendBudgetAndEscalate fun step => ?_
    cases step with
    | completed => exact .done rfl
    | workerTerminal => exact decided_rejectQuality h (by decide)
    | budgetExhausted => exact decided_rejectQuality h (by decide)
  · exact decided_rejectQuality h (by decide)

theorem decided_completeHtml :
    Requests AsksDecided (completeHtml (adapters.pipeline base) config run fetched) := by
  refine decided_verified (decided_failRun (by decide)) fun bytes => ?_
  refine .bind decided_parseAddress fun address => ?_
  split
  · next extraction hhtml =>
      exact decided_completeDocument ((fromHtml_decisions _ _ _).1 extraction hhtml)
  · next candidates hhtml =>
      exact decided_escalateHtml ((fromHtml_decisions _ _ _).2 candidates hhtml)
  · exact decided_failRun (by decide)

/-! ### PDF -/

theorem decided_finishPdf {raw : BlobRef} {address : String} {bytes : List UInt8}
    {fetched : Option FetchResult} : Requests AsksDecided
    (finishPdf (adapters.pipeline base) config run raw address bytes fetched) := by
  rw [finishPdf.eq_def]
  split
  · next extraction fetched hpdf =>
      exact decided_completeDocument ((fromPdf_decisions _ _ _).1 extraction hpdf)
  · next extraction hpdf =>
      exact decided_completeBlobDocument ((fromPdf_decisions _ _ _).1 extraction hpdf)
  · next candidates fetched hpdf =>
      exact decided_rejectQuality ((fromPdf_decisions _ _ _).2 candidates hpdf) (by decide)
  · next candidates hpdf =>
      exact decided_rejectBlobQuality ((fromPdf_decisions _ _ _).2 candidates hpdf) (by decide)
  · exact decided_failRun (by decide)
  · exact decided_failRun (by decide)

theorem decided_completePdf :
    Requests AsksDecided (completePdf (adapters.pipeline base) config run fetched) := by
  refine decided_verified (decided_failRun (by decide)) fun bytes => ?_
  exact .bind decided_parseAddress fun address => decided_finishPdf

theorem decided_completeBlobPdf {blob : BlobRef} :
    Requests AsksDecided (completeBlobPdf (adapters.pipeline base) config run blob) := by
  rw [completeBlobPdf]
  split
  · exact decided_failRun (by decide)
  refine .call_bind trivial fun verified => ?_
  cases verified with
  | error error =>
      refine decided_failRun ?_
      cases error <;> decide
  | ok u =>
      dsimp only
      split
      · exact decided_failRun (by decide)
      refine .call_bind trivial fun bytes => ?_
      cases bytes with
      | none => exact decided_failRun (by decide)
      | some bytes =>
          refine .call_bind trivial fun stored => .bind ?_ fun raw => ?_
          · cases stored <;> exact .done rfl
          split
          · exact decided_failRun (by decide)
          · exact .bind decided_parseAddress fun address => decided_finishPdf

/-! ### Providers -/

/-- The article that a link leads to is completed with the decisions of the provider. -/
theorem decided_resolveExternalArticle {extraction : ProviderExtraction} {target : String}
    (h : DecisionsWellFormed 1 extraction.candidates) : Requests AsksDecided
    (resolveExternalArticle (adapters.pipeline base) config run extraction target) := by
  refine .call_bind trivial fun fetched => ?_
  split
  · exact decided_failRun (by decide)
  · exact decided_failRun (by decide)
  · exact decided_failRun (by decide)
  · split
    · exact decided_failRun (by decide)
    refine decided_verified (decided_failRun (by decide)) fun bytes => ?_
    refine .bind decided_parseAddress fun address => ?_
    split
    · exact decided_failRun (by decide)
    · exact decided_completeDocument h

theorem decided_fallback {providerClass : String} : Requests AsksDecided
    (fallbackToGenericHtml (adapters.pipeline base) config run providerClass) := by
  refine .call_bind trivial fun fetched => ?_
  cases fetched with
  | error error => exact decided_failRun (by decide)
  | ok fetched =>
      dsimp only
      split
      · exact decided_failRun (by decide)
      refine decided_verified (decided_failRun (by decide)) fun bytes => ?_
      refine .bind decided_parseAddress fun address => ?_
      split
      · next extraction hhtml =>
          exact decided_completeDocument ((fromHtml_decisions _ _ _).1 extraction hhtml)
      · next candidates hhtml =>
          exact decided_rejectQuality ((fromHtml_decisions _ _ _).2 candidates hhtml) (by decide)
      · exact decided_failRun (by decide)

theorem decided_completeProvider {route : ProviderRoute} {address : String} : Requests AsksDecided
    (completeProvider (adapters.pipeline base) config route address run) := by
  refine .call_bind trivial fun fetched => ?_
  cases fetched with
  | error error => exact decided_failRun (by decide)
  | ok fetched =>
      dsimp only
      split
      · exact .bind decided_recordFetch fun _ => decided_fallback
      refine decided_verified (decided_failRun (by decide)) fun bytes => ?_
      refine .bind decided_parseAddress fun payloadAddress => ?_
      cases hprovider : fromProvider (adapters.pipeline base).providers
          ⟨run.owner, payloadAddress, fetched.artifact, route, bytes⟩
          ⟨config.providers.maxInputBytes, config.providers.maxBlocks⟩ with
      | error error =>
          cases error with
          | lowQuality candidates =>
              exact decided_rejectQuality ((fromProvider_decisions _ _ _).2 candidates hprovider)
                (by decide)
          | resourceLimit => exact decided_failRun (by decide)
          | _ => exact .bind decided_recordFetch fun _ => decided_fallback
      | ok extraction =>
          have hdecisions := (fromProvider_decisions _ _ _).1 extraction hprovider
          rw [continueProvider.eq_def]
          dsimp only
          split
          · exact .bind decided_recordFetch fun _ => decided_resolveExternalArticle hdecisions
          · exact decided_completeDocument hdecisions

/-! ### YouTube -/

theorem decided_writeTimingDiagnostics {sidecar : TimingSidecar} {archival : String} :
    Requests AsksDecided
      (writeTimingDiagnostics (adapters.pipeline base) run sidecar archival) := by
  rw [writeTimingDiagnostics]
  refine .bind ?_ fun payload => .call_bind trivial fun stored => .bind ?_ fun reference => ?_
  · cases (adapters.pipeline base).timingJson sidecar archival <;> exact .done rfl
  · cases stored <;> exact .done rfl
  refine .call_bind trivial fun row => .bind ?_ fun row => .bind ?_ fun owner => ?_
  · cases row <;> exact .done rfl
  · cases row <;> exact .done rfl
  exact .call_bind trivial fun recorded => by cases recorded <;> exact .done rfl

theorem decided_completeTrack {videoId watchAddress : String} {playerMeta : PlayerMeta}
    {track : CaptionTrack} : Requests AsksDecided
    (completeTrack (adapters.pipeline base) config run videoId watchAddress fetched playerMeta
      track) := by
  refine .call_bind trivial fun trackFetch => ?_
  cases trackFetch with
  | error error => exact decided_failRun (by decide)
  | ok trackFetch =>
      dsimp only
      split
      · exact decided_failRun (by decide)
      refine decided_verified (decided_failRun (by decide)) fun bytes => ?_
      split
      · exact decided_failRun (by decide)
      refine .bind decided_parseAddress fun address => ?_
      rw [completeTranscript.eq_def]
      split
      · exact .done rfl
      · exact decided_failRun (by decide)
      · next extraction htranscript =>
          refine .bind (decided_completeDocument (fromTranscript_decision htranscript)) fun _ => ?_
          exact .call_bind trivial fun archival => decided_writeTimingDiagnostics

theorem decided_completeYoutubeFlow {videoId watchAddress : String} : Requests AsksDecided
    (completeYoutubeFlow (adapters.pipeline base) config run videoId watchAddress) := by
  refine .call_bind trivial fun fetched => ?_
  cases fetched with
  | error error => exact decided_failRun (by decide)
  | ok fetched =>
      dsimp only
      split
      · exact .bind decided_recordFetch fun _ => decided_fallback
      refine decided_verified (decided_failRun (by decide)) fun bytes => ?_
      rw [completePlayer.eq_def]
      split
      · exact decided_failRun (by decide)
      · exact .bind decided_recordFetch fun _ => decided_fallback
      · split
        · exact decided_rejectQuality (rejectedTranscript_decision _) (by decide)
        · exact decided_rejectQuality (rejectedTranscript_decision _) (by decide)
        · exact .bind decided_recordFetch fun _ => decided_completeTrack

/-! ### The run -/

/-- **Every terminal call of a run is decided.** -/
theorem decided_processRun :
    Requests AsksDecided (processRun (adapters.pipeline base) config run) := by
  rw [processRun]
  split
  · exact decided_completeBlobPdf
  refine .bind ?_ fun native => ?_
  · cases nativeRequest (adapters.pipeline base) run <;> exact .done rfl
  split
  · exact decided_completeProvider
  split
  · split
    · exact decided_completeYoutubeFlow
    · exact decided_fallback
  refine .call_bind trivial fun fetched => ?_
  cases fetched with
  | error error => exact decided_failRun (by decide)
  | ok fetched =>
      dsimp only
      split
      · exact decided_completeHtml
      · split
        · exact decided_completePdf
        · exact decided_failRun (by decide)

end Routes

/-! ### What the database accepts -/

/-- Where at most one element has a property, no two have it. -/
theorem pairwise_of_countP_le_one {α : Type} {p : α → Bool} {l : List α} (h : l.countP p ≤ 1) :
    l.Pairwise fun a b => (p a && p b) = false := by
  induction l with
  | nil => exact List.Pairwise.nil
  | cons a l ih =>
      cases hp : p a with
      | false =>
          rw [List.countP_cons_of_neg (by simp [hp])] at h
          exact List.pairwise_cons.mpr ⟨fun b _ => by simp [hp], ih h⟩
      | true =>
          rw [List.countP_cons_of_pos hp] at h
          have hzero : l.countP p = 0 := by omega
          refine List.pairwise_cons.mpr ⟨fun b hb => ?_, ih (by omega)⟩
          simpa [hp] using List.countP_eq_zero.mp hzero b hb

section Accepted

variable {n : ℕ} {candidates : List CandidateDecision}

/-- `validate_candidates` accepts such a list. -/
theorem DecisionsWellFormed.valid (h : DecisionsWellFormed n candidates) :
    validCandidates candidates n = true := by
  have hnonempty : candidates.isEmpty = false := by simpa using h.nonempty
  rw [validCandidates, hnonempty, h.count]
  simp

/-- Its rows meet the checks and the unique keys of the table. -/
theorem DecisionsWellFormed.rows (h : DecisionsWellFormed n candidates) (hn : n ≤ 1)
    (runId : Uuid) (now : Timestamp) : CandidatesWellFormed runId now candidates := by
  refine ⟨fun c hc => ?_, ?_⟩
  · have hbounded := h.bounded c hc
    rw [CandidateRow.checked, Bool.and_eq_true]
    exact ⟨hbounded.strategy, decide_eq_true hbounded.score⟩
  · have hdistinct := List.pairwise_map.mp h.distinct
    have hselected := pairwise_of_countP_le_one (h.count.trans_le hn)
    refine hdistinct.imp₂ (fun a b hstrategy hboth => ?_) hselected
    have hne : (b.strategy == a.strategy) = false := beq_false_of_ne (Ne.symm hstrategy)
    rw [Bool.and_comm] at hboth
    simp [candidateConflicts, CandidateDecision.row, hne, hboth]

end Accepted

/-- **The terminal calls of a run are well-formed.** On every route and for every sequence of
answers: a completion passes a list with exactly one selected decision and a rejection a non-empty
one with none, of distinct strategies and scores of at most 1000, and a failure class has 1 to 64
bytes. So `validate_candidates` accepts the list; and where the run is still running, in any
reachable state, the table accepts its rows. -/
theorem terminal_calls_well_formed {adapters : AdapterLib} {base : PipelineLib}
    {config : ExtractorConfig} {run : QueuedRun} {tr : Trace RunOp}
    {result : Except ProcessError Unit}
    (hexec : Exec (processRun (adapters.pipeline base) config run).run tr result)
    {call : TerminalCall} {answer : Except ConsumeError Completion}
    (hmem : (⟨.terminal call, answer⟩ : Exchange RunOp) ∈ tr) :
    call.Decided ∧
    (∀ run success, call = .complete run success → validCandidates success.candidates 1 = true) ∧
    (∀ runId rejection, call = .reject runId rejection →
      validCandidates rejection.candidates 0 = true) ∧
    ∀ {urlLib : UrlLib} {commands : CommandLib} {contracts : Contracts} {columns : BlobColumns}
      (x : LedgerState urlLib commands) (row : RunRow),
      (ledgerSystem urlLib commands contracts columns).Reachable x →
      enterRun call.runId x.data.db = some row →
      ∀ now db, runExists call.runId db = true → db.candidates = x.data.db.candidates →
        ∃ db', insertCandidates now call.runId call.candidates db = .ok ((), db') := by
  have hdecided : call.Decided := decided_processRun tr result hexec _ hmem
  refine ⟨hdecided, ?_, ?_, ?_⟩
  · rintro run success rfl
    exact hdecided.valid
  · rintro runId rejection rfl
    exact hdecided.1.valid
  · intro urlLib commands contracts columns x row hreach henter now db hknown hsame
    have hfree : ∀ c ∈ db.candidates, c.runId ≠ call.runId :=
      hsame ▸ (ledgerInv_of_reachable hreach).not_candidate_of_running henter
    cases call with
    | failRun runId failureClass retryable steps => exact ⟨db, rfl⟩
    | complete run success =>
        exact ⟨_, (hdecided.rows (Nat.le_refl 1) _ now).insert_ok hknown hfree⟩
    | reject runId rejection =>
        exact ⟨_, (hdecided.1.rows (Nat.zero_le 1) _ now).insert_ok hknown hfree⟩

/-! ### An empty page -/

/-- The conversions of `exampleAdapters`, to which every page is empty. -/
def emptyPageLib : PipelineLib := exampleAdapters.pipeline examplePipelineLib

/-- The decisions on an empty page. -/
def emptyPageDecisions : List CandidateDecision :=
  ["semantic", "readability", "density"].map fun strategy => decisionOf strategy [] 0 0 none

/-- A run for the page. -/
def emptyPageRun : QueuedRun :=
  ⟨1, 2, "http://example.org/", "generic_web", none, 1048576⟩

/-- Its retrieval. -/
def emptyPageFetch : FetchResult :=
  { payloadFetch exampleUrl exampleBlob with mediaType := "text/html" }

/-- The call that ends the run. -/
def emptyPageCall : TerminalCall :=
  .reject 1 ⟨exampleBlob, some (completedFetch emptyPageLib emptyPageFetch), emptyPageDecisions,
    "quality", [⟨0, "render_policy", some "rendering_disabled", none, none⟩]⟩

/-- The exchanges of the run. -/
def emptyPageExchanges : Trace RunOp :=
  [⟨.fetch "http://example.org/", .ok emptyPageFetch⟩, ⟨.ownVerify exampleBlob, .ok ()⟩,
    ⟨.ownRead exampleBlob, some []⟩,
    ⟨.parseAddress (finalAddress emptyPageLib emptyPageFetch), true⟩,
    ⟨.terminal emptyPageCall, .ok .applied⟩, ⟨.countRun "failed", ()⟩]

theorem exec_emptyPage : Exec (processRun emptyPageLib exampleConfig emptyPageRun).run
    emptyPageExchanges (.ok ()) := by
  refine Exec.ask _ _ (Except.ok emptyPageFetch) (Exec.ask _ _ (Except.ok ()) ?_)
  refine Exec.ask _ _ (some []) (Exec.ask _ _ true ?_)
  exact Exec.ask _ _ (Except.ok Completion.applied) (Exec.ask _ _ () (Exec.done _))

theorem terminal_calls_well_formed_emptyPage :
    emptyPageCall.Decided ∧ validCandidates emptyPageDecisions 0 = true := by
  have hmem : (⟨.terminal emptyPageCall, .ok .applied⟩ : Exchange RunOp) ∈ emptyPageExchanges := by
    simp [emptyPageExchanges]
  have h := terminal_calls_well_formed exec_emptyPage hmem
  exact ⟨h.1, h.2.2.1 _ _ rfl⟩

end Extractor
