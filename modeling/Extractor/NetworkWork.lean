import Extractor.Containment

/-!
# The network work of a run

A run reaches the network by a retrieval, by a render command, and by reading back the DOM that a
render wrote. The routes of `process_run` call one another: a provider continues with an external
article or falls back to the HTML page, a video falls back to the page, a page escalates to a
render. Here every flow is bounded, where a retrieval, a render and the reading of a rendered DOM
each have a price of their own.

## Main results

* `costs_processRun`: what a run may spend, on every route.
* `bounded_network_work`: at most two operations, of which at most one is a render, and no render
  after a rendered DOM was read.
-/

namespace Extractor

open Program

/-- The price of an exchange: `cf` for a retrieval, `cr` for a render command and `cd` for the
reading of a rendered DOM. -/
def networkCost (cf cr cd : ℕ) : Exchange RunOp → ℕ
  | ⟨.fetch _, _⟩ => cf
  | ⟨.render _, _⟩ => cr
  | ⟨.workerRead _ _, _⟩ => cd
  | _ => 0

/-- A render can happen: rendering is enabled, for some host. -/
def RenderReachable (render : RenderConfig) : Prop :=
  render.enabled = true ∧ ∃ host, Escalation.hostAllowed host render.allowedHosts = true

section Bounds

variable {lib : PipelineLib} {config : ExtractorConfig} {run : QueuedRun} {fetched : FetchResult}
  {cf cr cd n : ℕ}

/-! ### Parts without network work -/

theorem costs_terminate {outcome : String} {call : TerminalCall} :
    Costs (networkCost cf cr cd) n (terminate outcome call) :=
  .free_call (fun _ => rfl) fun _ => .free_bind (.done rfl) fun _ => .last_call fun _ => rfl

theorem costs_recordFetch {fetch : CompletedFetch} :
    Costs (networkCost cf cr cd) 0 (recordFetchNow run fetch) :=
  .free_call (fun _ => rfl) fun r => by cases r <;> exact .done rfl

theorem costs_readOwn {blob : BlobRef} : Costs (networkCost cf cr cd) 0 (readOwn blob) :=
  .free_call (fun _ => rfl) fun bytes => by cases bytes <;> exact .done rfl

theorem costs_parseAddress {text : String} : Costs (networkCost cf cr cd) 0 (parseAddress text) :=
  .free_call (fun _ => rfl) fun valid => by cases valid <;> exact .done rfl

theorem costs_storeDocumentIr {document : Document} :
    Costs (networkCost cf cr cd) 0 (storeDocumentIr lib document) := by
  rw [storeDocumentIr]
  cases lib.documentJson document with
  | none => exact .done rfl
  | some canonical =>
      refine .free_bind (.done rfl) fun canonical => ?_
      exact .free_call (fun _ => rfl) fun stored => by cases stored <;> exact .done rfl

theorem costs_completeDocument {document : Document} {fetch : CompletedFetch}
    {candidates : List CandidateDecision} {steps : List ResolutionStep} :
    Costs (networkCost cf cr cd) n (completeDocumentNow lib run document fetch candidates steps) :=
  .free_bind costs_storeDocumentIr fun _ => costs_terminate

theorem costs_completeBlobDocument {document : Document} {rawBlob : BlobRef}
    {candidates : List CandidateDecision} {steps : List ResolutionStep} :
    Costs (networkCost cf cr cd) n
      (completeBlobDocumentNow lib run document rawBlob candidates steps) :=
  .free_bind costs_storeDocumentIr fun _ => costs_terminate

/-- The bytes of a stored artifact, or a failed run. -/
theorem costs_verified {blob : BlobRef} {failed : Process Unit}
    {f : List UInt8 → Process Unit} (hfailed : Costs (networkCost cf cr cd) n failed)
    (hf : ∀ bytes, Costs (networkCost cf cr cd) n (f bytes)) :
    Costs (networkCost cf cr cd) n (call (RunOp.ownVerify blob) >>= fun verified =>
      match verified with
      | .error _ => failed
      | .ok () => readOwn blob >>= f) := by
  refine .free_call (fun _ => rfl) fun verified => ?_
  cases verified with
  | error error => exact hfailed
  | ok u => exact .free_bind costs_readOwn hf

/-! ### Rendering -/

/-- A conversion reads one rendered DOM. -/
theorem costs_convertRendered {completed : RenderCompleted} :
    Costs (networkCost cf cr cd) cd (convertRendered lib config run fetched completed) := by
  refine .free_call (fun _ => rfl) fun verified => ?_
  refine .free_bind ?_ fun _ => ?_
  · cases verified <;> exact .done rfl
  refine .call_bind (n := 0) (fun _ => Nat.le_refl _) fun bytes => ?_
  refine .free_bind ?_ fun rendered => .free_bind costs_parseAddress fun address => ?_
  · cases bytes <;> exact .done rfl
  split
  · exact .done rfl
  · exact .free_bind costs_terminate fun _ => .done rfl
  · exact .free_bind costs_terminate fun _ => .done rfl

/-- An escalation publishes one render command. -/
theorem costs_escalateToRender :
    Costs (networkCost cf cr cd) (cr + cd) (escalateToRender lib config run fetched) := by
  refine .free_call (fun _ => rfl) fun renderId => ?_
  refine .free_call (fun _ => rfl) fun operationId => ?_
  refine .call_bind (fun _ => Nat.le_refl cr) fun reply => ?_
  split
  · exact costs_convertRendered
  · exact .free_bind costs_terminate fun _ => .done rfl
  · exact .free_bind costs_terminate fun _ => .done rfl
  · exact .free_bind costs_terminate fun _ => .done rfl

theorem costs_spendBudgetAndEscalate :
    Costs (networkCost cf cr cd) (cr + cd)
      (spendBudgetAndEscalate lib config run fetched) := by
  refine .free_call (fun _ => rfl) fun budget => .free_bind ?_ fun budget => ?_
  · cases budget <;> exact .done rfl
  cases budget with
  | exhausted => exact .done rfl
  | consumed count =>
      refine (costs_escalateToRender.bind (n := 0) fun extraction => ?_).mono (Nat.add_zero _).le
      cases extraction with
      | none => exact .done rfl
      | some extraction => exact .free_bind costs_completeDocument fun _ => .done rfl

/-- A render is asked for only where one can happen. -/
theorem renderReachable_of_escalate {inputs : Escalation.Inputs}
    (h : Escalation.decide inputs = .escalate) : RenderReachable inputs.config := by
  rw [Escalation.decide] at h
  split_ifs at h with _ hdisabled _ hhost
  refine ⟨by simpa using hdisabled, inputs.host, by simpa using hhost⟩

/-- What follows a page of low quality spends one render at most. -/
theorem costs_escalateHtml {rawHtml : List UInt8} {candidates : List CandidateDecision}
    (hrender : RenderReachable config.render → cr + cd ≤ n) :
    Costs (networkCost cf cr cd) n (escalateHtml lib config run fetched rawHtml candidates) := by
  simp only [escalateHtml]
  split
  · next hdecision =>
      have hle := hrender (renderReachable_of_escalate hdecision)
      refine Costs.mono (costs_spendBudgetAndEscalate.bind (n := 0) fun step => ?_) hle
      cases step with
      | completed => exact .done rfl
      | workerTerminal => exact costs_terminate
      | budgetExhausted => exact costs_terminate
  · exact costs_terminate

theorem costs_completeHtml
    (hrender : RenderReachable config.render → cr + cd ≤ n) :
    Costs (networkCost cf cr cd) n (completeHtml lib config run fetched) := by
  refine costs_verified costs_terminate fun bytes => ?_
  refine .free_bind costs_parseAddress fun address => ?_
  split
  · exact costs_completeDocument
  · exact costs_escalateHtml hrender
  · exact costs_terminate

/-! ### PDF -/

theorem costs_finishPdf {raw : BlobRef} {address : String} {bytes : List UInt8}
    {fetched : Option FetchResult} :
    Costs (networkCost cf cr cd) n (finishPdf lib config run raw address bytes fetched) := by
  rw [finishPdf.eq_def]
  split
  · exact costs_completeDocument
  · exact costs_completeBlobDocument
  · exact costs_terminate
  · exact costs_terminate
  · exact costs_terminate
  · exact costs_terminate

theorem costs_completePdf : Costs (networkCost cf cr cd) n (completePdf lib config run fetched) := by
  refine costs_verified costs_terminate fun bytes => ?_
  exact .free_bind costs_parseAddress fun address => costs_finishPdf

theorem costs_completeBlobPdf {blob : BlobRef} :
    Costs (networkCost cf cr cd) n (completeBlobPdf lib config run blob) := by
  rw [completeBlobPdf]
  split
  · exact costs_terminate
  refine .free_call (fun _ => rfl) fun verified => ?_
  cases verified with
  | error error => exact costs_terminate
  | ok u =>
      dsimp only
      split
      · exact costs_terminate
      refine .free_call (fun _ => rfl) fun bytes => ?_
      cases bytes with
      | none => exact costs_terminate
      | some bytes =>
          refine .free_call (fun _ => rfl) fun stored => .free_bind ?_ fun raw => ?_
          · cases stored <;> exact .done rfl
          split
          · exact costs_terminate
          · exact .free_bind costs_parseAddress fun address => costs_finishPdf

/-! ### Second retrievals -/

/-- A retrieval, and what follows it. -/
theorem costs_fetch {url : String} {f : Except SafeFetchError FetchResult → Process Unit}
    (hf : ∀ fetched, Costs (networkCost cf cr cd) n (f fetched)) :
    Costs (networkCost cf cr cd) (cf + n) (call (RunOp.fetch url) >>= f) :=
  .call_bind (fun _ => Nat.le_refl _) hf

theorem costs_resolveExternalArticle {extraction : ProviderExtraction} {target : String} :
    Costs (networkCost cf cr cd) cf
      (resolveExternalArticle lib config run extraction target) := by
  refine costs_fetch (n := 0) fun fetched => ?_
  split
  · exact costs_terminate
  · exact costs_terminate
  · exact costs_terminate
  · split
    · exact costs_terminate
    refine costs_verified costs_terminate fun bytes => ?_
    refine .free_bind costs_parseAddress fun address => ?_
    split
    · exact costs_terminate
    · exact costs_completeDocument

theorem costs_fallback {providerClass : String} :
    Costs (networkCost cf cr cd) cf
      (fallbackToGenericHtml lib config run providerClass) := by
  refine costs_fetch (n := 0) fun fetched => ?_
  cases fetched with
  | error error => exact costs_terminate
  | ok fetched =>
      dsimp only
      split
      · exact costs_terminate
      refine costs_verified costs_terminate fun bytes => ?_
      refine .free_bind costs_parseAddress fun address => ?_
      split
      · exact costs_completeDocument
      · exact costs_terminate
      · exact costs_terminate

theorem costs_recordAndFallback {fetch : CompletedFetch} {providerClass : String} :
    Costs (networkCost cf cr cd) cf (recordFetchNow run fetch >>= fun _ =>
      fallbackToGenericHtml lib config run providerClass) :=
  .free_bind costs_recordFetch fun _ => costs_fallback

theorem costs_continueProvider {converted : Except ProviderError ProviderExtraction} :
    Costs (networkCost cf cr cd) cf
      (continueProvider lib config run fetched converted) := by
  rw [continueProvider.eq_def]
  split
  · exact costs_terminate
  · exact costs_terminate
  · exact costs_recordAndFallback
  · split
    · exact .free_bind costs_recordFetch fun _ => costs_resolveExternalArticle
    · exact costs_completeDocument

theorem costs_completeProvider {route : ProviderRoute} {address : String} :
    Costs (networkCost cf cr cd) (2 * cf)
      (completeProvider lib config route address run) := by
  rw [Nat.two_mul]
  refine costs_fetch fun fetched => ?_
  cases fetched with
  | error error => exact costs_terminate
  | ok fetched =>
      dsimp only
      split
      · exact costs_recordAndFallback
      refine costs_verified costs_terminate fun bytes => ?_
      exact .free_bind costs_parseAddress fun address => costs_continueProvider

/-! ### YouTube -/

theorem costs_writeTimingDiagnostics {sidecar : TimingSidecar} {archival : String} :
    Costs (networkCost cf cr cd) 0 (writeTimingDiagnostics lib run sidecar archival) := by
  rw [writeTimingDiagnostics]
  refine .free_bind ?_ fun payload => .free_call (fun _ => rfl) fun stored => ?_
  · cases lib.timingJson sidecar archival <;> exact .done rfl
  refine .free_bind ?_ fun reference => .free_call (fun _ => rfl) fun row => ?_
  · cases stored <;> exact .done rfl
  refine .free_bind ?_ fun row => .free_bind ?_ fun owner => ?_
  · cases row <;> exact .done rfl
  · cases row <;> exact .done rfl
  exact .free_call (fun _ => rfl) fun recorded => by cases recorded <;> exact .done rfl

theorem costs_completeTranscript {videoId watchAddress : String} {trackFetch : FetchResult}
    {converted : Except YoutubeError TranscriptExtraction} :
    Costs (networkCost cf cr cd) 0
      (completeTranscript lib run videoId watchAddress trackFetch converted) := by
  rw [completeTranscript.eq_def]
  split
  · exact .done rfl
  · exact costs_terminate
  · refine .free_bind costs_completeDocument fun _ => ?_
    exact .free_call (fun _ => rfl) fun archival => costs_writeTimingDiagnostics

theorem costs_completeTrack {videoId watchAddress : String} {playerMeta : PlayerMeta}
    {track : CaptionTrack} :
    Costs (networkCost cf cr cd) cf
      (completeTrack lib config run videoId watchAddress fetched playerMeta track) := by
  refine costs_fetch (n := 0) fun trackFetch => ?_
  cases trackFetch with
  | error error => exact costs_terminate
  | ok trackFetch =>
      dsimp only
      split
      · exact costs_terminate
      refine costs_verified costs_terminate fun bytes => ?_
      split
      · exact costs_terminate
      · exact .free_bind costs_parseAddress fun address => costs_completeTranscript

theorem costs_completePlayer {videoId watchAddress : String}
    {parsed : Except YoutubeError PlayerMeta} :
    Costs (networkCost cf cr cd) cf
      (completePlayer lib config run videoId watchAddress fetched parsed) := by
  rw [completePlayer.eq_def]
  split
  · exact costs_terminate
  · exact costs_recordAndFallback
  · split
    · exact costs_terminate
    · exact costs_terminate
    · exact .free_bind costs_recordFetch fun _ => costs_completeTrack

theorem costs_completeYoutubeFlow {videoId watchAddress : String} :
    Costs (networkCost cf cr cd) (2 * cf)
      (completeYoutubeFlow lib config run videoId watchAddress) := by
  rw [Nat.two_mul]
  refine costs_fetch fun fetched => ?_
  cases fetched with
  | error error => exact costs_terminate
  | ok fetched =>
      dsimp only
      split
      · exact costs_recordAndFallback
      exact costs_verified costs_terminate fun bytes => costs_completePlayer

/-! ### The run -/

theorem costs_completeOrdinary
    (hrender : RenderReachable config.render → cr + cd ≤ n) :
    Costs (networkCost cf cr cd) (cf + n) (completeOrdinary lib config run) := by
  refine costs_fetch fun fetched => ?_
  cases fetched with
  | error error => exact costs_terminate
  | ok fetched =>
      dsimp only
      split
      · exact costs_completeHtml hrender
      · split
        · exact costs_completePdf
        · exact costs_terminate

/-- **What a run may spend**: two retrievals, or a retrieval and a render. -/
theorem costs_processRun (hfetch : 2 * cf ≤ n)
    (hrender : RenderReachable config.render →
      cf + (cr + cd) ≤ n) :
    Costs (networkCost cf cr cd) n (processRun lib config run) := by
  have hordinary : Costs (networkCost cf cr cd) n (completeOrdinary lib config run) := by
    refine (costs_completeOrdinary (n := n - cf) fun h => ?_).mono ?_
    · have := hrender h
      omega
    · omega
  rw [processRun]
  split
  · exact costs_completeBlobPdf
  · refine .free_bind ?_ fun native => ?_
    · cases nativeRequest lib run <;> exact .done rfl
    split
    · exact costs_completeProvider.mono hfetch
    · split
      · split
        · exact costs_completeYoutubeFlow.mono hfetch
        · exact costs_fallback.mono (by omega)
      · exact hordinary

/-! ### What comes after what -/

section Order

variable {A B : Exchange RunOp → Prop}

/-- What holds of an escalation holds of a page: no other part renders anything. -/
theorem after_completeHtml (hprice : ∀ x, B x → networkCost 0 1 1 x ≠ 0)
    (hescalate : After A B (spendBudgetAndEscalate lib config run fetched)) :
    After A B (completeHtml lib config run fetched) := by
  refine .call_bind (fun x hx => hprice _ hx rfl) fun verified => Or.inr ?_
  cases verified with
  | error error => exact .of_costs hprice costs_terminate
  | ok u =>
      refine .bind (.of_costs hprice costs_readOwn) fun bytes => ?_
      refine .bind (.of_costs hprice costs_parseAddress) fun address => ?_
      split
      · exact .of_costs hprice costs_completeDocument
      · simp only [escalateHtml]
        split
        · refine hescalate.bind fun step => .of_costs hprice ?_
          cases step with
          | completed => exact .done rfl
          | workerTerminal => exact costs_terminate
          | budgetExhausted => exact costs_terminate
        · exact .of_costs hprice costs_terminate
      · exact .of_costs hprice costs_terminate

/-- What holds of an escalation holds of the run. -/
theorem after_processRun (hprice : ∀ x, B x → networkCost 0 1 1 x ≠ 0)
    (hescalate : ∀ fetched, After A B (spendBudgetAndEscalate lib config run fetched)) :
    After A B (processRun lib config run) := by
  have hordinary : After A B (completeOrdinary lib config run) := by
    refine .call_bind (fun x hx => hprice _ hx rfl) fun fetched => Or.inr ?_
    cases fetched with
    | error error => exact .of_costs hprice costs_terminate
    | ok fetched =>
        dsimp only
        split
        · exact after_completeHtml hprice (hescalate fetched)
        · split
          · exact .of_costs hprice costs_completePdf
          · exact .of_costs hprice costs_terminate
  rw [processRun]
  split
  · exact .of_costs hprice costs_completeBlobPdf
  · refine .bind (.of_costs hprice ?_) fun native => ?_
    · cases nativeRequest lib run <;> exact .done rfl
    split
    · exact .of_costs hprice costs_completeProvider
    · split
      · split
        · exact .of_costs hprice costs_completeYoutubeFlow
        · exact .of_costs hprice costs_fallback
      · exact hordinary

end Order

end Bounds

/-! ### A page that is rendered -/

section Rendered

variable (lib : PipelineLib) (config : ExtractorConfig) (run : QueuedRun) (fetched : FetchResult)
  (page : List UInt8) (candidates : List CandidateDecision)

/-- What the policy is asked about a page of low quality. -/
def escalationInputs : Escalation.Inputs where
  qualityRejected := true
  emptyShellEvidence := isEmptyShell page &&
    candidates.all fun c => decide (c.metrics.textCharacters < 120)
  host := fetched.finalUrl.hostStr lib.providers.urlLib
  config := config.render
  budgetRemaining := true

/-- The exchanges of a page that is rendered, where the worker does not answer in time. -/
def timedOutRender : Trace RunOp :=
  [⟨.ownVerify fetched.artifact, .ok ()⟩,
    ⟨.ownRead fetched.artifact, some page⟩,
    ⟨.parseAddress (finalAddress lib fetched), true⟩,
    ⟨.renderBudget config.render.maxEscalationsPerDay, .ok (.consumed 1)⟩,
    ⟨.uuid, 7⟩,
    ⟨.uuid, 8⟩,
    ⟨.render (renderCommand config.render run 7 8), .error .timeout⟩,
    ⟨.terminal (.failRun run.runId "navigation_timeout" false []), .ok .applied⟩,
    ⟨.countRun "failed", ()⟩,
    ⟨.terminal (.reject run.runId
      ⟨fetched.artifact, some (completedFetch lib fetched), candidates, "quality", []⟩),
      .ok .duplicate⟩,
    ⟨.countRun "failed", ()⟩]

variable {lib config run fetched page candidates}

/-- A page that the gates let through is rendered. -/
theorem escalateHtml_of_escalate
    (h : Escalation.decide (escalationInputs lib config fetched page candidates) = .escalate) :
    escalateHtml lib config run fetched page candidates =
      spendBudgetAndEscalate lib config run fetched >>= fun step =>
        afterEscalation lib run fetched candidates step := by
  unfold escalateHtml
  dsimp only
  split
  · rfl
  · next denial hdenied => cases h.symm.trans hdenied

/-- A page that a gate denies is a rejection. -/
theorem escalateHtml_of_denied {denial : Escalation.Denial}
    (h : Escalation.decide (escalationInputs lib config fetched page candidates) =
      .denied denial) :
    escalateHtml lib config run fetched page candidates =
      recordPolicyDenial lib run fetched candidates denial := by
  unfold escalateHtml
  dsimp only
  split
  · next hescalate => cases h.symm.trans hescalate
  · next other hother => cases h.symm.trans hother; rfl

theorem exec_timedOutRender
    (hhtml : lib.fromHtml ⟨run.owner, finalAddress lib fetched, fetched.artifact, page⟩
      config.parser = .error (.lowQuality candidates))
    (hdecision : Escalation.decide (escalationInputs lib config fetched page candidates) =
      .escalate) :
    Exec (completeHtml lib config run fetched).run
      (timedOutRender lib config run fetched page candidates) (.ok ()) := by
  have hescalate : Exec (escalateHtml lib config run fetched page candidates).run
      ((timedOutRender lib config run fetched page candidates).drop 3) (.ok ()) := by
    rw [escalateHtml_of_escalate hdecision]
    refine Exec.ask _ _ (Except.ok (RenderBudget.consumed 1)) (Exec.ask _ _ 7 ?_)
    refine Exec.ask _ _ 8 (Exec.ask _ _ (Except.error RenderRequestError.timeout) ?_)
    exact Exec.ask _ _ (Except.ok Completion.applied) (Exec.ask _ _ ()
      (Exec.ask _ _ (Except.ok Completion.duplicate) (Exec.ask _ _ () (Exec.done _))))
  have hread : Exec (readOwn fetched.artifact).run [⟨.ownRead fetched.artifact, some page⟩]
      (.ok page) := Exec.ask _ _ (some page) (Exec.done _)
  have haddress : Exec (parseAddress (finalAddress lib fetched)).run
      [⟨.parseAddress (finalAddress lib fetched), true⟩] (.ok (finalAddress lib fetched)) :=
    Exec.ask _ _ true (Exec.done _)
  rw [completeHtml]
  refine exec_call_bind_iff.mpr ⟨.ok (), _, rfl, ?_⟩
  refine exec_bind_except_iff.mpr (.inr ⟨_, _, page, rfl, hread, ?_⟩)
  refine exec_bind_except_iff.mpr (.inr ⟨_, _, _, rfl, haddress, ?_⟩)
  rw [hhtml]
  exact hescalate

end Rendered

/-! ### Counting -/

/-- The exchange is a retrieval. -/
def isFetch : Exchange RunOp → Bool
  | ⟨.fetch _, _⟩ => true
  | _ => false

/-- The exchange publishes a render command. -/
def isRender : Exchange RunOp → Bool
  | ⟨.render _, _⟩ => true
  | _ => false

/-- The exchange reads the DOM that a render reply names, for the HTML parser. -/
def readsRendered : Exchange RunOp → Bool
  | ⟨.workerRead _ _, _⟩ => true
  | _ => false

/-- The number of retrievals of an execution. -/
def fetches (tr : Trace RunOp) : ℕ := tr.countP isFetch

/-- The number of render commands of an execution. -/
def renders (tr : Trace RunOp) : ℕ := tr.countP isRender

theorem renders_append (tr₁ tr₂ : Trace RunOp) :
    renders (tr₁ ++ tr₂) = renders tr₁ + renders tr₂ :=
  List.countP_append

theorem renders_cons_of_not {x : Exchange RunOp} {tr : Trace RunOp} (hx : isRender x = false) :
    renders (x :: tr) = renders tr :=
  List.countP_cons_of_neg (by simp [hx])

/-- The prices of an execution, counted by kind. -/
theorem sum_networkCost (cf cr : ℕ) (tr : Trace RunOp) :
    (tr.map (networkCost cf cr 0)).sum = cf * fetches tr + cr * renders tr := by
  induction tr with
  | nil => simp [fetches, renders]
  | cons x tr ih =>
      have hx : networkCost cf cr 0 x = cf * (isFetch x).toNat + cr * (isRender x).toNat := by
        obtain ⟨request, answer⟩ := x
        cases request <;> simp [networkCost, isFetch, isRender]
      have hfetch : fetches (x :: tr) = fetches tr + (isFetch x).toNat := by
        cases h : isFetch x <;> simp [fetches, h]
      have hrender : renders (x :: tr) = renders tr + (isRender x).toNat := by
        cases h : isRender x <;> simp [renders, h]
      rw [List.map_cons, List.sum_cons, ih, hx, hfetch, hrender, Nat.mul_add, Nat.mul_add]
      omega

section Counts

variable {lib : PipelineLib} {config : ExtractorConfig} {run : QueuedRun}
  {tr : Trace RunOp} {n : ℕ}

/-- A part that renders for nothing renders nothing. -/
theorem renders_eq_zero {α : Type} {q : Process α} (hq : Costs (networkCost 0 1 0) 0 q)
    {result : Except ProcessError α} (hexec : Exec q.run tr result) : renders tr = 0 := by
  have hsum := hq tr result hexec
  rw [sum_networkCost] at hsum
  omega

/-- A run publishes one render command at most. -/
theorem renders_le_one {result : Except ProcessError Unit}
    (hexec : Exec (processRun lib config run).run tr result) : renders tr ≤ 1 := by
  have hcosts : Costs (networkCost 0 1 0) 1 (processRun lib config run) :=
    costs_processRun (by omega) fun _ => by omega
  have hsum := hcosts tr result hexec
  rw [sum_networkCost] at hsum
  omega

/-- A run makes two network operations at most. -/
theorem operations_le_two {result : Except ProcessError Unit}
    (hexec : Exec (processRun lib config run).run tr result) : fetches tr + renders tr ≤ 2 := by
  have hcosts : Costs (networkCost 1 1 0) 2 (processRun lib config run) :=
    costs_processRun (by omega) fun _ => by omega
  have hsum := hcosts tr result hexec
  rw [sum_networkCost] at hsum
  omega

/-- A run renders before it reads a rendered DOM. -/
theorem render_before_read :
    After (fun x => isRender x = true) (fun x => readsRendered x = true)
      (processRun lib config run) := by
  have hprice : ∀ x : Exchange RunOp, readsRendered x = true → networkCost 0 1 1 x ≠ 0 := by
    rintro ⟨request, answer⟩ hx
    cases request <;> first | exact Nat.one_ne_zero | cases hx
  have hunread : ∀ x : Exchange RunOp, readsRendered x = true → networkCost 0 0 1 x ≠ 0 := by
    rintro ⟨request, answer⟩ hx
    cases request <;> first | exact Nat.one_ne_zero | cases hx
  refine after_processRun hprice fun fetched => ?_
  refine .call_bind (fun x hx => nomatch hx) fun budget => Or.inr (.bind ?_ fun budget => ?_)
  · refine .of_costs hunread ?_
    cases budget <;> exact .done rfl
  cases budget with
  | exhausted => exact .of_costs hunread (.done rfl)
  | consumed count =>
      refine .bind ?_ fun extraction => .of_costs hunread ?_
      · refine .call_bind (fun x hx => nomatch hx) fun renderId => Or.inr ?_
        refine .call_bind (fun x hx => nomatch hx) fun operationId => Or.inr ?_
        exact .call_bind (fun x hx => nomatch hx) fun reply => Or.inl rfl
      · cases extraction with
        | none => exact .done rfl
        | some extraction => exact .free_bind costs_completeDocument fun _ => .done rfl

end Counts

/-- **Bounded network work.** For every configuration, run and sequence of answers: a run with a
blob retrieves and renders nothing; any other run makes at most two network operations, of which at
most one is a render command; the provider, PDF and YouTube routes and their continuations publish
none; and none is published once a rendered DOM was read for the parser. -/
theorem bounded_network_work (lib : PipelineLib) (config : ExtractorConfig) (run : QueuedRun) :
    (∀ tr result, Exec (processRun lib config run).run tr result →
      (run.blob.isSome = true → fetches tr = 0 ∧ renders tr = 0) ∧
        fetches tr + renders tr ≤ 2 ∧ renders tr ≤ 1 ∧
        ∀ pre x post, tr = pre ++ x :: post → readsRendered x = true → renders post = 0) ∧
    (∀ route address tr result,
      Exec (completeProvider lib config route address run).run tr result → renders tr = 0) ∧
    (∀ fetched tr result, Exec (completePdf lib config run fetched).run tr result →
      renders tr = 0) ∧
    (∀ blob tr result, Exec (completeBlobPdf lib config run blob).run tr result →
      renders tr = 0) ∧
    (∀ videoId watchAddress tr result,
      Exec (completeYoutubeFlow lib config run videoId watchAddress).run tr result →
        renders tr = 0) ∧
    ∀ providerClass tr result,
      Exec (fallbackToGenericHtml lib config run providerClass).run tr result →
        renders tr = 0 := by
  refine ⟨?_, ?_, ?_, ?_, ?_, ?_⟩
  · intro tr result hexec
    have hone : renders tr ≤ 1 := renders_le_one hexec
    refine ⟨?_, operations_le_two hexec, hone, ?_⟩
    · intro hblob
      obtain ⟨blob, hrun⟩ := Option.isSome_iff_exists.mp hblob
      rw [processRun, hrun] at hexec
      have hcosts : Costs (networkCost 1 1 0) 0 (completeBlobPdf lib config run blob) :=
        costs_completeBlobPdf
      have hsum := hcosts tr result hexec
      rw [sum_networkCost] at hsum
      omega
    · intro pre x post heq hx
      obtain ⟨y, hy, hrender⟩ := render_before_read tr result hexec pre x post heq hx
      have hpre : 0 < renders pre := List.countP_pos_iff.mpr ⟨y, hy, hrender⟩
      have hsplit : renders tr = renders pre + renders (x :: post) := heq ▸ renders_append pre _
      have hpost : renders post ≤ renders (x :: post) :=
        (List.sublist_cons_self x post).countP_le
      omega
  · exact fun route address tr result => renders_eq_zero costs_completeProvider
  · exact fun fetched tr result => renders_eq_zero costs_completePdf
  · exact fun blob tr result => renders_eq_zero costs_completeBlobPdf
  · exact fun videoId watchAddress tr result => renders_eq_zero costs_completeYoutubeFlow
  · exact fun providerClass tr result => renders_eq_zero costs_fallback

end Extractor
