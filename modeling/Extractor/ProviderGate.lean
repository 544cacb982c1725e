import Extractor.Pipeline

/-!
# The quality gate of provider runs

A provider payload whose content misses the quality thresholds may pass `from_provider` all the
same, when it carries a link: the link is expected to be resolved. `complete_provider` then asks
once more whether the link leads away from the provider, by another rule, and completes the run
with the discussion alone when it does not. The two rules disagree on links that have no host,
and on hosts under the provider's registrable domain that are outside its host family.

## Main results

* `registrableDomain_of_request`: the registrable domain of a run's own URL.
* `provider_gate_iff`: for which payloads a run is completed with an unlinked discussion only if
  the discussion was accepted.
-/

namespace Extractor

open Program

/-! ### Registrable domains -/

/-- The registrable domain that the runs of a provider share. -/
def ProviderRoute.domain : ProviderRoute → List Char
  | .hackerNews => "ycombinator.com".toList
  | .reddit => "reddit.com".toList

/-- The last two labels of a host do not depend on what stands before them. -/
theorem registrableDomain_subdomain {host : String} (labels : List Char)
    (h : host.toList = labels ++ '.' :: "news.ycombinator.com".toList) :
    registrableDomain host = "ycombinator.com".toList := by
  have htrim : Text.trimEndMatches '.' host.toList = host.toList := by
    have hbase : '.' :: "news.ycombinator.com".toList =
        ".news.ycombinator.co".toList ++ ['m'] := rfl
    rw [h, hbase, ← List.append_assoc]
    exact Text.trimEndMatches_append_singleton _ (by decide)
  have hlower : Text.asciiLower host.toList =
      Text.asciiLower labels ++ '.' :: "news.ycombinator.com".toList := by
    rw [h, Text.asciiLower, List.map_append]
    rfl
  have hsplit : (Text.asciiLower host.toList).splitOn '.' =
      (Text.asciiLower labels).splitOn '.' ++
        ["news".toList, "ycombinator".toList, "com".toList] := by
    rw [hlower]
    exact List.splitOnP_append_cons _ _ (by decide)
  simp only [registrableDomain, htrim, hsplit, List.reverse_append]
  rfl

/-- A host of the Hacker News family has its registrable domain. -/
theorem registrableDomain_of_hostMatches {host : String}
    (h : hostMatches host "news.ycombinator.com" = true) :
    registrableDomain host = "ycombinator.com".toList := by
  rw [hostMatches, Bool.or_eq_true] at h
  rcases h with h | h
  · rw [beq_iff_eq.mp h]
    decide
  · cases hstrip : Text.stripSuffix "news.ycombinator.com".toList host.toList with
    | none =>
        rw [hstrip] at h
        cases h
    | some rest =>
        rw [hstrip] at h
        obtain ⟨labels, rfl⟩ := List.getLast?_eq_some_iff.mp (beq_iff_eq.mp h)
        refine registrableDomain_subdomain labels ?_
        rw [Text.eq_append_of_stripSuffix hstrip, List.append_assoc]
        rfl

/-- **The registrable domain of a provider run's own URL** is that of the provider. -/
theorem registrableDomain_of_request {lib : ProviderLib} {route : ProviderRoute} {url : String}
    {address : String} (h : providerRequest lib route url = .ok (some address)) :
    ∃ parsed host, lib.urlLib.parse url = some parsed ∧ parsed.hostStr lib.urlLib = some host ∧
      registrableDomain host = route.domain := by
  obtain ⟨parsed, hparsed, h⟩ := Except.bind_eq_ok_iff.mp h
  refine ⟨parsed, ?_⟩
  cases route with
  | hackerNews =>
      simp only [hackerNewsRequest] at h
      split at h
      · cases h
      · next hhost =>
          simp only [hostIs, Bool.or_eq_true, Bool.not_eq_true', not_or, Bool.not_eq_false] at hhost
          cases hstr : parsed.hostStr lib.urlLib with
          | none => simp [hstr] at hhost
          | some host =>
              rw [hstr] at hhost
              exact ⟨host, Except.okOr_eq_ok_iff.mp hparsed, rfl,
                registrableDomain_of_hostMatches hhost.1⟩
  | reddit =>
      simp only [redditRequest] at h
      split at h
      · cases h
      · next hhost =>
          rw [not_and_or, not_not, not_not] at hhost
          rcases hhost with hhost | hhost
          · exact ⟨_, Except.okOr_eq_ok_iff.mp hparsed, hhost, by decide⟩
          · exact ⟨_, Except.okOr_eq_ok_iff.mp hparsed, hhost, by decide⟩

/-! ### Completions with and without a resolution -/

/-- The run is completed with a document that no resolution step led to. -/
def SelfContained (run : QueuedRun) (tr : Trace RunOp) : Prop :=
  ∃ success r, (⟨.terminal (.complete run success), r⟩ : Exchange RunOp) ∈ tr ∧
    success.steps = []

/-- A request that completes no run without a resolution step. -/
def ResolvesFirst : ∀ β : Type, RunOp β → Prop
  | _, .terminal (.complete _ success) => success.steps ≠ []
  | _, _ => True

/-- Programs with only such requests leave no self-contained run. -/
theorem not_selfContained {α : Type} {run : QueuedRun} {q : Process α} {tr : Trace RunOp}
    {result : Except ProcessError α} (h : Requests ResolvesFirst q)
    (hexec : Exec q.run tr result) : ¬ SelfContained run tr := by
  rintro ⟨success, r, hmem, hsteps⟩
  exact h tr result hexec _ hmem hsteps

section Flows

variable {lib : PipelineLib} {config : ExtractorConfig} {run : QueuedRun} {fetched : FetchResult}

theorem resolvesFirst_terminate {outcome : String} {call : TerminalCall}
    (h : ResolvesFirst _ (.terminal call)) : Requests ResolvesFirst (terminate outcome call) :=
  .call_bind h fun _ => .bind (.done rfl) fun _ => .last_call trivial

theorem resolvesFirst_failRun {failureClass : String} {retryable : Bool}
    {steps : List ResolutionStep} :
    Requests ResolvesFirst (failRunNow run failureClass retryable steps) :=
  resolvesFirst_terminate trivial

theorem resolvesFirst_rejectQuality {fetch : CompletedFetch} {candidates : List CandidateDecision}
    {failureClass : String} {steps : List ResolutionStep} :
    Requests ResolvesFirst (rejectQualityNow run fetch candidates failureClass steps) :=
  resolvesFirst_terminate trivial

theorem resolvesFirst_recordFetch {fetch : CompletedFetch} :
    Requests ResolvesFirst (recordFetchNow run fetch) :=
  .call_bind trivial fun _ => .done rfl

theorem resolvesFirst_readOwn {blob : BlobRef} : Requests ResolvesFirst (readOwn blob) := by
  refine .call_bind trivial fun bytes => ?_
  cases bytes with
  | none => exact .done rfl
  | some bytes => exact .done rfl

theorem resolvesFirst_parseAddress {text : String} :
    Requests ResolvesFirst (parseAddress text) := by
  refine .call_bind trivial fun valid => ?_
  cases valid with
  | false => exact .done rfl
  | true => exact .done rfl

theorem resolvesFirst_storeDocumentIr {document : Document} :
    Requests ResolvesFirst (storeDocumentIr lib document) := by
  rw [storeDocumentIr]
  cases lib.documentJson document with
  | none => exact .done rfl
  | some canonical =>
      exact .bind (.done rfl) fun _ => .call_bind trivial fun _ => .done rfl

theorem resolvesFirst_completeDocument {steps : List ResolutionStep} {document : Document}
    {fetch : CompletedFetch} {candidates : List CandidateDecision} (h : steps ≠ []) :
    Requests ResolvesFirst (completeDocumentNow lib run document fetch candidates steps) :=
  .bind resolvesFirst_storeDocumentIr fun _ => resolvesFirst_terminate h

/-- Resolving a link records its steps with whatever it does. -/
theorem resolvesFirst_resolveExternalArticle {extraction : ProviderExtraction} {target : String} :
    Requests ResolvesFirst (resolveExternalArticle lib config run extraction target) := by
  refine .call_bind trivial fun fetched => ?_
  split
  · exact resolvesFirst_failRun
  · exact resolvesFirst_failRun
  · exact resolvesFirst_failRun
  · split
    · exact resolvesFirst_failRun
    · refine .call_bind trivial fun verified => ?_
      cases verified with
      | error error => exact resolvesFirst_failRun
      | ok u =>
          refine .bind resolvesFirst_readOwn fun bytes => ?_
          refine .bind resolvesFirst_parseAddress fun address => ?_
          split
          · exact resolvesFirst_failRun
          · exact resolvesFirst_completeDocument (List.cons_ne_nil _ _)

/-- The generic attempt records its steps with whatever it does. -/
theorem resolvesFirst_fallback {providerClass : String} :
    Requests ResolvesFirst (fallbackToGenericHtml lib config run providerClass) := by
  refine .call_bind trivial fun fetched => ?_
  cases fetched with
  | error error => exact resolvesFirst_failRun
  | ok fetched =>
      dsimp only
      split
      · exact resolvesFirst_failRun
      · refine .call_bind trivial fun verified => ?_
        cases verified with
        | error error => exact resolvesFirst_failRun
        | ok u =>
            refine .bind resolvesFirst_readOwn fun bytes => ?_
            refine .bind resolvesFirst_parseAddress fun address => ?_
            split
            · exact resolvesFirst_completeDocument (List.cons_ne_nil _ _)
            · exact resolvesFirst_rejectQuality
            · exact resolvesFirst_failRun

end Flows

/-! ### The gate -/

section Gate

variable (lib : PipelineLib) (config : ExtractorConfig) (run : QueuedRun)

/-- The budgets of the adapters. -/
def ProvidersConfig.limits (providers : ProvidersConfig) : ProviderLimits :=
  ⟨providers.maxInputBytes, providers.maxBlocks⟩

/-- The decision on the payload was an acceptance. -/
def DecisionAccepted (input : ProviderInput) : Prop :=
  ∃ adapted, input.route.adapter lib.providers config.providers.limits input.bytes = .ok adapted ∧
    adapted.decision.accepted = true

/-- **The gate holds for a payload**: whatever the surroundings answer, the run is completed with
the discussion alone only if the discussion was accepted. -/
def Gated (input : ProviderInput) : Prop :=
  ∀ fetched tr result, Exec (continueProvider lib config run fetched
      (fromProvider lib.providers input config.providers.limits)).run tr result →
    SelfContained run tr → DecisionAccepted lib config input

/-- A link with a host outside the provider's registrable domain. -/
def LeavesProvider (route : ProviderRoute) (link : String) : Prop :=
  ∃ parsed host, lib.providers.urlLib.parse link = some parsed ∧
    parsed.hostStr lib.providers.urlLib = some host ∧ registrableDomain host ≠ route.domain

/-- The content is accepted, or the payload is not converted, or it carries no link that
`from_provider` keeps, or the link it keeps leaves the provider's registrable domain. -/
def GateCondition (input : ProviderInput) : Prop :=
  ∀ adapted document, input.bytes.length ≤ config.providers.limits.maxInputBytes →
    input.route.adapter lib.providers config.providers.limits input.bytes = .ok adapted →
    assembleDocument lib.providers.documents input.owner input.sourceAddress input.sourceBlob
      input.route.strategy adapted.title none adapted.decision.blocks = .ok document →
    adapted.decision.accepted = true ∨
      ∀ link, keptLink lib.providers.urlLib input.route adapted.externalUrl = some link →
        LeavesProvider lib input.route link

end Gate

section Results

variable {lib : PipelineLib} {config : ExtractorConfig} {run : QueuedRun} {fetched : FetchResult}

/-- **What `from_provider` accepts**: content that the evaluator accepted, or content with a link
that is kept. -/
theorem fromProvider_eq_ok_iff {lib : ProviderLib} {input : ProviderInput}
    {limits : ProviderLimits} {extraction : ProviderExtraction} :
    fromProvider lib input limits = .ok extraction ↔
      ∃ adapted document, input.bytes.length ≤ limits.maxInputBytes ∧
        input.route.adapter lib limits input.bytes = .ok adapted ∧
        (adapted.decision.accepted = true ∨
          (keptLink lib.urlLib input.route adapted.externalUrl).isSome = true) ∧
        assembleDocument lib.documents input.owner input.sourceAddress input.sourceBlob
          input.route.strategy adapted.title none adapted.decision.blocks = .ok document ∧
        extraction = ⟨document, keptLink lib.urlLib input.route adapted.externalUrl,
          [{ adapted.decision with selected := true }]⟩ := by
  simp only [fromProvider, Except.bind_eq_ok_iff, Except.require_eq_ok_iff,
    Except.mapError_eq_ok_iff]
  constructor
  · rintro ⟨-, hlength, adapted, hadapted, -, hgate, document, hdocument, heq⟩
    exact ⟨adapted, document, hlength, hadapted, hgate, hdocument, (Except.ok.inj heq).symm⟩
  · rintro ⟨adapted, document, hlength, hadapted, hgate, hdocument, rfl⟩
    exact ⟨(), hlength, adapted, hadapted, (), hgate, document, hdocument, rfl⟩

/-- For a run of the provider, the pipeline's guard keeps exactly the links that leave the
provider's registrable domain. -/
theorem pointsBackToSource_eq_false_iff {route : ProviderRoute} {address link : String}
    (hrun : providerRequest lib.providers route run.url = .ok (some address)) :
    pointsBackToSource lib.providers.urlLib run.url link = false ↔
      LeavesProvider lib route link := by
  obtain ⟨source, sourceHost, hsource, hsourceHost, hdomain⟩ := registrableDomain_of_request hrun
  rw [pointsBackToSource, hsource]
  constructor
  · intro h
    cases hlink : lib.providers.urlLib.parse link with
    | none => simp [hlink] at h
    | some target =>
        cases htarget : target.hostStr lib.providers.urlLib with
        | none => simp [hlink, hsourceHost, htarget] at h
        | some host =>
            refine ⟨target, host, hlink, htarget, fun heq => ?_⟩
            simp [hlink, hsourceHost, htarget, hdomain, heq] at h
  · rintro ⟨target, host, hlink, htarget, hne⟩
    simp [hlink, hsourceHost, htarget, hdomain, Ne.symm hne]

/-- A run is completed with the discussion alone only where the guard drops the link. -/
theorem selfContained_iff_of_exec {extraction : ProviderExtraction} {tr : Trace RunOp}
    {result : Except ProcessError Unit}
    (hexec : Exec (continueProvider lib config run fetched (.ok extraction)).run tr result)
    (h : SelfContained run tr) :
    (extraction.externalUrl.filter fun target =>
      !pointsBackToSource lib.providers.urlLib run.url target) = none := by
  cases hlink : extraction.externalUrl.filter fun target =>
      !pointsBackToSource lib.providers.urlLib run.url target with
  | none => rfl
  | some target =>
      rw [continueProvider, hlink] at hexec
      refine absurd h (not_selfContained ?_ hexec)
      exact .bind resolvesFirst_recordFetch fun _ => resolvesFirst_resolveExternalArticle

/-- A payload that is not converted leads to no self-contained run. -/
theorem not_selfContained_of_error {error : ProviderError} {tr : Trace RunOp}
    {result : Except ProcessError Unit}
    (hexec : Exec (continueProvider lib config run fetched (.error error)).run tr result) :
    ¬ SelfContained run tr := by
  refine not_selfContained ?_ hexec
  cases error with
  | lowQuality candidates => exact resolvesFirst_rejectQuality
  | resourceLimit => exact resolvesFirst_failRun
  | schema => exact .bind resolvesFirst_recordFetch fun _ => resolvesFirst_fallback
  | invalidUrl => exact .bind resolvesFirst_recordFetch fun _ => resolvesFirst_fallback
  | serialization => exact .bind resolvesFirst_recordFetch fun _ => resolvesFirst_fallback

/-- Where the guard drops the link, some execution completes the run with the discussion alone. -/
theorem exists_selfContained (lib : PipelineLib) (config : ExtractorConfig) (run : QueuedRun)
    (fetched : FetchResult) (extraction : ProviderExtraction)
    (hlink : (extraction.externalUrl.filter fun target =>
      !pointsBackToSource lib.providers.urlLib run.url target) = none)
    (hjson : (lib.documentJson extraction.document).isSome = true) :
    ∃ tr, Exec (continueProvider lib config run fetched (.ok extraction)).run tr (.ok ()) ∧
      SelfContained run tr := by
  obtain ⟨canonical, hcanonical⟩ := Option.isSome_iff_exists.mp hjson
  let irBlob : BlobRef := fetched.artifact
  let success : Success := ⟨extraction.document, irBlob, fetched.artifact,
    some (completedFetch lib fetched), extraction.candidates, []⟩
  refine ⟨[⟨.ownStore "application/json" canonical, .ok irBlob⟩,
    ⟨.terminal (.complete run success), .ok .applied⟩, ⟨.countRun "succeeded", ()⟩], ?_, success, _,
    List.mem_cons_of_mem _ List.mem_cons_self, rfl⟩
  rw [continueProvider, hlink]
  simp only [completeDocumentNow, storeDocumentIr, hcanonical]
  exact Exec.ask _ _ (Except.ok irBlob) (Exec.ask _ _ (Except.ok Completion.applied)
    (Exec.ask _ _ () (Exec.done _)))

/-- A retrieval of a payload. -/
def payloadFetch (url : Url) (artifact : BlobRef) : FetchResult where
  artifact := artifact
  finalUrl := url
  status := 200
  wireBytes := artifact.lengthBytes
  decodedBytes := artifact.lengthBytes
  mediaType := "application/json"
  metadata :=
    { originalUrl := url, normalizedUrl := url, redirects := []
      declaredMediaType := some "application/json", effectiveMediaType := "application/json"
      contentEncoding := none, etag := none, lastModified := none, cacheControl := none
      attempts := 1, totalDuration := 1, cacheOutcome := .fresh }

/-- For a run of the provider, the gate holds for exactly the payloads of `GateCondition`. -/
theorem gated_iff {route : ProviderRoute} {address : String} {input : ProviderInput}
    (hrun : providerRequest lib.providers route run.url = .ok (some address))
    (hroute : input.route = route)
    (hjson : ∀ document, (lib.documentJson document).isSome = true) :
    Gated lib config run input ↔ GateCondition lib config input := by
  subst hroute
  constructor
  · intro hgated adapted document hlength hadapted hdocument
    by_contra hnot
    rw [not_or, not_forall] at hnot
    obtain ⟨haccepted, link, hlink⟩ := hnot
    rw [Classical.not_imp] at hlink
    obtain ⟨hkept, hstays⟩ := hlink
    -- the kept link waives the quality gate, and the guard then drops it
    have hextraction := fromProvider_eq_ok_iff.mpr ⟨adapted, document, hlength, hadapted,
      Or.inr (by rw [hkept]; rfl), hdocument, rfl⟩
    have hdropped : pointsBackToSource lib.providers.urlLib run.url link = true := by
      by_contra hback
      exact hstays ((pointsBackToSource_eq_false_iff hrun).mp (Bool.not_eq_true _ ▸ hback))
    obtain ⟨tr, hexec, hself⟩ :=
      exists_selfContained lib config run (payloadFetch exampleUrl input.sourceBlob)
      ⟨document, some link, [{ adapted.decision with selected := true }]⟩
      (by simp [hdropped]) (hjson document)
    rw [hkept] at hextraction
    rw [Gated, hextraction] at hgated
    obtain ⟨adapted', hadapted', haccepted'⟩ := hgated _ tr (.ok ()) hexec hself
    rw [hadapted] at hadapted'
    exact haccepted (Except.ok.inj hadapted' ▸ haccepted')
  · intro hcondition fetched tr result hexec hself
    cases hresult : fromProvider lib.providers input config.providers.limits with
    | error error =>
        rw [hresult] at hexec
        exact absurd hself (not_selfContained_of_error hexec)
    | ok extraction =>
        rw [hresult] at hexec
        obtain ⟨adapted, document, hlength, hadapted, hgate, hdocument, rfl⟩ :=
          fromProvider_eq_ok_iff.mp hresult
        have hdropped := selfContained_iff_of_exec hexec hself
        refine ⟨adapted, hadapted, ?_⟩
        rcases hcondition adapted document hlength hadapted hdocument with haccepted | hleaves
        · exact haccepted
        · rcases hgate with haccepted | hsome
          · exact haccepted
          · obtain ⟨link, hkept⟩ := Option.isSome_iff_exists.mp hsome
            have hkeeps := (pointsBackToSource_eq_false_iff hrun).mpr (hleaves link hkept)
            simp [hkept, hkeeps] at hdropped

/-- Requests that complete nothing are not what made a run self-contained. -/
theorem SelfContained.of_append {tr₁ tr₂ : Trace RunOp} (h : SelfContained run (tr₁ ++ tr₂))
    (h₁ : ∀ x ∈ tr₁, ResolvesFirst _ x.request) : SelfContained run tr₂ := by
  obtain ⟨success, r, hmem, hsteps⟩ := h
  rcases List.mem_append.mp hmem with hmem | hmem
  · exact absurd hsteps (h₁ _ hmem)
  · exact ⟨success, r, hmem, hsteps⟩

/-- The same for one exchange. -/
theorem SelfContained.of_cons {x : Exchange RunOp} {tr : Trace RunOp}
    (h : SelfContained run (x :: tr)) (hx : ResolvesFirst _ x.request) : SelfContained run tr :=
  SelfContained.of_append (List.singleton_append ▸ h : SelfContained run ([x] ++ tr))
    fun _ hmem => List.mem_singleton.mp hmem ▸ hx

/-- A read that succeeds is one exchange. -/
theorem exec_readOwn_ok {blob : BlobRef} {bytes : List UInt8} {tr : Trace RunOp}
    (h : Exec (readOwn blob).run tr (.ok bytes)) : tr = [⟨.ownRead blob, some bytes⟩] := by
  obtain ⟨answer, tr', rfl, hrest⟩ := exec_call_bind_iff.mp h
  cases answer with
  | none =>
      obtain ⟨-, heq⟩ := exec_done_iff.mp hrest
      cases heq
  | some bytes' =>
      obtain ⟨rfl, heq⟩ := exec_done_iff.mp hrest
      rw [Except.ok.inj heq]

/-- **The provider gate.** For a run of the provider, the gate holds for exactly the payloads of
`GateCondition`; and an execution of `complete_provider` that completes the run with the
discussion alone has read a payload, whose decision was accepted if the gate holds for it. -/
theorem provider_gate_iff {route : ProviderRoute} {address : String}
    (hrun : providerRequest lib.providers route run.url = .ok (some address))
    (hjson : ∀ document, (lib.documentJson document).isSome = true) :
    (∀ input : ProviderInput, input.route = route →
      (Gated lib config run input ↔ GateCondition lib config input)) ∧
    (∀ tr result, Exec (completeProvider lib config route address run).run tr result →
      SelfContained run tr → ∃ artifact bytes sourceAddress,
        (⟨.ownRead artifact, some bytes⟩ : Exchange RunOp) ∈ tr ∧
        (Gated lib config run ⟨run.owner, sourceAddress, artifact, route, bytes⟩ →
          DecisionAccepted lib config ⟨run.owner, sourceAddress, artifact, route, bytes⟩)) := by
  refine ⟨fun input hroute => gated_iff hrun hroute hjson, ?_⟩
  intro tr result hexec hself
  obtain ⟨fetched, tr₁, rfl, h₁⟩ := exec_call_bind_iff.mp hexec
  have hself₁ := hself.of_cons trivial
  cases fetched with
  | error error => exact absurd hself₁ (not_selfContained resolvesFirst_failRun h₁)
  | ok fetched =>
      dsimp only at h₁
      split at h₁
      · refine absurd hself₁ (not_selfContained ?_ h₁)
        exact .bind resolvesFirst_recordFetch fun _ => resolvesFirst_fallback
      obtain ⟨verified, tr₂, rfl, h₂⟩ := exec_call_bind_iff.mp h₁
      have hself₂ := hself₁.of_cons trivial
      cases verified with
      | error error => exact absurd hself₂ (not_selfContained resolvesFirst_failRun h₂)
      | ok u =>
          rcases exec_bind_except_iff.mp h₂ with ⟨e, hread, -⟩ |
            ⟨trRead, tr₃, bytes, rfl, hread, h₃⟩
          · exact absurd hself₂ (not_selfContained resolvesFirst_readOwn hread)
          have hself₃ := hself₂.of_append (resolvesFirst_readOwn _ _ hread)
          obtain rfl := exec_readOwn_ok hread
          rcases exec_bind_except_iff.mp h₃ with ⟨e, hparse, -⟩ |
            ⟨trParse, tr₄, payloadAddress, rfl, hparse, h₄⟩
          · exact absurd hself₃ (not_selfContained resolvesFirst_parseAddress hparse)
          have hself₄ := hself₃.of_append (resolvesFirst_parseAddress _ _ hparse)
          exact ⟨fetched.artifact, bytes, payloadAddress, by simp,
            fun hgated => hgated fetched tr₄ result h₄ hself₄⟩

end Results

/-! ### A story about its own site -/

/-- The value of a hexadecimal digit. -/
def hexValue (c : Char) : ℕ :=
  if c.isDigit then c.toNat - 48 else c.toNat - 87

/-- The bytes of a hexadecimal text. -/
def ofHex : List Char → List UInt8
  | high :: low :: rest => UInt8.ofNat (16 * hexValue high + hexValue low) :: ofHex rest
  | _ => []

/-- An item of Hacker News. -/
def exampleItemUrl : Url :=
  { exampleUrl with
    scheme := "https", host := some (.domain "news.ycombinator.com"), path := "/item"
    query := some "id=1" }

/-- A page of the site that Hacker News belongs to. -/
def exampleApplyUrl : Url :=
  { exampleUrl with
    scheme := "https", host := some (.domain "www.ycombinator.com"), path := "/apply" }

/-- The native representation of the item. -/
def exampleAlgoliaUrl : Url :=
  { exampleUrl with
    scheme := "https", host := some (.domain "hn.algolia.com"), path := "/api/v1/items/1" }

/-- The digests of one document. -/
def exampleDocumentLib : DocumentLib where
  sha256 bytes :=
    if bytes = utf8Bytes
        "[\x7b\"kind\":\"heading\",\"level\":1,\"text\":\"Apply to YC\"\x7d]" then
      ofHex "ab161a7db427e97132f62f9fd22547c75871b92e42061410c6a548a4a65519bd".toList
    else if (utf8Bytes "ratatoskr.document.v1").isPrefixOf bytes then
      ofHex "da00b9d702e46b6988faac74114a6a649975196d5109c2b023101f6e74e14b01".toList
    else ofHex "23431eea6148a9e4a9ceca3851590a0ac57660c70a8689faae084b6705b510bd".toList
  canonicalJson blocks :=
    if blocks = [.heading 1 "Apply to YC"] then
      some "[\x7b\"kind\":\"heading\",\"level\":1,\"text\":\"Apply to YC\"\x7d]"
    else none

/-- The payload of a story without text. -/
def examplePayload : List UInt8 :=
  utf8Bytes ("\x7b\"id\":1,\"title\":\"Apply to YC\"," ++
    "\"url\":\"https://www.ycombinator.com/apply\",\"text\":null,\"children\":[]\x7d")

/-- The crates on this payload. -/
def exampleProviderLib : ProviderLib where
  urlLib :=
    { exampleLib with
      parse := fun s =>
        if s = "https://news.ycombinator.com/item?id=1" then some exampleItemUrl
        else if s = "https://www.ycombinator.com/apply" then some exampleApplyUrl
        else none
      asStr := fun url =>
        if url = exampleAlgoliaUrl then "https://hn.algolia.com/api/v1/items/1"
        else exampleLib.asStr url }
  documents := exampleDocumentLib
  algoliaItem bytes :=
    if bytes = examplePayload then
      some ⟨[], some 1, none, some "Apply to YC", some "https://www.ycombinator.com/apply"⟩
    else none
  listings _ := none
  bodyTexts _ := none
  addressIsValid _ := true
  queryPairs _ := [("id", "1")]

/-- Conversions that are not reached. -/
def examplePipelineLib : PipelineLib where
  providers := exampleProviderLib
  fromHtml _ _ := .error .resourceLimit
  fromPdf _ _ := .error .malformed
  resolveIdentity _ := none
  extractPlayerResponse _ _ := .error .schema
  selectTrack _ _ := .error .noTranscript
  parseTimedtext _ _ := .error .schema
  fromTranscript _ _ := .error .invalidIdentity
  documentJson _ := some []
  timingJson _ _ := some []

/-- The run that captures the item. -/
def exampleStory : QueuedRun :=
  ⟨5, 2, "https://news.ycombinator.com/item?id=1", "hacker_news", none, 1048576⟩

/-- The stored payload. -/
def examplePayloadBlob : BlobRef :=
  ⟨producer, ⟨.sha256, "555f8ca5acc76511945fc2f76496785033d3dca4fcd35d8c242fa00b6fee3fcd"⟩,
    "application/json", 98⟩

theorem exampleStory_request :
    providerRequest exampleProviderLib .hackerNews exampleStory.url =
      .ok (some "https://hn.algolia.com/api/v1/items/1") := by
  decide

/-- What the adapter finds in the payload: a title and a link, too little to be accepted. -/
def exampleAdapted : AdapterExtraction where
  title := some "Apply to YC"
  externalUrl := some "https://www.ycombinator.com/apply"
  blocks := [headingBlock 1 "Apply to YC"]
  decision := evaluatePlainText hackerNewsStrategy [headingBlock 1 "Apply to YC"]
    (some "Apply to YC")

theorem exampleStory_adapter :
    fromAlgolia exampleProviderLib exampleConfig.providers.limits examplePayload =
      .ok exampleAdapted := by
  have hlength : examplePayload.length ≤ exampleConfig.providers.limits.maxInputBytes := by
    rw [examplePayload, length_utf8Bytes]
    decide
  have hitem : exampleProviderLib.algoliaItem examplePayload =
      some ⟨[], some 1, none, some "Apply to YC", some "https://www.ycombinator.com/apply"⟩ := by
    simp [exampleProviderLib]
  have htitle : trimmedTitle (some "Apply to YC") = .ok "Apply to YC" := by decide
  simp only [fromAlgolia, hitem, Except.bind_eq_ok_iff, Except.require_eq_ok_iff,
    Except.okOr_eq_ok_iff]
  refine ⟨(), hlength, _, rfl, (), rfl, _, htitle, _, rfl, _, ?_, rfl⟩
  rw [collectComments]

/-- The payload as the run reads it. -/
def exampleInput : ProviderInput where
  owner := exampleStory.owner
  sourceAddress := "https://hn.algolia.com/api/v1/items/1"
  sourceBlob := examplePayloadBlob
  route := .hackerNews
  bytes := examplePayload

/-- The link is kept by `from_provider`, and it does not leave the registrable domain. -/
theorem exampleStory_link :
    keptLink exampleProviderLib.urlLib .hackerNews exampleAdapted.externalUrl =
      some "https://www.ycombinator.com/apply" ∧
    pointsBackToSource exampleProviderLib.urlLib exampleStory.url
      "https://www.ycombinator.com/apply" = true := by
  decide

theorem exampleStory_rejected : exampleAdapted.decision.accepted = false := by
  decide

/-- The conversion of the payload. -/
theorem exampleStory_extraction : ∃ document, fromProvider exampleProviderLib exampleInput
    exampleConfig.providers.limits = .ok ⟨document, some "https://www.ycombinator.com/apply",
      [{ exampleAdapted.decision with selected := true }]⟩ := by
  obtain ⟨document, hdocument⟩ := assembleDocument_isOk exampleDocumentLib
    exampleAdapted.decision.blocks exampleInput.owner exampleInput.sourceAddress
    exampleInput.sourceBlob hackerNewsStrategy exampleAdapted.title none (by decide) (by decide)
  refine ⟨document, fromProvider_eq_ok_iff.mpr ⟨exampleAdapted, document, ?_,
    exampleStory_adapter, Or.inr ?_, hdocument, ?_⟩⟩
  · change examplePayload.length ≤ _
    rw [examplePayload, length_utf8Bytes]
    decide
  · exact Option.isSome_iff_exists.mpr ⟨_, exampleStory_link.1⟩
  · exact congrArg (ProviderExtraction.mk document · _) exampleStory_link.1.symm

theorem provider_gate_iff_story :
    (Gated examplePipelineLib exampleConfig exampleStory exampleInput ↔
      GateCondition examplePipelineLib exampleConfig exampleInput) :=
  (provider_gate_iff exampleStory_request fun _ => rfl).1 exampleInput rfl

/-- A story that links to its own site and has no text: the link is kept as an article to
resolve, then dropped as pointing back, and the run succeeds with a document whose only content
is a title that the evaluator rejected. -/
theorem rejected_story_completed :
    ∃ tr, Exec (completeProvider examplePipelineLib exampleConfig .hackerNews
        "https://hn.algolia.com/api/v1/items/1" exampleStory).run tr (.ok ()) ∧
      SelfContained exampleStory tr ∧
      (⟨.ownRead examplePayloadBlob, some examplePayload⟩ : Exchange RunOp) ∈ tr ∧
      ¬ DecisionAccepted examplePipelineLib exampleConfig exampleInput := by
  obtain ⟨document, hextraction⟩ := exampleStory_extraction
  let fetched := payloadFetch exampleAlgoliaUrl examplePayloadBlob
  obtain ⟨tr, hexec, success, r, hmem, hsteps⟩ := exists_selfContained examplePipelineLib
    exampleConfig exampleStory fetched ⟨document, some "https://www.ycombinator.com/apply",
      [{ exampleAdapted.decision with selected := true }]⟩
    (Option.filter_eq_none_iff.mpr (by simp [examplePipelineLib, exampleStory_link.2])) rfl
  refine ⟨⟨.fetch "https://hn.algolia.com/api/v1/items/1", .ok fetched⟩ ::
    ⟨.ownVerify examplePayloadBlob, .ok ()⟩ :: ⟨.ownRead examplePayloadBlob, some examplePayload⟩ ::
      ⟨.parseAddress "https://hn.algolia.com/api/v1/items/1", true⟩ :: tr, ?_,
      ⟨success, r, by simp [hmem], hsteps⟩, by simp, ?_⟩
  · refine Exec.ask _ _ (Except.ok fetched) ?_
    refine Exec.ask _ _ (Except.ok ()) (Exec.ask _ _ (some examplePayload) (Exec.ask _ _ true ?_))
    rw [← hextraction] at hexec
    exact hexec
  · rintro ⟨adapted, hadapted, haccepted⟩
    have heq : exampleAdapted = adapted :=
      Except.ok.inj (exampleStory_adapter.symm.trans hadapted)
    rw [← heq, exampleStory_rejected] at haccepted
    cases haccepted

end Extractor
