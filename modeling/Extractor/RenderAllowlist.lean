import Extractor.CandidateChoice
import Extractor.RenderBudgets

/-!
# The render allowlist

The policy compares the host of the final URL of a retrieval with `render.allowed_hosts`, while
the command that it permits carries the URL of the run. The two have the same host unless a
redirect changed it. Hence the exact condition under which no host outside the allowlist is handed
to the browser worker, whatever page a retrieval finds. A daily maximum of zero or beyond `i32`
admits no command at all.

## Main results

* `render_url`: every command carries the URL of its run.
* `allowlist_covers_iff`: the allowlist covers what is rendered exactly when the host of the run is
  listed or nothing is rendered.
* `covers_of_same_host`: without a change of host it does.
* `rejectsShells_of_parse`: where an empty shell is parsed within the limits, one is rejected.
-/

namespace Extractor

open Program

/-- The host of the URL in a render command. -/
def RenderCommand.host (lib : UrlLib) (command : RenderCommand) : Option String :=
  (lib.parse command.url).bind fun url => url.hostStr lib

/-- A host is listed: it equals an entry, up to ASCII case. -/
def Listed (allowedHosts : List String) (host : Option String) : Prop :=
  ∃ name, host = some name ∧
    ∃ entry ∈ allowedHosts, Text.eqIgnoreAsciiCase entry.toList name.toList = true

section Allowlist

variable (lib : PipelineLib) (config : ExtractorConfig) (run : QueuedRun) (finalUrl : Url)

/-- **The allowlist covers what is rendered**: whatever is retrieved at the final URL, and whatever
the answers are, every command that `complete_html` publishes names a listed host. -/
def AllowlistCovers : Prop :=
  ∀ fetched tr result, fetched.finalUrl = finalUrl →
    Exec (completeHtml lib config run fetched).run tr result → (∀ x ∈ tr, BudgetAnswer x) →
    ∀ command reply, ⟨RunOp.render command, reply⟩ ∈ tr →
      Listed config.render.allowedHosts (command.host lib.providers.urlLib)

/-- The parser rejects empty shells at the final URL: within its limits there is one. -/
def RejectsShells : Prop :=
  ∃ fetched page candidates, fetched.finalUrl = finalUrl ∧
    lib.fromHtml ⟨run.owner, finalAddress lib fetched, fetched.artifact, page⟩ config.parser =
      .error (.lowQuality candidates) ∧
    isEmptyShell page = true ∧ ∀ c ∈ candidates, c.metrics.textCharacters < 120

/-- A page at the final URL can be rendered: rendering is enabled for its host, with a maximum that
can be consumed, and empty shells are rejected there. -/
structure Renders : Prop where
  enabled : config.render.enabled = true
  host : Escalation.hostAllowed (finalUrl.hostStr lib.providers.urlLib)
    config.render.allowedHosts = true
  positive : 0 < config.render.maxEscalationsPerDay
  bounded : config.render.maxEscalationsPerDay < 2 ^ 31
  shells : RejectsShells lib config run finalUrl

/-- The host of the run. -/
def runHost : Option String :=
  (lib.providers.urlLib.parse run.url).bind fun url => url.hostStr lib.providers.urlLib

variable {lib config run finalUrl} {fetched : FetchResult} {page : List UInt8}

/-- The four gates that are open to a page. -/
theorem decide_eq_escalate {candidates : List CandidateDecision} :
    Escalation.decide (escalationInputs lib config fetched page candidates) = .escalate ↔
      config.render.enabled = true ∧
      Escalation.hostAllowed (fetched.finalUrl.hostStr lib.providers.urlLib)
        config.render.allowedHosts = true ∧
      isEmptyShell page = true ∧ ∀ c ∈ candidates, c.metrics.textCharacters < 120 := by
  rw [Escalation.decide]
  cases henabled : config.render.enabled with
  | false => simp [escalationInputs, henabled]
  | true =>
      cases hhost : Escalation.hostAllowed (fetched.finalUrl.hostStr lib.providers.urlLib)
          config.render.allowedHosts with
      | false =>
          refine ⟨fun h => ?_, fun h => absurd h.2.1 Bool.false_ne_true⟩
          simp only [escalationInputs, henabled, hhost] at h
          split_ifs at h with _ _ hopen
          exact absurd rfl hopen
      | true =>
          cases hshell : isEmptyShell page with
          | false => simp [escalationInputs, henabled, hshell]
          | true => simp [escalationInputs, henabled, hhost, hshell]

/-- A host that may be rendered is listed, unless the list is empty. -/
theorem listed_of_hostAllowed {host : Option String} {allowedHosts : List String}
    (hlist : allowedHosts ≠ []) (h : Escalation.hostAllowed host allowedHosts = true) :
    Listed allowedHosts host := by
  have hnonempty : allowedHosts.isEmpty = false := by simpa using hlist
  cases host with
  | none =>
      rw [Escalation.hostAllowed, hnonempty] at h
      cases h
  | some name =>
      simp only [Escalation.hostAllowed, hnonempty, Bool.false_or, List.any_eq_true,
        beq_iff_eq] at h
      obtain ⟨entry, hentry, heq⟩ := h
      refine ⟨name, rfl, entry, hentry, ?_⟩
      rw [Text.eqIgnoreAsciiCase, heq, Text.asciiLower_asciiLower]
      exact beq_self_eq_true _

/-- A command carries another URL than its run. -/
def RendersOther (run : QueuedRun) : Exchange RunOp → Prop
  | ⟨.render command, _⟩ => command.url ≠ run.url
  | _ => False

/-- Every command carries the URL of its run. -/
theorem render_url {tr : Trace RunOp} {result : Except ProcessError Unit}
    (hexec : Exec (completeHtml lib config run fetched).run tr result) {command : RenderCommand}
    {reply : Except RenderRequestError RenderOutcome}
    (hmem : (⟨.render command, reply⟩ : Exchange RunOp) ∈ tr) : command.url = run.url := by
  have hprice : ∀ x, RendersOther run x → networkCost 0 1 0 x ≠ 0 := by
    rintro ⟨request, answer⟩ hx
    cases request <;> first | exact Nat.one_ne_zero | exact hx.elim
  -- Another URL would have to come after something impossible, in every part of the escalation.
  have hescalate : After (fun _ => False) (RendersOther run)
      (escalateToRender lib config run fetched) := by
    refine .call_bind (fun x hx => hx) fun renderId => Or.inr ?_
    refine .call_bind (fun x hx => hx) fun operationId => Or.inr ?_
    refine .call_bind (fun x hx => hx rfl) fun reply => Or.inr (.of_costs hprice ?_)
    split
    · exact costs_convertRendered
    · exact .free_bind costs_terminate fun _ => .done rfl
    · exact .free_bind costs_terminate fun _ => .done rfl
    · exact .free_bind costs_terminate fun _ => .done rfl
  have hafter : After (fun _ => False) (RendersOther run)
      (completeHtml lib config run fetched) := by
    refine after_completeHtml ?_ (.call_bind (fun x hx => hx) fun budget => Or.inr ?_)
    · rintro ⟨request, answer⟩ hx
      cases request <;> first | exact Nat.one_ne_zero | exact hx.elim
    refine .bind (.of_costs hprice ?_) fun budget => ?_
    · cases budget <;> exact .done rfl
    cases budget with
    | exhausted => exact .of_costs hprice (.done rfl)
    | consumed count =>
        refine hescalate.bind fun extraction => .of_costs hprice ?_
        cases extraction with
        | none => exact .done rfl
        | some extraction => exact .free_bind costs_completeDocument fun _ => .done rfl
  by_contra hurl
  obtain ⟨pre, post, heq⟩ := List.append_of_mem hmem
  obtain ⟨y, -, hfalse⟩ := hafter tr result hexec pre _ post heq hurl
  exact hfalse

/-- An address that is accepted is the text itself. -/
theorem exec_parseAddress_ok {text address : String} {tr : Trace RunOp}
    (h : Exec (parseAddress text).run tr (.ok address)) : address = text := by
  obtain ⟨valid, tr', rfl, hrest⟩ := exec_call_bind_iff.mp h
  cases valid with
  | false =>
      obtain ⟨-, heq⟩ := exec_done_iff.mp hrest
      cases heq
  | true =>
      obtain ⟨-, heq⟩ := exec_done_iff.mp hrest
      exact Except.ok.inj heq

/-- A page that the policy denies renders nothing. -/
theorem renders_escalateHtml {candidates : List CandidateDecision} {tr : Trace RunOp}
    {result : Except ProcessError Unit}
    (hexec : Exec (escalateHtml lib config run fetched page candidates).run tr result)
    (hrenders : renders tr ≠ 0) :
    Escalation.decide (escalationInputs lib config fetched page candidates) = .escalate := by
  cases hdecision : Escalation.decide (escalationInputs lib config fetched page candidates) with
  | escalate => rfl
  | denied denial =>
      rw [escalateHtml_of_denied hdecision] at hexec
      exact absurd (renders_eq_zero costs_terminate hexec) hrenders

/-- A retrieval that is rendered shows that its final URL can be. -/
theorem renders_of_exec {tr : Trace RunOp} {result : Except ProcessError Unit}
    (hexec : Exec (completeHtml lib config run fetched).run tr result)
    (hbudget : ∀ x ∈ tr, BudgetAnswer x) (hrenders : renders tr ≠ 0) :
    Renders lib config run fetched.finalUrl := by
  obtain ⟨hpositive, hbounded⟩ := spendable_of_render
    (after_completeHtml (fun _ => networkCost_of_isRender) admitted_before_escalation)
    hexec hbudget hrenders
  obtain ⟨verified, tr₁, rfl, h₁⟩ := exec_call_bind_iff.mp hexec
  rw [renders_cons_of_not rfl] at hrenders
  cases verified with
  | error error => exact absurd (renders_eq_zero costs_terminate h₁) hrenders
  | ok u =>
      rcases exec_bind_except_iff.mp h₁ with ⟨e, hread, rfl⟩ |
        ⟨trRead, tr₂, page, rfl, hread, h₂⟩
      · exact absurd (renders_eq_zero costs_readOwn hread) hrenders
      rw [renders_append, renders_eq_zero costs_readOwn hread, Nat.zero_add] at hrenders
      rcases exec_bind_except_iff.mp h₂ with ⟨e, hparse, rfl⟩ |
        ⟨trParse, tr₃, address, rfl, hparse, h₃⟩
      · exact absurd (renders_eq_zero costs_parseAddress hparse) hrenders
      rw [renders_append, renders_eq_zero costs_parseAddress hparse, Nat.zero_add] at hrenders
      obtain rfl : address = finalAddress lib fetched := exec_parseAddress_ok hparse
      cases hhtml : lib.fromHtml ⟨run.owner, finalAddress lib fetched, fetched.artifact, page⟩
          config.parser with
      | ok extraction =>
          rw [hhtml] at h₃
          exact absurd (renders_eq_zero costs_completeDocument h₃) hrenders
      | error error =>
          rw [hhtml] at h₃
          cases error with
          | lowQuality candidates =>
              obtain ⟨henabled, hhost, hshell, hempty⟩ :=
                decide_eq_escalate.mp (renders_escalateHtml h₃ hrenders)
              exact ⟨henabled, hhost, hpositive, hbounded,
                fetched, page, candidates, rfl, hhtml, hshell, hempty⟩
          | _ => exact absurd (renders_eq_zero costs_terminate h₃) hrenders

/-- Where a page can be rendered, the host of the run has to be listed. -/
theorem listed_of_covers (hcovers : AllowlistCovers lib config run finalUrl)
    (hopen : Renders lib config run finalUrl) :
    Listed config.render.allowedHosts (runHost lib run) := by
  obtain ⟨fetched, page, candidates, rfl, hhtml, hshell, hempty⟩ := hopen.shells
  have hdecision := decide_eq_escalate.mpr ⟨hopen.enabled, hopen.host, hshell, hempty⟩
  refine hcovers fetched _ _ rfl (exec_timedOutRender hhtml hdecision) ?_
    (renderCommand config.render run 7 8) (.error .timeout) ?_
  · have hbounded := hopen.bounded
    simpa [timedOutRender, BudgetAnswer, Nat.one_le_iff_ne_zero, hopen.positive.ne'] using hbounded
  · simp [timedOutRender]

/-- **The render allowlist.** For every run, final URL and configuration it covers what is rendered
exactly when the host of the run is listed, or no page at the final URL can be rendered: rendering
is disabled, the host of the final URL may not be rendered, the daily maximum is zero or beyond
`i32`, or the parser rejects no empty shell. -/
theorem allowlist_covers_iff :
    AllowlistCovers lib config run finalUrl ↔
      Listed config.render.allowedHosts (runHost lib run) ∨
        ¬ Renders lib config run finalUrl := by
  constructor
  · intro hcovers
    by_contra hnot
    obtain ⟨hunlisted, hopen⟩ := not_or.mp hnot
    exact hunlisted (listed_of_covers hcovers (not_not.mp hopen))
  · rintro hcondition fetched tr result rfl hexec hbudget command reply hmem
    have hurl := render_url hexec hmem
    have hrenders : renders tr ≠ 0 := (List.countP_pos_iff.mpr ⟨_, hmem, rfl⟩).ne'
    rw [RenderCommand.host, hurl]
    exact hcondition.resolve_right fun hclosed =>
      hclosed (renders_of_exec hexec hbudget hrenders)

/-- Without a change of host the allowlist covers what is rendered. -/
theorem covers_of_same_host (hlist : config.render.allowedHosts ≠ [])
    (hhost : finalUrl.hostStr lib.providers.urlLib = runHost lib run) :
    AllowlistCovers lib config run finalUrl := by
  rintro fetched tr result rfl hexec hbudget command reply hmem
  have hurl := render_url hexec hmem
  have hrenders : renders tr ≠ 0 := (List.countP_pos_iff.mpr ⟨_, hmem, rfl⟩).ne'
  have hallowed := (renders_of_exec hexec hbudget hrenders).host
  rw [hhost] at hallowed
  rw [RenderCommand.host, hurl]
  exact listed_of_hostAllowed hlist hallowed

/-- **Empty shells are rejected** where one is parsed within the limits and no candidate of it has
120 characters. -/
theorem rejectsShells_of_parse {html : HtmlLib} (hlib : lib.fromHtml = fromHtml html)
    (fetched : FetchResult) (hshell : isEmptyShell page = true)
    (hbytes : page.length ≤ config.parser.maxInputBytes)
    (hnodes : (html.parse page).nodeCount ≤ config.parser.maxDomNodes)
    (hempty : ∀ d ∈ (html.parse page).decisions, d.metrics.textCharacters < 120) :
    RejectsShells lib config run fetched.finalUrl := by
  have hrejected : ∀ d ∈ (html.parse page).decisions, d.accepted = false := by
    intro d hd
    obtain ⟨c, hc, rfl⟩ := exists_candidate hd
    have hfew : min ((c.blocks.map blockTextLen).sum) (2 ^ 32 - 1) < 120 := hempty _ hd
    refine decide_eq_false fun haccepted => ?_
    have henough : 120 ≤ (c.blocks.map blockTextLen).sum := haccepted.1
    omega
  refine ⟨fetched, page, (html.parse page).decisions, rfl, ?_, hshell, hempty⟩
  rw [hlib, fromHtml, htmlAssembly_of_rejected hbytes hnodes hrejected]
  rfl

end Allowlist

/-! ### A redirect onto the list -/

/-- Rendering is enabled for one host. -/
def listedConfig : ExtractorConfig :=
  { exampleRenderConfig with
    render := { exampleRenderConfig.render with allowedHosts := ["example.org"] } }

/-- A run for an address that is not listed. -/
def unlistedRun : QueuedRun :=
  { exampleShellRun with url := "http://93.184.216.34/" }

/-- A page at `example.org` can be rendered. -/
theorem renders_listedConfig (run : QueuedRun) :
    Renders exampleShellLib listedConfig run exampleShellFetch.finalUrl where
  enabled := rfl
  host := by decide
  positive := by decide
  bounded := by decide
  shells := ⟨exampleShellFetch, exampleShell, exampleShellDecisions, rfl, rfl, by decide, by decide⟩

/-- A run for `example.org` itself is covered, though pages are rendered there. -/
theorem allowlist_covers_listed :
    Renders exampleShellLib listedConfig exampleShellRun exampleShellFetch.finalUrl ∧
      AllowlistCovers exampleShellLib listedConfig exampleShellRun
        exampleShellFetch.finalUrl := by
  refine ⟨renders_listedConfig _, allowlist_covers_iff.mpr (Or.inl ?_)⟩
  refine ⟨"example.org", by decide, "example.org", List.mem_singleton_self _, by decide⟩

/-- A redirect from `93.184.216.34` to `example.org` hands the unlisted address to the worker. -/
theorem unlisted_host_rendered :
    Accepted exampleConfigLib listedConfig ∧ listedConfig.render.allowedHosts ≠ [] ∧
      ¬ AllowlistCovers exampleShellLib listedConfig unlistedRun
        exampleShellFetch.finalUrl := by
  refine ⟨exampleRenderConfig_accepted.with_render (by decide), by decide, ?_⟩
  intro hcovers
  have hlisted := listed_of_covers hcovers (renders_listedConfig _)
  obtain ⟨name, hname, entry, hentry, heq⟩ := hlisted
  obtain rfl : name = "93.184.216.34" := (Option.some.inj hname).symm.trans (by decide)
  obtain rfl : entry = "example.org" := by simpa [listedConfig] using hentry
  revert heq
  decide

end Extractor
