import Extractor.SafeFetch

/-!
# No request leaves for a prohibited destination

Every request that a retrieval sends (the first one, every redirect target, every retry)
goes to a URL that was normalized under the configured policy and whose destination was
validated: a literal address passed the policy, and for a name every address of the answer
of the lookup made for that very attempt did.

The invariant is on the current target: `Validated` holds of it before the outer loop, and
`followRedirect` establishes it again for the next target. The lookup that precedes a
request is visible in the history that the request is made in.

## Main results

* `fetch_sends_allowed`: the property, for every execution of `fetch`.
-/

namespace Extractor

open Program

variable {lib : UrlLib}

/-- The history of a retrieval. -/
abbrev FetchTrace := Trace FetchOp

/-! ### What a request may be sent to -/

/-- The destination of `url` is allowed at this point of the history: a literal address passed
the policy; a name was looked up just before, the answer is not empty, and every address of it
passed the policy. -/
def DestinationAllowed (h : FetchTrace) (url : Url) : Prop :=
  match url.host with
  | some (.ipv4 address) => validateAddress (.v4 address) = .ok ()
  | some (.ipv6 address) => validateAddress (.v6 address) = .ok ()
  | some (.domain name) =>
      ∃ (pre : FetchTrace) (timer : Instant) (answer : Timed (Option (List SocketAddr)))
        (addresses : List SocketAddr),
        h = pre ++ [⟨.lookup name timer, answer⟩] ∧ answer.value = some addresses ∧ addresses ≠ [] ∧
          ∀ a ∈ addresses, validateAddress a.ip = .ok ()
  | none => False

/-- A request to `url` is allowed at this point of the history: `url` is a normal form under
the policy, and its destination is allowed. -/
def SendAllowed (lib : UrlLib) (policy : RoutingPolicy) (h : FetchTrace) (url : Url) : Prop :=
  (∃ input n, normalize lib input policy = .ok n ∧ n.normalized = url) ∧ DestinationAllowed h url

/-- What every request of a retrieval satisfies. -/
def OpAllowed (lib : UrlLib) (policy : RoutingPolicy) : Condition FetchOp
  | h, _, .send url _ _ => SendAllowed lib policy h url
  | _, _, _ => True

/-- The current target of a retrieval: normalized under the policy, and not a prohibited
literal. -/
structure Validated (lib : UrlLib) (policy : RoutingPolicy) (url : NormalizedUrl) : Prop where
  normalized : ∃ input, normalize lib input policy = .ok url
  literal : validateLiteral url = .ok ()

/-- An accepted literal passed the policy. -/
theorem validateAddress_of_validateLiteral {url : NormalizedUrl} (h : validateLiteral url = .ok ()) :
    (∀ a, url.normalized.host = some (.ipv4 a) → validateAddress (.v4 a) = .ok ()) ∧
      ∀ a, url.normalized.host = some (.ipv6 a) → validateAddress (.v6 a) = .ok () := by
  constructor
  · intro a ha
    rw [validateLiteral, ha] at h
    cases hv : validateAddress (.v4 a) with
    | ok u => rfl
    | error e => simp [hv] at h
  · intro a ha
    rw [validateLiteral, ha] at h
    cases hv : validateAddress (.v6 a) with
    | ok u => rfl
    | error e => simp [hv] at h

/-- After the lookup of its host gave an accepted answer, a validated target may be
contacted. -/
theorem Validated.sendAllowed {policy : RoutingPolicy} {url : NormalizedUrl} {host : String}
    {pre : FetchTrace} {timer : Instant} {answer : Timed (Option (List SocketAddr))}
    {addresses : List SocketAddr}
    (h : Validated lib policy url) (hhost : url.normalized.hostStr lib = some host)
    (hresolve : resolveHost answer.value = .ok addresses) :
    SendAllowed lib policy (pre ++ [⟨.lookup host timer, answer⟩]) url.normalized := by
  obtain ⟨input, hnorm⟩ := h.normalized
  refine ⟨⟨input, url, hnorm, rfl⟩, ?_⟩
  obtain ⟨h4, h6⟩ := validateAddress_of_validateLiteral h.literal
  obtain ⟨hvalue, hne, hall⟩ := resolveHost_eq_ok_iff.mp hresolve
  unfold DestinationAllowed
  split
  · rename_i address haddr
    exact h4 address haddr
  · rename_i address haddr
    exact h6 address haddr
  · rename_i name hname
    obtain rfl : name = host := by
      simpa [Url.hostStr, hname] using hhost
    exact ⟨pre, timer, answer, addresses, rfl, hvalue, hne, hall⟩
  · rename_i hnone
    simp [Url.hostStr, hnone] at hhost

/-! ### The state machine -/

/-- The requests that reach out to a host: a lookup of its name, and the request itself. -/
def FetchOp.contacts {β : Type} : FetchOp β → Bool
  | .lookup _ _ => true
  | .send _ _ _ => true
  | _ => false

/-- A condition on what reaches out, which every attempt on a validated target meets. -/
structure OnAttempts (lib : UrlLib) (fetcher : SafeFetcher) (C : Condition FetchOp) : Prop where
  attempt : ∀ url, Validated lib fetcher.config.policy url → ∀ prior deadline now h,
    Ensures C (attempt lib fetcher url prior deadline now).run h fun _ _ => True
  other : ∀ (h : FetchTrace) {β : Type} (op : FetchOp β), op.contacts = false → C h op

section Machine

variable {fetcher : SafeFetcher} {url : NormalizedUrl} {prior : Option CacheRecord}
  {deadline now : Instant} {h : FetchTrace} {C : Condition FetchOp}

/-- Every attempt on a validated target is allowed. -/
theorem ensures_attempt (hresolver : fetcher.resolver = true)
    (hurl : Validated lib fetcher.config.policy url) :
    Ensures (OpAllowed lib fetcher.config.policy)
      (attempt lib fetcher url prior deadline now).run h fun _ _ => True := by
  unfold attempt resolveBeforeSend
  simp only [hresolver, if_true, ensures_bind_except, ensures_okOr, ensures_call]
  cases hhost : url.normalized.hostStr lib with
  | none => trivial
  | some host =>
      refine ⟨trivial, fun answer => ?_⟩
      simp only [ensures_require]
      split
      · cases hresolve : resolveHost answer.value with
        | ok addresses =>
            refine ⟨hurl.sendAllowed hhost hresolve, fun response => ?_⟩
            split
            · trivial
            · trivial
        | error e => cases e <;> trivial
      · trivial

/-- So the condition is on attempts. -/
theorem onAttempts_opAllowed (hresolver : fetcher.resolver = true) :
    OnAttempts lib fetcher (OpAllowed lib fetcher.config.policy) where
  attempt _ hurl _ _ _ _ := ensures_attempt hresolver hurl
  other _ _ op hop := by
    cases op with
    | send url prior timer => cases hop
    | _ => trivial

/-- The steps between attempts reach nothing. -/
theorem ensures_retryAfterOf (hC : OnAttempts lib fetcher C) {answer : Option Response} :
    Ensures C (retryAfterOf answer).run h fun _ _ => True := by
  unfold retryAfterOf retryAfterAt
  split
  · trivial
  · split
    · trivial
    · split
      · trivial
      · exact ⟨hC.other _ _ rfl, fun _ => trivial⟩

/-- Nor does the wait before a retry. -/
theorem ensures_sleepBeforeDeadline (hC : OnAttempts lib fetcher C) {delay : Instant} :
    Ensures C (sleepBeforeDeadline deadline delay now).run h fun _ _ => True := by
  unfold sleepBeforeDeadline
  simp only [ensures_bind_except, ensures_call, ensures_require]
  refine ⟨hC.other _ _ rfl, fun _ => ?_⟩
  split
  · trivial
  · trivial

/-- Every request of the inner loop meets the condition. -/
theorem ensures_sendLoop (hC : OnAttempts lib fetcher C)
    (hurl : Validated lib fetcher.config.policy url) (retriesLeft attempts : ℕ) :
    Ensures C (sendLoop lib fetcher url prior deadline retriesLeft attempts now).run h
      fun _ _ => True := by
  induction retriesLeft generalizing attempts now h with
  | zero =>
      unfold sendLoop
      rw [ensures_bind_except]
      refine (hC.attempt url hurl _ _ _ _).imp ?_
      rintro h₁ (e | ⟨answer, now₁⟩) -
      · trivial
      · simp only [ensures_bind_except, ensures_okOr]
        cases answer <;> trivial
  | succ retriesLeft ih =>
      unfold sendLoop
      rw [ensures_bind_except]
      refine (hC.attempt url hurl _ _ _ _).imp ?_
      rintro h₁ (e | ⟨answer, now₁⟩) -
      · trivial
      · dsimp only
        split
        · rw [ensures_bind_except]
          refine (ensures_retryAfterOf hC).imp ?_
          rintro h₂ (e | retryAfter) -
          · trivial
          · dsimp only
            rw [ensures_bind_except]
            refine (ensures_sleepBeforeDeadline hC).imp ?_
            rintro h₃ (e | now₂) -
            · trivial
            · exact ih (attempts + 1)
        · simp only [ensures_bind_except, ensures_okOr]
          cases answer <;> trivial

/-- A literal that is checked passed the check. -/
theorem ensures_checkLiteral :
    Ensures C (checkLiteral true url).run h
      fun _ r => r = .ok () → validateLiteral url = .ok () := by
  unfold checkLiteral
  simp only [if_true, ensures_ofExcept, imp_self]

/-- The next target after a redirect is validated again. -/
theorem ensures_followRedirect (hC : OnAttempts lib fetcher C) {context : FetchContext}
    {s : HopState} {sent : Sent} (hcontext : context.trustedTestOrigin = none) :
    Ensures C (followRedirect lib fetcher context s sent).run h
      fun _ r => ∀ s', r = .ok s' → Validated lib fetcher.config.policy s'.normalized := by
  unfold followRedirect
  simp only [ensures_bind_except, ensures_okOr, ensures_ofExcept]
  cases sent.response.header "location" with
  | none => simp
  | some location =>
      dsimp only
      cases lib.join s.normalized.normalized location with
      | none => simp
      | some next =>
          dsimp only
          cases hnorm : normalize lib (lib.asStr next) fetcher.config.policy with
          | error e => simp [Except.mapError]
          | ok normalized =>
              have hskip : (context.trustedTestOrigin != some (origin lib normalized)) = true := by
                simp [hcontext]
              simp only [Except.mapError, hskip]
              refine ensures_checkLiteral.imp ?_
              rintro h₁ (e | ⟨⟨⟩⟩) hlit
              · simp
              · dsimp only
                cases normalized.normalized.hostStr lib with
                | none => simp
                | some host =>
                    simp only [ensures_call]
                    refine ⟨hC.other _ _ rfl, fun left => ⟨hC.other _ _ rfl, fun entered => ?_⟩⟩
                    cases entered with
                    | none => simp
                    | some startAt =>
                        simp only [ensures_require]
                        split
                        · intro s' hs'
                          obtain rfl := Except.ok.inj hs'
                          exact ⟨⟨_, hnorm⟩, hlit rfl⟩
                        · intro s' hs'
                          cases hs'

/-- The end of a retrieval reaches nothing. -/
theorem ensures_conclude (hC : OnAttempts lib fetcher C) {context : FetchContext} {s : HopState}
    {sent : Sent} : Ensures C (conclude context s sent).run h fun _ _ => True := by
  unfold conclude
  dsimp only
  split
  · simp only [ensures_bind_except, ensures_okOr]
    cases context.prior with
    | none => trivial
    | some prior => exact ⟨hC.other _ _ rfl, fun _ => trivial⟩
  · simp only [ensures_bind_except, ensures_require]
    split
    · exact ⟨hC.other _ _ rfl, fun _ => trivial⟩
    · trivial

/-- Every request of the outer loop meets the condition. -/
theorem ensures_hopLoop (hC : OnAttempts lib fetcher C) {context : FetchContext}
    (hcontext : context.trustedTestOrigin = none) (redirectsLeft : ℕ) {s : HopState}
    (hs : Validated lib fetcher.config.policy s.normalized) :
    Ensures C (hopLoop lib fetcher context redirectsLeft s).run h fun _ _ => True := by
  induction redirectsLeft generalizing s h with
  | zero =>
      unfold hopLoop
      rw [ensures_bind_except]
      refine (ensures_sendLoop hC hs _ _).imp ?_
      rintro h₁ (e | sent) -
      · trivial
      · dsimp only
        split
        · trivial
        · exact ensures_conclude hC
  | succ redirectsLeft ih =>
      unfold hopLoop
      rw [ensures_bind_except]
      refine (ensures_sendLoop hC hs _ _).imp ?_
      rintro h₁ (e | sent) -
      · trivial
      · dsimp only
        split
        · rw [ensures_bind_except]
          refine (ensures_followRedirect hC hcontext).imp ?_
          rintro h₂ (e | next) hnext
          · trivial
          · exact ih (hnext next rfl)
        · exact ensures_conclude hC

/-- **Every target of a retrieval is validated**: a condition that the attempts on validated
targets meet holds of every request. -/
theorem ensures_fetch (hC : OnAttempts lib fetcher C) {request : FetchRequest}
    {started : Instant} :
    Ensures C (fetch lib fetcher request started).run [] fun _ _ => True := by
  unfold fetch fetchInner
  simp only [ensures_bind_except, ensures_ofExcept]
  cases hnorm : normalize lib request.url fetcher.config.policy with
  | error e => trivial
  | ok normalized =>
      simp only [Except.mapError, ensures_okOr]
      cases lib.parse normalized.original with
      | none => trivial
      | some originalUrl =>
          dsimp only
          refine ensures_checkLiteral.imp ?_
          rintro h₁ (e | ⟨⟨⟩⟩) hlit
          · trivial
          · dsimp only
            cases normalized.normalized.hostStr lib with
            | none => trivial
            | some host =>
                simp only [ensures_call]
                refine ⟨hC.other _ _ rfl, fun entered => ?_⟩
                cases entered with
                | none => trivial
                | some startAt =>
                    have hloop : ∀ (h₂ : FetchTrace) (context : FetchContext) (s : HopState),
                        context.trustedTestOrigin = none → s.normalized = normalized →
                        Ensures C (hopLoop lib fetcher context fetcher.config.maxRedirects s).run h₂
                          fun _ _ => True := by
                      intro h₂ context s hcontext hs
                      exact ensures_hopLoop hC hcontext _ (hs ▸ ⟨⟨_, hnorm⟩, hlit rfl⟩)
                    unfold waitForSlot
                    dsimp only
                    split
                    · simp only [ensures_bind_except, ensures_require]
                      split
                      · exact ⟨hC.other _ _ rfl, fun _ => hloop _ _ _ rfl rfl⟩
                      · trivial
                    · exact hloop _ _ _ rfl rfl

end Machine

/-! ### Every execution -/

/-- **No request leaves for a prohibited destination.** In every execution of `fetch`, for
every input URL, configuration, server and resolver, the URL of every request is a normal form
under the configured policy; so its scheme is `http` or `https`, it carries no user
information, and its port is allowed. If its host is an address literal, that address passed
the policy; if it is a name, the request directly follows a lookup of that name whose answer
is not empty and whose every address passed the policy. -/
theorem fetch_sends_allowed (config : FetchConfig) (request : FetchRequest) (started : Instant)
    {tr : FetchTrace} {result : Except SafeFetchError FetchResult}
    (hexec : Exec (fetch lib (SafeFetcher.new config) request started).run tr result)
    {pre post : FetchTrace} {url : Url} {prior : Option CacheRecord} {timer : Instant}
    {answer : Timed (Option Response)}
    (htr : tr = pre ++ ⟨.send url prior timer, answer⟩ :: post) :
    (∃ input n, normalize lib input config.policy = .ok n ∧ n.normalized = url) ∧
      (url.scheme = "http" ∨ url.scheme = "https") ∧ url.username = "" ∧ url.password = none ∧
      (∃ port, url.portOrKnownDefault = some port ∧ port ∈ config.allowedPorts) ∧
      DestinationAllowed pre url := by
  have hfetch : Ensures (OpAllowed lib (SafeFetcher.new config).config.policy)
      (fetch lib (SafeFetcher.new config) request started).run [] fun _ _ => True :=
    ensures_fetch (onAttempts_opAllowed rfl)
  have hallowed := (hfetch.exec hexec).2 pre post _ htr
  obtain ⟨⟨input, n, hnorm, rfl⟩, hdest⟩ := hallowed
  obtain ⟨hscheme, -, huser, hpass, -, hport⟩ := normalize_spec hnorm
  exact ⟨⟨input, n, hnorm, rfl⟩, hscheme, huser, hpass, hport, hdest⟩

/-- A server on the public name that redirects to the literal, which answers. -/
def exampleAnswers : ℕ → {β : Type} → FetchOp β → β
  | _, _, .tryEnter _ => some 0
  | _, _, .leave _ => ()
  | _, _, .sleepUntil _ => ()
  | _, _, .sleepUnder _ _ => ()
  | _, _, .lookup _ _ => ⟨5, some [⟨.v4 ⟨93, 184, 216, 34⟩, 0⟩]⟩
  | n, _, .send url _ _ =>
      if n = 2 then ⟨20, some ⟨302, url, fun name =>
        if name = "location" then some "http://93.184.216.34/" else none⟩⟩
      else ⟨20, some ⟨200, url, fun _ => none⟩⟩
  | _, _, .httpDate _ => none
  | _, _, .storeResponse _ _ _ => ⟨0, .error .timeoutReadIdle⟩
  | _, _, .reusePrior _ _ _ _ => ⟨0, .error .cacheIntegrity⟩

/-- The retrieval of the public name. -/
def exampleFetch : FetchM FetchResult :=
  fetch exampleLib (SafeFetcher.new (ExtractorConfig.builtIn "").fetch)
    ⟨"http://example.org/", none⟩ 0

/-- An execution that follows a redirect to a literal address, and what holds when the
literal is contacted. -/
theorem fetch_sends_allowed_redirect : ∃ tr result pre post timer answer,
    Exec exampleFetch.run tr result ∧
      tr = pre ++ ⟨.send exampleLiteral none timer, answer⟩ :: post ∧
      DestinationAllowed pre exampleLiteral := by
  have hexec := exec_run exampleAnswers exampleFetch.run 0
  have htr : (exampleFetch.run.run exampleAnswers 0).1 =
      (exampleFetch.run.run exampleAnswers 0).1.take 6 ++
        ⟨.send exampleLiteral none 10030, ⟨20, some ⟨200, exampleLiteral, fun _ => none⟩⟩⟩ ::
          (exampleFetch.run.run exampleAnswers 0).1.drop 7 := rfl
  exact ⟨_, _, _, _, _, _, hexec, htr, (fetch_sends_allowed _ _ _ hexec htr).2.2.2.2.2⟩

end Extractor
