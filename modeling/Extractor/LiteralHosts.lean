import Extractor.FetchSafety
import Extractor.UrlCanonical

/-!
# Address literals and the resolver

`fetch_inner` of `crates/safe-fetch/src/lib.rs` checks a target twice: `validate_literal` gets the
address that the URL was parsed to, `resolve_before_send` the text of its host. The text of an IPv6
host stands in brackets, which no lookup knows, so that an IPv6 address that the policy permits ends
as a DNS failure. The two checks agree on IPv4 addresses, and what the first one refuses is never
looked up.

What a lookup answers for an address is from outside the repository; it is collected in
`LookupAnswer`.

## Main definitions

* `PoliciesAgree`: the second check agrees with the first one on a target.

## Main results

* `fetch_lookups_validated`: every lookup of a retrieval is for a target that was accepted.
* `policies_agree_iff`: the checks agree on a literal unless it is a permitted IPv6 address.
-/

namespace Extractor

open Program

variable {lib : UrlLib}

/-! ### Lookups -/

/-- The characters of a DNS name. -/
def IsDnsName (host : String) : Prop :=
  ∀ c ∈ host.toList, c.isAlphanum = true ∨ c = '-' ∨ c = '.' ∨ c = '_'

/-- The text of an address, without brackets. -/
def IsAddressText (lib : UrlLib) (host : String) : Prop :=
  (∃ a : Ipv4Addr, host = a.text) ∨ ∃ a, host = lib.ipv6Text a

/-- The texts of IPv6 addresses are groups of hexadecimal digits. -/
def UrlLib.HexTexts (lib : UrlLib) : Prop :=
  ∀ a, ∀ c ∈ (lib.ipv6Text a).toList, c.isAlphanum = true ∨ c = ':'

/-- **What a lookup answers**: the address itself for its text, and nothing for a text that is no
name either. -/
structure LookupAnswer (lib : UrlLib) (host : String) (answer : Option (List SocketAddr)) :
    Prop where
  ipv4 : ∀ a : Ipv4Addr, host = a.text → answer = some [⟨.v4 a, 0⟩]
  ipv6 : ∀ a, host = lib.ipv6Text a → answer = some [⟨.v6 a, 0⟩]
  other : ¬ IsAddressText lib host → ¬ IsDnsName host → answer = none

/-- A lookup answers so, while time remains. -/
def LooksUpInTime (lib : UrlLib) (deadline now : Instant) : Exchange FetchOp → Prop
  | ⟨.lookup host _, answer⟩ => LookupAnswer lib host answer.value ∧ now + answer.delay ≤ deadline
  | _ => True

/-- **The checks agree on a target.** If `validate_literal` accepts it, every attempt on it whose
lookups are answered in time resolves it and sends a request; if not, a retrieval of it asks for
nothing. -/
structure PoliciesAgree (lib : UrlLib) (fetcher : SafeFetcher) (url : NormalizedUrl) : Prop where
  resolved : validateLiteral url = .ok () → ∀ deadline now tr result,
    Exec (resolveBeforeSend lib url.normalized deadline now).run tr result →
      (∀ x ∈ tr, LooksUpInTime lib deadline now x) → ∃ after, result = .ok after
  sent : validateLiteral url = .ok () → ∀ prior deadline now tr result,
    Exec (attempt lib fetcher url prior deadline now).run tr result →
      (∀ x ∈ tr, LooksUpInTime lib deadline now x) →
      result ≠ .error .dns ∧
        ∃ timer answer, (⟨.send url.normalized prior timer, answer⟩ : Exchange _) ∈ tr
  refused : validateLiteral url ≠ .ok () → ∀ request started tr result,
    normalize lib request.url fetcher.config.policy = .ok url →
      Exec (fetch lib fetcher request started).run tr result → tr = []

/-! ### What is looked up -/

/-- A lookup is for the host of an accepted target. -/
def LooksUpValidated (lib : UrlLib) (policy : RoutingPolicy) : Condition FetchOp
  | _, _, .lookup host _ => ∃ n, Validated lib policy n ∧ n.normalized.hostStr lib = some host
  | _, _, _ => True

variable {fetcher : SafeFetcher} {url : NormalizedUrl} {deadline now : Instant}
  {tr : FetchTrace}

theorem onAttempts_looksUpValidated :
    OnAttempts lib fetcher (LooksUpValidated lib fetcher.config.policy) where
  attempt url hurl prior deadline now h := by
    unfold attempt resolveBeforeSend
    cases hresolver : fetcher.resolver with
    | false =>
        simp only [if_false, Bool.false_eq_true, ensures_bind_except, ensures_pure_except,
          ensures_call, ensures_require]
        refine ⟨trivial, fun answer => ?_⟩
        split <;> trivial
    | true =>
        simp only [if_true, ensures_bind_except, ensures_okOr, ensures_call]
        cases hhost : url.normalized.hostStr lib with
        | none => trivial
        | some host =>
            refine ⟨⟨url, hurl, hhost⟩, fun answer => ?_⟩
            simp only [ensures_require]
            split
            · cases hresolve : resolveHost answer.value with
              | ok addresses =>
                  refine ⟨trivial, fun response => ?_⟩
                  split <;> trivial
              | error e => cases e <;> trivial
            · trivial
  other h β op hop := by
    cases op with
    | lookup host timer => cases hop
    | _ => trivial

/-- **What is looked up was accepted.** -/
theorem fetch_lookups_validated {request : FetchRequest} {started : Instant}
    {result : Except SafeFetchError FetchResult}
    (hexec : Exec (fetch lib fetcher request started).run tr result) {host : String}
    {timer : Instant} {answer : Timed (Option (List SocketAddr))}
    (hmem : (⟨.lookup host timer, answer⟩ : Exchange FetchOp) ∈ tr) :
    ∃ n, Validated lib fetcher.config.policy n ∧ n.normalized.hostStr lib = some host := by
  obtain ⟨pre, post, heq⟩ := List.append_of_mem hmem
  exact ((ensures_fetch onAttempts_looksUpValidated).exec hexec).2 pre post _ heq

/-- A target that is refused ends the retrieval at once. -/
theorem ensures_fetch_refused {request : FetchRequest} {started : Instant}
    (hnorm : normalize lib request.url fetcher.config.policy = .ok url)
    (hrefused : validateLiteral url ≠ .ok ()) :
    Ensures (fun _ _ _ => False) (fetch lib fetcher request started).run [] fun _ _ => True := by
  unfold fetch fetchInner
  simp only [ensures_bind_except, ensures_ofExcept]
  rw [hnorm]
  simp only [Except.mapError, ensures_okOr]
  cases lib.parse url.original with
  | none => trivial
  | some originalUrl =>
      dsimp only
      refine ensures_checkLiteral.imp ?_
      rintro h₁ (e | ⟨⟨⟩⟩) hlit
      · trivial
      · exact absurd (hlit rfl) hrefused

theorem fetch_refused {request : FetchRequest} {started : Instant}
    {result : Except SafeFetchError FetchResult}
    (hnorm : normalize lib request.url fetcher.config.policy = .ok url)
    (hrefused : validateLiteral url ≠ .ok ())
    (hexec : Exec (fetch lib fetcher request started).run tr result) : tr = [] := by
  cases tr with
  | nil => rfl
  | cons x tr =>
      exact (((ensures_fetch_refused hnorm hrefused).exec hexec).2 [] tr x rfl).elim

/-! ### One attempt -/

/-- The exchanges of a resolution. -/
theorem exec_resolveBeforeSend {target : Url} {host : String}
    {result : Except SafeFetchError Instant} (hhost : target.hostStr lib = some host)
    (hexec : Exec (resolveBeforeSend lib target deadline now).run tr result)
    (hanswers : ∀ x ∈ tr, LooksUpInTime lib deadline now x) :
    ∃ answer, tr = [⟨.lookup host deadline, answer⟩] ∧ LookupAnswer lib host answer.value ∧
      result = (match resolveHost answer.value with
        | .ok _ => .ok (now + answer.delay)
        | .error (.policy _) => .error .addressPolicy
        | .error _ => .error .dns) := by
  rw [resolveBeforeSend, hhost] at hexec
  obtain ⟨answer, tr', rfl, hrest⟩ := exec_call_bind_iff.mp hexec
  obtain ⟨hanswer, hintime⟩ : LookupAnswer lib host answer.value ∧ now + answer.delay ≤ deadline :=
    hanswers _ List.mem_cons_self
  rw [require, if_pos hintime] at hrest
  change Exec (match resolveHost answer.value with
    | .ok _ => .done (.ok (now + answer.delay))
    | .error (.policy _) => .done (.error .addressPolicy)
    | .error _ => .done (.error .dns)) tr' result at hrest
  refine ⟨answer, ?_⟩
  cases hresolve : resolveHost answer.value with
  | ok addresses =>
      rw [hresolve] at hrest
      obtain ⟨rfl, rfl⟩ := exec_done_iff.mp hrest
      exact ⟨rfl, hanswer, rfl⟩
  | error e =>
      rw [hresolve] at hrest
      cases e with
      | policy blockClass =>
          obtain ⟨rfl, rfl⟩ := exec_done_iff.mp hrest
          exact ⟨rfl, hanswer, rfl⟩
      | dns | empty =>
          obtain ⟨rfl, rfl⟩ := exec_done_iff.mp hrest
          exact ⟨rfl, hanswer, rfl⟩

/-- An attempt that resolves its target sends a request. -/
theorem exec_attempt {prior : Option CacheRecord}
    {result : Except SafeFetchError (Option Response × Instant)}
    (hresolver : fetcher.resolver = true)
    (hexec : Exec (attempt lib fetcher url prior deadline now).run tr result)
    (hresolved : ∀ tr' result', tr' <+: tr →
      Exec (resolveBeforeSend lib url.normalized deadline now).run tr' result' →
        ∃ after, result' = .ok after) :
    result ≠ .error .dns ∧
      ∃ timer answer, (⟨.send url.normalized prior timer, answer⟩ : Exchange _) ∈ tr := by
  rw [attempt, hresolver, if_pos rfl] at hexec
  rcases exec_bind_except_iff.mp hexec with ⟨e, hfail, -⟩ | ⟨tr₁, tr₂, after, rfl, hresolve, hrest⟩
  · obtain ⟨after, hafter⟩ := hresolved tr _ List.prefix_rfl hfail
    cases hafter
  · obtain ⟨answer, tr', rfl, hlast⟩ := exec_call_bind_iff.mp hrest
    refine ⟨?_, _, answer, List.mem_append_right _ List.mem_cons_self⟩
    rcases exec_bind_except_iff.mp hlast with ⟨e, hrequire, rfl⟩ | ⟨_, _, _, -, -, hdone⟩
    · intro heq
      rw [require] at hrequire
      split at hrequire
      · cases (exec_done_iff.mp hrequire).2
      · have he := Except.error.inj (exec_done_iff.mp hrequire).2
        rw [Except.error.inj heq] at he
        split at he <;> cases he
    · obtain ⟨-, rfl⟩ := exec_done_iff.mp hdone
      exact fun heq => by cases heq

/-- **A permitted IPv4 literal is resolved to itself.** -/
theorem resolved_ipv4 {a : Ipv4Addr} {result : Except SafeFetchError Instant}
    (hhost : url.normalized.host = some (.ipv4 a)) (hok : validateAddress (.v4 a) = .ok ())
    (hexec : Exec (resolveBeforeSend lib url.normalized deadline now).run tr result)
    (hanswers : ∀ x ∈ tr, LooksUpInTime lib deadline now x) : ∃ after, result = .ok after := by
  have hstr : url.normalized.hostStr lib = some a.text := by rw [Url.hostStr, hhost]; rfl
  obtain ⟨answer, -, hanswer, rfl⟩ := exec_resolveBeforeSend hstr hexec hanswers
  have hresolve : resolveHost answer.value = .ok [⟨.v4 a, 0⟩] :=
    resolveHost_eq_ok_iff.mpr ⟨hanswer.ipv4 a rfl, by simp, by simpa using hok⟩
  rw [hresolve]
  exact ⟨_, rfl⟩

/-- A text in brackets is neither an address nor a name. -/
theorem lookupAnswer_bracketed (hlib : lib.HexTexts) (a : Ipv6Addr) :
    LookupAnswer lib ("[" ++ lib.ipv6Text a ++ "]") none := by
  have hmem : '[' ∈ ("[" ++ lib.ipv6Text a ++ "]").toList := by simp
  refine ⟨fun b hb => ?_, fun b hb => ?_, fun _ _ => rfl⟩
  · rw [hb] at hmem
    rcases mem_ipv4Text hmem with h | h <;> cases h
  · rw [hb] at hmem
    rcases hlib b _ hmem with h | h <;> cases h

/-! ### Agreement -/

theorem validateLiteral_ipv4 {a : Ipv4Addr} (hhost : url.normalized.host = some (.ipv4 a)) :
    validateLiteral url = .ok () ↔ validateAddress (.v4 a) = .ok () := by
  rw [validateLiteral, hhost]
  cases h : validateAddress (.v4 a) with
  | ok u => simp [h]
  | error e => simp [h]

theorem validateLiteral_ipv6 {a : Ipv6Addr} (hhost : url.normalized.host = some (.ipv6 a)) :
    validateLiteral url = .ok () ↔ validateAddress (.v6 a) = .ok () := by
  rw [validateLiteral, hhost]
  cases h : validateAddress (.v6 a) with
  | ok u => simp [h]
  | error e => simp [h]

/-- The resolution of an IPv6 literal, whose lookup finds nothing. -/
theorem exec_bracketed {a : Ipv6Addr} (hhost : url.normalized.host = some (.ipv6 a)) :
    Exec (resolveBeforeSend lib url.normalized 0 0).run
      [⟨.lookup ("[" ++ lib.ipv6Text a ++ "]") 0, ⟨0, none⟩⟩] (.error .dns) := by
  have hstr : url.normalized.hostStr lib = some ("[" ++ lib.ipv6Text a ++ "]") := by
    rw [Url.hostStr, hhost]
    rfl
  rw [resolveBeforeSend, hstr]
  exact Exec.ask _ _ _ (Exec.done _)

/-- **The checks agree on a literal** unless it is an IPv6 address that the policy permits; that one
is never resolved. What is looked up was accepted in every case. -/
theorem policies_agree_iff (hlib : lib.HexTexts) (config : FetchConfig)
    (hliteral : (∃ a, url.normalized.host = some (.ipv4 a)) ∨
      ∃ a, url.normalized.host = some (.ipv6 a)) :
    (PoliciesAgree lib (SafeFetcher.new config) url ↔
      ¬ ∃ a, url.normalized.host = some (.ipv6 a) ∧ validateAddress (.v6 a) = .ok ()) ∧
    ∀ request started tr result, Exec (fetch lib (SafeFetcher.new config) request started).run tr
        result → ∀ host timer answer, (⟨.lookup host timer, answer⟩ : Exchange FetchOp) ∈ tr →
      ∃ n, Validated lib config.policy n ∧ n.normalized.hostStr lib = some host := by
  refine ⟨⟨fun hagree => ?_, fun hnot => ?_⟩,
    fun request started tr result hexec host timer answer hmem =>
      fetch_lookups_validated hexec hmem⟩
  · rintro ⟨a, hhost, hok⟩
    obtain ⟨after, hafter⟩ := hagree.resolved ((validateLiteral_ipv6 hhost).mpr hok) 0 0 _ _
      (exec_bracketed hhost)
      (List.forall_mem_singleton.mpr ⟨lookupAnswer_bracketed hlib a, Nat.le_refl 0⟩)
    cases hafter
  · have hresolved : validateLiteral url = .ok () → ∀ deadline now tr result,
        Exec (resolveBeforeSend lib url.normalized deadline now).run tr result →
          (∀ x ∈ tr, LooksUpInTime lib deadline now x) → ∃ after, result = .ok after := by
      intro hok deadline now tr result hexec hanswers
      rcases hliteral with ⟨a, hhost⟩ | ⟨a, hhost⟩
      · exact resolved_ipv4 hhost ((validateLiteral_ipv4 hhost).mp hok) hexec hanswers
      · exact absurd ⟨a, hhost, (validateLiteral_ipv6 hhost).mp hok⟩ hnot
    refine ⟨hresolved, fun hok prior deadline now tr result hexec hanswers => ?_,
      fun hrefused request started tr result hnorm hexec => fetch_refused hnorm hrefused hexec⟩
    refine exec_attempt rfl hexec fun tr' result' hinitial hresolve => ?_
    exact hresolved hok deadline now tr' result' hresolve fun x hx =>
      hanswers x (hinitial.subset hx)

/-! ### Two public addresses -/

/-- A public address. -/
def publicIpv6 : Ipv6Addr := ⟨0x2606, 0x4700, 0x4700, 0, 0, 0, 0, 0x1111⟩

/-- Its URL. -/
def publicIpv6Url : Url := { exampleUrl with host := some (.ipv6 publicIpv6) }

/-- The URL functions on it. -/
def publicIpv6Lib : UrlLib :=
  { exampleLib with
    parse := fun s => if s = "http://[2606:4700:4700::1111]/" then some publicIpv6Url else none
    asStr := fun _ => "http://[2606:4700:4700::1111]/"
    ipv6Text := fun _ => "2606:4700:4700::1111" }

theorem publicIpv6Lib_hexTexts : publicIpv6Lib.HexTexts := by
  intro _
  change ∀ c ∈ "2606:4700:4700::1111".toList, _
  exact Text.forall_mem_of_all (by decide)

/-- An IPv4 literal that the policy permits: the checks agree. -/
theorem policies_agree_ipv4 :
    PoliciesAgree publicIpv6Lib (SafeFetcher.new (ExtractorConfig.builtIn "").fetch)
      ⟨"http://93.184.216.34/", exampleLiteral, ""⟩ := by
  refine ((policies_agree_iff publicIpv6Lib_hexTexts _ (Or.inl ⟨_, rfl⟩)).1).mpr ?_
  rintro ⟨a, hhost, -⟩
  cases hhost

/-- A resolver that knows no text in brackets. -/
def noAnswers : ℕ → {β : Type} → FetchOp β → β
  | _, _, .tryEnter _ => some 0
  | _, _, .leave _ => ()
  | _, _, .sleepUntil _ => ()
  | _, _, .sleepUnder _ _ => ()
  | _, _, .lookup _ _ => ⟨5, none⟩
  | _, _, .send _ _ _ => ⟨20, none⟩
  | _, _, .httpDate _ => none
  | _, _, .storeResponse _ _ _ => ⟨0, .error .timeoutReadIdle⟩
  | _, _, .reusePrior _ _ _ _ => ⟨0, .error .cacheIntegrity⟩

/-- The policy permits the address, its retrieval looks up a text in brackets and fails as a DNS
failure: the checks do not agree. -/
theorem policies_disagree_ipv6 : ∃ n tr,
    normalize publicIpv6Lib "http://[2606:4700:4700::1111]/"
      (ExtractorConfig.builtIn "").fetch.policy = .ok n ∧
    validateLiteral n = .ok () ∧
    Exec (fetch publicIpv6Lib (SafeFetcher.new (ExtractorConfig.builtIn "").fetch)
      ⟨"http://[2606:4700:4700::1111]/", none⟩ 0).run tr (.error .dns) ∧
    tr = [⟨.tryEnter "[2606:4700:4700::1111]", some 0⟩,
      ⟨.lookup "[2606:4700:4700::1111]" 30000, ⟨5, none⟩⟩] ∧
    LookupAnswer publicIpv6Lib "[2606:4700:4700::1111]" none ∧
    ¬ PoliciesAgree publicIpv6Lib (SafeFetcher.new (ExtractorConfig.builtIn "").fetch) n := by
  have hbracketed := lookupAnswer_bracketed publicIpv6Lib_hexTexts publicIpv6
  refine ⟨⟨"http://[2606:4700:4700::1111]/", publicIpv6Url, _⟩, _, rfl, rfl,
    exec_run noAnswers _ 0, rfl, hbracketed, fun hagree => ?_⟩
  obtain ⟨after, hafter⟩ := hagree.resolved rfl 0 0 _ _ (exec_bracketed rfl)
    (List.forall_mem_singleton.mpr ⟨hbracketed, Nat.le_refl 0⟩)
  cases hafter

end Extractor
