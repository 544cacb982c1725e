import Extractor.Config
import Extractor.Contracts
import Extractor.Lib.Program

/-!
# Safe retrieval

The redirect and retry state machine of `crates/safe-fetch/src/lib.rs`, with its retry
policy (`retry.rs`). A retrieval is a program over requests: admission to a host, DNS
lookups, HTTP requests, waits, and the storage of the body. Every answer is possible, so an
execution stands for any server, any resolver and any load.

Instants are natural numbers of milliseconds. Time passes while a request is under way:
every answer says how long it takes, and the request names the timer that gives it up.

## Main definitions

* `FetchOp`: the requests of a retrieval and their answers.
* `attempt`, `sendLoop`, `hopLoop`, `fetchInner`, `fetch`: the state machine.
-/

namespace Extractor

/-- A point in time, or a duration, in milliseconds. -/
abbrev Instant := ℕ

/-! ### Values -/

/-- `CacheRecord`: validators tied to prior bytes. -/
structure CacheRecord where
  artifact : BlobRef
  etag : Option String
  lastModified : Option String
  cacheControl : Option String

/-- `FetchRequest`. -/
structure FetchRequest where
  url : String
  prior : Option CacheRecord

/-- `CacheOutcome`. -/
inductive CacheOutcome
  | fresh
  | revalidated
  deriving DecidableEq

/-- `FetchMetadata`. -/
structure FetchMetadata where
  originalUrl : Url
  normalizedUrl : Url
  redirects : List Url
  declaredMediaType : Option String
  effectiveMediaType : String
  contentEncoding : Option String
  etag : Option String
  lastModified : Option String
  cacheControl : Option String
  attempts : ℕ
  totalDuration : ℕ
  cacheOutcome : CacheOutcome

/-- `FetchResult`. -/
structure FetchResult where
  artifact : BlobRef
  finalUrl : Url
  status : ℕ
  wireBytes : ℕ
  decodedBytes : ℕ
  mediaType : String
  metadata : FetchMetadata

/-- `SafeFetchError`. -/
inductive SafeFetchError
  | client
  | url (error : UrlError)
  | addressPolicy
  | unavailable
  | transport
  | dns
  | remoteStatus (status : ℕ)
  | redirectLocation
  | redirectLoop
  | redirectLimit
  | timeoutTotal
  | timeoutFirstByte
  | timeoutReadIdle
  | declaredBodyTooLarge
  | wireBodyTooLarge
  | decodedBodyTooLarge
  | unsupportedEncoding
  | malformedEncoding
  | cacheIntegrity
  | overloaded
  | artifact
  deriving DecidableEq

/-- The head of an HTTP response; `header` gives the header values that are readable text. -/
structure Response where
  status : ℕ
  url : Url
  header : String → Option String

/-- `ResponseContext`. -/
structure ResponseContext where
  originalUrl : Url
  normalizedUrl : Url
  redirects : List Url
  attempts : ℕ
  started : Instant

/-! ### Requests and answers -/

/-- An answer, and how long it took to arrive. -/
structure Timed (α : Type) where
  delay : ℕ
  value : α

/-- What a retrieval asks of its surroundings, with the type of the answer. -/
inductive FetchOp : Type → Type
  /-- `Admission::try_enter`: the reserved start, or none when capacity is taken. -/
  | tryEnter (host : String) : FetchOp (Option Instant)
  /-- The admission guard of a host is dropped before the next one is taken. -/
  | leave (host : String) : FetchOp Unit
  /-- `tokio::time::sleep_until`. -/
  | sleepUntil (instant : Instant) : FetchOp Unit
  /-- `tokio::time::sleep` under `timeout_at`: it is over at `instant`, or given up at `timer`. -/
  | sleepUnder (instant timer : Instant) : FetchOp Unit
  /-- `DnsLookup::lookup` under `timeout_at`. -/
  | lookup (host : String) (timer : Instant) : FetchOp (Timed (Option (List SocketAddr)))
  /-- A GET request under `timeout_at`; the validators of `prior` that are valid header values
  make it conditional. No response when the transport failed. -/
  | send (url : Url) (prior : Option CacheRecord) (timer : Instant) :
      FetchOp (Timed (Option Response))
  /-- `httpdate::parse_http_date`, as the time left from now. -/
  | httpDate (value : String) : FetchOp (Option ℕ)
  /-- `SafeFetcher::store_response` under `timeout_at`. -/
  | storeResponse (response : Response) (context : ResponseContext) (timer : Instant) :
      FetchOp (Timed (Except SafeFetchError FetchResult))
  /-- `SafeFetcher::reuse_prior` under `timeout_at`. -/
  | reusePrior (response : Response) (context : ResponseContext) (prior : CacheRecord)
      (timer : Instant) : FetchOp (Timed (Except SafeFetchError FetchResult))

/-- Retrieval code: it makes requests and may return an error early. -/
abbrev FetchM := ExceptT SafeFetchError (Program FetchOp)

/-! ### The retry policy -/

/-- `transient_status`. -/
def transientStatus (status : ℕ) : Bool :=
  [408, 429, 500, 502, 503, 504].contains status

/-- `is_redirect`. -/
def isRedirect (status : ℕ) : Bool :=
  [301, 302, 303, 307, 308].contains status

/-- `retry::delay`, in milliseconds: jitter below a doubling ceiling, and never less than the
server asked for. -/
def retryDelay (retryIndex seed : ℕ) (retryAfter : Option ℕ) : ℕ :=
  let ceilingMs := 100 * 2 ^ min retryIndex 6
  let mixed := (seed * 6364136223846793005 + 1442695040888963407) % 2 ^ 64
  let jitter := mixed % (ceilingMs + 1)
  match retryAfter with
  | none => jitter
  | some minimum => max minimum jitter

/-- `str::trim` on the white space a header value can hold. -/
def trimHeader (value : String) : String :=
  String.ofList ((value.toList.dropWhile Char.isWhitespace).reverse.dropWhile
    Char.isWhitespace).reverse

/-- `retry_after_at`: seconds, or an HTTP date. -/
def retryAfterAt (response : Response) : FetchM (Option ℕ) :=
  match (response.header "retry-after").map trimHeader with
  | none => pure none
  | some value =>
      match Text.parseUnsigned (2 ^ 64) value.toList with
      | some seconds => pure (some (seconds * 1000))
      | none => Program.call (.httpDate value)

/-- `sleep_before_deadline`: the instant after the wait. -/
def sleepBeforeDeadline (deadline delay now : Instant) : FetchM Instant := do
  Program.call (.sleepUnder (now + delay) deadline)
  require (now + delay ≤ deadline) SafeFetchError.timeoutTotal
  return now + delay

/-! ### The state machine -/

/-- `SafeFetcher`: its configuration, and whether it was built with a resolver. -/
structure SafeFetcher where
  config : FetchConfig
  resolver : Bool

/-- `SafeFetcher::new`. -/
def SafeFetcher.new (config : FetchConfig) : SafeFetcher where
  config := config
  resolver := true

/-- The routing policy of the configuration. -/
def FetchConfig.policy (config : FetchConfig) : RoutingPolicy where
  maxUrlLength := config.maxUrlLength
  allowedPorts := config.allowedPorts

section Machine

variable (lib : UrlLib)

/-- `resolve_before_send`: the instant after the lookup. -/
def resolveBeforeSend (url : Url) (deadline now : Instant) : FetchM Instant := do
  let host ← okOr (url.hostStr lib) (SafeFetchError.url .missingHost)
  let answer ← Program.call (.lookup host deadline)
  require (now + answer.delay ≤ deadline) SafeFetchError.timeoutTotal
  match resolveHost answer.value with
  | .ok _ => return now + answer.delay
  | .error (.policy _) => throw .addressPolicy
  | .error _ => throw .dns

/-- `validate_literal`. -/
def validateLiteral (url : NormalizedUrl) : Except SafeFetchError Unit :=
  match url.normalized.host with
  | some (.ipv4 address) =>
      match validateAddress (.v4 address) with
      | .ok () => .ok ()
      | .error _ => .error .addressPolicy
  | some (.ipv6 address) =>
      match validateAddress (.v6 address) with
      | .ok () => .ok ()
      | .error _ => .error .addressPolicy
  | some (.domain _) => .ok ()
  | none => .ok ()

/-- `validate_literal` where the policy applies. -/
def checkLiteral (enforced : Bool) (url : NormalizedUrl) : FetchM Unit :=
  if enforced then Program.ofExcept (validateLiteral url) else pure ()

/-- `origin`. -/
def origin (url : NormalizedUrl) : String × Option ℕ :=
  ((url.normalized.hostStr lib).getD "", url.normalized.portOrKnownDefault)

/-- One attempt: resolve, send, wait for the first byte. The response, or `none` when the
transport failed, and the instant after it. -/
def attempt (fetcher : SafeFetcher) (url : NormalizedUrl) (prior : Option CacheRecord)
    (deadline now : Instant) : FetchM (Option Response × Instant) := do
  let now ← if fetcher.resolver then resolveBeforeSend lib url.normalized deadline now
    else pure now
  let firstByteDeadline := min deadline (now + fetcher.config.firstByteTimeoutMs)
  let answer ← Program.call (.send url.normalized prior firstByteDeadline)
  require (now + answer.delay ≤ firstByteDeadline)
    (if firstByteDeadline = deadline then SafeFetchError.timeoutTotal else .timeoutFirstByte)
  return (answer.value, now + answer.delay)

/-- Whether the outcome of an attempt may be retried: a transport failure, or a transient
status. -/
def mayRetry : Option Response → Bool
  | none => true
  | some response => transientStatus response.status

/-- The wait a response asks for. -/
def retryAfterOf : Option Response → FetchM (Option ℕ)
  | none => pure none
  | some response => retryAfterAt response

/-- What the inner loop of `fetch_inner` ends with. -/
structure Sent where
  response : Response
  retriesLeft : ℕ
  attempts : ℕ
  now : Instant

/-- The inner loop: attempts until a response is final or no retry is left. -/
def sendLoop (fetcher : SafeFetcher) (url : NormalizedUrl) (prior : Option CacheRecord)
    (deadline : Instant) : ℕ → ℕ → Instant → FetchM Sent
  | 0, attempts, now => do
      let (answer, now) ← attempt lib fetcher url prior deadline now
      let response ← okOr answer SafeFetchError.transport
      return ⟨response, 0, attempts + 1, now⟩
  | retriesLeft + 1, attempts, now => do
      let (answer, now) ← attempt lib fetcher url prior deadline now
      if mayRetry answer then
        let retryAfter ← retryAfterOf answer
        let retries := fetcher.config.maxRetries - (retriesLeft + 1)
        let now ← sleepBeforeDeadline deadline (retryDelay retries (attempts + 1) retryAfter) now
        sendLoop fetcher url prior deadline retriesLeft (attempts + 1) now
      else
        let response ← okOr answer SafeFetchError.transport
        return ⟨response, retriesLeft + 1, attempts + 1, now⟩

/-- What stays the same over the hops of one retrieval. -/
structure FetchContext where
  prior : Option CacheRecord
  originalUrl : Url
  normalizedUrl : Url
  /-- The one origin a test may reach although its literal is not public. -/
  trustedTestOrigin : Option (String × Option ℕ)
  started : Instant
  deadline : Instant

/-- What changes from hop to hop. -/
structure HopState where
  normalized : NormalizedUrl
  host : String
  visited : List String
  redirects : List Url
  retriesLeft : ℕ
  attempts : ℕ
  now : Instant

/-- `within_total_deadline` around the step that reads the body. -/
def withinTotalDeadline (deadline now : Instant) (answer : Timed (Except SafeFetchError FetchResult)) :
    Except SafeFetchError FetchResult :=
  if now + answer.delay ≤ deadline then answer.value else .error .timeoutTotal

/-- The part of a hop that follows a redirect: join, normalize again, validate again, take the
new host's slot, and refuse a loop. -/
def followRedirect (fetcher : SafeFetcher) (context : FetchContext) (s : HopState) (sent : Sent) :
    FetchM HopState := do
  let location ← okOr (sent.response.header "location") SafeFetchError.redirectLocation
  let next ← okOr (lib.join s.normalized.normalized location) SafeFetchError.redirectLocation
  let normalized ← Program.ofExcept ((normalize lib (lib.asStr next)
    fetcher.config.policy).mapError SafeFetchError.url)
  checkLiteral (context.trustedTestOrigin != some (origin lib normalized)) normalized
  let host ← okOr (normalized.normalized.hostStr lib) (SafeFetchError.url .missingHost)
  Program.call (.leave s.host)
  let entered ← Program.call (.tryEnter host)
  let _ ← okOr entered SafeFetchError.overloaded
  require (lib.asStr normalized.normalized ∉ s.visited) SafeFetchError.redirectLoop
  return {
    normalized := normalized
    host := host
    visited := lib.asStr normalized.normalized :: s.visited
    redirects := s.redirects ++ [normalized.normalized]
    retriesLeft := sent.retriesLeft
    attempts := sent.attempts
    now := sent.now }

/-- The part of a hop that ends the retrieval. -/
def conclude (context : FetchContext) (s : HopState) (sent : Sent) : FetchM FetchResult := do
  let responseContext : ResponseContext :=
    { originalUrl := context.originalUrl, normalizedUrl := context.normalizedUrl
      redirects := s.redirects, attempts := sent.attempts, started := context.started }
  if sent.response.status = 304 then
    let prior ← okOr context.prior SafeFetchError.cacheIntegrity
    let answer ← Program.call (.reusePrior sent.response responseContext prior context.deadline)
    Program.ofExcept (withinTotalDeadline context.deadline sent.now answer)
  else
    require (200 ≤ sent.response.status ∧ sent.response.status < 300)
      (SafeFetchError.remoteStatus sent.response.status)
    let answer ← Program.call (.storeResponse sent.response responseContext context.deadline)
    Program.ofExcept (withinTotalDeadline context.deadline sent.now answer)

/-- The outer loop: one hop per redirect that may still be followed, and a last one. -/
def hopLoop (fetcher : SafeFetcher) (context : FetchContext) :
    ℕ → HopState → FetchM FetchResult
  | 0, s => do
      let sent ← sendLoop lib fetcher s.normalized context.prior context.deadline s.retriesLeft
        s.attempts s.now
      if isRedirect sent.response.status then throw .redirectLimit
      else conclude context s sent
  | redirectsLeft + 1, s => do
      let sent ← sendLoop lib fetcher s.normalized context.prior context.deadline s.retriesLeft
        s.attempts s.now
      if isRedirect sent.response.status then
        let next ← followRedirect lib fetcher context s sent
        hopLoop fetcher context redirectsLeft next
      else conclude context s sent

/-- The wait for the reserved start of the first request. -/
def waitForSlot (startAt started deadline : Instant) : FetchM Instant :=
  if started < startAt then do
    require (startAt < deadline) SafeFetchError.timeoutTotal
    Program.call (.sleepUntil startAt)
    return startAt
  else pure started

/-- `SafeFetcher::fetch_inner`, begun at the instant `started`. -/
def fetchInner (fetcher : SafeFetcher) (request : FetchRequest) (enforceLiteralPolicy : Bool)
    (started : Instant) : FetchM FetchResult := do
  let deadline := started + fetcher.config.totalTimeoutMs
  let normalized ← Program.ofExcept ((normalize lib request.url
    fetcher.config.policy).mapError SafeFetchError.url)
  let originalUrl ← okOr (lib.parse normalized.original) (SafeFetchError.url .invalid)
  checkLiteral enforceLiteralPolicy normalized
  let host ← okOr (normalized.normalized.hostStr lib) (SafeFetchError.url .missingHost)
  let entered ← Program.call (.tryEnter host)
  let startAt ← okOr entered SafeFetchError.overloaded
  let now ← waitForSlot startAt started deadline
  let context : FetchContext :=
    { prior := request.prior, originalUrl := originalUrl
      normalizedUrl := normalized.normalized
      trustedTestOrigin := if enforceLiteralPolicy then none else some (origin lib normalized)
      started := started, deadline := deadline }
  hopLoop lib fetcher context fetcher.config.maxRedirects
    { normalized := normalized, host := host, visited := [lib.asStr normalized.normalized]
      redirects := [], retriesLeft := fetcher.config.maxRetries, attempts := 0, now := now }

/-- `SafeFetcher::fetch`. -/
def fetch (fetcher : SafeFetcher) (request : FetchRequest) (started : Instant) :
    FetchM FetchResult :=
  fetchInner lib fetcher request true started

end Machine

end Extractor
