import Extractor.Lib.Fallible
import Extractor.Lib.Text

/-!
# URL routing and the destination policy

`crates/url-routing/src/lib.rs`: the canonical form of an untrusted URL, the route chosen
from it, the addresses that must never be contacted, and the resolver that validates a
complete DNS answer.

The `url` crate is outside the repository. A `Url` is the record of the components it
gives access to; what the crate computes from text (`parse`, `join`, the serialization, the
form decoding of a query key) is collected in the parameter `UrlLib`, and so is the digest
of `sha2`.

## Main results

* `normalize_spec`: what an accepted URL satisfies.
* `resolveHost_eq_ok_iff`: a resolved answer is non-empty and every address of it is allowed.
-/

namespace Extractor

/-! ### Addresses -/

/-- `std::net::Ipv4Addr`, by octets. -/
structure Ipv4Addr where
  first : UInt8
  second : UInt8
  third : UInt8
  fourth : UInt8
  deriving DecidableEq

/-- `std::net::Ipv6Addr`, by segments. -/
structure Ipv6Addr where
  first : UInt16
  second : UInt16
  third : UInt16
  fourth : UInt16
  fifth : UInt16
  sixth : UInt16
  seventh : UInt16
  eighth : UInt16
  deriving DecidableEq

/-- `std::net::IpAddr`. -/
inductive IpAddr
  | v4 (address : Ipv4Addr)
  | v6 (address : Ipv6Addr)
  deriving DecidableEq

/-- `std::net::SocketAddr`. -/
structure SocketAddr where
  ip : IpAddr
  port : UInt16
  deriving DecidableEq

/-- `AddressBlockClass`: why an address is prohibited. -/
inductive AddressBlockClass
  | unspecified
  | loopback
  | private_
  | shared
  | linkLocal
  | documentation
  | benchmarking
  | multicast
  | reserved
  | metadata
  deriving DecidableEq

/-- `blocked_ipv4`. -/
def blockedIpv4 (address : Ipv4Addr) : Option AddressBlockClass :=
  let ⟨first, second, third, fourth⟩ := address
  if first == 0 && second == 0 && third == 0 && fourth == 0 then some .unspecified
  else if first == 127 then some .loopback
  else if (first == 169 && second == 254 && third == 169 && fourth == 254) ||
      (first == 169 && second == 254 && third == 170 && fourth == 2) then some .metadata
  else if first == 10 || (first == 172 && decide (16 ≤ second ∧ second ≤ 31)) ||
      (first == 192 && second == 168) then some .private_
  else if first == 100 && decide (64 ≤ second ∧ second ≤ 127) then some .shared
  else if first == 169 && second == 254 then some .linkLocal
  else if (first == 192 && second == 0 && third == 2) ||
      (first == 198 && second == 51 && third == 100) ||
      (first == 203 && second == 0 && third == 113) then some .documentation
  else if first == 198 && (second == 18 || second == 19) then some .benchmarking
  else if decide (224 ≤ first ∧ first ≤ 239) then some .multicast
  else if first == 0 || decide (240 ≤ first) || (first == 192 && second == 0 && third == 0) ||
      (first == 192 && second == 88 && third == 99) then some .reserved
  else none

/-- `Ipv6Addr::to_ipv4_mapped`: the embedded address of `::ffff:a.b.c.d`. -/
def Ipv6Addr.toIpv4Mapped (address : Ipv6Addr) : Option Ipv4Addr :=
  if address.first == 0 && address.second == 0 && address.third == 0 && address.fourth == 0 &&
      address.fifth == 0 && address.sixth == 0xffff then
    some ⟨(address.seventh >>> 8).toUInt8, address.seventh.toUInt8,
      (address.eighth >>> 8).toUInt8, address.eighth.toUInt8⟩
  else none

/-- `is_reserved_ipv6`. -/
def isReservedIpv6 (address : Ipv6Addr) : Bool :=
  let ⟨first, second, third, fourth, fifth, sixth, _, _⟩ := address
  let discardOnly := first == 0x0100 && second == 0 && third == 0 && fourth == 0 &&
    fifth == 0 && sixth == 0
  let nat64WellKnown := first == 0x0064 && second == 0xff9b && third == 0 && fourth == 0 &&
    fifth == 0 && sixth == 0
  let nat64Local := first == 0x0064 && second == 0xff9b && third == 1
  let transition := (first == 0x2001 && (second == 0 || second &&& 0xfff0 == 0x0010 ||
    second &&& 0xfff0 == 0x0020)) || first == 0x2002
  let siteLocal := first &&& 0xffc0 == 0xfec0
  let outsideGlobalUnicast := first &&& 0xe000 != 0x2000
  discardOnly || nat64WellKnown || nat64Local || transition || siteLocal || outsideGlobalUnicast

/-- `blocked_ipv6`. -/
def blockedIpv6 (address : Ipv6Addr) : Option AddressBlockClass :=
  match address.toIpv4Mapped with
  | some mapped => blockedIpv4 mapped
  | none =>
      let ⟨first, second, third, fourth, fifth, sixth, seventh, eighth⟩ := address
      if first == 0 && second == 0 && third == 0 && fourth == 0 && fifth == 0 && sixth == 0 &&
          seventh == 0 && eighth == 0 then some .unspecified
      else if first == 0 && second == 0 && third == 0 && fourth == 0 && fifth == 0 &&
          sixth == 0 && seventh == 0 && eighth == 1 then some .loopback
      else if first == 0xfd00 && second == 0x0ec2 && third == 0 && fourth == 0 && fifth == 0 &&
          sixth == 0 && seventh == 0 && eighth == 0x0254 then some .metadata
      else if first &&& 0xfe00 == 0xfc00 then some .private_
      else if first &&& 0xffc0 == 0xfe80 then some .linkLocal
      else if first &&& 0xff00 == 0xff00 then some .multicast
      else if (first == 0x2001 && second == 0x0db8) || first &&& 0xfff0 == 0x3ff0 then
        some .documentation
      else if first == 0x2001 && second == 0x0002 && third == 0 then some .benchmarking
      else if isReservedIpv6 address then some .reserved
      else none

/-- `AddressPolicyError`. -/
structure AddressPolicyError where
  blockClass : AddressBlockClass
  deriving DecidableEq

/-- `validate_address`: refuses every prohibited address. -/
def validateAddress (address : IpAddr) : Except AddressPolicyError Unit :=
  let blockClass :=
    match address with
    | .v4 address => blockedIpv4 address
    | .v6 address => blockedIpv6 address
  match blockClass with
  | some blockClass => .error ⟨blockClass⟩
  | none => .ok ()

/-! ### Resolution -/

/-- `ResolutionError`. -/
inductive ResolutionError
  | dns
  | empty
  | policy (blockClass : AddressBlockClass)
  deriving DecidableEq

/-- `ValidatingResolver::resolve_host` on what the lookup returned; `none` is a DNS failure. -/
def resolveHost (lookup : Option (List SocketAddr)) : Except ResolutionError (List SocketAddr) :=
  match lookup with
  | none => .error .dns
  | some addresses =>
      if addresses.isEmpty then .error .empty
      else
        let refused := addresses.findSome? fun address =>
          match validateAddress address.ip with
          | .error error => some error.blockClass
          | .ok () => none
        match refused with
        | some blockClass => .error (.policy blockClass)
        | none => .ok addresses

/-- **A resolved answer** is the complete answer of the lookup, it is not empty, and every
address of it passed the policy. -/
theorem resolveHost_eq_ok_iff {lookup : Option (List SocketAddr)} {addresses : List SocketAddr} :
    resolveHost lookup = .ok addresses ↔
      lookup = some addresses ∧ addresses ≠ [] ∧
        ∀ a ∈ addresses, validateAddress a.ip = .ok () := by
  have hrefused : ∀ l : List SocketAddr, (l.findSome? fun address =>
      match validateAddress address.ip with
      | .error error => some error.blockClass
      | .ok () => none) = none ↔ ∀ a ∈ l, validateAddress a.ip = .ok () := by
    intro l
    rw [List.findSome?_eq_none_iff]
    refine forall_congr' fun a => imp_congr_right fun _ => ?_
    cases validateAddress a.ip with
    | error e => simp
    | ok u => simp
  cases lookup with
  | none => simp [resolveHost]
  | some l =>
      rw [resolveHost]
      cases l with
      | nil =>
          refine ⟨fun h => (by cases h), ?_⟩
          rintro ⟨h, hne, -⟩
          exact absurd (Option.some.inj h).symm hne
      | cons a l =>
          simp only [List.isEmpty_cons, Bool.false_eq_true, if_false, Option.some.injEq]
          split
          · rename_i blockClass hsome
            refine ⟨fun h => (by cases h), ?_⟩
            rintro ⟨rfl, -, hall⟩
            rw [(hrefused _).mpr hall] at hsome
            cases hsome
          · rename_i hnone
            refine ⟨fun h => ?_, fun h => by rw [h.1]⟩
            obtain rfl := Except.ok.inj h
            exact ⟨rfl, List.cons_ne_nil _ _, (hrefused _).mp hnone⟩

/-! ### URLs -/

/-- `url::Host`. -/
inductive Host
  | domain (name : String)
  | ipv4 (address : Ipv4Addr)
  | ipv6 (address : Ipv6Addr)
  deriving DecidableEq

/-- The components of a `url::Url`; `port` is absent when it is the scheme's own. -/
structure Url where
  scheme : String
  username : String
  password : Option String
  host : Option Host
  port : Option ℕ
  path : String
  query : Option String
  fragment : Option String
  deriving DecidableEq

/-- What the `url` and `sha2` crates compute from text, and which texts the index of
`extractor.sources` takes. -/
structure UrlLib where
  /-- `Url::parse`. -/
  parse : String → Option Url
  /-- `Url::join`. -/
  join : Url → String → Option Url
  /-- `Url::as_str`. -/
  asStr : Url → String
  /-- The text of an IPv6 address. -/
  ipv6Text : Ipv6Addr → String
  /-- The key of the first pair that `form_urlencoded::parse` yields. -/
  formKey : String → Option String
  /-- The lowercase hexadecimal SHA-256 of a text. -/
  sha256Hex : String → String
  /-- The entry of an address in the btree of `unique (owner_id, normalized_url)`, as PostgreSQL
  compresses it, fits a third of a page. -/
  indexFits : String → Bool

/-- The dotted-quad text of an IPv4 address. -/
def Ipv4Addr.text (address : Ipv4Addr) : String :=
  toString address.first ++ "." ++ toString address.second ++ "." ++ toString address.third ++
    "." ++ toString address.fourth

/-- `Url::host_str`. -/
def Url.hostStr (lib : UrlLib) (url : Url) : Option String :=
  url.host.map fun host =>
    match host with
    | .domain name => name
    | .ipv4 address => address.text
    | .ipv6 address => "[" ++ lib.ipv6Text address ++ "]"

/-- `Url::port_or_known_default`. -/
def Url.portOrKnownDefault (url : Url) : Option ℕ :=
  match url.port with
  | some port => some port
  | none =>
      if url.scheme = "http" ∨ url.scheme = "ws" then some 80
      else if url.scheme = "https" ∨ url.scheme = "wss" then some 443
      else if url.scheme = "ftp" then some 21
      else none

/-- `RoutingPolicy`. -/
structure RoutingPolicy where
  maxUrlLength : ℕ
  allowedPorts : List ℕ

/-- `UrlError`: why normalization failed. -/
inductive UrlError
  | tooLong
  | invalid
  | unsupportedScheme
  | missingHost
  | userInformation
  | portZero
  | portDenied
  | ambiguousNumericHost
  deriving DecidableEq

/-- `NormalizedUrl`: original and canonical form of one accepted URL. -/
structure NormalizedUrl where
  original : String
  normalized : Url
  routingFingerprint : String

/-- `raw_host`: the host text of the authority, as the input spells it. -/
def rawHost (input : String) : Option (List Char) :=
  (Text.splitOnce "://".toList input.toList).bind fun r =>
    let authority := Text.before ['/', '?', '#'] r.2
    let hostPort := Text.afterLast '@' authority
    if hostPort.head? = some '[' then none else some (Text.before [':'] hostPort)

/-- `numeric_host_is_ambiguous`. -/
def numericHostIsAmbiguous (lib : UrlLib) (input : String) (parsed : Url) : Bool :=
  match parsed.host with
  | some (.ipv4 _) =>
      match rawHost input, parsed.hostStr lib with
      | some raw, some canonical => !Text.eqIgnoreAsciiCase raw canonical.toList
      | _, _ => true
  | _ => false

/-- The seven tracking keys. -/
def trackingKeys : List String :=
  ["utm_source", "utm_medium", "utm_campaign", "utm_term", "utm_content", "gclid", "fbclid"]

/-- `is_tracking_pair`. -/
def isTrackingPair (lib : UrlLib) (pair : List Char) : Bool :=
  let rawKey := match Text.splitOnce ['='] pair with
    | some (key, _) => key
    | none => pair
  (lib.formKey (String.ofList rawKey)).any fun key => trackingKeys.contains key

/-- `remove_tracking_query`; an already encoded query is kept as it is spelled. -/
def removeTrackingQuery (lib : UrlLib) (url : Url) : Url :=
  match url.query with
  | none => url
  | some query =>
      let retained := ['&'].intercalate
        ((query.toList.splitOn '&').filter fun pair => !isTrackingPair lib pair)
      if retained.isEmpty then { url with query := none }
      else { url with query := some (String.ofList retained) }

/-- `normalize`. -/
def normalize (lib : UrlLib) (input : String) (policy : RoutingPolicy) :
    Except UrlError NormalizedUrl := do
  require (input.utf8ByteSize ≤ policy.maxUrlLength) UrlError.tooLong
  require (Text.contains "://".toList input.toList) UrlError.missingHost
  let parsed ← okOr (lib.parse input) UrlError.invalid
  require (parsed.scheme = "http" ∨ parsed.scheme = "https") UrlError.unsupportedScheme
  require parsed.host.isSome UrlError.missingHost
  require (parsed.username = "" ∧ parsed.password.isNone) UrlError.userInformation
  require (parsed.port ≠ some 0) UrlError.portZero
  let port ← okOr parsed.portOrKnownDefault UrlError.portDenied
  require (port ∈ policy.allowedPorts) UrlError.portDenied
  require (numericHostIsAmbiguous lib input parsed = false) UrlError.ambiguousNumericHost
  let normalized := removeTrackingQuery lib { parsed with fragment := none }
  return {
    original := input
    normalized := normalized
    routingFingerprint := lib.sha256Hex (lib.asStr normalized) }

/-- Dropping tracking pairs touches the query only. -/
theorem removeTrackingQuery_eq (lib : UrlLib) (url : Url) :
    ∃ query, removeTrackingQuery lib url = { url with query := query } := by
  unfold removeTrackingQuery
  split
  · exact ⟨url.query, rfl⟩
  · dsimp only
    split
    · exact ⟨none, rfl⟩
    · exact ⟨_, rfl⟩

/-- **What an accepted URL satisfies**: an allowed scheme, a host, no user information, no
fragment, and an allowed port. -/
theorem normalize_spec {lib : UrlLib} {input : String} {policy : RoutingPolicy}
    {n : NormalizedUrl} (h : normalize lib input policy = .ok n) :
    (n.normalized.scheme = "http" ∨ n.normalized.scheme = "https") ∧
      n.normalized.host.isSome = true ∧ n.normalized.username = "" ∧
      n.normalized.password = none ∧ n.normalized.fragment = none ∧
      ∃ port, n.normalized.portOrKnownDefault = some port ∧ port ∈ policy.allowedPorts := by
  simp only [normalize, Except.bind_eq_ok_iff, Except.require_eq_ok_iff,
    Except.okOr_eq_ok_iff] at h
  obtain ⟨-, -, -, -, url, -, -, hscheme, -, hhost, -, ⟨huser, hpass⟩, -, -, port, hport, -,
    hallowed, -, -, heq⟩ := h
  obtain rfl := Except.ok.inj heq
  obtain ⟨query, hquery⟩ := removeTrackingQuery_eq lib { url with fragment := none }
  simp only [hquery]
  exact ⟨hscheme, hhost, huser, Option.isNone_iff_eq_none.mp hpass, trivial, port, hport, hallowed⟩

/-! ### Routes -/

/-- `SourceRoute`. -/
inductive SourceRoute
  | gitHub
  | x
  | instagram
  | threads
  | reddit
  | hackerNews
  | youTube
  | pdf
  | genericWeb
  deriving DecidableEq

/-- `host_matches`: the base itself or a subdomain of it. -/
def hostMatches (host base : String) : Bool :=
  host == base ||
    (Text.stripSuffix base.toList host.toList).any fun rest => rest.getLast? == some '.'

/-- `classify`. -/
def classify (lib : UrlLib) (url : NormalizedUrl) : SourceRoute :=
  match url.normalized.hostStr lib with
  | none => .genericWeb
  | some host =>
      if hostMatches host "github.com" then .gitHub
      else if hostMatches host "x.com" || hostMatches host "twitter.com" then .x
      else if hostMatches host "instagram.com" then .instagram
      else if hostMatches host "threads.net" then .threads
      else if hostMatches host "reddit.com" || hostMatches host "redd.it" then .reddit
      else if hostMatches host "news.ycombinator.com" then .hackerNews
      else if hostMatches host "youtube.com" || hostMatches host "youtu.be" ||
          hostMatches host "youtube-nocookie.com" then .youTube
      else if ".pdf".toList.isSuffixOf (Text.asciiLower url.normalized.path.toList) then .pdf
      else .genericWeb

/-! ### An example library -/

/-- A public name. -/
def exampleUrl : Url where
  scheme := "http"
  username := ""
  password := none
  host := some (.domain "example.org")
  port := none
  path := "/"
  query := none
  fragment := none

/-- A public address literal. -/
def exampleLiteral : Url :=
  { exampleUrl with host := some (.ipv4 ⟨93, 184, 216, 34⟩) }

/-- The URL functions on these two addresses. -/
def exampleLib : UrlLib where
  parse s :=
    if s = "http://example.org/" then some exampleUrl
    else if s = "http://93.184.216.34/" then some exampleLiteral
    else none
  join _ s := if s = "http://93.184.216.34/" then some exampleLiteral else none
  asStr u := if u = exampleLiteral then "http://93.184.216.34/" else "http://example.org/"
  ipv6Text _ := ""
  formKey s := some s
  sha256Hex s :=
    if s = "http://example.org/" then
      "781bc04ec9bd049cdfacaec4ae2026102118d13c79413246f0c88eeef6ebec4e"
    else "81495795c67d96ae4a549109450ddd545d413cfff6a6eb30473cd1a3020689c6"
  indexFits s := decide (s.utf8ByteSize ≤ 2600)

end Extractor
