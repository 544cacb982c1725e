import Mathlib.Data.List.Sublists
import Extractor.Intake

/-!
# Canonical URLs

What `normalize` makes of a URL is a normal form: normalizing its text again changes nothing. The
checks that read the text of the input (the search for `://`, the spelling of a numeric host) accept
the serialization of every normal form, and dropping the tracking pairs of a query twice is dropping
them once, whatever empty pairs it has.

The `url` crate is a parameter; what is relied on is collected in `UrlLib.Serializes`.

## Main results

* `removeTrackingQuery_eq_untracked`: a normal form is its URL without the tracking pairs.
* `numericHost_asStr`: the text of a normal form spells its host canonically.
* `normalize_canonical`: normal forms are fixed, keep what identifies the resource, and are the same
  for addresses that differ in their fragments and tracking pairs only.
-/

namespace Extractor

/-! ### Pairs -/

/-- The pairs of a query, empty ones included. -/
def Url.queryPairs (url : Url) : List (List Char) :=
  match url.query with
  | none => []
  | some query => query.toList.splitOn '&'

/-- The decoded key of a pair is one of the tracking keys. -/
def Tracks (lib : UrlLib) (pair : List Char) : Prop :=
  ∃ key ∈ trackingKeys, lib.formKey (String.ofList (Text.before ['='] pair)) = some key

instance (lib : UrlLib) (pair : List Char) : Decidable (Tracks lib pair) :=
  inferInstanceAs (Decidable (∃ key ∈ trackingKeys, _))

/-- A query without its tracking pairs; the text is empty where no query is left. -/
def Url.untracked (lib : UrlLib) (url : Url) : List Char :=
  ['&'].intercalate (url.queryPairs.filter fun pair => ¬ Tracks lib pair)

/-- A URL without its fragment, and with a query of some pairs. -/
def Url.withPairs (url : Url) (pairs : List (List Char)) : Url :=
  let query := ['&'].intercalate pairs
  { url with
    query := if query = [] then none else some (String.ofList query)
    fragment := none }

/-- URLs that differ only in their fragments and in tracking pairs. -/
structure Url.SameUntracked (lib : UrlLib) (url url' : Url) : Prop where
  rest : { url with query := none, fragment := none } = { url' with query := none, fragment := none }
  query : url.untracked lib = url'.untracked lib

/-- What normal forms rely on of the `url` crate: the serialization of the URL Standard, that the
path of an HTTP URL starts with a slash, and that a URL is parsed back from its text, also after its
fragment was removed and its query was set to some of its pairs, which are encoded already. -/
structure UrlLib.Serializes (lib : UrlLib) : Prop where
  serialized : ∀ url host, url.isHttp → url.username = "" → url.password = none →
    url.hostStr lib = some host → (lib.asStr url).toList = url.serialized host
  rooted : ∀ text url, lib.parse text = some url → url.isHttp →
    ∃ rest, url.path.toList = '/' :: rest
  reparse : ∀ text url pairs, lib.parse text = some url → url.isHttp →
    pairs.Sublist url.queryPairs → lib.parse (lib.asStr (url.withPairs pairs)) =
      some (url.withPairs pairs)

variable {lib : UrlLib} {url url' : Url} {input : String} {policy : RoutingPolicy}
  {n : NormalizedUrl}

/-- The source reads the same key. -/
theorem isTrackingPair_eq (lib : UrlLib) (pair : List Char) :
    isTrackingPair lib pair = decide (Tracks lib pair) := by
  have hiff : ∀ key : List Char, (lib.formKey (String.ofList key)).any
      (fun key => trackingKeys.contains key) = true ↔
        ∃ name ∈ trackingKeys, lib.formKey (String.ofList key) = some name := by
    intro key
    rw [Option.any_eq_true]
    constructor
    · rintro ⟨name, hform, hmem⟩
      exact ⟨name, List.contains_iff_mem.mp hmem, hform⟩
    · rintro ⟨name, hmem, hform⟩
      exact ⟨name, hform, List.contains_iff_mem.mpr hmem⟩
  rw [Bool.eq_iff_iff, decide_eq_true_eq, Tracks, isTrackingPair]
  cases hsplit : Text.splitOnce ['='] pair with
  | none =>
      rw [Text.before_of_splitOnce_eq_none hsplit]
      exact hiff pair
  | some parts =>
      rw [Text.before_of_splitOnce hsplit]
      exact hiff parts.1

/-- **Dropping the tracking pairs** of a query, where there is one. -/
theorem removeTrackingQuery_eq_untracked (lib : UrlLib) (url : Url) :
    removeTrackingQuery lib { url with fragment := none } =
      url.withPairs (url.queryPairs.filter fun pair => ¬ Tracks lib pair) := by
  have hfilter : ∀ pairs : List (List Char), (pairs.filter fun pair => !isTrackingPair lib pair) =
      pairs.filter fun pair => ¬ Tracks lib pair := by
    intro pairs
    refine List.filter_congr fun pair _ => ?_
    rw [isTrackingPair_eq, decide_not]
  unfold removeTrackingQuery Url.withPairs Url.queryPairs
  cases hquery : url.query with
  | none => rfl
  | some query =>
      dsimp only
      rw [hfilter]
      by_cases hempty : ['&'].intercalate
          ((query.toList.splitOn '&').filter fun pair => ¬ Tracks lib pair) = []
      · rw [if_pos (List.isEmpty_iff.mpr hempty), if_pos hempty]
      · rw [if_neg fun h => hempty (List.isEmpty_iff.mp h), if_neg hempty]

/-! ### Dropping twice -/

/-- The pairs of a query made of pairs; a query of empty text has none. -/
theorem queryPairs_withPairs (url : Url) {pairs : List (List Char)}
    (hpairs : ∀ pair ∈ pairs, '&' ∉ pair) :
    (url.withPairs pairs).queryPairs = pairs ∨
      (url.withPairs pairs).queryPairs = [] ∧ (pairs = [] ∨ pairs = [[]]) := by
  by_cases hempty : ['&'].intercalate pairs = []
  · refine Or.inr ⟨?_, ?_⟩
    · rw [Url.queryPairs, Url.withPairs, if_pos hempty]
    · match pairs, hempty with
      | [], _ => exact Or.inl rfl
      | [pair], hempty =>
          rw [List.intercalate_singleton] at hempty
          exact Or.inr (by rw [hempty])
      | pair :: pair' :: rest, hempty =>
          rw [List.intercalate_cons_cons] at hempty
          exact absurd hempty (by simp)
  · refine Or.inl ?_
    have hne : pairs ≠ [] := by
      rintro rfl
      exact hempty rfl
    rw [Url.queryPairs, Url.withPairs]
    dsimp only
    rw [if_neg hempty]
    dsimp only
    rw [String.toList_ofList, List.splitOn_intercalate '&' hpairs hne]

/-- The pairs of a query are separated. -/
theorem not_mem_queryPairs {pair : List Char} (h : pair ∈ url.queryPairs) : '&' ∉ pair := by
  unfold Url.queryPairs at h
  cases hquery : url.query with
  | none =>
      rw [hquery] at h
      cases h
  | some query =>
      rw [hquery] at h
      exact Text.not_mem_of_mem_splitOn h

/-- The query of a normal form. -/
theorem queryPairs_normal (lib : UrlLib) (url : Url) :
    ((url.withPairs (url.queryPairs.filter fun pair => ¬ Tracks lib pair)).queryPairs.filter
        fun pair => ¬ Tracks lib pair) =
      (url.withPairs (url.queryPairs.filter fun pair => ¬ Tracks lib pair)).queryPairs := by
  have hpairs : ∀ pair ∈ url.queryPairs.filter fun pair => ¬ Tracks lib pair, '&' ∉ pair :=
    fun pair hpair => not_mem_queryPairs (List.mem_of_mem_filter hpair)
  rcases queryPairs_withPairs url hpairs with heq | ⟨heq, -⟩
  · rw [heq, List.filter_filter]
    simp
  · rw [heq, List.filter_nil]

/-- Setting the pairs twice is setting them once. -/
theorem withPairs_queryPairs (url : Url) (pairs : List (List Char))
    (hpairs : ∀ pair ∈ pairs, '&' ∉ pair) :
    (url.withPairs pairs).withPairs (url.withPairs pairs).queryPairs = url.withPairs pairs := by
  rcases queryPairs_withPairs url hpairs with heq | ⟨heq, rfl | rfl⟩
  · rw [heq]
    rfl
  · rw [heq]
    rfl
  · rw [heq]
    rfl

/-- **A normal form has no tracking pairs left.** -/
theorem removeTrackingQuery_normal (lib : UrlLib) (url : Url) :
    removeTrackingQuery lib { removeTrackingQuery lib { url with fragment := none } with
      fragment := none } = removeTrackingQuery lib { url with fragment := none } := by
  have hpairs : ∀ pair ∈ url.queryPairs.filter fun pair => ¬ Tracks lib pair, '&' ∉ pair :=
    fun pair hpair => not_mem_queryPairs (List.mem_of_mem_filter hpair)
  rw [removeTrackingQuery_eq_untracked lib url, removeTrackingQuery_eq_untracked,
    queryPairs_normal, withPairs_queryPairs url _ hpairs]

/-- The pairs that say something are those of the address, without the tracking pairs. -/
theorem filter_queryPairs_normal (lib : UrlLib) (url : Url) :
    ((url.withPairs (url.queryPairs.filter fun pair => ¬ Tracks lib pair)).queryPairs.filter
        fun pair => pair ≠ []) =
      (url.queryPairs.filter fun pair => ¬ Tracks lib pair).filter fun pair => pair ≠ [] := by
  have hpairs : ∀ pair ∈ url.queryPairs.filter fun pair => ¬ Tracks lib pair, '&' ∉ pair :=
    fun pair hpair => not_mem_queryPairs (List.mem_of_mem_filter hpair)
  rcases queryPairs_withPairs url hpairs with heq | ⟨heq, hnil | hnil⟩
  · rw [heq]
  · rw [heq, hnil]
  · rw [heq, hnil]
    rfl

/-! ### The text of a normal form -/

theorem isDigit_toString {k : ℕ} {c : Char} (h : c ∈ (toString k).toList) : c.isDigit = true := by
  rw [Nat.toString_eq_repr, Nat.toList_repr] at h
  exact Text.isDigit_toDigits h

/-- The characters of a dotted quad. -/
theorem mem_ipv4Text {address : Ipv4Addr} {c : Char} (h : c ∈ address.text.toList) :
    c.isDigit = true ∨ c = '.' := by
  have hoctet : ∀ octet : UInt8, c ∈ (toString octet).toList → c.isDigit = true :=
    fun octet hc => isDigit_toString (k := octet.toNat) hc
  have hdot : ".".toList = ['.'] := by decide
  simp only [Ipv4Addr.text, String.toList_append, hdot, List.mem_append, List.mem_singleton] at h
  rcases h with (((((h | h) | h) | h) | h) | h) | h
  · exact Or.inl (hoctet _ h)
  · exact Or.inr h
  · exact Or.inl (hoctet _ h)
  · exact Or.inr h
  · exact Or.inl (hoctet _ h)
  · exact Or.inr h
  · exact Or.inl (hoctet _ h)

/-- The authority of an address without user information. -/
def Url.authority (url : Url) (host : String) : List Char :=
  host.toList ++ (url.port.elim [] fun port => ':' :: (toString port).toList)

/-- The characters of the authority of a dotted quad. -/
theorem mem_authority {address : Ipv4Addr} {c : Char} (h : c ∈ url.authority address.text) :
    c.isDigit = true ∨ c = '.' ∨ c = ':' := by
  rcases List.mem_append.mp h with hhost | hport
  · rcases mem_ipv4Text hhost with hdigit | hdot
    · exact Or.inl hdigit
    · exact Or.inr (Or.inl hdot)
  · cases hp : url.port with
    | none =>
        rw [hp] at hport
        cases hport
    | some port =>
        rw [hp] at hport
        rcases List.mem_cons.mp hport with hcolon | hdigit
        · exact Or.inr (Or.inr hcolon)
        · exact Or.inl (isDigit_toString hdigit)

/-- A character that stands in no authority of a dotted quad. -/
theorem not_mem_authority {address : Ipv4Addr} {c : Char} (hdigit : c.isDigit = false)
    (hdot : c ≠ '.') (hcolon : c ≠ ':') : c ∉ url.authority address.text := by
  intro h
  rcases mem_authority h with h | h | h
  · rw [hdigit] at h
    cases h
  · exact hdot h
  · exact hcolon h

/-- The text after the scheme. -/
def Url.afterScheme (url : Url) (host : String) : List Char :=
  url.authority host ++ (url.path.toList ++ (url.query.elim [] fun query => '?' :: query.toList) ++
    (url.fragment.elim [] fun fragment => '#' :: fragment.toList))

/-- The scheme of a serialization is found. -/
theorem splitOnce_serialized (hhttp : url.isHttp) (host : String) :
    Text.splitOnce "://".toList (url.serialized host) =
      some (url.scheme.toList, url.afterScheme host) := by
  have hscheme : ':' ∉ url.scheme.toList := by
    rcases hhttp with h | h
    · rw [h]
      decide
    · rw [h]
      decide
  have hseparator : "://".toList = ':' :: ['/', '/'] := by decide
  have htext : url.serialized host = url.scheme.toList ++ ((':' :: ['/', '/']) ++
      url.afterScheme host) := by
    rw [Url.serialized, Url.afterScheme, Url.authority, hseparator]
    simp only [List.append_assoc]
  rw [htext, hseparator]
  exact Text.splitOnce_append hscheme _ _

/-- The text of a normal form has a scheme. -/
theorem contains_serialized (hhttp : url.isHttp) {text host : String}
    (htext : text.toList = url.serialized host) :
    Text.contains "://".toList text.toList = true := by
  rw [Text.contains, htext, splitOnce_serialized hhttp]
  rfl

/-- **The host of a serialization**, where it is a dotted quad. -/
theorem rawHost_serialized (hhttp : url.isHttp) {address : Ipv4Addr} {rest : List Char}
    (hroot : url.path.toList = '/' :: rest) {text : String}
    (htext : text.toList = url.serialized address.text) :
    rawHost text = some address.text.toList := by
  have hauthority : Text.before ['/', '?', '#'] (url.afterScheme address.text) =
      url.authority address.text := by
    have hstops : ∀ c ∈ url.authority address.text, c ∉ ['/', '?', '#'] := by
      intro c hc hstop
      simp only [List.mem_cons, List.not_mem_nil, or_false] at hstop
      rcases hstop with rfl | rfl | rfl
      · exact not_mem_authority (by decide) (by decide) (by decide) hc
      · exact not_mem_authority (by decide) (by decide) (by decide) hc
      · exact not_mem_authority (by decide) (by decide) (by decide) hc
    rw [Url.afterScheme, hroot]
    exact Text.before_append hstops List.mem_cons_self _
  have hat : Text.afterLast '@' (url.authority address.text) = url.authority address.text :=
    Text.afterLast_eq_self (not_mem_authority (by decide) (by decide) (by decide))
  have hbracket : (url.authority address.text).head? ≠ some '[' := fun h =>
    not_mem_authority (by decide) (by decide) (by decide) (List.mem_of_head? h)
  have hhost : Text.before [':'] (url.authority address.text) = address.text.toList := by
    have hcolon : ':' ∉ address.text.toList := by
      intro h
      rcases mem_ipv4Text h with h | h
      · cases h
      · cases h
    rw [Url.authority]
    cases url.port with
    | none =>
        rw [Option.elim_none, List.append_nil]
        exact Text.before_of_splitOnce_eq_none (Text.splitOnce_eq_none hcolon [])
    | some port =>
        refine Text.before_append (fun c hc hstop => ?_) List.mem_cons_self _
        rw [List.mem_singleton.mp hstop] at hc
        exact hcolon hc
  rw [rawHost, htext, splitOnce_serialized hhttp, Option.bind_some]
  dsimp only
  rw [hauthority, hat, if_neg hbracket, hhost]

/-- **A numeric host of a normal form is not ambiguous.** -/
theorem numericHost_asStr (hlib : lib.Serializes) (hhttp : url.isHttp) (huser : url.username = "")
    (hpass : url.password = none) {rest : List Char} (hroot : url.path.toList = '/' :: rest) :
    numericHostIsAmbiguous lib (lib.asStr url) url = false := by
  cases hhost : url.host with
  | none => rw [numericHostIsAmbiguous, hhost]
  | some host =>
      cases host with
      | domain name => rw [numericHostIsAmbiguous, hhost]
      | ipv6 address => rw [numericHostIsAmbiguous, hhost]
      | ipv4 address =>
          have hstr : url.hostStr lib = some address.text := by
            rw [Url.hostStr, hhost]
            rfl
          have htext := hlib.serialized url address.text hhttp huser hpass hstr
          rw [numericHostIsAmbiguous, hhost]
          dsimp only
          rw [rawHost_serialized hhttp hroot htext, hstr]
          simp [Text.eqIgnoreAsciiCase]

/-! ### Normal forms -/

/-- What `normalize` accepts, and what it returns. -/
theorem normalize_eq_ok_iff : normalize lib input policy = .ok n ↔
    input.utf8ByteSize ≤ policy.maxUrlLength ∧
      Text.contains "://".toList input.toList = true ∧
      ∃ url, lib.parse input = some url ∧ url.isHttp ∧ url.host.isSome = true ∧
        url.username = "" ∧ url.password = none ∧ url.port ≠ some 0 ∧
        (∃ port, url.portOrKnownDefault = some port ∧ port ∈ policy.allowedPorts) ∧
        numericHostIsAmbiguous lib input url = false ∧
        n = ⟨input, removeTrackingQuery lib { url with fragment := none },
          lib.sha256Hex (lib.asStr (removeTrackingQuery lib { url with fragment := none }))⟩ := by
  simp only [normalize, Except.bind_eq_ok_iff, Except.require_eq_ok_iff, Except.okOr_eq_ok_iff]
  constructor
  · rintro ⟨-, hsize, -, hscheme, url, hparse, -, hhttp, -, hhost, -, ⟨huser, hpass⟩, -, hzero,
      port, hport, -, hallowed, -, hnumeric, heq⟩
    exact ⟨hsize, hscheme, url, hparse, hhttp, hhost, huser, Option.isNone_iff_eq_none.mp hpass,
      hzero, ⟨port, hport, hallowed⟩, hnumeric, (Except.ok.inj heq).symm⟩
  · rintro ⟨hsize, hscheme, url, hparse, hhttp, hhost, huser, hpass, hzero, ⟨port, hport, hallowed⟩,
      hnumeric, rfl⟩
    exact ⟨(), hsize, (), hscheme, url, hparse, (), hhttp, (), hhost, (),
      ⟨huser, Option.isNone_iff_eq_none.mpr hpass⟩, (), hzero, port, hport, (), hallowed, (),
      hnumeric, rfl⟩

/-- Normal forms of addresses that differ in fragments and tracking pairs only. -/
theorem Url.SameUntracked.normal (h : url.SameUntracked lib url') :
    removeTrackingQuery lib { url with fragment := none } =
      removeTrackingQuery lib { url' with fragment := none } := by
  have hquery : (['&'].intercalate (url.queryPairs.filter fun pair => ¬ Tracks lib pair)) =
      ['&'].intercalate (url'.queryPairs.filter fun pair => ¬ Tracks lib pair) := h.query
  rw [removeTrackingQuery_eq_untracked, removeTrackingQuery_eq_untracked, Url.withPairs,
    Url.withPairs, hquery]
  exact congrArg (fun rest : Url => { rest with
    query := if ['&'].intercalate (url'.queryPairs.filter fun pair => ¬ Tracks lib pair) = [] then none
      else some (String.ofList
        (['&'].intercalate (url'.queryPairs.filter fun pair => ¬ Tracks lib pair))) }) h.rest

/-- A normal form is parsed back from its text. -/
theorem parse_asStr_normal (hlib : lib.Serializes) (h : normalize lib input policy = .ok n) :
    lib.parse (lib.asStr n.normalized) = some n.normalized := by
  obtain ⟨-, -, url, hparse, hhttp, -, -, -, -, -, -, rfl⟩ := normalize_eq_ok_iff.mp h
  have hreparse := hlib.reparse input url _ hparse hhttp
    (List.filter_sublist (p := fun pair => ¬ Tracks lib pair) (l := url.queryPairs))
  rwa [← removeTrackingQuery_eq_untracked] at hreparse

/-- **Normalizing a normal form** changes nothing. -/
theorem normalize_normal (hlib : lib.Serializes) (h : normalize lib input policy = .ok n)
    (hlength : (lib.asStr n.normalized).utf8ByteSize ≤ policy.maxUrlLength) :
    normalize lib (lib.asStr n.normalized) policy =
      .ok ⟨lib.asStr n.normalized, n.normalized, n.routingFingerprint⟩ := by
  obtain ⟨hhttp, hhost, huser, hpass, -, hport⟩ := normalize_spec h
  obtain ⟨-, -, url, hparse, hhttp', -, -, -, hzero, -, -, heq⟩ := normalize_eq_ok_iff.mp h
  have hn : n.normalized = removeTrackingQuery lib { url with fragment := none } := by rw [heq]
  have hfingerprint : n.routingFingerprint = lib.sha256Hex (lib.asStr n.normalized) := by rw [heq]
  obtain ⟨query, hquery⟩ := removeTrackingQuery_eq lib { url with fragment := none }
  obtain ⟨rest, hroot⟩ := hlib.rooted input url hparse hhttp'
  have hreparse := parse_asStr_normal hlib h
  have hnormal := removeTrackingQuery_normal lib url
  rw [← hn] at hnormal
  obtain ⟨host, hsome⟩ := Option.isSome_iff_exists.mp hhost
  obtain ⟨text, hstr⟩ : ∃ text, n.normalized.hostStr lib = some text := by
    rw [Url.hostStr, hsome]
    exact ⟨_, rfl⟩
  have hzero' : n.normalized.port ≠ some 0 := by
    rw [hn, hquery]
    exact hzero
  have hroot' : n.normalized.path.toList = '/' :: rest := by
    rw [hn, hquery]
    exact hroot
  refine normalize_eq_ok_iff.mpr ⟨hlength, ?_, n.normalized, hreparse, hhttp, hhost, huser, hpass,
    hzero', hport, numericHost_asStr hlib hhttp huser hpass hroot', ?_⟩
  · exact contains_serialized hhttp (hlib.serialized _ text hhttp huser hpass hstr)
  · rw [hnormal, hfingerprint]

/-- **URL normalization is canonical.** The text of a normal form is normalized to itself, with the
same fingerprint; a normal form has neither a fragment nor user information, keeps the host, the
port and the path of its address, and of the pairs that say something those that do not track; and
addresses that differ only in fragments and tracking pairs have the same fingerprint and route. -/
theorem normalize_canonical (hlib : lib.Serializes) (h : normalize lib input policy = .ok n) :
    ((lib.asStr n.normalized).utf8ByteSize ≤ policy.maxUrlLength →
        normalize lib (lib.asStr n.normalized) policy =
          .ok ⟨lib.asStr n.normalized, n.normalized, n.routingFingerprint⟩) ∧
      n.normalized.fragment = none ∧ n.normalized.username = "" ∧ n.normalized.password = none ∧
      ∃ url, lib.parse input = some url ∧
        n.normalized.queryPairs.filter (fun pair => pair ≠ []) =
          (url.queryPairs.filter fun pair => ¬ Tracks lib pair).filter (fun pair => pair ≠ []) ∧
        n.normalized.host = url.host ∧ n.normalized.port = url.port ∧
        n.normalized.path = url.path ∧
        ∀ input' policy' n' url', normalize lib input' policy' = .ok n' →
          lib.parse input' = some url' → url.SameUntracked lib url' →
          n'.routingFingerprint = n.routingFingerprint ∧ classify lib n' = classify lib n := by
  refine ⟨normalize_normal hlib h, ?_⟩
  obtain ⟨-, hhost, huser, hpass, hfragment, -⟩ := normalize_spec h
  refine ⟨hfragment, huser, hpass, ?_⟩
  obtain ⟨-, -, url, hparse, -, -, -, -, -, -, -, rfl⟩ := normalize_eq_ok_iff.mp h
  refine ⟨url, hparse, ?_, ?_⟩
  · rw [removeTrackingQuery_eq_untracked]
    exact filter_queryPairs_normal lib url
  · have hsame : ∀ input' policy' n' url', normalize lib input' policy' = .ok n' →
        lib.parse input' = some url' → url.SameUntracked lib url' →
        n'.normalized = removeTrackingQuery lib { url with fragment := none } ∧
          n'.routingFingerprint = lib.sha256Hex (lib.asStr n'.normalized) := by
      intro input' policy' n' url' h' hparse' hurl
      obtain ⟨-, -, url'', hparse'', -, -, -, -, -, -, -, rfl⟩ := normalize_eq_ok_iff.mp h'
      obtain rfl := Option.some.inj (hparse'.symm.trans hparse'')
      exact ⟨hurl.normal.symm, rfl⟩
    obtain ⟨query, hquery⟩ := removeTrackingQuery_eq lib { url with fragment := none }
    dsimp only
    refine ⟨by rw [hquery], by rw [hquery], by rw [hquery], ?_⟩
    intro input' policy' n' url' h' hparse' hurl
    obtain ⟨hnormal, hfingerprint⟩ := hsame input' policy' n' url' h' hparse' hurl
    rw [hfingerprint, classify, classify, hnormal]
    exact ⟨rfl, rfl⟩

/-! ### An example -/

/-- An address with a query of two pairs, one of which tracks. -/
def trackedUrl : Url := { exampleUrl with query := some "a=1&utm_source=x" }

/-- The address without one pair or without both, and with a fragment. -/
def trackedUrls : List Url :=
  [{ trackedUrl with fragment := some "top" }, trackedUrl, { exampleUrl with query := some "a=1" },
    { exampleUrl with query := some "utm_source=x" }, exampleUrl]

/-- Their normal form. -/
def untrackedUrl : Url := { exampleUrl with query := some "a=1" }

/-- The SHA-256 digest of the text of the normal form. -/
def untrackedDigest : String := "e4ef44e652753be0b3cff4427062960f28811df5791006e9ab3d1c2b4579bbdc"

/-- The functions of the crates on these addresses. -/
def trackedLib : UrlLib :=
  { tableLib trackedUrls with
    sha256Hex := fun text => if text = "http://example.org/?a=1" then untrackedDigest else text }

theorem mem_of_trackedLib_parse {text : String} {url : Url} (h : trackedLib.parse text = some url) :
    url ∈ trackedUrls := by
  have hfind : (trackedUrls.find? fun url => tableText url == text) = some url := h
  exact List.mem_of_find?_eq_some hfind

theorem trackedLib_serializes : trackedLib.Serializes where
  serialized _ _ _ _ _ hhost := tableText_toList trackedUrls hhost
  rooted text url hparse _ := by
    have hpaths : ∀ url ∈ trackedUrls, url.path.toList = ['/'] := by decide +kernel
    exact ⟨[], hpaths url (mem_of_trackedLib_parse hparse)⟩
  reparse text url pairs hparse _ hpairs := by
    have htable : ∀ url ∈ trackedUrls, ∀ pairs ∈ url.queryPairs.sublists,
        trackedLib.parse (trackedLib.asStr (url.withPairs pairs)) = some (url.withPairs pairs) := by
      decide +kernel
    exact htable url (mem_of_trackedLib_parse hparse) pairs (List.mem_sublists.mpr hpairs)

/-- Addresses with this normal form. -/
theorem normalize_trackedLib {input : String} {url : Url} (hsize : input.utf8ByteSize ≤ 8192)
    (hscheme : Text.contains "://".toList input.toList = true)
    (hparse : trackedLib.parse input = some url) (hurl : url.isHttp ∧ url.host.isSome = true ∧
      url.username = "" ∧ url.password = none ∧ url.port ≠ some 0 ∧
      url.portOrKnownDefault = some 80 ∧ numericHostIsAmbiguous trackedLib input url = false)
    (hnormal : removeTrackingQuery trackedLib { url with fragment := none } = untrackedUrl) :
    normalize trackedLib input ⟨8192, [80, 443]⟩ = .ok ⟨input, untrackedUrl, untrackedDigest⟩ := by
  obtain ⟨hhttp, hhost, huser, hpass, hzero, hport, hnumeric⟩ := hurl
  have hdigest : trackedLib.sha256Hex (trackedLib.asStr untrackedUrl) = untrackedDigest := by
    decide +kernel
  refine normalize_eq_ok_iff.mpr ⟨hsize, hscheme, url, hparse, hhttp, hhost, huser, hpass, hzero,
    ⟨80, hport, List.mem_cons_self⟩, hnumeric, ?_⟩
  rw [hnormal, hdigest]

theorem normalize_canonical_tracked : ∃ n n',
    normalize trackedLib "http://example.org/?a=1&utm_source=x#top" ⟨8192, [80, 443]⟩ = .ok n ∧
      normalize trackedLib "http://example.org/?a=1" ⟨8192, [80, 443]⟩ = .ok n' ∧
      normalize trackedLib (trackedLib.asStr n.normalized) ⟨8192, [80, 443]⟩ =
        .ok ⟨trackedLib.asStr n.normalized, n.normalized, n.routingFingerprint⟩ ∧
      n'.routingFingerprint = n.routingFingerprint ∧
      classify trackedLib n' = classify trackedLib n := by
  have hparse : trackedLib.parse "http://example.org/?a=1&utm_source=x#top" =
      some { trackedUrl with fragment := some "top" } := by decide +kernel
  have hparse' : trackedLib.parse "http://example.org/?a=1" = some untrackedUrl := by
    decide +kernel
  have hn := normalize_trackedLib (by decide +kernel) (by decide +kernel) hparse
    ⟨Or.inl rfl, rfl, rfl, rfl, by decide, rfl, rfl⟩ (by decide +kernel)
  have hn' := normalize_trackedLib (by decide +kernel) (by decide +kernel) hparse'
    ⟨Or.inl rfl, rfl, rfl, rfl, by decide, rfl, rfl⟩ (by decide +kernel)
  obtain ⟨hnormal, -, -, -, url, hurl, -, -, -, -, hsame⟩ :=
    normalize_canonical trackedLib_serializes hn
  obtain rfl := Option.some.inj (hparse.symm.trans hurl)
  have hagree := hsame _ _ _ _ hn' hparse' ⟨rfl, by decide +kernel⟩
  exact ⟨_, _, hn, hn', hnormal (by decide +kernel), hagree⟩

end Extractor
