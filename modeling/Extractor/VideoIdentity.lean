import Extractor.CaptionTracks
import Extractor.TimedText
import Extractor.UrlCanonical

/-!
# Video identities

`resolve_identity` of `crates/youtube/src/identity.rs`: the video that a URL names, and the one
canonical address of it. Hosts of three families are read by two different functions, and the router
of another crate has decided on the family before, from the same URL without its tracking pairs.

The pairs of a query are decoded outside the repository; `Url.formPairs` is their documented form,
over a parameter for the decoding of a name or a value.

## Main definitions

* `resolveIdentity`: the identity and the canonical address.
* `DocumentedForm`: the forms of the specification, on parsed URLs.

## Main results

* `classify_of_documented`: the router sends a documented host to the transcript route.
* `resolveIdentity_normal`: the normal form of a URL names the same video.
* `video_identity_canonical`: identities are canonical, and every documented form has one.
-/

namespace Extractor

/-! ### Hosts -/

/-- A host is a domain or below it. -/
def InDomain (host base : List Char) : Prop := '.' :: base <:+ '.' :: host

theorem inDomain_iff {host base : List Char} :
    InDomain host base ↔ host = base ∨ ∃ subdomain, host = subdomain ++ '.' :: base := by
  rw [InDomain, List.suffix_cons_iff, List.cons.injEq, eq_self_iff_true, true_and, eq_comm]
  refine or_congr_right ?_
  constructor
  · rintro ⟨subdomain, h⟩
    exact ⟨subdomain, h.symm⟩
  · rintro ⟨subdomain, h⟩
    exact ⟨subdomain, h.symm⟩

/-- A host is in one of two domains that are not below one another. -/
theorem InDomain.not_inDomain {host base base' : List Char} (h : InDomain host base)
    (hbase : ¬ InDomain base base') (hbase' : ¬ InDomain base' base) : ¬ InDomain host base' :=
  fun h' => (List.suffix_or_suffix_of_suffix h h').elim hbase' hbase

instance (host base : List Char) : Decidable (InDomain host base) :=
  inferInstanceAs (Decidable (_ <:+ _))

theorem isDocumentedHost_iff_inDomain {host documented : List Char} :
    isDocumentedHost host documented = true ↔ InDomain host documented := by
  rw [isDocumentedHost_iff, inDomain_iff]

theorem hostMatches_iff_inDomain {host base : String} :
    hostMatches host base = true ↔ InDomain host.toList base.toList := by
  have hsame : hostMatches host base = isDocumentedHost host.toList base.toList := by
    have hbeq : (host == base) = (host.toList == base.toList) :=
      Bool.eq_iff_iff.mpr (by simp [String.toList_inj])
    have hlast : ∀ rest : List Char, (rest.getLast? == some '.') = ['.'].isSuffixOf rest := by
      intro rest
      rw [Bool.eq_iff_iff, beq_iff_eq, List.isSuffixOf_iff_suffix]
      constructor
      · intro h
        obtain ⟨init, rfl⟩ := List.getLast?_eq_some_iff.mp h
        exact List.suffix_append _ _
      · rintro ⟨init, rfl⟩
        exact List.getLast?_concat
    rw [hostMatches, isDocumentedHost, hbeq]
    simp only [hlast]
  rw [hsame, isDocumentedHost_iff_inDomain]

/-! ### The code -/

/-- `IdentityError`. -/
inductive IdentityError
  | notAVideo
  | malformedId
  deriving DecidableEq

/-- `Url::query_pairs`: the parts of a query that are not empty, split at their first equals sign
and decoded. -/
def Url.formPairs (decode : List Char → String) (url : Url) : List (String × String) :=
  (url.queryPairs.filter fun pair => pair ≠ []).map fun pair =>
    match Text.splitOnce ['='] pair with
    | some (name, value) => (decode name, decode value)
    | none => (decode pair, decode [])

/-- The text of the canonical address of a video. -/
def canonicalAddress (video : List Char) : String :=
  "https://www.youtube.com/watch?v=" ++ String.ofList video

/-- A character of a video identity. -/
def isIdChar (c : Char) : Bool := c.isAlphanum || c == '-' || c == '_'

/-- `validated_id`. -/
def validatedId (candidate : List Char) : Except IdentityError (List Char) :=
  if Text.utf8Len candidate = 11 ∧ candidate.all isIdChar then .ok candidate
  else .error .malformedId

/-- `first_path_segment`. -/
def firstPathSegment (url : Url) : Option (List Char) :=
  match url.path.toList with
  | '/' :: rest => some (Text.before ['/'] rest)
  | _ => none

section Code

variable (lib : UrlLib) (decode : List Char → String)

/-- The value of the first pair of the query that is named `v`. -/
def Url.watched (url : Url) : Option (List Char) :=
  ((url.formPairs decode).find? fun pair => pair.1 == "v").map fun pair => pair.2.toList

/-- The first segments of the paths that are followed by an identity. -/
def pathKinds : List (List Char) :=
  ["shorts".toList, "live".toList, "embed".toList, "v".toList]

/-- `path_candidate`. -/
def pathCandidate (url : Url) : Option (List Char) :=
  match (url.path.toList.splitOn '/').filter fun segment => segment ≠ [] with
  | [segment] => if segment = "watch".toList then url.watched decode else none
  | [kind, id] => if pathKinds.contains kind then some id else none
  | _ => none

/-- The candidate of a URL on a lowered host. -/
def identityCandidate (url : Url) (lowered : List Char) : Option (List Char) :=
  let onYoutubeCom := isDocumentedHost lowered "youtube.com".toList
  let onShortHost := isDocumentedHost lowered "youtu.be".toList
  let onNocookie := isDocumentedHost lowered "youtube-nocookie.com".toList
  if !onYoutubeCom && !onShortHost && !onNocookie then none
  else if onShortHost && !onNocookie then firstPathSegment url
  else pathCandidate decode url

/-- `resolve_identity`: the identity, and its canonical watch address. -/
def resolveIdentity (text : String) : Except IdentityError (List Char × String) :=
  match lib.parse text with
  | none => .error .notAVideo
  | some parsed =>
      match parsed.hostStr lib with
      | none => .error .notAVideo
      | some host =>
          match identityCandidate decode parsed (Text.asciiLower host.toList) with
          | none => .error .notAVideo
          | some candidate => do
              let video ← validatedId candidate
              .ok (video, canonicalAddress video)

end Code

/-! ### Identities -/

/-- A valid identity. -/
def ValidId (video : List Char) : Prop := video.length = 11 ∧ ∀ c ∈ video, isIdChar c = true

theorem utf8Size_of_isIdChar {c : Char} (h : isIdChar c = true) : c.utf8Size = 1 := by
  by_cases hreference : isReferenceChar c = true
  · exact utf8Size_of_isReferenceChar hreference
  · simp only [isReferenceChar, isIdChar, Bool.or_eq_true, beq_iff_eq, not_or] at h hreference
    rcases h with (h | rfl) | rfl
    · exact absurd h hreference.1.1
    · decide
    · decide

theorem utf8Len_eq_length {video : List Char} (h : ∀ c ∈ video, isIdChar c = true) :
    Text.utf8Len video = video.length := by
  induction video with
  | nil => rfl
  | cons c video ih =>
      rw [List.forall_mem_cons] at h
      rw [Text.utf8Len, List.map_cons, List.sum_cons, utf8Size_of_isIdChar h.1]
      have hrest := ih h.2
      rw [Text.utf8Len] at hrest
      rw [hrest, List.length_cons, Nat.add_comm]

/-- **What is accepted as an identity** is one. -/
theorem validatedId_eq_ok_iff {candidate video : List Char} :
    validatedId candidate = .ok video ↔ ValidId candidate ∧ video = candidate := by
  have hvalid :
      Text.utf8Len candidate = 11 ∧ candidate.all isIdChar = true ↔ ValidId candidate := by
    rw [ValidId, List.all_eq_true, and_comm, and_comm (a := candidate.length = 11)]
    exact and_congr_right fun h => by rw [utf8Len_eq_length h]
  rw [validatedId]
  by_cases h : Text.utf8Len candidate = 11 ∧ candidate.all isIdChar = true
  · rw [if_pos h, Except.ok.injEq]
    exact ⟨fun heq => ⟨hvalid.mp h, heq.symm⟩, fun heq => heq.2.symm⟩
  · rw [if_neg h]
    exact ⟨(nomatch ·), fun heq => absurd (hvalid.mpr heq.1) h⟩

section Results

variable {lib : UrlLib} {decode : List Char → String} {url : Url} {text : String}
  {policy : RoutingPolicy} {n : NormalizedUrl} {video : List Char} {address : String}

/-- **The result**: an identity that the path or the query of a documented host names. -/
theorem resolveIdentity_eq_ok_iff :
    resolveIdentity lib decode text = .ok (video, address) ↔
      ValidId video ∧ address = canonicalAddress video ∧
        ∃ url host, lib.parse text = some url ∧ url.hostStr lib = some host ∧
          identityCandidate decode url (Text.asciiLower host.toList) = some video := by
  rw [resolveIdentity]
  cases hparse : lib.parse text with
  | none => simp
  | some url =>
      cases hhost : url.hostStr lib with
      | none => simp [hhost]
      | some host =>
          cases hcandidate : identityCandidate decode url (Text.asciiLower host.toList) with
          | none => simp [hhost, hcandidate]
          | some candidate =>
              constructor
              · intro h
                dsimp only at h
                rw [hhost] at h
                dsimp only at h
                rw [hcandidate] at h
                obtain ⟨video', hvideo, heq⟩ := Except.bind_eq_ok_iff.mp h
                obtain ⟨hvalid, rfl⟩ := validatedId_eq_ok_iff.mp hvideo
                obtain ⟨rfl, rfl⟩ := Prod.mk.inj (Except.ok.inj heq)
                exact ⟨hvalid, rfl, url, host, rfl, hhost, hcandidate⟩
              · rintro ⟨hvalid, rfl, url', host', hurl, hhost', hvideo⟩
                obtain rfl := Option.some.inj hurl
                dsimp only
                rw [hhost']
                dsimp only
                rw [hvideo]
                exact Except.bind_eq_ok_iff.mpr
                  ⟨_, validatedId_eq_ok_iff.mpr ⟨hvalid, rfl⟩, rfl⟩

/-! ### The families -/

/-- The host is one of the three families. -/
def Documented (host : List Char) : Prop :=
  InDomain host "youtube.com".toList ∨ InDomain host "youtu.be".toList ∨
    InDomain host "youtube-nocookie.com".toList

/-- A host with a candidate is documented. -/
theorem documented_of_identityCandidate {lowered candidate : List Char}
    (h : identityCandidate decode url lowered = some candidate) : Documented lowered := by
  by_contra hnot
  simp only [Documented, not_or, ← isDocumentedHost_iff_inDomain, Bool.not_eq_true] at hnot
  rw [identityCandidate, hnot.1, hnot.2.1, hnot.2.2] at h
  cases h

/-- Short links are read by their first segment. -/
theorem identityCandidate_short {lowered : List Char} (h : InDomain lowered "youtu.be".toList) :
    identityCandidate decode url lowered = firstPathSegment url := by
  have hnot : isDocumentedHost lowered "youtube-nocookie.com".toList = false :=
    Bool.eq_false_iff.mpr fun hno =>
      h.not_inDomain (by decide) (by decide) (isDocumentedHost_iff_inDomain.mp hno)
  rw [identityCandidate, isDocumentedHost_iff_inDomain.mpr h, hnot]
  simp

/-- The other two families are read by their whole path. -/
theorem identityCandidate_path {lowered : List Char}
    (h : InDomain lowered "youtube.com".toList ∨
      InDomain lowered "youtube-nocookie.com".toList) :
    identityCandidate decode url lowered = pathCandidate decode url := by
  have hnot : isDocumentedHost lowered "youtu.be".toList = false := by
    refine Bool.eq_false_iff.mpr fun hshort => ?_
    rw [isDocumentedHost_iff_inDomain] at hshort
    exact h.elim (hshort.not_inDomain (by decide) (by decide))
      (hshort.not_inDomain (by decide) (by decide))
  have hsome : isDocumentedHost lowered "youtube.com".toList = true ∨
      isDocumentedHost lowered "youtube-nocookie.com".toList = true :=
    h.imp isDocumentedHost_iff_inDomain.mpr isDocumentedHost_iff_inDomain.mpr
  have hopen : ¬ (!isDocumentedHost lowered "youtube.com".toList && !false &&
      !isDocumentedHost lowered "youtube-nocookie.com".toList) = true := by
    intro hclosed
    rw [Bool.and_eq_true, Bool.and_eq_true] at hclosed
    rcases hsome with h | h
    · rw [h] at hclosed
      cases hclosed.1.1
    · rw [h] at hclosed
      cases hclosed.2
  rw [identityCandidate, hnot, if_neg hopen, Bool.false_and]
  rfl

/-- The domains that the router looks for before the documented ones. -/
def otherDomains : List String :=
  ["github.com", "x.com", "twitter.com", "instagram.com", "threads.net", "reddit.com", "redd.it",
    "news.ycombinator.com"]

/-- A documented host is in none of them. -/
theorem Documented.not_hostMatches {host base : String} (h : Documented host.toList)
    (hbase : base ∈ otherDomains) : hostMatches host base = false := by
  have hapart : ∀ base ∈ otherDomains, ∀ documented ∈ documentedHosts,
      ¬ InDomain documented.toList base.toList ∧ ¬ InDomain base.toList documented.toList := by
    decide +kernel
  have hnot : ∀ documented ∈ documentedHosts, InDomain host.toList documented.toList →
      ¬ InDomain host.toList base.toList := fun documented hdocumented hin =>
    hin.not_inDomain (hapart base hbase documented hdocumented).1
      (hapart base hbase documented hdocumented).2
  refine Bool.eq_false_iff.mpr fun hmatches => ?_
  rw [hostMatches_iff_inDomain] at hmatches
  rcases h with h | h | h
  · exact hnot "youtube.com" (by decide) h hmatches
  · exact hnot "youtu.be" (by decide) h hmatches
  · exact hnot "youtube-nocookie.com" (by decide) h hmatches

/-- **The router sends a documented host to the transcript route.** -/
theorem classify_of_documented {host : String} (hhost : n.normalized.hostStr lib = some host)
    (h : Documented host.toList) : classify lib n = .youTube := by
  have hyes : (hostMatches host "youtube.com" || hostMatches host "youtu.be" ||
      hostMatches host "youtube-nocookie.com") = true := by
    rw [Documented, ← hostMatches_iff_inDomain, ← hostMatches_iff_inDomain,
      ← hostMatches_iff_inDomain] at h
    simpa [or_assoc] using h
  have hno : ∀ base ∈ otherDomains, hostMatches host base = false := fun base hbase =>
    h.not_hostMatches hbase
  rw [classify, hhost]
  simp only [hno "github.com" (by decide), hno "x.com" (by decide), hno "twitter.com" (by decide),
    hno "instagram.com" (by decide), hno "threads.net" (by decide), hno "reddit.com" (by decide),
    hno "redd.it" (by decide), hno "news.ycombinator.com" (by decide), hyes, Bool.or_self,
    Bool.false_eq_true, if_false, if_true]

/-! ### The query -/

variable (lib decode) in
/-- What is relied on of the `url` crate: a key is decoded like a name, characters of identities
stand for themselves, hosts are serialized in lower case, and canonical addresses are URLs in their
serialized form. -/
structure UrlLib.ReadsForms : Prop where
  formKey : ∀ name, name ≠ [] → '&' ∉ name → '=' ∉ name →
    lib.formKey (String.ofList name) = some (decode name)
  plain : ∀ name, (∀ c ∈ name, isIdChar c = true) → decode name = String.ofList name
  lowered : ∀ text url host, lib.parse text = some url → url.isHttp →
    url.hostStr lib = some host → Text.asciiLower host.toList = host.toList
  canonical : ∀ video, ValidId video → lib.parse (canonicalAddress video) =
    some ⟨"https", "", none, some (.domain "www.youtube.com"), none, "/watch",
      some ("v=" ++ String.ofList video), none⟩

/-- A decoded pair, by its name. -/
def formPair (decode : List Char → String) (pair : List Char) : String × String :=
  match Text.splitOnce ['='] pair with
  | some (name, value) => (decode name, decode value)
  | none => (decode pair, decode [])

theorem formPair_fst (pair : List Char) :
    (formPair decode pair).1 = decode (Text.before ['='] pair) := by
  rw [formPair]
  cases hsplit : Text.splitOnce ['='] pair with
  | none => rw [Text.before_of_splitOnce_eq_none hsplit]
  | some parts => rw [Text.before_of_splitOnce hsplit]

/-- A pair that is named `v` does not track. -/
theorem not_tracks_of_named (hlib : lib.ReadsForms decode) {pair : List Char} (hamp : '&' ∉ pair)
    (hname : (formPair decode pair).1 = "v") : ¬ Tracks lib pair := by
  rw [formPair_fst] at hname
  have hne : Text.before ['='] pair ≠ [] := by
    intro hnil
    rw [hnil, hlib.plain [] (by simp)] at hname
    exact absurd hname (by decide)
  have hequals : '=' ∉ Text.before ['='] pair := by
    intro h
    have hstop := List.mem_takeWhile_imp h
    simp at hstop
  have hkey := hlib.formKey _ hne (fun h => hamp (List.takeWhile_subset _ h)) hequals
  rintro ⟨key, hkeys, htracks⟩
  rw [hkey, hname] at htracks
  obtain rfl := Option.some.inj htracks
  exact absurd hkeys (by decide)

/-- The first pair that is named `v`, among the pairs that are not empty. -/
theorem watched_eq (decode : List Char → String) (url : Url) :
    url.watched decode =
      ((url.queryPairs.filter fun pair => pair ≠ []).find? fun pair =>
        (formPair decode pair).1 == "v").map fun pair => (formPair decode pair).2.toList := by
  have hpairs : url.formPairs decode =
      (url.queryPairs.filter fun pair => pair ≠ []).map (formPair decode) := rfl
  rw [Url.watched, hpairs, List.find?_map, Option.map_map]
  rfl

/-- Two searches that agree on the members of a list. -/
theorem find?_eq_of_forall {α : Type} {p q : α → Bool} {xs : List α} (h : ∀ a ∈ xs, p a = q a) :
    xs.find? p = xs.find? q := by
  induction xs with
  | nil => rfl
  | cons a xs ih =>
      rw [List.forall_mem_cons] at h
      rw [List.find?_cons, List.find?_cons, h.1, ih h.2]

/-- **Dropping the tracking pairs** keeps the video. -/
theorem watched_normal (hlib : lib.ReadsForms decode) (url : Url) :
    (removeTrackingQuery lib { url with fragment := none }).watched decode =
      url.watched decode := by
  rw [watched_eq, watched_eq, removeTrackingQuery_eq_untracked, filter_queryPairs_normal,
    List.find?_filter, List.find?_filter, List.find?_filter]
  refine congrArg (Option.map _) (find?_eq_of_forall fun pair hpair => ?_)
  by_cases hname : (formPair decode pair).1 = "v"
  · have hnot := not_tracks_of_named hlib (not_mem_queryPairs hpair) hname
    simp [hnot]
  · simp [hname]

/-! ### Normal forms -/

/-- The candidate of a URL depends on its path and on what its query names. -/
theorem identityCandidate_congr {url' : Url} (hpath : url'.path = url.path)
    (hwatched : url'.watched decode = url.watched decode) (lowered : List Char) :
    identityCandidate decode url' lowered = identityCandidate decode url lowered := by
  rw [identityCandidate, identityCandidate, firstPathSegment, firstPathSegment, pathCandidate,
    pathCandidate, hpath, hwatched]

/-- **The normal form names the same video**, on the transcript route. -/
theorem resolveIdentity_normal (hserial : lib.Serializes) (hlib : lib.ReadsForms decode)
    (h : resolveIdentity lib decode text = .ok (video, address))
    (hnorm : normalize lib text policy = .ok n) :
    classify lib n = .youTube ∧
      resolveIdentity lib decode (lib.asStr n.normalized) = .ok (video, address) := by
  obtain ⟨hvalid, haddress, url, host, hparse, hhost, hcandidate⟩ :=
    resolveIdentity_eq_ok_iff.mp h
  have hreparse := parse_asStr_normal hserial hnorm
  obtain ⟨-, -, url', hparse', hhttp, -, -, -, -, -, -, hn⟩ := normalize_eq_ok_iff.mp hnorm
  obtain rfl := Option.some.inj (hparse.symm.trans hparse')
  have hnormal : n.normalized = removeTrackingQuery lib { url with fragment := none } := by rw [hn]
  obtain ⟨query, hquery⟩ := removeTrackingQuery_eq lib { url with fragment := none }
  have hhost' : n.normalized.hostStr lib = some host := by
    rw [hnormal, hquery]
    exact hhost
  have hpath : n.normalized.path = url.path := by rw [hnormal, hquery]
  have hwatched : n.normalized.watched decode = url.watched decode := by
    rw [hnormal]
    exact watched_normal hlib url
  refine ⟨classify_of_documented hhost' ?_, resolveIdentity_eq_ok_iff.mpr
    ⟨hvalid, haddress, n.normalized, host, hreparse, hhost', ?_⟩⟩
  · rw [← hlib.lowered text url host hparse hhttp hhost]
    exact documented_of_identityCandidate hcandidate
  · rw [identityCandidate_congr hpath hwatched]
    exact hcandidate

/-! ### Documented forms -/

/-- **A documented form** of a video, on a parsed URL: a watch page whose first pair of the name `v`
has the identity, a path of two segments, or a short link. -/
inductive DocumentedForm (lib : UrlLib) (decode : List Char → String) (video : List Char)
    (url : Url) : Prop
  | watch {host : String} (hhost : url.hostStr lib = some host)
      (family : InDomain (Text.asciiLower host.toList) "youtube.com".toList ∨
        InDomain (Text.asciiLower host.toList) "youtube-nocookie.com".toList)
      (path : url.path = "/watch") {before after : List (List Char)}
      (query : url.queryPairs = before ++ ('v' :: '=' :: video) :: after)
      (others : ∀ pair ∈ before, decode (Text.before ['='] pair) ≠ "v")
  | path {host : String} (hhost : url.hostStr lib = some host)
      (family : InDomain (Text.asciiLower host.toList) "youtube.com".toList ∨
        InDomain (Text.asciiLower host.toList) "youtube-nocookie.com".toList)
      {kind : List Char} (hkind : kind ∈ pathKinds)
      (path : url.path.toList = '/' :: (kind ++ '/' :: video))
  | short {host : String} (hhost : url.hostStr lib = some host)
      (family : InDomain (Text.asciiLower host.toList) "youtu.be".toList)
      (path : url.path.toList = '/' :: video)

theorem ValidId.ne_nil (h : ValidId video) : video ≠ [] := by
  rintro rfl
  exact absurd h.1 (by decide)

theorem ValidId.not_mem (h : ValidId video) {c : Char} (hc : isIdChar c = false) : c ∉ video := by
  intro hmem
  rw [h.2 c hmem] at hc
  cases hc

/-- The pair of a watch page is decoded to the identity. -/
theorem formPair_video (hlib : lib.ReadsForms decode) (h : ValidId video) :
    formPair decode ('v' :: '=' :: video) = ("v", String.ofList video) := by
  have hsplit : Text.splitOnce ['='] (['v'] ++ (['='] ++ video)) = some (['v'], video) :=
    Text.splitOnce_append (by decide) [] video
  have hname : decode ['v'] = "v" := hlib.plain ['v'] (by simp [isIdChar])
  rw [List.singleton_append, List.singleton_append] at hsplit
  rw [formPair, hsplit]
  dsimp only
  rw [hname, hlib.plain video h.2]

/-- The first pair of the name `v` is the one of the form. -/
theorem watched_of_query (hlib : lib.ReadsForms decode) (h : ValidId video)
    {before after : List (List Char)}
    (query : url.queryPairs = before ++ ('v' :: '=' :: video) :: after)
    (others : ∀ pair ∈ before, decode (Text.before ['='] pair) ≠ "v") :
    url.watched decode = some video := by
  have hnone : ((before.filter fun pair => pair ≠ []).find? fun pair =>
      (formPair decode pair).1 == "v") = none := by
    rw [List.find?_eq_none]
    intro pair hpair
    rw [formPair_fst, beq_iff_eq]
    exact others pair (List.mem_of_mem_filter hpair)
  have hvideo : ((formPair decode ('v' :: '=' :: video)).1 == "v") = true := by
    rw [formPair_video hlib h]
    rfl
  rw [watched_eq, query, List.filter_append, List.find?_append, hnone, Option.none_or,
    List.filter_cons_of_pos (by simp), List.find?_cons, hvideo]
  dsimp only
  rw [Option.map_some, formPair_video hlib h, String.toList_ofList]

/-- The segments of a path of two. -/
theorem segments_of_path {kind : List Char} (hkind : kind ∈ pathKinds) (h : ValidId video) :
    ((('/' :: (kind ++ '/' :: video)).splitOn '/').filter fun segment => segment ≠ []) =
      [kind, video] := by
  have hplain : ∀ kind ∈ pathKinds, '/' ∉ kind ∧ kind ≠ [] := by decide
  obtain ⟨hslash, hne⟩ := hplain kind hkind
  have hparts : ∀ part ∈ [[], kind, video], '/' ∉ part := by
    simp [hslash, h.not_mem (by decide : isIdChar '/' = false)]
  have htext : '/' :: (kind ++ '/' :: video) = ['/'].intercalate [[], kind, video] := by
    simp [List.intercalate_cons_cons]
  rw [htext, List.splitOn_intercalate '/' hparts (by simp)]
  simp [hne, h.ne_nil]

/-- The candidate of a watch page. -/
theorem pathCandidate_watch (path : url.path = "/watch") :
    pathCandidate decode url = url.watched decode := by
  have hsegments : (("/watch".toList.splitOn '/').filter fun segment => segment ≠ []) =
      ["watch".toList] := by decide
  rw [pathCandidate, path, hsegments]
  dsimp only
  rw [if_pos rfl]

/-- The candidate of a path of two segments. -/
theorem pathCandidate_path {kind : List Char} (hkind : kind ∈ pathKinds) (h : ValidId video)
    (path : url.path.toList = '/' :: (kind ++ '/' :: video)) :
    pathCandidate decode url = some video := by
  rw [pathCandidate, path, segments_of_path hkind h]
  dsimp only
  rw [if_pos (List.contains_iff_mem.mpr hkind)]

/-- The candidate of a short link. -/
theorem firstPathSegment_short (h : ValidId video) (path : url.path.toList = '/' :: video) :
    firstPathSegment url = some video := by
  have hslash : '/' ∉ video := h.not_mem (by decide)
  rw [firstPathSegment, path]
  exact congrArg some (Text.before_of_splitOnce_eq_none (Text.splitOnce_eq_none hslash []))

/-- **Every documented form names its video.** -/
theorem resolveIdentity_of_form (hlib : lib.ReadsForms decode) (h : ValidId video)
    (hparse : lib.parse text = some url) (hform : DocumentedForm lib decode video url) :
    resolveIdentity lib decode text = .ok (video, canonicalAddress video) := by
  refine resolveIdentity_eq_ok_iff.mpr ⟨h, rfl, url, ?_⟩
  cases hform with
  | @watch host hhost family path before after query others =>
      refine ⟨host, hparse, hhost, ?_⟩
      rw [identityCandidate_path family, pathCandidate_watch path]
      exact watched_of_query hlib h query others
  | @path host hhost family kind hkind path =>
      refine ⟨host, hparse, hhost, ?_⟩
      rw [identityCandidate_path family]
      exact pathCandidate_path hkind h path
  | @short host hhost family path =>
      refine ⟨host, hparse, hhost, ?_⟩
      rw [identityCandidate_short family]
      exact firstPathSegment_short h path

/-- The canonical address is a documented form. -/
theorem canonical_form (h : ValidId video) :
    DocumentedForm lib decode video ⟨"https", "", none, some (.domain "www.youtube.com"), none,
      "/watch", some ("v=" ++ String.ofList video), none⟩ := by
  have hquery :
      ("v=" ++ String.ofList video).toList.splitOn '&' = [] ++ [('v' :: '=' :: video)] := by
    have hamp : '&' ∉ 'v' :: '=' :: video := by
      simp [h.not_mem (by decide : isIdChar '&' = false)]
    have htext : ("v=" ++ String.ofList video).toList = 'v' :: '=' :: video := by simp
    rw [htext]
    have hparts : ∀ part ∈ ['v' :: '=' :: video], '&' ∉ part := by simpa using hamp
    have hsingle := List.splitOn_intercalate '&' hparts (by simp)
    rwa [List.intercalate_singleton] at hsingle
  have hfamily : InDomain (Text.asciiLower "www.youtube.com".toList) "youtube.com".toList := by
    decide
  exact .watch rfl (Or.inl hfamily) rfl hquery (by simp)

/-- **Video identity is canonical.** What a URL resolves to is a valid identity and its canonical
address, which resolves to the same; if the URL has a normal form, that one takes the transcript
route and resolves to the same; and every documented form of a valid identity resolves to it. -/
theorem video_identity_canonical (hserial : lib.Serializes) (hlib : lib.ReadsForms decode) :
    (∀ text video address, resolveIdentity lib decode text = .ok (video, address) →
      video.length = 11 ∧ (∀ c ∈ video, isIdChar c = true) ∧
      address = "https://www.youtube.com/watch?v=" ++ String.ofList video ∧
      resolveIdentity lib decode address = .ok (video, address) ∧
      ∀ policy n, normalize lib text policy = .ok n →
        classify lib n = .youTube ∧
          resolveIdentity lib decode (lib.asStr n.normalized) = .ok (video, address)) ∧
    ∀ video text url, ValidId video → lib.parse text = some url →
      DocumentedForm lib decode video url →
        resolveIdentity lib decode text = .ok (video, canonicalAddress video) := by
  refine ⟨fun text video address h => ?_, fun video text url h hparse hform =>
    resolveIdentity_of_form hlib h hparse hform⟩
  obtain ⟨hvalid, rfl, -⟩ := resolveIdentity_eq_ok_iff.mp h
  refine ⟨hvalid.1, hvalid.2, rfl, ?_, fun policy n hnorm =>
    resolveIdentity_normal hserial hlib h hnorm⟩
  exact resolveIdentity_of_form hlib hvalid (hlib.canonical video hvalid) (canonical_form hvalid)

end Results

/-! ### The watch pages -/

/-- A watch page. -/
def watchUrl (query : Option String) : Url :=
  ⟨"https", "", none, some (.domain "www.youtube.com"), none, "/watch", query, none⟩

/-- The URL of the text of a watch page, with a valid identity or without one. -/
def parseWatch (text : String) : Option Url :=
  let video := text.toList.drop 32
  if text = "https://www.youtube.com/watch" then some (watchUrl none)
  else if text.toList.take 32 = "https://www.youtube.com/watch?v=".toList ∧ video.length = 11 ∧
      video.all isIdChar then
    some (watchUrl (some ("v=" ++ String.ofList video)))
  else none

/-- The URL functions on the watch pages. -/
def watchLib : UrlLib :=
  { tableLib [] with parse := parseWatch }

/-- What is parsed is a watch page. -/
theorem eq_of_parseWatch {text : String} {url : Url} (h : parseWatch text = some url) :
    url = watchUrl none ∨
      ∃ video, ValidId video ∧ url = watchUrl (some ("v=" ++ String.ofList video)) := by
  rw [parseWatch] at h
  split at h
  · exact Or.inl (Option.some.inj h).symm
  · split at h
    · next hvideo =>
        exact Or.inr ⟨_, ⟨hvideo.2.1, List.all_eq_true.mp hvideo.2.2⟩, (Option.some.inj h).symm⟩
    · cases h

theorem parseWatch_canonical {video : List Char} (h : ValidId video) :
    parseWatch (canonicalAddress video) =
      some (watchUrl (some ("v=" ++ String.ofList video))) := by
  have htext : (canonicalAddress video).toList =
      "https://www.youtube.com/watch?v=".toList ++ video := by
    have hid : (String.ofList video).toList = video := String.toList_ofList
    exact String.toList_append.trans (congrArg (_ ++ ·) hid)
  have htake : (canonicalAddress video).toList.take 32 =
      "https://www.youtube.com/watch?v=".toList := by
    rw [htext]
    exact List.take_left' (by decide +kernel)
  have hdrop : (canonicalAddress video).toList.drop 32 = video := by
    rw [htext]
    exact List.drop_left' (by decide +kernel)
  have hne : canonicalAddress video ≠ "https://www.youtube.com/watch" := by
    intro heq
    rw [heq] at hdrop
    exact h.ne_nil hdrop.symm
  rw [parseWatch, if_neg hne, hdrop, if_pos ⟨htake, h.1, List.all_eq_true.mpr h.2⟩]

/-- The pairs of a watch page. -/
theorem queryPairs_watchUrl {video : List Char} (h : ValidId video) :
    (watchUrl (some ("v=" ++ String.ofList video))).queryPairs = ['v' :: '=' :: video] := by
  have hamp : ∀ part ∈ ['v' :: '=' :: video], '&' ∉ part := by
    simp [h.not_mem (by decide : isIdChar '&' = false)]
  have htext : ("v=" ++ String.ofList video).toList = 'v' :: '=' :: video := by simp
  have hsingle := List.splitOn_intercalate '&' hamp (by simp)
  rw [List.intercalate_singleton] at hsingle
  rw [Url.queryPairs, watchUrl]
  dsimp only
  rw [htext, hsingle]

theorem withPairs_watchUrl (video : List Char) :
    (watchUrl (some ("v=" ++ String.ofList video))).withPairs ['v' :: '=' :: video] =
      watchUrl (some ("v=" ++ String.ofList video)) := by
  have hquery : String.ofList ('v' :: '=' :: video) = "v=" ++ String.ofList video :=
    String.toList_inj.mp (by simp)
  rw [Url.withPairs, List.intercalate_singleton]
  rw [if_neg (List.cons_ne_nil _ _), hquery]
  rfl

theorem tableText_watchUrl (video : List Char) :
    tableText (watchUrl (some ("v=" ++ String.ofList video))) = canonicalAddress video := by
  have hhost : (watchUrl (some ("v=" ++ String.ofList video))).hostStr watchLib =
      some "www.youtube.com" := rfl
  have hid : (String.ofList video).toList = video := String.toList_ofList
  refine String.toList_inj.mp ((tableText_toList [] hhost).trans ?_)
  refine Eq.trans ?_ (String.toList_append.trans (congrArg (_ ++ ·) hid)).symm
  simp [Url.serialized, watchUrl]

theorem watchLib_serializes : watchLib.Serializes where
  serialized _ _ _ _ _ hhost := tableText_toList [] hhost
  rooted text url hparse _ := by
    have hpath : url.path = "/watch" := by
      rcases eq_of_parseWatch hparse with rfl | ⟨video, -, rfl⟩ <;> rfl
    exact ⟨"watch".toList, by rw [hpath]; decide⟩
  reparse text url pairs hparse _ hpairs := by
    have hpage : parseWatch (tableText (watchUrl none)) = some (watchUrl none) := by decide +kernel
    have hnone : ∀ query, (watchUrl query).withPairs [] = watchUrl none := fun _ => rfl
    change parseWatch (tableText (url.withPairs pairs)) = _
    rcases eq_of_parseWatch hparse with rfl | ⟨video, hvalid, rfl⟩
    · obtain rfl := List.sublist_nil.mp hpairs
      rw [hnone]
      exact hpage
    · rw [queryPairs_watchUrl hvalid, List.sublist_singleton] at hpairs
      rcases hpairs with rfl | rfl
      · rw [hnone]
        exact hpage
      · rw [withPairs_watchUrl, tableText_watchUrl]
        exact parseWatch_canonical hvalid

/-- The functions read what they are relied on to read. -/
theorem watchLib_readsForms : watchLib.ReadsForms String.ofList where
  formKey _ _ _ _ := rfl
  plain _ _ := rfl
  lowered text url host hparse _ hhost := by
    have hname : ∀ query, (watchUrl query).hostStr watchLib = some "www.youtube.com" := fun _ => rfl
    have hlowered : Text.asciiLower "www.youtube.com".toList = "www.youtube.com".toList := by decide
    rcases eq_of_parseWatch hparse with rfl | ⟨video, -, rfl⟩
    · rw [hname] at hhost
      rw [← Option.some.inj hhost]
      exact hlowered
    · rw [hname] at hhost
      rw [← Option.some.inj hhost]
      exact hlowered
  canonical _ h := parseWatch_canonical h

/-- The canonical address of a video, and what its normal form resolves to. -/
theorem video_identity_canonical_watch : ∃ n,
    normalize watchLib "https://www.youtube.com/watch?v=dQw4w9WgXcQ" ⟨8192, [80, 443]⟩ = .ok n ∧
      resolveIdentity watchLib String.ofList "https://www.youtube.com/watch?v=dQw4w9WgXcQ" =
        .ok ("dQw4w9WgXcQ".toList, "https://www.youtube.com/watch?v=dQw4w9WgXcQ") ∧
      classify watchLib n = .youTube ∧
      resolveIdentity watchLib String.ofList (watchLib.asStr n.normalized) =
        .ok ("dQw4w9WgXcQ".toList, "https://www.youtube.com/watch?v=dQw4w9WgXcQ") := by
  have hidentity := video_identity_canonical watchLib_serializes watchLib_readsForms
  have hvalid : ValidId "dQw4w9WgXcQ".toList := ⟨by decide, Text.forall_mem_of_all (by decide)⟩
  have haddress : canonicalAddress "dQw4w9WgXcQ".toList =
      "https://www.youtube.com/watch?v=dQw4w9WgXcQ" := by decide +kernel
  have hparse : watchLib.parse (canonicalAddress "dQw4w9WgXcQ".toList) =
      some (watchUrl (some ("v=" ++ String.ofList "dQw4w9WgXcQ".toList))) :=
    parseWatch_canonical hvalid
  have hresolved := hidentity.2 _ _ _ hvalid hparse (canonical_form hvalid)
  rw [haddress] at hresolved
  obtain ⟨n, hn⟩ : ∃ n, normalize watchLib "https://www.youtube.com/watch?v=dQw4w9WgXcQ"
      ⟨8192, [80, 443]⟩ = .ok n := by
    rw [haddress] at hparse
    exact ⟨_, normalize_eq_ok_iff.mpr ⟨by decide +kernel, by decide +kernel, _, hparse, Or.inr rfl,
      rfl, rfl, rfl, by decide, ⟨443, rfl, by decide⟩, rfl, rfl⟩⟩
  exact ⟨n, hn, hresolved, (hidentity.1 _ _ _ hresolved).2.2.2.2 _ n hn⟩

end Extractor
