import Mathlib.Data.Int.Notation
import Extractor.DocumentIr
import Extractor.UrlRouting

/-!
# Provider payloads

`crates/providers`: the conversion of Hacker News items and Reddit listings into a document,
the link that a link post carries, and the address of the native representation.

The JSON payloads are decoded by `serde_json` and the HTML of an item text by an HTML5 parser;
both are outside the repository and part of the parameter `ProviderLib`.

## Main definitions

* `fromAlgolia`, `fromListings`: the two adapters.
* `fromProvider`: the conversion with its link rule and its quality gate.
* `providerRequest`: the address that a source URL maps to.
-/

namespace Extractor

/-! ### Values -/

/-- `SourceRoute` of `crates/providers`. -/
inductive ProviderRoute
  | hackerNews
  | reddit
  deriving DecidableEq

/-- `ProviderLimits`. -/
structure ProviderLimits where
  maxInputBytes : ℕ
  maxBlocks : ℕ

/-- `ProviderError`. -/
inductive ProviderError
  | resourceLimit
  | schema
  | invalidUrl
  | lowQuality (candidates : List CandidateDecision)
  | serialization
  deriving DecidableEq

/-- `AlgoliaItem`. -/
structure AlgoliaItem where
  children : List AlgoliaItem
  id : Option ℤ
  text : Option String
  title : Option String
  url : Option String

/-- `Posting`, with the members of its data. The replies of a posting are a JSON value that
`walk_replies` decodes; here they are the postings it finds, none where it finds no listing. -/
structure Posting where
  kind : String
  body : Option String
  selftext : Option String
  title : Option String
  url : Option String
  replies : List Posting

/-- `Listing`. -/
structure Listing where
  children : List Posting

/-- What the URL, hash, JSON and HTML crates compute. -/
structure ProviderLib where
  urlLib : UrlLib
  documents : DocumentLib
  /-- `serde_json::from_slice::<AlgoliaItem>`. -/
  algoliaItem : List UInt8 → Option AlgoliaItem
  /-- `serde_json::from_slice::<Vec<Listing>>`. -/
  listings : List UInt8 → Option (List Listing)
  /-- The text nodes of the body of a parsed HTML fragment. -/
  bodyTexts : String → Option (List String)
  /-- `DocumentAddress::parse` accepts a text. -/
  addressIsValid : String → Bool
  /-- The pairs of a query, form-decoded. -/
  queryPairs : String → List (String × String)

/-- `AdapterExtraction`: title, link, blocks and decision. -/
structure AdapterExtraction where
  title : Option String
  externalUrl : Option String
  blocks : List DocumentBlock
  decision : CandidateDecision

/-! ### Hacker News -/

/-- `HACKER_NEWS_STRATEGY`. -/
def hackerNewsStrategy : String := "hacker_news_item"

/-- Words joined by single spaces. -/
def joinWords (words : List (List Char)) : String :=
  String.ofList ([' '].intercalate words)

section Adapters

variable (lib : ProviderLib) (limits : ProviderLimits)

/-- `plain_text_fragment`. -/
def plainTextFragment (html : String) : Option String :=
  (lib.bodyTexts html).bind fun texts =>
    let text := joinWords (texts.flatMap fun t => Text.splitWhitespace t.toList)
    if text = "" then none else some text

/-- One more paragraph, within the block budget. -/
def pushParagraph (text : Option String) (blocks : List DocumentBlock) :
    Except ProviderError (List DocumentBlock) :=
  match text with
  | none => .ok blocks
  | some text =>
      if limits.maxBlocks ≤ blocks.length then .error .resourceLimit
      else .ok (blocks ++ [paragraphBlock text])

/-- `push_fragment`. -/
def pushFragment (html : Option String) (blocks : List DocumentBlock) :
    Except ProviderError (List DocumentBlock) :=
  pushParagraph limits (html.bind (plainTextFragment lib)) blocks

/-- `collect_comments`. -/
def collectComments :
    List AlgoliaItem → List DocumentBlock → Except ProviderError (List DocumentBlock)
  | [], blocks => .ok blocks
  | ⟨children, _, text, _, _⟩ :: rest, blocks => do
      let blocks ← pushFragment lib limits text blocks
      let blocks ← collectComments children blocks
      collectComments rest blocks

/-- A title that is not blank, trimmed. -/
def trimmedTitle (title : Option String) : Except ProviderError String := do
  let title ← okOr title ProviderError.schema
  let trimmed := Text.trim title.toList
  require (trimmed ≠ []) ProviderError.schema
  return String.ofList trimmed

/-- `from_algolia`. -/
def fromAlgolia (bytes : List UInt8) : Except ProviderError AdapterExtraction := do
  require (bytes.length ≤ limits.maxInputBytes) ProviderError.resourceLimit
  let root ← okOr (lib.algoliaItem bytes) ProviderError.schema
  require root.id.isSome ProviderError.schema
  let title ← trimmedTitle root.title
  let blocks ← pushFragment lib limits root.text [headingBlock 1 title]
  let blocks ← collectComments lib limits root.children blocks
  return ⟨some title, root.url, blocks, evaluatePlainText hackerNewsStrategy blocks (some title)⟩

/-! ### Reddit -/

/-- `REDDIT_STRATEGY`. -/
def redditStrategy : String := "reddit_post"

/-- `push_text`. -/
def pushText (text : Option String) (blocks : List DocumentBlock) :
    Except ProviderError (List DocumentBlock) :=
  let trimmed := (text.map fun t => Text.trim t.toList).filter fun t => t ≠ []
  pushParagraph limits (trimmed.map fun t => joinWords (Text.splitWhitespace t)) blocks

/-- The number of postings under some postings. -/
def Posting.count : List Posting → ℕ
  | [] => 0
  | ⟨_, _, _, _, _, replies⟩ :: rest => 1 + count replies + count rest

theorem Posting.count_cons (p : Posting) (rest : List Posting) :
    count (p :: rest) = 1 + count p.replies + count rest := by
  obtain ⟨kind, body, selftext, title, url, replies⟩ := p
  rw [count]

theorem Posting.count_append (xs ys : List Posting) :
    count (xs ++ ys) = count xs + count ys := by
  induction xs with
  | nil => simp [count]
  | cons x xs ih =>
      rw [List.cons_append, count_cons, count_cons, ih]
      omega

/-- The queue loop of `from_listings`: comments in breadth-first order. -/
def walkQueue (queue : List Posting) (blocks : List DocumentBlock) :
    Except ProviderError (List DocumentBlock) :=
  match queue with
  | [] => .ok blocks
  | posting :: rest => do
      let blocks ← if posting.kind = "t1" then pushText limits posting.body blocks else .ok blocks
      walkQueue (rest ++ posting.replies) blocks
termination_by Posting.count queue
decreasing_by
  rw [Posting.count_append, Posting.count_cons]
  omega

/-- The comments beside the post. -/
def pushComments : List Posting → List DocumentBlock → Except ProviderError (List DocumentBlock)
  | [], blocks => .ok blocks
  | posting :: rest, blocks => do
      let blocks ← if posting.kind = "t1" then pushText limits posting.body blocks else .ok blocks
      pushComments rest blocks

/-- `from_listings`. -/
def fromListings (bytes : List UInt8) : Except ProviderError AdapterExtraction := do
  let listings ← okOr (lib.listings bytes) ProviderError.schema
  let postings := (listings.flatMap Listing.children).dropWhile fun p => p.kind != "t3"
  let post ← okOr postings.head? ProviderError.schema
  let title ← trimmedTitle post.title
  let blocks ← pushText limits post.selftext [headingBlock 1 title]
  let blocks ← walkQueue limits [post] blocks
  let blocks ← pushComments limits postings.tail blocks
  return ⟨some title, post.url, blocks, evaluatePlainText redditStrategy blocks (some title)⟩

end Adapters

/-! ### Links -/

/-- `host_is`. -/
def hostIs (host : Option String) (base : String) : Bool :=
  host.any fun host => hostMatches host base

/-- The host families of a provider. -/
def ProviderRoute.family (route : ProviderRoute) (host : Option String) : Bool :=
  match route with
  | .hackerNews => hostIs host "news.ycombinator.com"
  | .reddit => hostIs host "reddit.com" || hostIs host "redd.it"

/-- `points_back_to_source` of `crates/providers`: a link that does not parse points back. -/
def providerPointsBack (lib : UrlLib) (route : ProviderRoute) (url : String) : Bool :=
  match lib.parse url with
  | none => true
  | some parsed => route.family (parsed.hostStr lib)

/-- The link that `from_provider` keeps: not blank, and not back at the provider. -/
def keptLink (lib : UrlLib) (route : ProviderRoute) (raw : Option String) : Option String :=
  let trimmed := (raw.map fun url => Text.trim url.toList).filter fun url => url ≠ []
  (trimmed.map String.ofList).filter fun url => !providerPointsBack lib route url

/-- `registrable_domain`: the last two labels. -/
def registrableDomain (host : String) : List Char :=
  let host := Text.asciiLower (Text.trimEndMatches '.' host.toList)
  match (host.splitOn '.').reverse with
  | tld :: second :: _ => second ++ '.' :: tld
  | [tld] => tld
  | [] => []

/-- `points_back_to_source` of the pipeline: true unless both URLs have hosts of different
registrable domains. -/
def pointsBackToSource (lib : UrlLib) (sourceUrl targetUrl : String) : Bool :=
  match lib.parse sourceUrl, lib.parse targetUrl with
  | some source, some target =>
      match source.hostStr lib, target.hostStr lib with
      | some sourceHost, some targetHost =>
          registrableDomain sourceHost == registrableDomain targetHost
      | _, _ => true
  | _, _ => true

/-! ### Conversion -/

/-- `ProviderInput`. -/
structure ProviderInput where
  owner : Uuid
  sourceAddress : String
  sourceBlob : BlobRef
  route : ProviderRoute
  bytes : List UInt8

/-- `ProviderExtraction`. -/
structure ProviderExtraction where
  document : Document
  externalUrl : Option String
  candidates : List CandidateDecision

/-- The strategy of a provider. -/
def ProviderRoute.strategy : ProviderRoute → String
  | .hackerNews => hackerNewsStrategy
  | .reddit => redditStrategy

/-- The adapter of a provider. -/
def ProviderRoute.adapter (lib : ProviderLib) (limits : ProviderLimits) (route : ProviderRoute)
    (bytes : List UInt8) : Except ProviderError AdapterExtraction :=
  match route with
  | .hackerNews => fromAlgolia lib limits bytes
  | .reddit => fromListings lib limits bytes

/-- `provider_identity_error`. -/
def providerIdentityError : DocumentIrError → ProviderError
  | .serialization => .serialization
  | _ => .invalidUrl

/-- `from_provider`. -/
def fromProvider (lib : ProviderLib) (input : ProviderInput) (limits : ProviderLimits) :
    Except ProviderError ProviderExtraction := do
  require (input.bytes.length ≤ limits.maxInputBytes) ProviderError.resourceLimit
  let adapted ← input.route.adapter lib limits input.bytes
  let externalUrl := keptLink lib.urlLib input.route adapted.externalUrl
  require (adapted.decision.accepted ∨ externalUrl.isSome)
    (ProviderError.lowQuality [adapted.decision])
  let decision := { adapted.decision with selected := true }
  let document ← (assembleDocument lib.documents input.owner input.sourceAddress input.sourceBlob
    input.route.strategy adapted.title none decision.blocks).mapError providerIdentityError
  return ⟨document, externalUrl, [decision]⟩

/-! ### Addresses -/

section Request

variable (lib : ProviderLib)

/-- An address of the native representation, if the contract accepts it. -/
def nativeAddress (address : String) : Except ProviderError (Option String) :=
  if lib.addressIsValid address then .ok (some address) else .error .invalidUrl

/-- `hacker_news_request`. -/
def hackerNewsRequest (parsed : Url) : Except ProviderError (Option String) :=
  if !hostIs (parsed.hostStr lib.urlLib) "news.ycombinator.com" || parsed.path != "/item" then
    .ok none
  else
    match (((parsed.query.map lib.queryPairs).getD []).find? fun p => p.1 == "id").map Prod.snd with
    | none => .ok none
    | some id =>
        if id = "" || !id.toList.all Char.isDigit then .ok none
        else nativeAddress lib ("https://hn.algolia.com/api/v1/items/" ++ id)

/-- The segments of a comments permalink. -/
def isPermalink : List (List Char) → Bool
  | kind :: subreddit :: comments :: tail =>
      kind == "r".toList && comments == "comments".toList && !subreddit.isEmpty &&
        !tail.any List.isEmpty
  | _ => false

/-- `reddit_request`. -/
def redditRequest (parsed : Url) : Except ProviderError (Option String) :=
  if parsed.hostStr lib.urlLib ≠ some "www.reddit.com" ∧
      parsed.hostStr lib.urlLib ≠ some "reddit.com" then .ok none
  else if !isPermalink ((Text.trimMatches '/' parsed.path.toList).splitOn '/') then .ok none
  else
    let path := if parsed.path.toList.getLast? = some '/' then parsed.path else parsed.path ++ "/"
    nativeAddress lib
      (lib.urlLib.asStr { parsed with fragment := none, path := path ++ ".json" })

/-- `provider_request`. -/
def providerRequest (route : ProviderRoute) (url : String) :
    Except ProviderError (Option String) := do
  let parsed ← okOr (lib.urlLib.parse url) ProviderError.invalidUrl
  match route with
  | .hackerNews => hackerNewsRequest lib parsed
  | .reddit => redditRequest lib parsed

end Request

end Extractor
