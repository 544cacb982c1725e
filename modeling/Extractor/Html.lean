import Extractor.Pipeline

/-!
# HTML documents

`from_html` of `crates/document-ir`: one parsed tree, three candidates (`candidate.rs`), the
shared evaluator, and the document of the best accepted candidate.

HTML is parsed by `html5ever` into an `ego_tree` arena, both outside the repository; the parsed
tree is part of the parameter `HtmlLib`. The nodes of the arena stand in the order of their
creation and include those that the parser detached again, so the elements of a document are a
list of subtrees and not one tree.

## Main definitions

* `HtmlNode`, `HtmlElement`, `HtmlDom`: the parsed tree.
* `extractCandidates`: the semantic, the readability and the density candidate.
* `fromHtml`: the conversion.
-/

namespace Extractor

/-! ### Trees -/

/-- A node: an element with its name, its `lang` attribute and its children, a text, or another
node (a document, a comment or the contents of a template). -/
inductive HtmlNode
  | element (name : String) (lang : Option String) (children : List HtmlNode)
  | text (text : String)
  | other (children : List HtmlNode)

/-- `Element`. -/
structure HtmlElement where
  name : String
  lang : Option String
  children : List HtmlNode

/-- `HtmlDom`: the number of nodes, and the elements among them. -/
structure HtmlDom where
  nodeCount : ℕ
  elements : List HtmlElement

/-- What the HTML, hash and contract crates compute. -/
structure HtmlLib where
  documents : DocumentLib
  /-- `HtmlDom::parse` of the lossily decoded source. -/
  parse : List UInt8 → HtmlDom
  /-- `LanguageTag::parse` accepts a text. -/
  languageIsValid : String → Bool

/-- The texts under some nodes, in document order. -/
def HtmlNode.texts : List HtmlNode → List String
  | [] => []
  | .element _ _ children :: rest => texts children ++ texts rest
  | .text t :: rest => t :: texts rest
  | .other children :: rest => texts children ++ texts rest

/-- The elements among some nodes and their descendants, in document order. -/
def HtmlNode.elements : List HtmlNode → List HtmlElement
  | [] => []
  | .element name lang children :: rest =>
      ⟨name, lang, children⟩ :: (elements children ++ elements rest)
  | .text _ :: rest => elements rest
  | .other children :: rest => elements children ++ elements rest

/-- `Element::text`. -/
def HtmlElement.texts (e : HtmlElement) : List String := HtmlNode.texts e.children

/-- `Element::elements`. The descendants of a node in an `ego_tree` start with the node itself,
so the element stands twice at the front. -/
def HtmlElement.elements (e : HtmlElement) : List HtmlElement :=
  e :: HtmlNode.elements [.element e.name e.lang e.children]

/-! ### Blocks -/

/-- `normalized_text`. -/
def normalizedText (e : HtmlElement) : Option String :=
  let text := joinWords (e.texts.flatMap fun t => Text.splitWhitespace t.toList)
  if text = "" then none else some text

/-- `heading`. -/
def heading (level : ℕ) (e : HtmlElement) : Option DocumentBlock :=
  (normalizedText e).map (headingBlock level)

/-- `block`. -/
def block (e : HtmlElement) : Option DocumentBlock :=
  match e.name with
  | "h1" => heading 1 e
  | "h2" => heading 2 e
  | "h3" => heading 3 e
  | "h4" => heading 4 e
  | "h5" => heading 5 e
  | "h6" => heading 6 e
  | "p" => (normalizedText e).map paragraphBlock
  | _ => none

/-- `blocks`: one block for each heading and paragraph under an element. -/
def HtmlElement.blocks (e : HtmlElement) : List DocumentBlock :=
  e.elements.filterMap block

/-! ### Candidates -/

/-- `Strategy`. -/
inductive Strategy
  | semantic
  | readability
  | density
  deriving DecidableEq

/-- `Strategy::as_str`. -/
def Strategy.asStr : Strategy → String
  | .semantic => "semantic"
  | .readability => "readability"
  | .density => "density"

/-- `Candidate`. -/
structure Candidate where
  strategy : Strategy
  blocks : List DocumentBlock
  linkCharacters : ℕ
  boilerplateCharacters : ℕ

/-- `empty`. -/
def emptyCandidate (strategy : Strategy) : Candidate := ⟨strategy, [], 0, 0⟩

/-- `candidate`. -/
def candidateOf (strategy : Strategy) (root : HtmlElement) : Candidate where
  strategy := strategy
  blocks := root.blocks
  linkCharacters :=
    (((root.elements.filter fun e => e.name == "a").filterMap normalizedText).map
      String.utf8ByteSize).sum
  boilerplateCharacters :=
    (((root.elements.filter fun e =>
      ["aside", "footer", "form", "header", "nav"].contains e.name).flatMap
        HtmlElement.blocks).map blockTextLen).sum

/-- `semantic`. -/
def semanticCandidate (dom : HtmlDom) : Candidate :=
  let root := ["article", "main"].findSome? fun name =>
    (dom.elements.filter fun e => e.name == name).find? fun e => e.blocks ≠ []
  (root.map (candidateOf .semantic)).getD (emptyCandidate .semantic)

/-- `Iterator::max_by_key` on scored values: the last one of the highest score. -/
def maxByScore {α : Type} (scored : List (ℕ × α)) : Option (ℕ × α) :=
  scored.foldl (fun best x =>
    match best with
    | none => some x
    | some y => if y.1 ≤ x.1 then some x else some y) none

/-- The containers that `best_container` compares. -/
def isContainer (e : HtmlElement) : Bool :=
  ["article", "main", "section", "div", "body", "html"].contains e.name

/-- `best_container`. -/
def bestContainer (dom : HtmlDom) (strategy : Strategy) (score : ℕ → ℕ → ℕ) : Candidate :=
  let scored := (dom.elements.filter isContainer).map fun e =>
    let candidate := candidateOf strategy e
    let text := (candidate.blocks.map blockTextLen).sum - candidate.linkCharacters -
      candidate.boilerplateCharacters
    (score text e.elements.length, candidate)
  ((maxByScore scored).map Prod.snd).getD (emptyCandidate strategy)

/-- `readability`. -/
def readabilityCandidate (dom : HtmlDom) : Candidate :=
  bestContainer dom .readability fun text _ => text

/-- `density`. -/
def densityCandidate (dom : HtmlDom) : Candidate :=
  bestContainer dom .density fun text elements => saturatingMul text 1000 / max elements 1

/-- `extract`. -/
def extractCandidates (dom : HtmlDom) : List Candidate :=
  [semanticCandidate dom, readabilityCandidate dom, densityCandidate dom]

/-- `evaluate`. -/
def evaluate (title : Option String) (candidate : Candidate) : CandidateDecision :=
  decisionOf candidate.strategy.asStr candidate.blocks candidate.linkCharacters
    candidate.boilerplateCharacters title

/-- `winner`: the first accepted decision of the highest score. -/
def winner (decisions : List CandidateDecision) (acceptedOnly : Bool) :
    Option CandidateDecision :=
  (decisions.filter fun d => !acceptedOnly || d.accepted).foldl (fun best d =>
    match best with
    | none => some d
    | some b => if b.score < d.score then some d else some b) none

/-! ### Conversion -/

/-- What an adapter passes to `assemble_document` beside the owner, the address and the source
blob. -/
structure Assembly where
  strategy : String
  title : Option String
  language : Option String
  blocks : List DocumentBlock

/-- `assemble_document` of an assembly. -/
def Assembly.document (assembly : Assembly) (lib : DocumentLib) (owner : Uuid)
    (sourceAddress : String) (sourceBlob : BlobRef) : Except DocumentIrError Document :=
  assembleDocument lib owner sourceAddress sourceBlob assembly.strategy assembly.title
    assembly.language assembly.blocks

/-- The texts of the blocks and the title. -/
def Assembly.contents (assembly : Assembly) : List String :=
  assembly.title.toList ++ assembly.blocks.map DocumentBlock.text

/-- The title: that of the first `title` element with a text. -/
def HtmlDom.title (dom : HtmlDom) : Option String :=
  dom.elements.findSome? fun e => if e.name = "title" then normalizedText e else none

/-- The language: that of the first `html` element with a valid tag. -/
def HtmlDom.language (lib : HtmlLib) (dom : HtmlDom) : Option String :=
  dom.elements.findSome? fun e =>
    if e.name = "html" then e.lang.filter lib.languageIsValid else none

/-- `from_html` up to the assembly: the budgets, the candidates and the choice among them. -/
def htmlAssembly (lib : HtmlLib) (input : DocumentInput) (limits : ParserConfig) :
    Except DocumentIrError (Assembly × List CandidateDecision) := do
  require (input.bytes.length ≤ limits.maxInputBytes) DocumentIrError.resourceLimit
  let dom := lib.parse input.bytes
  require (dom.nodeCount ≤ limits.maxDomNodes) DocumentIrError.resourceLimit
  let title := dom.title
  let candidates := extractCandidates dom
  let decisions := candidates.map (evaluate title)
  let best := (winner decisions true).bind fun d =>
    candidates.find? fun c => c.strategy.asStr == d.strategy
  let best ← okOr best (DocumentIrError.lowQuality decisions)
  let selected ← okOr (candidates.find? fun c => c.strategy == best.strategy)
    DocumentIrError.invalidIdentity
  return (⟨selected.strategy.asStr, title, dom.language lib, selected.blocks⟩,
    decisions.map fun d => { d with selected := d.strategy == best.strategy.asStr })

/-- `from_html`. -/
def fromHtml (lib : HtmlLib) (input : DocumentInput) (limits : ParserConfig) :
    Except DocumentIrError Extraction := do
  let (assembly, decisions) ← htmlAssembly lib input limits
  let document ← assembly.document lib.documents input.owner input.sourceAddress input.sourceBlob
  return ⟨document, decisions⟩

end Extractor
