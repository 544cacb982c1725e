import Extractor.CandidateChoice
import Extractor.ContentTexts
import Extractor.Lib.Arena
import Extractor.TextNodes

/-!
# The tree that HTML is parsed to

`crates/document-ir/src/dom.rs`: `DomSink` builds an `ego_tree` arena for the tree builder of
`html5ever`, and `HtmlDom` shows it to the extraction. The arena is a parameter, with what its crate
documents of each operation as a hypothesis. The tree builder may call the sink in any order, with
the handles that it was given, as long as it keeps what the documentation of `TreeSink` promises of
it; whether it puts a node under itself is left open.

## Main definitions

* `EgoTree`, `EgoTree.Documented`: the arena, and what its operations do to what can be read of it.
* `SinkState.Promised`, `SinkState.Closes`: what the tree builder promises, and the calls that put a
  node under one that is under it.

## Main results

* `sink_keeps_forest`: for every sequence of calls, parents and children agree, no text is lost,
  duplicated or overwritten, and exactly the calls that close a loop make a cycle.
* `parsed_dom_bounded`: what the extraction sees of a tree without cycle, and that the node limit
  bounds it.
-/

namespace Extractor

namespace DomSink

/-! ### Data -/

/-- `QualName`. -/
structure QualName where
  pfx : Option String
  ns : String
  localName : String
  deriving DecidableEq

/-- `Attribute`. -/
structure Attribute where
  name : QualName
  value : String
  deriving DecidableEq

/-- `NodeKind`. -/
inductive NodeKind
  | document
  | fragment
  | element (attrs : List Attribute)
  | text (text : String)
  | other
  deriving DecidableEq

/-- `Node`. -/
structure Node where
  name : QualName
  kind : NodeKind
  deriving DecidableEq

/-- `Node::new`. -/
def Node.new (kind : NodeKind) : Node := ⟨⟨none, "", ""⟩, kind⟩

instance : Inhabited Node := ⟨.new .other⟩

/-- `Node::element`. -/
def Node.element (name : QualName) (attrs : List Attribute) : Node := ⟨name, .element attrs⟩

/-- `expanded_name!(html "template")`. -/
def QualName.isTemplate (name : QualName) : Bool :=
  name.ns == "http://www.w3.org/1999/xhtml" && name.localName == "template"

/-! ### The arena -/

/-- The operations of `ego_tree::Tree` that the sink uses. A `NodeId` is the number of the nodes
that were created before the node. -/
structure EgoTree (α : Type) where
  Tree : Type
  new : α → Tree
  /-- `nodes().count()`. -/
  count : Tree → ℕ
  /-- `get`, with `NodeRef::value`. -/
  get : Tree → ℕ → Option α
  parent : Tree → ℕ → Option ℕ
  /-- `children`; its ends are `first_child` and `last_child`. -/
  children : Tree → ℕ → List ℕ
  orphan : Tree → α → Tree
  /-- A write through `NodeMut::value`. -/
  update : Tree → ℕ → (α → α) → Tree
  detach : Tree → ℕ → Tree
  appendId : Tree → ℕ → ℕ → Tree
  append : Tree → ℕ → α → Tree
  insertIdBefore : Tree → ℕ → ℕ → Tree
  insertBefore : Tree → ℕ → α → Tree
  reparentFromIdAppend : Tree → ℕ → ℕ → Tree

namespace EgoTree

variable {α : Type} (E : EgoTree α)

/-- `prev_sibling`. -/
def prevSibling (t : E.Tree) (c : ℕ) : Option ℕ :=
  (E.parent t c).bind fun p => ((E.children t p).takeWhile (· != c)).getLast?

/-- What can be read of a tree. -/
structure Reads (t : E.Tree) (count : ℕ) (get : ℕ → Option α) (parent : ℕ → Option ℕ)
    (children : ℕ → List ℕ) : Prop where
  count_eq : E.count t = count
  get_eq : E.get t = get
  parent_eq : E.parent t = parent
  children_eq : E.children t = children

/-- **What the crate documents** of each operation, for nodes of the tree. A node is put under a
parent or beside a sibling only when it stands alone, and never under or beside itself. -/
structure Documented : Prop where
  /-- The nodes of the tree are found. -/
  get_isSome : ∀ t c, (E.get t c).isSome = true ↔ c < E.count t
  /-- A tree with its root. -/
  new : ∀ a, E.Reads (E.new a) 1 (Function.update (fun _ => none) 0 (some a)) (fun _ => none)
    fun _ => []
  /-- An orphan has no parent and no children. -/
  orphan : ∀ t a, E.Reads (E.orphan t a) (E.count t + 1)
    (Function.update (E.get t) (E.count t) (some a)) (E.parent t) (E.children t)
  /-- A value is written in place. -/
  update : ∀ t c f, c < E.count t → E.Reads (E.update t c f) (E.count t)
    (Function.update (E.get t) c ((E.get t c).map f)) (E.parent t) (E.children t)
  /-- A node is taken from its parent. -/
  detach : ∀ t c p, E.parent t c = some p → E.Reads (E.detach t c) (E.count t) (E.get t)
    (Function.update (E.parent t) c none)
    (Function.update (E.children t) p ((E.children t p).erase c))
  /-- Without a parent nothing is done. -/
  detach_orphan : ∀ t c, c < E.count t → E.parent t c = none →
    E.Reads (E.detach t c) (E.count t) (E.get t) (E.parent t) (E.children t)
  /-- A node becomes the last child. -/
  appendId : ∀ t p c, p < E.count t → c < E.count t → E.parent t c = none → p ≠ c →
    E.Reads (E.appendId t p c) (E.count t) (E.get t) (Function.update (E.parent t) c (some p))
      (Function.update (E.children t) p (E.children t p ++ [c]))
  /-- A new node becomes the last child. -/
  append : ∀ t p a, p < E.count t → E.Reads (E.append t p a) (E.count t + 1)
    (Function.update (E.get t) (E.count t) (some a))
    (Function.update (E.parent t) (E.count t) (some p))
    (Function.update (E.children t) p (E.children t p ++ [E.count t]))
  /-- A node becomes the previous sibling. -/
  insertIdBefore : ∀ t s c p, E.parent t s = some p → c < E.count t → E.parent t c = none → s ≠ c →
    E.Reads (E.insertIdBefore t s c) (E.count t) (E.get t)
      (Function.update (E.parent t) c (some p))
      (Function.update (E.children t) p (Arena.putBefore s c (E.children t p)))
  /-- A new node becomes the previous sibling. -/
  insertBefore : ∀ t s a p, E.parent t s = some p → E.Reads (E.insertBefore t s a)
    (E.count t + 1) (Function.update (E.get t) (E.count t) (some a))
    (Function.update (E.parent t) (E.count t) (some p))
    (Function.update (E.children t) p (Arena.putBefore s (E.count t) (E.children t p)))
  /-- The children of another node become the last children of this one. -/
  reparent : ∀ t p src, p < E.count t → src < E.count t → src ≠ p →
    E.Reads (E.reparentFromIdAppend t p src) (E.count t) (E.get t)
      (fun c => if c ∈ E.children t src then some p else E.parent t c)
      (Function.update (Function.update (E.children t) src []) p
        (E.children t p ++ E.children t src))

variable [Inhabited α]

/-- The nodes, as they are read. -/
def read (t : E.Tree) : Arena α :=
  ⟨E.count t, fun c => (E.get t c).getD default, E.parent t, E.children t⟩

variable {E} {t : E.Tree} {a : α} {c p s : ℕ}

theorem Reads.read_eq {n : ℕ} {get : ℕ → Option α} {parent : ℕ → Option ℕ}
    {children : ℕ → List ℕ} (h : E.Reads t n get parent children) :
    E.read t = ⟨n, fun c => (get c).getD default, parent, children⟩ := by
  rw [read, h.count_eq, h.get_eq, h.parent_eq, h.children_eq]

theorem getD_update (get : ℕ → Option α) (c : ℕ) (a : α) :
    (fun x => (Function.update get c (some a) x).getD default) =
      Function.update (fun x => (get x).getD default) c a := by
  funext x
  by_cases hx : x = c
  · subst hx
    rw [Function.update_self, Function.update_self]
    rfl
  · rw [Function.update_of_ne hx, Function.update_of_ne hx]

namespace Documented

variable (hE : E.Documented)
include hE

theorem isSome_get : (E.get t c).isSome = true ↔ c < (E.read t).size := hE.get_isSome t c

theorem get_eq_some (hc : c < (E.read t).size) : E.get t c = some ((E.read t).value c) := by
  obtain ⟨a, ha⟩ := Option.isSome_iff_exists.mp (hE.isSome_get.mpr hc)
  have hvalue : (E.read t).value c = (E.get t c).getD default := rfl
  rw [hvalue, ha]
  rfl

theorem read_new : E.read (E.new a) = ⟨1, Function.update (fun _ => default) 0 a, fun _ => none,
    fun _ => []⟩ := by
  rw [(hE.new a).read_eq, getD_update]
  rfl

theorem read_orphan : E.read (E.orphan t a) = (E.read t).orphan a := by
  rw [(hE.orphan t a).read_eq, getD_update]
  rfl

theorem read_update (hc : c < (E.read t).size) (f : α → α) :
    E.read (E.update t c f) = (E.read t).modify c f := by
  rw [(hE.update t c f hc).read_eq, hE.get_eq_some hc, Option.map_some, getD_update]
  rfl

theorem read_detach (hc : c < (E.read t).size) : E.read (E.detach t c) = (E.read t).detach c := by
  unfold Arena.detach
  cases hp : (E.read t).parent c with
  | none => exact (hE.detach_orphan t c hc hp).read_eq
  | some p => exact (hE.detach t c p hp).read_eq

theorem read_appendId (hp : p < (E.read t).size) (hc : c < (E.read t).size)
    (halone : (E.read t).parent c = none) (hne : p ≠ c) :
    E.read (E.appendId t p c) = (E.read t).link p c ((E.read t).children p ++ [c]) :=
  (hE.appendId t p c hp hc halone hne).read_eq

theorem read_append (hp : p < (E.read t).size) : E.read (E.append t p a) =
    ((E.read t).orphan a).link p (E.read t).size ((E.read t).children p ++ [(E.read t).size]) := by
  rw [(hE.append t p a hp).read_eq, getD_update]
  rfl

theorem read_insertIdBefore (hs : (E.read t).parent s = some p) (hc : c < (E.read t).size)
    (halone : (E.read t).parent c = none) (hne : s ≠ c) : E.read (E.insertIdBefore t s c) =
      (E.read t).link p c (Arena.putBefore s c ((E.read t).children p)) :=
  (hE.insertIdBefore t s c p hs hc halone hne).read_eq

theorem read_insertBefore (hs : (E.read t).parent s = some p) : E.read (E.insertBefore t s a) =
    ((E.read t).orphan a).link p (E.read t).size
      (Arena.putBefore s (E.read t).size ((E.read t).children p)) := by
  rw [(hE.insertBefore t s a p hs).read_eq, getD_update]
  rfl

theorem read_reparent {src : ℕ} (hp : p < (E.read t).size) (hsrc : src < (E.read t).size)
    (hne : src ≠ p) : E.read (E.reparentFromIdAppend t p src) = (E.read t).reparent src p :=
  (hE.reparent t p src hp hsrc hne).read_eq

end Documented

end EgoTree

/-- `NodeOrText`. -/
inductive NodeOrText
  | appendNode (node : ℕ)
  | appendText (text : String)

/-- The text that is handed over. -/
def NodeOrText.text : NodeOrText → List Char
  | .appendNode _ => []
  | .appendText text => text.toList

/-! ### The sink -/

section Sink

variable (E : EgoTree Node)

/-- `HtmlDom::new`. -/
def new : E.Tree := E.new (.new .document)

/-- `create_element`; the element is the node `E.count dom`. -/
def createElement (dom : E.Tree) (name : QualName) (attrs : List Attribute) : E.Tree :=
  if name.isTemplate then
    E.append (E.orphan dom (.element name attrs)) (E.count dom) (.new .fragment)
  else E.orphan dom (.element name attrs)

/-- `create_comment` and `create_pi`; the node is `E.count dom`. -/
def createOther (dom : E.Tree) : E.Tree := E.orphan dom (.new .other)

/-- The text is joined to the node in front of its place, if that is a text. -/
def joinText (dom : E.Tree) (front : Option ℕ) (text : String) : Option E.Tree :=
  front.bind fun c => (E.get dom c).bind fun node =>
    match node.kind with
    | .text existing =>
        some (E.update dom c fun node => { node with kind := .text (existing ++ text) })
    | _ => none

/-- `append`. -/
def append (dom : E.Tree) (parent : ℕ) (child : NodeOrText) : E.Tree :=
  if (E.get dom parent).isSome then
    match child with
    | .appendNode node => E.appendId dom parent node
    | .appendText text =>
        match joinText E dom (E.children dom parent).getLast? text with
        | some joined => joined
        | none => E.append dom parent (.new (.text text))
  else dom

/-- The end of `append_before_sibling`, once the child is detached. -/
def placeBefore (dom : E.Tree) (sibling : ℕ) (child : NodeOrText) : E.Tree :=
  if (E.get dom sibling).isSome then
    match E.parent dom sibling with
    | none => dom
    | some _ =>
        match child with
        | .appendNode node => E.insertIdBefore dom sibling node
        | .appendText text =>
            match joinText E dom (E.prevSibling dom sibling) text with
            | some joined => joined
            | none => E.insertBefore dom sibling (.new (.text text))
  else dom

/-- `append_before_sibling`. -/
def appendBeforeSibling (dom : E.Tree) (sibling : ℕ) (child : NodeOrText) : E.Tree :=
  match child with
  | .appendNode node =>
      placeBefore E (if (E.get dom node).isSome then E.detach dom node else dom) sibling child
  | .appendText _ => placeBefore E dom sibling child

/-- `append_based_on_parent_node`. -/
def appendBasedOnParentNode (dom : E.Tree) (element previous : ℕ) (child : NodeOrText) : E.Tree :=
  if (E.get dom element).isSome ∧ (E.parent dom element).isSome then
    appendBeforeSibling E dom element child
  else append E dom previous child

/-- `append_doctype_to_document`. -/
def appendDoctypeToDocument (dom : E.Tree) : E.Tree := E.append dom 0 (.new .other)

/-- `get_template_contents`. -/
def getTemplateContents (dom : E.Tree) (target : ℕ) : ℕ :=
  ((E.get dom target).bind fun _ => (E.children dom target).head?).getD 0

/-- The loop of `add_attrs_if_missing`. -/
def addAttrs (existing : List Attribute) : List Attribute → List Attribute
  | [] => existing
  | given :: attrs =>
      if existing.any fun current => current.name == given.name then addAttrs existing attrs
      else addAttrs (existing ++ [given]) attrs

/-- `add_attrs_if_missing`. -/
def addAttrsIfMissing (dom : E.Tree) (target : ℕ) (attrs : List Attribute) : E.Tree :=
  match E.get dom target with
  | none => dom
  | some node =>
      match node.kind with
      | .element existing =>
          E.update dom target fun node => { node with kind := .element (addAttrs existing attrs) }
      | _ => dom

/-- `remove_from_parent`. -/
def removeFromParent (dom : E.Tree) (target : ℕ) : E.Tree :=
  if (E.get dom target).isSome then E.detach dom target else dom

/-- `reparent_children`. -/
def reparentChildren (dom : E.Tree) (node newParent : ℕ) : E.Tree :=
  if (E.get dom newParent).isSome then E.reparentFromIdAppend dom newParent node else dom

end Sink

/-! ### What the extraction sees -/

/-- `attr`. -/
def attr (attrs : List Attribute) (name : String) : Option String :=
  (attrs.find? fun given => given.name.localName == name).map Attribute.value

/-- A node over what is under it; a text stands over nothing. -/
def htmlNode (_ : ℕ) (node : Node) (children : List HtmlNode) : HtmlNode :=
  match node.kind with
  | .element attrs => .element node.name.localName (attr attrs "lang") children
  | .text text => .text text
  | .document | .fragment | .other => .other children

/-- `Element::wrap`. -/
def wrap : HtmlNode → Option HtmlElement
  | .element name lang children => some ⟨name, lang, children⟩
  | _ => none

/-- `node_count` and `elements`: every node of the arena, also where it was detached again. -/
def htmlDom (A : Arena Node) : HtmlDom where
  nodeCount := A.size
  elements := (List.range A.size).filterMap fun c => (A.fold htmlNode A.size c).bind wrap

/-! ### The tree builder -/

/-- The calls of `TreeSink` that the sink reacts to. -/
inductive SinkCall
  | createElement (name : QualName) (attrs : List Attribute)
  | createOther
  | append (parent : ℕ) (child : NodeOrText)
  | appendBeforeSibling (sibling : ℕ) (child : NodeOrText)
  | appendBasedOnParentNode (element previous : ℕ) (child : NodeOrText)
  | appendDoctypeToDocument
  | getTemplateContents (target : ℕ)
  | addAttrsIfMissing (target : ℕ) (attrs : List Attribute)
  | removeFromParent (target : ℕ)
  | reparentChildren (node newParent : ℕ)

/-- The sink, the handles that the tree builder was given, and what it handed over. -/
structure SinkState (E : EgoTree Node) where
  dom : E.Tree
  /-- The elements, comments and processing instructions. -/
  created : List ℕ
  /-- The contents of templates. -/
  contents : List ℕ
  /-- The names of the created elements. -/
  names : List QualName
  /-- The characters of the texts. -/
  received : List Char

namespace SinkState

variable {E : EgoTree Node}

/-- A new sink. -/
def start : SinkState E := ⟨DomSink.new E, [], [], [], []⟩

/-- The nodes. -/
def nodes (s : SinkState E) : Arena Node := E.read s.dom

/-- A handle that children may be put under. -/
def Handle (s : SinkState E) (c : ℕ) : Prop := c = 0 ∨ c ∈ s.created ∨ c ∈ s.contents

/-- A child is a text or a created node. -/
def Child (s : SinkState E) : NodeOrText → Prop
  | .appendNode node => node ∈ s.created
  | .appendText _ => True

/-- A node that is appended has no parent yet. -/
def Unplaced (s : SinkState E) : NodeOrText → Prop
  | .appendNode node => s.nodes.parent node = none
  | .appendText _ => True

/-- What the tree builder promises: handles are those that it was given; a node that is appended
has no parent, a sibling has one; contents are asked for of templates, and are not taken out of
them. -/
def Promised (s : SinkState E) : SinkCall → Prop
  | .createElement _ _ | .createOther | .appendDoctypeToDocument => True
  | .append parent child => s.Handle parent ∧ s.Child child ∧ s.Unplaced child
  | .appendBeforeSibling sibling child =>
      sibling ∈ s.created ∧ (s.nodes.parent sibling).isSome ∧ s.Child child
  | .appendBasedOnParentNode element previous child =>
      element ∈ s.created ∧ previous ∈ s.created ∧ s.Child child ∧
        (s.nodes.parent element = none → s.Unplaced child)
  | .getTemplateContents target =>
      target ∈ s.created ∧ (s.nodes.value target).name.isTemplate = true
  | .addAttrsIfMissing target _ => s.Handle target
  | .removeFromParent target => target ∈ s.created
  | .reparentChildren node newParent =>
      node ∈ s.created ∧ (s.nodes.value node).name.isTemplate = false ∧ s.Handle newParent

/-- The arena panics where a node is put under itself, or takes its own children. -/
def Returns (s : SinkState E) : SinkCall → Prop
  | .append parent (.appendNode node) => parent ≠ node
  | .appendBasedOnParentNode element previous (.appendNode node) =>
      s.nodes.parent element = none → previous ≠ node
  | .reparentChildren node newParent => node ≠ newParent
  | _ => True

/-- A call closes a loop: it puts a node under one that is under it. -/
def Closes (s : SinkState E) : SinkCall → Prop
  | .append parent (.appendNode node) => s.nodes.Under parent node
  | .appendBeforeSibling sibling (.appendNode node) => sibling ≠ node ∧ s.nodes.Under sibling node
  | .appendBasedOnParentNode element previous (.appendNode node) =>
      if (s.nodes.parent element).isSome then element ≠ node ∧ s.nodes.Under element node
      else s.nodes.Under previous node
  | .reparentChildren node newParent =>
      ∃ c ∈ s.nodes.children node, s.nodes.Under newParent c
  | _ => False

/-- A call. -/
def call (s : SinkState E) : SinkCall → SinkState E
  | .createElement name attrs =>
      { s with
        dom := createElement E s.dom name attrs
        created := s.created ++ [E.count s.dom]
        names := s.names ++ [name] }
  | .createOther =>
      { s with dom := createOther E s.dom, created := s.created ++ [E.count s.dom] }
  | .append parent child =>
      { s with dom := append E s.dom parent child, received := s.received ++ child.text }
  | .appendBeforeSibling sibling child =>
      { s with
        dom := appendBeforeSibling E s.dom sibling child
        received := s.received ++ child.text }
  | .appendBasedOnParentNode element previous child =>
      { s with
        dom := appendBasedOnParentNode E s.dom element previous child
        received := s.received ++ child.text }
  | .appendDoctypeToDocument => { s with dom := appendDoctypeToDocument E s.dom }
  | .getTemplateContents target =>
      { s with contents := s.contents ++ [getTemplateContents E s.dom target] }
  | .addAttrsIfMissing target attrs => { s with dom := addAttrsIfMissing E s.dom target attrs }
  | .removeFromParent target => { s with dom := removeFromParent E s.dom target }
  | .reparentChildren node newParent =>
      { s with dom := reparentChildren E s.dom node newParent }

end SinkState

/-- **The sink** under the calls of a tree builder that keeps its promises. -/
def sinkSystem (E : EgoTree Node) : Labelled.System (SinkState E) SinkCall where
  init s := s = .start
  step s call t := s.Promised call ∧ s.Returns call ∧ t = s.call call

/-! ### One call -/

section Calls

variable {A A' A'' : Arena Node} {text text' : List Char} {names names' : List QualName}
  {C D : Prop}

/-- What a node becomes: a text and the attributes of an element only get longer. -/
inductive NodeKind.Grows : NodeKind → NodeKind → Prop
  | same (kind : NodeKind) : Grows kind kind
  | element {attrs attrs' : List Attribute} (h : attrs <+: attrs') :
      Grows (.element attrs) (.element attrs')
  | text {t t' : String} (h : t.toList <+: t'.toList) : Grows (.text t) (.text t')

/-- The characters of a node. -/
def Node.characters (node : Node) : List Char :=
  match node.kind with
  | .text text => text.toList
  | _ => []

/-- The name of an element. -/
def Node.elementName (node : Node) : Option QualName :=
  match node.kind with
  | .element _ => some node.name
  | _ => none

/-- The characters of all texts, in the order of the nodes. -/
def characters (A : Arena Node) : List Char :=
  (List.range A.size).flatMap fun c => (A.value c).characters

/-- The names of all elements, in the order of the nodes. -/
def elementNames (A : Arena Node) : List QualName :=
  (List.range A.size).filterMap fun c => (A.value c).elementName

/-- **The invariant of the tree.** -/
structure DomInv (A : Arena Node) : Prop where
  linked : A.Linked
  nonempty : 0 < A.size
  document : (A.value 0).kind = .document
  root : A.parent 0 = none
  /-- Nothing stands under a text. -/
  leaves : ∀ c p text, A.parent c = some p → (A.value p).kind ≠ .text text
  /-- The contents of a template are its first child. -/
  template : ∀ c, c < A.size → (A.value c).name.isTemplate = true →
    ∃ f rest, A.children c = f :: rest ∧ (A.value f).kind = .fragment

/-- A node that may be moved: not the document, and not the contents of a template. -/
structure Loose (A : Arena Node) (c : ℕ) : Prop where
  bound : c < A.size
  ne_document : (A.value c).kind ≠ .document
  ne_fragment : (A.value c).kind ≠ .fragment

/-- **What a call does to the tree**: nodes stay and grow, the text that it hands over is added, and
so are the names of the elements that it creates; it makes a cycle exactly where it `closes` one. -/
structure DomStep (A A' : Arena Node) (text : List Char) (names : List QualName)
    (closes : Prop) : Prop where
  inv : DomInv A'
  size : A.size ≤ A'.size
  named : ∀ c, c < A.size → (A'.value c).name = (A.value c).name
  grows : ∀ c, c < A.size → (A.value c).kind.Grows (A'.value c).kind
  characters : (characters A').Perm (characters A ++ text)
  names : elementNames A' = elementNames A ++ names
  acyclic : Arena.Acyclic A.parent → (Arena.Acyclic A'.parent ↔ ¬closes)

theorem NodeKind.Grows.trans {k k' k'' : NodeKind} (h : k.Grows k') (h' : k'.Grows k'') :
    k.Grows k'' := by
  cases h with
  | same => exact h'
  | element hattrs =>
      cases h' with
      | same => exact .element hattrs
      | element hattrs' => exact .element (hattrs.trans hattrs')
  | text htext =>
      cases h' with
      | same => exact .text htext
      | text htext' => exact .text (htext.trans htext')

theorem NodeKind.Grows.eq_document {k : NodeKind} (h : NodeKind.document.Grows k) :
    k = .document := by
  cases h
  rfl

theorem NodeKind.Grows.eq_fragment {k : NodeKind} (h : NodeKind.fragment.Grows k) :
    k = .fragment := by
  cases h
  rfl

theorem DomStep.refl (h : DomInv A) : DomStep A A [] [] False where
  inv := h
  size := Nat.le_refl _
  named _ _ := rfl
  grows _ _ := .same _
  characters := by rw [List.append_nil]
  names := (List.append_nil _).symm
  acyclic hforest := iff_of_true hforest not_false

/-- A step that closes no loop, and another. -/
theorem DomStep.trans (h : DomStep A A' text names False)
    (h' : DomStep A' A'' text' names' C) :
    DomStep A A'' (text ++ text') (names ++ names') C where
  inv := h'.inv
  size := Nat.le_trans h.size h'.size
  named c hc := (h'.named c (Nat.lt_of_lt_of_le hc h.size)).trans (h.named c hc)
  grows c hc := (h.grows c hc).trans (h'.grows c (Nat.lt_of_lt_of_le hc h.size))
  characters := by
    rw [← List.append_assoc]
    exact h'.characters.trans (h.characters.append_right _)
  names := by
    rw [h'.names, h.names, List.append_assoc]
  acyclic hforest := h'.acyclic ((h.acyclic hforest).mpr not_false)

theorem DomStep.congr (h : DomStep A A' text names C) (hC : C ↔ D) :
    DomStep A A' text names D :=
  { h with acyclic := fun hforest => (h.acyclic hforest).trans (not_congr hC) }

/-- Only the links change. -/
theorem DomStep.links (h : DomInv A') (hsize : A'.size = A.size) (hvalue : A'.value = A.value)
    (hacyclic : Arena.Acyclic A.parent → (Arena.Acyclic A'.parent ↔ ¬C)) :
    DomStep A A' [] [] C where
  inv := h
  size := Nat.le_of_eq hsize.symm
  named c _ := by rw [hvalue]
  grows c _ := by
    rw [hvalue]
    exact .same _
  characters := by
    rw [List.append_nil, DomSink.characters, DomSink.characters, hsize, hvalue]
  names := by
    rw [List.append_nil, elementNames, elementNames, hsize, hvalue]
  acyclic := hacyclic

theorem Loose.step {c : ℕ} (h : Loose A c) (hst : DomStep A A' text names C) :
    Loose A' c := by
  have hgrows := hst.grows c h.bound
  refine ⟨Nat.lt_of_lt_of_le h.bound hst.size, fun heq => ?_, fun heq => ?_⟩
  · rw [heq] at hgrows
    generalize hkind : (A.value c).kind = kind at hgrows
    cases hgrows
    exact h.ne_document hkind
  · rw [heq] at hgrows
    generalize hkind : (A.value c).kind = kind at hgrows
    cases hgrows
    exact h.ne_fragment hkind

theorem characters_orphan (A : Arena Node) (node : Node) :
    characters (A.orphan node) = characters A ++ node.characters := by
  rw [characters, show (A.orphan node).size = A.size + 1 from rfl, List.range_succ,
    List.flatMap_append, List.flatMap_singleton]
  congr 1
  · refine List.flatMap_congr fun c hc => ?_
    rw [show (A.orphan node).value c = A.value c from
      Function.update_of_ne (Nat.ne_of_lt (List.mem_range.mp hc)) _ _]
  · rw [show (A.orphan node).value A.size = node from Function.update_self _ _ _]

theorem elementNames_orphan (A : Arena Node) (node : Node) :
    elementNames (A.orphan node) = elementNames A ++ node.elementName.toList := by
  rw [elementNames, show (A.orphan node).size = A.size + 1 from rfl, List.range_succ,
    List.filterMap_append]
  congr 1
  · refine List.filterMap_congr fun c hc => ?_
    rw [show (A.orphan node).value c = A.value c from
      Function.update_of_ne (Nat.ne_of_lt (List.mem_range.mp hc)) _ _]
  · rw [List.filterMap_cons, show (A.orphan node).value A.size = node from
      Function.update_self _ _ _]
    cases node.elementName <;> rfl

/-- A node is created that is no template. -/
theorem DomInv.orphan (h : DomInv A) (node : Node) (hnode : node.name.isTemplate = false) :
    DomStep A (A.orphan node) node.characters node.elementName.toList False := by
  have hvalue : ∀ c, c < A.size → (A.orphan node).value c = A.value c := fun c hc =>
    Function.update_of_ne (Nat.ne_of_lt hc) _ _
  refine ⟨⟨h.linked.orphan node, Nat.succ_pos _, ?_, h.root, fun c p text hp => ?_,
    fun c hc htemplate => ?_⟩, Nat.le_succ _, fun c hc => by rw [hvalue c hc],
    fun c hc => ?_, ?_, elementNames_orphan A node,
    fun hforest => iff_of_true hforest not_false⟩
  · rw [hvalue 0 h.nonempty]
    exact h.document
  · rw [hvalue p (h.linked.bounded c p hp).2]
    exact h.leaves c p text hp
  · by_cases hnew : c = A.size
    · subst hnew
      rw [show (A.orphan node).value A.size = node from Function.update_self _ _ _,
        hnode] at htemplate
      cases htemplate
    · have hold : c < A.size := Nat.lt_of_le_of_ne (Nat.lt_succ_iff.mp hc) hnew
      rw [hvalue c hold] at htemplate
      obtain ⟨f, rest, hchildren, hf⟩ := h.template c hold htemplate
      have hmem : f ∈ A.children c := hchildren ▸ List.mem_cons_self
      refine ⟨f, rest, hchildren, ?_⟩
      rw [hvalue f (h.linked.bounded f c ((h.linked.mem_children_iff c f).mp hmem)).1]
      exact hf
  · rw [hvalue c hc]
    exact .same _
  · rw [characters_orphan]

/-- Characters are added to the text of one node. -/
theorem flatMap_range_perm {f g : ℕ → List Char} {added : List Char} {n c : ℕ} (hc : c < n)
    (hself : g c = f c ++ added) (hother : ∀ x, x ≠ c → g x = f x) :
    ((List.range n).flatMap g).Perm ((List.range n).flatMap f ++ added) := by
  induction n with
  | zero => cases hc
  | succ n ih =>
      rw [List.range_succ, List.flatMap_append, List.flatMap_append, List.flatMap_singleton,
        List.flatMap_singleton]
      by_cases hn : c = n
      · subst hn
        have hbefore : (List.range c).flatMap g = (List.range c).flatMap f :=
          List.flatMap_congr fun x hx => hother x (Nat.ne_of_lt (List.mem_range.mp hx))
        rw [hbefore, hself, List.append_assoc]
      · rw [hother n (Ne.symm hn)]
        have hlt : c < n := by omega
        refine ((ih hlt).append_right _).trans ?_
        rw [List.append_assoc, List.append_assoc]
        exact List.perm_append_comm.append_left _

/-- **A node grows in place.** -/
theorem DomInv.modify (h : DomInv A) {c : ℕ} (hc : c < A.size) {kind : NodeKind}
    {added : List Char} (hgrows : (A.value c).kind.Grows kind)
    (hadded : (Node.mk (A.value c).name kind).characters = (A.value c).characters ++ added) :
    DomStep A (A.modify c fun node => { node with kind := kind }) added [] False := by
  have hself : (A.modify c fun node => { node with kind := kind }).value c =
      ⟨(A.value c).name, kind⟩ := Function.update_self _ _ _
  have hother : ∀ x, x ≠ c →
      (A.modify c fun node => { node with kind := kind }).value x = A.value x :=
    fun x hx => Function.update_of_ne hx _ _
  have hkind : ∀ x, (A.value x).kind.Grows
      ((A.modify c fun node => { node with kind := kind }).value x).kind := by
    intro x
    by_cases hx : x = c
    · subst hx
      rw [hself]
      exact hgrows
    · rw [hother x hx]
      exact .same _
  have hname : ∀ x, ((A.modify c fun node => { node with kind := kind }).value x).name =
      (A.value x).name := by
    intro x
    by_cases hx : x = c
    · subst hx
      rw [hself]
    · rw [hother x hx]
  refine ⟨⟨h.linked.modify c _, h.nonempty, ?_, h.root, fun x p text hp heq => ?_,
    fun x hx htemplate => ?_⟩, Nat.le_refl _, fun x _ => hname x, fun x _ => hkind x, ?_, ?_,
    fun hforest => iff_of_true hforest not_false⟩
  · have hgrows := hkind 0
    rw [h.document] at hgrows
    exact hgrows.eq_document
  · have hgrows := hkind p
    rw [heq] at hgrows
    generalize hold : (A.value p).kind = old at hgrows
    cases hgrows with
    | same => exact h.leaves x p _ hp hold
    | text _ => exact h.leaves x p _ hp hold
  · rw [hname] at htemplate
    obtain ⟨f, rest, hchildren, hf⟩ := h.template x hx htemplate
    refine ⟨f, rest, hchildren, ?_⟩
    have hgrows := hkind f
    rw [hf] at hgrows
    exact hgrows.eq_fragment
  · exact flatMap_range_perm hc (by rw [hself]; exact hadded) fun x hx => by rw [hother x hx]
  · rw [List.append_nil]
    refine List.filterMap_congr fun x _ => ?_
    have hgrows := hkind x
    rw [Node.elementName, Node.elementName, hname]
    generalize (A.value x).kind = old at hgrows ⊢
    generalize ((A.modify c fun node => { node with kind := kind }).value x).kind = new
      at hgrows ⊢
    cases hgrows <;> rfl

/-- The children of a template stay behind its contents when others are taken out. -/
theorem erase_template {f c : ℕ} {rest l : List ℕ} (hl : l = f :: rest) (hne : f ≠ c) :
    l.erase c = f :: rest.erase c := by
  subst hl
  exact List.erase_cons_tail (by simpa using hne)

/-- The contents of templates are not moved. -/
theorem Loose.ne_contents {c f : ℕ} (h : Loose A c) (hf : (A.value f).kind = .fragment) :
    f ≠ c := by
  rintro rfl
  exact h.ne_fragment hf

theorem Loose.ne_root {c : ℕ} (h : Loose A c) (hdom : DomInv A) : c ≠ 0 := by
  rintro rfl
  exact h.ne_document hdom.document

theorem DomInv.detach (h : DomInv A) {c : ℕ} (hc : Loose A c) :
    DomStep A (A.detach c) [] [] False := by
  refine .links ⟨h.linked.detach c, ?_, ?_, ?_, fun x p text hp => ?_, fun x hx htemplate => ?_⟩
    Arena.size_detach Arena.value_detach
    fun hforest => iff_of_true (hforest.detach c) not_false
  · rw [Arena.size_detach]
    exact h.nonempty
  · rw [Arena.value_detach]
    exact h.document
  · rw [Arena.parent_detach_of_ne (hc.ne_root h).symm]
    exact h.root
  · rw [Arena.value_detach]
    by_cases hx : x = c
    · subst hx
      rw [Arena.parent_detach_self] at hp
      cases hp
    · rw [Arena.parent_detach_of_ne hx] at hp
      exact h.leaves x p text hp
  · rw [Arena.size_detach] at hx
    rw [Arena.value_detach] at htemplate ⊢
    obtain ⟨f, rest, hchildren, hf⟩ := h.template x hx htemplate
    refine ⟨f, rest.erase c, ?_, hf⟩
    rw [Arena.children_detach h.linked]
    exact erase_template hchildren (hc.ne_contents hf)

/-- **A node that stands alone is put under another**, behind the contents if that is a template. -/
theorem DomInv.link (h : DomInv A) {p c : ℕ} {l : List ℕ} (hc : Loose A c)
    (halone : A.parent c = none) (hbound : p < A.size) (hperm : l.Perm (c :: A.children p))
    (hp : ∀ text, (A.value p).kind ≠ .text text)
    (hl : ∀ f rest, A.children p = f :: rest → (A.value f).kind = .fragment →
      ∃ rest', l = f :: rest') : DomStep A (A.link p c l) [] [] (A.Under p c) := by
  refine .links ⟨h.linked.link halone hc.bound hbound hperm, h.nonempty, h.document, ?_,
    fun x q text hq => ?_, fun x hx htemplate => ?_⟩ rfl rfl
    fun hforest => Arena.acyclic_link_iff hforest halone
  · exact (Function.update_of_ne (hc.ne_root h).symm _ _).trans h.root
  · change Function.update A.parent c (some p) x = some q at hq
    by_cases hxc : x = c
    · subst hxc
      rw [Function.update_self] at hq
      obtain rfl := Option.some.inj hq
      exact hp text
    · rw [Function.update_of_ne hxc] at hq
      exact h.leaves x q text hq
  · obtain ⟨f, rest, hchildren, hf⟩ := h.template x hx htemplate
    change ∃ f rest, Function.update A.children p l x = f :: rest ∧
      (A.value f).kind = .fragment
    by_cases hxp : x = p
    · subst hxp
      obtain ⟨rest', hrest⟩ := hl f rest hchildren hf
      exact ⟨f, rest', (Function.update_self _ _ _).trans hrest, hf⟩
    · exact ⟨f, rest, (Function.update_of_ne hxp _ _).trans hchildren, hf⟩

/-- It becomes the last child. -/
theorem DomInv.linkLast (h : DomInv A) {p c : ℕ} (hc : Loose A c) (halone : A.parent c = none)
    (hp : p < A.size) (htext : ∀ text, (A.value p).kind ≠ .text text) :
    DomStep A (A.link p c (A.children p ++ [c])) [] [] (A.Under p c) :=
  h.link hc halone hp (List.perm_append_singleton c _) htext fun f rest hchildren _ =>
    ⟨rest ++ [c], by rw [hchildren]; rfl⟩

theorem putBefore_cons {s c f : ℕ} {rest : List ℕ} (hne : f ≠ s) :
    Arena.putBefore s c (f :: rest) = f :: Arena.putBefore s c rest := by
  have hbne : (f != s) = true := bne_iff_ne.mpr hne
  rw [Arena.putBefore, List.takeWhile_cons, List.dropWhile_cons, if_pos hbne, if_pos hbne]
  rfl

/-- It becomes the previous sibling of a node that may be moved, and is not the contents. -/
theorem DomInv.linkBefore (h : DomInv A) {s c p : ℕ} (hc : Loose A c) (halone : A.parent c = none)
    (hs : Loose A s) (hparent : A.parent s = some p) :
    DomStep A (A.link p c (Arena.putBefore s c (A.children p))) [] [] (A.Under p c) :=
  h.link hc halone (h.linked.bounded s p hparent).2 (Arena.putBefore_perm s c _)
    (fun text => h.leaves s p text hparent) fun f rest hchildren hf =>
      ⟨_, by rw [hchildren, putBefore_cons (hs.ne_contents hf)]⟩

theorem DomInv.reparent (h : DomInv A) {src dst : ℕ} (hdst : dst < A.size)
    (hsrc : (A.value src).name.isTemplate = false)
    (htext : ∀ text, (A.value dst).kind ≠ .text text) (hne : src ≠ dst) :
    DomStep A (A.reparent src dst) [] [] (∃ c ∈ A.children src, A.Under dst c) := by
  refine .links ⟨h.linked.reparent hdst hne, h.nonempty, h.document, ?_,
    fun x q text hq => ?_, fun x hx htemplate => ?_⟩ rfl rfl
    fun hforest => (Arena.acyclic_reparent_iff hforest).trans (by simp)
  · change (if 0 ∈ A.children src then some dst else A.parent 0) = none
    rw [if_neg, h.root]
    intro hmem
    rw [h.linked.mem_children_iff, h.root] at hmem
    cases hmem
  · change (if x ∈ A.children src then some dst else A.parent x) = some q at hq
    split at hq
    · obtain rfl := Option.some.inj hq
      exact htext text
    · exact h.leaves x q text hq
  · obtain ⟨f, rest, hchildren, hf⟩ := h.template x hx htemplate
    change ∃ f rest, Function.update (Function.update A.children src []) dst
      (A.children dst ++ A.children src) x = f :: rest ∧ (A.value f).kind = .fragment
    by_cases hxd : x = dst
    · subst hxd
      refine ⟨f, rest ++ A.children src, ?_, hf⟩
      rw [Function.update_self, hchildren]
      rfl
    · refine ⟨f, rest, ?_, hf⟩
      rw [Function.update_of_ne hxd, Function.update_of_ne, hchildren]
      rintro rfl
      rw [show (A.reparent x dst).value = A.value from rfl, hsrc] at htemplate
      cases htemplate

/-- A node that is created now is loose. -/
theorem loose_orphan {node : Node} (hdocument : node.kind ≠ .document)
    (hfragment : node.kind ≠ .fragment) : Loose (A.orphan node) A.size := by
  have hvalue : (A.orphan node).value A.size = node := Function.update_self _ _ _
  exact ⟨Nat.lt_succ_self _, by rw [hvalue]; exact hdocument, by rw [hvalue]; exact hfragment⟩

/-- **A new node is put under another**: nothing is under it. -/
theorem DomInv.linkNew (h : DomInv A) {p : ℕ} {node : Node} {l : List ℕ}
    (hp : p < A.size) (hperm : l.Perm (A.size :: A.children p))
    (htext : ∀ text, (A.value p).kind ≠ .text text)
    (hl : ∀ f rest, A.children p = f :: rest → (A.value f).kind = .fragment →
      ∃ rest', l = f :: rest')
    (hnode : node.name.isTemplate = false) (hdocument : node.kind ≠ .document)
    (hfragment : node.kind ≠ .fragment) :
    DomStep A ((A.orphan node).link p A.size l) node.characters node.elementName.toList False := by
  have horphan := h.orphan node hnode
  have hold : ∀ c, c < A.size → (A.orphan node).value c = A.value c := fun c hc =>
    Function.update_of_ne (Nat.ne_of_lt hc) _ _
  have hlink := horphan.inv.link (l := l) (loose_orphan hdocument hfragment)
    (h.linked.parent_eq_none (Nat.le_refl _)) (Nat.lt_succ_of_lt hp) hperm
    (fun text => by rw [hold p hp]; exact htext text) fun f rest hchildren hf => by
      have hmem : f ∈ A.children p := hchildren ▸ List.mem_cons_self
      rw [hold f (h.linked.bounded f p ((h.linked.mem_children_iff p f).mp hmem)).1] at hf
      exact hl f rest hchildren hf
  have hboth := horphan.trans (hlink.congr (iff_false_intro (h.linked.not_under_orphan hp)))
  rwa [List.append_nil, List.append_nil] at hboth

/-- Nothing stands under a node that is not there yet. -/
theorem DomInv.children_new (h : DomInv A) : A.children A.size = [] := by
  refine List.eq_nil_iff_forall_not_mem.mpr fun c hc => ?_
  exact Nat.lt_irrefl _ (h.linked.bounded c _ ((h.linked.mem_children_iff _ c).mp hc)).2

/-- The tree with a new template, and its contents under it. -/
def withTemplate (A : Arena Node) (name : QualName) (attrs : List Attribute) : Arena Node :=
  ((A.orphan (.element name attrs)).orphan (.new .fragment)).link A.size (A.size + 1) [A.size + 1]

section Template

variable (name : QualName) (attrs : List Attribute)

theorem withTemplate_value_of_lt {c : ℕ} (hc : c < A.size) :
    (withTemplate A name attrs).value c = A.value c :=
  (Function.update_of_ne (by change c ≠ A.size + 1; omega) _ _).trans
    (Function.update_of_ne (Nat.ne_of_lt hc) _ _)

theorem withTemplate_value_element :
    (withTemplate A name attrs).value A.size = .element name attrs :=
  (Function.update_of_ne (by change A.size ≠ A.size + 1; omega) _ _).trans
    (Function.update_self _ _ _)

theorem withTemplate_value_contents :
    (withTemplate A name attrs).value (A.size + 1) = .new .fragment :=
  Function.update_self _ _ _

theorem withTemplate_parent :
    (withTemplate A name attrs).parent = Function.update A.parent (A.size + 1) (some A.size) :=
  rfl

theorem withTemplate_children :
    (withTemplate A name attrs).children = Function.update A.children A.size [A.size + 1] :=
  rfl

theorem DomInv.linked_withTemplate (h : DomInv A) : (withTemplate A name attrs).Linked := by
  have halone : ((A.orphan (.element name attrs)).orphan (.new .fragment)).parent (A.size + 1) =
      none := h.linked.parent_eq_none (Nat.le_succ _)
  have hempty : ((A.orphan (.element name attrs)).orphan (.new .fragment)).children A.size = [] :=
    h.children_new
  refine ((h.linked.orphan _).orphan _).link halone (Nat.lt_succ_self _)
    (Nat.lt_succ_of_lt (Nat.lt_succ_self _)) ?_
  rw [hempty]

/-- Nothing is under a new template but its contents. -/
theorem DomInv.acyclic_withTemplate (h : DomInv A) (hforest : Arena.Acyclic A.parent) :
    Arena.Acyclic (withTemplate A name attrs).parent := by
  have halone : ((A.orphan (.element name attrs)).orphan (.new .fragment)).parent (A.size + 1) =
      none := h.linked.parent_eq_none (Nat.le_succ _)
  refine (Arena.acyclic_link_iff (A := (A.orphan (.element name attrs)).orphan (.new .fragment))
    hforest halone).mpr ?_
  exact (h.linked.orphan _).not_under_orphan (Nat.lt_succ_self _)

/-- A template holds its contents, and the others hold theirs. -/
theorem DomInv.contents_withTemplate (h : DomInv A) {c : ℕ}
    (hc : c < (withTemplate A name attrs).size)
    (htemplate : ((withTemplate A name attrs).value c).name.isTemplate = true) :
    ∃ f rest, (withTemplate A name attrs).children c = f :: rest ∧
      ((withTemplate A name attrs).value f).kind = .fragment := by
  rw [withTemplate_children]
  have hcases : c < A.size ∨ c = A.size ∨ c = A.size + 1 := by
    change c < A.size + 1 + 1 at hc
    omega
  rcases hcases with hlt | rfl | rfl
  · rw [withTemplate_value_of_lt name attrs hlt] at htemplate
    obtain ⟨f, rest, hchildren, hf⟩ := h.template c hlt htemplate
    have hmem : f ∈ A.children c := hchildren ▸ List.mem_cons_self
    have hbound : f < A.size := (h.linked.bounded f c ((h.linked.mem_children_iff c f).mp hmem)).1
    refine ⟨f, rest, (Function.update_of_ne (Nat.ne_of_lt hlt) _ _).trans hchildren, ?_⟩
    rw [withTemplate_value_of_lt name attrs hbound]
    exact hf
  · refine ⟨A.size + 1, [], Function.update_self _ _ _, ?_⟩
    rw [withTemplate_value_contents]
    rfl
  · rw [withTemplate_value_contents] at htemplate
    cases htemplate

/-- A template is created with its contents. -/
theorem DomInv.createTemplate (h : DomInv A) :
    DomStep A (withTemplate A name attrs) [] [name] False := by
  have hcharacters := (characters_orphan (A.orphan (.element name attrs)) (.new .fragment)).trans
    (congrArg (· ++ _) (characters_orphan A (.element name attrs)))
  have hnames := (elementNames_orphan (A.orphan (.element name attrs)) (.new .fragment)).trans
    (congrArg (· ++ _) (elementNames_orphan A (.element name attrs)))
  have hold : ∀ c, c < A.size → (withTemplate A name attrs).value c = A.value c :=
    fun _ hc => withTemplate_value_of_lt name attrs hc
  refine ⟨⟨h.linked_withTemplate name attrs, Nat.succ_pos _, ?_, ?_, fun c p text hp => ?_,
    fun c hc htemplate => h.contents_withTemplate name attrs hc htemplate⟩,
    Nat.le_succ_of_le (Nat.le_succ _), fun c hc => by rw [hold c hc], fun c hc => ?_, ?_, ?_,
    fun hforest => iff_of_true (h.acyclic_withTemplate name attrs hforest) not_false⟩
  · rw [hold 0 h.nonempty]
    exact h.document
  · rw [withTemplate_parent, Function.update_of_ne (Nat.succ_ne_zero _).symm]
    exact h.root
  · rw [withTemplate_parent] at hp
    by_cases hnew : c = A.size + 1
    · subst hnew
      rw [Function.update_self] at hp
      obtain rfl := Option.some.inj hp
      rw [withTemplate_value_element]
      rintro ⟨⟩
    · rw [Function.update_of_ne hnew] at hp
      rw [hold p (h.linked.bounded c p hp).2]
      exact h.leaves c p text hp
  · rw [hold c hc]
    exact .same _
  · exact List.Perm.of_eq (hcharacters.trans (by rw [List.append_assoc]; rfl))
  · exact hnames.trans (by rw [List.append_assoc]; rfl)

end Template

/-! ### One call on the tree -/

variable {E : EgoTree Node} {dom : E.Tree}

/-- A new node is appended. -/
theorem DomInv.append_new (hE : E.Documented) (h : DomInv (E.read dom)) {p : ℕ} {node : Node}
    (hp : p < (E.read dom).size) (htext : ∀ text, ((E.read dom).value p).kind ≠ .text text)
    (hnode : node.name.isTemplate = false) (hdocument : node.kind ≠ .document)
    (hfragment : node.kind ≠ .fragment) :
    DomStep (E.read dom) (E.read (E.append dom p node)) node.characters node.elementName.toList
      False := by
  rw [hE.read_append hp]
  exact h.linkNew hp (List.perm_append_singleton _ _) htext
    (fun f rest hchildren _ => ⟨rest ++ [_], by rw [hchildren]; rfl⟩) hnode hdocument hfragment

/-- A new node is inserted. -/
theorem DomInv.insert_new (hE : E.Documented) (h : DomInv (E.read dom)) {s p : ℕ} {node : Node}
    (hs : Loose (E.read dom) s) (hparent : (E.read dom).parent s = some p)
    (hnode : node.name.isTemplate = false) (hdocument : node.kind ≠ .document)
    (hfragment : node.kind ≠ .fragment) :
    DomStep (E.read dom) (E.read (E.insertBefore dom s node)) node.characters
      node.elementName.toList False := by
  rw [hE.read_insertBefore hparent]
  exact h.linkNew (h.linked.bounded s p hparent).2 (Arena.putBefore_perm _ _ _)
    (fun text => h.leaves s p text hparent)
    (fun f rest hchildren hf => ⟨_, by rw [hchildren, putBefore_cons (hs.ne_contents hf)]⟩)
    hnode hdocument hfragment

/-- Text is joined to a text. -/
theorem DomInv.joinText (hE : E.Documented) (h : DomInv (E.read dom)) {front : Option ℕ}
    {text : String} {joined : E.Tree} (hfront : ∀ c, front = some c → c < (E.read dom).size)
    (hjoin : joinText E dom front text = some joined) :
    DomStep (E.read dom) (E.read joined) text.toList [] False := by
  obtain ⟨c, rfl, hkind⟩ := Option.bind_eq_some_iff.mp hjoin
  obtain ⟨node, hnode, hkind⟩ := Option.bind_eq_some_iff.mp hkind
  have hc := hfront c rfl
  rw [hE.get_eq_some hc] at hnode
  obtain rfl := Option.some.inj hnode
  split at hkind
  · next existing htext =>
      obtain rfl := Option.some.inj hkind
      rw [hE.read_update hc]
      refine h.modify hc ?_ ?_
      · rw [htext]
        exact .text (String.toList_append ▸ List.prefix_append _ _)
      · rw [Node.characters, Node.characters, htext]
        exact String.toList_append
  · cases hkind

/-- What a child closes. -/
def ClosesUnder (A : Arena Node) (parent : ℕ) : NodeOrText → Prop
  | .appendNode node => A.Under parent node
  | .appendText _ => False

/-- **`append`** adds its text, whether or not that is joined. -/
theorem DomInv.append (hE : E.Documented) (h : DomInv (E.read dom)) {parent : ℕ}
    {child : NodeOrText} (hparent : parent < (E.read dom).size)
    (htext : ∀ text, ((E.read dom).value parent).kind ≠ .text text)
    (hchild : ∀ node, child = .appendNode node → Loose (E.read dom) node ∧
      (E.read dom).parent node = none ∧ parent ≠ node) :
    DomStep (E.read dom) (E.read (append E dom parent child)) child.text []
      (ClosesUnder (E.read dom) parent child) := by
  unfold DomSink.append
  rw [if_pos (hE.isSome_get.mpr hparent)]
  cases child with
  | appendNode node =>
      obtain ⟨hloose, halone, hne⟩ := hchild node rfl
      dsimp only
      rw [hE.read_appendId hparent hloose.bound halone hne]
      exact h.linkLast hloose halone hparent htext
  | appendText text =>
      dsimp only
      split
      · next joined hjoin =>
          refine h.joinText hE (fun c hc => ?_) hjoin
          have hmem : c ∈ (E.read dom).children parent := List.mem_of_getLast? hc
          exact (h.linked.bounded c parent ((h.linked.mem_children_iff parent c).mp hmem)).1
      · exact h.append_new hE hparent htext rfl (by rintro ⟨⟩) (by rintro ⟨⟩)

/-- What a child closes beside a sibling. -/
def ClosesBeside (A : Arena Node) (sibling : ℕ) : NodeOrText → Prop
  | .appendNode node => sibling ≠ node ∧ A.Under sibling node
  | .appendText _ => False

/-- A node that is inserted beside another is put under its parent. -/
theorem under_parent_iff {s c p : ℕ} (hne : s ≠ c) (hparent : A.parent s = some p) :
    A.Under p c ↔ A.Under s c := by
  refine ⟨fun hu => Relation.ReflTransGen.head hparent hu, fun hu => ?_⟩
  rcases Relation.ReflTransGen.cases_head hu with rfl | ⟨x, hx, hu⟩
  · exact absurd rfl hne
  · rw [hparent] at hx
    exact Option.some.inj hx ▸ hu

/-- **`append_before_sibling`** of a sibling that has a parent. -/
theorem DomInv.appendBeforeSibling (hE : E.Documented) (h : DomInv (E.read dom)) {sibling : ℕ}
    {child : NodeOrText} (hs : Loose (E.read dom) sibling)
    (hparent : ((E.read dom).parent sibling).isSome)
    (hchild : ∀ node, child = .appendNode node → Loose (E.read dom) node) :
    DomStep (E.read dom) (E.read (appendBeforeSibling E dom sibling child)) child.text []
      (ClosesBeside (E.read dom) sibling child) := by
  cases child with
  | appendNode node =>
      have hloose := hchild node rfl
      have hdetach := h.detach hloose
      have hread := hE.read_detach hloose.bound
      rw [← hread] at hdetach
      rw [DomSink.appendBeforeSibling, if_pos (hE.isSome_get.mpr hloose.bound), placeBefore,
        if_pos (hE.isSome_get.mpr (hs.step hdetach).bound)]
      have halone : (E.read (E.detach dom node)).parent node = none := by
        rw [hread]
        exact Arena.parent_detach_self
      cases hp : E.parent (E.detach dom node) sibling with
      | none =>
          -- only the sibling itself was taken from its parent
          refine hdetach.congr (iff_of_false not_false fun hcloses => ?_)
          have hp : (E.read (E.detach dom node)).parent sibling = none := hp
          rw [hread, Arena.parent_detach_of_ne hcloses.1] at hp
          rw [hp] at hparent
          cases hparent
      | some p =>
          have hp : (E.read (E.detach dom node)).parent sibling = some p := hp
          have hne : sibling ≠ node := by
            rintro rfl
            rw [halone] at hp
            cases hp
          dsimp only
          rw [hE.read_insertIdBefore hp (hloose.step hdetach).bound halone hne]
          refine hdetach.trans ((hdetach.inv.linkBefore (hloose.step hdetach) halone
            (hs.step hdetach) hp).congr ?_)
          rw [under_parent_iff hne hp, hread, Arena.under_detach_iff]
          exact (and_iff_right hne).symm
  | appendText text =>
      rw [DomSink.appendBeforeSibling, placeBefore, if_pos (hE.isSome_get.mpr hs.bound)]
      obtain ⟨p, hp⟩ := Option.isSome_iff_exists.mp hparent
      rw [show E.parent dom sibling = some p from hp]
      dsimp only
      split
      · next joined hjoin =>
          refine h.joinText hE (fun c hc => ?_) hjoin
          have hfront : (E.read dom).prevSibling sibling = some c := hc
          exact h.linked.prevSibling_lt hfront
      · exact h.insert_new hE hs hp rfl (by rintro ⟨⟩) (by rintro ⟨⟩)

/-- Attributes are only added. -/
theorem prefix_addAttrs (existing attrs : List Attribute) :
    existing <+: addAttrs existing attrs := by
  induction attrs generalizing existing with
  | nil => exact List.prefix_rfl
  | cons given attrs ih =>
      rw [addAttrs]
      split
      · exact ih existing
      · exact (List.prefix_append _ _).trans (ih _)

theorem DomInv.addAttrsIfMissing (hE : E.Documented) (h : DomInv (E.read dom)) {target : ℕ}
    {attrs : List Attribute} (htarget : target < (E.read dom).size) :
    DomStep (E.read dom) (E.read (addAttrsIfMissing E dom target attrs)) [] [] False := by
  rw [DomSink.addAttrsIfMissing, hE.get_eq_some htarget]
  dsimp only
  split
  · next existing hkind =>
      rw [hE.read_update htarget]
      refine h.modify htarget ?_ ?_
      · rw [hkind]
        exact .element (prefix_addAttrs existing attrs)
      · rw [Node.characters, Node.characters, hkind]
        rfl
  · exact .refl h

/-- **`create_element`**; a template is created with its contents. -/
theorem DomInv.createElement (hE : E.Documented) (h : DomInv (E.read dom)) (name : QualName)
    (attrs : List Attribute) :
    DomStep (E.read dom) (E.read (createElement E dom name attrs)) [] [name] False := by
  rw [DomSink.createElement]
  cases htemplate : name.isTemplate with
  | false =>
      rw [if_neg Bool.false_ne_true, hE.read_orphan]
      exact h.orphan (.element name attrs) htemplate
  | true =>
      have hbound : E.count dom < (E.read (E.orphan dom (.element name attrs))).size := by
        rw [hE.read_orphan]
        exact Nat.lt_succ_self _
      have hchildren : ((E.read dom).orphan (.element name attrs)).children (E.count dom) = [] :=
        h.children_new
      rw [if_pos rfl, hE.read_append hbound, hE.read_orphan, hchildren]
      exact h.createTemplate name attrs

end Calls

/-! ### Every sequence of calls -/

section Runs

variable {E : EgoTree Node} {s t : SinkState E}

/-- A node that the tree builder created: loose, and no text. -/
structure Made (A : Arena Node) (c : ℕ) : Prop where
  loose : Loose A c
  ne_text : ∀ text, (A.value c).kind ≠ .text text

/-- **The invariant of the sink.** -/
structure SinkInv (s : SinkState E) : Prop where
  dom : DomInv s.nodes
  created : ∀ c ∈ s.created, Made s.nodes c
  contents : ∀ c ∈ s.contents, c < s.nodes.size ∧ (s.nodes.value c).kind = .fragment
  names : elementNames s.nodes = s.names
  texts : (characters s.nodes).Perm s.received

theorem ne_text_of_grows {kind kind' : NodeKind} (h : kind.Grows kind')
    (hne : ∀ text, kind ≠ .text text) (text : String) : kind' ≠ .text text := by
  rintro rfl
  cases h with
  | same => exact hne text rfl
  | text _ => exact hne _ rfl

theorem Made.step {A A' : Arena Node} {text : List Char} {names : List QualName} {C : Prop}
    {c : ℕ} (h : Made A c) (hst : DomStep A A' text names C) : Made A' c :=
  ⟨h.loose.step hst, ne_text_of_grows (hst.grows c h.loose.bound) h.ne_text⟩

/-- A handle is a node, and no text. -/
theorem SinkInv.handle {c : ℕ} (h : SinkInv s) (hc : s.Handle c) :
    c < s.nodes.size ∧ ∀ text, (s.nodes.value c).kind ≠ .text text := by
  rcases hc with rfl | hc | hc
  · refine ⟨h.dom.nonempty, fun text => ?_⟩
    rw [h.dom.document]
    rintro ⟨⟩
  · exact ⟨(h.created c hc).loose.bound, (h.created c hc).ne_text⟩
  · refine ⟨(h.contents c hc).1, fun text => ?_⟩
    rw [(h.contents c hc).2]
    rintro ⟨⟩

/-- A child that is a node may be moved. -/
theorem SinkInv.child {child : NodeOrText} (h : SinkInv s) (hchild : s.Child child) (node : ℕ)
    (heq : child = .appendNode node) : Loose s.nodes node := by
  subst heq
  exact (h.created node hchild).loose

/-- What is left to show of a call. -/
theorem SinkInv.of_step {text : List Char} {names : List QualName} {C : Prop} (h : SinkInv s)
    (hst : DomStep s.nodes t.nodes text names C) (created : List ℕ)
    (hcreated : t.created = s.created ++ created) (hmade : ∀ c ∈ created, Made t.nodes c)
    (hcontents : t.contents = s.contents)
    (hnames : t.names = s.names ++ names) (hreceived : t.received = s.received ++ text) :
    SinkInv t where
  dom := hst.inv
  created c hc := by
    rw [hcreated] at hc
    rcases List.mem_append.mp hc with hold | hnew
    · exact (h.created c hold).step hst
    · exact hmade c hnew
  contents c hc := by
    rw [hcontents] at hc
    obtain ⟨hlt, hkind⟩ := h.contents c hc
    have hgrows := hst.grows c hlt
    rw [hkind] at hgrows
    exact ⟨Nat.lt_of_lt_of_le hlt hst.size, hgrows.eq_fragment⟩
  names := by rw [hst.names, h.names, hnames]
  texts := by
    rw [hreceived]
    exact hst.characters.trans (h.texts.append_right text)

/-- A call that hands over a text, and creates no node. -/
theorem SinkInv.of_texts {dom : E.Tree} {text : List Char} {C : Prop} (h : SinkInv s)
    (hst : DomStep s.nodes (E.read dom) text [] C) :
    SinkInv { s with dom := dom, received := s.received ++ text } :=
  h.of_step hst [] (List.append_nil _).symm (by rintro c ⟨⟩) rfl (List.append_nil _).symm rfl

/-- A call that only changes the tree. -/
theorem SinkInv.of_links {dom : E.Tree} {C : Prop} (h : SinkInv s)
    (hst : DomStep s.nodes (E.read dom) [] [] C) : SinkInv { s with dom := dom } :=
  h.of_step hst [] (List.append_nil _).symm (by rintro c ⟨⟩) rfl (List.append_nil _).symm
    (List.append_nil _).symm

/-- **The contents of a template** are what was created with it. -/
theorem SinkInv.templateContents (hE : E.Documented) {target : ℕ} (h : SinkInv s)
    (htarget : target < s.nodes.size)
    (htemplate : (s.nodes.value target).name.isTemplate = true) :
    getTemplateContents E s.dom target < s.nodes.size ∧
      (s.nodes.value (getTemplateContents E s.dom target)).kind = .fragment := by
  obtain ⟨f, rest, hchildren, hf⟩ := h.dom.template target htarget htemplate
  have hmem : f ∈ s.nodes.children target := hchildren ▸ List.mem_cons_self
  have hcontents : getTemplateContents E s.dom target = f := by
    rw [getTemplateContents, hE.get_eq_some htarget,
      show E.children s.dom target = f :: rest from hchildren]
    rfl
  rw [hcontents]
  exact ⟨(h.dom.linked.bounded f target ((h.dom.linked.mem_children_iff _ _).mp hmem)).1, hf⟩

/-- The node that `create_element` returns. -/
theorem made_createElement (hE : E.Documented) (dom : E.Tree) (name : QualName)
    (attrs : List Attribute) : Made (E.read (createElement E dom name attrs)) (E.count dom) := by
  have hvalue : (E.read (createElement E dom name attrs)).value (E.count dom) =
      .element name attrs ∧ E.count dom < (E.read (createElement E dom name attrs)).size := by
    have horphan : E.count dom < (E.read (E.orphan dom (.element name attrs))).size := by
      rw [hE.read_orphan]
      exact Nat.lt_succ_self _
    rw [createElement]
    split
    · rw [hE.read_append horphan, hE.read_orphan]
      refine ⟨?_, Nat.lt_succ_of_lt (Nat.lt_succ_self _)⟩
      exact (Function.update_of_ne (by change E.count dom ≠ E.count dom + 1; omega) _ _).trans
        (Function.update_self _ _ _)
    · rw [hE.read_orphan]
      exact ⟨Function.update_self _ _ _, Nat.lt_succ_self _⟩
  refine ⟨⟨hvalue.2, ?_, ?_⟩, fun text => ?_⟩ <;> rw [hvalue.1] <;> rintro ⟨⟩

/-- The node that `create_comment` returns. -/
theorem made_createOther (hE : E.Documented) (dom : E.Tree) :
    Made (E.read (createOther E dom)) (E.count dom) := by
  rw [createOther, hE.read_orphan]
  have hvalue : ((E.read dom).orphan (.new .other)).value (E.count dom) = .new .other :=
    Function.update_self _ _ _
  refine ⟨⟨Nat.lt_succ_self _, ?_, ?_⟩, fun text => ?_⟩ <;> rw [hvalue] <;> rintro ⟨⟩

/-- **What a call does**, as long as the tree builder keeps its promises. -/
theorem SinkInv.callStep (hE : E.Documented) (h : SinkInv s) {call : SinkCall}
    (hpromised : s.Promised call) (hreturns : s.Returns call) :
    ∃ text names, DomStep s.nodes (s.call call).nodes text names (s.Closes call) ∧
      SinkInv (s.call call) := by
  cases call with
  | createElement name attrs =>
      have hst := h.dom.createElement hE name attrs
      refine ⟨_, _, hst, h.of_step hst [E.count s.dom] rfl (fun c hc => ?_) rfl rfl ?_⟩
      · obtain rfl := List.mem_singleton.mp hc
        exact made_createElement hE s.dom name attrs
      · exact (List.append_nil _).symm
  | createOther =>
      have hst := h.dom.orphan (.new .other) rfl
      rw [SinkState.nodes, ← hE.read_orphan] at hst
      refine ⟨_, _, hst, h.of_step hst [E.count s.dom] rfl (fun c hc => ?_) rfl
        (List.append_nil _).symm (List.append_nil _).symm⟩
      obtain rfl := List.mem_singleton.mp hc
      exact made_createOther hE s.dom
  | append parent child =>
      obtain ⟨hparent, hchild, hunplaced⟩ := hpromised
      obtain ⟨hlt, htext⟩ := h.handle hparent
      have hst : DomStep s.nodes (E.read (append E s.dom parent child)) child.text []
          (s.Closes (.append parent child)) := by
        refine (h.dom.append hE hlt htext fun node heq => ?_).congr ?_
        · subst heq
          exact ⟨h.child hchild node rfl, hunplaced, hreturns⟩
        · cases child <;> rfl
      exact ⟨_, _, hst, h.of_texts hst⟩
  | appendBeforeSibling sibling child =>
      obtain ⟨hsibling, hparent, hchild⟩ := hpromised
      have hst : DomStep s.nodes (E.read (appendBeforeSibling E s.dom sibling child))
          child.text [] (s.Closes (.appendBeforeSibling sibling child)) := by
        refine (h.dom.appendBeforeSibling hE (h.created sibling hsibling).loose hparent
          (h.child hchild)).congr ?_
        cases child <;> rfl
      exact ⟨_, _, hst, h.of_texts hst⟩
  | appendBasedOnParentNode element previous child =>
      obtain ⟨helement, hprevious, hchild, hunplaced⟩ := hpromised
      have hst : DomStep s.nodes (E.read (appendBasedOnParentNode E s.dom element previous child))
          child.text [] (s.Closes (.appendBasedOnParentNode element previous child)) := by
        have hbound := (h.created element helement).loose.bound
        rw [appendBasedOnParentNode]
        by_cases hparent : (s.nodes.parent element).isSome
        · rw [if_pos ⟨hE.isSome_get.mpr hbound, hparent⟩]
          refine (h.dom.appendBeforeSibling hE (h.created element helement).loose hparent
            (h.child hchild)).congr ?_
          cases child with
          | appendNode node => exact (iff_of_eq (if_pos hparent)).symm
          | appendText text => rfl
        · have hnone : s.nodes.parent element = none := Option.not_isSome_iff_eq_none.mp hparent
          rw [if_neg fun hboth => hparent hboth.2]
          obtain ⟨hlt, htext⟩ := h.handle (Or.inr (Or.inl hprevious))
          refine (h.dom.append hE hlt htext fun node heq => ?_).congr ?_
          · subst heq
            exact ⟨h.child hchild node rfl, hunplaced hnone, hreturns hnone⟩
          · cases child with
            | appendNode node => exact (iff_of_eq (if_neg hparent)).symm
            | appendText text => rfl
      exact ⟨_, _, hst, h.of_texts hst⟩
  | appendDoctypeToDocument =>
      have hst : DomStep s.nodes (E.read (appendDoctypeToDocument E s.dom))
          (Node.new .other).characters (Node.new .other).elementName.toList False :=
        h.dom.append_new hE h.dom.nonempty (h.handle (Or.inl rfl)).2 rfl (by rintro ⟨⟩)
          (by rintro ⟨⟩)
      exact ⟨_, _, hst, h.of_links hst⟩
  | getTemplateContents target =>
      obtain ⟨htarget, htemplate⟩ := hpromised
      have hcontents := h.templateContents hE (h.created target htarget).loose.bound htemplate
      refine ⟨_, _, .refl h.dom, h.dom, h.created, fun c hc => ?_, h.names, h.texts⟩
      rcases List.mem_append.mp hc with hold | hnew
      · exact h.contents c hold
      · obtain rfl := List.mem_singleton.mp hnew
        exact hcontents
  | addAttrsIfMissing target attrs =>
      have hst : DomStep s.nodes (E.read (addAttrsIfMissing E s.dom target attrs)) [] [] False :=
        h.dom.addAttrsIfMissing hE (h.handle hpromised).1
      exact ⟨_, _, hst, h.of_links hst⟩
  | removeFromParent target =>
      have hloose := (h.created target hpromised).loose
      have hst : DomStep s.nodes (E.read (removeFromParent E s.dom target)) [] [] False := by
        rw [removeFromParent, if_pos (hE.isSome_get.mpr hloose.bound),
          hE.read_detach hloose.bound]
        exact h.dom.detach hloose
      exact ⟨_, _, hst, h.of_links hst⟩
  | reparentChildren node newParent =>
      obtain ⟨hnode, htemplate, hparent⟩ := hpromised
      obtain ⟨hlt, htext⟩ := h.handle hparent
      have hst : DomStep s.nodes (E.read (reparentChildren E s.dom node newParent)) [] []
          (s.Closes (.reparentChildren node newParent)) := by
        rw [reparentChildren, if_pos (hE.isSome_get.mpr hlt),
          hE.read_reparent hlt (h.created node hnode).loose.bound hreturns]
        exact h.dom.reparent hlt htemplate htext hreturns
      exact ⟨_, _, hst, h.of_links hst⟩

/-- A new sink holds the document. -/
theorem read_new (hE : E.Documented) : (SinkState.start : SinkState E).nodes =
    ⟨1, Function.update (fun _ => default) 0 (.new .document), fun _ => none, fun _ => []⟩ :=
  hE.read_new

theorem sinkInv_of_reachable (hE : E.Documented) (h : (sinkSystem E).Reachable s) : SinkInv s := by
  refine h.invariant ?_ ?_
  · rintro _ rfl
    have hread := read_new hE
    have hlinked : (SinkState.start : SinkState E).nodes.Linked :=
      Arena.linked_of_parent_eq_none (by rw [hread]; exact fun _ => rfl)
        (by rw [hread]; exact fun _ => rfl)
    refine ⟨⟨hlinked, ?_, ?_, ?_, ?_, ?_⟩, ?_, ?_, ?_, ?_⟩
    · rw [hread]
      exact Nat.one_pos
    · rw [hread]
      rfl
    · rw [hread]
    · rw [hread]
      rintro c p text ⟨⟩
    · rw [hread]
      intro c hc htemplate
      obtain rfl : c = 0 := Nat.lt_one_iff.mp hc
      cases htemplate
    · rintro c ⟨⟩
    · rintro c ⟨⟩
    · rw [hread]
      rfl
    · rw [hread]
      exact List.Perm.nil
  · rintro s call _ _ hs ⟨hpromised, hreturns, rfl⟩
    exact (hs.callStep hE hpromised hreturns).choose_spec.choose_spec.2

/-- **Calls that close no loop** keep a forest. -/
theorem acyclic_of_run (hE : E.Documented) {calls : List SinkCall}
    (h : (sinkSystem E).Reachable s) (hforest : Arena.Acyclic s.nodes.parent)
    (hrun : ((sinkSystem E).restrict fun s call => ¬s.Closes call).Run s calls t) :
    Arena.Acyclic t.nodes.parent := by
  have hboth : (sinkSystem E).Reachable t ∧ Arena.Acyclic t.nodes.parent := by
    refine hrun.invariant (I := fun u : SinkState E => (sinkSystem E).Reachable u ∧
      Arena.Acyclic u.nodes.parent) ⟨h, hforest⟩ ?_
    rintro u call v ⟨hu, hacyclic⟩ ⟨hstep, hcloses⟩
    refine ⟨hu.step hstep, ?_⟩
    obtain ⟨hpromised, hreturns, rfl⟩ := hstep
    obtain ⟨_, _, hst, -⟩ := (sinkInv_of_reachable hE hu).callStep hE hpromised hreturns
    exact (hst.acyclic hacyclic).mpr hcloses
  exact hboth.2

/-- **The sink keeps parents and children in agreement**, whatever the tree builder calls: every
node is among the children of its parent once, and the document is under nothing; the texts hold the
characters that were handed over, none lost and none twice; from then on nodes stay, keep their
names, and their texts and attributes only get longer. A forest stays one over every run whose calls
close no loop, and a call that closes one makes a cycle of it. -/
theorem sink_keeps_forest (hE : E.Documented) (h : (sinkSystem E).Reachable s) :
    s.nodes.Linked ∧ s.nodes.parent 0 = none ∧ (characters s.nodes).Perm s.received ∧
      (∀ calls t, (sinkSystem E).Run s calls t → ∀ c, c < s.nodes.size → c < t.nodes.size ∧
        (t.nodes.value c).name = (s.nodes.value c).name ∧
        (s.nodes.value c).kind.Grows (t.nodes.value c).kind) ∧
      (Arena.Acyclic s.nodes.parent →
        (∀ calls t, ((sinkSystem E).restrict fun s call => ¬s.Closes call).Run s calls t →
          Arena.Acyclic t.nodes.parent) ∧
        ∀ call t, (sinkSystem E).step s call t → s.Closes call →
          ¬Arena.Acyclic t.nodes.parent) := by
  have hinv := sinkInv_of_reachable hE h
  refine ⟨hinv.dom.linked, hinv.dom.root, hinv.texts, fun calls t hrun => ?_, fun hforest =>
    ⟨fun calls t hrun => acyclic_of_run hE h hforest hrun, ?_⟩⟩
  · refine hrun.preserves
      (R := fun (u v : SinkState E) => ∀ c, c < u.nodes.size → c < v.nodes.size ∧
        (v.nodes.value c).name = (u.nodes.value c).name ∧
        (u.nodes.value c).kind.Grows (v.nodes.value c).kind)
      (fun _ c hc => ⟨hc, rfl, .same _⟩) ?_ h ?_
    · intro u v w huv hvw c hc
      obtain ⟨hlt, hname, hkind⟩ := huv c hc
      obtain ⟨hlt', hname', hkind'⟩ := hvw c hlt
      exact ⟨hlt', hname'.trans hname, hkind.trans hkind'⟩
    · rintro u call _ hu ⟨hpromised, hreturns, rfl⟩ c hc
      obtain ⟨_, _, hst, -⟩ := (sinkInv_of_reachable hE hu).callStep hE hpromised hreturns
      exact ⟨Nat.lt_of_lt_of_le hc hst.size, hst.named c hc, hst.grows c hc⟩
  · rintro call _ ⟨hpromised, hreturns, rfl⟩ hcloses
    obtain ⟨_, _, hst, -⟩ := hinv.callStep hE hpromised hreturns
    exact fun hacyclic => (hst.acyclic hforest).mp hacyclic hcloses

end Runs

/-! ### The parsed tree -/

section Parsed

variable {A : Arena Node} {E : EgoTree Node} {s : SinkState E}

/-- An element or a text. -/
def Node.shown (node : Node) : Bool :=
  match node.kind with
  | .element _ | .text _ => true
  | .document | .fragment | .other => false

/-- The elements and texts that a walk of the extraction meets. -/
def weight (nodes : List HtmlNode) : ℕ :=
  (HtmlNode.elements nodes).length + (HtmlNode.texts nodes).length

theorem weight_nil : weight [] = 0 := by
  rw [weight, HtmlNode.elements.eq_1, HtmlNode.texts.eq_1]
  rfl

theorem weight_cons (node : HtmlNode) (rest : List HtmlNode) :
    weight (node :: rest) =
      node.element?.toList.length + node.text?.toList.length + weight node.children +
        weight rest := by
  rw [weight, elements_cons, texts_cons]
  simp only [List.length_append, weight]
  omega

/-- One node over others. -/
theorem weight_htmlNode (c : ℕ) (node : Node) (children : List HtmlNode) :
    weight [htmlNode c node children] ≤ weight children + (if node.shown then 1 else 0) := by
  rw [weight_cons, weight_nil]
  obtain ⟨name, kind⟩ := node
  cases kind with
  | element attrs =>
      change 1 + 0 + weight children + 0 ≤ weight children + 1
      omega
  | text text =>
      change 0 + 1 + weight [] + 0 ≤ weight children + 1
      rw [weight_nil]
      omega
  | document | fragment | other =>
      change 0 + 0 + weight children + 0 ≤ weight children + 0
      omega

/-- The nodes under some nodes, one after the other. -/
theorem weight_le {visits : List (List ℕ)} {nodes : List HtmlNode} {p : ℕ → Bool}
    (h : List.Forall₂ (fun node visited => weight [node] ≤ visited.countP p) nodes visits) :
    weight nodes ≤ visits.flatten.countP p := by
  induction h with
  | nil => exact Nat.le_of_eq weight_nil
  | @cons node visited nodes visits hnode _ ih =>
      have hone := weight_cons node []
      have hall := weight_cons node nodes
      rw [weight_nil] at hone
      rw [List.flatten_cons, List.countP_append]
      omega

/-- **What the extraction meets under a node** are nodes of the arena, each of them once. -/
theorem weight_le_preorder {fuel c : ℕ} {node : HtmlNode} {visited : List ℕ}
    (hnode : A.fold htmlNode fuel c = some node) (hwalk : A.preorder fuel c = some visited) :
    weight [node] ≤ visited.countP fun x => (A.value x).shown := by
  refine Arena.fold_rel (R := fun node visited =>
    weight [node] ≤ visited.countP fun x => (A.value x).shown) ?_ hnode hwalk
  intro c nodes visits hbelow
  have hweight := weight_le hbelow
  have hstep := weight_htmlNode c (A.value c) nodes
  rw [List.countP_cons]
  omega

/-- The elements under a node, with the node, are fewer than the nodes. -/
theorem DomInv.weight_lt (h : DomInv A) (hforest : Arena.Acyclic A.parent) {c : ℕ}
    {node : HtmlNode} (hnode : A.fold htmlNode A.size c = some node) (hc : c < A.size) :
    weight [node] < A.size := by
  obtain ⟨visited, hwalk⟩ := Option.isSome_iff_exists.mp
    (h.linked.fold_isSome hforest (fun c _ below => c :: List.flatten below) hc)
  have hle := weight_le_preorder hnode hwalk
  have hsub : visited.filter (fun x => (A.value x).shown) ⊆
      (List.range A.size).erase 0 := by
    intro x hx
    obtain ⟨hmem, hshown⟩ := List.mem_filter.mp hx
    rw [List.Nodup.mem_erase_iff List.nodup_range]
    refine ⟨?_, List.mem_range.mpr ?_⟩
    · rintro rfl
      rw [Node.shown, h.document] at hshown
      cases hshown
    · rcases Relation.ReflTransGen.cases_head ((h.linked.mem_preorder_iff hwalk).mp hmem) with
        rfl | ⟨y, hy, -⟩
      · exact hc
      · exact (h.linked.bounded x y hy).1
  have hlength := ((h.linked.preorder_nodup hforest hwalk).filter _).subperm hsub |>.length_le
  rw [List.length_erase_of_mem (List.mem_range.mpr h.nonempty), List.length_range,
    ← List.countP_eq_length_filter] at hlength
  have := h.nonempty
  omega

/-- What is shown of an element. -/
theorem mem_htmlDom {e : HtmlElement} (he : e ∈ (htmlDom A).elements) :
    ∃ c, c < A.size ∧
      A.fold htmlNode A.size c = some (.element e.name e.lang e.children) := by
  obtain ⟨c, hc, hwrap⟩ := List.mem_filterMap.mp he
  obtain ⟨node, hnode, hwrap⟩ := Option.bind_eq_some_iff.mp hwrap
  refine ⟨c, List.mem_range.mp hc, hnode.trans ?_⟩
  cases node with
  | element name lang children => rw [← Option.some.inj hwrap]
  | text t => cases hwrap
  | other children => cases hwrap

/-- **The node limit bounds the work on a candidate.** -/
theorem DomInv.blocks_le (h : DomInv A) (hforest : Arena.Acyclic A.parent) {c : Candidate}
    (hc : c ∈ extractCandidates (htmlDom A)) : c.blocks.length ≤ A.size := by
  rcases extractCandidates_cases hc with hempty | ⟨e, he, -, hcandidate⟩
  · rw [hempty]
    exact Nat.zero_le _
  · obtain ⟨x, hx, hnode⟩ := mem_htmlDom he
    have hweight := h.weight_lt hforest hnode hx
    rw [hcandidate]
    refine Nat.le_trans (List.length_filterMap_le _ _) ?_
    rw [HtmlElement.elements, List.length_cons]
    rw [weight] at hweight
    omega

/-- The elements, in the order of their creation. -/
theorem DomInv.names_htmlDom (h : DomInv A) (hforest : Arena.Acyclic A.parent) :
    (htmlDom A).elements.map HtmlElement.name =
      (elementNames A).map QualName.localName := by
  rw [htmlDom, elementNames, List.map_filterMap, List.map_filterMap]
  refine List.filterMap_congr fun c hc => ?_
  obtain ⟨node, hnode⟩ := Option.isSome_iff_exists.mp
    (h.linked.fold_isSome hforest htmlNode (List.mem_range.mp hc))
  have hsize : ∃ fuel, A.size = fuel + 1 := ⟨A.size - 1, by have := h.nonempty; omega⟩
  obtain ⟨fuel, hfuel⟩ := hsize
  rw [hnode]
  rw [hfuel, Arena.fold] at hnode
  obtain ⟨children, -, rfl⟩ := Option.map_eq_some_iff.mp hnode
  rw [Node.elementName, htmlNode]
  cases (A.value c).kind <;> rfl

/-- **What the extraction sees of a parsed tree** without cycle: the elements that were created, in
their order; under each of them fewer elements and texts than the tree has nodes; and where the
conversion succeeds, a document of at most as many blocks as the node limit allows. -/
theorem parsed_dom_bounded (hE : E.Documented) (h : (sinkSystem E).Reachable s)
    (hforest : Arena.Acyclic s.nodes.parent) :
    (htmlDom s.nodes).elements.map HtmlElement.name = s.names.map QualName.localName ∧
    (∀ e ∈ (htmlDom s.nodes).elements,
      e.elements.length + e.texts.length ≤ (htmlDom s.nodes).nodeCount) ∧
    ∀ (lib : HtmlLib) (input : DocumentInput) (limits : ParserConfig) (extraction : Extraction),
      lib.parse input.bytes = htmlDom s.nodes → fromHtml lib input limits = .ok extraction →
      extraction.document.blocks.length ≤ limits.maxDomNodes := by
  have hinv := sinkInv_of_reachable hE h
  refine ⟨?_, fun e he => ?_, fun lib input limits extraction hparse hok => ?_⟩
  · rw [hinv.dom.names_htmlDom hforest, hinv.names]
  · obtain ⟨c, hc, hnode⟩ := mem_htmlDom he
    have hweight := hinv.dom.weight_lt hforest hnode hc
    rw [weight, texts_cons] at hweight
    rw [HtmlElement.elements, List.length_cons, HtmlElement.texts]
    rw [List.length_append, List.length_append] at hweight
    change _ ≤ s.nodes.size
    have hchildren : (HtmlNode.element e.name e.lang e.children).children = e.children := rfl
    rw [hchildren] at hweight
    omega
  · obtain ⟨⟨assembly, decisions⟩, hassembly, hok⟩ := Except.bind_eq_ok_iff.mp hok
    obtain ⟨document, hdocument, hok⟩ := Except.bind_eq_ok_iff.mp hok
    obtain rfl := Except.ok.inj hok
    obtain ⟨-, -, hassembly⟩ := Except.bind_eq_ok_iff.mp hassembly
    obtain ⟨_, hlimit, hassembly⟩ := Except.bind_eq_ok_iff.mp hassembly
    obtain ⟨best, -, hassembly⟩ := Except.bind_eq_ok_iff.mp hassembly
    obtain ⟨selected, hselected, hassembly⟩ := Except.bind_eq_ok_iff.mp hassembly
    have hmem := List.mem_of_find?_eq_some (Except.okOr_eq_ok_iff.mp hselected)
    rw [hparse] at hmem hlimit
    have hblocks := hinv.dom.blocks_le hforest hmem
    have hlength : document.blocks.length = selected.blocks.length := by
      cases hassembly
      have htexts := (assembleDocument_contents hdocument).2
      have hlengths := congrArg List.length htexts
      rwa [List.length_map, List.length_map] at hlengths
    rw [hlength]
    exact Nat.le_trans hblocks (Except.require_eq_ok_iff.mp hlimit)

end Parsed

/-! ### A page -/

section Page

/-- An arena with the operations of the crate. -/
def arenaTree (α : Type) : EgoTree α where
  Tree := Arena α
  new := Arena.new
  count := Arena.size
  get A c := if c < A.size then some (A.value c) else none
  parent := Arena.parent
  children := Arena.children
  orphan := Arena.orphan
  update := Arena.modify
  detach := Arena.detach
  appendId A p c := (A.detach c).link p c ((A.detach c).children p ++ [c])
  append A p a := (A.orphan a).link p A.size (A.children p ++ [A.size])
  insertIdBefore A s c :=
    match A.parent s with
    | none => A
    | some p => A.link p c (Arena.putBefore s c (A.children p))
  insertBefore A s a :=
    match A.parent s with
    | none => A
    | some p => (A.orphan a).link p A.size (Arena.putBefore s A.size (A.children p))
  reparentFromIdAppend A p src := A.reparent src p

/-- One more value. -/
theorem get_orphan {α : Type} (A : Arena α) (a : α) : (arenaTree α).get (A.orphan a) =
    Function.update ((arenaTree α).get A) A.size (some a) := by
  funext x
  change (if x < A.size + 1 then some (Function.update A.value A.size a x) else none) = _
  by_cases hx : x = A.size
  · subst hx
    rw [if_pos (Nat.lt_succ_self _), Function.update_self, Function.update_self]
  · rw [Function.update_of_ne hx, Function.update_of_ne hx]
    change _ = if x < A.size then some (A.value x) else none
    by_cases hlt : x < A.size
    · rw [if_pos hlt, if_pos (Nat.lt_succ_of_lt hlt)]
    · rw [if_neg hlt, if_neg (by omega)]

/-- **It keeps what the crate documents.** -/
theorem arenaTree_documented (α : Type) : (arenaTree α).Documented where
  get_isSome A c := by
    change (if c < A.size then some (A.value c) else none).isSome = true ↔ c < A.size
    split
    · next h => exact iff_of_true rfl h
    · next h => exact iff_of_false Bool.false_ne_true h
  new a := by
    refine ⟨rfl, funext fun c => ?_, rfl, rfl⟩
    change (if c < 1 then some a else none) = _
    by_cases hc : c = 0
    · subst hc
      rfl
    · rw [if_neg (by omega), Function.update_of_ne hc]
  orphan A a := ⟨rfl, get_orphan A a, rfl, rfl⟩
  update A c f hc := by
    refine ⟨rfl, funext fun x => ?_, rfl, rfl⟩
    change (if x < A.size then some (Function.update A.value c (f (A.value c)) x) else none) = _
    by_cases hx : x = c
    · subst hx
      have hget : (arenaTree α).get A x = some (A.value x) := if_pos hc
      rw [Function.update_self, Function.update_self, hget]
      exact if_pos hc
    · rw [Function.update_of_ne hx, Function.update_of_ne hx]
      rfl
  detach A c p hp := by
    change (arenaTree α).Reads (A.detach c) _ _ _ _
    rw [Arena.detach_of_parent_eq_some hp]
    exact ⟨rfl, rfl, rfl, rfl⟩
  detach_orphan A c hc hp := by
    change (arenaTree α).Reads (A.detach c) _ _ _ _
    rw [Arena.detach_of_parent_eq_none hp]
    exact ⟨rfl, rfl, rfl, rfl⟩
  appendId A p c hp hc halone hne := by
    change (arenaTree α).Reads ((A.detach c).link p c ((A.detach c).children p ++ [c])) _ _ _ _
    rw [Arena.detach_of_parent_eq_none halone]
    exact ⟨rfl, rfl, rfl, rfl⟩
  append A p a hp := ⟨rfl, get_orphan A a, rfl, rfl⟩
  insertIdBefore A s c p hs hc halone hne := by
    have hs : A.parent s = some p := hs
    change (arenaTree α).Reads (match A.parent s with
      | none => A
      | some p => A.link p c (Arena.putBefore s c (A.children p))) _ _ _ _
    rw [hs]
    exact ⟨rfl, rfl, rfl, rfl⟩
  insertBefore A s a p hs := by
    have hs : A.parent s = some p := hs
    change (arenaTree α).Reads (match A.parent s with
      | none => A
      | some p => (A.orphan a).link p A.size (Arena.putBefore s A.size (A.children p))) _ _ _ _
    rw [hs]
    exact ⟨rfl, get_orphan A a, rfl, rfl⟩
  reparent A p src hp hsrc hne := ⟨rfl, rfl, rfl, rfl⟩

variable {s t : SinkState (arenaTree Node)}

/-- A call that keeps the promises in an obvious way and closes no loop: a node that is moved is a
created one without parent and children. -/
def obvious (s : SinkState (arenaTree Node)) : SinkCall → Bool
  | .createElement _ _ => true
  | .append parent (.appendNode node) =>
      (parent == 0 || s.created.contains parent) && s.created.contains node &&
        ((arenaTree Node).parent s.dom node).isNone &&
        ((arenaTree Node).children s.dom node).isEmpty && parent != node
  | .append parent (.appendText _) => parent == 0 || s.created.contains parent
  | _ => false

/-- The state after some calls, all of them obvious. -/
def callAll : SinkState (arenaTree Node) → List SinkCall → Option (SinkState (arenaTree Node))
  | s, [] => some s
  | s, call :: calls => if obvious s call then callAll (s.call call) calls else none

theorem promised_of_obvious (h : (sinkSystem (arenaTree Node)).Reachable s) {call : SinkCall}
    (hcall : obvious s call = true) : s.Promised call ∧ s.Returns call ∧ ¬s.Closes call := by
  have hhandle : ∀ parent, (parent == 0 || s.created.contains parent) = true →
      s.Handle parent := by
    intro parent hparent
    rcases Bool.or_eq_true_iff.mp hparent with hzero | hmem
    · exact Or.inl (beq_iff_eq.mp hzero)
    · exact Or.inr (Or.inl (List.contains_iff_mem.mp hmem))
  cases call with
  | createElement name attrs => exact ⟨trivial, trivial, not_false⟩
  | append parent child =>
      cases child with
      | appendText text => exact ⟨⟨hhandle parent hcall, trivial, trivial⟩, trivial, not_false⟩
      | appendNode node =>
          rw [obvious, Bool.and_eq_true, Bool.and_eq_true, Bool.and_eq_true,
            Bool.and_eq_true] at hcall
          obtain ⟨⟨⟨⟨hparent, hnode⟩, halone⟩, hleaf⟩, hne⟩ := hcall
          have hne : parent ≠ node := bne_iff_ne.mp hne
          have hlinked := (sinkInv_of_reachable (arenaTree_documented Node) h).dom.linked
          refine ⟨⟨hhandle parent hparent, List.contains_iff_mem.mp hnode,
            Option.isNone_iff_eq_none.mp halone⟩, hne, fun hu => ?_⟩
          exact hne (hlinked.eq_of_under_leaf (List.isEmpty_iff.mp hleaf) hu)
  | _ => cases hcall

theorem run_of_callAll (h : (sinkSystem (arenaTree Node)).Reachable s) {calls : List SinkCall}
    (hcalls : callAll s calls = some t) :
    ((sinkSystem (arenaTree Node)).restrict fun s call => ¬s.Closes call).Run s calls t := by
  induction calls generalizing s with
  | nil =>
      cases hcalls
      exact .nil _
  | cons call calls ih =>
      obtain ⟨hobvious, hcalls⟩ := Option.ite_none_right_eq_some.mp hcalls
      obtain ⟨hpromised, hreturns, hcloses⟩ := promised_of_obvious h hobvious
      have hstep : (sinkSystem (arenaTree Node)).step s call (s.call call) :=
        ⟨hpromised, hreturns, rfl⟩
      exact .cons ⟨hstep, hcloses⟩ (ih (h.step hstep) hcalls)

/-- An element of a page. -/
def tag (name : String) : SinkCall :=
  .createElement ⟨none, "http://www.w3.org/1999/xhtml", name⟩ []

/-- The calls for one paragraph of a page, which is the node `node`. -/
def paragraphCalls (node : ℕ) : List SinkCall :=
  [tag "p", .append 3 (.appendNode node), .append node (.appendText pageText)]

/-- The calls for a page of four paragraphs. -/
def pageCalls : List SinkCall :=
  [tag "html", .append 0 (.appendNode 1), tag "head", .append 1 (.appendNode 2), tag "body",
    .append 1 (.appendNode 3)] ++ paragraphCalls 4 ++ paragraphCalls 6 ++ paragraphCalls 8 ++
    paragraphCalls 10

theorem pageCalls_obvious : (callAll .start pageCalls).isSome = true := by decide +kernel

/-- The page. -/
def pageState : SinkState (arenaTree Node) := (callAll .start pageCalls).get pageCalls_obvious

theorem pageState_run :
    ((sinkSystem (arenaTree Node)).restrict fun u call => ¬u.Closes call).Run .start pageCalls
      pageState :=
  run_of_callAll (.init rfl) (Option.some_get _).symm

theorem pageState_reachable : (sinkSystem (arenaTree Node)).Reachable pageState :=
  ⟨_, pageCalls, rfl, pageState_run.of_restrict⟩

theorem start_acyclic :
    Arena.Acyclic (SinkState.start : SinkState (arenaTree Node)).nodes.parent :=
  Arena.acyclic_of_parent_eq_none fun _ => rfl

theorem htmlDom_pageState : htmlDom pageState.nodes = ⟨12, [pageRoot 4 pageText,
    ⟨"head", none, []⟩, pageBody 4 pageText] ++
      List.replicate 4 ⟨"p", none, [.text pageText]⟩⟩ := rfl

theorem parse_pageState : pageLib.parse pageInput.bytes = htmlDom pageState.nodes := by
  have hpage : paragraphPage 4 pageText = htmlDom pageState.nodes := by
    rw [htmlDom_pageState, ← elements_paragraphPage]
    rfl
  rw [pageInput, parse_pageSource, hpage]

/-- The characters of the four paragraphs are all there, and the nodes form a forest. -/
theorem sink_keeps_forest_page : pageState.received.length = 300 ∧
    (characters pageState.nodes).Perm pageState.received ∧
      Arena.Acyclic pageState.nodes.parent :=
  ⟨by decide +kernel,
    (sink_keeps_forest (arenaTree_documented Node) pageState_reachable).2.2.1,
    ((sink_keeps_forest (arenaTree_documented Node) (.init rfl)).2.2.2.2 start_acyclic).1 _ _
      pageState_run⟩

/-- The document of the page is within the limit. -/
theorem parsed_dom_bounded_page : ∃ extraction, fromHtml pageLib pageInput pageLimits =
    .ok extraction ∧ extraction.document.blocks.length ≤ 12 := by
  obtain ⟨extraction, hok⟩ := fromHtml_page
  have hforest := acyclic_of_run (arenaTree_documented Node) (.init rfl) start_acyclic pageState_run
  exact ⟨extraction, hok, (parsed_dom_bounded (arenaTree_documented Node) pageState_reachable
    hforest).2.2 _ _ pageLimits extraction parse_pageState hok⟩

end Page

end DomSink

end Extractor
