import Extractor.CandidateChoice
import Extractor.Lib.Incidence

/-!
# Which text a candidate counts

A candidate collects its blocks by a walk over all elements under its container, and the blocks
inside boilerplate by one more walk under each boilerplate element. Nothing relates the walks, so a
paragraph inside a heading is extracted twice, and a paragraph under two boilerplate elements is
excluded twice.

The nodes under a container have places: the indices of the children on the way. An element contains
what stands at the places that extend its own.

## Main definitions

* `HtmlElement.nodes`: the nodes under an element, with their places.
* `CountedOnce`: every text is extracted once and excluded at most once.

## Main results

* `placed_within`: what stands within the place of a node is the node and what is under it.
* `countedOnce_iff`: a candidate counts every text once exactly when no block lies in another one,
  and none in two boilerplate elements.
-/

namespace Extractor

open Incidence

/-! ### Places -/

/-- A place: the indices of the children on the way from the top. -/
abbrev Place := List ℕ

/-- The nodes among some siblings and under them, with their places, in document order: the siblings
are the children at a place from some index on. -/
def HtmlNode.placed (place : Place) (index : ℕ) : List HtmlNode → List (Place × HtmlNode)
  | [] => []
  | .element name lang children :: rest =>
      (place ++ [index], .element name lang children) ::
        (placed (place ++ [index]) 0 children ++ placed place (index + 1) rest)
  | .text t :: rest => (place ++ [index], .text t) :: placed place (index + 1) rest
  | .other children :: rest =>
      (place ++ [index], .other children) ::
        (placed (place ++ [index]) 0 children ++ placed place (index + 1) rest)

/-- The children of a node. -/
def HtmlNode.children : HtmlNode → List HtmlNode
  | .element _ _ children => children
  | .text _ => []
  | .other children => children

/-- The element of a node. -/
def HtmlNode.element? : HtmlNode → Option HtmlElement
  | .element name lang children => some ⟨name, lang, children⟩
  | _ => none

/-- The text of a node. -/
def HtmlNode.text? : HtmlNode → Option String
  | .text t => some t
  | _ => none

section Places

/-- Induction over nodes and what is under them. -/
@[elab_as_elim]
theorem siblings_induction {motive : List HtmlNode → Prop} (siblings : List HtmlNode)
    (nil : motive [])
    (cons : ∀ node rest, motive node.children → motive rest → motive (node :: rest)) :
    motive siblings := by
  induction siblings using HtmlNode.elements.induct with
  | case1 => exact nil
  | case2 name lang children rest hchildren hrest => exact cons _ _ hchildren hrest
  | case3 t rest hrest => exact cons _ _ nil hrest
  | case4 children rest hchildren hrest => exact cons _ _ hchildren hrest

variable {place : Place} {index : ℕ} {siblings : List HtmlNode} {x : Place × HtmlNode}

/-- One node: itself, what is under it, and its later siblings. -/
theorem placed_cons (place : Place) (index : ℕ) (node : HtmlNode) (rest : List HtmlNode) :
    HtmlNode.placed place index (node :: rest) =
      (place ++ [index], node) :: (HtmlNode.placed (place ++ [index]) 0 node.children ++
        HtmlNode.placed place (index + 1) rest) := by
  cases node with
  | element name lang children => rw [HtmlNode.placed, HtmlNode.children]
  | text t =>
      rw [HtmlNode.placed, HtmlNode.children, HtmlNode.placed.eq_1]
      rfl
  | other children => rw [HtmlNode.placed, HtmlNode.children]

theorem elements_cons (node : HtmlNode) (rest : List HtmlNode) :
    HtmlNode.elements (node :: rest) =
      node.element?.toList ++ (HtmlNode.elements node.children ++ HtmlNode.elements rest) := by
  cases node with
  | element name lang children => rw [HtmlNode.elements]; rfl
  | text t => rw [HtmlNode.elements, HtmlNode.children, HtmlNode.elements.eq_1]; rfl
  | other children => rw [HtmlNode.elements]; rfl

theorem texts_cons (node : HtmlNode) (rest : List HtmlNode) :
    HtmlNode.texts (node :: rest) =
      node.text?.toList ++ (HtmlNode.texts node.children ++ HtmlNode.texts rest) := by
  cases node with
  | element name lang children => rw [HtmlNode.texts]; rfl
  | text t => rw [HtmlNode.texts, HtmlNode.children, HtmlNode.texts.eq_1]; rfl
  | other children => rw [HtmlNode.texts]; rfl

/-- The elements are the elements among the nodes. -/
theorem filterMap_element_placed (place : Place) (index : ℕ) (siblings : List HtmlNode) :
    (HtmlNode.placed place index siblings).filterMap (fun x => x.2.element?) =
      HtmlNode.elements siblings := by
  induction siblings using siblings_induction generalizing place index with
  | nil => rw [HtmlNode.placed, HtmlNode.elements, List.filterMap_nil]
  | cons node rest hchildren hrest =>
      rw [placed_cons, elements_cons, List.filterMap_cons, List.filterMap_append, hchildren, hrest]
      cases node.element? <;> rfl

/-- The texts are the texts among the nodes. -/
theorem filterMap_text_placed (place : Place) (index : ℕ) (siblings : List HtmlNode) :
    (HtmlNode.placed place index siblings).filterMap (fun x => x.2.text?) =
      HtmlNode.texts siblings := by
  induction siblings using siblings_induction generalizing place index with
  | nil => rw [HtmlNode.placed, HtmlNode.texts, List.filterMap_nil]
  | cons node rest hchildren hrest =>
      rw [placed_cons, texts_cons, List.filterMap_cons, List.filterMap_append, hchildren, hrest]
      cases node.text? <;> rfl

/-- Siblings stand at a place from an index on. -/
theorem exists_index (hx : x ∈ HtmlNode.placed place index siblings) :
    ∃ i, index ≤ i ∧ place ++ [i] <+: x.1 := by
  induction siblings using siblings_induction generalizing place index with
  | nil =>
      rw [HtmlNode.placed] at hx
      cases hx
  | cons node rest hchildren hrest =>
      rw [placed_cons, List.mem_cons, List.mem_append] at hx
      rcases hx with rfl | hx | hx
      · exact ⟨index, Nat.le_refl _, List.prefix_refl _⟩
      · obtain ⟨i, -, hi⟩ := hchildren hx
        exact ⟨index, Nat.le_refl _, (List.prefix_append _ [i]).trans hi⟩
      · obtain ⟨i, hindex, hi⟩ := hrest hx
        exact ⟨i, Nat.le_of_succ_le hindex, hi⟩

/-- Nodes under different siblings do not lie within each other. -/
theorem not_within {i j : ℕ} {p q : Place} (hp : place ++ [i] <+: p) (hq : place ++ [j] <+: q)
    (hij : i ≠ j) : ¬ p <+: q := by
  intro hpq
  have h := List.prefix_of_prefix_length_le (hp.trans hpq) hq (by simp)
  have heq := List.append_cancel_left (h.eq_of_length (by simp))
  exact hij (List.singleton_inj.mp heq)

/-- Nothing of some nodes lies within a place that is apart from theirs. -/
theorem filter_within_eq_nil {p : Place} {nodes : List (Place × HtmlNode)}
    (h : ∀ y ∈ nodes, ¬ p <+: y.1) : nodes.filter (fun y => p.isPrefixOf y.1) = [] :=
  List.filter_eq_nil_iff.mpr fun y hy hp => h y hy (List.isPrefixOf_iff_prefix.mp hp)

/-- The children of a node lie within its place. -/
theorem within_of_mem_children {y : Place × HtmlNode}
    (hy : y ∈ HtmlNode.placed place 0 siblings) : place <+: y.1 := by
  obtain ⟨i, -, hi⟩ := exists_index hy
  exact (List.prefix_append _ _).trans hi

/-- **What stands within the place of a node** is the node and what is under it. -/
theorem placed_within (hx : x ∈ HtmlNode.placed place index siblings) :
    (HtmlNode.placed place index siblings).filter (fun y => x.1.isPrefixOf y.1) =
      x :: HtmlNode.placed x.1 0 x.2.children := by
  induction siblings using siblings_induction generalizing place index with
  | nil =>
      rw [HtmlNode.placed] at hx
      cases hx
  | cons node rest hchildren hrest =>
      rw [placed_cons, List.mem_cons, List.mem_append] at hx
      rw [placed_cons, List.filter_cons, List.filter_append]
      rcases hx with rfl | hx | hx
      · -- the first sibling itself
        have hunder : (HtmlNode.placed (place ++ [index]) 0 node.children).filter
            (fun y => (place ++ [index]).isPrefixOf y.1) =
            HtmlNode.placed (place ++ [index]) 0 node.children :=
          List.filter_eq_self.mpr fun y hy =>
            List.isPrefixOf_iff_prefix.mpr (within_of_mem_children hy)
        have hlater : (HtmlNode.placed place (index + 1) rest).filter
            (fun y => (place ++ [index]).isPrefixOf y.1) = [] :=
          filter_within_eq_nil fun y hy => by
            obtain ⟨i, hindex, hi⟩ := exists_index hy
            exact not_within (List.prefix_refl _) hi (Nat.ne_of_lt hindex)
        rw [if_pos (List.isPrefixOf_iff_prefix.mpr (List.prefix_refl _)), hunder, hlater,
          List.append_nil]
      · -- under the first sibling
        obtain ⟨i, -, hi⟩ := exists_index hx
        have hfirst : ¬ x.1 <+: place ++ [index] := by
          intro h
          have hlength := (hi.trans h).length_le
          rw [List.length_append] at hlength
          exact absurd hlength (by simp)
        have hlater : (HtmlNode.placed place (index + 1) rest).filter
            (fun y => x.1.isPrefixOf y.1) = [] :=
          filter_within_eq_nil fun y hy => by
            obtain ⟨j, hindex, hj⟩ := exists_index hy
            exact not_within (within_of_mem_children hx) hj (Nat.ne_of_lt hindex)
        rw [if_neg (mt List.isPrefixOf_iff_prefix.mp hfirst), hchildren hx, hlater, List.append_nil]
      · -- a later sibling, or under one
        obtain ⟨i, hindex, hi⟩ := exists_index hx
        have hfirst : ¬ x.1 <+: place ++ [index] :=
          not_within hi (List.prefix_refl _) (Nat.ne_of_gt hindex)
        have hunder : (HtmlNode.placed (place ++ [index]) 0 node.children).filter
            (fun y => x.1.isPrefixOf y.1) = [] :=
          filter_within_eq_nil fun y hy =>
            not_within hi (within_of_mem_children hy) (Nat.ne_of_gt hindex)
        rw [if_neg (mt List.isPrefixOf_iff_prefix.mp hfirst), hunder, List.nil_append, hrest hx]

/-- Distinct nodes have distinct places. -/
theorem nodup_places (place : Place) (index : ℕ) (siblings : List HtmlNode) :
    ((HtmlNode.placed place index siblings).map Prod.fst).Nodup := by
  induction siblings using siblings_induction generalizing place index with
  | nil =>
      rw [HtmlNode.placed]
      exact List.nodup_nil
  | cons node rest hchildren hrest =>
      rw [placed_cons, List.map_cons, List.map_append, List.nodup_cons]
      refine ⟨?_, (hchildren _ _).append (hrest _ _) ?_⟩
      · intro hmem
        rcases List.mem_append.mp hmem with h | h
        · obtain ⟨y, hy, heq⟩ := List.mem_map.mp h
          obtain ⟨i, -, hi⟩ := exists_index hy
          rw [heq] at hi
          have hlength : (place ++ [index] ++ [i]).length ≤ (place ++ [index]).length := hi.length_le
          simp at hlength
        · obtain ⟨y, hy, heq⟩ := List.mem_map.mp h
          obtain ⟨i, hindex, hi⟩ := exists_index hy
          exact not_within (List.prefix_refl _) hi (Nat.ne_of_lt hindex) (heq ▸ List.prefix_refl _)
      · intro p hp hq
        obtain ⟨y, hy, rfl⟩ := List.mem_map.mp hp
        obtain ⟨z, hz, heq⟩ := List.mem_map.mp hq
        obtain ⟨i, hindex, hi⟩ := exists_index hz
        exact not_within (within_of_mem_children hy) hi (Nat.ne_of_lt hindex)
          (heq ▸ List.prefix_refl _)

end Places

/-! ### What the nodes under an element yield -/

/-- The node of an element. -/
def HtmlElement.node (e : HtmlElement) : HtmlNode := .element e.name e.lang e.children

/-- The nodes under an element, with their places; its own is the first one. -/
def HtmlElement.nodes (e : HtmlElement) : List (Place × HtmlNode) := HtmlNode.placed [] 0 [e.node]

/-- What the nodes under an element yield, at their places. -/
def HtmlElement.yields {α : Type} (e : HtmlElement) (f : HtmlNode → Option α) :
    List (Place × α) :=
  e.nodes.filterMap fun x => (f x.2).map fun a => (x.1, a)

/-- The elements under an element. -/
def HtmlElement.placedElements (e : HtmlElement) : List (Place × HtmlElement) :=
  e.yields HtmlNode.element?

/-- The text nodes under an element. -/
def HtmlElement.placedTexts (e : HtmlElement) : List (Place × String) := e.yields HtmlNode.text?

/-- The blocks under an element, each at the place of its heading or paragraph. -/
def HtmlElement.placedBlocks (e : HtmlElement) : List (Place × DocumentBlock) :=
  e.yields fun node => node.element?.bind block

/-- The elements that `candidate` excludes. -/
def isBoilerplate (e : HtmlElement) : Bool :=
  ["aside", "footer", "form", "header", "nav"].contains e.name

/-- The boilerplate elements under an element. -/
def HtmlElement.placedBoilerplate (e : HtmlElement) : List (Place × HtmlElement) :=
  e.placedElements.filter fun b => isBoilerplate b.2

section Yields

variable {α : Type} {e e' : HtmlElement} {f : HtmlNode → Option α} {p : Place} {a : α}

theorem mem_yields : (p, a) ∈ e.yields f ↔ ∃ node, (p, node) ∈ e.nodes ∧ f node = some a := by
  rw [HtmlElement.yields, List.mem_filterMap]
  constructor
  · rintro ⟨⟨q, node⟩, hmem, heq⟩
    obtain ⟨b, hb, heq⟩ := Option.map_eq_some_iff.mp heq
    cases heq
    exact ⟨node, hmem, hb⟩
  · rintro ⟨node, hmem, hf⟩
    exact ⟨(p, node), hmem, Option.map_eq_some_iff.mpr ⟨a, hf, rfl⟩⟩

/-- What nodes yield, without the places. -/
theorem map_snd_filterMap (nodes : List (Place × HtmlNode)) (f : HtmlNode → Option α) :
    (nodes.filterMap fun x => (f x.2).map fun a => (x.1, a)).map Prod.snd =
      nodes.filterMap fun x => f x.2 := by
  rw [List.map_filterMap]
  refine List.filterMap_congr fun x _ => ?_
  cases f x.2 <;> rfl

/-- What different nodes yield is at different places. -/
theorem nodup_yields (e : HtmlElement) (f : HtmlNode → Option α) :
    ((e.yields f).map Prod.fst).Nodup := by
  have hsublist : ∀ nodes : List (Place × HtmlNode),
      ((nodes.filterMap fun x => (f x.2).map fun a => (x.1, a)).map Prod.fst).Sublist
        (nodes.map Prod.fst) := by
    intro nodes
    induction nodes with
    | nil => exact List.Sublist.refl []
    | cons x nodes ih =>
        rw [List.filterMap_cons, List.map_cons]
        cases f x.2 with
        | none => exact ih.cons _
        | some a => exact ih.cons_cons _
  exact (nodup_places [] 0 [e.node]).sublist (hsublist _)

/-- What is within the place of an element is what it and the nodes under it yield. -/
theorem yields_within (he' : (p, e') ∈ e.placedElements) (f : HtmlNode → Option α) :
    ((e.yields f).filter fun y => p.isPrefixOf y.1).map Prod.snd =
      (f e'.node).toList ++ (HtmlNode.placed p 0 e'.children).filterMap fun x => f x.2 := by
  obtain ⟨node, hmem, hnode⟩ := mem_yields.mp he'
  obtain rfl : node = e'.node := by
    cases node with
    | element name lang children =>
        cases hnode
        rfl
    | text t => cases hnode
    | other children => cases hnode
  have hwithin := placed_within hmem
  have hfilter : ((e.yields f).filter fun y => p.isPrefixOf y.1) =
      (e.nodes.filter fun y => p.isPrefixOf y.1).filterMap fun x =>
        (f x.2).map fun a => (x.1, a) := by
    rw [HtmlElement.yields, List.filter_filterMap, List.filterMap_filter]
    refine List.filterMap_congr fun x _ => ?_
    cases f x.2 with
    | none => simp
    | some a => exact Option.filter_some
  rw [hfilter, map_snd_filterMap, HtmlElement.nodes, hwithin, List.filterMap_cons]
  cases f e'.node <;> rfl

/-- The texts of an element are those of the text nodes within its place. -/
theorem texts_within (he' : (p, e') ∈ e.placedElements) :
    (e.placedTexts.filter fun y => p.isPrefixOf y.1).map Prod.snd = e'.texts := by
  rw [HtmlElement.placedTexts, yields_within he', filterMap_text_placed]
  rfl

/-- The blocks of an element that makes none itself are those within its place. -/
theorem blocks_within (he' : (p, e') ∈ e.placedElements) (hblock : block e' = none) :
    (e.placedBlocks.filter fun y => p.isPrefixOf y.1).map Prod.snd = e'.blocks := by
  have hunder : ((HtmlNode.placed p 0 e'.children).filterMap fun x => x.2.element?.bind block) =
      (HtmlNode.elements e'.children).filterMap block := by
    rw [← filterMap_element_placed p 0, List.filterMap_filterMap]
  have hself : e'.node.element?.bind block = none := hblock
  rw [HtmlElement.placedBlocks, yields_within he', hself, hunder, HtmlElement.blocks,
    HtmlElement.elements, elements_cons]
  simp only [HtmlNode.element?, HtmlNode.children, HtmlNode.elements, Option.toList_some,
    Option.toList_none, List.append_nil, List.cons_append, List.nil_append, List.filterMap_cons,
    hblock]

/-- An element is at the first place under itself. -/
theorem mem_placedElements_self (e : HtmlElement) : ([0], e) ∈ e.placedElements := by
  refine mem_yields.mpr ⟨e.node, ?_, rfl⟩
  rw [HtmlElement.nodes, placed_cons]
  exact List.mem_cons_self

/-- Everything under an element is within its place. -/
theorem within_self {y : Place × α} (hy : y ∈ e.yields f) : [0] <+: y.1 := by
  obtain ⟨node, hnode, -⟩ := mem_yields.mp hy
  rw [HtmlElement.nodes, placed_cons, HtmlNode.placed.eq_1, List.append_nil, List.mem_cons] at hnode
  rcases hnode with heq | hnode
  · rw [(Prod.mk.inj heq).1]
    exact List.prefix_refl _
  · exact within_of_mem_children hnode

end Yields

/-! ### Counting once -/

/-- **Every text is counted once**: the blocks are those at the places under the container, a text
node with a word is in at most one of them, and the characters of a block are excluded once where it
is inside boilerplate, so no more are excluded than there are. -/
structure CountedOnce (root : HtmlElement) (c : Candidate) : Prop where
  blocks : c.blocks = root.placedBlocks.map Prod.snd
  text : ∀ q t, (q, t) ∈ root.placedTexts → Text.splitWhitespace t.toList ≠ [] →
    root.placedBlocks.countP (fun s => s.1.isPrefixOf q) ≤ 1
  boilerplate : c.boilerplateCharacters =
    ((root.placedBlocks.filter fun s =>
      root.placedBoilerplate.any fun b => b.1.isPrefixOf s.1).map fun s => blockTextLen s.2).sum
  bounded : c.boilerplateCharacters ≤ (c.blocks.map blockTextLen).sum

/-- No block lies inside another one, and none inside two boilerplate elements. -/
structure Unnested (root : HtmlElement) : Prop where
  blocks : ∀ s ∈ root.placedBlocks, ∀ s' ∈ root.placedBlocks, s.1 <+: s'.1 → s.1 = s'.1
  boilerplate : ∀ s ∈ root.placedBlocks, ∀ b ∈ root.placedBoilerplate,
    ∀ b' ∈ root.placedBoilerplate, b.1 <+: s.1 → b'.1 <+: s.1 → b.1 = b'.1

section Counting

variable {root e : HtmlElement} {strategy : Strategy}

/-- The text of a block is that of its element. -/
theorem normalizedText_of_block {b : DocumentBlock} (h : block e = some b) :
    normalizedText e = some b.text := by
  unfold block heading at h
  split at h
  all_goals first
    | (obtain ⟨t, ht, rfl⟩ := Option.map_eq_some_iff.mp h; exact ht)
    | cases h

theorem exists_word_of_normalizedText {t : String} (h : normalizedText e = some t) :
    t ≠ "" ∧ ∃ u ∈ e.texts, Text.splitWhitespace u.toList ≠ [] := by
  unfold normalizedText at h
  dsimp only at h
  split at h
  · cases h
  · next hne =>
      obtain rfl := Option.some.inj h
      refine ⟨hne, ?_⟩
      by_contra hnone
      refine hne ?_
      have hwords : e.texts.flatMap (fun t => Text.splitWhitespace t.toList) = [] :=
        List.flatMap_eq_nil_iff.mpr fun u hu => by
          by_contra hu'
          exact hnone ⟨u, hu, hu'⟩
      rw [hwords]
      rfl

theorem block_of_isContainer (h : isContainer e = true) : block e = none :=
  block_eq_none_of_mem (List.contains_iff_mem.mp h) (by decide)

theorem block_of_isBoilerplate (h : isBoilerplate e = true) : block e = none :=
  block_eq_none_of_mem (List.contains_iff_mem.mp h) (by decide)

theorem not_isBoilerplate_of_isContainer (h : isContainer e = true) : isBoilerplate e = false := by
  have hdisjoint : ∀ name ∈ ["article", "main", "section", "div", "body", "html"],
      ["aside", "footer", "form", "header", "nav"].contains name = false := by decide
  exact hdisjoint _ (List.contains_iff_mem.mp h)

/-- **Text** is extracted once exactly when no block lies inside another one. -/
theorem text_once_iff :
    (∀ q t, (q, t) ∈ root.placedTexts → Text.splitWhitespace t.toList ≠ [] →
        root.placedBlocks.countP (fun s => s.1.isPrefixOf q) ≤ 1) ↔
      ∀ s ∈ root.placedBlocks, ∀ s' ∈ root.placedBlocks, s.1 <+: s'.1 → s.1 = s'.1 := by
  constructor
  · intro honce s hs s' hs' hwithin
    -- the inner block has a text node with a word, which is in both blocks
    obtain ⟨node, hnode, hblock⟩ := mem_yields.mp hs'
    obtain ⟨e, he, hblock⟩ := Option.bind_eq_some_iff.mp hblock
    obtain ⟨-, t, ht, hword⟩ := exists_word_of_normalizedText (normalizedText_of_block hblock)
    rw [← texts_within (mem_yields.mpr ⟨node, hnode, he⟩)] at ht
    obtain ⟨⟨q, t⟩, hq, rfl⟩ := List.mem_map.mp ht
    obtain ⟨hq, hinner⟩ := List.mem_filter.mp hq
    have hone := (countP_le_one_iff (nodup_yields _ _)).mp (honce q t hq hword)
    exact hone s hs s' hs'
      (List.isPrefixOf_iff_prefix.mpr (hwithin.trans (List.isPrefixOf_iff_prefix.mp hinner))) hinner
  · intro hnested q t _ _
    refine (countP_le_one_iff (nodup_yields _ _)).mpr fun s hs s' hs' hq hq' => ?_
    rcases List.prefix_or_prefix_of_prefix (List.isPrefixOf_iff_prefix.mp hq)
      (List.isPrefixOf_iff_prefix.mp hq') with h | h
    · exact hnested s hs s' hs' h
    · exact (hnested s' hs' s hs h).symm

theorem map_snd_placedElements (e : HtmlElement) :
    e.placedElements.map Prod.snd = HtmlNode.elements [e.node] := by
  rw [HtmlElement.placedElements, HtmlElement.yields, map_snd_filterMap, HtmlElement.nodes,
    filterMap_element_placed]

/-- The blocks of a container are those at the places under it. -/
theorem blocks_of_isContainer (h : isContainer root = true) :
    root.blocks = root.placedBlocks.map Prod.snd := by
  have hall : root.placedBlocks.filter (fun y => ([0] : Place).isPrefixOf y.1) = root.placedBlocks :=
    List.filter_eq_self.mpr fun y hy => List.isPrefixOf_iff_prefix.mpr (within_self hy)
  rw [← blocks_within (mem_placedElements_self root) (block_of_isContainer h), hall]

/-- The characters that a container excludes, by boilerplate element. -/
theorem boilerplateCharacters_eq (h : isContainer root = true) :
    (candidateOf strategy root).boilerplateCharacters =
      (root.placedBoilerplate.map fun b =>
        ((root.placedBlocks.filter fun s => b.1.isPrefixOf s.1).map
          fun s => blockTextLen s.2).sum).sum := by
  have helements : root.elements.filter isBoilerplate = root.placedBoilerplate.map Prod.snd := by
    have hroot : ¬ isBoilerplate root = true := by
      rw [not_isBoilerplate_of_isContainer h]
      exact Bool.false_ne_true
    rw [HtmlElement.elements, List.filter_cons_of_neg hroot]
    change (HtmlNode.elements [root.node]).filter isBoilerplate = _
    rw [← map_snd_placedElements, List.filter_map]
    rfl
  have hblocks : ∀ b ∈ root.placedBoilerplate, (b.2.blocks.map blockTextLen).sum =
      ((root.placedBlocks.filter fun s => b.1.isPrefixOf s.1).map fun s => blockTextLen s.2).sum := by
    intro b hb
    obtain ⟨hmem, hboilerplate⟩ := List.mem_filter.mp hb
    rw [← blocks_within hmem (block_of_isBoilerplate hboilerplate), List.map_map]
    rfl
  change (((root.elements.filter isBoilerplate).flatMap HtmlElement.blocks).map blockTextLen).sum = _
  rw [helements, List.flatMap_map, List.map_flatMap, List.flatMap_def, List.sum_flatten, List.map_map]
  exact congrArg List.sum (List.map_congr_left hblocks)

/-- **The excluded characters** count every block once exactly when no block lies inside two
boilerplate elements. -/
theorem boilerplate_once_iff (strategy : Strategy) (h : isContainer root = true) :
    (candidateOf strategy root).boilerplateCharacters =
        ((root.placedBlocks.filter fun s =>
          root.placedBoilerplate.any fun b => b.1.isPrefixOf s.1).map fun s => blockTextLen s.2).sum ↔
      ∀ s ∈ root.placedBlocks, ∀ b ∈ root.placedBoilerplate, ∀ b' ∈ root.placedBoilerplate,
        b.1 <+: s.1 → b'.1 <+: s.1 → b.1 = b'.1 := by
  have hplaces : (root.placedBoilerplate.map Prod.fst).Nodup :=
    (nodup_yields root HtmlNode.element?).sublist (List.filter_sublist.map _)
  have hlength : ∀ s ∈ root.placedBlocks, 0 < blockTextLen s.2 := by
    intro s hs
    obtain ⟨node, -, hblock⟩ := mem_yields.mp hs
    obtain ⟨e, -, hblock⟩ := Option.bind_eq_some_iff.mp hblock
    obtain ⟨hne, -⟩ := exists_word_of_normalizedText (normalizedText_of_block hblock)
    exact Nat.pos_of_ne_zero (mt String.utf8ByteSize_eq_zero_iff.mp hne)
  rw [boilerplateCharacters_eq h, sum_related_eq_covered_iff hlength]
  refine forall₂_congr fun s _ => ?_
  rw [countP_le_one_iff hplaces]
  simp only [List.isPrefixOf_iff_prefix]

/-- **A candidate counts every text once** exactly when no block of its container lies inside another
one, and none inside two boilerplate elements. -/
theorem countedOnce_iff (h : isContainer root = true) :
    CountedOnce root (candidateOf strategy root) ↔ Unnested root := by
  constructor
  · intro honce
    exact ⟨text_once_iff.mp honce.text, (boilerplate_once_iff strategy h).mp honce.boilerplate⟩
  · intro hunnested
    have hboilerplate := (boilerplate_once_iff strategy h).mpr hunnested.boilerplate
    refine ⟨blocks_of_isContainer h, text_once_iff.mpr hunnested.blocks, hboilerplate, ?_⟩
    rw [hboilerplate]
    change _ ≤ (root.blocks.map blockTextLen).sum
    rw [blocks_of_isContainer h, List.map_map]
    exact sum_covered_le

end Counting

/-- **Text is counted once** by a candidate exactly when the container that it is made of is not
nested in this way, for every page and every container of it; and the candidates of a page are made
of its containers. -/
theorem text_counted_once_iff (dom : HtmlDom) :
    (∀ root ∈ dom.elements, isContainer root = true → ∀ strategy,
      (CountedOnce root (candidateOf strategy root) ↔ Unnested root)) ∧
      ∀ c ∈ extractCandidates dom, c = emptyCandidate c.strategy ∨
        ∃ root ∈ dom.elements, isContainer root = true ∧ c = candidateOf c.strategy root :=
  ⟨fun _ _ hcontainer _ => countedOnce_iff hcontainer, fun _ hc => extractCandidates_cases hc⟩

/-! ### Two articles -/

/-- A paragraph in some navigation. -/
def nestedNav : HtmlElement := ⟨"nav", none, [pageParagraph "home about contact"]⟩

/-- The navigation in a footer. -/
def nestedFooter : HtmlElement := ⟨"footer", none, [nestedNav.node]⟩

/-- A paragraph in a heading, and the footer. -/
def nestedArticle : HtmlElement :=
  ⟨"article", none, [.element "h1" none [pageParagraph "twice"], nestedFooter.node]⟩

/-- A heading and a paragraph. -/
def flatArticle : HtmlElement :=
  ⟨"article", none, [.element "h1" none [.text "once"], pageParagraph "home about contact"]⟩

/-- A page with one article. -/
def articlePage (article : HtmlElement) (nodeCount : ℕ) : HtmlDom where
  nodeCount := nodeCount
  elements := HtmlNode.elements
    [.element "html" none [.element "head" none [], .element "body" none [article.node]]]

section Articles

theorem texts_pageParagraph (text : String) : HtmlNode.texts [pageParagraph text] = [text] := by
  simp only [pageParagraph, HtmlNode.texts, List.append_nil]

/-- The blocks of the article and of the elements in it. -/
theorem block_nestedArticle :
    block ⟨"h1", none, [pageParagraph "twice"]⟩ = some (headingBlock 1 "twice") ∧
      block ⟨"p", none, [.text "twice"]⟩ = some (paragraphBlock "twice") ∧
      block ⟨"p", none, [.text "home about contact"]⟩ =
        some (paragraphBlock "home about contact") := by
  have htwice : joinWords (Text.splitWhitespace "twice".toList) = "twice" := by decide +kernel
  have hhome : joinWords (Text.splitWhitespace "home about contact".toList) =
      "home about contact" := by decide +kernel
  have hheading : normalizedText ⟨"h1", none, [pageParagraph "twice"]⟩ = some "twice" :=
    normalizedText_of_texts (texts_pageParagraph _) htwice (by decide)
  refine ⟨?_, ?_, ?_⟩
  · exact congrArg (Option.map (headingBlock 1)) hheading
  · exact congrArg (Option.map paragraphBlock) (normalizedText_paragraph htwice (by decide))
  · exact congrArg (Option.map paragraphBlock) (normalizedText_paragraph hhome (by decide))

theorem elements_nestedNav :
    HtmlNode.elements [nestedNav.node] = [nestedNav, ⟨"p", none, [.text "home about contact"]⟩] := by
  simp only [HtmlElement.node, nestedNav, pageParagraph, HtmlNode.elements, List.append_nil]

theorem elements_nestedFooter :
    HtmlNode.elements [nestedFooter.node] =
      nestedFooter :: HtmlNode.elements [nestedNav.node] := by
  rw [HtmlElement.node, HtmlNode.elements, HtmlNode.elements.eq_1, List.append_nil]
  rfl

theorem elements_nestedArticle :
    nestedArticle.elements =
      [nestedArticle, nestedArticle, ⟨"h1", none, [pageParagraph "twice"]⟩,
        ⟨"p", none, [.text "twice"]⟩] ++ HtmlNode.elements [nestedFooter.node] := by
  rw [elements_nestedFooter, elements_nestedNav]
  simp only [HtmlElement.elements, nestedArticle, nestedFooter, nestedNav, HtmlElement.node,
    pageParagraph, HtmlNode.elements, List.append_nil, List.nil_append, List.cons_append]

theorem blocks_nestedNav : nestedNav.blocks = [paragraphBlock "home about contact"] := by
  rw [HtmlElement.blocks, HtmlElement.elements]
  change (nestedNav :: HtmlNode.elements [nestedNav.node]).filterMap block = _
  simp only [elements_nestedNav, List.filterMap_cons, List.filterMap_nil, block_nestedArticle.2.2,
    block_of_isBoilerplate (e := nestedNav) (by decide)]

theorem blocks_nestedFooter : nestedFooter.blocks = [paragraphBlock "home about contact"] := by
  rw [HtmlElement.blocks, HtmlElement.elements]
  change (nestedFooter :: HtmlNode.elements [nestedFooter.node]).filterMap block = _
  simp only [elements_nestedFooter, elements_nestedNav, List.filterMap_cons, List.filterMap_nil,
    block_nestedArticle.2.2, block_of_isBoilerplate (e := nestedNav) (by decide),
    block_of_isBoilerplate (e := nestedFooter) (by decide)]

theorem blocks_nestedArticle :
    nestedArticle.blocks =
      [headingBlock 1 "twice", paragraphBlock "twice", paragraphBlock "home about contact"] := by
  obtain ⟨hheading, hparagraph, hhome⟩ := block_nestedArticle
  rw [HtmlElement.blocks, elements_nestedArticle, elements_nestedFooter, elements_nestedNav]
  simp only [List.cons_append, List.nil_append, List.filterMap_cons, List.filterMap_nil,
    hheading, hparagraph, hhome, block_of_isContainer (e := nestedArticle) (by decide),
    block_of_isBoilerplate (e := nestedNav) (by decide),
    block_of_isBoilerplate (e := nestedFooter) (by decide)]

/-- The footer and the navigation exclude the same paragraph. -/
theorem boilerplateCharacters_nestedArticle :
    (candidateOf .semantic nestedArticle).boilerplateCharacters = 36 := by
  have hfilter : nestedArticle.elements.filter isBoilerplate = [nestedFooter, nestedNav] := by
    rw [elements_nestedArticle, elements_nestedFooter, elements_nestedNav]
    rfl
  change (((nestedArticle.elements.filter isBoilerplate).flatMap HtmlElement.blocks).map
    blockTextLen).sum = 36
  rw [hfilter, List.flatMap_cons, List.flatMap_cons, List.flatMap_nil, blocks_nestedFooter,
    blocks_nestedNav]
  rfl

end Articles

/-- The paragraph in the heading is extracted twice, and the one in the footer excluded twice: more
characters are excluded than there are. -/
theorem nested_counted_twice :
    semanticCandidate (articlePage nestedArticle 12) = candidateOf .semantic nestedArticle ∧
      (candidateOf .semantic nestedArticle).blocks =
        [headingBlock 1 "twice", paragraphBlock "twice", paragraphBlock "home about contact"] ∧
      (candidateOf .semantic nestedArticle).boilerplateCharacters = 36 ∧
      ¬ CountedOnce nestedArticle (candidateOf .semantic nestedArticle) := by
  have hblocks : (candidateOf .semantic nestedArticle).blocks = _ := blocks_nestedArticle
  have hboilerplate := boilerplateCharacters_nestedArticle
  refine ⟨?_, hblocks, hboilerplate, fun honce => ?_⟩
  · have helements : (articlePage nestedArticle 12).elements =
        [⟨"html", none, [.element "head" none [], .element "body" none [nestedArticle.node]]⟩,
          ⟨"head", none, []⟩, ⟨"body", none, [nestedArticle.node]⟩] ++
          HtmlNode.elements [nestedArticle.node] := by
      simp only [articlePage, HtmlNode.elements, List.append_nil, List.nil_append, List.cons_append]
    have harticle : HtmlNode.elements [nestedArticle.node] = nestedArticle.elements.tail := rfl
    have hfilter : ((articlePage nestedArticle 12).elements.filter fun e => e.name == "article") =
        [nestedArticle] := by
      rw [helements, harticle, elements_nestedArticle, elements_nestedFooter, elements_nestedNav]
      rfl
    rw [semanticCandidate, List.findSome?_cons, hfilter, List.find?_cons_of_pos]
    · rfl
    · rw [blocks_nestedArticle]
      rfl
  · have hbounded := honce.bounded
    rw [hboilerplate, hblocks] at hbounded
    exact absurd hbounded (by decide)

theorem text_counted_once_iff_flat :
    CountedOnce flatArticle (candidateOf .semantic flatArticle) := by
  have hmem : flatArticle ∈ (articlePage flatArticle 9).elements := by
    simp [articlePage, HtmlNode.elements, HtmlElement.node]
  refine ((text_counted_once_iff (articlePage flatArticle 9)).1 flatArticle hmem (by decide)
    .semantic).mpr ?_
  have hnodes : flatArticle.nodes = [([0], flatArticle.node),
      ([0, 0], .element "h1" none [.text "once"]), ([0, 0, 0], .text "once"),
      ([0, 1], pageParagraph "home about contact"), ([0, 1, 0], .text "home about contact")] := by
    simp only [HtmlElement.nodes, flatArticle, HtmlElement.node, pageParagraph, HtmlNode.placed,
      List.append_nil, List.nil_append, List.cons_append]
  have hblocks : ∀ s ∈ flatArticle.placedBlocks, s.1 = [0, 0] ∨ s.1 = [0, 1] := by
    rintro ⟨p, b⟩ hs
    obtain ⟨node, hnode, hblock⟩ := mem_yields.mp hs
    rw [hnodes] at hnode
    simp only [List.mem_cons, List.not_mem_nil, or_false, Prod.mk.injEq] at hnode
    rcases hnode with ⟨-, rfl⟩ | ⟨rfl, -⟩ | ⟨-, rfl⟩ | ⟨rfl, -⟩ | ⟨-, rfl⟩
    · cases hblock
    · exact .inl rfl
    · cases hblock
    · exact .inr rfl
    · cases hblock
  have hboilerplate : flatArticle.placedBoilerplate = [] := by
    rw [HtmlElement.placedBoilerplate, HtmlElement.placedElements, HtmlElement.yields, hnodes]
    rfl
  refine ⟨fun s hs s' hs' hwithin => ?_, fun _ _ b hb => ?_⟩
  · rcases hblocks s hs with h | h <;> rcases hblocks s' hs' with h' | h' <;> rw [h, h'] at hwithin ⊢
    · exact absurd hwithin (by decide)
    · exact absurd hwithin (by decide)
  · rw [hboilerplate] at hb
    cases hb

end Extractor
