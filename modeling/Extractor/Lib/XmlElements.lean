import Extractor.Lib.Xml

/-!
# Elements of given names

Well-formed content as the elements of some names, in document order, and what stands between them:
characters, tags of other elements, and asides, which are comments, processing instructions and
CDATA sections. The content of a named element is kept as it is.

## Main definitions

* `Element`: an element of one of the names.
* `Passage`, `passagesOf`: content in passages.
* `NotNested`: no element of the names holds another one.

## Main results

* `textOf_eq_flatMap`: the passages make up the text.
-/

namespace Xml

/-- An element of one of the names. An element that is a single tag has no content and no closing
tag, whose white space is `endSpace`. -/
structure Element (names : List (List Char)) where
  tag : Tag
  content : List Node
  endSpace : Option (List Char)
  named : tag.name ∈ names
  space : ∀ s ∈ endSpace, IsSpace s
  bare : endSpace = none → content = []

/-- A tag of an element of no such name. -/
inductive OtherTag (names : List (List Char)) : List Char → Prop
  | opening (tag : Tag) : tag.name ∉ names → OtherTag names tag.opening
  | closing (tag : Tag) {s : List Char} : tag.name ∉ names → IsSpace s →
      OtherTag names (tag.closing s)
  | empty (tag : Tag) : tag.name ∉ names → OtherTag names tag.empty

/-- A passage of content. -/
inductive Passage (names : List (List Char))
  | chars (text : List Char) (plain : '<' ∉ text)
  | tag (text : List Char) (other : OtherTag names text)
  | aside (body : List Char)
  | element (e : Element names)

variable {names : List (List Char)}

/-- The text of an element. -/
def Element.text (e : Element names) : List Char :=
  match e.endSpace with
  | some s => e.tag.opening ++ (textOf e.content ++ e.tag.closing s)
  | none => e.tag.empty

/-- The text of a passage; asides end like tags. -/
def Passage.text : Passage names → List Char
  | .chars text _ => text
  | .tag text _ => text
  | .aside body => body ++ ['>']
  | .element e => e.text

/-- A reference opens no tag. -/
theorem Denotes.not_mem {token : List Char} {c : Char} (h : Denotes token c) :
    '<' ∉ referenceText token := by
  have hdigits {p : Char → Bool} {digits : List Char} (hall : ∀ d ∈ digits, p d = true)
      (hp : p '<' = false) : '<' ∉ digits := fun hmem => by
    rw [hall '<' hmem] at hp
    cases hp
  have htoken : '<' ∉ token := by
    cases h with
    | amp | lt | gt | quot | apos => decide
    | decimal _ hall _ => simp [hdigits hall (by decide)]
    | hexadecimal _ hall _ => simp [hdigits hall (by decide)]
  simp [referenceText, htoken]

/-- A comment without its last character. -/
def commentBody (body : List Char) : List Char := "<!--".toList ++ (body ++ "--".toList)

/-- A processing instruction without its last character. -/
def instructionBody (body : List Char) : List Char := "<?".toList ++ (body ++ "?".toList)

/-- A CDATA section without its last character. -/
def cdataBody (body : List Char) : List Char := "<![CDATA[".toList ++ (body ++ "]]".toList)

theorem append_ending {opening body ending whole : List Char} (h : ending ++ ['>'] = whole) :
    opening ++ (body ++ ending) ++ ['>'] = opening ++ (body ++ whole) := by
  rw [← h, List.append_assoc, List.append_assoc]

theorem commentBody_append (body : List Char) : commentBody body ++ ['>'] = commentText body :=
  append_ending (by decide +kernel)

theorem instructionBody_append (body : List Char) :
    instructionBody body ++ ['>'] = instructionText body :=
  append_ending (by decide +kernel)

theorem cdataBody_append (body : List Char) : cdataBody body ++ ['>'] = cdataText body :=
  append_ending (by decide +kernel)

/-- Content in passages. -/
def passagesOf (names : List (List Char)) : List Node → List (Passage names)
  | [] => []
  | .chars text plain :: rest => .chars text plain.1 :: passagesOf names rest
  | .reference token _ denotes :: rest =>
      .chars (referenceText token) denotes.not_mem :: passagesOf names rest
  | .comment body _ :: rest => .aside (commentBody body) :: passagesOf names rest
  | .instruction body _ :: rest => .aside (instructionBody body) :: passagesOf names rest
  | .cdata body _ :: rest => .aside (cdataBody body) :: passagesOf names rest
  | .element tag children endSpace space :: rest =>
      if h : tag.name ∈ names then
        .element ⟨tag, children, some endSpace, h, fun _ hs => Option.some.inj hs ▸ space,
          (nomatch ·)⟩ :: passagesOf names rest
      else
        .tag tag.opening (.opening tag h) :: (passagesOf names children ++
          .tag (tag.closing endSpace) (.closing tag h space) :: passagesOf names rest)
  | .empty tag :: rest =>
      if h : tag.name ∈ names then
        .element ⟨tag, [], none, h, fun s hs => absurd hs (Option.not_mem_none s), fun _ => rfl⟩ ::
          passagesOf names rest
      else .tag tag.empty (.empty tag h) :: passagesOf names rest

/-- The elements among passages. -/
def elementsIn : List (Passage names) → List (Element names)
  | [] => []
  | .element e :: rest => e :: elementsIn rest
  | .chars _ _ :: rest => elementsIn rest
  | .tag _ _ :: rest => elementsIn rest
  | .aside _ :: rest => elementsIn rest

/-- The elements of the names, in document order. -/
def elementsOf (names : List (List Char)) (nodes : List Node) : List (Element names) :=
  elementsIn (passagesOf names nodes)

/-- No element of the names holds another one. -/
def NotNested (names : List (List Char)) (nodes : List Node) : Prop :=
  ∀ e ∈ elementsOf names nodes, elementsOf names e.content = []

theorem mem_elementsIn_iff {passages : List (Passage names)} {e : Element names} :
    e ∈ elementsIn passages ↔ .element e ∈ passages := by
  induction passages with
  | nil => simp [elementsIn]
  | cons passage passages ih => cases passage <;> simp [elementsIn, ih]

theorem Passage.element_or (passage : Passage names) :
    (∃ e, passage = .element e) ∨ ∀ e, passage ≠ .element e := by
  cases passage with
  | element e => exact .inl ⟨e, rfl⟩
  | chars _ _ | tag _ _ | aside _ => exact .inr nofun

theorem elementsIn_cons_of_ne {passage : Passage names} (h : ∀ e, passage ≠ .element e)
    (passages : List (Passage names)) : elementsIn (passage :: passages) = elementsIn passages := by
  cases passage with
  | element e => exact absurd rfl (h e)
  | chars _ _ | tag _ _ | aside _ => rfl

theorem elementsIn_append (a b : List (Passage names)) :
    elementsIn (a ++ b) = elementsIn a ++ elementsIn b := by
  induction a with
  | nil => rfl
  | cons passage passages ih => cases passage <;> simp [elementsIn, ih]

/-- **The passages make up the text.** -/
theorem textOf_eq_flatMap (nodes : List Node) :
    textOf nodes = (passagesOf names nodes).flatMap Passage.text := by
  induction nodes using textOf.induct with
  | case1 => simp [textOf, passagesOf]
  | case2 text plain rest ih => simp [textOf, passagesOf, Passage.text, ih]
  | case3 token c denotes rest ih => simp [textOf, passagesOf, Passage.text, ih]
  | case4 body closed rest ih =>
      rw [passagesOf, List.flatMap_cons, Passage.text, commentBody_append, textOf, ih]
  | case5 body closed rest ih =>
      rw [passagesOf, List.flatMap_cons, Passage.text, instructionBody_append, textOf, ih]
  | case6 body closed rest ih =>
      rw [passagesOf, List.flatMap_cons, Passage.text, cdataBody_append, textOf, ih]
  | case7 tag children endSpace space rest ihChildren ih =>
      by_cases h : tag.name ∈ names
      · simp [textOf, passagesOf, Passage.text, Element.text, h, ih]
      · simp [textOf, passagesOf, Passage.text, h, ihChildren, ih]
  | case8 tag rest ih =>
      by_cases h : tag.name ∈ names
      · simp [textOf, passagesOf, Passage.text, Element.text, h, ih]
      · simp [textOf, passagesOf, Passage.text, h, ih]

/-! ### Tags by name -/

/-- What follows the name of a tag begins with no character of a name. -/
theorem Tag.tail_append_cons (tag : Tag) {d : Char} (hd : ¬ IsNameChar d) (rest : List Char) :
    ∃ c more, tag.tail ++ d :: rest = c :: more ∧ ¬ IsNameChar c := by
  cases htail : tag.tail with
  | nil => exact ⟨d, rest, rfl, hd⟩
  | cons c more =>
      refine ⟨c, more ++ d :: rest, rfl, ?_⟩
      rcases tag.tail_cons htail with rfl | rfl | rfl | rfl <;> decide

/-- Two names, each with another character behind it, that begin one text. -/
theorem name_inj {name name' rest : List Char} {c c' : Char} (hname : ∀ d ∈ name, IsNameChar d)
    (hname' : IsName name') (hc : ¬ IsNameChar c) (hc' : ¬ IsNameChar c')
    (h : name' ++ [c'] <+: name ++ c :: rest) : name = name' ∧ c = c' := by
  obtain ⟨more, hmore⟩ := h
  rw [List.append_assoc, List.singleton_append] at hmore
  obtain ⟨hname, hc, -⟩ := Text.append_cons_inj hname'.2 hc' hname hc hmore
  exact ⟨hname.symm, hc.symm⟩

theorem Tag.suffix_opening (tag : Tag) : ['>'] <:+ tag.opening :=
  ⟨'<' :: (tag.name ++ tag.tail), by simp [Tag.opening]⟩

theorem Tag.suffix_empty (tag : Tag) : ['>'] <:+ tag.empty :=
  ⟨'<' :: (tag.name ++ (tag.tail ++ ['/'])), by simp [Tag.empty]⟩

theorem Tag.suffix_closing (tag : Tag) (s : List Char) : ['>'] <:+ tag.closing s :=
  ⟨'<' :: '/' :: (tag.name ++ s), by simp [Tag.closing]⟩

/-- Tags end in a bracket. -/
theorem OtherTag.suffix {text : List Char} (h : OtherTag names text) : ['>'] <:+ text := by
  cases h with
  | opening tag _ => exact tag.suffix_opening
  | closing tag _ _ => exact tag.suffix_closing _
  | empty tag _ => exact tag.suffix_empty

/-- In a tag only its own bracket opens. -/
theorem prefix_of_infix_tag {pat text : List Char} (h : '<' ∉ text)
    (hpat : '<' :: pat <:+: '<' :: text) : pat <+: text := by
  rcases List.infix_cons_iff.mp hpat with hprefix | hoccurs
  · exact (List.cons_prefix_cons.mp hprefix).2
  · exact absurd (hoccurs.subset (List.mem_cons_self ..)) h

end Xml
