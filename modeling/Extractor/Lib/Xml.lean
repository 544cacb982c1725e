import Extractor.Lib.Text

/-!
# XML content

Well-formed XML content as trees: elements with their attributes, character data, references,
comments, processing instructions and CDATA sections, each in any spelling that XML allows. A tree
keeps the white space and the quotes of its spelling, so that it has one text. There are no document
type declarations.

## Main definitions

* `Attribute`, `Tag`: the parts of a tag, with what makes them well formed.
* `Denotes`: the character that a reference stands for.
* `Node`: a tree.
* `textOf`, `charData`: the text of content and its character data.
-/

namespace Xml

/-! ### Characters -/

/-- White space. -/
def IsSpace (text : List Char) : Prop :=
  ∀ c ∈ text, c = ' ' ∨ c = '\t' ∨ c = '\n' ∨ c = '\r'

/-- A character of a name: no white space and no markup. -/
def IsNameChar (c : Char) : Prop :=
  Text.isWhitespace c = false ∧ c ∉ ['<', '>', '/', '=', '"', '\'', '&', '!', '?']

instance (c : Char) : Decidable (IsNameChar c) :=
  inferInstanceAs (Decidable (Text.isWhitespace c = false ∧
    c ∉ ['<', '>', '/', '=', '"', '\'', '&', '!', '?']))

/-- A name. -/
def IsName (name : List Char) : Prop :=
  name ≠ [] ∧ ∀ c ∈ name, IsNameChar c

instance (name : List Char) : Decidable (IsName name) :=
  have : Decidable (∀ c ∈ name, IsNameChar c) := List.decidableBAll IsNameChar name
  inferInstanceAs (Decidable (name ≠ [] ∧ ∀ c ∈ name, IsNameChar c))

theorem isSpace_nil : IsSpace [] := List.forall_mem_nil _

theorem IsSpace.isWhitespace {text : List Char} (h : IsSpace text) :
    ∀ c ∈ text, Text.isWhitespace c = true := by
  intro c hc
  rcases h c hc with rfl | rfl | rfl | rfl <;> decide

/-- White space is none of the characters of markup. -/
theorem IsSpace.not_mem {text : List Char} (h : IsSpace text) {c : Char}
    (hc : Text.isWhitespace c = false) : c ∉ text := by
  intro hmem
  rw [h.isWhitespace c hmem] at hc
  cases hc

theorem IsName.not_mem {name : List Char} (h : IsName name) {c : Char} (hc : ¬ IsNameChar c) :
    c ∉ name :=
  fun hmem => hc (h.2 c hmem)

/-! ### Tags -/

/-- An attribute: white space, a name, an equals sign with any white space around it, and a value
in quotes of either kind. -/
structure Attribute where
  lead : List Char
  name : List Char
  beforeEquals : List Char
  afterEquals : List Char
  quote : Char
  value : List Char
  lead_ne : lead ≠ []
  lead_space : IsSpace lead
  isName : IsName name
  before_space : IsSpace beforeEquals
  after_space : IsSpace afterEquals
  quote_mem : quote = '"' ∨ quote = '\''
  value_plain : quote ∉ value ∧ '<' ∉ value

/-- The text of an attribute. -/
def Attribute.text (a : Attribute) : List Char :=
  a.lead ++ (a.name ++ (a.beforeEquals ++ '=' :: (a.afterEquals ++
    a.quote :: (a.value ++ [a.quote]))))

/-- A tag: a name, attributes of distinct names, and white space. -/
structure Tag where
  name : List Char
  attributes : List Attribute
  space : List Char
  isName : IsName name
  distinct : (attributes.map Attribute.name).Nodup
  space_space : IsSpace space

/-- What follows the name of a tag. -/
def Tag.tail (tag : Tag) : List Char :=
  tag.attributes.flatMap Attribute.text ++ tag.space

/-- The tag that opens an element. -/
def Tag.opening (tag : Tag) : List Char :=
  '<' :: (tag.name ++ (tag.tail ++ ['>']))

/-- The tag of an element without content. -/
def Tag.empty (tag : Tag) : List Char :=
  '<' :: (tag.name ++ (tag.tail ++ ['/', '>']))

/-- The tag that closes an element, with white space before its end. -/
def Tag.closing (tag : Tag) (endSpace : List Char) : List Char :=
  '<' :: '/' :: (tag.name ++ (endSpace ++ ['>']))

/-- What follows a name begins with white space. -/
theorem Tag.tail_cons (tag : Tag) {c : Char} {rest : List Char} (h : tag.tail = c :: rest) :
    c = ' ' ∨ c = '\t' ∨ c = '\n' ∨ c = '\r' := by
  rw [Tag.tail] at h
  cases hattributes : tag.attributes with
  | nil =>
      rw [hattributes, List.flatMap_nil, List.nil_append] at h
      exact tag.space_space c (h ▸ List.mem_cons_self ..)
  | cons a attributes =>
      obtain ⟨d, lead, hlead⟩ := List.exists_cons_of_ne_nil a.lead_ne
      rw [hattributes, List.flatMap_cons, Attribute.text, hlead] at h
      obtain ⟨rfl, -⟩ := List.cons.inj h
      exact a.lead_space d (hlead ▸ List.mem_cons_self ..)

/-- An attribute opens no tag. -/
theorem Attribute.not_mem_text (a : Attribute) : '<' ∉ a.text := by
  have hlead := a.lead_space.not_mem (c := '<') (by decide)
  have hname := a.isName.not_mem (c := '<') (by decide)
  have hbefore := a.before_space.not_mem (c := '<') (by decide)
  have hafter := a.after_space.not_mem (c := '<') (by decide)
  have hquote : '<' ≠ a.quote := by rcases a.quote_mem with h | h <;> rw [h] <;> decide
  simp [Attribute.text, hlead, hname, hbefore, hafter, hquote, a.value_plain.2]

theorem Tag.not_mem_tail (tag : Tag) : '<' ∉ tag.tail := by
  rw [Tag.tail, List.mem_append, not_or]
  refine ⟨fun h => ?_, tag.space_space.not_mem (by decide)⟩
  obtain ⟨a, -, ha⟩ := List.mem_flatMap.mp h
  exact a.not_mem_text ha

/-! ### References -/

/-- The value of a hexadecimal digit. -/
def hexValue (c : Char) : ℕ :=
  if c.isDigit then c.toNat - 48 else if 'a' ≤ c then c.toNat - 87 else c.toNat - 55

/-- A hexadecimal digit. -/
def isHex (c : Char) : Bool :=
  c.isDigit || (decide ('a' ≤ c) && decide (c ≤ 'f')) || (decide ('A' ≤ c) && decide (c ≤ 'F'))

/-- **What a reference stands for**: one of the five named characters, or the character of a decimal
or hexadecimal number. -/
inductive Denotes : List Char → Char → Prop
  | amp : Denotes "amp".toList '&'
  | lt : Denotes "lt".toList '<'
  | gt : Denotes "gt".toList '>'
  | quot : Denotes "quot".toList '"'
  | apos : Denotes "apos".toList '\''
  | decimal {digits : List Char} {c : Char} : digits ≠ [] → (∀ d ∈ digits, d.isDigit = true) →
      Text.decimalValue digits = c.toNat → Denotes ('#' :: digits) c
  | hexadecimal {digits : List Char} {c : Char} : digits ≠ [] → (∀ d ∈ digits, isHex d = true) →
      digits.foldl (fun n d => 16 * n + hexValue d) 0 = c.toNat →
      Denotes ('#' :: 'x' :: digits) c

/-! ### Content -/

/-- A tree of well-formed content. -/
inductive Node
  | chars (text : List Char) (plain : '<' ∉ text ∧ '&' ∉ text)
  | reference (token : List Char) (c : Char) (denotes : Denotes token c)
  | comment (body : List Char) (closed : ¬ "--".toList <:+: body ++ ['-'])
  | instruction (body : List Char) (closed : ¬ "?>".toList <:+: body)
  | cdata (body : List Char) (closed : ¬ "]]>".toList <:+: body)
  | element (tag : Tag) (children : List Node) (endSpace : List Char) (space : IsSpace endSpace)
  | empty (tag : Tag)

/-- The text of a comment. -/
def commentText (body : List Char) : List Char := "<!--".toList ++ (body ++ "-->".toList)

/-- The text of a processing instruction. -/
def instructionText (body : List Char) : List Char := "<?".toList ++ (body ++ "?>".toList)

/-- The text of a CDATA section. -/
def cdataText (body : List Char) : List Char := "<![CDATA[".toList ++ (body ++ "]]>".toList)

/-- The text of a reference. -/
def referenceText (token : List Char) : List Char := '&' :: (token ++ [';'])

/-- The text of content. -/
def textOf : List Node → List Char
  | [] => []
  | .chars text _ :: rest => text ++ textOf rest
  | .reference token _ _ :: rest => referenceText token ++ textOf rest
  | .comment body _ :: rest => commentText body ++ textOf rest
  | .instruction body _ :: rest => instructionText body ++ textOf rest
  | .cdata body _ :: rest => cdataText body ++ textOf rest
  | .element tag children endSpace _ :: rest =>
      tag.opening ++ (textOf children ++ (tag.closing endSpace ++ textOf rest))
  | .empty tag :: rest => tag.empty ++ textOf rest

/-- **The character data** of content: what is written in it, references resolved, without any
markup. -/
def charData : List Node → List Char
  | [] => []
  | .chars text _ :: rest => text ++ charData rest
  | .reference _ c _ :: rest => c :: charData rest
  | .comment _ _ :: rest => charData rest
  | .instruction _ _ :: rest => charData rest
  | .cdata body _ :: rest => body ++ charData rest
  | .element _ children _ _ :: rest => charData children ++ charData rest
  | .empty _ :: rest => charData rest

end Xml
