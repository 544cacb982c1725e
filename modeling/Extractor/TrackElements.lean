import Mathlib.Data.List.Infix
import Extractor.TrackAttributes
import Extractor.TrackContent

/-!
# The captions of a document

`xml_segments` of `crates/youtube/src/timedtext.rs` on well-formed XML content. The scan takes a
caption to begin at a bracket with its name and a space or a bracket behind it, its attributes to
end at the next bracket, and the caption to end at the next closing tag without white space.

## Main definitions

* `PlainlySpelled`: the spelling of a caption that the scan reads.
* `YieldsCaptions`: one segment for each caption, with its character data.

## Main results

* `captions_read_iff`: the captions are read where each is spelled so.
-/

namespace Extractor

open Xml (Node Tag Element Passage textOf charData passagesOf elementsIn elementsOf)

/-! ### Text that the scan passes over -/

/-- The beginning of a caption for the scan. -/
def OpensCaption (text : List Char) : Prop :=
  ∃ name ∈ captionNames, ∃ c ∈ [' ', '>'], '<' :: (name ++ [c]) <:+: text

instance (text : List Char) : Decidable (OpensCaption text) :=
  have (name : List Char) : Decidable (∃ c ∈ [' ', '>'], '<' :: (name ++ [c]) <:+: text) :=
    List.decidableBEx (fun c => '<' :: (name ++ [c]) <:+: text) [' ', '>']
  List.decidableBEx (fun name => ∃ c ∈ [' ', '>'], '<' :: (name ++ [c]) <:+: text) captionNames

/-- The closing tag that the scan looks for. -/
def closingTag (name : List Char) : List Char := "</".toList ++ name ++ ['>']

/-- The end of a caption for the scan. -/
def ClosesCaption (text : List Char) : Prop :=
  ∃ name ∈ captionNames, closingTag name <:+: text

instance (text : List Char) : Decidable (ClosesCaption text) :=
  inferInstanceAs (Decidable (∃ name ∈ captionNames, closingTag name <:+: text))

/-- The scan for a caption passes over the text, whatever follows it. -/
def Silent (text : List Char) : Prop :=
  ∀ rest, nextCaption (text ++ rest) = nextCaption rest

theorem Silent.append {a b : List Char} (ha : Silent a) (hb : Silent b) : Silent (a ++ b) :=
  fun rest => by rw [List.append_assoc, ha, hb]

theorem isName_of_captionNames {name : List Char} (h : name ∈ captionNames) : Xml.IsName name := by
  have hall : ∀ name ∈ captionNames, Xml.IsName name := by decide
  exact hall name h

/-- A name of no caption, up to a space or a bracket. -/
theorem captionAt_of_not_mem {name rest : List Char} {c : Char} (hname : ∀ d ∈ name, d ∉ [' ', '>'])
    (hc : c ∈ [' ', '>']) (h : name ∉ captionNames) : captionAt (name ++ c :: rest) = .ok none := by
  have hcontains : captionNames.contains name = false := by
    rw [Bool.eq_false_iff, ne_eq, List.contains_iff_mem]
    exact h
  rw [captionAt]
  dsimp only
  rw [Text.before_append hname hc, List.drop_left, if_neg (List.cons_ne_nil _ _), hcontains,
    if_neg Bool.false_ne_true]

/-- A text up to a bracket that does not begin with the name of a caption. -/
theorem captionAt_of_not_prefix {text : List Char}
    (h : ∀ name ∈ captionNames, ∀ c ∈ [' ', '>'], ¬ name ++ [c] <+: text ++ ['>'])
    (rest : List Char) : captionAt (text ++ ['>'] ++ rest) = .ok none := by
  have hstop : ((text ++ ['>']).find? fun c => decide (c ∈ [' ', '>'])).isSome = true :=
    List.find?_isSome.mpr ⟨'>', List.mem_append_right text (List.mem_singleton_self _), by decide⟩
  obtain ⟨c, hfind⟩ := Option.isSome_iff_exists.mp hstop
  obtain ⟨hc, name, more, hsplit, hname⟩ := List.find?_eq_some_iff_append.mp hfind
  have hother : name ∉ captionNames := fun hmem => by
    refine h name hmem c (of_decide_eq_true hc) ⟨more, ?_⟩
    rw [hsplit, List.append_assoc, List.singleton_append]
  rw [hsplit, List.append_assoc, List.cons_append]
  exact captionAt_of_not_mem (fun d hd => by simpa using hname d hd) (of_decide_eq_true hc) hother

/-- A text that ends in a bracket and begins no caption is passed over. -/
theorem Silent.of_not_opens {text : List Char} (hend : ['>'] <:+ text)
    (h : ¬ OpensCaption text) : Silent text := by
  obtain ⟨text, rfl⟩ := hend
  induction text with
  | nil =>
      intro rest
      rw [List.nil_append, List.singleton_append, nextCaption, if_neg (by decide)]
  | cons d text ih =>
      have hrest : ¬ OpensCaption (text ++ ['>']) := by
        rintro ⟨name, hname, c, hc, hoccurs⟩
        exact h ⟨name, hname, c, hc, List.infix_cons hoccurs⟩
      intro rest
      rw [List.cons_append, List.cons_append, nextCaption]
      by_cases hd : d = '<'
      · have hprefix : ∀ name ∈ captionNames, ∀ c ∈ [' ', '>'], ¬ name ++ [c] <+: text ++ ['>'] :=
          fun name hname c hc hprefix => h ⟨name, hname, c, hc,
            (List.cons_prefix_cons.mpr ⟨hd.symm, hprefix⟩).isInfix⟩
        rw [if_pos hd, captionAt_of_not_prefix hprefix]
        exact ih hrest rest
      · rw [if_neg hd]
        exact ih hrest rest

/-- The closing tag is found where it begins. -/
theorem splitOnce_closingTag (name rest : List Char) :
    Text.splitOnce (closingTag name) (closingTag name ++ rest) = some ([], rest) :=
  Text.splitOnce_self_append (List.cons_ne_nil '<' ('/' :: (name ++ ['>']))) rest

theorem passedOver_of_not_mem {text : List Char} (h : '<' ∉ text) (name : List Char) :
    Text.PassedOver (closingTag name) text :=
  .of_not_mem h ('/' :: (name ++ ['>']))

/-- A text that ends in a bracket and has no such closing tag is passed over. -/
theorem passedOver_of_not_occurs {name text : List Char} (hname : name ∈ captionNames)
    (hend : ['>'] <:+ text) (h : ¬ closingTag name <:+: text) :
    Text.PassedOver (closingTag name) text := by
  obtain ⟨text, rfl⟩ := hend
  have hplain : '>' ∉ "</".toList ++ name := by
    have hall : ∀ name ∈ captionNames, '>' ∉ "</".toList ++ name := by decide
    exact hall name hname
  exact Text.PassedOver.of_not_occurs hplain h

/-! ### Tags -/

/-- A tag begins a caption only with its own name. -/
theorem opens_of_tag {name rest : List Char} {c : Char} (hname : ∀ d ∈ name, Xml.IsNameChar d)
    (hc : ¬ Xml.IsNameChar c) (hplain : '<' ∉ name ++ c :: rest)
    (h : OpensCaption ('<' :: (name ++ c :: rest))) : name ∈ captionNames ∧ c ∈ [' ', '>'] := by
  obtain ⟨name', hname', c', hc', hoccurs⟩ := h
  have hstop : ∀ d ∈ [' ', '>'], ¬ Xml.IsNameChar d :=
    Text.forall_mem_of_all (by decide)
  obtain ⟨rfl, rfl⟩ := Xml.name_inj hname (isName_of_captionNames hname') hc (hstop c' hc')
    (Xml.prefix_of_infix_tag hplain hoccurs)
  exact ⟨hname', hc'⟩

/-- The tag of an element, up to its end, begins a caption only with a space or a bracket behind
its name. -/
theorem opens_of_tail (tag : Tag) {d : Char} (hd : ¬ Xml.IsNameChar d) {more : List Char}
    (hplain : '<' ∉ d :: more) (h : OpensCaption ('<' :: (tag.name ++ (tag.tail ++ d :: more)))) :
    tag.name ∈ captionNames ∧ ∃ c rest, tag.tail ++ d :: more = c :: rest ∧ c ∈ [' ', '>'] := by
  obtain ⟨c, rest, hrest, hc⟩ := tag.tail_append_cons hd more
  have hplain : '<' ∉ tag.name ++ c :: rest := by
    rw [← hrest, List.mem_append, List.mem_append, not_or, not_or]
    exact ⟨tag.isName.not_mem (by decide), tag.not_mem_tail, hplain⟩
  rw [hrest] at h ⊢
  obtain ⟨hname, hc⟩ := opens_of_tag tag.isName.2 hc hplain h
  exact ⟨hname, c, rest, rfl, hc⟩

theorem not_opens_closing (tag : Tag) {space : List Char} (hspace : Xml.IsSpace space) :
    ¬ OpensCaption (tag.closing space) := by
  intro h
  have hname := tag.isName.not_mem (c := '<') (by decide)
  have hplain := hspace.not_mem (c := '<') (by decide)
  have hempty : ∀ d ∈ ([] : List Char), Xml.IsNameChar d := List.forall_mem_nil _
  have hmem := (opens_of_tag hempty (by decide) (by simp [hname, hplain]) h).1
  revert hmem
  decide

/-- A closing tag ends a caption only where it is written without white space. -/
theorem closing_of_occurs {name : List Char} (hname : name ∈ captionNames) (tag : Tag)
    {space : List Char} (hspace : Xml.IsSpace space)
    (h : closingTag name <:+: tag.closing space) : tag.name = name ∧ space = [] := by
  have hopen := tag.isName.not_mem (c := '<') (by decide)
  have hplain := hspace.not_mem (c := '<') (by decide)
  have hprefix : '/' :: (name ++ ['>']) <+: '/' :: (tag.name ++ (space ++ ['>'])) :=
    Xml.prefix_of_infix_tag (by simp [hopen, hplain]) h
  have hprefix := (List.cons_prefix_cons.mp hprefix).2
  cases space with
  | nil =>
      exact ⟨(Xml.name_inj tag.isName.2 (isName_of_captionNames hname) (by decide) (by decide)
        hprefix).1, rfl⟩
  | cons c space =>
      have hc : ¬ Xml.IsNameChar c := by
        rcases hspace c (List.mem_cons_self ..) with rfl | rfl | rfl | rfl <;> decide
      obtain ⟨-, rfl⟩ := Xml.name_inj tag.isName.2 (isName_of_captionNames hname) hc (by decide)
        hprefix
      exact absurd (List.mem_cons_self ..) (hspace.not_mem (c := '>') (by decide))

/-- The tag that an element begins with ends no caption. -/
theorem not_closes_tag (tag : Tag) {more : List Char} (hmore : '<' ∉ more) (name : List Char) :
    ¬ closingTag name <:+: '<' :: (tag.name ++ (tag.tail ++ more)) := by
  intro h
  have hplain : '<' ∉ tag.name ++ (tag.tail ++ more) := by
    simp [tag.isName.not_mem (c := '<') (by decide), tag.not_mem_tail, hmore]
  have hprefix := Xml.prefix_of_infix_tag hplain h
  obtain ⟨d, rest, hname⟩ := List.exists_cons_of_ne_nil tag.isName.1
  rw [hname] at hprefix
  have hslash := tag.isName.2 d (hname ▸ List.mem_cons_self ..)
  rw [← (List.cons_prefix_cons.mp hprefix).1] at hslash
  revert hslash
  decide

/-! ### Passages -/

/-- A passage that holds no caption, and no aside that the scan takes for a part of one. -/
def Harmless : Passage captionNames → Prop
  | .chars _ _ => True
  | .tag _ _ => True
  | .aside body => ¬ OpensCaption (body ++ ['>']) ∧ ¬ ClosesCaption (body ++ ['>'])
  | .element _ => False

/-- A tag of another element begins no caption. -/
theorem not_opens_otherTag {text : List Char} (h : Xml.OtherTag captionNames text) :
    ¬ OpensCaption text := by
  cases h with
  | opening tag hother =>
      exact fun hopens => hother (opens_of_tail tag (by decide) (by decide) hopens).1
  | closing tag hother hspace => exact not_opens_closing tag hspace
  | empty tag hother =>
      exact fun hopens => hother (opens_of_tail tag (by decide) (by decide) hopens).1

theorem not_closes_otherTag {text name : List Char} (h : Xml.OtherTag captionNames text)
    (hname : name ∈ captionNames) : ¬ closingTag name <:+: text := by
  cases h with
  | opening tag hother => exact not_closes_tag tag (by decide) name
  | closing tag hother hspace =>
      intro hcloses
      exact hother ((closing_of_occurs hname tag hspace hcloses).1 ▸ hname)
  | empty tag hother => exact not_closes_tag tag (by decide) name

/-- **What is between captions is passed over**, where no aside begins like one. -/
theorem silent_of_ne {passage : Passage captionNames} (hne : ∀ e, passage ≠ .element e)
    (haside : ∀ body, passage = .aside body → ¬ OpensCaption (body ++ ['>'])) :
    Silent passage.text := by
  cases passage with
  | chars text plain => exact nextCaption_append plain
  | tag text other => exact .of_not_opens other.suffix (not_opens_otherTag other)
  | aside body => exact .of_not_opens (List.suffix_append _ _) (haside body rfl)
  | element e => exact absurd rfl (hne e)

theorem Harmless.silent {passage : Passage captionNames} (h : Harmless passage) :
    Silent passage.text := by
  refine silent_of_ne ?_ ?_
  · rintro e rfl
    exact h
  · rintro body rfl
    exact h.1

/-- Harmless passages are also passed over in the search for the end of a caption. -/
theorem Harmless.passedOver {passage : Passage captionNames} (h : Harmless passage)
    {name : List Char} (hname : name ∈ captionNames) :
    Text.PassedOver (closingTag name) passage.text := by
  cases passage with
  | chars text plain => exact .of_not_mem plain _
  | tag text other =>
      exact passedOver_of_not_occurs hname other.suffix (not_closes_otherTag other hname)
  | aside body =>
      exact passedOver_of_not_occurs hname (List.suffix_append _ _) fun hcloses =>
        h.2 ⟨name, hname, hcloses⟩
  | element e => exact h.elim

/-! ### Captions -/

variable {e : Element captionNames}

/-- What follows the name of a caption, up to the end of the tag. -/
def afterName (e : Element captionNames) : List Char :=
  match e.endSpace with
  | some _ => e.tag.tail ++ ['>']
  | none => e.tag.tail ++ ['/', '>']

/-- What follows the tag that a caption begins with. -/
def afterTag (e : Element captionNames) : List Char :=
  match e.endSpace with
  | some space => textOf e.content ++ e.tag.closing space
  | none => []

theorem element_text (e : Element captionNames) :
    e.text = '<' :: (e.tag.name ++ (afterName e ++ afterTag e)) := by
  cases h : e.endSpace <;> simp [Element.text, afterName, afterTag, Tag.opening, Tag.empty, h]

/-- The scan takes the caption for one. -/
def Begins (e : Element captionNames) : Prop :=
  ∃ c rest, afterName e = c :: rest ∧ c ∈ [' ', '>']

/-- The closing tag of a caption is the one that the scan looks for. -/
theorem closing_nil (tag : Tag) : tag.closing [] = closingTag tag.name := rfl

/-- A caption that does not begin so is passed over with its content. -/
theorem silent_of_not_begins (h : ¬ Begins e) (hcontent : Silent (textOf e.content)) :
    Silent e.text := by
  cases hend : e.endSpace with
  | none =>
      have htext : e.text = e.tag.empty := by simp [Element.text, hend]
      rw [htext]
      refine .of_not_opens e.tag.suffix_empty fun hopens => h ?_
      have hbegins := (opens_of_tail e.tag (by decide) (by decide) hopens).2
      rwa [Begins, afterName, hend]
  | some space =>
      have htext : e.text = e.tag.opening ++ (textOf e.content ++ e.tag.closing space) := by
        simp [Element.text, hend]
      have hopening : Silent e.tag.opening := by
        refine .of_not_opens e.tag.suffix_opening fun hopens => h ?_
        have hbegins := (opens_of_tail e.tag (by decide) (by decide) hopens).2
        rwa [Begins, afterName, hend]
      have hclosing : Silent (e.tag.closing space) :=
        .of_not_opens (e.tag.suffix_closing space) (not_opens_closing e.tag (e.space space hend))
      rw [htext]
      exact hopening.append (hcontent.append hclosing)

/-- The rest of a caption without the closing tag is passed over. -/
theorem passedOver_afterTag {name : List Char} (hname : name ∈ captionNames)
    (hcontent : Text.PassedOver (closingTag name) (textOf e.content))
    (h : ¬ (e.tag.name = name ∧ e.endSpace = some [])) :
    Text.PassedOver (closingTag name) (afterTag e) := by
  cases hend : e.endSpace with
  | none =>
      rw [afterTag, hend]
      exact .nil _
  | some space =>
      rw [afterTag, hend]
      refine hcontent.append (passedOver_of_not_occurs hname (e.tag.suffix_closing space) ?_)
      intro hin
      obtain ⟨heq, rfl⟩ := closing_of_occurs hname e.tag (e.space space hend) hin
      exact h ⟨heq, hend⟩

/-- The tag that a caption begins with is passed over. -/
theorem passedOver_tag (e : Element captionNames) {name : List Char} (hname : name ∈ captionNames) :
    Text.PassedOver (closingTag name) ('<' :: (e.tag.name ++ afterName e)) := by
  cases hend : e.endSpace with
  | none =>
      rw [afterName, hend]
      exact passedOver_of_not_occurs hname e.tag.suffix_empty
        (not_closes_tag e.tag (by decide) name)
  | some space =>
      rw [afterName, hend]
      exact passedOver_of_not_occurs hname e.tag.suffix_opening
        (not_closes_tag e.tag (by decide) name)

/-- A caption whose closing tag is another one is passed over. -/
theorem passedOver_element {name : List Char} (hname : name ∈ captionNames)
    (hcontent : Text.PassedOver (closingTag name) (textOf e.content))
    (h : ¬ (e.tag.name = name ∧ e.endSpace = some [])) :
    Text.PassedOver (closingTag name) e.text := by
  have htext : e.text = '<' :: (e.tag.name ++ afterName e) ++ afterTag e := by simp [element_text]
  rw [htext]
  exact (passedOver_tag e hname).append (passedOver_afterTag hname hcontent h)

/-- The attributes of a caption end at the first bracket behind its name. -/
theorem nextCaption_caption_iff (h : Begins e) {attributes more : List Char}
    (hsplit : afterName e = attributes ++ '>' :: more) (hplain : '>' ∉ attributes)
    (rest : List Char) (next : Option Caption) :
    nextCaption (e.text ++ rest) = .ok next ↔
      ∃ rawText behind, Text.splitOnce (closingTag e.tag.name) (more ++ (afterTag e ++ rest)) =
        some (rawText, behind) ∧ next = some ⟨attributes, rawText, behind⟩ := by
  have hspaced : attributes = [] ∨ ∃ rest, attributes = ' ' :: rest := by
    obtain ⟨c, tail, hbegin, hc⟩ := h
    cases attributes with
    | nil => exact .inl rfl
    | cons d attributes =>
        rw [hsplit] at hbegin
        obtain ⟨rfl, -⟩ := List.cons.inj hbegin
        rcases List.mem_cons.mp hc with rfl | hc
        · exact .inr ⟨attributes, rfl⟩
        · exact absurd (List.mem_singleton.mp hc ▸ List.mem_cons_self ..) hplain
  have hcaption := captionAt_eq_ok_iff e.named hspaced hplain (more ++ (afterTag e ++ rest))
  have htext : e.text ++ rest =
      '<' :: (e.tag.name ++ (attributes ++ '>' :: (more ++ (afterTag e ++ rest)))) := by
    simp [element_text, hsplit]
  have hne : captionAt (e.tag.name ++ (attributes ++ '>' :: (more ++ (afterTag e ++ rest)))) ≠
      .ok none := fun hnone => by
    obtain ⟨_, _, _, hnext⟩ := (hcaption none).mp hnone
    cases hnext
  rw [htext, nextCaption_of_ne hne]
  exact hcaption next

/-- What follows the name of a caption has an end. -/
theorem exists_afterName (e : Element captionNames) :
    ∃ attributes more, afterName e = attributes ++ '>' :: more ∧ '>' ∉ attributes ∧ '<' ∉ more := by
  have hopen : '<' ∉ afterName e := by
    cases h : e.endSpace <;> simp [afterName, h, e.tag.not_mem_tail]
  have hclose : '>' ∈ afterName e := by
    cases h : e.endSpace <;> simp [afterName, h]
  obtain ⟨attributes, more, hsplit, hplain⟩ := List.eq_append_cons_of_mem hclose
  rw [hsplit, List.mem_append, List.mem_cons, not_or, not_or] at hopen
  exact ⟨attributes, more, hsplit, hplain, hopen.2.2⟩

/-- A caption that ends as the scan looks for it is cut there. -/
theorem nextCaption_of_closed (h : Begins e) {attributes more : List Char}
    (hsplit : afterName e = attributes ++ '>' :: more) (hplain : '>' ∉ attributes)
    (hmore : '<' ∉ more) (hend : e.endSpace = some [])
    (hcontent : Text.PassedOver (closingTag e.tag.name) (textOf e.content)) (rest : List Char) :
    nextCaption (e.text ++ rest) =
      .ok (some ⟨attributes, more ++ textOf e.content, rest⟩) := by
  refine (nextCaption_caption_iff h hsplit hplain rest _).mpr ⟨_, _, ?_, rfl⟩
  have hpassed := (passedOver_of_not_mem hmore e.tag.name).append hcontent
  have htext : more ++ (afterTag e ++ rest) =
      more ++ textOf e.content ++ (closingTag e.tag.name ++ rest) := by
    simp [afterTag, hend, closing_nil]
  rw [htext, hpassed, splitOnce_closingTag]
  simp

/-- Any other caption that begins for the scan ends behind it. -/
theorem splitOnce_of_not_closed (h : Begins e) (hend : e.endSpace ≠ some [])
    (hcontent : Text.PassedOver (closingTag e.tag.name) (textOf e.content)) {rest : List Char}
    {caption : Caption} (hnext : nextCaption (e.text ++ rest) = .ok (some caption)) :
    ∃ rawText, Text.splitOnce (closingTag e.tag.name) rest = some (rawText, caption.next) := by
  obtain ⟨attributes, more, hsplit, hplain, hmore⟩ := exists_afterName e
  obtain ⟨rawText, behind, hfound, heq⟩ :=
    (nextCaption_caption_iff h hsplit hplain rest _).mp hnext
  obtain rfl := Option.some.inj heq
  have hpassed := (passedOver_of_not_mem hmore e.tag.name).append
    (passedOver_afterTag e.named hcontent fun h => hend h.2)
  rw [← List.append_assoc, hpassed, Option.map_eq_some_iff] at hfound
  obtain ⟨⟨rawText', behind'⟩, hfound, heq⟩ := hfound
  obtain ⟨-, rfl⟩ := Prod.mk.inj heq
  exact ⟨rawText', hfound⟩

/-! ### Documents -/

/-- A passage whose asides the scan does not take for parts of captions; a caption has such content,
and no caption in it. -/
def Tame : Passage captionNames → Prop
  | .element e =>
      (∀ passage ∈ passagesOf captionNames e.content, Harmless passage) ∧ CdataPlain e.content
  | passage => Harmless passage

theorem Tame.harmless {passage : Passage captionNames} (h : Tame passage)
    (hne : ∀ e, passage ≠ .element e) : Harmless passage := by
  cases passage with
  | element e => exact absurd rfl (hne e)
  | chars _ _ | tag _ _ | aside _ => exact h

variable {passages : List (Passage captionNames)}

/-- Content of harmless passages. -/
theorem silent_of_harmless {nodes : List Node}
    (h : ∀ passage ∈ passagesOf captionNames nodes, Harmless passage) : Silent (textOf nodes) := by
  have htext : textOf nodes = (passagesOf captionNames nodes).flatMap Passage.text :=
    Xml.textOf_eq_flatMap nodes
  rw [htext]
  generalize passagesOf captionNames nodes = passages at h
  induction passages with
  | nil => exact fun rest => rfl
  | cons passage passages ih =>
      rw [List.forall_mem_cons] at h
      exact h.1.silent.append (ih h.2)

theorem passedOver_of_harmless {nodes : List Node}
    (h : ∀ passage ∈ passagesOf captionNames nodes, Harmless passage) {name : List Char}
    (hname : name ∈ captionNames) : Text.PassedOver (closingTag name) (textOf nodes) := by
  have htext : textOf nodes = (passagesOf captionNames nodes).flatMap Passage.text :=
    Xml.textOf_eq_flatMap nodes
  rw [htext]
  generalize passagesOf captionNames nodes = passages at h
  induction passages with
  | nil => exact .nil _
  | cons passage passages ih =>
      rw [List.forall_mem_cons] at h
      exact (h.1.passedOver hname).append (ih h.2)

/-- **A closing tag that is found is the end of a caption.** -/
theorem exists_of_splitOnce_closingTag (htame : ∀ passage ∈ passages, Tame passage)
    {name : List Char} (hname : name ∈ captionNames) {rawText behind : List Char}
    (h : Text.splitOnce (closingTag name) (passages.flatMap Passage.text) =
      some (rawText, behind)) :
    ∃ before e after, passages = before ++ .element e :: after ∧
      behind = after.flatMap Passage.text := by
  induction passages generalizing rawText with
  | nil => cases h
  | cons passage passages ih =>
      rw [List.forall_mem_cons] at htame
      -- the closing tag is this caption's, or it stands further behind
      have hlater (hpassed : Text.PassedOver (closingTag name) passage.text) :
          ∃ before e after, passage :: passages = before ++ .element e :: after ∧
            behind = after.flatMap Passage.text := by
        rw [List.flatMap_cons, hpassed, Option.map_eq_some_iff] at h
        obtain ⟨⟨rawText', behind'⟩, h, heq⟩ := h
        obtain ⟨-, rfl⟩ := Prod.mk.inj heq
        obtain ⟨before, e, after, rfl, hbehind⟩ := ih htame.2 h
        exact ⟨passage :: before, e, after, rfl, hbehind⟩
      rcases passage.element_or with ⟨e, rfl⟩ | hne
      · have hcontent := passedOver_of_harmless htame.1.1 hname
        by_cases hclosed : e.tag.name = name ∧ e.endSpace = some []
        · obtain ⟨rfl, hend⟩ := hclosed
          have hpassed := (passedOver_tag e hname).append hcontent
          have hbody : e.text ++ passages.flatMap Passage.text =
              '<' :: (e.tag.name ++ afterName e) ++ textOf e.content ++
                (closingTag e.tag.name ++ passages.flatMap Passage.text) := by
            simp [element_text, afterTag, hend, closing_nil]
          rw [List.flatMap_cons, Passage.text, hbody, hpassed, splitOnce_closingTag] at h
          obtain ⟨-, rfl⟩ := Prod.mk.inj (Option.some.inj h)
          exact ⟨[], e, passages, rfl, rfl⟩
        · exact hlater (passedOver_element hname hcontent hclosed)
      · exact hlater ((htame.1.harmless hne).passedOver hname)

/-! ### The scan -/

variable {lib : YoutubeLib} {limits : YoutubeLimits}

/-- One caption of the scan. -/
theorem xmlSegments_eq_ok_iff_of_some {cursor : List Char} {caption : Caption}
    (h : nextCaption cursor = .ok (some caption)) {before result : List Segment} :
    xmlSegments lib limits cursor before = .ok result ↔
      ∃ timing, timingFromAttributes lib caption.attributes = .ok timing ∧
        (decodeEntities caption.rawText).length ≤ limits.maxSegmentCharacters ∧
        before.length < limits.maxSegments ∧
        xmlSegments lib limits caption.next
          (before ++ [⟨timing.1, timing.2, String.ofList (decodeEntities caption.rawText)⟩]) =
            .ok result := by
  rw [xmlSegments_of_some h, Except.bind_eq_ok_iff]
  refine exists_congr fun timing => and_congr_right fun _ => ?_
  constructor
  · intro h
    obtain ⟨segments, hcollect, hrest⟩ := Except.bind_eq_ok_iff.mp h
    obtain ⟨_, hlength, hcollect⟩ := Except.bind_eq_ok_iff.mp hcollect
    obtain ⟨_, hcount, hcollect⟩ := Except.bind_eq_ok_iff.mp hcollect
    obtain rfl := Except.ok.inj hcollect
    exact ⟨Except.require_eq_ok_iff.mp hlength, Except.require_eq_ok_iff.mp hcount, hrest⟩
  · rintro ⟨hlength, hcount, hrest⟩
    exact Except.bind_eq_ok_iff.mpr ⟨_, Except.bind_eq_ok_iff.mpr
      ⟨(), Except.require_eq_ok_iff.mpr hlength, Except.bind_eq_ok_iff.mpr
        ⟨(), Except.require_eq_ok_iff.mpr hcount, rfl⟩⟩, hrest⟩

/-- **The spelling of a caption that the scan reads**: an opening and a closing tag, a space behind
the name, no bracket in the attributes, a timing that is read, no white space in the closing tag,
and plain content. -/
structure PlainlySpelled (lib : YoutubeLib) (e : Element captionNames) : Prop where
  spaced : ∃ rest, e.tag.tail = ' ' :: rest
  unbroken : '>' ∉ e.tag.tail
  timed : ∃ timing, timingFromAttributes lib e.tag.tail = .ok timing
  closed : e.endSpace = some []
  plain : ∀ node ∈ e.content, PlainNode node

/-- The texts of segments. -/
def segmentTexts (segments : List Segment) : List (List Char) :=
  segments.map fun s => s.text.toList

/-- The character data of captions. -/
def captionData (captions : List (Element captionNames)) : List (List Char) :=
  captions.map fun e => charData e.content

/-! ### When captions are read -/

theorem timingFromAttributes_nil : timingFromAttributes lib [] = .error .schema := by
  rw [timingFromAttributes, attributeValue_nil, attributeValue_nil, attributeValue_nil]

/-- A caption that is cut at its end and read as its character data is spelled plainly. -/
theorem plainlySpelled_of_read (hbegins : Begins e) (hend : e.endSpace = some [])
    (hcdata : CdataPlain e.content) {attributes more : List Char}
    (hsplit : afterName e = attributes ++ '>' :: more) (hplain : '>' ∉ attributes)
    {timing : ℕ × ℕ} (htimed : timingFromAttributes lib attributes = .ok timing)
    (hread : decodeEntities (more ++ textOf e.content) = charData e.content) :
    PlainlySpelled lib e := by
  have htail : afterName e = e.tag.tail ++ ['>'] := by rw [afterName, hend]
  have hne {text : List Char} (h : '>' ∉ text) : ∀ d ∈ text, d ≠ '>' := fun d hd hc => h (hc ▸ hd)
  by_cases hbroken : '>' ∈ e.tag.tail
  · -- a bracket in the attributes ends them, and the rest of them is read as text
    obtain ⟨start, rest, hrest, hstart⟩ := List.eq_append_cons_of_mem hbroken
    rw [htail, hrest, List.append_assoc, List.cons_append] at hsplit
    obtain ⟨-, -, rfl⟩ := Text.append_cons_inj (p := fun d => d ≠ '>') (hne hstart) (by simp)
      (hne hplain) (by simp) hsplit
    rw [List.append_assoc, List.singleton_append] at hread
    exact absurd hread (decodeEntities_append_ne hcdata rest)
  · rw [htail] at hsplit
    obtain ⟨rfl, -, rfl⟩ := Text.append_cons_inj (p := fun d => d ≠ '>') (hne hbroken) (by simp)
      (hne hplain) (by simp) hsplit
    refine ⟨?_, hbroken, ⟨timing, htimed⟩, hend, plain_of_decodeEntities hcdata hread⟩
    obtain ⟨c, rest, hbegin, hc⟩ := hbegins
    rw [htail] at hbegin
    cases hspace : e.tag.tail with
    | nil =>
        rw [hspace, timingFromAttributes_nil] at htimed
        cases htimed
    | cons d tail =>
        rw [hspace] at hbegin hbroken
        obtain ⟨rfl, -⟩ := List.cons.inj hbegin
        rcases List.mem_cons.mp hc with rfl | hc
        · exact ⟨tail, rfl⟩
        · exact absurd (List.mem_singleton.mp hc ▸ List.mem_cons_self ..) hbroken

/-- The scan does not pass over a caption that begins for it. -/
theorem exists_caption_of_ok (hbegins : Begins e) {rest : List Char} {before result : List Segment}
    (h : xmlSegments lib limits (e.text ++ rest) before = .ok result) :
    ∃ caption, nextCaption (e.text ++ rest) = .ok (some caption) := by
  cases hnext : nextCaption (e.text ++ rest) with
  | error error =>
      rw [xmlSegments_of_error hnext] at h
      cases h
  | ok next =>
      obtain ⟨attributes, more, hsplit, hplain, -⟩ := exists_afterName e
      obtain ⟨_, _, _, rfl⟩ := (nextCaption_caption_iff hbegins hsplit hplain rest next).mp hnext
      exact ⟨_, rfl⟩

/-- **What the scan makes of a document**: no more segments than captions, and the texts of all of
them only where all are spelled plainly. -/
structure Scanned (lib : YoutubeLib) (passages : List (Passage captionNames))
    (segments : List Segment) : Prop where
  length_le : segments.length ≤ (elementsIn passages).length
  spelled : segmentTexts segments = captionData (elementsIn passages) →
    ∀ e ∈ elementsIn passages, PlainlySpelled lib e

/-- A caption for which there is no segment. -/
theorem Scanned.fewer {segments : List Segment}
    (h : segments.length ≤ (elementsIn passages).length) :
    Scanned lib (.element e :: passages) segments where
  length_le := Nat.le_succ_of_le h
  spelled heq := by
    have hlength := congrArg List.length heq
    simp [segmentTexts, captionData, elementsIn] at hlength
    omega

/-- A caption with its own segment. -/
theorem Scanned.cut {segments : List Segment} {s : Segment} (h : Scanned lib passages segments)
    (hs : s.text.toList = charData e.content → PlainlySpelled lib e) :
    Scanned lib (.element e :: passages) (s :: segments) where
  length_le := Nat.succ_le_succ h.length_le
  spelled heq := by
    obtain ⟨htext, hrest⟩ := List.cons.inj heq
    exact List.forall_mem_cons.mpr ⟨hs htext, h.spelled hrest⟩

/-- What is between captions counts for nothing. -/
theorem Scanned.passed {passage : Passage captionNames} (hne : ∀ e, passage ≠ .element e)
    {segments : List Segment} (h : Scanned lib passages segments) :
    Scanned lib (passage :: passages) segments := by
  have hsame := Xml.elementsIn_cons_of_ne hne passages
  exact ⟨hsame ▸ h.length_le, hsame ▸ h.spelled⟩

/-- **The scan of a document.** -/
theorem scanned_of_xmlSegments (htame : ∀ passage ∈ passages, Tame passage)
    {before result : List Segment}
    (h : xmlSegments lib limits (passages.flatMap Passage.text) before = .ok result) :
    ∃ more, result = before ++ more ∧ Scanned lib passages more := by
  -- by the number of passages, since a caption may end with one further behind
  induction hn : passages.length using Nat.strong_induction_on generalizing passages before with
  | _ n ih =>
    cases passages with
    | nil =>
        rw [xmlSegments_of_none rfl] at h
        exact ⟨[], by rw [List.append_nil, Except.ok.inj h], Nat.le_refl _,
          fun _ _ he => nomatch he⟩
    | cons passage passages =>
        have hshorter : passages.length < n := hn ▸ Nat.lt_succ_self _
        rw [List.forall_mem_cons] at htame
        rw [List.flatMap_cons] at h
        rcases passage.element_or with ⟨e, rfl⟩ | hne
        · have hpassed := passedOver_of_harmless htame.1.1 e.named
          rw [Passage.text] at h
          by_cases hbegins : Begins e
          · obtain ⟨attributes, more, hsplit, hplain, hmore⟩ := exists_afterName e
            obtain ⟨caption, hnext⟩ := exists_caption_of_ok hbegins h
            obtain ⟨timing, htimed, -, -, hrest⟩ := (xmlSegments_eq_ok_iff_of_some hnext).mp h
            by_cases hend : e.endSpace = some []
            · have hcut := nextCaption_of_closed hbegins hsplit hplain hmore hend hpassed
                (passages.flatMap Passage.text)
              obtain rfl := Option.some.inj (Except.ok.inj (hnext.symm.trans hcut))
              obtain ⟨segments, rfl, hscan⟩ := ih _ hshorter htame.2 hrest rfl
              refine ⟨_ :: segments, by rw [List.append_assoc, List.singleton_append],
                hscan.cut fun htext => ?_⟩
              rw [String.toList_ofList] at htext
              exact plainlySpelled_of_read hbegins hend htame.1.2 hsplit hplain htimed htext
            · -- the caption ends with a later one, so that there is one segment for both
              obtain ⟨rawText, hfound⟩ := splitOnce_of_not_closed hbegins hend hpassed hnext
              obtain ⟨start, e', after, rfl, hafter⟩ :=
                exists_of_splitOnce_closingTag htame.2 e.named hfound
              rw [hafter] at hrest
              obtain ⟨segments, rfl, hscan⟩ := ih after.length
                (lt_of_le_of_lt (by simp; omega) hshorter)
                (fun passage hpassage => htame.2 passage (by simp [hpassage])) hrest rfl
              refine ⟨_ :: segments, by rw [List.append_assoc, List.singleton_append],
                .fewer ?_⟩
              have hle := hscan.length_le
              simp [elementsIn, Xml.elementsIn_append]
              omega
          · have hsilent := silent_of_not_begins hbegins (silent_of_harmless htame.1.1)
            rw [xmlSegments_congr (hsilent _)] at h
            obtain ⟨segments, hresult, hscan⟩ := ih _ hshorter htame.2 h rfl
            exact ⟨segments, hresult, .fewer hscan.length_le⟩
        · rw [xmlSegments_congr ((htame.1.harmless hne).silent _)] at h
          obtain ⟨segments, hresult, hscan⟩ := ih _ hshorter htame.2 h rfl
          exact ⟨segments, hresult, hscan.passed hne⟩

/-- A caption that is spelled plainly is cut exactly. -/
theorem PlainlySpelled.nextCaption (h : PlainlySpelled lib e) (rest : List Char) :
    nextCaption (e.text ++ rest) = .ok (some ⟨e.tag.tail, textOf e.content, rest⟩) := by
  have htail : afterName e = e.tag.tail ++ '>' :: [] := by rw [afterName, h.closed]
  have hbegins : Begins e := by
    obtain ⟨more, hmore⟩ := h.spaced
    exact ⟨' ', more ++ ['>'], by rw [htail, hmore]; rfl, by decide⟩
  exact nextCaption_of_closed hbegins htail h.unbroken List.not_mem_nil h.closed
    (passedOver_of_not_mem (not_mem_textOf h.plain) _) rest

/-- The captions are few and short enough. -/
def CaptionsFit (limits : YoutubeLimits) (captions : List (Element captionNames)) : Prop :=
  captions.length ≤ limits.maxSegments ∧
    ∀ e ∈ captions, (charData e.content).length ≤ limits.maxSegmentCharacters

/-- Captions that are spelled plainly are collected in order. -/
theorem xmlSegments_of_plainlySpelled
    (hasides : ∀ body, .aside body ∈ passages → ¬ OpensCaption (body ++ ['>']))
    (hspelled : ∀ e ∈ elementsIn passages, PlainlySpelled lib e)
    (hlength : ∀ e ∈ elementsIn passages, (charData e.content).length ≤ limits.maxSegmentCharacters)
    (before : List Segment)
    (hcount : before.length + (elementsIn passages).length ≤ limits.maxSegments) :
    ∃ segments, xmlSegments lib limits (passages.flatMap Passage.text) before =
        .ok (before ++ segments) ∧ segmentTexts segments = captionData (elementsIn passages) := by
  induction passages generalizing before with
  | nil => exact ⟨[], by rw [xmlSegments_of_none rfl, List.append_nil], rfl⟩
  | cons passage passages ih =>
      have hasides' : ∀ body, .aside body ∈ passages → ¬ OpensCaption (body ++ ['>']) :=
        fun body hbody => hasides body (List.mem_cons_of_mem passage hbody)
      rw [List.flatMap_cons]
      rcases passage.element_or with ⟨e, rfl⟩ | hne
      · rw [elementsIn, List.forall_mem_cons] at hspelled hlength
        rw [elementsIn, List.length_cons] at hcount
        obtain ⟨timing, htimed⟩ := hspelled.1.timed
        have hread := decodeEntities_textOf hspelled.1.plain
        obtain ⟨segments, hsegments, htexts⟩ := ih hasides' hspelled.2 hlength.2
          (before ++ [⟨timing.1, timing.2, String.ofList (decodeEntities (textOf e.content))⟩])
          (by rw [List.length_append, List.length_singleton]; omega)
        refine ⟨⟨timing.1, timing.2, String.ofList (charData e.content)⟩ :: segments, ?_, ?_⟩
        · refine (xmlSegments_eq_ok_iff_of_some (hspelled.1.nextCaption _)).mpr
            ⟨timing, htimed, hread ▸ hlength.1, by omega, ?_⟩
          rw [hsegments, hread, List.append_assoc, List.singleton_append]
        · simpa [segmentTexts, captionData, elementsIn] using htexts
      · have hsilent : Silent passage.text := silent_of_ne hne fun body hbody =>
          hasides body (hbody ▸ List.mem_cons_self ..)
        rw [Xml.elementsIn_cons_of_ne hne] at hspelled hlength hcount ⊢
        rw [xmlSegments_congr (hsilent _)]
        exact ih hasides' hspelled hlength before hcount

/-- **One segment for each caption**, in document order, with the character data of the caption. -/
def YieldsCaptions (lib : YoutubeLib) (limits : YoutubeLimits) (nodes : List Node) : Prop :=
  ∃ segments, xmlSegments lib limits (textOf nodes) [] = .ok segments ∧
    segmentTexts segments = captionData (elementsOf captionNames nodes)

/-- The scan takes no aside of the content, outside its captions, for a part of a caption. -/
def AsidesPlain (nodes : List Node) : Prop :=
  ∀ body, .aside body ∈ passagesOf captionNames nodes →
    ¬ OpensCaption (body ++ ['>']) ∧ ¬ ClosesCaption (body ++ ['>'])

/-- The scan takes no aside for a part of a caption, and finds no reference in a CDATA section. -/
structure PlainAsides (nodes : List Node) : Prop where
  outside : AsidesPlain nodes
  inside : ∀ e ∈ elementsOf captionNames nodes, AsidesPlain e.content
  cdata : ∀ e ∈ elementsOf captionNames nodes, CdataPlain e.content

/-- Content without captions is harmless where its asides are. -/
theorem AsidesPlain.harmless {nodes : List Node} (h : AsidesPlain nodes)
    (hnone : elementsOf captionNames nodes = []) :
    ∀ passage ∈ passagesOf captionNames nodes, Harmless passage := by
  intro passage hpassage
  cases passage with
  | chars text plain => trivial
  | tag text other => trivial
  | aside body => exact h body hpassage
  | element e =>
      rw [← Xml.mem_elementsIn_iff, ← elementsOf, hnone] at hpassage
      cases hpassage

theorem PlainAsides.tame {nodes : List Node} (h : PlainAsides nodes)
    (hnested : Xml.NotNested captionNames nodes) :
    ∀ passage ∈ passagesOf captionNames nodes, Tame passage := by
  intro passage hpassage
  cases passage with
  | chars text plain => trivial
  | tag text other => trivial
  | aside body => exact h.outside body hpassage
  | element e =>
      have he : e ∈ elementsOf captionNames nodes := Xml.mem_elementsIn_iff.mpr hpassage
      exact ⟨(h.inside e he).harmless (hnested e he), h.cdata e he⟩

/-- **When the captions of a document are read.** The scan yields one segment for each caption, with
its character data, where every caption is spelled plainly and no aside between them begins like a
caption. Where the scan takes no aside for a part of a caption, and so cannot be right by chance,
these are all the documents for which it does. -/
theorem captions_read_iff (lib : YoutubeLib) (limits : YoutubeLimits) {nodes : List Node}
    (hnested : Xml.NotNested captionNames nodes)
    (hfit : CaptionsFit limits (elementsOf captionNames nodes)) :
    ((∀ body, .aside body ∈ passagesOf captionNames nodes → ¬ OpensCaption (body ++ ['>'])) →
      (∀ e ∈ elementsOf captionNames nodes, PlainlySpelled lib e) →
        YieldsCaptions lib limits nodes) ∧
    (PlainAsides nodes →
      (YieldsCaptions lib limits nodes ↔
        ∀ e ∈ elementsOf captionNames nodes, PlainlySpelled lib e)) := by
  have hread (hasides : ∀ body, .aside body ∈ passagesOf captionNames nodes →
      ¬ OpensCaption (body ++ ['>']))
      (hspelled : ∀ e ∈ elementsOf captionNames nodes, PlainlySpelled lib e) :
      YieldsCaptions lib limits nodes := by
    obtain ⟨segments, hsegments, htexts⟩ :=
      xmlSegments_of_plainlySpelled hasides hspelled hfit.2 []
        (by rw [List.length_nil, Nat.zero_add]; exact hfit.1)
    rw [← Xml.textOf_eq_flatMap] at hsegments
    exact ⟨segments, hsegments, htexts⟩
  refine ⟨hread, fun hplain => ⟨?_, hread fun body hbody => (hplain.outside body hbody).1⟩⟩
  rintro ⟨segments, hsegments, htexts⟩
  have htext : textOf nodes = (passagesOf captionNames nodes).flatMap Passage.text :=
    Xml.textOf_eq_flatMap nodes
  rw [htext] at hsegments
  obtain ⟨more, rfl, hscan⟩ := scanned_of_xmlSegments (hplain.tame hnested) hsegments
  exact hscan.spelled htexts

/-! ### Examples -/

/-- The tag of a caption. -/
def captionTag : Tag where
  name := ['p']
  attributes := tickPair
  space := []
  isName := by decide
  distinct := by decide +kernel
  space_space := Xml.isSpace_nil

/-- A document around captions. -/
def captionBody (captions : List Node) : List Node :=
  [.element ⟨"body".toList, [], [], by decide, List.nodup_nil, Xml.isSpace_nil⟩ captions []
    Xml.isSpace_nil]

/-- A caption that is a single tag, before another one. -/
def swallowing : List Node :=
  captionBody [.empty captionTag,
    .element captionTag [.chars ['b'] (by decide)] [] Xml.isSpace_nil]

theorem textOf_swallowing : textOf swallowing =
    "<body><p t=\"100\" d=\"50\"/><p t=\"100\" d=\"50\">b</p></body>".toList := by
  simp only [swallowing, captionBody, textOf]
  decide +kernel

/-- Its captions. -/
theorem elementsOf_swallowing : elementsOf captionNames swallowing =
    [⟨captionTag, [], none, by decide, fun s hs => absurd hs (Option.not_mem_none s), fun _ => rfl⟩,
      ⟨captionTag, [.chars ['b'] (by decide)], some [], by decide,
        fun _ hs => Option.some.inj hs ▸ Xml.isSpace_nil, (nomatch ·)⟩] := by
  have hbody : "body".toList ∉ captionNames := by decide
  have hcaption : captionTag.name ∈ captionNames := by decide
  simp only [swallowing, captionBody, elementsOf, passagesOf, dif_neg hbody, dif_pos hcaption,
    List.cons_append, List.nil_append, elementsIn]

/-- The text of a caption that follows is read as that of one without any. -/
theorem neighbour_swallowed :
    textOf swallowing =
        "<body><p t=\"100\" d=\"50\"/><p t=\"100\" d=\"50\">b</p></body>".toList ∧
      Xml.NotNested captionNames swallowing ∧
      CaptionsFit ⟨1000, 1000, 10, 10, 100⟩ (elementsOf captionNames swallowing) ∧
      captionData (elementsOf captionNames swallowing) = [[], ['b']] ∧
      xmlSegments exampleTracks ⟨1000, 1000, 10, 10, 100⟩ (textOf swallowing) [] =
        .ok [⟨100, 50, "<p t=\"100\" d=\"50\">b"⟩] ∧
      ¬ YieldsCaptions exampleTracks ⟨1000, 1000, 10, 10, 100⟩ swallowing := by
  have hdata : captionData (elementsOf captionNames swallowing) = [[], ['b']] := by
    rw [elementsOf_swallowing]
    simp [captionData, charData]
  have hnext : nextCaption (textOf swallowing) =
      .ok (some ⟨" t=\"100\" d=\"50\"/".toList, "<p t=\"100\" d=\"50\">b".toList,
        "</body>".toList⟩) := by
    rw [textOf_swallowing]
    rfl
  have hlookup := attributeValue_attributes quote_tickPair (by decide : '=' ∉ ['/'])
  have hattributes : " t=\"100\" d=\"50\"/".toList = attributesText tickPair ['/'] := by
    decide +kernel
  have htimed : timingFromAttributes exampleTracks " t=\"100\" d=\"50\"/".toList =
      .ok (100, 50) := by
    rw [hattributes, timingFromAttributes, hlookup, hlookup, hlookup, hlookup]
    rfl
  have hdecode : decodeEntities "<p t=\"100\" d=\"50\">b".toList =
      "<p t=\"100\" d=\"50\">b".toList :=
    decodeEntities_of_not_mem (by decide +kernel)
  have hsegments : xmlSegments exampleTracks ⟨1000, 1000, 10, 10, 100⟩ (textOf swallowing) [] =
      .ok [⟨100, 50, "<p t=\"100\" d=\"50\">b"⟩] := by
    refine (xmlSegments_eq_ok_iff_of_some hnext).mpr ⟨(100, 50), htimed, ?_, by decide, ?_⟩
    · rw [hdecode]
      decide +kernel
    · rw [hdecode, xmlSegments_of_none rfl, String.ofList_toList]
      rfl
  refine ⟨textOf_swallowing, ?_, ?_, hdata, hsegments, ?_⟩
  · rw [Xml.NotNested, elementsOf_swallowing]
    simp [elementsOf, passagesOf, elementsIn]
  · rw [CaptionsFit, elementsOf_swallowing]
    simp [charData]
  · rintro ⟨segments, hsegments', htexts⟩
    obtain rfl := Except.ok.inj (hsegments.symm.trans hsegments')
    rw [hdata] at htexts
    exact absurd (congrArg List.length htexts) (by decide)

/-- A document that is read: a caption with a reference, a comment, and another caption. -/
def plainDocument : List Node :=
  captionBody [
    .element captionTag [.chars ['a'] (by decide), .reference "amp".toList '&' .amp] []
      Xml.isSpace_nil,
    .comment ['c'] (by decide),
    .element captionTag [.chars ['b'] (by decide)] [] Xml.isSpace_nil]

theorem elementsOf_plainDocument : elementsOf captionNames plainDocument =
    [⟨captionTag, [.chars ['a'] (by decide), .reference "amp".toList '&' .amp], some [], by decide,
        fun _ hs => Option.some.inj hs ▸ Xml.isSpace_nil, (nomatch ·)⟩,
      ⟨captionTag, [.chars ['b'] (by decide)], some [], by decide,
        fun _ hs => Option.some.inj hs ▸ Xml.isSpace_nil, (nomatch ·)⟩] := by
  have hbody : "body".toList ∉ captionNames := by decide
  have hcaption : captionTag.name ∈ captionNames := by decide
  simp only [plainDocument, captionBody, elementsOf, passagesOf, dif_neg hbody, dif_pos hcaption,
    List.cons_append, List.nil_append, elementsIn]

/-- Its asides are no parts of captions. -/
theorem asides_plainDocument {body : List Char}
    (h : .aside body ∈ passagesOf captionNames plainDocument) :
    ¬ OpensCaption (body ++ ['>']) ∧ ¬ ClosesCaption (body ++ ['>']) := by
  have hbody : "body".toList ∉ captionNames := by decide
  have hcaption : captionTag.name ∈ captionNames := by decide
  simp only [plainDocument, captionBody, passagesOf, dif_neg hbody, dif_pos hcaption, List.mem_cons,
    List.mem_append, reduceCtorEq, List.not_mem_nil, or_false, false_or, Passage.aside.injEq] at h
  rw [h]
  exact ⟨by decide +kernel, by decide +kernel⟩

theorem captions_read_iff_comment :
    textOf plainDocument =
        "<body><p t=\"100\" d=\"50\">a&amp;</p><!--c--><p t=\"100\" d=\"50\">b</p></body>".toList ∧
      YieldsCaptions exampleTracks ⟨1000, 1000, 10, 10, 100⟩ plainDocument := by
  have hcontent : ∀ e ∈ elementsOf captionNames plainDocument,
      ∀ passage ∈ passagesOf captionNames e.content, Harmless passage := by
    rw [elementsOf_plainDocument]
    simp [passagesOf, Harmless]
  have htimed : timingFromAttributes exampleTracks captionTag.tail = .ok (100, 50) := by
    have hlookup := attributeValue_attributes quote_tickPair (List.not_mem_nil (a := '='))
    have htail : captionTag.tail = attributesText tickPair [] := rfl
    rw [htail, timingFromAttributes, hlookup, hlookup, hlookup, hlookup]
    rfl
  have hspelled : ∀ e ∈ elementsOf captionNames plainDocument, PlainlySpelled exampleTracks e := by
    rw [elementsOf_plainDocument, List.forall_mem_cons, List.forall_mem_singleton]
    refine ⟨⟨⟨_, rfl⟩, by decide +kernel, ⟨(100, 50), htimed⟩, rfl, ?_⟩,
      ⟨_, rfl⟩, by decide +kernel, ⟨(100, 50), htimed⟩, rfl, ?_⟩
    · simp [PlainNode]
    · simp [PlainNode]
  have hfit : CaptionsFit ⟨1000, 1000, 10, 10, 100⟩ (elementsOf captionNames plainDocument) := by
    rw [CaptionsFit, elementsOf_plainDocument]
    simp [charData]
  have hnested : Xml.NotNested captionNames plainDocument := by
    rw [Xml.NotNested, elementsOf_plainDocument]
    simp [elementsOf, passagesOf, elementsIn]
  have hplain : PlainAsides plainDocument := by
    refine ⟨fun body => asides_plainDocument, fun e he body hbody => hcontent e he _ hbody, ?_⟩
    rw [elementsOf_plainDocument]
    simp [CdataPlain]
  refine ⟨?_, ((captions_read_iff exampleTracks _ hnested hfit).2 hplain).mpr hspelled⟩
  simp only [plainDocument, captionBody, textOf]
  decide +kernel

end Extractor
