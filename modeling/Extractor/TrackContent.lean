import Extractor.Lib.XmlElements
import Extractor.TrackFormats

/-!
# The content of a caption

What `decode_entities` of `crates/youtube/src/timedtext.rs` makes of well-formed XML content. It
resolves references of at most nine characters and keeps all markup, so that the result is the
character data of the content where there is no markup and no longer reference, and has more
characters than that elsewhere.

## Main definitions

* `PlainNode`: characters, or a reference within the look-ahead of the decoder.

## Main results

* `decodeEntities_textOf`: plain content is decoded to its character data.
* `plain_of_decodeEntities`: other content is not.
-/

namespace Extractor

open Xml (Node textOf charData)

/-! ### References -/

/-- Hexadecimal digits are parsed to their value. -/
theorem parseHexU32_of_digits {digits : List Char} (hne : digits ≠ [])
    (hdigits : ∀ d ∈ digits, Xml.isHex d = true)
    (hbound : digits.foldl (fun n d => 16 * n + Xml.hexValue d) 0 < 2 ^ 32) :
    parseHexU32 digits = some (digits.foldl (fun n d => 16 * n + Xml.hexValue d) 0) := by
  have hsign : ∀ rest, digits = '+' :: rest → False := by
    rintro rest rfl
    have hplus : Xml.isHex '+' = true := hdigits '+' List.mem_cons_self
    cases hplus
  rw [parseHexU32, if_pos ⟨hne, List.all_eq_true.mpr hdigits, hbound⟩]
  · rfl
  · exact hsign

/-- The decoder knows every reference of XML. -/
theorem entityChar_of_denotes {token : List Char} {c : Char} (h : Xml.Denotes token c) :
    entityChar token = some c := by
  have hchar : charFromU32 c.toNat = some c := by
    rw [charFromU32, if_pos (show c.toNat.isValidChar from c.valid), Char.ofNat_toNat]
  have hbound : c.toNat < 2 ^ 32 := c.val.toNat_lt
  cases h with
  | amp | lt | gt | quot | apos => decide
  | @decimal digits c hne hall hvalue =>
      have hparse := Text.parseUnsigned_of_digits hne hall (hvalue ▸ hbound)
      have hletter : ∀ x, x.isDigit = false → ∀ rest, digits = x :: rest → False := by
        rintro x hx rest rfl
        rw [hall x List.mem_cons_self] at hx
        cases hx
      rw [entityChar, hparse, hvalue, Option.bind_some, hchar]
      · exact hletter 'x' (by decide)
      · exact hletter 'X' (by decide)
  | @hexadecimal digits c hne hall hvalue =>
      rw [entityChar, parseHexU32_of_digits hne hall (hvalue ▸ hbound), hvalue, Option.bind_some,
        hchar]

/-! ### Decoding a text in parts -/

/-- **A character of no reference separates the text.** -/
theorem decodeEntities_append {c : Char} (hc : isReferenceChar c = false) (hsemi : c ≠ ';')
    (text rest : List Char) :
    decodeEntities (text ++ c :: rest) = decodeEntities text ++ decodeEntities (c :: rest) := by
  induction text using decodeEntities.induct with
  | case1 => rw [decodeEntities.eq_1, List.nil_append, List.nil_append]
  | case2 cs replacement after href _ ih =>
      obtain ⟨token, rfl, hlength, hchar⟩ := reference_eq_some_iff.mp href
      have hmore : reference (token ++ ';' :: after ++ c :: rest) =
          some (replacement, after ++ c :: rest) :=
        reference_eq_some_iff.mpr ⟨token, by simp, hlength, hchar⟩
      rw [List.cons_append, decodeEntities_of_reference hmore, decodeEntities_of_reference href, ih,
        List.cons_append]
  | case3 cs href ih =>
      have hmore : reference (cs ++ c :: rest) = none := by
        rw [Option.eq_none_iff_forall_ne_some]
        rintro ⟨d, after⟩ h
        obtain ⟨token, heq, hlength, hchar⟩ := reference_eq_some_iff.mp h
        rcases List.append_eq_append_iff.mp heq with ⟨more, rfl, hmore⟩ | ⟨more, rfl, hmore⟩
        · -- the token would reach the character
          cases more with
          | nil => exact hsemi (List.cons.inj hmore).1
          | cons e more =>
              obtain ⟨rfl, -⟩ := List.cons.inj hmore
              have hall := List.all_eq_true.mp (all_isReferenceChar_of_entityChar hchar) c (by simp)
              rw [hall] at hc
              cases hc
        · cases more with
          | nil => exact hsemi (List.cons.inj hmore).1.symm
          | cons e more =>
              obtain ⟨rfl, -⟩ := List.cons.inj hmore
              rw [reference_eq_some_iff.mpr ⟨token, rfl, hlength, hchar⟩] at href
              cases href
      rw [List.cons_append, decodeEntities_of_no_reference hmore,
        decodeEntities_of_no_reference href, ih, List.cons_append]
  | case4 d cs hd ih =>
      rw [List.cons_append, decodeEntities_cons_of_ne hd, decodeEntities_cons_of_ne hd, ih,
        List.cons_append]

/-- A text without an ampersand is kept. -/
theorem decodeEntities_append_of_not_mem {text : List Char} (h : '&' ∉ text) (rest : List Char) :
    decodeEntities (text ++ rest) = text ++ decodeEntities rest := by
  induction text with
  | nil => rfl
  | cons c text ih =>
      rw [List.mem_cons, not_or] at h
      rw [List.cons_append, decodeEntities_cons_of_ne (Ne.symm h.1), ih h.2, List.cons_append]

theorem decodeEntities_of_not_mem {text : List Char} (h : '&' ∉ text) :
    decodeEntities text = text := by
  have hkept := decodeEntities_append_of_not_mem h []
  rwa [List.append_nil, decodeEntities.eq_1, List.append_nil] at hkept

/-- What ends like a tag leaves at least its end. -/
theorem decodeEntities_append_end (text rest : List Char) :
    (decodeEntities rest).length < (decodeEntities (text ++ '>' :: rest)).length := by
  rw [decodeEntities_append (by decide) (by decide), decodeEntities_cons_of_ne (by decide)]
  simp
  omega

/-! ### Plain content -/

/-- Characters, or a reference within the look-ahead of the decoder. -/
def PlainNode : Node → Prop
  | .chars _ _ => True
  | .reference token _ _ => token.length ≤ 9
  | _ => False

/-- A short reference is resolved. -/
theorem decodeEntities_reference {token : List Char} {c : Char} (h : Xml.Denotes token c)
    (hlength : token.length ≤ 9) (rest : List Char) :
    decodeEntities (Xml.referenceText token ++ rest) = c :: decodeEntities rest := by
  have href : reference (token ++ ';' :: rest) = some (c, rest) :=
    reference_eq_some_iff.mpr ⟨token, rfl, hlength, entityChar_of_denotes h⟩
  have htext : Xml.referenceText token ++ rest = '&' :: (token ++ ';' :: rest) := by
    simp [Xml.referenceText]
  rw [htext, decodeEntities_of_reference href]

/-- A longer one is kept. -/
theorem decodeEntities_long_reference {token : List Char} {c : Char} (h : Xml.Denotes token c)
    (hlength : ¬ token.length ≤ 9) (rest : List Char) :
    decodeEntities (Xml.referenceText token ++ rest) =
      Xml.referenceText token ++ decodeEntities rest := by
  have hall := List.all_eq_true.mp (all_isReferenceChar_of_entityChar (entityChar_of_denotes h))
  have hnot : ∀ d, isReferenceChar d = false → d ∉ token := fun d hd hmem => by
    rw [hall d hmem] at hd
    cases hd
  have hsemi : '&' ∉ token ++ [';'] := by simp [hnot '&' (by decide)]
  have href : reference (token ++ ([';'] ++ rest)) = none := by
    rw [Option.eq_none_iff_forall_ne_some]
    rintro ⟨d, after⟩ href
    obtain ⟨token', heq, hlength', hchar⟩ := reference_eq_some_iff.mp href
    -- both tokens end at the first semicolon
    have hall' := List.all_eq_true.mp (all_isReferenceChar_of_entityChar hchar)
    obtain ⟨rfl, -⟩ := Text.append_cons_inj (p := fun d => isReferenceChar d = true) hall
      (by decide) hall' (by decide) heq
    exact hlength hlength'
  rw [Xml.referenceText, List.cons_append, List.append_assoc, decodeEntities_of_no_reference href,
    ← List.append_assoc, decodeEntities_append_of_not_mem hsemi, List.cons_append]

/-- **Plain content is decoded to its character data.** -/
theorem decodeEntities_textOf {nodes : List Node} (h : ∀ node ∈ nodes, PlainNode node) :
    decodeEntities (textOf nodes) = charData nodes := by
  induction nodes with
  | nil => rw [textOf, charData, decodeEntities.eq_1]
  | cons node nodes ih =>
      rw [List.forall_mem_cons] at h
      cases node with
      | chars text plain =>
          rw [textOf, charData, decodeEntities_append_of_not_mem plain.2, ih h.2]
      | reference token c denotes =>
          rw [textOf, charData, decodeEntities_reference denotes h.1, ih h.2]
      | _ => exact h.1.elim

/-- Plain content opens no tag. -/
theorem not_mem_textOf {nodes : List Node} (h : ∀ node ∈ nodes, PlainNode node) :
    '<' ∉ textOf nodes := by
  induction nodes with
  | nil => simp [textOf]
  | cons node nodes ih =>
      rw [List.forall_mem_cons] at h
      cases node with
      | chars text plain => simp [textOf, plain.1, ih h.2]
      | reference token c denotes => simp [textOf, denotes.not_mem, ih h.2]
      | _ => exact h.1.elim

/-! ### Other content -/

/-- No CDATA section of the content holds an ampersand. -/
def CdataPlain : List Node → Prop
  | [] => True
  | .cdata body _ :: rest => '&' ∉ body ∧ CdataPlain rest
  | .element _ children _ _ :: rest => CdataPlain children ∧ CdataPlain rest
  | .chars _ _ :: rest => CdataPlain rest
  | .reference _ _ _ :: rest => CdataPlain rest
  | .comment _ _ :: rest => CdataPlain rest
  | .instruction _ _ :: rest => CdataPlain rest
  | .empty _ :: rest => CdataPlain rest

/-- What stands between two texts without a character. -/
theorem not_mem_append_append {c : Char} {a b text : List Char} (ha : c ∉ a) (hb : c ∉ b)
    (h : c ∉ text) : c ∉ a ++ (text ++ b) := by
  simp [ha, hb, h]

theorem not_mem_cdataText {body : List Char} (h : '&' ∉ body) : '&' ∉ Xml.cdataText body :=
  not_mem_append_append (by decide +kernel) (by decide +kernel) h

/-- A text between two others, the second not empty. -/
theorem length_lt_append_append {a b : List Char} (hb : b ≠ []) (text : List Char) :
    text.length < (a ++ (text ++ b)).length := by
  have hpos := List.length_pos_of_ne_nil hb
  simp
  omega

theorem length_lt_cdataText (body : List Char) : body.length < (Xml.cdataText body).length :=
  length_lt_append_append (by decide +kernel) body

/-- What decoding makes of content before any text has at least its character data, and has more
where the content is not plain. -/
def Kept (nodes : List Node) : Prop :=
  ∀ rest, (charData nodes).length + (decodeEntities rest).length ≤
      (decodeEntities (textOf nodes ++ rest)).length ∧
    ((∃ node ∈ nodes, ¬ PlainNode node) →
      (charData nodes).length + (decodeEntities rest).length <
        (decodeEntities (textOf nodes ++ rest)).length)

section Kept

variable {nodes : List Node}

theorem Kept.of_lt (h : ∀ rest, (charData nodes).length + (decodeEntities rest).length <
    (decodeEntities (textOf nodes ++ rest)).length) : Kept nodes :=
  fun rest => ⟨(h rest).le, fun _ => h rest⟩

theorem Kept.chars {text : List Char} (plain : '<' ∉ text ∧ '&' ∉ text) (h : Kept nodes) :
    Kept (.chars text plain :: nodes) := by
  intro rest
  have hrest := h rest
  rw [textOf, charData, List.append_assoc, decodeEntities_append_of_not_mem plain.2,
    List.length_append, List.length_append]
  refine ⟨by omega, fun hnot => ?_⟩
  have hlt := hrest.2 (by simpa [PlainNode] using hnot)
  omega

theorem Kept.reference {token : List Char} {c : Char} (denotes : Xml.Denotes token c)
    (h : Kept nodes) : Kept (.reference token c denotes :: nodes) := by
  intro rest
  have hrest := h rest
  rw [textOf, charData, List.append_assoc, List.length_cons]
  by_cases hlength : token.length ≤ 9
  · rw [decodeEntities_reference denotes hlength, List.length_cons]
    refine ⟨by omega, fun hnot => ?_⟩
    have hlt := hrest.2 (by simpa [PlainNode, hlength] using hnot)
    omega
  · have htoken : 1 < (Xml.referenceText token).length := by
      simp [Xml.referenceText]
    rw [decodeEntities_long_reference denotes hlength, List.length_append]
    exact ⟨by omega, fun _ => by omega⟩

/-- Markup without character data. -/
theorem Kept.markup {node : Node} {text : List Char}
    (htext : textOf (node :: nodes) = text ++ '>' :: textOf nodes)
    (hdata : charData (node :: nodes) = charData nodes) (h : Kept nodes) : Kept (node :: nodes) := by
  refine .of_lt fun rest => ?_
  have hrest := (h rest).1
  have hend := decodeEntities_append_end text (textOf nodes ++ rest)
  rw [htext, hdata, List.append_assoc, List.cons_append]
  omega

theorem Kept.cdata {body : List Char} (closed : ¬ "]]>".toList <:+: body) (hbody : '&' ∉ body)
    (h : Kept nodes) : Kept (.cdata body closed :: nodes) := by
  refine .of_lt fun rest => ?_
  have hrest := (h rest).1
  have hkept := decodeEntities_append_of_not_mem (not_mem_cdataText hbody) (textOf nodes ++ rest)
  have hlength := length_lt_cdataText body
  rw [textOf, charData, List.append_assoc, hkept, List.length_append, List.length_append]
  omega

theorem Kept.element (tag : Xml.Tag) {children : List Node} {endSpace : List Char}
    (space : Xml.IsSpace endSpace) (hchildren : Kept children) (h : Kept nodes) :
    Kept (.element tag children endSpace space :: nodes) := by
  refine .of_lt fun rest => ?_
  have hrest := (h rest).1
  have hinner := (hchildren (tag.closing endSpace ++ (textOf nodes ++ rest))).1
  have hopening := decodeEntities_append_end ('<' :: (tag.name ++ tag.tail))
    (textOf children ++ (tag.closing endSpace ++ (textOf nodes ++ rest)))
  have hclosing := decodeEntities_append_end ('<' :: '/' :: (tag.name ++ endSpace))
    (textOf nodes ++ rest)
  have htext : textOf (.element tag children endSpace space :: nodes) ++ rest =
      '<' :: (tag.name ++ tag.tail) ++ '>' ::
        (textOf children ++ (tag.closing endSpace ++ (textOf nodes ++ rest))) := by
    simp [textOf, Xml.Tag.opening]
  have hend : '<' :: '/' :: (tag.name ++ endSpace) ++ '>' :: (textOf nodes ++ rest) =
      tag.closing endSpace ++ (textOf nodes ++ rest) := by
    simp [Xml.Tag.closing]
  rw [hend] at hclosing
  rw [htext, charData, List.length_append]
  omega

end Kept

/-- **Decoding loses no character data.** -/
theorem kept_of_cdataPlain {nodes : List Node} (h : CdataPlain nodes) : Kept nodes := by
  induction nodes using Xml.textOf.induct with
  | case1 => simp [Kept, textOf, charData]
  | case2 text plain nodes ih =>
      rw [CdataPlain] at h
      exact (ih h).chars plain
  | case3 token c denotes nodes ih =>
      rw [CdataPlain] at h
      exact (ih h).reference denotes
  | case4 body closed nodes ih =>
      rw [CdataPlain] at h
      have htext : textOf (.comment body closed :: nodes) =
          Xml.commentBody body ++ '>' :: textOf nodes := by
        rw [textOf, ← Xml.commentBody_append, List.append_assoc, List.singleton_append]
      exact (ih h).markup htext (by rw [charData])
  | case5 body closed nodes ih =>
      rw [CdataPlain] at h
      have htext : textOf (.instruction body closed :: nodes) =
          Xml.instructionBody body ++ '>' :: textOf nodes := by
        rw [textOf, ← Xml.instructionBody_append, List.append_assoc, List.singleton_append]
      exact (ih h).markup htext (by rw [charData])
  | case6 body closed nodes ih =>
      rw [CdataPlain] at h
      exact (ih h.2).cdata closed h.1
  | case7 tag children endSpace space nodes ihChildren ih =>
      rw [CdataPlain] at h
      exact (ihChildren h.1).element tag space (ih h.2)
  | case8 tag nodes ih =>
      rw [CdataPlain] at h
      have htext : textOf (.empty tag :: nodes) =
          '<' :: (tag.name ++ (tag.tail ++ ['/'])) ++ '>' :: textOf nodes := by
        simp [textOf, Xml.Tag.empty]
      exact (ih h).markup htext (by rw [charData])

/-- Content with text and a bracket before it is not decoded to its character data. -/
theorem decodeEntities_append_ne {nodes : List Node} (h : CdataPlain nodes) (text : List Char) :
    decodeEntities (text ++ '>' :: textOf nodes) ≠ charData nodes := by
  intro heq
  have hle := (kept_of_cdataPlain h []).1
  have hlt := decodeEntities_append_end text (textOf nodes)
  rw [List.append_nil] at hle
  rw [heq] at hlt
  omega

/-- **Content that is not plain is not decoded to its character data.** -/
theorem plain_of_decodeEntities {nodes : List Node} (h : CdataPlain nodes)
    (heq : decodeEntities (textOf nodes) = charData nodes) : ∀ node ∈ nodes, PlainNode node := by
  by_contra hnot
  push Not at hnot
  have hlt := (kept_of_cdataPlain h []).2 hnot
  rw [List.append_nil, heq] at hlt
  omega

end Extractor
