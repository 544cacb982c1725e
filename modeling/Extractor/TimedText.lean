import Mathlib.Data.Int.Notation
import Extractor.Html

/-!
# Timed text

`parse_timedtext` of `crates/youtube/src/timedtext.rs`: the XML scanner with its attribute lookup
and its entity decoder, the JSON3 events, and the segment and character budgets both share.

The JSON payload is decoded by `serde_json` and the seconds of the XML format are floating-point
numbers; both are part of the parameter `YoutubeLib`. Texts are lists of characters, so a byte
offset of the source is a position between two characters here.

## Main definitions

* `nextCaption`: the next `text` or `p` element of an XML payload.
* `decodeEntities`: the character references of a caption.
* `parseTimedtext`: the segments of a payload of either format.

## Main results

* `mem_decodeEntities_iff`: which characters decoding keeps and adds.
-/

namespace Extractor

/-- `Json3Event`; of a segment only its text is read. -/
structure Json3Event where
  tStartMs : Option ℤ
  dDurationMs : Option ℤ
  segs : Option (List (Option String))

/-- What the JSON, hash and contract crates and the floating-point arithmetic compute. -/
structure YoutubeLib where
  documents : DocumentLib
  /-- The events of `serde_json::from_str::<Json3Payload>`. -/
  json3 : List Char → Option (List Json3Event)
  /-- `seconds_to_millis`. -/
  secondsToMillis : List Char → Option ℕ
  /-- `LanguageTag::parse` accepts a text. -/
  languageIsValid : String → Bool

/-! ### Entities -/

/-- `char::is_ascii_hexdigit`. -/
def isHexDigit (c : Char) : Bool :=
  c.isDigit || (decide ('a' ≤ c) && decide (c ≤ 'f')) || (decide ('A' ≤ c) && decide (c ≤ 'F'))

/-- The value of a hexadecimal digit. -/
def hexDigitValue (c : Char) : ℕ :=
  if c.isDigit then c.toNat - 48 else if 'a' ≤ c then c.toNat - 87 else c.toNat - 55

/-- `u32::from_str_radix` with radix 16: digits, after an optional plus sign. -/
def parseHexU32 (text : List Char) : Option ℕ :=
  let digits := match text with
    | '+' :: rest => rest
    | _ => text
  let value := digits.foldl (fun n c => 16 * n + hexDigitValue c) 0
  if digits ≠ [] ∧ digits.all isHexDigit ∧ value < 2 ^ 32 then some value else none

/-- `char::from_u32`. -/
def charFromU32 (n : ℕ) : Option Char :=
  if n.isValidChar then some (Char.ofNat n) else none

/-- The character that a reference names. -/
def entityChar (token : List Char) : Option Char :=
  match token with
  | '#' :: 'x' :: digits => (parseHexU32 digits).bind charFromU32
  | '#' :: 'X' :: digits => (parseHexU32 digits).bind charFromU32
  | '#' :: digits => (Text.parseUnsigned (2 ^ 32) digits).bind charFromU32
  | _ =>
      if token = "amp".toList then some '&'
      else if token = "lt".toList then some '<'
      else if token = "gt".toList then some '>'
      else if token = "quot".toList then some '"'
      else if token = "apos".toList then some '\''
      else none

/-- The text up to the first semicolon whose byte offset is at most 10, and what follows it;
`offset` is that of the first character. -/
def referenceToken (offset : ℕ) : List Char → Option (List Char × List Char)
  | [] => none
  | c :: cs =>
      if 10 < offset then none
      else if c = ';' then some ([], cs)
      else (referenceToken (offset + c.utf8Size) cs).map fun r => (c :: r.1, r.2)

/-- The reference after an ampersand: its character, and what follows its semicolon. -/
def reference (after : List Char) : Option (Char × List Char) :=
  (referenceToken 1 after).bind fun r => (entityChar r.1).map fun c => (c, r.2)

theorem eq_append_of_referenceToken {offset : ℕ} {text token rest : List Char}
    (h : referenceToken offset text = some (token, rest)) : text = token ++ ';' :: rest := by
  induction text generalizing offset token with
  | nil => cases h
  | cons c cs ih =>
      rw [referenceToken] at h
      split at h
      · cases h
      · split at h
        · next hc =>
            obtain ⟨rfl, rfl⟩ := Prod.mk.inj (Option.some.inj h)
            rw [hc, List.nil_append]
        · obtain ⟨⟨token', rest'⟩, htoken, hcons⟩ := Option.map_eq_some_iff.mp h
          obtain ⟨rfl, rfl⟩ := Prod.mk.inj hcons
          rw [ih htoken, List.cons_append]

theorem reference_eq_some {after rest : List Char} {c : Char}
    (h : reference after = some (c, rest)) :
    ∃ token, referenceToken 1 after = some (token, rest) ∧ entityChar token = some c := by
  obtain ⟨⟨token, rest'⟩, htoken, hc⟩ := Option.bind_eq_some_iff.mp h
  obtain ⟨c', hc', hpair⟩ := Option.map_eq_some_iff.mp hc
  obtain ⟨rfl, rfl⟩ := Prod.mk.inj hpair
  exact ⟨token, htoken, hc'⟩

theorem length_lt_of_reference {after rest : List Char} {c : Char}
    (h : reference after = some (c, rest)) : rest.length < after.length := by
  obtain ⟨token, htoken, -⟩ := reference_eq_some h
  rw [eq_append_of_referenceToken htoken, List.length_append, List.length_cons]
  omega

/-- `decode_entities`: an ampersand that begins no reference passes through. -/
def decodeEntities (input : List Char) : List Char :=
  match input with
  | [] => []
  | c :: cs =>
      if c = '&' then
        match h : reference cs with
        | some (replacement, rest) =>
            have := length_lt_of_reference h
            replacement :: decodeEntities rest
        | none => '&' :: decodeEntities cs
      else c :: decodeEntities cs
termination_by input.length
decreasing_by all_goals simp only [List.length_cons]; omega

/-! ### What decoding adds -/

theorem decodeEntities_cons_of_ne {c : Char} {cs : List Char} (h : c ≠ '&') :
    decodeEntities (c :: cs) = c :: decodeEntities cs := by
  rw [decodeEntities, if_neg h]

theorem decodeEntities_of_reference {c : Char} {cs rest : List Char}
    (h : reference cs = some (c, rest)) :
    decodeEntities ('&' :: cs) = c :: decodeEntities rest := by
  rw [decodeEntities, if_pos rfl]
  split
  · next heq =>
      rw [h] at heq
      cases heq
      rfl
  · next heq =>
      rw [h] at heq
      cases heq

theorem decodeEntities_of_no_reference {cs : List Char} (h : reference cs = none) :
    decodeEntities ('&' :: cs) = '&' :: decodeEntities cs := by
  rw [decodeEntities, if_pos rfl]
  split
  · next heq =>
      rw [h] at heq
      cases heq
  · rfl

/-- The characters of a reference that is recognized. -/
def isReferenceChar (c : Char) : Bool :=
  c.isAlphanum || c == '#' || c == '+'

theorem isReferenceChar_of_isDigit {c : Char} (h : c.isDigit = true) :
    isReferenceChar c = true := by
  rw [isReferenceChar, Char.isAlphanum, h, Bool.or_true]
  rfl

theorem isReferenceChar_of_isHexDigit {c : Char} (h : isHexDigit c = true) :
    isReferenceChar c = true := by
  rw [isHexDigit, Bool.or_eq_true, Bool.or_eq_true] at h
  rcases h with (hdigit | hlower) | hupper
  · exact isReferenceChar_of_isDigit hdigit
  · rw [Bool.and_eq_true, decide_eq_true_eq, decide_eq_true_eq] at hlower
    have h₁ : 97 ≤ c.toNat := UInt32.le_iff_toNat_le.mp hlower.1
    have h₂ : c.toNat ≤ 102 := UInt32.le_iff_toNat_le.mp hlower.2
    have halpha : c.isAlpha = true := (Text.isAlpha_iff c).mpr (Or.inr ⟨h₁, by omega⟩)
    simp [isReferenceChar, Char.isAlphanum, halpha]
  · rw [Bool.and_eq_true, decide_eq_true_eq, decide_eq_true_eq] at hupper
    have h₁ : 65 ≤ c.toNat := UInt32.le_iff_toNat_le.mp hupper.1
    have h₂ : c.toNat ≤ 70 := UInt32.le_iff_toNat_le.mp hupper.2
    have halpha : c.isAlpha = true := (Text.isAlpha_iff c).mpr (Or.inl ⟨h₁, by omega⟩)
    simp [isReferenceChar, Char.isAlphanum, halpha]

theorem all_isReferenceChar_of_plus {p : Char → Bool} {text : List Char}
    (hp : ∀ c, p c = true → isReferenceChar c = true)
    (h : (match text with
      | '+' :: rest => rest
      | _ => text).all p = true) : text.all isReferenceChar = true := by
  split at h
  · next rest =>
      rw [List.all_cons, Bool.and_eq_true]
      exact ⟨rfl, List.all_eq_true.mpr fun c hc => hp c (List.all_eq_true.mp h c hc)⟩
  · exact List.all_eq_true.mpr fun c hc => hp c (List.all_eq_true.mp h c hc)

theorem all_isReferenceChar_of_parseHexU32 {text : List Char} {n : ℕ}
    (h : parseHexU32 text = some n) : text.all isReferenceChar = true := by
  obtain ⟨⟨-, hdigits, -⟩, -⟩ := Option.ite_none_right_eq_some.mp h
  exact all_isReferenceChar_of_plus (fun _ => isReferenceChar_of_isHexDigit) hdigits

theorem all_isReferenceChar_of_parseUnsigned {bound n : ℕ} {text : List Char}
    (h : Text.parseUnsigned bound text = some n) : text.all isReferenceChar = true := by
  obtain ⟨⟨-, hdigits, -⟩, -⟩ := Option.ite_none_right_eq_some.mp h
  exact all_isReferenceChar_of_plus (fun _ => isReferenceChar_of_isDigit) hdigits

/-- Every character of a recognized reference is a letter, a digit, a hash or a plus sign. -/
theorem all_isReferenceChar_of_entityChar {token : List Char} {c : Char}
    (h : entityChar token = some c) : token.all isReferenceChar = true := by
  rw [entityChar.eq_def] at h
  split at h
  · next digits =>
      obtain ⟨n, hn, -⟩ := Option.bind_eq_some_iff.mp h
      have hdigits := all_isReferenceChar_of_parseHexU32 hn
      rw [List.all_cons, List.all_cons, hdigits]
      decide
  · next digits =>
      obtain ⟨n, hn, -⟩ := Option.bind_eq_some_iff.mp h
      have hdigits := all_isReferenceChar_of_parseHexU32 hn
      rw [List.all_cons, List.all_cons, hdigits]
      decide
  · next digits =>
      obtain ⟨n, hn, -⟩ := Option.bind_eq_some_iff.mp h
      have hdigits := all_isReferenceChar_of_parseUnsigned hn
      rw [List.all_cons, hdigits]
      decide
  · split at h
    · next htoken => rw [htoken]; decide
    · split at h
      · next htoken => rw [htoken]; decide
      · split at h
        · next htoken => rw [htoken]; decide
        · split at h
          · next htoken => rw [htoken]; decide
          · split at h
            · next htoken => rw [htoken]; decide
            · cases h

/-- A text that holds a reference to a character. -/
def Names (c : Char) (text : List Char) : Prop :=
  ∃ pre token post, text = pre ++ '&' :: (token ++ ';' :: post) ∧ token.length ≤ 9 ∧
    entityChar token = some c

theorem utf8Size_of_isReferenceChar {c : Char} (h : isReferenceChar c = true) :
    c.utf8Size = 1 := by
  have hval : c.toNat ≤ 127 := by
    simp only [isReferenceChar, Char.isAlphanum, Text.isAlpha_iff, Char.isDigit,
      Bool.or_eq_true, Bool.and_eq_true, decide_eq_true_eq, beq_iff_eq] at h
    rcases h with ((h | h) | rfl) | rfl
    · omega
    · exact Nat.le_trans (UInt32.le_iff_toNat_le.mp h.2) (by decide)
    · decide
    · decide
  rw [Char.utf8Size_eq_one_iff]
  exact UInt32.le_iff_toNat_le.mpr hval

theorem referenceToken_append {token post : List Char} (hall : token.all isReferenceChar = true)
    {offset : ℕ} (hoffset : offset + token.length ≤ 10) :
    referenceToken offset (token ++ ';' :: post) = some (token, post) := by
  induction token generalizing offset with
  | nil =>
      rw [List.length_nil] at hoffset
      rw [List.nil_append, referenceToken, if_neg (by omega), if_pos rfl]
  | cons c cs ih =>
      rw [List.all_cons, Bool.and_eq_true] at hall
      rw [List.length_cons] at hoffset
      have hne : c ≠ ';' := by
        rintro rfl
        exact absurd hall.1 (by decide)
      rw [List.cons_append, referenceToken, if_neg (by omega), if_neg hne,
        utf8Size_of_isReferenceChar hall.1, ih hall.2 (by omega)]
      rfl

theorem length_le_of_referenceToken {offset : ℕ} {text token rest : List Char}
    (h : referenceToken offset text = some (token, rest)) : offset + token.length ≤ 10 := by
  induction text generalizing offset token with
  | nil => cases h
  | cons c cs ih =>
      rw [referenceToken] at h
      split at h
      · cases h
      · split at h
        · obtain ⟨rfl, -⟩ := Prod.mk.inj (Option.some.inj h)
          rw [List.length_nil]
          omega
        · obtain ⟨⟨token', rest'⟩, htoken, hcons⟩ := Option.map_eq_some_iff.mp h
          obtain ⟨rfl, rfl⟩ := Prod.mk.inj hcons
          have hle := ih htoken
          have hpos : 0 < c.utf8Size := Char.utf8Size_pos c
          have hlength : (c :: token').length = token'.length + 1 := List.length_cons
          change offset + (c :: token').length ≤ 10
          omega

/-- A reference is what stands before a semicolon at most nine characters away. -/
theorem reference_eq_some_iff {after rest : List Char} {c : Char} :
    reference after = some (c, rest) ↔
      ∃ token, after = token ++ ';' :: rest ∧ token.length ≤ 9 ∧ entityChar token = some c := by
  constructor
  · intro h
    obtain ⟨token, htoken, hc⟩ := reference_eq_some h
    have hlength := length_le_of_referenceToken htoken
    exact ⟨token, eq_append_of_referenceToken htoken, by omega, hc⟩
  · rintro ⟨token, rfl, hlength, hc⟩
    have hall := all_isReferenceChar_of_entityChar hc
    rw [reference, referenceToken_append hall (by omega), Option.bind_some, hc]
    rfl

theorem names_cons_iff_of_ne {c d : Char} {cs : List Char} (h : d ≠ '&') :
    Names c (d :: cs) ↔ Names c cs := by
  constructor
  · rintro ⟨pre, token, post, heq, hnames⟩
    cases pre with
    | nil =>
        cases heq
        exact absurd rfl h
    | cons d' pre =>
        cases heq
        exact ⟨pre, token, post, rfl, hnames⟩
  · rintro ⟨pre, token, post, rfl, hnames⟩
    exact ⟨d :: pre, token, post, rfl, hnames⟩

theorem names_append_iff {c : Char} {text rest : List Char} (h : '&' ∉ text) :
    Names c (text ++ rest) ↔ Names c rest := by
  induction text with
  | nil => rfl
  | cons d text ih =>
      rw [List.mem_cons, not_or] at h
      rw [List.cons_append, names_cons_iff_of_ne (Ne.symm h.1), ih h.2]

theorem names_amp_iff {c : Char} {cs : List Char} :
    Names c ('&' :: cs) ↔ (∃ rest, reference cs = some (c, rest)) ∨ Names c cs := by
  constructor
  · rintro ⟨pre, token, post, heq, hlength, htoken⟩
    cases pre with
    | nil =>
        cases heq
        exact Or.inl ⟨post, reference_eq_some_iff.mpr ⟨token, rfl, hlength, htoken⟩⟩
    | cons d pre =>
        cases heq
        exact Or.inr ⟨pre, token, post, rfl, hlength, htoken⟩
  · rintro (⟨rest, h⟩ | ⟨pre, token, post, rfl, hnames⟩)
    · obtain ⟨token, rfl, hlength, hc⟩ := reference_eq_some_iff.mp h
      exact ⟨[], token, rest, rfl, hlength, hc⟩
    · exact ⟨'&' :: pre, token, post, rfl, hnames⟩

/-- A character that no recognized reference is written with is dropped from no text and added
only for a reference to it. -/
theorem mem_decodeEntities_iff {c : Char} (hc : isReferenceChar c = false) (hamp : c ≠ '&')
    (hsemi : c ≠ ';') (input : List Char) :
    c ∈ decodeEntities input ↔ c ∈ input ∨ Names c input := by
  induction input using decodeEntities.induct with
  | case1 =>
      rw [decodeEntities]
      refine ⟨fun h => (by cases h), ?_⟩
      rintro (h | ⟨pre, token, post, h, -⟩)
      · cases h
      · cases pre <;> cases h
  | case2 cs replacement rest href hlength ih =>
      -- the token has neither the character nor an ampersand, so nothing is lost with it
      obtain ⟨token, hcs, -, hchar⟩ := reference_eq_some_iff.mp href
      have hall := List.all_eq_true.mp (all_isReferenceChar_of_entityChar hchar)
      have hnot : ∀ d, isReferenceChar d = false → d ≠ ';' → d ∉ token ++ [';'] := by
        intro d hd hne hmem
        rcases List.mem_append.mp hmem with hmem | hmem
        · rw [hall d hmem] at hd
          cases hd
        · exact hne (List.mem_singleton.mp hmem)
      have hsplit : cs = (token ++ [';']) ++ rest := by
        rw [hcs, List.append_assoc, List.singleton_append]
      have hmem : c ∈ cs ↔ c ∈ rest := by
        rw [hsplit, List.mem_append]
        exact ⟨fun h => h.resolve_left (hnot c hc hsemi), Or.inr⟩
      have hnames : Names c cs ↔ Names c rest := by
        rw [hsplit]
        exact names_append_iff (hnot '&' (by decide) (by decide))
      have hreference : (∃ rest, reference cs = some (c, rest)) ↔ c = replacement := by
        rw [href]
        constructor
        · rintro ⟨rest', h⟩
          cases h
          rfl
        · rintro rfl
          exact ⟨rest, rfl⟩
      rw [decodeEntities_of_reference href, List.mem_cons, ih, names_amp_iff, hreference, hnames,
        List.mem_cons, hmem]
      simp only [hamp, false_or]
      exact or_left_comm
  | case3 cs href ih =>
      have hreference : ¬ ∃ rest, reference cs = some (c, rest) := by
        rintro ⟨rest, h⟩
        rw [href] at h
        cases h
      rw [decodeEntities_of_no_reference href, List.mem_cons, ih, names_amp_iff, List.mem_cons]
      simp only [hreference, false_or, or_assoc]
  | case4 d cs hd ih =>
      rw [decodeEntities_cons_of_ne hd, List.mem_cons, ih, names_cons_iff_of_ne hd,
        List.mem_cons, or_assoc]

/-! ### Captions -/

/-- A caption as the scanner cuts it: its attributes, its raw text, and what follows it. -/
structure Caption where
  attributes : List Char
  rawText : List Char
  next : List Char

/-- `NAMES`. -/
def captionNames : List (List Char) := ["text".toList, "p".toList]

/-- The caption that begins after an opening bracket, none if the element has another name. -/
def captionAt (afterOpen : List Char) : Except YoutubeError (Option Caption) :=
  let name := Text.before [' ', '>'] afterOpen
  let fromName := afterOpen.drop name.length
  if fromName = [] then .error .schema
  else if captionNames.contains name then do
    let (attributes, bodyRest) ← okOr (Text.splitOnce ['>'] fromName) YoutubeError.schema
    let (rawText, next) ← okOr (Text.splitOnce ("</".toList ++ name ++ ['>']) bodyRest)
      YoutubeError.schema
    return some ⟨attributes, rawText, next⟩
  else .ok none

/-- The next caption of `xml_segments`: the scan for an opening bracket goes on after the bracket
of an element of another name. -/
def nextCaption : List Char → Except YoutubeError (Option Caption)
  | [] => .ok none
  | c :: cs =>
      if c = '<' then
        match captionAt cs with
        | .error e => .error e
        | .ok (some caption) => .ok (some caption)
        | .ok none => nextCaption cs
      else nextCaption cs

theorem length_next_lt_of_captionAt {afterOpen : List Char} {caption : Caption}
    (h : captionAt afterOpen = .ok (some caption)) :
    caption.next.length < afterOpen.length := by
  simp only [captionAt] at h
  split at h
  · cases h
  · split at h
    · obtain ⟨⟨attributes, bodyRest⟩, hattributes, h⟩ := Except.bind_eq_ok_iff.mp h
      obtain ⟨⟨rawText, next⟩, hbody, h⟩ := Except.bind_eq_ok_iff.mp h
      cases h
      have h₁ : bodyRest.length < _ := Text.length_lt_of_splitOnce (List.cons_ne_nil _ _)
        (Except.okOr_eq_ok_iff.mp hattributes)
      have h₂ : next.length < bodyRest.length := Text.length_lt_of_splitOnce
        (List.append_ne_nil_of_right_ne_nil _ (List.cons_ne_nil _ _))
        (Except.okOr_eq_ok_iff.mp hbody)
      rw [List.length_drop] at h₁
      exact Nat.lt_of_lt_of_le (Nat.lt_trans h₂ h₁) (Nat.sub_le _ _)
    · cases h

/-- A caption ends before what follows it. -/
theorem length_next_lt {cursor : List Char} {caption : Caption}
    (h : nextCaption cursor = .ok (some caption)) : caption.next.length < cursor.length := by
  induction cursor with
  | nil => cases h
  | cons c cs ih =>
      have hlength : (c :: cs).length = cs.length + 1 := List.length_cons
      rw [nextCaption] at h
      split at h
      · split at h
        · cases h
        · next hcaption =>
            cases h
            have := length_next_lt_of_captionAt hcaption
            omega
        · have := ih h
          omega
      · have := ih h
        omega

/-- `attribute_value`: the value of the first attribute whose name ends in `name`. -/
def attributeValue (name search : List Char) : Option (List Char) :=
  match h : Text.splitOnce ['='] search with
  | none => none
  | some (key, afterEquals) =>
      have := Text.length_lt_of_splitOnce (List.cons_ne_nil _ _) h
      match afterEquals with
      | '"' :: quoted =>
          match hclose : Text.splitOnce ['"'] quoted with
          | none => none
          | some (value, next) =>
              have := Text.length_lt_of_splitOnce (List.cons_ne_nil _ _) hclose
              if name.isSuffixOf (Text.trim key) then some value else attributeValue name next
      | _ => none
termination_by search.length
decreasing_by simp_all only [List.length_cons]; omega

section Parsers

variable (lib : YoutubeLib) (limits : YoutubeLimits)

/-- `timing_from_attributes`. -/
def timingFromAttributes (attributes : List Char) : Except YoutubeError (ℕ × ℕ) :=
  match attributeValue "start".toList attributes, attributeValue "dur".toList attributes with
  | some start, some dur => do
      let start ← okOr (lib.secondsToMillis start) YoutubeError.schema
      let dur ← okOr (lib.secondsToMillis dur) YoutubeError.schema
      return (start, dur)
  | _, _ =>
      match attributeValue "t".toList attributes, attributeValue "d".toList attributes with
      | some tick, some span => do
          let start ← okOr (Text.parseUnsigned (2 ^ 64) (Text.trim tick)) YoutubeError.schema
          let dur ← okOr (Text.parseUnsigned (2 ^ 64) (Text.trim span)) YoutubeError.schema
          return (start, dur)
      | _, _ => .error .schema

/-- `collect_segment`. -/
def collectSegment (timing : ℕ × ℕ) (text : List Char) (segments : List Segment) :
    Except YoutubeError (List Segment) := do
  require (text.length ≤ limits.maxSegmentCharacters) YoutubeError.resourceLimit
  require (segments.length < limits.maxSegments) YoutubeError.resourceLimit
  return segments ++ [⟨timing.1, timing.2, String.ofList text⟩]

/-- The loop of `xml_segments`. -/
def xmlSegments (cursor : List Char) (segments : List Segment) :
    Except YoutubeError (List Segment) :=
  match h : nextCaption cursor with
  | .error e => .error e
  | .ok none => .ok segments
  | .ok (some caption) => do
      have := length_next_lt h
      let timing ← timingFromAttributes lib caption.attributes
      let segments ← collectSegment limits timing (decodeEntities caption.rawText) segments
      xmlSegments caption.next segments
termination_by cursor.length

variable {lib limits} {cursor : List Char} {segments : List Segment}

/-- The scan stops at an error. -/
theorem xmlSegments_of_error {e : YoutubeError} (h : nextCaption cursor = .error e) :
    xmlSegments lib limits cursor segments = .error e := by
  rw [xmlSegments]
  split
  · next heq =>
      rw [h] at heq
      cases heq
      rfl
  · next heq =>
      rw [h] at heq
      cases heq
  · next heq =>
      rw [h] at heq
      cases heq

/-- The scan ends after the last caption. -/
theorem xmlSegments_of_none (h : nextCaption cursor = .ok none) :
    xmlSegments lib limits cursor segments = .ok segments := by
  rw [xmlSegments]
  split
  · next heq =>
      rw [h] at heq
      cases heq
  · rfl
  · next heq =>
      rw [h] at heq
      cases heq

/-- One caption of the scan. -/
theorem xmlSegments_of_some {caption : Caption} (h : nextCaption cursor = .ok (some caption)) :
    xmlSegments lib limits cursor segments = (do
      let timing ← timingFromAttributes lib caption.attributes
      let segments ← collectSegment limits timing (decodeEntities caption.rawText) segments
      xmlSegments lib limits caption.next segments) := by
  rw [xmlSegments]
  split
  · next heq =>
      rw [h] at heq
      cases heq
  · next heq =>
      rw [h] at heq
      cases heq
  · next heq =>
      rw [h] at heq
      cases heq
      rfl

variable (lib limits)

/-- `non_negative`. -/
def nonNegative (value : Option ℤ) : Except YoutubeError ℕ :=
  if value.getD 0 < 0 then .error .schema else .ok (value.getD 0).toNat

/-- The loop of `json3_segments`; an event without segments is passed over. -/
def json3Events : List Json3Event → List Segment → Except YoutubeError (List Segment)
  | [], segments => .ok segments
  | event :: rest, segments => do
      let start ← nonNegative event.tStartMs
      let duration ← nonNegative event.dDurationMs
      let segments ← match event.segs with
        | none => .ok segments
        | some parts =>
            collectSegment limits (start, duration) (parts.flatMap fun part =>
              (part.map String.toList).getD []) segments
      json3Events rest segments

/-- `json3_segments`. -/
def json3Segments (payload : List Char) : Except YoutubeError (List Segment) := do
  let events ← okOr (lib.json3 payload) YoutubeError.schema
  json3Events limits events []

/-- `std::str::from_utf8`. -/
def fromUtf8 (bytes : List UInt8) : Option String :=
  String.fromUTF8? ⟨bytes.toArray⟩

/-- `parse_timedtext`. -/
def parseTimedtext (bytes : List UInt8) : Except YoutubeError (List Segment) := do
  require (bytes.length ≤ limits.maxTrackBytes) YoutubeError.resourceLimit
  let payload ← okOr (fromUtf8 bytes) YoutubeError.schema
  let trimmed := payload.toList.dropWhile Text.isWhitespace
  let segments ← match trimmed.head? with
    | some '<' => xmlSegments lib limits trimmed []
    | some '\x7b' => json3Segments lib limits trimmed
    | _ => .error .schema
  require (segments ≠ []) YoutubeError.schema
  return segments

end Parsers

end Extractor
