import Extractor.ContentTexts

/-!
# The two timed-text formats

A list of segments written as an XML track with times in ticks, and as a JSON3 track, and what
`parse_timedtext` reads from either. In the XML track every `p` element stands inside elements of
other names, and the five characters of markup are written as references. In the JSON3 track there
is one event for each segment, its text split into any number of parts.

## Main results

* `decodeEntities_escape`: decoding undoes escaping, whatever the text.
* `nextCaption_element`: the scanner cuts a caption exactly.
* `timedtext_formats_agree`: both tracks are read as the segments they were written from.
-/

namespace Extractor

/-! ### Writing -/

/-- The characters of markup. -/
def markupChars : List Char := ['&', '<', '>', '"', '\'']

/-- A choice of references for the characters of markup, within the decoder's look-ahead. -/
structure Escaping where
  token : Char → List Char
  names : ∀ c ∈ markupChars, entityChar (token c) = some c
  short : ∀ c ∈ markupChars, (token c).length ≤ 9

/-- The named reference of a character of markup. -/
def namedToken : Char → List Char
  | '&' => "amp".toList
  | '<' => "lt".toList
  | '>' => "gt".toList
  | '"' => "quot".toList
  | _ => "apos".toList

/-- The five named references. -/
def Escaping.named : Escaping where
  token := namedToken
  names := Text.forall_mem_of_all (by decide)
  short := Text.forall_mem_of_all (by decide)

/-- A character as it is written in a caption. -/
def Escaping.escapeChar (e : Escaping) (c : Char) : List Char :=
  if c ∈ markupChars then '&' :: (e.token c ++ [';']) else [c]

/-- A text as it is written in a caption. -/
def Escaping.escape (e : Escaping) (text : List Char) : List Char :=
  text.flatMap e.escapeChar

/-- A tag that opens or closes no caption. -/
structure OtherTag where
  name : List Char
  attributes : List Char
  other : name ∉ captionNames
  plain : ∀ c ∈ name, c ∉ [' ', '>', '<']
  spaced : attributes = [] ∨ ∃ rest, attributes = ' ' :: rest
  closed : '<' ∉ attributes

/-- A tag as it is written. -/
def OtherTag.text (tag : OtherTag) : List Char :=
  '<' :: (tag.name ++ (tag.attributes ++ ['>']))

/-- The tag that closes an element. -/
def OtherTag.closing (tag : OtherTag) : OtherTag where
  name := '/' :: tag.name
  attributes := []
  other h := by
    rcases List.mem_cons.mp h with heq | h
    · exact absurd (List.cons.inj heq).1 (by decide)
    · exact absurd (List.cons.inj (List.mem_singleton.mp h)).1 (by decide)
  plain c h := by
    rcases List.mem_cons.mp h with rfl | h
    · decide
    · exact tag.plain c h
  spaced := Or.inl rfl
  closed := List.not_mem_nil

/-- The times of a segment, in ticks. -/
def tickAttributes (s : Segment) : List Char :=
  " t=\"".toList ++ (Nat.toDigits 10 s.startMs ++ ("\" d=\"".toList ++
    (Nat.toDigits 10 s.durationMs ++ ['"'])))

/-- A segment as a `p` element. -/
def captionElement (e : Escaping) (s : Segment) : List Char :=
  '<' :: 'p' :: (tickAttributes s ++ ('>' :: (e.escape s.text.toList ++ "</p>".toList)))

/-- The XML track of segments, inside elements of other names. -/
def xmlTrack (e : Escaping) (wrappers : List OtherTag) (segments : List Segment) : String :=
  String.ofList (wrappers.flatMap OtherTag.text ++ (segments.flatMap (captionElement e) ++
    (wrappers.reverse.map OtherTag.closing).flatMap OtherTag.text))

/-- A character of a JSON string. -/
def jsonChar (c : Char) : List Char :=
  if c = '"' then "\\\"".toList
  else if c = '\\' then "\\\\".toList
  else if c = '\x08' then "\\b".toList
  else if c = '\x0c' then "\\f".toList
  else if c = '\n' then "\\n".toList
  else if c = '\r' then "\\r".toList
  else if c = '\t' then "\\t".toList
  else if c.toNat < 32 then
    "\\u00".toList ++ [Nat.digitChar (c.toNat / 16), Nat.digitChar (c.toNat % 16)]
  else [c]

/-- A JSON string. -/
def jsonString (text : String) : List Char :=
  '"' :: (text.toList.flatMap jsonChar ++ ['"'])

/-- One part of a text as a JSON3 segment. -/
def json3Part (part : String) : List Char :=
  "\x7b\"utf8\":".toList ++ (jsonString part ++ ['\x7d'])

/-- A segment as a JSON3 event; its text is split into parts. -/
def json3Element (s : Segment) (parts : List String) : List Char :=
  "\x7b\"tStartMs\":".toList ++ (Nat.toDigits 10 s.startMs ++ (",\"dDurationMs\":".toList ++
    (Nat.toDigits 10 s.durationMs ++ (",\"segs\":[".toList ++
      (List.intercalate [','] (parts.map json3Part) ++ "]\x7d".toList)))))

/-- The JSON3 track of segments, whose texts are split into parts. -/
def json3Track (segments : List Segment) (splits : List (List String)) : String :=
  String.ofList ("\x7b\"events\":[".toList ++
    (List.intercalate [','] (List.zipWith json3Element segments splits) ++ "]\x7d".toList))

/-- What the JSON3 track of segments means. -/
def trackEvents (segments : List Segment) (splits : List (List String)) : List Json3Event :=
  List.zipWith (fun s parts => ⟨some s.startMs, some s.durationMs, some (parts.map some)⟩)
    segments splits

/-! ### References -/

variable {e : Escaping}

theorem reference_token {c : Char} (h : c ∈ markupChars) (rest : List Char) :
    reference (e.token c ++ ';' :: rest) = some (c, rest) :=
  reference_eq_some_iff.mpr ⟨e.token c, rfl, e.short c h, e.names c h⟩

/-- One character. -/
theorem decodeEntities_escapeChar (c : Char) (rest : List Char) :
    decodeEntities (e.escapeChar c ++ rest) = c :: decodeEntities rest := by
  by_cases h : c ∈ markupChars
  · rw [Escaping.escapeChar, if_pos h, List.cons_append, List.append_assoc, List.singleton_append]
    exact decodeEntities_of_reference (reference_token h rest)
  · rw [Escaping.escapeChar, if_neg h]
    refine decodeEntities_cons_of_ne ?_
    rintro rfl
    exact h (by decide)

/-- **Decoding undoes escaping.** -/
theorem decodeEntities_escape (text : List Char) : decodeEntities (e.escape text) = text := by
  induction text with
  | nil => exact decodeEntities.eq_1
  | cons c text ih =>
      have hcons : e.escape (c :: text) = e.escapeChar c ++ e.escape text := rfl
      rw [hcons, decodeEntities_escapeChar, ih]

/-- No escaped text opens a tag. -/
theorem not_mem_escape (text : List Char) : '<' ∉ e.escape text := by
  intro h
  obtain ⟨c, -, hc⟩ := List.mem_flatMap.mp h
  by_cases hmarkup : c ∈ markupChars
  · rw [Escaping.escapeChar, if_pos hmarkup] at hc
    have hall := all_isReferenceChar_of_entityChar (e.names c hmarkup)
    rcases List.mem_cons.mp hc with heq | hc
    · cases heq
    · rcases List.mem_append.mp hc with htoken | hsemi
      · have htrue := List.all_eq_true.mp hall '<' htoken
        cases htrue
      · cases List.mem_singleton.mp hsemi
  · rw [Escaping.escapeChar, if_neg hmarkup, List.mem_singleton] at hc
    exact hmarkup (hc ▸ by decide)

/-! ### Tags -/

/-- Text without an opening bracket is passed over. -/
theorem nextCaption_append {text : List Char} (h : '<' ∉ text) (rest : List Char) :
    nextCaption (text ++ rest) = nextCaption rest := by
  induction text with
  | nil => rfl
  | cons c text ih =>
      rw [List.mem_cons, not_or] at h
      rw [List.cons_append, nextCaption, if_neg (Ne.symm h.1), ih h.2]

/-- The name of a tag ends at a space or at the end of the tag. -/
theorem before_name {name attributes : List Char} (hname : ∀ c ∈ name, c ∉ [' ', '>'])
    (hattributes : attributes = [] ∨ ∃ rest, attributes = ' ' :: rest) (rest : List Char) :
    Text.before [' ', '>'] (name ++ (attributes ++ '>' :: rest)) = name := by
  rcases hattributes with rfl | ⟨more, rfl⟩
  · exact Text.before_append hname (by decide) rest
  · exact Text.before_append hname (by decide) (more ++ '>' :: rest)

/-- A tag of another name is passed over. -/
theorem nextCaption_otherTag (tag : OtherTag) (rest : List Char) :
    nextCaption (tag.text ++ rest) = nextCaption rest := by
  have hplain : ∀ c ∈ tag.name, c ∉ [' ', '>'] := fun c hc hstop => by
    refine tag.plain c hc ?_
    rcases List.mem_cons.mp hstop with rfl | hstop
    · decide
    · rw [List.mem_singleton.mp hstop]
      decide
  have htext : tag.text ++ rest = '<' :: (tag.name ++ (tag.attributes ++ '>' :: rest)) := by
    simp [OtherTag.text]
  have hopen : '<' ∉ tag.name ++ (tag.attributes ++ ['>']) := by
    intro h
    rcases List.mem_append.mp h with hname | h
    · exact tag.plain '<' hname (by decide)
    · rcases List.mem_append.mp h with hattributes | hclose
      · exact tag.closed hattributes
      · cases List.mem_singleton.mp hclose
  have hname : captionNames.contains tag.name = false := by
    rw [Bool.eq_false_iff, ne_eq, List.contains_iff_mem]
    exact tag.other
  have hcaption : captionAt (tag.name ++ (tag.attributes ++ '>' :: rest)) = .ok none := by
    have hrest : tag.attributes ++ '>' :: rest ≠ [] :=
      List.append_ne_nil_of_right_ne_nil _ (List.cons_ne_nil _ _)
    rw [captionAt]
    dsimp only
    rw [before_name hplain tag.spaced, List.drop_left, if_neg hrest, hname,
      if_neg Bool.false_ne_true]
  rw [htext, nextCaption, if_pos rfl, hcaption]
  dsimp only
  rw [← nextCaption_append hopen rest, List.append_assoc, List.append_assoc]
  rfl

/-! ### Captions -/

/-- A caption by its name, up to the first closing tag of the name. -/
theorem captionAt_eq_ok_iff {name attributes : List Char} (hname : name ∈ captionNames)
    (hspaced : attributes = [] ∨ ∃ rest, attributes = ' ' :: rest) (hplain : '>' ∉ attributes)
    (body : List Char) (next : Option Caption) :
    captionAt (name ++ (attributes ++ '>' :: body)) = .ok next ↔
      ∃ rawText behind, Text.splitOnce ("</".toList ++ name ++ ['>']) body =
        some (rawText, behind) ∧ next = some ⟨attributes, rawText, behind⟩ := by
  have hstops : ∀ name ∈ captionNames, (name.all fun c => c ∉ [' ', '>']) = true := by decide
  have hbody : attributes ++ '>' :: body ≠ [] :=
    List.append_ne_nil_of_right_ne_nil _ (List.cons_ne_nil _ _)
  have hend := Text.splitOnce_append hplain [] body
  rw [captionAt]
  dsimp only
  rw [before_name (Text.forall_mem_of_all (hstops name hname)) hspaced, List.drop_left, if_neg hbody,
    if_pos (List.contains_iff_mem.mpr hname)]
  constructor
  · intro h
    obtain ⟨⟨attributes', body'⟩, hattributes, h⟩ := Except.bind_eq_ok_iff.mp h
    obtain ⟨rfl, rfl⟩ := Prod.mk.inj
      (Option.some.inj (hend.symm.trans (Except.okOr_eq_ok_iff.mp hattributes)))
    obtain ⟨⟨rawText, behind⟩, hclose, h⟩ := Except.bind_eq_ok_iff.mp h
    exact ⟨rawText, behind, Except.okOr_eq_ok_iff.mp hclose, (Except.ok.inj h).symm⟩
  · rintro ⟨rawText, behind, hclose, rfl⟩
    exact Except.bind_eq_ok_iff.mpr ⟨_, Except.okOr_eq_ok_iff.mpr hend,
      Except.bind_eq_ok_iff.mpr ⟨_, Except.okOr_eq_ok_iff.mpr hclose, rfl⟩⟩

/-- The scan stops where a caption begins, whether it ends or not. -/
theorem nextCaption_of_ne {cs : List Char} (h : captionAt cs ≠ .ok none) :
    nextCaption ('<' :: cs) = captionAt cs := by
  rw [nextCaption, if_pos rfl]
  split
  · next heq => exact heq.symm
  · next heq => exact heq.symm
  · next heq => exact absurd heq h

theorem not_mem_toDigits {c : Char} (h : c.isDigit = false) (n : ℕ) : c ∉ Nat.toDigits 10 n := by
  intro hmem
  rw [Text.isDigit_toDigits hmem] at h
  cases h

theorem not_mem_tickAttributes (s : Segment) : '>' ∉ tickAttributes s := by
  have hstart := not_mem_toDigits (c := '>') (by decide) s.startMs
  have hduration := not_mem_toDigits (c := '>') (by decide) s.durationMs
  simp [tickAttributes, hstart, hduration]

/-- **A caption is cut exactly.** -/
theorem nextCaption_element (s : Segment) (rest : List Char) :
    nextCaption (captionElement e s ++ rest) =
      .ok (some ⟨tickAttributes s, e.escape s.text.toList, rest⟩) := by
  have htext : captionElement e s ++ rest = '<' :: (['p'] ++ (tickAttributes s ++
      '>' :: (e.escape s.text.toList ++ ("</p>".toList ++ rest)))) := by
    simp [captionElement]
  have hclose := Text.splitOnce_append (not_mem_escape (e := e) s.text.toList) "/p>".toList rest
  have hcaption := (captionAt_eq_ok_iff (by decide : ['p'] ∈ captionNames) (.inr ⟨_, rfl⟩)
    (not_mem_tickAttributes s) _ _).mpr ⟨_, _, hclose, rfl⟩
  rw [htext, nextCaption_of_ne (hcaption ▸ nofun)]
  exact hcaption

/-! ### Attributes -/

/-- The first attribute of a tag. -/
theorem attributeValue_cons {key value : List Char} (hkey : '=' ∉ key) (hvalue : '"' ∉ value)
    (name rest : List Char) :
    attributeValue name (key ++ '=' :: '"' :: (value ++ '"' :: rest)) =
      if name.isSuffixOf (Text.trim key) then some value else attributeValue name rest := by
  have hequals := Text.splitOnce_append hkey [] ('"' :: (value ++ '"' :: rest))
  have hclose := Text.splitOnce_append hvalue [] rest
  rw [attributeValue]
  split
  · next heq =>
      cases hequals.symm.trans heq
  · next key' after heq =>
      obtain ⟨rfl, rfl⟩ := Prod.mk.inj (Option.some.inj (hequals.symm.trans heq))
      dsimp only
      split
      · next quoted _ _ hquoted _ _ =>
          obtain rfl := (List.cons.inj hquoted).2
          split
          · next hnone =>
              cases hclose.symm.trans hnone
          · next hsome =>
              obtain ⟨rfl, rfl⟩ := Prod.mk.inj (Option.some.inj (hclose.symm.trans hsome))
              rfl
      · next hnot =>
          exact (hnot _ _ _ rfl HEq.rfl HEq.rfl).elim

theorem attributeValue_nil (name : List Char) : attributeValue name [] = none := by
  rw [attributeValue]
  split
  · rfl
  · next heq => cases heq

/-- The attributes of a caption, by name. -/
theorem attributeValue_tickAttributes (s : Segment) (name : List Char) :
    attributeValue name (tickAttributes s) =
      if name.isSuffixOf ['t'] then some (Nat.toDigits 10 s.startMs)
      else if name.isSuffixOf ['d'] then some (Nat.toDigits 10 s.durationMs)
      else none := by
  have hstart := not_mem_toDigits (c := '"') (by decide) s.startMs
  have hduration := not_mem_toDigits (c := '"') (by decide) s.durationMs
  have htick : tickAttributes s = [' ', 't'] ++ '=' :: '"' :: (Nat.toDigits 10 s.startMs ++
      '"' :: ([' ', 'd'] ++ '=' :: '"' :: (Nat.toDigits 10 s.durationMs ++ '"' :: []))) := rfl
  have htrim : Text.trim [' ', 't'] = ['t'] ∧ Text.trim [' ', 'd'] = ['d'] := by decide
  rw [htick, attributeValue_cons (by decide) hstart, attributeValue_cons (by decide) hduration,
    attributeValue_nil, htrim.1, htrim.2]

variable {lib : YoutubeLib} {limits : YoutubeLimits}

/-- The times of a caption are read back. -/
theorem timingFromAttributes_tickAttributes {s : Segment} (hstart : s.startMs < 2 ^ 64)
    (hduration : s.durationMs < 2 ^ 64) :
    timingFromAttributes lib (tickAttributes s) = .ok (s.startMs, s.durationMs) := by
  have htrim : ∀ n, Text.trim (Nat.toDigits 10 n) = Nat.toDigits 10 n := fun n =>
    Text.trim_eq_self fun c hc => Text.isWhitespace_of_isDigit (Text.isDigit_toDigits hc)
  have hseconds : attributeValue "start".toList (tickAttributes s) = none := by
    rw [attributeValue_tickAttributes]
    rfl
  have ht : attributeValue "t".toList (tickAttributes s) = some (Nat.toDigits 10 s.startMs) := by
    rw [attributeValue_tickAttributes]
    rfl
  have hd : attributeValue "d".toList (tickAttributes s) = some (Nat.toDigits 10 s.durationMs) := by
    rw [attributeValue_tickAttributes]
    rfl
  rw [timingFromAttributes, hseconds, ht, hd]
  dsimp only
  rw [htrim, htrim, Text.parseUnsigned_toDigits hstart, Text.parseUnsigned_toDigits hduration]
  rfl

/-! ### The XML track -/

/-- The scan depends on the next caption only. -/
theorem xmlSegments_congr {cursor cursor' : List Char} (h : nextCaption cursor = nextCaption cursor')
    (segments : List Segment) :
    xmlSegments lib limits cursor segments = xmlSegments lib limits cursor' segments := by
  cases hnext : nextCaption cursor' with
  | error error => rw [xmlSegments_of_error (h.trans hnext), xmlSegments_of_error hnext]
  | ok next =>
      cases next with
      | none => rw [xmlSegments_of_none (h.trans hnext), xmlSegments_of_none hnext]
      | some caption => rw [xmlSegments_of_some (h.trans hnext), xmlSegments_of_some hnext]

/-- Tags of other names are passed over. -/
theorem nextCaption_otherTags (tags : List OtherTag) (rest : List Char) :
    nextCaption (tags.flatMap OtherTag.text ++ rest) = nextCaption rest := by
  induction tags with
  | nil => rfl
  | cons tag tags ih =>
      rw [List.flatMap_cons, List.append_assoc, nextCaption_otherTag, ih]

/-- A segment that `parse_timedtext` can represent. -/
def Segment.Fits (limits : YoutubeLimits) (s : Segment) : Prop :=
  s.startMs < 2 ^ 63 ∧ s.durationMs < 2 ^ 63 ∧ s.text.length ≤ limits.maxSegmentCharacters

/-- One more segment. -/
theorem collectSegment_of_fits {s : Segment} {text : List Char} (hs : s.Fits limits)
    (htext : text = s.text.toList) (segments : List Segment)
    (hcount : segments.length < limits.maxSegments) :
    collectSegment limits (s.startMs, s.durationMs) text segments = .ok (segments ++ [s]) := by
  have hlength : text.length ≤ limits.maxSegmentCharacters := by
    rw [htext, String.length_toList]
    exact hs.2.2
  refine Except.bind_eq_ok_iff.mpr ⟨(), Except.require_eq_ok_iff.mpr hlength,
    Except.bind_eq_ok_iff.mpr ⟨(), Except.require_eq_ok_iff.mpr hcount, ?_⟩⟩
  rw [htext, String.ofList_toList]
  rfl

/-- **The captions of a track are collected in order.** -/
theorem xmlSegments_elements {segments : List Segment} (hfits : ∀ s ∈ segments, s.Fits limits)
    (before : List Segment) (hcount : before.length + segments.length ≤ limits.maxSegments)
    (rest : List Char) :
    xmlSegments lib limits (segments.flatMap (captionElement e) ++ rest) before =
      xmlSegments lib limits rest (before ++ segments) := by
  induction segments generalizing before with
  | nil => rw [List.append_nil, List.flatMap_nil, List.nil_append]
  | cons s segments ih =>
      rw [List.forall_mem_cons] at hfits
      rw [List.length_cons] at hcount
      have hstart := hfits.1.1
      have hduration := hfits.1.2.1
      have hcollect := collectSegment_of_fits hfits.1 (decodeEntities_escape (e := e) s.text.toList)
        before (by omega)
      have hcount' : (before ++ [s]).length + segments.length ≤ limits.maxSegments := by
        rw [List.length_append, List.length_singleton]
        omega
      rw [List.flatMap_cons, List.append_assoc, xmlSegments_of_some (nextCaption_element s _)]
      dsimp only
      rw [timingFromAttributes_tickAttributes (by omega) (by omega)]
      change (collectSegment _ _ _ _ >>= fun segments => xmlSegments _ _ _ segments) = _
      rw [hcollect]
      exact (ih hfits.2 (before ++ [s]) hcount').trans (by rw [List.append_assoc]; rfl)

/-! ### Both tracks -/

/-- A text is decoded from its bytes. -/
theorem fromUtf8_utf8Bytes (text : String) : fromUtf8 (utf8Bytes text) = some text :=
  dif_pos text.isValidUTF8

/-- A track that begins with a bracket and is read as segments. -/
theorem parseTimedtext_of_track {track : String} {segments : List Segment} {c : Char}
    {rest : List Char} (hlimit : (utf8Bytes track).length ≤ limits.maxTrackBytes)
    (htrack : track.toList = c :: rest) (hne : segments ≠ [])
    (hread : c = '<' ∧ xmlSegments lib limits track.toList [] = .ok segments ∨
      c = '\x7b' ∧ json3Segments lib limits track.toList = .ok segments) :
    parseTimedtext lib limits (utf8Bytes track) = .ok segments := by
  have hc : Text.isWhitespace c = false := by
    rcases hread with ⟨rfl, -⟩ | ⟨rfl, -⟩
    · decide
    · decide
  have htrim : track.toList.dropWhile Text.isWhitespace = track.toList := by
    rw [htrack, List.dropWhile_cons, hc]
    rfl
  have hhead : track.toList.head? = some c := by
    rw [htrack]
    rfl
  refine Except.bind_eq_ok_iff.mpr ⟨(), Except.require_eq_ok_iff.mpr hlimit,
    Except.bind_eq_ok_iff.mpr ⟨track, Except.okOr_eq_ok_iff.mpr (fromUtf8_utf8Bytes track), ?_⟩⟩
  rw [htrim]
  dsimp only
  rw [hhead]
  rcases hread with ⟨rfl, hread⟩ | ⟨rfl, hread⟩
  · exact Except.bind_eq_ok_iff.mpr ⟨segments, hread,
      Except.bind_eq_ok_iff.mpr ⟨(), Except.require_eq_ok_iff.mpr hne, rfl⟩⟩
  · exact Except.bind_eq_ok_iff.mpr ⟨segments, hread,
      Except.bind_eq_ok_iff.mpr ⟨(), Except.require_eq_ok_iff.mpr hne, rfl⟩⟩

/-- An XML track begins with a tag. -/
theorem xmlTrack_toList (wrappers : List OtherTag) {segments : List Segment} (hne : segments ≠ []) :
    ∃ rest, (xmlTrack e wrappers segments).toList = '<' :: rest := by
  rw [xmlTrack, String.toList_ofList]
  cases wrappers with
  | cons tag wrappers => exact ⟨_, rfl⟩
  | nil =>
      cases segments with
      | nil => exact absurd rfl hne
      | cons s segments => exact ⟨_, rfl⟩

theorem json3Opening : "\x7b\"events\":[".toList = '\x7b' :: "\"events\":[".toList := by
  decide +kernel

/-- A JSON3 track begins with a brace. -/
theorem json3Track_toList (segments : List Segment) (splits : List (List String)) :
    ∃ rest, (json3Track segments splits).toList = '\x7b' :: rest := by
  obtain ⟨body, hbody⟩ : ∃ body, (json3Track segments splits).toList =
      "\x7b\"events\":[".toList ++ body := ⟨_, String.toList_ofList⟩
  exact ⟨_, hbody.trans (congrArg (· ++ body) json3Opening)⟩

/-- The parts of a split text. -/
theorem flatMap_parts (parts : List String) :
    ((parts.map some).flatMap fun part => (part.map String.toList).getD []) =
      parts.flatMap String.toList := by
  rw [List.flatMap_map]
  rfl

/-- **The events of a track are collected in order.** -/
theorem json3Events_trackEvents {segments : List Segment} {splits : List (List String)}
    (hfits : ∀ s ∈ segments, s.Fits limits)
    (hsplits : List.Forall₂ (fun s parts => parts.flatMap String.toList = s.text.toList)
      segments splits)
    (before : List Segment) (hcount : before.length + segments.length ≤ limits.maxSegments) :
    json3Events limits (trackEvents segments splits) before = .ok (before ++ segments) := by
  induction hsplits generalizing before with
  | nil => rw [List.append_nil]; rfl
  | @cons s parts segments splits htext _ ih =>
      rw [List.forall_mem_cons] at hfits
      rw [List.length_cons] at hcount
      have hcollect := collectSegment_of_fits hfits.1 ((flatMap_parts parts).trans htext) before
        (by omega)
      have hcount' : (before ++ [s]).length + segments.length ≤ limits.maxSegments := by
        rw [List.length_append, List.length_singleton]
        omega
      have hrest := ih hfits.2 (before ++ [s]) hcount'
      rw [List.append_assoc, List.singleton_append] at hrest
      refine Except.bind_eq_ok_iff.mpr ⟨s.startMs, if_neg (by simp), ?_⟩
      refine Except.bind_eq_ok_iff.mpr ⟨s.durationMs, if_neg (by simp), ?_⟩
      exact Except.bind_eq_ok_iff.mpr ⟨_, hcollect, hrest⟩

/-- **The two formats agree.** Segments within the limits are read back exactly from their XML track,
inside elements of other names, and from their JSON3 track, however their texts are split, where
`serde_json` reads the track as the events it was written from. -/
theorem timedtext_formats_agree (lib : YoutubeLib) (limits : YoutubeLimits)
    {segments : List Segment} (hne : segments ≠ [])
    (hcount : segments.length ≤ limits.maxSegments) (hfits : ∀ s ∈ segments, s.Fits limits)
    (e : Escaping) (wrappers : List OtherTag)
    (hxml : (utf8Bytes (xmlTrack e wrappers segments)).length ≤ limits.maxTrackBytes)
    {splits : List (List String)}
    (hsplits : List.Forall₂ (fun s parts => parts.flatMap String.toList = s.text.toList)
      segments splits)
    (hjson : (utf8Bytes (json3Track segments splits)).length ≤ limits.maxTrackBytes)
    (hserde : lib.json3 (json3Track segments splits).toList = some (trackEvents segments splits)) :
    parseTimedtext lib limits (utf8Bytes (xmlTrack e wrappers segments)) = .ok segments ∧
      parseTimedtext lib limits (utf8Bytes (json3Track segments splits)) = .ok segments := by
  have hcount' : ([] : List Segment).length + segments.length ≤ limits.maxSegments := by
    rw [List.length_nil]
    omega
  constructor
  · obtain ⟨rest, htrack⟩ := xmlTrack_toList (e := e) wrappers hne
    refine parseTimedtext_of_track hxml htrack hne (Or.inl ⟨rfl, ?_⟩)
    have hend : nextCaption ((wrappers.reverse.map OtherTag.closing).flatMap OtherTag.text) =
        .ok none := by
      have h := nextCaption_otherTags (wrappers.reverse.map OtherTag.closing) []
      rw [List.append_nil] at h
      exact h
    rw [xmlTrack, String.toList_ofList, xmlSegments_congr (nextCaption_otherTags wrappers _),
      xmlSegments_elements hfits [] hcount', xmlSegments_of_none hend, List.nil_append]
  · obtain ⟨rest, htrack⟩ := json3Track_toList segments splits
    refine parseTimedtext_of_track hjson htrack hne (Or.inr ⟨rfl, ?_⟩)
    exact Except.bind_eq_ok_iff.mpr ⟨_, Except.okOr_eq_ok_iff.mpr hserde,
      json3Events_trackEvents hfits hsplits [] hcount'⟩

/-! ### An example -/

/-- Two segments, with markup in the text of one. -/
def exampleSegments : List Segment := [⟨0, 1500, "a<b & \"c\";"⟩, ⟨1500, 20, ""⟩]

/-- Their texts in parts. -/
def exampleSplits : List (List String) := [["a<", "b & \"c\";"], []]

/-- `serde_json` on one track. -/
def singleTrack (track : String) (events : List Json3Event) : YoutubeLib :=
  { exampleAdapters.youtube with
    json3 := fun payload => if payload = track.toList then some events else none }

theorem singleTrack_json3 (track : String) (events : List Json3Event) :
    (singleTrack track events).json3 track.toList = some events :=
  if_pos rfl

/-- The libraries of the example. -/
def exampleTracks : YoutubeLib :=
  singleTrack (json3Track exampleSegments exampleSplits) (trackEvents exampleSegments exampleSplits)

/-- The elements of a track. -/
def exampleWrappers : List OtherTag :=
  [⟨"timedtext".toList, ' ' :: "format=\"3\"".toList, by decide +kernel,
      Text.forall_mem_of_all (by decide +kernel), Or.inr ⟨_, rfl⟩, by decide +kernel⟩,
    ⟨"body".toList, [], by decide +kernel, Text.forall_mem_of_all (by decide +kernel), Or.inl rfl,
      List.not_mem_nil⟩]

theorem timedtext_formats_agree_markup :
    parseTimedtext exampleTracks ⟨1000, 1000, 10, 10, 100⟩
        (utf8Bytes (xmlTrack Escaping.named exampleWrappers exampleSegments)) = .ok exampleSegments ∧
      parseTimedtext exampleTracks ⟨1000, 1000, 10, 10, 100⟩
        (utf8Bytes (json3Track exampleSegments exampleSplits)) = .ok exampleSegments := by
  refine timedtext_formats_agree exampleTracks ⟨1000, 1000, 10, 10, 100⟩ (List.cons_ne_nil _ _)
    (by decide) ?_ Escaping.named exampleWrappers (by decide +kernel) ?_ (by decide +kernel)
    (singleTrack_json3 _ _)
  · intro s hs
    rcases List.mem_cons.mp hs with rfl | hs
    · exact ⟨by decide, by decide, by decide⟩
    · obtain rfl := List.mem_singleton.mp hs
      exact ⟨by decide, by decide, by decide⟩
  · exact .cons (by decide) (.cons (by decide) .nil)

end Extractor
