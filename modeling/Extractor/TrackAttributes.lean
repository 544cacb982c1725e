import Extractor.Lib.Xml
import Extractor.TrackFormats

/-!
# The attributes of a caption

`attribute_value` and `timing_from_attributes` of `crates/youtube/src/timedtext.rs` on well-formed
lists of double-quoted attributes. The lookup takes the first attribute whose name ends in the name
it looks for, so another attribute with such a name may stand for the one that is meant; and it gives
up at the first attribute with white space between the equals sign and the quote.

## Main definitions

* `firstEnding`: the attribute that the lookup takes.
* `ReadsExactly`, `TimingReads`: when lookup and timing are those of the names themselves.

## Main results

* `attributeValue_attributes`: the lookup on a well-formed list.
* `attribute_lookup_iff`: when lookup and timing are right.
-/

namespace Extractor

open Xml (Attribute)

/-! ### The lookup -/

/-- A list of attributes, with white space behind it. -/
def attributesText (attributes : List Attribute) (space : List Char) : List Char :=
  attributes.flatMap Attribute.text ++ space

/-- The attributes before the first with white space behind its equals sign. -/
def unspaced (attributes : List Attribute) : List Attribute :=
  attributes.takeWhile fun a => a.afterEquals.isEmpty

/-- **The attribute that the lookup takes**: the first of them whose name ends in a text. -/
def firstEnding (attributes : List Attribute) (name : List Char) : Option Attribute :=
  (unspaced attributes).find? fun a => name.isSuffixOf a.name

theorem firstEnding_cons (a : Attribute) (attributes : List Attribute) (name : List Char) :
    firstEnding (a :: attributes) name =
      if a.afterEquals = [] then
        if name.isSuffixOf a.name then some a else firstEnding attributes name
      else none := by
  rw [firstEnding, unspaced, List.takeWhile_cons]
  by_cases hafter : a.afterEquals = []
  · rw [if_pos hafter, if_pos (List.isEmpty_iff.mpr hafter), List.find?_cons]
    cases name.isSuffixOf a.name <;> rfl
  · rw [if_neg hafter, if_neg (mt List.isEmpty_iff.mp hafter)]
    rfl

/-- Without an equals sign there is no attribute. -/
theorem attributeValue_of_not_mem {text : List Char} (h : '=' ∉ text) (name : List Char) :
    attributeValue name text = none := by
  rw [attributeValue]
  split
  · rfl
  · next heq =>
      rw [Text.splitOnce_eq_none h] at heq
      cases heq

/-- A value that is not quoted right behind the equals sign ends the lookup. -/
theorem attributeValue_of_ne_quote {key : List Char} (hkey : '=' ∉ key) {c : Char} (hc : c ≠ '"')
    (name rest : List Char) : attributeValue name (key ++ '=' :: c :: rest) = none := by
  have hequals := Text.splitOnce_append hkey [] (c :: rest)
  rw [attributeValue]
  split
  · rfl
  · next key' after heq =>
      obtain ⟨rfl, rfl⟩ := Prod.mk.inj (Option.some.inj (hequals.symm.trans heq))
      dsimp only
      split
      · next quoted _ _ hquoted _ _ => exact absurd (List.cons.inj hquoted).1 hc
      · rfl

/-- One attribute. -/
theorem attributeValue_attribute {a : Attribute} (hquote : a.quote = '"') (name rest : List Char) :
    attributeValue name (a.text ++ rest) =
      if a.afterEquals = [] then
        if name.isSuffixOf a.name then some a.value else attributeValue name rest
      else none := by
  have hkey : '=' ∉ a.lead ++ (a.name ++ a.beforeEquals) := by
    simp [a.lead_space.not_mem (c := '=') (by decide), a.isName.not_mem (c := '=') (by decide),
      a.before_space.not_mem (c := '=') (by decide)]
  have htrim : Text.trim (a.lead ++ (a.name ++ a.beforeEquals)) = a.name :=
    Text.trim_append a.lead_space.isWhitespace a.isName.1 (fun c hc => (a.isName.2 c hc).1)
      a.before_space.isWhitespace
  have htext : a.text ++ rest = (a.lead ++ (a.name ++ a.beforeEquals)) ++
      '=' :: (a.afterEquals ++ '"' :: (a.value ++ '"' :: rest)) := by
    simp [Attribute.text, hquote]
  rw [htext]
  split
  · next hafter =>
      rw [hafter, List.nil_append,
        attributeValue_cons hkey (hquote ▸ a.value_plain.1), htrim]
  · next hafter =>
      obtain ⟨c, more, hmore⟩ := List.exists_cons_of_ne_nil hafter
      have hc : c ≠ '"' := by
        rintro rfl
        exact a.after_space.not_mem (by decide) (hmore ▸ List.mem_cons_self ..)
      rw [hmore, List.cons_append]
      exact attributeValue_of_ne_quote hkey hc _ _

/-- **The lookup takes the first attribute whose name ends in the text.** -/
theorem attributeValue_attributes {attributes : List Attribute}
    (hquote : ∀ a ∈ attributes, a.quote = '"') {space : List Char} (hspace : '=' ∉ space)
    (name : List Char) :
    attributeValue name (attributesText attributes space) =
      (firstEnding attributes name).map Attribute.value := by
  induction attributes with
  | nil => exact attributeValue_of_not_mem hspace name
  | cons a attributes ih =>
      rw [List.forall_mem_cons] at hquote
      rw [attributesText, List.flatMap_cons, List.append_assoc, ← attributesText,
        attributeValue_attribute hquote.1, ih hquote.2, firstEnding_cons]
      split
      · split <;> rfl
      · rfl

/-! ### When the lookup is exact -/

/-- The value bound to exactly a name. -/
def boundValue (attributes : List Attribute) (name : List Char) : Option (List Char) :=
  (attributes.find? fun a => decide (a.name = name)).map Attribute.value

/-- **The lookup is exact** for a name: where an attribute has the name, the first one whose name
ends in it has the same value; else no name ends in it, before the first attribute with white space
behind its equals sign. -/
structure ReadsExactly (attributes : List Attribute) (name : List Char) : Prop where
  bound : ∀ a ∈ attributes, a.name = name →
    ∃ b, firstEnding attributes name = some b ∧ b.value = a.value
  unbound : (∀ a ∈ attributes, a.name ≠ name) → ∀ b ∈ unspaced attributes, ¬ name <:+ b.name

theorem boundValue_of_mem {attributes : List Attribute}
    (hdistinct : (attributes.map Attribute.name).Nodup) {a : Attribute} (ha : a ∈ attributes) :
    boundValue attributes a.name = some a.value := by
  have hfind : attributes.find? (fun b => decide (b.name = a.name)) = some a :=
    Choice.find?_eq_some_of_unique ha fun b hb => by
      rw [decide_eq_true_iff]
      exact ⟨fun h => List.inj_on_of_nodup_map hdistinct hb ha h, fun h => h ▸ rfl⟩
  rw [boundValue, hfind]
  rfl

theorem boundValue_of_forall {attributes : List Attribute} {name : List Char}
    (h : ∀ a ∈ attributes, a.name ≠ name) : boundValue attributes name = none := by
  rw [boundValue, List.find?_eq_none.mpr fun a ha => by simpa using h a ha]
  rfl

theorem firstEnding_eq_none_iff {attributes : List Attribute} {name : List Char} :
    firstEnding attributes name = none ↔ ∀ b ∈ unspaced attributes, ¬ name <:+ b.name := by
  rw [firstEnding, List.find?_eq_none]
  exact forall₂_congr fun b _ => not_congr List.isSuffixOf_iff_suffix

theorem firstEnding_eq_boundValue_iff {attributes : List Attribute}
    (hdistinct : (attributes.map Attribute.name).Nodup) (name : List Char) :
    (firstEnding attributes name).map Attribute.value = boundValue attributes name ↔
      ReadsExactly attributes name := by
  by_cases hname : ∃ a ∈ attributes, a.name = name
  · obtain ⟨a, ha, rfl⟩ := hname
    rw [boundValue_of_mem hdistinct ha, Option.map_eq_some_iff]
    refine ⟨fun h => ⟨fun b hb hab => ?_, fun h => absurd rfl (h a ha)⟩, fun h => h.bound a ha rfl⟩
    obtain rfl := List.inj_on_of_nodup_map hdistinct hb ha hab
    exact h
  · have hnone : ∀ a ∈ attributes, a.name ≠ name := fun a ha h => hname ⟨a, ha, h⟩
    rw [boundValue_of_forall hnone, Option.map_eq_none_iff, firstEnding_eq_none_iff]
    exact ⟨fun h => ⟨fun a ha heq => absurd heq (hnone a ha), fun _ => h⟩,
      fun h => h.unbound hnone⟩

/-! ### When the timing is exact -/

/-- A decimal number of milliseconds. -/
def IsMillis (value : List Char) (n : ℕ) : Prop :=
  value ≠ [] ∧ (∀ c ∈ value, c.isDigit = true) ∧ Text.decimalValue value = n ∧ n < 2 ^ 64

/-- The number that a tick attribute denotes. -/
def tickValue (a : Attribute) : Option ℕ :=
  Text.parseUnsigned (2 ^ 64) (Text.trim a.value)

theorem tickValue_of_isMillis {a : Attribute} {n : ℕ} (h : IsMillis a.value n) :
    tickValue a = some n := by
  obtain ⟨hne, hdigits, rfl, hlt⟩ := h
  rw [tickValue, Text.trim_eq_self fun c hc => Text.isWhitespace_of_isDigit (hdigits c hc),
    Text.parseUnsigned_of_digits hne hdigits hlt]

/-- **The timing is that of two attributes**: no two names that the lookup reaches end in `start`
and in `dur`, and the first ones whose names end in `t` and in `d` denote the same numbers; or two
names do end so, and their values in seconds happen to be the same times. -/
def TimingReads (lib : YoutubeLib) (attributes : List Attribute) (t d : Attribute) : Prop :=
  (∃ a b, firstEnding attributes "start".toList = some a ∧
    firstEnding attributes "dur".toList = some b ∧
      lib.secondsToMillis a.value = tickValue t ∧ lib.secondsToMillis b.value = tickValue d) ∨
    (firstEnding attributes "start".toList = none ∨ firstEnding attributes "dur".toList = none) ∧
      ∃ a b, firstEnding attributes "t".toList = some a ∧
        firstEnding attributes "d".toList = some b ∧
          tickValue a = tickValue t ∧ tickValue b = tickValue d

/-- Two numbers that are read one after the other. -/
theorem okOr_pair_eq_ok_iff {x y : Option ℕ} {m n : ℕ} :
    ((do
        let start ← okOr x YoutubeError.schema
        let dur ← okOr y YoutubeError.schema
        return (start, dur) : Except YoutubeError (ℕ × ℕ)) = .ok (m, n)) ↔
      x = some m ∧ y = some n := by
  cases x with
  | none => exact ⟨(nomatch ·), fun h => nomatch h.1⟩
  | some x =>
      cases y with
      | none => exact ⟨(nomatch ·), fun h => nomatch h.2⟩
      | some y =>
          rw [Option.some.injEq, Option.some.injEq, ← Prod.mk.injEq]
          exact ⟨Except.ok.inj, congrArg Except.ok⟩

/-- The ticks, where the lookup of the seconds fails. -/
theorem tickPair_eq_ok_iff {x y : Option Attribute} {start duration : ℕ} :
    ((match x.map Attribute.value, y.map Attribute.value with
      | some tick, some span => do
          let start ← okOr (Text.parseUnsigned (2 ^ 64) (Text.trim tick)) YoutubeError.schema
          let dur ← okOr (Text.parseUnsigned (2 ^ 64) (Text.trim span)) YoutubeError.schema
          return (start, dur)
      | _, _ => .error .schema : Except YoutubeError (ℕ × ℕ)) = .ok (start, duration)) ↔
      ∃ a b, x = some a ∧ y = some b ∧ tickValue a = some start ∧ tickValue b = some duration := by
  cases x with
  | none => exact ⟨(nomatch ·), fun ⟨_, _, h, _⟩ => nomatch h⟩
  | some a =>
      cases y with
      | none => exact ⟨(nomatch ·), fun ⟨_, _, _, h, _⟩ => nomatch h⟩
      | some b =>
          refine okOr_pair_eq_ok_iff.trans ⟨fun h => ⟨a, b, rfl, rfl, h⟩, ?_⟩
          rintro ⟨_, _, ⟨⟩, ⟨⟩, h⟩
          exact h

theorem timingFromAttributes_iff (lib : YoutubeLib) {attributes : List Attribute}
    (hquote : ∀ a ∈ attributes, a.quote = '"') {space : List Char} (hspace : '=' ∉ space)
    {t d : Attribute} {start duration : ℕ} (ht : tickValue t = some start)
    (hd : tickValue d = some duration) :
    timingFromAttributes lib (attributesText attributes space) = .ok (start, duration) ↔
      TimingReads lib attributes t d := by
  rw [timingFromAttributes, TimingReads, attributeValue_attributes hquote hspace,
    attributeValue_attributes hquote hspace, attributeValue_attributes hquote hspace,
    attributeValue_attributes hquote hspace, ht, hd]
  cases firstEnding attributes "start".toList with
  | none =>
      refine tickPair_eq_ok_iff.trans ⟨fun h => .inr ⟨.inl rfl, h⟩, ?_⟩
      rintro (⟨_, _, h, -⟩ | ⟨-, h⟩)
      · cases h
      · exact h
  | some a =>
      cases firstEnding attributes "dur".toList with
      | none =>
          refine tickPair_eq_ok_iff.trans ⟨fun h => .inr ⟨.inr rfl, h⟩, ?_⟩
          rintro (⟨_, _, -, h, -⟩ | ⟨-, h⟩)
          · cases h
          · exact h
      | some b =>
          refine okOr_pair_eq_ok_iff.trans ⟨fun h => .inl ⟨a, b, rfl, rfl, h⟩, ?_⟩
          rintro (⟨_, _, ⟨⟩, ⟨⟩, h⟩ | ⟨h | h, -⟩)
          · exact h
          · cases h
          · cases h

/-- The timing is right where the lookup reaches the ticks themselves and nothing like seconds. -/
theorem TimingReads.of_firstEnding (lib : YoutubeLib) {attributes : List Attribute}
    {t d : Attribute} (ht : firstEnding attributes "t".toList = some t)
    (hd : firstEnding attributes "d".toList = some d)
    (hseconds : firstEnding attributes "start".toList = none ∨
      firstEnding attributes "dur".toList = none) : TimingReads lib attributes t d :=
  .inr ⟨hseconds, t, d, ht, hd, rfl, rfl⟩

/-- **When attributes are read exactly.** On a well-formed list of double-quoted attributes of
distinct names, the lookup of a name gives the value bound to exactly that name if and only if
`ReadsExactly` holds of it; and with ticks and no seconds among the attributes, the timing is that of
the ticks if and only if `TimingReads` holds of them. -/
theorem attribute_lookup_iff (lib : YoutubeLib) {attributes : List Attribute}
    (hquote : ∀ a ∈ attributes, a.quote = '"')
    (hdistinct : (attributes.map Attribute.name).Nodup) {space : List Char}
    (hspace : Xml.IsSpace space) :
    (∀ name, attributeValue name (attributesText attributes space) = boundValue attributes name ↔
      ReadsExactly attributes name) ∧
    ∀ t ∈ attributes, ∀ d ∈ attributes, ∀ start duration,
      t.name = "t".toList → d.name = "d".toList → IsMillis t.value start →
      IsMillis d.value duration →
      (∀ a ∈ attributes, a.name ≠ "start".toList ∧ a.name ≠ "dur".toList) →
        (timingFromAttributes lib (attributesText attributes space) = .ok (start, duration) ↔
          TimingReads lib attributes t d) := by
  have hequals : '=' ∉ space := hspace.not_mem (by decide)
  refine ⟨fun name => ?_, fun t _ d _ start duration _ _ ht hd _ => ?_⟩
  · rw [attributeValue_attributes hquote hequals]
    exact firstEnding_eq_boundValue_iff hdistinct name
  · exact timingFromAttributes_iff lib hquote hequals (tickValue_of_isMillis ht)
      (tickValue_of_isMillis hd)

/-! ### Examples -/

/-- An attribute in its plainest spelling. -/
def plainAttribute (name value : String) (isName : Xml.IsName name.toList)
    (plain : '"' ∉ value.toList ∧ '<' ∉ value.toList) : Attribute where
  lead := [' ']
  name := name.toList
  beforeEquals := []
  afterEquals := []
  quote := '"'
  value := value.toList
  lead_ne := List.cons_ne_nil _ _
  lead_space := fun _ hc => .inl (List.mem_singleton.mp hc)
  isName := isName
  before_space := List.forall_mem_nil _
  after_space := List.forall_mem_nil _
  quote_mem := .inl rfl
  value_plain := plain

/-- The attributes `t` and `d` of a caption. -/
def tickPair : List Attribute :=
  [plainAttribute "t" "100" (by decide) (by decide),
    plainAttribute "d" "50" (by decide) (by decide)]

/-- An identifier. -/
def idAttribute : Attribute := plainAttribute "id" "7" (by decide) (by decide)

theorem quote_tickPair : ∀ a ∈ tickPair, a.quote = '"' := by
  intro a ha
  rcases List.mem_cons.mp ha with rfl | ha
  · rfl
  · rw [List.mem_singleton.mp ha]
    rfl

/-- With an identifier before them, the duration is the identifier. -/
theorem id_read_as_duration :
    attributesText (idAttribute :: tickPair) [] = " id=\"7\" t=\"100\" d=\"50\"".toList ∧
      timingFromAttributes exampleTracks (attributesText (idAttribute :: tickPair) []) =
        .ok (100, 7) ∧
      attributeValue "d".toList (attributesText (idAttribute :: tickPair) []) = some ['7'] ∧
      boundValue (idAttribute :: tickPair) "d".toList = some "50".toList := by
  have hlookup := attributeValue_attributes
    (List.forall_mem_cons.mpr ⟨(rfl : idAttribute.quote = '"'), quote_tickPair⟩)
    (List.not_mem_nil (a := '='))
  refine ⟨by decide +kernel, ?_, (hlookup _).trans (by decide +kernel), by decide +kernel⟩
  rw [timingFromAttributes, hlookup, hlookup, hlookup, hlookup]
  rfl

/-- With the identifier behind them, both are read. -/
theorem attribute_lookup_iff_id_last :
    timingFromAttributes exampleTracks (attributesText (tickPair ++ [idAttribute]) []) =
      .ok (100, 50) := by
  have hquote : ∀ a ∈ tickPair ++ [idAttribute], a.quote = '"' :=
    List.forall_mem_append.mpr ⟨quote_tickPair, List.forall_mem_singleton.mpr rfl⟩
  refine ((attribute_lookup_iff exampleTracks hquote (by decide +kernel)
    (List.forall_mem_nil _)).2 _ (List.mem_cons_self ..) _
    (List.mem_cons_of_mem _ (List.mem_cons_self ..)) 100 50 rfl rfl ?_ ?_ ?_).mpr
    (.of_firstEnding _ rfl rfl (.inl rfl))
  · exact ⟨by decide, Text.forall_mem_of_all (by decide), by decide, by decide⟩
  · exact ⟨by decide, Text.forall_mem_of_all (by decide), by decide, by decide⟩
  · intro a ha
    rcases List.mem_append.mp ha with ha | ha
    · rcases List.mem_cons.mp ha with rfl | ha
      · exact ⟨by decide, by decide⟩
      · rw [List.mem_singleton.mp ha]
        exact ⟨by decide, by decide⟩
    · rw [List.mem_singleton.mp ha]
      exact ⟨by decide, by decide⟩

end Extractor
