import Extractor.Acceptance
import Extractor.CandidateChoice
import Extractor.Deliverable
import Extractor.ProviderGate
import Extractor.Transcript

/-!
# The texts of extracted documents

PostgreSQL refuses a `jsonb` string with the character U+0000, so a document whose title or
blocks hold it cannot be published. Five adapters make documents: HTML, PDF, Hacker News, Reddit
and transcripts of either timed-text format. This module follows the character through all of
them: splitting, trimming and grouping neither add nor drop it, the HTML parser never emits it,
and the JSON and XML decoders of the provider and caption payloads do.

## Main results

* `htmlAssembly_storable`: HTML documents never hold the character.
* `pdfAssembly_storable`, `providerAssembly_storable`, `transcriptAssembly_storable`: the other
  documents hold it exactly when a text they are made of does.
* `extracted_content_storable_iff`: which calls of the adapters the database takes the content of.
-/

namespace Extractor

/-! ### The null character -/

/-- U+0000. -/
def nul : Char := Char.ofNat 0

theorem isWhitespace_nul : Text.isWhitespace nul = false := by decide

theorem storable_iff {text : String} : storable text = true ↔ nul ∉ text.toList := by
  rw [storable, List.all_eq_true]
  constructor
  · intro h hmem
    exact absurd (h nul hmem) (by decide)
  · intro h c hc
    refine bne_iff_ne.mpr fun hzero => h ?_
    have heq : c = nul := Char.toNat_inj.mp (hzero.trans (by decide))
    rwa [← heq]

theorem storable_ofList_iff {text : List Char} :
    storable (String.ofList text) = true ↔ nul ∉ text := by
  rw [storable_iff, String.toList_ofList]

/-- Trimming keeps the character. -/
theorem storable_trim (text : String) :
    storable (String.ofList (Text.trim text.toList)) = storable text := by
  rw [Bool.eq_iff_iff, storable_ofList_iff, storable_iff, Text.mem_trim_iff isWhitespace_nul]

theorem storable_joinWords_iff {words : List (List Char)} :
    storable (joinWords words) = true ↔ nul ∉ words.flatten := by
  rw [joinWords, storable_ofList_iff, Text.mem_intercalate_iff (by decide)]

/-- Splitting a text into words and joining them keeps the character. -/
theorem storable_joinWords_split (text : List Char) :
    storable (joinWords (Text.splitWhitespace text)) = storable (String.ofList text) := by
  rw [Bool.eq_iff_iff, storable_joinWords_iff, storable_ofList_iff,
    Text.mem_flatten_splitWhitespace_iff isWhitespace_nul]

/-- The words of several texts hold the character only if one of the texts does. -/
theorem storable_joinWords_flatMap {texts : List String} (h : texts.all storable = true) :
    storable (joinWords (texts.flatMap fun t => Text.splitWhitespace t.toList)) = true := by
  rw [storable_joinWords_iff]
  intro hmem
  obtain ⟨word, hword, hnul⟩ := List.mem_flatten.mp hmem
  obtain ⟨t, ht, hword⟩ := List.mem_flatMap.mp hword
  have hin : nul ∈ (Text.splitWhitespace t.toList).flatten := List.mem_flatten.mpr ⟨word, hword, hnul⟩
  rw [Text.mem_flatten_splitWhitespace_iff isWhitespace_nul] at hin
  exact storable_iff.mp (List.all_eq_true.mp h t ht) hin

theorem all_storable_trimmedText (text : String) :
    (trimmedText text).all storable = storable text := by
  rw [← storable_trim text, trimmedText]
  split
  · next hnil =>
      rw [hnil, Option.all_none]
      exact (storable_ofList_iff.mpr List.not_mem_nil).symm
  · exact Option.all_some

/-- Whether all blocks can be stored. -/
def blocksStorable (blocks : List DocumentBlock) : Bool :=
  blocks.all fun b => storable b.text

@[simp] theorem blocksStorable_nil : blocksStorable [] = true := rfl

@[simp] theorem blocksStorable_append (xs ys : List DocumentBlock) :
    blocksStorable (xs ++ ys) = (blocksStorable xs && blocksStorable ys) := List.all_append

@[simp] theorem blocksStorable_singleton (b : DocumentBlock) :
    blocksStorable [b] = storable b.text := by
  rw [blocksStorable, List.all_cons, List.all_nil, Bool.and_true]

/-- Whether all that an assembly passes on can be stored. -/
theorem Assembly.all_contents (assembly : Assembly) :
    assembly.contents.all storable =
      (assembly.title.all storable && blocksStorable assembly.blocks) := by
  rw [contents, List.all_append, List.all_map]
  congr 1
  cases assembly.title with
  | none => rfl
  | some t =>
      rw [Option.toList_some, List.all_cons, List.all_nil, Bool.and_true]
      rfl

/-! ### HTML -/

/-- A parsed document whose text nodes are free of the character. -/
def HtmlDom.TextsStorable (dom : HtmlDom) : Prop :=
  ∀ e ∈ dom.elements, e.texts.all storable = true

theorem normalizedText_storable {e : HtmlElement} {t : String} (he : e.texts.all storable = true)
    (h : normalizedText e = some t) : storable t = true := by
  obtain ⟨-, heq⟩ := Option.ite_none_left_eq_some.mp h
  rw [← Option.some.inj heq]
  exact storable_joinWords_flatMap he

theorem texts_of_mem_elements {nodes : List HtmlNode} {e : HtmlElement}
    (he : e ∈ HtmlNode.elements nodes) {t : String} (ht : t ∈ e.texts) :
    t ∈ HtmlNode.texts nodes := by
  induction nodes using HtmlNode.elements.induct with
  | case1 =>
      rw [HtmlNode.elements] at he
      cases he
  | case2 name lang children rest ihc ihr =>
      rw [HtmlNode.texts, List.mem_append]
      rw [HtmlNode.elements, List.mem_cons, List.mem_append] at he
      rcases he with rfl | he | he
      · exact Or.inl ht
      · exact Or.inl (ihc he)
      · exact Or.inr (ihr he)
  | case3 text rest ih =>
      rw [HtmlNode.elements] at he
      rw [HtmlNode.texts]
      exact List.mem_cons_of_mem _ (ih he)
  | case4 children rest ihc ihr =>
      rw [HtmlNode.texts, List.mem_append]
      rw [HtmlNode.elements, List.mem_append] at he
      rcases he with he | he
      · exact Or.inl (ihc he)
      · exact Or.inr (ihr he)

theorem HtmlElement.texts_of_mem_elements {e e' : HtmlElement} (he : e' ∈ e.elements) {t : String}
    (ht : t ∈ e'.texts) : t ∈ e.texts := by
  rcases List.mem_cons.mp he with rfl | he
  · exact ht
  · have hmem := Extractor.texts_of_mem_elements he ht
    rwa [HtmlNode.texts, HtmlNode.texts, List.append_nil] at hmem

theorem block_storable {e : HtmlElement} {b : DocumentBlock} (he : e.texts.all storable = true)
    (h : block e = some b) : storable b.text = true := by
  have hheading : ∀ level, heading level e = some b → storable b.text = true := by
    intro level h
    obtain ⟨t, ht, rfl⟩ := Option.map_eq_some_iff.mp h
    exact normalizedText_storable he ht
  rw [block] at h
  split at h
  · exact hheading _ h
  · exact hheading _ h
  · exact hheading _ h
  · exact hheading _ h
  · exact hheading _ h
  · exact hheading _ h
  · obtain ⟨t, ht, rfl⟩ := Option.map_eq_some_iff.mp h
    exact normalizedText_storable he ht
  · cases h

theorem HtmlElement.blocks_storable {e : HtmlElement} (he : e.texts.all storable = true) :
    blocksStorable e.blocks = true := by
  refine List.all_eq_true.mpr fun b hb => ?_
  obtain ⟨e', he', hblock⟩ := List.mem_filterMap.mp hb
  refine block_storable (List.all_eq_true.mpr fun t ht => ?_) hblock
  exact List.all_eq_true.mp he t (HtmlElement.texts_of_mem_elements he' ht)

theorem extractCandidates_storable {dom : HtmlDom} (hdom : dom.TextsStorable) {c : Candidate}
    (hc : c ∈ extractCandidates dom) : blocksStorable c.blocks = true := by
  rcases extractCandidates_cases hc with hempty | ⟨e, he, -, hcandidate⟩
  · rw [hempty]
    rfl
  · rw [hcandidate]
    exact HtmlElement.blocks_storable (hdom e he)

/-- **HTML documents never hold the character**, since no text node does. -/
theorem htmlAssembly_storable {lib : HtmlLib} {input : DocumentInput} {limits : ParserConfig}
    {assembly : Assembly} {decisions : List CandidateDecision}
    (hdom : (lib.parse input.bytes).TextsStorable)
    (h : htmlAssembly lib input limits = .ok (assembly, decisions)) :
    assembly.contents.all storable = true := by
  obtain ⟨-, -, h⟩ := Except.bind_eq_ok_iff.mp h
  obtain ⟨-, -, h⟩ := Except.bind_eq_ok_iff.mp h
  obtain ⟨best, -, h⟩ := Except.bind_eq_ok_iff.mp h
  obtain ⟨selected, hselected, h⟩ := Except.bind_eq_ok_iff.mp h
  cases h
  have hmem := List.mem_of_find?_eq_some (Except.okOr_eq_ok_iff.mp hselected)
  rw [Assembly.all_contents, Bool.and_eq_true]
  refine ⟨?_, extractCandidates_storable hdom hmem⟩
  cases htitle : (lib.parse input.bytes).title with
  | none => rfl
  | some t =>
      obtain ⟨e, he, ht⟩ := List.exists_of_findSome?_eq_some htitle
      obtain ⟨-, ht⟩ := Option.ite_none_right_eq_some.mp ht
      exact normalizedText_storable (hdom e he) ht

/-! ### PDF -/

/-- The texts that the PDF crates decode from a file: the title and the pages. -/
def PdfFile.texts (lib : PdfLib) (file : PdfFile) : List String :=
  (file.titleString.bind fun bytes => (lib.decodeTextString bytes).bind id).toList ++
    file.pages.filterMap id

theorem all_toList_storable (text : Option String) :
    text.toList.all storable = text.all storable := by
  cases text with
  | none => rfl
  | some t => exact Bool.and_true _

theorem all_storable_normalizedParagraph (text : String) :
    (normalizedParagraph text).all storable = storable text := by
  have hwords := storable_joinWords_split text.toList
  rw [String.ofList_toList] at hwords
  rw [← hwords, normalizedParagraph]
  split
  · next hempty =>
      have hnone : nul ∉ ([] : List (List Char)).flatten := List.not_mem_nil
      rw [hempty, Option.all_none]
      exact (storable_joinWords_iff.mpr hnone).symm
  · exact Option.all_some

theorem blocksStorable_paragraphs (text : Option String) :
    blocksStorable (text.toList.map paragraphBlock) = text.all storable := by
  cases text with
  | none => rfl
  | some t => exact blocksStorable_singleton _

theorem pageBlocks_storable {limits : PdfConfig} {pages : List (Option String)} {textBytes : ℕ}
    {blocks blocks' : List DocumentBlock}
    (h : pageBlocks limits pages textBytes blocks = .ok blocks') :
    blocksStorable blocks' = (blocksStorable blocks && (pages.filterMap id).all storable) := by
  induction pages generalizing textBytes blocks with
  | nil =>
      cases h
      exact (Bool.and_true _).symm
  | cons page rest ih =>
      obtain ⟨text, hpage, h⟩ := Except.bind_eq_ok_iff.mp h
      obtain ⟨-, -, h⟩ := Except.bind_eq_ok_iff.mp h
      have hpages : (page :: rest).filterMap id = text :: rest.filterMap id :=
        List.filterMap_cons_some (Except.okOr_eq_ok_iff.mp hpage)
      rw [ih h, hpages, List.all_cons, blocksStorable_append, blocksStorable_paragraphs,
        all_storable_normalizedParagraph, Bool.and_assoc]

theorem metadataTitle_storable {lib : PdfLib} {file : PdfFile} {title : Option String}
    (h : metadataTitle lib file = .ok title) :
    title.all storable =
      (file.titleString.bind fun bytes => (lib.decodeTextString bytes).bind id).all storable := by
  rw [metadataTitle] at h
  cases hbytes : file.titleString with
  | none =>
      rw [hbytes] at h
      cases h
      rfl
  | some bytes =>
      rw [hbytes] at h
      obtain ⟨decoded, hdecoded, h⟩ := Except.bind_eq_ok_iff.mp h
      cases h
      rw [Option.bind_some, Except.okOr_eq_ok_iff.mp hdecoded, Option.bind_some, id]
      cases decoded with
      | none => rfl
      | some t => exact all_storable_trimmedText t

/-- **A PDF document holds the character exactly when its title or a page does.** -/
theorem pdfAssembly_storable {lib : PdfLib} {input : DocumentInput} {limits : PdfConfig}
    {assembly : Assembly} {decisions : List CandidateDecision}
    (h : pdfAssembly lib input limits = .ok (assembly, decisions)) :
    ∃ file, openPdf lib input.bytes = .ok file ∧
      assembly.contents.all storable = (file.texts lib).all storable := by
  obtain ⟨-, -, h⟩ := Except.bind_eq_ok_iff.mp h
  obtain ⟨file, hfile, h⟩ := Except.bind_eq_ok_iff.mp h
  obtain ⟨-, -, h⟩ := Except.bind_eq_ok_iff.mp h
  obtain ⟨title, htitle, h⟩ := Except.bind_eq_ok_iff.mp h
  obtain ⟨-, -, h⟩ := Except.bind_eq_ok_iff.mp h
  obtain ⟨blocks, hblocks, h⟩ := Except.bind_eq_ok_iff.mp h
  obtain ⟨-, -, h⟩ := Except.bind_eq_ok_iff.mp h
  cases h
  refine ⟨file, hfile, ?_⟩
  rw [Assembly.all_contents, PdfFile.texts, List.all_append, all_toList_storable,
    metadataTitle_storable htitle, pageBlocks_storable hblocks, blocksStorable_nil, Bool.true_and]

/-! ### Providers -/

/-- `from_provider` up to the assembly. -/
def providerAssembly (lib : ProviderLib) (input : ProviderInput) (limits : ProviderLimits) :
    Except ProviderError (Assembly × Option String × CandidateDecision) := do
  require (input.bytes.length ≤ limits.maxInputBytes) ProviderError.resourceLimit
  let adapted ← input.route.adapter lib limits input.bytes
  let externalUrl := keptLink lib.urlLib input.route adapted.externalUrl
  require (adapted.decision.accepted ∨ externalUrl.isSome)
    (ProviderError.lowQuality [adapted.decision])
  return (⟨input.route.strategy, adapted.title, none, adapted.decision.blocks⟩, externalUrl,
    { adapted.decision with selected := true })

/-- `from_provider` assembles the document of its assembly. -/
theorem fromProvider_eq (lib : ProviderLib) (input : ProviderInput) (limits : ProviderLimits) :
    fromProvider lib input limits = (do
      let r ← providerAssembly lib input limits
      let document ← (r.1.document lib.documents input.owner input.sourceAddress
        input.sourceBlob).mapError providerIdentityError
      return ⟨document, r.2.1, [r.2.2]⟩) := by
  rw [fromProvider, providerAssembly]
  simp only [bind_assoc, pure_bind]
  rfl

/-- The comments among some postings and all replies under them. -/
def Posting.bodies : List Posting → List String
  | [] => []
  | ⟨kind, body, _, _, _, replies⟩ :: rest =>
      (if kind = "t1" then body.toList else []) ++ bodies replies ++ bodies rest

/-- The comment of one posting. -/
def Posting.comment (p : Posting) : List String :=
  if p.kind = "t1" then p.body.toList else []

theorem Posting.bodies_cons (p : Posting) (rest : List Posting) :
    bodies (p :: rest) = p.comment ++ bodies p.replies ++ bodies rest := by
  obtain ⟨kind, body, selftext, title, url, replies⟩ := p
  rw [bodies]
  rfl

theorem Posting.bodies_append (xs ys : List Posting) :
    bodies (xs ++ ys) = bodies xs ++ bodies ys := by
  induction xs with
  | nil => simp [bodies]
  | cons x xs ih =>
      rw [List.cons_append, bodies_cons, bodies_cons, ih, List.append_assoc, List.append_assoc,
        List.append_assoc]

theorem pushParagraph_storable {limits : ProviderLimits} {text : Option String}
    {blocks blocks' : List DocumentBlock} (h : pushParagraph limits text blocks = .ok blocks') :
    blocksStorable blocks' = (blocksStorable blocks && text.all storable) := by
  cases text with
  | none =>
      cases h
      exact (Bool.and_true _).symm
  | some t =>
      rw [pushParagraph] at h
      split at h
      · cases h
      · cases h
        rw [blocksStorable_append, blocksStorable_singleton]
        rfl

theorem pushText_storable {limits : ProviderLimits} {text : Option String}
    {blocks blocks' : List DocumentBlock} (h : pushText limits text blocks = .ok blocks') :
    blocksStorable blocks' = (blocksStorable blocks && text.all storable) := by
  rw [pushParagraph_storable h]
  congr 1
  cases text with
  | none => rfl
  | some t =>
      rw [Option.map_some, Option.all_some, ← storable_trim t]
      by_cases hnil : Text.trim t.toList = []
      · rw [Option.filter_some, if_neg (by simpa using hnil), hnil]
        rfl
      · rw [Option.filter_some, if_pos (by simpa using hnil), Option.map_some, Option.all_some,
          storable_joinWords_split]

/-- The texts of the comments of some postings, without their replies. -/
def Posting.comments (postings : List Posting) : List String :=
  postings.flatMap Posting.comment

theorem Posting.comment_of_t1 {p : Posting} (h : p.kind = "t1") :
    p.comment.all storable = p.body.all storable := by
  rw [comment, if_pos h, all_toList_storable]

theorem Posting.comment_of_other {p : Posting} (h : p.kind ≠ "t1") : p.comment = [] := by
  rw [comment, if_neg h]

theorem walkQueue_storable {limits : ProviderLimits} {queue : List Posting}
    {blocks blocks' : List DocumentBlock} (h : walkQueue limits queue blocks = .ok blocks') :
    blocksStorable blocks' = (blocksStorable blocks && (Posting.bodies queue).all storable) := by
  induction queue, blocks using walkQueue.induct limits with
  | case1 blocks =>
      rw [walkQueue] at h
      cases h
      simp [Posting.bodies]
  | case2 blocks p rest hkind ih =>
      rw [walkQueue, if_pos hkind] at h
      obtain ⟨pushed, hpush, h⟩ := Except.bind_eq_ok_iff.mp h
      rw [ih pushed h, pushText_storable hpush, Posting.bodies_append, Posting.bodies_cons,
        List.all_append, List.all_append, List.all_append, Posting.comment_of_t1 hkind,
        Bool.and_comm ((Posting.bodies rest).all storable)]
      ac_rfl
  | case3 blocks p rest hkind ih =>
      rw [walkQueue, if_neg hkind] at h
      rw [ih blocks h, Posting.bodies_append, Posting.bodies_cons, Posting.comment_of_other hkind,
        List.nil_append, List.all_append, List.all_append,
        Bool.and_comm ((Posting.bodies rest).all storable)]

theorem pushComments_storable {limits : ProviderLimits} {postings : List Posting}
    {blocks blocks' : List DocumentBlock} (h : pushComments limits postings blocks = .ok blocks') :
    blocksStorable blocks' =
      (blocksStorable blocks && (Posting.comments postings).all storable) := by
  induction postings generalizing blocks with
  | nil =>
      cases h
      exact (Bool.and_true _).symm
  | cons p rest ih =>
      rw [pushComments] at h
      have hcomments : Posting.comments (p :: rest) = p.comment ++ Posting.comments rest := rfl
      rw [hcomments, List.all_append]
      split at h
      · next hkind =>
          obtain ⟨pushed, hpush, h⟩ := Except.bind_eq_ok_iff.mp h
          rw [ih h, pushText_storable hpush, Posting.comment_of_t1 hkind, Bool.and_assoc]
      · next hkind =>
          have h : pushComments limits rest blocks = .ok blocks' := h
          rw [ih h, Posting.comment_of_other hkind]
          rfl

/-- The postings from the post on. -/
def postingsFromPost (listings : List Listing) : List Posting :=
  (listings.flatMap Listing.children).dropWhile fun p => p.kind != "t3"

/-- The decoded texts that the Reddit adapter copies: the title, the text of the post, the
comments under it and those beside it. -/
def redditTexts (listings : List Listing) : List String :=
  match postingsFromPost listings with
  | [] => []
  | post :: rest =>
      post.title.toList ++ post.selftext.toList ++ Posting.bodies [post] ++ Posting.comments rest

/-- The decoded texts that an adapter copies; the texts of Hacker News items go through the HTML
parser instead. -/
def providerTexts (lib : ProviderLib) (route : ProviderRoute) (bytes : List UInt8) :
    List String :=
  match route with
  | .hackerNews => ((lib.algoliaItem bytes).bind AlgoliaItem.title).toList
  | .reddit => ((lib.listings bytes).map redditTexts).getD []

theorem trimmedTitle_storable {title : Option String} {t : String}
    (h : trimmedTitle title = .ok t) : storable t = title.all storable := by
  obtain ⟨raw, hraw, h⟩ := Except.bind_eq_ok_iff.mp h
  obtain ⟨-, -, h⟩ := Except.bind_eq_ok_iff.mp h
  cases h
  rw [Except.okOr_eq_ok_iff.mp hraw, Option.all_some, storable_trim]

theorem fromListings_storable {lib : ProviderLib} {limits : ProviderLimits} {bytes : List UInt8}
    {adapted : AdapterExtraction} (h : fromListings lib limits bytes = .ok adapted) :
    (adapted.title.all storable && blocksStorable adapted.decision.blocks) =
      (providerTexts lib .reddit bytes).all storable := by
  obtain ⟨listings, hlistings, h⟩ := Except.bind_eq_ok_iff.mp h
  obtain ⟨post, hpost, h⟩ := Except.bind_eq_ok_iff.mp h
  obtain ⟨title, htitle, h⟩ := Except.bind_eq_ok_iff.mp h
  obtain ⟨blocks₁, h₁, h⟩ := Except.bind_eq_ok_iff.mp h
  obtain ⟨blocks₂, h₂, h⟩ := Except.bind_eq_ok_iff.mp h
  obtain ⟨blocks₃, h₃, h⟩ := Except.bind_eq_ok_iff.mp h
  cases h
  obtain ⟨rest, hpostings⟩ : ∃ rest, postingsFromPost listings = post :: rest := by
    have hhead := Except.okOr_eq_ok_iff.mp hpost
    exact ⟨_, List.eq_cons_of_mem_head? hhead⟩
  have hrest : pushComments limits rest blocks₂ = .ok blocks₃ := by
    have htail : (postingsFromPost listings).tail = rest := congrArg List.tail hpostings
    rw [← htail]
    exact h₃
  have htexts : providerTexts lib .reddit bytes = post.title.toList ++ post.selftext.toList ++
      Posting.bodies [post] ++ Posting.comments rest := by
    rw [providerTexts, Except.okOr_eq_ok_iff.mp hlistings, Option.map_some, redditTexts, hpostings]
    rfl
  rw [htexts, List.all_append, List.all_append, List.all_append, all_toList_storable,
    all_toList_storable, ← trimmedTitle_storable htitle]
  change (storable title && blocksStorable blocks₃) = _
  rw [pushComments_storable hrest, walkQueue_storable h₂, pushText_storable h₁,
    blocksStorable_singleton]
  change (storable title && (storable title && _ && _ && _)) = _
  rw [← Bool.and_assoc, ← Bool.and_assoc, ← Bool.and_assoc, Bool.and_self]

/-- Fragments whose text nodes are free of the character. -/
def ProviderLib.FragmentsStorable (lib : ProviderLib) : Prop :=
  ∀ html texts, lib.bodyTexts html = some texts → texts.all storable = true

theorem pushFragment_storable {lib : ProviderLib} (hlib : lib.FragmentsStorable)
    {limits : ProviderLimits} {html : Option String} {blocks blocks' : List DocumentBlock}
    (h : pushFragment lib limits html blocks = .ok blocks') :
    blocksStorable blocks' = blocksStorable blocks := by
  have hfragment : (html.bind (plainTextFragment lib)).all storable = true := by
    cases hbind : html.bind (plainTextFragment lib) with
    | none => rfl
    | some t =>
        obtain ⟨fragment, -, hplain⟩ := Option.bind_eq_some_iff.mp hbind
        obtain ⟨texts, htexts, ht⟩ := Option.bind_eq_some_iff.mp hplain
        obtain ⟨-, heq⟩ := Option.ite_none_left_eq_some.mp ht
        rw [Option.all_some, ← Option.some.inj heq]
        exact storable_joinWords_flatMap (hlib fragment texts htexts)
  rw [pushParagraph_storable h, hfragment, Bool.and_true]

theorem collectComments_storable {lib : ProviderLib} (hlib : lib.FragmentsStorable)
    {limits : ProviderLimits} {items : List AlgoliaItem} {blocks blocks' : List DocumentBlock}
    (h : collectComments lib limits items blocks = .ok blocks') :
    blocksStorable blocks' = blocksStorable blocks := by
  induction items, blocks using collectComments.induct generalizing blocks' with
  | case1 blocks =>
      rw [collectComments] at h
      cases h
      rfl
  | case2 children id text title url rest blocks ihc ihr =>
      rw [collectComments] at h
      obtain ⟨pushed, hpush, h⟩ := Except.bind_eq_ok_iff.mp h
      obtain ⟨collected, hcollect, h⟩ := Except.bind_eq_ok_iff.mp h
      rw [ihr collected h, ihc pushed hcollect, pushFragment_storable hlib hpush]

theorem fromAlgolia_storable {lib : ProviderLib} (hlib : lib.FragmentsStorable)
    {limits : ProviderLimits} {bytes : List UInt8} {adapted : AdapterExtraction}
    (h : fromAlgolia lib limits bytes = .ok adapted) :
    (adapted.title.all storable && blocksStorable adapted.decision.blocks) =
      (providerTexts lib .hackerNews bytes).all storable := by
  obtain ⟨-, -, h⟩ := Except.bind_eq_ok_iff.mp h
  obtain ⟨root, hroot, h⟩ := Except.bind_eq_ok_iff.mp h
  obtain ⟨-, -, h⟩ := Except.bind_eq_ok_iff.mp h
  obtain ⟨title, htitle, h⟩ := Except.bind_eq_ok_iff.mp h
  obtain ⟨blocks₁, h₁, h⟩ := Except.bind_eq_ok_iff.mp h
  obtain ⟨blocks₂, h₂, h⟩ := Except.bind_eq_ok_iff.mp h
  cases h
  have htexts : providerTexts lib .hackerNews bytes = root.title.toList := by
    rw [providerTexts, Except.okOr_eq_ok_iff.mp hroot]
    rfl
  rw [htexts, all_toList_storable, ← trimmedTitle_storable htitle]
  change (storable title && blocksStorable blocks₂) = _
  rw [collectComments_storable hlib h₂, pushFragment_storable hlib h₁, blocksStorable_singleton]
  change (storable title && storable title) = _
  rw [Bool.and_self]

/-- **A provider document holds the character exactly when a text that is copied does.** -/
theorem providerAssembly_storable {lib : ProviderLib} (hlib : lib.FragmentsStorable)
    {input : ProviderInput} {limits : ProviderLimits} {assembly : Assembly}
    {r : Option String × CandidateDecision}
    (h : providerAssembly lib input limits = .ok (assembly, r)) :
    assembly.contents.all storable =
      (providerTexts lib input.route input.bytes).all storable := by
  obtain ⟨-, -, h⟩ := Except.bind_eq_ok_iff.mp h
  obtain ⟨adapted, hadapted, h⟩ := Except.bind_eq_ok_iff.mp h
  obtain ⟨-, -, h⟩ := Except.bind_eq_ok_iff.mp h
  cases h
  rw [Assembly.all_contents]
  cases hroute : input.route with
  | hackerNews =>
      rw [hroute] at hadapted
      exact fromAlgolia_storable hlib hadapted
  | reddit =>
      rw [hroute] at hadapted
      exact fromListings_storable hadapted

/-! ### Transcripts -/

/-- Whether all segments can be stored. -/
def segmentsStorable (segments : List Segment) : Bool :=
  segments.all fun s => storable s.text

theorem storable_mergedText (group : List Segment) :
    storable (mergedText group) = segmentsStorable group := by
  rw [Bool.eq_iff_iff, mergedText, storable_ofList_iff, Text.mem_intercalate_iff (by decide),
    segmentsStorable, List.all_eq_true]
  constructor
  · intro h s hs
    refine storable_iff.mpr fun hnul => h ?_
    exact List.mem_flatten.mpr ⟨s.text.toList, List.mem_map_of_mem hs, hnul⟩
  · intro h hmem
    obtain ⟨text, htext, hnul⟩ := List.mem_flatten.mp hmem
    obtain ⟨s, hs, rfl⟩ := List.mem_map.mp htext
    exact storable_iff.mp (h s hs) hnul

/-- Grouping keeps the character. -/
theorem groupedBlocks_storable {segments : List Segment} {maxBlocks : ℕ}
    {blocks : List DocumentBlock} {timings : List BlockTiming} (hsegments : segments ≠ [])
    (hblocks : maxBlocks ≠ 0) (h : groupedBlocks segments maxBlocks = .ok (blocks, timings)) :
    blocksStorable blocks = segmentsStorable segments := by
  have hpos : 0 < min maxBlocks segments.length :=
    Nat.lt_min.mpr ⟨Nat.pos_of_ne_zero hblocks, List.length_pos_iff.mpr hsegments⟩
  obtain ⟨-, -, h⟩ := Except.bind_eq_ok_iff.mp h
  cases h
  have hflatten : segmentsStorable segments = segmentsStorable
      ((List.range (min maxBlocks segments.length)).map
        (segmentGroup segments (min maxBlocks segments.length))).flatten := by
    rw [flatten_segmentGroups segments hpos]
  rw [hflatten, blocksStorable, List.all_map, segmentsStorable, List.all_flatten]
  refine congrArg (List.all _) (funext fun group => ?_)
  exact storable_mergedText group

/-- The raw texts of the captions that the scanner cuts from a payload. -/
def captionTexts (cursor : List Char) : List (List Char) :=
  match h : nextCaption cursor with
  | .ok (some caption) =>
      have := length_next_lt h
      caption.rawText :: captionTexts caption.next
  | .ok none => []
  | .error _ => []
termination_by cursor.length

theorem captionTexts_of_some {cursor : List Char} {caption : Caption}
    (h : nextCaption cursor = .ok (some caption)) :
    captionTexts cursor = caption.rawText :: captionTexts caption.next := by
  rw [captionTexts]
  split
  · next heq =>
      rw [h] at heq
      cases heq
      rfl
  · next heq =>
      rw [h] at heq
      cases heq
  · next heq =>
      rw [h] at heq
      cases heq

theorem captionTexts_of_none {cursor : List Char} (h : nextCaption cursor = .ok none) :
    captionTexts cursor = [] := by
  rw [captionTexts]
  split
  · next heq =>
      rw [h] at heq
      cases heq
  · rfl
  · rfl

theorem collectSegment_storable {limits : YoutubeLimits} {timing : ℕ × ℕ} {text : List Char}
    {segments segments' : List Segment}
    (h : collectSegment limits timing text segments = .ok segments') :
    segmentsStorable segments' = (segmentsStorable segments && storable (String.ofList text)) := by
  obtain ⟨-, -, h⟩ := Except.bind_eq_ok_iff.mp h
  obtain ⟨-, -, h⟩ := Except.bind_eq_ok_iff.mp h
  cases h
  rw [segmentsStorable, List.all_append, List.all_cons, List.all_nil, Bool.and_true]
  rfl

theorem xmlSegments_storable {lib : YoutubeLib} {limits : YoutubeLimits} {cursor : List Char}
    {segments segments' : List Segment}
    (h : xmlSegments lib limits cursor segments = .ok segments') :
    segmentsStorable segments' = (segmentsStorable segments &&
      (captionTexts cursor).all fun raw => storable (String.ofList (decodeEntities raw))) := by
  induction cursor, segments using xmlSegments.induct with
  | case1 cursor segments e hnext =>
      rw [xmlSegments_of_error hnext] at h
      cases h
  | case2 cursor segments hnext =>
      rw [xmlSegments_of_none hnext] at h
      cases h
      rw [captionTexts_of_none hnext]
      exact (Bool.and_true _).symm
  | case3 cursor segments caption hnext hlength ih =>
      rw [xmlSegments_of_some hnext] at h
      obtain ⟨timing, -, h⟩ := Except.bind_eq_ok_iff.mp h
      obtain ⟨collected, hcollect, h⟩ := Except.bind_eq_ok_iff.mp h
      rw [ih collected h, collectSegment_storable hcollect, captionTexts_of_some hnext,
        List.all_cons, Bool.and_assoc]

/-- The decoded texts of JSON3 events. -/
def json3Texts (events : List Json3Event) : List String :=
  events.flatMap fun e => (e.segs.getD []).filterMap id

theorem storable_parts (parts : List (Option String)) :
    storable (String.ofList (parts.flatMap fun part => (part.map String.toList).getD [])) =
      (parts.filterMap id).all storable := by
  rw [Bool.eq_iff_iff, storable_ofList_iff, List.all_eq_true]
  constructor
  · intro h t ht
    refine storable_iff.mpr fun hnul => h ?_
    obtain ⟨part, hpart, hid⟩ := List.mem_filterMap.mp ht
    have hsome : part = some t := hid
    refine List.mem_flatMap.mpr ⟨part, hpart, ?_⟩
    rw [hsome]
    exact hnul
  · intro h hmem
    obtain ⟨part, hpart, hnul⟩ := List.mem_flatMap.mp hmem
    cases part with
    | none => cases hnul
    | some t => exact storable_iff.mp (h t (List.mem_filterMap.mpr ⟨some t, hpart, rfl⟩)) hnul

theorem json3Events_storable {limits : YoutubeLimits} {events : List Json3Event}
    {segments segments' : List Segment} (h : json3Events limits events segments = .ok segments') :
    segmentsStorable segments' =
      (segmentsStorable segments && (json3Texts events).all storable) := by
  induction events generalizing segments with
  | nil =>
      cases h
      exact (Bool.and_true _).symm
  | cons event rest ih =>
      have htexts : json3Texts (event :: rest) =
          (event.segs.getD []).filterMap id ++ json3Texts rest := rfl
      rw [htexts, List.all_append]
      rw [json3Events] at h
      obtain ⟨start, -, h⟩ := Except.bind_eq_ok_iff.mp h
      obtain ⟨duration, -, h⟩ := Except.bind_eq_ok_iff.mp h
      cases hsegs : event.segs with
      | none =>
          rw [hsegs] at h
          have h : json3Events limits rest segments = .ok segments' := h
          exact ih h
      | some parts =>
          rw [hsegs] at h
          obtain ⟨collected, hcollect, h⟩ := Except.bind_eq_ok_iff.mp h
          rw [ih h, collectSegment_storable hcollect, storable_parts, Bool.and_assoc]
          rfl

/-- The payload of a caption track: its text after the white space in front. -/
def trackPayload (track : List UInt8) : Option (List Char) :=
  (fromUtf8 track).map fun text => text.toList.dropWhile Text.isWhitespace

/-- A track from which no null character is decoded: the captions of an XML payload neither hold
it nor a reference to it, and the texts of a JSON3 payload do not hold it. -/
def TrackStorable (lib : YoutubeLib) (payload : List Char) : Prop :=
  match payload.head? with
  | some '<' => ∀ raw ∈ captionTexts payload, nul ∉ raw ∧ ¬ Names nul raw
  | some '\x7b' => ∀ events, lib.json3 payload = some events →
      (json3Texts events).all storable = true
  | _ => True

theorem trackStorable_xml {lib : YoutubeLib} {payload : List Char}
    (h : payload.head? = some '<') :
    TrackStorable lib payload ↔ ∀ raw ∈ captionTexts payload, nul ∉ raw ∧ ¬ Names nul raw := by
  rw [TrackStorable, h]
  exact Iff.rfl

theorem trackStorable_json3 {lib : YoutubeLib} {payload : List Char} {events : List Json3Event}
    (h : payload.head? = some '\x7b') (hevents : lib.json3 payload = some events) :
    TrackStorable lib payload ↔ (json3Texts events).all storable = true := by
  rw [TrackStorable, h]
  constructor
  · exact fun hall => hall events hevents
  · intro hall events' hevents'
    rw [hevents] at hevents'
    rwa [← Option.some.inj hevents']

theorem storable_decodeEntities_iff (raw : List Char) :
    storable (String.ofList (decodeEntities raw)) = true ↔ nul ∉ raw ∧ ¬ Names nul raw := by
  rw [storable_ofList_iff, mem_decodeEntities_iff (by decide) (by decide) (by decide), not_or]

theorem parseTimedtext_storable {lib : YoutubeLib} {limits : YoutubeLimits} {track : List UInt8}
    {segments : List Segment} (h : parseTimedtext lib limits track = .ok segments) :
    ∃ payload, trackPayload track = some payload ∧
      (segmentsStorable segments = true ↔ TrackStorable lib payload) := by
  obtain ⟨-, -, h⟩ := Except.bind_eq_ok_iff.mp h
  obtain ⟨text, htext, h⟩ := Except.bind_eq_ok_iff.mp h
  refine ⟨text.toList.dropWhile Text.isWhitespace, ?_, ?_⟩
  · rw [trackPayload, Except.okOr_eq_ok_iff.mp htext, Option.map_some]
  · generalize text.toList.dropWhile Text.isWhitespace = payload at h ⊢
    simp only at h
    split at h
    · next hfirst =>
        obtain ⟨parsed, hparsed, h⟩ := Except.bind_eq_ok_iff.mp h
        obtain ⟨-, -, h⟩ := Except.bind_eq_ok_iff.mp h
        cases h
        rw [trackStorable_xml hfirst, xmlSegments_storable hparsed]
        simp only [segmentsStorable, List.all_nil, Bool.true_and, List.all_eq_true,
          storable_decodeEntities_iff]
    · next hfirst =>
        obtain ⟨parsed, hparsed, h⟩ := Except.bind_eq_ok_iff.mp h
        obtain ⟨-, -, h⟩ := Except.bind_eq_ok_iff.mp h
        cases h
        obtain ⟨events, hevents, hparsed⟩ := Except.bind_eq_ok_iff.mp hparsed
        rw [trackStorable_json3 hfirst (Except.okOr_eq_ok_iff.mp hevents),
          json3Events_storable hparsed]
        rfl
    · cases h

/-- **A transcript holds the character exactly when the title of the video does or it is decoded
from the track.** -/
theorem transcriptAssembly_storable {lib : YoutubeLib} {limits : YoutubeLimits}
    {track : List UInt8} {input : TranscriptInput} {segments : List Segment} {assembly : Assembly}
    {r : CandidateDecision × List BlockTiming}
    (hparse : parseTimedtext lib limits track = .ok segments)
    (h : transcriptAssembly lib { input with segments := segments } limits = .ok (assembly, r)) :
    ∃ payload, trackPayload track = some payload ∧
      (assembly.contents.all storable = true ↔
        input.playerMeta.title.all storable = true ∧ TrackStorable lib payload) := by
  obtain ⟨payload, hpayload, htrack⟩ := parseTimedtext_storable hparse
  obtain ⟨_, hblocks, h⟩ := Except.bind_eq_ok_iff.mp h
  obtain ⟨_, hsegments, h⟩ := Except.bind_eq_ok_iff.mp h
  obtain ⟨⟨blocks, timings⟩, hgroups, h⟩ := Except.bind_eq_ok_iff.mp h
  obtain ⟨-, -, h⟩ := Except.bind_eq_ok_iff.mp h
  cases h
  refine ⟨payload, hpayload, ?_⟩
  have htitle : (normalizedTitle input.playerMeta.title).all storable =
      input.playerMeta.title.all storable := by
    cases input.playerMeta.title with
    | none => rfl
    | some t => exact all_storable_trimmedText t
  rw [Assembly.all_contents, Bool.and_eq_true, htitle,
    groupedBlocks_storable (Except.require_eq_ok_iff.mp hsegments)
      (Except.require_eq_ok_iff.mp hblocks) hgroups, htrack]

/-! ### Conversions -/

/-- The crates that the adapters rest on. -/
structure AdapterLib where
  html : HtmlLib
  pdf : PdfLib
  providers : ProviderLib
  youtube : YoutubeLib

/-- The HTML parser emits no null character in a text node. -/
structure AdapterLib.TextNodesStorable (lib : AdapterLib) : Prop where
  documents : ∀ bytes, (lib.html.parse bytes).TextsStorable
  fragments : lib.providers.FragmentsStorable

/-- A call of an adapter. A transcript is made from the bytes of its track, which take the place
of the segments of the input. -/
inductive Conversion
  | html (input : DocumentInput) (limits : ParserConfig)
  | pdf (input : DocumentInput) (limits : PdfConfig)
  | provider (input : ProviderInput) (limits : ProviderLimits)
  | transcript (track : List UInt8) (input : TranscriptInput) (limits : YoutubeLimits)

namespace Conversion

variable (lib : AdapterLib)

/-- What a call passes to `assemble_document`, if it gets that far. -/
def assembly : Conversion → Option Assembly
  | .html input limits => (htmlAssembly lib.html input limits).toOption.map Prod.fst
  | .pdf input limits => (pdfAssembly lib.pdf input limits).toOption.map Prod.fst
  | .provider input limits => (providerAssembly lib.providers input limits).toOption.map Prod.fst
  | .transcript track input limits =>
      (parseTimedtext lib.youtube limits track).toOption.bind fun segments =>
        (transcriptAssembly lib.youtube { input with segments := segments }
          limits).toOption.map Prod.fst

/-- The document that a call returns. -/
def document : Conversion → Option Document
  | .html input limits => (fromHtml lib.html input limits).toOption.map Extraction.document
  | .pdf input limits => (fromPdf lib.pdf input limits).toOption.map Extraction.document
  | .provider input limits =>
      (fromProvider lib.providers input limits).toOption.map ProviderExtraction.document
  | .transcript track input limits =>
      (parseTimedtext lib.youtube limits track).toOption.bind fun segments =>
        (fromTranscript lib.youtube { input with segments := segments }
          limits).toOption.map TranscriptExtraction.document

/-- The decoded texts that a call copies into its document hold no null character. -/
def SourcesStorable : Conversion → Prop
  | .html _ _ => True
  | .pdf input _ => ∀ file, openPdf lib.pdf input.bytes = .ok file →
      (file.texts lib.pdf).all storable = true
  | .provider input _ =>
      (providerTexts lib.providers input.route input.bytes).all storable = true
  | .transcript track input _ => input.playerMeta.title.all storable = true ∧
      ∀ payload, trackPayload track = some payload → TrackStorable lib.youtube payload

end Conversion

/-- A document without its title and blocks. -/
def Document.withoutContent (document : Document) : Document :=
  { document with title := none, blocks := [] }

/-- **Content that the database does not reject**: no title and no block text that a call passes
to `assemble_document` holds U+0000, and the outbox takes the event of the document whenever it
takes the same event without the title and the blocks. -/
structure Conversion.ContentStorable (lib : AdapterLib) (c : Conversion) : Prop where
  passed : ∀ assembly, c.assembly lib = some assembly → ∀ text ∈ assembly.contents,
    nul ∉ text.toList
  enqueued : ∀ document, c.document lib = some document →
    ∀ (now : Timestamp) (context : CompletionContext) (irBlob : BlobRef) (eventId : Uuid)
      (db : Db) (db' : Db),
      enqueueJson now context documentSubject
        (documentEvent context document.withoutContent irBlob eventId now) db = .ok ((), db') →
      ∃ db'', enqueueJson now context documentSubject
        (documentEvent context document irBlob eventId now) db = .ok ((), db'')

namespace Conversion

variable {lib : AdapterLib}

/-- What a call passes on can be stored exactly when the texts that it copies can. -/
theorem assembly_storable_iff (hlib : lib.TextNodesStorable) {c : Conversion}
    {assembly : Assembly} (h : c.assembly lib = some assembly) :
    assembly.contents.all storable = true ↔ c.SourcesStorable lib := by
  cases c with
  | html input limits =>
      obtain ⟨⟨a, decisions⟩, hresult, rfl⟩ := Option.map_eq_some_iff.mp h
      have hok := Except.toOption_eq_some_iff.mp hresult
      exact iff_of_true (htmlAssembly_storable (hlib.documents _) hok) trivial
  | pdf input limits =>
      obtain ⟨⟨a, decisions⟩, hresult, rfl⟩ := Option.map_eq_some_iff.mp h
      obtain ⟨file, hfile, htexts⟩ :=
        pdfAssembly_storable (Except.toOption_eq_some_iff.mp hresult)
      rw [SourcesStorable, hfile, htexts]
      exact ⟨fun h file' heq => (by cases heq; exact h), fun h => h file rfl⟩
  | provider input limits =>
      obtain ⟨⟨a, r⟩, hresult, rfl⟩ := Option.map_eq_some_iff.mp h
      rw [providerAssembly_storable hlib.fragments (Except.toOption_eq_some_iff.mp hresult),
        SourcesStorable]
  | transcript track input limits =>
      obtain ⟨segments, hsegments, h⟩ := Option.bind_eq_some_iff.mp h
      obtain ⟨⟨a, r⟩, hresult, rfl⟩ := Option.map_eq_some_iff.mp h
      obtain ⟨payload, hpayload, htexts⟩ := transcriptAssembly_storable
        (Except.toOption_eq_some_iff.mp hsegments) (Except.toOption_eq_some_iff.mp hresult)
      rw [SourcesStorable, htexts, hpayload]
      refine and_congr_right fun _ => ⟨fun h payload' heq => ?_, fun h => h payload rfl⟩
      cases heq
      exact h

/-- A document has the title and the texts that its call passed on. -/
theorem contents_of_document {c : Conversion} {document : Document}
    (h : c.document lib = some document) :
    ∃ assembly, c.assembly lib = some assembly ∧ document.title = assembly.title ∧
      document.blocks.map DocumentBlock.text = assembly.blocks.map DocumentBlock.text := by
  cases c with
  | html input limits =>
      obtain ⟨extraction, hresult, rfl⟩ := Option.map_eq_some_iff.mp h
      obtain ⟨⟨a, decisions⟩, hassembly, hresult⟩ :=
        Except.bind_eq_ok_iff.mp (Except.toOption_eq_some_iff.mp hresult)
      obtain ⟨document, hdocument, hresult⟩ := Except.bind_eq_ok_iff.mp hresult
      cases hresult
      refine ⟨a, ?_, assembleDocument_contents hdocument⟩
      rw [assembly, hassembly]
      rfl
  | pdf input limits =>
      obtain ⟨extraction, hresult, rfl⟩ := Option.map_eq_some_iff.mp h
      obtain ⟨⟨a, decisions⟩, hassembly, hresult⟩ :=
        Except.bind_eq_ok_iff.mp (Except.toOption_eq_some_iff.mp hresult)
      obtain ⟨document, hdocument, hresult⟩ := Except.bind_eq_ok_iff.mp hresult
      cases hresult
      refine ⟨a, ?_, assembleDocument_contents (Except.mapError_eq_ok_iff.mp hdocument)⟩
      rw [assembly, hassembly]
      rfl
  | provider input limits =>
      obtain ⟨extraction, hresult, rfl⟩ := Option.map_eq_some_iff.mp h
      rw [fromProvider_eq] at hresult
      obtain ⟨⟨a, r⟩, hassembly, hresult⟩ :=
        Except.bind_eq_ok_iff.mp (Except.toOption_eq_some_iff.mp hresult)
      obtain ⟨document, hdocument, hresult⟩ := Except.bind_eq_ok_iff.mp hresult
      cases hresult
      refine ⟨a, ?_, assembleDocument_contents (Except.mapError_eq_ok_iff.mp hdocument)⟩
      rw [assembly, hassembly]
      rfl
  | transcript track input limits =>
      obtain ⟨segments, hsegments, h⟩ := Option.bind_eq_some_iff.mp h
      obtain ⟨extraction, hresult, rfl⟩ := Option.map_eq_some_iff.mp h
      obtain ⟨⟨a, r⟩, hassembly, hresult⟩ :=
        Except.bind_eq_ok_iff.mp (Except.toOption_eq_some_iff.mp hresult)
      obtain ⟨document, hdocument, hresult⟩ := Except.bind_eq_ok_iff.mp hresult
      cases hresult
      refine ⟨a, ?_, assembleDocument_contents (Except.mapError_eq_ok_iff.mp hdocument)⟩
      rw [assembly, hsegments, Option.bind_some, hassembly]
      rfl

end Conversion

/-- A document can be stored if it can without its content and its content can. -/
theorem Document.texts_storable {document : Document}
    (hrest : document.withoutContent.texts.all storable = true)
    (htitle : document.title.all storable = true)
    (hblocks : (document.blocks.map DocumentBlock.text).all storable = true) :
    document.texts.all storable = true := by
  simp only [texts, withoutContent, List.all_append, Bool.and_eq_true, all_toList_storable]
    at hrest ⊢
  obtain ⟨⟨⟨⟨haddress, -⟩, hlanguage⟩, -⟩, hprovenance⟩ := hrest
  exact ⟨⟨⟨⟨haddress, htitle⟩, hlanguage⟩, hblocks⟩, hprovenance⟩

/-- The outbox takes the event of a document with storable content whenever it takes the event
without the content. -/
theorem enqueueJson_of_withoutContent {document : Document}
    (htitle : document.title.all storable = true)
    (hblocks : (document.blocks.map DocumentBlock.text).all storable = true) {now : Timestamp}
    {context : CompletionContext} {irBlob : BlobRef} {eventId : Uuid} {db db' : Db}
    (h : enqueueJson now context documentSubject
      (documentEvent context document.withoutContent irBlob eventId now) db = .ok ((), db')) :
    ∃ db'', enqueueJson now context documentSubject
      (documentEvent context document irBlob eventId now) db = .ok ((), db'') := by
  obtain ⟨⟨htexts, hchecked, hfresh⟩, -⟩ := enqueueJson_eq_ok_iff.mp h
  obtain ⟨hcorrelation, hrest, hblob⟩ := documentEvent_texts.mp htexts
  have hdocument := Document.texts_storable hrest htitle hblocks
  exact ⟨_, enqueueJson_eq_ok_iff.mpr
    ⟨⟨documentEvent_texts.mpr ⟨hcorrelation, hdocument, hblob⟩, hchecked, hfresh⟩, rfl⟩⟩

/-- **The database takes the content of a call exactly when no text that the call copies holds
U+0000**: none of the title and the page texts of a PDF file, of the title of a Hacker News item,
of the title, the text and the comments of a Reddit post, and of the title and the captions of a
video, whose XML captions must not refer to the character either. HTML documents and the texts of
Hacker News items come from text nodes and are always taken. -/
theorem extracted_content_storable_iff {lib : AdapterLib} (hlib : lib.TextNodesStorable)
    (c : Conversion) :
    c.ContentStorable lib ↔ ((c.assembly lib).isSome = true → c.SourcesStorable lib) := by
  constructor
  · intro hcontent hpassed
    obtain ⟨assembly, hassembly⟩ := Option.isSome_iff_exists.mp hpassed
    refine (Conversion.assembly_storable_iff hlib hassembly).mp (List.all_eq_true.mpr ?_)
    exact fun text htext => storable_iff.mpr (hcontent.passed assembly hassembly text htext)
  · intro hsources
    have hall : ∀ assembly, c.assembly lib = some assembly →
        assembly.contents.all storable = true := by
      intro assembly hassembly
      have hpassed : (c.assembly lib).isSome = true := by rw [hassembly]; rfl
      exact (Conversion.assembly_storable_iff hlib hassembly).mpr (hsources hpassed)
    refine ⟨fun assembly hassembly text htext => ?_, fun document hdocument => ?_⟩
    · exact storable_iff.mp (List.all_eq_true.mp (hall assembly hassembly) text htext)
    · obtain ⟨assembly, hassembly, htitle, hblocks⟩ := Conversion.contents_of_document hdocument
      have hcontents := hall assembly hassembly
      rw [Assembly.contents, List.all_append, Bool.and_eq_true, all_toList_storable] at hcontents
      rw [← htitle, ← hblocks] at hcontents
      exact fun now context irBlob eventId db db' h =>
        enqueueJson_of_withoutContent hcontents.1 hcontents.2 h

/-! ### Example tracks -/

/-- The digests of two documents of one paragraph, a null character and a word. -/
def exampleTrackDocumentLib : DocumentLib where
  sha256 bytes :=
    if bytes = utf8Bytes "[\x7b\"kind\":\"paragraph\",\"text\":\"\\u0000\"\x7d]" then
      ofHex "38bb1009f23b7fcafaad8d482eef86ca98dc67ff5a37a935a74ac6c69088504c".toList
    else if bytes = utf8Bytes "[\x7b\"kind\":\"paragraph\",\"text\":\"hi\"\x7d]" then
      ofHex "293b8dafb05879169f00d41bc30ff17a626a225cb21d2fc2622afd77e5eb4753".toList
    else if (utf8Bytes "ratatoskr.document.v1").isPrefixOf bytes then
      if (utf8Bytes "38bb1009").isSuffixOf (bytes.take 46) then
        ofHex "0d8150e3f914f60be12f7feafbe1d9f8e62cae636c5ac73a1f3564748215798e".toList
      else ofHex "f31dcc43720fd5c7349944c328025120aa1ae84ede91953a7979bef7fa093524".toList
    else if (utf8Bytes "38bb1009").isSuffixOf (bytes.take 40) then
      ofHex "f88a007e81a6f557fe740d96a0b9620557c8efbad2e52904e935135082b25fe8".toList
    else ofHex "a6985e02a73280d14963dfb8739e34f3be055468e75eb68cae436d354be04bcb".toList
  canonicalJson blocks :=
    if blocks = [.paragraph "\x00"] then
      some "[\x7b\"kind\":\"paragraph\",\"text\":\"\\u0000\"\x7d]"
    else if blocks = [.paragraph "hi"] then
      some "[\x7b\"kind\":\"paragraph\",\"text\":\"hi\"\x7d]"
    else none

/-- The crates on XML tracks with times in ticks. -/
def exampleAdapters : AdapterLib where
  html := ⟨exampleTrackDocumentLib, fun _ => ⟨0, []⟩, fun _ => false⟩
  pdf := ⟨exampleTrackDocumentLib, fun _ => none, fun _ => .error .other, fun _ => none⟩
  providers := exampleProviderLib
  youtube :=
    { documents := exampleTrackDocumentLib
      json3 := fun _ => none
      secondsToMillis := fun _ => none
      languageIsValid := fun tag => tag == "en" }

theorem exampleAdapters_textNodes : exampleAdapters.TextNodesStorable where
  documents _ e he := by cases he
  fragments _ texts h := by cases h

/-- A transcript of one caption track in English. -/
def exampleTranscript (track : String) : Conversion :=
  .transcript (utf8Bytes track)
    ⟨2, "https://www.youtube.com/watch?v=dQw4w9WgXcQ", exampleBlob, ⟨none, none, none, []⟩, [],
      "en"⟩ ⟨1000, 1000, 10, 10, 100⟩

/-- A caption of one word. -/
def plainTrack : String := "<p t=\"0\" d=\"1\">hi</p>"

theorem not_names_of_not_mem {c : Char} {text : List Char} (h : '&' ∉ text) : ¬ Names c text := by
  rintro ⟨pre, token, post, rfl, -⟩
  exact h (List.mem_append_right _ List.mem_cons_self)

theorem plainTrack_captions : trackPayload (utf8Bytes plainTrack) = some plainTrack.toList ∧
    captionTexts plainTrack.toList = ["hi".toList] := by
  decide +kernel

theorem plain_track_content_storable :
    exampleAdapters.TextNodesStorable ∧
      ((exampleTranscript plainTrack).assembly exampleAdapters).isSome = true ∧
      (exampleTranscript plainTrack).ContentStorable exampleAdapters := by
  refine ⟨exampleAdapters_textNodes, by decide +kernel,
    (extracted_content_storable_iff exampleAdapters_textNodes _).mpr fun _ => ⟨rfl, ?_⟩⟩
  intro payload hpayload
  rw [plainTrack_captions.1] at hpayload
  rw [← Option.some.inj hpayload, TrackStorable]
  change ∀ raw ∈ captionTexts plainTrack.toList, _
  rw [plainTrack_captions.2]
  intro raw hraw
  rw [List.mem_singleton.mp hraw]
  exact ⟨by decide, not_names_of_not_mem (by decide)⟩

/-- A caption that refers to the null character. -/
def nullTrack : String := "<p t=\"0\" d=\"1\">&#0;</p>"

theorem nullTrack_document : ∃ document,
    (exampleTranscript nullTrack).document exampleAdapters = some document ∧
      document.blocks.map DocumentBlock.text = ["\x00"] ∧
      document.withoutContent.texts.all storable = true := by
  have hany : ((exampleTranscript nullTrack).document exampleAdapters).any (fun document =>
      decide (document.blocks.map DocumentBlock.text = ["\x00"]) &&
        document.withoutContent.texts.all storable) = true := by
    decide +kernel
  obtain ⟨document, hdocument, hcontents⟩ := (Option.any_eq_true _ _).mp hany
  rw [Bool.and_eq_true, decide_eq_true_eq] at hcontents
  exact ⟨document, hdocument, hcontents⟩

/-- The transcript of such a caption holds the null character, and the outbox refuses its event,
though it takes the same event without the title and the blocks. -/
theorem null_reference_refused : ∃ document db',
    (exampleTranscript nullTrack).document exampleAdapters = some document ∧
      document.blocks.map DocumentBlock.text = ["\x00"] ∧
      enqueueJson 0 exampleContext documentSubject
        (documentEvent exampleContext document.withoutContent exampleBlob 5 0) Db.empty =
        .ok ((), db') ∧
      (∀ r, enqueueJson 0 exampleContext documentSubject
        (documentEvent exampleContext document exampleBlob 5 0) Db.empty ≠ .ok r) ∧
      ¬ (exampleTranscript nullTrack).ContentStorable exampleAdapters := by
  obtain ⟨document, hdocument, hblocks, hrest⟩ := nullTrack_document
  have hnul : "\x00" ∈ document.texts := by
    have hmem : "\x00" ∈ document.blocks.map DocumentBlock.text := by
      rw [hblocks]
      exact List.mem_singleton_self _
    rw [Document.texts]
    exact List.mem_append_left _ (List.mem_append_right _ hmem)
  have htexts : (documentEvent exampleContext document.withoutContent exampleBlob 5 0).texts.all
      storable = true := by
    refine documentEvent_texts.mpr ⟨?_, hrest, ?_⟩
    · decide
    · decide
  have hfresh : Db.empty.FreshIn Db.empty.nextUuid 5 := ⟨List.not_mem_nil, List.not_mem_nil⟩
  obtain ⟨db', hwithout⟩ : ∃ db', enqueueJson 0 exampleContext documentSubject
      (documentEvent exampleContext document.withoutContent exampleBlob 5 0) Db.empty =
      .ok ((), db') :=
    ⟨_, enqueueJson_eq_ok_iff.mpr ⟨⟨htexts, by rfl, hfresh⟩, rfl⟩⟩
  have hrefused : ∀ r, enqueueJson 0 exampleContext documentSubject
      (documentEvent exampleContext document exampleBlob 5 0) Db.empty ≠ .ok r := by
    intro r h
    obtain ⟨⟨htexts, -⟩, -⟩ := enqueueJson_eq_ok_iff.mp h
    have hstore := (documentEvent_texts.mp htexts).2.1
    exact absurd (List.all_eq_true.mp hstore _ hnul) (by decide)
  refine ⟨document, db', hdocument, hblocks, hwithout, hrefused, fun h => ?_⟩
  obtain ⟨db'', hok⟩ := h.enqueued document hdocument 0 exampleContext exampleBlob 5 _ _ hwithout
  exact hrefused _ hok

end Extractor
