import Extractor.Providers
import Extractor.Lib.Forest

/-!
# The comments of a provider payload

A Hacker News item holds its comments in a tree, and `collect_comments` walks all of it. A Reddit
payload holds the comments of a post in a second listing, with the replies to each comment in a
listing of its own; the loop that follows replies is begun at the post alone, and the comments
beside the post are read without what replies to them.

Both conversions add one paragraph after the other within the same budget, so what they return is
said by the list of texts that they read.

## Main definitions

* `pushParagraphs`: the paragraphs of some texts, within the budget.
* `AlgoliaItem.texts`, `Posting.comments`: the texts of a payload.

## Main results

* `collectComments_eq`, `walkQueue_eq`, `pushComments_eq`: what each loop reads.
-/

namespace Extractor

/-! ### Paragraphs within the budget -/

section Budget

variable (limits : ProviderLimits)

/-- The paragraphs of some texts, within the budget. -/
def pushParagraphs (texts : List String) (blocks : List DocumentBlock) :
    Except ProviderError (List DocumentBlock) :=
  if blocks.length + texts.length ≤ max blocks.length limits.maxBlocks then
    .ok (blocks ++ texts.map paragraphBlock)
  else .error .resourceLimit

variable {limits} {blocks : List DocumentBlock}

theorem pushParagraphs_nil : pushParagraphs limits [] blocks = .ok blocks := by
  rw [pushParagraphs, List.length_nil, Nat.add_zero, if_pos (Nat.le_max_left _ _), List.map_nil,
    List.append_nil]

/-- One text, or none. -/
theorem pushParagraph_eq (text : Option String) :
    pushParagraph limits text blocks = pushParagraphs limits text.toList blocks := by
  cases text with
  | none => exact pushParagraphs_nil.symm
  | some text =>
      rw [pushParagraph, pushParagraphs]
      by_cases hfull : limits.maxBlocks ≤ blocks.length
      · have hover : ¬ blocks.length + 1 ≤ max blocks.length limits.maxBlocks := by
          rw [Nat.max_eq_left hfull]
          exact Nat.not_succ_le_self _
        exact (if_pos hfull).trans (if_neg hover).symm
      · have hroom : blocks.length + 1 ≤ max blocks.length limits.maxBlocks :=
          Nat.le_trans (Nat.lt_of_not_le hfull) (Nat.le_max_right _ _)
        exact (if_neg hfull).trans (if_pos hroom).symm

/-- **Some texts and then some more** are all of them. -/
theorem pushParagraphs_bind (texts more : List String) :
    (pushParagraphs limits texts blocks >>= pushParagraphs limits more) =
      pushParagraphs limits (texts ++ more) blocks := by
  by_cases hfirst : blocks.length + texts.length ≤ max blocks.length limits.maxBlocks
  · rw [pushParagraphs, if_pos hfirst]
    change pushParagraphs limits more (blocks ++ texts.map paragraphBlock) = _
    rw [pushParagraphs, pushParagraphs, List.length_append, List.length_map, List.length_append]
    have hiff : blocks.length + texts.length + more.length ≤
        max (blocks.length + texts.length) limits.maxBlocks ↔
          blocks.length + (texts.length + more.length) ≤ max blocks.length limits.maxBlocks := by
      omega
    by_cases hall : blocks.length + (texts.length + more.length) ≤
        max blocks.length limits.maxBlocks
    · rw [if_pos hall, if_pos (hiff.mpr hall), List.map_append, List.append_assoc]
    · rw [if_neg hall, if_neg (mt hiff.mp hall)]
  · have hall : ¬ blocks.length + (texts ++ more).length ≤ max blocks.length limits.maxBlocks := by
      rw [List.length_append]
      omega
    rw [pushParagraphs, if_neg hfirst, pushParagraphs, if_neg hall]
    rfl

end Budget

/-! ### A story and a post -/

/-- A story with a comment, a reply to it, and a second comment. -/
@[irreducible] def storyPayload : List UInt8 :=
  utf8Bytes ("\x7b\"id\":1,\"title\":\"A story\",\"children\":[" ++
    "\x7b\"id\":2,\"text\":\"First\",\"children\":[\x7b\"id\":3,\"text\":\"Reply\"\x7d]\x7d," ++
    "\x7b\"id\":4,\"text\":\"Second\"\x7d]\x7d")

/-- The item of the story. -/
def storyItem : AlgoliaItem :=
  ⟨[⟨[⟨[], some 3, some "Reply", none, none⟩], some 2, some "First", none, none⟩,
    ⟨[], some 4, some "Second", none, none⟩], some 1, none, some "A story", none⟩

/-- A post with a comment and a reply to it. -/
@[irreducible] def threadPayload : List UInt8 :=
  utf8Bytes ("[\x7b\"data\":\x7b\"children\":[\x7b\"kind\":\"t3\",\"data\":\x7b\"title\":\"A post\"\x7d\x7d]" ++
    "\x7d\x7d,\x7b\"data\":\x7b\"children\":[\x7b\"kind\":\"t1\",\"data\":\x7b\"body\":\"First\",\"replies\":" ++
    "\x7b\"data\":\x7b\"children\":[\x7b\"kind\":\"t1\",\"data\":\x7b\"body\":\"Reply\"\x7d\x7d]\x7d\x7d" ++
    "\x7d\x7d]\x7d\x7d]")

/-- The post. -/
def threadPost : Posting := ⟨"t3", none, none, some "A post", none, []⟩

/-- The comment, with the reply. -/
def threadComment : Posting :=
  ⟨"t1", some "First", none, none, none, [⟨"t1", some "Reply", none, none, none, []⟩]⟩

/-- What the crates find in the two payloads; the texts are without markup. -/
def payloadLib : ProviderLib where
  urlLib := exampleLib
  documents := ⟨fun _ => [], fun _ => none⟩
  algoliaItem bytes := if bytes = storyPayload then some storyItem else none
  listings bytes := if bytes = threadPayload then some [⟨[threadPost]⟩, ⟨[threadComment]⟩] else none
  bodyTexts html := some [html]
  addressIsValid _ := true
  queryPairs _ := []

/-- A post with a text and two comments. -/
@[irreducible] def flatPayload : List UInt8 :=
  utf8Bytes ("[\x7b\"data\":\x7b\"children\":[\x7b\"kind\":\"t3\",\"data\":\x7b\"selftext\":\"Text\"," ++
    "\"title\":\"A post\"\x7d\x7d]\x7d\x7d,\x7b\"data\":\x7b\"children\":[" ++
    "\x7b\"kind\":\"t1\",\"data\":\x7b\"body\":\"First\"\x7d\x7d," ++
    "\x7b\"kind\":\"t1\",\"data\":\x7b\"body\":\"Second\"\x7d\x7d]\x7d\x7d]")

/-- The post with a text. -/
def flatPost : Posting := ⟨"t3", none, some "Text", some "A post", none, []⟩

/-- Its comments. -/
def flatComments : List Posting :=
  [⟨"t1", some "First", none, none, none, []⟩, ⟨"t1", some "Second", none, none, none, []⟩]

/-- What the crates find in this payload. -/
def flatLib : ProviderLib :=
  { payloadLib with
    listings := fun bytes =>
      if bytes = flatPayload then some [⟨[flatPost]⟩, ⟨flatComments⟩] else none }

/-! ### Hacker News -/

/-- The number of items under some items. -/
def AlgoliaItem.count : List AlgoliaItem → ℕ
  | [] => 0
  | ⟨children, _, _, _, _⟩ :: rest => 1 + count children + count rest

theorem AlgoliaItem.count_cons (item : AlgoliaItem) (rest : List AlgoliaItem) :
    count (item :: rest) = 1 + count item.children + count rest := by
  obtain ⟨children, id, text, title, url⟩ := item
  rw [count]

theorem AlgoliaItem.sum_weights (items : List AlgoliaItem) :
    (items.map fun item => 1 + count item.children).sum = count items := by
  induction items with
  | nil => rw [count, List.map_nil, List.sum_nil]
  | cons item items ih => rw [List.map_cons, List.sum_cons, ih, count_cons]

/-- Items and their comments. -/
def AlgoliaItem.forest : Forest AlgoliaItem where
  children := AlgoliaItem.children
  weight item := 1 + count item.children
  lighter item := by
    rw [AlgoliaItem.sum_weights]
    omega

section Items

variable (lib : ProviderLib)

/-- The text of an item that is not empty, as plain text. -/
def AlgoliaItem.plainText (item : AlgoliaItem) : Option String :=
  item.text.bind (plainTextFragment lib)

/-- The texts of some items and of the comments under them, in document order. -/
def AlgoliaItem.texts (items : List AlgoliaItem) : List String :=
  (AlgoliaItem.forest.preorder items).filterMap (plainText lib)

variable {lib} {limits : ProviderLimits} {blocks : List DocumentBlock}

theorem AlgoliaItem.texts_cons (item : AlgoliaItem) (rest : List AlgoliaItem) :
    texts lib (item :: rest) =
      (item.plainText lib).toList ++ (texts lib item.children ++ texts lib rest) := by
  rw [texts, Forest.preorder_cons, List.filterMap_cons, List.filterMap_append, texts, texts]
  cases item.plainText lib <;> rfl

/-- **The recursion** reads the comments in document order. -/
theorem collectComments_eq (items : List AlgoliaItem) (blocks : List DocumentBlock) :
    collectComments lib limits items blocks =
      pushParagraphs limits (AlgoliaItem.texts lib items) blocks := by
  induction items, blocks using collectComments.induct with
  | case1 blocks =>
      rw [collectComments, AlgoliaItem.texts, Forest.preorder_nil, List.filterMap_nil,
        pushParagraphs_nil]
  | case2 children id text title url rest blocks ihc ihr =>
      rw [collectComments, AlgoliaItem.texts_cons, ← pushParagraphs_bind, ← pushParagraph_eq]
      refine bind_congr fun pushed => ?_
      rw [ihc, ← pushParagraphs_bind]
      exact bind_congr ihr

end Items

/-- A title that is not blank is trimmed. -/
theorem trimmedTitle_some {raw : String} (h : Text.trim raw.toList ≠ []) :
    trimmedTitle (some raw) = .ok (String.ofList (Text.trim raw.toList)) := by
  refine Except.bind_eq_ok_iff.mpr ⟨raw, rfl, Except.bind_eq_ok_iff.mpr ⟨(), ?_, rfl⟩⟩
  exact Except.require_eq_ok_iff.mpr h

/-- **A Hacker News item** becomes its title and one paragraph for each text, of the item and then of
its comments in document order, where they fit the budget, and is refused otherwise. -/
theorem from_algolia_texts (lib : ProviderLib) (limits : ProviderLimits) {bytes : List UInt8}
    {root : AlgoliaItem} {raw : String} (hbytes : bytes.length ≤ limits.maxInputBytes)
    (hroot : lib.algoliaItem bytes = some root) (hid : root.id ≠ none)
    (htitle : root.title = some raw) (hraw : Text.trim raw.toList ≠ []) :
    fromAlgolia lib limits bytes =
      let title := String.ofList (Text.trim raw.toList)
      let texts := AlgoliaItem.texts lib [root]
      let blocks := headingBlock 1 title :: texts.map paragraphBlock
      if 1 + texts.length ≤ max 1 limits.maxBlocks then
        .ok ⟨some title, root.url, blocks,
          evaluatePlainText hackerNewsStrategy blocks (some title)⟩
      else .error .resourceLimit := by
  have hall : AlgoliaItem.texts lib [root] =
      (root.plainText lib).toList ++ AlgoliaItem.texts lib root.children := by
    rw [AlgoliaItem.texts_cons]
    simp [AlgoliaItem.texts, Forest.preorder_nil]
  have hpushed : ∀ title, (pushFragment lib limits root.text [headingBlock 1 title] >>=
      collectComments lib limits root.children) =
        pushParagraphs limits (AlgoliaItem.texts lib [root]) [headingBlock 1 title] := by
    intro title
    rw [hall, ← pushParagraphs_bind, ← pushParagraph_eq]
    exact bind_congr fun pushed => collectComments_eq _ _
  have hfrom : fromAlgolia lib limits bytes = (do
      let title := String.ofList (Text.trim raw.toList)
      let blocks ← pushParagraphs limits (AlgoliaItem.texts lib [root]) [headingBlock 1 title]
      return ⟨some title, root.url, blocks,
        evaluatePlainText hackerNewsStrategy blocks (some title)⟩) := by
    have hsome : root.id.isSome = true := Option.isSome_iff_ne_none.mpr hid
    simp only [fromAlgolia, hroot, okOr, require, if_pos hbytes, pure_bind, if_pos hsome, htitle,
      trimmedTitle_some hraw, ← hpushed, bind_assoc]
    rfl
  rw [hfrom]
  dsimp only
  rw [pushParagraphs, List.length_singleton]
  split <;> rfl

theorem texts_storyItem : AlgoliaItem.texts payloadLib [storyItem] = ["First", "Reply", "Second"] := by
  have hfirst : plainTextFragment payloadLib "First" = some "First" := by decide +kernel
  have hreply : plainTextFragment payloadLib "Reply" = some "Reply" := by decide +kernel
  have hsecond : plainTextFragment payloadLib "Second" = some "Second" := by decide +kernel
  have hnil : AlgoliaItem.texts payloadLib [] = [] := by
    rw [AlgoliaItem.texts, Forest.preorder_nil, List.filterMap_nil]
  simp [storyItem, AlgoliaItem.texts_cons, hnil, AlgoliaItem.plainText, hfirst, hreply, hsecond]

theorem from_algolia_texts_story :
    fromAlgolia payloadLib ⟨1000, 4⟩ storyPayload =
      let blocks := [headingBlock 1 "A story", paragraphBlock "First", paragraphBlock "Reply",
        paragraphBlock "Second"]
      .ok ⟨some "A story", none, blocks, evaluatePlainText hackerNewsStrategy blocks
        (some "A story")⟩ := by
  have hlength : storyPayload.length ≤ 1000 := by
    rw [storyPayload, length_utf8Bytes]
    decide +kernel
  have htitle : String.ofList (Text.trim "A story".toList) = "A story" := by decide +kernel
  have hroot : payloadLib.algoliaItem storyPayload = some storyItem := by
    simp only [payloadLib, if_true]
  have hraw : Text.trim "A story".toList ≠ [] := by decide +kernel
  rw [from_algolia_texts payloadLib ⟨1000, 4⟩ hlength hroot (by decide) rfl hraw, htitle,
    texts_storyItem]
  rfl

/-! ### Reddit -/

theorem Posting.sum_weights (postings : List Posting) :
    (postings.map fun p => 1 + count p.replies).sum = count postings := by
  induction postings with
  | nil => rw [count, List.map_nil, List.sum_nil]
  | cons p postings ih => rw [List.map_cons, List.sum_cons, ih, count_cons]

/-- Postings and their replies. -/
def Posting.forest : Forest Posting where
  children := Posting.replies
  weight p := 1 + count p.replies
  lighter p := by
    rw [Posting.sum_weights]
    omega

/-- A text that is not blank, with its white space normalized. -/
def normalizedBody (text : Option String) : Option String :=
  ((text.map fun t => Text.trim t.toList).filter fun t => t ≠ []).map fun t =>
    joinWords (Text.splitWhitespace t)

/-- The text of a comment that is not blank. -/
def Posting.commentText (p : Posting) : Option String :=
  if p.kind = "t1" then normalizedBody p.body else none

/-- The texts of the comments among some postings and in the replies to them, at any depth. -/
def Posting.commentTexts (postings : List Posting) : List String :=
  (Posting.forest.preorder postings).filterMap commentText

/-- The texts of the comments in the replies to some postings, at any depth. -/
def Posting.replyTexts (postings : List Posting) : List String :=
  commentTexts (postings.flatMap replies)

section Postings

variable {limits : ProviderLimits} {blocks : List DocumentBlock}

theorem Posting.commentTexts_append (postings rest : List Posting) :
    commentTexts (postings ++ rest) = commentTexts postings ++ commentTexts rest := by
  rw [commentTexts, Forest.preorder_append, List.filterMap_append, commentTexts, commentTexts]

/-- The comments under some postings are those among them and those that reply. -/
theorem Posting.commentTexts_perm (postings : List Posting) :
    (commentTexts postings).Perm (postings.filterMap commentText ++ replyTexts postings) := by
  rw [replyTexts, commentTexts, commentTexts, ← List.filterMap_append]
  exact (Posting.forest.preorder_perm postings).filterMap _

theorem pushText_eq (text : Option String) :
    pushText limits text blocks = pushParagraphs limits (normalizedBody text).toList blocks :=
  pushParagraph_eq _

/-- What either loop does with one posting. -/
theorem pushComment_bind (p : Posting)
    (f : List DocumentBlock → Except ProviderError (List DocumentBlock)) :
    (if p.kind = "t1" then pushText limits p.body blocks >>= f else f blocks) =
      (pushParagraphs limits p.commentText.toList blocks >>= f) := by
  rw [Posting.commentText]
  by_cases hkind : p.kind = "t1"
  · rw [if_pos hkind, if_pos hkind, pushText_eq]
  · rw [if_neg hkind, if_neg hkind, Option.toList_none, pushParagraphs_nil]
    rfl

/-- **The queue** reads the postings that it holds and all replies, level by level. -/
theorem walkQueue_eq (queue : List Posting) (blocks : List DocumentBlock) :
    walkQueue limits queue blocks =
      pushParagraphs limits ((Posting.forest.breadthFirst queue).filterMap Posting.commentText)
        blocks := by
  induction queue using Forest.breadthFirst.induct Posting.forest generalizing blocks with
  | case1 => rw [walkQueue, Forest.breadthFirst_nil, List.filterMap_nil, pushParagraphs_nil]
  | case2 p rest ih =>
      have hcons : (Posting.forest.breadthFirst (p :: rest)).filterMap Posting.commentText =
          p.commentText.toList ++
            (Posting.forest.breadthFirst (rest ++ p.replies)).filterMap Posting.commentText := by
        rw [Forest.breadthFirst_cons, List.filterMap_cons]
        cases p.commentText <;> rfl
      rw [walkQueue, hcons, ← pushParagraphs_bind]
      exact (pushComment_bind p _).trans (bind_congr ih)

/-- **The flat loop** reads the postings without the replies to them. -/
theorem pushComments_eq (postings : List Posting) (blocks : List DocumentBlock) :
    pushComments limits postings blocks =
      pushParagraphs limits (postings.filterMap Posting.commentText) blocks := by
  induction postings generalizing blocks with
  | nil => rw [pushComments, List.filterMap_nil, pushParagraphs_nil]
  | cons p rest ih =>
      have hcons : (p :: rest).filterMap Posting.commentText =
          p.commentText.toList ++ rest.filterMap Posting.commentText := by
        rw [List.filterMap_cons]
        cases p.commentText <;> rfl
      rw [pushComments, hcons, ← pushParagraphs_bind]
      exact (pushComment_bind p _).trans (bind_congr ih)

variable {lib : ProviderLib} {bytes : List UInt8} {listings : List Listing} {post : Posting}
  {before after : List Posting} {raw : String}

/-- The texts that the conversion reads: those of the post and of the replies to it, and those of the
comments beside it. -/
def keptTexts (post : Posting) (after : List Posting) : List String :=
  (normalizedBody post.selftext).toList ++
    ((Posting.forest.breadthFirst [post]).filterMap Posting.commentText ++
      after.filterMap Posting.commentText)

/-- What `from_listings` returns for a payload with a post. -/
theorem fromListings_eq (hlistings : lib.listings bytes = some listings)
    (hpost : listings.flatMap Listing.children = before ++ post :: after)
    (hkind : post.kind = "t3") (hbefore : ∀ p ∈ before, p.kind ≠ "t3")
    (htitle : post.title = some raw) (hraw : Text.trim raw.toList ≠ []) :
    fromListings lib limits bytes = (do
      let title := String.ofList (Text.trim raw.toList)
      let blocks ← pushParagraphs limits (keptTexts post after) [headingBlock 1 title]
      return ⟨some title, post.url, blocks,
        evaluatePlainText redditStrategy blocks (some title)⟩) := by
  have hfound : (before ++ post :: after).dropWhile (fun p => p.kind != "t3") = post :: after := by
    have hskip : ∀ p ∈ before, (p.kind != "t3") = true := fun p hp => bne_iff_ne.mpr (hbefore p hp)
    have hstop : (post.kind != "t3") = false := by simp [hkind]
    rw [List.dropWhile_append_of_pos hskip, List.dropWhile_cons, hstop]
    rfl
  have hpushed : ∀ title, (pushText limits post.selftext [headingBlock 1 title] >>= fun blocks =>
      walkQueue limits [post] blocks >>= pushComments limits after) =
        pushParagraphs limits (keptTexts post after) [headingBlock 1 title] := by
    intro title
    rw [keptTexts, ← pushParagraphs_bind, pushText_eq]
    refine bind_congr fun blocks => ?_
    rw [← pushParagraphs_bind, walkQueue_eq]
    exact bind_congr fun blocks => pushComments_eq _ _
  simp only [fromListings, hlistings, okOr, pure_bind, hpost, hfound, List.head?_cons, htitle,
    trimmedTitle_some hraw, List.tail_cons, ← hpushed, bind_assoc]
  rfl

end Postings

theorem paragraphBlock_injective : Function.Injective paragraphBlock := by
  intro text text' h
  exact (DocumentBlock.paragraph.inj h).2

/-- **No comment is lost**: the blocks are the title, the text of the post, and one paragraph for
every comment at any depth; or the payload is refused, and has more of them than the budget. -/
def LosesNoComment (limits : ProviderLimits) (title : String) (post : Posting)
    (postings : List Posting) : Except ProviderError AdapterExtraction → Prop
  | .ok extraction => ∃ comments : List String, comments.Perm (Posting.commentTexts postings) ∧
      extraction.blocks = headingBlock 1 title ::
        ((normalizedBody post.selftext).toList ++ comments).map paragraphBlock
  | .error e => e = .resourceLimit ∧ limits.maxBlocks <
      1 + (normalizedBody post.selftext).toList.length + (Posting.commentTexts postings).length

/-- **Comments are kept** exactly when none stands before the post, and none replies to a comment
beside it; or what the conversion reads is over the budget already. -/
theorem listing_comments_kept_iff (lib : ProviderLib) (limits : ProviderLimits) {bytes : List UInt8}
    {listings : List Listing} {post : Posting} {before after : List Posting} {raw : String}
    (hlistings : lib.listings bytes = some listings)
    (hpost : listings.flatMap Listing.children = before ++ post :: after)
    (hkind : post.kind = "t3") (hbefore : ∀ p ∈ before, p.kind ≠ "t3")
    (htitle : post.title = some raw) (hraw : Text.trim raw.toList ≠ []) :
    LosesNoComment limits (String.ofList (Text.trim raw.toList)) post
        (listings.flatMap Listing.children) (fromListings lib limits bytes) ↔
      (Posting.commentTexts before = [] ∧ Posting.replyTexts after = []) ∨
        max 1 limits.maxBlocks < 1 + (keptTexts post after).length := by
  have hwalk := (Posting.forest.breadthFirst_perm [post]).filterMap Posting.commentText
  -- every comment is before the post, kept, or a reply beside the post
  have hall : (Posting.commentTexts (before ++ post :: after)).Perm
      ((Posting.commentTexts before ++ Posting.replyTexts after) ++
        ((Posting.forest.breadthFirst [post]).filterMap Posting.commentText ++
          after.filterMap Posting.commentText)) := by
    have hsplit : Posting.commentTexts (before ++ post :: after) = Posting.commentTexts before ++
        (Posting.commentTexts [post] ++ Posting.commentTexts after) := by
      rw [← Posting.commentTexts_append, ← Posting.commentTexts_append, List.singleton_append]
    rw [hsplit, List.perm_iff_count]
    intro text
    have hpostCount : List.count text _ = List.count text (Posting.commentTexts [post]) :=
      hwalk.count_eq text
    have hafterCount := (Posting.commentTexts_perm after).count_eq text
    simp only [List.count_append] at hafterCount ⊢
    omega
  rw [fromListings_eq hlistings hpost hkind hbefore htitle hraw, hpost]
  dsimp only
  rw [pushParagraphs, List.length_singleton]
  by_cases hfits : 1 + (keptTexts post after).length ≤ max 1 limits.maxBlocks
  · rw [if_pos hfits, or_iff_left (Nat.not_lt.mpr hfits)]
    constructor
    · rintro ⟨comments, hcomments, hblocks⟩
      have htexts := List.map_injective_iff.mpr paragraphBlock_injective (List.cons.inj hblocks).2
      obtain rfl := List.append_cancel_left htexts
      have hlength := (hcomments.trans hall).length_eq
      simp only [List.length_append] at hlength
      exact ⟨List.eq_nil_of_length_eq_zero (by omega), List.eq_nil_of_length_eq_zero (by omega)⟩
    · rintro ⟨hnone, hnone'⟩
      rw [hnone, hnone'] at hall
      exact ⟨_, hall.symm, rfl⟩
  · rw [if_neg hfits]
    have hover := Nat.lt_of_not_le hfits
    refine iff_of_true ⟨rfl, ?_⟩ (.inr hover)
    have hlength := hall.length_eq
    rw [keptTexts, List.length_append] at hover
    rw [hlength]
    simp only [List.length_append] at hover ⊢
    omega

section Thread

theorem payloadLib_listings :
    payloadLib.listings threadPayload = some [⟨[threadPost]⟩, ⟨[threadComment]⟩] := by
  simp only [payloadLib, if_true]

theorem normalizedBody_first : normalizedBody (some "First") = some "First" := by decide +kernel

theorem normalizedBody_reply : normalizedBody (some "Reply") = some "Reply" := by decide +kernel

theorem keptTexts_thread : keptTexts threadPost [threadComment] = ["First"] := by
  have hpost : Posting.forest.breadthFirst [threadPost] = [threadPost] := by
    rw [Forest.breadthFirst_cons]
    change threadPost :: Posting.forest.breadthFirst [] = _
    rw [Forest.breadthFirst_nil]
  rw [keptTexts, hpost]
  simp [threadPost, threadComment, Posting.commentText, normalizedBody_first]
  rfl

theorem commentTexts_thread : Posting.commentTexts [threadPost, threadComment] = ["First", "Reply"] := by
  simp [Posting.commentTexts, Forest.preorder_cons, Forest.preorder_nil, Posting.forest, threadPost,
    threadComment, Posting.commentText, normalizedBody_first, normalizedBody_reply]

theorem trim_threadTitle : String.ofList (Text.trim "A post".toList) = "A post" ∧
    Text.trim "A post".toList ≠ [] := by
  decide +kernel

theorem threadListings_eq : [Listing.mk [threadPost], ⟨[threadComment]⟩].flatMap Listing.children =
    [] ++ threadPost :: [threadComment] :=
  rfl

end Thread

/-- The reply is lost: the payload has a comment and a reply to it, and the document one of them. -/
theorem reply_to_comment_lost :
    (∃ extraction, fromListings payloadLib ⟨1000, 10⟩ threadPayload = .ok extraction ∧
        extraction.blocks = [headingBlock 1 "A post", paragraphBlock "First"]) ∧
      Posting.commentTexts [threadPost, threadComment] = ["First", "Reply"] ∧
      ¬ LosesNoComment ⟨1000, 10⟩ "A post" threadPost [threadPost, threadComment]
        (fromListings payloadLib ⟨1000, 10⟩ threadPayload) := by
  obtain ⟨htitle, hraw⟩ := trim_threadTitle
  have hfrom : fromListings payloadLib ⟨1000, 10⟩ threadPayload = _ :=
    fromListings_eq payloadLib_listings threadListings_eq rfl (fun _ h => nomatch h) rfl hraw
  rw [htitle, keptTexts_thread] at hfrom
  have hblocks : pushParagraphs ⟨1000, 10⟩ ["First"] [headingBlock 1 "A post"] =
      .ok [headingBlock 1 "A post", paragraphBlock "First"] := if_pos (by decide)
  dsimp only at hfrom
  rw [hblocks] at hfrom
  refine ⟨⟨_, hfrom, rfl⟩, commentTexts_thread, ?_⟩
  rw [hfrom]
  rintro ⟨comments, hcomments, hblocks⟩
  rw [commentTexts_thread] at hcomments
  have hlength : 2 = (((normalizedBody threadPost.selftext).toList ++ comments).map
      paragraphBlock).length + 1 := congrArg List.length hblocks
  rw [List.length_map, List.length_append, hcomments.length_eq] at hlength
  exact absurd hlength (by decide)

theorem flatLib_listings : flatLib.listings flatPayload = some [⟨[flatPost]⟩, ⟨flatComments⟩] := by
  simp only [flatLib, if_true]

theorem flatListings_eq : [Listing.mk [flatPost], ⟨flatComments⟩].flatMap Listing.children =
    [] ++ flatPost :: flatComments :=
  rfl

theorem commentTexts_nil : Posting.commentTexts [] = [] := by
  simp [Posting.commentTexts, Forest.preorder_nil]

theorem replyTexts_flat : Posting.replyTexts flatComments = [] :=
  commentTexts_nil

/-- A post whose comments have no replies keeps them, and one that is over its budget is refused. -/
theorem listing_comments_kept_iff_flat :
    LosesNoComment ⟨1000, 10⟩ "A post" flatPost (flatPost :: flatComments)
        (fromListings flatLib ⟨1000, 10⟩ flatPayload) ∧
      LosesNoComment ⟨1000, 1⟩ "A post" threadPost [threadPost, threadComment]
        (fromListings payloadLib ⟨1000, 1⟩ threadPayload) := by
  have hflat := listing_comments_kept_iff flatLib ⟨1000, 10⟩ flatLib_listings flatListings_eq rfl
    (fun _ h => nomatch h) rfl trim_threadTitle.2
  have hthread := listing_comments_kept_iff payloadLib ⟨1000, 1⟩ payloadLib_listings
    threadListings_eq rfl (fun _ h => nomatch h) rfl trim_threadTitle.2
  rw [keptTexts_thread] at hthread
  have hkept := hflat.mpr (.inl ⟨commentTexts_nil, replyTexts_flat⟩)
  have hrefused := hthread.mpr (.inr (by decide))
  rw [trim_threadTitle.1] at hkept hrefused
  exact ⟨hkept, hrefused⟩

end Extractor
