import Extractor.Html
import Extractor.Lib.Choice

/-!
# The choice among the candidates of a page

`from_html` finds the best decision by a fold, looks its candidate up by the name of its strategy,
looks the selected one up again by its strategy, and marks the decisions by comparing names. The
names are distinct, so the four steps agree on one candidate.

## Main results

* `winner_eq_some_iff`: the fold finds the first accepted decision of the highest score.
* `fromHtml_selects`: what every conversion within the limits comes to.
* `from_html_selects`: when it succeeds, and what it shows then, for a page whose blocks can be
  numbered.
-/

namespace Extractor

open Choice

/-! ### The candidates -/

/-- The semantic candidate is one of the containers of the page, or there is none. -/
theorem semanticCandidate_cases (dom : HtmlDom) :
    semanticCandidate dom = emptyCandidate .semantic ∨
      ∃ e ∈ dom.elements, isContainer e = true ∧
        semanticCandidate dom = candidateOf .semantic e := by
  rw [semanticCandidate]
  cases hroot : List.findSome? _ _ with
  | none => exact .inl rfl
  | some e =>
      obtain ⟨name, hname, hfind⟩ := List.exists_of_findSome?_eq_some hroot
      obtain ⟨he, hbeq⟩ := List.mem_filter.mp (List.mem_of_find?_eq_some hfind)
      refine .inr ⟨e, he, ?_, rfl⟩
      rw [isContainer, List.contains_iff_mem, beq_iff_eq.mp hbeq]
      exact List.mem_append_left ["section", "div", "body", "html"] hname

theorem semanticCandidate_strategy (dom : HtmlDom) :
    (semanticCandidate dom).strategy = .semantic := by
  rcases semanticCandidate_cases dom with h | ⟨e, -, -, h⟩
  · rw [h]
    rfl
  · rw [h]
    rfl

/-- A fold that keeps the best so far, or takes the next element, ends with an element. -/
theorem mem_of_foldl_choice {α : Type} {step : Option α → α → Option α} {p : List α}
    (hstep : ∀ best z y, step best z = some y → y = z ∨ best = some y) (rest : List α)
    (best : Option α) (hbest : ∀ y, best = some y → y ∈ p) (hrest : ∀ y ∈ rest, y ∈ p) (y : α)
    (h : rest.foldl step best = some y) : y ∈ p := by
  induction rest generalizing best with
  | nil => exact hbest y h
  | cons z rest ih =>
      refine ih (step best z) ?_ (fun y hy => hrest y (List.mem_cons_of_mem _ hy)) h
      intro y hy
      rcases hstep best z y hy with rfl | hkept
      · exact hrest y List.mem_cons_self
      · exact hbest y hkept

theorem mem_of_maxByScore {α : Type} {scored : List (ℕ × α)} {x : ℕ × α}
    (h : maxByScore scored = some x) : x ∈ scored := by
  unfold maxByScore at h
  refine mem_of_foldl_choice ?_ scored none (fun _ hy => by cases hy) (fun _ hy => hy) x h
  intro best z y hy
  cases best with
  | none => exact .inl (Option.some.inj hy).symm
  | some b =>
      dsimp only at hy
      split at hy
      · exact .inl (Option.some.inj hy).symm
      · exact .inr hy

/-- The best container is one of the page, or there is none. -/
theorem bestContainer_cases (dom : HtmlDom) (strategy : Strategy) (score : ℕ → ℕ → ℕ) :
    bestContainer dom strategy score = emptyCandidate strategy ∨
      ∃ e ∈ dom.elements, isContainer e = true ∧
        bestContainer dom strategy score = candidateOf strategy e := by
  rw [bestContainer]
  cases hbest : maxByScore _ with
  | none => exact .inl rfl
  | some x =>
      obtain ⟨e, he, rfl⟩ := List.mem_map.mp (mem_of_maxByScore hbest)
      exact .inr ⟨e, List.mem_of_mem_filter he, (List.mem_filter.mp he).2, rfl⟩

theorem bestContainer_strategy (dom : HtmlDom) (strategy : Strategy) (score : ℕ → ℕ → ℕ) :
    (bestContainer dom strategy score).strategy = strategy := by
  rcases bestContainer_cases dom strategy score with h | ⟨e, -, -, h⟩
  · rw [h]
    rfl
  · rw [h]
    rfl

/-- **Every candidate** is one of the containers of the page, or empty. -/
theorem extractCandidates_cases {dom : HtmlDom} {c : Candidate} (hc : c ∈ extractCandidates dom) :
    c = emptyCandidate c.strategy ∨
      ∃ e ∈ dom.elements, isContainer e = true ∧ c = candidateOf c.strategy e := by
  have hbest : ∀ strategy score, c = bestContainer dom strategy score →
      c = emptyCandidate c.strategy ∨
        ∃ e ∈ dom.elements, isContainer e = true ∧ c = candidateOf c.strategy e := by
    rintro strategy score rfl
    rw [bestContainer_strategy]
    exact bestContainer_cases dom strategy score
  rw [extractCandidates, List.mem_cons, List.mem_cons, List.mem_singleton] at hc
  rcases hc with rfl | hc | hc
  · rw [semanticCandidate_strategy]
    exact semanticCandidate_cases dom
  · exact hbest _ _ hc
  · exact hbest _ _ hc

/-- The strategies of the candidates, in order. -/
theorem map_strategy_extractCandidates (dom : HtmlDom) :
    (extractCandidates dom).map Candidate.strategy = [.semantic, .readability, .density] := by
  simp [extractCandidates, semanticCandidate_strategy, readabilityCandidate, densityCandidate,
    bestContainer_strategy]

/-! ### The choice -/

/-- The decisions on the candidates of a page. -/
def HtmlDom.decisions (dom : HtmlDom) : List CandidateDecision :=
  (extractCandidates dom).map (evaluate dom.title)

/-- A decision is **chosen**: it is accepted, no accepted one has a higher score, and none before it
the same. -/
def Chosen (decisions : List CandidateDecision) (d : CandidateDecision) : Prop :=
  FirstBest CandidateDecision.accepted CandidateDecision.score decisions d

section Choosing

variable {dom : HtmlDom} {c : Candidate} {d : CandidateDecision} {decisions : List CandidateDecision}

/-- **The fold** finds the first accepted decision of the highest score. -/
theorem winner_eq_some_iff : winner decisions true = some d ↔ Chosen decisions d := by
  have hargmax : winner decisions true =
      (decisions.filter CandidateDecision.accepted).argmax CandidateDecision.score := by
    simp only [winner, Bool.not_true, Bool.false_or]
    rw [List.argmax]
    congr 1
    funext best d
    cases best <;> rfl
  rw [hargmax]
  exact argmax_filter_eq_some_iff

theorem winner_eq_none_iff :
    winner decisions true = none ↔ ∀ d ∈ decisions, d.accepted = false := by
  rw [← not_iff_not, ← ne_eq, Option.ne_none_iff_exists']
  simp only [winner_eq_some_iff, Chosen]
  rw [exists_firstBest_iff]
  simp

/-- The names of the strategies, in order. -/
theorem map_strategy_decisions (dom : HtmlDom) :
    dom.decisions.map CandidateDecision.strategy = ["semantic", "readability", "density"] := by
  have h := congrArg (List.map Strategy.asStr) (map_strategy_extractCandidates dom)
  rw [HtmlDom.decisions, List.map_map]
  rw [List.map_map] at h
  exact h

theorem Strategy.asStr_injective : Function.Injective Strategy.asStr := by
  intro s t h
  cases s <;> cases t <;> first | rfl | exact absurd h (by decide)

/-- A candidate is the only one of its strategy. -/
theorem strategy_injOn (dom : HtmlDom) :
    ∀ c ∈ extractCandidates dom, ∀ c' ∈ extractCandidates dom, c.strategy = c'.strategy → c = c' := by
  have hnodup : ((extractCandidates dom).map Candidate.strategy).Nodup := by
    rw [map_strategy_extractCandidates]
    decide
  exact fun c hc c' hc' h => List.inj_on_of_nodup_map hnodup hc hc' h

/-- A decision belongs to one candidate. -/
theorem exists_candidate (hd : d ∈ dom.decisions) :
    ∃ c ∈ extractCandidates dom, d = evaluate dom.title c := by
  obtain ⟨c, hc, rfl⟩ := List.mem_map.mp hd
  exact ⟨c, hc, rfl⟩

/-- Looking a candidate up by its strategy. -/
theorem find_strategy (hc : c ∈ extractCandidates dom) :
    (extractCandidates dom).find? (fun c' => c'.strategy == c.strategy) = some c := by
  refine find?_eq_some_of_unique hc fun c' hc' => ?_
  rw [beq_iff_eq]
  exact ⟨strategy_injOn dom c' hc' c hc, fun h => h ▸ rfl⟩

/-- Looking a candidate up by the name in its decision. -/
theorem find_strategyName (hc : c ∈ extractCandidates dom) :
    (extractCandidates dom).find?
      (fun c' => c'.strategy.asStr == (evaluate dom.title c).strategy) = some c := by
  refine find?_eq_some_of_unique hc fun c' hc' => ?_
  rw [beq_iff_eq]
  exact ⟨fun h => strategy_injOn dom c' hc' c hc (Strategy.asStr_injective h), fun h => h ▸ rfl⟩

/-- Comparing the names of strategies compares the decisions. -/
theorem strategy_beq_eq (hc : c ∈ extractCandidates dom) (hd : d ∈ dom.decisions) :
    (d.strategy == c.strategy.asStr) = decide (d = evaluate dom.title c) := by
  obtain ⟨c', hc', rfl⟩ := exists_candidate hd
  rw [Bool.eq_iff_iff, beq_iff_eq, decide_eq_true_eq]
  constructor
  · intro h
    rw [strategy_injOn dom c' hc' c hc (Strategy.asStr_injective h)]
  · intro h
    rw [h]
    rfl

/-- Marking one decision selects one. -/
theorem filter_selected (hd : d ∈ dom.decisions) :
    (dom.decisions.map fun d' => { d' with selected := decide (d' = d) }).filter
      CandidateDecision.selected = [{ d with selected := true }] := by
  have hnodup : dom.decisions.Nodup := by
    refine List.Nodup.of_map CandidateDecision.strategy ?_
    rw [map_strategy_decisions]
    decide
  rw [List.filter_map]
  change List.map _ (dom.decisions.filter fun d' => decide (d' = d)) = _
  rw [List.filter_eq, List.count_eq_one_of_mem hnodup hd]
  simp

end Choosing

/-! ### Conversion -/

/-- What a conversion shows of the candidate that was chosen: its decision is the one that is
selected, and the document has its blocks, up to their identities. -/
structure ShowsChoice (dom : HtmlDom) (c : Candidate) (extraction : Extraction) : Prop where
  decisions : extraction.candidates = dom.decisions.map fun d =>
    { d with selected := decide (d = evaluate dom.title c) }
  selected : extraction.candidates.filter CandidateDecision.selected =
    [{ evaluate dom.title c with selected := true }]
  content : extraction.document.blocks.map DocumentBlock.digestBlock =
    c.blocks.map DocumentBlock.digestBlock

/-- **What a conversion comes to**: a document of the chosen candidate; a rejection, where no
decision is accepted; or an error, where the chosen candidate has more blocks than can be
numbered. -/
def Selects (dom : HtmlDom) : Except DocumentIrError Extraction → Prop
  | .ok extraction => ∃ c ∈ extractCandidates dom, Chosen dom.decisions (evaluate dom.title c) ∧
      c.blocks.length ≤ 2 ^ 32 ∧ ShowsChoice dom c extraction
  | .error e =>
      e = .lowQuality dom.decisions ∧
          (∀ d ∈ dom.decisions, d.accepted = false ∧ d.selected = false) ∨
        e = .invalidIdentity ∧ ∃ c ∈ extractCandidates dom,
          Chosen dom.decisions (evaluate dom.title c) ∧ 2 ^ 32 < c.blocks.length

/-- The identities do not change the content. -/
theorem map_digestBlock_assignBlockIds (lib : DocumentLib) (blocks : List DocumentBlock)
    (contentDigest : String) :
    (assignBlockIds lib blocks contentDigest).map DocumentBlock.digestBlock =
      blocks.map DocumentBlock.digestBlock := by
  refine List.ext_getElem? fun i => ?_
  rw [assignBlockIds, List.getElem?_map, List.getElem?_map, List.getElem?_mapIdx, Option.map_map]
  refine congrArg (fun f => Option.map f blocks[i]?) (funext fun block => ?_)
  cases block <;> rfl

section Conversion

variable {lib : HtmlLib} {input : DocumentInput} {limits : ParserConfig} {c : Candidate}

/-- The assembly, up to the choice. -/
theorem htmlAssembly_eq (hbytes : input.bytes.length ≤ limits.maxInputBytes)
    (hnodes : (lib.parse input.bytes).nodeCount ≤ limits.maxDomNodes) :
    htmlAssembly lib input limits = (do
      let best ← okOr ((winner (lib.parse input.bytes).decisions true).bind fun d =>
        (extractCandidates (lib.parse input.bytes)).find? fun c => c.strategy.asStr == d.strategy)
        (DocumentIrError.lowQuality (lib.parse input.bytes).decisions)
      let selected ← okOr ((extractCandidates (lib.parse input.bytes)).find? fun c =>
        c.strategy == best.strategy) DocumentIrError.invalidIdentity
      return (⟨selected.strategy.asStr, (lib.parse input.bytes).title,
          (lib.parse input.bytes).language lib, selected.blocks⟩,
        (lib.parse input.bytes).decisions.map fun d =>
          { d with selected := d.strategy == best.strategy.asStr })) := by
  have hinput : (require (input.bytes.length ≤ limits.maxInputBytes) DocumentIrError.resourceLimit :
      Except DocumentIrError Unit) = .ok () := if_pos hbytes
  have htree : (require ((lib.parse input.bytes).nodeCount ≤ limits.maxDomNodes)
      DocumentIrError.resourceLimit : Except DocumentIrError Unit) = .ok () := if_pos hnodes
  unfold htmlAssembly
  rw [hinput]
  dsimp only
  rw [htree]
  rfl

/-- The assembly of the chosen candidate. -/
theorem htmlAssembly_of_chosen (hbytes : input.bytes.length ≤ limits.maxInputBytes)
    (hnodes : (lib.parse input.bytes).nodeCount ≤ limits.maxDomNodes)
    (hc : c ∈ extractCandidates (lib.parse input.bytes))
    (hchosen : Chosen (lib.parse input.bytes).decisions (evaluate (lib.parse input.bytes).title c)) :
    htmlAssembly lib input limits =
      .ok (⟨c.strategy.asStr, (lib.parse input.bytes).title, (lib.parse input.bytes).language lib,
          c.blocks⟩,
        (lib.parse input.bytes).decisions.map fun d =>
          { d with selected := d.strategy == c.strategy.asStr }) := by
  rw [htmlAssembly_eq hbytes hnodes, winner_eq_some_iff.mpr hchosen, Option.bind_some,
    find_strategyName hc]
  exact Except.bind_eq_ok_iff.mpr ⟨c, rfl, Except.bind_eq_ok_iff.mpr
    ⟨c, Except.okOr_eq_ok_iff.mpr (find_strategy hc), rfl⟩⟩

/-- Where no decision is accepted, none is selected. -/
theorem htmlAssembly_of_rejected (hbytes : input.bytes.length ≤ limits.maxInputBytes)
    (hnodes : (lib.parse input.bytes).nodeCount ≤ limits.maxDomNodes)
    (hrejected : ∀ d ∈ (lib.parse input.bytes).decisions, d.accepted = false) :
    htmlAssembly lib input limits = .error (.lowQuality (lib.parse input.bytes).decisions) := by
  rw [htmlAssembly_eq hbytes hnodes, winner_eq_none_iff.mpr hrejected]
  rfl

/-- A document is assembled with the same content, unless it has too many blocks. -/
theorem assembleDocument_cases {documents : DocumentLib} {blocks : List DocumentBlock} (owner : Uuid)
    (sourceAddress : String) (sourceBlob : BlobRef) (strategy : String)
    (title language : Option String)
    (hjson : (documents.canonicalJson (blocks.map DocumentBlock.digestBlock)).isSome = true) :
    (blocks.length ≤ 2 ^ 32 ∧ ∃ document,
      assembleDocument documents owner sourceAddress sourceBlob strategy title language blocks =
        .ok document ∧
      document.blocks.map DocumentBlock.digestBlock = blocks.map DocumentBlock.digestBlock) ∨
    2 ^ 32 < blocks.length ∧
      assembleDocument documents owner sourceAddress sourceBlob strategy title language blocks =
        .error .invalidIdentity := by
  obtain ⟨canonical, hcanonical⟩ := Option.isSome_iff_exists.mp hjson
  unfold assembleDocument
  rw [hcanonical]
  by_cases hlength : blocks.length ≤ 2 ^ 32
  · have hfits : (require (blocks.length ≤ 2 ^ 32) DocumentIrError.invalidIdentity :
        Except DocumentIrError Unit) = .ok () := if_pos hlength
    rw [hfits]
    exact .inl ⟨hlength, _, rfl, map_digestBlock_assignBlockIds _ _ _⟩
  · have hlong : (require (blocks.length ≤ 2 ^ 32) DocumentIrError.invalidIdentity :
        Except DocumentIrError Unit) = .error .invalidIdentity := if_neg hlength
    rw [hlong]
    exact .inr ⟨not_le.mp hlength, rfl⟩

/-- **Every conversion within the limits** comes to one of the three. -/
theorem fromHtml_selects (hbytes : input.bytes.length ≤ limits.maxInputBytes)
    (hnodes : (lib.parse input.bytes).nodeCount ≤ limits.maxDomNodes)
    (hjson : ∀ c ∈ extractCandidates (lib.parse input.bytes),
      (lib.documents.canonicalJson (c.blocks.map DocumentBlock.digestBlock)).isSome = true) :
    Selects (lib.parse input.bytes) (fromHtml lib input limits) := by
  cases hwinner : winner (lib.parse input.bytes).decisions true with
  | none =>
      have hrejected := winner_eq_none_iff.mp hwinner
      rw [fromHtml, htmlAssembly_of_rejected hbytes hnodes hrejected]
      refine .inl ⟨rfl, fun d hd => ⟨hrejected d hd, ?_⟩⟩
      obtain ⟨c, -, rfl⟩ := exists_candidate hd
      rfl
  | some d =>
      have hchosen := winner_eq_some_iff.mp hwinner
      obtain ⟨c, hc, rfl⟩ := exists_candidate hchosen.mem
      have hmarked : ((lib.parse input.bytes).decisions.map fun d =>
          { d with selected := d.strategy == c.strategy.asStr }) =
          (lib.parse input.bytes).decisions.map fun d =>
            { d with selected := decide (d = evaluate (lib.parse input.bytes).title c) } :=
        List.map_congr_left fun d hd => by rw [strategy_beq_eq hc hd]
      rcases assembleDocument_cases input.owner input.sourceAddress input.sourceBlob c.strategy.asStr
        (lib.parse input.bytes).title ((lib.parse input.bytes).language lib) (hjson c hc) with
        ⟨hlength, document, hdocument, hcontent⟩ | ⟨hlength, herror⟩
      · have hok : (fromHtml lib input limits : Except DocumentIrError Extraction) =
            .ok ⟨document, _⟩ := Except.bind_eq_ok_iff.mpr
          ⟨_, htmlAssembly_of_chosen hbytes hnodes hc hchosen,
            Except.bind_eq_ok_iff.mpr ⟨document, hdocument, rfl⟩⟩
        rw [hok]
        exact ⟨c, hc, hchosen, hlength, hmarked, (congrArg _ hmarked).trans (filter_selected hchosen.mem),
          hcontent⟩
      · have hfailed : fromHtml lib input limits = .error .invalidIdentity := by
          rw [fromHtml, htmlAssembly_of_chosen hbytes hnodes hc hchosen]
          show (assembleDocument _ _ _ _ _ _ _ _ >>= fun document => _) = _
          rw [herror]
          rfl
        rw [hfailed]
        exact .inr ⟨rfl, c, hc, hchosen, hlength⟩

/-- A conversion of blocks that can be numbered fails only where no decision is accepted. -/
theorem fromHtml_eq_error (hbytes : input.bytes.length ≤ limits.maxInputBytes)
    (hnodes : (lib.parse input.bytes).nodeCount ≤ limits.maxDomNodes)
    (hjson : ∀ c ∈ extractCandidates (lib.parse input.bytes),
      (lib.documents.canonicalJson (c.blocks.map DocumentBlock.digestBlock)).isSome = true)
    (hblocks : ∀ c ∈ extractCandidates (lib.parse input.bytes), c.blocks.length ≤ 2 ^ 32)
    {e : DocumentIrError} (he : fromHtml lib input limits = .error e) :
    e = .lowQuality (lib.parse input.bytes).decisions ∧
      ∀ d ∈ (lib.parse input.bytes).decisions, d.accepted = false ∧ d.selected = false := by
  have hselects := fromHtml_selects hbytes hnodes hjson
  rw [he] at hselects
  rcases hselects with hrejected | ⟨-, c, hc, -, hlong⟩
  · exact hrejected
  · exact absurd hlong (not_lt.mpr (hblocks c hc))

/-- Where a decision is accepted, it succeeds. -/
theorem exists_extraction (hbytes : input.bytes.length ≤ limits.maxInputBytes)
    (hnodes : (lib.parse input.bytes).nodeCount ≤ limits.maxDomNodes)
    (hjson : ∀ c ∈ extractCandidates (lib.parse input.bytes),
      (lib.documents.canonicalJson (c.blocks.map DocumentBlock.digestBlock)).isSome = true)
    (hblocks : ∀ c ∈ extractCandidates (lib.parse input.bytes), c.blocks.length ≤ 2 ^ 32)
    (haccepted : ∃ d ∈ (lib.parse input.bytes).decisions, d.accepted = true) :
    ∃ extraction, fromHtml lib input limits = .ok extraction := by
  obtain ⟨d, hd, hyes⟩ := haccepted
  cases hresult : fromHtml lib input limits with
  | ok extraction => exact ⟨extraction, rfl⟩
  | error e =>
      rw [((fromHtml_eq_error hbytes hnodes hjson hblocks hresult).2 d hd).1] at hyes
      cases hyes

/-- **The choice among the candidates**, for every page within the limits whose blocks can be
rendered and numbered. A conversion succeeds exactly where a decision is accepted; then it shows
the candidate of the first accepted decision of the highest score, which alone is selected; and
otherwise it ends with all decisions, none of them selected. -/
theorem from_html_selects (hbytes : input.bytes.length ≤ limits.maxInputBytes)
    (hnodes : (lib.parse input.bytes).nodeCount ≤ limits.maxDomNodes)
    (hjson : ∀ c ∈ extractCandidates (lib.parse input.bytes),
      (lib.documents.canonicalJson (c.blocks.map DocumentBlock.digestBlock)).isSome = true)
    (hblocks : ∀ c ∈ extractCandidates (lib.parse input.bytes), c.blocks.length ≤ 2 ^ 32) :
    (lib.parse input.bytes).decisions.map CandidateDecision.strategy =
        ["semantic", "readability", "density"] ∧
      ((∃ extraction, fromHtml lib input limits = .ok extraction) ↔
        ∃ d ∈ (lib.parse input.bytes).decisions, d.accepted = true) ∧
      (∀ extraction, fromHtml lib input limits = .ok extraction →
        ∃ c ∈ extractCandidates (lib.parse input.bytes),
          Chosen (lib.parse input.bytes).decisions (evaluate (lib.parse input.bytes).title c) ∧
            ShowsChoice (lib.parse input.bytes) c extraction) ∧
      ∀ e, fromHtml lib input limits = .error e →
        e = .lowQuality (lib.parse input.bytes).decisions ∧
          ∀ d ∈ (lib.parse input.bytes).decisions, d.accepted = false ∧ d.selected = false := by
  have hselects := fromHtml_selects hbytes hnodes hjson
  refine ⟨map_strategy_decisions _,
    ⟨?_, fun haccepted => exists_extraction hbytes hnodes hjson hblocks haccepted⟩, ?_,
    fun e he => fromHtml_eq_error hbytes hnodes hjson hblocks he⟩
  · rintro ⟨extraction, hok⟩
    rw [hok] at hselects
    obtain ⟨c, -, hchosen, -⟩ := hselects
    exact ⟨_, hchosen.mem, hchosen.1⟩
  · intro extraction hok
    rw [hok] at hselects
    obtain ⟨c, hc, hchosen, -, hshows⟩ := hselects
    exact ⟨c, hc, hchosen, hshows⟩

end Conversion

/-! ### Pages of paragraphs -/

/-- One paragraph in the tree of a page. -/
def pageParagraph (text : String) : HtmlNode := .element "p" none [.text text]

/-- A page of equal paragraphs. -/
def paragraphPage (n : ℕ) (text : String) : HtmlDom where
  nodeCount := 2 * n + 4
  elements := HtmlNode.elements [.element "html" none [.element "head" none [],
    .element "body" none (List.replicate n (pageParagraph text))]]

section Pages

variable {n : ℕ} {text : String}

theorem elements_paragraphs (n : ℕ) (text : String) :
    HtmlNode.elements (List.replicate n (pageParagraph text)) =
      List.replicate n ⟨"p", none, [.text text]⟩ := by
  induction n with
  | zero => exact HtmlNode.elements.eq_1
  | succ n ih =>
      rw [pageParagraph] at ih ⊢
      rw [List.replicate_succ, List.replicate_succ, HtmlNode.elements, ih]
      simp only [HtmlNode.elements, List.nil_append]

/-- An element with one text that is in normal form. -/
theorem normalizedText_of_texts {e : HtmlElement} (htexts : e.texts = [text])
    (hwords : joinWords (Text.splitWhitespace text.toList) = text) (hne : text ≠ "") :
    normalizedText e = some text := by
  rw [normalizedText, htexts]
  simp only [List.flatMap_cons, List.flatMap_nil, List.append_nil, hwords, if_neg hne]

/-- A paragraph of such a text. -/
theorem normalizedText_paragraph (hwords : joinWords (Text.splitWhitespace text.toList) = text)
    (hne : text ≠ "") : normalizedText ⟨"p", none, [.text text]⟩ = some text := by
  refine normalizedText_of_texts ?_ hwords hne
  rw [HtmlElement.texts, HtmlNode.texts, HtmlNode.texts.eq_1]

/-- Only headings and paragraphs make a block. -/
theorem block_eq_none {e : HtmlElement}
    (h : e.name ∉ ["h1", "h2", "h3", "h4", "h5", "h6", "p"]) : block e = none := by
  simp only [List.mem_cons, List.not_mem_nil, or_false, not_or] at h
  obtain ⟨h1, h2, h3, h4, h5, h6, hp⟩ := h
  unfold block
  split
  · next hname => exact absurd hname h1
  · next hname => exact absurd hname h2
  · next hname => exact absurd hname h3
  · next hname => exact absurd hname h4
  · next hname => exact absurd hname h5
  · next hname => exact absurd hname h6
  · next hname => exact absurd hname hp
  · rfl

/-- Elements of other names than a list make no block. -/
theorem block_eq_none_of_mem {e : HtmlElement} {names : List String} (h : e.name ∈ names)
    (hnames : ∀ name ∈ names, name ∉ ["h1", "h2", "h3", "h4", "h5", "h6", "p"]) : block e = none :=
  block_eq_none (hnames _ h)

/-- A container whose elements are others that make no block, and the paragraphs. -/
theorem candidateOf_paragraphs {strategy : Strategy} {e : HtmlElement} (others : List HtmlElement)
    (he : e.elements = others ++ List.replicate n ⟨"p", none, [.text text]⟩)
    (hothers : ∀ e' ∈ others, e'.name ∈ ["html", "head", "body"])
    (htext : normalizedText ⟨"p", none, [.text text]⟩ = some text) :
    candidateOf strategy e = ⟨strategy, List.replicate n (paragraphBlock text), 0, 0⟩ := by
  have hblock : ∀ e' ∈ others, block e' = none := fun e' he' =>
    block_eq_none_of_mem (hothers e' he') (by decide)
  have hnames : ∀ e' ∈ e.elements, e'.name ∈ ["html", "head", "body", "p"] := by
    intro e' he'
    rw [he] at he'
    rcases List.mem_append.mp he' with h | h
    · exact List.mem_append_left ["p"] (hothers e' h)
    · rw [(List.mem_replicate.mp h).2]
      exact List.mem_append_right ["html", "head", "body"] (List.mem_singleton_self _)
  have hnone : ∀ names : List String, (∀ name ∈ ["html", "head", "body", "p"], name ∉ names) →
      e.elements.filter (fun e' => names.contains e'.name) = [] := by
    intro names hdisjoint
    refine List.filter_eq_nil_iff.mpr fun e' he' => ?_
    rw [List.contains_iff_mem]
    exact hdisjoint _ (hnames e' he')
  have hblocks : e.blocks = List.replicate n (paragraphBlock text) := by
    rw [HtmlElement.blocks, he, List.filterMap_append, List.filterMap_eq_nil_iff.mpr hblock,
      List.nil_append, List.filterMap_replicate_of_some]
    rw [block]
    simp only [htext, Option.map_some]
  have hlinks : e.elements.filter (fun e' => e'.name == "a") = [] := by
    have h := hnone ["a"] (by decide)
    simpa using h
  rw [candidateOf, hblocks, hlinks, hnone _ (by decide)]
  rfl

/-- The body of such a page. -/
def pageBody (n : ℕ) (text : String) : HtmlElement :=
  ⟨"body", none, List.replicate n (pageParagraph text)⟩

/-- The root of such a page. -/
def pageRoot (n : ℕ) (text : String) : HtmlElement :=
  ⟨"html", none, [.element "head" none [],
    .element "body" none (List.replicate n (pageParagraph text))]⟩

theorem elements_paragraphPage (n : ℕ) (text : String) :
    (paragraphPage n text).elements = [pageRoot n text, ⟨"head", none, []⟩, pageBody n text] ++
      List.replicate n ⟨"p", none, [.text text]⟩ := by
  rw [paragraphPage]
  simp only [HtmlNode.elements, elements_paragraphs, List.append_nil]
  rfl

/-- The candidates of such a page. -/
theorem extractCandidates_paragraphPage
    (htext : normalizedText ⟨"p", none, [.text text]⟩ = some text) :
    extractCandidates (paragraphPage n text) =
      [⟨.semantic, [], 0, 0⟩, ⟨.readability, List.replicate n (paragraphBlock text), 0, 0⟩,
        ⟨.density, List.replicate n (paragraphBlock text), 0, 0⟩] := by
  have hnames : ∀ e ∈ (paragraphPage n text).elements, e.name ∈ ["html", "head", "body", "p"] := by
    intro e he
    rw [elements_paragraphPage] at he
    rcases List.mem_append.mp he with h | h
    · simp only [List.mem_cons, List.not_mem_nil, or_false] at h
      rcases h with rfl | rfl | rfl <;> simp [pageRoot, pageBody]
    · rw [(List.mem_replicate.mp h).2]
      exact List.mem_append_right ["html", "head", "body"] (List.mem_singleton_self _)
  have hnamed : ∀ name, name ∉ ["html", "head", "body", "p"] →
      (paragraphPage n text).elements.filter (fun e => e.name == name) = [] := by
    intro name hname
    refine List.filter_eq_nil_iff.mpr fun e he hbeq => hname ?_
    exact beq_iff_eq.mp hbeq ▸ hnames e he
  have hsemantic : semanticCandidate (paragraphPage n text) = ⟨.semantic, [], 0, 0⟩ := by
    simp only [semanticCandidate, List.findSome?_cons, hnamed "article" (by decide),
      hnamed "main" (by decide), List.find?_nil, List.findSome?_nil]
    rfl
  have hcontainers : (paragraphPage n text).elements.filter isContainer =
      [pageRoot n text, pageBody n text] := by
    rw [elements_paragraphPage, List.filter_append]
    have hparagraphs : (List.replicate n (⟨"p", none, [.text text]⟩ : HtmlElement)).filter
        isContainer = [] := by
      refine List.filter_eq_nil_iff.mpr fun e he => ?_
      rw [(List.mem_replicate.mp he).2]
      change ¬ ["article", "main", "section", "div", "body", "html"].contains "p" = true
      decide
    rw [hparagraphs]
    rfl
  have hbody : ∀ strategy, candidateOf strategy (pageBody n text) =
      ⟨strategy, List.replicate n (paragraphBlock text), 0, 0⟩ := by
    intro strategy
    refine candidateOf_paragraphs [pageBody n text, pageBody n text] ?_ (by simp [pageBody]) htext
    rw [HtmlElement.elements]
    simp only [HtmlNode.elements, elements_paragraphs, pageBody, List.append_nil]
    rfl
  have hroot : ∀ strategy, candidateOf strategy (pageRoot n text) =
      ⟨strategy, List.replicate n (paragraphBlock text), 0, 0⟩ := by
    intro strategy
    refine candidateOf_paragraphs
      [pageRoot n text, pageRoot n text, ⟨"head", none, []⟩, pageBody n text] ?_
      (by simp [pageRoot, pageBody]) htext
    rw [HtmlElement.elements]
    simp only [HtmlNode.elements, elements_paragraphs, pageRoot, pageBody, List.append_nil]
    rfl
  have hbest : ∀ strategy score, bestContainer (paragraphPage n text) strategy score =
      ⟨strategy, List.replicate n (paragraphBlock text), 0, 0⟩ := by
    intro strategy score
    rw [bestContainer, hcontainers]
    simp only [List.map_cons, List.map_nil, hroot, hbody, maxByScore, List.foldl_cons,
      List.foldl_nil]
    split <;> rfl
  rw [extractCandidates, hsemantic, readabilityCandidate, densityCandidate, hbest, hbest]

/-- The text of such a page, and its paragraphs, are enough. -/
theorem accepted_paragraphPage
    (htext : normalizedText ⟨"p", none, [.text text]⟩ = some text)
    (hlength : 300 ≤ n * text.utf8ByteSize) (hcount : 4 ≤ n) :
    ∃ d ∈ (paragraphPage n text).decisions, d.accepted = true := by
  have hcharacters : ((List.replicate n (paragraphBlock text)).map blockTextLen).sum =
      n * text.utf8ByteSize := by
    rw [List.map_replicate, List.sum_replicate]
    rfl
  have hparagraphs : (List.replicate n (paragraphBlock text)).countP DocumentBlock.isParagraph =
      n := by
    rw [List.countP_replicate]
    rfl
  have hscore : 350 ≤ (qualityMetrics (List.replicate n (paragraphBlock text)) 0 0
      (paragraphPage n text).title).score := by
    have hvolume : (qualityMetrics (List.replicate n (paragraphBlock text)) 0 0
        (paragraphPage n text).title).textVolume = 300 := by
      show component _ 300 300 = 300
      rw [hcharacters, component, Nat.min_eq_right hlength]
      decide
    have hdistribution : (qualityMetrics (List.replicate n (paragraphBlock text)) 0 0
        (paragraphPage n text).title).paragraphDistribution = 200 := by
      show component _ 4 200 = 200
      rw [hparagraphs, component, Nat.min_eq_right hcount]
      decide
    rw [QualityMetrics.score, hvolume, hdistribution]
    omega
  refine ⟨evaluate (paragraphPage n text).title
    ⟨.readability, List.replicate n (paragraphBlock text), 0, 0⟩, ?_, ?_⟩
  · rw [HtmlDom.decisions, extractCandidates_paragraphPage htext]
    exact List.mem_cons_of_mem _ List.mem_cons_self
  · show decide (120 ≤ ((List.replicate n (paragraphBlock text)).map blockTextLen).sum ∧ _) = true
    rw [hcharacters]
    exact decide_eq_true ⟨by omega, hscore⟩

/-- A block of plain text in the canonical rendering. -/
def renderBlock : DigestBlock → String
  | .heading level text =>
      "\x7b\"kind\":\"heading\",\"level\":" ++ toString level ++ ",\"text\":\"" ++ text ++ "\"\x7d"
  | .paragraph text => "\x7b\"kind\":\"paragraph\",\"text\":\"" ++ text ++ "\"\x7d"

/-- The digests of one document of four paragraphs. -/
def pageDocuments : DocumentLib where
  sha256 bytes :=
    if (utf8Bytes "ratatoskr.document-ir.block.v1").isPrefixOf bytes then
      beBytes 32 ([0x2ee3aab2094a4349a738d450694be8af433be1071047a052a9550570ab503636,
        0x520ace821c7ed3ff480430ce0a475cd901a8aa4d9bcf83688455f9747fec21d0,
        0x0da8875c58bc71019b9ad43797a8adad894b185becc5c8ab8c07746e17688117,
        0x48387c018e71666a312a9854bc6b27082e82e7384a6eb87ff6f505797d28c909].getD
          (bytes.getLastD 0).toNat 0)
    else if (utf8Bytes "ratatoskr.document.v1").isPrefixOf bytes then
      beBytes 32 0xd5520b5344da6b2b94ab4922a8a4e37456ca4369a8dd7854bdb6c858650516fb
    else beBytes 32 0x964c4e9ed8e18513113a7625427481aa8ce3d72639eac5ec61ec20cc4d81f714
  canonicalJson blocks := some ("[" ++ ",".intercalate (blocks.map renderBlock) ++ "]")

/-- The text of each of four paragraphs. -/
def pageText : String := String.ofList (List.replicate 75 'a')

/-- The source of a page of four paragraphs. -/
def pageSource : List UInt8 := (List.replicate 4 (utf8Bytes ("<p>" ++ pageText))).flatten

/-- The crates on this page, and on an empty source. -/
def pageLib : HtmlLib where
  documents := pageDocuments
  parse bytes := if bytes = pageSource then paragraphPage 4 pageText else paragraphPage 0 pageText
  languageIsValid _ := false

/-- The page as it is stored. -/
def pageInput : DocumentInput where
  owner := 2
  sourceAddress := "https://example.org/"
  sourceBlob := ⟨producer, ⟨.sha256, "9b7efab11015a59c84bacbcabc707df1eb46333637bb0062d4a6bb324f1e912b"⟩,
    "text/html", 312⟩
  bytes := pageSource

/-- Limits that the page just meets. -/
def pageLimits : ParserConfig where
  maxInputBytes := 312
  maxDomNodes := 12

theorem parse_pageSource : pageLib.parse pageSource = paragraphPage 4 pageText := by
  simp only [pageLib, if_true]

theorem length_pageSource : pageSource.length = 312 := by decide +kernel

theorem normalizedText_pageText :
    normalizedText ⟨"p", none, [.text pageText]⟩ = some pageText :=
  normalizedText_paragraph (by decide +kernel) (by decide +kernel)

/-- The candidates of the page have four blocks at most. -/
theorem blocks_page {c : Candidate} (hc : c ∈ extractCandidates (pageLib.parse pageSource)) :
    c.blocks.length ≤ 4 := by
  rw [parse_pageSource, extractCandidates_paragraphPage normalizedText_pageText, List.mem_cons,
    List.mem_cons, List.mem_singleton] at hc
  rcases hc with rfl | rfl | rfl
  · exact Nat.zero_le _
  · exact List.length_replicate.le
  · exact List.length_replicate.le

/-- The page becomes a document. -/
theorem fromHtml_page : ∃ extraction, fromHtml pageLib pageInput pageLimits = .ok extraction := by
  have hbytes : pageInput.bytes.length ≤ pageLimits.maxInputBytes := length_pageSource.le
  have hnodes : (pageLib.parse pageInput.bytes).nodeCount ≤ pageLimits.maxDomNodes := by
    rw [pageInput, parse_pageSource]
    exact Nat.le_refl _
  have haccepted := accepted_paragraphPage normalizedText_pageText (n := 4) (by decide +kernel)
    (Nat.le_refl _)
  rw [← parse_pageSource] at haccepted
  exact exists_extraction hbytes hnodes (fun c _ => rfl)
    (fun c hc => Nat.le_trans (blocks_page hc) (by decide)) haccepted

/-- The page is accepted, and its document is the one of a single selected decision. -/
theorem from_html_selects_four :
    ∃ extraction, fromHtml pageLib pageInput pageLimits = .ok extraction ∧
      ∃ c, ShowsChoice (pageLib.parse pageSource) c extraction := by
  have hbytes : pageInput.bytes.length ≤ pageLimits.maxInputBytes := length_pageSource.le
  have hnodes : (pageLib.parse pageInput.bytes).nodeCount ≤ pageLimits.maxDomNodes := by
    rw [pageInput, parse_pageSource]
    exact Nat.le_refl _
  have hselects := @from_html_selects pageLib pageInput pageLimits hbytes hnodes (fun c _ => rfl)
    fun c hc => Nat.le_trans (blocks_page hc) (by decide)
  have haccepted := accepted_paragraphPage normalizedText_pageText (n := 4) (by decide +kernel)
    (Nat.le_refl _)
  rw [← parse_pageSource] at haccepted
  obtain ⟨extraction, hok⟩ := hselects.2.1.mpr haccepted
  obtain ⟨c, -, -, hshows⟩ := hselects.2.2.1 extraction hok
  exact ⟨extraction, hok, c, hshows⟩

end Pages

end Extractor
