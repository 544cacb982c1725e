import Extractor.DocumentIr

/-!
# What the quality score measures

The evaluator of `crates/document-ir/src/lib.rs` reads two numbers and one bit from the blocks:
the total length of the texts, the number of paragraphs, and whether a heading repeats the title.
Everything it decides about plain text is a function of these three, so it does not depend on the
order of the blocks and does not fall when blocks are added.

The length is `str::len`, so it counts bytes. The documentation counts characters; the two agree
on the texts of ASCII characters only.

## Main definitions

* `saturatingScore`, `narrowedMetrics`: the score with the conversions of the source.
* `CountsCharacters`: metric and acceptance count characters.

## Main results

* `evaluatePlainText_bounded_monotone`: the score is the exact sum of its components, each within
  its weight, does not fall when blocks are added, and ignores their order.
* `characters_counted_iff`: when the length is the number of characters.
-/

namespace Extractor

/-! ### The conversions of the source -/

/-- `u16::try_from`, with the weight for what does not fit. -/
def narrowed (weighted weight : ℕ) : ℕ :=
  if weighted < 2 ^ 16 then weighted else weight

/-- `u16::saturating_add`. -/
def saturatingAdd16 (a b : ℕ) : ℕ := min (a + b) (2 ^ 16 - 1)

/-- The metrics of `score_blocks` with every component narrowed to its `u16`. -/
def narrowedMetrics (blocks : List DocumentBlock) (linkCharacters boilerplateCharacters : ℕ)
    (title : Option String) : QualityMetrics :=
  let metrics := qualityMetrics blocks linkCharacters boilerplateCharacters title
  { metrics with
    textVolume := narrowed metrics.textVolume 300
    paragraphDistribution := narrowed metrics.paragraphDistribution 200
    nonLinkShare := narrowed metrics.nonLinkShare 200
    nonBoilerplateShare := narrowed metrics.nonBoilerplateShare 200 }

/-- The score of `score_blocks`: the components are added in this order, saturating. -/
def QualityMetrics.saturatingScore (metrics : QualityMetrics) : ℕ :=
  saturatingAdd16 (saturatingAdd16 (saturatingAdd16 (saturatingAdd16 metrics.textVolume
    metrics.paragraphDistribution) metrics.nonLinkShare) metrics.nonBoilerplateShare)
    metrics.titleAgreement

/-- Every component is within its weight. -/
structure QualityMetrics.WithinWeights (metrics : QualityMetrics) : Prop where
  textVolume : metrics.textVolume ≤ 300
  paragraphDistribution : metrics.paragraphDistribution ≤ 200
  nonLinkShare : metrics.nonLinkShare ≤ 200
  nonBoilerplateShare : metrics.nonBoilerplateShare ≤ 200
  titleAgreement : metrics.titleAgreement ≤ 100

theorem qualityMetrics_withinWeights (blocks : List DocumentBlock)
    (linkCharacters boilerplateCharacters : ℕ) (title : Option String) :
    (qualityMetrics blocks linkCharacters boilerplateCharacters title).WithinWeights where
  textVolume := component_le
  paragraphDistribution := component_le
  nonLinkShare := share_le
  nonBoilerplateShare := share_le
  titleAgreement := by
    simp only [qualityMetrics]
    split <;> omega

/-- What is within a weight that fits is not changed. -/
theorem narrowed_of_le {weighted weight : ℕ} (h : weighted ≤ weight) (hweight : weight < 2 ^ 16) :
    narrowed weighted weight = weighted :=
  if_pos (Nat.lt_of_le_of_lt h hweight)

/-- **No conversion loses anything**: every component fits its `u16`. -/
theorem narrowedMetrics_eq (blocks : List DocumentBlock)
    (linkCharacters boilerplateCharacters : ℕ) (title : Option String) :
    narrowedMetrics blocks linkCharacters boilerplateCharacters title =
      qualityMetrics blocks linkCharacters boilerplateCharacters title := by
  have h := qualityMetrics_withinWeights blocks linkCharacters boilerplateCharacters title
  simp only [narrowedMetrics]
  rw [narrowed_of_le h.textVolume (by omega), narrowed_of_le h.paragraphDistribution (by omega),
    narrowed_of_le h.nonLinkShare (by omega), narrowed_of_le h.nonBoilerplateShare (by omega)]

/-- **No addition saturates** while the components are within their weights. -/
theorem QualityMetrics.WithinWeights.saturatingScore_eq {metrics : QualityMetrics}
    (h : metrics.WithinWeights) : metrics.saturatingScore = metrics.score := by
  obtain ⟨h₁, h₂, h₃, h₄, h₅⟩ := h
  simp only [QualityMetrics.saturatingScore, QualityMetrics.score, saturatingAdd16]
  omega

/-! ### More text scores no less -/

/-- The total of `block_text_len` over the blocks. -/
def totalTextLen (blocks : List DocumentBlock) : ℕ := (blocks.map blockTextLen).sum

theorem component_mono {value value' : ℕ} (h : value ≤ value') (fullValue weight : ℕ) :
    component value fullValue weight ≤ component value' fullValue weight := by
  refine Nat.div_le_div_right (min_le_min_right _ (Nat.mul_le_mul_right _ ?_))
  exact min_le_min_right _ h

/-- Where nothing is excluded, a share is the whole weight. -/
theorem share_zero {total weight : ℕ} (hpos : 0 < total) (h : total * weight < 2 ^ 64) :
    share total 0 weight = weight := by
  have hmul : saturatingMul total weight = total * weight := min_eq_left (by omega)
  rw [share, if_neg (by omega), Nat.zero_min, Nat.sub_zero, hmul, Nat.mul_div_cancel_left _ hpos]

theorem share_zero_mono {total total' weight : ℕ} (h : total ≤ total')
    (hsize : total' * weight < 2 ^ 64) : share total 0 weight ≤ share total' 0 weight := by
  rcases Nat.eq_zero_or_pos total with rfl | hpos
  · exact Nat.zero_le _
  · rw [share_zero (Nat.lt_of_lt_of_le hpos h) hsize]
    exact share_le

/-- A title that is found is found among more blocks. -/
theorem titleMatches_mono {blocks longer : List DocumentBlock} (h : blocks ⊆ longer)
    {title : Option String} (hmatch : titleMatches blocks title = true) :
    titleMatches longer title = true := by
  cases title with
  | none => exact hmatch
  | some title =>
      obtain ⟨block, hmem, hblock⟩ := List.any_eq_true.mp hmatch
      exact List.any_eq_true.mpr ⟨block, h hmem, hblock⟩

section Sublists

variable {blocks longer : List DocumentBlock} (h : blocks.Sublist longer)
include h

theorem totalTextLen_mono : totalTextLen blocks ≤ totalTextLen longer :=
  (h.map blockTextLen).sum_le_sum fun _ _ => Nat.zero_le _

theorem score_mono (hsize : totalTextLen longer < 2 ^ 56) (title : Option String) :
    (qualityMetrics blocks 0 0 title).score ≤ (qualityMetrics longer 0 0 title).score := by
  have hlen := totalTextLen_mono h
  have hshare : share (totalTextLen blocks) 0 200 ≤ share (totalTextLen longer) 0 200 :=
    share_zero_mono hlen (by omega)
  have htitle : (if titleMatches blocks title then 100 else 0) ≤
      if titleMatches longer title then 100 else 0 := by
    by_cases hmatch : titleMatches blocks title = true
    · rw [if_pos hmatch, if_pos (titleMatches_mono h.subset hmatch)]
    · rw [if_neg hmatch]
      exact Nat.zero_le _
  exact Nat.add_le_add (Nat.add_le_add (Nat.add_le_add (Nat.add_le_add
    (component_mono hlen 300 300) (component_mono h.countP_le 4 200)) hshare) hshare) htitle

/-- What is accepted stays accepted when blocks are added. -/
theorem accepted_mono (hsize : totalTextLen longer < 2 ^ 56) {strategy : String}
    {title : Option String} (haccepted : (evaluatePlainText strategy blocks title).accepted = true) :
    (evaluatePlainText strategy longer title).accepted = true := by
  obtain ⟨hlen, hscore⟩ := of_decide_eq_true haccepted
  exact decide_eq_true
    ⟨hlen.trans (totalTextLen_mono h), hscore.trans (score_mono h hsize title)⟩

end Sublists

/-! ### The order of the blocks -/

theorem qualityMetrics_perm {blocks permuted : List DocumentBlock} (h : blocks.Perm permuted)
    (linkCharacters boilerplateCharacters : ℕ) (title : Option String) :
    qualityMetrics permuted linkCharacters boilerplateCharacters title =
      qualityMetrics blocks linkCharacters boilerplateCharacters title := by
  have hlen : (permuted.map blockTextLen).sum = (blocks.map blockTextLen).sum :=
    (h.symm.map blockTextLen).sum_eq
  have hmatch : titleMatches permuted title = titleMatches blocks title :=
    Bool.eq_iff_iff.mpr ⟨titleMatches_mono h.symm.subset, titleMatches_mono h.subset⟩
  simp only [qualityMetrics, hlen, hmatch, h.symm.countP_eq]

theorem evaluatePlainText_perm {blocks permuted : List DocumentBlock} (h : blocks.Perm permuted)
    (strategy : String) (title : Option String) :
    evaluatePlainText strategy permuted title =
      { evaluatePlainText strategy blocks title with blocks := permuted } := by
  have hlen : (permuted.map blockTextLen).sum = (blocks.map blockTextLen).sum :=
    (h.symm.map blockTextLen).sum_eq
  simp only [evaluatePlainText, decisionOf, scoreBlocks, qualityMetrics_perm h, hlen]

/-- **Plain text is scored within bounds and monotonically.** The score is the exact sum of its
five components, in spite of the narrowing and saturating operations; more blocks score no less;
and the order of the blocks does not matter. -/
theorem evaluatePlainText_bounded_monotone (strategy : String) (title : Option String)
    {blocks longer permuted : List DocumentBlock} (hlonger : blocks.Sublist longer)
    (hsize : totalTextLen longer < 2 ^ 56) (hperm : blocks.Perm permuted) :
    let decision := evaluatePlainText strategy blocks title
    let extended := evaluatePlainText strategy longer title
    let reordered := evaluatePlainText strategy permuted title
    (decision.metrics = narrowedMetrics blocks 0 0 title ∧
      decision.score = decision.metrics.saturatingScore ∧
      decision.score = decision.metrics.textVolume + decision.metrics.paragraphDistribution +
        decision.metrics.nonLinkShare + decision.metrics.nonBoilerplateShare +
        decision.metrics.titleAgreement ∧
      decision.score ≤ 1000 ∧ decision.metrics.WithinWeights) ∧
    (decision.score ≤ extended.score ∧ (decision.accepted = true → extended.accepted = true)) ∧
    reordered.metrics = decision.metrics ∧ reordered.score = decision.score ∧
      reordered.accepted = decision.accepted := by
  have hweights := qualityMetrics_withinWeights blocks 0 0 title
  refine ⟨⟨(narrowedMetrics_eq ..).symm, hweights.saturatingScore_eq.symm, rfl,
    qualityMetrics_score_le, hweights⟩, ⟨score_mono hlonger hsize title,
    accepted_mono hlonger hsize⟩, ?_⟩
  rw [evaluatePlainText_perm hperm]
  exact ⟨rfl, rfl, rfl⟩

/-- Two paragraphs, the title put before them, and the paragraphs in the other order. -/
theorem evaluatePlainText_bounded_monotone_titled :
    let decision := evaluatePlainText "pdf_text" [paragraphBlock "a", paragraphBlock "b"] (some "T")
    let extended := evaluatePlainText "pdf_text"
      [headingBlock 1 "T", paragraphBlock "a", paragraphBlock "b"] (some "T")
    let reordered :=
      evaluatePlainText "pdf_text" [paragraphBlock "b", paragraphBlock "a"] (some "T")
    decision.score ≤ extended.score ∧ reordered.score = decision.score ∧
      decision.score = 502 ∧ extended.score = 603 := by
  have h := evaluatePlainText_bounded_monotone "pdf_text" (some "T")
    (List.sublist_cons_self (headingBlock 1 "T") [paragraphBlock "a", paragraphBlock "b"])
    (by decide) (List.Perm.swap (paragraphBlock "b") (paragraphBlock "a") [])
  exact ⟨h.2.1.1, h.2.2.2.1, by decide +kernel, by decide +kernel⟩

/-! ### Bytes and characters -/

/-- The Unicode characters of the blocks. -/
def characterCount (blocks : List DocumentBlock) : ℕ :=
  (blocks.map fun block => block.text.length).sum

/-- All characters of the blocks are ASCII. -/
def AllAscii (blocks : List DocumentBlock) : Prop :=
  ∀ block ∈ blocks, ∀ c ∈ block.text.toList, c.toNat < 128

/-- **Lengths count characters**: the metric is the number of characters, and what is accepted
has at least 120 of them. -/
structure CountsCharacters (blocks : List DocumentBlock)
    (linkCharacters boilerplateCharacters : ℕ) (title : Option String) : Prop where
  textCharacters : (scoreBlocks blocks linkCharacters boilerplateCharacters
    title).1.textCharacters = characterCount blocks
  accepted : (scoreBlocks blocks linkCharacters boilerplateCharacters title).2.2.1 = true →
    120 ≤ characterCount blocks

/-- Two block lists have the same components of the length alone; the shares also depend on what
is excluded. -/
def SameLengthComponents (metrics metrics' : QualityMetrics) : Prop :=
  metrics.textVolume = metrics'.textVolume ∧
    metrics.paragraphDistribution = metrics'.paragraphDistribution

theorem characterCount_le (blocks : List DocumentBlock) :
    characterCount blocks ≤ totalTextLen blocks :=
  List.sum_le_sum fun block _ => Text.length_le_utf8ByteSize block.text

/-- The bytes are as many as the characters exactly when all characters are ASCII. -/
theorem totalTextLen_eq_characterCount_iff {blocks : List DocumentBlock} :
    totalTextLen blocks = characterCount blocks ↔ AllAscii blocks := by
  have hle : ∀ block ∈ blocks, block.text.length ≤ blockTextLen block :=
    fun block _ => Text.length_le_utf8ByteSize block.text
  rw [totalTextLen, characterCount, Text.sum_map_eq_sum_map_iff hle]
  exact forall₂_congr fun block _ => Text.utf8ByteSize_eq_length_iff

/-- The text volume is the length, up to 300. -/
theorem component_eq_min {value fullValue : ℕ} (hpos : 0 < fullValue)
    (h : fullValue * fullValue < 2 ^ 64) :
    component value fullValue fullValue = min value fullValue := by
  have hle : min value fullValue * fullValue ≤ fullValue * fullValue :=
    Nat.mul_le_mul_right _ (Nat.min_le_right _ _)
  have hmul : saturatingMul (min value fullValue) fullValue = min value fullValue * fullValue :=
    min_eq_left (by omega)
  rw [component, hmul, Nat.mul_div_cancel _ hpos]

/-- **When characters are counted.** Metric and acceptance count characters exactly when all of
them are ASCII and a `u32` holds their number, or their number is the one the metric stops at.
Two texts with the same number of characters and paragraphs have the same components exactly when
they have the same number of bytes, or both have enough of them for the whole volume. -/
theorem characters_counted_iff (blocks other : List DocumentBlock)
    (linkCharacters boilerplateCharacters linkCharacters' boilerplateCharacters' : ℕ)
    (title title' : Option String) :
    (CountsCharacters blocks linkCharacters boilerplateCharacters title ↔
      characterCount blocks ≤ 2 ^ 32 - 1 ∧
        (AllAscii blocks ∨ characterCount blocks = 2 ^ 32 - 1)) ∧
    (characterCount other = characterCount blocks ∧
        other.countP DocumentBlock.isParagraph = blocks.countP DocumentBlock.isParagraph →
      (SameLengthComponents
          (scoreBlocks blocks linkCharacters boilerplateCharacters title).1
          (scoreBlocks other linkCharacters' boilerplateCharacters' title').1 ↔
        totalTextLen blocks = totalTextLen other ∨
          300 ≤ totalTextLen blocks ∧ 300 ≤ totalTextLen other)) := by
  constructor
  · have hle := characterCount_le blocks
    rw [← totalTextLen_eq_characterCount_iff]
    constructor
    · rintro ⟨hmetric, -⟩
      have hmin : min (totalTextLen blocks) (2 ^ 32 - 1) = characterCount blocks := hmetric
      omega
    · rintro ⟨hmax, hcount⟩
      refine ⟨?_, fun haccepted => ?_⟩
      · change min (totalTextLen blocks) (2 ^ 32 - 1) = characterCount blocks
        omega
      · have hlen : 120 ≤ totalTextLen blocks := (of_decide_eq_true haccepted).1
        omega
  · rintro ⟨-, hparagraphs⟩
    have hvolume : ∀ bs : List DocumentBlock,
        component (totalTextLen bs) 300 300 = min (totalTextLen bs) 300 :=
      fun bs => component_eq_min (by decide) (by decide)
    have hdistribution : component (blocks.countP DocumentBlock.isParagraph) 4 200 =
        component (other.countP DocumentBlock.isParagraph) 4 200 := by
      rw [hparagraphs]
    constructor
    · rintro ⟨hsame, -⟩
      have hmin : component (totalTextLen blocks) 300 300 =
        component (totalTextLen other) 300 300 := hsame
      rw [hvolume, hvolume] at hmin
      omega
    · intro hlen
      refine ⟨?_, hdistribution⟩
      change component (totalTextLen blocks) 300 300 = component (totalTextLen other) 300 300
      rw [hvolume, hvolume]
      omega

/-- A paragraph of sixty letters of two bytes each. -/
def cyrillicParagraph : DocumentBlock :=
  paragraphBlock (String.ofList (List.replicate 60 'ж'))

/-- It is measured as 120 characters and accepted with half of them. -/
theorem cyrillic_counted_twice :
    characterCount [cyrillicParagraph] = 60 ∧
      (scoreBlocks [cyrillicParagraph] 0 0 none).1.textCharacters = 120 ∧
      (scoreBlocks [cyrillicParagraph] 0 0 none).2.2.1 = true ∧
      ¬ CountsCharacters [cyrillicParagraph] 0 0 none := by
  have hcount : characterCount [cyrillicParagraph] = 60 := by decide +kernel
  have hmetric : (scoreBlocks [cyrillicParagraph] 0 0 none).1.textCharacters = 120 := by
    decide +kernel
  refine ⟨hcount, hmetric, by decide +kernel, fun h => ?_⟩
  have hsame := h.textCharacters
  rw [hcount, hmetric] at hsame
  omega

end Extractor
