import Extractor.Contracts
import Extractor.Lib.Fallible
import Extractor.Lib.Text

/-!
# The quality evaluator and the document constructor

The deterministic evaluator of `crates/document-ir/src/lib.rs` that every extraction path
shares: five fixed-point components, their sum, and the two acceptance thresholds. Every path
also builds its document through the one constructor here, which derives the identities from
the content.

SHA-256 and the canonical JSON rendering come from crates outside the repository and are
collected in the parameter `DocumentLib`.

## Main results

* `qualityMetrics_score_le`: a score is at most 1000.
-/

namespace Extractor

/-- `QualityMetrics`. -/
structure QualityMetrics where
  textCharacters : ℕ
  paragraphCount : ℕ
  textVolume : ℕ
  paragraphDistribution : ℕ
  nonLinkShare : ℕ
  nonBoilerplateShare : ℕ
  titleAgreement : ℕ
  deriving DecidableEq

/-- `QualityReason`. -/
inductive QualityReason
  | accepted
  | tooShort
  | belowThreshold
  deriving DecidableEq

/-- `CandidateDecision`. -/
structure CandidateDecision where
  strategy : String
  blocks : List DocumentBlock
  evaluatorVersion : String
  metrics : QualityMetrics
  score : ℕ
  accepted : Bool
  reasons : List QualityReason
  selected : Bool
  deriving DecidableEq

/-- `heading_block`: the identity is assigned when the document is assembled. -/
def headingBlock (level : ℕ) (text : String) : DocumentBlock :=
  .heading 0 level text

/-- `paragraph_block`. -/
def paragraphBlock (text : String) : DocumentBlock :=
  .paragraph 0 text

/-- `block_text_len`, in bytes. -/
def blockTextLen (block : DocumentBlock) : ℕ :=
  block.text.utf8ByteSize

/-- `usize::saturating_mul` on a 64-bit machine. -/
def saturatingMul (a b : ℕ) : ℕ := min (a * b) (2 ^ 64 - 1)

/-- `component`: the weighted share of `value` in `fullValue`. -/
def component (value fullValue weight : ℕ) : ℕ :=
  saturatingMul (min value fullValue) weight / fullValue

/-- `share`: the weighted share of what is not excluded. -/
def share (total excluded weight : ℕ) : ℕ :=
  if total = 0 then 0 else saturatingMul (total - min excluded total) weight / total

/-- `title_matches`. -/
def titleMatches (blocks : List DocumentBlock) (title : Option String) : Bool :=
  title.any fun title => blocks.any fun block =>
    match block with
    | .heading _ _ text => Text.eqIgnoreAsciiCase text.toList title.toList
    | .paragraph _ _ => false

/-- Whether a block is a paragraph. -/
def DocumentBlock.isParagraph : DocumentBlock → Bool
  | .paragraph _ _ => true
  | .heading _ _ _ => false

/-- The metrics of `score_blocks`. -/
def qualityMetrics (blocks : List DocumentBlock) (linkCharacters boilerplateCharacters : ℕ)
    (title : Option String) : QualityMetrics :=
  let textCharacters := (blocks.map blockTextLen).sum
  let paragraphCount := blocks.countP DocumentBlock.isParagraph
  { textCharacters := min textCharacters (2 ^ 32 - 1)
    paragraphCount := min paragraphCount (2 ^ 16 - 1)
    textVolume := component textCharacters 300 300
    paragraphDistribution := component paragraphCount 4 200
    nonLinkShare := share textCharacters linkCharacters 200
    nonBoilerplateShare := share textCharacters boilerplateCharacters 200
    titleAgreement := if titleMatches blocks title then 100 else 0 }

/-- The total score of the components. -/
def QualityMetrics.score (metrics : QualityMetrics) : ℕ :=
  metrics.textVolume + metrics.paragraphDistribution + metrics.nonLinkShare +
    metrics.nonBoilerplateShare + metrics.titleAgreement

/-- `score_blocks`: metrics, score, acceptance and reasons. -/
def scoreBlocks (blocks : List DocumentBlock) (linkCharacters boilerplateCharacters : ℕ)
    (title : Option String) : QualityMetrics × ℕ × Bool × List QualityReason :=
  let textCharacters := (blocks.map blockTextLen).sum
  let metrics := qualityMetrics blocks linkCharacters boilerplateCharacters title
  let score := metrics.score
  let accepted := decide (120 ≤ textCharacters ∧ 350 ≤ score)
  let reasons :=
    if accepted then [.accepted]
    else
      (if textCharacters < 120 then [.tooShort] else []) ++
        if score < 350 then [.belowThreshold] else []
  (metrics, score, accepted, reasons)

/-- A decision on blocks, not yet selected. -/
def decisionOf (strategy : String) (blocks : List DocumentBlock)
    (linkCharacters boilerplateCharacters : ℕ) (title : Option String) : CandidateDecision :=
  let r := scoreBlocks blocks linkCharacters boilerplateCharacters title
  { strategy := strategy
    blocks := blocks
    evaluatorVersion := "quality_v1"
    metrics := r.1
    score := r.2.1
    accepted := r.2.2.1
    reasons := r.2.2.2
    selected := false }

/-- `evaluate_plain_text`: plain text carries no link or boilerplate markup. -/
def evaluatePlainText (strategy : String) (blocks : List DocumentBlock) (title : Option String) :
    CandidateDecision :=
  decisionOf strategy blocks 0 0 title

/-! ### Bounds -/

/-- A component is at most its weight. -/
theorem component_le {value fullValue weight : ℕ} : component value fullValue weight ≤ weight := by
  unfold component
  rcases Nat.eq_zero_or_pos fullValue with rfl | hpos
  · rw [Nat.div_zero]
    exact Nat.zero_le _
  · calc saturatingMul (min value fullValue) weight / fullValue
        ≤ min value fullValue * weight / fullValue := Nat.div_le_div_right (Nat.min_le_left _ _)
      _ ≤ fullValue * weight / fullValue :=
          Nat.div_le_div_right (Nat.mul_le_mul_right _ (Nat.min_le_right _ _))
      _ = weight := Nat.mul_div_cancel_left _ hpos

/-- A share is at most its weight. -/
theorem share_le {total excluded weight : ℕ} : share total excluded weight ≤ weight := by
  unfold share
  split
  · exact Nat.zero_le _
  · rename_i hne
    have hpos : 0 < total := Nat.pos_of_ne_zero hne
    calc saturatingMul (total - min excluded total) weight / total
        ≤ (total - min excluded total) * weight / total :=
          Nat.div_le_div_right (Nat.min_le_left _ _)
      _ ≤ total * weight / total :=
          Nat.div_le_div_right (Nat.mul_le_mul_right _ (Nat.sub_le _ _))
      _ = weight := Nat.mul_div_cancel_left _ hpos

/-- **A score is at most 1000**, so the sum of `u16` components never saturates. -/
theorem qualityMetrics_score_le {blocks : List DocumentBlock}
    {linkCharacters boilerplateCharacters : ℕ} {title : Option String} :
    (qualityMetrics blocks linkCharacters boilerplateCharacters title).score ≤ 1000 := by
  have h₁ : (qualityMetrics blocks linkCharacters boilerplateCharacters title).textVolume ≤ 300 :=
    component_le
  have h₂ : (qualityMetrics blocks linkCharacters boilerplateCharacters
      title).paragraphDistribution ≤ 200 := component_le
  have h₃ : (qualityMetrics blocks linkCharacters boilerplateCharacters title).nonLinkShare ≤ 200 :=
    share_le
  have h₄ : (qualityMetrics blocks linkCharacters boilerplateCharacters
      title).nonBoilerplateShare ≤ 200 := share_le
  have h₅ : (qualityMetrics blocks linkCharacters boilerplateCharacters title).titleAgreement ≤
      100 := by
    simp only [qualityMetrics]
    split <;> omega
  unfold QualityMetrics.score
  omega

/-! ### Assembly -/

/-- `DigestBlock`: the part of a block that the content digest covers. -/
inductive DigestBlock
  | heading (level : ℕ) (text : String)
  | paragraph (text : String)
  deriving DecidableEq

/-- What the hash and JSON crates compute. -/
structure DocumentLib where
  /-- SHA-256. -/
  sha256 : List UInt8 → List UInt8
  /-- `canonical_json` of the digest blocks. -/
  canonicalJson : List DigestBlock → Option String

/-- `DocumentIrError`; every block kind of the model is a supported one. -/
inductive DocumentIrError
  | resourceLimit
  | invalidIdentity
  | serialization
  | lowQuality (candidates : List CandidateDecision)
  deriving DecidableEq

/-- `str::as_bytes`. -/
def utf8Bytes (text : String) : List UInt8 := text.toUTF8.data.toList

theorem length_utf8Bytes (text : String) : (utf8Bytes text).length = text.utf8ByteSize := rfl

/-- The big-endian bytes of a number. -/
def beBytes (count n : ℕ) : List UInt8 :=
  (List.range count).map fun i => UInt8.ofNat (n / 256 ^ (count - 1 - i))

/-- One lowercase hexadecimal digit. -/
def hexDigit (n : ℕ) : Char :=
  ("0123456789abcdef".toList).getD n '0'

/-- `hex`. -/
def hex (bytes : List UInt8) : String :=
  String.ofList (bytes.flatMap fun b => [hexDigit (b.toNat / 16), hexDigit (b.toNat % 16)])

/-- The first 16 bytes of a digest as a uuid of version 8 and the RFC 4122 variant. -/
def uuidOfDigest (digest : List UInt8) : Uuid :=
  let bytes := ((digest.take 16).modify 6 fun b => b &&& 0x0f ||| 0x80).modify 8
    fun b => b &&& 0x3f ||| 0x80
  bytes.foldl (fun n b => 256 * n + b.toNat) 0

/-- `stable_document_id`. -/
def stableDocumentId (lib : DocumentLib) (owner : Uuid) (contentDigest : String) : Uuid :=
  uuidOfDigest (lib.sha256
    (utf8Bytes "ratatoskr.document.v1\x00" ++ beBytes 16 owner ++ utf8Bytes contentDigest))

/-- The identity of one block; the separator ends in a backslash and a zero, not in a NUL. -/
def blockIdentity (lib : DocumentLib) (contentDigest : String) (index : ℕ) : Uuid :=
  uuidOfDigest (lib.sha256
    (utf8Bytes "ratatoskr.document-ir.block.v1\\0" ++ utf8Bytes contentDigest ++ beBytes 8 index))

/-- A block under another identity. -/
def DocumentBlock.withId (blockId : Uuid) : DocumentBlock → DocumentBlock
  | .heading _ level text => .heading blockId level text
  | .paragraph _ text => .paragraph blockId text

/-- `assign_block_ids`. -/
def assignBlockIds (lib : DocumentLib) (blocks : List DocumentBlock) (contentDigest : String) :
    List DocumentBlock :=
  blocks.mapIdx fun index block => block.withId (blockIdentity lib contentDigest index)

/-- The digest block of a block. -/
def DocumentBlock.digestBlock : DocumentBlock → DigestBlock
  | .heading _ level text => .heading level text
  | .paragraph _ text => .paragraph text

/-- `assemble_document`. -/
def assembleDocument (lib : DocumentLib) (owner : Uuid) (sourceAddress : String)
    (sourceBlob : BlobRef) (strategy : String) (title language : Option String)
    (blocks : List DocumentBlock) : Except DocumentIrError Document := do
  let canonical ← okOr (lib.canonicalJson (blocks.map DocumentBlock.digestBlock))
    DocumentIrError.serialization
  let digest := hex (lib.sha256 (utf8Bytes canonical))
  require (blocks.length ≤ 2 ^ 32) DocumentIrError.invalidIdentity
  let blocks := assignBlockIds lib blocks digest
  return {
    documentId := stableDocumentId lib owner digest
    sourceAddress := sourceAddress
    contentDigest := ⟨.sha256, digest⟩
    title := title
    language := language
    blocks := blocks
    provenance := blocks.mapIdx fun index _ => ⟨index, strategy, sourceBlob⟩ }

@[simp] theorem DocumentBlock.text_withId (blockId : Uuid) (block : DocumentBlock) :
    (block.withId blockId).text = block.text := by
  cases block <;> rfl

/-- The identities do not change the texts. -/
theorem map_text_assignBlockIds (lib : DocumentLib) (blocks : List DocumentBlock)
    (contentDigest : String) :
    (assignBlockIds lib blocks contentDigest).map DocumentBlock.text =
      blocks.map DocumentBlock.text := by
  refine List.ext_getElem? fun i => ?_
  rw [assignBlockIds, List.getElem?_map, List.getElem?_map, List.getElem?_mapIdx, Option.map_map]
  refine congrArg (fun f => Option.map f blocks[i]?) (funext fun block => ?_)
  exact DocumentBlock.text_withId _ block

/-- An assembled document has the title and the texts that it was assembled from. -/
theorem assembleDocument_contents {lib : DocumentLib} {blocks : List DocumentBlock} {owner : Uuid}
    {sourceAddress strategy : String} {sourceBlob : BlobRef} {title language : Option String}
    {document : Document}
    (h : assembleDocument lib owner sourceAddress sourceBlob strategy title language blocks =
      .ok document) :
    document.title = title ∧
      document.blocks.map DocumentBlock.text = blocks.map DocumentBlock.text := by
  obtain ⟨canonical, -, h⟩ := Except.bind_eq_ok_iff.mp h
  obtain ⟨-, -, h⟩ := Except.bind_eq_ok_iff.mp h
  cases h
  exact ⟨rfl, map_text_assignBlockIds _ _ _⟩

/-- A document is assembled from every list of blocks that has a canonical rendering and fits the
block index. -/
theorem assembleDocument_isOk (lib : DocumentLib) (blocks : List DocumentBlock) (owner : Uuid)
    (sourceAddress : String) (sourceBlob : BlobRef) (strategy : String)
    (title language : Option String)
    (hjson : (lib.canonicalJson (blocks.map DocumentBlock.digestBlock)).isSome = true)
    (hlength : blocks.length ≤ 2 ^ 32) :
    ∃ document, assembleDocument lib owner sourceAddress sourceBlob strategy title language
      blocks = .ok document := by
  obtain ⟨canonical, hcanonical⟩ := Option.isSome_iff_exists.mp hjson
  refine ⟨_, Except.bind_eq_ok_iff.mpr ⟨canonical, Except.okOr_eq_ok_iff.mpr hcanonical,
    Except.bind_eq_ok_iff.mpr ⟨(), Except.require_eq_ok_iff.mpr hlength, rfl⟩⟩⟩

end Extractor
