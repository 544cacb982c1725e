import Mathlib.Data.Set.Function
import Extractor.ContentTexts

/-!
# The identity of a document

Every adapter builds its document through `assemble_document`: the content digest is taken over the
kinds, heading levels and texts of the blocks, the document identity over the owner and this
digest, and the block identities over the digest and the position. Here two calls are compared,
whatever else they are given.

SHA-256 is a parameter. That the identities do not collide is assumed of the inputs that the two
calls hash, and of nothing else: on all inputs it would be false.

## Main results

* `beBytes_injective`, `hex_injective`, `utf8Bytes_injective`: the encodings lose nothing.
* `document_identity`: the identities of two documents agree exactly when their contents do.
-/

namespace Extractor

/-! ### Encodings -/

/-- The last byte of a number, after those of its quotient. -/
theorem beBytes_succ (count n : ℕ) :
    beBytes (count + 1) n = beBytes count (n / 256) ++ [UInt8.ofNat n] := by
  rw [beBytes, beBytes, List.range_succ, List.map_append]
  congr 1
  · refine List.map_congr_left fun i hi => ?_
    have hlt : i < count := List.mem_range.mp hi
    have hexp : count + 1 - 1 - i = (count - 1 - i) + 1 := by omega
    rw [hexp, Nat.pow_succ', Nat.div_div_eq_div_mul]
  · simp

/-- The bytes of a number that fits determine it. -/
theorem beBytes_injective {count a b : ℕ} (ha : a < 256 ^ count) (hb : b < 256 ^ count)
    (h : beBytes count a = beBytes count b) : a = b := by
  induction count generalizing a b with
  | zero =>
      rw [Nat.pow_zero] at ha hb
      omega
  | succ count ih =>
      rw [beBytes_succ, beBytes_succ] at h
      obtain ⟨hinit, hlast⟩ := List.append_inj' h rfl
      have hbyte : a % 256 = b % 256 := by
        have := congrArg UInt8.toNat (List.cons.inj hlast).1
        simpa using this
      rw [Nat.pow_succ] at ha hb
      have hquot : a / 256 = b / 256 :=
        ih (Nat.div_lt_of_lt_mul (by omega)) (Nat.div_lt_of_lt_mul (by omega)) hinit
      omega

theorem hexDigit_injective : ∀ a < 16, ∀ b < 16, hexDigit a = hexDigit b → a = b := by
  decide

/-- The hexadecimal text of bytes determines them. -/
theorem hex_injective : Function.Injective hex := by
  intro xs ys h
  have hdigits := congrArg String.toList h
  rw [hex, hex, String.toList_ofList, String.toList_ofList] at hdigits
  clear h
  induction xs generalizing ys with
  | nil =>
      cases ys with
      | nil => rfl
      | cons y ys => cases hdigits
  | cons x xs ih =>
      cases ys with
      | nil => cases hdigits
      | cons y ys =>
          obtain ⟨hhigh, htail⟩ := List.cons.inj hdigits
          obtain ⟨hlow, hrest⟩ := List.cons.inj htail
          have hx := x.toNat_lt
          have hy := y.toNat_lt
          have hhigh := hexDigit_injective _ (by omega) _ (by omega) hhigh
          have hlow := hexDigit_injective _ (by omega) _ (by omega) hlow
          obtain rfl : x = y := UInt8.toNat_inj.mp (by omega)
          rw [ih hrest]

/-- The bytes of a text determine it. -/
theorem utf8Bytes_injective : Function.Injective utf8Bytes := by
  intro s t h
  refine String.toByteArray_inj.mp ?_
  exact ByteArray.ext (Array.toList_inj.mp h)

/-! ### Calls -/

/-- One call of `assemble_document`. -/
structure DocumentCall where
  owner : Uuid
  sourceAddress : String
  sourceBlob : BlobRef
  assembly : Assembly

/-- What is hashed for the identity of a document. -/
def documentMaterial (owner : Uuid) (contentDigest : String) : List UInt8 :=
  utf8Bytes "ratatoskr.document.v1\x00" ++ beBytes 16 owner ++ utf8Bytes contentDigest

/-- What is hashed for the identity of a block. -/
def blockMaterial (contentDigest : String) (index : ℕ) : List UInt8 :=
  utf8Bytes "ratatoskr.document-ir.block.v1\\0" ++ utf8Bytes contentDigest ++ beBytes 8 index

/-- The identity of a block. -/
def DocumentBlock.blockId : DocumentBlock → Uuid
  | .heading blockId _ _ => blockId
  | .paragraph blockId _ => blockId

/-- The identities of the blocks of a document, in order. -/
def Document.blockIds (document : Document) : List Uuid :=
  document.blocks.map DocumentBlock.blockId

namespace DocumentCall

/-- The kinds, heading levels and texts of the blocks, without their identities. -/
def content (call : DocumentCall) : List DigestBlock :=
  call.assembly.blocks.map DocumentBlock.digestBlock

/-- `assemble_document` on this call. -/
def document (call : DocumentCall) (lib : DocumentLib) : Except DocumentIrError Document :=
  call.assembly.document lib call.owner call.sourceAddress call.sourceBlob

/-- The content digest of a canonical text. -/
def digestOf (lib : DocumentLib) (canonical : String) : String :=
  hex (lib.sha256 (utf8Bytes canonical))

/-- The inputs that a call hashes. -/
def Hashed (call : DocumentCall) (lib : DocumentLib) (input : List UInt8) : Prop :=
  ∃ canonical, lib.canonicalJson call.content = some canonical ∧
    (input = utf8Bytes canonical ∨ input = documentMaterial call.owner (digestOf lib canonical) ∨
      ∃ index < call.assembly.blocks.length,
        input = blockMaterial (digestOf lib canonical) index)

end DocumentCall

/-- Truncated to the bits that an identity keeps, the hash has no collision on these inputs. -/
def DocumentLib.CollisionFree (lib : DocumentLib) (inputs : List UInt8 → Prop) : Prop :=
  ∀ x y, inputs x → inputs y → uuidOfDigest (lib.sha256 x) = uuidOfDigest (lib.sha256 y) → x = y

/-- The canonical rendering tells digest blocks apart. -/
def DocumentLib.CanonicalInjective (lib : DocumentLib) : Prop :=
  ∀ xs ys text, lib.canonicalJson xs = some text → lib.canonicalJson ys = some text → xs = ys

section Identity

variable {lib : DocumentLib} {call call₁ call₂ : DocumentCall} {d d₁ d₂ : Document}

/-- A block under another identity has that identity. -/
@[simp]
theorem DocumentBlock.blockId_withId (blockId : Uuid) (block : DocumentBlock) :
    (block.withId blockId).blockId = blockId := by
  cases block <;> rfl

/-- Blocks of one content differ in their identities only, which are overwritten. -/
theorem DocumentBlock.withId_eq_of_digestBlock {blockId : Uuid} {b b' : DocumentBlock}
    (h : b.digestBlock = b'.digestBlock) : b.withId blockId = b'.withId blockId := by
  cases b <;> cases b' <;> simp_all [DocumentBlock.digestBlock, DocumentBlock.withId]

/-- **What a successful call assembles.** -/
theorem DocumentCall.document_eq_ok (h : call.document lib = .ok d) :
    ∃ canonical, lib.canonicalJson call.content = some canonical ∧
      call.assembly.blocks.length ≤ 2 ^ 32 ∧
      d.documentId = stableDocumentId lib call.owner (digestOf lib canonical) ∧
      d.contentDigest = ⟨.sha256, digestOf lib canonical⟩ ∧
      d.blocks = assignBlockIds lib call.assembly.blocks (digestOf lib canonical) ∧
      d.provenance = d.blocks.mapIdx fun index _ =>
        ⟨index, call.assembly.strategy, call.sourceBlob⟩ := by
  obtain ⟨canonical, hcanonical, h⟩ := Except.bind_eq_ok_iff.mp h
  obtain ⟨_, hlength, h⟩ := Except.bind_eq_ok_iff.mp h
  cases h
  exact ⟨canonical, Except.okOr_eq_ok_iff.mp hcanonical, Except.require_eq_ok_iff.mp hlength,
    rfl, rfl, rfl, rfl⟩

/-- The identities that are assigned, by position. -/
theorem blockIds_assign (blocks : List DocumentBlock) (contentDigest : String) :
    (assignBlockIds lib blocks contentDigest).map DocumentBlock.blockId =
      (List.range blocks.length).map fun index =>
        uuidOfDigest (lib.sha256 (blockMaterial contentDigest index)) := by
  refine List.ext_getElem (by simp [assignBlockIds]) fun i h₁ h₂ => ?_
  simp only [assignBlockIds, List.getElem_map, List.getElem_mapIdx, List.getElem_range,
    DocumentBlock.blockId_withId]
  rfl

/-- The block identities of an assembled document, by position. -/
theorem DocumentCall.blockIds_eq {canonical : String}
    (h : d.blocks = assignBlockIds lib call.assembly.blocks (digestOf lib canonical)) :
    d.blockIds = (List.range call.assembly.blocks.length).map fun index =>
      uuidOfDigest (lib.sha256 (blockMaterial (digestOf lib canonical) index)) := by
  rw [Document.blockIds, h, blockIds_assign]

/-- Equal contents have as many blocks. -/
theorem DocumentCall.length_content : call.content.length = call.assembly.blocks.length :=
  List.length_map _

/-- The inputs of two calls. -/
def HashedBy (lib : DocumentLib) (call₁ call₂ : DocumentCall) (input : List UInt8) : Prop :=
  call₁.Hashed lib input ∨ call₂.Hashed lib input

/-- Equal digests are digests of equal contents. -/
theorem content_eq_of_digest (hhash : lib.CollisionFree (HashedBy lib call₁ call₂))
    (hjson : lib.CanonicalInjective) {text₁ text₂ : String}
    (h₁ : lib.canonicalJson call₁.content = some text₁)
    (h₂ : lib.canonicalJson call₂.content = some text₂)
    (h : DocumentCall.digestOf lib text₁ = DocumentCall.digestOf lib text₂) :
    call₁.content = call₂.content := by
  have hsha : lib.sha256 (utf8Bytes text₁) = lib.sha256 (utf8Bytes text₂) := hex_injective h
  have hbytes : utf8Bytes text₁ = utf8Bytes text₂ :=
    hhash _ _ (Or.inl ⟨text₁, h₁, Or.inl rfl⟩) (Or.inr ⟨text₂, h₂, Or.inl rfl⟩)
      (congrArg uuidOfDigest hsha)
  obtain rfl := utf8Bytes_injective hbytes
  exact hjson _ _ _ h₁ h₂

/-- Equal document identities are those of one owner and one digest. -/
theorem documentMaterial_injective {owner₁ owner₂ : Uuid} {digest₁ digest₂ : String}
    (h₁ : owner₁ < 2 ^ 128) (h₂ : owner₂ < 2 ^ 128)
    (h : documentMaterial owner₁ digest₁ = documentMaterial owner₂ digest₂) :
    owner₁ = owner₂ ∧ digest₁ = digest₂ := by
  rw [documentMaterial, documentMaterial, List.append_assoc, List.append_assoc] at h
  have hrest := List.append_cancel_left h
  obtain ⟨howner, hdigest⟩ := List.append_inj hrest (by simp [beBytes])
  exact ⟨beBytes_injective (by omega) (by omega) howner, utf8Bytes_injective hdigest⟩

/-- Equal block identities of one position are those of one digest. -/
theorem blockMaterial_digest {digest₁ digest₂ : String} {index : ℕ}
    (h : blockMaterial digest₁ index = blockMaterial digest₂ index) : digest₁ = digest₂ := by
  have hprefix := List.append_cancel_right h
  exact utf8Bytes_injective (List.append_cancel_left hprefix)

/-- Equal block identities of one digest are those of one position. -/
theorem blockMaterial_index {digest : String} {i j : ℕ} (hi : i < 2 ^ 64) (hj : j < 2 ^ 64)
    (h : blockMaterial digest i = blockMaterial digest j) : i = j :=
  beBytes_injective (by omega) (by omega) (List.append_cancel_left h)

/-- Two documents with the same block identities have the same content: the first identity tells
the digests apart, and without blocks there is no content. -/
theorem content_eq_of_blockIds (hhash : lib.CollisionFree (HashedBy lib call₁ call₂))
    (hjson : lib.CanonicalInjective) (h₁ : call₁.document lib = .ok d₁)
    (h₂ : call₂.document lib = .ok d₂) (hids : d₁.blockIds = d₂.blockIds) :
    call₁.content = call₂.content := by
  obtain ⟨text₁, hjson₁, -, -, -, hblocks₁, -⟩ := DocumentCall.document_eq_ok h₁
  obtain ⟨text₂, hjson₂, -, -, -, hblocks₂, -⟩ := DocumentCall.document_eq_ok h₂
  rw [DocumentCall.blockIds_eq hblocks₁, DocumentCall.blockIds_eq hblocks₂] at hids
  have hlength : call₁.assembly.blocks.length = call₂.assembly.blocks.length := by
    simpa using congrArg List.length hids
  rcases Nat.eq_zero_or_pos call₁.assembly.blocks.length with hzero | hpos
  · have hnil₁ : call₁.content = [] :=
      List.length_eq_zero_iff.mp (DocumentCall.length_content.trans hzero)
    have hnil₂ : call₂.content = [] :=
      List.length_eq_zero_iff.mp (DocumentCall.length_content.trans (hlength ▸ hzero))
    rw [hnil₁, hnil₂]
  · have hfirst := List.getElem_of_eq hids (i := 0) (by simpa using hpos)
    simp only [List.getElem_map, List.getElem_range] at hfirst
    have hmaterial := hhash _ _
      (Or.inl ⟨text₁, hjson₁, Or.inr (Or.inr ⟨0, hpos, rfl⟩)⟩)
      (Or.inr ⟨text₂, hjson₂, Or.inr (Or.inr ⟨0, hlength ▸ hpos, rfl⟩)⟩) hfirst
    exact content_eq_of_digest hhash hjson hjson₁ hjson₂ (blockMaterial_digest hmaterial)

/-- Two documents with the same identity have the same owner and the same content. -/
theorem content_eq_of_documentId (hhash : lib.CollisionFree (HashedBy lib call₁ call₂))
    (hjson : lib.CanonicalInjective) (hown₁ : call₁.owner < 2 ^ 128)
    (hown₂ : call₂.owner < 2 ^ 128) (h₁ : call₁.document lib = .ok d₁)
    (h₂ : call₂.document lib = .ok d₂) (hids : d₁.documentId = d₂.documentId) :
    call₁.owner = call₂.owner ∧ call₁.content = call₂.content := by
  obtain ⟨text₁, hjson₁, -, hid₁, -⟩ := DocumentCall.document_eq_ok h₁
  obtain ⟨text₂, hjson₂, -, hid₂, -⟩ := DocumentCall.document_eq_ok h₂
  rw [hid₁, hid₂] at hids
  have hmaterial := hhash _ _
    (Or.inl ⟨text₁, hjson₁, Or.inr (Or.inl rfl)⟩) (Or.inr ⟨text₂, hjson₂, Or.inr (Or.inl rfl)⟩) hids
  obtain ⟨howner, hdigest⟩ := documentMaterial_injective hown₁ hown₂ hmaterial
  exact ⟨howner, content_eq_of_digest hhash hjson hjson₁ hjson₂ hdigest⟩

/-- Equal contents of one owner have one digest and the same identities. -/
theorem identities_eq_of_content (h₁ : call₁.document lib = .ok d₁)
    (h₂ : call₂.document lib = .ok d₂) (h : call₁.content = call₂.content) :
    d₁.contentDigest = d₂.contentDigest ∧ d₁.blockIds = d₂.blockIds ∧
      (call₁.owner = call₂.owner → d₁.documentId = d₂.documentId) := by
  obtain ⟨text₁, hjson₁, -, hid₁, hdigest₁, hblocks₁, -⟩ := DocumentCall.document_eq_ok h₁
  obtain ⟨text₂, hjson₂, -, hid₂, hdigest₂, hblocks₂, -⟩ := DocumentCall.document_eq_ok h₂
  obtain rfl : text₁ = text₂ := by
    rw [h, hjson₂] at hjson₁
    exact (Option.some.inj hjson₁).symm
  have hlength : call₁.assembly.blocks.length = call₂.assembly.blocks.length := by
    rw [← DocumentCall.length_content, ← DocumentCall.length_content, h]
  refine ⟨hdigest₁.trans hdigest₂.symm, ?_, fun howner => ?_⟩
  · rw [DocumentCall.blockIds_eq hblocks₁, DocumentCall.blockIds_eq hblocks₂, hlength]
  · rw [hid₁, hid₂, howner]

/-- Within one document the block identities are pairwise distinct. -/
theorem nodup_blockIds (hhash : lib.CollisionFree (call.Hashed lib))
    (h : call.document lib = .ok d) : d.blockIds.Nodup := by
  obtain ⟨text, hjson, hlength, -, -, hblocks, -⟩ := DocumentCall.document_eq_ok h
  rw [DocumentCall.blockIds_eq hblocks]
  refine List.Nodup.map_on ?_ List.nodup_range
  intro i hi j hj hij
  have hi := List.mem_range.mp hi
  have hj := List.mem_range.mp hj
  have hmaterial := hhash _ _ ⟨text, hjson, Or.inr (Or.inr ⟨i, hi, rfl⟩)⟩
    ⟨text, hjson, Or.inr (Or.inr ⟨j, hj, rfl⟩)⟩ hij
  exact blockMaterial_index (by omega) (by omega) hmaterial

/-- The provenance has one entry for each block, with its position. -/
theorem provenance_index (h : call.document lib = .ok d) :
    d.provenance.map DocumentProvenance.blockIndex = List.range d.blocks.length := by
  obtain ⟨-, -, -, -, -, -, hprovenance⟩ := DocumentCall.document_eq_ok h
  rw [hprovenance]
  refine List.ext_getElem (by simp) fun i h₁ h₂ => ?_
  simp

/-- The identities that the blocks come with have no influence. -/
theorem document_of_content {blocks : List DocumentBlock}
    (h : blocks.map DocumentBlock.digestBlock = call.content) :
    { call with assembly := { call.assembly with blocks := blocks } }.document lib =
      call.document lib := by
  have hassign : ∀ contentDigest, assignBlockIds lib blocks contentDigest =
      assignBlockIds lib call.assembly.blocks contentDigest := by
    intro contentDigest
    have hlength : blocks.length = call.assembly.blocks.length := by
      simpa [DocumentCall.content] using congrArg List.length h
    refine List.ext_getElem (by simpa [assignBlockIds] using hlength) fun i h₁ h₂ => ?_
    simp only [assignBlockIds, List.getElem_mapIdx]
    have hi : i < blocks.length := by simpa [assignBlockIds] using h₁
    have hblock := List.getElem_of_eq h (i := i) (by simpa using hi)
    rw [List.getElem_map] at hblock
    exact DocumentBlock.withId_eq_of_digestBlock (hblock.trans (by simp [DocumentCall.content]))
  have hlength : blocks.length = call.assembly.blocks.length := by
    simpa [DocumentCall.content] using congrArg List.length h
  simp only [DocumentCall.document, Assembly.document, assembleDocument, hassign, hlength]
  rw [h, DocumentCall.content]

/-- **The identity of a document.** For two successful calls, whatever their source addresses,
blobs, strategies, titles and languages are: for one owner the document identities, the content
digests and the lists of block identities each agree exactly when the contents agree; for two
owners the document identities differ. Within a document the block identities are pairwise
distinct, the provenance has one entry for each block with its position, and the identities that
the blocks came with have no influence. -/
theorem document_identity (hhash : lib.CollisionFree (HashedBy lib call₁ call₂))
    (hjson : lib.CanonicalInjective) (hown₁ : call₁.owner < 2 ^ 128)
    (hown₂ : call₂.owner < 2 ^ 128) (h₁ : call₁.document lib = .ok d₁)
    (h₂ : call₂.document lib = .ok d₂) :
    (call₁.owner = call₂.owner →
      (d₁.documentId = d₂.documentId ↔ call₁.content = call₂.content) ∧
      (d₁.contentDigest = d₂.contentDigest ↔ call₁.content = call₂.content) ∧
      (d₁.blockIds = d₂.blockIds ↔ call₁.content = call₂.content)) ∧
    (call₁.owner ≠ call₂.owner → d₁.documentId ≠ d₂.documentId) ∧
    d₁.blockIds.Nodup ∧
    d₁.provenance.map DocumentProvenance.blockIndex = List.range d₁.blocks.length ∧
    ∀ blocks, blocks.map DocumentBlock.digestBlock = call₁.content →
      { call₁ with assembly := { call₁.assembly with blocks := blocks } }.document lib =
        .ok d₁ := by
  refine ⟨fun howner => ⟨⟨?_, ?_⟩, ⟨?_, ?_⟩, ?_, ?_⟩, ?_, ?_, provenance_index h₁, ?_⟩
  · exact fun hids => (content_eq_of_documentId hhash hjson hown₁ hown₂ h₁ h₂ hids).2
  · exact fun h => (identities_eq_of_content h₁ h₂ h).2.2 howner
  · intro hdigests
    obtain ⟨text₁, hjson₁, -, -, hdigest₁, -⟩ := DocumentCall.document_eq_ok h₁
    obtain ⟨text₂, hjson₂, -, -, hdigest₂, -⟩ := DocumentCall.document_eq_ok h₂
    rw [hdigest₁, hdigest₂] at hdigests
    exact content_eq_of_digest hhash hjson hjson₁ hjson₂ (congrArg ContentDigest.hex hdigests)
  · exact fun h => (identities_eq_of_content h₁ h₂ h).1
  · exact content_eq_of_blockIds hhash hjson h₁ h₂
  · exact fun h => (identities_eq_of_content h₁ h₂ h).2.1
  · exact fun hne hids =>
      hne (content_eq_of_documentId hhash hjson hown₁ hown₂ h₁ h₂ hids).1
  · exact nodup_blockIds (fun x y hx hy => hhash x y (Or.inl hx) (Or.inl hy)) h₁
  · exact fun blocks hblocks => (document_of_content hblocks).trans h₁

end Identity

/-! ### Two transcripts -/

/-- A transcript of one block. -/
def transcriptCall (text : String) : DocumentCall where
  owner := 2
  sourceAddress := "https://www.youtube.com/watch?v=dQw4w9WgXcQ"
  sourceBlob := ⟨producer, ⟨.sha256, exampleHex⟩, "text/xml", 64⟩
  assembly := ⟨"youtube_transcript", none, some "en", [paragraphBlock text]⟩

/-- What is hashed for such a transcript. -/
def transcriptInputs (text : String) : List (List UInt8) :=
  match exampleTrackDocumentLib.canonicalJson [.paragraph text] with
  | some canonical =>
      let digest := DocumentCall.digestOf exampleTrackDocumentLib canonical
      [utf8Bytes canonical, documentMaterial 2 digest, blockMaterial digest 0]
  | none => []

theorem hashed_transcript {text : String} {x : List UInt8}
    (h : (transcriptCall text).Hashed exampleTrackDocumentLib x) : x ∈ transcriptInputs text := by
  obtain ⟨canonical, hjson, hx⟩ := h
  have hinputs : transcriptInputs text = [utf8Bytes canonical,
      documentMaterial 2 (DocumentCall.digestOf exampleTrackDocumentLib canonical),
      blockMaterial (DocumentCall.digestOf exampleTrackDocumentLib canonical) 0] := by
    rw [transcriptInputs, show exampleTrackDocumentLib.canonicalJson [.paragraph text] =
      some canonical from hjson]
  rw [hinputs]
  rcases hx with rfl | rfl | ⟨index, hindex, rfl⟩
  · exact List.mem_cons_self
  · exact List.mem_cons_of_mem _ List.mem_cons_self
  · obtain rfl : index = 0 := Nat.lt_one_iff.mp hindex
    exact List.mem_cons_of_mem _ (List.mem_cons_of_mem _ List.mem_cons_self)

/-- The digests of the two transcripts do not collide. -/
theorem collisionFree_transcripts : exampleTrackDocumentLib.CollisionFree
    (HashedBy exampleTrackDocumentLib (transcriptCall "hi") (transcriptCall "\x00")) := by
  have hdistinct : ∀ x ∈ transcriptInputs "hi" ++ transcriptInputs "\x00",
      ∀ y ∈ transcriptInputs "hi" ++ transcriptInputs "\x00",
        uuidOfDigest (exampleTrackDocumentLib.sha256 x) =
          uuidOfDigest (exampleTrackDocumentLib.sha256 y) → x = y := by
    decide +kernel
  have hmem : ∀ x, HashedBy exampleTrackDocumentLib (transcriptCall "hi") (transcriptCall "\x00") x →
      x ∈ transcriptInputs "hi" ++ transcriptInputs "\x00" := by
    rintro x (hx | hx)
    · exact List.mem_append_left _ (hashed_transcript hx)
    · exact List.mem_append_right _ (hashed_transcript hx)
  exact fun x y hx hy => hdistinct x (hmem x hx) y (hmem y hy)

theorem canonicalInjective_transcripts : exampleTrackDocumentLib.CanonicalInjective := by
  intro xs ys text hxs hys
  simp only [exampleTrackDocumentLib] at hxs hys
  split_ifs at hxs hys with hx hy hy hx hnot hy
  · exact hx.trans hy.symm
  · exact absurd (Option.some.inj (hxs.trans hys.symm)) (by decide)
  · exact absurd (Option.some.inj (hxs.trans hys.symm)) (by decide)
  · exact hx.trans hy.symm

/-- Two transcripts of one owner with different texts have different identities. -/
theorem document_identity_transcripts : ∃ d₁ d₂,
    (transcriptCall "hi").document exampleTrackDocumentLib = .ok d₁ ∧
      (transcriptCall "\x00").document exampleTrackDocumentLib = .ok d₂ ∧
      d₁.documentId ≠ d₂.documentId ∧ d₁.blockIds ≠ d₂.blockIds := by
  obtain ⟨d₁, h₁⟩ : ∃ d, (transcriptCall "hi").document exampleTrackDocumentLib = .ok d :=
    assembleDocument_isOk _ _ _ _ _ _ _ _ rfl (by decide)
  obtain ⟨d₂, h₂⟩ : ∃ d, (transcriptCall "\x00").document exampleTrackDocumentLib = .ok d :=
    assembleDocument_isOk _ _ _ _ _ _ _ _ rfl (by decide)
  have hidentity := (document_identity collisionFree_transcripts canonicalInjective_transcripts
    (by decide) (by decide) h₁ h₂).1 rfl
  have hcontent : (transcriptCall "hi").content ≠ (transcriptCall "\x00").content := by decide
  exact ⟨d₁, d₂, h₁, h₂, fun h => hcontent (hidentity.1.mp h), fun h =>
    hcontent (hidentity.2.2.mp h)⟩

end Extractor
