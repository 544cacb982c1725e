import Mathlib.Data.Nat.Notation

/-!
# The shared contract types

The values that the extractor exchanges with the rest of the fleet, from the shared
`ratatoskr-*` contract crates, with the members this service reads or writes. The crates
themselves are outside the repository: what they compute (parsing of identifiers,
validation of payloads, the length of a serialized envelope) is collected in the parameter
`Contracts`. Parsing a constant of this service, or an identifier made of a uuid, always
succeeds and is not a parameter.

Timestamps are natural numbers of microseconds, the resolution of `timestamptz`.
-/

namespace Extractor

/-- A uuid. -/
abbrev Uuid := ℕ

/-- A `timestamptz` value in microseconds. -/
abbrev Timestamp := ℕ

/-- A number of whole seconds as a difference of timestamps. -/
def seconds (n : ℕ) : Timestamp := 1000000 * n

/-- `PRODUCER`: the name of this service. -/
def producer : String := "ratatoskr-extractor"

/-- Subject of the extracted-document fact. -/
def documentSubject : String := "evt.content.document.extracted.v1"

/-- `REPORT_SUBJECT`: subject of the operation report. -/
def reportSubject : String := "evt.platform.operation.reported.v1"

/-- A text that PostgreSQL stores: it rejects the character U+0000, in `text` columns and in
the strings of a `jsonb` value. -/
def storable (text : String) : Bool :=
  text.toList.all fun c => c.toNat != 0

/-! ### References to stored bytes -/

/-- `DigestAlgorithm`; only SHA-256 is supported here. -/
inductive DigestAlgorithm
  | sha256
  | other
  deriving DecidableEq

/-- `ContentDigest`. -/
structure ContentDigest where
  algorithm : DigestAlgorithm
  hex : String
  deriving DecidableEq

/-- `BlobRef`: owner, digest, media type and length of stored bytes. -/
structure BlobRef where
  ownerService : String
  digest : ContentDigest
  mediaType : String
  lengthBytes : ℕ
  deriving DecidableEq

/-- The texts of a reference. -/
def BlobRef.texts (blob : BlobRef) : List String :=
  [blob.ownerService, blob.digest.hex, blob.mediaType]

/-! ### Documents -/

/-- `DocumentBlock`. -/
inductive DocumentBlock
  | heading (blockId : Uuid) (level : ℕ) (text : String)
  | paragraph (blockId : Uuid) (text : String)
  deriving DecidableEq

/-- The text of a block. -/
def DocumentBlock.text : DocumentBlock → String
  | .heading _ _ text => text
  | .paragraph _ text => text

/-- `DocumentProvenance`. -/
structure DocumentProvenance where
  blockIndex : ℕ
  extractionStrategy : String
  sourceBlob : BlobRef
  deriving DecidableEq

/-- `Document`. -/
structure Document where
  documentId : Uuid
  sourceAddress : String
  contentDigest : ContentDigest
  title : Option String
  language : Option String
  blocks : List DocumentBlock
  provenance : List DocumentProvenance
  deriving DecidableEq

/-- The texts of a document. -/
def Document.texts (document : Document) : List String :=
  [document.sourceAddress, document.contentDigest.hex] ++ document.title.toList ++
    document.language.toList ++ document.blocks.map DocumentBlock.text ++
    document.provenance.flatMap fun p => p.extractionStrategy :: p.sourceBlob.texts

/-! ### Events -/

/-- `EntityRef`: the identity of an operation, a document or a command, or one that a peer
chose. -/
inductive EntityRef
  | operation (id : Uuid)
  | document (id : Uuid)
  | command (id : Uuid)
  | text (value : String)
  deriving DecidableEq

/-- `OperationStatus`, the values this service reports. -/
inductive OperationStatus
  | queued
  | succeeded
  | partiallySucceeded
  | failed
  deriving DecidableEq

/-- `ErrorEnvelope`. -/
structure ErrorEnvelope where
  code : String
  message : String
  retryable : Bool
  correlationId : Option EntityRef
  deriving DecidableEq

/-- `WarningEnvelope`. -/
structure WarningEnvelope where
  code : String
  message : String
  deriving DecidableEq

/-- `OperationResultRef`. -/
structure OperationResultRef where
  resultKind : String
  target : EntityRef
  blob : Option BlobRef
  deriving DecidableEq

/-- `OperationReported`. -/
structure OperationReported where
  operationId : Uuid
  status : OperationStatus
  results : List OperationResultRef
  error : Option ErrorEnvelope
  warnings : List WarningEnvelope
  deriving DecidableEq

/-- `ContentDocumentExtracted`. -/
structure ContentDocumentExtracted where
  document : Document
  documentBlob : BlobRef
  deriving DecidableEq

/-- The payloads this service publishes; the event type follows from the payload. -/
inductive EventPayload
  | documentExtracted (fact : ContentDocumentExtracted)
  | operationReported (report : OperationReported)
  deriving DecidableEq

/-- `EventEnvelope`; the producer is always this service. -/
structure EventEnvelope where
  eventId : Uuid
  occurredAt : Timestamp
  aggregateId : EntityRef
  correlationId : EntityRef
  causationId : EntityRef
  /-- The user that owns the content, as `user:<uuid>`. -/
  tenantId : Uuid
  payload : EventPayload
  deriving DecidableEq

/-- The texts of an identity. -/
def EntityRef.texts : EntityRef → List String
  | .text value => [value]
  | _ => []

/-- The texts of a payload. -/
def EventPayload.texts : EventPayload → List String
  | .documentExtracted fact => fact.document.texts ++ fact.documentBlob.texts
  | .operationReported report =>
      (report.results.flatMap fun r => (r.blob.toList.flatMap BlobRef.texts)) ++
        (report.error.toList.flatMap fun e =>
          [e.code, e.message] ++ (e.correlationId.toList.flatMap EntityRef.texts)) ++
        report.warnings.flatMap fun w => [w.code, w.message]

/-- The texts of an envelope, all of which its `jsonb` value holds. -/
def EventEnvelope.texts (envelope : EventEnvelope) : List String :=
  envelope.aggregateId.texts ++ envelope.correlationId.texts ++ envelope.causationId.texts ++
    envelope.payload.texts

/-- What the contract crates compute. -/
structure Contracts where
  /-- `EntityRef::parse` accepts a stored identity. -/
  entityRefIsValid : String → Bool
  /-- `ContentDocumentExtracted::validate`. -/
  factIsValid : ContentDocumentExtracted → Bool
  /-- `OperationReported::validate`. -/
  reportIsValid : OperationReported → Bool
  /-- `EventEnvelope::set_payload` accepts a payload. -/
  payloadIsValid : EventPayload → Bool
  /-- The number of bytes of the envelope's JSON value. -/
  serializedBytes : EventEnvelope → ℕ

end Extractor
