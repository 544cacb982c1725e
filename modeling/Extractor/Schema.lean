import Extractor.DocumentIr
import Extractor.OutboxRelay
import Extractor.UrlRouting

/-!
# The database

The tables of `schema.sql` that the run ledger lives in, with their check constraints, and
the transactions over them. A transaction reads and writes the database and may fail; a
failed transaction leaves the database as it was.

`uuid::Uuid::now_v7` never repeats: fresh identifiers are taken from a counter.

## Main definitions

* `Db`: the tables.
* `Tx`: transactions, with the errors of `ConsumeError`.
* `transact`: a transaction against the pool.
-/

namespace Extractor

/-! ### Errors -/

/-- `ConsumeError`. -/
inductive ConsumeError
  | invalidSubject
  | invalidCommandType
  | invalidUrlScheme
  | command
  | commandEnvelope
  | foreignProducer
  | missingTenant
  | identity
  | envelope
  | eventType
  | database
  | url (error : UrlError)
  | invalidRunState
  | invalidArtifact
  | aggregateMismatch
  | invalidPayload
  | artifactStore
  deriving DecidableEq

/-! ### Rows -/

/-- Whether the length of a text, in characters, is within bounds. -/
def lengthBetween (low high : ℕ) (text : String) : Bool :=
  decide (low ≤ text.length ∧ text.length ≤ high)

/-- `~ '^[0-9a-f]{64}$'`. -/
def isSha256Hex (text : String) : Bool :=
  text.length == 64 &&
    text.toList.all fun c => c.isDigit || decide ('a' ≤ c ∧ c ≤ 'f')

/-- `source_kind`. -/
inductive SourceKind
  | url
  | blob
  deriving DecidableEq

/-- One row of `extractor.sources`. -/
structure SourceRow where
  sourceId : Uuid
  ownerId : Uuid
  originalUrl : String
  normalizedUrl : String
  canonicalUrl : String
  host : String
  classification : String
  createdAt : Timestamp
  sourceKind : SourceKind
  blobDigestHex : Option String
  deriving DecidableEq

/-- The constraints of `extractor.sources`. -/
def SourceRow.checked (r : SourceRow) : Bool :=
  [r.originalUrl, r.normalizedUrl, r.canonicalUrl, r.host, r.classification].all storable &&
    ((r.sourceKind == .blob) == r.blobDigestHex.isSome) &&
    r.blobDigestHex.all isSha256Hex &&
    [r.originalUrl, r.normalizedUrl, r.canonicalUrl].all (lengthBetween 1 8192) &&
    lengthBetween 1 253 r.host

/-- `outcome` of an inbox row. -/
inductive InboxOutcome
  | applied
  | duplicate
  | rejected
  deriving DecidableEq

/-- One row of `extractor.inbox_events`; the constraints fix the subject and the type. -/
structure InboxRow where
  commandId : Uuid
  producer : String
  receivedAt : Timestamp
  appliedAt : Option Timestamp
  outcome : Option InboxOutcome
  deriving DecidableEq

/-- The constraints of `extractor.inbox_events`. -/
def InboxRow.checked (r : InboxRow) : Bool :=
  storable r.producer && lengthBetween 1 64 r.producer && (r.outcome.isSome == r.appliedAt.isSome)

/-- `status` of a run. -/
inductive RunStatus
  | queued
  | running
  | succeeded
  | failed
  deriving DecidableEq

/-- A run that is over. -/
def RunStatus.terminal : RunStatus → Bool
  | .succeeded | .failed => true
  | .queued | .running => false

/-- One row of `extractor.extraction_runs`. -/
structure RunRow where
  runId : Uuid
  commandId : Uuid
  operationId : Uuid
  ownerId : Uuid
  correlationId : String
  sourceId : Uuid
  status : RunStatus
  policyVersion : String
  normalizerVersion : String
  parserVersion : String
  queuedAt : Timestamp
  startedAt : Option Timestamp
  completedAt : Option Timestamp
  lastErrorClass : Option String
  claimedUntil : Option Timestamp
  claimedBy : Option String
  blobOwner : Option String
  blobMediaType : Option String
  blobLengthBytes : Option ℕ
  deriving DecidableEq

/-- The constraints of `extractor.extraction_runs`. -/
def RunRow.checked (r : RunRow) : Bool :=
  storable r.correlationId && r.lastErrorClass.all storable && r.claimedBy.all storable &&
    r.blobOwner.all storable && r.blobMediaType.all storable &&
    (r.startedAt.isSome == (r.status != .queued)) &&
    (r.completedAt.isSome == r.status.terminal) &&
    r.lastErrorClass.all (lengthBetween 1 64) &&
    (r.claimedUntil.isNone == r.claimedBy.isNone) &&
    r.claimedBy.all (lengthBetween 1 64) &&
    (r.blobOwner.isNone == r.blobMediaType.isNone) &&
    (r.blobOwner.isNone == r.blobLengthBytes.isNone) &&
    r.blobOwner.all (lengthBetween 1 64)

/-- One row of `extractor.fetches`. -/
structure FetchRow where
  runId : Uuid
  finalUrl : String
  httpStatus : ℕ
  mediaType : String
  wireBytes : ℕ
  decodedBytes : ℕ
  attempts : ℕ
  cacheOutcome : String
  etag : Option String
  lastModified : Option String
  fetchedAt : Timestamp
  deriving DecidableEq

/-- The constraints of `extractor.fetches`. -/
def FetchRow.checked (r : FetchRow) : Bool :=
  [r.finalUrl, r.mediaType, r.cacheOutcome].all storable && r.etag.all storable &&
    r.lastModified.all storable &&
    decide (100 ≤ r.httpStatus ∧ r.httpStatus ≤ 599) && decide (0 < r.attempts) &&
    (r.cacheOutcome == "fresh" || r.cacheOutcome == "revalidated")

/-- One row of `extractor.artifacts`; this service writes two kinds of them here. -/
structure ArtifactRow where
  runId : Uuid
  kind : String
  ownerService : String
  digestHex : String
  mediaType : String
  lengthBytes : ℕ
  createdAt : Timestamp
  deriving DecidableEq

/-- The constraints of `extractor.artifacts`. -/
def ArtifactRow.checked (r : ArtifactRow) : Bool :=
  ["raw_source", "document_ir", "diagnostics", "archived_media"].contains r.kind &&
    r.ownerService == producer && isSha256Hex r.digestHex && storable r.mediaType

/-- One row of `extractor.candidates`; the score column is `score / 1000`. -/
structure CandidateRow where
  runId : Uuid
  strategy : String
  extractorVersion : String
  metrics : QualityMetrics
  accepted : Bool
  score : ℕ
  reasons : List QualityReason
  selected : Bool
  createdAt : Timestamp
  deriving DecidableEq

/-- The check constraints of `extractor.candidates`. -/
def CandidateRow.checked (r : CandidateRow) : Bool :=
  storable r.strategy && lengthBetween 1 64 r.strategy && decide (r.score ≤ 1000)

/-- One row of `extractor.provider_resolutions`. -/
structure ResolutionRow where
  runId : Uuid
  ordinal : ℕ
  kind : String
  outcome : Option String
  failureClass : Option String
  resolvedUrl : Option String
  createdAt : Timestamp
  deriving DecidableEq

/-- The constraints of `extractor.provider_resolutions`. -/
def ResolutionRow.checked (r : ResolutionRow) : Bool :=
  ["provider_attempt", "resolved_target", "html_fallback", "render_policy"].contains r.kind &&
    decide (r.ordinal ≤ int4Max) && r.outcome.all storable && r.failureClass.all storable &&
    r.resolvedUrl.all storable

/-- The database. -/
structure Db where
  nextUuid : Uuid
  sources : List SourceRow
  inbox : List InboxRow
  runs : List RunRow
  fetches : List FetchRow
  artifacts : List ArtifactRow
  candidates : List CandidateRow
  resolutions : List ResolutionRow
  outbox : List (OutboxRow EventEnvelope)

/-- The empty database. -/
def Db.empty : Db :=
  ⟨0, [], [], [], [], [], [], [], []⟩

/-! ### Transactions -/

/-- A transaction: it reads and writes the database, and may fail. -/
def Tx (α : Type) := Db → Except ConsumeError (α × Db)

namespace Tx

variable {α β : Type}

instance : Monad Tx where
  pure a db := .ok (a, db)
  bind p f db :=
    match p db with
    | .ok (a, db') => f a db'
    | .error e => .error e

instance : MonadExceptOf ConsumeError Tx where
  throw e _ := .error e
  tryCatch p handler db :=
    match p db with
    | .ok r => .ok r
    | .error e => handler e db

/-- Reads the database. -/
def read (f : Db → α) : Tx α := fun db => .ok (f db, db)

/-- Writes the database. -/
def write (f : Db → Db) : Tx Unit := fun db => .ok ((), f db)

/-- `uuid::Uuid::now_v7`. -/
def freshUuid : Tx Uuid := fun db => .ok (db.nextUuid, { db with nextUuid := db.nextUuid + 1 })

/-- **A sequence succeeds when both of its parts do.** -/
theorem bind_eq_ok_iff {p : Tx α} {f : α → Tx β} {db db' : Db} {b : β} :
    (p >>= f) db = .ok (b, db') ↔ ∃ a db₁, p db = .ok (a, db₁) ∧ f a db₁ = .ok (b, db') := by
  change (match p db with
    | .ok (a, db') => f a db'
    | .error e => .error e) = _ ↔ _
  cases h : p db with
  | error e => simp
  | ok r =>
      obtain ⟨a, db₁⟩ := r
      simp

/-- A sequence whose first part succeeds is its rest from there. -/
theorem bind_of_ok {p : Tx α} {f : α → Tx β} {db db₁ : Db} {a : α} (h : p db = .ok (a, db₁)) :
    (p >>= f) db = f a db₁ := by
  change (match p db with
    | .ok (a, db') => f a db'
    | .error e => .error e) = _
  rw [h]

/-- A sequence whose first part fails, fails. -/
theorem bind_of_error {p : Tx α} {f : α → Tx β} {db : Db} {e : ConsumeError}
    (h : p db = .error e) : (p >>= f) db = .error e := by
  change (match p db with
    | .ok (a, db') => f a db'
    | .error e => .error e) = _
  rw [h]

/-- A sequence succeeds when its first part does and its rest does from there. -/
theorem exists_bind_ok {p : Tx α} {f : α → Tx β} {db db₁ : Db} {a : α} {b : β}
    (h : p db = .ok (a, db₁)) (hrest : ∃ db', f a db₁ = .ok (b, db')) :
    ∃ db', (p >>= f) db = .ok (b, db') := by
  obtain ⟨db', hrest⟩ := hrest
  exact ⟨db', bind_eq_ok_iff.mpr ⟨a, db₁, h, hrest⟩⟩

/-- A sequence succeeds when its first part does and its rest always does. -/
theorem exists_bind_of_exists {p : Tx α} {f : α → Tx β} {db : Db} {b : β}
    (h : ∃ a db₁, p db = .ok (a, db₁)) (hrest : ∀ a db₁, ∃ db', f a db₁ = .ok (b, db')) :
    ∃ db', (p >>= f) db = .ok (b, db') := by
  obtain ⟨a, db₁, h⟩ := h
  exact exists_bind_ok h (hrest a db₁)

/-- Returning changes nothing. -/
theorem pure_eq_ok_iff {db db' : Db} {a b : α} :
    (pure a : Tx α) db = .ok (b, db') ↔ a = b ∧ db = db' := by
  change Except.ok (a, db) = Except.ok (b, db') ↔ _
  simp

/-- A failed check is no success. -/
theorem throw_eq_ok_iff {db db' : Db} {e : ConsumeError} {b : α} :
    (throw e : Tx α) db = .ok (b, db') ↔ False := by
  change (Except.error e : Except ConsumeError (α × Db)) = .ok (b, db') ↔ False
  simp

/-- A check succeeds when its condition holds, and changes nothing. -/
theorem require_eq_ok_iff {db db' : Db} {c : Prop} [Decidable c] {e : ConsumeError} {u : Unit} :
    (require c e : Tx Unit) db = .ok (u, db') ↔ c ∧ db = db' := by
  unfold require
  by_cases hc : c
  · simp only [hc, if_true, true_and]
    exact pure_eq_ok_iff.trans (by simp)
  · simp only [hc, if_false, false_and, iff_false]
    exact throw_eq_ok_iff.mp

/-- A present value is returned, and nothing changes. -/
theorem okOr_eq_ok_iff {db db' : Db} {o : Option α} {e : ConsumeError} {a : α} :
    (okOr o e : Tx α) db = .ok (a, db') ↔ o = some a ∧ db = db' := by
  cases o with
  | none => exact throw_eq_ok_iff.trans (by simp)
  | some b => exact pure_eq_ok_iff.trans (by simp)

/-- Reading returns what is there. -/
theorem read_eq_ok_iff {db db' : Db} {f : Db → α} {a : α} :
    read f db = .ok (a, db') ↔ f db = a ∧ db = db' := by
  simp [read]

/-- Writing replaces the database. -/
theorem write_eq_ok_iff {db db' : Db} {f : Db → Db} {u : Unit} :
    write f db = .ok (u, db') ↔ f db = db' := by
  simp [write]

/-- A fresh identifier advances the counter. -/
theorem freshUuid_eq_ok_iff {db db' : Db} {u : Uuid} :
    freshUuid db = .ok (u, db') ↔ db.nextUuid = u ∧ { db with nextUuid := db.nextUuid + 1 } = db' := by
  simp [freshUuid]

/-- A sequence fails when its first part does, or its rest does from there. -/
theorem bind_eq_error_iff {p : Tx α} {f : α → Tx β} {db : Db} {e : ConsumeError} :
    (p >>= f) db = .error e ↔ p db = .error e ∨ ∃ a db₁, p db = .ok (a, db₁) ∧ f a db₁ = .error e := by
  cases h : p db with
  | error e' => simp [bind_of_error h]
  | ok r =>
      obtain ⟨a, db₁⟩ := r
      simp [bind_of_ok h]

/-- A check fails when its condition does not hold. -/
theorem require_eq_error_iff {db : Db} {c : Prop} [Decidable c] {e e' : ConsumeError} :
    (require c e : Tx Unit) db = .error e' ↔ ¬ c ∧ e = e' := by
  unfold require
  by_cases hc : c
  · simp only [hc, if_true, not_true, false_and, iff_false]
    exact fun h => nomatch h
  · simp only [hc, if_false, not_false_eq_true, true_and]
    exact ⟨fun h => Except.error.inj h, congrArg Except.error⟩

/-- An absent value is an error. -/
theorem okOr_eq_error_iff {db : Db} {o : Option α} {e e' : ConsumeError} :
    (okOr o e : Tx α) db = .error e' ↔ o = none ∧ e = e' := by
  cases o with
  | none => exact ⟨fun h => ⟨rfl, Except.error.inj h⟩, fun h => congrArg Except.error h.2⟩
  | some b =>
      constructor
      · intro h
        cases h
      · rintro ⟨h, -⟩
        cases h

theorem pure_ne_error {db : Db} {a : α} {e : ConsumeError} : (pure a : Tx α) db ≠ .error e :=
  fun h => nomatch h

theorem read_ne_error {db : Db} {f : Db → α} {e : ConsumeError} : read f db ≠ .error e :=
  fun h => nomatch h

theorem write_ne_error {db : Db} {f : Db → Db} {e : ConsumeError} : write f db ≠ .error e :=
  fun h => nomatch h

theorem freshUuid_ne_error {db : Db} {e : ConsumeError} : freshUuid db ≠ .error e :=
  fun h => nomatch h

end Tx

/-- A transaction against the pool: its result, and the database after it was committed or
rolled back. -/
def transact {α : Type} (tx : Tx α) (db : Db) : Except ConsumeError α × Db :=
  match tx db with
  | .ok (a, db') => (.ok a, db')
  | .error e => (.error e, db)

end Extractor
