import Extractor.Config
import Extractor.RunLedger

/-!
# Deliverable documents

Three limits on the size of a document event: the configured range of `bus.max_event_bytes`, the
guard of `enqueue_completion_events`, and the guard of `NatsPublisher::publish`, which keeps a
headroom under the broker's `max_payload`. The guard of the completion is the configured value
itself, so a configured value above the publisher's limit lets events through that the publisher
then refuses for good.

## Main results

* `success_deliverable_iff`: the document of a reported success is deliverable exactly when its
  envelope is not between the two limits.
* `success_undeliverable`: an accepted configuration and a document between the limits.
-/

namespace Extractor

/-- The `max_payload` of the broker that the configuration assumes. -/
def brokerMaxPayload : ℕ := maxEventBytesHigh

/-- What the publisher answers for a stored row. -/
def OutboxRow.published (contracts : Contracts) (r : OutboxRow EventEnvelope)
    (acknowledged : Bool) : Except PublishError Unit :=
  natsPublish brokerMaxPayload (contracts.serializedBytes r.payload) acknowledged

/-- The publisher never classes the row as too large, and no relay dead-letters it. -/
def OutboxRow.Deliverable (contracts : Contracts) (r : OutboxRow EventEnvelope) : Prop :=
  ∀ (acknowledged : Bool) (now : Timestamp),
    r.published contracts acknowledged ≠ .error .tooLarge ∧
      (r.settle now (.returned (r.published contracts acknowledged))).deadLetteredAt =
        r.deadLetteredAt

/-- The rows that a completion added report a success. -/
def ReportsSucceeded (rows : List (OutboxRow EventEnvelope)) : Prop :=
  ∃ r ∈ rows, r.fact.reportStatus = some .succeeded

section Limits

variable {contracts : Contracts} {now : Timestamp} {context : CompletionContext}
  {document : Document} {irBlob : BlobRef} {db db' : Db} {ingested : Bool}

/-- A body that the publisher accepts is not dead-lettered for its size. -/
theorem deliverable_of_le {r : OutboxRow EventEnvelope}
    (h : contracts.serializedBytes r.payload ≤ brokerMaxPayload - payloadHeadroomBytes) :
    r.Deliverable contracts := by
  intro acknowledged at_
  have hpublished : r.published contracts acknowledged =
      if acknowledged then .ok () else .error .transient := by
    rw [OutboxRow.published, natsPublish, if_neg (Nat.not_lt.mpr h)]
  rw [hpublished]
  cases acknowledged with
  | true => exact ⟨by simp, rfl⟩
  | false => exact ⟨by simp, rfl⟩

/-- A larger body is not deliverable. -/
theorem not_deliverable_of_lt {r : OutboxRow EventEnvelope}
    (h : brokerMaxPayload - payloadHeadroomBytes < contracts.serializedBytes r.payload) :
    ¬ r.Deliverable contracts := by
  intro hdeliverable
  refine (hdeliverable true 0).1 ?_
  rw [OutboxRow.published, natsPublish, if_pos h]

/-- Only a completion whose document fits reports a success, and then the document is the one
document row it added. -/
theorem completionRows_cases (now : Timestamp) (context : CompletionContext)
    (document : Document) (irBlob : BlobRef) (nextUuid : Uuid) (ingested : Bool) :
    (ReportsSucceeded (completionRows now context document irBlob ingested nextUuid) ↔
      ingested = true) ∧
    (ingested = true → ∀ r ∈ completionRows now context document irBlob ingested nextUuid,
      r.subject = documentSubject →
        r.payload = documentEvent context document irBlob nextUuid now) := by
  have hsubject : reportSubject ≠ documentSubject := by decide
  cases ingested with
  | true =>
      refine ⟨⟨fun _ => rfl, fun _ => ?_⟩, fun _ r hr hdoc => ?_⟩
      · exact ⟨_, List.mem_cons_of_mem _ (List.mem_singleton_self _), rfl⟩
      · rcases List.mem_pair.mp hr with rfl | rfl
        · rfl
        · exact absurd hdoc hsubject
  | false =>
      refine ⟨⟨?_, fun h => nomatch h⟩, fun h => nomatch h⟩
      rintro ⟨r, hr, hstatus⟩
      obtain rfl := List.mem_singleton.mp hr
      cases hstatus

/-- **A reported success is deliverable** exactly when the serialized envelope is not larger
than what the publisher accepts and yet within `bus.max_event_bytes`. -/
theorem success_deliverable_iff {config : ExtractorConfig}
    (h : enqueueCompletionEvents contracts now context document irBlob config.bus.maxEventBytes db =
      .ok (ingested, db')) :
    (∀ rows, db'.outbox = db.outbox ++ rows → ReportsSucceeded rows →
      ∀ r ∈ rows, r.subject = documentSubject → r.Deliverable contracts) ↔
    ¬ (brokerMaxPayload - payloadHeadroomBytes <
        contracts.serializedBytes (documentEvent context document irBlob db.nextUuid now) ∧
      contracts.serializedBytes (documentEvent context document irBlob db.nextUuid now) ≤
        config.bus.maxEventBytes) := by
  obtain ⟨hingested, hdb⟩ := enqueueCompletionEvents_eq_ok h
  obtain ⟨hreports, hdocument⟩ :=
    completionRows_cases now context document irBlob db.nextUuid ingested
  have houtbox : db'.outbox =
      db.outbox ++ completionRows now context document irBlob ingested db.nextUuid := by
    rw [hdb]
  rw [documentFits] at hingested
  constructor
  · rintro hall ⟨hlarge, hfits⟩
    have htrue : ingested = true := hingested.trans (decide_eq_true hfits)
    subst htrue
    have hrow := hall _ houtbox (hreports.mpr rfl) _ (List.mem_cons_self ..) rfl
    exact not_deliverable_of_lt hlarge hrow
  · intro hwindow rows hrows hsucceeded r hr hsubject
    obtain rfl := List.append_cancel_left (houtbox.symm.trans hrows)
    have htrue := hreports.mp hsucceeded
    have hfits := of_decide_eq_true (hingested.symm.trans htrue)
    refine deliverable_of_le (Nat.not_lt.mp fun hlarge => hwindow ⟨?_, hfits⟩)
    rw [hdocument htrue r hr hsubject] at hlarge
    exact hlarge

end Limits

/-! ### Two documents -/

/-- Contracts that accept everything; an envelope has its texts and a thousand bytes of keys,
identifiers and punctuation. -/
def exampleSizes : Contracts :=
  { exampleContracts with
    serializedBytes := fun e => 1000 + (e.texts.map String.utf8ByteSize).sum }

/-- A document of one paragraph of `n` letters. -/
def letterDocument (n : ℕ) : Document :=
  { exampleDocument with blocks := [.paragraph 0 (String.ofList (List.replicate n 'a'))] }

/-- A letter is one byte. -/
theorem utf8ByteSize_replicate (n : ℕ) :
    (String.ofList (List.replicate n 'a')).utf8ByteSize = n := by
  induction n with
  | zero => rfl
  | succ n ih =>
      have hone : (String.ofList ['a']).utf8ByteSize = 1 := rfl
      rw [List.replicate_succ, ← List.singleton_append, String.ofList_append,
        String.utf8ByteSize_append, hone, ih]
      omega

/-- The context of the example run. -/
def exampleContext : CompletionContext := ⟨1, 3, 2, "c"⟩

/-- The size of the event of such a document. -/
theorem letterDocument_bytes (n : ℕ) (eventId : Uuid) (now : Timestamp) :
    exampleSizes.serializedBytes
      (documentEvent exampleContext (letterDocument n) exampleBlob eventId now) = n + 1171 := by
  have htexts : (documentEvent exampleContext (letterDocument n) exampleBlob eventId now).texts =
      ["c", "urn:blob", exampleHex, String.ofList (List.replicate n 'a'), producer, exampleHex,
        "application/pdf"] := rfl
  have hsmall : "c".utf8ByteSize + ("urn:blob".utf8ByteSize + (exampleHex.utf8ByteSize +
      (n + (producer.utf8ByteSize + (exampleHex.utf8ByteSize +
        ("application/pdf".utf8ByteSize + 0)))))) = n + 171 := by
    have h₁ : "c".utf8ByteSize = 1 := rfl
    have h₂ : "urn:blob".utf8ByteSize = 8 := rfl
    have h₃ : exampleHex.utf8ByteSize = 64 := rfl
    have h₄ : producer.utf8ByteSize = 19 := rfl
    have h₅ : "application/pdf".utf8ByteSize = 15 := rfl
    omega
  change 1000 + (List.map String.utf8ByteSize _).sum = _
  rw [htexts]
  simp only [List.map_cons, List.map_nil, List.sum_cons, List.sum_nil, utf8ByteSize_replicate]
  omega

/-- The completion of such a document succeeds. -/
theorem letterDocument_ok (n maxEventBytes : ℕ) : ∃ ingested db',
    enqueueCompletionEvents exampleSizes 0 exampleContext (letterDocument n) exampleBlob
      maxEventBytes Db.empty = .ok (ingested, db') := by
  have hsmall : ["urn:blob", exampleHex, producer, exampleHex, "application/pdf"].all storable =
      true := by
    decide
  have hletters : storable (String.ofList (List.replicate n 'a')) = true := by
    rw [storable, String.toList_ofList, List.all_replicate]
    simp
  refine enqueueCompletionEvents_ok rfl rfl rfl rfl ?_ (fun _ => ⟨rfl, rfl⟩)
    fun r hr => absurd hr List.not_mem_nil
  simp only [List.all_cons, List.all_nil, Bool.and_true, Bool.and_eq_true] at hsmall
  simp [Document.texts, letterDocument, exampleDocument, DocumentBlock.text, BlobRef.texts,
    exampleBlob, hletters, hsmall]

/-- The built-in limit: a document of that size is delivered. -/
theorem success_deliverable_builtIn : ∃ ingested db',
    enqueueCompletionEvents exampleSizes 0 exampleContext (letterDocument 7990000) exampleBlob
        exampleConfig.bus.maxEventBytes Db.empty = .ok (ingested, db') ∧
      ∀ rows, db'.outbox = [] ++ rows → ReportsSucceeded rows →
        ∀ r ∈ rows, r.subject = documentSubject → r.Deliverable exampleSizes := by
  obtain ⟨ingested, db', hok⟩ := letterDocument_ok 7990000 exampleConfig.bus.maxEventBytes
  refine ⟨ingested, db', hok, (success_deliverable_iff hok).mpr ?_⟩
  rw [letterDocument_bytes]
  decide

/-- The built-in configuration with the largest accepted `bus.max_event_bytes`. -/
def largestConfig : ExtractorConfig :=
  { exampleConfig with bus := { exampleConfig.bus with maxEventBytes := maxEventBytesHigh } }

/-- **An accepted configuration, and a success that is not deliverable**: the event has 8388071
bytes, within the configured limit and above what the publisher accepts. -/
theorem success_undeliverable :
    Accepted exampleConfigLib largestConfig ∧ ∃ ingested db' rows r,
      enqueueCompletionEvents exampleSizes 0 exampleContext (letterDocument 8386900) exampleBlob
        largestConfig.bus.maxEventBytes Db.empty = .ok (ingested, db') ∧
      db'.outbox = [] ++ rows ∧ ReportsSucceeded rows ∧ r ∈ rows ∧ r.subject = documentSubject ∧
      r.published exampleSizes true = .error .tooLarge ∧
      (r.settle 1 (.returned (r.published exampleSizes true))).deadLetteredAt = some 1 := by
  have haccepted : Accepted exampleConfigLib largestConfig :=
    exampleConfig_accepted.with_bus (by decide)
  obtain ⟨ingested, db', hok⟩ := letterDocument_ok 8386900 largestConfig.bus.maxEventBytes
  obtain ⟨hingested, hdb⟩ := enqueueCompletionEvents_eq_ok hok
  rw [documentFits, letterDocument_bytes] at hingested
  have htrue : ingested = true := hingested.trans (by decide)
  subst htrue
  have hpublished : ∀ r : OutboxRow EventEnvelope,
      r.payload = documentEvent exampleContext (letterDocument 8386900) exampleBlob 0 0 →
      r.published exampleSizes true = .error .tooLarge := by
    intro r hr
    rw [OutboxRow.published, hr, letterDocument_bytes]
    rfl
  refine ⟨haccepted, true, db', _, exampleContext.outboxRow 1 documentSubject
    (documentEvent exampleContext (letterDocument 8386900) exampleBlob 0 0) 0, hok, by rw [hdb]; rfl,
    (completionRows_cases ..).1.mpr rfl, List.mem_cons_self .., rfl, hpublished _ rfl, ?_⟩
  rw [hpublished _ rfl]
  rfl

end Extractor
