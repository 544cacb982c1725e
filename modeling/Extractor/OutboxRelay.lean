import Mathlib.Algebra.GroupWithZero.Nat
import Mathlib.Data.List.Sort
import Mathlib.Logic.Function.Basic
import Extractor.Contracts
import Extractor.Lib.Rows
import Extractor.Lib.System

/-!
# The outbox relay

The statements and the pass of `crates/eventing/src/outbox.rs` over the table
`extractor.outbox_events` of `schema.sql`. A pass claims a batch of due rows under a
thirty-second lease, hands every row to the publisher, and records each outcome with one
statement that addresses the row by its identifier alone.

Every statement runs in its own transaction, so one statement is one step; between any two
statements other relays run, time passes, transactions enqueue rows, or the relay crashes.
The payload type and its serializer are parameters, as the relay only serializes the
stored value and never looks inside it.

## Main definitions

* `OutboxRow`, `OutboxRow.checked`: the table's columns and its check constraints.
* `claimDue`, `markPublished`, `markTransient`, `markUndeliverable`: the four statements.
* `Relay`: where one call of `run_outbox_once` stands.
* `outboxSystem`: any number of relays, the clock and the enqueueing transactions.
-/

namespace Extractor

/-- The largest value of a PostgreSQL `integer`. -/
def int4Max : ℕ := 2147483647

/-! ### The table -/

/-- One row of `extractor.outbox_events`. -/
structure OutboxRow (J : Type) where
  outboxId : Uuid
  messageId : Uuid
  causationCommandId : Uuid
  operationId : Uuid
  subject : String
  payload : J
  enqueuedAt : Timestamp
  nextAttemptAt : Timestamp
  attempts : ℕ
  claimedUntil : Option Timestamp
  claimedBy : Option String
  publishedAt : Option Timestamp
  deadLetteredAt : Option Timestamp
  lastError : Option String
  deriving DecidableEq

namespace OutboxRow

variable {J : Type}

/-- The check constraints of the table, and the range of the `integer` column. -/
def checked (r : OutboxRow J) : Bool :=
  (r.subject == documentSubject || r.subject == reportSubject) &&
    decide (r.attempts ≤ int4Max) &&
    (r.claimedUntil.isNone == r.claimedBy.isNone) &&
    r.claimedBy.all (fun c => decide (1 ≤ c.length ∧ c.length ≤ 64)) &&
    r.lastError.all (fun e => decide (e.length ≤ 512) &&
      e.toList.all fun c => c != '\r' && c != '\n') &&
    !(r.publishedAt.isSome && r.deadLetteredAt.isSome)

/-- The row has left the retry set: it was published or dead-lettered. -/
def settled (r : OutboxRow J) : Bool :=
  r.publishedAt.isSome || r.deadLetteredAt.isSome

/-- The `due` predicate of the claiming statement. -/
def due (now : Timestamp) (r : OutboxRow J) : Bool :=
  r.publishedAt.isNone && r.deadLetteredAt.isNone && decide (r.nextAttemptAt ≤ now) &&
    r.claimedUntil.all fun u => decide (u ≤ now)

/-- `order by next_attempt_at, enqueued_at`. -/
def dueBefore (a b : OutboxRow J) : Prop :=
  a.nextAttemptAt < b.nextAttemptAt ∨
    a.nextAttemptAt = b.nextAttemptAt ∧ a.enqueuedAt ≤ b.enqueuedAt

instance : DecidableRel (dueBefore (J := J)) := fun a b => by
  unfold dueBefore; infer_instance

/-- A row as a transaction that started at `at_` inserts it. -/
def enqueued (outboxId messageId causationCommandId operationId : Uuid) (subject : String)
    (payload : J) (at_ : Timestamp) : OutboxRow J where
  outboxId := outboxId
  messageId := messageId
  causationCommandId := causationCommandId
  operationId := operationId
  subject := subject
  payload := payload
  enqueuedAt := at_
  nextAttemptAt := at_
  attempts := 0
  claimedUntil := none
  claimedBy := none
  publishedAt := none
  deadLetteredAt := none
  lastError := none

end OutboxRow

/-! ### Publication -/

/-- `PublishError`: why a message was not published. -/
inductive PublishError
  /-- Not acknowledged; a retry may help. -/
  | transient
  /-- Larger than the connected server accepts. -/
  | tooLarge
  deriving DecidableEq

/-- `true` when retrying the same message can never succeed. -/
def PublishError.isPermanent : PublishError → Bool
  | .transient => false
  | .tooLarge => true

def payloadTooLarge : String := "payload_too_large"

def payloadUnserializable : String := "payload_unserializable"

/-- The fixed class recorded in `last_error`. -/
def PublishError.errorClass : PublishError → String
  | .transient => "publish_failed"
  | .tooLarge => payloadTooLarge

/-- Headroom kept under the server's `max_payload` for the subject and headers. -/
def payloadHeadroomBytes : ℕ := 1024

/-- `NatsPublisher::publish` on a body of `length` bytes: the size guard first, then the
broker's acknowledgement. -/
def natsPublish (maxPayload length : ℕ) (acknowledged : Bool) : Except PublishError Unit :=
  if maxPayload - payloadHeadroomBytes < length then .error .tooLarge
  else if acknowledged then .ok () else .error .transient

/-! ### The four statements -/

section Statements

variable {J : Type}

/-- An update of the rows that meet `p`; PostgreSQL refuses the whole statement when a
changed row violates a constraint. -/
def updateChecked (p : OutboxRow J → Bool) (f : OutboxRow J → OutboxRow J)
    (rows : List (OutboxRow J)) : Option (List (OutboxRow J)) :=
  if rows.all fun r => !p r || (f r).checked then some (Rows.updateWhere p f rows) else none

/-- The inserting statement: both identifiers are unique. -/
def insertOutbox (r : OutboxRow J) (rows : List (OutboxRow J)) : Option (List (OutboxRow J)) :=
  if r.messageId ∈ rows.map OutboxRow.messageId then none
  else Rows.insertKeyed OutboxRow.outboxId r rows

/-- The columns the claiming statement returns for one row. -/
structure ClaimedRow (J : Type) where
  outboxId : Uuid
  messageId : Uuid
  subject : String
  payload : J

/-- The returned columns of a row. -/
def OutboxRow.claimed (r : OutboxRow J) : ClaimedRow J where
  outboxId := r.outboxId
  messageId := r.messageId
  subject := r.subject
  payload := r.payload

/-- The column change of the claiming statement. -/
def OutboxRow.lease (now : Timestamp) (claimedBy : String) (r : OutboxRow J) : OutboxRow J :=
  { r with claimedUntil := some (now + seconds 30), claimedBy := some claimedBy }

/-- `limit.clamp(1, 1_000)`. -/
def clampLimit (limit : ℤ) : ℕ := (max 1 (min limit 1000)).toNat

/-- The claiming statement: the first due rows in order, except those another statement has
`locked` at this moment (`for update skip locked`), get a fresh thirty-second lease. -/
def claimDue (now : Timestamp) (claimedBy : String) (limit : ℤ) (locked : List Uuid)
    (rows : List (OutboxRow J)) : Option (List (OutboxRow J) × List (ClaimedRow J)) :=
  let free := rows.filter fun r => r.due now && !locked.contains r.outboxId
  let next := (free.insertionSort OutboxRow.dueBefore).take (clampLimit limit)
  let ids := next.map OutboxRow.outboxId
  (updateChecked (fun r => ids.contains r.outboxId) (OutboxRow.lease now claimedBy) rows).map
    fun rows' => (rows', next.map OutboxRow.claimed)

/-- The column change after a success. -/
def OutboxRow.publish (now : Timestamp) (r : OutboxRow J) : OutboxRow J :=
  { r with publishedAt := some now, claimedUntil := none, claimedBy := none, lastError := none }

/-- `make_interval(secs => least(300.0, power(2.0, least(attempts, 20))))`. -/
def backoff (attempts : ℕ) : Timestamp := seconds (min 300 (2 ^ min attempts 20))

/-- The column change after a transient failure. -/
def OutboxRow.backOff (now : Timestamp) (errorClass : String) (r : OutboxRow J) :
    OutboxRow J :=
  { r with
    attempts := r.attempts + 1, lastError := some errorClass, claimedUntil := none,
    claimedBy := none, nextAttemptAt := now + backoff r.attempts }

/-- The column change after a permanent failure. -/
def OutboxRow.deadLetter (now : Timestamp) (errorClass : String) (r : OutboxRow J) :
    OutboxRow J :=
  { r with
    attempts := r.attempts + 1, lastError := some errorClass, claimedUntil := none,
    claimedBy := none, deadLetteredAt := some now }

/-- The statement of `run_outbox_once` that records a success. -/
def markPublished (now : Timestamp) (outboxId : Uuid) (rows : List (OutboxRow J)) :
    Option (List (OutboxRow J)) :=
  updateChecked (fun r => r.outboxId == outboxId) (OutboxRow.publish now) rows

/-- `mark_transient`. -/
def markTransient (now : Timestamp) (outboxId : Uuid) (errorClass : String)
    (rows : List (OutboxRow J)) : Option (List (OutboxRow J)) :=
  updateChecked (fun r => r.outboxId == outboxId) (OutboxRow.backOff now errorClass) rows

/-- `mark_undeliverable`. -/
def markUndeliverable (now : Timestamp) (outboxId : Uuid) (errorClass : String)
    (rows : List (OutboxRow J)) : Option (List (OutboxRow J)) :=
  updateChecked (fun r => r.outboxId == outboxId) (OutboxRow.deadLetter now errorClass) rows

end Statements

/-! ### One pass -/

/-- `OutboxReport`: the outcome of one bounded pass. -/
structure OutboxReport where
  claimed : ℕ := 0
  published : ℕ := 0
  failed : ℕ := 0
  deadLettered : ℕ := 0
  deriving DecidableEq

/-- What `run_outbox_once` learned about one claimed row before it records it. -/
inductive Verdict
  /-- `serde_json::to_vec` refused the payload. -/
  | unserializable
  /-- The publisher returned. -/
  | returned (result : Except PublishError Unit)

/-- Where one call of `run_outbox_once` stands. -/
inductive Relay (J : Type)
  /-- No pass is running. -/
  | idle
  /-- These claimed rows are still to be published. -/
  | working (rows : List (ClaimedRow J)) (report : OutboxReport)
  /-- The outcome of `row` is known and not yet recorded. -/
  | settling (row : ClaimedRow J) (verdict : Verdict) (rest : List (ClaimedRow J))
      (report : OutboxReport)
  /-- The pass returned `Err`. -/
  | errored

section Pass

variable {J : Type}

/-- The statement that records `verdict` for the row `outboxId`. -/
def recordVerdict (now : Timestamp) (outboxId : Uuid) (rows : List (OutboxRow J)) :
    Verdict → Option (List (OutboxRow J))
  | .unserializable => markUndeliverable now outboxId payloadUnserializable rows
  | .returned (.ok ()) => markPublished now outboxId rows
  | .returned (.error e) =>
      if e.isPermanent then markUndeliverable now outboxId e.errorClass rows
      else markTransient now outboxId e.errorClass rows

/-- The counter that `run_outbox_once` increments for a recorded verdict. -/
def OutboxReport.tally (report : OutboxReport) : Verdict → OutboxReport
  | .unserializable => { report with deadLettered := report.deadLettered + 1 }
  | .returned (.ok ()) => { report with published := report.published + 1 }
  | .returned (.error e) =>
      if e.isPermanent then { report with deadLettered := report.deadLettered + 1 }
      else { report with failed := report.failed + 1 }

end Pass

/-! ### The system -/

/-- One call of the publisher: what it was given, what it returned, and when. -/
structure PublishCall where
  subject : String
  body : List UInt8
  messageId : Uuid
  result : Except PublishError Unit
  returnedAt : Timestamp

/-- The table, the clock, the relays, and the history of publisher calls. -/
structure OutboxState (J : Type) where
  now : Timestamp
  rows : List (OutboxRow J)
  relays : ℕ → Relay J
  calls : List PublishCall

/-- A rearrangement of every list: `update … returning` promises no order. -/
abbrev Reordering (α : Type) := (l : List α) → { l' : List α // l'.Perm l }

/-- What may happen next. -/
inductive OutboxLabel (J : Type)
  /-- Time passes. -/
  | tick (elapsed : ℕ)
  /-- A transaction that started at `at_` commits a new row. -/
  | enqueue (outboxId messageId causationCommandId operationId : Uuid) (subject : String)
      (payload : J) (at_ : Timestamp)
  /-- A relay claims a batch; `order` is the order in which its rows come back. -/
  | claim (relay : ℕ) (claimedBy : String) (limit : ℤ) (locked : List Uuid)
      (order : Reordering (ClaimedRow J))
  /-- A relay hands its next row to the publisher, which returns `result`. -/
  | publish (relay : ℕ) (result : Except PublishError Unit)
  /-- A relay records the outcome of the row it just handed over. -/
  | settle (relay : ℕ)
  /-- A relay process stops, at any point. -/
  | crash (relay : ℕ)

section System

variable {J : Type} (serialize : J → Option (List UInt8))

/-- The relay starts a pass: the claiming statement of `run_outbox_once`. -/
def stepClaim (s : OutboxState J) (relay : ℕ) (claimedBy : String) (limit : ℤ)
    (locked : List Uuid) (order : Reordering (ClaimedRow J)) : OutboxState J :=
  match claimDue s.now claimedBy limit locked s.rows with
  | none => { s with relays := Function.update s.relays relay .errored }
  | some (rows, claimed) =>
      { s with
        rows := rows
        relays := Function.update s.relays relay
          (.working (order claimed).1 { claimed := claimed.length }) }

/-- The relay serializes its next row and, when that succeeds, calls the publisher. -/
def stepPublish (s : OutboxState J) (relay : ℕ) (row : ClaimedRow J)
    (rest : List (ClaimedRow J)) (report : OutboxReport) (result : Except PublishError Unit) :
    OutboxState J :=
  match serialize row.payload with
  | none =>
      { s with
        relays := Function.update s.relays relay (.settling row .unserializable rest report) }
  | some body =>
      { s with
        relays := Function.update s.relays relay (.settling row (.returned result) rest report)
        calls := s.calls ++ [⟨row.subject, body, row.messageId, result, s.now⟩] }

/-- The relay records the outcome of a row; a refused statement ends the pass with `Err`. -/
def stepSettle (s : OutboxState J) (relay : ℕ) (row : ClaimedRow J) (verdict : Verdict)
    (rest : List (ClaimedRow J)) (report : OutboxReport) : OutboxState J :=
  match recordVerdict s.now row.outboxId s.rows verdict with
  | none => { s with relays := Function.update s.relays relay .errored }
  | some rows =>
      { s with
        rows := rows
        relays := Function.update s.relays relay (.working rest (report.tally verdict)) }

/-- One step of the system; `none` when the label is not enabled. -/
def outboxStep (s : OutboxState J) : OutboxLabel J → Option (OutboxState J)
  | .tick elapsed => some { s with now := s.now + elapsed }
  | .enqueue outboxId messageId causationCommandId operationId subject payload at_ =>
      let row := OutboxRow.enqueued outboxId messageId causationCommandId operationId subject
        payload at_
      if row.checked ∧ at_ ≤ s.now then
        (insertOutbox row s.rows).map fun rows => { s with rows := rows }
      else none
  | .claim relay claimedBy limit locked order =>
      match s.relays relay with
      | .idle | .working [] _ => some (stepClaim s relay claimedBy limit locked order)
      | _ => none
  | .publish relay result =>
      match s.relays relay with
      | .working (row :: rest) report => some (stepPublish serialize s relay row rest report result)
      | _ => none
  | .settle relay =>
      match s.relays relay with
      | .settling row verdict rest report => some (stepSettle s relay row verdict rest report)
      | _ => none
  | .crash relay => some { s with relays := Function.update s.relays relay .idle }

/-- The table is empty and no relay runs. -/
def OutboxState.Initial (s : OutboxState J) : Prop :=
  s.rows = [] ∧ s.calls = [] ∧ ∀ relay, s.relays relay = .idle

/-- **The outbox system**: any number of relays and enqueueing transactions over one
table. -/
def outboxSystem : Labelled.System (OutboxState J) (OutboxLabel J) :=
  Labelled.System.ofStep OutboxState.Initial (outboxStep serialize)

end System

end Extractor
