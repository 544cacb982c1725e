import Extractor.IntakeSchema

/-!
# The command consumer

`run_command_consumer` of `crates/eventing/src/consumer.rs`, in any number of processes over one
durable. The broker delivers a command message until it is acknowledged, `max_deliver` times at
most; a consumer acknowledges what `consume_capture` settled and leaves the rest. Anything may go
wrong in between: a delivery, a statement, a commit whose answer is lost, an acknowledgement, the
process. Other transactions of the ledger run all the time.

## Main results

* `consumeCommand_eq_refused`, `consumeCommand_eq_applied`: whether a new command is refused does
  not depend on the database.
* `consumerInv_of_reachable`: the invariant of the consumers.
* `capture_commands_applied_once`: an acknowledged message is settled, and a command is applied
  once however often it is delivered.
-/

namespace Extractor

/-! ### What refuses a command -/

/-- The command is refused for its source, or for a report that the contracts do not take. -/
def CaptureCommand.Refused (lib : UrlLib) (contracts : Contracts) (command : CaptureCommand) :
    Prop :=
  ¬ command.SourcePasses lib ∨ ¬ command.Reported contracts

namespace Tx

variable {α β : Type} {P : ConsumeError → Prop}

/-- Every error of the transaction is of a kind. -/
def FailsWith (P : ConsumeError → Prop) (tx : Tx α) : Prop := ∀ db e, tx db = .error e → P e

theorem FailsWith.bind {tx : Tx α} {f : α → Tx β} (h : tx.FailsWith P)
    (hf : ∀ a, (f a).FailsWith P) : (tx >>= f).FailsWith P := by
  intro db e herror
  rcases bind_eq_error_iff.mp herror with herror | ⟨a, db', -, herror⟩
  · exact h db e herror
  · exact hf a db' e herror

theorem FailsWith.of_pure {a : α} : (pure a : Tx α).FailsWith P :=
  fun _ _ herror => absurd herror pure_ne_error

theorem FailsWith.of_read {f : Db → α} : (read f).FailsWith P :=
  fun _ _ herror => absurd herror read_ne_error

theorem FailsWith.of_write {f : Db → Db} : (write f).FailsWith P :=
  fun _ _ herror => absurd herror write_ne_error

theorem FailsWith.of_freshUuid : freshUuid.FailsWith P :=
  fun _ _ herror => absurd herror freshUuid_ne_error

theorem FailsWith.of_require {c : Prop} [Decidable c] {e : ConsumeError} (h : ¬ c → P e) :
    (require c e : Tx Unit).FailsWith P := by
  intro db e' herror
  obtain ⟨hc, rfl⟩ := require_eq_error_iff.mp herror
  exact h hc

theorem FailsWith.of_okOr {o : Option α} {e : ConsumeError} (h : P e) :
    (okOr o e : Tx α).FailsWith P := by
  intro db e' herror
  obtain ⟨-, rfl⟩ := okOr_eq_error_iff.mp herror
  exact h

end Tx

section Refused

variable {lib : UrlLib} {contracts : Contracts} {now : Timestamp} {command : CaptureCommand}
  {db db' : Db} {e : ConsumeError}

/-- The upsert of a source fails as a statement. -/
theorem upsertSource_failsWith {P : ConsumeError → Prop} (hP : P .database) (row : SourceRow) :
    (upsertSource lib row).FailsWith P := by
  refine .bind (.of_require fun _ => hP) fun _ => .bind .of_read fun known => ?_
  cases known with
  | none => exact .bind (.of_require fun _ => hP) fun _ => .bind .of_write fun _ => .of_pure
  | some existing => exact .bind .of_write fun _ => .of_pure

/-- Finding the source fails as a statement, or because the source does not pass. -/
theorem intakeSource_failsWith :
    (intakeSource lib now command).FailsWith
      fun e => e = .database ∨ ¬ command.SourcePasses lib := by
  intro db e herror
  rw [intakeSource_eq] at herror
  split at herror
  · next e' hprepare =>
      refine Or.inr fun hpasses => ?_
      obtain ⟨p, hp⟩ := hpasses.prepared now db.nextUuid
      rw [hp] at hprepare
      cases hprepare
  · next p _ =>
      exact Tx.FailsWith.bind (P := fun e => e = .database ∨ ¬ command.SourcePasses lib)
        (upsertSource_failsWith (Or.inl rfl) p.row) (fun _ => .of_pure) _ _ herror

/-- **Intake fails as a statement, or because the command is refused.** -/
theorem consumeCommand_failsWith :
    (consumeCommand lib contracts now command).FailsWith
      fun e => e = .database ∨ command.Refused lib contracts := by
  have hsource : (intakeSource lib now command).FailsWith
      fun e => e = .database ∨ command.Refused lib contracts :=
    fun db e herror => (intakeSource_failsWith db e herror).imp_right Or.inl
  refine .bind (.bind .of_read fun known => ?_) fun inserted => ?_
  · cases known with
    | true => exact .of_pure
    | false =>
        exact .bind (.of_require fun _ => Or.inl rfl) fun _ => .bind .of_write fun _ => .of_pure
  · cases inserted with
    | false => exact .of_pure
    | true =>
        refine .bind (.bind ?_ fun _ => .bind ?_ fun _ => .of_write) fun _ => .of_pure
        · -- `queue_run`
          refine .bind hsource fun source => .bind .of_freshUuid fun runId => ?_
          exact .bind (.of_require fun _ => Or.inl rfl) fun _ => .bind .of_read fun _ =>
            .bind (.of_require fun _ => Or.inl rfl) fun _ => .of_write
        · -- `enqueue_queued_report`
          refine .bind .of_freshUuid fun eventId =>
            .bind (.of_require fun h => Or.inr (Or.inr h)) fun _ => ?_
          exact .bind .of_freshUuid fun _ => .bind (.of_require fun _ => Or.inl rfl) fun _ =>
            .bind .of_read fun _ => .bind (.of_okOr (Or.inl rfl)) fun _ => .of_write

/-- An error that is no failed statement refuses the command in every state. -/
theorem consumeCommand_eq_refused (h : consumeCommand lib contracts now command db = .error e)
    (hkind : e ≠ .database) : command.Refused lib contracts :=
  (consumeCommand_failsWith db e h).resolve_left hkind

/-- A source with a prepared row passes. -/
theorem CaptureCommand.sourcePasses_of_prepared {fresh : Uuid} {p : PreparedSource}
    (h : prepareSource lib now command fresh = .ok p) : command.SourcePasses lib := by
  unfold prepareSource at h
  unfold CaptureCommand.SourcePasses
  cases hsource : command.source with
  | url url =>
      rw [hsource] at h
      dsimp only at h ⊢
      split at h
      · cases h
      · next normalized hnormal => exact ⟨normalized, hnormal⟩
  | blob blob =>
      rw [hsource] at h
      dsimp only at h ⊢
      split at h
      · next hlength => exact hlength
      · cases h

/-- **An applied command is not refused.** -/
theorem consumeCommand_eq_applied
    (h : consumeCommand lib contracts now command db = .ok (.applied, db')) :
    ¬ command.Refused lib contracts := by
  obtain ⟨inserted, db₁, -, hrest⟩ := Tx.bind_eq_ok_iff.mp h
  cases inserted with
  | false =>
      obtain ⟨hreception, -⟩ := Tx.pure_eq_ok_iff.mp hrest
      cases hreception
  | true =>
      obtain ⟨_, _, happly, -⟩ := Tx.bind_eq_ok_iff.mp hrest
      simp only [applyCapture, queueRun, enqueueQueuedReport, Tx.bind_eq_ok_iff,
        Tx.require_eq_ok_iff] at happly
      obtain ⟨_, _, ⟨source, _, hsource, -⟩, _, _, ⟨_, _, -, _, _, ⟨hreported, -⟩, -⟩, -⟩ := happly
      rw [intakeSource_eq] at hsource
      split at hsource
      · cases hsource
      · next p hp =>
          exact not_or.mpr ⟨not_not.mpr (CaptureCommand.sourcePasses_of_prepared hp),
            not_not.mpr hreported⟩

end Refused

/-! ### The consumers -/

/-- A message of the command stream. -/
structure CommandMessage where
  subject : String
  payload : List UInt8
  deriving DecidableEq

/-- `CAPTURE_MAX_DELIVER`. -/
def captureMaxDeliver : ℕ := 12

/-- `ConsumerReport`. -/
structure ConsumerReport where
  applied : ℕ := 0
  duplicates : ℕ := 0
  malformed : ℕ := 0
  failed : ℕ := 0
  deriving DecidableEq

namespace ConsumerReport

/-- The counter for a delivery, or an acknowledgement, that failed. -/
def fail (report : ConsumerReport) : ConsumerReport := { report with failed := report.failed + 1 }

/-- The counter for what `consume_capture` returned. -/
def tally (report : ConsumerReport) : Except ConsumeError Reception → ConsumerReport
  | .ok .applied => { report with applied := report.applied + 1 }
  | .ok .duplicate => { report with duplicates := report.duplicates + 1 }
  | .error e =>
      if shouldRedeliver e then report.fail else { report with malformed := report.malformed + 1 }

end ConsumerReport

/-- Where one call of `run_command_consumer` stands. -/
inductive ConsumerLoop (lib : UrlLib) (commands : CommandLib)
  /-- It has not been called. -/
  | absent
  /-- It waits for the next message. -/
  | waiting (report : ConsumerReport)
  /-- It has a message; `message` is its position in the stream. -/
  | handling (message : ℕ) (report : ConsumerReport)
  /-- Its transaction has inserted the inbox row. -/
  | inserting (message : ℕ) (delivery : Delivery lib commands) (startedAt : Timestamp)
      (report : ConsumerReport)
  /-- It is about to acknowledge a message. -/
  | acking (message : ℕ) (report : ConsumerReport)
  /-- It returned. -/
  | returned (report : ConsumerReport)
  /-- Its process is gone. -/
  | stopped

/-- What `consume_capture` returned for a delivery. -/
structure DeliveryOutcome where
  loop : ℕ
  content : CommandMessage
  result : Except ConsumeError Reception

/-- The ledger with its consumers, the command stream, and the history of outcomes and of failures
outside `consume_capture`. -/
structure ConsumerState (lib : UrlLib) (commands : CommandLib) where
  ledger : LedgerState lib commands
  messages : List CommandMessage
  deliveries : ℕ → ℕ
  acked : ℕ → Bool
  loops : ℕ → ConsumerLoop lib commands
  outcomes : List DeliveryOutcome
  /-- The loops that met a delivery without a message, or an acknowledgement that failed. -/
  faults : List ℕ

/-- What may happen next. -/
inductive ConsumerLabel (lib : UrlLib) (commands : CommandLib)
  /-- A message is appended to the stream. -/
  | send (content : CommandMessage)
  /-- A step of the ledger that is not intake. -/
  | ledger (a : LedgerLabel lib commands)
  /-- A process calls `run_command_consumer`. -/
  | start (loop : ℕ)
  /-- The broker delivers a message, for the first time or again. -/
  | deliver (loop message : ℕ)
  /-- A delivery fails before it has a message. -/
  | deliveryFails (loop : ℕ)
  /-- The transaction of a delivery inserts the inbox row. -/
  | insert (loop : ℕ) (startedAt : Timestamp)
  /-- It is committed. -/
  | commit (loop : ℕ)
  /-- It is committed, and the answer is lost. -/
  | commitUnanswered (loop : ℕ)
  /-- A statement of it fails. -/
  | rollback (loop : ℕ)
  /-- A statement fails before the inbox row is inserted. -/
  | unavailable (loop : ℕ)
  /-- The command is known. -/
  | known (loop : ℕ) (startedAt : Timestamp)
  /-- The message is no capture command. -/
  | undecodable (loop : ℕ)
  /-- The consumer acknowledges its message: whether the broker gets it, and whether the call
  succeeds. -/
  | ack (loop : ℕ) (received succeeded : Bool)
  /-- The cancellation is seen. -/
  | cancel (loop : ℕ)
  /-- The process stops. -/
  | crash (loop : ℕ)

section Consumers

variable {lib : UrlLib} {commands : CommandLib}

/-- The steps of the ledger that are intake. -/
def intakeStep : LedgerLabel lib commands → Bool
  | .enter (.intake _ _) | .commit (.command _) | .abort (.command _) => true
  | .act (.redeliver _ _) => true
  | _ => false

/-- The report of a call that is running or has returned. -/
def ConsumerLoop.report : ConsumerLoop lib commands → Option ConsumerReport
  | .absent | .stopped => none
  | .waiting report | .handling _ report | .inserting _ _ _ report | .acking _ report
  | .returned report => some report

/-- The loop after `consume_capture` returned: settled messages are acknowledged. -/
def ConsumerLoop.settle (message : ℕ) (report : ConsumerReport)
    (result : Except ConsumeError Reception) : ConsumerLoop lib commands :=
  if leftForRedelivery result then .waiting (report.tally result)
  else .acking message (report.tally result)

namespace ConsumerState

/-- The database. -/
def db (s : ConsumerState lib commands) : Db := s.ledger.data.db

/-- One loop moved on. -/
def setLoop (s : ConsumerState lib commands) (k : ℕ) (loop : ConsumerLoop lib commands) :
    ConsumerState lib commands :=
  { s with loops := Function.update s.loops k loop }

/-- `consume_capture` returned. -/
def finish (s : ConsumerState lib commands) (k message : ℕ) (content : CommandMessage)
    (report : ConsumerReport) (result : Except ConsumeError Reception)
    (ledger : LedgerState lib commands) : ConsumerState lib commands :=
  { s with
    ledger := ledger
    loops := Function.update s.loops k (.settle message report result)
    outcomes := s.outcomes ++ [⟨k, content, result⟩] }

/-- The message of a delivery. -/
abbrev contentOf (delivery : Delivery lib commands) : CommandMessage :=
  ⟨delivery.subject, delivery.payload⟩

end ConsumerState

open ConsumerState (contentOf)

variable (lib commands) (contracts : Contracts) (columns : BlobColumns)

/-- One step of the consumers. -/
inductive ConsumerStep :
    ConsumerState lib commands → ConsumerLabel lib commands → ConsumerState lib commands → Prop
  | send {s : ConsumerState lib commands} {content : CommandMessage} :
      ConsumerStep s (.send content) { s with messages := s.messages ++ [content] }
  | ledger {s : ConsumerState lib commands} {a : LedgerLabel lib commands}
      {y : LedgerState lib commands} (hother : intakeStep a = false)
      (hst : (ledgerSystem lib commands contracts columns).step s.ledger a y) :
      ConsumerStep s (.ledger a) { s with ledger := y }
  | start {s : ConsumerState lib commands} {k : ℕ} (hloop : s.loops k = .absent) :
      ConsumerStep s (.start k) (s.setLoop k (.waiting {}))
  | deliver {s : ConsumerState lib commands} {k i : ℕ} {report : ConsumerReport}
      (hloop : s.loops k = .waiting report) (hmessage : i < s.messages.length)
      (hunacked : s.acked i = false) (hleft : s.deliveries i < captureMaxDeliver) :
      ConsumerStep s (.deliver k i)
        { s.setLoop k (.handling i report) with
          deliveries := Function.update s.deliveries i (s.deliveries i + 1) }
  | deliveryFails {s : ConsumerState lib commands} {k : ℕ} {report : ConsumerReport}
      (hloop : s.loops k = .waiting report) :
      ConsumerStep s (.deliveryFails k)
        { s.setLoop k (.waiting report.fail) with faults := s.faults ++ [k] }
  | insert {s : ConsumerState lib commands} {k i : ℕ} {report : ConsumerReport}
      {delivery : Delivery lib commands} {now : Timestamp} {y : LedgerState lib commands}
      (hloop : s.loops k = .handling i report)
      (hmessage : s.messages[i]? = some (contentOf delivery))
      (hst : (ledgerSystem lib commands contracts columns).step s.ledger
        (.enter (.intake delivery now)) y) :
      ConsumerStep s (.insert k now)
        { s.setLoop k (.inserting i delivery now report) with ledger := y }
  | commit {s : ConsumerState lib commands} {k i : ℕ} {report : ConsumerReport}
      {delivery : Delivery lib commands} {now : Timestamp} {y : LedgerState lib commands}
      (hloop : s.loops k = .inserting i delivery now report)
      (hst : (ledgerSystem lib commands contracts columns).step s.ledger
        (.commit (.command delivery.command.commandId)) y) :
      ConsumerStep s (.commit k)
        (s.finish k i (contentOf delivery) report
          (consumeCapture lib commands contracts now delivery.subject delivery.payload s.db).1 y)
  | commitUnanswered {s : ConsumerState lib commands} {k i : ℕ} {report : ConsumerReport}
      {delivery : Delivery lib commands} {now : Timestamp} {y : LedgerState lib commands}
      (hloop : s.loops k = .inserting i delivery now report)
      (hst : (ledgerSystem lib commands contracts columns).step s.ledger
        (.commit (.command delivery.command.commandId)) y) :
      ConsumerStep s (.commitUnanswered k)
        (s.finish k i (contentOf delivery) report (.error .database) y)
  | rollback {s : ConsumerState lib commands} {k i : ℕ} {report : ConsumerReport}
      {delivery : Delivery lib commands} {now : Timestamp} {y : LedgerState lib commands}
      (hloop : s.loops k = .inserting i delivery now report)
      (hst : (ledgerSystem lib commands contracts columns).step s.ledger
        (.abort (.command delivery.command.commandId)) y) :
      ConsumerStep s (.rollback k)
        (s.finish k i (contentOf delivery) report (.error .database) y)
  | unavailable {s : ConsumerState lib commands} {k i : ℕ} {report : ConsumerReport}
      {content : CommandMessage} (hloop : s.loops k = .handling i report)
      (hmessage : s.messages[i]? = some content) :
      ConsumerStep s (.unavailable k)
        (s.finish k i content report (.error .database) s.ledger)
  | known {s : ConsumerState lib commands} {k i : ℕ} {report : ConsumerReport}
      {delivery : Delivery lib commands} {now : Timestamp} {y : LedgerState lib commands}
      (hloop : s.loops k = .handling i report)
      (hmessage : s.messages[i]? = some (contentOf delivery))
      (hst : (ledgerSystem lib commands contracts columns).step s.ledger
        (.act (.redeliver delivery now)) y) :
      ConsumerStep s (.known k now)
        (s.finish k i (contentOf delivery) report
          (consumeCapture lib commands contracts now delivery.subject delivery.payload s.db).1 y)
  | undecodable {s : ConsumerState lib commands} {k i : ℕ} {report : ConsumerReport}
      {content : CommandMessage} {e : ConsumeError} (hloop : s.loops k = .handling i report)
      (hmessage : s.messages[i]? = some content)
      (hdecode : decodeCapture lib commands content.subject content.payload = .error e) :
      ConsumerStep s (.undecodable k) (s.finish k i content report (.error e) s.ledger)
  | ack {s : ConsumerState lib commands} {k i : ℕ} {report : ConsumerReport}
      {received succeeded : Bool} (hloop : s.loops k = .acking i report) :
      ConsumerStep s (.ack k received succeeded)
        { s.setLoop k (.waiting (if succeeded then report else report.fail)) with
          acked := if received then Function.update s.acked i true else s.acked
          faults := if succeeded then s.faults else s.faults ++ [k] }
  | cancel {s : ConsumerState lib commands} {k : ℕ} {report : ConsumerReport}
      (hloop : s.loops k = .waiting report) :
      ConsumerStep s (.cancel k) (s.setLoop k (.returned report))
  | crash {s : ConsumerState lib commands} {k : ℕ}
      (hloop : ∀ i delivery now report, s.loops k ≠ .inserting i delivery now report) :
      ConsumerStep s (.crash k) (s.setLoop k .stopped)
  | crashInserting {s : ConsumerState lib commands} {k i : ℕ} {report : ConsumerReport}
      {delivery : Delivery lib commands} {now : Timestamp} {y : LedgerState lib commands}
      (hloop : s.loops k = .inserting i delivery now report)
      (hst : (ledgerSystem lib commands contracts columns).step s.ledger
        (.abort (.command delivery.command.commandId)) y) :
      ConsumerStep s (.crash k) { s.setLoop k .stopped with ledger := y }

/-- **The command consumers**: any number of them over one stream and one ledger. -/
def consumerSystem : Labelled.System (ConsumerState lib commands) (ConsumerLabel lib commands) where
  init s := s.ledger.data = Ledger.initial ∧ (∀ k, s.ledger.held k = none) ∧ s.messages = [] ∧
    (∀ i, s.acked i = false) ∧ (∀ k, s.loops k = .absent) ∧ s.outcomes = [] ∧ s.faults = []
  step := ConsumerStep lib commands contracts columns

end Consumers

/-! ### What a delivery means -/

section Judged

variable {lib : UrlLib} {commands : CommandLib} {contracts : Contracts} {columns : BlobColumns}

/-- Delivering the message again changes nothing: it is no capture command, or its command is in
the inbox, or refused. -/
def CommandMessage.Settled (lib : UrlLib) (commands : CommandLib) (contracts : Contracts) (db : Db)
    (content : CommandMessage) : Prop :=
  ∀ command, decodeCapture lib commands content.subject content.payload = .ok command →
    command.commandId ∈ db.inbox.map InboxRow.commandId ∨ command.Refused lib contracts

/-- What the end of a delivery says about its message and the database. -/
inductive Judged (lib : UrlLib) (commands : CommandLib) (contracts : Contracts)
    (content : CommandMessage) (db db' : Db) : Except ConsumeError Reception → Prop
  | applied {command : CaptureCommand}
      (hdecode : decodeCapture lib commands content.subject content.payload = .ok command)
      (htaken : ¬ command.Refused lib contracts)
      (hinbox : db'.inbox.map InboxRow.commandId =
        db.inbox.map InboxRow.commandId ++ [command.commandId]) :
      Judged lib commands contracts content db db' (.ok .applied)
  | duplicate {command : CaptureCommand}
      (hdecode : decodeCapture lib commands content.subject content.payload = .ok command)
      (hknown : command.commandId ∈ db.inbox.map InboxRow.commandId)
      (hinbox : db'.inbox = db.inbox) :
      Judged lib commands contracts content db db' (.ok .duplicate)
  | malformed {e : ConsumeError}
      (hrefused : ∀ command,
        decodeCapture lib commands content.subject content.payload = .ok command →
          command.Refused lib contracts)
      (hinbox : db'.inbox = db.inbox) : Judged lib commands contracts content db db' (.error e)
  | unanswered {command : CaptureCommand}
      (hdecode : decodeCapture lib commands content.subject content.payload = .ok command)
      (hinbox : db'.inbox.map InboxRow.commandId =
        db.inbox.map InboxRow.commandId ++ [command.commandId]) :
      Judged lib commands contracts content db db' (.error .database)
  | failed (hinbox : db'.inbox = db.inbox) :
      Judged lib commands contracts content db db' (.error .database)

open ConsumerState (contentOf)

/-- **`consume_capture`** applies a command, finds it known, refuses it for good, or fails. -/
theorem judged_consumeCapture (now : Timestamp) (delivery : Delivery lib commands) (db : Db) :
    Judged lib commands contracts (contentOf delivery) db
      (consumeCapture lib commands contracts now delivery.subject delivery.payload db).2
      (consumeCapture lib commands contracts now delivery.subject delivery.payload db).1 := by
  rw [consumeCapture_delivery, transact]
  cases h : consumeCommand lib contracts now delivery.command db with
  | error e =>
      by_cases hkind : e = .database
      · subst hkind
        exact .failed rfl
      · refine .malformed (fun command hdecode => ?_) rfl
        obtain rfl := Except.ok.inj (delivery.decoded.symm.trans hdecode)
        exact consumeCommand_eq_refused h hkind
  | ok r =>
      obtain ⟨reception, db'⟩ := r
      rcases consumeCommand_eq_ok h with ⟨rfl, ⟨r, hr, hid⟩, rfl⟩ | ⟨rfl, -, hqueued⟩
      · exact .duplicate delivery.decoded (List.mem_map.mpr ⟨r, hr, hid⟩) rfl
      · refine .applied delivery.decoded (consumeCommand_eq_applied h) ?_
        rw [hqueued.inbox, List.map_append]
        rfl

/-- A commit whose answer is lost: the command is applied, or nothing happened. -/
theorem judged_unanswered (now : Timestamp) (delivery : Delivery lib commands) (db : Db) :
    Judged lib commands contracts (contentOf delivery) db
      (consumeCapture lib commands contracts now delivery.subject delivery.payload db).2
      (.error .database) := by
  rcases consumeCapture_cases contracts now delivery db with hsame | ⟨-, hqueued⟩
  · exact .failed (by rw [hsame])
  · refine .unanswered delivery.decoded ?_
    rw [hqueued.inbox, List.map_append]
    rfl

namespace Judged

variable {content : CommandMessage} {db db' : Db} {result : Except ConsumeError Reception}

/-- The inbox only grows. -/
theorem inbox (h : Judged lib commands contracts content db db' result) :
    ∃ new, db'.inbox.map InboxRow.commandId = db.inbox.map InboxRow.commandId ++ new ∧
      ∀ id ∈ new, ∃ command,
        decodeCapture lib commands content.subject content.payload = .ok command ∧
          command.commandId = id := by
  cases h with
  | applied hdecode _ hinbox =>
      refine ⟨_, hinbox, fun id hid => ⟨_, hdecode, (List.mem_singleton.mp hid).symm⟩⟩
  | unanswered hdecode hinbox =>
      refine ⟨_, hinbox, fun id hid => ⟨_, hdecode, (List.mem_singleton.mp hid).symm⟩⟩
  | duplicate _ _ hinbox | malformed _ hinbox | failed hinbox =>
      exact ⟨[], by rw [hinbox, List.append_nil], fun id hid => absurd hid List.not_mem_nil⟩

/-- A delivery that is acknowledged has settled its message. -/
theorem settled (h : Judged lib commands contracts content db db' result)
    (hack : leftForRedelivery result = false) : content.Settled lib commands contracts db' := by
  intro command hcommand
  cases h with
  | applied hdecode _ hinbox =>
      obtain rfl := Except.ok.inj (hdecode.symm.trans hcommand)
      rw [hinbox]
      exact Or.inl (List.mem_append_right _ (List.mem_singleton_self _))
  | duplicate hdecode hknown hinbox =>
      obtain rfl := Except.ok.inj (hdecode.symm.trans hcommand)
      rw [hinbox]
      exact Or.inl hknown
  | malformed hrefused => exact Or.inr (hrefused command hcommand)
  | unanswered => cases hack
  | failed => cases hack

end Judged

/-- What is settled stays so. -/
theorem CommandMessage.Settled.mono {content : CommandMessage} {db db' : Db}
    (h : content.Settled lib commands contracts db)
    (hinbox : db.inbox.map InboxRow.commandId ⊆ db'.inbox.map InboxRow.commandId) :
    content.Settled lib commands contracts db' :=
  fun command hcommand => (h command hcommand).imp_left fun hmem => hinbox hmem

end Judged

/-! ### The consumers and the ledger -/

section Ledger

variable {lib : UrlLib} {commands : CommandLib} {contracts : Contracts} {columns : BlobColumns}
  {x y : LedgerState lib commands} {delivery : Delivery lib commands} {now : Timestamp}

/-- The transaction of a delivery that inserted its row. -/
def Holds (x : LedgerState lib commands) (delivery : Delivery lib commands) (now : Timestamp) :
    Prop :=
  x.held (.command delivery.command.commandId) = some (.intake delivery now, .newCommand)

theorem ledger_insert (hst : (ledgerSystem lib commands contracts columns).step x
      (.enter (.intake delivery now)) y) :
    y.data = x.data ∧ x.held (.command delivery.command.commandId) = none ∧
      y.held = Function.update x.held (.command delivery.command.commandId)
        (some (.intake delivery now, .newCommand)) := by
  cases hst with
  | enter hfree henter =>
      rename_i c
      refine ⟨rfl, hfree, ?_⟩
      cases c with
      | newCommand => rfl
      | running run =>
          have hfound : LedgerTx.enter lib commands (.intake delivery now) x.data =
            some (.running run) := henter
          rw [LedgerTx.enter] at hfound
          split at hfound
          · cases hfound
          · cases hfound

theorem ledger_commit (hheld : Holds x delivery now)
    (hst : (ledgerSystem lib commands contracts columns).step x
      (.commit (.command delivery.command.commandId)) y) :
    y.data.db = (consumeCapture lib commands contracts now delivery.subject delivery.payload
        x.data.db).2 ∧
      y.held = Function.update x.held (.command delivery.command.commandId) none := by
  cases hst with
  | commit hheld' =>
      obtain ⟨rfl, rfl⟩ := Prod.mk.inj (Option.some.inj (hheld.symm.trans hheld'))
      exact ⟨rfl, rfl⟩

theorem ledger_abort {k : LedgerKey} (hst : (ledgerSystem lib commands contracts columns).step x
      (.abort k) y) : y.data = x.data ∧ y.held = Function.update x.held k none := by
  cases hst with
  | abort => exact ⟨rfl, rfl⟩

theorem ledger_redeliver (hst : (ledgerSystem lib commands contracts columns).step x
      (.act (.redeliver delivery now)) y) :
    y.data.db = (consumeCapture lib commands contracts now delivery.subject delivery.payload
        x.data.db).2 ∧ y.held = x.held := by
  cases hst with
  | act hact =>
      cases hact with
      | redeliver => exact ⟨rfl, rfl⟩

/-- A run's lock is no command's lock. -/
theorem held_run (x : LedgerState lib commands) (runId id : Uuid)
    (holder : Option (LedgerTx lib commands × Found)) :
    Function.update x.held (.run runId) holder (.command id) = x.held (.command id) := by
  have hne : LedgerKey.command id ≠ LedgerKey.run runId := by rintro ⟨⟩
  exact Function.update_of_ne hne holder x.held

/-- **A step that is not intake** leaves the inbox and the open deliveries alone. -/
theorem ledger_other (hx : (ledgerSystem lib commands contracts columns).Reachable x)
    {a : LedgerLabel lib commands} (hother : intakeStep a = false)
    (hst : (ledgerSystem lib commands contracts columns).step x a y) :
    y.data.db.inbox = x.data.db.inbox ∧ ∀ id, y.held (.command id) = x.held (.command id) := by
  cases hst with
  | enter hfree henter =>
      rename_i t c
      cases t with
      | intake delivery now => cases hother
      | terminal call now =>
          exact ⟨rfl, fun id => held_run x call.runId id (some (.terminal call now, c))⟩
  | abort =>
      rename_i k
      cases k with
      | command id => cases hother
      | run runId => exact ⟨rfl, fun id => held_run x runId id none⟩
  | commit hheld =>
      rename_i k t c
      have hkey := (Locking.Protocol.held_enter ledger_stable hx _ _ _ hheld).1
      cases k with
      | command id => cases hother
      | run runId =>
          refine ⟨?_, fun id => held_run x runId id none⟩
          cases t with
          | intake delivery now => cases hkey
          | terminal call now =>
              cases c with
              | newCommand => rfl
              | running run =>
                  change (x.data.finish contracts now call run).db.inbox = x.data.db.inbox
                  unfold Ledger.finish
                  cases hcommit : call.commit contracts now run x.data.db with
                  | error e => rfl
                  | ok r => exact (TerminalCall.commit_eq_ok hcommit).inbox
  | act hact =>
      refine ⟨?_, fun id => rfl⟩
      cases hact with
      | redeliver => cases hother
      | claim =>
          rename_i now claimedBy leaseSeconds maxEventBytes skipped _
          rcases claimQueuedRun_cases columns now claimedBy leaseSeconds maxEventBytes skipped
            x.data.db with hsame | ⟨run, -, -, -, -, hdb⟩
          · change (claimQueuedRun columns now claimedBy leaseSeconds maxEventBytes skipped
              x.data.db).2.inbox = x.data.db.inbox
            rw [hsame]
          · change (claimQueuedRun columns now claimedBy leaseSeconds maxEventBytes skipped
              x.data.db).2.inbox = x.data.db.inbox
            rw [hdb]
      | refuse => rfl
      | miss => rfl
      | answer => rfl
      | recordFetch =>
          rename_i runId fetch now
          change (recordFetch now runId fetch x.data.db).2.inbox = x.data.db.inbox
          unfold recordFetch
          split
          · rcases transact_snd (recordFetchTx now runId fetch) x.data.db with ⟨_, hok⟩ | hsame
            · obtain ⟨_, _, hfetch, hartifact⟩ := Tx.bind_eq_ok_iff.mp hok
              obtain ⟨-, rfl⟩ := insertFetch_eq_ok_iff.mp hfetch
              rw [(insertArtifact_eq_ok_iff.mp hartifact).2]
            · rw [hsame]
          · rfl
      | relayClaim => rfl
      | relayRecord => rfl

end Ledger

/-! ### The invariant -/

namespace DeliveryOutcome

variable (lib : UrlLib) (commands : CommandLib)

def isApplied (o : DeliveryOutcome) : Bool :=
  match o.result with
  | .ok .applied => true
  | _ => false

def isDuplicate (o : DeliveryOutcome) : Bool :=
  match o.result with
  | .ok .duplicate => true
  | _ => false

/-- The delivery was acknowledged as malformed. -/
def isMalformed (o : DeliveryOutcome) : Bool :=
  match o.result with
  | .ok _ => false
  | .error e => !shouldRedeliver e

/-- The delivery was left for redelivery. -/
def isFailed (o : DeliveryOutcome) : Bool :=
  match o.result with
  | .ok _ => false
  | .error e => shouldRedeliver e

/-- The command of the message, where it was applied. -/
def appliedCommand (o : DeliveryOutcome) : Option Uuid :=
  if o.isApplied then
    (decodeCapture lib commands o.content.subject o.content.payload).toOption.map
      CaptureCommand.commandId
  else none

end DeliveryOutcome

/-- **The counters** are those of the loop's outcomes; with those left for redelivery, deliveries
without a message and failed acknowledgements are counted. -/
structure ConsumerReport.Counts (k : ℕ) (outcomes : List DeliveryOutcome) (faults : List ℕ)
    (report : ConsumerReport) : Prop where
  applied : report.applied = outcomes.countP fun o => o.loop == k && o.isApplied
  duplicates : report.duplicates = outcomes.countP fun o => o.loop == k && o.isDuplicate
  malformed : report.malformed = outcomes.countP fun o => o.loop == k && o.isMalformed
  failed : report.failed =
    (outcomes.countP fun o => o.loop == k && o.isFailed) + faults.count k

section Invariant

variable {lib : UrlLib} {commands : CommandLib} {contracts : Contracts} {columns : BlobColumns}
  {s t : ConsumerState lib commands}

open ConsumerState (contentOf)

/-- What an outcome says about every other delivery of its message. -/
structure DeliveryOutcome.Sound (lib : UrlLib) (commands : CommandLib) (contracts : Contracts)
    (o : DeliveryOutcome) : Prop where
  applied : o.isApplied = true → ∃ command,
    decodeCapture lib commands o.content.subject o.content.payload = .ok command ∧
      ¬ command.Refused lib contracts
  malformed : o.isMalformed = true → ∀ command,
    decodeCapture lib commands o.content.subject o.content.payload = .ok command →
      command.Refused lib contracts

/-- What holds of one loop. -/
structure LoopInv (contracts : Contracts) (s : ConsumerState lib commands) (k : ℕ)
    (loop : ConsumerLoop lib commands) : Prop where
  inserting : ∀ i delivery now report, loop = .inserting i delivery now report →
    Holds s.ledger delivery now ∧ s.messages[i]? = some (contentOf delivery)
  acking : ∀ i report, loop = .acking i report →
    ∃ content, s.messages[i]? = some content ∧ content.Settled lib commands contracts s.db
  report : ∀ report, loop.report = some report → report.Counts k s.outcomes s.faults
  absent : loop = .absent → (∀ o ∈ s.outcomes, o.loop ≠ k) ∧ k ∉ s.faults

/-- **The invariant of the consumers.** -/
structure ConsumerInv (contracts : Contracts) (s : ConsumerState lib commands) : Prop where
  loop : ∀ k, LoopInv contracts s k (s.loops k)
  exclusive : ∀ k k' i i' delivery delivery' now now' report report',
    s.loops k = .inserting i delivery now report →
    s.loops k' = .inserting i' delivery' now' report' →
    delivery.command.commandId = delivery'.command.commandId → k = k'
  acked : ∀ i, s.acked i = true →
    ∃ content, s.messages[i]? = some content ∧ content.Settled lib commands contracts s.db
  sent : ∀ id ∈ s.db.inbox.map InboxRow.commandId, ∃ content ∈ s.messages, ∃ command,
    decodeCapture lib commands content.subject content.payload = .ok command ∧
      command.commandId = id
  applied : (s.outcomes.filterMap (DeliveryOutcome.appliedCommand lib commands)).Sublist
    (s.db.inbox.map InboxRow.commandId)
  sound : ∀ o ∈ s.outcomes, o.Sound lib commands contracts

/-- The inbox and the stream have grown, and a loop's transaction is where it was. -/
structure Onward (s t : ConsumerState lib commands) (k : ℕ) : Prop where
  messages : ∀ (i : ℕ) content, s.messages[i]? = some content → t.messages[i]? = some content
  inbox : s.db.inbox.map InboxRow.commandId ⊆ t.db.inbox.map InboxRow.commandId
  holds : ∀ i delivery now report, s.loops k = .inserting i delivery now report →
    Holds s.ledger delivery now → Holds t.ledger delivery now
  outcomes : ∀ p : DeliveryOutcome → Bool,
    (t.outcomes.countP fun o => o.loop == k && p o) = s.outcomes.countP fun o => o.loop == k && p o
  faults : t.faults.count k = s.faults.count k

/-- A settled message stays settled and in its place. -/
theorem settled_onward {i k : ℕ} (h : Onward s t k)
    (hsettled : ∃ content, s.messages[i]? = some content ∧
      content.Settled lib commands contracts s.db) :
    ∃ content, t.messages[i]? = some content ∧ content.Settled lib commands contracts t.db := by
  obtain ⟨content, hcontent, hsettled⟩ := hsettled
  exact ⟨content, h.messages i content hcontent, hsettled.mono h.inbox⟩

/-- A loop that did not move. -/
theorem LoopInv.onward {k : ℕ} (h : LoopInv contracts s k (s.loops k)) (honward : Onward s t k) :
    LoopInv contracts t k (s.loops k) where
  inserting i delivery now report hloop :=
    ⟨honward.holds i delivery now report hloop (h.inserting i delivery now report hloop).1,
      honward.messages i _ (h.inserting i delivery now report hloop).2⟩
  acking i report hloop := settled_onward honward (h.acking i report hloop)
  report report hloop := by
    have hcounts := h.report report hloop
    exact ⟨hcounts.applied.trans (honward.outcomes _).symm,
      hcounts.duplicates.trans (honward.outcomes _).symm,
      hcounts.malformed.trans (honward.outcomes _).symm,
      hcounts.failed.trans (by rw [honward.outcomes, honward.faults])⟩
  absent hloop := by
    obtain ⟨houtcomes, hfaults⟩ := h.absent hloop
    refine ⟨fun o ho hk => ?_, ?_⟩
    · have hnone : (s.outcomes.countP fun o => o.loop == k && true) = 0 :=
        List.countP_eq_zero.mpr fun o' ho' hp =>
          houtcomes o' ho' (beq_iff_eq.mp (Bool.and_eq_true_iff.mp hp).1)
      rw [← honward.outcomes] at hnone
      exact List.countP_eq_zero.mp hnone o ho (by rw [hk, beq_self_eq_true, Bool.and_self])
    · rw [← List.count_eq_zero, honward.faults, List.count_eq_zero]
      exact hfaults

/-- A step of one loop, with the faults that it met. -/
theorem Onward.setLoop (s : ConsumerState lib commands) (k : ℕ) {k' : ℕ} {faults : List ℕ}
    (loop : ConsumerLoop lib commands) (hfaults : faults.count k' = s.faults.count k') :
    Onward s { s.setLoop k loop with faults := faults } k' :=
  ⟨fun _ _ h => h, List.Subset.refl _, fun _ _ _ _ _ h => h, fun _ => rfl, hfaults⟩

/-- A fault of one loop is none of another. -/
theorem count_fault_of_ne {faults : List ℕ} {k k' : ℕ} (hne : k' ≠ k) :
    (faults ++ [k]).count k' = faults.count k' := by
  rw [List.count_append, List.count_singleton, beq_false_of_ne (Ne.symm hne)]
  rfl

/-- A loop with nothing open holds its report, and what it is about to acknowledge is settled. -/
theorem LoopInv.of_report {k : ℕ} {loop : ConsumerLoop lib commands}
    (hinserting : ∀ i delivery now report, loop ≠ .inserting i delivery now report)
    (hacking : ∀ i report, loop = .acking i report →
      ∃ content, s.messages[i]? = some content ∧ content.Settled lib commands contracts s.db)
    (habsent : loop ≠ .absent)
    (hreport : ∀ report, loop.report = some report → report.Counts k s.outcomes s.faults) :
    LoopInv contracts s k loop :=
  ⟨fun i delivery now report hloop => absurd hloop (hinserting i delivery now report), hacking,
    hreport, fun hloop => absurd hloop habsent⟩

/-- A fault is counted. -/
theorem ConsumerReport.Counts.fail {k : ℕ} {outcomes : List DeliveryOutcome} {faults : List ℕ}
    {report : ConsumerReport} (h : report.Counts k outcomes faults) :
    report.fail.Counts k outcomes (faults ++ [k]) := by
  refine ⟨h.applied, h.duplicates, h.malformed, ?_⟩
  rw [List.count_append, List.count_singleton_self, ← Nat.add_assoc, ← h.failed]
  rfl

theorem ConsumerReport.Counts.empty {k : ℕ} {outcomes : List DeliveryOutcome} {faults : List ℕ}
    (h : ∀ o ∈ outcomes, o.loop ≠ k) (hfaults : k ∉ faults) :
    ({} : ConsumerReport).Counts k outcomes faults := by
  have hnone : ∀ p : DeliveryOutcome → Bool, 0 = outcomes.countP fun o => o.loop == k && p o := by
    intro p
    refine (List.countP_eq_zero.mpr fun o ho hp => ?_).symm
    exact h o ho (beq_iff_eq.mp (Bool.and_eq_true_iff.mp hp).1)
  refine ⟨hnone _, hnone _, hnone _, ?_⟩
  rw [← hnone, List.count_eq_zero.mpr hfaults]

/-- **A counter moves with the outcome it counts.** -/
theorem ConsumerReport.Counts.tally {k : ℕ} {outcomes : List DeliveryOutcome} {faults : List ℕ}
    {report : ConsumerReport} (h : report.Counts k outcomes faults) (content : CommandMessage)
    (result : Except ConsumeError Reception) :
    (report.tally result).Counts k (outcomes ++ [⟨k, content, result⟩]) faults := by
  have happend : ∀ p : DeliveryOutcome → Bool,
      ((outcomes ++ [⟨k, content, result⟩] : List DeliveryOutcome).countP
          fun o => o.loop == k && p o) =
        (outcomes.countP fun o => o.loop == k && p o) +
          if p ⟨k, content, result⟩ then 1 else 0 := by
    intro p
    rw [List.countP_append, List.countP_singleton, beq_self_eq_true, Bool.true_and]
  constructor
  all_goals
    rw [happend]
    first
      | rw [← h.applied]
      | rw [← h.duplicates]
      | rw [← h.malformed]
      | rw [Nat.add_right_comm, ← h.failed]
  all_goals
    cases result with
    | ok reception => cases reception <;> rfl
    | error e => cases e <;> rfl

namespace ConsumerInv

/-- A loop moved on that holds no transaction before or after, and may have met a fault. -/
theorem setLoop (h : ConsumerInv contracts s) {k : ℕ} {loop : ConsumerLoop lib commands}
    {faults : List ℕ}
    (hinserting : ∀ i delivery now report, loop ≠ .inserting i delivery now report)
    (hfaults : ∀ k', k' ≠ k → faults.count k' = s.faults.count k')
    (hloop : LoopInv contracts { s with faults := faults } k loop) :
    ConsumerInv contracts { s.setLoop k loop with faults := faults } := by
  have hold : ∀ k' i delivery now report,
      (s.setLoop k loop).loops k' = .inserting i delivery now report →
      s.loops k' = .inserting i delivery now report := by
    intro k' i delivery now report hk'
    change Function.update s.loops k loop k' = _ at hk'
    by_cases hk : k' = k
    · subst hk
      rw [Function.update_self] at hk'
      exact absurd hk' (hinserting i delivery now report)
    · rwa [Function.update_of_ne hk] at hk'
  refine ⟨fun k' => ?_, ?_, h.acked, h.sent, h.applied, h.sound⟩
  · change LoopInv contracts _ k' (Function.update s.loops k loop k')
    by_cases hk : k' = k
    · subst hk
      rw [Function.update_self]
      exact ⟨hloop.inserting, hloop.acking, hloop.report, hloop.absent⟩
    · rw [Function.update_of_ne hk]
      exact (h.loop k').onward (Onward.setLoop s k loop (hfaults k' hk))
  · intro k₁ k₂ i i' delivery delivery' now now' report report' h₁ h₂ hid
    exact h.exclusive k₁ k₂ i i' delivery delivery' now now' report report' (hold _ _ _ _ _ h₁)
      (hold _ _ _ _ _ h₂) hid

end ConsumerInv

/-- Other commands keep their transactions. -/
theorem Holds.of_update {x y : LedgerState lib commands}
    {delivery delivery' : Delivery lib commands} {now : Timestamp}
    {holder : Option (LedgerTx lib commands × Found)}
    (h : Holds x delivery' now)
    (hne : delivery'.command.commandId ≠ delivery.command.commandId)
    (hheld : y.held = Function.update x.held (.command delivery.command.commandId) holder) :
    Holds y delivery' now := by
  have hkey : LedgerKey.command delivery'.command.commandId ≠
      .command delivery.command.commandId := fun heq => hne (LedgerKey.command.inj heq)
  rw [Holds, hheld, Function.update_of_ne hkey]
  exact h

section Settle

variable {i j : ℕ} {report report' : ConsumerReport} {result : Except ConsumeError Reception}

theorem settle_ne_inserting {delivery : Delivery lib commands} {now : Timestamp} :
    (ConsumerLoop.settle i report result : ConsumerLoop lib commands) ≠
      .inserting j delivery now report' := by
  unfold ConsumerLoop.settle
  split <;> rintro ⟨⟩

theorem settle_ne_absent :
    (ConsumerLoop.settle i report result : ConsumerLoop lib commands) ≠ .absent := by
  unfold ConsumerLoop.settle
  split <;> rintro ⟨⟩

theorem settle_report :
    (ConsumerLoop.settle i report result : ConsumerLoop lib commands).report =
      some (report.tally result) := by
  unfold ConsumerLoop.settle
  split <;> rfl

theorem settle_acking
    (h : (ConsumerLoop.settle i report result : ConsumerLoop lib commands) = .acking j report') :
    i = j ∧ leftForRedelivery result = false := by
  unfold ConsumerLoop.settle at h
  split at h
  · cases h
  · next hack => exact ⟨(ConsumerLoop.acking.inj h).1, Bool.eq_false_iff.mpr hack⟩

end Settle

/-- What an outcome adds to the applied commands, the inbox has too. -/
theorem Judged.appliedCommand {content : CommandMessage} {db db' : Db} {k : ℕ}
    {result : Except ConsumeError Reception} {ids : List Uuid}
    (h : Judged lib commands contracts content db db' result)
    (hids : ids.Sublist (db.inbox.map InboxRow.commandId)) :
    (ids ++ [(⟨k, content, result⟩ : DeliveryOutcome)].filterMap
      (DeliveryOutcome.appliedCommand lib commands)).Sublist
        (db'.inbox.map InboxRow.commandId) := by
  cases h with
  | applied hdecode htaken hinbox =>
      rename_i command
      have hone : DeliveryOutcome.appliedCommand lib commands ⟨k, content, .ok .applied⟩ =
          some command.commandId := by
        rw [DeliveryOutcome.appliedCommand]
        dsimp only
        rw [hdecode]
        rfl
      rw [hinbox, List.filterMap_cons, hone, List.filterMap_nil]
      exact hids.append (List.Sublist.refl _)
  | duplicate _ _ hinbox | malformed _ hinbox | failed hinbox =>
      rw [hinbox]
      exact (List.append_nil ids).symm ▸ hids
  | unanswered _ hinbox =>
      rw [hinbox]
      exact (List.append_nil ids).symm ▸ hids.trans (List.sublist_append_left _ _)

/-- An outcome is sound for its message. -/
theorem Judged.sound {content : CommandMessage} {db db' : Db} {k : ℕ}
    {result : Except ConsumeError Reception}
    (h : Judged lib commands contracts content db db' result) :
    (⟨k, content, result⟩ : DeliveryOutcome).Sound lib commands contracts := by
  cases h with
  | applied hdecode htaken => exact ⟨fun _ => ⟨_, hdecode, htaken⟩, by rintro ⟨⟩⟩
  | duplicate => exact ⟨by rintro ⟨⟩, by rintro ⟨⟩⟩
  | malformed hrefused => exact ⟨by rintro ⟨⟩, fun _ => hrefused⟩
  | unanswered => exact ⟨by rintro ⟨⟩, by rintro ⟨⟩⟩
  | failed => exact ⟨by rintro ⟨⟩, by rintro ⟨⟩⟩

namespace ConsumerInv

/-- **`consume_capture` returned.** -/
theorem finish (h : ConsumerInv contracts s) {k i : ℕ} {content : CommandMessage}
    {report : ConsumerReport} {result : Except ConsumeError Reception}
    {y : LedgerState lib commands} (hreport : (s.loops k).report = some report)
    (hmessage : s.messages[i]? = some content)
    (hjudged : Judged lib commands contracts content s.db y.data.db result)
    (hholds : ∀ k', k' ≠ k → ∀ i delivery now report,
      s.loops k' = .inserting i delivery now report → Holds s.ledger delivery now →
      Holds y delivery now) :
    ConsumerInv contracts (s.finish k i content report result y) := by
  obtain ⟨new, hinbox, hnew⟩ := hjudged.inbox
  have hsub : s.db.inbox.map InboxRow.commandId ⊆ y.data.db.inbox.map InboxRow.commandId := by
    rw [hinbox]
    exact List.subset_append_left _ _
  have honward : ∀ k', k' ≠ k → Onward s (s.finish k i content report result y) k' := by
    intro k' hk'
    refine ⟨fun _ _ hi => hi, hsub, hholds k' hk', fun p => ?_, rfl⟩
    change ((s.outcomes ++ [⟨k, content, result⟩] : List DeliveryOutcome).countP
      fun o => o.loop == k' && p o) = _
    rw [List.countP_append, List.countP_singleton, beq_false_of_ne (Ne.symm hk'), Bool.false_and]
    rfl
  have hold : ∀ k' i' delivery now report',
      (s.finish k i content report result y).loops k' = .inserting i' delivery now report' →
      s.loops k' = .inserting i' delivery now report' := by
    intro k' i' delivery now report' hk'
    change Function.update s.loops k _ k' = _ at hk'
    by_cases hk : k' = k
    · subst hk
      rw [Function.update_self] at hk'
      exact absurd hk' settle_ne_inserting
    · rwa [Function.update_of_ne hk] at hk'
  refine ⟨fun k' => ?_, ?_, fun i' hi' => ?_, fun id hid => ?_, ?_, fun o ho => ?_⟩
  · change LoopInv contracts _ k' (Function.update s.loops k _ k')
    by_cases hk : k' = k
    · subst hk
      rw [Function.update_self]
      refine .of_report (fun _ _ _ _ => settle_ne_inserting) (fun j report' hj => ?_)
        settle_ne_absent fun report' hr => ?_
      · obtain ⟨rfl, hack⟩ := settle_acking hj
        exact ⟨content, hmessage, hjudged.settled hack⟩
      · obtain rfl := Option.some.inj (settle_report.symm.trans hr)
        exact ((h.loop k').report report hreport).tally content result
    · rw [Function.update_of_ne hk]
      exact (h.loop k').onward (honward k' hk)
  · intro k₁ k₂ i₁ i₂ delivery delivery' now now' report₁ report₂ h₁ h₂ hid
    exact h.exclusive k₁ k₂ i₁ i₂ delivery delivery' now now' report₁ report₂ (hold _ _ _ _ _ h₁)
      (hold _ _ _ _ _ h₂) hid
  · obtain ⟨content', hcontent', hsettled⟩ := h.acked i' hi'
    exact ⟨content', hcontent', hsettled.mono hsub⟩
  · change id ∈ y.data.db.inbox.map InboxRow.commandId at hid
    rw [hinbox] at hid
    rcases List.mem_append.mp hid with hid | hid
    · exact h.sent id hid
    · obtain ⟨command, hdecode, hcommand⟩ := hnew id hid
      exact ⟨content, List.mem_of_getElem? hmessage, command, hdecode, hcommand⟩
  · change ((s.outcomes ++ [⟨k, content, result⟩] : List DeliveryOutcome).filterMap _).Sublist _
    rw [List.filterMap_append]
    exact hjudged.appliedCommand h.applied
  · rcases List.mem_append.mp ho with ho | ho
    · exact h.sound o ho
    · obtain rfl := List.mem_singleton.mp ho
      exact hjudged.sound

/-- Nothing changed but the ledger and, for one loop, its transaction. -/
theorem ledger (h : ConsumerInv contracts s) {y : LedgerState lib commands}
    (hinbox : y.data.db.inbox = s.db.inbox)
    (hholds : ∀ k i delivery now report, s.loops k = .inserting i delivery now report →
      Holds s.ledger delivery now → Holds y delivery now) :
    ConsumerInv contracts { s with ledger := y } := by
  have hids : y.data.db.inbox.map InboxRow.commandId = s.db.inbox.map InboxRow.commandId := by
    rw [hinbox]
  have honward : ∀ k, Onward s { s with ledger := y } k := fun k =>
    ⟨fun _ _ hi => hi, fun id hid => hids ▸ hid, hholds k, fun _ => rfl, rfl⟩
  refine ⟨fun k => (h.loop k).onward (honward k), h.exclusive,
    fun i hi => settled_onward (honward 0) (h.acked i hi), fun id hid => h.sent id (hids ▸ hid), ?_,
    h.sound⟩
  change List.Sublist _ (y.data.db.inbox.map InboxRow.commandId)
  rw [hids]
  exact h.applied

/-- A message is appended. -/
theorem send (h : ConsumerInv contracts s) (content : CommandMessage) :
    ConsumerInv contracts { s with messages := s.messages ++ [content] } := by
  have hkept : ∀ (i : ℕ) content', s.messages[i]? = some content' →
      (s.messages ++ [content])[i]? = some content' := by
    intro i content' hi
    rw [List.getElem?_append_left (List.getElem?_eq_some_iff.mp hi).1]
    exact hi
  have honward : ∀ k, Onward s { s with messages := s.messages ++ [content] } k := fun k =>
    ⟨hkept, List.Subset.refl _, fun _ _ _ _ _ hholds => hholds, fun _ => rfl, rfl⟩
  refine ⟨fun k => (h.loop k).onward (honward k), h.exclusive,
    fun i hi => settled_onward (honward 0) (h.acked i hi), fun id hid => ?_, h.applied, h.sound⟩
  obtain ⟨content', hmem, hrest⟩ := h.sent id hid
  exact ⟨content', List.mem_append_left _ hmem, hrest⟩

/-- A delivery inserted its row. -/
theorem insert (h : ConsumerInv contracts s) {k i : ℕ} {report : ConsumerReport}
    {delivery : Delivery lib commands} {now : Timestamp} {y : LedgerState lib commands}
    (hloop : s.loops k = .handling i report) (hmessage : s.messages[i]? = some (contentOf delivery))
    (hst : (ledgerSystem lib commands contracts columns).step s.ledger
      (.enter (.intake delivery now)) y) :
    ConsumerInv contracts
      { s.setLoop k (.inserting i delivery now report) with ledger := y } := by
  obtain ⟨hdata, hfree, hheld⟩ := ledger_insert hst
  have hother : ∀ k' i' delivery' now' report',
      s.loops k' = .inserting i' delivery' now' report' →
      delivery'.command.commandId ≠ delivery.command.commandId := by
    intro k' i' delivery' now' report' hk' hid
    have hholds := ((h.loop k').inserting _ _ _ _ hk').1
    rw [Holds, hid, hfree] at hholds
    cases hholds
  have hinv := h.ledger (y := y) (by rw [hdata]; rfl) fun k' i' delivery' now' report' hk' hholds =>
    hholds.of_update (hother k' i' delivery' now' report' hk') hheld
  refine ⟨fun k' => ?_, ?_, hinv.acked, hinv.sent, hinv.applied, hinv.sound⟩
  · change LoopInv contracts _ k' (Function.update s.loops k _ k')
    by_cases hk : k' = k
    · subst hk
      rw [Function.update_self]
      refine ⟨fun i' delivery' now' report' heq => ?_, by rintro _ _ ⟨⟩, fun report' hr => ?_,
        by rintro ⟨⟩⟩
      · obtain ⟨rfl, rfl, rfl, rfl⟩ := ConsumerLoop.inserting.inj heq
        refine ⟨?_, hmessage⟩
        change y.held _ = _
        rw [hheld, Function.update_self]
      · obtain rfl := Option.some.inj hr
        exact (hinv.loop k').report report (by change (s.loops k').report = _; rw [hloop]; rfl)
    · rw [Function.update_of_ne hk]
      have hk' := hinv.loop k'
      exact ⟨hk'.inserting, hk'.acking, hk'.report, hk'.absent⟩
  · intro k₁ k₂ i₁ i₂ delivery₁ delivery₂ now₁ now₂ report₁ report₂ h₁ h₂ hid
    change Function.update s.loops k _ k₁ = _ at h₁
    change Function.update s.loops k _ k₂ = _ at h₂
    by_cases hk₁ : k₁ = k
    · by_cases hk₂ : k₂ = k
      · exact hk₁.trans hk₂.symm
      · rw [hk₁, Function.update_self] at h₁
        rw [Function.update_of_ne hk₂] at h₂
        obtain ⟨-, rfl, -, -⟩ := ConsumerLoop.inserting.inj h₁
        exact absurd hid.symm (hother _ _ _ _ _ h₂)
    · rw [Function.update_of_ne hk₁] at h₁
      by_cases hk₂ : k₂ = k
      · rw [hk₂, Function.update_self] at h₂
        obtain ⟨-, rfl, -, -⟩ := ConsumerLoop.inserting.inj h₂
        exact absurd hid (hother _ _ _ _ _ h₁)
      · rw [Function.update_of_ne hk₂] at h₂
        exact h.exclusive _ _ _ _ _ _ _ _ _ _ h₁ h₂ hid

/-- A loop that holds nothing open keeps its report. -/
theorem quiet (h : ConsumerInv contracts s) {k : ℕ} {loop : ConsumerLoop lib commands}
    (hinserting : ∀ i delivery now report, loop ≠ .inserting i delivery now report)
    (hacking : ∀ i report, loop ≠ .acking i report) (habsent : loop ≠ .absent)
    (hreport : ∀ report, loop.report = some report → report.Counts k s.outcomes s.faults) :
    ConsumerInv contracts (s.setLoop k loop) :=
  h.setLoop hinserting (fun _ _ => rfl)
    (.of_report hinserting (fun i report hloop => absurd hloop (hacking i report)) habsent hreport)

/-- A loop waits for a message. -/
theorem waiting (h : ConsumerInv contracts s) {k : ℕ} {report : ConsumerReport}
    (hcounts : report.Counts k s.outcomes s.faults) :
    ConsumerInv contracts (s.setLoop k (.waiting report)) := by
  refine h.quiet (by rintro _ _ _ _ ⟨⟩) (by rintro _ _ ⟨⟩) (by rintro ⟨⟩) fun report' hreport => ?_
  obtain rfl := Option.some.inj hreport
  exact hcounts

theorem stopped (h : ConsumerInv contracts s) {k : ℕ} :
    ConsumerInv contracts (s.setLoop k .stopped) :=
  h.quiet (by rintro _ _ _ _ ⟨⟩) (by rintro _ _ ⟨⟩) (by rintro ⟨⟩) (by rintro _ ⟨⟩)

/-- A loop that waits again after a fault has counted it. -/
theorem fault (h : ConsumerInv contracts s) {k : ℕ} {report : ConsumerReport}
    (hcounts : report.Counts k s.outcomes s.faults) :
    ConsumerInv contracts
      { s.setLoop k (.waiting report.fail) with faults := s.faults ++ [k] } := by
  refine h.setLoop (by rintro _ _ _ _ ⟨⟩) (fun _ hne => count_fault_of_ne hne)
    (.of_report (by rintro _ _ _ _ ⟨⟩) (by rintro _ _ ⟨⟩) (by rintro ⟨⟩) fun report' hreport => ?_)
  obtain rfl := Option.some.inj hreport
  exact hcounts.fail

/-- An acknowledgement that fails is a fault. -/
theorem acknowledged (h : ConsumerInv contracts s) {k : ℕ} {report : ConsumerReport}
    (succeeded : Bool) (hcounts : report.Counts k s.outcomes s.faults) :
    ConsumerInv contracts
      { s.setLoop k (.waiting (if succeeded then report else report.fail)) with
        faults := if succeeded then s.faults else s.faults ++ [k] } := by
  cases succeeded with
  | true => exact h.waiting hcounts
  | false => exact h.fault hcounts

/-- Only the loop of a transaction loses it. -/
theorem holds_of_ne (h : ConsumerInv contracts s) {k i : ℕ} {report : ConsumerReport}
    {delivery : Delivery lib commands} {now : Timestamp} {y : LedgerState lib commands}
    (hloop : s.loops k = .inserting i delivery now report)
    (hheld : y.held =
      Function.update s.ledger.held (.command delivery.command.commandId) none) :
    ∀ k', k' ≠ k → ∀ i delivery now report,
      s.loops k' = .inserting i delivery now report → Holds s.ledger delivery now →
      Holds y delivery now := by
  intro k' hk' i' delivery' now' report' hloop' hholds
  refine hholds.of_update (fun hid => hk' ?_) hheld
  exact h.exclusive _ _ _ _ _ _ _ _ _ _ hloop' hloop hid

end ConsumerInv

/-- **The ledger of the consumers** is reachable in the ledger system. -/
theorem reachable_consumerLedger
    (h : (consumerSystem lib commands contracts columns).Reachable s) :
    (ledgerSystem lib commands contracts columns).Reachable s.ledger := by
  refine h.invariant
    (I := fun s => (ledgerSystem lib commands contracts columns).Reachable s.ledger)
    (fun s hs => .init ⟨hs.1, hs.2.1⟩) ?_
  intro s a t _ hs hst
  cases hst with
  | ledger hother hst => exact hs.step hst
  | insert hloop hmessage hst => exact hs.step hst
  | commit hloop hst => exact hs.step hst
  | commitUnanswered hloop hst => exact hs.step hst
  | rollback hloop hst => exact hs.step hst
  | known hloop hmessage hst => exact hs.step hst
  | crashInserting hloop hst => exact hs.step hst
  | _ => exact hs

/-- **Every step keeps the invariant.** -/
theorem ConsumerInv.step (h : ConsumerInv contracts s) {a : ConsumerLabel lib commands}
    (hledger : (ledgerSystem lib commands contracts columns).Reachable s.ledger)
    (hst : (consumerSystem lib commands contracts columns).step s a t) :
    ConsumerInv contracts t := by
  cases hst with
  | send => exact h.send _
  | ledger hother hst =>
      obtain ⟨hinbox, hheld⟩ := ledger_other hledger hother hst
      refine h.ledger hinbox fun k i delivery now report _ hholds => ?_
      rw [Holds, hheld]
      exact hholds
  | start hloop =>
      rename_i k
      exact h.waiting (.empty ((h.loop k).absent hloop).1 ((h.loop k).absent hloop).2)
  | deliver hloop hmessage hunacked hleft =>
      rename_i k i report
      have hinv : ConsumerInv contracts (s.setLoop k (.handling i report)) :=
        h.quiet (by rintro _ _ _ _ ⟨⟩) (by rintro _ _ ⟨⟩) (by rintro ⟨⟩) fun report' hreport => by
          obtain rfl := Option.some.inj hreport
          exact (h.loop k).report report (by rw [hloop]; rfl)
      exact ⟨fun k' => ⟨(hinv.loop k').inserting, (hinv.loop k').acking, (hinv.loop k').report,
        (hinv.loop k').absent⟩, hinv.exclusive, hinv.acked, hinv.sent, hinv.applied, hinv.sound⟩
  | deliveryFails hloop =>
      rename_i k report
      exact h.fault ((h.loop k).report report (by rw [hloop]; rfl))
  | insert hloop hmessage hst => exact h.insert hloop hmessage hst
  | commit hloop hst =>
      rename_i k i report delivery now y
      obtain ⟨hholds, hmessage⟩ := (h.loop k).inserting _ _ _ _ hloop
      obtain ⟨hdb, hheld⟩ := ledger_commit hholds hst
      refine h.finish (by rw [hloop]; rfl) hmessage ?_ (h.holds_of_ne hloop hheld)
      rw [hdb]
      exact judged_consumeCapture now delivery s.db
  | commitUnanswered hloop hst =>
      rename_i k i report delivery now y
      obtain ⟨hholds, hmessage⟩ := (h.loop k).inserting _ _ _ _ hloop
      obtain ⟨hdb, hheld⟩ := ledger_commit hholds hst
      refine h.finish (by rw [hloop]; rfl) hmessage ?_ (h.holds_of_ne hloop hheld)
      rw [hdb]
      exact judged_unanswered now delivery s.db
  | rollback hloop hst =>
      rename_i k i report delivery now y
      obtain ⟨-, hmessage⟩ := (h.loop k).inserting _ _ _ _ hloop
      obtain ⟨hdata, hheld⟩ := ledger_abort hst
      refine h.finish (by rw [hloop]; rfl) hmessage (.failed ?_) (h.holds_of_ne hloop hheld)
      rw [hdata]
      rfl
  | unavailable hloop hmessage =>
      exact h.finish (by rw [hloop]; rfl) hmessage (.failed rfl) fun _ _ _ _ _ _ _ hholds => hholds
  | known hloop hmessage hst =>
      rename_i k i report delivery now y
      obtain ⟨hdb, hheld⟩ := ledger_redeliver hst
      refine h.finish (by rw [hloop]; rfl) hmessage ?_ fun _ _ _ _ _ _ _ hholds => ?_
      · rw [hdb]
        exact judged_consumeCapture now delivery s.db
      · rw [Holds, hheld]
        exact hholds
  | undecodable hloop hmessage hdecode =>
      refine h.finish (by rw [hloop]; rfl) hmessage (.malformed (fun command hcommand => ?_) rfl)
        fun _ _ _ _ _ _ _ hholds => hholds
      rw [hdecode] at hcommand
      cases hcommand
  | ack hloop =>
      rename_i k i report received succeeded
      have hcounts := (h.loop k).report report (by rw [hloop]; rfl)
      have hinv := h.acknowledged succeeded hcounts
      refine ⟨fun k' => ⟨(hinv.loop k').inserting, (hinv.loop k').acking, (hinv.loop k').report,
        (hinv.loop k').absent⟩, hinv.exclusive, fun i' hi' => ?_, hinv.sent, hinv.applied,
        hinv.sound⟩
      change (if received then Function.update s.acked i true else s.acked) i' = true at hi'
      by_cases hsame : i' = i
      · subst hsame
        exact (h.loop k).acking i' report hloop
      · split at hi'
        · rw [Function.update_of_ne hsame] at hi'
          exact h.acked i' hi'
        · exact h.acked i' hi'
  | cancel hloop =>
      rename_i k report
      refine h.quiet (by rintro _ _ _ _ ⟨⟩) (by rintro _ _ ⟨⟩) (by rintro ⟨⟩)
        fun report' hreport => ?_
      obtain rfl := Option.some.inj hreport
      exact (h.loop k).report report (by rw [hloop]; rfl)
  | crash hloop =>
      exact h.stopped
  | crashInserting hloop hst =>
      rename_i k i report delivery now y
      obtain ⟨hdata, hheld⟩ := ledger_abort hst
      refine (h.stopped (k := k)).ledger (by rw [hdata]; rfl)
        fun k' i' delivery' now' report' hk' hholds => ?_
      change Function.update s.loops k _ k' = _ at hk'
      by_cases hk : k' = k
      · rw [hk, Function.update_self] at hk'
        cases hk'
      · rw [Function.update_of_ne hk] at hk'
        exact h.holds_of_ne hloop hheld k' hk _ _ _ _ hk' hholds

/-- **The invariant holds in every reachable state** of the consumers. -/
theorem consumerInv_of_reachable
    (h : (consumerSystem lib commands contracts columns).Reachable s) :
    ConsumerInv contracts s := by
  refine (h.invariant
    (I := fun s => (ledgerSystem lib commands contracts columns).Reachable s.ledger ∧
      ConsumerInv contracts s) ?_ ?_).2
  · rintro s hs
    refine ⟨reachable_consumerLedger (.init hs), ?_⟩
    obtain ⟨hledger, -, hmessages, hacked, hloops, houtcomes, hfaults⟩ := hs
    have hinbox : s.db.inbox = [] := by
      rw [ConsumerState.db, hledger]
      rfl
    refine ⟨fun k => ?_, fun k k' i i' delivery delivery' now now' report report' hk => ?_,
      fun i hi => ?_, fun id hid => ?_, ?_, fun o ho => ?_⟩
    · rw [hloops]
      refine ⟨by rintro _ _ _ _ ⟨⟩, by rintro _ _ ⟨⟩, by rintro _ ⟨⟩, fun _ => ⟨fun o ho => ?_, ?_⟩⟩
      · rw [houtcomes] at ho
        cases ho
      · rw [hfaults]
        exact List.not_mem_nil
    · rw [hloops] at hk
      cases hk
    · rw [hacked] at hi
      cases hi
    · rw [hinbox] at hid
      cases hid
    · rw [houtcomes]
      exact List.nil_sublist _
    · rw [houtcomes] at ho
      cases ho
  · intro s a t hs hinv hst
    exact ⟨reachable_consumerLedger (hs.step hst), hinv.2.step hinv.1 hst⟩

/-- **Commands are applied once, and no message is acknowledged before it is settled**, in every
reachable state of the consumers. However deliveries, statements, commits, acknowledgements and
processes fail:

* an acknowledged message is no capture command, or its command is in the inbox, or refused for
  good;
* what is in the inbox was sent, and has one run;
* no two deliveries report the same command as applied, and an applied command is in the inbox;
* a message that a delivery reports as malformed is applied by no delivery;
* the counters of a consumer are those of its deliveries and acknowledgements. -/
theorem capture_commands_applied_once
    (h : (consumerSystem lib commands contracts columns).Reachable s) :
    (∀ i, s.acked i = true → ∃ content, s.messages[i]? = some content ∧
      content.Settled lib commands contracts s.db) ∧
    (∀ r ∈ s.db.inbox, (s.db.runs.countP fun run => run.commandId == r.commandId) = 1 ∧
      ∃ content ∈ s.messages, ∃ command,
        decodeCapture lib commands content.subject content.payload = .ok command ∧
          command.commandId = r.commandId) ∧
    ((s.outcomes.filterMap (DeliveryOutcome.appliedCommand lib commands)).Nodup ∧
      ∀ o ∈ s.outcomes, o.isApplied = true → ∃ id, o.appliedCommand lib commands = some id ∧
        id ∈ s.db.inbox.map InboxRow.commandId) ∧
    (∀ o ∈ s.outcomes, o.isMalformed = true →
      ∀ o' ∈ s.outcomes, o'.content = o.content → o'.isApplied = false) ∧
    ∀ k report, (s.loops k).report = some report → report.Counts k s.outcomes s.faults := by
  have hinv := consumerInv_of_reachable h
  have hledger := ledgerInv_of_reachable (reachable_consumerLedger h)
  refine ⟨hinv.acked, fun r hr => ⟨?_, ?_⟩, ⟨?_, fun o ho happlied => ?_⟩, ?_, fun k report hk =>
    (hinv.loop k).report report hk⟩
  · have hmem : r.commandId ∈ s.db.runs.map RunRow.commandId :=
      hledger.inbox ▸ List.mem_map_of_mem hr
    have hcount := List.count_eq_one_of_mem hledger.commandIds hmem
    rw [List.count, List.countP_map] at hcount
    exact hcount
  · exact hinv.sent _ (List.mem_map_of_mem hr)
  · refine hinv.applied.nodup ?_
    rw [ConsumerState.db, hledger.inbox]
    exact hledger.commandIds
  · obtain ⟨command, hdecode, -⟩ := (hinv.sound o ho).applied happlied
    have hid : o.appliedCommand lib commands = some command.commandId := by
      rw [DeliveryOutcome.appliedCommand, if_pos happlied, hdecode]
      rfl
    exact ⟨_, hid, hinv.applied.subset (List.mem_filterMap.mpr ⟨o, ho, hid⟩)⟩
  · intro o ho hmalformed o' ho' hcontent
    refine Bool.eq_false_iff.mpr fun happlied => ?_
    obtain ⟨command, hdecode, htaken⟩ := (hinv.sound o' ho').applied happlied
    rw [hcontent] at hdecode
    exact htaken ((hinv.sound o ho).malformed hmalformed command hdecode)

end Invariant

/-! ### A lost answer -/

/-- The consumers before anything happens. -/
def consumerStart : ConsumerState exampleLib exampleCommands :=
  ⟨.free Ledger.initial, [], fun _ => 0, fun _ => false, fun _ => .absent, [], []⟩

/-- The answer to the commit of the first delivery is lost; the second finds the command known and
is acknowledged. -/
theorem capture_commands_applied_once_redelivered :
    ∃ s : ConsumerState exampleLib exampleCommands,
      (consumerSystem exampleLib exampleCommands exampleContracts exampleColumns).Reachable s ∧
      s.deliveries 0 = 2 ∧ s.acked 0 = true ∧
      (s.outcomes.map fun o => (o.loop, o.isDuplicate)) = [(0, false), (1, true)] ∧
      (s.loops 0).report = some { failed := 1 } ∧
      ({ failed := 1 } : ConsumerReport).Counts 0 s.outcomes s.faults ∧
      ∃ content, s.messages[0]? = some content ∧
        content.Settled exampleLib exampleCommands exampleContracts s.db := by
  have hinsert : (ledgerSystem exampleLib exampleCommands exampleContracts exampleColumns).step
      (.free Ledger.initial) (.enter (.intake exampleDelivery 0)) _ :=
    Locking.Protocol.step_enter (c := .newCommand) rfl
  have hcommit : (ledgerSystem exampleLib exampleCommands exampleContracts exampleColumns).step
      _ (.commit (.command exampleDelivery.command.commandId)) _ :=
    Locking.Protocol.step_commit (LedgerTx.intake exampleDelivery 0) Found.newCommand Ledger.initial
  have hinit : (consumerSystem exampleLib exampleCommands exampleContracts
      exampleColumns).Reachable consumerStart :=
    .init ⟨rfl, fun _ => rfl, rfl, fun _ => rfl, fun _ => rfl, rfl, rfl⟩
  have hsent := hinit.step (a := ConsumerLabel.send ⟨captureSubject, []⟩) .send
  have hfirst := (hsent.step (.start (k := 0) rfl)).step
    (.deliver (k := 0) (i := 0) rfl (by decide) rfl (by decide))
  have hlost := (hfirst.step (.insert (k := 0) rfl rfl hinsert)).step
    (.commitUnanswered (k := 0) rfl hcommit)
  have hsecond := (hlost.step (.start (k := 1) rfl)).step
    (.deliver (k := 1) (i := 0) rfl (by decide) rfl (by decide))
  have hknown : (ledgerSystem exampleLib exampleCommands exampleContracts exampleColumns).step
      (.free exampleQueued) (.act (.redeliver exampleDelivery 1)) _ :=
    .act (.redeliver ⟨_, .head _, rfl⟩)
  have hacked := (hsecond.step (.known (k := 1) rfl rfl hknown)).step
    (a := ConsumerLabel.ack 1 true true) (.ack rfl)
  have happlied := capture_commands_applied_once hacked
  exact ⟨_, hacked, rfl, rfl, rfl, rfl, happlied.2.2.2.2 0 _ rfl, happlied.1 0 rfl⟩

end Extractor
