import Extractor.Lib.Streams
import Extractor.RunLedger

/-!
# The events on the bus

What the rest of the fleet sees of a run. The ledger enqueues the facts of a run in the
transactions that change it; relays lease the rows, hand them to the broker and record what came
back. Here the two are one system: the ledger with its workers and consumers, any number of relays
of `run_outbox_once`, and the event stream of the broker, which drops a message whose identifier
it has seen within `duplicate_window`. A message can be lost on its way, and an acknowledgement can
be lost on its way back, so that the relay tries again what the stream has stored already. The
stream is the history of the messages that it has stored: that the broker deletes a message after
`max_age`, 168 hours, is left out.

## Main results

* `reachable_ledger`: the ledger part of every reachable state is reachable in the ledger system.
* `busInv_of_reachable`: what the stream has stored was enqueued, and what is marked as published it
  has stored.
* `bus_agrees_with_ledger`: what the stream says about a run is what the ledger says.
-/

namespace Extractor

/-! ### The broker -/

/-- A message on the bus, without its identifier. -/
structure BusMessage where
  subject : String
  body : List UInt8
  deriving DecidableEq

/-- What the event stream has ever stored. -/
abbrev EventStream := List (Streams.Stored Uuid BusMessage)

/-- `duplicate_window` of `ensure_stream`. -/
def duplicateWindow : ℕ := seconds 120

/-- What becomes of a message that is handed to the broker. -/
inductive Arrival
  /-- The broker does not get it. -/
  | lost
  /-- The broker stores it, and its acknowledgement is lost. -/
  | unacknowledged
  | acknowledged
  deriving DecidableEq

/-- The stream after `NatsPublisher::publish` on the body of a row. -/
def publishTo (now : Timestamp) (maxPayload : ℕ) (arrival : Arrival)
    (row : ClaimedRow EventEnvelope) (body : List UInt8) (stream : EventStream) : EventStream :=
  if maxPayload - payloadHeadroomBytes < body.length ∨ arrival = .lost then stream
  else Streams.store duplicateWindow now row.messageId ⟨row.subject, body⟩ stream

/-! ### The system -/

/-- The database with its transactions, the relays, and the stream. -/
structure Service (lib : UrlLib) (commands : CommandLib) where
  now : Timestamp
  ledger : LedgerState lib commands
  relays : ℕ → Relay EventEnvelope
  stream : EventStream

/-- What may happen next. -/
inductive ServiceLabel (lib : UrlLib) (commands : CommandLib)
  /-- Time passes. -/
  | tick (elapsed : ℕ)
  /-- A step of the ledger that is no statement of a relay. -/
  | ledger (a : LedgerLabel lib commands)
  /-- A relay leases a batch, records an outcome, or stops. -/
  | relay (a : OutboxLabel EventEnvelope)
  /-- A relay hands its next row to the broker. -/
  | publish (relay maxPayload : ℕ) (arrival : Arrival)

section System

variable {lib : UrlLib} {commands : CommandLib}

/-- The statements of relays. -/
def relayStatement : LedgerLabel lib commands → Bool
  | .act (.relayClaim _ _ _ _) | .act (.relayRecord _ _ _) => true
  | _ => false

/-- What a relay does without the broker. -/
def betweenPublications : OutboxLabel EventEnvelope → Bool
  | .claim _ _ _ _ _ | .settle _ | .crash _ => true
  | _ => false

namespace Service

/-- The rows of the outbox. -/
def outbox (s : Service lib commands) : List (OutboxRow EventEnvelope) := s.ledger.data.db.outbox

/-- What the relays see. -/
def relayView (s : Service lib commands) : OutboxState EventEnvelope :=
  ⟨s.now, s.outbox, s.relays, []⟩

/-- The ledger with other delivery columns. -/
def withRows (ledger : LedgerState lib commands) (rows : List (OutboxRow EventEnvelope)) :
    LedgerState lib commands :=
  { ledger with data := { ledger.data with db := { ledger.data.db with outbox := rows } } }

/-- The service after a relay's step. -/
def withView (s : Service lib commands) (view : OutboxState EventEnvelope) :
    Service lib commands :=
  { s with ledger := withRows s.ledger view.rows, relays := view.relays }

/-- A relay serializes its next row and, when that succeeds, publishes it. -/
def handOver (serialize : EventEnvelope → Option (List UInt8)) (s : Service lib commands)
    (relay maxPayload : ℕ) (arrival : Arrival) (row : ClaimedRow EventEnvelope)
    (rest : List (ClaimedRow EventEnvelope)) (report : OutboxReport) : Service lib commands :=
  match serialize row.payload with
  | none =>
      { s with
        relays := Function.update s.relays relay (.settling row .unserializable rest report) }
  | some body =>
      let result := natsPublish maxPayload body.length (arrival == .acknowledged)
      { s with
        relays := Function.update s.relays relay (.settling row (.returned result) rest report)
        stream := publishTo s.now maxPayload arrival row body s.stream }

end Service

variable (lib commands) (contracts : Contracts) (columns : BlobColumns)
  (serialize : EventEnvelope → Option (List UInt8))

/-- One step of the service. -/
inductive ServiceStep :
    Service lib commands → ServiceLabel lib commands → Service lib commands → Prop
  | tick {s : Service lib commands} {elapsed : ℕ} :
      ServiceStep s (.tick elapsed) { s with now := s.now + elapsed }
  | ledger {s : Service lib commands} {a : LedgerLabel lib commands} {y : LedgerState lib commands}
      (hother : relayStatement a = false)
      (hst : (ledgerSystem lib commands contracts columns).step s.ledger a y) :
      ServiceStep s (.ledger a) { s with ledger := y }
  | relay {s : Service lib commands} {a : OutboxLabel EventEnvelope}
      {view : OutboxState EventEnvelope} (hrelay : betweenPublications a = true)
      (hst : outboxStep serialize s.relayView a = some view) :
      ServiceStep s (.relay a) (s.withView view)
  | publish {s : Service lib commands} {relay maxPayload : ℕ} {arrival : Arrival}
      {row : ClaimedRow EventEnvelope} {rest : List (ClaimedRow EventEnvelope)}
      {report : OutboxReport} (hworking : s.relays relay = .working (row :: rest) report) :
      ServiceStep s (.publish relay maxPayload arrival)
        (s.handOver serialize relay maxPayload arrival row rest report)

/-- **The service**: the ledger, the relays and the broker, in every interleaving. -/
def serviceSystem : Labelled.System (Service lib commands) (ServiceLabel lib commands) where
  init s := s.ledger.data = Ledger.initial ∧ (∀ k, s.ledger.held k = none) ∧
    (∀ relay, s.relays relay = .idle) ∧ s.stream = []
  step := ServiceStep lib commands contracts columns serialize

end System

/-! ### The ledger of the service -/

section Ledger

variable {lib : UrlLib} {commands : CommandLib} {contracts : Contracts} {columns : BlobColumns}
  {serialize : EventEnvelope → Option (List UInt8)} {s t : Service lib commands}

/-- What a relay does between publications is a statement of the ledger system, or leaves the
ledger alone. -/
theorem Service.ledger_of_relay (contracts : Contracts) (columns : BlobColumns)
    {a : OutboxLabel EventEnvelope} {view : OutboxState EventEnvelope}
    (hrelay : betweenPublications a = true)
    (hst : outboxStep serialize s.relayView a = some view) :
    (s.withView view).ledger = s.ledger ∨
      ∃ b, (ledgerSystem lib commands contracts columns).step s.ledger b
        (s.withView view).ledger := by
  cases a with
  | tick elapsed => cases hrelay
  | enqueue outboxId messageId causationCommandId operationId subject payload at_ => cases hrelay
  | publish relay result => cases hrelay
  | crash relay =>
      obtain rfl := Option.some.inj hst
      exact Or.inl rfl
  | claim relay claimedBy limit locked order =>
      have hview : view = stepClaim s.relayView relay claimedBy limit locked order := by
        rw [outboxStep] at hst
        split at hst
        · exact (Option.some.inj hst).symm
        · exact (Option.some.inj hst).symm
        · cases hst
      rw [hview, stepClaim]
      split
      · exact Or.inl rfl
      · next rows claimed hclaim => exact Or.inr ⟨_, .act (.relayClaim hclaim)⟩
  | settle relay =>
      rw [outboxStep] at hst
      split at hst
      · next row verdict rest report _ =>
          obtain rfl := Option.some.inj hst
          rw [stepSettle]
          split
          · exact Or.inl rfl
          · next rows hrecord => exact Or.inr ⟨_, .act (.relayRecord hrecord)⟩
      · cases hst

/-- **The ledger part of the service** is reachable in the ledger system. -/
theorem reachable_ledger
    (h : (serviceSystem lib commands contracts columns serialize).Reachable s) :
    (ledgerSystem lib commands contracts columns).Reachable s.ledger := by
  refine h.invariant
    (I := fun s => (ledgerSystem lib commands contracts columns).Reachable s.ledger)
    (fun s hs => .init ⟨hs.1, hs.2.1⟩) ?_
  intro s a t _ hs hst
  cases hst with
  | tick => exact hs
  | ledger hother hst => exact hs.step hst
  | relay hrelay hst =>
      rcases Service.ledger_of_relay contracts columns hrelay hst with
        hsame | ⟨b, hb⟩
      · rw [hsame]
        exact hs
      · exact hs.step hb
  | publish hworking =>
      unfold Service.handOver
      split <;> exact hs

end Ledger

/-! ### What the ledger adds to the outbox -/

/-- Rows are added to the outbox under new identifiers, and none of them is published. -/
structure OutboxGrows (db db' : Db) (rows : List (OutboxRow EventEnvelope)) : Prop where
  outbox : db'.outbox = db.outbox ++ rows
  unpublished : ∀ r ∈ rows, r.publishedAt = none
  outboxIds : (rows.map OutboxRow.outboxId).Nodup
  messageIds : (rows.map OutboxRow.messageId).Nodup
  fresh : ∀ r ∈ rows, db.nextUuid ≤ r.outboxId ∧ db.nextUuid ≤ r.messageId

theorem OutboxGrows.of_eq {db db' : Db} (h : db'.outbox = db.outbox) : OutboxGrows db db' [] :=
  ⟨by rw [h, List.append_nil], by simp, List.nodup_nil, List.nodup_nil, by simp⟩

/-- One new row. -/
theorem OutboxGrows.of_row {db db' : Db} {r : OutboxRow EventEnvelope}
    (h : db'.outbox = db.outbox ++ [r]) (hnew : r.publishedAt = none)
    (hfresh : db.nextUuid ≤ r.outboxId ∧ db.nextUuid ≤ r.messageId) : OutboxGrows db db' [r] where
  outbox := h
  unpublished _ hx := List.mem_singleton.mp hx ▸ hnew
  outboxIds := List.nodup_singleton _
  messageIds := List.nodup_singleton _
  fresh _ hx := List.mem_singleton.mp hx ▸ hfresh

/-- The facts of a completion take identifiers of their own. -/
theorem OutboxGrows.of_completion {db db' : Db} {now : Timestamp} {context : CompletionContext}
    {document : Document} {irBlob : BlobRef} {ingested : Bool}
    (h : db'.outbox =
      db.outbox ++ completionRows now context document irBlob ingested db.nextUuid) :
    OutboxGrows db db' (completionRows now context document irBlob ingested db.nextUuid) := by
  cases ingested with
  | false => exact .of_row h rfl ⟨Nat.le_add_right _ 2, Nat.le_add_right _ 1⟩
  | true =>
      refine ⟨h, ?_, ?_, ?_, ?_⟩
      · intro r hr
        rcases List.mem_pair.mp hr with rfl | rfl <;> rfl
      · simp [completionRows, CompletionContext.outboxRow, CompletionContext.reportRow,
          OutboxRow.enqueued]
      · simp [completionRows, CompletionContext.outboxRow, CompletionContext.reportRow,
          OutboxRow.enqueued, CompletionContext.envelope, documentEvent]
      · intro r hr
        rcases List.mem_pair.mp hr with rfl | rfl
        · exact ⟨Nat.le_add_right _ 1, Nat.le_refl _⟩
        · exact ⟨Nat.le_add_right _ 3, Nat.le_add_right _ 2⟩

/-- The facts of a terminal call. -/
theorem OutboxGrows.of_ended {db db' : Db} {contracts : Contracts} {now : Timestamp}
    {call : TerminalCall} {run : RunRow} (h : call.Ended contracts now run db db') :
    OutboxGrows db db' (call.factRows contracts now run.context db.nextUuid) := by
  have houtbox := h.outbox
  cases call with
  | complete queued success => exact .of_completion houtbox
  | failRun runId failureClass retryable steps =>
      exact .of_row houtbox rfl ⟨Nat.le_add_right _ 1, Nat.le_refl _⟩
  | reject runId rejection =>
      exact .of_row houtbox rfl ⟨Nat.le_add_right _ 1, Nat.le_refl _⟩

/-- A delivery adds the queued report of a new command, or nothing. -/
theorem outboxGrows_consumeCapture {lib : UrlLib} {commands : CommandLib} (contracts : Contracts)
    (now : Timestamp) (delivery : Delivery lib commands) (db : Db) :
    ∃ rows, OutboxGrows db
      (consumeCapture lib commands contracts now delivery.subject delivery.payload db).2 rows := by
  rcases consumeCapture_cases contracts now delivery db with hsame | ⟨-, hqueued⟩
  · exact ⟨[], .of_eq (by rw [hsame])⟩
  · exact ⟨_, .of_row hqueued.outbox rfl ⟨Nat.le_add_right _ 3, Nat.le_add_right _ 2⟩⟩

/-- A statement of no relay adds to the outbox what a delivery adds. -/
theorem outboxGrows_statement {lib : UrlLib} {commands : CommandLib} {contracts : Contracts}
    {columns : BlobColumns} {a : LedgerAct lib commands} {locked : LedgerKey → Prop}
    {s t : Ledger} (hother : relayStatement (.act a : LedgerLabel lib commands) = false)
    (h : LedgerStatement lib commands contracts columns a locked s t) :
    ∃ rows, OutboxGrows s.db t.db rows := by
  cases h with
  | redeliver => exact outboxGrows_consumeCapture contracts _ _ _
  | claim =>
      rename_i now claimedBy leaseSeconds maxEventBytes skipped _
      rcases claimQueuedRun_cases columns now claimedBy leaseSeconds maxEventBytes skipped s.db with
        hsame | ⟨run, -, -, -, -, hdb⟩
      · exact ⟨[], .of_eq (by rw [hsame])⟩
      · exact ⟨[], .of_eq (by rw [hdb])⟩
  | refuse => exact ⟨[], .of_eq rfl⟩
  | miss => exact ⟨[], .of_eq rfl⟩
  | answer => exact ⟨[], .of_eq rfl⟩
  | recordFetch =>
      rename_i runId fetch now
      refine ⟨[], .of_eq ?_⟩
      unfold recordFetch
      split
      · rcases transact_snd (recordFetchTx now runId fetch) s.db with ⟨_, hok⟩ | hsame
        · obtain ⟨_, _, hfetch, hartifact⟩ := Tx.bind_eq_ok_iff.mp hok
          obtain ⟨-, rfl⟩ := insertFetch_eq_ok_iff.mp hfetch
          rw [(insertArtifact_eq_ok_iff.mp hartifact).2]
        · rw [hsame]
      · rfl
  | relayClaim => cases hother
  | relayRecord => cases hother

/-- **A step of the ledger that is no statement of a relay** adds rows to the outbox. -/
theorem outboxGrows_step {lib : UrlLib} {commands : CommandLib} {contracts : Contracts}
    {columns : BlobColumns} {x y : LedgerState lib commands} {a : LedgerLabel lib commands}
    (hx : (ledgerSystem lib commands contracts columns).Reachable x)
    (hother : relayStatement a = false)
    (hst : (ledgerSystem lib commands contracts columns).step x a y) :
    ∃ rows, OutboxGrows x.data.db y.data.db rows := by
  cases hst with
  | enter => exact ⟨[], .of_eq rfl⟩
  | abort => exact ⟨[], .of_eq rfl⟩
  | act hact => exact outboxGrows_statement hother hact
  | commit hheld =>
      rename_i k tx c
      have henter := (Locking.Protocol.held_enter ledger_stable hx _ _ _ hheld).2
      cases tx with
      | intake delivery now => exact outboxGrows_consumeCapture contracts now delivery _
      | terminal call now =>
          have hfound : (LedgerTx.terminal call now : LedgerTx lib commands).enter lib commands
              x.data = some c := henter
          obtain ⟨-, run, -, rfl⟩ := LedgerTx.enter_terminal_eq.mp hfound
          change ∃ rows, OutboxGrows x.data.db (x.data.finish contracts now call run).db rows
          unfold Ledger.finish
          cases hcommit : call.commit contracts now run x.data.db with
          | error e => exact ⟨[], .of_eq rfl⟩
          | ok r => exact ⟨_, .of_ended (TerminalCall.commit_eq_ok hcommit)⟩

/-! ### The invariant -/

section Invariant

variable {lib : UrlLib} {commands : CommandLib} {contracts : Contracts} {columns : BlobColumns}
  {serialize : EventEnvelope → Option (List UInt8)} {s t : Service lib commands}

/-- A stored message is what a row was sent as. -/
def SentAs (serialize : EventEnvelope → Option (List UInt8)) (m : Streams.Stored Uuid BusMessage)
    (row : ClaimedRow EventEnvelope) : Prop :=
  m.id = row.messageId ∧ m.content.subject = row.subject ∧
    serialize row.payload = some m.content.body

/-- **The invariant of the service**: what is in the stream was enqueued, and what a relay knows
to be acknowledged, or has recorded as published, is in the stream. -/
structure BusInv (serialize : EventEnvelope → Option (List UInt8)) (s : Service lib commands) :
    Prop where
  outboxIds : (s.outbox.map OutboxRow.outboxId).Nodup
  messageIds : (s.outbox.map OutboxRow.messageId).Nodup
  held : ∀ k, ∀ c ∈ (s.relays k).held, ∃ r ∈ s.outbox, r.claimed = c
  acknowledged : ∀ k row rest report, s.relays k = .settling row (.returned (.ok ())) rest report →
    ∃ m ∈ s.stream, SentAs serialize m row
  stored : ∀ m ∈ s.stream, ∃ r ∈ s.outbox, SentAs serialize m r.claimed
  published : ∀ r ∈ s.outbox, r.publishedAt.isSome = true →
    ∃ m ∈ s.stream, SentAs serialize m r.claimed
  spaced : Streams.Spaced duplicateWindow s.now s.stream

namespace BusInv

theorem tick (h : BusInv serialize s) (elapsed : ℕ) :
    BusInv serialize { s with now := s.now + elapsed } :=
  ⟨h.outboxIds, h.messageIds, h.held, h.acknowledged, h.stored, h.published,
    h.spaced.later elapsed⟩

/-- New rows are unpublished. -/
theorem grow (h : BusInv serialize s) {ledger : LedgerState lib commands}
    {rows : List (OutboxRow EventEnvelope)}
    (hbound : ∀ r ∈ s.outbox, r.outboxId < s.ledger.data.db.nextUuid ∧
      r.messageId < s.ledger.data.db.nextUuid)
    (hgrows : OutboxGrows s.ledger.data.db ledger.data.db rows) :
    BusInv serialize { s with ledger := ledger } := by
  have houtbox : ({ s with ledger := ledger } : Service lib commands).outbox = s.outbox ++ rows :=
    hgrows.outbox
  refine ⟨?_, ?_, ?_, h.acknowledged, ?_, ?_, h.spaced⟩
  · rw [houtbox, List.map_append]
    refine h.outboxIds.append hgrows.outboxIds fun i hi hi' => ?_
    obtain ⟨r, hr, rfl⟩ := List.mem_map.mp hi
    obtain ⟨r', hr', hid⟩ := List.mem_map.mp hi'
    exact absurd (hid ▸ (hbound r hr).1) (Nat.not_lt.mpr (hgrows.fresh r' hr').1)
  · rw [houtbox, List.map_append]
    refine h.messageIds.append hgrows.messageIds fun i hi hi' => ?_
    obtain ⟨r, hr, rfl⟩ := List.mem_map.mp hi
    obtain ⟨r', hr', hid⟩ := List.mem_map.mp hi'
    exact absurd (hid ▸ (hbound r hr).2) (Nat.not_lt.mpr (hgrows.fresh r' hr').2)
  · intro k c hc
    obtain ⟨r, hr, hclaimed⟩ := h.held k c hc
    exact ⟨r, houtbox ▸ List.mem_append_left _ hr, hclaimed⟩
  · intro m hm
    obtain ⟨r, hr, hcarries⟩ := h.stored m hm
    exact ⟨r, houtbox ▸ List.mem_append_left _ hr, hcarries⟩
  · intro r hr hpub
    rw [houtbox] at hr
    rcases List.mem_append.mp hr with hr | hr
    · exact h.published r hr hpub
    · rw [hgrows.unpublished r hr] at hpub
      cases hpub

/-- A relay's update keeps the columns that a message is made of. It marks a row as published when
the stream has it. -/
theorem update (h : BusInv serialize s) {p : OutboxRow EventEnvelope → Bool}
    {f : OutboxRow EventEnvelope → OutboxRow EventEnvelope} (hf : ∀ r, (f r).claimed = r.claimed)
    (relay : ℕ) (new : Relay EventEnvelope)
    (hheld : ∀ c ∈ new.held, ∃ r ∈ s.outbox, r.claimed = c)
    (hnew : ∀ row verdict rest report, new ≠ .settling row verdict rest report)
    (hpub : ∀ r ∈ s.outbox, p r = true → (f r).publishedAt.isSome = true →
      ∃ m ∈ s.stream, SentAs serialize m r.claimed) :
    BusInv serialize (s.withView
      ⟨s.now, Rows.updateWhere p f s.outbox, Function.update s.relays relay new, []⟩) where
  outboxIds := by
    change ((Rows.updateWhere p f s.outbox).map OutboxRow.outboxId).Nodup
    rw [keys_updateWhere hf]
    exact h.outboxIds
  messageIds := by
    change ((Rows.updateWhere p f s.outbox).map OutboxRow.messageId).Nodup
    rw [Rows.map_updateWhere OutboxRow.messageId
      fun r _ _ => congrArg ClaimedRow.messageId (hf r)]
    exact h.messageIds
  held := forall_update_relays
    (P := fun x => ∀ c ∈ x.held, ∃ r ∈ Rows.updateWhere p f s.outbox, r.claimed = c)
    (fun c hc => exists_claimed_of_update hf (hheld c hc))
    fun k c hc => exists_claimed_of_update hf (h.held k c hc)
  acknowledged k row rest report := forall_update_relays
    (P := fun x => x = .settling row (.returned (.ok ())) rest report →
      ∃ m ∈ s.stream, SentAs serialize m row)
    (fun hx => absurd hx (hnew _ _ _ _)) (fun k => h.acknowledged k row rest report) k
  stored m hm := by
    obtain ⟨r, hr, hcarries⟩ := h.stored m hm
    obtain ⟨r', hr', hclaimed⟩ :=
      exists_claimed_of_update (p := p) hf (c := r.claimed) ⟨r, hr, rfl⟩
    exact ⟨r', hr', hclaimed ▸ hcarries⟩
  published r' hr' hpub' := by
    obtain ⟨r, hr, rfl⟩ := Rows.mem_updateWhere.mp hr'
    by_cases hp : p r = true
    · rw [if_pos hp] at hpub' ⊢
      rw [hf]
      exact hpub r hr hp hpub'
    · rw [if_neg hp] at hpub' ⊢
      exact h.published r hr hpub'
  spaced := h.spaced

/-- A relay that stops holds nothing. -/
theorem drop (h : BusInv serialize s) {relay : ℕ} {new : Relay EventEnvelope}
    (hnew : new.held = []) :
    BusInv serialize (s.withView ⟨s.now, s.outbox, Function.update s.relays relay new, []⟩) := by
  refine ⟨h.outboxIds, h.messageIds, ?_, ?_, h.stored, h.published, h.spaced⟩
  · refine forall_update_relays
      (P := fun x => ∀ c ∈ x.held, ∃ r ∈ s.outbox, r.claimed = c) ?_ h.held
    rw [hnew]
    exact fun c hc => absurd hc List.not_mem_nil
  · intro k row rest report
    refine forall_update_relays (P := fun x => x = .settling row (.returned (.ok ())) rest report →
      ∃ m ∈ s.stream, SentAs serialize m row) ?_ (fun k => h.acknowledged k row rest report) k
    rintro rfl
    cases hnew

/-- A lease publishes nothing. -/
theorem claim (h : BusInv serialize s) (relay : ℕ) (claimedBy : String) (limit : ℤ)
    (locked : List Uuid) (order : Reordering (ClaimedRow EventEnvelope)) :
    BusInv serialize (s.withView (stepClaim s.relayView relay claimedBy limit locked order)) := by
  unfold stepClaim
  split
  · exact h.drop rfl
  · next rows claimed hclaim =>
      obtain ⟨ids, -, -, rfl, hclaimed⟩ := claimDue_eq_some hclaim
      refine h.update (f := OutboxRow.lease s.now claimedBy) (fun _ => rfl) relay
        (.working (order claimed).1 { claimed := claimed.length }) (fun c hc => ?_)
        (by rintro _ _ _ _ ⟨⟩) ?_
      · exact hclaimed c ((order claimed).2.mem_iff.mp hc)
      · exact fun r hr _ hpub => h.published r hr hpub

/-- A relay marks a row as published when the broker acknowledged it. -/
theorem settle (h : BusInv serialize s) {relay : ℕ} {row : ClaimedRow EventEnvelope}
    {verdict : Verdict} {rest : List (ClaimedRow EventEnvelope)} {report : OutboxReport}
    (hrelay : s.relays relay = .settling row verdict rest report) :
    BusInv serialize (s.withView (stepSettle s.relayView relay row verdict rest report)) := by
  unfold stepSettle
  split
  · exact h.drop rfl
  · next rows hrecord =>
      rw [recordVerdict_eq] at hrecord
      obtain ⟨-, rfl⟩ := updateChecked_eq_some_iff.mp hrecord
      have hheld := h.held relay
      rw [hrelay] at hheld
      refine h.update (fun _ => OutboxRow.settle_claimed) relay
        (.working rest (report.tally verdict)) (fun c hc => ?_) (by rintro _ _ _ _ ⟨⟩) ?_
      · exact hheld c (List.mem_cons_of_mem _ hc)
      · intro r hr hp hpub
        by_cases hbefore : r.publishedAt.isSome = true
        · exact h.published r hr hbefore
        · obtain ⟨r', hr', hclaimed⟩ := hheld row (List.mem_cons_self ..)
          have hid : r.outboxId = r'.outboxId :=
            (beq_iff_eq.mp hp).trans (congrArg ClaimedRow.outboxId hclaimed).symm
          rw [Rows.eq_of_key h.outboxIds hr hr' hid, hclaimed]
          refine h.acknowledged relay row rest report ?_
          rw [hrelay]
          -- no other verdict sets `published_at`
          cases verdict with
          | unserializable => exact absurd hpub hbefore
          | returned result =>
              cases result with
              | ok u => rfl
              | error e =>
                  refine absurd hpub ?_
                  rw [OutboxRow.settle]
                  split <;> exact hbefore

/-- A row that is handed over is in the stream when its publication succeeded. -/
theorem handOver (h : BusInv serialize s) {relay maxPayload : ℕ} {arrival : Arrival}
    {row : ClaimedRow EventEnvelope} {rest : List (ClaimedRow EventEnvelope)}
    {report : OutboxReport} (hrelay : s.relays relay = .working (row :: rest) report) :
    BusInv serialize (s.handOver serialize relay maxPayload arrival row rest report) := by
  have hheld := h.held relay
  rw [hrelay] at hheld
  obtain ⟨r, hr, hclaimed⟩ := hheld row (List.mem_cons_self ..)
  unfold Service.handOver
  split
  · refine ⟨h.outboxIds, h.messageIds, ?_, ?_, h.stored, h.published, h.spaced⟩
    · exact forall_update_relays (P := fun x => ∀ c ∈ x.held, ∃ r ∈ s.outbox, r.claimed = c)
        hheld h.held
    · intro k row' rest' report'
      exact forall_update_relays
        (P := fun x => x = .settling row' (.returned (.ok ())) rest' report' →
          ∃ m ∈ s.stream, SentAs serialize m row') (by rintro ⟨⟩)
        (fun k => h.acknowledged k row' rest' report') k
  · next body hbody =>
      have hkept : ∀ m ∈ s.stream, m ∈ publishTo s.now maxPayload arrival row body s.stream := by
        intro m hm
        unfold publishTo
        split
        · exact hm
        · exact Streams.mem_store_of_mem hm
      have hstored : ∀ m ∈ publishTo s.now maxPayload arrival row body s.stream,
          ∃ r ∈ s.outbox, SentAs serialize m r.claimed := by
        intro m hm
        unfold publishTo at hm
        split at hm
        · exact h.stored m hm
        · rcases Streams.mem_store hm with hm | rfl
          · exact h.stored m hm
          · rw [← hclaimed] at hbody ⊢
            exact ⟨r, hr, rfl, rfl, hbody⟩
      refine ⟨h.outboxIds, h.messageIds, ?_, ?_, hstored, ?_, ?_⟩
      · exact forall_update_relays (P := fun x => ∀ c ∈ x.held, ∃ r ∈ s.outbox, r.claimed = c)
          hheld h.held
      · intro k row' rest' report'
        refine forall_update_relays
          (P := fun x => x = .settling row' (.returned (.ok ())) rest' report' →
            ∃ m ∈ publishTo s.now maxPayload arrival row body s.stream, SentAs serialize m row')
          ?_ (fun k hk => ?_) k
        · intro hx
          obtain ⟨rfl, hresult, rfl, rfl⟩ := Relay.settling.inj hx
          have hok := Verdict.returned.inj hresult
          unfold natsPublish at hok
          split at hok
          · cases hok
          · next hfits =>
              have harrival : arrival ≠ .lost := by
                rintro rfl
                cases hok
              obtain ⟨m, hm, hid⟩ : ∃ m ∈ publishTo s.now maxPayload arrival row body s.stream,
                  m.id = row.messageId := by
                unfold publishTo
                rw [if_neg (not_or.mpr ⟨hfits, harrival⟩)]
                exact Streams.exists_id_store
              -- whatever the stream has under this identifier is this row
              obtain ⟨r', hr', hcarries⟩ := hstored m hm
              have hsame : r'.messageId = r.messageId :=
                (hcarries.1.symm.trans hid).trans (congrArg ClaimedRow.messageId hclaimed).symm
              rw [Rows.eq_of_key h.messageIds hr' hr hsame, hclaimed] at hcarries
              exact ⟨m, hm, hcarries⟩
        · obtain ⟨m, hm, hcarries⟩ := h.acknowledged k row' rest' report' hk
          exact ⟨m, hkept m hm, hcarries⟩
      · intro r' hr' hpub
        obtain ⟨m, hm, hcarries⟩ := h.published r' hr' hpub
        exact ⟨m, hkept m hm, hcarries⟩
      · change Streams.Spaced duplicateWindow s.now
          (publishTo s.now maxPayload arrival row body s.stream)
        unfold publishTo
        split
        · exact h.spaced
        · exact h.spaced.store

end BusInv

/-- **The invariant holds in every reachable state** of the service. -/
theorem busInv_of_reachable
    (h : (serviceSystem lib commands contracts columns serialize).Reachable s) :
    BusInv serialize s := by
  refine h.invariant (I := BusInv serialize) ?_ ?_
  · rintro s ⟨hledger, -, hrelays, hstream⟩
    have houtbox : s.outbox = [] := by
      rw [Service.outbox, hledger]
      rfl
    refine ⟨?_, ?_, ?_, ?_, ?_, ?_, ?_⟩
    · rw [houtbox]
      exact List.nodup_nil
    · rw [houtbox]
      exact List.nodup_nil
    · intro k c hc
      rw [hrelays] at hc
      exact absurd hc List.not_mem_nil
    · intro k row rest report hk
      rw [hrelays] at hk
      cases hk
    · rw [hstream]
      exact fun m hm => absurd hm List.not_mem_nil
    · rw [houtbox]
      exact fun r hr => absurd hr List.not_mem_nil
    · rw [hstream]
      exact .nil
  · intro s a t hs hinv hst
    cases hst with
    | tick => exact hinv.tick _
    | ledger hother hst =>
        obtain ⟨rows, hgrows⟩ := outboxGrows_step (reachable_ledger hs) hother hst
        exact hinv.grow (ledgerInv_of_reachable (reachable_ledger hs)).outbox_lt hgrows
    | relay hrelay hst =>
        rename_i a view
        cases a with
        | tick elapsed => cases hrelay
        | enqueue outboxId messageId causationCommandId operationId subject payload at_ =>
            cases hrelay
        | publish relay result => cases hrelay
        | crash relay =>
            obtain rfl := Option.some.inj hst
            exact hinv.drop rfl
        | claim relay claimedBy limit locked order =>
            rw [outboxStep] at hst
            split at hst
            · obtain rfl := Option.some.inj hst
              exact hinv.claim relay claimedBy limit locked order
            · obtain rfl := Option.some.inj hst
              exact hinv.claim relay claimedBy limit locked order
            · cases hst
        | settle relay =>
            rw [outboxStep] at hst
            split at hst
            · next hsettling =>
                obtain rfl := Option.some.inj hst
                exact hinv.settle hsettling
            · cases hst
    | publish hworking => exact hinv.handOver hworking

end Invariant

/-! ### What the stream says about a run -/

/-- The terminal status that a fact reports. -/
def Fact.finalStatus (f : Fact) : Option OperationStatus :=
  f.reportStatus.filter fun status => status != .queued

/-- The message tells the fleet this fact about the command. -/
def Service.Tells {lib : UrlLib} {commands : CommandLib}
    (serialize : EventEnvelope → Option (List UInt8)) (s : Service lib commands)
    (m : Streams.Stored Uuid BusMessage) (commandId : Uuid) (f : Fact) : Prop :=
  ∃ r ∈ s.outbox, SentAs serialize m r.claimed ∧ r.causationCommandId = commandId ∧ r.fact = f

section Facts

variable {db : Db} {commandId : Uuid} {r r' : OutboxRow EventEnvelope}

/-- The terminal reports of a command are counted row by row. -/
theorem Db.length_terminalReports (db : Db) (commandId : Uuid) :
    (db.terminalReports commandId).length =
    db.outbox.countP fun r => r.fact.finalStatus.isSome && r.causationCommandId == commandId := by
  rw [Db.terminalReports, Db.reports, Db.facts, List.filterMap_map, List.filter_filterMap,
    List.length_filterMap_eq_countP, List.countP_filter]
  rfl

/-- So are its documents. -/
theorem Db.length_documents (db : Db) (commandId : Uuid) : (db.documents commandId).length =
    db.outbox.countP fun r => r.fact.subject == documentSubject &&
      r.causationCommandId == commandId := by
  rw [Db.documents, Db.facts, List.length_map, List.filter_map, List.length_map,
    ← List.countP_eq_length_filter, List.countP_filter]
  rfl

theorem Db.mem_terminalReports {status : OperationStatus} :
    status ∈ db.terminalReports commandId ↔
      ∃ r ∈ db.outbox, r.causationCommandId = commandId ∧ r.fact.finalStatus = some status := by
  rw [Db.terminalReports, Db.reports, Db.facts, List.filterMap_map, List.filter_filterMap,
    List.mem_filterMap]
  constructor
  · rintro ⟨r, hr, hstatus⟩
    obtain ⟨hr, hcommand⟩ := List.mem_filter.mp hr
    exact ⟨r, hr, beq_iff_eq.mp hcommand, hstatus⟩
  · rintro ⟨r, hr, hcommand, hstatus⟩
    exact ⟨r, List.mem_filter.mpr ⟨hr, beq_iff_eq.mpr hcommand⟩, hstatus⟩

theorem Db.mem_documents (hr : r ∈ db.outbox) (hcommand : r.causationCommandId = commandId)
    (hsubject : r.fact.subject = documentSubject) : r.payload ∈ db.documents commandId := by
  rw [Db.documents, Db.facts]
  refine List.mem_map.mpr ⟨r.fact, List.mem_filter.mpr ⟨List.mem_map.mpr ⟨r, ?_, rfl⟩, ?_⟩, rfl⟩
  · exact List.mem_filter.mpr ⟨hr, beq_iff_eq.mpr hcommand⟩
  · exact beq_iff_eq.mpr hsubject

end Facts

section Reported

variable {contracts : Contracts} {s : Ledger} {run : RunRow}

/-- A success is reported in full, with its document, or in part, without. -/
theorem Ledger.Reported.succeeded (h : s.Reported contracts run)
    (hstatus : run.status = .succeeded) :
    (s.db.terminalReports run.commandId = [.succeeded] ∧
      ∃ event, s.db.documents run.commandId = [event]) ∨
    (s.db.terminalReports run.commandId = [.partiallySucceeded] ∧
      s.db.documents run.commandId = []) := by
  rw [Ledger.Reported, hstatus] at h
  obtain ⟨_, -, _, _, -, -, -, hevent⟩ := h
  dsimp only at hevent
  split at hevent
  · exact Or.inl ⟨hevent.1, _, hevent.2⟩
  · exact Or.inr hevent

/-- A run with a terminal report is over, and the report tells how. -/
theorem Ledger.Reported.final (h : s.Reported contracts run) {status : OperationStatus}
    (hmem : status ∈ s.db.terminalReports run.commandId) :
    run.status.terminal = true ∧ (status = .failed ↔ run.status = .failed) ∧
      s.db.terminalReports run.commandId = [status] := by
  have hsucceeded := h.succeeded
  rw [Ledger.Reported] at h
  cases hstatus : run.status with
  | queued =>
      rw [hstatus] at h
      rw [h.1] at hmem
      cases hmem
  | running =>
      rw [hstatus] at h
      rw [h.1] at hmem
      cases hmem
  | failed =>
      rw [hstatus] at h
      rw [h.1] at hmem ⊢
      obtain rfl := List.mem_singleton.mp hmem
      exact ⟨rfl, Iff.intro (fun _ => rfl) (fun _ => rfl), rfl⟩
  | succeeded =>
      have hnot : ∀ {status : OperationStatus}, status ≠ .failed →
          (status = .failed ↔ RunStatus.succeeded = RunStatus.failed) := fun hne =>
        ⟨fun heq => absurd heq hne, by rintro ⟨⟩⟩
      rcases hsucceeded hstatus with ⟨hreports, -⟩ | ⟨hreports, -⟩
      · rw [hreports] at hmem ⊢
        obtain rfl := List.mem_singleton.mp hmem
        exact ⟨rfl, hnot (by decide), rfl⟩
      · rw [hreports] at hmem ⊢
        obtain rfl := List.mem_singleton.mp hmem
        exact ⟨rfl, hnot (by decide), rfl⟩

/-- A run that is over has its terminal report. -/
theorem Ledger.Reported.exists_final (h : s.Reported contracts run)
    (hterminal : run.status.terminal = true) :
    ∃ status, status ∈ s.db.terminalReports run.commandId := by
  have hsucceeded := h.succeeded
  rw [Ledger.Reported] at h
  cases hstatus : run.status with
  | queued =>
      rw [hstatus] at hterminal
      cases hterminal
  | running =>
      rw [hstatus] at hterminal
      cases hterminal
  | failed =>
      rw [hstatus] at h
      exact ⟨_, h.1 ▸ List.mem_singleton_self _⟩
  | succeeded =>
      rcases hsucceeded hstatus with ⟨hreports, -⟩ | ⟨hreports, -⟩
      · exact ⟨_, hreports ▸ List.mem_singleton_self _⟩
      · exact ⟨_, hreports ▸ List.mem_singleton_self _⟩

/-- A run with a document succeeded in full. -/
theorem Ledger.Reported.document (h : s.Reported contracts run) {document : EventEnvelope}
    (hmem : document ∈ s.db.documents run.commandId) :
    run.status = .succeeded ∧ s.db.terminalReports run.commandId = [.succeeded] ∧
      s.db.documents run.commandId = [document] := by
  have hsucceeded := h.succeeded
  rw [Ledger.Reported] at h
  cases hstatus : run.status with
  | queued =>
      rw [hstatus] at h
      rw [h.2] at hmem
      cases hmem
  | running =>
      rw [hstatus] at h
      rw [h.2] at hmem
      cases hmem
  | failed =>
      rw [hstatus] at h
      rw [h.2] at hmem
      cases hmem
  | succeeded =>
      rcases hsucceeded hstatus with ⟨hreports, event, hdocuments⟩ | ⟨-, hdocuments⟩
      · rw [hdocuments] at hmem ⊢
        obtain rfl := List.mem_singleton.mp hmem
        exact ⟨rfl, hreports, rfl⟩
      · rw [hdocuments] at hmem
        cases hmem

end Reported

section Statement

variable {lib : UrlLib} {commands : CommandLib} {contracts : Contracts} {columns : BlobColumns}
  {serialize : EventEnvelope → Option (List UInt8)} {s : Service lib commands}

/-- What is sent for one row is one message. -/
theorem SentAs.unique {m m' : Streams.Stored Uuid BusMessage} {row : ClaimedRow EventEnvelope}
    (h : SentAs serialize m row) (h' : SentAs serialize m' row) :
    m.id = m'.id ∧ m.content = m'.content := by
  refine ⟨h.1.trans h'.1.symm, ?_⟩
  have hbody : m.content.body = m'.content.body := Option.some.inj (h.2.2.symm.trans h'.2.2)
  cases hm : m.content with
  | mk subject body =>
      cases hm' : m'.content with
      | mk subject' body' =>
          have hsubject := h.2.1.trans h'.2.1.symm
          rw [hm, hm'] at hsubject hbody
          rw [BusMessage.mk.injEq]
          exact ⟨hsubject, hbody⟩

/-- **What the stream says about a run is what the ledger says**, in every reachable state of the
service. However relays, brokers and workers fail:

* every message tells a fact of a run's command;
* a terminal report says how its run ended, and all copies of it are one message;
* a document belongs to a run that succeeded and is reported so, and all copies are one message;
* a run that is over is reported on the stream when its rows are marked as published;
* two copies of a message are two minutes apart. -/
theorem bus_agrees_with_ledger
    (h : (serviceSystem lib commands contracts columns serialize).Reachable s) :
    (∀ m ∈ s.stream, ∃ run ∈ s.ledger.data.db.runs, ∃ f, s.Tells serialize m run.commandId f) ∧
    (∀ run ∈ s.ledger.data.db.runs, ∀ m f status, s.Tells serialize m run.commandId f →
      f.finalStatus = some status →
      run.status.terminal = true ∧ (status = .failed ↔ run.status = .failed) ∧
        ∀ m' f', s.Tells serialize m' run.commandId f' → f'.finalStatus.isSome = true →
          m'.id = m.id ∧ m'.content = m.content) ∧
    (∀ run ∈ s.ledger.data.db.runs, ∀ m f, s.Tells serialize m run.commandId f →
      f.subject = documentSubject →
      run.status = .succeeded ∧
        (∀ m' f' status, s.Tells serialize m' run.commandId f' → f'.finalStatus = some status →
          status = .succeeded) ∧
        ∀ m' f', s.Tells serialize m' run.commandId f' → f'.subject = documentSubject →
          m'.id = m.id ∧ m'.content = m.content) ∧
    (∀ run ∈ s.ledger.data.db.runs, run.status.terminal = true →
      (∀ r ∈ s.outbox, r.causationCommandId = run.commandId → r.publishedAt.isSome = true) →
      ∃ m ∈ s.stream, ∃ f, s.Tells serialize m run.commandId f ∧ f.finalStatus.isSome = true) ∧
    s.stream.Pairwise fun m m' => m.id = m'.id → m.storedAt + seconds 120 ≤ m'.storedAt := by
  have hbus := busInv_of_reachable h
  have hledger := ledgerInv_of_reachable (reachable_ledger h)
  have hreported : ∀ run ∈ s.ledger.data.db.runs, s.ledger.data.Reported contracts run :=
    fun run hrun => (hledger.run run hrun).reported
  refine ⟨?_, ?_, ?_, ?_, hbus.spaced.apart⟩
  · intro m hm
    obtain ⟨r, hr, hcarries⟩ := hbus.stored m hm
    obtain ⟨run, hrun, hcommand⟩ := List.mem_map.mp (hledger.outbox_command r hr)
    exact ⟨run, hrun, r.fact, r, hr, hcarries, hcommand.symm, rfl⟩
  · rintro run hrun m f status ⟨r, hr, hcarries, hcommand, rfl⟩ hstatus
    obtain ⟨hterminal, hfailed, hone⟩ := (hreported run hrun).final
      (Db.mem_terminalReports.mpr ⟨r, hr, hcommand, hstatus⟩)
    refine ⟨hterminal, hfailed, ?_⟩
    rintro m' f' ⟨r', hr', hcarries', hcommand', rfl⟩ hfinal
    have hcount := Db.length_terminalReports s.ledger.data.db run.commandId
    rw [hone] at hcount
    have hsame := Rows.eq_of_countP_le_one (Nat.le_of_eq hcount.symm) hr' hr
      (by rw [hfinal, hcommand', beq_self_eq_true, Bool.and_self])
      (by rw [hstatus, hcommand, beq_self_eq_true, Option.isSome_some, Bool.and_self])
    exact (hsame ▸ hcarries').unique hcarries
  · rintro run hrun m f ⟨r, hr, hcarries, hcommand, rfl⟩ hsubject
    obtain ⟨hsucceeded, hone, hdocument⟩ := (hreported run hrun).document
      (Db.mem_documents hr hcommand hsubject)
    refine ⟨hsucceeded, ?_, ?_⟩
    · rintro m' f' status ⟨r', hr', -, hcommand', rfl⟩ hstatus
      have hmem := Db.mem_terminalReports.mpr ⟨r', hr', hcommand', hstatus⟩
      rw [hone] at hmem
      exact List.mem_singleton.mp hmem
    · rintro m' f' ⟨r', hr', hcarries', hcommand', rfl⟩ hsubject'
      have hcount := Db.length_documents s.ledger.data.db run.commandId
      rw [hdocument] at hcount
      have hsame := Rows.eq_of_countP_le_one (Nat.le_of_eq hcount.symm) hr' hr
        (by rw [hsubject', hcommand', beq_self_eq_true, beq_self_eq_true, Bool.and_self])
        (by rw [hsubject, hcommand, beq_self_eq_true, beq_self_eq_true, Bool.and_self])
      exact (hsame ▸ hcarries').unique hcarries
  · intro run hrun hterminal hpublished
    obtain ⟨status, hmem⟩ := (hreported run hrun).exists_final hterminal
    obtain ⟨r, hr, hcommand, hstatus⟩ := Db.mem_terminalReports.mp hmem
    obtain ⟨m, hm, hcarries⟩ := hbus.published r hr (hpublished r hr hcommand)
    exact ⟨m, hm, r.fact, ⟨r, hr, hcarries, hcommand, rfl⟩, by rw [hstatus]; rfl⟩

end Statement

/-! ### A completed run on the bus -/

/-- A run of the ledger without relays is a run of the service. -/
theorem service_of_ledger {lib : UrlLib} {commands : CommandLib} {contracts : Contracts}
    {columns : BlobColumns} (serialize : EventEnvelope → Option (List UInt8))
    {x : LedgerState lib commands}
    (h : ((ledgerSystem lib commands contracts columns).restrict
      fun _ a => relayStatement a = false).Reachable x) :
    (serviceSystem lib commands contracts columns serialize).Reachable
      ⟨0, x, fun _ => .idle, []⟩ := by
  refine h.invariant (I := fun x => (serviceSystem lib commands contracts columns
    serialize).Reachable ⟨0, x, fun _ => .idle, []⟩) ?_ ?_
  · rintro x ⟨hdata, hheld⟩
    exact .init ⟨hdata, hheld, fun _ => rfl, rfl⟩
  · intro x a y _ hx hst
    exact hx.step (.ledger hst.2 hst.1)

theorem reachable_handOver {lib : UrlLib} {commands : CommandLib} {contracts : Contracts}
    {columns : BlobColumns} {serialize : EventEnvelope → Option (List UInt8)}
    {s : Service lib commands}
    (h : (serviceSystem lib commands contracts columns serialize).Reachable s)
    (relay maxPayload : ℕ) (arrival : Arrival) {row : ClaimedRow EventEnvelope}
    {rest : List (ClaimedRow EventEnvelope)} {report : OutboxReport}
    (hworking : s.relays relay = .working (row :: rest) report) :
    (serviceSystem lib commands contracts columns serialize).Reachable
      (s.handOver serialize relay maxPayload arrival row rest report) :=
  h.step (.publish hworking)

/-- The ledger once the run is completed. -/
def exampleSucceeded : Ledger :=
  exampleRunning.finish exampleContracts 0 exampleCompletion (exampleRun.claim 0 "worker" 60)

/-- The service after the completion. -/
def exampleService : Service exampleLib exampleCommands :=
  ⟨0, .free exampleSucceeded, fun _ => .idle, []⟩

theorem exampleService_reachable : (serviceSystem exampleLib exampleCommands exampleContracts
    exampleColumns fun _ => some []).Reachable exampleService := by
  have hrunning := exampleRunning_reachable (fun _ a => relayStatement a = false) (fun _ => rfl)
    (fun _ _ => rfl) fun _ => rfl
  have hfound : (LedgerTx.terminal exampleCompletion 0).enter exampleLib exampleCommands
      exampleRunning = some (.running (exampleRun.claim 0 "worker" 60)) :=
    LedgerTx.enter_terminal_eq.mpr ⟨exampleCompletion_wellFormed.1, _, rfl, rfl⟩
  exact service_of_ledger _ (Locking.Protocol.reachable_transaction
    (x := LedgerTx.terminal exampleCompletion 0) hrunning hfound rfl fun _ _ => rfl)

/-- A relay publishes the rows of the completed run; the acknowledgement of the document is lost. -/
theorem exampleService_published : ∃ s : Service exampleLib exampleCommands,
    (serviceSystem exampleLib exampleCommands exampleContracts exampleColumns
      fun _ => some []).Reachable s ∧
    s.ledger.data.db.runs = exampleSucceeded.db.runs ∧ s.stream.map (fun m => m.id) = [2, 4, 6] ∧
    s.outbox.map (fun r => r.publishedAt) = [some 0, none, some 0] ∧
    ∃ m ∈ s.stream, ∃ f, s.Tells (fun _ => some []) m 1 f ∧ f.finalStatus = some .succeeded := by
  have hclaim := exampleService_reachable.step
    (.relay (a := .claim 0 "relay-0" 10 [] asClaimed) rfl rfl)
  have hqueued := (reachable_handOver hclaim 0 1048576 .acknowledged rfl).step
    (.relay (a := .settle 0) rfl rfl)
  have hdocument := (reachable_handOver hqueued 0 1048576 .unacknowledged rfl).step
    (.relay (a := .settle 0) rfl rfl)
  have hreport := (reachable_handOver hdocument 0 1048576 .acknowledged rfl).step
    (.relay (a := .settle 0) rfl rfl)
  exact ⟨_, hreport, rfl, rfl, rfl, _, .tail _ (.tail _ (.head _)), _,
    ⟨_, .tail _ (.tail _ (.head _)), ⟨rfl, rfl, rfl⟩, rfl, rfl⟩, rfl⟩

/-- The report of the completed run on the bus agrees with the ledger. -/
theorem bus_agrees_with_ledger_succeeded : ∃ s : Service exampleLib exampleCommands,
    (serviceSystem exampleLib exampleCommands exampleContracts exampleColumns
      fun _ => some []).Reachable s ∧
    ∃ run ∈ s.ledger.data.db.runs, ∃ m ∈ s.stream, ∃ f,
      s.Tells (fun _ => some []) m run.commandId f ∧ f.finalStatus = some .succeeded ∧
        run.status.terminal = true := by
  obtain ⟨s, hs, hruns, -, -, m, hm, f, htells, hstatus⟩ := exampleService_published
  have hrun : exampleCompletion.change 0 (exampleRun.claim 0 "worker" 60) ∈
      s.ledger.data.db.runs := by
    rw [hruns]
    exact List.mem_singleton_self _
  have hagrees := (bus_agrees_with_ledger hs).2.1 _ hrun m f .succeeded htells hstatus
  exact ⟨s, hs, _, hrun, m, hm, f, htells, hstatus, hagrees.1⟩

end Extractor
