import Extractor.LedgerSteps
import Extractor.Lib.Locking
import Extractor.OutboxLifecycle

/-!
# The run ledger as a concurrent system

Any number of workers, consumers and relays over one database. A capture command or a terminal
call that finds something to do is a transaction of several statements: its first statement
takes a lock (the new inbox key, the row of the run), the rest follows under that lock, and
nothing of it is visible before the commit. What matches no row, leases a run, or moves an
outbox row through its delivery is a single statement.

Transactions read one another's rows at `read committed`, so a terminal call that waited for a
row evaluates its predicate again once the lock is free: it then finds a running run or none.
`complete` asks for the status in a second statement, which may run much later.

A worker may be stale: no terminal call looks at the lease. The system therefore lets any call
arrive at any time, whoever makes it.

## Main results

* `ledger_stable`: what a transaction found under its lock is not changed by others.
* `LedgerChange`, `ledger_change`: everything one step can do to the ledger.
-/

namespace Extractor

/-! ### State -/

/-- A delivery of a capture command that decodes. -/
structure Delivery (lib : UrlLib) (commands : CommandLib) where
  subject : String
  payload : List UInt8
  command : CaptureCommand
  decoded : decodeCapture lib commands subject payload = .ok command

/-- A terminal call whose first update matched no row and which has not returned yet. -/
structure Missed where
  call : TerminalCall
  startedAt : Timestamp
  executed : Bool
  deriving DecidableEq

/-- A terminal call that returned: when its transaction started, the next identifier when it
ended, whether its run had been leased to a worker before, and what it returned. -/
structure Returned where
  call : TerminalCall
  startedAt : Timestamp
  nextUuid : Uuid
  executed : Bool
  result : Except ConsumeError Completion

/-- The call ended its run. -/
def Returned.applied (e : Returned) : Bool :=
  match e.result with
  | .ok .applied => true
  | _ => false

/-- The database, the calls between their two statements, and the calls that returned. -/
structure Ledger where
  db : Db
  pending : List Missed
  returned : List Returned

/-- The empty database. -/
def Ledger.initial : Ledger := ⟨Db.empty, [], []⟩

/-- The calls that ended a run. -/
def Ledger.appliedTo (s : Ledger) (runId : Uuid) : List Returned :=
  s.returned.filter fun e => e.applied && e.call.runId == runId

/-- The run has been leased to a worker. -/
def Db.executed (db : Db) (runId : Uuid) : Bool :=
  db.runs.any fun r => r.runId == runId && r.status != .queued

/-! ### Transactions and statements -/

/-- What a transaction locks. -/
inductive LedgerKey
  | command (commandId : Uuid)
  | run (runId : Uuid)
  deriving DecidableEq

/-- The transactions of several statements, with the time they started at. -/
inductive LedgerTx (lib : UrlLib) (commands : CommandLib)
  | intake (delivery : Delivery lib commands) (startedAt : Timestamp)
  | terminal (call : TerminalCall) (startedAt : Timestamp)

/-- What the first statement of a transaction found. -/
inductive Found
  | newCommand
  | running (run : RunRow)

/-- The single statements, and what returns without a transaction. -/
inductive LedgerAct (lib : UrlLib) (commands : CommandLib)
  /-- A command that is known already. -/
  | redeliver (delivery : Delivery lib commands) (startedAt : Timestamp)
  /-- `claim_queued_run`. -/
  | claim (now : Timestamp) (claimedBy : String) (leaseSeconds : ℤ) (maxEventBytes : ℕ)
      (skipped : List Uuid)
  /-- A terminal call refuses its arguments. -/
  | refuse (call : TerminalCall) (startedAt : Timestamp)
  /-- The first update of a terminal call matches no row. -/
  | miss (call : TerminalCall) (startedAt : Timestamp)
  /-- A terminal call that matched no row returns. -/
  | answer (missed : Missed)
  /-- `record_fetch`. -/
  | recordFetch (runId : Uuid) (fetch : CompletedFetch) (startedAt : Timestamp)
  /-- A relay leases outbox rows. -/
  | relayClaim (now : Timestamp) (claimedBy : String) (limit : ℤ) (locked : List Uuid)
  /-- A relay records the outcome of an outbox row. -/
  | relayRecord (now : Timestamp) (outboxId : Uuid) (verdict : Verdict)

/-- The states of the ledger system. -/
abbrev LedgerState (lib : UrlLib) (commands : CommandLib) :=
  Locking.State Ledger LedgerKey (LedgerTx lib commands) Found

/-- The steps of the ledger system. -/
abbrev LedgerLabel (lib : UrlLib) (commands : CommandLib) :=
  Locking.Label LedgerKey (LedgerTx lib commands) (LedgerAct lib commands)

section System

variable (lib : UrlLib) (commands : CommandLib) (contracts : Contracts) (columns : BlobColumns)

/-- The rest of a terminal call that found `run`: it is committed, or rolled back with an
error. -/
def Ledger.finish (s : Ledger) (now : Timestamp) (call : TerminalCall) (run : RunRow) : Ledger :=
  match call.commit contracts now run s.db with
  | .ok ((), db) =>
      { s with
        db := db
        returned := s.returned ++ [⟨call, now, s.db.nextUuid, true, .ok .applied⟩] }
  | .error e =>
      { s with returned := s.returned ++ [⟨call, now, s.db.nextUuid, true, .error e⟩] }

/-- A call returned without changing the database. -/
def Ledger.answered (s : Ledger) (m : Missed) (result : Except ConsumeError Completion) :
    Ledger :=
  { s with
    pending := s.pending.erase m
    returned := s.returned ++ [⟨m.call, m.startedAt, s.db.nextUuid, m.executed, result⟩] }

/-- The single statements. -/
inductive LedgerStatement : LedgerAct lib commands → (LedgerKey → Prop) → Ledger → Ledger → Prop
  | redeliver {delivery : Delivery lib commands} {now : Timestamp} {locked : LedgerKey → Prop}
      {s : Ledger}
      (hknown : ∃ r ∈ s.db.inbox, r.commandId = delivery.command.commandId) :
      LedgerStatement (.redeliver delivery now) locked s
        { s with
          db := (consumeCapture lib commands contracts now delivery.subject delivery.payload
            s.db).2 }
  | claim {now : Timestamp} {claimedBy : String} {leaseSeconds : ℤ} {maxEventBytes : ℕ}
      {skipped : List Uuid} {locked : LedgerKey → Prop} {s : Ledger}
      (hskipped : ∀ runId, locked (.run runId) → runId ∈ skipped) :
      LedgerStatement (.claim now claimedBy leaseSeconds maxEventBytes skipped) locked s
        { s with
          db := (claimQueuedRun columns now claimedBy leaseSeconds maxEventBytes skipped s.db).2 }
  | refuse {call : TerminalCall} {now : Timestamp} {e : ConsumeError}
      {locked : LedgerKey → Prop} {s : Ledger} (hprecheck : call.precheck = .error e) :
      LedgerStatement (.refuse call now) locked s
        (s.answered ⟨call, now, s.db.executed call.runId⟩ (.error e))
  | miss {call : TerminalCall} {now : Timestamp} {locked : LedgerKey → Prop} {s : Ledger}
      (hprecheck : call.precheck = .ok ()) (hmiss : enterRun call.runId s.db = none) :
      LedgerStatement (.miss call now) locked s
        { s with pending := s.pending ++ [⟨call, now, s.db.executed call.runId⟩] }
  | answer {m : Missed} {locked : LedgerKey → Prop} {s : Ledger} (hpending : m ∈ s.pending) :
      LedgerStatement (.answer m) locked s (s.answered m (m.call.missed s.db))
  | recordFetch {runId : Uuid} {fetch : CompletedFetch} {now : Timestamp}
      {locked : LedgerKey → Prop} {s : Ledger} :
      LedgerStatement (.recordFetch runId fetch now) locked s
        { s with db := (recordFetch now runId fetch s.db).2 }
  | relayClaim {now : Timestamp} {claimedBy : String} {limit : ℤ} {skipped : List Uuid}
      {locked : LedgerKey → Prop} {s : Ledger} {rows : List (OutboxRow EventEnvelope)}
      {claimed : List (ClaimedRow EventEnvelope)}
      (hclaim : claimDue now claimedBy limit skipped s.db.outbox = some (rows, claimed)) :
      LedgerStatement (.relayClaim now claimedBy limit skipped) locked s
        { s with db := { s.db with outbox := rows } }
  | relayRecord {now : Timestamp} {outboxId : Uuid} {verdict : Verdict}
      {locked : LedgerKey → Prop} {s : Ledger} {rows : List (OutboxRow EventEnvelope)}
      (hrecord : recordVerdict now outboxId s.db.outbox verdict = some rows) :
      LedgerStatement (.relayRecord now outboxId verdict) locked s
        { s with db := { s.db with outbox := rows } }

/-- What the first statement of a transaction finds. -/
def LedgerTx.enter : LedgerTx lib commands → Ledger → Option Found
  | .intake delivery _, s =>
      if s.db.inbox.any fun r => r.commandId == delivery.command.commandId then none
      else some .newCommand
  | .terminal call _, s =>
      match call.precheck with
      | .ok () => (enterRun call.runId s.db).map .running
      | .error _ => none

/-- The rest of a transaction. -/
def LedgerTx.effect : LedgerTx lib commands → Found → Ledger → Ledger
  | .intake delivery now, _, s =>
      { s with
        db := (consumeCapture lib commands contracts now delivery.subject delivery.payload
          s.db).2 }
  | .terminal call now, .running run, s => s.finish contracts now call run
  | .terminal _ _, .newCommand, s => s

/-- The transactions and statements over the ledger. -/
def ledgerProtocol :
    Locking.Protocol Ledger LedgerKey (LedgerTx lib commands) Found (LedgerAct lib commands) where
  key
    | .intake delivery _ => .command delivery.command.commandId
    | .terminal call _ => .run call.runId
  enter := LedgerTx.enter lib commands
  effect := LedgerTx.effect lib commands contracts
  act := LedgerStatement lib commands contracts columns

/-- **The ledger system**: every interleaving, with transactions that may be cut off at any
point. -/
def ledgerSystem :
    Labelled.System (LedgerState lib commands) (LedgerLabel lib commands) :=
  (ledgerProtocol lib commands contracts columns).interleaved (· = Ledger.initial)

end System

/-! ### What a step does -/

/-- The columns of an outbox row that delivery never changes. -/
def OutboxRow.core {J : Type} (r : OutboxRow J) : Uuid × ClaimedRow J :=
  (r.causationCommandId, r.claimed)

/-- Nothing the ledger is about has changed. -/
structure Quiet (db db' : Db) : Prop where
  runs : db'.runs = db.runs
  inbox : db'.inbox = db.inbox
  candidates : db'.candidates = db.candidates
  nextUuid : db'.nextUuid = db.nextUuid
  outbox : db'.outbox.map OutboxRow.core = db.outbox.map OutboxRow.core

theorem Quiet.refl (db : Db) : Quiet db db := ⟨rfl, rfl, rfl, rfl, rfl⟩

/-- **Everything one step can do to the ledger.** -/
inductive LedgerChange (lib : UrlLib) (commands : CommandLib) (contracts : Contracts)
    (s t : Ledger) : Prop
  /-- A new command is applied. -/
  | queued {subject : String} {payload : List UInt8} {command : CaptureCommand} {now : Timestamp}
      (hdecoded : decodeCapture lib commands subject payload = .ok command)
      (hnew : ∀ r ∈ s.db.inbox, r.commandId ≠ command.commandId)
      (hqueued : Queued command now s.db t.db) (hreturned : t.returned = s.returned)
  /-- A run is leased. -/
  | leased {now : Timestamp} {claimedBy : String} {leaseSeconds : ℤ} {run : RunRow}
      (hrun : run ∈ s.db.runs) (hclaimable : run.claimable now = true)
      (hchecked : (run.claim now claimedBy leaseSeconds).checked = true)
      (hdb : t.db = { s.db with
        runs := Rows.updateWhere (fun r => r.runId == run.runId)
          (RunRow.claim now claimedBy leaseSeconds) s.db.runs })
      (hreturned : t.returned = s.returned)
  /-- A run ends. -/
  | ended {call : TerminalCall} {now : Timestamp} {run : RunRow}
      (henter : enterRun call.runId s.db = some run)
      (hended : call.Ended contracts now run s.db t.db)
      (hreturned : t.returned = s.returned ++ [⟨call, now, s.db.nextUuid, true, .ok .applied⟩])
  /-- Neither a run nor a fact changes. -/
  | quiet (hquiet : Quiet s.db t.db)
      (hreturned : t.returned = s.returned ∨
        ∃ e, e.applied = false ∧ t.returned = s.returned ++ [e])

section Changes

variable {lib : UrlLib} {commands : CommandLib} {contracts : Contracts} {columns : BlobColumns}
  {s t : Ledger} {db : Db} {now : Timestamp}

/-- A transaction against the pool is committed or leaves the database alone. -/
theorem transact_snd {α : Type} (tx : Tx α) (db : Db) :
    (∃ a, tx db = .ok (a, (transact tx db).2)) ∨ (transact tx db).2 = db := by
  unfold transact
  cases h : tx db with
  | error e => exact Or.inr rfl
  | ok r => exact Or.inl ⟨r.1, rfl⟩

/-- A delivery that decodes is the transaction of its command. -/
theorem consumeCapture_delivery (delivery : Delivery lib commands) :
    consumeCapture lib commands contracts now delivery.subject delivery.payload db =
      transact (consumeCommand lib contracts now delivery.command) db := by
  rw [consumeCapture, delivery.decoded]

/-- A delivery applies a new command or changes nothing. -/
theorem consumeCapture_cases (contracts : Contracts) (now : Timestamp)
    (delivery : Delivery lib commands) (db : Db) :
    (consumeCapture lib commands contracts now delivery.subject delivery.payload db).2 = db ∨
      (∀ r ∈ db.inbox, r.commandId ≠ delivery.command.commandId) ∧
        Queued delivery.command now db
          (consumeCapture lib commands contracts now delivery.subject delivery.payload db).2 := by
  rw [consumeCapture_delivery]
  rcases transact_snd (consumeCommand lib contracts now delivery.command) db with
    ⟨reception, hok⟩ | hsame
  · rcases consumeCommand_eq_ok hok with ⟨-, -, hsame⟩ | ⟨-, hnew, hqueued⟩
    · exact Or.inl hsame
    · exact Or.inr ⟨hnew, hqueued⟩
  · exact Or.inl hsame

theorem consumeCapture_change (delivery : Delivery lib commands) :
    LedgerChange lib commands contracts s
      { s with
        db := (consumeCapture lib commands contracts now delivery.subject delivery.payload
          s.db).2 } := by
  rcases consumeCapture_cases contracts now delivery s.db with hsame | ⟨hnew, hqueued⟩
  · refine .quiet ?_ (Or.inl rfl)
    rw [hsame]
    exact Quiet.refl _
  · exact .queued delivery.decoded hnew hqueued rfl

/-- Leasing changes one run or nothing. -/
theorem claimQueuedRun_snd {claimedBy : String} {leaseSeconds : ℤ} {maxEventBytes : ℕ}
    {skipped : List Uuid} :
    (claimQueuedRun columns now claimedBy leaseSeconds maxEventBytes skipped db).2 =
      (transact (claimNext now claimedBy leaseSeconds skipped) db).2 := by
  unfold claimQueuedRun
  split
  · next h => rw [h]
  · next h => rw [h]
  · next h => rw [h]

theorem claimQueuedRun_cases (columns : BlobColumns) (now : Timestamp) (claimedBy : String)
    (leaseSeconds : ℤ) (maxEventBytes : ℕ) (skipped : List Uuid) (db : Db) :
    (claimQueuedRun columns now claimedBy leaseSeconds maxEventBytes skipped db).2 = db ∨
      ∃ run ∈ db.runs, run.claimable now = true ∧ run.runId ∉ skipped ∧
        (run.claim now claimedBy leaseSeconds).checked = true ∧
        (claimQueuedRun columns now claimedBy leaseSeconds maxEventBytes skipped db).2 =
          { db with
            runs := Rows.updateWhere (fun r => r.runId == run.runId)
              (RunRow.claim now claimedBy leaseSeconds) db.runs } := by
  rw [claimQueuedRun_snd]
  rcases transact_snd (claimNext now claimedBy leaseSeconds skipped) db with ⟨leased, hok⟩ | hsame
  · exact claimNext_eq_ok hok
  · exact Or.inl hsame

/-- An update of delivery columns changes nothing the ledger is about. -/
theorem quiet_outbox {p : OutboxRow EventEnvelope → Bool}
    {f : OutboxRow EventEnvelope → OutboxRow EventEnvelope}
    (hcore : ∀ r, (f r).core = r.core) :
    Quiet db { db with outbox := Rows.updateWhere p f db.outbox } :=
  ⟨rfl, rfl, rfl, rfl, Rows.map_updateWhere _ fun r _ _ => hcore r⟩

theorem OutboxRow.settle_core {r : OutboxRow EventEnvelope} {verdict : Verdict} :
    (r.settle now verdict).core = r.core := by
  refine Prod.ext ?_ OutboxRow.settle_claimed
  unfold OutboxRow.settle
  split
  · rfl
  · rfl
  · split <;> rfl

/-- `record_fetch` adds evidence only. -/
theorem quiet_recordFetch {runId : Uuid} {fetch : CompletedFetch} :
    Quiet db (recordFetch now runId fetch db).2 := by
  unfold recordFetch
  split
  · rcases transact_snd (recordFetchTx now runId fetch) db with ⟨_, hok⟩ | hsame
    · obtain ⟨_, _, hfetch, hartifact⟩ := Tx.bind_eq_ok_iff.mp hok
      obtain ⟨-, rfl⟩ := insertFetch_eq_ok_iff.mp hfetch
      rw [(insertArtifact_eq_ok_iff.mp hartifact).2]
      exact ⟨rfl, rfl, rfl, rfl, rfl⟩
    · rw [hsame]
      exact Quiet.refl _
  · exact Quiet.refl _

/-- A call that matched no row returned something other than `Applied`. -/
theorem TerminalCall.missed_ne_applied (call : TerminalCall) (db : Db) :
    call.missed db ≠ .ok .applied := by
  cases call with
  | complete run success =>
      rw [TerminalCall.missed]
      split <;> simp
  | failRun runId failureClass retryable steps => simp [TerminalCall.missed]
  | reject runId rejection => simp [TerminalCall.missed]

theorem Returned.applied_iff {e : Returned} : e.applied = true ↔ e.result = .ok .applied := by
  unfold Returned.applied
  split
  · next hresult => exact ⟨fun _ => hresult, fun _ => rfl⟩
  · next hother => exact ⟨fun h => absurd h Bool.false_ne_true, fun h => (hother h).elim⟩

theorem Returned.applied_eq_false {e : Returned} (h : e.result ≠ .ok .applied) :
    e.applied = false :=
  Bool.eq_false_iff.mpr fun happlied => h (Returned.applied_iff.mp happlied)

/-- The rest of a terminal call that succeeds is committed. -/
theorem Ledger.finish_eq_of_ok {call : TerminalCall} {run : RunRow}
    (h : call.commit contracts now run s.db = .ok ((), db)) :
    s.finish contracts now call run =
      { s with
        db := db
        returned := s.returned ++ [⟨call, now, s.db.nextUuid, true, .ok .applied⟩] } := by
  unfold Ledger.finish
  rw [h]

/-- The rest of a terminal call ends the run it found, or returns an error. -/
theorem Ledger.finish_change {call : TerminalCall} {run : RunRow}
    (henter : enterRun call.runId s.db = some run) :
    LedgerChange lib commands contracts s (s.finish contracts now call run) := by
  unfold Ledger.finish
  cases hcommit : call.commit contracts now run s.db with
  | error e => exact .quiet (Quiet.refl _) (Or.inr ⟨_, rfl, rfl⟩)
  | ok r => exact .ended henter (TerminalCall.commit_eq_ok hcommit) rfl

/-- A single statement. -/
theorem LedgerStatement.change {a : LedgerAct lib commands} {locked : LedgerKey → Prop}
    (h : LedgerStatement lib commands contracts columns a locked s t) :
    LedgerChange lib commands contracts s t := by
  cases h with
  | redeliver hknown => exact consumeCapture_change _
  | claim hskipped =>
      rename_i now claimedBy leaseSeconds maxEventBytes skipped
      rcases claimQueuedRun_cases columns now claimedBy leaseSeconds maxEventBytes skipped s.db with
        hsame | ⟨run, hrun, hclaimable, -, hchecked, hdb⟩
      · refine .quiet ?_ (Or.inl rfl)
        rw [hsame]
        exact Quiet.refl _
      · exact .leased hrun hclaimable hchecked hdb rfl
  | refuse hprecheck => exact .quiet (Quiet.refl _) (Or.inr ⟨_, rfl, rfl⟩)
  | miss hprecheck hmiss => exact .quiet (Quiet.refl _) (Or.inl rfl)
  | answer hpending =>
      exact .quiet (Quiet.refl _)
        (Or.inr ⟨_, Returned.applied_eq_false (TerminalCall.missed_ne_applied _ _), rfl⟩)
  | recordFetch => exact .quiet quiet_recordFetch (Or.inl rfl)
  | relayClaim hclaim =>
      obtain ⟨ids, -, -, rfl, -⟩ := claimDue_eq_some hclaim
      exact .quiet (quiet_outbox fun r => rfl) (Or.inl rfl)
  | relayRecord hrecord =>
      rw [recordVerdict_eq] at hrecord
      obtain ⟨-, rfl⟩ := updateChecked_eq_some_iff.mp hrecord
      exact .quiet (quiet_outbox fun r => OutboxRow.settle_core) (Or.inl rfl)

/-- A whole transaction. -/
theorem LedgerTx.effect_change {x : LedgerTx lib commands} {c : Found}
    (henter : x.enter lib commands s = some c) :
    LedgerChange lib commands contracts s (x.effect lib commands contracts c s) := by
  cases x with
  | intake delivery now => exact consumeCapture_change delivery
  | terminal call now =>
      rw [LedgerTx.enter] at henter
      split at henter
      · obtain ⟨run, hrun, rfl⟩ := Option.map_eq_some_iff.mp henter
        exact Ledger.finish_change hrun
      · cases henter

/-! ### Locks -/

/-- The changes that happen to a run keep its identifier. -/
theorem TerminalCall.change_runId (call : TerminalCall) (now : Timestamp) (r : RunRow) :
    (call.change now r).runId = r.runId := by
  cases call <;> rfl

/-- A run is found running again after a change of another run. -/
theorem enterRun_updateWhere {runId other : Uuid} {p : RunRow → Bool} {f : RunRow → RunRow}
    (hne : runId ≠ other) (hp : ∀ r, p r = true → r.runId = other)
    (hf : ∀ r, (f r).runId = r.runId) :
    (Rows.updateWhere p f db.runs).find? (RunRow.isRunning runId) = enterRun runId db := by
  refine Rows.find?_updateWhere fun r _ hpr => ?_
  have hid := hp r hpr
  have hr : (r.runId == runId) = false := beq_false_of_ne fun h => hne (h.symm.trans hid)
  exact ⟨by rw [RunRow.isRunning, hr, Bool.false_and],
    by rw [RunRow.isRunning, hf, hr, Bool.false_and]⟩

/-- A run is found running again after a run was queued. -/
theorem enterRun_append {runId : Uuid} {run queued : RunRow} (h : enterRun runId db = some run)
    (hqueued : queued.status = .queued) :
    (db.runs ++ [queued]).find? (RunRow.isRunning runId) = some run := by
  have hnot : RunRow.isRunning runId queued = false := by
    rw [RunRow.isRunning, hqueued]
    exact Bool.and_false _
  rw [enterRun] at h
  rw [List.find?_append, h, Option.some_or]

/-- A transaction finds a new command when no inbox row has its identifier. -/
theorem LedgerTx.enter_intake_eq {delivery : Delivery lib commands} {c : Found} :
    (LedgerTx.intake delivery now).enter lib commands s = some c ↔
      (∀ r ∈ s.db.inbox, r.commandId ≠ delivery.command.commandId) ∧ c = .newCommand := by
  rw [LedgerTx.enter]
  split
  · next hany =>
      obtain ⟨r, hr, hid⟩ := List.any_eq_true.mp hany
      simp only [reduceCtorEq, false_iff]
      rintro ⟨hnew, -⟩
      exact hnew r hr (beq_iff_eq.mp hid)
  · next hany =>
      have hnew : ∀ r ∈ s.db.inbox, r.commandId ≠ delivery.command.commandId := fun r hr hid =>
        hany (List.any_eq_true.mpr ⟨r, hr, beq_iff_eq.mpr hid⟩)
      constructor
      · intro h
        exact ⟨hnew, (Option.some.inj h).symm⟩
      · rintro ⟨-, rfl⟩
        rfl

/-- A transaction finds a running run. -/
theorem LedgerTx.enter_terminal_eq {call : TerminalCall} {c : Found} :
    (LedgerTx.terminal call now : LedgerTx lib commands).enter lib commands s = some c ↔
      call.precheck = .ok () ∧ ∃ run, enterRun call.runId s.db = some run ∧ c = .running run := by
  rw [LedgerTx.enter]
  split
  · next hcheck =>
      rw [hcheck, Option.map_eq_some_iff]
      constructor
      · rintro ⟨run, hrun, rfl⟩
        exact ⟨rfl, run, hrun, rfl⟩
      · rintro ⟨-, run, hrun, rfl⟩
        exact ⟨run, hrun, rfl⟩
  · next hcheck =>
      rw [hcheck]
      simp only [reduceCtorEq, false_and]

/-- What a change leaves of a transaction's finding: a new command stays new unless it is
applied, and a running run stays running unless it ends or is leased again. -/
theorem LedgerTx.enter_of_change {x : LedgerTx lib commands} {c : Found}
    (henter : x.enter lib commands s = some c)
    (hinbox : ∀ delivery now, x = .intake delivery now →
      (∀ r ∈ s.db.inbox, r.commandId ≠ delivery.command.commandId) →
      ∀ r ∈ t.db.inbox, r.commandId ≠ delivery.command.commandId)
    (hruns : ∀ call now run, x = .terminal call now → enterRun call.runId s.db = some run →
      enterRun call.runId t.db = some run) :
    x.enter lib commands t = some c := by
  cases x with
  | intake delivery now =>
      obtain ⟨hnew, rfl⟩ := enter_intake_eq.mp henter
      exact enter_intake_eq.mpr ⟨hinbox delivery now rfl hnew, rfl⟩
  | terminal call now =>
      obtain ⟨hcheck, run, hrun, rfl⟩ := enter_terminal_eq.mp henter
      exact enter_terminal_eq.mpr ⟨hcheck, run, hruns call now run rfl hrun, rfl⟩

/-- A finding survives what leaves the inbox and the runs alone. -/
theorem LedgerTx.enter_of_quiet {x : LedgerTx lib commands} {c : Found}
    (henter : x.enter lib commands s = some c) (hquiet : Quiet s.db t.db) :
    x.enter lib commands t = some c := by
  refine LedgerTx.enter_of_change henter (fun _ _ _ hnew => ?_) (fun _ _ _ _ hrun => ?_)
  · rw [hquiet.inbox]
    exact hnew
  · rw [enterRun, hquiet.runs]
    exact hrun

/-- A finding survives the intake of another command. -/
theorem LedgerTx.enter_of_queued {x : LedgerTx lib commands} {c : Found}
    (henter : x.enter lib commands s = some c) {command : CaptureCommand}
    (hqueued : Queued command now s.db t.db)
    (hother : ∀ delivery now, x = .intake delivery now →
      delivery.command.commandId ≠ command.commandId) :
    x.enter lib commands t = some c := by
  refine LedgerTx.enter_of_change henter (fun delivery at_ hx hnew => ?_)
    (fun _ _ _ _ hrun => ?_)
  · rw [hqueued.inbox]
    intro r hr
    rcases List.mem_append.mp hr with hr | hr
    · exact hnew r hr
    · obtain rfl := List.mem_singleton.mp hr
      exact (hother delivery at_ hx).symm
  · obtain ⟨source, -, hruns⟩ := hqueued.runs
    rw [enterRun, hruns]
    exact enterRun_append hrun rfl

/-- A finding survives the change of another run. -/
theorem LedgerTx.enter_of_update {x : LedgerTx lib commands} {c : Found}
    (henter : x.enter lib commands s = some c) {other : Uuid} {p : RunRow → Bool}
    {f : RunRow → RunRow} (hinbox : t.db.inbox = s.db.inbox)
    (hruns : t.db.runs = Rows.updateWhere p f s.db.runs)
    (hp : ∀ r, p r = true → r.runId = other) (hf : ∀ r, (f r).runId = r.runId)
    (hother : ∀ call now, x = .terminal call now → call.runId ≠ other) :
    x.enter lib commands t = some c := by
  refine LedgerTx.enter_of_change henter (fun _ _ _ hnew => ?_) (fun call at_ run hx hrun => ?_)
  · rw [hinbox]
    exact hnew
  · rw [← hrun, enterRun, hruns]
    exact enterRun_updateWhere (hother call at_ hx) hp hf

/-- A transaction that ends under another key. -/
theorem LedgerTx.enter_of_effect {x x' : LedgerTx lib commands} {c c' : Found}
    (hkey : (ledgerProtocol lib commands contracts columns).key x ≠
      (ledgerProtocol lib commands contracts columns).key x')
    (henter : x.enter lib commands s = some c) (henter' : x'.enter lib commands s = some c') :
    x.enter lib commands (x'.effect lib commands contracts c' s) = some c := by
  cases x' with
  | intake delivery now =>
      rcases consumeCapture_cases contracts now delivery s.db with hsame | ⟨-, hqueued⟩
      · refine LedgerTx.enter_of_quiet henter ?_
        change Quiet s.db (consumeCapture lib commands contracts now _ _ s.db).2
        rw [hsame]
        exact Quiet.refl _
      · refine LedgerTx.enter_of_queued henter hqueued fun delivery' now' hx hid => ?_
        subst hx
        exact hkey (congrArg LedgerKey.command hid)
  | terminal call now =>
      obtain ⟨-, run, hrun, rfl⟩ := LedgerTx.enter_terminal_eq.mp henter'
      change LedgerTx.enter lib commands x (s.finish contracts now call run) = some c
      unfold Ledger.finish
      cases hcommit : call.commit contracts now run s.db with
      | error e => exact LedgerTx.enter_of_quiet henter (Quiet.refl _)
      | ok r =>
          have hended := TerminalCall.commit_eq_ok hcommit
          refine LedgerTx.enter_of_update henter hended.inbox hended.runs
            (fun r hr => beq_iff_eq.mp (Bool.and_eq_true_iff.mp hr).1) (call.change_runId now) ?_
          intro call' now' hx hid
          subst hx
          exact hkey (congrArg LedgerKey.run hid)

/-- A single statement that respects the locks. -/
theorem LedgerTx.enter_of_statement {x : LedgerTx lib commands} {c : Found}
    {a : LedgerAct lib commands} {locked : LedgerKey → Prop}
    (hlocked : locked ((ledgerProtocol lib commands contracts columns).key x))
    (henter : x.enter lib commands s = some c)
    (hact : LedgerStatement lib commands contracts columns a locked s t) :
    x.enter lib commands t = some c := by
  cases hact with
  | redeliver hknown =>
      rename_i delivery now
      rcases consumeCapture_cases contracts now delivery s.db with hsame | ⟨hnew, -⟩
      · refine LedgerTx.enter_of_quiet henter ?_
        change Quiet s.db (consumeCapture lib commands contracts now _ _ s.db).2
        rw [hsame]
        exact Quiet.refl _
      · obtain ⟨r, hr, hid⟩ := hknown
        exact absurd hid (hnew r hr)
  | claim hskipped =>
      rename_i now claimedBy leaseSeconds maxEventBytes skipped
      rcases claimQueuedRun_cases columns now claimedBy leaseSeconds maxEventBytes skipped s.db
        with hsame | ⟨run, -, -, hfree, -, hdb⟩
      · refine LedgerTx.enter_of_quiet henter ?_
        change Quiet s.db (claimQueuedRun columns now _ _ _ _ s.db).2
        rw [hsame]
        exact Quiet.refl _
      · have hinbox := congrArg Db.inbox hdb
        have hruns := congrArg Db.runs hdb
        refine LedgerTx.enter_of_update henter hinbox hruns (fun r hr => beq_iff_eq.mp hr)
          (fun r => rfl) ?_
        intro call' now' hx hid
        subst hx
        exact hfree (hid ▸ hskipped _ hlocked)
  | refuse hprecheck => exact LedgerTx.enter_of_quiet henter (Quiet.refl _)
  | miss hprecheck hmiss => exact LedgerTx.enter_of_quiet henter (Quiet.refl _)
  | answer hpending => exact LedgerTx.enter_of_quiet henter (Quiet.refl _)
  | recordFetch => exact LedgerTx.enter_of_quiet henter quiet_recordFetch
  | relayClaim hclaim =>
      obtain ⟨ids, -, -, rfl, -⟩ := claimDue_eq_some hclaim
      exact LedgerTx.enter_of_quiet henter (quiet_outbox fun r => rfl)
  | relayRecord hrecord =>
      rw [recordVerdict_eq] at hrecord
      obtain ⟨-, rfl⟩ := updateChecked_eq_some_iff.mp hrecord
      exact LedgerTx.enter_of_quiet henter (quiet_outbox fun r => OutboxRow.settle_core)

/-- **What a transaction found under its lock is not changed by others.** -/
theorem ledger_stable : (ledgerProtocol lib commands contracts columns).Stable where
  effect hkey henter henter' := LedgerTx.enter_of_effect hkey henter henter'
  act hlocked henter hact := LedgerTx.enter_of_statement hlocked henter hact

/-- **A step of the ledger system** is one of the four changes, or leaves the ledger alone. -/
theorem ledger_change {x y : LedgerState lib commands} {a : LedgerLabel lib commands}
    (hx : (ledgerSystem lib commands contracts columns).Reachable x)
    (hst : (ledgerSystem lib commands contracts columns).step x a y) :
    y.data = x.data ∨ LedgerChange lib commands contracts x.data y.data := by
  rcases Locking.Protocol.step_data ledger_stable hx hst with hsame | ⟨b, hb⟩
  · exact Or.inl hsame
  · cases hb with
    | transaction henter heffect => exact Or.inr (heffect ▸ LedgerTx.effect_change henter)
    | act hact => exact Or.inr hact.change

end Changes

end Extractor
