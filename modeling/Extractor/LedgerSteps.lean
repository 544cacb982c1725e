import Extractor.Completion

/-!
# What the ledger transactions write

One lemma for each transaction of `Capture` and `Completion`: the rows it adds when it
succeeds, and the conditions under which it does. The proofs about runs use these lemmas and
never unfold a transaction again.

## Main results

* `consumeCommand_eq_ok`: intake adds an applied inbox row, a queued run and a queued report,
  or finds the command known and changes nothing.
* `claimNext_eq_ok`: leasing changes one claimable run that nobody has locked, or nothing.
* `TerminalCall.commit_eq_ok`: a terminal call ends the run it found and adds its evidence rows
  and its facts.
* `TerminalCall.commit_ok`: a well-formed terminal call succeeds.
-/

namespace Extractor

variable {db db' : Db} {now : Timestamp} {runId : Uuid} {u : Unit}

/-! ### Outbox rows -/

/-- The row that `enqueue_json` adds. -/
def CompletionContext.outboxRow (context : CompletionContext) (outboxId : Uuid)
    (subject : String) (envelope : EventEnvelope) (now : Timestamp) : OutboxRow EventEnvelope :=
  OutboxRow.enqueued outboxId envelope.eventId context.command context.operation subject envelope
    now

/-- Both identifiers of a new row are unused. -/
def Db.FreshIn (db : Db) (outboxId messageId : Uuid) : Prop :=
  messageId ∉ db.outbox.map OutboxRow.messageId ∧ outboxId ∉ db.outbox.map OutboxRow.outboxId

/-- `enqueue_json` adds one row, when the texts can be stored and the row is new. -/
theorem enqueueJson_eq_ok_iff {context : CompletionContext} {subject : String}
    {envelope : EventEnvelope} :
    enqueueJson now context subject envelope db = .ok (u, db') ↔
      (envelope.texts.all storable = true ∧
        (context.outboxRow db.nextUuid subject envelope now).checked = true ∧
        db.FreshIn db.nextUuid envelope.eventId) ∧
      db' = { db with
        nextUuid := db.nextUuid + 1
        outbox := db.outbox ++ [context.outboxRow db.nextUuid subject envelope now] } := by
  simp only [enqueueJson, Tx.bind_eq_ok_iff, Tx.freshUuid_eq_ok_iff, Tx.require_eq_ok_iff,
    Tx.read_eq_ok_iff, Tx.okOr_eq_ok_iff, Tx.write_eq_ok_iff, insertOutbox, Db.FreshIn]
  constructor
  · rintro ⟨_, _, ⟨rfl, rfl⟩, _, _, ⟨⟨htexts, hchecked⟩, rfl⟩, _, _, ⟨rfl, rfl⟩, rows, _,
      ⟨hrows, rfl⟩, rfl⟩
    split at hrows
    · cases hrows
    · next hmessage =>
        obtain ⟨hkey, rfl⟩ := Rows.insertKeyed_eq_some_iff.mp hrows
        exact ⟨⟨htexts, hchecked, hmessage, hkey⟩, rfl⟩
  · rintro ⟨⟨htexts, hchecked, hmessage, hkey⟩, rfl⟩
    refine ⟨_, _, ⟨rfl, rfl⟩, (), _, ⟨⟨htexts, hchecked⟩, rfl⟩, _, _, ⟨rfl, rfl⟩, _, _,
      ⟨?_, rfl⟩, rfl⟩
    exact (if_neg hmessage).trans (Rows.insertKeyed_eq_some_iff.mpr ⟨hkey, rfl⟩)

/-! ### Evidence rows -/

/-- The checks of `insert_fetch`. -/
def CompletedFetch.WellFormed (fetch : CompletedFetch) (runId : Uuid) (now : Timestamp) : Prop :=
  (fetch.wireBytes < 2 ^ 63 ∧ fetch.decodedBytes < 2 ^ 63 ∧ fetch.attempts < 2 ^ 31) ∧
    (fetch.row runId now).checked = true

theorem insertFetch_eq_ok_iff {fetch : CompletedFetch} :
    insertFetch now runId fetch db = .ok (u, db') ↔
      (fetch.WellFormed runId now ∧ runExists runId db = true) ∧
      db' = { db with fetches := db.fetches ++ [fetch.row runId now] } := by
  simp only [insertFetch, Tx.bind_eq_ok_iff, Tx.require_eq_ok_iff, Tx.read_eq_ok_iff,
    Tx.write_eq_ok_iff, CompletedFetch.WellFormed]
  constructor
  · rintro ⟨_, _, ⟨hbounds, rfl⟩, _, _, ⟨rfl, rfl⟩, _, _, ⟨⟨hchecked, hknown⟩, rfl⟩, rfl⟩
    exact ⟨⟨⟨hbounds, hchecked⟩, hknown⟩, rfl⟩
  · rintro ⟨⟨⟨hbounds, hchecked⟩, hknown⟩, rfl⟩
    exact ⟨(), _, ⟨hbounds, rfl⟩, _, _, ⟨rfl, rfl⟩, (), _, ⟨⟨hchecked, hknown⟩, rfl⟩, rfl⟩

theorem insertFetchIfAny_eq_ok {fetch : Option CompletedFetch}
    (h : insertFetchIfAny now runId fetch db = .ok (u, db')) :
    db' = { db with fetches := db.fetches ++ fetch.toList.map fun f => f.row runId now } := by
  cases fetch with
  | none =>
      obtain ⟨-, rfl⟩ := Tx.pure_eq_ok_iff.mp h
      simp
  | some fetch => exact (insertFetch_eq_ok_iff.mp h).2

theorem insertArtifact_eq_ok_iff {kind : String} {reference : BlobRef} :
    insertArtifact now runId kind reference db = .ok (u, db') ↔
      ((artifactRow runId kind reference now).checked = true ∧ runExists runId db = true) ∧
      db' = { db with artifacts := db.artifacts ++ [artifactRow runId kind reference now] } := by
  simp only [insertArtifact, Tx.bind_eq_ok_iff, Tx.require_eq_ok_iff, Tx.read_eq_ok_iff,
    Tx.write_eq_ok_iff]
  constructor
  · rintro ⟨_, _, ⟨rfl, rfl⟩, _, _, ⟨⟨hchecked, hknown⟩, rfl⟩, rfl⟩
    exact ⟨⟨hchecked, hknown⟩, rfl⟩
  · rintro ⟨⟨hchecked, hknown⟩, rfl⟩
    exact ⟨_, _, ⟨rfl, rfl⟩, (), _, ⟨⟨hchecked, hknown⟩, rfl⟩, rfl⟩

theorem insertArtifact_ok {kind : String} {reference : BlobRef}
    (hchecked : (artifactRow runId kind reference now).checked = true)
    (hknown : runExists runId db = true) :
    insertArtifact now runId kind reference db = .ok ((),
      { db with artifacts := db.artifacts ++ [artifactRow runId kind reference now] }) :=
  insertArtifact_eq_ok_iff.mpr ⟨⟨hchecked, hknown⟩, rfl⟩

theorem insertCandidate_eq_ok_iff {candidate : CandidateDecision} :
    insertCandidate now runId candidate db = .ok (u, db') ↔
      ((candidate.row runId now).checked = true ∧ runExists runId db = true ∧
        db.candidates.any (candidateConflicts (candidate.row runId now)) = false) ∧
      db' = { db with candidates := db.candidates ++ [candidate.row runId now] } := by
  simp only [insertCandidate, Tx.bind_eq_ok_iff, Tx.require_eq_ok_iff, Tx.read_eq_ok_iff,
    Tx.write_eq_ok_iff]
  constructor
  · rintro ⟨_, _, ⟨rfl, rfl⟩, _, _, ⟨rfl, rfl⟩, _, _, ⟨⟨hchecked, hknown, hfree⟩, rfl⟩, rfl⟩
    exact ⟨⟨hchecked, hknown, hfree⟩, rfl⟩
  · rintro ⟨⟨hchecked, hknown, hfree⟩, rfl⟩
    exact ⟨_, _, ⟨rfl, rfl⟩, _, _, ⟨rfl, rfl⟩, (), _, ⟨⟨hchecked, hknown, hfree⟩, rfl⟩, rfl⟩

theorem insertCandidates_eq_ok {candidates : List CandidateDecision}
    (h : insertCandidates now runId candidates db = .ok (u, db')) :
    db' = { db with candidates := db.candidates ++ candidates.map fun c => c.row runId now } := by
  induction candidates generalizing db with
  | nil =>
      obtain ⟨-, rfl⟩ := Tx.pure_eq_ok_iff.mp h
      simp
  | cons candidate rest ih =>
      obtain ⟨_, db₁, hfirst, hrest⟩ := Tx.bind_eq_ok_iff.mp h
      obtain ⟨-, rfl⟩ := insertCandidate_eq_ok_iff.mp hfirst
      simp [ih hrest]

/-- Candidates whose rows are accepted one by one, with no conflict among themselves or with
the rows that are there. -/
theorem insertCandidates_ok {candidates : List CandidateDecision}
    (hknown : runExists runId db = true)
    (hchecked : ∀ c ∈ candidates, (c.row runId now).checked = true)
    (hpair : candidates.Pairwise fun a b =>
      candidateConflicts (b.row runId now) (a.row runId now) = false)
    (hfree : ∀ c ∈ candidates, ∀ r ∈ db.candidates,
      candidateConflicts (c.row runId now) r = false) :
    insertCandidates now runId candidates db = .ok ((),
      { db with candidates := db.candidates ++ candidates.map fun c => c.row runId now }) := by
  induction candidates generalizing db with
  | nil => exact Tx.pure_eq_ok_iff.mpr ⟨rfl, by simp⟩
  | cons candidate rest ih =>
      obtain ⟨hhead, hpair⟩ := List.pairwise_cons.mp hpair
      have hfirst : db.candidates.any (candidateConflicts (candidate.row runId now)) = false :=
        List.any_eq_false.mpr fun r hr => by
          simp [hfree candidate (List.mem_cons_self ..) r hr]
      refine Tx.bind_eq_ok_iff.mpr ⟨(), _, insertCandidate_eq_ok_iff.mpr
        ⟨⟨hchecked _ (List.mem_cons_self ..), hknown, hfirst⟩, rfl⟩, ?_⟩
      have hfree' : ∀ c ∈ rest, ∀ r ∈ db.candidates ++ [candidate.row runId now],
          candidateConflicts (c.row runId now) r = false := by
        intro c hc r hr
        rcases List.mem_append.mp hr with hr | hr
        · exact hfree c (List.mem_cons_of_mem _ hc) r hr
        · obtain rfl := List.mem_singleton.mp hr
          exact hhead c hc
      have hrest : insertCandidates now runId rest
          { db with candidates := db.candidates ++ [candidate.row runId now] } = _ :=
        ih hknown (fun c hc => hchecked c (List.mem_cons_of_mem _ hc)) hpair hfree'
      simpa using hrest

theorem insertResolutionStep_eq_ok_iff {step : ResolutionStep} :
    insertResolutionStep now runId step db = .ok (u, db') ↔
      ((step.row runId now).checked = true ∧ runExists runId db = true) ∧
      db' = { db with resolutions := db.resolutions ++ [step.row runId now] } := by
  simp only [insertResolutionStep, Tx.bind_eq_ok_iff, Tx.require_eq_ok_iff, Tx.read_eq_ok_iff,
    Tx.write_eq_ok_iff]
  constructor
  · rintro ⟨_, _, ⟨rfl, rfl⟩, _, _, ⟨⟨hchecked, hknown⟩, rfl⟩, rfl⟩
    exact ⟨⟨hchecked, hknown⟩, rfl⟩
  · rintro ⟨⟨hchecked, hknown⟩, rfl⟩
    exact ⟨_, _, ⟨rfl, rfl⟩, (), _, ⟨⟨hchecked, hknown⟩, rfl⟩, rfl⟩

theorem insertResolutionSteps_eq_ok {steps : List ResolutionStep}
    (h : insertResolutionSteps now runId steps db = .ok (u, db')) :
    db' = { db with resolutions := db.resolutions ++ steps.map fun s => s.row runId now } := by
  induction steps generalizing db with
  | nil =>
      obtain ⟨-, rfl⟩ := Tx.pure_eq_ok_iff.mp h
      simp
  | cons step rest ih =>
      obtain ⟨_, db₁, hfirst, hrest⟩ := Tx.bind_eq_ok_iff.mp h
      obtain ⟨-, rfl⟩ := insertResolutionStep_eq_ok_iff.mp hfirst
      simp [ih hrest]

theorem insertResolutionSteps_ok {steps : List ResolutionStep}
    (hknown : runExists runId db = true)
    (hchecked : ∀ s ∈ steps, (s.row runId now).checked = true) :
    insertResolutionSteps now runId steps db = .ok ((),
      { db with resolutions := db.resolutions ++ steps.map fun s => s.row runId now }) := by
  induction steps generalizing db with
  | nil => exact Tx.pure_eq_ok_iff.mpr ⟨rfl, by simp⟩
  | cons step rest ih =>
      refine Tx.bind_eq_ok_iff.mpr ⟨(), _, insertResolutionStep_eq_ok_iff.mpr
        ⟨⟨hchecked _ (List.mem_cons_self ..), hknown⟩, rfl⟩, ?_⟩
      have hrest : insertResolutionSteps now runId rest
          { db with resolutions := db.resolutions ++ [step.row runId now] } = _ :=
        ih hknown fun s hs => hchecked s (List.mem_cons_of_mem _ hs)
      simpa using hrest

/-! ### Facts -/

section Facts

variable {contracts : Contracts} {context : CompletionContext}

/-- The report of an operation, as a new row. -/
def CompletionContext.reportRow (context : CompletionContext) (eventId outboxId : Uuid)
    (report : OperationReported) (now : Timestamp) : OutboxRow EventEnvelope :=
  context.outboxRow outboxId reportSubject
    (context.envelope eventId now (.operation context.operation) (.operationReported report)) now

/-- The report of a failed operation takes the next two identifiers. -/
theorem enqueueFailedReport_eq_ok_iff {failureClass : String} {retryable : Bool} :
    enqueueFailedReport contracts now context failureClass retryable db = .ok (u, db') ↔
      (contracts.entityRefIsValid context.correlation = true ∧
        contracts.payloadIsValid
          (.operationReported (failedReport context failureClass retryable)) = true ∧
        (context.envelope db.nextUuid now (.operation context.operation)
          (.operationReported (failedReport context failureClass retryable))).texts.all
            storable = true ∧
        (context.reportRow db.nextUuid (db.nextUuid + 1)
          (failedReport context failureClass retryable) now).checked = true ∧
        db.FreshIn (db.nextUuid + 1) db.nextUuid) ∧
      db' = { db with
        nextUuid := db.nextUuid + 2
        outbox := db.outbox ++ [context.reportRow db.nextUuid (db.nextUuid + 1)
          (failedReport context failureClass retryable) now] } := by
  simp only [enqueueFailedReport, Tx.bind_eq_ok_iff, Tx.freshUuid_eq_ok_iff,
    Tx.require_eq_ok_iff, enqueueJson_eq_ok_iff]
  constructor
  · rintro ⟨_, _, ⟨hcorr, rfl⟩, _, _, ⟨rfl, rfl⟩, _, _, ⟨hpayload, rfl⟩,
      ⟨htexts, hchecked, hfresh⟩, rfl⟩
    exact ⟨⟨hcorr, hpayload, htexts, hchecked, hfresh⟩, rfl⟩
  · rintro ⟨⟨hcorr, hpayload, htexts, hchecked, hfresh⟩, rfl⟩
    exact ⟨(), _, ⟨hcorr, rfl⟩, _, _, ⟨rfl, rfl⟩, (), _, ⟨hpayload, rfl⟩,
      ⟨htexts, hchecked, hfresh⟩, rfl⟩

/-- Whether the document event of a completion fits, when `nextUuid` is its identifier. -/
def documentFits (contracts : Contracts) (now : Timestamp) (context : CompletionContext)
    (document : Document) (irBlob : BlobRef) (maxEventBytes : ℕ) (nextUuid : Uuid) : Bool :=
  decide (contracts.serializedBytes (documentEvent context document irBlob nextUuid now) ≤
    maxEventBytes)

/-- The facts of a completion, from the next identifier on. -/
def completionRows (now : Timestamp) (context : CompletionContext) (document : Document)
    (irBlob : BlobRef) (ingested : Bool) (nextUuid : Uuid) : List (OutboxRow EventEnvelope) :=
  if ingested then
    [context.outboxRow (nextUuid + 1) documentSubject
        (documentEvent context document irBlob nextUuid now) now,
      context.reportRow (nextUuid + 2) (nextUuid + 3)
        (completedReport context document irBlob true) now]
  else
    [context.reportRow (nextUuid + 1) (nextUuid + 2)
      (completedReport context document irBlob false) now]

/-- The number of identifiers of a completion's facts. -/
def completionUuids (ingested : Bool) : ℕ := if ingested then 4 else 3

/-- **The facts of a completion**: the document fact exactly when it fits, and the report that
says so. -/
theorem enqueueCompletionEvents_eq_ok {document : Document} {irBlob : BlobRef}
    {maxEventBytes : ℕ} {ingested : Bool}
    (h : enqueueCompletionEvents contracts now context document irBlob maxEventBytes db =
      .ok (ingested, db')) :
    ingested = documentFits contracts now context document irBlob maxEventBytes db.nextUuid ∧
      db' = { db with
        nextUuid := db.nextUuid + completionUuids ingested
        outbox := db.outbox ++
          completionRows now context document irBlob ingested db.nextUuid } := by
  simp only [enqueueCompletionEvents, Tx.bind_eq_ok_iff, Tx.freshUuid_eq_ok_iff,
    Tx.require_eq_ok_iff, enqueueDocument] at h
  obtain ⟨_, _, ⟨-, rfl⟩, _, _, ⟨-, rfl⟩, _, _, ⟨rfl, rfl⟩, _, _, ⟨-, rfl⟩, _, db₁, hdoc, _, _,
    ⟨rfl, rfl⟩, _, _, ⟨-, rfl⟩, _, _, ⟨-, rfl⟩, _, _, hreport, hret⟩ := h
  obtain ⟨rfl, rfl⟩ := Tx.pure_eq_ok_iff.mp hret
  obtain ⟨-, rfl⟩ := enqueueJson_eq_ok_iff.mp hreport
  rw [documentFits]
  split at hdoc
  · next hfits =>
      obtain ⟨_, _, hjson, hret⟩ := Tx.bind_eq_ok_iff.mp hdoc
      obtain ⟨rfl, rfl⟩ := Tx.pure_eq_ok_iff.mp hret
      obtain ⟨-, rfl⟩ := enqueueJson_eq_ok_iff.mp hjson
      refine ⟨(decide_eq_true hfits).symm, ?_⟩
      simp [completionRows, completionUuids, CompletionContext.reportRow]
  · next hfits =>
      obtain ⟨rfl, rfl⟩ := Tx.pure_eq_ok_iff.mp hdoc
      refine ⟨(decide_eq_false hfits).symm, ?_⟩
      simp [completionRows, completionUuids, CompletionContext.reportRow]

/-! ### Ending a run -/

namespace TerminalCall

variable {call : TerminalCall} {run : RunRow}

/-- The status a call gives its run. -/
def outcome : TerminalCall → RunStatus
  | .complete _ _ => .succeeded
  | .failRun _ _ _ _ | .reject _ _ => .failed

/-- The facts a call enqueues, from the next identifier on. -/
def factRows (contracts : Contracts) (now : Timestamp) (context : CompletionContext)
    (nextUuid : Uuid) : TerminalCall → List (OutboxRow EventEnvelope)
  | .failRun _ failureClass retryable _ =>
      [context.reportRow nextUuid (nextUuid + 1) (failedReport context failureClass retryable) now]
  | .complete run success =>
      completionRows now context success.document success.irBlob
        (documentFits contracts now context success.document success.irBlob run.maxEventBytes
          nextUuid) nextUuid
  | .reject _ rejection =>
      [context.reportRow nextUuid (nextUuid + 1) (failedReport context rejection.failureClass false)
        now]

/-- The number of identifiers that the facts of a call take. -/
def factUuids (contracts : Contracts) (now : Timestamp) (context : CompletionContext)
    (nextUuid : Uuid) : TerminalCall → ℕ
  | .complete run success =>
      completionUuids (documentFits contracts now context success.document success.irBlob
        run.maxEventBytes nextUuid)
  | .failRun _ _ _ _ | .reject _ _ => 2

/-- The fetch rows of a call: at most one. -/
def fetchRows (now : Timestamp) : TerminalCall → List FetchRow
  | .failRun _ _ _ _ => []
  | .complete run success => success.fetch.toList.map fun f => f.row run.runId now
  | .reject runId rejection => rejection.fetch.toList.map fun f => f.row runId now

/-- The artifact rows of a call. -/
def artifactRows (now : Timestamp) : TerminalCall → List ArtifactRow
  | .failRun _ _ _ _ => []
  | .complete run success =>
      [artifactRow run.runId "raw_source" success.rawBlob now,
        artifactRow run.runId "document_ir" success.irBlob now]
  | .reject runId rejection => [artifactRow runId "raw_source" rejection.rawBlob now]

/-- The candidate rows of a call. -/
def candidateRows (now : Timestamp) : TerminalCall → List CandidateRow
  | .failRun _ _ _ _ => []
  | .complete run success => success.candidates.map fun c => c.row run.runId now
  | .reject runId rejection => rejection.candidates.map fun c => c.row runId now

/-- The resolution rows of a call. -/
def resolutionRows (now : Timestamp) : TerminalCall → List ResolutionRow
  | .failRun runId _ _ steps => steps.map fun s => s.row runId now
  | .complete run success => success.steps.map fun s => s.row run.runId now
  | .reject runId rejection => rejection.steps.map fun s => s.row runId now

/-- What a terminal call that found `run` has changed in the end. -/
structure Ended (contracts : Contracts) (now : Timestamp) (call : TerminalCall) (run : RunRow)
    (db db' : Db) : Prop where
  runs : db'.runs =
    Rows.updateWhere (RunRow.isRunning call.runId) (call.change now) db.runs
  checked : (call.change now run).checked = true
  inbox : db'.inbox = db.inbox
  nextUuid : db.nextUuid ≤ db'.nextUuid
  outbox : db'.outbox = db.outbox ++ call.factRows contracts now run.context db.nextUuid
  bounded : ∀ r ∈ call.factRows contracts now run.context db.nextUuid,
    r.outboxId < db'.nextUuid ∧ r.messageId < db'.nextUuid
  candidates : ∃ rows : List CandidateRow, db'.candidates = db.candidates ++ rows ∧
    ∀ r ∈ rows, r.runId = call.runId

/-- The update of the run row. -/
theorem updateRun_eq_ok_iff {change : RunRow → RunRow} :
    updateRun runId change run db = .ok (u, db') ↔
      (change run).checked = true ∧
      db' = { db with runs := Rows.updateWhere (RunRow.isRunning runId) change db.runs } := by
  simp only [updateRun, Tx.bind_eq_ok_iff, Tx.require_eq_ok_iff, Tx.write_eq_ok_iff]
  constructor
  · rintro ⟨_, _, ⟨hchecked, rfl⟩, rfl⟩
    exact ⟨hchecked, rfl⟩
  · rintro ⟨hchecked, rfl⟩
    exact ⟨(), _, ⟨hchecked, rfl⟩, rfl⟩

/-- The rows of a completion are within the identifiers it takes. -/
theorem completionRows_bounded {document : Document} {irBlob : BlobRef} {ingested : Bool}
    {nextUuid : Uuid} {r : OutboxRow EventEnvelope}
    (hr : r ∈ completionRows now context document irBlob ingested nextUuid) :
    r.outboxId < nextUuid + completionUuids ingested ∧
      r.messageId < nextUuid + completionUuids ingested := by
  cases ingested with
  | true =>
      rcases List.mem_pair.mp hr with rfl | rfl
      · exact ⟨Nat.add_lt_add_left (by decide : 1 < 4) _, Nat.lt_add_of_pos_right (by decide)⟩
      · exact ⟨Nat.add_lt_add_left (by decide : 3 < 4) _,
          Nat.add_lt_add_left (by decide : 2 < 4) _⟩
  | false =>
      obtain rfl := List.mem_singleton.mp hr
      exact ⟨Nat.add_lt_add_left (by decide : 2 < 3) _, Nat.add_lt_add_left (by decide : 1 < 3) _⟩

/-- The rows of a failed report are within the two identifiers it takes. -/
theorem reportRow_bounded {report : OperationReported} {nextUuid : Uuid}
    {r : OutboxRow EventEnvelope}
    (hr : r ∈ [context.reportRow nextUuid (nextUuid + 1) report now]) :
    r.outboxId < nextUuid + 2 ∧ r.messageId < nextUuid + 2 := by
  obtain rfl := List.mem_singleton.mp hr
  exact ⟨Nat.lt_succ_self _, Nat.lt_add_of_pos_right (by decide)⟩

/-- The rows of a call are within the identifiers it takes. -/
theorem factRows_bounded {context : CompletionContext} {nextUuid : Uuid}
    {r : OutboxRow EventEnvelope} (hr : r ∈ call.factRows contracts now context nextUuid) :
    r.outboxId < nextUuid + call.factUuids contracts now context nextUuid ∧
      r.messageId < nextUuid + call.factUuids contracts now context nextUuid := by
  cases call with
  | failRun runId failureClass retryable steps => exact reportRow_bounded hr
  | complete queued success => exact completionRows_bounded hr
  | reject runId rejection => exact reportRow_bounded hr

/-- The candidate rows of a call are of its run. -/
theorem candidateRows_runId {r : CandidateRow} (hr : r ∈ call.candidateRows now) :
    r.runId = call.runId := by
  cases call with
  | failRun runId failureClass retryable steps => exact absurd hr List.not_mem_nil
  | complete queued success =>
      obtain ⟨c, -, rfl⟩ := List.mem_map.mp hr
      rfl
  | reject runId rejection =>
      obtain ⟨c, -, rfl⟩ := List.mem_map.mp hr
      rfl

/-- What follows the update of the run row adds the rows of the call to the other tables. -/
theorem evidence_eq_ok {context : CompletionContext}
    (h : call.evidence contracts now context db = .ok (u, db')) :
    db' = { db with
      nextUuid := db.nextUuid + call.factUuids contracts now context db.nextUuid
      fetches := db.fetches ++ call.fetchRows now
      artifacts := db.artifacts ++ call.artifactRows now
      candidates := db.candidates ++ call.candidateRows now
      resolutions := db.resolutions ++ call.resolutionRows now
      outbox := db.outbox ++ call.factRows contracts now context db.nextUuid } := by
  cases call with
  | failRun runId failureClass retryable steps =>
      obtain ⟨_, _, hsteps, hreport⟩ := Tx.bind_eq_ok_iff.mp h
      obtain rfl := insertResolutionSteps_eq_ok hsteps
      obtain ⟨-, rfl⟩ := enqueueFailedReport_eq_ok_iff.mp hreport
      simp only [fetchRows, artifactRows, candidateRows, List.append_nil]
      rfl
  | complete queued success =>
      simp only [evidence, Tx.bind_eq_ok_iff] at h
      obtain ⟨_, _, hfetch, _, _, hraw, _, _, hir, _, _, hcandidates, _, _, hsteps, _, _, hfacts,
        hret⟩ := h
      obtain rfl := insertFetchIfAny_eq_ok hfetch
      obtain ⟨-, rfl⟩ := insertArtifact_eq_ok_iff.mp hraw
      obtain ⟨-, rfl⟩ := insertArtifact_eq_ok_iff.mp hir
      obtain rfl := insertCandidates_eq_ok hcandidates
      obtain rfl := insertResolutionSteps_eq_ok hsteps
      obtain ⟨rfl, rfl⟩ := enqueueCompletionEvents_eq_ok hfacts
      obtain ⟨-, rfl⟩ := Tx.pure_eq_ok_iff.mp hret
      simp only [artifactRows, List.append_assoc, List.singleton_append]
      rfl
  | reject runId rejection =>
      simp only [evidence, Tx.bind_eq_ok_iff] at h
      obtain ⟨_, _, hfetch, _, _, hraw, _, _, hcandidates, _, _, hsteps, hreport⟩ := h
      obtain rfl := insertFetchIfAny_eq_ok hfetch
      obtain ⟨-, rfl⟩ := insertArtifact_eq_ok_iff.mp hraw
      obtain rfl := insertCandidates_eq_ok hcandidates
      obtain rfl := insertResolutionSteps_eq_ok hsteps
      obtain ⟨-, rfl⟩ := enqueueFailedReport_eq_ok_iff.mp hreport
      rfl

/-- **A terminal call that succeeds** updates the run it found, adds its rows to the other tables,
and writes nothing else. -/
theorem commit_eq_ok_db (h : call.commit contracts now run db = .ok (u, db')) :
    (call.change now run).checked = true ∧
      db' = { db with
        nextUuid := db.nextUuid + call.factUuids contracts now run.context db.nextUuid
        runs := Rows.updateWhere (RunRow.isRunning call.runId) (call.change now) db.runs
        fetches := db.fetches ++ call.fetchRows now
        artifacts := db.artifacts ++ call.artifactRows now
        candidates := db.candidates ++ call.candidateRows now
        resolutions := db.resolutions ++ call.resolutionRows now
        outbox := db.outbox ++ call.factRows contracts now run.context db.nextUuid } := by
  obtain ⟨_, db₁, hupdate, hrest⟩ := Tx.bind_eq_ok_iff.mp h
  obtain ⟨hchecked, rfl⟩ := updateRun_eq_ok_iff.mp hupdate
  exact ⟨hchecked, evidence_eq_ok hrest⟩

/-- **A terminal call that succeeds** ends the run it found, adds its facts, and writes nothing
else into the ledger. -/
theorem commit_eq_ok (h : call.commit contracts now run db = .ok (u, db')) :
    call.Ended contracts now run db db' := by
  obtain ⟨hchecked, rfl⟩ := commit_eq_ok_db h
  exact ⟨rfl, hchecked, rfl, Nat.le_add_right _ _, rfl, fun r hr => factRows_bounded hr,
    _, rfl, fun r hr => candidateRows_runId hr⟩

end TerminalCall

/-! ### Well-formed calls -/

/-- Identifiers from the counter on are unused. -/
def Db.OutboxBounded (db : Db) : Prop :=
  ∀ r ∈ db.outbox, r.outboxId < db.nextUuid ∧ r.messageId < db.nextUuid

theorem Db.OutboxBounded.freshIn (h : db.OutboxBounded) {outboxId messageId : Uuid}
    (hout : db.nextUuid ≤ outboxId) (hmess : db.nextUuid ≤ messageId) :
    db.FreshIn outboxId messageId := by
  constructor
  · intro hmem
    obtain ⟨r, hr, rfl⟩ := List.mem_map.mp hmem
    exact absurd (h r hr).2 (Nat.not_lt.mpr hmess)
  · intro hmem
    obtain ⟨r, hr, rfl⟩ := List.mem_map.mp hmem
    exact absurd (h r hr).1 (Nat.not_lt.mpr hout)

/-- A new row of one of the two subjects meets the constraints. -/
theorem CompletionContext.outboxRow_checked {outboxId : Uuid} {subject : String}
    {envelope : EventEnvelope} (h : subject = documentSubject ∨ subject = reportSubject) :
    (context.outboxRow outboxId subject envelope now).checked = true := by
  rcases h with rfl | rfl
  · simp [CompletionContext.outboxRow, OutboxRow.enqueued, OutboxRow.checked, int4Max]
  · simp [CompletionContext.outboxRow, OutboxRow.enqueued, OutboxRow.checked, int4Max]

/-- The public code and message of every failure class can be stored. -/
theorem publicFailure_storable (failureClass : String) :
    storable (publicFailure failureClass).1 = true ∧
      storable (publicFailure failureClass).2 = true := by
  unfold publicFailure
  split_ifs <;> decide

/-- `enqueue_failed_report` succeeds for a context whose correlation is valid. -/
theorem enqueueFailedReport_ok {failureClass : String} {retryable : Bool}
    (hcorr : contracts.entityRefIsValid context.correlation = true)
    (hstore : storable context.correlation = true)
    (hpayload : contracts.payloadIsValid
      (.operationReported (failedReport context failureClass retryable)) = true)
    (hbound : db.OutboxBounded) :
    ∃ db', enqueueFailedReport contracts now context failureClass retryable db = .ok ((), db') := by
  obtain ⟨hcode, hmessage⟩ := publicFailure_storable failureClass
  refine ⟨_, enqueueFailedReport_eq_ok_iff.mpr ⟨⟨hcorr, hpayload, ?_,
    CompletionContext.outboxRow_checked (Or.inr rfl), ?_⟩, rfl⟩⟩
  · simp [EventEnvelope.texts, CompletionContext.envelope, EntityRef.texts, EventPayload.texts,
      failedReport, plainReport, hcode, hmessage, hstore]
  · exact hbound.freshIn (Nat.le_succ _) (Nat.le_refl _)

/-- The document fact of a fresh event is enqueued where it fits. -/
theorem enqueueDocument_ok (contracts : Contracts) (now : Timestamp)
    (context : CompletionContext) (maxEventBytes : ℕ) {event : EventEnvelope}
    (htexts : event.texts.all storable = true) (hbound : db.OutboxBounded)
    (hid : event.eventId = db.nextUuid) :
    ∃ ingested db', enqueueDocument contracts now context event maxEventBytes
        { db with nextUuid := db.nextUuid + 1 } = .ok (ingested, db') ∧ db'.OutboxBounded := by
  unfold enqueueDocument
  split
  · refine ⟨true, _, Tx.bind_eq_ok_iff.mpr ⟨(), _, enqueueJson_eq_ok_iff.mpr
      ⟨⟨htexts, CompletionContext.outboxRow_checked (Or.inl rfl), ?_⟩, rfl⟩, rfl⟩, ?_⟩
    · exact hbound.freshIn (Nat.le_succ _) (Nat.le_of_eq hid.symm)
    · intro r hr
      rcases List.mem_append.mp hr with hr | hr
      · exact ⟨Nat.lt_add_right 2 (hbound r hr).1, Nat.lt_add_right 2 (hbound r hr).2⟩
      · obtain rfl := List.mem_singleton.mp hr
        exact ⟨Nat.lt_succ_self _, hid ▸ Nat.lt_add_of_pos_right Nat.two_pos⟩
  · refine ⟨false, _, rfl, fun r hr => ?_⟩
    exact ⟨Nat.lt_add_right 1 (hbound r hr).1, Nat.lt_add_right 1 (hbound r hr).2⟩

/-- `enqueue_completion_events` succeeds for a document that the contracts accept and whose
texts can be stored. -/
theorem enqueueCompletionEvents_ok {document : Document} {irBlob : BlobRef} {maxEventBytes : ℕ}
    (hcorr : contracts.entityRefIsValid context.correlation = true)
    (hstore : storable context.correlation = true)
    (hfact : contracts.factIsValid ⟨document, irBlob⟩ = true)
    (hpayload : contracts.payloadIsValid (.documentExtracted ⟨document, irBlob⟩) = true)
    (htexts : (document.texts ++ irBlob.texts).all storable = true)
    (hreport : ∀ ingested,
      contracts.reportIsValid (completedReport context document irBlob ingested) = true ∧
        contracts.payloadIsValid
          (.operationReported (completedReport context document irBlob ingested)) = true)
    (hbound : db.OutboxBounded) :
    ∃ ingested db', enqueueCompletionEvents contracts now context document irBlob maxEventBytes
      db = .ok (ingested, db') := by
  have hdocument : ∀ eventId,
      (documentEvent context document irBlob eventId now).texts.all storable = true := by
    intro eventId
    simpa [EventEnvelope.texts, documentEvent, CompletionContext.envelope, EntityRef.texts,
      EventPayload.texts, hstore] using htexts
  have hir : irBlob.texts.all storable = true := by
    rw [List.all_append, Bool.and_eq_true] at htexts
    exact htexts.2
  have hreportTexts : ∀ eventId ingested, (context.envelope eventId now
      (.operation context.operation) (.operationReported
        (completedReport context document irBlob ingested))).texts.all storable = true := by
    intro eventId ingested
    have hwarning : storable notIngested.code = true ∧ storable notIngested.message = true := by
      decide
    cases ingested with
    | true =>
        simpa [EventEnvelope.texts, CompletionContext.envelope, EntityRef.texts,
          EventPayload.texts, completedReport, hstore] using hir
    | false =>
        simpa [EventEnvelope.texts, CompletionContext.envelope, EntityRef.texts,
          EventPayload.texts, completedReport, hstore, hwarning.1, hwarning.2] using hir
  obtain ⟨ingested, db₁, hdoc, hbound₁⟩ := enqueueDocument_ok contracts now context maxEventBytes
    (hdocument db.nextUuid) hbound rfl
  obtain ⟨hvalid, hpayload'⟩ := hreport ingested
  simp only [enqueueCompletionEvents, Tx.bind_eq_ok_iff, Tx.freshUuid_eq_ok_iff,
    Tx.require_eq_ok_iff, Tx.pure_eq_ok_iff]
  exact ⟨ingested, _, (), _, ⟨hcorr, rfl⟩, (), _, ⟨hfact, rfl⟩, _, _, ⟨rfl, rfl⟩, (), _, ⟨hpayload, rfl⟩,
    ingested, db₁, hdoc, _, _, ⟨rfl, rfl⟩, (), _, ⟨hvalid, rfl⟩, (), _, ⟨hpayload', rfl⟩, (), _,
    enqueueJson_eq_ok_iff.mpr ⟨⟨hreportTexts _ _,
      CompletionContext.outboxRow_checked (Or.inr rfl),
      hbound₁.freshIn (Nat.le_succ _) (Nat.le_refl _)⟩, rfl⟩, rfl, rfl⟩

/-- Candidates whose rows meet the constraints of `extractor.candidates`. -/
def CandidatesWellFormed (runId : Uuid) (now : Timestamp) (candidates : List CandidateDecision) :
    Prop :=
  (∀ c ∈ candidates, (c.row runId now).checked = true) ∧
    candidates.Pairwise fun a b => candidateConflicts (b.row runId now) (a.row runId now) = false

/-- Steps whose rows meet the constraints of `extractor.provider_resolutions`. -/
def StepsWellFormed (runId : Uuid) (now : Timestamp) (steps : List ResolutionStep) : Prop :=
  ∀ s ∈ steps, (s.row runId now).checked = true

/-- A failure class that can be stored and whose report the contracts accept. -/
def FailureWellFormed (contracts : Contracts) (failureClass : String) (retryable : Bool) : Prop :=
  storable failureClass = true ∧ ∀ context : CompletionContext,
    contracts.payloadIsValid (.operationReported (failedReport context failureClass retryable)) =
      true

/-- A document that can be stored and whose fact and reports the contracts accept. -/
def DocumentWellFormed (contracts : Contracts) (document : Document) (irBlob : BlobRef) : Prop :=
  contracts.factIsValid ⟨document, irBlob⟩ = true ∧
    contracts.payloadIsValid (.documentExtracted ⟨document, irBlob⟩) = true ∧
    (document.texts ++ irBlob.texts).all storable = true ∧
    ∀ (context : CompletionContext) (ingested : Bool),
      contracts.reportIsValid (completedReport context document irBlob ingested) = true ∧
        contracts.payloadIsValid
          (.operationReported (completedReport context document irBlob ingested)) = true

/-- **Well-formed arguments** of a terminal call: they pass the call's own checks, the contracts
accept what is built from them, and their rows meet the constraints of the tables. -/
def TerminalCall.WellFormed (contracts : Contracts) (now : Timestamp) (call : TerminalCall) :
    Prop :=
  call.precheck = .ok () ∧
    match call with
    | .failRun runId failureClass retryable steps =>
        FailureWellFormed contracts failureClass retryable ∧ StepsWellFormed runId now steps
    | .complete run success =>
        DocumentWellFormed contracts success.document success.irBlob ∧
          (∀ f, success.fetch = some f → f.WellFormed run.runId now) ∧
          (artifactRow run.runId "raw_source" success.rawBlob now).checked = true ∧
          (artifactRow run.runId "document_ir" success.irBlob now).checked = true ∧
          CandidatesWellFormed run.runId now success.candidates ∧
          StepsWellFormed run.runId now success.steps
    | .reject runId rejection =>
        FailureWellFormed contracts rejection.failureClass false ∧
          (∀ f, rejection.fetch = some f → f.WellFormed runId now) ∧
          (artifactRow runId "raw_source" rejection.rawBlob now).checked = true ∧
          CandidatesWellFormed runId now rejection.candidates ∧
          StepsWellFormed runId now rejection.steps

/-- A running run was started. -/
theorem RunRow.isSome_startedAt {run : RunRow} (hrun : run.checked = true)
    (hrunning : run.status = .running) : run.startedAt.isSome = true := by
  simp only [RunRow.checked, hrunning, Bool.and_eq_true, beq_iff_eq] at hrun
  obtain ⟨⟨⟨⟨⟨⟨⟨⟨-, hstarted⟩, -⟩, -⟩, -⟩, -⟩, -⟩, -⟩, -⟩ := hrun
  exact hstarted

/-- A failing update of a running run meets the constraints of `extractor.extraction_runs`. -/
theorem RunRow.fail_checked {run : RunRow} {failureClass : String} (hrun : run.checked = true)
    (hrunning : run.status = .running) (hstore : storable failureClass = true)
    (hne : failureClass ≠ "") (hlength : failureClass.utf8ByteSize ≤ 64) :
    (run.fail now failureClass).checked = true := by
  have hlow : 1 ≤ failureClass.length :=
    Nat.one_le_iff_ne_zero.mpr fun h => hne (String.length_eq_zero_iff.mp h)
  have hhigh := Nat.le_trans (Text.length_le_utf8ByteSize failureClass) hlength
  have hstarted := RunRow.isSome_startedAt hrun hrunning
  simp only [RunRow.checked, hrunning, Bool.and_eq_true] at hrun
  simp only [RunRow.checked, RunRow.fail, Bool.and_eq_true]
  simp [hrun, hstarted, hstore, lengthBetween, hlow, hhigh, RunStatus.terminal]

/-- A completing update of a running run meets the constraints of `extractor.extraction_runs`. -/
theorem RunRow.succeed_checked {run : RunRow} (hrun : run.checked = true)
    (hrunning : run.status = .running) : (run.succeed now).checked = true := by
  have hstarted := RunRow.isSome_startedAt hrun hrunning
  simp only [RunRow.checked, hrunning, Bool.and_eq_true] at hrun
  simp only [RunRow.checked, RunRow.succeed, Bool.and_eq_true]
  simp [hrun, hstarted, RunStatus.terminal]

/-- The update of a well-formed call meets the constraints of `extractor.extraction_runs`. -/
theorem TerminalCall.change_checked {call : TerminalCall} {run : RunRow}
    (hwell : call.WellFormed contracts now) (hrun : run.checked = true)
    (hrunning : run.status = .running) : (call.change now run).checked = true := by
  obtain ⟨hprecheck, hwell⟩ := hwell
  cases call with
  | failRun runId failureClass retryable steps =>
      obtain ⟨hne, hlength⟩ := Except.require_eq_ok_iff.mp hprecheck
      exact RunRow.fail_checked hrun hrunning hwell.1.1 hne hlength
  | complete queued success => exact RunRow.succeed_checked hrun hrunning
  | reject runId rejection =>
      obtain ⟨_, hclass, -⟩ := Except.bind_eq_ok_iff.mp hprecheck
      obtain ⟨hne, hlength⟩ := Except.require_eq_ok_iff.mp hclass
      exact RunRow.fail_checked hrun hrunning hwell.1.1 hne hlength

/-- A fetch row is accepted where there was a well-formed fetch. -/
theorem insertFetchIfAny_ok {fetch : Option CompletedFetch} (hknown : runExists runId db = true)
    (hfetch : ∀ f, fetch = some f → f.WellFormed runId now) :
    insertFetchIfAny now runId fetch db = .ok ((),
      { db with fetches := db.fetches ++ fetch.toList.map fun f => f.row runId now }) := by
  cases fetch with
  | none => exact Tx.pure_eq_ok_iff.mpr ⟨rfl, by simp⟩
  | some f => exact insertFetch_eq_ok_iff.mpr ⟨⟨hfetch f rfl, hknown⟩, rfl⟩

/-- Well-formed candidates are accepted for a run that has none. -/
theorem CandidatesWellFormed.insert_ok {candidates : List CandidateDecision}
    (h : CandidatesWellFormed runId now candidates) (hknown : runExists runId db = true)
    (hfree : ∀ c ∈ db.candidates, c.runId ≠ runId) :
    insertCandidates now runId candidates db = .ok ((),
      { db with candidates := db.candidates ++ candidates.map fun c => c.row runId now }) := by
  refine insertCandidates_ok hknown h.1 h.2 fun c _ r hr => ?_
  have hne : (runId == r.runId) = false := beq_false_of_ne (hfree r hr).symm
  exact (congrArg (· && _) hne).trans (Bool.false_and _)

/-- What follows the update of a run succeeds for a well-formed call. -/
theorem TerminalCall.evidence_ok (context : CompletionContext) {call : TerminalCall}
    (hwell : call.WellFormed contracts now) (hknown : runExists call.runId db = true)
    (hcorr : contracts.entityRefIsValid context.correlation = true)
    (hstore : storable context.correlation = true) (hbound : db.OutboxBounded)
    (hfree : ∀ c ∈ db.candidates, c.runId ≠ call.runId) :
    ∃ db', call.evidence contracts now context db = .ok ((), db') := by
  obtain ⟨-, hwell⟩ := hwell
  cases call with
  | failRun runId failureClass retryable steps =>
      obtain ⟨⟨-, hpayload⟩, hsteps⟩ := hwell
      refine Tx.exists_bind_ok (insertResolutionSteps_ok hknown hsteps) ?_
      exact enqueueFailedReport_ok hcorr hstore (hpayload context) hbound
  | complete run success =>
      obtain ⟨⟨hfact, hpayload, htexts, hreports⟩, hfetch, hraw, hir, hcandidates, hsteps⟩ := hwell
      refine Tx.exists_bind_ok (insertFetchIfAny_ok hknown hfetch) ?_
      refine Tx.exists_bind_ok (insertArtifact_ok hraw hknown) ?_
      refine Tx.exists_bind_ok (insertArtifact_ok hir hknown) ?_
      refine Tx.exists_bind_ok (hcandidates.insert_ok hknown hfree) ?_
      refine Tx.exists_bind_ok (insertResolutionSteps_ok hknown hsteps) ?_
      refine Tx.exists_bind_of_exists ?_ fun _ db' => ⟨db', rfl⟩
      exact enqueueCompletionEvents_ok hcorr hstore hfact hpayload htexts (hreports context) hbound
  | reject runId rejection =>
      obtain ⟨⟨-, hpayload⟩, hfetch, hraw, hcandidates, hsteps⟩ := hwell
      refine Tx.exists_bind_ok (insertFetchIfAny_ok hknown hfetch) ?_
      refine Tx.exists_bind_ok (insertArtifact_ok hraw hknown) ?_
      refine Tx.exists_bind_ok (hcandidates.insert_ok hknown hfree) ?_
      refine Tx.exists_bind_ok (insertResolutionSteps_ok hknown hsteps) ?_
      exact enqueueFailedReport_ok hcorr hstore (hpayload context) hbound

/-- **A well-formed terminal call that found a running run succeeds.** -/
theorem TerminalCall.commit_ok {call : TerminalCall} {run : RunRow}
    (hwell : call.WellFormed contracts now) (henter : enterRun call.runId db = some run)
    (hrun : run.checked = true) (hcorr : contracts.entityRefIsValid run.correlationId = true)
    (hbound : db.OutboxBounded) (hfree : ∀ c ∈ db.candidates, c.runId ≠ call.runId) :
    ∃ db', call.commit contracts now run db = .ok ((), db') := by
  have hmem := List.mem_of_find?_eq_some henter
  have hp : RunRow.isRunning call.runId run = true := List.find?_some henter
  obtain ⟨hid, hstatus⟩ := Bool.and_eq_true_iff.mp hp
  have hchecked := TerminalCall.change_checked hwell hrun (beq_iff_eq.mp hstatus)
  have hstore : storable run.correlationId = true := by
    simp only [RunRow.checked, Bool.and_eq_true] at hrun
    obtain ⟨⟨⟨⟨⟨⟨⟨⟨⟨⟨⟨⟨hstore, -⟩, -⟩, -⟩, -⟩, -⟩, -⟩, -⟩, -⟩, -⟩, -⟩, -⟩, -⟩ := hrun
    exact hstore
  have hknown : runExists call.runId { db with
      runs := Rows.updateWhere (RunRow.isRunning call.runId) (call.change now) db.runs } = true := by
    refine List.any_eq_true.mpr ⟨call.change now run, Rows.mem_updateWhere_of_pos hmem hp, ?_⟩
    cases call <;> exact hid
  obtain ⟨db', hrest⟩ := TerminalCall.evidence_ok run.context hwell hknown hcorr hstore hbound
    hfree
  exact ⟨db', Tx.bind_eq_ok_iff.mpr ⟨(), _, updateRun_eq_ok_iff.mpr ⟨hchecked, rfl⟩, hrest⟩⟩

end Facts

/-! ### Intake -/

variable {lib : UrlLib} {command : CaptureCommand}

/-- The context of a capture command's events. -/
def CaptureCommand.context (command : CaptureCommand) : CompletionContext :=
  ⟨command.commandId, command.operationId, command.tenantId, command.correlationId⟩

/-- The inbox row of an applied command. -/
def appliedRow (command : CaptureCommand) (now : Timestamp) : InboxRow where
  commandId := command.commandId
  producer := command.producer
  receivedAt := now
  appliedAt := some now
  outcome := some .applied

/-- The upsert changes the sources only. -/
theorem upsertSource_eq_ok {row : SourceRow} {sourceId : Uuid}
    (h : upsertSource lib row db = .ok (sourceId, db')) :
    ∃ sources, db' = { db with sources := sources } := by
  simp only [upsertSource, Tx.bind_eq_ok_iff, Tx.require_eq_ok_iff, Tx.read_eq_ok_iff] at h
  obtain ⟨_, _, ⟨-, rfl⟩, known, _, ⟨-, rfl⟩, h⟩ := h
  cases known with
  | none =>
      obtain ⟨_, _, hindex, h⟩ := Tx.bind_eq_ok_iff.mp h
      obtain ⟨-, rfl⟩ := Tx.require_eq_ok_iff.mp hindex
      obtain ⟨_, _, hwrite, hret⟩ := Tx.bind_eq_ok_iff.mp h
      obtain rfl := Tx.write_eq_ok_iff.mp hwrite
      obtain ⟨-, rfl⟩ := Tx.pure_eq_ok_iff.mp hret
      exact ⟨_, rfl⟩
  | some existing =>
      obtain ⟨_, _, hwrite, hret⟩ := Tx.bind_eq_ok_iff.mp h
      obtain rfl := Tx.write_eq_ok_iff.mp hwrite
      obtain ⟨-, rfl⟩ := Tx.pure_eq_ok_iff.mp hret
      exact ⟨_, rfl⟩

/-- Finding the source of a command takes one identifier and changes the sources only. -/
theorem intakeSource_eq_ok {source : IntakeSource}
    (h : intakeSource lib now command db = .ok (source, db')) :
    ∃ sources, db' = { db with nextUuid := db.nextUuid + 1, sources := sources } := by
  cases hsource : command.source with
  | url url =>
      cases hnormal : normalize lib (lib.asStr url) intakePolicy with
      | error e =>
          simp only [intakeSource, hsource, urlSource, hnormal] at h
          obtain ⟨_, _, hthrow, -⟩ := Tx.bind_eq_ok_iff.mp h
          exact (Tx.throw_eq_ok_iff.mp hthrow).elim
      | ok normalized =>
          simp only [intakeSource, hsource, urlSource, hnormal, Tx.bind_eq_ok_iff,
            Tx.okOr_eq_ok_iff, Tx.freshUuid_eq_ok_iff, Tx.pure_eq_ok_iff] at h
          obtain ⟨_, _, ⟨rfl, rfl⟩, _, _, ⟨-, rfl⟩, _, _, ⟨rfl, rfl⟩, _, _, hupsert, -, rfl⟩ := h
          exact upsertSource_eq_ok hupsert
  | blob blob =>
      simp only [intakeSource, hsource, blobSource, Tx.bind_eq_ok_iff, Tx.require_eq_ok_iff,
        Tx.freshUuid_eq_ok_iff, Tx.pure_eq_ok_iff] at h
      obtain ⟨_, _, ⟨-, rfl⟩, _, _, ⟨rfl, rfl⟩, _, _, hupsert, -, rfl⟩ := h
      exact upsertSource_eq_ok hupsert

/-- What intake has changed in the end: the command is applied, and it has a queued run and a
queued report. -/
structure Queued (command : CaptureCommand) (now : Timestamp) (db db' : Db) : Prop where
  inbox : db'.inbox = db.inbox ++ [appliedRow command now]
  new : ∀ r ∈ db.runs, r.commandId ≠ command.commandId
  runs : ∃ source, (queuedRow (db.nextUuid + 1) command source now).checked = true ∧
    db'.runs = db.runs ++ [queuedRow (db.nextUuid + 1) command source now]
  nextUuid : db'.nextUuid = db.nextUuid + 4
  outbox : db'.outbox = db.outbox ++
    [command.context.reportRow (db.nextUuid + 2) (db.nextUuid + 3)
      (plainReport command.operationId .queued none) now]
  candidates : db'.candidates = db.candidates

/-- The insert into the inbox. -/
theorem insertInbox_eq_ok {inserted : Bool}
    (h : insertInbox now command db = .ok (inserted, db')) :
    (inserted = false ∧ (∃ r ∈ db.inbox, r.commandId = command.commandId) ∧ db' = db) ∨
      (inserted = true ∧ (∀ r ∈ db.inbox, r.commandId ≠ command.commandId) ∧
        db' = { db with
          inbox := db.inbox ++
            [{ appliedRow command now with appliedAt := none, outcome := none }] }) := by
  simp only [insertInbox, Tx.bind_eq_ok_iff, Tx.read_eq_ok_iff] at h
  obtain ⟨known, _, ⟨hknown, rfl⟩, h⟩ := h
  cases known with
  | true =>
      obtain ⟨rfl, rfl⟩ := Tx.pure_eq_ok_iff.mp h
      obtain ⟨r, hr, hid⟩ := List.any_eq_true.mp hknown
      exact Or.inl ⟨rfl, ⟨r, hr, of_decide_eq_true hid⟩, rfl⟩
  | false =>
      obtain ⟨_, _, hcheck, h⟩ := Tx.bind_eq_ok_iff.mp h
      obtain ⟨-, rfl⟩ := Tx.require_eq_ok_iff.mp hcheck
      obtain ⟨_, _, hwrite, hret⟩ := Tx.bind_eq_ok_iff.mp h
      obtain rfl := Tx.write_eq_ok_iff.mp hwrite
      obtain ⟨rfl, rfl⟩ := Tx.pure_eq_ok_iff.mp hret
      refine Or.inr ⟨rfl, fun r hr hid => ?_, rfl⟩
      exact absurd (beq_iff_eq.mpr hid) (List.any_eq_false.mp hknown r hr)

/-- **Intake** applies a new command, or finds it known and changes nothing. -/
theorem consumeCommand_eq_ok {contracts : Contracts} {reception : Reception}
    (h : consumeCommand lib contracts now command db = .ok (reception, db')) :
    (reception = .duplicate ∧ (∃ r ∈ db.inbox, r.commandId = command.commandId) ∧ db' = db) ∨
      (reception = .applied ∧ (∀ r ∈ db.inbox, r.commandId ≠ command.commandId) ∧
        Queued command now db db') := by
  obtain ⟨inserted, db₁, hinsert, hrest⟩ := Tx.bind_eq_ok_iff.mp h
  rcases insertInbox_eq_ok hinsert with ⟨rfl, hknown, rfl⟩ | ⟨rfl, hnew, rfl⟩
  · obtain ⟨rfl, rfl⟩ := Tx.pure_eq_ok_iff.mp hrest
    exact Or.inl ⟨rfl, hknown, rfl⟩
  · obtain ⟨_, _, happly, hret⟩ := Tx.bind_eq_ok_iff.mp hrest
    obtain ⟨rfl, rfl⟩ := Tx.pure_eq_ok_iff.mp hret
    simp only [applyCapture, queueRun, insertRun, enqueueQueuedReport, markApplied,
      Tx.bind_eq_ok_iff, Tx.freshUuid_eq_ok_iff, Tx.require_eq_ok_iff, Tx.read_eq_ok_iff,
      Tx.write_eq_ok_iff] at happly
    obtain ⟨_, _, ⟨source, _, hsource, _, _, ⟨rfl, rfl⟩, _, _, ⟨hchecked, rfl⟩, _, _, ⟨rfl, rfl⟩,
      _, _, ⟨hcommand, rfl⟩, rfl⟩, _, _, ⟨_, _, ⟨rfl, rfl⟩, _, _, ⟨-, rfl⟩, hreport⟩, rfl⟩ := happly
    obtain ⟨sources, rfl⟩ := intakeSource_eq_ok hsource
    obtain ⟨-, rfl⟩ := enqueueJson_eq_ok_iff.mp hreport
    refine Or.inr ⟨rfl, hnew, ?_, ?_, ⟨source, hchecked, rfl⟩, rfl, rfl, rfl⟩
    · change Rows.updateWhere _ _ (db.inbox ++ [_]) = _
      have hkeep : Rows.updateWhere (fun r : InboxRow => r.commandId == command.commandId)
          (fun r => { r with appliedAt := some now, outcome := some .applied }) db.inbox =
            db.inbox :=
        Rows.updateWhere_eq_self fun r hr => beq_false_of_ne (hnew r hr)
      rw [Rows.updateWhere, List.map_append, ← Rows.updateWhere, hkeep]
      simp [appliedRow]
    · intro r hr hid
      exact absurd (beq_iff_eq.mpr hid) (List.any_eq_false.mp hcommand r hr)

/-! ### Leasing -/

/-- The run that the leasing statement picks is claimable and not locked. -/
theorem nextRun_eq_some {locked : List Uuid} {run : RunRow} {source : SourceRow}
    (h : nextRun now locked db = some (run, source)) :
    run ∈ db.runs ∧ run.claimable now = true ∧ run.runId ∉ locked := by
  obtain ⟨r, hr, hsource⟩ := List.exists_of_findSome?_eq_some h
  obtain ⟨s, -, hs⟩ := Option.map_eq_some_iff.mp hsource
  obtain ⟨rfl, rfl⟩ := Prod.mk.inj hs
  have hfilter := (List.mem_insertionSort _).mp hr
  obtain ⟨hmem, hcond⟩ := List.mem_filter.mp hfilter
  simp only [Bool.and_eq_true, Bool.not_eq_true', List.contains_eq_mem,
    decide_eq_false_iff_not] at hcond
  exact ⟨hmem, hcond.1, hcond.2⟩

/-- **Leasing** changes one claimable run that nobody has locked, or nothing. -/
theorem claimNext_eq_ok {claimedBy : String} {leaseSeconds : ℤ} {locked : List Uuid}
    {leased : Option (RunRow × SourceRow)}
    (h : claimNext now claimedBy leaseSeconds locked db = .ok (leased, db')) :
    db' = db ∨ ∃ run ∈ db.runs, run.claimable now = true ∧ run.runId ∉ locked ∧
      (run.claim now claimedBy leaseSeconds).checked = true ∧
      db' = { db with
        runs := Rows.updateWhere (fun r => r.runId == run.runId)
          (RunRow.claim now claimedBy leaseSeconds) db.runs } := by
  obtain ⟨next, _, hread, h⟩ := Tx.bind_eq_ok_iff.mp h
  obtain ⟨hnext, rfl⟩ := Tx.read_eq_ok_iff.mp hread
  cases next with
  | none =>
      obtain ⟨-, rfl⟩ := Tx.pure_eq_ok_iff.mp h
      exact Or.inl rfl
  | some found =>
      obtain ⟨run, source⟩ := found
      obtain ⟨hmem, hclaimable, hfree⟩ := nextRun_eq_some hnext
      obtain ⟨_, _, hcheck, h⟩ := Tx.bind_eq_ok_iff.mp h
      obtain ⟨hchecked, rfl⟩ := Tx.require_eq_ok_iff.mp hcheck
      obtain ⟨_, _, hwrite, hret⟩ := Tx.bind_eq_ok_iff.mp h
      obtain rfl := Tx.write_eq_ok_iff.mp hwrite
      obtain ⟨-, rfl⟩ := Tx.pure_eq_ok_iff.mp hret
      exact Or.inr ⟨run, hmem, hclaimable, hfree, hchecked, rfl⟩

end Extractor
