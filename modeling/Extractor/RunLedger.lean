import Extractor.Ledger
import Extractor.UrlRouting

/-!
# The run ledger invariant

In every state of the ledger system the status of a run and the facts enqueued for its command
belong together. The invariant is stated once for a run and its facts as lists: the facts of a
command are its queued report, followed by the facts of the one call that ended the run, if it
ended.

## Main results

* `ledgerInv_of_reachable`: the invariant holds in every reachable state.
* `run_ledger_invariant`: what it says about commands, statuses, reports and documents.
-/

namespace Extractor

/-! ### Facts -/

/-- An outbox row as the rest of the fleet sees it. -/
structure Fact where
  subject : String
  envelope : EventEnvelope
  deriving DecidableEq

/-- The fact in an outbox row. -/
def OutboxRow.fact (r : OutboxRow EventEnvelope) : Fact := ⟨r.subject, r.payload⟩

/-- The facts enqueued for a command, in order. -/
def Db.facts (db : Db) (commandId : Uuid) : List Fact :=
  (db.outbox.filter fun r => r.causationCommandId == commandId).map OutboxRow.fact

/-- The facts that a call enqueued. -/
def Returned.facts (contracts : Contracts) (context : CompletionContext) (e : Returned) :
    List Fact :=
  (e.call.factRows contracts e.startedAt context e.nextUuid).map OutboxRow.fact

/-- The report that a run was queued with. -/
def RunRow.queuedFact (r : RunRow) (eventId : Uuid) : Fact where
  subject := reportSubject
  envelope := r.context.envelope eventId r.queuedAt (.operation r.operationId)
    (.operationReported (plainReport r.operationId .queued none))

section Facts

variable {contracts : Contracts} {db db' : Db} {commandId : Uuid}

/-- Delivery does not change facts. -/
theorem Db.facts_of_core (h : db'.outbox.map OutboxRow.core = db.outbox.map OutboxRow.core) :
    db'.facts commandId = db.facts commandId := by
  have key : ∀ rows : List (OutboxRow EventEnvelope),
      (rows.filter fun r => r.causationCommandId == commandId).map OutboxRow.fact =
        ((rows.map OutboxRow.core).filter fun c => c.1 == commandId).map
          fun c => ⟨c.2.subject, c.2.payload⟩ := by
    intro rows
    rw [List.filter_map, List.map_map]
    rfl
  rw [Db.facts, Db.facts, key, key, h]

/-- Rows for the command are added to its facts. -/
theorem Db.facts_append {rows : List (OutboxRow EventEnvelope)}
    (h : db'.outbox = db.outbox ++ rows) (hrows : ∀ r ∈ rows, r.causationCommandId = commandId) :
    db'.facts commandId = db.facts commandId ++ rows.map OutboxRow.fact := by
  have hall : (rows.filter fun r => r.causationCommandId == commandId) = rows :=
    List.filter_eq_self.mpr fun r hr => beq_iff_eq.mpr (hrows r hr)
  rw [Db.facts, Db.facts, h, List.filter_append, List.map_append, hall]

/-- Rows for another command leave the facts alone. -/
theorem Db.facts_append_of_ne {rows : List (OutboxRow EventEnvelope)} {other : Uuid}
    (h : db'.outbox = db.outbox ++ rows) (hrows : ∀ r ∈ rows, r.causationCommandId = other)
    (hne : other ≠ commandId) : db'.facts commandId = db.facts commandId := by
  have hnone : (rows.filter fun r => r.causationCommandId == commandId) = [] :=
    List.filter_eq_nil_iff.mpr fun r hr hid => hne ((hrows r hr).symm.trans (beq_iff_eq.mp hid))
  rw [Db.facts, Db.facts, h, List.filter_append, hnone, List.append_nil]

/-- A call's facts belong to the command of its run. -/
theorem TerminalCall.factRows_causation {call : TerminalCall} {now : Timestamp}
    {context : CompletionContext} {nextUuid : Uuid} {r : OutboxRow EventEnvelope}
    (hr : r ∈ call.factRows contracts now context nextUuid) :
    r.causationCommandId = context.command := by
  cases call with
  | failRun runId failureClass retryable steps =>
      obtain rfl := List.mem_singleton.mp hr
      rfl
  | complete run success =>
      rw [TerminalCall.factRows, completionRows] at hr
      split at hr
      · rcases List.mem_pair.mp hr with rfl | rfl <;> rfl
      · obtain rfl := List.mem_singleton.mp hr
        rfl
  | reject runId rejection =>
      obtain rfl := List.mem_singleton.mp hr
      rfl

end Facts

/-! ### The invariant -/

/-- What holds of one run. -/
structure RunInv (contracts : Contracts) (s : Ledger) (r : RunRow) : Prop where
  checked : r.checked = true
  outcome : (s.appliedTo r.runId).map (fun e => e.call.outcome) =
    if r.status.terminal then [r.status] else []
  facts : ∃ eventId, s.db.facts r.commandId =
    r.queuedFact eventId :: (s.appliedTo r.runId).flatMap (Returned.facts contracts r.context)

/-- **The ledger invariant.** -/
structure LedgerInv (contracts : Contracts) (s : Ledger) : Prop where
  runIds : (s.db.runs.map RunRow.runId).Nodup
  runId_lt : ∀ r ∈ s.db.runs, r.runId < s.db.nextUuid
  commandIds : (s.db.runs.map RunRow.commandId).Nodup
  inbox : s.db.inbox.map InboxRow.commandId = s.db.runs.map RunRow.commandId
  outbox_lt : ∀ r ∈ s.db.outbox, r.outboxId < s.db.nextUuid ∧ r.messageId < s.db.nextUuid
  outbox_command : ∀ r ∈ s.db.outbox, r.causationCommandId ∈ s.db.runs.map RunRow.commandId
  applied : ∀ runId, s.appliedTo runId ≠ [] → ∃ r ∈ s.db.runs, r.runId = runId
  candidates : ∀ c ∈ s.db.candidates, ∃ r ∈ s.db.runs, r.runId = c.runId ∧
    r.status.terminal = true
  run : ∀ r ∈ s.db.runs, RunInv contracts s r

section Invariant

variable {contracts : Contracts} {s t : Ledger} {now : Timestamp}

/-- A call that returned without ending a run is not listed. -/
theorem Ledger.appliedTo_of_returned
    (h : t.returned = s.returned ∨ ∃ e, e.applied = false ∧ t.returned = s.returned ++ [e])
    (runId : Uuid) : t.appliedTo runId = s.appliedTo runId := by
  rcases h with h | ⟨e, he, h⟩
  · rw [Ledger.appliedTo, h, Ledger.appliedTo]
  · rw [Ledger.appliedTo, h, List.filter_append]
    simp [he, Ledger.appliedTo]

/-- Rows of the outbox are bounded and known by their core columns. -/
theorem forall_core {P : Uuid × ClaimedRow EventEnvelope → Prop}
    {rows rows' : List (OutboxRow EventEnvelope)}
    (h : rows'.map OutboxRow.core = rows.map OutboxRow.core) (hP : ∀ r ∈ rows, P r.core) :
    ∀ r ∈ rows', P r.core := by
  intro r hr
  have hmem : r.core ∈ rows.map OutboxRow.core := h ▸ List.mem_map_of_mem hr
  obtain ⟨r', hr', hcore⟩ := List.mem_map.mp hmem
  exact hcore ▸ hP r' hr'

/-- What holds of a run depends on its own columns, its facts and the calls that ended it. -/
theorem RunInv.congr {r r' : RunRow} (h : RunInv contracts s r) (hchecked : r'.checked = true)
    (hid : r'.runId = r.runId) (hcontext : r'.context = r.context)
    (hqueued : r'.queuedAt = r.queuedAt)
    (hterminal : r'.status = r.status ∨
      r'.status.terminal = false ∧ r.status.terminal = false)
    (happlied : t.appliedTo r.runId = s.appliedTo r.runId)
    (hfacts : t.db.facts r.commandId = s.db.facts r.commandId) : RunInv contracts t r' := by
  have hcommand : r'.commandId = r.commandId := congrArg CompletionContext.command hcontext
  have hoperation : r'.operationId = r.operationId := congrArg CompletionContext.operation hcontext
  refine ⟨hchecked, ?_, ?_⟩
  · rw [hid, happlied, h.outcome]
    rcases hterminal with hstatus | ⟨hr', hr⟩
    · rw [hstatus]
    · rw [hr, hr']
      rfl
  · obtain ⟨eventId, hr⟩ := h.facts
    refine ⟨eventId, ?_⟩
    rw [hid, happlied, hcommand, hfacts, hr, hcontext, RunRow.queuedFact, RunRow.queuedFact,
      hcontext, hqueued, hoperation]

/-- The run that the first update of a terminal call finds. -/
theorem enterRun_eq_some {db : Db} {runId : Uuid} {run : RunRow}
    (h : enterRun runId db = some run) :
    run ∈ db.runs ∧ run.runId = runId ∧ run.status = .running := by
  have hp := List.find?_some h
  obtain ⟨hid, hstatus⟩ := Bool.and_eq_true_iff.mp hp
  exact ⟨List.mem_of_find?_eq_some h, beq_iff_eq.mp hid, beq_iff_eq.mp hstatus⟩

namespace TerminalCall

theorem change_context (call : TerminalCall) (now : Timestamp) (r : RunRow) :
    (call.change now r).context = r.context := by
  cases call <;> rfl

theorem change_commandId (call : TerminalCall) (now : Timestamp) (r : RunRow) :
    (call.change now r).commandId = r.commandId := by
  cases call <;> rfl

theorem change_queuedFact (call : TerminalCall) (now : Timestamp) (r : RunRow) (eventId : Uuid) :
    (call.change now r).queuedFact eventId = r.queuedFact eventId := by
  cases call <;> rfl

theorem change_status (call : TerminalCall) (now : Timestamp) (r : RunRow) :
    (call.change now r).status = call.outcome := by
  cases call <;> rfl

theorem outcome_terminal (call : TerminalCall) : call.outcome.terminal = true := by
  cases call <;> rfl

end TerminalCall

namespace LedgerInv

theorem of_initial : LedgerInv contracts Ledger.initial where
  runIds := List.nodup_nil
  runId_lt := by simp [Ledger.initial, Db.empty]
  commandIds := List.nodup_nil
  inbox := rfl
  outbox_lt := by simp [Ledger.initial, Db.empty]
  outbox_command := by simp [Ledger.initial, Db.empty]
  applied := fun _ h => absurd rfl h
  candidates := by simp [Ledger.initial, Db.empty]
  run := by simp [Ledger.initial, Db.empty]

/-- Neither runs nor facts changed. -/
theorem quiet (h : LedgerInv contracts s) (hquiet : Quiet s.db t.db)
    (happlied : ∀ runId, t.appliedTo runId = s.appliedTo runId) : LedgerInv contracts t where
  runIds := hquiet.runs ▸ h.runIds
  runId_lt := by
    rw [hquiet.runs, hquiet.nextUuid]
    exact h.runId_lt
  commandIds := hquiet.runs ▸ h.commandIds
  inbox := by
    rw [hquiet.inbox, hquiet.runs]
    exact h.inbox
  outbox_lt := by
    rw [hquiet.nextUuid]
    exact forall_core (P := fun c => c.2.outboxId < s.db.nextUuid ∧ c.2.messageId < s.db.nextUuid)
      hquiet.outbox h.outbox_lt
  outbox_command := by
    rw [hquiet.runs]
    exact forall_core (P := fun c => c.1 ∈ s.db.runs.map RunRow.commandId) hquiet.outbox
      h.outbox_command
  applied runId hne := by
    rw [happlied] at hne
    rw [hquiet.runs]
    exact h.applied runId hne
  candidates := by
    rw [hquiet.candidates, hquiet.runs]
    exact h.candidates
  run r hr := by
    rw [hquiet.runs] at hr
    exact (h.run r hr).congr (h.run r hr).checked rfl rfl rfl (Or.inl rfl) (happlied _)
      (Db.facts_of_core hquiet.outbox)

/-- The run that an update found is the only one with its identifier. -/
theorem eq_of_runId (h : LedgerInv contracts s) {r r' : RunRow} (hr : r ∈ s.db.runs)
    (hr' : r' ∈ s.db.runs) (hid : r.runId = r'.runId) : r = r' :=
  Rows.eq_of_key h.runIds hr hr' hid

/-- A running run has no candidates. -/
theorem not_candidate_of_running (h : LedgerInv contracts s) {runId : Uuid} {run : RunRow}
    (henter : enterRun runId s.db = some run) : ∀ c ∈ s.db.candidates, c.runId ≠ runId := by
  obtain ⟨hrun, hid, hrunning⟩ := enterRun_eq_some henter
  intro c hc heq
  obtain ⟨r, hr, hrid, hterminal⟩ := h.candidates c hc
  have hsame := h.eq_of_runId hr hrun ((hrid.trans heq).trans hid.symm)
  rw [hsame, hrunning] at hterminal
  cases hterminal

/-- One run changed, and with it what hangs on it. -/
theorem update (h : LedgerInv contracts s) {p : RunRow → Bool} {f : RunRow → RunRow}
    {run : RunRow} (hrun : run ∈ s.db.runs) (hstatus : run.status.terminal = false)
    (hp : ∀ r ∈ s.db.runs, p r = true ↔ r = run)
    (hruns : t.db.runs = Rows.updateWhere p f s.db.runs)
    (hid : (f run).runId = run.runId) (hcommand : (f run).commandId = run.commandId)
    (hnext : s.db.nextUuid ≤ t.db.nextUuid) (hinbox : t.db.inbox = s.db.inbox)
    (hbound : ∀ r ∈ t.db.outbox, r.outboxId < t.db.nextUuid ∧ r.messageId < t.db.nextUuid)
    (houtbox : ∀ r ∈ t.db.outbox, r.causationCommandId ∈ s.db.runs.map RunRow.commandId)
    (happlied : ∀ runId, t.appliedTo runId ≠ [] → s.appliedTo runId ≠ [] ∨ runId = run.runId)
    (hcandidates : ∀ c ∈ t.db.candidates, c ∈ s.db.candidates ∨
      c.runId = run.runId ∧ (f run).status.terminal = true)
    (hnew : RunInv contracts t (f run))
    (hother : ∀ r ∈ s.db.runs, r ≠ run → RunInv contracts t r) : LedgerInv contracts t := by
  have hids : t.db.runs.map RunRow.runId = s.db.runs.map RunRow.runId := by
    rw [hruns]
    refine Rows.map_updateWhere _ fun r hr hpr => ?_
    rw [(hp r hr).mp hpr, hid]
  have hcommands : t.db.runs.map RunRow.commandId = s.db.runs.map RunRow.commandId := by
    rw [hruns]
    refine Rows.map_updateWhere _ fun r hr hpr => ?_
    rw [(hp r hr).mp hpr, hcommand]
  have hmem : ∀ r' ∈ t.db.runs, r' = f run ∨ r' ∈ s.db.runs ∧ r' ≠ run := by
    intro r' hr'
    rw [hruns] at hr'
    obtain ⟨r, hr, rfl⟩ := Rows.mem_updateWhere.mp hr'
    by_cases hpr : p r = true
    · rw [if_pos hpr, (hp r hr).mp hpr]
      exact Or.inl rfl
    · rw [if_neg hpr]
      exact Or.inr ⟨hr, fun heq => hpr ((hp r hr).mpr heq)⟩
  have hfrun : f run ∈ t.db.runs := by
    rw [hruns]
    exact Rows.mem_updateWhere_of_pos hrun ((hp run hrun).mpr rfl)
  have hkept : ∀ r ∈ s.db.runs, r ≠ run → r ∈ t.db.runs := by
    intro r hr hne
    rw [hruns]
    exact Rows.mem_updateWhere_of_not hr (Bool.eq_false_iff.mpr fun hpr => hne ((hp r hr).mp hpr))
  refine ⟨hids ▸ h.runIds, ?_, hcommands ▸ h.commandIds, ?_, hbound, ?_, ?_, ?_, ?_⟩
  · intro r' hr'
    refine Nat.lt_of_lt_of_le ?_ hnext
    rcases hmem r' hr' with rfl | ⟨hr, -⟩
    · exact hid ▸ h.runId_lt run hrun
    · exact h.runId_lt r' hr
  · rw [hcommands, hinbox, h.inbox]
  · rw [hcommands]
    exact houtbox
  · intro runId hne
    rcases happlied runId hne with hne | rfl
    · obtain ⟨r, hr, rfl⟩ := h.applied runId hne
      by_cases heq : r = run
      · exact ⟨f run, hfrun, heq ▸ hid⟩
      · exact ⟨r, hkept r hr heq, rfl⟩
    · exact ⟨f run, hfrun, hid⟩
  · intro c hc
    rcases hcandidates c hc with hc | ⟨hcrun, hterminal⟩
    · obtain ⟨r, hr, hrid, hterminal⟩ := h.candidates c hc
      have hne : r ≠ run := by
        rintro rfl
        rw [hstatus] at hterminal
        cases hterminal
      exact ⟨r, hkept r hr hne, hrid, hterminal⟩
    · exact ⟨f run, hfrun, hid.trans hcrun.symm, hterminal⟩
  · intro r' hr'
    rcases hmem r' hr' with rfl | ⟨hr, hne⟩
    · exact hnew
    · exact hother r' hr hne

/-- A claimable run is not over. -/
theorem terminal_of_claimable {run : RunRow} (h : run.claimable now = true) :
    run.status.terminal = false := by
  rw [RunRow.claimable] at h
  cases hstatus : run.status with
  | queued => rfl
  | running => rfl
  | succeeded => simp [hstatus] at h
  | failed => simp [hstatus] at h

/-- A run was leased. -/
theorem leased (h : LedgerInv contracts s) {claimedBy : String} {leaseSeconds : ℤ}
    {run : RunRow} (hrun : run ∈ s.db.runs) (hclaimable : run.claimable now = true)
    (hchecked : (run.claim now claimedBy leaseSeconds).checked = true)
    (hdb : t.db = { s.db with
      runs := Rows.updateWhere (fun r => r.runId == run.runId)
        (RunRow.claim now claimedBy leaseSeconds) s.db.runs })
    (hreturned : t.returned = s.returned) : LedgerInv contracts t := by
  have happlied : ∀ runId, t.appliedTo runId = s.appliedTo runId :=
    Ledger.appliedTo_of_returned (Or.inl hreturned)
  have hstatus := terminal_of_claimable hclaimable
  have hfacts : ∀ c, t.db.facts c = s.db.facts c := fun c => by rw [Db.facts, Db.facts, hdb]
  have houtbox : t.db.outbox = s.db.outbox := by rw [hdb]
  have hnext : t.db.nextUuid = s.db.nextUuid := by rw [hdb]
  refine h.update (f := RunRow.claim now claimedBy leaseSeconds) hrun hstatus ?_
    (by rw [hdb]) rfl rfl (Nat.le_of_eq hnext.symm) (by rw [hdb]) ?_ ?_ ?_ ?_ ?_ ?_
  · intro r hr
    rw [beq_iff_eq]
    exact ⟨h.eq_of_runId hr hrun, congrArg RunRow.runId⟩
  · rw [houtbox, hnext]
    exact h.outbox_lt
  · rw [houtbox]
    exact h.outbox_command
  · intro runId hne
    exact Or.inl (happlied runId ▸ hne)
  · intro c hc
    rw [hdb] at hc
    exact Or.inl hc
  · exact (h.run run hrun).congr hchecked rfl rfl rfl (Or.inr ⟨rfl, hstatus⟩) (happlied _)
      (hfacts _)
  · intro r hr _
    exact (h.run r hr).congr (h.run r hr).checked rfl rfl rfl (Or.inl rfl) (happlied _) (hfacts _)

/-- A run ended. -/
theorem ended (h : LedgerInv contracts s) {call : TerminalCall} {run : RunRow}
    (henter : enterRun call.runId s.db = some run)
    (hended : call.Ended contracts now run s.db t.db)
    (hreturned : t.returned = s.returned ++ [⟨call, now, s.db.nextUuid, true, .ok .applied⟩]) :
    LedgerInv contracts t := by
  obtain ⟨hrun, hid, hrunning⟩ := enterRun_eq_some henter
  have hstatus : run.status.terminal = false := by
    rw [hrunning]
    rfl
  have hcausation : ∀ r ∈ call.factRows contracts now run.context s.db.nextUuid,
      r.causationCommandId = run.commandId := fun r hr => TerminalCall.factRows_causation hr
  have happlied : ∀ runId, t.appliedTo runId = s.appliedTo runId ++
      if call.runId = runId then [⟨call, now, s.db.nextUuid, true, .ok .applied⟩] else [] := by
    intro runId
    rw [Ledger.appliedTo, hreturned, List.filter_append, Ledger.appliedTo]
    by_cases heq : call.runId = runId
    · simp [Returned.applied, heq]
    · simp [Returned.applied, heq]
  refine h.update (f := call.change now) hrun hstatus ?_ hended.runs (call.change_runId now run)
    (call.change_commandId now run) hended.nextUuid hended.inbox ?_ ?_ ?_ ?_ ?_ ?_
  · intro r hr
    constructor
    · intro hpr
      have hrid : r.runId = call.runId := beq_iff_eq.mp (Bool.and_eq_true_iff.mp hpr).1
      exact h.eq_of_runId hr hrun (hrid.trans hid.symm)
    · rintro rfl
      simp [RunRow.isRunning, hid, hrunning]
  · intro r hr
    rw [hended.outbox] at hr
    rcases List.mem_append.mp hr with hr | hr
    · exact ⟨Nat.lt_of_lt_of_le (h.outbox_lt r hr).1 hended.nextUuid,
        Nat.lt_of_lt_of_le (h.outbox_lt r hr).2 hended.nextUuid⟩
    · exact hended.bounded r hr
  · intro r hr
    rw [hended.outbox] at hr
    rcases List.mem_append.mp hr with hr | hr
    · exact h.outbox_command r hr
    · exact hcausation r hr ▸ List.mem_map_of_mem hrun
  · intro runId hne
    by_cases heq : call.runId = runId
    · exact Or.inr (heq.symm.trans hid.symm)
    · rw [happlied, if_neg heq, List.append_nil] at hne
      exact Or.inl hne
  · intro c hc
    obtain ⟨rows, hrows, hrowId⟩ := hended.candidates
    rw [hrows] at hc
    rcases List.mem_append.mp hc with hc | hc
    · exact Or.inl hc
    · refine Or.inr ⟨(hrowId c hc).trans hid.symm, ?_⟩
      rw [call.change_status now run]
      exact call.outcome_terminal
  · -- no call had ended the run before, so this one is the only one
    have hnone : s.appliedTo run.runId = [] := by
      have houtcome := (h.run run hrun).outcome
      rw [hstatus] at houtcome
      exact List.map_eq_nil_iff.mp houtcome
    have hone : t.appliedTo run.runId = [⟨call, now, s.db.nextUuid, true, .ok .applied⟩] := by
      rw [happlied, hnone, if_pos hid.symm, List.nil_append]
    obtain ⟨eventId, hfacts⟩ := (h.run run hrun).facts
    refine ⟨hended.checked, ?_, eventId, ?_⟩
    · rw [call.change_runId, hone, call.change_status, if_pos call.outcome_terminal]
      rfl
    · rw [call.change_runId, hone, call.change_commandId, Db.facts_append hended.outbox hcausation,
        hfacts, hnone, call.change_queuedFact, call.change_context]
      simp [Returned.facts]
  · intro r hr hne
    have hne' : r.runId ≠ run.runId := fun heq => hne (h.eq_of_runId hr hrun heq)
    refine (h.run r hr).congr (h.run r hr).checked rfl rfl rfl (Or.inl rfl) ?_ ?_
    · rw [happlied, if_neg fun heq => hne' (heq.symm.trans hid.symm), List.append_nil]
    · refine Db.facts_append_of_ne hended.outbox hcausation fun heq => hne ?_
      exact Rows.eq_of_key h.commandIds hr hrun heq.symm

/-- A run was queued. -/
theorem queued (h : LedgerInv contracts s) {command : CaptureCommand}
    (hqueued : Queued command now s.db t.db) (hreturned : t.returned = s.returned) :
    LedgerInv contracts t := by
  have happlied : ∀ runId, t.appliedTo runId = s.appliedTo runId :=
    Ledger.appliedTo_of_returned (Or.inl hreturned)
  obtain ⟨source, hchecked, hruns⟩ := hqueued.runs
  have hnext := hqueued.nextUuid
  have hfresh : ∀ r ∈ s.db.runs, r.runId ≠ s.db.nextUuid + 1 := fun r hr hid =>
    absurd (h.runId_lt r hr) (hid ▸ Nat.not_lt.mpr (Nat.le_succ _))
  have hrow : ∀ r ∈ [command.context.reportRow (s.db.nextUuid + 2) (s.db.nextUuid + 3)
      (plainReport command.operationId .queued none) now],
      r.causationCommandId = command.commandId := by
    intro r hr
    obtain rfl := List.mem_singleton.mp hr
    rfl
  refine ⟨?_, ?_, ?_, ?_, ?_, ?_, ?_, ?_, ?_⟩
  · rw [hruns, List.map_append]
    refine h.runIds.append (List.nodup_singleton _) fun i hi hi' => ?_
    obtain ⟨r, hr, rfl⟩ := List.mem_map.mp hi
    exact hfresh r hr (List.mem_singleton.mp hi')
  · intro r hr
    rw [hruns] at hr
    rcases List.mem_append.mp hr with hr | hr
    · exact hnext ▸ Nat.lt_add_right 4 (h.runId_lt r hr)
    · obtain rfl := List.mem_singleton.mp hr
      exact hnext ▸ Nat.add_lt_add_left (by decide : 1 < 4) _
  · rw [hruns, List.map_append]
    refine h.commandIds.append (List.nodup_singleton _) fun i hi hi' => ?_
    obtain ⟨r, hr, rfl⟩ := List.mem_map.mp hi
    exact hqueued.new r hr (List.mem_singleton.mp hi')
  · rw [hqueued.inbox, hruns, List.map_append, List.map_append, h.inbox]
    rfl
  · intro r hr
    rw [hqueued.outbox] at hr
    rcases List.mem_append.mp hr with hr | hr
    · rw [hnext]
      exact ⟨Nat.lt_add_right 4 (h.outbox_lt r hr).1, Nat.lt_add_right 4 (h.outbox_lt r hr).2⟩
    · obtain rfl := List.mem_singleton.mp hr
      rw [hnext]
      exact ⟨Nat.add_lt_add_left (by decide : 3 < 4) _, Nat.add_lt_add_left (by decide : 2 < 4) _⟩
  · intro r hr
    rw [hqueued.outbox] at hr
    rw [hruns, List.map_append]
    rcases List.mem_append.mp hr with hr | hr
    · exact List.mem_append_left _ (h.outbox_command r hr)
    · rw [hrow r hr]
      exact List.mem_append_right _ (List.mem_singleton_self _)
  · intro runId hne
    rw [happlied] at hne
    obtain ⟨r, hr, hid⟩ := h.applied runId hne
    exact ⟨r, hruns ▸ List.mem_append_left _ hr, hid⟩
  · intro c hc
    rw [hqueued.candidates] at hc
    obtain ⟨r, hr, hid⟩ := h.candidates c hc
    exact ⟨r, hruns ▸ List.mem_append_left _ hr, hid⟩
  · intro r hr
    rw [hruns] at hr
    rcases List.mem_append.mp hr with hr | hr
    · exact (h.run r hr).congr (h.run r hr).checked rfl rfl rfl (Or.inl rfl) (happlied _)
        (Db.facts_append_of_ne hqueued.outbox hrow (hqueued.new r hr).symm)
    · obtain rfl := List.mem_singleton.mp hr
      -- no call names the new run, and no fact the new command
      have hnone : t.appliedTo (s.db.nextUuid + 1) = [] := by
        rw [happlied]
        by_contra hne
        obtain ⟨r, hr, hid⟩ := h.applied _ hne
        exact hfresh r hr hid
      have hfacts : s.db.facts command.commandId = [] := by
        rw [Db.facts, List.map_eq_nil_iff, List.filter_eq_nil_iff]
        intro r hr hid
        obtain ⟨r', hr', hcommand⟩ := List.mem_map.mp (h.outbox_command r hr)
        exact hqueued.new r' hr' (hcommand.trans (beq_iff_eq.mp hid))
      refine ⟨hchecked, ?_, s.db.nextUuid + 2, ?_⟩
      · change (t.appliedTo (s.db.nextUuid + 1)).map _ = _
        rw [hnone]
        rfl
      · change t.db.facts command.commandId =
          _ :: (t.appliedTo (s.db.nextUuid + 1)).flatMap _
        rw [hnone, Db.facts_append hqueued.outbox hrow, hfacts]
        rfl

/-- **Every change keeps the invariant.** -/
theorem change {lib : UrlLib} {commands : CommandLib} (h : LedgerInv contracts s)
    (hchange : LedgerChange lib commands contracts s t) : LedgerInv contracts t := by
  cases hchange with
  | queued _ _ hqueued hreturned => exact h.queued hqueued hreturned
  | leased hrun hclaimable hchecked hdb hreturned =>
      exact h.leased hrun hclaimable hchecked hdb hreturned
  | ended henter hended hreturned => exact h.ended henter hended hreturned
  | quiet hquiet hreturned => exact h.quiet hquiet (Ledger.appliedTo_of_returned hreturned)

end LedgerInv

/-- **The invariant holds in every reachable state.** -/
theorem ledgerInv_of_reachable {lib : UrlLib} {commands : CommandLib} {columns : BlobColumns}
    {x : LedgerState lib commands}
    (hx : (ledgerSystem lib commands contracts columns).Reachable x) :
    LedgerInv contracts x.data := by
  refine hx.invariant (I := fun x => LedgerInv contracts x.data) ?_ ?_
  · rintro y ⟨hy, -⟩
    rw [hy]
    exact LedgerInv.of_initial
  · intro y a z hy hinv hst
    rcases ledger_change hy hst with hsame | hchange
    · rw [hsame]
      exact hinv
    · exact hinv.change hchange

end Invariant

/-! ### Reports and documents -/

/-- The status that a report carries. -/
def Fact.reportStatus (f : Fact) : Option OperationStatus :=
  match f.envelope.payload with
  | .operationReported report => if f.subject = reportSubject then some report.status else none
  | .documentExtracted _ => none

/-- The statuses reported for a command, in order. -/
def Db.reports (db : Db) (commandId : Uuid) : List OperationStatus :=
  (db.facts commandId).filterMap Fact.reportStatus

/-- The terminal statuses reported for a command. -/
def Db.terminalReports (db : Db) (commandId : Uuid) : List OperationStatus :=
  (db.reports commandId).filter fun status => status != .queued

/-- The document events of a command. -/
def Db.documents (db : Db) (commandId : Uuid) : List EventEnvelope :=
  ((db.facts commandId).filter fun f => f.subject == documentSubject).map Fact.envelope

/-- What the facts of a run say about its status. For a success the call that ended the run
decides: the document is there, and the report says so, exactly when its envelope has at most
`max_event_bytes`. -/
def Ledger.Reported (contracts : Contracts) (s : Ledger) (r : RunRow) : Prop :=
  match r.status with
  | .queued | .running =>
      s.db.terminalReports r.commandId = [] ∧ s.db.documents r.commandId = []
  | .failed =>
      s.db.terminalReports r.commandId = [.failed] ∧ s.db.documents r.commandId = []
  | .succeeded =>
      ∃ e ∈ s.returned, ∃ run success, e.result = .ok .applied ∧
        e.call = .complete run success ∧ run.runId = r.runId ∧
        let event := documentEvent r.context success.document success.irBlob e.nextUuid e.startedAt
        if contracts.serializedBytes event ≤ run.maxEventBytes then
          s.db.terminalReports r.commandId = [.succeeded] ∧ s.db.documents r.commandId = [event]
        else
          s.db.terminalReports r.commandId = [.partiallySucceeded] ∧
            s.db.documents r.commandId = []

/-- The moves of a run's status. -/
inductive RunStatus.Moves : RunStatus → RunStatus → Prop
  | stay {status : RunStatus} : Moves status status
  | lease : Moves .queued .running
  | succeed : Moves .running .succeeded
  | fail : Moves .running .failed

/-- Every run is kept and its status moves, and what is new is queued. -/
structure RunsMove (db db' : Db) : Prop where
  kept : ∀ r ∈ db.runs, ∃ r' ∈ db'.runs, r'.runId = r.runId ∧ r.status.Moves r'.status
  new : ∀ r' ∈ db'.runs, (∃ r ∈ db.runs, r.runId = r'.runId) ∨ r'.status = .queued

section Statement

variable {contracts : Contracts} {s t : Ledger}

theorem RunsMove.refl (db : Db) : RunsMove db db where
  kept r hr := ⟨r, hr, rfl, .stay⟩
  new r' hr' := Or.inl ⟨r', hr', rfl⟩

/-- An update moves the statuses as its change does. -/
theorem RunsMove.of_update {db db' : Db} {p : RunRow → Bool} {f : RunRow → RunRow}
    (hruns : db'.runs = Rows.updateWhere p f db.runs) (hid : ∀ r, (f r).runId = r.runId)
    (hmoves : ∀ r ∈ db.runs, p r = true → r.status.Moves (f r).status) : RunsMove db db' where
  kept r hr := by
    rw [hruns]
    by_cases hp : p r = true
    · exact ⟨f r, Rows.mem_updateWhere_of_pos hr hp, hid r, hmoves r hr hp⟩
    · exact ⟨r, Rows.mem_updateWhere_of_not hr (Bool.eq_false_iff.mpr hp), rfl, .stay⟩
  new r' hr' := by
    rw [hruns] at hr'
    obtain ⟨r, hr, rfl⟩ := Rows.mem_updateWhere.mp hr'
    refine Or.inl ⟨r, hr, ?_⟩
    split
    · exact (hid r).symm
    · rfl

/-- **A change moves statuses forward only.** -/
theorem LedgerInv.runsMove {lib : UrlLib} {commands : CommandLib} (h : LedgerInv contracts s)
    (hchange : LedgerChange lib commands contracts s t) : RunsMove s.db t.db := by
  cases hchange with
  | queued _ _ hqueued _ =>
      obtain ⟨source, -, hruns⟩ := hqueued.runs
      constructor
      · intro r hr
        exact ⟨r, hruns ▸ List.mem_append_left _ hr, rfl, .stay⟩
      · intro r' hr'
        rw [hruns] at hr'
        rcases List.mem_append.mp hr' with hr' | hr'
        · exact Or.inl ⟨r', hr', rfl⟩
        · obtain rfl := List.mem_singleton.mp hr'
          exact Or.inr rfl
  | leased hrun hclaimable _ hdb _ =>
      refine RunsMove.of_update (congrArg Db.runs hdb) (fun r => rfl) fun r hr hp => ?_
      rw [h.eq_of_runId hr hrun (beq_iff_eq.mp hp)]
      rw [RunRow.claimable, Bool.or_eq_true, Bool.and_eq_true, beq_iff_eq, beq_iff_eq] at hclaimable
      rcases hclaimable with hqueued | ⟨hrunning, -⟩
      · rw [hqueued]
        exact .lease
      · rw [hrunning]
        exact .stay
  | ended henter hended hreturned =>
      rename_i call now run
      refine RunsMove.of_update hended.runs (call.change_runId now) fun r hr hp => ?_
      have hrunning : r.status = .running := beq_iff_eq.mp (Bool.and_eq_true_iff.mp hp).2
      rw [hrunning, call.change_status]
      cases call with
      | complete run success => exact .succeed
      | failRun runId failureClass retryable steps => exact .fail
      | reject runId rejection => exact .fail
  | quiet hquiet _ =>
      constructor
      · intro r hr
        exact ⟨r, hquiet.runs ▸ hr, rfl, .stay⟩
      · intro r' hr'
        exact Or.inl ⟨r', hquiet.runs ▸ hr', rfl⟩

/-- The statuses that a list of facts reports, and the documents in it. -/
def factSummary (facts : List Fact) : List OperationStatus × List EventEnvelope :=
  (facts.filterMap Fact.reportStatus,
    (facts.filter fun f => f.subject == documentSubject).map Fact.envelope)

/-- A call that fails its run reports the failure, and no document. -/
theorem Returned.summary_failed {e : Returned} {context : CompletionContext}
    (h : e.call.outcome = .failed) : factSummary (e.facts contracts context) = ([.failed], []) := by
  rw [Returned.facts]
  cases hcall : e.call with
  | failRun runId failureClass retryable steps => rfl
  | reject runId rejection => rfl
  | complete run success =>
      rw [hcall] at h
      cases h

/-- A call that completes its run reports the success, in full exactly when its document fits. -/
theorem Returned.summary_complete {e : Returned} {context : CompletionContext} {run : QueuedRun}
    {success : Success} (h : e.call = .complete run success) :
    factSummary (e.facts contracts context) =
      if contracts.serializedBytes (documentEvent context success.document success.irBlob
          e.nextUuid e.startedAt) ≤ run.maxEventBytes then
        ([.succeeded],
          [documentEvent context success.document success.irBlob e.nextUuid e.startedAt])
      else ([.partiallySucceeded], []) := by
  rw [Returned.facts, h, TerminalCall.factRows, documentFits]
  split
  · next hfits =>
      rw [decide_eq_true hfits]
      rfl
  · next hfits =>
      rw [decide_eq_false hfits]
      rfl

/-- The terminal facts of a run are those of the calls that ended it. -/
theorem RunInv.summary {r : RunRow} (h : RunInv contracts s r) :
    s.db.reports r.commandId = .queued ::
        (factSummary ((s.appliedTo r.runId).flatMap (Returned.facts contracts r.context))).1 ∧
      s.db.documents r.commandId =
        (factSummary ((s.appliedTo r.runId).flatMap (Returned.facts contracts r.context))).2 := by
  obtain ⟨eventId, hfacts⟩ := h.facts
  constructor
  · rw [Db.reports, hfacts]
    rfl
  · rw [Db.documents, hfacts]
    rfl

/-- A run that is not over has been ended by no call. -/
theorem RunInv.appliedTo_eq_nil {r : RunRow} (h : RunInv contracts s r)
    (hstatus : r.status.terminal = false) : s.appliedTo r.runId = [] := by
  have houtcome := h.outcome
  rw [hstatus] at houtcome
  exact List.map_eq_nil_iff.mp houtcome

/-- A run that is over has been ended by one call, with its status. -/
theorem RunInv.appliedTo_eq_singleton {r : RunRow} (h : RunInv contracts s r)
    (hstatus : r.status.terminal = true) :
    ∃ e, s.appliedTo r.runId = [e] ∧ e.call.outcome = r.status := by
  have houtcome := h.outcome
  rw [if_pos hstatus] at houtcome
  obtain ⟨e, he, hstatus⟩ := List.map_eq_singleton_iff.mp houtcome
  exact ⟨e, he, hstatus⟩

/-- A run has one queued report. -/
theorem RunInv.count_queued {r : RunRow} (h : RunInv contracts s r) :
    (s.db.reports r.commandId).count .queued = 1 := by
  rw [h.summary.1, List.count_cons_self]
  cases hstatus : r.status.terminal with
  | false =>
      rw [h.appliedTo_eq_nil hstatus]
      rfl
  | true =>
      obtain ⟨e, he, -⟩ := h.appliedTo_eq_singleton hstatus
      rw [he, List.flatMap_singleton]
      cases hcall : e.call with
      | failRun runId failureClass retryable steps =>
          rw [Returned.summary_failed (by rw [hcall]; rfl)]
          rfl
      | reject runId rejection =>
          rw [Returned.summary_failed (by rw [hcall]; rfl)]
          rfl
      | complete run success =>
          rw [Returned.summary_complete hcall]
          split <;> rfl

/-- **The facts of a run match its status.** -/
theorem RunInv.reported {r : RunRow} (h : RunInv contracts s r) : s.Reported contracts r := by
  obtain ⟨hreports, hdocuments⟩ := h.summary
  rw [Ledger.Reported, Db.terminalReports, hreports, hdocuments]
  cases hstatus : r.status with
  | queued =>
      rw [h.appliedTo_eq_nil (by rw [hstatus]; rfl)]
      exact ⟨rfl, rfl⟩
  | running =>
      rw [h.appliedTo_eq_nil (by rw [hstatus]; rfl)]
      exact ⟨rfl, rfl⟩
  | failed =>
      obtain ⟨e, he, houtcome⟩ := h.appliedTo_eq_singleton (by rw [hstatus]; rfl)
      rw [he, List.flatMap_singleton, Returned.summary_failed (houtcome.trans hstatus)]
      exact ⟨rfl, rfl⟩
  | succeeded =>
      obtain ⟨e, he, houtcome⟩ := h.appliedTo_eq_singleton (by rw [hstatus]; rfl)
      have hmem : e ∈ s.appliedTo r.runId := he ▸ List.mem_singleton_self e
      obtain ⟨hreturned, hcond⟩ := List.mem_filter.mp hmem
      obtain ⟨happlied, hid⟩ := Bool.and_eq_true_iff.mp hcond
      rw [hstatus] at houtcome
      cases hcall : e.call with
      | failRun runId failureClass retryable steps =>
          rw [hcall] at houtcome
          cases houtcome
      | reject runId rejection =>
          rw [hcall] at houtcome
          cases houtcome
      | complete run success =>
          rw [hcall] at hid
          refine ⟨e, hreturned, run, success, Returned.applied_iff.mp happlied, hcall,
            beq_iff_eq.mp hid, ?_⟩
          rw [he, List.flatMap_singleton, Returned.summary_complete hcall]
          intro event
          split
          · exact ⟨rfl, rfl⟩
          · exact ⟨rfl, rfl⟩

/-- **The run ledger invariant.** In every reachable state each applied command has exactly one
run and one queued report, and the facts of every run match its status; and every step moves
statuses forward only. -/
theorem run_ledger_invariant {lib : UrlLib} {commands : CommandLib} {columns : BlobColumns}
    {x : LedgerState lib commands}
    (hx : (ledgerSystem lib commands contracts columns).Reachable x) :
    (∀ i ∈ x.data.db.inbox, i.outcome = some .applied →
      (x.data.db.runs.countP fun r => r.commandId == i.commandId) = 1 ∧
        (x.data.db.reports i.commandId).count .queued = 1) ∧
    (∀ r ∈ x.data.db.runs, x.data.Reported contracts r) ∧
    ∀ a y, (ledgerSystem lib commands contracts columns).step x a y →
      RunsMove x.data.db y.data.db := by
  have hinv := ledgerInv_of_reachable hx
  refine ⟨?_, fun r hr => (hinv.run r hr).reported, ?_⟩
  · intro i hi _
    have hmem : i.commandId ∈ x.data.db.runs.map RunRow.commandId :=
      hinv.inbox ▸ List.mem_map_of_mem hi
    refine ⟨?_, ?_⟩
    · have hcount := List.count_eq_one_of_mem hinv.commandIds hmem
      rw [List.count, List.countP_map] at hcount
      exact hcount
    · obtain ⟨r, hr, hid⟩ := List.mem_map.mp hmem
      rw [← hid]
      exact (hinv.run r hr).count_queued
  · intro a y hst
    rcases ledger_change hx hst with hsame | hchange
    · rw [hsame]
      exact RunsMove.refl _
    · exact hinv.runsMove hchange

end Statement

/-! ### One run -/

/-- A digest. -/
def exampleHex : String := "0000000000000000000000000000000000000000000000000000000000000000"

/-- A stored blob. -/
def exampleBlob : BlobRef := ⟨producer, ⟨.sha256, exampleHex⟩, "application/pdf", 1⟩

/-- The envelope of a command that captures the blob. -/
def exampleEnvelope : CommandEnvelope where
  commandId := 1
  commandType := captureCommandType
  producer := "ratatoskr-platform"
  tenantId := some 2
  aggregateId := .operation 3
  correlationId := "c"
  issuedAt := 0
  request := some ⟨3, none, some exampleBlob, "k"⟩

/-- The decoding of this one command. -/
def exampleCommands : CommandLib := ⟨fun _ => some exampleEnvelope⟩

/-- The command. -/
def exampleCommand : CaptureCommand :=
  ⟨1, 3, "ratatoskr-platform", 2, "c", "k", 0, .blob exampleBlob⟩

/-- Its delivery. -/
def exampleDelivery : Delivery exampleLib exampleCommands :=
  ⟨captureSubject, [], exampleCommand, rfl⟩

/-- Contracts that accept everything, with envelopes of 100 bytes. -/
def exampleContracts : Contracts :=
  ⟨fun _ => true, fun _ => true, fun _ => true, fun _ => true, fun _ => 100⟩

/-- Columns that parse. -/
def exampleColumns : BlobColumns := ⟨fun _ => true, fun _ => true, fun _ => true⟩

/-- The run of the command. -/
def exampleRun : RunRow :=
  queuedRow 1 exampleCommand
    ⟨0, some ⟨producer, "application/pdf", 1⟩, "peer-blob-v1", "blob-v1", "pdf-v1"⟩ 0

/-- The ledger after intake. -/
def exampleQueued : Ledger where
  db :=
    { Db.empty with
      nextUuid := 4
      sources := [⟨0, 2, "urn:ratatoskr:blob:sha256:" ++ exampleHex,
        "urn:ratatoskr:blob:sha256:" ++ exampleHex, "urn:ratatoskr:blob:sha256:" ++ exampleHex,
        "ratatoskr-telegram", "blob", 0, .blob, some exampleHex⟩]
      inbox := [appliedRow exampleCommand 0]
      runs := [exampleRun]
      outbox := [exampleCommand.context.reportRow 2 3 (plainReport 3 .queued none) 0] }
  pending := []
  returned := []

/-- The ledger once the run is leased. -/
def exampleRunning : Ledger :=
  { exampleQueued with
    db := { exampleQueued.db with runs := [exampleRun.claim 0 "worker" 60] } }

/-- A document without text. -/
def exampleDocument : Document :=
  ⟨9, "urn:blob", ⟨.sha256, exampleHex⟩, none, none, [], []⟩

/-- A selected candidate. -/
def exampleCandidate : CandidateDecision :=
  ⟨"pdf_text", [], "quality-v1", ⟨0, 0, 0, 0, 0, 0, 0⟩, 0, true, [.accepted], true⟩

/-- The completion of the run. -/
def exampleCompletion : TerminalCall :=
  .complete ⟨1, 2, "urn:blob", "blob", none, 1000⟩
    ⟨exampleDocument, exampleBlob, exampleBlob, none, [exampleCandidate], []⟩

theorem exampleQueued_eq :
    (LedgerTx.intake exampleDelivery 0).effect exampleLib exampleCommands exampleContracts
      .newCommand Ledger.initial = exampleQueued := by
  rfl

theorem exampleRunning_eq :
    { exampleQueued with
      db := (claimQueuedRun exampleColumns 0 "worker" 60 1000 [] exampleQueued.db).2 } =
      exampleRunning := by
  rfl

/-- The run can be leased. -/
theorem exampleRunning_reachable
    (cond : LedgerState exampleLib exampleCommands →
      LedgerLabel exampleLib exampleCommands → Prop)
    (hintake : ∀ s, cond s (.enter (.intake exampleDelivery 0)))
    (hcommit : ∀ s k, cond s (.commit k))
    (hclaim : ∀ s, cond s (.act (.claim 0 "worker" 60 1000 []))) :
    ((ledgerSystem exampleLib exampleCommands exampleContracts exampleColumns).restrict
      cond).Reachable (Locking.State.free exampleRunning) := by
  have hinit : ((ledgerSystem exampleLib exampleCommands exampleContracts exampleColumns).restrict
      cond).Reachable (Locking.State.free Ledger.initial) :=
    Labelled.System.Reachable.init ⟨rfl, fun _ => rfl⟩
  have hqueued := Locking.Protocol.reachable_transaction (x := LedgerTx.intake exampleDelivery 0)
    (c := .newCommand) hinit rfl (hintake _) hcommit
  rw [show (ledgerProtocol exampleLib exampleCommands exampleContracts exampleColumns).effect
    (LedgerTx.intake exampleDelivery 0) .newCommand Ledger.initial = exampleQueued from
      exampleQueued_eq] at hqueued
  have hstatement : LedgerStatement exampleLib exampleCommands exampleContracts exampleColumns
      (.claim 0 "worker" 60 1000 [])
      (Locking.Protocol.Locked
        (Locking.State.free exampleQueued : LedgerState exampleLib exampleCommands))
      exampleQueued exampleRunning :=
    exampleRunning_eq ▸ LedgerStatement.claim fun runId hlocked => absurd rfl hlocked
  exact Locking.Protocol.reachable_act hqueued hstatement (hclaim _)

/-- The completion has well-formed arguments. -/
theorem exampleCompletion_wellFormed : exampleCompletion.WellFormed exampleContracts 0 := by
  refine ⟨rfl, ⟨rfl, rfl, ?_, fun _ _ => ⟨rfl, rfl⟩⟩, ?_, ?_, ?_, ⟨?_, ?_⟩, ?_⟩
  · decide
  · intro f hf
    cases hf
  · decide
  · decide
  · intro c hc
    obtain rfl := List.mem_singleton.mp hc
    decide
  · exact List.pairwise_singleton _ _
  · intro step hstep
    cases hstep

/-- The leased run can be ended by any well-formed call. -/
theorem exampleEnded_reachable
    (cond : LedgerState exampleLib exampleCommands →
      LedgerLabel exampleLib exampleCommands → Prop)
    (hintake : ∀ s, cond s (.enter (.intake exampleDelivery 0)))
    (hcommit : ∀ s k, cond s (.commit k))
    (hclaim : ∀ s, cond s (.act (.claim 0 "worker" 60 1000 []))) {call : TerminalCall}
    (hwell : call.WellFormed exampleContracts 0) (hid : call.runId = 1)
    (hcall : ∀ s, cond s (.enter (.terminal call 0))) :
    ∃ db : Db, db.runs = [call.change 0 (exampleRun.claim 0 "worker" 60)] ∧
      ((ledgerSystem exampleLib exampleCommands exampleContracts exampleColumns).restrict
        cond).Reachable (Locking.State.free ⟨db, [], [⟨call, 0, 4, true, .ok .applied⟩]⟩) := by
  have hrunning := exampleRunning_reachable cond hintake hcommit hclaim
  have hinv := ledgerInv_of_reachable hrunning.of_restrict
  have henter : enterRun call.runId exampleRunning.db = some (exampleRun.claim 0 "worker" 60) := by
    rw [hid]
    rfl
  obtain ⟨db, hok⟩ := TerminalCall.commit_ok hwell henter
    (hinv.run _ (List.mem_singleton_self _)).checked rfl hinv.outbox_lt
    fun c hc => absurd hc List.not_mem_nil
  have hfound : (LedgerTx.terminal call 0).enter exampleLib exampleCommands exampleRunning =
      some (.running (exampleRun.claim 0 "worker" 60)) :=
    LedgerTx.enter_terminal_eq.mpr ⟨hwell.1, _, henter, rfl⟩
  have hdone := Locking.Protocol.reachable_transaction (x := LedgerTx.terminal call 0) hrunning
    hfound (hcall _) hcommit
  refine ⟨db, ?_, ?_⟩
  · rw [(TerminalCall.commit_eq_ok hok).runs, hid]
    rfl
  · change Labelled.System.Reachable _
      (Locking.State.free (exampleRunning.finish exampleContracts 0 call _)) at hdone
    rw [Ledger.finish_eq_of_ok hok] at hdone
    exact hdone

/-- A run that is leased and completed: its facts are those of a success. -/
theorem run_ledger_invariant_succeeded : ∃ x,
    (ledgerSystem exampleLib exampleCommands exampleContracts exampleColumns).Reachable x ∧
      ∃ r ∈ x.data.db.runs, r.status = .succeeded ∧ x.data.Reported exampleContracts r := by
  obtain ⟨db, hruns, hx⟩ := exampleEnded_reachable (fun _ _ => True) (fun _ => trivial)
    (fun _ _ => trivial) (fun _ => trivial) exampleCompletion_wellFormed rfl fun _ => trivial
  have hmem : exampleCompletion.change 0 (exampleRun.claim 0 "worker" 60) ∈ db.runs :=
    hruns ▸ List.mem_singleton_self _
  exact ⟨_, hx.of_restrict, _, hmem, rfl, (run_ledger_invariant hx.of_restrict).2.1 _ hmem⟩

end Extractor
