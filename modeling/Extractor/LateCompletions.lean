import Extractor.RunLedger

/-!
# Late terminal calls

Several workers may execute one run, because its lease expired and it was leased again; each of
them ends with a terminal call. One of these calls ends the run. What the others get depends on
the call and on what they find: `fail_run` and `reject` return `Duplicate` whenever their update
matches no row, also for a run that is absent or still queued; `complete` reads the status again
and returns an error unless the run has succeeded.

## Main results

* `late_calls_duplicate`: where no completion finds a failed run, and no failure or rejection a
  run that is absent or queued, exactly one call is applied and every other is a duplicate.
* `late_completion_refused`: a completion that finds its run failed returns an error.
-/

namespace Extractor

variable {lib : UrlLib} {commands : CommandLib} {contracts : Contracts} {columns : BlobColumns}

/-- The run exists and is over. -/
def Db.Over (db : Db) (runId : Uuid) : Prop :=
  ∃ r ∈ db.runs, r.runId = runId ∧ r.status.terminal = true

/-- The run exists and has this status. -/
def Db.HasStatus (db : Db) (runId : Uuid) (status : RunStatus) : Prop :=
  ∃ r ∈ db.runs, r.runId = runId ∧ r.status = status

/-! ### The condition -/

/-- Every terminal call has well-formed arguments. -/
def LedgerLabel.WellFormed (contracts : Contracts) : LedgerLabel lib commands → Prop
  | .enter (.terminal call now) => call.WellFormed contracts now
  | .act (.miss call now) => call.WellFormed contracts now
  | .act (.refuse call now) => call.WellFormed contracts now
  | _ => True

/-- A call whose update matches no row finds what it expects: a completion finds no failed run,
a failure or rejection finds a run that is over. -/
def TerminalCall.FindsExpected (db : Db) : TerminalCall → Prop
  | .complete run _ => ¬ db.HasStatus run.runId .failed
  | .failRun runId _ _ _ => db.Over runId
  | .reject runId _ => db.Over runId

/-- The condition on a step. -/
def LateCondition (contracts : Contracts) (x : LedgerState lib commands)
    (a : LedgerLabel lib commands) : Prop :=
  a.WellFormed contracts ∧
    ∀ call now, a = .act (.miss call now) → call.FindsExpected x.data.db

/-! ### The invariant -/

/-- What holds of a call between its two statements. -/
def Missed.Inv (db : Db) (m : Missed) : Prop :=
  match m.call with
  | .complete run _ => m.executed = true → db.HasStatus run.runId .succeeded
  | .failRun runId _ _ _ => db.Over runId
  | .reject runId _ => db.Over runId

/-- What holds of a call that returned. -/
structure Returned.Inv (db : Db) (e : Returned) : Prop where
  result : e.executed = true → e.result = .ok .applied ∨ e.result = .ok .duplicate
  ended : e.executed = true ∨ e.result = .ok .duplicate → db.Over e.call.runId

/-- What holds along the runs whose steps meet the condition. -/
structure LateInv (contracts : Contracts) (x : LedgerState lib commands) : Prop where
  correlation : ∀ r ∈ x.data.db.runs, contracts.entityRefIsValid r.correlationId = true
  held : ∀ k call now c, x.held k = some (.terminal call now, c) → call.WellFormed contracts now
  pending : ∀ m ∈ x.data.pending, m.Inv x.data.db
  returned : ∀ e ∈ x.data.returned, e.Inv x.data.db

/-! ### What moves keep -/

theorem RunStatus.Moves.eq_of_terminal {a b : RunStatus} (h : a.Moves b)
    (ha : a.terminal = true) : b = a := by
  cases h with
  | stay => rfl
  | lease => cases ha
  | succeed => cases ha
  | fail => cases ha

theorem RunsMove.ended {db db' : Db} (h : RunsMove db db') {runId : Uuid} (hover : db.Over runId) :
    db'.Over runId := by
  obtain ⟨r, hr, hid, hterminal⟩ := hover
  obtain ⟨r', hr', hid', hmoves⟩ := h.kept r hr
  exact ⟨r', hr', hid'.trans hid, hmoves.eq_of_terminal hterminal ▸ hterminal⟩

theorem RunsMove.hasStatus {db db' : Db} (h : RunsMove db db') {runId : Uuid}
    {status : RunStatus} (hterminal : status.terminal = true) (hhas : db.HasStatus runId status) :
    db'.HasStatus runId status := by
  obtain ⟨r, hr, hid, rfl⟩ := hhas
  obtain ⟨r', hr', hid', hmoves⟩ := h.kept r hr
  exact ⟨r', hr', hid'.trans hid, hmoves.eq_of_terminal hterminal⟩

theorem RunsMove.missedInv {db db' : Db} (h : RunsMove db db') {m : Missed} (hm : m.Inv db) :
    m.Inv db' := by
  unfold Missed.Inv at hm ⊢
  split at hm
  · exact fun hexecuted => h.hasStatus rfl (hm hexecuted)
  · exact h.ended hm
  · exact h.ended hm

theorem RunsMove.returnedInv {db db' : Db} (h : RunsMove db db') {e : Returned} (he : e.Inv db) :
    e.Inv db' where
  result := he.result
  ended hcase := h.ended (he.ended hcase)

/-! ### Answers -/

section Answers

variable {s : Ledger}

/-- A leased run that is not running is over. -/
theorem over_of_executed {db : Db} {runId : Uuid} (hexecuted : db.executed runId = true)
    (hmiss : enterRun runId db = none) : db.Over runId := by
  obtain ⟨r, hr, hcond⟩ := List.any_eq_true.mp hexecuted
  obtain ⟨hid, hstatus⟩ := Bool.and_eq_true_iff.mp hcond
  have hnot : ¬ RunRow.isRunning runId r = true := List.find?_eq_none.mp hmiss r hr
  refine ⟨r, hr, beq_iff_eq.mp hid, ?_⟩
  cases hs : r.status with
  | queued => simp [hs] at hstatus
  | running => exact absurd (by simp [RunRow.isRunning, hs, beq_iff_eq.mp hid]) hnot
  | succeeded => rfl
  | failed => rfl

/-- A call that finds what it expects keeps the invariant while it waits. -/
theorem missedInv_of_expected {call : TerminalCall} {now : Timestamp} {db : Db}
    (hmiss : enterRun call.runId db = none) (hexpected : call.FindsExpected db) :
    Missed.Inv db ⟨call, now, db.executed call.runId⟩ := by
  cases call with
  | failRun runId failureClass retryable steps => exact hexpected
  | reject runId rejection => exact hexpected
  | complete run success =>
      intro hexecuted
      obtain ⟨r, hr, hid, hterminal⟩ := over_of_executed hexecuted hmiss
      refine ⟨r, hr, hid, ?_⟩
      cases hs : r.status with
      | queued => rw [hs] at hterminal; cases hterminal
      | running => rw [hs] at hterminal; cases hterminal
      | succeeded => rfl
      | failed => exact absurd ⟨r, hr, hid, hs⟩ hexpected

/-- The status that a completion reads is the status of the run. -/
theorem LedgerInv.find_status (h : LedgerInv contracts s) {runId : Uuid} {status : RunStatus}
    (hhas : s.db.HasStatus runId status) :
    (s.db.runs.find? fun r => r.runId == runId).map RunRow.status = some status := by
  obtain ⟨r, hr, rfl, rfl⟩ := hhas
  rw [Rows.find?_key h.runIds hr]
  rfl

/-- What a call returns once it has missed its row. -/
theorem LedgerInv.returnedInv_answer (h : LedgerInv contracts s) {m : Missed}
    (hm : m.Inv s.db) {nextUuid : Uuid} :
    Returned.Inv s.db ⟨m.call, m.startedAt, nextUuid, m.executed, m.call.missed s.db⟩ := by
  unfold Missed.Inv at hm
  cases hcall : m.call with
  | failRun runId failureClass retryable steps =>
      rw [hcall] at hm
      exact ⟨fun _ => Or.inr rfl, fun _ => hm⟩
  | reject runId rejection =>
      rw [hcall] at hm
      exact ⟨fun _ => Or.inr rfl, fun _ => hm⟩
  | complete run success =>
      rw [hcall] at hm
      have hover : ∀ {status}, status.terminal = true → s.db.HasStatus run.runId status →
          s.db.Over run.runId := by
        rintro status hterminal ⟨r, hr, hid, rfl⟩
        exact ⟨r, hr, hid, hterminal⟩
      constructor
      · intro hexecuted
        refine Or.inr ?_
        rw [TerminalCall.missed, h.find_status (hm hexecuted)]
      · rintro (hexecuted | hduplicate)
        · exact hover rfl (hm hexecuted)
        · rw [TerminalCall.missed] at hduplicate
          split at hduplicate
          · next hstatus =>
              obtain ⟨r, hfind, hr⟩ := Option.map_eq_some_iff.mp hstatus
              obtain ⟨hmem, hid⟩ := Rows.mem_of_find?_key hfind
              exact hover rfl ⟨r, hmem, hid, hr⟩
          · cases hduplicate

end Answers

/-! ### Correlations -/

/-- What the contract crates guarantee of a decoded envelope: its correlation is an identity
that they parse again. -/
def CorrelationsParse (commands : CommandLib) (contracts : Contracts) : Prop :=
  ∀ payload envelope, commands.fromJson payload = some envelope →
    contracts.entityRefIsValid envelope.correlationId = true

/-- A decoded command carries the correlation of its envelope. -/
theorem decodeCapture_correlation (hparse : CorrelationsParse commands contracts)
    {subject : String} {payload : List UInt8} {command : CaptureCommand}
    (h : decodeCapture lib commands subject payload = .ok command) :
    contracts.entityRefIsValid command.correlationId = true := by
  simp only [decodeCapture, Except.bind_eq_ok_iff, Except.require_eq_ok_iff,
    Except.okOr_eq_ok_iff] at h
  obtain ⟨_, -, envelope, henvelope, _, -, _, -, _, -, _, -, _, -, _, -, hcommand⟩ := h
  obtain rfl := Except.ok.inj hcommand
  exact hparse payload envelope henvelope

/-- Every change keeps the correlations of the runs valid. -/
theorem correlation_of_change (hparse : CorrelationsParse commands contracts) {s t : Ledger}
    (h : ∀ r ∈ s.db.runs, contracts.entityRefIsValid r.correlationId = true)
    (hchange : LedgerChange lib commands contracts s t) :
    ∀ r ∈ t.db.runs, contracts.entityRefIsValid r.correlationId = true := by
  intro r hr
  cases hchange with
  | queued hdecoded _ hqueued _ =>
      obtain ⟨source, -, hruns⟩ := hqueued.runs
      rw [hruns] at hr
      rcases List.mem_append.mp hr with hr | hr
      · exact h r hr
      · obtain rfl := List.mem_singleton.mp hr
        exact decodeCapture_correlation hparse hdecoded
  | leased _ _ _ hdb _ =>
      rw [hdb] at hr
      obtain ⟨r₀, hr₀, rfl⟩ := Rows.mem_updateWhere.mp hr
      split
      · exact h r₀ hr₀
      · exact h r₀ hr₀
  | ended henter hended hreturned =>
      rename_i call now run
      rw [hended.runs] at hr
      obtain ⟨r₀, hr₀, rfl⟩ := Rows.mem_updateWhere.mp hr
      split
      · have hcontext : (call.change now r₀).correlationId = r₀.correlationId :=
          congrArg CompletionContext.correlation (call.change_context now r₀)
        rw [hcontext]
        exact h r₀ hr₀
      · exact h r₀ hr₀
  | quiet hquiet _ => exact h r (hquiet.runs ▸ hr)

/-! ### Steps -/

section Steps

variable {x y : LedgerState lib commands} {a : LedgerLabel lib commands}

/-- The runs of a reachable state move forward. -/
theorem ledger_runsMove (hx : (ledgerSystem lib commands contracts columns).Reachable x)
    (hst : (ledgerSystem lib commands contracts columns).step x a y) :
    RunsMove x.data.db y.data.db := by
  rcases ledger_change hx hst with hsame | hchange
  · rw [hsame]
    exact RunsMove.refl _
  · exact (ledgerInv_of_reachable hx).runsMove hchange

/-- A well-formed call that holds its run is applied. -/
theorem LateInv.finish (h : LateInv contracts x) (hinv : LedgerInv contracts x.data)
    {call : TerminalCall} {now : Timestamp} {run : RunRow}
    (hwell : call.WellFormed contracts now) (henter : enterRun call.runId x.data.db = some run) :
    ∃ db, x.data.finish contracts now call run =
        { x.data with
          db := db
          returned := x.data.returned ++
            [⟨call, now, x.data.db.nextUuid, true, .ok .applied⟩] } ∧
      db.Over call.runId := by
  obtain ⟨hrun, hid, -⟩ := enterRun_eq_some henter
  obtain ⟨db, hcommit⟩ := TerminalCall.commit_ok hwell henter (hinv.run run hrun).checked
    (h.correlation run hrun) hinv.outbox_lt (hinv.not_candidate_of_running henter)
  refine ⟨db, Ledger.finish_eq_of_ok hcommit, ?_⟩
  · have hended := TerminalCall.commit_eq_ok hcommit
    refine ⟨call.change now run, ?_, (call.change_runId now run).trans hid, ?_⟩
    · rw [hended.runs]
      exact Rows.mem_updateWhere_of_pos hrun (List.find?_some henter)
    · rw [call.change_status]
      exact call.outcome_terminal

/-- A step adds calls that keep the invariant. -/
theorem LateInv.step_calls (h : LateInv contracts x)
    (hx : (ledgerSystem lib commands contracts columns).Reachable x)
    (hst : (ledgerSystem lib commands contracts columns).step x a y)
    (hcond : LateCondition contracts x a) :
    (∀ m ∈ y.data.pending, m ∈ x.data.pending ∨ m.Inv y.data.db) ∧
      ∀ e ∈ y.data.returned, e ∈ x.data.returned ∨ e.Inv y.data.db := by
  have hinv := ledgerInv_of_reachable hx
  cases hst with
  | enter hfree henter => exact ⟨fun m hm => Or.inl hm, fun e he => Or.inl he⟩
  | abort => exact ⟨fun m hm => Or.inl hm, fun e he => Or.inl he⟩
  | commit hheld =>
      rename_i k t c
      have henter := (Locking.Protocol.held_enter ledger_stable hx k t c hheld).2
      cases t with
      | intake delivery now => exact ⟨fun m hm => Or.inl hm, fun e he => Or.inl he⟩
      | terminal call now =>
          change (LedgerTx.terminal call now).enter lib commands x.data = some c at henter
          obtain ⟨-, run, hrun, rfl⟩ := LedgerTx.enter_terminal_eq.mp henter
          obtain ⟨db, hfinish, hover⟩ := h.finish hinv (h.held _ _ _ _ hheld) hrun
          change (∀ m ∈ (x.data.finish contracts now call run).pending, _) ∧
            ∀ e ∈ (x.data.finish contracts now call run).returned, _ ∨
              e.Inv (x.data.finish contracts now call run).db
          rw [hfinish]
          refine ⟨fun m hm => Or.inl hm, fun e he => ?_⟩
          rcases List.mem_append.mp he with he | he
          · exact Or.inl he
          · obtain rfl := List.mem_singleton.mp he
            exact Or.inr ⟨fun _ => Or.inl rfl, fun _ => hover⟩
  | act hact =>
      cases hact with
      | redeliver hknown => exact ⟨fun m hm => Or.inl hm, fun e he => Or.inl he⟩
      | claim hskipped => exact ⟨fun m hm => Or.inl hm, fun e he => Or.inl he⟩
      | refuse hprecheck =>
          have hok := hcond.1.1
          rw [hprecheck] at hok
          cases hok
      | miss hprecheck hmiss =>
          refine ⟨fun m hm => ?_, fun e he => Or.inl he⟩
          rcases List.mem_append.mp hm with hm | hm
          · exact Or.inl hm
          · obtain rfl := List.mem_singleton.mp hm
            exact Or.inr (missedInv_of_expected hmiss (hcond.2 _ _ rfl))
      | answer hpending =>
          refine ⟨fun m hm => Or.inl (List.mem_of_mem_erase hm), fun e he => ?_⟩
          rcases List.mem_append.mp he with he | he
          · exact Or.inl he
          · obtain rfl := List.mem_singleton.mp he
            exact Or.inr (hinv.returnedInv_answer (h.pending _ hpending))
      | recordFetch => exact ⟨fun m hm => Or.inl hm, fun e he => Or.inl he⟩
      | relayClaim hclaim => exact ⟨fun m hm => Or.inl hm, fun e he => Or.inl he⟩
      | relayRecord hrecord => exact ⟨fun m hm => Or.inl hm, fun e he => Or.inl he⟩

/-- A step lets only well-formed calls take a lock. -/
theorem LateInv.step_held (h : LateInv contracts x)
    (hst : (ledgerSystem lib commands contracts columns).step x a y)
    (hwell : a.WellFormed contracts) {k : LedgerKey} {call : TerminalCall} {now : Timestamp}
    {c : Found} (hk : y.held k = some (.terminal call now, c)) :
    call.WellFormed contracts now := by
  cases hst with
  | enter hfree henter =>
      rename_i t c'
      change Function.update x.held _ _ k = _ at hk
      by_cases hkey : k = (ledgerProtocol lib commands contracts columns).key t
      · subst hkey
        rw [Function.update_self] at hk
        obtain ⟨rfl, -⟩ := Prod.mk.inj (Option.some.inj hk)
        exact hwell
      · rw [Function.update_of_ne hkey] at hk
        exact h.held _ _ _ _ hk
  | commit hheld =>
      rename_i k' t c'
      change Function.update x.held k' none k = _ at hk
      exact h.held k call now c (Locking.update_none_eq_some hk)
  | abort =>
      rename_i k'
      change Function.update x.held k' none k = _ at hk
      exact h.held k call now c (Locking.update_none_eq_some hk)
  | act hact => exact h.held _ _ _ _ hk

/-- **Every step that meets the condition keeps the invariant.** -/
theorem LateInv.step (hparse : CorrelationsParse commands contracts) (h : LateInv contracts x)
    (hx : (ledgerSystem lib commands contracts columns).Reachable x)
    (hst : (ledgerSystem lib commands contracts columns).step x a y)
    (hcond : LateCondition contracts x a) : LateInv contracts y := by
  have hmove := ledger_runsMove hx hst
  obtain ⟨hpending, hreturned⟩ := h.step_calls hx hst hcond
  refine ⟨?_, fun k call now c hk => h.step_held hst hcond.1 hk, fun m hm => ?_, fun e he => ?_⟩
  · rcases ledger_change hx hst with hsame | hchange
    · rw [hsame]
      exact h.correlation
    · exact correlation_of_change hparse h.correlation hchange
  · rcases hpending m hm with hm | hm
    · exact hmove.missedInv (h.pending m hm)
    · exact hm
  · rcases hreturned e he with he | he
    · exact hmove.returnedInv (h.returned e he)
    · exact he

end Steps

/-- The invariant holds along the runs whose steps meet the condition. -/
theorem lateInv_of_reachable (hparse : CorrelationsParse commands contracts)
    {x : LedgerState lib commands}
    (hx : ((ledgerSystem lib commands contracts columns).restrict
      (LateCondition contracts)).Reachable x) : LateInv contracts x := by
  refine hx.invariant ?_ fun y a z hy hinv hst => hinv.step hparse hy.of_restrict hst.1 hst.2
  rintro y ⟨hy, hfree⟩
  refine ⟨?_, fun k call now c hk => ?_, ?_, ?_⟩
  · rw [hy]
    simp [Ledger.initial, Db.empty]
  · rw [hfree k] at hk
    cases hk
  · rw [hy]
    simp [Ledger.initial]
  · rw [hy]
    simp [Ledger.initial]

/-- **Late calls are duplicates.** Take any run of the system whose terminal calls have
well-formed arguments, where no completion finds a failed run and no failure or rejection a run
that is absent or queued. In every state reached: of the calls made for a run that had been
leased, once one has returned exactly one was applied, and every other returned `Duplicate`; a
call returned `Duplicate` only if its run exists and is over; and the statements of a call that
matched no row change no row. -/
theorem late_calls_duplicate (hparse : CorrelationsParse commands contracts)
    {x : LedgerState lib commands}
    (hx : ((ledgerSystem lib commands contracts columns).restrict
      (LateCondition contracts)).Reachable x) :
    (∀ e ∈ x.data.returned, e.executed = true →
      (x.data.appliedTo e.call.runId).length = 1 ∧
        (e.result = .ok .applied ∨ e.result = .ok .duplicate)) ∧
    (∀ e ∈ x.data.returned, e.result = .ok .duplicate → x.data.db.Over e.call.runId) ∧
    ∀ a y, (ledgerSystem lib commands contracts columns).step x (.act a) y →
      ((∃ call now, a = .miss call now) ∨ ∃ m, a = .answer m) → y.data.db = x.data.db := by
  have hinv := ledgerInv_of_reachable hx.of_restrict
  have hlate := lateInv_of_reachable hparse hx
  refine ⟨fun e he hexecuted => ?_, fun e he hduplicate => ?_, fun a y hst hcase => ?_⟩
  · refine ⟨?_, (hlate.returned e he).result hexecuted⟩
    obtain ⟨r, hr, hid, hterminal⟩ := (hlate.returned e he).ended (Or.inl hexecuted)
    obtain ⟨e', happlied, -⟩ := (hinv.run r hr).appliedTo_eq_singleton hterminal
    rw [← hid, happlied]
    rfl
  · exact (hlate.returned e he).ended (Or.inr hduplicate)
  · cases hst with
    | act hact =>
        rcases hcase with ⟨call, now, rfl⟩ | ⟨m, rfl⟩
        · cases hact with
          | miss hprecheck hmiss => rfl
        · cases hact with
          | answer hpending => rfl

/-! ### Two workers -/

section Example

variable {cond : LedgerState exampleLib exampleCommands →
  LedgerLabel exampleLib exampleCommands → Prop}

/-- A call that finds no running run waits and returns. -/
theorem reachable_answer (call : TerminalCall) (now : Timestamp) {db : Db}
    {returned : List Returned} (hprecheck : call.precheck = .ok ())
    (hmiss : enterRun call.runId db = none)
    (hx : ((ledgerSystem exampleLib exampleCommands exampleContracts exampleColumns).restrict
      cond).Reachable (Locking.State.free ⟨db, [], returned⟩))
    (hcond : cond (Locking.State.free ⟨db, [], returned⟩) (.act (.miss call now)))
    (hanswer : ∀ s m, cond s (.act (.answer m))) :
    ((ledgerSystem exampleLib exampleCommands exampleContracts exampleColumns).restrict
      cond).Reachable (Locking.State.free
        ⟨db, [], returned ++ [⟨call, now, db.nextUuid, db.executed call.runId,
          call.missed db⟩]⟩) := by
  set m : Missed := ⟨call, now, db.executed call.runId⟩
  have hpending := Locking.Protocol.reachable_act hx (LedgerStatement.miss hprecheck hmiss) hcond
  have hdone : ((ledgerSystem exampleLib exampleCommands exampleContracts exampleColumns).restrict
      cond).Reachable (Locking.State.free ⟨db, [m].erase m, returned ++ [⟨call, now, db.nextUuid,
        db.executed call.runId, call.missed db⟩]⟩) :=
    Locking.Protocol.reachable_act hpending
      (LedgerStatement.answer (m := m) (List.mem_singleton_self _)) (hanswer _ _)
  rw [List.erase_cons_head] at hdone
  exact hdone

/-- The failure of the run, by a worker whose fetch timed out. -/
def exampleFailure : TerminalCall := .failRun 1 "timeout" true []

theorem exampleFailure_wellFormed : exampleFailure.WellFormed exampleContracts 0 := by
  refine ⟨rfl, ⟨by decide, fun _ => rfl⟩, ?_⟩
  intro step hstep
  cases hstep

/-- Two workers complete the run: the second call is a duplicate. -/
theorem late_calls_duplicate_twice : ∃ x,
    ((ledgerSystem exampleLib exampleCommands exampleContracts exampleColumns).restrict
      (LateCondition exampleContracts)).Reachable x ∧
      x.data.returned.map Returned.result = [.ok .applied, .ok .duplicate] ∧
      ∀ e ∈ x.data.returned, e.executed = true ∧ (x.data.appliedTo e.call.runId).length = 1 := by
  obtain ⟨db, hruns, hx⟩ := exampleEnded_reachable (LateCondition exampleContracts)
    (fun _ => ⟨trivial, fun _ _ h => by cases h⟩) (fun _ _ => ⟨trivial, fun _ _ h => by cases h⟩)
    (fun _ => ⟨trivial, fun _ _ h => by cases h⟩) exampleCompletion_wellFormed rfl
    (fun _ => ⟨exampleCompletion_wellFormed, fun _ _ h => by cases h⟩)
  have hmiss : enterRun exampleCompletion.runId db = none := by
    rw [enterRun, hruns]
    rfl
  have hexecuted : db.executed exampleCompletion.runId = true := by
    rw [Db.executed, hruns]
    rfl
  have hresult : exampleCompletion.missed db = .ok .duplicate := by
    rw [exampleCompletion, TerminalCall.missed, hruns]
    rfl
  have hexpected : exampleCompletion.FindsExpected db := by
    rintro ⟨r, hr, -, hfailed⟩
    rw [hruns] at hr
    obtain rfl := List.mem_singleton.mp hr
    cases hfailed
  have hdone := reachable_answer exampleCompletion 1 rfl hmiss hx
    ⟨exampleCompletion_wellFormed, by rintro _ _ ⟨⟩; exact hexpected⟩
    fun _ _ => ⟨trivial, fun _ _ h => by cases h⟩
  have hall := (late_calls_duplicate (fun _ _ _ => rfl) hdone).1
  rw [hexecuted, hresult] at hdone hall
  refine ⟨_, hdone, rfl, fun e he => ?_⟩
  have htrue : e.executed = true := by
    rcases List.mem_pair.mp he with rfl | rfl <;> rfl
  exact ⟨htrue, (hall e he htrue).1⟩

/-- **A late completion is refused.** One worker fails the run, and the completion of a worker
that executed it before comes in: it returns an error, not `Duplicate`. And a failure of a run
that does not exist returns `Duplicate`. All arguments are well formed. -/
theorem late_completion_refused :
    (exampleFailure.WellFormed exampleContracts 0 ∧
      exampleCompletion.WellFormed exampleContracts 0 ∧
      CorrelationsParse exampleCommands exampleContracts) ∧
    (∃ x, (ledgerSystem exampleLib exampleCommands exampleContracts exampleColumns).Reachable x ∧
      ∃ e ∈ x.data.returned, e.call = exampleCompletion ∧ e.executed = true ∧
        e.result = .error .invalidRunState) ∧
    ∃ x, (ledgerSystem exampleLib exampleCommands exampleContracts exampleColumns).Reachable x ∧
      ∃ e ∈ x.data.returned, e.call = exampleFailure ∧ e.result = .ok .duplicate ∧
        ¬ x.data.db.Over e.call.runId := by
  refine ⟨⟨exampleFailure_wellFormed, exampleCompletion_wellFormed, fun _ _ _ => rfl⟩, ?_, ?_⟩
  · obtain ⟨db, hruns, hx⟩ := exampleEnded_reachable (fun _ _ => True) (fun _ => trivial)
      (fun _ _ => trivial) (fun _ => trivial) exampleFailure_wellFormed rfl fun _ => trivial
    have hmiss : enterRun exampleCompletion.runId db = none := by
      rw [enterRun, hruns]
      rfl
    have hexecuted : db.executed exampleCompletion.runId = true := by
      rw [Db.executed, hruns]
      rfl
    have hresult : exampleCompletion.missed db = .error .invalidRunState := by
      rw [exampleCompletion, TerminalCall.missed, hruns]
      rfl
    have hdone := reachable_answer exampleCompletion 1 rfl hmiss hx trivial fun _ _ => trivial
    exact ⟨_, hdone.of_restrict, _, List.mem_append_right _ (List.mem_singleton_self _), rfl,
      hexecuted, hresult⟩
  · have hinit : ((ledgerSystem exampleLib exampleCommands exampleContracts
        exampleColumns).restrict fun _ _ => True).Reachable (Locking.State.free Ledger.initial) :=
      Labelled.System.Reachable.init ⟨rfl, fun _ => rfl⟩
    have hdone := reachable_answer exampleFailure 1 rfl rfl hinit trivial
      fun _ _ => trivial
    refine ⟨_, hdone.of_restrict, _, List.mem_append_right _ (List.mem_singleton_self _), rfl, rfl,
      ?_⟩
    rintro ⟨r, hr, -⟩
    exact List.not_mem_nil hr

end Example

end Extractor
