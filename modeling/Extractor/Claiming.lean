import Mathlib.Data.List.Chain
import Extractor.RunLedger

/-!
# Claiming runs

`claim_queued_run` is one statement, but it takes time. Its `select` evaluates the predicate at
one reading of the clock and locks the row it picks; its `update` reads the clock again, sets the
columns of the row, and is committed later still. Any number of claims are under way at once,
among the transactions and statements of the ledger.

Which of the claimable rows a `select` picks depends on the order of the rows, on its snapshot
and on the locks it skips. Here it may pick any of them that is not locked
(`ClaimStatement.select_of_nextRun`), and the only thing known of the clock is that one statement
reads it in order.

## Main results

* `claiming_stable`: the row a claim picked is not changed by others.
* `ClaimInv`, `claimInv_of_reachable`: the claims of a run and its row belong together.
* `claims_exclusive`: what it says about claims.
-/

namespace Extractor

/-! ### State -/

/-- One execution of the statement of `claim_queued_run`: the run it picks, and the two readings
of the clock. -/
structure ClaimStatement where
  runId : Uuid
  selectedAt : Timestamp
  updatedAt : Timestamp
  claimedBy : String
  leaseSeconds : ℤ
  ordered : selectedAt ≤ updatedAt

/-- A claim that was committed, with the row as its `select` read it. -/
structure Claimed where
  statement : ClaimStatement
  found : RunRow

/-- The end of the lease. -/
def Claimed.leasedUntil (c : Claimed) : Timestamp :=
  c.statement.updatedAt + seconds (clampLease c.statement.leaseSeconds)

/-- The claim took the run from the queue. -/
def Claimed.fromQueue (c : Claimed) : Bool := c.found.status == .queued

/-- The ledger, and the claims in the order of their commits. -/
structure Claims where
  ledger : Ledger
  claims : List Claimed

/-- The empty database. -/
def Claims.initial : Claims := ⟨Ledger.initial, []⟩

/-- The rows of the runs. -/
def Claims.runs (s : Claims) : List RunRow := s.ledger.db.runs

/-- The claims of a run. -/
def Claims.of (s : Claims) (runId : Uuid) : List Claimed :=
  s.claims.filter fun c => c.statement.runId == runId

/-! ### The statement -/

/-- The row that the `select` reads and locks. -/
def ClaimStatement.select (st : ClaimStatement) (db : Db) : Option RunRow :=
  db.runs.find? fun r => r.runId == st.runId && r.claimable st.selectedAt

/-- The row that the `update` writes. -/
def ClaimStatement.lease (st : ClaimStatement) (r : RunRow) : RunRow :=
  r.claim st.updatedAt st.claimedBy st.leaseSeconds

/-- The database after the `update`. -/
def ClaimStatement.write (st : ClaimStatement) (db : Db) : Db :=
  { db with runs := Rows.updateWhere (fun r => r.runId == st.runId) st.lease db.runs }

/-- The `update` of the row that the `select` found; a row that breaks a constraint is not
written. -/
def ClaimStatement.update (st : ClaimStatement) (found : RunRow) (s : Claims) : Claims :=
  if (st.lease found).checked then
    { ledger := { s.ledger with db := st.write s.ledger.db }
      claims := s.claims ++ [⟨st, found⟩] }
  else s

/-! ### The system -/

/-- The transactions of the ledger, and claims. -/
inductive ClaimTx (lib : UrlLib) (commands : CommandLib)
  | ledger (tx : LedgerTx lib commands)
  | claim (st : ClaimStatement)

/-- What the first part of a transaction found. -/
inductive ClaimFound
  | ledger (found : Found)
  | run (found : RunRow)

/-- The statement is a claim. -/
def LedgerAct.isClaim {lib : UrlLib} {commands : CommandLib} : LedgerAct lib commands → Bool
  | .claim .. => true
  | _ => false

section System

variable (lib : UrlLib) (commands : CommandLib) (contracts : Contracts) (columns : BlobColumns)

/-- What the first part of a transaction finds. -/
def ClaimTx.enter : ClaimTx lib commands → Claims → Option ClaimFound
  | .ledger tx, s => (tx.enter lib commands s.ledger).map .ledger
  | .claim st, s => (st.select s.ledger.db).map .run

/-- The rest of a transaction. -/
def ClaimTx.effect : ClaimTx lib commands → ClaimFound → Claims → Claims
  | .ledger tx, .ledger found, s =>
      { s with ledger := tx.effect lib commands contracts found s.ledger }
  | .claim st, .run found, s => st.update found s
  | .ledger _, .run _, s => s
  | .claim _, .ledger _, s => s

/-- The transactions and statements over the ledger, with claims that take time. -/
def claimProtocol :
    Locking.Protocol Claims LedgerKey (ClaimTx lib commands) ClaimFound
      (LedgerAct lib commands) where
  key
    | .ledger tx => (ledgerProtocol lib commands contracts columns).key tx
    | .claim st => .run st.runId
  enter := ClaimTx.enter lib commands
  effect := ClaimTx.effect lib commands contracts
  act a locked s t :=
    a.isClaim = false ∧ t.claims = s.claims ∧
      LedgerStatement lib commands contracts columns a locked s.ledger t.ledger

/-- **The claiming system**: every interleaving of claims, intake, terminal calls and the
statements of the ledger. -/
def claimSystem :
    Labelled.System (Locking.State Claims LedgerKey (ClaimTx lib commands) ClaimFound)
      (Locking.Label LedgerKey (ClaimTx lib commands) (LedgerAct lib commands)) :=
  (claimProtocol lib commands contracts columns).interleaved (· = Claims.initial)

end System

/-! ### What a step does -/

section Changes

variable {lib : UrlLib} {commands : CommandLib} {contracts : Contracts} {columns : BlobColumns}
  {s t : Claims} {db db' : Db} {st : ClaimStatement} {run : RunRow}

theorem ClaimStatement.select_eq_some (h : st.select db = some run) :
    run ∈ db.runs ∧ run.runId = st.runId ∧ run.claimable st.selectedAt = true := by
  have hp := List.find?_some h
  obtain ⟨hid, hclaimable⟩ := Bool.and_eq_true_iff.mp hp
  exact ⟨List.mem_of_find?_eq_some h, beq_iff_eq.mp hid, hclaimable⟩

/-- A claimable run stays claimable while time passes. -/
theorem RunRow.claimable_mono {r : RunRow} {now later : Timestamp} (hle : now ≤ later)
    (h : r.claimable now = true) : r.claimable later = true := by
  rw [RunRow.claimable, Bool.or_eq_true, Bool.and_eq_true] at h ⊢
  rcases h with hqueued | ⟨hrunning, hover⟩
  · exact Or.inl hqueued
  · refine Or.inr ⟨hrunning, ?_⟩
    cases huntil : r.claimedUntil with
    | none => rfl
    | some u =>
        rw [huntil] at hover
        exact decide_eq_true (Nat.le_trans (of_decide_eq_true hover) hle)

/-- A claimable row with the identifier is selected, when identifiers are unique. -/
theorem ClaimStatement.select_of_mem (hids : (db.runs.map RunRow.runId).Nodup)
    (hrun : run ∈ db.runs) (hid : run.runId = st.runId)
    (hclaimable : run.claimable st.selectedAt = true) : st.select db = some run := by
  cases hselect : st.select db with
  | none =>
      have hnone := List.find?_eq_none.mp hselect run hrun
      rw [hid, beq_self_eq_true, hclaimable] at hnone
      exact absurd rfl hnone
  | some r =>
      obtain ⟨hr, hrid, -⟩ := ClaimStatement.select_eq_some hselect
      rw [Rows.eq_of_key hids hr hrun (hrid.trans hid.symm)]

/-- **What `claim_queued_run` picks can be selected**, whatever it skips. -/
theorem ClaimStatement.select_of_nextRun {skipped : List Uuid} {source : SourceRow}
    (hids : (db.runs.map RunRow.runId).Nodup)
    (hnext : nextRun st.selectedAt skipped db = some (run, source)) (hid : run.runId = st.runId) :
    st.select db = some run ∧ run.runId ∉ skipped := by
  obtain ⟨hrun, hclaimable, hfree⟩ := nextRun_eq_some hnext
  exact ⟨ClaimStatement.select_of_mem hids hrun hid hclaimable, hfree⟩

/-- **Everything one step can do to runs and claims.** -/
inductive ClaimChange (contracts : Contracts) (s t : Claims) : Prop
  /-- A new command is applied. -/
  | queued {command : CaptureCommand} {now : Timestamp}
      (hqueued : Queued command now s.ledger.db t.ledger.db) (hclaims : t.claims = s.claims)
  /-- A run ends. -/
  | ended {call : TerminalCall} {now : Timestamp} {run : RunRow}
      (henter : enterRun call.runId s.ledger.db = some run)
      (hended : call.Ended contracts now run s.ledger.db t.ledger.db)
      (hclaims : t.claims = s.claims)
  /-- A run is claimed. -/
  | claimed {st : ClaimStatement} {run : RunRow} (hselect : st.select s.ledger.db = some run)
      (hchecked : (st.lease run).checked = true) (hdb : t.ledger.db = st.write s.ledger.db)
      (hclaims : t.claims = s.claims ++ [⟨st, run⟩])
  /-- No run changes. -/
  | quiet (hquiet : Quiet s.ledger.db t.ledger.db) (hclaims : t.claims = s.claims)

/-- A single statement that is no claim changes no run. -/
theorem LedgerStatement.quiet {a : LedgerAct lib commands} {locked : LedgerKey → Prop}
    {l l' : Ledger} (h : LedgerStatement lib commands contracts columns a locked l l')
    (ha : a.isClaim = false) : Quiet l.db l'.db := by
  cases h with
  | redeliver hknown =>
      rename_i delivery now
      rcases consumeCapture_cases contracts now delivery l.db with hsame | ⟨hnew, -⟩
      · change Quiet l.db (consumeCapture lib commands contracts now _ _ l.db).2
        rw [hsame]
        exact Quiet.refl _
      · obtain ⟨r, hr, hid⟩ := hknown
        exact absurd hid (hnew r hr)
  | claim hskipped => cases ha
  | refuse hprecheck => exact Quiet.refl _
  | miss hprecheck hmiss => exact Quiet.refl _
  | answer hpending => exact Quiet.refl _
  | recordFetch => exact quiet_recordFetch
  | relayClaim hclaim =>
      obtain ⟨ids, -, -, rfl, -⟩ := claimDue_eq_some hclaim
      exact quiet_outbox fun r => rfl
  | relayRecord hrecord =>
      rw [recordVerdict_eq] at hrecord
      obtain ⟨-, rfl⟩ := updateChecked_eq_some_iff.mp hrecord
      exact quiet_outbox fun r => OutboxRow.settle_core

/-- A whole transaction of the ledger queues a run, ends one, or changes none. -/
theorem LedgerTx.effect_claimChange {tx : LedgerTx lib commands} {c : Found}
    (henter : tx.enter lib commands s.ledger = some c) :
    ClaimChange contracts s
      { s with ledger := tx.effect lib commands contracts c s.ledger } := by
  cases tx with
  | intake delivery now =>
      rcases consumeCapture_cases contracts now delivery s.ledger.db with hsame | ⟨-, hqueued⟩
      · refine .quiet ?_ rfl
        change Quiet s.ledger.db (consumeCapture lib commands contracts now _ _ s.ledger.db).2
        rw [hsame]
        exact Quiet.refl _
      · exact .queued hqueued rfl
  | terminal call now =>
      obtain ⟨-, run, hrun, rfl⟩ := LedgerTx.enter_terminal_eq.mp henter
      change ClaimChange contracts s { s with ledger := s.ledger.finish contracts now call run }
      unfold Ledger.finish
      cases hcommit : call.commit contracts now run s.ledger.db with
      | error e => exact .quiet (Quiet.refl _) rfl
      | ok r => exact .ended hrun (TerminalCall.commit_eq_ok hcommit) rfl

/-- The rest of a claim writes the row it found, or nothing. -/
theorem ClaimStatement.update_cases (st : ClaimStatement) (run : RunRow) (s : Claims) :
    st.update run s = s ∨ (st.lease run).checked = true ∧
      st.update run s =
        ⟨{ s.ledger with db := st.write s.ledger.db }, s.claims ++ [⟨st, run⟩]⟩ := by
  unfold ClaimStatement.update
  split
  · next hchecked => exact Or.inr ⟨hchecked, rfl⟩
  · exact Or.inl rfl

/-- A whole transaction. -/
theorem ClaimTx.effect_change {x : ClaimTx lib commands} {c : ClaimFound}
    (henter : x.enter lib commands s = some c) :
    ClaimChange contracts s (x.effect lib commands contracts c s) ∧
      (LedgerChange lib commands contracts s.ledger
        (x.effect lib commands contracts c s).ledger) := by
  cases x with
  | ledger tx =>
      obtain ⟨found, hfound, rfl⟩ := Option.map_eq_some_iff.mp henter
      exact ⟨LedgerTx.effect_claimChange hfound, LedgerTx.effect_change hfound⟩
  | claim st =>
      obtain ⟨run, hrun, rfl⟩ := Option.map_eq_some_iff.mp henter
      change ClaimChange contracts s (st.update run s) ∧ LedgerChange lib commands contracts
        s.ledger (st.update run s).ledger
      obtain ⟨hmem, hid, hclaimable⟩ := ClaimStatement.select_eq_some hrun
      rcases st.update_cases run s with hsame | ⟨hchecked, hupdate⟩
      · rw [hsame]
        exact ⟨.quiet (Quiet.refl _) rfl, .quiet (Quiet.refl _) (Or.inl rfl)⟩
      · rw [hupdate]
        refine ⟨.claimed hrun hchecked rfl rfl, ?_⟩
        -- what was claimable when it was selected still is when it is updated
        refine .leased hmem (RunRow.claimable_mono st.ordered hclaimable) hchecked ?_ rfl
        rw [hid]
        rfl

/-! ### Locks -/

/-- The row of a run is found as before. -/
def Untouched (runId : Uuid) (db db' : Db) : Prop :=
  ∀ (q : RunRow → Bool) (run : RunRow), (∀ r, q r = true → r.runId = runId) →
    db.runs.find? q = some run → db'.runs.find? q = some run

theorem Untouched.of_append {runId : Uuid} {rows : List RunRow}
    (hruns : db'.runs = db.runs ++ rows) : Untouched runId db db' := by
  intro q run _ hfind
  rw [hruns, List.find?_append, hfind, Option.some_or]

theorem Untouched.of_runs {runId : Uuid} (hruns : db'.runs = db.runs) :
    Untouched runId db db' := by
  have happend : db'.runs = db.runs ++ [] := hruns.trans (List.append_nil _).symm
  exact Untouched.of_append happend

theorem Untouched.of_update {runId other : Uuid} {p : RunRow → Bool} {f : RunRow → RunRow}
    (hruns : db'.runs = Rows.updateWhere p f db.runs) (hp : ∀ r, p r = true → r.runId = other)
    (hf : ∀ r, (f r).runId = r.runId) (hne : runId ≠ other) : Untouched runId db db' := by
  intro q run hq hfind
  rw [hruns, ← hfind]
  refine Rows.find?_updateWhere fun r _ hpr => ?_
  have hr : r.runId ≠ runId := fun h => hne (h.symm.trans (hp r hpr))
  refine ⟨Bool.eq_false_iff.mpr fun h => hr (hq r h), Bool.eq_false_iff.mpr fun h => hr ?_⟩
  exact (hf r).symm.trans (hq _ h)

/-- A transaction of the ledger leaves the runs of other keys alone. -/
theorem LedgerTx.untouched {tx : LedgerTx lib commands} {c : Found} {l : Ledger} {runId : Uuid}
    (henter : tx.enter lib commands l = some c)
    (hother : ∀ call now, tx = .terminal call now → call.runId ≠ runId) :
    Untouched runId l.db (tx.effect lib commands contracts c l).db := by
  cases tx with
  | intake delivery now =>
      change Untouched runId l.db (consumeCapture lib commands contracts now _ _ l.db).2
      rcases consumeCapture_cases contracts now delivery l.db with hsame | ⟨-, hqueued⟩
      · exact Untouched.of_runs (congrArg Db.runs hsame)
      · obtain ⟨source, -, hruns⟩ := hqueued.runs
        exact Untouched.of_append hruns
  | terminal call now =>
      obtain ⟨-, run, -, rfl⟩ := LedgerTx.enter_terminal_eq.mp henter
      change Untouched runId l.db (l.finish contracts now call run).db
      unfold Ledger.finish
      cases hcommit : call.commit contracts now run l.db with
      | error e => exact Untouched.of_runs rfl
      | ok r =>
          refine Untouched.of_update (TerminalCall.commit_eq_ok hcommit).runs
            (fun r hr => beq_iff_eq.mp (Bool.and_eq_true_iff.mp hr).1) (call.change_runId now) ?_
          exact (hother call now rfl).symm

/-- A claim leaves the other runs alone. -/
theorem ClaimStatement.untouched {runId : Uuid} (hne : runId ≠ st.runId) :
    Untouched runId s.ledger.db (st.update run s).ledger.db := by
  rcases st.update_cases run s with hsame | ⟨-, hupdate⟩
  · rw [hsame]
    exact Untouched.of_runs rfl
  · rw [hupdate]
    exact Untouched.of_update rfl (fun r hr => beq_iff_eq.mp hr) (fun r => rfl) hne

/-- The row that a claim selected is selected again. -/
theorem Untouched.select (h : Untouched st.runId db db') (hselect : st.select db = some run) :
    st.select db' = some run :=
  h _ run (fun _ hr => beq_iff_eq.mp (Bool.and_eq_true_iff.mp hr).1) hselect

/-- A transaction of the ledger finds the same again after a claim of another run. -/
theorem LedgerTx.enter_of_claim {tx : LedgerTx lib commands} {c : Found}
    (henter : tx.enter lib commands s.ledger = some c)
    (hother : ∀ call now, tx = .terminal call now → call.runId ≠ st.runId) :
    tx.enter lib commands (st.update run s).ledger = some c := by
  rcases st.update_cases run s with hsame | ⟨-, hupdate⟩
  · rw [hsame]
    exact henter
  · rw [hupdate]
    exact LedgerTx.enter_of_update henter rfl rfl (fun r hr => beq_iff_eq.mp hr) (fun r => rfl)
      hother

/-- **What a transaction found under its lock is not changed by others.** -/
theorem claiming_stable : (claimProtocol lib commands contracts columns).Stable where
  effect {x x' c c' s} hkey henter henter' := by
    change x.enter lib commands s = some c at henter
    change x'.enter lib commands s = some c' at henter'
    change x.enter lib commands (x'.effect lib commands contracts c' s) = some c
    cases x with
    | ledger tx =>
        obtain ⟨found, hfound, rfl⟩ := Option.map_eq_some_iff.mp henter
        cases x' with
        | ledger tx' =>
            obtain ⟨found', hfound', rfl⟩ := Option.map_eq_some_iff.mp henter'
            have hkeys : (ledgerProtocol lib commands contracts columns).key tx ≠
                (ledgerProtocol lib commands contracts columns).key tx' := hkey
            exact Option.map_eq_some_iff.mpr
              ⟨found, LedgerTx.enter_of_effect hkeys hfound hfound', rfl⟩
        | claim st =>
            obtain ⟨run, -, rfl⟩ := Option.map_eq_some_iff.mp henter'
            refine Option.map_eq_some_iff.mpr ⟨found, LedgerTx.enter_of_claim hfound ?_, rfl⟩
            rintro call now rfl hid
            exact hkey (congrArg LedgerKey.run hid)
    | claim st =>
        obtain ⟨run, hselect, rfl⟩ := Option.map_eq_some_iff.mp henter
        refine Option.map_eq_some_iff.mpr ⟨run, ?_, rfl⟩
        cases x' with
        | ledger tx' =>
            obtain ⟨found', hfound', rfl⟩ := Option.map_eq_some_iff.mp henter'
            refine (LedgerTx.untouched hfound' ?_).select hselect
            rintro call now rfl hid
            exact hkey (congrArg LedgerKey.run hid.symm)
        | claim st' =>
            obtain ⟨run', -, rfl⟩ := Option.map_eq_some_iff.mp henter'
            refine (ClaimStatement.untouched fun hid => hkey ?_).select hselect
            exact congrArg LedgerKey.run hid
  act {x a c locked s t} hlocked henter hact := by
    obtain ⟨ha, -, hstatement⟩ := hact
    have hquiet := hstatement.quiet ha
    change x.enter lib commands s = some c at henter
    change x.enter lib commands t = some c
    cases x with
    | ledger tx =>
        obtain ⟨found, hfound, rfl⟩ := Option.map_eq_some_iff.mp henter
        exact Option.map_eq_some_iff.mpr ⟨found, LedgerTx.enter_of_quiet hfound hquiet, rfl⟩
    | claim st =>
        obtain ⟨run, hselect, rfl⟩ := Option.map_eq_some_iff.mp henter
        exact Option.map_eq_some_iff.mpr
          ⟨run, (Untouched.of_runs hquiet.runs).select hselect, rfl⟩

/-- **A step of the claiming system** is one of the four changes, or leaves everything alone. -/
theorem claim_change {x y : Locking.State Claims LedgerKey (ClaimTx lib commands) ClaimFound}
    {a : Locking.Label LedgerKey (ClaimTx lib commands) (LedgerAct lib commands)}
    (hx : (claimSystem lib commands contracts columns).Reachable x)
    (hst : (claimSystem lib commands contracts columns).step x a y) :
    y.data = x.data ∨ ClaimChange contracts x.data y.data ∧
      LedgerChange lib commands contracts x.data.ledger y.data.ledger := by
  rcases Locking.Protocol.step_data claiming_stable hx hst with hsame | ⟨b, hb⟩
  · exact Or.inl hsame
  · cases hb with
    | transaction henter heffect => exact Or.inr (heffect ▸ ClaimTx.effect_change henter)
    | act hact =>
        obtain ⟨ha, hclaims, hstatement⟩ := hact
        exact Or.inr ⟨.quiet (hstatement.quiet ha) hclaims, hstatement.change⟩

end Changes

/-! ### The invariant -/

/-- The lease of a running run is over. -/
def RunRow.LeaseOver (r : RunRow) (now : Timestamp) : Prop :=
  r.status = .running ∧ ∃ u, r.claimedUntil = some u ∧ u ≤ now

/-- What holds of a run and its claims: one of them took it from the queue, each but the first
waited for the lease before it, and the row shows the first start and the last lease. -/
structure RunClaims (cs : List Claimed) (r : RunRow) : Prop where
  fromQueue : cs.countP Claimed.fromQueue = if r.status = .queued then 0 else 1
  queued : r.status = .queued → cs = []
  waited : cs.IsChain fun a b => a.leasedUntil ≤ b.statement.selectedAt
  started : r.startedAt = cs.head?.map fun c => c.statement.updatedAt
  leased : r.status = .running → r.claimedUntil = cs.getLast?.map Claimed.leasedUntil

/-- **The claiming invariant.** -/
structure ClaimInv (contracts : Contracts) (s : Claims) : Prop where
  ledger : LedgerInv contracts s.ledger
  known : ∀ c ∈ s.claims, ∃ r ∈ s.runs, r.runId = c.statement.runId
  found : ∀ c ∈ s.claims,
    c.found.status = .queued ∨ c.found.LeaseOver c.statement.selectedAt
  run : ∀ r ∈ s.runs, RunClaims (s.of r.runId) r

section Invariant

variable {lib : UrlLib} {commands : CommandLib} {contracts : Contracts} {columns : BlobColumns}
  {s t : Claims} {st : ClaimStatement} {run r : RunRow} {cs : List Claimed}

/-- A run that left the queue has been claimed. -/
theorem RunClaims.ne_nil (h : RunClaims cs r) (hstatus : r.status ≠ .queued) : cs ≠ [] := by
  rintro rfl
  have hcount := h.fromQueue
  rw [if_neg hstatus] at hcount
  cases hcount

/-- A claim finds a queued run, or a running one whose lease is over. -/
theorem RunClaims.found (h : RunClaims cs r) {now : Timestamp} (hclaimable : r.claimable now = true) :
    r.status = .queued ∨ r.LeaseOver now := by
  rw [RunRow.claimable, Bool.or_eq_true, Bool.and_eq_true, beq_iff_eq, beq_iff_eq] at hclaimable
  rcases hclaimable with hqueued | ⟨hrunning, hover⟩
  · exact Or.inl hqueued
  · have hne := h.ne_nil (by rw [hrunning]; decide)
    have hlast := List.getLast?_eq_some_getLast hne
    have huntil := h.leased hrunning
    rw [hlast, Option.map_some] at huntil
    rw [huntil] at hover
    exact Or.inr ⟨hrunning, _, huntil, of_decide_eq_true hover⟩

/-- **One more claim.** -/
theorem RunClaims.claim (h : RunClaims cs r) (hclaimable : r.claimable st.selectedAt = true) :
    RunClaims (cs ++ [⟨st, r⟩]) (st.lease r) := by
  rcases h.found hclaimable with hqueued | ⟨hrunning, u, huntil, hover⟩
  · obtain rfl := h.queued hqueued
    refine ⟨?_, fun hstatus => ?_, List.isChain_singleton _, ?_, fun _ => rfl⟩
    · have hfrom : Claimed.fromQueue ⟨st, r⟩ = true := beq_iff_eq.mpr hqueued
      rw [List.nil_append, List.countP_singleton, if_pos hfrom]
      rfl
    · cases hstatus
    · change some (r.startedAt.getD st.updatedAt) = some st.updatedAt
      rw [h.started]
      rfl
  · have hne := h.ne_nil (by rw [hrunning]; decide)
    have hlast : r.claimedUntil = some (cs.getLast hne).leasedUntil := by
      rw [h.leased hrunning, List.getLast?_eq_some_getLast hne]
      rfl
    refine ⟨?_, fun hstatus => ?_, ?_, ?_, fun _ => ?_⟩
    · have hcount := h.fromQueue
      have hfrom : Claimed.fromQueue ⟨st, r⟩ = false := by
        rw [Claimed.fromQueue, hrunning]
        rfl
      rw [hrunning] at hcount
      rw [List.countP_append, hcount, List.countP_singleton, hfrom]
      rfl
    · cases hstatus
    · refine h.waited.append (List.isChain_singleton _) fun a ha b hb => ?_
      rw [List.getLast?_eq_some_getLast hne] at ha
      obtain rfl := Option.some.inj ha
      obtain rfl := Option.some.inj hb
      rw [huntil] at hlast
      exact Option.some.inj hlast ▸ hover
    · change some (r.startedAt.getD st.updatedAt) = _
      rw [h.started, List.head?_append, List.head?_eq_some_head hne]
      rfl
    · rw [List.getLast?_concat]
      rfl

/-- The end of a run keeps its claims and its start. -/
theorem RunClaims.ended (h : RunClaims cs r) (hrunning : r.status = .running)
    (call : TerminalCall) (now : Timestamp) : RunClaims cs (call.change now r) := by
  have hstatus := call.change_status now r
  have hterminal := call.outcome_terminal
  have hcount := h.fromQueue
  rw [hrunning] at hcount
  have hstarted : (call.change now r).startedAt = r.startedAt := by
    cases call <;> rfl
  refine ⟨?_, fun hqueued => ?_, h.waited, hstarted.trans h.started, fun hrun => ?_⟩
  · rw [hcount, hstatus]
    cases call <;> rfl
  · rw [← hstatus, hqueued] at hterminal
    cases hterminal
  · rw [← hstatus, hrun] at hterminal
    cases hterminal

theorem ClaimInv.of_initial : ClaimInv contracts Claims.initial where
  ledger := LedgerInv.of_initial
  known := by simp [Claims.initial]
  found := by simp [Claims.initial]
  run := by simp [Claims.initial, Claims.runs, Ledger.initial, Db.empty]

/-- The claims of a run do not change when none is committed. -/
theorem Claims.of_eq (hclaims : t.claims = s.claims) (runId : Uuid) : t.of runId = s.of runId := by
  rw [Claims.of, hclaims, Claims.of]

/-- A claim is listed with its run, and with no other. -/
theorem Claims.of_append (hclaims : t.claims = s.claims ++ [⟨st, run⟩]) (runId : Uuid) :
    t.of runId = s.of runId ++ if st.runId = runId then [⟨st, run⟩] else [] := by
  rw [Claims.of, hclaims, List.filter_append, Claims.of]
  by_cases hid : st.runId = runId
  · simp [hid]
  · simp [hid]

/-- An update keeps every run under its identifier. -/
theorem exists_updateWhere {p : RunRow → Bool} {f : RunRow → RunRow} {rows : List RunRow}
    (hf : ∀ r, (f r).runId = r.runId) (hr : r ∈ rows) :
    ∃ r' ∈ Rows.updateWhere p f rows, r'.runId = r.runId := by
  refine ⟨_, Rows.mem_updateWhere.mpr ⟨r, hr, rfl⟩, ?_⟩
  split
  · exact hf r
  · rfl

/-- A change keeps every run under its identifier. -/
theorem ClaimChange.exists_run (h : ClaimChange contracts s t) (hr : r ∈ s.runs) :
    ∃ r' ∈ t.runs, r'.runId = r.runId := by
  cases h with
  | queued hqueued hclaims =>
      obtain ⟨source, -, hruns⟩ := hqueued.runs
      exact ⟨r, by rw [Claims.runs, hruns]; exact List.mem_append_left _ hr, rfl⟩
  | ended henter hended hclaims =>
      rename_i call now run
      rw [Claims.runs, hended.runs]
      exact exists_updateWhere (call.change_runId now) hr
  | claimed hselect hchecked hdb hclaims =>
      rw [Claims.runs, hdb]
      exact exists_updateWhere (fun _ => rfl) hr
  | quiet hquiet hclaims => exact ⟨r, by rw [Claims.runs, hquiet.runs]; exact hr, rfl⟩

/-- A claim was there before a change, or is the one that it makes. -/
theorem ClaimChange.mem_claims (h : ClaimChange contracts s t) {c : Claimed} (hc : c ∈ t.claims) :
    c ∈ s.claims ∨ c.statement.select s.ledger.db = some c.found := by
  cases h with
  | queued hqueued hclaims => exact .inl (hclaims ▸ hc)
  | ended henter hended hclaims => exact .inl (hclaims ▸ hc)
  | claimed hselect hchecked hdb hclaims =>
      rw [hclaims] at hc
      rcases List.mem_append.mp hc with hc | hc
      · exact .inl hc
      · obtain rfl := List.mem_singleton.mp hc
        exact .inr hselect
  | quiet hquiet hclaims => exact .inl (hclaims ▸ hc)

/-- **Every change keeps the invariant.** -/
theorem ClaimInv.change (h : ClaimInv contracts s) (hchange : ClaimChange contracts s t)
    (hledger : LedgerChange lib commands contracts s.ledger t.ledger) : ClaimInv contracts t := by
  refine ⟨h.ledger.change hledger, ?_, ?_, ?_⟩
  · -- every claim is of a run that is there
    intro c hc
    have hknown : ∃ r ∈ s.runs, r.runId = c.statement.runId := by
      rcases hchange.mem_claims hc with hc | hselect
      · exact h.known c hc
      · obtain ⟨hrun, hid, -⟩ := ClaimStatement.select_eq_some hselect
        exact ⟨c.found, hrun, hid⟩
    obtain ⟨r, hr, hid⟩ := hknown
    obtain ⟨r', hr', hid'⟩ := hchange.exists_run hr
    exact ⟨r', hr', hid'.trans hid⟩
  · -- what a claim found
    intro c hc
    rcases hchange.mem_claims hc with hc | hselect
    · exact h.found c hc
    · obtain ⟨hrun, -, hclaimable⟩ := ClaimStatement.select_eq_some hselect
      exact (h.run c.found hrun).found hclaimable
  · -- the row of a run and its claims
    intro r' hr'
    cases hchange with
    | queued hqueued hclaims =>
        obtain ⟨source, -, hruns⟩ := hqueued.runs
        rw [Claims.of_eq hclaims]
        rw [Claims.runs, hruns] at hr'
        rcases List.mem_append.mp hr' with hr' | hr'
        · exact h.run r' hr'
        · obtain rfl := List.mem_singleton.mp hr'
          -- the new identifier is above every claimed one
          have hnone : s.of (s.ledger.db.nextUuid + 1) = [] := by
            refine List.filter_eq_nil_iff.mpr fun c hc hid => ?_
            obtain ⟨r, hr, hrid⟩ := h.known c hc
            have hlt := h.ledger.runId_lt r hr
            rw [hrid, beq_iff_eq.mp hid] at hlt
            exact absurd hlt (Nat.not_lt.mpr (Nat.le_succ _))
          change RunClaims (s.of (s.ledger.db.nextUuid + 1)) _
          rw [hnone]
          exact ⟨rfl, fun _ => rfl, List.isChain_nil, rfl, fun hrunning => nomatch hrunning⟩
    | ended henter hended hclaims =>
        rename_i call now run
        rw [Claims.of_eq hclaims]
        rw [Claims.runs, hended.runs] at hr'
        obtain ⟨r, hr, rfl⟩ := Rows.mem_updateWhere.mp hr'
        split
        · next hp =>
            have hrunning : r.status = .running := beq_iff_eq.mp (Bool.and_eq_true_iff.mp hp).2
            rw [call.change_runId]
            exact (h.run r hr).ended hrunning call now
        · exact h.run r hr
    | claimed hselect hchecked hdb hclaims =>
        rename_i st run
        obtain ⟨hrun, hid, hclaimable⟩ := ClaimStatement.select_eq_some hselect
        rw [Claims.of_append hclaims]
        rw [Claims.runs, hdb] at hr'
        obtain ⟨r, hr, rfl⟩ := Rows.mem_updateWhere.mp hr'
        by_cases hp : r.runId = st.runId
        · obtain rfl := h.ledger.eq_of_runId hr hrun (hp.trans hid.symm)
          rw [if_pos (beq_iff_eq.mpr hp)]
          change RunClaims (s.of r.runId ++ if st.runId = r.runId then _ else _) (st.lease r)
          rw [if_pos hp.symm]
          exact (h.run r hr).claim hclaimable
        · rw [if_neg fun heq => hp (beq_iff_eq.mp heq), if_neg fun heq => hp heq.symm,
            List.append_nil]
          exact h.run r hr
    | quiet hquiet hclaims =>
        rw [Claims.runs, hquiet.runs] at hr'
        rw [Claims.of_eq hclaims]
        exact h.run r' hr'

/-- **The invariant holds in every reachable state.** -/
theorem claimInv_of_reachable
    {x : Locking.State Claims LedgerKey (ClaimTx lib commands) ClaimFound}
    (hx : (claimSystem lib commands contracts columns).Reachable x) :
    ClaimInv contracts x.data := by
  refine hx.invariant (I := fun x => ClaimInv contracts x.data) ?_ ?_
  · rintro y ⟨hy, -⟩
    rw [hy]
    exact ClaimInv.of_initial
  · intro y a z hy hinv hst
    rcases claim_change hy hst with hsame | ⟨hchange, hledger⟩
    · rw [hsame]
      exact hinv
    · exact hinv.change hchange hledger

end Invariant

/-! ### Exclusive claims -/

/-- A run that was started keeps the time it was started at. -/
def KeepsStart (s t : Claims) : Prop :=
  ∀ r ∈ s.runs, ∀ startedAt, r.startedAt = some startedAt →
    ∃ r' ∈ t.runs, r'.runId = r.runId ∧ r'.startedAt = some startedAt

/-- A step commits at most one claim, of a row that is there. -/
def ClaimsOne (s t : Claims) : Prop :=
  t.claims = s.claims ∨ ∃ c, t.claims = s.claims ++ [c] ∧
    c.found ∈ s.runs ∧ c.found.runId = c.statement.runId ∧ c.statement.lease c.found ∈ t.runs

section Statement

variable {lib : UrlLib} {commands : CommandLib} {contracts : Contracts} {columns : BlobColumns}
  {s t : Claims}

/-- An update that keeps starts. -/
theorem KeepsStart.of_update {p : RunRow → Bool} {f : RunRow → RunRow}
    (hruns : t.runs = Rows.updateWhere p f s.runs) (hid : ∀ r, (f r).runId = r.runId)
    (hstart : ∀ r startedAt, r.startedAt = some startedAt → (f r).startedAt = some startedAt) :
    KeepsStart s t := by
  intro r hr startedAt hstarted
  refine ⟨_, hruns ▸ Rows.mem_updateWhere.mpr ⟨r, hr, rfl⟩, ?_⟩
  split
  · exact ⟨hid r, hstart r startedAt hstarted⟩
  · exact ⟨rfl, hstarted⟩

theorem ClaimChange.keepsStart (h : ClaimChange contracts s t) : KeepsStart s t := by
  cases h with
  | queued hqueued hclaims =>
      obtain ⟨source, -, hruns⟩ := hqueued.runs
      intro r hr startedAt hstarted
      refine ⟨r, ?_, rfl, hstarted⟩
      rw [Claims.runs, hruns]
      exact List.mem_append_left _ hr
  | ended henter hended hclaims =>
      rename_i call now run
      refine KeepsStart.of_update hended.runs (call.change_runId now) fun r startedAt h => ?_
      cases call <;> exact h
  | claimed hselect hchecked hdb hclaims =>
      rename_i st run
      refine KeepsStart.of_update (f := st.lease) (congrArg Db.runs hdb) (fun r => rfl) ?_
      intro r startedAt hstarted
      change some (r.startedAt.getD st.updatedAt) = _
      rw [hstarted]
      rfl
  | quiet hquiet hclaims =>
      intro r hr startedAt hstarted
      refine ⟨r, ?_, rfl, hstarted⟩
      rw [Claims.runs, hquiet.runs]
      exact hr

theorem ClaimChange.claimsOne (h : ClaimChange contracts s t) : ClaimsOne s t := by
  cases h with
  | queued hqueued hclaims => exact Or.inl hclaims
  | ended henter hended hclaims => exact Or.inl hclaims
  | quiet hquiet hclaims => exact Or.inl hclaims
  | claimed hselect hchecked hdb hclaims =>
      rename_i st run
      obtain ⟨hrun, hid, -⟩ := ClaimStatement.select_eq_some hselect
      refine Or.inr ⟨_, hclaims, hrun, hid, ?_⟩
      rw [Claims.runs, hdb]
      exact Rows.mem_updateWhere_of_pos hrun (beq_iff_eq.mpr hid)

/-- Starts are kept along a run of the system. -/
theorem keepsStart_of_run
    {x y : Locking.State Claims LedgerKey (ClaimTx lib commands) ClaimFound}
    {as : List (Locking.Label LedgerKey (ClaimTx lib commands) (LedgerAct lib commands))}
    (hx : (claimSystem lib commands contracts columns).Reachable x)
    (hrun : (claimSystem lib commands contracts columns).Run x as y) :
    KeepsStart x.data y.data := by
  refine hrun.preserves (R := fun x y => KeepsStart x.data y.data) ?_ ?_ hx ?_
  · intro s r hr startedAt hstarted
    exact ⟨r, hr, rfl, hstarted⟩
  · intro s t u hst htu r hr startedAt hstarted
    obtain ⟨r', hr', hid, hstarted⟩ := hst r hr startedAt hstarted
    obtain ⟨r'', hr'', hid', hstarted⟩ := htu r' hr' startedAt hstarted
    exact ⟨r'', hr'', hid'.trans hid, hstarted⟩
  · intro s a t hs hst
    rcases claim_change hs hst with hsame | ⟨hchange, -⟩
    · rw [hsame]
      exact fun r hr startedAt hstarted => ⟨r, hr, rfl, hstarted⟩
    · exact hchange.keepsStart

/-- **Claims are exclusive.** In every reachable state, whatever claims, intake and terminal calls
interleave: no claim found a run that was over, and each found its run queued or running with a
lease that was over when it was selected; between two successive claims of a run the lease of the
earlier one has passed; exactly one claim took a run from the queue, once it has left it; a run
was started by the first of its claims, and keeps that time along every run of the system; and a
step commits at most one claim, of the row that is there. -/
theorem claims_exclusive
    {x : Locking.State Claims LedgerKey (ClaimTx lib commands) ClaimFound}
    (hx : (claimSystem lib commands contracts columns).Reachable x) :
    (∀ c ∈ x.data.claims, c.found.status.terminal = false ∧
      (c.found.status = .queued ∨ c.found.LeaseOver c.statement.selectedAt)) ∧
    (∀ runId, (x.data.of runId).IsChain fun a b =>
      a.statement.updatedAt + seconds (clampLease a.statement.leaseSeconds) ≤
        b.statement.selectedAt) ∧
    (∀ r ∈ x.data.runs, (x.data.of r.runId).countP Claimed.fromQueue =
      if r.status = .queued then 0 else 1) ∧
    (∀ r ∈ x.data.runs,
      r.startedAt = (x.data.of r.runId).head?.map fun c => c.statement.updatedAt) ∧
    (∀ as y, (claimSystem lib commands contracts columns).Run x as y →
      KeepsStart x.data y.data) ∧
    ∀ a y, (claimSystem lib commands contracts columns).step x a y → ClaimsOne x.data y.data := by
  have hinv := claimInv_of_reachable hx
  refine ⟨fun c hc => ?_, fun runId => ?_, fun r hr => (hinv.run r hr).fromQueue,
    fun r hr => (hinv.run r hr).started, fun as y hrun => keepsStart_of_run hx hrun,
    fun a y hst => ?_⟩
  · refine ⟨?_, hinv.found c hc⟩
    rcases hinv.found c hc with hqueued | ⟨hrunning, -⟩
    · rw [hqueued]
      rfl
    · rw [hrunning]
      rfl
  · cases hcs : x.data.of runId with
    | nil => exact List.isChain_nil
    | cons c cs =>
        have hc : c ∈ x.data.of runId := hcs ▸ List.mem_cons_self ..
        obtain ⟨hmem, hid⟩ := List.mem_filter.mp hc
        obtain ⟨r, hr, hrid⟩ := hinv.known c hmem
        have hwaited := (hinv.run r hr).waited
        rw [hrid, beq_iff_eq.mp hid, hcs] at hwaited
        exact hwaited
  · rcases claim_change hx hst with hsame | ⟨hchange, -⟩
    · exact Or.inl (congrArg Claims.claims hsame)
    · exact hchange.claimsOne

end Statement

/-! ### Two claims -/

/-- The first claim of the run. -/
def exampleClaim : ClaimStatement := ⟨1, 0, 1, "worker-0", 60, by decide⟩

/-- The second, when the lease is over. -/
def exampleReclaim : ClaimStatement :=
  ⟨1, 1 + seconds 60, 2 + seconds 60, "worker-1", 60, by decide⟩

/-- A claim that finds its row unlocked can be committed. -/
theorem reachable_claim (st : ClaimStatement) (run : RunRow) {s : Claims}
    (hs : ((claimSystem exampleLib exampleCommands exampleContracts exampleColumns).restrict
      fun _ _ => True).Reachable (Locking.State.free s))
    (hselect : st.select s.ledger.db = some run) (hchecked : (st.lease run).checked = true) :
    ((claimSystem exampleLib exampleCommands exampleContracts exampleColumns).restrict
      fun _ _ => True).Reachable (Locking.State.free
        ⟨{ s.ledger with db := st.write s.ledger.db }, s.claims ++ [⟨st, run⟩]⟩) := by
  have hdone := Locking.Protocol.reachable_transaction (x := ClaimTx.claim st) (c := .run run) hs
    (Option.map_eq_some_iff.mpr ⟨run, hselect, rfl⟩) trivial fun _ _ => trivial
  change Labelled.System.Reachable _ (Locking.State.free (st.update run s)) at hdone
  rw [ClaimStatement.update, if_pos hchecked] at hdone
  exact hdone

/-- Two workers claim the run, one after the lease of the other. -/
theorem claims_exclusive_twice : ∃ x,
    (claimSystem exampleLib exampleCommands exampleContracts exampleColumns).Reachable x ∧
      (x.data.of 1).length = 2 ∧
      ∀ r ∈ x.data.runs, r.startedAt = some 1 ∧
        (x.data.of r.runId).countP Claimed.fromQueue = 1 := by
  have hinit : ((claimSystem exampleLib exampleCommands exampleContracts exampleColumns).restrict
      fun _ _ => True).Reachable (Locking.State.free Claims.initial) :=
    Labelled.System.Reachable.init ⟨rfl, fun _ => rfl⟩
  have hqueued := Locking.Protocol.reachable_transaction
    (x := ClaimTx.ledger (LedgerTx.intake exampleDelivery 0)) (c := .ledger .newCommand) hinit rfl
    trivial fun _ _ => trivial
  rw [show (claimProtocol exampleLib exampleCommands exampleContracts exampleColumns).effect
    (.ledger (.intake exampleDelivery 0)) (.ledger .newCommand) Claims.initial =
      ⟨exampleQueued, []⟩ from congrArg (fun l => Claims.mk l []) exampleQueued_eq] at hqueued
  have hfirst := reachable_claim exampleClaim exampleRun hqueued
    (ClaimStatement.select_of_mem (List.nodup_singleton _) (List.mem_singleton_self _) rfl rfl)
    (by decide)
  have hsecond := reachable_claim exampleReclaim (exampleClaim.lease exampleRun)
    hfirst (ClaimStatement.select_of_mem (List.nodup_singleton _) (List.mem_singleton_self _) rfl
      (by decide)) (by decide)
  have hall := claims_exclusive hsecond.of_restrict
  refine ⟨_, hsecond.of_restrict, rfl, fun r hr => ⟨?_, ?_⟩⟩
  · have hstarted := hall.2.2.2.1 r hr
    obtain rfl := List.mem_singleton.mp hr
    exact hstarted
  · have hcount := hall.2.2.1 r hr
    obtain rfl := List.mem_singleton.mp hr
    exact hcount

end Extractor
