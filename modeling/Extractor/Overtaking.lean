import Extractor.IntakeRoundTrip
import Extractor.Lib.Queue

/-!
# What is taken before what waits

`crates/eventing/src/outbox.rs` claims outbox rows in the order of `next_attempt_at` and
`enqueued_at`, and `crates/eventing/src/completion.rs` claims runs in the order of `queued_at`.
What the order promises is proved here as an account along every interleaving: as long as a row or a
run waits, what is taken in its place is paid from what stood before it, and only what comes before
it anew adds to that. A row that failed never does: its backoff puts it behind every row that is
due, so a message that the broker keeps refusing adds nothing to the account of another. How much
comes before it anew is not bounded here.

## Main results

* `outbox_overtaking`: the batches that pass over a due outbox row.
* `claim_overtaking`: the claims that pass over a queued run.
-/

namespace Extractor

open Labelled Queue

/-! ### The outbox -/

section Outbox

variable {J : Type}

namespace OutboxRow

instance : Std.Total (dueBefore (J := J)) where
  total a b := by
    rcases Nat.lt_trichotomy a.nextAttemptAt b.nextAttemptAt with hlt | heq | hgt
    · exact Or.inl (Or.inl hlt)
    · rcases Nat.le_total a.enqueuedAt b.enqueuedAt with hle | hle
      · exact Or.inl (Or.inr ⟨heq, hle⟩)
      · exact Or.inr (Or.inr ⟨heq.symm, hle⟩)
    · exact Or.inr (Or.inl hgt)

instance : IsTrans (OutboxRow J) dueBefore where
  trans a b c hab hbc := by
    rcases hab with hab | ⟨hab, hle⟩ <;> rcases hbc with hbc | ⟨hbc, hle'⟩
    · exact Or.inl (Nat.lt_trans hab hbc)
    · exact Or.inl (hbc ▸ hab)
    · exact Or.inl (hab ▸ hbc)
    · exact Or.inr ⟨hab.trans hbc, Nat.le_trans hle hle'⟩

/-- A row that is due now and stands before `r`. -/
def isAhead (now : Timestamp) (r x : OutboxRow J) : Bool :=
  x.due now && decide (x.dueBefore r) && x.outboxId != r.outboxId

end OutboxRow

/-- The rows that a batch takes before `r`. -/
def OutboxState.ahead (r : OutboxRow J) (s : OutboxState J) : ℕ :=
  s.rows.countP (r.isAhead s.now)

/-- `r` is due, and nobody has touched it. -/
def OutboxState.Waits (r : OutboxRow J) (s : OutboxState J) : Prop :=
  r ∈ s.rows ∧ r.due s.now = true

/-- The size of a batch that could have taken `r`: the claiming statement succeeds and no other
transaction keeps it from seeing `r`. -/
def batchPast (r : OutboxRow J) (s : OutboxState J) (a : OutboxLabel J) (_ : OutboxState J) : ℕ :=
  match a with
  | .claim _ claimedBy limit locked _ =>
      if locked.contains r.outboxId || (claimDue s.now claimedBy limit locked s.rows).isNone then 0
      else clampLimit limit
  | _ => 0

/-- The rows that get before `r`: a transaction commits one that is due as early, or a lease on one
runs out. -/
def cameAhead (r : OutboxRow J) (s : OutboxState J) (a : OutboxLabel J) (_ : OutboxState J) : ℕ :=
  match a with
  | .enqueue outboxId messageId causationCommandId operationId subject payload at_ =>
      if r.isAhead s.now (.enqueued outboxId messageId causationCommandId operationId subject
        payload at_) then 1 else 0
  | .tick elapsed => s.rows.countP fun x => !x.due s.now && r.isAhead (s.now + elapsed) x
  | _ => 0

variable {serialize : J → Option (List UInt8)} {s t : OutboxState J} {r x : OutboxRow J}

theorem OutboxRow.isAhead_eq_true {now : Timestamp} :
    r.isAhead now x = true ↔ x.due now = true ∧ x.dueBefore r ∧ x.outboxId ≠ r.outboxId := by
  rw [isAhead, Bool.and_eq_true, Bool.and_eq_true, decide_eq_true_iff, bne_iff_ne, and_assoc]

theorem OutboxRow.due_eq_true {now : Timestamp} : x.due now = true ↔
    x.publishedAt = none ∧ x.deadLetteredAt = none ∧ x.nextAttemptAt ≤ now ∧
      ∀ u, x.claimedUntil = some u → u ≤ now := by
  rw [due, Bool.and_eq_true, Bool.and_eq_true, Bool.and_eq_true, Option.isNone_iff_eq_none,
    Option.isNone_iff_eq_none, decide_eq_true_iff, Option.all_eq_true, and_assoc, and_assoc]
  simp only [decide_eq_true_iff]

/-- A row with a fresh lease does not wait. -/
theorem OutboxRow.not_due_lease {now : Timestamp} {claimedBy : String} :
    (x.lease now claimedBy).due now = false := by
  rw [Bool.eq_false_iff, Ne, due_eq_true]
  rintro ⟨-, -, -, hlease⟩
  exact absurd (hlease _ rfl) (Nat.not_le_of_lt (Nat.lt_add_of_pos_right (Nat.succ_pos _)))

/-- A row that has been published or given up is not due, and one that was backed off is not due
yet. -/
theorem OutboxRow.not_due_settle {now : Timestamp} {verdict : Verdict} :
    (x.settle now verdict).due now = false := by
  rw [Bool.eq_false_iff, Ne, due_eq_true]
  rintro ⟨hpublished, hdead, hnext, -⟩
  cases verdict with
  | unserializable => cases hdead
  | returned result =>
      cases result with
      | ok u => cases hpublished
      | error e =>
          rw [settle] at hdead hnext
          by_cases hpermanent : e.isPermanent = true
          · rw [if_pos hpermanent] at hdead
            cases hdead
          · rw [if_neg hpermanent] at hnext
            have hpos : 0 < backoff x.attempts :=
              Nat.mul_pos (by decide) (Nat.lt_min.mpr ⟨by decide, Nat.two_pow_pos _⟩)
            exact absurd hnext (Nat.not_le_of_lt (Nat.lt_add_of_pos_right hpos))

/-- The claiming statement takes the first due rows that it sees. -/
theorem claimDue_taken {now : Timestamp} {claimedBy : String} {limit : ℤ} {locked : List Uuid}
    {rows rows' : List (OutboxRow J)} {claimed : List (ClaimedRow J)}
    (h : claimDue now claimedBy limit locked rows = some (rows', claimed)) :
    rows' = Rows.updateWhere
      (fun x => ((next OutboxRow.dueBefore (clampLimit limit) (rows.filter fun x =>
        x.due now && !locked.contains x.outboxId)).map OutboxRow.outboxId).contains x.outboxId)
      (OutboxRow.lease now claimedBy) rows := by
  obtain ⟨rows₁, hup, heq⟩ := Option.map_eq_some_iff.mp h
  obtain ⟨rfl, -⟩ := Prod.mk.inj heq
  exact (updateChecked_eq_some_iff.mp hup).2

/-- **A batch that passes over a row** is full of rows that stood before it. -/
theorem ahead_claim (hkeys : (s.rows.map OutboxRow.outboxId).Nodup) (hs : s.Waits r)
    {claimedBy : String} {limit : ℤ} {locked : List Uuid} {rows : List (OutboxRow J)}
    {claimed : List (ClaimedRow J)}
    (hclaim : claimDue s.now claimedBy limit locked s.rows = some (rows, claimed))
    (hr : r ∈ rows) :
    rows.countP (r.isAhead s.now) + (if locked.contains r.outboxId then 0 else clampLimit limit) ≤
      s.ahead r := by
  have hrows := claimDue_taken hclaim
  generalize hbatch : next OutboxRow.dueBefore (clampLimit limit) (s.rows.filter fun x =>
    x.due s.now && !locked.contains x.outboxId) = batch at hrows
  have hmem : ∀ x ∈ batch, x ∈ s.rows ∧ x.due s.now = true := by
    rintro x hx
    rw [← hbatch] at hx
    obtain ⟨hx, hdue⟩ := List.mem_filter.mp (mem_of_mem_next hx)
    exact ⟨hx, (Bool.and_eq_true_iff.mp hdue).1⟩
  have hcount := countP_taken (p := fun x => (batch.map OutboxRow.outboxId).contains x.outboxId)
    (q := r.isAhead s.now) (f := OutboxRow.lease s.now claimedBy) s.rows fun x _ _ => by
      rw [OutboxRow.isAhead, OutboxRow.not_due_lease, Bool.false_and, Bool.false_and]
  rw [← hrows] at hcount
  rw [OutboxState.ahead, ← hcount]
  refine Nat.add_le_add_left ?_ _
  split
  · exact Nat.zero_le _
  · rename_i hfree
    have hwaiting : r ∈ s.rows.filter fun x => x.due s.now && !locked.contains x.outboxId :=
      List.mem_filter.mpr ⟨hs.1, by rw [hs.2, Bool.eq_false_iff.mpr hfree]; rfl⟩
    -- a row that is taken is not as it was
    have hnot : r ∉ batch := by
      intro hin
      rw [hrows] at hr
      obtain ⟨x, hx, hxr⟩ := Rows.mem_updateWhere.mp hr
      have hid : x.outboxId = r.outboxId := by
        rw [← hxr]
        split <;> rfl
      obtain rfl := Rows.eq_of_key hkeys hx hs.1 hid
      rw [if_pos (List.contains_iff_mem.mpr (List.mem_map_of_mem hin))] at hxr
      have hdue := hs.2
      rw [← hxr, OutboxRow.not_due_lease] at hdue
      cases hdue
    rw [← hbatch] at hnot
    obtain ⟨hlength, hbefore⟩ := before_of_notMem_next hwaiting hnot
    rw [hbatch] at hlength hbefore hnot
    rw [← hlength]
    refine length_le_countP OutboxRow.outboxId ?_ fun x hx => ⟨(hmem x hx).1, ?_⟩
    · rw [← hbatch, next, List.map_take]
      refine List.Nodup.sublist (List.take_sublist _ _) ?_
      refine ((List.perm_insertionSort _ _).map _).nodup_iff.mpr ?_
      exact hkeys.sublist ((List.filter_sublist ..).map _)
    · rw [Bool.and_eq_true, List.contains_iff_mem, OutboxRow.isAhead_eq_true]
      refine ⟨List.mem_map_of_mem hx, (hmem x hx).2, hbefore x hx, fun hid => ?_⟩
      rw [Rows.eq_of_key hkeys (hmem x hx).1 hs.1 hid] at hx
      exact hnot hx

/-- **What a step costs a row that waits** is paid from the rows before it. -/
theorem ahead_step (hkeys : (s.rows.map OutboxRow.outboxId).Nodup) (hs : s.Waits r)
    (ht : t.Waits r) {a : OutboxLabel J} (hst : outboxStep serialize s a = some t) :
    t.ahead r + batchPast r s a t ≤ s.ahead r + cameAhead r s a t := by
  cases a with
  | tick elapsed =>
      obtain rfl := Option.some.inj hst
      change List.countP _ s.rows + 0 ≤ List.countP _ s.rows + List.countP _ s.rows
      rw [Nat.add_zero, List.countP_eq_countP_filter_add s.rows _ (OutboxRow.due s.now),
        List.countP_filter, List.countP_filter]
      refine Nat.add_le_add (List.countP_mono_left fun x _ hx => ?_)
        (List.countP_mono_left fun x _ hx => ?_)
      · obtain ⟨hahead, hdue⟩ := Bool.and_eq_true_iff.mp hx
        exact OutboxRow.isAhead_eq_true.mpr ⟨hdue, (OutboxRow.isAhead_eq_true.mp hahead).2⟩
      · rw [Bool.and_comm]
        exact hx
  | enqueue outboxId messageId causationCommandId operationId subject payload at_ =>
      simp only [outboxStep] at hst
      split at hst
      · obtain ⟨rows, hins, rfl⟩ := Option.map_eq_some_iff.mp hst
        unfold insertOutbox at hins
        split at hins
        · exact absurd hins.symm (Option.some_ne_none _)
        · obtain ⟨-, rfl⟩ := Rows.insertKeyed_eq_some_iff.mp hins
          change List.countP _ (s.rows ++ [_]) + 0 ≤ List.countP _ s.rows + _
          rw [List.countP_append, List.countP_singleton]
          exact Nat.le_refl _
      · exact absurd hst.symm (Option.some_ne_none _)
  | claim relay claimedBy limit locked order =>
      have hstep : t = stepClaim s relay claimedBy limit locked order := by
        simp only [outboxStep] at hst
        split at hst
        · exact (Option.some.inj hst).symm
        · exact (Option.some.inj hst).symm
        · exact absurd hst.symm (Option.some_ne_none _)
      subst hstep
      unfold stepClaim at ht ⊢
      rw [batchPast]
      cases hclaim : claimDue s.now claimedBy limit locked s.rows with
      | none =>
          rw [Option.isNone_none, Bool.or_true, if_pos rfl]
          exact Nat.le_refl _
      | some batch =>
          obtain ⟨rows, claimed⟩ := batch
          rw [hclaim] at ht
          rw [Option.isNone_some, Bool.or_false]
          exact ahead_claim hkeys hs hclaim ht.1
  | publish relay result =>
      simp only [outboxStep] at hst
      split at hst
      · obtain rfl := Option.some.inj hst
        unfold stepPublish
        split <;> exact Nat.le_refl _
      · exact absurd hst.symm (Option.some_ne_none _)
  | settle relay =>
      simp only [outboxStep] at hst
      split at hst
      · obtain rfl := Option.some.inj hst
        unfold stepSettle
        split
        · exact Nat.le_refl _
        · rename_i rows hrecord
          rw [recordVerdict_eq] at hrecord
          obtain ⟨-, rfl⟩ := updateChecked_eq_some_iff.mp hrecord
          refine countP_updateWhere_le fun x _ _ hahead => ?_
          rw [OutboxRow.isAhead, OutboxRow.not_due_settle] at hahead
          cases hahead
      · exact absurd hst.symm (Option.some_ne_none _)
  | crash relay =>
      obtain rfl := Option.some.inj hst
      exact Nat.le_refl _

/-- **What passes over an outbox row.** While a row is due and untouched, in any interleaving of
relays, enqueuing transactions, failures and crashes, the batches that pass it over are together no
larger than the number of due rows that stood before it, and of those that came before it since:
rows committed with an earlier due time, and rows whose lease ran out. -/
theorem outbox_overtaking {m n : ℕ} (hs : (outboxSystem serialize).Reachable s)
    (hrun : Account (outboxSystem serialize) (batchPast r) (cameAhead r) (OutboxState.Waits r)
      s m n t) :
    t.ahead r + m ≤ s.ahead r + n :=
  hrun.balance (OutboxState.ahead r) hs fun _ _ _ hreach hs ht hst =>
    ahead_step (outboxInv_of_reachable hreach).keys hs ht hst

/-- A row that was enqueued at the start. -/
def earlyRow (i : Uuid) : OutboxRow Unit := .enqueued i i i i documentSubject () 0

/-- Two rows are enqueued. -/
def twoRows : OutboxState Unit := ⟨0, [earlyRow 1, earlyRow 2], fun _ => .idle, []⟩

/-- Rows come back as they were read. -/
def asRead : Reordering (ClaimedRow Unit) := fun l => ⟨l, .refl l⟩

/-- A batch of one passes over the second row. -/
theorem outbox_overtaking_batch :
    twoRows.Waits (earlyRow 2) ∧ twoRows.ahead (earlyRow 2) = 1 ∧
      (stepClaim twoRows 0 "relay" 1 [] asRead).ahead (earlyRow 2) + 1 ≤
        twoRows.ahead (earlyRow 2) + 0 := by
  have hempty : (outboxSystem fun _ : Unit => none).Reachable ⟨0, [], fun _ => .idle, []⟩ :=
    System.Reachable.init ⟨rfl, rfl, fun _ => rfl⟩
  have hone : outboxStep (fun _ : Unit => none) ⟨0, [], fun _ => .idle, []⟩
      (.enqueue 1 1 1 1 documentSubject () 0) = some ⟨0, [earlyRow 1], fun _ => .idle, []⟩ := rfl
  have htwo : outboxStep (fun _ : Unit => none) ⟨0, [earlyRow 1], fun _ => .idle, []⟩
      (.enqueue 2 2 2 2 documentSubject () 0) = some twoRows := rfl
  have hclaim : outboxStep (fun _ : Unit => none) twoRows (.claim 0 "relay" 1 [] asRead) =
      some (stepClaim twoRows 0 "relay" 1 [] asRead) := rfl
  have hwaits : twoRows.Waits (earlyRow 2) :=
    ⟨List.mem_cons_of_mem _ (List.mem_singleton_self _), rfl⟩
  have hwaits' : (stepClaim twoRows 0 "relay" 1 [] asRead).Waits (earlyRow 2) :=
    ⟨List.mem_cons_of_mem _ (List.mem_singleton_self _), rfl⟩
  have hrun := Account.snoc (S := outboxSystem fun _ : Unit => none)
    (.start _ (batchPast (earlyRow 2)) (cameAhead (earlyRow 2)) hwaits) hclaim hwaits'
  exact ⟨hwaits, rfl, outbox_overtaking ((hempty.step hone).step htwo) hrun⟩

end Outbox

/-! ### The runs -/

section Runs

instance : Std.Total RunRow.queuedBefore := ⟨fun a b => Nat.le_total a.queuedAt b.queuedAt⟩

instance : IsTrans RunRow RunRow.queuedBefore := ⟨fun _ _ _ hab hbc => Nat.le_trans hab hbc⟩

/-- A queued run that stands before `r`. -/
def RunRow.isAhead (r x : RunRow) : Bool :=
  x.status == .queued && decide (x.queuedBefore r) && x.runId != r.runId

/-- The queued runs that stand before `r`. -/
def Db.ahead (r : RunRow) (db : Db) : ℕ := db.runs.countP r.isAhead

variable {lib : UrlLib} {commands : CommandLib}

/-- `r` is queued, and nobody has claimed it. -/
def LedgerQueued (r : RunRow) (x : LedgerState lib commands) : Prop :=
  r ∈ x.data.db.runs ∧ r.status = .queued

/-- The run that a claim leases although it could have seen `r`. -/
def leasedPast (r : RunRow) (x : LedgerState lib commands) (a : LedgerLabel lib commands) :
    Option RunRow :=
  match a with
  | .act (.claim now claimedBy leaseSeconds _ skipped) =>
      if skipped.contains r.runId then none
      else
        match claimNext now claimedBy leaseSeconds skipped x.data.db with
        | .ok (leased, _) => leased.map Prod.fst
        | .error _ => none
  | _ => none

/-- A claim passes over `r`. -/
def claimPast (r : RunRow) (x : LedgerState lib commands) (a : LedgerLabel lib commands)
    (_ : LedgerState lib commands) : ℕ :=
  if (leasedPast r x a).isSome then 1 else 0

/-- A run gets before `r`: it is queued with an earlier time, or its worker lost it. -/
def runCameAhead (r : RunRow) (x : LedgerState lib commands) (a : LedgerLabel lib commands)
    (y : LedgerState lib commands) : ℕ :=
  (y.data.db.runs.countP fun run =>
    !x.data.db.runs.any (fun old => old.runId == run.runId) && r.isAhead run) +
  if (leasedPast r x a).any fun run => run.status == .running then 1 else 0

variable {contracts : Contracts} {columns : BlobColumns} {s t : Ledger}
  {x y : LedgerState lib commands} {r run : RunRow}

theorem RunRow.isAhead_eq_true : r.isAhead run = true ↔
    run.status = .queued ∧ run.queuedBefore r ∧ run.runId ≠ r.runId := by
  rw [isAhead, Bool.and_eq_true, Bool.and_eq_true, decide_eq_true_iff, bne_iff_ne, beq_iff_eq,
    and_assoc]

/-- A run that is no longer queued stands before nobody. -/
theorem RunRow.not_isAhead (h : run.status ≠ .queued) : r.isAhead run = false := by
  rw [Bool.eq_false_iff, Ne, isAhead_eq_true]
  exact fun hahead => h hahead.1

/-- **A step brings runs before `r` only by queueing them.** -/
theorem ahead_change (ht : LedgerInv contracts t)
    (hchange : LedgerChange lib commands contracts s t) :
    t.db.ahead r ≤ s.db.ahead r + t.db.runs.countP fun run =>
      !s.db.runs.any (fun old => old.runId == run.runId) && r.isAhead run := by
  cases hchange with
  | queued hdecoded hnew hqueued hreturned =>
      rename_i subject payload command now
      obtain ⟨source, -, hruns⟩ := hqueued.runs
      have hids := ht.runIds
      rw [Db.ahead, hruns, List.countP_append, List.countP_append, Db.ahead]
      refine Nat.add_le_add_left (Nat.le_trans ?_ (Nat.le_add_left _ _)) _
      refine List.countP_mono_left fun run hrun hahead => ?_
      rw [hahead, Bool.and_true, Bool.not_eq_true', List.any_eq_false]
      intro old hold hid
      rw [hruns, List.map_append] at hids
      exact (List.nodup_append.mp hids).2.2 _ (List.mem_map_of_mem hold) _
        (List.mem_map_of_mem hrun) (beq_iff_eq.mp hid)
  | leased hrun hclaimable hchecked hdb hreturned =>
      rw [hdb]
      refine Nat.le_trans (countP_updateWhere_le fun run _ _ hahead => ?_) (Nat.le_add_right _ _)
      rw [RunRow.not_isAhead (fun h => by cases h)] at hahead
      cases hahead
  | ended henter hended hreturned =>
      rename_i call now ended
      rw [Db.ahead, hended.runs]
      refine Nat.le_trans (countP_updateWhere_le fun run _ _ hahead => ?_) (Nat.le_add_right _ _)
      have hterminal := call.outcome_terminal
      rw [RunRow.not_isAhead fun h => ?_] at hahead
      · cases hahead
      · rw [call.change_status] at h
        rw [h] at hterminal
        cases hterminal
  | quiet hquiet hreturned =>
      rw [Db.ahead, hquiet.runs]
      exact Nat.le_add_right _ _

/-- Every run has a source. -/
theorem exists_source (hx : (ledgerSystem lib commands contracts columns).Reachable x) :
    ∀ r ∈ x.data.db.runs, ∃ source ∈ x.data.db.sources, source.sourceId = r.sourceId := by
  refine hx.invariant (I := fun x => ∀ r ∈ x.data.db.runs,
    ∃ source ∈ x.data.db.sources, source.sourceId = r.sourceId) ?_ ?_
  · rintro x ⟨hx, -⟩ r hr
    rw [hx] at hr
    cases hr
  · intro x a y hx ih hst r hr
    cases ledger_intake_change hx hst with
    | taken hdecoded hp hupserted hruns hnext =>
        rename_i subject payload command now p sourceId
        obtain ⟨-, hintake⟩ := prepareSource_sourceId hp
        have hsources : ∀ source ∈ x.data.db.sources, ∃ source' ∈ y.data.db.sources,
            source'.sourceId = source.sourceId := by
          intro source hsource
          have hmem := List.mem_map_of_mem (f := SourceRow.sourceId) hsource
          cases hupserted with
          | found _ _ _ hsources =>
              rw [← Rows.map_updateWhere (p := fun r => r.sourceId == _)
                (f := recanonized _) SourceRow.sourceId fun r _ _ => rfl] at hmem
              rw [hsources]
              exact List.mem_map.mp hmem
          | added _ _ hsources =>
              exact ⟨source, hsources ▸ List.mem_append_left _ hsource, rfl⟩
        rw [hruns] at hr
        rcases List.mem_append.mp hr with hr | hr
        · obtain ⟨source, hsource, hid⟩ := ih r hr
          obtain ⟨source', hsource', hid'⟩ := hsources source hsource
          exact ⟨source', hsource', hid'.trans hid⟩
        · obtain rfl := List.mem_singleton.mp hr
          have hown : ∃ source ∈ y.data.db.sources, source.sourceId = sourceId := by
            cases hupserted with
            | found hmem _ hid _ => exact hid ▸ hsources _ hmem
            | added _ hid hsources =>
                exact ⟨_, hsources ▸ List.mem_append_right _ (List.mem_singleton_self _), hid.symm⟩
          obtain ⟨source, hsource, hid⟩ := hown
          exact ⟨source, hsource, hid.trans (hintake sourceId).symm⟩
    | kept hsources hnext hold hnew =>
        obtain ⟨old, hmem, hsame⟩ := hnew r hr
        obtain ⟨source, hsource, hid⟩ := ih old hmem
        exact ⟨source, hsources ▸ hsource, hid.trans hsame.sourceId.symm⟩

/-- **A claim that passes over `r`** leases a run that stands before it. -/
theorem claimNext_past {now : Timestamp} {claimedBy : String} {leaseSeconds : ℤ}
    {skipped : List Uuid} {db db' : Db} {leased : RunRow × SourceRow}
    (hr : r ∈ db.runs) (hqueued : r.status = .queued)
    (hsource : ∃ source ∈ db.sources, source.sourceId = r.sourceId) (hfree : r.runId ∉ skipped)
    (hclaim : claimNext now claimedBy leaseSeconds skipped db = .ok (some leased, db')) :
    leased.1 ∈ db.runs ∧ leased.1.claimable now = true ∧ leased.1.queuedBefore r ∧
      db'.runs = Rows.updateWhere (fun run => run.runId == leased.1.runId)
        (RunRow.claim now claimedBy leaseSeconds) db.runs := by
  obtain ⟨next, _, hread, hclaim⟩ := Tx.bind_eq_ok_iff.mp hclaim
  obtain ⟨hnext, rfl⟩ := Tx.read_eq_ok_iff.mp hread
  cases next with
  | none =>
      obtain ⟨hnone, -⟩ := Tx.pure_eq_ok_iff.mp hclaim
      cases hnone
  | some found =>
      obtain ⟨run, source⟩ := found
      obtain ⟨_, _, hcheck, hclaim⟩ := Tx.bind_eq_ok_iff.mp hclaim
      obtain ⟨-, rfl⟩ := Tx.require_eq_ok_iff.mp hcheck
      obtain ⟨_, _, hwrite, hret⟩ := Tx.bind_eq_ok_iff.mp hclaim
      obtain rfl := Tx.write_eq_ok_iff.mp hwrite
      obtain ⟨hleased, rfl⟩ := Tx.pure_eq_ok_iff.mp hret
      obtain rfl := Option.some.inj hleased
      obtain ⟨hrun, hclaimable, -⟩ := nextRun_eq_some hnext
      refine ⟨hrun, hclaimable, ?_, rfl⟩
      have hwaits : r ∈ db.runs.filter fun r => r.claimable now && !skipped.contains r.runId := by
        refine List.mem_filter.mpr ⟨hr, Bool.and_eq_true_iff.mpr ⟨?_, ?_⟩⟩
        · rw [RunRow.claimable, hqueued]
          rfl
        · rw [Bool.not_eq_true', Bool.eq_false_iff, Ne, List.contains_iff_mem]
          exact hfree
      have hjoined : ((db.sources.find? fun s => s.sourceId == r.sourceId).map
          fun s => (r, s)).isSome = true := by
        obtain ⟨source, hsource, hid⟩ := hsource
        rw [Option.isSome_map, List.find?_isSome]
        exact ⟨source, hsource, beq_iff_eq.mpr hid⟩
      obtain ⟨first, -, hfirst, hbefore⟩ := before_of_findSome? hwaits hjoined hnext
      obtain ⟨_, -, heq⟩ := Option.map_eq_some_iff.mp hfirst
      obtain ⟨rfl, -⟩ := Prod.mk.inj heq
      exact hbefore

/-- What a claim that passes over `r` leaves. -/
theorem leasedPast_eq_some (hx : (ledgerSystem lib commands contracts columns).Reachable x)
    (hqueued : LedgerQueued r x) {a : LedgerLabel lib commands}
    (hst : (ledgerSystem lib commands contracts columns).step x a y)
    (hleased : leasedPast r x a = some run) :
    ∃ (now : Timestamp) (claimedBy : String) (leaseSeconds : ℤ),
      run ∈ x.data.db.runs ∧ run.claimable now = true ∧ run.queuedBefore r ∧
      y.data.db.runs = Rows.updateWhere (fun r => r.runId == run.runId)
        (RunRow.claim now claimedBy leaseSeconds) x.data.db.runs := by
  cases hst with
  | act hact =>
      cases hact with
      | claim hskipped =>
          rename_i now claimedBy leaseSeconds maxEventBytes skipped
          rw [leasedPast] at hleased
          split at hleased
          · cases hleased
          · rename_i hfree
            have hsource := exists_source hx r hqueued.1
            have hfree : r.runId ∉ skipped := fun hmem => hfree (List.contains_iff_mem.mpr hmem)
            cases hclaim : claimNext now claimedBy leaseSeconds skipped x.data.db with
            | error e =>
                rw [hclaim] at hleased
                cases hleased
            | ok answer =>
                obtain ⟨leased, db⟩ := answer
                rw [hclaim] at hleased
                obtain ⟨joined, rfl, rfl⟩ := Option.map_eq_some_iff.mp hleased
                obtain ⟨hrun, hclaimable, hbefore, hruns⟩ :=
                  claimNext_past hqueued.1 hqueued.2 hsource hfree hclaim
                refine ⟨now, claimedBy, leaseSeconds, hrun, hclaimable, hbefore, ?_⟩
                change (claimQueuedRun columns now claimedBy leaseSeconds maxEventBytes skipped
                  x.data.db).2.runs = _
                rw [claimQueuedRun_snd, transact, hclaim]
                exact hruns
      | _ => cases hleased
  | _ => cases hleased

/-- **What a step costs a run that waits** is paid from the runs before it. -/
theorem ahead_ledger (hx : (ledgerSystem lib commands contracts columns).Reachable x)
    (hqueued : LedgerQueued r x) (hqueued' : LedgerQueued r y) {a : LedgerLabel lib commands}
    (hst : (ledgerSystem lib commands contracts columns).step x a y) :
    y.data.db.ahead r + claimPast r x a y ≤ x.data.db.ahead r + runCameAhead r x a y := by
  have hinv := ledgerInv_of_reachable hx
  have harrived : y.data.db.ahead r ≤ x.data.db.ahead r + y.data.db.runs.countP fun run =>
      !x.data.db.runs.any (fun old => old.runId == run.runId) && r.isAhead run := by
    rcases ledger_change hx hst with hsame | hchange
    · rw [hsame]
      exact Nat.le_add_right _ _
    · exact ahead_change (ledgerInv_of_reachable (hx.step hst)) hchange
  rw [claimPast, runCameAhead, ← Nat.add_assoc]
  cases hleased : leasedPast r x a with
  | none => exact Nat.add_le_add harrived (Nat.zero_le _)
  | some run =>
      obtain ⟨now, claimedBy, leaseSeconds, hrun, hclaimable, hbefore, hruns⟩ :=
        leasedPast_eq_some hx hqueued hst hleased
      rw [RunRow.claimable, Bool.or_eq_true, Bool.and_eq_true, beq_iff_eq, beq_iff_eq] at hclaimable
      rcases hclaimable with hstatus | ⟨hstatus, -⟩
      · have hcount := countP_taken (p := fun r => r.runId == run.runId) (q := r.isAhead)
          (f := RunRow.claim now claimedBy leaseSeconds) x.data.db.runs fun _ _ _ =>
            RunRow.not_isAhead fun h => by cases h
        rw [← hruns] at hcount
        have hpos : 0 < x.data.db.runs.countP fun r' => r'.runId == run.runId && r.isAhead r' := by
          refine List.countP_pos_iff.mpr ⟨run, hrun, ?_⟩
          rw [beq_self_eq_true, Bool.true_and, RunRow.isAhead_eq_true]
          refine ⟨hstatus, hbefore, fun hid => ?_⟩
          -- a run that is leased is queued no longer
          have hwaits := hqueued'.1
          rw [hruns] at hwaits
          obtain ⟨old, -, hold⟩ := Rows.mem_updateWhere.mp hwaits
          have hqueued := hqueued.2
          split at hold
          · rw [← hold] at hqueued
            cases hqueued
          · rename_i hother
            rw [hold] at hother
            exact hother (beq_iff_eq.mpr hid.symm)
        change y.data.db.ahead r + _ = x.data.db.ahead r at hcount
        rw [Option.isSome_some, if_pos rfl]
        omega
      · rw [Option.any_some, hstatus]
        exact Nat.add_le_add_right harrived 1

/-- **What passes over a queued run.** While a run is queued, in any interleaving of the ledger, the
claims that pass it over are at most as many as the queued runs that stood before it, and those that
came before it since: runs queued with an earlier time, and runs whose lease ran out on another
worker. -/
theorem claim_overtaking {m n : ℕ}
    (hx : (ledgerSystem lib commands contracts columns).Reachable x)
    (hrun : Account (ledgerSystem lib commands contracts columns) (claimPast r) (runCameAhead r)
      (LedgerQueued r) x m n y) :
    y.data.db.ahead r + m ≤ x.data.db.ahead r + n :=
  hrun.balance (fun x => x.data.db.ahead r) hx fun _ _ _ hreach hs ht hst =>
    ahead_ledger hreach hs ht hst

/-- Two commands for the same blob. -/
def laterCommands : CommandLib :=
  ⟨fun payload => some { exampleEnvelope with commandId := if payload = [] then 1 else 7 }⟩

/-- The intake of the first command. -/
def earlyIntake : LedgerTx exampleLib laterCommands :=
  .intake ⟨captureSubject, [], exampleCommand, rfl⟩ 0

/-- The intake of the second. -/
def lateIntake : LedgerTx exampleLib laterCommands :=
  .intake ⟨captureSubject, [1], { exampleCommand with commandId := 7 }, rfl⟩ 1

/-- The ledger after the intake of both commands. -/
def bothQueued : Ledger :=
  lateIntake.effect exampleLib laterCommands exampleContracts .newCommand
    (earlyIntake.effect exampleLib laterCommands exampleContracts .newCommand Ledger.initial)

/-- The run of the second command. -/
def lateRun : RunRow :=
  { exampleRun with runId := 5, commandId := 7, queuedAt := 1 }

/-- The ledger after a claim. -/
def oneLeased : Ledger :=
  { bothQueued with
    db := (claimQueuedRun exampleColumns 2 "worker" 60 1000 [] bothQueued.db).2 }

/-- A claim passes over the run of the second command. -/
theorem claim_overtaking_once : bothQueued.db.ahead lateRun = 1 ∧
    oneLeased.db.ahead lateRun + 1 ≤ bothQueued.db.ahead lateRun + 0 := by
  have hinit : ((ledgerSystem exampleLib laterCommands exampleContracts exampleColumns).restrict
      fun _ _ => True).Reachable (Locking.State.free Ledger.initial) :=
    System.Reachable.init ⟨rfl, fun _ => rfl⟩
  have hone := Locking.Protocol.reachable_transaction (x := earlyIntake) (c := .newCommand) hinit
    rfl trivial fun _ _ => trivial
  have hboth := Locking.Protocol.reachable_transaction (x := lateIntake) (c := .newCommand) hone
    rfl trivial fun _ _ => trivial
  have hstatement : LedgerStatement exampleLib laterCommands exampleContracts exampleColumns
      (.claim 2 "worker" 60 1000 [])
      (Locking.Protocol.Locked
        (Locking.State.free bothQueued : LedgerState exampleLib laterCommands))
      bothQueued oneLeased := LedgerStatement.claim fun runId hlocked => absurd rfl hlocked
  have hruns : bothQueued.db.runs = [exampleRun, lateRun] := rfl
  have hleft : oneLeased.db.runs = [exampleRun.claim 2 "worker" 60, lateRun] := rfl
  have hqueued : LedgerQueued lateRun
      (Locking.State.free bothQueued : LedgerState exampleLib laterCommands) :=
    ⟨hruns ▸ List.mem_cons_of_mem _ (List.mem_singleton_self _), rfl⟩
  have hrun := Account.snoc
    (S := ledgerSystem exampleLib laterCommands exampleContracts exampleColumns)
    (.start _ (claimPast lateRun) (runCameAhead lateRun) hqueued)
    (Locking.Protocol.Step.act hstatement)
    ⟨hleft ▸ List.mem_cons_of_mem _ (List.mem_singleton_self _), rfl⟩
  exact ⟨rfl, claim_overtaking hboth.of_restrict hrun⟩

end Runs

end Extractor
