import Mathlib.Algebra.Order.BigOperators.Group.List
import Mathlib.Algebra.Order.Group.Nat
import Extractor.Lib.Files
import Extractor.Lib.System
import Extractor.Schema

/-!
# Media archives

`reserve_media_archive` and `delete_expired_media`: the accounting of archived media. A reservation
is one transaction that takes an advisory lock, measures the usage at its start time, and appends
an artifact row and an archive row for a succeeded run. The purge is three statements, each a
transaction of its own at its own time. Reservations and purges of any number of callers interleave
statement by statement while time passes; an open transaction's rows are seen when it commits, also
where the answer to the commit is lost.

The status of a run does not change here: a succeeded run is over, and a reservation is made for
one.

## Main results

* `media_budget_kept`: the unexpired bytes stay within the budget when no reservation's measured
  usage and length saturate; a reservation that is granted writes one row of each kind for a
  succeeded run, and one that is not writes nothing unless its commit was applied unanswered.
* `media_budget_overrun`: with the largest budget a saturated sum is granted.
-/

namespace Extractor

open Files (update_some_eq_some update_none_eq_some)

/-! ### Rows -/

/-- One row of `extractor.media_archives`. -/
structure MediaArchiveRow where
  runId : Uuid
  videoId : String
  digestHex : String
  mediaType : String
  lengthBytes : ℕ
  createdAt : Timestamp
  expiresAt : Timestamp
  deriving DecidableEq

/-- The constraints of `extractor.media_archives`. -/
def MediaArchiveRow.checked (m : MediaArchiveRow) : Bool :=
  [m.videoId, m.mediaType].all storable && lengthBetween 1 32 m.videoId &&
    isSha256Hex m.digestHex && decide (0 < m.lengthBytes) && decide (m.createdAt < m.expiresAt)

/-- `expires_at <= transaction_timestamp()`. -/
def MediaArchiveRow.expired (at_ : Timestamp) (m : MediaArchiveRow) : Bool :=
  decide (m.expiresAt ≤ at_)

/-- The tables of this component. -/
structure MediaDb where
  runs : List RunRow
  artifacts : List ArtifactRow
  archives : List MediaArchiveRow

/-- `sum(length_bytes)` over the rows that expire after a time. -/
def bytesAfter (at_ : Timestamp) (archives : List MediaArchiveRow) : ℕ :=
  ((archives.filter fun m => !m.expired at_).map MediaArchiveRow.lengthBytes).sum

/-- `MediaArchiveRecord`. -/
structure MediaArchiveRecord where
  runId : Uuid
  videoId : String
  reference : BlobRef
  retentionHours : ℤ
  deriving DecidableEq

/-- The artifact row of a reservation that began at a time. -/
def MediaArchiveRecord.artifact (record : MediaArchiveRecord) (startedAt : Timestamp) :
    ArtifactRow where
  runId := record.runId
  kind := "archived_media"
  ownerService := producer
  digestHex := record.reference.digest.hex
  mediaType := record.reference.mediaType
  lengthBytes := record.reference.lengthBytes
  createdAt := startedAt

/-- The archive row of a reservation that began at a time. -/
def MediaArchiveRecord.archive (record : MediaArchiveRecord) (startedAt : Timestamp) :
    MediaArchiveRow where
  runId := record.runId
  videoId := record.videoId
  digestHex := record.reference.digest.hex
  mediaType := record.reference.mediaType
  lengthBytes := record.reference.lengthBytes
  createdAt := startedAt
  expiresAt := (startedAt + 3600000000 * record.retentionHours).toNat

/-- The row of `extraction_runs` that both inserts select. -/
def succeededRun (db : MediaDb) (runId : Uuid) : Option RunRow :=
  db.runs.find? fun r => r.runId == runId && r.status == .succeeded

/-! ### Calls -/

/-- `PersistenceError`. -/
inductive PersistenceError
  | invalidArtifact
  | valueOverflow
  | ownerMismatch
  | query
  deriving DecidableEq

/-- `i64::MAX`. -/
def i64Max : ℕ := 2 ^ 63 - 1

/-- `i64::saturating_add` of two values that are not negative. -/
def saturatingAddI64 (a b : ℕ) : ℕ := min (a + b) i64Max

/-- Where a reservation is. -/
inductive ReservePhase
  /-- It waits for the advisory lock. -/
  | waiting
  | locked
  /-- The budget has room. -/
  | measured
  /-- The first insert has run; it inserts no row when the run has not succeeded. -/
  | artifactInserted (artifact : Option ArtifactRow)
  | archiveInserted (artifact : Option ArtifactRow) (archive : MediaArchiveRow)

/-- A reservation in progress; `startedAt` is its `transaction_timestamp()`. -/
structure ReserveCall where
  record : MediaArchiveRecord
  startedAt : Timestamp
  phase : ReservePhase

/-- A purge in progress, with the rows and the time of its first statement. -/
structure PurgeCall where
  selectedAt : Timestamp
  selected : List MediaArchiveRow
  /-- The second statement has run. -/
  artifactsDeleted : Bool

/-- The digests that a purge selected, and returns. -/
def PurgeCall.digests (p : PurgeCall) : List String :=
  (p.selected.filter (·.expired p.selectedAt)).map MediaArchiveRow.digestHex

/-- The clock, the committed rows, the advisory lock and the calls in progress. -/
structure MediaState where
  now : Timestamp
  db : MediaDb
  /-- The reservation that holds the advisory lock. -/
  lock : Option ℕ
  reserves : ℕ → Option ReserveCall
  purges : ℕ → Option PurgeCall
  /-- What the reservations returned, in order. -/
  answers : List (ℕ × Except PersistenceError Bool)
  /-- The reservations that were committed, in order. -/
  commits : List ℕ

namespace MediaState

/-- A reservation moves on. -/
def withReserve (s : MediaState) (k : ℕ) (c : ReserveCall) : MediaState :=
  { s with reserves := Function.update s.reserves k (some c) }

/-- A reservation returns; its transaction is over and its lock released. -/
def answer (s : MediaState) (k : ℕ) (result : Except PersistenceError Bool) : MediaState :=
  { s with
    lock := if s.lock = some k then none else s.lock
    reserves := Function.update s.reserves k none
    answers := s.answers ++ [(k, result)] }

/-- A reservation returns after its rows were committed. -/
def commit (s : MediaState) (k : ℕ) (result : Except PersistenceError Bool)
    (artifact : Option ArtifactRow) (archive : MediaArchiveRow) : MediaState :=
  { s.answer k result with
    db := { s.db with
      artifacts := s.db.artifacts ++ artifact.toList
      archives := s.db.archives ++ [archive] }
    commits := s.commits ++ [k] }

/-- A purge moves on. -/
def withPurge (s : MediaState) (k : ℕ) (p : PurgeCall) : MediaState :=
  { s with purges := Function.update s.purges k (some p) }

/-- A purge returns, or stops. -/
def endPurge (s : MediaState) (k : ℕ) : MediaState :=
  { s with purges := Function.update s.purges k none }

end MediaState

/-- `delete from artifacts using media_archives`: the artifact rows of every digest that an expired
archive has. -/
def deleteExpiredArtifacts (at_ : Timestamp) (db : MediaDb) : MediaDb :=
  { db with
    artifacts := db.artifacts.filter fun a =>
      !(a.kind == "archived_media" &&
        db.archives.any fun m => m.digestHex == a.digestHex && m.expired at_) }

/-- `delete from media_archives`. -/
def deleteExpiredArchives (at_ : Timestamp) (db : MediaDb) : MediaDb :=
  { db with archives := db.archives.filter fun m => !m.expired at_ }

/-! ### Steps -/

/-- The steps: time, the statements of a reservation and of a purge, and their failures. -/
inductive MediaLabel
  | tick (now : Timestamp)
  | reserve (k : ℕ)
  | rollback (k : ℕ)
  | commitUnanswered (k : ℕ)
  | purge (k : ℕ)
  | purgeStop (k : ℕ)

/-- The reservation that takes a step. -/
def MediaLabel.reservation : MediaLabel → Option ℕ
  | .reserve k | .rollback k | .commitUnanswered k => some k
  | _ => none

/-- The checks of a reservation before its transaction. -/
def MediaArchiveRecord.check (record : MediaArchiveRecord) : Except PersistenceError Unit := do
  require (record.reference.ownerService = producer ∧
    record.reference.digest.algorithm = .sha256) PersistenceError.invalidArtifact
  require (record.reference.lengthBytes ≤ i64Max) PersistenceError.valueOverflow

/-- The budget check on the measured usage: the sum must fit its type. -/
def reserveDecision (budget : ℤ) (used length : ℕ) : Except PersistenceError Bool :=
  if used ≤ i64Max then .ok (decide ((saturatingAddI64 used length : ℤ) ≤ budget)) else .error .query

/-- One step, for one value of `total_budget_bytes`. -/
inductive MediaStep (budget : ℤ) : MediaState → MediaLabel → MediaState → Prop
  | tick {s : MediaState} {now : Timestamp} (hnow : s.now ≤ now) :
      MediaStep budget s (.tick now) { s with now := now }
  /-- A record is refused before any transaction. -/
  | refuse {s : MediaState} {k : ℕ} {record : MediaArchiveRecord} {error : PersistenceError}
      (hfree : s.reserves k = none) (hcheck : record.check = .error error) :
      MediaStep budget s (.reserve k) (s.answer k (.error error))
  | begin {s : MediaState} {k : ℕ} {record : MediaArchiveRecord} (hfree : s.reserves k = none)
      (hcheck : record.check = .ok ()) :
      MediaStep budget s (.reserve k) (s.withReserve k ⟨record, s.now, .waiting⟩)
  /-- `pg_advisory_xact_lock`. -/
  | acquire {s : MediaState} {k : ℕ} {record : MediaArchiveRecord} {startedAt : Timestamp}
      (hcall : s.reserves k = some ⟨record, startedAt, .waiting⟩) (hfree : s.lock = none) :
      MediaStep budget s (.reserve k)
        { s.withReserve k ⟨record, startedAt, .locked⟩ with lock := some k }
  /-- The usage at the start of the transaction, of the rows committed by now, leaves room. -/
  | measure {s : MediaState} {k : ℕ} {record : MediaArchiveRecord} {startedAt : Timestamp}
      (hcall : s.reserves k = some ⟨record, startedAt, .locked⟩)
      (hroom : reserveDecision budget (bytesAfter startedAt s.db.archives)
        record.reference.lengthBytes = .ok true) :
      MediaStep budget s (.reserve k) (s.withReserve k ⟨record, startedAt, .measured⟩)
  /-- It leaves none. -/
  | full {s : MediaState} {k : ℕ} {record : MediaArchiveRecord} {startedAt : Timestamp}
      (hcall : s.reserves k = some ⟨record, startedAt, .locked⟩)
      (hroom : reserveDecision budget (bytesAfter startedAt s.db.archives)
        record.reference.lengthBytes = .ok false) :
      MediaStep budget s (.reserve k) (s.answer k (.ok false))
  | insertArtifact {s : MediaState} {k : ℕ} {record : MediaArchiveRecord} {startedAt : Timestamp}
      {artifact : Option ArtifactRow}
      (hcall : s.reserves k = some ⟨record, startedAt, .measured⟩)
      (hartifact : artifact =
        (succeededRun s.db record.runId).map fun _ => record.artifact startedAt)
      (hchecked : artifact.all ArtifactRow.checked = true) :
      MediaStep budget s (.reserve k)
        (s.withReserve k ⟨record, startedAt, .artifactInserted artifact⟩)
  | insertArchive {s : MediaState} {k : ℕ} {record : MediaArchiveRecord} {startedAt : Timestamp}
      {artifact : Option ArtifactRow} {run : RunRow}
      (hcall : s.reserves k = some ⟨record, startedAt, .artifactInserted artifact⟩)
      (hrun : succeededRun s.db record.runId = some run)
      (hchecked : (record.archive startedAt).checked = true) :
      MediaStep budget s (.reserve k) (s.withReserve k
        ⟨record, startedAt, .archiveInserted artifact (record.archive startedAt)⟩)
  | commit {s : MediaState} {k : ℕ} {record : MediaArchiveRecord} {startedAt : Timestamp}
      {artifact : Option ArtifactRow} {archive : MediaArchiveRow}
      (hcall : s.reserves k = some ⟨record, startedAt, .archiveInserted artifact archive⟩) :
      MediaStep budget s (.reserve k) (s.commit k (.ok true) artifact archive)
  /-- The commit is applied, and its answer is lost. -/
  | commitUnanswered {s : MediaState} {k : ℕ} {record : MediaArchiveRecord} {startedAt : Timestamp}
      {artifact : Option ArtifactRow} {archive : MediaArchiveRow}
      (hcall : s.reserves k = some ⟨record, startedAt, .archiveInserted artifact archive⟩) :
      MediaStep budget s (.commitUnanswered k) (s.commit k (.error .query) artifact archive)
  /-- A statement fails, the second insert selects no run, or the caller stops: the transaction is
  rolled back. -/
  | rollback {s : MediaState} {k : ℕ} {c : ReserveCall} {error : PersistenceError}
      (hcall : s.reserves k = some c) :
      MediaStep budget s (.rollback k) (s.answer k (.error error))
  | purgeSelect {s : MediaState} {k : ℕ} (hfree : s.purges k = none) :
      MediaStep budget s (.purge k) (s.withPurge k ⟨s.now, s.db.archives, false⟩)
  | purgeArtifacts {s : MediaState} {k : ℕ} {selectedAt : Timestamp}
      {selected : List MediaArchiveRow} (hcall : s.purges k = some ⟨selectedAt, selected, false⟩) :
      MediaStep budget s (.purge k)
        { s.withPurge k ⟨selectedAt, selected, true⟩ with db := deleteExpiredArtifacts s.now s.db }
  | purgeArchives {s : MediaState} {k : ℕ} {selectedAt : Timestamp}
      {selected : List MediaArchiveRow} (hcall : s.purges k = some ⟨selectedAt, selected, true⟩) :
      MediaStep budget s (.purge k)
        { s.endPurge k with db := deleteExpiredArchives s.now s.db }
  | purgeStop {s : MediaState} {k : ℕ} : MediaStep budget s (.purgeStop k) (s.endPurge k)

/-- Before the first reservation: any runs and artifacts, no archives and no calls. -/
structure MediaInit (s : MediaState) : Prop where
  archives : s.db.archives = []
  lock : s.lock = none
  reserves : s.reserves = fun _ => none
  purges : s.purges = fun _ => none
  answers : s.answers = []
  commits : s.commits = []

/-- **The media component** for one budget. -/
def mediaSystem (budget : ℤ) : Labelled.System MediaState MediaLabel where
  init := MediaInit
  step := MediaStep budget

/-! ### The usage -/

/-- Fewer rows have fewer bytes. -/
theorem bytesAfter_sublist (at_ : Timestamp) {archives archives' : List MediaArchiveRow}
    (h : archives'.Sublist archives) : bytesAfter at_ archives' ≤ bytesAfter at_ archives :=
  ((h.filter _).map _).sum_le_sum fun _ _ => Nat.zero_le _

/-- Later, fewer rows are unexpired. -/
theorem bytesAfter_anti {t t' : Timestamp} (h : t ≤ t') (archives : List MediaArchiveRow) :
    bytesAfter t' archives ≤ bytesAfter t archives := by
  have hsub : (archives.filter fun m => !m.expired t').Sublist
      (archives.filter fun m => !m.expired t) := by
    refine List.monotone_filter_right archives fun m hm => ?_
    simp only [MediaArchiveRow.expired, Bool.not_eq_true', decide_eq_false_iff_not,
      Nat.not_le] at hm ⊢
    exact Nat.lt_of_le_of_lt h hm
  exact (hsub.map _).sum_le_sum fun _ _ => Nat.zero_le _

/-- A new row adds its length at most. -/
theorem bytesAfter_append_le (at_ : Timestamp) (archives : List MediaArchiveRow)
    (m : MediaArchiveRow) :
    bytesAfter at_ (archives ++ [m]) ≤ bytesAfter at_ archives + m.lengthBytes := by
  rw [bytesAfter, bytesAfter, List.filter_append, List.map_append, List.sum_append]
  refine Nat.add_le_add_left ?_ _
  cases hm : m.expired at_ <;> simp [hm]

/-- A purge statement leaves some of the archives. -/
theorem deleteExpiredArchives_sublist (at_ : Timestamp) (db : MediaDb) :
    (deleteExpiredArchives at_ db).archives.Sublist db.archives :=
  List.filter_sublist

/-- The check leaves room when it is passed and the sum does not saturate. -/
theorem room_of_decision {budget : ℤ} {used length : ℕ}
    (h : reserveDecision budget used length = .ok true)
    (hfits : budget < i64Max ∨ used + length ≤ i64Max) : ((used + length : ℕ) : ℤ) ≤ budget := by
  unfold reserveDecision at h
  by_cases hused : used ≤ i64Max
  · rw [if_pos hused] at h
    have hle : (saturatingAddI64 used length : ℤ) ≤ budget := of_decide_eq_true (Except.ok.inj h)
    unfold saturatingAddI64 at hle
    omega
  · rw [if_neg hused] at h
    cases h

/-! ### The invariant -/

/-- The reservation has passed the budget check. -/
def ReservePhase.passed : ReservePhase → Prop
  | .waiting | .locked => False
  | .measured | .artifactInserted _ | .archiveInserted _ _ => True

/-- What an open transaction has inserted, of a succeeded run. -/
def ReserveCall.Inserted (c : ReserveCall) (db : MediaDb) : Prop :=
  match c.phase with
  | .artifactInserted artifact =>
      artifact = (succeededRun db c.record.runId).map fun _ => c.record.artifact c.startedAt
  | .archiveInserted artifact archive => ∃ run, succeededRun db c.record.runId = some run ∧
      artifact = some (c.record.artifact c.startedAt) ∧ archive = c.record.archive c.startedAt
  | _ => True

/-- What holds of a reservation in progress. -/
structure ReserveInv (s : MediaState) (k : ℕ) (c : ReserveCall) : Prop where
  started : c.startedAt ≤ s.now
  holds : c.phase ≠ .waiting → s.lock = some k
  inserted : c.Inserted s.db

/-- A reservation was granted. -/
def MediaState.Granted (s : MediaState) : Prop := ∃ k, (k, .ok true) ∈ s.answers

/-- A reservation was committed. -/
def MediaState.Committed (s : MediaState) : Prop := s.commits ≠ []

/-- **The invariant of the component.** -/
structure MediaInv (s : MediaState) : Prop where
  calls : ∀ k c, s.reserves k = some c → ReserveInv s k c
  granted : s.Granted → s.Committed

/-- **The budget**: a reservation that passed the check has room, and what was committed fits. -/
structure BudgetInv (budget : ℤ) (s : MediaState) : Prop where
  room : ∀ k c, s.reserves k = some c → c.phase.passed →
    ((bytesAfter c.startedAt s.db.archives + c.record.reference.lengthBytes : ℕ) : ℤ) ≤ budget
  bounded : s.Committed → (bytesAfter s.now s.db.archives : ℤ) ≤ budget

/-- What a step keeps for the reservations that do not take it. -/
structure MediaKept (s t : MediaState) : Prop where
  now : s.now ≤ t.now
  runs : t.db.runs = s.db.runs
  /-- While one of them holds the lock, it keeps it and no row is added. -/
  holder : ∀ k c, s.reserves k = some c → t.reserves k = some c → s.lock = some k →
    t.lock = some k ∧ t.db.archives.Sublist s.db.archives

/-- A check that passes does not saturate. -/
def FitsAt (budget : ℤ) (s : MediaState) : MediaLabel → Prop
  | .reserve k => ∀ record startedAt, s.reserves k = some ⟨record, startedAt, .locked⟩ →
      budget < i64Max ∨
        bytesAfter startedAt s.db.archives + record.reference.lengthBytes ≤ i64Max
  | _ => True

section Budget

variable {budget : ℤ} {s t : MediaState}

theorem succeededRun_congr {db db' : MediaDb} (h : db'.runs = db.runs) (runId : Uuid) :
    succeededRun db' runId = succeededRun db runId :=
  congrArg (List.find? _) h

theorem ReserveCall.Inserted.congr {db db' : MediaDb} {c : ReserveCall} (h : c.Inserted db)
    (hruns : db'.runs = db.runs) : c.Inserted db' := by
  unfold ReserveCall.Inserted at h ⊢
  simp only [succeededRun_congr hruns]
  exact h

theorem ReservePhase.passed.ne_waiting {phase : ReservePhase} (h : phase.passed) :
    phase ≠ .waiting := by
  rintro rfl
  exact h

/-- **A reservation that does not take the step** keeps what holds of it. -/
theorem ReserveInv.kept {k : ℕ} {c : ReserveCall} (hinv : ReserveInv s k c)
    (hkept : MediaKept s t) (hs : s.reserves k = some c) (ht : t.reserves k = some c) :
    ReserveInv t k c where
  started := Nat.le_trans hinv.started hkept.now
  holds hphase := (hkept.holder k c hs ht (hinv.holds hphase)).1
  inserted := hinv.inserted.congr hkept.runs

/-- **The invariant after a step of reservation `k`**: what it keeps for the others, and what holds
of the reservation itself when it goes on. -/
theorem MediaInv.of_kept {k : ℕ} (hinv : MediaInv s) (hkept : MediaKept s t)
    (hothers : ∀ k', k' ≠ k → t.reserves k' = s.reserves k')
    (hown : ∀ c, t.reserves k = some c → ReserveInv t k c)
    (hgranted : t.Granted → t.Committed) : MediaInv t where
  calls k' c hc := by
    by_cases hk : k' = k
    · subst hk
      exact hown c hc
    · have hold : s.reserves k' = some c := (hothers k' hk).symm.trans hc
      exact (hinv.calls k' c hold).kept hkept hold hc
  granted := hgranted

/-- **The budget after a step**: the reservations that passed the check before keep their room. -/
theorem BudgetInv.of_kept (hbudget : BudgetInv budget s) (hinv : MediaInv s)
    (hkept : MediaKept s t)
    (hown : ∀ k c, t.reserves k = some c → c.phase.passed → s.reserves k = some c ∨
      ((bytesAfter c.startedAt t.db.archives + c.record.reference.lengthBytes : ℕ) : ℤ) ≤ budget)
    (hbounded : t.Committed → (bytesAfter t.now t.db.archives : ℤ) ≤ budget) :
    BudgetInv budget t where
  room k c hc hpassed := by
    rcases hown k c hc hpassed with hold | hnew
    · have hlock := (hinv.calls k c hold).holds hpassed.ne_waiting
      have hless := bytesAfter_sublist c.startedAt (hkept.holder k c hold hc hlock).2
      have hroom := hbudget.room k c hold hpassed
      omega
    · exact hnew
  bounded := hbounded

/-! ### Steps of a reservation -/

theorem MediaKept.withReserve (k : ℕ) (c : ReserveCall) : MediaKept s (s.withReserve k c) :=
  ⟨Nat.le_refl _, rfl, fun _ _ _ _ hlock => ⟨hlock, List.Sublist.refl _⟩⟩

/-- A reservation moves on inside its transaction. -/
theorem MediaInv.withReserve {k : ℕ} {c : ReserveCall} (hinv : MediaInv s)
    (hc : ReserveInv s k c) : MediaInv (s.withReserve k c) := by
  refine hinv.of_kept (k := k) (MediaKept.withReserve k c)
    (fun k' hk => Function.update_of_ne hk ..) (fun c' hc' => ?_) hinv.granted
  obtain ⟨-, rfl⟩ | ⟨hk, -⟩ := update_some_eq_some hc'
  · exact ⟨hc.started, hc.holds, hc.inserted⟩
  · exact absurd rfl hk

theorem BudgetInv.withReserve {k : ℕ} {c : ReserveCall} (hbudget : BudgetInv budget s)
    (hinv : MediaInv s) (hc : c.phase.passed →
      ((bytesAfter c.startedAt s.db.archives + c.record.reference.lengthBytes : ℕ) : ℤ) ≤ budget) :
    BudgetInv budget (s.withReserve k c) := by
  refine hbudget.of_kept hinv (MediaKept.withReserve k c) (fun k' c' hc' hpassed => ?_)
    hbudget.bounded
  obtain ⟨-, rfl⟩ | ⟨-, hold⟩ := update_some_eq_some hc'
  · exact .inr (hc hpassed)
  · exact .inl hold

/-- An answer other than a grant grants nothing. -/
theorem granted_answer_iff {k : ℕ} {result : Except PersistenceError Bool}
    (hresult : result ≠ .ok true) : (s.answer k result).Granted ↔ s.Granted := by
  constructor
  · rintro ⟨k', hk'⟩
    rcases List.mem_append.mp hk' with hold | hnew
    · exact ⟨k', hold⟩
    · have heq := List.mem_singleton.mp hnew
      exact absurd (Prod.ext_iff.mp heq).2.symm hresult
  · rintro ⟨k', hk'⟩
    exact ⟨k', List.mem_append_left _ hk'⟩

/-- When reservation `k` returns, another that holds the lock keeps it. -/
theorem lock_answer {k k' : ℕ} (hk : k' ≠ k) (hlock : s.lock = some k') :
    (if s.lock = some k then none else s.lock) = some k' := by
  rw [if_neg, hlock]
  rw [hlock]
  exact fun heq => hk (Option.some.inj heq)

theorem MediaKept.answer (k : ℕ) (result : Except PersistenceError Bool) :
    MediaKept s (s.answer k result) := by
  refine ⟨Nat.le_refl _, rfl, fun k' c _ ht hlock => ⟨?_, List.Sublist.refl _⟩⟩
  exact lock_answer (update_none_eq_some ht).1 hlock

/-- **A reservation returns** without a grant. -/
theorem MediaInv.answer {k : ℕ} {result : Except PersistenceError Bool}
    (hinv : MediaInv s) (hresult : result ≠ .ok true) : MediaInv (s.answer k result) := by
  refine hinv.of_kept (k := k) (MediaKept.answer k result)
    (fun k' hk => Function.update_of_ne hk ..) (fun c hc => ?_)
    (fun h => hinv.granted ((granted_answer_iff hresult).mp h))
  exact absurd rfl (update_none_eq_some hc).1

theorem BudgetInv.answer {k : ℕ} {result : Except PersistenceError Bool}
    (hbudget : BudgetInv budget s) (hinv : MediaInv s) : BudgetInv budget (s.answer k result) :=
  hbudget.of_kept hinv (MediaKept.answer k result)
    (fun _ _ hc _ => .inl (update_none_eq_some hc).2) hbudget.bounded

section Commit

variable {k : ℕ} {result : Except PersistenceError Bool} {artifact : Option ArtifactRow}
  {archive : MediaArchiveRow}

theorem MediaKept.commit (hlock : s.lock = some k) :
    MediaKept s (s.commit k result artifact archive) := by
  refine ⟨Nat.le_refl _, rfl, fun k' c _ ht hk' => ?_⟩
  have hk : k' ≠ k := (update_none_eq_some ht).1
  exact absurd (Option.some.inj (hk'.symm.trans hlock)) hk

theorem committed_commit : (s.commit k result artifact archive).Committed :=
  List.append_ne_nil_of_right_ne_nil _ (List.cons_ne_nil _ _)

theorem MediaInv.commit (hinv : MediaInv s) (hlock : s.lock = some k) :
    MediaInv (s.commit k result artifact archive) := by
  refine hinv.of_kept (k := k) (MediaKept.commit hlock)
    (fun k' hk => Function.update_of_ne hk ..) (fun c hc => ?_) (fun _ => committed_commit)
  exact absurd rfl (update_none_eq_some hc).1

/-- **A commit** stays within the budget that was checked. -/
theorem BudgetInv.commit {record : MediaArchiveRecord} {startedAt : Timestamp}
    (hbudget : BudgetInv budget s) (hinv : MediaInv s)
    (hcall : s.reserves k = some ⟨record, startedAt, .archiveInserted artifact archive⟩) :
    BudgetInv budget (s.commit k result artifact archive) := by
  have hown := hinv.calls k _ hcall
  refine hbudget.of_kept hinv (MediaKept.commit (hown.holds (nofun)))
    (fun _ _ hc _ => .inl (update_none_eq_some hc).2) (fun _ => ?_)
  obtain ⟨run, -, -, harchive⟩ := hown.inserted
  have hroom := hbudget.room k _ hcall trivial
  dsimp only at hroom
  have hlater : bytesAfter s.now s.db.archives ≤ bytesAfter startedAt s.db.archives :=
    bytesAfter_anti hown.started s.db.archives
  have happend := bytesAfter_append_le s.now s.db.archives archive
  have hlength : archive.lengthBytes = record.reference.lengthBytes := by
    rw [harchive]
    rfl
  change (bytesAfter s.now (s.db.archives ++ [archive]) : ℤ) ≤ budget
  omega

end Commit

/-! ### Other steps -/

/-- A step that touches no reservation, and at most removes archives. -/
structure MediaQuiet (s t : MediaState) : Prop where
  now : s.now ≤ t.now
  runs : t.db.runs = s.db.runs
  lock : t.lock = s.lock
  reserves : t.reserves = s.reserves
  answers : t.answers = s.answers
  commits : t.commits = s.commits
  archives : t.db.archives.Sublist s.db.archives

theorem MediaQuiet.kept (h : MediaQuiet s t) : MediaKept s t :=
  ⟨h.now, h.runs, fun _ _ _ _ hlock => ⟨h.lock.trans hlock, h.archives⟩⟩

theorem MediaQuiet.granted_iff (h : MediaQuiet s t) : t.Granted ↔ s.Granted := by
  rw [MediaState.Granted, h.answers, MediaState.Granted]

theorem MediaQuiet.committed_iff (h : MediaQuiet s t) : t.Committed ↔ s.Committed := by
  rw [MediaState.Committed, h.commits, MediaState.Committed]

theorem MediaInv.quiet (hinv : MediaInv s) (h : MediaQuiet s t) : MediaInv t where
  calls k c hc := by
    have hs : s.reserves k = some c := h.reserves ▸ hc
    exact (hinv.calls k c hs).kept h.kept hs hc
  granted hgranted := h.committed_iff.mpr (hinv.granted (h.granted_iff.mp hgranted))

theorem BudgetInv.quiet (hbudget : BudgetInv budget s) (hinv : MediaInv s) (h : MediaQuiet s t) :
    BudgetInv budget t := by
  refine hbudget.of_kept hinv h.kept (fun k c hc _ => .inl (h.reserves ▸ hc)) fun hcommitted => ?_
  have hbounded := hbudget.bounded (h.committed_iff.mp hcommitted)
  have hless := bytesAfter_sublist t.now h.archives
  have hlater := bytesAfter_anti h.now s.db.archives
  omega

theorem MediaQuiet.refl_db {purges : ℕ → Option PurgeCall} :
    MediaQuiet s { s with purges := purges } :=
  ⟨Nat.le_refl _, rfl, rfl, rfl, rfl, rfl, List.Sublist.refl _⟩

/-- The steps of purges and of the clock touch no reservation. -/
theorem MediaStep.quiet {l : MediaLabel} (hst : MediaStep budget s l t)
    (hl : l.reservation = none) : MediaQuiet s t := by
  cases hst with
  | tick hnow => exact ⟨hnow, rfl, rfl, rfl, rfl, rfl, List.Sublist.refl _⟩
  | purgeSelect hfree => exact MediaQuiet.refl_db
  | purgeArtifacts hcall => exact ⟨Nat.le_refl _, rfl, rfl, rfl, rfl, rfl, List.Sublist.refl _⟩
  | purgeArchives hcall =>
      exact ⟨Nat.le_refl _, rfl, rfl, rfl, rfl, rfl, deleteExpiredArchives_sublist _ _⟩
  | purgeStop => exact MediaQuiet.refl_db
  | refuse | begin | acquire | measure | full | insertArtifact | insertArchive | commit
  | commitUnanswered | rollback => cases hl

/-- **Every step keeps the invariant.** -/
theorem MediaInv.step {l : MediaLabel} (hinv : MediaInv s) (hst : MediaStep budget s l t) :
    MediaInv t := by
  cases l with
  | tick now => exact hinv.quiet (hst.quiet rfl)
  | purge k => exact hinv.quiet (hst.quiet rfl)
  | purgeStop k => exact hinv.quiet (hst.quiet rfl)
  | rollback k =>
      cases hst with
      | rollback hcall => exact hinv.answer (by nofun)
  | commitUnanswered k =>
      cases hst with
      | commitUnanswered hcall => exact hinv.commit ((hinv.calls _ _ hcall).holds (nofun))
  | reserve k =>
      cases hst with
      | refuse hfree hcheck => exact hinv.answer (by nofun)
      | begin hfree hcheck =>
          exact hinv.withReserve ⟨Nat.le_refl _, fun h => absurd rfl h, trivial⟩
      | acquire hcall hfree =>
          rename_i record startedAt
          have hown := hinv.calls k _ hcall
          have hkept : MediaKept s
              { s.withReserve k ⟨record, startedAt, .locked⟩ with lock := some k } := by
            refine ⟨Nat.le_refl _, rfl, fun k' c _ _ hlock => ?_⟩
            rw [hfree] at hlock
            cases hlock
          refine hinv.of_kept (k := k) hkept (fun k' hk => Function.update_of_ne hk ..)
            (fun c hc => ?_) hinv.granted
          obtain ⟨-, rfl⟩ | ⟨hk, -⟩ := update_some_eq_some hc
          · exact ⟨hown.started, fun _ => rfl, trivial⟩
          · exact absurd rfl hk
      | measure hcall hroom =>
          have hown := hinv.calls _ _ hcall
          exact hinv.withReserve ⟨hown.started, fun _ => hown.holds (nofun), trivial⟩
      | full hcall hroom => exact hinv.answer (by simp)
      | insertArtifact hcall hartifact hchecked =>
          have hown := hinv.calls _ _ hcall
          exact hinv.withReserve ⟨hown.started, fun _ => hown.holds (nofun), hartifact⟩
      | insertArchive hcall hrun hchecked =>
          have hown := hinv.calls _ _ hcall
          have hartifact : _ = Option.map _ _ := hown.inserted
          refine hinv.withReserve ⟨hown.started, fun _ => hown.holds (nofun), _, hrun, ?_, rfl⟩
          rw [hartifact, hrun]
          rfl
      | commit hcall => exact hinv.commit ((hinv.calls _ _ hcall).holds (nofun))

/-- **Every step keeps the budget** where no sum saturates. -/
theorem BudgetInv.step {l : MediaLabel} (hbudget : BudgetInv budget s) (hinv : MediaInv s)
    (hst : MediaStep budget s l t) (hfits : FitsAt budget s l) : BudgetInv budget t := by
  cases l with
  | tick now => exact hbudget.quiet hinv (hst.quiet rfl)
  | purge k => exact hbudget.quiet hinv (hst.quiet rfl)
  | purgeStop k => exact hbudget.quiet hinv (hst.quiet rfl)
  | rollback k =>
      cases hst with
      | rollback hcall => exact hbudget.answer hinv
  | commitUnanswered k =>
      cases hst with
      | commitUnanswered hcall => exact hbudget.commit hinv hcall
  | reserve k =>
      cases hst with
      | refuse hfree hcheck => exact hbudget.answer hinv
      | begin hfree hcheck => exact hbudget.withReserve hinv fun h => h.elim
      | acquire hcall hfree =>
          rename_i record startedAt
          have hmoved : BudgetInv budget (s.withReserve k ⟨record, startedAt, .locked⟩) :=
            hbudget.withReserve hinv fun h => h.elim
          exact ⟨hmoved.room, hmoved.bounded⟩
      | measure hcall hroom =>
          exact hbudget.withReserve hinv fun _ => room_of_decision hroom (hfits _ _ hcall)
      | full hcall hroom => exact hbudget.answer hinv
      | insertArtifact hcall hartifact hchecked =>
          have hroom := hbudget.room k _ hcall trivial
          exact hbudget.withReserve hinv fun _ => hroom
      | insertArchive hcall hrun hchecked =>
          have hroom := hbudget.room k _ hcall trivial
          exact hbudget.withReserve hinv fun _ => hroom
      | commit hcall => exact hbudget.commit hinv hcall

theorem MediaInv.of_init (h : MediaInit s) : MediaInv s where
  calls k c hc := by
    rw [h.reserves] at hc
    cases hc
  granted := by
    rintro ⟨k, hk⟩
    rw [h.answers] at hk
    cases hk

theorem BudgetInv.of_init (h : MediaInit s) : BudgetInv budget s where
  room k c hc := by
    rw [h.reserves] at hc
    cases hc
  bounded hcommitted := absurd h.commits hcommitted

theorem mediaInv_of_reachable (h : (mediaSystem budget).Reachable s) : MediaInv s :=
  h.invariant (fun _ => MediaInv.of_init) fun _ _ _ _ hinv hst => hinv.step hst

theorem budgetInv_of_reachable
    (h : ((mediaSystem budget).restrict (FitsAt budget)).Reachable s) : BudgetInv budget s :=
  h.invariant (fun _ => BudgetInv.of_init) fun _ _ _ hreach hbudget hst =>
    hbudget.step (mediaInv_of_reachable hreach.of_restrict) hst.1 hst.2

/-- One artifact row and one archive row of a succeeded run are written. -/
def WritesBoth (s t : MediaState) : Prop :=
  ∃ run ∈ s.db.runs, run.status = .succeeded ∧ ∃ artifact archive,
    artifact.kind = "archived_media" ∧ artifact.runId = run.runId ∧ archive.runId = run.runId ∧
      t.db = { s.db with
        artifacts := s.db.artifacts ++ [artifact]
        archives := s.db.archives ++ [archive] }

/-- **What one step of a reservation writes**: nothing where it goes on, is refused for want of
room or fails, and both rows where it grants or its commit is applied unanswered. -/
structure WritesRows (s : MediaState) (l : MediaLabel) (k : ℕ) (t : MediaState) : Prop where
  answers : t.answers = s.answers ∨ ∃ result, t.answers = s.answers ++ [(k, result)]
  silent : t.answers = s.answers → t.db = s.db
  full : t.answers = s.answers ++ [(k, .ok false)] → t.db = s.db
  failed : ∀ error, t.answers = s.answers ++ [(k, .error error)] → l ≠ .commitUnanswered k →
    t.db = s.db
  granted : t.answers = s.answers ++ [(k, .ok true)] → WritesBoth s t
  unanswered : l = .commitUnanswered k →
    t.answers = s.answers ++ [(k, .error .query)] ∧ WritesBoth s t

/-- The answer of a step is determined by what it appends. -/
theorem answer_inj {k : ℕ} {result result' : Except PersistenceError Bool}
    (h : s.answers ++ [(k, result)] = s.answers ++ [(k, result')]) : result = result' :=
  (Prod.ext_iff.mp (List.singleton_inj.mp (List.append_cancel_left h))).2

theorem ne_append_answer {k : ℕ} {result : Except PersistenceError Bool} :
    s.answers ≠ s.answers ++ [(k, result)] := by
  intro h
  have hlength := congrArg List.length h
  rw [List.length_append, List.length_singleton] at hlength
  omega

/-- A step inside the transaction writes nothing. -/
theorem writesRows_silent {l : MediaLabel} {k : ℕ} (hl : l ≠ .commitUnanswered k)
    (hanswers : t.answers = s.answers) (hdb : t.db = s.db) : WritesRows s l k t where
  answers := .inl hanswers
  silent _ := hdb
  full _ := hdb
  failed _ _ _ := hdb
  granted h := absurd (hanswers.symm.trans h) ne_append_answer
  unanswered h := absurd h hl

/-- A step that answers without a commit writes nothing. -/
theorem writesRows_answer {l : MediaLabel} {k : ℕ} {result : Except PersistenceError Bool}
    (hl : l ≠ .commitUnanswered k) (hresult : result ≠ .ok true) :
    WritesRows s l k (s.answer k result) where
  answers := .inr ⟨result, rfl⟩
  silent _ := rfl
  full _ := rfl
  failed _ _ _ := rfl
  granted h := absurd (answer_inj h) hresult
  unanswered h := absurd h hl

/-- A commit writes both rows of its reservation. -/
theorem writesBoth_commit {k : ℕ} {c : ReserveCall} {result : Except PersistenceError Bool}
    {artifact : Option ArtifactRow} {archive : MediaArchiveRow} (hinv : ReserveInv s k c)
    (hphase : c.phase = .archiveInserted artifact archive) :
    WritesBoth s (s.commit k result artifact archive) := by
  have hinserted := hinv.inserted
  rw [ReserveCall.Inserted, hphase] at hinserted
  obtain ⟨run, hrun, rfl, rfl⟩ := hinserted
  have hfound := List.find?_some hrun
  simp only [Bool.and_eq_true, beq_iff_eq] at hfound
  exact ⟨run, List.mem_of_find?_eq_some hrun, hfound.2, _, _, rfl, hfound.1.symm, hfound.1.symm,
    rfl⟩

/-- **The rows of a step** of a reservation. -/
theorem writesRows_of_step {l : MediaLabel} {k : ℕ} (hinv : MediaInv s)
    (hst : MediaStep budget s l t) (hl : l.reservation = some k) : WritesRows s l k t := by
  cases hst with
  | tick | purgeSelect | purgeArtifacts | purgeArchives | purgeStop => cases hl
  | refuse hfree hcheck =>
      obtain rfl := Option.some.inj hl
      exact writesRows_answer (by nofun) (by nofun)
  | full hcall hroom =>
      obtain rfl := Option.some.inj hl
      exact writesRows_answer (by nofun) (by simp)
  | rollback hcall =>
      obtain rfl := Option.some.inj hl
      exact writesRows_answer (by nofun) (by nofun)
  | begin hfree hcheck => exact writesRows_silent (by nofun) rfl rfl
  | acquire hcall hfree => exact writesRows_silent (by nofun) rfl rfl
  | measure hcall hroom => exact writesRows_silent (by nofun) rfl rfl
  | insertArtifact hcall hartifact hchecked => exact writesRows_silent (by nofun) rfl rfl
  | insertArchive hcall hrun hchecked => exact writesRows_silent (by nofun) rfl rfl
  | commit hcall =>
      obtain rfl := Option.some.inj hl
      exact ⟨.inr ⟨_, rfl⟩, fun h => absurd h.symm ne_append_answer,
        fun h => absurd (answer_inj h) (by simp), fun _ h => absurd (answer_inj h) (by nofun),
        fun _ => writesBoth_commit (hinv.calls _ _ hcall) rfl, nofun⟩
  | commitUnanswered hcall =>
      obtain rfl := Option.some.inj hl
      exact ⟨.inr ⟨_, rfl⟩, fun h => absurd h.symm ne_append_answer,
        fun h => absurd (answer_inj h) (by nofun), fun _ _ h => absurd rfl h,
        fun h => absurd (answer_inj h) (by nofun),
        fun _ => ⟨rfl, writesBoth_commit (hinv.calls _ _ hcall) rfl⟩⟩

/-- **The media budget.** In every run in which no reservation's measured usage and length saturate
under the largest budget: once a reservation was committed, as every granted one was, the bytes
that are unexpired at any later time are within the budget; and each step of a reservation writes
the rows of its answer. -/
theorem media_budget_kept (h : ((mediaSystem budget).restrict (FitsAt budget)).Reachable s) :
    (s.Granted → s.Committed) ∧
      (s.Committed → ∀ at_, s.now ≤ at_ → (bytesAfter at_ s.db.archives : ℤ) ≤ budget) ∧
      ∀ l k t, l.reservation = some k → (mediaSystem budget).step s l t → WritesRows s l k t := by
  have hinv := mediaInv_of_reachable h.of_restrict
  refine ⟨hinv.granted, fun hcommitted at_ hat => ?_, fun l k t hl hst =>
    writesRows_of_step hinv hst hl⟩
  have hbounded := (budgetInv_of_reachable h).bounded hcommitted
  have hlater := bytesAfter_anti hat s.db.archives
  omega

/-! ### Undisturbed reservations -/

/-- Reservation `k` was granted: it is over, and the last row of each table is its own. -/
structure Grants (s t : MediaState) (k : ℕ) (record : MediaArchiveRecord) (startedAt : Timestamp) :
    Prop where
  now : t.now = s.now
  purges : t.purges = s.purges
  lock : t.lock = none
  reserves : t.reserves = Function.update s.reserves k none
  answers : t.answers = s.answers ++ [(k, .ok true)]
  db : t.db = { s.db with
    artifacts := s.db.artifacts ++ [record.artifact startedAt]
    archives := s.db.archives ++ [record.archive startedAt] }

/-- A step that meets the condition. -/
theorem reachable_step {cond : MediaState → MediaLabel → Prop} {l : MediaLabel}
    (h : ((mediaSystem budget).restrict cond).Reachable s) (hcond : cond s l)
    (hst : MediaStep budget s l t) : ((mediaSystem budget).restrict cond).Reachable t :=
  h.step ⟨hst, hcond⟩

/-- **A reservation that waits for a free lock**, and that nothing disturbs from there, is granted
when there is room. -/
theorem reachable_granted {cond : MediaState → MediaLabel → Prop} {record : MediaArchiveRecord}
    {startedAt : Timestamp} (h : ((mediaSystem budget).restrict cond).Reachable s) (k : ℕ)
    (hcond : ∀ x, cond x (.reserve k)) (hlock : s.lock = none)
    (hcall : s.reserves k = some ⟨record, startedAt, .waiting⟩)
    (hroom : reserveDecision budget (bytesAfter startedAt s.db.archives)
      record.reference.lengthBytes = .ok true)
    (hrun : (succeededRun s.db record.runId).isSome = true)
    (hartifact : (record.artifact startedAt).checked = true)
    (harchive : (record.archive startedAt).checked = true) :
    ∃ t, ((mediaSystem budget).restrict cond).Reachable t ∧ Grants s t k record startedAt := by
  obtain ⟨run, hrun⟩ := Option.isSome_iff_exists.mp hrun
  have hlocked := reachable_step h (hcond _) (MediaStep.acquire hcall hlock)
  have hmeasured := reachable_step hlocked (hcond _)
    (MediaStep.measure (Function.update_self ..) hroom)
  have hfirst := reachable_step hmeasured (hcond _)
    (MediaStep.insertArtifact (Function.update_self ..)
      (congrArg (Option.map fun _ => record.artifact startedAt) hrun).symm hartifact)
  have hsecond := reachable_step hfirst (hcond _)
    (MediaStep.insertArchive (Function.update_self ..) hrun harchive)
  have hgranted := reachable_step hsecond (hcond _) (MediaStep.commit (Function.update_self ..))
  refine ⟨_, hgranted, rfl, rfl, if_pos rfl, ?_, rfl, rfl⟩
  change Function.update (Function.update (Function.update (Function.update (Function.update
    s.reserves k _) k _) k _) k _) k none = _
  simp only [Function.update_idem]

/-- **A reservation that nothing disturbs** is granted when there is room. -/
theorem reachable_reserve {cond : MediaState → MediaLabel → Prop} {record : MediaArchiveRecord}
    (h : ((mediaSystem budget).restrict cond).Reachable s) (k : ℕ)
    (hcond : ∀ x, cond x (.reserve k)) (hlock : s.lock = none)
    (hreserves : s.reserves = fun _ => none) (hcheck : record.check = .ok ())
    (hroom : reserveDecision budget (bytesAfter s.now s.db.archives)
      record.reference.lengthBytes = .ok true)
    (hrun : (succeededRun s.db record.runId).isSome = true)
    (hartifact : (record.artifact s.now).checked = true)
    (harchive : (record.archive s.now).checked = true) :
    ∃ t, ((mediaSystem budget).restrict cond).Reachable t ∧ t.reserves = (fun _ => none) ∧
      Grants s t k record s.now := by
  have hfree : s.reserves k = none := congrFun hreserves k
  have hbegun := reachable_step h (hcond _) (MediaStep.begin hfree hcheck)
  obtain ⟨t, hreach, hgrants⟩ := reachable_granted hbegun k hcond hlock (Function.update_self ..)
    hroom hrun hartifact harchive
  have hnone : t.reserves = fun _ => none := by
    refine hgrants.reserves.trans ?_
    change Function.update (Function.update s.reserves k _) k none = _
    rw [Function.update_idem, hreserves]
    exact Function.update_eq_self k _
  refine ⟨t, hreach, hnone, hgrants.now, hgrants.purges, hgrants.lock, ?_, hgrants.answers,
    hgrants.db⟩
  rw [hnone, hreserves]
  exact (Function.update_eq_self k _).symm

/-- **A reservation that nothing disturbs** is refused when there is no room. -/
theorem reachable_full {cond : MediaState → MediaLabel → Prop} {record : MediaArchiveRecord}
    (h : ((mediaSystem budget).restrict cond).Reachable s) (k : ℕ)
    (hcond : ∀ x, cond x (.reserve k)) (hlock : s.lock = none) (hfree : s.reserves k = none)
    (hcheck : record.check = .ok ())
    (hroom : reserveDecision budget (bytesAfter s.now s.db.archives)
      record.reference.lengthBytes = .ok false) :
    ∃ t, ((mediaSystem budget).restrict cond).Reachable t ∧ t.now = s.now ∧ t.db = s.db ∧
      t.answers = s.answers ++ [(k, .ok false)] := by
  have hbegun := reachable_step h (hcond _) (MediaStep.begin hfree hcheck)
  have hlocked := reachable_step hbegun (hcond _)
    (MediaStep.acquire (Function.update_self ..) hlock)
  have hfull := reachable_step hlocked (hcond _) (MediaStep.full (Function.update_self ..) hroom)
  exact ⟨_, hfull, rfl, rfl, rfl⟩

end Budget

/-! ### Three archived videos -/

/-- A run that succeeded. -/
def archivedRun (runId : Uuid) : RunRow where
  runId := runId
  commandId := runId
  operationId := runId
  ownerId := 4
  correlationId := "c"
  sourceId := runId
  status := .succeeded
  policyVersion := "1"
  normalizerVersion := "1"
  parserVersion := "1"
  queuedAt := 0
  startedAt := some 0
  completedAt := some 0
  lastErrorClass := none
  claimedUntil := none
  claimedBy := none
  blobOwner := none
  blobMediaType := none
  blobLengthBytes := none

/-- A day of a run's video. -/
def archivedRecord (runId : Uuid) (videoId digestHex : String) (lengthBytes : ℕ) :
    MediaArchiveRecord where
  runId := runId
  videoId := videoId
  reference := ⟨producer, ⟨.sha256, digestHex⟩, "video/mp4", lengthBytes⟩
  retentionHours := 24

/-- The digests of two files. -/
def firstDigest : String := "7c92bd0a2109ea14bd5df64bb301fb68ec7451d488f0b677ba69e96c9235a2c9"

def secondDigest : String := "12663fb3ad7c425cfe6e2386bf56df431c1415146214c03177b72d5f8820dab6"

/-- The video of the first run. -/
def firstVideo (lengthBytes : ℕ) : MediaArchiveRecord :=
  archivedRecord 1 "dQw4w9WgXcQ" firstDigest lengthBytes

/-- The video of the second run, with some file. -/
def secondVideo (digestHex : String) (lengthBytes : ℕ) : MediaArchiveRecord :=
  archivedRecord 2 "M7lc1UVf-VE" digestHex lengthBytes

/-- Three runs that succeeded, and nothing archived yet. -/
def noArchives : MediaState :=
  ⟨0, ⟨[archivedRun 1, archivedRun 2, archivedRun 3], [], []⟩, none, fun _ => none, fun _ => none,
    [], []⟩

theorem noArchives_init : MediaInit noArchives := ⟨rfl, rfl, rfl, rfl, rfl, rfl⟩

theorem firstDigest_hex : isSha256Hex firstDigest = true := by decide +kernel

theorem secondDigest_hex : isSha256Hex secondDigest = true := by decide +kernel

section Record

variable {runId : Uuid} {videoId digestHex : String} {lengthBytes : ℕ}

theorem archivedRecord_artifact (hdigest : isSha256Hex digestHex = true) (at_ : Timestamp) :
    ((archivedRecord runId videoId digestHex lengthBytes).artifact at_).checked = true := by
  have hkind : ["raw_source", "document_ir", "diagnostics", "archived_media"].contains
      "archived_media" = true := by decide
  have htype : storable "video/mp4" = true := by decide +kernel
  simp only [ArtifactRow.checked, MediaArchiveRecord.artifact, archivedRecord, hkind, hdigest,
    htype, beq_self_eq_true, Bool.and_self]

theorem archivedRecord_check (h : lengthBytes ≤ i64Max) :
    (archivedRecord runId videoId digestHex lengthBytes).check = .ok () :=
  Except.bind_eq_ok_iff.mpr ⟨(), Except.require_eq_ok_iff.mpr ⟨rfl, rfl⟩,
    Except.require_eq_ok_iff.mpr h⟩

end Record

theorem one_le_i64Max : 1 ≤ i64Max := by decide

/-- Two reservations begin together and are granted one after the other; the next one finds no
room. -/
theorem media_budget_kept_together : ∃ s,
    ((mediaSystem 1000).restrict (FitsAt 1000)).Reachable s ∧ s.db.archives.length = 2 ∧
      s.answers = [(1, .ok true), (0, .ok true), (2, .ok false)] ∧
      ∀ at_, s.now ≤ at_ → (bytesAfter at_ s.db.archives : ℤ) ≤ 1000 := by
  have hcond : ∀ k x, FitsAt 1000 x (.reserve k) := fun _ _ _ _ _ => .inl (by decide)
  have hinit : ((mediaSystem 1000).restrict (FitsAt 1000)).Reachable noArchives :=
    Labelled.System.Reachable.init noArchives_init
  have hbegun := reachable_step hinit (hcond 0 _) (MediaStep.begin (k := 0) rfl
    (archivedRecord_check (by decide) : (firstVideo 600).check = .ok ()))
  have hwaiting := reachable_step hbegun (hcond 1 _) (MediaStep.begin (k := 1) rfl
    (archivedRecord_check (by decide) : (secondVideo secondDigest 300).check = .ok ()))
  have htick := reachable_step hwaiting (by trivial) (MediaStep.tick (Nat.zero_le 5))
  obtain ⟨s₁, h₁, hsecond⟩ := reachable_granted htick 1 (hcond 1) rfl rfl rfl rfl
    (archivedRecord_artifact secondDigest_hex 0) (by decide +kernel)
  have hdb₁ : s₁.db.archives = [(secondVideo secondDigest 300).archive 0] := by
    rw [hsecond.db]
    rfl
  have hfirst₁ : s₁.reserves 0 = some ⟨firstVideo 600, 0, .waiting⟩ := by
    rw [hsecond.reserves]
    rfl
  obtain ⟨s₂, h₂, hfirst⟩ := reachable_granted h₁ 0 (hcond 0) hsecond.lock hfirst₁
    (by rw [hdb₁]; decide +kernel) (by rw [hsecond.db]; rfl)
    (archivedRecord_artifact firstDigest_hex 0) (by decide +kernel)
  have hdb₂ : s₂.db.archives =
      [(secondVideo secondDigest 300).archive 0, (firstVideo 600).archive 0] := by
    rw [hfirst.db, hdb₁]
    rfl
  have hnow₂ : s₂.now = 5 := hfirst.now.trans hsecond.now
  have hfree₂ : s₂.reserves 2 = none := by
    rw [hfirst.reserves, hsecond.reserves]
    rfl
  have hcheck : (archivedRecord 3 "jNQXAC9IVRw" firstDigest 600).check = .ok () :=
    archivedRecord_check (by decide)
  have hfull : reserveDecision 1000 (bytesAfter s₂.now s₂.db.archives) 600 = .ok false := by
    rw [hdb₂, hnow₂]
    decide +kernel
  obtain ⟨s₃, h₃, -, hdb₃, hanswers₃⟩ := reachable_full h₂ 2 (hcond 2) hfirst.lock hfree₂ hcheck
    hfull
  refine ⟨s₃, h₃, ?_, ?_, ?_⟩
  · rw [hdb₃, hdb₂]
    rfl
  · rw [hanswers₃, hfirst.answers, hsecond.answers]
    rfl
  · have hkept := media_budget_kept h₃
    refine hkept.2.1 (hkept.1 ⟨0, ?_⟩)
    rw [hanswers₃, hfirst.answers]
    simp

/-- **A saturated sum is granted**: under the largest budget, an archive of that length leaves room
for another. -/
theorem media_budget_overrun : ∃ s, (mediaSystem i64Max).Reachable s ∧ s.Granted ∧
    (i64Max : ℤ) < bytesAfter s.now s.db.archives := by
  have hinit : ((mediaSystem i64Max).restrict fun _ _ => True).Reachable noArchives :=
    Labelled.System.Reachable.init noArchives_init
  obtain ⟨s, hreach, hnone, hfirst⟩ := reachable_reserve hinit 0 (fun _ => trivial) rfl rfl
    (archivedRecord_check (Nat.le_refl _) : (firstVideo i64Max).check = .ok ())
    (by decide +kernel) rfl (archivedRecord_artifact firstDigest_hex 0) (by decide +kernel)
  have hnow : s.now = 0 := hfirst.now
  have hdb : s.db = ⟨[archivedRun 1, archivedRun 2, archivedRun 3],
    [(firstVideo i64Max).artifact 0], [(firstVideo i64Max).archive 0]⟩ := hfirst.db
  obtain ⟨t, hreach, -, hsecond⟩ := reachable_reserve hreach 1 (fun _ => trivial) hfirst.lock hnone
    (archivedRecord_check one_le_i64Max : (secondVideo secondDigest 1).check = .ok ())
    (by rw [hdb, hnow]; decide +kernel) (by rw [hdb]; rfl)
    (archivedRecord_artifact secondDigest_hex _) (by rw [hnow]; decide +kernel)
  refine ⟨t, hreach.of_restrict, ⟨1, ?_⟩, ?_⟩
  · rw [hsecond.answers]
    exact List.mem_append_right _ (List.mem_singleton_self _)
  · rw [hsecond.now, hsecond.db, hdb, hnow]
    decide +kernel

end Extractor
