import Extractor.Intake

/-!
# The intake round trip

A command is taken apart at intake: its address or digest goes into the row of a source, which
all commands of one owner for one address share, and the rest into the row of its own run. A later
claim joins the two again. What a claim returns is what the command asked for, because the upsert
of a shared source leaves alone every column that a claim reads, and two commands share a source
only if they agree on these columns.

## Main results

* `SourceOf.share`: commands that share a source agree on it.
* `IntakeChange`, `ledger_intake_change`: everything one step can do to sources and to the columns
  of runs that intake writes.
* `intake_round_trip`: a claim returns what the command that queued the run asked for.
-/

namespace Extractor

/-! ### What is stored of a command -/

/-- The row of a source as a command needs it. -/
def SourceOf (lib : UrlLib) (command : CaptureCommand) (s : SourceRow) : Prop :=
  match command.source with
  | .url url => ∃ normalized, normalize lib (lib.asStr url) intakePolicy = .ok normalized ∧
      s.normalizedUrl = lib.asStr normalized.normalized ∧
      s.classification = routeName (classify lib normalized) ∧ s.blobDigestHex = none
  | .blob blob => s.normalizedUrl = blobAddress blob ∧ s.classification = "blob" ∧
      s.blobDigestHex = some blob.digest.hex

/-- The columns of a run that intake writes for a command. -/
def RunOf (command : CaptureCommand) (r : RunRow) : Prop :=
  r.commandId = command.commandId ∧ r.ownerId = command.tenantId ∧
    match command.source with
    | .url _ => r.blobOwner = none
    | .blob blob => r.blobOwner = some blob.ownerService ∧
        r.blobMediaType = some blob.mediaType ∧ r.blobLengthBytes = some blob.lengthBytes

/-- A run and the source it names hold what the command asked for. -/
def StoredIn (lib : UrlLib) (command : CaptureCommand) (db : Db) (r : RunRow) : Prop :=
  RunOf command r ∧ ∃ s ∈ db.sources, s.sourceId = r.sourceId ∧ SourceOf lib command s

/-- What a claim returns for a command. -/
def QueuedRun.Of (lib : UrlLib) (command : CaptureCommand) (q : QueuedRun) : Prop :=
  q.owner = command.tenantId ∧
    match command.source with
    | .url url => q.blob = none ∧
        ∃ normalized, normalize lib (lib.asStr url) intakePolicy = .ok normalized ∧
          q.url = lib.asStr normalized.normalized ∧
          q.classification = routeName (classify lib normalized)
    | .blob blob => q.blob = some blob ∧ q.url = blobAddress blob ∧ q.classification = "blob"

/-- A normalized URL is parsed back from its text. -/
def UrlLib.Reparses (lib : UrlLib) : Prop :=
  ∀ input policy normalized, normalize lib input policy = .ok normalized →
    lib.parse (lib.asStr normalized.normalized) = some normalized.normalized

/-- The parsers of the stored columns accept the texts of a decoded reference. -/
def BlobColumns.Accepts (columns : BlobColumns) (commands : CommandLib) : Prop :=
  ∀ payload envelope request blob, commands.fromJson payload = some envelope →
    envelope.request = some request → request.blob = some blob →
    columns.ownerIsValid blob.ownerService = true ∧ columns.hexIsValid blob.digest.hex = true ∧
      columns.mediaTypeIsValid blob.mediaType = true

/-! ### Shared sources -/

section Sources

variable {lib : UrlLib} {command other : CaptureCommand} {s s' : SourceRow} {db db' : Db}
  {now : Timestamp}

/-- The text of a normalized address starts with its scheme. -/
theorem head_of_normalized (hlib : lib.Lawful) {input : String} {policy : RoutingPolicy}
    {normalized : NormalizedUrl} (h : normalize lib input policy = .ok normalized) :
    (lib.asStr normalized.normalized).toList.head? = some 'h' := by
  obtain ⟨hhttp, hsome, huser, hpass, -⟩ := normalize_spec h
  obtain ⟨host, hhost⟩ := Option.isSome_iff_exists.mp hsome
  have hstr : ∃ text, normalized.normalized.hostStr lib = some text := by
    rw [Url.hostStr, hhost]
    exact ⟨_, rfl⟩
  obtain ⟨text, htext⟩ := hstr
  rw [hlib.serialized _ text hhttp huser hpass htext, Url.serialized]
  rcases hhttp with hscheme | hscheme
  · rw [hscheme]
    rfl
  · rw [hscheme]
    rfl

theorem head_append {text text' : String} {c : Char} (h : text.toList.head? = some c) :
    (text ++ text').toList.head? = some c := by
  rw [String.toList_append, List.head?_append, h, Option.some_or]

theorem head_of_blobAddress (blob : BlobRef) : (blobAddress blob).toList.head? = some 'u' :=
  head_append (by decide)

/-- The route of an address is read off the normalized URL. -/
theorem classify_congr {n n' : NormalizedUrl} (h : n.normalized = n'.normalized) :
    classify lib n = classify lib n' := by
  rw [classify, classify, h]

/-- **Commands that share a source agree on it.** -/
theorem SourceOf.share (hlib : lib.Lawful) (hreparse : lib.Reparses)
    (h : SourceOf lib command s) (h' : SourceOf lib other s')
    (hurl : s.normalizedUrl = s'.normalizedUrl) : SourceOf lib other s := by
  unfold SourceOf at h h' ⊢
  cases hc : command.source with
  | url url =>
      rw [hc] at h
      obtain ⟨n, hn, hnurl, hclass, hhex⟩ := h
      cases ho : other.source with
      | url url' =>
          rw [ho] at h'
          obtain ⟨n', hn', hnurl', hclass', hhex'⟩ := h'
          -- equal texts are parsed to equal URLs
          have htext : lib.asStr n.normalized = lib.asStr n'.normalized :=
            hnurl.symm.trans (hurl.trans hnurl')
          have hparse := hreparse _ _ n hn
          rw [htext, hreparse _ _ n' hn'] at hparse
          have hsame := Option.some.inj hparse
          exact ⟨n', hn', hurl.trans hnurl', hclass.trans (by rw [classify_congr hsame]), hhex⟩
      | blob blob =>
          rw [ho] at h'
          have hhead := head_of_normalized hlib hn
          rw [← hnurl, hurl, h'.1, head_of_blobAddress] at hhead
          exact absurd hhead (by decide)
  | blob blob =>
      rw [hc] at h
      cases ho : other.source with
      | url url' =>
          rw [ho] at h'
          obtain ⟨n', hn', hnurl', -⟩ := h'
          have hhead := head_of_normalized hlib hn'
          rw [← hnurl', ← hurl, h.1, head_of_blobAddress] at hhead
          exact absurd hhead (by decide)
      | blob blob' =>
          rw [ho] at h'
          have haddress : blobAddress blob = blobAddress blob' :=
            h.1.symm.trans (hurl.trans h'.1)
          have hhex : blob.digest.hex = blob'.digest.hex := String.append_right_inj _ |>.mp haddress
          exact ⟨hurl.trans h'.1, h.2.1, by rw [h.2.2, hhex]⟩

/-- The upsert of a source changes one column that no claim reads. -/
def recanonized (canonicalUrl : String) (s : SourceRow) : SourceRow :=
  { s with canonicalUrl := canonicalUrl }

theorem SourceOf.recanonized {canonicalUrl : String} (h : SourceOf lib command s) :
    SourceOf lib command (recanonized canonicalUrl s) := h

/-- The prepared row of a command holds what the command asked for. -/
theorem sourceOf_prepared {fresh : Uuid} {p : PreparedSource}
    (hp : prepareSource lib now command fresh = .ok p) : SourceOf lib command p.row := by
  unfold SourceOf
  obtain ⟨_, normalized, _, hsource, hnormal, -, rfl⟩ | ⟨_, hsource, rfl⟩ := prepareSource_eq_ok hp
  · rw [hsource]
    exact ⟨normalized, hnormal, rfl, rfl, rfl⟩
  · rw [hsource]
    exact ⟨rfl, rfl, rfl⟩

/-- The run of a command holds its own part of it. -/
theorem runOf_prepared {fresh runId sourceId : Uuid} {p : PreparedSource}
    (hp : prepareSource lib now command fresh = .ok p) :
    RunOf command (queuedRow runId command (p.intake sourceId) now) := by
  refine ⟨rfl, rfl, ?_⟩
  obtain ⟨_, _, _, hsource, -, -, rfl⟩ | ⟨_, hsource, rfl⟩ := prepareSource_eq_ok hp
  · rw [hsource]
    rfl
  · rw [hsource]
    exact ⟨rfl, rfl, rfl⟩

/-- What the upsert of a row did: it changed the source of this owner and address, or added the
row and its entry in the index. -/
inductive Upserted (lib : UrlLib) (row : SourceRow) (sourceId : Uuid)
    (sources sources' : List SourceRow) : Prop
  | found {existing : SourceRow} (hmem : existing ∈ sources)
      (hurl : existing.normalizedUrl = row.normalizedUrl) (hid : sourceId = existing.sourceId)
      (hsources : sources' = Rows.updateWhere (fun r => r.sourceId == existing.sourceId)
        (recanonized row.canonicalUrl) sources)
  | added (hindex : lib.indexFits row.normalizedUrl = true) (hid : sourceId = row.sourceId)
      (hsources : sources' = sources ++ [row])

/-- Every source is in the index of `unique (owner_id, normalized_url)`. -/
def Db.Indexed (lib : UrlLib) (db : Db) : Prop :=
  ∀ r ∈ db.sources, lib.indexFits r.normalizedUrl = true

theorem upsertSource_upserted {row : SourceRow} {sourceId : Uuid}
    (h : upsertSource lib row db = .ok (sourceId, db')) :
    Upserted lib row sourceId db.sources db'.sources := by
  simp only [upsertSource, Tx.bind_eq_ok_iff, Tx.require_eq_ok_iff, Tx.read_eq_ok_iff] at h
  obtain ⟨_, _, ⟨-, rfl⟩, known, _, ⟨hknown, rfl⟩, h⟩ := h
  cases known with
  | none =>
      obtain ⟨_, _, hrequire, h⟩ := Tx.bind_eq_ok_iff.mp h
      obtain ⟨hindex, rfl⟩ := Tx.require_eq_ok_iff.mp hrequire
      obtain ⟨_, _, hwrite, hret⟩ := Tx.bind_eq_ok_iff.mp h
      obtain rfl := Tx.write_eq_ok_iff.mp hwrite
      obtain ⟨rfl, rfl⟩ := Tx.pure_eq_ok_iff.mp hret
      exact .added hindex rfl rfl
  | some existing =>
      obtain ⟨_, _, hwrite, hret⟩ := Tx.bind_eq_ok_iff.mp h
      obtain rfl := Tx.write_eq_ok_iff.mp hwrite
      obtain ⟨rfl, rfl⟩ := Tx.pure_eq_ok_iff.mp hret
      have hp := List.find?_some hknown
      obtain ⟨-, hurl⟩ := Bool.and_eq_true_iff.mp hp
      exact .found (List.mem_of_find?_eq_some hknown) (beq_iff_eq.mp hurl) rfl rfl

/-- What was upserted is in the index. -/
theorem Upserted.indexFits {row : SourceRow} {sourceId : Uuid} {sources' : List SourceRow}
    (h : Upserted lib row sourceId db.sources sources') (hdb : db.Indexed lib) :
    lib.indexFits row.normalizedUrl = true := by
  cases h with
  | found hmem hurl hid hsources =>
      rename_i existing
      exact hurl ▸ hdb existing hmem
  | added hindex hid hsources => exact hindex

/-- **Intake** upserts the prepared row of its command and queues a run that names it. -/
theorem consumeCommand_applied {contracts : Contracts}
    (h : consumeCommand lib contracts now command db = .ok (.applied, db')) :
    ∃ p sourceId, prepareSource lib now command db.nextUuid = .ok p ∧
      Upserted lib p.row sourceId db.sources db'.sources ∧
      db'.runs = db.runs ++ [queuedRow (db.nextUuid + 1) command (p.intake sourceId) now] := by
  obtain ⟨inserted, db₁, hinsert, hrest⟩ := Tx.bind_eq_ok_iff.mp h
  rcases insertInbox_eq_ok hinsert with ⟨rfl, -, rfl⟩ | ⟨rfl, -, rfl⟩
  · obtain ⟨hret, -⟩ := Tx.pure_eq_ok_iff.mp hrest
    cases hret
  · obtain ⟨_, _, happly, hret⟩ := Tx.bind_eq_ok_iff.mp hrest
    obtain ⟨-, rfl⟩ := Tx.pure_eq_ok_iff.mp hret
    simp only [applyCapture, queueRun, insertRun, enqueueQueuedReport, markApplied,
      Tx.bind_eq_ok_iff, Tx.freshUuid_eq_ok_iff, Tx.require_eq_ok_iff, Tx.read_eq_ok_iff,
      Tx.write_eq_ok_iff] at happly
    obtain ⟨_, _, ⟨source, _, hsource, _, _, ⟨rfl, rfl⟩, _, _, ⟨-, rfl⟩, _, _, ⟨rfl, rfl⟩,
      _, _, ⟨-, rfl⟩, rfl⟩, _, _, ⟨_, _, ⟨rfl, rfl⟩, _, _, ⟨-, rfl⟩, hreport⟩, rfl⟩ := happly
    obtain ⟨-, rfl⟩ := enqueueJson_eq_ok_iff.mp hreport
    rw [intakeSource_eq] at hsource
    split at hsource
    · cases hsource
    next p hp =>
      obtain ⟨sourceId, _, hupsert, hret⟩ := Tx.bind_eq_ok_iff.mp hsource
      obtain ⟨rfl, rfl⟩ := Tx.pure_eq_ok_iff.mp hret
      have hup := upsertSource_upserted hupsert
      obtain ⟨sources, rfl⟩ := upsertSource_eq_ok hupsert
      exact ⟨p, sourceId, hp, hup, rfl⟩

end Sources

/-! ### What a step does -/

/-- The columns that intake writes are the same. -/
structure SameIntake (r r' : RunRow) : Prop where
  runId : r'.runId = r.runId
  commandId : r'.commandId = r.commandId
  ownerId : r'.ownerId = r.ownerId
  sourceId : r'.sourceId = r.sourceId
  blobOwner : r'.blobOwner = r.blobOwner
  blobMediaType : r'.blobMediaType = r.blobMediaType
  blobLengthBytes : r'.blobLengthBytes = r.blobLengthBytes

theorem SameIntake.refl (r : RunRow) : SameIntake r r := ⟨rfl, rfl, rfl, rfl, rfl, rfl, rfl⟩

/-- **Everything one step can do to sources and to what intake wrote.** -/
inductive IntakeChange (lib : UrlLib) (commands : CommandLib) (db db' : Db) : Prop
  /-- A command is applied. -/
  | taken {subject : String} {payload : List UInt8} {command : CaptureCommand} {now : Timestamp}
      {p : PreparedSource} {sourceId : Uuid}
      (hdecoded : decodeCapture lib commands subject payload = .ok command)
      (hp : prepareSource lib now command db.nextUuid = .ok p)
      (hupserted : Upserted lib p.row sourceId db.sources db'.sources)
      (hruns : db'.runs = db.runs ++ [queuedRow (db.nextUuid + 1) command (p.intake sourceId) now])
      (hnext : db.nextUuid < db'.nextUuid)
  /-- Sources and the columns of intake are left alone. -/
  | kept (hsources : db'.sources = db.sources) (hnext : db.nextUuid ≤ db'.nextUuid)
      (hold : ∀ r ∈ db.runs, ∃ r' ∈ db'.runs, SameIntake r r')
      (hnew : ∀ r' ∈ db'.runs, ∃ r ∈ db.runs, SameIntake r r')

section Changes

variable {lib : UrlLib} {commands : CommandLib} {contracts : Contracts} {columns : BlobColumns}
  {db db' : Db} {now : Timestamp}

theorem IntakeChange.of_runs (hsources : db'.sources = db.sources)
    (hnext : db.nextUuid ≤ db'.nextUuid) (hruns : db'.runs = db.runs) :
    IntakeChange lib commands db db' :=
  .kept hsources hnext (fun r hr => ⟨r, hruns ▸ hr, SameIntake.refl r⟩)
    fun r hr => ⟨r, hruns ▸ hr, SameIntake.refl r⟩

theorem IntakeChange.of_update {p : RunRow → Bool} {f : RunRow → RunRow}
    (hsources : db'.sources = db.sources) (hnext : db.nextUuid ≤ db'.nextUuid)
    (hruns : db'.runs = Rows.updateWhere p f db.runs) (hf : ∀ r, SameIntake r (f r)) :
    IntakeChange lib commands db db' := by
  have hsame : ∀ r, SameIntake r (if p r then f r else r) := by
    intro r
    split
    · exact hf r
    · exact SameIntake.refl r
  refine .kept hsources hnext (fun r hr => ?_) fun r' hr' => ?_
  · exact ⟨_, hruns ▸ Rows.mem_updateWhere.mpr ⟨r, hr, rfl⟩, hsame r⟩
  · rw [hruns] at hr'
    obtain ⟨r, hr, rfl⟩ := Rows.mem_updateWhere.mp hr'
    exact ⟨r, hr, hsame r⟩

/-- A terminal call writes no source. -/
theorem TerminalCall.commit_sources {call : TerminalCall} {run : RunRow} {u : Unit}
    (h : call.commit contracts now run db = .ok (u, db')) : db'.sources = db.sources := by
  obtain ⟨-, rfl⟩ := TerminalCall.commit_eq_ok_db h
  rfl

/-- `record_fetch` writes no source. -/
theorem recordFetch_sources {runId : Uuid} {fetch : CompletedFetch} :
    (recordFetch now runId fetch db).2.sources = db.sources := by
  unfold recordFetch
  split
  · rcases transact_snd (recordFetchTx now runId fetch) db with ⟨_, hok⟩ | hsame
    · obtain ⟨_, _, hfetch, hartifact⟩ := Tx.bind_eq_ok_iff.mp hok
      obtain ⟨-, rfl⟩ := insertFetch_eq_ok_iff.mp hfetch
      rw [(insertArtifact_eq_ok_iff.mp hartifact).2]
    · rw [hsame]
  · rfl

/-- A delivery is taken, or changes nothing. -/
theorem consumeCapture_intakeChange (delivery : Delivery lib commands) :
    IntakeChange lib commands db
      (consumeCapture lib commands contracts now delivery.subject delivery.payload db).2 := by
  rw [consumeCapture_delivery]
  rcases transact_snd (consumeCommand lib contracts now delivery.command) db with
    ⟨reception, hok⟩ | hsame
  · cases reception with
    | applied =>
        obtain ⟨p, sourceId, hp, hupserted, hruns⟩ := consumeCommand_applied hok
        rcases consumeCommand_eq_ok hok with ⟨hduplicate, -⟩ | ⟨-, -, hqueued⟩
        · cases hduplicate
        · refine .taken delivery.decoded hp hupserted hruns ?_
          rw [hqueued.nextUuid]
          exact Nat.lt_add_of_pos_right (by decide)
    | duplicate =>
        rcases consumeCommand_eq_ok hok with ⟨-, -, hsame⟩ | ⟨happlied, -⟩
        · rw [hsame]
          exact .of_runs rfl (Nat.le_refl _) rfl
        · cases happlied
  · rw [hsame]
    exact .of_runs rfl (Nat.le_refl _) rfl

/-- A whole transaction. -/
theorem LedgerTx.effect_intakeChange {tx : LedgerTx lib commands} {c : Found} {l : Ledger}
    (henter : tx.enter lib commands l = some c) :
    IntakeChange lib commands l.db (tx.effect lib commands contracts c l).db := by
  cases tx with
  | intake delivery now => exact consumeCapture_intakeChange delivery
  | terminal call now =>
      obtain ⟨-, run, hrun, rfl⟩ := LedgerTx.enter_terminal_eq.mp henter
      change IntakeChange lib commands l.db (l.finish contracts now call run).db
      unfold Ledger.finish
      cases hcommit : call.commit contracts now run l.db with
      | error e => exact .of_runs rfl (Nat.le_refl _) rfl
      | ok r =>
          have hended := TerminalCall.commit_eq_ok hcommit
          refine .of_update (TerminalCall.commit_sources hcommit) hended.nextUuid hended.runs ?_
          intro r
          cases call <;> exact ⟨rfl, rfl, rfl, rfl, rfl, rfl, rfl⟩

/-- A single statement. -/
theorem LedgerStatement.intakeChange {a : LedgerAct lib commands} {locked : LedgerKey → Prop}
    {l l' : Ledger} (h : LedgerStatement lib commands contracts columns a locked l l') :
    IntakeChange lib commands l.db l'.db := by
  cases h with
  | redeliver hknown => exact consumeCapture_intakeChange _
  | claim hskipped =>
      rename_i now claimedBy leaseSeconds maxEventBytes skipped
      change IntakeChange lib commands l.db (claimQueuedRun columns now _ _ _ _ l.db).2
      rcases claimQueuedRun_cases columns now claimedBy leaseSeconds maxEventBytes skipped l.db with
        hsame | ⟨run, -, -, -, -, hdb⟩
      · rw [hsame]
        exact .of_runs rfl (Nat.le_refl _) rfl
      · rw [hdb]
        exact .of_update rfl (Nat.le_refl _) rfl fun r => ⟨rfl, rfl, rfl, rfl, rfl, rfl, rfl⟩
  | refuse hprecheck => exact .of_runs rfl (Nat.le_refl _) rfl
  | miss hprecheck hmiss => exact .of_runs rfl (Nat.le_refl _) rfl
  | answer hpending => exact .of_runs rfl (Nat.le_refl _) rfl
  | recordFetch =>
      exact .of_runs recordFetch_sources (Nat.le_of_eq quiet_recordFetch.nextUuid.symm)
        quiet_recordFetch.runs
  | relayClaim hclaim => exact .of_runs rfl (Nat.le_refl _) rfl
  | relayRecord hrecord => exact .of_runs rfl (Nat.le_refl _) rfl

/-- **A step of the ledger system** takes a command, or leaves intake alone. -/
theorem ledger_intake_change {x y : LedgerState lib commands} {a : LedgerLabel lib commands}
    (hx : (ledgerSystem lib commands contracts columns).Reachable x)
    (hst : (ledgerSystem lib commands contracts columns).step x a y) :
    IntakeChange lib commands x.data.db y.data.db := by
  rcases Locking.Protocol.step_data ledger_stable hx hst with hsame | ⟨b, hb⟩
  · rw [hsame]
    exact .of_runs rfl (Nat.le_refl _) rfl
  · cases hb with
    | transaction henter heffect => exact heffect ▸ LedgerTx.effect_intakeChange henter
    | act hact => exact hact.intakeChange

end Changes

/-! ### The invariant -/

/-- **The intake invariant**: sources have identifiers of their own, each is one that some command
needs, and every run is stored with the command that queued it. -/
structure IntakeInv (lib : UrlLib) (commands : CommandLib) (db : Db) : Prop where
  sourceIds : (db.sources.map SourceRow.sourceId).Nodup
  sourceId_lt : ∀ s ∈ db.sources, s.sourceId < db.nextUuid
  source : ∀ s ∈ db.sources, ∃ command, SourceOf lib command s
  run : ∀ r ∈ db.runs, ∃ subject payload command,
    decodeCapture lib commands subject payload = .ok command ∧ StoredIn lib command db r

section Invariant

variable {lib : UrlLib} {commands : CommandLib} {contracts : Contracts} {columns : BlobColumns}
  {db db' : Db} {command : CaptureCommand} {row s : SourceRow} {r r' : RunRow} {sourceId : Uuid}
  {sources sources' : List SourceRow}

/-- A source stays what its commands need. -/
theorem Upserted.kept (h : Upserted lib row sourceId sources sources') (hs : s ∈ sources)
    (hof : SourceOf lib command s) :
    ∃ s' ∈ sources', s'.sourceId = s.sourceId ∧ SourceOf lib command s' := by
  cases h with
  | found hmem hurl hid hsources =>
      rename_i existing
      refine ⟨_, hsources ▸ Rows.mem_updateWhere.mpr ⟨s, hs, rfl⟩, ?_⟩
      split
      · exact ⟨rfl, hof.recanonized⟩
      · exact ⟨rfl, hof⟩
  | added _ hid hsources =>
      exact ⟨s, hsources ▸ List.mem_append_left _ hs, rfl, hof⟩

/-- The upserted source is what its command needs. -/
theorem Upserted.stored (hlib : lib.Lawful) (hreparse : lib.Reparses)
    (h : Upserted lib row sourceId sources sources') (hrow : SourceOf lib command row)
    (hall : ∀ s ∈ sources, ∃ other, SourceOf lib other s) :
    ∃ s ∈ sources', s.sourceId = sourceId ∧ SourceOf lib command s := by
  cases h with
  | found hmem hurl hid hsources =>
      rename_i existing
      obtain ⟨other, hother⟩ := hall existing hmem
      have hshared := hother.share hlib hreparse hrow hurl
      obtain ⟨s', hs', hsid, hof⟩ :=
        (Upserted.found hmem hurl hid hsources).kept hmem hshared
      exact ⟨s', hs', hsid.trans hid.symm, hof⟩
  | added _ hid hsources =>
      exact ⟨row, hsources ▸ List.mem_append_right _ (List.mem_singleton_self _), hid.symm, hrow⟩

/-- A run with the same columns and the same sources is stored as before. -/
theorem StoredIn.same (h : StoredIn lib command db r) (hsame : SameIntake r r')
    (hsources : db'.sources = db.sources) : StoredIn lib command db' r' := by
  obtain ⟨⟨hcommand, howner, hblob⟩, s, hs, hid, hof⟩ := h
  refine ⟨⟨hsame.commandId.trans hcommand, hsame.ownerId.trans howner, ?_⟩, s, hsources ▸ hs,
    hid.trans hsame.sourceId.symm, hof⟩
  rw [hsame.blobOwner, hsame.blobMediaType, hsame.blobLengthBytes]
  exact hblob

/-- A run stays stored while other commands are taken. -/
theorem StoredIn.upserted (h : StoredIn lib command db r)
    (hup : Upserted lib row sourceId db.sources db'.sources) : StoredIn lib command db' r := by
  obtain ⟨hrun, s, hs, hid, hof⟩ := h
  obtain ⟨s', hs', hsid, hof'⟩ := hup.kept hs hof
  exact ⟨hrun, s', hs', hsid.trans hid, hof'⟩

/-- **A stored run stays stored.** -/
theorem IntakeChange.stored (hchange : IntakeChange lib commands db db') (hr : r ∈ db.runs)
    (h : StoredIn lib command db r) :
    ∃ r' ∈ db'.runs, r'.commandId = r.commandId ∧ StoredIn lib command db' r' := by
  cases hchange with
  | taken hdecoded hp hupserted hruns hnext =>
      exact ⟨r, hruns ▸ List.mem_append_left _ hr, rfl, h.upserted hupserted⟩
  | kept hsources hnext hold hnew =>
      obtain ⟨r', hr', hsame⟩ := hold r hr
      exact ⟨r', hr', hsame.commandId, h.same hsame hsources⟩

/-- **Every change keeps the invariant.** -/
theorem IntakeInv.change (hlib : lib.Lawful) (hreparse : lib.Reparses)
    (h : IntakeInv lib commands db) (hchange : IntakeChange lib commands db db') :
    IntakeInv lib commands db' := by
  cases hchange with
  | kept hsources hnext hold hnew =>
      refine ⟨hsources ▸ h.sourceIds, ?_, hsources ▸ h.source, ?_⟩
      · rw [hsources]
        exact fun s hs => Nat.lt_of_lt_of_le (h.sourceId_lt s hs) hnext
      · intro r' hr'
        obtain ⟨r, hr, hsame⟩ := hnew r' hr'
        obtain ⟨subject, payload, command, hdecoded, hstored⟩ := h.run r hr
        exact ⟨subject, payload, command, hdecoded, hstored.same hsame hsources⟩
  | taken hdecoded hp hupserted hruns hnext =>
      rename_i subject payload command now p sourceId
      have hrow := sourceOf_prepared hp
      obtain ⟨hrowId, hintake⟩ := prepareSource_sourceId hp
      refine ⟨?_, ?_, ?_, ?_⟩
      · cases hupserted with
        | found hmem hurl hid hsources =>
            rw [hsources, Rows.map_updateWhere (f := recanonized p.row.canonicalUrl)
              SourceRow.sourceId fun s _ _ => rfl]
            exact h.sourceIds
        | added _ hid hsources =>
            rw [hsources, List.map_append]
            refine h.sourceIds.append (List.nodup_singleton _) fun i hi hi' => ?_
            obtain ⟨s, hs, rfl⟩ := List.mem_map.mp hi
            have hlt := h.sourceId_lt s hs
            rw [List.mem_singleton.mp hi', hrowId] at hlt
            exact Nat.lt_irrefl _ hlt
      · intro s hs
        cases hupserted with
        | found hmem hurl hid hsources =>
            rw [hsources] at hs
            obtain ⟨s', hs', rfl⟩ := Rows.mem_updateWhere.mp hs
            have hlt := Nat.lt_trans (h.sourceId_lt s' hs') hnext
            split
            · exact hlt
            · exact hlt
        | added _ hid hsources =>
            rw [hsources] at hs
            rcases List.mem_append.mp hs with hs | hs
            · exact Nat.lt_trans (h.sourceId_lt s hs) hnext
            · obtain rfl := List.mem_singleton.mp hs
              exact hrowId ▸ hnext
      · intro s hs
        cases hupserted with
        | found hmem hurl hid hsources =>
            rw [hsources] at hs
            obtain ⟨s', hs', rfl⟩ := Rows.mem_updateWhere.mp hs
            obtain ⟨other, hother⟩ := h.source s' hs'
            refine ⟨other, ?_⟩
            split
            · exact hother.recanonized
            · exact hother
        | added _ hid hsources =>
            rw [hsources] at hs
            rcases List.mem_append.mp hs with hs | hs
            · exact h.source s hs
            · obtain rfl := List.mem_singleton.mp hs
              exact ⟨command, hrow⟩
      · intro r hr
        rw [hruns] at hr
        rcases List.mem_append.mp hr with hr | hr
        · obtain ⟨subject, payload, command, hdecoded, hstored⟩ := h.run r hr
          exact ⟨subject, payload, command, hdecoded, hstored.upserted hupserted⟩
        · obtain rfl := List.mem_singleton.mp hr
          refine ⟨subject, payload, command, hdecoded, runOf_prepared hp, ?_⟩
          obtain ⟨s, hs, hsid, hof⟩ := hupserted.stored hlib hreparse hrow h.source
          exact ⟨s, hs, hsid.trans (hintake sourceId).symm, hof⟩

/-- **The invariant holds in every reachable state.** -/
theorem intakeInv_of_reachable (hlib : lib.Lawful) (hreparse : lib.Reparses)
    {x : LedgerState lib commands}
    (hx : (ledgerSystem lib commands contracts columns).Reachable x) :
    IntakeInv lib commands x.data.db := by
  refine hx.invariant (I := fun x => IntakeInv lib commands x.data.db) ?_ ?_
  · rintro y ⟨hy, -⟩
    rw [hy]
    refine ⟨List.nodup_nil, ?_, ?_, ?_⟩ <;> simp [Ledger.initial, Db.empty]
  · intro y a z hy hinv hst
    exact hinv.change hlib hreparse (ledger_intake_change hy hst)

end Invariant

/-! ### Claims -/

section Claims

variable {lib : UrlLib} {commands : CommandLib} {contracts : Contracts} {columns : BlobColumns}
  {db : Db} {command : CaptureCommand} {now : Timestamp} {skipped : List Uuid}
  {run : RunRow} {source : SourceRow} {claimedBy : String} {leaseSeconds : ℤ} {maxEventBytes : ℕ}

/-- A claim joins a run with its source. -/
theorem nextRun_source (h : nextRun now skipped db = some (run, source)) :
    source ∈ db.sources ∧ source.sourceId = run.sourceId := by
  obtain ⟨r, -, hsource⟩ := List.exists_of_findSome?_eq_some h
  obtain ⟨s, hs, heq⟩ := Option.map_eq_some_iff.mp hsource
  obtain ⟨rfl, rfl⟩ := Prod.mk.inj heq
  exact Rows.mem_of_find?_key hs

/-- What a claim returns is decoded from the run and the source that it joined. -/
theorem claimQueuedRun_eq_ok {q : QueuedRun}
    (h : (claimQueuedRun columns now claimedBy leaseSeconds maxEventBytes skipped db).1 =
      .ok (some q)) :
    ∃ run source, nextRun now skipped db = some (run, source) ∧
      decodeQueuedRun columns maxEventBytes run source = .ok q := by
  unfold claimQueuedRun at h
  split at h
  · cases h
  · next run source db' htransact =>
      refine ⟨run, source, ?_, ?_⟩
      · have hok : claimNext now claimedBy leaseSeconds skipped db =
            .ok (some (run, source), db') := by
          unfold transact at htransact
          split at htransact
          · next a db'' hclaim =>
              obtain ⟨ha, rfl⟩ := Prod.mk.inj htransact
              rw [hclaim, Except.ok.inj ha]
          · obtain ⟨he, -⟩ := Prod.mk.inj htransact
            cases he
        obtain ⟨next, _, hread, hrest⟩ := Tx.bind_eq_ok_iff.mp hok
        obtain ⟨hnext, rfl⟩ := Tx.read_eq_ok_iff.mp hread
        cases next with
        | none =>
            obtain ⟨hnone, -⟩ := Tx.pure_eq_ok_iff.mp hrest
            cases hnone
        | some found =>
            simp only [Tx.bind_eq_ok_iff, Tx.pure_eq_ok_iff] at hrest
            obtain ⟨_, _, -, _, _, -, hfound, -⟩ := hrest
            rw [hnext, ← hfound]
      · change (decodeQueuedRun columns maxEventBytes run source).map some = .ok (some q) at h
        cases hdecoded : decodeQueuedRun columns maxEventBytes run source with
        | error e =>
            rw [hdecoded] at h
            cases h
        | ok q' =>
            rw [hdecoded] at h
            rw [Option.some.inj (Except.ok.inj h)]
  · cases h

/-- **A stored run is decoded**, to what its command asked for. -/
theorem decodeQueuedRun_of (maxEventBytes : ℕ) (hcolumns : columns.Accepts commands)
    {subject : String} {payload : List UInt8}
    (hdecoded : decodeCapture lib commands subject payload = .ok command) (hrun : RunOf command run)
    (hsource : SourceOf lib command source) :
    ∃ q, decodeQueuedRun columns maxEventBytes run source = .ok q ∧ q.runId = run.runId ∧
      q.Of lib command := by
  obtain ⟨-, howner, hblob⟩ := hrun
  unfold SourceOf at hsource
  unfold QueuedRun.Of
  cases hkind : command.source with
  | url url =>
      rw [hkind] at hblob hsource
      obtain ⟨normalized, hnormal, hurl, hclass, -⟩ := hsource
      refine ⟨⟨run.runId, run.ownerId, source.normalizedUrl, source.classification, none,
        maxEventBytes⟩, ?_, rfl, howner, rfl, normalized, hnormal, hurl, hclass⟩
      unfold decodeQueuedRun
      rw [hblob]
      rfl
  | blob blob =>
      rw [hkind] at hblob hsource
      obtain ⟨hblobOwner, hmedia, hlength⟩ := hblob
      obtain ⟨hurl, hclass, hhex⟩ := hsource
      obtain ⟨envelope, request, henvelope, hrequest, -, -, hcase⟩ := decodeCapture_eq_ok hdecoded
      rcases hcase with ⟨_, _, -, -, hcommand⟩ | ⟨blob', hblob', halgorithm, hcommand⟩
      · rw [hkind] at hcommand
        cases hcommand
      rw [hkind] at hcommand
      obtain rfl := CaptureSource.blob.inj hcommand
      obtain ⟨hvalidOwner, hvalidHex, hvalidMedia⟩ :=
        hcolumns payload envelope request blob henvelope hrequest hblob'
      have hdigest : (⟨.sha256, blob.digest.hex⟩ : ContentDigest) = blob.digest := by
        rw [← halgorithm]
      refine ⟨⟨run.runId, run.ownerId, source.normalizedUrl, source.classification, some blob,
        maxEventBytes⟩, ?_, rfl, howner, rfl, hurl, hclass⟩
      unfold decodeQueuedRun
      rw [hblobOwner, hhex, hmedia, hlength]
      simp only [Except.bind_eq_ok_iff, Except.require_eq_ok_iff, hdigest]
      exact ⟨(), hvalidOwner, (), hvalidHex, (), hvalidMedia, _, rfl, rfl⟩

/-- A claim of a stored run. -/
theorem IntakeInv.sourceOf (h : IntakeInv lib commands db) (hstored : StoredIn lib command db run)
    (hnext : nextRun now skipped db = some (run, source)) : SourceOf lib command source := by
  obtain ⟨hmem, hid⟩ := nextRun_source hnext
  obtain ⟨-, s, hs, hsid, hof⟩ := hstored
  rwa [Rows.eq_of_key h.sourceIds hmem hs (hid.trans hsid.symm)]

/-- The commit of an intake transaction stores the run of its command. -/
theorem stored_of_commit (hlib : lib.Lawful) (hreparse : lib.Reparses)
    {x y : LedgerState lib commands} {delivery : Delivery lib commands} {startedAt : Timestamp}
    (hx : (ledgerSystem lib commands contracts columns).Reachable x)
    (hheld : x.held (.command delivery.command.commandId) =
      some (.intake delivery startedAt, .newCommand))
    (happlied : (consumeCapture lib commands contracts startedAt delivery.subject delivery.payload
      x.data.db).1 = .ok .applied)
    (hst : (ledgerSystem lib commands contracts columns).step x
      (.commit (.command delivery.command.commandId)) y) :
    ∃ r ∈ y.data.db.runs, r.commandId = delivery.command.commandId ∧
      StoredIn lib delivery.command y.data.db r := by
  have hinv := intakeInv_of_reachable hlib hreparse hx
  cases hst with
  | commit hheld' =>
      rw [hheld] at hheld'
      obtain ⟨rfl, rfl⟩ := Prod.mk.inj (Option.some.inj hheld')
      have hok : consumeCommand lib contracts startedAt delivery.command x.data.db =
          .ok (.applied, (consumeCapture lib commands contracts startedAt delivery.subject
            delivery.payload x.data.db).2) := by
        rw [consumeCapture_delivery] at happlied ⊢
        unfold transact at happlied ⊢
        cases hconsume : consumeCommand lib contracts startedAt delivery.command x.data.db with
        | error e =>
            rw [hconsume] at happlied
            cases happlied
        | ok r =>
            rw [hconsume] at happlied
            rw [← Except.ok.inj happlied]
      obtain ⟨p, sourceId, hp, hupserted, hruns⟩ := consumeCommand_applied hok
      obtain ⟨s, hs, hsid, hof⟩ :=
        hupserted.stored hlib hreparse (sourceOf_prepared hp) hinv.source
      refine ⟨queuedRow (x.data.db.nextUuid + 1) delivery.command (p.intake sourceId) startedAt,
        ?_, rfl, runOf_prepared hp, s, hs, ?_, hof⟩
      · change _ ∈ (consumeCapture lib commands contracts startedAt _ _ x.data.db).2.runs
        rw [hruns]
        exact List.mem_append_right _ (List.mem_singleton_self _)
      · exact hsid.trans ((prepareSource_sourceId hp).2 sourceId).symm

/-- Stored runs stay stored along a run of the system. -/
theorem stored_of_run {x y : LedgerState lib commands}
    {as : List (LedgerLabel lib commands)} {r : RunRow}
    (hx : (ledgerSystem lib commands contracts columns).Reachable x)
    (hrun : (ledgerSystem lib commands contracts columns).Run x as y)
    (hr : r ∈ x.data.db.runs) (h : StoredIn lib command x.data.db r) :
    ∃ r' ∈ y.data.db.runs, r'.commandId = r.commandId ∧ StoredIn lib command y.data.db r' := by
  refine hrun.preserves (R := fun x y => ∀ r ∈ x.data.db.runs, StoredIn lib command x.data.db r →
    ∃ r' ∈ y.data.db.runs, r'.commandId = r.commandId ∧ StoredIn lib command y.data.db r')
    ?_ ?_ hx ?_ r hr h
  · intro s r hr h
    exact ⟨r, hr, rfl, h⟩
  · intro s t u hst htu r hr h
    obtain ⟨r', hr', hid, h'⟩ := hst r hr h
    obtain ⟨r'', hr'', hid', h''⟩ := htu r' hr' h'
    exact ⟨r'', hr'', hid'.trans hid, h''⟩
  · intro s a t hs hst r hr h
    exact (ledger_intake_change hs hst).stored hr h

/-- **The intake round trip.** In every reachable state the run that a claim picks is decoded. And
take the commit of an intake transaction that applies its command: whatever follows it, a claim
that returns the run of the command returns what the command asked for. For a blob command that is
exactly its reference, for an address no blob, the normalized address and its route. -/
theorem intake_round_trip (hlib : lib.Lawful) (hreparse : lib.Reparses)
    (hcolumns : columns.Accepts commands) :
    (∀ x : LedgerState lib commands,
      (ledgerSystem lib commands contracts columns).Reachable x →
      ∀ now skipped maxEventBytes run source,
        nextRun now skipped x.data.db = some (run, source) →
          ∃ q, decodeQueuedRun columns maxEventBytes run source = .ok q) ∧
    ∀ (x y z : LedgerState lib commands) (delivery : Delivery lib commands)
      (startedAt : Timestamp) (as : List (LedgerLabel lib commands)),
      (ledgerSystem lib commands contracts columns).Reachable x →
      x.held (.command delivery.command.commandId) =
        some (.intake delivery startedAt, .newCommand) →
      (consumeCapture lib commands contracts startedAt delivery.subject delivery.payload
        x.data.db).1 = .ok .applied →
      (ledgerSystem lib commands contracts columns).step x
        (.commit (.command delivery.command.commandId)) y →
      (ledgerSystem lib commands contracts columns).Run y as z →
      ∀ now claimedBy leaseSeconds maxEventBytes skipped q r,
        (claimQueuedRun columns now claimedBy leaseSeconds maxEventBytes skipped z.data.db).1 =
          .ok (some q) →
        r ∈ z.data.db.runs → r.runId = q.runId → r.commandId = delivery.command.commandId →
        q.Of lib delivery.command := by
  refine ⟨fun x hx now skipped maxEventBytes run source hnext => ?_, ?_⟩
  · have hinv := intakeInv_of_reachable hlib hreparse hx
    obtain ⟨subject, payload, command, hdecoded, hstored⟩ :=
      hinv.run run (nextRun_eq_some hnext).1
    obtain ⟨q, hq, -⟩ := decodeQueuedRun_of maxEventBytes hcolumns hdecoded
      hstored.1 (hinv.sourceOf hstored hnext)
    exact ⟨q, hq⟩
  · intro x y z delivery startedAt as hx hheld happlied hst hrun now claimedBy leaseSeconds
      maxEventBytes skipped q r hclaim hr hrid hcommand
    have hy := hx.step hst
    have hz := hy.run hrun
    have hinv := intakeInv_of_reachable hlib hreparse hz
    have hledger := ledgerInv_of_reachable hz
    -- the commit stores the run of the command
    obtain ⟨r₀, hr₀, hid₀, hstored₀⟩ :=
      stored_of_commit hlib hreparse hx hheld happlied hst
    obtain ⟨r₁, hr₁, hid₁, hstored⟩ := stored_of_run hy hrun hr₀ hstored₀
    obtain ⟨run, source, hnext, hdecode⟩ := claimQueuedRun_eq_ok hclaim
    obtain ⟨subject, payload, command, hdecoded, hstored'⟩ :=
      hinv.run run (nextRun_eq_some hnext).1
    -- the run that was claimed is the run of the command
    have hqid : q.runId = run.runId := by
      obtain ⟨q', hq', hqrun, -⟩ := decodeQueuedRun_of maxEventBytes hcolumns
        hdecoded hstored'.1 (hinv.sourceOf hstored' hnext)
      rw [hdecode] at hq'
      rw [Except.ok.inj hq', hqrun]
    obtain rfl := hledger.eq_of_runId hr (nextRun_eq_some hnext).1 (hrid.trans hqid)
    obtain rfl := Rows.eq_of_key hledger.commandIds hr₁ hr
      ((hid₁.trans hid₀).trans hcommand.symm)
    obtain ⟨q', hq', -, hof⟩ := decodeQueuedRun_of maxEventBytes hcolumns
      delivery.decoded hstored.1 (hinv.sourceOf hstored hnext)
    rw [hdecode] at hq'
    rw [Except.ok.inj hq']
    exact hof

end Claims

/-! ### Two claims about one blob -/

/-- The same bytes, claimed by another service. -/
def secondBlob : BlobRef := ⟨"ratatoskr-x", ⟨.sha256, exampleHex⟩, "text/html", 7⟩

/-- The envelope of a second command of the same owner. -/
def secondEnvelope : CommandEnvelope :=
  { exampleEnvelope with commandId := 5, request := some ⟨3, none, some secondBlob, "k"⟩ }

/-- The decoding of the two commands. -/
def twoCommands : CommandLib :=
  ⟨fun payload => some (if payload = [] then exampleEnvelope else secondEnvelope)⟩

/-- The delivery of the first. -/
def firstDelivery : Delivery (tableLib []) twoCommands :=
  ⟨captureSubject, [], exampleCommand, rfl⟩

/-- The delivery of the second. -/
def secondDelivery : Delivery (tableLib []) twoCommands :=
  ⟨captureSubject, [0], ⟨5, 3, "ratatoskr-platform", 2, "c", "k", 0, .blob secondBlob⟩, rfl⟩

/-- The ledger after both. -/
def sharedLedger : Ledger :=
  (LedgerTx.intake secondDelivery 0).effect (tableLib []) twoCommands exampleContracts .newCommand
    exampleQueued

/-- What a claim returns for the first. -/
def firstRun : QueuedRun := ⟨1, 2, blobAddress exampleBlob, "blob", some exampleBlob, 1000⟩

theorem sharedLedger_eq :
    sharedLedger.db.sources.length = 1 ∧ sharedLedger.db.runs.length = 2 ∧
      (sharedLedger.db.runs.any fun r => r.runId == 1 && r.commandId == 1) = true ∧
      (claimQueuedRun exampleColumns 1 "worker" 60 1000 [] sharedLedger.db).1 =
        .ok (some firstRun) := by
  decide +kernel

/-- Two commands share a source, and the claim of the first returns its own reference. -/
theorem intake_round_trip_shared : ∃ z : LedgerState (tableLib []) twoCommands,
    (ledgerSystem (tableLib []) twoCommands exampleContracts exampleColumns).Reachable z ∧
      z.data.db.sources.length = 1 ∧ z.data.db.runs.length = 2 ∧
      ∃ q, (claimQueuedRun exampleColumns 1 "worker" 60 1000 [] z.data.db).1 = .ok (some q) ∧
        q.Of (tableLib []) exampleCommand := by
  have hlib : (tableLib []).Lawful := tableLib_lawful fun url hurl => absurd hurl List.not_mem_nil
  have hreparse : (tableLib []).Reparses := by
    intro input policy normalized hnormal
    obtain ⟨url, hparse, -⟩ := normalize_parsed hnormal
    cases hparse
  have hcolumns : exampleColumns.Accepts twoCommands :=
    fun _ _ _ _ _ _ _ => ⟨rfl, rfl, rfl⟩
  have hinit : (ledgerSystem (tableLib []) twoCommands exampleContracts exampleColumns).Reachable
      (Locking.State.free Ledger.initial) :=
    Labelled.System.Reachable.init ⟨rfl, fun _ => rfl⟩
  have hopen := hinit.step (Locking.Protocol.step_enter (x := LedgerTx.intake firstDelivery 0)
    (c := .newCommand) rfl)
  have hcommit : (ledgerSystem (tableLib []) twoCommands exampleContracts exampleColumns).step
      _ _ (Locking.State.free exampleQueued) :=
    Locking.Protocol.step_commit (LedgerTx.intake firstDelivery 0) .newCommand Ledger.initial
  have hrun : (ledgerSystem (tableLib []) twoCommands exampleContracts exampleColumns).Run
      (Locking.State.free exampleQueued) ([] ++ [_] ++ [_]) (Locking.State.free sharedLedger) :=
    ((Labelled.System.Run.nil _).snoc (Locking.Protocol.step_enter rfl)).snoc
      (Locking.Protocol.step_commit (LedgerTx.intake secondDelivery 0) .newCommand exampleQueued)
  obtain ⟨hsources, hruns, hany, hclaim⟩ := sharedLedger_eq
  obtain ⟨r, hr, hid⟩ := List.any_eq_true.mp hany
  obtain ⟨hrid, hcommand⟩ := Bool.and_eq_true_iff.mp hid
  have happlied : (consumeCapture (tableLib []) twoCommands exampleContracts 0 captureSubject []
      Ledger.initial.db).1 = .ok .applied := by
    decide +kernel
  refine ⟨Locking.State.free sharedLedger, (hopen.step hcommit).run hrun, hsources, hruns,
    firstRun, hclaim, ?_⟩
  exact (intake_round_trip hlib hreparse hcolumns).2 _ _ _ firstDelivery 0 _ hopen
    (Locking.Protocol.held_opened _ _ _ _) happlied hcommit hrun 1 "worker" 60 1000 [] firstRun r
    hclaim hr (beq_iff_eq.mp hrid) (beq_iff_eq.mp hcommand)

end Extractor
