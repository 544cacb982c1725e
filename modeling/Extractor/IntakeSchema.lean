import Extractor.Intake

/-!
# Intake and the schema

`decode_capture`, the normalizer and `blob_source` decide which commands are taken, the check
constraints of `schema.sql` which rows. A command that the first accept and the second refuse
makes `consume_capture` return the error of an unavailable database, and the consumer leaves the
delivery for redelivery each time it comes.

The two agree on every column but one: nothing before the statement bounds the length of a host.
Past the constraints there is the index of `unique (owner_id, normalized_url)`, whose entries hold
less than an accepted address may be long. How far PostgreSQL compresses an address is outside the
repository; that short ones fit is stated as `UrlLib.IndexesShort`.

## Main results

* `urlSourceRow_checked_iff`, `blobSourceRow_checked`, `queuedRow_checked`: when the rows of intake
  meet the constraints.
* `consumeCommand_eq_error`, `consumeCommand_ne_database`: checked rows are taken in every state of
  the ledger, unless the report of the run is refused.
* `intake_agrees_iff`: intake and the schema agree on a command exactly when its host has at most
  253 characters and its address fits an entry of the index.
-/

namespace Extractor

/-! ### Redelivery -/

/-- `should_redeliver`. -/
def shouldRedeliver : ConsumeError → Bool
  | .database => true
  | _ => false

/-- `run_command_consumer` does not acknowledge the delivery. -/
def leftForRedelivery (result : Except ConsumeError Reception) : Bool :=
  match result with
  | .ok _ => false
  | .error e => shouldRedeliver e

theorem leftForRedelivery_eq_true_iff {result : Except ConsumeError Reception} :
    leftForRedelivery result = true ↔ result = .error .database := by
  cases result with
  | ok reception => simp [leftForRedelivery]
  | error e => cases e <;> simp [leftForRedelivery, shouldRedeliver]

/-! ### The rows of a command -/

/-- The inbox row before its command is applied. -/
def receivedRow (command : CaptureCommand) (now : Timestamp) : InboxRow :=
  { appliedRow command now with appliedAt := none, outcome := none }

/-- The source passes `normalize`, or the length check of `blob_source`. -/
def CaptureCommand.SourcePasses (lib : UrlLib) (command : CaptureCommand) : Prop :=
  match command.source with
  | .url url => ∃ normalized, normalize lib (lib.asStr url) intakePolicy = .ok normalized
  | .blob blob => blob.lengthBytes < 2 ^ 63

/-- The contracts take the report that a command is queued. -/
def CaptureCommand.Reported (contracts : Contracts) (command : CaptureCommand) : Prop :=
  contracts.payloadIsValid (.operationReported (plainReport command.operationId .queued none)) = true

/-- The host has at most 253 characters. -/
def CaptureCommand.HostFits (lib : UrlLib) (command : CaptureCommand) : Prop :=
  match command.source with
  | .url url => ∀ host, url.hostStr lib = some host → host.length ≤ 253
  | .blob _ => True

/-- The normalized address fits an entry of the index of `extractor.sources`. -/
def CaptureCommand.AddressFits (lib : UrlLib) (command : CaptureCommand) : Prop :=
  match command.source with
  | .url url => ∀ normalized, normalize lib (lib.asStr url) intakePolicy = .ok normalized →
      lib.indexFits (lib.asStr normalized.normalized) = true
  | .blob _ => True

/-- What intake relies on of the index: an entry holds a text of 2600 bytes as it is. -/
def UrlLib.IndexesShort (lib : UrlLib) : Prop :=
  ∀ text, text.utf8ByteSize ≤ 2600 → lib.indexFits text = true

/-- The index takes the row that intake upserts for the command, whatever identifier it is given
and whenever it is inserted. -/
def CaptureCommand.RowIndexed (lib : UrlLib) (command : CaptureCommand) : Prop :=
  ∀ now fresh p, prepareSource lib now command fresh = .ok p →
    lib.indexFits p.row.normalizedUrl = true

/-- Every row that intake inserts for the command meets the constraints of its table, whatever
identifiers it is given and whenever it is inserted. -/
structure CaptureCommand.RowsChecked (lib : UrlLib) (command : CaptureCommand) : Prop where
  received : ∀ now, (receivedRow command now).checked = true
  applied : ∀ now, (appliedRow command now).checked = true
  source : ∀ now fresh p, prepareSource lib now command fresh = .ok p → p.row.checked = true
  run : ∀ now fresh p sourceId runId, prepareSource lib now command fresh = .ok p →
    (queuedRow runId command (p.intake sourceId) now).checked = true

section Rows

variable {lib : UrlLib} {commands : CommandLib} {now : Timestamp} {command : CaptureCommand}
  {url : Url} {blob : BlobRef} {normalized : NormalizedUrl} {host address : String}
  {fresh runId sourceId : Uuid}

theorem lengthBetween_iff {low high : ℕ} {text : String} :
    lengthBetween low high text = true ↔ low ≤ text.length ∧ text.length ≤ high :=
  decide_eq_true_iff

/-- A text of storable characters can be stored. -/
theorem storable_of_subset {text text' : String} (h : text'.toList ⊆ text.toList)
    (hstore : storable text = true) : storable text' = true := by
  rw [storable, List.all_eq_true] at hstore ⊢
  exact fun c hc => hstore c (h hc)

theorem storable_append {text text' : String} (h : storable text = true)
    (h' : storable text' = true) : storable (text ++ text') = true := by
  rw [storable, String.toList_append, List.all_append]
  exact Bool.and_eq_true_iff.mpr ⟨h, h'⟩

theorem routeName_storable (route : SourceRoute) : storable (routeName route) = true := by
  cases route <;> decide

/-- **The source row of an address** meets the constraints exactly when its host is short. -/
theorem urlSourceRow_checked_iff (hlib : lib.Lawful) (hparse : lib.parse address = some url)
    (hnormal : normalize lib (lib.asStr url) intakePolicy = .ok normalized)
    (hhost : normalized.normalized.hostStr lib = some host) :
    (urlSourceRow lib now command normalized host fresh).checked = true ↔ host.length ≤ 253 := by
  obtain ⟨url', hparse', hhttp, huser, hpass, -, hsize, horiginal, hnormalized⟩ :=
    normalize_parsed hnormal
  rw [hlib.parse_asStr address url hparse] at hparse'
  obtain rfl := Option.some.inj hparse'
  have hhost' : url.hostStr lib = some host := by
    rw [← hostStr_removeTrackingQuery, ← hnormalized]
    exact hhost
  obtain ⟨query, hquery⟩ := removeTrackingQuery_eq lib { url with fragment := none }
  have htext := hlib.serialized url host hhttp huser hpass hhost'
  have hntext : (lib.asStr normalized.normalized).toList = normalized.normalized.serialized host := by
    refine hlib.serialized _ host ?_ ?_ ?_ hhost
    · rw [hnormalized, hquery]
      exact hhttp
    · rw [hnormalized, hquery]
      exact huser
    · rw [hnormalized, hquery]
      exact hpass
  -- the normalized text leaves characters of the text out, and the host is among them
  have hsub : (lib.asStr normalized.normalized).toList.Sublist (lib.asStr url).toList := by
    rw [hntext, htext, hnormalized]
    exact serialized_sublist lib url host
  have hmem : host.toList ⊆ (lib.asStr url).toList := by
    rw [htext, Url.serialized]
    intro c hc
    simp [hc]
  have hpos : 1 ≤ (lib.asStr normalized.normalized).length := by
    rw [← String.length_toList, hntext, Url.serialized]
    simp only [List.length_append]
    have hscheme : "://".toList.length = 3 := by decide
    omega
  have hle : (lib.asStr normalized.normalized).length ≤ (lib.asStr url).length := by
    rw [← String.length_toList, ← String.length_toList]
    exact hsub.length_le
  have hmax : (lib.asStr url).length ≤ 8192 :=
    Nat.le_trans (Text.length_le_utf8ByteSize _) hsize
  have hhostPos : 1 ≤ host.length :=
    Nat.one_le_iff_ne_zero.mpr fun h =>
      hostStr_ne_empty hlib hparse hhost' (String.length_eq_zero_iff.mp h)
  have hstore := hlib.storable_asStr address url hparse
  have hnstore := storable_of_subset hsub.subset hstore
  have hhstore := storable_of_subset hmem hstore
  have hroute := routeName_storable (classify lib normalized)
  have hurl : lengthBetween 1 8192 (lib.asStr url) = true :=
    lengthBetween_iff.mpr ⟨Nat.le_trans hpos hle, hmax⟩
  have hnurl : lengthBetween 1 8192 (lib.asStr normalized.normalized) = true :=
    lengthBetween_iff.mpr ⟨hpos, Nat.le_trans hle hmax⟩
  simp [SourceRow.checked, urlSourceRow, horiginal, hstore, hnstore, hhstore, hroute, hurl, hnurl,
    lengthBetween_iff, hhostPos]

theorem blobAddress_length (hhex : isSha256Hex blob.digest.hex = true) :
    (blobAddress blob).length = 90 := by
  have hlength : blob.digest.hex.length = 64 := by
    rw [isSha256Hex, Bool.and_eq_true, beq_iff_eq] at hhex
    exact hhex.1
  calc (blobAddress blob).length
    _ = "urn:ratatoskr:blob:sha256:".length + blob.digest.hex.length :=
        String.length_append _ _
    _ = 26 + 64 := congrArg₂ (· + ·) rfl hlength

/-- The source row of a blob meets the constraints. -/
theorem blobSourceRow_checked (hhex : isSha256Hex blob.digest.hex = true)
    (hstore : storable blob.digest.hex = true) :
    (blobSourceRow now command blob fresh).checked = true := by
  have haddress : storable (blobAddress blob) = true :=
    storable_append (by decide) hstore
  have hbound : lengthBetween 1 8192 (blobAddress blob) = true := by
    rw [lengthBetween_iff, blobAddress_length hhex]
    omega
  have htelegram : storable "ratatoskr-telegram" = true ∧ storable "blob" = true ∧
      lengthBetween 1 253 "ratatoskr-telegram" = true := by decide
  simp [SourceRow.checked, blobSourceRow, haddress, hbound, hhex, htelegram]

/-- The run of a command meets the constraints, with or without a blob. -/
theorem queuedRow_checked {source : IntakeSource} (hcorr : storable command.correlationId = true)
    (hclaim : ∀ claim, source.claim = some claim → storable claim.owner = true ∧
      storable claim.mediaType = true ∧ lengthBetween 1 64 claim.owner = true) :
    (queuedRow runId command source now).checked = true := by
  cases hsource : source.claim with
  | none => simp [RunRow.checked, queuedRow, hsource, hcorr, RunStatus.terminal]
  | some claim =>
      obtain ⟨howner, hmedia, hbound⟩ := hclaim claim hsource
      simp [RunRow.checked, queuedRow, hsource, hcorr, RunStatus.terminal, howner, hmedia, hbound]

/-- The blob of a decoded command, as the contracts type it. -/
theorem blob_typed (htyped : commands.Typed) {subject : String} {payload : List UInt8}
    (hdecode : decodeCapture lib commands subject payload = .ok command)
    (hsource : command.source = .blob blob) :
    lengthBetween 1 64 blob.ownerService = true ∧ blob.texts.all storable = true ∧
      isSha256Hex blob.digest.hex = true := by
  obtain ⟨envelope, request, henvelope, hrequest, -, -, hcase⟩ := decodeCapture_eq_ok hdecode
  rcases hcase with ⟨_, url, -, -, hurl⟩ | ⟨blob', hblob, halgorithm, hsource'⟩
  · rw [hsource] at hurl
    cases hurl
  · rw [hsource] at hsource'
    obtain rfl := CaptureSource.blob.inj hsource'
    obtain ⟨howner, htexts, hhex⟩ :=
      htyped.blob payload envelope request blob henvelope hrequest hblob
    exact ⟨howner, htexts, hhex halgorithm⟩

/-- The inbox row of a decoded command meets the constraints, before and after it is applied. -/
theorem inboxRow_checked {subject : String} {payload : List UInt8}
    (hdecode : decodeCapture lib commands subject payload = .ok command) (now : Timestamp) :
    (receivedRow command now).checked = true ∧ (appliedRow command now).checked = true := by
  obtain ⟨envelope, request, -, -, hproducer, -, -⟩ := decodeCapture_eq_ok hdecode
  have hproducer : storable command.producer = true ∧
      lengthBetween 1 64 command.producer = true := by
    rcases List.mem_pair.mp hproducer with h | h
    · rw [h]
      decide
    · rw [h]
      decide
  simp [InboxRow.checked, receivedRow, appliedRow, hproducer]

/-- **The source row of a decoded command** meets the constraints exactly when its host fits. -/
theorem sourceRow_checked_iff (hlib : lib.Lawful) (htyped : commands.Typed) {subject : String}
    {payload : List UInt8} (hdecode : decodeCapture lib commands subject payload = .ok command)
    {p : PreparedSource} (hp : prepareSource lib now command fresh = .ok p) :
    p.row.checked = true ↔ command.HostFits lib := by
  rw [CaptureCommand.HostFits]
  obtain ⟨url, normalized, host, hsource, hnormal, hhost, rfl⟩ | ⟨blob, hsource, rfl⟩ :=
    prepareSource_eq_ok hp
  · rw [hsource]
    obtain ⟨envelope, request, -, -, -, -, hcase⟩ := decodeCapture_eq_ok hdecode
    rcases hcase with ⟨address, url', hparse, -, hurl⟩ | ⟨blob, -, -, hblob⟩
    swap
    · rw [hsource] at hblob
      cases hblob
    rw [hsource] at hurl
    obtain rfl := CaptureSource.url.inj hurl
    have hsame : normalized.normalized.hostStr lib = url.hostStr lib := by
      obtain ⟨url', hparse', -, -, -, -, -, -, hnormalized⟩ := normalize_parsed hnormal
      rw [hlib.parse_asStr address url hparse] at hparse'
      obtain rfl := Option.some.inj hparse'
      rw [hnormalized, hostStr_removeTrackingQuery]
    have hrow : (urlSourceRow lib now command normalized host fresh).checked = true ↔
        host.length ≤ 253 := urlSourceRow_checked_iff hlib hparse hnormal hhost
    dsimp only
    rw [← hsame, hhost]
    refine hrow.trans ⟨fun h host' heq => ?_, fun h => h host rfl⟩
    exact Option.some.inj heq ▸ h
  · rw [hsource]
    obtain ⟨-, htexts, hhex⟩ := blob_typed htyped hdecode hsource
    simp only [BlobRef.texts, List.all_cons, Bool.and_eq_true] at htexts
    exact iff_true_intro (blobSourceRow_checked hhex htexts.2.1)

/-- **The index takes the row of a decoded command** exactly when its address fits. -/
theorem CaptureCommand.addressFits_iff_of_prepared (hindex : lib.IndexesShort)
    (htyped : commands.Typed) {subject : String} {payload : List UInt8}
    (hdecode : decodeCapture lib commands subject payload = .ok command)
    {p : PreparedSource} (hp : prepareSource lib now command fresh = .ok p) :
    command.AddressFits lib ↔ lib.indexFits p.row.normalizedUrl = true := by
  rw [CaptureCommand.AddressFits]
  obtain ⟨url, normalized, host, hsource, hnormal, -, rfl⟩ | ⟨blob, hsource, rfl⟩ :=
    prepareSource_eq_ok hp
  · rw [hsource]
    refine ⟨fun h => h normalized hnormal, fun h normalized' hnormal' => ?_⟩
    obtain rfl := Except.ok.inj (hnormal.symm.trans hnormal')
    exact h
  · rw [hsource]
    obtain ⟨-, -, hhex⟩ := blob_typed htyped hdecode hsource
    refine iff_true_intro (hindex _ (Nat.le_trans (Text.utf8ByteSize_le_mul_length _) ?_)) |>.symm
    change 4 * (blobAddress blob).length ≤ 2600
    rw [blobAddress_length hhex]
    decide

/-- The run of a decoded command meets the constraints. -/
theorem runRow_checked (htyped : commands.Typed) {subject : String} {payload : List UInt8}
    (hdecode : decodeCapture lib commands subject payload = .ok command)
    {p : PreparedSource} (hp : prepareSource lib now command fresh = .ok p) :
    (queuedRow runId command (p.intake sourceId) now).checked = true := by
  obtain ⟨envelope, request, henvelope, -, -, hcorrelation, -⟩ := decodeCapture_eq_ok hdecode
  have hcorr : storable command.correlationId = true :=
    hcorrelation ▸ htyped.correlation payload envelope henvelope
  refine queuedRow_checked hcorr fun claim hclaim => ?_
  obtain ⟨_, _, _, -, -, -, rfl⟩ | ⟨blob, hsource, rfl⟩ := prepareSource_eq_ok hp
  · cases hclaim
  · obtain ⟨howner, htexts, -⟩ := blob_typed htyped hdecode hsource
    obtain rfl := Option.some.inj hclaim
    simp only [BlobRef.texts, List.all_cons, Bool.and_eq_true] at htexts
    exact ⟨htexts.1, htexts.2.2.1, howner⟩

/-- A command whose source passes has a prepared row. -/
theorem CaptureCommand.SourcePasses.prepared (hpasses : command.SourcePasses lib)
    (now : Timestamp) (fresh : Uuid) : ∃ p, prepareSource lib now command fresh = .ok p := by
  unfold CaptureCommand.SourcePasses at hpasses
  unfold prepareSource
  cases hsource : command.source with
  | url url =>
      rw [hsource] at hpasses
      obtain ⟨normalized, hnormal⟩ := hpasses
      obtain ⟨-, hsome, -⟩ := normalize_spec hnormal
      obtain ⟨host, hhost⟩ := Option.isSome_iff_exists.mp hsome
      have hstr : ∃ text, normalized.normalized.hostStr lib = some text := by
        rw [Url.hostStr, hhost]
        exact ⟨_, rfl⟩
      obtain ⟨text, htext⟩ := hstr
      dsimp only
      rw [hnormal]
      dsimp only
      rw [htext]
      exact ⟨_, rfl⟩
  | blob blob =>
      rw [hsource] at hpasses
      dsimp only
      rw [if_pos hpasses]
      exact ⟨_, rfl⟩

/-- **The rows of a command** meet the constraints exactly when its host fits. -/
theorem CaptureCommand.rowsChecked_iff_hostFits (hlib : lib.Lawful) (htyped : commands.Typed)
    {subject : String} {payload : List UInt8}
    (hdecode : decodeCapture lib commands subject payload = .ok command)
    (hpasses : command.SourcePasses lib) : command.RowsChecked lib ↔ command.HostFits lib := by
  constructor
  · intro h
    obtain ⟨p, hp⟩ := hpasses.prepared 0 0
    exact (sourceRow_checked_iff hlib htyped hdecode hp).mp (h.source 0 0 p hp)
  · intro h
    exact ⟨fun now => (inboxRow_checked hdecode now).1, fun now => (inboxRow_checked hdecode now).2,
      fun _ _ _ hp => (sourceRow_checked_iff hlib htyped hdecode hp).mpr h,
      fun _ _ _ _ _ hp => runRow_checked htyped hdecode hp⟩

end Rows

/-! ### The transaction -/

section Consume

variable {lib : UrlLib} {commands : CommandLib} {contracts : Contracts} {now : Timestamp}
  {command : CaptureCommand} {db : Db} {e : ConsumeError}

/-- Preparing a source does not touch the database. -/
theorem prepareSource_ne_database {fresh : Uuid} :
    prepareSource lib now command fresh ≠ .error .database := by
  unfold prepareSource
  split
  · split
    · exact fun h => nomatch h
    · split
      · exact fun h => nomatch h
      · exact fun h => nomatch h
  · split
    · exact fun h => nomatch h
    · exact fun h => nomatch h

/-- A row that meets the constraints and that the index takes is upserted. -/
theorem upsertSource_ne_error {row : SourceRow} (hchecked : row.checked = true)
    (hindex : lib.indexFits row.normalizedUrl = true) : upsertSource lib row db ≠ .error e := by
  intro h
  rw [upsertSource, Tx.bind_eq_error_iff] at h
  rcases h with h | ⟨_, _, -, h⟩
  · exact (Tx.require_eq_error_iff.mp h).1 hchecked
  · rcases Tx.bind_eq_error_iff.mp h with h | ⟨known, _, -, h⟩
    · exact Tx.read_ne_error h
    · cases known with
      | none =>
          rcases Tx.bind_eq_error_iff.mp h with h | ⟨_, _, -, h⟩
          · exact (Tx.require_eq_error_iff.mp h).1 hindex
          rcases Tx.bind_eq_error_iff.mp h with h | ⟨_, _, -, h⟩
          · exact Tx.write_ne_error h
          · exact Tx.pure_ne_error h
      | some existing =>
          rcases Tx.bind_eq_error_iff.mp h with h | ⟨_, _, -, h⟩
          · exact Tx.write_ne_error h
          · exact Tx.pure_ne_error h

/-- The inbox takes a row that meets the constraints. -/
theorem insertInbox_ne_error (hchecked : (receivedRow command now).checked = true) :
    insertInbox now command db ≠ .error e := by
  intro h
  rcases Tx.bind_eq_error_iff.mp h with h | ⟨known, _, -, h⟩
  · exact Tx.read_ne_error h
  · cases known with
    | true => exact Tx.pure_ne_error h
    | false =>
        rcases Tx.bind_eq_error_iff.mp h with h | ⟨_, _, -, h⟩
        · exact (Tx.require_eq_error_iff.mp h).1 hchecked
        · rcases Tx.bind_eq_error_iff.mp h with h | ⟨_, _, -, h⟩
          · exact Tx.write_ne_error h
          · exact Tx.pure_ne_error h

/-- An outbox row under fresh identifiers is taken. -/
theorem enqueueJson_ne_error {context : CompletionContext} {envelope : EventEnvelope}
    (htexts : envelope.texts.all storable = true)
    (hfresh : db.FreshIn db.nextUuid envelope.eventId) :
    enqueueJson now context reportSubject envelope db ≠ .error e := by
  intro h
  have hok : enqueueJson now context reportSubject envelope db = .ok ((), _) :=
    enqueueJson_eq_ok_iff.mpr
      ⟨⟨htexts, CompletionContext.outboxRow_checked (Or.inr rfl), hfresh⟩, rfl⟩
  rw [h] at hok
  cases hok

/-- The queued report is stored under fresh identifiers, if the contracts take it. -/
theorem enqueueQueuedReport_eq_error (hcorr : storable command.correlationId = true)
    (hbound : db.OutboxBounded) (h : enqueueQueuedReport contracts now command db = .error e) :
    ¬ command.Reported contracts ∧ e = .envelope := by
  rcases Tx.bind_eq_error_iff.mp h with h | ⟨eventId, db₁, hfresh, h⟩
  · exact absurd h Tx.freshUuid_ne_error
  · obtain ⟨rfl, rfl⟩ := Tx.freshUuid_eq_ok_iff.mp hfresh
    rcases Tx.bind_eq_error_iff.mp h with h | ⟨_, _, hpayload, h⟩
    · exact ⟨(Tx.require_eq_error_iff.mp h).1, (Tx.require_eq_error_iff.mp h).2.symm⟩
    · obtain ⟨-, rfl⟩ := Tx.require_eq_ok_iff.mp hpayload
      refine absurd h (enqueueJson_ne_error ?_ ?_)
      · simp [EventEnvelope.texts, EntityRef.texts, EventPayload.texts, plainReport, hcorr]
      · exact hbound.freshIn (Nat.le_succ _) (Nat.le_refl _)

/-- **Rows that meet the constraints and the index are taken**: where every known command has its
run, intake refuses a command for its source only, or for a report that the contracts do not take.
-/
theorem consumeCommand_eq_error (hrows : command.RowsChecked lib)
    (hindexed : command.RowIndexed lib) (hcorr : storable command.correlationId = true)
    (hbound : db.OutboxBounded)
    (hinbox : db.inbox.map InboxRow.commandId = db.runs.map RunRow.commandId)
    (herror : consumeCommand lib contracts now command db = .error e) :
    prepareSource lib now command db.nextUuid = .error e ∨
      ¬ command.Reported contracts ∧ e = .envelope := by
  rcases Tx.bind_eq_error_iff.mp herror with h | ⟨inserted, db₁, hinsert, h⟩
  · exact absurd h (insertInbox_ne_error (hrows.received now))
  rcases insertInbox_eq_ok hinsert with ⟨rfl, -, -⟩ | ⟨rfl, hnew, rfl⟩
  · exact absurd h Tx.pure_ne_error
  rcases Tx.bind_eq_error_iff.mp h with h | ⟨_, _, -, h⟩
  swap
  · exact absurd h Tx.pure_ne_error
  rcases Tx.bind_eq_error_iff.mp h with h | ⟨_, db₂, hqueue, h⟩
  · -- queueing the run
    rcases Tx.bind_eq_error_iff.mp h with h | ⟨source, db₂, hsource, h⟩
    · rw [intakeSource_eq] at h
      split at h
      · next e' he => exact Or.inl (he.trans (congrArg _ (Except.error.inj h)))
      · next p hp =>
          rcases Tx.bind_eq_error_iff.mp h with h | ⟨_, _, -, h⟩
          · exact absurd h (upsertSource_ne_error (hrows.source _ _ p hp) (hindexed _ _ p hp))
          · exact absurd h Tx.pure_ne_error
    · rcases Tx.bind_eq_error_iff.mp h with h | ⟨runId, db₃, hfresh, h⟩
      · exact absurd h Tx.freshUuid_ne_error
      obtain ⟨rfl, rfl⟩ := Tx.freshUuid_eq_ok_iff.mp hfresh
      rw [intakeSource_eq] at hsource
      split at hsource
      · cases hsource
      next p hp =>
        obtain ⟨sourceId, db₄, hupsert, hret⟩ := Tx.bind_eq_ok_iff.mp hsource
        obtain ⟨rfl, rfl⟩ := Tx.pure_eq_ok_iff.mp hret
        obtain ⟨sources, rfl⟩ := upsertSource_eq_ok hupsert
        rcases Tx.bind_eq_error_iff.mp h with h | ⟨_, _, hchecked, h⟩
        · exact absurd (hrows.run _ _ p sourceId _ hp) (Tx.require_eq_error_iff.mp h).1
        obtain ⟨-, rfl⟩ := Tx.require_eq_ok_iff.mp hchecked
        rcases Tx.bind_eq_error_iff.mp h with h | ⟨known, _, hread, h⟩
        · exact absurd h Tx.read_ne_error
        obtain ⟨rfl, rfl⟩ := Tx.read_eq_ok_iff.mp hread
        rcases Tx.bind_eq_error_iff.mp h with h | ⟨_, _, -, h⟩
        · -- a run of the command would have its inbox row
          refine absurd (List.any_eq_false.mpr fun r hr hid => ?_) (Tx.require_eq_error_iff.mp h).1
          have hmem : r.commandId ∈ db.inbox.map InboxRow.commandId :=
            hinbox ▸ List.mem_map_of_mem hr
          obtain ⟨i, hi, hcommand⟩ := List.mem_map.mp hmem
          exact hnew i hi (hcommand.trans (beq_iff_eq.mp hid))
        · exact absurd h Tx.write_ne_error
  · rcases Tx.bind_eq_error_iff.mp h with h | ⟨_, _, -, h⟩
    swap
    · exact absurd h Tx.write_ne_error
    -- the queue leaves the outbox alone, and the identifiers grow
    obtain ⟨source, db₃, hsource, hrest⟩ := Tx.bind_eq_ok_iff.mp hqueue
    obtain ⟨sources, rfl⟩ := intakeSource_eq_ok hsource
    simp only [insertRun, Tx.bind_eq_ok_iff, Tx.freshUuid_eq_ok_iff, Tx.require_eq_ok_iff,
      Tx.read_eq_ok_iff, Tx.write_eq_ok_iff] at hrest
    obtain ⟨_, _, ⟨rfl, rfl⟩, _, _, ⟨-, rfl⟩, _, _, ⟨rfl, rfl⟩, _, _, ⟨-, rfl⟩, rfl⟩ := hrest
    refine Or.inr (enqueueQueuedReport_eq_error hcorr (fun r hr => ?_) h)
    exact ⟨Nat.lt_add_right 2 (hbound r hr).1, Nat.lt_add_right 2 (hbound r hr).2⟩

/-- Such a command does not meet the error of an unavailable database. -/
theorem consumeCommand_ne_database (hrows : command.RowsChecked lib)
    (hindexed : command.RowIndexed lib) (hcorr : storable command.correlationId = true)
    (hbound : db.OutboxBounded)
    (hinbox : db.inbox.map InboxRow.commandId = db.runs.map RunRow.commandId) :
    consumeCommand lib contracts now command db ≠ .error .database := by
  intro herror
  rcases consumeCommand_eq_error hrows hindexed hcorr hbound hinbox herror with h | ⟨-, h⟩
  · exact prepareSource_ne_database h
  · cases h

/-- A row that the constraints or the index refuse is not upserted, where its address is new. -/
theorem upsertSource_eq_database {row : SourceRow}
    (hnew : ∀ r ∈ db.sources, r.normalizedUrl ≠ row.normalizedUrl)
    (hrow : ¬ (row.checked = true ∧ lib.indexFits row.normalizedUrl = true)) :
    upsertSource lib row db = .error .database := by
  by_cases hchecked : row.checked = true
  · have hnone : (db.sources.find? fun r =>
        r.ownerId == row.ownerId && r.normalizedUrl == row.normalizedUrl) = none := by
      refine List.find?_eq_none.mpr fun r hr hsame => hnew r hr ?_
      exact beq_iff_eq.mp (Bool.and_eq_true_iff.mp hsame).2
    rw [upsertSource, Tx.bind_of_ok (a := ()) (Tx.require_eq_ok_iff.mpr ⟨hchecked, rfl⟩),
      Tx.bind_of_ok (a := none) (Tx.read_eq_ok_iff.mpr ⟨hnone, rfl⟩)]
    exact Tx.bind_of_error (Tx.require_eq_error_iff.mpr ⟨fun h => hrow ⟨hchecked, h⟩, rfl⟩)
  · exact Tx.bind_of_error (Tx.require_eq_error_iff.mpr ⟨hchecked, rfl⟩)

/-- A new command whose source row is refused returns the error of an unavailable database. -/
theorem consumeCommand_eq_database (hnew : ∀ r ∈ db.inbox, r.commandId ≠ command.commandId)
    (hreceived : (receivedRow command now).checked = true) {p : PreparedSource}
    (hp : prepareSource lib now command db.nextUuid = .ok p)
    (haddress : ∀ r ∈ db.sources, r.normalizedUrl ≠ p.row.normalizedUrl)
    (hrow : ¬ (p.row.checked = true ∧ lib.indexFits p.row.normalizedUrl = true)) :
    consumeCommand lib contracts now command db = .error .database := by
  cases hinsert : insertInbox now command db with
  | error e => exact absurd hinsert (insertInbox_ne_error hreceived)
  | ok r =>
      obtain ⟨inserted, db₁⟩ := r
      rcases insertInbox_eq_ok hinsert with ⟨-, ⟨r, hr, hid⟩, -⟩ | ⟨rfl, -, rfl⟩
      · exact absurd hid (hnew r hr)
      · refine Tx.bind_eq_error_iff.mpr (Or.inr ⟨_, _, hinsert, ?_⟩)
        refine Tx.bind_eq_error_iff.mpr (Or.inl (Tx.bind_eq_error_iff.mpr (Or.inl ?_)))
        refine Tx.bind_eq_error_iff.mpr (Or.inl ?_)
        rw [intakeSource_eq]
        dsimp only
        rw [hp]
        exact Tx.bind_of_error (upsertSource_eq_database haddress hrow)

/-- The first delivery of a command whose host does not fit, or whose address does not. -/
theorem consumeCapture_eq_database (contracts : Contracts) (hlib : lib.Lawful)
    (hindex : lib.IndexesShort) (htyped : commands.Typed) {subject : String} {payload : List UInt8}
    (hdecode : decodeCapture lib commands subject payload = .ok command)
    (hpasses : command.SourcePasses lib)
    (hlong : ¬ (command.HostFits lib ∧ command.AddressFits lib)) :
    (consumeCapture lib commands contracts 0 subject payload Db.empty).1 = .error .database := by
  obtain ⟨p, hp⟩ := hpasses.prepared 0 Db.empty.nextUuid
  have hrow : ¬ (p.row.checked = true ∧ lib.indexFits p.row.normalizedUrl = true) := by
    rintro ⟨hchecked, hfits⟩
    refine hlong ⟨(sourceRow_checked_iff hlib htyped hdecode hp).mp hchecked, ?_⟩
    exact (CaptureCommand.addressFits_iff_of_prepared hindex htyped hdecode hp).mpr hfits
  have hdatabase : consumeCommand lib contracts 0 command Db.empty = .error .database :=
    consumeCommand_eq_database (fun r hr => absurd hr List.not_mem_nil)
      (inboxRow_checked hdecode 0).1 hp (fun r hr => absurd hr List.not_mem_nil) hrow
  rw [consumeCapture, hdecode]
  dsimp only [transact]
  rw [hdatabase]

/-- **Intake and the schema agree exactly on short hosts.** For a command that `decode_capture`
accepts and whose source passes: its rows meet every constraint exactly when its host has at most
253 characters, and no delivery of it, in any state that the ledger reaches, is left for
redelivery exactly when its address fits the index besides. -/
theorem intake_agrees_iff (contracts : Contracts) (columns : BlobColumns) (hlib : lib.Lawful)
    (hindex : lib.IndexesShort) (htyped : commands.Typed) {subject : String} {payload : List UInt8}
    (hdecode : decodeCapture lib commands subject payload = .ok command)
    (hpasses : command.SourcePasses lib) :
    (command.RowsChecked lib ↔ command.HostFits lib) ∧
    ((∀ x now, (ledgerSystem lib commands contracts columns).Reachable x →
      leftForRedelivery (consumeCapture lib commands contracts now subject payload
        x.data.db).1 = false) ↔ command.HostFits lib ∧ command.AddressFits lib) := by
  refine ⟨CaptureCommand.rowsChecked_iff_hostFits hlib htyped hdecode hpasses, ?_⟩
  obtain ⟨envelope, request, henvelope, -, -, hcorrelation, -⟩ := decodeCapture_eq_ok hdecode
  have hconsume : ∀ now db, leftForRedelivery (consumeCapture lib commands contracts now subject
      payload db).1 = true ↔ consumeCommand lib contracts now command db = .error .database := by
    intro now db
    rw [leftForRedelivery_eq_true_iff, consumeCapture, hdecode]
    dsimp only [transact]
    cases consumeCommand lib contracts now command db with
    | error e => simp
    | ok r => simp
  constructor
  · -- in the empty database a row that is refused is seen
    intro hall
    have hinit : (ledgerSystem lib commands contracts columns).Reachable
        (Locking.State.free Ledger.initial) :=
      Labelled.System.Reachable.init ⟨rfl, fun _ => rfl⟩
    by_contra hlong
    have hdatabase := consumeCapture_eq_database contracts hlib hindex htyped hdecode hpasses hlong
    exact Bool.false_ne_true
      ((hall _ 0 hinit).symm.trans (leftForRedelivery_eq_true_iff.mpr hdatabase))
  · rintro ⟨hfits, haddress⟩ x now hx
    have hinv := ledgerInv_of_reachable hx
    have hrows := (CaptureCommand.rowsChecked_iff_hostFits hlib htyped hdecode hpasses).mpr hfits
    have hindexed : command.RowIndexed lib := fun _ _ _ hp =>
      (CaptureCommand.addressFits_iff_of_prepared hindex htyped hdecode hp).mp haddress
    refine Bool.eq_false_iff.mpr fun hleft => ?_
    refine consumeCommand_ne_database hrows hindexed ?_ hinv.outbox_lt hinv.inbox
      ((hconsume now _).mp hleft)
    rw [hcorrelation]
    exact htyped.correlation payload envelope henvelope

end Consume

/-! ### Long and short hosts -/

/-- Five labels of sixty characters each. -/
def longHost : String :=
  String.ofList (['.'].intercalate (List.replicate 5 (List.replicate 60 'a')))

/-- An address with this host. -/
def longUrl : Url := { exampleUrl with host := some (.domain longHost) }

theorem longUrl_text : (tableText longUrl).toList =
    "http://".toList ++ ['.'].intercalate (List.replicate 5 (List.replicate 60 'a')) ++ ['/'] := by
  have hhost : longHost.toList =
      ['.'].intercalate (List.replicate 5 (List.replicate 60 'a')) := String.toList_ofList
  rw [tableText_domain (rfl : longUrl.host = some (.domain longHost)), String.toList_ofList,
    Url.serialized, hhost]
  generalize ['.'].intercalate (List.replicate 5 (List.replicate 60 'a')) = host
  change "http".toList ++ "://".toList ++ host ++ [] ++ "/".toList ++ [] ++ [] = _
  rw [List.append_nil, List.append_nil, List.append_nil]
  rfl

theorem longUrl_length : (tableText longUrl).length = 312 := by
  rw [← String.length_toList, longUrl_text]
  decide +kernel

theorem longHost_length : longHost.length = 304 := by
  rw [longHost, String.length_ofList]
  decide +kernel

/-- The envelope of a command that captures an address. -/
def urlEnvelope (address : String) : CommandEnvelope :=
  { exampleEnvelope with request := some ⟨3, some address, none, "k"⟩ }

/-- The decoding of this one command. -/
def urlCommands (address : String) : CommandLib := ⟨fun _ => some (urlEnvelope address)⟩

theorem urlCommands_typed (address : String) : (urlCommands address).Typed where
  correlation payload envelope h := by
    obtain rfl := Option.some.inj h
    exact (by decide : storable "c" = true)
  blob payload envelope request blob h hrequest hblob := by
    obtain rfl := Option.some.inj h
    obtain rfl := Option.some.inj hrequest
    cases hblob

/-- The command. -/
def urlCommand (url : Url) : CaptureCommand :=
  ⟨1, 3, "ratatoskr-platform", 2, "c", "k", 0, .url url⟩

theorem decodeCapture_url {lib : UrlLib} {text : String} {url : Url}
    (hparse : lib.parse text = some url) (hhttp : url.isHttp) :
    decodeCapture lib (urlCommands text) captureSubject [] = .ok (urlCommand url) := by
  have hsource : captureSource lib ⟨3, some text, none, "k"⟩ = .ok (.url url) := by
    simp only [captureSource, hparse, Except.bind_eq_ok_iff, Except.okOr_eq_ok_iff,
      Except.require_eq_ok_iff]
    exact ⟨url, rfl, (), hhttp, rfl⟩
  simp only [decodeCapture, Except.bind_eq_ok_iff, Except.okOr_eq_ok_iff,
    Except.require_eq_ok_iff]
  exact ⟨(), trivial, _, rfl, (), rfl, (), List.mem_cons_self .., _, rfl, _, rfl, (), rfl, _,
    hsource, rfl⟩

theorem decodeCapture_table {url : Url} (hhttp : url.isHttp) :
    decodeCapture (tableLib [url]) (urlCommands (tableText url)) captureSubject [] =
      .ok (urlCommand url) :=
  decodeCapture_url (by simp [tableLib]) hhttp

theorem sourcePasses_table {url : Url} {name : String} (hhttp : url.isHttp)
    (huser : url.username = "") (hpass : url.password = none) (hport : url.port = none)
    (hhost : url.host = some (.domain name)) (hsize : (tableText url).utf8ByteSize ≤ 8192)
    (hslashes : Text.contains "://".toList (tableText url).toList = true) :
    (urlCommand url).SourcePasses (tableLib [url]) := by
  have hparse : (tableLib [url]).parse (tableText url) = some url := by simp [tableLib]
  obtain ⟨port, hknown, hallowed⟩ :
      ∃ port, url.portOrKnownDefault = some port ∧ port ∈ intakePolicy.allowedPorts := by
    rw [Url.portOrKnownDefault, hport]
    rcases hhttp with h | h
    · exact ⟨80, by rw [h]; rfl, by decide⟩
    · exact ⟨443, by rw [h]; rfl, by decide⟩
  have hsome : url.host.isSome = true := by
    rw [hhost]
    rfl
  have hnone : url.password.isNone = true := by
    rw [hpass]
    rfl
  have hzero : url.port ≠ some 0 := by
    rw [hport]
    exact fun h => nomatch h
  have hplain : numericHostIsAmbiguous (tableLib [url]) (tableText url) url = false := by
    rw [numericHostIsAmbiguous, hhost]
  have hnormal : ∃ normalized,
      normalize (tableLib [url]) (tableText url) intakePolicy = .ok normalized := by
    simp only [normalize, Except.bind_eq_ok_iff, Except.require_eq_ok_iff, Except.okOr_eq_ok_iff]
    exact ⟨_, (), hsize, (), hslashes, url, hparse, (), hhttp, (), hsome, (), ⟨huser, hnone⟩, (),
      hzero, port, hknown, (), hallowed, (), hplain, rfl⟩
  exact hnormal

theorem tableLib_indexesShort (urls : List Url) : (tableLib urls).IndexesShort :=
  fun _ hsize => decide_eq_true hsize

/-- A short host fits. -/
theorem intake_agrees_short :
    (urlCommand exampleUrl).RowsChecked (tableLib [exampleUrl]) ∧
    ∀ x now, (ledgerSystem (tableLib [exampleUrl]) (urlCommands "http://example.org/")
      exampleContracts exampleColumns).Reachable x →
      leftForRedelivery (consumeCapture (tableLib [exampleUrl])
        (urlCommands "http://example.org/") exampleContracts now captureSubject []
        x.data.db).1 = false := by
  have hlib : (tableLib [exampleUrl]).Lawful := by
    refine tableLib_lawful fun url hurl => ?_
    obtain rfl := List.mem_singleton.mp hurl
    refine ⟨by decide, fun name hname => ?_⟩
    obtain rfl := Host.domain.inj (Option.some.inj hname)
    decide
  have hfits : (urlCommand exampleUrl).HostFits (tableLib [exampleUrl]) := by
    intro host hhost
    obtain rfl := Option.some.inj hhost
    decide
  have hdecode : decodeCapture (tableLib [exampleUrl]) (urlCommands "http://example.org/")
      captureSubject [] = .ok (urlCommand exampleUrl) :=
    decodeCapture_table (Or.inl rfl)
  have hpasses : (urlCommand exampleUrl).SourcePasses (tableLib [exampleUrl]) :=
    sourcePasses_table (Or.inl rfl) rfl rfl rfl rfl (by decide +kernel) (by decide +kernel)
  have haddress : (urlCommand exampleUrl).AddressFits (tableLib [exampleUrl]) := by
    intro normalized hnormal
    obtain ⟨url, hparse, -, -, -, -, -, -, hnormalized⟩ := normalize_parsed hnormal
    have hfind : ([exampleUrl].find? fun u => tableText u == tableText exampleUrl) = some url :=
      hparse
    have hmem : url ∈ [exampleUrl] := List.mem_of_find?_eq_some hfind
    obtain rfl := List.mem_singleton.mp hmem
    rw [hnormalized]
    decide +kernel
  have hall := intake_agrees_iff exampleContracts exampleColumns hlib
    (tableLib_indexesShort [exampleUrl]) (urlCommands_typed "http://example.org/") hdecode hpasses
  exact ⟨hall.1.mpr hfits, hall.2.mpr ⟨hfits, haddress⟩⟩

/-- **A long host is refused by the schema only.** The command decodes and its source passes, but
the row of its source breaks a constraint: on an empty database `consume_capture` returns the error
of an unavailable one, and the delivery is left for redelivery. -/
theorem long_host_redelivered :
    (tableLib [longUrl]).Lawful ∧ (urlCommands (tableText longUrl)).Typed ∧
    decodeCapture (tableLib [longUrl]) (urlCommands (tableText longUrl)) captureSubject [] =
      .ok (urlCommand longUrl) ∧
    (urlCommand longUrl).SourcePasses (tableLib [longUrl]) ∧
    ¬ (urlCommand longUrl).RowsChecked (tableLib [longUrl]) ∧
    (consumeCapture (tableLib [longUrl]) (urlCommands (tableText longUrl)) exampleContracts 0
      captureSubject [] Db.empty).1 = .error .database ∧
    shouldRedeliver .database = true := by
  have hlib : (tableLib [longUrl]).Lawful := by
    refine tableLib_lawful fun url hurl => ?_
    obtain rfl := List.mem_singleton.mp hurl
    constructor
    · rw [storable, longUrl_text]
      decide +kernel
    · intro name hname hempty
      obtain rfl := Host.domain.inj (Option.some.inj hname)
      exact absurd (longHost_length.symm.trans (congrArg String.length hempty)) (by decide)
  have hdecode : decodeCapture (tableLib [longUrl]) (urlCommands (tableText longUrl))
      captureSubject [] = .ok (urlCommand longUrl) := decodeCapture_table (Or.inl rfl)
  have hpasses : (urlCommand longUrl).SourcePasses (tableLib [longUrl]) := by
    refine sourcePasses_table (Or.inl rfl) rfl rfl rfl rfl ?_ ?_
    · refine Nat.le_trans (Text.utf8ByteSize_le_mul_length _) ?_
      rw [longUrl_length]
      decide
    · rw [longUrl_text]
      decide +kernel
  have hlong : ¬ (urlCommand longUrl).HostFits (tableLib [longUrl]) := by
    intro hfits
    have hle := hfits longHost rfl
    rw [longHost_length] at hle
    exact absurd hle (by decide)
  have htyped := urlCommands_typed (tableText longUrl)
  refine ⟨hlib, htyped, hdecode, hpasses, ?_, ?_, rfl⟩
  · rw [CaptureCommand.rowsChecked_iff_hostFits hlib htyped hdecode hpasses]
    exact hlong
  · exact consumeCapture_eq_database exampleContracts hlib (tableLib_indexesShort [longUrl]) htyped
      hdecode hpasses fun h => hlong h.1

end Extractor
