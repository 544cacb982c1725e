import Extractor.RunLedger

/-!
# What intake writes

The rows of `consume_capture` as functions of the command. The source row is prepared before its
statement: `url_source` normalizes the address and names its route, `blob_source` builds the
content-addressed name. What these functions return is described here once, together with what is
known of a command that `decode_capture` accepted.

The `url` crate and the typed contracts are outside the repository; what intake relies on of them
is stated as `UrlLib.Lawful` and `CommandLib.Typed`.

## Main results

* `intakeSource_eq`: finding the source of a command is the upsert of its prepared row.
* `normalize_parsed`, `serialized_sublist`: a normalized address is the address it came from with
  characters left out.
* `decodeCapture_eq_ok`: what `decode_capture` accepts.
-/

namespace Extractor

/-! ### Prepared sources -/

/-- The row that `url_source` upserts. -/
def urlSourceRow (lib : UrlLib) (now : Timestamp) (command : CaptureCommand)
    (normalized : NormalizedUrl) (host : String) (sourceId : Uuid) : SourceRow where
  sourceId := sourceId
  ownerId := command.tenantId
  originalUrl := normalized.original
  normalizedUrl := lib.asStr normalized.normalized
  canonicalUrl := lib.asStr normalized.normalized
  host := host
  classification := routeName (classify lib normalized)
  createdAt := now
  sourceKind := .url
  blobDigestHex := none

/-- What `url_source` returns. -/
def urlIntake (lib : UrlLib) (normalized : NormalizedUrl) (sourceId : Uuid) : IntakeSource where
  sourceId := sourceId
  claim := none
  policyVersion := "ssrf-v1"
  normalizerVersion := "url-v1"
  parserVersion := parserVersion (classify lib normalized)

/-- The content-addressed name of a blob. -/
def blobAddress (blob : BlobRef) : String := "urn:ratatoskr:blob:sha256:" ++ blob.digest.hex

/-- The row that `blob_source` upserts. -/
def blobSourceRow (now : Timestamp) (command : CaptureCommand) (blob : BlobRef)
    (sourceId : Uuid) : SourceRow where
  sourceId := sourceId
  ownerId := command.tenantId
  originalUrl := blobAddress blob
  normalizedUrl := blobAddress blob
  canonicalUrl := blobAddress blob
  host := "ratatoskr-telegram"
  classification := "blob"
  createdAt := now
  sourceKind := .blob
  blobDigestHex := some blob.digest.hex

/-- What `blob_source` returns. -/
def blobIntake (blob : BlobRef) (sourceId : Uuid) : IntakeSource where
  sourceId := sourceId
  claim := some ⟨blob.ownerService, blob.mediaType, blob.lengthBytes⟩
  policyVersion := "peer-blob-v1"
  normalizerVersion := "blob-v1"
  parserVersion := "pdf-v1"

/-- A source before its statement: the row to upsert, and what is returned for its identifier. -/
structure PreparedSource where
  row : SourceRow
  intake : Uuid → IntakeSource

/-- `url_source` and `blob_source` up to their statement. -/
def prepareSource (lib : UrlLib) (now : Timestamp) (command : CaptureCommand) (fresh : Uuid) :
    Except ConsumeError PreparedSource :=
  match command.source with
  | .url url =>
      match normalize lib (lib.asStr url) intakePolicy with
      | .error e => .error (.url e)
      | .ok normalized =>
          match normalized.normalized.hostStr lib with
          | none => .error .invalidUrlScheme
          | some host =>
              .ok ⟨urlSourceRow lib now command normalized host fresh, urlIntake lib normalized⟩
  | .blob blob =>
      if blob.lengthBytes < 2 ^ 63 then .ok ⟨blobSourceRow now command blob fresh, blobIntake blob⟩
      else .error .invalidArtifact

section Prepared

variable {lib : UrlLib} {now : Timestamp} {command : CaptureCommand} {db db' : Db}

/-- **Finding the source of a command** is the upsert of its prepared row. -/
theorem intakeSource_eq (lib : UrlLib) (now : Timestamp) (command : CaptureCommand) (db : Db) :
    intakeSource lib now command db =
      match prepareSource lib now command db.nextUuid with
      | .error e => .error e
      | .ok p => (upsertSource lib p.row >>= fun sourceId => pure (p.intake sourceId))
          { db with nextUuid := db.nextUuid + 1 } := by
  unfold intakeSource prepareSource
  cases command.source with
  | url url =>
      simp only [urlSource]
      cases hnormal : normalize lib (lib.asStr url) intakePolicy with
      | error e => exact Tx.bind_of_error rfl
      | ok normalized =>
          refine (Tx.bind_of_ok (Tx.pure_eq_ok_iff.mpr ⟨rfl, rfl⟩)).trans ?_
          dsimp only
          cases hhost : normalized.normalized.hostStr lib with
          | none => exact Tx.bind_of_error (Tx.okOr_eq_error_iff.mpr ⟨rfl, rfl⟩)
          | some host => rfl
  | blob blob =>
      simp only [blobSource]
      by_cases hlength : blob.lengthBytes < 2 ^ 63
      · rw [if_pos hlength]
        exact Tx.bind_of_ok (a := ()) (Tx.require_eq_ok_iff.mpr ⟨hlength, rfl⟩)
      · rw [if_neg hlength]
        exact Tx.bind_of_error (Tx.require_eq_error_iff.mpr ⟨hlength, rfl⟩)

/-- What was prepared for a command: the row of its normal address, or the row of its blob. -/
theorem prepareSource_eq_ok {fresh : Uuid} {p : PreparedSource}
    (h : prepareSource lib now command fresh = .ok p) :
    (∃ url normalized host, command.source = .url url ∧
      normalize lib (lib.asStr url) intakePolicy = .ok normalized ∧
      normalized.normalized.hostStr lib = some host ∧
      p = ⟨urlSourceRow lib now command normalized host fresh, urlIntake lib normalized⟩) ∨
    ∃ blob, command.source = .blob blob ∧
      p = ⟨blobSourceRow now command blob fresh, blobIntake blob⟩ := by
  unfold prepareSource at h
  cases hsource : command.source with
  | url url =>
      rw [hsource] at h
      dsimp only at h
      cases hnormal : normalize lib (lib.asStr url) intakePolicy with
      | error e =>
          rw [hnormal] at h
          cases h
      | ok normalized =>
          rw [hnormal] at h
          dsimp only at h
          cases hhost : normalized.normalized.hostStr lib with
          | none =>
              rw [hhost] at h
              cases h
          | some host =>
              rw [hhost] at h
              exact .inl ⟨url, normalized, host, rfl, hnormal, hhost, (Except.ok.inj h).symm⟩
  | blob blob =>
      rw [hsource] at h
      dsimp only at h
      by_cases hlength : blob.lengthBytes < 2 ^ 63
      · rw [if_pos hlength] at h
        exact .inr ⟨blob, rfl, (Except.ok.inj h).symm⟩
      · rw [if_neg hlength] at h
        cases h

/-- A prepared row has the identifier it was given. -/
theorem prepareSource_sourceId {fresh : Uuid} {p : PreparedSource}
    (h : prepareSource lib now command fresh = .ok p) :
    p.row.sourceId = fresh ∧ ∀ sourceId, (p.intake sourceId).sourceId = sourceId := by
  obtain ⟨_, _, _, -, -, -, rfl⟩ | ⟨_, -, rfl⟩ := prepareSource_eq_ok h
  · exact ⟨rfl, fun _ => rfl⟩
  · exact ⟨rfl, fun _ => rfl⟩

end Prepared

/-! ### The serialization of addresses -/

/-- The serialization of a URL without user information. -/
def Url.serialized (url : Url) (host : String) : List Char :=
  url.scheme.toList ++ "://".toList ++ host.toList ++
    (url.port.elim [] fun port => ':' :: (toString port).toList) ++ url.path.toList ++
    (url.query.elim [] fun query => '?' :: query.toList) ++
    (url.fragment.elim [] fun fragment => '#' :: fragment.toList)

/-- The scheme is one that is fetched. -/
def Url.isHttp (url : Url) : Prop := url.scheme = "http" ∨ url.scheme = "https"

/-- What intake relies on of the `url` crate: the serialization of the URL Standard, that it
parses back, that domains are not empty, and that no text of a URL holds the null character. -/
structure UrlLib.Lawful (lib : UrlLib) : Prop where
  serialized : ∀ url host, url.isHttp → url.username = "" → url.password = none →
    url.hostStr lib = some host → (lib.asStr url).toList = url.serialized host
  parse_asStr : ∀ text url, lib.parse text = some url → lib.parse (lib.asStr url) = some url
  domain_ne : ∀ text url name, lib.parse text = some url → url.host = some (.domain name) →
    name ≠ ""
  storable_asStr : ∀ text url, lib.parse text = some url → storable (lib.asStr url) = true

section Serialization

variable {lib : UrlLib} {url : Url} {normalized : NormalizedUrl} {policy : RoutingPolicy}
  {input : String}

/-- Leaving out parts leaves out characters of the joined text. -/
theorem intercalate_sublist {sep : List Char} {parts parts' : List (List Char)}
    (h : parts.Sublist parts') :
    (sep.intercalate parts).Sublist (sep.intercalate parts') := by
  induction h with
  | slnil => exact List.Sublist.refl _
  | @cons l₁ l₂ a h ih =>
      cases l₂ with
      | nil =>
          rw [List.sublist_nil.mp h]
          exact List.nil_sublist _
      | cons b l₂ =>
          rw [List.intercalate_cons_cons]
          exact ih.trans (List.sublist_append_right _ _)
  | @cons_cons l₁ l₂ a h ih =>
      cases l₂ with
      | nil =>
          rw [List.sublist_nil.mp h]
      | cons b l₂ =>
          cases l₁ with
          | nil =>
              rw [List.intercalate_singleton, List.intercalate_cons_cons, List.append_assoc]
              exact List.sublist_append_left _ _
          | cons c l₁ =>
              rw [List.intercalate_cons_cons, List.intercalate_cons_cons]
              exact (List.Sublist.refl _).append ih

/-- The query without its tracking pairs is the query with characters left out. -/
theorem retained_sublist (lib : UrlLib) (query : List Char) :
    (['&'].intercalate ((query.splitOn '&').filter fun pair => !isTrackingPair lib pair)).Sublist
      query := by
  have hjoin : ['&'].intercalate (query.splitOn '&') = query := List.intercalate_splitOn '&'
  conv_rhs => rw [← hjoin]
  exact intercalate_sublist List.filter_sublist

/-- **A normalized address** is the address with characters left out. -/
theorem serialized_sublist (lib : UrlLib) (url : Url) (host : String) :
    ((removeTrackingQuery lib { url with fragment := none }).serialized host).Sublist
      (url.serialized host) := by
  have hquery : ((removeTrackingQuery lib { url with fragment := none }).query.elim []
      fun query => '?' :: query.toList).Sublist
        (url.query.elim [] fun query => '?' :: query.toList) := by
    unfold removeTrackingQuery
    cases hq : url.query with
    | none => exact List.nil_sublist _
    | some query =>
        dsimp only
        split
        · exact List.nil_sublist _
        · rw [Option.elim_some, Option.elim_some, String.toList_ofList]
          exact (retained_sublist lib query.toList).cons_cons '?'
  obtain ⟨query, heq⟩ := removeTrackingQuery_eq lib { url with fragment := none }
  rw [heq] at hquery ⊢
  unfold Url.serialized
  refine List.Sublist.append ?_ (List.nil_sublist _)
  exact (List.Sublist.refl _).append hquery

/-- What normalization accepts, with the URL it parsed. -/
theorem normalize_parsed (h : normalize lib input policy = .ok normalized) :
    ∃ url, lib.parse input = some url ∧ url.isHttp ∧ url.username = "" ∧ url.password = none ∧
      url.host.isSome = true ∧ input.utf8ByteSize ≤ policy.maxUrlLength ∧
      normalized.original = input ∧
      normalized.normalized = removeTrackingQuery lib { url with fragment := none } := by
  simp only [normalize, Except.bind_eq_ok_iff, Except.require_eq_ok_iff,
    Except.okOr_eq_ok_iff] at h
  obtain ⟨-, hsize, -, -, url, hparse, -, hscheme, -, hhost, -, ⟨huser, hpass⟩, -, -, port, -, -,
    -, -, -, heq⟩ := h
  obtain rfl := Except.ok.inj heq
  exact ⟨url, hparse, hscheme, huser, Option.isNone_iff_eq_none.mp hpass, hhost, hsize, rfl, rfl⟩

/-- Normalization keeps the host. -/
theorem hostStr_removeTrackingQuery (lib : UrlLib) (url : Url) :
    (removeTrackingQuery lib { url with fragment := none }).hostStr lib = url.hostStr lib := by
  obtain ⟨query, heq⟩ := removeTrackingQuery_eq lib { url with fragment := none }
  rw [heq]
  rfl

/-- The text of a host is not empty. -/
theorem hostStr_ne_empty (hlib : lib.Lawful) {text host : String}
    (hparse : lib.parse text = some url) (hhost : url.hostStr lib = some host) : host ≠ "" := by
  obtain ⟨h, hh, rfl⟩ := Option.map_eq_some_iff.mp hhost
  cases h with
  | domain name => exact hlib.domain_ne text url name hparse hh
  | ipv4 address =>
      intro hempty
      have hlength := congrArg String.length hempty
      simp [Ipv4Addr.text, String.length_append] at hlength
  | ipv6 address =>
      intro hempty
      have hlength := congrArg String.length hempty
      simp [String.length_append] at hlength

end Serialization

/-! ### Decoded commands -/

/-- What intake relies on of the typed contracts: correlations and the texts of a blob can be
stored, blob owners have at most 64 characters, and a SHA-256 digest is 64 lowercase digits. -/
structure CommandLib.Typed (commands : CommandLib) : Prop where
  correlation : ∀ payload envelope, commands.fromJson payload = some envelope →
    storable envelope.correlationId = true
  blob : ∀ payload envelope request blob, commands.fromJson payload = some envelope →
    envelope.request = some request → request.blob = some blob →
    lengthBetween 1 64 blob.ownerService = true ∧ blob.texts.all storable = true ∧
      (blob.digest.algorithm = .sha256 → isSha256Hex blob.digest.hex = true)

/-- **What `decode_capture` accepts.** -/
theorem decodeCapture_eq_ok {lib : UrlLib} {commands : CommandLib} {subject : String}
    {payload : List UInt8} {command : CaptureCommand}
    (h : decodeCapture lib commands subject payload = .ok command) :
    ∃ envelope request, commands.fromJson payload = some envelope ∧
      envelope.request = some request ∧ command.producer ∈ allowedProducers ∧
      command.correlationId = envelope.correlationId ∧
      ((∃ address url, lib.parse address = some url ∧ url.isHttp ∧ command.source = .url url) ∨
        ∃ blob, request.blob = some blob ∧ blob.digest.algorithm = .sha256 ∧
          command.source = .blob blob) := by
  simp only [decodeCapture, Except.bind_eq_ok_iff, Except.require_eq_ok_iff,
    Except.okOr_eq_ok_iff] at h
  obtain ⟨-, -, envelope, henvelope, -, -, -, hproducer, tenant, -, request, hrequest, -, -, source,
    hsource, heq⟩ := h
  obtain rfl := Except.ok.inj heq
  refine ⟨envelope, request, henvelope, hrequest, hproducer, rfl, ?_⟩
  unfold captureSource at hsource
  split at hsource
  · next address _ _ =>
      simp only [Except.bind_eq_ok_iff, Except.require_eq_ok_iff, Except.okOr_eq_ok_iff] at hsource
      obtain ⟨url, hparse, -, hscheme, heq⟩ := hsource
      exact Or.inl ⟨address, url, hparse, hscheme, (Except.ok.inj heq).symm⟩
  · next blob _ hblob =>
      simp only [Except.bind_eq_ok_iff, Except.require_eq_ok_iff] at hsource
      obtain ⟨-, halgorithm, heq⟩ := hsource
      exact Or.inr ⟨blob, hblob, halgorithm, (Except.ok.inj heq).symm⟩
  · cases hsource

/-! ### A table of addresses -/

/-- The serialization of a URL, with one text for all IPv6 addresses. -/
def tableText (url : Url) : String :=
  match url.host with
  | some (.domain name) => String.ofList (url.serialized name)
  | some (.ipv4 address) => String.ofList (url.serialized address.text)
  | some (.ipv6 _) => String.ofList (url.serialized "[::1]")
  | none => ""

theorem tableText_domain {url : Url} {name : String} (h : url.host = some (.domain name)) :
    tableText url = String.ofList (url.serialized name) := by
  rw [tableText, h]

/-- The URL functions on a table of addresses. -/
def tableLib (urls : List Url) : UrlLib where
  parse text := urls.find? fun url => tableText url == text
  join _ text := urls.find? fun url => tableText url == text
  asStr := tableText
  ipv6Text _ := "::1"
  formKey text := some text
  sha256Hex text := text
  indexFits text := decide (text.utf8ByteSize ≤ 2600)

/-- The texts of the table are serializations. -/
theorem tableText_toList (urls : List Url) {url : Url} {host : String}
    (hhost : url.hostStr (tableLib urls) = some host) :
    (tableText url).toList = url.serialized host := by
  obtain ⟨h, hh, rfl⟩ := Option.map_eq_some_iff.mp hhost
  rw [tableText, hh]
  cases h with
  | domain name => exact String.toList_ofList
  | ipv4 address => exact String.toList_ofList
  | ipv6 address => exact String.toList_ofList

theorem tableLib_lawful {urls : List Url} (hurls : ∀ url ∈ urls, storable (tableText url) = true ∧
    ∀ name, url.host = some (.domain name) → name ≠ "") : (tableLib urls).Lawful where
  serialized _ _ _ _ _ hhost := tableText_toList urls hhost
  parse_asStr text url hparse := by
    have htext := List.find?_some hparse
    rw [← hparse]
    exact congrArg (tableLib urls).parse (beq_iff_eq.mp htext)
  domain_ne text url name hparse := (hurls url (List.mem_of_find?_eq_some hparse)).2 name
  storable_asStr text url hparse := (hurls url (List.mem_of_find?_eq_some hparse)).1

end Extractor
