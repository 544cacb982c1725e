import Extractor.SafeFetch
import Extractor.StoreCall

/-!
# The body of a response

`SafeFetcher::store_response` of `crates/safe-fetch/src/lib.rs`: the body is polled from the network
in chunks, counted on the wire, decoded, counted again and streamed into the blob store. A limit is
signalled by a flag beside the stream, since the error itself travels through the decoder and the
store without its cause.

The decoder is outside of the model. One read of it is what it polls from the network and what it
answers, of which any is possible; where a poll fails, the decoder passes the failure on.

## Main definitions

* `Read`, `BodyState`, `readDecoded`: one read, and what it leaves in the counters and flags.
* `restStep`, `storeResponse`: the stream that is handed to the store, and the whole call.
-/

namespace Extractor

open Files Program

/-! ### Reading -/

/-- A chunk of the network; its length is a `usize`. -/
abbrev Chunk := { bytes : List UInt8 // bytes.length < 2 ^ 64 }

/-- `ReadFailure`. -/
inductive ReadFailure
  | idle
  | malformed
  deriving DecidableEq

/-- One read of the decoder: what it polls from the network, where a poll may fail, and what it
answers when no poll fails, cut at the size of the buffer. -/
structure Read where
  polled : List (Except Unit Chunk)
  decoded : Except ReadFailure (List UInt8)

/-- What is kept beside the stream: the counters and the flags of the source, and what they are
about. -/
structure BodyState where
  /-- An `AtomicU64`. -/
  wireBytes : ℕ
  wireLimitHit : Bool
  decodedLimitHit : Bool
  malformedEncoding : Bool
  idleTimeoutHit : Bool
  /-- The decoded bytes that were counted. -/
  decoded : ℕ
  /-- How many bytes the network has yielded. -/
  received : ℕ
  /-- The network failed. -/
  streamFailed : Bool
  /-- The bytes of all reads. -/
  yielded : List UInt8
  deriving DecidableEq

/-- Before the first read. -/
def BodyState.start : BodyState where
  wireBytes := 0
  wireLimitHit := false
  decodedLimitHit := false
  malformedEncoding := false
  idleTimeoutHit := false
  decoded := 0
  received := 0
  streamFailed := false
  yielded := []

/-- The closure over `bytes_stream`: the state after one item, and whether it is passed on. -/
def pollWire (maxWireBytes : ℕ) (s : BodyState) : Except Unit Chunk → BodyState × Bool
  | .ok chunk =>
      let total := s.wireBytes + chunk.1.length
      let s := { s with wireBytes := total % 2 ^ 64, received := s.received + chunk.1.length }
      if 2 ^ 64 ≤ total ∨ maxWireBytes < total then ({ s with wireLimitHit := true }, false)
      else (s, true)
  | .error () => ({ s with streamFailed := true }, false)

/-- The polls of one read, up to the first that fails. -/
def pollWires (maxWireBytes : ℕ) : BodyState → List (Except Unit Chunk) → BodyState × Bool
  | s, [] => (s, true)
  | s, item :: items =>
      match pollWire maxWireBytes s item with
      | (s, true) => pollWires maxWireBytes s items
      | (s, false) => (s, false)

/-- `read_decoded` into a buffer: a poll that fails and a decoder that rejects its input are not
told apart. -/
def readDecoded (maxWireBytes capacity : ℕ) (s : BodyState) (read : Read) :
    BodyState × Except ReadFailure (List UInt8) :=
  match pollWires maxWireBytes s read.polled with
  | (s, true) =>
      match read.decoded with
      | .ok bytes =>
          let bytes := bytes.take capacity
          ({ s with yielded := s.yielded ++ bytes }, .ok bytes)
      | .error kind => (s, .error kind)
  | (s, false) => (s, .error .malformed)

/-! ### Media types -/

/-- `split(';').next()`. -/
def beforeSemicolon (value : String) : String :=
  String.ofList (value.toList.takeWhile (· != ';'))

/-- `declared_media_type`. -/
def declaredMediaType (header : String → Option String) : String :=
  match ((header "content-type").map fun value => trimHeader (beforeSemicolon value)).filter
      (· != "") with
  | some value => String.ofList (Text.asciiLower value.toList)
  | none => "application/octet-stream"

/-- The white space of `u8::is_ascii_whitespace`. -/
def isAsciiWhitespace (byte : UInt8) : Bool :=
  [0x20, 0x09, 0x0a, 0x0c, 0x0d].contains byte

/-- The bytes of an ASCII text. -/
def asciiBytes (text : String) : List UInt8 := text.toList.map Char.toUInt8

/-- `effective_media_type`. -/
def effectiveMediaType (declared : String) (bytes : List UInt8) : String :=
  let trimmed := bytes.dropWhile isAsciiWhitespace
  if (asciiBytes "%PDF-").isPrefixOf bytes then "application/pdf"
  else if (asciiBytes "<!DOCTYPE html").isPrefixOf trimmed ∨
      (asciiBytes "<!doctype html").isPrefixOf trimmed ∨ (asciiBytes "<html").isPrefixOf trimmed then
    "text/html"
  else declared

/-- `content_encoding`, for the encodings that are supported. -/
def contentEncodingIsSupported (header : String → Option String) : Bool :=
  match (header "content-encoding").map fun value =>
      String.ofList (Text.asciiLower (trimHeader value).toList) with
  | none => true
  | some value => ["", "identity", "gzip", "br", "zstd"].contains value

/-! ### The call -/

/-- What the stream handed to the store is made of: the bytes of the first read, then reads. -/
inductive Piece
  | first (bytes : List UInt8)
  | read (read : Read)

/-- The stream handed to the store. -/
def restStep (config : FetchConfig) (s : BodyState) :
    Piece → BodyState × Option (Except Unit (List UInt8))
  | .first bytes => (s, some (.ok bytes))
  | .read read =>
      match readDecoded config.maxWireBytes 8192 s read with
      | (s, .ok []) => (s, none)
      | (s, .ok (byte :: bytes)) =>
          let next := s.decoded + (byte :: bytes).length
          if 2 ^ 64 ≤ next ∨ config.maxDecodedBytes < next then
            ({ s with decodedLimitHit := true }, some (.error ()))
          else ({ s with decoded := next }, some (.ok (byte :: bytes)))
      | (s, .error .idle) => ({ s with idleTimeoutHit := true }, some (.error ()))
      | (s, .error .malformed) => ({ s with malformedEncoding := true }, some (.error ()))

/-- The bytes that the first read has room for. -/
def FetchConfig.prefixCapacity (config : FetchConfig) : ℕ := min config.maxDecodedBytes 511 + 1

/-- The error of a read that fails before the store is called. -/
def ReadFailure.error : ReadFailure → SafeFetchError
  | .idle => .timeoutReadIdle
  | .malformed => .malformedEncoding

/-- The error of a call of the store that fails, as the flags say. -/
def BodyState.storeError (s : BodyState) : SafeFetchError :=
  if s.wireLimitHit then .wireBodyTooLarge
  else if s.decodedLimitHit then .decodedBodyTooLarge
  else if s.malformedEncoding then .malformedEncoding
  else if s.idleTimeoutHit then .timeoutReadIdle
  else .artifact

/-- A body that is stored: what it is stored as, and the wire bytes that were counted. -/
structure StoredBody where
  artifact : BlobRef
  mediaType : String
  wireBytes : ℕ

/-- The declared length is over the limit. -/
def declaredTooLarge (config : FetchConfig) (header : String → Option String) : Bool :=
  match (header "content-length").bind fun value => Text.parseUnsigned (2 ^ 64) value.toList with
  | some length => decide (config.maxWireBytes < length)
  | none => false

/-- `store_response` from the headers on, up to the stored body, with the first read of the decoder
and those that would follow. -/
def storeBody (lib : BlobLib) (owner : String) (config : FetchConfig)
    (header : String → Option String) (first : Read) (rest : List Read) :
    ExceptT (SafeFetchError × BodyState) (Program StoreOp) (StoredBody × BodyState) := do
  require (declaredTooLarge config header = false) (SafeFetchError.declaredBodyTooLarge, BodyState.start)
  require (contentEncodingIsSupported header) (SafeFetchError.unsupportedEncoding, BodyState.start)
  let (s, firstRead) := readDecoded config.maxWireBytes config.prefixCapacity .start first
  require (s.wireLimitHit = false) (SafeFetchError.wireBodyTooLarge, s)
  let bytes ← Program.ofExcept (firstRead.mapError fun kind => (kind.error, s))
  require (bytes.length ≤ config.maxDecodedBytes) (SafeFetchError.decodedBodyTooLarge, s)
  let mediaType := effectiveMediaType (declaredMediaType header) bytes
  let (artifact, s) ← ExceptT.adapt (fun e : BlobStoreError × BodyState => (e.2.storeError, e.2))
    (store lib owner mediaType (restStep config) (.first bytes :: rest.map .read)
      { s with decoded := bytes.length })
  return (⟨artifact, mediaType, s.wireBytes⟩, s)

/-- The result of `store_response`. -/
def freshResult (response : Response) (context : ResponseContext) (totalDuration : ℕ)
    (body : StoredBody) : FetchResult where
  artifact := body.artifact
  finalUrl := response.url
  status := response.status
  wireBytes := body.wireBytes
  decodedBytes := body.artifact.lengthBytes
  mediaType := body.mediaType
  metadata := {
    originalUrl := context.originalUrl
    normalizedUrl := context.normalizedUrl
    redirects := context.redirects
    declaredMediaType := response.header "content-type"
    effectiveMediaType := body.mediaType
    contentEncoding := response.header "content-encoding"
    etag := response.header "etag"
    lastModified := response.header "last-modified"
    cacheControl := response.header "cache-control"
    attempts := context.attempts
    totalDuration := totalDuration
    cacheOutcome := .fresh }

/-- The bytes that a poll yields. -/
def chunkLength : Except Unit Chunk → ℕ
  | .ok chunk => chunk.1.length
  | .error () => 0

/-- The bytes that the polls of a read yield. -/
def Read.wireLength (read : Read) : ℕ := (read.polled.map chunkLength).sum

/-- The bytes that the network yields for a piece. -/
def Piece.wireLength : Piece → ℕ
  | .first _ => 0
  | .read r => r.wireLength

/-- `store_response`, with the state that the stream is left in. -/
def storeResponse (lib : BlobLib) (owner : String) (config : FetchConfig) (response : Response)
    (context : ResponseContext) (first : Read) (rest : List Read) (totalDuration : ℕ) :
    ExceptT (SafeFetchError × BodyState) (Program StoreOp) (FetchResult × BodyState) := do
  let (body, s) ← storeBody lib owner config response.header first rest
  return (freshResult response context totalDuration body, s)

/-! ### What one read does -/

/-- The network has not failed, and its bytes are within the limit and exactly counted. -/
structure BodyState.Intact (config : FetchConfig) (s : BodyState) : Prop where
  counted : s.wireBytes = s.received
  within : s.received ≤ config.maxWireBytes
  exact : s.received < 2 ^ 64
  limit : s.wireLimitHit = false
  stream : s.streamFailed = false

/-- The counter is what an `AtomicU64` holds of the bytes. -/
theorem BodyState.Intact.wrapped {config : FetchConfig} {s : BodyState} (h : s.Intact config) :
    s.wireBytes = s.received % 2 ^ 64 :=
  h.counted.trans (Nat.mod_eq_of_lt h.exact).symm

/-- A poll has failed: over the limit, or in the network. -/
structure BodyState.Broken (config : FetchConfig) (s : BodyState) : Prop where
  limit : s.wireLimitHit = true → config.maxWireBytes < s.received ∨ 2 ^ 64 ≤ s.received
  within : s.wireLimitHit = false → s.received ≤ config.maxWireBytes ∧ s.received < 2 ^ 64 ∧
    s.wireBytes = s.received
  stream : s.streamFailed = !s.wireLimitHit
  counted : s.wireBytes = s.received % 2 ^ 64

/-- Polling changes what is known of the network alone. -/
structure BodyState.SameRest (s t : BodyState) : Prop where
  decodedLimitHit : t.decodedLimitHit = s.decodedLimitHit
  malformedEncoding : t.malformedEncoding = s.malformedEncoding
  idleTimeoutHit : t.idleTimeoutHit = s.idleTimeoutHit
  decoded : t.decoded = s.decoded

/-- What polling leaves, and whether it goes on: the network is intact, or a poll has failed. -/
structure BodyState.Polled (config : FetchConfig) (s t : BodyState) (goesOn : Bool) : Prop where
  rest : s.SameRest t
  yielded : t.yielded = s.yielded
  ends : goesOn = true ∧ t.Intact config ∨ goesOn = false ∧ t.Broken config

section Reads

variable {config : FetchConfig} {s t : BodyState} {capacity : ℕ}

theorem BodyState.SameRest.trans {u : BodyState} (h : s.SameRest t) (h' : t.SameRest u) :
    s.SameRest u where
  decodedLimitHit := h'.decodedLimitHit.trans h.decodedLimitHit
  malformedEncoding := h'.malformedEncoding.trans h.malformedEncoding
  idleTimeoutHit := h'.idleTimeoutHit.trans h.idleTimeoutHit
  decoded := h'.decoded.trans h.decoded

/-- One item: it is passed on while the bytes are within the limit. -/
theorem pollWire_spec (hs : s.Intact config) (item : Except Unit Chunk) :
    s.Polled config (pollWire config.maxWireBytes s item).1 (pollWire config.maxWireBytes s item).2 := by
  cases item with
  | error u =>
      refine ⟨⟨rfl, rfl, rfl, rfl⟩, rfl, .inr ⟨rfl, ?_⟩⟩
      refine ⟨fun h => ?_, fun _ => ⟨hs.within, hs.exact, hs.counted⟩, ?_, ?_⟩
      · exact absurd (hs.limit.symm.trans h) Bool.false_ne_true
      · simp [pollWire, hs.limit]
      · exact hs.wrapped
  | ok chunk =>
      unfold pollWire
      have hcounted := hs.counted
      dsimp only
      split
      · next hover =>
          refine ⟨⟨rfl, rfl, rfl, rfl⟩, rfl, .inr ⟨rfl, ⟨fun _ => ?_, (fun h => nomatch h),
            hs.stream, congrArg (fun n => (n + chunk.1.length) % 2 ^ 64) hcounted⟩⟩⟩
          change config.maxWireBytes < s.received + chunk.1.length ∨
            2 ^ 64 ≤ s.received + chunk.1.length
          rw [hcounted] at hover
          exact hover.symm
      · next hunder =>
          rw [hcounted] at hunder
          obtain ⟨hsmall, hwithin⟩ := not_or.mp hunder
          refine ⟨⟨rfl, rfl, rfl, rfl⟩, rfl, .inl ⟨rfl, ⟨?_, ?_, ?_, hs.limit, hs.stream⟩⟩⟩
          · change (s.wireBytes + chunk.1.length) % 2 ^ 64 = s.received + chunk.1.length
            rw [hcounted, Nat.mod_eq_of_lt (Nat.lt_of_not_le hsmall)]
          · exact Nat.le_of_not_lt hwithin
          · exact Nat.lt_of_not_le hsmall

/-- The polls of one read. -/
theorem pollWires_spec (hs : s.Intact config) (items : List (Except Unit Chunk)) :
    s.Polled config (pollWires config.maxWireBytes s items).1 (pollWires config.maxWireBytes s items).2 := by
  induction items generalizing s with
  | nil => exact ⟨⟨rfl, rfl, rfl, rfl⟩, rfl, .inl ⟨rfl, hs⟩⟩
  | cons item items ih =>
      have hitem := pollWire_spec hs item
      rw [pollWires]
      split
      · next t heq =>
          rw [heq] at hitem
          obtain ⟨hrest, hyielded, ⟨-, ht⟩ | ⟨hfalse, -⟩⟩ := hitem
          · obtain ⟨hrest', hyielded', hends⟩ := ih ht
            exact ⟨hrest.trans hrest', hyielded'.trans hyielded, hends⟩
          · cases hfalse
      · next t heq =>
          rw [heq] at hitem
          obtain ⟨hrest, hyielded, ⟨htrue, -⟩ | ⟨-, ht⟩⟩ := hitem
          · cases htrue
          · exact ⟨hrest, hyielded, .inr ⟨rfl, ht⟩⟩

/-- **One read**: it yields bytes, or it fails, for a reason of its own or because a poll did. -/
theorem readDecoded_spec (hs : s.Intact config) (read : Read) {r : Except ReadFailure (List UInt8)}
    (hread : readDecoded config.maxWireBytes capacity s read = (t, r)) :
    s.SameRest t ∧
      ((∃ bytes, r = .ok (bytes.take capacity) ∧ read.decoded = .ok bytes ∧ t.Intact config ∧
          t.yielded = s.yielded ++ bytes.take capacity) ∨
        ∃ kind, r = .error kind ∧ t.yielded = s.yielded ∧
          (t.Intact config ∧ read.decoded = .error kind ∨ kind = .malformed ∧ t.Broken config)) := by
  have hpolls := pollWires_spec hs read.polled
  unfold readDecoded at hread
  split at hread
  · next u heq =>
      rw [heq] at hpolls
      obtain ⟨hrest, hyielded, ⟨-, hu⟩ | ⟨hfalse, -⟩⟩ := hpolls
      · split at hread
        · next bytes hdecoded =>
            obtain ⟨rfl, rfl⟩ := Prod.mk.inj hread
            refine ⟨⟨hrest.1, hrest.2, hrest.3, hrest.4⟩, .inl ⟨bytes, rfl, hdecoded, ?_, ?_⟩⟩
            · exact ⟨hu.counted, hu.within, hu.exact, hu.limit, hu.stream⟩
            · exact congrArg (· ++ bytes.take capacity) hyielded
        · next kind hdecoded =>
            obtain ⟨rfl, rfl⟩ := Prod.mk.inj hread
            exact ⟨hrest, .inr ⟨kind, rfl, hyielded, .inl ⟨hu, hdecoded⟩⟩⟩
      · cases hfalse
  · next u heq =>
      rw [heq] at hpolls
      obtain ⟨hrest, hyielded, ⟨htrue, -⟩ | ⟨-, hu⟩⟩ := hpolls
      · cases htrue
      · obtain ⟨rfl, rfl⟩ := Prod.mk.inj hread
        exact ⟨hrest, .inr ⟨.malformed, rfl, hyielded, .inr ⟨rfl, hu⟩⟩⟩

/-- The polls of a read count no more than they yield. -/
theorem pollWires_received (maxWireBytes : ℕ) (s : BodyState) (items : List (Except Unit Chunk)) :
    (pollWires maxWireBytes s items).1.received ≤ s.received + (items.map chunkLength).sum := by
  induction items generalizing s with
  | nil => exact Nat.le_refl _
  | cons item items ih =>
      have hitem : (pollWire maxWireBytes s item).1.received = s.received + chunkLength item := by
        cases item with
        | error u => rfl
        | ok chunk =>
            unfold pollWire
            dsimp only
            split <;> rfl
      rw [pollWires, List.map_cons, List.sum_cons]
      split
      · next t heq =>
          rw [heq] at hitem
          have hrest := ih t
          dsimp only at hitem
          omega
      · next t heq =>
          rw [heq] at hitem
          dsimp only at hitem ⊢
          omega

theorem readDecoded_received (maxWireBytes capacity : ℕ) (s : BodyState) (read : Read) :
    (readDecoded maxWireBytes capacity s read).1.received ≤ s.received + read.wireLength := by
  have hpolls := pollWires_received maxWireBytes s read.polled
  unfold readDecoded
  split
  · next t heq =>
      rw [heq] at hpolls
      split <;> exact hpolls
  · next t heq =>
      rw [heq] at hpolls
      exact hpolls

/-- A piece counts no more than the network yields for it. -/
theorem restStep_received (config : FetchConfig) (s : BodyState) (piece : Piece) :
    (restStep config s piece).1.received ≤ s.received + piece.wireLength := by
  cases piece with
  | first bytes => exact Nat.le_refl _
  | read read =>
      have hread := readDecoded_received config.maxWireBytes 8192 s read
      unfold restStep
      dsimp only
      split
      · next t heq =>
          rw [heq] at hread
          exact hread
      · next t byte bytes heq =>
          rw [heq] at hread
          split <;> exact hread
      · next t heq =>
          rw [heq] at hread
          exact hread
      · next t heq =>
          rw [heq] at hread
          exact hread

/-! ### What the stream to the store does -/

/-- Why the body could not be read to its end. -/
inductive BodyFailure
  | wireLimit
  | decodedLimit
  /-- The network failed. -/
  | stream
  /-- The decoder rejected what it was given. -/
  | malformed
  | idle
  deriving DecidableEq

/-- The error that a failure is reported as. -/
def BodyFailure.error : BodyFailure → SafeFetchError
  | .wireLimit => .wireBodyTooLarge
  | .decodedLimit => .decodedBodyTooLarge
  | .stream => .malformedEncoding
  | .malformed => .malformedEncoding
  | .idle => .timeoutReadIdle

/-- No failure, and everything within its limit. -/
structure BodyState.Clean (config : FetchConfig) (s : BodyState) : Prop where
  intact : s.Intact config
  decodedLimitHit : s.decodedLimitHit = false
  malformedEncoding : s.malformedEncoding = false
  idleTimeoutHit : s.idleTimeoutHit = false
  decoded : s.decoded = s.yielded.length
  yielded : s.yielded.length ≤ config.maxDecodedBytes

/-- **What a failure means** for the bytes: the limit it names was exceeded, no other one was, and
the network failed only where it names the network. -/
structure BodyState.FailedBy (config : FetchConfig) (reads : List Read) (t : BodyState)
    (failure : BodyFailure) : Prop where
  stream : t.streamFailed = true ↔ failure = .stream
  wireLimit : failure = .wireLimit → config.maxWireBytes < t.received ∨ 2 ^ 64 ≤ t.received
  received : failure ≠ .wireLimit →
    t.received ≤ config.maxWireBytes ∧ t.received < 2 ^ 64 ∧ t.wireBytes = t.received
  decodedLimit : failure = .decodedLimit →
    config.maxDecodedBytes < t.yielded.length ∨ 2 ^ 64 ≤ t.yielded.length
  yielded : failure ≠ .decodedLimit → t.yielded.length ≤ config.maxDecodedBytes
  malformed : failure = .malformed → ∃ read ∈ reads, read.decoded = .error .malformed
  decoded : t.decoded ≤ config.maxDecodedBytes
  counted : t.wireBytes = t.received % 2 ^ 64

/-- A read that fails before anything is over the limit of decoded bytes. -/
theorem BodyState.FailedBy.of_read {reads : List Read} {read : Read} {kind : ReadFailure}
    (hmem : read ∈ reads) (hyielded : t.yielded.length ≤ config.maxDecodedBytes)
    (hcounted : t.decoded ≤ config.maxDecodedBytes)
    (hend : t.Intact config ∧ read.decoded = .error kind ∨ kind = .malformed ∧ t.Broken config) :
    ∃ failure, t.FailedBy config reads failure ∧ (t.wireLimitHit = true ↔ failure = .wireLimit) ∧
      failure ≠ .decodedLimit ∧ (t.wireLimitHit = false → failure.error = kind.error) := by
  rcases hend with ⟨ht, hdecoded⟩ | ⟨rfl, ht⟩
  · have hreceived : t.received ≤ config.maxWireBytes ∧ t.received < 2 ^ 64 ∧
        t.wireBytes = t.received := ⟨ht.within, ht.exact, ht.counted⟩
    cases kind with
    | idle =>
        refine ⟨.idle, ⟨?_, nofun, fun _ => hreceived, nofun, fun _ => hyielded, nofun, hcounted,
          ht.wrapped⟩, ?_, ?_, ?_⟩
        · simp [ht.stream]
        · simp [ht.limit]
        · exact nofun
        · exact fun _ => rfl
    | malformed =>
        refine ⟨.malformed, ⟨?_, nofun, fun _ => hreceived, nofun, fun _ => hyielded,
          fun _ => ⟨read, hmem, hdecoded⟩, hcounted, ht.wrapped⟩, ?_, ?_, ?_⟩
        · simp [ht.stream]
        · simp [ht.limit]
        · exact nofun
        · exact fun _ => rfl
  · cases hlimit : t.wireLimitHit with
    | true =>
        refine ⟨.wireLimit, ⟨?_, fun _ => ht.limit hlimit, fun hne => absurd rfl hne, nofun,
          fun _ => hyielded, nofun, hcounted, ht.counted⟩, by simp, nofun, nofun⟩
        simp [ht.stream, hlimit]
    | false =>
        refine ⟨.stream, ⟨?_, nofun, fun _ => ht.within hlimit, nofun, fun _ => hyielded, nofun,
          hcounted, ht.counted⟩, by simp, nofun, fun _ => rfl⟩
        simp [ht.stream, hlimit]

/-- The flag that a read sets which fails under the store. -/
def BodyState.flagged (s : BodyState) : ReadFailure → BodyState
  | .idle => { s with idleTimeoutHit := true }
  | .malformed => { s with malformedEncoding := true }

/-- The flag says nothing about the bytes. -/
theorem BodyState.FailedBy.flagged {reads : List Read} {failure : BodyFailure}
    (h : t.FailedBy config reads failure) (kind : ReadFailure) :
    (t.flagged kind).FailedBy config reads failure := by
  cases kind <;>
  · exact ⟨h.stream, h.wireLimit, h.received, h.decodedLimit, h.yielded, h.malformed, h.decoded,
      h.counted⟩

/-- The flag of a failed read is reported, unless the wire limit was hit. -/
theorem BodyState.flagged_storeError {failure : BodyFailure} {kind : ReadFailure}
    (hlimit : t.wireLimitHit = true ↔ failure = .wireLimit)
    (herror : t.wireLimitHit = false → failure.error = kind.error)
    (hdecodedLimit : t.decodedLimitHit = false) (hmalformed : t.malformedEncoding = false) :
    (t.flagged kind).storeError = failure.error := by
  cases hhit : t.wireLimitHit with
  | true =>
      rw [hlimit.mp hhit]
      cases kind <;> simp [flagged, BodyState.storeError, BodyFailure.error, hhit]
  | false =>
      rw [herror hhit]
      cases kind <;>
        simp [flagged, BodyState.storeError, ReadFailure.error, hhit, hdecodedLimit, hmalformed]

/-- Polling without bytes leaves everything clean. -/
theorem BodyState.SameRest.clean (h : s.SameRest t) (hs : s.Clean config) (ht : t.Intact config)
    (hyielded : t.yielded = s.yielded) : t.Clean config where
  intact := ht
  decodedLimitHit := h.decodedLimitHit.trans hs.decodedLimitHit
  malformedEncoding := h.malformedEncoding.trans hs.malformedEncoding
  idleTimeoutHit := h.idleTimeoutHit.trans hs.idleTimeoutHit
  decoded := by rw [h.decoded, hs.decoded, hyielded]
  yielded := hyielded ▸ hs.yielded

/-- **One step of the stream**: it hands on the bytes of the read, or nothing at the end, or it
fails and the flags tell why. -/
theorem restStep_read_spec (hs : s.Clean config) {reads : List Read} {read : Read}
    (hmem : read ∈ reads) {item : Option (Except Unit (List UInt8))}
    (hstep : restStep config s (.read read) = (t, item)) :
    (item = none ∧ t.Clean config ∧ t.yielded = s.yielded) ∨
      (∃ bytes, item = some (.ok bytes) ∧ t.Clean config ∧ t.yielded = s.yielded ++ bytes) ∨
      ∃ failure, item = some (.error ()) ∧ t.FailedBy config reads failure ∧
        t.storeError = failure.error := by
  rw [restStep] at hstep
  cases hread : readDecoded config.maxWireBytes 8192 s read with
  | mk u r =>
      rw [hread] at hstep
      obtain ⟨hrest, hends⟩ := readDecoded_spec hs.intact read hread
      have hdecoded : u.decoded = s.yielded.length := hrest.decoded.trans hs.decoded
      have hdecodedLimit := hrest.decodedLimitHit.trans hs.decodedLimitHit
      have hmalformed := hrest.malformedEncoding.trans hs.malformedEncoding
      rcases hends with ⟨bytes, rfl, -, hu, hyielded⟩ | ⟨kind, rfl, hyielded, hend⟩
      · generalize bytes.take 8192 = bytes at hstep hyielded
        cases bytes with
        | nil =>
            obtain ⟨rfl, rfl⟩ := Prod.mk.inj hstep
            rw [List.append_nil] at hyielded
            exact .inl ⟨rfl, hrest.clean hs hu hyielded, hyielded⟩
        | cons byte bytes =>
            have hlength : u.yielded.length = u.decoded + (byte :: bytes).length := by
              rw [hyielded, List.length_append, hdecoded]
            dsimp only at hstep
            split at hstep
            · next hover =>
                obtain ⟨rfl, rfl⟩ := Prod.mk.inj hstep
                refine .inr (.inr ⟨.decodedLimit, rfl, ?_, ?_⟩)
                · refine ⟨by simp [hu.stream], nofun, fun _ => ⟨hu.within, hu.exact, hu.counted⟩,
                    fun _ => ?_, fun hne => absurd rfl hne, nofun, hdecoded ▸ hs.yielded,
                    hu.wrapped⟩
                  change config.maxDecodedBytes < u.yielded.length ∨ 2 ^ 64 ≤ u.yielded.length
                  rw [hlength]
                  exact hover.symm
                · simp [BodyState.storeError, hu.limit, BodyFailure.error]
            · next hunder =>
                obtain ⟨rfl, rfl⟩ := Prod.mk.inj hstep
                refine .inr (.inl ⟨_, rfl, ⟨?_, hdecodedLimit, hmalformed, ?_, hlength.symm, ?_⟩,
                  hyielded⟩)
                · exact ⟨hu.counted, hu.within, hu.exact, hu.limit, hu.stream⟩
                · exact hrest.idleTimeoutHit.trans hs.idleTimeoutHit
                · change u.yielded.length ≤ config.maxDecodedBytes
                  rw [hlength]
                  exact Nat.le_of_not_lt (not_or.mp hunder).2
      · have hwithin : u.yielded.length ≤ config.maxDecodedBytes := hyielded ▸ hs.yielded
        obtain ⟨failure, hfailed, hlimit, -, herror⟩ :=
          BodyState.FailedBy.of_read hmem hwithin (hdecoded ▸ hs.yielded) hend
        have hflagged : t = u.flagged kind ∧ item = some (.error ()) := by
          cases kind <;>
          · obtain ⟨rfl, rfl⟩ := Prod.mk.inj hstep
            exact ⟨rfl, rfl⟩
        obtain ⟨rfl, rfl⟩ := hflagged
        exact .inr (.inr ⟨failure, rfl, hfailed.flagged kind,
          BodyState.flagged_storeError hlimit herror hdecodedLimit hmalformed⟩)

/-- Nothing is reported while nothing has failed. -/
theorem BodyState.Clean.storeError (ht : t.Clean config) : t.storeError = .artifact := by
  simp [BodyState.storeError, ht.intact.limit, ht.decodedLimitHit, ht.malformedEncoding,
    ht.idleTimeoutHit]

/-- Reads that each hand on a chunk. -/
theorem Pulls.clean {reads all : List Read} {pieces pieces' : List Piece} {bytes : List UInt8}
    (hpulls : Pulls (restStep config) s pieces bytes t pieces') (hs : s.Clean config)
    (hpieces : pieces = reads.map .read) (hall : ∀ read ∈ reads, read ∈ all) :
    t.Clean config ∧ t.yielded = s.yielded ++ bytes ∧
      ∃ reads' : List Read, pieces' = reads'.map .read ∧ ∀ read ∈ reads', read ∈ all := by
  induction hpulls generalizing reads with
  | refl s pieces => exact ⟨hs, (List.append_nil _).symm, reads, hpieces, hall⟩
  | @pull s t u piece rest rest' chunk bytes hstep _ ih =>
      cases reads with
      | nil => cases hpieces
      | cons read reads =>
          obtain ⟨rfl, hrest⟩ := List.cons.inj hpieces
          have hspec := restStep_read_spec hs (hall read List.mem_cons_self) hstep
          obtain ⟨hnone, -⟩ | ⟨chunk', hchunk, ht, hyielded⟩ | ⟨failure, herror, -⟩ := hspec
          · cases hnone
          · obtain rfl := Except.ok.inj (Option.some.inj hchunk)
            obtain ⟨hu, hyielded', hreads⟩ :=
              ih ht hrest fun read hread => hall read (List.mem_cons_of_mem _ hread)
            exact ⟨hu, by rw [hyielded', hyielded, List.append_assoc], hreads⟩
          · cases herror

/-- The bytes of the first read come first. -/
theorem Pulls.cases_first {first bytes : List UInt8} {pieces pieces' : List Piece}
    (hpulls : Pulls (restStep config) s (.first first :: pieces) bytes t pieces') :
    (bytes = [] ∧ t = s ∧ pieces' = .first first :: pieces) ∨
      ∃ bytes', bytes = first ++ bytes' ∧ Pulls (restStep config) s pieces bytes' t pieces' := by
  cases hpulls with
  | refl => exact .inl ⟨rfl, rfl, rfl⟩
  | pull hstep hrest =>
      obtain ⟨rfl, hchunk⟩ := Prod.mk.inj hstep
      obtain rfl := Except.ok.inj (Option.some.inj hchunk)
      exact .inr ⟨_, rfl, hrest⟩

section Body

variable {reads : List Read} {bytes : List UInt8}

/-- A stream of reads that ends leaves everything clean. -/
theorem EndsIn.clean (hs : s.Clean config)
    (hend : EndsIn (restStep config) s (reads.map .read) t) :
    t.Clean config ∧ t.yielded = s.yielded := by
  rcases hend with ⟨-, rfl⟩ | ⟨raw, rest, hreads, hstep⟩
  · exact ⟨hs, rfl⟩
  · cases reads with
    | nil => cases hreads
    | cons read reads =>
        obtain ⟨rfl, -⟩ := List.cons.inj hreads
        have hspec := restStep_read_spec hs (List.mem_cons_self (l := reads)) hstep
        obtain ⟨-, ht⟩ | ⟨_, hchunk, -⟩ | ⟨_, herror, -⟩ := hspec
        · exact ht
        · cases hchunk
        · cases herror

/-- **A body that the store has consumed** is what the reads have yielded. -/
theorem Consumed.clean (hs : s.Clean config)
    (hconsumed : Consumed (restStep config) s (.first s.yielded :: reads.map .read)
      (.ok (bytes, t))) : t.Clean config ∧ t.yielded = bytes := by
  obtain ⟨u, pieces, hpulls, hend⟩ := hconsumed
  rcases hpulls.cases_first with ⟨-, rfl, rfl⟩ | ⟨bytes', rfl, hrest⟩
  · rcases hend with ⟨hnil, -⟩ | ⟨raw, rest, hpieces, hstep⟩
    · cases hnil
    · obtain ⟨rfl, -⟩ := List.cons.inj hpieces
      cases (Prod.mk.inj hstep).2
  · obtain ⟨hu, hyielded, reads', rfl, -⟩ := hrest.clean hs rfl fun _ hread => hread
    obtain ⟨ht, hyielded'⟩ := hend.clean hu
    exact ⟨ht, hyielded'.trans hyielded⟩

/-- **A store that fails** was told so by the stream, which failed, or the stream is clean. -/
theorem BrokenOff.cause {all : List Read} {error : BlobStoreError} (hs : s.Clean config)
    (hall : ∀ read ∈ reads, read ∈ all)
    (hbroken : BrokenOff (restStep config) s (.first s.yielded :: reads.map .read) error t) :
    (error = .stream ∧ ∃ failure, t.FailedBy config all failure ∧ t.storeError = failure.error) ∨
      error ≠ .stream ∧ t.Clean config := by
  obtain ⟨bytes, u, pieces, hpulls, hend⟩ := hbroken
  rcases hpulls.cases_first with ⟨-, rfl, rfl⟩ | ⟨bytes', rfl, hrest⟩
  · rcases hend with ⟨-, raw, rest, hpieces, hstep⟩ | ⟨hne, rfl | ⟨hnil, -⟩ | ⟨raw, rest, hpieces, hstep⟩⟩
    · obtain ⟨rfl, -⟩ := List.cons.inj hpieces
      cases (Prod.mk.inj hstep).2
    · exact .inr ⟨hne, hs⟩
    · cases hnil
    · obtain ⟨rfl, -⟩ := List.cons.inj hpieces
      cases (Prod.mk.inj hstep).2
  · obtain ⟨hu, -, reads', rfl, hall'⟩ := hrest.clean hs rfl hall
    rcases hend with ⟨rfl, raw, rest, hpieces, hstep⟩ | ⟨hne, rfl | hend⟩
    · cases reads' with
      | nil => cases hpieces
      | cons read reads' =>
          obtain ⟨rfl, -⟩ := List.cons.inj hpieces
          have hspec := restStep_read_spec hu (hall' read List.mem_cons_self) hstep
          obtain ⟨hnone, -⟩ | ⟨_, hchunk, -⟩ | ⟨failure, -, hfailed⟩ := hspec
          · cases hnone
          · cases hchunk
          · exact .inl ⟨rfl, failure, hfailed⟩
    · exact .inr ⟨hne, hu⟩
    · exact .inr ⟨hne, (hend.clean hu).1⟩

end Body

/-! ### The whole call -/

/-- **What a call comes to**: a body that is stored as what the reads yielded; or an error, of the
headers, of a failure of the body, or of the store. -/
def BodyOutcome (lib : BlobLib) (owner : String) (config : FetchConfig)
    (header : String → Option String) (first : Read) (rest : List Read) :
    Except (SafeFetchError × BodyState) (StoredBody × BodyState) → Prop
  | .ok (body, t) => t.Clean config ∧ body.wireBytes = t.received ∧
      (∃ bytes s, first.decoded = .ok bytes ∧ s.yielded = bytes.take config.prefixCapacity ∧
        body.mediaType = effectiveMediaType (declaredMediaType header) s.yielded ∧
        Consumed (restStep config) s (.first s.yielded :: rest.map .read) (.ok (t.yielded, t))) ∧
      body.artifact = blobRefOf lib owner body.mediaType t.yielded
  | .error (error, t) =>
      t = BodyState.start ∧ (error = .declaredBodyTooLarge ∨ error = .unsupportedEncoding) ∨
      (∃ failure, t.FailedBy config (first :: rest) failure ∧ error = failure.error) ∨
      t.Clean config ∧ error = .artifact

/-- Before the first read. -/
theorem BodyState.intact_start (config : FetchConfig) : BodyState.start.Intact config :=
  ⟨rfl, Nat.zero_le _, by decide, rfl, rfl⟩

/-- What is true of the first read: it fails and so does the call, or it is over the limit, or the
store is called with its bytes. -/
theorem first_read_cases {first : Read} (rest : List Read) {r : Except ReadFailure (List UInt8)}
    (hread : readDecoded config.maxWireBytes config.prefixCapacity .start first = (s, r)) :
    (s.wireLimitHit = true ∧ s.FailedBy config (first :: rest) .wireLimit) ∨
      s.wireLimitHit = false ∧
        ((∃ kind failure, r = .error kind ∧ s.FailedBy config (first :: rest) failure ∧
            kind.error = failure.error) ∨
          ∃ bytes, r = .ok s.yielded ∧ first.decoded = .ok bytes ∧
            s.yielded = bytes.take config.prefixCapacity ∧
            (config.maxDecodedBytes < s.yielded.length ∧
                s.FailedBy config (first :: rest) .decodedLimit ∨
              s.yielded.length ≤ config.maxDecodedBytes ∧
                ({ s with decoded := s.yielded.length } : BodyState).Clean config)) := by
  obtain ⟨hrest, hends⟩ := readDecoded_spec (BodyState.intact_start config) first hread
  have hcounted : s.decoded ≤ config.maxDecodedBytes := by
    rw [hrest.decoded]
    exact Nat.zero_le _
  rcases hends with ⟨bytes, rfl, hdecoded, hs, hyielded⟩ | ⟨kind, rfl, hyielded, hend⟩
  · have hbytes : s.yielded = bytes.take config.prefixCapacity := hyielded
    refine .inr ⟨hs.limit, .inr ⟨bytes, by rw [hbytes], hdecoded, hbytes, ?_⟩⟩
    by_cases hover : config.maxDecodedBytes < s.yielded.length
    · refine .inl ⟨hover, by simp [hs.stream], nofun, fun _ => ⟨hs.within, hs.exact, hs.counted⟩,
        fun _ => .inl hover, fun hne => absurd rfl hne, nofun, hcounted, hs.wrapped⟩
    · refine .inr ⟨Nat.le_of_not_lt hover, ⟨hs.counted, hs.within, hs.exact, hs.limit, hs.stream⟩,
        hrest.decodedLimitHit, hrest.malformedEncoding, hrest.idleTimeoutHit, rfl, ?_⟩
      exact Nat.le_of_not_lt hover
  · have hwithin : s.yielded.length ≤ config.maxDecodedBytes := by
      rw [hyielded]
      exact Nat.zero_le _
    obtain ⟨failure, hfailed, hlimit, -, herror⟩ :=
      BodyState.FailedBy.of_read (List.mem_cons_self (l := rest)) hwithin hcounted hend
    cases hhit : s.wireLimitHit with
    | true => exact .inl ⟨rfl, hlimit.mp hhit ▸ hfailed⟩
    | false => exact .inr ⟨rfl, .inl ⟨kind, failure, rfl, hfailed, (herror hhit).symm⟩⟩

section Calls

variable {lib : BlobLib} {owner : String} {header : String → Option String} {first : Read}
  {rest : List Read}

/-- A body that reached the store. -/
theorem StoreOutcome.body {bytes : List UInt8} {r : Except (BlobStoreError × BodyState)
    (BlobRef × BodyState)} (hs : s.Clean config) (hfirst : first.decoded = .ok bytes)
    (hbytes : s.yielded = bytes.take config.prefixCapacity)
    (houtcome : StoreOutcome lib owner (effectiveMediaType (declaredMediaType header) s.yielded)
      (restStep config) s (.first s.yielded :: rest.map .read) r) :
    match r with
    | .ok (artifact, t) => BodyOutcome lib owner config header first rest
        (.ok (⟨artifact, effectiveMediaType (declaredMediaType header) s.yielded, t.wireBytes⟩, t))
    | .error (_, t) => BodyOutcome lib owner config header first rest (.error (t.storeError, t)) := by
  rcases r with ⟨error, t⟩ | ⟨artifact, t⟩
  · rcases BrokenOff.cause hs (fun _ hread => List.mem_cons_of_mem first hread) houtcome with
      ⟨-, failure, hfailed, herror⟩ | ⟨-, ht⟩
    · exact .inr (.inl ⟨failure, hfailed, herror⟩)
    · exact .inr (.inr ⟨ht, ht.storeError⟩)
  · obtain ⟨all, rfl, hconsumed⟩ := houtcome
    obtain ⟨ht, rfl⟩ := hconsumed.clean hs
    exact ⟨ht, ht.intact.counted, ⟨bytes, s, hfirst, hbytes, rfl, hconsumed⟩, rfl⟩

/-- **A call of `store_response`**, whatever the file system answers. -/
theorem ensures_storeBody {h : Trace StoreOp} :
    Ensures (fun _ _ _ => True) (storeBody lib owner config header first rest).run h fun _ r =>
      BodyOutcome lib owner config header first rest r := by
  unfold storeBody
  simp only [ensures_bind_except, ensures_require]
  split
  · split
    · cases hread : readDecoded config.maxWireBytes config.prefixCapacity .start first with
      | mk s r =>
          dsimp only
          simp only [ensures_ofExcept, ensures_adapt]
          rcases first_read_cases rest hread with ⟨hhit, hfailed⟩ | ⟨hhit, hcases⟩
          · rw [if_neg (by simp [hhit])]
            exact .inr (.inl ⟨_, hfailed, rfl⟩)
          · rw [if_pos hhit]
            rcases hcases with ⟨kind, failure, rfl, hfailed, herror⟩ | ⟨bytes, rfl, hfirst, hbytes, hover⟩
            · exact .inr (.inl ⟨failure, hfailed, herror⟩)
            · rcases hover with ⟨hover, hfailed⟩ | ⟨hwithin, hs⟩
              · dsimp only [Except.mapError]
                rw [if_neg (Nat.not_le.mpr hover)]
                exact .inr (.inl ⟨_, hfailed, rfl⟩)
              · dsimp only [Except.mapError]
                rw [if_pos hwithin]
                refine ensures_store.imp ?_
                intro h' r houtcome
                have hbody := houtcome.body hs hfirst hbytes
                rcases r with ⟨error, t⟩ | ⟨artifact, t⟩
                · exact hbody
                · exact hbody
    · exact .inl ⟨rfl, .inr rfl⟩
  · exact .inl ⟨rfl, .inl rfl⟩

/-- What a call leaves under the root. -/
def BodyLeft (lib : BlobLib) (files : BlobFiles) (u : BlobFiles × Trace StoreOp) :
    Except (SafeFetchError × BodyState) (StoredBody × BodyState) → Prop
  | .ok (_, t) => ∃ staged, staged.bytes = t.yielded ∧ LeftBy lib files staged u False
  | .error (error, _) => error = .artifact ∨ Unpublished files u

/-- **A call of `store_response`** from a root that others only sweep. -/
theorem beside_storeBody {files : BlobFiles} (hallocated : files.Allocated) :
    Beside (unrecorded Swept) (recording (storeEffect lib)) (fun _ _ _ => True)
      (storeBody lib owner config header first rest).run (files, []) (BodyLeft lib files) := by
  have hrefl : ∀ t : BlobFiles × Trace StoreOp, unrecorded Swept t t :=
    fun t => ⟨Swept.refl t.1, rfl⟩
  have hu : Unpublished files (files, ([] : Trace StoreOp)) :=
    ⟨SameBlobs.refl files, fun _ hx => nomatch hx⟩
  have hbefore : ∀ (e : SafeFetchError × BodyState) (u : BlobFiles × Trace StoreOp),
      unrecorded Swept (files, []) u → BodyLeft lib files u (.error e) :=
    fun e u hu' => .inr (hu.others hu')
  refine Beside.check (fun _ => Beside.check (fun _ => ?_) (hbefore _)) (hbefore _)
  cases hread : readDecoded config.maxWireBytes config.prefixCapacity .start first with
  | mk s r =>
      refine Beside.check (fun hhit => ?_) (hbefore _)
      rcases first_read_cases rest hread with ⟨hlimit, -⟩ | ⟨-, hcases⟩
      · exact absurd (hhit.symm.trans hlimit) Bool.false_ne_true
      · rcases hcases with ⟨kind, failure, rfl, -⟩ | ⟨bytes, rfl, hfirst, hbytes, hover⟩
        · exact hbefore _
        · refine Beside.check (fun hwithin => ?_) (hbefore _)
          rcases hover with ⟨hover, -⟩ | ⟨-, hs⟩
          · exact absurd hwithin (Nat.not_le.mpr hover)
          · refine Beside.bind_except hrefl (Beside.adapt hrefl ((beside_store hallocated).imp ?_))
            rintro u (⟨error, t⟩ | ⟨artifact, t⟩) hleft v hv
            · obtain ⟨hbroken, hleft⟩ := hleft
              intro w hw
              rcases hleft with hu | ⟨hne, -⟩
              · exact .inr ((hu.others hv).others hw)
              · have hall : ∀ read ∈ rest, read ∈ first :: rest :=
                  fun _ hread => List.mem_cons_of_mem first hread
                rcases hbroken.cause hs hall with ⟨hstream, -⟩ | ⟨-, ht⟩
                · exact absurd hstream hne
                · exact .inl ht.storeError
            · obtain ⟨staged, -, hconsumed, hleft⟩ := hleft
              intro w hw
              exact ⟨staged, (hconsumed.clean hs).2.symm, (hleft.others hv).others hw⟩

/-- The result of the call for a stored body. -/
def fetchedBody (response : Response) (context : ResponseContext) (totalDuration : ℕ)
    (r : Except (SafeFetchError × BodyState) (StoredBody × BodyState)) :
    Except (SafeFetchError × BodyState) (FetchResult × BodyState) :=
  r.map fun q => (freshResult response context totalDuration q.1, q.2)

variable {response : Response} {context : ResponseContext} {totalDuration : ℕ}

/-- What comes of the call, whatever the file system answers. -/
theorem ensures_storeResponse {h : Trace StoreOp} :
    Ensures (fun _ _ _ => True)
      (storeResponse lib owner config response context first rest totalDuration).run h fun _ r =>
        ∃ r', r = fetchedBody response context totalDuration r' ∧
          BodyOutcome lib owner config response.header first rest r' := by
  unfold storeResponse
  rw [ensures_bind_except]
  refine ensures_storeBody.imp ?_
  rintro h' (e | q) houtcome
  · exact ⟨.error e, rfl, houtcome⟩
  · exact ⟨.ok q, rfl, houtcome⟩

/-- The others do not change what is left. -/
theorem BodyLeft.others {files : BlobFiles} {u v : BlobFiles × Trace StoreOp}
    {r : Except (SafeFetchError × BodyState) (StoredBody × BodyState)}
    (hleft : BodyLeft lib files u r) (hv : unrecorded Swept u v) : BodyLeft lib files v r := by
  rcases r with ⟨error, t⟩ | ⟨body, t⟩
  · exact hleft.imp_right fun hu => hu.others hv
  · obtain ⟨staged, hbytes, hleft⟩ := hleft
    exact ⟨staged, hbytes, hleft.others hv⟩

/-- **A call of `store_response`** over the files of the store: what comes of it, and what it
leaves. -/
theorem beside_storeResponse {files : BlobFiles} (hallocated : files.Allocated) :
    Beside (unrecorded Swept) (recording (storeEffect lib)) (fun _ _ _ => True)
      (storeResponse lib owner config response context first rest totalDuration).run (files, [])
      fun u r => ∃ r', r = fetchedBody response context totalDuration r' ∧
        BodyLeft lib files u r' ∧ BodyOutcome lib owner config response.header first rest r' := by
  have hrefl : ∀ t : BlobFiles × Trace StoreOp, unrecorded Swept t t :=
    fun t => ⟨Swept.refl t.1, rfl⟩
  refine Beside.bind_except hrefl
    (((beside_storeBody hallocated).and_ensures ensures_storeBody).imp ?_)
  rintro u (e | q) ⟨hleft, houtcome⟩
  · exact fun v hv => ⟨.error e, rfl, hleft.others hv, houtcome⟩
  · exact fun v hv => ⟨.ok q, rfl, hleft.others hv, houtcome⟩

/-- What is left to do once the first read is accepted. -/
theorem storeBody_eq {bytes : List UInt8} (hheaders : declaredTooLarge config header = false)
    (hencoding : contentEncodingIsSupported header = true)
    (hread : readDecoded config.maxWireBytes config.prefixCapacity .start first = (s, .ok bytes))
    (hhit : s.wireLimitHit = false) (hwithin : bytes.length ≤ config.maxDecodedBytes) :
    storeBody lib owner config header first rest = (do
      let (artifact, s) ← ExceptT.adapt
        (fun e : BlobStoreError × BodyState => (e.2.storeError, e.2))
        (store lib owner (effectiveMediaType (declaredMediaType header) bytes) (restStep config)
          (.first bytes :: rest.map .read) { s with decoded := bytes.length })
      return (⟨artifact, effectiveMediaType (declaredMediaType header) bytes, s.wireBytes⟩, s)) := by
  simp only [storeBody, require, hheaders, hencoding, hread, hhit, hwithin, if_true,
    Except.mapError, Program.ofExcept_ok_bind]
  rfl

/-- The bytes that the network yields for some reads. -/
def wireLength (reads : List Read) : ℕ := (reads.map Read.wireLength).sum

/-- A call of the store counts no more than the network yields. -/
theorem StoreOutcome.received_le {mediaType : String} {bytes : List UInt8}
    {r : Except (BlobStoreError × BodyState) (BlobRef × BodyState)}
    (h : StoreOutcome lib owner mediaType (restStep config) s (.first bytes :: rest.map .read) r) :
    (endState r).received ≤ s.received + wireLength rest := by
  have hweights : ((.first bytes :: rest.map .read : List Piece).map Piece.wireLength).sum =
      wireLength rest := by
    rw [List.map_cons, List.sum_cons, List.map_map, Piece.wireLength, Nat.zero_add]
    rfl
  have hmeasure := StoreOutcome.measure_le (m := BodyState.received) (w := Piece.wireLength)
    (restStep_received config) h
  rw [hweights] at hmeasure
  exact hmeasure

/-- **No more bytes are counted than the network yields.** -/
theorem ensures_received {h : Trace StoreOp} :
    Ensures (fun _ _ _ => True) (storeBody lib owner config header first rest).run h fun _ r =>
      (endState r).received ≤ wireLength (first :: rest) := by
  unfold storeBody
  simp only [ensures_bind_except, ensures_require]
  have hstart : BodyState.start.received ≤ wireLength (first :: rest) := Nat.zero_le _
  split
  · split
    · have hfirst := readDecoded_received config.maxWireBytes config.prefixCapacity .start first
      cases hread : readDecoded config.maxWireBytes config.prefixCapacity .start first with
      | mk s r =>
          rw [hread] at hfirst
          have hs : s.received + wireLength rest ≤ wireLength (first :: rest) := by
            rw [wireLength, wireLength, List.map_cons, List.sum_cons]
            exact Nat.add_le_add_right (hfirst.trans (Nat.zero_add _).le) _
          have hbefore : s.received ≤ wireLength (first :: rest) :=
            Nat.le_trans (Nat.le_add_right _ _) hs
          dsimp only
          simp only [ensures_ofExcept, ensures_adapt]
          split
          · cases r with
            | error kind => exact hbefore
            | ok bytes =>
                dsimp only [Except.mapError]
                split
                · refine ensures_store.imp ?_
                  rintro h' (⟨error, t⟩ | ⟨artifact, t⟩) houtcome
                  · exact Nat.le_trans houtcome.received_le hs
                  · exact Nat.le_trans houtcome.received_le hs
                · exact hbefore
          · exact hbefore
    · exact hstart
  · exact hstart

/-- The same of the whole call. -/
theorem received_le {tr : Trace StoreOp}
    {r : Except (SafeFetchError × BodyState) (FetchResult × BodyState)}
    (hexec : Exec (storeResponse lib owner config response context first rest totalDuration).run
      tr r) : (endState r).received ≤ wireLength (first :: rest) := by
  have hensures : Ensures (fun _ _ _ => True)
      (storeResponse lib owner config response context first rest totalDuration).run []
      fun _ r => (endState r).received ≤ wireLength (first :: rest) := by
    unfold storeResponse
    rw [ensures_bind_except]
    refine ensures_received.imp ?_
    rintro h' (e | q) hle
    · exact hle
    · exact hle
  exact (hensures.exec hexec).1

/-! ### A small body -/

/-- The limits that are built in. -/
def smallLimits : FetchConfig := (ExtractorConfig.builtIn "").fetch

/-- A response that declares a plain text. -/
def smallResponse : Response where
  status := 200
  url := exampleUrl
  header name := if name = "content-type" then some "text/plain" else none

def smallContext : ResponseContext where
  originalUrl := exampleUrl
  normalizedUrl := exampleUrl
  redirects := []
  attempts := 1
  started := 0

/-- The small artifact in one chunk and one read. -/
def smallRead : Read where
  polled := [.ok ⟨smallArtifact, by decide⟩]
  decoded := .ok smallArtifact

/-- The state after that read. -/
def smallState : BodyState :=
  { BodyState.start with wireBytes := 2, received := 2, decoded := 2, yielded := smallArtifact }

/-- The small artifact is stored. -/
theorem smallBody_exec : ∃ tr, ExecBeside Swept (storeEffect smallBlobLib)
    (storeResponse smallBlobLib producer smallLimits smallResponse smallContext smallRead [] 0).run
    Tree.empty tr ((smallStaged.setEntry smallTarget 0).unlink (stagingPath smallBlobLib 0))
    (.ok (freshResult smallResponse smallContext 0
      ⟨blobRefOf smallBlobLib producer "text/plain" smallArtifact, "text/plain", 2⟩, smallState)) := by
  have hread : readDecoded smallLimits.maxWireBytes smallLimits.prefixCapacity .start smallRead =
      ({ smallState with decoded := 0 }, .ok smallArtifact) := by decide +kernel
  have hmedia : effectiveMediaType (declaredMediaType smallResponse.header) smallArtifact =
      "text/plain" := by decide +kernel
  have hstore : ∃ tr, ExecBeside Swept (storeEffect smallBlobLib)
      (store smallBlobLib producer "text/plain" (restStep smallLimits) [.first smallArtifact]
        smallState).run Tree.empty tr
      ((smallStaged.setEntry smallTarget 0).unlink (stagingPath smallBlobLib 0))
      (.ok (blobRefOf smallBlobLib producer "text/plain" smallArtifact, smallState)) :=
    smallStore_exec rfl smallPublish_exec
  obtain ⟨tr, hstore⟩ := hstore
  rw [storeResponse, storeBody_eq (by decide +kernel) (by decide +kernel) hread rfl (by decide),
    hmedia]
  exact ⟨_, ((hstore.adapt Swept.refl swept_trans).bind_except swept_trans
    (.done _ (Swept.refl _))).bind_except swept_trans (.done _ (Swept.refl _))⟩

/-! ### Limits -/

/-- Some bytes are under their digest. -/
def StoredUnder (lib : BlobLib) (files : BlobFiles) (bytes : List UInt8) : Prop :=
  ∃ target, pathForDigest (lib.digest bytes) = some target ∧ files.read target = some bytes

/-- Nothing else has the digest of some bytes, among what is stored. -/
def NoCollision (lib : BlobLib) (files : BlobFiles) (bytes : List UInt8) : Prop :=
  ∀ path stored, files.read path = some stored → lib.digest stored = lib.digest bytes →
    stored = bytes

/-- A store that returns a reference has left the bytes under their digest. -/
theorem LeftBy.stored {files : BlobFiles} {staged : Staged} {u : BlobFiles × Trace StoreOp}
    (hleft : LeftBy lib files staged u False) (hdigest : NoCollision lib files staged.bytes) :
    StoredUnder lib u.1 staged.bytes := by
  obtain ⟨-, hfalse⟩ | ⟨target, hpath, hleft⟩ := hleft
  · exact hfalse.elim
  · obtain ⟨hu, hverified⟩ | ⟨-, hread, -⟩ := hleft
    · obtain ⟨stored, hread, hverified⟩ := hverified not_false
      obtain ⟨-, -, hsame⟩ := verifyFile_eq_ok_iff.mp hverified
      obtain ⟨head, name, rfl, -⟩ := eq_of_pathForDigest hpath
      have hbefore := (hu.same.read head name).symm.trans hread
      obtain rfl := hdigest _ stored hbefore hsame
      exact ⟨_, hpath, hread⟩
    · exact ⟨target, hpath, hread⟩

/-- **The byte limits**, for a response of fewer than 2^64 bytes, and a digest that tells the body
from what is stored. A body that is stored is within both limits, counted exactly, and stored as
what the reads yielded; over the wire limit, or else over the limit of decoded bytes, the error says
so and nothing is published. The wire counter always holds the bytes that were received. -/
theorem body_limits {files files' : BlobFiles} {tr : Trace StoreOp}
    {r : Except (SafeFetchError × BodyState) (FetchResult × BodyState)}
    (hallocated : files.Allocated) (hwire : wireLength (first :: rest) < 2 ^ 64)
    (hexec : ExecBeside Swept (storeEffect lib)
      (storeResponse lib owner config response context first rest totalDuration).run files tr
      files' r)
    (hdigest : NoCollision lib files (endState r).yielded) :
    ((endState r).wireBytes = (endState r).received ∧
        (endState r).received ≤ wireLength (first :: rest) ∧
        (endState r).decoded ≤ config.maxDecodedBytes) ∧
      match r with
      | .ok (result, t) =>
          t.received ≤ config.maxWireBytes ∧ result.wireBytes = t.received ∧
          t.decoded = t.yielded.length ∧ t.yielded.length ≤ config.maxDecodedBytes ∧
          result.decodedBytes = result.artifact.lengthBytes ∧
          result.artifact.lengthBytes = t.yielded.length ∧
          result.artifact.digest.hex = lib.digest t.yielded ∧ StoredUnder lib files' t.yielded
      | .error (error, t) =>
          (config.maxWireBytes < t.received → error = .wireBodyTooLarge ∧
            ∀ head name, files'.read (.blob head name) = files.read (.blob head name)) ∧
          (t.received ≤ config.maxWireBytes → config.maxDecodedBytes < t.yielded.length →
            error = .decodedBodyTooLarge ∧
              ∀ head name, files'.read (.blob head name) = files.read (.blob head name)) := by
  have hreceived := received_le hexec.exec
  have hexact : (endState r).received < 2 ^ 64 := Nat.lt_of_le_of_lt hreceived hwire
  obtain ⟨r', rfl, hleft, houtcome⟩ := (beside_storeResponse hallocated).exec hexec
  rcases r' with ⟨error, t⟩ | ⟨body, t⟩
  · have hsame : error ≠ .artifact → ∀ head name,
        files'.read (.blob head name) = files.read (.blob head name) :=
      fun hne => (hleft.resolve_left hne).same.read
    rcases houtcome with ⟨rfl, -⟩ | ⟨failure, hfailed, rfl⟩ | ⟨ht, -⟩
    · refine ⟨⟨rfl, hreceived, Nat.zero_le _⟩, fun hover => ?_, fun _ hover => ?_⟩
      · exact absurd hover (Nat.not_lt_zero _)
      · exact absurd hover (Nat.not_lt_zero _)
    · have hcounted : t.wireBytes = t.received :=
        hfailed.counted.trans (Nat.mod_eq_of_lt hexact)
      refine ⟨⟨hcounted, hreceived, hfailed.decoded⟩, fun hover => ?_, fun _ hover => ?_⟩
      · have hfailure : failure = .wireLimit := by
          by_contra hne
          exact Nat.not_lt.mpr (hfailed.received hne).1 hover
        subst hfailure
        exact ⟨rfl, hsame nofun⟩
      · have hfailure : failure = .decodedLimit := by
          by_contra hne
          exact Nat.not_lt.mpr (hfailed.yielded hne) hover
        subst hfailure
        exact ⟨rfl, hsame nofun⟩
    · refine ⟨⟨ht.intact.counted, hreceived, ht.decoded ▸ ht.yielded⟩, fun hover => ?_,
        fun _ hover => absurd hover (Nat.not_lt.mpr ht.yielded)⟩
      exact absurd hover (Nat.not_lt.mpr ht.intact.within)
  · obtain ⟨ht, hcounted, -, hartifact⟩ := houtcome
    obtain ⟨staged, hbytes, hleft⟩ := hleft
    refine ⟨⟨ht.intact.counted, hreceived, ht.decoded ▸ ht.yielded⟩, ht.intact.within, hcounted,
      ht.decoded, ht.yielded, rfl, ?_, ?_, ?_⟩
    · change body.artifact.lengthBytes = t.yielded.length
      rw [hartifact]
      rfl
    · change body.artifact.digest.hex = lib.digest t.yielded
      rw [hartifact]
      rfl
    · change NoCollision lib files t.yielded at hdigest
      change StoredUnder lib files' t.yielded
      rw [← hbytes] at hdigest ⊢
      exact hleft.stored hdigest

theorem body_limits_small : ∃ tr files',
    ExecBeside Swept (storeEffect smallBlobLib)
      (storeResponse smallBlobLib producer smallLimits smallResponse smallContext smallRead [] 0).run
      Tree.empty tr files'
      (.ok (freshResult smallResponse smallContext 0
        ⟨blobRefOf smallBlobLib producer "text/plain" smallArtifact, "text/plain", 2⟩, smallState)) ∧
    StoredUnder smallBlobLib files' smallArtifact := by
  have hallocated : (Tree.empty : BlobFiles).Allocated := by
    intro p i hentry
    cases hentry
  have hdigest : NoCollision smallBlobLib Tree.empty smallArtifact := by
    intro path stored hread
    cases hread
  obtain ⟨tr, hexec⟩ := smallBody_exec
  have hlimits := body_limits hallocated (by decide) hexec hdigest
  exact ⟨tr, _, hexec, hlimits.2.2.2.2.2.2.2.2⟩

/-! ### Failures of the network -/

/-- What a caller may conclude from the error: malformed content was rejected by the decoder although
it arrived, and a failure of the network may be retried. -/
def ToldApart (first : Read) (rest : List Read)
    (r : Except (SafeFetchError × BodyState) (FetchResult × BodyState)) : Prop :=
  (∀ t, r = .error (.malformedEncoding, t) →
      t.streamFailed = false ∧ ∃ read ∈ first :: rest, read.decoded = .error .malformed) ∧
    ((endState r).streamFailed = true →
      ∃ error t, r = .error (error, t) ∧ fetchRetryable error = true)

/-- **A failure of the network is reported as malformed content**: the two causes are told apart
exactly when the network does not fail under a read. -/
theorem told_apart_iff {tr : Trace StoreOp}
    {r : Except (SafeFetchError × BodyState) (FetchResult × BodyState)}
    (hexec : Exec (storeResponse lib owner config response context first rest totalDuration).run
      tr r) : ToldApart first rest r ↔ (endState r).streamFailed = false := by
  obtain ⟨r', rfl, houtcome⟩ := (Ensures.exec ensures_storeResponse hexec).1
  rcases r' with ⟨error, t⟩ | ⟨body, t⟩
  · rcases houtcome with ⟨rfl, herror⟩ | ⟨failure, hfailed, rfl⟩ | ⟨ht, rfl⟩
    · refine iff_of_true ⟨fun t heq => ?_, fun hfailed => nomatch hfailed⟩ rfl
      obtain ⟨rfl, -⟩ := Prod.mk.inj (Except.error.inj heq)
      rcases herror with herror | herror
      · cases herror
      · cases herror
    · by_cases hstream : failure = .stream
      · have hfalse : t.streamFailed = true := hfailed.stream.mpr hstream
        refine iff_of_false (fun htold => ?_) (by simp [fetchedBody, Except.map, endState, hfalse])
        obtain ⟨error, u, heq, hretryable⟩ := htold.2 hfalse
        obtain ⟨rfl, -⟩ := Prod.mk.inj (Except.error.inj heq)
        rw [hstream] at hretryable
        cases hretryable
      · have hintact : t.streamFailed = false := by
          simpa using hfailed.stream.not.mpr hstream
        refine iff_of_true ⟨fun u heq => ?_, fun hfailed => ?_⟩ hintact
        · obtain ⟨herror, rfl⟩ := Prod.mk.inj (Except.error.inj heq)
          refine ⟨hintact, hfailed.malformed ?_⟩
          cases failure with
          | stream => exact absurd rfl hstream
          | malformed => rfl
          | wireLimit => cases herror
          | decodedLimit => cases herror
          | idle => cases herror
        · exact absurd (hintact.symm.trans hfailed) Bool.false_ne_true
    · refine iff_of_true ⟨fun t heq => ?_, fun hfailed => ?_⟩ ht.intact.stream
      · cases (Prod.mk.inj (Except.error.inj heq)).1
      · exact absurd (ht.intact.stream.symm.trans hfailed) Bool.false_ne_true
  · obtain ⟨ht, -⟩ := houtcome
    refine iff_of_true ⟨fun t heq => (nomatch heq), fun hfailed => ?_⟩ ht.intact.stream
    exact absurd (ht.intact.stream.symm.trans hfailed) Bool.false_ne_true

/-- A network that fails at the first poll of an undeclared body. -/
def resetRead : Read := ⟨[.error ()], .ok []⟩

/-- The failure is reported as malformed content. -/
theorem reset_reported_malformed :
    ∃ t, Exec (storeResponse smallBlobLib producer (ExtractorConfig.builtIn "").fetch
      ⟨200, exampleUrl, fun _ => none⟩ ⟨exampleUrl, exampleUrl, [], 1, 0⟩ resetRead [] 0).run []
        (.error (.malformedEncoding, t)) ∧ t.streamFailed = true ∧
      fetchRetryable .malformedEncoding = false :=
  ⟨{ BodyState.start with streamFailed := true }, .done _, rfl, rfl⟩

theorem told_apart_iff_reset :
    ∃ r, (endState r).streamFailed = true ∧ ¬ ToldApart resetRead [] r ∧
      Exec (storeResponse smallBlobLib producer (ExtractorConfig.builtIn "").fetch
        ⟨200, exampleUrl, fun _ => none⟩ ⟨exampleUrl, exampleUrl, [], 1, 0⟩ resetRead [] 0).run []
          r := by
  have hexec : Exec (storeResponse smallBlobLib producer (ExtractorConfig.builtIn "").fetch
      ⟨200, exampleUrl, fun _ => none⟩ ⟨exampleUrl, exampleUrl, [], 1, 0⟩ resetRead [] 0).run []
      (.error (.malformedEncoding, { BodyState.start with streamFailed := true })) := .done _
  refine ⟨_, rfl, fun htold => ?_, hexec⟩
  cases (told_apart_iff hexec).mp htold

end Calls

end Reads

end Extractor
