import Extractor.ResponseBody

/-!
# The cuttings of a body

One response reaches `store_response` in many ways: the network cuts it into chunks and the decoder
answers a read with as many bytes as it has. The stored bytes do not depend on the cutting. The media
type does, since it is taken from the bytes of the first read, and with it the way that the run goes
on.

## Main definitions

* `Cutting`: the reads of a response whose wire bytes and decoded bytes are given.
* `MediaRoute`, `mediaRoute`: how a run goes on with a media type.

## Main results

* `Cutting.exec`: every cutting of a body within the limits can be stored.
* `cuttings_agree_iff`: two cuttings of a body always agree exactly when the bytes that a first read
  has room for say nothing else than what was declared.
-/

namespace Extractor

open Files Program

/-! ### Routes -/

/-- How a run goes on with what was fetched. -/
inductive MediaRoute
  | html
  | pdf
  | unsupported
  deriving DecidableEq

/-- The dispatch of `process_run`. -/
def mediaRoute (mediaType : String) : MediaRoute :=
  if mediaType = "text/html" then .html
  else if mediaType = "application/pdf" then .pdf
  else .unsupported

/-- The path of a run that no provider and no video claims goes on along the route. -/
theorem completeOrdinary_eq (lib : PipelineLib) (config : ExtractorConfig) (run : QueuedRun) :
    completeOrdinary lib config run = (do
      let fetched ← Program.call (RunOp.fetch run.url)
      match fetched with
      | .error error => failRunNow run "fetch" (fetchRetryable error) []
      | .ok fetched =>
          match mediaRoute fetched.mediaType with
          | .html => completeHtml lib config run fetched
          | .pdf => completePdf lib config run fetched
          | .unsupported => failRunNow run "unsupported_media" false []) := by
  unfold completeOrdinary mediaRoute
  refine congrArg _ (funext fun fetched => ?_)
  rcases fetched with error | fetched
  · rfl
  · dsimp only
    split
    · rfl
    · split
      · rfl
      · rfl

/-! ### Sniffing -/

/-- A longer text begins as well with what a shorter one begins with. -/
theorem isPrefixOf_extend {magic bytes all : List UInt8} (hall : bytes <+: all)
    (h : magic.isPrefixOf bytes = true) : magic.isPrefixOf all = true :=
  List.isPrefixOf_iff_prefix.mpr ((List.isPrefixOf_iff_prefix.mp h).trans hall)

/-- What is left without its leading white space, of a text that is continued. -/
theorem dropWhile_extend {bytes all : List UInt8} (hall : bytes <+: all)
    (hne : bytes.dropWhile isAsciiWhitespace ≠ []) :
    bytes.dropWhile isAsciiWhitespace <+: all.dropWhile isAsciiWhitespace := by
  obtain ⟨rest, rfl⟩ := hall
  induction bytes with
  | nil => exact absurd rfl hne
  | cons byte bytes ih =>
      by_cases hspace : isAsciiWhitespace byte = true
      · rw [List.cons_append, List.dropWhile_cons_of_pos hspace, List.dropWhile_cons_of_pos hspace]
        rw [List.dropWhile_cons_of_pos hspace] at hne
        exact ih hne
      · rw [List.cons_append, List.dropWhile_cons_of_neg hspace, List.dropWhile_cons_of_neg hspace]
        exact ⟨rest, rfl⟩

/-- A text that begins with a tag is no PDF, even continued. -/
theorem not_pdf_of_tag {bytes all tag : List UInt8} (hall : bytes <+: all)
    (htag : (0x3c :: tag).isPrefixOf (bytes.dropWhile isAsciiWhitespace) = true) :
    (asciiBytes "%PDF-").isPrefixOf all = false := by
  cases bytes with
  | nil => cases htag
  | cons byte bytes =>
      obtain ⟨rest, rfl⟩ := hall
      rw [Bool.eq_false_iff]
      intro hpdf
      have hbyte : byte = 0x25 := by
        have := (Bool.and_eq_true_iff.mp hpdf).1
        exact (beq_iff_eq.mp this).symm
      subst hbyte
      rw [List.dropWhile_cons_of_neg (by decide)] at htag
      have := (Bool.and_eq_true_iff.mp htag).1
      exact absurd (beq_iff_eq.mp this) (by decide)

/-- **Where the longer text says nothing new**, no shorter one does. -/
theorem effectiveMediaType_of_shorter {declared : String} {bytes all : List UInt8}
    (hall : bytes <+: all) (h : effectiveMediaType declared all = declared) :
    effectiveMediaType declared bytes = declared := by
  have hhtml : ∀ tag : List UInt8,
      (0x3c :: tag).isPrefixOf (bytes.dropWhile isAsciiWhitespace) = true →
        (asciiBytes "%PDF-").isPrefixOf all = false ∧
          (0x3c :: tag).isPrefixOf (all.dropWhile isAsciiWhitespace) = true := by
    intro tag htag
    have hne : bytes.dropWhile isAsciiWhitespace ≠ [] := by
      intro hnil
      rw [hnil] at htag
      cases htag
    exact ⟨not_pdf_of_tag hall htag, isPrefixOf_extend (dropWhile_extend hall hne) htag⟩
  unfold effectiveMediaType at h ⊢
  dsimp only at h ⊢
  by_cases hpdf : (asciiBytes "%PDF-").isPrefixOf bytes = true
  · rw [if_pos (isPrefixOf_extend hall hpdf)] at h
    rw [if_pos hpdf, h]
  · rw [if_neg hpdf]
    split
    · next hhtmlBytes =>
        rcases hhtmlBytes with htag | htag | htag
        · obtain ⟨hno, hyes⟩ := hhtml _ htag
          rwa [if_neg (by simp [hno]), if_pos (.inl hyes)] at h
        · obtain ⟨hno, hyes⟩ := hhtml _ htag
          rwa [if_neg (by simp [hno]), if_pos (.inr (.inl hyes))] at h
        · obtain ⟨hno, hyes⟩ := hhtml _ htag
          rwa [if_neg (by simp [hno]), if_pos (.inr (.inr hyes))] at h
    · rfl

/-- One byte says nothing. -/
theorem effectiveMediaType_take_one (declared : String) (bytes : List UInt8) :
    effectiveMediaType declared (bytes.take 1) = declared := by
  have hshort : ∀ magic text : List UInt8, text.length ≤ 1 → 1 < magic.length →
      magic.isPrefixOf text = false := by
    intro magic text htext hmagic
    rw [Bool.eq_false_iff]
    intro h
    have := (List.isPrefixOf_iff_prefix.mp h).length_le
    omega
  have hlength : (bytes.take 1).length ≤ 1 := by
    rw [List.length_take]
    exact Nat.min_le_left ..
  have htrimmed : ((bytes.take 1).dropWhile isAsciiWhitespace).length ≤ 1 :=
    Nat.le_trans (List.dropWhile_suffix _).length_le hlength
  simp only [effectiveMediaType, hshort _ _ hlength (by decide : 1 < (asciiBytes "%PDF-").length),
    hshort _ _ htrimmed (by decide : 1 < (asciiBytes "<!DOCTYPE html").length),
    hshort _ _ htrimmed (by decide : 1 < (asciiBytes "<!doctype html").length),
    hshort _ _ htrimmed (by decide : 1 < (asciiBytes "<html").length), or_self, if_false,
    Bool.false_eq_true]

/-! ### Cuttings -/

/-- The bytes of some chunks. -/
def wireOf (chunks : List Chunk) : List UInt8 := (chunks.map Subtype.val).flatten

/-- Reads **deliver** some wire bytes as some decoded bytes, each into a buffer of the source, until
one finds the end. -/
inductive Delivers : List Read → List UInt8 → List UInt8 → Prop
  | empty : Delivers [] [] []
  | ended {read : Read} {rest : List Read} {chunks : List Chunk}
      (hpolled : read.polled = chunks.map .ok) (hdecoded : read.decoded = .ok []) :
      Delivers (read :: rest) (wireOf chunks) []
  | piece {read : Read} {rest : List Read} {chunks : List Chunk} {piece wire bytes : List UInt8}
      (hpolled : read.polled = chunks.map .ok) (hdecoded : read.decoded = .ok piece)
      (hne : piece ≠ []) (hroom : piece.length ≤ 8192) (hrest : Delivers rest wire bytes) :
      Delivers (read :: rest) (wireOf chunks ++ wire) (piece ++ bytes)

/-- **A cutting of a response** into a first read and the ones that follow. -/
structure Cutting (config : FetchConfig) (wire body : List UInt8) (first : Read)
    (rest : List Read) : Prop where
  delivers : ∃ chunks piece wire' bytes, first.polled = chunks.map .ok ∧
    first.decoded = .ok piece ∧ piece.length ≤ config.prefixCapacity ∧ (piece = [] → bytes = []) ∧
    Delivers rest wire' bytes ∧ wire = wireOf chunks ++ wire' ∧ body = piece ++ bytes

section Stored

variable {config : FetchConfig} {s t : BodyState}

/-- What a read hands on is what it decoded. -/
theorem readDecoded_ok {maxWireBytes capacity : ℕ} {read : Read} {bytes : List UInt8}
    (h : readDecoded maxWireBytes capacity s read = (t, .ok bytes)) :
    ∃ all, read.decoded = .ok all ∧ bytes = all.take capacity := by
  unfold readDecoded at h
  split at h
  · split at h
    · next all hdecoded => exact ⟨all, hdecoded, (Except.ok.inj (Prod.mk.inj h).2).symm⟩
    · cases (Prod.mk.inj h).2
  · cases (Prod.mk.inj h).2

/-- What the stream hands on is what the read decoded; nothing at its end alone. -/
theorem restStep_decoded {read : Read} {item : Option (Except Unit (List UInt8))}
    (hstep : restStep config s (.read read) = (t, item)) :
    (∀ bytes, item = some (.ok bytes) →
        bytes ≠ [] ∧ ∃ all, read.decoded = .ok all ∧ bytes = all.take 8192) ∧
      (item = none → ∃ all, read.decoded = .ok all ∧ all.take 8192 = []) := by
  rw [restStep] at hstep
  split at hstep
  · next u hread =>
      obtain ⟨-, rfl⟩ := Prod.mk.inj hstep
      obtain ⟨all, hdecoded, hnil⟩ := readDecoded_ok hread
      exact ⟨fun _ h => (by cases h), fun _ => ⟨all, hdecoded, hnil.symm⟩⟩
  · next u byte bytes hread =>
      obtain ⟨all, hdecoded, hbytes⟩ := readDecoded_ok hread
      dsimp only at hstep
      split at hstep
      · obtain ⟨-, rfl⟩ := Prod.mk.inj hstep
        exact ⟨fun _ h => (by cases h), fun h => by cases h⟩
      · obtain ⟨-, rfl⟩ := Prod.mk.inj hstep
        refine ⟨fun bytes' heq => ?_, fun h => by cases h⟩
        obtain rfl := Except.ok.inj (Option.some.inj heq)
        exact ⟨List.cons_ne_nil _ _, all, hdecoded, hbytes⟩
  · obtain ⟨-, rfl⟩ := Prod.mk.inj hstep
    exact ⟨fun _ h => (by cases h), fun h => by cases h⟩
  · obtain ⟨-, rfl⟩ := Prod.mk.inj hstep
    exact ⟨fun _ h => (by cases h), fun h => by cases h⟩

/-- What is pulled to the end is what the reads deliver. -/
theorem Delivers.consumed {reads : List Read} {wire bytes bytes' : List UInt8}
    {pieces pieces' : List Piece} {u : BodyState} (hreads : Delivers reads wire bytes)
    (hpulls : Pulls (restStep config) s pieces bytes' u pieces')
    (hpieces : pieces = reads.map .read) (hend : EndsIn (restStep config) u pieces' t) :
    bytes' = bytes := by
  induction hpulls generalizing reads wire bytes with
  | refl s pieces =>
      cases hreads with
      | empty => rfl
      | ended => rfl
      | piece hpolled hdecoded hne hroom hrest =>
          rcases hend with ⟨hnil, -⟩ | ⟨raw, rest, hraw, hstep⟩
          · rw [hpieces] at hnil
            cases hnil
          · obtain ⟨rfl, -⟩ := List.cons.inj (hpieces.symm.trans hraw)
            obtain ⟨all, hall, hnil⟩ := (restStep_decoded hstep).2 rfl
            obtain rfl := Except.ok.inj (hdecoded.symm.trans hall)
            rw [List.take_of_length_le hroom] at hnil
            exact absurd hnil hne
  | @pull s t u raw rest rest' chunk bytes₁ hstep hrest ih =>
      cases hreads with
      | empty => cases hpieces
      | ended hpolled hdecoded =>
          obtain ⟨rfl, -⟩ := List.cons.inj hpieces
          obtain ⟨hne, all, hall, hchunk⟩ := (restStep_decoded hstep).1 chunk rfl
          obtain rfl := Except.ok.inj (hdecoded.symm.trans hall)
          exact absurd hchunk hne
      | piece hpolled hdecoded hne hroom hdelivers =>
          obtain ⟨rfl, htail⟩ := List.cons.inj hpieces
          obtain ⟨-, all, hall, hchunk⟩ := (restStep_decoded hstep).1 chunk rfl
          obtain rfl := Except.ok.inj (hdecoded.symm.trans hall)
          rw [List.take_of_length_le hroom] at hchunk
          rw [hchunk, ih hdelivers htail hend]

variable {lib : BlobLib} {owner : String} {response : Response} {context : ResponseContext}
  {first : Read} {rest : List Read} {totalDuration : ℕ} {wire body : List UInt8}

/-- **What is stored of a cutting** is the body; the media type is that of the bytes of the first
read. -/
theorem Cutting.stored (hcutting : Cutting config wire body first rest) {tr : Trace StoreOp}
    {result : FetchResult}
    (hexec : Exec (storeResponse lib owner config response context first rest totalDuration).run tr
      (.ok (result, t))) :
    result.artifact = blobRefOf lib owner result.mediaType body ∧
      ∃ piece, first.decoded = .ok piece ∧ piece.length ≤ config.prefixCapacity ∧ piece <+: body ∧
        result.mediaType = effectiveMediaType (declaredMediaType response.header) piece := by
  obtain ⟨chunks, piece, wire', bytes, -, hfirst, hroom, -, hdelivers, -, rfl⟩ := hcutting.delivers
  obtain ⟨r', hr', houtcome⟩ := (Ensures.exec ensures_storeResponse hexec).1
  rcases r' with e | ⟨stored, u⟩
  · cases hr'
  · obtain ⟨rfl, rfl⟩ := Prod.mk.inj (Except.ok.inj hr')
    obtain ⟨-, -, ⟨bytes', s, hfirst', hyielded, hmedia, hconsumed⟩, hartifact⟩ := houtcome
    obtain rfl := Except.ok.inj (hfirst.symm.trans hfirst')
    rw [List.take_of_length_le hroom] at hyielded
    obtain ⟨u', pieces', hpulls, hend⟩ := hconsumed
    have hbody : t.yielded = piece ++ bytes := by
      rcases hpulls.cases_first with ⟨-, rfl, rfl⟩ | ⟨bytes', heq, hpulls⟩
      · rcases hend with ⟨hnil, -⟩ | ⟨raw, rest', hpieces, hstep⟩
        · cases hnil
        · obtain ⟨rfl, -⟩ := List.cons.inj hpieces
          cases (Prod.mk.inj hstep).2
      · rw [heq, hyielded, hdelivers.consumed hpulls rfl hend]
    refine ⟨?_, piece, hfirst, hroom, List.prefix_append .., ?_⟩
    · rw [← hbody]
      exact hartifact
    · rw [← hyielded]
      exact hmedia

/-! ### Every cutting can be stored -/

/-- Polls within the limit are passed on. -/
theorem pollWires_within (maxWireBytes : ℕ) (chunks : List Chunk)
    (hlimit : s.wireBytes + (wireOf chunks).length ≤ maxWireBytes)
    (hexact : s.wireBytes + (wireOf chunks).length < 2 ^ 64) :
    pollWires maxWireBytes s (chunks.map .ok) =
      ({ s with wireBytes := s.wireBytes + (wireOf chunks).length
                received := s.received + (wireOf chunks).length }, true) := by
  induction chunks generalizing s with
  | nil => rfl
  | cons chunk chunks ih =>
      have hlength : (wireOf (chunk :: chunks)).length =
          chunk.1.length + (wireOf chunks).length := List.length_append
      rw [hlength] at hlimit hexact ⊢
      have hpoll : pollWire maxWireBytes s (.ok chunk) =
          ({ s with wireBytes := s.wireBytes + chunk.1.length
                    received := s.received + chunk.1.length }, true) := by
        have hunder : ¬(2 ^ 64 ≤ s.wireBytes + chunk.1.length ∨
            maxWireBytes < s.wireBytes + chunk.1.length) := by omega
        rw [pollWire]
        dsimp only
        rw [if_neg hunder, Nat.mod_eq_of_lt (by omega)]
      rw [List.map_cons, pollWires, hpoll]
      dsimp only
      rw [ih (by dsimp only; omega) (by dsimp only; omega)]
      simp only [Nat.add_assoc]

/-- A read within the limit yields what it decoded. -/
theorem readDecoded_within {capacity : ℕ} {read : Read} {chunks : List Chunk} {piece : List UInt8}
    (hpolled : read.polled = chunks.map .ok) (hdecoded : read.decoded = .ok piece)
    (hroom : piece.length ≤ capacity)
    (hlimit : s.wireBytes + (wireOf chunks).length ≤ config.maxWireBytes)
    (hexact : s.wireBytes + (wireOf chunks).length < 2 ^ 64) :
    readDecoded config.maxWireBytes capacity s read =
      ({ s with wireBytes := s.wireBytes + (wireOf chunks).length
                received := s.received + (wireOf chunks).length
                yielded := s.yielded ++ piece }, .ok piece) := by
  rw [readDecoded, hpolled, pollWires_within config.maxWireBytes chunks hlimit hexact, hdecoded]
  dsimp only
  rw [List.take_of_length_le hroom]

/-- **The reads are copied** into the staging file, where no write fails. -/
theorem Delivers.exec_copyStream {reads : List Read} {bytes hashed : List UInt8} {id : Uuid}
    {inode : ℕ} (hreads : Delivers reads wire bytes)
    (hwire : s.wireBytes + wire.length ≤ config.maxWireBytes)
    (hexact : s.wireBytes + wire.length < 2 ^ 64)
    (hbytes : s.decoded + bytes.length ≤ config.maxDecodedBytes)
    (hdecoded : s.decoded + bytes.length < 2 ^ 64)
    (hhashed : hashed.length + bytes.length < 2 ^ 64) :
    ∃ tr t, Exec (copyStream (restStep config) id inode (reads.map .read) s hashed).run tr
      (.ok (hashed ++ bytes, t)) := by
  induction hreads generalizing s hashed with
  | empty => exact ⟨[], s, by rw [List.append_nil]; exact .done _⟩
  | @ended read rest chunks hpolled hread =>
      have hstep : restStep config s (.read read) =
          ({ s with wireBytes := s.wireBytes + (wireOf chunks).length
                    received := s.received + (wireOf chunks).length
                    yielded := s.yielded ++ [] }, none) := by
        rw [restStep, readDecoded_within hpolled hread (Nat.zero_le _) hwire hexact]
      rw [List.map_cons, copyStream, hstep, List.append_nil hashed]
      exact ⟨[], _, .done _⟩
  | @piece read rest chunks piece wire bytes hpolled hread hne hroom hrest ih =>
      rw [List.length_append] at hwire hexact hbytes hdecoded hhashed
      obtain ⟨byte, tail, rfl⟩ := List.exists_cons_of_ne_nil hne
      have hunder : ¬(2 ^ 64 ≤ s.decoded + (byte :: tail).length ∨
          config.maxDecodedBytes < s.decoded + (byte :: tail).length) := by omega
      have hstep : restStep config s (.read read) =
          ({ s with wireBytes := s.wireBytes + (wireOf chunks).length
                    received := s.received + (wireOf chunks).length
                    yielded := s.yielded ++ byte :: tail
                    decoded := s.decoded + (byte :: tail).length },
            some (.ok (byte :: tail))) := by
        rw [restStep, readDecoded_within hpolled hread hroom (by omega) (by omega)]
        dsimp only
        rw [if_neg hunder]
      have hlonger : (hashed ++ byte :: tail).length + bytes.length < 2 ^ 64 := by
        rw [List.length_append]
        omega
      have hroom' : (hashed ++ byte :: tail).length < 2 ^ 64 := by omega
      rw [List.map_cons, copyStream, hstep]
      obtain ⟨tr, t, hexec⟩ := ih (s := { s with
        wireBytes := s.wireBytes + (wireOf chunks).length
        received := s.received + (wireOf chunks).length
        yielded := s.yielded ++ byte :: tail
        decoded := s.decoded + (byte :: tail).length })
        (by dsimp only; omega) (by dsimp only; omega) (by dsimp only; omega)
        (by dsimp only; omega) hlonger
      rw [List.append_assoc] at hexec
      dsimp only
      rw [require, if_pos hroom']
      exact ⟨_, t, .ask (StoreOp.writeAll inode (byte :: tail)) _ true hexec⟩

/-- What the libraries make of a body that is stored. -/
structure Storable (lib : BlobLib) (owner : String) (mediaTypes : List String) (body : List UInt8) :
    Prop where
  owner : lib.ownerIsValid owner = true
  mediaTypes : ∀ mediaType ∈ mediaTypes, lib.mediaTypeIsValid mediaType = true
  digest : lib.hexIsValid (lib.digest body) = true
  sha256 : (lib.sha256 body).length = 32

/-- The digest of a storable body has a path. -/
theorem Storable.path {mediaTypes : List String} (h : Storable lib owner mediaTypes body) :
    ∃ target, pathForDigest (lib.digest body) = some target := by
  have hdigits : ∀ n < 16, (hexDigit n).utf8Size = 1 := by decide
  obtain ⟨byte, rest, hsha⟩ := List.exists_cons_of_length_pos (h.sha256 ▸ (by decide : 0 < 32))
  have hbyte := byte.toNat_lt
  have hhigh := hdigits (byte.toNat / 16) (by omega)
  have hlow := hdigits (byte.toNat % 16) (by omega)
  have hlist : (lib.digest body).toList =
      hexDigit (byte.toNat / 16) :: hexDigit (byte.toNat % 16) ::
        rest.flatMap fun b => [hexDigit (b.toNat / 16), hexDigit (b.toNat % 16)] := by
    rw [BlobLib.digest, hsha, hex, String.toList_ofList]
    rfl
  rw [pathForDigest, hlist]
  dsimp only
  rw [if_neg (by rw [hhigh]; decide), if_pos ⟨hhigh, hlow⟩]
  exact ⟨_, rfl⟩

/-- What is staged is published, where nothing fails. -/
theorem Storable.exec_publish {mediaTypes : List String} {mediaType : String} {id : Uuid} {inode : ℕ}
    (h : Storable lib owner mediaTypes body) :
    ∃ tr, Exec (publish lib owner mediaType ⟨id, inode, body⟩ s).run tr
      (.ok (blobRefOf lib owner mediaType body, s)) := by
  obtain ⟨target, hpath⟩ := h.path
  rw [publish, require, if_pos h.digest, hpath]
  exact ⟨_, .ask (StoreOp.createParent target) _ true
    (.ask (StoreOp.hardLink id target) _ (.ok ()) (.ask (StoreOp.removeFile id) _ true (.done _)))⟩

/-- A stream that is copied is stored, where nothing fails. -/
theorem Storable.exec_store {mediaTypes : List String} {mediaType : String} {pieces : List Piece}
    (h : Storable lib owner mediaTypes body) (hmedia : mediaType ∈ mediaTypes)
    (hcopy : ∃ tr, Exec (copyStream (restStep config) 0 0 pieces s []).run tr (.ok (body, t))) :
    ∃ tr, Exec (store lib owner mediaType (restStep config) pieces s).run tr
      (.ok (blobRefOf lib owner mediaType body, t)) := by
  obtain ⟨tr, hcopy⟩ := hcopy
  have hstage : ∃ tr, Exec (stage (restStep config) pieces s).run tr (.ok (⟨0, 0, body⟩, t)) :=
    ⟨_, .ask StoreOp.createStagingDirectory _ true (.ask StoreOp.newUuid _ 0
      (.ask (StoreOp.create 0) _ (some 0) (hcopy.bind
        (.ask (StoreOp.flush 0) _ true (.ask (StoreOp.syncAll 0) _ true (.done _))))))⟩
  obtain ⟨tr₁, hstage⟩ := hstage
  have hpublish : ∃ tr, Exec (publish lib owner mediaType ⟨0, 0, body⟩ t).run tr
      (.ok (blobRefOf lib owner mediaType body, t)) := h.exec_publish
  obtain ⟨tr₂, hpublish⟩ := hpublish
  rw [store, require, if_pos h.owner, require, if_pos (h.mediaTypes mediaType hmedia)]
  exact ⟨_, hstage.bind hpublish⟩

/-- **Every cutting of a body within the limits can be stored.** -/
theorem Cutting.exec (hcutting : Cutting config wire body first rest)
    (hstorable : Storable lib owner
      ["application/pdf", "text/html", declaredMediaType response.header] body)
    (hheaders : declaredTooLarge config response.header = false)
    (hencoding : contentEncodingIsSupported response.header = true)
    (hwire : wire.length ≤ config.maxWireBytes) (hexact : wire.length < 2 ^ 64)
    (hbody : body.length ≤ config.maxDecodedBytes) (hdecoded : body.length < 2 ^ 64) :
    ∃ tr result t,
      Exec (storeResponse lib owner config response context first rest totalDuration).run tr
        (.ok (result, t)) := by
  obtain ⟨chunks, piece, wire', bytes, hpolled, hfirst, hroom, -, hdelivers, rfl, rfl⟩ :=
    hcutting.delivers
  rw [List.length_append] at hwire hexact hbody hdecoded
  let after : BodyState := { BodyState.start with
    wireBytes := 0 + (wireOf chunks).length, received := 0 + (wireOf chunks).length
    yielded := [] ++ piece }
  have hread : readDecoded config.maxWireBytes config.prefixCapacity .start first =
      (after, .ok piece) :=
    readDecoded_within hpolled hfirst hroom (by change 0 + _ ≤ _; omega) (by change 0 + _ < _; omega)
  have hmedia : effectiveMediaType (declaredMediaType response.header) piece ∈
      ["application/pdf", "text/html", declaredMediaType response.header] := by
    unfold effectiveMediaType
    dsimp only
    split
    · exact List.mem_cons_self
    · split
      · exact List.mem_cons_of_mem _ List.mem_cons_self
      · exact List.mem_cons_of_mem _ (List.mem_cons_of_mem _ List.mem_cons_self)
  have hcopied : ∃ tr t, Exec (copyStream (restStep config) 0 0 (rest.map .read)
      { after with decoded := piece.length } piece).run tr (.ok (piece ++ bytes, t)) :=
    hdelivers.exec_copyStream (by dsimp only [after]; omega) (by dsimp only [after]; omega) hbody
      hdecoded hdecoded
  obtain ⟨tr, t, hcopied⟩ := hcopied
  have hcopy : ∃ tr, Exec (copyStream (restStep config) 0 0 (.first piece :: rest.map .read)
      { after with decoded := piece.length } []).run tr (.ok (piece ++ bytes, t)) := by
    rw [copyStream]
    dsimp only [restStep]
    rw [List.nil_append, require, if_pos (by omega : piece.length < 2 ^ 64)]
    exact ⟨_, .ask (StoreOp.writeAll 0 piece) _ true hcopied⟩
  obtain ⟨tr', hstore⟩ := hstorable.exec_store hmedia hcopy
  have hbody : ∃ tr, Exec (storeBody lib owner config response.header first rest).run tr
      (.ok (⟨blobRefOf lib owner
        (effectiveMediaType (declaredMediaType response.header) piece) (piece ++ bytes),
        effectiveMediaType (declaredMediaType response.header) piece, t.wireBytes⟩, t)) := by
    rw [storeBody_eq hheaders hencoding hread rfl (by omega)]
    exact ⟨_, exec_bind_except_iff.mpr (.inr ⟨_, _, _, rfl, hstore.adapt, .done _⟩)⟩
  obtain ⟨tr'', hbody⟩ := hbody
  rw [storeResponse]
  exact ⟨_, _, t, exec_bind_except_iff.mpr (.inr ⟨_, _, _, rfl, hbody, .done _⟩)⟩

/-! ### Two cuttings -/

/-- A read of one byte that polls nothing. -/
def byteRead (byte : UInt8) : Read := ⟨[], .ok [byte]⟩

/-- Reads of one byte each deliver any bytes. -/
theorem delivers_byteReads (bytes : List UInt8) : Delivers (bytes.map byteRead) [] bytes := by
  induction bytes with
  | nil => exact .empty
  | cons byte bytes ih =>
      have hbyte : Delivers (byteRead byte :: bytes.map byteRead) (wireOf [] ++ [])
          ([byte] ++ bytes) := .piece rfl rfl (List.cons_ne_nil _ _) (Nat.le_of_ble_eq_true rfl) ih
      exact hbyte

/-- The whole response in one chunk, and a first read of a given size. -/
theorem cutting_at {n : ℕ} (hpos : 0 < n) (hroom : n ≤ config.prefixCapacity)
    (hexact : wire.length < 2 ^ 64) :
    Cutting config wire body ⟨[.ok ⟨wire, hexact⟩], .ok (body.take n)⟩
      ((body.drop n).map byteRead) := by
  refine ⟨[⟨wire, hexact⟩], body.take n, [], body.drop n, rfl, rfl, ?_, fun hnil => ?_,
    delivers_byteReads _, ?_, (List.take_append_drop n body).symm⟩
  · rw [List.length_take]
    exact Nat.le_trans (Nat.min_le_left ..) hroom
  · rcases List.take_eq_nil_iff.mp hnil with hzero | hbody
    · exact absurd hzero (Nat.ne_of_gt hpos)
    · rw [hbody, List.drop_nil]
  · simp [wireOf]

/-- Two results agree on what was fetched. -/
def SameBody (result result' : FetchResult) : Prop :=
  result.mediaType = result'.mediaType ∧ result.artifact.digest = result'.artifact.digest ∧
    result.artifact.lengthBytes = result'.artifact.lengthBytes ∧
    mediaRoute result.mediaType = mediaRoute result'.mediaType

/-- **Cuttings of one response agree** exactly when the bytes that a first read has room for say
nothing else than what was declared. -/
theorem cuttings_agree_iff
    (hstorable : Storable lib owner
      ["application/pdf", "text/html", declaredMediaType response.header] body)
    (hheaders : declaredTooLarge config response.header = false)
    (hencoding : contentEncodingIsSupported response.header = true)
    (hwire : wire.length ≤ config.maxWireBytes) (hexact : wire.length < 2 ^ 64)
    (hbody : body.length ≤ config.maxDecodedBytes) (hdecoded : body.length < 2 ^ 64) :
    (∀ first rest first' rest', Cutting config wire body first rest →
        Cutting config wire body first' rest' → ∀ tr tr' result result' t t',
          Exec (storeResponse lib owner config response context first rest totalDuration).run tr
            (.ok (result, t)) →
          Exec (storeResponse lib owner config response context first' rest' totalDuration).run tr'
            (.ok (result', t')) → SameBody result result') ↔
      effectiveMediaType (declaredMediaType response.header) (body.take config.prefixCapacity) =
        declaredMediaType response.header := by
  constructor
  · intro hagree
    have hcap : 0 < config.prefixCapacity := Nat.succ_pos _
    have hstored : ∀ n : ℕ, 0 < n → n ≤ config.prefixCapacity →
        ∃ first rest tr result t, Cutting config wire body first rest ∧
          Exec (storeResponse lib owner config response context first rest totalDuration).run tr
            (.ok (result, t)) ∧ result.mediaType =
              effectiveMediaType (declaredMediaType response.header) (body.take n) := by
      intro n hpos hroom
      have hcutting : Cutting config wire body ⟨[.ok ⟨wire, hexact⟩], .ok (body.take n)⟩
          ((body.drop n).map byteRead) := cutting_at hpos hroom hexact
      obtain ⟨tr, result, t, hrun⟩ :=
        hcutting.exec hstorable hheaders hencoding hwire hexact hbody hdecoded
      obtain ⟨-, piece, hpiece, -, -, hmedia⟩ := hcutting.stored hrun
      obtain rfl := Except.ok.inj hpiece
      exact ⟨_, _, tr, result, t, hcutting, hrun, hmedia⟩
    obtain ⟨first, rest, tr, result, t, hcutting, hrun, hmedia⟩ := hstored 1 Nat.one_pos hcap
    obtain ⟨first', rest', tr', result', t', hcutting', hrun', hmedia'⟩ :=
      hstored config.prefixCapacity hcap (Nat.le_refl _)
    have hsame := hagree first rest first' rest' hcutting hcutting' tr tr' result result' t t'
      hrun hrun'
    rw [← hmedia', ← hsame.1, hmedia, effectiveMediaType_take_one]
  · intro hdeclared first rest first' rest' hcutting hcutting' tr tr' result result' t t' hrun hrun'
    have hmedia : ∀ {first rest tr result t}, Cutting config wire body first rest →
        Exec (storeResponse lib owner config response context first rest totalDuration).run tr
          (.ok (result, t)) → result.mediaType = declaredMediaType response.header ∧
            result.artifact = blobRefOf lib owner result.mediaType body := by
      intro first rest tr result t hcutting hrun
      obtain ⟨hartifact, piece, -, hroom, hpiece, hmedia⟩ := hcutting.stored hrun
      refine ⟨?_, hartifact⟩
      rw [hmedia]
      exact effectiveMediaType_of_shorter (List.prefix_take_iff.mpr ⟨hpiece, hroom⟩) hdeclared
    obtain ⟨hmedia₁, hartifact₁⟩ := hmedia hcutting hrun
    obtain ⟨hmedia₂, hartifact₂⟩ := hmedia hcutting' hrun'
    have hsame : result.mediaType = result'.mediaType := hmedia₁.trans hmedia₂.symm
    exact ⟨hsame, by rw [hartifact₁, hartifact₂, hsame], by rw [hartifact₁, hartifact₂, hsame],
      congrArg mediaRoute hsame⟩

end Stored

/-! ### A PDF that is declared as a page -/

/-- The first bytes of a PDF. -/
def pdfBytes : List UInt8 := asciiBytes "%PDF-"

/-- The libraries on these bytes. -/
def pdfBlobLib : BlobLib where
  sha256 bytes :=
    if bytes = pdfBytes then
      [0x38, 0x52, 0x3c, 0x08, 0x77, 0x96, 0xe5, 0xd5, 0xdd, 0x1c, 0xf9, 0xba, 0xd1, 0xfb, 0x02, 0x67,
       0x81, 0xa8, 0x38, 0xdd, 0x9d, 0xd2, 0xcf, 0x8a, 0xf5, 0x8b, 0x9f, 0x65, 0x02, 0xa4, 0x67, 0x78]
    else []
  ownerIsValid owner := owner == producer
  mediaTypeIsValid mediaType := ["application/pdf", "text/html"].contains mediaType
  hexIsValid := isSha256Hex
  uuidText := smallBlobLib.uuidText
  uuidText_injective := smallBlobLib.uuidText_injective

/-- They are declared as a page. -/
def pageResponse : Response where
  status := 200
  url := exampleUrl
  header name := if name = "content-type" then some "text/html; charset=utf-8" else none

theorem pdfBytes_storable : Storable pdfBlobLib producer
    ["application/pdf", "text/html", declaredMediaType pageResponse.header] pdfBytes where
  owner := rfl
  mediaTypes := by
    have hdeclared : declaredMediaType pageResponse.header = "text/html" := by decide +kernel
    rw [hdeclared]
    decide
  digest := by decide +kernel
  sha256 := by decide +kernel

/-- A first read of one byte makes a page of it, one of five bytes a PDF. -/
theorem cuttings_disagree : ∃ first rest first' rest' tr tr' result result' t t',
    Cutting smallLimits pdfBytes pdfBytes first rest ∧
    Cutting smallLimits pdfBytes pdfBytes first' rest' ∧
    Exec (storeResponse pdfBlobLib producer smallLimits pageResponse smallContext first rest 0).run
      tr (.ok (result, t)) ∧
    Exec (storeResponse pdfBlobLib producer smallLimits pageResponse smallContext first' rest' 0).run
      tr' (.ok (result', t')) ∧
    mediaRoute result.mediaType = .html ∧ mediaRoute result'.mediaType = .pdf := by
  have hstored : ∀ n : ℕ, 0 < n → n ≤ 5 → ∃ first rest tr result t,
      Cutting smallLimits pdfBytes pdfBytes first rest ∧
      Exec (storeResponse pdfBlobLib producer smallLimits pageResponse smallContext first rest 0).run
        tr (.ok (result, t)) ∧ result.mediaType =
          effectiveMediaType (declaredMediaType pageResponse.header) (pdfBytes.take n) := by
    intro n hpos hroom
    have hcutting : Cutting smallLimits pdfBytes pdfBytes
        ⟨[.ok ⟨pdfBytes, by decide⟩], .ok (pdfBytes.take n)⟩ ((pdfBytes.drop n).map byteRead) :=
      cutting_at hpos (Nat.le_trans hroom (by decide)) (by decide)
    obtain ⟨tr, result, t, hrun⟩ := hcutting.exec pdfBytes_storable (by decide +kernel)
      (by decide +kernel) (by decide) (by decide) (by decide) (by decide)
    obtain ⟨-, piece, hpiece, -, -, hmedia⟩ := hcutting.stored hrun
    obtain rfl := Except.ok.inj hpiece
    exact ⟨_, _, tr, result, t, hcutting, hrun, hmedia⟩
  obtain ⟨first, rest, tr, result, t, hcutting, hrun, hmedia⟩ := hstored 1 (by decide) (by decide)
  obtain ⟨first', rest', tr', result', t', hcutting', hrun', hmedia'⟩ :=
    hstored 5 (by decide) (by decide)
  refine ⟨first, rest, first', rest', tr, tr', result, result', t, t', hcutting, hcutting', hrun,
    hrun', ?_, ?_⟩
  · rw [hmedia]
    decide +kernel
  · rw [hmedia']
    decide +kernel

theorem cuttings_agree_iff_pdf :
    ¬ ∀ first rest first' rest', Cutting smallLimits pdfBytes pdfBytes first rest →
      Cutting smallLimits pdfBytes pdfBytes first' rest' → ∀ tr tr' result result' t t',
        Exec (storeResponse pdfBlobLib producer smallLimits pageResponse smallContext first rest
          0).run tr (.ok (result, t)) →
        Exec (storeResponse pdfBlobLib producer smallLimits pageResponse smallContext first' rest'
          0).run tr' (.ok (result', t')) → SameBody result result' := by
  intro hagree
  have hdeclared := (cuttings_agree_iff pdfBytes_storable (by decide +kernel) (by decide +kernel)
    (by decide) (by decide) (by decide) (by decide)).mp hagree
  exact absurd hdeclared (by decide +kernel)

end Extractor
