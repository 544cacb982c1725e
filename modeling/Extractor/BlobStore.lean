import Extractor.Lib.Files
import Extractor.Pipeline

/-!
# The blob store

`extractor_blob_store`: content-addressed files under one root that any number of processes share.
A store streams its bytes into a staging file of its own, hashes them on the way and links the
finished file under its digest; where the digest is taken it reads the file that is there. Every
call of the file system is a step of its own, so calls interleave and a process may stop between
any two of them. `prepare` removes the staging names of others, also those in use.

## Main definitions

* `StoreStep`: one file system call of `store`, `prepare`, `verify` or `remove_digest`.
* `BlobRootInv`: what holds of a root between any two calls.

## Main results

* `blob_store_integrity`: every file under a digest has that digest, every reference that a store
  returned verifies until its digest is removed, and equal bytes have equal references.
-/

namespace Extractor

open Files

/-! ### Names -/

/-- The names under the root: the entries of `staging` and of `sha256/<prefix>`. -/
inductive StorePath
  | staging (name : String)
  | blob (head rest : String)
  deriving DecidableEq

/-- What the hash, uuid and contract crates compute. -/
structure BlobLib where
  /-- SHA-256. -/
  sha256 : List UInt8 → List UInt8
  /-- `BlobOwner::parse` accepts a name. -/
  ownerIsValid : String → Bool
  /-- `MediaType::parse` accepts a text. -/
  mediaTypeIsValid : String → Bool
  /-- `DigestHex::parse` accepts a text. -/
  hexIsValid : String → Bool
  /-- The text of a uuid. -/
  uuidText : Uuid → String
  uuidText_injective : Function.Injective uuidText

/-- `digest_hex` of the SHA-256 of some bytes. -/
def BlobLib.digest (lib : BlobLib) (bytes : List UInt8) : String := hex (lib.sha256 bytes)

/-- The staging file of one store. -/
def stagingPath (lib : BlobLib) (id : Uuid) : StorePath :=
  .staging ("ratatoskr-extractor-" ++ lib.uuidText id ++ ".part")

/-- The names that `prepare` removes. -/
def isStagingName (name : String) : Bool :=
  "ratatoskr-extractor-".toList.isPrefixOf name.toList && ".part".toList.isSuffixOf name.toList

/-- `path_for_digest`: the text is cut at its second byte, where that ends a character. -/
def pathForDigest (digest : String) : Option StorePath :=
  match digest.toList with
  | a :: b :: rest =>
      if a.utf8Size = 2 then some (.blob (String.ofList [a]) (String.ofList (b :: rest)))
      else if a.utf8Size = 1 ∧ b.utf8Size = 1 then
        some (.blob (String.ofList [a, b]) (String.ofList rest))
      else none
  | [a] => if a.utf8Size = 2 then some (.blob (String.ofList [a]) "") else none
  | [] => none

/-- Distinct stores have distinct staging files. -/
theorem stagingPath_injective (lib : BlobLib) : Function.Injective (stagingPath lib) := by
  intro a b h
  have htext := StorePath.staging.inj h
  rw [String.append_left_inj, String.append_right_inj] at htext
  exact lib.uuidText_injective htext

/-- A digest path spells its digest. -/
theorem eq_of_pathForDigest {digest : String} {path : StorePath}
    (h : pathForDigest digest = some path) :
    ∃ head rest, path = .blob head rest ∧ head ++ rest = digest := by
  have hspell : ∀ xs ys : List Char, digest.toList = xs ++ ys →
      String.ofList xs ++ String.ofList ys = digest := by
    intro xs ys hxs
    rw [← String.ofList_append, ← hxs, String.ofList_toList]
  unfold pathForDigest at h
  split at h
  · next a b rest hdigest =>
      by_cases htwo : a.utf8Size = 2
      · rw [if_pos htwo] at h
        exact ⟨_, _, (Option.some.inj h).symm, hspell [a] (b :: rest) hdigest⟩
      · rw [if_neg htwo] at h
        by_cases hone : a.utf8Size = 1 ∧ b.utf8Size = 1
        · rw [if_pos hone] at h
          exact ⟨_, _, (Option.some.inj h).symm, hspell [a, b] rest hdigest⟩
        · rw [if_neg hone] at h
          cases h
  · next a hdigest =>
      by_cases htwo : a.utf8Size = 2
      · rw [if_pos htwo] at h
        exact ⟨_, _, (Option.some.inj h).symm, hspell [a] [] hdigest⟩
      · rw [if_neg htwo] at h
        cases h
  · cases h

/-- Distinct digests have distinct paths. -/
theorem pathForDigest_injective {d d' : String} {path : StorePath}
    (h : pathForDigest d = some path) (h' : pathForDigest d' = some path) : d = d' := by
  obtain ⟨head, rest, rfl, rfl⟩ := eq_of_pathForDigest h
  obtain ⟨head', rest', hpath, rfl⟩ := eq_of_pathForDigest h'
  obtain ⟨rfl, rfl⟩ := StorePath.blob.inj hpath
  rfl

/-! ### Verification -/

/-- `verify_file` on the bytes that a file holds. -/
def verifyFile (lib : BlobLib) (bytes : List UInt8) (digest : String) (length : ℕ) :
    Except BlobStoreError Unit := do
  require (bytes.length < 2 ^ 64) BlobStoreError.lengthOverflow
  require (bytes.length = length ∧ lib.digest bytes = digest) BlobStoreError.collision

/-- The checks of `verify` before it reads the file. -/
def verifyReference (lib : BlobLib) (owner : String) (reference : BlobRef) :
    Except BlobStoreError StorePath := do
  require (reference.ownerService = owner) BlobStoreError.wrongOwner
  require (reference.digest.algorithm = .sha256) BlobStoreError.unsupportedAlgorithm
  require (lib.mediaTypeIsValid reference.mediaType) BlobStoreError.mismatch
  okOr (pathForDigest reference.digest.hex) BlobStoreError.io

theorem verifyFile_eq_ok_iff {lib : BlobLib} {bytes : List UInt8} {digest : String}
    {length : ℕ} : verifyFile lib bytes digest length = .ok () ↔
      bytes.length < 2 ^ 64 ∧ bytes.length = length ∧ lib.digest bytes = digest := by
  rw [verifyFile, Except.bind_eq_ok_iff]
  constructor
  · rintro ⟨_, hlength, h⟩
    exact ⟨Except.require_eq_ok_iff.mp hlength, Except.require_eq_ok_iff.mp h⟩
  · rintro ⟨hlength, h⟩
    exact ⟨(), Except.require_eq_ok_iff.mpr hlength, Except.require_eq_ok_iff.mpr h⟩

/-- **A reference passes** the checks when it is of the same owner and its digest has a path. -/
theorem verifyReference_eq_ok_iff {lib : BlobLib} {owner : String} {reference : BlobRef}
    {path : StorePath} : verifyReference lib owner reference = .ok path ↔
      reference.ownerService = owner ∧ reference.digest.algorithm = .sha256 ∧
        lib.mediaTypeIsValid reference.mediaType = true ∧
        pathForDigest reference.digest.hex = some path := by
  simp only [verifyReference, Except.bind_eq_ok_iff, Except.require_eq_ok_iff,
    Except.okOr_eq_ok_iff]
  constructor
  · rintro ⟨_, howner, _, halgorithm, _, hmedia, hpath⟩
    exact ⟨howner, halgorithm, hmedia, hpath⟩
  · rintro ⟨howner, halgorithm, hmedia, hpath⟩
    exact ⟨(), howner, (), halgorithm, (), hmedia, hpath⟩

/-- The answer of `verify` about the bytes that it read at a path. -/
def verifyAnswer (lib : BlobLib) (reference : BlobRef) (path : StorePath) (bytes : List UInt8) :
    Except BlobStoreError StorePath :=
  match verifyFile lib bytes reference.digest.hex reference.lengthBytes with
  | .ok () => .ok path
  | .error .collision => .error .mismatch
  | .error error => .error error

theorem verifyAnswer_of_ok {lib : BlobLib} {reference : BlobRef} {path : StorePath}
    {bytes : List UInt8}
    (h : verifyFile lib bytes reference.digest.hex reference.lengthBytes = .ok ()) :
    verifyAnswer lib reference path bytes = .ok path := by
  rw [verifyAnswer, h]

/-- `verify`, by a store of one owner, with nothing between its file system calls. -/
def verify (lib : BlobLib) (files : Tree StorePath UInt8) (owner : String)
    (reference : BlobRef) : Except BlobStoreError StorePath := do
  let path ← verifyReference lib owner reference
  let bytes ← okOr (files.read path) BlobStoreError.missing
  verifyAnswer lib reference path bytes

/-- What `verify` answers when the file is there. -/
theorem verify_of_entry {lib : BlobLib} {files : Tree StorePath UInt8} {owner : String}
    {reference : BlobRef} {path : StorePath} {i : ℕ}
    (hchecks : verifyReference lib owner reference = .ok path)
    (hentry : files.entry path = some i) :
    verify lib files owner reference = verifyAnswer lib reference path (files.content i) := by
  have hread : files.read path = some (files.content i) := congrArg (Option.map _) hentry
  rw [verify, hchecks]
  change (okOr (files.read path) BlobStoreError.missing >>= fun bytes =>
    verifyAnswer lib reference path bytes) = _
  rw [hread]
  rfl

/-! ### Calls in progress -/

/-- An open file and what was read of it. -/
structure Reader where
  inode : ℕ
  read : List UInt8

/-- Where a call of `store` is. -/
inductive StorePhase
  /-- The arguments are parsed. -/
  | started
  /-- The staging file is open; `hashed` is what was handed to it and to the hasher. -/
  | streaming (id : Uuid) (inode : ℕ) (hashed : List UInt8)
  /-- The staging file is synced and closed. -/
  | synced (id : Uuid) (inode : ℕ) (bytes : List UInt8)
  /-- The link was made; `removals` is the number of removals before it. -/
  | linked (id : Uuid) (bytes : List UInt8) (removals : ℕ)
  /-- The link found its name in use. -/
  | colliding (id : Uuid) (bytes : List UInt8)
  /-- The file in its place is read; `removals` is the number of removals before it was opened. -/
  | comparing (id : Uuid) (bytes : List UInt8) (removals : ℕ) (reader : Reader)
  /-- The file in its place was right. -/
  | compared (id : Uuid) (bytes : List UInt8) (removals : ℕ)

/-- The staging file of a call. -/
def StorePhase.stagingId : StorePhase → Option Uuid
  | .started => none
  | .streaming id .. | .synced id .. | .linked id .. | .colliding id .. | .comparing id ..
  | .compared id .. => some id

/-- Where a call of `verify` is. -/
inductive VerifyPhase
  /-- The reference passed. -/
  | checked (path : StorePath)
  /-- The metadata is that of a file. -/
  | present (path : StorePath)
  /-- The file is read; `atOnce` is the answer of an undivided call when it was opened. -/
  | reading (path : StorePath) (reader : Reader) (atOnce : Except BlobStoreError StorePath)

/-- A call in progress, by a store of one owner. -/
inductive BlobCall
  | store (owner mediaType : String) (phase : StorePhase)
  | verify (owner : String) (reference : BlobRef) (phase : VerifyPhase)

/-- A reference that a store of `bytes` returned. -/
structure Stored where
  owner : String
  bytes : List UInt8
  reference : BlobRef
  /-- The number of removals before the store linked its file, or opened the one in its place. -/
  removals : ℕ

/-- What a call of `verify` answered, and what an undivided call would have answered when it opened
the file. -/
structure Verified where
  atOnce : Except BlobStoreError StorePath
  answer : Except BlobStoreError StorePath

/-- The root and the calls on it. -/
structure BlobRoot where
  files : Tree StorePath UInt8
  /-- The next `Uuid::now_v7`. -/
  nextUuid : Uuid
  calls : ℕ → Option BlobCall
  /-- The digests given to `remove_digest`, in order. -/
  removed : List String
  returned : List Stored
  verified : List Verified

namespace BlobRoot

/-- A new root. -/
def empty : BlobRoot := ⟨Tree.empty, 0, fun _ => none, [], [], []⟩

/-- A call moves on. -/
def withCall (s : BlobRoot) (k : ℕ) (c : BlobCall) : BlobRoot :=
  { s with calls := Function.update s.calls k (some c) }

/-- A call ends: it returns, or its process stops. -/
def endCall (s : BlobRoot) (k : ℕ) : BlobRoot :=
  { s with calls := Function.update s.calls k none }

/-- A name is removed. -/
def unlink (s : BlobRoot) (path : StorePath) : BlobRoot := { s with files := s.files.unlink path }

/-- The name of a digest is removed. -/
def removeName (s : BlobRoot) (digest : String) (path : StorePath) : BlobRoot :=
  { s with files := s.files.unlink path, removed := s.removed ++ [digest] }

/-- A new staging file for call `k`. -/
def createStaging (lib : BlobLib) (s : BlobRoot) (k : ℕ) (owner mediaType : String) : BlobRoot :=
  let created := s.files.create (stagingPath lib s.nextUuid)
  { s with
    files := created.1
    nextUuid := s.nextUuid + 1
    calls := Function.update s.calls k
      (some (.store owner mediaType (.streaming s.nextUuid created.2 []))) }

end BlobRoot

/-- The reference that `store` returns. -/
def blobRefOf (lib : BlobLib) (owner mediaType : String) (bytes : List UInt8) : BlobRef :=
  ⟨owner, ⟨.sha256, lib.digest bytes⟩, mediaType, bytes.length⟩

/-! ### Steps -/

/-- A `store` returns. -/
def BlobRoot.storeReturns (lib : BlobLib) (s : BlobRoot) (k : ℕ) (owner mediaType : String)
    (bytes : List UInt8) (removals : ℕ) : BlobRoot :=
  { s.endCall k with
    returned := s.returned ++ [⟨owner, bytes, blobRefOf lib owner mediaType bytes, removals⟩] }

/-- A `verify` returns what it found in the file. -/
def BlobRoot.verifyReturns (s : BlobRoot) (k : ℕ) (v : Verified) : BlobRoot :=
  { s.endCall k with verified := s.verified ++ [v] }

/-- `read` of the next bytes of a file into a buffer of 8192. -/
def Reader.Next (files : Tree StorePath UInt8) (r : Reader) (bytes : List UInt8) : Prop :=
  bytes ≠ [] ∧ bytes.length ≤ 8192 ∧ r.read ++ bytes <+: files.content r.inode

/-- `read` found the end of the file. -/
def Reader.AtEnd (files : Tree StorePath UInt8) (r : Reader) : Prop :=
  r.read = files.content r.inode

/-- One step: a file system call of a call in progress, its begin or its end. -/
inductive StoreStep (lib : BlobLib) : BlobRoot → BlobRoot → Prop
  | beginStore {s : BlobRoot} {k : ℕ} {owner mediaType : String} (hfree : s.calls k = none)
      (howner : lib.ownerIsValid owner = true) (hmedia : lib.mediaTypeIsValid mediaType = true) :
      StoreStep lib s (s.withCall k (.store owner mediaType .started))
  /-- `File::create`. -/
  | create {s : BlobRoot} {k : ℕ} {owner mediaType : String}
      (hcall : s.calls k = some (.store owner mediaType .started)) :
      StoreStep lib s (s.createStaging lib k owner mediaType)
  /-- The stream has another chunk: it is handed to the file and to the hasher. -/
  | chunk {s : BlobRoot} {k : ℕ} {owner mediaType : String} {id : Uuid} {inode : ℕ}
      {hashed bytes : List UInt8}
      (hcall : s.calls k = some (.store owner mediaType (.streaming id inode hashed)))
      (hlength : (hashed ++ bytes).length < 2 ^ 64) :
      StoreStep lib s
        (s.withCall k (.store owner mediaType (.streaming id inode (hashed ++ bytes))))
  /-- Bytes that were handed to the file reach it. -/
  | write {s : BlobRoot} {k : ℕ} {owner mediaType : String} {id : Uuid} {inode : ℕ}
      {hashed bytes : List UInt8}
      (hcall : s.calls k = some (.store owner mediaType (.streaming id inode hashed)))
      (hbytes : s.files.content inode ++ bytes <+: hashed) :
      StoreStep lib s { s with files := s.files.append inode bytes }
  /-- The stream has ended; `flush` and `sync_all` return when all bytes have reached the file. -/
  | sync {s : BlobRoot} {k : ℕ} {owner mediaType : String} {id : Uuid} {inode : ℕ}
      {hashed : List UInt8}
      (hcall : s.calls k = some (.store owner mediaType (.streaming id inode hashed)))
      (hwritten : s.files.content inode = hashed) :
      StoreStep lib s (s.withCall k (.store owner mediaType (.synced id inode hashed)))
  /-- `hard_link` makes the link. -/
  | link {s : BlobRoot} {k : ℕ} {owner mediaType : String} {id : Uuid} {inode : ℕ}
      {bytes : List UInt8} {target : StorePath} {files : Tree StorePath UInt8}
      (hcall : s.calls k = some (.store owner mediaType (.synced id inode bytes)))
      (hhex : lib.hexIsValid (lib.digest bytes) = true)
      (htarget : pathForDigest (lib.digest bytes) = some target)
      (hlink : s.files.link (stagingPath lib id) target = .ok files) :
      StoreStep lib s ({ s with files := files }.withCall k
        (.store owner mediaType (.linked id bytes s.removed.length)))
  /-- `hard_link` finds its name in use. -/
  | collide {s : BlobRoot} {k : ℕ} {owner mediaType : String} {id : Uuid} {inode : ℕ}
      {bytes : List UInt8} {target : StorePath}
      (hcall : s.calls k = some (.store owner mediaType (.synced id inode bytes)))
      (hhex : lib.hexIsValid (lib.digest bytes) = true)
      (htarget : pathForDigest (lib.digest bytes) = some target)
      (hlink : s.files.link (stagingPath lib id) target = .error .alreadyExists) :
      StoreStep lib s (s.withCall k (.store owner mediaType (.colliding id bytes)))
  /-- `verify_file` opens the file in its place. -/
  | openTarget {s : BlobRoot} {k : ℕ} {owner mediaType : String} {id : Uuid} {inode : ℕ}
      {bytes : List UInt8} {target : StorePath}
      (hcall : s.calls k = some (.store owner mediaType (.colliding id bytes)))
      (htarget : pathForDigest (lib.digest bytes) = some target)
      (hentry : s.files.entry target = some inode) :
      StoreStep lib s (s.withCall k
        (.store owner mediaType (.comparing id bytes s.removed.length ⟨inode, []⟩)))
  | readTarget {s : BlobRoot} {k : ℕ} {owner mediaType : String} {id : Uuid} {removals : ℕ}
      {bytes next : List UInt8} {reader : Reader}
      (hcall : s.calls k = some (.store owner mediaType (.comparing id bytes removals reader)))
      (hnext : reader.Next s.files next) :
      StoreStep lib s (s.withCall k (.store owner mediaType
        (.comparing id bytes removals ⟨reader.inode, reader.read ++ next⟩)))
  | compare {s : BlobRoot} {k : ℕ} {owner mediaType : String} {id : Uuid} {removals : ℕ}
      {bytes : List UInt8} {reader : Reader}
      (hcall : s.calls k = some (.store owner mediaType (.comparing id bytes removals reader)))
      (hend : reader.AtEnd s.files)
      (hsame : verifyFile lib reader.read (lib.digest bytes) bytes.length = .ok ()) :
      StoreStep lib s (s.withCall k (.store owner mediaType (.compared id bytes removals)))
  /-- The staging name is removed after the link, and the reference is returned. -/
  | returnLinked {s : BlobRoot} {k : ℕ} {owner mediaType : String} {id : Uuid} {removals : ℕ}
      {bytes : List UInt8}
      (hcall : s.calls k = some (.store owner mediaType (.linked id bytes removals)))
      (hentry : s.files.entry (stagingPath lib id) ≠ none) :
      StoreStep lib s ((s.unlink (stagingPath lib id)).storeReturns lib k owner mediaType bytes
        removals)
  /-- The staging name is removed, or not, and the reference to the file in place is returned. -/
  | returnCompared {s : BlobRoot} {k : ℕ} {owner mediaType : String} {id : Uuid} {removals : ℕ}
      {bytes : List UInt8}
      (hcall : s.calls k = some (.store owner mediaType (.compared id bytes removals)))
      (removes : Bool) :
      StoreStep lib s ((bif removes then s.unlink (stagingPath lib id) else s).storeReturns lib k
        owner mediaType bytes removals)
  /-- A store that failed removes its staging name and returns an error. -/
  | discard {s : BlobRoot} {k : ℕ} {owner mediaType : String} {phase : StorePhase} {id : Uuid}
      (hcall : s.calls k = some (.store owner mediaType phase)) (hid : phase.stagingId = some id) :
      StoreStep lib s ((s.unlink (stagingPath lib id)).endCall k)
  /-- `prepare` removes a staging name. -/
  | sweep {s : BlobRoot} {name : String} (hname : isStagingName name = true) :
      StoreStep lib s (s.unlink (.staging name))
  /-- A call returns an error, or its process stops. -/
  | stop {s : BlobRoot} {k : ℕ} : StoreStep lib s (s.endCall k)
  | beginVerify {s : BlobRoot} {k : ℕ} {owner : String} {reference : BlobRef} {path : StorePath}
      (hfree : s.calls k = none) (hchecks : verifyReference lib owner reference = .ok path) :
      StoreStep lib s (s.withCall k (.verify owner reference (.checked path)))
  /-- `metadata`. -/
  | metadata {s : BlobRoot} {k : ℕ} {owner : String} {reference : BlobRef} {path : StorePath}
      (hcall : s.calls k = some (.verify owner reference (.checked path)))
      (hentry : s.files.entry path ≠ none) :
      StoreStep lib s (s.withCall k (.verify owner reference (.present path)))
  | openVerified {s : BlobRoot} {k : ℕ} {owner : String} {reference : BlobRef}
      {path : StorePath} {inode : ℕ}
      (hcall : s.calls k = some (.verify owner reference (.present path)))
      (hentry : s.files.entry path = some inode) :
      StoreStep lib s (s.withCall k (.verify owner reference
        (.reading path ⟨inode, []⟩ (verify lib s.files owner reference))))
  | readVerified {s : BlobRoot} {k : ℕ} {owner : String} {reference : BlobRef}
      {path : StorePath} {next : List UInt8} {reader : Reader}
      {atOnce : Except BlobStoreError StorePath}
      (hcall : s.calls k = some (.verify owner reference (.reading path reader atOnce)))
      (hnext : reader.Next s.files next) :
      StoreStep lib s (s.withCall k (.verify owner reference
        (.reading path ⟨reader.inode, reader.read ++ next⟩ atOnce)))
  | returnVerified {s : BlobRoot} {k : ℕ} {owner : String} {reference : BlobRef}
      {path : StorePath} {reader : Reader} {atOnce : Except BlobStoreError StorePath}
      (hcall : s.calls k = some (.verify owner reference (.reading path reader atOnce)))
      (hend : reader.AtEnd s.files) :
      StoreStep lib s
        (s.verifyReturns k ⟨atOnce, verifyAnswer lib reference path reader.read⟩)
  /-- `remove_digest` of a well-formed digest; a file that is missing counts as removed. -/
  | removeDigest {s : BlobRoot} {digest : String} {path : StorePath}
      (hdigest : isSha256Hex digest = true) (hpath : pathForDigest digest = some path) :
      StoreStep lib s (s.removeName digest path)

/-- **The calls on one root**, from an empty one. -/
def blobSystem (lib : BlobLib) : Labelled.System BlobRoot Unit where
  init s := s = BlobRoot.empty
  step s _ t := StoreStep lib s t

/-! ### The invariant -/

/-- A call writes an inode. -/
def BlobRoot.Writes (s : BlobRoot) (k i : ℕ) : Prop :=
  ∃ owner mediaType id hashed, s.calls k = some (.store owner mediaType (.streaming id i hashed))

/-- An inode that a store is still writing. -/
def BlobRoot.Writing (s : BlobRoot) (i : ℕ) : Prop := ∃ k, s.Writes k i

/-- Unless its digest was removed since, the file of some bytes is in its place. -/
structure Promised (lib : BlobLib) (s : BlobRoot) (bytes : List UInt8) (removals : ℕ) : Prop where
  since : removals ≤ s.removed.length
  short : bytes.length < 2 ^ 64
  present : lib.digest bytes ∉ s.removed.drop removals →
    ∃ path i, pathForDigest (lib.digest bytes) = some path ∧ s.files.entry path = some i ∧
      (s.files.content i).length = bytes.length

/-- An open file is finished, and what was read of it is its beginning. -/
structure ReaderInv (s : BlobRoot) (r : Reader) : Prop where
  allocated : r.inode < s.files.next
  finished : ¬s.Writing r.inode
  read : r.read <+: s.files.content r.inode

/-- The staging file of a store, while its name is there. -/
structure StagedInv (lib : BlobLib) (s : BlobRoot) (id : Uuid) (i : ℕ) : Prop where
  used : id < s.nextUuid
  allocated : i < s.files.next
  entry : ∀ j, s.files.entry (stagingPath lib id) = some j → j = i

/-- What holds of a store in each phase. -/
def PhaseInv (lib : BlobLib) (s : BlobRoot) : StorePhase → Prop
  | .started => True
  | .streaming id i hashed =>
      StagedInv lib s id i ∧ s.files.content i <+: hashed ∧ hashed.length < 2 ^ 64
  | .synced id i bytes =>
      StagedInv lib s id i ∧ ¬s.Writing i ∧ s.files.content i = bytes ∧ bytes.length < 2 ^ 64
  | .linked _ bytes removals => Promised lib s bytes removals
  | .colliding _ bytes => bytes.length < 2 ^ 64
  | .comparing _ bytes removals r =>
      ReaderInv s r ∧ bytes.length < 2 ^ 64 ∧ removals ≤ s.removed.length ∧
        (lib.digest bytes ∉ s.removed.drop removals →
          ∃ path, pathForDigest (lib.digest bytes) = some path ∧
            s.files.entry path = some r.inode)
  | .compared _ bytes removals => Promised lib s bytes removals

/-- What holds of a call. -/
def BlobCallInv (lib : BlobLib) (s : BlobRoot) : BlobCall → Prop
  | .store _ mediaType phase => lib.mediaTypeIsValid mediaType = true ∧ PhaseInv lib s phase
  | .verify owner reference phase =>
      match phase with
      | .checked path | .present path => verifyReference lib owner reference = .ok path
      | .reading path r atOnce => ReaderInv s r ∧
          atOnce = verifyAnswer lib reference path (s.files.content r.inode)

/-- **The invariant of a root** between any two file system calls. -/
structure BlobRootInv (lib : BlobLib) (s : BlobRoot) : Prop where
  allocated : s.files.Allocated
  /-- The staging names in use are those of stores that have begun. -/
  names : ∀ id j, s.files.entry (stagingPath lib id) = some j → id < s.nextUuid
  /-- A file under a digest is finished and has the digest. -/
  blobs : ∀ head rest i, s.files.entry (.blob head rest) = some i →
    ¬s.Writing i ∧ lib.digest (s.files.content i) = head ++ rest
  calls : ∀ k c, s.calls k = some c → BlobCallInv lib s c
  /-- No two stores write one file. -/
  apart : ∀ k k' i, s.Writes k i → s.Writes k' i → k = k'
  returned : ∀ r ∈ s.returned, Promised lib s r.bytes r.removals ∧ ∃ mediaType,
    lib.mediaTypeIsValid mediaType = true ∧ r.reference = blobRefOf lib r.owner mediaType r.bytes
  verified : ∀ v ∈ s.verified, v.answer = v.atOnce

/-- A file under a digest can be opened. -/
theorem BlobRootInv.opened {lib : BlobLib} {s : BlobRoot} (hinv : BlobRootInv lib s)
    {digest : String} {path : StorePath} (hpath : pathForDigest digest = some path) {inode : ℕ}
    (hentry : s.files.entry path = some inode) : ReaderInv s ⟨inode, []⟩ := by
  obtain ⟨head, rest, rfl, -⟩ := eq_of_pathForDigest hpath
  exact ⟨hinv.allocated _ _ hentry, (hinv.blobs _ _ _ hentry).1, List.nil_prefix⟩

/-- What a step keeps for the calls that do not take it. -/
structure BlobKept (lib : BlobLib) (s s' : BlobRoot) : Prop where
  next : s.files.next ≤ s'.files.next
  uuid : s.nextUuid ≤ s'.nextUuid
  staging : ∀ id j, s'.files.entry (stagingPath lib id) = some j →
    s.files.entry (stagingPath lib id) = some j ∨ s.nextUuid ≤ id ∧ id < s'.nextUuid
  /-- Finished files stay finished, with their bytes. -/
  finished : ∀ i < s.files.next, ¬s.Writing i →
    ¬s'.Writing i ∧ s'.files.content i = s.files.content i
  /-- A file that is written holds what its store handed to it. -/
  streams : ∀ k owner media id i hashed,
    s.calls k = some (.store owner media (.streaming id i hashed)) → i < s.files.next →
    s.files.content i <+: hashed → s'.files.content i <+: hashed
  removed : ∃ more, s'.removed = s.removed ++ more ∧ ∀ digest path i, digest ∉ more →
    pathForDigest digest = some path → s.files.entry path = some i →
      s'.files.entry path = some i

section Kept

variable {lib : BlobLib} {s s' : BlobRoot}

theorem StagedInv.kept {id : Uuid} {i : ℕ} (hkept : BlobKept lib s s')
    (h : StagedInv lib s id i) : StagedInv lib s' id i where
  used := h.used.trans_le hkept.uuid
  allocated := h.allocated.trans_le hkept.next
  entry j hj := by
    rcases hkept.staging id j hj with hold | ⟨hnew, -⟩
    · exact h.entry j hold
    · exact absurd h.used (Nat.not_lt.mpr hnew)

theorem ReaderInv.kept {r : Reader} (hkept : BlobKept lib s s') (h : ReaderInv s r) :
    ReaderInv s' r := by
  obtain ⟨hfinished, hcontent⟩ := hkept.finished r.inode h.allocated h.finished
  exact ⟨h.allocated.trans_le hkept.next, hfinished, hcontent ▸ h.read⟩

/-- A removal that did not happen before did not happen at all when none was added. -/
theorem not_mem_drop_of_append {α : Type} {x : α} {l more : List α} {n : ℕ} (hn : n ≤ l.length)
    (h : x ∉ (l ++ more).drop n) : x ∉ l.drop n ∧ x ∉ more := by
  rw [List.drop_append_of_le_length hn, List.mem_append, not_or] at h
  exact h

theorem Promised.kept {bytes : List UInt8} {removals : ℕ} (hinv : BlobRootInv lib s)
    (hkept : BlobKept lib s s') (h : Promised lib s bytes removals) :
    Promised lib s' bytes removals := by
  obtain ⟨more, hremoved, hentry⟩ := hkept.removed
  refine ⟨?_, h.short, fun hnot => ?_⟩
  · rw [hremoved, List.length_append]
    exact Nat.le_add_right_of_le h.since
  · rw [hremoved] at hnot
    obtain ⟨hbefore, hmore⟩ := not_mem_drop_of_append h.since hnot
    obtain ⟨path, i, hpath, hi, hlength⟩ := h.present hbefore
    obtain ⟨head, rest, rfl, -⟩ := eq_of_pathForDigest hpath
    obtain ⟨-, hcontent⟩ := hkept.finished i (hinv.allocated _ i hi) (hinv.blobs _ _ i hi).1
    exact ⟨_, i, hpath, hentry _ _ i hmore hpath hi, hcontent ▸ hlength⟩

/-- **What holds of a call** is kept by the steps of others. -/
theorem BlobCallInv.kept {k : ℕ} {c : BlobCall} (hinv : BlobRootInv lib s)
    (hkept : BlobKept lib s s') (hcall : s.calls k = some c) : BlobCallInv lib s' c := by
  have h := hinv.calls k c hcall
  cases c with
  | store owner mediaType phase =>
      obtain ⟨hmedia, h⟩ := h
      refine ⟨hmedia, ?_⟩
      cases phase with
      | started => trivial
      | streaming id i hashed =>
          obtain ⟨hstaged, hcontent, hlength⟩ := h
          exact ⟨hstaged.kept hkept,
            hkept.streams k owner mediaType id i hashed hcall hstaged.allocated hcontent, hlength⟩
      | synced id i bytes =>
          obtain ⟨hstaged, hfinished, hcontent, hlength⟩ := h
          obtain ⟨hfinished', hsame⟩ := hkept.finished i hstaged.allocated hfinished
          exact ⟨hstaged.kept hkept, hfinished', hsame.trans hcontent, hlength⟩
      | linked id bytes removals => exact Promised.kept hinv hkept h
      | colliding id bytes => exact h
      | comparing id bytes removals r =>
          obtain ⟨hreader, hlength, hsince, hplace⟩ := h
          obtain ⟨more, hremoved, hentry⟩ := hkept.removed
          refine ⟨hreader.kept hkept, hlength, ?_, fun hnot => ?_⟩
          · rw [hremoved, List.length_append]
            exact Nat.le_add_right_of_le hsince
          · rw [hremoved] at hnot
            obtain ⟨hbefore, hmore⟩ := not_mem_drop_of_append hsince hnot
            obtain ⟨path, hpath, hi⟩ := hplace hbefore
            exact ⟨path, hpath, hentry _ _ _ hmore hpath hi⟩
      | compared id bytes removals => exact Promised.kept hinv hkept h
  | verify owner reference phase =>
      cases phase with
      | checked path => exact h
      | present path => exact h
      | reading path r atOnce =>
          obtain ⟨hreader, hanswer⟩ := h
          obtain ⟨-, hsame⟩ := hkept.finished r.inode hreader.allocated hreader.finished
          exact ⟨hreader.kept hkept, hsame ▸ hanswer⟩

/-- A step that leaves the files alone, and lets no call write what it did not write before. -/
theorem BlobKept.of_calls (hfiles : s'.files = s.files) (huuid : s'.nextUuid = s.nextUuid)
    (hremoved : s'.removed = s.removed) (hwrites : ∀ k i, s'.Writes k i → s.Writes k i) :
    BlobKept lib s s' where
  next := (congrArg Tree.next hfiles).ge
  uuid := huuid.ge
  staging id j hj := .inl (hfiles ▸ hj)
  finished i _ hi :=
    ⟨fun ⟨k, hk⟩ => hi ⟨k, hwrites k i hk⟩, congrFun (congrArg Tree.content hfiles) i⟩
  streams _ _ _ _ _ _ _ _ h := hfiles ▸ h
  removed := ⟨[], by rw [hremoved, List.append_nil], fun _ _ _ _ _ h => hfiles ▸ h⟩

/-- **The invariant after a step**, from what the step keeps and what is new. -/
theorem BlobRootInv.of_kept (hinv : BlobRootInv lib s) (hkept : BlobKept lib s s')
    (hallocated : s'.files.Allocated)
    (hblobs : ∀ head rest i, s'.files.entry (.blob head rest) = some i →
      s.files.entry (.blob head rest) = some i ∨
        ¬s'.Writing i ∧ lib.digest (s'.files.content i) = head ++ rest)
    (hcalls : ∀ k c, s'.calls k = some c → s.calls k = some c ∨ BlobCallInv lib s' c)
    (hapart : ∀ k k' i, s'.Writes k i → s'.Writes k' i → k = k')
    (hreturned : ∀ r ∈ s'.returned, r ∈ s.returned ∨
      Promised lib s' r.bytes r.removals ∧ ∃ mediaType, lib.mediaTypeIsValid mediaType = true ∧
        r.reference = blobRefOf lib r.owner mediaType r.bytes)
    (hverified : ∀ v ∈ s'.verified, v ∈ s.verified ∨ v.answer = v.atOnce) :
    BlobRootInv lib s' where
  allocated := hallocated
  names id j hj := by
    rcases hkept.staging id j hj with hold | ⟨-, hnew⟩
    · exact (hinv.names id j hold).trans_le hkept.uuid
    · exact hnew
  blobs head rest i hi := by
    rcases hblobs head rest i hi with hold | hnew
    · obtain ⟨hfinished, hdigest⟩ := hinv.blobs head rest i hold
      obtain ⟨hfinished', hcontent⟩ := hkept.finished i (hinv.allocated _ i hold) hfinished
      exact ⟨hfinished', hcontent ▸ hdigest⟩
    · exact hnew
  calls k c hc := by
    rcases hcalls k c hc with hold | hnew
    · exact BlobCallInv.kept hinv hkept hold
    · exact hnew
  apart := hapart
  returned r hr := by
    rcases hreturned r hr with hold | hnew
    · obtain ⟨hpromised, hreference⟩ := hinv.returned r hold
      exact ⟨hpromised.kept hinv hkept, hreference⟩
    · exact hnew
  verified v hv := by
    rcases hverified v hv with hold | hnew
    · exact hinv.verified v hold
    · exact hnew

/-! ### Calls that move on -/

/-- When call `k` moves on, the others write what they wrote. -/
theorem writes_withCall {k : ℕ} {c : BlobCall}
    (hown : ∀ i, (s.withCall k c).Writes k i → s.Writes k i) :
    ∀ k' i, (s.withCall k c).Writes k' i → s.Writes k' i := by
  intro k' i hwrites
  by_cases hk : k' = k
  · subst hk
    exact hown i hwrites
  · obtain ⟨owner, media, id, hashed, hcall⟩ := hwrites
    obtain ⟨hk', -⟩ | ⟨-, hcall⟩ := update_some_eq_some hcall
    · exact absurd hk' hk
    · exact ⟨owner, media, id, hashed, hcall⟩

/-- A call that is in no streaming phase writes nothing. -/
theorem not_writes_withCall {k : ℕ} {c : BlobCall}
    (hc : ∀ owner media id i hashed, c ≠ .store owner media (.streaming id i hashed)) (i : ℕ) :
    ¬(s.withCall k c).Writes k i := by
  rintro ⟨owner, media, id, hashed, hcall⟩
  obtain ⟨-, heq⟩ | ⟨hk, -⟩ := update_some_eq_some hcall
  · exact hc _ _ _ _ _ heq.symm
  · exact hk rfl

/-- **A call moves on** without touching a file. -/
theorem BlobRootInv.withCall {k : ℕ} {c : BlobCall} (hinv : BlobRootInv lib s)
    (hown : ∀ i, (s.withCall k c).Writes k i → s.Writes k i)
    (hc : BlobKept lib s (s.withCall k c) → BlobCallInv lib (s.withCall k c) c) :
    BlobRootInv lib (s.withCall k c) := by
  have hwrites := writes_withCall hown
  have hkept : BlobKept lib s (s.withCall k c) := BlobKept.of_calls rfl rfl rfl hwrites
  refine hinv.of_kept hkept hinv.allocated (fun _ _ _ h => .inl h) ?_
    (fun k₁ k₂ i h₁ h₂ => hinv.apart k₁ k₂ i (hwrites k₁ i h₁) (hwrites k₂ i h₂))
    (fun _ h => .inl h) (fun _ h => .inl h)
  intro k' c' hcall
  obtain ⟨-, rfl⟩ | ⟨-, hcall⟩ := update_some_eq_some hcall
  · exact .inr (hc hkept)
  · exact .inl hcall

/-- A call that moves on to a phase in which it writes nothing. -/
theorem BlobRootInv.moveOn {k : ℕ} {c : BlobCall} (hinv : BlobRootInv lib s)
    (hwrites : ∀ owner media id i hashed, c ≠ .store owner media (.streaming id i hashed))
    (hc : BlobKept lib s (s.withCall k c) → BlobCallInv lib (s.withCall k c) c) :
    BlobRootInv lib (s.withCall k c) :=
  hinv.withCall (fun i h => absurd h (not_writes_withCall hwrites i)) hc

/-- When a call ends, the others write what they wrote. -/
theorem writes_endCall {k : ℕ} : ∀ k' i, (s.endCall k).Writes k' i → s.Writes k' i :=
  fun _ _ ⟨owner, media, id, hashed, hcall⟩ =>
    ⟨owner, media, id, hashed, (update_none_eq_some hcall).2⟩

theorem BlobKept.endCall (k : ℕ) : BlobKept lib s (s.endCall k) :=
  BlobKept.of_calls rfl rfl rfl writes_endCall

theorem BlobRootInv.endCall (hinv : BlobRootInv lib s) (k : ℕ) :
    BlobRootInv lib (s.endCall k) :=
  hinv.of_kept (BlobKept.endCall k) hinv.allocated (fun _ _ _ h => .inl h)
    (fun _ _ hcall => .inl (update_none_eq_some hcall).2)
    (fun k₁ k₂ i h₁ h₂ => hinv.apart k₁ k₂ i (writes_endCall k₁ i h₁) (writes_endCall k₂ i h₂))
    (fun _ h => .inl h) (fun _ h => .inl h)

/-- **A store returns** the reference of bytes whose file is in place. -/
theorem BlobRootInv.storeReturns {k : ℕ} {owner mediaType : String} {bytes : List UInt8}
    {removals : ℕ} (hinv : BlobRootInv lib s) (hmedia : lib.mediaTypeIsValid mediaType = true)
    (hpromised : Promised lib s bytes removals) :
    BlobRootInv lib (s.storeReturns lib k owner mediaType bytes removals) := by
  have hkept : BlobKept lib s (s.storeReturns lib k owner mediaType bytes removals) :=
    BlobKept.of_calls rfl rfl rfl writes_endCall
  refine hinv.of_kept hkept hinv.allocated (fun _ _ _ h => .inl h)
    (fun _ _ hcall => .inl (update_none_eq_some hcall).2)
    (fun k₁ k₂ i h₁ h₂ => hinv.apart k₁ k₂ i (writes_endCall k₁ i h₁) (writes_endCall k₂ i h₂))
    (fun r hr => ?_) (fun _ h => .inl h)
  rcases List.mem_append.mp hr with hold | hnew
  · exact .inl hold
  · obtain rfl := List.mem_singleton.mp hnew
    exact .inr ⟨hpromised.kept hinv hkept, mediaType, hmedia, rfl⟩

/-- **A verification returns** what an undivided one would have answered. -/
theorem BlobRootInv.verifyReturns {k : ℕ} {v : Verified} (hinv : BlobRootInv lib s)
    (hv : v.answer = v.atOnce) : BlobRootInv lib (s.verifyReturns k v) := by
  have hkept : BlobKept lib s (s.verifyReturns k v) :=
    BlobKept.of_calls rfl rfl rfl writes_endCall
  refine hinv.of_kept hkept hinv.allocated (fun _ _ _ h => .inl h)
    (fun _ _ hcall => .inl (update_none_eq_some hcall).2)
    (fun k₁ k₂ i h₁ h₂ => hinv.apart k₁ k₂ i (writes_endCall k₁ i h₁) (writes_endCall k₂ i h₂))
    (fun _ h => .inl h) (fun v' hv' => ?_)
  rcases List.mem_append.mp hv' with hold | hnew
  · exact .inl hold
  · obtain rfl := List.mem_singleton.mp hnew
    exact .inr hv

/-! ### Calls of the file system -/

/-- A staging name is removed. -/
theorem BlobRootInv.unlinkStaging (hinv : BlobRootInv lib s) (name : String) :
    BlobRootInv lib (s.unlink (.staging name)) := by
  have hblob : ∀ head rest, (s.files.unlink (.staging name)).entry (.blob head rest) =
      s.files.entry (.blob head rest) := fun _ _ => Tree.entry_unlink_of_ne (nofun)
  have hkept : BlobKept lib s (s.unlink (.staging name)) := {
    next := Nat.le_refl _
    uuid := Nat.le_refl _
    staging := fun _ _ hj => .inl (Tree.entry_unlink_eq_some hj).2
    finished := fun i _ hi => ⟨hi, rfl⟩
    streams := fun _ _ _ _ _ _ _ _ h => h
    removed := ⟨[], (List.append_nil _).symm, fun digest path i _ hpath hi => by
      obtain ⟨head, rest, rfl, -⟩ := eq_of_pathForDigest hpath
      exact (hblob head rest).trans hi⟩ }
  exact hinv.of_kept hkept (hinv.allocated.unlink _)
    (fun head rest i hi => .inl ((hblob head rest).symm.trans hi)) (fun _ _ h => .inl h)
    hinv.apart (fun _ h => .inl h) (fun _ h => .inl h)

/-- A digest is removed: what was promised about it is void. -/
theorem BlobRootInv.removeDigest {digest : String} {path : StorePath}
    (hinv : BlobRootInv lib s) (hpath : pathForDigest digest = some path) :
    BlobRootInv lib (s.removeName digest path) := by
  obtain ⟨head, rest, rfl, -⟩ := eq_of_pathForDigest hpath
  have hkept : BlobKept lib s (s.removeName digest (.blob head rest)) := {
    next := Nat.le_refl _
    uuid := Nat.le_refl _
    staging := fun _ _ hj => .inl (Tree.entry_unlink_eq_some hj).2
    finished := fun i _ hi => ⟨hi, rfl⟩
    streams := fun _ _ _ _ _ _ _ _ h => h
    removed := ⟨[digest], rfl, fun other path i hother hother' hi => by
      have hne : path ≠ .blob head rest := by
        rintro rfl
        exact hother (List.mem_singleton.mpr (pathForDigest_injective hother' hpath))
      exact (Tree.entry_unlink_of_ne hne).trans hi⟩ }
  exact hinv.of_kept hkept (hinv.allocated.unlink _)
    (fun head rest i hi => .inl (Tree.entry_unlink_eq_some hi).2) (fun _ _ h => .inl h)
    hinv.apart (fun _ h => .inl h) (fun _ h => .inl h)

/-- What a new staging file changes. -/
theorem createStaging_eq {k : ℕ} {owner mediaType : String}
    (hfresh : s.files.entry (stagingPath lib s.nextUuid) = none) :
    s.createStaging lib k owner mediaType =
      { s with
        files := s.files.addFile (stagingPath lib s.nextUuid)
        nextUuid := s.nextUuid + 1
        calls := Function.update s.calls k
          (some (.store owner mediaType (.streaming s.nextUuid s.files.next []))) } := by
  rw [BlobRoot.createStaging, Tree.create_of_none hfresh]

/-- A new staging file is written by its own store only. -/
theorem BlobRootInv.createStaging {k : ℕ} {owner mediaType : String} (hinv : BlobRootInv lib s)
    (hmedia : lib.mediaTypeIsValid mediaType = true) :
    BlobRootInv lib (s.createStaging lib k owner mediaType) := by
  have hfresh : s.files.entry (stagingPath lib s.nextUuid) = none := by
    refine Option.eq_none_iff_forall_ne_some.mpr fun j hj => ?_
    exact Nat.lt_irrefl _ (hinv.names _ j hj)
  have hallocated : (s.createStaging lib k owner mediaType).files.Allocated :=
    hinv.allocated.create hfresh
  rw [createStaging_eq hfresh] at hallocated ⊢
  set s' : BlobRoot := { s with files := _, nextUuid := _, calls := _ } with hs'
  have hwrites : ∀ k' i, s'.Writes k' i → k' = k ∧ i = s.files.next ∨ s.Writes k' i := by
    rintro k' i ⟨owner', media', id, hashed, hcall⟩
    obtain ⟨rfl, heq⟩ | ⟨-, hcall⟩ := update_some_eq_some hcall
    · cases heq
      exact .inl ⟨rfl, rfl⟩
    · exact .inr ⟨owner', media', id, hashed, hcall⟩
  have hwritten : ∀ k' i, s.Writes k' i → i < s.files.next := by
    rintro k' i ⟨owner', media', id, hashed, hcall⟩
    exact (hinv.calls k' _ hcall).2.1.allocated
  have hcontent : ∀ i < s.files.next, s'.files.content i = s.files.content i :=
    fun i hi => Tree.content_addFile_of_ne (Nat.ne_of_lt hi)
  have hkept : BlobKept lib s s' := {
    next := Nat.le_succ _
    uuid := Nat.le_succ _
    staging := fun id j hj => by
      obtain ⟨hpath, -⟩ | ⟨-, hj⟩ := Tree.entry_addFile_eq_some hj
      · obtain rfl := stagingPath_injective lib hpath
        exact .inr ⟨Nat.le_refl _, Nat.lt_succ_self _⟩
      · exact .inl hj
    finished := fun i hi hnot => by
      refine ⟨fun ⟨k', hk'⟩ => ?_, hcontent i hi⟩
      rcases hwrites k' i hk' with ⟨-, rfl⟩ | hold
      · exact Nat.lt_irrefl _ hi
      · exact hnot ⟨k', hold⟩
    streams := fun _ _ _ _ i _ _ hi hprefix => (hcontent i hi).symm ▸ hprefix
    removed := ⟨[], (List.append_nil _).symm, fun _ path i _ hpath hi => by
      obtain ⟨head, rest, rfl, -⟩ := eq_of_pathForDigest hpath
      exact (Tree.entry_addFile_of_ne (fun h => by cases h)).trans hi⟩ }
  refine hinv.of_kept hkept hallocated (fun head rest i hi => ?_) (fun k' c hcall => ?_)
    (fun k₁ k₂ i h₁ h₂ => ?_) (fun _ h => .inl h) (fun _ h => .inl h)
  · obtain ⟨hpath, -⟩ | ⟨-, hi⟩ := Tree.entry_addFile_eq_some hi
    · cases hpath
    · exact .inl hi
  · obtain ⟨-, rfl⟩ | ⟨-, hcall⟩ := update_some_eq_some hcall
    · refine .inr ⟨hmedia, ⟨Nat.lt_succ_self _, Nat.lt_succ_self _, fun j hj => ?_⟩, ?_, ?_⟩
      · obtain ⟨-, rfl⟩ | ⟨hne, -⟩ := Tree.entry_addFile_eq_some hj
        · rfl
        · exact absurd rfl hne
      · exact (Tree.content_addFile_self s.files _).symm ▸ List.prefix_rfl
      · exact Nat.two_pow_pos 64
    · exact .inl hcall
  · rcases hwrites k₁ i h₁ with ⟨rfl, rfl⟩ | h₁
    · rcases hwrites k₂ _ h₂ with ⟨rfl, -⟩ | h₂
      · rfl
      · exact absurd (hwritten k₂ _ h₂) (Nat.lt_irrefl _)
    · rcases hwrites k₂ i h₂ with ⟨-, rfl⟩ | h₂
      · exact absurd (hwritten k₁ _ h₁) (Nat.lt_irrefl _)
      · exact hinv.apart k₁ k₂ i h₁ h₂

/-- Bytes reach the file of a store. -/
theorem BlobRootInv.write {k : ℕ} {owner mediaType : String} {id : Uuid} {inode : ℕ}
    {hashed bytes : List UInt8} (hinv : BlobRootInv lib s)
    (hcall : s.calls k = some (.store owner mediaType (.streaming id inode hashed)))
    (hbytes : s.files.content inode ++ bytes <+: hashed) :
    BlobRootInv lib { s with files := s.files.append inode bytes } := by
  have hwrites : s.Writes k inode := ⟨owner, mediaType, id, hashed, hcall⟩
  have hkept : BlobKept lib s { s with files := s.files.append inode bytes } := {
    next := Nat.le_refl _
    uuid := Nat.le_refl _
    staging := fun _ _ hj => .inl hj
    finished := fun i _ hi => ⟨hi, Tree.content_append_of_ne
      (fun heq => hi ⟨k, by rw [heq]; exact hwrites⟩) bytes⟩
    streams := fun k' owner' media' id' i hashed' hcall' _ hprefix => by
      by_cases heq : i = inode
      · subst heq
        obtain rfl := hinv.apart k' k i ⟨owner', media', id', hashed', hcall'⟩ hwrites
        rw [hcall] at hcall'
        cases hcall'
        change (s.files.append i bytes).content i <+: hashed
        rw [Tree.content_append_self]
        exact hbytes
      · change (s.files.append inode bytes).content i <+: hashed'
        rw [Tree.content_append_of_ne heq]
        exact hprefix
    removed := ⟨[], (List.append_nil _).symm, fun _ _ _ _ _ hi => hi⟩ }
  exact hinv.of_kept hkept hinv.allocated (fun _ _ _ h => .inl h) (fun _ _ h => .inl h)
    hinv.apart (fun _ h => .inl h) (fun _ h => .inl h)

/-- **A finished staging file is linked** under its digest. -/
theorem BlobRootInv.link {k : ℕ} {owner mediaType : String} {id : Uuid} {inode : ℕ}
    {bytes : List UInt8} {target : StorePath} {files : Tree StorePath UInt8}
    (hinv : BlobRootInv lib s)
    (hcall : s.calls k = some (.store owner mediaType (.synced id inode bytes)))
    (htarget : pathForDigest (lib.digest bytes) = some target)
    (hlink : s.files.link (stagingPath lib id) target = .ok files) :
    BlobRootInv lib { s with files := files } ∧
      Promised lib { s with files := files } bytes s.removed.length := by
  obtain ⟨-, hstaged, hfinished, hcontent, hlength⟩ := hinv.calls k _ hcall
  have hallocated := hinv.allocated.link hlink
  obtain ⟨i, hi, hnone, rfl⟩ := Tree.link_eq_ok_iff.mp hlink
  obtain rfl := hstaged.entry i hi
  obtain ⟨head, rest, rfl, hspell⟩ := eq_of_pathForDigest htarget
  have hkept : BlobKept lib s { s with files := s.files.setEntry (.blob head rest) i } := {
    next := Nat.le_refl _
    uuid := Nat.le_refl _
    staging := fun _ _ hj => by
      obtain ⟨hpath, -⟩ | ⟨-, hj⟩ := Tree.entry_setEntry_eq_some hj
      · cases hpath
      · exact .inl hj
    finished := fun _ _ hi => ⟨hi, rfl⟩
    streams := fun _ _ _ _ _ _ _ _ h => h
    removed := ⟨[], (List.append_nil _).symm, fun _ path j _ _ hj => by
      have hne : path ≠ .blob head rest := by
        rintro rfl
        rw [hnone] at hj
        cases hj
      exact (Tree.entry_setEntry_of_ne hne).trans hj⟩ }
  have hinv' := hinv.of_kept hkept hallocated (fun head' rest' j hj => by
      obtain ⟨hpath, rfl⟩ | ⟨-, hj⟩ := Tree.entry_setEntry_eq_some hj
      · obtain ⟨rfl, rfl⟩ := StorePath.blob.inj hpath
        exact .inr ⟨hfinished, (congrArg lib.digest hcontent).trans hspell.symm⟩
      · exact .inl hj) (fun _ _ h => .inl h) hinv.apart (fun _ h => .inl h) (fun _ h => .inl h)
  refine ⟨hinv', Nat.le_refl _, hlength, fun _ => ⟨_, i, htarget, Function.update_self .., ?_⟩⟩
  exact congrArg List.length hcontent

/-- **Every step keeps the invariant.** -/
theorem BlobRootInv.step (hinv : BlobRootInv lib s) (hst : StoreStep lib s s') :
    BlobRootInv lib s' := by
  cases hst with
  | beginStore hfree howner hmedia => exact hinv.moveOn (by nofun) fun _ => ⟨hmedia, trivial⟩
  | create hcall => exact hinv.createStaging (hinv.calls _ _ hcall).1
  | chunk hcall hlength =>
      refine hinv.withCall (fun i hi => ?_) fun hkept => ?_
      · obtain ⟨owner, media, id, hashed, hnew⟩ := hi
        obtain ⟨-, heq⟩ | ⟨hk, -⟩ := update_some_eq_some hnew
        · cases heq
          exact ⟨_, _, _, _, hcall⟩
        · exact absurd rfl hk
      · obtain ⟨hmedia, hstaged, hcontent, -⟩ := BlobCallInv.kept hinv hkept hcall
        exact ⟨hmedia, hstaged, hcontent.trans (List.prefix_append _ _), hlength⟩
  | write hcall hbytes => exact hinv.write hcall hbytes
  | sync hcall hwritten =>
      rename_i k owner mediaType id inode hashed
      refine hinv.moveOn (by nofun) fun hkept => ?_
      obtain ⟨hmedia, hstaged, -, hlength⟩ := BlobCallInv.kept hinv hkept hcall
      refine ⟨hmedia, hstaged, ?_, hwritten, hlength⟩
      rintro ⟨k', hwrites⟩
      have hold : s.Writes k' inode :=
        writes_withCall (fun i h => absurd h (not_writes_withCall (by nofun) i)) k' inode hwrites
      obtain rfl := hinv.apart k' k inode hold ⟨owner, mediaType, id, hashed, hcall⟩
      exact not_writes_withCall (by nofun) inode hwrites
  | link hcall hhex htarget hlink =>
      obtain ⟨hinv', hpromised⟩ := hinv.link hcall htarget hlink
      exact hinv'.moveOn (by nofun) fun hkept =>
        ⟨(hinv.calls _ _ hcall).1, hpromised.kept hinv' hkept⟩
  | collide hcall hhex htarget hlink =>
      obtain ⟨hmedia, -, -, -, hlength⟩ := hinv.calls _ _ hcall
      exact hinv.moveOn (by nofun) fun _ => ⟨hmedia, hlength⟩
  | openTarget hcall htarget hentry =>
      obtain ⟨hmedia, hlength⟩ := hinv.calls _ _ hcall
      have hreader := hinv.opened htarget hentry
      exact hinv.moveOn (by nofun) fun hkept =>
        ⟨hmedia, hreader.kept hkept, hlength, Nat.le_refl _, fun _ => ⟨_, htarget, hentry⟩⟩
  | readTarget hcall hnext =>
      refine hinv.moveOn (by nofun) fun hkept => ?_
      obtain ⟨hmedia, hreader, hrest⟩ := BlobCallInv.kept hinv hkept hcall
      exact ⟨hmedia, ⟨hreader.allocated, hreader.finished, hnext.2.2⟩, hrest⟩
  | compare hcall hend hsame =>
      obtain ⟨hlong, hlength, -⟩ := verifyFile_eq_ok_iff.mp hsame
      refine hinv.moveOn (by nofun) fun hkept => ?_
      obtain ⟨hmedia, hreader, hshort, hsince, hplace⟩ := BlobCallInv.kept hinv hkept hcall
      refine ⟨hmedia, hsince, hshort, fun hnot => ?_⟩
      obtain ⟨path, hpath, hentry⟩ := hplace hnot
      exact ⟨path, _, hpath, hentry, (congrArg List.length hend).symm.trans hlength⟩
  | returnLinked hcall hentry =>
      rename_i id _ _
      obtain ⟨hmedia, -⟩ := hinv.calls _ _ hcall
      have hinv' : BlobRootInv lib (s.unlink (stagingPath lib id)) := hinv.unlinkStaging _
      exact hinv'.storeReturns hmedia (hinv'.calls _ _ hcall).2
  | returnCompared hcall removes =>
      rename_i id _ _
      obtain ⟨hmedia, hpromised⟩ := hinv.calls _ _ hcall
      cases removes with
      | false => exact hinv.storeReturns hmedia hpromised
      | true =>
          have hinv' : BlobRootInv lib (s.unlink (stagingPath lib id)) := hinv.unlinkStaging _
          exact hinv'.storeReturns hmedia (hinv'.calls _ _ hcall).2
  | discard hcall hid => exact (hinv.unlinkStaging _).endCall _
  | sweep hname => exact hinv.unlinkStaging _
  | stop => exact hinv.endCall _
  | beginVerify hfree hchecks => exact hinv.moveOn (by nofun) fun _ => hchecks
  | metadata hcall hentry =>
      have hchecks := hinv.calls _ _ hcall
      exact hinv.moveOn (by nofun) fun _ => hchecks
  | openVerified hcall hentry =>
      have hchecks : verifyReference lib _ _ = .ok _ := hinv.calls _ _ hcall
      obtain ⟨-, -, -, hpath⟩ := verifyReference_eq_ok_iff.mp hchecks
      have hreader := hinv.opened hpath hentry
      exact hinv.moveOn (by nofun) fun hkept =>
        ⟨hreader.kept hkept, verify_of_entry hchecks hentry⟩
  | readVerified hcall hnext =>
      refine hinv.moveOn (by nofun) fun hkept => ?_
      obtain ⟨hreader, hanswer⟩ := BlobCallInv.kept hinv hkept hcall
      exact ⟨⟨hreader.allocated, hreader.finished, hnext.2.2⟩, hanswer⟩
  | returnVerified hcall hend =>
      obtain ⟨hreader, hanswer⟩ := hinv.calls _ _ hcall
      refine hinv.verifyReturns ?_
      rw [hanswer, hend]
  | removeDigest hdigest hpath => exact hinv.removeDigest hpath

end Kept

/-- A new root. -/
theorem BlobRootInv.of_empty (lib : BlobLib) : BlobRootInv lib BlobRoot.empty where
  allocated _ _ h := nomatch h
  names _ _ h := nomatch h
  blobs _ _ _ h := nomatch h
  calls _ _ h := nomatch h
  apart _ _ _ := fun ⟨_, _, _, _, h⟩ => nomatch h
  returned _ h := nomatch h
  verified _ h := nomatch h

/-- Every reachable root has the invariant. -/
theorem blobRootInv_of_reachable {lib : BlobLib} {s : BlobRoot}
    (h : (blobSystem lib).Reachable s) : BlobRootInv lib s :=
  h.invariant (fun _ hs => hs ▸ BlobRootInv.of_empty lib) fun _ _ _ _ hinv hst => hinv.step hst

/-- The file that was promised verifies. -/
theorem Promised.verify_ok {lib : BlobLib} {s : BlobRoot} {owner mediaType : String}
    {bytes : List UInt8} {removals : ℕ} (hinv : BlobRootInv lib s)
    (hpromised : Promised lib s bytes removals) (hmedia : lib.mediaTypeIsValid mediaType = true)
    (hnot : lib.digest bytes ∉ s.removed.drop removals) :
    ∃ path, verify lib s.files owner (blobRefOf lib owner mediaType bytes) = .ok path := by
  obtain ⟨path, i, hpath, hentry, hlength⟩ := hpromised.present hnot
  obtain ⟨head, rest, rfl, hspell⟩ := eq_of_pathForDigest hpath
  obtain ⟨-, hdigest⟩ := hinv.blobs head rest i hentry
  have hchecks : verifyReference lib owner (blobRefOf lib owner mediaType bytes) =
      .ok (.blob head rest) :=
    verifyReference_eq_ok_iff.mpr ⟨rfl, rfl, hmedia, hpath⟩
  have hfile : verifyFile lib (s.files.content i) (lib.digest bytes) bytes.length = .ok () :=
    verifyFile_eq_ok_iff.mpr ⟨hlength ▸ hpromised.short, hlength, hdigest.trans hspell⟩
  exact ⟨.blob head rest, (verify_of_entry hchecks hentry).trans (verifyAnswer_of_ok hfile)⟩

/-- **Blob store integrity.** Whatever the calls on one root do, and wherever they stop: every
file under a digest has that digest; a returned reference has the digest and the length of its
bytes, and verifies as long as its digest was not removed since its file was linked or opened; a
verification that reads piece by piece answers as an undivided one; equal bytes have equal digests
and lengths. -/
theorem blob_store_integrity {lib : BlobLib} {s : BlobRoot} (h : (blobSystem lib).Reachable s) :
    (∀ head rest bytes, s.files.read (.blob head rest) = some bytes →
      hex (lib.sha256 bytes) = head ++ rest) ∧
    (∀ r ∈ s.returned, r.reference.ownerService = r.owner ∧
      r.reference.digest = ⟨.sha256, hex (lib.sha256 r.bytes)⟩ ∧
      r.reference.lengthBytes = r.bytes.length ∧
      (r.reference.digest.hex ∉ s.removed.drop r.removals →
        ∃ path, verify lib s.files r.owner r.reference = .ok path)) ∧
    (∀ v ∈ s.verified, v.answer = v.atOnce) ∧
    ∀ r ∈ s.returned, ∀ r' ∈ s.returned, r.bytes = r'.bytes →
      r.reference.digest = r'.reference.digest ∧
        r.reference.lengthBytes = r'.reference.lengthBytes := by
  have hinv := blobRootInv_of_reachable h
  refine ⟨fun head rest bytes hread => ?_, fun r hr => ?_, hinv.verified, fun r hr r' hr' heq => ?_⟩
  · obtain ⟨i, hentry, rfl⟩ := Option.map_eq_some_iff.mp hread
    exact (hinv.blobs head rest i hentry).2
  · obtain ⟨hpromised, mediaType, hmedia, hreference⟩ := hinv.returned r hr
    rw [hreference]
    exact ⟨rfl, rfl, rfl, hpromised.verify_ok hinv hmedia⟩
  · obtain ⟨-, mediaType, -, hreference⟩ := hinv.returned r hr
    obtain ⟨-, mediaType', -, hreference'⟩ := hinv.returned r' hr'
    rw [hreference, hreference']
    exact ⟨congrArg (fun bytes => (⟨.sha256, lib.digest bytes⟩ : ContentDigest)) heq,
      congrArg List.length heq⟩

/-! ### One store -/

/-- The bytes of a small artifact. -/
def smallArtifact : List UInt8 := [104, 105]

/-- The libraries on the small artifact and the first uuid. -/
def smallBlobLib : BlobLib where
  sha256 bytes :=
    if bytes = smallArtifact then
      [0x8f, 0x43, 0x43, 0x46, 0x64, 0x8f, 0x6b, 0x96, 0xdf, 0x89, 0xdd, 0xa9, 0x01, 0xc5, 0x17, 0x6b,
       0x10, 0xa6, 0xd8, 0x39, 0x61, 0xdd, 0x3c, 0x1a, 0xc8, 0x8b, 0x59, 0xb2, 0xdc, 0x32, 0x7a, 0xa4]
    else []
  ownerIsValid owner := owner == producer
  mediaTypeIsValid mediaType := mediaType == "text/plain"
  hexIsValid := isSha256Hex
  uuidText id := String.ofList (List.replicate id 'x') ++ "00000000-0000-0000-0000-000000000000"
  uuidText_injective a b h := by
    have hlists := congrArg String.toList ((String.append_left_inj _).mp h)
    rw [String.toList_ofList, String.toList_ofList] at hlists
    simpa using congrArg List.length hlists

/-- The digest path of the small artifact. -/
def smallTarget : StorePath :=
  .blob "8f" "434346648f6b96df89dda901c5176b10a6d83961dd3c1ac88b59b2dc327aa4"

theorem smallTarget_eq : pathForDigest (smallBlobLib.digest smallArtifact) = some smallTarget := by
  decide +kernel

theorem smallDigest_valid :
    smallBlobLib.hexIsValid (smallBlobLib.digest smallArtifact) = true := by
  decide +kernel

/-- The small artifact is stored in a new root. -/
theorem smallStore_reachable : ∃ s, (blobSystem smallBlobLib).Reachable s ∧ s.removed = [] ∧
    s.returned = [⟨producer, smallArtifact,
      blobRefOf smallBlobLib producer "text/plain" smallArtifact, 0⟩] := by
  have h₀ : (blobSystem smallBlobLib).Reachable BlobRoot.empty := Labelled.System.Reachable.init rfl
  have h₁ := h₀.step (a := ()) (StoreStep.beginStore (k := 0) rfl
    (show smallBlobLib.ownerIsValid producer = true from rfl)
    (show smallBlobLib.mediaTypeIsValid "text/plain" = true from rfl))
  have h₂ := h₁.step (a := ()) (StoreStep.create (k := 0) rfl)
  rw [createStaging_eq rfl] at h₂
  have h₃ := h₂.step (a := ()) (StoreStep.chunk (k := 0) rfl
    (show ([] ++ smallArtifact).length < 2 ^ 64 by decide))
  have h₄ := h₃.step (a := ()) (StoreStep.write (k := 0) rfl
    (show [] ++ smallArtifact <+: [] ++ smallArtifact from List.prefix_rfl))
  have h₅ := h₄.step (a := ()) (StoreStep.sync (k := 0) rfl (Tree.content_append_self ..))
  have hstaged : Function.update (fun _ => none) (stagingPath smallBlobLib 0) (some 0)
      (stagingPath smallBlobLib 0) = some 0 := Function.update_self ..
  have h₆ := h₅.step (a := ()) (StoreStep.link (k := 0) rfl smallDigest_valid
    smallTarget_eq (Tree.link_eq_ok_iff.mpr ⟨0, hstaged, rfl, rfl⟩))
  have hne : stagingPath smallBlobLib 0 ≠ smallTarget := fun h => by cases h
  have hkept : Function.update (Function.update (fun _ => none) (stagingPath smallBlobLib 0)
      (some 0)) smallTarget (some 0) (stagingPath smallBlobLib 0) = some 0 :=
    (Function.update_of_ne hne ..).trans hstaged
  have h₇ := h₆.step (a := ()) (StoreStep.returnLinked (k := 0) rfl fun hnone =>
    Option.some_ne_none _ (hkept.symm.trans hnone))
  exact ⟨_, h₇, rfl, rfl⟩

theorem blob_store_integrity_small : ∃ s, (blobSystem smallBlobLib).Reachable s ∧
    s.returned.length = 1 ∧ ∀ r ∈ s.returned, r.reference.lengthBytes = 2 ∧
      ∃ path, verify smallBlobLib s.files r.owner r.reference = .ok path := by
  obtain ⟨s, hreach, hremoved, hreturned⟩ := smallStore_reachable
  have hall := (blob_store_integrity hreach).2.1
  refine ⟨s, hreach, congrArg List.length hreturned, fun r hr => ?_⟩
  obtain ⟨-, -, hlength, hverifies⟩ := hall r hr
  rw [hremoved, List.drop_nil] at hverifies
  refine ⟨?_, hverifies List.not_mem_nil⟩
  rw [hreturned] at hr
  obtain rfl := List.mem_singleton.mp hr
  exact hlength

end Extractor
