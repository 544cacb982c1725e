import Extractor.BlobStore
import Extractor.Lib.Program

/-!
# One call of `store`

`BlobStore::store` of `crates/blob-store/src/lib.rs` with all of its failure exits, as a program
over the file system. Every call of the file system may fail; the stream is consumed chunk by chunk
and may fail as well. Meanwhile `prepare` of another process may remove any staging name.

The stream is any source of chunks: a state, and what one raw read makes of it. It is consumed by
`store`, and the state it is left in is returned with the result, so that whatever a source notes on
the side can be inspected after the call.

## Main definitions

* `StoreOp`, `storeEffect`: the file system calls and what they change.
* `copyStream`, `stage`, `publish`, `store`: the call.

## Main results

* `beside_store`: what a call returns, and what it leaves under the root.
* `failed_store_publishes_iff`: a call that fails leaves the published files as they were exactly
  when the removal of the staging name after the link does not fail.
-/

namespace Extractor

open Files Program

/-! ### File system calls -/

/-- Why `hard_link` fails. -/
inductive LinkFailure
  | alreadyExists
  | other
  deriving DecidableEq

/-- Why `verify_file` fails. -/
inductive VerifyFailure
  | io
  | lengthOverflow
  | collision
  deriving DecidableEq

/-- The error of `verify_file`. -/
def VerifyFailure.error : VerifyFailure → BlobStoreError
  | .io => .io
  | .lengthOverflow => .lengthOverflow
  | .collision => .collision

/-- The file system calls of `store`, with the type of the answer: whether it succeeded, or what it
returned. -/
inductive StoreOp : Type → Type
  /-- `create_dir_all` of the staging directory. -/
  | createStagingDirectory : StoreOp Bool
  /-- `Uuid::now_v7`. -/
  | newUuid : StoreOp Uuid
  /-- `File::create`. -/
  | create (id : Uuid) : StoreOp (Option ℕ)
  | writeAll (inode : ℕ) (bytes : List UInt8) : StoreOp Bool
  | flush (inode : ℕ) : StoreOp Bool
  | syncAll (inode : ℕ) : StoreOp Bool
  /-- `create_dir_all` of the directory of the target. -/
  | createParent (target : StorePath) : StoreOp Bool
  | hardLink (id : Uuid) (target : StorePath) : StoreOp (Except LinkFailure Unit)
  /-- `verify_file`. -/
  | verifyFile (target : StorePath) (digest : String) (length : ℕ) :
      StoreOp (Except VerifyFailure Unit)
  /-- `remove_file` of the staging file. -/
  | removeFile (id : Uuid) : StoreOp Bool

/-- The files under the root. -/
abbrev BlobFiles := Tree StorePath UInt8

/-- What a call of the file system changes. A write that fails may have written a part. -/
def storeEffect (lib : BlobLib) (files : BlobFiles) : Exchange StoreOp → BlobFiles → Prop
  | ⟨.newUuid, id⟩, files' => files' = files ∧ files.entry (stagingPath lib id) = none
  | ⟨.create id, some inode⟩, files' => (files', inode) = files.create (stagingPath lib id)
  | ⟨.writeAll inode bytes, true⟩, files' => files' = files.append inode bytes
  | ⟨.writeAll inode bytes, false⟩, files' =>
      ∃ written, written <+: bytes ∧ files' = files.append inode written
  | ⟨.hardLink id target, .ok ()⟩, files' => files.link (stagingPath lib id) target = .ok files'
  | ⟨.hardLink _ target, .error .alreadyExists⟩, files' =>
      files' = files ∧ files.entry target ≠ none
  | ⟨.verifyFile target digest length, .ok ()⟩, files' =>
      files' = files ∧ ∃ bytes, files.read target = some bytes ∧
        Extractor.verifyFile lib bytes digest length = .ok ()
  | ⟨.removeFile id, true⟩, files' =>
      files' = files.unlink (stagingPath lib id) ∧ files.entry (stagingPath lib id) ≠ none
  | _, files' => files' = files

/-- `prepare` of other processes: staging names disappear. -/
structure Swept (files files' : BlobFiles) : Prop where
  content : files'.content = files.content
  next : files'.next = files.next
  blob : ∀ head rest, files'.entry (.blob head rest) = files.entry (.blob head rest)
  staging : ∀ name, files'.entry (.staging name) = files.entry (.staging name) ∨
    files'.entry (.staging name) = none ∧ isStagingName name = true

/-! ### The call -/

/-- Code of the store: it may return an error early, with the state that the stream is left in. -/
abbrev StoreM (σ : Type) := ExceptT (BlobStoreError × σ) (Program StoreOp)

section Store

variable {ρ σ : Type}

/-- A file system call followed by `?`. -/
def checkIo (s : σ) (e : StoreOp Bool) : StoreM σ Unit := do
  let succeeded ← Program.call e
  require (succeeded = true) (BlobStoreError.io, s)

/-- `let _ = remove_file(&staging_path)`, then the error. -/
def discardStaging {α : Type} (id : Uuid) (error : BlobStoreError × σ) : StoreM σ α := do
  let _ ← Program.call (StoreOp.removeFile id)
  throw error

/-- The loop over the stream: what was handed to the file and to the hasher, in the end. `step` is
what the stream makes of one raw read; it has ended when it yields nothing, or when the reads are
over. -/
def copyStream (step : σ → ρ → σ × Option (Except Unit (List UInt8))) (id : Uuid) (inode : ℕ) :
    List ρ → σ → List UInt8 → StoreM σ (List UInt8 × σ)
  | [], s, hashed => return (hashed, s)
  | raw :: rest, s, hashed =>
      match step s raw with
      | (s, none) => return (hashed, s)
      | (s, some (.error ())) => discardStaging id (.stream, s)
      | (s, some (.ok chunk)) => do
          require ((hashed ++ chunk).length < 2 ^ 64) (BlobStoreError.lengthOverflow, s)
          let written ← Program.call (StoreOp.writeAll inode chunk)
          if written = true then copyStream step id inode rest s (hashed ++ chunk)
          else discardStaging id (.io, s)

/-- A staging file that is written, flushed and synced. -/
structure Staged where
  id : Uuid
  inode : ℕ
  bytes : List UInt8

/-- The part of `store` before the digest is known. -/
def stage (step : σ → ρ → σ × Option (Except Unit (List UInt8))) (reads : List ρ) (s : σ) :
    StoreM σ (Staged × σ) := do
  checkIo s .createStagingDirectory
  let id ← Program.call StoreOp.newUuid
  let created ← Program.call (StoreOp.create id)
  let inode ← okOr created (BlobStoreError.io, s)
  let (bytes, s) ← copyStream step id inode reads s []
  checkIo s (.flush inode)
  checkIo s (.syncAll inode)
  return (⟨id, inode, bytes⟩, s)

/-- The link of the staging file to its digest, and what follows. -/
def linkStaged (id : Uuid) (target : StorePath) (digest : String) (length : ℕ)
    (s : σ) : StoreM σ Unit := do
  let linked ← Program.call (StoreOp.hardLink id target)
  match linked with
  | .ok () => checkIo s (.removeFile id)
  | .error .alreadyExists => do
      let verified ← Program.call (StoreOp.verifyFile target digest length)
      let _ ← Program.call (StoreOp.removeFile id)
      Program.ofExcept (verified.mapError fun failure => (failure.error, s))
  | .error .other => discardStaging id (.io, s)

/-- The part of `store` after the stream has ended. -/
def publish (lib : BlobLib) (owner mediaType : String) (staged : Staged) (s : σ) :
    StoreM σ (BlobRef × σ) := do
  let digest := lib.digest staged.bytes
  require (lib.hexIsValid digest) (BlobStoreError.invalidIdentity, s)
  let target ← okOr (pathForDigest digest) (BlobStoreError.io, s)
  checkIo s (.createParent target)
  linkStaged staged.id target digest staged.bytes.length s
  return (blobRefOf lib owner mediaType staged.bytes, s)

/-- `BlobStore::store` of a stream in the state `s`, with the raw reads to come. -/
def store (lib : BlobLib) (owner mediaType : String)
    (step : σ → ρ → σ × Option (Except Unit (List UInt8))) (reads : List ρ) (s : σ) :
    StoreM σ (BlobRef × σ) := do
  require (lib.ownerIsValid owner) (BlobStoreError.invalidIdentity, s)
  require (lib.mediaTypeIsValid mediaType) (BlobStoreError.invalidMediaType, s)
  let (staged, s) ← stage step reads s
  publish lib owner mediaType staged s

end Store

/-! ### What the stream yields -/

section Streams

variable {ρ σ : Type}

/-- Reads of a stream that each yield a chunk: the bytes, the state and the reads that are left. -/
inductive Pulls (step : σ → ρ → σ × Option (Except Unit (List UInt8))) :
    σ → List ρ → List UInt8 → σ → List ρ → Prop
  | refl (s : σ) (reads : List ρ) : Pulls step s reads [] s reads
  | pull {s t u : σ} {raw : ρ} {rest rest' : List ρ} {chunk bytes : List UInt8}
      (hstep : step s raw = (t, some (.ok chunk))) (hrest : Pulls step t rest bytes u rest') :
      Pulls step s (raw :: rest) (chunk ++ bytes) u rest'

/-- A stream ends: its reads are over, or a read yields nothing. -/
def EndsIn (step : σ → ρ → σ × Option (Except Unit (List UInt8))) (s : σ) (reads : List ρ) (t : σ) :
    Prop :=
  reads = [] ∧ t = s ∨ ∃ raw rest, reads = raw :: rest ∧ step s raw = (t, none)

/-- A read of a stream fails. -/
def FailsIn (step : σ → ρ → σ × Option (Except Unit (List UInt8))) (s : σ) (reads : List ρ) (t : σ) :
    Prop :=
  ∃ raw rest, reads = raw :: rest ∧ step s raw = (t, some (.error ()))

/-- What a consumer that fails says about the stream: it failed, or the consumer did after some
chunks, or after the end. -/
def BrokenOff (step : σ → ρ → σ × Option (Except Unit (List UInt8))) (s : σ) (reads : List ρ)
    (error : BlobStoreError) (t : σ) : Prop :=
  ∃ bytes u rest, Pulls step s reads bytes u rest ∧
    (error = .stream ∧ FailsIn step u rest t ∨
      error ≠ .stream ∧ (t = u ∨ EndsIn step u rest t))

variable {step : σ → ρ → σ × Option (Except Unit (List UInt8))} {s t u : σ} {raw : ρ}
  {reads rest rest' : List ρ} {chunk bytes bytes' : List UInt8} {error : BlobStoreError}

theorem BrokenOff.pull (hstep : step s raw = (t, some (.ok chunk))) (h : BrokenOff step t rest error u) :
    BrokenOff step s (raw :: rest) error u := by
  obtain ⟨bytes, v, rest', hpulls, hend⟩ := h
  exact ⟨chunk ++ bytes, v, rest', .pull hstep hpulls, hend⟩

/-- A consumer that fails before it consumes anything. -/
theorem BrokenOff.before (herror : error ≠ .stream) : BrokenOff step s reads error s :=
  ⟨[], s, reads, .refl s reads, .inr ⟨herror, .inl rfl⟩⟩

/-- A consumer that fails after the end. -/
theorem BrokenOff.after (herror : error ≠ .stream) (hpulls : Pulls step s reads bytes t rest)
    (hend : EndsIn step t rest u) : BrokenOff step s reads error u :=
  ⟨bytes, t, rest, hpulls, .inr ⟨herror, .inr hend⟩⟩

/-- **What consuming a stream comes to**: the bytes it yields, to its end, or a failure. -/
def Consumed (step : σ → ρ → σ × Option (Except Unit (List UInt8))) (s : σ) (reads : List ρ) :
    Except (BlobStoreError × σ) (List UInt8 × σ) → Prop
  | .ok (bytes, t) => ∃ u rest, Pulls step s reads bytes u rest ∧ EndsIn step u rest t
  | .error (error, t) => BrokenOff step s reads error t

section Measure

variable {m : σ → ℕ} {w : ρ → ℕ}

/-- A read raises the measure by its weight at most. -/
theorem measure_le_of_step (hm : ∀ s raw, m (step s raw).1 ≤ m s + w raw)
    {item : Option (Except Unit (List UInt8))} (hstep : step s raw = (t, item)) :
    m t ≤ m s + w raw := by
  have h := hm s raw
  rwa [hstep] at h

/-- Reads that are pulled raise it by their weights. -/
theorem Pulls.measure_le (hm : ∀ s raw, m (step s raw).1 ≤ m s + w raw)
    (h : Pulls step s reads bytes t rest) : m t + (rest.map w).sum ≤ m s + (reads.map w).sum := by
  induction h with
  | refl s reads => exact Nat.le_refl _
  | pull hstep _ ih =>
      have hraw := measure_le_of_step hm hstep
      rw [List.map_cons, List.sum_cons]
      omega

/-- A stream that ends leaves no more than its reads weigh. -/
theorem EndsIn.measure_le (hm : ∀ s raw, m (step s raw).1 ≤ m s + w raw)
    (h : EndsIn step s reads t) : m t ≤ m s + (reads.map w).sum := by
  rcases h with ⟨-, rfl⟩ | ⟨raw, rest, rfl, hstep⟩
  · exact Nat.le_add_right _ _
  · have hraw := measure_le_of_step hm hstep
    rw [List.map_cons, List.sum_cons]
    omega

/-- A consumer that fails leaves no more than the reads weigh. -/
theorem BrokenOff.measure_le (hm : ∀ s raw, m (step s raw).1 ≤ m s + w raw)
    (h : BrokenOff step s reads error t) : m t ≤ m s + (reads.map w).sum := by
  obtain ⟨bytes, u, rest, hpulls, hend⟩ := h
  have hu := hpulls.measure_le hm
  rcases hend with ⟨-, raw, rest', rfl, hstep⟩ | ⟨-, rfl | hends⟩
  · have hraw := measure_le_of_step hm hstep
    rw [List.map_cons, List.sum_cons] at hu
    omega
  · omega
  · have ht := hends.measure_le hm
    omega

end Measure

/-- The loop over the stream hands on what the stream yields. -/
theorem ensures_copyStream {id : Uuid} {inode : ℕ} {hashed : List UInt8} {h : Trace StoreOp} :
    Ensures (fun _ _ _ => True) (copyStream step id inode reads s hashed).run h fun _ r =>
      ∃ r', r = r'.map (fun q => (hashed ++ q.1, q.2)) ∧ Consumed step s reads r' := by
  induction reads generalizing s hashed h with
  | nil => exact ⟨.ok ([], s), by simp [Except.map], s, [], .refl s [], .inl ⟨rfl, rfl⟩⟩
  | cons raw rest ih =>
      rw [copyStream]
      split
      · next t hstep =>
          exact ⟨.ok ([], t), by simp [Except.map], s, _, .refl s _, .inr ⟨raw, rest, rfl, hstep⟩⟩
      · next t hstep =>
          refine ⟨trivial, fun _ => ⟨.error (.stream, t), rfl, ?_⟩⟩
          exact ⟨[], s, _, .refl s _, .inl ⟨rfl, raw, rest, rfl, hstep⟩⟩
      · next t chunk hstep =>
          simp only [ensures_bind_except, ensures_require, ensures_call]
          split
          · refine ⟨trivial, fun written => ?_⟩
            split
            · refine ih.imp ?_
              rintro h' r ⟨r', rfl, hconsumed⟩
              rcases r' with ⟨error, u⟩ | ⟨bytes, u⟩
              · exact ⟨.error (error, u), rfl, hconsumed.pull hstep⟩
              · obtain ⟨v, rest', hpulls, hend⟩ := hconsumed
                exact ⟨.ok (chunk ++ bytes, u), by simp [Except.map], v, rest',
                  .pull hstep hpulls, hend⟩
            · exact ⟨trivial, fun _ => ⟨.error (.io, t), rfl, (BrokenOff.before (by decide)).pull hstep⟩⟩
          · exact ⟨.error (.lengthOverflow, t), rfl, (BrokenOff.before (by decide)).pull hstep⟩

/-- What is staged is what the stream yields. -/
theorem ensures_stage {h : Trace StoreOp} :
    Ensures (fun _ _ _ => True) (stage step reads s).run h fun _ r =>
      Consumed step s reads (r.map fun q => (q.1.bytes, q.2)) := by
  have hbefore : Consumed step s reads (.error (.io, s)) := BrokenOff.before (by decide)
  unfold stage checkIo
  simp only [ensures_bind_except, ensures_call, ensures_require, ensures_okOr]
  refine ⟨trivial, fun dir => ?_⟩
  split
  · refine ⟨trivial, fun id => ⟨trivial, fun created => ?_⟩⟩
    cases created with
    | none => exact hbefore
    | some inode =>
        refine ensures_copyStream.imp ?_
        rintro h' _ ⟨r, rfl, hconsumed⟩
        rcases r with ⟨error, t⟩ | ⟨bytes, t⟩
        · exact hconsumed
        · obtain ⟨u, rest, hpulls, hend⟩ := hconsumed
          have hafter : Consumed step s reads (.error (.io, t)) :=
            BrokenOff.after (by decide) hpulls hend
          refine ⟨trivial, fun flushed => ?_⟩
          split
          · refine ⟨trivial, fun synced => ?_⟩
            split
            · exact ⟨u, rest, hpulls, hend⟩
            · exact hafter
          · exact hafter
  · exact hbefore

/-- Publishing does not touch the stream. -/
theorem ensures_publish {lib : BlobLib} {owner mediaType : String} {staged : Staged}
    {h : Trace StoreOp} :
    Ensures (fun _ _ _ => True) (publish lib owner mediaType staged s).run h fun _ r =>
      r = .ok (blobRefOf lib owner mediaType staged.bytes, s) ∨
        ∃ error, error ≠ .stream ∧ r = .error (error, s) := by
  unfold publish linkStaged checkIo
  simp only [ensures_bind_except, ensures_call, ensures_require, ensures_okOr]
  split
  · cases pathForDigest (lib.digest staged.bytes) with
    | none => exact .inr ⟨.io, by decide, rfl⟩
    | some target =>
        refine ⟨trivial, fun parent => ?_⟩
        split
        · refine ⟨trivial, fun linked => ?_⟩
          split
          · simp only [ensures_bind_except, ensures_call, ensures_require]
            refine ⟨trivial, fun removed => ?_⟩
            split
            · exact .inl rfl
            · exact .inr ⟨.io, by decide, rfl⟩
          · simp only [ensures_bind_except, ensures_call, ensures_ofExcept]
            refine ⟨trivial, fun verified => ⟨trivial, fun _ => ?_⟩⟩
            cases verified with
            | ok u => exact .inl rfl
            | error failure => exact .inr ⟨failure.error, by cases failure <;> decide, rfl⟩
          · exact ⟨trivial, fun _ => .inr ⟨.io, by decide, rfl⟩⟩
        · exact .inr ⟨.io, by decide, rfl⟩
  · exact .inr ⟨.invalidIdentity, by decide, rfl⟩

/-- What a call of `store` comes to: a reference to the bytes that the stream yields, or an
error. -/
def StoreOutcome (lib : BlobLib) (owner mediaType : String)
    (step : σ → ρ → σ × Option (Except Unit (List UInt8))) (s : σ) (reads : List ρ) :
    Except (BlobStoreError × σ) (BlobRef × σ) → Prop
  | .ok (blob, t) => ∃ bytes, blob = blobRefOf lib owner mediaType bytes ∧
      Consumed step s reads (.ok (bytes, t))
  | .error (error, t) => BrokenOff step s reads error t

/-- The state that a call leaves the stream in. -/
def endState {ε α : Type} : Except (ε × σ) (α × σ) → σ
  | .ok (_, t) => t
  | .error (_, t) => t

/-- A call leaves no more than the reads weigh. -/
theorem StoreOutcome.measure_le {m : σ → ℕ} {w : ρ → ℕ}
    (hm : ∀ s raw, m (step s raw).1 ≤ m s + w raw) {lib : BlobLib} {owner mediaType : String}
    {r : Except (BlobStoreError × σ) (BlobRef × σ)}
    (h : StoreOutcome lib owner mediaType step s reads r) :
    m (endState r) ≤ m s + (reads.map w).sum := by
  rcases r with ⟨error, t⟩ | ⟨blob, t⟩
  · exact BrokenOff.measure_le hm h
  · obtain ⟨bytes, -, u, rest, hpulls, hends⟩ := h
    have hu := hpulls.measure_le hm
    have ht := hends.measure_le hm
    exact Nat.le_trans ht hu

/-- **A call of `store`** consumes the stream to its end, or fails. -/
theorem ensures_store {lib : BlobLib} {owner mediaType : String} {h : Trace StoreOp} :
    Ensures (fun _ _ _ => True) (store lib owner mediaType step reads s).run h fun _ r =>
      StoreOutcome lib owner mediaType step s reads r := by
  unfold store
  simp only [ensures_bind_except, ensures_require]
  split
  · split
    · refine ensures_stage.imp ?_
      rintro h' (⟨error, t⟩ | ⟨staged, t⟩) hconsumed
      · exact hconsumed
      · refine ensures_publish.imp ?_
        rintro h'' r (rfl | ⟨error, herror, rfl⟩)
        · exact ⟨staged.bytes, rfl, hconsumed⟩
        · obtain ⟨u, rest, hpulls, hend⟩ := hconsumed
          exact BrokenOff.after herror hpulls hend
    · exact BrokenOff.before (by decide)
  · exact BrokenOff.before (by decide)

end Streams

/-! ### What changes under the root -/

/-- The published files are the same, with the same bytes. -/
structure SameBlobs (files files' : BlobFiles) : Prop where
  entry : ∀ head rest, files'.entry (.blob head rest) = files.entry (.blob head rest)
  content : ∀ head rest i, files.entry (.blob head rest) = some i →
    files'.content i = files.content i

/-- A staging file holds what was handed to it; its name, if it is there, is its own, and it is not
published. -/
structure StagedFile (lib : BlobLib) (files : BlobFiles) (staged : Staged) : Prop where
  content : files.content staged.inode = staged.bytes
  named : ∀ i, files.entry (stagingPath lib staged.id) = some i → i = staged.inode
  unpublished : ∀ head rest, files.entry (.blob head rest) ≠ some staged.inode

section Kept

variable {lib : BlobLib} {files files' files'' : BlobFiles} {staged : Staged}

theorem SameBlobs.refl (files : BlobFiles) : SameBlobs files files :=
  ⟨fun _ _ => rfl, fun _ _ _ _ => rfl⟩

theorem SameBlobs.trans (h : SameBlobs files files') (h' : SameBlobs files' files'') :
    SameBlobs files files'' where
  entry head rest := (h'.entry head rest).trans (h.entry head rest)
  content head rest i hi :=
    (h'.content head rest i ((h.entry head rest).trans hi)).trans (h.content head rest i hi)

/-- The same files have the same bytes. -/
theorem SameBlobs.read (h : SameBlobs files files') (head rest : String) :
    files'.read (.blob head rest) = files.read (.blob head rest) := by
  rw [Tree.read, Tree.read, h.entry]
  exact Option.map_congr fun i hi => h.content head rest i hi

theorem Swept.refl (files : BlobFiles) : Swept files files :=
  ⟨rfl, rfl, fun _ _ => rfl, fun _ => .inl rfl⟩

theorem Swept.trans (h : Swept files files') (h' : Swept files' files'') : Swept files files'' where
  content := h'.content.trans h.content
  next := h'.next.trans h.next
  blob head rest := (h'.blob head rest).trans (h.blob head rest)
  staging name := by
    rcases h'.staging name with hsame | hgone
    · exact (h.staging name).imp hsame.trans fun ⟨hgone, hname⟩ => ⟨hsame.trans hgone, hname⟩
    · exact .inr hgone

theorem Swept.sameBlobs (h : Swept files files') : SameBlobs files files' :=
  ⟨h.blob, fun _ _ i _ => congrFun h.content i⟩

/-- A name that is left was there before. -/
theorem Swept.entry (h : Swept files files') {path : StorePath} {i : ℕ}
    (hi : files'.entry path = some i) : files.entry path = some i := by
  cases path with
  | blob head rest => exact (h.blob head rest).symm.trans hi
  | staging name =>
      rcases h.staging name with hsame | ⟨hgone, -⟩
      · exact hsame.symm.trans hi
      · rw [hgone] at hi
        cases hi

theorem Swept.allocated (h : Swept files files') (ha : files.Allocated) : files'.Allocated :=
  fun p i hi => h.next ▸ ha p i (h.entry hi)

/-- `prepare` leaves a staging file as it is, but for its name. -/
theorem StagedFile.swept (h : StagedFile lib files staged) (hs : Swept files files') :
    StagedFile lib files' staged where
  content := (congrFun hs.content _).trans h.content
  named i hi := h.named i (hs.entry hi)
  unpublished head rest hi := h.unpublished head rest (hs.entry hi)

/-- A write extends the staging file, and no published one. -/
theorem StagedFile.append (h : StagedFile lib files staged) (bytes : List UInt8) :
    SameBlobs files (files.append staged.inode bytes) ∧
      StagedFile lib (files.append staged.inode bytes)
        { staged with bytes := staged.bytes ++ bytes } := by
  refine ⟨⟨fun _ _ => rfl, fun head rest i hi => ?_⟩, ?_, h.named, h.unpublished⟩
  · refine Tree.content_append_of_ne ?_ bytes
    rintro rfl
    exact h.unpublished head rest hi
  · rw [Tree.content_append_self, h.content]

/-- A staging name is no published one. -/
theorem sameBlobs_unlink (files : BlobFiles) (id : Uuid) :
    SameBlobs files (files.unlink (stagingPath lib id)) :=
  ⟨fun _ _ => Tree.entry_unlink_of_ne (by nofun), fun _ _ _ _ => rfl⟩

/-- A new staging file is empty and not published. -/
theorem StagedFile.created (lib : BlobLib) (id : Uuid) (ha : files.Allocated) :
    SameBlobs files (files.addFile (stagingPath lib id)) ∧
      StagedFile lib (files.addFile (stagingPath lib id)) ⟨id, files.next, []⟩ := by
  have hblob : ∀ head rest, (files.addFile (stagingPath lib id)).entry (.blob head rest) =
      files.entry (.blob head rest) := fun _ _ => Tree.entry_addFile_of_ne (by nofun)
  refine ⟨⟨hblob, fun head rest i hi => ?_⟩, Tree.content_addFile_self .., fun i hi => ?_,
    fun head rest hi => ?_⟩
  · exact Tree.content_addFile_of_ne (Nat.ne_of_lt (ha _ i hi))
  · obtain ⟨-, rfl⟩ | ⟨hne, -⟩ := Tree.entry_addFile_eq_some hi
    · rfl
    · exact absurd rfl hne
  · rw [hblob] at hi
    exact absurd (ha _ _ hi) (Nat.lt_irrefl _)

end Kept

/-! ### A call beside `prepare` -/

/-- A link that was made. -/
def linked : Exchange StoreOp → Bool
  | ⟨.hardLink _ _, .ok ()⟩ => true
  | _ => false

/-- Nothing was linked. -/
def Unlinked (h : Trace StoreOp) : Prop := ∀ x ∈ h, linked x = false

/-- **The removal of the staging name fails**, right after the link was made. -/
def RemovalFailed (h : Trace StoreOp) : Prop :=
  ∃ pre id target post, h = pre ++ ⟨.hardLink id target, .ok ()⟩ ::
    (⟨.removeFile id, false⟩ : Exchange StoreOp) :: post

/-- Code of the store from some files and a history, beside `prepare`. -/
abbrev StoreBeside (lib : BlobLib) {σ α : Type} (q : StoreM σ α) (s : BlobFiles × Trace StoreOp)
    (Q : BlobFiles × Trace StoreOp → Except (BlobStoreError × σ) α → Prop) : Prop :=
  Beside (unrecorded Swept) (recording (storeEffect lib)) (fun _ _ _ => True) q.run s Q

theorem Unlinked.snoc {h : Trace StoreOp} {x : Exchange StoreOp} (hh : Unlinked h)
    (hx : linked x = false) : Unlinked (h ++ [x]) := by
  intro y hy
  rcases List.mem_append.mp hy with hy | hy
  · exact hh y hy
  · exact List.mem_singleton.mp hy ▸ hx

theorem Unlinked.not_removalFailed {h : Trace StoreOp} (hh : Unlinked h) : ¬ RemovalFailed h := by
  rintro ⟨pre, id, target, post, rfl⟩
  have := hh _ (List.mem_append_right pre List.mem_cons_self)
  cases this

/-- Nothing is published and nothing linked. -/
structure Unpublished (files : BlobFiles) (t : BlobFiles × Trace StoreOp) : Prop where
  same : SameBlobs files t.1
  unlinked : Unlinked t.2

section Calls

variable {ρ σ : Type} {lib : BlobLib} {files files' : BlobFiles} {h : Trace StoreOp} {s : σ}
  {step : σ → ρ → σ × Option (Except Unit (List UInt8))} {reads : List ρ}

/-- The others publish nothing. -/
theorem Unpublished.others {t t' : BlobFiles × Trace StoreOp} (hu : Unpublished files t)
    (ht : unrecorded Swept t t') : Unpublished files t' where
  same := hu.same.trans ht.1.sameBlobs
  unlinked := ht.2 ▸ hu.unlinked

/-- Nor does an exchange that links nothing and keeps the published files. -/
theorem Unpublished.exchange {x : Exchange StoreOp} {t t' : BlobFiles × Trace StoreOp}
    (hu : Unpublished files t) (ht : recording (storeEffect lib) t x t') (hx : linked x = false)
    (hsame : SameBlobs t.1 t'.1) : Unpublished files t' where
  same := hu.same.trans hsame
  unlinked := ht.2 ▸ hu.unlinked.snoc hx

/-- A removal of a staging name publishes nothing. -/
theorem sameBlobs_removeFile {id : Uuid} {removed : Bool}
    (heffect : storeEffect lib files ⟨.removeFile id, removed⟩ files') : SameBlobs files files' := by
  cases removed with
  | true =>
      obtain ⟨rfl, -⟩ := heffect
      exact sameBlobs_unlink files id
  | false =>
      obtain rfl := heffect
      exact SameBlobs.refl _

/-- A store that gives up publishes nothing. -/
theorem beside_discardStaging {α : Type} {id : Uuid} {failure : BlobStoreError × σ}
    {t : BlobFiles × Trace StoreOp} (hu : Unpublished files t) :
    StoreBeside lib (discardStaging id failure : StoreM σ α) t fun u r =>
      Unpublished files u ∧ r = .error failure := by
  rintro t₁ ht₁
  refine ⟨trivial, fun removed t₂ ht₂ t₃ ht₃ => ⟨?_, rfl⟩⟩
  exact (((hu.others ht₁).exchange ht₂ rfl (sameBlobs_removeFile ht₂.1)).others ht₃)

/-- **The loop over the stream** publishes nothing; what it handed on is in the staging file. -/
theorem beside_copyStream {id : Uuid} {inode : ℕ} {hashed : List UInt8}
    {t : BlobFiles × Trace StoreOp} (hu : Unpublished files t)
    (hstaged : StagedFile lib t.1 ⟨id, inode, hashed⟩) :
    StoreBeside lib (copyStream step id inode reads s hashed) t fun u r =>
      Unpublished files u ∧
        ∀ all v, r = .ok (all, v) → StagedFile lib u.1 ⟨id, inode, all⟩ := by
  induction reads generalizing s hashed t with
  | nil =>
      rintro t₁ ht₁
      refine ⟨hu.others ht₁, fun all v heq => ?_⟩
      obtain ⟨rfl, rfl⟩ := Prod.mk.inj (Except.ok.inj heq)
      exact hstaged.swept ht₁.1
  | cons raw rest ih =>
      have hfailed : ∀ {q : StoreM σ (List UInt8 × σ)} {t : BlobFiles × Trace StoreOp}
          {failure : BlobStoreError × σ}, StoreBeside lib q t (fun u r =>
            Unpublished files u ∧ r = .error failure) → StoreBeside lib q t fun u r =>
              Unpublished files u ∧
                ∀ all v, r = .ok (all, v) → StagedFile lib u.1 ⟨id, inode, all⟩ := by
        intro q t failure hq
        refine hq.imp ?_
        rintro u r ⟨hu, rfl⟩
        exact ⟨hu, fun _ _ heq => by cases heq⟩
      rw [copyStream]
      split
      · next v hstep =>
          rintro t₁ ht₁
          refine ⟨hu.others ht₁, fun all w heq => ?_⟩
          obtain ⟨rfl, rfl⟩ := Prod.mk.inj (Except.ok.inj heq)
          exact hstaged.swept ht₁.1
      · exact hfailed (beside_discardStaging hu)
      · next v chunk hstep =>
          rw [require]
          split
          · rintro t₁ ht₁
            refine ⟨trivial, fun written t₂ ht₂ => ?_⟩
            have hstaged₁ := hstaged.swept ht₁.1
            cases written with
            | true =>
                obtain ⟨hsame, hstaged₂⟩ := hstaged₁.append chunk
                have hfiles : t₂.1 = t₁.1.append inode chunk := ht₂.1
                rw [← hfiles] at hsame hstaged₂
                exact ih ((hu.others ht₁).exchange ht₂ rfl hsame) hstaged₂
            | false =>
                obtain ⟨part, -, hfiles⟩ := ht₂.1
                obtain ⟨hsame, -⟩ := hstaged₁.append part
                rw [← hfiles] at hsame
                exact hfailed (beside_discardStaging ((hu.others ht₁).exchange ht₂ rfl hsame))
          · rintro t₁ ht₁
            exact ⟨hu.others ht₁, fun _ _ heq => by cases heq⟩

/-- A file system call that changes nothing, followed by `?`. -/
theorem beside_checkIo {e : StoreOp Bool} {t : BlobFiles × Trace StoreOp} {α : Type}
    {f : Unit → StoreM σ α} {Q : BlobFiles × Trace StoreOp → Except (BlobStoreError × σ) α → Prop}
    (hquiet : ∀ succeeded files files', storeEffect lib files ⟨e, succeeded⟩ files' →
      files' = files) (hlinked : ∀ succeeded, linked ⟨e, succeeded⟩ = false)
    (hu : Unpublished files t)
    (hok : ∀ u, Swept t.1 u.1 → Unpublished files u → StoreBeside lib (f ()) u Q)
    (herror : ∀ u, Unpublished files u → Q u (.error (.io, s))) :
    StoreBeside lib (checkIo s e >>= f) t Q := by
  have hrefl : ∀ t : BlobFiles × Trace StoreOp, unrecorded Swept t t :=
    fun t => ⟨Swept.refl t.1, rfl⟩
  refine Beside.bind_except hrefl (fun t₁ ht₁ => ⟨trivial, fun succeeded t₂ ht₂ => ?_⟩)
  have hfiles : t₂.1 = t₁.1 := hquiet succeeded _ _ ht₂.1
  have hu₂ : Unpublished files t₂ :=
    (hu.others ht₁).exchange ht₂ (hlinked succeeded) (hfiles ▸ SameBlobs.refl _)
  cases succeeded with
  | true =>
      intro t₃ ht₃
      have hswept : Swept t₁.1 t₃.1 := hfiles ▸ ht₃.1
      exact hok t₃ (ht₁.1.trans hswept) (hu₂.others ht₃)
  | false => exact fun t₃ ht₃ t₄ ht₄ => herror t₄ ((hu₂.others ht₃).others ht₄)

/-- **What is staged** is in the staging file, and nothing is published. -/
theorem beside_stage {t : BlobFiles × Trace StoreOp} (hu : Unpublished files t)
    (hallocated : t.1.Allocated) :
    StoreBeside lib (stage step reads s) t fun u r =>
      Unpublished files u ∧ ∀ staged v, r = .ok (staged, v) → StagedFile lib u.1 staged := by
  have hfail : ∀ {w : σ} u, Unpublished files u → Unpublished files u ∧
      ∀ (staged : Staged) (v : σ), (.error (.io, w) : Except (BlobStoreError × σ) (Staged × σ)) =
        .ok (staged, v) → StagedFile lib u.1 staged :=
    fun u hu => ⟨hu, fun _ _ heq => nomatch heq⟩
  have hrefl : ∀ t : BlobFiles × Trace StoreOp, unrecorded Swept t t :=
    fun t => ⟨Swept.refl t.1, rfl⟩
  refine beside_checkIo (fun _ _ _ heffect => heffect) (fun _ => rfl) hu
    (fun t₁ ht₁ hu₁ => ?_) hfail
  refine beside_call_bind.mpr fun t₂ ht₂ => ⟨trivial, fun id t₃ ht₃ => ?_⟩
  refine beside_call_bind.mpr fun t₄ ht₄ => ⟨trivial, fun created t₅ ht₅ => ?_⟩
  refine Beside.bind_except hrefl ?_
  have hu₄ : Unpublished files t₄ :=
    (((hu₁.others ht₂).exchange ht₃ rfl (ht₃.1.1 ▸ SameBlobs.refl _)).others ht₄)
  have hallocated₄ : t₄.1.Allocated := by
    have hallocated₃ : t₃.1.Allocated := ht₃.1.1 ▸ ht₂.1.allocated (ht₁.allocated hallocated)
    exact ht₄.1.allocated hallocated₃
  cases created with
  | none =>
      have hfiles : t₅.1 = t₄.1 := ht₅.1
      have hu₅ := hu₄.exchange ht₅ rfl (hfiles ▸ SameBlobs.refl _)
      exact fun t₆ ht₆ t₇ ht₇ => hfail t₇ ((hu₅.others ht₆).others ht₇)
  | some inode =>
      have hfresh : t₄.1.entry (stagingPath lib id) = none := by
        cases hentry : t₄.1.entry (stagingPath lib id) with
        | none => rfl
        | some i =>
            have hold := ht₄.1.entry hentry
            rw [ht₃.1.1, ht₃.1.2] at hold
            cases hold
      have hcreated : (t₅.1, inode) = t₄.1.create (stagingPath lib id) := ht₅.1
      rw [Tree.create_of_none hfresh] at hcreated
      obtain ⟨hfiles, rfl⟩ := Prod.mk.inj hcreated
      obtain ⟨hsame, hstaged⟩ := StagedFile.created lib id hallocated₄
      rw [← hfiles] at hsame hstaged
      have hu₅ := hu₄.exchange ht₅ rfl hsame
      intro t₆ ht₆
      refine Beside.bind_except hrefl ?_
      refine (beside_copyStream (hu₅.others ht₆) (hstaged.swept ht₆.1)).imp ?_
      rintro t₇ (e | ⟨all, v⟩) ⟨hu₇, hstaged₇⟩
      · exact fun t₈ ht₈ => ⟨hu₇.others ht₈, fun _ _ heq => nomatch heq⟩
      · have hstaged₇ := hstaged₇ all v rfl
        refine beside_checkIo (fun _ _ _ heffect => heffect) (fun _ => rfl) hu₇
          (fun t₈ ht₈ hu₈ => ?_) hfail
        refine beside_checkIo (fun _ _ _ heffect => heffect) (fun _ => rfl) hu₈
          (fun t₉ ht₉ hu₉ => ?_) hfail
        rintro t₁₀ ht₁₀
        refine ⟨hu₉.others ht₁₀, fun staged w heq => ?_⟩
        obtain ⟨rfl, rfl⟩ := Prod.mk.inj (Except.ok.inj heq)
        exact ((hstaged₇.swept ht₈).swept ht₉).swept ht₁₀.1

/-- **What the call leaves**, once the digest is known: nothing is published, or the link was made
and the file of the digest is new. -/
def Left (lib : BlobLib) (files : BlobFiles) (staged : Staged) (target : StorePath)
    (u : BlobFiles × Trace StoreOp) (failed : Prop) : Prop :=
  Unpublished files u ∧ (¬ failed → ∃ bytes, u.1.read target = some bytes ∧
      verifyFile lib bytes (lib.digest staged.bytes) staged.bytes.length = .ok ()) ∨
    files.entry target = none ∧ u.1.read target = some staged.bytes ∧
      (∀ head rest, .blob head rest ≠ target →
        u.1.read (.blob head rest) = files.read (.blob head rest)) ∧
      (failed ↔ RemovalFailed u.2)

/-- The others do not change what is left. -/
theorem Left.others {staged : Staged} {target : StorePath} {failed failed' : Prop}
    {u v : BlobFiles × Trace StoreOp} (htarget : ∃ head rest, target = .blob head rest)
    (hl : Left lib files staged target u failed) (hv : unrecorded Swept u v)
    (hfailed : failed' ↔ failed) : Left lib files staged target v failed' := by
  obtain ⟨head, rest, rfl⟩ := htarget
  have hsame := hv.1.sameBlobs
  rcases hl with ⟨hu, hverified⟩ | ⟨hfree, hread, hothers, hremoval⟩
  · refine .inl ⟨hu.others hv, fun hok => ?_⟩
    obtain ⟨bytes, hread, hbytes⟩ := hverified (hfailed.not.mp hok)
    exact ⟨bytes, (hsame.read head rest).trans hread, hbytes⟩
  · refine .inr ⟨hfree, (hsame.read head rest).trans hread, fun head' rest' hne => ?_, ?_⟩
    · exact (hsame.read head' rest').trans (hothers head' rest' hne)
    · rw [hv.2]
      exact hfailed.trans hremoval

/-- The staging file gets its second name. -/
theorem StagedFile.linked {staged : Staged} {target : StorePath}
    (hstaged : StagedFile lib files staged)
    (hlink : files.link (stagingPath lib staged.id) target = .ok files') :
    files.entry target = none ∧ files'.read target = some staged.bytes ∧
      ∀ head rest, .blob head rest ≠ target →
        files'.read (.blob head rest) = files.read (.blob head rest) := by
  obtain ⟨i, hi, hfree, rfl⟩ := Tree.link_eq_ok_iff.mp hlink
  obtain rfl := hstaged.named i hi
  refine ⟨hfree, ?_, fun head rest hne => ?_⟩
  · rw [Tree.read, Tree.entry_setEntry_self]
    exact congrArg some hstaged.content
  · rw [Tree.read, Tree.entry_setEntry_of_ne hne]
    rfl

/-- After a link that was made, what counts is whether its staging name was removed. -/
theorem Unlinked.removalFailed_iff {id id' : Uuid} {target : StorePath} {removed : Bool}
    (hh : Unlinked h) :
    RemovalFailed (h ++ [⟨.hardLink id target, .ok ()⟩] ++ [⟨.removeFile id', removed⟩]) ↔
      removed = false ∧ id' = id := by
  rw [List.append_assoc]
  constructor
  · rintro ⟨pre, id₀, target₀, post, heq⟩
    rcases List.append_eq_append_iff.mp heq with ⟨mid, rfl, htail⟩ | ⟨mid, rfl, htail⟩
    · rcases mid with _ | ⟨y, mid⟩
      · obtain ⟨hlink, htail⟩ := List.cons.inj htail
        obtain ⟨hremove, -⟩ := List.cons.inj htail
        cases hlink
        cases hremove
        exact ⟨rfl, rfl⟩
      · obtain ⟨-, htail⟩ := List.cons.inj htail
        rcases mid with _ | ⟨z, mid⟩
        · obtain ⟨hlink, -⟩ := List.cons.inj htail
          cases congrArg linked hlink
        · obtain ⟨-, htail⟩ := List.cons.inj htail
          exact absurd htail.symm (List.append_ne_nil_of_right_ne_nil mid (List.cons_ne_nil _ _))
    · rcases mid with _ | ⟨y, mid⟩
      · obtain ⟨hlink, htail⟩ := List.cons.inj htail
        obtain ⟨hremove, -⟩ := List.cons.inj htail
        cases hlink
        cases hremove
        exact ⟨rfl, rfl⟩
      · obtain ⟨rfl, -⟩ := List.cons.inj htail
        have := hh _ (List.mem_append_right pre List.mem_cons_self)
        cases this
  · rintro ⟨rfl, rfl⟩
    exact ⟨h, id', target, [], rfl⟩

/-- **The link** of a staging file to its digest, and what follows. -/
theorem beside_linkStaged {staged : Staged} {head rest : String} {t : BlobFiles × Trace StoreOp}
    (hu : Unpublished files t) (hstaged : StagedFile lib t.1 staged) :
    StoreBeside lib
      (linkStaged staged.id (.blob head rest) (lib.digest staged.bytes) staged.bytes.length s) t
      fun u r => Left lib files staged (.blob head rest) u (∃ e, r = .error e) := by
  refine beside_call_bind.mpr fun t₁ ht₁ => ⟨trivial, fun linked t₂ ht₂ => ?_⟩
  have hu₁ := hu.others ht₁
  rcases linked with (failure | ⟨⟩)
  · cases failure with
    | alreadyExists =>
        have hfiles : t₂.1 = t₁.1 := ht₂.1.1
        have hu₂ := hu₁.exchange ht₂ rfl (hfiles ▸ SameBlobs.refl _)
        refine beside_call_bind.mpr fun t₃ ht₃ => ⟨trivial, fun verified t₄ ht₄ => ?_⟩
        refine beside_call_bind.mpr fun t₅ ht₅ => ⟨trivial, fun removed t₆ ht₆ => ?_⟩
        intro t₇ ht₇
        have hremoved := sameBlobs_removeFile ht₆.1
        rcases verified with (failure | ⟨⟩)
        · have hfiles₄ : t₄.1 = t₃.1 := ht₄.1
          have hu₄ := (hu₂.others ht₃).exchange ht₄ rfl (hfiles₄ ▸ SameBlobs.refl _)
          exact .inl ⟨((hu₄.others ht₅).exchange ht₆ rfl hremoved).others ht₇,
            fun hok => absurd ⟨_, rfl⟩ hok⟩
        · obtain ⟨hfiles₄, bytes, hread, hverified⟩ := ht₄.1
          have hu₄ := (hu₂.others ht₃).exchange ht₄ rfl (hfiles₄ ▸ SameBlobs.refl _)
          refine .inl ⟨((hu₄.others ht₅).exchange ht₆ rfl hremoved).others ht₇, fun _ => ?_⟩
          have hsame := (ht₅.1.sameBlobs.trans hremoved).trans ht₇.1.sameBlobs
          exact ⟨bytes, by rw [hsame.read, hfiles₄, hread], hverified⟩
    | other =>
        have hfiles : t₂.1 = t₁.1 := ht₂.1
        refine (beside_discardStaging (hu₁.exchange ht₂ rfl (hfiles ▸ SameBlobs.refl _))).imp ?_
        rintro u r ⟨hu, rfl⟩
        exact .inl ⟨hu, fun hok => absurd ⟨_, rfl⟩ hok⟩
  · obtain ⟨hfree, hread, hothers⟩ := (hstaged.swept ht₁.1).linked ht₂.1
    refine beside_call_bind.mpr fun t₃ ht₃ => ⟨trivial, fun removed t₄ ht₄ => ?_⟩
    have hsame := ht₃.1.sameBlobs.trans (sameBlobs_removeFile ht₄.1)
    have hleft : ∀ u : BlobFiles × Trace StoreOp, unrecorded Swept t₄ u → ∀ failed : Prop,
        (failed ↔ removed = false) → Left lib files staged (.blob head rest) u failed := by
      intro u hu' failed hfailed
      have hsame' := hsame.trans hu'.1.sameBlobs
      refine .inr ⟨?_, ?_, fun head' rest' hne => ?_, ?_⟩
      · rw [← hu₁.same.entry, hfree]
      · rw [hsame'.read, hread]
      · rw [hsame'.read, hothers head' rest' hne, hu₁.same.read]
      · rw [hfailed, hu'.2, ht₄.2, ht₃.2, ht₂.2, hu₁.unlinked.removalFailed_iff]
        exact (and_iff_left rfl).symm
    cases removed with
    | true => exact fun u hu' => hleft u hu' _ (by simp)
    | false => exact fun u hu' => hleft u hu' _ ⟨fun _ => rfl, fun _ => ⟨_, rfl⟩⟩

/-- What is left of a call whose bytes are staged, given what it returns. -/
def LeftBy (lib : BlobLib) (files : BlobFiles) (staged : Staged) (u : BlobFiles × Trace StoreOp)
    (failed : Prop) : Prop :=
  Unpublished files u ∧ failed ∨
    ∃ target, pathForDigest (lib.digest staged.bytes) = some target ∧
      Left lib files staged target u failed

/-- The others do not change that. -/
theorem LeftBy.others {staged : Staged} {failed : Prop} {u v : BlobFiles × Trace StoreOp}
    (hl : LeftBy lib files staged u failed) (hv : unrecorded Swept u v) :
    LeftBy lib files staged v failed := by
  rcases hl with ⟨hu, hfailed⟩ | ⟨target, hpath, hleft⟩
  · exact .inl ⟨hu.others hv, hfailed⟩
  · obtain ⟨head, rest, htarget, -⟩ := eq_of_pathForDigest hpath
    exact .inr ⟨target, hpath, hleft.others ⟨head, rest, htarget⟩ hv Iff.rfl⟩

/-- **What `publish` leaves**. -/
theorem beside_publish {owner mediaType : String} {staged : Staged}
    {t : BlobFiles × Trace StoreOp} (hu : Unpublished files t)
    (hstaged : StagedFile lib t.1 staged) :
    StoreBeside lib (publish lib owner mediaType staged s) t fun u r =>
      LeftBy lib files staged u (∃ e, r = .error e) := by
  have hrefl : ∀ t : BlobFiles × Trace StoreOp, unrecorded Swept t t :=
    fun t => ⟨Swept.refl t.1, rfl⟩
  have hfailed : ∀ {e : BlobStoreError × σ} (u : BlobFiles × Trace StoreOp), Unpublished files u →
      LeftBy lib files staged u
        (∃ e', (.error e : Except (BlobStoreError × σ) (BlobRef × σ)) = .error e') :=
    fun u hu => .inl ⟨hu, _, rfl⟩
  refine Beside.check (fun _ => ?_) fun u hu' => hfailed u (hu.others hu')
  cases hpath : pathForDigest (lib.digest staged.bytes) with
  | none => exact fun t₁ ht₁ => hfailed t₁ (hu.others ht₁)
  | some target =>
      obtain ⟨head, rest, rfl, -⟩ := eq_of_pathForDigest hpath
      refine beside_checkIo (fun _ _ _ heffect => heffect) (fun _ => rfl) hu
        (fun t₁ ht₁ hu₁ => ?_) hfailed
      refine Beside.bind_except hrefl
        ((beside_linkStaged hu₁ (hstaged.swept ht₁)).imp ?_)
      rintro u (e | ⟨⟩) hleft
      · exact fun v hv => .inr ⟨_, hpath, hleft.others ⟨head, rest, rfl⟩ hv (by simp)⟩
      · exact fun v hv => .inr ⟨_, hpath, hleft.others ⟨head, rest, rfl⟩ hv (by simp)⟩

/-- What a call of `store` leaves under the root. -/
def StoreLeft (lib : BlobLib) (owner mediaType : String)
    (step : σ → ρ → σ × Option (Except Unit (List UInt8))) (s : σ) (reads : List ρ)
    (files : BlobFiles) (u : BlobFiles × Trace StoreOp) :
    Except (BlobStoreError × σ) (BlobRef × σ) → Prop
  | .ok (blob, v) => ∃ staged, blob = blobRefOf lib owner mediaType staged.bytes ∧
      Consumed step s reads (.ok (staged.bytes, v)) ∧ LeftBy lib files staged u False
  | .error (error, v) => BrokenOff step s reads error v ∧
      (Unpublished files u ∨ error ≠ .stream ∧ ∃ staged, LeftBy lib files staged u True)

/-- **A call of `store`** from a root that others only sweep: what it returns, and what it leaves. -/
theorem beside_store {owner mediaType : String} (hallocated : files.Allocated) :
    StoreBeside lib (store lib owner mediaType step reads s) (files, [])
      (StoreLeft lib owner mediaType step s reads files) := by
  have hrefl : ∀ t : BlobFiles × Trace StoreOp, unrecorded Swept t t :=
    fun t => ⟨Swept.refl t.1, rfl⟩
  have hu : Unpublished files (files, ([] : Trace StoreOp)) :=
    ⟨SameBlobs.refl files, fun _ hx => nomatch hx⟩
  have hbefore : ∀ {error : BlobStoreError}, error ≠ .stream → ∀ u : BlobFiles × Trace StoreOp,
      unrecorded Swept (files, []) u →
      StoreLeft lib owner mediaType step s reads files u (.error (error, s)) :=
    fun herror u hu' => ⟨BrokenOff.before herror, .inl (hu.others hu')⟩
  refine Beside.check (fun _ => ?_) (hbefore (by decide))
  refine Beside.check (fun _ => ?_) (hbefore (by decide))
  refine Beside.bind_except hrefl (((beside_stage hu hallocated).and_ensures ensures_stage).imp ?_)
  rintro ⟨files₁, h₁⟩ (⟨error, v⟩ | ⟨staged, v⟩) ⟨⟨hu₁, hstaged⟩, hconsumed⟩
  · exact fun u hu' => ⟨hconsumed, .inl (hu₁.others hu')⟩
  · refine ((beside_publish hu₁ (hstaged staged v rfl)).and_ensures ensures_publish).imp ?_
    rintro u r ⟨hleft, rfl | ⟨error, herror, rfl⟩⟩
    · simp only [reduceCtorEq, exists_false] at hleft
      exact ⟨staged, rfl, hconsumed, hleft⟩
    · simp only [Except.error.injEq, exists_eq'] at hleft
      obtain ⟨w, rest, hpulls, hend⟩ := hconsumed
      exact ⟨BrokenOff.after herror hpulls hend, .inr ⟨herror, staged, hleft⟩⟩

/-! ### Failed calls -/

/-- **A call of `store` that fails publishes nothing**, exactly when the removal of the staging name
does not fail after the link was made. -/
theorem failed_store_publishes_iff {owner mediaType : String} {tr : Trace StoreOp}
    {r : Except (BlobStoreError × σ) (BlobRef × σ)} (hallocated : files.Allocated)
    (hexec : ExecBeside Swept (storeEffect lib) (store lib owner mediaType step reads s).run files
      tr files' r) :
    ((∃ e, r = .error e) →
        ∀ head rest, files'.read (.blob head rest) = files.read (.blob head rest)) ↔
      ¬ RemovalFailed tr := by
  have hleft : StoreLeft lib owner mediaType step s reads files (files', tr) r :=
    (beside_store hallocated).exec hexec
  have hunpublished : Unpublished files (files', tr) →
      (((∃ e, r = .error e) →
        ∀ head rest, files'.read (.blob head rest) = files.read (.blob head rest)) ↔
          ¬ RemovalFailed tr) :=
    fun hu => iff_of_true (fun _ => hu.same.read) hu.unlinked.not_removalFailed
  rcases r with ⟨error, v⟩ | ⟨blob, v⟩
  · obtain ⟨-, hu | ⟨-, staged, ⟨hu, -⟩ | ⟨target, hpath, ⟨hu, -⟩ | ⟨hfree, hread, -, hremoval⟩⟩⟩⟩ :=
      hleft
    · exact hunpublished hu
    · exact hunpublished hu
    · exact hunpublished hu
    · obtain ⟨head, rest, rfl, -⟩ := eq_of_pathForDigest hpath
      refine iff_of_false (fun hsame => ?_) (not_not.mpr (hremoval.mp trivial))
      have hnone : files'.read (.blob head rest) = none := by
        rw [hsame ⟨_, rfl⟩ head rest, Tree.read, hfree, Option.map_none]
      exact Option.some_ne_none _ (hread.symm.trans hnone)
  · obtain ⟨staged, -, -, ⟨-, hfalse⟩ | ⟨target, -, ⟨hu, -⟩ | ⟨-, -, -, hremoval⟩⟩⟩ := hleft
    · exact hfalse.elim
    · exact hunpublished hu
    · exact iff_of_true (fun ⟨_, he⟩ => nomatch he) (mt hremoval.mpr not_false)

/-- The files of the small store, once the artifact is staged. -/
def smallStaged : BlobFiles :=
  (Tree.empty.addFile (stagingPath smallBlobLib 0)).append 0 smallArtifact

theorem smallStaged_entry : smallStaged.entry (stagingPath smallBlobLib 0) = some 0 := by
  simp [smallStaged, Tree.append, Tree.addFile, Tree.empty]

/-- The link of the staged artifact. -/
theorem smallStaged_link : smallStaged.link (stagingPath smallBlobLib 0) smallTarget =
    .ok (smallStaged.setEntry smallTarget 0) :=
  Tree.link_eq_ok_iff.mpr ⟨0, smallStaged_entry, rfl, rfl⟩

/-- The artifact is read under its digest, with or without its staging name. -/
theorem smallLinked_read :
    ((smallStaged.setEntry smallTarget 0).unlink (stagingPath smallBlobLib 0)).read smallTarget =
      some smallArtifact := by
  rw [Tree.read, Tree.entry_unlink_of_ne (by nofun), Tree.entry_setEntry_self]
  rfl

theorem swept_trans (s t u : BlobFiles) (hst : Swept s t) (htu : Swept t u) : Swept s u :=
  hst.trans htu

/-- A stream that yields the small artifact is staged. -/
theorem smallStage_exec {raw : ρ} {t : σ} (hstep : step s raw = (t, some (.ok smallArtifact))) :
    ∃ tr, ExecBeside Swept (storeEffect smallBlobLib) (stage step [raw] s).run Tree.empty tr
      smallStaged (.ok (⟨0, 0, smallArtifact⟩, t)) := by
  have hcopy : ExecBeside Swept (storeEffect smallBlobLib) (copyStream step 0 0 [raw] s []).run
      (Tree.empty.addFile (stagingPath smallBlobLib 0)) [⟨.writeAll 0 smallArtifact, true⟩]
      smallStaged (.ok (smallArtifact, t)) := by
    rw [copyStream, hstep]
    exact .ask (StoreOp.writeAll 0 smallArtifact) _ true (Swept.refl _) rfl (.done _ (Swept.refl _))
  exact ⟨_, .ask StoreOp.createStagingDirectory _ true (Swept.refl _) (Eq.refl Tree.empty)
    (.ask StoreOp.newUuid _ 0 (Swept.refl _) ⟨rfl, rfl⟩
    (.ask (StoreOp.create 0) _ (some 0) (Swept.refl _) rfl
    (hcopy.bind swept_trans
    (.ask (StoreOp.flush 0) _ true (Swept.refl _) rfl
    (.ask (StoreOp.syncAll 0) _ true (Swept.refl _) rfl (.done _ (Swept.refl _)))))))⟩

/-- The small artifact is published. -/
theorem smallPublish_exec : ∃ tr, ExecBeside Swept (storeEffect smallBlobLib)
    (publish smallBlobLib producer "text/plain" ⟨0, 0, smallArtifact⟩ s).run smallStaged tr
      ((smallStaged.setEntry smallTarget 0).unlink (stagingPath smallBlobLib 0))
      (.ok (blobRefOf smallBlobLib producer "text/plain" smallArtifact, s)) := by
  rw [publish, require, if_pos smallDigest_valid, smallTarget_eq]
  have hentry : (smallStaged.setEntry smallTarget 0).entry (stagingPath smallBlobLib 0) ≠ none := by
    rw [Tree.entry_setEntry_of_ne (by rintro ⟨⟩), smallStaged_entry]
    exact Option.some_ne_none 0
  exact ⟨_, .ask (StoreOp.createParent smallTarget) _ true (Swept.refl _) (Eq.refl smallStaged)
    (.ask (StoreOp.hardLink 0 smallTarget) _ (.ok ()) (Swept.refl _) smallStaged_link
    (.ask (StoreOp.removeFile 0) _ true (Swept.refl _) ⟨rfl, hentry⟩ (.done _ (Swept.refl _))))⟩

/-- The small artifact is published, and another process prepares the root right after the link. -/
theorem smallPublish_swept : ∃ tr, ExecBeside Swept (storeEffect smallBlobLib)
    (publish smallBlobLib producer "text/plain" ⟨0, 0, smallArtifact⟩ s).run smallStaged tr
      ((smallStaged.setEntry smallTarget 0).unlink (stagingPath smallBlobLib 0))
      (.error (.io, s)) := by
  have hswept : Swept (smallStaged.setEntry smallTarget 0)
      ((smallStaged.setEntry smallTarget 0).unlink (stagingPath smallBlobLib 0)) :=
    { content := rfl
      next := rfl
      blob := fun _ _ => Tree.entry_unlink_of_ne (by nofun)
      staging := fun name => by
        by_cases hname : StorePath.staging name = stagingPath smallBlobLib 0
        · refine .inr ⟨hname ▸ Function.update_self .., ?_⟩
          rw [StorePath.staging.inj hname]
          decide +kernel
        · exact .inl (Tree.entry_unlink_of_ne hname) }
  rw [publish, require, if_pos smallDigest_valid, smallTarget_eq]
  exact ⟨_, .ask (StoreOp.createParent smallTarget) _ true (Swept.refl _) (Eq.refl smallStaged)
    (.ask (StoreOp.hardLink 0 smallTarget) _ (.ok ()) (Swept.refl _) smallStaged_link
    (.ask (StoreOp.removeFile 0) _ false hswept rfl (.done _ (Swept.refl _))))⟩

/-- A call for the small artifact ends as its publication does. -/
theorem smallStore_exec {raw : ρ} {t : σ} (hstep : step s raw = (t, some (.ok smallArtifact)))
    {files' : BlobFiles} {r : Except (BlobStoreError × σ) (BlobRef × σ)}
    (hpublish : ∃ tr, ExecBeside Swept (storeEffect smallBlobLib)
      (publish smallBlobLib producer "text/plain" ⟨0, 0, smallArtifact⟩ t).run smallStaged tr
        files' r) :
    ∃ tr, ExecBeside Swept (storeEffect smallBlobLib)
      (store smallBlobLib producer "text/plain" step [raw] s).run Tree.empty tr files' r := by
  obtain ⟨tr, hstage⟩ := smallStage_exec hstep
  obtain ⟨tr', hpublish⟩ := hpublish
  exact ⟨tr ++ tr', hstage.bind swept_trans hpublish⟩

/-- A stream of one chunk for each read. -/
def chunkStep (s : Unit) (chunk : List UInt8) : Unit × Option (Except Unit (List UInt8)) :=
  (s, some (.ok chunk))

/-- A call for the small artifact that fails, and publishes it. -/
theorem smallStore_swept : ∃ tr, ExecBeside Swept (storeEffect smallBlobLib)
    (store smallBlobLib producer "text/plain" chunkStep [smallArtifact] ()).run Tree.empty tr
      ((smallStaged.setEntry smallTarget 0).unlink (stagingPath smallBlobLib 0))
      (.error (.io, ())) :=
  smallStore_exec rfl smallPublish_swept

/-- A call that fails and has published. -/
theorem failed_store_publishes : ∃ files' tr, ExecBeside Swept (storeEffect smallBlobLib)
    (store smallBlobLib producer "text/plain" chunkStep [smallArtifact] ()).run Tree.empty tr files'
      (.error (.io, ())) ∧
    ¬ ∀ head rest, files'.read (.blob head rest) =
      (Tree.empty : BlobFiles).read (.blob head rest) := by
  obtain ⟨tr, hexec⟩ := smallStore_swept
  refine ⟨_, tr, hexec, fun hsame => ?_⟩
  have hempty : (Tree.empty : BlobFiles).read smallTarget = none := rfl
  exact Option.some_ne_none _ (smallLinked_read.symm.trans ((hsame _ _).trans hempty))

theorem failed_store_publishes_iff_swept : ∃ files' tr, RemovalFailed tr ∧
    ExecBeside Swept (storeEffect smallBlobLib)
      (store smallBlobLib producer "text/plain" chunkStep [smallArtifact] ()).run Tree.empty tr
        files' (.error (.io, ())) := by
  obtain ⟨tr, hexec⟩ := smallStore_swept
  refine ⟨_, tr, ?_, hexec⟩
  have hallocated : (Tree.empty : BlobFiles).Allocated := by
    intro p i hentry
    cases hentry
  have hempty : (Tree.empty : BlobFiles).read smallTarget = none := rfl
  by_contra hremoval
  have hsame := (failed_store_publishes_iff hallocated hexec).mpr hremoval ⟨_, rfl⟩
  exact Option.some_ne_none _ (smallLinked_read.symm.trans ((hsame _ _).trans hempty))

end Calls

end Extractor
