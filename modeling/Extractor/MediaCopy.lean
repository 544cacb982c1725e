import Extractor.MediaArchives
import Extractor.StoreCall

/-!
# Archiving one video

`MediaArchiver::archive_video` of `services/extractor/src/youtube_media.rs` and the stream that it
copies a downloaded file with. A read of a file may return fewer bytes than the buffer holds; the
stream takes such a read for the last one.

## Main definitions

* `cappedStep`, `fileReads`: the stream of `capped_file_stream`, and how a file is read.
* `archiveVideo`: one attempt, with the store as one request.

## Main results

* `copies_whole_iff`: the copy yields the whole file or an error exactly when the first short read
  is the last one or is over the cap.
-/

namespace Extractor

open Program

/-! ### Streams without a consumer that fails -/

section Drain

variable {ρ σ : Type} {step : σ → ρ → σ × Option (Except Unit (List UInt8))} {s t : σ}
  {reads rest : List ρ} {bytes : List UInt8}

/-- What a stream yields in all, and whether it ends without an error. -/
def drain (step : σ → ρ → σ × Option (Except Unit (List UInt8))) : List ρ → σ → List UInt8 × Bool
  | [], _ => ([], true)
  | raw :: rest, s =>
      match step s raw with
      | (_, none) => ([], true)
      | (_, some (.error ())) => ([], false)
      | (s, some (.ok chunk)) =>
          let (bytes, clean) := drain step rest s
          (chunk ++ bytes, clean)

/-- What is pulled comes first. -/
theorem Pulls.drain_eq (hpulls : Pulls step s reads bytes t rest) :
    drain step reads s = (bytes ++ (drain step rest t).1, (drain step rest t).2) := by
  induction hpulls with
  | refl s reads => rfl
  | pull hstep _ ih =>
      rw [drain, hstep]
      dsimp only
      rw [ih, List.append_assoc]

/-- A stream that is consumed to its end ends without an error. -/
theorem Consumed.drain_eq (hconsumed : Consumed step s reads (.ok (bytes, t))) :
    drain step reads s = (bytes, true) := by
  obtain ⟨u, rest, hpulls, hend⟩ := hconsumed
  have hrest : drain step rest u = ([], true) := by
    rcases hend with ⟨rfl, -⟩ | ⟨raw, rest', rfl, hstep⟩
    · rfl
    · rw [drain, hstep]
  rw [hpulls.drain_eq, hrest, List.append_nil]

end Drain

/-! ### The capped copy -/

/-- The state of `capped_file_stream` beside the file and the cap. -/
structure CopyState where
  total : ℕ
  eof : Bool
  exceeded : Bool

/-- Before the first read. -/
def CopyState.start : CopyState := ⟨0, false, false⟩

/-- `CHUNK_BYTES`. -/
def copyChunkBytes : ℕ := 64 * 1024

/-- One step of `capped_file_stream`, with the read it would make. A read that is shorter than the
buffer ends the stream after its bytes. -/
def cappedStep (cap : ℕ) (s : CopyState) (read : Except Unit (List UInt8)) :
    CopyState × Option (Except Unit (List UInt8)) :=
  if s.exceeded ∨ s.eof then (s, none)
  else
    match read with
    | .ok [] => (s, none)
    | .ok (byte :: bytes) =>
        let read := (byte :: bytes).length
        if cap ≤ s.total then ({ s with exceeded := true }, some (.error ()))
        else
          let take := min read (cap - s.total)
          if take < read then ({ s with exceeded := true }, some (.error ()))
          else ({ total := s.total + take, eof := decide (read < copyChunkBytes), exceeded := false },
            some (.ok ((byte :: bytes).take take)))
    | .error () => ({ s with exceeded := true }, some (.error ()))

/-- The reads of a file in pieces of given sizes, up to the end of the file. -/
def fileReads : List ℕ → List UInt8 → List (Except Unit (List UInt8))
  | [], _ => [.ok []]
  | size :: sizes, content => .ok (content.take size) :: fileReads sizes (content.drop size)

/-- The bytes up to the end of the first read that is shorter than the buffer. -/
def throughFirstShort : List ℕ → ℕ
  | [] => 0
  | size :: sizes => if size < copyChunkBytes then size else size + throughFirstShort sizes

/-- The sizes of the reads of a file: positive, at most a buffer each, all of the file together. -/
structure ReadSizes (content : List UInt8) (sizes : List ℕ) : Prop where
  each : ∀ size ∈ sizes, 0 < size ∧ size ≤ copyChunkBytes
  all : sizes.sum = content.length

section Copy

variable {cap total size : ℕ} {content : List UInt8} {sizes : List ℕ}

theorem ReadSizes.tail (h : ReadSizes content (size :: sizes)) :
    ReadSizes (content.drop size) sizes where
  each size' hsize := h.each size' (List.mem_cons_of_mem size hsize)
  all := by
    have hall := h.all
    rw [List.sum_cons] at hall
    rw [List.length_drop]
    omega

theorem throughFirstShort_le_sum (sizes : List ℕ) : throughFirstShort sizes ≤ sizes.sum := by
  induction sizes with
  | nil => exact Nat.le_refl 0
  | cons size sizes ih =>
      rw [throughFirstShort, List.sum_cons]
      split
      · exact Nat.le_add_right size _
      · exact Nat.add_le_add_left ih size

/-- One read within the cap is handed on; a short one is taken for the last. -/
theorem cappedStep_within (hsize : 0 < size) (hcontent : size ≤ content.length)
    (hcap : total + size ≤ cap) :
    cappedStep cap ⟨total, false, false⟩ (.ok (content.take size)) =
      (⟨total + size, decide (size < copyChunkBytes), false⟩, some (.ok (content.take size))) := by
  have hlength : (content.take size).length = size := by
    rw [List.length_take]
    omega
  cases htake : content.take size with
  | nil =>
      rw [htake] at hlength
      exact absurd hlength.symm (Nat.ne_of_gt hsize)
  | cons byte bytes =>
      rw [htake] at hlength
      have hmin : min size (cap - total) = size := Nat.min_eq_left (by omega)
      rw [cappedStep, if_neg (by simp)]
      dsimp only
      rw [hlength, if_neg (by omega), hmin, if_neg (Nat.lt_irrefl size), ← hlength,
        List.take_length]

/-- A read over the cap fails. -/
theorem cappedStep_over (hsize : 0 < size) (hcontent : size ≤ content.length)
    (hcap : cap < total + size) :
    cappedStep cap ⟨total, false, false⟩ (.ok (content.take size)) =
      (⟨total, false, true⟩, some (.error ())) := by
  have hlength : (content.take size).length = size := by
    rw [List.length_take]
    omega
  cases htake : content.take size with
  | nil =>
      rw [htake] at hlength
      exact absurd hlength.symm (Nat.ne_of_gt hsize)
  | cons byte bytes =>
      rw [htake] at hlength
      rw [cappedStep, if_neg (by simp)]
      dsimp only
      rw [hlength]
      split
      · rfl
      · rw [if_pos (by omega)]

/-- After the end nothing is yielded. -/
theorem drain_eof (reads : List (Except Unit (List UInt8))) (exceeded : Bool) :
    drain (cappedStep cap) reads ⟨total, true, exceeded⟩ = ([], true) := by
  cases reads with
  | nil => rfl
  | cons read reads =>
      have hstep : cappedStep cap ⟨total, true, exceeded⟩ read =
          (⟨total, true, exceeded⟩, none) :=
        if_pos (.inr rfl)
      rw [drain, hstep]

/-- **The copy of a file** yields it through the first short read, or fails at the cap before. -/
theorem drain_fileReads (h : ReadSizes content sizes) (htotal : total ≤ cap) :
    total + throughFirstShort sizes ≤ cap ∧
        drain (cappedStep cap) (fileReads sizes content) ⟨total, false, false⟩ =
          (content.take (throughFirstShort sizes), true) ∨
      cap < total + throughFirstShort sizes ∧
        (drain (cappedStep cap) (fileReads sizes content) ⟨total, false, false⟩).2 = false := by
  induction sizes generalizing content total with
  | nil => exact .inl ⟨htotal, rfl⟩
  | cons size sizes ih =>
      obtain ⟨hsize, hroom⟩ := h.each size List.mem_cons_self
      have hall := h.all
      rw [List.sum_cons] at hall
      have hcontent : size ≤ content.length := by omega
      rw [fileReads, drain, throughFirstShort]
      by_cases hcap : total + size ≤ cap
      · rw [cappedStep_within hsize hcontent hcap]
        dsimp only
        by_cases hshort : size < copyChunkBytes
        · rw [if_pos hshort, decide_eq_true hshort, drain_eof, List.append_nil]
          exact .inl ⟨hcap, rfl⟩
        · rw [if_neg hshort, decide_eq_false hshort]
          rcases ih h.tail hcap with ⟨hwithin, hdrain⟩ | ⟨hover, hfailed⟩
          · rw [hdrain, List.take_add]
            exact .inl ⟨by omega, rfl⟩
          · exact .inr ⟨by omega, hfailed⟩
      · rw [cappedStep_over hsize hcontent (Nat.lt_of_not_le hcap)]
        refine .inr ⟨?_, rfl⟩
        split
        · omega
        · omega

/-- What the copy is for: it yields the whole file and ends, exactly when the file fits, or it
fails. -/
def WholeOrError (cap : ℕ) (content : List UInt8) (sizes : List ℕ) : Prop :=
  let (bytes, clean) := drain (cappedStep cap) (fileReads sizes content) .start
  (clean = true → bytes = content) ∧ (clean = true ↔ content.length ≤ cap)

/-- The copy does that exactly when the first short read is the last one, or over the cap. -/
theorem wholeOrError_iff (h : ReadSizes content sizes) : WholeOrError cap content sizes ↔
    cap < throughFirstShort sizes ∨ throughFirstShort sizes = content.length := by
  have hle : throughFirstShort sizes ≤ content.length := h.all ▸ throughFirstShort_le_sum sizes
  unfold WholeOrError CopyState.start
  rcases drain_fileReads h (Nat.zero_le cap) with ⟨hwithin, hdrain⟩ | ⟨hover, hfailed⟩
  · rw [hdrain]
    rw [Nat.zero_add] at hwithin
    constructor
    · intro hwhole
      have hlength := congrArg List.length (hwhole.1 rfl)
      rw [List.length_take, Nat.min_eq_left hle] at hlength
      exact .inr hlength
    · rintro (hover | hlast)
      · omega
      · refine ⟨fun _ => ?_, iff_of_true rfl (hlast ▸ hwithin)⟩
        rw [hlast, List.take_length]
  · rw [Nat.zero_add] at hover
    refine iff_of_true ?_ (.inl hover)
    dsimp only
    rw [hfailed]
    exact ⟨nofun, iff_of_false nofun (by omega)⟩

end Copy

/-! ### One attempt -/

/-- What one attempt asks of its surroundings. No answer is an error of the infrastructure. -/
inductive ArchiveOp : Type → Type
  | hasUnexpiredMediaForVideo (videoId : String) : ArchiveOp (Option Bool)
  | unexpiredMediaBytes : ArchiveOp (Option ℤ)
  /-- `create_dir_all` of the working directory. -/
  | createWorkingDir : ArchiveOp Bool
  /-- `MediaDownloader::download`: a failure class, or the length of the file. -/
  | download (videoUrl : String) (maxItemBytes : ℕ) : ArchiveOp (Except String ℕ)
  /-- `File::open` of the downloaded file. -/
  | openDownloaded : ArchiveOp Bool
  /-- `store` of the downloaded file under a cap. -/
  | store (mediaType : String) (cap : ℕ) : ArchiveOp (Except BlobStoreError BlobRef)
  | reserveMediaArchive (record : MediaArchiveRecord) (budget : ℤ) : ArchiveOp (Option Bool)
  /-- `remove_dir` of the working directory. -/
  | removeDir : ArchiveOp Unit

/-- Archiving code; its error is an error of the infrastructure. -/
abbrev ArchiveM := ExceptT Unit (Program ArchiveOp)

/-- `retention_hours`. -/
def retentionHours (configured : ℕ) : ℤ := min configured (2 ^ 31 - 1)

/-- `i64::try_from(total_budget_bytes).unwrap_or(i64::MAX)`. -/
def mediaBudget (media : YoutubeMediaConfig) : ℤ := min media.totalBudgetBytes i64Max

/-- The cap of the copy: what is left of the budget, in one item. -/
def copyCap (media : YoutubeMediaConfig) (used : ℤ) : ℕ :=
  let remaining := min (mediaBudget media - used) i64Max
  min media.maxItemBytes (if 0 ≤ remaining then remaining.toNat else media.maxItemBytes)

/-- `remove_dir`, then the outcome. -/
def removeDirThen (outcome : ArchivalOutcome) : ArchiveM ArchivalOutcome := do
  Program.call ArchiveOp.removeDir
  return outcome

/-- `remove_dir`, then the error. -/
def removeDirThenFail : ArchiveM ArchivalOutcome := do
  Program.call ArchiveOp.removeDir
  throw ()

/-- The end of `archive_video`, once the file is stored. -/
def reserveStored (media : YoutubeMediaConfig) (runId : Uuid) (videoId : String)
    (reference : BlobRef) : ArchiveM ArchivalOutcome := do
  let reserved ← Program.call (ArchiveOp.reserveMediaArchive
    ⟨runId, videoId, reference, retentionHours media.retentionHours⟩ (mediaBudget media))
  match reserved with
  | some true => removeDirThen (.stored reference.digest.hex reference.lengthBytes)
  | some false => removeDirThen .skippedBudgetRace
  | none => removeDirThenFail

/-- The part of `archive_video` after the download. -/
def copyDownloaded (media : YoutubeMediaConfig) (runId : Uuid) (videoId : String) (used : ℤ) :
    ArchiveM ArchivalOutcome := do
  let opened ← Program.call ArchiveOp.openDownloaded
  if opened then
    let stored ← Program.call (ArchiveOp.store "video/mp4" (copyCap media used))
    match stored with
    | .ok reference => reserveStored media runId videoId reference
    | .error .stream => removeDirThen (.failedDownload "media_over_item_cap")
    | .error _ => removeDirThenFail
  else removeDirThenFail

/-- `MediaArchiver::archive_video`. -/
def archiveVideo (media : YoutubeMediaConfig) (runId : Uuid) (videoId canonicalUrl : String) :
    ArchiveM ArchivalOutcome :=
  if media.enabled then do
    let duplicate ← Program.call (ArchiveOp.hasUnexpiredMediaForVideo videoId)
    let duplicate ← okOr duplicate ()
    if duplicate then return .skippedDuplicate
    else
      let used ← Program.call ArchiveOp.unexpiredMediaBytes
      let used ← okOr used ()
      if mediaBudget media ≤ used then return .skippedBudgetExhausted
      else
        let created ← Program.call ArchiveOp.createWorkingDir
        require (created = true) ()
        let downloaded ← Program.call (ArchiveOp.download canonicalUrl media.maxItemBytes)
        match downloaded with
        | .error failureClass => removeDirThen (.failedDownload failureClass)
        | .ok length =>
            if media.maxItemBytes < length then
              removeDirThen (.failedDownload "media_over_item_cap")
            else copyDownloaded media runId videoId used
  else return .disabled

/-! ### What is recorded -/

/-- The store has answered with a reference. -/
def StoredAnswer (h : Trace ArchiveOp) (reference : BlobRef) : Prop :=
  ∃ cap, (⟨.store "video/mp4" cap, .ok reference⟩ : Exchange ArchiveOp) ∈ h

/-- What is reserved is what the store has answered with. -/
def ReservesStored : Condition ArchiveOp := fun h {_} e =>
  match e with
  | .reserveMediaArchive record _ => StoredAnswer h record.reference
  | _ => True

/-- An outcome that says so is about what the store has answered with. -/
def StoredOutcome (h : Trace ArchiveOp) (r : Except Unit ArchivalOutcome) : Prop :=
  ∀ digest length, r = .ok (.stored digest length) →
    ∃ reference, StoredAnswer h reference ∧ digest = reference.digest.hex ∧
      length = reference.lengthBytes

section Recorded

variable {media : YoutubeMediaConfig} {runId : Uuid} {videoId canonicalUrl : String} {used : ℤ}
  {h : Trace ArchiveOp}

theorem StoredAnswer.snoc {reference : BlobRef} (hstored : StoredAnswer h reference)
    (x : Exchange ArchiveOp) : StoredAnswer (h ++ [x]) reference := by
  obtain ⟨cap, hmem⟩ := hstored
  exact ⟨cap, List.mem_append_left _ hmem⟩

/-- An outcome that is not about a stored file. -/
theorem ensures_removeDirThen {outcome : ArchivalOutcome}
    (houtcome : ∀ digest length, outcome ≠ .stored digest length) :
    Ensures ReservesStored (removeDirThen outcome).run h StoredOutcome :=
  ⟨trivial, fun _ digest length heq => absurd (Except.ok.inj heq) (houtcome digest length)⟩

theorem ensures_removeDirThenFail : Ensures ReservesStored removeDirThenFail.run h StoredOutcome :=
  ⟨trivial, fun _ _ _ heq => nomatch heq⟩

theorem ensures_reserveStored {reference : BlobRef} (hstored : StoredAnswer h reference) :
    Ensures ReservesStored (reserveStored media runId videoId reference).run h StoredOutcome := by
  refine ensures_bind_except.mpr ⟨hstored, fun reserved => ?_⟩
  rcases reserved with _ | _ | _
  · exact ensures_removeDirThenFail
  · exact ensures_removeDirThen nofun
  · refine ⟨trivial, fun _ digest length heq => ?_⟩
    obtain ⟨rfl, rfl⟩ := ArchivalOutcome.stored.inj (Except.ok.inj heq)
    exact ⟨reference, (hstored.snoc _).snoc _, rfl, rfl⟩

theorem ensures_copyDownloaded :
    Ensures ReservesStored (copyDownloaded media runId videoId used).run h StoredOutcome := by
  refine ensures_bind_except.mpr ⟨trivial, fun opened => ?_⟩
  cases opened with
  | false => exact ensures_removeDirThenFail
  | true =>
      refine ensures_bind_except.mpr ⟨trivial, fun stored => ?_⟩
      rcases stored with error | reference
      · cases error with
        | stream => exact ensures_removeDirThen nofun
        | _ => exact ensures_removeDirThenFail
      · refine ensures_reserveStored ⟨copyCap media used, ?_⟩
        exact List.mem_append_right _ List.mem_cons_self

/-- **Every attempt** reserves, and reports, what the store has answered with. -/
theorem ensures_archiveVideo :
    Ensures ReservesStored (archiveVideo media runId videoId canonicalUrl).run h StoredOutcome := by
  unfold archiveVideo
  split
  · simp only [ensures_bind_except, ensures_call, ensures_okOr]
    refine ⟨trivial, fun duplicate => ?_⟩
    rcases duplicate with _ | _ | _
    · exact fun _ _ heq => by cases heq
    · simp only [Bool.false_eq_true, if_false, ensures_bind_except, ensures_call, ensures_okOr]
      refine ⟨trivial, fun used => ?_⟩
      rcases used with _ | used
      · exact fun _ _ heq => by cases heq
      · dsimp only
        split
        · exact fun _ _ heq => by cases heq
        · simp only [ensures_bind_except, ensures_call, ensures_require]
          refine ⟨trivial, fun created => ?_⟩
          split
          · refine ⟨trivial, fun downloaded => ?_⟩
            rcases downloaded with failureClass | length
            · exact ensures_removeDirThen (by rintro _ _ ⟨⟩)
            · dsimp only
              split
              · exact ensures_removeDirThen (by rintro _ _ ⟨⟩)
              · exact ensures_copyDownloaded
          · exact fun _ _ heq => by cases heq
    · exact fun _ _ heq => by cases heq
  · exact fun _ _ heq => by cases heq

/-- An answer of the store is what a call of it has come to, for a file that is read as given and
under a given cap. -/
def StoreAnswers (lib : BlobLib) (owner : String) (cap : ℕ) (content : List UInt8)
    (sizes : List ℕ) (tr : Trace ArchiveOp) : Prop :=
  ∀ used answer, (⟨.store "video/mp4" used, answer⟩ : Exchange ArchiveOp) ∈ tr →
    used = cap ∧ ∃ tr' r, Exec (store lib owner "video/mp4" (cappedStep cap)
      (fileReads sizes content) CopyState.start).run tr' r ∧
        answer = (r.map Prod.fst).mapError Prod.fst

/-- No attempt records a part of a file: it reserves, and reports, the whole. -/
def RecordsWhole (lib : BlobLib) (owner : String) (cap : ℕ) (content : List UInt8)
    (sizes : List ℕ) : Prop :=
  ∀ media runId videoId canonicalUrl tr r,
    Exec (archiveVideo media runId videoId canonicalUrl).run tr r →
    StoreAnswers lib owner cap content sizes tr →
      (∀ record budget answer,
        (⟨.reserveMediaArchive record budget, answer⟩ : Exchange ArchiveOp) ∈ tr →
          record.reference = blobRefOf lib owner "video/mp4" content) ∧
      ∀ digest length, r = .ok (.stored digest length) →
        digest = lib.digest content ∧ length = content.length

/-- What the store answers with is the whole file, where the copy does what it is for. -/
theorem StoreAnswers.whole {lib : BlobLib} {owner : String} {cap : ℕ} {content : List UInt8}
    {sizes : List ℕ} {tr : Trace ArchiveOp} {reference : BlobRef}
    (hanswers : StoreAnswers lib owner cap content sizes tr) (hwhole : WholeOrError cap content sizes)
    (hstored : StoredAnswer tr reference) :
    reference = blobRefOf lib owner "video/mp4" content := by
  obtain ⟨used, hmem⟩ := hstored
  obtain ⟨-, tr', r, hexec, hanswer⟩ := hanswers used _ hmem
  have houtcome := (Ensures.exec ensures_store hexec).1
  rcases r with ⟨error, t⟩ | ⟨blob, t⟩
  · cases hanswer
  · obtain ⟨bytes, rfl, hconsumed⟩ := houtcome
    obtain rfl := Except.ok.inj hanswer
    unfold WholeOrError at hwhole
    rw [hconsumed.drain_eq] at hwhole
    rw [hwhole.1 rfl]

/-- **The capped copy** yields the whole file or an error, and no attempt records a part of a file,
exactly when the first short read is the last one or is over the cap. -/
theorem copies_whole_iff {cap : ℕ} {content : List UInt8} {sizes : List ℕ}
    (hsizes : ReadSizes content sizes) :
    (WholeOrError cap content sizes ∧ ∀ lib owner, RecordsWhole lib owner cap content sizes) ↔
      cap < throughFirstShort sizes ∨ throughFirstShort sizes = content.length := by
  rw [← wholeOrError_iff hsizes]
  refine ⟨And.left, fun hwhole => ⟨hwhole, ?_⟩⟩
  intro lib owner media runId videoId canonicalUrl tr r hexec hanswers
  obtain ⟨houtcome, hreserves⟩ := ensures_archiveVideo.exec hexec
  constructor
  · intro record budget answer hmem
    obtain ⟨pre, post, rfl⟩ := List.append_of_mem hmem
    obtain ⟨used, hstored⟩ := hreserves pre post _ rfl
    exact hanswers.whole hwhole ⟨used, List.mem_append_left _ hstored⟩
  · intro digest length heq
    obtain ⟨reference, hstored, rfl, rfl⟩ := houtcome digest length heq
    rw [hanswers.whole hwhole hstored]
    exact ⟨rfl, rfl⟩

/-! ### A file of two bytes -/

/-- An item of at most two bytes. -/
def smallMedia : YoutubeMediaConfig :=
  { (ExtractorConfig.builtIn "").youtube.media with enabled := true, maxItemBytes := 2 }

/-- SHA-256 of a zero byte, for a store of videos. -/
def videoBlobLib : BlobLib where
  sha256 bytes :=
    if bytes = [0] then
      [0x6e, 0x34, 0x0b, 0x9c, 0xff, 0xb3, 0x7a, 0x98, 0x9c, 0xa5, 0x44, 0xe6, 0xbb, 0x78, 0x0a, 0x2c,
       0x78, 0x90, 0x1d, 0x3f, 0xb3, 0x37, 0x38, 0x76, 0x85, 0x11, 0xa3, 0x06, 0x17, 0xaf, 0xa0, 0x1d]
    else []
  ownerIsValid owner := owner == producer
  mediaTypeIsValid mediaType := mediaType == "video/mp4"
  hexIsValid := isSha256Hex
  uuidText := smallBlobLib.uuidText
  uuidText_injective := smallBlobLib.uuidText_injective

/-- The copy of the file, read one byte at a time, is stored after its first byte. -/
theorem store_truncated : ∃ tr, Exec (store videoBlobLib producer "video/mp4"
    (cappedStep (copyCap smallMedia 0)) (fileReads [1, 1] [0, 1]) CopyState.start).run tr
      (.ok (blobRefOf videoBlobLib producer "video/mp4" [0], ⟨1, true, false⟩)) := by
  have hdigest : videoBlobLib.hexIsValid (videoBlobLib.digest [0]) = true := by decide +kernel
  have hpath : ∃ target, pathForDigest (videoBlobLib.digest [0]) = some target :=
    Option.isSome_iff_exists.mp (by decide +kernel)
  obtain ⟨target, hpath⟩ := hpath
  have hpublish : ∃ tr, Exec (publish videoBlobLib producer "video/mp4" ⟨0, 0, [0]⟩
      (⟨1, true, false⟩ : CopyState)).run tr
        (.ok (blobRefOf videoBlobLib producer "video/mp4" [0], ⟨1, true, false⟩)) := by
    rw [publish, require, if_pos hdigest, hpath]
    exact ⟨_, .ask (StoreOp.createParent target) _ true
      (.ask (StoreOp.hardLink 0 target) _ (.ok ()) (.ask (StoreOp.removeFile 0) _ true (.done _)))⟩
  obtain ⟨tr, hpublish⟩ := hpublish
  have hstage : Exec (stage (cappedStep (copyCap smallMedia 0)) (fileReads [1, 1] [0, 1])
      CopyState.start).run _ (.ok (⟨0, 0, [0]⟩, ⟨1, true, false⟩)) :=
    .ask StoreOp.createStagingDirectory _ true (.ask StoreOp.newUuid _ 0
      (.ask (StoreOp.create 0) _ (some 0) (.ask (StoreOp.writeAll 0 [0]) _ true
        (.ask (StoreOp.flush 0) _ true (.ask (StoreOp.syncAll 0) _ true (.done _))))))
  exact ⟨_, hstage.bind hpublish⟩

/-- The cap that the store was given in an exchange, and its answer. -/
def storeAnswer : Exchange ArchiveOp → Option (ℕ × Except BlobStoreError BlobRef)
  | ⟨.store _ cap, answer⟩ => some (cap, answer)
  | _ => none

/-- An attempt whose store answers with the first byte. -/
def truncatedAttempt : Trace ArchiveOp :=
  [⟨.hasUnexpiredMediaForVideo "dQw4w9WgXcQ", some false⟩, ⟨.unexpiredMediaBytes, some 0⟩,
    ⟨.createWorkingDir, true⟩,
    ⟨.download "https://www.youtube.com/watch?v=dQw4w9WgXcQ" 2, .ok 2⟩, ⟨.openDownloaded, true⟩,
    ⟨.store "video/mp4" 2, .ok (blobRefOf videoBlobLib producer "video/mp4" [0])⟩,
    ⟨.reserveMediaArchive
      ⟨1, "dQw4w9WgXcQ", blobRefOf videoBlobLib producer "video/mp4" [0], 24⟩
      (mediaBudget smallMedia), some true⟩,
    ⟨.removeDir, ()⟩]

theorem exec_truncatedAttempt : Exec (archiveVideo smallMedia 1 "dQw4w9WgXcQ"
    "https://www.youtube.com/watch?v=dQw4w9WgXcQ").run truncatedAttempt
      (.ok (.stored (videoBlobLib.digest [0]) 1)) :=
  .ask (ArchiveOp.hasUnexpiredMediaForVideo "dQw4w9WgXcQ") _ (some false)
    (.ask ArchiveOp.unexpiredMediaBytes _ (some 0) (.ask ArchiveOp.createWorkingDir _ true
      (.ask (ArchiveOp.download "https://www.youtube.com/watch?v=dQw4w9WgXcQ" 2) _ (.ok 2)
        (.ask ArchiveOp.openDownloaded _ true (.ask (ArchiveOp.store "video/mp4" 2) _ (.ok _)
          (.ask (ArchiveOp.reserveMediaArchive _ (mediaBudget smallMedia)) _ (some true)
            (.ask ArchiveOp.removeDir _ () (.done _))))))))

/-- The store answers as a call of it does. -/
theorem storeAnswers_truncatedAttempt :
    StoreAnswers videoBlobLib producer 2 [0, 1] [1, 1] truncatedAttempt := by
  obtain ⟨tr, hstore⟩ := store_truncated
  intro used answer hmem
  have hmap : some (used, answer) ∈ truncatedAttempt.map storeAnswer :=
    List.mem_map_of_mem hmem
  have hanswers : truncatedAttempt.map storeAnswer = [none, none, none, none, none,
      some (2, .ok (blobRefOf videoBlobLib producer "video/mp4" [0])), none, none] := rfl
  rw [hanswers] at hmap
  simp only [List.mem_cons, List.not_mem_nil, reduceCtorEq, Option.some.injEq, Prod.mk.injEq,
    or_false, false_or] at hmap
  obtain ⟨rfl, rfl⟩ := hmap
  exact ⟨rfl, tr, _, hstore, rfl⟩

/-- **A file of two bytes is recorded as one byte**: it is read one byte at a time, the copy ends
cleanly after the first, and the attempt reserves and reports that byte as the video. -/
theorem copy_truncates : ReadSizes [0, 1] [1, 1] ∧
    drain (cappedStep 2) (fileReads [1, 1] [0, 1]) .start = ([0], true) ∧
    ∃ tr, Exec (archiveVideo smallMedia 1 "dQw4w9WgXcQ"
        "https://www.youtube.com/watch?v=dQw4w9WgXcQ").run tr
          (.ok (.stored (videoBlobLib.digest [0]) 1)) ∧
      StoreAnswers videoBlobLib producer 2 [0, 1] [1, 1] tr ∧
        ¬ RecordsWhole videoBlobLib producer 2 [0, 1] [1, 1] := by
  refine ⟨⟨by decide, by decide⟩, by decide, truncatedAttempt, exec_truncatedAttempt,
    storeAnswers_truncatedAttempt, fun hwhole => ?_⟩
  have hrecorded := hwhole _ _ _ _ _ _ exec_truncatedAttempt storeAnswers_truncatedAttempt
  exact absurd (hrecorded.2 _ _ rfl).2 (by decide)

/-- Read at once the file is copied and recorded whole, a byte at a time it is not copied whole. -/
theorem copies_whole_iff_full :
    (WholeOrError 2 [0, 1] [2] ∧ ∀ lib owner, RecordsWhole lib owner 2 [0, 1] [2]) ∧
      ¬ WholeOrError 2 [0, 1] [1, 1] := by
  have hfull : ReadSizes [0, 1] [2] := ⟨by decide, by decide⟩
  have hshort : ReadSizes [0, 1] [1, 1] := ⟨by decide, by decide⟩
  exact ⟨(copies_whole_iff hfull).mpr (.inr rfl), mt (wholeOrError_iff hshort).mp (by decide)⟩

end Recorded

end Extractor
