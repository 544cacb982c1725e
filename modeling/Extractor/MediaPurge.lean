import Extractor.MediaArchives

/-!
# The media purge

`delete_expired_media` joins artifacts to archives by digest, and each of its three statements
evaluates expiry at its own time. Content that is archived twice, rows that expire during the purge
and rows that are inserted during it then interact.

## Main results

* `media_purge_iff`: where no step of a purge was unsafe, every unexpired archive has its artifact
  row; the second statement keeps that, and the third returns the right digests, exactly when the
  step is safe.
* `shared_content_purged`: an archive that shares its content with an expired one loses its artifact
  row, and its bytes are given up for deletion.
-/

namespace Extractor

open Files (update_some_eq_some update_none_eq_some)

/-- The artifact row that was written with an archive row. -/
structure ArtifactOf (m : MediaArchiveRow) (a : ArtifactRow) : Prop where
  kind : a.kind = "archived_media"
  runId : a.runId = m.runId
  digestHex : a.digestHex = m.digestHex
  mediaType : a.mediaType = m.mediaType
  lengthBytes : a.lengthBytes = m.lengthBytes
  createdAt : a.createdAt = m.createdAt

/-- Every unexpired archive has its artifact row. -/
def Accounted (s : MediaState) : Prop :=
  ∀ m ∈ s.db.archives, m.expired s.now = false → ∃ a ∈ s.db.artifacts, ArtifactOf m a

/-- **What a purge is for**, from the state before its last statement to the state after it: every
unexpired archive has its artifact row and its digest is not returned, and the digest of every row
that was removed is returned unless an unexpired archive has it. -/
structure PurgeExact (s t : MediaState) (p : PurgeCall) : Prop where
  accounted : Accounted t
  live : ∀ m ∈ t.db.archives, m.expired t.now = false → m.digestHex ∉ p.digests
  dead : ∀ m ∈ s.db.archives, m ∉ t.db.archives → m.digestHex ∈ p.digests ∨
    ∃ m' ∈ t.db.archives, m'.expired t.now = false ∧ m'.digestHex = m.digestHex

/-! ### Safe steps -/

/-- No unexpired archive has the digest of an expired one. -/
def Unshared (s : MediaState) : Prop :=
  ∀ m ∈ s.db.archives, m.expired s.now = true → ∀ m' ∈ s.db.archives, m'.expired s.now = false →
    m.digestHex ≠ m'.digestHex

/-- The archives that were inserted since a purge began. -/
def MediaState.insertedSince (s : MediaState) (p : PurgeCall) : List MediaArchiveRow :=
  s.db.archives.filter fun m => decide (m ∉ p.selected)

/-- The archives that expired since a purge began, those inserted since then included. -/
def MediaState.expiredSince (s : MediaState) (p : PurgeCall) : List MediaArchiveRow :=
  s.db.archives.filter fun m =>
    m.expired s.now && !(decide (m ∈ p.selected) && m.expired p.selectedAt)

/-- **What happened since a purge began changes nothing** about its digests: an archive that was
there and is still unexpired, or that was inserted since, has none of them; and one that expired
since has one of them or that of an unexpired archive. -/
structure SelectionCurrent (s : MediaState) (p : PurgeCall) : Prop where
  kept : ∀ m ∈ p.selected, m ∈ s.db.archives → m.expired s.now = false → m.digestHex ∉ p.digests
  inserted : ∀ m ∈ s.insertedSince p, m.expired s.now = false → m.digestHex ∉ p.digests
  expired : ∀ m ∈ s.expiredSince p, m.digestHex ∈ p.digests ∨
    ∃ m' ∈ s.db.archives, m'.expired s.now = false ∧ m'.digestHex = m.digestHex

/-- A step of a purge is safe: its second statement meets no shared content, and what happened
before its third statement changes nothing about its digests. -/
def PurgeSafe (s : MediaState) : MediaLabel → Prop
  | .purge k => ∀ p, s.purges k = some p →
      (p.artifactsDeleted = false → Unshared s) ∧
        (p.artifactsDeleted = true → SelectionCurrent s p)
  | _ => True

/-! ### One statement -/

section Statement

variable {s t : MediaState}

theorem mem_deleteExpiredArchives {at_ : Timestamp} {db : MediaDb} {m : MediaArchiveRow} :
    m ∈ (deleteExpiredArchives at_ db).archives ↔ m ∈ db.archives ∧ m.expired at_ = false := by
  rw [deleteExpiredArchives, List.mem_filter, Bool.not_eq_true']

theorem mem_deleteExpiredArtifacts {at_ : Timestamp} {db : MediaDb} {a : ArtifactRow} :
    a ∈ (deleteExpiredArtifacts at_ db).artifacts ↔ a ∈ db.artifacts ∧
      (a.kind = "archived_media" →
        ∀ m ∈ db.archives, m.expired at_ = true → m.digestHex ≠ a.digestHex) := by
  simp only [deleteExpiredArtifacts, List.mem_filter, Bool.not_eq_true', Bool.and_eq_false_iff,
    beq_eq_false_iff_ne, List.any_eq_false, Bool.and_eq_true, beq_iff_eq, not_and, ne_eq,
    Bool.not_eq_true]
  refine and_congr_right fun _ => ⟨?_, fun h => ?_⟩
  · rintro (hkind | hnone) hkind' m hm hexpired heq
    · exact hkind hkind'
    · rw [hnone m hm heq] at hexpired
      cases hexpired
  · by_cases hkind : a.kind = "archived_media"
    · refine .inr fun m hm heq => ?_
      cases hexpired : m.expired at_ with
      | false => rfl
      | true => exact absurd heq (h hkind m hm hexpired)
    · exact .inl hkind

theorem mem_digests {p : PurgeCall} {digest : String} : digest ∈ p.digests ↔
    ∃ m ∈ p.selected, m.expired p.selectedAt = true ∧ m.digestHex = digest := by
  simp only [PurgeCall.digests, List.mem_map, List.mem_filter, and_assoc]

/-- **The second statement** keeps the artifact rows of unexpired archives exactly when none shares
its content with an expired one. -/
theorem accounted_deleteExpiredArtifacts_iff (hs : Accounted s) (hnow : t.now = s.now)
    (hdb : t.db = deleteExpiredArtifacts s.now s.db) : Accounted t ↔ Unshared s := by
  have harchives : t.db.archives = s.db.archives := by rw [hdb]; rfl
  constructor
  · intro ht m hm hexpired m' hm' hlive heq
    obtain ⟨a, ha, hof⟩ := ht m' (harchives ▸ hm') (hnow ▸ hlive)
    rw [hdb, mem_deleteExpiredArtifacts] at ha
    exact ha.2 hof.kind m hm hexpired (heq.trans hof.digestHex.symm)
  · intro hunshared m hm hlive
    rw [harchives] at hm
    rw [hnow] at hlive
    obtain ⟨a, ha, hof⟩ := hs m hm hlive
    refine ⟨a, ?_, hof⟩
    rw [hdb, mem_deleteExpiredArtifacts]
    refine ⟨ha, fun _ m' hm' hexpired heq => ?_⟩
    exact hunshared m' hm' hexpired m hm hlive (heq.trans hof.digestHex)

/-- The third statement keeps the unexpired archives, and their artifact rows. -/
theorem accounted_deleteExpiredArchives (hs : Accounted s) (hnow : t.now = s.now)
    (hdb : t.db = deleteExpiredArchives s.now s.db) : Accounted t := by
  intro m hm hlive
  rw [hdb] at hm ⊢
  exact hs m (mem_deleteExpiredArchives.mp hm).1 (hnow ▸ hlive)

/-- An archive was there when a purge began, or was inserted since. -/
theorem mem_selected_or_insertedSince {p : PurgeCall} {m : MediaArchiveRow}
    (hm : m ∈ s.db.archives) : m ∈ p.selected ∨ m ∈ s.insertedSince p := by
  by_cases hselected : m ∈ p.selected
  · exact .inl hselected
  · exact .inr (List.mem_filter.mpr ⟨hm, decide_eq_true hselected⟩)

/-- An expired archive had expired when a purge began, or expired since. -/
theorem mem_digests_or_expiredSince {p : PurgeCall} {m : MediaArchiveRow}
    (hm : m ∈ s.db.archives) (hexpired : m.expired s.now = true) :
    m.digestHex ∈ p.digests ∨ m ∈ s.expiredSince p := by
  by_cases hthen : m ∈ p.selected ∧ m.expired p.selectedAt = true
  · exact .inl (mem_digests.mpr ⟨m, hthen.1, hthen.2, rfl⟩)
  · refine .inr (List.mem_filter.mpr ⟨hm, ?_⟩)
    rw [hexpired, Bool.true_and, Bool.not_eq_true', Bool.and_eq_false_iff]
    rw [not_and_or] at hthen
    exact hthen.imp decide_eq_false Bool.eq_false_iff.mpr

/-- **The third statement** ends a purge that did what it is for exactly when what happened since
the purge began changes nothing about its digests. -/
theorem purgeExact_iff {p : PurgeCall} (hs : Accounted s) (hnow : t.now = s.now)
    (hdb : t.db = deleteExpiredArchives s.now s.db) :
    PurgeExact s t p ↔ SelectionCurrent s p := by
  have hmem : ∀ m, m ∈ t.db.archives ↔ m ∈ s.db.archives ∧ m.expired s.now = false := fun m => by
    rw [hdb, mem_deleteExpiredArchives]
  constructor
  · intro h
    have hlive : ∀ m ∈ s.db.archives, m.expired s.now = false → m.digestHex ∉ p.digests :=
      fun m hm hlive => h.live m ((hmem m).mpr ⟨hm, hlive⟩) (hnow ▸ hlive)
    refine ⟨fun m _ => hlive m, fun m hm => hlive m (List.mem_of_mem_filter hm), fun m hm => ?_⟩
    obtain ⟨hm, hexpired⟩ := List.mem_filter.mp hm
    have hgone : m ∉ t.db.archives := fun hin => by
      rw [((hmem m).mp hin).2] at hexpired
      cases hexpired
    refine (h.dead m hm hgone).imp_right fun ⟨m', hm', hlive', heq⟩ => ?_
    exact ⟨m', ((hmem m').mp hm').1, hnow ▸ hlive', heq⟩
  · intro h
    refine ⟨accounted_deleteExpiredArchives hs hnow hdb, fun m hm _ => ?_, fun m hm hgone => ?_⟩
    · obtain ⟨hm, hlive⟩ := (hmem m).mp hm
      rcases mem_selected_or_insertedSince (p := p) hm with hselected | hinserted
      · exact h.kept m hselected hm hlive
      · exact h.inserted m hinserted hlive
    · have hexpired : m.expired s.now = true := by
        cases hm' : m.expired s.now with
        | true => rfl
        | false => exact absurd ((hmem m).mpr ⟨hm, hm'⟩) hgone
      rcases mem_digests_or_expiredSince (p := p) hm hexpired with hdigest | hsince
      · exact .inl hdigest
      · refine (h.expired m hsince).imp_right fun ⟨m', hm', hlive, heq⟩ => ?_
        exact ⟨m', (hmem m').mpr ⟨hm', hlive⟩, hnow.symm ▸ hlive, heq⟩

end Statement

/-! ### Runs -/

section Runs

variable {budget : ℤ} {s t : MediaState}

/-- A commit writes the artifact row of its archive row. -/
theorem accounted_commit {k : ℕ} {record : MediaArchiveRecord} {startedAt : Timestamp}
    {artifact : Option ArtifactRow} {archive : MediaArchiveRow}
    {result : Except PersistenceError Bool} (hs : Accounted s) (hinv : MediaInv s)
    (hcall : s.reserves k = some ⟨record, startedAt, .archiveInserted artifact archive⟩) :
    Accounted (s.commit k result artifact archive) := by
  obtain ⟨run, -, hartifact, harchive⟩ := (hinv.calls _ _ hcall).inserted
  dsimp only at hartifact harchive
  subst hartifact harchive
  intro m hm hlive
  rcases List.mem_append.mp hm with hold | hnew
  · obtain ⟨a, ha, hof⟩ := hs m hold hlive
    exact ⟨a, List.mem_append_left _ ha, hof⟩
  · obtain rfl := List.mem_singleton.mp hnew
    exact ⟨_, List.mem_append_right _ (List.mem_singleton_self _), rfl, rfl, rfl, rfl, rfl, rfl⟩

/-- An archive that is unexpired later is unexpired now. -/
theorem MediaArchiveRow.live_of_le {m : MediaArchiveRow} {t t' : Timestamp} (h : t ≤ t')
    (hlive : m.expired t' = false) : m.expired t = false := by
  rw [MediaArchiveRow.expired, decide_eq_false_iff_not] at hlive ⊢
  exact fun hle => hlive (Nat.le_trans hle h)

/-- **Every safe step keeps the artifact rows** of unexpired archives. -/
theorem Accounted.step {l : MediaLabel} (hs : Accounted s) (hinv : MediaInv s)
    (hst : MediaStep budget s l t) (hsafe : PurgeSafe s l) : Accounted t := by
  cases hst with
  | tick hnow => exact fun m hm hlive => hs m hm (MediaArchiveRow.live_of_le hnow hlive)
  | commit hcall | commitUnanswered hcall => exact accounted_commit hs hinv hcall
  | purgeArtifacts hcall =>
      refine (accounted_deleteExpiredArtifacts_iff hs ?_ ?_).mpr ((hsafe _ hcall).1 rfl)
      · rfl
      · rfl
  | purgeArchives hcall => exact accounted_deleteExpiredArchives hs rfl rfl
  | refuse | begin | acquire | measure | full | insertArtifact | insertArchive | rollback
  | purgeSelect | purgeStop => exact hs

theorem accounted_of_reachable (h : ((mediaSystem budget).restrict PurgeSafe).Reachable s) :
    Accounted s := by
  refine h.invariant (fun s hinit m hm _ => ?_) fun _ _ _ hreach hs hst =>
    hs.step (mediaInv_of_reachable hreach.of_restrict) hst.1 hst.2
  rw [hinit.archives] at hm
  cases hm

/-- **The media purge.** In every run whose purge steps are safe, every unexpired archive has its
artifact row; and from there the second statement of a purge keeps that, and the third statement
ends a purge that did what it is for, exactly when the step is safe. -/
theorem media_purge_iff (h : ((mediaSystem budget).restrict PurgeSafe).Reachable s) :
    Accounted s ∧ ∀ k p t, s.purges k = some p → (mediaSystem budget).step s (.purge k) t →
      (p.artifactsDeleted = false → (Accounted t ↔ PurgeSafe s (.purge k))) ∧
        (p.artifactsDeleted = true → (PurgeExact s t p ↔ PurgeSafe s (.purge k))) := by
  have hs := accounted_of_reachable h
  refine ⟨hs, fun k p t hp hst => ?_⟩
  cases hst with
  | purgeSelect hfree =>
      rw [hfree] at hp
      cases hp
  | purgeArtifacts hcall =>
      obtain rfl := Option.some.inj (hcall.symm.trans hp)
      refine ⟨fun _ => ?_, nofun⟩
      refine (accounted_deleteExpiredArtifacts_iff hs (by rfl) (by rfl)).trans ?_
      refine ⟨fun hunshared p hp => ⟨fun _ => hunshared, fun hdeleted => ?_⟩,
        fun hsafe => (hsafe _ hcall).1 rfl⟩
      obtain rfl := Option.some.inj (hcall.symm.trans hp)
      cases hdeleted
  | purgeArchives hcall =>
      obtain rfl := Option.some.inj (hcall.symm.trans hp)
      refine ⟨nofun, fun _ => ?_⟩
      refine (purgeExact_iff hs (by rfl) (by rfl)).trans ?_
      refine ⟨fun hcurrent p hp => ⟨fun hdeleted => ?_, fun _ => ?_⟩,
        fun hsafe => (hsafe _ hcall).2 rfl⟩
      · obtain rfl := Option.some.inj (hcall.symm.trans hp)
        cases hdeleted
      · obtain rfl := Option.some.inj (hcall.symm.trans hp)
        exact hcurrent

end Runs

/-! ### Two purges -/

/-- Half a day. -/
def halfDay : Timestamp := 12 * 3600000000

/-- The time of the first archive's expiry. -/
def dayLater : Timestamp := 24 * 3600000000

/-- The tables after the first video was archived, and half a day later the second video with some
file. -/
def archivedTwice (digestHex : String) : MediaDb where
  runs := [archivedRun 1, archivedRun 2, archivedRun 3]
  artifacts := [(firstVideo 1).artifact 0, (secondVideo digestHex 1).artifact halfDay]
  archives := [(firstVideo 1).archive 0, (secondVideo digestHex 1).archive halfDay]

theorem secondVideo_checked {digestHex : String} (hdigest : isSha256Hex digestHex = true) :
    ((secondVideo digestHex 1).archive halfDay).checked = true := by
  have htexts : ["M7lc1UVf-VE", "video/mp4"].all storable = true := by decide +kernel
  have hlength : lengthBetween 1 32 "M7lc1UVf-VE" = true := by decide +kernel
  have htimes : halfDay < (halfDay + 3600000000 * (24 : ℤ)).toNat := by decide
  simp only [MediaArchiveRow.checked, MediaArchiveRecord.archive, secondVideo, archivedRecord,
    htexts, hlength, hdigest, htimes, Nat.zero_lt_one, decide_true, Bool.and_self]

/-- The two videos are archived, and then the first archive expires. -/
theorem archivedTwice_reachable (cond : MediaState → MediaLabel → Prop) {digestHex : String}
    (hreserve : ∀ x k, cond x (.reserve k)) (htick : ∀ x now, cond x (.tick now))
    (hdigest : isSha256Hex digestHex = true) :
    ∃ s, ((mediaSystem 1000).restrict cond).Reachable s ∧ s.now = dayLater ∧
      s.purges = (fun _ => none) ∧ s.db = archivedTwice digestHex := by
  have hinit : ((mediaSystem 1000).restrict cond).Reachable noArchives :=
    Labelled.System.Reachable.init noArchives_init
  obtain ⟨s₁, h₁, hnone₁, hfirst⟩ := reachable_reserve hinit 0 (fun x => hreserve x 0) rfl rfl
    (archivedRecord_check one_le_i64Max : (firstVideo 1).check = .ok ()) (by decide +kernel) rfl
    (archivedRecord_artifact firstDigest_hex 0) (by decide +kernel)
  have hdb : s₁.db = ⟨[archivedRun 1, archivedRun 2, archivedRun 3],
    [(firstVideo 1).artifact 0], [(firstVideo 1).archive 0]⟩ := hfirst.db
  have hnow : s₁.now = 0 := hfirst.now
  have hroom : reserveDecision 1000 (bytesAfter halfDay s₁.db.archives) 1 = .ok true := by
    rw [hdb]
    decide +kernel
  have h₂ := reachable_step h₁ (htick _ halfDay) (MediaStep.tick (hnow ▸ Nat.zero_le _))
  obtain ⟨s₂, h₃, -, hsecond⟩ := reachable_reserve h₂ 1 (fun x => hreserve x 1) hfirst.lock hnone₁
    (archivedRecord_check one_le_i64Max : (secondVideo digestHex 1).check = .ok ())
    hroom (by rw [hdb]; rfl) (archivedRecord_artifact hdigest _)
    (secondVideo_checked hdigest)
  have hlater : s₂.now ≤ dayLater :=
    hsecond.now.trans_le (by decide : halfDay ≤ dayLater)
  refine ⟨{ s₂ with now := dayLater }, reachable_step h₃ (htick _ _) (MediaStep.tick hlater), rfl,
    hsecond.purges.trans hfirst.purges, ?_⟩
  refine hsecond.db.trans ?_
  rw [hdb]
  rfl

/-- A purge runs its first two statements, and time passes after each. -/
theorem reachable_purge {budget : ℤ} {s : MediaState} {cond : MediaState → MediaLabel → Prop}
    (deleteAt thirdAt : Timestamp) (h : ((mediaSystem budget).restrict cond).Reachable s)
    (hpurges : s.purges = fun _ => none) (htick : ∀ x now, cond x (.tick now))
    (hselect : cond s (.purge 0)) (hdeleteAt : s.now ≤ deleteAt) (hthirdAt : deleteAt ≤ thirdAt)
    (hdelete : cond { s.withPurge 0 ⟨s.now, s.db.archives, false⟩ with now := deleteAt }
      (.purge 0)) :
    ∃ t, ((mediaSystem budget).restrict cond).Reachable t ∧ t.now = thirdAt ∧
      t.db = deleteExpiredArtifacts deleteAt s.db ∧
        t.purges 0 = some ⟨s.now, s.db.archives, true⟩ := by
  have hselected := reachable_step h hselect (MediaStep.purgeSelect (congrFun hpurges 0))
  have hwaited := reachable_step hselected (htick _ deleteAt) (MediaStep.tick hdeleteAt)
  have hdeleted := reachable_step hwaited hdelete (MediaStep.purgeArtifacts (by rfl))
  have hlater := reachable_step hdeleted (htick _ thirdAt) (MediaStep.tick hthirdAt)
  exact ⟨_, hlater, rfl, rfl, by rfl⟩

/-- **Shared content is purged**: a video whose bytes are those of another video, archived before,
loses its artifact row when that one is purged, and its digest is returned for deletion. -/
theorem shared_content_purged : ∃ s t p, (mediaSystem 1000).Reachable s ∧
    s.purges 0 = some p ∧ p.artifactsDeleted = true ∧
    (mediaSystem 1000).step s (.purge 0) t ∧ ¬PurgeExact s t p ∧
    ∃ m ∈ t.db.archives, m.expired t.now = false ∧ m.digestHex ∈ p.digests ∧
      ¬∃ a ∈ t.db.artifacts, ArtifactOf m a := by
  obtain ⟨s, hreach, hnow, hpurges, hdb⟩ := archivedTwice_reachable (fun _ _ => True)
    (fun _ _ => trivial) (fun _ _ => trivial) firstDigest_hex
  obtain ⟨t, hreach, hnow', hdb', hpurge⟩ := reachable_purge s.now s.now hreach hpurges
    (fun _ _ => trivial) trivial (Nat.le_refl _) (Nat.le_refl _) trivial
  rw [hnow] at hnow' hdb' hpurge
  rw [hdb] at hdb' hpurge
  have hst : (mediaSystem 1000).step t (.purge 0)
      { t.endPurge 0 with db := deleteExpiredArchives t.now t.db } :=
    MediaStep.purgeArchives hpurge
  have hdb'' : deleteExpiredArchives t.now t.db =
      ⟨[archivedRun 1, archivedRun 2, archivedRun 3], [],
        [(secondVideo firstDigest 1).archive halfDay]⟩ := by
    rw [hnow', hdb']
    rfl
  have hlive : ((secondVideo firstDigest 1).archive halfDay).expired t.now = false := by
    rw [hnow']
    decide +kernel
  have hmem : (secondVideo firstDigest 1).archive halfDay ∈
      (deleteExpiredArchives t.now t.db).archives := by
    rw [hdb'']
    exact List.mem_singleton_self _
  have hdigest : ((secondVideo firstDigest 1).archive halfDay).digestHex ∈
      (⟨dayLater, (archivedTwice firstDigest).archives, true⟩ : PurgeCall).digests := by
    decide +kernel
  refine ⟨t, _, _, hreach.of_restrict, hpurge, rfl, hst, fun h => ?_, _, hmem, hlive, hdigest, ?_⟩
  · exact h.live _ hmem hlive hdigest
  · rintro ⟨a, ha, -⟩
    change a ∈ (deleteExpiredArchives t.now t.db).artifacts at ha
    rw [hdb''] at ha
    cases ha

/-- The archive of the first video is purged, each statement a second after the one before; that of
the second video, with another file, stays. -/
theorem media_purge_iff_once : ∃ s t p, (mediaSystem 1000).Reachable s ∧
    (mediaSystem 1000).step s (.purge 0) t ∧ p.selectedAt + seconds 2 = t.now ∧
    p.digests = [firstDigest] ∧ t.db.archives = [(secondVideo secondDigest 1).archive halfDay] ∧
    t.db.artifacts = [(secondVideo secondDigest 1).artifact halfDay] ∧ PurgeExact s t p := by
  obtain ⟨s₁, h₁, hnow₁, hpurges₁, hdb₁⟩ := archivedTwice_reachable PurgeSafe
    (fun _ _ => trivial) (fun _ _ => trivial) secondDigest_hex
  have hunshared : Unshared { s₁.withPurge 0 ⟨s₁.now, s₁.db.archives, false⟩ with
      now := dayLater + seconds 1 } := by
    change ∀ m ∈ s₁.db.archives, m.expired (dayLater + seconds 1) = true →
      ∀ m' ∈ s₁.db.archives, m'.expired (dayLater + seconds 1) = false → _
    rw [hdb₁]
    decide +kernel
  obtain ⟨s, hreach, hnow, hdb, hpurge⟩ := reachable_purge (dayLater + seconds 1)
    (dayLater + seconds 2) h₁ hpurges₁ (fun _ _ => trivial)
    (fun p hp => by
      rw [hpurges₁] at hp
      cases hp)
    (hnow₁ ▸ Nat.le_add_right _ _) (by decide)
    (fun p hp => by
      have hp : some (⟨s₁.now, s₁.db.archives, false⟩ : PurgeCall) = some p := hp
      obtain rfl := Option.some.inj hp
      exact ⟨fun _ => hunshared, nofun⟩)
  rw [hnow₁, hdb₁] at hpurge
  rw [hdb₁] at hdb
  have hcurrent : SelectionCurrent s ⟨dayLater, (archivedTwice secondDigest).archives, true⟩ := by
    constructor
    · rw [hdb, hnow]
      decide +kernel
    · rw [MediaState.insertedSince, hdb, hnow]
      decide +kernel
    · rw [MediaState.expiredSince, hdb, hnow]
      decide +kernel
  have hsafe : PurgeSafe s (.purge 0) := by
    intro p hp
    obtain rfl := Option.some.inj (hpurge.symm.trans hp)
    exact ⟨nofun, fun _ => hcurrent⟩
  have hst : (mediaSystem 1000).step s (.purge 0)
      { s.endPurge 0 with db := deleteExpiredArchives s.now s.db } :=
    MediaStep.purgeArchives hpurge
  refine ⟨s, _, _, hreach.of_restrict, hst, hnow.symm, by decide +kernel, ?_, ?_,
    (((media_purge_iff hreach).2 _ _ _ hpurge hst).2 rfl).mpr hsafe⟩
  · change (deleteExpiredArchives s.now s.db).archives = _
    rw [hdb, hnow]
    decide +kernel
  · change (deleteExpiredArchives s.now s.db).artifacts = _
    rw [hdb, hnow]
    decide +kernel

end Extractor
