import Extractor.Lib.Choice
import Extractor.Pipeline
import Mathlib.Data.Prod.Lex

/-!
# The choice of a caption track

`select_track` of `crates/youtube/src/player.rs`. A track is usable if its location is an HTTPS URL
on a documented host or on a subdomain of one. The languages are searched in the order of the
preference, each first for a manual track and then for a generated one; so the track that is
selected is the least of the usable ones by language, kind and place.

## Main definitions

* `hasUsableLocation`, `selectTrack`: the functions of the source.
* `OnDocumentedHost`: what a usable location is.
* `LeastTrack`: what a selected track is.

## Main results

* `selectTrack_spec`: the two failures and the selected track.
-/

namespace Extractor

/-! ### The source -/

/-- `TrackKind`. -/
inductive TrackKind
  | manual
  | autoGenerated
  deriving DecidableEq

/-- `CaptionTrack` of the player response, with all its members. -/
structure AdvertisedTrack extends CaptionTrack where
  name : Option String
  kind : TrackKind

/-- `is_documented_host`, on a lowered host. -/
def isDocumentedHost (host documented : List Char) : Bool :=
  host == documented ||
    (Text.stripSuffix documented host).any fun rest => ['.'].isSuffixOf rest

/-- The documented hosts. -/
def documentedHosts : List String := ["youtube.com", "youtu.be", "youtube-nocookie.com"]

section Locations

variable (lib : UrlLib)

/-- `has_usable_location`. -/
def hasUsableLocation (baseUrl : String) : Bool :=
  match lib.parse baseUrl with
  | none => false
  | some parsed =>
      if parsed.scheme ≠ "https" then false
      else
        match parsed.hostStr lib with
        | none => false
        | some host =>
            let lowered := Text.asciiLower host.toList
            documentedHosts.any fun documented => isDocumentedHost lowered documented.toList

/-- The loop of `select_track` over the languages. -/
def selectByLanguage (usable : List AdvertisedTrack) :
    List String → Except YoutubeError AdvertisedTrack
  | [] => .error .noLanguageMatch
  | language :: languages =>
      match usable.find? fun track => track.kind == .manual && track.languageCode == language with
      | some selected => .ok selected
      | none =>
          match usable.find? fun track =>
              track.kind == .autoGenerated && track.languageCode == language with
          | some selected => .ok selected
          | none => selectByLanguage usable languages

/-- `select_track`. -/
def selectTrack (tracks : List AdvertisedTrack) (languages : List String) :
    Except YoutubeError AdvertisedTrack :=
  let usable := tracks.filter fun track => hasUsableLocation lib track.baseUrl
  if usable.isEmpty then .error .noTranscript else selectByLanguage usable languages

/-! ### Usable locations -/

/-- A host, in any case, is a documented one or a subdomain of one. -/
def DocumentedHost (host : String) : Prop :=
  ∃ documented ∈ documentedHosts, Text.asciiLower host.toList = documented.toList ∨
    ∃ subdomain, Text.asciiLower host.toList = subdomain ++ '.' :: documented.toList

/-- **A usable location**: an HTTPS URL on a documented host or a subdomain of one. -/
def OnDocumentedHost (baseUrl : String) : Prop :=
  ∃ url host, lib.parse baseUrl = some url ∧ url.scheme = "https" ∧
    url.hostStr lib = some host ∧ DocumentedHost host

theorem isDocumentedHost_iff {host documented : List Char} :
    isDocumentedHost host documented = true ↔
      host = documented ∨ ∃ subdomain, host = subdomain ++ '.' :: documented := by
  rw [isDocumentedHost, Bool.or_eq_true, beq_iff_eq]
  refine or_congr_right ?_
  rw [Option.any_eq_true]
  constructor
  · rintro ⟨rest, hrest, hdot⟩
    obtain ⟨subdomain, rfl⟩ := List.isSuffixOf_iff_suffix.mp hdot
    exact ⟨subdomain, by rw [Text.eq_append_of_stripSuffix hrest, List.append_assoc]; rfl⟩
  · rintro ⟨subdomain, rfl⟩
    have hsplit : subdomain ++ '.' :: documented = (subdomain ++ ['.']) ++ documented := by simp
    exact ⟨subdomain ++ ['.'], by rw [hsplit, Text.stripSuffix_append],
      List.isSuffixOf_iff_suffix.mpr (List.suffix_append _ _)⟩

theorem documentedHosts_any_iff {host : String} :
    (documentedHosts.any fun documented =>
        isDocumentedHost (Text.asciiLower host.toList) documented.toList) = true ↔
      DocumentedHost host := by
  rw [List.any_eq_true]
  exact exists_congr fun documented => and_congr_right fun _ => isDocumentedHost_iff

/-- The URL filter is the one of its purpose. -/
theorem hasUsableLocation_iff {baseUrl : String} :
    hasUsableLocation lib baseUrl = true ↔ OnDocumentedHost lib baseUrl := by
  unfold hasUsableLocation OnDocumentedHost
  cases hparse : lib.parse baseUrl with
  | none => simp
  | some url =>
      by_cases hscheme : url.scheme = "https"
      · cases hhost : url.hostStr lib with
        | none => simp [hhost]
        | some host => simpa [hscheme, hhost] using documentedHosts_any_iff
      · simp [hscheme]

/-! ### The search -/

/-- What the loop looks for, in its order. -/
def trackPreferences (languages : List String) : List (String × TrackKind) :=
  languages.flatMap fun language => [(language, .manual), (language, .autoGenerated)]

/-- What a track is looked for by. -/
def AdvertisedTrack.preference (track : AdvertisedTrack) : String × TrackKind :=
  (track.languageCode, track.kind)

/-- The rank of a kind: a manual track comes before a generated one. -/
def TrackKind.rank : TrackKind → ℕ
  | .manual => 0
  | .autoGenerated => 1

/-- The loop searches preference by preference. -/
theorem selectByLanguage_eq (usable : List AdvertisedTrack) (languages : List String) :
    selectByLanguage usable languages =
      okOr ((trackPreferences languages).findSome? fun preference =>
        usable.find? fun track => track.preference == preference)
        YoutubeError.noLanguageMatch := by
  have hkind : ∀ (language : String) (kind : TrackKind),
      (fun track : AdvertisedTrack => track.kind == kind && track.languageCode == language) =
        fun track => track.preference == (language, kind) := by
    intro language kind
    funext track
    rw [Bool.eq_iff_iff, Bool.and_eq_true, beq_iff_eq, beq_iff_eq, beq_iff_eq,
      AdvertisedTrack.preference, Prod.mk.injEq]
    exact and_comm
  induction languages with
  | nil => rfl
  | cons language languages ih =>
      have hcons : trackPreferences (language :: languages) =
          (language, .manual) :: (language, .autoGenerated) :: trackPreferences languages := rfl
      rw [selectByLanguage, hkind, hkind, ih, hcons, List.findSome?_cons, List.findSome?_cons]
      cases usable.find? fun track => track.preference == (language, .manual) with
      | some selected => rfl
      | none =>
          cases usable.find? fun track => track.preference == (language, .autoGenerated) with
          | some selected => rfl
          | none => rfl

/-- The place of a preference among all: languages first, kinds within a language. -/
theorem idxOf_trackPreferences {languages : List String} {language : String}
    (h : language ∈ languages) (kind : TrackKind) :
    (trackPreferences languages).idxOf (language, kind) =
      2 * languages.idxOf language + kind.rank := by
  induction languages with
  | nil => cases h
  | cons first languages ih =>
      have hcons : trackPreferences (first :: languages) =
          (first, .manual) :: (first, .autoGenerated) :: trackPreferences languages := rfl
      by_cases hfirst : first = language
      · subst hfirst
        rw [hcons, List.idxOf_cons_self]
        cases kind with
        | manual => rw [List.idxOf_cons_self]; rfl
        | autoGenerated =>
            rw [List.idxOf_cons_ne _ (by simp), List.idxOf_cons_self]
            rfl
      · have hmem : language ∈ languages := (List.mem_cons.mp h).resolve_left (Ne.symm hfirst)
        rw [hcons, List.idxOf_cons_ne _ (by simp [hfirst]), List.idxOf_cons_ne _ (by simp [hfirst]),
          ih hmem, List.idxOf_cons_ne _ hfirst]
        omega

theorem mem_trackPreferences {languages : List String} {track : AdvertisedTrack} :
    track.preference ∈ trackPreferences languages ↔ track.languageCode ∈ languages := by
  rw [trackPreferences, List.mem_flatMap]
  constructor
  · rintro ⟨language, hmem, hpreference⟩
    have hlanguage : track.languageCode = language := by
      rcases List.mem_cons.mp hpreference with h | h
      · exact congrArg Prod.fst h
      · exact congrArg Prod.fst (List.mem_singleton.mp h)
    rwa [hlanguage]
  · intro h
    refine ⟨track.languageCode, h, ?_⟩
    cases hkind : track.kind <;> simp [AdvertisedTrack.preference, hkind]

/-! ### The selected track -/

/-- The usable tracks, in their order. -/
def usableTracks (tracks : List AdvertisedTrack) : List AdvertisedTrack :=
  tracks.filter fun track => hasUsableLocation lib track.baseUrl

theorem mem_usableTracks {tracks : List AdvertisedTrack} {track : AdvertisedTrack} :
    track ∈ usableTracks lib tracks ↔ track ∈ tracks ∧ OnDocumentedHost lib track.baseUrl := by
  rw [usableTracks, List.mem_filter, hasUsableLocation_iff]

/-- A track may be selected: its location is usable and its language preferred. -/
def Selectable (languages : List String) (track : AdvertisedTrack) : Prop :=
  OnDocumentedHost lib track.baseUrl ∧ track.languageCode ∈ languages

/-- The order of the choice: the first index of the language in the preference, a manual track
before a generated one, and the place in the list. -/
def trackKey (languages : List String) (place : ℕ) (track : AdvertisedTrack) : ℕ ×ₗ ℕ ×ₗ ℕ :=
  toLex (languages.idxOf track.languageCode, toLex (track.kind.rank, place))

/-- **The least track**: a selectable one at a place of the list, and no selectable one at any place
has a lower key. -/
def LeastTrack (tracks : List AdvertisedTrack) (languages : List String)
    (track : AdvertisedTrack) : Prop :=
  Selectable lib languages track ∧ ∃ place : ℕ, tracks[place]? = some track ∧
    ∀ (otherPlace : ℕ) (other : AdvertisedTrack), tracks[otherPlace]? = some other →
      Selectable lib languages other →
        trackKey languages place track ≤ trackKey languages otherPlace other

/-- The test of the search for a usable track. -/
def isSelectable (languages : List String) (track : AdvertisedTrack) : Bool :=
  decide (track.preference ∈ trackPreferences languages) && hasUsableLocation lib track.baseUrl

/-- The key of the search: an earlier preference is better. -/
def preferenceKey (languages : List String) (track : AdvertisedTrack) : ℕᵒᵈ :=
  OrderDual.toDual ((trackPreferences languages).idxOf track.preference)

theorem isSelectable_iff {languages : List String} {track : AdvertisedTrack} :
    isSelectable lib languages track = true ↔ Selectable lib languages track := by
  rw [isSelectable, Bool.and_eq_true, decide_eq_true_iff, mem_trackPreferences,
    hasUsableLocation_iff, Selectable, and_comm]

/-- What the code finds: the first usable track of the best preference. -/
theorem selectTrack_eq_ok_iff {tracks : List AdvertisedTrack} {languages : List String}
    {track : AdvertisedTrack} : selectTrack lib tracks languages = .ok track ↔
      Choice.FirstBest (isSelectable lib languages) (preferenceKey languages) tracks track := by
  have hfind : ((trackPreferences languages).findSome? fun preference =>
      (usableTracks lib tracks).find? fun t => t.preference == preference) = some track ↔
      Choice.FirstBest (fun t => decide (t.preference ∈ trackPreferences languages))
        (preferenceKey languages) (usableTracks lib tracks) track :=
    Choice.findSome?_find?_eq_some_iff
  have hfilter : Choice.FirstBest (fun t => decide (t.preference ∈ trackPreferences languages))
      (preferenceKey languages) (usableTracks lib tracks) track ↔
      Choice.FirstBest (isSelectable lib languages) (preferenceKey languages) tracks track :=
    Choice.firstBest_filter_iff
  refine Iff.trans ?_ (hfind.trans hfilter)
  rw [selectTrack, ← usableTracks]
  split
  · next hempty =>
      have hnone : ((trackPreferences languages).findSome? fun preference =>
          ([] : List AdvertisedTrack).find? fun t => t.preference == preference) = none :=
        List.findSome?_eq_none_iff.mpr fun _ _ => rfl
      rw [List.isEmpty_iff.mp hempty, hnone]
      exact ⟨(nomatch ·), (nomatch ·)⟩
  · rw [selectByLanguage_eq]
    cases (trackPreferences languages).findSome? fun preference =>
        (usableTracks lib tracks).find? fun t => t.preference == preference with
    | none => exact ⟨(nomatch ·), (nomatch ·)⟩
    | some selected =>
        exact ⟨fun h => congrArg some (Except.ok.inj h),
          fun h => congrArg Except.ok (Option.some.inj h)⟩

/-- The place among the preferences orders tracks by language and kind. -/
theorem trackKey_le_iff {languages : List String} {track other : AdvertisedTrack}
    (h : track.languageCode ∈ languages) (hother : other.languageCode ∈ languages)
    (place otherPlace : ℕ) :
    trackKey languages place track ≤ trackKey languages otherPlace other ↔
      (trackPreferences languages).idxOf track.preference <
          (trackPreferences languages).idxOf other.preference ∨
        (trackPreferences languages).idxOf track.preference =
            (trackPreferences languages).idxOf other.preference ∧ place ≤ otherPlace := by
  have hrank : ∀ kind : TrackKind, kind.rank ≤ 1 := fun kind => by cases kind <;> decide
  have h₁ := hrank track.kind
  have h₂ := hrank other.kind
  rw [trackKey, trackKey, Prod.Lex.toLex_le_toLex, Prod.Lex.toLex_le_toLex,
    AdvertisedTrack.preference, AdvertisedTrack.preference, idxOf_trackPreferences h,
    idxOf_trackPreferences hother]
  omega

/-- **The selected track is the least one.** -/
theorem selectTrack_eq_ok_iff_least {tracks : List AdvertisedTrack} {languages : List String}
    {track : AdvertisedTrack} :
    selectTrack lib tracks languages = .ok track ↔ LeastTrack lib tracks languages track := by
  rw [selectTrack_eq_ok_iff, Choice.firstBest_iff_getElem?, isSelectable_iff, LeastTrack]
  refine and_congr_right fun htrack => exists_congr fun place => and_congr_right fun _ => ?_
  refine forall_congr' fun otherPlace => forall_congr' fun other => forall_congr' fun _ => ?_
  rw [isSelectable_iff]
  refine forall_congr' fun hother => ?_
  rw [trackKey_le_iff htrack.2 hother.2, preferenceKey, preferenceKey, OrderDual.toDual_lt_toDual,
    OrderDual.toDual_inj]
  exact or_congr_right (and_congr_left fun _ => eq_comm)

/-- Some track is selected where a usable one has a preferred language. -/
theorem exists_selectTrack {tracks : List AdvertisedTrack} {languages : List String}
    {track : AdvertisedTrack} (hmem : track ∈ usableTracks lib tracks)
    (hlanguage : track.languageCode ∈ languages) :
    ∃ selected, selectTrack lib tracks languages = .ok selected := by
  obtain ⟨htracks, husable⟩ := (mem_usableTracks lib).mp hmem
  have hselectable := (isSelectable_iff lib).mpr ⟨husable, hlanguage⟩
  obtain ⟨selected, hselected⟩ : ∃ selected,
      Choice.FirstBest (isSelectable lib languages) (preferenceKey languages) tracks selected :=
    Choice.exists_firstBest_iff.mpr ⟨track, htracks, hselectable⟩
  exact ⟨selected, (selectTrack_eq_ok_iff lib).mpr hselected⟩

/-- Without a usable track there is no transcript. -/
theorem selectTrack_of_nil {tracks : List AdvertisedTrack} (h : usableTracks lib tracks = [])
    (languages : List String) : selectTrack lib tracks languages = .error .noTranscript :=
  if_pos (List.isEmpty_iff.mpr h)

/-- Without a preferred language among the usable tracks no language matches. -/
theorem selectTrack_of_forall {tracks : List AdvertisedTrack} {languages : List String}
    (hne : usableTracks lib tracks ≠ [])
    (h : ∀ track ∈ usableTracks lib tracks, track.languageCode ∉ languages) :
    selectTrack lib tracks languages = .error .noLanguageMatch := by
  have hnone : ((trackPreferences languages).findSome? fun preference =>
      (usableTracks lib tracks).find? fun track =>
        track.preference == preference) = none := by
    refine List.findSome?_eq_none_iff.mpr fun preference hmem => ?_
    refine List.find?_eq_none.mpr fun track htrack hpreference => h track htrack ?_
    rw [← mem_trackPreferences, eq_of_beq hpreference]
    exact hmem
  have hif : selectTrack lib tracks languages =
      selectByLanguage (usableTracks lib tracks) languages :=
    if_neg fun hempty => hne (List.isEmpty_iff.mp hempty)
  rw [hif, selectByLanguage_eq, hnone]
  rfl

/-- **The choice of a track.** There is no transcript exactly without a usable track, no language
match exactly without a usable track of a preferred language, and else the least usable track is
selected. No track outside the usable ones is selected, and none of them has an influence. -/
theorem selectTrack_spec (tracks : List AdvertisedTrack) (languages : List String) :
    (selectTrack lib tracks languages = .error .noTranscript ↔ usableTracks lib tracks = []) ∧
    (selectTrack lib tracks languages = .error .noLanguageMatch ↔
      usableTracks lib tracks ≠ [] ∧
        ∀ track ∈ usableTracks lib tracks, track.languageCode ∉ languages) ∧
    ((∃ track ∈ usableTracks lib tracks, track.languageCode ∈ languages) →
      ∃ track, selectTrack lib tracks languages = .ok track) ∧
    (∀ track, selectTrack lib tracks languages = .ok track ↔
      LeastTrack lib tracks languages track) ∧
    (∀ track, selectTrack lib tracks languages = .ok track →
      track ∈ tracks ∧ OnDocumentedHost lib track.baseUrl) ∧
    ∀ tracks', usableTracks lib tracks' = usableTracks lib tracks →
      selectTrack lib tracks' languages = selectTrack lib tracks languages := by
  have hsome : (∃ track ∈ usableTracks lib tracks, track.languageCode ∈ languages) →
      ∃ track, selectTrack lib tracks languages = .ok track :=
    fun ⟨_, hmem, hlanguage⟩ => exists_selectTrack lib hmem hlanguage
  refine ⟨⟨fun h => ?_, fun h => selectTrack_of_nil lib h languages⟩, ⟨fun h => ⟨?_, ?_⟩,
    fun h => selectTrack_of_forall lib h.1 h.2⟩, hsome, fun track =>
    selectTrack_eq_ok_iff_least lib, fun track h => ?_, fun tracks' h => ?_⟩
  · by_contra hne
    by_cases hlanguage : ∃ track ∈ usableTracks lib tracks, track.languageCode ∈ languages
    · obtain ⟨track, htrack⟩ := hsome hlanguage
      rw [htrack] at h
      cases h
    · rw [selectTrack_of_forall lib hne fun track hmem hmem' =>
        hlanguage ⟨track, hmem, hmem'⟩] at h
      cases h
  · intro hnil
    rw [selectTrack_of_nil lib hnil] at h
    cases h
  · intro track hmem hlanguage
    obtain ⟨selected, hselected⟩ := exists_selectTrack lib hmem hlanguage
    rw [hselected] at h
    cases h
  · obtain ⟨hselectable, place, hplace, -⟩ := (selectTrack_eq_ok_iff_least lib).mp h
    exact ⟨List.mem_of_getElem? hplace, hselectable.1⟩
  · rw [usableTracks, usableTracks] at h
    rw [selectTrack, selectTrack, h]

end Locations

end Extractor
