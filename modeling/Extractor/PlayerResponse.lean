import Extractor.CaptionTracks
import Extractor.Lib.JsonText

/-!
# The player response of a watch page

`extract_player_response` of `crates/youtube/src/player.rs`. The page assigns a JSON object to a
marker; the object is cut out by a scan for balanced braces, which also counts characters against
the byte budget of a page, and is then decoded.

The JSON decoder comes from a crate outside the repository and is a parameter.

## Main definitions

* `embeddedJsonPayload`, `balancedObjectText`: the object that is assigned to the marker.
* `extractPlayerResponse`: the metadata of a page.

## Main results

* `embeddedJsonPayload_objectText`: the object is cut out whole, whatever is in it, and the cap of
  the scan decides about no page within the budget.
-/

namespace Extractor

/-! ### The payload -/

/-- `PLAYER_RESPONSE_MARKER`. -/
def playerResponseMarker : List Char := "ytInitialPlayerResponse".toList

/-- The loop of `balanced_object_text`; the cap is checked before a character is read. -/
def balancedObjectLoop (limits : YoutubeLimits) :
    List Char → ℕ → Bool → Bool → ℕ → Except YoutubeError (List Char)
  | [], _, _, _, _ => .error .schema
  | ch :: rest, depth, inString, escaped, scanned =>
      let scanned := scanned + 1
      if limits.maxPageBytes < scanned then .error .schema
      else if inString then
        (if escaped then balancedObjectLoop limits rest depth inString false scanned
          else if ch = '\\' then balancedObjectLoop limits rest depth inString true scanned
          else if ch = '"' then balancedObjectLoop limits rest depth false escaped scanned
          else balancedObjectLoop limits rest depth inString escaped scanned).map (ch :: ·)
      else if ch = '"' then
        (balancedObjectLoop limits rest depth true escaped scanned).map (ch :: ·)
      else if ch = '{' then
        (balancedObjectLoop limits rest (depth + 1) inString escaped scanned).map (ch :: ·)
      else if ch = '}' then
        if depth = 0 then .error .schema
        else if depth - 1 = 0 then .ok [ch]
        else (balancedObjectLoop limits rest (depth - 1) inString escaped scanned).map (ch :: ·)
      else (balancedObjectLoop limits rest depth inString escaped scanned).map (ch :: ·)

/-- `balanced_object_text`: the text up to the brace that closes the object. -/
def balancedObjectText (tail : List Char) (scannedBeforeTail : ℕ) (limits : YoutubeLimits) :
    Except YoutubeError (List Char) :=
  balancedObjectLoop limits tail 0 false false scannedBeforeTail

/-- `embedded_json_payload`; the start of the marker is counted in bytes, what follows in
characters. -/
def embeddedJsonPayload (page : List Char) (limits : YoutubeLimits) :
    Except YoutubeError (List Char) := do
  let (before, afterMarker) ← okOr (Text.splitOnce playerResponseMarker page) YoutubeError.schema
  match afterMarker.dropWhile Text.isWhitespace with
  | '=' :: tail =>
      balancedObjectText tail (Text.utf8Len before + playerResponseMarker.length) limits
  | _ => .error .schema

/-! ### The scan and its cap -/

/-- With room for the whole text the loop is the scan for balanced braces. -/
theorem balancedObjectLoop_eq {limits : YoutubeLimits} {tail : List Char} {depth : ℕ}
    {inString escaped : Bool} {scanned : ℕ} (h : scanned + tail.length ≤ limits.maxPageBytes) :
    balancedObjectLoop limits tail depth inString escaped scanned =
      okOr (JsonText.balancedPrefix tail ⟨depth, inString, escaped⟩) YoutubeError.schema := by
  induction tail generalizing depth inString escaped scanned with
  | nil => rfl
  | cons ch rest ih =>
      rw [List.length_cons] at h
      have hcap : ¬ limits.maxPageBytes < scanned + 1 := by omega
      have hrest : ∀ {depth : ℕ} {inString escaped : Bool},
          (balancedObjectLoop limits rest depth inString escaped (scanned + 1)).map (ch :: ·) =
            okOr ((JsonText.balancedPrefix rest ⟨depth, inString, escaped⟩).map (ch :: ·))
              YoutubeError.schema := by
        intro depth inString escaped
        rw [ih (by omega)]
        cases JsonText.balancedPrefix rest ⟨depth, inString, escaped⟩ <;> rfl
      rw [balancedObjectLoop, JsonText.balancedPrefix]
      dsimp only
      rw [if_neg hcap]
      cases inString with
      | true =>
          have hcloses : JsonText.Scan.closes ⟨depth, true, escaped⟩ ch = false := rfl
          rw [hcloses, Bool.false_and, Bool.false_and, if_neg Bool.false_ne_true,
            if_neg Bool.false_ne_true, if_pos rfl, JsonText.Scan.next, if_pos rfl]
          cases escaped with
          | true => exact hrest
          | false =>
              rw [if_neg Bool.false_ne_true, if_neg Bool.false_ne_true]
              by_cases hback : ch = '\\'
              · rw [if_pos hback, if_pos hback]
                exact hrest
              · rw [if_neg hback, if_neg hback]
                by_cases hquote : ch = '"'
                · rw [if_pos hquote, if_pos hquote]
                  exact hrest
                · rw [if_neg hquote, if_neg hquote]
                  exact hrest
      | false =>
          rw [if_neg Bool.false_ne_true, JsonText.Scan.next, if_neg Bool.false_ne_true]
          by_cases hclose : ch = '}'
          · subst hclose
            rcases depth with _ | _ | depth
            · rfl
            · rfl
            · exact hrest
          · have hcloses : JsonText.Scan.closes ⟨depth, false, escaped⟩ ch = false := by
              simp [JsonText.Scan.closes, hclose]
            rw [hcloses, Bool.false_and, Bool.false_and, if_neg Bool.false_ne_true,
              if_neg Bool.false_ne_true, if_neg hclose, if_neg hclose]
            by_cases hquote : ch = '"'
            · rw [if_pos hquote, if_pos hquote]
              exact hrest
            · rw [if_neg hquote, if_neg hquote]
              by_cases hopen : ch = '{'
              · rw [if_pos hopen, if_pos hopen]
                exact hrest
              · rw [if_neg hopen, if_neg hopen]
                exact hrest

/-- White space means nothing to the scan. -/
theorem isPlain_of_isWhitespace {c : Char} (h : Text.isWhitespace c = true) :
    JsonText.IsPlain c := by
  refine ⟨?_, ?_, ?_⟩ <;> rintro rfl <;> exact absurd h (by decide)

theorem playerResponseMarker_ne_nil : playerResponseMarker ≠ [] := by decide

/-- The marker does not overlap itself. -/
theorem playerResponseMarker_unbordered : ∀ k < playerResponseMarker.length, 0 < k →
    ¬ playerResponseMarker.drop k <+: playerResponseMarker := by
  decide

/-- On a page within the budget the payload is what the scan without a cap reads. -/
theorem embeddedJsonPayload_eq {page : List Char} {limits : YoutubeLimits}
    (hsize : Text.utf8Len page ≤ limits.maxPageBytes) :
    embeddedJsonPayload page limits = (do
      let (_, afterMarker) ← okOr (Text.splitOnce playerResponseMarker page) YoutubeError.schema
      match afterMarker.dropWhile Text.isWhitespace with
      | '=' :: tail => okOr (JsonText.balancedPrefix tail (.outside 0)) YoutubeError.schema
      | _ => .error .schema) := by
  rw [embeddedJsonPayload]
  cases hsplit : Text.splitOnce playerResponseMarker page with
  | none => rfl
  | some parts =>
      obtain ⟨before, afterMarker⟩ := parts
      have hpage := Text.eq_append_of_splitOnce hsplit
      have hmarker := Text.length_le_utf8Len playerResponseMarker
      have hafter := Text.length_le_utf8Len afterMarker
      have hdrop := List.length_dropWhile_le Text.isWhitespace afterMarker
      rw [hpage, Text.utf8Len_append, Text.utf8Len_append] at hsize
      simp only [okOr, pure_bind]
      split
      · next tail htail =>
          rw [htail, List.length_cons] at hdrop
          exact balancedObjectLoop_eq (by omega)
      · rfl

/-- **The object is cut out whole.** On a page within the budget the payload is the white space
before the object and the object, whatever its strings, escapes and nesting are and whatever
follows; and for no page within the budget does the cap of the scan decide. -/
theorem embeddedJsonPayload_objectText {limits : YoutubeLimits}
    {page pre space space' object suffix : List Char}
    (hpage : page = pre ++ (playerResponseMarker ++ (space ++ '=' :: (space' ++ (object ++ suffix)))))
    (hpre : ¬ playerResponseMarker <:+: pre)
    (hspace : ∀ c ∈ space, Text.isWhitespace c = true)
    (hspace' : ∀ c ∈ space', Text.isWhitespace c = true)
    (hobject : JsonText.ObjectText object)
    (hsize : Text.utf8Len page ≤ limits.maxPageBytes) :
    embeddedJsonPayload page limits = .ok (space' ++ object) ∧
      ∀ (page' : List Char) (limits' : YoutubeLimits),
        Text.utf8Len page' ≤ limits.maxPageBytes → limits.maxPageBytes ≤ limits'.maxPageBytes →
          embeddedJsonPayload page' limits' = embeddedJsonPayload page' limits := by
  constructor
  · have hscan : JsonText.balancedPrefix (space' ++ (object ++ suffix)) (.outside 0) =
        some (space' ++ object) := by
      rw [JsonText.passes_plain (fun c hc => isPlain_of_isWhitespace (hspace' c hc)) 0,
        JsonText.balancedPrefix_objectText hobject]
      rfl
    have hdrop : (space ++ '=' :: (space' ++ (object ++ suffix))).dropWhile Text.isWhitespace =
        '=' :: (space' ++ (object ++ suffix)) := by
      rw [List.dropWhile_append_of_pos hspace]
      rfl
    rw [embeddedJsonPayload_eq hsize, hpage, Text.splitOnce_append_of_unbordered
      playerResponseMarker_ne_nil playerResponseMarker_unbordered hpre]
    simp only [okOr, pure_bind, hdrop, hscan]
    rfl
  · intro page' limits' hpage' hle
    rw [embeddedJsonPayload_eq hpage', embeddedJsonPayload_eq (hpage'.trans hle)]

/-- An object with a closing brace in a string. -/
def braceObject : List Char := ['{', '"', 'a', '"', ':', '"', '}', '"', '}']

theorem braceObject_objectText : JsonText.ObjectText braceObject := by
  have hspace : JsonText.IsSpace [] := List.forall_mem_nil _
  have hkey : JsonText.IsString ['"', 'a', '"'] :=
    ⟨['a'], .plain (by decide) (by decide) (by decide) .nil, rfl⟩
  have hvalue : JsonText.IsString ['"', '}', '"'] :=
    ⟨['}'], .plain (by decide) (by decide) (by decide) .nil, rfl⟩
  exact .inr ⟨_, .member hspace hkey hspace hspace (.string hvalue) hspace, rfl⟩

theorem embeddedJsonPayload_objectText_brace :
    embeddedJsonPayload ("var ".toList ++ (playerResponseMarker ++ ([' '] ++ '=' :: ([' '] ++
      (braceObject ++ ";\x7d".toList))))) ⟨1000, 0, 0, 0, 0⟩ = .ok (' ' :: braceObject) :=
  (embeddedJsonPayload_objectText rfl (by decide) (Text.forall_mem_of_all (by decide))
    (Text.forall_mem_of_all (by decide)) braceObject_objectText (by decide)).1

/-! ### The metadata -/

/-- `TextRun`. -/
structure TextRun where
  text : Option String

/-- `TrackName`. -/
structure TrackName where
  simpleText : Option String
  runs : Option (List TextRun)

/-- `TrackEntry`. -/
structure TrackEntry where
  baseUrl : Option String
  languageCode : Option String
  name : Option TrackName
  kind : Option String

/-- `Captions`. -/
structure Captions where
  playerCaptionTracks : List TrackEntry

/-- `VideoDetails`. -/
structure VideoDetails where
  title : Option String
  author : Option String
  lengthSeconds : Option String

/-- `PlayerResponse`. -/
structure PlayerResponse where
  videoDetails : Option VideoDetails
  captions : Option Captions

/-- `PlayerMeta`, with all members of its tracks. -/
structure AdvertisedMeta where
  title : Option String
  channel : Option String
  durationSeconds : Option ℕ
  tracks : List AdvertisedTrack

/-- `track_name`. -/
def trackName (name : Option TrackName) : Option String := do
  let name ← name
  name.simpleText <|> do
    let runs ← name.runs
    runs.findSome? fun run => run.text.filter fun text => text != ""

/-- `advertised_tracks`. -/
def advertisedTracks (entries : List TrackEntry) : List AdvertisedTrack :=
  entries.filterMap fun entry => do
    let baseUrl ← entry.baseUrl
    let languageCode ← entry.languageCode
    return { languageCode, baseUrl, name := trackName entry.name
             kind := if entry.kind = some "asr" then .autoGenerated else .manual }

/-- `extract_player_response`. -/
def extractPlayerResponse (decode : List Char → Option PlayerResponse) (page : List Char)
    (limits : YoutubeLimits) : Except YoutubeError AdvertisedMeta := do
  require (Text.utf8Len page ≤ limits.maxPageBytes) YoutubeError.resourceLimit
  let payload ← embeddedJsonPayload page limits
  let response ← okOr (decode payload) YoutubeError.schema
  let details := response.videoDetails.getD ⟨none, none, none⟩
  return {
    title := details.title
    channel := details.author
    durationSeconds := details.lengthSeconds.bind fun seconds =>
      Text.parseUnsigned (2 ^ 64) seconds.toList
    tracks := response.captions.elim [] fun captions =>
      advertisedTracks captions.playerCaptionTracks }

end Extractor
