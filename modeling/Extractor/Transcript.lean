import Extractor.Lib.Slices
import Extractor.Pdf
import Extractor.TimedText

/-!
# Transcript documents

`from_transcript` of `crates/youtube/src/convert.rs`: the segments of a caption track, grouped
into at most `max_blocks` consecutive groups, as one paragraph each, with the timing of every
block.

## Main definitions

* `segmentGroup`: the segments of one group.
* `groupedBlocks`: the blocks and their timings.
* `fromTranscript`: the conversion.

## Main results

* `flatten_segmentGroups`: the groups are the segments.
-/

namespace Extractor

/-! ### Groups -/

/-- The segments of one group: those from `n * group / groupCount` up to
`n * (group + 1) / groupCount`. -/
def segmentGroup (segments : List Segment) (groupCount group : ℕ) : List Segment :=
  let startIndex := segments.length * group / groupCount
  let endIndex := segments.length * (group + 1) / groupCount
  (segments.drop startIndex).take (endIndex - startIndex)

/-- The texts of a group with single spaces between them. -/
def mergedText (group : List Segment) : String :=
  String.ofList ([' '].intercalate (group.map fun s => s.text.toList))

/-- The start of the first segment of a group. -/
def groupStart (group : List Segment) : ℕ :=
  (group.head?.map Segment.startMs).getD 0

/-- The end of the last segment of a group. -/
def groupEnd (group : List Segment) : ℕ :=
  (group.getLast?.map fun s => saturatingAdd s.startMs s.durationMs).getD 0

/-- `grouped_blocks`. -/
def groupedBlocks (segments : List Segment) (maxBlocks : ℕ) :
    Except YoutubeError (List DocumentBlock × List BlockTiming) := do
  let groupCount := min maxBlocks segments.length
  require (groupCount ≤ 2 ^ 32) YoutubeError.resourceLimit
  let groups := (List.range groupCount).map (segmentGroup segments groupCount)
  return (groups.map fun group => paragraphBlock (mergedText group),
    groups.mapIdx fun index group => ⟨index, groupStart group, groupEnd group⟩)

/-- **The groups are the segments**, in their order and without a loss. -/
theorem flatten_segmentGroups (segments : List Segment) {groupCount : ℕ} (h : 0 < groupCount) :
    ((List.range groupCount).map (segmentGroup segments groupCount)).flatten = segments :=
  Evenly.flatten_slices segments h

/-! ### Conversion -/

/-- `normalized_title`. -/
def normalizedTitle (raw : Option String) : Option String :=
  raw.bind trimmedText

/-- `identity_error` of the transcript path. -/
def transcriptIdentityError : DocumentIrError → YoutubeError
  | .serialization => .serialization
  | _ => .invalidIdentity

section Conversion

variable (lib : YoutubeLib) (input : TranscriptInput) (limits : YoutubeLimits)

/-- `from_transcript` up to the assembly: the decision is selected unconditionally. -/
def transcriptAssembly :
    Except YoutubeError (Assembly × CandidateDecision × List BlockTiming) := do
  require (limits.maxBlocks ≠ 0) YoutubeError.resourceLimit
  require (input.segments ≠ []) YoutubeError.schema
  let title := normalizedTitle input.playerMeta.title
  let (blocks, timings) ← groupedBlocks input.segments limits.maxBlocks
  let decision := evaluatePlainText youtubeStrategy blocks title
  require (lib.languageIsValid input.language) YoutubeError.invalidIdentity
  return (⟨youtubeStrategy, title, some input.language, blocks⟩,
    { decision with selected := true }, timings)

/-- `from_transcript`. -/
def fromTranscript : Except YoutubeError TranscriptExtraction := do
  let (assembly, decision, timings) ← transcriptAssembly lib input limits
  let document ← (assembly.document lib.documents input.owner input.sourceAddress
    input.sourceBlob).mapError transcriptIdentityError
  return {
    document := document
    candidate := decision
    sidecar := {
      strategy := youtubeStrategy
      language := input.language
      title := input.playerMeta.title
      channel := input.playerMeta.channel
      durationSeconds := input.playerMeta.durationSeconds
      segmentCount := input.segments.length
      blocks := timings } }

end Conversion

end Extractor
