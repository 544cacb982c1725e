import Extractor.Transcript

/-!
# The groups of a transcript

`grouped_blocks` of `crates/youtube/src/convert.rs` cuts the segments of a transcript into even
consecutive groups, one block each. The texts of the blocks, joined by single spaces, are the texts
of the segments joined by single spaces, whatever the number of groups.

The timing of a block runs from the start of its first segment to the end of its last. Cues may
overlap, so the last segment of a group need not be the one that ends last.

## Main definitions

* `BalancedPartition`: even consecutive groups.
* `BlockTiming.Covers`: a timing contains the ranges of the segments of its block.

## Main results

* `groupedBlocks_partition`: the blocks are the groups of a balanced partition of the segments.
* `timings_cover_iff`: the timings cover the groups whose last segments end last.
-/

namespace Extractor

/-! ### The partition -/

/-- The groups of the segments for a block budget. -/
def segmentGroups (segments : List Segment) (maxBlocks : ℕ) : List (List Segment) :=
  Evenly.slices segments (min maxBlocks segments.length)

/-- The timing record of one group. -/
def groupTiming (index : ℕ) (group : List Segment) : BlockTiming :=
  ⟨index, groupStart group, groupEnd group⟩

/-- Blocks and timings are those of the groups. -/
theorem groupedBlocks_eq {segments : List Segment} {maxBlocks : ℕ}
    (h : min maxBlocks segments.length ≤ 2 ^ 32) :
    groupedBlocks segments maxBlocks =
      .ok ((segmentGroups segments maxBlocks).map fun group => paragraphBlock (mergedText group),
        (segmentGroups segments maxBlocks).mapIdx groupTiming) := by
  rw [groupedBlocks, require, if_pos h]
  rfl

/-- **Even consecutive groups**: in their order they are the segments, none is empty, and none is
longer than another by more than one. -/
structure BalancedPartition (segments : List Segment) (count : ℕ)
    (groups : List (List Segment)) : Prop where
  length : groups.length = count
  flatten : groups.flatten = segments
  nonempty : ∀ group ∈ groups, group ≠ []
  balanced : ∀ group ∈ groups, ∀ other ∈ groups, group.length ≤ other.length + 1

theorem segmentGroups_balanced {segments : List Segment} (hne : segments ≠ []) {maxBlocks : ℕ}
    (hmax : 1 ≤ maxBlocks) :
    BalancedPartition segments (min maxBlocks segments.length)
      (segmentGroups segments maxBlocks) where
  length := Evenly.length_slices _ _
  flatten := by
    have hlen : 0 < segments.length := List.length_pos_of_ne_nil hne
    exact Evenly.flatten_slices _ (by omega)
  nonempty := fun _ hmem => Evenly.slices_ne_nil (Nat.min_le_right _ _) hmem
  balanced := fun _ h _ hother => Evenly.length_le_of_mem h hother

/-- With room for all segments every one is a group of its own. -/
theorem segmentGroups_of_le {segments : List Segment} {maxBlocks : ℕ}
    (h : segments.length ≤ maxBlocks) :
    segmentGroups segments maxBlocks = segments.map fun segment => [segment] := by
  rw [segmentGroups, Nat.min_eq_right h, Evenly.slices_length]

/-- The texts joined with single spaces. -/
def joinedTexts (texts : List String) : List Char :=
  [' '].intercalate (texts.map String.toList)

/-- Joining the blocks of a partition joins the segments: no space is lost or doubled. -/
theorem BalancedPartition.joinedTexts_eq {segments : List Segment} {count : ℕ}
    {groups : List (List Segment)} (h : BalancedPartition segments count groups) :
    joinedTexts (groups.map mergedText) = joinedTexts (segments.map Segment.text) := by
  let texts := groups.map fun group => group.map fun s => s.text.toList
  have hblocks : (groups.map mergedText).map String.toList =
      texts.map [' '].intercalate := by
    simp only [texts, List.map_map]
    exact List.map_congr_left fun group _ => String.toList_ofList
  have hsegments : (segments.map Segment.text).map String.toList = texts.flatten := by
    rw [← List.map_flatten, h.flatten, List.map_map]
    rfl
  have hne : ∀ group ∈ texts, group ≠ [] := by
    intro group hgroup
    obtain ⟨g, hg, rfl⟩ := List.mem_map.mp hgroup
    simpa using h.nonempty g hg
  rw [joinedTexts, joinedTexts, hblocks, hsegments, Evenly.intercalate_map_intercalate _ hne]

/-- The block and the timing of a single segment. -/
theorem mergedText_singleton (segment : Segment) : mergedText [segment] = segment.text := by
  rw [mergedText, List.map_singleton, List.intercalate_singleton, String.ofList_toList]

/-- **Grouping is a partition.** The products of the code stay within a machine word; there are
`min maxBlocks n` blocks and timings, those of a balanced partition of the segments; joining the
blocks joins the segments; and with room for all segments block `i` is segment `i`. -/
theorem groupedBlocks_partition {segments : List Segment} (hne : segments ≠ []) {maxBlocks : ℕ}
    (hmax : 1 ≤ maxBlocks) (hu32 : maxBlocks < 2 ^ 32)
    (hproduct : segments.length * maxBlocks < 2 ^ 64) :
    (∀ group < min maxBlocks segments.length, segments.length * (group + 1) < 2 ^ 64) ∧
    ∃ groups blocks timings, groupedBlocks segments maxBlocks = .ok (blocks, timings) ∧
      BalancedPartition segments (min maxBlocks segments.length) groups ∧
      blocks = groups.map (fun group => paragraphBlock (mergedText group)) ∧
      timings = groups.mapIdx groupTiming ∧
      blocks.length = min maxBlocks segments.length ∧
      timings.length = min maxBlocks segments.length ∧
      joinedTexts (blocks.map DocumentBlock.text) = joinedTexts (segments.map Segment.text) ∧
      (segments.length ≤ maxBlocks →
        blocks = segments.map (fun segment => paragraphBlock segment.text) ∧
          timings = segments.mapIdx fun index segment => ⟨index, segment.startMs,
            saturatingAdd segment.startMs segment.durationMs⟩) := by
  have hpartition := segmentGroups_balanced hne hmax
  refine ⟨fun group hgroup => ?_, segmentGroups segments maxBlocks, _, _,
    groupedBlocks_eq (by omega), hpartition, rfl, rfl, ?_, ?_, ?_, fun hle => ⟨?_, ?_⟩⟩
  · have hle : segments.length * (group + 1) ≤ segments.length * maxBlocks :=
      Nat.mul_le_mul_left _ (by omega)
    omega
  · rw [List.length_map, hpartition.length]
  · rw [List.length_mapIdx, hpartition.length]
  · rw [← hpartition.joinedTexts_eq, List.map_map]
    rfl
  · rw [segmentGroups_of_le hle, List.map_map]
    exact List.map_congr_left fun segment _ => congrArg paragraphBlock (mergedText_singleton _)
  · rw [segmentGroups_of_le hle]
    refine List.ext_getElem (by simp) fun i _ _ => ?_
    simp [groupTiming, groupStart, groupEnd]

/-- Three segments in two blocks. -/
theorem groupedBlocks_partition_three :
    let segments : List Segment := [⟨0, 1000, "one"⟩, ⟨1000, 1000, "two"⟩, ⟨2000, 1000, "three"⟩]
    ∃ blocks timings, groupedBlocks segments 2 = .ok (blocks, timings) ∧ blocks.length = 2 ∧
      timings.length = 2 ∧ joinedTexts (blocks.map DocumentBlock.text) =
        "one two three".toList := by
  intro segments
  have hne : segments ≠ [] := List.cons_ne_nil _ _
  obtain ⟨-, _, blocks, timings, hok, -, -, -, hblocks, htimings, htexts, -⟩ :=
    groupedBlocks_partition hne (by decide : 1 ≤ 2) (by decide) (by decide)
  exact ⟨blocks, timings, hok, hblocks, htimings, htexts.trans (by decide +kernel)⟩

/-! ### Timing -/

/-- The end of a segment, `start_ms + duration_ms`. -/
def Segment.endMs (segment : Segment) : ℕ := segment.startMs + segment.durationMs

/-- **A timing covers its block**: it runs forward and contains the range of every segment. -/
def BlockTiming.Covers (timing : BlockTiming) (group : List Segment) : Prop :=
  timing.startMs ≤ timing.endMs ∧
    ∀ segment ∈ group, timing.startMs ≤ segment.startMs ∧ segment.endMs ≤ timing.endMs

/-- The last segment of a group ends last, and all end within a machine word. -/
def LastEndsLast (group : List Segment) : Prop :=
  ∀ last ∈ group.getLast?, ∀ segment ∈ group,
    segment.endMs ≤ last.endMs ∧ segment.endMs < 2 ^ 64

/-- The timing of one group whose segments start in order. -/
theorem groupTiming_covers_iff {group : List Segment} (hne : group ≠ [])
    (hsorted : group.Pairwise fun s t => s.startMs ≤ t.startMs) (index : ℕ) :
    (groupTiming index group).Covers group ↔ LastEndsLast group := by
  have hlast : group.getLast? = some (group.getLast hne) := List.getLast?_eq_some_getLast hne
  have hend : groupEnd group = min (group.getLast hne).endMs (2 ^ 64 - 1) := by
    rw [groupEnd, hlast]
    rfl
  obtain ⟨first, rest, rfl⟩ := List.exists_cons_of_ne_nil hne
  have hstart : ∀ segment ∈ first :: rest, first.startMs ≤ segment.startMs :=
    List.forall_mem_cons.mpr ⟨Nat.le_refl _, fun s hs => List.rel_of_pairwise_cons hsorted hs⟩
  constructor
  · rintro ⟨-, hcovers⟩ last hmem segment hsegment
    have hle : segment.endMs ≤ groupEnd (first :: rest) := (hcovers segment hsegment).2
    obtain rfl : (first :: rest).getLast hne = last := by simpa [hlast] using hmem
    omega
  · intro hends
    have hle : ∀ segment ∈ first :: rest, segment.endMs ≤ groupEnd (first :: rest) := by
      intro segment hsegment
      have h := hends _ (by rw [hlast]; rfl) segment hsegment
      omega
    have hfirst : first.startMs ≤ first.endMs := Nat.le_add_right _ _
    exact ⟨hfirst.trans (hle first (List.mem_cons_self ..)),
      fun segment hsegment => ⟨hstart segment hsegment, hle segment hsegment⟩⟩

/-- A slice of ordered values is ordered. -/
theorem pairwise_of_mem_segmentGroups {segments group : List Segment}
    {r : Segment → Segment → Prop} (h : segments.Pairwise r) {maxBlocks : ℕ}
    (hmem : group ∈ segmentGroups segments maxBlocks) : group.Pairwise r := by
  obtain ⟨i, -, rfl⟩ := List.mem_map.mp hmem
  exact (h.drop).take

/-- The timings of a result are those of its groups. -/
theorem timings_of_groupedBlocks {segments : List Segment} {maxBlocks : ℕ}
    {blocks : List DocumentBlock} {timings : List BlockTiming}
    (hok : groupedBlocks segments maxBlocks = .ok (blocks, timings)) :
    timings = (segmentGroups segments maxBlocks).mapIdx groupTiming := by
  by_cases h : min maxBlocks segments.length ≤ 2 ^ 32
  · rw [groupedBlocks_eq h] at hok
    exact (Prod.mk.inj (Except.ok.inj hok)).2.symm
  · rw [groupedBlocks, require, if_neg h] at hok
    cases hok

/-- **When the sidecar covers its blocks.** For segments in the order of their starts, every
timing covers its block exactly when, in every group, the last segment ends last. -/
theorem timings_cover_iff {segments : List Segment} {maxBlocks : ℕ}
    (hsorted : segments.Pairwise fun s t => s.startMs ≤ t.startMs)
    {blocks : List DocumentBlock} {timings : List BlockTiming}
    (hok : groupedBlocks segments maxBlocks = .ok (blocks, timings)) :
    List.Forall₂ BlockTiming.Covers timings (segmentGroups segments maxBlocks) ↔
      ∀ group ∈ segmentGroups segments maxBlocks, LastEndsLast group := by
  obtain rfl := timings_of_groupedBlocks hok
  have hgroup : ∀ group ∈ segmentGroups segments maxBlocks, ∀ index,
      (groupTiming index group).Covers group ↔ LastEndsLast group := fun group hmem =>
    groupTiming_covers_iff (Evenly.slices_ne_nil (Nat.min_le_right _ _) hmem)
      (pairwise_of_mem_segmentGroups hsorted hmem)
  rw [List.forall₂_iff_get]
  constructor
  · rintro ⟨-, hcovers⟩ group hmem
    obtain ⟨i, hi, rfl⟩ := List.getElem_of_mem hmem
    have h := hcovers i (by simpa using hi) hi
    rw [List.get_eq_getElem, List.getElem_mapIdx] at h
    exact (hgroup _ (List.getElem_mem hi) i).mp h
  · intro hends
    refine ⟨List.length_mapIdx, fun i hi hi' => ?_⟩
    rw [List.get_eq_getElem, List.getElem_mapIdx]
    exact (hgroup _ (List.getElem_mem hi') i).mpr (hends _ (List.getElem_mem hi'))

/-- A cue of ten seconds and one of a second inside it. -/
def overlappingCues : List Segment := [⟨0, 10000, "a"⟩, ⟨1000, 1000, "b"⟩]

/-- In one block their timing ends after two seconds. -/
theorem overlapping_cue_not_covered :
    (overlappingCues.Pairwise fun s t => s.startMs ≤ t.startMs) ∧
      groupedBlocks overlappingCues 1 = .ok ([paragraphBlock "a b"], [⟨0, 0, 2000⟩]) ∧
      (∃ cue ∈ overlappingCues, cue.endMs = 10000) ∧
      ¬ BlockTiming.Covers ⟨0, 0, 2000⟩ overlappingCues := by
  refine ⟨by simp [overlappingCues], ?_, ⟨_, List.mem_cons_self .., rfl⟩, ?_⟩
  · rw [groupedBlocks_eq (by decide)]
    rfl
  · rintro ⟨-, hcovers⟩
    exact absurd (hcovers ⟨0, 10000, "a"⟩ (List.mem_cons_self ..)).2 (by decide)

/-- Two pairs of cues that overlap, the second of each ending last. -/
def followingCues : List Segment :=
  [⟨0, 1500, "a"⟩, ⟨1000, 1000, "b"⟩, ⟨2000, 1000, "c"⟩, ⟨2500, 500, "d"⟩]

/-- In two blocks their timings cover them. -/
theorem timings_cover_iff_overlapping :
    ∃ blocks timings, groupedBlocks followingCues 2 = .ok (blocks, timings) ∧
      blocks = [paragraphBlock "a b", paragraphBlock "c d"] ∧
      timings = [⟨0, 0, 2000⟩, ⟨1, 2000, 3000⟩] ∧
      List.Forall₂ BlockTiming.Covers timings (segmentGroups followingCues 2) := by
  have hok := groupedBlocks_eq (by decide : min 2 followingCues.length ≤ 2 ^ 32)
  refine ⟨_, _, hok, rfl, rfl, (timings_cover_iff (by simp [followingCues]) hok).mpr ?_⟩
  have hgroups : segmentGroups followingCues 2 =
      [[⟨0, 1500, "a"⟩, ⟨1000, 1000, "b"⟩], [⟨2000, 1000, "c"⟩, ⟨2500, 500, "d"⟩]] := rfl
  rw [hgroups]
  unfold LastEndsLast
  decide

end Extractor
