import KvCache.Foundation.Traverse
import KvCache.Lmcache.BlockBindingRules

/-!
# When a planner answers

A transfer is handed to the planner of rows where blocks are not dealt out over ranks and every
memory object is written from its first row, and to the planner of dealt-out blocks otherwise. A
planner answers where the ranges are as lowering asks and where it can place every block.
-/

namespace KvCache.Lmcache.BlockBinding

open Guarded Descriptor RawPlanners

/-! ## Native calls -/

/-- The memory objects of a transfer, and the chips it is for. -/
structure NativeCall where
  memobjSlots : List Int
  memberWidths : List Int
  regionBases : List Int
  objectRows : Int
  tpSize : Int
  rank : Int
  groupAxis : Int
  shardAxis : Int

/-- The transfer that a planner is given. -/
def NativeCall.transfer (call : NativeCall) (blockSize : Int)
    (starts ends slotMapping : List Int) : Transfer where
  slotMapping := slotMapping
  starts := starts
  ends := ends
  memobjSlots := call.memobjSlots
  memberAllocBytes := call.memberWidths.map fun width => call.objectRows * width
  regionBases := call.regionBases
  blockSize := blockSize

def NativeCall.mesh (call : NativeCall) (descriptor : LocalTransfer) : RegionMesh where
  dpSize := descriptor.profile.plan.blockDistribution.dataParallelSize
  blocksPerDp := descriptor.numBlocks
  tpSize := call.tpSize
  rank := call.rank
  groupAxis := call.groupAxis
  shardAxis := call.shardAxis

/-- The degree to which blocks are dealt out. -/
def LocalTransfer.cpSize (descriptor : LocalTransfer) : Int :=
  descriptor.profile.plan.blockDistribution.contextParallelSize

def LocalTransfer.shape (descriptor : LocalTransfer) (sources : List Int) : CyclicShape where
  sourceStarts := sources
  blocksPerRank := descriptor.numBlocks
  degree := descriptor.cpSize

/-- The rows of one rank are copied, from the first row of every memory object. -/
def LocalTransfer.ByRows (descriptor : LocalTransfer) (sources : List Int) : Prop :=
  descriptor.cpSize = 1 ∧ ∀ source ∈ sources, source = 0

instance (descriptor : LocalTransfer) (sources : List Int) :
    Decidable (descriptor.ByRows sources) := by
  unfold LocalTransfer.ByRows
  infer_instance

/-- The runs of the planner that a transfer is handed to. -/
def NativeCall.runs (call : NativeCall) (descriptor : LocalTransfer)
    (starts ends sources slotMapping : List Int) : Option (List (List RegionRawByteRun)) :=
  let transfer := call.transfer descriptor.profile.blockSize starts ends slotMapping
  if descriptor.ByRows sources then
    buildRegionRawMeshRuns transfer call.memberWidths (call.mesh descriptor)
  else
    buildDsaBlockCyclicRegionRawMeshRuns transfer call.memberWidths (descriptor.shape sources)

/-- What the callers of the planners see to: the memory objects have the blocks of their ranges,
the numbers of the chips fit their words, and the host buffer is within the address space. -/
structure NativeCall.Valid (call : NativeCall) (descriptor : LocalTransfer)
    (starts ends sources : List Int) : Prop where
  objects : call.memobjSlots.length = starts.length
  sourced : sources.length = starts.length
  rows : ∀ range ∈ boundRanges starts ends sources,
    range.sourceStart + blockCount (range.stop - range.start) descriptor.profile.blockSize *
      descriptor.profile.blockSize = call.objectRows
  members : call.memberWidths.length ≠ 0
  bases : call.regionBases.length = call.memberWidths.length
  widths : ∀ width ∈ call.memberWidths, 0 < width ∧
    descriptor.numBlocks * descriptor.profile.blockSize * width < 2 ^ 32
  mesh : (call.mesh descriptor).Valid
  chips : (call.mesh descriptor).dpSize * call.tpSize ≤ 2 ^ 32 ∧ descriptor.cpSize ≤ 2 ^ 32
  host : ∀ memobjSlot ∈ call.memobjSlots, ∀ member ∈ call.memberWidths.zip call.regionBases,
    0 ≤ member.2 + memobjSlot * (call.objectRows * member.1) ∧
      member.2 + (memobjSlot + 1) * (call.objectRows * member.1) ≤ 2 ^ 64

section Calls

variable {call : NativeCall} {descriptor : LocalTransfer} {starts ends sources slots : List Int}

theorem blockSize_pos (descriptor : LocalTransfer) : 0 < descriptor.profile.blockSize :=
  descriptor.profile.valid.block

theorem cpSize_pos (descriptor : LocalTransfer) : 0 < descriptor.cpSize :=
  descriptor.profile.plan.blockDistribution.positive.2.1

/-! ## Members -/

theorem zip_images {α β γ δ : Type} (first : α → β) (second : α → γ) (items : List α)
    (others : List δ) :
    (items.map first).zip ((items.map second).zip others) =
      (items.zip others).map fun pair => (first pair.1, second pair.1, pair.2) := by
  induction items generalizing others with
  | nil => rfl
  | cons item items inductionHypothesis =>
    cases others with
    | nil => rfl
    | cons other others =>
      simp only [List.map_cons, List.zip_cons_cons, inductionHypothesis]

/-- The members of a call. -/
theorem mem_members {strideOf : Int → Int} {member : Member}
    (listed : member ∈ (call.transfer descriptor.profile.blockSize starts ends slots).members
      (call.memberWidths.map strideOf)) :
    ∃ pair ∈ call.memberWidths.zip call.regionBases, pair.1 ∈ call.memberWidths ∧
      member = ⟨strideOf pair.1, call.objectRows * pair.1, pair.2⟩ := by
  rw [Transfer.members, NativeCall.transfer, zip_images, List.map_map, List.mem_map] at listed
  obtain ⟨pair, inside, rfl⟩ := listed
  exact ⟨pair, inside, (List.of_mem_zip inside).1, rfl⟩

theorem headD_eq {items : List Int} {value : Int} (some_ : items ≠ [])
    (same : ∀ item ∈ items, item = value) : items.headD 0 = value := by
  cases items with
  | nil => exact absurd rfl some_
  | cons first rest => exact same first List.mem_cons_self

/-- The numbers of a copy fit: it stays on its chip and in its memory object. -/
theorem place_fits {span limit : Int} {place : Place} {member : Member}
    (some_ : 0 < span * member.stride) (chip : 0 ≤ place.shardIndex ∧ place.shardIndex < 2 ^ 32)
    (source : 0 ≤ place.source ∧ place.source + span ≤ limit)
    (positive : 0 < member.stride) (small : limit * member.stride < 2 ^ 32)
    (within : place.Within span member)
    (host : 0 ≤ member.regionBase + place.memobjSlot * member.allocBytes ∧
      member.regionBase + (place.memobjSlot + 1) * member.allocBytes ≤ 2 ^ 64) :
    (place.copy span member).Fits := by
  have low := Int.mul_nonneg source.1 (Int.le_of_lt positive)
  have high := Int.mul_le_mul_of_nonneg_right source.2 (Int.le_of_lt positive)
  have target := Int.mul_nonneg within.1 (Int.le_of_lt positive)
  have last := within.2
  have next := host.2
  rw [Int.add_mul] at high last
  rw [Int.add_mul, Int.one_mul] at next
  simp only [RawCopy.Fits, FitsU32, FitsHostOffset, Place.copy]
  omega

/-! ## Ranges of chunks -/

/-- The range of a chunk. -/
def rangeOf (item : Chunk × Int) : BoundRange := ⟨item.1.start, item.1.stop, item.2⟩

/-- The chunks of a call, each with its first row in its memory object. -/
def NativeCall.items (call : NativeCall) (descriptor : LocalTransfer)
    (starts ends sources slots : List Int) : List (Chunk × Int) :=
  (call.transfer descriptor.profile.blockSize starts ends slots).chunks.zip sources

theorem items_ranges (valid : call.Valid descriptor starts ends sources)
    (paired : starts.length = ends.length) :
    (call.items descriptor starts ends sources slots).map rangeOf =
      boundRanges starts ends sources := by
  have objects := valid.objects
  have sources_ := valid.sourced
  refine List.ext_getElem ?_ fun index _ _ => ?_
  · simp only [NativeCall.items, Transfer.chunks, NativeCall.transfer, boundRanges,
      List.length_map, List.length_zip]
    omega
  · simp only [NativeCall.items, Transfer.chunks, NativeCall.transfer, boundRanges,
      List.getElem_map, List.getElem_zip, rangeOf]

theorem items_chunks (valid : call.Valid descriptor starts ends sources) :
    (call.items descriptor starts ends sources slots).map Prod.fst =
      (call.transfer descriptor.profile.blockSize starts ends slots).chunks := by
  have sources_ := valid.sourced
  refine List.map_fst_zip ?_
  simp only [Transfer.chunks, NativeCall.transfer, List.length_map, List.length_zip]
  omega

variable (slots) in
theorem items_cyclic (valid : call.Valid descriptor starts ends sources) :
    cyclicChunks (call.transfer descriptor.profile.blockSize starts ends slots)
      (descriptor.shape sources) = call.items descriptor starts ends sources slots := by
  rw [cyclicChunks, NativeCall.items]
  split
  · next none_ =>
    have none_ : sources = [] := none_
    have sources_ := valid.sourced
    rw [none_, List.length_nil] at sources_
    have empty : starts = [] := List.length_eq_zero_iff.mp sources_.symm
    rw [Transfer.chunks, NativeCall.transfer, empty, none_]
    rfl
  · rfl

variable (slots) in
/-- The chunks are given where there is a range. -/
theorem chunksGiven_iff (valid : call.Valid descriptor starts ends sources)
    (paired : starts.length = ends.length) :
    (call.transfer descriptor.profile.blockSize starts ends slots).ChunksGiven ↔ starts ≠ [] := by
  have objects := valid.objects
  rw [Transfer.ChunksGiven, NativeCall.transfer, ← List.length_pos_iff]
  dsimp only
  omega

theorem le_blockCount {blockSize : Int} (positive : 0 < blockSize) (rows : Int) :
    rows ≤ blockCount rows blockSize * blockSize := by
  by_contra more
  exact Nat.lt_irrefl _ ((lt_blockCount positive).mpr (Int.not_le.mp more))

theorem blockCount_whole {blockSize : Int} (positive : 0 < blockSize) (rows : Int) :
    blockCount (blockCount rows blockSize * blockSize) blockSize = blockCount rows blockSize := by
  rw [blockCount_of_dvd positive (Int.dvd_mul_left _ _),
    Int.mul_ediv_cancel _ (Int.ne_of_gt positive)]
  rfl

/-! ## Rows -/

/-- The block of every position that begins one is among the blocks of all ranks. -/
def WithinCapacity (transfer : Transfer) (capacity : Int) (range : BoundRange) : Prop :=
  ∀ index < blockCount (range.stop - range.start) transfer.blockSize,
    transfer.blockAt (range.start + index * transfer.blockSize) < capacity

section Rows

variable {transfer : Transfer} {mesh : RegionMesh} {chunk : Chunk}

theorem meshShardIndex_lt (valid : mesh.Valid) {group : Int} (natural : 0 ≤ group)
    (below : group < mesh.dpSize) :
    0 ≤ meshShardIndex group mesh.rank mesh.dpSize mesh.tpSize mesh.groupAxis mesh.shardAxis ∧
      meshShardIndex group mesh.rank mesh.dpSize mesh.tpSize mesh.groupAxis mesh.shardAxis <
        mesh.dpSize * mesh.tpSize := by
  obtain ⟨dp, -, tp, rank, ranked, axis, otherAxis, distinct⟩ := valid
  have byGroup := Int.mul_nonneg natural (Int.le_of_lt tp)
  have byRank := Int.mul_nonneg rank (Int.le_of_lt dp)
  have lastGroup := Int.mul_le_mul_of_nonneg_right
    (Int.add_one_le_of_lt below) (Int.le_of_lt tp)
  have lastRank := Int.mul_le_mul_of_nonneg_right
    (Int.add_one_le_of_lt ranked) (Int.le_of_lt dp)
  rw [Int.add_mul, Int.one_mul] at lastGroup lastRank
  rw [Int.mul_comm mesh.tpSize] at lastRank
  rw [meshShardIndex]
  obtain axis | axis := axis
  · obtain otherAxis | otherAxis := otherAxis
    · omega
    · simp only [axis, otherAxis, if_true, if_false, one_ne_zero, zero_ne_one]
      omega
  · obtain otherAxis | otherAxis := otherAxis
    · simp only [axis, otherAxis, if_true, if_false, one_ne_zero, zero_ne_one]
      omega
    · omega

/-- A block of rows is placed where it is in order and on one of the groups. -/
theorem regionPlace_isSome (positive : 0 < transfer.blockSize) (valid : mesh.Valid) {row : Int}
    (found : RowFound transfer chunk row)
    (capacity : rowSlot transfer chunk row / transfer.blockSize <
      mesh.blocksPerDp * mesh.dpSize) :
    (regionPlace transfer mesh chunk row).isSome := by
  obtain ⟨natural, aligned, sequential⟩ := found
  have blocks : 0 < mesh.blocksPerDp := valid.2.1
  have block : 0 ≤ rowSlot transfer chunk row / transfer.blockSize :=
    Int.ediv_nonneg natural (Int.le_of_lt positive)
  have group : 0 ≤ rowSlot transfer chunk row / transfer.blockSize / mesh.blocksPerDp :=
    Int.ediv_nonneg block (Int.le_of_lt blocks)
  have below : rowSlot transfer chunk row / transfer.blockSize / mesh.blocksPerDp < mesh.dpSize :=
    Int.ediv_lt_of_lt_mul blocks (by rw [Int.mul_comm]; exact capacity)
  have rest := Int.emod_add_mul_ediv (rowSlot transfer chunk row / transfer.blockSize)
    mesh.blocksPerDp
  have least := Int.emod_nonneg (rowSlot transfer chunk row / transfer.blockSize)
    (Int.ne_of_gt blocks)
  have most := Int.emod_lt_of_pos (rowSlot transfer chunk row / transfer.blockSize) blocks
  rw [Int.mul_comm] at rest
  have inner : rowSlot transfer chunk row / transfer.blockSize -
      rowSlot transfer chunk row / transfer.blockSize / mesh.blocksPerDp * mesh.blocksPerDp =
        rowSlot transfer chunk row / transfer.blockSize % mesh.blocksPerDp := by omega
  have low := Int.mul_nonneg least (Int.le_of_lt positive)
  have high := Int.mul_le_mul_of_nonneg_right (Int.add_one_le_of_lt most) (Int.le_of_lt positive)
  rw [Int.add_mul, Int.one_mul] at high
  have chips := meshShardIndex_lt valid group below
  rw [regionPlace]
  dsimp only
  rw [← rowSlot, if_neg (by omega), if_neg (fun broken => broken.2 (sequential broken.1)),
    if_neg (by omega), inner, if_neg (by omega), if_neg (by omega)]
  rfl

/-- Where a block of rows is placed. -/
theorem regionPlace_bounds {row : Int} {place : RowPlace}
    (found : regionPlace transfer mesh chunk row = some place) :
    rowSlot transfer chunk row / transfer.blockSize / mesh.blocksPerDp < mesh.dpSize ∧
      (0 ≤ place.shardIndex ∧ place.shardIndex < mesh.dpSize * mesh.tpSize) ∧
      (0 ≤ place.srcRow ∧
        place.srcRow + transfer.blockSize ≤ mesh.blocksPerDp * transfer.blockSize) ∧
      place.dstRow = row ∧ place.memobjSlot = chunk.memobjSlot := by
  rw [regionPlace] at found
  dsimp only at found
  rw [← rowSlot] at found
  split at found
  · cases found
  · split at found
    · cases found
    · split at found
      · cases found
      · next group =>
        split at found
        · cases found
        · next rows =>
          split at found
          · cases found
          · next chips =>
            cases found
            dsimp only
            exact ⟨by omega, by omega, by omega, rfl, rfl⟩

/-- Where the blocks of rows of a chunk are placed. -/
theorem regionPlaces_bounds {targetRows : Int} {places : List RowPlace} {place : RowPlace}
    (found : regionPlaces transfer mesh targetRows chunk = some places) (listed : place ∈ places) :
    ∃ index < blockCount targetRows transfer.blockSize,
      (0 ≤ place.shardIndex ∧ place.shardIndex < mesh.dpSize * mesh.tpSize) ∧
      (0 ≤ place.srcRow ∧
        place.srcRow + transfer.blockSize ≤ mesh.blocksPerDp * transfer.blockSize) ∧
      place.dstRow = index * transfer.blockSize ∧ place.memobjSlot = chunk.memobjSlot := by
  rw [regionPlaces] at found
  split at found
  · cases found
  · split at found
    · cases found
    · obtain ⟨row, inside, one⟩ := Traverse.mapM_made found listed
      rw [steps_eq, List.mem_map] at inside
      obtain ⟨index, below, rfl⟩ := inside
      exact ⟨index, List.mem_range.mp below, (regionPlace_bounds one).2⟩

/-- A chunk that fills its memory object is placed exactly where its range is as lowering asks
and its blocks exist. -/
theorem regionPlaces_isSome_iff (positive : 0 < transfer.blockSize) (valid : mesh.Valid)
    (aligned : chunk.start % transfer.blockSize = 0) {targetRows : Int}
    (rows : targetRows =
      blockCount (chunk.stop - chunk.start) transfer.blockSize * transfer.blockSize) :
    (regionPlaces transfer mesh targetRows chunk).isSome ↔
      RangeLowered transfer ⟨chunk.start, chunk.stop, 0⟩ ∧
        WithinCapacity transfer (mesh.blocksPerDp * mesh.dpSize) ⟨chunk.start, chunk.stop, 0⟩ := by
  have blocks : 0 < mesh.blocksPerDp := valid.2.1
  have count : blockCount targetRows transfer.blockSize =
      blockCount (chunk.stop - chunk.start) transfer.blockSize := by
    rw [rows, blockCount_whole positive]
  have slotOf {index : Nat}
      (below : index < blockCount (chunk.stop - chunk.start) transfer.blockSize) :
      rowSlot transfer chunk (index * transfer.blockSize) =
        transfer.slot (chunk.start + index * transfer.blockSize) :=
    if_pos ((lt_blockCount positive).mp below)
  rw [regionPlaces, steps_eq, count]
  constructor
  · intro found
    split at found
    · cases found
    · next range =>
      split at found
      · cases found
      · have every := mapM_isSome.mp found
        rw [List.forall_mem_map] at every
        have each (index : Nat)
            (below : index < blockCount (chunk.stop - chunk.start) transfer.blockSize) :
            BlockInOrder transfer chunk.start chunk.stop index ∧
              transfer.blockAt (chunk.start + index * transfer.blockSize) <
                mesh.blocksPerDp * mesh.dpSize := by
          obtain ⟨place, one⟩ := Option.isSome_iff_exists.mp
            (every index (List.mem_range.mpr below))
          obtain ⟨natural, inBlock, sequential⟩ := (regionPlace_eq_some one).1
          have group := (regionPlace_bounds one).1
          rw [slotOf below] at natural inBlock sequential group
          refine ⟨⟨natural, inBlock, sequential ((lt_blockCount positive).mp below)⟩, ?_⟩
          rw [Transfer.blockAt, Int.mul_comm mesh.blocksPerDp]
          exact Int.lt_mul_of_ediv_lt blocks group
        have first : chunk.start < chunk.stop ∧ chunk.stop ≤ transfer.numSlots := by omega
        exact ⟨⟨by dsimp only; omega, first.1, first.2, aligned,
          ⟨Int.le_refl 0, Int.zero_emod _⟩, fun index below => (each index below).1⟩,
          fun index below => (each index below).2⟩
  · rintro ⟨⟨start, nonempty, covered, -, -, order⟩, capacity⟩
    dsimp only at start nonempty covered order
    have fits := le_blockCount positive (chunk.stop - chunk.start)
    have begun := order 0 ((lt_blockCount positive).mpr (by omega))
    have natural := begun.natural
    have inBlock := begun.aligned
    rw [Nat.cast_zero, Int.zero_mul, Int.add_zero] at natural inBlock
    rw [if_neg (by omega), if_neg (by omega)]
    refine mapM_isSome.mpr fun row listed => ?_
    obtain ⟨index, inside, rfl⟩ := List.mem_map.mp listed
    have below := List.mem_range.mp inside
    refine regionPlace_isSome positive valid ?_ ?_
    · obtain ⟨natural, inBlock, sequential⟩ := order index below
      refine ⟨?_, ?_, fun _ => ?_⟩
      · rw [slotOf below]
        exact natural
      · rw [slotOf below]
        exact inBlock
      · rw [slotOf below]
        exact sequential
    · rw [slotOf below]
      exact capacity index below

end Rows

/-- A planner that answers has placed every chunk. -/
theorem region_placed {transfer : Transfer} {mesh : RegionMesh} {widths : List Int}
    {memberRuns : List (List RegionRawByteRun)}
    (built : buildRegionRawMeshRuns transfer widths mesh = some memberRuns) :
    ∀ chunk ∈ transfer.chunks,
      (regionPlaces transfer mesh (transfer.targetRows widths) chunk).isSome := by
  rw [buildRegionRawMeshRuns] at built
  dsimp only at built
  rw [← Transfer.targetRows] at built
  split at built
  · cases built
  · split at built
    · cases built
    · split at built
      · cases built
      · split at built
        · cases built
        · split at built
          · cases built
          · have loop : regionChunk transfer widths mesh (transfer.targetRows widths) =
                fun memberRuns chunk =>
                  (regionPlaces transfer mesh (transfer.targetRows widths) chunk).bind
                    fun places => places.foldlM (appendPlace (transfer.members widths)
                      (fun place member => (rowCopy transfer place member).Fits)
                      (rowCopy transfer)) memberRuns := by
              funext memberRuns chunk
              exact regionChunk_eq transfer widths mesh _ memberRuns chunk
            rw [loop] at built
            exact ((plan_eq_some _ _ _ _).mp built).1

/-- Every memory object is filled from its first row. -/
theorem items_rows (valid : call.Valid descriptor starts ends sources)
    (paired : starts.length = ends.length) (plain : ∀ source ∈ sources, source = 0)
    {item : Chunk × Int} (listed : item ∈ call.items descriptor starts ends sources slots) :
    item.2 = 0 ∧ call.objectRows = blockCount (item.1.stop - item.1.start)
      descriptor.profile.blockSize * descriptor.profile.blockSize := by
  have zero : item.2 = 0 := plain _ (List.of_mem_zip listed).2
  have inside : rangeOf item ∈ boundRanges starts ends sources := by
    rw [← items_ranges valid paired]
    exact List.mem_map_of_mem listed
  have rows := valid.rows _ inside
  rw [rangeOf] at rows
  dsimp only at rows
  exact ⟨zero, by omega⟩

theorem items_memobjSlot (valid : call.Valid descriptor starts ends sources)
    {item : Chunk × Int} (listed : item ∈ call.items descriptor starts ends sources slots) :
    item.1.memobjSlot ∈ call.memobjSlots := by
  have chunk : item.1 ∈ (call.transfer descriptor.profile.blockSize starts ends slots).chunks := by
    rw [← items_chunks valid]
    exact List.mem_map_of_mem listed
  obtain ⟨entry, inside, same⟩ := List.mem_map.mp chunk
  rw [← same]
  exact (List.of_mem_zip (List.of_mem_zip inside).2).2

/-- The planner of rows answers exactly where there are ranges, each as lowering asks and with
blocks that exist. -/
theorem regionRuns_isSome_iff (valid : call.Valid descriptor starts ends sources)
    (paired : starts.length = ends.length) (plain : ∀ source ∈ sources, source = 0)
    (aligned : ∀ start ∈ starts, start % descriptor.profile.blockSize = 0) :
    (buildRegionRawMeshRuns (call.transfer descriptor.profile.blockSize starts ends slots)
      call.memberWidths (call.mesh descriptor)).isSome ↔
      starts ≠ [] ∧ ∀ range ∈ boundRanges starts ends sources,
        RangeLowered (call.transfer descriptor.profile.blockSize starts ends slots) range ∧
          WithinCapacity (call.transfer descriptor.profile.blockSize starts ends slots)
            ((call.mesh descriptor).blocksPerDp * (call.mesh descriptor).dpSize) range := by
  have positive := blockSize_pos descriptor
  generalize described : call.transfer descriptor.profile.blockSize starts ends slots = transfer
  have size : transfer.blockSize = descriptor.profile.blockSize := by rw [← described]; rfl
  have members {member : Member} (listed : member ∈ transfer.members call.memberWidths) :
      ∃ pair ∈ call.memberWidths.zip call.regionBases, pair.1 ∈ call.memberWidths ∧
        member = ⟨pair.1, call.objectRows * pair.1, pair.2⟩ := by
    rw [← described, ← List.map_id call.memberWidths] at listed
    exact mem_members listed
  have some_ : transfer.members call.memberWidths ≠ [] := by
    rw [← described]
    exact members_ne_nil valid.members (List.length_map _) valid.bases
  have rowsOf {member : Member} (listed : member ∈ transfer.members call.memberWidths) :
      member.allocBytes / member.stride = call.objectRows := by
    obtain ⟨pair, -, width, rfl⟩ := members listed
    exact Int.mul_ediv_cancel _ (Int.ne_of_gt (valid.widths _ width).1)
  have target : transfer.targetRows call.memberWidths = call.objectRows := by
    refine headD_eq (fun none_ => some_ (List.map_eq_nil_iff.mp none_)) fun rows listed => ?_
    obtain ⟨member, inside, rfl⟩ := List.mem_map.mp listed
    exact rowsOf inside
  have chunks : transfer.chunks = (call.items descriptor starts ends sources slots).map Prod.fst := by
    rw [items_chunks valid, described]
  have ranges : boundRanges starts ends sources =
      (call.items descriptor starts ends sources slots).map rangeOf := (items_ranges valid paired).symm
  have each {item : Chunk × Int} (listed : item ∈ call.items descriptor starts ends sources slots) :
      (regionPlaces transfer (call.mesh descriptor) call.objectRows item.1).isSome ↔
        RangeLowered transfer (rangeOf item) ∧ WithinCapacity transfer
          ((call.mesh descriptor).blocksPerDp * (call.mesh descriptor).dpSize) (rangeOf item) := by
    obtain ⟨zero, rows⟩ := items_rows valid paired plain listed
    have begun : item.1.start ∈ starts := by
      have inside : rangeOf item ∈ boundRanges starts ends sources := by
        rw [ranges]
        exact List.mem_map_of_mem listed
      obtain ⟨⟨start, stop, source⟩, there, same⟩ := List.mem_map.mp inside
      have begun : start = item.1.start := congrArg BoundRange.start same
      rw [← begun]
      exact (List.of_mem_zip there).1
    rw [← size] at rows aligned
    have found := regionPlaces_isSome_iff (size ▸ positive) valid.mesh (aligned _ begun) rows
    rw [rangeOf, zero]
    exact found
  rw [ranges, List.forall_mem_map]
  constructor
  · intro built
    obtain ⟨runs, built⟩ := Option.isSome_iff_exists.mp built
    have given := (buildRegionRawMeshRuns_eq_some built).1.given
    rw [← described, chunksGiven_iff slots valid paired] at given
    refine ⟨given, fun item listed => (each listed).mp ?_⟩
    rw [← target]
    refine region_placed built _ ?_
    rw [chunks]
    exact List.mem_map_of_mem listed
  · rintro ⟨given, lowered⟩
    obtain ⟨item, listed⟩ : ∃ item, item ∈ call.items descriptor starts ends sources slots := by
      refine List.exists_mem_of_length_pos ?_
      have count := congrArg List.length ranges
      have some_ := List.length_pos_iff.mpr given
      have sourced := valid.sourced
      rw [boundRanges, List.length_map, List.length_map, List.length_zip, List.length_zip] at count
      omega
    have rows : 0 < call.objectRows := by
      obtain ⟨-, rows⟩ := items_rows valid paired plain listed
      have nonempty := (lowered item listed).1.nonempty
      rw [rangeOf] at nonempty
      dsimp only at nonempty
      have some_ := le_blockCount positive (item.1.stop - item.1.start)
      omega
    have whole : descriptor.profile.blockSize ∣ call.objectRows := by
      obtain ⟨-, rows⟩ := items_rows valid paired plain listed
      rw [rows]
      exact Int.dvd_mul_left _ _
    have loop : regionChunk transfer call.memberWidths (call.mesh descriptor) call.objectRows =
        fun memberRuns chunk =>
          (regionPlaces transfer (call.mesh descriptor) call.objectRows chunk).bind
            fun places => places.foldlM (appendPlace (transfer.members call.memberWidths)
              (fun place member => (rowCopy transfer place member).Fits)
              (rowCopy transfer)) memberRuns := by
      funext memberRuns chunk
      exact regionChunk_eq transfer call.memberWidths _ _ memberRuns chunk
    have chunksGiven := (chunksGiven_iff slots valid paired).mpr given
    rw [described] at chunksGiven
    rw [buildRegionRawMeshRuns]
    dsimp only
    rw [← Transfer.targetRows, target, loop, if_neg, if_neg, if_neg, if_neg, if_neg]
    · refine Option.isSome_of_mem ((plan_eq_some _ _ _ _).mpr ⟨fun chunk member => ?_,
        fun place planned member inside => ?_, rfl⟩)
      · rw [chunks] at member
        obtain ⟨item, listed, rfl⟩ := List.mem_map.mp member
        exact (each listed).mpr (lowered item listed)
      · obtain ⟨chunk, member, here⟩ := List.mem_flatMap.mp planned
        rw [chunks] at member
        obtain ⟨item, listed, rfl⟩ := List.mem_map.mp member
        obtain ⟨places, there⟩ := Option.isSome_iff_exists.mp
          ((each listed).mpr (lowered item listed))
        rw [there, Option.getD_some] at here
        obtain ⟨index, below, chips, source, target, object⟩ := regionPlaces_bounds there here
        obtain ⟨pair, zipped, width, rfl⟩ := members inside
        obtain ⟨wide, small⟩ := valid.widths _ width
        have memobjSlot := items_memobjSlot valid listed
        rw [size] at below target source
        rw [rowCopy_eq, size]
        refine place_fits (Int.mul_pos positive wide)
          ⟨chips.1, Int.lt_of_lt_of_le chips.2 valid.chips.1⟩ source wide small ⟨?_, ?_⟩ ?_
        · rw [RowPlace.place]
          dsimp only
          rw [target]
          exact Int.mul_nonneg (Int.natCast_nonneg index) (Int.le_of_lt positive)
        · rw [RowPlace.place]
          dsimp only
          rw [target]
          refine Int.mul_le_mul_of_nonneg_right ?_ (Int.le_of_lt wide)
          rw [blockCount_of_dvd positive whole] at below
          have last : ((index : Int) + 1) * descriptor.profile.blockSize ≤ call.objectRows := by
            rw [← Int.le_ediv_iff_mul_le positive]
            omega
          rw [Int.add_mul, Int.one_mul] at last
          exact last
        · rw [RowPlace.place]
          dsimp only
          rw [object]
          exact valid.host _ memobjSlot _ zipped
    · rintro ⟨other, listed, different⟩
      obtain ⟨member, inside, rfl⟩ := List.mem_map.mp listed
      exact different (rowsOf inside)
    · rw [size]
      have none_ := Int.emod_eq_zero_of_dvd whole
      omega
    · rintro ⟨member, inside, broken⟩
      obtain ⟨pair, -, width, rfl⟩ := members inside
      have positive := (valid.widths _ width).1
      have product := Int.mul_pos rows positive
      rw [Int.mul_emod_left] at broken
      dsimp only at broken
      omega
    · rw [size, not_or, Int.not_le]
      exact ⟨positive, not_not.mpr valid.mesh⟩
    · have allocs : transfer.memberAllocBytes.length = call.memberWidths.length := by
        rw [← described]
        exact List.length_map _
      have bases : transfer.regionBases.length = call.memberWidths.length := by
        rw [← described]
        exact valid.bases
      exact not_or.mpr ⟨not_not.mpr chunksGiven, not_or.mpr ⟨valid.members,
        not_or.mpr ⟨not_not.mpr allocs, not_not.mpr bases⟩⟩⟩

/-! ## Dealt-out blocks -/

/-- The group of every block of a range agrees on a block that a rank has. -/
def Resolved (transfer : Transfer) (shape : CyclicShape) (range : BoundRange) : Prop :=
  ∀ index < blockCount (range.stop - range.start) transfer.blockSize,
    ∃ block, canonicalPhysicalBlock transfer shape
      ((range.start / transfer.blockSize + index) / shape.degree)
      (transfer.slot (range.start + index * transfer.blockSize)) = some block ∧ 0 < block ∧
        block < shape.blocksPerRank

theorem cyclicFound_iff {transfer : Transfer} {shape : CyclicShape} {targetBlocks : Int}
    (positive : 0 < transfer.blockSize) {item : Chunk × Int}
    (fits : item.2 / transfer.blockSize +
      (blockCount (item.1.stop - item.1.start) transfer.blockSize : Int) ≤ targetBlocks) :
    CyclicFound transfer shape targetBlocks item ↔
      RangeLowered transfer (rangeOf item) ∧ Resolved transfer shape (rangeOf item) := by
  constructor
  · rintro ⟨start, aligned, nonempty, covered, source, -, blocks⟩
    refine ⟨⟨start, nonempty, covered, aligned, source, fun index below => ?_⟩,
      fun index below => (blocks index below).resolved⟩
    obtain ⟨natural, inBlock, sequential, -⟩ := blocks index below
    exact ⟨natural, inBlock, sequential ((lt_blockCount positive).mp below)⟩
  · rintro ⟨⟨start, nonempty, covered, aligned, source, blocks⟩, resolved⟩
    refine ⟨start, aligned, nonempty, covered, source, fits, fun index below => ?_⟩
    obtain ⟨natural, inBlock, sequential⟩ := blocks index below
    exact ⟨natural, inBlock, fun _ => sequential, resolved index below⟩

/-- The planner of dealt-out blocks answers exactly where there are two members and ranges, each
as lowering asks and with groups that agree on blocks that exist. -/
theorem cyclicRuns_isSome_iff (valid : call.Valid descriptor starts ends sources)
    (paired : starts.length = ends.length) :
    (buildDsaBlockCyclicRegionRawMeshRuns
      (call.transfer descriptor.profile.blockSize starts ends slots) call.memberWidths
      (descriptor.shape sources)).isSome ↔
      call.memberWidths.length = 2 ∧ starts ≠ [] ∧ ∀ range ∈ boundRanges starts ends sources,
        RangeLowered (call.transfer descriptor.profile.blockSize starts ends slots) range ∧
          Resolved (call.transfer descriptor.profile.blockSize starts ends slots)
            (descriptor.shape sources) range := by
  have positive := blockSize_pos descriptor
  have cyclic := items_cyclic slots valid
  have ranges : boundRanges starts ends sources =
      (call.items descriptor starts ends sources slots).map rangeOf := (items_ranges valid paired).symm
  have rowsOf {item : Chunk × Int}
      (listed : item ∈ call.items descriptor starts ends sources slots) :
      item.2 + blockCount (item.1.stop - item.1.start) descriptor.profile.blockSize *
        descriptor.profile.blockSize = call.objectRows := by
    refine valid.rows (rangeOf item) ?_
    rw [ranges]
    exact List.mem_map_of_mem listed
  have chunksGiven := chunksGiven_iff slots valid paired
  have memobjSlots {item : Chunk × Int}
      (listed : item ∈ call.items descriptor starts ends sources slots) :=
    items_memobjSlot valid listed
  generalize described : call.transfer descriptor.profile.blockSize starts ends slots = transfer
    at cyclic chunksGiven ⊢
  have size : transfer.blockSize = descriptor.profile.blockSize := by rw [← described]; rfl
  have fits {item : Chunk × Int}
      (listed : item ∈ call.items descriptor starts ends sources slots) :
      item.2 / transfer.blockSize +
        (blockCount (item.1.stop - item.1.start) transfer.blockSize : Int) ≤
          call.objectRows / descriptor.profile.blockSize := by
    rw [size, ← rowsOf listed, Int.add_mul_ediv_right _ _ (Int.ne_of_gt positive)]
  have members {member : Member} (listed : member ∈ cyclicMembers transfer call.memberWidths) :
      ∃ pair ∈ call.memberWidths.zip call.regionBases, pair.1 ∈ call.memberWidths ∧
        member = ⟨pair.1 * descriptor.profile.blockSize, call.objectRows * pair.1, pair.2⟩ := by
    rw [cyclicMembers, size, ← described] at listed
    exact mem_members listed
  rw [ranges, List.forall_mem_map]
  constructor
  · intro built
    obtain ⟨runs, built⟩ := Option.isSome_iff_exists.mp built
    obtain ⟨checked, found, -, -⟩ := buildDsaBlockCyclic_eq_some built
    refine ⟨checked.two.1, chunksGiven.mp checked.given, fun item listed => ?_⟩
    rw [← cyclic] at listed
    exact (cyclicFound_iff (size ▸ positive) (found item listed).fits).mp (found item listed)
  · rintro ⟨two, given, lowered⟩
    obtain ⟨item, listed⟩ : ∃ item, item ∈ call.items descriptor starts ends sources slots := by
      refine List.exists_mem_of_length_pos ?_
      have count := congrArg List.length ranges
      have some_ := List.length_pos_iff.mpr given
      have sourced := valid.sourced
      rw [boundRanges, List.length_map, List.length_map, List.length_zip, List.length_zip] at count
      omega
    have whole : descriptor.profile.blockSize ∣ call.objectRows := by
      have source := (lowered item listed).1.source
      rw [rangeOf, size] at source
      dsimp only at source
      rw [← rowsOf listed]
      exact Int.dvd_add (Int.dvd_of_emod_eq_zero source.2) (Int.dvd_mul_left _ _)
    have rows : 0 < call.objectRows := by
      have source := (lowered item listed).1.source
      have nonempty := (lowered item listed).1.nonempty
      rw [rangeOf] at source nonempty
      dsimp only at source nonempty
      have some_ := le_blockCount positive (item.1.stop - item.1.start)
      have sum := rowsOf listed
      omega
    obtain ⟨blocks, product⟩ := whole
    have counted : 0 < blocks := by
      rw [product] at rows
      exact Int.pos_of_mul_pos_right rows positive
    have allocated (width : Int) : call.objectRows * width =
        blocks * (width * descriptor.profile.blockSize) := by
      rw [product, Int.mul_comm descriptor.profile.blockSize, Int.mul_assoc,
        Int.mul_comm width]
    have quotient : call.objectRows / descriptor.profile.blockSize = blocks := by
      rw [product, Int.mul_ediv_cancel_left _ (Int.ne_of_gt positive)]
    have wide {width : Int} (one : width ∈ call.memberWidths) :
        0 < width * descriptor.profile.blockSize := Int.mul_pos (valid.widths _ one).1 positive
    have blocksOf {member : Member} (inside : member ∈ cyclicMembers transfer call.memberWidths) :
        member.allocBytes / member.stride = blocks := by
      obtain ⟨pair, -, width, rfl⟩ := members inside
      dsimp only
      rw [allocated, Int.mul_ediv_cancel _ (Int.ne_of_gt (wide width))]
    have allocs : transfer.memberAllocBytes.length = call.memberWidths.length := by
      rw [← described]
      exact List.length_map _
    have bases : transfer.regionBases.length = call.memberWidths.length := by
      rw [← described]
      exact valid.bases
    have some_ : cyclicMembers transfer call.memberWidths ≠ [] :=
      members_ne_nil (by rw [List.length_map]; exact valid.members)
        (by rw [List.length_map]; exact allocs) (by rw [List.length_map]; exact bases)
    have target : transfer.targetBlocks call.memberWidths = blocks := by
      refine headD_eq (fun none_ => some_ (List.map_eq_nil_iff.mp none_)) fun count listed => ?_
      obtain ⟨member, inside, rfl⟩ := List.mem_map.mp listed
      exact blocksOf inside
    rw [buildDsaBlockCyclicRegionRawMeshRuns]
    dsimp only
    rw [← Transfer.targetBlocks, target, cyclicLoop_eq, if_neg, if_neg, if_neg, if_neg, if_neg,
      if_neg]
    · refine Option.isSome_of_mem ((plan_eq_some _ _ _ _).mpr ⟨fun item listed => ?_,
        fun place planned member inside => ?_, rfl⟩)
      · rw [cyclic] at listed
        exact cyclicPlaces_isSome (size ▸ positive) ((cyclicFound_iff (size ▸ positive)
          (quotient ▸ fits listed)).mpr (lowered item listed))
      · obtain ⟨item, listed, here⟩ := List.mem_flatMap.mp planned
        rw [cyclic] at listed
        have found := (cyclicFound_iff (size ▸ positive) (quotient ▸ fits listed)).mpr
          (lowered item listed)
        obtain ⟨places, there⟩ := Option.isSome_iff_exists.mp
          (cyclicPlaces_isSome (size ▸ positive) found)
        rw [there, Option.getD_some] at here
        have asked : place.place ∈ cyclicAsked transfer (descriptor.shape sources) item := by
          rw [← (cyclicPlaces_eq_some (size ▸ positive) there).2]
          exact List.mem_map_of_mem here
        obtain ⟨index, below, same⟩ := List.mem_map.mp asked
        rw [List.mem_range] at below
        obtain ⟨block, canonical, low, high⟩ := (found.blocks index below).resolved
        have source : canonicalBlock transfer (descriptor.shape sources)
            (item.1.start + index * transfer.blockSize) = block := by
          rw [canonicalBlock, start_add_div (size ▸ positive), canonical, Option.getD_some]
        obtain ⟨pair, zipped, width, rfl⟩ := members inside
        obtain ⟨-, small⟩ := valid.widths _ width
        have positiveStride := wide width
        have degree := cpSize_pos descriptor
        have memobjSlot := memobjSlots listed
        have count := found.fits
        have begun := found.source
        rw [size] at begun below
        have natural := Int.ediv_nonneg begun.1 (Int.le_of_lt positive)
        rw [cyclicCopy_eq, ← same, source]
        refine ⟨place_fits (by rw [Int.one_mul]; exact positiveStride) ⟨Int.emod_nonneg _
          (Int.ne_of_gt degree), Int.lt_of_lt_of_le (Int.emod_lt_of_pos _ degree) valid.chips.2⟩
          ⟨Int.le_of_lt low, Int.add_one_le_of_lt high⟩ positiveStride ?_ ⟨?_, ?_⟩
          (valid.host _ memobjSlot _ zipped), ?_⟩
        · rw [LocalTransfer.shape]
          dsimp only
          rw [Int.mul_comm pair.1, ← Int.mul_assoc]
          exact small
        · dsimp only
          rw [size]
          exact Int.add_nonneg natural (Int.natCast_nonneg index)
        · dsimp only
          rw [allocated]
          refine Int.mul_le_mul_of_nonneg_right ?_ (Int.le_of_lt positiveStride)
          rw [size] at count ⊢
          omega
        · rw [Place.copy]
          dsimp only
          rw [Int.one_mul]
          exact positiveStride
    · rintro ⟨other, listed, different⟩
      obtain ⟨member, inside, rfl⟩ := List.mem_map.mp listed
      exact different (blocksOf inside)
    · omega
    · rintro ⟨member, inside, broken⟩
      obtain ⟨pair, -, width, rfl⟩ := members inside
      have stride := wide width
      have product := Int.mul_pos counted stride
      dsimp only at broken
      rw [allocated, Int.mul_emod_left] at broken
      omega
    · have degree := cpSize_pos descriptor
      have some_ := descriptor.positive
      rw [size, LocalTransfer.shape]
      dsimp only
      omega
    · rintro (none_ | ⟨-, count⟩)
      · exact none_ (chunksGiven.mpr given)
      · refine count ?_
        have objects : transfer.memobjSlots = call.memobjSlots := by rw [← described]; rfl
        rw [objects, valid.objects]
        exact valid.sourced
    · omega

end Calls

end KvCache.Lmcache.BlockBinding
