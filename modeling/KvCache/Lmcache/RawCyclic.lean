import KvCache.Lmcache.RawInterleaved

/-!
# Blocks dealt out over ranks

The third planner copies each block of a chunk from the rank that its position chooses, where it
is the canonical block of the position's group.
-/

namespace KvCache.Lmcache.RawPlanners

open Guarded

section Cyclic

variable (transfer : Transfer) (memberWidths : List Int) (shape : CyclicShape)

/-- The canonical block of a position's group. -/
def canonicalBlock (position : Int) : Int :=
  (canonicalPhysicalBlock transfer shape (position / transfer.blockSize / shape.degree)
    (transfer.slot position)).getD 0

/-- The blocks that a chunk asks for. -/
def cyclicAsked (item : Chunk × Int) : List Place :=
  (List.range (blockCount (item.1.stop - item.1.start) transfer.blockSize)).map
    fun index : Nat =>
      { shardIndex := (item.1.start / transfer.blockSize + index) % shape.degree
        source := canonicalBlock transfer shape (item.1.start + index * transfer.blockSize)
        target := item.2 / transfer.blockSize + index
        memobjSlot := item.1.memobjSlot }

/-- The blocks that a transfer asks for. -/
def Transfer.cyclicAsked (transfer : Transfer) (shape : CyclicShape) : List Place :=
  (cyclicChunks transfer shape).flatMap (RawPlanners.cyclicAsked transfer shape)

/-- The blocks of a memory object, by its first member. -/
def Transfer.targetBlocks (transfer : Transfer) (memberWidths : List Int) : Int :=
  ((cyclicMembers transfer memberWidths).map fun member =>
    member.allocBytes / member.stride).headD 0

def CyclicPlace.place (place : CyclicPlace) : Place :=
  ⟨place.shardIndex, place.localBlock, place.hostBlock, place.memobjSlot⟩

variable {transfer memberWidths shape}

theorem cyclicCopy_eq (place : CyclicPlace) (member : Member) :
    cyclicCopy place member = place.place.copy 1 member := by
  rw [cyclicCopy, Place.copy, Int.one_mul]
  rfl

theorem start_add_div (positive : 0 < transfer.blockSize) (start : Int) (index : Nat) :
    (start + index * transfer.blockSize) / transfer.blockSize =
      start / transfer.blockSize + index :=
  Int.add_mul_ediv_right _ _ (Int.ne_of_gt positive)

/-- What the place of a block says. -/
structure CyclicFoundBlock (transfer : Transfer) (shape : CyclicShape) (chunk : Chunk)
    (index : Nat) : Prop where
  natural : 0 ≤ transfer.slot (chunk.start + index * transfer.blockSize)
  aligned : transfer.slot (chunk.start + index * transfer.blockSize) % transfer.blockSize = 0
  sequential : index * transfer.blockSize < chunk.stop - chunk.start →
    transfer.Sequential (chunk.start + index * transfer.blockSize)
      (transfer.slot (chunk.start + index * transfer.blockSize))
      (min (chunk.stop - chunk.start - index * transfer.blockSize) transfer.blockSize)
  resolved : ∃ block, canonicalPhysicalBlock transfer shape
    ((chunk.start / transfer.blockSize + index) / shape.degree)
    (transfer.slot (chunk.start + index * transfer.blockSize)) = some block ∧ 0 < block ∧
      block < shape.blocksPerRank

theorem cyclicPlace_eq_some (positive : 0 < transfer.blockSize) {chunk : Chunk}
    {sourceStart : Int} {index : Nat} {place : CyclicPlace}
    (found : cyclicPlace transfer shape chunk sourceStart index = some place) :
    CyclicFoundBlock transfer shape chunk index ∧ place.place =
      { shardIndex := (chunk.start / transfer.blockSize + index) % shape.degree
        source := canonicalBlock transfer shape (chunk.start + index * transfer.blockSize)
        target := sourceStart / transfer.blockSize + index
        memobjSlot := chunk.memobjSlot } := by
  rw [cyclicPlace] at found
  dsimp only at found
  split at found
  · cases found
  · next first =>
    split at found
    · cases found
    · next second =>
      obtain ⟨block, canonical, rest⟩ := Option.bind_eq_some_iff.mp found
      split at rest
      · cases rest
      · next range =>
        cases rest
        rw [start_add_div positive] at canonical
        rw [not_or, Int.not_lt, not_not] at first
        refine ⟨⟨first.1, first.2, fun inside => ?_, block, canonical, by omega, by omega⟩, ?_⟩
        · by_contra broken
          exact second ⟨inside, broken⟩
        · rw [CyclicPlace.place, canonicalBlock, start_add_div positive, canonical]
          rfl

/-- A block is found where its slots are in order and its group agrees on a block. -/
theorem cyclicPlace_isSome (positive : 0 < transfer.blockSize) {chunk : Chunk} {index : Nat}
    (found : CyclicFoundBlock transfer shape chunk index) (sourceStart : Int) :
    (cyclicPlace transfer shape chunk sourceStart index).isSome := by
  obtain ⟨natural, aligned, sequential, block, canonical, low, high⟩ := found
  rw [cyclicPlace]
  dsimp only
  rw [if_neg (by omega), if_neg (fun broken => broken.2 (sequential broken.1)),
    start_add_div positive, canonical, Option.bind_eq_bind, Option.bind_some, if_neg (by omega)]
  rfl

/-- What the places of a chunk say about it. -/
structure CyclicFound (transfer : Transfer) (shape : CyclicShape) (targetBlocks : Int)
    (item : Chunk × Int) : Prop where
  start : 0 ≤ item.1.start
  aligned : item.1.start % transfer.blockSize = 0
  nonempty : item.1.start < item.1.stop
  covered : item.1.stop ≤ transfer.numSlots
  source : 0 ≤ item.2 ∧ item.2 % transfer.blockSize = 0
  fits : item.2 / transfer.blockSize +
    (blockCount (item.1.stop - item.1.start) transfer.blockSize : Int) ≤ targetBlocks
  blocks : ∀ index < blockCount (item.1.stop - item.1.start) transfer.blockSize,
    CyclicFoundBlock transfer shape item.1 index

theorem CyclicFound.names {targetBlocks : Int} {item : Chunk × Int}
    (positive : 0 < transfer.blockSize) (found : CyclicFound transfer shape targetBlocks item) :
    NamesBlocks transfer item.1 := by
  refine namesBlocks_of_rows positive fun index below => ?_
  obtain ⟨natural, aligned, sequential, -⟩ := found.blocks index below
  exact ⟨natural, aligned, sequential ((lt_blockCount positive).mp below)⟩

/-- The blocks that some rows begin, counted without a bound from below. -/
theorem blockCount_cast (positive : 0 < transfer.blockSize) {rows : Int} (natural : 0 ≤ rows) :
    (blockCount rows transfer.blockSize : Int) =
      (rows + transfer.blockSize - 1) / transfer.blockSize :=
  Int.toNat_of_nonneg (Int.ediv_nonneg (by omega) (Int.le_of_lt positive))

theorem cyclicPlaces_eq_some (positive : 0 < transfer.blockSize) {targetBlocks : Int}
    {item : Chunk × Int} {places : List CyclicPlace}
    (found : cyclicPlaces transfer shape targetBlocks item = some places) :
    CyclicFound transfer shape targetBlocks item ∧
      places.map CyclicPlace.place = cyclicAsked transfer shape item := by
  obtain ⟨chunk, sourceStart⟩ := item
  rw [cyclicPlaces] at found
  dsimp only at found
  split at found
  · cases found
  · next range =>
    split at found
    · cases found
    · next source =>
      split at found
      · cases found
      · next fits =>
        split at found
        · cases found
        · have count := blockCount_cast positive
            (show 0 ≤ chunk.stop - chunk.start by omega)
          rw [← blockCount] at found
          have every := mapM_isSome.mp (Option.isSome_of_mem found)
          have start : 0 ≤ chunk.start ∧ chunk.start % transfer.blockSize = 0 := by omega
          have ends : chunk.start < chunk.stop ∧ chunk.stop ≤ transfer.numSlots := by omega
          have sources : 0 ≤ sourceStart ∧ sourceStart % transfer.blockSize = 0 := by omega
          refine ⟨⟨start.1, start.2, ends.1, ends.2, sources, ?_, fun index below => ?_⟩, ?_⟩
          · dsimp only
            rw [count]
            omega
          · obtain ⟨place, one⟩ := Option.isSome_iff_exists.mp
              (every index (List.mem_range.mpr below))
            exact (cyclicPlace_eq_some positive one).1
          · exact mapM_eq_map
              (fun index _ place one => (cyclicPlace_eq_some positive one).2) found

/-- Chunks that fit are planned. -/
theorem cyclicPlaces_isSome (positive : 0 < transfer.blockSize) {targetBlocks : Int}
    {item : Chunk × Int} (found : CyclicFound transfer shape targetBlocks item) :
    (cyclicPlaces transfer shape targetBlocks item).isSome := by
  obtain ⟨chunk, sourceStart⟩ := item
  obtain ⟨start, aligned, nonempty, covered, ⟨source, sourceAligned⟩, fits, blocks⟩ := found
  dsimp only at start aligned nonempty covered source sourceAligned fits blocks
  rw [blockCount_cast positive (by omega)] at fits
  have first := blocks 0 ((lt_blockCount positive).mpr (by omega))
  have natural := first.natural
  have firstAligned := first.aligned
  rw [Nat.cast_zero, Int.zero_mul, Int.add_zero] at natural firstAligned
  rw [cyclicPlaces]
  dsimp only
  rw [if_neg (by omega), if_neg (by omega), if_neg (by omega), if_neg (by omega), ← blockCount]
  refine mapM_isSome.mpr fun index below => ?_
  exact cyclicPlace_isSome positive (blocks index (List.mem_range.mp below)) sourceStart

/-! ## All chunks -/

/-- What the third planner checks before it looks at the slots. -/
structure CyclicChecked (transfer : Transfer) (memberWidths : List Int) (shape : CyclicShape) :
    Prop where
  two : memberWidths.length = 2 ∧ transfer.memberAllocBytes.length = 2 ∧
    transfer.regionBases.length = 2
  given : transfer.ChunksGiven
  sources : shape.sourceStarts ≠ [] → shape.sourceStarts.length = transfer.memobjSlots.length
  blockSize : 0 < transfer.blockSize
  blocksPerRank : 0 < shape.blocksPerRank
  degree : 0 < shape.degree
  sizes : ∀ member ∈ cyclicMembers transfer memberWidths, 0 < member.stride ∧
    member.allocBytes = transfer.targetBlocks memberWidths * member.stride
  blocks : 0 < transfer.targetBlocks memberWidths

variable {memberRuns : List (List RegionRawByteRun)}

theorem cyclicLoop_eq (targetBlocks : Int) :
    cyclicChunk transfer memberWidths shape targetBlocks = fun memberRuns chunk =>
      (cyclicPlaces transfer shape targetBlocks chunk).bind fun places =>
        places.foldlM (appendPlace (cyclicMembers transfer memberWidths)
          (fun place member => (cyclicCopy place member).FitsExplicit) cyclicCopy) memberRuns := by
  funext memberRuns chunk
  exact cyclicChunk_eq transfer memberWidths shape targetBlocks memberRuns chunk

theorem buildDsaBlockCyclic_eq_some
    (built : buildDsaBlockCyclicRegionRawMeshRuns transfer memberWidths shape = some memberRuns) :
    CyclicChecked transfer memberWidths shape ∧
      (∀ item ∈ cyclicChunks transfer shape,
        CyclicFound transfer shape (transfer.targetBlocks memberWidths) item) ∧
      (∀ member ∈ cyclicMembers transfer memberWidths, ∀ place ∈ transfer.cyclicAsked shape,
        (place.copy 1 member).Fits) ∧
      memberRuns = runsOf 1 (cyclicMembers transfer memberWidths)
        (transfer.cyclicAsked shape) := by
  rw [buildDsaBlockCyclicRegionRawMeshRuns] at built
  dsimp only at built
  rw [← Transfer.targetBlocks] at built
  split at built
  · cases built
  · next two =>
    split at built
    · cases built
    · next given =>
      split at built
      · cases built
      · next parameters =>
        split at built
        · cases built
        · next sizes =>
          split at built
          · cases built
          · next blocks =>
            split at built
            · cases built
            · next equal =>
              simp only [not_or, not_not, Int.not_le, not_and] at two given parameters
              simp only [not_exists, not_and, not_or, Int.not_le, not_not] at sizes equal
              have positive := parameters.1
              have checked : CyclicChecked transfer memberWidths shape := by
                refine ⟨two, given.1, given.2, positive, parameters.2.1, parameters.2.2,
                  fun member listed => ?_, by omega⟩
                obtain ⟨stride, -, divides⟩ := sizes member listed
                have quotient := equal _ (List.mem_map_of_mem listed)
                refine ⟨stride, ?_⟩
                rw [← quotient, Int.ediv_mul_cancel (Int.dvd_of_emod_eq_zero divides)]
              rw [cyclicLoop_eq] at built
              obtain ⟨found, fits, rfl⟩ := (plan_eq_some _ _ _ _).mp built
              have asked : (allPlaces (cyclicPlaces transfer shape
                  (transfer.targetBlocks memberWidths)) (cyclicChunks transfer shape)).map
                    CyclicPlace.place = transfer.cyclicAsked shape := by
                rw [allPlaces, List.map_flatMap, Transfer.cyclicAsked]
                refine List.flatMap_congr fun item listed => ?_
                obtain ⟨places, there⟩ := Option.isSome_iff_exists.mp (found item listed)
                rw [there, Option.getD_some]
                exact (cyclicPlaces_eq_some positive there).2
              refine ⟨checked, fun item listed => ?_, fun member listed place inside => ?_, ?_⟩
              · obtain ⟨places, there⟩ := Option.isSome_iff_exists.mp (found item listed)
                exact (cyclicPlaces_eq_some positive there).1
              · rw [← asked] at inside
                obtain ⟨block, planned, rfl⟩ := List.mem_map.mp inside
                rw [← cyclicCopy_eq]
                exact (fits block planned member listed).1
              · rw [runsOf, ← asked]
                simp only [List.map_map, Function.comp_def, cyclicCopy_eq]

theorem cyclicChunks_chunk (checked : CyclicChecked transfer memberWidths shape) :
    (cyclicChunks transfer shape).map Prod.fst = transfer.chunks := by
  rw [cyclicChunks]
  split
  · rw [List.map_map]
    exact List.map_id _
  · next some_ =>
    have size := congrArg List.length (chunks_memobjSlot checked.given)
    rw [List.length_map] at size
    exact List.map_fst_zip (by rw [size, checked.sources some_])

/-- The third planner is exact. -/
theorem cyclic_exact {count : Int}
    (built : buildDsaBlockCyclicRegionRawMeshRuns transfer memberWidths shape = some memberRuns)
    (distinct : transfer.memobjSlots.Nodup)
    (slots : ∀ slot ∈ transfer.memobjSlots, 0 ≤ slot ∧ slot < count)
    (regions : Regions count (cyclicMembers transfer memberWidths)) :
    (∀ chunk ∈ transfer.chunks, NamesBlocks transfer chunk) ∧
      Exact 1 (cyclicMembers transfer memberWidths) (transfer.cyclicAsked shape)
        (transfer.cyclicAsked shape) memberRuns := by
  obtain ⟨checked, found, fits, rfl⟩ := buildDsaBlockCyclic_eq_some built
  have own : ∀ item ∈ cyclicChunks transfer shape, ∀ place ∈ cyclicAsked transfer shape item,
      place.memobjSlot = item.1.memobjSlot := by
    intro item _ place asked
    obtain ⟨_, _, rfl⟩ := List.mem_map.mp asked
    rfl
  have memobjSlots : (cyclicChunks transfer shape).map (fun item => item.1.memobjSlot) =
      transfer.memobjSlots := by
    rw [← chunks_memobjSlot checked.given, ← cyclicChunks_chunk checked, List.map_map]
    rfl
  refine ⟨fun chunk listed => ?_, (exact_iff regions fits (fun member listed => ?_) ?_
    (fun member listed place asked => ?_) fun place asked => ?_).mpr fun _ _ => rfl⟩
  · rw [← cyclicChunks_chunk checked] at listed
    obtain ⟨item, inside, rfl⟩ := List.mem_map.mp listed
    exact (found item inside).names checked.blockSize
  · obtain ⟨stride, size⟩ := checked.sizes member listed
    refine ⟨stride, ?_⟩
    rw [size]
    exact Int.mul_nonneg (Int.le_of_lt checked.blocks) (Int.le_of_lt stride)
  · rw [← memobjSlots] at distinct
    refine chunks_apart distinct own fun item _ => ?_
    rw [cyclicAsked, List.pairwise_map]
    refine List.pairwise_lt_range.imp fun {index other} before => .inr (.inl ?_)
    dsimp only
    omega
  · obtain ⟨item, inside, asked⟩ := List.mem_flatMap.mp asked
    obtain ⟨index, below, rfl⟩ := List.mem_map.mp asked
    obtain ⟨stride, size⟩ := checked.sizes member listed
    obtain ⟨-, -, -, -, ⟨source, -⟩, fits, -⟩ := found item inside
    rw [List.mem_range] at below
    have natural := Int.ediv_nonneg source (Int.le_of_lt checked.blockSize)
    refine ⟨by dsimp only; omega, ?_⟩
    rw [size]
    exact Int.mul_le_mul_of_nonneg_right (by dsimp only; omega) (Int.le_of_lt stride)
  · obtain ⟨item, inside, asked⟩ := List.mem_flatMap.mp asked
    refine slots _ ?_
    rw [own item inside place asked, ← memobjSlots]
    exact List.mem_map_of_mem inside

end Cyclic

end KvCache.Lmcache.RawPlanners
