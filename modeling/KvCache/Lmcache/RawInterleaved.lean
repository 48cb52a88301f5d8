import KvCache.Lmcache.RawRegion

/-!
# Blocks cut up over ranks

The second planner takes up the slots of a chunk one by one: a slot at the beginning of a block
adds the block, any other slot has to stay in the block before it. So it finds the blocks that
the chunk names, and it copies each of them from all ranks of its group.
-/

namespace KvCache.Lmcache.RawPlanners

open Guarded

section Collecting

variable {transfer : Transfer} {chunk : Chunk}

/-- The first blocks of a chunk. -/
def firstBlocks (transfer : Transfer) (chunk : Chunk) (count : Nat) : List Int :=
  (List.range count).map fun index : Nat =>
    transfer.blockAt (chunk.start + index * transfer.blockSize)

theorem blockCount_zero (blockSize : Int) (positive : 0 < blockSize) :
    blockCount 0 blockSize = 0 := by
  rw [blockCount_of_dvd positive (Int.dvd_zero _), Int.zero_ediv]
  rfl

/-- A position at the beginning of a block is the first one of a further block. -/
theorem blockCount_begin {blockSize : Int} (positive : 0 < blockSize) {position : Nat}
    (begun : (position : Int) % blockSize = 0) :
    blockCount (position + 1 : Nat) blockSize = blockCount position blockSize + 1 ∧
      (blockCount position blockSize : Int) * blockSize = position := by
  have whole := Int.dvd_of_emod_eq_zero begun
  obtain ⟨count, same⟩ := whole
  have natural : 0 ≤ count := by
    by_contra negative
    have product := Int.mul_neg_of_pos_of_neg positive (Int.not_le.mp negative)
    omega
  have here : blockCount position blockSize = count.toNat := by
    rw [blockCount_of_dvd positive ⟨count, same⟩, same,
      Int.mul_ediv_cancel_left count (Int.ne_of_gt positive)]
  have next : ((position + 1 : Nat) + blockSize - 1 : Int) / blockSize = count + 1 := by
    have sum : ((position + 1 : Nat) + blockSize - 1 : Int) = blockSize * (count + 1) := by
      rw [Int.mul_add, ← same]
      omega
    rw [sum, Int.mul_ediv_cancel_left _ (Int.ne_of_gt positive)]
  rw [here]
  refine ⟨?_, ?_⟩
  · rw [blockCount, next]
    omega
  · rw [Int.toNat_of_nonneg natural, Int.mul_comm, same]

/-- A position within a block does not begin another one. -/
theorem blockCount_within {blockSize : Int} (positive : 0 < blockSize) {position : Nat}
    (within : (position : Int) % blockSize ≠ 0) :
    blockCount (position + 1 : Nat) blockSize = blockCount position blockSize ∧
      blockCount position blockSize = ((position : Int) / blockSize).toNat + 1 := by
  have split := Int.emod_add_mul_ediv position blockSize
  have inner := Int.emod_nonneg (position : Int) (Int.ne_of_gt positive)
  have short := Int.emod_lt_of_pos (position : Int) positive
  have quotient : 0 ≤ (position : Int) / blockSize :=
    Int.ediv_nonneg (Int.natCast_nonneg position) (Int.le_of_lt positive)
  have count (extra : Int) (low : 0 ≤ extra) (high : extra ≤ 1) :
      ((position : Int) + extra + blockSize - 1) / blockSize = (position : Int) / blockSize + 1 := by
    have sum : (position : Int) + extra + blockSize - 1 =
        (position % blockSize + extra - 1) + blockSize * ((position : Int) / blockSize + 1) := by
      rw [Int.mul_add]
      omega
    rw [sum, Int.add_mul_ediv_left _ _ (Int.ne_of_gt positive),
      Int.ediv_eq_zero_of_lt (by omega) (by omega), Int.zero_add]
  have here := count 0 (Int.le_refl 0) (by omega)
  have next := count 1 (by omega) (Int.le_refl 1)
  rw [Int.add_zero] at here
  have cast : ((position + 1 : Nat) : Int) = (position : Int) + 1 := by omega
  rw [blockCount, blockCount, cast, next, here]
  exact ⟨rfl, by omega⟩

/-- What the slots of the first positions say. -/
def Collected (transfer : Transfer) (chunk : Chunk) (count : Nat) : Prop :=
  ∀ position : Nat, position < count → 0 ≤ transfer.slot (chunk.start + position) ∧
    transfer.blockAt (chunk.start + position) = transfer.blockAt
      (chunk.start + (position : Int) / transfer.blockSize * transfer.blockSize)

/-- The loop collects the blocks of the positions it has seen. -/
theorem collectBlocks_eq_some (positive : 0 < transfer.blockSize) {count : Nat}
    {blocks : List Int}
    (collected : (List.range count).foldlM (collectBlock transfer chunk) [] = some blocks) :
    blocks = firstBlocks transfer chunk (blockCount count transfer.blockSize) ∧
      Collected transfer chunk count := by
  induction count generalizing blocks with
  | zero =>
    cases collected
    rw [Nat.cast_zero, blockCount_zero _ positive]
    exact ⟨rfl, fun position below => absurd below (Nat.not_lt_zero position)⟩
  | succ count inductionHypothesis =>
    rw [List.range_succ, List.foldlM_append] at collected
    obtain ⟨earlier, before, last⟩ := Option.bind_eq_some_iff.mp collected
    obtain ⟨rfl, seen⟩ := inductionHypothesis before
    have last : collectBlock transfer chunk
        (firstBlocks transfer chunk (blockCount count transfer.blockSize)) count = some blocks := by
      rw [List.foldlM_cons] at last
      obtain ⟨after, one, same⟩ := Option.bind_eq_some_iff.mp last
      cases same
      exact one
    have further (natural : 0 ≤ transfer.slot (chunk.start + count))
        (block : transfer.blockAt (chunk.start + count) = transfer.blockAt
          (chunk.start + (count : Int) / transfer.blockSize * transfer.blockSize)) :
        Collected transfer chunk (count + 1) := by
      intro position below
      by_cases old : position < count
      · exact seen position old
      · have same : position = count := by omega
        subst same
        exact ⟨natural, block⟩
    rw [collectBlock] at last
    dsimp only at last
    rw [← Transfer.blockAt] at last
    split at last
    · cases last
    · next natural =>
      rw [Int.not_lt] at natural
      split at last
      · cases last
      · next inner =>
        rw [not_not] at inner
        split at last
        · next begun =>
          cases last
          rw [inner] at begun
          obtain ⟨counted, place⟩ := blockCount_begin positive begun
          have position : (count : Int) / transfer.blockSize * transfer.blockSize = count :=
            Int.ediv_mul_cancel (Int.dvd_of_emod_eq_zero begun)
          refine ⟨?_, further natural (by rw [position])⟩
          rw [counted, firstBlocks, firstBlocks, List.range_succ, List.map_append, List.map_singleton,
            place]
        · next within =>
          rw [inner] at within
          obtain ⟨counted, index⟩ := blockCount_within positive within
          split at last
          · cases last
          · next same =>
            cases last
            rw [not_not, firstBlocks, index, List.range_succ, List.map_append, List.map_singleton,
              List.getLast?_concat, Option.some.injEq, Int.toNat_of_nonneg
                (Int.ediv_nonneg (Int.natCast_nonneg count) (Int.le_of_lt positive))] at same
            exact ⟨by rw [counted], further natural same.symm⟩

/-- Collected positions name the blocks of the chunk. -/
theorem Collected.names (collected : Collected transfer chunk (chunk.stop - chunk.start).toNat) :
    NamesBlocks transfer chunk := by
  intro position from_ below
  have there := collected (position - chunk.start).toNat (by omega)
  rw [Int.toNat_of_nonneg (by omega)] at there
  have place : chunk.start + (position - chunk.start) = position := by omega
  rw [place] at there
  exact there

end Collecting

section Interleaved

variable (transfer : Transfer) (shape : TpShape)

/-- The place of a rank's part of a block. -/
def TpShape.partPlace (chunk : Chunk) (block index rank : Int) : Place where
  shardIndex := block / shape.blocksPerDp * shape.tpSize + rank
  source := block % shape.blocksPerDp
  target := index * shape.tpSize + rank
  memobjSlot := chunk.memobjSlot

/-- The parts of the blocks that a chunk asks for. -/
def tpAsked (chunk : Chunk) : List Place :=
  (List.range (blockCount (chunk.stop - chunk.start) transfer.blockSize)).flatMap
    fun index : Nat => (List.range shape.tpSize.toNat).map fun rank : Nat =>
      shape.partPlace chunk (transfer.blockAt (chunk.start + index * transfer.blockSize)) index rank

/-- The parts of blocks that a transfer asks for. -/
def Transfer.tpAsked (transfer : Transfer) (shape : TpShape) : List Place :=
  transfer.chunks.flatMap (RawPlanners.tpAsked transfer shape)

def TpPlace.place (place : TpPlace) : Place :=
  ⟨place.shardIndex, place.localBlock, place.chunkBlock * shape.tpSize + place.tpRank,
    place.memobjSlot⟩

variable {transfer shape}

theorem tpCopy_eq (valid : shape.Valid) {member : Member}
    (part : member.stride = shape.shardBlockBytes) (place : TpPlace) :
    tpCopy shape place member = (place.place shape).copy 1 member := by
  obtain ⟨-, -, -, -, -, block⟩ := valid
  rw [tpCopy, Place.copy, TpPlace.place, block, part]
  dsimp only
  congr 1
  · ring
  · ring

theorem tpPlace_eq_some {chunk : Chunk} {block chunkBlock tpRank : Int} {place : TpPlace}
    (found : tpPlace shape chunk block chunkBlock tpRank = some place) :
    place.place shape = shape.partPlace chunk block chunkBlock tpRank := by
  rw [tpPlace] at found
  dsimp only at found
  split at found
  · cases found
  · split at found
    · cases found
    · cases found
      rw [TpPlace.place, TpShape.partPlace, Int.emod_def, Int.mul_comm shape.blocksPerDp]

/-- What the places of a chunk say about it. -/
structure TpFound (transfer : Transfer) (shape : TpShape) (chunk : Chunk) : Prop where
  start : 0 ≤ chunk.start
  ordered : chunk.start ≤ chunk.stop
  covered : chunk.stop ≤ transfer.numSlots
  fits : ∀ member ∈ tpMembers transfer shape,
    (blockCount (chunk.stop - chunk.start) transfer.blockSize : Int) ≤
      member.allocBytes / shape.blockBytes
  names : NamesBlocks transfer chunk

theorem map_zipIdx_range {α : Type} (each : Nat → Int) (use : Int → Nat → α) (count : Nat) :
    ((List.range count).map each).zipIdx.map (fun item => use item.1 item.2) =
      (List.range count).map fun index => use (each index) index := by
  refine List.ext_getElem (by simp) fun index _ _ => ?_
  simp

theorem tpPlaces_eq_some (positive : 0 < transfer.blockSize)
    (sizes : ∀ member ∈ tpMembers transfer shape, 0 ≤ member.allocBytes / shape.blockBytes)
    {chunk : Chunk} {places : List TpPlace}
    (found : tpPlaces transfer shape chunk = some places) :
    TpFound transfer shape chunk ∧
      places.map (TpPlace.place shape) = tpAsked transfer shape chunk := by
  rw [tpPlaces] at found
  split at found
  · cases found
  · next range =>
    split at found
    · next empty =>
      cases found
      have none_ : blockCount (chunk.stop - chunk.start) transfer.blockSize = 0 := by
        rw [empty, blockCount_zero _ positive]
      refine ⟨⟨by omega, by omega, by omega, fun member listed => ?_, fun position _ _ => ?_⟩, ?_⟩
      · rw [none_]
        exact sizes member listed
      · omega
      · rw [tpAsked, none_]
        rfl
    · split at found
      · cases found
      · obtain ⟨blocks, collected, rest⟩ := Option.bind_eq_some_iff.mp found
        have natural : (((chunk.stop - chunk.start).toNat : Nat) : Int) =
            chunk.stop - chunk.start := by omega
        obtain ⟨rfl, seen⟩ := collectBlocks_eq_some positive collected
        rw [natural] at rest
        split at rest
        · cases rest
        · next limited =>
          obtain ⟨parts, all, rfl⟩ := Option.map_eq_some_iff.mp rest
          refine ⟨⟨by omega, by omega, by omega, fun member listed => ?_, seen.names⟩, ?_⟩
          · by_contra more
            refine limited ⟨member, listed, ?_⟩
            rw [firstBlocks, List.length_map, List.length_range]
            omega
          · have each : ∀ block ∈ (firstBlocks transfer chunk
                (blockCount (chunk.stop - chunk.start) transfer.blockSize)).zipIdx, ∀ ranks,
                ((List.range shape.tpSize.toNat).mapM fun tpRank : Nat =>
                  tpPlace shape chunk block.1 block.2 tpRank) = some ranks →
                ranks.map (TpPlace.place shape) = (List.range shape.tpSize.toNat).map
                  fun rank : Nat => shape.partPlace chunk block.1 block.2 rank :=
              fun block _ ranks one =>
                mapM_eq_map (fun rank _ place there => tpPlace_eq_some there) one
            have mapped := mapM_eq_map each all
            rw [firstBlocks, map_zipIdx_range
              (fun index : Nat => transfer.blockAt (chunk.start + index * transfer.blockSize))
              (fun block index => (List.range shape.tpSize.toNat).map
                fun rank : Nat => shape.partPlace chunk block index rank)] at mapped
            rw [List.map_flatten, mapped, tpAsked, List.flatMap]

/-! ## All chunks -/

/-- What the second planner checks before it looks at the slots. -/
structure TpChecked (transfer : Transfer) (shape : TpShape) : Prop where
  given : transfer.ChunksGiven
  blockSize : 0 < transfer.blockSize
  valid : shape.Valid
  sizes : ∀ member ∈ tpMembers transfer shape, member.stride = shape.shardBlockBytes ∧
    0 < member.allocBytes ∧ shape.blockBytes ∣ member.allocBytes

variable {memberRuns : List (List RegionRawByteRun)}

theorem tpMembers_stride {member : Member} (listed : member ∈ tpMembers transfer shape) :
    member.stride = shape.shardBlockBytes := by
  rw [tpMembers, Transfer.members] at listed
  obtain ⟨item, inside, rfl⟩ := List.mem_map.mp listed
  obtain ⟨bytes, -, same⟩ := List.mem_map.mp (List.of_mem_zip inside).1
  exact same.symm

theorem buildTpInterleaved_eq_some
    (built : buildTpInterleavedRegionRawMeshRuns transfer shape = some memberRuns) :
    TpChecked transfer shape ∧
      (∀ chunk ∈ transfer.chunks, TpFound transfer shape chunk) ∧
      (∀ member ∈ tpMembers transfer shape, ∀ place ∈ transfer.tpAsked shape,
        (place.copy 1 member).Fits) ∧
      memberRuns = runsOf 1 (tpMembers transfer shape) (transfer.tpAsked shape) := by
  rw [buildTpInterleavedRegionRawMeshRuns] at built
  split at built
  · cases built
  · next given =>
    split at built
    · cases built
    · next parameters =>
      split at built
      · cases built
      · next sizes =>
        simp only [not_or, not_not, Int.not_le] at given parameters
        simp only [not_exists, not_and, not_or, Int.not_le, not_not] at sizes
        have valid := parameters.2
        have checked : TpChecked transfer shape :=
          ⟨given.1, parameters.1, valid, fun member listed => ⟨tpMembers_stride listed,
            (sizes member listed).1, Int.dvd_of_emod_eq_zero (sizes member listed).2⟩⟩
        have counts : ∀ member ∈ tpMembers transfer shape,
            0 ≤ member.allocBytes / shape.blockBytes := fun member listed =>
          Int.ediv_nonneg (Int.le_of_lt (sizes member listed).1) (Int.le_of_lt valid.2.1)
        have loop : tpChunk transfer shape = fun memberRuns chunk =>
            (tpPlaces transfer shape chunk).bind fun places =>
              places.foldlM (appendPlace (tpMembers transfer shape)
                (fun place member => (tpCopy shape place member).FitsExplicit) (tpCopy shape))
                memberRuns := by
          funext memberRuns chunk
          exact tpChunk_eq transfer shape memberRuns chunk
        rw [loop] at built
        obtain ⟨found, fits, rfl⟩ := (plan_eq_some _ _ _ _).mp built
        have asked : (allPlaces (tpPlaces transfer shape) transfer.chunks).map
            (TpPlace.place shape) = transfer.tpAsked shape := by
          rw [allPlaces, List.map_flatMap, Transfer.tpAsked]
          refine List.flatMap_congr fun chunk listed => ?_
          obtain ⟨places, there⟩ := Option.isSome_iff_exists.mp (found chunk listed)
          rw [there, Option.getD_some]
          exact (tpPlaces_eq_some parameters.1 counts there).2
        refine ⟨checked, fun chunk listed => ?_, fun member listed place inside => ?_, ?_⟩
        · obtain ⟨places, there⟩ := Option.isSome_iff_exists.mp (found chunk listed)
          exact (tpPlaces_eq_some parameters.1 counts there).1
        · rw [← asked] at inside
          obtain ⟨part, planned, rfl⟩ := List.mem_map.mp inside
          rw [← tpCopy_eq valid (tpMembers_stride listed)]
          exact (fits part planned member listed).1
        · rw [runsOf, ← asked]
          refine List.map_congr_left fun member listed => ?_
          rw [List.map_map]
          congr 1
          exact List.map_congr_left fun part _ => tpCopy_eq valid (tpMembers_stride listed) part

theorem mem_tpAsked {chunk : Chunk} {place : Place} :
    place ∈ tpAsked transfer shape chunk ↔
      ∃ index < blockCount (chunk.stop - chunk.start) transfer.blockSize,
        ∃ rank < shape.tpSize.toNat, shape.partPlace chunk
          (transfer.blockAt (chunk.start + index * transfer.blockSize)) index rank = place := by
  simp only [tpAsked, List.mem_flatMap, List.mem_map, List.mem_range]

theorem tpAsked_within (checked : TpChecked transfer shape) {chunk : Chunk}
    (found : TpFound transfer shape chunk) {member : Member}
    (listed : member ∈ tpMembers transfer shape) {place : Place}
    (asked : place ∈ tpAsked transfer shape chunk) : place.Within 1 member := by
  obtain ⟨index, below, rank, short, rfl⟩ := mem_tpAsked.mp asked
  obtain ⟨stride, -, blocks, size⟩ := checked.sizes member listed
  obtain ⟨part, whole, -, -, ranks, block⟩ := checked.valid
  have fits := found.fits member listed
  rw [size, Int.mul_ediv_cancel_left blocks (Int.ne_of_gt whole)] at fits
  refine ⟨Int.add_nonneg (Int.mul_nonneg (Int.natCast_nonneg index) (Int.le_of_lt ranks))
    (Int.natCast_nonneg rank), ?_⟩
  have last : (index : Int) * shape.tpSize + rank + 1 ≤ blocks * shape.tpSize := by
    have order := Int.mul_le_mul_of_nonneg_right (show (index : Int) + 1 ≤ blocks by omega)
      (Int.le_of_lt ranks)
    rw [Int.add_mul, Int.one_mul] at order
    omega
  have bytes := Int.mul_le_mul_of_nonneg_right last (Int.le_of_lt part)
  rw [size, stride, block]
  calc ((index : Int) * shape.tpSize + rank + 1) * shape.shardBlockBytes
      ≤ blocks * shape.tpSize * shape.shardBlockBytes := bytes
    _ = shape.shardBlockBytes * shape.tpSize * blocks := by ring

theorem tpAsked_apart (ranks : 0 < shape.tpSize) (chunk : Chunk) :
    (tpAsked transfer shape chunk).Pairwise (Place.Apart 1) := by
  rw [tpAsked, List.pairwise_flatMap]
  constructor
  · intro index _
    rw [List.pairwise_map]
    refine List.pairwise_lt_range.imp fun {rank other} before => .inr (.inl ?_)
    dsimp only [TpShape.partPlace]
    omega
  · refine List.pairwise_lt_range.imp fun {index other} before place inOne place' inOther => ?_
    obtain ⟨rank, short, rfl⟩ := List.mem_map.mp inOne
    obtain ⟨rank', -, rfl⟩ := List.mem_map.mp inOther
    have order := Int.mul_le_mul_of_nonneg_right (show (index : Int) + 1 ≤ other by omega)
      (Int.le_of_lt ranks)
    rw [Int.add_mul, Int.one_mul] at order
    rw [List.mem_range] at short
    refine .inr (.inl ?_)
    dsimp only [TpShape.partPlace]
    omega

/-- The second planner is exact. -/
theorem tp_exact {count : Int}
    (built : buildTpInterleavedRegionRawMeshRuns transfer shape = some memberRuns)
    (distinct : transfer.memobjSlots.Nodup)
    (slots : ∀ slot ∈ transfer.memobjSlots, 0 ≤ slot ∧ slot < count)
    (regions : Regions count (tpMembers transfer shape)) :
    (∀ chunk ∈ transfer.chunks, NamesBlocks transfer chunk) ∧
      Exact 1 (tpMembers transfer shape) (transfer.tpAsked shape) (transfer.tpAsked shape)
        memberRuns := by
  obtain ⟨checked, found, fits, rfl⟩ := buildTpInterleaved_eq_some built
  refine ⟨fun chunk listed => (found chunk listed).names, ?_⟩
  have own : ∀ chunk ∈ transfer.chunks, ∀ place ∈ tpAsked transfer shape chunk,
      place.memobjSlot = chunk.memobjSlot := by
    intro chunk _ place asked
    obtain ⟨_, _, _, _, rfl⟩ := mem_tpAsked.mp asked
    rfl
  refine (exact_iff regions fits (fun member listed => ?_) ?_
    (fun member listed place asked => ?_) fun place asked => ?_).mpr fun _ _ => rfl
  · obtain ⟨stride, size, -⟩ := checked.sizes member listed
    exact ⟨stride ▸ checked.valid.1, Int.le_of_lt size⟩
  · rw [← chunks_memobjSlot checked.given] at distinct
    exact @chunks_apart _ _ _ id _ distinct own fun chunk _ =>
      tpAsked_apart checked.valid.2.2.2.2.1 chunk
  · obtain ⟨chunk, inside, asked⟩ := List.mem_flatMap.mp asked
    exact tpAsked_within checked (found chunk inside) listed asked
  · obtain ⟨chunk, inside, asked⟩ := List.mem_flatMap.mp asked
    refine slots _ ?_
    rw [own chunk inside place asked, ← chunks_memobjSlot checked.given]
    exact List.mem_map_of_mem inside

end Interleaved

end KvCache.Lmcache.RawPlanners
