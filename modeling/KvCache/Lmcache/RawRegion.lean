import KvCache.Lmcache.RawAsked

/-!
# Rows of one rank

The first planner copies the rows of whole memory objects: the rows of the blocks that the chunk
names and, where the chunk is shorter than the memory object, the rows that follow its first slot.
Those are rows of blocks that the chunk does not name.
-/

namespace KvCache.Lmcache.RawPlanners

open Guarded

section Region

variable (transfer : Transfer) (mesh : RegionMesh)

/-- The place of the rows of a block. -/
def RegionMesh.rowPlace (blockSize : Int) (chunk : Chunk) (block row : Int) : Place where
  shardIndex := meshShardIndex (block / mesh.blocksPerDp) mesh.rank mesh.dpSize mesh.tpSize
    mesh.groupAxis mesh.shardAxis
  source := block % mesh.blocksPerDp * blockSize
  target := row
  memobjSlot := chunk.memobjSlot

/-- The rows that a chunk asks for. -/
def regionAsked (chunk : Chunk) : List Place :=
  (List.range (blockCount (chunk.stop - chunk.start) transfer.blockSize)).map fun index : Nat =>
    mesh.rowPlace transfer.blockSize chunk
      (transfer.blockAt (chunk.start + index * transfer.blockSize)) (index * transfer.blockSize)

/-- The slot of a row: behind the last token the slots go on from the first one. -/
def rowSlot (chunk : Chunk) (row : Int) : Int :=
  if row < chunk.stop - chunk.start then transfer.slot (chunk.start + row)
  else transfer.slot chunk.start + row

/-- The rows that are copied for a chunk. -/
def regionCopied (targetRows : Int) (chunk : Chunk) : List Place :=
  (List.range (blockCount targetRows transfer.blockSize)).map fun index : Nat =>
    mesh.rowPlace transfer.blockSize chunk
      (rowSlot transfer chunk (index * transfer.blockSize) / transfer.blockSize)
      (index * transfer.blockSize)

def RowPlace.place (place : RowPlace) : Place :=
  ⟨place.shardIndex, place.srcRow, place.dstRow, place.memobjSlot⟩

variable {transfer mesh}

theorem rowCopy_eq (place : RowPlace) (member : Member) :
    rowCopy transfer place member = place.place.copy transfer.blockSize member := rfl

/-- What the place of a row says about the slots of its block. -/
structure RowFound (transfer : Transfer) (chunk : Chunk) (row : Int) : Prop where
  natural : 0 ≤ rowSlot transfer chunk row
  aligned : rowSlot transfer chunk row % transfer.blockSize = 0
  sequential : row < chunk.stop - chunk.start →
    transfer.Sequential (chunk.start + row) (rowSlot transfer chunk row)
      (min (chunk.stop - chunk.start - row) transfer.blockSize)

theorem regionPlace_eq_some {chunk : Chunk} {row : Int} {place : RowPlace}
    (found : regionPlace transfer mesh chunk row = some place) :
    RowFound transfer chunk row ∧
      place.place = mesh.rowPlace transfer.blockSize chunk
        (rowSlot transfer chunk row / transfer.blockSize) row := by
  rw [regionPlace] at found
  dsimp only at found
  rw [← rowSlot] at found
  split at found
  · cases found
  · next first =>
    split at found
    · cases found
    · next second =>
      split at found
      · cases found
      · split at found
        · cases found
        · split at found
          · cases found
          · cases found
            rw [not_or, Int.not_lt, not_not] at first
            refine ⟨⟨first.1, first.2, fun inside => ?_⟩, ?_⟩
            · by_contra broken
              exact second ⟨inside, broken⟩
            · simp only [RowPlace.place, RegionMesh.rowPlace]
              rw [Int.emod_def, Int.mul_comm mesh.blocksPerDp]

/-- The first slots of blocks name the blocks of all positions. -/
theorem namesBlocks_of_rows (positive : 0 < transfer.blockSize) {chunk : Chunk}
    (rows : ∀ index : Nat, index < blockCount (chunk.stop - chunk.start) transfer.blockSize →
      0 ≤ transfer.slot (chunk.start + index * transfer.blockSize) ∧
      transfer.slot (chunk.start + index * transfer.blockSize) % transfer.blockSize = 0 ∧
      transfer.Sequential (chunk.start + index * transfer.blockSize)
        (transfer.slot (chunk.start + index * transfer.blockSize))
        (min (chunk.stop - chunk.start - index * transfer.blockSize) transfer.blockSize)) :
    NamesBlocks transfer chunk := by
  intro position from_ below
  have natural : 0 ≤ (position - chunk.start) / transfer.blockSize :=
    Int.ediv_nonneg (by omega) (Int.le_of_lt positive)
  obtain ⟨index, same⟩ := Int.eq_ofNat_of_zero_le natural
  have split := Int.emod_add_mul_ediv (position - chunk.start) transfer.blockSize
  have inner := Int.emod_nonneg (position - chunk.start) (Int.ne_of_gt positive)
  have short := Int.emod_lt_of_pos (position - chunk.start) positive
  rw [same, Int.mul_comm] at split
  have begun : (index : Int) * transfer.blockSize < chunk.stop - chunk.start := by omega
  obtain ⟨real, aligned, sequential⟩ := rows index ((lt_blockCount positive).mpr begun)
  have there := sequential ((position - chunk.start) % transfer.blockSize).toNat (by omega)
  rw [Int.toNat_of_nonneg inner] at there
  have place : chunk.start + index * transfer.blockSize +
      (position - chunk.start) % transfer.blockSize = position := by omega
  rw [place] at there
  obtain ⟨block, whole⟩ := Int.dvd_of_emod_eq_zero aligned
  rw [Transfer.blockAt, Transfer.blockAt, same, there]
  refine ⟨by omega, ?_⟩
  rw [whole, Int.mul_ediv_cancel_left _ (Int.ne_of_gt positive), Int.add_comm,
    Int.add_mul_ediv_left _ _ (Int.ne_of_gt positive), Int.ediv_eq_zero_of_lt inner short,
    Int.zero_add]

/-- What the places of a chunk say about it. -/
structure RegionFound (transfer : Transfer) (targetRows : Int) (chunk : Chunk) : Prop where
  start : 0 ≤ chunk.start
  nonempty : chunk.start < chunk.stop
  covered : chunk.stop ≤ transfer.numSlots
  fits : chunk.stop - chunk.start ≤ targetRows
  names : NamesBlocks transfer chunk

theorem regionPlaces_eq_some (positive : 0 < transfer.blockSize) {targetRows : Int}
    {chunk : Chunk} {places : List RowPlace}
    (found : regionPlaces transfer mesh targetRows chunk = some places) :
    RegionFound transfer targetRows chunk ∧
      places.map RowPlace.place = regionCopied transfer mesh targetRows chunk := by
  rw [regionPlaces] at found
  split at found
  · cases found
  · next range =>
    split at found
    · cases found
    · rw [steps_eq] at found
      have every := mapM_isSome.mp (Option.isSome_of_mem found)
      rw [List.forall_mem_map] at every
      have each (index : Nat) (below : index < blockCount targetRows transfer.blockSize) :
          RowFound transfer chunk (index * transfer.blockSize) := by
        obtain ⟨place, one⟩ := Option.isSome_iff_exists.mp
          (every index (List.mem_range.mpr below))
        exact (regionPlace_eq_some one).1
      have fits : chunk.stop - chunk.start ≤ targetRows := by omega
      refine ⟨⟨by omega, by omega, by omega, fits,
        namesBlocks_of_rows positive fun index below => ?_⟩, ?_⟩
      · have inside := (lt_blockCount positive).mp below
        obtain ⟨natural, aligned, sequential⟩ :=
          each index (Nat.lt_of_lt_of_le below (blockCount_mono positive fits))
        rw [rowSlot, if_pos inside] at natural aligned sequential
        exact ⟨natural, aligned, sequential inside⟩
      · rw [mapM_eq_map (fun row _ place one => (regionPlace_eq_some one).2) found, regionCopied,
          List.map_map]
        rfl

/-! ## All chunks -/

/-- The rows that a transfer asks for. -/
def Transfer.regionAsked (transfer : Transfer) (mesh : RegionMesh) : List Place :=
  transfer.chunks.flatMap (RawPlanners.regionAsked transfer mesh)

/-- The rows that are copied. -/
def Transfer.regionCopied (transfer : Transfer) (mesh : RegionMesh) (targetRows : Int) :
    List Place :=
  transfer.chunks.flatMap (RawPlanners.regionCopied transfer mesh targetRows)

/-- The rows of a memory object, by its first member. -/
def Transfer.targetRows (transfer : Transfer) (memberWidths : List Int) : Int :=
  ((transfer.members memberWidths).map fun member => member.allocBytes / member.stride).headD 0

/-- What the first planner checks before it looks at the slots. -/
structure RegionChecked (transfer : Transfer) (memberWidths : List Int) (mesh : RegionMesh) :
    Prop where
  given : transfer.ChunksGiven
  blockSize : 0 < transfer.blockSize
  mesh : mesh.Valid
  members : transfer.members memberWidths ≠ []
  sizes : ∀ member ∈ transfer.members memberWidths, 0 < member.stride ∧
    member.allocBytes = transfer.targetRows memberWidths * member.stride
  rows : 0 < transfer.targetRows memberWidths
  whole : transfer.blockSize ∣ transfer.targetRows memberWidths

variable {memberWidths : List Int} {memberRuns : List (List RegionRawByteRun)}

theorem members_ne_nil {strides : List Int} (some_ : strides.length ≠ 0)
    (allocs : transfer.memberAllocBytes.length = strides.length)
    (bases : transfer.regionBases.length = strides.length) : transfer.members strides ≠ [] := by
  intro none_
  have count := congrArg List.length none_
  rw [Transfer.members, List.length_map, List.length_zip, List.length_zip, allocs, bases,
    List.length_nil] at count
  omega

theorem buildRegionRawMeshRuns_eq_some
    (built : buildRegionRawMeshRuns transfer memberWidths mesh = some memberRuns) :
    RegionChecked transfer memberWidths mesh ∧
      (∀ chunk ∈ transfer.chunks,
        RegionFound transfer (transfer.targetRows memberWidths) chunk) ∧
      (∀ member ∈ transfer.members memberWidths,
        ∀ place ∈ transfer.regionCopied mesh (transfer.targetRows memberWidths),
          (place.copy transfer.blockSize member).Fits) ∧
      memberRuns = runsOf transfer.blockSize (transfer.members memberWidths)
        (transfer.regionCopied mesh (transfer.targetRows memberWidths)) := by
  rw [buildRegionRawMeshRuns] at built
  dsimp only at built
  rw [← Transfer.targetRows] at built
  split at built
  · cases built
  · next shape =>
    split at built
    · cases built
    · next parameters =>
      split at built
      · cases built
      · next sizes =>
        split at built
        · cases built
        · next rows =>
          split at built
          · cases built
          · next equal =>
            simp only [not_or, not_not, Int.not_le] at shape parameters rows
            simp only [not_exists, not_and, not_or, Int.not_le, not_not] at sizes equal
            have positive := parameters.1
            have checked : RegionChecked transfer memberWidths mesh := by
              refine ⟨shape.1, positive, parameters.2,
                members_ne_nil shape.2.1 shape.2.2.1 shape.2.2.2, fun member listed => ?_, rows.1,
                Int.dvd_of_emod_eq_zero rows.2⟩
              obtain ⟨stride, -, divides⟩ := sizes member listed
              have quotient := equal _ (List.mem_map_of_mem listed)
              refine ⟨stride, ?_⟩
              rw [← quotient, Int.ediv_mul_cancel (Int.dvd_of_emod_eq_zero divides)]
            have loop : regionChunk transfer memberWidths mesh (transfer.targetRows memberWidths) =
                fun memberRuns chunk =>
                  (regionPlaces transfer mesh (transfer.targetRows memberWidths) chunk).bind
                    fun places => places.foldlM (appendPlace (transfer.members memberWidths)
                      (fun place member => (rowCopy transfer place member).Fits)
                      (rowCopy transfer)) memberRuns := by
              funext memberRuns chunk
              exact regionChunk_eq transfer memberWidths mesh _ memberRuns chunk
            rw [loop] at built
            obtain ⟨found, fits, rfl⟩ := (plan_eq_some _ _ _ _).mp built
            have copied : (allPlaces (regionPlaces transfer mesh
                (transfer.targetRows memberWidths)) transfer.chunks).map RowPlace.place =
                transfer.regionCopied mesh (transfer.targetRows memberWidths) := by
              rw [allPlaces, List.map_flatMap, Transfer.regionCopied]
              refine List.flatMap_congr fun chunk listed => ?_
              obtain ⟨places, there⟩ := Option.isSome_iff_exists.mp (found chunk listed)
              rw [there, Option.getD_some]
              exact (regionPlaces_eq_some positive there).2
            refine ⟨checked, fun chunk listed => ?_, fun member listed place copiedPlace => ?_, ?_⟩
            · obtain ⟨places, there⟩ := Option.isSome_iff_exists.mp (found chunk listed)
              exact (regionPlaces_eq_some positive there).1
            · rw [← copied] at copiedPlace
              obtain ⟨row, inside, rfl⟩ := List.mem_map.mp copiedPlace
              exact fits row inside member listed
            · rw [runsOf, ← copied]
              simp only [List.map_map]
              rfl

/-- The rows that are copied are within the memory objects, each for itself. -/
theorem regionCopied_within (checked : RegionChecked transfer memberWidths mesh)
    {member : Member} (listed : member ∈ transfer.members memberWidths) {place : Place}
    (copied : place ∈ transfer.regionCopied mesh (transfer.targetRows memberWidths)) :
    place.Within transfer.blockSize member := by
  obtain ⟨stride, size⟩ := checked.sizes member listed
  have positive := checked.blockSize
  obtain ⟨chunk, -, inside⟩ := List.mem_flatMap.mp copied
  obtain ⟨index, below, rfl⟩ := List.mem_map.mp inside
  rw [List.mem_range, blockCount_of_dvd positive checked.whole] at below
  have last : ((index : Int) + 1) * transfer.blockSize ≤ transfer.targetRows memberWidths := by
    rw [← Int.le_ediv_iff_mul_le positive]
    omega
  rw [Int.add_mul, Int.one_mul] at last
  refine ⟨Int.mul_nonneg (Int.natCast_nonneg index) (Int.le_of_lt positive), ?_⟩
  rw [size]
  exact Int.mul_le_mul_of_nonneg_right last (Int.le_of_lt stride)

theorem regionCopied_apart (checked : RegionChecked transfer memberWidths mesh)
    (distinct : transfer.memobjSlots.Nodup) :
    (transfer.regionCopied mesh (transfer.targetRows memberWidths)).Pairwise
      (Place.Apart transfer.blockSize) := by
  rw [← chunks_memobjSlot checked.given] at distinct
  refine @chunks_apart _ _ _ id _ distinct (fun chunk _ place inside => ?_) fun chunk _ => ?_
  · obtain ⟨index, _, rfl⟩ := List.mem_map.mp inside
    rfl
  · exact multiples_apart checked.blockSize fun index => rfl

theorem regionCopied_slots (given : transfer.ChunksGiven) {targetRows : Int} {place : Place}
    (copied : place ∈ transfer.regionCopied mesh targetRows) :
    place.memobjSlot ∈ transfer.memobjSlots := by
  obtain ⟨chunk, listed, inside⟩ := List.mem_flatMap.mp copied
  obtain ⟨index, _, rfl⟩ := List.mem_map.mp inside
  rw [← chunks_memobjSlot given]
  exact List.mem_map_of_mem listed

/-- A chunk is copied as it is asked for exactly if it ends in the last block of the memory
object. -/
theorem regionCopied_eq_asked (positive : 0 < transfer.blockSize) {targetRows : Int}
    {chunk : Chunk} (found : RegionFound transfer targetRows chunk)
    (whole : transfer.blockSize ∣ targetRows)
    (full : targetRows < chunk.stop - chunk.start + transfer.blockSize) :
    regionCopied transfer mesh targetRows chunk = regionAsked transfer mesh chunk := by
  have nonempty := found.nonempty
  have count := (blockCount_eq_iff positive (by omega) found.fits whole).mpr full
  rw [regionCopied, regionAsked, count]
  refine List.map_congr_left fun index below => ?_
  rw [List.mem_range, ← count, lt_blockCount positive] at below
  rw [rowSlot, if_pos below]
  rfl

theorem deviceBytes_length (span : Int) (places : List Place) (member : Member) :
    (deviceBytes span places member).length = places.length * (span * member.stride).toNat := by
  rw [deviceBytes, List.length_flatMap]
  simp only [Place.deviceBytes, List.length_map, List.length_range, List.map_const',
    List.sum_replicate_nat]

/-- Lists that are longer item by item, and not longer on the whole, are as long item by item. -/
theorem lengths_eq {α β : Type} {items : List α} {less more : α → List β}
    (each : ∀ item ∈ items, (less item).length ≤ (more item).length)
    (whole : (items.flatMap less).length = (items.flatMap more).length) :
    ∀ item ∈ items, (less item).length = (more item).length := by
  induction items with
  | nil => exact fun _ member => nomatch member
  | cons item items inductionHypothesis =>
    obtain ⟨first, rest⟩ := List.forall_mem_cons.mp each
    have tail : (items.flatMap less).length ≤ (items.flatMap more).length := by
      clear whole inductionHypothesis each
      induction items with
      | nil => exact Nat.le_refl 0
      | cons item items inductionHypothesis =>
        obtain ⟨first, rest⟩ := List.forall_mem_cons.mp rest
        rw [List.flatMap_cons, List.flatMap_cons, List.length_append, List.length_append]
        exact Nat.add_le_add first (inductionHypothesis rest)
    rw [List.flatMap_cons, List.flatMap_cons, List.length_append, List.length_append] at whole
    exact List.forall_mem_cons.mpr ⟨by omega, inductionHypothesis rest (by omega)⟩

/-- The rows that are copied name the bytes of the blocks that were asked for exactly if every
chunk ends in the last block of the memory object. -/
theorem region_device_iff (checked : RegionChecked transfer memberWidths mesh)
    (found : ∀ chunk ∈ transfer.chunks,
      RegionFound transfer (transfer.targetRows memberWidths) chunk) :
    (∀ member ∈ transfer.members memberWidths,
      deviceBytes transfer.blockSize
          (transfer.regionCopied mesh (transfer.targetRows memberWidths)) member =
        deviceBytes transfer.blockSize (transfer.regionAsked mesh) member) ↔
    ∀ chunk ∈ transfer.chunks,
      transfer.targetRows memberWidths < chunk.stop - chunk.start + transfer.blockSize := by
  have positive := checked.blockSize
  constructor
  · intro same chunk listed
    obtain ⟨member, first⟩ := List.exists_mem_of_ne_nil _ checked.members
    have size := congrArg List.length (same member first)
    have bytes : 0 < (transfer.blockSize * member.stride).toNat := by
      have product := Int.mul_pos positive (checked.sizes member first).1
      omega
    rw [deviceBytes_length, deviceBytes_length] at size
    have lengths := Nat.eq_of_mul_eq_mul_right bytes size
    have counts := @lengths_eq _ _ transfer.chunks (RawPlanners.regionAsked transfer mesh)
      (RawPlanners.regionCopied transfer mesh (transfer.targetRows memberWidths))
      (fun chunk inside => ?_) lengths.symm chunk listed
    · have one := found chunk listed
      have nonempty := one.nonempty
      rw [RawPlanners.regionAsked, RawPlanners.regionCopied, List.length_map, List.length_map,
        List.length_range, List.length_range] at counts
      exact (blockCount_eq_iff positive (by omega) one.fits checked.whole).mp counts
    · rw [RawPlanners.regionAsked, RawPlanners.regionCopied, List.length_map, List.length_map,
        List.length_range, List.length_range]
      exact blockCount_mono positive (found chunk inside).fits
  · intro full member _
    have same : transfer.regionCopied mesh (transfer.targetRows memberWidths) =
        transfer.regionAsked mesh := by
      rw [Transfer.regionCopied, Transfer.regionAsked]
      exact List.flatMap_congr fun chunk listed =>
        regionCopied_eq_asked positive (found chunk listed) checked.whole (full chunk listed)
    rw [same]

/-- The first planner is exact exactly if every chunk ends in the last block of its memory
object. -/
theorem region_exact_iff {count : Int}
    (built : buildRegionRawMeshRuns transfer memberWidths mesh = some memberRuns)
    (distinct : transfer.memobjSlots.Nodup)
    (slots : ∀ slot ∈ transfer.memobjSlots, 0 ≤ slot ∧ slot < count)
    (regions : Regions count (transfer.members memberWidths)) :
    (∀ chunk ∈ transfer.chunks, NamesBlocks transfer chunk) ∧
      (Exact transfer.blockSize (transfer.members memberWidths)
          (transfer.regionCopied mesh (transfer.targetRows memberWidths))
          (transfer.regionAsked mesh) memberRuns ↔
        ∀ chunk ∈ transfer.chunks,
          transfer.targetRows memberWidths < chunk.stop - chunk.start + transfer.blockSize) := by
  obtain ⟨checked, found, fits, rfl⟩ := buildRegionRawMeshRuns_eq_some built
  refine ⟨fun chunk listed => (found chunk listed).names, ?_⟩
  rw [← region_device_iff checked found]
  refine exact_iff regions fits (fun member listed => ?_) (regionCopied_apart checked distinct)
    (fun member listed place copied => regionCopied_within checked listed copied)
    fun place copied => slots _ (regionCopied_slots checked.given copied)
  obtain ⟨stride, size⟩ := checked.sizes member listed
  refine ⟨stride, ?_⟩
  rw [size]
  exact Int.mul_nonneg (Int.le_of_lt checked.rows) (Int.le_of_lt stride)

end Region

end KvCache.Lmcache.RawPlanners
