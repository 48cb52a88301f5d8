import Mathlib

/-!
# The planners of raw runs

A transfer moves blocks of a paged cache, spread over the chips of a mesh, to or from memory
objects in a host buffer. A planner turns the slot mapping of the transfer into runs of bytes,
one list for each member of the cache, or refuses. Neighbouring runs are merged.

There are three planners. The first copies whole memory objects, rows of one rank; the second
copies blocks that are cut up over the ranks of a tensor-parallel group; the third copies blocks
that are dealt out in turn over the ranks of a context-parallel group.
-/

namespace KvCache.Lmcache.RawPlanners

/-! ## Runs -/

structure RegionRawByteRun where
  shardIndex : Nat
  deviceByteOffset : Nat
  numBytes : Nat
  hostByteOffset : Nat
deriving DecidableEq, Repr

/-- A copy in the numbers of the caller. -/
structure RawCopy where
  shardIndex : Int
  deviceByteOffset : Int
  numBytes : Int
  hostByteOffset : Int
deriving DecidableEq, Repr

def FitsU32 (value : Int) : Prop := 0 ≤ value ∧ value ≤ 2 ^ 32 - 1

def FitsHostOffset (value : Int) : Prop := 0 ≤ value ∧ value ≤ 2 ^ 64 - 1

instance (value : Int) : Decidable (FitsU32 value) := by
  unfold FitsU32
  infer_instance

instance (value : Int) : Decidable (FitsHostOffset value) := by
  unfold FitsHostOffset
  infer_instance

/-- The numbers of a copy fit the fields of a run. -/
def RawCopy.Fits (copy : RawCopy) : Prop :=
  FitsU32 copy.shardIndex ∧ FitsU32 copy.deviceByteOffset ∧ FitsU32 copy.numBytes ∧
    FitsHostOffset copy.hostByteOffset

instance (copy : RawCopy) : Decidable copy.Fits := by
  unfold RawCopy.Fits
  infer_instance

/-- The conversions to unsigned words. -/
def toU32 (value : Int) : Nat := (value % 2 ^ 32).toNat

def toU64 (value : Int) : Nat := (value % 2 ^ 64).toNat

def RawCopy.run (copy : RawCopy) : RegionRawByteRun where
  shardIndex := toU32 copy.shardIndex
  deviceByteOffset := toU32 copy.deviceByteOffset
  numBytes := toU32 copy.numBytes
  hostByteOffset := toU64 copy.hostByteOffset

/-- A run continues the one before it, and both together are not too long. -/
def Continues (prev run : RegionRawByteRun) : Prop :=
  prev.shardIndex = run.shardIndex ∧
    prev.deviceByteOffset + prev.numBytes = run.deviceByteOffset ∧
    prev.hostByteOffset + prev.numBytes = run.hostByteOffset ∧
    prev.numBytes + run.numBytes ≤ 2 ^ 32 - 1

instance (prev run : RegionRawByteRun) : Decidable (Continues prev run) := by
  unfold Continues
  infer_instance

/-- A run is merged with the last one where it continues it. -/
def pushRun (runs : List RegionRawByteRun) (run : RegionRawByteRun) : List RegionRawByteRun :=
  match runs.getLast? with
  | some prev =>
    if Continues prev run then
      runs.dropLast ++ [{ prev with numBytes := (prev.numBytes + run.numBytes) % 2 ^ 32 }]
    else runs ++ [run]
  | none => [run]

def appendRegionRawMemberRun (runs : List RegionRawByteRun)
    (shardIndex srcRow rows dstRow memberWidth memberAllocBytes regionBase memobjSlot : Int) :
    Option (List RegionRawByteRun) :=
  let copy : RawCopy := ⟨shardIndex, srcRow * memberWidth, rows * memberWidth,
    regionBase + memobjSlot * memberAllocBytes + dstRow * memberWidth⟩
  if copy.Fits then some (pushRun runs copy.run) else none

def appendRegionRawExplicitRun (runs : List RegionRawByteRun) (copy : RawCopy) :
    Option (List RegionRawByteRun) :=
  if copy.Fits ∧ 0 < copy.numBytes then some (pushRun runs copy.run) else none

/-- The chip of a group and a rank on the mesh, whose axes are numbered 0 and 1. -/
def meshShardIndex (group shard groupSize shardCount groupAxis shardAxis : Int) : Int :=
  let at_ (axis ofGroup ofShard : Int) : Int :=
    if shardAxis = axis then ofShard else if groupAxis = axis then ofGroup else 0
  at_ 0 group shard * at_ 1 groupSize shardCount + at_ 1 group shard

/-! ## Transfers -/

/-- The arguments that the planners share. -/
structure Transfer where
  slotMapping : List Int
  starts : List Int
  ends : List Int
  memobjSlots : List Int
  memberAllocBytes : List Int
  regionBases : List Int
  blockSize : Int

/-- The tokens of a transfer that go to one memory object. -/
structure Chunk where
  start : Int
  stop : Int
  memobjSlot : Int
deriving DecidableEq, Repr

/-- A member of a memory object, with the bytes of a row or a block of it on one chip. -/
structure Member where
  stride : Int
  allocBytes : Int
  regionBase : Int
deriving DecidableEq, Repr

def Transfer.numSlots (transfer : Transfer) : Int := transfer.slotMapping.length

/-- A slot within the mapping. -/
def Transfer.slot (transfer : Transfer) (position : Int) : Int :=
  transfer.slotMapping.getD position.toNat 0

def Transfer.chunks (transfer : Transfer) : List Chunk :=
  (transfer.starts.zip (transfer.ends.zip transfer.memobjSlots)).map
    fun (start, stop, memobjSlot) => ⟨start, stop, memobjSlot⟩

/-- The members for some strides. -/
def Transfer.members (transfer : Transfer) (strides : List Int) : List Member :=
  (strides.zip (transfer.memberAllocBytes.zip transfer.regionBases)).map
    fun (stride, allocBytes, regionBase) => ⟨stride, allocBytes, regionBase⟩

/-- There are chunks, each with its numbers. -/
def Transfer.ChunksGiven (transfer : Transfer) : Prop :=
  transfer.memobjSlots.length ≠ 0 ∧ transfer.starts.length = transfer.memobjSlots.length ∧
    transfer.ends.length = transfer.memobjSlots.length

instance (transfer : Transfer) : Decidable transfer.ChunksGiven := by
  unfold Transfer.ChunksGiven
  infer_instance

/-- Append a copy to the runs of every member. -/
def appendMembers (members : List Member)
    (append : Member → List RegionRawByteRun → Option (List RegionRawByteRun))
    (memberRuns : List (List RegionRawByteRun)) : Option (List (List RegionRawByteRun)) :=
  (members.zip memberRuns).mapM fun (member, runs) => append member runs

/-- The slots of some rows follow one another. -/
def Transfer.Sequential (transfer : Transfer) (position slot rows : Int) : Prop :=
  ∀ intra < rows.toNat, transfer.slot (position + intra) = slot + intra

instance (transfer : Transfer) (position slot rows : Int) :
    Decidable (transfer.Sequential position slot rows) := by
  unfold Transfer.Sequential
  infer_instance

/-- The steps of a loop from 0 below a bound. -/
def steps (bound step : Int) : List Int :=
  (List.range ((bound + step - 1) / step).toNat).map fun index : Nat => index * step

/-! ## Rows of one rank -/

/-- What the first planner is told about the mesh. -/
structure RegionMesh where
  dpSize : Int
  blocksPerDp : Int
  tpSize : Int
  rank : Int
  groupAxis : Int
  shardAxis : Int

/-- Where some rows are and where they go. -/
structure RowPlace where
  shardIndex : Int
  srcRow : Int
  dstRow : Int
  memobjSlot : Int

section Region

variable (transfer : Transfer) (memberWidths : List Int) (mesh : RegionMesh)

/-- The mesh parameters are in range. -/
def RegionMesh.Valid (mesh : RegionMesh) : Prop :=
  0 < mesh.dpSize ∧ 0 < mesh.blocksPerDp ∧ 0 < mesh.tpSize ∧ 0 ≤ mesh.rank ∧
    mesh.rank < mesh.tpSize ∧ (mesh.groupAxis = 0 ∨ mesh.groupAxis = 1) ∧
    (mesh.shardAxis = 0 ∨ mesh.shardAxis = 1) ∧ mesh.groupAxis ≠ mesh.shardAxis

instance (mesh : RegionMesh) : Decidable mesh.Valid := by
  unfold RegionMesh.Valid
  infer_instance

/-- The place of the rows of a block. Rows behind the last token go on from the first slot. -/
def regionPlace (chunk : Chunk) (row : Int) : Option RowPlace :=
  let blockSize := transfer.blockSize
  let logicalRows := chunk.stop - chunk.start
  let firstSlot := transfer.slot chunk.start
  let slot := if row < logicalRows then transfer.slot (chunk.start + row) else firstSlot + row
  if slot < 0 ∨ slot % blockSize ≠ 0 then none
  else if row < logicalRows ∧
      ¬ transfer.Sequential (chunk.start + row) slot (min (logicalRows - row) blockSize) then none
  else
    let block := slot / blockSize
    let dp := block / mesh.blocksPerDp
    if dp < 0 ∨ mesh.dpSize ≤ dp then none
    else
      let localSrcRow := (block - dp * mesh.blocksPerDp) * blockSize
      if localSrcRow < 0 ∨ mesh.blocksPerDp * blockSize < localSrcRow + blockSize then none
      else
        let shardIndex := meshShardIndex dp mesh.rank mesh.dpSize mesh.tpSize mesh.groupAxis
          mesh.shardAxis
        if shardIndex < 0 ∨ mesh.dpSize * mesh.tpSize ≤ shardIndex then none
        else some ⟨shardIndex, localSrcRow, row, chunk.memobjSlot⟩

/-- The rows of a chunk. -/
def regionChunk (targetRows : Int) (memberRuns : List (List RegionRawByteRun)) (chunk : Chunk) :
    Option (List (List RegionRawByteRun)) :=
  let firstSlot := transfer.slot chunk.start
  if chunk.start < 0 ∨ chunk.stop ≤ chunk.start ∨ transfer.numSlots < chunk.stop ∨
      targetRows < chunk.stop - chunk.start then none
  else if firstSlot < 0 ∨ firstSlot % transfer.blockSize ≠ 0 then none
  else
    (steps targetRows transfer.blockSize).foldlM (fun memberRuns row =>
      (regionPlace transfer mesh chunk row).bind fun place =>
        appendMembers (transfer.members memberWidths) (fun member runs =>
          appendRegionRawMemberRun runs place.shardIndex place.srcRow transfer.blockSize
            place.dstRow member.stride member.allocBytes member.regionBase place.memobjSlot)
          memberRuns) memberRuns

def buildRegionRawMeshRuns : Option (List (List RegionRawByteRun)) :=
  let members := transfer.members memberWidths
  if ¬ transfer.ChunksGiven ∨ memberWidths.length = 0 ∨
      transfer.memberAllocBytes.length ≠ memberWidths.length ∨
      transfer.regionBases.length ≠ memberWidths.length then none
  else if transfer.blockSize ≤ 0 ∨ ¬ mesh.Valid then none
  else if ∃ member ∈ members, member.stride ≤ 0 ∨ member.allocBytes ≤ 0 ∨
      member.allocBytes % member.stride ≠ 0 then none
  else
    let memberRows := members.map fun member => member.allocBytes / member.stride
    let targetRows := memberRows.headD 0
    if targetRows ≤ 0 ∨ targetRows % transfer.blockSize ≠ 0 then none
    else if ∃ rows ∈ memberRows, rows ≠ targetRows then none
    else
      transfer.chunks.foldlM (regionChunk transfer memberWidths mesh targetRows)
        (members.map fun _ => [])

end Region

/-! ## Blocks cut up over ranks -/

/-- What the second planner is told about blocks and the mesh. -/
structure TpShape where
  shardBlockBytes : Int
  blockBytes : Int
  dpSize : Int
  blocksPerDp : Int
  tpSize : Int

/-- Where a rank's part of a block is and where it goes. -/
structure TpPlace where
  shardIndex : Int
  localBlock : Int
  chunkBlock : Int
  tpRank : Int
  memobjSlot : Int

section TpInterleaved

variable (transfer : Transfer) (shape : TpShape)

def TpShape.Valid (shape : TpShape) : Prop :=
  0 < shape.shardBlockBytes ∧ 0 < shape.blockBytes ∧ 0 < shape.dpSize ∧ 0 < shape.blocksPerDp ∧
    0 < shape.tpSize ∧ shape.blockBytes = shape.shardBlockBytes * shape.tpSize

instance (shape : TpShape) : Decidable shape.Valid := by
  unfold TpShape.Valid
  infer_instance

/-- Take up the slot of a position: it begins a block, or stays in the one before it. -/
def collectBlock (chunk : Chunk) (blocks : List Int) (position : Nat) : Option (List Int) :=
  let slot := transfer.slot (chunk.start + position)
  if slot < 0 then none
  else
    let block := slot / transfer.blockSize
    let intra := slot % transfer.blockSize
    if intra ≠ position % transfer.blockSize then none
    else if intra = 0 then some (blocks ++ [block])
    else if blocks.getLast? ≠ some block then none
    else some blocks

/-- The blocks of a chunk. -/
def collectBlocks (chunk : Chunk) : Option (List Int) :=
  (List.range (chunk.stop - chunk.start).toNat).foldlM (collectBlock transfer chunk) []

/-- The places of a block's parts, rank by rank. -/
def tpPlace (chunk : Chunk) (block chunkBlock tpRank : Int) : Option TpPlace :=
  let dp := block / shape.blocksPerDp
  let localBlock := block - dp * shape.blocksPerDp
  if dp < 0 ∨ shape.dpSize ≤ dp ∨ localBlock < 0 ∨ shape.blocksPerDp ≤ localBlock then none
  else
    let shardIndex := dp * shape.tpSize + tpRank
    if shardIndex < 0 ∨ shape.dpSize * shape.tpSize ≤ shardIndex then none
    else some ⟨shardIndex, localBlock, chunkBlock, tpRank, chunk.memobjSlot⟩

/-- The copy of a part of a block for a member. -/
def tpCopy (place : TpPlace) (member : Member) : RawCopy :=
  let memberBlockOffset := place.chunkBlock * shape.blockBytes
  let tpHostOffset := place.tpRank * shape.shardBlockBytes
  ⟨place.shardIndex, place.localBlock * shape.shardBlockBytes, shape.shardBlockBytes,
    member.regionBase + place.memobjSlot * member.allocBytes + memberBlockOffset + tpHostOffset⟩

/-- The members with the bytes of a block on one chip. -/
def tpMembers : List Member :=
  transfer.members (transfer.memberAllocBytes.map fun _ => shape.shardBlockBytes)

/-- A block of a chunk on all its ranks. -/
def tpBlock (chunk : Chunk) (memberRuns : List (List RegionRawByteRun)) (block : Int)
    (chunkBlock : Nat) : Option (List (List RegionRawByteRun)) :=
  (List.range shape.tpSize.toNat).foldlM (fun memberRuns (tpRank : Nat) =>
    (tpPlace shape chunk block chunkBlock tpRank).bind fun place =>
      appendMembers (tpMembers transfer shape) (fun member runs =>
        appendRegionRawExplicitRun runs (tpCopy shape place member)) memberRuns) memberRuns

/-- The blocks of a chunk, each with its index. -/
def tpChunk (memberRuns : List (List RegionRawByteRun)) (chunk : Chunk) :
    Option (List (List RegionRawByteRun)) :=
  let members := tpMembers transfer shape
  if chunk.start < 0 ∨ chunk.stop < chunk.start ∨ transfer.numSlots < chunk.stop then none
  else if chunk.stop - chunk.start = 0 then some memberRuns
  else
    let firstSlot := transfer.slot chunk.start
    if firstSlot < 0 ∨ firstSlot % transfer.blockSize ≠ 0 then none
    else do
      let blocks ← collectBlocks transfer chunk
      if ∃ member ∈ members, member.allocBytes / shape.blockBytes < blocks.length then none
      else
        blocks.zipIdx.foldlM (fun memberRuns block =>
          tpBlock transfer shape chunk memberRuns block.1 block.2) memberRuns

def buildTpInterleavedRegionRawMeshRuns : Option (List (List RegionRawByteRun)) :=
  let members := tpMembers transfer shape
  if ¬ transfer.ChunksGiven ∨ transfer.memberAllocBytes.length = 0 ∨
      transfer.regionBases.length ≠ transfer.memberAllocBytes.length then none
  else if transfer.blockSize ≤ 0 ∨ ¬ shape.Valid then none
  else if ∃ member ∈ members, member.allocBytes ≤ 0 ∨
      member.allocBytes % shape.blockBytes ≠ 0 then none
  else transfer.chunks.foldlM (tpChunk transfer shape) (members.map fun _ => [])

end TpInterleaved

/-! ## Blocks dealt out over ranks -/

/-- What the third planner is told about the mesh and about the memory objects. -/
structure CyclicShape where
  sourceStarts : List Int
  blocksPerRank : Int
  degree : Int

/-- Where a block is and where it goes. -/
structure CyclicPlace where
  shardIndex : Int
  localBlock : Int
  hostBlock : Int
  memobjSlot : Int

section BlockCyclic

variable (transfer : Transfer) (memberWidths : List Int) (shape : CyclicShape)

/-- What the slots seen so far of a group agree on. -/
structure Observed where
  firstBlock : Int
  firstBase : Int
  allBlocksSame : Bool
  allBasesSame : Bool

/-- Take up the slot of a position of a group; padding says nothing. -/
def observe (seen : Option Observed) (position : Int) : Option Observed :=
  let observedSlot := transfer.slot position
  if observedSlot < 0 then seen
  else
    let block := observedSlot / transfer.blockSize
    let cpBlockOffset := position % (transfer.blockSize * shape.degree) / transfer.blockSize
    let base := block - cpBlockOffset
    match seen with
    | none => some ⟨block, base, true, true⟩
    | some first => some { first with
        allBlocksSame := first.allBlocksSame && decide (block = first.firstBlock)
        allBasesSame := first.allBasesSame && decide (base = first.firstBase) }

/-- The positions of a group that the mapping has. -/
def groupPositions (localVirtualBlock : Int) : List Int :=
  let groupStart := localVirtualBlock * transfer.blockSize * shape.degree
  let groupEnd := min (groupStart + transfer.blockSize * shape.degree) transfer.numSlots
  (List.range (groupEnd - groupStart).toNat).map fun index : Nat => groupStart + index

/-- The block of a group on each of its ranks. -/
def canonicalPhysicalBlock (localVirtualBlock fallbackSlot : Int) : Option Int :=
  let groupStart := localVirtualBlock * transfer.blockSize * shape.degree
  let groupEnd := min (groupStart + transfer.blockSize * shape.degree) transfer.numSlots
  if groupStart < 0 ∨ groupEnd ≤ groupStart then some (fallbackSlot / transfer.blockSize)
  else
    match (groupPositions transfer shape localVirtualBlock).foldl (observe transfer shape) none with
    | none => some (fallbackSlot / transfer.blockSize)
    | some seen =>
      if seen.allBlocksSame then some seen.firstBlock
      else if seen.allBasesSame then some seen.firstBase
      else none

/-- The place of a block of a chunk. The position chooses the rank, the slots of the group
choose the block on it. -/
def cyclicPlace (chunk : Chunk) (sourceStart : Int) (chunkBlock : Nat) : Option CyclicPlace :=
  let blockSize := transfer.blockSize
  let logicalRows := chunk.stop - chunk.start
  let row := chunkBlock * blockSize
  let slot := transfer.slot (chunk.start + row)
  if slot < 0 ∨ slot % blockSize ≠ 0 then none
  else if row < logicalRows ∧
      ¬ transfer.Sequential (chunk.start + row) slot (min (logicalRows - row) blockSize) then none
  else do
    let globalVirtualBlock := (chunk.start + row) / blockSize
    let shardIndex := globalVirtualBlock % shape.degree
    let localVirtualBlock := globalVirtualBlock / shape.degree
    let localBlock ← canonicalPhysicalBlock transfer shape localVirtualBlock slot
    if localBlock ≤ 0 ∨ shape.blocksPerRank ≤ localBlock then none
    else some ⟨shardIndex, localBlock, sourceStart / blockSize + chunkBlock, chunk.memobjSlot⟩

/-- The copy of a block for a member. -/
def cyclicCopy (place : CyclicPlace) (member : Member) : RawCopy :=
  ⟨place.shardIndex, place.localBlock * member.stride, member.stride,
    member.regionBase + place.memobjSlot * member.allocBytes + place.hostBlock * member.stride⟩

/-- The members with the bytes of a block. -/
def cyclicMembers : List Member :=
  transfer.members (memberWidths.map fun width => width * transfer.blockSize)

/-- The chunks, each with the first token of its memory object's part; 0 where none is given. -/
def cyclicChunks : List (Chunk × Int) :=
  if shape.sourceStarts = [] then transfer.chunks.map fun chunk => (chunk, 0)
  else transfer.chunks.zip shape.sourceStarts

def cyclicChunk (targetBlocks : Int) (memberRuns : List (List RegionRawByteRun))
    (chunk : Chunk × Int) : Option (List (List RegionRawByteRun)) :=
  let blockSize := transfer.blockSize
  let (chunk, sourceStart) := chunk
  if chunk.start < 0 ∨ chunk.start % blockSize ≠ 0 ∨ chunk.stop ≤ chunk.start ∨
      transfer.numSlots < chunk.stop then none
  else if sourceStart < 0 ∨ sourceStart % blockSize ≠ 0 then none
  else
    let logicalBlocks := (chunk.stop - chunk.start + blockSize - 1) / blockSize
    let firstSlot := transfer.slot chunk.start
    if targetBlocks < sourceStart / blockSize + logicalBlocks then none
    else if firstSlot < 0 ∨ firstSlot % blockSize ≠ 0 then none
    else
      (List.range logicalBlocks.toNat).foldlM (fun memberRuns chunkBlock =>
        (cyclicPlace transfer shape chunk sourceStart chunkBlock).bind fun place =>
          appendMembers (cyclicMembers transfer memberWidths) (fun member runs =>
            appendRegionRawExplicitRun runs (cyclicCopy place member)) memberRuns) memberRuns

/-- The third planner. It is fatal to call it with other than two members. -/
def buildDsaBlockCyclicRegionRawMeshRuns : Option (List (List RegionRawByteRun)) :=
  let members := cyclicMembers transfer memberWidths
  if memberWidths.length ≠ 2 ∨ transfer.memberAllocBytes.length ≠ 2 ∨
      transfer.regionBases.length ≠ 2 then none
  else if ¬ transfer.ChunksGiven ∨ (shape.sourceStarts ≠ [] ∧
      shape.sourceStarts.length ≠ transfer.memobjSlots.length) then none
  else if transfer.blockSize ≤ 0 ∨ shape.blocksPerRank ≤ 0 ∨ shape.degree ≤ 0 then none
  else if ∃ member ∈ members, member.stride ≤ 0 ∨ member.allocBytes ≤ 0 ∨
      member.allocBytes % member.stride ≠ 0 then none
  else
    let memberBlocks := members.map fun member => member.allocBytes / member.stride
    let targetBlocks := memberBlocks.headD 0
    if targetBlocks ≤ 0 then none
    else if ∃ blocks ∈ memberBlocks, blocks ≠ targetBlocks then none
    else
      (cyclicChunks transfer shape).foldlM (cyclicChunk transfer memberWidths shape targetBlocks)
        (members.map fun _ => [])

end BlockCyclic

end KvCache.Lmcache.RawPlanners
