import KvCache.Lmcache.RawPlanners
import KvCache.Lmcache.TransferDescriptor

/-!
# Lowering a transfer

Before a transfer is handed to a planner, the connector checks its slot mapping as a whole: the
ranges, the order of the slots within the blocks, and that every block exists. Where the blocks
are dealt out over ranks, it finds the block of each group that the transfer touches.

A transfer that is turned down is reported as an error of the request; a planner that refuses
stops the process of the device.
-/

namespace KvCache.Lmcache.BlockBinding

open Descriptor RawPlanners

inductive TransferDirection where
  | d2h
  | h2d
deriving DecidableEq, Repr

/-- What lowering reads of a transfer descriptor: the profile of its groups and the number of
blocks of the local cache. -/
structure LocalTransfer where
  profile : TransferProfile
  numBlocks : Int
  positive : 0 < numBlocks

/-- The input of a transfer that varies with the request. -/
structure BlockTransferBinding where
  direction : TransferDirection
  starts : List Int
  ends : List Int
  sourceStarts : List Int
  slotMapping : List Int
deriving DecidableEq

/-- A range of tokens, with its place in the memory object. -/
structure BoundRange where
  start : Int
  stop : Int
  sourceStart : Int
deriving DecidableEq, Repr

def numel (slots : List Int) : Int := slots.length

def slotAt (slots : List Int) (position : Int) : Int := slots.getD position.toNat 0

/-- The positions of a range. -/
def arange (start stop : Int) : List Int :=
  (List.range (stop - start).toNat).map fun index : Nat => start + index

/-- The positions of a range, a step apart. -/
def arangeStep (start stop step : Int) : List Int :=
  (List.range ((stop - start + step - 1) / step).toNat).map fun index : Nat => start + index * step

section Lowering

variable (blockSize : Int) (slots : List Int)

/-- The next slot is in the same block and does not follow. -/
def Breaks (position : Int) : Prop :=
  (position + 1) / blockSize = position / blockSize ∧
    slotAt slots (position + 1) ≠ slotAt slots position + 1

instance (position : Int) : Decidable (Breaks blockSize slots position) := by
  unfold Breaks
  infer_instance

/-- The checks of a range. -/
def checkRange (range : BoundRange) : Except String Unit :=
  let positions := arange range.start range.stop
  let followed := arange range.start (range.stop - 1)
  if range.start < 0 ∨ range.stop ≤ range.start ∨ numel slots < range.stop then
    .error "transfer ranges must be non-empty and covered by the slot mapping"
  else if range.start % blockSize ≠ 0 then
    .error ("paged-block transfer starts must be block-aligned: start=" ++ toString range.start ++
      ", block_size=" ++ toString blockSize)
  else if range.sourceStart < 0 ∨ range.sourceStart % blockSize ≠ 0 then
    .error ("paged-block source offsets must be block-aligned: source_start=" ++
      toString range.sourceStart ++ ", block_size=" ++ toString blockSize)
  else if ∃ position ∈ positions, slotAt slots position < 0 then
    .error "active paged-block transfer ranges cannot contain padding slots"
  else if ∃ position ∈ positions, slotAt slots position % blockSize ≠ position % blockSize then
    .error "slot mapping is not sequential within physical cache blocks"
  else if ∃ position ∈ followed, Breaks blockSize slots position then
    .error "slot mapping contains a non-contiguous intra-block range"
  else .ok ()

/-- Keep the first slot of each group. -/
def setdefault (groups : List (Int × Int)) (group slot : Int) : List (Int × Int) :=
  if groups.any (fun entry => entry.1 == group) then groups else groups ++ [(group, slot)]

/-- The groups that a transfer touches, each with the first of its slots. -/
def relevantGroups (cpSize : Int) (ranges : List BoundRange) : List (Int × Int) :=
  ranges.foldl (fun groups range =>
    (arangeStep range.start range.stop blockSize).foldl (fun groups position =>
      setdefault groups (position / blockSize / cpSize) (slotAt slots position)) groups) []

/-- The positions of a group with a slot. -/
def observedPositions (cpSize localVirtualBlock : Int) : List Int :=
  let groupStart := localVirtualBlock * (blockSize * cpSize)
  let groupEnd := min (groupStart + blockSize * cpSize) (numel slots)
  if 0 ≤ groupStart ∧ groupStart < groupEnd then
    (arange groupStart groupEnd).filter fun position => decide (0 ≤ slotAt slots position)
  else []

/-- The block of a group on each of its ranks. -/
def resolvePhysicalBlock (cpSize localVirtualBlock fallbackSlot : Int) : Except String Int :=
  let observedBlock (position : Int) : Int := slotAt slots position / blockSize
  let observedBase (position : Int) : Int :=
    observedBlock position - position % (blockSize * cpSize) / blockSize
  match observedPositions blockSize slots cpSize localVirtualBlock with
  | [] => .ok (fallbackSlot / blockSize)
  | first :: rest =>
    if ∀ position ∈ first :: rest, observedBlock position = observedBlock first then
      .ok (observedBlock first)
    else if ∀ position ∈ first :: rest, observedBase position = observedBase first then
      .ok (observedBase first)
    else
      .error "block-cyclic slot mapping has inconsistent physical page IDs within a CP group"

/-- The checks of a group. -/
def checkGroup (cpSize blocksPerRank : Int) (group : Int × Int) : Except String Unit := do
  let physicalBlock ← resolvePhysicalBlock blockSize slots cpSize group.1 group.2
  if physicalBlock ≤ 0 then
    .error ("block-cyclic slot mapping resolves to page id 0, which vLLM reserves as the null " ++
      "block: physical_block=" ++ toString physicalBlock)
  else if blocksPerRank ≤ physicalBlock then
    .error ("block-cyclic slot mapping resolves outside owner-local capacity: physical_block=" ++
      toString physicalBlock ++ ", blocks_per_rank=" ++ toString blocksPerRank)
  else .ok ()

/-- The check of a range where blocks are not dealt out. -/
def checkCapacity (backend : String) (blockCapacity : Int) (range : BoundRange) :
    Except String Unit :=
  if ∃ position ∈ arangeStep range.start range.stop blockSize,
      blockCapacity ≤ slotAt slots position / blockSize then
    .error ("paged-block slot mapping exceeds " ++ backend ++ " capacity of " ++
      toString blockCapacity ++ " blocks")
  else .ok ()

/-- Reject blocks that the planner cannot address. -/
def validateBackendCapacity (transfer : LocalTransfer) (ranges : List BoundRange) :
    Except String Unit :=
  let plan := transfer.profile.plan
  let distribution := plan.blockDistribution
  if distribution.contextParallelSize = 1 then
    ranges.forM (checkCapacity transfer.profile.blockSize slots plan.backendKind.value
      (transfer.numBlocks * distribution.dataParallelSize))
  else
    (relevantGroups transfer.profile.blockSize slots distribution.contextParallelSize ranges).forM
      (checkGroup transfer.profile.blockSize slots distribution.contextParallelSize
        transfer.numBlocks)

end Lowering

/-- The ranges of a transfer. -/
def boundRanges (starts ends sourceStarts : List Int) : List BoundRange :=
  (starts.zip (ends.zip sourceStarts)).map
    fun (start, stop, sourceStart) => ⟨start, stop, sourceStart⟩

def lowerBlockBinding (transfer : LocalTransfer) (direction : TransferDirection)
    (starts ends slotMapping : List Int) (sourceStarts : Option (List Int)) :
    Except String BlockTransferBinding := do
  let sources := sourceStarts.getD (List.replicate starts.length 0)
  if ¬ (starts.length = ends.length ∧ ends.length = sources.length) then
    .error "transfer starts, ends, and source starts must have equal lengths"
  else if ∃ slot ∈ slotMapping, slot < -1 then
    .error "slot mapping values must be -1 or non-negative"
  else do
    let ranges := boundRanges starts ends sources
    ranges.forM (checkRange transfer.profile.blockSize slotMapping)
    validateBackendCapacity slotMapping transfer ranges
    return ⟨direction, starts, ends, sources, slotMapping⟩

end KvCache.Lmcache.BlockBinding
