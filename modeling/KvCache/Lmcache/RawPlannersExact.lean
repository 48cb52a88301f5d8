import KvCache.Lmcache.RawCyclic

/-!
# The planners and the blocks that are asked for

The planners of blocks copy the blocks that the chunks name and no others. So does the planner of
rows where every chunk ends in the last block of its memory object; a shorter chunk is filled up
with the blocks behind its first slot, whoever they belong to.
-/

namespace KvCache.Lmcache.RawPlanners

/-- Distinct memory objects, in regions of the members that do not meet. -/
structure WellPlaced (transfer : Transfer) (members : List Member) (count : Int) : Prop where
  distinct : transfer.memobjSlots.Nodup
  slots : ∀ slot ∈ transfer.memobjSlots, 0 ≤ slot ∧ slot < count
  regions : Regions count members

/-! ## A chunk that is shorter than its memory object -/

/-- Two rows of one block for a memory object of four rows. -/
def shortChunk : Transfer where
  slotMapping := [0, 1]
  starts := [0]
  ends := [2]
  memobjSlots := [0]
  memberAllocBytes := [4]
  regionBases := [0]
  blockSize := 2

/-- One chip with four blocks. -/
def oneChip : RegionMesh where
  dpSize := 1
  blocksPerDp := 4
  tpSize := 1
  rank := 0
  groupAxis := 0
  shardAxis := 1

theorem shortChunk_placed : WellPlaced shortChunk (shortChunk.members [1]) 1 where
  distinct := by decide
  slots := by decide
  regions := List.pairwise_singleton _ _

/-- Blocks in parts on two ranks. -/
def twoParts : TpShape where
  shardBlockBytes := 1
  blockBytes := 2
  dpSize := 1
  blocksPerDp := 4
  tpSize := 2

/-- Two blocks of two tokens for one memory object with two members. -/
def twoBlocks : Transfer where
  slotMapping := [2, 3, 4, 5]
  starts := [0]
  ends := [4]
  memobjSlots := [0]
  memberAllocBytes := [4, 4]
  regionBases := [0, 4]
  blockSize := 2

/-- Blocks in turn on two ranks. -/
def twoRanks : CyclicShape where
  sourceStarts := []
  blocksPerRank := 4
  degree := 2

theorem twoBlocks_placed (stride : Int) :
    WellPlaced twoBlocks [⟨stride, 4, 0⟩, ⟨stride, 4, 4⟩] 1 where
  distinct := by decide
  slots := by decide
  regions := by
    refine List.pairwise_cons.mpr ⟨fun other listed => ?_, List.pairwise_singleton _ _⟩
    obtain rfl := List.mem_singleton.mp listed
    exact .inl (Int.le_refl 4)

end KvCache.Lmcache.RawPlanners
