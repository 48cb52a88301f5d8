import KvCache.Lmcache.RestoreTable

/-!
# What a restore writes

The kernels fill exactly, whatever the page table and the split over cores. Whether a restore
writes what it is to write is therefore decided by its tables alone. The table of one device is
right. That of a mesh is right unless a chunk goes to the first block of a group that is not the
first one, which the writer takes for the null block and drops, or to the slot of a padding
token, whose entry is that of the group's last block.
-/

namespace KvCache.Lmcache.RestoreTable

open PagedFill

section Restore

variable {Tile : Type}

/-- The kernels fill exactly with a row of a table, for every split over cores. -/
def Exact (restore : Restore Tile) (row : List Int) : Prop :=
  ∀ split : List Nat, split.sum = restore.numKvHeads * restore.totalTokensT →
    FillsExactly (restore.fill row) (restore.requests row) split

/-- With the table of one device every tile of the chunks is written to the block of its slot,
and padding is dropped. -/
def DeviceRestored (restore : Restore Tile) : Prop :=
  let row := pageTableRow restore.blockSize restore.seqSlots
  Exact restore row ∧ ∀ head < restore.numKvHeads, ∀ tile < restore.tiles,
    rowOf (restore.fill row) (restore.requests row) head 0 tile = restore.wanted row 0 head tile

/-- With the table of a mesh the owning group writes every tile of the chunks to the block of
its slot and drops padding, and the other groups write nothing. -/
def MeshRestored (restore : Restore Tile) (dpSize blocksPerDp dp : Nat) : Prop :=
  ∃ table, multidevPageTable dpSize restore.blockSize blocksPerDp restore.seqSlots = some table ∧
    ∀ group < dpSize,
      Exact restore (table.getD group []) ∧
        ∀ head < restore.numKvHeads, ∀ tile < restore.tiles,
          rowOf (restore.fill (table.getD group [])) (restore.requests (table.getD group [])) head 0
              tile =
            if group = dp then restore.wanted (table.getD group []) (dp * blocksPerDp) head tile
            else []

variable {restore : Restore Tile} {dpSize blocksPerDp dp : Nat}

theorem exact_of_backed {row : List Int} {numBlocks : Nat}
    (backed : Backed (restore.fill row) (restore.requests row) numBlocks) : Exact restore row :=
  fun _ whole => fillsExactly (describes row) backed restore.columns restore.rows whole

theorem deviceRestored {numBlocks : Nat} (onDevice : OnDevice restore numBlocks) :
    DeviceRestored restore :=
  ⟨exact_of_backed (device_backed onDevice), fun head _ _ inside =>
    device_restores onDevice inside head⟩

/-- A mesh restores exactly where every slot is sound. -/
theorem meshRestored_iff (onGroup : OnGroup restore dpSize blocksPerDp dp) :
    MeshRestored restore dpSize blocksPerDp dp ↔
      ∀ tile < restore.tiles, Sound restore.blockSize blocksPerDp (restore.slot tile) := by
  rw [MeshRestored, multidevPageTable_eq onGroup]
  constructor
  · rintro ⟨table, built, restored⟩ tile inside
    cases built
    have owner := (restored dp onGroup.group).2 0 restore.heads tile inside
    rw [getD_table restore _ onGroup.group, if_pos rfl, if_pos rfl] at owner
    exact (owner_restores_iff onGroup inside 0).mp owner
  · refine fun sound => ⟨_, rfl, fun group listed => ?_⟩
    rw [getD_table restore _ listed]
    by_cases same : group = dp
    · rw [if_pos same]
      refine ⟨exact_of_backed (owner_backed onGroup), fun head _ tile inside => ?_⟩
      rw [if_pos same]
      exact (owner_restores_iff onGroup inside head).mpr (sound tile inside)
    · rw [if_neg same]
      refine ⟨exact_of_backed (other_backed onGroup), fun head _ tile _ => ?_⟩
      rw [if_neg same]
      exact other_writes_nothing restore head tile

end Restore

/-! ## Samples -/

/-- One tile of one head for the block of some slots of 32 tokens. -/
def oneBlock (first : Int) : Restore Nat where
  numKvHeads := 1
  totalTokensT := 1
  blockSizeT := 1
  wt := 1
  kFill := id
  vFill := id
  firstStart := 0
  totalTokens := 32
  seqSlots := (List.range 32).map fun token : Nat => first + token
  heads := Nat.one_pos
  columns := Nat.one_pos
  rows := Nat.one_pos
  startAligned := by decide
  startSmall := by decide
  totalAligned := by decide
  fits := by decide
  width := by decide
  covered := by simp [numBlocksInSeq]

theorem tiles_oneBlock {first : Int} {tile : Nat} (inside : tile < (oneBlock first).tiles) :
    tile = 0 := by
  have one : (oneBlock first).tiles = 1 := by simp [Restore.tiles, oneBlock]
  exact Nat.lt_one_iff.mp (one ▸ inside)

theorem slot_oneBlock (first : Int) : (oneBlock first).slot 0 = first := by
  simp [Restore.slot, Restore.position, blockSlot, oneBlock]

theorem onGroup_oneBlock {first : Int} {dp : Nat} (group : dp < 2)
    (owner : first / 32 / 4 = dp) : OnGroup (oneBlock first) 2 4 dp := by
  have stride : (oneBlock first).blockStride = 1 := rfl
  refine ⟨⟨first, ?_, owner⟩, group, fun tile inside => .inr ?_, by decide, by decide, ?_⟩
  · change some (first + 0) = some first
    rw [Int.add_zero]
  · rw [tiles_oneBlock inside, slot_oneBlock]
    exact owner
  · rw [stride]
    decide

/-- Two requests, the first of them empty, the second behind a cached tile. -/
def twoRequests : Fill Nat where
  numKvHeads := 2
  totalTokensT := 3
  blockSizeT := 1
  wt := 2
  maxBatchSize := 3
  cuSeqlens reqIdx := [0, 0, 64, noRequest].getD reqIdx 0
  startPositions reqIdx := [0, 32].getD reqIdx 0
  pageTable _ block := [4, 0, 7].getD block 0
  kFill := id
  vFill := id

def twoLengths : Requests twoRequests.maxBatchSize where
  lengths := [0, 2]
  few := by decide
  small := by decide

theorem describes_twoRequests : Describes twoRequests twoLengths where
  lengths := by decide
  total := by decide
  width := by decide
  starts := by decide

theorem backed_twoRequests : Backed twoRequests twoLengths 8 where
  size := by decide
  blocks := by
    intro reqIdx localTile _ _ _
    have below (block : Nat) : [4, 0, 7].getD block 0 < 8 := by
      rcases block with _ | _ | _ | _
      · decide
      · decide
      · decide
      · exact Nat.succ_pos 7
    exact below _

/-! ## The fill and the restores -/

end KvCache.Lmcache.RestoreTable
