import KvCache.Lmcache.PagedFillCaches

/-!
# The page tables of a restore

A restore fills the chunks of one sequence, one behind the other, into the blocks that the
sequence's slot mapping names. On one device the page table holds the blocks themselves. On a
mesh every data-parallel group has its own row: the group that owns the sequence gets the local
ids of the blocks, the others an entry that names no block.

The writer takes the entry 0 for the null block. On one device block 0 is the null block; a local
id 0 is the first block of its group, which is the null block in the first group only. And the
local id of the slot of a padding token is the last block of the group, not an entry that the
writer skips.
-/

namespace KvCache.Lmcache.RestoreTable

open PagedFill

/-! ## The tables -/

def numBlocksInSeq (blockSize : Nat) (seqSlots : List Int) : Nat :=
  (seqSlots.length + blockSize - 1) / blockSize

/-- The first slot of a block of the sequence. -/
def blockSlot (blockSize : Nat) (seqSlots : List Int) (block : Nat) : Int :=
  seqSlots.getD (block * blockSize) 0

/-- The table of one device. -/
def pageTableRow (blockSize : Nat) (seqSlots : List Int) : List Int :=
  (List.range (numBlocksInSeq blockSize seqSlots)).map fun block =>
    blockSlot blockSize seqSlots block / blockSize

/-- The row of the group that owns the sequence. -/
def localRow (blockSize blocksPerDp : Nat) (seqSlots : List Int) : List Int :=
  (List.range (numBlocksInSeq blockSize seqSlots)).map fun block =>
    blockSlot blockSize seqSlots block / blockSize % blocksPerDp

/-- An index counts from the end where it is negative. -/
def rowIndex (rows : Nat) (index : Int) : Option Nat :=
  if 0 ≤ index ∧ index < rows then some index.toNat
  else if index < 0 ∧ 0 ≤ index + rows then some (index + rows).toNat
  else none

/-- The table of a mesh: a row for each group. -/
def multidevPageTable (dpSize blockSize blocksPerDp : Nat) (seqSlots : List Int) :
    Option (List (List Int)) := do
  let first ← seqSlots[0]?
  let dp ← rowIndex dpSize (first / blockSize / blocksPerDp)
  let unowned := List.replicate (numBlocksInSeq blockSize seqSlots) (-1)
  return (List.replicate dpSize unowned).set dp (localRow blockSize blocksPerDp seqSlots)

/-- A signed word as the kernels read it. -/
def toWord (entry : Int) : Nat := (entry % (wordRange : Int)).toNat

/-! ## A restore -/

/-- Chunks of one sequence on a device: their tokens, their first position, which is checked to
begin a tile, and the slots of the sequence. -/
structure Restore (Tile : Type) where
  numKvHeads : Nat
  totalTokensT : Nat
  blockSizeT : Nat
  wt : Nat
  kFill : Nat → Tile
  vFill : Nat → Tile
  firstStart : Nat
  totalTokens : Nat
  seqSlots : List Int
  heads : 0 < numKvHeads
  columns : 0 < wt
  rows : 0 < blockSizeT
  startAligned : 32 ∣ firstStart
  startSmall : firstStart < 2 ^ 31
  totalAligned : 32 ∣ totalTokens
  fits : totalTokens ≤ 32 * totalTokensT
  width : 32 * totalTokensT < 2 ^ 31
  covered : firstStart + totalTokens ≤
    numBlocksInSeq (32 * blockSizeT) seqSlots * (32 * blockSizeT)

namespace Restore

variable {Tile : Type} (restore : Restore Tile)

def blockSize : Nat := 32 * restore.blockSizeT

/-- The tiles of the chunks, in tokens. -/
def tiles : Nat := restore.totalTokens / 32

/-- The position of a tile in the sequence. -/
def position (tile : Nat) : Nat := restore.firstStart + 32 * tile

/-- The first slot of the block that a tile goes to. -/
def slot (tile : Nat) : Int :=
  blockSlot restore.blockSize restore.seqSlots (restore.position tile / restore.blockSize)

/-- The tiles of a block of a cache. -/
def blockStride : Nat := restore.numKvHeads * restore.blockSizeT * restore.wt

/-- The fill of a device whose table has a row. An entry behind the row is a padding entry. -/
def fill (row : List Int) : Fill Tile where
  numKvHeads := restore.numKvHeads
  totalTokensT := restore.totalTokensT
  blockSizeT := restore.blockSizeT
  wt := restore.wt
  maxBatchSize := 1
  cuSeqlens reqIdx := toWord (if reqIdx = 0 then 0 else restore.totalTokens)
  startPositions _ := toWord restore.firstStart
  pageTable _ block := toWord (row.getD block (-1))
  kFill := restore.kFill
  vFill := restore.vFill

/-- The one request of a restore. -/
def requests (row : List Int) : Requests (restore.fill row).maxBatchSize where
  lengths := [restore.tiles]
  few := Nat.le_refl 1
  small := by
    have width := restore.width
    have fits := restore.fits
    rw [List.sum_singleton, tiles]
    omega

/-- The slot of a padding token, or a slot of the null block. -/
def Padding (blockSize : Nat) (slot : Int) : Prop := slot < 0 ∨ slot / (blockSize : Int) = 0

instance (blockSize : Nat) (slot : Int) : Decidable (Padding blockSize slot) := by
  unfold Padding
  infer_instance

/-- What a restore is to write for a tile under a head: the tile's row of the block that its
slot names, counted from the first block of the device, and nothing for padding. -/
def wanted (row : List Int) (firstBlock head tile : Nat) : List (Write Tile) :=
  if Padding restore.blockSize (restore.slot tile) then []
  else
    placed (restore.fill row) (head * restore.totalTokensT + tile)
      (tileOf (restore.fill row)
        (restore.slot tile / restore.blockSize - firstBlock).toNat head
        (restore.position tile % restore.blockSize))

end Restore

/-! ## What a device writes -/

theorem toWord_natCast {value : Nat} (small : value < wordRange) : toWord value = value := by
  rw [toWord, ← Int.natCast_mod, Int.toNat_natCast, Nat.mod_eq_of_lt small]

theorem toWord_of_nonneg {entry : Int} (natural : 0 ≤ entry) (small : entry < 2 ^ 31) :
    toWord entry = entry.toNat := by
  rw [toWord, wordRange]
  omega

/-- The negative entry names no block. -/
theorem not_live_toWord_neg : ¬ Live (toWord (-1)) := by
  decide

theorem live_toWord {entry : Int} (natural : 0 ≤ entry) (small : entry < 2 ^ 31) :
    Live (toWord entry) ↔ entry ≠ 0 := by
  rw [toWord_of_nonneg natural small, Live, skipPageTableEntry]
  omega

section Restore

variable {Tile : Type} {restore : Restore Tile}

theorem describes (row : List Int) : Describes (restore.fill row) (restore.requests row) := by
  have width := restore.width
  have fits := restore.fits
  obtain ⟨tiles, total⟩ := restore.totalAligned
  have range : wordRange = 2 ^ 32 := rfl
  have size : restore.tiles = tiles := by
    rw [Restore.tiles, total, Nat.mul_div_cancel_left tiles (Nat.succ_pos 31)]
  refine ⟨fun reqIdx limit => ?_, ?_, ?_, fun reqIdx _ => ?_⟩
  · have words : toWord restore.totalTokens = restore.totalTokens := toWord_natCast (by omega)
    obtain rfl | rfl := Nat.le_one_iff_eq_zero_or_eq_one.mp limit
    · rfl
    · have all : (restore.requests row).cuSeqlens 1 = 32 * restore.tiles := by
        simp [Requests.cuSeqlens, Requests.offset, Restore.requests]
      rw [all, size, ← total]
      exact words
  · rw [Restore.requests, List.sum_singleton, size]
    change tiles ≤ restore.totalTokensT
    omega
  · change 32 * restore.totalTokensT ≤ wordRange
    omega
  · have start : toWord restore.firstStart = restore.firstStart :=
      toWord_natCast (Nat.lt_trans restore.startSmall (by decide))
    change 32 ∣ toWord restore.firstStart ∧ toWord restore.firstStart < 2 ^ 31
    rw [start]
    exact ⟨restore.startAligned, restore.startSmall⟩

theorem cachePosition_fill (row : List Int) (tile : Nat) :
    cachePosition (restore.fill row) 0 tile = restore.position tile := by
  have start : toWord restore.firstStart = restore.firstStart :=
    toWord_natCast (Nat.lt_trans restore.startSmall (by decide))
  change toWord restore.firstStart + 32 * tile = restore.firstStart + 32 * tile
  rw [start]

theorem blockOf_fill (row : List Int) (tile : Nat) :
    blockOf (restore.fill row) 0 tile =
      toWord (row.getD (restore.position tile / restore.blockSize) (-1)) := by
  rw [blockOf, cachePosition_fill]
  rfl

/-- The block of every tile is one of the blocks of the sequence. -/
theorem block_covered {tile : Nat} (inside : tile < restore.tiles) :
    restore.position tile / restore.blockSize <
      numBlocksInSeq restore.blockSize restore.seqSlots := by
  have covered := restore.covered
  have positive : 0 < restore.blockSize := Nat.mul_pos (Nat.succ_pos 31) restore.rows
  rw [Restore.tiles] at inside
  rw [Nat.div_lt_iff_lt_mul positive, Restore.position]
  refine Nat.lt_of_lt_of_le ?_ covered
  omega

/-- A row that maps the slots of the blocks is read at the slot of the tile. -/
theorem getD_mapped (entryOf : Int → Int) {tile : Nat} (inside : tile < restore.tiles) :
    ((List.range (numBlocksInSeq restore.blockSize restore.seqSlots)).map fun block =>
      entryOf (blockSlot restore.blockSize restore.seqSlots block)).getD
        (restore.position tile / restore.blockSize) (-1) = entryOf (restore.slot tile) := by
  rw [List.getD_eq_getElem _ _ (by simpa using block_covered inside), List.getElem_map,
    List.getElem_range]
  rfl

theorem rowOf_fill (row : List Int) (head tile : Nat) :
    rowOf (restore.fill row) (restore.requests row) head 0 tile =
      if Live (blockOf (restore.fill row) 0 tile) then
        placed (restore.fill row) (head * restore.totalTokensT + tile)
          (tileOf (restore.fill row) (blockOf (restore.fill row) 0 tile) head
            (restore.position tile % restore.blockSize))
      else [] := by
  rw [rowOf, cachePosition_fill]
  have first : (restore.requests row).offset 0 = 0 := rfl
  rw [first, Nat.zero_add]
  rfl

theorem placed_ne_nil (row : List Int) (rowId first : Nat) :
    placed (restore.fill row) rowId first ≠ [] := by
  have columns : (List.range restore.wt).length ≠ 0 := by
    rw [List.length_range]
    exact Nat.ne_of_gt restore.columns
  intro nothing
  have size := congrArg List.length nothing
  rw [placed, List.length_append, List.length_map, List.length_map] at size
  exact columns (Nat.eq_zero_of_add_eq_zero_right size)

/-- A negative entry is skipped. -/
theorem rowOf_negative {row : List Int} {tile : Nat}
    (read : row.getD (restore.position tile / restore.blockSize) (-1) = -1) (head : Nat) :
    rowOf (restore.fill row) (restore.requests row) head 0 tile = [] := by
  rw [rowOf_fill, blockOf_fill, read]
  exact if_neg not_live_toWord_neg

/-- An entry of zero is skipped; any other is written to. -/
theorem rowOf_entry {row : List Int} {tile : Nat} {entry : Int}
    (read : row.getD (restore.position tile / restore.blockSize) (-1) = entry)
    (natural : 0 ≤ entry) (small : entry < 2 ^ 31) (head : Nat) :
    rowOf (restore.fill row) (restore.requests row) head 0 tile =
      if entry = 0 then []
      else
        placed (restore.fill row) (head * restore.totalTokensT + tile)
          (tileOf (restore.fill row) entry.toNat head
            (restore.position tile % restore.blockSize)) := by
  rw [rowOf_fill, blockOf_fill, read]
  by_cases zero : entry = 0
  · rw [if_pos zero, if_neg fun live => (live_toWord natural small).mp live zero]
  · rw [if_neg zero, if_pos ((live_toWord natural small).mpr zero),
      toWord_of_nonneg natural small]

/-- Entries below the number of blocks name blocks of the cache. -/
theorem backed_of_entries {row : List Int} {numBlocks : Nat}
    (size : numBlocks * restore.blockStride ≤ wordRange) (few : numBlocks ≤ 2 ^ 31)
    (entries : ∀ tile < restore.tiles,
      row.getD (restore.position tile / restore.blockSize) (-1) = -1 ∨
        (0 ≤ row.getD (restore.position tile / restore.blockSize) (-1) ∧
          row.getD (restore.position tile / restore.blockSize) (-1) < numBlocks)) :
    Backed (restore.fill row) (restore.requests row) numBlocks := by
  refine ⟨size, fun {reqIdx localTile tile} owns live => ?_⟩
  have first : reqIdx = 0 := Nat.lt_one_iff.mp owns.listed
  subst first
  have place : tile = localTile := owns.place.trans (Nat.zero_add localTile)
  have inside : tile < restore.tiles := by
    have below := owns.below
    rwa [Restore.requests, List.sum_singleton] at below
  rw [place] at inside
  rw [blockOf_fill] at live ⊢
  obtain negative | ⟨natural, below⟩ := entries localTile inside
  · rw [negative] at live
    exact absurd live not_live_toWord_neg
  · rw [toWord_of_nonneg natural (by omega)]
    omega

/-! ## One device -/

/-- The slots of the chunks are slots of the device's cache, or those of padding tokens. -/
structure OnDevice (restore : Restore Tile) (numBlocks : Nat) : Prop where
  slots : ∀ tile < restore.tiles, restore.slot tile = -1 ∨
    (0 ≤ restore.slot tile ∧ restore.slot tile / restore.blockSize < numBlocks)
  few : numBlocks ≤ 2 ^ 31
  size : numBlocks * restore.blockStride ≤ wordRange

/-- The table of one device. -/
def Restore.deviceRow (restore : Restore Tile) : List Int :=
  pageTableRow restore.blockSize restore.seqSlots

theorem blockSize_pos (restore : Restore Tile) : (0 : Int) < restore.blockSize :=
  Int.natCast_pos.mpr (Nat.mul_pos (Nat.succ_pos 31) restore.rows)

theorem neg_one_div (restore : Restore Tile) : (-1 : Int) / restore.blockSize = -1 := by
  rw [Int.neg_one_ediv, Int.sign_eq_one_of_pos (blockSize_pos restore)]

theorem getD_deviceRow {tile : Nat} (inside : tile < restore.tiles) :
    restore.deviceRow.getD (restore.position tile / restore.blockSize) (-1) =
      restore.slot tile / restore.blockSize :=
  getD_mapped (· / (restore.blockSize : Int)) inside

/-- On one device exactly what is wanted is written. -/
theorem device_restores {numBlocks : Nat} (onDevice : OnDevice restore numBlocks) {tile : Nat}
    (inside : tile < restore.tiles) (head : Nat) :
    rowOf (restore.fill restore.deviceRow) (restore.requests restore.deviceRow) head 0 tile =
      restore.wanted restore.deviceRow 0 head tile := by
  have few := onDevice.few
  have read := getD_deviceRow inside
  rw [Restore.wanted]
  obtain negative | ⟨natural, below⟩ := onDevice.slots tile inside
  · rw [negative, neg_one_div] at read
    rw [rowOf_negative read, if_pos (.inl (negative ▸ by decide))]
  · have entry : 0 ≤ restore.slot tile / restore.blockSize :=
      Int.ediv_nonneg natural (Int.le_of_lt (blockSize_pos restore))
    rw [rowOf_entry read entry (by omega)]
    by_cases null : restore.slot tile / restore.blockSize = 0
    · rw [if_pos null, if_pos (.inr null)]
    · have real : ¬ Restore.Padding restore.blockSize (restore.slot tile) := by
        rintro (negative | zero)
        · exact absurd natural (Int.not_le.mpr negative)
        · exact null zero
      rw [if_neg null, if_neg real, Int.natCast_zero, Int.sub_zero]

theorem device_backed {numBlocks : Nat} (onDevice : OnDevice restore numBlocks) :
    Backed (restore.fill restore.deviceRow) (restore.requests restore.deviceRow) numBlocks := by
  refine backed_of_entries onDevice.size onDevice.few fun tile inside => ?_
  rw [getD_deviceRow inside]
  refine (onDevice.slots tile inside).imp (fun negative => ?_) fun ⟨natural, below⟩ => ?_
  · rw [negative, neg_one_div]
  · exact ⟨Int.ediv_nonneg natural (Int.le_of_lt (blockSize_pos restore)), below⟩

/-! ## A mesh -/

/-- The sequence belongs to one group of a mesh: the slots of the chunks are slots of its
blocks, or those of padding tokens. -/
structure OnGroup (restore : Restore Tile) (dpSize blocksPerDp dp : Nat) : Prop where
  first : ∃ slot : Int, restore.seqSlots[0]? = some slot ∧
    slot / restore.blockSize / blocksPerDp = dp
  group : dp < dpSize
  slots : ∀ tile < restore.tiles, restore.slot tile = -1 ∨
    restore.slot tile / restore.blockSize / blocksPerDp = dp
  blocks : 0 < blocksPerDp
  few : blocksPerDp ≤ 2 ^ 31
  size : blocksPerDp * restore.blockStride ≤ wordRange

/-- The row of the group that owns the sequence. -/
def Restore.ownerRow (restore : Restore Tile) (blocksPerDp : Nat) : List Int :=
  localRow restore.blockSize blocksPerDp restore.seqSlots

/-- The row of the other groups. -/
def Restore.otherRow (restore : Restore Tile) : List Int :=
  List.replicate (numBlocksInSeq restore.blockSize restore.seqSlots) (-1)

variable {dpSize blocksPerDp dp : Nat}

/-- The table has the owner's row for the owner and the other row for the others. -/
theorem multidevPageTable_eq (onGroup : OnGroup restore dpSize blocksPerDp dp) :
    multidevPageTable dpSize restore.blockSize blocksPerDp restore.seqSlots =
      some ((List.replicate dpSize restore.otherRow).set dp (restore.ownerRow blocksPerDp)) := by
  obtain ⟨slot, head, owner⟩ := onGroup.first
  have group := onGroup.group
  have index : rowIndex dpSize dp = some dp := by
    rw [rowIndex, if_pos ⟨by omega, by omega⟩, Int.toNat_natCast]
  rw [multidevPageTable, head, Option.bind_eq_bind, Option.bind_some, owner, index]
  rfl

theorem getD_table (restore : Restore Tile) (owner : List Int) {group : Nat}
    (listed : group < dpSize) :
    ((List.replicate dpSize restore.otherRow).set dp owner).getD group [] =
      if group = dp then owner else restore.otherRow := by
  rw [List.getD_eq_getElem _ _ (by simpa using listed), List.getElem_set, List.getElem_replicate]
  by_cases same : dp = group
  · rw [if_pos same, if_pos same.symm]
  · rw [if_neg same, if_neg (Ne.symm same)]

/-- The other groups write nothing. -/
theorem other_writes_nothing (restore : Restore Tile) (head tile : Nat) :
    rowOf (restore.fill restore.otherRow) (restore.requests restore.otherRow) head 0 tile = [] := by
  refine rowOf_negative ?_ head
  rw [Restore.otherRow, List.getD_eq_getElem?_getD, List.getElem?_replicate]
  split
  · rfl
  · rfl

theorem getD_ownerRow {tile : Nat} (inside : tile < restore.tiles) :
    (restore.ownerRow blocksPerDp).getD (restore.position tile / restore.blockSize) (-1) =
      restore.slot tile / restore.blockSize % blocksPerDp :=
  getD_mapped (· / (restore.blockSize : Int) % (blocksPerDp : Int)) inside

/-- A slot that the writer treats as the restore means it: the first block of a group is the
null block, and padding has an entry that is skipped. -/
def Sound (blockSize blocksPerDp : Nat) (slot : Int) : Prop :=
  (0 ≤ slot → slot / (blockSize : Int) ≠ 0 → slot / (blockSize : Int) % blocksPerDp ≠ 0) ∧
    (slot < 0 → blocksPerDp = 1)

theorem emod_bounds (blocks : 0 < blocksPerDp) (block : Int) :
    0 ≤ block % (blocksPerDp : Int) ∧ block % (blocksPerDp : Int) < blocksPerDp :=
  ⟨Int.emod_nonneg block (by omega), Int.emod_lt_of_pos block (by omega)⟩

/-- What the owner writes for a tile is what is wanted exactly where the slot is sound. -/
theorem owner_restores_iff (onGroup : OnGroup restore dpSize blocksPerDp dp) {tile : Nat}
    (inside : tile < restore.tiles) (head : Nat) :
    rowOf (restore.fill (restore.ownerRow blocksPerDp))
        (restore.requests (restore.ownerRow blocksPerDp)) head 0 tile =
      restore.wanted (restore.ownerRow blocksPerDp) (dp * blocksPerDp) head tile ↔
    Sound restore.blockSize blocksPerDp (restore.slot tile) := by
  have few := onGroup.few
  obtain ⟨natural, below⟩ := emod_bounds onGroup.blocks (restore.slot tile / restore.blockSize)
  rw [rowOf_entry (getD_ownerRow inside) natural (by omega), Restore.wanted]
  obtain negative | owned := onGroup.slots tile inside
  · have padding : Restore.Padding restore.blockSize (restore.slot tile) :=
      .inl (negative ▸ by decide)
    have unit : restore.slot tile / restore.blockSize % (blocksPerDp : Int) = 0 ↔
        blocksPerDp = 1 := by
      rw [negative, neg_one_div, ← Int.dvd_iff_emod_eq_zero, Int.dvd_neg]
      exact_mod_cast Nat.dvd_one
    rw [if_pos padding, ite_eq_left_iff]
    constructor
    · refine fun written => ⟨fun real => absurd real (by omega), fun _ => unit.mp ?_⟩
      exact not_imp_comm.mp written (placed_ne_nil _ _ _)
    · exact fun sound entry => absurd (unit.mpr (sound.2 (by omega))) entry
  · have block : 0 ≤ restore.slot tile / restore.blockSize := by
      have group : 0 ≤ restore.slot tile / restore.blockSize / (blocksPerDp : Int) := by omega
      exact (Int.ediv_nonneg_iff_of_pos (by omega)).mp group
    have real : 0 ≤ restore.slot tile :=
      (Int.ediv_nonneg_iff_of_pos (blockSize_pos restore)).mp block
    have entry : restore.slot tile / restore.blockSize % blocksPerDp =
        restore.slot tile / restore.blockSize - (dp * blocksPerDp : Nat) := by
      rw [Int.emod_def, owned, Int.mul_comm]
      rfl
    by_cases null : restore.slot tile / restore.blockSize = 0
    · have zero : restore.slot tile / restore.blockSize % (blocksPerDp : Int) = 0 := by
        rw [null]
        rfl
      rw [if_pos zero, if_pos (.inr null)]
      exact ⟨fun _ => ⟨fun _ other => absurd null other, fun negative => by omega⟩, fun _ => rfl⟩
    · have kept : ¬ Restore.Padding restore.blockSize (restore.slot tile) := by
        rintro (negative | zero)
        · omega
        · exact null zero
      rw [if_neg kept, ← entry]
      constructor
      · refine fun written => ⟨fun _ _ zero => ?_, fun negative => by omega⟩
        rw [if_pos zero] at written
        exact placed_ne_nil _ _ _ written.symm
      · exact fun sound => if_neg (sound.1 real null)

theorem owner_backed (onGroup : OnGroup restore dpSize blocksPerDp dp) :
    Backed (restore.fill (restore.ownerRow blocksPerDp))
      (restore.requests (restore.ownerRow blocksPerDp)) blocksPerDp := by
  refine backed_of_entries onGroup.size onGroup.few fun tile inside => ?_
  rw [getD_ownerRow inside]
  exact .inr (emod_bounds onGroup.blocks _)

theorem other_backed (onGroup : OnGroup restore dpSize blocksPerDp dp) :
    Backed (restore.fill restore.otherRow) (restore.requests restore.otherRow) blocksPerDp := by
  refine backed_of_entries onGroup.size onGroup.few fun tile _ => .inl ?_
  rw [Restore.otherRow, List.getD_eq_getElem?_getD, List.getElem?_replicate]
  split
  · rfl
  · rfl

end Restore

end KvCache.Lmcache.RestoreTable
