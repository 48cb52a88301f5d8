import KvCache.Lmcache.PagedFill
import Mathlib.Algebra.BigOperators.Group.List.Basic
import Mathlib.Tactic.Ring

/-!
# Each tile to its place

The two kernels agree on the rows that they skip, so the writer takes exactly what the reader
puts and neither waits for ever. Together the cores write each tile of each row of a request
once, to the block that the request's page table names for the row's position, and nothing
else; where the table names no block the row is dropped.
-/

namespace KvCache.Lmcache.PagedFill

open BinarySearch Pipeline

/-! ## Requests -/

/-- The lengths of the requests of a batch, in tiles. -/
structure Requests (maxBatchSize : Nat) where
  lengths : List Nat
  few : lengths.length ≤ maxBatchSize
  small : 32 * lengths.sum < 2 ^ 31

namespace Requests

variable {maxBatchSize : Nat} (requests : Requests maxBatchSize)

/-- The tiles before a request. -/
def offset (reqIdx : Nat) : Nat := (requests.lengths.take reqIdx).sum

/-- The cumulative lengths in tokens, padded behind the last request. -/
def cuSeqlens (reqIdx : Nat) : Nat :=
  if reqIdx ≤ requests.lengths.length then 32 * requests.offset reqIdx else noRequest

/-- A tile of the batch is one of the tiles of a request. -/
structure Owns (reqIdx localTile tile : Nat) : Prop where
  listed : reqIdx < requests.lengths.length
  place : tile = requests.offset reqIdx + localTile
  short : tile < requests.offset (reqIdx + 1)

theorem offset_mono {less more : Nat} (order : less ≤ more) :
    requests.offset less ≤ requests.offset more := by
  rw [offset, offset, ← List.take_append_drop less (requests.lengths.take more), List.take_take,
    Nat.min_eq_left order, List.sum_append]
  exact Nat.le_add_right _ _

theorem offset_length : requests.offset requests.lengths.length = requests.lengths.sum := by
  rw [offset, List.take_length]

theorem offset_succ {reqIdx : Nat} (listed : reqIdx < requests.lengths.length) :
    requests.offset (reqIdx + 1) = requests.offset reqIdx + requests.lengths[reqIdx] := by
  rw [offset, offset, List.take_succ_eq_append_getElem listed, List.sum_append, List.sum_singleton]

theorem owns {reqIdx localTile : Nat} (listed : reqIdx < requests.lengths.length)
    (short : localTile < requests.lengths[reqIdx]) :
    requests.Owns reqIdx localTile (requests.offset reqIdx + localTile) :=
  ⟨listed, rfl, by rw [requests.offset_succ listed]; omega⟩

variable {requests} in
theorem Owns.below {reqIdx localTile tile : Nat} (owns : requests.Owns reqIdx localTile tile) :
    tile < requests.lengths.sum := by
  have last : requests.offset (reqIdx + 1) ≤ requests.lengths.sum :=
    requests.offset_length ▸ requests.offset_mono owns.listed
  exact Nat.lt_of_lt_of_le owns.short last

end Requests

section Fill

variable {Tile : Type} {fill : Fill Tile}

/-- The lengths and the starts that a fill carries are those of its requests, and they fit. -/
structure Describes (fill : Fill Tile) (requests : Requests fill.maxBatchSize) : Prop where
  lengths : ∀ reqIdx ≤ fill.maxBatchSize, fill.cuSeqlens reqIdx = requests.cuSeqlens reqIdx
  total : requests.lengths.sum ≤ fill.totalTokensT
  width : 32 * fill.totalTokensT ≤ wordRange
  starts : ∀ reqIdx < requests.lengths.length,
    32 ∣ fill.startPositions reqIdx ∧ fill.startPositions reqIdx < 2 ^ 31

variable {requests : Requests fill.maxBatchSize}

theorem Describes.at_request (described : Describes fill requests) {reqIdx : Nat}
    (listed : reqIdx ≤ requests.lengths.length) :
    fill.cuSeqlens reqIdx = 32 * requests.offset reqIdx := by
  rw [described.lengths reqIdx (Nat.le_trans listed requests.few), Requests.cuSeqlens, if_pos listed]

theorem Describes.behind (described : Describes fill requests) {reqIdx : Nat}
    (behind : requests.lengths.length < reqIdx) (limit : reqIdx ≤ fill.maxBatchSize) :
    fill.cuSeqlens reqIdx = noRequest := by
  rw [described.lengths reqIdx limit, Requests.cuSeqlens, if_neg (Nat.not_le.mpr behind)]

theorem Describes.offset_small (described : Describes fill requests) {reqIdx : Nat}
    (listed : reqIdx ≤ requests.lengths.length) : fill.cuSeqlens reqIdx < noRequest := by
  have last := requests.offset_mono listed
  rw [requests.offset_length] at last
  have small := requests.small
  rw [described.at_request listed, noRequest]
  omega

/-- Both kernels find the number of tokens. -/
theorem actualTotalTokens_eq (described : Describes fill requests) :
    actualTotalTokens fill = 32 * requests.lengths.sum := by
  have found : lastTrue (fun mid => fill.cuSeqlens mid != noRequest) 0 fill.maxBatchSize =
      requests.lengths.length := by
    refine lastTrue_eq requests.few (fun less listed => ?_) fun more behind limit => ?_
    · exact bne_iff_ne.mpr (Nat.ne_of_lt (described.offset_small listed))
    · rw [described.behind behind limit]
      exact bne_self_eq_false noRequest
  rw [actualTotalTokens, found, described.at_request (Nat.le_refl _), requests.offset_length]

/-- The search finds the owner of a tile. -/
theorem findRequestIdx_eq (described : Describes fill requests) {reqIdx localTile tile : Nat}
    (owns : requests.Owns reqIdx localTile tile) :
    findRequestIdx fill (tile * tileSize) = reqIdx := by
  obtain ⟨listed, begun, unended⟩ := owns
  refine lastTrue_eq (Nat.le_trans (Nat.le_of_lt listed) requests.few)
    (fun less order => ?_) fun more later limit => ?_
  · have before := requests.offset_mono order
    rw [described.at_request (by omega)]
    refine decide_eq_true ?_
    rw [tileSize]
    omega
  · refine decide_eq_false ?_
    rw [tileSize]
    by_cases inside : more ≤ requests.lengths.length
    · have after : requests.offset (reqIdx + 1) ≤ requests.offset more :=
        requests.offset_mono later
      rw [described.at_request inside]
      omega
    · have last : requests.offset (reqIdx + 1) ≤ requests.lengths.sum :=
        requests.offset_length ▸ requests.offset_mono listed
      have small := requests.small
      rw [described.behind (Nat.not_le.mp inside) limit, noRequest]
      omega

theorem globalTokenPos_eq (described : Describes fill requests) {rowId : Nat}
    (inside : 0 < fill.totalTokensT) :
    globalTokenPos fill rowId = rowId % fill.totalTokensT * tileSize := by
  have width := described.width
  have below := Nat.mod_lt rowId inside
  refine Nat.mod_eq_of_lt ?_
  rw [tileSize]
  omega

theorem skipped_iff (described : Describes fill requests) {rowId : Nat}
    (inside : 0 < fill.totalTokensT) :
    Skipped fill rowId ↔ requests.lengths.sum ≤ rowId % fill.totalTokensT := by
  rw [Skipped, actualTotalTokens_eq described, globalTokenPos_eq described inside, tileSize]
  omega

/-! ## Places -/

/-- The position of a tile's tokens in the cache of its request. -/
def cachePosition (fill : Fill Tile) (reqIdx localTile : Nat) : Nat :=
  fill.startPositions reqIdx + 32 * localTile

/-- The tokens of a block. -/
def blockSize (fill : Fill Tile) : Nat := 32 * fill.blockSizeT

/-- The first tile for a token of a block, under a head. -/
def tileOf (fill : Fill Tile) (block head token : Nat) : Nat :=
  ((block * fill.numKvHeads + head) * fill.blockSizeT + token / 32) * fill.wt

/-- The block for a tile. -/
def blockOf (fill : Fill Tile) (reqIdx localTile : Nat) : Nat :=
  fill.pageTable reqIdx (cachePosition fill reqIdx localTile / blockSize fill)

/-- The blocks that the page tables name for the batch are blocks of a cache, which has no more
tiles than there are words. -/
structure Backed (fill : Fill Tile) (requests : Requests fill.maxBatchSize) (numBlocks : Nat) :
    Prop where
  size : numBlocks * (fill.numKvHeads * fill.blockSizeT * fill.wt) ≤ wordRange
  blocks : ∀ {reqIdx localTile tile : Nat}, requests.Owns reqIdx localTile tile →
    Live (blockOf fill reqIdx localTile) → blockOf fill reqIdx localTile < numBlocks

/-- The writes of a row: each of its tiles to its place in both caches. -/
def placed (fill : Fill Tile) (row first : Nat) : List (Write Tile) :=
  ((List.range fill.wt).map fun w => ⟨.k, first + w, .tile (fill.kFill (row * fill.wt + w))⟩) ++
    (List.range fill.wt).map fun w => ⟨.v, first + w, .tile (fill.vFill (row * fill.wt + w))⟩

/-- What is written for a tile of a request under a head. -/
def rowOf (fill : Fill Tile) (requests : Requests fill.maxBatchSize) (head reqIdx localTile : Nat) :
    List (Write Tile) :=
  if Live (blockOf fill reqIdx localTile) then
    placed fill (head * fill.totalTokensT + (requests.offset reqIdx + localTile))
      (tileOf fill (blockOf fill reqIdx localTile) head
        (cachePosition fill reqIdx localTile % blockSize fill))
  else []

/-- What the writer does with a row. -/
def rowWrites (fill : Fill Tile) (rowId : Nat) : List (Write Tile) :=
  if Skipped fill rowId then []
  else
    let reqIdx := findRequestIdx fill (globalTokenPos fill rowId)
    match physicalTileId fill (fill.pageTable reqIdx) reqIdx rowId with
    | some first => placed fill rowId first
    | none => []

theorem row_parts (head : Nat) {tile width : Nat} (inside : tile < width) :
    (head * width + tile) / width = head ∧ (head * width + tile) % width = tile := by
  constructor
  · rw [Nat.mul_comm, Nat.mul_add_div (Nat.zero_lt_of_lt inside), Nat.div_eq_of_lt inside,
      Nat.add_zero]
  · rw [Nat.mul_comm, Nat.mul_add_mod, Nat.mod_eq_of_lt inside]

/-- A row behind the last token is not written. -/
theorem rowWrites_skipped (described : Describes fill requests) {head tile : Nat}
    (inside : tile < fill.totalTokensT) (behind : requests.lengths.sum ≤ tile) :
    rowWrites fill (head * fill.totalTokensT + tile) = [] := by
  have skipped : Skipped fill (head * fill.totalTokensT + tile) := by
    rw [skipped_iff described (Nat.zero_lt_of_lt inside), (row_parts head inside).2]
    exact behind
  exact if_pos skipped

theorem tileOf_eq (fill : Fill Tile) (block head token : Nat) :
    tileOf fill block head token = block * (fill.numKvHeads * fill.blockSizeT * fill.wt) +
      head * fill.blockSizeT * fill.wt + token / 32 * fill.wt := by
  rw [tileOf]
  ring

/-- The tiles of a block lie within the cache. -/
theorem tileOf_lt (columns : 0 < fill.wt) {numBlocks block head token : Nat}
    (backed : block < numBlocks) (heads : head < fill.numKvHeads)
    (inside : token / 32 < fill.blockSizeT) :
    tileOf fill block head token < numBlocks * (fill.numKvHeads * fill.blockSizeT * fill.wt) := by
  have plane : block * fill.numKvHeads + head + 1 ≤ numBlocks * fill.numKvHeads := by
    have more := Nat.mul_le_mul_right fill.numKvHeads (Nat.succ_le_of_lt backed)
    rw [Nat.succ_mul] at more
    omega
  have row : (block * fill.numKvHeads + head) * fill.blockSizeT + token / 32 <
      numBlocks * fill.numKvHeads * fill.blockSizeT := by
    have more := Nat.mul_le_mul_right fill.blockSizeT plane
    rw [Nat.succ_mul] at more
    omega
  rw [tileOf, ← Nat.mul_assoc, ← Nat.mul_assoc]
  exact Nat.mul_lt_mul_of_pos_right row columns

/-- The writer's address is that of the token's row in its block. -/
theorem physicalTileId_eq (described : Describes fill requests) {numBlocks : Nat}
    (backed : Backed fill requests numBlocks) (columns : 0 < fill.wt)
    (rows : 0 < fill.blockSizeT) {head reqIdx localTile tile : Nat} (heads : head < fill.numKvHeads)
    (owns : requests.Owns reqIdx localTile tile) :
    physicalTileId fill (fill.pageTable reqIdx) reqIdx (head * fill.totalTokensT + tile) =
      if Live (blockOf fill reqIdx localTile) then
        some (tileOf fill (blockOf fill reqIdx localTile) head
          (cachePosition fill reqIdx localTile % blockSize fill))
      else none := by
  have inside : tile < fill.totalTokensT := Nat.lt_of_lt_of_le owns.below described.total
  obtain ⟨quotient, remainder⟩ := row_parts head inside
  have position : (globalTokenPos fill (head * fill.totalTokensT + tile) -
      fill.cuSeqlens reqIdx + fill.startPositions reqIdx) % wordRange =
        cachePosition fill reqIdx localTile := by
    have small := requests.small
    have start := (described.starts reqIdx owns.listed).2
    have below := owns.below
    have place := owns.place
    rw [globalTokenPos_eq described (Nat.zero_lt_of_lt inside), remainder,
      described.at_request (Nat.le_of_lt owns.listed), cachePosition, tileSize, wordRange]
    omega
  have block : cachePosition fill reqIdx localTile / 32 / fill.blockSizeT =
      cachePosition fill reqIdx localTile / blockSize fill := Nat.div_div_eq_div_mul _ _ _
  have row : cachePosition fill reqIdx localTile / 32 % fill.blockSizeT =
      cachePosition fill reqIdx localTile % blockSize fill / 32 :=
    (Nat.mod_mul_right_div_self _ _ _).symm
  have entry : fill.pageTable reqIdx (cachePosition fill reqIdx localTile / blockSize fill) =
      blockOf fill reqIdx localTile := rfl
  simp only [physicalTileId, quotient, position, tileSize, block, row, entry]
  by_cases live : Live (blockOf fill reqIdx localTile)
  · have limit := tileOf_lt columns (backed.blocks owns live) heads
      (row ▸ Nat.mod_lt _ rows)
    have whole := Nat.mod_eq_of_lt (Nat.lt_of_lt_of_le limit backed.size)
    have stride : 0 < fill.numKvHeads * fill.blockSizeT * fill.wt :=
      Nat.mul_pos (Nat.mul_pos (Nat.zero_lt_of_lt heads) rows) columns
    have first := Nat.mul_pos (Nat.pos_of_ne_zero live.1) stride
    rw [if_pos live, if_pos live, ← tileOf_eq, whole, if_pos]
    rw [tileOf_eq, skipPageTableEntry]
    omega
  · rw [if_neg live, if_neg live]

/-- A row of a request goes where its page table says. -/
theorem rowWrites_owned (described : Describes fill requests) {numBlocks : Nat}
    (backed : Backed fill requests numBlocks) (columns : 0 < fill.wt)
    (rows : 0 < fill.blockSizeT) {head reqIdx localTile tile : Nat} (heads : head < fill.numKvHeads)
    (owns : requests.Owns reqIdx localTile tile) :
    rowWrites fill (head * fill.totalTokensT + tile) = rowOf fill requests head reqIdx localTile := by
  have inside : tile < fill.totalTokensT := Nat.lt_of_lt_of_le owns.below described.total
  have remainder := (row_parts head inside).2
  have unskipped : ¬ Skipped fill (head * fill.totalTokensT + tile) := by
    rw [skipped_iff described (Nat.zero_lt_of_lt inside), remainder]
    exact Nat.not_le.mpr owns.below
  have found : findRequestIdx fill (globalTokenPos fill (head * fill.totalTokensT + tile)) =
      reqIdx := by
    rw [globalTokenPos_eq described (Nat.zero_lt_of_lt inside), remainder,
      findRequestIdx_eq described owns]
  rw [rowWrites, if_neg unskipped, found]
  dsimp only
  rw [physicalTileId_eq described backed columns rows heads owns, rowOf, ← owns.place]
  by_cases live : Live (blockOf fill reqIdx localTile)
  · rw [if_pos live, if_pos live]
  · rw [if_neg live, if_neg live]

end Fill

end KvCache.Lmcache.PagedFill
