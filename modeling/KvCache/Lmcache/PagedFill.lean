import KvCache.Foundation.BinarySearch
import KvCache.Foundation.Pipeline
import Mathlib

/-!
# The paged fill

A fill holds the keys and values of a batch of requests, their tokens one behind the other. On
each core a reader streams rows of its tiles into circular buffers, and a writer takes them out
and writes them to the blocks of a paged cache: the request that owns a row and the position of
the row in it select an entry of the request's page table.

Both kernels skip the rows behind the last token, each on its own. An entry of zero or below
names no block; the writer takes the tiles of such a row and drops them.
-/

namespace KvCache.Lmcache.PagedFill

open BinarySearch Pipeline

/-- The circular buffers that reader and writer share. -/
inductive Cb where
  | cuSeqlens
  | k
  | v
deriving DecidableEq, Repr

/-- What a circular buffer holds: a stick of words, or a tile. -/
inductive Page (Tile : Type) where
  | stick
  | tile (value : Tile)

/-- The tensors of a fill, in tiles and 32-bit words. -/
structure Fill (Tile : Type) where
  numKvHeads : Nat
  totalTokensT : Nat
  blockSizeT : Nat
  wt : Nat
  maxBatchSize : Nat
  cuSeqlens : Nat → Nat
  startPositions : Nat → Nat
  pageTable : Nat → Nat → Nat
  kFill : Nat → Tile
  vFill : Nat → Tile

/-- The word behind the last request. -/
def noRequest : Nat := 0xFFFFFFFF

def tileSize : Nat := 32

/-- The kernels compute with 32-bit words. -/
def wordRange : Nat := 2 ^ 32

/-- The null block. -/
def skipPageTableEntry : Nat := 0

/-- An entry of a page table names a block: it is above zero as a signed word. -/
def Live (physicalBlock : Nat) : Prop :=
  physicalBlock ≠ skipPageTableEntry ∧ physicalBlock < 2 ^ 31

instance (physicalBlock : Nat) : Decidable (Live physicalBlock) := by
  unfold Live
  infer_instance

section Kernels

variable {Tile : Type} (fill : Fill Tile)

/-- The number of tokens: the last word before the padding. -/
def actualTotalTokens : Nat :=
  fill.cuSeqlens (lastTrue (fun mid => fill.cuSeqlens mid != noRequest) 0 fill.maxBatchSize)

/-- The last request that begins at or before a position. -/
def findRequestIdx (tokenPos : Nat) : Nat :=
  lastTrue (fun mid => decide (fill.cuSeqlens mid ≤ tokenPos)) 0 fill.maxBatchSize

/-- The position of a row in the batch. -/
def globalTokenPos (rowId : Nat) : Nat := rowId % fill.totalTokensT * tileSize % wordRange

/-- A row behind the last token. -/
def Skipped (rowId : Nat) : Prop := actualTotalTokens fill ≤ globalTokenPos fill rowId

instance (rowId : Nat) : Decidable (Skipped fill rowId) := by
  unfold Skipped
  infer_instance

/-- The pages of a row of tiles. -/
def tilesFrom (tiles : Nat → Tile) (tileId : Nat) : List (Page Tile) :=
  (List.range fill.wt).map fun w => .tile (tiles (tileId + w))

/-- What the reader puts for its rows. -/
def readerRows : Nat → Nat → Nat → List (Batch Cb (Page Tile))
  | 0, _, _ => []
  | numRows + 1, rowId, tileId =>
    if Skipped fill rowId then readerRows numRows (rowId + 1) (tileId + fill.wt)
    else
      ⟨.k, tilesFrom fill fill.kFill tileId⟩ :: ⟨.v, tilesFrom fill fill.vFill tileId⟩ ::
        readerRows numRows (rowId + 1) (tileId + fill.wt)

/-- The reader: the lengths of the requests for the writer, then the rows. -/
def reader (startTileId numRows : Nat) : List (Batch Cb (Page Tile)) :=
  ⟨.cuSeqlens, [.stick]⟩ :: readerRows fill numRows (startTileId / fill.wt) startTileId

/-- Where the writer puts a row's tiles: a cache and its first tile there, or nowhere. -/
abbrev Target := Option (Cb × Nat)

/-- The first tile of a row in the cache. -/
def physicalTileId (table : Nat → Nat) (reqIdx rowId : Nat) : Option Nat :=
  let curHead := rowId / fill.totalTokensT
  let localTokenPos := globalTokenPos fill rowId - fill.cuSeqlens reqIdx
  let cacheTokenPos := (localTokenPos + fill.startPositions reqIdx) % wordRange
  let cacheSeqTile := cacheTokenPos / tileSize
  let physicalBlock := table (cacheSeqTile / fill.blockSizeT)
  if Live physicalBlock then
    let headOffset := curHead * fill.blockSizeT * fill.wt
    let blockOffset := cacheSeqTile % fill.blockSizeT * fill.wt
    let blockStride := fill.numKvHeads * fill.blockSizeT * fill.wt
    let physicalTileId := (physicalBlock * blockStride + headOffset + blockOffset) % wordRange
    if physicalTileId ≠ skipPageTableEntry then some physicalTileId else none
  else none

/-- The page table of a request, loaded where it is not the one at hand. The writer's own buffer
holds one page: the old one is popped before another is reserved, else the writer waits for
ever. -/
def loadTable (reqIdx : Nat) (cached : Option (Nat × (Nat → Nat))) (pages : Nat) :
    Option ((Nat → Nat) × Nat) :=
  let reserve (pages : Nat) : Option ((Nat → Nat) × Nat) :=
    if pages < 1 then some (fill.pageTable reqIdx, pages + 1) else none
  match cached with
  | some (cachedReqIdx, table) =>
    if reqIdx ≠ cachedReqIdx then reserve (pages - 1) else some (table, pages)
  | none => reserve pages

/-- What the writer takes for its rows, or that it waits for ever on its own buffer. -/
def writerRows : Nat → Nat → Option (Nat × (Nat → Nat)) → Nat → Option (List (Request Cb Target))
  | 0, _, _, _ => some []
  | numRows + 1, rowId, cached, pages =>
    if Skipped fill rowId then writerRows numRows (rowId + 1) cached pages
    else do
      let reqIdx := findRequestIdx fill (globalTokenPos fill rowId)
      let (table, pages) ← loadTable fill reqIdx cached pages
      let tileId := physicalTileId fill table reqIdx rowId
      let later ← writerRows numRows (rowId + 1) (some (reqIdx, table)) pages
      return ⟨.k, fill.wt, tileId.map (.k, ·)⟩ :: ⟨.v, fill.wt, tileId.map (.v, ·)⟩ :: later

/-- The writer: it waits for the lengths, then takes its rows. The lengths stay in their buffer
to the end; nothing else is put there. -/
def writer (startRowNum numRows : Nat) : Option (List (Request Cb Target)) := do
  let rows ← writerRows fill numRows startRowNum none 0
  return ⟨.cuSeqlens, 1, none⟩ :: rows

/-- The sizes of the circular buffers. -/
def capacity : Cb → Nat
  | .cuSeqlens => 1
  | .k => fill.wt * 2
  | .v => fill.wt * 2

end Kernels

/-! ## Cores -/

/-- The first row and the rows of each core, from a row on. -/
def coresFrom : Nat → List Nat → List (Nat × Nat)
  | _, [] => []
  | written, rows :: rest => (written, rows) :: coresFrom (written + rows) rest

/-- A tile written to one of the caches. -/
structure Write (Tile : Type) where
  cache : Cb
  tile : Nat
  value : Page Tile

/-- The writes of what the writer took. -/
def writesOf {Tile : Type} (taken : List (Target × List (Page Tile))) : List (Write Tile) :=
  taken.flatMap fun (target, pages) =>
    match target with
    | some (cache, tile) => pages.mapIdx fun w page => ⟨cache, tile + w, page⟩
    | none => []

/-- The caches after some writes. -/
def applyWrites {Tile : Type} (writes : List (Write Tile)) (caches : Cb → Nat → Page Tile) :
    Cb → Nat → Page Tile :=
  writes.foldl (fun caches write => Function.update caches write.cache
    (Function.update (caches write.cache) write.tile write.value)) caches

end KvCache.Lmcache.PagedFill
