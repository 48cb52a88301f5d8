import KvCache.Lmcache.PagedFillCores
import Mathlib.Data.List.GetD
import Mathlib.Data.List.Perm.Basic

/-!
# The caches after a fill

The rows of a fill, in any split over cores, are the tiles of its requests under each head and
the padding behind them. So the cores together write each tile of each request once, whatever
the order in which their writes arrive: a place that no tile names keeps its content, and a
place that one tile names holds that tile at the end.
-/

namespace KvCache.Lmcache.PagedFill

open BinarySearch Pipeline

section Writes

variable {Tile : Type}

/-! ## Applying writes -/

theorem applyWrites_cons (write : Write Tile) (writes : List (Write Tile))
    (caches : Cb → Nat → Page Tile) :
    applyWrites (write :: writes) caches = applyWrites writes
      (Function.update caches write.cache
        (Function.update (caches write.cache) write.tile write.value)) := rfl

/-- One write changes its own place. -/
theorem update_place (write : Write Tile) (caches : Cb → Nat → Page Tile) (cache : Cb)
    (tile : Nat) :
    Function.update caches write.cache (Function.update (caches write.cache) write.tile write.value)
      cache tile =
        if write.cache = cache ∧ write.tile = tile then write.value else caches cache tile := by
  by_cases here : cache = write.cache
  · subst here
    rw [Function.update_self]
    by_cases place : tile = write.tile
    · subst place
      rw [Function.update_self, if_pos ⟨rfl, rfl⟩]
    · rw [Function.update_of_ne place, if_neg fun both => place both.2.symm]
  · rw [Function.update_of_ne here, if_neg fun both => here both.1.symm]

/-- A place that no write names keeps its content. -/
theorem applyWrites_other {writes : List (Write Tile)} {cache : Cb} {tile : Nat}
    (absent : ∀ write ∈ writes, ¬ (write.cache = cache ∧ write.tile = tile))
    (caches : Cb → Nat → Page Tile) :
    applyWrites writes caches cache tile = caches cache tile := by
  induction writes generalizing caches with
  | nil => rfl
  | cons write writes inductionHypothesis =>
    rw [applyWrites_cons,
      inductionHypothesis fun other member => absent other (List.mem_cons_of_mem write member),
      update_place, if_neg (absent write List.mem_cons_self)]

/-- A place holds what all writes to it carry. -/
theorem applyWrites_at {writes : List (Write Tile)} {cache : Cb} {tile : Nat} {value : Page Tile}
    (agree : ∀ write ∈ writes, write.cache = cache → write.tile = tile → write.value = value)
    (caches : Cb → Nat → Page Tile)
    (some_ : caches cache tile = value ∨ ∃ write ∈ writes, write.cache = cache ∧ write.tile = tile) :
    applyWrites writes caches cache tile = value := by
  induction writes generalizing caches with
  | nil =>
    obtain held | ⟨_, member, _⟩ := some_
    · exact held
    · cases member
  | cons write writes inductionHypothesis =>
    rw [applyWrites_cons]
    refine inductionHypothesis (fun other member => agree other (List.mem_cons_of_mem _ member)) _ ?_
    rw [update_place]
    by_cases here : write.cache = cache ∧ write.tile = tile
    · rw [if_pos here]
      exact .inl (agree write List.mem_cons_self here.1 here.2)
    · rw [if_neg here]
      refine some_.imp_right ?_
      rintro ⟨other, member, place⟩
      obtain rfl | later := List.mem_cons.mp member
      · exact absurd place here
      · exact ⟨other, later, place⟩

end Writes

section Rows

variable {Tile : Type} {fill : Fill Tile} {requests : Requests fill.maxBatchSize}

/-! ## All rows -/

/-- The tiles of a request. -/
def Requests.tiles {maxBatchSize : Nat} (requests : Requests maxBatchSize) (reqIdx : Nat) : Nat :=
  requests.lengths.getD reqIdx 0

/-- The writes of every tile of every request under every head, each once. -/
def allRows (fill : Fill Tile) (requests : Requests fill.maxBatchSize) : List (Write Tile) :=
  (List.range fill.numKvHeads).flatMap fun head =>
    (List.range requests.lengths.length).flatMap fun reqIdx =>
      (List.range (requests.tiles reqIdx)).flatMap fun localTile =>
        rowOf fill requests head reqIdx localTile

/-- The tiles of the first requests, request by request. -/
theorem range_offset {α : Type} {maxBatchSize : Nat} (requests : Requests maxBatchSize)
    (each : Nat → List α) {count : Nat} (limit : count ≤ requests.lengths.length) :
    (List.range (requests.offset count)).flatMap each =
      (List.range count).flatMap fun reqIdx =>
        (List.range (requests.tiles reqIdx)).flatMap fun localTile =>
          each (requests.offset reqIdx + localTile) := by
  induction count with
  | zero => rfl
  | succ count inductionHypothesis =>
    have size : requests.tiles count = requests.lengths[count] := by
      rw [Requests.tiles, List.getD_eq_getElem _ _ limit]
    rw [requests.offset_succ limit, List.range_add, List.flatMap_append,
      inductionHypothesis (Nat.le_of_succ_le limit), List.range_succ, List.flatMap_append,
      List.flatMap_singleton, size, List.flatMap_map]

/-- Rows that are numbered row by row of a table. -/
theorem range_rows {α : Type} (width : Nat) (each : Nat → List α) (heads : Nat) :
    (List.range (heads * width)).flatMap each =
      (List.range heads).flatMap fun head =>
        (List.range width).flatMap fun tile => each (head * width + tile) := by
  induction heads with
  | zero =>
    rw [Nat.zero_mul]
    rfl
  | succ heads inductionHypothesis =>
    rw [Nat.succ_mul, List.range_add, List.flatMap_append, inductionHypothesis, List.range_succ,
      List.flatMap_append, List.flatMap_singleton, List.flatMap_map]

/-- The rows of the fill are those of its requests, and padding. -/
theorem rowWrites_all (described : Describes fill requests) {numBlocks : Nat}
    (backed : Backed fill requests numBlocks) (columns : 0 < fill.wt)
    (rows : 0 < fill.blockSizeT) :
    (List.range (fill.numKvHeads * fill.totalTokensT)).flatMap (rowWrites fill) =
      allRows fill requests := by
  rw [range_rows, allRows]
  refine List.flatMap_congr fun head member => ?_
  have heads := List.mem_range.mp member
  obtain ⟨padding, total⟩ := Nat.exists_eq_add_of_le described.total
  have behind : (List.range padding).flatMap (fun tile =>
      rowWrites fill (head * fill.totalTokensT + (requests.lengths.sum + tile))) = [] := by
    refine List.flatMap_eq_nil_iff.mpr fun tile member => ?_
    have inside := List.mem_range.mp member
    exact rowWrites_skipped described (by omega) (Nat.le_add_right _ _)
  rw [total, List.range_add, List.flatMap_append, List.flatMap_map, ← total, behind,
    List.append_nil, ← requests.offset_length, range_offset requests _ (Nat.le_refl _)]
  refine List.flatMap_congr fun reqIdx member => ?_
  have listed := List.mem_range.mp member
  refine List.flatMap_congr fun localTile member => ?_
  have short := List.mem_range.mp member
  rw [Requests.tiles, List.getD_eq_getElem _ _ listed] at short
  exact rowWrites_owned described backed columns rows heads (requests.owns listed short)

/-! ## Where a tile ends up -/

/-- Places of tiles are distinct for distinct blocks, heads, rows and columns. -/
theorem tileOf_inj {block head token w other head' token' w' : Nat}
    (heads : head < fill.numKvHeads) (heads' : head' < fill.numKvHeads)
    (row : token / 32 < fill.blockSizeT) (row' : token' / 32 < fill.blockSizeT)
    (column : w < fill.wt) (column' : w' < fill.wt)
    (same : tileOf fill block head token + w = tileOf fill other head' token' + w') :
    block = other ∧ head = head' ∧ token / 32 = token' / 32 ∧ w = w' := by
  have outer := congrArg (· / fill.wt) same
  have inner := congrArg (· % fill.wt) same
  dsimp only [tileOf] at outer inner
  rw [(row_parts _ column).1, (row_parts _ column').1] at outer
  rw [(row_parts _ column).2, (row_parts _ column').2] at inner
  have plane := congrArg (· / fill.blockSizeT) outer
  have line := congrArg (· % fill.blockSizeT) outer
  rw [(row_parts _ row).1, (row_parts _ row').1] at plane
  rw [(row_parts _ row).2, (row_parts _ row').2] at line
  have first := congrArg (· / fill.numKvHeads) plane
  have second := congrArg (· % fill.numKvHeads) plane
  rw [(row_parts _ heads).1, (row_parts _ heads').1] at first
  rw [(row_parts _ heads).2, (row_parts _ heads').2] at second
  exact ⟨first, second, line, inner⟩

/-- A tile of a request has its row of its block for itself. -/
def Alone (fill : Fill Tile) (requests : Requests fill.maxBatchSize) (reqIdx localTile : Nat) :
    Prop :=
  ∀ otherIdx < requests.lengths.length, ∀ otherTile < requests.tiles otherIdx,
    blockOf fill otherIdx otherTile = blockOf fill reqIdx localTile →
    cachePosition fill otherIdx otherTile % blockSize fill =
      cachePosition fill reqIdx localTile % blockSize fill →
    otherIdx = reqIdx ∧ otherTile = localTile

/-- The tensor that a cache is filled from. -/
def source (fill : Fill Tile) : Cb → Nat → Tile
  | .v => fill.vFill
  | _ => fill.kFill

/-- The writes of a row, each with its column. -/
theorem mem_placed {row first : Nat} {write : Write Tile} :
    write ∈ placed fill row first ↔ ∃ w < fill.wt, ∃ cache, (cache = Cb.k ∨ cache = Cb.v) ∧
      write = ⟨cache, first + w, .tile (source fill cache (row * fill.wt + w))⟩ := by
  rw [placed, List.mem_append, List.mem_map, List.mem_map]
  constructor
  · rintro (⟨w, member, rfl⟩ | ⟨w, member, rfl⟩)
    · exact ⟨w, List.mem_range.mp member, .k, .inl rfl, rfl⟩
    · exact ⟨w, List.mem_range.mp member, .v, .inr rfl, rfl⟩
  · rintro ⟨w, column, cache, rfl | rfl, rfl⟩
    · exact .inl ⟨w, List.mem_range.mpr column, rfl⟩
    · exact .inr ⟨w, List.mem_range.mpr column, rfl⟩

theorem mem_allRows {write : Write Tile} :
    write ∈ allRows fill requests ↔ ∃ head < fill.numKvHeads,
      ∃ reqIdx < requests.lengths.length, ∃ localTile < requests.tiles reqIdx,
        write ∈ rowOf fill requests head reqIdx localTile := by
  simp only [allRows, List.mem_flatMap, List.mem_range]

/-- A tile that is alone in its place is what all writes to the place carry. -/
theorem alone_agree (described : Describes fill requests) (rows : 0 < fill.blockSizeT) {head reqIdx localTile w : Nat} {cache : Cb}
    (heads : head < fill.numKvHeads) (listed : reqIdx < requests.lengths.length)
    (column : w < fill.wt) (alone : Alone fill requests reqIdx localTile) {write : Write Tile}
    (member : write ∈ allRows fill requests) (sameCache : write.cache = cache)
    (sameTile : write.tile = tileOf fill (blockOf fill reqIdx localTile) head
      (cachePosition fill reqIdx localTile % blockSize fill) + w) :
    write.value = .tile (source fill cache
      ((head * fill.totalTokensT + (requests.offset reqIdx + localTile)) * fill.wt + w)) := by
  obtain ⟨head', heads', otherIdx, listed', otherTile, short, member⟩ := mem_allRows.mp member
  have row (position : Nat) : position % blockSize fill / 32 < fill.blockSizeT := by
    have below := Nat.mod_lt position (Nat.mul_pos (Nat.succ_pos 31) rows)
    exact Nat.div_lt_of_lt_mul below
  have whole {index : Nat} (tile : Nat) (listed : index < requests.lengths.length) :
      cachePosition fill index tile % blockSize fill / 32 * 32 =
        cachePosition fill index tile % blockSize fill := by
    have aligned : 32 ∣ cachePosition fill index tile :=
      Nat.dvd_add (described.starts index listed).1 (Nat.dvd_mul_right 32 tile)
    exact Nat.div_mul_cancel ((Nat.dvd_mod_iff (Nat.dvd_mul_right 32 _)).mpr aligned)
  rw [rowOf] at member
  split at member
  · obtain ⟨w', column', cache', -, rfl⟩ := mem_placed.mp member
    dsimp only at sameCache sameTile ⊢
    obtain ⟨block, rfl, line, rfl⟩ :=
      tileOf_inj heads' heads (row _) (row _) column' column sameTile
    have position := congrArg (· * 32) line
    rw [whole otherTile listed', whole localTile listed] at position
    obtain ⟨rfl, rfl⟩ := alone otherIdx listed' otherTile short block position
    rw [sameCache]
  · cases member

/-! ## The whole fill -/

/-- The states that all cores reach at their ends, with all rows of the fill split over them. -/
def Filled (fill : Fill Tile) (split : List Nat) (states : List (CoreState Tile)) : Prop :=
  List.Forall₂ (fun core state => RunsTo fill core state ∧ Finished state) (coresFrom 0 split)
    states

/-- The writes of all cores, in whatever order they arrive. -/
def Arrive (states : List (CoreState Tile)) (writes : List (Write Tile)) : Prop :=
  writes.Perm (states.flatMap fun state => writesOf state.taken)

/-- What the two kernels do with a fill, however its rows are split over cores. -/
structure FillsExactly (fill : Fill Tile) (requests : Requests fill.maxBatchSize)
    (split : List Nat) : Prop where
  /-- The writer never waits for its own buffer, and neither kernel waits for the other. -/
  runs : ∀ core ∈ coresFrom 0 split,
    (writer fill core.1 core.2).isSome ∧ ∀ state, RunsTo fill core state → Completes fill core state
  /-- Each tile of each request is written once. -/
  once : ∀ {states writes}, Filled fill split states → Arrive states writes →
    writes.Perm (allRows fill requests)
  /-- Other places keep what they hold. -/
  frame : ∀ {states writes}, Filled fill split states → Arrive states writes →
    ∀ {cache tile}, (∀ write ∈ allRows fill requests, ¬ (write.cache = cache ∧ write.tile = tile)) →
      ∀ caches, applyWrites writes caches cache tile = caches cache tile
  /-- A tile ends up in its row of its block, unless another tile goes there too. -/
  place : ∀ {states writes}, Filled fill split states → Arrive states writes →
    ∀ {head reqIdx localTile w cache}, head < fill.numKvHeads →
      reqIdx < requests.lengths.length → localTile < requests.tiles reqIdx → w < fill.wt →
      cache = Cb.k ∨ cache = Cb.v → Live (blockOf fill reqIdx localTile) →
      Alone fill requests reqIdx localTile → ∀ caches,
        applyWrites writes caches cache (tileOf fill (blockOf fill reqIdx localTile) head
          (cachePosition fill reqIdx localTile % blockSize fill) + w) =
            .tile (source fill cache
              ((head * fill.totalTokensT + (requests.offset reqIdx + localTile)) * fill.wt + w))

/-- The kernels fill exactly. -/
theorem fillsExactly (described : Describes fill requests) {numBlocks : Nat}
    (backed : Backed fill requests numBlocks) (columns : 0 < fill.wt)
    (rows : 0 < fill.blockSizeT) {split : List Nat}
    (whole : split.sum = fill.numKvHeads * fill.totalTokensT) :
    FillsExactly fill requests split := by
  have once : ∀ {states writes}, Filled fill split states → Arrive states writes →
      writes.Perm (allRows fill requests) := by
    intro states writes filled arrive
    have all := cores_write columns filled
    rw [whole, ← List.range_eq_range', rowWrites_all described backed columns rows] at all
    exact all ▸ arrive
  refine ⟨fun core _ => ⟨?_, fun state run => completes columns run⟩, once, ?_, ?_⟩
  · rw [writer_eq]
    rfl
  · intro states writes filled arrive cache tile absent caches
    have same := once filled arrive
    exact applyWrites_other (fun write member => absent write (same.mem_iff.mp member)) caches
  · intro states writes filled arrive head reqIdx localTile w cache heads listed short column
      either live alone caches
    have same := once filled arrive
    refine applyWrites_at (fun write member sameCache sameTile => ?_) caches (.inr ?_)
    · exact alone_agree described rows heads listed column alone (same.mem_iff.mp member) sameCache
        sameTile
    · have placedThere : ∃ write ∈ rowOf fill requests head reqIdx localTile,
          write.cache = cache ∧ write.tile = tileOf fill (blockOf fill reqIdx localTile) head
            (cachePosition fill reqIdx localTile % blockSize fill) + w := by
        rw [rowOf, if_pos live]
        exact ⟨_, mem_placed.mpr ⟨w, column, cache, either, rfl⟩, rfl, rfl⟩
      obtain ⟨write, member, place⟩ := placedThere
      exact ⟨write, same.mem_iff.mpr
        (mem_allRows.mpr ⟨head, heads, reqIdx, listed, localTile, short, member⟩), place⟩

end Rows

end KvCache.Lmcache.PagedFill
