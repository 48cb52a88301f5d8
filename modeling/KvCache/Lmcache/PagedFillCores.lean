import KvCache.Lmcache.PagedFillExact
import Mathlib.Data.List.Range

/-!
# The kernels on their cores

On every core the writer asks for exactly the batches that its reader puts, and they fit into
the circular buffers, so the two run as a pipeline in which neither waits for ever. What they
write is the writes of the core's rows, and the rows of the cores are the rows of the fill, cut
up in order.
-/

namespace KvCache.Lmcache.PagedFill

open BinarySearch Pipeline

section Kernels

variable {Tile : Type} {fill : Fill Tile}

/-! ## One core -/

/-- The table at hand is that of its request, and it fills the writer's own buffer. -/
def Loaded (fill : Fill Tile) (cached : Option (Nat × (Nat → Nat))) (pages : Nat) : Prop :=
  (cached = none ∧ pages = 0) ∨ ∃ reqIdx, cached = some (reqIdx, fill.pageTable reqIdx) ∧ pages = 1

theorem loaded_one (fill : Fill Tile) (reqIdx : Nat) :
    Loaded fill (some (reqIdx, fill.pageTable reqIdx)) 1 :=
  .inr ⟨reqIdx, rfl, rfl⟩

/-- The writer never waits for its own buffer. -/
theorem loadTable_eq {cached : Option (Nat × (Nat → Nat))} {pages : Nat}
    (loaded : Loaded fill cached pages) (reqIdx : Nat) :
    loadTable fill reqIdx cached pages = some (fill.pageTable reqIdx, 1) := by
  obtain ⟨rfl, rfl⟩ | ⟨atHand, rfl, rfl⟩ := loaded
  · rfl
  · by_cases same : reqIdx = atHand
    · subst same
      simp [loadTable]
    · simp [loadTable, same]

/-- The target of a row's tiles. -/
def targetOf (fill : Fill Tile) (rowId : Nat) : Option Nat :=
  let reqIdx := findRequestIdx fill (globalTokenPos fill rowId)
  physicalTileId fill (fill.pageTable reqIdx) reqIdx rowId

/-- What the writer asks for, whatever table is at hand. -/
def asked (fill : Fill Tile) : Nat → Nat → List (Request Cb Target)
  | 0, _ => []
  | numRows + 1, rowId =>
    if Skipped fill rowId then asked fill numRows (rowId + 1)
    else
      ⟨.k, fill.wt, (targetOf fill rowId).map (.k, ·)⟩ ::
        ⟨.v, fill.wt, (targetOf fill rowId).map (.v, ·)⟩ :: asked fill numRows (rowId + 1)

theorem writerRows_eq (numRows : Nat) {rowId pages : Nat} {cached : Option (Nat × (Nat → Nat))}
    (loaded : Loaded fill cached pages) :
    writerRows fill numRows rowId cached pages = some (asked fill numRows rowId) := by
  induction numRows generalizing rowId pages cached with
  | zero => rfl
  | succ numRows inductionHypothesis =>
    rw [writerRows, asked]
    by_cases skipped : Skipped fill rowId
    · rw [if_pos skipped, if_pos skipped, inductionHypothesis loaded]
    · rw [if_neg skipped, if_neg skipped]
      dsimp only
      rw [loadTable_eq loaded, Option.bind_eq_bind, Option.bind_some,
        inductionHypothesis (loaded_one fill _)]
      rfl

theorem writer_eq (startRowNum numRows : Nat) :
    writer fill startRowNum numRows =
      some (⟨.cuSeqlens, 1, none⟩ :: asked fill numRows startRowNum) := by
  rw [writer, writerRows_eq numRows (.inl ⟨rfl, rfl⟩)]
  rfl

theorem tilesFrom_length (tiles : Nat → Tile) (tileId : Nat) :
    (tilesFrom fill tiles tileId).length = fill.wt := by
  rw [tilesFrom, List.length_map, List.length_range]

/-- Both kernels skip the same rows, and a row is taken as it is put. -/
theorem rows_meet (columns : 0 < fill.wt) (numRows rowId tileId : Nat) :
    List.Forall₂ Meets (readerRows fill numRows rowId tileId) (asked fill numRows rowId) := by
  induction numRows generalizing rowId tileId with
  | zero => exact .nil
  | succ numRows inductionHypothesis =>
    rw [readerRows, asked]
    by_cases skipped : Skipped fill rowId
    · rw [if_pos skipped, if_pos skipped]
      exact inductionHypothesis (rowId + 1) (tileId + fill.wt)
    · rw [if_neg skipped, if_neg skipped]
      have size := @tilesFrom_length _ fill
      exact .cons ⟨rfl, size _ _, columns⟩
        (.cons ⟨rfl, size _ _, columns⟩ (inductionHypothesis (rowId + 1) (tileId + fill.wt)))

theorem kernels_meet (columns : 0 < fill.wt) (startRowNum numRows : Nat) :
    List.Forall₂ Meets (reader fill (startRowNum * fill.wt) numRows)
      (⟨.cuSeqlens, 1, none⟩ :: asked fill numRows startRowNum) := by
  rw [reader, Nat.mul_div_cancel _ columns]
  exact .cons ⟨rfl, rfl, Nat.one_pos⟩ (rows_meet columns numRows startRowNum _)

/-- Two rows of tiles have room in a buffer. -/
theorem rows_fit (numRows rowId tileId : Nat) :
    ∀ batch ∈ readerRows fill numRows rowId tileId,
      batch.items.length ≤ capacity fill batch.queue := by
  induction numRows generalizing rowId tileId with
  | zero => exact fun _ member => nomatch member
  | succ numRows inductionHypothesis =>
    have room : fill.wt ≤ fill.wt * 2 := Nat.le_mul_of_pos_right fill.wt Nat.two_pos
    rw [readerRows]
    split
    · exact inductionHypothesis (rowId + 1) (tileId + fill.wt)
    · intro batch member
      obtain rfl | member := List.mem_cons.mp member
      · exact (tilesFrom_length _ _).trans_le room
      · obtain rfl | member := List.mem_cons.mp member
        · exact (tilesFrom_length _ _).trans_le room
        · exact inductionHypothesis (rowId + 1) (tileId + fill.wt) batch member

theorem kernels_fit (startTileId numRows : Nat) :
    ∀ batch ∈ reader fill startTileId numRows,
      batch.items.length ≤ capacity fill batch.queue := by
  intro batch member
  obtain rfl | member := List.mem_cons.mp member
  · exact Nat.le_refl 1
  · exact rows_fit numRows _ _ batch member

/-! ## What is written -/

/-- What the writer took when it is done. -/
def log (batches : List (Batch Cb (Page Tile))) (requests : List (Request Cb Target)) :
    List (Target × List (Page Tile)) :=
  (requests.zip batches).map fun pair => (pair.1.purpose, pair.2.items)

theorem log_cons (batch : Batch Cb (Page Tile)) (batches : List (Batch Cb (Page Tile)))
    (request : Request Cb Target) (requests : List (Request Cb Target)) :
    log (batch :: batches) (request :: requests) =
      (request.purpose, batch.items) :: log batches requests := rfl

theorem writesOf_cons (target : Target) (pages : List (Page Tile))
    (taken : List (Target × List (Page Tile))) :
    writesOf ((target, pages) :: taken) = writesOf [(target, pages)] ++ writesOf taken := by
  simp only [writesOf, List.flatMap_cons, List.flatMap_nil, List.append_nil]

theorem writesOf_none (pages : List (Page Tile)) :
    writesOf [((none : Target), pages)] = [] := rfl

theorem writesOf_tiles (cache : Cb) (first : Nat) (tiles : Nat → Tile) (tileId : Nat) :
    writesOf [((some (cache, first) : Target), tilesFrom fill tiles tileId)] =
      (List.range fill.wt).map fun w => ⟨cache, first + w, .tile (tiles (tileId + w))⟩ := by
  simp only [writesOf, tilesFrom, List.flatMap_cons, List.flatMap_nil, List.append_nil]
  refine List.ext_getElem (by simp) fun index _ _ => ?_
  simp

/-- The two batches of a row become the writes of the row. -/
theorem writesOf_row {rowId : Nat} (unskipped : ¬ Skipped fill rowId) :
    writesOf [((targetOf fill rowId).map (Cb.k, ·), tilesFrom fill fill.kFill (rowId * fill.wt))] ++
      writesOf [((targetOf fill rowId).map (Cb.v, ·),
        tilesFrom fill fill.vFill (rowId * fill.wt))] = rowWrites fill rowId := by
  rw [rowWrites, if_neg unskipped]
  dsimp only
  rw [← targetOf]
  cases targetOf fill rowId with
  | none => rfl
  | some first =>
    rw [Option.map_some, Option.map_some, writesOf_tiles, writesOf_tiles]
    rfl

theorem writesOf_rows (numRows rowId : Nat) :
    writesOf (log (readerRows fill numRows rowId (rowId * fill.wt)) (asked fill numRows rowId)) =
      (List.range' rowId numRows).flatMap (rowWrites fill) := by
  induction numRows generalizing rowId with
  | zero => rfl
  | succ numRows inductionHypothesis =>
    have next := inductionHypothesis (rowId + 1)
    rw [Nat.succ_mul] at next
    rw [readerRows, asked, List.range'_succ, List.flatMap_cons]
    by_cases skipped : Skipped fill rowId
    · have nothing : rowWrites fill rowId = [] := if_pos skipped
      rw [if_pos skipped, if_pos skipped, next, nothing, List.nil_append]
    · rw [if_neg skipped, if_neg skipped, ← writesOf_row skipped, ← next, log_cons, log_cons,
        writesOf_cons, writesOf_cons _ _ (log _ _), List.append_assoc]

/-- The lengths of the requests are not written anywhere. -/
theorem writesOf_kernels (columns : 0 < fill.wt) (startRowNum numRows : Nat) :
    writesOf (log (reader fill (startRowNum * fill.wt) numRows)
      (⟨.cuSeqlens, 1, none⟩ :: asked fill numRows startRowNum)) =
        (List.range' startRowNum numRows).flatMap (rowWrites fill) := by
  rw [reader, Nat.mul_div_cancel _ columns, log_cons, writesOf_cons, writesOf_none,
    List.nil_append, writesOf_rows]

/-! ## All cores -/

/-- The states of reader and writer on a core. -/
abbrev CoreState (Tile : Type) : Type := State Cb (Page Tile) Target

/-- A state that the two kernels reach on a core with some rows. -/
def RunsTo (fill : Fill Tile) (core : Nat × Nat) (state : CoreState Tile) : Prop :=
  ∃ requests, writer fill core.1 core.2 = some requests ∧
    Reaches (capacity fill) (start (reader fill (core.1 * fill.wt) core.2) requests) state

/-- A state of a core from which it can go on to the end, and its writes at the end. -/
structure Completes (fill : Fill Tile) (core : Nat × Nat) (state : CoreState Tile) : Prop where
  progress : ¬ Finished state → ∃ after, Step (capacity fill) state after
  finishes : ∃ last, Reaches (capacity fill) state last ∧ Finished last
  consumed : Finished state → (∀ queue, state.buffers queue = []) ∧
    writesOf state.taken = (List.range' core.1 core.2).flatMap (rowWrites fill)

/-- Neither kernel waits for ever, and at the end the writer has consumed what the reader
pushed. -/
theorem completes (columns : 0 < fill.wt) {core : Nat × Nat} {state : CoreState Tile}
    (run : RunsTo fill core state) : Completes fill core state := by
  obtain ⟨requests, asks, reached⟩ := run
  rw [writer_eq] at asks
  cases asks
  have agree := kernels_meet columns core.1 core.2
  have fits := @kernels_fit _ fill (core.1 * fill.wt) core.2
  refine ⟨progress agree fits reached, finishes agree fits reached, fun done => ?_⟩
  obtain ⟨taken, empty⟩ := finished_taken agree reached done
  exact ⟨empty, taken ▸ writesOf_kernels columns core.1 core.2⟩

/-- The rows of the cores, one core behind the other, are all rows in order. -/
theorem coresFrom_rows (written : Nat) (split : List Nat) :
    (coresFrom written split).flatMap (fun core => List.range' core.1 core.2) =
      List.range' written split.sum := by
  induction split generalizing written with
  | nil => rfl
  | cons rows rest inductionHypothesis =>
    rw [coresFrom, List.flatMap_cons, inductionHypothesis, List.sum_cons, List.range'_append_1]

/-- What all cores write, when they are done, are the writes of all rows. -/
theorem cores_write (columns : 0 < fill.wt) {written : Nat} {split : List Nat}
    {states : List (CoreState Tile)}
    (done : List.Forall₂ (fun core state => RunsTo fill core state ∧ Finished state)
      (coresFrom written split) states) :
    (states.flatMap fun state => writesOf state.taken) =
      (List.range' written split.sum).flatMap (rowWrites fill) := by
  rw [← coresFrom_rows, List.flatMap_assoc]
  generalize coresFrom written split = cores at done
  induction done with
  | nil => rfl
  | cons finished _ inductionHypothesis =>
    rw [List.flatMap_cons, List.flatMap_cons, inductionHypothesis,
      ((completes columns finished.1).consumed finished.2).2]

end Kernels

end KvCache.Lmcache.PagedFill
