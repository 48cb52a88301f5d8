import KvCache.Lmcache.RawTransfer

/-!
# What a transfer asks for

The tokens of a chunk are slots of blocks, the first tokens of the blocks at the multiples of the
block size. The planners find the same places as a reader of the slot mapping would: for each
block of a chunk the chips that hold it, its place on them and its part of the memory object. The
first planner goes on behind the last token to the end of the memory object.
-/

namespace KvCache.Lmcache.RawPlanners

open Guarded

/-! ## Blocks of a chunk -/

/-- The block of a position. -/
def Transfer.blockAt (transfer : Transfer) (position : Int) : Int :=
  transfer.slot position / transfer.blockSize

/-- The number of blocks that some rows begin. -/
def blockCount (rows blockSize : Int) : Nat := ((rows + blockSize - 1) / blockSize).toNat

/-- The blocks of a chunk are those of the positions at the multiples of the block size. -/
def NamesBlocks (transfer : Transfer) (chunk : Chunk) : Prop :=
  ∀ position, chunk.start ≤ position → position < chunk.stop →
    0 ≤ transfer.slot position ∧ transfer.blockAt position = transfer.blockAt
      (chunk.start + (position - chunk.start) / transfer.blockSize * transfer.blockSize)

section Counting

variable {blockSize : Int}

theorem lt_blockCount (positive : 0 < blockSize) {rows : Int} {index : Nat} :
    index < blockCount rows blockSize ↔ index * blockSize < rows := by
  have bound : (index : Int) < (rows + blockSize - 1) / blockSize ↔ index * blockSize < rows := by
    rw [← Int.add_one_le_iff, Int.le_ediv_iff_mul_le positive, Int.add_mul]
    omega
  rw [← bound, blockCount]
  omega

theorem blockCount_of_dvd (positive : 0 < blockSize) {rows : Int} (whole : blockSize ∣ rows) :
    blockCount rows blockSize = (rows / blockSize).toNat := by
  obtain ⟨count, rfl⟩ := whole
  rw [blockCount, Int.mul_ediv_cancel_left count (Int.ne_of_gt positive), Int.add_sub_assoc,
    Int.add_comm, Int.add_mul_ediv_left _ _ (Int.ne_of_gt positive),
    Int.ediv_eq_zero_of_lt (by omega) (by omega), Int.zero_add]

theorem blockCount_mono (positive : 0 < blockSize) {less more : Int} (order : less ≤ more) :
    blockCount less blockSize ≤ blockCount more blockSize :=
  Int.toNat_le_toNat (Int.ediv_le_ediv positive (by omega))

/-- As many blocks are begun by some rows as by more rows if fewer than a block are added to
the end of a whole number of blocks. -/
theorem blockCount_eq_iff (positive : 0 < blockSize) {less more : Int} (natural : 0 ≤ less)
    (order : less ≤ more) (whole : blockSize ∣ more) :
    blockCount less blockSize = blockCount more blockSize ↔ more < less + blockSize := by
  obtain ⟨count, rfl⟩ := whole
  have counted : 0 ≤ count := by
    by_contra negative
    have product := Int.mul_neg_of_pos_of_neg positive (Int.not_le.mp negative)
    omega
  have all : blockCount (blockSize * count) blockSize = count.toNat := by
    rw [blockCount_of_dvd positive (Int.dvd_mul_right _ _),
      Int.mul_ediv_cancel_left count (Int.ne_of_gt positive)]
  have below := blockCount_mono positive order
  rw [all] at below ⊢
  have last : count ≤ (less + blockSize - 1) / blockSize ↔ blockSize * count < less + blockSize := by
    rw [Int.le_ediv_iff_mul_le positive, Int.mul_comm]
    omega
  have quotient : 0 ≤ (less + blockSize - 1) / blockSize :=
    Int.ediv_nonneg (by omega) (Int.le_of_lt positive)
  rw [← last]
  rw [blockCount] at below ⊢
  omega

theorem steps_eq (bound step : Int) :
    steps bound step = (List.range (blockCount bound step)).map fun index : Nat => index * step :=
  rfl

/-- Places at the multiples of a span are apart. -/
theorem multiples_apart (positive : 0 < blockSize) {count : Nat} {placeOf : Nat → Place}
    (targets : ∀ index, (placeOf index).target = index * blockSize) :
    ((List.range count).map placeOf).Pairwise (Place.Apart blockSize) := by
  rw [List.pairwise_map]
  refine List.pairwise_lt_range.imp fun {index other} before => .inr (.inl ?_)
  have order := Int.mul_le_mul_of_nonneg_right
    (show (index : Int) + 1 ≤ other by omega) (Int.le_of_lt positive)
  rw [Int.add_mul, Int.one_mul] at order
  rw [targets, targets]
  exact order

end Counting

/-! ## Chunks of different memory objects -/

section Chunks

variable {transfer : Transfer}

theorem chunks_memobjSlot (given : transfer.ChunksGiven) :
    transfer.chunks.map Chunk.memobjSlot = transfer.memobjSlots := by
  obtain ⟨-, starts, ends⟩ := given
  rw [Transfer.chunks, List.map_map]
  have last : (Chunk.memobjSlot ∘ fun (item : Int × Int × Int) =>
      (⟨item.1, item.2.1, item.2.2⟩ : Chunk)) = Prod.snd ∘ Prod.snd := rfl
  change List.map (Chunk.memobjSlot ∘ fun (item : Int × Int × Int) =>
    (⟨item.1, item.2.1, item.2.2⟩ : Chunk)) _ = _
  rw [last, ← List.map_map, List.map_snd_zip (by rw [List.length_zip]; omega),
    List.map_snd_zip (by omega)]

/-- Places of different chunks are apart. -/
theorem chunks_apart {span : Int} {ι : Type} {items : List ι} {chunkOf : ι → Chunk}
    {placesOf : ι → List Place} (distinct : (items.map fun item => (chunkOf item).memobjSlot).Nodup)
    (own : ∀ item ∈ items, ∀ place ∈ placesOf item, place.memobjSlot = (chunkOf item).memobjSlot)
    (each : ∀ item ∈ items, (placesOf item).Pairwise (Place.Apart span)) :
    (items.flatMap placesOf).Pairwise (Place.Apart span) := by
  rw [List.pairwise_flatMap]
  refine ⟨each, ?_⟩
  rw [List.Nodup, List.pairwise_map] at distinct
  refine distinct.imp_of_mem fun {item other} first second different place inOne place' inOther => ?_
  refine .inl ?_
  rw [own item first place inOne, own other second place' inOther]
  exact different

end Chunks

end KvCache.Lmcache.RawPlanners
