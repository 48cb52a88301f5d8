import KvCache.Directory.Eviction

/-!
# What a life accounts for

The words of a directory agree over lists and owners that the code does not keep. Here the
agreement is read off the words alone, in every state that a life reaches: lookup is exact,
every slot has one use, the residency list has the values on the device in the order of their
last use, and every unit of the heap has one owner.
-/

namespace KvCache.Directory

open AlignedBlock Buddy Function HashIndex Layout Residency

universe u
variable {ι : Type u}
variable {g : Geometry} {policy : LeasePolicy} {contents : Nat → HeapBlock} {strict : Prop}
variable {dir : State} {held : ι → Option Block} {resident recycled : List Nat} {life : Life}

/-! ## The hash index -/

theorem keyAt_eq_some {slot : Nat} {key : Key} : keyAt dir slot = some key ↔
    (dir.entry slot).valid = true ∧ (dir.entry slot).key = key := by
  simp [keyAt, keyOf]

/-- Lookup finds a key exactly where a valid entry has it, whatever the hashes are. Every valid
entry has one bucket, with the hash of its key; no other bucket names a slot; and no bucket on
the way from a home to an occupied bucket is empty. -/
theorem index_exact (reached : LifeReached g policy contents life) :
    (∀ key slot, dirLookup g key life.dir = some slot ↔
      (life.dir.entry slot).valid = true ∧ (life.dir.entry slot).key = key) ∧
    (∀ slot, (life.dir.entry slot).valid = true →
      ∃! index, index < g.numBuckets ∧ (life.dir.buckets index).dirSlot = .slot slot) ∧
    (∀ index < g.numBuckets, ∀ slot, (life.dir.buckets index).dirSlot = .slot slot →
      (life.dir.entry slot).valid = true ∧
        (life.dir.buckets index).keyHash = fnv1aHash (life.dir.entry slot).key) ∧
    CyclicProbe.Reachable g.numBuckets (Occupied life.dir.buckets)
      (homeOf g.numBuckets life.dir.buckets) := by
  obtain ⟨resident, recycled, lives⟩ := Lives.reached reached
  have inv := lives.consistent
  refine ⟨fun key slot => inv.lookup_iff key, ?_, ?_, inv.index.reachable⟩
  · intro slot valid
    obtain ⟨index, below, content⟩ := inv.index.complete slot _ (keyAt_eq_some.mpr ⟨valid, rfl⟩)
    refine ⟨index, ⟨below, content⟩, ?_⟩
    rintro other ⟨otherBelow, otherContent⟩
    exact inv.index.unique other otherBelow index below slot otherContent content
  · intro index below slot content
    obtain ⟨key, holds, hash⟩ := inv.index.sound index below slot content
    obtain ⟨valid, same⟩ := keyAt_eq_some.mp holds
    exact ⟨valid, by rw [same]; exact hash⟩

/-- The stored key is found, so its slot is valid. -/
theorem index_exact_stored :
    (firstStored.dir.entry 0).valid = true ∧ (firstStored.dir.entry 0).key = [1] := by
  have reached : LifeReached twoKeys freeLeases blankHeap firstStored :=
    firstHit_one ▸ firstHit_reached 0
  exact ((index_exact reached).1 [1] 0).mp rfl

/-! ## Slots -/

/-- What a slot is used for. -/
inductive SlotUse where
  | unused
  | recycled
  | reserved
  | stored

/-- The slot is used so, where the given slots wait to be used again. -/
def UsedAs (dir : State) (recycled : List Nat) (slot : Nat) : SlotUse → Prop
  | .unused => dir.catalog.nextUnusedSlot ≤ slot
  | .recycled => slot ∈ recycled
  | .reserved => dir.reservedSlot = some slot
  | .stored => (dir.entry slot).valid = true

/-- A slot that was given out is not used in two ways.

Proof: the accounts of the directory exclude each pair of uses. -/
theorem Consistent.used_once (inv : Consistent g contents strict dir held resident recycled)
    (slot : Nat) : ∃! use, UsedAs dir recycled slot use := by
  have queuedUsed := inv.catalog.recycledUsed slot
  have takenApart := inv.reservedApart slot
  have validApart := inv.validApart slot
  obtain ⟨use, used⟩ : ∃ use, UsedAs dir recycled slot use := by
    by_cases fresh : dir.catalog.nextUnusedSlot ≤ slot
    · exact ⟨.unused, fresh⟩
    · rcases inv.accounted slot (Nat.not_le.mp fresh) with valid | queued | taken
      · exact ⟨.stored, valid⟩
      · exact ⟨.recycled, queued⟩
      · exact ⟨.reserved, taken⟩
  refine ⟨use, used, fun other also => ?_⟩
  cases use <;> cases other <;> simp only [UsedAs] at used also <;> first
    | rfl
    | grind

/-- Every slot has one use, and the free list threads the recycled slots, each once. -/
theorem slots_accounted (reached : LifeReached g policy contents life) :
    ∃ recycled : List Nat, recycled.Nodup ∧
      life.dir.catalog.freeSlotHead = linkTo recycled.head? ∧
      Threaded life.dir.catalog.node recycled ∧
      (∀ slot, (life.dir.entry slot).valid = true → slot < g.maxKeys) ∧
      ∀ slot, ∃! use, UsedAs life.dir recycled slot use := by
  obtain ⟨resident, recycled, lives⟩ := Lives.reached reached
  have inv := lives.consistent
  exact ⟨recycled, inv.catalog.recycledDistinct, inv.catalog.freeHead, inv.catalog.threaded,
    fun slot valid => Nat.lt_of_lt_of_le (inv.validApart slot valid).1 inv.catalog.used,
    inv.used_once⟩

/-- The slot of the stored value is not recycled. -/
theorem slots_accounted_stored : ∃ recycled : List Nat,
    Threaded firstStored.dir.catalog.node recycled ∧
      ∃! use, UsedAs firstStored.dir recycled 0 use := by
  have reached : LifeReached twoKeys freeLeases blankHeap firstStored :=
    firstHit_one ▸ firstHit_reached 0
  obtain ⟨recycled, -, -, threaded, -, uses⟩ := slots_accounted reached
  exact ⟨recycled, threaded, uses 0⟩

/-! ## Residency -/

/-- The residency list has the values on the device, each once; its count is its length; and
from its tail to its head the stamps increase until the epoch wraps. Where a slot is stored or
reserved, the links of its node tell whether it is in the list. -/
theorem residency_ordered (reached : LifeReached g policy contents life) :
    (lruOrder life.dir.catalog).Nodup ∧
    life.dir.catalog.lruCount = (lruOrder life.dir.catalog).length ∧
    (∀ slot, slot ∈ lruOrder life.dir.catalog ↔
      (life.dir.entry slot).valid = true ∧ (life.dir.entry slot).location ≠ .host) ∧
    (life.accesses < 2 ^ 32 → (lruOrder life.dir.catalog).Pairwise fun older newer =>
      (life.dir.entry older).lastAccess < (life.dir.entry newer).lastAccess) ∧
    ∀ slot, (life.dir.entry slot).valid = true ∨ life.dir.reservedSlot = some slot →
      (residencyLruIsLinked slot life.dir.catalog = true ↔
        slot ∈ lruOrder life.dir.catalog) := by
  obtain ⟨resident, recycled, lives⟩ := Lives.reached reached
  have inv := lives.consistent
  rw [lruOrder_eq inv.catalog]
  refine ⟨List.nodup_reverse.mpr inv.catalog.distinct, ?_, fun slot => ?_, fun unwrapped => ?_,
    fun slot used => ?_⟩
  · rw [List.length_reverse, inv.catalog.count]
  · rw [List.mem_reverse, inv.residency, DirEntry.resident_iff]
  · exact List.pairwise_reverse.mpr (inv.recent unwrapped).1
  · have notRecycled : slot ∉ recycled := by
      rcases used with valid | taken
      · exact (inv.validApart slot valid).2.1
      · exact (inv.reservedApart slot taken).2
    rw [List.mem_reverse]
    exact inv.catalog.isLinked_iff notRecycled

/-- The stored value is in the list. -/
theorem residency_ordered_stored : 0 ∈ lruOrder firstStored.dir.catalog := by
  have reached : LifeReached twoKeys freeLeases blankHeap firstStored :=
    firstHit_one ▸ firstHit_reached 0
  exact ((residency_ordered reached).2.2.1 0).mpr ⟨rfl, by decide⟩

/-! ## The heap -/

/-- The values on the device fit into the heap together.

Proof: their blocks are apart and inside the heap. -/
theorem Consistent.live_fits (inv : Consistent g contents strict dir held resident recycled) :
    dir.liveDeviceBytes ≤ g.valueHeapBytes := by
  obtain ⟨lists, heap⟩ := inv.heap
  let slots := (Finset.range g.maxKeys).filter fun slot => (dir.entry slot).resident = true
  have owns : ∀ slot ∈ slots, ownedBy dir.entry held (.inl slot) = some (dir.entry slot).block :=
    fun slot member => by simp [ownedBy, (Finset.mem_filter.mp member).2]
  have bound : ∑ slot ∈ slots, (dir.entry slot).block.size ≤ g.numHeapUnits := by
    refine sum_size_le _ _ _ (fun slot member => ?_)
      fun left leftMember right rightMember apart => ?_
    · exact heap.tiles.inside _ (Or.inr ⟨_, owns slot member⟩)
    · exact heap.owned_apart (owns left leftMember) (owns right rightMember)
        fun same => apart (Sum.inl.inj same)
  have live : dir.liveDeviceBytes =
      maxChunkValueBytes * ∑ slot ∈ slots, (dir.entry slot).block.size := by
    rw [inv.live, Finset.mul_sum, Finset.sum_filter]
    exact Finset.sum_congr rfl fun slot _ => rfl
  rw [live]
  exact (Nat.mul_le_mul_left maxChunkValueBytes bound).trans (heapBytes_eq g).symm.le

/-- A value without a host copy is on the device, so the pending bytes are among the live ones. -/
theorem Consistent.pending_le_live
    (inv : Consistent g contents strict dir held resident recycled) :
    dir.pendingDeviceBytes ≤ dir.liveDeviceBytes := by
  rw [inv.pending, inv.live]
  refine Finset.sum_le_sum fun slot _ => ?_
  unfold DirEntry.pendingBytes DirEntry.residentBytes
  by_cases pending : (dir.entry slot).pending = true
  · rw [if_pos pending, if_pos (DirEntry.resident_of_pending pending)]
  · rw [if_neg pending]
    exact Nat.zero_le _

end KvCache.Directory
