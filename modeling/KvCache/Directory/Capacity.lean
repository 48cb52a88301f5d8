import KvCache.Directory.Prepare
import Mathlib.Algebra.BigOperators.Option
import Mathlib.Algebra.BigOperators.Ring.Finset

/-!
# When an allocation succeeds

With eviction allowed, an allocation succeeds exactly if some aligned region of
the needed size meets no block except those of committed device entries. Which
entries are evicted first, and in what order blocks were split, does not matter:
in the end every committed entry may be evicted, and the coalesced free lists then
offer every region that is clear.

The byte counter never decides the outcome. It sums the blocks of the entries
that remain, and those are apart from the region.
-/

namespace KvCache.Directory

open AlignedBlock Buddy Function HashIndex Layout Residency

universe u
variable {ι : Type u}
variable {g : Geometry} {contents : Nat → HeapBlock} {strict : Prop} {dir after : State}
variable {held : ι → Option Block} {resident recycled : List Nat} {slot : Nat}

theorem heapBytes_eq (g : Geometry) : g.valueHeapBytes = maxChunkValueBytes * g.numHeapUnits :=
  (Nat.mul_div_cancel' (normalizeValueHeapBytes_spec _ _).1).symm

/-- Only blocks of committed device entries meet the region. -/
def Vacatable (dir : State) (held : ι → Option Block) (region : Block) : Prop :=
  ∀ owner block, ownedBy dir.entry held owner = some block → ¬ block.Apart region →
    ∃ slot, owner = .inl slot ∧ evictable dir slot = true

/-- A region of the heap for a block of the given order. -/
structure Region (g : Geometry) (order : Nat) (region : Block) : Prop where
  sized : region.order = order
  aligned : region.Aligned
  inside : region.finish ≤ g.numHeapUnits

namespace Consistent

/-- Resident entries occupy at most what a clear region leaves of the heap. -/
theorem live_le (inv : Consistent g contents strict dir held resident recycled) {region : Block}
    (inside : region.finish ≤ g.numHeapUnits)
    (clear : ∀ slot, (dir.entry slot).resident = true → (dir.entry slot).block.Apart region) :
    dir.liveDeviceBytes ≤ g.valueHeapBytes - blockBytes region.order := by
  obtain ⟨lists, heap⟩ := inv.heap
  let slots := (Finset.range g.maxKeys).filter fun slot => (dir.entry slot).resident = true
  let block : Option Nat → Block := fun owner => owner.elim region fun slot => (dir.entry slot).block
  have owns : ∀ slot ∈ slots, ownedBy dir.entry held (.inl slot) = some (dir.entry slot).block :=
    fun slot member => by simp [ownedBy, (Finset.mem_filter.mp member).2]
  have bound : ∑ owner ∈ Finset.insertNone slots, (block owner).size ≤ g.numHeapUnits := by
    refine sum_size_le _ _ _ ?_ ?_
    · intro owner member
      cases owner with
      | none => exact inside
      | some slot =>
        exact heap.tiles.inside _ (Or.inr ⟨_, owns slot (Finset.some_mem_insertNone.mp member)⟩)
    · intro left leftMember right rightMember different
      cases left with
      | none =>
        cases right with
        | none => exact absurd rfl different
        | some slot =>
          have member := Finset.some_mem_insertNone.mp rightMember
          exact (clear slot (Finset.mem_filter.mp member).2).symm
      | some slot =>
        have member := Finset.some_mem_insertNone.mp leftMember
        cases right with
        | none => exact clear slot (Finset.mem_filter.mp member).2
        | some other =>
          refine heap.owned_apart (owns slot member)
            (owns other (Finset.some_mem_insertNone.mp rightMember)) fun same => ?_
          exact different (congrArg some (Sum.inl.inj same))
  have live : dir.liveDeviceBytes =
      maxChunkValueBytes * ∑ slot ∈ slots, (dir.entry slot).block.size := by
    rw [inv.live, Finset.mul_sum, Finset.sum_filter]
    exact Finset.sum_congr rfl fun slot _ => rfl
  rw [Finset.sum_insertNone] at bound
  have scaled := Nat.mul_le_mul_left maxChunkValueBytes bound
  rw [Nat.mul_add, ← heapBytes_eq] at scaled
  rw [live]
  exact Nat.le_sub_of_add_le (by simpa only [blockBytes, block, Block.size, Option.elim_none,
    Option.elim_some, Nat.add_comm] using scaled)

/-- Without committed entries a clear region is found at once. -/
theorem tryAllocate_clear (inv : Consistent g contents strict dir held resident recycled)
    {units : Nat} (owner : BlockState) {region : Block}
    (region_ : Region g (buddyOrderForUnits units) region)
    (clear : ∀ holder block, ownedBy dir.entry held holder = some block → block.Apart region) :
    Directory.tryAllocate g units owner dir ≠ none := by
  intro refused
  obtain ⟨lists, heap⟩ := inv.heap
  have room := inv.live_le region_.inside fun slot holds =>
    clear (.inl slot) _ (by simp [ownedBy, holds])
  rw [region_.sized] at room
  unfold Directory.tryAllocate at refused
  rw [if_pos room, Option.map_eq_none_iff] at refused
  obtain ⟨holder, block, owns, meets⟩ :=
    heap.buddyAllocate_none refused region region_.sized region_.aligned region_.inside
  exact meets (clear holder block owns)

/-- Enough attempts find every region that eviction can clear.

Proof: by induction on the attempts. An attempt fails only while a committed entry
remains, since without one the region is clear. Evicting the victim keeps the
region vacatable and lowers the number of committed entries. -/
theorem allocateFrom_clear (inv : Consistent g contents strict dir held resident recycled)
    [DecidableEq ι] {units attempts : Nat} {owner : BlockState} {region : Block}
    (region_ : Region g (buddyOrderForUnits units) region) (vacatable : Vacatable dir held region)
    (enough : resident.countP (fun slot => evictable dir slot) ≤ attempts) :
    (Directory.allocateFrom g units owner true attempts dir).2 ≠ none := by
  induction attempts generalizing dir resident with
  | zero =>
    have noneLeft : ∀ slot, evictable dir slot = true → False := by
      intro slot holds
      have counted := List.countP_eq_zero.mp (Nat.le_zero.mp enough) slot
      refine counted ((inv.residency slot).mpr ?_) holds
      simp only [evictable, Bool.and_eq_true, beq_iff_eq] at holds
      rw [DirEntry.resident_iff, holds.2]
      exact ⟨holds.1, by simp⟩
    have found := inv.tryAllocate_clear owner region_ fun holder block owns => by
      by_contra meets
      obtain ⟨slot, _, holds⟩ := vacatable holder block owns meets
      exact noneLeft slot holds
    unfold Directory.allocateFrom
    cases attempt : Directory.tryAllocate g units owner dir with
    | none => exact absurd attempt found
    | some result => simp
  | succ remaining inductionHypothesis =>
    unfold Directory.allocateFrom
    cases attempt : Directory.tryAllocate g units owner dir with
    | some result => simp
    | none =>
      obtain ⟨someVictim, noVictim⟩ := inv.victim
      simp only [if_true]
      cases choice : findOldestDeviceVictim (evictable dir) dir.catalog with
      | none =>
        have pinned := noVictim choice
        refine absurd attempt (inv.tryAllocate_clear owner region_ fun holder block owns => ?_)
        by_contra meets
        obtain ⟨slot, _, holds⟩ := vacatable holder block owns meets
        exact Bool.false_ne_true ((pinned slot).symm.trans holds)
      | some victim =>
        obtain ⟨allowed, inside⟩ := someVictim victim choice
        cases eviction : evictCachedBlock g victim dir with
        | none => simp [evictCachedBlock, allowed] at eviction
        | some evicted =>
          have consistent := inv.evict eviction
          have entries : evicted.entry =
              update dir.entry victim { dir.entry victim with location := .host } := by
            unfold evictCachedBlock at eviction
            rw [if_pos allowed] at eviction
            rw [← Option.some.inj eviction]
          have others : ∀ other, other ≠ victim → evicted.entry other = dir.entry other := by
            intro other different
            rw [entries, update_of_ne different]
          have gone : (evicted.entry victim).resident = false := by
            rw [entries, update_self]
            simp [DirEntry.resident]
          simp only [eviction]
          refine inductionHypothesis consistent ?_ ?_
          · intro holder block owns meets
            cases holder with
            | inl slot =>
              have different : slot ≠ victim := by
                rintro rfl
                simp [ownedBy, gone] at owns
              rw [ownedBy, others slot different] at owns
              obtain ⟨other, same, holds⟩ := vacatable (.inl slot) block owns meets
              obtain rfl := Sum.inl.inj same
              exact ⟨slot, rfl, by simpa only [evictable, others slot different] using holds⟩
            | inr holder =>
              obtain ⟨slot, impossible, _⟩ := vacatable (.inr holder) block owns meets
              cases impossible
          · have fewer : (resident.erase victim).countP (fun slot => evictable evicted slot) =
                (resident.erase victim).countP (fun slot => evictable dir slot) := by
              refine List.countP_congr fun other member => ?_
              have different := (inv.catalog.distinct.mem_erase_iff.mp member).1
              simp only [evictable, others other different]
            rw [fewer, List.countP_erase]
            simp only [inside, allowed, and_self, if_true]
            omega

/-- An allocation that may evict succeeds exactly if eviction can clear a region
of the needed order. -/
theorem allocateCacheBlock_iff (inv : Consistent g contents strict dir held resident recycled)
    [DecidableEq ι] {holder : ι} {units : Nat} {owner : BlockState} (idle : held holder = none)
    (taken : owner ≠ .free) (positive : units ≠ 0) :
    (Directory.allocateCacheBlock g units owner true dir).2.isSome = true ↔
      ∃ region, Region g (buddyOrderForUnits units) region ∧ Vacatable dir held region := by
  constructor
  · intro granted
    have allocation := inv.allocateCacheBlock units owner true idle taken
    obtain ⟨⟨unit, order⟩, result⟩ := Option.isSome_iff_exists.mp granted
    obtain ⟨resident', consistent⟩ := allocation.consistent
    rw [result] at consistent
    have sized := allocation.sized unit order result
    obtain ⟨lists, heap⟩ := consistent.heap
    have owns : ownedBy (Directory.allocateCacheBlock g units owner true dir).1.entry
        (allocated held holder (some (unit, order))) (.inr holder) = some ⟨unit, order⟩ := by
      simp [ownedBy, allocated]
    refine ⟨⟨unit, order⟩, ⟨sized, heap.tiles.aligned _ (Or.inr ⟨_, owns⟩),
      heap.tiles.inside _ (Or.inr ⟨_, owns⟩)⟩, fun other block ownsOther meets => ?_⟩
    by_contra pinned
    have different : other ≠ .inr holder := by
      rintro rfl
      simp [ownedBy, idle] at ownsOther
    have kept := allocation.demoted.ownedBy_kept held ownsOther fun slot same => by
      by_contra holds
      exact pinned ⟨slot, same, by simpa using holds⟩
    have still : ownedBy (Directory.allocateCacheBlock g units owner true dir).1.entry
        (allocated held holder (some (unit, order))) other = some block := by
      rw [allocated, ownedBy_held, update_of_ne different]
      exact kept
    exact meets (heap.owned_apart still owns different)
  · rintro ⟨region, region_, vacatable⟩
    have fits : 2 ^ buddyOrderForUnits units ≤ g.numHeapUnits := by
      have inside := region_.inside
      rw [Block.finish, Block.size, region_.sized] at inside
      omega
    have notLarge : ¬ g.valueHeapBytes < blockBytes (buddyOrderForUnits units) := by
      rw [heapBytes_eq, blockBytes, Nat.not_lt]
      exact Nat.mul_le_mul_left _ fits
    unfold Directory.allocateCacheBlock
    rw [if_neg (by have := units_le_block units; omega), if_neg notLarge]
    refine Option.isSome_iff_ne_none.mpr (inv.allocateFrom_clear region_ vacatable ?_)
    have bounded : resident.length ≤ g.maxKeys := by
      have subset : resident.toFinset ⊆ Finset.range g.maxKeys := by
        intro slot member
        rw [Finset.mem_range]
        exact (inv.catalog.residentUsed slot (List.mem_toFinset.mp member)).trans_le
          inv.catalog.used
      have cards := Finset.card_le_card subset
      rwa [List.toFinset_card_of_nodup inv.catalog.distinct, Finset.card_range] at cards
    exact List.countP_le_length.trans bounded

end Consistent

end KvCache.Directory
