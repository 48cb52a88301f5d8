import KvCache.Directory.LifeInvariant
import KvCache.Directory.Capacity

/-!
# The order of evictions

An allocation that may evict drops committed entries one by one, from the least recently
used end of the residency list, each time because no block of the needed order or above is
free. It stops at the first state that has such a block, and gives up only when no
committed entry is left.

The stamps of the victims increase as long as the access epoch has not wrapped. After the
wrap a younger entry may have the smaller stamp; the order of the list does not change.
-/

namespace KvCache.Directory

open AlignedBlock Buddy Function HashIndex Layout Residency

universe u
variable {ι : Type u}
variable {g : Geometry} {contents : Nat → HeapBlock} {strict : Prop} {dir after last : State}
variable {held : ι → Option Block} {resident recycled victims : List Nat} {units slot : Nat}

/-- No block of the needed order or above is free. -/
def NoBlock (units : Nat) (heap : Heap) : Prop :=
  ∀ order, buddyOrderForUnits units ≤ order → order ≤ heap.maxOrder → heap.freeHead order = none

/-- The slots from a link towards the head of the residency list. -/
def lruFrom (catalog : Catalog) : Nat → LruLink → List Nat
  | fuel + 1, .slot slot => slot :: lruFrom catalog fuel (catalog.node slot).prev
  | _, _ => []

/-- The residency list from its least recently used end. -/
def lruOrder (catalog : Catalog) : List Nat := lruFrom catalog catalog.lruCount catalog.lruTail

/-- The evictions of an allocation: each one drops the oldest committed entry while no
block is free. -/
inductive Evictions (g : Geometry) (units : Nat) : State → List Nat → State → Prop where
  | done (dir : State) : Evictions g units dir [] dir
  | evict {dir middle last : State} {victim : Nat} {victims : List Nat}
      (full : NoBlock units dir.heap)
      (oldest : findOldestDeviceVictim (evictable dir) dir.catalog = some victim)
      (evicted : evictCachedBlock g victim dir = some middle)
      (later : Evictions g units middle victims last) : Evictions g units dir (victim :: victims) last

/-! ## Free blocks -/

/-- The allocator refuses exactly if no block is free. -/
theorem buddyAllocate_none_iff (units : Nat) (owner : BlockState) (heap : Heap) :
    buddyAllocate units owner heap = none ↔ NoBlock units heap := by
  obtain ⟨lower, found, skipped⟩ := searchOrder_spec heap
    (heap.maxOrder + 1 - buddyOrderForUnits units) (buddyOrderForUnits units) (by omega)
  unfold buddyAllocate
  dsimp only
  constructor
  · intro refused order needed bounded
    split at refused
    · next above => exact skipped order needed (by omega)
    · next within =>
      have someHead := found (by omega)
      split at refused
      · next empty => exact absurd empty someHead
      · exact nomatch refused
  · intro none'
    split
    · rfl
    · next within => exact absurd (none' _ lower (by omega)) (found (by omega))

namespace Consistent

/-- While some block of the needed order is free, the byte counter leaves room for it.

Proof: the lower end of a free block is a clear region of the needed order. -/
theorem room (inv : Consistent g contents strict dir held resident recycled)
    (free : ¬ NoBlock units dir.heap) :
    dir.liveDeviceBytes ≤ g.valueHeapBytes - blockBytes (buddyOrderForUnits units) := by
  obtain ⟨lists, heap⟩ := inv.heap
  obtain ⟨order, needed, _, listed⟩ : ∃ order, buddyOrderForUnits units ≤ order ∧
      order ≤ dir.heap.maxOrder ∧ dir.heap.freeHead order ≠ none := by
    by_contra none'
    exact free fun order needed bounded => by
      by_contra listed
      exact none' ⟨order, needed, bounded, listed⟩
  obtain ⟨unit, head⟩ := Option.ne_none_iff_exists'.mp listed
  rw [heap.free.heads] at head
  have piece : unit ∈ lists order := List.mem_of_head? head
  have whole : (⟨unit, order⟩ : Block).finish ≤ g.numHeapUnits :=
    heap.tiles.inside ⟨unit, order⟩ (Or.inl piece)
  have smaller : 2 ^ buddyOrderForUnits units ≤ 2 ^ order := Nat.pow_le_pow_right (by decide) needed
  have within : (⟨unit, buddyOrderForUnits units⟩ : Block).finish ≤ (⟨unit, order⟩ : Block).finish := by
    simp only [Block.finish, Block.size]
    omega
  let region : Block := ⟨unit, buddyOrderForUnits units⟩
  change dir.liveDeviceBytes ≤ g.valueHeapBytes - blockBytes region.order
  refine inv.live_le (within.trans whole) ?_
  intro slot isResident
  have owned : ownedBy dir.entry held (.inl slot) = some (dir.entry slot).block := by
    simp [ownedBy, isResident]
  have different : (dir.entry slot).block ≠ ⟨unit, order⟩ := by
    intro same
    exact heap.exclusive _ _ owned (by rw [same]; exact piece)
  have apart := heap.tiles.apart _ _ (Or.inr ⟨_, owned⟩) (Or.inl piece) different
  rcases apart with before | behind
  · exact Or.inl before
  · exact Or.inr (within.trans behind)

/-- An attempt fails exactly if no block is free. -/
theorem tryAllocate_none_iff (inv : Consistent g contents strict dir held resident recycled)
    (owner : BlockState) :
    Directory.tryAllocate g units owner dir = none ↔ NoBlock units dir.heap := by
  unfold Directory.tryAllocate
  constructor
  · intro refused
    by_contra free
    rw [if_pos (inv.room free), Option.map_eq_none_iff, buddyAllocate_none_iff] at refused
    exact free refused
  · intro none'
    split
    · rw [Option.map_eq_none_iff, buddyAllocate_none_iff]
      exact none'
    · rfl

end Consistent

/-! ## The order of the list -/

/-- The walk from a cut of the residency list spells the part before the cut. -/
theorem lruFrom_eq {maxKeys : Nat} {catalog : Catalog}
    (inv : CatalogInv maxKeys catalog resident recycled) (front back : List Nat)
    (split : resident = front ++ back) :
    lruFrom catalog front.length (linkTo front.getLast?) = front.reverse := by
  induction front using List.reverseRecOn generalizing back with
  | nil => rfl
  | append_singleton rest newest inductionHypothesis =>
    have cut : resident = rest ++ newest :: back := by simpa using split
    have before := inductionHypothesis (newest :: back) cut
    rw [← (inv.links cut).1] at before
    have length : (rest ++ [newest]).length = rest.length + 1 := by simp
    have final : (rest ++ [newest]).getLast? = some newest := by simp
    rw [length, final, linkTo, lruFrom, before, List.reverse_append, List.reverse_singleton,
      List.singleton_append]

theorem lruOrder_eq {maxKeys : Nat} {catalog : Catalog}
    (inv : CatalogInv maxKeys catalog resident recycled) : lruOrder catalog = resident.reverse := by
  rw [lruOrder, inv.count, inv.tail]
  exact lruFrom_eq inv resident [] (by simp)

/-- The first element of a filtered list without repetitions, and the rest of it. -/
theorem filter_erase_first {slots : List Nat} {keep keep' : Nat → Bool} {first : Nat}
    (distinct : slots.Nodup) (found : slots.find? keep = some first)
    (others : ∀ slot, slot ≠ first → keep' slot = keep slot) :
    slots.filter keep = first :: (slots.erase first).filter keep' := by
  induction slots with
  | nil => cases found
  | cons head rest inductionHypothesis =>
    obtain ⟨fresh, distinctRest⟩ := List.nodup_cons.mp distinct
    by_cases kept : keep head = true
    · have same : head = first := by simpa [List.find?_cons, kept] using found
      subst same
      rw [List.filter_cons_of_pos kept, List.erase_cons_head]
      congr 1
      apply List.filter_congr
      intro slot member
      exact (others slot fun same => fresh (same ▸ member)).symm
    · have later : rest.find? keep = some first := by simpa [List.find?_cons, kept] using found
      have different : head ≠ first := by
        intro same
        exact kept (same ▸ List.find?_some later)
      rw [List.filter_cons_of_neg kept, List.erase_cons_tail (by simpa using different),
        List.filter_cons_of_neg (by rw [others head different]; exact kept),
        inductionHypothesis distinctRest later]

/-- What an eviction leaves alone. -/
theorem evictCachedBlock_entry (evicted : evictCachedBlock g slot dir = some after) :
    after.entry = update dir.entry slot { dir.entry slot with location := .host } := by
  unfold evictCachedBlock at evicted
  split at evicted
  · obtain rfl := Option.some.inj evicted
    rfl
  · exact nomatch evicted

namespace Evictions

/-- Where the evictions of a consistent directory lead.

Proof: by induction on the evictions. The oldest committed entry is the first one of the
list from its least recently used end; its eviction takes it out of the list, keeps the
order of the others, and leaves their entries alone. -/
theorem spec [DecidableEq ι] (evictions : Evictions g units dir victims last)
    (inv : Consistent g contents strict dir held resident recycled) :
    (∃ resident', Consistent g contents strict last held resident' recycled) ∧
      victims <+: resident.reverse.filter (evictable dir) ∧
      (∀ slot, slot ∉ victims → last.entry slot = dir.entry slot) ∧
      ∀ slot ∈ victims, last.entry slot = { dir.entry slot with location := .host } := by
  induction evictions generalizing resident with
  | done dir =>
    exact ⟨⟨resident, inv⟩, List.nil_prefix, fun _ _ => rfl,
      fun _ member => absurd member List.not_mem_nil⟩
  | @evict dir middle last victim victims full oldest evicted later inductionHypothesis =>
    have entries := evictCachedBlock_entry evicted
    have others : ∀ slot, slot ≠ victim → middle.entry slot = dir.entry slot := by
      intro slot different
      rw [entries, update_of_ne different]
    have here : middle.entry victim = { dir.entry victim with location := .host } := by
      rw [entries, update_self]
    have gone : evictable middle victim = false := by simp [evictable, here]
    obtain ⟨consistent, ordered, kept, demoted⟩ := inductionHypothesis (inv.evict evicted)
    have first : resident.reverse.find? (evictable dir) = some victim := by
      rw [← inv.catalog.findOldest_eq]
      exact oldest
    have rest := filter_erase_first (List.nodup_reverse.mpr inv.catalog.distinct) first
      (fun slot different => show evictable middle slot = evictable dir slot by
        simp only [evictable, others slot different])
    have reversed : (resident.erase victim).reverse = resident.reverse.erase victim := by
      rw [inv.catalog.distinct.erase_eq_filter,
        (List.nodup_reverse.mpr inv.catalog.distinct).erase_eq_filter, List.filter_reverse]
    rw [reversed] at ordered
    have notAgain : victim ∉ victims := by
      intro member
      have allowed := (List.mem_filter.mp (ordered.subset member)).2
      exact Bool.false_ne_true (gone.symm.trans allowed)
    refine ⟨consistent, ?_, ?_, ?_⟩
    · rw [rest]
      exact List.cons_prefix_cons.mpr ⟨rfl, ordered⟩
    · intro slot absent
      have different : slot ≠ victim := fun same => absent (same ▸ List.mem_cons_self)
      have notLater : slot ∉ victims := fun member => absent (.tail _ member)
      rw [kept slot notLater, others slot different]
    · intro slot member
      rcases List.mem_cons.mp member with rfl | inside
      · rw [kept slot notAgain, here]
      · have different : slot ≠ victim := fun same => notAgain (same ▸ inside)
        rw [demoted slot inside, others slot different]

/-- The victims are as many as the directory has slots at most. -/
theorem bounded [DecidableEq ι] (evictions : Evictions g units dir victims last)
    (inv : Consistent g contents strict dir held resident recycled) :
    victims.length ≤ g.maxKeys := by
  obtain ⟨_, ordered, _⟩ := evictions.spec inv
  have subset : resident.toFinset ⊆ Finset.range g.maxKeys := by
    intro slot member
    rw [Finset.mem_range]
    exact (inv.catalog.residentUsed slot (List.mem_toFinset.mp member)).trans_le inv.catalog.used
  have cards := Finset.card_le_card subset
  rw [List.toFinset_card_of_nodup inv.catalog.distinct, Finset.card_range] at cards
  calc victims.length ≤ (resident.reverse.filter (evictable dir)).length := ordered.length_le
    _ ≤ resident.reverse.length := List.length_filter_le _ _
    _ = resident.length := List.length_reverse
    _ ≤ g.maxKeys := cards

/-- Without a wrap the stamps of the victims increase. -/
theorem increasing [DecidableEq ι] (evictions : Evictions g units dir victims last)
    (inv : Consistent g contents strict dir held resident recycled) (holds : strict) :
    victims.Pairwise fun earlier later =>
      (dir.entry earlier).lastAccess < (dir.entry later).lastAccess := by
  obtain ⟨_, ordered, _⟩ := evictions.spec inv
  have stamps := List.pairwise_reverse.mpr (inv.recent holds).1
  exact (stamps.sublist List.filter_sublist).sublist ordered.sublist

end Evictions

/-! ## The loop -/

/-- What the loop does.

Proof: by induction on the attempts. An attempt that fails leaves an eviction of the oldest
committed entry, or none is left. The attempts suffice for all of them. -/
theorem allocateFrom_evictions [DecidableEq ι]
    (inv : Consistent g contents strict dir held resident recycled) {owner : BlockState}
    (attempts : Nat) (enough : (resident.filter (evictable dir)).length ≤ attempts) :
    ∃ victims last, Evictions g units dir victims last ∧
      match allocateFrom g units owner true attempts dir with
      | (after, none) =>
        after = last ∧ (∀ slot, evictable last slot = false) ∧ NoBlock units last.heap
      | (after, some block) =>
        ¬ NoBlock units last.heap ∧ tryAllocate g units owner last = some (after, block) := by
  induction attempts generalizing dir resident with
  | zero =>
    refine ⟨[], dir, .done dir, ?_⟩
    unfold allocateFrom
    cases attempt : tryAllocate g units owner dir with
    | some result =>
      refine ⟨fun full => ?_, rfl⟩
      cases attempt.symm.trans ((inv.tryAllocate_none_iff owner).mpr full)
    | none =>
      refine ⟨rfl, fun slot => ?_, (inv.tryAllocate_none_iff owner).mp attempt⟩
      by_contra allowed
      have committed : evictable dir slot = true := by simpa using allowed
      have inside : slot ∈ resident := by
        rw [inv.residency]
        simp only [evictable, Bool.and_eq_true, beq_iff_eq] at committed
        rw [DirEntry.resident_iff, committed.2]
        exact ⟨committed.1, fun impossible => by cases impossible⟩
      have member : slot ∈ resident.filter (evictable dir) :=
        List.mem_filter.mpr ⟨inside, committed⟩
      rw [List.length_eq_zero_iff.mp (Nat.le_zero.mp enough)] at member
      exact absurd member List.not_mem_nil
  | succ remaining inductionHypothesis =>
    unfold allocateFrom
    cases attempt : tryAllocate g units owner dir with
    | some result =>
      refine ⟨[], dir, .done dir, fun full => ?_, attempt⟩
      cases attempt.symm.trans ((inv.tryAllocate_none_iff owner).mpr full)
    | none =>
      have full := (inv.tryAllocate_none_iff owner).mp attempt
      obtain ⟨someVictim, noVictim⟩ := inv.victim
      simp only [if_true]
      cases choice : findOldestDeviceVictim (evictable dir) dir.catalog with
      | none => exact ⟨[], dir, .done dir, rfl, noVictim choice, full⟩
      | some victim =>
        obtain ⟨allowed, inside⟩ := someVictim victim choice
        cases eviction : evictCachedBlock g victim dir with
        | none => simp [evictCachedBlock, allowed] at eviction
        | some evicted =>
          have entries := evictCachedBlock_entry eviction
          have fewer : ((resident.erase victim).filter (evictable evicted)).length ≤ remaining := by
            have same : (resident.erase victim).filter (evictable evicted) =
                (resident.erase victim).filter (evictable dir) := by
              apply List.filter_congr
              intro slot member
              have different := (inv.catalog.distinct.mem_erase_iff.mp member).1
              simp only [evictable, entries, update_of_ne different]
            have one := List.countP_erase (evictable dir) resident victim
            rw [if_pos ⟨inside, allowed⟩] at one
            rw [same, ← List.countP_eq_length_filter, one]
            rw [← List.countP_eq_length_filter] at enough
            omega
          obtain ⟨victims, last, later, outcome⟩ := inductionHypothesis (inv.evict eviction) fewer
          refine ⟨victim :: victims, last, .evict full choice eviction later, ?_⟩
          simp only [eviction]
          exact outcome

/-! ## A further holder -/

/-- The owners may be renamed and joined by others that own nothing. -/
theorem HeapInv.rename {κ : Type u} {total : Nat} {heap : Heap} {lists : Nat → List Nat}
    {owned : ι → Option Block} (inv : HeapInv total contents heap lists owned) (name : κ → Option ι)
    (once : ∀ left right owner, name left = some owner → name right = some owner → left = right)
    (all : ∀ owner, ∃ other, name other = some owner) :
    HeapInv total contents heap lists fun other => (name other).bind owned where
  free := inv.free
  maxOrder := inv.maxOrder
  tiles := inv.tiles.congr fun block => by
    refine or_congr_right ⟨?_, ?_⟩
    · rintro ⟨other, owns⟩
      obtain ⟨owner, _, owns⟩ := Option.bind_eq_some_iff.mp owns
      exact ⟨owner, owns⟩
    · rintro ⟨owner, owns⟩
      obtain ⟨other, named⟩ := all owner
      exact ⟨other, by rw [named]; exact owns⟩
  exclusive := fun other block owns => by
    obtain ⟨owner, _, owns⟩ := Option.bind_eq_some_iff.mp owns
    exact inv.exclusive owner block owns
  distinct := fun left right block leftOwns rightOwns => by
    obtain ⟨leftOwner, leftName, leftOwns⟩ := Option.bind_eq_some_iff.mp leftOwns
    obtain ⟨rightOwner, rightName, rightOwns⟩ := Option.bind_eq_some_iff.mp rightOwns
    obtain rfl := inv.distinct leftOwner rightOwner block leftOwns rightOwns
    exact once left right leftOwner leftName rightName
  ownedMarked := fun other block owns => by
    obtain ⟨owner, _, owns⟩ := Option.bind_eq_some_iff.mp owns
    exact inv.ownedMarked owner block owns
  stale := inv.stale
  coalesced := inv.coalesced

/-- The blocks held, with a further holder that holds nothing. -/
def withCaller (held : ι → Option Block) : Option ι → Option Block
  | none => none
  | some holder => held holder

theorem Consistent.withCaller (inv : Consistent g contents strict dir held resident recycled) :
    Consistent g contents strict dir (Directory.withCaller held) resident recycled := by
  obtain ⟨lists, heap⟩ := inv.heap
  let name : Nat ⊕ Option ι → Option (Nat ⊕ ι)
    | .inl slot => some (.inl slot)
    | .inr holder => holder.map .inr
  have renamed := HeapInv.rename heap name
    (by
      intro left right owner leftName rightName
      rcases left with _ | _ | _ <;> rcases right with _ | _ | _ <;> cases leftName <;>
        cases rightName <;> rfl)
    (by
      rintro (slot | holder)
      · exact ⟨.inl slot, rfl⟩
      · exact ⟨.inr (some holder), rfl⟩)
  have same : ownedBy dir.entry (Directory.withCaller held) =
      fun owner => (name owner).bind (ownedBy dir.entry held) := by
    funext owner
    rcases owner with _ | _ | _ <;> rfl
  exact { inv with heap := ⟨lists, by rw [same]; exact renamed⟩ }

/-- The request is one that the heap can ever grant. -/
structure Admitted (g : Geometry) (units : Nat) : Prop where
  positive : 0 < units
  within : units ≤ g.numHeapUnits
  bytes : blockBytes (buddyOrderForUnits units) ≤ g.valueHeapBytes

/-- What an allocation that may evict does to a consistent directory.

Proof: the attempts leave a sequence of evictions, whose victims begin the committed part of the
list from its least recently used end. The last attempt succeeds exactly if a block is free. -/
theorem Consistent.allocation_outcome [DecidableEq ι]
    (inv : Consistent g contents strict dir held resident recycled) (admitted : Admitted g units)
    {owner : BlockState} (taken : owner ≠ .free) :
    ∃ victims last, Evictions g units dir victims last ∧ victims.length ≤ g.maxKeys ∧
      victims <+: (lruOrder dir.catalog).filter (evictable dir) ∧
      (strict → victims.Pairwise fun earlier later =>
        (dir.entry earlier).lastAccess < (dir.entry later).lastAccess) ∧
      (∀ slot, slot ∉ victims → last.entry slot = dir.entry slot) ∧
      (∀ slot ∈ victims, last.entry slot = { dir.entry slot with location := .host }) ∧
      match Directory.allocateCacheBlock g units owner true dir with
      | (after, none) =>
        after = last ∧ (∀ slot, evictable last slot = false) ∧ NoBlock units last.heap
      | (after, some (unit, order)) =>
        ¬ NoBlock units last.heap ∧ after.entry = last.entry ∧
          order = buddyOrderForUnits units ∧ (⟨unit, order⟩ : Block).Aligned ∧
          (⟨unit, order⟩ : Block).finish ≤ g.numHeapUnits ∧
          ∀ other block, ownedBy after.entry held other = some block →
            block.Apart ⟨unit, order⟩ := by
  have enough : (resident.filter (evictable dir)).length ≤ g.maxKeys := by
    have subset : resident.toFinset ⊆ Finset.range g.maxKeys := by
      intro slot member
      rw [Finset.mem_range]
      exact (inv.catalog.residentUsed slot (List.mem_toFinset.mp member)).trans_le inv.catalog.used
    have cards := Finset.card_le_card subset
    rw [List.toFinset_card_of_nodup inv.catalog.distinct, Finset.card_range] at cards
    exact (List.length_filter_le _ _).trans cards
  obtain ⟨victims, last, evictions, outcome⟩ :=
    @allocateFrom_evictions _ _ _ _ _ _ _ _ units _ inv owner g.maxKeys enough
  obtain ⟨⟨resident', consistent⟩, ordered, kept, demoted⟩ := evictions.spec inv
  refine ⟨victims, last, evictions, evictions.bounded inv, ?_, evictions.increasing inv, kept,
    demoted, ?_⟩
  · rw [lruOrder_eq inv.catalog]
    exact ordered
  · rw [Directory.allocateCacheBlock,
      if_neg (by have := admitted.positive; have := admitted.within; omega),
      if_neg (Nat.not_lt.mpr admitted.bytes)]
    generalize Directory.allocateFrom g units owner true g.maxKeys dir = result at outcome ⊢
    rcases result with ⟨after, _ | ⟨unit, order⟩⟩
    · exact outcome
    · obtain ⟨free, found⟩ := outcome
      have idle : Directory.withCaller held none = none := rfl
      obtain ⟨sized, ⟨heap, rfl⟩, granted⟩ := consistent.withCaller.tryAllocate idle taken found
      obtain ⟨lists, heapInv⟩ := granted.heap
      have owns : ownedBy { last with heap := heap }.entry
          (update (Directory.withCaller held) none (some ⟨unit, order⟩)) (.inr none) =
            some ⟨unit, order⟩ := by
        simp [ownedBy]
      refine ⟨free, rfl, sized, heapInv.tiles.aligned _ (Or.inr ⟨_, owns⟩),
        heapInv.tiles.inside _ (Or.inr ⟨_, owns⟩), ?_⟩
      intro other block ownsOther
      cases other with
      | inl slot =>
        have still : ownedBy { last with heap := heap }.entry
            (update (Directory.withCaller held) none (some ⟨unit, order⟩)) (.inl slot) = some block :=
          ownsOther
        exact heapInv.owned_apart still owns (by simp)
      | inr holder =>
        have still : ownedBy { last with heap := heap }.entry
            (update (Directory.withCaller held) none (some ⟨unit, order⟩)) (.inr (some holder)) =
              some block := by
          simpa [ownedBy, Directory.withCaller] using ownsOther
        exact heapInv.owned_apart still owns (by simp)

/-- Eviction order and sufficiency.

Proof: the invariant of a life holds of the directory. -/
theorem eviction_order {policy : LeasePolicy} {life : Life}
    (reached : LifeReached g policy contents life) (admitted : Admitted g units)
    {owner : BlockState} (taken : owner ≠ .free) :
    ∃ victims last, Evictions g units life.dir victims last ∧ victims.length ≤ g.maxKeys ∧
      victims <+: (lruOrder life.dir.catalog).filter (evictable life.dir) ∧
      (life.accesses < 2 ^ 32 → victims.Pairwise fun earlier later =>
        (life.dir.entry earlier).lastAccess < (life.dir.entry later).lastAccess) ∧
      (∀ slot, slot ∉ victims → last.entry slot = life.dir.entry slot) ∧
      (∀ slot ∈ victims, last.entry slot = { life.dir.entry slot with location := .host }) ∧
      match allocateCacheBlock g units owner true life.dir with
      | (after, none) =>
        after = last ∧ (∀ slot, evictable last slot = false) ∧ NoBlock units last.heap
      | (after, some (unit, order)) =>
        ¬ NoBlock units last.heap ∧ after.entry = last.entry ∧
          order = buddyOrderForUnits units ∧ (⟨unit, order⟩ : Block).Aligned ∧
          (⟨unit, order⟩ : Block).finish ≤ g.numHeapUnits ∧
          ∀ other block, ownedBy after.entry life.held other = some block →
            block.Apart ⟨unit, order⟩ := by
  obtain ⟨resident, recycled, lives⟩ := Lives.reached reached
  exact lives.consistent.allocation_outcome admitted taken

/-! ## When an allocation succeeds -/

/-- A region of the needed order that meets no block of a pending entry and none held outside. -/
def ClearRegion (g : Geometry) (units : Nat) (entry : Nat → DirEntry) (held : ι → Option Block)
    (region : Block) : Prop :=
  region.order = buddyOrderForUnits units ∧ region.Aligned ∧ region.finish ≤ g.numHeapUnits ∧
    (∀ slot, (entry slot).pending = true → (entry slot).block.Apart region) ∧
    ∀ holder block, held holder = some block → block.Apart region

/-- An allocation that may evict succeeds exactly if some region is clear of what it may not evict.

Proof: a block that it returns is such a region, since pending entries are no victims. If it
fails, every resident entry that is left is pending, and no region is free. -/
theorem Consistent.allocates_iff [DecidableEq ι]
    (inv : Consistent g contents strict dir held resident recycled) {owner : BlockState}
    (taken : owner ≠ .free) :
    (∃ block, (Directory.allocateCacheBlock g units owner true dir).2 = some block) ↔
      Admitted g units ∧ ∃ region, ClearRegion g units dir.entry held region := by
  by_cases admitted : Admitted g units
  · obtain ⟨victims, last, evictions, -, ordered, -, kept, demoted, outcome⟩ :=
      inv.allocation_outcome admitted taken
    have pinned : ∀ slot, (dir.entry slot).pending = true → last.entry slot = dir.entry slot := by
      intro slot pending
      apply kept
      intro member
      have allowed := (List.mem_filter.mp (ordered.subset member)).2
      have located := ((DirEntry.pending_iff _).mp pending).2
      simp [evictable, located] at allowed
    generalize Directory.allocateCacheBlock g units owner true dir = result at outcome ⊢
    rcases result with ⟨after, _ | ⟨unit, order⟩⟩
    · obtain ⟨-, noVictim, full⟩ := outcome
      obtain ⟨⟨resident', consistent⟩, -, -, -⟩ := evictions.spec inv
      obtain ⟨lists, heap⟩ := consistent.heap
      constructor
      · rintro ⟨block, impossible⟩
        cases impossible
      · rintro ⟨-, region, sized, aligned, inside, pendingApart, heldApart⟩
        exfalso
        obtain ⟨owned, block, owns, meets⟩ := heap.buddyAllocate_none
          ((buddyAllocate_none_iff units owner last.heap).mpr full) region sized aligned inside
        apply meets
        cases owned with
        | inr holder => exact heldApart holder block owns
        | inl slot =>
          obtain ⟨isResident, rfl⟩ : (last.entry slot).resident = true ∧ (last.entry slot).block = block := by
            simpa [ownedBy] using owns
          obtain ⟨valid, notHost⟩ := (DirEntry.resident_iff _).mp isResident
          have notVictim : slot ∉ victims := fun member => notHost (by rw [demoted slot member])
          have same := kept slot notVictim
          have pending : (dir.entry slot).pending = true := by
            rw [DirEntry.pending_iff, ← same]
            refine ⟨valid, ?_⟩
            have notDevice := noVictim slot
            cases located : (last.entry slot).location with
            | host => exact absurd located notHost
            | device => simp [evictable, valid, located] at notDevice
            | devicePendingHost => rfl
          rw [same]
          exact pendingApart slot pending
    · obtain ⟨-, entries, sized, aligned, inside, apart⟩ := outcome
      constructor
      · intro _
        refine ⟨admitted, ⟨unit, order⟩, sized, aligned, inside, fun slot pending => ?_,
          fun holder block owns => apart (.inr holder) block owns⟩
        apply apart (.inl slot)
        rw [ownedBy, entries, pinned slot pending, if_pos (DirEntry.resident_of_pending pending)]
      · intro _
        exact ⟨_, rfl⟩
  · constructor
    · rintro ⟨block, found⟩
      exfalso
      apply admitted
      unfold Directory.allocateCacheBlock at found
      split at found
      · cases found
      · next within =>
        split at found
        · cases found
        · next bytes => exact ⟨by omega, by omega, Nat.not_lt.mp bytes⟩
    · rintro ⟨isAdmitted, -⟩
      exact absurd isAdmitted admitted

/-! ## Two entries in a heap of two units -/

/-- A directory of two keys over a heap of two units. -/
def twoKeys : Geometry :=
  ⟨2, 8, 1, 2 * maxChunkValueBytes,
  Nat.two_pos, Geometry.eight_wire, Nat.one_pos⟩

/-- A lease is taken only from free blocks. -/
def freeLeases : LeasePolicy := ⟨false, false⟩

/-- Heap metadata without a free marker. -/
def blankHeap : Nat → HeapBlock := fun _ => ⟨.continuation, 0, none, none⟩

/-- Store, publish and commit a value of one byte. -/
def storeOne (bind : Bool) (key : Key) : List DirAction :=
  [.prepare 0 bind key 1, .publish 1 false, .commitHead 1]

/-- With two committed entries a request for two units evicts both. -/
theorem eviction_order_two : ∃ life,
    Run.execute (lifeStep twoKeys freeLeases) (coldLife twoKeys blankHeap)
        (storeOne false [1] ++ storeOne true [2]) = some (life, []) ∧
      ∃ victims last, Evictions twoKeys 2 life.dir victims last ∧
        victims <+: (lruOrder life.dir.catalog).filter (evictable life.dir) := by
  obtain ⟨life, executed⟩ : ∃ life,
      Run.execute (lifeStep twoKeys freeLeases) (coldLife twoKeys blankHeap)
        (storeOne false [1] ++ storeOne true [2]) = some (life, []) := ⟨_, rfl⟩
  refine ⟨life, executed, ?_⟩
  have reached : LifeReached twoKeys freeLeases blankHeap life :=
    ⟨_, Run.Run.execute .start executed⟩
  have admitted : Admitted twoKeys 2 := ⟨by decide, by decide, by decide⟩
  obtain ⟨victims, last, evictions, _, ordered, _⟩ :=
    eviction_order reached admitted (by decide : BlockState.putLease ≠ .free)
  exact ⟨victims, last, evictions, ordered⟩

/-- The state after the first value was stored. -/
def firstStored : Life :=
  match Run.execute (lifeStep twoKeys freeLeases) (coldLife twoKeys blankHeap)
      (storeOne false [1]) with
  | some (life, _) => life
  | none => coldLife twoKeys blankHeap

/-- The same state after hits of the first value up to the given access. -/
def firstHit (accesses : Nat) : Life :=
  { firstStored with
    dir := { firstStored.dir with
      entry := update firstStored.dir.entry 0
        { firstStored.dir.entry 0 with lastAccess := accesses % 2 ^ 32 }
      epoch := accesses % 2 ^ 32 }
    accesses := accesses }

theorem firstHit_one : firstHit 1 = firstStored := by
  have entries : update firstStored.dir.entry 0
      { firstStored.dir.entry 0 with lastAccess := 1 % 2 ^ 32 } = firstStored.dir.entry :=
    update_eq_self_iff.mpr rfl
  unfold firstHit
  rw [entries]
  rfl

theorem firstHit_step (accesses : Nat) :
    lifeStep twoKeys freeLeases (firstHit accesses) (.hit [1]) =
      some (firstHit (accesses + 1), []) := by
  have found : dirLookup twoKeys [1] (firstHit accesses).dir = some 0 := rfl
  have stamped : recordDeviceHit 0 (nextEpoch (firstHit accesses).dir.epoch)
      (advanceEpoch (firstHit accesses).dir) = (firstHit (accesses + 1)).dir := by
    have epoch : nextEpoch (firstHit accesses).dir.epoch = (accesses + 1) % 2 ^ 32 := by
      change (accesses % 2 ^ 32 + 1) % 2 ^ 32 = _
      omega
    have front : residencyLruTouch 0 firstStored.dir.catalog = firstStored.dir.catalog := rfl
    rw [epoch]
    unfold recordDeviceHit persistGetAccessStamp advanceEpoch
    rw [epoch]
    simp only [firstHit, update_idem, update_self, front]
  have located : ((firstHit accesses).dir.entry 0).location = .device := rfl
  have onDevice : ((firstHit accesses).dir.entry 0).location ≠ .host := by
    rw [located]
    decide
  simp only [lifeStep, found, Option.bind_some, if_neg onDevice, stamped]
  rfl

theorem firstHit_reached (count : Nat) :
    LifeReached twoKeys freeLeases blankHeap (firstHit (count + 1)) := by
  induction count with
  | zero =>
    rw [firstHit_one]
    have executed : Run.execute (lifeStep twoKeys freeLeases) (coldLife twoKeys blankHeap)
        (storeOne false [1]) = some (firstStored, []) := rfl
    exact ⟨_, Run.Run.execute .start executed⟩
  | succ count inductionHypothesis =>
    obtain ⟨trace, run⟩ := inductionHypothesis
    exact ⟨_, run.next ⟨.hit [1], firstHit_step (count + 1)⟩⟩

/-- The number of accesses before the wrap. -/
def lastAccesses : Nat := 2 ^ 32 - 2 + 1

/-- The state after the second value was published at the wrap and committed too. -/
def secondStored : Life :=
  match Run.execute (lifeStep twoKeys freeLeases) (firstHit lastAccesses) (storeOne true [2]) with
  | some (life, _) => life
  | none => coldLife twoKeys blankHeap

/-- Of the heap of two units no block of two is free while a list is empty. -/
theorem noBlock_two {heap : Heap} (small : heap.maxOrder = 1) (empty : heap.freeHead 1 = none) :
    NoBlock 2 heap := by
  intro order needed bounded
  have least : buddyOrderForUnits 2 = 1 := by decide
  have same : order = 1 := by omega
  rw [same]
  exact empty

/-- Both values are evicted for two units, the first one first. -/
theorem secondStored_evictions : ∃ last, Evictions twoKeys 2 secondStored.dir [0, 1] last := by
  obtain ⟨middle, first⟩ := Option.isSome_iff_exists.mp
    (by decide +kernel : (evictCachedBlock twoKeys 0 secondStored.dir).isSome = true)
  have isMiddle : middle = (evictCachedBlock twoKeys 0 secondStored.dir).getD secondStored.dir := by
    rw [first, Option.getD_some]
  obtain ⟨last, second⟩ := Option.isSome_iff_exists.mp
    (by rw [isMiddle]; decide +kernel : (evictCachedBlock twoKeys 1 middle).isSome = true)
  refine ⟨last, .evict (noBlock_two ?_ ?_) ?_ first (.evict (noBlock_two ?_ ?_) ?_ second (.done last))⟩
  · decide +kernel
  · decide +kernel
  · decide +kernel
  · rw [isMiddle]
    decide +kernel
  · rw [isMiddle]
    decide +kernel
  · rw [isMiddle]
    decide +kernel

/-- Stamps do not order the evictions once the epoch word wrapped: a first value whose last
hit is the last access before the wrap is evicted before a second value that was published
at the wrap, and has the larger stamp. -/
theorem wrapped_stamps_decrease :
    ¬ ∀ (g : Geometry) (policy : LeasePolicy) (contents : Nat → HeapBlock) (life : Life)
      (units : Nat), LifeReached g policy contents life → Admitted g units →
      ∀ victims last, Evictions g units life.dir victims last →
        victims.Pairwise fun earlier later =>
          (life.dir.entry earlier).lastAccess < (life.dir.entry later).lastAccess := by
  intro increasing
  obtain ⟨trace, run⟩ := firstHit_reached (2 ^ 32 - 2)
  have executed : Run.execute (lifeStep twoKeys freeLeases) (firstHit (2 ^ 32 - 2 + 1))
      (storeOne true [2]) = some (secondStored, []) := rfl
  have reached : LifeReached twoKeys freeLeases blankHeap secondStored := ⟨_, run.execute executed⟩
  have admitted : Admitted twoKeys 2 := ⟨by decide, by decide, by decide⟩
  obtain ⟨last, evictions⟩ := secondStored_evictions
  have ordered := increasing _ _ _ _ _ reached admitted _ _ evictions
  have older := (List.pairwise_cons.mp ordered).1 1 List.mem_cons_self
  have younger : (secondStored.dir.entry 1).lastAccess < (secondStored.dir.entry 0).lastAccess := by
    decide +kernel
  exact Nat.lt_asymm younger older

end KvCache.Directory
