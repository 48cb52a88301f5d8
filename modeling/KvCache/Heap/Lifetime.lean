import KvCache.Foundation.Run
import KvCache.Heap.Operations

/-!
# Whole lifetimes of the heap

A lifetime starts with cold start and goes on with allocations and frees in any
order. Handles name the blocks that are currently allocated; who holds a handle
does not matter to the heap. A free is given a handle, so it applies to an
allocated block with the order it was allocated at.

In every state reached the free blocks and the allocated blocks partition the
heap, the free lists are well formed, and no two free siblings coexist. Freeing
everything therefore leads back to the seeded set of free blocks. A metadata word
that reads as free belongs to a free block, unless it is a word that cold start
found in DRAM and nothing has written since; no free ever acts on such a word.
-/

namespace KvCache.Buddy

open AlignedBlock Function Layout Run

/-- The heap with its currently allocated blocks. -/
structure Lifetime where
  heap : Heap
  allocated : Nat → Option Block

/-- An allocation under a fresh handle, or the free of an allocated block. -/
inductive HeapAction where
  | allocate (handle units : Nat) (owner : BlockState)
  | free (handle : Nat)

/-- One operation. A refused allocation leaves the heap alone; a handle in use or
a free marker as owner is not a call the kernel makes. -/
def lifetimeStep (total : Nat) (life : Lifetime) : HeapAction → Option (Lifetime × List Empty)
  | .allocate handle units owner =>
    if life.allocated handle ≠ none ∨ owner = .free then none
    else match buddyAllocate units owner life.heap with
      | none => some (life, [])
      | some (heap, unit, order) =>
        some (⟨heap, update life.allocated handle (some ⟨unit, order⟩)⟩, [])
  | .free handle =>
    match life.allocated handle with
    | none => none
    | some block =>
      some (⟨buddyFree block.unit block.order total life.heap,
        update life.allocated handle none⟩, [])

/-- The state after cold start. -/
def coldStart (contents : Nat → HeapBlock) (total : Nat) : Lifetime :=
  ⟨seedHeap contents total, fun _ => none⟩

/-- States that operations reach from cold start. -/
def HeapReachable (contents : Nat → HeapBlock) (total : Nat) : Lifetime → Prop :=
  Reachable (Takes (lifetimeStep total)) (coldStart contents total)

/-- One operation keeps the heap invariant. -/
theorem lifetimeStep_inv {total : Nat} {contents : Nat → HeapBlock} {life after : Lifetime}
    {action : HeapAction} {events : List Empty} {lists : Nat → List Nat}
    (inv : HeapInv total contents life.heap lists life.allocated)
    (stepped : lifetimeStep total life action = some (after, events)) :
    ∃ lists', HeapInv total contents after.heap lists' after.allocated := by
  cases action with
  | allocate handle units owner =>
    simp only [lifetimeStep] at stepped
    split at stepped
    · exact nomatch stepped
    · next legal =>
      obtain ⟨idle, taken⟩ := not_or.mp legal
      cases result : buddyAllocate units owner life.heap with
      | none =>
        simp only [result, Option.some.injEq, Prod.mk.injEq] at stepped
        exact ⟨lists, stepped.1 ▸ inv⟩
      | some outcome =>
        obtain ⟨heap, unit, order⟩ := outcome
        simp only [result, Option.some.injEq, Prod.mk.injEq] at stepped
        obtain ⟨_, lists', kept⟩ :=
          inv.buddyAllocate_some _ (Decidable.not_not.mp idle) taken result
        exact ⟨lists', stepped.1 ▸ kept⟩
  | free handle =>
    simp only [lifetimeStep] at stepped
    cases holds : life.allocated handle with
    | none => simp [holds] at stepped
    | some block =>
      simp only [holds, Option.some.injEq, Prod.mk.injEq] at stepped
      obtain ⟨lists', kept⟩ := inv.buddyFree _ holds
      exact ⟨lists', stepped.1 ▸ kept⟩

/-- The heap invariant holds in every state reached from cold start. -/
theorem lifetime_inv {total : Nat} {contents : Nat → HeapBlock} {life : Lifetime}
    (reached : HeapReachable contents total life) :
    ∃ lists, HeapInv total contents life.heap lists life.allocated := by
  obtain ⟨trace, run⟩ := reached
  refine run.invariant (fun life => ∃ lists, HeapInv total contents life.heap lists life.allocated)
    ?_ ?_
  · exact seedHeap_inv contents total
  · rintro state events after ⟨lists, inv⟩ ⟨action, stepped⟩
    exact lifetimeStep_inv inv stepped

/-- What the heap guarantees over a whole lifetime. The last two clauses are
about the words outside current block starts: such a word may read as free only
if it is one that cold start found, and the sibling test of a free reads a
current record.

Proof: the heap invariant gives the clauses one by one. When nothing is
allocated, the free blocks alone tile the heap without siblings, and so do the
seeded ones; there is only one such tiling. -/
theorem lifetime_partition (total : Nat) (contents : Nat → HeapBlock) (life : Lifetime)
    (reached : HeapReachable contents total life) :
    ∃ seeded lists, FreeLists (seedHeap contents total) seeded ∧ FreeLists life.heap lists ∧
      Tiles total (fun block => block.unit ∈ lists block.order ∨
        ∃ handle, life.allocated handle = some block) ∧
      (∀ handle block, life.allocated handle = some block → block.unit ∉ lists block.order) ∧
      (∀ left right block, life.allocated left = some block →
        life.allocated right = some block → left = right) ∧
      (∀ block : Block, block.order < floorLog2 total → block.unit ∈ lists block.order →
        block.buddy.unit ∉ lists block.order) ∧
      ((∀ handle, life.allocated handle = none) → ∀ block : Block,
        block.unit ∈ lists block.order ↔ block.unit ∈ seeded block.order) ∧
      (∀ unit, (life.heap.metadata unit).state = .free →
        unit ∈ lists (life.heap.metadata unit).order ∨
          life.heap.metadata unit = contents unit) ∧
      (∀ handle block, life.allocated handle = some block → block.buddy.unit < total →
        (((life.heap.metadata block.buddy.unit).state = .free ∧
          (life.heap.metadata block.buddy.unit).order = block.order) ↔
            block.buddy.unit ∈ lists block.order)) := by
  obtain ⟨seeded, start⟩ := seedHeap_inv (ι := Nat) contents total
  obtain ⟨lists, inv⟩ := lifetime_inv reached
  refine ⟨seeded, lists, start.free, inv.free, inv.tiles, inv.exclusive, inv.distinct, ?_, ?_,
    inv.stale, fun handle block owns => inv.sibling_listed owns⟩
  · intro block below listed
    rw [← inv.maxOrder] at below
    exact inv.coalesced block.order below block.unit listed
  · intro empty block
    have freeTiles : Tiles total (fun block => block.unit ∈ lists block.order) :=
      inv.tiles.congr fun block => by simp [empty]
    have seedTiles : Tiles total (fun block => block.unit ∈ seeded block.order) :=
      start.tiles.congr fun block => by simp
    refine freeTiles.coalesced_unique (floorLog2 total) seedTiles ?_ ?_ ?_ ?_ block
    · exact fun block listed => inv.maxOrder ▸ inv.order_le (Or.inl listed)
    · exact fun block listed => start.maxOrder ▸ start.order_le (Or.inl listed)
    · intro block below listed
      rw [← inv.maxOrder] at below
      exact inv.coalesced block.order below block.unit listed
    · intro block below listed
      rw [← start.maxOrder] at below
      exact start.coalesced block.order below block.unit listed

/-- A heap of three units serves an allocation of two and takes it back. -/
theorem lifetime_partition_three :
    ∃ life, Run.execute (lifetimeStep 3) (coldStart (fun _ => ⟨.continuation, 0, none, none⟩) 3)
        [.allocate 0 2 (.slot 7), .free 0] = some (life, []) ∧
      ∃ seeded lists, FreeLists (seedHeap (fun _ => ⟨.continuation, 0, none, none⟩) 3) seeded ∧
        FreeLists life.heap lists ∧ ∀ block : Block,
          block.unit ∈ lists block.order ↔ block.unit ∈ seeded block.order := by
  obtain ⟨life, executed⟩ : ∃ life, Run.execute (lifetimeStep 3)
      (coldStart (fun _ => ⟨.continuation, 0, none, none⟩) 3)
      [.allocate 0 2 (.slot 7), .free 0] = some (life, []) := ⟨_, rfl⟩
  refine ⟨life, executed, ?_⟩
  obtain ⟨seeded, lists, start, free, _, _, _, _, restored, _⟩ :=
    lifetime_partition 3 _ life ⟨_, Run.Run.execute .start executed⟩
  refine ⟨seeded, lists, start, free, restored fun handle => ?_⟩
  have ended : life.allocated = update (update (fun _ => none) 0 (some ⟨0, 1⟩)) 0 none := by
    have same := congrArg (fun result => result.map fun pair => pair.1.allocated) executed
    exact (Option.some.inj same).symm
  by_cases first : handle = 0 <;> simp [ended, first]

/-- DRAM may hold a free marker at a unit that starts no block, and nothing
clears it: with such contents the second unit of a fresh two-unit heap reads as a
free block of order zero while that free list is empty. -/
theorem uninitialised_word_reads_free :
    ¬ ∀ (total : Nat) (contents : Nat → HeapBlock) (life : Lifetime), 1 ≤ total →
      HeapReachable contents total life → ∃ lists, FreeLists life.heap lists ∧
        ∀ unit < total, ∀ order, (life.heap.metadata unit).state = .free →
          (life.heap.metadata unit).order = order → unit ∈ lists order := by
  intro never
  obtain ⟨lists, free, listed⟩ := never 2 (fun _ => ⟨.free, 0, none, none⟩)
    (coldStart (fun _ => ⟨.free, 0, none, none⟩) 2) (by decide) ⟨[], .start⟩
  have member : 1 ∈ lists 0 := listed 1 (by decide) 0 rfl rfl
  have empty : (lists 0).head? = none := (free.heads 0).symm
  rw [List.head?_eq_none_iff.mp empty] at member
  exact List.not_mem_nil member

end KvCache.Buddy
