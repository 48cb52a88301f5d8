import KvCache.Foundation.AlignedBlock
import KvCache.Foundation.LinkedChain
import KvCache.Protocol.Layout
import Mathlib.Logic.Function.Basic

/-!
# The buddy allocator of the value heap

One metadata record per heap unit lives in device DRAM; the free-list heads and
the maximal order live in L1. Only the start of a block carries authoritative
metadata: interior units keep whatever was last written there, and units that
were never a block start keep what DRAM held before cold start.

The functions follow the kernel word by word. Metadata addresses are functions of
the unit number, sentinels are constructors, and each loop carries a bound that
its guard reaches first.
-/

namespace KvCache.Buddy

open AlignedBlock Layout Function

/-- The state word: a sentinel, or the directory slot that owns the block. -/
inductive BlockState where
  | free
  | continuation
  | putLease
  | slot (owner : Nat)
deriving DecidableEq, Repr

/-- One metadata record. -/
structure HeapBlock where
  state : BlockState
  order : Nat
  next : Option Nat
  prev : Option Nat
deriving DecidableEq, Repr

/-- Heap metadata together with the allocator words. -/
structure Heap where
  metadata : Nat → HeapBlock
  freeHead : Nat → Option Nat
  maxOrder : Nat

/-- Overwrite the whole record of a unit. -/
def writeHeapBlock (unit : Nat) (block : HeapBlock) (heap : Heap) : Heap :=
  { heap with metadata := update heap.metadata unit block }

/-- Unlink a free block and mark it as a continuation unit. -/
def buddyRemoveFree (unit order : Nat) (heap : Heap) : Heap :=
  let next := (heap.metadata unit).next
  let prev := (heap.metadata unit).prev
  let relinked := match prev with
    | none => { heap with freeHead := update heap.freeHead order next }
    | some before => writeHeapBlock before { heap.metadata before with next := next } heap
  let relinked := match next with
    | none => relinked
    | some after => writeHeapBlock after { relinked.metadata after with prev := prev } relinked
  writeHeapBlock unit ⟨.continuation, order, none, none⟩ relinked

/-- Push a block on the free list of its order. -/
def buddyPushFree (unit order : Nat) (heap : Heap) : Heap :=
  let oldHead := heap.freeHead order
  let pushed := writeHeapBlock unit ⟨.free, order, oldHead, none⟩ heap
  let relinked := match oldHead with
    | none => pushed
    | some old => writeHeapBlock old { pushed.metadata old with prev := some unit } pushed
  { relinked with freeHead := update relinked.freeHead order (some unit) }

/-- First order from `order` on, up to the maximal one, with a free block. -/
def searchOrder (heap : Heap) : Nat → Nat → Nat
  | 0, order => order
  | fuel + 1, order =>
    if order ≤ heap.maxOrder ∧ heap.freeHead order = none then searchOrder heap fuel (order + 1)
    else order

/-- Split a taken block down to the needed order, freeing each upper half. -/
def splitDown (unit needOrder : Nat) : Nat → Heap → Heap
  | 0, heap => heap
  | order + 1, heap =>
    if needOrder < order + 1 then
      splitDown unit needOrder order (buddyPushFree (unit + 2 ^ order) order heap)
    else heap

/-- Allocate a block for the units and mark its owner. -/
def buddyAllocate (units : Nat) (owner : BlockState) (heap : Heap) : Option (Heap × Nat × Nat) :=
  let needOrder := buddyOrderForUnits units
  let order := searchOrder heap (heap.maxOrder + 1 - needOrder) needOrder
  if heap.maxOrder < order then none
  else match heap.freeHead order with
    | none => none
    | some unit =>
      let split := splitDown unit needOrder order (buddyRemoveFree unit order heap)
      some (writeHeapBlock unit ⟨owner, needOrder, none, none⟩ split, unit, needOrder)

/-- Absorb free siblings while there are any. -/
def coalesce (numUnits : Nat) : Nat → Nat → Nat → Heap → Heap × Nat × Nat
  | 0, unit, order, heap => (heap, unit, order)
  | fuel + 1, unit, order, heap =>
    if order < heap.maxOrder then
      let buddy := unit ^^^ 2 ^ order
      if numUnits ≤ buddy then (heap, unit, order)
      else if (heap.metadata buddy).state ≠ .free ∨ (heap.metadata buddy).order ≠ order then
        (heap, unit, order)
      else
        coalesce numUnits fuel (if buddy < unit then buddy else unit) (order + 1)
          (buddyRemoveFree buddy order heap)
    else (heap, unit, order)

/-- Free a block, merging it with its free siblings. -/
def buddyFree (unit order numUnits : Nat) (heap : Heap) : Heap :=
  let (merged, start, size) := coalesce numUnits (heap.maxOrder - order) unit order heap
  buddyPushFree start size merged

/-- Lower the order until the start is a multiple of the size. -/
def alignOrder (firstUnit : Nat) : Nat → Nat
  | 0 => 0
  | order + 1 =>
    if firstUnit &&& (2 ^ (order + 1) - 1) ≠ 0 then alignOrder firstUnit order else order + 1

/-- The seeding loop over the remaining units. -/
def seedFrom : Nat → Nat → Nat → Heap → Heap
  | 0, _, _, heap => heap
  | fuel + 1, firstUnit, remainingUnits, heap =>
    if remainingUnits = 0 then heap
    else
      let order := alignOrder firstUnit (floorLog2 remainingUnits)
      seedFrom fuel (firstUnit + 2 ^ order) (remainingUnits - 2 ^ order)
        (buddyPushFree firstUnit order heap)

/-- Cold start: empty free lists over arbitrary DRAM contents, then the seed
blocks. -/
def seedHeap (contents : Nat → HeapBlock) (numUnits : Nat) : Heap :=
  seedFrom numUnits 0 numUnits ⟨contents, fun _ => none, floorLog2 numUnits⟩

/-! ## What the list operations leave alone -/

section Frame

variable {heap : Heap} {unit order other : Nat}

@[simp] theorem writeHeapBlock_metadata (block : HeapBlock) :
    (writeHeapBlock unit block heap).metadata = update heap.metadata unit block := rfl

@[simp] theorem writeHeapBlock_freeHead (block : HeapBlock) :
    (writeHeapBlock unit block heap).freeHead = heap.freeHead := rfl

@[simp] theorem writeHeapBlock_maxOrder (block : HeapBlock) :
    (writeHeapBlock unit block heap).maxOrder = heap.maxOrder := rfl

@[simp] theorem buddyPushFree_maxOrder : (buddyPushFree unit order heap).maxOrder = heap.maxOrder := by
  unfold buddyPushFree
  cases heap.freeHead order <;> rfl

@[simp] theorem buddyRemoveFree_maxOrder :
    (buddyRemoveFree unit order heap).maxOrder = heap.maxOrder := by
  unfold buddyRemoveFree
  cases (heap.metadata unit).prev <;> cases (heap.metadata unit).next <;> rfl

theorem buddyPushFree_freeHead :
    (buddyPushFree unit order heap).freeHead = update heap.freeHead order (some unit) := by
  unfold buddyPushFree
  cases heap.freeHead order <;> rfl

/-- A push writes the record of the unit and the backward link of the old head. -/
theorem buddyPushFree_metadata (fresh : heap.freeHead order ≠ some unit) (other : Nat) :
    (buddyPushFree unit order heap).metadata other =
      if other = unit then ⟨.free, order, heap.freeHead order, none⟩
      else if heap.freeHead order = some other then { heap.metadata other with prev := some unit }
      else heap.metadata other := by
  unfold buddyPushFree
  cases head : heap.freeHead order with
  | none => simp [update_apply]
  | some old =>
    have different : old ≠ unit := fun same => fresh (same ▸ head)
    simp only [writeHeapBlock_metadata, update_apply, Option.some.injEq]
    by_cases atUnit : other = unit
    · subst atUnit
      simp [Ne.symm different]
    · by_cases atOld : other = old
      · subst atOld
        simp [atUnit]
      · simp [atUnit, atOld, Ne.symm atOld]

theorem buddyRemoveFree_freeHead :
    (buddyRemoveFree unit order heap).freeHead =
      if (heap.metadata unit).prev = none then
        update heap.freeHead order (heap.metadata unit).next
      else heap.freeHead := by
  unfold buddyRemoveFree
  cases (heap.metadata unit).prev <;> cases (heap.metadata unit).next <;> rfl

/-- An unlink writes the record of the unit and one link of each neighbour. -/
theorem buddyRemoveFree_metadata (other : Nat) :
    (buddyRemoveFree unit order heap).metadata other =
      if other = unit then ⟨.continuation, order, none, none⟩
      else
        { heap.metadata other with
          next := if (heap.metadata unit).prev = some other then (heap.metadata unit).next
            else (heap.metadata other).next
          prev := if (heap.metadata unit).next = some other then (heap.metadata unit).prev
            else (heap.metadata other).prev } := by
  unfold buddyRemoveFree
  cases before : (heap.metadata unit).prev with
  | none =>
    cases after : (heap.metadata unit).next with
    | none => simp [update_apply]
    | some successor =>
      simp only [writeHeapBlock_metadata, update_apply, Option.some.injEq]
      by_cases atUnit : other = unit
      · simp [atUnit]
      · by_cases atNext : other = successor
        · subst atNext
          simp [atUnit]
        · simp [atUnit, atNext, Ne.symm atNext]
  | some predecessor =>
    cases after : (heap.metadata unit).next with
    | none =>
      simp only [writeHeapBlock_metadata, update_apply, Option.some.injEq]
      by_cases atUnit : other = unit
      · simp [atUnit]
      · by_cases atPrev : other = predecessor
        · subst atPrev
          simp [atUnit]
        · simp [atUnit, atPrev, Ne.symm atPrev]
    | some successor =>
      simp only [writeHeapBlock_metadata, update_apply, Option.some.injEq]
      by_cases atUnit : other = unit
      · simp [atUnit]
      · by_cases atPrev : other = predecessor <;> by_cases atNext : other = successor
        · subst atPrev
          subst atNext
          simp [atUnit]
        · subst atPrev
          simp [atUnit, atNext, Ne.symm atNext]
        · subst atNext
          simp [atUnit, atPrev, Ne.symm atPrev]
        · simp [atUnit, atPrev, atNext, Ne.symm atPrev, Ne.symm atNext]

end Frame

end KvCache.Buddy
