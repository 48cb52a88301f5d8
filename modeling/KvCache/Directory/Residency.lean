import KvCache.Foundation.LinkedChain
import Mathlib.Logic.Function.Basic

/-!
# The residency list and the catalog free list

One two-word node per directory slot serves two lists. While the slot holds a
device-resident entry the words are the links of the residency list, most
recently used first. While the slot is recycled they are the marker
`freeQueued` and the next recycled slot. A slot that is neither has two empty
words.

Membership in the residency list is not stored. The kernel infers it from the
head word and the two words of the node, and its assertions are compiled out, so
what keeps the two uses apart is the order of the operations alone.
-/

namespace KvCache.Residency

open LinkedChain Function

/-- A link word: no slot, the marker of a recycled slot, or a slot. -/
inductive LruLink where
  | none
  | freeQueued
  | slot (dirSlot : Nat)
deriving DecidableEq, Repr

/-- The two words of a slot. -/
structure LruNode where
  prev : LruLink
  next : LruLink
deriving DecidableEq, Repr

/-- The link word of an optional neighbour. -/
def linkTo : Option Nat → LruLink
  | Option.none => .none
  | some dirSlot => .slot dirSlot

/-- The node array with the words of both lists. -/
structure Catalog where
  node : Nat → LruNode
  lruHead : LruLink
  lruTail : LruLink
  lruCount : Nat
  freeSlotHead : LruLink
  nextUnusedSlot : Nat

/-- Cold start: both lists empty, no slot used yet. -/
def coldCatalog : Catalog :=
  ⟨fun _ => ⟨.none, .none⟩, .none, .none, 0, .none, 0⟩

/-- Overwrite one node. -/
def writeNode (slot : Nat) (node : LruNode) (catalog : Catalog) : Catalog :=
  { catalog with node := update catalog.node slot node }

/-- The inferred membership test. -/
def residencyLruIsLinked (slot : Nat) (catalog : Catalog) : Bool :=
  decide (catalog.lruHead = .slot slot ∨ (catalog.node slot).prev ≠ .none ∨
    (catalog.node slot).next ≠ .none)

/-- Unlink a slot from the residency list. A marker is no neighbour; the kernel
asserts that the node carries none. -/
def residencyLruRemove (slot : Nat) (catalog : Catalog) : Catalog :=
  let prev := (catalog.node slot).prev
  let next := (catalog.node slot).next
  let relinked := match prev with
    | .none => { catalog with lruHead := next }
    | .slot before => writeNode before { catalog.node before with next := next } catalog
    | .freeQueued => catalog
  let relinked := match next with
    | .none => { relinked with lruTail := prev }
    | .slot after => writeNode after { relinked.node after with prev := prev } relinked
    | .freeQueued => relinked
  { writeNode slot ⟨.none, .none⟩ relinked with lruCount := relinked.lruCount - 1 }

/-- Insert a slot as the most recently used one. -/
def residencyLruInsertMru (slot : Nat) (catalog : Catalog) : Catalog :=
  let oldHead := catalog.lruHead
  let linked := writeNode slot ⟨.none, oldHead⟩ catalog
  let relinked := match oldHead with
    | .none => { linked with lruTail := .slot slot }
    | .slot old => writeNode old { linked.node old with prev := .slot slot } linked
    | .freeQueued => linked
  { relinked with lruHead := .slot slot, lruCount := relinked.lruCount + 1 }

/-- Make a linked slot the most recently used one. -/
def residencyLruTouch (slot : Nat) (catalog : Catalog) : Catalog :=
  if catalog.lruHead = .slot slot then catalog
  else residencyLruInsertMru slot (residencyLruRemove slot catalog)

/-- Claim a recycled slot, or else the next unused one. -/
def catalogClaimFreeSlot (maxKeys : Nat) (catalog : Catalog) : Option (Nat × Catalog) :=
  match catalog.freeSlotHead with
  | .slot freeHead =>
    some (freeHead, writeNode freeHead ⟨.none, .none⟩
      { catalog with freeSlotHead := (catalog.node freeHead).next })
  | _ =>
    if catalog.nextUnusedSlot = maxKeys then Option.none
    else some (catalog.nextUnusedSlot, { catalog with nextUnusedSlot := catalog.nextUnusedSlot + 1 })

/-- Queue a slot for reuse. -/
def catalogReleaseFreeSlot (slot : Nat) (catalog : Catalog) : Catalog :=
  { writeNode slot ⟨.freeQueued, catalog.freeSlotHead⟩ catalog with freeSlotHead := .slot slot }

/-- Walk from a link towards the head until a slot is evictable. -/
def findOldestFrom (evictable : Nat → Bool) (catalog : Catalog) : Nat → LruLink → Option Nat
  | 0, _ => Option.none
  | fuel + 1, .slot slot =>
    if evictable slot then some slot
    else findOldestFrom evictable catalog fuel (catalog.node slot).prev
  | _ + 1, _ => Option.none

/-- The least recently used evictable slot. -/
def findOldestDeviceVictim (evictable : Nat → Bool) (catalog : Catalog) : Option Nat :=
  findOldestFrom evictable catalog catalog.lruCount catalog.lruTail

/-! ## What the nodes spell -/

/-- The nodes thread the recycled slots. -/
def Threaded (node : Nat → LruNode) : List Nat → Prop
  | [] => True
  | slot :: rest => node slot = ⟨.freeQueued, linkTo rest.head?⟩ ∧ Threaded node rest

theorem threaded_congr {node node' : Nat → LruNode} {recycled : List Nat}
    (threaded : Threaded node recycled) (same : ∀ slot ∈ recycled, node' slot = node slot) :
    Threaded node' recycled := by
  induction recycled with
  | nil => trivial
  | cons slot rest inductionHypothesis =>
    refine ⟨(same slot (by simp)).trans threaded.1, inductionHypothesis threaded.2 ?_⟩
    exact fun other member => same other (by simp [member])

/-- The nodes and the words spell the residency list and the list of recycled
slots, and every other node is empty. -/
structure CatalogInv (maxKeys : Nat) (catalog : Catalog) (resident recycled : List Nat) :
    Prop where
  chained : Chained linkTo (fun slot => (catalog.node slot).next)
    (fun slot => (catalog.node slot).prev) Option.none resident Option.none
  head : catalog.lruHead = linkTo resident.head?
  tail : catalog.lruTail = linkTo resident.getLast?
  count : catalog.lruCount = resident.length
  distinct : resident.Nodup
  threaded : Threaded catalog.node recycled
  freeHead : catalog.freeSlotHead = linkTo recycled.head?
  recycledDistinct : recycled.Nodup
  separate : ∀ slot ∈ resident, slot ∉ recycled
  bare : ∀ slot, slot ∉ resident → slot ∉ recycled → catalog.node slot = ⟨.none, .none⟩
  residentUsed : ∀ slot ∈ resident, slot < catalog.nextUnusedSlot
  recycledUsed : ∀ slot ∈ recycled, slot < catalog.nextUnusedSlot
  used : catalog.nextUnusedSlot ≤ maxKeys

/-- Cold start spells two empty lists. -/
theorem coldCatalog_inv (maxKeys : Nat) : CatalogInv maxKeys coldCatalog [] [] where
  chained := trivial
  head := rfl
  tail := rfl
  count := rfl
  distinct := List.nodup_nil
  threaded := trivial
  freeHead := rfl
  recycledDistinct := List.nodup_nil
  separate := fun _ member => absurd member List.not_mem_nil
  bare := fun _ _ _ => rfl
  residentUsed := fun _ member => absurd member List.not_mem_nil
  recycledUsed := fun _ member => absurd member List.not_mem_nil
  used := Nat.zero_le _

@[simp] theorem linkTo_inj {left right : Option Nat} : linkTo left = linkTo right ↔ left = right := by
  cases left <;> cases right <;> simp [linkTo]

@[simp] theorem linkTo_eq_slot {link : Option Nat} {slot : Nat} :
    linkTo link = .slot slot ↔ link = some slot := by
  cases link <;> simp [linkTo]

@[simp] theorem linkTo_eq_none {link : Option Nat} : linkTo link = .none ↔ link = Option.none := by
  cases link <;> simp [linkTo]

theorem linkTo_ne_freeQueued (link : Option Nat) : linkTo link ≠ .freeQueued := by
  cases link <;> exact fun impossible => nomatch impossible

section Frame

variable {catalog : Catalog} {slot : Nat}

/-- With proper neighbours an unlink writes three nodes. -/
theorem residencyLruRemove_node {before after : Option Nat}
    (prev : (catalog.node slot).prev = linkTo before)
    (next : (catalog.node slot).next = linkTo after) (other : Nat) :
    (residencyLruRemove slot catalog).node other =
      if other = slot then ⟨.none, .none⟩
      else ⟨if after = some other then linkTo before else (catalog.node other).prev,
        if before = some other then linkTo after else (catalog.node other).next⟩ := by
  unfold residencyLruRemove
  rw [prev, next]
  cases before with
  | none =>
    cases after with
    | none => simp [linkTo, writeNode, update_apply]
    | some successor =>
      simp only [linkTo, writeNode, update_apply, reduceCtorEq, if_false, Option.some.injEq]
      by_cases atSlot : other = slot
      · simp [atSlot]
      · by_cases atNext : other = successor
        · subst atNext
          simp [atSlot]
        · simp [atSlot, atNext, Ne.symm atNext]
  | some predecessor =>
    cases after with
    | none =>
      simp only [linkTo, writeNode, update_apply, reduceCtorEq, if_false, Option.some.injEq]
      by_cases atSlot : other = slot
      · simp [atSlot]
      · by_cases atPrev : other = predecessor
        · subst atPrev
          simp [atSlot]
        · simp [atSlot, atPrev, Ne.symm atPrev]
    | some successor =>
      simp only [linkTo, writeNode, update_apply, Option.some.injEq]
      by_cases atSlot : other = slot
      · simp [atSlot]
      · by_cases atPrev : other = predecessor <;> by_cases atNext : other = successor
        · subst atPrev
          subst atNext
          simp [atSlot]
        · subst atPrev
          simp [atSlot, atNext, Ne.symm atNext]
        · subst atNext
          simp [atSlot, atPrev, Ne.symm atPrev]
        · simp [atSlot, atPrev, atNext, Ne.symm atPrev, Ne.symm atNext]

theorem residencyLruRemove_words {before after : Option Nat}
    (prev : (catalog.node slot).prev = linkTo before)
    (next : (catalog.node slot).next = linkTo after) :
    (residencyLruRemove slot catalog).lruHead =
      (if before = Option.none then linkTo after else catalog.lruHead) ∧
    (residencyLruRemove slot catalog).lruTail =
      (if after = Option.none then linkTo before else catalog.lruTail) ∧
    (residencyLruRemove slot catalog).lruCount = catalog.lruCount - 1 ∧
    (residencyLruRemove slot catalog).freeSlotHead = catalog.freeSlotHead ∧
    (residencyLruRemove slot catalog).nextUnusedSlot = catalog.nextUnusedSlot := by
  unfold residencyLruRemove
  rw [prev, next]
  cases before <;> cases after <;> simp [linkTo, writeNode]

/-- An insertion writes the node of the slot and the backward link of the old
head. -/
theorem residencyLruInsertMru_node {old : Option Nat} (head : catalog.lruHead = linkTo old)
    (fresh : old ≠ some slot) (other : Nat) :
    (residencyLruInsertMru slot catalog).node other =
      if other = slot then ⟨.none, linkTo old⟩
      else if old = some other then { catalog.node other with prev := .slot slot }
      else catalog.node other := by
  unfold residencyLruInsertMru
  rw [head]
  cases old with
  | none => simp [linkTo, writeNode, update_apply]
  | some first =>
    have different : first ≠ slot := fun same => fresh (same ▸ rfl)
    simp only [linkTo, writeNode, update_apply, Option.some.injEq]
    by_cases atSlot : other = slot
    · subst atSlot
      simp [Ne.symm different]
    · by_cases atFirst : other = first
      · subst atFirst
        simp [atSlot]
      · simp [atSlot, atFirst, Ne.symm atFirst]

theorem residencyLruInsertMru_words (slot : Nat) {old : Option Nat} (head : catalog.lruHead = linkTo old) :
    (residencyLruInsertMru slot catalog).lruHead = .slot slot ∧
    (residencyLruInsertMru slot catalog).lruTail =
      (if old = Option.none then .slot slot else catalog.lruTail) ∧
    (residencyLruInsertMru slot catalog).lruCount = catalog.lruCount + 1 ∧
    (residencyLruInsertMru slot catalog).freeSlotHead = catalog.freeSlotHead ∧
    (residencyLruInsertMru slot catalog).nextUnusedSlot = catalog.nextUnusedSlot := by
  unfold residencyLruInsertMru
  rw [head]
  cases old <;> simp [linkTo, writeNode]

end Frame

end KvCache.Residency
