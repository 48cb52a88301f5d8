import KvCache.Directory.Operations
import KvCache.Directory.IndexCorrect
import KvCache.Directory.ResidencyCorrect
import KvCache.Heap.Operations
import Mathlib.Algebra.BigOperators.Group.Finset.Basic

/-!
# Consistency of the directory

One predicate relates all words of the directory. The buckets index the valid
entries; the residency list holds exactly the resident ones; every used slot is
valid, recycled or reserved; the blocks of resident entries and the blocks held
outside the directory are owned in the sense of the heap; and the byte counters
are the sums over the entries.

Blocks held outside the directory belong to an arbitrary type of holders: leases,
reservations, promotions and admissions are not told apart here. The order of the
access stamps along the residency list is a clause of its own, required only
where the epoch did not wrap.

Each operation is one lemma here or in the following module. The lemmas name the
lists before and after, so that the two uses of a list node stay visible.
-/

namespace KvCache.Directory

open AlignedBlock Buddy Function HashIndex Layout Residency

/-- An epoch that does not fall grows. -/
theorem nextEpoch_lt {epoch : Nat} (grows : epoch ≤ nextEpoch epoch) : epoch < nextEpoch epoch := by
  unfold nextEpoch at *
  have power : (2 : Nat) ^ 32 = 4294967296 := by decide
  omega

namespace DirEntry

variable (entry : DirEntry)

/-- The entry holds a value in the value heap. -/
def resident : Bool := entry.valid && entry.location != .host

/-- The entry holds a value without a complete host copy. -/
def pending : Bool := entry.valid && entry.location == .devicePendingHost

/-- The block an entry names. -/
def block : Block := ⟨entry.valueByteOff / maxChunkValueBytes, entry.blockOrder⟩

/-- Bytes the entry occupies in the value heap. -/
def residentBytes : Nat := if entry.resident then blockBytes entry.blockOrder else 0

/-- Bytes the entry occupies without a complete host copy. -/
def pendingBytes : Nat := if entry.pending then blockBytes entry.blockOrder else 0

theorem resident_iff : entry.resident = true ↔ entry.valid = true ∧ entry.location ≠ .host := by
  simp [resident]

theorem pending_iff :
    entry.pending = true ↔ entry.valid = true ∧ entry.location = .devicePendingHost := by
  simp [pending]

theorem resident_of_pending {entry : DirEntry} (pending : entry.pending = true) :
    entry.resident = true := by
  rw [pending_iff] at pending
  rw [resident_iff, pending.2]
  exact ⟨pending.1, fun impossible => nomatch impossible⟩

end DirEntry

/-- Key of a valid entry. -/
def keyOf (entry : DirEntry) : Option Key := if entry.valid then some entry.key else none

/-- Keys of the valid entries. -/
def keyAt (dir : State) (slot : Nat) : Option Key := keyOf (dir.entry slot)

universe u
variable {ι : Type u}

/-- Owners of heap blocks: the resident entries, and the holders outside the
directory. -/
def ownedBy (entry : Nat → DirEntry) (held : ι → Option Block) : Nat ⊕ ι → Option Block
  | .inl slot => if (entry slot).resident then some (entry slot).block else none
  | .inr holder => held holder

/-- The stamps decrease from the most recently used entry on, and none exceeds the
epoch. -/
def Recent (dir : State) (resident : List Nat) : Prop :=
  resident.Pairwise (fun newer older => (dir.entry older).lastAccess < (dir.entry newer).lastAccess) ∧
    ∀ slot ∈ resident, (dir.entry slot).lastAccess ≤ dir.epoch

/-- What a valid entry records about its value. -/
structure Shaped (g : Geometry) (entry : DirEntry) : Prop where
  keyPositive : 0 < entry.key.length
  keyBounded : entry.key.length ≤ g.maxKeyLen
  lenPositive : 0 < entry.totalValueLen
  lenBounded : entry.totalValueLen ≤ g.maxValueBytes
  aligned : entry.resident → maxChunkValueBytes ∣ entry.valueByteOff
  covers : entry.resident → chunkCountFor entry.totalValueLen ≤ 2 ^ entry.blockOrder

/-- All words of the directory agree, with the given residency list and list of
recycled slots. -/
structure Consistent (g : Geometry) (contents : Nat → HeapBlock) (strict : Prop) (dir : State)
    (held : ι → Option Block) (resident recycled : List Nat) : Prop where
  index : IndexInv g.maxKeys g.numBuckets dir.buckets (keyAt dir)
  uniqueKeys : ∀ left right key, keyAt dir left = some key → keyAt dir right = some key →
    left = right
  catalog : CatalogInv g.maxKeys dir.catalog resident recycled
  residency : ∀ slot, slot ∈ resident ↔ (dir.entry slot).resident = true
  validApart : ∀ slot, (dir.entry slot).valid = true →
    slot < dir.catalog.nextUnusedSlot ∧ slot ∉ recycled ∧ dir.reservedSlot ≠ some slot
  reservedApart : ∀ slot, dir.reservedSlot = some slot →
    slot < dir.catalog.nextUnusedSlot ∧ slot ∉ recycled
  accounted : ∀ slot < dir.catalog.nextUnusedSlot, (dir.entry slot).valid = true ∨
    slot ∈ recycled ∨ dir.reservedSlot = some slot
  heap : ∃ lists, HeapInv g.numHeapUnits contents dir.heap lists (ownedBy dir.entry held)
  shaped : ∀ slot, (dir.entry slot).valid = true → Shaped g (dir.entry slot)
  live : dir.liveDeviceBytes = ∑ slot ∈ Finset.range g.maxKeys, (dir.entry slot).residentBytes
  pending : dir.pendingDeviceBytes = ∑ slot ∈ Finset.range g.maxKeys, (dir.entry slot).pendingBytes
  recent : strict → Recent dir resident

/-! ## Replacing one entry -/

section Replacement

variable {entries : Nat → DirEntry} {slot other : Nat} {entry : DirEntry}

theorem keyOf_update :
    (fun other => keyOf (update entries slot entry other)) =
      update (fun other => keyOf (entries other)) slot (keyOf entry) := by
  funext other
  by_cases same : other = slot
  · subst same
    simp
  · simp [same]

theorem ownedBy_update [DecidableEq ι] (held : ι → Option Block) :
    ownedBy (update entries slot entry) held =
      update (ownedBy entries held) (.inl slot)
        (if entry.resident then some entry.block else none) := by
  funext owner
  cases owner with
  | inl other =>
    by_cases same : other = slot
    · subst same
      simp [ownedBy]
    · simp [ownedBy, same]
  | inr holder => simp [ownedBy]

theorem ownedBy_held [DecidableEq ι] (held : ι → Option Block) (holder : ι) (block : Option Block) :
    ownedBy entries (update held holder block) =
      update (ownedBy entries held) (.inr holder) block := by
  funext owner
  cases owner with
  | inl other => simp [ownedBy]
  | inr other =>
    by_cases same : other = holder
    · subst same
      simp [ownedBy]
    · simp [ownedBy, same]

/-- A sum over the slots after one entry was replaced. -/
theorem sum_update (entries : Nat → DirEntry) (entry : DirEntry) (weight : DirEntry → Nat) {bound : Nat} (below : slot < bound) :
    (∑ other ∈ Finset.range bound, weight (update entries slot entry other)) +
        weight (entries slot) =
      (∑ other ∈ Finset.range bound, weight (entries other)) + weight entry := by
  have member : slot ∈ Finset.range bound := Finset.mem_range.mpr below
  rw [← Finset.add_sum_erase _ _ member, ← Finset.add_sum_erase _ (fun other =>
    weight (entries other)) member]
  have rest : ∀ other ∈ (Finset.range bound).erase slot,
      weight (update entries slot entry other) = weight (entries other) := by
    intro other inside
    rw [update_of_ne (Finset.ne_of_mem_erase inside)]
  rw [Finset.sum_congr rfl rest, update_self]
  omega

end Replacement

namespace Consistent

variable {g : Geometry} {contents : Nat → HeapBlock} {strict : Prop} {dir : State}
variable {held : ι → Option Block} {resident recycled : List Nat} {slot : Nat}

/-- A valid slot is a catalog slot. -/
theorem valid_lt (inv : Consistent g contents strict dir held resident recycled)
    (valid : (dir.entry slot).valid = true) : slot < g.maxKeys :=
  (inv.validApart slot valid).1.trans_le inv.catalog.used

/-- The block of a resident entry is owned by its slot. -/
theorem owns (inv : Consistent g contents strict dir held resident recycled)
    (inside : slot ∈ resident) :
    ownedBy dir.entry held (.inl slot) = some (dir.entry slot).block := by
  simp [ownedBy, (inv.residency slot).mp inside]

/-- Lookup finds the valid entry of a key. -/
theorem lookup_iff (inv : Consistent g contents strict dir held resident recycled) (key : Key) :
    dirLookup g key dir = some slot ↔
      (dir.entry slot).valid = true ∧ (dir.entry slot).key = key := by
  obtain ⟨⟨bits, power⟩, _⟩ := hashNumBuckets_spec g.maxKeys
  have confirm : confirmEntry dir key = holdsKey (keyAt dir) key := by
    funext other
    rw [Bool.eq_iff_iff]
    simp [confirmEntry, holdsKey, keyAt, keyOf]
  unfold dirLookup
  rw [confirm, inv.index.lookup_iff power inv.uniqueKeys]
  simp [keyAt, keyOf]

theorem lookup_none_iff (inv : Consistent g contents strict dir held resident recycled)
    (key : Key) :
    dirLookup g key dir = none ↔
      ∀ slot, ¬ ((dir.entry slot).valid = true ∧ (dir.entry slot).key = key) := by
  rw [Option.eq_none_iff_forall_ne_some]
  exact forall_congr' fun slot => not_congr (inv.lookup_iff key)

end Consistent

end KvCache.Directory
