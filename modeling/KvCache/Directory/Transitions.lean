import KvCache.Directory.Consistency

/-!
# What each directory operation preserves

One lemma for every operation that the scheduler composes its services from. Each
states how the lists and the blocks held outside the directory change, and nothing
about the caller.

This module has the rule for replacing one entry by another of the same key and
validity, with its instances: eviction, commit, admission and access. Allocation
follows, as attempts between evictions.
-/

namespace KvCache.Directory

open AlignedBlock Buddy Function HashIndex Layout Residency

universe u
variable {ι : Type u}
variable {g : Geometry} {contents : Nat → HeapBlock} {strict : Prop} {dir after : State}
variable {held held' : ι → Option Block} {resident resident' recycled : List Nat} {slot : Nat}

namespace Consistent

variable [DecidableEq ι]

/-- Replacing the entry of a slot by one with the same key and validity. -/
theorem replace (inv : Consistent g contents strict dir held resident recycled)
    (resident' : List Nat) (entry : DirEntry)
    (entries : after.entry = update dir.entry slot entry)
    (sameKey : entry.key = (dir.entry slot).key)
    (sameValid : entry.valid = (dir.entry slot).valid)
    (valid : entry.valid = true)
    (buckets : after.buckets = dir.buckets)
    (reserved : after.reservedSlot = dir.reservedSlot)
    (catalog : CatalogInv g.maxKeys after.catalog resident' recycled)
    (used : after.catalog.nextUnusedSlot = dir.catalog.nextUnusedSlot)
    (residency : ∀ other, other ∈ resident' ↔
      (other ≠ slot ∧ other ∈ resident) ∨ (other = slot ∧ entry.resident = true))
    (heap : ∃ lists, HeapInv g.numHeapUnits contents after.heap lists
      (update (ownedBy dir.entry held') (.inl slot)
        (if entry.resident then some entry.block else none)))
    (shaped : Shaped g entry)
    (live : after.liveDeviceBytes + (dir.entry slot).residentBytes =
      dir.liveDeviceBytes + entry.residentBytes)
    (pending : after.pendingDeviceBytes + (dir.entry slot).pendingBytes =
      dir.pendingDeviceBytes + entry.pendingBytes)
    (recent : strict → Recent after resident') :
    Consistent g contents strict after held' resident' recycled := by
  have keys : keyAt after = keyAt dir := by
    have same : keyOf entry = keyOf (dir.entry slot) := by
      simp only [keyOf, sameKey, sameValid]
    show (fun other => keyOf (after.entry other)) = _
    rw [entries, keyOf_update, same]
    exact update_eq_self slot (fun other => keyOf (dir.entry other))
  have valids : ∀ other, (after.entry other).valid = (dir.entry other).valid := by
    intro other
    rw [entries]
    by_cases same : other = slot
    · rw [same, update_self, sameValid]
    · rw [update_of_ne same]
  have below : slot < g.maxKeys := inv.valid_lt (sameValid ▸ valid)
  refine ⟨by rw [buckets, keys]; exact inv.index, by rw [keys]; exact inv.uniqueKeys, catalog, ?_,
    ?_, ?_, ?_, ?_, ?_, ?_, ?_, recent⟩
  · intro other
    rw [residency, entries]
    by_cases same : other = slot
    · simp [same]
    · simp [same, inv.residency other]
  · intro other
    rw [valids, used, reserved]
    exact inv.validApart other
  · intro other
    rw [used, reserved]
    exact inv.reservedApart other
  · intro other
    rw [valids, used, reserved]
    exact inv.accounted other
  · rw [entries, ownedBy_update]
    exact heap
  · intro other holds
    rw [entries]
    by_cases same : other = slot
    · rw [same, update_self]
      exact shaped
    · rw [update_of_ne same]
      exact inv.shaped other (valids other ▸ holds)
  · have sum := sum_update dir.entry entry DirEntry.residentBytes below
    rw [← inv.live, ← live] at sum
    rw [entries]
    omega
  · have sum := sum_update dir.entry entry DirEntry.pendingBytes below
    rw [← inv.pending, ← pending] at sum
    rw [entries]
    omega

/-- The stamps of a shorter list are still in order. -/
theorem recent_erase (recent : Recent dir resident) (epoch : after.epoch = dir.epoch)
    (stamps : ∀ other, (after.entry other).lastAccess = (dir.entry other).lastAccess) :
    Recent after (resident.erase slot) := by
  refine ⟨?_, fun other inside => ?_⟩
  · simp only [stamps]
    exact recent.1.sublist List.erase_sublist
  · rw [stamps, epoch]
    exact recent.2 other (List.mem_of_mem_erase inside)

/-- A fresh stamp goes in front of the list. -/
theorem recent_push (recent : Recent dir resident) (absent : slot ∉ resident)
    (stamps : ∀ other, other ≠ slot →
      (after.entry other).lastAccess = (dir.entry other).lastAccess)
    (fresh : ∀ other ∈ resident, (dir.entry other).lastAccess < (after.entry slot).lastAccess)
    (bounded : (after.entry slot).lastAccess ≤ after.epoch) :
    Recent after (slot :: resident) := by
  have apart : ∀ other ∈ resident, other ≠ slot := by
    rintro other inside rfl
    exact absent inside
  refine ⟨List.pairwise_cons.mpr ⟨fun other inside => ?_, ?_⟩, fun other inside => ?_⟩
  · rw [stamps other (apart other inside)]
    exact fresh other inside
  · refine recent.1.imp_of_mem fun {newer older} newerInside olderInside ordered => ?_
    rw [stamps older (apart older olderInside), stamps newer (apart newer newerInside)]
    exact ordered
  · rcases List.mem_cons.mp inside with rfl | inside
    · exact bounded
    · rw [stamps other (apart other inside)]
      exact (fresh other inside).le.trans bounded

/-- The slot of a resident entry leaves the residency list when its block goes
back to the heap. -/
theorem released_block (inv : Consistent g contents strict dir held resident recycled)
    (inside : slot ∈ resident) :
    ∃ lists, HeapInv g.numHeapUnits contents
      (buddyFree ((dir.entry slot).valueByteOff / maxChunkValueBytes) (dir.entry slot).blockOrder
        g.numHeapUnits dir.heap) lists (update (ownedBy dir.entry held) (.inl slot) none) := by
  obtain ⟨lists, heap⟩ := inv.heap
  exact heap.buddyFree _ (inv.owns inside)

/-- Eviction turns a committed device entry into a host entry. -/
theorem evict (inv : Consistent g contents strict dir held resident recycled)
    (evicted : evictCachedBlock g slot dir = some after) :
    Consistent g contents strict after held (resident.erase slot) recycled := by
  unfold evictCachedBlock at evicted
  split at evicted
  · next allowed =>
    obtain rfl := Option.some.inj evicted
    obtain ⟨valid, device⟩ : (dir.entry slot).valid = true ∧ (dir.entry slot).location = .device := by
      simpa [evictable] using allowed
    have inside : slot ∈ resident := by
      rw [inv.residency, DirEntry.resident_iff]
      exact ⟨valid, by rw [device]; exact fun impossible => by cases impossible⟩
    have demoted : ({ dir.entry slot with location := .host } : DirEntry).resident = false := by
      simp [DirEntry.resident]
    have left : (dir.entry slot).residentBytes = blockBytes (dir.entry slot).blockOrder :=
      if_pos ((inv.residency slot).mp inside)
    have enough := (Finset.single_le_sum (f := fun other => (dir.entry other).residentBytes)
      (fun _ _ => Nat.zero_le _) (Finset.mem_range.mpr (inv.valid_lt valid))).trans_eq inv.live.symm
    obtain ⟨catalog, _, used⟩ := inv.catalog.remove inside
    have shape := inv.shaped slot valid
    refine inv.replace _ { dir.entry slot with location := .host } rfl rfl rfl valid rfl
      rfl catalog used ?_ ?_ ?_ ?_ ?_ ?_
    · intro other
      rw [inv.catalog.distinct.mem_erase_iff, demoted]
      simp
    · rw [demoted]
      exact inv.released_block inside
    · exact ⟨shape.keyPositive, shape.keyBounded, shape.lenPositive, shape.lenBounded,
        fun resident => absurd resident (by simp [demoted]),
        fun resident => absurd resident (by simp [demoted])⟩
    · have right : ({ dir.entry slot with location := .host } : DirEntry).residentBytes = 0 := by
        rw [DirEntry.residentBytes, demoted]
        rfl
      rw [right, left]
      show dir.liveDeviceBytes - _ + _ = _
      rw [left] at enough
      omega
    · simp [DirEntry.pendingBytes, DirEntry.pending, device]
    · intro holds
      refine recent_erase (inv.recent holds) rfl fun other => ?_
      by_cases same : other = slot
      · simp [same]
      · simp [same]
  · cases evicted

/-- A pending entry is committed under the generation of its host copy. -/
theorem commit (inv : Consistent g contents strict dir held resident recycled)
    (pending : (dir.entry slot).pending = true) (hostGeneration : Nat) :
    Consistent g contents strict (commitEntry slot hostGeneration dir) held resident recycled := by
  obtain ⟨valid, location⟩ := (DirEntry.pending_iff _).mp pending
  have inside := (inv.residency slot).mpr (DirEntry.resident_of_pending pending)
  have shape := inv.shaped slot valid
  have committed : ({ dir.entry slot with
      hostGeneration := hostGeneration, location := .device } : DirEntry).resident = true := by
    simp [DirEntry.resident, valid]
  have counted : (dir.entry slot).pendingBytes = blockBytes (dir.entry slot).blockOrder :=
    if_pos pending
  have enough := (Finset.single_le_sum (f := fun other => (dir.entry other).pendingBytes)
    (fun _ _ => Nat.zero_le _) (Finset.mem_range.mpr (inv.valid_lt valid))).trans_eq
      inv.pending.symm
  refine inv.replace resident { dir.entry slot with
      hostGeneration := hostGeneration, location := .device }
    rfl rfl rfl valid rfl rfl inv.catalog rfl ?_ ?_ ?_ ?_ ?_ ?_
  · intro other
    by_cases same : other = slot
    · simp [same, inside, committed]
    · simp [same]
  · obtain ⟨lists, heap⟩ := inv.heap
    refine ⟨lists, ?_⟩
    rw [if_pos committed]
    rw [show some ({ dir.entry slot with
        hostGeneration := hostGeneration, location := .device } : DirEntry).block =
      ownedBy dir.entry held (.inl slot) from (inv.owns inside).symm, update_eq_self]
    exact heap
  · exact ⟨shape.keyPositive, shape.keyBounded, shape.lenPositive, shape.lenBounded,
      fun _ => shape.aligned (DirEntry.resident_of_pending pending),
      fun _ => shape.covers (DirEntry.resident_of_pending pending)⟩
  · rw [DirEntry.residentBytes, DirEntry.residentBytes,
      if_pos (DirEntry.resident_of_pending pending), if_pos committed]
    rfl
  · have nothing : ({ dir.entry slot with
        hostGeneration := hostGeneration, location := .device } : DirEntry).pendingBytes = 0 := by
      simp [DirEntry.pendingBytes, DirEntry.pending]
    rw [nothing, counted]
    show dir.pendingDeviceBytes - _ + _ = _
    rw [counted] at enough
    omega
  · intro holds
    obtain ⟨ordered, bounded⟩ := inv.recent holds
    have stamps : ∀ other, ((commitEntry slot hostGeneration dir).entry other).lastAccess =
        (dir.entry other).lastAccess := by
      intro other
      by_cases same : other = slot
      · simp [commitEntry, same]
      · simp [commitEntry, same]
    refine ⟨by simpa only [stamps] using ordered, fun other member => ?_⟩
    rw [stamps]
    exact bounded other member

/-- A host entry moves into a block held outside the directory, under a stamp
newer than all others. -/
theorem admission (inv : Consistent g contents strict dir held resident recycled) {holder : ι}
    {valueByteOff totalLen order accessEpoch : Nat}
    (found : hostEntryIs dir slot totalLen = true)
    (owns : held holder = some ⟨valueByteOff / maxChunkValueBytes, order⟩)
    (aligned : maxChunkValueBytes ∣ valueByteOff)
    (covers : chunkCountFor totalLen ≤ 2 ^ order)
    (fresh : strict → accessEpoch ≤ dir.epoch ∧
      ∀ other ∈ resident, (dir.entry other).lastAccess < accessEpoch) :
    Consistent g contents strict
      (commitHostGetAdmission slot valueByteOff totalLen order accessEpoch dir).1
      (update held holder none) (slot :: resident) recycled := by
  obtain ⟨⟨valid, location⟩, len⟩ : ((dir.entry slot).valid = true ∧
      (dir.entry slot).location = .host) ∧ (dir.entry slot).totalValueLen = totalLen := by
    simpa [hostEntryIs] using found
  have absent : slot ∉ resident := by
    rw [inv.residency]
    simp [DirEntry.resident, location]
  have shape := inv.shaped slot valid
  obtain ⟨used, notRecycled, _⟩ := inv.validApart slot valid
  obtain ⟨catalog, sameUsed⟩ := inv.catalog.insertMru absent notRecycled used
  have admitted : ({ dir.entry slot with
      valueByteOff := valueByteOff, location := .device, blockOrder := order,
      lastAccess := accessEpoch } : DirEntry).resident = true := by
    simp [DirEntry.resident, valid]
  have before : (dir.entry slot).resident = false := by simp [DirEntry.resident, location]
  rw [commitHostGetAdmission, if_pos found]
  refine inv.replace (slot :: resident) { dir.entry slot with
      valueByteOff := valueByteOff, location := .device, blockOrder := order,
      lastAccess := accessEpoch } rfl rfl rfl valid rfl rfl catalog sameUsed ?_ ?_ ?_ ?_ ?_ ?_
  · intro other
    by_cases same : other = slot
    · simp [same, admitted]
    · simp [same]
  · obtain ⟨lists, heap⟩ := inv.heap
    refine ⟨lists, ?_⟩
    rw [if_pos admitted, ownedBy_held]
    exact heap.transfer (Sum.inr holder) (Sum.inl slot) owns
      (by simp [ownedBy, before])
  · exact ⟨shape.keyPositive, shape.keyBounded, shape.lenPositive, shape.lenBounded,
      fun _ => aligned, fun _ => by rw [len]; exact covers⟩
  · rw [DirEntry.residentBytes, DirEntry.residentBytes, if_pos admitted, before]
    rfl
  · simp [DirEntry.pendingBytes, DirEntry.pending, location]
  · intro holds
    refine recent_push (inv.recent holds) absent ?_ ?_ ?_
    · intro other different
      simp [different]
    · simpa using (fresh holds).2
    · simpa using (fresh holds).1

/-- Stamping a host entry. -/
theorem stampHost (inv : Consistent g contents strict dir held resident recycled)
    (totalLen accessEpoch : Nat) :
    Consistent g contents strict (persistHostGetAccessStampIfCurrent slot totalLen accessEpoch dir)
      held resident recycled := by
  unfold persistHostGetAccessStampIfCurrent
  split
  · next found =>
    obtain ⟨⟨valid, location⟩, len⟩ : ((dir.entry slot).valid = true ∧
        (dir.entry slot).location = .host) ∧ (dir.entry slot).totalValueLen = totalLen := by
      simpa [hostEntryIs] using found
    have absent : slot ∉ resident := by
      rw [inv.residency]
      simp [DirEntry.resident, location]
    have shape := inv.shaped slot valid
    refine inv.replace resident
      { dir.entry slot with lastAccess := accessEpoch } rfl rfl rfl valid rfl rfl
      inv.catalog rfl ?_ ?_ ?_ rfl rfl ?_
    · intro other
      by_cases same : other = slot
      · simp [same, absent, DirEntry.resident, location]
      · simp [same]
    · obtain ⟨lists, heap⟩ := inv.heap
      refine ⟨lists, ?_⟩
      have idle : ownedBy dir.entry held (.inl slot) = none := by
        simp [ownedBy, DirEntry.resident, location]
      have still : ({ dir.entry slot with lastAccess := accessEpoch } : DirEntry).resident = false := by
        simp [DirEntry.resident, location]
      rw [still, if_neg Bool.false_ne_true, ← idle, update_eq_self]
      exact heap
    · exact ⟨shape.keyPositive, shape.keyBounded, shape.lenPositive, shape.lenBounded,
        shape.aligned, shape.covers⟩
    · intro holds
      obtain ⟨ordered, bounded⟩ := inv.recent holds
      have stamps : ∀ other ∈ resident,
          ((persistGetAccessStamp slot accessEpoch dir).entry other).lastAccess =
            (dir.entry other).lastAccess := by
        intro other inside
        have different : other ≠ slot := by
          rintro rfl
          exact absent inside
        simp [persistGetAccessStamp, different]
      refine ⟨ordered.imp_of_mem fun newer older before => ?_, fun other inside => ?_⟩
      · rwa [stamps _ newer, stamps _ older]
      · rw [stamps other inside]
        exact bounded other inside
  · exact inv

/-- Recording the access of a resident entry makes it the most recently used. -/
theorem recordHit (inv : Consistent g contents strict dir held resident recycled)
    (inside : slot ∈ resident) {accessEpoch : Nat}
    (fresh : strict → accessEpoch ≤ dir.epoch ∧
      ∀ other ∈ resident, (dir.entry other).lastAccess < accessEpoch) :
    Consistent g contents strict (recordDeviceHit slot accessEpoch dir) held
      (slot :: resident.erase slot) recycled := by
  have here := (inv.residency slot).mp inside
  obtain ⟨valid, location⟩ := (DirEntry.resident_iff _).mp here
  have shape := inv.shaped slot valid
  obtain ⟨catalog, sameUsed⟩ := inv.catalog.touch inside
  have notIn : slot ∉ resident.erase slot := fun member =>
    (inv.catalog.distinct.mem_erase_iff.mp member).1 rfl
  have stamped : ({ dir.entry slot with lastAccess := accessEpoch } : DirEntry).resident = true :=
    here
  refine inv.replace (slot :: resident.erase slot)
    { dir.entry slot with lastAccess := accessEpoch } rfl rfl rfl valid rfl rfl
    catalog sameUsed ?_ ?_ ?_ rfl rfl ?_
  · intro other
    by_cases same : other = slot
    · simp [same, stamped]
    · simp [same, List.mem_erase_of_ne same]
  · obtain ⟨lists, heap⟩ := inv.heap
    refine ⟨lists, ?_⟩
    rw [if_pos stamped, show some ({ dir.entry slot with lastAccess := accessEpoch } :
      DirEntry).block = ownedBy dir.entry held (.inl slot) from (inv.owns inside).symm,
      update_eq_self]
    exact heap
  · exact ⟨shape.keyPositive, shape.keyBounded, shape.lenPositive, shape.lenBounded,
      shape.aligned, shape.covers⟩
  · intro holds
    have erased : Recent dir (resident.erase slot) :=
      recent_erase (inv.recent holds) rfl fun _ => rfl
    refine recent_push erased notIn ?_ ?_ ?_
    · intro other different
      simp [recordDeviceHit, persistGetAccessStamp, different]
    · intro other member
      simpa [recordDeviceHit, persistGetAccessStamp] using
        (fresh holds).2 other (List.mem_of_mem_erase member)
    · simpa [recordDeviceHit, persistGetAccessStamp] using (fresh holds).1

omit [DecidableEq ι] in
/-- Taking an epoch that does not wrap. -/
theorem advance (inv : Consistent g contents strict dir held resident recycled)
    (grows : strict → dir.epoch ≤ nextEpoch dir.epoch) :
    Consistent g contents strict (advanceEpoch dir) held resident recycled :=
  ⟨inv.index, inv.uniqueKeys, inv.catalog, inv.residency, inv.validApart, inv.reservedApart,
    inv.accounted, inv.heap, inv.shaped, inv.live, inv.pending, fun holds =>
    ⟨(inv.recent holds).1, fun slot inside =>
      ((inv.recent holds).2 slot inside).trans (grows holds)⟩⟩

/-! ## Allocation -/

omit [DecidableEq ι] in
/-- Exchanging the heap and the blocks held outside the directory. -/
theorem withHeap (inv : Consistent g contents strict dir held resident recycled) {heap : Heap}
    (owned : ∃ lists, HeapInv g.numHeapUnits contents heap lists (ownedBy dir.entry held')) :
    Consistent g contents strict { dir with heap := heap } held' resident recycled :=
  ⟨inv.index, inv.uniqueKeys, inv.catalog, inv.residency, inv.validApart, inv.reservedApart,
    inv.accounted, owned, inv.shaped, inv.live, inv.pending, inv.recent⟩

/-- A block held outside the directory goes back to the heap. -/
theorem freeBlock (inv : Consistent g contents strict dir held resident recycled) {holder : ι}
    (valueByteOff order : Nat)
    (owns : held holder = some ⟨valueByteOff / maxChunkValueBytes, order⟩) :
    Consistent g contents strict (Directory.freeBlock g valueByteOff order dir)
      (update held holder none) resident recycled := by
  obtain ⟨lists, heap⟩ := inv.heap
  obtain ⟨lists', freed⟩ := heap.buddyFree (Sum.inr holder) owns
  exact inv.withHeap ⟨lists', by rw [ownedBy_held]; exact freed⟩

/-- A successful attempt hands a block of the needed order to the holder. -/
theorem tryAllocate (inv : Consistent g contents strict dir held resident recycled) {holder : ι}
    {units unit order : Nat} {owner : BlockState} (idle : held holder = none)
    (taken : owner ≠ .free)
    (allocated : Directory.tryAllocate g units owner dir = some (after, unit, order)) :
    order = buddyOrderForUnits units ∧ (∃ heap, after = { dir with heap := heap }) ∧
      Consistent g contents strict after (update held holder (some ⟨unit, order⟩))
        resident recycled := by
  unfold Directory.tryAllocate at allocated
  split at allocated
  · obtain ⟨⟨heap', unit', order'⟩, found, result⟩ := Option.map_eq_some_iff.mp allocated
    obtain ⟨rfl, rfl, rfl⟩ : _ ∧ _ ∧ _ := by simpa only [Prod.mk.injEq] using result
    obtain ⟨lists, heap⟩ := inv.heap
    obtain ⟨sized, lists', owned⟩ := heap.buddyAllocate_some (Sum.inr holder) idle taken found
    exact ⟨sized, ⟨heap', rfl⟩, inv.withHeap ⟨lists', by rw [ownedBy_held]; exact owned⟩⟩
  · exact nomatch allocated

end Consistent

/-- Only evictions lie between the two states: some committed entries lost their
blocks. -/
structure Demoted (before after : State) : Prop where
  entry : ∀ slot, after.entry slot = before.entry slot ∨
    (evictable before slot = true ∧
      after.entry slot = { before.entry slot with location := .host })
  buckets : after.buckets = before.buckets
  reservedSlot : after.reservedSlot = before.reservedSlot
  epoch : after.epoch = before.epoch
  putHostQueue : after.putHostQueue = before.putHostQueue
  pendingDeviceBytes : after.pendingDeviceBytes = before.pendingDeviceBytes

namespace Demoted

variable {before middle : State}

theorem refl (before : State) : Demoted before before :=
  ⟨fun _ => Or.inl rfl, rfl, rfl, rfl, rfl, rfl⟩

theorem trans (first : Demoted before middle) (second : Demoted middle after) :
    Demoted before after := by
  refine ⟨fun slot => ?_, second.buckets.trans first.buckets,
    second.reservedSlot.trans first.reservedSlot, second.epoch.trans first.epoch,
    second.putHostQueue.trans first.putHostQueue,
    second.pendingDeviceBytes.trans first.pendingDeviceBytes⟩
  rcases first.entry slot with same | ⟨allowed, demoted⟩
  · rcases second.entry slot with kept | ⟨later, demoted⟩
    · exact Or.inl (kept.trans same)
    · exact Or.inr ⟨by simpa only [evictable, same] using later, by rw [demoted, same]⟩
  · rcases second.entry slot with kept | ⟨later, _⟩
    · exact Or.inr ⟨allowed, kept.trans demoted⟩
    · simp [evictable, demoted] at later

theorem valid (demoted : Demoted before after) (slot : Nat) :
    (after.entry slot).valid = (before.entry slot).valid := by
  rcases demoted.entry slot with same | ⟨_, same⟩ <;> rw [same]

theorem key (demoted : Demoted before after) (slot : Nat) :
    (after.entry slot).key = (before.entry slot).key := by
  rcases demoted.entry slot with same | ⟨_, same⟩ <;> rw [same]

/-- An entry that is not committed to the device is untouched. -/
theorem kept (demoted : Demoted before after) {slot : Nat}
    (pinned : evictable before slot = false) : after.entry slot = before.entry slot := by
  rcases demoted.entry slot with same | ⟨allowed, _⟩
  · exact same
  · exact absurd (pinned.symm.trans allowed) Bool.false_ne_true

/-- What was resident stays owned by its slot, unless it was evictable. -/
theorem ownedBy_kept (demoted : Demoted before after) (held : ι → Option Block)
    {owner : Nat ⊕ ι} {block : Block} (owns : ownedBy before.entry held owner = some block)
    (pinned : ∀ slot, owner = .inl slot → evictable before slot = false) :
    ownedBy after.entry held owner = some block := by
  cases owner with
  | inl slot => simpa only [ownedBy, demoted.kept (pinned slot rfl)] using owns
  | inr holder => exact owns

end Demoted

theorem evictCachedBlock_demoted (evicted : evictCachedBlock g slot dir = some after) :
    Demoted dir after := by
  unfold evictCachedBlock at evicted
  split at evicted
  · next allowed =>
    obtain rfl := Option.some.inj evicted
    refine ⟨fun other => ?_, rfl, rfl, rfl, rfl, rfl⟩
    by_cases same : other = slot
    · subst same
      exact Or.inr ⟨allowed, update_self ..⟩
    · exact Or.inl (update_of_ne same ..)
  · exact nomatch evicted

namespace Consistent

/-- The victim is a committed resident entry; without one there is none. -/
theorem victim (inv : Consistent g contents strict dir held resident recycled) :
    (∀ slot, findOldestDeviceVictim (evictable dir) dir.catalog = some slot →
      evictable dir slot = true ∧ slot ∈ resident) ∧
    (findOldestDeviceVictim (evictable dir) dir.catalog = none →
      ∀ slot, evictable dir slot = false) := by
  rw [inv.catalog.findOldest_eq]
  refine ⟨fun slot found => ⟨List.find?_some found, ?_⟩, fun none slot => ?_⟩
  · exact List.mem_reverse.mp (List.mem_of_find?_eq_some found)
  · by_contra allowed
    have committed : evictable dir slot = true := by simpa using allowed
    obtain ⟨valid, device⟩ : (dir.entry slot).valid = true ∧ (dir.entry slot).location = .device := by
      simpa [evictable] using committed
    have inside : slot ∈ resident := by
      rw [inv.residency, DirEntry.resident_iff, device]
      exact ⟨valid, fun impossible => nomatch impossible⟩
    have refused := List.find?_eq_none.mp none slot (List.mem_reverse.mpr inside)
    exact refused committed

end Consistent

/-- The holders after an allocation. -/
def allocated [DecidableEq ι] (held : ι → Option Block) (holder : ι) (result : Option (Nat × Nat)) :
    ι → Option Block :=
  match result with
  | none => held
  | some (unit, order) => update held holder (some ⟨unit, order⟩)

/-- What an allocation may do: evict committed entries, and hand a block of the
needed order to the holder. -/
structure Allocates [DecidableEq ι] (g : Geometry) (contents : Nat → HeapBlock) (strict : Prop) (dir : State)
    (held : ι → Option Block) (recycled : List Nat) (holder : ι) (units : Nat)
    (outcome : State × Option (Nat × Nat)) : Prop where
  demoted : Demoted dir outcome.1
  sized : ∀ unit order, outcome.2 = some (unit, order) → order = buddyOrderForUnits units
  consistent : ∃ resident', Consistent g contents strict outcome.1
    (allocated held holder outcome.2) resident' recycled

namespace Consistent

variable [DecidableEq ι] {holder : ι} {units : Nat} {owner : BlockState} {allowEviction : Bool}

/-- A refused allocation changes nothing. -/
theorem refused (inv : Consistent g contents strict dir held resident recycled) :
    Allocates g contents strict dir held recycled holder units (dir, none) :=
  ⟨Demoted.refl dir, fun _ _ impossible => (nomatch impossible), resident, inv⟩

/-- A first attempt that succeeds evicts nothing. -/
theorem granted (inv : Consistent g contents strict dir held resident recycled)
    {unit order : Nat} (idle : held holder = none) (taken : owner ≠ .free)
    (found : Directory.tryAllocate g units owner dir = some (after, unit, order)) :
    Allocates g contents strict dir held recycled holder units (after, some (unit, order)) := by
  obtain ⟨sized, ⟨heap, rfl⟩, consistent⟩ := inv.tryAllocate idle taken found
  refine ⟨⟨fun _ => Or.inl rfl, rfl, rfl, rfl, rfl, rfl⟩, ?_, resident, consistent⟩
  rintro _ _ ⟨⟩
  exact sized

/-- Attempts evict, and hand a block to the holder if they succeed. -/
theorem allocateFrom (inv : Consistent g contents strict dir held resident recycled)
    {attempts : Nat} (idle : held holder = none) (taken : owner ≠ .free) :
    Allocates g contents strict dir held recycled holder units
      (Directory.allocateFrom g units owner allowEviction attempts dir) := by
  induction attempts generalizing dir resident with
  | zero =>
    unfold Directory.allocateFrom
    split
    · next found => exact inv.granted idle taken found
    · exact inv.refused
  | succ remaining inductionHypothesis =>
    unfold Directory.allocateFrom
    split
    · next found => exact inv.granted idle taken found
    · simp only
      split
      · split
        · exact inv.refused
        · split
          · exact inv.refused
          · next evicted found =>
            have later := inductionHypothesis (inv.evict found)
            exact ⟨(evictCachedBlock_demoted found).trans later.demoted, later.sized,
              later.consistent⟩
      · exact inv.refused

/-- Allocation evicts, and hands a block that covers the units to the holder if it
succeeds. -/
theorem allocateCacheBlock (inv : Consistent g contents strict dir held resident recycled)
    (units : Nat) (owner : BlockState) (allowEviction : Bool)
    (idle : held holder = none) (taken : owner ≠ .free) :
    Allocates g contents strict dir held recycled holder units
      (Directory.allocateCacheBlock g units owner allowEviction dir) := by
  unfold Directory.allocateCacheBlock
  split
  · exact inv.refused
  · split
    · exact inv.refused
    · exact inv.allocateFrom idle taken

end Consistent

end KvCache.Directory
