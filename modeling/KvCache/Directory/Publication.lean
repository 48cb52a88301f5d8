import KvCache.Directory.Transitions

/-!
# Slots from reservation to removal

The operations that change which keys the directory holds. A PUT reserves a slot,
which invalidates what the slot held, and publishes its value there or returns
the slot; REMOVE invalidates an entry and queues its slot.

REMOVE is a reservation that is returned at once: both invalidate the entry, its
bucket and its block, and differ only in the word that names the slot meanwhile.
-/

namespace KvCache.Directory

open AlignedBlock Buddy Function HashIndex Layout Residency

universe u
variable {ι : Type u} [DecidableEq ι]
variable {g : Geometry} {contents : Nat → HeapBlock} {strict : Prop} {dir after : State}
variable {held : ι → Option Block} {resident recycled : List Nat} {slot : Nat}

theorem eraseEntry_entry (g : Geometry) (slot : Nat) (dir : State) :
    (eraseEntry g slot dir).entry =
      update dir.entry slot { dir.entry slot with valid := false } := by
  unfold eraseEntry
  split <;> rfl

theorem reserveSlot_entry (g : Geometry) (slot : Nat) (dir : State) :
    (reserveSlot g slot dir).entry =
      update dir.entry slot { dir.entry slot with valid := false } := by
  unfold reserveSlot
  split
  · exact eraseEntry_entry g slot _
  · next invalid =>
    have same : ({ dir.entry slot with valid := false } : DirEntry) = dir.entry slot := by
      rw [← Bool.eq_false_of_not_eq_true invalid]
    rw [same, update_eq_self]

/-- What invalidating an entry leaves alone. -/
theorem eraseEntry_frame (g : Geometry) (slot : Nat) (dir : State) :
    (eraseEntry g slot dir).reservedSlot = dir.reservedSlot ∧
      (eraseEntry g slot dir).epoch = dir.epoch ∧
      (eraseEntry g slot dir).putHostQueue = dir.putHostQueue := by
  by_cases host : (dir.entry slot).location = .host
  · simp [eraseEntry, host]
  · simp [eraseEntry, host]

/-- What a reservation leaves alone. -/
theorem reserveSlot_frame (g : Geometry) (slot : Nat) (dir : State) :
    (reserveSlot g slot dir).reservedSlot = some slot ∧
      (reserveSlot g slot dir).epoch = dir.epoch ∧
      (reserveSlot g slot dir).putHostQueue = dir.putHostQueue := by
  unfold reserveSlot
  dsimp only
  split
  · exact eraseEntry_frame g slot { dir with reservedSlot := some slot }
  · exact ⟨rfl, rfl, rfl⟩

/-- REMOVE is a reservation returned at once. -/
theorem removeEntry_eq (valid : (dir.entry slot).valid = true) (idle : dir.reservedSlot = none) :
    removeEntry g slot dir = releaseSlot slot (reserveSlot g slot dir) := by
  have same : dir = { dir with reservedSlot := none } := by rw [← idle]
  rw [reserveSlot, if_pos valid, removeEntry, releaseSlot, eraseEntry, eraseEntry]
  split
  · rw [same]
  · rw [same]

namespace Consistent

/-- Reserving the slot of a valid entry invalidates the entry with its bucket and
its block. -/
theorem reserveValid (inv : Consistent g contents strict dir held resident recycled)
    (idle : dir.reservedSlot = none) (valid : (dir.entry slot).valid = true) :
    Consistent g contents strict (reserveSlot g slot dir) held (resident.erase slot) recycled := by
  obtain ⟨⟨bits, power⟩, load, proper⟩ := hashNumBuckets_spec g.maxKeys
  have entries := reserveSlot_entry g slot dir
  obtain ⟨reserved, epoch, _⟩ := reserveSlot_frame g slot dir
  have below := inv.valid_lt valid
  have cleared : ({ dir.entry slot with valid := false } : DirEntry).resident = false := by
    simp [DirEntry.resident]
  have noBytes : ({ dir.entry slot with valid := false } : DirEntry).residentBytes = 0 := by
    rw [DirEntry.residentBytes, cleared]
    rfl
  have noPending : ({ dir.entry slot with valid := false } : DirEntry).pendingBytes = 0 := by
    simp [DirEntry.pendingBytes, DirEntry.pending]
  have keys : keyAt (reserveSlot g slot dir) = update (keyAt dir) slot none := by
    show (fun other => keyOf ((reserveSlot g slot dir).entry other)) = _
    rw [entries, keyOf_update]
    rfl
  have buckets : (reserveSlot g slot dir).buckets =
      hashmapDelete g.numBuckets (fnv1aHash (dir.entry slot).key) slot dir.buckets := by
    rw [reserveSlot, if_pos valid, eraseEntry]
    split <;> rfl
  have words : CatalogInv g.maxKeys (reserveSlot g slot dir).catalog (resident.erase slot) recycled ∧
      (reserveSlot g slot dir).catalog.nextUnusedSlot = dir.catalog.nextUnusedSlot := by
    rw [reserveSlot, if_pos valid, eraseEntry]
    split
    · next host =>
      have absent : slot ∉ resident := by
        rw [inv.residency]
        simp [DirEntry.resident, show (dir.entry slot).location = .host from host]
      rw [List.erase_of_not_mem absent]
      exact ⟨inv.catalog, rfl⟩
    · next notHost =>
      obtain ⟨catalog, _, used⟩ := inv.catalog.remove
        ((inv.residency slot).mpr ((DirEntry.resident_iff _).mpr ⟨valid, notHost⟩))
      exact ⟨catalog, used⟩
  have residentSum := sum_update dir.entry { dir.entry slot with valid := false }
    DirEntry.residentBytes below
  have pendingSum := sum_update dir.entry { dir.entry slot with valid := false }
    DirEntry.pendingBytes below
  rw [← inv.live, noBytes] at residentSum
  rw [← inv.pending, noPending] at pendingSum
  refine ⟨?_, ?_, words.1, ?_, ?_, ?_, ?_, ?_, ?_, ?_, ?_, ?_⟩
  · rw [buckets, keys]
    exact inv.index.delete power load proper (by simp [keyAt, keyOf, valid])
  · rw [keys]
    intro left right key atLeft atRight
    by_cases isLeft : left = slot
    · simp [isLeft] at atLeft
    · by_cases isRight : right = slot
      · simp [isRight] at atRight
      · rw [update_of_ne isLeft] at atLeft
        rw [update_of_ne isRight] at atRight
        exact inv.uniqueKeys left right key atLeft atRight
  · intro other
    rw [inv.catalog.distinct.mem_erase_iff, entries]
    by_cases same : other = slot
    · simp [same, cleared]
    · simp [same, inv.residency other]
  · intro other holds
    rw [entries] at holds
    have different : other ≠ slot := by
      rintro rfl
      simp at holds
    rw [update_of_ne different] at holds
    obtain ⟨used, notRecycled, _⟩ := inv.validApart other holds
    exact ⟨words.2 ▸ used, notRecycled, by simpa [reserved] using Ne.symm different⟩
  · intro other holds
    obtain rfl : slot = other := Option.some.inj (reserved.symm.trans holds)
    obtain ⟨used, notRecycled, _⟩ := inv.validApart slot valid
    exact ⟨words.2 ▸ used, notRecycled⟩
  · intro other used
    rw [words.2] at used
    rw [entries, reserved]
    by_cases same : other = slot
    · exact Or.inr (Or.inr (by rw [same]))
    · rcases inv.accounted other used with holds | queued | isReserved
      · exact Or.inl (by rwa [update_of_ne same])
      · exact Or.inr (Or.inl queued)
      · simp [idle] at isReserved
  · rw [entries, ownedBy_update, cleared, if_neg Bool.false_ne_true]
    rw [reserveSlot, if_pos valid, eraseEntry]
    split
    · next host =>
      obtain ⟨lists, heap⟩ := inv.heap
      have idle : ownedBy dir.entry held (.inl slot) = none := by
        simp [ownedBy, DirEntry.resident, show (dir.entry slot).location = .host from host]
      rw [← idle, update_eq_self]
      exact ⟨lists, heap⟩
    · next notHost =>
      exact inv.released_block
        ((inv.residency slot).mpr ((DirEntry.resident_iff _).mpr ⟨valid, notHost⟩))
  · intro other holds
    rw [entries] at holds ⊢
    have different : other ≠ slot := by
      rintro rfl
      simp at holds
    rw [update_of_ne different] at holds ⊢
    exact inv.shaped other holds
  · rw [entries]
    rw [reserveSlot, if_pos valid, eraseEntry]
    split
    · next host =>
      have nothing : (dir.entry slot).residentBytes = 0 := by
        simp [DirEntry.residentBytes, DirEntry.resident,
          show (dir.entry slot).location = .host from host]
      show dir.liveDeviceBytes = _
      omega
    · next notHost =>
      have counted : (dir.entry slot).residentBytes = blockBytes (dir.entry slot).blockOrder :=
        if_pos ((DirEntry.resident_iff _).mpr ⟨valid, notHost⟩)
      show dir.liveDeviceBytes - blockBytes (dir.entry slot).blockOrder = _
      omega
  · rw [entries]
    rw [reserveSlot, if_pos valid, eraseEntry]
    split
    · next host =>
      have nothing : (dir.entry slot).pendingBytes = 0 := by
        simp [DirEntry.pendingBytes, DirEntry.pending,
          show (dir.entry slot).location = .host from host]
      show dir.pendingDeviceBytes = _
      omega
    · show (if (dir.entry slot).location = .devicePendingHost then
        dir.pendingDeviceBytes - blockBytes (dir.entry slot).blockOrder
        else dir.pendingDeviceBytes) = _
      split
      · next isPending =>
        have counted : (dir.entry slot).pendingBytes = blockBytes (dir.entry slot).blockOrder :=
          if_pos ((DirEntry.pending_iff _).mpr ⟨valid, isPending⟩)
        omega
      · next notPending =>
        have nothing : (dir.entry slot).pendingBytes = 0 := by
          rw [DirEntry.pendingBytes, if_neg]
          rw [DirEntry.pending_iff]
          exact fun isPending => notPending isPending.2
        omega
  · intro holds
    refine recent_erase (inv.recent holds) epoch fun other => ?_
    rw [entries]
    by_cases same : other = slot
    · simp [same]
    · simp [same]

omit [DecidableEq ι] in
/-- Reserving a slot that was just claimed. -/
theorem reserveClaimed (inv : Consistent g contents strict dir held resident recycled)
    (idle : dir.reservedSlot = none) {catalog : Catalog}
    (claimed : catalogClaimFreeSlot g.maxKeys dir.catalog = some (slot, catalog)) :
    ∃ recycled', Consistent g contents strict (reserveSlot g slot { dir with catalog := catalog })
      held resident recycled' ∧ (dir.entry slot).valid = false := by
  rcases inv.catalog.claim claimed with ⟨rest, rfl, words, used⟩ | ⟨rfl, rfl, words, used⟩
  · have invalid : (dir.entry slot).valid = false := by
      by_contra holds
      exact (inv.validApart slot (by simpa using holds)).2.1 (by simp)
    have distinct := List.nodup_cons.mp inv.catalog.recycledDistinct
    refine ⟨rest, ?_, invalid⟩
    rw [reserveSlot, if_neg (by simp [invalid])]
    refine ⟨inv.index, inv.uniqueKeys, words, inv.residency, ?_, ?_, ?_, inv.heap, inv.shaped,
      inv.live, inv.pending, inv.recent⟩
    · intro other holds
      obtain ⟨below, notRecycled, _⟩ := inv.validApart other holds
      refine ⟨used ▸ below, fun member => notRecycled (by simp [member]), ?_⟩
      rintro ⟨⟩
      simp [invalid] at holds
    · rintro other ⟨⟩
      exact ⟨used ▸ inv.catalog.recycledUsed slot (by simp), distinct.1⟩
    · intro other below
      rcases inv.accounted other (used ▸ below) with holds | queued | reserved
      · exact Or.inl holds
      · rcases List.mem_cons.mp queued with rfl | inside
        · exact Or.inr (Or.inr rfl)
        · exact Or.inr (Or.inl inside)
      · simp [idle] at reserved
  · have invalid : (dir.entry dir.catalog.nextUnusedSlot).valid = false := by
      by_contra holds
      exact Nat.lt_irrefl _ (inv.validApart _ (by simpa using holds)).1
    refine ⟨[], ?_, invalid⟩
    rw [reserveSlot, if_neg (by simp [invalid])]
    refine ⟨inv.index, inv.uniqueKeys, words, inv.residency, ?_, ?_, ?_, inv.heap, inv.shaped,
      inv.live, inv.pending, inv.recent⟩
    · intro other holds
      obtain ⟨below, _, _⟩ := inv.validApart other holds
      refine ⟨by rw [used]; exact Nat.lt_succ_of_lt below, List.not_mem_nil, ?_⟩
      rintro ⟨⟩
      exact Nat.lt_irrefl _ below
    · rintro other ⟨⟩
      exact ⟨by rw [used]; exact Nat.lt_succ_self _, List.not_mem_nil⟩
    · intro other below
      rw [used] at below
      rcases Nat.lt_succ_iff_lt_or_eq.mp below with before | rfl
      · rcases inv.accounted other before with holds | queued | reserved
        · exact Or.inl holds
        · exact absurd queued List.not_mem_nil
        · simp [idle] at reserved
      · exact Or.inr (Or.inr rfl)

omit [DecidableEq ι] in
/-- A reserved slot is queued for reuse. -/
theorem release (inv : Consistent g contents strict dir held resident recycled)
    (reserved : dir.reservedSlot = some slot) :
    Consistent g contents strict (releaseSlot slot dir) held resident (slot :: recycled) := by
  obtain ⟨used, notRecycled⟩ := inv.reservedApart slot reserved
  have invalid : (dir.entry slot).valid ≠ true := fun holds =>
    (inv.validApart slot holds).2.2 reserved
  have absent : slot ∉ resident := by
    rw [inv.residency, DirEntry.resident_iff]
    exact fun holds => invalid holds.1
  refine ⟨inv.index, inv.uniqueKeys, inv.catalog.release absent notRecycled used, inv.residency,
    ?_, ?_, ?_, inv.heap, inv.shaped, inv.live, inv.pending, inv.recent⟩
  · intro other holds
    obtain ⟨below, apart, _⟩ := inv.validApart other holds
    refine ⟨below, ?_, fun impossible => nomatch impossible⟩
    rw [List.mem_cons, not_or]
    refine ⟨?_, apart⟩
    rintro rfl
    exact invalid holds
  · exact fun _ impossible => nomatch impossible
  · intro other below
    rcases inv.accounted other below with holds | queued | isReserved
    · exact Or.inl holds
    · exact Or.inr (Or.inl (List.mem_cons_of_mem _ queued))
    · obtain rfl : slot = other := Option.some.inj (reserved.symm.trans isReserved)
      exact Or.inr (Or.inl List.mem_cons_self)

/-- REMOVE of a valid entry. -/
theorem remove (inv : Consistent g contents strict dir held resident recycled)
    (idle : dir.reservedSlot = none) (valid : (dir.entry slot).valid = true) :
    Consistent g contents strict (removeEntry g slot dir) held (resident.erase slot)
      (slot :: recycled) := by
  rw [removeEntry_eq valid idle]
  exact (inv.reserveValid idle valid).release (reserveSlot_frame g slot dir).1

end Consistent

/-- What a granted publication checked and wrote. -/
structure Publishes (g : Geometry) (streamMatches : Bool) (req : PutPublishRequest)
    (dir after : State) : Prop where
  keyPositive : 0 < req.key.length
  keyBounded : req.key.length ≤ g.maxKeyLen
  lenPositive : 0 < req.totalLen
  below : req.dirSlot < g.maxKeys
  reserved : dir.reservedSlot = some req.dirSlot
  room : streamMatches = true ∨ dir.putHostQueue.length ≠ g.maxKeys
  entry : after.entry = update dir.entry req.dirSlot (pendingEntry req (nextEpoch dir.epoch))
  buckets : after.buckets = hashmapInsert g.numBuckets (fnv1aHash req.key) req.dirSlot dir.buckets
  heap : after.heap = dir.heap
  catalog : after.catalog = residencyLruInsertMru req.dirSlot dir.catalog
  reservedSlot : after.reservedSlot = none
  epoch : after.epoch = nextEpoch dir.epoch
  live : after.liveDeviceBytes = dir.liveDeviceBytes + blockBytes req.blockOrder
  pending : after.pendingDeviceBytes = dir.pendingDeviceBytes + blockBytes req.blockOrder
  queue : after.putHostQueue = if streamMatches then dir.putHostQueue
    else dir.putHostQueue ++ [⟨req.dirSlot, req.pendingToken⟩]

theorem putPublish_some {req : PutPublishRequest} {streamMatches : Bool}
    (published : putPublish g streamMatches req dir = some after) :
    Publishes g streamMatches req dir after := by
  unfold putPublish at published
  split at published
  · next checked =>
    obtain ⟨keyPositive, keyBounded, lenPositive, below, reserved⟩ := checked
    obtain ⟨middle, pushed, rfl⟩ := Option.map_eq_some_iff.mp published
    unfold publishPendingPut at pushed
    split at pushed
    · exact nomatch pushed
    · next room =>
      obtain rfl := Option.some.inj pushed
      refine ⟨keyPositive, keyBounded, lenPositive, below, reserved, ?_, rfl, rfl, rfl, rfl, rfl,
        rfl, rfl, rfl, rfl⟩
      cases streamMatches with
      | true => exact Or.inl rfl
      | false => exact Or.inr fun full => room ⟨rfl, full⟩
  · exact nomatch published

namespace Consistent

/-- Publication turns the reservation and the reserved block into a pending entry
and adds the key to the index. -/
theorem publish (inv : Consistent g contents strict dir held resident recycled) {holder : ι}
    {req : PutPublishRequest} {streamMatches : Bool}
    (published : Publishes g streamMatches req dir after)
    (fresh : ∀ other, keyAt dir other ≠ some req.key)
    (lenBounded : req.totalLen ≤ g.maxValueBytes)
    (owns : held holder = some ⟨req.valueByteOff / maxChunkValueBytes, req.blockOrder⟩)
    (aligned : maxChunkValueBytes ∣ req.valueByteOff)
    (covers : chunkCountFor req.totalLen ≤ 2 ^ req.blockOrder)
    (grows : strict → dir.epoch ≤ nextEpoch dir.epoch) :
    Consistent g contents strict after (update held holder none) (req.dirSlot :: resident)
      recycled := by
  obtain ⟨⟨bits, power⟩, load, proper⟩ := hashNumBuckets_spec g.maxKeys
  obtain ⟨used, notRecycled⟩ := inv.reservedApart _ published.reserved
  have invalid : (dir.entry req.dirSlot).valid ≠ true := fun holds =>
    (inv.validApart _ holds).2.2 published.reserved
  have absent : req.dirSlot ∉ resident := by
    rw [inv.residency, DirEntry.resident_iff]
    exact fun holds => invalid holds.1
  have before : (dir.entry req.dirSlot).resident = false := by
    rw [← Bool.not_eq_true, DirEntry.resident_iff]
    exact fun holds => invalid holds.1
  have beforePending : (dir.entry req.dirSlot).pending = false := by
    rw [← Bool.not_eq_true, DirEntry.pending_iff]
    exact fun holds => invalid holds.1
  have isResident : (pendingEntry req (nextEpoch dir.epoch)).resident = true := rfl
  obtain ⟨catalog, sameUsed⟩ := inv.catalog.insertMru absent notRecycled used
  have keys : keyAt after = update (keyAt dir) req.dirSlot (some req.key) := by
    show (fun other => keyOf (after.entry other)) = _
    rw [published.entry, keyOf_update]
    rfl
  refine ⟨?_, ?_, published.catalog ▸ catalog, ?_, ?_, ?_, ?_, ?_, ?_, ?_, ?_, ?_⟩
  · rw [keys, published.buckets]
    exact inv.index.insert power load proper published.below (by simp [keyAt, keyOf, invalid])
      req.key
  · rw [keys]
    intro left right key atLeft atRight
    by_cases isLeft : left = req.dirSlot <;> by_cases isRight : right = req.dirSlot
    · rw [isLeft, isRight]
    · rw [isLeft, update_self] at atLeft
      rw [update_of_ne isRight] at atRight
      obtain rfl := Option.some.inj atLeft
      exact absurd atRight (fresh right)
    · rw [isRight, update_self] at atRight
      rw [update_of_ne isLeft] at atLeft
      obtain rfl := Option.some.inj atRight
      exact absurd atLeft (fresh left)
    · rw [update_of_ne isLeft] at atLeft
      rw [update_of_ne isRight] at atRight
      exact inv.uniqueKeys left right key atLeft atRight
  · intro other
    rw [published.entry]
    by_cases same : other = req.dirSlot
    · simp [same, isResident]
    · simp [same, inv.residency other]
  · intro other holds
    rw [published.entry] at holds
    rw [published.catalog, sameUsed, published.reservedSlot]
    by_cases same : other = req.dirSlot
    · rw [same]
      exact ⟨used, notRecycled, fun impossible => by cases impossible⟩
    · rw [update_of_ne same] at holds
      obtain ⟨below, apart, _⟩ := inv.validApart other holds
      exact ⟨below, apart, fun impossible => by cases impossible⟩
  · intro other impossible
    cases published.reservedSlot.symm.trans impossible
  · intro other isUsed
    rw [published.catalog, sameUsed] at isUsed
    rw [published.entry]
    by_cases same : other = req.dirSlot
    · exact Or.inl (by rw [same, update_self]; rfl)
    · rcases inv.accounted other isUsed with holds | queued | isReserved
      · exact Or.inl (by rwa [update_of_ne same])
      · exact Or.inr (Or.inl queued)
      · exact absurd (Option.some.inj (isReserved.symm.trans published.reserved)) same
  · obtain ⟨lists, heap⟩ := inv.heap
    refine ⟨lists, ?_⟩
    rw [published.heap, published.entry, ownedBy_update, ownedBy_held, if_pos isResident]
    exact heap.transfer (Sum.inr holder) (Sum.inl req.dirSlot) owns
      (by simp [ownedBy, before])
  · intro other holds
    rw [published.entry] at holds ⊢
    by_cases same : other = req.dirSlot
    · rw [same, update_self]
      exact ⟨published.keyPositive, published.keyBounded, published.lenPositive, lenBounded,
        fun _ => aligned, fun _ => covers⟩
    · rw [update_of_ne same] at holds ⊢
      exact inv.shaped other holds
  · have sum := sum_update dir.entry (pendingEntry req (nextEpoch dir.epoch))
      DirEntry.residentBytes published.below
    have nothing : (dir.entry req.dirSlot).residentBytes = 0 := by
      rw [DirEntry.residentBytes, before]
      rfl
    rw [← inv.live, nothing] at sum
    rw [published.live, published.entry]
    exact sum.symm
  · have sum := sum_update dir.entry (pendingEntry req (nextEpoch dir.epoch))
      DirEntry.pendingBytes published.below
    have nothing : (dir.entry req.dirSlot).pendingBytes = 0 := by
      rw [DirEntry.pendingBytes, beforePending]
      rfl
    rw [← inv.pending, nothing] at sum
    rw [published.pending, published.entry]
    exact sum.symm
  · intro holds
    have newer := nextEpoch_lt (grows holds)
    have stamp : (after.entry req.dirSlot).lastAccess = nextEpoch dir.epoch := by
      rw [published.entry, update_self]
      rfl
    refine recent_push (inv.recent holds) absent ?_ ?_ ?_
    · intro other different
      rw [published.entry, update_of_ne different]
    · intro other inside
      rw [stamp]
      exact ((inv.recent holds).2 other inside).trans_lt newer
    · rw [stamp, published.epoch]

end Consistent

end KvCache.Directory
