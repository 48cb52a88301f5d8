import KvCache.Directory.Life

/-!
# The invariant of a directory's life

In every life that is reached all words of the directory agree, and the blocks held
outside are apart from those of the entries. The stamps follow the order of use until
the epoch word wraps.
-/

namespace KvCache.Directory

open AlignedBlock Buddy Function HashIndex Layout Residency

variable {g : Geometry} {policy : LeasePolicy} {contents : Nat → HeapBlock} {life after : Life}
variable {dir middle : State} {held : Holder → Option Block} {resident recycled : List Nat}

/-- The epoch has not wrapped. -/
def Life.Unwrapped (life : Life) : Prop := life.accesses < 2 ^ 32

/-- What holds of a life with the given residency list. -/
structure Lives (g : Geometry) (contents : Nat → HeapBlock) (life : Life) (resident recycled : List Nat) :
    Prop where
  consistent : Consistent g contents life.Unwrapped life.dir life.held resident recycled
  epoch : life.dir.epoch = life.accesses % 2 ^ 32
  leases : ∀ client lease, life.lease client = some lease → maxChunkValueBytes ∣ lease.valueByteOff
  reserved : life.dir.reservedSlot = life.granted.map fun granted => granted.grant.dirSlot
  prepared : ∀ granted, life.granted = some granted →
    granted.totalLen ≤ g.maxValueBytes ∧
      granted.grant.blockOrder = buddyOrderForUnits (chunkCountFor granted.totalLen) ∧
      maxChunkValueBytes ∣ granted.grant.valueByteOff ∧
      ∀ other, keyAt life.dir other ≠ some granted.key
  fetches : ∀ fetch, life.serving = some fetch ∨ life.promoting = some fetch →
    maxChunkValueBytes ∣ fetch.valueByteOff ∧ chunkCountFor fetch.totalLen ≤ 2 ^ fetch.order
  stamped : ∀ fetch, life.serving = some fetch → life.Unwrapped →
    fetch.accessEpoch ≤ life.dir.epoch ∧
      ∀ slot ∈ resident, (life.dir.entry slot).lastAccess < fetch.accessEpoch

theorem Consistent.weaken {strict weaker : Prop}
    (inv : Consistent g contents strict dir held resident recycled) (implies : weaker → strict) :
    Consistent g contents weaker dir held resident recycled :=
  { inv with recent := fun holds => inv.recent (implies holds) }

theorem coldDirectory_consistent (strict : Prop) :
    Consistent g contents strict (coldDirectory g contents) (fun _ : Holder => none) [] [] where
  index := coldBuckets_inv g.maxKeys g.numBuckets
  uniqueKeys := fun left right key holds => by
    simp [keyAt, keyOf, coldDirectory, clearedEntry] at holds
  catalog := coldCatalog_inv g.maxKeys
  residency := fun slot => by simp [coldDirectory, clearedEntry, DirEntry.resident]
  validApart := fun slot valid => by simp [coldDirectory, clearedEntry] at valid
  reservedApart := fun slot impossible => nomatch impossible
  accounted := fun slot used => absurd used (Nat.not_lt_zero slot)
  heap := by
    obtain ⟨lists, inv⟩ := seedHeap_inv (ι := Nat ⊕ Holder) contents g.numHeapUnits
    refine ⟨lists, ?_⟩
    have nothing : ownedBy (coldDirectory g contents).entry (fun _ : Holder => none) =
        fun _ => none := by
      funext owner
      cases owner <;> simp [ownedBy, coldDirectory, clearedEntry, DirEntry.resident]
    rw [nothing]
    exact inv
  shaped := fun slot valid => by simp [coldDirectory, clearedEntry] at valid
  live := by simp [coldDirectory, clearedEntry, DirEntry.residentBytes, DirEntry.resident]
  pending := by simp [coldDirectory, clearedEntry, DirEntry.pendingBytes, DirEntry.pending]
  recent := fun _ => ⟨List.Pairwise.nil, fun slot member => absurd member List.not_mem_nil⟩

/-! ## The blocks held outside -/

theorem held_prepare (client : Nat) (bind : Bool) (key : Key) (totalLen : Nat) (life : Life) :
    (life.prepare g policy client bind key totalLen).held =
      update (update life.held (.lease client)
        ((putPrepare g policy life.previousOrder ⟨bind, key, totalLen, life.lease client⟩
          life.dir).2.1.lease.map Lease.block)) .reservation
        ((putPrepare g policy life.previousOrder ⟨bind, key, totalLen, life.lease client⟩
          life.dir).2.1.grant.map PutGrant.block) := by
  funext holder
  cases holder with
  | lease other =>
    by_cases same : other = client
    · subst same
      simp [Life.held, Life.prepare]
    · simp [Life.held, Life.prepare, same]
  | reservation => simp [Life.held, Life.prepare, Function.comp_def]
  | serving => simp [Life.held, Life.prepare]
  | promoting => simp [Life.held, Life.prepare]

theorem held_granted (life : Life) (dir : State) (granted : Option Granted) (accesses : Nat) :
    ({ life with dir := dir, granted := granted, accesses := accesses } : Life).held =
      update life.held .reservation (granted.map fun granted => granted.grant.block) := by
  funext holder
  cases holder <;> simp [Life.held]

theorem held_serving (life : Life) (dir : State) (serving : Option Fetch) (accesses : Nat) :
    ({ life with dir := dir, serving := serving, accesses := accesses } : Life).held =
      update life.held .serving (serving.map Fetch.block) := by
  funext holder
  cases holder <;> simp [Life.held]

theorem held_promoting (life : Life) (dir : State) (promoting : Option Fetch) (accesses : Nat) :
    ({ life with dir := dir, promoting := promoting, accesses := accesses } : Life).held =
      update life.held .promoting (promoting.map Fetch.block) := by
  funext holder
  cases holder <;> simp [Life.held]

/-! ## The epoch -/

/-- As long as the epoch does not wrap, one more access raises it. -/
theorem Lives.grows (lives : Lives g contents life resident recycled)
    (room : life.accesses + 1 < 2 ^ 32) : life.dir.epoch < nextEpoch life.dir.epoch := by
  rw [lives.epoch, nextEpoch, Nat.mod_eq_of_lt (by omega : life.accesses < 2 ^ 32),
    Nat.mod_eq_of_lt room]
  omega

theorem Lives.epoch_next (lives : Lives g contents life resident recycled) :
    nextEpoch life.dir.epoch = (life.accesses + 1) % 2 ^ 32 := by
  rw [lives.epoch, nextEpoch]
  omega

theorem unwrapped_before (room : life.accesses + 1 < 2 ^ 32) : life.Unwrapped := by
  unfold Life.Unwrapped
  omega

/-- Every stamp is below the next epoch. -/
theorem Lives.stamps_below (lives : Lives g contents life resident recycled)
    (room : life.accesses + 1 < 2 ^ 32) :
    ∀ slot ∈ resident, (life.dir.entry slot).lastAccess < nextEpoch life.dir.epoch :=
  fun slot inside =>
    ((lives.consistent.recent (unwrapped_before room)).2 slot inside).trans_lt (lives.grows room)

/-! ## Blocks for host values -/

/-- What taking a block for a host value may do. -/
theorem fetchBlock_spec {strict : Prop}
    (inv : Consistent g contents strict dir held resident recycled) (holder : Holder)
    (idle : held holder = none) (slot accessEpoch : Nat) :
    Demoted dir (fetchBlock g slot accessEpoch dir).1 ∧
      (∀ fetch, (fetchBlock g slot accessEpoch dir).2 = some fetch →
        fetch.slot = slot ∧ fetch.totalLen = (dir.entry slot).totalValueLen ∧
          maxChunkValueBytes ∣ fetch.valueByteOff ∧
          chunkCountFor fetch.totalLen ≤ 2 ^ fetch.order ∧ fetch.accessEpoch = accessEpoch) ∧
      ∃ resident', Consistent g contents strict (fetchBlock g slot accessEpoch dir).1
        (update held holder ((fetchBlock g slot accessEpoch dir).2.map Fetch.block)) resident'
        recycled := by
  have allocation := inv.allocateCacheBlock (chunkCountFor (dir.entry slot).totalValueLen)
    (.slot slot) true idle (by simp)
  unfold fetchBlock
  dsimp only
  generalize Directory.allocateCacheBlock g (chunkCountFor (dir.entry slot).totalValueLen)
    (.slot slot) true dir = result at allocation ⊢
  obtain ⟨after, block⟩ := result
  obtain ⟨resident', consistent⟩ := allocation.consistent
  refine ⟨allocation.demoted, ?_, resident', ?_⟩
  · intro fetch taken
    obtain ⟨⟨unit, order⟩, rfl, rfl⟩ := Option.map_eq_some_iff.mp taken
    have sized := allocation.sized unit order rfl
    refine ⟨rfl, rfl, Nat.dvd_mul_left _ _, ?_, rfl⟩
    rw [sized]
    exact units_le_block _
  · cases block with
    | none =>
      have same : update held holder none = held := update_eq_self_iff.mpr idle.symm
      simpa [allocated, same] using consistent
    | some pair =>
      obtain ⟨unit, order⟩ := pair
      simpa [allocated, Fetch.block, unit_of_offset] using consistent

/-- Entries that stay resident kept their stamps. -/
theorem Demoted.stamps {strict strict' : Prop} {resident' recycled' : List Nat}
    {held' : Holder → Option Block} (demoted : Demoted dir middle)
    (inv : Consistent g contents strict dir held resident recycled)
    (inv' : Consistent g contents strict' middle held' resident' recycled') :
    ∀ slot ∈ resident', slot ∈ resident ∧
      (middle.entry slot).lastAccess = (dir.entry slot).lastAccess := by
  intro slot inside
  have holds := (inv'.residency slot).mp inside
  rcases demoted.entry slot with same | ⟨allowed, same⟩
  · rw [same] at holds
    exact ⟨(inv.residency slot).mpr holds, by rw [same]⟩
  · rw [same] at holds
    simp [DirEntry.resident] at holds

/-- A demotion assigns no key. -/
theorem Demoted.keyAt (demoted : Demoted dir middle) (slot : Nat) :
    Directory.keyAt middle slot = Directory.keyAt dir slot := by
  simp only [Directory.keyAt, keyOf, demoted.valid slot, demoted.key slot]

/-! ## One operation -/

namespace Lives

/-- What PUT prepare does to the directory of a life. -/
theorem prepares (lives : Lives g contents life resident recycled) {client : Nat} {bind : Bool}
    {key : Key} {totalLen : Nat} (idle : life.idle = true)
    (binds : bind = true → mayBind (life.lease client) totalLen = true) :
    Prepares g contents life.Unwrapped life.dir life.held .reservation
      (.lease client) ⟨bind, key, totalLen, life.lease client⟩
      (putPrepare g policy life.previousOrder ⟨bind, key, totalLen, life.lease client⟩ life.dir).1
      (putPrepare g policy life.previousOrder ⟨bind, key, totalLen, life.lease client⟩
        life.dir).2.1 := by
  obtain ⟨noGrant, notServing⟩ : life.granted = none ∧ life.serving = none := by
    simpa [Life.idle] using idle
  apply lives.consistent.prepare
  · rw [lives.reserved, noGrant]
    rfl
  · simp
  · rfl
  · simp [Life.held, noGrant]
  · intro isBind
    have allowed := binds isBind
    cases isLease : life.lease client with
    | none => simp [mayBind, isLease] at allowed
    | some lease =>
      refine ⟨lease, rfl, lives.leases client lease isLease, ?_⟩
      simpa [mayBind, isLease] using allowed

/-- After PUT prepare.

Proof: the blocks of the response are the blocks held. A refusal leaves the lease as it
was or takes it back; a grant comes with a block of the needed order. -/
theorem prepare (lives : Lives g contents life resident recycled) {client : Nat} {bind : Bool}
    {key : Key} {totalLen : Nat} (idle : life.idle = true) (fits : totalLen ≤ g.maxValueBytes)
    (binds : bind = true → mayBind (life.lease client) totalLen = true) :
    ∃ resident' recycled',
      Lives g contents (life.prepare g policy client bind key totalLen) resident' recycled' := by
  obtain ⟨noGrant, notServing⟩ : life.granted = none ∧ life.serving = none := by
    simpa [Life.idle] using idle
  have prepares : Prepares g contents life.Unwrapped life.dir life.held .reservation
      (.lease client) ⟨bind, key, totalLen, life.lease client⟩
      (putPrepare g policy life.previousOrder ⟨bind, key, totalLen, life.lease client⟩ life.dir).1
      (putPrepare g policy life.previousOrder ⟨bind, key, totalLen, life.lease client⟩
        life.dir).2.1 := lives.prepares idle binds
  obtain ⟨resident', recycled', consistent⟩ := prepares.consistent
  have sameEpoch : (life.prepare g policy client bind key totalLen).dir.epoch = life.dir.epoch := by
    rcases prepares.effect with ⟨same, _⟩ | ⟨slot, displaced, _⟩
    · exact congrArg State.epoch same
    · exact displaced.epoch
  refine ⟨resident', recycled', ?_, ?_, ?_, ?_, ?_, ?_, ?_⟩
  · rw [held_prepare]
    exact consistent
  · exact sameEpoch.trans lives.epoch
  · intro other lease isLease
    by_cases same : other = client
    · subst same
      have isLease' : (putPrepare g policy life.previousOrder
          ⟨bind, key, totalLen, life.lease other⟩ life.dir).2.1.lease = some lease := by
        simpa [Life.prepare] using isLease
      by_cases granted : (putPrepare g policy life.previousOrder
          ⟨bind, key, totalLen, life.lease other⟩ life.dir).2.1.grant = none
      · rcases prepares.effect with ⟨_, response⟩ | ⟨slot, _, ⟨grant, granted', _⟩ | response⟩
        · rw [response] at isLease'
          exact lives.leases other lease isLease'
        · exact nomatch granted.symm.trans granted'
        · rw [response] at isLease'
          exact nomatch isLease'
      · exact prepares.leased lease isLease' granted
    · have kept : life.lease other = some lease := by
        simpa [Life.prepare, same] using isLease
      exact lives.leases other lease kept
  · have reserved := prepares.reserved
    rw [Life.prepare]
    simp only [Option.map_map]
    exact reserved
  · intro granted isGranted
    have isGranted' : (putPrepare g policy life.previousOrder
        ⟨bind, key, totalLen, life.lease client⟩ life.dir).2.1.grant.map
          (fun grant => (⟨grant, key, totalLen⟩ : Granted)) = some granted := isGranted
    obtain ⟨grant, isGrant, rfl⟩ := Option.map_eq_some_iff.mp isGranted'
    obtain ⟨_, _, _, sized, aligned⟩ := prepares.granted grant isGrant
    refine ⟨fits, sized, aligned, fun other holds => ?_⟩
    rcases prepares.effect with ⟨_, response⟩ | ⟨slot, displaced, _⟩
    · rw [response] at isGrant
      exact nomatch isGrant
    · have here : keyAt (putPrepare g policy life.previousOrder
          ⟨bind, key, totalLen, life.lease client⟩ life.dir).1 other = some key := holds
      unfold keyAt keyOf at here
      split at here
      · next valid => exact displaced.absent other valid (Option.some.inj here)
      · exact nomatch here
  · exact fun fetch isFetch => lives.fetches fetch isFetch
  · intro fetch isFetch
    exact nomatch notServing.symm.trans isFetch

/-- After PUT publish. -/
theorem publish (lives : Lives g contents life resident recycled) {token : Nat} {streamed : Bool}
    {granted : Granted} (notServing : life.serving = none) (isGranted : life.granted = some granted)
    (published : putPublish g streamed (granted.request token) life.dir = some dir) :
    Lives g contents { life with dir := dir, granted := none, accesses := life.accesses + 1 }
      (granted.grant.dirSlot :: resident) recycled := by
  obtain ⟨fits, sized, aligned, fresh⟩ := lives.prepared granted isGranted
  have publishes := putPublish_some published
  have holds : life.held .reservation =
      some ⟨granted.grant.valueByteOff / maxChunkValueBytes, granted.grant.blockOrder⟩ := by
    simp [Life.held, isGranted, PutGrant.block]
  have consistent := (lives.consistent.weaken unwrapped_before).publish publishes fresh fits holds
    aligned (by rw [Granted.request, sized]; exact units_le_block _)
    fun room => (lives.grows room).le
  refine ⟨?_, ?_, lives.leases, publishes.reservedSlot, fun _ impossible => (by cases impossible),
    lives.fetches, fun fetch isFetch => by cases notServing.symm.trans isFetch⟩
  · rw [held_granted]
    exact consistent
  · exact publishes.epoch.trans lives.epoch_next

/-- Marking a pending entry committed. -/
theorem commit (lives : Lives g contents life resident recycled) {slot hostGeneration : Nat}
    (notServing : life.serving = none) (pending : (life.dir.entry slot).pending = true) :
    Lives g contents { life with dir := commitEntry slot hostGeneration life.dir } resident
      recycled := by
  refine ⟨lives.consistent.commit pending hostGeneration, lives.epoch, lives.leases,
    lives.reserved, ?_, lives.fetches, fun fetch isFetch => nomatch notServing.symm.trans isFetch⟩
  intro granted isGranted
  obtain ⟨fits, sized, aligned, fresh⟩ := lives.prepared granted isGranted
  refine ⟨fits, sized, aligned, fun other => ?_⟩
  have same : keyAt (commitEntry slot hostGeneration life.dir) other = keyAt life.dir other := by
    by_cases here : other = slot
    · subst here
      simp [keyAt, keyOf, commitEntry]
    · simp [keyAt, keyOf, commitEntry, here]
  rw [same]
  exact fresh other

/-- The FIFO is no part of the invariant. -/
theorem pop (lives : Lives g contents life resident recycled) :
    Lives g contents { life with dir := popQueue life.dir } resident recycled :=
  ⟨{ lives.consistent with }, lives.epoch, lives.leases, lives.reserved, lives.prepared,
    lives.fetches, lives.stamped⟩

/-- After a GET of a device entry. -/
theorem hit (lives : Lives g contents life resident recycled) {slot : Nat}
    (idle : life.idle = true) (inside : slot ∈ resident) :
    Lives g contents
      { life with
        dir := recordDeviceHit slot (nextEpoch life.dir.epoch) (advanceEpoch life.dir)
        accesses := life.accesses + 1 } (slot :: resident.erase slot) recycled := by
  obtain ⟨noGrant, notServing⟩ : life.granted = none ∧ life.serving = none := by
    simpa [Life.idle] using idle
  have advanced := (lives.consistent.weaken unwrapped_before).advance
    fun room => (lives.grows room).le
  have stamped : Consistent g contents (life.accesses + 1 < 2 ^ 32)
      (recordDeviceHit slot (nextEpoch life.dir.epoch) (advanceEpoch life.dir)) life.held
      (slot :: resident.erase slot) recycled :=
    advanced.recordHit inside fun room => ⟨le_rfl, lives.stamps_below room⟩
  exact ⟨stamped, lives.epoch_next, lives.leases, lives.reserved,
    fun granted isGranted => (nomatch noGrant.symm.trans isGranted), lives.fetches,
    fun fetch isFetch => nomatch notServing.symm.trans isFetch⟩

end Lives

namespace Lives

theorem idle_iff (life : Life) :
    life.idle = true ↔ life.granted = none ∧ life.serving = none := by
  simp [Life.idle]

/-- A stamp leaves the epoch and the reserved slot alone. -/
theorem stampHost_frame (slot totalLen accessEpoch : Nat) (dir : State) :
    (persistHostGetAccessStampIfCurrent slot totalLen accessEpoch dir).epoch = dir.epoch ∧
      (persistHostGetAccessStampIfCurrent slot totalLen accessEpoch dir).reservedSlot =
        dir.reservedSlot := by
  unfold persistHostGetAccessStampIfCurrent
  split <;> exact ⟨rfl, rfl⟩

/-- After a GET found a host entry.

Proof: the advanced epoch is above every stamp. What stays resident through the evictions
kept its stamp. -/
theorem serve (lives : Lives g contents life resident recycled) (slot : Nat)
    (idle : life.idle = true) :
    ∃ resident', Lives g contents (life.serve g slot) resident' recycled := by
  obtain ⟨noGrant, notServing⟩ := (idle_iff life).mp idle
  have advanced := (lives.consistent.weaken unwrapped_before).advance
    fun room => (lives.grows room).le
  obtain ⟨demoted, taken, resident', consistent⟩ := fetchBlock_spec advanced
    .serving (by simp [Life.held, notServing]) slot (nextEpoch life.dir.epoch)
  have stamps := demoted.stamps advanced consistent
  unfold Life.serve
  dsimp only
  cases block : (fetchBlock g slot (advanceEpoch life.dir).epoch (advanceEpoch life.dir)).2 with
  | none =>
    have none' : (fetchBlock g slot (nextEpoch life.dir.epoch) (advanceEpoch life.dir)).2 = none :=
      block
    rw [none'] at consistent
    have stamped : Consistent g contents (life.accesses + 1 < 2 ^ 32)
        (persistHostGetAccessStampIfCurrent slot (life.dir.entry slot).totalValueLen
          (nextEpoch life.dir.epoch)
          (fetchBlock g slot (nextEpoch life.dir.epoch) (advanceEpoch life.dir)).1)
        (update life.held .serving none) resident' recycled := consistent.stampHost _ _
    refine ⟨resident', ?_, ?_, lives.leases, ?_, ?_, ?_, fun fetch impossible => nomatch impossible⟩
    · rw [held_serving]
      exact stamped
    · exact ((stampHost_frame _ _ _ _).1.trans demoted.epoch).trans lives.epoch_next
    · exact ((stampHost_frame _ _ _ _).2.trans demoted.reservedSlot).trans lives.reserved
    · exact fun granted isGranted => nomatch noGrant.symm.trans isGranted
    · rintro fetch (impossible | isFetch)
      · exact nomatch impossible
      · exact lives.fetches fetch (Or.inr isFetch)
  | some fetch =>
    have some' : (fetchBlock g slot (nextEpoch life.dir.epoch) (advanceEpoch life.dir)).2 =
        some fetch := block
    obtain ⟨_, _, aligned, covers, isStamp⟩ := taken fetch some'
    rw [some'] at consistent
    refine ⟨resident', ?_, demoted.epoch.trans lives.epoch_next, lives.leases,
      demoted.reservedSlot.trans lives.reserved,
      fun granted isGranted => (nomatch noGrant.symm.trans isGranted), ?_, ?_⟩
    · rw [held_serving]
      exact consistent
    · rintro other (isServing | isPromoting)
      · obtain rfl := Option.some.inj isServing
        exact ⟨aligned, covers⟩
      · exact lives.fetches other (Or.inr isPromoting)
    · intro other isServing room
      obtain rfl := Option.some.inj isServing
      rw [isStamp]
      refine ⟨demoted.epoch.ge, fun entry inside => ?_⟩
      obtain ⟨before, same⟩ := stamps entry inside
      exact same.trans_lt (lives.stamps_below room entry before)

/-- What an admission of a host entry that is still there leaves alone. -/
theorem commitHostGetAdmission_frame {slot totalLen : Nat} (valueByteOff order accessEpoch : Nat)
    (found : hostEntryIs dir slot totalLen = true) :
    (commitHostGetAdmission slot valueByteOff totalLen order accessEpoch dir).2 = true ∧
      (commitHostGetAdmission slot valueByteOff totalLen order accessEpoch dir).1.epoch =
        dir.epoch ∧
      (commitHostGetAdmission slot valueByteOff totalLen order accessEpoch dir).1.reservedSlot =
        dir.reservedSlot ∧
      ∀ other, keyAt (commitHostGetAdmission slot valueByteOff totalLen order accessEpoch dir).1
        other = keyAt dir other := by
  rw [commitHostGetAdmission, if_pos found]
  refine ⟨rfl, rfl, rfl, fun other => ?_⟩
  by_cases here : other = slot
  · subst here
    simp [keyAt, keyOf]
  · simp [keyAt, keyOf, here]

/-- After the value of a host GET arrived. -/
theorem finishServe (lives : Lives g contents life resident recycled) {fetch : Fetch}
    (isServing : life.serving = some fetch) :
    ∃ resident', Lives g contents (life.finishServe g fetch) resident' recycled := by
  obtain ⟨aligned, covers⟩ := lives.fetches fetch (Or.inl isServing)
  have owns : life.held .serving =
      some ⟨fetch.valueByteOff / maxChunkValueBytes, fetch.order⟩ := by
    simp [Life.held, isServing, Fetch.block]
  have later : ∀ other : Fetch, (none : Option Fetch) = some other ∨ life.promoting = some other →
      maxChunkValueBytes ∣ other.valueByteOff ∧ chunkCountFor other.totalLen ≤ 2 ^ other.order := by
    rintro other (impossible | isPromoting)
    · cases impossible
    · exact lives.fetches other (Or.inr isPromoting)
  unfold Life.finishServe
  by_cases found : hostEntryIs life.dir fetch.slot fetch.totalLen = true
  · have admitted := lives.consistent.admission found owns aligned covers
      (lives.stamped fetch isServing)
    obtain ⟨committed, epoch, reserved, keys⟩ := commitHostGetAdmission_frame
      fetch.valueByteOff fetch.order fetch.accessEpoch found
    dsimp only
    rw [if_pos committed]
    refine ⟨fetch.slot :: resident, ?_, ?_, lives.leases, ?_, ?_, later,
      fun other impossible => by cases impossible⟩
    · rw [held_serving]
      exact admitted
    · exact epoch.trans lives.epoch
    · exact reserved.trans lives.reserved
    · intro granted isGranted
      obtain ⟨fits, sized, offset, fresh⟩ := lives.prepared granted isGranted
      exact ⟨fits, sized, offset, fun other holds => fresh other ((keys other).symm.trans holds)⟩
  · have freed := lives.consistent.freeBlock fetch.valueByteOff fetch.order owns
    have refused : commitHostGetAdmission fetch.slot fetch.valueByteOff fetch.totalLen
        fetch.order fetch.accessEpoch life.dir = (life.dir, false) := by
      simp [commitHostGetAdmission, found]
    rw [refused]
    dsimp only
    refine ⟨resident, ?_, lives.epoch, lives.leases, lives.reserved, lives.prepared, later,
      fun other impossible => by cases impossible⟩
    rw [held_serving]
    exact freed

/-- Taking a block to promote a host entry. -/
theorem promote (lives : Lives g contents life resident recycled) (slot : Nat)
    (idle : life.idle = true) (notPromoting : life.promoting = none) :
    ∃ resident', Lives g contents
      { life with
        dir := (fetchBlock g slot 0 life.dir).1
        promoting := (fetchBlock g slot 0 life.dir).2 } resident' recycled := by
  obtain ⟨noGrant, notServing⟩ := (idle_iff life).mp idle
  obtain ⟨demoted, taken, resident', consistent⟩ := fetchBlock_spec lives.consistent
    .promoting (by simp [Life.held, notPromoting]) slot 0
  refine ⟨resident', ?_, demoted.epoch.trans lives.epoch, lives.leases,
    demoted.reservedSlot.trans lives.reserved,
    fun granted isGranted => (nomatch noGrant.symm.trans isGranted), ?_,
    fun fetch isServing => nomatch notServing.symm.trans isServing⟩
  · rw [held_promoting]
    exact consistent
  · rintro fetch (isServing | isFetch)
    · exact nomatch notServing.symm.trans isServing
    · obtain ⟨_, _, aligned, covers, _⟩ := taken fetch isFetch
      exact ⟨aligned, covers⟩

/-- After the value of a promotion arrived. -/
theorem finishPromote (lives : Lives g contents life resident recycled) {fetch : Fetch}
    (notServing : life.serving = none) (isPromoting : life.promoting = some fetch) :
    ∃ resident', Lives g contents (life.finishPromote g fetch) resident' recycled := by
  obtain ⟨aligned, covers⟩ := lives.fetches fetch (Or.inr isPromoting)
  have owns : life.held .promoting =
      some ⟨fetch.valueByteOff / maxChunkValueBytes, fetch.order⟩ := by
    simp [Life.held, isPromoting, Fetch.block]
  have later : ∀ other : Fetch, life.serving = some other ∨ (none : Option Fetch) = some other →
      maxChunkValueBytes ∣ other.valueByteOff ∧ chunkCountFor other.totalLen ≤ 2 ^ other.order := by
    rintro other (isServing | impossible)
    · exact nomatch notServing.symm.trans isServing
    · exact nomatch impossible
  have unstamped : ∀ other : Fetch, life.serving ≠ some other :=
    fun other isServing => nomatch notServing.symm.trans isServing
  unfold Life.finishPromote finishPromotion
  by_cases found : hostEntryIs life.dir fetch.slot fetch.totalLen = true
  · rw [if_pos found, if_pos found]
    have foundNext : hostEntryIs (advanceEpoch life.dir) fetch.slot fetch.totalLen = true := found
    obtain ⟨_, epoch, reserved, keys⟩ := commitHostGetAdmission_frame
      fetch.valueByteOff fetch.order (nextEpoch life.dir.epoch) foundNext
    have advanced := (lives.consistent.weaken unwrapped_before).advance
      fun room => (lives.grows room).le
    have admitted : Consistent g contents (life.accesses + 1 < 2 ^ 32)
        (commitHostGetAdmission fetch.slot fetch.valueByteOff fetch.totalLen fetch.order
          (nextEpoch life.dir.epoch) (advanceEpoch life.dir)).1
        (update life.held .promoting none) (fetch.slot :: resident) recycled :=
      advanced.admission foundNext owns aligned covers
        fun room => ⟨le_rfl, lives.stamps_below room⟩
    refine ⟨fetch.slot :: resident, ?_, ?_, lives.leases, ?_, ?_, later, fun other isServing =>
      absurd isServing (unstamped other)⟩
    · rw [held_promoting]
      exact admitted
    · exact epoch.trans lives.epoch_next
    · exact reserved.trans lives.reserved
    · intro granted isGranted
      obtain ⟨fits, sized, offset, fresh⟩ := lives.prepared granted isGranted
      exact ⟨fits, sized, offset, fun other holds => fresh other ((keys other).symm.trans holds)⟩
  · rw [if_neg found, if_neg found]
    have freed := lives.consistent.freeBlock fetch.valueByteOff fetch.order owns
    refine ⟨resident, ?_, lives.epoch, lives.leases, lives.reserved, lives.prepared, later,
      fun other isServing => absurd isServing (unstamped other)⟩
    rw [held_promoting]
    exact freed

/-- After a committed entry lost its block. -/
theorem moveToHost (lives : Lives g contents life resident recycled) {slot : Nat}
    (idle : life.idle = true) (evicted : evictCachedBlock g slot life.dir = some dir) :
    Lives g contents { life with dir := dir } (resident.erase slot) recycled := by
  obtain ⟨noGrant, notServing⟩ := (idle_iff life).mp idle
  have demoted := evictCachedBlock_demoted evicted
  exact ⟨lives.consistent.evict evicted, demoted.epoch.trans lives.epoch, lives.leases,
    demoted.reservedSlot.trans lives.reserved,
    fun granted isGranted => (nomatch noGrant.symm.trans isGranted), lives.fetches,
    fun fetch isServing => nomatch notServing.symm.trans isServing⟩

/-- After REMOVE of a found key. -/
theorem remove (lives : Lives g contents life resident recycled) {slot : Nat}
    (idle : life.idle = true) (valid : (life.dir.entry slot).valid = true) :
    Lives g contents { life with dir := removeEntry g slot life.dir } (resident.erase slot)
      (slot :: recycled) := by
  obtain ⟨noGrant, notServing⟩ := (idle_iff life).mp idle
  have unreserved : life.dir.reservedSlot = none := by
    rw [lives.reserved, noGrant]
    rfl
  obtain ⟨reserved, epoch, _⟩ := eraseEntry_frame g slot life.dir
  exact ⟨lives.consistent.remove unreserved valid, epoch.trans lives.epoch, lives.leases,
    reserved.trans lives.reserved,
    fun granted isGranted => (nomatch noGrant.symm.trans isGranted), lives.fetches,
    fun fetch isServing => nomatch notServing.symm.trans isServing⟩

theorem cold (g : Geometry) (contents : Nat → HeapBlock) :
    Lives g contents (coldLife g contents) [] [] := by
  have nothing : (coldLife g contents).held = fun _ => none := by
    funext holder
    cases holder <;> rfl
  refine ⟨?_, rfl, fun _ _ impossible => (nomatch impossible), rfl,
    fun _ impossible => (nomatch impossible), ?_, fun _ impossible => nomatch impossible⟩
  · rw [nothing]
    exact coldDirectory_consistent _
  · rintro fetch (impossible | impossible)
    · exact nomatch impossible
    · exact nomatch impossible

/-- One operation.

Proof: each operation is allowed by the facts of its guard, and has its lemma. -/
theorem step (lives : Lives g contents life resident recycled) {action : DirAction}
    {events : List Empty} (stepped : lifeStep g policy life action = some (after, events)) :
    ∃ resident' recycled', Lives g contents after resident' recycled' := by
  cases action with
  | prepare client bind key totalLen =>
    simp only [lifeStep, Option.ite_none_right_eq_some, Option.some.injEq, Prod.mk.injEq] at stepped
    obtain ⟨⟨idle, fits, binds⟩, rfl, -⟩ := stepped
    exact lives.prepare idle fits binds
  | publish token streamed =>
    simp only [lifeStep, Option.ite_none_right_eq_some, Option.bind_eq_some_iff,
      Option.map_eq_some_iff, Prod.mk.injEq] at stepped
    obtain ⟨notServing, granted, isGranted, dir, published, rfl, -⟩ := stepped
    exact ⟨_, _, lives.publish notServing isGranted published⟩
  | commitHead hostGeneration =>
    simp only [lifeStep, Option.ite_none_right_eq_some, Option.map_eq_some_iff,
      Prod.mk.injEq] at stepped
    obtain ⟨notServing, item, _, rfl, -⟩ := stepped
    by_cases fresh : freshItem life.dir item = true
    · rw [if_pos fresh]
      have pending : (life.dir.entry item.dirSlot).pending = true := by
        have both := (Bool.and_eq_true_iff.mp fresh).1
        exact both
      exact ⟨resident, recycled, (lives.commit notServing pending).pop⟩
    · rw [if_neg fresh]
      exact ⟨resident, recycled, lives.pop⟩
  | commitStreamed slot hostGeneration =>
    simp only [lifeStep, Option.ite_none_right_eq_some, Option.some.injEq, Prod.mk.injEq] at stepped
    obtain ⟨⟨notServing, valid, pending⟩, rfl, -⟩ := stepped
    exact ⟨resident, recycled, lives.commit notServing ((DirEntry.pending_iff _).mpr ⟨valid, pending⟩)⟩
  | hit key =>
    simp only [lifeStep, Option.ite_none_right_eq_some, Option.ite_none_left_eq_some,
      Option.bind_eq_some_iff, Option.some.injEq, Prod.mk.injEq] at stepped
    obtain ⟨idle, slot, found, onDevice, rfl, -⟩ := stepped
    have valid := ((lives.consistent.lookup_iff key).mp found).1
    have inside := (lives.consistent.residency slot).mpr
      ((DirEntry.resident_iff _).mpr ⟨valid, onDevice⟩)
    exact ⟨_, _, lives.hit idle inside⟩
  | serve key =>
    simp only [lifeStep, Option.ite_none_right_eq_some, Option.bind_eq_some_iff,
      Option.some.injEq, Prod.mk.injEq] at stepped
    obtain ⟨idle, slot, _, _, rfl, -⟩ := stepped
    obtain ⟨resident', served⟩ := lives.serve slot idle
    exact ⟨resident', recycled, served⟩
  | finishServe =>
    simp only [lifeStep, Option.map_eq_some_iff, Prod.mk.injEq] at stepped
    obtain ⟨fetch, isServing, rfl, -⟩ := stepped
    obtain ⟨resident', finished⟩ := lives.finishServe isServing
    exact ⟨resident', recycled, finished⟩
  | promote key =>
    simp only [lifeStep, Option.ite_none_right_eq_some, Option.bind_eq_some_iff,
      Option.some.injEq, Prod.mk.injEq] at stepped
    obtain ⟨⟨idle, notPromoting⟩, slot, _, _, rfl, -⟩ := stepped
    obtain ⟨resident', promoted⟩ := lives.promote slot idle notPromoting
    exact ⟨resident', recycled, promoted⟩
  | finishPromote =>
    simp only [lifeStep, Option.ite_none_right_eq_some, Option.map_eq_some_iff,
      Prod.mk.injEq] at stepped
    obtain ⟨notServing, fetch, isPromoting, rfl, -⟩ := stepped
    obtain ⟨resident', finished⟩ := lives.finishPromote notServing isPromoting
    exact ⟨resident', recycled, finished⟩
  | moveToHost key =>
    simp only [lifeStep, Option.ite_none_right_eq_some, Option.bind_eq_some_iff,
      Option.map_eq_some_iff, Prod.mk.injEq] at stepped
    obtain ⟨idle, slot, _, dir, evicted, rfl, -⟩ := stepped
    exact ⟨_, _, lives.moveToHost idle evicted⟩
  | remove key =>
    simp only [lifeStep, Option.ite_none_right_eq_some, Option.map_eq_some_iff,
      Prod.mk.injEq] at stepped
    obtain ⟨idle, slot, found, rfl, -⟩ := stepped
    exact ⟨_, _, lives.remove idle ((lives.consistent.lookup_iff key).mp found).1⟩

/-- Every life that is reached. -/
theorem reached (reach : LifeReached g policy contents life) :
    ∃ resident recycled, Lives g contents life resident recycled := by
  obtain ⟨trace, run⟩ := reach
  refine run.invariant (fun life => ∃ resident recycled, Lives g contents life resident recycled)
    ⟨[], [], cold g contents⟩ ?_
  rintro state events after ⟨resident, recycled, lives⟩ ⟨action, stepped⟩
  exact lives.step stepped

end Lives

end KvCache.Directory
