import KvCache.Directory.CatalogScan
import KvCache.Directory.Eviction

/-!
# PUTs that are not granted

A prepare is refused before it has a slot, or after the slot was cleared because no block was
found. NCRISC repeats a refused prepare until it is granted, and the queue of published PUTs
drains meanwhile.

A refusal that clears no valid entry changes nothing but what the cache may change by itself:
committed entries lose their blocks, and a lease that does not fit is returned. Two lives that
differ only so answer the repeated prepare alike. A refusal that clears a valid entry loses it.
-/

namespace KvCache.Directory

open AlignedBlock Buddy Function HashIndex Layout Residency

variable {g : Geometry} {policy : LeasePolicy} {contents : Nat → HeapBlock}
variable {life left middle right after : Life} {dir selected : State} {client slot : Nat}
variable {bind : Bool} {key : Key} {totalLen : Nat}

/-! ## What a refusal may give up -/

/-- The prepare reaches a valid entry that it clears: that of its key, or the oldest one of a full
catalog. Pending entries are not cleared. -/
def GivesUp (g : Geometry) (req : PutPrepareRequest) (dir : State) : Prop :=
  req.Checked g dir ∧
    ((∃ slot, (dir.entry slot).valid = true ∧ (dir.entry slot).key = req.key ∧
      (dir.entry slot).location ≠ .devicePendingHost) ∨
    (∀ slot, keyAt dir slot ≠ some req.key) ∧
      (∀ slot < g.maxKeys, (dir.entry slot).valid = true) ∧
      ∃ slot < g.maxKeys, (dir.entry slot).location ≠ .devicePendingHost)

/-- A key that is nowhere has no slot. -/
theorem keyAt_ne_iff : (∀ slot, keyAt dir slot ≠ some key) ↔
    ∀ slot, ¬ ((dir.entry slot).valid = true ∧ (dir.entry slot).key = key) := by
  refine forall_congr' fun slot => not_congr ?_
  simp [keyAt, keyOf]

/-- The selection of a slot that holds a valid entry leaves the directory as it was; the entry is
committed. -/
theorem selectSlot_valid {strict : Prop} {held : Holder → Option Block} {resident recycled : List Nat}
    (inv : Consistent g contents strict dir held resident recycled) (idle : dir.reservedSlot = none)
    (chosen : selectSlot g key dir = (selected, some slot)) (valid : (dir.entry slot).valid = true) :
    (dir.entry slot).location ≠ .devicePendingHost ∧
      ((dir.entry slot).key = key ∨ (∀ other, keyAt dir other ≠ some key) ∧
        ∀ other < g.maxKeys, (dir.entry other).valid = true) := by
  have displaces := (inv.select idle chosen).1
  obtain ⟨committed, origin⟩ := displaces.allowed valid
  refine ⟨committed, ?_⟩
  by_cases same : (dir.entry slot).key = key
  · exact Or.inl same
  · have full := origin.resolve_left same
    refine Or.inr ⟨?_, full⟩
    rw [keyAt_ne_iff]
    rintro other ⟨otherValid, hasKey⟩
    have found := (inv.lookup_iff key).mpr ⟨otherValid, hasKey⟩
    unfold selectSlot at chosen
    rw [found] at chosen
    dsimp only at chosen
    split at chosen
    · exact nomatch (Prod.mk.inj chosen).2
    · obtain rfl := Option.some.inj (Prod.mk.inj chosen).2
      exact same hasKey

/-- A prepare gives up an entry exactly if it passes its checks and selects a slot with a valid
entry. -/
theorem givesUp_iff {strict : Prop} {held : Holder → Option Block} {resident recycled : List Nat}
    (inv : Consistent g contents strict dir held resident recycled) (idle : dir.reservedSlot = none)
    (req : PutPrepareRequest) :
    GivesUp g req dir ↔ req.Checked g dir ∧ ∃ selected slot,
      selectSlot g req.key dir = (selected, some slot) ∧ (dir.entry slot).valid = true := by
  refine and_congr_right fun _ => ⟨?_, ?_⟩
  · rintro (⟨slot, valid, hasKey, committed⟩ | ⟨fresh, full, slot, below, committed⟩)
    · refine ⟨dir, slot, ?_, valid⟩
      rw [selectSlot, (inv.lookup_iff req.key).mpr ⟨valid, hasKey⟩]
      exact if_neg committed
    · have selection := selectSlot_full inv idle full fresh
      cases chosen : oldestCommitted g dir with
      | none =>
        have pinned := oldestCommitted_none chosen slot below
        simp [replaceable, full slot below, committed] at pinned
      | some oldest =>
        refine ⟨dir, oldest, selection.trans (by rw [chosen]), ?_⟩
        exact full oldest (oldestCommitted_some chosen).1
  · rintro ⟨selected, slot, chosen, valid⟩
    obtain ⟨committed, origin⟩ := selectSlot_valid inv idle chosen valid
    rcases origin with hasKey | ⟨fresh, full⟩
    · exact Or.inl ⟨slot, valid, hasKey, committed⟩
    · exact Or.inr ⟨fresh, full, slot, inv.valid_lt valid, committed⟩

/-! ## Entries and lives up to residency -/

/-- Two entries hold the same value; they may differ in the block of a value that has a host
copy. -/
structure SameValue (left right : DirEntry) : Prop where
  valid : right.valid = left.valid
  key : right.key = left.key
  totalValueLen : right.totalValueLen = left.totalValueLen
  lastAccess : right.lastAccess = left.lastAccess
  hostGeneration : right.hostGeneration = left.hostGeneration
  pending : right.pending = left.pending
  pinned : left.pending = true → right = left

namespace SameValue

theorem refl (entry : DirEntry) : SameValue entry entry :=
  ⟨rfl, rfl, rfl, rfl, rfl, rfl, fun _ => rfl⟩

theorem symm {left right : DirEntry} (same : SameValue left right) : SameValue right left :=
  ⟨same.valid.symm, same.key.symm, same.totalValueLen.symm, same.lastAccess.symm,
    same.hostGeneration.symm, same.pending.symm,
    fun pending => (same.pinned (same.pending ▸ pending)).symm⟩

theorem trans {left middle right : DirEntry} (first : SameValue left middle)
    (second : SameValue middle right) : SameValue left right :=
  ⟨second.valid.trans first.valid, second.key.trans first.key,
    second.totalValueLen.trans first.totalValueLen, second.lastAccess.trans first.lastAccess,
    second.hostGeneration.trans first.hostGeneration, second.pending.trans first.pending,
    fun pending => (second.pinned (first.pending.trans pending)).trans (first.pinned pending)⟩

/-- Invalidating both entries. -/
theorem clear {left right : DirEntry} (same : SameValue left right) :
    SameValue { left with valid := false } { right with valid := false } :=
  ⟨rfl, same.key, same.totalValueLen, same.lastAccess, same.hostGeneration,
    by simp [DirEntry.pending], fun impossible => nomatch impossible⟩

/-- Entries with the same value are pending together. -/
theorem location_iff {left right : DirEntry} (same : SameValue left right) (valid : left.valid = true) :
    right.location = .devicePendingHost ↔ left.location = .devicePendingHost := by
  have pending := same.pending
  simp only [DirEntry.pending, same.valid, valid, Bool.true_and] at pending
  have decided := congrArg (· = true) pending
  simpa using decided

end SameValue

/-- A demotion keeps the values. -/
theorem Demoted.sameValue {before after : State} (demoted : Demoted before after) (slot : Nat) :
    SameValue (before.entry slot) (after.entry slot) := by
  rcases demoted.entry slot with same | ⟨allowed, same⟩
  · rw [same]
    exact SameValue.refl _
  · have located : (before.entry slot).location = .device := by
      simpa using (Bool.and_eq_true_iff.mp allowed).2
    have settled := demoted.settled.pending slot
    refine ⟨by rw [same], by rw [same], by rw [same], by rw [same], by rw [same], settled, ?_⟩
    intro pending
    have isPending := ((DirEntry.pending_iff _).mp pending).2
    exact nomatch located.symm.trans isPending

/-- Two lives differ only in the blocks of committed entries and in a lease of the client that the
second one no longer has. -/
structure Alike (g : Geometry) (client : Nat) (left right : Life) : Prop where
  entry : ∀ slot, SameValue (left.dir.entry slot) (right.dir.entry slot)
  buckets : right.dir.buckets = left.dir.buckets
  freeSlot : (catalogClaimFreeSlot g.maxKeys right.dir.catalog).map Prod.fst =
    (catalogClaimFreeSlot g.maxKeys left.dir.catalog).map Prod.fst
  reservedSlot : right.dir.reservedSlot = left.dir.reservedSlot
  epoch : right.dir.epoch = left.dir.epoch
  queue : right.dir.putHostQueue = left.dir.putHostQueue
  pendingBytes : right.dir.pendingDeviceBytes = left.dir.pendingDeviceBytes
  lease : ∀ other, other ≠ client → right.lease other = left.lease other
  returned : right.lease client = left.lease client ∨ right.lease client = none
  previousOrder : right.previousOrder = left.previousOrder
  granted : right.granted = left.granted
  serving : right.serving = left.serving
  promoting : right.promoting = left.promoting
  accesses : right.accesses = left.accesses

namespace Alike

theorem refl (g : Geometry) (client : Nat) (life : Life) : Alike g client life life :=
  ⟨fun _ => SameValue.refl _, rfl, rfl, rfl, rfl, rfl, rfl, fun _ _ => rfl, Or.inl rfl, rfl, rfl, rfl,
    rfl, rfl⟩

theorem trans (first : Alike g client left middle) (second : Alike g client middle right) :
    Alike g client left right where
  entry slot := (first.entry slot).trans (second.entry slot)
  buckets := second.buckets.trans first.buckets
  freeSlot := second.freeSlot.trans first.freeSlot
  reservedSlot := second.reservedSlot.trans first.reservedSlot
  epoch := second.epoch.trans first.epoch
  queue := second.queue.trans first.queue
  pendingBytes := second.pendingBytes.trans first.pendingBytes
  lease other different := (second.lease other different).trans (first.lease other different)
  returned := by
    rcases second.returned with same | gone
    · rw [same]
      exact first.returned
    · exact Or.inr gone
  previousOrder := second.previousOrder.trans first.previousOrder
  granted := second.granted.trans first.granted
  serving := second.serving.trans first.serving
  promoting := second.promoting.trans first.promoting
  accesses := second.accesses.trans first.accesses

/-- Both lives are idle together. -/
theorem idle (alike : Alike g client left right) : right.idle = left.idle := by
  rw [Life.idle, Life.idle, alike.granted, alike.serving]

/-- A key has the same slot in both lives. -/
theorem lookup (alike : Alike g client left right) (key : Key) :
    dirLookup g key right.dir = dirLookup g key left.dir := by
  have confirm : confirmEntry right.dir key = confirmEntry left.dir key := by
    funext other
    rw [confirmEntry, confirmEntry, (alike.entry other).valid, (alike.entry other).key]
  rw [dirLookup, dirLookup, confirm, alike.buckets]

/-- The prepare passes the same checks in both lives. -/
theorem checked (alike : Alike g client left right) {lease lease' : Option Lease} :
    PutPrepareRequest.Checked g ⟨bind, key, totalLen, lease'⟩ right.dir ↔
      PutPrepareRequest.Checked g ⟨bind, key, totalLen, lease⟩ left.dir := by
  rw [PutPrepareRequest.Checked, PutPrepareRequest.Checked, pendingBlocksNextLease,
    pendingBlocksNextLease, alike.queue, alike.pendingBytes]

/-- The prepare selects the same slot in both lives. -/
theorem select (alike : Alike g client left right) {resident recycled : List Nat}
    (lives : Lives g contents left resident recycled) :
    (selectSlot g key right.dir).2 = (selectSlot g key left.dir).2 := by
  have free := alike.freeSlot
  have oldest : oldestCommitted g right.dir = oldestCommitted g left.dir := by
    have eligible : replaceable right.dir = replaceable left.dir := by
      funext other
      have same := alike.entry other
      have split : ∀ dir : State, replaceable dir other =
          ((dir.entry other).valid && !(dir.entry other).pending) := by
        intro dir
        rw [replaceable, DirEntry.pending]
        cases (dir.entry other).valid <;> simp [bne]
      rw [split, split, same.valid, same.pending]
    have ages : age right.dir = age left.dir := by
      funext other
      rw [age, age, alike.epoch, (alike.entry other).lastAccess]
    rw [oldestCommitted, oldestCommitted, considerOldest_eq, considerOldest_eq, eligible, ages]
  unfold selectSlot
  rw [alike.lookup]
  cases found : dirLookup g key left.dir with
  | some slot =>
    have valid := ((lives.consistent.lookup_iff key).mp found).1
    have located := (alike.entry slot).location_iff valid
    dsimp only
    by_cases pending : (left.dir.entry slot).location = .devicePendingHost
    · rw [if_pos pending, if_pos (located.mpr pending)]
    · rw [if_neg pending, if_neg fun other => pending (located.mp other)]
  | none =>
    dsimp only
    cases claimed : catalogClaimFreeSlot g.maxKeys left.dir.catalog <;>
      cases claimed' : catalogClaimFreeSlot g.maxKeys right.dir.catalog
    · exact oldest
    · simp [claimed, claimed'] at free
    · simp [claimed, claimed'] at free
    · simpa [claimed, claimed'] using free

/-- The head of the queue is consumed alike. -/
theorem commitHead (alike : Alike g client left right) {hostGeneration : Nat} {events : List Empty}
    (stepped : lifeStep g policy right (.commitHead hostGeneration) = some (after, events)) :
    ∃ before, lifeStep g policy left (.commitHead hostGeneration) = some (before, events) ∧
      Alike g client before after := by
  simp only [lifeStep, Option.ite_none_right_eq_some, Option.map_eq_some_iff,
    Prod.mk.injEq] at stepped
  obtain ⟨notServing, item, isHead, rfl, rfl⟩ := stepped
  have head : left.dir.putHostQueue.head? = some item := alike.queue ▸ isHead
  have same := alike.entry item.dirSlot
  have fresh : freshItem right.dir item = freshItem left.dir item := by
    change ((right.dir.entry item.dirSlot).pending && _) = ((left.dir.entry item.dirSlot).pending && _)
    rw [same.pending, same.hostGeneration]
  have taken : lifeStep g policy left (.commitHead hostGeneration) =
      some ({ left with
        dir := popQueue (if freshItem left.dir item then
          commitEntry item.dirSlot hostGeneration left.dir else left.dir) }, []) := by
    simp only [lifeStep, if_pos (alike.serving.symm.trans notServing), head, Option.map_some]
  refine ⟨_, taken, ?_⟩
  rw [fresh]
  by_cases isFresh : freshItem left.dir item = true
  · have pending : (left.dir.entry item.dirSlot).pending = true := (Bool.and_eq_true_iff.mp isFresh).1
    have pinned := same.pinned pending
    rw [if_pos isFresh, if_pos isFresh]
    refine ⟨fun slot => ?_, alike.buckets, alike.freeSlot, alike.reservedSlot, alike.epoch, ?_, ?_,
      alike.lease, alike.returned, alike.previousOrder, alike.granted, alike.serving, alike.promoting,
      alike.accesses⟩
    · by_cases here : slot = item.dirSlot
      · simp only [popQueue, commitEntry, here, update_self, pinned]
        exact SameValue.refl _
      · simp only [popQueue, commitEntry, update_of_ne here]
        exact alike.entry slot
    · simp only [popQueue, commitEntry, alike.queue]
    · simp only [popQueue, commitEntry, alike.pendingBytes, pinned]
  · rw [if_neg isFresh, if_neg isFresh]
    exact ⟨alike.entry, alike.buckets, alike.freeSlot, alike.reservedSlot, alike.epoch,
      by simp only [popQueue, alike.queue], alike.pendingBytes, alike.lease, alike.returned,
      alike.previousOrder, alike.granted, alike.serving, alike.promoting, alike.accesses⟩

end Alike

/-! ## The block of a repeated prepare -/

/-- What a reserved slot leaves of the entries. -/
theorem reserved_entry (chosen : selectSlot g key dir = (selected, some slot)) :
    (reserveSlot g slot selected).entry =
      update dir.entry slot { dir.entry slot with valid := false } := by
  have entries : selected.entry = dir.entry := by
    unfold selectSlot at chosen
    split at chosen
    · split at chosen
      · exact nomatch (Prod.mk.inj chosen).2
      · rw [(Prod.mk.inj chosen).1]
    · split at chosen
      · rw [← (Prod.mk.inj chosen).1]
      · rw [(Prod.mk.inj chosen).1]
  rw [reserveSlot_entry, entries]

/-- A prepare with a slot finds a block exactly if it binds its lease, or if some region is clear of
the pending entries and of what the others hold. -/
theorem Lives.takes_iff {resident recycled : List Nat} (lives : Lives g contents life resident recycled)
    (idle : life.idle = true) (binds : bind = true → mayBind (life.lease client) totalLen = true)
    (chosen : selectSlot g key life.dir = (selected, some slot)) :
    (∃ block, (takePutBlock g slot (chunkCountFor totalLen)
        ⟨bind, key, totalLen, life.lease client⟩ (reserveSlot g slot selected)).2 = some block) ↔
      bind = true ∨ Admitted g (chunkCountFor totalLen) ∧
        ∃ region, ClearRegion g (chunkCountFor totalLen)
          (update life.dir.entry slot { life.dir.entry slot with valid := false })
          (update life.held (.lease client) none) region := by
  have unreserved : life.dir.reservedSlot = none := by
    rw [lives.reserved, ((Lives.idle_iff life).mp idle).1]
    rfl
  obtain ⟨resident', recycled', reserved⟩ := (lives.consistent.select unreserved chosen).2
  have entries := reserved_entry chosen
  cases isBind : bind with
  | true =>
    have allowed := binds isBind
    cases isLease : life.lease client with
    | none => simp [isLease, mayBind] at allowed
    | some lease => simp [takePutBlock]
  | false =>
    cases isLease : life.lease client with
    | none =>
      have nothing : update life.held (.lease client) none = life.held :=
        update_eq_self_iff.mpr (by simp [Life.held, isLease])
      simp only [takePutBlock, Bool.false_eq_true, false_or, nothing, ← entries]
      exact reserved.allocates_iff (by simp)
    | some lease =>
      have owns : life.held (.lease client) = some lease.block := by simp [Life.held, isLease]
      have freed := reserved.freeBlock lease.valueByteOff lease.buddyOrder owns
      simp only [takePutBlock, Bool.false_eq_true, false_or, ← entries]
      exact freed.allocates_iff (by simp)

/-- What a grant promises besides the address of its block. -/
def Granted.promise (granted : Granted) : Nat × Nat × Key × Nat :=
  (granted.grant.dirSlot, granted.grant.blockOrder, granted.key, granted.totalLen)

/-- A prepare with a slot clears it, and grants it exactly if it finds a block. -/
theorem Lives.prepare_slot {resident recycled : List Nat}
    (lives : Lives g contents life resident recycled) (idle : life.idle = true)
    (binds : bind = true → mayBind (life.lease client) totalLen = true)
    (checked : PutPrepareRequest.Checked g ⟨bind, key, totalLen, life.lease client⟩ life.dir)
    (chosen : selectSlot g key life.dir = (selected, some slot)) :
    (∀ other, SameValue
      (update life.dir.entry slot { life.dir.entry slot with valid := false } other)
      ((life.prepare g policy client bind key totalLen).dir.entry other)) ∧
    (life.prepare g policy client bind key totalLen).granted.map Granted.promise =
      (takePutBlock g slot (chunkCountFor totalLen) ⟨bind, key, totalLen, life.lease client⟩
        (reserveSlot g slot selected)).2.map fun _ =>
          (slot, buddyOrderForUnits (chunkCountFor totalLen), key, totalLen) := by
  have prepares : Prepares g contents life.Unwrapped life.dir life.held .reservation
      (.lease client) ⟨bind, key, totalLen, life.lease client⟩
      (putPrepare g policy life.previousOrder ⟨bind, key, totalLen, life.lease client⟩ life.dir).1
      (putPrepare g policy life.previousOrder ⟨bind, key, totalLen, life.lease client⟩
        life.dir).2.1 := lives.prepares idle binds
  rw [← reserved_entry chosen]
  rcases @putPrepare_selected g life.dir selected slot policy life.previousOrder _ checked chosen with
    ⟨grant, isGrant, sameSlot, demoted, block, found⟩ | ⟨taken, refused, result⟩
  · refine ⟨demoted.sameValue, ?_⟩
    have sized := (prepares.granted grant isGrant).2.2.2.1
    rw [found, Life.prepare]
    dsimp only
    rw [isGrant]
    simp only [Option.map_some, Granted.promise, sameSlot, sized]
  · have demoted := takePutBlock_demoted g slot (chunkCountFor totalLen)
      ⟨bind, key, totalLen, life.lease client⟩ (reserveSlot g slot selected)
    rw [refused] at demoted
    rw [Life.prepare, result, refused]
    exact ⟨demoted.sameValue, rfl⟩

/-- Two lives end with the same values and the same promise to the client. -/
structure SameOutcome (left right : Life) : Prop where
  value : ∀ slot, SameValue (left.dir.entry slot) (right.dir.entry slot)
  promise : right.granted.map Granted.promise = left.granted.map Granted.promise

/-- Regions are clear of entries with the same values together. -/
theorem clearRegion_iff {units : Nat} {entryL entryR : Nat → DirEntry} {held : Holder → Option Block}
    {region : Block} (same : ∀ slot, SameValue (entryL slot) (entryR slot)) :
    ClearRegion g units entryL held region ↔ ClearRegion g units entryR held region := by
  have pinned : (∀ slot, (entryL slot).pending = true → (entryL slot).block.Apart region) ↔
      ∀ slot, (entryR slot).pending = true → (entryR slot).block.Apart region := by
    refine forall_congr' fun slot => ?_
    rw [(same slot).pending]
    refine imp_congr_right fun pending => ?_
    rw [(same slot).pinned pending]
  rw [ClearRegion, ClearRegion, pinned]

/-- The others hold the same blocks in both lives. -/
theorem Alike.held (alike : Alike g client left right) :
    update right.held (.lease client) none = update left.held (.lease client) none := by
  funext holder
  cases holder with
  | lease other =>
    by_cases same : other = client
    · rw [same, update_self, update_self]
    · simp [Life.held, same, alike.lease other same]
  | reservation => simp [Life.held, alike.granted]
  | serving => simp [Life.held, alike.serving]
  | promoting => simp [Life.held, alike.promoting]

/-- Lives that are alike answer a prepare alike.

Proof: the checks and the selection read only what is the same in both. A block is found exactly if
some region is clear of the pending entries and of what the others hold, and these are the same;
what was evicted or returned before may also be evicted or returned now. -/
theorem Alike.prepare (alike : Alike g client left right) {residentL recycledL residentR recycledR : List Nat}
    (livesL : Lives g contents left residentL recycledL)
    (livesR : Lives g contents right residentR recycledR) (idle : left.idle = true)
    (bindsL : bind = true → mayBind (left.lease client) totalLen = true)
    (bindsR : bind = true → mayBind (right.lease client) totalLen = true) :
    SameOutcome (left.prepare g policy client bind key totalLen)
      (right.prepare g policy client bind key totalLen) := by
  have idleR : right.idle = true := alike.idle.trans idle
  have selection : (selectSlot g key right.dir).2 = (selectSlot g key left.dir).2 := alike.select livesL
  have unchanged : (PutPrepareRequest.Checked g ⟨bind, key, totalLen, left.lease client⟩ left.dir →
      (selectSlot g key left.dir).2 = none) →
      SameOutcome (left.prepare g policy client bind key totalLen)
        (right.prepare g policy client bind key totalLen) := by
    intro missed
    rw [Life.prepare_unselected idle missed, Life.prepare_unselected idleR fun checked =>
      selection.trans (missed (alike.checked.mp checked))]
    exact ⟨alike.entry, by rw [alike.granted]⟩
  by_cases checked : PutPrepareRequest.Checked g ⟨bind, key, totalLen, left.lease client⟩ left.dir
  · cases chosen : (selectSlot g key left.dir).2 with
    | none => exact unchanged fun _ => chosen
    | some slot =>
      have chosenL : selectSlot g key left.dir = ((selectSlot g key left.dir).1, some slot) := by
        rw [← chosen]
      have chosenR : selectSlot g key right.dir = ((selectSlot g key right.dir).1, some slot) := by
        rw [← chosen, ← selection]
      obtain ⟨valuesL, promiseL⟩ := @Lives.prepare_slot g policy contents left _ client slot bind key
        totalLen _ _ livesL idle bindsL checked chosenL
      obtain ⟨valuesR, promiseR⟩ := @Lives.prepare_slot g policy contents right _ client slot bind key
        totalLen _ _ livesR idleR bindsR (alike.checked.mpr checked) chosenR
      have cleared : ∀ other, SameValue
          (update left.dir.entry slot { left.dir.entry slot with valid := false } other)
          (update right.dir.entry slot { right.dir.entry slot with valid := false } other) := by
        intro other
        by_cases here : other = slot
        · rw [here, update_self, update_self]
          exact (alike.entry slot).clear
        · rw [update_of_ne here, update_of_ne here]
          exact alike.entry other
      refine ⟨fun other => ((valuesL other).symm.trans (cleared other)).trans (valuesR other), ?_⟩
      have takes := (livesR.takes_iff idleR bindsR chosenR).trans
        (Iff.trans ?_ (livesL.takes_iff idle bindsL chosenL).symm)
      · rw [promiseL, promiseR]
        cases foundL : (takePutBlock g slot (chunkCountFor totalLen)
            ⟨bind, key, totalLen, left.lease client⟩
            (reserveSlot g slot (selectSlot g key left.dir).1)).2 <;>
          cases foundR : (takePutBlock g slot (chunkCountFor totalLen)
            ⟨bind, key, totalLen, right.lease client⟩
            (reserveSlot g slot (selectSlot g key right.dir).1)).2 <;>
          simp [foundL, foundR] at takes ⊢
      · have holders : update right.held (.lease client) none = update left.held (.lease client) none :=
          alike.held
        rw [holders]
        refine or_congr_right (and_congr_right fun _ => exists_congr fun region => ?_)
        exact (clearRegion_iff cleared).symm
  · exact unchanged fun isChecked => absurd isChecked checked

/-! ## A refusal that gives up nothing -/

/-- What a refusal leaves behind: the life as it was, or the selected slot returned after the
committed entries lost their blocks and the lease went back. -/
inductive Refusal (g : Geometry) (client : Nat) (key : Key) (life after : Life) : Prop where
  | unchanged (same : after = life)
  | returned {selected taken : State} {slot : Nat} (chosen : selectSlot g key life.dir = (selected, some slot))
      (demoted : Demoted (reserveSlot g slot selected) taken)
      (result : after = { life with
        dir := releaseSlot slot taken
        lease := update life.lease client none })

/-- Every refusal is of one of the two kinds. -/
theorem Life.refusal (idle : life.idle = true)
    (refused : (life.prepare g policy client bind key totalLen).granted = none) :
    Refusal g client key life (life.prepare g policy client bind key totalLen) := by
  have noGrant := ((Lives.idle_iff life).mp idle).1
  by_cases checked : PutPrepareRequest.Checked g ⟨bind, key, totalLen, life.lease client⟩ life.dir
  · cases chosen : (selectSlot g key life.dir).2 with
    | none => exact .unchanged (Life.prepare_unselected idle fun _ => chosen)
    | some slot =>
      have selection : selectSlot g key life.dir = ((selectSlot g key life.dir).1, some slot) := by
        rw [← chosen]
      rcases @putPrepare_selected g life.dir _ slot policy life.previousOrder _ checked selection with
        ⟨grant, isGrant, -, -, -⟩ | ⟨taken, found, result⟩
      · rw [Life.prepare] at refused
        dsimp only at refused
        rw [isGrant] at refused
        cases refused
      · have demoted := takePutBlock_demoted g slot (chunkCountFor totalLen)
          ⟨bind, key, totalLen, life.lease client⟩ (reserveSlot g slot (selectSlot g key life.dir).1)
        rw [found] at demoted
        refine .returned selection demoted ?_
        rw [Life.prepare, result]
        simp only [Option.map_none, ← noGrant]
  · exact .unchanged (Life.prepare_unselected idle fun isChecked => absurd isChecked checked)

/-- A refusal that cleared no valid entry leaves a life that is alike.

Proof: the slot was a free one. It is returned to the head of the free list, from where it is
claimed again. -/
theorem Refusal.alike {resident recycled : List Nat} (lives : Lives g contents life resident recycled)
    (idle : life.idle = true) (refusal : Refusal g client key life after)
    (spared : ∀ selected slot, selectSlot g key life.dir = (selected, some slot) →
      after ≠ life → (life.dir.entry slot).valid = false) : Alike g client life after := by
  by_cases same : after = life
  · rw [same]
    exact Alike.refl g client life
  · cases refusal with
    | unchanged isSame => exact absurd isSame same
    | @returned selected taken slot chosen demoted result =>
      have invalid := spared selected slot chosen same
      have unreserved : life.dir.reservedSlot = none := by
        rw [lives.reserved, ((Lives.idle_iff life).mp idle).1]
        rfl
      obtain ⟨catalog, claimed, rfl⟩ : ∃ catalog,
          catalogClaimFreeSlot g.maxKeys life.dir.catalog = some (slot, catalog) ∧
            selected = { life.dir with catalog := catalog } := by
        unfold selectSlot at chosen
        split at chosen
        · next found looked =>
          have valid := ((lives.consistent.lookup_iff key).mp looked).1
          split at chosen
          · exact nomatch (Prod.mk.inj chosen).2
          · obtain rfl := Option.some.inj (Prod.mk.inj chosen).2
            exact nomatch invalid.symm.trans valid
        · split at chosen
          · next claimedSlot catalog found =>
            obtain ⟨rfl, same⟩ := Prod.mk.inj chosen
            obtain rfl := Option.some.inj same
            exact ⟨catalog, found, rfl⟩
          · have eligible := (oldestCommitted_some (Prod.mk.inj chosen).2).2.1
            simp [replaceable, invalid] at eligible
      have reserved : reserveSlot g slot { life.dir with catalog := catalog } =
          { life.dir with catalog := catalog, reservedSlot := some slot } := by
        rw [reserveSlot, if_neg (by simp [invalid])]
      rw [reserved] at demoted
      subst result
      refine ⟨demoted.sameValue, demoted.buckets, ?_, unreserved.symm, demoted.epoch,
        demoted.putHostQueue, demoted.pendingDeviceBytes, ?_, ?_, rfl, rfl, rfl, rfl, rfl⟩
      · rw [claimed]
        rfl
      · exact fun other different => update_of_ne different ..
      · exact Or.inr (update_self ..)

/-- A refusal that gives up nothing cleared no valid entry. -/
theorem spares {resident recycled : List Nat} (lives : Lives g contents life resident recycled)
    (idle : life.idle = true)
    (spared : ¬ GivesUp g ⟨bind, key, totalLen, life.lease client⟩ life.dir) (selected : State)
    (slot : Nat) (chosen : selectSlot g key life.dir = (selected, some slot))
    (changed : life.prepare g policy client bind key totalLen ≠ life) :
    (life.dir.entry slot).valid = false := by
  have unreserved : life.dir.reservedSlot = none := by
    rw [lives.reserved, ((Lives.idle_iff life).mp idle).1]
    rfl
  by_contra valid
  apply spared
  apply (givesUp_iff lives.consistent unreserved _).mpr
  refine ⟨?_, selected, slot, chosen, by simpa using valid⟩
  by_contra unchecked
  exact changed (Life.prepare_unselected idle fun checked => absurd checked unchecked)

/-- What a value is, given the contents of the value heap by offset and of the host store by slot:
the host copy is the authoritative one as soon as it is complete. -/
def storedValue (device host : Nat → List UInt8) (dir : State) (slot : Nat) :
    Option (Key × Nat × List UInt8) :=
  if (dir.entry slot).valid then
    some ((dir.entry slot).key, (dir.entry slot).totalValueLen,
      if (dir.entry slot).location = .devicePendingHost then device (dir.entry slot).valueByteOff
      else host slot)
  else none

/-- The host copy that an entry names. -/
def hostBacking (dir : State) (slot : Nat) : Option Nat :=
  if (dir.entry slot).valid = true ∧ (dir.entry slot).location ≠ .devicePendingHost then
    some (dir.entry slot).hostGeneration
  else none

/-- Further attempts of the same prepare after a refusal: the queue drains, and attempts that give
up nothing are refused. The generations are those of the drained heads. -/
inductive Retried (g : Geometry) (policy : LeasePolicy) (client : Nat) (bind : Bool) (key : Key)
    (totalLen : Nat) (first : Life) : List Nat → Life → Prop where
  | start : Retried g policy client bind key totalLen first [] first
  | drain {generations : List Nat} {middle after : Life} {hostGeneration : Nat}
      (earlier : Retried g policy client bind key totalLen first generations middle)
      (drained : lifeStep g policy middle (.commitHead hostGeneration) = some (after, [])) :
      Retried g policy client bind key totalLen first (generations ++ [hostGeneration]) after
  | refuse {generations : List Nat} {middle : Life}
      (earlier : Retried g policy client bind key totalLen first generations middle)
      (refused : (middle.prepare g policy client bind key totalLen).granted = none)
      (spared : ¬ GivesUp g ⟨bind, key, totalLen, middle.lease client⟩ middle.dir) :
      Retried g policy client bind key totalLen first generations
        (middle.prepare g policy client bind key totalLen)

/-- The refused prepare lost nothing. -/
structure LosesNothing (g : Geometry) (policy : LeasePolicy) (life : Life) (client : Nat) (bind : Bool)
    (key : Key) (totalLen : Nat) (after : Life) : Prop where
  values : ∀ device host, storedValue device host after.dir = storedValue device host life.dir
  backing : hostBacking after.dir = hostBacking life.dir
  lease : match after.lease client with
    | some lease => life.lease client = some lease ∧ after.dir.heap = life.dir.heap
    | none => ∀ lease, life.lease client = some lease → ∀ owner block,
        ownedBy after.dir.entry after.held owner = some block → block.Apart lease.block
  reserved : after.dir.reservedSlot = none
  repeats : ∀ generations later, Retried g policy client bind key totalLen after generations later →
    ∃ untried, Run.execute (lifeStep g policy) life (generations.map .commitHead) = some (untried, []) ∧
      SameOutcome (untried.prepare g policy client bind key totalLen)
        (later.prepare g policy client bind key totalLen)

/-- The same value is stored for entries with the same value. -/
theorem storedValue_eq {before after : State}
    (same : ∀ slot, SameValue (before.entry slot) (after.entry slot)) (device host : Nat → List UInt8) :
    storedValue device host after = storedValue device host before := by
  funext slot
  rw [storedValue, storedValue, (same slot).valid, (same slot).key, (same slot).totalValueLen]
  by_cases valid : (before.entry slot).valid = true
  · have located := (same slot).location_iff valid
    rw [if_pos valid, if_pos valid]
    by_cases pending : (before.entry slot).location = .devicePendingHost
    · have pinned := (same slot).pinned ((DirEntry.pending_iff _).mpr ⟨valid, pending⟩)
      rw [if_pos pending, if_pos (located.mpr pending), pinned]
    · rw [if_neg pending, if_neg fun other => pending (located.mp other)]
  · rw [if_neg valid, if_neg valid]

/-- The same host copies are named by entries with the same value. -/
theorem hostBacking_eq {before after : State}
    (same : ∀ slot, SameValue (before.entry slot) (after.entry slot)) :
    hostBacking after = hostBacking before := by
  funext slot
  have committed : ((after.entry slot).valid = true ∧ (after.entry slot).location ≠ .devicePendingHost) ↔
      ((before.entry slot).valid = true ∧ (before.entry slot).location ≠ .devicePendingHost) := by
    rw [(same slot).valid]
    exact and_congr_right fun valid => not_congr ((same slot).location_iff valid)
  simp only [hostBacking, committed, (same slot).hostGeneration]

/-- A prepare that binds its lease is refused only as long as it has no slot. -/
theorem bound_refusal {resident recycled : List Nat} (lives : Lives g contents life resident recycled)
    (idle : life.idle = true) (isBind : bind = true)
    (binds : bind = true → mayBind (life.lease client) totalLen = true)
    (refused : (life.prepare g policy client bind key totalLen).granted = none) :
    life.prepare g policy client bind key totalLen = life := by
  apply Life.prepare_unselected idle
  intro checked
  by_contra chosen
  obtain ⟨slot, isSlot⟩ := Option.ne_none_iff_exists'.mp chosen
  have selection : selectSlot g key life.dir = ((selectSlot g key life.dir).1, some slot) := by
    rw [← isSlot]
  have promise := (@Lives.prepare_slot g policy contents life _ client slot bind key totalLen _ _ lives
    idle binds checked selection).2
  obtain ⟨block, found⟩ := (lives.takes_iff idle binds selection).mpr (Or.inl isBind)
  rw [refused, found] at promise
  exact nomatch promise

/-- The freed lease of a refusal is owned by nobody.

Proof: what is owned afterwards was owned before, by somebody else. -/
theorem returned_apart {resident recycled : List Nat} (lives : Lives g contents life resident recycled)
    (alike : Alike g client life after) (demoted : ∀ slot, (after.dir.entry slot).resident = true →
      (life.dir.entry slot).resident = true ∧ (after.dir.entry slot).block = (life.dir.entry slot).block)
    (gone : after.lease client = none) {lease : Lease} (isLease : life.lease client = some lease)
    {owner : Nat ⊕ Holder} {block : Block} (owns : ownedBy after.dir.entry after.held owner = some block) :
    block.Apart lease.block := by
  obtain ⟨lists, heap⟩ := lives.consistent.heap
  have owned : ownedBy life.dir.entry life.held (.inr (.lease client)) = some lease.block := by
    simp [ownedBy, Life.held, isLease]
  have before : ownedBy life.dir.entry life.held owner = some block ∧ owner ≠ .inr (.lease client) := by
    cases owner with
    | inl slot =>
      refine ⟨?_, fun impossible => by cases impossible⟩
      obtain ⟨resident, rfl⟩ : (after.dir.entry slot).resident = true ∧
          (after.dir.entry slot).block = block := by
        simpa [ownedBy] using owns
      obtain ⟨was, same⟩ := demoted slot resident
      rw [ownedBy, if_pos was, same]
    | inr holder =>
      have others := congrFun alike.held holder
      by_cases here : holder = .lease client
      · subst here
        simp [ownedBy, Life.held, gone] at owns
      · rw [update_of_ne here, update_of_ne here] at others
        refine ⟨?_, fun same => here (Sum.inr.inj same)⟩
        rw [← owns, ownedBy, ownedBy, others]
  exact heap.owned_apart before.1 owned before.2

/-- Draining the queue is a step between idle lives, and changes no lease. -/
theorem commitHead_frame {hostGeneration : Nat} {events : List Empty}
    (stepped : lifeStep g policy life (.commitHead hostGeneration) = some (after, events)) :
    after.idle = life.idle ∧ after.lease = life.lease := by
  simp only [lifeStep, Option.ite_none_right_eq_some, Option.map_eq_some_iff,
    Prod.mk.injEq] at stepped
  obtain ⟨_, _, _, rfl, _⟩ := stepped
  exact ⟨rfl, rfl⟩

/-- What holds after further attempts: without them the queue drains to a life that is alike. -/
structure Caught (g : Geometry) (policy : LeasePolicy) (contents : Nat → HeapBlock) (life : Life)
    (client : Nat) (bind : Bool) (generations : List Nat) (untried later : Life) : Prop where
  executed : Run.execute (lifeStep g policy) life (generations.map .commitHead) = some (untried, [])
  alike : Alike g client untried later
  untriedLives : ∃ resident recycled, Lives g contents untried resident recycled
  laterLives : ∃ resident recycled, Lives g contents later resident recycled
  idle : untried.idle = true
  untriedLease : untried.lease = life.lease
  laterLease : bind = true → later.lease client = life.lease client

/-- Further attempts are caught up with.

Proof: by induction on the attempts. A drained head is drained in both lives; a refusal that gives
up nothing leaves a life that is alike. -/
theorem Retried.caught {generations : List Nat} {later : Life} (fits : totalLen ≤ g.maxValueBytes)
    (binds : bind = true → mayBind (life.lease client) totalLen = true)
    (start : Caught g policy contents life client bind [] life after)
    (retried : Retried g policy client bind key totalLen after generations later) :
    ∃ untried, Caught g policy contents life client bind generations untried later := by
  induction retried with
  | start => exact ⟨life, start⟩
  | @drain generations middle after hostGeneration earlier drained inductionHypothesis =>
    obtain ⟨untried, caught⟩ := inductionHypothesis
    obtain ⟨next, taken, alike⟩ := caught.alike.commitHead drained
    obtain ⟨_, _, untriedLives⟩ := caught.untriedLives
    obtain ⟨_, _, laterLives⟩ := caught.laterLives
    have untriedFrame := commitHead_frame taken
    have laterFrame := commitHead_frame drained
    have executed := Run.execute_snoc caught.executed taken
    refine ⟨next, ?_, alike, untriedLives.step taken, laterLives.step drained,
      untriedFrame.1.trans caught.idle, untriedFrame.2.trans caught.untriedLease, fun isBind => ?_⟩
    · rw [List.map_append]
      exact executed
    · rw [laterFrame.2]
      exact caught.laterLease isBind
  | @refuse generations middle earlier refused spared inductionHypothesis =>
    obtain ⟨untried, caught⟩ := inductionHypothesis
    obtain ⟨_, _, laterLives⟩ := caught.laterLives
    have idle : middle.idle = true := caught.alike.idle.trans caught.idle
    have laterBinds : bind = true → mayBind (middle.lease client) totalLen = true := by
      intro isBind
      rw [caught.laterLease isBind]
      exact binds isBind
    have refusal : Refusal g client key middle (middle.prepare g policy client bind key totalLen) :=
      Life.refusal idle refused
    have alike := refusal.alike laterLives idle (spares laterLives idle spared)
    refine ⟨untried, caught.executed, caught.alike.trans alike, caught.untriedLives,
      laterLives.prepare idle fits laterBinds, caught.idle, caught.untriedLease, fun isBind => ?_⟩
    rw [bound_refusal laterLives idle isBind laterBinds refused]
    exact caught.laterLease isBind

/-- A refusal keeps or returns the lease.

Proof: a refusal without a slot leaves the life as it was. Otherwise the lease went back before the
blocks were evicted, and what was not evicted is apart from it. -/
theorem Refusal.lease {resident recycled : List Nat} (lives : Lives g contents life resident recycled)
    (refusal : Refusal g client key life after) (alike : Alike g client life after) :
    match after.lease client with
    | some lease => life.lease client = some lease ∧ after.dir.heap = life.dir.heap
    | none => ∀ lease, life.lease client = some lease → ∀ owner block,
        ownedBy after.dir.entry after.held owner = some block → block.Apart lease.block := by
  cases refusal with
  | unchanged same =>
    subst same
    cases isLease : after.lease client with
    | some lease => exact ⟨rfl, rfl⟩
    | none => exact fun lease impossible => nomatch impossible
  | @returned selected taken slot chosen demoted result =>
    have gone : after.lease client = none := by
      rw [result]
      exact update_self ..
    rw [gone]
    intro lease isLease owner block owns
    refine returned_apart lives alike (fun other resident => ?_) gone isLease owns
    have entries : after.dir.entry = taken.entry := by
      rw [result]
      rfl
    rw [entries] at resident ⊢
    obtain ⟨was, off, order⟩ := demoted.settled.stays other resident
    rw [reserved_entry chosen] at was off order
    by_cases here : other = slot
    · rw [here, update_self] at was
      simp [DirEntry.resident] at was
    · rw [update_of_ne here] at was off order
      exact ⟨was, by rw [DirEntry.block, DirEntry.block, off, order]⟩

/-- What a refused prepare loses.

Proof: if no valid entry is cleared, the refusal leaves a life that is alike, and further attempts
are caught up with. If one is cleared, its value is gone. -/
theorem refused_prepare_loses_iff (reached : LifeReached g policy contents life) {events : List Empty}
    (prepared : lifeStep g policy life (.prepare client bind key totalLen) = some (after, events))
    (refused : after.granted = none) :
    LosesNothing g policy life client bind key totalLen after ↔
      ¬ GivesUp g ⟨bind, key, totalLen, life.lease client⟩ life.dir := by
  obtain ⟨resident, recycled, lives⟩ := Lives.reached reached
  simp only [lifeStep, Option.ite_none_right_eq_some, Option.some.injEq, Prod.mk.injEq] at prepared
  obtain ⟨⟨idle, fits, binds⟩, rfl, -⟩ := prepared
  have unreserved : life.dir.reservedSlot = none := by
    rw [lives.reserved, ((Lives.idle_iff life).mp idle).1]
    rfl
  constructor
  · intro kept givesUp
    obtain ⟨checked, selected, slot, chosen, valid⟩ :=
      (givesUp_iff lives.consistent unreserved _).mp givesUp
    have cleared := ((@Lives.prepare_slot g policy contents life _ client slot bind key totalLen _ _
      lives idle binds checked chosen).1 slot).valid
    rw [update_self] at cleared
    have stored := congrFun (kept.values (fun _ => []) fun _ => []) slot
    rw [storedValue, storedValue, if_pos valid, cleared] at stored
    cases stored
  · intro spared
    have refusal : Refusal g client key life (life.prepare g policy client bind key totalLen) :=
      Life.refusal idle refused
    have alike := refusal.alike lives idle (spares lives idle spared)
    refine ⟨storedValue_eq alike.entry, hostBacking_eq alike.entry, refusal.lease lives alike,
      alike.reservedSlot.trans unreserved, fun generations later retried => ?_⟩
    have start : Caught g policy contents life client bind [] life
        (life.prepare g policy client bind key totalLen) := by
      refine ⟨rfl, alike, ⟨resident, recycled, lives⟩, lives.prepare idle fits binds, idle, rfl,
        fun isBind => ?_⟩
      rw [bound_refusal lives idle isBind binds refused]
    obtain ⟨untried, caught⟩ := retried.caught fits binds start
    obtain ⟨_, _, untriedLives⟩ := caught.untriedLives
    obtain ⟨_, _, laterLives⟩ := caught.laterLives
    refine ⟨untried, caught.executed, caught.alike.prepare untriedLives laterLives caught.idle ?_ ?_⟩
    · rw [caught.untriedLease]
      exact binds
    · intro isBind
      rw [caught.laterLease isBind]
      exact binds isBind

/-! ## A heap cut up by leases -/

/-- A directory of three keys over a heap of four units, for values of up to two units. -/
def threeKeys : Geometry :=
  ⟨3, 8, 2 * maxChunkValueBytes, 4 * maxChunkValueBytes, by decide, Geometry.eight_wire, by decide⟩

/-- Two clients store a value of one unit each. -/
def storeBoth : List DirAction :=
  [.prepare 0 false [1] 1, .publish 1 false, .commitHead 1,
    .prepare 1 false [2] 1, .publish 2 false, .commitHead 2]

/-- Afterwards the leases of the two clients lie in both halves of the heap. -/
def cutUp : Life :=
  ((Run.execute (lifeStep threeKeys freeBlocks) (coldLife threeKeys noMarkers) storeBoth).map
    Prod.fst).getD (coldLife threeKeys noMarkers)

theorem cutUp_reached : LifeReached threeKeys freeBlocks noMarkers cutUp := by
  have executed : Run.execute (lifeStep threeKeys freeBlocks) (coldLife threeKeys noMarkers) storeBoth =
      some (cutUp, []) := rfl
  exact ⟨_, Run.Run.execute .start executed⟩

/-- A new key that needs two units is refused, and nothing is lost. -/
theorem refused_prepare_loses_new :
    (cutUp.prepare threeKeys freeBlocks 2 false [3] (maxChunkValueBytes + 1)).granted = none ∧
      LosesNothing threeKeys freeBlocks cutUp 2 false [3] (maxChunkValueBytes + 1)
        (cutUp.prepare threeKeys freeBlocks 2 false [3] (maxChunkValueBytes + 1)) := by
  have prepared : lifeStep threeKeys freeBlocks cutUp (.prepare 2 false [3] (maxChunkValueBytes + 1)) =
      some (cutUp.prepare threeKeys freeBlocks 2 false [3] (maxChunkValueBytes + 1), []) := rfl
  have refused : (cutUp.prepare threeKeys freeBlocks 2 false [3] (maxChunkValueBytes + 1)).granted =
      none := by
    decide +kernel
  refine ⟨refused, (refused_prepare_loses_iff cutUp_reached prepared refused).mpr ?_⟩
  have others : ∀ slot < 3, (cutUp.dir.entry slot).key ≠ [3] := by decide +kernel
  have free : (cutUp.dir.entry 2).valid = false := by decide +kernel
  obtain ⟨resident, recycled, lives⟩ := Lives.reached cutUp_reached
  rintro ⟨-, ⟨slot, valid, hasKey, -⟩ | ⟨-, full, -⟩⟩
  · exact others slot (lives.consistent.valid_lt valid) hasKey
  · exact nomatch free.symm.trans (full 2 (by decide))

/-- A larger value for a key that is stored is refused as well, but the stored value is lost. -/
theorem refused_prepare_loses_stored :
    ¬ ∀ (g : Geometry) (policy : LeasePolicy) (contents : Nat → HeapBlock) (life after : Life)
      (client : Nat) (bind : Bool) (key : Key) (totalLen : Nat) (events : List Empty),
      LifeReached g policy contents life →
      lifeStep g policy life (.prepare client bind key totalLen) = some (after, events) →
      after.granted = none →
      LosesNothing g policy life client bind key totalLen after := by
  intro spared
  have prepared : lifeStep threeKeys freeBlocks cutUp (.prepare 2 false [1] (maxChunkValueBytes + 1)) =
      some (cutUp.prepare threeKeys freeBlocks 2 false [1] (maxChunkValueBytes + 1), []) := rfl
  have refused : (cutUp.prepare threeKeys freeBlocks 2 false [1] (maxChunkValueBytes + 1)).granted =
      none := by
    decide +kernel
  have kept := (spared _ _ _ _ _ _ _ _ _ _ cutUp_reached prepared refused).values
    (fun _ => []) fun _ => []
  have stored : storedValue (fun _ => []) (fun _ => []) cutUp.dir 0 = some ([1], 1, []) := by
    decide +kernel
  have gone : storedValue (fun _ => []) (fun _ => [])
      (cutUp.prepare threeKeys freeBlocks 2 false [1] (maxChunkValueBytes + 1)).dir 0 = none := by
    decide +kernel
  rw [kept, stored] at gone
  exact nomatch gone

end KvCache.Directory
