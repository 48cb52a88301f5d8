import KvCache.Directory.Prepare

/-!
# What the operations do to the values

Most operations move values between the tiers and leave every value where a client can
find it: no key appears or disappears, and what still lacks a host copy goes on lacking
it. Eviction, promotion, admission and the access stamps are of this kind. They are
told apart only by whether an entry gains a block.
-/

namespace KvCache.Directory

open Buddy Function HashIndex Layout

variable {g : Geometry} {dir before middle after : State} {slot : Nat}

/-- The values stay; only tiers, blocks and stamps may change. -/
structure Moved (before after : State) : Prop where
  valid : ∀ slot, (after.entry slot).valid = (before.entry slot).valid
  key : ∀ slot, (after.entry slot).key = (before.entry slot).key
  totalValueLen : ∀ slot, (after.entry slot).totalValueLen = (before.entry slot).totalValueLen
  hostGeneration : ∀ slot, (after.entry slot).hostGeneration = (before.entry slot).hostGeneration
  pending : ∀ slot, (after.entry slot).pending = (before.entry slot).pending
  reservedSlot : after.reservedSlot = before.reservedSlot
  putHostQueue : after.putHostQueue = before.putHostQueue

/-- The values stay, and no entry gains a block. -/
structure Settled (before after : State) : Prop extends Moved before after where
  stays : ∀ slot, (after.entry slot).resident = true → (before.entry slot).resident = true ∧
    (after.entry slot).valueByteOff = (before.entry slot).valueByteOff ∧
    (after.entry slot).blockOrder = (before.entry slot).blockOrder

namespace Settled

theorem refl (dir : State) : Settled dir dir :=
  ⟨⟨fun _ => rfl, fun _ => rfl, fun _ => rfl, fun _ => rfl, fun _ => rfl, rfl, rfl⟩,
    fun _ resident => ⟨resident, rfl, rfl⟩⟩

theorem trans (first : Settled before middle) (second : Settled middle after) :
    Settled before after := by
  refine ⟨⟨fun slot => (second.valid slot).trans (first.valid slot),
    fun slot => (second.key slot).trans (first.key slot),
    fun slot => (second.totalValueLen slot).trans (first.totalValueLen slot),
    fun slot => (second.hostGeneration slot).trans (first.hostGeneration slot),
    fun slot => (second.pending slot).trans (first.pending slot),
    second.reservedSlot.trans first.reservedSlot,
    second.putHostQueue.trans first.putHostQueue⟩, fun slot resident => ?_⟩
  obtain ⟨between, sameOff, sameOrder⟩ := second.stays slot resident
  obtain ⟨held, off, order⟩ := first.stays slot between
  exact ⟨held, sameOff.trans off, sameOrder.trans order⟩

/-- A step that writes no entry settles. -/
theorem of_entry (entries : after.entry = before.entry)
    (reserved : after.reservedSlot = before.reservedSlot)
    (queue : after.putHostQueue = before.putHostQueue) : Settled before after := by
  refine ⟨⟨?_, ?_, ?_, ?_, ?_, reserved, queue⟩, ?_⟩ <;> rw [entries] <;> intro slot
  all_goals first | rfl | exact fun resident => ⟨resident, rfl, rfl⟩

/-- Replacing an entry by one with the same value and tier. -/
theorem update (slot : Nat) {entry : DirEntry}
    (entries : after.entry = Function.update before.entry slot entry)
    (valid : entry.valid = (before.entry slot).valid) (key : entry.key = (before.entry slot).key)
    (len : entry.totalValueLen = (before.entry slot).totalValueLen)
    (generation : entry.hostGeneration = (before.entry slot).hostGeneration)
    (location : entry.location = (before.entry slot).location)
    (offset : entry.valueByteOff = (before.entry slot).valueByteOff)
    (order : entry.blockOrder = (before.entry slot).blockOrder)
    (reserved : after.reservedSlot = before.reservedSlot)
    (queue : after.putHostQueue = before.putHostQueue) : Settled before after := by
  have entryAt : ∀ other, after.entry other = if other = slot then entry else before.entry other := by
    intro other
    rw [entries, Function.update_apply]
  refine ⟨⟨?_, ?_, ?_, ?_, ?_, reserved, queue⟩, ?_⟩ <;> intro other <;> rw [entryAt] <;>
    split <;> grind [DirEntry.pending, DirEntry.resident]

end Settled

/-- Evictions settle. -/
theorem Demoted.settled (demoted : Demoted before after) : Settled before after := by
  have location : ∀ slot, (after.entry slot).location = (before.entry slot).location ∨
      (before.entry slot).location = .device ∧ (after.entry slot).location = .host := by
    intro slot
    rcases demoted.entry slot with same | ⟨allowed, same⟩
    · exact Or.inl (congrArg DirEntry.location same)
    · refine Or.inr ⟨?_, congrArg DirEntry.location same⟩
      simpa using (Bool.and_eq_true_iff.mp allowed).2
  refine ⟨⟨demoted.valid, demoted.key, fun slot => ?_, fun slot => ?_, fun slot => ?_,
    demoted.reservedSlot, demoted.putHostQueue⟩, fun slot => ?_⟩ <;>
    rcases demoted.entry slot with same | ⟨allowed, same⟩ <;> rw [same] <;>
    grind [DirEntry.pending, DirEntry.resident, evictable]

/-- Attempts to allocate only evict. -/
theorem allocateFrom_demoted (g : Geometry) (units : Nat) (owner : BlockState)
    (allowEviction : Bool) (attempts : Nat) (dir : State) :
    Demoted dir (allocateFrom g units owner allowEviction attempts dir).1 := by
  have granted : ∀ {dir after : State} {unit order : Nat},
      tryAllocate g units owner dir = some (after, unit, order) → Demoted dir after := by
    intro dir after unit order found
    unfold tryAllocate at found
    split at found
    · obtain ⟨_, _, result⟩ := Option.map_eq_some_iff.mp found
      cases result
      exact ⟨fun _ => Or.inl rfl, rfl, rfl, rfl, rfl, rfl⟩
    · exact nomatch found
  induction attempts generalizing dir with
  | zero =>
    unfold allocateFrom
    split
    · next found => exact granted found
    · exact Demoted.refl dir
  | succ remaining inductionHypothesis =>
    unfold allocateFrom
    split
    · next found => exact granted found
    · dsimp only
      split
      · split
        · exact Demoted.refl dir
        · split
          · exact Demoted.refl dir
          · next evicted => exact (evictCachedBlock_demoted evicted).trans (inductionHypothesis _)
      · exact Demoted.refl dir

/-- An allocation only evicts. -/
theorem allocateCacheBlock_demoted (g : Geometry) (units : Nat) (owner : BlockState)
    (allowEviction : Bool) (dir : State) :
    Demoted dir (allocateCacheBlock g units owner allowEviction dir).1 := by
  unfold allocateCacheBlock
  split
  · exact Demoted.refl dir
  · split
    · exact Demoted.refl dir
    · exact allocateFrom_demoted ..

theorem advanceEpoch_settled (dir : State) : Settled dir (advanceEpoch dir) :=
  Settled.of_entry rfl rfl rfl

theorem freeBlock_settled (valueByteOff order : Nat) :
    Settled dir (freeBlock g valueByteOff order dir) :=
  Settled.of_entry rfl rfl rfl

theorem recordDeviceHit_settled (slot accessEpoch : Nat) :
    Settled dir (recordDeviceHit slot accessEpoch dir) :=
  Settled.update slot rfl rfl rfl rfl rfl rfl rfl rfl rfl rfl

theorem persistHostGetAccessStampIfCurrent_settled (slot totalLen accessEpoch : Nat) :
    Settled dir (persistHostGetAccessStampIfCurrent slot totalLen accessEpoch dir) := by
  unfold persistHostGetAccessStampIfCurrent
  split
  · exact Settled.update slot rfl rfl rfl rfl rfl rfl rfl rfl rfl rfl
  · exact Settled.refl dir

/-- What an admission does: nothing, or give the host entry a block. -/
theorem commitHostGetAdmission_cases (slot valueByteOff totalLen order accessEpoch : Nat)
    (dir : State) :
    commitHostGetAdmission slot valueByteOff totalLen order accessEpoch dir = (dir, false) ∨
      ∃ admitted, hostEntryIs dir slot totalLen = true ∧
        commitHostGetAdmission slot valueByteOff totalLen order accessEpoch dir = (admitted, true) ∧
        admitted.entry = Function.update dir.entry slot
          { dir.entry slot with
            valueByteOff := valueByteOff
            location := .device
            blockOrder := order
            lastAccess := accessEpoch } ∧
        Moved dir admitted := by
  unfold commitHostGetAdmission
  split
  · next found =>
    have onHost : (dir.entry slot).location = .host := by
      have located := (Bool.and_eq_true_iff.mp (Bool.and_eq_true_iff.mp found).1).2
      simpa using located
    refine Or.inr ⟨_, found, rfl, rfl, ?_⟩
    refine ⟨?_, ?_, ?_, ?_, ?_, rfl, rfl⟩ <;> intro other <;> by_cases same : other = slot
    all_goals
      first
      | subst same
        simp [DirEntry.pending, onHost, show (Location.device == .devicePendingHost) = false from rfl,
          show (Location.host == .devicePendingHost) = false from rfl]
      | simp [same]
  · exact Or.inl rfl

/-- Taking the block of a PUT only evicts. -/
theorem takePutBlock_demoted (g : Geometry) (slot units : Nat) (req : PutPrepareRequest)
    (dir : State) : Demoted dir (takePutBlock g slot units req dir).1 := by
  unfold takePutBlock
  split
  · exact ⟨fun _ => Or.inl rfl, rfl, rfl, rfl, rfl, rfl⟩
  · exact Demoted.refl dir
  · next lease _ _ =>
    have evicts := allocateCacheBlock_demoted g units (.slot slot) true
      (freeBlock g lease.valueByteOff lease.buddyOrder dir)
    exact ⟨evicts.entry, evicts.buckets, evicts.reservedSlot, evicts.epoch, evicts.putHostQueue,
      evicts.pendingDeviceBytes⟩
  · exact allocateCacheBlock_demoted ..

/-- The checks of a prepare before it looks for a slot. -/
def PutPrepareRequest.Checked (g : Geometry) (req : PutPrepareRequest) (dir : State) : Prop :=
  0 < req.key.length ∧ req.key.length ≤ g.maxKeyLen ∧ 0 < req.totalLen ∧
    pendingBlocksNextLease g (needBlockBytes req.totalLen) dir = false

instance (g : Geometry) (req : PutPrepareRequest) (dir : State) : Decidable (req.Checked g dir) := by
  unfold PutPrepareRequest.Checked
  infer_instance

/-- A prepare without a slot changes nothing. -/
theorem putPrepare_unselected {policy : LeasePolicy} {previousOrder : Option Nat}
    {req : PutPrepareRequest}
    (missed : req.Checked g dir → (selectSlot g req.key dir).2 = none) :
    putPrepare g policy previousOrder req dir = (dir, ⟨none, req.lease⟩, previousOrder) := by
  unfold putPrepare
  dsimp only
  split
  · next checked =>
    have refused := missed checked
    split
    · next middle selected => rw [selectSlot_none selected]
    · next middle slot selected =>
      rw [selected] at refused
      exact nomatch refused
  · rfl

/-- A prepare with a slot clears it. Past that it only evicts, and either grants the slot or
returns it because no block was found. -/
theorem putPrepare_selected {policy : LeasePolicy} {previousOrder : Option Nat}
    {req : PutPrepareRequest} (checked : req.Checked g dir)
    (selected : selectSlot g req.key dir = (middle, some slot)) :
    (∃ grant, (putPrepare g policy previousOrder req dir).2.1.grant = some grant ∧
      grant.dirSlot = slot ∧
      Demoted (reserveSlot g slot middle) (putPrepare g policy previousOrder req dir).1 ∧
      ∃ block, (takePutBlock g slot (chunkCountFor req.totalLen) req (reserveSlot g slot middle)).2 =
        some block) ∨
    ∃ taken, takePutBlock g slot (chunkCountFor req.totalLen) req (reserveSlot g slot middle) =
        (taken, none) ∧
      putPrepare g policy previousOrder req dir =
        (releaseSlot slot taken, ⟨none, none⟩, previousOrder) := by
  unfold PutPrepareRequest.Checked at checked
  unfold putPrepare
  dsimp only
  rw [if_pos checked, selected]
  dsimp only
  split
  · next taken refused => exact Or.inr ⟨taken, refused, rfl⟩
  · next taken unit order found =>
    have evicts := takePutBlock_demoted g slot (chunkCountFor req.totalLen) req
      (reserveSlot g slot middle)
    rw [found] at evicts
    refine Or.inl ⟨_, rfl, rfl, evicts.trans ?_, (unit, order), by rw [found]⟩
    exact allocateCacheBlock_demoted ..

/-- A prepare that binds a lease keeps it when refused, and grants its block. -/
theorem putPrepare_bind {policy : LeasePolicy} {previousOrder order : Option Nat}
    {req : PutPrepareRequest} {lease : Lease} {response : PutPrepareResponse}
    (bind : req.bind = true) (leased : req.lease = some lease)
    (aligned : maxChunkValueBytes ∣ lease.valueByteOff)
    (result : putPrepare g policy previousOrder req dir = (after, response, order)) :
    (response.grant = none → response.lease = some lease) ∧
      ∀ grant, response.grant = some grant → grant.valueByteOff = lease.valueByteOff := by
  have refused : (⟨none, req.lease⟩ : PutPrepareResponse) = response →
      (response.grant = none → response.lease = some lease) ∧
        ∀ grant, response.grant = some grant → grant.valueByteOff = lease.valueByteOff := by
    rintro rfl
    exact ⟨fun _ => leased, fun _ impossible => nomatch impossible⟩
  unfold putPrepare at result
  dsimp only at result
  split at result
  · split at result
    · exact refused (congrArg (·.2.1) result)
    · simp only [takePutBlock, bind, leased] at result
      obtain rfl : _ = response := congrArg (·.2.1) result
      refine ⟨fun impossible => (nomatch impossible), ?_⟩
      rintro _ ⟨⟩
      exact Nat.div_mul_cancel aligned
  · exact refused (congrArg (·.2.1) result)

end KvCache.Directory
