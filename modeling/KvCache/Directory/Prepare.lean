import KvCache.Directory.Publication
import KvCache.Foundation.Selection
import KvCache.Foundation.WrappedCounter

/-!
# PUT prepare

Prepare reserves a slot, takes a block for the value and, if it can, a second one
of the same size as the lease for the next PUT of the client. The two blocks and
the lease that came with the request are held outside the directory by two
holders, one for the reservation and one for the leases of the client.

A refusal either leaves the directory as it was or comes after a slot was cleared
and no block could be found. In the latter case the slot is returned and the
evictions stand.
-/

namespace KvCache.Directory

open AlignedBlock Buddy Function HashIndex Layout Residency

universe u
variable {ι : Type u}
variable {g : Geometry} {contents : Nat → HeapBlock} {strict : Prop} {dir after : State}
variable {held : ι → Option Block} {resident recycled : List Nat} {slot : Nat} {key : Key}

/-- The block of a lease. -/
def Lease.block (lease : Lease) : Block :=
  ⟨lease.valueByteOff / maxChunkValueBytes, lease.buddyOrder⟩

/-- The block of a grant. -/
def PutGrant.block (grant : PutGrant) : Block :=
  ⟨grant.valueByteOff / maxChunkValueBytes, grant.blockOrder⟩

theorem unit_of_offset (unit : Nat) : unit * maxChunkValueBytes / maxChunkValueBytes = unit :=
  Nat.mul_div_cancel _ maxChunkValueBytes_pos

/-! ## The catalog scan -/

/-- Age of an entry by its stamp. -/
def age (dir : State) (slot : Nat) : Nat :=
  WrappedCounter.distance (2 ^ 32) dir.epoch (dir.entry slot).lastAccess

/-- The scan keeps the oldest of the committed entries. -/
theorem considerOldest_eq : considerOldest dir = Selection.consider (replaceable dir) (age dir) := by
  funext oldest slot
  cases oldest <;> rfl

theorem oldestCommitted_some (chosen : oldestCommitted g dir = some slot) :
    slot < g.maxKeys ∧ replaceable dir slot = true ∧
      ∀ other < g.maxKeys, replaceable dir other = true → age dir other ≤ age dir slot := by
  obtain ⟨⟨best, oldestAge⟩, found, rfl⟩ := Option.map_eq_some_iff.mp chosen
  have keeps := @Selection.scan_keeps _ _ _ (replaceable dir) (age dir) (List.range g.maxKeys)
  rw [← considerOldest_eq, found] at keeps
  obtain ⟨inside, eligible, rfl, oldest⟩ := keeps
  exact ⟨List.mem_range.mp inside, eligible, fun other below =>
    oldest other (List.mem_range.mpr below)⟩

theorem oldestCommitted_none (chosen : oldestCommitted g dir = none) :
    ∀ other < g.maxKeys, replaceable dir other = false := by
  intro other below
  have keeps := @Selection.scan_keeps _ _ _ (replaceable dir) (age dir) (List.range g.maxKeys)
  rw [← considerOldest_eq, Option.map_eq_none_iff.mp chosen] at keeps
  exact keeps other (List.mem_range.mpr below)

/-! ## Reserving the slot -/

/-- One slot was cleared for a key; the other entries lost at most their blocks.
What the slot held was committed, and either had the key or gave way in a full
catalog. -/
structure Displaces (g : Geometry) (key : Key) (slot : Nat) (before after : State) : Prop where
  entry : ∀ other, other ≠ slot → after.entry other = before.entry other ∨
    (evictable before other = true ∧
      after.entry other = { before.entry other with location := .host })
  cleared : (after.entry slot).valid = false
  allowed : (before.entry slot).valid = true →
    (before.entry slot).location ≠ .devicePendingHost ∧
      ((before.entry slot).key = key ∨ ∀ other < g.maxKeys, (before.entry other).valid = true)
  absent : ∀ other, (after.entry other).valid = true → (after.entry other).key ≠ key
  epoch : after.epoch = before.epoch
  queue : after.putHostQueue = before.putHostQueue

/-- Later evictions do not disturb a displacement. -/
theorem Displaces.demote {before middle : State} (displaced : Displaces g key slot before middle)
    (demoted : Demoted middle after) : Displaces g key slot before after := by
  refine ⟨fun other different => ?_, ?_, displaced.allowed, fun other holds => ?_,
    demoted.epoch.trans displaced.epoch, demoted.putHostQueue.trans displaced.queue⟩
  · rcases displaced.entry other different with same | ⟨allowed, changed⟩
    · rcases demoted.entry other with kept | ⟨later, changed⟩
      · exact Or.inl (kept.trans same)
      · exact Or.inr ⟨by simpa only [evictable, same] using later, by rw [changed, same]⟩
    · rcases demoted.entry other with kept | ⟨later, _⟩
      · exact Or.inr ⟨allowed, kept.trans changed⟩
      · simp [evictable, changed] at later
  · rw [demoted.valid]
    exact displaced.cleared
  · rw [demoted.key]
    exact displaced.absent other (demoted.valid other ▸ holds)

theorem selectSlot_none (refused : selectSlot g key dir = (after, none)) : after = dir := by
  unfold selectSlot at refused
  split at refused
  · split at refused
    · exact (Prod.mk.inj refused).1.symm
    · exact nomatch (Prod.mk.inj refused).2
  · split at refused
    · exact nomatch (Prod.mk.inj refused).2
    · exact (Prod.mk.inj refused).1.symm

namespace Consistent

variable [DecidableEq ι]

/-- Reserving the selected slot clears it for the key. -/
theorem select (inv : Consistent g contents strict dir held resident recycled)
    (idle : dir.reservedSlot = none) (selected : selectSlot g key dir = (after, some slot)) :
    Displaces g key slot dir (reserveSlot g slot after) ∧
      ∃ resident' recycled', Consistent g contents strict (reserveSlot g slot after) held
        resident' recycled' := by
  have unlisted : ∀ middle : State, middle.entry = dir.entry →
      (∀ other, (dir.entry other).valid = true → (dir.entry other).key = key → other = slot) →
      (∀ other, ((reserveSlot g slot middle).entry other).valid = true →
        ((reserveSlot g slot middle).entry other).key ≠ key) ∧
      (∀ other, other ≠ slot → (reserveSlot g slot middle).entry other = dir.entry other) ∧
      ((reserveSlot g slot middle).entry slot).valid = false := by
    intro middle same only
    rw [reserveSlot_entry, same]
    refine ⟨fun other holds hasKey => ?_, fun other different => update_of_ne different .., by simp⟩
    have different : other ≠ slot := by
      rintro rfl
      simp at holds
    rw [update_of_ne different] at holds hasKey
    exact different (only other holds hasKey)
  unfold selectSlot at selected
  split at selected
  · next found looked =>
    split at selected
    · exact nomatch (Prod.mk.inj selected).2
    · next committed =>
      obtain ⟨rfl, same⟩ := Prod.mk.inj selected
      obtain rfl := Option.some.inj same
      obtain ⟨valid, hasKey⟩ := (inv.lookup_iff key).mp looked
      obtain ⟨absent, others, cleared⟩ := unlisted dir rfl fun other holds same =>
        inv.uniqueKeys other found key (by simp [keyAt, keyOf, holds, same])
          (by simp [keyAt, keyOf, valid, hasKey])
      obtain ⟨_, epoch, queue⟩ := reserveSlot_frame g found dir
      exact ⟨⟨fun other different => Or.inl (others other different), cleared,
        fun _ => ⟨committed, Or.inl hasKey⟩, absent, epoch, queue⟩,
        _, _, inv.reserveValid idle valid⟩
  · next missing =>
    have nowhere := (inv.lookup_none_iff key).mp missing
    split at selected
    · next claimed catalog found =>
      obtain ⟨rfl, same⟩ := Prod.mk.inj selected
      obtain rfl := Option.some.inj same
      obtain ⟨recycled', consistent, invalid⟩ := inv.reserveClaimed idle found
      obtain ⟨absent, others, cleared⟩ := unlisted { dir with catalog := catalog } rfl
        fun other holds same => absurd ⟨holds, same⟩ (nowhere other)
      obtain ⟨_, epoch, queue⟩ := reserveSlot_frame g claimed { dir with catalog := catalog }
      exact ⟨⟨fun other different => Or.inl (others other different), cleared,
        fun holds => absurd (invalid.symm.trans holds) Bool.false_ne_true, absent, epoch, queue⟩,
        resident, recycled', consistent⟩
    · next full =>
      obtain ⟨rfl, oldest⟩ := Prod.mk.inj selected
      have eligible := (oldestCommitted_some oldest).2.1
      obtain ⟨valid, committed⟩ : (dir.entry slot).valid = true ∧
          (dir.entry slot).location ≠ .devicePendingHost := by
        simpa [replaceable] using eligible
      obtain ⟨noneRecycled, allUsed⟩ := inv.catalog.claim_none full
      obtain ⟨absent, others, cleared⟩ := unlisted dir rfl
        fun other holds same => absurd ⟨holds, same⟩ (nowhere other)
      obtain ⟨_, epoch, queue⟩ := reserveSlot_frame g slot dir
      refine ⟨⟨fun other different => Or.inl (others other different), cleared,
        fun _ => ⟨committed, Or.inr fun other below => ?_⟩, absent, epoch, queue⟩,
        _, _, inv.reserveValid idle valid⟩
      rcases inv.accounted other (allUsed ▸ below) with holds | queued | reserved
      · exact holds
      · exact absurd queued (by simp [noneRecycled])
      · simp [idle] at reserved

/-! ## Blocks of a PUT -/

/-- Handing a lease to a slot moves its block to another holder. -/
theorem bindLease (inv : Consistent g contents strict dir held resident recycled)
    {leases reservation : ι} {lease : Lease} (owns : held leases = some lease.block)
    (idle : held reservation = none) :
    Consistent g contents strict (Directory.bindLease slot lease dir)
      (update (update held leases none) reservation (some lease.block)) resident recycled := by
  obtain ⟨lists, heap⟩ := inv.heap
  refine inv.withHeap ⟨lists, ?_⟩
  rw [ownedBy_held, ownedBy_held]
  have marked := heap.mark (Sum.inr leases) owns
    ⟨.slot slot, lease.buddyOrder, none, none⟩ (by simp)
  exact marked.transfer (Sum.inr leases) (Sum.inr reservation) owns idle

/-- The block of a PUT comes from its lease, or from an allocation after the lease
went back. -/
theorem takePutBlock (inv : Consistent g contents strict dir held resident recycled)
    (slot : Nat) {leases reservation : ι} {units : Nat} {req : PutPrepareRequest}
    (apart : reservation ≠ leases) (owns : held leases = req.lease.map Lease.block)
    (idle : held reservation = none)
    (bound : req.bind = true → ∃ lease, req.lease = some lease ∧
      lease.buddyOrder = buddyOrderForUnits units) :
    Allocates g contents strict dir (update held leases none) recycled reservation units
      (Directory.takePutBlock g slot units req dir) := by
  have still : update held leases none reservation = none := by simp [apart, idle]
  unfold Directory.takePutBlock
  split
  · next lease isBind isLease =>
    obtain ⟨_, same, sized⟩ := bound isBind
    obtain rfl := Option.some.inj (isLease.symm.trans same)
    rw [isLease] at owns
    refine ⟨⟨fun _ => Or.inl rfl, rfl, rfl, rfl, rfl, rfl⟩, ?_, resident, inv.bindLease owns idle⟩
    rintro _ _ ⟨⟩
    exact sized
  · next isBind isLease =>
    obtain ⟨lease, same, _⟩ := bound isBind
    cases isLease.symm.trans same
  · next lease _ isLease =>
    rw [isLease] at owns
    have freed := inv.freeBlock lease.valueByteOff lease.buddyOrder owns
    have taken := freed.allocateCacheBlock units (.slot slot) true still (by simp)
    exact ⟨⟨taken.demoted.entry, taken.demoted.buckets, taken.demoted.reservedSlot,
      taken.demoted.epoch, taken.demoted.putHostQueue, taken.demoted.pendingDeviceBytes⟩,
      taken.sized, taken.consistent⟩
  · next _ isLease =>
    have nothing : update held leases none = held := by
      rw [isLease] at owns
      exact update_eq_self_iff.mpr owns.symm
    rw [nothing]
    exact inv.allocateCacheBlock _ _ _ idle (by simp)

end Consistent

/-- What prepare may do. A refusal before any slot is reserved changes nothing; past
that point one slot is cleared, and it stays reserved if and only if the PUT is
granted. -/
structure Prepares [DecidableEq ι] (g : Geometry) (contents : Nat → HeapBlock) (strict : Prop)
    (dir : State) (held : ι → Option Block) (reservation leases : ι) (req : PutPrepareRequest)
    (after : State) (response : PutPrepareResponse) : Prop where
  effect : (after = dir ∧ response = ⟨none, req.lease⟩) ∨
    ∃ slot, Displaces g req.key slot dir after ∧
      ((∃ grant, response.grant = some grant ∧ grant.dirSlot = slot) ∨ response = ⟨none, none⟩)
  reserved : after.reservedSlot = response.grant.map PutGrant.dirSlot
  granted : ∀ grant, response.grant = some grant →
    0 < req.key.length ∧ req.key.length ≤ g.maxKeyLen ∧ 0 < req.totalLen ∧
      grant.blockOrder = buddyOrderForUnits (chunkCountFor req.totalLen) ∧
      maxChunkValueBytes ∣ grant.valueByteOff
  leased : ∀ lease, response.lease = some lease → response.grant ≠ none →
    maxChunkValueBytes ∣ lease.valueByteOff
  consistent : ∃ resident' recycled', Consistent g contents strict after
    (update (update held leases (response.lease.map Lease.block)) reservation
      (response.grant.map PutGrant.block)) resident' recycled'

namespace Consistent

variable [DecidableEq ι]

/-- PUT prepare.

Proof: the checks and the selection change nothing that the lists do not record.
Once a slot is reserved, the block of the PUT comes from the lease or from an
allocation, which evicts committed entries only; a refusal returns the slot, a
grant attempts one more allocation for the next lease. -/
theorem prepare (inv : Consistent g contents strict dir held resident recycled)
    {leases reservation : ι} {policy : LeasePolicy} {previousOrder : Option Nat}
    {req : PutPrepareRequest} (unreserved : dir.reservedSlot = none)
    (apart : reservation ≠ leases) (owns : held leases = req.lease.map Lease.block)
    (idle : held reservation = none)
    (bound : req.bind = true → ∃ lease, req.lease = some lease ∧
      maxChunkValueBytes ∣ lease.valueByteOff ∧
      lease.buddyOrder = buddyOrderForUnits (chunkCountFor req.totalLen)) :
    Prepares g contents strict dir held reservation leases req
      (putPrepare g policy previousOrder req dir).1
      (putPrepare g policy previousOrder req dir).2.1 := by
  have unchanged : Prepares g contents strict dir held reservation leases req dir
      ⟨none, req.lease⟩ := by
    refine ⟨Or.inl ⟨rfl, rfl⟩, unreserved, fun _ impossible => (nomatch impossible),
      fun _ _ impossible => absurd rfl impossible, resident, recycled, ?_⟩
    have same : update (update held leases (req.lease.map Lease.block)) reservation none = held := by
      rw [← owns, update_eq_self, ← idle, update_eq_self]
    rw [Option.map_none, same]
    exact inv
  unfold putPrepare
  dsimp only
  split
  · next checked =>
    obtain ⟨keyPositive, keyBounded, lenPositive, _⟩ := checked
    split
    · next middle selected =>
      rw [selectSlot_none selected]
      exact unchanged
    · next middle slot selected =>
      obtain ⟨displaced, resident₁, recycled₁, reserved⟩ := inv.select unreserved selected
      have isReserved := (reserveSlot_frame g slot middle).1
      have taking := reserved.takePutBlock slot apart owns idle fun isBind => by
        obtain ⟨lease, same, _, sized⟩ := bound isBind
        exact ⟨lease, same, sized⟩
      split
      · next taken outcome =>
        rw [outcome] at taking
        obtain ⟨resident₂, consistent⟩ := taking.consistent
        have stillReserved : taken.reservedSlot = some slot :=
          taking.demoted.reservedSlot.trans isReserved
        have displaced' := displaced.demote taking.demoted
        refine ⟨Or.inr ⟨slot, ?_, Or.inr rfl⟩, rfl, fun _ impossible => (nomatch impossible),
          fun _ _ impossible => absurd rfl impossible, resident₂, slot :: recycled₁, ?_⟩
        · exact ⟨displaced'.entry, displaced'.cleared, displaced'.allowed, displaced'.absent,
            displaced'.epoch, displaced'.queue⟩
        · have same : update (update held leases none) reservation none = update held leases none :=
            update_eq_self_iff.mpr (by simp [apart, idle])
          simp only [Option.map_none]
          rw [same]
          exact consistent.release stillReserved
      · next taken unit order outcome =>
        rw [outcome] at taking
        obtain ⟨resident₂, consistent⟩ := taking.consistent
        have sized := taking.sized unit order rfl
        have noLease : update (update held leases none) reservation (some ⟨unit, order⟩) leases =
            none := by
          rw [update_of_ne (Ne.symm apart), update_self]
        have leasing := fun canEvict => consistent.allocateCacheBlock
          (chunkCountFor req.totalLen) .putLease canEvict noLease (by simp)
        unfold takeNextLease
        dsimp only
        generalize (policy.canEvict && (!policy.evictOnRepeatOnly ||
          decide (previousOrder = some (buddyOrderForUnits (chunkCountFor req.totalLen))))) =
          canEvict
        have lease := leasing canEvict
        generalize Directory.allocateCacheBlock g (chunkCountFor req.totalLen) .putLease canEvict
          taken = result at lease ⊢
        obtain ⟨leased, block⟩ := result
        obtain ⟨resident₃, final⟩ := lease.consistent
        refine ⟨Or.inr ⟨slot, (displaced.demote taking.demoted).demote lease.demoted,
          Or.inl ⟨_, rfl, rfl⟩⟩, ?_, ?_, ?_, resident₃, recycled₁, ?_⟩
        · exact (lease.demoted.reservedSlot.trans taking.demoted.reservedSlot).trans isReserved
        · rintro _ ⟨⟩
          exact ⟨keyPositive, keyBounded, lenPositive, sized, Nat.dvd_mul_left _ _⟩
        · intro granted isLease _
          obtain ⟨⟨_, _⟩, _, rfl⟩ := Option.map_eq_some_iff.mp isLease
          exact Nat.dvd_mul_left _ _
        · have grantBlock : (PutGrant.block ⟨slot, order, unit * maxChunkValueBytes⟩) =
              ⟨unit, order⟩ := by
            simp only [PutGrant.block, unit_of_offset]
          rw [Option.map_some, grantBlock]
          cases block with
          | none =>
            simpa only [allocated, Option.map_none] using final
          | some pair =>
            obtain ⟨unit', order'⟩ := pair
            have leaseBlock : (Lease.block ⟨unit' * maxChunkValueBytes, order'⟩) =
                ⟨unit', order'⟩ := by
              simp only [Lease.block, unit_of_offset]
            simp only [allocated, Option.map_some, leaseBlock] at final ⊢
            rw [update_comm apart, update_idem] at final
            exact final
  · exact unchanged

end Consistent

end KvCache.Directory
