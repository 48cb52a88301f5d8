import KvCache.Heap.Buddy
import KvCache.Directory.HashIndex
import KvCache.Directory.Residency

/-!
# The directory and its operations

A directory slot holds one value: its key, its length, the block of the value
heap it occupies and the tier it lives in. Beside the entries stand the hash
index, the block allocator, the residency list with the free list of slots, the
FIFO of published values that still lack a host copy, and two byte counters.

The functions are the parts of the scheduler loop that read and write these
words. They say nothing about requests, responses or the host; a part that ends
in a post to the host worker stops before the post. Directory words are natural
numbers; the access epoch alone is reduced to 32 bits, since it is the only word
that a long run can wrap.
-/

namespace KvCache.Directory

open AlignedBlock Buddy Function HashIndex Layout Residency

/-- The sizes of a deployment. -/
structure Geometry where
  maxKeys : Nat
  maxKeyLen : Nat
  maxValueBytes : Nat
  requestedHeapBytes : Nat
  someKey : 0 < maxKeys
  wireKey : maxKeyLen ≤ maxPutKeyBytes
  someValue : 0 < maxValueBytes

namespace Geometry

/-- Keys of eight bytes fit a wire request. -/
theorem eight_wire : 8 ≤ maxPutKeyBytes := by decide

variable (g : Geometry)

/-- Bytes of the value heap. -/
def valueHeapBytes : Nat := normalizeValueHeapBytes g.requestedHeapBytes g.maxValueBytes

/-- Units of the value heap. -/
def numHeapUnits : Nat := g.valueHeapBytes / maxChunkValueBytes

/-- Buckets of the hash index. -/
def numBuckets : Nat := hashNumBuckets g.maxKeys

end Geometry

/-- The tier of an entry. A published value stays pending until its host copy is
complete. -/
inductive Location where
  | device
  | host
  | devicePendingHost
deriving DecidableEq, Repr

/-- One directory entry. While the entry is pending the generation word holds the
token of the request that published it. -/
structure DirEntry where
  valid : Bool
  key : Key
  totalValueLen : Nat
  lastAccess : Nat
  valueByteOff : Nat
  hostGeneration : Nat
  location : Location
  blockOrder : Nat
deriving DecidableEq, Repr

/-- One pending-host FIFO item. -/
structure QueueItem where
  dirSlot : Nat
  pendingToken : Nat
deriving DecidableEq, Repr

/-- The directory with everything the scheduler keeps beside it. -/
structure State where
  entry : Nat → DirEntry
  buckets : Nat → Bucket
  heap : Heap
  catalog : Catalog
  reservedSlot : Option Nat
  epoch : Nat
  putHostQueue : List QueueItem
  liveDeviceBytes : Nat
  pendingDeviceBytes : Nat

/-- An entry that holds no value. -/
def clearedEntry : DirEntry := ⟨false, [], 0, 0, 0, 0, .device, 0⟩

/-- Cold start over the heap metadata that DRAM held before. -/
def coldDirectory (g : Geometry) (contents : Nat → HeapBlock) : State where
  entry := fun _ => clearedEntry
  buckets := fun _ => ⟨0, .empty⟩
  heap := seedHeap contents g.numHeapUnits
  catalog := coldCatalog
  reservedSlot := none
  epoch := 0
  putHostQueue := []
  liveDeviceBytes := 0
  pendingDeviceBytes := 0

/-- Bytes of a block of the given order. -/
def blockBytes (order : Nat) : Nat := maxChunkValueBytes * 2 ^ order

/-- The access epoch after one more access. -/
def nextEpoch (epoch : Nat) : Nat := (epoch + 1) % 2 ^ 32

/-- Revalidation of a candidate slot: the entry is valid and has the key. -/
def confirmEntry (dir : State) (key : Key) (slot : Nat) : Bool :=
  (dir.entry slot).valid && (dir.entry slot).key == key

/-- Slot of a key. -/
def dirLookup (g : Geometry) (key : Key) (dir : State) : Option Nat :=
  hashmapLookup g.numBuckets (fnv1aHash key) (confirmEntry dir key) dir.buckets

/-! ## Eviction and allocation -/

/-- Whether an entry may lose its block: the host copy is complete. -/
def evictable (dir : State) (slot : Nat) : Bool :=
  (dir.entry slot).valid && (dir.entry slot).location == .device

/-- Drop the block of a committed device entry. -/
def evictCachedBlock (g : Geometry) (slot : Nat) (dir : State) : Option State :=
  if evictable dir slot then
    some { dir with
      entry := update dir.entry slot { dir.entry slot with location := .host }
      catalog := residencyLruRemove slot dir.catalog
      heap := buddyFree ((dir.entry slot).valueByteOff / maxChunkValueBytes)
        (dir.entry slot).blockOrder g.numHeapUnits dir.heap
      liveDeviceBytes := dir.liveDeviceBytes - blockBytes (dir.entry slot).blockOrder }
  else none

/-- One attempt: the byte counter leaves room and the allocator has a block. -/
def tryAllocate (g : Geometry) (units : Nat) (owner : BlockState) (dir : State) :
    Option (State × Nat × Nat) :=
  if dir.liveDeviceBytes ≤ g.valueHeapBytes - blockBytes (buddyOrderForUnits units) then
    (buddyAllocate units owner dir.heap).map fun (heap, unit, order) =>
      ({ dir with heap := heap }, unit, order)
  else none

/-- Attempts with one eviction between two of them. -/
def allocateFrom (g : Geometry) (units : Nat) (owner : BlockState) (allowEviction : Bool) :
    Nat → State → State × Option (Nat × Nat)
  | attempts, dir =>
    match tryAllocate g units owner dir with
    | some (after, unit, order) => (after, some (unit, order))
    | none =>
      match attempts with
      | 0 => (dir, none)
      | remaining + 1 =>
        if allowEviction then
          match findOldestDeviceVictim (evictable dir) dir.catalog with
          | none => (dir, none)
          | some victim =>
            match evictCachedBlock g victim dir with
            | none => (dir, none)
            | some evicted => allocateFrom g units owner allowEviction remaining evicted
        else (dir, none)

/-- Allocate a block of the value heap, evicting the least recently used
committed entries if allowed. -/
def allocateCacheBlock (g : Geometry) (units : Nat) (owner : BlockState) (allowEviction : Bool)
    (dir : State) : State × Option (Nat × Nat) :=
  if units = 0 ∨ g.numHeapUnits < units then (dir, none)
  else if g.valueHeapBytes < blockBytes (buddyOrderForUnits units) then (dir, none)
  else allocateFrom g units owner allowEviction g.maxKeys dir

/-- Return a block that no entry names. -/
def freeBlock (g : Geometry) (valueByteOff order : Nat) (dir : State) : State :=
  { dir with heap := buddyFree (valueByteOff / maxChunkValueBytes) order g.numHeapUnits dir.heap }

/-! ## Access stamps and admission -/

/-- Take the next access epoch. -/
def advanceEpoch (dir : State) : State := { dir with epoch := nextEpoch dir.epoch }

/-- Stamp an entry. -/
def persistGetAccessStamp (slot accessEpoch : Nat) (dir : State) : State :=
  { dir with entry := update dir.entry slot { dir.entry slot with lastAccess := accessEpoch } }

/-- Whether a slot still holds the host entry that a request found. -/
def hostEntryIs (dir : State) (slot totalLen : Nat) : Bool :=
  (dir.entry slot).valid && (dir.entry slot).location == .host &&
    (dir.entry slot).totalValueLen == totalLen

/-- Stamp a host entry that is still the one found. -/
def persistHostGetAccessStampIfCurrent (slot totalLen accessEpoch : Nat) (dir : State) :
    State :=
  if hostEntryIs dir slot totalLen then persistGetAccessStamp slot accessEpoch dir else dir

/-- Record the access of a device entry. -/
def recordDeviceHit (slot accessEpoch : Nat) (dir : State) : State :=
  { persistGetAccessStamp slot accessEpoch dir with
    catalog := residencyLruTouch slot dir.catalog }

/-- Make a host entry device-resident in a filled block, unless the slot changed
meanwhile. -/
def commitHostGetAdmission (slot valueByteOff totalLen order accessEpoch : Nat)
    (dir : State) : State × Bool :=
  if hostEntryIs dir slot totalLen then
    ({ dir with
      entry := update dir.entry slot
        { dir.entry slot with
          valueByteOff := valueByteOff
          location := .device
          blockOrder := order
          lastAccess := accessEpoch }
      catalog := residencyLruInsertMru slot dir.catalog
      liveDeviceBytes := dir.liveDeviceBytes + blockBytes order }, true)
  else (dir, false)

/-- Finish an explicit promotion: admit the entry under a fresh epoch, or return
the block if the slot changed meanwhile. -/
def finishPromotion (g : Geometry) (slot valueByteOff totalLen order : Nat) (dir : State) :
    State :=
  if hostEntryIs dir slot totalLen then
    (commitHostGetAdmission slot valueByteOff totalLen order (nextEpoch dir.epoch)
      (advanceEpoch dir)).1
  else freeBlock g valueByteOff order dir

/-! ## PUT -/

/-- A block retained for the next PUT of a client. -/
structure Lease where
  valueByteOff : Nat
  buddyOrder : Nat
deriving DecidableEq, Repr

/-- The prepare request: the bind flag, the key, the value length and the lease
words of the client. -/
structure PutPrepareRequest where
  bind : Bool
  key : Key
  totalLen : Nat
  lease : Option Lease
deriving DecidableEq, Repr

/-- The slot and the block granted to a PUT. -/
structure PutGrant where
  dirSlot : Nat
  blockOrder : Nat
  valueByteOff : Nat
deriving DecidableEq, Repr

/-- The prepare response: the grant, if any, and the lease the client holds
afterwards. -/
structure PutPrepareResponse where
  grant : Option PutGrant
  lease : Option Lease
deriving DecidableEq, Repr

/-- Build flags of the lease policy. -/
structure LeasePolicy where
  canEvict : Bool
  evictOnRepeatOnly : Bool
deriving DecidableEq, Repr

/-- Whether a full catalog may give up an entry: it is valid and not pending. -/
def replaceable (dir : State) (slot : Nat) : Bool :=
  (dir.entry slot).valid && (dir.entry slot).location != .devicePendingHost

/-- One round of the catalog scan: keep the older of the best so far and a
committed entry. Ages are 32-bit differences. -/
def considerOldest (dir : State) (oldest : Option (Nat × Nat)) (slot : Nat) :
    Option (Nat × Nat) :=
  if replaceable dir slot then
    let age := (dir.epoch + 2 ^ 32 - (dir.entry slot).lastAccess) % 2 ^ 32
    match oldest with
    | none => some (slot, age)
    | some (best, oldestAge) => if oldestAge < age then some (slot, age) else some (best, oldestAge)
  else oldest

/-- The committed entry that was not accessed for the longest time. -/
def oldestCommitted (g : Geometry) (dir : State) : Option Nat :=
  ((List.range g.maxKeys).foldl (considerOldest dir) none).map Prod.fst

/-- Choose the slot of a PUT: that of its key unless it is pending, else a free
one, else the oldest committed one. -/
def selectSlot (g : Geometry) (key : Key) (dir : State) : State × Option Nat :=
  match dirLookup g key dir with
  | some slot =>
    if (dir.entry slot).location = .devicePendingHost then (dir, none) else (dir, some slot)
  | none =>
    match catalogClaimFreeSlot g.maxKeys dir.catalog with
    | some (slot, catalog) => ({ dir with catalog := catalog }, some slot)
    | none => (dir, oldestCommitted g dir)

/-- Invalidate the entry of a slot with its bucket and, if it is resident, its
block. -/
def eraseEntry (g : Geometry) (slot : Nat) (dir : State) : State :=
  let unindexed := { dir with
    buckets := hashmapDelete g.numBuckets (fnv1aHash (dir.entry slot).key) slot dir.buckets
    entry := update dir.entry slot { dir.entry slot with valid := false } }
  if (dir.entry slot).location = .host then unindexed
  else
    { unindexed with
      catalog := residencyLruRemove slot dir.catalog
      heap := buddyFree ((dir.entry slot).valueByteOff / maxChunkValueBytes)
        (dir.entry slot).blockOrder g.numHeapUnits dir.heap
      liveDeviceBytes := dir.liveDeviceBytes - blockBytes (dir.entry slot).blockOrder
      pendingDeviceBytes :=
        if (dir.entry slot).location = .devicePendingHost then
          dir.pendingDeviceBytes - blockBytes (dir.entry slot).blockOrder
        else dir.pendingDeviceBytes }

/-- Reserve a slot for a PUT, invalidating what it holds. -/
def reserveSlot (g : Geometry) (slot : Nat) (dir : State) : State :=
  let reserved := { dir with reservedSlot := some slot }
  if (dir.entry slot).valid then eraseEntry g slot reserved else reserved

/-- Return the slot of a refused PUT. -/
def releaseSlot (slot : Nat) (dir : State) : State :=
  { dir with catalog := catalogReleaseFreeSlot slot dir.catalog, reservedSlot := none }

/-- Hand the lease to the slot. -/
def bindLease (slot : Nat) (lease : Lease) (dir : State) : State :=
  { dir with
    heap := writeHeapBlock (lease.valueByteOff / maxChunkValueBytes)
      ⟨.slot slot, lease.buddyOrder, none, none⟩ dir.heap }

/-- Bytes of the block of a PUT. -/
def needBlockBytes (totalLen : Nat) : Nat :=
  if chunkCountFor totalLen = 0 then 0 else blockBytes (buddyOrderForUnits (chunkCountFor totalLen))

/-- Whether pending values leave no room for the block and a lease of its size. -/
def pendingBlocksNextLease (g : Geometry) (needBytes : Nat) (dir : State) : Bool :=
  !dir.putHostQueue.isEmpty && needBytes != 0 && decide (needBytes ≤ g.valueHeapBytes) &&
    decide (needBytes ≤ g.valueHeapBytes - needBytes) &&
    decide (g.valueHeapBytes - needBytes - needBytes < dir.pendingDeviceBytes)

/-- The block of a PUT: the bound lease, or after returning an unbound one a fresh
block. -/
def takePutBlock (g : Geometry) (slot units : Nat) (req : PutPrepareRequest) (dir : State) :
    State × Option (Nat × Nat) :=
  match req.bind, req.lease with
  | true, some lease =>
    (bindLease slot lease dir, some (lease.valueByteOff / maxChunkValueBytes, lease.buddyOrder))
  | true, none => (dir, none)
  | false, some lease =>
    allocateCacheBlock g units (.slot slot) true (freeBlock g lease.valueByteOff lease.buddyOrder dir)
  | false, none => allocateCacheBlock g units (.slot slot) true dir

/-- The lease for the next PUT of the same size. -/
def takeNextLease (g : Geometry) (policy : LeasePolicy) (previousOrder : Option Nat)
    (units : Nat) (dir : State) : State × Option Lease :=
  let repeated := previousOrder = some (buddyOrderForUnits units)
  let canEvict := policy.canEvict && (!policy.evictOnRepeatOnly || decide repeated)
  let (after, block) := allocateCacheBlock g units .putLease canEvict dir
  (after, block.map fun (unit, order) => ⟨unit * maxChunkValueBytes, order⟩)

/-- PUT prepare. The last component is the order of the block, remembered for the
lease policy. -/
def putPrepare (g : Geometry) (policy : LeasePolicy) (previousOrder : Option Nat)
    (req : PutPrepareRequest) (dir : State) : State × PutPrepareResponse × Option Nat :=
  let units := chunkCountFor req.totalLen
  if 0 < req.key.length ∧ req.key.length ≤ g.maxKeyLen ∧ 0 < req.totalLen ∧
      pendingBlocksNextLease g (needBlockBytes req.totalLen) dir = false then
    match selectSlot g req.key dir with
    | (selected, none) => (selected, ⟨none, req.lease⟩, previousOrder)
    | (selected, some slot) =>
      match takePutBlock g slot units req (reserveSlot g slot selected) with
      | (taken, none) => (releaseSlot slot taken, ⟨none, none⟩, previousOrder)
      | (taken, some (unit, order)) =>
        let (leased, lease) := takeNextLease g policy previousOrder units taken
        (leased, ⟨some ⟨slot, order, unit * maxChunkValueBytes⟩, lease⟩, some order)
  else (dir, ⟨none, req.lease⟩, previousOrder)

/-- The publish request: the granted slot and block, the token, the length, and
the key. -/
structure PutPublishRequest where
  dirSlot : Nat
  valueByteOff : Nat
  blockOrder : Nat
  pendingToken : Nat
  totalLen : Nat
  key : Key
deriving DecidableEq, Repr

/-- The pending entry of a publication. -/
def pendingEntry (req : PutPublishRequest) (accessEpoch : Nat) : DirEntry where
  valid := true
  key := req.key
  totalValueLen := req.totalLen
  lastAccess := accessEpoch
  valueByteOff := req.valueByteOff
  hostGeneration := req.pendingToken
  location := .devicePendingHost
  blockOrder := req.blockOrder

/-- Publish a landed value as a pending entry; unless its tail is still streaming,
queue it for write-through. -/
def publishPendingPut (g : Geometry) (streamTailPending : Bool) (req : PutPublishRequest)
    (dir : State) : Option State :=
  if streamTailPending = false ∧ dir.putHostQueue.length = g.maxKeys then none
  else
    some { dir with
      entry := update dir.entry req.dirSlot (pendingEntry req (nextEpoch dir.epoch))
      epoch := nextEpoch dir.epoch
      buckets := hashmapInsert g.numBuckets (fnv1aHash req.key) req.dirSlot dir.buckets
      catalog := residencyLruInsertMru req.dirSlot dir.catalog
      liveDeviceBytes := dir.liveDeviceBytes + blockBytes req.blockOrder
      pendingDeviceBytes := dir.pendingDeviceBytes + blockBytes req.blockOrder
      putHostQueue :=
        if streamTailPending then dir.putHostQueue
        else dir.putHostQueue ++ [⟨req.dirSlot, req.pendingToken⟩] }

/-- PUT publish: the checks of the request, then the publication, which ends the
reservation. -/
def putPublish (g : Geometry) (streamMatches : Bool) (req : PutPublishRequest) (dir : State) :
    Option State :=
  if 0 < req.key.length ∧ req.key.length ≤ g.maxKeyLen ∧ 0 < req.totalLen ∧
      req.dirSlot < g.maxKeys ∧ dir.reservedSlot = some req.dirSlot then
    (publishPendingPut g streamMatches req dir).map fun published =>
      { published with reservedSlot := none }
  else none

/-- Whether a FIFO item still names the pending entry of its slot. -/
def freshItem (dir : State) (item : QueueItem) : Bool :=
  (dir.entry item.dirSlot).valid && (dir.entry item.dirSlot).location == .devicePendingHost &&
    (dir.entry item.dirSlot).hostGeneration == item.pendingToken

/-- Mark a pending entry committed under the generation of its host copy. -/
def commitEntry (slot hostGeneration : Nat) (dir : State) : State :=
  { dir with
    entry := update dir.entry slot
      { dir.entry slot with hostGeneration := hostGeneration, location := .device }
    pendingDeviceBytes := dir.pendingDeviceBytes - blockBytes (dir.entry slot).blockOrder }

/-- Consume the FIFO item at the head. -/
def popQueue (dir : State) : State := { dir with putHostQueue := dir.putHostQueue.tail }

/-! ## REMOVE -/

/-- REMOVE of a found key: invalidate the entry and queue its slot for reuse. -/
def removeEntry (g : Geometry) (slot : Nat) (dir : State) : State :=
  let erased := eraseEntry g slot dir
  { erased with catalog := catalogReleaseFreeSlot slot erased.catalog }

end KvCache.Directory
