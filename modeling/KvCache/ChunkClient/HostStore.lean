import KvCache.Foundation.LruMap
import Mathlib.Logic.Function.Basic

/-!
# The dictionary of retained chunks

With the host and the local backend a chunk is kept in a dictionary of the process, as raw
buffers or as K and V tensors for each layer. The entries are ordered by use, and a store
evicts above the capacity. The local backend of a single-device model keeps the tensors on
the device.

A tensor is released when it is deallocated, or when the last reference to it is dropped.
References are held by the dictionary and by the list of the caches of the model. A log
lists the tensors in the order of their release.
-/

namespace KvCache.HostStore

open LruMap

universe u v
variable {Key : Type u} {Bytes : Type v}

/-- A tensor or a buffer. -/
structure Tensor (Bytes : Type v) where
  content : Bytes
  onDevice : Bool
  allocated : Bool

/-- An entry of the dictionary names its tensors. -/
inductive Entry where
  | raw (buffers : List Nat)
  | tensors (kList vList : List Nat)
deriving DecidableEq

/-- The tensors of an entry. -/
def Entry.ids : Entry → List Nat
  | .raw buffers => buffers
  | .tensors kList vList => kList ++ vList

/-- The tensors of all entries. -/
def storeIds (entries : Entries Key Entry) : List Nat := entries.flatMap fun entry => entry.2.ids

/-- The bytes of a chunk. -/
inductive Stored (Bytes : Type v) where
  | raw (buffers : List Bytes)
  | tensors (kList vList : List Bytes)
deriving DecidableEq

/-- The bytes were stored as raw buffers. -/
def Stored.isRaw : Stored Bytes → Bool
  | .raw _ => true
  | .tensors _ _ => false

/-- The medium of the dictionary. -/
inductive Backend where
  | host
  | «local»
deriving DecidableEq

/-- The model and the dictionary. `fill` is what a restore makes of the bytes of a cache
tensor when it writes some blocks into it. -/
structure Config (Bytes : Type v) where
  backend : Backend
  dpSize : Nat
  tpSize : Nat
  numLayers : Nat
  hostStoreCap : Nat
  capPositive : 1 ≤ hostStoreCap
  fill : Bytes → List Bytes → Bytes

/-- The tensors of the process, the dictionary, the caches of the layers, the log of
releases and the tensors that were ever put into the dictionary. -/
structure State (Key : Type u) (Bytes : Type v) where
  heap : Nat → Tensor Bytes
  next : Nat
  hostStore : Entries Key Entry
  kvCaches : Nat → Nat × Nat
  released : List Nat
  entered : List Nat

/-- What a call does as its caller sees it. A hit carries the bytes that the returned
tensors hold, if all are allocated. -/
inductive Event (Key : Type u) (Bytes : Type v) where
  | stored (key : Key) (value : Stored Bytes)
  | hit (key : Key) (value : Option (Stored Bytes))
  | missed (key : Key)
  | refused (key : Key) (raw : Bool)
  | failed
  | exists (key : Key) (answer : Bool)
  | deleted (key : Key) (answer : Bool)
  | closed

variable (cfg : Config Bytes)

/-- The model runs on one device. -/
def Config.singleDevice : Bool := cfg.dpSize == 1 && cfg.tpSize == 1

/-- The slices of a chunk stay on the device. -/
def Config.putOndev : Bool := (cfg.backend == .local) && cfg.singleDevice

/-! ## Tensors -/

/-- Create tensors with the given contents. -/
def State.allocate (contents : List Bytes) (onDevice : Bool) (state : State Key Bytes) :
    List Nat × State Key Bytes :=
  (List.range' state.next contents.length,
    { state with
      heap := fun id => match contents[id - state.next]? with
        | some content => if state.next ≤ id then ⟨content, onDevice, true⟩ else state.heap id
        | none => state.heap id
      next := state.next + contents.length })

/-- Deallocate a tensor; one that is not allocated is left alone. -/
def State.deallocate (state : State Key Bytes) (id : Nat) : State Key Bytes :=
  if (state.heap id).allocated then
    { state with
      heap := Function.update state.heap id { state.heap id with allocated := false }
      released := state.released ++ [id] }
  else state

/-- Deallocate tensors in order. -/
def State.deallocateAll (ids : List Nat) (state : State Key Bytes) : State Key Bytes :=
  ids.foldl State.deallocate state

/-- The tensor is the cache of a layer. -/
def Config.isCache (state : State Key Bytes) (id : Nat) : Bool :=
  (List.range cfg.numLayers).any fun layer =>
    (state.kvCaches layer).1 == id || (state.kvCaches layer).2 == id

/-- Drop the references of an entry; a tensor that is no cache is released with the last one. -/
def Config.dropReferences (ids : List Nat) (state : State Key Bytes) : State Key Bytes :=
  state.deallocateAll (ids.filter fun id => !cfg.isCache state id)

/-- The bytes of some tensors, if all are allocated. -/
def State.read (state : State Key Bytes) (ids : List Nat) : Option (List Bytes) :=
  ids.mapM fun id => if (state.heap id).allocated then some (state.heap id).content else none

/-- The bytes of an entry, if all its tensors are allocated. -/
def State.contents (state : State Key Bytes) : Entry → Option (Stored Bytes)
  | .raw buffers => (state.read buffers).map .raw
  | .tensors kList vList =>
    (state.read kList).bind fun k => (state.read vList).map fun v => .tensors k v

section

variable [DecidableEq Key]

/-! ## Store, lookup and removal -/

/-- Deallocate the tensors of an entry; raw buffers are left to the collector. -/
def freeHostEntry (entry : Entry) (state : State Key Bytes) : State Key Bytes :=
  match entry with
  | .raw _ => state
  | .tensors kList vList => state.deallocateAll (kList ++ vList)

/-- Free an entry and drop the references to it. -/
def Config.discard (state : State Key Bytes) (entry : Key × Entry) : State Key Bytes :=
  cfg.dropReferences entry.2.ids (freeHostEntry entry.2 state)

/-- Set the entry of a key, make it the most recent and evict above the capacity. -/
def Config.putEntry (key : Key) (entry : Entry) (state : State Key Bytes) : State Key Bytes :=
  let replaced := match state.hostStore.lookup key with
    | some old => cfg.dropReferences old.ids state
    | none => state
  let after := (evicted cfg.hostStoreCap key entry state.hostStore).foldl cfg.discard replaced
  { after with hostStore := LruMap.insert cfg.hostStoreCap key entry state.hostStore }

/-- Store raw buffers. -/
def Config.putChunkRaw (key : Key) (buffers : List Bytes) (state : State Key Bytes) :
    State Key Bytes :=
  let (ids, allocated) := state.allocate buffers false
  cfg.putEntry key (.raw ids) { allocated with entered := allocated.entered ++ ids }

/-- Store the slices of the layers; a chunk without layers is not stored. -/
def Config.putChunkCoalesced (key : Key) (layers : List (Bytes × Bytes))
    (state : State Key Bytes) : State Key Bytes :=
  if layers.length = 0 then state
  else
    let (kIds, kAllocated) := state.allocate (layers.map Prod.fst) cfg.putOndev
    let (vIds, allocated) := kAllocated.allocate (layers.map Prod.snd) cfg.putOndev
    cfg.putEntry key (.tensors kIds vIds)
      { allocated with entered := allocated.entered ++ (kIds ++ vIds) }

/-- Remove a key; true if it was there. -/
def Config.delete (key : Key) (state : State Key Bytes) : Bool × State Key Bytes :=
  match state.hostStore.lookup key with
  | none => (false, state)
  | some old =>
    (true, { cfg.dropReferences old.ids state with hostStore := erase key state.hostStore })

/-- Free every entry and clear the dictionary. -/
def Config.freeHostStore (state : State Key Bytes) : State Key Bytes :=
  { state.hostStore.foldl cfg.discard state with hostStore := [] }

/-! ## Load and restore -/

/-- How a lookup of a chunk ends. -/
inductive Got where
  | miss
  | raised
  | hit (entry : Entry)

/-- Look a chunk up as raw buffers or as tensors; the other kind raises. -/
def State.getChunk (raw : Bool) (key : Key) (state : State Key Bytes) : Got × State Key Bytes :=
  match state.hostStore.lookup key with
  | none => (.miss, state)
  | some (.raw buffers) =>
    if raw then (.hit (.raw buffers), { state with hostStore := touch key state.hostStore })
    else (.raised, state)
  | some (.tensors kList vList) =>
    if raw then (.raised, state)
    else (.hit (.tensors kList vList), { state with hostStore := touch key state.hostStore })

/-- What the caller sees of a lookup. -/
def State.gotEvent (raw : Bool) (key : Key) (state : State Key Bytes) : Got → Event Key Bytes
  | .miss => .missed key
  | .raised => .refused key raw
  | .hit entry => .hit key (state.contents entry)

/-- Write blocks into the caches of a layer. -/
def Config.writeCaches (layer : Nat) (blocks : List (Bytes × Bytes)) (state : State Key Bytes) :
    State Key Bytes :=
  let (k, v) := state.kvCaches layer
  { state with
    heap := fun id =>
      if id = k then
        { state.heap id with content := cfg.fill (state.heap id).content (blocks.map Prod.fst) }
      else if id = v then
        { state.heap id with content := cfg.fill (state.heap id).content (blocks.map Prod.snd) }
      else state.heap id }

/-- The tensors of a layer of the chunks that were found. -/
def layerBlocks (layer : Nat) (found : List Entry) : List (Nat × Nat) :=
  found.filterMap fun
    | .raw _ => none
    | .tensors kList vList => kList[layer]?.bind fun k => vList[layer]?.map fun v => (k, v)

/-- Fill the caches of a layer. On a single device, tensors that are on the device are the
inputs of the kernel themselves, others are copied; the inputs are deallocated. Copies are
not listed as tensors of their own. A deallocated tensor raises. -/
def Config.pagedFillLayerCoalesced (layer : Nat) (blocks : List (Nat × Nat))
    (state : State Key Bytes) : State Key Bytes × Bool :=
  let kDevs := blocks.map Prod.fst
  let vDevs := blocks.map Prod.snd
  match blocks, state.read kDevs, state.read vDevs with
  | [], _, _ => (state, true)
  | first :: _, some kBytes, some vBytes =>
    let filled := cfg.writeCaches layer (kBytes.zip vBytes) state
    (if cfg.singleDevice && (state.heap first.1).onDevice then
        filled.deallocateAll (kDevs ++ vDevs)
      else filled, true)
  | _, _, _ => (state, false)

/-- Fill the layers in order until one raises. -/
def Config.fillLayers (found : List Entry) : List Nat → State Key Bytes → State Key Bytes × Bool
  | [], state => (state, true)
  | layer :: rest, state =>
    match cfg.pagedFillLayerCoalesced layer (layerBlocks layer found) state with
    | (after, true) => fillLayers found rest after
    | (after, false) => (after, false)

/-- Look chunks up in order; one that raises ends the call. -/
def State.getChunks : List Key → State Key Bytes →
    Option (List Entry) × State Key Bytes × List (Event Key Bytes)
  | [], state => (some [], state, [])
  | key :: rest, state =>
    match state.getChunk false key with
    | (.raised, after) => (none, after, [state.gotEvent false key .raised])
    | (.miss, after) =>
      let (found, last, events) := getChunks rest after
      (found, last, state.gotEvent false key .miss :: events)
    | (.hit entry, after) =>
      let (found, last, events) := getChunks rest after
      (found.map (entry :: ·), last, state.gotEvent false key (.hit entry) :: events)

/-- Restore a batch of chunks stored as tensors: look all up, then fill layer by layer. -/
def Config.batchedToGpu (keys : List Key) (state : State Key Bytes) :
    State Key Bytes × List (Event Key Bytes) :=
  match state.getChunks keys with
  | (none, after, events) => (after, events)
  | (some found, after, events) =>
    match cfg.fillLayers found (List.range cfg.numLayers) after with
    | (last, true) => (last, events)
    | (last, false) => (last, events ++ [.failed])

/-- Write the buffers of a chunk into the caches, one for each layer that has one. -/
def Config.scatterChunk (buffers : List Bytes) (state : State Key Bytes) : State Key Bytes :=
  (buffers.take cfg.numLayers).zipIdx.foldl
    (fun state (bytes, layer) => cfg.writeCaches layer [(bytes, bytes)] state) state

/-- Restore a batch of chunks stored as raw buffers, one after the other. -/
def Config.batchedToGpuRaw : List Key → State Key Bytes → State Key Bytes × List (Event Key Bytes)
  | [], state => (state, [])
  | key :: rest, state =>
    match state.getChunk true key with
    | (.raised, after) => (after, [state.gotEvent true key .raised])
    | (.miss, after) =>
      let (last, events) := batchedToGpuRaw rest after
      (last, state.gotEvent true key .miss :: events)
    | (.hit entry, after) =>
      match after.read entry.ids with
      | none => (after, [state.gotEvent true key (.hit entry), .failed])
      | some bytes =>
        let (last, events) := batchedToGpuRaw rest (cfg.scatterChunk bytes after)
        (last, state.gotEvent true key (.hit entry) :: events)

/-- Replace the caches of a layer by the tensors of a chunk: the old caches are deallocated
first; tensors on the device are taken as they are, others are copied to it. -/
def hostTtnnLayerToDevice (layer : Nat) (k v : Nat) (state : State Key Bytes) :
    State Key Bytes × Bool :=
  let (kDev, vDev) := state.kvCaches layer
  let freed := (state.deallocate kDev).deallocate vDev
  match freed.read [k, v] with
  | none => (freed, false)
  | some bytes =>
    if (freed.heap k).onDevice then
      ({ freed with kvCaches := Function.update freed.kvCaches layer (k, v) }, true)
    else
      let after := (freed.allocate bytes true).2
      ({ after with
        kvCaches := Function.update after.kvCaches layer (freed.next, freed.next + 1) }, true)

/-- Replace the caches layer by layer until one raises. -/
def replaceLayers (entry : Entry) : List Nat → State Key Bytes → State Key Bytes × Bool
  | [], state => (state, true)
  | layer :: rest, state =>
    match layerBlocks layer [entry] with
    | [] => replaceLayers entry rest state
    | (k, v) :: _ =>
      match hostTtnnLayerToDevice layer k v state with
      | (after, true) => replaceLayers entry rest after
      | (after, false) => (after, false)

/-- Restore one chunk stored as tensors. -/
def Config.toGpu (key : Key) (state : State Key Bytes) :
    State Key Bytes × List (Event Key Bytes) :=
  match state.getChunk false key with
  | (.raised, after) => (after, [state.gotEvent false key .raised])
  | (.miss, after) => (after, [state.gotEvent false key .miss])
  | (.hit entry, after) =>
    match replaceLayers entry (List.range cfg.numLayers) after with
    | (last, true) => (last, [state.gotEvent false key (.hit entry)])
    | (last, false) => (last, [state.gotEvent false key (.hit entry), .failed])

/-! ## Calls -/

/-- A call of the client or of the connector. Restores of raw buffers and of tensors are
distinct calls; a single restore of raw buffers is a batch of one. -/
inductive Call (Key : Type u) (Bytes : Type v) where
  | putRaw (key : Key) (buffers : List Bytes)
  | put (key : Key) (layers : List (Bytes × Bytes))
  | restore (keys : List Key)
  | restoreRaw (keys : List Key)
  | toGpu (key : Key)
  | exists (key : Key)
  | delete (key : Key)
  | close

/-- The state after a call and what its caller saw. -/
def Config.step (state : State Key Bytes) :
    Call Key Bytes → Option (State Key Bytes × List (Event Key Bytes))
  | .putRaw key buffers => some (cfg.putChunkRaw key buffers state, [.stored key (.raw buffers)])
  | .put key layers =>
    some (cfg.putChunkCoalesced key layers state,
      if layers.length = 0 then []
      else [.stored key (.tensors (layers.map Prod.fst) (layers.map Prod.snd))])
  | .restore keys => some (cfg.batchedToGpu keys state)
  | .restoreRaw keys => some (cfg.batchedToGpuRaw keys state)
  | .toGpu key => some (cfg.toGpu key state)
  | .exists key => some (state, [.exists key (state.hostStore.lookup key).isSome])
  | .delete key => some ((cfg.delete key state).2, [.deleted key (cfg.delete key state).1])
  | .close => some (cfg.freeHostStore state, [.closed])

end

/-- The first state: the caches of the model are allocated, the dictionary is empty. -/
structure Config.Initial (state : State Key Bytes) : Prop where
  hostStore : state.hostStore = []
  released : state.released = []
  entered : state.entered = []
  allocated : ∀ id < state.next, (state.heap id).allocated = true
  caches : ∀ layer < cfg.numLayers,
    (state.kvCaches layer).1 < state.next ∧ (state.kvCaches layer).2 < state.next

/-! ## The bounded map -/

/-- What a map bounded by recency accepts: hits return the bytes of the last store, and no
restore fails. -/
def observe [DecidableEq Key] [DecidableEq Bytes] (capacity : Nat)
    (entries : Entries Key (Stored Bytes)) :
    Event Key Bytes → Option (Entries Key (Stored Bytes))
  | .stored key value => some (LruMap.insert capacity key value entries)
  | .hit key value =>
    if value.isSome ∧ entries.lookup key = value then some (touch key entries) else none
  | .missed key => if entries.lookup key = none then some entries else none
  | .refused key raw =>
    match entries.lookup key with
    | some value => if value.isRaw = !raw then some entries else none
    | none => none
  | .failed => none
  | .exists key answer => if answer = (entries.lookup key).isSome then some entries else none
  | .deleted key answer =>
    if answer = (entries.lookup key).isSome then some (erase key entries) else none
  | .closed => some []

end KvCache.HostStore
