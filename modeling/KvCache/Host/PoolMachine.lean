import KvCache.Foundation.Chunked
import KvCache.Foundation.Run
import KvCache.Host.Pool
import KvCache.Protocol.Layout
import Mathlib.Logic.Function.Basic

/-!
# Host values over the life of the pool

The host worker reserves an extent of the pool for a value that is written through,
publishes the extent in the metadata record of the slot, waits until the device has
pushed the value, and keeps the extent as the host value of the slot. Without a free
extent the value goes to the host heap. Dropping a host value invalidates the record
and releases the extent; a write-through that is cancelled gives its extent back.

The record is four words, each written by a store of its own, and the device may read
it between any two of them. A step of the machine is therefore one store, one pushed
unit, or one change made under the mutex of the host values. Both host policies are
embedded: the internal worker drops the old value before it reserves and invalidates
unconditionally, the external one releases a lease when the last value that owns it
goes, which may be after a newer publication.

A directory entry remembers the generation that its write-through was acknowledged
with. It is committed from a received value at any later time.
-/

namespace KvCache.PoolMachine

open Layout Pool Function

/-- Where the policy over host values lives. -/
inductive HostPolicyMode where
  | internal
  | external
deriving DecidableEq, Repr

/-- The policy, the slots of the directory, the offset of the pool in the mapped
window and its units. -/
structure Config where
  mode : HostPolicyMode
  maxKeys : Nat
  poolReadOff : Nat
  poolUnits : Nat

/-- A mapped extent that backs a value. The index counts the publications of its slot. -/
structure Lease where
  slot : Nat
  poolUnit : Nat
  poolUnits : Nat
  readOff : Nat
  generation : Nat
  len : Nat
  index : Nat
deriving DecidableEq, Repr

/-- The units of a lease. -/
def Lease.extent (lease : Lease) : Extent := ⟨lease.poolUnit, lease.poolUnits⟩

/-- A host value: a mapped extent, or bytes on the host heap. -/
inductive HostValue where
  | mapped (lease : Lease)
  | heap (bytes : List UInt8)
deriving DecidableEq, Repr

/-- The metadata record of a slot. -/
structure PoolMeta where
  generationBegin : Nat
  readOff : Nat
  totalLen : Nat
  generationEnd : Nat
deriving DecidableEq, Repr

/-- A store to one word of a record. -/
inductive Store where
  | generationBegin (value : Nat)
  | readOff (value : Nat)
  | totalLen (value : Nat)
  | generationEnd (value : Nat)
deriving DecidableEq, Repr

/-- The record after a store. -/
def PoolMeta.write (record : PoolMeta) : Store → PoolMeta
  | .generationBegin value => { record with generationBegin := value }
  | .readOff value => { record with readOff := value }
  | .totalLen value => { record with totalLen := value }
  | .generationEnd value => { record with generationEnd := value }

/-- What the directory keeps of a write-through: the generation it was acknowledged
with, the length, the bytes, and the publication they belong to. -/
structure Entry where
  slot : Nat
  hostGeneration : Nat
  len : Nat
  bytes : List UInt8
  index : Nat
deriving DecidableEq, Repr

/-- What follows once a host value is dropped: nothing, a write-through to the slot,
the value received for the slot, or the write-through that was waiting. -/
inductive AfterDrop where
  | done
  | reserve (value : List UInt8)
  | replace (value : List UInt8)
  | resume (slot : Nat) (value : List UInt8) (pushed : Nat)
deriving DecidableEq, Repr

/-- Where the worker stands. The stores still to be made are listed in order. -/
inductive Phase where
  | idle
  | dropping (slot : Nat) (stores : List Store) (next : AfterDrop)
  | publishing (slot : Nat) (value : List UInt8) (stores : List Store)
  | receiving (slot : Nat) (value : List UInt8) (pushed : Nat)
  | cancelling (slot : Nat) (stores : List Store)
  | closed
deriving DecidableEq, Repr

/-- The pool, the host values, the extent of the write-through in flight, the records,
the memory of the pool and the directory. How often a slot was published, and what was
published last, are kept to state what the records mean. -/
structure State where
  poolFree : List Extent
  poolUnitsTotal : Nat
  hostValues : Nat → Option HostValue
  reserved : Option Lease
  poolMeta : Nat → PoolMeta
  generations : Nat → Nat
  publications : Nat → Nat
  published : Nat → Option Lease
  memory : Nat → List UInt8
  entries : Nat → Option Entry
  received : List Entry
  phase : Phase
  stopped : Bool

variable (cfg : Config)

/-- The pool as one free extent, no host values, records of zeros. -/
def start : State where
  poolFree := if cfg.poolUnits = 0 then [] else [⟨0, cfg.poolUnits⟩]
  poolUnitsTotal := cfg.poolUnits
  hostValues := fun _ => none
  reserved := none
  poolMeta := fun _ => ⟨0, 0, 0, 0⟩
  generations := fun _ => 0
  publications := fun _ => 0
  published := fun _ => none
  memory := fun _ => []
  entries := fun _ => none
  received := []
  phase := .idle
  stopped := false

/-! ## Records -/

/-- The stores that invalidate a record. -/
def invalidatePoolMeta : List Store :=
  [.generationBegin 0, .generationEnd 0, .readOff 0, .totalLen 0]

/-- The same for a record that still has the generation. -/
def invalidatePoolMetaIfGeneration (record : PoolMeta) (generation : Nat) : List Store :=
  if generation = 0 then []
  else if record.generationBegin ≠ generation ∨ record.generationEnd ≠ generation then []
  else invalidatePoolMeta

/-- The stores that publish a lease. -/
def publishPoolMeta (lease : Lease) : List Store :=
  [.generationBegin 0, .readOff lease.readOff, .totalLen lease.len,
    .generationEnd lease.generation, .generationBegin lease.generation]

/-- Make a store to the record of a slot. -/
def writeMeta (slot : Nat) (store : Store) (state : State) : State :=
  { state with poolMeta := update state.poolMeta slot ((state.poolMeta slot).write store) }

/-! ## Dropping a host value -/

/-- The stores made before the host value of a slot goes. The internal worker
invalidates for every value, a lease only its own generation. -/
def dropStores (slot : Nat) (state : State) : List Store :=
  match cfg.mode, state.hostValues slot with
  | _, none => []
  | .internal, some _ => invalidatePoolMeta
  | .external, some (.mapped lease) =>
    invalidatePoolMetaIfGeneration (state.poolMeta slot) lease.generation
  | .external, some (.heap _) => []

/-- Free extents after the extent of a lease is released. -/
def releaseExtent (lease : Lease) (free : List Extent) : List Extent :=
  if lease.poolUnits = 0 then free else poolRelease lease.extent free

/-- The lease of a host value. -/
def HostValue.lease : HostValue → Option Lease
  | .mapped lease => some lease
  | .heap _ => none

/-- Erase the host value of a slot and release its extent. -/
def eraseValue (slot : Nat) (state : State) : State :=
  { state with
    hostValues := update state.hostValues slot none
    poolFree :=
      match (state.hostValues slot).bind HostValue.lease with
      | some lease => releaseExtent lease state.poolFree
      | none => state.poolFree }

/-! ## Write-through -/

/-- Reserve an extent and begin to publish it, or fall back to the heap. -/
def reserve (slot : Nat) (value : List UInt8) (prefersMapped : Bool) (state : State) : State :=
  let units := chunkCountFor value.length
  match if prefersMapped = false ∨ units = 0 then none else poolAlloc units state.poolFree with
  | none => { state with phase := .receiving slot value 0 }
  | some (unit, remaining) =>
    let generation := nextPoolGeneration (state.generations slot)
    let lease : Lease :=
      ⟨slot, unit, units, cfg.poolReadOff + unit * maxChunkValueBytes, generation, value.length,
        state.publications slot + 1⟩
    { state with
      poolFree := remaining
      reserved := some lease
      generations := update state.generations slot generation
      publications := update state.publications slot (state.publications slot + 1)
      phase := .publishing slot value (publishPoolMeta lease) }

/-- Keep the received value as the host value of the slot. -/
def keepValue (slot : Nat) (value : List UInt8) (state : State) : State :=
  match state.reserved with
  | some lease =>
    { state with
      hostValues := update state.hostValues slot (some (.mapped lease))
      reserved := none
      received := ⟨slot, lease.generation, value.length, value, lease.index⟩ :: state.received
      phase := .idle }
  | none =>
    { state with
      hostValues := update state.hostValues slot (some (.heap value))
      received := ⟨slot, 0, value.length, value, 0⟩ :: state.received
      phase := .idle }

/-- Once the stores of a drop are made: release the extent and go on. -/
def finishDrop (slot : Nat) (next : AfterDrop) (state : State) : State :=
  match next with
  | .done => { eraseValue slot state with phase := .idle }
  | .reserve value => reserve cfg slot value true (eraseValue slot state)
  | .replace value => keepValue slot value (eraseValue slot state)
  | .resume waiting value pushed =>
    { eraseValue slot state with phase := .receiving waiting value pushed }

/-- After the last store of a publication the device may push. -/
def finishPublish (slot : Nat) (value : List UInt8) (state : State) : State :=
  { state with
    published := update state.published slot state.reserved
    phase := .receiving slot value 0 }

/-- Give the reserved extent back; the worker stops. -/
def finishCancel (state : State) : State :=
  { state with
    poolFree :=
      match state.reserved with
      | some lease => releaseExtent lease state.poolFree
      | none => state.poolFree
    reserved := none
    phase := .idle
    stopped := true }

/-- One store, or what follows the last one. -/
def advance (state : State) : Option State :=
  match state.phase with
  | .dropping slot (store :: rest) next =>
    some { writeMeta slot store state with phase := .dropping slot rest next }
  | .dropping slot [] next => some (finishDrop cfg slot next state)
  | .publishing slot value [store] => some (finishPublish slot value (writeMeta slot store state))
  | .publishing slot value (store :: rest) =>
    some { writeMeta slot store state with phase := .publishing slot value rest }
  | .cancelling slot (store :: rest) =>
    some { writeMeta slot store state with phase := .cancelling slot rest }
  | .cancelling _ [] => some (finishCancel state)
  | _ => none

/-- The device pushes the next unit of the value into the reserved extent. -/
def push (state : State) : Option State :=
  match state.phase, state.reserved with
  | .receiving slot value pushed, some lease =>
    if pushed < lease.poolUnits then
      some { state with
        memory := update state.memory (lease.poolUnit + pushed)
          (Chunked.chunkAt maxChunkValueBytes value pushed)
        phase := .receiving slot value (pushed + 1) }
    else none
  | _, _ => none

/-- The device is done, or the heap copy is read. An older external host value is
dropped as the new one takes its place. -/
def complete (state : State) : Option State :=
  match state.phase with
  | .receiving slot value pushed =>
    if state.reserved.isSome ∧ pushed ≠ chunkCountFor value.length then none
    else if cfg.mode = .external ∧ (state.hostValues slot).isSome then
      some { state with phase := .dropping slot (dropStores cfg slot state) (.replace value) }
    else some (keepValue slot value state)
  | _ => none

/-! ## Failures -/

/-- The worker is told to stop, or the lease object cannot be allocated. -/
def cancel (state : State) : Option State :=
  match state.phase with
  | .receiving slot _ _ =>
    if state.reserved.isSome then some { state with phase := .cancelling slot invalidatePoolMeta }
    else some { state with phase := .idle, stopped := true }
  | _ => none

/-- The lease object is destroyed before a host value owns it. -/
def abandon (state : State) : Option State :=
  match state.phase, state.reserved with
  | .receiving slot _ _, some lease =>
    some { state with
      phase := .cancelling slot
        (invalidatePoolMetaIfGeneration (state.poolMeta slot) lease.generation) }
  | _, _ => none

/-- An exception of a device access or of the publication leaves the write-through. -/
def throw (state : State) : Option State :=
  match state.phase with
  | .publishing _ _ _ | .receiving _ _ _ =>
    some { state with reserved := none, phase := .idle, stopped := true }
  | _ => none

/-! ## The machine -/

/-- What may happen next. -/
inductive Action where
  | erase (slot : Nat)
  | writeThrough (slot : Nat) (value : List UInt8) (prefersMapped : Bool)
  | advance
  | push
  | complete
  | cancel
  | abandon
  | throw
  | commit (entry : Entry)
  | forget (slot : Nat)
  | close
deriving DecidableEq, Repr

/-- No host value of a slot is mapped. -/
def Unleased (state : State) : Prop :=
  ∀ slot < cfg.maxKeys, (state.hostValues slot).bind HostValue.lease = none

instance (state : State) : Decidable (Unleased cfg state) :=
  inferInstanceAs (Decidable (∀ slot < cfg.maxKeys, _ = none))

/-- Drop the host value of a slot. A lease may also go while a write-through waits for
the device, or after the worker stopped. -/
def erase (slot : Nat) (state : State) : Option State :=
  match state.phase with
  | .idle =>
    if state.stopped = true ∧ cfg.mode = .internal then none
    else some { state with phase := .dropping slot (dropStores cfg slot state) .done }
  | .receiving waiting value pushed =>
    if cfg.mode = .internal then none
    else some { state with
      phase := .dropping slot (dropStores cfg slot state) (.resume waiting value pushed) }
  | _ => none

/-- Begin a write-through. -/
def writeThrough (slot : Nat) (value : List UInt8) (prefersMapped : Bool) (state : State) :
    Option State :=
  if state.phase = .idle ∧ state.stopped = false ∧ slot < cfg.maxKeys then
    match cfg.mode with
    | .internal =>
      some { state with phase := .dropping slot (dropStores cfg slot state) (.reserve value) }
    | .external => some (reserve cfg slot value prefersMapped state)
  else none

/-- Release everything. The external runtime refuses while a lease is out. -/
def close (state : State) : Option State :=
  if state.phase = .idle ∧ (cfg.mode = .external → Unleased cfg state) then
    some { state with
      poolFree := []
      poolUnitsTotal := 0
      hostValues := fun _ => none
      entries := fun _ => none
      received := []
      phase := .closed }
  else none

/-- One step. -/
def step (state : State) : Action → Option State
  | .erase slot => erase cfg slot state
  | .writeThrough slot value prefersMapped => writeThrough cfg slot value prefersMapped state
  | .advance => advance cfg state
  | .push => push state
  | .complete => complete cfg state
  | .cancel => cancel state
  | .abandon => abandon state
  | .throw => throw state
  | .commit entry =>
    if entry ∈ state.received then
      some { state with entries := update state.entries entry.slot (some entry) }
    else none
  | .forget slot => some { state with entries := update state.entries slot none }
  | .close => close cfg state

/-- The device's check before it serves a value in place: the read offset if the record
has the generation of the directory entry. -/
def directPoolServe (state : State) (slot : Nat) : Option Nat :=
  (state.entries slot).bind fun entry =>
    let record := state.poolMeta slot
    if entry.hostGeneration ≠ 0 ∧ record.generationBegin = entry.hostGeneration ∧
        record.generationEnd = entry.hostGeneration ∧ record.readOff ≠ 0 ∧
        record.totalLen = entry.len then
      some record.readOff
    else none

/-- One step, as a step of a run. It shows nothing to the outside. -/
def move (state : State) (action : Action) : Option (State × List Empty) :=
  (step cfg state action).map fun after => (after, [])

end KvCache.PoolMachine
