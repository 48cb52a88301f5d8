import KvCache.Foundation.Worker
import KvCache.Host.PoolMachine
import KvCache.Host.PoolRelease
import KvCache.Host.ValueTransfer

/-!
# The move channel and the runtime under both host workers

The device posts one move request at a time and counts it. The host answers by writes
the device can see: words of the channel, the staging window, pages of the value heap.
The log of these writes, in order, is part of the state; the window is also kept as a
memory.

The device is an environment. What it pushes into the window, whether a wait ends
before the worker is told to stop, and what its banks hold are functions of the log.

The free list, the metadata records and their generations belong to the runtime, and
both workers use the same functions on them.
-/

namespace KvCache.HostTransfer

open Layout Pool PoolMachine Function Worker

/-! ## The channel -/

/-- Copy a value to the host. -/
def moveOpWriteThrough : Nat := 1

/-- Explicit admission to the device cache. -/
def moveOpDevicePromote : Nat := 2

/-- Drop the host copy of a removed slot. -/
def moveOpRemoveBacking : Nat := 3

/-- Stream a host value to a GET and admit it. -/
def moveOpHostServe : Nat := 4

/-- The slot of the channel. The key area is longer than any key. -/
structure MoveRequest where
  op : Nat
  slot : Nat
  valueByteOff : Nat
  totalLen : Nat
  keyLen : Nat
  keyArea : List UInt8
deriving DecidableEq, Repr

/-- The answer to a promote or a serve. What follows the key in its area is zero. -/
structure CommitRequest where
  slot : Nat
  newOff : Nat
  totalLen : Nat
  keyLen : Nat
  key : List UInt8
  stageReadOff : Nat
deriving DecidableEq, Repr

/-- A write of the host that the device can see. -/
inductive Effect where
  | evictAck (readOff generation : Nat)
  | evictAckSem (count : Nat)
  | stageProgress (chunks : Nat)
  | commitReq (request : CommitRequest)
  | commitReqSem (count : Nat)
  | stage (offset : Nat) (bytes : List UInt8)
  | heapWrite (write : BankWrite)
  | moveProcessed (count : Nat)
deriving DecidableEq, Repr

/-- The device: what the window holds after a push, whether a counter reaches what is waited
for before the worker is stopped, and what the banks hold in each pass of a read. -/
structure Device where
  push : List Effect → ByteMemory → ByteMemory
  evictDone : List Effect → Nat → Bool
  promoteDone : List Effect → Nat → Bool
  banks : List Effect → Nat → Banks

/-- The state both workers change through the same functions. -/
structure Runtime where
  poolFree : List Extent
  poolMeta : Nat → PoolMeta
  poolMetaGenerations : Nat → Nat
  window : ByteMemory
  effects : List Effect

variable (cfg : RuntimeConfig) (device : Device)

/-- The successor of a 32-bit counter. -/
def succ32 (count : Nat) : Nat := (count + 1) % 2 ^ 32

/-- Make a write. -/
def emit (effect : Effect) (runtime : Runtime) : Runtime :=
  { runtime with
    window :=
      match effect with
      | .stage offset bytes => runtime.window.write offset bytes
      | _ => runtime.window
    effects := runtime.effects ++ [effect] }

/-- Make writes in order. -/
def emitAll (effects : List Effect) (runtime : Runtime) : Runtime :=
  effects.foldl (fun runtime effect => emit effect runtime) runtime

/-! ## The pool -/

/-- Reserve units of the pool. -/
def poolAlloc (units : Nat) : Worker Runtime (Option Nat) := do
  let runtime ← current
  if cfg.poolHost = false ∨ units = 0 then pure none
  else
    match Pool.poolAlloc units runtime.poolFree with
    | none => pure none
    | some (unit, remaining) =>
      change fun runtime => { runtime with poolFree := remaining }
      pure (some unit)

/-- Give units back; the free list is what the checks left when they throw. -/
def poolRelease (unit units : Nat) : Worker Runtime Unit := do
  let runtime ← current
  match poolReleaseChecked cfg.poolUnitsTotal ⟨unit, units⟩ runtime.poolFree with
  | .returned free => change fun runtime => { runtime with poolFree := free }
  | .thrown free =>
    change fun runtime => { runtime with poolFree := free }
    fail

/-- Make stores to the record of a slot. -/
def storeMeta (slot : Nat) (stores : List Store) (runtime : Runtime) : Runtime :=
  { runtime with
    poolMeta := update runtime.poolMeta slot (stores.foldl PoolMeta.write (runtime.poolMeta slot)) }

/-- Invalidate the record of a slot. -/
def invalidateMeta (slot : Nat) : Worker Runtime Unit := do
  fatalUnless (slot < cfg.maxKeys)
  change (storeMeta slot invalidatePoolMeta)

/-- The same if the record still has the generation. -/
def invalidateMetaIfGeneration (slot generation : Nat) : Worker Runtime Unit := do
  if generation = 0 then pure ()
  else
    fatalUnless (slot < cfg.maxKeys)
    change fun runtime =>
      storeMeta slot (invalidatePoolMetaIfGeneration (runtime.poolMeta slot) generation) runtime

/-- Publish the record of a slot under a new generation. -/
def publishMeta (slot readOff totalLen : Nat) : Worker Runtime Nat := do
  fatalUnless (slot < cfg.maxKeys)
  let runtime ← current
  let generation := nextPoolGeneration (runtime.poolMetaGenerations slot)
  change fun runtime =>
    { runtime with
      poolMetaGenerations := update runtime.poolMetaGenerations slot generation }
  change (storeMeta slot [.generationBegin 0, .readOff readOff, .totalLen totalLen,
    .generationEnd generation, .generationBegin generation])
  pure generation

/-! ## Streaming -/

/-- Chunks of one block of a staged stream. -/
def stageBlockChunks : Nat := 64

/-- Copy a value block by block to the staging window and publish the chunks staged so far
after each. -/
def stageBlocks (source : List UInt8) (totalLen numChunks : Nat) : Nat → Nat → List Effect
  | 0, _ => []
  | blocks + 1, base =>
    let thisBlock := min stageBlockChunks (numChunks - base)
    let offset := base * maxChunkValueBytes
    let size := min (thisBlock * maxChunkValueBytes) (totalLen - offset)
    .stage offset ((source.drop offset).take size) :: .stageProgress (base + thisBlock) ::
      stageBlocks source totalLen numChunks blocks (base + stageBlockChunks)

/-- The blocks of a stream: `for (base = 0; base < numChunks; base += 64)`. -/
def stageStream (source : List UInt8) (totalLen : Nat) : List Effect :=
  let numChunks := chunkCountFor totalLen
  stageBlocks source totalLen numChunks ((numChunks + stageBlockChunks - 1) / stageBlockChunks) 0

/-- The progress counts among writes. -/
def progressOf : List Effect → List Nat :=
  List.filterMap fun effect =>
    match effect with
    | .stageProgress chunks => some chunks
    | _ => none

end KvCache.HostTransfer
