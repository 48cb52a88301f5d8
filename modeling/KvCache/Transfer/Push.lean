import KvCache.Foundation.Transfers
import KvCache.Foundation.Stretches
import KvCache.Protocol.Layout

/-!
# Pushing a value to the host

The directory kernel copies a value from the units of the heap to a range of host memory, in
batches of chunks through a scratch buffer of two halves. A batch is read into one half
while the writes of the batch before it, from the other half, may still be under way.

A value that has landed is pushed in one go. A value that is streamed is pushed in two
parts: the groups before the last one while the client still sends, each after an event,
and the rest after publication. Word arithmetic is that of natural numbers: the positions
of a value are below its length.
-/

namespace KvCache.WriteThrough

open Layout Stretches Transfers

/-- A byte of the heap, of the scratch buffer or of host memory. -/
inductive Place where
  | heap (address : Nat)
  | scratch (address : Nat)
  | host (address : Nat)
deriving DecidableEq, Repr

/-- The barriers tell reads from writes. -/
inductive Kind where
  | read
  | write
deriving DecidableEq, Repr

/-- Chunks of one batch. -/
def movePushBatch : Nat := 8

/-- Bytes of one half of the scratch buffer. -/
def halfBytes : Nat := movePushBatch * maxChunkValueBytes

/-- Bytes of the scratch buffer, of `kGetValueCbDepth` chunks. -/
def scratchBytes : Nat := 16 * maxChunkValueBytes

/-- What a push is given: the first unit of the value, its length, where it goes and where
the scratch buffer is. The longest burst of the network is a property of the device. -/
structure Push where
  baseUnit : Nat
  totalLen : Nat
  hostDst : Nat
  scratch : Nat
  maxBurst : Nat
deriving DecidableEq, Repr

/-- Read bytes of a unit of the heap into the scratch buffer. -/
def readUnit (unit target bytes : Nat) : Command Kind Place :=
  .issue .read (block .heap .scratch (unit * maxChunkValueBytes) target bytes)

/-- Write bytes of the scratch buffer to the host in bursts; the loop makes at most one round
for every byte. -/
def writeBursts (maxBurst : Nat) : Nat → Nat → Nat → Nat → List (Command Kind Place)
  | 0, _, _, _ => []
  | fuel + 1, src, dst, bytes =>
    if bytes = 0 then []
    else
      let burst := if maxBurst < bytes then maxBurst else bytes
      .issue .write (block .scratch .host src dst burst) ::
        writeBursts maxBurst fuel (src + burst) (dst + burst) (bytes - burst)

namespace Push

/-- Bytes of a chunk. -/
def chunkBytes (push : Push) (chunk : Nat) : Nat :=
  min (push.totalLen - chunk * maxChunkValueBytes) maxChunkValueBytes

/-- One round of `kvm_push_chunk_range`. -/
def batch (push : Push) (base endChunk batchIndex : Nat) : List (Command Kind Place) :=
  let thisBatch := min (endChunk - base) movePushBatch
  let half := batchIndex % 2 * halfBytes
  let reads := (List.range thisBatch).map fun k =>
    readUnit (push.baseUnit + base + k) (push.scratch + half + k * maxChunkValueBytes)
      (roundUp 32 (push.chunkBytes (base + k)))
  let writeBytes := roundUp 32 (min (thisBatch * maxChunkValueBytes)
    (push.totalLen - base * maxChunkValueBytes))
  reads ++ .barrier .read :: (if batchIndex = 0 then [] else [.barrier .write]) ++
    writeBursts push.maxBurst writeBytes (push.scratch + half)
      (push.hostDst + base * maxChunkValueBytes) writeBytes

/-- `kvm_push_chunk_range`; the loop makes at most one round for every chunk. -/
def chunkRange (push : Push) : Nat → Nat → Nat → Nat → List (Command Kind Place)
  | 0, _, _, _ => []
  | fuel + 1, base, endChunk, batchIndex =>
    if base < endChunk then
      push.batch base endChunk batchIndex ++
        push.chunkRange fuel (base + movePushBatch) endChunk (batchIndex + 1)
    else []

/-- The batch index that `kvm_push_chunk_range` leaves. -/
def batchIndexAfter : Nat → Nat → Nat → Nat → Nat
  | 0, _, _, batchIndex => batchIndex
  | fuel + 1, base, endChunk, batchIndex =>
    if base < endChunk then
      batchIndexAfter fuel (base + movePushBatch) endChunk (batchIndex + 1)
    else batchIndex

/-- The chunks of the value. -/
def numChunks (push : Push) : Nat := chunkCountFor push.totalLen

/-- `kvm_push_evicted_value`. -/
def evictedValue (push : Push) : List (Command Kind Place) :=
  push.chunkRange push.numChunks 0 push.numChunks 0 ++ [.barrier .write]

end Push

/-- A statement of a streamed push: wait for one event, or a command. -/
inductive Stmt where
  | gate
  | run (command : Command Kind Place)
deriving DecidableEq, Repr

namespace Push

/-- The first chunk that is pushed after publication. -/
def tailBegin (push : Push) : Nat :=
  (push.numChunks - 1) / putStreamProgressChunks * putStreamProgressChunks

/-- The groups of `kvm_push_streamed_prefix`. -/
def prefixGroups (push : Push) : Nat → Nat → Nat → List Stmt
  | 0, _, _ => []
  | fuel + 1, start, batchIndex =>
    if start < push.tailBegin then
      let stop := start + putStreamProgressChunks
      .gate :: (push.chunkRange (stop - start) start stop batchIndex).map .run ++
        push.prefixGroups fuel stop (batchIndexAfter (stop - start) start stop batchIndex)
    else []

/-- `kvm_push_streamed_prefix`. -/
def streamedPrefix (push : Push) : List Stmt :=
  push.prefixGroups push.tailBegin 0 0 ++ [.run (.barrier .write)]

/-- `kvm_push_streamed_tail`. -/
def streamedTail (push : Push) : List (Command Kind Place) :=
  push.chunkRange (push.numChunks - push.tailBegin) push.tailBegin push.numChunks 0 ++
    [.barrier .write]

end Push

/-- The commands among statements. -/
def commands : List Stmt → List (Command Kind Place)
  | [] => []
  | .gate :: rest => commands rest
  | .run command :: rest => command :: commands rest

/-- The gates among statements. -/
def gates : List Stmt → Nat
  | [] => 0
  | .gate :: rest => gates rest + 1
  | .run _ :: rest => gates rest

end KvCache.WriteThrough
