import KvCache.Server.Session

/-!
# The host worker

The worker thread polls the request counter, handles one request and completes it.
A write-through drops the old host copy of the slot first. With a mapped window it
then reserves an extent of the pool, or falls back to the staging area, and BRISC
pushes the value; without a window the worker reads the heap itself.

The pool and the metadata of the slot are changed in the same step as the request
that changes them: BRISC reads them only while the worker is idle. A fatal check
stops the worker for good.
-/

namespace KvCache.Server

open Directory Layout Pool

variable (cfg : Config)

/-- Change what the worker does. -/
def workAs (phase : WorkerPhase) (sys : Sys) : Sys :=
  { sys with host := { sys.host with worker := phase } }

/-- The checks of a polled request. -/
def requestShape (request : MoveRequest) : Bool :=
  decide (request.slot < cfg.geometry.maxKeys) &&
    match request.op with
    | .removeBacking => decide (request.valueByteOff = 0) && decide (request.totalLen = 0)
    | _ =>
      decide (0 < request.totalLen) && decide (request.totalLen ≤ cfg.geometry.maxValueBytes) &&
        ((decide (request.op = .hostServe) && decide (request.valueByteOff = 0)) ||
          (decide (request.valueByteOff % maxChunkValueBytes = 0) &&
            decide (request.valueByteOff + chunkCountFor request.totalLen * maxChunkValueBytes ≤
              cfg.geometry.valueHeapBytes)))

/-- Poll the request counter. More than one new request is a fatal error. -/
def pollRequest (sys : Sys) : Option Outcome :=
  if sys.words.moveReqSem = sys.host.seen then none
  else if sys.words.moveReqSem = sys.host.seen + 1 ∧ requestShape cfg sys.words.moveReq then
    some (workAs (.pending sys.words.moveReq) sys, [])
  else some (workAs .failed sys, [])

/-! ## Host copies -/

/-- Invalidate the pool record of a slot if it still has the generation. -/
def invalidatePoolMetaIfGeneration (slot generation : Nat) (host : Host) : Host :=
  if generation ≠ 0 ∧ (host.poolMeta slot).generation = generation then
    { host with poolMeta := Function.update host.poolMeta slot ⟨0, 0, 0⟩ }
  else host

/-- Release a mapped extent. -/
def releaseLease (slot : Nat) (lease : HostLease) (host : Host) : Host :=
  let invalidated := invalidatePoolMetaIfGeneration slot lease.generation host
  { invalidated with
    poolFree :=
      if lease.poolUnits = 0 then invalidated.poolFree
      else poolRelease ⟨lease.poolUnit, lease.poolUnits⟩ invalidated.poolFree }

/-- Drop the host copy of a slot. -/
def eraseHostValue (slot : Nat) (host : Host) : Host :=
  let erased := { host with hostValue := Function.update host.hostValue slot none }
  match (host.hostValue slot).bind HostValue.lease with
  | none => erased
  | some lease => releaseLease slot lease erased

/-- Publish the pool record of a slot under a new generation. -/
def publishPoolMeta (slot readOff totalLen : Nat) (host : Host) : Host × Nat :=
  let generation := nextPoolGeneration (host.poolMetaGeneration slot)
  ({ host with
    poolMeta := Function.update host.poolMeta slot ⟨generation, readOff, totalLen⟩
    poolMetaGeneration := Function.update host.poolMetaGeneration slot generation }, generation)

/-- Reserve an extent of the pool for a value. -/
def reserveLease (slot totalLen : Nat) (host : Host) : Host × Option HostLease :=
  match poolAlloc (chunkCountFor totalLen) host.poolFree with
  | none => (host, none)
  | some (unit, remaining) =>
    let readOff := cfg.poolReadOff + unit * maxChunkValueBytes
    let (published, generation) :=
      publishPoolMeta slot readOff totalLen { host with poolFree := remaining }
    (published, some ⟨unit, chunkCountFor totalLen, readOff, generation⟩)

/-- Record the host copy of a slot and finish the transfer. -/
def backValue (request : MoveRequest) (value : HostValue) (sys : Sys) : Sys :=
  workAs (.transferComplete request)
    { sys with
      host := { sys.host with
        hostValue := Function.update sys.host.hostValue request.slot (some value) } }

/-! ## Requests -/

/-- Receive a value: publish a destination and wait for the push, or read the heap. -/
def receiveValue (request : MoveRequest) (sys : Sys) : Sys :=
  let erased := eraseHostValue request.slot sys.host
  if cfg.stageEnabled then
    let (reserved, lease) := reserveLease cfg request.slot request.totalLen erased
    { sys with
      words := { sys.words with
        evictAck := ⟨(lease.map HostLease.readOff).getD 0, (lease.map HostLease.generation).getD 0⟩
        evictAckSem := reserved.evictIssued + 1 }
      host := { reserved with
        evictIssued := reserved.evictIssued + 1
        worker := .awaitPush request lease } }
  else
    backValue request
      ⟨request.totalLen, none,
        readValue request.totalLen (heapFrom sys.valueHeap request.valueByteOff)⟩
      { sys with host := erased }

/-- The end of a push: keep the extent, or copy the staging area. -/
def receivePushed (request : MoveRequest) (lease : Option HostLease) (sys : Sys) : Sys :=
  backValue request
    ⟨request.totalLen, lease,
      if lease.isSome then [] else readValue request.totalLen (windowFrom sys.window 0)⟩ sys

/-- Post a commit request. -/
def postCommit (request : MoveRequest) (lease : Option HostLease) (next : WorkerPhase) (sys : Sys) :
    Sys :=
  { sys with
    words := { sys.words with
      commitReq :=
        ⟨request.slot, request.valueByteOff, request.totalLen,
          (lease.map HostLease.readOff).getD 0⟩
      commitReqSem := sys.host.commitIssued + 1 }
    host := { sys.host with commitIssued := sys.host.commitIssued + 1, worker := next } }

/-- Chunk of a host copy on the host heap. -/
def hostChunk (bytes : Bytes) (index : Nat) : Chunk := Chunked.chunkAt maxChunkValueBytes bytes index

/-- Set the staging progress. -/
def publishStageProgress (chunks : Nat) (sys : Sys) : Sys :=
  { sys with words := { sys.words with stageProgress := chunks } }

/-- Supply a value to BRISC. A GET through the window is posted before its chunks are
staged; anything else is posted once the value is in place. An extent needs a mapped
window. -/
def supplyValue (request : MoveRequest) (value : HostValue) (sys : Sys) : Sys :=
  let chunks := chunkCountFor request.totalLen
  if cfg.stageEnabled then
    if request.op = .hostServe then
      match value.lease with
      | some _ =>
        publishStageProgress chunks
          (postCommit request value.lease (.awaitCommit request) (publishStageProgress 0 sys))
      | none => postCommit request none (.staging request 0) (publishStageProgress 0 sys)
    else
      match value.lease with
      | some _ => postCommit request value.lease (.awaitCommit request) sys
      | none =>
        postCommit request none (.awaitCommit request)
          { sys with window := writeWindow 0 0 chunks (hostChunk value.bytes) sys.window }
  else
    match value.lease with
    | some _ => workAs .failed sys
    | none =>
      postCommit request none (.awaitCommit request)
        (fillHeap request.valueByteOff request.totalLen (hostChunk value.bytes) sys)

/-- Handle a polled request. -/
def handleHostRequest (request : MoveRequest) (sys : Sys) : Sys :=
  match request.op with
  | .writeThrough => receiveValue cfg request sys
  | .removeBacking =>
    workAs (.transferComplete request) { sys with host := eraseHostValue request.slot sys.host }
  | .devicePromote | .hostServe =>
    match sys.host.hostValue request.slot with
    | none => workAs .failed sys
    | some value =>
      if value.len = request.totalLen then supplyValue cfg request value sys
      else workAs .failed sys

/-- Chunks of one staging block. -/
def stageBlockChunks : Nat := 64

/-- Stage the next block of a host copy and publish the progress. -/
def stageBlock (request : MoveRequest) (start : Nat) (value : HostValue) (sys : Sys) : Sys :=
  let finish := start + min stageBlockChunks (chunkCountFor request.totalLen - start)
  workAs (.staging request finish)
    (publishStageProgress finish
      { sys with window := writeWindow 0 start finish (hostChunk value.bytes) sys.window })

/-- Complete a request. -/
def completeRequest (sys : Sys) : Sys :=
  { sys with
    words := { sys.words with moveProcessed := sys.host.seen + 1 }
    host := { sys.host with worker := .idle, seen := sys.host.seen + 1 } }

/-- One step of the worker. -/
def workerStep (sys : Sys) : Option Outcome :=
  match sys.host.worker with
  | .idle => pollRequest cfg sys
  | .pending request => some (handleHostRequest cfg request sys, [])
  | .awaitPush request lease =>
    if sys.words.evictDone = sys.host.evictIssued then some (receivePushed request lease sys, [])
    else none
  | .staging request start =>
    if start < chunkCountFor request.totalLen then
      (sys.host.hostValue request.slot).map fun value => (stageBlock request start value sys, [])
    else some (workAs (.awaitCommit request) sys, [])
  | .awaitCommit request =>
    if sys.words.promoteDone = sys.host.commitIssued then
      some (workAs (.transferComplete request) sys, [])
    else none
  | .transferComplete _ => some (completeRequest sys, [])
  | .failed => none

end KvCache.Server
