import KvCache.Directory.Operations
import KvCache.Foundation.Chunked
import KvCache.Host.Pool

/-!
# The parties of a server and their state

A server device runs two processors on one core. NCRISC serves the clients one
request at a time; BRISC owns the directory and serves NCRISC through a mailbox.
A worker thread on the host owns the host copies and serves BRISC through a single
request slot. Clients write the chunks of their PUTs into the value heap directly
and raise two kinds of counters.

All words that two parties share are in one record, so that a step of a party
shows what the others can observe. Counters are cumulative and never reset; they
are natural numbers that start at the baseline. A mailbox sits empty between a
request and its response.

Value bytes are moved in chunks of the heap unit. The heap is addressed by unit,
the mapped host window by byte offset; the device only ever addresses the window
at whole units past the start of the staging area or of a pool extent.
-/

namespace KvCache.Server

open Buddy Directory HashIndex Layout Pool

/-- Bytes of a value. -/
abbrev Bytes := List UInt8

/-- Bytes of one unit of the value heap. -/
abbrev Chunk := List UInt8

/-- Read a value of the given length from consecutive chunks. -/
def readValue (totalLen : Nat) (store : Nat → Chunk) : Bytes :=
  Chunked.gather maxChunkValueBytes 0 (chunkCountFor totalLen) totalLen store

/-- A deployment: the sizes, the lease policy, the heap metadata found at cold
start, and the mapped host window. The pool starts past the staging area. -/
structure Config where
  geometry : Geometry
  policy : LeasePolicy
  contents : Nat → HeapBlock
  stageEnabled : Bool
  poolUnits : Nat
  poolReadOff : Nat
  stageFits : chunkCountFor geometry.maxValueBytes * maxChunkValueBytes < poolReadOff

/-! ## The move channel -/

/-- The operations that BRISC asks of the host worker. -/
inductive MoveOp where
  | writeThrough
  | removeBacking
  | devicePromote
  | hostServe
deriving DecidableEq, Repr

/-- The words of the request slot. -/
structure MoveRequest where
  op : MoveOp
  slot : Nat
  valueByteOff : Nat
  totalLen : Nat
deriving DecidableEq, Repr

/-- The words of the commit slot, written by the worker. -/
structure CommitRequest where
  slot : Nat
  valueByteOff : Nat
  totalLen : Nat
  stageReadOff : Nat
deriving DecidableEq, Repr

/-- The destination of a write-through, written by the worker. -/
structure EvictAck where
  readOff : Nat
  generation : Nat
deriving DecidableEq, Repr

/-- The record of a slot in the mapped pool metadata. The generation words at both
ends are written around the others and read only while the worker is idle, so they
are one word here; zero marks an invalid record. -/
structure PoolMeta where
  generation : Nat
  readOff : Nat
  totalLen : Nat
deriving DecidableEq, Repr

/-! ## The directory mailbox -/

/-- A request of NCRISC. -/
inductive DirRequest where
  | putPrepare (req : PutPrepareRequest)
  | putPublish (req : PutPublishRequest)
  | getChunk (key : Key) (outputCapacity : Nat)
  | exists_ (key : Key)
  | remove (key : Key)
  | moveToHost (key : Key)
  | moveToDevice (key : Key)
deriving DecidableEq, Repr

/-- The status word of a GET. -/
inductive GetStatus where
  | miss
  | found
  | outputTooSmall
deriving DecidableEq, Repr

/-- A response of BRISC. The response to a GET is taken after its chunks went
through the circular buffer, so it carries the streamed bytes. -/
inductive DirResponse where
  | prepared (response : PutPrepareResponse)
  | published (granted : Bool)
  | got (status : GetStatus) (totalLen : Nat) (streamed : Bytes)
  | existed (found : Bool)
  | removed (dirSlot : Option Nat)
  | moved
deriving DecidableEq, Repr

/-- The words that two parties share. -/
structure Words where
  moveReq : MoveRequest
  moveReqSem : Nat
  moveProcessed : Nat
  commitReq : CommitRequest
  commitReqSem : Nat
  promoteDone : Nat
  evictAck : EvictAck
  evictAckSem : Nat
  evictDone : Nat
  stageProgress : Nat
  putProgress : Nat
  commitDone : Nat
  request : Option DirRequest
  response : Option DirResponse

/-! ## BRISC -/

/-- What BRISC remembers of a streamed PUT. -/
structure PutStream where
  prefixReady : Bool
  tailPending : Bool
  slot : Nat
  valueByteOff : Nat
  totalLen : Nat
  tailBegin : Nat
  hostGeneration : Nat
  hostDst : Nat
  pendingToken : Nat
deriving DecidableEq, Repr

/-- No streamed PUT. -/
def noStream : PutStream := ⟨false, false, 0, 0, 0, 0, 0, 0, 0⟩

/-- A host-tier GET being served: the request, the slot and length found, the stamp
taken, the cache block if there is one, and where to read. -/
structure HostServe where
  key : Key
  outputCapacity : Nat
  slot : Nat
  totalLen : Nat
  accessEpoch : Nat
  cacheBlock : Option (Nat × Nat)
  directPool : Bool
  readOff : Nat
deriving DecidableEq, Repr

/-- What BRISC waits for after a post. -/
inductive Wait where
  | prefixAck
  | commitAck (slot : Nat)
  | commitDrain (slot hostGeneration : Nat)
  | tailDrain
  | removeDrain (slot : Nat)
  | promoteAccepted
  | serveCommit (serve : HostServe)
deriving DecidableEq, Repr

/-- Where BRISC is in its scheduler loop. A post is two steps: the slot words first,
then the counter. -/
inductive Phase where
  | top
  | posting (next : Wait)
  | waiting (wait : Wait)
  | pushPrefix (start : Nat)
  | hostStream (serve : HostServe) (start : Nat) (streamed : Bytes)
  | promoteCheck
deriving DecidableEq, Repr

/-- The locals of the scheduler loop. -/
structure Brisc where
  phase : Phase
  forcePutHostCommit : Bool
  commitReqSeen : Nat
  evictAckSeen : Nat
  directProgressSeen : Nat
  pendingPromote : Option (Nat × Nat)
  stream : PutStream
  fallbackProgress : Option (Nat × Nat)
  previousPutOrder : Option Nat

/-! ## NCRISC and the clients -/

/-- A PUT in flight: what the client sends, the lease it uses, the block it writes
to once it knows it, and how far it is. -/
structure PutFlight where
  key : Key
  value : Bytes
  seq : Nat
  usesLease : Bool
  dest : Option Nat
  sent : Nat
  landed : Bool
deriving DecidableEq, Repr

/-- The operations of a client. -/
inductive Operation where
  | put (flight : PutFlight)
  | get (key : Key) (outputCapacity : Nat)
  | exists_ (key : Key)
  | remove (key : Key)
  | moveToHost (key : Key)
  | moveToDevice (key : Key)
  | commitBarrier
  | detach
deriving DecidableEq, Repr

/-- A client session: at most one operation at a time, and the lease descriptor in
the client's L1. -/
structure Client where
  established : Bool
  lease : Option Lease
  operation : Option Operation
deriving DecidableEq, Repr

/-- What NCRISC does. While a PUT is prepared the lease words of its client travel
with the request. -/
inductive NcriscPhase where
  | idle
  | waitingPrefix (client target : Nat)
  | awaiting (client : Nat)
  | preparing (client : Nat) (priorLease : Option Lease)
  | receiving (client : Nat) (grant : PutGrant)
  | publishing (client : Nat) (grant : PutGrant)
deriving DecidableEq, Repr

/-- The state of NCRISC. -/
structure Ncrisc where
  phase : NcriscPhase
  putLease : Nat → Option Lease
  putIssuedTotal : Nat

/-! ## The host worker -/

/-- A mapped host copy: an extent of the pool under a generation. -/
structure HostLease where
  poolUnit : Nat
  poolUnits : Nat
  readOff : Nat
  generation : Nat
deriving DecidableEq, Repr

/-- A host copy: a mapped extent, or bytes on the host heap. -/
structure HostValue where
  len : Nat
  lease : Option HostLease
  bytes : Bytes
deriving DecidableEq, Repr

/-- What the worker thread does. -/
inductive WorkerPhase where
  | idle
  | pending (request : MoveRequest)
  | awaitPush (request : MoveRequest) (lease : Option HostLease)
  | staging (request : MoveRequest) (start : Nat)
  | awaitCommit (request : MoveRequest)
  | transferComplete (request : MoveRequest)
  | failed
deriving DecidableEq, Repr

/-- The state of the host side. -/
structure Host where
  worker : WorkerPhase
  seen : Nat
  evictIssued : Nat
  commitIssued : Nat
  hostValue : Nat → Option HostValue
  poolFree : List Extent
  poolMeta : Nat → PoolMeta
  poolMetaGeneration : Nat → Nat

/-! ## The system -/

/-- All parties with the memories they share. -/
structure Sys where
  dir : Directory.State
  valueHeap : Nat → Chunk
  window : Nat → Chunk
  words : Words
  brisc : Brisc
  ncrisc : Ncrisc
  client : Nat → Client
  host : Host

/-- What a step shows: the fate of published values, the answers to lookups, and
the completion of client operations. -/
inductive Event where
  | published (slot token : Nat) (key : Key) (value : Bytes)
  | displaced (slot : Nat) (key putKey : Key)
  | removed (slot : Nat) (key : Key)
  | counted
  | existsServed (key : Key) (found : Bool)
  | getServed (key : Key) (outputCapacity : Nat) (status : GetStatus) (totalLen : Nat)
      (streamed : Bytes)
  | completed (client : Nat)
deriving DecidableEq, Repr

/-- The shared words at cold start. -/
def coldWords : Words where
  moveReq := ⟨.writeThrough, 0, 0, 0⟩
  moveReqSem := 0
  moveProcessed := 0
  commitReq := ⟨0, 0, 0, 0⟩
  commitReqSem := 0
  promoteDone := 0
  evictAck := ⟨0, 0⟩
  evictAckSem := 0
  evictDone := 0
  stageProgress := 0
  putProgress := 0
  commitDone := 0
  request := none
  response := none

/-- The scheduler at cold start. -/
def coldBrisc : Brisc := ⟨.top, false, 0, 0, 0, none, noStream, none, none⟩

/-- The server after cold start, with no client established. -/
def coldSys (cfg : Config) : Sys where
  dir := coldDirectory cfg.geometry cfg.contents
  valueHeap := fun _ => []
  window := fun _ => []
  words := coldWords
  brisc := coldBrisc
  ncrisc := ⟨.idle, fun _ => none, 0⟩
  client := fun _ => ⟨false, none, none⟩
  host :=
    { worker := .idle
      seen := 0
      evictIssued := 0
      commitIssued := 0
      hostValue := fun _ => none
      poolFree := if cfg.stageEnabled ∧ 0 < cfg.poolUnits then [⟨0, cfg.poolUnits⟩] else []
      poolMeta := fun _ => ⟨0, 0, 0⟩
      poolMetaGeneration := fun _ => 0 }

/-! ## Moving chunks -/

/-- Overwrite `count` consecutive units of the value heap. -/
def writeHeap (base count : Nat) (chunk : Nat → Chunk) (heap : Nat → Chunk) : Nat → Chunk :=
  fun unit => if base ≤ unit ∧ unit < base + count then chunk (unit - base) else heap unit

/-- The chunks of the window from a byte offset on. -/
def windowFrom (window : Nat → Chunk) (offset : Nat) : Nat → Chunk :=
  fun index => window (offset + index * maxChunkValueBytes)

/-- Overwrite the chunks `first` to `last` of the window from a byte offset on. -/
def writeWindow (offset first last : Nat) (chunk : Nat → Chunk) (window : Nat → Chunk) :
    Nat → Chunk :=
  fun address =>
    if offset ≤ address ∧ (address - offset) % maxChunkValueBytes = 0 ∧
        first ≤ (address - offset) / maxChunkValueBytes ∧
        (address - offset) / maxChunkValueBytes < last then
      chunk ((address - offset) / maxChunkValueBytes)
    else window address

/-- The chunks of the value heap from a byte offset on. -/
def heapFrom (heap : Nat → Chunk) (valueByteOff : Nat) : Nat → Chunk :=
  fun index => heap (valueByteOff / maxChunkValueBytes + index)

/-- Copy the chunks `first` to `last` of a value from the heap to the window. -/
def pushChunkRange (valueByteOff hostDst first last : Nat) (sys : Sys) : Sys :=
  { sys with
    window := writeWindow hostDst first last (heapFrom sys.valueHeap valueByteOff) sys.window }

/-- Write the chunks of a value to the heap. -/
def fillHeap (valueByteOff totalLen : Nat) (chunk : Nat → Chunk) (sys : Sys) : Sys :=
  { sys with
    valueHeap := writeHeap (valueByteOff / maxChunkValueBytes) (chunkCountFor totalLen) chunk
      sys.valueHeap }

end KvCache.Server
