import KvCache.Foundation.Fallible
import KvCache.Lifecycle.Client
import KvCache.Protocol.Layout

/-!
# The operations of a client

A client keeps what its session fixed and the little that a request changes: the next
sequence number and ring slot, the buffers that a request in flight may touch, and the
resident programs of earlier requests. A request is a transaction on the client. Until
its submission is attempted it can be rolled back; afterwards it either completes or
leaves the client quarantined. The transaction is an object on the stack of the call, so
that leaving the call in any way ends it.

The first GET builds a program and keeps it; a later one overwrites the words of its
runtime arguments that differ from request to request. Objects live at addresses, zero
being the null pointer, and a program has one kernel, so that its handle is not kept.
-/

namespace KvCache.ClientOps

open Function
open ClientLifecycle (ClientOperationsState)

/-- A value as a 32-bit word. -/
def toWord (value : Nat) : Nat := value % 2 ^ 32

/-- How a call fails: by a check, or in the runtime below. -/
inductive Failure where
  | fatal (message : String)
  | thrown (message : String)
  | outOfRange
  | runtime (message : String)
deriving DecidableEq, Repr

/-! ## Sessions -/

/-- A node of the fabric: its mesh and its chip. -/
abbrev FabricNode := Nat × Nat

/-- What the runtime below says of the machine. -/
structure Platform where
  fabricNodeId : Nat → Nat → FabricNode
  gatewayNode : FabricNode
  laneConnection : Nat → List Nat
  fabricConnection : FabricNode → FabricNode → Nat → List Nat
  numDramChannels : Nat → Nat → Nat
  dramGridSize : Nat → Nat → Nat × Nat

/-- The words of a server descriptor that a session keeps. -/
structure ServerDescriptor where
  fabricMeshId : Nat
  fabricChipId : Nat
  l1Base : Nat
  nocX : Nat
  nocY : Nat
  ringSlots : Nat
  maxValueBytes : Nat
  maxKeyBytes : Nat
  numDramChannels : Nat
  dramGridX : Nat
  dramGridY : Nat
deriving DecidableEq, Repr

/-- What the constructor of the operations fixes. -/
structure ClientOperationsConfig where
  clientMesh : Nat
  clientCoord : Nat
  clientL1Base : Nat
  statusBufBase : Nat
  routeWordToServer : Nat
  fabricLinkIdx : Nat
  staticIntermeshLane : Nat
  staticIntermeshGalaxyToT3k : Bool
deriving DecidableEq, Repr

/-- The members that neither a request nor a call changes. -/
structure ClientSession where
  clientSubmesh : Nat
  clientCoord : Nat
  clientL1Base : Nat
  statusBufBase : Nat
  routeWordToServer : Nat
  fabricLinkIdx : Nat
  staticIntermeshLane : Nat
  staticIntermeshGalaxyToT3k : Bool
  serverNode : Option FabricNode
  clientToken : Nat
  serverL1Base : Nat
  serverNocX : Nat
  serverNocY : Nat
  serverNumDramChannels : Nat
  serverDramGridX : Nat
  serverDramGridY : Nat
  ringSlots : Nat
  ringSlotsPerClient : Nat
  ringBaseSlot : Nat
  maxGetChunks : Nat
  maxKeyBytes : Nat
deriving DecidableEq, Repr

/-- The request ring is split evenly among so many clients. -/
def maxClients : Nat := 32

/-- The members after the constructor and `configure_session`. -/
def configureSession (config : ClientOperationsConfig) (descriptor : ServerDescriptor)
    (clientToken : Nat) : ClientSession where
  clientSubmesh := config.clientMesh
  clientCoord := config.clientCoord
  clientL1Base := config.clientL1Base
  statusBufBase := config.statusBufBase
  routeWordToServer := config.routeWordToServer
  fabricLinkIdx := config.fabricLinkIdx
  staticIntermeshLane := config.staticIntermeshLane
  staticIntermeshGalaxyToT3k := config.staticIntermeshGalaxyToT3k
  serverNode := some (descriptor.fabricMeshId, descriptor.fabricChipId)
  clientToken := clientToken
  serverL1Base := descriptor.l1Base
  serverNocX := descriptor.nocX
  serverNocY := descriptor.nocY
  serverNumDramChannels := descriptor.numDramChannels
  serverDramGridX := descriptor.dramGridX
  serverDramGridY := descriptor.dramGridY
  ringSlots := descriptor.ringSlots
  ringSlotsPerClient := descriptor.ringSlots / maxClients
  ringBaseSlot := Session.clientIdFromToken clientToken * (descriptor.ringSlots / maxClients)
  maxGetChunks := Layout.chunkCountFor descriptor.maxValueBytes
  maxKeyBytes := descriptor.maxKeyBytes

/-- The failures that a test can order. -/
inductive ClientOperationsTestFault where
  | none
  | failRequestBeforeEnqueue
  | failRequestAfterEnqueue
  | failPutBatchAfterDescriptorWrite
  | putReaderTridPollution
deriving DecidableEq, Repr

/-! ## Clients and their transactions -/

/-- A workload: the runtime arguments of the program of each chip. -/
abbrev MeshWorkload := List (Nat × List Nat)

structure ResidentClientProgram where
  workload : Option MeshWorkload
  compiled : Bool
deriving DecidableEq, Repr

structure ResidentParallelGetProgram where
  workload : Option MeshWorkload
  operations : List Nat
  compiled : Bool
deriving DecidableEq, Repr

structure ClientOperations where
  session : ClientSession
  state : ClientOperationsState
  testFault : ClientOperationsTestFault
  quarantinePublished : Bool
  nextRingSlotIdx : Nat
  nextSeq : Nat
  activeTensorBufs : List Nat
  activeHostWriteBufs : List Nat
  getProg : ResidentClientProgram
  parallelGetProg : ResidentParallelGetProgram
deriving DecidableEq, Repr

structure RequestTransaction where
  previousSeq : Nat
  previousRingSlot : Nat
  seq : Nat
  baseRingSlot : Nat
  ringSlotsConsumed : Nat
  submissionAttempted : Bool
  active : Bool
deriving DecidableEq, Repr

/-- What is seen on the command queue of a mesh. -/
inductive QueueEvent where
  | gets (workload : MeshWorkload)
  | statusesRead (buffers : List (List UInt8))
deriving DecidableEq, Repr

/-- The objects of the process: the clients at their addresses, the transaction that each
client's call keeps on its stack, the owner of the program under construction, and what
the command queue has seen. -/
structure World where
  clients : Nat → ClientOperations
  requests : Nat → RequestTransaction
  buildGuard : Option Nat
  queue : List QueueEvent

/-- A call of the operations. -/
abbrev Call := Fallible World Failure

def World.setClient (world : World) (address : Nat) (client : ClientOperations) : World :=
  { world with clients := update world.clients address client }

def World.setRequest (world : World) (address : Nat) (request : RequestTransaction) : World :=
  { world with requests := update world.requests address request }

@[simp] theorem setClient_requests (world : World) (address : Nat) (client : ClientOperations) :
    (world.setClient address client).requests = world.requests := rfl

@[simp] theorem setClient_queue (world : World) (address : Nat) (client : ClientOperations) :
    (world.setClient address client).queue = world.queue := rfl

@[simp] theorem setClient_buildGuard (world : World) (address : Nat)
    (client : ClientOperations) :
    (world.setClient address client).buildGuard = world.buildGuard := rfl

theorem setClient_clients (world : World) (address other : Nat) (client : ClientOperations) :
    (world.setClient address client).clients other =
      if other = address then client else world.clients other := update_apply ..

@[simp] theorem setRequest_clients (world : World) (address : Nat)
    (request : RequestTransaction) :
    (world.setRequest address request).clients = world.clients := rfl

@[simp] theorem setRequest_queue (world : World) (address : Nat) (request : RequestTransaction) :
    (world.setRequest address request).queue = world.queue := rfl

@[simp] theorem setRequest_buildGuard (world : World) (address : Nat)
    (request : RequestTransaction) :
    (world.setRequest address request).buildGuard = world.buildGuard := rfl

theorem setRequest_requests (world : World) (address other : Nat)
    (request : RequestTransaction) :
    (world.setRequest address request).requests other =
      if other = address then request else world.requests other := update_apply ..

/-- The client after a transaction took its slots, with the tensor buffer retained. -/
def ClientOperations.advance (client : ClientOperations) (ringSlotsConsumed : Nat)
    (tensorBuffer : Option Nat) : ClientOperations :=
  { client with
    nextSeq := toWord (client.nextSeq + ringSlotsConsumed)
    nextRingSlotIdx :=
      toWord ((client.nextRingSlotIdx + ringSlotsConsumed) % client.session.ringSlotsPerClient)
    activeTensorBufs := client.activeTensorBufs ++ tensorBuffer.toList }

/-- The transaction that the constructor makes on a client. -/
def ClientOperations.newRequest (client : ClientOperations) (ringSlotsConsumed : Nat) :
    RequestTransaction where
  previousSeq := client.nextSeq
  previousRingSlot := client.nextRingSlotIdx
  seq := client.nextSeq
  baseRingSlot := toWord (client.session.ringBaseSlot + client.nextRingSlotIdx)
  ringSlotsConsumed := ringSlotsConsumed
  submissionAttempted := false
  active := true

/-- The constructor of `RequestTransaction`. -/
def beginRequest (address ringSlotsConsumed : Nat) (tensorBuffer : Option Nat) (world : World) :
    World :=
  (world.setRequest address ((world.clients address).newRequest ringSlotsConsumed)).setClient
    address ((world.clients address).advance ringSlotsConsumed tensorBuffer)

def markSubmissionAttempted (address : Nat) (world : World) : World :=
  world.setRequest address { world.requests address with submissionAttempted := true }

/-- The client keeps no buffer for a request. -/
def ClientOperations.releaseBuffers (client : ClientOperations) : ClientOperations :=
  { client with activeTensorBufs := [], activeHostWriteBufs := [] }

def complete (address : Nat) (world : World) : World :=
  (world.setRequest address { world.requests address with active := false }).setClient
    address (world.clients address).releaseBuffers

theorem complete_clients (address other : Nat) (world : World) :
    (complete address world).clients other =
      if other = address then (world.clients address).releaseBuffers else world.clients other := by
  simp [complete, setClient_clients]

theorem complete_requests (address other : Nat) (world : World) :
    (complete address world).requests other =
      if other = address then { world.requests address with active := false }
      else world.requests other := by
  simp [complete, setRequest_requests]

/-- Publication hands the object to a list that nobody drains. -/
def ClientOperations.quarantineFailedRequest (client : ClientOperations) : ClientOperations :=
  if client.state = .quarantined then client
  else { client with state := .quarantined, quarantinePublished := true }

/-- `fail` of the destructor. -/
def failRequest (address : Nat) (world : World) : World :=
  let request := world.requests address
  let client := world.clients address
  if request.active then
    (world.setRequest address { request with active := false }).setClient address
      (if request.submissionAttempted then client.quarantineFailedRequest
      else { client.releaseBuffers with
        nextSeq := request.previousSeq
        nextRingSlotIdx := request.previousRingSlot })
  else world

/-- What ending a transaction leaves of its client. -/
def ClientOperations.endRequest (client : ClientOperations) (request : RequestTransaction) :
    ClientOperations :=
  if request.active then
    if request.submissionAttempted then client.quarantineFailedRequest
    else { client.releaseBuffers with
      nextSeq := request.previousSeq
      nextRingSlotIdx := request.previousRingSlot }
  else client

theorem failRequest_clients (address other : Nat) (world : World) :
    (failRequest address world).clients other =
      if other = address then (world.clients address).endRequest (world.requests address)
      else world.clients other := by
  by_cases active : (world.requests address).active = true
  · simp [failRequest, ClientOperations.endRequest, active, setClient_clients]
  · by_cases same : other = address
    · simp [failRequest, ClientOperations.endRequest, active, same]
    · simp [failRequest, active, same]

/-- A transaction that was ended is inactive, whatever it was before. -/
theorem failRequest_requests (address other : Nat) (world : World) :
    (failRequest address world).requests other =
      if other = address then { world.requests address with active := false }
      else world.requests other := by
  by_cases active : (world.requests address).active = true
  · simp [failRequest, active, setRequest_requests]
  · by_cases same : other = address
    · rw [failRequest, if_neg active, if_pos same, same]
      have inactive : (world.requests address).active = false := by simpa using active
      rw [← inactive]
    · rw [failRequest, if_neg active, if_neg same]

@[simp] theorem failRequest_queue (address : Nat) (world : World) :
    (failRequest address world).queue = world.queue := by
  by_cases active : (world.requests address).active = true
  · simp [failRequest, active]
  · simp [failRequest, active]

@[simp] theorem failRequest_buildGuard (address : Nat) (world : World) :
    (failRequest address world).buildGuard = world.buildGuard := by
  by_cases active : (world.requests address).active = true
  · simp [failRequest, active]
  · simp [failRequest, active]

/-- A transaction of the given slots, destroyed when the body is left. -/
def withRequest {α : Type} (address ringSlotsConsumed : Nat) (tensorBuffer : Option Nat)
    (body : Call α) : Call α := do
  Fallible.modify (beginRequest address ringSlotsConsumed tensorBuffer)
  Fallible.enclosed body (failRequest address)

def checkOperational (address : Nat) : Call PUnit := do
  let world ← Fallible.look
  Fallible.check ((world.clients address).state = .established)
    (.fatal "Client is not established (closed or quarantined)")

/-- Take an ordered failure away from the client, once. -/
def consumeTestFault (address : Nat) (fault : ClientOperationsTestFault) : Call Bool := do
  let world ← Fallible.look
  let client := world.clients address
  if client.testFault = fault then
    Fallible.modify (·.setClient address { client with testFault := .none })
    pure true
  else pure false

def checkInjectedRequestBeforeEnqueue (address : Nat) : Call PUnit := do
  if ← consumeTestFault address .failRequestBeforeEnqueue then
    Fallible.fail (.thrown "injected Client request failure before enqueue")

/-- A step of the runtime that may throw. -/
def attempt (outcome : Option Failure) : Call PUnit :=
  match outcome with
  | none => pure ⟨⟩
  | some failure => Fallible.fail failure

/-- `enqueue_request`: the event of the queue stands before the outcome, for a call that
throws may have enqueued. -/
def enqueueRequest (address : Nat) (events : List QueueEvent) (outcome : Option Failure) :
    Call PUnit := do
  checkInjectedRequestBeforeEnqueue address
  Fallible.modify (markSubmissionAttempted address)
  Fallible.modify fun world => { world with queue := world.queue ++ events }
  attempt outcome
  if ← consumeTestFault address .failRequestAfterEnqueue then
    Fallible.fail (.thrown "injected Client request failure after enqueue")

/-! ## Keys and outputs -/

/-- The key bytes in 32 little-endian words. -/
def keyWords (key : List UInt8) : List Nat :=
  key.zipIdx.foldl
    (fun words (byte, j) => words.modify (j >>> 2) (· ||| (byte.toNat <<< ((j &&& 3) * 8))))
    (List.replicate 32 0)

/-- What the operations read of a tensor. -/
structure Tensor where
  onDevice : Bool
  isAllocated : Bool
  device : Nat
  bufferType : Nat
  memoryLayout : Nat
  rank : Nat
  pageSizeBytes : Nat
  packedBufferSizeBytes : Nat
  bufferAddress : Nat
  buffer : Nat
deriving DecidableEq, Repr

def bufferTypeDram : Nat := 0

def memoryLayoutInterleaved : Nat := 0

def tensorShapeMaxRank : Nat := 5

def maxChunkAlignedValueBytes : Nat :=
  (2 ^ 32 - 1) / Layout.maxChunkValueBytes * Layout.maxChunkValueBytes

def validateKey (key : List UInt8) (maxKeyBytes : Nat) (op : String) : Except Failure PUnit :=
  if key = [] then .error (.fatal (op ++ ": key must be non-empty"))
  else if maxKeyBytes < key.length then
    .error (.fatal (op ++ s!": key size {key.length} exceeds Server max_key_bytes {maxKeyBytes}"))
  else .ok ⟨⟩

def validateTensorLayout (tensor : Tensor) (clientSubmesh : Nat) (op : String) :
    Except Failure PUnit :=
  if ¬ tensor.onDevice then .error (.fatal (op ++ ": tensor must use DEVICE storage"))
  else if ¬ tensor.isAllocated then
    .error (.fatal (op ++ ": tensor must be allocated on device"))
  else if tensor.device ≠ clientSubmesh then
    .error (.fatal (op ++ s!": tensor must belong to client_submesh; got device {tensor.device}, "
      ++ s!"expected {clientSubmesh}"))
  else if tensor.bufferType ≠ bufferTypeDram then
    .error (.fatal (op ++ s!": tensor must be in DRAM; got buffer_type {tensor.bufferType}"))
  else if tensor.memoryLayout ≠ memoryLayoutInterleaved then
    .error (.fatal (op ++ ": tensor must be INTERLEAVED DRAM; got memory_layout "
      ++ s!"{tensor.memoryLayout}"))
  else if tensorShapeMaxRank < tensor.rank then
    .error (.fatal (op ++ s!": tensor rank {tensor.rank} exceeds kTensorShapeMaxRank "
      ++ s!"{tensorShapeMaxRank}"))
  else if tensor.pageSizeBytes % 32 ≠ 0 then
    .error (.fatal (op ++ s!": tensor page_size {tensor.pageSizeBytes} must be a multiple of 32"))
  else .ok ⟨⟩

/-- Capacity, logical page size and number of chunks of the output of a GET. -/
def outputGeometry (tensor : Tensor) (maxGetChunks : Nat) (op : String) :
    Except Failure (Nat × Nat × Nat) :=
  let outputCapacity := tensor.packedBufferSizeBytes
  let logicalPageSize := toWord tensor.pageSizeBytes
  let numChunks := Layout.chunkCountFor outputCapacity
  if outputCapacity = 0 then
    .error (.fatal (op ++ ": out_tensor packed byte size must be > 0"))
  else if maxChunkAlignedValueBytes < outputCapacity then
    .error (.fatal (op ++ s!": out_tensor packed byte size {outputCapacity} exceeds the largest "
      ++ s!"supported capacity {maxChunkAlignedValueBytes}"))
  else if logicalPageSize = 0 then
    .error (.fatal (op ++ ": out_tensor logical page size must be > 0"))
  else if maxGetChunks < numChunks then
    .error (.fatal (op ++ s!": out_tensor requires {numChunks} chunks, exceeds max_get_chunks "
      ++ s!"{maxGetChunks}"))
  else .ok (outputCapacity, logicalPageSize, numChunks)

/-! ## Runtime arguments of a GET -/

def opKindGet : Nat := 5

structure ClientRtArgs where
  opKind : Nat
  clientL1Base : Nat
  serverL1Base : Nat
  serverNocX : Nat
  serverNocY : Nat
  baseRingSlotIdx : Nat
  payloadSize : Nat
  routeWordToServer : Nat
  numChunks : Nat
  totalValueLen : Nat
  clientDramAddr : Nat
  logicalPageSize : Nat
  tensorSlotId : Nat
  valueByteOff : Nat
deriving DecidableEq, Repr

/-- The base of the runtime arguments of every client kernel. -/
def ClientRtArgs.toVec (args : ClientRtArgs) (clientToken : Nat) : List Nat :=
  [args.opKind, args.clientL1Base, args.serverL1Base, args.serverNocX, args.serverNocY,
    args.baseRingSlotIdx, args.payloadSize, args.routeWordToServer, args.numChunks,
    args.totalValueLen, args.clientDramAddr, args.logicalPageSize, args.tensorSlotId,
    args.valueByteOff, clientToken]

def rtaBaseRingSlot : Nat := 5
def rtaPayloadSize : Nat := 6
def rtaNumChunks : Nat := 8
def rtaTotalValueLen : Nat := 9
def rtaClientDramAddr : Nat := 10
def rtaLogicalPageSize : Nat := 11
def rtaBaseCount : Nat := 15
def rtaGetStreamSeq : Nat := rtaBaseCount + 0
def rtaGetKeyLen : Nat := rtaBaseCount + 1
def rtaGetKeyWords : Nat := rtaBaseCount + 2
def rtaGetStatusAddr : Nat := rtaGetKeyWords + 32
def rtaGetMappedCompletionEnabled : Nat := rtaGetStatusAddr + 1

/-- Bytes of a `GetChunkReqHeader`. -/
def getChunkReqHeaderBytes : Nat := 32

/-- What differs from one GET of a client to the next. -/
structure GetFields where
  baseRingSlotIdx : Nat
  seq : Nat
  key : List UInt8
  numChunks : Nat
  outputCapacity : Nat
  clientDramAddr : Nat
  logicalPageSize : Nat
deriving DecidableEq, Repr

def GetFields.rtArgs (fields : GetFields) (session : ClientSession) : ClientRtArgs where
  opKind := opKindGet
  clientL1Base := session.clientL1Base
  serverL1Base := session.serverL1Base
  serverNocX := session.serverNocX
  serverNocY := session.serverNocY
  baseRingSlotIdx := fields.baseRingSlotIdx
  payloadSize := toWord (getChunkReqHeaderBytes + fields.key.length)
  routeWordToServer := session.routeWordToServer
  numChunks := fields.numChunks
  totalValueLen := fields.outputCapacity
  clientDramAddr := fields.clientDramAddr
  logicalPageSize := fields.logicalPageSize
  tensorSlotId := 0
  valueByteOff := 0

/-- The words of the fabric connection to the server. -/
def serverConnectionRtArgs (platform : Platform) (session : ClientSession) :
    Except Failure (List Nat) :=
  let clientNode := platform.fabricNodeId session.clientSubmesh session.clientCoord
  if session.staticIntermeshGalaxyToT3k then
    if clientNode = platform.gatewayNode then
      .ok (platform.laneConnection session.staticIntermeshLane)
    else .ok (platform.fabricConnection clientNode platform.gatewayNode session.fabricLinkIdx)
  else
    match session.serverNode with
    | none => .error (.fatal "ClientOperations session has no Server Fabric node")
    | some serverNode =>
      .ok (platform.fabricConnection clientNode serverNode session.fabricLinkIdx)

/-- The runtime arguments that a program is built with, the connection last. -/
def buildGetArgs (session : ClientSession) (fields : GetFields) (connection : List Nat) : List Nat :=
  (fields.rtArgs session).toVec session.clientToken ++ [fields.seq, fields.key.length] ++
    keyWords fields.key ++ [session.statusBufBase, 0] ++ connection

/-- The words of a resident program that a request overwrites. -/
def overrideGetArgs (rta : List Nat) (session : ClientSession) (fields : GetFields) : List Nat :=
  let args := fields.rtArgs session
  let base := ((((((rta.set rtaBaseRingSlot args.baseRingSlotIdx).set
    rtaPayloadSize args.payloadSize).set
    rtaNumChunks args.numChunks).set
    rtaTotalValueLen args.totalValueLen).set
    rtaClientDramAddr args.clientDramAddr).set
    rtaLogicalPageSize args.logicalPageSize)
  (List.range 32).foldl
    (fun words word => words.set (rtaGetKeyWords + word) ((keyWords fields.key).getD word 0))
    ((base.set rtaGetStreamSeq fields.seq).set rtaGetKeyLen fields.key.length)

/-! ## Workloads -/

/-- `get_programs().at`. -/
def MeshWorkload.at (workload : MeshWorkload) (chipRange : Nat) : Except Failure (List Nat) :=
  match workload.lookup chipRange with
  | some args => .ok args
  | none => .error .outOfRange

/-- `add_program`, which refuses a range that a program has. -/
def MeshWorkload.addProgram (workload : MeshWorkload) (chipRange : Nat) (args : List Nat) :
    Except Failure MeshWorkload :=
  if (workload.lookup chipRange).isSome then
    .error (.runtime "Program range overlaps with the previously added range")
  else .ok (workload ++ [(chipRange, args)])

/-- Write the arguments of the program of a chip. -/
def MeshWorkload.setArgs (workload : MeshWorkload) (chipRange : Nat) (args : List Nat) :
    MeshWorkload :=
  workload.map fun program => if program.1 = chipRange then (chipRange, args) else program

/-- The check that both ends address DRAM alike. -/
def sameDramLayout (platform : Platform) (session : ClientSession) : Prop :=
  toWord (platform.numDramChannels session.clientSubmesh session.clientCoord) =
      session.serverNumDramChannels ∧
    platform.dramGridSize session.clientSubmesh session.clientCoord =
      (session.serverDramGridX, session.serverDramGridY)

instance (platform : Platform) (session : ClientSession) :
    Decidable (sameDramLayout platform session) := inferInstanceAs (Decidable (_ ∧ _))

end KvCache.ClientOps
