import KvCache.ClientOps.Operations

/-!
# Scalar and parallel GET

A scalar GET waits for the commits of its client and launches the client's own resident
program. A parallel GET has one request for each of its clients and one workload with a
program for each of their chips. The workload is kept by the first client, together with
the list of the clients it was built for, and is used again when the same list of
pointers comes back.

The transactions of a parallel GET are objects of the call: all of them end when the
call is left, those that were not completed by failing. The answers of the runtime below
are arguments. A client that stands twice in the list would wait for its own lock, which
the adapter rules out.
-/

namespace KvCache.ClientOps

open Function
open Fallible
open ClientLifecycle (ClientOperationsState LifecycleState)

def getStatusFound : Nat := 1

def getStatusOutputTooSmall : Nat := 2

/-- The little-endian word that a status response starts with. -/
def statusWord (buffer : List UInt8) : Nat :=
  buffer.take 4 |>.zipIdx.foldl (fun word (byte, i) => word + byte.toNat * 256 ^ i) 0

/-! ## Scalar GET -/

/-- What the runtime answers to the steps of a scalar GET. -/
structure GetAnswers where
  barrierCompile : Option Failure
  barrierEnqueue : Option Failure
  compile : Option Failure
  enqueue : Option Failure
  read : Except Failure (List UInt8)

/-- A request of one slot that waits for the commit frontier. -/
def commitBarrier (address : Nat) (answers : GetAnswers) : Call PUnit :=
  withRequest address 1 none do
    attempt answers.barrierCompile
    enqueueRequest address [] answers.barrierEnqueue
    modify (complete address)

/-- The fields of a GET with the slot and the sequence number of its transaction. -/
def getFields (request : RequestTransaction) (key : List UInt8) (tensor : Tensor)
    (geometry : Nat × Nat × Nat) : GetFields where
  baseRingSlotIdx := request.baseRingSlot
  seq := request.seq
  key := key
  numChunks := geometry.2.2
  outputCapacity := geometry.1
  clientDramAddr := toWord tensor.bufferAddress
  logicalPageSize := geometry.2.1

def setGetProg (address : Nat) (program : ResidentClientProgram) (world : World) : World :=
  world.setClient address { world.clients address with getProg := program }

/-- Build the resident program of a client, or overwrite the words of one request. -/
def prepareGetProg (platform : Platform) (address : Nat) (fields : GetFields) : Call PUnit := do
  let world ← look
  let client := world.clients address
  match client.getProg.workload with
  | none =>
    check (sameDramLayout platform client.session)
      (.fatal "fabric-direct GET requires identical client/server DRAM bank layout")
    let connection ← ofExcept (serverConnectionRtArgs platform client.session)
    modify (setGetProg address { client.getProg with
      workload := some [(client.session.clientCoord,
        buildGetArgs client.session fields connection)] })
  | some workload =>
    let rta ← ofExcept (workload.at client.session.clientCoord)
    modify (setGetProg address { client.getProg with
      workload := some (workload.setArgs client.session.clientCoord
        (overrideGetArgs rta client.session fields)) })

/-- Compile the resident program of a client, once. -/
def compileGetProg (address : Nat) (outcome : Option Failure) : Call PUnit := do
  let world ← look
  let program := (world.clients address).getProg
  if program.compiled then pure ⟨⟩
  else
    attempt outcome
    modify (setGetProg address { program with compiled := true })

def launchGetClient (platform : Platform) (address : Nat) (fields : GetFields)
    (answers : GetAnswers) : Call PUnit := do
  prepareGetProg platform address fields
  compileGetProg address answers.compile
  let world ← look
  enqueueRequest address [.gets ((world.clients address).getProg.workload.getD [])]
    answers.enqueue

def get (platform : Platform) (address : Nat) (key : List UInt8) (tensor : Tensor)
    (answers : GetAnswers) : Call Bool := do
  checkOperational address
  let world ← look
  let session := (world.clients address).session
  ofExcept (validateKey key session.maxKeyBytes "get")
  ofExcept (validateTensorLayout tensor session.clientSubmesh "get")
  let geometry ← ofExcept (outputGeometry tensor session.maxGetChunks "get")
  commitBarrier address answers
  withRequest address 1 (some tensor.buffer) do
    let world ← look
    launchGetClient platform address
      (getFields (world.requests address) key tensor geometry) answers
    let buffer ← ofExcept answers.read
    check (4 ≤ buffer.length) (.fatal ("get status response is truncated: expected at least 4 "
      ++ s!"bytes, got {buffer.length}"))
    modify (complete address)
    check (statusWord buffer &&& getStatusOutputTooSmall = 0)
      (.fatal (s!"get: out_tensor packed capacity {geometry.1} is smaller than the stored "
        ++ "value"))
    pure (statusWord buffer &&& getStatusFound ≠ 0)

/-! ## Parallel GET -/

/-- What the runtime answers to the steps of a parallel GET. -/
structure ParallelAnswers where
  compile : Nat → Option Failure
  enqueue : Option Failure
  read : Nat → Except Failure (List UInt8)

def setParallelGetProg (owner : Nat) (program : ResidentParallelGetProgram) (world : World) :
    World :=
  world.setClient owner { world.clients owner with parallelGetProg := program }

def resetIncompleteResident (owner : Nat) (world : World) : World :=
  setParallelGetProg owner ⟨none, [], false⟩ world

/-- The resident workload of the first client cannot be used for this list. -/
def buildsWorkload (world : World) (owner : Nat) (operations : List Nat) : Prop :=
  (world.clients owner).parallelGetProg.workload = none ∨
    (world.clients owner).parallelGetProg.operations ≠ operations

instance (world : World) (owner : Nat) (operations : List Nat) :
    Decidable (buildsWorkload world owner operations) := inferInstanceAs (Decidable (_ ∨ _))

/-- Look the resident workload up; a new one is guarded until it is complete. -/
def openResident (owner : Nat) (operations : List Nat) (world : World) : World :=
  if buildsWorkload world owner operations then
    { setParallelGetProg owner ⟨some [], operations, false⟩ world with buildGuard := some owner }
  else { world with buildGuard := none }

/-- The destructor of the guard. -/
def dropBuildGuard (world : World) : World :=
  match world.buildGuard with
  | none => world
  | some owner => { resetIncompleteResident owner world with buildGuard := none }

/-- The checks on one client, and the geometry of the output. -/
def admitGet (sharedMesh i address : Nat) (key : List UInt8) (tensor : Tensor) :
    Call (Nat × Nat × Nat) := do
  check (address ≠ 0) (.fatal s!"get_parallel: client {i} is null")
  checkOperational address
  let world ← look
  let session := (world.clients address).session
  check (session.clientSubmesh = sharedMesh)
    (.fatal s!"get_parallel: all Clients must share one client mesh (client {i} differs)")
  ofExcept (validateKey key session.maxKeyBytes "get_parallel")
  ofExcept (validateTensorLayout tensor session.clientSubmesh "get_parallel")
  ofExcept (outputGeometry tensor session.maxGetChunks "get_parallel")

/-- The resident workload with the program of one client added or overwritten. -/
def fillWorkload (platform : Platform) (build : Bool) (session : ClientSession)
    (fields : GetFields) (workload : MeshWorkload) : Except Failure MeshWorkload :=
  if build then do
    let connection ← serverConnectionRtArgs platform session
    workload.addProgram session.clientCoord (buildGetArgs session fields connection)
  else do
    let rta ← workload.at session.clientCoord
    return workload.setArgs session.clientCoord (overrideGetArgs rta session fields)

def fillProgram (platform : Platform) (owner : Nat) (build : Bool) (i address : Nat)
    (key : List UInt8) (tensor : Tensor) (geometry : Nat × Nat × Nat) : Call PUnit := do
  let world ← look
  let session := (world.clients address).session
  check (sameDramLayout platform session)
    (.fatal ("get_parallel requires identical client/server DRAM bank layouts for client "
      ++ s!"{i}"))
  let resident := (world.clients owner).parallelGetProg
  let workload ← ofExcept (fillWorkload platform build session
    (getFields (world.requests address) key tensor geometry) (resident.workload.getD []))
  modify (setParallelGetProg owner { resident with workload := some workload })

/-- One pass of the preparing loop for each client; the body runs within all of their
transactions. -/
def withGets {α : Type} (platform : Platform) (sharedMesh owner : Nat) (build : Bool)
    (tensor : Tensor) (body : Call α) : List (Nat × Nat × List UInt8) → Call α
  | [] => body
  | (i, address, key) :: rest => do
    let geometry ← admitGet sharedMesh i address key tensor
    withRequest address 1 (some tensor.buffer) do
      fillProgram platform owner build i address key tensor geometry
      withGets platform sharedMesh owner build tensor body rest

/-- Compile the program of every client, once. -/
def compilePrograms (owner : Nat) (operations : List Nat) (answers : ParallelAnswers) :
    Call PUnit := do
  let world ← look
  let resident := (world.clients owner).parallelGetProg
  if resident.compiled then pure ⟨⟩
  else
    forEach (fun (client, i) => do
      let _ ← ofExcept ((resident.workload.getD []).at (world.clients client).session.clientCoord)
      attempt (answers.compile i)) operations.zipIdx
    modify (setParallelGetProg owner { resident with compiled := true })

/-- The workload is complete, and the guard is released. -/
def compileResident (owner : Nat) (operations : List Nat) (answers : ParallelAnswers) :
    Call PUnit := do
  compilePrograms owner operations answers
  modify fun world => { world with buildGuard := none }

/-- Submit the workload for all clients. -/
def submitGets (owner : Nat) (operations : List Nat) (answers : ParallelAnswers) :
    Call PUnit := do
  forEach checkInjectedRequestBeforeEnqueue operations
  forEach (fun client => modify (markSubmissionAttempted client)) operations
  modify fun world => { world with
    queue := world.queue ++
      [.gets ((world.clients owner).parallelGetProg.workload.getD [])] }
  attempt answers.enqueue
  forEach (fun client => do
    if ← consumeTestFault client .failRequestAfterEnqueue then
      fail (.thrown "injected Client request failure after parallel enqueue")) operations

/-- The status reads, the last of which is waited for. -/
def readStatuses (operations : List Nat) (answers : ParallelAnswers) :
    Call (List (List UInt8)) := do
  let buffers ← ofExcept ((List.range operations.length).mapM answers.read)
  modify fun world => { world with queue := world.queue ++ [.statusesRead buffers] }
  pure buffers

/-- Compile what is new, submit, and wait for the statuses. -/
def runResident (owner : Nat) (operations : List Nat) (answers : ParallelAnswers) :
    Call (List (List UInt8)) := do
  compileResident owner operations answers
  submitGets owner operations answers
  readStatuses operations answers

/-- The completing loop: each request is completed before its status is looked at. -/
def examineStatuses (outputCapacity : Nat) :
    List (Nat × List UInt8) → Call (List (Nat × Bool))
  | [] => pure []
  | (address, buffer) :: rest => do
    check (4 ≤ buffer.length) (.fatal ("get_parallel status response is truncated: expected at "
      ++ s!"least 4 bytes, got {buffer.length}"))
    modify (complete address)
    check (statusWord buffer &&& getStatusOutputTooSmall = 0)
      (.fatal (s!"get_parallel: out_tensor packed capacity {outputCapacity} is smaller than the "
        ++ "stored value"))
    let hits ← examineStatuses outputCapacity rest
    pure ((address, decide (statusWord buffer &&& getStatusFound ≠ 0)) :: hits)

/-- The call, with the loop that examines the statuses as an argument. -/
def getParallelWith (examine : List (Nat × List UInt8) → Call (List (Nat × Bool)))
    (platform : Platform) (operations : List Nat) (keys : List (List UInt8)) (tensor : Tensor)
    (answers : ParallelAnswers) : Call (List (Nat × Bool)) := do
  check (operations ≠ []) (.fatal "get_parallel: clients must not be empty")
  check (operations.length = keys.length) (.fatal ("get_parallel: clients and keys must have "
    ++ s!"equal length ({operations.length} != {keys.length})"))
  let owner := operations.headD 0
  check (owner ≠ 0) (.fatal "get_parallel: client 0 is null")
  let world ← look
  let build := decide (buildsWorkload world owner operations)
  modify (openResident owner operations)
  enclosed
    (withGets platform (world.clients owner).session.clientSubmesh owner build tensor
      (do
        let buffers ← runResident owner operations answers
        examine (operations.zip buffers))
      (operations.zipIdx.zip keys |>.map fun ((address, i), key) => (i, address, key)))
    dropBuildGuard

/-- `ClientOperations::get_parallel`. -/
def getParallel (platform : Platform) (operations : List Nat) (keys : List (List UInt8))
    (tensor : Tensor) (answers : ParallelAnswers) : Call (List Bool) := do
  let hits ← getParallelWith (examineStatuses tensor.packedBufferSizeBytes) platform operations
    keys tensor answers
  pure (hits.map Prod.snd)

/-! ## The adapter -/

/-- The members of a client that the adapter reads and changes. -/
structure ClientImpl where
  operations : Nat
  lifecycleState : LifecycleState
  resourcesHeld : Bool
deriving DecidableEq, Repr

/-- Clients own their operations: no two point to the same object. -/
structure Host where
  impls : Nat → ClientImpl
  world : World
  owned : ∀ first second, (impls first).operations ≠ 0 →
    (impls first).operations = (impls second).operations → first = second

/-- `backend::client_operations_quarantine`. -/
def ClientOperations.quarantine (client : ClientOperations) : ClientOperations :=
  if client.state = .quarantined ∨ client.state = .closed then client
  else { client with state := .quarantined, quarantinePublished := true }

/-- The client gives its operations and its resources to the holder that is never freed. -/
def Host.quarantineResources (host : Host) (client : Nat) : Host where
  impls := update host.impls client
    { host.impls client with
      lifecycleState := .quarantined
      operations := 0
      resourcesHeld := true }
  world := host.world.setClient (host.impls client).operations
    (host.world.clients (host.impls client).operations).quarantine
  owned := by
    intro first second points same
    by_cases isFirst : first = client
    · simp [isFirst] at points
    · by_cases isSecond : second = client
      · rw [isSecond, update_self, update_of_ne isFirst] at same
        rw [update_of_ne isFirst] at points
        exact absurd same points
      · rw [update_of_ne isFirst] at points
        rw [update_of_ne isFirst, update_of_ne isSecond] at same
        exact host.owned first second points same

def Host.syncOperationsQuarantine (host : Host) (client : Nat) : Host :=
  let impl := host.impls client
  if impl.operations = 0 ∨ (host.world.clients impl.operations).state ≠ .quarantined ∨
      impl.lifecycleState = .quarantined then host
  else host.quarantineResources client

/-- The checks of the adapter before the call. -/
def Host.admitParallel (host : Host) (clients : List Nat) (keys : List (List UInt8)) :
    Except Failure (List Nat) := do
  if clients = [] then .error (.fatal "get_parallel: clients must not be empty")
  else if clients.length ≠ keys.length then
    .error (.fatal "get_parallel: clients and keys must have equal length")
  else if 0 ∈ clients then
    .error (.fatal s!"get_parallel: client {clients.idxOf 0} is null")
  else if ¬ clients.Nodup then .error (.fatal "get_parallel: clients must be distinct")
  else if ∃ client ∈ clients, (host.impls client).lifecycleState ≠ .established ∨
      (host.impls client).operations = 0 then
    .error (.fatal "Client is not established (closed or quarantined)")
  else .ok (clients.map fun client => (host.impls client).operations)

/-- The backend's call on the operations of the listed clients. -/
def Host.callParallelWith (examine : List (Nat × List UInt8) → Call (List (Nat × Bool)))
    (platform : Platform) (host : Host) (operations : List Nat) (keys : List (List UInt8))
    (tensor : Tensor) (answers : ParallelAnswers) : Except Failure (List (Nat × Bool)) × Host :=
  let outcome := getParallelWith examine platform operations keys tensor answers host.world
  (outcome.1, { host with world := outcome.2 })

/-- The adapter looks at the operations of every client, whether the call returned or
threw. -/
def Host.syncAll (host : Host) (clients : List Nat) : Host :=
  clients.foldl Host.syncOperationsQuarantine host

/-- `Client::Impl::get_parallel`. -/
def Host.getParallel (platform : Platform) (host : Host) (clients : List Nat)
    (keys : List (List UInt8)) (tensor : Tensor) (answers : ParallelAnswers) :
    Except Failure (List Bool) × Host :=
  match host.admitParallel clients keys with
  | .error failure => (.error failure, host)
  | .ok operations =>
    let (found, after) := host.callParallelWith (examineStatuses tensor.packedBufferSizeBytes)
      platform operations keys tensor answers
    (found.map (·.map Prod.snd), after.syncAll clients)

end KvCache.ClientOps
