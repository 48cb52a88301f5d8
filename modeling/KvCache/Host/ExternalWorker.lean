import KvCache.Host.MoveChannel

/-!
# The external host worker

The policy over host values lives in the manager; the runtime offers four calls. Poll
decodes and checks a posted request and makes it the active one; receive moves a value
to the host, supply moves one to the device, and complete counts the request. Every call
compares its argument with the active request, and a transfer is made once.

The manager keeps a mapped value by its lease. The lease gives its extent back when it is
released, and invalidates the record only if that still has its generation.
-/

namespace KvCache.HostTransfer.External

open Layout Pool PoolMachine Function Worker

/-! ## The runtime -/

/-- Kinds of host requests. -/
inductive Kind where
  | writeThrough
  | removeBacking
  | promoteToDevice
  | serveGet
deriving DecidableEq, Repr

/-- The kind of an operation of the channel. -/
def hostRequestKind (op : Nat) : Option Kind :=
  if op = moveOpWriteThrough then some .writeThrough
  else if op = moveOpRemoveBacking then some .removeBacking
  else if op = moveOpDevicePromote then some .promoteToDevice
  else if op = moveOpHostServe then some .serveGet
  else none

/-- What poll returns. -/
structure HostRequest where
  sequence : Nat
  kind : Kind
  slot : Nat
  valueLen : Nat
  deviceValueOffset : Nat
deriving DecidableEq, Repr

/-- How far the transfer of the active request is. -/
inductive Phase where
  | pending
  | transferInProgress
  | transferComplete
deriving DecidableEq, Repr

/-- The active request. -/
structure RequestState where
  phase : Phase
  sequence : Nat
  op : Nat
  slot : Nat
  valueByteOff : Nat
  totalLen : Nat
  keyLen : Nat
  key : List UInt8
deriving DecidableEq, Repr

/-- A mapped extent that backs a value. -/
structure HostLease where
  slot : Nat
  poolUnit : Nat
  poolUnits : Nat
  readOffset : Nat
  generation : Nat
  valueLen : Nat
deriving DecidableEq, Repr

/-- The runtime, the active request and the counters. -/
structure Core where
  runtime : Runtime
  request : Option RequestState
  seen : Nat
  commitIssued : Nat
  evictIssued : Nat

variable (cfg : RuntimeConfig) (device : Device)

/-- Run a program on the runtime. -/
def core {α : Type} (program : Worker Runtime α) : Worker Core α :=
  within Core.runtime (fun runtime state => { state with runtime }) program

/-- The argument of a call is the active request. -/
def matchesActive (request : HostRequest) (active : RequestState) : Prop :=
  request.sequence = active.sequence ∧ request.slot = active.slot ∧
    request.valueLen = active.totalLen ∧ request.deviceValueOffset = active.valueByteOff ∧
    hostRequestKind active.op = some request.kind

instance (request : HostRequest) (active : RequestState) :
    Decidable (matchesActive request active) := by
  unfold matchesActive
  infer_instance

/-- The active request, if the argument of the call matches it. -/
def validateExternalRequest (request : HostRequest) : Worker Core RequestState := do
  let state ← current
  match state.request with
  | none => fail
  | some active =>
    fatalUnless (matchesActive request active)
    pure active

/-- Set the phase of the active request. -/
def setPhase (phase : Phase) : Worker Core Unit :=
  change fun state => { state with request := state.request.map ({ · with phase }) }

/-- The value range of a request ends inside the heap and starts on a unit. -/
def rangeInHeap (request : MoveRequest) : Prop :=
  request.valueByteOff % maxChunkValueBytes = 0 ∧
    request.valueByteOff + chunkCountFor request.totalLen * maxChunkValueBytes ≤ cfg.valueHeapBytes

/-- The checks of a polled request of a kind. -/
def WellFormed (request : MoveRequest) (kind : Kind) : Prop :=
  request.slot < cfg.maxKeys ∧ request.keyLen ≤ cfg.maxKeyLen ∧
    if kind = .removeBacking then
      request.valueByteOff = 0 ∧ request.totalLen = 0 ∧ request.keyLen = 0
    else
      (0 < request.totalLen ∧ request.totalLen ≤ cfg.maxValueBytes) ∧
        (if kind = .promoteToDevice then 0 < request.keyLen else request.keyLen = 0) ∧
        ((kind = .serveGet ∧ request.valueByteOff = 0) ∨ rangeInHeap cfg request)

instance (request : MoveRequest) (kind : Kind) : Decidable (WellFormed cfg request kind) := by
  unfold WellFormed rangeInHeap
  infer_instance

/-- The active request decoded from the channel. -/
def decode (posted : Nat) (request : MoveRequest) : RequestState :=
  ⟨.pending, posted, request.op, request.slot, request.valueByteOff, request.totalLen,
    request.keyLen, request.keyArea.take request.keyLen⟩

/-- The request that poll returns. -/
def announce (posted : Nat) (kind : Kind) (request : MoveRequest) : HostRequest :=
  ⟨posted, kind, request.slot, request.totalLen, request.valueByteOff⟩

/-- Read the channel; a new request that passes the checks becomes the active one. -/
def pollExternalHostRequest (posted : Nat) (request : MoveRequest) :
    Worker Core (Option HostRequest) := do
  let state ← current
  fatalUnless (state.request = none)
  if posted = state.seen then pure none
  else
    fatalUnless (posted = succ32 state.seen)
    match hostRequestKind request.op with
    | none => fail
    | some kind =>
      fatalUnless (WellFormed cfg request kind)
      change fun state => { state with request := some (decode posted request) }
      pure (some (announce posted kind request))

/-! ## Receiving a value -/

/-- A received value: a lease, or bytes. -/
structure ReceivedValue where
  lease : Option HostLease
  bytes : List UInt8
deriving DecidableEq, Repr

/-- Give a reserved extent back. -/
def releaseReservedPool (slot units : Nat) (poolUnit : Option Nat) : Worker Core Unit :=
  match poolUnit with
  | none => pure ()
  | some unit => do
    core (invalidateMeta cfg slot)
    core (HostTransfer.poolRelease cfg unit units)

/-- What a push is received as: a lease on its extent, or a copy of the staging window. -/
def receivePushed (request : HostRequest) (poolUnit : Option Nat) (readOffset generation : Nat) :
    Worker Core ReceivedValue := do
  let state ← current
  setPhase .transferComplete
  match poolUnit with
  | some unit =>
    pure ⟨some ⟨request.slot, unit, chunkCountFor request.valueLen, readOffset, generation,
      request.valueLen⟩, []⟩
  | none => pure ⟨none, state.runtime.window.read 0 request.valueLen⟩

/-- Receive with a mapped window: publish a destination and wait for the push. -/
def receiveMapped (request : HostRequest) (preferMappedLease : Bool) : Worker Core ReceivedValue := do
  let units := chunkCountFor request.valueLen
  let poolUnit ← if preferMappedLease then core (HostTransfer.poolAlloc cfg units) else pure none
  let readOffset := (poolUnit.map (cfg.poolReadOff + · * maxChunkValueBytes)).getD 0
  let generation ←
    match poolUnit with
    | none => pure 0
    | some _ => core (publishMeta cfg request.slot readOffset request.valueLen)
  change fun state => { state with evictIssued := succ32 state.evictIssued }
  core (change (emit (.evictAck readOffset generation)))
  let state ← current
  core (change (emit (.evictAckSem state.evictIssued)))
  core (change fun runtime =>
    { runtime with window := device.push runtime.effects runtime.window })
  awaitOr (fun state => device.evictDone state.runtime.effects state.evictIssued)
    (releaseReservedPool cfg request.slot units poolUnit)
  receivePushed request poolUnit readOffset generation

/-- Receive without a mapped window: read the heap of the device. -/
def receiveRead (request : HostRequest) (preferMappedLease : Bool) : Worker Core ReceivedValue := do
  let units := chunkCountFor request.valueLen
  let poolUnit ← if preferMappedLease then core (HostTransfer.poolAlloc cfg units) else pure none
  let state ← current
  let images := device.banks state.runtime.effects
  match poolUnit with
  | some unit =>
    let destination := cfg.poolReadOff + unit * maxChunkValueBytes
    core <| change fun runtime =>
      let image := readValueUnitsInto cfg images request.deviceValueOffset request.valueLen
        fun address => runtime.window (destination + address)
      { runtime with
        window := runtime.window.write destination (image.read 0 (units * maxChunkValueBytes)) }
    let generation ← core (publishMeta cfg request.slot destination request.valueLen)
    setPhase .transferComplete
    pure ⟨some ⟨request.slot, unit, units, destination, generation, request.valueLen⟩, []⟩
  | none =>
    let image := readValueUnitsInto cfg images request.deviceValueOffset request.valueLen fun _ => 0
    setPhase .transferComplete
    pure ⟨none, image.read 0 request.valueLen⟩

/-- Receive the value of a write-through. -/
def receiveExternalValue (request : HostRequest) (preferMappedLease : Bool) :
    Worker Core ReceivedValue := do
  let active ← validateExternalRequest request
  fatalUnless (request.kind = .writeThrough)
  fatalUnless (active.phase = .pending)
  setPhase .transferInProgress
  if cfg.stageNocOk then receiveMapped cfg device request preferMappedLease
  else receiveRead cfg device request preferMappedLease

/-! ## Supplying a value -/

/-- Lay a unit into a page and clear the rest of the page. -/
def fillPage (offset : Nat) (unit : List UInt8) (scratch : ByteMemory) : ByteMemory :=
  (scratch.write offset unit).clear (offset + unit.length) (offset + cfg.alignedPage)

/-- Post a commit request and its count. -/
def postCommitRequest (request : CommitRequest) : Worker Core Unit := do
  core (change (emit (.commitReq request)))
  let state ← current
  core (change (emit (.commitReqSem state.commitIssued)))

/-- Stage a value before its commit request. -/
def stageForPromotion (request : HostRequest) (lease : Option HostLease) (heapBytes : List UInt8) :
    Worker Core Unit :=
  if cfg.stageNocOk then
    match lease with
    | some _ => pure ()
    | none => do
      fatalUnless (request.valueLen ≤ cfg.stageBytes)
      core (change (emit (.stage 0 (heapBytes.take request.valueLen))))
  else do
    fatalUnless (lease = none)
    core (change (emitAll
      ((bankWrites cfg (fillPage cfg) heapBytes request.deviceValueOffset request.valueLen).map
        .heapWrite)))

/-- Stage a value after its commit request and publish the progress. -/
def stageForStream (request : HostRequest) (lease : Option HostLease) (heapBytes : List UInt8) :
    Worker Core Unit :=
  match lease with
  | some _ => core (change (emit (.stageProgress (chunkCountFor request.valueLen))))
  | none => do
    fatalUnless (request.valueLen ≤ cfg.stageBytes)
    core (change (emitAll (stageStream heapBytes request.valueLen)))

/-- The one source of a supply fits the request. -/
def sourceFits (request : HostRequest) (lease : Option HostLease) (heapBytes : List UInt8) : Prop :=
  match lease with
  | some lease => heapBytes = [] ∧ lease.valueLen = request.valueLen
  | none => heapBytes ≠ [] ∧ heapBytes.length = request.valueLen

instance (request : HostRequest) (lease : Option HostLease) (heapBytes : List UInt8) :
    Decidable (sourceFits request lease heapBytes) := by
  unfold sourceFits
  cases lease <;> infer_instance

/-- Supply the value of a promote or a host serve. -/
def supplyExternalValue (request : HostRequest) (lease : Option HostLease)
    (heapBytes : List UInt8) : Worker Core Unit := do
  let active ← validateExternalRequest request
  fatalUnless (request.kind = .promoteToDevice ∨ request.kind = .serveGet)
  fatalUnless (active.phase = .pending)
  fatalUnless (sourceFits request lease heapBytes)
  setPhase .transferInProgress
  let stageReadOffset := (lease.map HostLease.readOffset).getD 0
  let commitRequest : CommitRequest :=
    ⟨request.slot, request.deviceValueOffset, request.valueLen, active.keyLen, active.key,
      stageReadOffset⟩
  change fun state => { state with commitIssued := succ32 state.commitIssued }
  if request.kind = .serveGet ∧ cfg.stageNocOk then
    core (change (emit (.stageProgress 0)))
    postCommitRequest commitRequest
    stageForStream cfg request lease heapBytes
  else
    stageForPromotion cfg request lease heapBytes
    postCommitRequest commitRequest
  await fun state => device.promoteDone state.runtime.effects state.commitIssued
  setPhase .transferComplete

/-! ## Completing a request -/

/-- Count the active request once its transfer is made. -/
def completeExternalHostRequest (request : HostRequest) : Worker Core Unit := do
  let active ← validateExternalRequest request
  fatalUnless ((request.kind = .removeBacking ∧ active.phase = .pending) ∨
    active.phase = .transferComplete)
  core (change (emit (.moveProcessed request.sequence)))
  change fun state => { state with seen := request.sequence, request := none }

/-- Release a lease. What a failed check leaves of the free list stays; the failure itself is
swallowed. -/
def releaseExternalHostLease (lease : HostLease) (runtime : Runtime) : Runtime :=
  let release : Worker Runtime Unit := do
    invalidateMetaIfGeneration cfg lease.slot lease.generation
    HostTransfer.poolRelease cfg lease.poolUnit lease.poolUnits
  match run release runtime with
  | .finished _ after => after
  | .stopped after => after
  | .failed after => after

/-! ## The manager -/

/-- A host value of the manager. -/
structure HostValue where
  len : Nat
  lease : Option HostLease
  bytes : List UInt8
deriving DecidableEq, Repr

/-- The runtime and the host values. -/
structure State where
  runtime : Core
  hostValues : Nat → Option HostValue

/-- Call the runtime. -/
def call {α : Type} (program : Worker Core α) : Worker State α :=
  within State.runtime (fun runtime state => { state with runtime }) program

/-- Erase the host value of a slot; its lease goes with it. -/
def eraseHostValue (slot : Nat) (state : State) : State :=
  match (state.hostValues slot).bind HostValue.lease with
  | none => { state with hostValues := update state.hostValues slot none }
  | some lease =>
    { runtime := { state.runtime with
        runtime := releaseExternalHostLease cfg lease state.runtime.runtime }
      hostValues := update state.hostValues slot none }

/-- Make the transfer of a request and keep what it received. -/
def transferValue (request : HostRequest) : Worker State Unit :=
  match request.kind with
  | .writeThrough => do
    change (eraseHostValue cfg request.slot)
    let received ← call (receiveExternalValue cfg device request true)
    fatalUnless (received.lease.isSome ↔ received.bytes = [])
    change (eraseHostValue cfg request.slot)
    change fun state =>
      { state with
        hostValues := update state.hostValues request.slot
          (some ⟨request.valueLen, received.lease, received.bytes⟩) }
  | .removeBacking => change (eraseHostValue cfg request.slot)
  | .promoteToDevice | .serveGet => do
    let state ← current
    match state.hostValues request.slot with
    | none => fail
    | some value =>
      fatalUnless (value.len = request.valueLen)
      call (supplyExternalValue cfg device request value.lease
        (if value.lease = none then value.bytes else []))

/-- Handle a request and complete it. -/
def handleHostRequest (request : HostRequest) : Worker State Unit := do
  transferValue cfg device request
  call (completeExternalHostRequest request)

/-- One round of the loop over the snapshot of the channel. -/
def tieringWorkerLoop (posted : Nat) (request : MoveRequest) : Worker State Unit := do
  match ← call (pollExternalHostRequest cfg posted request) with
  | none => pure ()
  | some request => handleHostRequest cfg device request

end KvCache.HostTransfer.External
