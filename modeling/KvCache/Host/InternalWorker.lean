import KvCache.Host.MoveChannel

/-!
# The internal host worker

The worker thread of the runtime keeps the host values itself. It drops the old value of
a slot before it reserves a destination, decides where the device reads a value from when
it builds the commit request, and posts that request before it stages a stream and after
it stages an admission.
-/

namespace KvCache.HostTransfer.Internal

open Layout Function Worker

/-- A host value; it lies in the pool if it has units of it. -/
structure HostValue where
  heap : List UInt8
  len : Nat
  poolUnit : Nat
  poolUnits : Nat
  generation : Nat
deriving DecidableEq, Repr

/-- The runtime, the host values and the counters of the worker. -/
structure State where
  runtime : Runtime
  hostValues : Nat → Option HostValue
  seen : Nat
  commitIssued : Nat
  evictIssued : Nat

variable (cfg : RuntimeConfig) (device : Device)

/-- Run a program on the runtime. -/
def core {α : Type} (program : Worker Runtime α) : Worker State α :=
  within State.runtime (fun runtime state => { state with runtime }) program

/-- The bytes of a host value. -/
def hostValueBytes (runtime : Runtime) (value : HostValue) (size : Nat) : List UInt8 :=
  if 0 < value.poolUnits then
    runtime.window.read (cfg.poolReadOff + value.poolUnit * maxChunkValueBytes) size
  else value.heap.take size

/-- Keep a host value. -/
def keep (slot : Nat) (value : HostValue) (state : State) : State :=
  { state with hostValues := update state.hostValues slot (some value) }

/-- Erase a host value and reclaim its extent. -/
def dropHostValue (slot : Nat) : Worker State Unit := do
  let state ← current
  match state.hostValues slot with
  | none => pure ()
  | some value =>
    core (invalidateMeta cfg slot)
    change fun state => { state with hostValues := update state.hostValues slot none }
    if value.poolUnits ≠ 0 then core (poolRelease cfg value.poolUnit value.poolUnits)
    else pure ()

/-! ## Write-through -/

/-- Read the value from the heap of the device, into the pool if it has room. -/
def stageValueDeviceToHost (slot valueByteOff totalLen : Nat) : Worker State Unit := do
  dropHostValue cfg slot
  let units := chunkCountFor totalLen
  let state ← current
  let images := device.banks state.runtime.effects
  match ← core (poolAlloc cfg units) with
  | some unit =>
    let destination := cfg.poolReadOff + unit * maxChunkValueBytes
    core <| change fun runtime =>
      let image := readValueUnitsInto cfg images valueByteOff totalLen
        fun address => runtime.window (destination + address)
      { runtime with
        window := runtime.window.write destination (image.read 0 (units * maxChunkValueBytes)) }
    change (keep slot ⟨[], totalLen, unit, units, 0⟩)
  | none =>
    let image := readValueUnitsInto cfg images valueByteOff totalLen fun _ => 0
    change (keep slot ⟨image.read 0 totalLen, totalLen, 0, 0, 0⟩)

/-- Where the device pushes a value: an extent of the pool, or the staging window. -/
structure DevicePushDestination where
  poolUnit : Option Nat
  readOff : Nat
  generation : Nat
deriving DecidableEq, Repr

/-- Drop the old value and reserve a destination. -/
def reserveDevicePushDestination (slot totalLen : Nat) : Worker State DevicePushDestination := do
  dropHostValue cfg slot
  match ← core (poolAlloc cfg (chunkCountFor totalLen)) with
  | none => pure ⟨none, 0, 0⟩
  | some unit =>
    let readOff := cfg.poolReadOff + unit * maxChunkValueBytes
    let generation ← core (publishMeta cfg slot readOff totalLen)
    pure ⟨some unit, readOff, generation⟩

/-- Keep a pushed value: its extent, or a copy of the staging window. -/
def publishDevicePushedValue (slot totalLen : Nat) (destination : DevicePushDestination) :
    Worker State Unit :=
  change fun state =>
    match destination.poolUnit with
    | some unit =>
      keep slot ⟨[], totalLen, unit, chunkCountFor totalLen, destination.generation⟩ state
    | none =>
      keep slot ⟨state.runtime.window.read 0 totalLen, totalLen, 0, 0, destination.generation⟩ state

/-- Give a reserved destination back. -/
def releaseDestination (slot totalLen : Nat) (destination : DevicePushDestination) :
    Worker State Unit :=
  match destination.poolUnit with
  | none => pure ()
  | some unit => do
    core (invalidateMeta cfg slot)
    core (poolRelease cfg unit (chunkCountFor totalLen))

/-- Copy a value to the host. -/
def writeThrough (request : MoveRequest) : Worker State Unit :=
  if cfg.stageNocOk then do
    let destination ← reserveDevicePushDestination cfg request.slot request.totalLen
    change fun state => { state with evictIssued := succ32 state.evictIssued }
    core (change (emit (.evictAck destination.readOff destination.generation)))
    let state ← current
    core (change (emit (.evictAckSem state.evictIssued)))
    core (change fun runtime =>
      { runtime with window := device.push runtime.effects runtime.window })
    awaitOr (fun state => device.evictDone state.runtime.effects state.evictIssued)
      (releaseDestination cfg request.slot request.totalLen destination)
    publishDevicePushedValue request.slot request.totalLen destination
  else stageValueDeviceToHost cfg device request.slot request.valueByteOff request.totalLen

/-! ## Promotion and host serve -/

/-- The offset of a value in the pool, or zero for the staging window. -/
def promoteReadOff (slot : Nat) (state : State) : Nat :=
  match state.hostValues slot with
  | none => 0
  | some value =>
    if value.poolUnits = 0 then 0 else cfg.poolReadOff + value.poolUnit * maxChunkValueBytes

/-- Lay a unit into a page; only what is left of the page is cleared. -/
def fillPage (offset : Nat) (unit : List UInt8) (scratch : ByteMemory) : ByteMemory :=
  let copied := scratch.write offset unit
  if unit.length < cfg.alignedPage then
    copied.clear (offset + unit.length) (offset + cfg.alignedPage)
  else copied

/-- Stage a value before its commit request: nothing for a value in the pool, a copy to the
staging window, or a transfer for each bank without a mapping. -/
def stageValueHostToDevice (slot valueByteOff totalLen stageReadOff : Nat) :
    Worker State Unit := do
  let state ← current
  if cfg.stageNocOk then
    if stageReadOff ≠ 0 then pure ()
    else
      match state.hostValues slot with
      | none => fail
      | some value =>
        fatalUnless (value.len = totalLen)
        fatalUnless (totalLen ≤ cfg.stageBytes)
        core (change (emit (.stage 0 (hostValueBytes cfg state.runtime value totalLen))))
  else
    match state.hostValues slot with
    | none => fail
    | some value =>
      let bytes := hostValueBytes cfg state.runtime value value.len
      fatalUnless (bytes.length = totalLen)
      core (change (emitAll
        ((bankWrites cfg (fillPage cfg) bytes valueByteOff totalLen).map .heapWrite)))

/-- Stage a value after its commit request and publish the progress. -/
def stageHostValueForStream (slot totalLen stageReadOff : Nat) : Worker State Unit := do
  let state ← current
  match state.hostValues slot with
  | none => fail
  | some value =>
    fatalUnless (value.len = totalLen)
    fatalUnless (stageReadOff ≠ 0 ↔ 0 < value.poolUnits)
    if stageReadOff ≠ 0 then core (change (emit (.stageProgress (chunkCountFor totalLen))))
    else
      fatalUnless (totalLen ≤ cfg.stageBytes)
      core (change (emitAll
        (stageStream (hostValueBytes cfg state.runtime value value.len) totalLen)))

/-- Post a commit request and its count. -/
def postCommitReq (request : CommitRequest) : Worker State Unit := do
  core (change (emit (.commitReq request)))
  let state ← current
  core (change (emit (.commitReqSem state.commitIssued)))

/-- Serve a promote or a host serve, up to the end of the wait for the device. -/
def moveToDevice (request : MoveRequest) : Worker State Unit := do
  let state ← current
  let stageReadOff := promoteReadOff cfg request.slot state
  let commitReq : CommitRequest :=
    ⟨request.slot, request.valueByteOff, request.totalLen, request.keyLen,
      request.keyArea.take (min request.keyLen maxPutKeyBytes), stageReadOff⟩
  change fun state => { state with commitIssued := succ32 state.commitIssued }
  if request.op = moveOpHostServe ∧ cfg.stageNocOk then
    core (change (emit (.stageProgress 0)))
    postCommitReq commitReq
    stageHostValueForStream cfg request.slot request.totalLen stageReadOff
  else
    stageValueHostToDevice cfg request.slot request.valueByteOff request.totalLen stageReadOff
    postCommitReq commitReq
  await fun state => device.promoteDone state.runtime.effects state.commitIssued

/-! ## The loop -/

/-- Count a request and publish the count. -/
def publishProcessed : Worker State Unit := do
  change fun state => { state with seen := succ32 state.seen }
  let state ← current
  core (change (emit (.moveProcessed state.seen)))

/-- Handle a request by its operation; an unknown operation is only counted. -/
def handleRequest (request : MoveRequest) : Worker State Unit :=
  if request.op = moveOpWriteThrough then writeThrough cfg device request
  else if request.op = moveOpRemoveBacking then dropHostValue cfg request.slot
  else if request.op = moveOpDevicePromote ∨ request.op = moveOpHostServe then
    moveToDevice cfg device request
  else pure ()

/-- One round of the loop over the snapshot of the channel. -/
def tieringWorkerLoop (posted : Nat) (request : MoveRequest) : Worker State Unit := do
  let state ← current
  if posted = state.seen then pure ()
  else
    handleRequest cfg device request
    publishProcessed

end KvCache.HostTransfer.Internal
