import KvCache.Foundation.PointerStack
import KvCache.Foundation.Run

/-!
# Who owns what a device program can touch

A runtime core reserves buffers, maps the stage arena, prepares a device program and
launches it. When all goes well it terminates the program and releases everything. When
the outcome of a launch or of a termination is unknown, it moves everything into a node
that was allocated at construction and pushes the node on a global list, where it stays;
a test may drain the list and delete the nodes that it knows to be safe.

The shards of a static inter-mesh endpoint share one program. Each of them appends its
kernels; the last one compiles, and one launch starts them all. A shard that terminates
signals its own kernels only. The last to do so waits for the program, so that an early
shard leaves its resources to the service that owns the program.

A call of a user is one step. Where it fails is up to the environment; what follows is up
to the code. Pushing on the list and draining it takes steps of its own, which interleave
with everything else.
-/

namespace KvCache.RuntimeCore

open Run Function

inductive HostPolicyMode where
  | internal
  | external
deriving DecidableEq, Repr

/-- The life cycle of a core. -/
inductive LifecycleState where
  | constructing
  | ready
  | closing
  | quarantined
  | closed
deriving DecidableEq, Repr

/-- The life cycle of the device runtime that wraps an external core. -/
inductive ServerDeviceRuntimeState where
  | prepared
  | running
  | closing
  | terminated
  | quarantined
deriving DecidableEq, Repr

/-- What a core owns. The submesh is kept by the holder that is to become the node. -/
inductive Resource where
  | submesh
  | serverL1
  | getValueCb
  | getIngressL1
  | getAdmissionL1
  | residencyLru
  | dramValue
  | dramPutHostQueue
  | dramDirectory
  | dramHashmap
  | dramHeapMetadata
  | stageArena
  | workload
deriving DecidableEq, Repr

/-- Where a resource of a core is: not reserved, in a member of the core, in its node,
among the retired resources of a service, or freed. -/
inductive Place where
  | absent
  | members
  | node
  | retired (service : Nat)
  | freed
deriving DecidableEq, Repr

/-- What a core is constructed with: the arguments, the configured shards, and the
options of tests. -/
structure Config where
  mode : HostPolicyMode
  submesh : Nat
  workerGroup : Nat
  staticIntermesh : Bool
  shards : Nat
  ingress : Bool
  admission : Bool
  terminateFailures : Nat
  failLaunchAfterEnqueue : Bool
deriving DecidableEq, Repr

/-- The key of a core in the registry. -/
abbrev RegistryKey := Nat × Nat

def Config.slot (config : Config) : RegistryKey := (config.submesh, config.workerGroup)

/-- Several shards share one program. -/
def Config.sharesProgram (config : Config) : Bool := config.staticIntermesh && 1 < config.shards

/-- The worker groups that the carve-out in L1 spans. -/
def Config.workerGroups (config : Config) : Nat :=
  if config.staticIntermesh then config.shards else 1

/-- The arguments are checked before the slot is claimed. -/
def Config.accepted (config : Config) : Bool :=
  (config.staticIntermesh || config.workerGroup == 0) &&
    decide (config.workerGroup < config.shards) && decide (config.shards ≤ 8)

/-- The device program of the core addresses this resource. -/
def Config.uses (config : Config) : Resource → Bool
  | .getIngressL1 => config.ingress
  | .getAdmissionL1 => config.admission
  | .workload => !config.sharesProgram
  | _ => true

/-- One core, its device runtime and its node. Which service its kernels were appended
to, whether its own program may be running and whether its termination has returned are
kept to state what is proved. -/
structure Core where
  config : Config
  lifecycle : LifecycleState
  device : ServerDeviceRuntimeState
  place : Resource → Place
  service : Option Nat
  nodeService : Option Nat
  launchMayHaveStarted : Bool
  terminationSignalled : Bool
  terminateFailuresRemaining : Nat
  quarantineSafeToRelease : Bool
  nodeSafeToRelease : Bool
  destroyed : Bool
  joined : Option Nat
  running : Bool
  terminateReturned : Bool

/-- The program that the shards of an endpoint share, and whether it may be running. -/
structure Service where
  submesh : Nat
  shardCount : Nat
  workload : Bool
  servers : List Nat
  terminatedServers : Nat
  prepared : Bool
  preparationFailed : Bool
  launched : Bool
  running : Bool
deriving DecidableEq, Repr

/-- The cores and services of the process, the registry of slots, the weak pointers to
services and to carve-outs, and the list of nodes. -/
structure State where
  cores : Nat → Core
  born : Nat
  activeSlots : RegistryKey → Bool
  services : Nat → Service
  created : Nat
  muxRegistry : Nat → Option Nat
  sharedServerL1 : Nat → Nat
  failedTeardown : PointerStack Nat

/-- A core with its holder and nothing else. -/
def Core.fresh (config : Config) : Core where
  config := config
  lifecycle := .constructing
  device := .prepared
  place := fun resource => if resource = .submesh then .members else .absent
  service := none
  nodeService := none
  launchMayHaveStarted := false
  terminationSignalled := false
  terminateFailuresRemaining := config.terminateFailures
  quarantineSafeToRelease := false
  nodeSafeToRelease := false
  destroyed := false
  joined := none
  running := false
  terminateReturned := false

/-- No core. -/
def Core.unborn : Core :=
  { Core.fresh ⟨.internal, 0, 0, false, 0, false, false, 0, false⟩ with place := fun _ => .absent }

/-- A service without shards. -/
def Service.fresh (submesh shardCount : Nat) : Service :=
  ⟨submesh, shardCount, false, [], 0, false, false, false, false⟩

def start : State where
  cores := fun _ => .unborn
  born := 0
  activeSlots := fun _ => false
  services := fun _ => .fresh 0 0
  created := 0
  muxRegistry := fun _ => none
  sharedServerL1 := fun _ => 0
  failedTeardown := .empty

/-- The core holds its resources: it is neither closed nor quarantined nor destroyed. -/
def Core.alive (core : Core) : Bool := core.place .submesh = .members

/-- A shared pointer to the service is left, in a core or in a node. -/
def Referenced (state : State) (service : Nat) : Prop :=
  ∃ id, id < state.born ∧
    ((state.cores id).service = some service ∨ (state.cores id).nodeService = some service)

instance (state : State) (service : Nat) : Decidable (Referenced state service) :=
  inferInstanceAs (Decidable (∃ id, id < state.born ∧ _))

/-- What is there is owned by a core, by a node, or by a service that still exists. -/
def Place.Owned (state : State) : Place → Prop
  | .members => True
  | .node => True
  | .retired service => Referenced state service
  | .absent => False
  | .freed => False

instance (state : State) (place : Place) : Decidable (place.Owned state) := by
  cases place <;> unfold Place.Owned <;> infer_instance

def Owned (state : State) (id : Nat) (resource : Resource) : Prop :=
  ((state.cores id).place resource).Owned state

instance (state : State) (id : Nat) (resource : Resource) :
    Decidable (Owned state id resource) :=
  inferInstanceAs (Decidable (Place.Owned ..))

def State.onCore (state : State) (id : Nat) (change : Core → Core) : State :=
  { state with cores := update state.cores id (change (state.cores id)) }

def State.onService (state : State) (id : Nat) (change : Service → Service) : State :=
  { state with services := update state.services id (change (state.services id)) }

/-- Move the listed members. -/
def Core.move (core : Core) (fields : List Resource) (target : Place) : Core :=
  { core with place := fun resource =>
      if resource ∈ fields ∧ core.place resource = .members then target
      else core.place resource }

/-! ## Quarantine -/

/-- The fields that are moved into the node, which is the holder itself. -/
def quarantinedFields : List Resource :=
  [.submesh, .workload, .serverL1, .getValueCb, .getIngressL1, .getAdmissionL1, .residencyLru,
    .dramValue, .dramPutHostQueue, .dramDirectory, .dramHashmap, .dramHeapMetadata, .stageArena]

/-- Move everything into the node and start to push it, unless there is no holder left. -/
def quarantineFailedTeardown (state : State) (id : Nat) : State :=
  if (state.cores id).alive then
    { state.onCore id fun core =>
        { core.move quarantinedFields .node with
          service := none
          nodeService := core.service
          nodeSafeToRelease := core.quarantineSafeToRelease } with
      failedTeardown := state.failedTeardown.load id }
  else state

/-- Quarantine under the state that says so. -/
def quarantine (state : State) (id : Nat) : State :=
  quarantineFailedTeardown
    (state.onCore id fun core => { core with lifecycle := .quarantined }) id

/-- The destructor of a core ends, or its constructor throws: the members are destroyed. -/
def destructMembers (state : State) (id : Nat) : State :=
  state.onCore id fun core =>
    { core.move quarantinedFields .freed with service := none, destroyed := true }

def eraseSlot (state : State) (slot : RegistryKey) : State :=
  { state with activeSlots := update state.activeSlots slot false }

/-! ## Construction -/

/-- Where the environment makes a constructor fail: while the buffers are reserved, in the
creation of the shared service, before the shard is appended, in the compilation, in the
creation of the worker thread, and in the submission. -/
inductive Failure where
  | reserving
  | service
  | kernels
  | compiling
  | thread
  | enqueue
deriving DecidableEq, Repr

/-- Allocate the holder and claim the slot. -/
def claim (state : State) (config : Config) : State :=
  { state with
    cores := update state.cores state.born (.fresh config)
    born := state.born + 1
    activeSlots := update state.activeSlots config.slot true }

/-- A carve-out of the submesh is in use and spans other worker groups. -/
def LayoutDiffers (state : State) (config : Config) : Prop :=
  state.sharedServerL1 config.submesh ≠ config.workerGroups ∧
    ∃ id, id < state.born ∧ (state.cores id).config.submesh = config.submesh ∧
      Owned state id .serverL1

instance (state : State) (config : Config) : Decidable (LayoutDiffers state config) :=
  inferInstanceAs (Decidable (_ ∧ ∃ id, id < state.born ∧ _))

/-- Reserve the buffers that the program uses, and map the arena. -/
def reserve (state : State) (id : Nat) : State :=
  let config := (state.cores id).config
  { state.onCore id fun core =>
      { core with place := fun resource =>
          if resource ≠ .submesh ∧ resource ≠ .workload ∧ config.uses resource then .members
          else core.place resource } with
    sharedServerL1 := update state.sharedServerL1 config.submesh config.workerGroups }

/-- Find the service of the submesh by the weak pointer, or make one. -/
def lockService (state : State) (config : Config) (failure : Option Failure) :
    Option (State × Nat) :=
  match state.muxRegistry config.submesh with
  | some service =>
    if Referenced state service then some (state, service) else makeService
  | none => makeService
where
  makeService : Option (State × Nat) :=
    if failure = some .service then none
    else
      some ({ state with
        services := update state.services state.created (.fresh config.submesh config.shards)
        created := state.created + 1
        muxRegistry := update state.muxRegistry config.submesh (some state.created) },
        state.created)

def failPreparation (service : Service) : Service := { service with preparationFailed := true }

/-- Append the kernels of a shard to the shared program; the last shard compiles it. The
flag says whether it threw. -/
def appendShard (state : State) (id service : Nat) (failure : Option Failure) : State × Bool :=
  let shared := state.services service
  if shared.shardCount ≠ (state.cores id).config.shards ∨ shared.preparationFailed ∨
      shared.prepared ∨ shared.launched then (state, true)
  else if failure = some .kernels then (state.onService service failPreparation, true)
  else
    let joined := (state.onCore id fun core => { core with joined := some service }).onService
      service fun shared => { shared with servers := shared.servers ++ [id] }
    if shared.servers.length + 1 < shared.shardCount then (joined, false)
    else if shared.servers.length + 1 ≠ shared.shardCount then
      (joined.onService service failPreparation, true)
    else if failure = some .compiling then
      (joined.onService service fun shared =>
        { shared with preparationFailed := true, servers := shared.servers.erase id }, true)
    else
      (joined.onService service fun shared => { shared with workload := true, prepared := true },
        false)

/-- Prepare the program of a core. The flag says whether it threw. -/
def prepareServerKernel (state : State) (id : Nat) (failure : Option Failure) : State × Bool :=
  let config := (state.cores id).config
  if config.sharesProgram then
    match lockService state config failure with
    | none => (state, true)
    | some (state, service) =>
      appendShard (state.onCore id fun core => { core with service := some service }) id service
        failure
  else if failure = some .kernels ∨ failure = some .compiling then (state, true)
  else
    (state.onCore id fun core => { core with place := update core.place .workload .members },
      false)

/-- Quarantine every shard of a program whose submission has an unknown outcome. -/
def quarantineShards (state : State) (shards : List Nat) : State :=
  shards.foldl quarantine state

/-- Every shard is told that the launch may have started before the submission. -/
def markLaunch (state : State) (service : Nat) : State :=
  let shards := (state.services service).servers
  ({ state with cores := fun id =>
      if id ∈ shards then { state.cores id with launchMayHaveStarted := true }
      else state.cores id }).onService service fun shared => { shared with running := true }

/-- Submit the program. The flag says whether it threw. -/
def launchServerKernel (state : State) (id : Nat) (enqueueFails : Bool) : State × Bool :=
  match (state.cores id).service with
  | some service =>
    let shared := state.services service
    if ¬ shared.prepared then (state, false)
    else if shared.preparationFailed ∨ shared.servers.length ≠ shared.shardCount then (state, true)
    else if shared.launched then (state, false)
    else if ¬ shared.workload then (state, true)
    else if enqueueFails then
      (quarantineShards (markLaunch state service) shared.servers, true)
    else
      let launched := (markLaunch state service).onService service fun shared =>
        { shared with launched := true }
      if shared.servers.any fun shard => (state.cores shard).config.failLaunchAfterEnqueue then
        (quarantineShards launched shared.servers, true)
      else (launched, false)
  | none =>
    if (state.cores id).place .workload ≠ .members then (state, true)
    else
      (state.onCore id fun core => { core with launchMayHaveStarted := true, running := true },
        enqueueFails || (state.cores id).config.failLaunchAfterEnqueue)

/-- The constructor catches: it quarantines if the launch may have started, and frees
its slot otherwise. -/
def unwind (state : State) (id : Nat) : State :=
  let core := state.cores id
  destructMembers
    (if core.launchMayHaveStarted then quarantine state id
    else eraseSlot state core.config.slot) id

/-- The constructor. An internal core also starts its worker and its program. -/
def construct (state : State) (config : Config) (failure : Option Failure) : State :=
  if ¬ config.accepted ∨ state.activeSlots config.slot then state
  else
    let id := state.born
    if failure = some .reserving ∨ LayoutDiffers state config then unwind (claim state config) id
    else
      let (prepared, threw) := prepareServerKernel (reserve (claim state config) id) id failure
      if threw then unwind prepared id
      else if config.mode = .external then prepared
      else if failure = some .thread then unwind prepared id
      else
        let (launched, threw) := launchServerKernel prepared id (failure = some .enqueue)
        if threw then unwind launched id
        else launched.onCore id fun core => { core with lifecycle := .ready }

/-! ## Launch -/

/-- The device runtime launches its external core. -/
def launch (state : State) (id : Nat) (enqueueFails : Bool) : State :=
  if (state.cores id).device ≠ .prepared then state
  else if (state.cores id).lifecycle ≠ .constructing then
    if (state.cores id).lifecycle = .quarantined then
      state.onCore id fun core => { core with device := .quarantined }
    else state
  else
    let (launched, threw) := launchServerKernel state id enqueueFails
    if threw then
      if (launched.cores id).launchMayHaveStarted then
        (quarantine launched id).onCore id fun core => { core with device := .quarantined }
      else launched
    else launched.onCore id fun core => { core with lifecycle := .ready, device := .running }

/-! ## Termination -/

/-- Where the environment makes a termination fail. -/
inductive Termination where
  | succeeds
  | deviceMissing
  | signalFails
  | finishFails
deriving DecidableEq, Repr

/-- Free what the core left to a service. -/
def Core.dropRetired (core : Core) (service : Nat) : Core :=
  { core with place := fun resource =>
      if core.place resource = .retired service then .freed else core.place resource }

/-- The program has ended: its workload and the retired resources are freed. -/
def finishService (state : State) (service : Nat) : State :=
  { state with cores := fun id => (state.cores id).dropRetired service }.onService service
    fun shared => { shared with workload := false, launched := false, running := false }

/-- A failure that tests inject after the program has ended. -/
def injectFailure (core : Core) : Core :=
  { core with
    terminateFailuresRemaining := core.terminateFailuresRemaining - 1
    quarantineSafeToRelease := true }

def returned (core : Core) : Core := { core with terminateReturned := true }

/-- Signal the kernels of a shard. -/
def signalShard (state : State) (id service : Nat) : State :=
  if (state.cores id).terminationSignalled then state
  else
    (state.onCore id fun core => { core with terminationSignalled := true }).onService service
      fun shared => { shared with terminatedServers := shared.terminatedServers + 1 }

/-- Terminate one shard; the last one waits for the program. The flag says whether it
threw. -/
def terminateShard (state : State) (id service : Nat) (outcome : Termination) : State × Bool :=
  if outcome = .deviceMissing then (state, true)
  else if ¬ (state.services service).launched then
    ((state.onService service fun shared =>
      { shared with preparationFailed := true, servers := shared.servers.erase id }).onCore id
        returned, false)
  else if outcome = .signalFails ∧ ¬ (state.cores id).terminationSignalled then (state, true)
  else
    let signalled := signalShard state id service
    let shared := signalled.services service
    if shared.shardCount < shared.terminatedServers then (signalled, true)
    else if shared.terminatedServers = shared.shardCount ∧ shared.workload then
      if outcome = .finishFails then (signalled, true)
      else if 0 < (state.cores id).terminateFailuresRemaining then
        ((finishService signalled service).onCore id injectFailure, true)
      else ((finishService signalled service).onCore id returned, false)
    else (signalled.onCore id returned, false)

/-- Terminate the program of a core. The flag says whether it threw. -/
def terminateServerKernel (state : State) (id : Nat) (outcome : Termination) : State × Bool :=
  match (state.cores id).service with
  | some service => terminateShard state id service outcome
  | none =>
    if (state.cores id).place .workload ≠ .members then (state.onCore id returned, false)
    else if outcome ≠ .succeeds then (state, true)
    else if 0 < (state.cores id).terminateFailuresRemaining then
      (state.onCore id fun core => { injectFailure core with running := false }, true)
    else
      (state.onCore id fun core =>
        { returned (core.move [.workload] .freed) with running := false }, false)

/-- The device runtime terminates its core. -/
def terminate (state : State) (id : Nat) (outcome : Termination) : State :=
  let core := state.cores id
  if core.device = .terminated ∨ core.device = .quarantined then state
  else if core.device ≠ .running ∧ core.device ≠ .closing then state
  else
    let entered := state.onCore id fun core => { core with device := .closing }
    if core.lifecycle = .closed ∨ core.lifecycle = .quarantined then
      entered.onCore id fun core => { core with device := .terminated }
    else if core.lifecycle ≠ .ready ∧ core.lifecycle ≠ .closing then entered
    else
      let (ended, threw) := terminateServerKernel
        (entered.onCore id fun core => { core with lifecycle := .closing }) id outcome
      if threw then ended
      else ended.onCore id fun core => { core with device := .terminated }

/-! ## Release -/

/-- The fields that are left to the shared service, with the holder. -/
def preservedFields : List Resource :=
  [.submesh, .serverL1, .getValueCb, .getIngressL1, .getAdmissionL1, .residencyLru, .dramValue,
    .dramPutHostQueue, .dramDirectory, .dramHashmap, .dramHeapMetadata, .stageArena]

/-- Leave what the shared program may address to its service, while there is a workload. -/
def preserveStaticIntermeshKernelResources (state : State) (id : Nat) : State :=
  match (state.cores id).service with
  | none => state
  | some service =>
    state.onCore id fun core =>
      core.move preservedFields
        (if (state.services service).workload then Place.retired service else Place.freed)

/-- The fields that a close resets. -/
def closedFields : List Resource :=
  [.stageArena, .getIngressL1, .getAdmissionL1, .getValueCb, .residencyLru, .serverL1, .dramValue,
    .dramPutHostQueue, .dramDirectory, .dramHashmap, .dramHeapMetadata, .submesh]

/-- The fields that an external release resets. -/
def releasedFields : List Resource := .workload :: closedFields

/-- Preserve, reset the fields, and give the slot back. -/
def releaseFields (state : State) (id : Nat) (fields : List Resource) : State :=
  eraseSlot
    ((preserveStaticIntermeshKernelResources state id).onCore id fun core =>
      { core.move fields .freed with service := none, lifecycle := .closed })
    (state.cores id).config.slot

/-- Release an external core. The flag says whether it threw. -/
def releaseExternal (state : State) (id : Nat) (leased : Bool) : State × Bool :=
  let lifecycle := (state.cores id).lifecycle
  if lifecycle ≠ .constructing ∧ lifecycle ≠ .closing ∧ lifecycle ≠ .closed then (state, true)
  else if lifecycle = .closed then (state, false)
  else if leased then (state, true)
  else (releaseFields state id releasedFields, false)

/-- What happens in one close: whether the worker had failed before and after the drain,
whether the drain fails, and how the termination ends. -/
structure Closing where
  workerFailed : Bool
  drainFails : Bool
  workerFailedLater : Bool
  termination : Termination
deriving DecidableEq, Repr

/-- Close an internal core. The flag says whether it threw. -/
def close (state : State) (id : Nat) (outcome : Closing) : State × Bool :=
  let lifecycle := (state.cores id).lifecycle
  if lifecycle = .quarantined ∨ lifecycle = .closed then (state, false)
  else if lifecycle ≠ .ready ∧ lifecycle ≠ .closing then (state, true)
  else if lifecycle = .ready ∧ outcome.workerFailed = false ∧ outcome.drainFails ∧
      outcome.workerFailedLater = false then (state, true)
  else
    let (ended, threw) := terminateServerKernel
      (state.onCore id fun core => { core with lifecycle := .closing }) id outcome.termination
    if threw then (ended, true)
    else (releaseFields ended id closedFields, outcome.workerFailed || outcome.workerFailedLater)

/-! ## Destruction -/

/-- The destructor of a device runtime, and of the external core in it. -/
def destroyExternal (state : State) (id : Nat) (leased : Bool) : State :=
  let quarantined := (quarantine state id).onCore id fun core =>
    { core with device := .quarantined }
  destructMembers
    (match (state.cores id).device with
    | .prepared | .terminated =>
      let (released, threw) := releaseExternal state id leased
      if threw then quarantined else released
    | .running | .closing => quarantined
    | .quarantined => state) id

/-- The destructor of an internal core: it tries to close twice, then it quarantines. -/
def destroyInternal (state : State) (id : Nat) (first second : Closing) : State :=
  let (once, threw) := close state id first
  destructMembers
    (if ¬ threw ∨ (once.cores id).lifecycle = .closed then once
    else
      let (twice, threw) := close once id second
      if ¬ threw ∨ (twice.cores id).lifecycle = .closed then twice
      else quarantineFailedTeardown twice id) id

/-! ## The release for tests -/

/-- A drain has taken the node of a core: delete it if it is safe, and push it again
otherwise. -/
def releaseNode (state : State) (id : Nat) : State :=
  let taken := state.failedTeardown.take id
  if (state.cores id).nodeSafeToRelease then
    eraseSlot
      { state.onCore id fun core =>
          { core with
            place := fun resource =>
              if core.place resource = .node then .freed else core.place resource
            nodeService := none } with
        failedTeardown := taken }
      (state.cores id).config.slot
  else { state with failedTeardown := taken.load id }

/-! ## Runs -/

/-- The calls of users, and the steps of those who push nodes or drain the list. -/
inductive Action where
  | construct (config : Config) (failure : Option Failure)
  | launch (id : Nat) (enqueueFails : Bool)
  | terminate (id : Nat) (outcome : Termination)
  | close (id : Nat) (outcome : Closing)
  | destroy (id : Nat) (leased : Bool) (first second : Closing)
  | push (id : Nat) (expected : Option Nat) (spurious : Bool)
  | drain
  | releaseNode (id : Nat)
deriving DecidableEq, Repr

/-- The constructor of the core has returned, and its destructor has not run. -/
def Exists (state : State) (id : Nat) : Prop :=
  id < state.born ∧ (state.cores id).destroyed = false

instance (state : State) (id : Nat) : Decidable (Exists state id) :=
  inferInstanceAs (Decidable (_ ∧ _))

/-- One step. Objects that do not exist are not called; a device runtime has an external
core, and a core that is closed by itself is internal. -/
def step (state : State) : Action → Option State
  | .construct config failure => some (construct state config failure)
  | .launch id enqueueFails =>
    if Exists state id ∧ (state.cores id).config.mode = .external then
      some (launch state id enqueueFails)
    else none
  | .terminate id outcome =>
    if Exists state id ∧ (state.cores id).config.mode = .external then
      some (terminate state id outcome)
    else none
  | .close id outcome =>
    if Exists state id ∧ (state.cores id).config.mode = .internal then
      some (close state id outcome).1
    else none
  | .destroy id leased first second =>
    if Exists state id then
      some (if (state.cores id).config.mode = .external then destroyExternal state id leased
        else destroyInternal state id first second)
    else none
  | .push id expected spurious =>
    if (id, expected) ∈ state.failedTeardown.pushing then
      some { state with failedTeardown := state.failedTeardown.attempt id expected spurious }
    else none
  | .drain => some { state with failedTeardown := state.failedTeardown.exchange }
  | .releaseNode id =>
    if some id ∈ state.failedTeardown.draining then some (releaseNode state id) else none

/-- The steps as a relation. They emit no events. -/
def move (state : State) (action : Action) : Option (State × List Empty) :=
  (step state action).map (·, [])

end KvCache.RuntimeCore
