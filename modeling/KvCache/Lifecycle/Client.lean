import KvCache.Foundation.Run
import KvCache.Foundation.PointerStack
import KvCache.Session.Registry

/-!
# The life cycle of a client

A client registers its mesh and coordinate, creates its operations, reserves the L1
buffers of ESTABLISH and launches the ESTABLISH program until the server answers. From
the first launch on the outcome is unknown, and an exception quarantines the client: its
resources move into a holder that was allocated before, the holder and the operations are
pushed on lists that nobody drains, and the key stays in the registry. The outcome is
known again after a matching rejection of the only attempt, and once the session is
configured.

An operation is a series of requests, each of which is rolled back before its submission
and quarantines the operations when it fails after it. Every call ends by looking whether
the operations are quarantined. Closing waits for the commits and detaches; a DETACH that
fails, submitted or not, quarantines as well. Calls of one client exclude each other by
its mutex, so that the statement a client is at says which call is at work.

A parallel GET is an operation with one request for each of its clients.
-/

namespace KvCache.ClientLifecycle

open Function

/-- The mesh and the coordinate that a client occupies. -/
abbrev ClientRegistryKey := Nat × Nat

inductive LifecycleState where
  | constructing
  | established
  | quarantined
  | closed
deriving DecidableEq, Repr

inductive ClientOperationsState where
  | constructing
  | established
  | quarantined
  | closed
deriving DecidableEq, Repr

/-! ## The answer to ESTABLISH -/

def bootstrapMagic : Nat := 0x4B564D41

def bootstrapProtocolVersion : Nat := 4

/-- Six capability bits, all of which a client requires. -/
def requiredCapabilities : Nat := 0x3F

def bootstrapRequestBaseOffset : Nat := 16

/-- The words of a server descriptor that the client compares. -/
structure ServerDescriptor where
  fabricMeshId : Nat
  fabricChipId : Nat
  l1Base : Nat
  nocX : Nat
  nocY : Nat
  valueRingDepth : Nat
deriving DecidableEq, Repr

/-- The words of a response as the client reads them. -/
structure EstablishResponse where
  magic : Nat
  bootstrapVersion : Nat
  status : Nat
  capabilities : Nat
  nonceLow : Nat
  nonceHigh : Nat
  clientToken : Nat
  descriptor : ServerDescriptor
deriving DecidableEq, Repr

/-- What a client knows of itself and of its server before it sends ESTABLISH. -/
structure Peer where
  nonceLow : Nat
  nonceHigh : Nat
  clientChipId : Nat
  deploymentServerNode : Option (Nat × Nat)
  serverBootstrapL1Addr : Nat
  serverNocX : Nat
  serverNocY : Nat
  valueRingDepth : Nat
deriving DecidableEq, Repr

/-- What the client makes of a response: not an answer to its request, a rejection of it,
an acceptance that it refuses, an acceptance. -/
inductive Verdict where
  | mismatched
  | rejected
  | refused
  | accepted
deriving DecidableEq, Repr

/-- The response answers the request of this client. -/
def EstablishResponse.Matches (response : EstablishResponse) (peer : Peer) : Prop :=
  response.magic = bootstrapMagic ∧ response.bootstrapVersion = bootstrapProtocolVersion ∧
    response.nonceLow = peer.nonceLow ∧ response.nonceHigh = peer.nonceHigh

instance (response : EstablishResponse) (peer : Peer) : Decidable (response.Matches peer) :=
  inferInstanceAs (Decidable (_ ∧ _ ∧ _ ∧ _))

/-- The accepted session is one that this client can use. -/
def EstablishResponse.Usable (response : EstablishResponse) (peer : Peer) : Prop :=
  response.capabilities &&& requiredCapabilities = requiredCapabilities ∧
    Session.clientGenerationFromToken response.clientToken ≠ 0 ∧
    Session.clientIdFromToken response.clientToken = peer.clientChipId ∧
    (∀ node ∈ peer.deploymentServerNode,
      node = (response.descriptor.fabricMeshId, response.descriptor.fabricChipId)) ∧
    response.descriptor.l1Base + bootstrapRequestBaseOffset = peer.serverBootstrapL1Addr ∧
    response.descriptor.nocX = peer.serverNocX ∧ response.descriptor.nocY = peer.serverNocY ∧
    response.descriptor.valueRingDepth = peer.valueRingDepth

instance (response : EstablishResponse) (peer : Peer) : Decidable (response.Usable peer) :=
  inferInstanceAs (Decidable (_ ∧ _ ∧ _ ∧ _ ∧ _ ∧ _ ∧ _ ∧ _))

/-- The checks of `apply_establish_response`; the descriptor is validated besides. -/
def verdict (peer : Peer) (response : EstablishResponse) (validDescriptor : Bool) : Verdict :=
  if ¬ response.Matches peer then .mismatched
  else if response.status ≠ 0 then .rejected
  else if response.Usable peer ∧ validDescriptor then .accepted
  else .refused

/-! ## Clients -/

/-- What a client owns beside its operations: the mesh, the three L1 buffers of ESTABLISH
and the workload of one attempt. -/
structure Resources where
  submeshOwner : Bool
  establishTxBuf : Bool
  establishResponseBuf : Bool
  establishSemBuf : Bool
  establishWorkload : Option Nat
deriving DecidableEq, Repr

/-- Null pointers only. -/
def Resources.none : Resources := ⟨false, false, false, false, .none⟩

/-- Who closes a client. -/
inductive Closer where
  | user
  | destructor
deriving DecidableEq, Repr

inductive Caller where
  | operation
  | close (closer : Closer)
deriving DecidableEq, Repr

/-- What a request is sent for. -/
inductive Activity where
  | operation
  | commitBarrier (closer : Closer)
  | detach (closer : Closer)
deriving DecidableEq, Repr

/-- Where quarantining the client leads back to. -/
inductive Leaver where
  | construction
  | call (caller : Caller) (threw : Bool)
deriving DecidableEq, Repr

/-- Where quarantining the operations leads back to. -/
inductive Resume where
  | quarantining (leaver : Leaver)
  | syncing (caller : Caller) (threw : Bool)
deriving DecidableEq, Repr

/-- The statement that a client is at. At `idle` nobody owns its mutex. -/
inductive Point where
  | unborn
  | initializing
  | registering
  | configuring
  | creatingOperations
  | reservingTx
  | reservingResponse
  | reservingSem
  | aligning
  | sending
  | launching
  | adding
  | enqueuing
  | polling
  | readingStatus
  | applying
  | configuringSession
  | establishing
  | catching
  | abandoning
  | unwinding
  | idle
  | closing (closer : Closer)
  | working (activity : Activity)
  | awaiting (activity : Activity)
  | syncing (caller : Caller) (threw : Bool)
  | quarantining (leaver : Leaver)
  | publishingOperations (head : Option Nat) (resume : Resume)
  | publishingHolder (head : Option Nat) (leaver : Leaver)
  | releasing (closer : Closer)
  | unregistering (closer : Closer)
  | finishing (closer : Closer)
  | gone
deriving DecidableEq, Repr

/-- One client. Kept to state what is proved: the attempt whose program may still run,
whether a matching rejection was read, whether the session was agreed on, whether a
submitted request was left without an outcome, whether a DETACH failed, whether the holder
was published, how often the key was inserted and released, and whether the destructor has
run. -/
structure Impl where
  point : Point
  lifecycle : LifecycleState
  resources : Resources
  quarantineHolder : Resources
  operations : Bool
  operationsAlive : Bool
  operationsState : ClientOperationsState
  operationsPublished : Bool
  establishMayHaveStarted : Bool
  establishAttemptsStarted : Nat
  running : Option Nat
  rejected : Bool
  agreed : Bool
  outstanding : Bool
  detachFailed : Bool
  holderPublished : Bool
  registered : Bool
  inserts : Nat
  releases : Nat
  destroyed : Bool
deriving DecidableEq, Repr

/-- A client before its constructor runs. -/
def Impl.unborn : Impl where
  point := .unborn
  lifecycle := .constructing
  resources := .none
  quarantineHolder := .none
  operations := false
  operationsAlive := false
  operationsState := .constructing
  operationsPublished := false
  establishMayHaveStarted := false
  establishAttemptsStarted := 0
  running := none
  rejected := false
  agreed := false
  outstanding := false
  detachFailed := false
  holderPublished := false
  registered := false
  inserts := 0
  releases := 0
  destroyed := false

/-- All clients of the process, the registry of keys, and the two lists of what is
quarantined, whose nodes are the clients' holders and operations. -/
structure State where
  clients : Nat → Impl
  activeClients : ClientRegistryKey → Bool
  quarantine : PointerStack Nat
  operationsQuarantine : PointerStack Nat

def start : State := ⟨fun _ => .unborn, fun _ => false, .empty, .empty⟩

/-- What the environment decides at a statement. -/
inductive Event where
  | proceeds
  | throws
  | submits
  | reads (status : Nat)
  | responds (response : EstablishResponse) (validDescriptor : Bool)
  | exchanges (spurious : Bool)
deriving DecidableEq, Repr

/-- Destroy the object of the operations, unless it is quarantined, and forget it. -/
def resetOperations (impl : Impl) : Impl :=
  { impl with
    operations := false
    operationsAlive :=
      if impl.operations ∧ impl.operationsState ≠ .quarantined then false else impl.operationsAlive }

/-- The members are destroyed. -/
def destroyMembers (impl : Impl) : Impl :=
  { resetOperations impl with resources := .none, point := .gone }

/-! ## Construction -/

/-- `initialize_session` until ESTABLISH is sent. -/
def prepares (event : Event) (impl : Impl) : Option Impl :=
  match impl.point, event with
  | .initializing, .proceeds =>
    some { impl with resources := { impl.resources with submeshOwner := true }, point := .registering }
  | .initializing, .throws =>
    some { impl with resources := { impl.resources with submeshOwner := true }, point := .unwinding }
  | .configuring, .proceeds => some { impl with point := .creatingOperations }
  | .creatingOperations, .proceeds =>
    some { impl with operations := true, operationsAlive := true, point := .reservingTx }
  | .reservingTx, .proceeds =>
    some { impl with
      resources := { impl.resources with establishTxBuf := true }, point := .reservingResponse }
  | .reservingResponse, .proceeds =>
    some { impl with
      resources := { impl.resources with establishResponseBuf := true }, point := .reservingSem }
  | .reservingSem, .proceeds =>
    some { impl with
      resources := { impl.resources with establishSemBuf := true }, point := .aligning }
  | .aligning, .proceeds => some { impl with point := .sending }
  | .configuring, .throws | .creatingOperations, .throws | .reservingTx, .throws
  | .reservingResponse, .throws | .reservingSem, .throws | .aligning, .throws =>
    some { impl with point := .catching }
  | _, _ => none

/-- `send_establish_request`: the loop over the attempts. The flag and the count are set
before the program is enqueued. -/
def sends (event : Event) (impl : Impl) : Option Impl :=
  match impl.point, event with
  | .sending, .proceeds => some { impl with point := .launching }
  | .launching, .proceeds =>
    some { impl with
      resources := { impl.resources with establishWorkload := some impl.establishAttemptsStarted }
      point := .adding }
  | .adding, .proceeds => some { impl with point := .enqueuing }
  | .enqueuing, .proceeds =>
    some { impl with
      establishMayHaveStarted := true
      establishAttemptsStarted := impl.establishAttemptsStarted + 1
      running := some impl.establishAttemptsStarted
      point := .polling }
  | .enqueuing, .throws =>
    some { impl with
      establishMayHaveStarted := true
      establishAttemptsStarted := impl.establishAttemptsStarted + 1
      running := some impl.establishAttemptsStarted
      point := .catching }
  | .polling, .proceeds => some { impl with running := none, point := .readingStatus }
  | .readingStatus, .reads status =>
    some { impl with
      point := if status = 1 then .applying else if status = 2 then .sending else .catching }
  -- The deadline has passed, or the watchdog of an attempt, or a call has failed.
  | .sending, .throws | .launching, .throws | .adding, .throws | .polling, .throws
  | .readingStatus, .throws => some { impl with point := .catching }
  | _, _ => none

/-- `apply_establish_response` and the end of `initialize_session`. -/
def applies (peer : Peer) (event : Event) (impl : Impl) : Option Impl :=
  match impl.point, event with
  | .applying, .responds response validDescriptor =>
    match verdict peer response validDescriptor with
    | .mismatched | .refused => some { impl with point := .catching }
    | .rejected =>
      some { impl with
        establishMayHaveStarted :=
          if impl.establishAttemptsStarted = 1 then false else impl.establishMayHaveStarted
        rejected := true
        point := .catching }
    | .accepted => some { impl with point := .configuringSession }
  | .applying, .throws | .configuringSession, .throws => some { impl with point := .catching }
  | .configuringSession, .proceeds =>
    some { impl with
      operationsState := .established, establishMayHaveStarted := false, agreed := true
      point := .establishing }
  | .establishing, .proceeds =>
    some { impl with
      resources := { impl.resources with establishWorkload := none }
      lifecycle := .established
      point := .idle }
  | .catching, .proceeds =>
    some (if impl.establishMayHaveStarted then
        { impl with lifecycle := .quarantined, point := .quarantining .construction }
      else { impl with point := .abandoning })
  | .unwinding, .proceeds => some (destroyMembers impl)
  | _, _ => none

/-! ## Calls -/

/-- A call of one of the operations, which are checked to be there. -/
def callOperation (impl : Impl) : Impl :=
  if impl.lifecycle = .established ∧ impl.operations then { impl with point := .working .operation }
  else impl

/-- `close` returns or throws; the destructor then destroys the members. -/
def leaveClose (closer : Closer) (impl : Impl) : Impl :=
  match closer with
  | .user => { impl with point := .idle }
  | .destructor => { destroyMembers impl with destroyed := true }

/-- A call is over, with the client quarantined or not. Only the destructor goes on after
an exception, and releases what is not quarantined. -/
def leaveCall (caller : Caller) (threw : Bool) (impl : Impl) : Impl :=
  match caller with
  | .operation => { impl with point := .idle }
  | .close closer =>
    if impl.lifecycle = .quarantined then leaveClose closer impl
    else if threw ∧ closer = .user then { impl with point := .idle }
    else { impl with point := .releasing closer }

/-- `close`, up to its first request. -/
def closes (event : Event) (impl : Impl) : Option Impl :=
  match impl.point, event with
  | .closing closer, .proceeds =>
    match impl.lifecycle, impl.operationsState with
    | .quarantined, _ | .closed, _ => some (leaveClose closer impl)
    | .constructing, _ => some (leaveCall (.close closer) true impl)
    | .established, .quarantined | .established, .closed =>
      some { impl with point := .syncing (.close closer) false }
    | .established, .constructing => some { impl with point := .syncing (.close closer) true }
    | .established, .established => some { impl with point := .working (.commitBarrier closer) }
  | _, _ => none

/-- A call between its requests, and a request that has got its outcome. -/
def works (event : Event) (impl : Impl) : Option Impl :=
  match impl.point, event with
  | .working activity, .submits =>
    some { impl with outstanding := true, point := .awaiting activity }
  | .working .operation, .proceeds => some { impl with point := .syncing .operation false }
  | .working .operation, .throws => some { impl with point := .syncing .operation true }
  | .working (.commitBarrier closer), .throws =>
    some { impl with point := .syncing (.close closer) true }
  | .awaiting .operation, .proceeds =>
    some { impl with outstanding := false, point := .working .operation }
  | .awaiting (.commitBarrier closer), .proceeds =>
    some { impl with outstanding := false, point := .working (.detach closer) }
  | .awaiting (.detach closer), .proceeds =>
    some { impl with
      outstanding := false, operationsState := .closed, point := .syncing (.close closer) false }
  | _, _ => none

/-- Where a failed request leads to; the failure of a DETACH is not thrown. -/
def Activity.failed : Activity → Resume
  | .operation => .syncing .operation true
  | .commitBarrier closer => .syncing (.close closer) true
  | .detach closer => .syncing (.close closer) false

def Activity.isDetach : Activity → Bool
  | .detach _ => true
  | _ => false

/-- `sync_operations_quarantine` begins, and `release_host_resources` before and after the
release of the key. -/
def settles (event : Event) (impl : Impl) : Option Impl :=
  match impl.point, event with
  | .syncing caller threw, .proceeds =>
    some (if impl.operations ∧ impl.operationsState = .quarantined ∧ impl.lifecycle ≠ .quarantined
      then { impl with lifecycle := .quarantined, point := .quarantining (.call caller threw) }
      else leaveCall caller threw impl)
  | .releasing closer, .proceeds =>
    some { resetOperations impl with
      resources := { Resources.none with submeshOwner := impl.resources.submeshOwner }
      point := .unregistering closer }
  | .finishing closer, .proceeds =>
    some (leaveClose closer { impl with resources := .none, lifecycle := .closed })
  | _, _ => none

/-! ## The quarantine -/

/-- The published holder lets the constructor unwind, or the call end. -/
def leaveQuarantine (leaver : Leaver) (impl : Impl) : Impl :=
  match leaver with
  | .construction => { impl with point := .unwinding }
  | .call caller threw => leaveCall caller threw impl

def Resume.point : Resume → Point
  | .quarantining leaver => .quarantining leaver
  | .syncing caller threw => .syncing caller threw

/-- Change one client. -/
def onClient (id : Nat) (state : State) (impl : Impl) : State :=
  { state with clients := update state.clients id impl }

/-- Mark the operations as quarantined and push them, unless that is done already. -/
def publishOperations (id : Nat) (resume : Resume) (impl : Impl) (state : State) : State :=
  if impl.operationsPublished then
    onClient id state { impl with operationsState := .quarantined, point := resume.point }
  else
    { onClient id state
        { impl with
          operationsState := .quarantined
          operationsPublished := true
          point := .publishingOperations state.operationsQuarantine.head resume } with
      operationsQuarantine := state.operationsQuarantine.load id }

/-- Move the resources into the holder and push it. -/
def publishQuarantine (id : Nat) (leaver : Leaver) (state : State) : State :=
  let impl := state.clients id
  { onClient id state
      { resetOperations impl with
        resources := .none
        quarantineHolder := impl.resources
        holderPublished := true
        point := .publishingHolder state.quarantine.head leaver } with
    quarantine := state.quarantine.load id }

/-- `quarantine_resources`, a failed request, and the exchanges of the two heads. -/
def quarantines (id : Nat) (event : Event) (state : State) : Option State :=
  let impl := state.clients id
  match impl.point, event with
  | .quarantining leaver, .proceeds =>
    some (if impl.operations ∧ impl.operationsState ≠ .quarantined ∧ impl.operationsState ≠ .closed
      then publishOperations id (.quarantining leaver) impl state
      else publishQuarantine id leaver state)
  | .awaiting activity, .throws =>
    some (publishOperations id activity.failed
      { impl with detachFailed := impl.detachFailed || activity.isDetach } state)
  | .working (.detach closer), .throws =>
    some (publishOperations id (.syncing (.close closer) false)
      { impl with detachFailed := true } state)
  | .publishingOperations head resume, .exchanges spurious =>
    some
      { onClient id state
          { impl with
            point :=
              if state.operationsQuarantine.head = head ∧ ¬ spurious then resume.point
              else .publishingOperations state.operationsQuarantine.head resume } with
        operationsQuarantine := state.operationsQuarantine.attempt id head spurious }
  | .publishingHolder head leaver, .exchanges spurious =>
    some
      { onClient id state
          (if state.quarantine.head = head ∧ ¬ spurious then leaveQuarantine leaver impl
          else { impl with point := .publishingHolder state.quarantine.head leaver }) with
        quarantine := state.quarantine.attempt id head spurious }
  | _, _ => none

/-! ## The registry -/

variable (key : Nat → ClientRegistryKey) (peer : Nat → Peer)

/-- Insert the key of a client. The constructor throws if it is taken. -/
def register (id : Nat) (state : State) : State :=
  let impl := state.clients id
  if state.activeClients (key id) then onClient id state { impl with point := .unwinding }
  else
    { onClient id state
        { impl with registered := true, inserts := impl.inserts + 1, point := .configuring } with
      activeClients := update state.activeClients (key id) true }

/-- Release the key of a client. -/
def unregister (id : Nat) (point : Point) (state : State) : State :=
  let impl := state.clients id
  { onClient id state
      { impl with registered := false, releases := impl.releases + 1, point := point } with
    activeClients := update state.activeClients (key id) false }

/-! ## The machine -/

inductive Action where
  | construct (id : Nat)
  | callOperation (id : Nat)
  | callClose (id : Nat)
  | destroy (id : Nat)
  | advance (id : Nat) (event : Event)
deriving DecidableEq, Repr

/-- The next statement of a client. -/
def advance (id : Nat) (event : Event) (state : State) : Option State :=
  let impl := state.clients id
  match impl.point, event with
  | .registering, .proceeds => some (register key id state)
  | .abandoning, .proceeds => some (unregister key id .unwinding state)
  | .unregistering closer, .proceeds => some (unregister key id (.finishing closer) state)
  | _, _ =>
    (quarantines id event state).or
      (((prepares event impl).or ((sends event impl).or ((applies (peer id) event impl).or
        ((closes event impl).or ((works event impl).or (settles event impl)))))).map
          (onClient id state))

/-- One step. A call needs the mutex. -/
def step (state : State) : Action → Option State
  | .construct id =>
    if (state.clients id).point = .unborn then
      some (onClient id state { state.clients id with point := .initializing })
    else none
  | .callOperation id =>
    if (state.clients id).point = .idle then
      some (onClient id state (callOperation (state.clients id)))
    else none
  | .callClose id =>
    if (state.clients id).point = .idle then
      some (onClient id state { state.clients id with point := .closing .user })
    else none
  | .destroy id =>
    if (state.clients id).point = .idle then
      some (onClient id state { state.clients id with point := .closing .destructor })
    else none
  | .advance id event => advance key peer id event state

/-- One step, as a step of a run. -/
def move (state : State) (action : Action) : Option (State × List Empty) :=
  (step key peer state action).map fun after => (after, [])

end KvCache.ClientLifecycle
