import KvCache.Foundation.Fallible
import KvCache.Foundation.Run
import Mathlib.Logic.Function.Basic

/-!
# Opening and closing the wire client

The client of the connector holds wire clients, one for the master chip and in per-chip mode
one for every other chip of the mesh, a socket to the owner of the wire or a proxy that serves
such sockets, and a reservation of gather memory. Opening acquires them in an order that
depends on the mode, and closes the client when it fails on the way; a failure of that close is
swallowed. Closing releases them part by part and stops at the first failure of most parts.

A wire client is attached to a chip of a mesh, and the runtime refuses a second one there. The
proxy runs a thread; closing it waits for the thread for five seconds and then goes on.

Beside the members of the client the state has what is really held: the chips with an attached
wire client, whether the mesh has gather memory, the threads, and counts of all of these.
-/

namespace KvCache.Lmcache.WireClient

open Function Fallible

/-! ## Settings and state -/

/-- A coordinate of the model mesh. -/
abbrev Coord := List Nat

/-- How a chunk reaches the server. -/
inductive WireMode where
  | host
  | device
  | perChip
  | mock
  | globalMaster
deriving DecidableEq, Repr

inductive GmRole where
  | owner
  | forwarder
deriving DecidableEq, Repr

/-- What the constructor fixes. There is no wire coordinate on a mesh of one chip. -/
structure Settings where
  hostOffload : Bool
  gmRole : Option GmRole
  external : Bool
  wireMode : WireMode
  wireCoord : Option Coord
  meshCoords : List Coord

/-- The chip of the master wire client. -/
def Settings.masterCoord (settings : Settings) : Coord := settings.wireCoord.getD [0, 0]

/-- Whether chunks are gathered on the device. -/
def Settings.gathers (settings : Settings) : Bool :=
  settings.wireMode ≠ .host && settings.wireCoord.isSome

/-- Where the thread of a proxy is: it polls, it executes a request, or it executes one after
it was told to stop. -/
inductive ProxyThread where
  | polling
  | executing
  | finishing
deriving DecidableEq, Repr

/-- The members of the client, what is held behind them, and the counts. -/
structure State where
  opened : Bool
  shardClients : List Coord
  ttnnClient : Bool
  gmFwd : Bool
  gmProxy : Bool
  gatherResourcesReserved : Bool
  activeClients : List Coord
  gatherResources : Bool
  thread : Option ProxyThread
  abandoned : List ProxyThread
  attaches : Coord → Nat
  detaches : Coord → Nat
  reservations : Nat
  releases : Nat
  forwarderSockets : Nat
  overwritten : Nat
  closedWhileExecuting : Bool

/-- A client that was constructed. -/
def start : State where
  opened := false
  shardClients := []
  ttnnClient := false
  gmFwd := false
  gmProxy := false
  gatherResourcesReserved := false
  activeClients := []
  gatherResources := false
  thread := none
  abandoned := []
  attaches := fun _ => 0
  detaches := fun _ => 0
  reservations := 0
  releases := 0
  forwarderSockets := 0
  overwritten := 0
  closedWhileExecuting := false

/-- Programs over the state; how a failure is described does not matter. -/
abbrev Step := Fallible State Unit PUnit

/-! ## Opening -/

/-- Where opening can fail: in the checks before anything is acquired, in the constructor of a
wire client, in the ping, in what follows up to the buffers, or in the constructors of the
forwarder and the proxy. -/
inductive Point where
  | checks
  | attach (coord : Coord)
  | ping
  | forwarder
  | reserve
  | limit
  | pool
  | blob
  | proxy
deriving DecidableEq, Repr

section Opening

variable (settings : Settings) (fails : Point → Bool)

/-- Fail where the environment says so. -/
def passes (point : Point) : Step := check (fails point = false) ()

/-- Enter a chip in the registry of the runtime. -/
def enter (coord : Coord) (state : State) : State :=
  { state with
    activeClients := coord :: state.activeClients
    attaches := update state.attaches coord (state.attaches coord + 1) }

/-- Construct a wire client. The runtime refuses a second one on a chip. -/
def attach (coord : Coord) (keep : State → State) : Step := do
  let state ← look
  check (coord ∉ state.activeClients) ()
  passes fails (.attach coord)
  modify fun state => keep (enter coord state)

def attachMaster : Step :=
  attach fails settings.masterCoord fun state => { state with ttnnClient := true }

/-- The wire client of a chip, constructed if there is none. The chip of the master has its
client already. -/
def shardClient (coord : Coord) : Step := do
  let state ← look
  if coord ∈ state.shardClients ∨ some coord = settings.wireCoord then pure ⟨⟩
  else attach fails coord fun state => { state with shardClients := state.shardClients ++ [coord] }

/-- Gather memory, of which a mesh has one reservation. -/
def reserveGatherResources : Step := do
  passes fails .reserve
  modify fun state =>
    { state with
      gatherResources := true
      reservations := state.reservations + if state.gatherResources then 0 else 1
      gatherResourcesReserved := true }

def setOpened : Step := modify fun state => { state with opened := true }

/-- What the paired and the external mode have in common: attach, ping, reserve, attach the
other chips, allocate the buffers. -/
def openAttached : Step := do
  attachMaster settings fails
  passes fails .ping
  onlyIf settings.gathers (reserveGatherResources fails)
  onlyIf (settings.wireMode = .perChip) do
    passes fails .limit
    forEach (shardClient settings fails) settings.meshCoords
  passes fails .pool
  onlyIf settings.gathers (passes fails .blob)
  setOpened

def openExternal : Step := do
  check (settings.wireMode ≠ .mock) ()
  passes fails .checks
  openAttached settings fails

def openPaired : Step := do
  passes fails .checks
  openAttached settings fails

def openMock : Step := do
  passes fails .checks
  reserveGatherResources fails
  passes fails .blob
  setOpened

def openGmForwarder : Step := do
  passes fails .checks
  passes fails .forwarder
  modify fun state =>
    { state with
      gmFwd := true
      forwarderSockets := state.forwarderSockets + 1
      overwritten := state.overwritten + if state.gmFwd then 1 else 0 }
  reserveGatherResources fails
  passes fails .pool
  onlyIf settings.wireCoord.isSome (passes fails .blob)
  setOpened

/-- `_open`, by mode. -/
def openParts : Step :=
  if settings.hostOffload then setOpened
  else if settings.gmRole = some .forwarder then openGmForwarder settings fails
  else if settings.external then openExternal settings fails
  else if settings.wireMode = .mock then openMock fails
  else openPaired settings fails

/-- Bind the socket of the proxy and start its thread. -/
def startGmProxy : Step := do
  passes fails .proxy
  modify fun state => { state with gmProxy := true, thread := some .polling }

end Opening

/-! ## Closing -/

/-- A part whose close may raise. -/
inductive Part where
  | shard (coord : Coord)
  | forwarder
  | proxy
  | master
  | gather
deriving DecidableEq, Repr

/-- How closing goes: which parts raise, and whether a request that the proxy executes
outlasts the wait for its thread. -/
structure Closing where
  raises : Part → Bool
  outlasts : Bool

/-- Every part closes, and the thread ends in time. -/
def Closing.smooth : Closing := ⟨fun _ => false, false⟩

section Closing

variable (closing : Closing)

/-- Strike a chip out of the registry. -/
def leave (coord : Coord) (state : State) : State :=
  { state with
    activeClients := state.activeClients.erase coord
    detaches := update state.detaches coord (state.detaches coord + 1) }

/-- Close the wire client of a chip; one that raises stays. -/
def closeShard (state : State) (coord : Coord) : State :=
  if closing.raises (.shard coord) then state
  else { leave coord state with shardClients := state.shardClients.erase coord }

/-- Close all of them, and fail if any stays. -/
def closeShards : Step := do
  modify fun state => state.shardClients.foldl (closeShard closing) state
  let state ← look
  check (state.shardClients = []) ()

/-- Tell the owner, which may be gone, and close the socket. -/
def closeForwarder : Step := do
  let state ← look
  if state.gmFwd then
    check (closing.raises .forwarder = false) ()
    modify fun state =>
      { state with gmFwd := false, forwarderSockets := state.forwarderSockets - 1 }

/-- The thread after the wait: it has ended unless its request outlasts the wait. -/
def joined (thread : Option ProxyThread) : Option ProxyThread :=
  match thread with
  | some .executing | some .finishing => if closing.outlasts then some .finishing else none
  | _ => none

/-- Stop the proxy, wait for its thread and close its socket; forget the proxy. -/
def closeProxy : Step := do
  let state ← look
  if state.gmProxy then
    modify fun state => { state with thread := joined closing state.thread }
    check (closing.raises .proxy = false) ()
    modify fun state =>
      { state with
        gmProxy := false
        abandoned := state.abandoned ++ state.thread.toList
        thread := none }

def closeMaster (settings : Settings) : Step := do
  let state ← look
  if state.ttnnClient then
    modify fun state =>
      { state with
        closedWhileExecuting := state.closedWhileExecuting ||
          (state.thread.toList ++ state.abandoned).any (· ≠ .polling) }
    check (closing.raises .master = false) ()
    modify fun state => { leave settings.masterCoord state with ttnnClient := false }

/-- Release the gather memory; a failure is swallowed. -/
def releaseGather (state : State) : State :=
  if state.gatherResourcesReserved ∧ closing.raises .gather = false then
    { state with
      gatherResources := false
      releases := state.releases + 1
      gatherResourcesReserved := false }
  else state

/-- Detach from everything. -/
def close (settings : Settings) : Step := do
  closeShards closing
  closeForwarder closing
  closeProxy closing
  closeMaster closing settings
  modify (releaseGather closing)
  modify fun state => { state with opened := false }

end Closing

/-- Acquire everything. -/
def openBody (settings : Settings) (fails : Point → Bool) : Step := do
  openParts settings fails
  onlyIf (settings.gmRole = some .owner) (startGmProxy fails)

/-- Open the client; one that fails is closed, and a failure of that is swallowed. -/
def openClient (settings : Settings) (fails : Point → Bool) (closing : Closing) : Step :=
  fun state =>
    if state.opened then (.ok ⟨⟩, state)
    else
      match openBody settings fails state with
      | (.ok _, after) => (.ok ⟨⟩, after)
      | (.error failure, after) => (.error failure, (close closing settings after).2)

/-! ## Runs -/

/-- Calls of the client, and what the threads of its proxies do. -/
inductive Action where
  | openClient (fails : Point → Bool) (closing : Closing)
  | close (closing : Closing)
  | receive
  | reply
  | abandonedReply

/-- The thread after it has answered. -/
def answered : Option ProxyThread → Option ProxyThread
  | some .executing => some .polling
  | some .finishing => none
  | thread => thread

def move (settings : Settings) (state : State) : Action → Option (State × List Empty)
  | .openClient fails closing => some ((openClient settings fails closing state).2, [])
  | .close closing => some ((close closing settings state).2, [])
  | .receive =>
    if state.thread = some .polling then some ({ state with thread := some .executing }, [])
    else none
  | .reply => some ({ state with thread := answered state.thread }, [])
  | .abandonedReply => some ({ state with abandoned := state.abandoned.tail }, [])

/-! ## What opening and closing promise -/

/-- Exactly the attached wire clients are held, each once and detached as often as it was
attached before, and those of the shards never without the master; exactly the reservation is
held; every running thread belongs to the proxy that is held; the master was never closed while
a request was executed; only opening over the socket of a forwarder loses one; and closing, where no part raises and the thread ends in time, releases
everything. -/
structure AllOrNothing (settings : Settings) (state : State) : Prop where
  held : ∀ coord, state.activeClients.count coord = state.shardClients.count coord +
    if state.ttnnClient ∧ coord = settings.masterCoord then 1 else 0
  once : state.activeClients.Nodup
  detached : ∀ coord, state.attaches coord = state.detaches coord + state.activeClients.count coord
  ordered : state.shardClients ≠ [] → state.ttnnClient = true
  reserved : state.gatherResources = state.gatherResourcesReserved
  released : state.reservations = state.releases + if state.gatherResources then 1 else 0
  served : state.abandoned = [] ∧ (state.thread ≠ none → state.gmProxy = true)
  calm : state.closedWhileExecuting = false
  connected : state.forwarderSockets = state.overwritten + if state.gmFwd then 1 else 0
  closes : ∃ after, close .smooth settings state = (.ok ⟨⟩, after) ∧ after.activeClients = [] ∧
    after.gatherResources = false ∧ after.thread = none ∧ after.abandoned = [] ∧
    after.gmFwd = false ∧ after.opened = false ∧
    (∀ coord, after.attaches coord = state.attaches coord ∧
      after.detaches coord = state.attaches coord) ∧
    after.reservations = state.reservations ∧ after.releases = state.reservations

/-- Closing comes to wait for a thread whose request outlasts the wait, and closes the socket. -/
def Abandons (closing : Closing) (state : State) : Prop :=
  closing.outlasts = true ∧ (state.thread = some .executing ∨ state.thread = some .finishing) ∧
    (∀ coord ∈ state.shardClients, closing.raises (.shard coord) = false) ∧
    (state.gmFwd = true → closing.raises .forwarder = false) ∧ closing.raises .proxy = false

/-- The steps that abandon no request of a forwarder. -/
def Attended (state : State) : Action → Prop
  | .close closing => ¬ Abandons closing state
  | _ => True

end KvCache.Lmcache.WireClient
