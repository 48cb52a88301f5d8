import KvCache.Foundation.Run
import Mathlib.Logic.Function.Basic

/-!
# The life cycle of a server

A server registers its submesh and worker group, creates the device runtime, starts a
worker thread behind a gate, and is ready once the device program is launched. Closing
drains, terminates the device program, joins the worker and destroys the runtime;
quarantining does the same without the termination. Both run under the mutex of the
life cycle, but the worker reports its failure through a flag that it may set between
any two statements, and a close that finds the flag set gives the mutex up before it
quarantines.

Each statement that other threads can tell apart is a step of its own. Who waits for
the mutex is listed, so that calls of several threads and of the destructor interleave
in any order. Whether a call into the runtime succeeds is up to the environment.
-/

namespace KvCache.ServerLifecycle

open Run Function

/-- The mesh and the worker group that a server occupies. -/
abbrev ServerRegistryKey := Nat × Nat

inductive LifecycleState where
  | constructing
  | ready
  | closing
  | quarantined
  | closed
deriving DecidableEq, Repr

/-- The worker thread: behind the gate, in its loop, with an exception in hand, about
to record it, at its end, and joined. -/
inductive Worker where
  | absent
  | gated
  | running
  | failing
  | recording
  | ended
  | joined
deriving DecidableEq, Repr

/-- Who closes: a user of the server, or its destructor, which tries twice. -/
inductive Closer where
  | user
  | destructor (again : Bool)
deriving DecidableEq, Repr

/-- Who quarantines: a close that finds the worker failed, or the destructor after both
tries. -/
inductive Quarantiner where
  | closer (closer : Closer)
  | destructor
deriving DecidableEq, Repr

/-- What a teardown is to end in. -/
inductive Teardown where
  | close (closer : Closer)
  | quarantine (quarantiner : Quarantiner)
deriving DecidableEq, Repr

/-- The state that a teardown sets. -/
def Teardown.target : Teardown → LifecycleState
  | .close _ => .closed
  | .quarantine _ => .quarantined

/-- The statement that the constructor or the owner of the mutex is at. At `idle`
nobody owns the mutex. -/
inductive Point where
  | unborn
  | registering
  | configuring
  | creating
  | spawning
  | launching
  | cancelling
  | starting
  | abandoning
  | unwinding
  | idle
  | entered (closer : Closer)
  | checkingBeforeDrain (closer : Closer)
  | draining (closer : Closer)
  | drainFailed (closer : Closer)
  | checkingAfterDrain (closer : Closer)
  | terminating (closer : Closer)
  | quarantineEntered (quarantiner : Quarantiner)
  | stopping (teardown : Teardown)
  | joining (teardown : Teardown)
  | resetting (teardown : Teardown)
  | settling (teardown : Teardown)
  | unregistering (teardown : Teardown)
  | gone
deriving DecidableEq, Repr

/-- A call that waits for the mutex. -/
inductive Waiting where
  | close (closer : Closer)
  | quarantine (quarantiner : Quarantiner)
deriving DecidableEq, Repr

/-- One server. How often its key was inserted and released, whether the device program
was terminated and whether the destructor has run are kept to state what is proved. -/
structure Impl where
  lifecycle : LifecycleState
  registered : Bool
  runtime : Bool
  worker : Worker
  workerStop : Bool
  workerFailed : Bool
  point : Point
  waiting : List Waiting
  destroying : Bool
  inserts : Nat
  releases : Nat
  terminated : Bool
  destroyed : Bool
deriving DecidableEq, Repr

/-- A server before its constructor runs. -/
def Impl.unborn : Impl where
  lifecycle := .constructing
  registered := false
  runtime := false
  worker := .absent
  workerStop := false
  workerFailed := false
  point := .unborn
  waiting := []
  destroying := false
  inserts := 0
  releases := 0
  terminated := false
  destroyed := false

/-- All servers of the process and the registry of keys. -/
structure State where
  servers : Nat → Impl
  activeServers : ServerRegistryKey → Bool

variable (key : Nat → ServerRegistryKey)

def start : State := ⟨fun _ => .unborn, fun _ => false⟩

/-! ## Construction -/

/-- The constructor, up to the launch of the device program. An exception after the
registration leads to the release of the key. -/
def constructs (succeeds : Bool) (impl : Impl) : Option Impl :=
  match impl.point with
  | .configuring => some { impl with point := if succeeds then .creating else .abandoning }
  | .creating =>
    if succeeds then some { impl with runtime := true, point := .spawning }
    else some { impl with point := .abandoning }
  | .spawning =>
    if succeeds then some { impl with worker := .gated, point := .launching }
    else some { impl with point := .abandoning }
  | .launching => some { impl with point := if succeeds then .starting else .cancelling }
  | .cancelling => some { impl with worker := .joined, point := .abandoning }
  | .starting => some { impl with lifecycle := .ready, worker := .running, point := .idle }
  | .unwinding => some { impl with runtime := false, point := .gone }
  | _ => none

/-! ## Closing -/

/-- The end of the destructor: the members are destroyed. -/
def destroyMembers (impl : Impl) : Impl :=
  { impl with runtime := false, point := .gone, destroyed := true }

/-- A close returns or throws and gives the mutex up. -/
def leaveClose (closer : Closer) (threw : Bool) (impl : Impl) : Impl :=
  match closer, threw with
  | .user, _ => { impl with point := .idle }
  | .destructor _, false => destroyMembers impl
  | .destructor false, true =>
    { impl with point := .idle, waiting := impl.waiting ++ [.close (.destructor true)] }
  | .destructor true, true =>
    { impl with point := .idle, waiting := impl.waiting ++ [.quarantine .destructor] }

/-- A quarantine returns. A close that called it throws then. -/
def leaveQuarantine (quarantiner : Quarantiner) (impl : Impl) : Impl :=
  match quarantiner with
  | .closer closer => leaveClose closer true impl
  | .destructor => destroyMembers impl

/-- What a teardown does once it is through. -/
def leaveTeardown (teardown : Teardown) (impl : Impl) : Impl :=
  match teardown with
  | .close closer => leaveClose closer false impl
  | .quarantine quarantiner => leaveQuarantine quarantiner impl

/-- `close`, up to the teardown. -/
def closes (succeeds : Bool) (impl : Impl) : Option Impl :=
  match impl.point with
  | .entered closer =>
    match impl.lifecycle with
    | .closed | .quarantined => some (leaveClose closer false impl)
    | .constructing => some (leaveClose closer true impl)
    | .ready => some { impl with lifecycle := .closing, point := .checkingBeforeDrain closer }
    | .closing => some { impl with point := .checkingAfterDrain closer }
  | .checkingBeforeDrain closer =>
    some { impl with
      point := if impl.workerFailed then .checkingAfterDrain closer else .draining closer }
  | .draining closer =>
    some { impl with
      point :=
        if impl.runtime && succeeds then .checkingAfterDrain closer else .drainFailed closer }
  | .drainFailed closer =>
    some (leaveClose closer true
      { impl with lifecycle := if impl.workerFailed then impl.lifecycle else .ready })
  | .checkingAfterDrain closer =>
    if impl.workerFailed then
      some { impl with
        point := .idle, waiting := impl.waiting ++ [.quarantine (.closer closer)] }
    else some { impl with point := .terminating closer }
  | .terminating closer =>
    if impl.runtime && succeeds then
      some { impl with terminated := true, point := .stopping (.close closer) }
    else some (leaveClose closer true impl)
  | _ => none

/-- `force_quarantine` begins, and the teardown that it shares with `close`. -/
def tearsDown (impl : Impl) : Option Impl :=
  match impl.point with
  | .quarantineEntered quarantiner =>
    if impl.lifecycle = .closed ∨ impl.lifecycle = .quarantined then
      some (leaveQuarantine quarantiner impl)
    else some { impl with point := .stopping (.quarantine quarantiner) }
  | .stopping teardown => some { impl with workerStop := true, point := .joining teardown }
  | .joining teardown =>
    match impl.worker with
    | .absent | .joined => some { impl with point := .resetting teardown }
    | .ended => some { impl with worker := .joined, point := .resetting teardown }
    | _ => none
  | .resetting teardown => some { impl with runtime := false, point := .settling teardown }
  | .settling teardown =>
    some { impl with lifecycle := teardown.target, point := .unregistering teardown }
  | _ => none

/-! ## The registry -/

/-- Insert the key of a server. The constructor throws if it is taken. -/
def register (id : Nat) (state : State) : State :=
  let impl := state.servers id
  if state.activeServers (key id) then
    { state with servers := update state.servers id { impl with point := .gone } }
  else
    { servers := update state.servers id
        { impl with registered := true, inserts := impl.inserts + 1, point := .configuring }
      activeServers := update state.activeServers (key id) true }

/-- Release the key of a server, unless that is done already. -/
def unregisterServer (id : Nat) (next : Impl → Impl) (state : State) : State :=
  let impl := state.servers id
  if impl.registered then
    { servers := update state.servers id
        (next { impl with registered := false, releases := impl.releases + 1 })
      activeServers := update state.activeServers (key id) false }
  else { state with servers := update state.servers id (next impl) }

/-! ## The machine -/

/-- What the worker thread does: it leaves its loop, an exception leaves the loop, or it
goes on with the exception. -/
inductive WorkerEvent where
  | stops
  | throws
  | continues
deriving DecidableEq, Repr

/-- A step of the worker thread. It records its failure unless it is told to stop. -/
def workerStep (event : WorkerEvent) (impl : Impl) : Option Impl :=
  match impl.worker, event with
  | .running, .stops => if impl.workerStop then some { impl with worker := .ended } else none
  | .running, .throws => some { impl with worker := .failing }
  | .failing, .continues =>
    some { impl with worker := if impl.workerStop then .ended else .recording }
  | .recording, .continues => some { impl with workerFailed := true, worker := .ended }
  | _, _ => none

/-- What may happen next, to which server. -/
inductive Action where
  | construct (id : Nat)
  | callClose (id : Nat)
  | destroy (id : Nat)
  | enter (id index : Nat)
  | advance (id : Nat) (succeeds : Bool)
  | work (id : Nat) (event : WorkerEvent)
deriving DecidableEq, Repr

/-- Change one server. -/
def onServer (id : Nat) (state : State) (impl : Impl) : State :=
  { state with servers := update state.servers id impl }

/-- The next statement of the constructor or of the owner of the mutex. -/
def advance (id : Nat) (succeeds : Bool) (state : State) : Option State :=
  let impl := state.servers id
  match impl.point with
  | .registering => some (register key id state)
  | .abandoning => some (unregisterServer key id (fun impl => { impl with point := .unwinding }) state)
  | .unregistering teardown => some (unregisterServer key id (leaveTeardown teardown) state)
  | _ =>
    ((constructs succeeds impl).or ((closes succeeds impl).or (tearsDown impl))).map
      (onServer id state)

/-- A waiting call gets the mutex. -/
def enter (index : Nat) (impl : Impl) : Option Impl :=
  if impl.point = .idle then
    (impl.waiting[index]?).map fun call =>
      { impl with
        waiting := impl.waiting.eraseIdx index
        point :=
          match call with
          | .close closer => .entered closer
          | .quarantine quarantiner => .quarantineEntered quarantiner }
  else none

/-- One step. A server is destroyed only when nobody uses it. -/
def step (state : State) : Action → Option State
  | .construct id =>
    let impl := state.servers id
    if impl.point = .unborn then some (onServer id state { impl with point := .registering })
    else none
  | .callClose id =>
    let impl := state.servers id
    if impl.lifecycle ≠ .constructing ∧ impl.destroying = false ∧ impl.point ≠ .gone then
      some (onServer id state { impl with waiting := impl.waiting ++ [.close .user] })
    else none
  | .destroy id =>
    let impl := state.servers id
    if impl.point = .idle ∧ impl.waiting = [] ∧ impl.destroying = false then
      some (onServer id state
        { impl with destroying := true, waiting := [.close (.destructor false)] })
    else none
  | .enter id index => (enter index (state.servers id)).map (onServer id state)
  | .advance id succeeds => advance key id succeeds state
  | .work id event => (workerStep event (state.servers id)).map (onServer id state)

/-- One step, as a step of a run. -/
def move (state : State) (action : Action) : Option (State × List Empty) :=
  (step key state action).map fun after => (after, [])

end KvCache.ServerLifecycle
