import KvCache.Lifecycle.ServerSafe

/-!
# Closing a server whose worker may fail

The machine of one server, with what its worker does between two looks at the stop flag:
it polls for a host request, handles the one that it accepted and completes it. Polling
and handling may throw anywhere. The worker records its exception unless it has been told
to stop in the meantime.

A call of `close` ends in one of three ways. It returns; it throws the failure of the
worker; or it throws because a drain or the termination of the device program failed, and
may then be called again. How often a request was accepted and completed, and whether the
worker threw before it was told to stop, are kept to state what is proved.
-/

namespace KvCache.ServerLifecycle

open Run

/-- How a call of `close` ends. -/
inductive Outcome where
  | returned
  | reported
  | threw
deriving DecidableEq, Repr

/-- Where the loop of the worker is: before its look at the stop flag, polling, or handling
a request. -/
inductive Activity where
  | looking
  | polling
  | handling
deriving DecidableEq, Repr

/-- A server with the progress of its worker. -/
structure Shutdown where
  impl : Impl
  activity : Activity
  accepted : Nat
  completed : Nat
  failedEarly : Bool
  outcomes : List Outcome
deriving DecidableEq, Repr

/-- A server as its constructor leaves it. -/
def Impl.launched : Impl where
  lifecycle := .ready
  registered := true
  runtime := true
  worker := .running
  workerStop := false
  workerFailed := false
  point := .idle
  waiting := []
  destroying := false
  inserts := 1
  releases := 0
  terminated := false
  destroyed := false

/-- The worker has just begun. -/
def Shutdown.launched : Shutdown := ⟨.launched, .looking, 0, 0, false, []⟩

/-! ## Closing -/

/-- The next statement of the owner of the mutex. -/
def proceed (succeeds : Bool) (impl : Impl) : Option Impl :=
  match impl.point with
  | .unregistering teardown =>
    some (leaveTeardown teardown { impl with registered := false, releases := impl.releases + 1 })
  | _ => (closes succeeds impl).or (tearsDown impl)

/-- The call of `close` that ends with a statement. A close that found the worker failed
throws the failure after the quarantine. -/
def ends (succeeds : Bool) (impl : Impl) : List Outcome :=
  match impl.point with
  | .entered _ =>
    match impl.lifecycle with
    | .closed | .quarantined => [.returned]
    | .constructing => [.threw]
    | .ready | .closing => []
  | .drainFailed _ => [.threw]
  | .terminating _ => if impl.runtime && succeeds then [] else [.threw]
  | .quarantineEntered (.closer _) =>
    if impl.lifecycle = .closed ∨ impl.lifecycle = .quarantined then [.reported] else []
  | .unregistering (.close _) => [.returned]
  | .unregistering (.quarantine (.closer _)) => [.reported]
  | _ => []

/-! ## The worker -/

/-- What the worker does next. -/
inductive WorkerAction where
  | looks
  | polls (found : Bool)
  | completes
  | throws
  | continues
deriving DecidableEq, Repr

/-- A step of the worker. -/
def works (server : Shutdown) : WorkerAction → Option Shutdown
  | .looks =>
    if server.impl.worker = .running ∧ server.activity = .looking then
      if server.impl.workerStop then
        (workerStep .stops server.impl).map fun impl => { server with impl }
      else some { server with activity := .polling }
    else none
  | .polls found =>
    if server.impl.worker = .running ∧ server.activity = .polling then
      if found then some { server with activity := .handling, accepted := server.accepted + 1 }
      else some { server with activity := .looking }
    else none
  | .completes =>
    if server.impl.worker = .running ∧ server.activity = .handling then
      some { server with activity := .looking, completed := server.completed + 1 }
    else none
  | .throws =>
    if server.activity = .looking then none
    else
      (workerStep .throws server.impl).map fun impl =>
        { server with impl, failedEarly := server.failedEarly || !impl.workerStop }
  | .continues => (workerStep .continues server.impl).map fun impl => { server with impl }

/-! ## The machine -/

/-- What may happen next. -/
inductive ShutdownAction where
  | callClose
  | destroy
  | enter (index : Nat)
  | advance (succeeds : Bool)
  | work (action : WorkerAction)
deriving DecidableEq, Repr

/-- One step. -/
def shutdownStep (server : Shutdown) : ShutdownAction → Option Shutdown
  | .callClose =>
    if server.impl.destroying = false ∧ server.impl.point ≠ .gone then
      some { server with
        impl := { server.impl with waiting := server.impl.waiting ++ [.close .user] } }
    else none
  | .destroy =>
    if server.impl.point = .idle ∧ server.impl.waiting = [] ∧ server.impl.destroying = false then
      some { server with
        impl := { server.impl with
          destroying := true, waiting := [.close (.destructor false)] } }
    else none
  | .enter index =>
    (ServerLifecycle.enter index server.impl).map fun impl => { server with impl }
  | .advance succeeds =>
    (proceed succeeds server.impl).map fun impl =>
      { server with impl, outcomes := server.outcomes ++ ends succeeds server.impl }
  | .work action => works server action

/-- One step, as a step of a run. -/
def shutdownMove (server : Shutdown) (action : ShutdownAction) : Option (Shutdown × List Empty) :=
  (shutdownStep server action).map fun after => (after, [])

/-! ## When nothing is swallowed -/

/-- The condition on a step. When `close` tells the worker to stop, the worker runs: it has
no exception in hand and has recorded none since the last look at the flag. And a worker
that was told to stop by `close` does not throw while it handles a request. -/
def Prompt (server : Shutdown) : ShutdownAction → Prop
  | .advance _ =>
    match server.impl.point with
    | .stopping (.close _) => server.impl.worker = .running
    | _ => True
  | .work .throws =>
    match server.impl.point with
    | .joining (.close _) => server.activity ≠ .handling
    | _ => True
  | _ => True

instance (server : Shutdown) (action : ShutdownAction) : Decidable (Prompt server action) := by
  unfold Prompt
  split
  · split <;> infer_instance
  · split <;> infer_instance
  · infer_instance

/-- No call of `close` has returned over a failure: the worker did not throw before it was
told to stop and every accepted request was completed, or a call has reported the failure. -/
def Heeded (server : Shutdown) : Prop :=
  .returned ∈ server.outcomes →
    (server.failedEarly = false ∧ server.accepted = server.completed) ∨
      .reported ∈ server.outcomes

/-! ## The invariant -/

/-- The worker has gone without a failure or an unfinished request. -/
structure Done (server : Shutdown) : Prop where
  joined : server.impl.worker = .joined
  early : server.failedEarly = false
  accounted : server.accepted = server.completed

/-- An exception of the worker is in its flag or in its hands. -/
def Known (server : Shutdown) : Prop :=
  server.failedEarly = true →
    server.impl.workerFailed = true ∨ server.impl.worker = .failing ∨
      server.impl.worker = .recording

/-- A worker that was told to stop by `close` finishes what it accepted. -/
structure Finishing (server : Shutdown) : Prop where
  told : server.impl.workerStop = true
  early : server.failedEarly = false
  finishes : server.impl.worker = .running ∨ server.activity ≠ .handling

/-- The teardown has told the worker to stop, or nothing is left to tear down. -/
def Point.TearingDown : Point → Prop
  | .joining _ | .resetting _ | .settling _ | .unregistering _ | .gone => True
  | _ => False

/-- What holds of the worker at a statement of the owner of the mutex. -/
structure Follows (server : Shutdown) : Prop where
  joining : ∀ closer, server.impl.point = .joining (.close closer) → Finishing server
  joined : ∀ closer, server.impl.point = .resetting (.close closer) ∨
    server.impl.point = .settling (.close closer) ∨
    server.impl.point = .unregistering (.close closer) → Done server
  before : ¬ server.impl.point.TearingDown →
    server.impl.lifecycle.Settled ∨ (server.impl.workerStop = false ∧ Known server)

/-- What every step keeps. -/
structure Attentive (server : Shutdown) : Prop where
  fits : Fits server.impl
  follows : Follows server
  flagged : server.impl.workerFailed = true →
    server.impl.worker = .ended ∨ server.impl.worker = .joined
  counts : server.accepted =
    server.completed + (if server.activity = .handling then 1 else 0)
  closed : server.impl.lifecycle = .closed → Done server
  quarantined : server.impl.lifecycle = .quarantined →
    .reported ∈ server.outcomes ∨ server.impl.point = .gone ∨
      ∃ quarantiner, server.impl.point = .unregistering (.quarantine quarantiner)
  returned : .returned ∈ server.outcomes → server.impl.worker = .joined
  heeded : Heeded server

end KvCache.ServerLifecycle
