import KvCache.Foundation.Run
import KvCache.Protocol.WordSizes
import Mathlib.Logic.Function.Basic

/-!
# The commit frontier

Three words with a common start count the PUTs of a server. NCRISC counts a PUT once BRISC
has published it, and shows its count to the host before the client can see that the PUT
landed. BRISC counts the published PUTs that it has consumed, in the order of their
publication: the value of a PUT is written through to the host, unless a REMOVE or another
PUT has taken its entry meanwhile.

COMMIT_BARRIER, EXISTS and a drain of the host take the count of NCRISC as their target and
wait until the count of BRISC has reached it. BRISC can consume a PUT before NCRISC has
counted it, and the words wrap, so that a poll also accepts a word that is ahead of its
target by less than half of the range.

Beside the words the state lists the PUTs themselves, numbered in the order of their
publication, and a wait keeps how many were issued and which had landed when it started.
How long the queue may become is left open here, and so is when the worker of the host fails.
-/

namespace KvCache.Server.CommitFrontier

open Function Layout.Word Run

/-! ## The words -/

/-- The order of two cumulative words, within half of their range. -/
def cumulativeCounterIsAhead (candidate baseline : Nat) : Bool :=
  let delta := u32 (candidate + 2 ^ 32 - baseline)
  delta != 0 && decide (delta < 2 ^ 31)

/-- What every poll of a wait asks. -/
def reaches (observed target : Nat) : Bool :=
  observed == target || cumulativeCounterIsAhead observed target

/-! ## The server -/

/-- Who waits: a thread of the host, or NCRISC for a client. -/
inductive Waiter where
  | drain (caller : Nat)
  | commitBarrier (client : Nat)
  | exists_ (client : Nat)
deriving DecidableEq, Repr

/-- A wait: its target word, the number of issued PUTs that the word stands for, and the PUTs
that had landed when it was taken. -/
structure Wait where
  waiter : Waiter
  target : Nat
  issued : Nat
  landed : List Nat
deriving DecidableEq, Repr

/-- Where NCRISC is: it serves no PUT, receives the value of a granted one, or completes one
that BRISC has published; or it waits. -/
inductive Dispatch where
  | idle
  | receiving (streams : Bool)
  | published (put : Nat)
  | counted (put : Nat)
  | stored (put : Nat)
  | waiting (wait : Wait)
deriving DecidableEq, Repr

/-- The PUTs by their fate, the three words, NCRISC, the drains of the host and the flags that
end them. -/
structure State where
  published : Nat
  putHostQueue : List Nat
  streamTail : Option Nat
  committed : List Nat
  hostBacked : List Nat
  displaced : List Nat
  landed : List Nat
  putIssuedTotal : Nat
  commitIssued : Nat
  commitDone : Nat
  dispatch : Dispatch
  drains : Nat → Option Wait
  running : Bool
  terminating : Bool
  workerFailed : Bool

/-- A server before its first PUT. All words start at one value. -/
def cold (base : Nat) : State where
  published := 0
  putHostQueue := []
  streamTail := none
  committed := []
  hostBacked := []
  displaced := []
  landed := []
  putIssuedTotal := u32 base
  commitIssued := u32 base
  commitDone := u32 base
  dispatch := .idle
  drains := fun _ => none
  running := true
  terminating := false
  workerFailed := false

/-- PUTs of those published that NCRISC has counted. -/
def Dispatch.issued (published : Nat) : Dispatch → Nat
  | .published _ => published - 1
  | _ => published

/-- PUTs of those published that are in the count which the host can read. -/
def Dispatch.shown (published : Nat) : Dispatch → Nat
  | .published _ | .counted _ => published - 1
  | _ => published

/-- PUTs that NCRISC has counted. -/
def State.issued (state : State) : Nat := state.dispatch.issued state.published

/-- PUTs in the count that the host can read. -/
def State.shown (state : State) : Nat := state.dispatch.shown state.published

/-- What can be seen of a wait: it has succeeded, it polls again, its deadline has passed, the
device terminates; or a drain throws the failure of the worker, or finds no running workload. -/
inductive Event where
  | succeeded (wait : Wait)
  | pending (wait : Wait)
  | failed (wait : Wait)
  | aborted (wait : Wait)
  | threw (caller : Nat)
  | skipped (caller : Nat)
deriving DecidableEq, Repr

/-! ## Steps of the device -/

/-- BRISC takes a request of NCRISC: no tail of a streamed PUT is pending. -/
def State.serves (state : State) : Prop := state.dispatch = .idle ∧ state.streamTail = none

instance (state : State) : Decidable state.serves :=
  inferInstanceAs (Decidable (state.dispatch = .idle ∧ state.streamTail = none))

/-- BRISC publishes a PUT: as the tail of a stream, or at the end of the queue. -/
def State.publish (streams : Bool) (state : State) : State :=
  { state with
    published := state.published + 1
    streamTail := if streams then some state.published else none
    putHostQueue :=
      if streams then state.putHostQueue else state.putHostQueue ++ [state.published]
    dispatch := .published state.published }

/-- BRISC counts a PUT that it has consumed. -/
def State.countCommit (put : Nat) (state : State) : State :=
  { state with
    committed := state.committed ++ [put]
    commitDone := u32 (state.commitDone + 1) }

/-- `wait_for_commit_prefix` with the count of NCRISC as its target. -/
def State.waitForCommitPrefix (waiter : Waiter) (state : State) : State :=
  { state with
    dispatch := .waiting ⟨waiter, state.putIssuedTotal, state.issued, state.landed⟩ }

/-- The steps of the two processors. -/
inductive DeviceAction where
  | displace (put : Nat)
  | prepare (streams : Bool)
  | publish
  | count
  | store
  | land
  | commitTail
  | commitHead
  | commitBarrier (client : Nat)
  | exists_ (client : Nat)
  | pollPrefix
deriving DecidableEq, Repr

/-- A step of NCRISC or BRISC. A PUT is streamed only if nothing is queued before it. The tail
of a stream is consumed before BRISC takes the next request, so that its entry is its own. -/
def deviceStep (state : State) : DeviceAction → Option (State × List Event)
  | .displace put =>
    if state.serves ∧ put ∈ state.putHostQueue then
      some ({ state with displaced := put :: state.displaced }, [])
    else none
  | .prepare streams =>
    if state.serves ∧ (streams = true → state.putHostQueue = []) then
      some ({ state with dispatch := .receiving streams }, [])
    else none
  | .publish =>
    match state.dispatch with
    | .receiving streams =>
      if state.streamTail = none then some (state.publish streams, []) else none
    | _ => none
  | .count =>
    match state.dispatch with
    | .published put =>
      some ({ state with
        putIssuedTotal := u32 (state.putIssuedTotal + 1), dispatch := .counted put }, [])
    | _ => none
  | .store =>
    match state.dispatch with
    | .counted put =>
      some ({ state with commitIssued := state.putIssuedTotal, dispatch := .stored put }, [])
    | _ => none
  | .land =>
    match state.dispatch with
    | .stored put => some ({ state with landed := put :: state.landed, dispatch := .idle }, [])
    | _ => none
  | .commitTail =>
    match state.streamTail with
    | some put =>
      some ({ state.countCommit put with
        streamTail := none, hostBacked := put :: state.hostBacked }, [])
    | none => none
  | .commitHead =>
    match state.streamTail, state.putHostQueue with
    | none, put :: rest =>
      some ({ state.countCommit put with
        putHostQueue := rest
        hostBacked :=
          if put ∈ state.displaced then state.hostBacked else put :: state.hostBacked }, [])
    | _, _ => none
  | .commitBarrier client =>
    if state.dispatch = .idle then
      some (state.waitForCommitPrefix (.commitBarrier client), [])
    else none
  | .exists_ client =>
    if state.dispatch = .idle then some (state.waitForCommitPrefix (.exists_ client), []) else none
  | .pollPrefix =>
    match state.dispatch with
    | .waiting wait =>
      if reaches state.commitDone wait.target then
        some ({ state with dispatch := .idle }, [.succeeded wait])
      else if state.terminating then some ({ state with dispatch := .idle }, [.aborted wait])
      else some (state, [.pending wait])
    | _ => none

/-! ## Steps of the host -/

/-- A drain returns or throws. -/
def State.endDrain (caller : Nat) (state : State) : State :=
  { state with drains := update state.drains caller none }

/-- The steps of the host: `drain_inflight_puts` with the deadline of each poll passed or not,
and what ends the workload. -/
inductive HostAction where
  | startDrain (caller : Nat)
  | pollDrain (caller : Nat) (late : Bool)
  | failWorker
  | terminate
  | stop
deriving DecidableEq, Repr

/-- A step of the host. -/
def hostStep (state : State) : HostAction → Option (State × List Event)
  | .startDrain caller =>
    match state.drains caller with
    | some _ => none
    | none =>
      if state.running = false then some (state, [.skipped caller])
      else if state.workerFailed then some (state, [.threw caller])
      else
        some ({ state with
          drains := update state.drains caller
            (some ⟨.drain caller, state.commitIssued, state.shown, state.landed⟩) }, [])
  | .pollDrain caller late =>
    match state.drains caller with
    | none => none
    | some wait =>
      if state.workerFailed then some (state.endDrain caller, [.threw caller])
      else if reaches state.commitDone wait.target then
        some (state.endDrain caller, [.succeeded wait])
      else if late then some (state.endDrain caller, [.failed wait])
      else some (state, [.pending wait])
  | .failWorker => some ({ state with workerFailed := true }, [])
  | .terminate => some ({ state with terminating := true }, [])
  | .stop =>
    if state.terminating then some ({ state with running := false }, []) else none

/-! ## Runs -/

/-- The steps of both sides. -/
inductive Action where
  | device (action : DeviceAction)
  | host (action : HostAction)
deriving DecidableEq, Repr

/-- One step. The processors step while the workload runs. -/
def step (state : State) : Action → Option (State × List Event)
  | .device action => if state.running then deviceStep state action else none
  | .host action => hostStep state action

/-- Fewer PUTs than a limit are published and not consumed. -/
def Outstanding (limit : Nat) (state : State) (_ : Action) : Prop :=
  state.published < state.committed.length + limit

instance (limit : Nat) (state : State) (action : Action) :
    Decidable (Outstanding limit state action) :=
  inferInstanceAs (Decidable (state.published < state.committed.length + limit))

/-- The runs from words that start anywhere, with few PUTs outstanding at every step. -/
abbrev Runs (base limit : Nat) : List Event → State → Prop :=
  Run (TakesWhere step (Outstanding limit)) (cold base)

end KvCache.Server.CommitFrontier
