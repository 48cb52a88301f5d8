import KvCache.ClientOps.Steps
import KvCache.Foundation.Run

/-!
# A process that makes, uses and destroys clients

The clients of a process are created at addresses that no living client has, and an
address is free again once its client was destroyed. Quarantined clients are never
destroyed. In between, calls on the living clients follow each other: scalar and parallel
GETs, closing, and any other operation, of which only the transaction is kept.

Beside the objects the state counts how often each address was given to a client, and
remembers for the resident workload of each client which of these lives it was built for.
The code keeps neither.
-/

namespace KvCache.ClientOps

open Function
open Fallible
open ClientLifecycle (ClientOperationsState LifecycleState)

/-- The process with what it remembers of lives and builds. -/
structure Process where
  world : World
  alive : Nat → Bool
  births : Nat → Nat
  builtFor : Nat → List Nat

/-- The workload that a parallel GET enqueued, with the world as the call found it. -/
structure SentGets where
  found : World
  operations : List Nat
  keys : List (List UInt8)
  tensor : Tensor
  workload : MeshWorkload

inductive ProcessAction where
  | create (address : Nat) (config : ClientOperationsConfig) (descriptor : ServerDescriptor)
      (clientToken : Nat) (testFault : ClientOperationsTestFault)
  | get (address : Nat) (key : List UInt8) (tensor : Tensor) (answers : GetAnswers)
  | getParallel (operations : List Nat) (keys : List (List UInt8)) (tensor : Tensor)
      (answers : ParallelAnswers)
  | request (address slots : Nat) (tensorBuffer : Option Nat) (submitted completed : Bool)
  | close (address : Nat) (answers : GetAnswers) (detachSubmitted detached : Bool)
  | destroy (address : Nat)

/-- An established client without a request behind it. -/
def ClientOperations.established (session : ClientSession)
    (testFault : ClientOperationsTestFault) : ClientOperations where
  session := session
  state := .established
  testFault := testFault
  quarantinePublished := false
  nextRingSlotIdx := 0
  nextSeq := 1
  activeTensorBufs := []
  activeHostWriteBufs := []
  getProg := ⟨none, false⟩
  parallelGetProg := ⟨none, [], false⟩

/-- A transaction of any operation: rolled back, failed after its submission, or complete. -/
def runRequest (address slots : Nat) (tensorBuffer : Option Nat) (submitted completed : Bool)
    (world : World) : World :=
  let begun := beginRequest address slots tensorBuffer world
  let sent := if submitted then markSubmissionAttempted address begun else begun
  failRequest address (if completed then complete address sent else sent)

/-- `send_detach`: whatever is thrown quarantines the client. -/
def sendDetach (address : Nat) (submitted detached : Bool) (world : World) : World :=
  let ended := runRequest address 1 none submitted detached world
  if detached then ended
  else ended.setClient address (ended.clients address).quarantineFailedRequest

def markClosed (address : Nat) (world : World) : World :=
  if (world.clients address).state = .established then
    world.setClient address { world.clients address with state := .closed }
  else world

/-- `ClientOperations::close`. -/
def close (address : Nat) (answers : GetAnswers) (detachSubmitted detached : Bool) :
    Call PUnit := do
  let world ← look
  if (world.clients address).state = .quarantined ∨ (world.clients address).state = .closed then
    pure ⟨⟩
  else
    checkOperational address
    commitBarrier address answers
    modify (sendDetach address detachSubmitted detached)
    modify (markClosed address)

/-- The world in which a call begins: nothing of it was enqueued. -/
def Process.enter (process : Process) : World :=
  { process.world with buildGuard := none, queue := [] }

/-- The workloads among the events of the queue. -/
def sentGets (found : World) (operations : List Nat) (keys : List (List UInt8)) (tensor : Tensor)
    (queue : List QueueEvent) : List SentGets :=
  queue.filterMap fun
    | .gets workload => some ⟨found, operations, keys, tensor, workload⟩
    | .statusesRead _ => none

/-- The lives that the resident workloads were built for, after a parallel GET. -/
def Process.remember (process : Process) (operations : List Nat) (after : World) :
    Nat → List Nat :=
  if buildsWorkload process.enter (operations.headD 0) operations ∧
      ¬ buildsWorkload after (operations.headD 0) operations then
    update process.builtFor (operations.headD 0) (operations.map process.births)
  else process.builtFor

def processStep (platform : Platform) (process : Process) :
    ProcessAction → Option (Process × List SentGets)
  | .create address config descriptor clientToken testFault =>
    if process.alive address = false ∧ address ≠ 0 then
      some ({ process with
        world := process.world.setClient address
          (.established (configureSession config descriptor clientToken) testFault)
        alive := update process.alive address true
        births := update process.births address (process.births address + 1) }, [])
    else none
  | .get address key tensor answers =>
    if process.alive address then
      some ({ process with world := (get platform address key tensor answers process.enter).2 },
        [])
    else none
  | .getParallel operations keys tensor answers =>
    if (∀ address ∈ operations, process.alive address = true) ∧ operations.Nodup then
      let after := (getParallel platform operations keys tensor answers process.enter).2
      some ({ process with
        world := after
        builtFor := process.remember operations after },
        sentGets process.enter operations keys tensor after.queue)
    else none
  | .request address slots tensorBuffer submitted completed =>
    if process.alive address then
      some ({ process with
        world := runRequest address slots tensorBuffer submitted completed process.enter }, [])
    else none
  | .close address answers detachSubmitted detached =>
    if process.alive address then
      some ({ process with
        world := (close address answers detachSubmitted detached process.enter).2 }, [])
    else none
  | .destroy address =>
    if process.alive address = true ∧ (process.world.clients address).state ≠ .quarantined then
      some ({ process with alive := update process.alive address false }, [])
    else none

/-- A process without clients; what the memory holds before is not read. -/
def Process.initial (blank : ClientSession) (requests : Nat → RequestTransaction) : Process where
  world :=
    { clients := fun _ => .established blank .none
      requests := requests
      buildGuard := none
      queue := [] }
  alive := fun _ => false
  births := fun _ => 0
  builtFor := fun _ => []

/-- A resident workload is used again only for the lives it was built for. -/
def SameLives (process : Process) : ProcessAction → Prop
  | .getParallel operations _ _ _ =>
    ¬ buildsWorkload process.enter (operations.headD 0) operations →
      process.builtFor (operations.headD 0) = operations.map process.births
  | _ => True

instance (process : Process) (action : ProcessAction) : Decidable (SameLives process action) :=
  match action with
  | .getParallel .. => inferInstanceAs (Decidable (_ → _))
  | .create .. | .get .. | .request .. | .close .. | .destroy .. => isTrue trivial

/-! ## What no step of a call touches -/

/-- The part of the objects that is read to send a GET: sessions, programs, the guard of
an unfinished one, and the queue. -/
structure Programs where
  session : Nat → ClientSession
  getProg : Nat → ResidentClientProgram
  parallelGetProg : Nat → ResidentParallelGetProgram
  buildGuard : Option Nat
  queue : List QueueEvent

def World.programs (world : World) : Programs where
  session := fun address => (world.clients address).session
  getProg := fun address => (world.clients address).getProg
  parallelGetProg := fun address => (world.clients address).parallelGetProg
  buildGuard := world.buildGuard
  queue := world.queue

/-- A field of all clients after one client was written. -/
theorem field_setClient {α : Type} (field : ClientOperations → α) (world : World) (address : Nat)
    (client : ClientOperations) :
    (fun other => field ((world.setClient address client).clients other)) =
      update (fun other => field (world.clients other)) address (field client) := by
  funext other
  rw [setClient_clients, update_apply]
  by_cases isOther : other = address
  · rw [if_pos isOther, if_pos isOther]
  · rw [if_neg isOther, if_neg isOther]

/-- A field that the written client keeps is kept by all. -/
theorem field_setClient_kept {α : Type} (field : ClientOperations → α) (world : World)
    (address : Nat) (client : ClientOperations)
    (kept : field client = field (world.clients address)) :
    (fun other => field ((world.setClient address client).clients other)) =
      fun other => field (world.clients other) := by
  rw [field_setClient, kept]
  exact update_eq_self address _

/-- Writing a client that keeps its session and its programs keeps them all. -/
theorem programs_setClient {world : World} {address : Nat} {client : ClientOperations}
    (session : client.session = (world.clients address).session)
    (getProg : client.getProg = (world.clients address).getProg)
    (parallelGetProg : client.parallelGetProg = (world.clients address).parallelGetProg) :
    (world.setClient address client).programs = world.programs := by
  have sessions := field_setClient_kept (·.session) world address client session
  have gets := field_setClient_kept (·.getProg) world address client getProg
  have parallels :=
    field_setClient_kept (·.parallelGetProg) world address client parallelGetProg
  simp only [World.programs, sessions, gets, parallels, setClient_buildGuard, setClient_queue]

@[simp] theorem programs_beginRequest (address slots : Nat) (buffer : Option Nat)
    (world : World) : (beginRequest address slots buffer world).programs = world.programs := by
  rw [beginRequest, programs_setClient]
  · rfl
  · rfl
  · rfl
  · rfl

@[simp] theorem programs_markSubmissionAttempted (address : Nat) (world : World) :
    (markSubmissionAttempted address world).programs = world.programs := rfl

@[simp] theorem programs_complete (address : Nat) (world : World) :
    (complete address world).programs = world.programs := by
  rw [complete, programs_setClient]
  · rfl
  · rfl
  · rfl
  · rfl

theorem programs_quarantine (address : Nat) (world : World) :
    (world.setClient address (world.clients address).quarantineFailedRequest).programs =
      world.programs := by
  unfold ClientOperations.quarantineFailedRequest
  split
  · exact programs_setClient rfl rfl rfl
  · exact programs_setClient rfl rfl rfl

@[simp] theorem programs_failRequest (address : Nat) (world : World) :
    (failRequest address world).programs = world.programs := by
  by_cases active : (world.requests address).active = true
  · by_cases attempted : (world.requests address).submissionAttempted = true
    · simp only [failRequest, active, attempted, if_true]
      exact programs_quarantine address (world.setRequest address _)
    · simp only [failRequest, active, attempted, if_true]
      exact programs_setClient rfl rfl rfl
  · simp only [failRequest, active]
    rfl

@[simp] theorem programs_consume (address : Nat) (world : World) :
    (world.setClient address { world.clients address with testFault := .none }).programs =
      world.programs := programs_setClient rfl rfl rfl

@[simp] theorem programs_runRequest (address slots : Nat) (buffer : Option Nat)
    (submitted completed : Bool) (world : World) :
    (runRequest address slots buffer submitted completed world).programs = world.programs := by
  rw [runRequest, programs_failRequest]
  split
  · rw [programs_complete]
    split
    · rw [programs_markSubmissionAttempted, programs_beginRequest]
    · rw [programs_beginRequest]
  · split
    · rw [programs_markSubmissionAttempted, programs_beginRequest]
    · rw [programs_beginRequest]

@[simp] theorem programs_sendDetach (address : Nat) (submitted detached : Bool) (world : World) :
    (sendDetach address submitted detached world).programs = world.programs := by
  rw [sendDetach]
  split
  · exact programs_runRequest ..
  · rw [programs_quarantine, programs_runRequest]

@[simp] theorem programs_markClosed (address : Nat) (world : World) :
    (markClosed address world).programs = world.programs := by
  unfold markClosed
  split
  · exact programs_setClient rfl rfl rfl
  · rfl

/-- Setting a resident program changes that program alone. -/
theorem programs_setParallelGetProg (owner : Nat) (program : ResidentParallelGetProgram)
    (world : World) :
    (setParallelGetProg owner program world).programs =
      { world.programs with
        parallelGetProg := update world.programs.parallelGetProg owner program } := by
  let written := { world.clients owner with parallelGetProg := program }
  have sessions := field_setClient_kept (·.session) world owner written rfl
  have gets := field_setClient_kept (·.getProg) world owner written rfl
  have parallels := field_setClient ClientOperations.parallelGetProg world owner written
  simp only [World.programs, setParallelGetProg]
  rw [sessions, gets, parallels]
  rfl

theorem programs_setGetProg (address : Nat) (program : ResidentClientProgram) (world : World) :
    (setGetProg address program world).programs =
      { world.programs with getProg := update world.programs.getProg address program } := by
  let written := { world.clients address with getProg := program }
  have sessions := field_setClient_kept (·.session) world address written rfl
  have parallels := field_setClient_kept (·.parallelGetProg) world address written rfl
  have gets := field_setClient ClientOperations.getProg world address written
  simp only [World.programs, setGetProg]
  rw [sessions, gets, parallels]
  rfl

end KvCache.ClientOps
