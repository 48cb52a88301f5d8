import KvCache.ClientOps.Steps
import Mathlib.Data.List.Nodup

/-!
# Completing a parallel GET

Once the last status has been read, every request of a parallel GET is complete on the
device. The examining loop marks the requests complete one after the other and throws at
the first status that reports a too small output. The transactions behind that one are
then destroyed without having been completed, their submission was attempted, and so
their clients are quarantined, first the operations and then, when the adapter looks at
them, the clients themselves.

So the call keeps its clients exactly if no status but the last reports a too small
output, and it does so whatever the order of examination exactly if none does, a single
client apart.
-/

namespace KvCache.ClientOps

open Function
open Fallible
open ClientLifecycle (ClientOperationsState LifecycleState)

/-! ## Reaching the status read -/

/-- Inside the transactions of the listed clients. -/
structure Opened (operations : List Nat) (world : World) : Prop where
  established : ∀ client ∈ operations, (world.clients client).state = .established
  active : ∀ client ∈ operations, (world.requests client).active = true

/-- Leaving the call ends all transactions, the innermost first. -/
def endRequests (operations : List Nat) (world : World) : World :=
  operations.foldr failRequest world

@[simp] theorem endRequests_queue (operations : List Nat) (world : World) :
    (endRequests operations world).queue = world.queue := by
  induction operations with
  | nil => rfl
  | cons address rest inductionHypothesis =>
    change (failRequest address (endRequests rest world)).queue = world.queue
    rw [failRequest_queue, inductionHypothesis]

@[simp] theorem endRequests_buildGuard (operations : List Nat) (world : World) :
    (endRequests operations world).buildGuard = world.buildGuard := by
  induction operations with
  | nil => rfl
  | cons address rest inductionHypothesis =>
    change (failRequest address (endRequests rest world)).buildGuard = world.buildGuard
    rw [failRequest_buildGuard, inductionHypothesis]

theorem endRequests_requests (operations : List Nat) (world : World) (other : Nat) :
    (endRequests operations world).requests other =
      if other ∈ operations then { world.requests other with active := false }
      else world.requests other := by
  induction operations with
  | nil => simp [endRequests]
  | cons address rest inductionHypothesis =>
    change (failRequest address (endRequests rest world)).requests other = _
    rw [failRequest_requests]
    by_cases same : other = address
    · subst same
      by_cases listed : other ∈ rest
      · simp [inductionHypothesis, listed]
      · simp [inductionHypothesis, listed]
    · simp [inductionHypothesis, same]

/-- A client is ended once, for a second destructor finds its transaction inactive. -/
theorem endRequests_clients (operations : List Nat) (world : World) (other : Nat) :
    (endRequests operations world).clients other =
      if other ∈ operations then (world.clients other).endRequest (world.requests other)
      else world.clients other := by
  induction operations with
  | nil => simp [endRequests]
  | cons address rest inductionHypothesis =>
    change (failRequest address (endRequests rest world)).clients other = _
    rw [failRequest_clients]
    by_cases same : other = address
    · subst same
      by_cases listed : other ∈ rest
      · rw [endRequests_requests]
        simp [inductionHypothesis, listed, ClientOperations.endRequest]
      · rw [endRequests_requests]
        simp [inductionHypothesis, listed]
    · simp [inductionHypothesis, same]

/-- Entering the transaction of a client leaves the others as they are. -/
theorem Opened.enter {operations : List Nat} {world : World} (opened : Opened operations world)
    {address : Nat} (established : (world.clients address).state = .established)
    (slots : Nat) (buffer : Option Nat) :
    Opened (operations ++ [address]) (beginRequest address slots buffer world) := by
  have states : ∀ other, ((beginRequest address slots buffer world).clients other).state =
      (world.clients other).state := by
    intro other
    rw [beginRequest, setClient_clients]
    by_cases same : other = address
    · rw [if_pos same, same]
      rfl
    · rw [if_neg same]
      rfl
  constructor
  · intro client listed
    rw [states]
    rcases List.mem_append.mp listed with before | isNew
    · exact opened.established client before
    · rwa [List.mem_singleton.mp isNew]
  · intro client listed
    rw [beginRequest, setClient_requests, setRequest_requests]
    by_cases same : client = address
    · rw [if_pos same]
      rfl
    · rw [if_neg same]
      rcases List.mem_append.mp listed with before | isNew
      · exact opened.active client before
      · exact absurd (List.mem_singleton.mp isNew) same

theorem Opened.setParallelGetProg {operations : List Nat} {world : World}
    (opened : Opened operations world) (owner : Nat) (program : ResidentParallelGetProgram) :
    Opened operations (ClientOps.setParallelGetProg owner program world) := by
  constructor
  · intro client listed
    rw [ClientOps.setParallelGetProg, setClient_clients]
    by_cases same : client = owner
    · rw [if_pos same]
      exact same ▸ opened.established client listed
    · rw [if_neg same]
      exact opened.established client listed
  · exact opened.active

section Reaching

variable (platform : Platform) (sharedMesh owner : Nat) (build : Bool) (tensor : Tensor)

/-- The preparing loop either fails or runs its body within all transactions, and ends
them when the body is left. Which of the two does not depend on the body.

Proof: induction on the entries. -/
theorem withGets_reaches (entries : List (Nat × Nat × List UInt8)) (before : List Nat)
    (world : World) (opened : Opened before world) :
    (∃ failure after, after.queue = world.queue ∧ ∀ (α : Type) (body : Call α),
        withGets platform sharedMesh owner build tensor body entries world =
          (.error failure, after)) ∨
      ∃ inside, inside.queue = world.queue ∧
        Opened (before ++ entries.map (·.2.1)) inside ∧ ∀ (α : Type) (body : Call α),
          withGets platform sharedMesh owner build tensor body entries world =
            ((body inside).1, endRequests (entries.map (·.2.1)) (body inside).2) := by
  induction entries generalizing before world with
  | nil =>
    refine .inr ⟨world, rfl, ?_, fun α body => rfl⟩
    simpa using opened
  | cons entry rest inductionHypothesis =>
    obtain ⟨i, address, key⟩ := entry
    have admission := admitGet_meets sharedMesh i address key tensor world
    rcases admission.outcome rfl with ⟨failure, after, failed, rfl⟩ | ⟨geometry, after, passed,
      rfl, established, -⟩
    · refine .inl ⟨failure, after, rfl, fun α body => ?_⟩
      rw [withGets, bind_error failed]
    have entered := opened.enter established 1 (some tensor.buffer)
    have filling := fillProgram_meets platform owner build i address key tensor geometry
      (beginRequest address 1 (some tensor.buffer) after)
    have enters : ∀ (α : Type) (body : Call α),
        withGets platform sharedMesh owner build tensor body ((i, address, key) :: rest) after =
          (((do
              fillProgram platform owner build i address key tensor geometry
              withGets platform sharedMesh owner build tensor body rest)
            (beginRequest address 1 (some tensor.buffer) after)).1,
            failRequest address ((do
              fillProgram platform owner build i address key tensor geometry
              withGets platform sharedMesh owner build tensor body rest)
            (beginRequest address 1 (some tensor.buffer) after)).2) := by
      intro α body
      rw [withGets, bind_ok passed]
      rfl
    rcases filling.outcome rfl with ⟨failure, filled, failed, rfl⟩ | ⟨_, filled, done, -,
      workload, -, rfl⟩
    · refine .inl ⟨failure, failRequest address (beginRequest address 1 (some tensor.buffer) after),
        ?_, fun α body => ?_⟩
      · rw [failRequest_queue]
        rfl
      · rw [enters, bind_error failed]
    rcases inductionHypothesis _ _ (entered.setParallelGetProg owner _) with
      ⟨failure, last, queue, fails⟩ | ⟨inside, queue, within, runs⟩
    · refine .inl ⟨failure, failRequest address last, ?_, fun α body => ?_⟩
      · rw [failRequest_queue, queue]
        rfl
      · rw [enters, bind_ok done, fails]
    · refine .inr ⟨inside, ?_, ?_, fun α body => ?_⟩
      · rw [queue]
        rfl
      · simpa using within
      · rw [enters, bind_ok done, runs]
        rfl

end Reaching

/-! ## Submitting and reading -/

/-- The transactions are open, the guard is released and the queue is as given. -/
structure Submitting (operations : List Nat) (queue : List QueueEvent) (world : World) : Prop where
  opened : Opened operations world
  queue_eq : world.queue = queue
  released : world.buildGuard = none

/-- At the status read: every request was submitted. -/
structure AtRead (operations : List Nat) (world : World) : Prop where
  opened : Opened operations world
  attempted : ∀ client ∈ operations, (world.requests client).submissionAttempted = true
  released : world.buildGuard = none

theorem Opened.consume {operations : List Nat} {world : World}
    (opened : Opened operations world) (address : Nat) :
    Opened operations
      (world.setClient address { world.clients address with testFault := .none }) := by
  constructor
  · intro client listed
    rw [setClient_clients]
    by_cases same : client = address
    · rw [if_pos same]
      exact same ▸ opened.established client listed
    · rw [if_neg same]
      exact opened.established client listed
  · exact opened.active

/-- Compiling keeps the transactions open and the queue as it is. -/
theorem compilePrograms_meets (owner : Nat) (operations listed : List Nat)
    (answers : ParallelAnswers) (queue : List QueueEvent) :
    Meets (fun world => Opened listed world ∧ world.queue = queue)
      (compilePrograms owner operations answers)
      (fun _ world => Opened listed world ∧ world.queue = queue)
      (fun world => world.queue = queue) := by
  let Holds : World → Prop := fun world => Opened listed world ∧ world.queue = queue
  apply Meets.bind (fun _ => Holds) (Meets.look fun _ holds => holds)
  intro seen
  dsimp only
  split
  · exact Meets.pure fun _ holds => holds
  · apply Meets.bind (fun _ => Holds)
    · apply Meets.weaken (Meets.forEach (fun _ _ => Holds) _ ?_) (fun _ holds => holds)
        (fun _ _ holds => holds) fun _ (holds : Holds _) => holds.2
      intro _ element _ _
      apply Meets.bind (fun _ => Holds)
        (Meets.ofExcept (fun _ _ _ holds => holds) fun _ holds => holds)
      intro _
      exact attempt_meets _
    · intro _
      apply Meets.modify
      rintro world ⟨opened, queued⟩
      exact ⟨opened.setParallelGetProg owner _, queued⟩

theorem compileResident_meets (owner : Nat) (operations listed : List Nat)
    (answers : ParallelAnswers) (queue : List QueueEvent) :
    Meets (fun world => Opened listed world ∧ world.queue = queue)
      (compileResident owner operations answers)
      (fun _ => Submitting listed queue) (fun world => world.queue = queue) := by
  apply Meets.bind _ (compilePrograms_meets owner operations listed answers queue)
  intro _
  apply Meets.modify
  rintro world ⟨opened, queued⟩
  exact ⟨⟨opened.established, opened.active⟩, queued, rfl⟩

/-- Marking one request leaves the transactions open. -/
theorem Submitting.mark {listed : List Nat} {queue : List QueueEvent} {world : World}
    (submitting : Submitting listed queue world) (address : Nat) :
    Submitting listed queue (markSubmissionAttempted address world) := by
  refine ⟨⟨submitting.opened.established, fun client isListed => ?_⟩, submitting.queue_eq,
    submitting.released⟩
  rw [markSubmissionAttempted, setRequest_requests]
  by_cases same : client = address
  · rw [if_pos same]
    exact same ▸ submitting.opened.active client isListed
  · rw [if_neg same]
    exact submitting.opened.active client isListed

theorem Submitting.consume {listed : List Nat} {queue : List QueueEvent} {world : World}
    (submitting : Submitting listed queue world) (address : Nat) :
    Submitting listed queue
      (world.setClient address { world.clients address with testFault := .none }) :=
  ⟨submitting.opened.consume address, submitting.queue_eq, submitting.released⟩

/-- What the queue may have seen of the call when it fails before the statuses are read. -/
def NotRead (queue : List QueueEvent) (world : World) : Prop :=
  world.queue = queue ∨ ∃ workload, world.queue = queue ++ [.gets workload]

/-- Submission enqueues one workload, with every request marked before. -/
theorem submitGets_meets (owner : Nat) (operations : List Nat) (answers : ParallelAnswers)
    (queue : List QueueEvent) :
    Meets (Submitting operations queue) (submitGets owner operations answers)
      (fun _ world => AtRead operations world ∧
        ∃ workload, world.queue = queue ++ [.gets workload])
      (NotRead queue) := by
  let Marked : List Nat → World → Prop := fun behind world =>
    Submitting operations queue world ∧
      ∀ client ∈ behind, (world.requests client).submissionAttempted = true
  let Sent : World → Prop := fun world => AtRead operations world ∧
    ∃ workload, world.queue = queue ++ [.gets workload]
  have early : ∀ world, Submitting operations queue world → NotRead queue world :=
    fun _ submitting => .inl submitting.queue_eq
  have late : ∀ world, Sent world → NotRead queue world := fun _ sent => .inr sent.2
  have consumed : ∀ (address : Nat) (world : World), Sent world →
      Sent (world.setClient address { world.clients address with testFault := .none }) :=
    fun address world sent =>
      ⟨⟨sent.1.opened.consume address, sent.1.attempted, sent.1.released⟩, sent.2⟩
  apply Meets.bind (fun _ => Submitting operations queue)
  · apply Meets.weaken (Meets.forEach (fun _ _ => Submitting operations queue) operations
      fun _ client _ _ => throwAtFault_meets client _ _ fun _ holds => holds.consume client)
      (fun _ holds => holds) (fun _ _ holds => holds) early
  intro _
  apply Meets.bind (fun _ => Marked operations)
  · apply Meets.weaken (Meets.forEach (fun behind _ => Marked behind) operations ?_)
      (fun _ holds => ⟨holds, fun _ none => absurd none List.not_mem_nil⟩)
      (fun _ _ holds => holds) early
    intro behind address _ _
    apply Meets.modify
    rintro world ⟨submitting, marked⟩
    refine ⟨submitting.mark address, fun client isMarked => ?_⟩
    rw [markSubmissionAttempted, setRequest_requests]
    by_cases same : client = address
    · rw [if_pos same]
    · rw [if_neg same]
      rcases List.mem_append.mp isMarked with before | isNew
      · exact marked client before
      · exact absurd (List.mem_singleton.mp isNew) same
  intro _
  apply Meets.bind (fun _ => Sent)
  · apply Meets.modify
    rintro world ⟨submitting, marked⟩
    have sent : Sent { world with
        queue := world.queue ++ [.gets ((world.clients owner).parallelGetProg.workload.getD [])] } :=
      ⟨⟨⟨submitting.opened.established, submitting.opened.active⟩, marked, submitting.released⟩,
        _, congrArg (· ++ _) submitting.queue_eq⟩
    exact sent
  intro _
  apply Meets.bind (fun _ => Sent)
  · apply Meets.weaken (attempt_meets _) (fun _ holds => holds) (fun _ _ holds => holds) late
  intro _
  apply Meets.weaken (Meets.forEach (fun _ _ => Sent) operations
    fun _ client _ _ => throwAtFault_meets client _ _ (consumed client))
    (fun _ holds => holds) (fun _ _ holds => holds) late

theorem Except.mapM_length {ι α : Type} {f : ι → Except Failure α} {elements : List ι}
    {values : List α} (mapped : elements.mapM f = .ok values) :
    values.length = elements.length := by
  induction elements generalizing values with
  | nil =>
    cases mapped
    rfl
  | cons element rest inductionHypothesis =>
    rw [List.mapM_cons] at mapped
    cases first : f element with
    | error failure =>
      rw [first] at mapped
      cases mapped
    | ok value =>
      cases others : rest.mapM f with
      | error failure =>
        rw [first, others] at mapped
        cases mapped
      | ok tail =>
        rw [first, others] at mapped
        cases mapped
        rw [List.length_cons, List.length_cons, inductionHypothesis others]

/-- The resident workload is compiled, submitted and waited for. -/
theorem runResident_meets (owner : Nat) (operations : List Nat) (answers : ParallelAnswers)
    (queue : List QueueEvent) :
    Meets (fun world => Opened operations world ∧ world.queue = queue)
      (runResident owner operations answers)
      (fun buffers world => AtRead operations world ∧ buffers.length = operations.length ∧
        ∃ workload, world.queue = queue ++ [.gets workload, .statusesRead buffers])
      (NotRead queue) := by
  apply Meets.bind (fun _ => Submitting operations queue)
  · exact Meets.weaken (compileResident_meets owner operations operations answers queue)
      (fun _ holds => holds) (fun _ _ holds => holds) fun _ queued => .inl queued
  intro _
  apply Meets.bind _ (submitGets_meets owner operations answers queue)
  intro _
  apply Meets.bind (fun buffers world => buffers.length = operations.length ∧
    AtRead operations world ∧ ∃ workload, world.queue = queue ++ [.gets workload])
  · apply Meets.ofExcept
    · intro buffers read world sent
      have length := Except.mapM_length read
      rw [List.length_range] at length
      exact ⟨length, sent⟩
    · exact fun _ sent => .inr sent.2
  intro buffers
  apply Meets.bind (fun _ world => AtRead operations world ∧
    buffers.length = operations.length ∧
      ∃ workload, world.queue = queue ++ [.gets workload, .statusesRead buffers])
  · apply Meets.modify
    rintro world ⟨length, ⟨opened, attempted, released⟩, workload, queued⟩
    refine ⟨⟨⟨opened.established, opened.active⟩, attempted, released⟩, length, workload, ?_⟩
    change world.queue ++ _ = _
    rw [queued, List.append_assoc]
    rfl
  · intro _
    exact Meets.pure fun _ holds => holds

/-- The entries of the preparing loop name the listed clients in order. -/
theorem entries_addresses {operations : List Nat} {keys : List (List UInt8)}
    (paired : operations.length = keys.length) :
    ((operations.zipIdx.zip keys).map fun ((address, i), key) => (i, address, key)).map (·.2.1) =
      operations := by
  rw [List.map_map]
  calc (operations.zipIdx.zip keys).map _
      = ((operations.zipIdx.zip keys).map Prod.fst).map Prod.fst := by
        rw [List.map_map]
        rfl
    _ = operations.zipIdx.map Prod.fst := by
        rw [List.map_fst_zip (by rw [List.length_zipIdx, paired])]
    _ = operations := List.zipIdx_map_fst 0 operations

@[simp] theorem dropBuildGuard_queue (world : World) :
    (dropBuildGuard world).queue = world.queue := by
  unfold dropBuildGuard
  split
  · rfl
  · rfl

theorem dropBuildGuard_released {world : World} (released : world.buildGuard = none) :
    dropBuildGuard world = world := by
  rw [dropBuildGuard, released]

/-- A call either fails before the statuses are read, whatever the examination, or
examines them inside all transactions and ends these afterwards. -/
theorem getParallelWith_reaches (platform : Platform) (operations : List Nat)
    (keys : List (List UInt8)) (tensor : Tensor) (answers : ParallelAnswers) (world : World) :
    (∃ failure after, NotRead world.queue after ∧ ∀ examine,
        getParallelWith examine platform operations keys tensor answers world =
          (.error failure, after)) ∨
      ∃ buffers inside, AtRead operations inside ∧ buffers.length = operations.length ∧
        (∃ workload, inside.queue = world.queue ++ [.gets workload, .statusesRead buffers]) ∧
        ∀ examine, getParallelWith examine platform operations keys tensor answers world =
          ((examine (operations.zip buffers) inside).1,
            dropBuildGuard (endRequests operations
              (examine (operations.zip buffers) inside).2)) := by
  by_cases some : operations ≠ []
  case neg =>
    refine .inl ⟨.fatal "get_parallel: clients must not be empty", world, .inl rfl, ?_⟩
    intro examine
    rw [getParallelWith, check_bind_not some]
    rfl
  by_cases paired : operations.length = keys.length
  case neg =>
    refine .inl ⟨.fatal ("get_parallel: clients and keys must have "
      ++ s!"equal length ({operations.length} != {keys.length})"), world, .inl rfl, ?_⟩
    intro examine
    rw [getParallelWith, check_bind_of some, check_bind_not paired]
    rfl
  by_cases points : operations.headD 0 ≠ 0
  case neg =>
    refine .inl ⟨.fatal "get_parallel: client 0 is null", world, .inl rfl, ?_⟩
    intro examine
    rw [getParallelWith, check_bind_of some, check_bind_of paired]
    dsimp only
    rw [check_bind_not points]
    rfl
  let owner := operations.headD 0
  let build := decide (buildsWorkload world owner operations)
  let sharedMesh := (world.clients owner).session.clientSubmesh
  let entries := (operations.zipIdx.zip keys).map fun ((address, i), key) => (i, address, key)
  have addresses : entries.map (·.2.1) = operations := entries_addresses paired
  let started := openResident owner operations world
  have startedQueue : started.queue = world.queue := by
    by_cases builds : buildsWorkload world owner operations
    · change (openResident owner operations world).queue = _
      rw [openResident, if_pos builds]
      rfl
    · change (openResident owner operations world).queue = _
      rw [openResident, if_neg builds]
  have unfolded : ∀ examine, getParallelWith examine platform operations keys tensor answers
      world = ((withGets platform sharedMesh owner build tensor (do
        let buffers ← runResident owner operations answers
        examine (operations.zip buffers)) entries started).1,
      dropBuildGuard (withGets platform sharedMesh owner build tensor (do
        let buffers ← runResident owner operations answers
        examine (operations.zip buffers)) entries started).2) := by
    intro examine
    rw [getParallelWith, check_bind_of some, check_bind_of paired]
    dsimp only
    rw [check_bind_of points]
    rfl
  rcases withGets_reaches platform sharedMesh owner build tensor entries [] started
    ⟨fun _ none => absurd none List.not_mem_nil, fun _ none => absurd none List.not_mem_nil⟩ with
    ⟨failure, after, queue, fails⟩ | ⟨prepared, queue, opened, runs⟩
  · refine .inl ⟨failure, dropBuildGuard after, .inl ?_, fun examine => ?_⟩
    · rw [dropBuildGuard_queue, queue, startedQueue]
    · rw [unfolded, fails]
  rw [List.nil_append, addresses] at opened
  rw [addresses] at runs
  rcases (runResident_meets owner operations answers world.queue).outcome
    ⟨opened, queue.trans startedQueue⟩ with
    ⟨failure, after, failed, notRead⟩ | ⟨buffers, inside, read, atRead, length, queued⟩
  · refine .inl ⟨failure, dropBuildGuard (endRequests operations after), ?_, fun examine => ?_⟩
    · rw [NotRead, dropBuildGuard_queue, endRequests_queue]
      exact notRead
    · rw [unfolded, runs, bind_error failed]
  · refine .inr ⟨buffers, inside, atRead, length, queued, fun examine => ?_⟩
    rw [unfolded, runs, bind_ok read]

/-! ## Examining the statuses -/

/-- The requests that the loop marks complete: those up to the first too small output. -/
def examined : List (Nat × List UInt8) → List Nat
  | [] => []
  | (address, buffer) :: rest => address :: if Fits buffer then examined rest else []

def completeAll (done : List Nat) (world : World) : World :=
  done.foldl (fun world address => complete address world) world

theorem completeAll_clients (done : List Nat) (world : World) (other : Nat) :
    (completeAll done world).clients other =
      if other ∈ done then (world.clients other).releaseBuffers else world.clients other := by
  induction done generalizing world with
  | nil => simp [completeAll]
  | cons address rest inductionHypothesis =>
    change (completeAll rest (complete address world)).clients other = _
    rw [inductionHypothesis, complete_clients]
    by_cases same : other = address
    · subst same
      by_cases listed : other ∈ rest
      · simp [listed, ClientOperations.releaseBuffers]
      · simp [listed]
    · simp [same]

theorem completeAll_requests (done : List Nat) (world : World) (other : Nat) :
    (completeAll done world).requests other =
      if other ∈ done then { world.requests other with active := false }
      else world.requests other := by
  induction done generalizing world with
  | nil => simp [completeAll]
  | cons address rest inductionHypothesis =>
    change (completeAll rest (complete address world)).requests other = _
    rw [inductionHypothesis, complete_requests]
    by_cases same : other = address
    · subst same
      by_cases listed : other ∈ rest
      · simp [listed]
      · simp [listed]
    · simp [same]

theorem completeAll_buildGuard (done : List Nat) (world : World) :
    (completeAll done world).buildGuard = world.buildGuard := by
  induction done generalizing world with
  | nil => rfl
  | cons address rest inductionHypothesis =>
    change (completeAll rest (complete address world)).buildGuard = _
    rw [inductionHypothesis]
    rfl

/-- On whole status responses the loop returns the hits if every value fits, throws
otherwise, and has then completed the requests it came to.

Proof: induction on the responses. -/
theorem examineStatuses_eq (outputCapacity : Nat) (responses : List (Nat × List UInt8))
    (whole : ∀ response ∈ responses, 4 ≤ response.2.length) (world : World) :
    (examineStatuses outputCapacity responses world).2 = completeAll (examined responses) world ∧
      ((∀ response ∈ responses, Fits response.2) →
        (examineStatuses outputCapacity responses world).1 = .ok (responses.map fun response =>
          (response.1, decide (statusWord response.2 &&& getStatusFound ≠ 0)))) := by
  induction responses generalizing world with
  | nil => exact ⟨rfl, fun _ => rfl⟩
  | cons response rest inductionHypothesis =>
    obtain ⟨address, buffer⟩ := response
    obtain ⟨state, result⟩ := inductionHypothesis
      (fun response listed => whole response (List.mem_cons_of_mem _ listed))
      (complete address world)
    have isWhole : 4 ≤ buffer.length := whole (address, buffer) List.mem_cons_self
    rw [examineStatuses, check_bind_of isWhole, modify_bind]
    by_cases fits : Fits buffer
    · rw [check_bind_of (show statusWord buffer &&& getStatusOutputTooSmall = 0 from fits)]
      have done : examined ((address, buffer) :: rest) = address :: examined rest := by
        rw [examined, if_pos fits]
      constructor
      · rw [done]
        change _ = completeAll (examined rest) (complete address world)
        rw [← state]
        cases outcome : examineStatuses outputCapacity rest (complete address world) with
        | mk found after =>
          cases found with
          | error failure => rw [bind_error outcome]
          | ok hits =>
            rw [bind_ok outcome]
            rfl
      · intro all
        have found := result fun response listed => all response (List.mem_cons_of_mem _ listed)
        rw [bind_ok (Prod.ext found rfl)]
        rfl
    · rw [check_bind_not (show ¬ statusWord buffer &&& getStatusOutputTooSmall = 0 from fits)]
      constructor
      · rw [examined, if_neg fits]
        rfl
      · intro all
        exact absurd (all (address, buffer) List.mem_cons_self) fits

/-- Every request is marked complete exactly if no status before the last reports a too
small output. -/
theorem mem_examined_iff {responses : List (Nat × List UInt8)}
    (distinct : (responses.map Prod.fst).Nodup) :
    (∀ address ∈ responses.map Prod.fst, address ∈ examined responses) ↔
      ∀ response ∈ responses.dropLast, Fits response.2 := by
  induction responses with
  | nil => simp
  | cons response rest inductionHypothesis =>
    obtain ⟨address, buffer⟩ := response
    rw [List.map_cons, List.nodup_cons] at distinct
    cases rest with
    | nil => simp [examined]
    | cons next others =>
      have recursive := inductionHypothesis distinct.2
      rw [List.dropLast_cons_of_ne_nil (List.cons_ne_nil next others)]
      by_cases fits : Fits buffer
      · rw [examined, if_pos fits, List.forall_mem_cons, List.map_cons, List.forall_mem_cons]
        rw [← recursive]
        constructor
        · rintro ⟨-, all⟩
          refine ⟨fits, fun other listed => ?_⟩
          rcases List.mem_cons.mp (all other listed) with same | done
          · exact absurd (same ▸ listed) distinct.1
          · exact done
        · rintro ⟨-, all⟩
          exact ⟨List.mem_cons_self, fun other listed => List.mem_cons_of_mem _ (all other listed)⟩
      · constructor
        · intro all
          have listed : next.1 ∈ (next :: others).map Prod.fst := List.mem_cons_self
          have done := all next.1 (List.mem_cons_of_mem _ listed)
          rw [examined, if_neg fits, List.mem_singleton] at done
          exact absurd (done ▸ listed) distinct.1
        · intro all
          exact absurd (all (address, buffer) List.mem_cons_self) fits

/-- The client is established and its request was completed, not given up. -/
structure Kept (world : World) (address : Nat) : Prop where
  established : (world.clients address).state = .established
  inactive : (world.requests address).active = false
  tensorBufs : (world.clients address).activeTensorBufs = []
  hostWriteBufs : (world.clients address).activeHostWriteBufs = []

/-- A completed client only gives its buffers back. -/
theorem ended_done {operations done : List Nat} (inside : World) {address : Nat}
    (listed : address ∈ operations) (completed : address ∈ done) :
    (endRequests operations (completeAll done inside)).clients address =
      (inside.clients address).releaseBuffers := by
  rw [endRequests_clients, if_pos listed, completeAll_clients, completeAll_requests,
    if_pos completed, if_pos completed]
  rfl

theorem ended_kept {operations done : List Nat} {inside : World}
    (atRead : AtRead operations inside) {address : Nat} (listed : address ∈ operations)
    (completed : address ∈ done) :
    Kept (endRequests operations (completeAll done inside)) address := by
  have released := ended_done inside listed completed
  constructor
  · rw [released]
    exact atRead.opened.established address listed
  · rw [endRequests_requests, if_pos listed]
  · rw [released]
    rfl
  · rw [released]
    rfl

/-- A client whose request was submitted but not completed is quarantined. -/
theorem ended_skipped {operations done : List Nat} {inside : World}
    (atRead : AtRead operations inside) {address : Nat} (listed : address ∈ operations)
    (skipped : address ∉ done) :
    ((endRequests operations (completeAll done inside)).clients address).state =
      .quarantined := by
  rw [endRequests_clients, if_pos listed, completeAll_clients, completeAll_requests,
    if_neg skipped, if_neg skipped, ClientOperations.endRequest,
    if_pos (atRead.opened.active address listed), if_pos (atRead.attempted address listed),
    ClientOperations.quarantineFailedRequest]
  split
  · assumption
  · rfl

/-! ## The adapter after the call -/

/-- Where no listed client's operations are quarantined, the adapter changes nothing. -/
theorem syncAll_idle {host : Host} {clients : List Nat}
    (healthy : ∀ client ∈ clients,
      (host.world.clients (host.impls client).operations).state ≠ .quarantined) :
    host.syncAll clients = host := by
  induction clients with
  | nil => rfl
  | cons client rest inductionHypothesis =>
    have idle : host.syncOperationsQuarantine client = host := by
      rw [Host.syncOperationsQuarantine, if_pos (.inr (.inl (healthy client List.mem_cons_self)))]
    change (host.syncOperationsQuarantine client).syncAll rest = host
    rw [idle]
    exact inductionHypothesis fun other listed => healthy other (List.mem_cons_of_mem _ listed)

/-- Operations that are quarantined stay so when the adapter looks at them. -/
theorem syncAll_quarantined {host : Host} {address : Nat} (clients : List Nat)
    (quarantined : (host.world.clients address).state = .quarantined) :
    ((host.syncAll clients).world.clients address).state = .quarantined := by
  induction clients generalizing host with
  | nil => exact quarantined
  | cons client rest inductionHypothesis =>
    change (((host.syncOperationsQuarantine client).syncAll rest).world.clients address).state = _
    apply inductionHypothesis
    rw [Host.syncOperationsQuarantine]
    split
    · exact quarantined
    · change ((host.world.setClient _ _).clients address).state = _
      rw [setClient_clients]
      split
      · next same =>
        rw [← same, ClientOperations.quarantine, if_pos (.inl quarantined)]
        exact quarantined
      · exact quarantined

/-- What the adapter's checks say of the clients it lets through. -/
theorem admitParallel_ok {host : Host} {clients : List Nat} {keys : List (List UInt8)}
    {operations : List Nat} (admitted : host.admitParallel clients keys = .ok operations) :
    operations = clients.map (fun client => (host.impls client).operations) ∧
      operations.Nodup ∧ ∀ client ∈ clients, (host.impls client).lifecycleState = .established := by
  unfold Host.admitParallel at admitted
  split at admitted
  · cases admitted
  split at admitted
  · cases admitted
  split at admitted
  · cases admitted
  split at admitted
  · cases admitted
  split at admitted
  · cases admitted
  next distinct usable =>
  cases admitted
  push Not at usable
  refine ⟨rfl, ?_, fun client listed => (usable client listed).1⟩
  apply List.Nodup.map_on _ (not_not.mp distinct)
  intro first isFirst second isSecond same
  exact host.owned first second (usable first isFirst).2 same

/-! ## The result -/

section Result

variable (platform : Platform) (host : Host) (clients : List Nat) (keys : List (List UInt8))
  (tensor : Tensor) (answers : ParallelAnswers) (operations : List Nat)

/-- The backend's call with the statuses examined in another order. -/
def callInOrder (order : List (Nat × List UInt8) → List (Nat × List UInt8)) :
    Except Failure (List (Nat × Bool)) × Host :=
  host.callParallelWith
    (fun responses => examineStatuses tensor.packedBufferSizeBytes (order responses))
    platform operations keys tensor answers

/-- The operation's result for one client: the hit or the exception, and what became of
its operations. -/
def resultFor (address : Nat) (outcome : Except Failure (List (Nat × Bool)) × Host) :
    Except Failure (Option Bool) × ClientOperations :=
  (outcome.1.map (·.lookup address), outcome.2.world.clients address)

/-- The call leaves every client established, with its request completed. -/
def KeepsClients : Prop :=
  ∀ client ∈ clients,
    Kept (host.getParallel platform clients keys tensor answers).2.world
        (host.impls client).operations ∧
      ((host.getParallel platform clients keys tensor answers).2.impls client).lifecycleState =
        .established

/-- No client's result depends on the order in which the statuses are examined. -/
def OrderFree : Prop :=
  ∀ order : List (Nat × List UInt8) → List (Nat × List UInt8),
    (∀ responses, (order responses).Perm responses) → ∀ address ∈ operations,
      resultFor address (callInOrder platform host keys tensor answers operations order) =
        resultFor address (callInOrder platform host keys tensor answers operations id)

/-- The adapter's look at the operations afterwards changes no client. -/
def SyncIdle : Prop :=
  (callInOrder platform host keys tensor answers operations id).2.syncAll clients =
    (callInOrder platform host keys tensor answers operations id).2

variable {platform host clients keys tensor answers operations}

/-- What the call leaves when it got to the statuses. -/
theorem callInOrder_eq {buffers : List (List UInt8)}
    (read : ∃ workload,
      (callInOrder platform host keys tensor answers operations id).2.world.queue =
        host.world.queue ++ [.gets workload, .statusesRead buffers])
    (whole : ∀ buffer ∈ buffers, 4 ≤ buffer.length) :
    buffers.length = operations.length ∧ ∃ inside, AtRead operations inside ∧
      ∀ order : List (Nat × List UInt8) → List (Nat × List UInt8),
        (∀ responses, (order responses).Perm responses) →
        (callInOrder platform host keys tensor answers operations order).2.world =
            endRequests operations
              (completeAll (examined (order (operations.zip buffers))) inside) ∧
          (callInOrder platform host keys tensor answers operations order).2.impls =
            host.impls ∧
          ((∀ buffer ∈ buffers, Fits buffer) →
            (callInOrder platform host keys tensor answers operations order).1 =
              .ok ((order (operations.zip buffers)).map fun response =>
                (response.1, decide (statusWord response.2 &&& getStatusFound ≠ 0)))) ∧
          (order (operations.zip buffers) = operations.zip buffers →
            (callInOrder platform host keys tensor answers operations order).1 =
              (callInOrder platform host keys tensor answers operations id).1) := by
  obtain ⟨workload, queued⟩ := read
  rcases getParallelWith_reaches platform operations keys tensor answers host.world with
    ⟨failure, after, notRead, fails⟩ | ⟨received, inside, atRead, length, ⟨sent, seen⟩, runs⟩
  · have reached : after.queue = host.world.queue ++ [.gets workload, .statusesRead buffers] := by
      rw [← queued]
      change _ = (getParallelWith _ _ _ _ _ _ _).2.queue
      rw [fails]
    rcases notRead with same | ⟨earlier, same⟩
    · rw [same] at reached
      exact absurd (congrArg List.length reached) (by simp)
    · rw [same] at reached
      exact absurd (congrArg List.length reached) (by simp)
  have outcome : ∀ order, callInOrder platform host keys tensor answers operations order =
      ((examineStatuses tensor.packedBufferSizeBytes (order (operations.zip received)) inside).1,
        { host with world := dropBuildGuard (endRequests operations (examineStatuses
          tensor.packedBufferSizeBytes (order (operations.zip received)) inside).2) }) := by
    intro order
    rw [callInOrder, Host.callParallelWith, runs]
  have same : received = buffers := by
    have ends : (callInOrder platform host keys tensor answers operations id).2.world.queue =
        inside.queue := by
      rw [outcome, dropBuildGuard_queue, endRequests_queue,
        examineStatuses_keeps World.queue fun _ _ => rfl]
    rw [queued, seen] at ends
    have reads := List.append_cancel_left ends
    simp only [List.cons.injEq, QueueEvent.statusesRead.injEq] at reads
    exact reads.2.1.symm
  subst same
  refine ⟨length, inside, atRead, fun order permutes => ?_⟩
  have responses := permutes (operations.zip received)
  have wholeResponses : ∀ response ∈ order (operations.zip received), 4 ≤ response.2.length :=
    fun response listed => whole response.2 (List.of_mem_zip (responses.mem_iff.mp listed)).2
  obtain ⟨state, result⟩ := examineStatuses_eq tensor.packedBufferSizeBytes _ wholeResponses inside
  rw [outcome, outcome id]
  refine ⟨?_, rfl, fun all => result fun response listed =>
    all response.2 (List.of_mem_zip (responses.mem_iff.mp listed)).2, fun same => by rw [same]; rfl⟩
  rw [state, dropBuildGuard_released]
  rw [endRequests_buildGuard, completeAll_buildGuard]
  exact atRead.released

/-- The hit of a client is found in any order of the responses. -/
theorem lookup_hit {responses : List (Nat × List UInt8)}
    (distinct : (responses.map Prod.fst).Nodup) {response : Nat × List UInt8}
    (listed : response ∈ responses) (hit : List UInt8 → Bool) :
    (responses.map fun response => (response.1, hit response.2)).lookup response.1 =
      some (hit response.2) := by
  induction responses with
  | nil => exact absurd listed List.not_mem_nil
  | cons first rest inductionHypothesis =>
    rw [List.map_cons, List.nodup_cons] at distinct
    rcases List.mem_cons.mp listed with rfl | behind
    · exact List.lookup_cons_self
    · have differ : response.1 ≠ first.1 := by
        intro same
        exact distinct.1 (same ▸ List.mem_map_of_mem (f := Prod.fst) behind)
      rw [List.map_cons, List.lookup_cons, inductionHypothesis distinct.2 behind,
        beq_false_of_ne differ]

/-- Once the last status has been read, the call leaves every client established with its
request completed exactly if no status but the last reports a too small output. It does
so with every client's result independent of the order of examination, and with nothing
left for the adapter to quarantine, exactly if no status at all reports one or there is
only one client.

Proof: the loop completes the requests up to the first such status, and the destructors
quarantine the clients of the rest. Where only the last status reports a too small
output, the reversed order completes that client alone. -/
theorem parallel_get_keeps_clients {buffers : List (List UInt8)}
    (admitted : host.admitParallel clients keys = .ok operations)
    (read : ∃ workload,
      (callInOrder platform host keys tensor answers operations id).2.world.queue =
        host.world.queue ++ [.gets workload, .statusesRead buffers])
    (whole : ∀ buffer ∈ buffers, 4 ≤ buffer.length) :
    (KeepsClients platform host clients keys tensor answers ↔
      ∀ buffer ∈ buffers.dropLast, Fits buffer) ∧
    (KeepsClients platform host clients keys tensor answers ∧
        OrderFree platform host keys tensor answers operations ∧
        SyncIdle platform host clients keys tensor answers operations ↔
      (∀ buffer ∈ buffers, Fits buffer) ∨ clients.length = 1) := by
  obtain ⟨mapped, distinct, established⟩ := admitParallel_ok admitted
  obtain ⟨length, inside, atRead, outcomes⟩ := callInOrder_eq read whole
  let responses := operations.zip buffers
  have addresses : responses.map Prod.fst = operations :=
    List.map_fst_zip (Nat.le_of_eq length.symm)
  have statuses : responses.map Prod.snd = buffers := List.map_snd_zip (Nat.le_of_eq length)
  have distinctResponses : (responses.map Prod.fst).Nodup := addresses ▸ distinct
  have lastOnly : (∀ response ∈ responses.dropLast, Fits response.2) ↔
      ∀ buffer ∈ buffers.dropLast, Fits buffer := by
    rw [← statuses, ← List.map_dropLast, List.forall_mem_map]
  let middle := (callInOrder platform host keys tensor answers operations id).2
  obtain ⟨middleState, middleImpls, -, -⟩ := outcomes id fun _ => .refl _
  have middleWorld : middle.world =
      endRequests operations (completeAll (examined responses) inside) := middleState
  have result : (host.getParallel platform clients keys tensor answers).2 =
      middle.syncAll clients := by
    rw [Host.getParallel, admitted]
    rfl
  have owns : ∀ client ∈ clients, (host.impls client).operations ∈ operations := by
    intro client listed
    rw [mapped]
    exact List.mem_map_of_mem listed
  have idle : (∀ address ∈ operations, address ∈ examined responses) →
      middle.syncAll clients = middle := by
    intro all
    apply syncAll_idle
    intro client listed
    have kept := ended_kept atRead (owns client listed) (all _ (owns client listed))
    rw [middleImpls, middleWorld]
    intro quarantined
    exact absurd (kept.established.symm.trans quarantined) (by decide)
  have keeps : KeepsClients platform host clients keys tensor answers ↔
      ∀ address ∈ operations, address ∈ examined responses := by
    constructor
    · intro kept address listed
      by_contra skipped
      rw [mapped] at listed
      obtain ⟨client, isClient, rfl⟩ := List.mem_map.mp listed
      have quarantined : (middle.world.clients (host.impls client).operations).state =
          .quarantined := by
        rw [middleWorld]
        exact ended_skipped atRead (owns client isClient) skipped
      have still := syncAll_quarantined clients quarantined
      rw [← result] at still
      exact absurd ((kept client isClient).1.established.symm.trans still) (by decide)
    · intro all client listed
      rw [result, idle all, middleWorld, middleImpls]
      exact ⟨ended_kept atRead (owns client listed) (all _ (owns client listed)),
        established client listed⟩
  have first : KeepsClients platform host clients keys tensor answers ↔
      ∀ buffer ∈ buffers.dropLast, Fits buffer := by
    rw [keeps, ← lastOnly, ← mem_examined_iff distinctResponses, addresses]
  refine ⟨first, ?_⟩
  constructor
  · rintro ⟨kept, orderFree, -⟩
    by_contra neither
    push Not at neither
    obtain ⟨⟨buffer, isBuffer, small⟩, several⟩ := neither
    rcases List.eq_nil_or_concat' responses with none | ⟨front, last, split⟩
    · rw [← statuses, none] at isBuffer
      exact absurd isBuffer List.not_mem_nil
    have clean := lastOnly.mpr (first.mp kept)
    rw [split, List.dropLast_concat] at clean
    have tooSmall : ¬ Fits last.2 := by
      rw [← statuses, split, List.map_append, List.mem_append] at isBuffer
      rcases isBuffer with early | isLast
      · obtain ⟨response, isEarly, rfl⟩ := List.mem_map.mp early
        exact absurd (clean response isEarly) small
      · rwa [List.mem_singleton.mp isLast] at small
    -- The reversed order begins with the only status that does not fit.
    have reversed : examined responses.reverse = [last.1] := by
      rw [split, List.reverse_append, List.reverse_singleton, List.singleton_append, examined,
        if_neg tooSmall]
    cases front with
    | nil =>
      have counted : responses.length = clients.length := by
        rw [← List.length_map (f := Prod.fst), addresses, mapped, List.length_map]
      rw [split] at counted
      exact several counted.symm
    | cons other others =>
      have isOther : other.1 ∈ operations := by
        rw [← addresses, split]
        exact List.mem_cons_self
      have differ : other.1 ≠ last.1 := by
        rw [split] at distinctResponses
        intro same
        rw [List.cons_append, List.map_cons, List.nodup_cons] at distinctResponses
        apply distinctResponses.1
        rw [same]
        exact List.mem_map_of_mem (List.mem_append_right _ List.mem_cons_self)
      have same := congrArg Prod.snd
        (orderFree List.reverse (fun responses => List.reverse_perm responses) other.1 isOther)
      have given : (middle.world.clients other.1).state = .established := by
        rw [middleWorld]
        exact (ended_kept atRead isOther (keeps.mp kept other.1 isOther)).established
      have lost : ((callInOrder platform host keys tensor answers operations
          List.reverse).2.world.clients other.1).state = .quarantined := by
        rw [(outcomes List.reverse fun responses => List.reverse_perm responses).1]
        apply ended_skipped atRead isOther
        change other.1 ∉ examined responses.reverse
        rw [reversed, List.mem_singleton]
        exact differ
      have conflict := (congrArg ClientOperations.state same).symm.trans lost
      exact absurd (given.symm.trans conflict) (by decide)
  · rintro (all | single)
    · have dropped : ∀ buffer ∈ buffers.dropLast, Fits buffer := fun buffer listed =>
        all buffer (List.dropLast_subset _ listed)
      have completed := keeps.mp (first.mpr dropped)
      refine ⟨first.mpr dropped, fun order permutes address listed => ?_, idle completed⟩
      have permuted := permutes responses
      have permutedFirst : ((order responses).map Prod.fst).Perm (responses.map Prod.fst) :=
        permuted.map Prod.fst
      have completedToo : address ∈ examined (order responses) := by
        apply (mem_examined_iff (permutedFirst.nodup_iff.mpr distinctResponses)).mpr
        · intro response isResponse
          exact all response.2 (List.of_mem_zip
            (permuted.mem_iff.mp (List.dropLast_subset _ isResponse))).2
        · rw [permutedFirst.mem_iff, addresses]
          exact listed
      obtain ⟨orderedWorld, -, orderedHits, -⟩ := outcomes order permutes
      obtain ⟨-, -, givenHits, -⟩ := outcomes id fun _ => .refl _
      have isFirst : address ∈ responses.map Prod.fst := addresses ▸ listed
      obtain ⟨response, isResponse, rfl⟩ := List.mem_map.mp isFirst
      apply Prod.ext
      · change Except.map _ _ = Except.map _ _
        rw [orderedHits all, givenHits all]
        exact congrArg Except.ok ((lookup_hit (permutedFirst.nodup_iff.mpr distinctResponses)
          (permuted.mem_iff.mpr isResponse)
          fun buffer => decide (statusWord buffer &&& getStatusFound ≠ 0)).trans
          (lookup_hit distinctResponses isResponse
            fun buffer => decide (statusWord buffer &&& getStatusFound ≠ 0)).symm)
      · change (callInOrder platform host keys tensor answers operations order).2.world.clients _ =
          middle.world.clients _
        rw [orderedWorld, middleWorld, ended_done inside listed completedToo,
          ended_done inside listed (completed _ listed)]
    · obtain ⟨client, rfl⟩ := List.length_eq_one_iff.mp single
      have one : responses.length = 1 := by
        rw [← List.length_map (f := Prod.fst), addresses, mapped, List.length_map]
        rfl
      obtain ⟨response, only⟩ := List.length_eq_one_iff.mp one
      have dropped : ∀ buffer ∈ buffers.dropLast, Fits buffer := by
        apply lastOnly.mp
        rw [only]
        exact fun _ none => absurd none List.not_mem_nil
      refine ⟨first.mpr dropped, fun order permutes address listed => ?_,
        idle (keeps.mp (first.mpr dropped))⟩
      have unchanged : order responses = responses := by
        have permuted := permutes responses
        rw [only] at permuted ⊢
        exact List.perm_singleton.mp permuted
      obtain ⟨orderedWorld, -, -, sameHits⟩ := outcomes order permutes
      apply Prod.ext
      · exact congrArg (Except.map _) (sameHits unchanged)
      · change (callInOrder platform host keys tensor answers operations order).2.world.clients _ =
          middle.world.clients _
        rw [orderedWorld, middleWorld]
        change (endRequests operations (completeAll (examined (order responses)) inside)).clients _ =
          (endRequests operations (completeAll (examined responses) inside)).clients _
        rw [unchanged]

end Result

/-! ## Two clients -/

def samplePlatform : Platform where
  fabricNodeId := fun mesh coord => (mesh, coord)
  gatewayNode := (9, 9)
  laneConnection := fun lane => [lane]
  fabricConnection := fun _ node link => [node.1, node.2, link]
  numDramChannels := fun _ _ => 12
  dramGridSize := fun _ _ => (12, 1)

def sampleDescriptor : ServerDescriptor where
  fabricMeshId := 1
  fabricChipId := 7
  l1Base := 0x20000
  nocX := 18
  nocY := 18
  ringSlots := 64
  maxValueBytes := 65536
  maxKeyBytes := 128
  numDramChannels := 12
  dramGridX := 12
  dramGridY := 1

/-- An established client of mesh one at the given chip, fresh from ESTABLISH. -/
def sampleClient (chip generation : Nat) : ClientOperations where
  session := configureSession
    { clientMesh := 1, clientCoord := chip, clientL1Base := 0x40000 + 0x1000 * chip,
      statusBufBase := 0x50000, routeWordToServer := 3, fabricLinkIdx := 0,
      staticIntermeshLane := 0, staticIntermeshGalaxyToT3k := false }
    sampleDescriptor (Session.makeClientToken chip generation)
  state := .established
  testFault := .none
  quarantinePublished := false
  nextRingSlotIdx := 0
  nextSeq := 1
  activeTensorBufs := []
  activeHostWriteBufs := []
  getProg := ⟨none, false⟩
  parallelGetProg := ⟨none, [], false⟩

def sampleRequest : RequestTransaction := ⟨0, 0, 0, 0, 0, false, false⟩

def sampleTensor : Tensor where
  onDevice := true
  isAllocated := true
  device := 1
  bufferType := bufferTypeDram
  memoryLayout := memoryLayoutInterleaved
  rank := 2
  pageSizeBytes := 1024
  packedBufferSizeBytes := 4096
  bufferAddress := 0x100000
  buffer := 77

/-- Clients one and two with their operations at eleven and twelve. -/
def sampleHost : Host where
  impls := fun client =>
    ⟨if client = 1 then 11 else if client = 2 then 12 else 0, .established, false⟩
  world :=
    { clients := fun address => sampleClient (if address = 11 then 0 else 1) 5
      requests := fun _ => sampleRequest
      buildGuard := none
      queue := [] }
  owned := by
    intro first second points same
    simp only at points same
    split_ifs at points same <;> omega

/-- The device answers the status reads with the given words. -/
def answering (statuses : List UInt8) : ParallelAnswers where
  compile := fun _ => none
  enqueue := none
  read := fun i => .ok [statuses.getD i 0, 0, 0, 0]

/-- Two values that fit, one found and one missed, leave both clients established. -/
theorem parallel_get_keeps_two :
    (KeepsClients samplePlatform sampleHost [1, 2] [[1], [2]] sampleTensor (answering [1, 0]) ∧
        OrderFree samplePlatform sampleHost [[1], [2]] sampleTensor (answering [1, 0]) [11, 12] ∧
        SyncIdle samplePlatform sampleHost [1, 2] [[1], [2]] sampleTensor (answering [1, 0])
          [11, 12] ↔
      (∀ buffer ∈ [[1, 0, 0, 0], [0, 0, 0, 0]], Fits buffer) ∨ [1, 2].length = 1) :=
  (parallel_get_keeps_clients (by decide +kernel) ⟨_, rfl⟩ (by decide)).2

/-- A first status that reports a found value which does not fit: the call throws, and
the second client, whose value was found and did fit, is quarantined. -/
theorem small_output_quarantines :
    ¬ ∀ (platform : Platform) (host : Host) (clients : List Nat) (keys : List (List UInt8))
        (tensor : Tensor) (answers : ParallelAnswers) (operations : List Nat)
        (buffers : List (List UInt8)),
      host.admitParallel clients keys = .ok operations →
      (∃ workload, (callInOrder platform host keys tensor answers operations id).2.world.queue =
        host.world.queue ++ [.gets workload, .statusesRead buffers]) →
      (∀ buffer ∈ buffers, 4 ≤ buffer.length) →
      KeepsClients platform host clients keys tensor answers ∧
        OrderFree platform host keys tensor answers operations ∧
        SyncIdle platform host clients keys tensor answers operations := by
  intro claim
  obtain ⟨keeps, -, -⟩ := claim samplePlatform sampleHost [1, 2] [[1], [2]] sampleTensor
    (answering [3, 1]) [11, 12] [[3, 0, 0, 0], [1, 0, 0, 0]] (by decide +kernel) ⟨_, rfl⟩
    (by decide)
  have lost : ((sampleHost.getParallel samplePlatform [1, 2] [[1], [2]] sampleTensor
      (answering [3, 1])).2.impls 2).lifecycleState = .quarantined := by
    decide +kernel
  exact absurd ((keeps 2 (by decide)).2.symm.trans lost) (by decide)

end KvCache.ClientOps
