import KvCache.Foundation.Ring
import KvCache.Foundation.Run
import KvCache.Server.State

/-!
# The queue of PUTs before the host

BRISC keeps published PUTs in a ring of as many cells as the directory has slots, and writes
them through one after the other. A directory request goes first as long as the queue is
below its high watermark; a request that has to be retried forces one PUT of the queue
through before the next request.

Here the ring and the flags of the loop are kept as in the code, and the requests come in
any order. What the directory and the heap answer to a prepare is an argument of its
service, so that the answers of every directory are covered. A pass that waits for the host
in its middle is two steps.
-/

namespace KvCache.Server.PutHostQueue

open Run

/-- Queued PUTs from which requests wait: `min(max_keys, 8)`. -/
def highWatermark (maxKeys : Nat) : Nat :=
  if maxKeys < Layout.putHostQueueHighWatermark then maxKeys else Layout.putHostQueueHighWatermark

/-! ## The loop -/

/-- A directory request. The lengths of a publication may be wrong. -/
inductive Request where
  | prepare
  | publish (dirSlot pendingToken : Nat) (lengthsFit : Bool)
  | other
deriving DecidableEq, Repr

/-- What a prepare finds: whether the lengths fit, whether pending bytes leave no room for a
lease besides, the slot of the key, a free one or the oldest one, whether a block is
allocated, and whether the value is large enough to be streamed. -/
structure Answer where
  lengthsFit : Bool
  pendingBytesBlock : Bool
  slot : Option Nat
  allocated : Bool
  streams : Bool
deriving DecidableEq, Repr

/-- Where the loop is in a pass. -/
inductive Pass where
  | top
  | pushingPrefix
  | committing
deriving DecidableEq, Repr

/-- The ring, the flags and the request that waits. -/
structure Scheduler where
  queue : Ring Directory.QueueItem
  forcePutHostCommit : Bool
  streamPrefixReady : Bool
  streamTailPending : Bool
  streamSlot : Option Nat
  reservedSlot : Option Nat
  request : Option Request
  pass : Pass

/-- The loop before its first pass. -/
def Scheduler.cold (cell : Nat → Directory.QueueItem) : Scheduler :=
  ⟨.empty cell, false, false, false, none, none, none, .top⟩

/-- What can be seen of a step: a request was served, with whether it left the flag set; a PUT
was queued or consumed. -/
inductive Event where
  | served (forced : Bool)
  | queued (item : Directory.QueueItem)
  | consumed (item : Directory.QueueItem)
deriving DecidableEq, Repr

variable (maxKeys : Nat) (state : Scheduler)

/-- The queue forbids requests. -/
def Scheduler.held : Prop :=
  (state.forcePutHostCommit = true ∨ highWatermark maxKeys ≤ state.queue.count) ∧
    state.queue.count ≠ 0

/-- Channel (A) takes the request that waits, given whether the move channel is idle. -/
def Scheduler.admits (moveIdle : Bool) : Prop :=
  state.request ≠ none ∧ (state.streamPrefixReady = true ∨ moveIdle = true) ∧
    ¬ state.held maxKeys

instance : Decidable (state.held maxKeys) := by
  unfold Scheduler.held
  infer_instance

instance (moveIdle : Bool) : Decidable (state.admits maxKeys moveIdle) := by
  unfold Scheduler.admits
  infer_instance

/-- A retried request forces a PUT through, if there is one. -/
def Scheduler.retry : Scheduler :=
  { state with forcePutHostCommit := state.forcePutHostCommit || state.queue.count != 0 }

/-- PUT prepare. -/
def Scheduler.prepare (answer : Answer) : Scheduler :=
  let blocked := state.queue.count != 0 && answer.pendingBytesBlock
  match if answer.lengthsFit && !blocked then answer.slot else none with
  | none => state.retry
  | some slot =>
    if answer.allocated then
      let granted := { state with forcePutHostCommit := false, reservedSlot := some slot }
      if answer.streams && granted.queue.count == 0 then
        { granted with streamSlot := some slot, pass := .pushingPrefix }
      else granted
    else { state with reservedSlot := none }.retry

/-- Whether a publication is of the PUT whose prefix was streamed. -/
def Scheduler.streamMatches (dirSlot : Nat) : Bool :=
  state.streamPrefixReady && state.streamSlot == some dirSlot

/-- A publication is refused for want of a cell. -/
def Scheduler.refusesFull (dirSlot : Nat) : Prop :=
  state.streamMatches dirSlot = false ∧ state.queue.count = maxKeys

instance (dirSlot : Nat) : Decidable (state.refusesFull maxKeys dirSlot) := by
  unfold Scheduler.refusesFull
  infer_instance

/-- PUT publish. -/
def Scheduler.publish (dirSlot pendingToken : Nat) (lengthsFit : Bool) :
    Scheduler × List Event :=
  if lengthsFit = true ∧ dirSlot < maxKeys ∧ state.reservedSlot = some dirSlot ∧
      ¬ state.refusesFull maxKeys dirSlot then
    let published := { state with reservedSlot := none, forcePutHostCommit := false }
    if state.streamMatches dirSlot then
      ({ published with streamPrefixReady := false, streamTailPending := true }, [])
    else
      ({ published with queue := published.queue.put maxKeys ⟨dirSlot, pendingToken⟩ },
        [.queued ⟨dirSlot, pendingToken⟩])
  else (state.retry, [])

/-- Serve a request. -/
def Scheduler.serve (request : Request) (answer : Answer) : Scheduler × List Event :=
  let taken := { state with request := none }
  match request with
  | .prepare => (taken.prepare answer, [])
  | .publish dirSlot pendingToken lengthsFit =>
    taken.publish maxKeys dirSlot pendingToken lengthsFit
  | .other => (taken, [])

/-- Consume the PUT at the head of the queue, written through or stale. -/
def Scheduler.consume : Scheduler :=
  { state with queue := state.queue.take maxKeys, forcePutHostCommit := false, pass := .top }

/-- The steps of the loop, and the arrival of a request. -/
inductive Step : Scheduler → List Event → Scheduler → Prop where
  | arrive {state : Scheduler} (request : Request) (free : state.request = none) :
      Step state [] { state with request := some request }
  | tail {state : Scheduler} (top : state.pass = .top) (pending : state.streamTailPending = true) :
      Step state [] { state with streamTailPending := false, streamSlot := none }
  | serve {state : Scheduler} {request : Request} (moveIdle : Bool) (answer : Answer)
      (top : state.pass = .top) (durable : state.streamTailPending = false)
      (admitted : state.admits maxKeys moveIdle) (asked : state.request = some request) :
      Step state (.served (state.serve maxKeys request answer).1.forcePutHostCommit ::
        (state.serve maxKeys request answer).2) (state.serve maxKeys request answer).1
  | commit {state : Scheduler} (moveIdle : Bool) (top : state.pass = .top)
      (durable : state.streamTailPending = false) (passed : ¬ state.admits maxKeys moveIdle)
      (queued : state.queue.count ≠ 0) : Step state [] { state with pass := .committing }
  | consume {state : Scheduler} (committing : state.pass = .committing) :
      Step state [.consumed (state.queue.cell state.queue.head)] (state.consume maxKeys)
  | pushed {state : Scheduler} (pushing : state.pass = .pushingPrefix) :
      Step state [] { state with streamPrefixReady := true, pass := .top }

/-- The runs of the loop. -/
abbrev Runs (maxKeys : Nat) (cell : Nat → Directory.QueueItem) : List Event → Scheduler → Prop :=
  Run (Step maxKeys) (.cold cell)

/-! ## What a run shows -/

/-- The PUTs queued along a trace. -/
def queuedOf : List Event → List Directory.QueueItem :=
  List.filterMap fun event => match event with
    | .queued item => some item
    | _ => none

/-- The PUTs consumed along a trace. -/
def consumedOf : List Event → List Directory.QueueItem :=
  List.filterMap fun event => match event with
    | .consumed item => some item
    | _ => none

/-- Whether a consumption is owed after an event; no request is served while one is. -/
def owe (owed : Bool) : Event → Option Bool
  | .served forced => if owed then none else some forced
  | .queued _ => some owed
  | .consumed _ => some false

/-- After a request that left the flag set, a PUT is consumed before the next request. -/
def Forces (trace : List Event) : Prop :=
  ∀ front middle back forced,
    trace = front ++ .served true :: (middle ++ .served forced :: back) →
      ∃ item, .consumed item ∈ middle

/-- What is owed stays owed until a PUT is consumed. -/
theorem accept_owed {middle : List Event} (none : ∀ item, .consumed item ∉ middle) (forced : Bool)
    (back : List Event) : accept owe true (middle ++ .served forced :: back) = .none := by
  induction middle with
  | nil => rfl
  | cons event rest inductionHypothesis =>
    have later := inductionHypothesis fun item member => none item (List.mem_cons_of_mem _ member)
    cases event with
    | served _ => rfl
    | queued item => exact later
    | consumed item => exact absurd (List.mem_cons_self ..) (none item)

/-- A trace in which nothing owed is passed over. -/
theorem forces_of_accept {trace : List Event} {last : Bool}
    (accepted : accept owe false trace = some last) : Forces trace := by
  rintro front middle back forced rfl
  by_contra none
  rw [accept_append] at accepted
  obtain ⟨owed, -, later⟩ := Option.bind_eq_some_iff.mp accepted
  rw [accept] at later
  obtain ⟨flag, served, rest⟩ := Option.bind_eq_some_iff.mp later
  have isTrue : flag = true := by
    rw [owe] at served
    split at served
    · cases served
    · exact (Option.some.inj served).symm
  rw [isTrue, accept_owed (fun item member => none ⟨item, member⟩)] at rest
  cases rest

variable {maxKeys : Nat} {state after : Scheduler} {events : List Event}

theorem highWatermark_eq (maxKeys : Nat) :
    highWatermark maxKeys = min maxKeys Layout.putHostQueueHighWatermark := by
  unfold highWatermark
  split <;> omega

/-- The ring is delimited below the watermark, and the flag is set for a queue with a PUT in it. -/
structure Bounded (maxKeys : Nat) (state : Scheduler) : Prop where
  delimits : state.queue.Delimits maxKeys
  below : state.queue.count ≤ highWatermark maxKeys
  forced : state.forcePutHostCommit = true → state.queue.count ≠ 0
  committing : state.pass = .committing → state.queue.count ≠ 0

/-- A request is served below the watermark, and with nothing owed. -/
theorem Bounded.admitted (bounded : Bounded maxKeys state) (positive : 0 < maxKeys)
    {moveIdle : Bool} (admitted : state.admits maxKeys moveIdle) :
    state.queue.count < highWatermark maxKeys ∧ state.queue.count < maxKeys ∧
      state.forcePutHostCommit = false := by
  obtain ⟨-, -, free⟩ := admitted
  have least : 0 < highWatermark maxKeys ∧ highWatermark maxKeys ≤ maxKeys := by
    rw [highWatermark_eq, Layout.putHostQueueHighWatermark]
    omega
  by_cases empty : state.queue.count = 0
  · refine ⟨by omega, by omega, ?_⟩
    exact Bool.eq_false_iff.mpr fun set => bounded.forced set empty
  · have calm : ¬ (state.forcePutHostCommit = true ∨
        highWatermark maxKeys ≤ state.queue.count) := fun busy => free ⟨busy, empty⟩
    push Not at calm
    exact ⟨calm.2, by omega, Bool.eq_false_iff.mpr calm.1⟩

/-- What a service changes of the queue. -/
structure Served (maxKeys : Nat) (before after : Scheduler) (queued : List Directory.QueueItem) :
    Prop where
  delimits : after.queue.Delimits maxKeys
  count : after.queue.count = before.queue.count + queued.length
  few : queued.length ≤ 1
  items : after.queue.items maxKeys = before.queue.items maxKeys ++ queued
  forced : after.forcePutHostCommit = true → before.queue.count ≠ 0
  pass : after.pass ≠ .committing

/-- A service that queues nothing. -/
theorem Served.quiet (delimits : state.queue.Delimits maxKeys) (queue : after.queue = state.queue)
    (forced : after.forcePutHostCommit = true → state.queue.count ≠ 0)
    (pass : after.pass ≠ .committing) : Served maxKeys state after [] where
  delimits := queue ▸ delimits
  count := by rw [queue, List.length_nil, Nat.add_zero]
  few := Nat.zero_le _
  items := by rw [queue, List.append_nil]
  forced := forced
  pass := pass

/-- A retry leaves the flag for a queue with a PUT in it. -/
theorem retry_forced (calm : state.forcePutHostCommit = false) :
    state.retry.forcePutHostCommit = true → state.queue.count ≠ 0 := by
  simp [Scheduler.retry, calm]

/-- A prepare queues nothing. -/
theorem prepare_served (delimits : state.queue.Delimits maxKeys) (top : state.pass = .top)
    (calm : state.forcePutHostCommit = false) (answer : Answer) :
    Served maxKeys state (state.prepare answer) [] := by
  have retried : Served maxKeys state state.retry [] :=
    .quiet delimits rfl (retry_forced calm) (by simp [Scheduler.retry, top])
  unfold Scheduler.prepare
  dsimp only
  split
  · exact retried
  · split
    · split
      · exact .quiet delimits rfl nofun nofun
      · exact .quiet delimits rfl nofun (by simp [top])
    · exact .quiet delimits rfl retried.forced retried.pass

/-- A publication queues its PUT, hands it to the stream or is retried. -/
theorem publish_served (delimits : state.queue.Delimits maxKeys) (top : state.pass = .top)
    (calm : state.forcePutHostCommit = false) (room : state.queue.count < maxKeys)
    (dirSlot pendingToken : Nat) (lengthsFit : Bool) :
    let published := state.publish maxKeys dirSlot pendingToken lengthsFit
    Served maxKeys state published.1 (queuedOf published.2) ∧ consumedOf published.2 = [] ∧
      ∀ forced, Event.served forced ∉ published.2 := by
  intro published
  simp only [published]
  unfold Scheduler.publish
  dsimp only
  split
  · split
    · exact ⟨.quiet delimits rfl nofun (by simp [top]), rfl, by simp⟩
    · obtain ⟨still, items⟩ := delimits.put room ⟨dirSlot, pendingToken⟩
      exact ⟨⟨still, rfl, Nat.le_refl _, items, nofun, by simp [top]⟩, rfl, by simp⟩
  · exact ⟨.quiet delimits rfl (retry_forced calm) (by simp [Scheduler.retry, top]), rfl, by simp⟩

/-- Every service leaves the queue as it was, or with one more PUT. -/
theorem serve_served (bounded : Bounded maxKeys state) (positive : 0 < maxKeys)
    (top : state.pass = .top) {moveIdle : Bool} (admitted : state.admits maxKeys moveIdle)
    (request : Request) (answer : Answer) :
    let served := state.serve maxKeys request answer
    Served maxKeys state served.1 (queuedOf served.2) ∧ consumedOf served.2 = [] ∧
      ∀ forced, Event.served forced ∉ served.2 := by
  obtain ⟨-, room, calm⟩ := bounded.admitted positive admitted
  have delimits : ({ state with request := none } : Scheduler).queue.Delimits maxKeys :=
    bounded.delimits
  cases request with
  | prepare =>
    have served := prepare_served delimits top calm answer
    exact ⟨⟨served.delimits, served.count, served.few, served.items, served.forced, served.pass⟩,
      rfl, by simp [Scheduler.serve]⟩
  | publish dirSlot pendingToken lengthsFit =>
    obtain ⟨served, rest⟩ :=
      publish_served delimits top calm room dirSlot pendingToken lengthsFit
    exact ⟨⟨served.delimits, served.count, served.few, served.items, served.forced, served.pass⟩,
      rest⟩
  | other =>
    refine ⟨.quiet bounded.delimits rfl ?_ ?_, rfl, by simp [Scheduler.serve]⟩
    · exact bounded.forced
    · simp [Scheduler.serve, top]

/-- The queue with what a trace has shown of it: the PUTs queued and not consumed, in order, and
whether a consumption is owed. -/
structure Accounted (maxKeys : Nat) (trace : List Event) (state : Scheduler) : Prop
    extends Bounded maxKeys state where
  items : queuedOf trace = consumedOf trace ++ state.queue.items maxKeys
  owed : accept owe false trace = some state.forcePutHostCommit

/-- What is owed does not change while PUTs are queued. -/
theorem accept_queued {events : List Event} (unserved : ∀ forced, Event.served forced ∉ events)
    (unconsumed : consumedOf events = []) (owed : Bool) : accept owe owed events = some owed := by
  induction events with
  | nil => rfl
  | cons event rest inductionHypothesis =>
    have others : ∀ forced, Event.served forced ∉ rest :=
      fun forced member => unserved forced (List.mem_cons_of_mem _ member)
    cases event with
    | served forced => exact absurd (List.mem_cons_self ..) (unserved forced)
    | queued item => exact inductionHypothesis others unconsumed
    | consumed item => exact nomatch unconsumed

/-- A step that shows nothing and leaves the queue. -/
theorem Accounted.quiet {trace : List Event} (accounted : Accounted maxKeys trace state)
    (queue : after.queue = state.queue)
    (flag : after.forcePutHostCommit = state.forcePutHostCommit)
    (committing : after.pass = .committing → state.queue.count ≠ 0) :
    Accounted maxKeys (trace ++ []) after := by
  rw [List.append_nil]
  refine ⟨⟨?_, ?_, ?_, ?_⟩, ?_, ?_⟩
  · exact queue ▸ accounted.delimits
  · exact queue ▸ accounted.below
  · rw [queue, flag]
    exact accounted.forced
  · rw [queue]
    exact committing
  · rw [queue]
    exact accounted.items
  · rw [flag]
    exact accounted.owed

/-- Every step keeps the account. -/
theorem Accounted.step {trace : List Event} (positive : 0 < maxKeys)
    (accounted : Accounted maxKeys trace state) (step : Step maxKeys state events after) :
    Accounted maxKeys (trace ++ events) after := by
  cases step with
  | arrive request free => exact accounted.quiet rfl rfl accounted.committing
  | tail top pending => exact accounted.quiet rfl rfl accounted.committing
  | commit moveIdle top durable passed queued => exact accounted.quiet rfl rfl fun _ => queued
  | pushed pushing => exact accounted.quiet rfl rfl nofun
  | consume committing =>
    have some := accounted.committing committing
    obtain ⟨delimits, items⟩ := accounted.delimits.take some
    have below := accounted.below
    refine ⟨⟨delimits, ?_, nofun, nofun⟩, ?_, ?_⟩
    · change state.queue.count - 1 ≤ _
      omega
    · rw [queuedOf, consumedOf, List.filterMap_append, List.filterMap_append]
      have before := accounted.items
      rw [items] at before
      change queuedOf trace ++ [] = (consumedOf trace ++ [_]) ++ _
      rw [List.append_nil, before, List.append_assoc]
      rfl
    · rw [accept_append, accounted.owed]
      rfl
  | @serve request moveIdle answer top durable admitted asked =>
    obtain ⟨below, -, calm⟩ := accounted.toBounded.admitted positive admitted
    obtain ⟨served, unconsumed, unserved⟩ :=
      serve_served accounted.toBounded positive top admitted request answer
    refine ⟨⟨served.delimits, ?_, ?_, fun now => absurd now served.pass⟩, ?_, ?_⟩
    · have few := served.few
      rw [served.count]
      omega
    · intro set
      have before := served.forced set
      rw [served.count]
      omega
    · have shown := accounted.items
      have queued : queuedOf (.served (state.serve maxKeys request answer).1.forcePutHostCommit ::
          (state.serve maxKeys request answer).2) =
            queuedOf (state.serve maxKeys request answer).2 := rfl
      have consumed : consumedOf (.served
          (state.serve maxKeys request answer).1.forcePutHostCommit ::
          (state.serve maxKeys request answer).2) = [] := unconsumed
      rw [queuedOf] at queued ⊢
      rw [consumedOf] at consumed ⊢
      rw [List.filterMap_append, List.filterMap_append, queued, consumed, List.append_nil,
        served.items, ← List.append_assoc]
      exact congrArg (· ++ _) shown
    · rw [accept_append, accounted.owed, calm]
      exact accept_queued unserved unconsumed _

/-- The queue of PUTs keeps its bounds. In every run, whatever the requests and their answers,
at most as many PUTs are queued as the watermark says, the ring holds those queued and not
consumed in the order of their publication, and no publication is refused for a full ring. A
request that leaves the flag set is followed by a consumption before the next request; the flag
alone, with an empty queue, holds no request up. If the queue holds requests up, a PUT can be
committed, and once it is consumed requests are no longer held up.

Proof: a request is served below the watermark only and queues one PUT at most, and the flag is
set for a queue with a PUT in it only. -/
theorem queue_scheduled (positive : 0 < maxKeys) {cell : Nat → Directory.QueueItem}
    {trace : List Event} (run : Runs maxKeys cell trace state) :
    state.queue.count ≤ min maxKeys Layout.putHostQueueHighWatermark ∧
      (∀ moveIdle dirSlot, state.admits maxKeys moveIdle →
        ¬ state.refusesFull maxKeys dirSlot) ∧
      state.queue.Delimits maxKeys ∧
      queuedOf trace = consumedOf trace ++ state.queue.items maxKeys ∧
      Forces trace ∧
      (state.queue.count = 0 → ∀ moveIdle, state.admits maxKeys moveIdle ↔
        state.request ≠ none ∧ (state.streamPrefixReady = true ∨ moveIdle = true)) ∧
      (state.held maxKeys → state.pass = .top → state.streamTailPending = false →
        Step maxKeys state [] { state with pass := .committing }) ∧
      ¬ (state.consume maxKeys).held maxKeys := by
  have accounted : Accounted maxKeys trace state := by
    induction run with
    | start =>
      refine ⟨⟨.empty positive cell, Nat.zero_le _, nofun, nofun⟩, rfl, rfl⟩
    | next _ step inductionHypothesis => exact inductionHypothesis.step positive step
  have below := accounted.below
  refine ⟨highWatermark_eq maxKeys ▸ below, ?_, accounted.delimits, accounted.items,
    forces_of_accept accounted.owed, ?_, ?_, ?_⟩
  · rintro moveIdle dirSlot admitted ⟨-, full⟩
    obtain ⟨-, room, -⟩ := accounted.toBounded.admitted positive admitted
    exact absurd full (Nat.ne_of_lt room)
  · intro empty moveIdle
    constructor
    · exact fun admitted => ⟨admitted.1, admitted.2.1⟩
    · exact fun ⟨asked, idle⟩ => ⟨asked, idle, fun held => held.2 empty⟩
  · intro held top durable
    exact .commit false top durable (fun admitted => admitted.2.2 held) held.2
  · rintro ⟨set | reached, some⟩
    · exact nomatch set
    · change highWatermark maxKeys ≤ state.queue.count - 1 at reached
      change state.queue.count - 1 ≠ 0 at some
      omega

/-- One cell: a PUT is prepared and published, the next prepare waits until the PUT is
consumed, and the ring has gone round. -/
theorem queue_scheduled_one :
    ∃ trace state, Runs 1 (fun _ => ⟨0, 0⟩) trace state ∧
      trace = [.served false, .served false, .queued ⟨0, 7⟩, .consumed ⟨0, 7⟩] ∧
      state.queue.head = 0 ∧ state.queue.count = 0 ∧ Forces trace := by
  let answer : Answer := ⟨true, false, some 0, true, false⟩
  let cold := Scheduler.cold fun _ => ⟨0, 0⟩
  let asked : Scheduler := { cold with request := some .prepare }
  let granted := (asked.serve 1 .prepare answer).1
  let landed : Scheduler := { granted with request := some (.publish 0 7 true) }
  let queued := (landed.serve 1 (.publish 0 7 true) answer).1
  let waiting : Scheduler := { queued with request := some .prepare }
  let committing : Scheduler := { waiting with pass := .committing }
  have first : asked.admits 1 true := by decide
  have second : landed.admits 1 true := by decide
  have third : ¬ waiting.admits 1 true := by decide
  have prepares : Step 1 asked [.served false] granted := .serve true answer rfl rfl first rfl
  have publishes : Step 1 landed [.served false, .queued ⟨0, 7⟩] queued :=
    .serve true answer rfl rfl second rfl
  have commits : Step 1 waiting [] committing := .commit true rfl rfl third (by decide)
  have consumes : Step 1 committing [.consumed ⟨0, 7⟩] (committing.consume 1) := .consume rfl
  have run := ((((((Run.start.next (.arrive .prepare rfl)).next prepares).next
    (.arrive (.publish 0 7 true) rfl)).next publishes).next (.arrive .prepare rfl)).next
      commits).next consumes
  exact ⟨_, _, run, rfl, rfl, rfl, (queue_scheduled (by decide) run).2.2.2.2.1⟩

end KvCache.Server.PutHostQueue
