import KvCache.Server.Counters
import KvCache.Server.Puts

/-!
# The conversation of NCRISC and BRISC

NCRISC asks one request at a time, so the mailboxes and the phases of the two
processors determine each other. A streamed PUT outlives the request that started it:
BRISC remembers it until its tail is committed, and until then the FIFO is empty.
-/

namespace KvCache.Server

open Function Directory Layout

/-- Waits in the middle of a request. -/
def midRequest : Wait → Bool
  | .removeDrain _ | .promoteAccepted | .serveCommit _ => true
  | _ => false

/-- Whether BRISC is in the middle of a request. -/
def serving : Phase → Bool
  | .posting wait | .waiting wait => midRequest wait
  | .hostStream _ _ _ => true
  | _ => false

/-- The states of the conversation: the phase of NCRISC, the mailboxes, and whether
BRISC is in the middle of the request. -/
inductive Talk (client : Nat → Client) :
    NcriscPhase → Option DirRequest → Option DirResponse → Bool → Prop
  | idle : Talk client .idle none none false
  | waitingPrefix {c target : Nat} (waits : (client c).waits) :
      Talk client (.waitingPrefix c target) none none false
  | asked {c : Nat} {request : DirRequest} (waits : (client c).waits)
      (isPlain : plain request = true) : Talk client (.awaiting c) (some request) none false
  | served {c : Nat} (waits : (client c).waits) : Talk client (.awaiting c) none none true
  | answered {c : Nat} {response : DirResponse} (waits : (client c).waits) :
      Talk client (.awaiting c) none (some response) false
  | preparing {c : Nat} {prior : Option Lease} {put : PutFlight} (sends : (client c).flight = some put) :
      Talk client (.preparing c prior) (some (prepareRequest put prior)) none false
  | prepared {c : Nat} {prior : Option Lease} {put : PutFlight} {response : PutPrepareResponse}
      (sends : (client c).flight = some put) :
      Talk client (.preparing c prior) none (some (.prepared response)) false
  | receiving {c : Nat} {grant : PutGrant} {put : PutFlight} (sends : (client c).flight = some put) :
      Talk client (.receiving c grant) none none false
  | publishing {c : Nat} {grant : PutGrant} {put : PutFlight} (sends : (client c).flight = some put)
      (landed : put.landed = true) :
      Talk client (.publishing c grant) (some (publishRequest put grant)) none false
  | published {c : Nat} {grant : PutGrant} {put : PutFlight} {granted : Bool}
      (sends : (client c).flight = some put) (landed : put.landed = true) :
      Talk client (.publishing c grant) none (some (.published granted)) false

/-- Phases in which BRISC pushes the prefix of a streamed PUT. -/
def inPrefix : Phase → Bool
  | .posting .prefixAck | .waiting .prefixAck | .pushPrefix _ => true
  | _ => false

/-- The phase in which BRISC waits for the host copy of a streamed PUT. -/
def inDrain : Phase → Bool
  | .posting .tailDrain | .waiting .tailDrain => true
  | _ => false

/-- The stream is that of the PUT in progress. -/
structure Follows (stream : PutStream) (putting : Option (Nat × PutGrant))
    (len : Nat → Option Nat) (queue : List QueueItem) : Prop where
  put : ∃ c grant, putting = some (c, grant) ∧ stream.slot = grant.dirSlot ∧
    stream.valueByteOff = grant.valueByteOff ∧ len c = some stream.totalLen
  queue : queue = []

/-- The stages of a streamed PUT. -/
inductive Stage (stream : PutStream) (putting : Option (Nat × PutGrant))
    (len : Nat → Option Nat) (queue : List QueueItem) (phase : Phase) : Prop
  | idle (noPrefix : inPrefix phase = false) (noDrain : inDrain phase = false)
      (notReady : stream.prefixReady = false) (noTail : stream.tailPending = false)
  | sending (pushes : inPrefix phase = true) (notReady : stream.prefixReady = false)
      (noTail : stream.tailPending = false) (follows : Follows stream putting len queue)
  | ready (free : phase = .top ∨ phase = .promoteCheck) (isReady : stream.prefixReady = true)
      (noTail : stream.tailPending = false) (follows : Follows stream putting len queue)
  | tail (atTop : phase = .top) (notReady : stream.prefixReady = false)
      (isTail : stream.tailPending = true) (queue : queue = [])
  | drain (drains : inDrain phase = true) (notReady : stream.prefixReady = false)
      (isTail : stream.tailPending = true) (queue : queue = [])

/-- The length of the value that a client sends. -/
def lengthOf (sys : Sys) (client : Nat) : Option Nat :=
  (flightOf client sys).map fun flight => flight.value.length

/-- The conversation with its PUTs. -/
structure Conversation (cfg : Config) (sys : Sys) : Prop where
  talk : Talk sys.client sys.ncrisc.phase sys.words.request sys.words.response
    (serving sys.brisc.phase)
  stage : Stage sys.brisc.stream (accountOf sys).putting (lengthOf sys) sys.dir.putHostQueue
    sys.brisc.phase
  puts : Puts cfg (accountOf sys) sys.client sys.dir.reservedSlot

/-- The client that NCRISC serves. -/
def servedClient : NcriscPhase → Option Nat
  | .idle => none
  | .waitingPrefix c _ | .awaiting c | .preparing c _ | .receiving c _ | .publishing c _ => some c

namespace Talk

variable {client later : Nat → Client} {phase : NcriscPhase} {request : Option DirRequest}
variable {response : Option DirResponse} {busy : Bool} {c : Nat}

/-- The words of the conversation may be given up to equality. -/
theorem of_eq {next : NcriscPhase} {asked : Option DirRequest} {answered : Option DirResponse}
    {mid : Bool} (talk : Talk client next asked answered mid) (samePhase : phase = next)
    (sameRequest : request = asked) (sameResponse : response = answered) (sameBusy : busy = mid) :
    Talk client phase request response busy := by
  subst samePhase sameRequest sameResponse sameBusy
  exact talk

theorem of_free (talk : Talk client phase request response busy)
    (free : phase = .idle ∨ ∃ target, phase = .waitingPrefix c target) :
    request = none ∧ response = none ∧ busy = false := by
  rcases free with rfl | ⟨target, rfl⟩ <;> cases talk <;> exact ⟨rfl, rfl, rfl⟩

theorem of_waiting {target : Nat}
    (talk : Talk client (.waitingPrefix c target) request response busy) : (client c).waits := by
  cases talk
  assumption

theorem of_awaiting (talk : Talk client (.awaiting c) request response busy) :
    (client c).waits := by
  cases talk <;> assumption

/-- In the middle of a request NCRISC waits with empty mailboxes. -/
theorem of_served (talk : Talk client phase request response true) :
    ∃ c, phase = .awaiting c ∧ (client c).waits ∧ request = none ∧ response = none := by
  cases talk
  exact ⟨_, rfl, by assumption, rfl, rfl⟩

theorem of_response {answer : DirResponse}
    (talk : Talk client phase request response busy) (answered : response = some answer) :
    request = none ∧ busy = false := by
  subst answered
  cases talk <;> exact ⟨rfl, rfl⟩

theorem of_receiving {grant : PutGrant}
    (talk : Talk client (.receiving c grant) request response busy) :
    response = none ∧ busy = false := by
  cases talk
  exact ⟨rfl, rfl⟩

theorem of_published {grant : PutGrant} {answer : DirResponse} {put : PutFlight}
    (talk : Talk client (.publishing c grant) request (some answer) busy)
    (sends : (client c).flight = some put) : put.landed = true := by
  cases talk with
  | published isPut landed =>
    rwa [Option.some.inj (sends.symm.trans isPut)]

/-- A pending request comes from the phase of its kind. -/
theorem of_request {asked : DirRequest} (talk : Talk client phase (some asked) response busy) :
    response = none ∧ busy = false ∧
      ((∃ c, phase = .awaiting c ∧ (client c).waits ∧ plain asked = true) ∨
        (∃ c prior put, phase = .preparing c prior ∧ (client c).flight = some put ∧
          asked = prepareRequest put prior) ∨
        ∃ c grant put, phase = .publishing c grant ∧ (client c).flight = some put ∧
          put.landed = true ∧ asked = publishRequest put grant) := by
  cases talk with
  | asked waits isPlain => exact ⟨rfl, rfl, Or.inl ⟨_, rfl, waits, isPlain⟩⟩
  | preparing sends => exact ⟨rfl, rfl, Or.inr (Or.inl ⟨_, _, _, rfl, sends, rfl⟩)⟩
  | publishing sends landed =>
    exact ⟨rfl, rfl, Or.inr (Or.inr ⟨_, _, _, rfl, sends, landed, rfl⟩)⟩

/-- How far a PUT is does not show in its requests. -/
def Later (put next : PutFlight) : Prop :=
  next.key = put.key ∧ next.value = put.value ∧ next.seq = put.seq ∧
    next.usesLease = put.usesLease ∧ (put.landed = true → next.landed = true)

/-- The conversation depends on the operation of the served client only. -/
theorem keep (talk : Talk client phase request response busy)
    (waiting : ∀ c, servedClient phase = some c → (client c).waits → (later c).waits)
    (sending : ∀ c put, servedClient phase = some c → (client c).flight = some put →
      ∃ next, (later c).flight = some next ∧ Later put next) :
    Talk later phase request response busy := by
  cases talk with
  | idle => exact .idle
  | waitingPrefix waits => exact .waitingPrefix (waiting _ rfl waits)
  | asked waits isPlain => exact .asked (waiting _ rfl waits) isPlain
  | served waits => exact .served (waiting _ rfl waits)
  | answered waits => exact .answered (waiting _ rfl waits)
  | preparing sends =>
    obtain ⟨next, isNext, key, value, _, uses, _⟩ := sending _ _ rfl sends
    rw [prepareRequest, ← key, ← value, ← uses]
    exact .preparing isNext
  | prepared sends =>
    obtain ⟨next, isNext, _⟩ := sending _ _ rfl sends
    exact .prepared isNext
  | receiving sends =>
    obtain ⟨next, isNext, _⟩ := sending _ _ rfl sends
    exact .receiving isNext
  | publishing sends landed =>
    obtain ⟨next, isNext, key, value, seq, _, lands⟩ := sending _ _ rfl sends
    rw [publishRequest, ← key, ← value, ← seq]
    exact .publishing isNext (lands landed)
  | published sends landed =>
    obtain ⟨next, isNext, _, _, _, _, lands⟩ := sending _ _ rfl sends
    exact .published isNext (lands landed)

end Talk

namespace Conversation

variable {cfg : Config} {sys after : Sys} {events : List Event}

theorem cold (cfg : Config) : Conversation cfg (coldSys cfg) := by
  refine ⟨.idle, .idle rfl rfl rfl rfl, ⟨rfl, fun _ _ => rfl, ?_, ?_, ?_, ?_, ?_, ?_⟩⟩ <;>
    intros <;> contradiction

/-- A step of NCRISC or of a client continues the conversation. -/
theorem talks (inv : Conversation cfg sys) (turn : SessionTurn cfg sys after events) :
    Talk after.client after.ncrisc.phase after.words.request after.words.response
      (serving after.brisc.phase) := by
  have talk := inv.talk
  have advance : ∀ {c : Nat} {flight next : PutFlight}, flightOf c sys = some flight →
      Talk.Later flight next →
      Talk (Function.update sys.client c { sys.client c with operation := some (.put next) })
        sys.ncrisc.phase sys.words.request sys.words.response (serving sys.brisc.phase) := by
    intro c flight next sends later
    refine talk.keep (fun d _ waits => ?_) fun d put _ isPut => ?_ <;> by_cases same : d = c
    · subst same
      exact nomatch waits.2.symm.trans sends
    · rwa [Function.update_of_ne same]
    · subst same
      rw [Option.some.inj (isPut.symm.trans sends), Function.update_self]
      exact ⟨next, rfl, later⟩
    · rw [Function.update_of_ne same]
      exact ⟨put, isPut, rfl, rfl, rfl, rfl, id⟩
  have begins : ∀ {c : Nat} {session : Client}, (sys.client c).operation = none →
      Talk (Function.update sys.client c session)
        sys.ncrisc.phase sys.words.request sys.words.response (serving sys.brisc.phase) := by
    intro c session free
    refine talk.keep (fun d _ waits => ?_) fun d put _ isPut => ?_ <;> by_cases same : d = c
    · subst same
      exact absurd free waits.1
    · rwa [Function.update_of_ne same]
    · subst same
      rw [Client.flight_eq, free] at isPut
      exact nomatch isPut
    · rw [Function.update_of_ne same]
      exact ⟨put, isPut, rfl, rfl, rfl, rfl, id⟩
  have rests : ∀ {session : Nat → Client}, (sys.ncrisc.phase = .idle ∨
      ∃ c target, sys.ncrisc.phase = .waitingPrefix c target) →
      Talk session .idle sys.words.request sys.words.response (serving sys.brisc.phase) := by
    intro session free
    obtain ⟨c, free⟩ : ∃ c, sys.ncrisc.phase = .idle ∨
        ∃ target, sys.ncrisc.phase = .waitingPrefix c target := by
      rcases free with idle | ⟨c, target, waits⟩
      · exact ⟨0, Or.inl idle⟩
      · exact ⟨c, Or.inr ⟨target, waits⟩⟩
    obtain ⟨asked, answered, quiet⟩ := talk.of_free free
    exact Talk.idle.of_eq rfl asked answered quiet
  cases turn with
  | prepare idle sends =>
    have quiet := (talk.of_free (c := 0) (Or.inl idle)).2.2
    exact (Talk.preparing sends).of_eq rfl rfl rfl quiet
  | ask free isPlain waits =>
    have quiet := (talk.of_free free).2.2
    exact (Talk.asked waits isPlain).of_eq rfl rfl rfl quiet
  | waitPrefix idle waits =>
    obtain ⟨asked, answered, quiet⟩ := talk.of_free (c := 0) (Or.inl idle)
    exact (Talk.waitingPrefix waits).of_eq rfl asked answered quiet
  | finish free noPut =>
    refine rests ?_
    rcases free with idle | waits
    · exact Or.inl idle
    · exact Or.inr ⟨_, waits⟩
  | refuseGet idle => exact rests (Or.inl idle)
  | refuseExists waited => exact rests (Or.inr ⟨_, _, waited⟩)
  | detach idle =>
    obtain ⟨asked, answered, quiet⟩ := talk.of_free (c := 0) (Or.inl idle)
    exact Talk.idle.of_eq idle asked answered quiet
  | takeResponse awaits answered =>
    obtain ⟨asked, quiet⟩ := talk.of_response answered
    exact Talk.idle.of_eq rfl asked rfl quiet
  | retryPrepare prepares sends answered refused =>
    obtain ⟨-, quiet⟩ := talk.of_response answered
    exact (Talk.preparing sends).of_eq rfl rfl rfl quiet
  | takeGrant prepares sends answered granted =>
    obtain ⟨asked, quiet⟩ := talk.of_response answered
    exact (Talk.receiving (setOperation_flight _ _ _)).of_eq rfl asked rfl quiet
  | publish receives sends landed =>
    have quiet : serving sys.brisc.phase = false := by
      rw [receives] at talk
      exact talk.of_receiving.2
    exact (Talk.publishing sends landed).of_eq rfl rfl rfl quiet
  | retryPublish publishes sends answered =>
    obtain ⟨-, quiet⟩ := talk.of_response answered
    rw [publishes, answered] at talk
    exact (Talk.publishing sends (talk.of_published sends)).of_eq publishes rfl rfl quiet
  | finishPut publishes sends answered =>
    obtain ⟨asked, quiet⟩ := talk.of_response answered
    exact Talk.idle.of_eq rfl asked rfl quiet
  | establish detached => exact begins (inv.puts.detached _ detached)
  | startPut established free => exact begins free
  | startOperation established free => exact begins free
  | streamChunk sends isDest more => exact advance sends ⟨rfl, rfl, rfl, rfl, id⟩
  | landPut sends all isDest => exact advance sends ⟨rfl, rfl, rfl, rfl, fun _ => rfl⟩

/-- No step of NCRISC or of a client starts or ends the PUT in progress: it starts with
a grant of BRISC and ends with a publication. -/
theorem putting_session (turn : SessionTurn cfg sys after events) :
    (accountOf after).putting = (accountOf sys).putting := by
  rcases account_session turn with same | ⟨c, grant, publishes, answered, rfl⟩
  · rw [same]
  · simp [accountOf, account, putFinished, setClient, publishes, answered]

/-- The length of a value in flight stays until its PUT completes. -/
theorem lengthOf_session (inv : Conversation cfg sys) (turn : SessionTurn cfg sys after events)
    {c len : Nat} (sends : lengthOf sys c = some len) :
    lengthOf after c = some len ∨
      ∃ grant, sys.ncrisc.phase = .publishing c grant ∧
        sys.words.response = some (.published true) := by
  obtain ⟨put, isPut, isLen⟩ := Option.map_eq_some_iff.mp sends
  have changed : ∀ {d : Nat} {session : Client},
      (d = c → session.flight.map (fun flight => flight.value.length) = some len) →
      ((update sys.client d session c).flight.map fun flight => flight.value.length) = some len := by
    intro d session agrees
    by_cases same : d = c
    · subst same
      rw [update_self]
      exact agrees rfl
    · rw [update_of_ne (Ne.symm same)]
      exact sends
  have other : ∀ {d : Nat} {session : Client}, (sys.client d).flight = none →
      ((update sys.client d session c).flight.map fun flight => flight.value.length) =
        some len := by
    intro d session noPut
    refine changed fun same => ?_
    rw [same] at noPut
    cases noPut.symm.trans isPut
  have fresh : ∀ {d : Nat} {session : Client}, (sys.client d).operation = none →
      ((update sys.client d session c).flight.map fun flight => flight.value.length) =
        some len := fun free => other (by rw [Client.flight, free])
  have advanced : ∀ {d : Nat} {flight next : PutFlight}, flightOf d sys = some flight →
      next.value = flight.value →
      ((update sys.client d { sys.client d with operation := some (.put next) } c).flight.map
        fun flight => flight.value.length) = some len := by
    intro d flight next isFlight sameValue
    refine changed fun same => ?_
    subst same
    rw [← isLen, ← Option.some.inj (isFlight.symm.trans isPut), ← sameValue]
    rfl
  have talk := inv.talk
  cases turn with
  | prepare | ask | waitPrefix | retryPrepare | publish | retryPublish => exact Or.inl sends
  | finish free noPut => exact Or.inl (other noPut)
  | refuseGet idle asked =>
    exact Or.inl (other (flightOf_none asked fun _ impossible => by cases impossible))
  | refuseExists waited asked =>
    exact Or.inl (other (flightOf_none asked fun _ impossible => by cases impossible))
  | detach idle asked =>
    exact Or.inl (other (flightOf_none asked fun _ impossible => by cases impossible))
  | takeResponse awaits =>
    rw [awaits] at talk
    exact Or.inl (other talk.of_awaiting.2)
  | takeGrant prepares isFlight => exact Or.inl (advanced isFlight rfl)
  | @finishPut d grant flight publishes isFlight answered =>
    by_cases same : d = c
    · subst same
      exact Or.inr ⟨grant, publishes, answered⟩
    · exact Or.inl (changed fun impossible => absurd impossible same)
  | establish detached => exact Or.inl (fresh (inv.puts.detached _ detached))
  | startPut established free => exact Or.inl (fresh free)
  | startOperation established free => exact Or.inl (fresh free)
  | streamChunk isFlight => exact Or.inl (advanced isFlight rfl)
  | landPut isFlight => exact Or.inl (advanced isFlight rfl)

/-- A step of NCRISC or of a client keeps the stream with its PUT. -/
theorem stages (inv : Conversation cfg sys) (turn : SessionTurn cfg sys after events) :
    Stage after.brisc.stream (accountOf after).putting (lengthOf after) after.dir.putHostQueue
      after.brisc.phase := by
  have following : Follows sys.brisc.stream (accountOf sys).putting (lengthOf sys)
      sys.dir.putHostQueue →
      Follows sys.brisc.stream (accountOf after).putting (lengthOf after) sys.dir.putHostQueue := by
    rintro ⟨⟨c, grant, puts, slot, offset, len⟩, queue⟩
    refine ⟨⟨c, grant, ?_, slot, offset, ?_⟩, queue⟩
    · rw [putting_session turn]
      exact puts
    · rcases inv.lengthOf_session turn len with same | ⟨other, publishes, answered⟩
      · exact same
      · simp [accountOf, account, publishes, answered] at puts
  have staged : Stage sys.brisc.stream (accountOf after).putting (lengthOf after)
      sys.dir.putHostQueue sys.brisc.phase := by
    cases inv.stage with
    | idle noPrefix noDrain notReady noTail => exact .idle noPrefix noDrain notReady noTail
    | sending pushes notReady noTail follows =>
      exact .sending pushes notReady noTail (following follows)
    | ready free isReady noTail follows => exact .ready free isReady noTail (following follows)
    | tail atTop notReady isTail queue => exact .tail atTop notReady isTail queue
    | drain drains notReady isTail queue => exact .drain drains notReady isTail queue
  cases turn <;> exact staged

/-- A step of NCRISC or of a client continues the conversation and its PUTs. -/
theorem session (inv : Conversation cfg sys) (turn : SessionTurn cfg sys after events) :
    Conversation cfg after := by
  refine ⟨inv.talks turn, inv.stages turn, inv.puts.session turn fun c awaits => ?_⟩
  have talk := inv.talk
  rw [awaits] at talk
  exact talk.of_awaiting.2

/-- A worker step is not heard. -/
theorem worker (inv : Conversation cfg sys) (turn : WorkerTurn cfg sys after) :
    Conversation cfg after := by
  cases turn <;> exact { inv with }

end Conversation

end KvCache.Server
