import KvCache.Server.Scheduler

/-!
# Sessions

A client has at most one operation at a time. It sends the control packet of a PUT
into its ring partition and, if it holds a lease of the right order, streams the
value at once; otherwise it waits for a grant. NCRISC scans the partitions and
serves one request at a time. The order in which it finds them is left open here,
and so is the order in which the clients' writes arrive.

A client completes its PUT by its own landed counter, which NCRISC awaits before it
publishes. The progress counter of streamed values is one word for all clients.
-/

namespace KvCache.Server

open Directory HashIndex Layout

variable (cfg : Config)

/-- Replace the state of a client. -/
def setClient (client : Nat) (session : Client) (sys : Sys) : Sys :=
  { sys with client := Function.update sys.client client session }

/-- Replace the operation of a client. -/
def setOperation (client : Nat) (operation : Option Operation) (sys : Sys) : Sys :=
  setClient client { sys.client client with operation := operation } sys

/-- Change what NCRISC does. -/
def serveAs (phase : NcriscPhase) (sys : Sys) : Sys :=
  { sys with ncrisc := { sys.ncrisc with phase := phase } }

/-- Write the request mailbox. -/
def ask (request : DirRequest) (sys : Sys) : Sys :=
  { sys with words := { sys.words with request := some request, response := none } }

/-- Take the response out of its mailbox. -/
def takeResponse (sys : Sys) : Sys :=
  { sys with words := { sys.words with response := none } }

/-! ## Clients -/

/-- The PUT that a client sends. -/
def Client.flight (client : Client) : Option PutFlight :=
  match client.operation with
  | some (.put flight) => some flight
  | _ => none

/-- The client has an operation that is no PUT. -/
def Client.waits (client : Client) : Prop := client.operation ≠ none ∧ client.flight = none

/-- The PUT of a client. -/
def flightOf (client : Nat) (sys : Sys) : Option PutFlight := (sys.client client).flight

/-- A client without a session establishes one. It knows of no lease. -/
def establish (client : Nat) (sys : Sys) : Option Outcome :=
  if (sys.client client).established then none
  else some (setClient client ⟨true, none, none⟩ sys, [])

/-- Whether a lease fits a value. -/
def leaseFits (valueLen : Nat) (lease : Lease) : Bool :=
  lease.buddyOrder == buddyOrderForValueBytes valueLen

/-- The PUT that a client starts: a lease hit knows its destination. -/
def newFlight (lease : Option Lease) (key : Key) (value : Bytes) (seq : Nat) : PutFlight where
  key := key
  value := value
  seq := seq
  usesLease := lease.any (leaseFits value.length)
  dest := (lease.filter (leaseFits value.length)).map Lease.valueByteOff
  sent := 0
  landed := false

/-- A client starts a PUT. -/
def startPut (client : Nat) (key : Key) (value : Bytes) (seq : Nat) (sys : Sys) :
    Option Outcome :=
  let session := sys.client client
  if session.established ∧ session.operation = none ∧
      0 < key.length ∧ key.length ≤ cfg.geometry.maxKeyLen ∧
      0 < value.length ∧ value.length ≤ cfg.geometry.maxValueBytes then
    some (setOperation client (some (.put (newFlight session.lease key value seq))) sys, [])
  else none

/-- A client starts any other operation. -/
def startOperation (client : Nat) (operation : Operation) (sys : Sys) : Option Outcome :=
  match operation with
  | .put _ => none
  | _ =>
    if (sys.client client).established ∧ (sys.client client).operation = none then
      some (setOperation client (some operation) sys, [])
    else none

/-- Whether a chunk completes a group that is not the last. -/
def raisesProgress (flight : PutFlight) : Bool :=
  decide (putStreamMinBytes ≤ flight.value.length) &&
    decide ((flight.sent + 1) % putStreamProgressChunks = 0) &&
    decide (flight.sent + 1 < chunkCountFor flight.value.length)

/-- A client writes its next chunk. -/
def streamChunk (client : Nat) (sys : Sys) : Option Outcome :=
  match (sys.client client).operation with
  | some (.put flight) =>
    match flight.dest with
    | some valueByteOff =>
      if flight.sent < chunkCountFor flight.value.length then
        some (setOperation client (some (.put { flight with sent := flight.sent + 1 }))
          { sys with
            valueHeap := writeHeap (valueByteOff / maxChunkValueBytes + flight.sent) 1
              (fun _ => Chunked.chunkAt maxChunkValueBytes flight.value flight.sent) sys.valueHeap
            words := { sys.words with
              putProgress :=
                if raisesProgress flight then sys.words.putProgress + 1
                else sys.words.putProgress } }, [])
      else none
    | none => none
  | _ => none

/-- A client that sent every chunk raises its landed counter. -/
def landPut (client : Nat) (sys : Sys) : Option Outcome :=
  match (sys.client client).operation with
  | some (.put flight) =>
    if flight.landed = false ∧ flight.dest.isSome ∧
        flight.sent = chunkCountFor flight.value.length then
      some (setOperation client (some (.put { flight with landed := true })) sys, [])
    else none
  | _ => none

/-! ## NCRISC -/

/-- Complete the operation of a client. -/
def complete (client : Nat) (sys : Sys) : Outcome :=
  (setOperation client none (serveAs .idle sys), [.completed client])

/-- Complete an operation that NCRISC answered itself. -/
def answer (client : Nat) (event : Event) (sys : Sys) : Outcome :=
  let (after, events) := complete client sys
  (after, event :: events)

/-- Whether the mailbox can carry a key. -/
def carriesKey (key : Key) : Bool := decide (1 ≤ key.length) && decide (key.length ≤ maxPutKeyBytes)

/-- The prepare request of a PUT with the lease words of its client. -/
def prepareRequest (flight : PutFlight) (lease : Option Lease) : DirRequest :=
  .putPrepare ⟨flight.usesLease, flight.key, flight.value.length, lease⟩

/-- The publish request of a landed PUT. -/
def publishRequest (flight : PutFlight) (grant : PutGrant) : DirRequest :=
  .putPublish
    ⟨grant.dirSlot, grant.valueByteOff, grant.blockOrder, flight.seq, flight.value.length,
      flight.key⟩

/-- Ask BRISC on behalf of a client, if the mailbox can carry the key. -/
def askFor (client : Nat) (key : Key) (request : DirRequest) (refused : Outcome) (sys : Sys) :
    Outcome :=
  if carriesKey key then (serveAs (.awaiting client) (ask request sys), []) else refused

/-- NCRISC finds a request. EXISTS and a commit barrier first wait for the PUTs
published so far. -/
def serveClient (client : Nat) (sys : Sys) : Option Outcome :=
  if sys.ncrisc.phase = .idle then
    match (sys.client client).operation with
    | none => none
    | some (.put flight) =>
      let lease := sys.ncrisc.putLease client
      some (serveAs (.preparing client lease) (ask (prepareRequest flight lease) sys), [])
    | some (.get key outputCapacity) =>
      some (askFor client key (.getChunk key outputCapacity)
        (answer client (.getServed key outputCapacity .miss 0 []) sys) sys)
    | some (.remove key) => some (askFor client key (.remove key) (complete client sys) sys)
    | some (.moveToHost key) => some (askFor client key (.moveToHost key) (complete client sys) sys)
    | some (.moveToDevice key) =>
      some (askFor client key (.moveToDevice key) (complete client sys) sys)
    | some (.exists_ _) | some .commitBarrier =>
      some (serveAs (.waitingPrefix client sys.ncrisc.putIssuedTotal) sys, [])
    | some .detach =>
      some (setClient client ⟨false, none, none⟩ sys, [.completed client])
  else none

/-- The commit frontier reached the target of an EXISTS or a commit barrier. -/
def finishPrefix (client : Nat) (sys : Sys) : Outcome :=
  match (sys.client client).operation with
  | some (.exists_ key) =>
    askFor client key (.exists_ key) (answer client (.existsServed key false) sys) sys
  | _ => complete client sys

/-- NCRISC takes the response to a prepare: it retries with the lease words of the
response, or remembers the next lease and tells the client where to write. -/
def finishPrepare (client : Nat) (flight : PutFlight) (response : PutPrepareResponse) (sys : Sys) :
    Outcome :=
  match response.grant with
  | none =>
    (serveAs (.preparing client response.lease)
      (ask (prepareRequest flight response.lease) sys), [])
  | some grant =>
    (setOperation client
        (some (.put { flight with
          dest := if flight.usesLease then flight.dest else some grant.valueByteOff }))
        { takeResponse sys with
          ncrisc := { sys.ncrisc with
            phase := .receiving client grant
            putLease := Function.update sys.ncrisc.putLease client response.lease } }, [])

/-- NCRISC takes the response to a publish: it retries, or counts the PUT, completes
it and sends the client its next lease. -/
def finishPublish (client : Nat) (flight : PutFlight) (grant : PutGrant) (granted : Bool)
    (sys : Sys) : Outcome :=
  if granted then
    (setClient client
        { sys.client client with lease := sys.ncrisc.putLease client, operation := none }
        { takeResponse sys with
          ncrisc := { sys.ncrisc with
            phase := .idle
            putIssuedTotal := sys.ncrisc.putIssuedTotal + 1 } }, [.completed client])
  else (ask (publishRequest flight grant) sys, [])

/-- One step of NCRISC in the service of a client. -/
def ncriscStep (sys : Sys) : Option Outcome :=
  match sys.ncrisc.phase with
  | .idle => none
  | .waitingPrefix client target =>
    if target ≤ sys.words.commitDone then some (finishPrefix client sys) else none
  | .awaiting client =>
    if sys.words.response.isSome then some (complete client (takeResponse sys)) else none
  | .preparing client _ =>
    match flightOf client sys, sys.words.response with
    | some flight, some (.prepared response) => some (finishPrepare client flight response sys)
    | _, _ => none
  | .receiving client grant =>
    match flightOf client sys with
    | some flight =>
      if flight.landed then
        some (serveAs (.publishing client grant) (ask (publishRequest flight grant) sys), [])
      else none
    | none => none
  | .publishing client grant =>
    match flightOf client sys, sys.words.response with
    | some flight, some (.published granted) =>
      some (finishPublish client flight grant granted sys)
    | _, _ => none

end KvCache.Server
