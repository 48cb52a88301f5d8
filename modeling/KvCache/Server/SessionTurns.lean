import KvCache.Server.System

/-!
# What NCRISC and the clients can do in one step

Every case of a step of NCRISC or of a client is a constructor, with the state after
the step and the events as its indices. The progress counter of streamed values is
left open: no invariant reads it.
-/

namespace KvCache.Server

open Directory HashIndex Layout

variable {cfg : Config} {sys after : Sys} {events : List Event}

/-- A request that is no part of a PUT. -/
def plain : DirRequest → Bool
  | .putPrepare _ | .putPublish _ => false
  | _ => true

/-- The cases of a step of NCRISC or of a client. -/
inductive SessionTurn (cfg : Config) (sys : Sys) : Sys → List Event → Prop
  | prepare {client : Nat} {flight : PutFlight} (idle : sys.ncrisc.phase = .idle)
      (sends : flightOf client sys = some flight) :
      SessionTurn cfg sys
        (serveAs (.preparing client (sys.ncrisc.putLease client))
          (ask (prepareRequest flight (sys.ncrisc.putLease client)) sys)) []
  | ask {client : Nat} {request : DirRequest}
      (free : sys.ncrisc.phase = .idle ∨ ∃ target, sys.ncrisc.phase = .waitingPrefix client target)
      (isPlain : plain request = true) (waits : (sys.client client).waits) :
      SessionTurn cfg sys (serveAs (.awaiting client) (ask request sys)) []
  | waitPrefix {client : Nat} (idle : sys.ncrisc.phase = .idle)
      (waits : (sys.client client).waits) :
      SessionTurn cfg sys (serveAs (.waitingPrefix client sys.ncrisc.putIssuedTotal) sys) []
  | finish {client : Nat}
      (free : sys.ncrisc.phase = .idle ∨ ∃ target, sys.ncrisc.phase = .waitingPrefix client target)
      (noPut : flightOf client sys = none) :
      SessionTurn cfg sys (complete client sys).1 [.completed client]
  | refuseGet {client outputCapacity : Nat} {key : Key} (idle : sys.ncrisc.phase = .idle)
      (asked : (sys.client client).operation = some (.get key outputCapacity))
      (malformed : carriesKey key = false) :
      SessionTurn cfg sys (complete client sys).1
        [.getServed key outputCapacity .miss 0 [], .completed client]
  | refuseExists {client target : Nat} {key : Key}
      (waited : sys.ncrisc.phase = .waitingPrefix client target)
      (asked : (sys.client client).operation = some (.exists_ key))
      (malformed : carriesKey key = false) :
      SessionTurn cfg sys (complete client sys).1 [.existsServed key false, .completed client]
  | detach {client : Nat} (idle : sys.ncrisc.phase = .idle)
      (asked : (sys.client client).operation = some .detach) :
      SessionTurn cfg sys (setClient client ⟨false, none, none⟩ sys) [.completed client]
  | takeResponse {client : Nat} {response : DirResponse}
      (awaits : sys.ncrisc.phase = .awaiting client)
      (answered : sys.words.response = some response) :
      SessionTurn cfg sys (complete client (takeResponse sys)).1 [.completed client]
  | retryPrepare {client : Nat} {prior : Option Lease} {flight : PutFlight}
      {response : PutPrepareResponse} (prepares : sys.ncrisc.phase = .preparing client prior)
      (sends : flightOf client sys = some flight)
      (answered : sys.words.response = some (.prepared response))
      (refused : response.grant = none) :
      SessionTurn cfg sys
        (serveAs (.preparing client response.lease)
          (Server.ask (prepareRequest flight response.lease) sys)) []
  | takeGrant {client : Nat} {prior : Option Lease} {flight : PutFlight}
      {response : PutPrepareResponse} {grant : PutGrant}
      (prepares : sys.ncrisc.phase = .preparing client prior)
      (sends : flightOf client sys = some flight)
      (answered : sys.words.response = some (.prepared response))
      (granted : response.grant = some grant) :
      SessionTurn cfg sys
        (setOperation client
          (some (.put { flight with
            dest := if flight.usesLease then flight.dest else some grant.valueByteOff }))
          { Server.takeResponse sys with
            ncrisc := { sys.ncrisc with
              phase := .receiving client grant
              putLease := Function.update sys.ncrisc.putLease client response.lease } }) []
  | publish {client : Nat} {grant : PutGrant} {flight : PutFlight}
      (receives : sys.ncrisc.phase = .receiving client grant)
      (sends : flightOf client sys = some flight) (landed : flight.landed = true) :
      SessionTurn cfg sys
        (serveAs (.publishing client grant) (Server.ask (publishRequest flight grant) sys)) []
  | retryPublish {client : Nat} {grant : PutGrant} {flight : PutFlight}
      (publishes : sys.ncrisc.phase = .publishing client grant)
      (sends : flightOf client sys = some flight)
      (answered : sys.words.response = some (.published false)) :
      SessionTurn cfg sys (Server.ask (publishRequest flight grant) sys) []
  | finishPut {client : Nat} {grant : PutGrant} {flight : PutFlight}
      (publishes : sys.ncrisc.phase = .publishing client grant)
      (sends : flightOf client sys = some flight)
      (answered : sys.words.response = some (.published true)) :
      SessionTurn cfg sys
        (setClient client
          { sys.client client with lease := sys.ncrisc.putLease client, operation := none }
          { Server.takeResponse sys with
            ncrisc := { sys.ncrisc with
              phase := .idle
              putIssuedTotal := sys.ncrisc.putIssuedTotal + 1 } }) [.completed client]
  | establish {client : Nat} (detached : (sys.client client).established = false) :
      SessionTurn cfg sys (setClient client ⟨true, none, none⟩ sys) []
  | startPut {client seq : Nat} {key : Key} {value : Bytes}
      (established : (sys.client client).established = true)
      (free : (sys.client client).operation = none)
      (keyPositive : 0 < key.length) (keyBounded : key.length ≤ cfg.geometry.maxKeyLen)
      (lenPositive : 0 < value.length) (lenBounded : value.length ≤ cfg.geometry.maxValueBytes) :
      SessionTurn cfg sys
        (setOperation client
          (some (.put (newFlight (sys.client client).lease key value seq))) sys) []
  | startOperation {client : Nat} {operation : Operation}
      (established : (sys.client client).established = true)
      (free : (sys.client client).operation = none)
      (noPut : ∀ flight, operation ≠ .put flight) :
      SessionTurn cfg sys (setOperation client (some operation) sys) []
  | streamChunk {client valueByteOff progress : Nat} {flight : PutFlight}
      (sends : flightOf client sys = some flight) (isDest : flight.dest = some valueByteOff)
      (more : flight.sent < chunkCountFor flight.value.length) :
      SessionTurn cfg sys
        (setOperation client (some (.put { flight with sent := flight.sent + 1 }))
          { sys with
            valueHeap := writeHeap (valueByteOff / maxChunkValueBytes + flight.sent) 1
              (fun _ => Chunked.chunkAt maxChunkValueBytes flight.value flight.sent) sys.valueHeap
            words := { sys.words with putProgress := progress } }) []
  | landPut {client : Nat} {flight : PutFlight} (sends : flightOf client sys = some flight)
      (all : flight.sent = chunkCountFor flight.value.length) (isDest : flight.dest.isSome = true) :
      SessionTurn cfg sys
        (setOperation client (some (.put { flight with landed := true })) sys) []

theorem Client.flight_eq {client : Client} {flight : PutFlight} :
    client.flight = some flight ↔ client.operation = some (.put flight) := by
  unfold Client.flight
  split
  · next sends => rw [sends]; simp
  · next other =>
    exact ⟨fun impossible => (nomatch impossible), fun sends => absurd sends (other flight)⟩

theorem flightOf_eq {client : Nat} {flight : PutFlight} :
    flightOf client sys = some flight ↔ (sys.client client).operation = some (.put flight) :=
  Client.flight_eq

@[simp] theorem setOperation_flight (client : Nat) (flight : PutFlight) (sys : Sys) :
    ((setOperation client (some (.put flight)) sys).client client).flight = some flight := by
  simp [setOperation, setClient, Client.flight]

theorem Client.flight_none {client : Client} {operation : Operation}
    (asked : client.operation = some operation) (noPut : ∀ flight, operation ≠ .put flight) :
    client.flight = none := by
  rw [Option.eq_none_iff_forall_ne_some]
  intro flight sends
  exact noPut flight (Option.some.inj (asked.symm.trans (flight_eq.mp sends)))

theorem Client.waits_of {client : Client} {operation : Operation}
    (asked : client.operation = some operation) (noPut : ∀ flight, operation ≠ .put flight) :
    client.waits :=
  ⟨by rw [asked]; exact Option.some_ne_none _, flight_none asked noPut⟩

theorem flightOf_none {client : Nat} {operation : Operation}
    (asked : (sys.client client).operation = some operation)
    (noPut : ∀ flight, operation ≠ .put flight) : flightOf client sys = none :=
  Client.flight_none asked noPut

/-- Asking on behalf of a client is one of the cases. -/
theorem askFor_cases {client : Nat} (key : Key) {request : DirRequest} (refused : Outcome)
    (free : sys.ncrisc.phase = .idle ∨ ∃ target, sys.ncrisc.phase = .waitingPrefix client target)
    (isPlain : plain request = true) (waits : (sys.client client).waits)
    (otherwise : carriesKey key = false → SessionTurn cfg sys refused.1 refused.2) :
    SessionTurn cfg sys (askFor client key request refused sys).1
      (askFor client key request refused sys).2 := by
  unfold askFor
  split
  · exact .ask free isPlain waits
  · next malformed => exact otherwise (Bool.eq_false_iff.mpr malformed)

/-- Taking up a client is one of the cases. -/
theorem serveClient_cases {client : Nat} (stepped : serveClient client sys = some (after, events)) :
    SessionTurn cfg sys after events := by
  unfold serveClient at stepped
  split at stepped
  · next idle =>
    have keyed : ∀ {operation : Operation} {key : Key} {request : DirRequest},
        (sys.client client).operation = some operation → (∀ flight, operation ≠ .put flight) →
        plain request = true →
        some (askFor client key request (complete client sys) sys) = some (after, events) →
        SessionTurn cfg sys after events := by
      intro operation key request asked noPut isPlain result
      have turn : SessionTurn cfg sys _ _ :=
        askFor_cases key (complete client sys) (Or.inl idle) isPlain (Client.waits_of asked noPut)
          fun _ => .finish (Or.inl idle) (flightOf_none asked noPut)
      rwa [Option.some.inj result] at turn
    split at stepped
    · exact nomatch stepped
    · next flight sends =>
      cases stepped
      exact .prepare idle (flightOf_eq.mpr sends)
    · next key outputCapacity asked =>
      have turn : SessionTurn cfg sys
          (askFor client key (.getChunk key outputCapacity) _ sys).1 _ :=
        askFor_cases key (answer client (.getServed key outputCapacity .miss 0 []) sys)
          (Or.inl idle) rfl (Client.waits_of asked nofun) fun malformed =>
            .refuseGet idle asked malformed
      rwa [Option.some.inj stepped] at turn
    · next asked => exact keyed asked nofun rfl stepped
    · next asked => exact keyed asked nofun rfl stepped
    · next asked => exact keyed asked nofun rfl stepped
    · next asked =>
      cases stepped
      exact .waitPrefix idle (Client.waits_of asked nofun)
    · next asked =>
      cases stepped
      exact .waitPrefix idle (Client.waits_of asked nofun)
    · next asked =>
      cases stepped
      exact .detach idle asked
  · exact nomatch stepped

/-- Every step of NCRISC is one of the cases, if a waiting client sends no PUT. -/
theorem ncriscStep_cases (stepped : ncriscStep sys = some (after, events))
    (waiting : ∀ client target, sys.ncrisc.phase = .waitingPrefix client target →
      (sys.client client).waits) :
    SessionTurn cfg sys after events := by
  unfold ncriscStep at stepped
  split at stepped
  · exact nomatch stepped
  · next client target waits =>
    simp only [Option.ite_none_right_eq_some] at stepped
    obtain ⟨_, stepped⟩ := stepped
    have idle := waiting client target waits
    unfold finishPrefix at stepped
    split at stepped
    · next key asked =>
      have turn : SessionTurn cfg sys (askFor client key (.exists_ key) _ sys).1 _ :=
        askFor_cases key (answer client (.existsServed key false) sys)
          (Or.inr ⟨target, waits⟩) rfl idle fun malformed => .refuseExists waits asked malformed
      rwa [Option.some.inj stepped] at turn
    · cases stepped
      exact .finish (Or.inr ⟨target, waits⟩) idle.2
  · next awaits =>
    simp only [Option.ite_none_right_eq_some] at stepped
    obtain ⟨isSome, stepped⟩ := stepped
    obtain ⟨response, answered⟩ := Option.isSome_iff_exists.mp isSome
    cases stepped
    exact .takeResponse awaits answered
  · next prepares =>
    split at stepped
    · next sends answered =>
      unfold finishPrepare at stepped
      split at stepped
      · next refused =>
        cases stepped
        exact .retryPrepare prepares sends answered refused
      · next granted =>
        cases stepped
        exact .takeGrant prepares sends answered granted
    · exact nomatch stepped
  · next receives =>
    split at stepped
    · next sends =>
      simp only [Option.ite_none_right_eq_some] at stepped
      obtain ⟨landed, stepped⟩ := stepped
      cases stepped
      exact .publish receives sends landed
    · exact nomatch stepped
  · next publishes =>
    split at stepped
    · next granted sends answered =>
      unfold finishPublish at stepped
      cases granted with
      | true =>
        cases stepped
        exact .finishPut publishes sends answered
      | false =>
        cases stepped
        exact .retryPublish publishes sends answered
    · exact nomatch stepped

/-- Every step of a client is one of the cases. -/
theorem clientStep_cases {action : Action} (stepped : step cfg sys action = some (after, events))
    (ofClient : action ≠ .brisc ∧ action ≠ .ncrisc ∧ action ≠ .worker) :
    SessionTurn cfg sys after events := by
  obtain ⟨notBrisc, notNcrisc, notWorker⟩ := ofClient
  cases action with
  | brisc => exact absurd rfl notBrisc
  | ncrisc => exact absurd rfl notNcrisc
  | worker => exact absurd rfl notWorker
  | serve client => exact serveClient_cases stepped
  | establish client =>
    simp only [step, establish, Option.ite_none_left_eq_some] at stepped
    obtain ⟨detached, stepped⟩ := stepped
    cases stepped
    exact .establish (Bool.eq_false_iff.mpr detached)
  | startPut client key value seq =>
    simp only [step, startPut, Option.ite_none_right_eq_some] at stepped
    obtain ⟨⟨established, free, keyPositive, keyBounded, lenPositive, lenBounded⟩, stepped⟩ :=
      stepped
    cases stepped
    exact .startPut established free keyPositive keyBounded lenPositive lenBounded
  | startOperation client operation =>
    simp only [step, startOperation] at stepped
    split at stepped
    · exact nomatch stepped
    · next noPut =>
      simp only [Option.ite_none_right_eq_some] at stepped
      obtain ⟨⟨established, free⟩, stepped⟩ := stepped
      cases stepped
      exact .startOperation established free noPut
  | streamChunk client =>
    simp only [step, streamChunk] at stepped
    split at stepped
    · next flight sends =>
      split at stepped
      · next isDest =>
        simp only [Option.ite_none_right_eq_some] at stepped
        obtain ⟨more, stepped⟩ := stepped
        cases stepped
        exact .streamChunk (flightOf_eq.mpr sends) isDest more
      · exact nomatch stepped
    · exact nomatch stepped
  | landPut client =>
    simp only [step, landPut] at stepped
    split at stepped
    · next flight sends =>
      simp only [Option.ite_none_right_eq_some] at stepped
      obtain ⟨⟨_, isDest, all⟩, stepped⟩ := stepped
      cases stepped
      exact .landPut (flightOf_eq.mpr sends) all isDest
    · exact nomatch stepped

end KvCache.Server
