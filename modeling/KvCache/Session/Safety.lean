import KvCache.Session.Registry

/-!
# The dispatch of one peer and the safety of its registry

Packets land in the slots of the peer's ring partition, and every landing counts up
the semaphore of its slot. The dispatch loop looks at the slot of the cursor only. It
discards a packet whose token is not the registry's or that finds no established
session, and executes any other; DETACH retires the session and rewinds the cursor.

Over a run, requests for sessions and packets come in any order and may be anything
at all. A session is created only where none is established, so the trace of a run
alternates between creating and retiring, and every accepted answer in between names
the session that is established.
-/

namespace KvCache.Session

open Function Run

/-- A packet lands in a slot of the partition. -/
def land (slot : Nat) (packet : Packet) (peer : Peer) : Peer :=
  { peer with
    slot := update peer.slot slot packet
    ringSem := update peer.ringSem slot ((peer.ringSem slot + 1) % 2 ^ 32) }

/-- The slot that the cursor names. -/
def cursorSlot (cfg : PeerConfig) (peer : Peer) : Nat := peer.cursor % cfg.slotsPerClient

/-- The packet is one of the established session. -/
def tokenMatches (cfg : PeerConfig) (peer : Peer) (packet : Packet) : Bool :=
  clientIdFromToken packet.clientToken == cfg.chip &&
    peer.registry.clientToken == packet.clientToken

/-- Clear the slot of the cursor and go on. -/
def consume (cfg : PeerConfig) (peer : Peer) : Peer :=
  { peer with
    ringSem := update peer.ringSem (cursorSlot cfg peer) 0
    cursor := (peer.cursor + 1) % 2 ^ 32 }

/-- DETACH retires the session and rewinds the cursor. -/
def handleDetach (cfg : PeerConfig) (peer : Peer) : Peer :=
  { consume cfg peer with
    registry := { peer.registry with state := .retired }
    cursor := 0 }

/-- One visit of the dispatch loop to the peer. -/
def scan (cfg : PeerConfig) (peer : Peer) : Outcome :=
  let packet := peer.slot (cursorSlot cfg peer)
  if peer.ringSem (cursorSlot cfg peer) = 0 then (peer, [])
  else if tokenMatches cfg peer packet = false ∨ peer.registry.state ≠ .established then
    (consume cfg peer, [.discarded packet])
  else if packet.opcode = .detach then (handleDetach cfg peer, [.executed packet, .retired])
  else (consume cfg peer, [.executed packet])

/-- What happens at one peer. -/
inductive Action where
  | establish (request : EstablishRequest)
  | land (slot : Nat) (packet : Packet)
  | scan
deriving DecidableEq, Repr

/-- One step at the peer. -/
def step (cfg : PeerConfig) (peer : Peer) : Action → Option Outcome
  | .establish request => some (handleEstablishRequest cfg request peer)
  | .land slot packet => some (land slot packet peer, [])
  | .scan => some (scan cfg peer)

/-- The peer when the server starts: no nonce, no session, and a token of the seed. The
other words are those the memory holds. -/
def coldPeer (cfg : PeerConfig) (seed : Nat) (entry : Registry) (lookup : LookupEntry)
    (slot : Nat → Packet) : Peer where
  registry :=
    { entry with
      nonceLow := 0, nonceHigh := 0, clientToken := makeClientToken cfg.chip seed, state := .empty }
  lookup := lookup
  slot := slot
  ringSem := fun _ => 0
  cursor := 0

/-! ## One session at a time -/

/-- Follow the sessions in a trace: the token of the established one, or none. A session
is created only if none is established, and is retired or answered for only while it is. -/
def observeSession : Option Nat → Event → Option (Option Nat)
  | none, .established token => some (some token)
  | some _, .retired => some none
  | live, .answered response =>
    if response.status = .accepted ∧ live ≠ some response.clientToken then none else some live
  | live, .executed packet => if live = some packet.clientToken then some live else none
  | live, .configured | live, .discarded _ => some live
  | _, _ => none

/-- The session that the registry has established. -/
def liveSession (peer : Peer) : Option Nat :=
  if peer.registry.state = .established then some peer.registry.clientToken else none

variable {cfg : PeerConfig} {peer after : Peer} {events : List Event}

/-- An answer is observed if it names the live session or refuses. -/
theorem accept_respond {request : EstablishRequest} {status : ResponseStatus} {token : Nat}
    {config : Bool} {live : Option Nat} (named : status = .accepted → live = some token) :
    accept observeSession live (respond cfg request status token config peer).2 = some live := by
  have answered : observeSession live
      (.answered ⟨status, request.nonceLow, request.nonceHigh, token⟩) = some live := by
    cases live with
    | none =>
      have refused : status ≠ .accepted := fun accepted => nomatch named accepted
      simp [observeSession, refused]
    | some current =>
      by_cases accepted : status = .accepted
      · simp [observeSession, named accepted]
      · simp [observeSession, accepted]
  have configured : observeSession live .configured = some live := by
    cases live <;> rfl
  unfold respond
  split
  · cases config <;> simp [accept, answered, configured]
  · rfl

/-- An answer changes nothing but the lookup entry. -/
theorem respond_frame (cfg : PeerConfig) (peer : Peer) (request : EstablishRequest)
    (status : ResponseStatus) (token : Nat) (config : Bool) :
    (respond cfg request status token config peer).1.registry = peer.registry ∧
      (respond cfg request status token config peer).1.ringSem = peer.ringSem ∧
      (respond cfg request status token config peer).1.slot = peer.slot ∧
      (respond cfg request status token config peer).1.cursor = peer.cursor := by
  unfold respond
  split <;> exact ⟨rfl, rfl, rfl, rfl⟩

/-- ESTABLISH moves the trace from one live session to the next. -/
theorem establish_observed (request : EstablishRequest) :
    accept observeSession (liveSession peer) (handleEstablishRequest cfg request peer).2 =
      some (liveSession (handleEstablishRequest cfg request peer).1) := by
  have answered : ∀ status token config,
      (status = .accepted → liveSession peer = some token) →
      accept observeSession (liveSession peer) (respond cfg request status token config peer).2 =
        some (liveSession (respond cfg request status token config peer).1) := by
    intro status token config named
    rw [accept_respond named, liveSession, liveSession,
      (respond_frame cfg _ request status token config).1]
  unfold handleEstablishRequest
  dsimp only
  split
  · rfl
  · next notDropped =>
    split
    · split
      · next isReplay =>
        split
        · apply answered
          intro _
          rw [liveSession, if_pos (establishRegistryAction_replay.mp isReplay).1]
        · rfl
      · next notReplay =>
        have vacant : liveSession peer = none := if_neg (created_vacant notDropped notReplay)
        rw [vacant, createSession]
        generalize makeClientToken cfg.chip _ = token
        have framed := (respond_frame cfg { peer with
          registry := Registry.establish request token
          ringSem := fun slot => if slot < cfg.slotsPerClient then 0 else peer.ringSem slot
          cursor := 0 } request .accepted token true).1
        simp only [accept, observeSession, Option.bind_some]
        rw [accept_respond fun _ => rfl, liveSession, framed]
        rfl
    · next rejected =>
      exact answered _ 0 false fun accepted => absurd accepted rejected

/-- A visit of the dispatch loop moves the trace from one live session to the next. -/
theorem scan_observed :
    accept observeSession (liveSession peer) (scan cfg peer).2 =
      some (liveSession (scan cfg peer).1) := by
  unfold scan
  dsimp only
  split
  · rfl
  · split
    · cases live : liveSession peer <;> exact congrArg some live.symm
    · next executes =>
      rw [not_or, Bool.not_eq_false, Decidable.not_not] at executes
      obtain ⟨matching, established⟩ := executes
      have current := (Bool.and_eq_true_iff.mp matching).2
      rw [beq_iff_eq] at current
      have live : liveSession peer = some (peer.slot (cursorSlot cfg peer)).clientToken := by
        rw [liveSession, if_pos established, current]
      split
      · rw [live]
        simp [accept, observeSession, liveSession, handleDetach]
      · rw [live]
        simp [accept, observeSession]
        exact live.symm

/-- A step at the peer moves the trace from one live session to the next. -/
theorem step_observed {action : Action} (stepped : step cfg peer action = some (after, events)) :
    accept observeSession (liveSession peer) events = some (liveSession after) := by
  cases action with
  | establish request =>
    have observed := @establish_observed cfg peer request
    rwa [Option.some.inj stepped] at observed
  | land slot packet =>
    cases stepped
    rfl
  | scan =>
    have observed := @scan_observed cfg peer
    rwa [Option.some.inj stepped] at observed

/-! ## What one request does -/

/-- The answer that repeats the token of the registry. -/
def replayAnswer (peer : Peer) (request : EstablishRequest) : Event :=
  .answered ⟨.accepted, request.nonceLow, request.nonceHigh, peer.registry.clientToken⟩

/-- What ESTABLISH guarantees about one request: what a retry gets, what every request
leaves alone while a session is established, that another nonce is refused, that a
rejected request has no effect, and which tokens are issued. -/
structure EstablishSafe (cfg : PeerConfig) (peer : Peer) (request : EstablishRequest)
    (after : Peer) (events : List Event) : Prop where
  replayed : peer.registry.state = .established → peer.registry.nonceMatches request = true →
    (replayAnswer peer request ∈ events ↔
      deliverable peer request = true ∧ requestStatus cfg request = .accepted ∧
        peer.registry.sessionMatches request = true)
  kept : peer.registry.state = .established →
    after.registry = peer.registry ∧ after.ringSem = peer.ringSem ∧ after.cursor = peer.cursor ∧
      .configured ∉ events ∧ ∀ token, .established token ∉ events
  refused : peer.registry.state = .established → peer.registry.nonceMatches request = false →
    after = peer ∧ events = []
  rejected : requestStatus cfg request ≠ .accepted →
    after.registry = peer.registry ∧ after.ringSem = peer.ringSem ∧ after.cursor = peer.cursor
  created : ∀ token, .established token ∈ events →
    peer.registry.state ≠ .established ∧ after.registry = Registry.establish request token ∧
      clientIdFromToken token = cfg.chip ∧ 0 < clientGenerationFromToken token ∧
      clientGenerationFromToken token < 2 ^ 27 ∧ token ≠ peer.registry.clientToken

/-- The events of an answer without a session config. -/
theorem mem_respond {request : EstablishRequest} {status : ResponseStatus} {token : Nat}
    {event : Event} :
    event ∈ (respond cfg request status token false peer).2 ↔
      deliverable peer request = true ∧
        event = .answered ⟨status, request.nonceLow, request.nonceHigh, token⟩ := by
  unfold respond
  split
  · next sent => simp [sent]
  · next unsent => simp [unsent]

/-- An answer without a session config is safe, if an accepting one repeats the token to a
matching retry. -/
theorem respond_safe {request : EstablishRequest} {status : ResponseStatus} {token : Nat}
    (isStatus : status = requestStatus cfg request)
    (sameNonce : peer.registry.state = .established → peer.registry.nonceMatches request = true)
    (named : status = .accepted →
      token = peer.registry.clientToken ∧ peer.registry.sessionMatches request = true) :
    EstablishSafe cfg peer request (respond cfg request status token false peer).1
      (respond cfg request status token false peer).2 := by
  obtain ⟨registry, ringSem, slot, cursor⟩ :=
    respond_frame cfg peer request status token false
  refine ⟨fun _ _ => ?_, fun _ => ⟨registry, ringSem, cursor, ?_, fun other => ?_⟩,
    fun established other => ?_, fun _ => ⟨registry, ringSem, cursor⟩, fun other created => ?_⟩
  · rw [replayAnswer, mem_respond]
    constructor
    · rintro ⟨sent, same⟩
      simp only [Event.answered.injEq, EstablishResponse.mk.injEq] at same
      have accepted := same.1.symm
      exact ⟨sent, isStatus ▸ accepted, (named accepted).2⟩
    · rintro ⟨sent, accepted, matching⟩
      have isAccepted := isStatus.trans accepted
      exact ⟨sent, by rw [isAccepted, (named isAccepted).1]⟩
  · rw [mem_respond]
    exact fun impossible => nomatch impossible.2
  · rw [mem_respond]
    exact fun impossible => nomatch impossible.2
  · exact absurd (other.symm.trans (sameNonce established)) Bool.false_ne_true
  · rw [mem_respond] at created
    exact nomatch created.2

/-- Silence is safe if a matching retry of an accepted request does not meet it. -/
theorem silence_safe {request : EstablishRequest}
    (mismatch : peer.registry.state = .established → peer.registry.nonceMatches request = true →
      peer.registry.sessionMatches request = false) :
    EstablishSafe cfg peer request peer [] := by
  refine ⟨fun established same => ?_, fun _ => ⟨rfl, rfl, rfl, by simp, by simp⟩,
    fun _ _ => ⟨rfl, rfl⟩, fun _ => ⟨rfl, rfl, rfl⟩, fun _ impossible => by simp at impossible⟩
  simp [mismatch established same]

/-- Creating a session is safe where none is established. -/
theorem createSession_safe {request : EstablishRequest}
    (vacant : peer.registry.state ≠ .established)
    (accepted : requestStatus cfg request = .accepted) :
    EstablishSafe cfg peer request (createSession cfg request peer).1
      (createSession cfg request peer).2 := by
  refine ⟨fun established => absurd established vacant, fun established => absurd established vacant,
    fun established => absurd established vacant, fun rejected => absurd accepted rejected,
    fun token created => ?_⟩
  have issued : token = makeClientToken cfg.chip
      (nextClientGeneration (clientGenerationFromToken peer.registry.clientToken)) := by
    simp only [createSession, respond] at created
    split at created <;> simpa using created
  refine ⟨vacant, ?_, ?_⟩
  · rw [issued]
    exact (respond_frame cfg _ request .accepted _ true).1
  · rw [issued]
    exact nextToken_spec peer.registry.clientToken cfg.chipBounded

/-- Every ESTABLISH request is handled safely. -/
theorem establish_safe (request : EstablishRequest) :
    EstablishSafe cfg peer request (handleEstablishRequest cfg request peer).1
      (handleEstablishRequest cfg request peer).2 := by
  unfold handleEstablishRequest
  dsimp only
  split
  · next dropped =>
    apply silence_safe
    intro established same
    rw [established, same] at dropped
    exact nomatch dropped
  · next notDropped =>
    have sameNonce : peer.registry.state = .established →
        peer.registry.nonceMatches request = true := by
      intro established
      by_contra other
      rw [established, Bool.eq_false_iff.mpr other] at notDropped
      exact notDropped rfl
    split
    · next accepted =>
      split
      · next isReplay =>
        split
        · next matching => exact respond_safe accepted.symm sameNonce fun _ => ⟨rfl, matching⟩
        · next mismatch => exact silence_safe fun _ _ => Bool.eq_false_iff.mpr mismatch
      · next notReplayed =>
        exact createSession_safe (created_vacant notDropped notReplayed) accepted
    · next rejected => exact respond_safe rfl sameNonce fun accepted => absurd accepted rejected

/-- The registry is safe in every order of ESTABLISH requests and packets: the trace
shows one session at a time, and every next request is handled safely.

Proof: every step carries the observed session to the one that the registry has
established; what one request does holds in any state. -/
theorem registry_safety (cfg : PeerConfig) (seed : Nat) (entry : Registry) (lookup : LookupEntry)
    (slot : Nat → Packet) (trace : List Event) (peer : Peer)
    (run : Run (Takes (step cfg)) (coldPeer cfg seed entry lookup slot) trace peer) :
    accept observeSession none trace = some (liveSession peer) ∧
      ∀ request, EstablishSafe cfg peer request (handleEstablishRequest cfg request peer).1
        (handleEstablishRequest cfg request peer).2 := by
  refine ⟨?_, fun request => establish_safe request⟩
  refine run.tracks liveSession fun state events after => ?_
  rintro ⟨action, stepped⟩
  exact step_observed stepped

/-! ## A session and two retries -/

/-- A standard deployment with two ring slots for chip 3. -/
def sampleConfig : PeerConfig where
  link := .standard
  template := ⟨requiredCapabilities, 5, 0, 8, 12, 8, 9⟩
  chip := 3
  slotsPerClient := 2
  chipBounded := by decide
  slots := by decide

/-- A request of chip 3 that passes every check. -/
def sampleRequest : EstablishRequest where
  magic := bootstrapMagic
  bootstrapVersion := bootstrapProtocolVersion
  wireLayoutVersion := 5
  requiredCapabilities := requiredCapabilities
  clientMeshId := 1
  clientChipId := 3
  clientNocX := 18
  clientNocY := 18
  responseAddr := 64
  responseSemAddr := 96
  nonceLow := 7
  nonceHigh := 0
  clientL1Base := 1024
  recvBufferAddr := 2048
  clientValueRingDepth := 8
  returnRoute := 0
  numDramChannels := 12
  dramGridX := 8
  dramGridY := 9
  reservedTail := 0

/-- The server before its first request. -/
def samplePeer : Peer :=
  coldPeer sampleConfig 1 ⟨0, 0, 0, 0, 0, 0, 0, 0, 0, 0, .empty, 0, 0, 0⟩ ⟨0, 1⟩
    fun _ => ⟨.ping, 0, 0⟩

/-- The server after it created the session. -/
def sampleEstablished : Peer := (handleEstablishRequest sampleConfig sampleRequest samplePeer).1

theorem sample_run :
    Run (Takes (step sampleConfig)) samplePeer
      (handleEstablishRequest sampleConfig sampleRequest samplePeer).2 sampleEstablished :=
  .next .start ⟨.establish sampleRequest, rfl⟩

theorem registry_safety_retry :
    replayAnswer sampleEstablished sampleRequest ∈
      (handleEstablishRequest sampleConfig sampleRequest sampleEstablished).2 :=
  (((registry_safety sampleConfig 1 _ _ _ _ sampleEstablished sample_run).2
    sampleRequest).replayed rfl rfl).mpr ⟨rfl, rfl, rfl⟩

/-- A retry that repeats the nonce and every session field, but names another wire
layout, is not answered with the token: the checks come first. -/
theorem malformed_retry_refused :
    Reachable (Takes (step sampleConfig)) samplePeer sampleEstablished ∧
      sampleEstablished.registry.state = .established ∧
      sampleEstablished.registry.nonceMatches { sampleRequest with wireLayoutVersion := 4 } = true ∧
      sampleEstablished.registry.sessionMatches { sampleRequest with wireLayoutVersion := 4 } =
        true ∧
      replayAnswer sampleEstablished { sampleRequest with wireLayoutVersion := 4 } ∉
        (handleEstablishRequest sampleConfig { sampleRequest with wireLayoutVersion := 4 }
          sampleEstablished).2 := by
  refine ⟨⟨_, sample_run⟩, rfl, rfl, rfl, ?_⟩
  decide

end KvCache.Session
