import KvCache.Session.Safety

/-!
# The server's cursor and the requests of the live session

A client sends one request at a time. Its `i`-th request goes to slot `i` of the
partition, modulo the slots, and the server finds it only if its own cursor names that
slot. Packets of earlier sessions may arrive late in any slot; they are discarded, but
a discard moves the cursor as well, and no one moves it back before the session ends.

The state below is the peer at the server together with what the live session knows:
its token, the requests answered so far and the request under way. One more word tells
for each slot whether its last packet was written by the live session.

The cursor agrees with the session as long as every packet that the server finds while
a session is established is one of that session, and the cursor, a 32-bit word, does
not wrap unless the number of slots divides `2 ^ 32`.
-/

namespace KvCache.Session

open Function Run

/-- The peer and its live session. -/
structure Ring where
  peer : Peer
  token : Option Nat
  answered : Nat
  outstanding : Option Packet
  genuine : Nat → Bool

/-- What is seen of a ring: the requests sent, and what the server does. -/
inductive RingEvent where
  | sent (packet : Packet)
  | did (event : Event)
deriving DecidableEq, Repr

/-- The slot of the session's next request. -/
def nextSlot (cfg : PeerConfig) (ring : Ring) : Nat := ring.answered % cfg.slotsPerClient

/-- The token of a session that a step created. -/
def createdToken : List Event → Option Nat
  | .established token :: _ => some token
  | _ => none

/-- ESTABLISH at a ring: a created session starts with its first request. -/
def establishRing (cfg : PeerConfig) (request : EstablishRequest) (ring : Ring) :
    Ring × List RingEvent :=
  let (peer, events) := handleEstablishRequest cfg request ring.peer
  (match createdToken events with
    | some token =>
      { ring with peer := peer, token := some token, answered := 0, outstanding := none }
    | none => { ring with peer := peer },
    events.map .did)

/-- The live session sends its next request. -/
def send (cfg : PeerConfig) (opcode : OpCode) (seq token : Nat) (ring : Ring) :
    Ring × List RingEvent :=
  let packet : Packet := ⟨opcode, seq, token⟩
  ({ ring with
      peer := land (nextSlot cfg ring) packet ring.peer
      outstanding := some packet
      genuine := update ring.genuine (nextSlot cfg ring) true }, [.sent packet])

/-- A packet of another session arrives late. -/
def late (slot : Nat) (packet : Packet) (ring : Ring) : Ring :=
  { ring with peer := land slot packet ring.peer, genuine := update ring.genuine slot false }

/-- The server visits the peer. A request of the live session gets its answer; the answer
to DETACH ends the session. -/
def visit (cfg : PeerConfig) (ring : Ring) : Ring × List RingEvent :=
  let (peer, events) := scan cfg ring.peer
  let slot := cursorSlot cfg ring.peer
  let visited := { ring with peer := peer }
  (if ring.genuine slot ∧ .executed (ring.peer.slot slot) ∈ events then
      { visited with
        answered := ring.answered + 1
        outstanding := none
        token := if (ring.peer.slot slot).opcode = .detach then none else ring.token }
    else visited,
    events.map .did)

/-- What happens at a ring. -/
inductive RingAction where
  | establish (request : EstablishRequest)
  | send (opcode : OpCode) (seq : Nat)
  | late (slot : Nat) (packet : Packet)
  | visit
deriving DecidableEq, Repr

/-- One step of a ring. The session sends nothing while a request is under way. -/
def ringStep (cfg : PeerConfig) (ring : Ring) : RingAction → Option (Ring × List RingEvent)
  | .establish request => some (establishRing cfg request ring)
  | .send opcode seq =>
    match ring.token, ring.outstanding with
    | some token, none => some (send cfg opcode seq token ring)
    | _, _ => none
  | .late slot packet =>
    if slot < cfg.slotsPerClient then some (late slot packet ring, []) else none
  | .visit => some (visit cfg ring)

/-- The ring when the server starts. -/
def coldRing (cfg : PeerConfig) (seed : Nat) (entry : Registry) (lookup : LookupEntry)
    (slot : Nat → Packet) : Ring where
  peer := coldPeer cfg seed entry lookup slot
  token := none
  answered := 0
  outstanding := none
  genuine := fun _ => false

/-- The session's request is intact in its slot. -/
def Intact (cfg : PeerConfig) (ring : Ring) (packet : Packet) : Prop :=
  ring.outstanding = some packet ∧ ring.peer.slot (nextSlot cfg ring) = packet ∧
    ring.peer.ringSem (nextSlot cfg ring) ≠ 0

instance (cfg : PeerConfig) (ring : Ring) (packet : Packet) : Decidable (Intact cfg ring packet) :=
  inferInstanceAs (Decidable (_ ∧ _ ∧ _))

/-- A visit meets no stranger: a packet found while a session is established is one of
that session, and the cursor goes on without a wrong wrap. -/
def Undisturbed (cfg : PeerConfig) (ring : Ring) : RingAction → Prop
  | .visit =>
    ring.peer.registry.state = .established → ring.peer.ringSem (cursorSlot cfg ring.peer) ≠ 0 →
      ring.genuine (cursorSlot cfg ring.peer) = true ∧
        (ring.peer.cursor + 1 < 2 ^ 32 ∨ cfg.slotsPerClient ∣ 2 ^ 32)
  | _ => True

/-- Follow the requests in a trace: one is under way from its sending to its execution,
and nothing else is executed. -/
def observeRequest : Option Packet → RingEvent → Option (Option Packet)
  | none, .sent packet => some (some packet)
  | some pending, .did (.executed packet) => if packet = pending then some none else none
  | none, .did (.executed _) | some _, .sent _ => none
  | _, .did (.established _) => some none
  | pending, .did _ => some pending

/-- The cursor names the slot of the session's next request, and only that slot holds a
packet of the session. -/
structure CursorInv (cfg : PeerConfig) (ring : Ring) : Prop where
  agrees : ring.peer.registry.state = .established →
    ring.token = some ring.peer.registry.clientToken ∧
      clientIdFromToken ring.peer.registry.clientToken = cfg.chip ∧
      cursorSlot cfg ring.peer = nextSlot cfg ring
  vacant : ring.peer.registry.state ≠ .established →
    ring.token = none ∧ ring.outstanding = none
  pending : ∀ packet, ring.outstanding = some packet →
    packet.clientToken = ring.peer.registry.clientToken
  inside : ∀ slot, ring.genuine slot = true → slot < cfg.slotsPerClient
  written : ∀ slot, ring.genuine slot = true → ring.peer.ringSem slot ≠ 0 →
    slot = nextSlot cfg ring ∧ ring.outstanding = some (ring.peer.slot slot)

variable {cfg : PeerConfig} {ring after : Ring} {events : List RingEvent}

theorem cursorInv_cold (seed : Nat) (entry : Registry) (lookup : LookupEntry)
    (slot : Nat → Packet) : CursorInv cfg (coldRing cfg seed entry lookup slot) :=
  ⟨fun impossible => (nomatch impossible), fun _ => ⟨rfl, rfl⟩,
    fun _ impossible => (nomatch impossible), fun _ impossible => (nomatch impossible),
    fun _ impossible => (nomatch impossible)⟩

/-- The events of an answer. -/
def quiet : Event → Bool
  | .configured | .answered _ => true
  | _ => false

theorem respond_quiet {peer : Peer} (request : EstablishRequest) (status : ResponseStatus)
    (token : Nat) (config : Bool) :
    ∀ event ∈ (respond cfg request status token config peer).2, quiet event = true := by
  unfold respond
  split
  · cases config <;> simp [quiet]
  · simp

/-- Answers say nothing about requests. -/
theorem accept_quiet (pending : Option Packet) (events : List Event)
    (silent : ∀ event ∈ events, quiet event = true) :
    accept observeRequest pending (events.map .did) = some pending := by
  induction events with
  | nil => rfl
  | cons event rest inductionHypothesis =>
    have kept : observeRequest pending (.did event) = some pending := by
      have isQuiet := silent event (by simp)
      cases event <;> cases pending <;> first | rfl | exact nomatch isQuiet
    rw [List.map_cons, accept, kept]
    exact inductionHypothesis fun other member => silent other (by simp [member])

/-- A request for a session creates one where none is established, or leaves the
partition alone. -/
theorem establish_cases (cfg : PeerConfig) (peer : Peer) (request : EstablishRequest) :
    let after := (handleEstablishRequest cfg request peer).1
    let events := (handleEstablishRequest cfg request peer).2
    ((∀ event ∈ events, quiet event = true) ∧ after.registry = peer.registry ∧
      after.ringSem = peer.ringSem ∧ after.slot = peer.slot ∧ after.cursor = peer.cursor) ∨
    ∃ token rest, events = .established token :: rest ∧ (∀ event ∈ rest, quiet event = true) ∧
      peer.registry.state ≠ .established ∧ after.registry = Registry.establish request token ∧
      clientIdFromToken token = cfg.chip ∧ (∀ slot < cfg.slotsPerClient, after.ringSem slot = 0) ∧
      after.cursor = 0 := by
  intro after events
  have answered : ∀ status token config,
      handleEstablishRequest cfg request peer = respond cfg request status token config peer →
      (∀ event ∈ events, quiet event = true) ∧ after.registry = peer.registry ∧
      after.ringSem = peer.ringSem ∧ after.slot = peer.slot ∧ after.cursor = peer.cursor := by
    intro status token config same
    have isAfter : after = (respond cfg request status token config peer).1 := congrArg Prod.fst same
    have areEvents : events = (respond cfg request status token config peer).2 :=
      congrArg Prod.snd same
    rw [isAfter, areEvents]
    exact ⟨respond_quiet request status token config, respond_frame cfg _ request status token config⟩
  have silent : handleEstablishRequest cfg request peer = (peer, []) →
      (∀ event ∈ events, quiet event = true) ∧ after.registry = peer.registry ∧
      after.ringSem = peer.ringSem ∧ after.slot = peer.slot ∧ after.cursor = peer.cursor := by
    intro same
    have isAfter : after = peer := congrArg Prod.fst same
    have areEvents : events = [] := congrArg Prod.snd same
    rw [isAfter, areEvents]
    exact ⟨by simp, rfl, rfl, rfl, rfl⟩
  by_cases dropped :
      establishRegistryAction peer.registry.state (peer.registry.nonceMatches request) = .drop
  · exact Or.inl (silent (by rw [handleEstablishRequest, if_pos dropped]))
  by_cases accepted : requestStatus cfg request = .accepted
  · by_cases replays :
        establishRegistryAction peer.registry.state (peer.registry.nonceMatches request) = .replay
    · by_cases matching : peer.registry.sessionMatches request = true
      · exact Or.inl (answered .accepted peer.registry.clientToken false (by
          rw [handleEstablishRequest, if_neg dropped, if_pos accepted, if_pos replays,
            if_pos matching]))
      · exact Or.inl (silent (by
          rw [handleEstablishRequest, if_neg dropped, if_pos accepted, if_pos replays,
            if_neg matching]))
    · right
      have created : handleEstablishRequest cfg request peer = createSession cfg request peer := by
        rw [handleEstablishRequest, if_neg dropped, if_pos accepted, if_neg replays]
      have isAfter : after = (createSession cfg request peer).1 := congrArg Prod.fst created
      have areEvents : events = (createSession cfg request peer).2 := congrArg Prod.snd created
      obtain ⟨registry, ringSem, _, cursor⟩ := respond_frame cfg { peer with
        registry := Registry.establish request (makeClientToken cfg.chip
          (nextClientGeneration (clientGenerationFromToken peer.registry.clientToken)))
        ringSem := fun slot => if slot < cfg.slotsPerClient then 0 else peer.ringSem slot
        cursor := 0 } request .accepted (makeClientToken cfg.chip
          (nextClientGeneration (clientGenerationFromToken peer.registry.clientToken))) true
      rw [isAfter, areEvents]
      refine ⟨_, _, rfl, respond_quiet _ _ _ _, created_vacant dropped replays, registry,
        (nextToken_spec peer.registry.clientToken cfg.chipBounded).1, fun slot below => ?_, cursor⟩
      exact (congrFun ringSem slot).trans (if_pos below)
  · exact Or.inl (answered (requestStatus cfg request) 0 false (by
      rw [handleEstablishRequest, if_neg dropped, if_neg accepted]))

/-- Quiet events create no session. -/
theorem createdToken_quiet {events : List Event} (silent : ∀ event ∈ events, quiet event = true) :
    createdToken events = none := by
  cases events with
  | nil => rfl
  | cons event rest =>
    have isQuiet := silent event (by simp)
    cases event <;> first | rfl | exact nomatch isQuiet

/-- A request for a session keeps the cursor with the session that is established then. -/
theorem establishRing_inv (inv : CursorInv cfg ring) (request : EstablishRequest) :
    accept observeRequest ring.outstanding (establishRing cfg request ring).2 =
        some (establishRing cfg request ring).1.outstanding ∧
      CursorInv cfg (establishRing cfg request ring).1 := by
  unfold establishRing
  dsimp only
  rcases establish_cases cfg ring.peer request with
    ⟨silent, registry, ringSem, slot, cursor⟩ |
    ⟨token, rest, areEvents, silent, vacant, registry, named, cleared, cursor⟩
  · rw [createdToken_quiet silent]
    refine ⟨accept_quiet _ _ silent, ?_⟩
    constructor <;> dsimp only [cursorSlot, nextSlot]
    · rw [registry, cursor]
      exact inv.agrees
    · rw [registry]
      exact inv.vacant
    · rw [registry]
      exact inv.pending
    · exact inv.inside
    · rw [ringSem, slot]
      exact inv.written
  · rw [areEvents]
    obtain ⟨-, idle⟩ := inv.vacant vacant
    refine ⟨?_, ?_⟩
    · rw [idle, List.map_cons, accept]
      exact accept_quiet none rest silent
    constructor <;> dsimp only [createdToken, cursorSlot, nextSlot]
    · intro _
      rw [registry, cursor]
      exact ⟨rfl, named, rfl⟩
    · intro impossible
      rw [registry] at impossible
      exact absurd rfl impossible
    · exact fun _ impossible => by cases impossible
    · exact inv.inside
    · intro slot isGenuine landed
      exact absurd (cleared slot (inv.inside slot isGenuine)) landed

/-- The session's next request lands in the slot that the cursor names. -/
theorem send_inv (inv : CursorInv cfg ring) {token : Nat} (opcode : OpCode) (seq : Nat)
    (live : ring.token = some token) (idle : ring.outstanding = none) :
    accept observeRequest ring.outstanding (send cfg opcode seq token ring).2 =
        some (send cfg opcode seq token ring).1.outstanding ∧
      CursorInv cfg (send cfg opcode seq token ring).1 := by
  have established : ring.peer.registry.state = .established := by
    by_contra vacant
    exact nomatch live.symm.trans (inv.vacant vacant).1
  obtain ⟨same, named, agrees⟩ := inv.agrees established
  have current : token = ring.peer.registry.clientToken :=
    Option.some.inj (live.symm.trans same)
  have below : nextSlot cfg ring < cfg.slotsPerClient :=
    Nat.mod_lt _ (Nat.lt_of_lt_of_le (by decide) cfg.slots)
  refine ⟨by rw [idle]; rfl, ?_⟩
  unfold send
  constructor <;> dsimp only [land]
  · exact fun _ => ⟨same, named, agrees⟩
  · exact fun vacant => absurd established vacant
  · rintro packet ⟨⟩
    exact current
  · intro slot
    by_cases here : slot = nextSlot cfg ring
    · rw [here]
      exact fun _ => below
    · rw [update_of_ne here]
      exact inv.inside slot
  · intro slot
    by_cases here : slot = nextSlot cfg ring
    · rw [here, update_self]
      exact fun _ _ => ⟨rfl, by rw [update_self]⟩
    · rw [update_of_ne here, update_of_ne here, update_of_ne here]
      intro isGenuine landed
      exact absurd (inv.written slot isGenuine landed).1 here

/-- A late packet changes no slot that the session still owns. -/
theorem late_inv (inv : CursorInv cfg ring) (slot : Nat) (packet : Packet) :
    CursorInv cfg (late slot packet ring) := by
  unfold late
  refine ⟨inv.agrees, inv.vacant, inv.pending, ?_, ?_⟩ <;> intro other
  · dsimp only
    by_cases here : other = slot
    · rw [here, update_self]
      exact fun impossible => nomatch impossible
    · rw [update_of_ne here]
      exact inv.inside other
  · dsimp only [land]
    by_cases here : other = slot
    · rw [here, update_self]
      exact fun impossible => nomatch impossible
    · rw [update_of_ne here, update_of_ne here, update_of_ne here]
      exact inv.written other

/-- Moving the cursor on keeps step with the requests, if it does not wrap wrongly. -/
theorem advanced_agree {cursor answered slots : Nat} (agrees : cursor % slots = answered % slots)
    (proper : cursor + 1 < 2 ^ 32 ∨ slots ∣ 2 ^ 32) :
    (cursor + 1) % 2 ^ 32 % slots = (answered + 1) % slots := by
  have next : (cursor + 1) % slots = (answered + 1) % slots := by
    rw [Nat.add_mod, agrees, ← Nat.add_mod]
  rcases proper with below | divides
  · rw [Nat.mod_eq_of_lt below]
    exact next
  · rw [Nat.mod_mod_of_dvd _ divides]
    exact next

/-- What a visit of the server does, case by case. -/
theorem scan_cases (cfg : PeerConfig) (peer : Peer) :
    let slot := cursorSlot cfg peer
    let packet := peer.slot slot
    (peer.ringSem slot = 0 ∧ scan cfg peer = (peer, [])) ∨
    (peer.ringSem slot ≠ 0 ∧
        (tokenMatches cfg peer packet = false ∨ peer.registry.state ≠ .established) ∧
        scan cfg peer = (consume cfg peer, [.discarded packet])) ∨
    (peer.ringSem slot ≠ 0 ∧ tokenMatches cfg peer packet = true ∧
      peer.registry.state = .established ∧
      ((packet.opcode = .detach ∧
          scan cfg peer = (handleDetach cfg peer, [.executed packet, .retired])) ∨
        (packet.opcode ≠ .detach ∧ scan cfg peer = (consume cfg peer, [.executed packet])))) := by
  intro slot packet
  by_cases landed : peer.ringSem slot = 0
  · exact Or.inl ⟨landed, if_pos landed⟩
  by_cases discards : tokenMatches cfg peer packet = false ∨ peer.registry.state ≠ .established
  · exact Or.inr (Or.inl ⟨landed, discards, (if_neg landed).trans (if_pos discards)⟩)
  have executes := discards
  rw [not_or, Bool.not_eq_false, Decidable.not_not] at executes
  refine Or.inr (Or.inr ⟨landed, executes.1, executes.2, ?_⟩)
  by_cases ends : packet.opcode = .detach
  · exact Or.inl ⟨ends, (if_neg landed).trans ((if_neg discards).trans (if_pos ends))⟩
  · exact Or.inr ⟨ends, (if_neg landed).trans ((if_neg discards).trans (if_neg ends))⟩

/-- A request found by the server is under way, and the visit ends it. -/
theorem found_pending (inv : CursorInv cfg ring)
    (established : ring.peer.registry.state = .established)
    (landed : ring.peer.ringSem (cursorSlot cfg ring.peer) ≠ 0)
    (isGenuine : ring.genuine (cursorSlot cfg ring.peer) = true) :
    ring.outstanding = some (ring.peer.slot (cursorSlot cfg ring.peer)) ∧
      tokenMatches cfg ring.peer (ring.peer.slot (cursorSlot cfg ring.peer)) = true := by
  obtain ⟨-, under⟩ := inv.written _ isGenuine landed
  refine ⟨under, ?_⟩
  have token := inv.pending _ under
  simp [tokenMatches, token, (inv.agrees established).2.1]

/-- After a request was consumed no slot holds a packet of the session. -/
theorem consumed_written (inv : CursorInv cfg ring)
    (here : ring.genuine (cursorSlot cfg ring.peer) = true)
    (landed : ring.peer.ringSem (cursorSlot cfg ring.peer) ≠ 0) (slot : Nat)
    (isGenuine : ring.genuine slot = true) :
    update ring.peer.ringSem (cursorSlot cfg ring.peer) 0 slot = 0 := by
  by_cases same : slot = cursorSlot cfg ring.peer
  · rw [same, update_self]
  · rw [update_of_ne same]
    by_contra other
    exact same ((inv.written slot isGenuine other).1.trans (inv.written _ here landed).1.symm)

/-- A visit that meets no stranger keeps the cursor with the session. -/
theorem visit_inv (inv : CursorInv cfg ring) (undisturbed : Undisturbed cfg ring .visit) :
    accept observeRequest ring.outstanding (visit cfg ring).2 =
        some (visit cfg ring).1.outstanding ∧
      CursorInv cfg (visit cfg ring).1 := by
  unfold visit
  rcases scan_cases cfg ring.peer with
    ⟨-, result⟩ | ⟨landed, stranger, result⟩ |
    ⟨landed, matching, established, ⟨ends, result⟩ | ⟨goesOn, result⟩⟩ <;>
    rw [result] <;> dsimp only
  · rw [if_neg (by simp)]
    exact ⟨rfl, inv⟩
  · have vacant : ring.peer.registry.state ≠ .established := by
      intro established
      obtain ⟨isGenuine, -⟩ := undisturbed established landed
      have matching := (found_pending inv established landed isGenuine).2
      rcases stranger with mismatch | vacant
      · exact absurd (matching.symm.trans mismatch) (by decide)
      · exact vacant established
    rw [if_neg (by simp)]
    refine ⟨by rw [(inv.vacant vacant).2]; rfl, ?_⟩
    refine ⟨fun established => absurd established vacant, inv.vacant, inv.pending, inv.inside, ?_⟩
    intro slot isGenuine there
    by_cases here : slot = cursorSlot cfg ring.peer
    · exact absurd (by rw [here]; exact update_self ..) there
    · exact inv.written slot isGenuine fun zero => there ((update_of_ne here _ _).trans zero)
  · obtain ⟨isGenuine, -⟩ := undisturbed established landed
    obtain ⟨under, -⟩ := found_pending inv established landed isGenuine
    rw [if_pos ⟨isGenuine, by simp⟩]
    refine ⟨by rw [under]; simp [accept, observeRequest], ?_⟩
    refine ⟨fun impossible => (by cases impossible), fun _ => ⟨if_pos ends, rfl⟩,
      fun _ impossible => (by cases impossible), inv.inside, fun slot owned there => ?_⟩
    exact absurd (consumed_written inv isGenuine landed slot owned) there
  · obtain ⟨isGenuine, proper⟩ := undisturbed established landed
    obtain ⟨under, -⟩ := found_pending inv established landed isGenuine
    obtain ⟨same, named, agrees⟩ := inv.agrees established
    rw [if_pos ⟨isGenuine, by simp⟩]
    refine ⟨by rw [under]; simp [accept, observeRequest], ?_⟩
    refine ⟨fun _ => ⟨(if_neg goesOn).trans same, named, advanced_agree agrees proper⟩,
      fun vacant => absurd established vacant, fun _ impossible => (by cases impossible), inv.inside,
      fun slot owned there => ?_⟩
    exact absurd (consumed_written inv isGenuine landed slot owned) there

/-- A step that meets the condition keeps the cursor with the session. -/
theorem ringStep_inv (inv : CursorInv cfg ring) {action : RingAction}
    (undisturbed : Undisturbed cfg ring action)
    (stepped : ringStep cfg ring action = some (after, events)) :
    accept observeRequest ring.outstanding events = some after.outstanding ∧
      CursorInv cfg after := by
  cases action with
  | establish request =>
    have kept := establishRing_inv inv request
    rwa [Option.some.inj stepped] at kept
  | send opcode seq =>
    dsimp only [ringStep] at stepped
    split at stepped
    · next live idle =>
      have kept := send_inv inv opcode seq live idle
      rwa [Option.some.inj stepped] at kept
    · exact nomatch stepped
  | late slot packet =>
    simp only [ringStep, Option.ite_none_right_eq_some] at stepped
    obtain ⟨-, stepped⟩ := stepped
    cases stepped
    exact ⟨rfl, late_inv inv slot packet⟩
  | visit =>
    have kept := visit_inv inv undisturbed
    rwa [Option.some.inj stepped] at kept

/-- An intact request is found: the next visit executes it and clears its slot. -/
theorem intact_found (inv : CursorInv cfg ring) {packet : Packet} (intact : Intact cfg ring packet) :
    cursorSlot cfg ring.peer = nextSlot cfg ring ∧ .executed packet ∈ (scan cfg ring.peer).2 ∧
      (scan cfg ring.peer).1.ringSem (nextSlot cfg ring) = 0 := by
  obtain ⟨under, content, landed⟩ := intact
  have established : ring.peer.registry.state = .established := by
    by_contra vacant
    exact nomatch under.symm.trans (inv.vacant vacant).2
  obtain ⟨-, named, agrees⟩ := inv.agrees established
  have matching : tokenMatches cfg ring.peer packet = true := by
    simp [tokenMatches, inv.pending packet under, named]
  rw [← agrees] at landed content ⊢
  refine ⟨rfl, ?_⟩
  rcases scan_cases cfg ring.peer with
    ⟨absent, -⟩ | ⟨-, stranger, -⟩ | ⟨-, -, -, ⟨-, result⟩ | ⟨-, result⟩⟩
  · exact absurd absent landed
  · rw [content] at stranger
    rcases stranger with mismatch | vacant
    · exact absurd (matching.symm.trans mismatch) (by decide)
    · exact absurd established vacant
  · rw [result, content]
    exact ⟨by simp, update_self ..⟩
  · rw [result, content]
    exact ⟨by simp, update_self ..⟩

/-- A visit executes only packets with the registry's token. -/
theorem executed_token {peer : Peer} {packet : Packet} (executed : .executed packet ∈ (scan cfg peer).2) :
    packet.clientToken = peer.registry.clientToken := by
  rcases scan_cases cfg peer with
    ⟨-, result⟩ | ⟨-, -, result⟩ | ⟨-, matching, -, ⟨-, result⟩ | ⟨-, result⟩⟩ <;>
    rw [result] at executed <;> simp at executed
  all_goals
    subst executed
    simp only [tokenMatches, Bool.and_eq_true, beq_iff_eq] at matching
    exact matching.2.symm

/-- In every run whose visits meet no stranger, the requests of the live session are
executed once each and in order; an intact request lies where the cursor points, and
the next visit executes it; only packets with the current token are executed; and a
discarded packet finds no session established.

Proof: the cursor invariant holds at the start and after every such step. An intact
request is the one under way, so its token is the registry's and the cursor names its
slot. -/
theorem cursor_agreement (cfg : PeerConfig) (seed : Nat) (entry : Registry) (lookup : LookupEntry)
    (slot : Nat → Packet) (trace : List RingEvent) (ring : Ring)
    (run : Run (TakesWhere (ringStep cfg) (Undisturbed cfg)) (coldRing cfg seed entry lookup slot)
      trace ring) :
    accept observeRequest none trace = some ring.outstanding ∧
      (∀ packet, Intact cfg ring packet →
        cursorSlot cfg ring.peer = nextSlot cfg ring ∧ .executed packet ∈ (scan cfg ring.peer).2 ∧
          (scan cfg ring.peer).1.ringSem (nextSlot cfg ring) = 0) ∧
      (∀ packet, .executed packet ∈ (scan cfg ring.peer).2 →
        packet.clientToken = ring.peer.registry.clientToken) ∧
      ∀ packet, Undisturbed cfg ring .visit → .discarded packet ∈ (scan cfg ring.peer).2 →
        ring.peer.registry.state ≠ .established := by
  have simulated := run.simulates observeRequest
    (fun ring pending => pending = ring.outstanding ∧ CursorInv cfg ring)
    ⟨rfl, cursorInv_cold seed entry lookup slot⟩ ?_
  · obtain ⟨_, accepted, rfl, inv⟩ := simulated
    refine ⟨accepted, fun packet => intact_found inv, fun packet => executed_token, ?_⟩
    intro packet undisturbed discarded established
    rcases scan_cases cfg ring.peer with
      ⟨-, result⟩ | ⟨landed, stranger, -⟩ | ⟨-, -, -, ⟨-, result⟩ | ⟨-, result⟩⟩
    · simp [result] at discarded
    · obtain ⟨isGenuine, -⟩ := undisturbed established landed
      have matching := (found_pending inv established landed isGenuine).2
      rcases stranger with mismatch | vacant
      · exact absurd (matching.symm.trans mismatch) (by decide)
      · exact vacant established
    · simp [result] at discarded
    · simp [result] at discarded
  · rintro state events after _ ⟨rfl, inv⟩ ⟨action, undisturbed, stepped⟩
    exact ⟨_, (ringStep_inv inv undisturbed stepped).1, rfl, (ringStep_inv inv undisturbed stepped).2⟩

/-! ## A late packet between two sessions -/

/-- The ring before the first request of the sample deployment. -/
def sampleRing : Ring := coldRing sampleConfig 1 samplePeer.registry ⟨0, 1⟩ fun _ => ⟨.ping, 0, 0⟩

/-- The token of the first session of the sample deployment. -/
def sampleToken : Nat := makeClientToken 3 2

theorem cursor_agreement_ping :
    ∃ trace ring, accept observeRequest none trace = some none ∧ ring.answered = 1 ∧
      Run (TakesWhere (ringStep sampleConfig) (Undisturbed sampleConfig)) sampleRing trace ring := by
  have run : Run (TakesWhere (ringStep sampleConfig) (Undisturbed sampleConfig)) sampleRing _ _ :=
    .next (.next (.next .start ⟨.establish sampleRequest, trivial, rfl⟩)
      ⟨.send .ping 0, trivial, rfl⟩)
      ⟨.visit, fun _ _ => ⟨rfl, Or.inl (by decide)⟩, rfl⟩
  exact ⟨_, _, (cursor_agreement sampleConfig 1 _ _ _ _ _ run).1, rfl, run⟩

/-- A packet of the first session arrives after the second was created. The server
discards it and moves its cursor, and the second session's first request lies in a slot
that the cursor does not name. -/
theorem discard_shifts_cursor :
    ∃ trace ring packet,
      Run (Takes (ringStep sampleConfig)) sampleRing trace ring ∧
        Intact sampleConfig ring packet ∧
        cursorSlot sampleConfig ring.peer ≠ nextSlot sampleConfig ring := by
  have executed : Run.execute (ringStep sampleConfig) sampleRing
      [.establish sampleRequest, .send .detach 0, .visit,
        .establish { sampleRequest with nonceLow := 8 },
        .late 0 ⟨.ping, 1, sampleToken⟩, .visit, .send .ping 2] = some (_, _) := rfl
  exact ⟨_, _, _, Run.start.execute executed, ⟨rfl, rfl, by decide⟩, by decide⟩

end KvCache.Session
