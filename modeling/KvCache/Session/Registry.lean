import KvCache.Foundation.Run
import Mathlib

/-!
# The session registry and ESTABLISH

The server keeps one registry entry for every peer chip. A client proposes a session
with a nonce of its own; the server creates the session, repeats its answer, or stays
silent. A session ends with DETACH, which retires the entry but keeps its token, so
that the next token can differ.

The handler reads the request, decides by the state of the entry and the nonce, checks
the fields, and only then changes anything: creating a session writes the entry and
clears the semaphores of the peer's ring partition. The answer is sent last, if the
peer has a connection; a created session stays created when it is not sent.

In the deployment with a static inter-mesh link the client supplies the route of the
answer, and the standard deployment requires the route word to be zero.
-/

namespace KvCache.Session

/-! ## Tokens -/

/-- Bits of the client id in a token. -/
def clientIdBits : Nat := 5

def clientIdMask : Nat := 2 ^ clientIdBits - 1

def clientGenerationMask : Nat := 2 ^ (32 - clientIdBits) - 1

/-- Peers of a server. -/
def bootstrapPeerSlots : Nat := 32

def makeClientToken (clientId generation : Nat) : Nat :=
  ((generation &&& clientGenerationMask) <<< clientIdBits) ||| (clientId &&& clientIdMask)

def clientIdFromToken (token : Nat) : Nat := token &&& clientIdMask

def clientGenerationFromToken (token : Nat) : Nat := token >>> clientIdBits

/-- The generation after the given one; zero is skipped. -/
def nextClientGeneration (generation : Nat) : Nat :=
  let next := (generation + 1) &&& clientGenerationMask
  if next = 0 then 1 else next

/-! ## Words -/

inductive RegistryState where
  | empty
  | established
  | retired
deriving DecidableEq, Repr

inductive RegistryAction where
  | create
  | replay
  | drop
deriving DecidableEq, Repr

inductive ResponseStatus where
  | accepted
  | bootstrapVersionMismatch
  | wireVersionMismatch
  | capabilityMismatch
  | invalidRequest
  | invalidPeer
  | dramGeometryMismatch
deriving DecidableEq, Repr

/-- The words of an ESTABLISH request. -/
structure EstablishRequest where
  magic : Nat
  bootstrapVersion : Nat
  wireLayoutVersion : Nat
  requiredCapabilities : Nat
  clientMeshId : Nat
  clientChipId : Nat
  clientNocX : Nat
  clientNocY : Nat
  responseAddr : Nat
  responseSemAddr : Nat
  nonceLow : Nat
  nonceHigh : Nat
  clientL1Base : Nat
  recvBufferAddr : Nat
  clientValueRingDepth : Nat
  returnRoute : Nat
  numDramChannels : Nat
  dramGridX : Nat
  dramGridY : Nat
  reservedTail : Nat
deriving DecidableEq, Repr

/-- The words of the response template that the checks read. -/
structure ResponseTemplate where
  capabilities : Nat
  wireLayoutVersion : Nat
  reserved : Nat
  valueRingDepth : Nat
  numDramChannels : Nat
  dramGridX : Nat
  dramGridY : Nat
deriving DecidableEq, Repr

/-- The words of a response that depend on the request. -/
structure EstablishResponse where
  status : ResponseStatus
  nonceLow : Nat
  nonceHigh : Nat
  clientToken : Nat
deriving DecidableEq, Repr

/-- A registry entry. -/
structure Registry where
  clientMeshId : Nat
  clientChipId : Nat
  clientNocX : Nat
  clientNocY : Nat
  clientL1Base : Nat
  recvBufferAddr : Nat
  returnRoute : Nat
  nonceLow : Nat
  nonceHigh : Nat
  clientToken : Nat
  state : RegistryState
  responseAddr : Nat
  responseSemAddr : Nat
  clientValueRingDepth : Nat
deriving DecidableEq, Repr

/-- An entry of the peer lookup table. -/
structure LookupEntry where
  connIdx : Nat
  routeWord : Nat
deriving DecidableEq, Repr

/-- The connection index of a peer without a connection. -/
def peerLookupEmptySentinel : Nat := 0xFFFFFFFF

/-- The deployments: the standard one, and the static link to a remote mesh. -/
inductive Link where
  | standard
  | staticIntermesh (remoteMesh : Nat)
deriving DecidableEq, Repr

/-- What does not change at the server: the link, the template, the peer's chip and the
slots of its ring partition. -/
structure PeerConfig where
  link : Link
  template : ResponseTemplate
  chip : Nat
  slotsPerClient : Nat
  chipBounded : chip < bootstrapPeerSlots
  slots : 2 ≤ slotsPerClient

/-! ## The decision and the checks -/

def establishRegistryAction (state : RegistryState) (nonceMatches : Bool) : RegistryAction :=
  match state with
  | .empty => .create
  | .established => if nonceMatches then .replay else .drop
  | .retired => if nonceMatches then .drop else .create

def Registry.nonceMatches (entry : Registry) (request : EstablishRequest) : Bool :=
  entry.nonceLow == request.nonceLow && entry.nonceHigh == request.nonceHigh

/-- The session fields of a request are those of the entry. -/
def Registry.sessionMatches (entry : Registry) (request : EstablishRequest) : Bool :=
  entry.clientMeshId == request.clientMeshId && entry.clientChipId == request.clientChipId &&
    entry.clientNocX == request.clientNocX && entry.clientNocY == request.clientNocY &&
    entry.clientL1Base == request.clientL1Base && entry.recvBufferAddr == request.recvBufferAddr &&
    entry.returnRoute == request.returnRoute && entry.responseAddr == request.responseAddr &&
    entry.responseSemAddr == request.responseSemAddr &&
    entry.clientValueRingDepth == request.clientValueRingDepth

/-- The entry of a created session. -/
def Registry.establish (request : EstablishRequest) (token : Nat) : Registry where
  clientMeshId := request.clientMeshId
  clientChipId := request.clientChipId
  clientNocX := request.clientNocX
  clientNocY := request.clientNocY
  clientL1Base := request.clientL1Base
  recvBufferAddr := request.recvBufferAddr
  returnRoute := request.returnRoute
  nonceLow := request.nonceLow
  nonceHigh := request.nonceHigh
  clientToken := token
  state := .established
  responseAddr := request.responseAddr
  responseSemAddr := request.responseSemAddr
  clientValueRingDepth := request.clientValueRingDepth

def returnRouteValid (route : Nat) : Bool := route &&& 2 ^ 31 != 0

def returnRouteDstChip (route : Nat) : Nat := route &&& 0x1F

def returnRouteDstMesh (route : Nat) : Nat := (route >>> 5) &&& 0xFFFF

/-- Whether the route word of a request may be used for the answer. -/
def returnRouteUsable (remoteMesh chip : Nat) (request : EstablishRequest) : Bool :=
  returnRouteValid request.returnRoute &&
    returnRouteDstMesh request.returnRoute == request.clientMeshId &&
    returnRouteDstMesh request.returnRoute == remoteMesh &&
    returnRouteDstChip request.returnRoute == request.clientChipId && request.clientChipId == chip

/-- The route word is the one that the deployment asks for. -/
def returnRouteAccepted (cfg : PeerConfig) (request : EstablishRequest) : Bool :=
  match cfg.link with
  | .standard => request.returnRoute == 0
  | .staticIntermesh remoteMesh => returnRouteUsable remoteMesh cfg.chip request

def bootstrapMagic : Nat := 0x4B564D41

def bootstrapProtocolVersion : Nat := 4

/-- The capabilities that every request has to ask for. -/
def requiredCapabilities : Nat := 2 ^ 6 - 1

def establishCapabilitiesAreCompatible (requested offered required : Nat) : Bool :=
  requested &&& offered == requested && requested &&& required == required

/-- The first check that a request fails, or `accepted`. -/
def requestStatus (cfg : PeerConfig) (request : EstablishRequest) : ResponseStatus :=
  let template := cfg.template
  if request.magic ≠ bootstrapMagic ∨ request.bootstrapVersion ≠ bootstrapProtocolVersion then
    .bootstrapVersionMismatch
  else if request.wireLayoutVersion ≠ template.wireLayoutVersion then .wireVersionMismatch
  else if establishCapabilitiesAreCompatible request.requiredCapabilities template.capabilities
      requiredCapabilities = false then .capabilityMismatch
  else if returnRouteAccepted cfg request = false ∨ request.reservedTail ≠ 0 ∨
      template.reserved ≠ 0 ∨ request.clientValueRingDepth ≠ template.valueRingDepth then
    .invalidRequest
  else if request.clientChipId ≠ cfg.chip ∨ bootstrapPeerSlots ≤ request.clientChipId ∨
      63 < request.clientNocX ∨ 63 < request.clientNocY ∨ request.responseAddr = 0 ∨
      request.responseSemAddr = 0 ∨ request.clientL1Base = 0 ∨ request.clientL1Base % 32 ≠ 0 ∨
      request.recvBufferAddr = 0 ∨ request.recvBufferAddr % 16 ≠ 0 then .invalidPeer
  else if request.numDramChannels ≠ template.numDramChannels ∨
      request.dramGridX ≠ template.dramGridX ∨ request.dramGridY ≠ template.dramGridY then
    .dramGeometryMismatch
  else .accepted

/-! ## The peer at the server -/

inductive OpCode where
  | ping
  | putChunk
  | getChunkReq
  | exists_
  | remove
  | moveToHost
  | moveToDevice
  | detach
  | commitBarrier
  | other (code : Nat)
deriving DecidableEq, Repr

/-- The header words of a packet. -/
structure Packet where
  opcode : OpCode
  seq : Nat
  clientToken : Nat
deriving DecidableEq, Repr

/-- What the server keeps for one peer: its registry entry and lookup entry, and the
slots, the semaphores and the cursor of its ring partition. -/
structure Peer where
  registry : Registry
  lookup : LookupEntry
  slot : Nat → Packet
  ringSem : Nat → Nat
  cursor : Nat

/-- What the server does for a peer. -/
inductive Event where
  | established (token : Nat)
  | configured
  | answered (response : EstablishResponse)
  | executed (packet : Packet)
  | discarded (packet : Packet)
  | retired
deriving DecidableEq, Repr

/-- A state with the events of the step that led to it. -/
abbrev Outcome := Peer × List Event

/-- An answer can be sent to the peer. -/
def deliverable (peer : Peer) (request : EstablishRequest) : Bool :=
  peer.lookup.connIdx != peerLookupEmptySentinel && request.responseAddr != 0 &&
    request.responseSemAddr != 0 && decide (request.clientNocX ≤ 63) &&
    decide (request.clientNocY ≤ 63)

/-- The lookup entry after an answer: an accepted request over a static link leaves its
route. -/
def routedLookup (cfg : PeerConfig) (request : EstablishRequest) (status : ResponseStatus)
    (lookup : LookupEntry) : LookupEntry :=
  match cfg.link with
  | .standard => lookup
  | .staticIntermesh remoteMesh =>
    if returnRouteUsable remoteMesh cfg.chip request ∧ status = .accepted then
      { lookup with routeWord := request.returnRoute }
    else lookup

/-- Answer a request, if the answer can be sent; the answer to a created session
follows the session config. -/
def respond (cfg : PeerConfig) (request : EstablishRequest) (status : ResponseStatus)
    (token : Nat) (publishSessionConfig : Bool) (peer : Peer) : Outcome :=
  if deliverable peer request then
    ({ peer with lookup := routedLookup cfg request status peer.lookup },
      (if publishSessionConfig then [.configured] else []) ++
        [.answered ⟨status, request.nonceLow, request.nonceHigh, token⟩])
  else (peer, [])

/-- Create the session of an accepted request: the partition restarts with it. -/
def createSession (cfg : PeerConfig) (request : EstablishRequest) (peer : Peer) : Outcome :=
  let generation := nextClientGeneration (clientGenerationFromToken peer.registry.clientToken)
  let token := makeClientToken cfg.chip generation
  let (after, events) := respond cfg request .accepted token true
    { peer with
      registry := Registry.establish request token
      ringSem := fun slot => if slot < cfg.slotsPerClient then 0 else peer.ringSem slot
      cursor := 0 }
  (after, .established token :: events)

/-- ESTABLISH. -/
def handleEstablishRequest (cfg : PeerConfig) (request : EstablishRequest) (peer : Peer) :
    Outcome :=
  let action :=
    establishRegistryAction peer.registry.state (peer.registry.nonceMatches request)
  if action = .drop then (peer, [])
  else if requestStatus cfg request = .accepted then
    if action = .replay then
      if peer.registry.sessionMatches request then
        respond cfg request .accepted peer.registry.clientToken false peer
      else (peer, [])
    else createSession cfg request peer
  else respond cfg request (requestStatus cfg request) 0 false peer

/-! ## The decision -/

theorem establishRegistryAction_replay {state : RegistryState} {nonceMatches : Bool} :
    establishRegistryAction state nonceMatches = .replay ↔
      state = .established ∧ nonceMatches = true := by
  cases state <;> cases nonceMatches <;> decide

theorem establishRegistryAction_create {state : RegistryState} {nonceMatches : Bool} :
    establishRegistryAction state nonceMatches = .create ↔
      state = .empty ∨ (state = .retired ∧ nonceMatches = false) := by
  cases state <;> cases nonceMatches <;> decide

/-- A created session replaces none that is established. -/
theorem created_vacant {state : RegistryState} {nonceMatches : Bool}
    (notDropped : establishRegistryAction state nonceMatches ≠ .drop)
    (notReplayed : establishRegistryAction state nonceMatches ≠ .replay) :
    state ≠ .established := by
  rintro rfl
  cases nonceMatches <;> simp [establishRegistryAction] at notDropped notReplayed

/-! ## Tokens name the peer and a generation -/

theorem makeClientToken_eq (clientId generation : Nat) :
    makeClientToken clientId generation = (generation % 2 ^ 27) * 32 + clientId % 32 := by
  have low : clientId &&& clientIdMask = clientId % 2 ^ 5 := Nat.and_two_pow_sub_one_eq_mod _ 5
  have high : generation &&& clientGenerationMask = generation % 2 ^ 27 :=
    Nat.and_two_pow_sub_one_eq_mod _ 27
  have bounded : clientId % 2 ^ 5 < 2 ^ 5 := Nat.mod_lt _ (by decide)
  rw [makeClientToken, low, high, clientIdBits, ← Nat.shiftLeft_add_eq_or_of_lt bounded]
  exact congrArg (· + _) (Nat.shiftLeft_eq _ 5)

theorem clientIdFromToken_make {clientId : Nat} (generation : Nat)
    (bounded : clientId < bootstrapPeerSlots) :
    clientIdFromToken (makeClientToken clientId generation) = clientId := by
  have mask : ∀ token, clientIdFromToken token = token % 2 ^ 5 := fun token =>
    Nat.and_two_pow_sub_one_eq_mod token 5
  rw [bootstrapPeerSlots] at bounded
  rw [mask, makeClientToken_eq]
  omega

theorem clientGenerationFromToken_make (clientId generation : Nat) :
    clientGenerationFromToken (makeClientToken clientId generation) = generation % 2 ^ 27 := by
  rw [clientGenerationFromToken, makeClientToken_eq, Nat.shiftRight_eq_div_pow, clientIdBits]
  omega

theorem nextClientGeneration_eq (generation : Nat) :
    nextClientGeneration generation =
      if (generation + 1) % 2 ^ 27 = 0 then 1 else (generation + 1) % 2 ^ 27 := by
  have mask : (generation + 1) &&& clientGenerationMask = (generation + 1) % 2 ^ 27 :=
    Nat.and_two_pow_sub_one_eq_mod _ 27
  rw [nextClientGeneration, mask]

/-- A new generation is a word of 27 bits, is not zero and is not the old one, also when
the counter wraps. -/
theorem nextClientGeneration_spec (generation : Nat) :
    0 < nextClientGeneration generation ∧ nextClientGeneration generation < 2 ^ 27 ∧
      nextClientGeneration generation ≠ generation := by
  rw [nextClientGeneration_eq]
  split <;> omega

/-- The token of a new session names the peer, has a proper generation, and is not the
token that it replaces. -/
theorem nextToken_spec {chip : Nat} (old : Nat) (bounded : chip < bootstrapPeerSlots) :
    let token := makeClientToken chip (nextClientGeneration (clientGenerationFromToken old))
    clientIdFromToken token = chip ∧ 0 < clientGenerationFromToken token ∧
      clientGenerationFromToken token < 2 ^ 27 ∧ token ≠ old := by
  intro token
  obtain ⟨positive, below, different⟩ := nextClientGeneration_spec (clientGenerationFromToken old)
  have generation : clientGenerationFromToken token =
      nextClientGeneration (clientGenerationFromToken old) := by
    rw [clientGenerationFromToken_make, Nat.mod_eq_of_lt below]
  refine ⟨clientIdFromToken_make _ bounded, generation ▸ positive, generation ▸ below, ?_⟩
  intro same
  exact different (generation.symm.trans (congrArg clientGenerationFromToken same))

end KvCache.Session
