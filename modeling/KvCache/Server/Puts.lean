import KvCache.Directory.Effects
import KvCache.Server.SessionTurns

/-!
# The lease words, the grants and the PUTs in flight

NCRISC keeps one lease for every client and at most one grant. While a prepare is
under way both travel through the mailbox, so the account of who holds what is read
off the phase of NCRISC and the response. A client may write to a block as soon as it
knows the block: the lease in its descriptor, or the grant of its PUT. The account
agrees with every such destination.
-/

namespace KvCache.Server

open Directory Function Layout

/-- Who holds which lease and which grant. The grant of a client stays known to it
until its PUT completes; the PUT in progress ends with its publication. -/
structure Account where
  lease : Nat → Option Lease
  granted : Nat → Option PutGrant
  putting : Option (Nat × PutGrant)

/-- The grant of one client alone. -/
def grantOnly (client : Nat) (grant : Option PutGrant) : Nat → Option PutGrant :=
  update (fun _ => none) client grant

/-- The account of NCRISC and the response mailbox. -/
def account (ncrisc : Ncrisc) (response : Option DirResponse) : Account :=
  match ncrisc.phase, response with
  | .preparing client _, some (.prepared response) =>
    ⟨update ncrisc.putLease client response.lease, grantOnly client response.grant,
      response.grant.map (client, ·)⟩
  | .preparing client prior, _ => ⟨update ncrisc.putLease client prior, fun _ => none, none⟩
  | .receiving client grant, _ =>
    ⟨ncrisc.putLease, grantOnly client (some grant), some (client, grant)⟩
  | .publishing client grant, some (.published true) =>
    ⟨ncrisc.putLease, grantOnly client (some grant), none⟩
  | .publishing client grant, _ =>
    ⟨ncrisc.putLease, grantOnly client (some grant), some (client, grant)⟩
  | _, _ => ⟨ncrisc.putLease, fun _ => none, none⟩

/-- The account of the server. -/
def accountOf (sys : Sys) : Account := account sys.ncrisc sys.words.response

/-- A PUT as its client may send it. -/
structure WellFormed (cfg : Config) (flight : PutFlight) : Prop where
  keyPositive : 0 < flight.key.length
  keyBounded : flight.key.length ≤ cfg.geometry.maxKeyLen
  lenPositive : 0 < flight.value.length
  lenBounded : flight.value.length ≤ cfg.geometry.maxValueBytes
  sentBounded : flight.sent ≤ chunkCountFor flight.value.length
  landed : flight.landed = true → flight.sent = chunkCountFor flight.value.length ∧
    flight.dest.isSome = true
  uses : flight.usesLease = true → flight.dest.isSome = true

/-- A destination is the granted block, or before the grant the leased one. -/
def Aimed (account : Account) (client : Nat) (flight : PutFlight) (dest : Nat) : Prop :=
  match account.granted client with
  | some grant => dest = grant.valueByteOff
  | none => flight.usesLease = true ∧ ∃ lease, account.lease client = some lease ∧
      leaseFits flight.value.length lease = true ∧ dest = lease.valueByteOff

/-- The clients and the reservation of the directory agree with the account. -/
structure Puts (cfg : Config) (account : Account) (client : Nat → Client)
    (reservedSlot : Option Nat) : Prop where
  reserved : reservedSlot = account.putting.map fun putting => putting.2.dirSlot
  detached : ∀ c, (client c).established = false → (client c).operation = none
  formed : ∀ c flight, (client c).flight = some flight → WellFormed cfg flight
  known : ∀ c lease, (client c).lease = some lease → (client c).flight = none →
    account.lease c = some lease
  aim : ∀ c flight dest, (client c).flight = some flight → flight.dest = some dest →
    Aimed account c flight dest
  leaseAligned : ∀ c lease, account.lease c = some lease → maxChunkValueBytes ∣ lease.valueByteOff
  grants : ∀ c grant, account.granted c = some grant → maxChunkValueBytes ∣ grant.valueByteOff ∧
    ∃ flight, (client c).flight = some flight ∧
      grant.blockOrder = buddyOrderForValueBytes flight.value.length
  current : ∀ c grant, account.putting = some (c, grant) → account.granted c = some grant

namespace Puts

variable {cfg : Config} {sys after : Sys} {events : List Event}
variable {books : Account} {client : Nat → Client} {reservedSlot : Option Nat}

/-- A client whose PUT does not change may change its descriptor only to the lease it
holds. -/
theorem replace (inv : Puts cfg books client reservedSlot) {c : Nat} {session : Client}
    (detached : session.established = false → session.operation = none)
    (sameFlight : session.flight = (client c).flight)
    (known : ∀ lease, session.lease = some lease → session.flight = none →
      books.lease c = some lease) :
    Puts cfg books (update client c session) reservedSlot := by
  have flights : ∀ d, (update client c session d).flight = (client d).flight := by
    intro d
    by_cases same : d = c
    · subst same
      rw [update_self, sameFlight]
    · rw [update_of_ne same]
  refine ⟨inv.reserved, ?_, ?_, ?_, ?_, inv.leaseAligned, ?_, inv.current⟩
  · intro d
    by_cases same : d = c
    · subst same
      rwa [update_self]
    · rw [update_of_ne same]
      exact inv.detached d
  · intro d flight sends
    exact inv.formed d flight (flights d ▸ sends)
  · intro d
    by_cases same : d = c
    · subst same
      rw [update_self]
      exact known
    · rw [update_of_ne same]
      exact inv.known d
  · intro d flight dest sends
    exact inv.aim d flight dest (flights d ▸ sends)
  · intro d grant granted
    rw [flights d]
    exact inv.grants d grant granted

/-- A PUT may start or advance: its value and its way to the block stay. -/
theorem advance (inv : Puts cfg books client reservedSlot) {c : Nat} {next : PutFlight}
    (established : (client c).established = true) (formed : WellFormed cfg next)
    (sameValue : ∀ flight, (client c).flight = some flight → next.value = flight.value)
    (aim : ∀ dest, next.dest = some dest → Aimed books c next dest) :
    Puts cfg books
      (update client c { client c with operation := some (.put next) }) reservedSlot := by
  have isNext : (update client c { client c with operation := some (.put next) } c).flight =
      some next := by
    rw [update_self]
    rfl
  have others : ∀ d, d ≠ c →
      update client c { client c with operation := some (.put next) } d = client d :=
    fun d different => update_of_ne different _ _
  refine ⟨inv.reserved, ?_, ?_, ?_, ?_, inv.leaseAligned, ?_, inv.current⟩
  · intro d idle
    by_cases same : d = c
    · subst same
      rw [update_self] at idle
      exact absurd (idle.symm.trans established) Bool.false_ne_true
    · rw [others d same] at idle ⊢
      exact inv.detached d idle
  · intro d other isOther
    by_cases same : d = c
    · subst same
      rw [isNext] at isOther
      cases isOther
      exact formed
    · rw [others d same] at isOther
      exact inv.formed d other isOther
  · intro d lease holds noFlight
    by_cases same : d = c
    · subst same
      rw [isNext] at noFlight
      exact nomatch noFlight
    · rw [others d same] at holds noFlight
      exact inv.known d lease holds noFlight
  · intro d other dest isOther
    by_cases same : d = c
    · subst same
      rw [isNext] at isOther
      cases isOther
      exact aim dest
    · rw [others d same] at isOther
      exact inv.aim d other dest isOther
  · intro d grant granted
    obtain ⟨aligned, other, isOther, sized⟩ := inv.grants d grant granted
    by_cases same : d = c
    · subst same
      exact ⟨aligned, next, isNext, by rw [sameValue other isOther]; exact sized⟩
    · rw [others d same]
      exact ⟨aligned, other, isOther, sized⟩

/-- A client whose operation is no PUT completes it. -/
theorem complete (inv : Puts cfg books client reservedSlot) {c : Nat}
    (noPut : (client c).flight = none) :
    Puts cfg books (update client c { client c with operation := none }) reservedSlot :=
  inv.replace (fun _ => rfl) noPut.symm fun _ holds _ => inv.known _ _ holds noPut

/-- A client that sends a PUT has a session. -/
theorem sending (inv : Puts cfg books client reservedSlot) {c : Nat} {flight : PutFlight}
    (sends : (client c).flight = some flight) : (client c).established = true := by
  cases established : (client c).established with
  | true => rfl
  | false =>
    rw [Client.flight_eq, inv.detached c established] at sends
    exact nomatch sends

/-- A client that sends no PUT has no grant. -/
theorem ungranted (inv : Puts cfg books client reservedSlot) {c : Nat}
    (noPut : (client c).flight = none) : books.granted c = none := by
  cases granted : books.granted c with
  | none => rfl
  | some grant =>
    obtain ⟨_, flight, sends, _⟩ := inv.grants c grant granted
    exact nomatch noPut.symm.trans sends

/-- The aim of a PUT does not depend on how far it is. -/
theorem aim_of (inv : Puts cfg books client reservedSlot) {c : Nat} {flight next : PutFlight}
    (sends : (client c).flight = some flight) (sameDest : next.dest = flight.dest)
    (sameValue : next.value = flight.value) (sameUse : next.usesLease = flight.usesLease)
    (dest : Nat) (isDest : next.dest = some dest) : Aimed books c next dest := by
  have aimed := inv.aim c flight dest sends (sameDest ▸ isDest)
  unfold Aimed at aimed ⊢
  rwa [sameValue, sameUse]

end Puts

/-- A new PUT is well formed. -/
theorem newFlight_formed {cfg : Config} {lease : Option Lease} {key : HashIndex.Key}
    {value : Bytes} {seq : Nat} (keyPositive : 0 < key.length)
    (keyBounded : key.length ≤ cfg.geometry.maxKeyLen) (lenPositive : 0 < value.length)
    (lenBounded : value.length ≤ cfg.geometry.maxValueBytes) :
    WellFormed cfg (newFlight lease key value seq) := by
  refine ⟨keyPositive, keyBounded, lenPositive, lenBounded, Nat.zero_le _,
    fun impossible => (nomatch impossible), fun uses => ?_⟩
  cases lease with
  | none => exact nomatch uses
  | some lease =>
    have fits : leaseFits value.length lease = true := uses
    simp [newFlight, Option.filter, fits]

/-! ## Steps of NCRISC and of the clients -/

section Session

variable {cfg : Config} {sys after : Sys} {events : List Event}

/-- Where NCRISC serves no PUT, the account is its lease words. -/
theorem account_idle {ncrisc : Ncrisc} {response : Option DirResponse}
    (idle : ncrisc.phase = .idle ∨ (∃ c target, ncrisc.phase = .waitingPrefix c target) ∨
      ∃ c, ncrisc.phase = .awaiting c) :
    account ncrisc response = ⟨ncrisc.putLease, fun _ => none, none⟩ := by
  unfold account
  rcases idle with idle | ⟨c, target, idle⟩ | ⟨c, idle⟩ <;> rw [idle]

theorem accountOf_free {c : Nat} (free : sys.ncrisc.phase = .idle ∨
    ∃ target, sys.ncrisc.phase = .waitingPrefix c target) :
    accountOf sys = ⟨sys.ncrisc.putLease, fun _ => none, none⟩ := by
  rcases free with idle | ⟨target, idle⟩
  · exact account_idle (Or.inl idle)
  · exact account_idle (Or.inr (Or.inl ⟨c, target, idle⟩))

/-- The state after NCRISC completed a PUT. -/
def putFinished (client : Nat) (sys : Sys) : Sys :=
  setClient client { sys.client client with lease := sys.ncrisc.putLease client, operation := none }
    { Server.takeResponse sys with
      ncrisc := { sys.ncrisc with
        phase := .idle
        putIssuedTotal := sys.ncrisc.putIssuedTotal + 1 } }

/-- The grants known to the clients change only when a PUT completes. -/
theorem account_session (turn : SessionTurn cfg sys after events) :
    accountOf after = accountOf sys ∨
      ∃ c grant, sys.ncrisc.phase = .publishing c grant ∧
        sys.words.response = some (.published true) ∧ after = putFinished c sys := by
  cases turn with
  | prepare idle =>
    rw [accountOf_free (c := 0) (Or.inl idle)]
    simp [accountOf, account, serveAs, Server.ask]
  | waitPrefix idle => exact Or.inl (accountOf_free (c := 0) (Or.inl idle)).symm
  | ask free | finish free => exact Or.inl (accountOf_free free).symm
  | refuseGet idle => exact Or.inl (accountOf_free (c := 0) (Or.inl idle)).symm
  | refuseExists waited => exact Or.inl (accountOf_free (Or.inr ⟨_, waited⟩)).symm
  | takeResponse awaits => exact Or.inl (account_idle (Or.inr (Or.inr ⟨_, awaits⟩))).symm
  | retryPrepare prepares sends answered refused =>
    simp [accountOf, account, serveAs, Server.ask, prepares, answered, refused, grantOnly]
  | takeGrant prepares sends answered granted =>
    simp [accountOf, account, setOperation, setClient, Server.takeResponse, prepares, answered,
      granted]
  | publish receives sends landed =>
    simp [accountOf, account, serveAs, Server.ask, receives]
  | retryPublish publishes sends answered =>
    simp [accountOf, account, Server.ask, publishes, answered]
  | finishPut publishes sends answered =>
    exact Or.inr ⟨_, _, publishes, answered, rfl⟩
  | detach | establish | startPut | startOperation | streamChunk | landPut => exact Or.inl rfl

/-- NCRISC completes a published PUT: the client learns its lease and forgets its
grant. -/
theorem Puts.finishPut (inv : Puts cfg (accountOf sys) sys.client sys.dir.reservedSlot) {c : Nat}
    {grant : PutGrant} (publishes : sys.ncrisc.phase = .publishing c grant)
    (answered : sys.words.response = some (.published true)) :
    Puts cfg (accountOf (putFinished c sys)) (putFinished c sys).client
      (putFinished c sys).dir.reservedSlot := by
  have before : accountOf sys = ⟨sys.ncrisc.putLease, grantOnly c (some grant), none⟩ := by
    simp [accountOf, account, publishes, answered]
  rw [before] at inv
  have others : ∀ d, d ≠ c → (putFinished c sys).client d = sys.client d :=
    fun d different => update_of_ne different _ _
  have finished : (putFinished c sys).client c =
      { sys.client c with lease := sys.ncrisc.putLease c, operation := none } := update_self ..
  have noFlight : ((putFinished c sys).client c).flight = none := by rw [finished]; rfl
  refine ⟨inv.reserved, fun d idle => ?_, fun d other isOther => ?_, fun d lease holds none_ => ?_,
    fun d other dest isOther isDest => ?_, inv.leaseAligned, fun _ _ impossible => (nomatch impossible),
    fun _ _ impossible => (nomatch impossible)⟩
  all_goals by_cases same : d = c
  · rw [same, finished]
  · rw [others d same] at idle ⊢
    exact inv.detached d idle
  · rw [same, noFlight] at isOther
    exact nomatch isOther
  · rw [others d same] at isOther
    exact inv.formed d other isOther
  · rw [same, finished] at holds
    rw [same]
    exact holds
  · rw [others d same] at holds none_
    exact inv.known d lease holds none_
  · rw [same, noFlight] at isOther
    exact nomatch isOther
  · rw [others d same] at isOther
    have aimed := inv.aim d other dest isOther isDest
    simp only [Aimed, grantOnly, update_of_ne same] at aimed
    exact aimed

/-- A step of NCRISC or of a client. -/
theorem Puts.session (inv : Puts cfg (accountOf sys) sys.client sys.dir.reservedSlot)
    (turn : SessionTurn cfg sys after events)
    (noPut : ∀ c, sys.ncrisc.phase = .awaiting c → flightOf c sys = none) :
    Puts cfg (accountOf after) after.client after.dir.reservedSlot := by
  rcases account_session turn with same | ⟨c, grant, publishes, answered, rfl⟩
  · rw [same]
    cases turn with
    | prepare | ask | waitPrefix | retryPrepare | publish | retryPublish => exact inv
    | finish free noFlight => exact inv.complete noFlight
    | refuseGet idle asked =>
      exact inv.complete (flightOf_none asked fun _ impossible => by cases impossible)
    | refuseExists waited asked =>
      exact inv.complete (flightOf_none asked fun _ impossible => by cases impossible)
    | detach idle asked =>
      exact inv.replace (fun _ => rfl)
        (flightOf_none asked fun _ impossible => by cases impossible).symm fun _ impossible =>
        by cases impossible
    | takeResponse awaits answered => exact inv.complete (noPut _ awaits)
    | @takeGrant c prior flight response grant prepares sends answered granted =>
      have formed := inv.formed _ _ sends
      have isGranted : (accountOf sys).granted c = some grant := by
        simp [accountOf, account, prepares, answered, granted, grantOnly]
      have aim : ∀ dest, flight.dest = some dest → dest = grant.valueByteOff := by
        intro dest isDest
        simpa only [Aimed, isGranted] using inv.aim c flight dest sends isDest
      refine inv.advance (inv.sending sends) { formed with landed := ?_, uses := ?_ } ?_ ?_
      · intro landed
        refine ⟨(formed.landed landed).1, ?_⟩
        dsimp only
        split
        · exact (formed.landed landed).2
        · rfl
      · intro uses
        dsimp only at uses ⊢
        rw [if_pos uses]
        exact formed.uses uses
      · intro other isOther
        rw [Option.some.inj (sends.symm.trans isOther)]
      · intro dest isDest
        simp only [Aimed, isGranted]
        dsimp only at isDest
        split at isDest
        · exact aim dest isDest
        · exact (Option.some.inj isDest).symm
    | finishPut publishes sends answered =>
      rw [← same]
      exact inv.finishPut publishes answered
    | establish detached =>
      have nothing := inv.detached _ detached
      exact inv.replace (fun _ => rfl) (by rw [eq_comm, Client.flight, nothing]; rfl)
        fun _ impossible => by cases impossible
    | @startPut c seq key value established free keyPositive keyBounded lenPositive lenBounded =>
      have noFlight : (sys.client c).flight = none := by rw [Client.flight, free]
      refine inv.advance established
        (newFlight_formed keyPositive keyBounded lenPositive lenBounded) ?_ ?_
      · intro flight sends
        cases noFlight.symm.trans sends
      · intro dest isDest
        obtain ⟨lease, filtered, rfl⟩ := Option.map_eq_some_iff.mp isDest
        obtain ⟨holds, fits⟩ := Option.filter_eq_some_iff.mp filtered
        have noGrant := inv.ungranted noFlight
        simp only [Aimed, noGrant]
        refine ⟨?_, lease, inv.known c lease holds noFlight, fits, rfl⟩
        simp [newFlight, holds, fits]
    | @startOperation c operation established free noPut =>
      have noFlight : (sys.client c).flight = none := by rw [Client.flight, free]
      have still : ({ sys.client c with operation := some operation } : Client).flight = none :=
        Client.flight_none rfl noPut
      exact inv.replace (fun idle => absurd (idle.symm.trans established) Bool.false_ne_true)
        (still.trans noFlight.symm) fun lease holds _ => inv.known c lease holds noFlight
    | streamChunk sends isDest more =>
      have formed := inv.formed _ _ sends
      refine inv.advance (inv.sending sends)
        { formed with sentBounded := more, landed := fun landed => ?_ } ?_ ?_
      · exact absurd (formed.landed landed).1 more.ne
      · intro other isOther
        rw [Option.some.inj (sends.symm.trans isOther)]
      · exact inv.aim_of sends rfl rfl rfl
    | landPut sends all isDest =>
      have formed := inv.formed _ _ sends
      refine inv.advance (inv.sending sends)
        { formed with landed := fun _ => ⟨all, isDest⟩ } ?_ ?_
      · intro other isOther
        rw [Option.some.inj (sends.symm.trans isOther)]
      · exact inv.aim_of sends rfl rfl rfl
  · exact inv.finishPut publishes answered

end Session

end KvCache.Server
