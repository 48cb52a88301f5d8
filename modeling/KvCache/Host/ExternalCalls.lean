import KvCache.Foundation.Run
import KvCache.Host.ExternalSupply

/-!
# The calls of the external worker in any order

The device posts a request when the one before it is counted. The manager calls poll,
receive, supply and complete in any order and with any argument, releases its leases, and
may cancel the transfers; a call returns or throws.

An abstract book says what the calls are for: requests are returned in the order of the
posts, each once and numbered one after the other; one is active at a time; it is moved
once, in the direction of its kind, and only then counted.
-/

namespace KvCache.HostTransfer.External

open Layout Pool PoolMachine Function Worker Run

/-! ## The machine -/

/-- The runtime, whether its transfers are cancelled, what the device has posted and the
leases that the manager holds. -/
structure System where
  core : Core
  cancelled : Bool
  posted : List MoveRequest
  leases : Nat → Option HostLease

/-- What can be seen of a step. -/
inductive Event where
  | posted (request : MoveRequest)
  | returned (request : HostRequest)
  | received (request : HostRequest)
  | supplied (request : HostRequest)
  | completed (request : HostRequest)
  | threw
deriving DecidableEq, Repr

/-- The count of posts in the channel. Every counter starts at the same word. -/
def System.count (first : Nat) (state : System) : Nat := (first + state.posted.length) % 2 ^ 32

/-- A runtime before its first request. -/
def System.start (cfg : RuntimeConfig) (first : Nat) (window : ByteMemory) : System where
  core :=
    { runtime :=
        { poolFree := if cfg.poolUnitsTotal = 0 then [] else [⟨0, cfg.poolUnitsTotal⟩]
          poolMeta := fun _ => noRecord
          poolMetaGenerations := fun _ => 0
          window := window
          effects := [] }
      request := none
      seen := first
      commitIssued := first
      evictIssued := first }
  cancelled := false
  posted := []
  leases := fun _ => none

variable (cfg : RuntimeConfig)

/-- Poll: once the transfers are cancelled, and while the workload does not run, nothing is
looked at. -/
def pollCall (ready cancelled running : Bool) (posted : Nat) (slot : MoveRequest) :
    Worker Core (Option HostRequest) := do
  fatalUnless (ready = true)
  let state ← current
  fatalUnless (state.request = none)
  if cancelled = true ∨ running = false then pure none
  else pollExternalHostRequest cfg posted slot

/-- No wait ends by an answer of the device once the transfers are cancelled. -/
def heard (cancelled : Bool) (device : Device) : Device :=
  if cancelled then { device with evictDone := fun _ _ => false, promoteDone := fun _ _ => false }
  else device

/-- What a call leaves: the events of what it returns, or an exception. A wait is stopped by
cancelling only. -/
def settle {α : Type} (state : System) (events : α → List Event) (keep : α → System → System) :
    Outcome Core α → List Event × System
  | .finished value after => (events value, keep value { state with core := after })
  | .stopped after => ([.threw], { state with core := after, cancelled := true })
  | .failed after => ([.threw], { state with core := after })

/-- Keep the lease of a received value under a handle. -/
def keepLease (handle : Nat) (value : ReceivedValue) (state : System) : System :=
  { state with leases := update state.leases handle value.lease }

/-- The steps. The snapshot of a poll holds the latest post, if that is not counted yet. -/
inductive Step (first : Nat) : System → List Event → System → Prop where
  | post {state : System} (request : MoveRequest)
      (reusable : state.core.seen = state.count first) :
      Step first state [.posted request] { state with posted := state.posted ++ [request] }
  | poll {state after : System} {events : List Event} (ready running : Bool) (slot : MoveRequest)
      (snapshot : state.count first ≠ state.core.seen → state.posted.getLast? = some slot)
      (ends : settle state (fun value => (value.map Event.returned).toList) (fun _ => id)
        (run (pollCall cfg ready state.cancelled running (state.count first) slot) state.core) =
          (events, after)) : Step first state events after
  | receive {state after : System} {events : List Event} (device : Device)
      (request : HostRequest) (preferMappedLease : Bool) (handle : Nat)
      (fresh : state.leases handle = none)
      (ends : settle state (fun _ => [.received request]) (keepLease handle)
        (run (receiveExternalValue cfg (heard state.cancelled device) request
          preferMappedLease) state.core) = (events, after)) : Step first state events after
  | supply {state after : System} {events : List Event} (device : Device)
      (request : HostRequest) (source : Option Nat) (heapBytes : List UInt8)
      (ends : settle state (fun _ => [.supplied request]) (fun _ => id)
        (run (supplyExternalValue cfg (heard state.cancelled device) request
          (source.bind state.leases) heapBytes) state.core) = (events, after)) :
      Step first state events after
  | complete {state after : System} {events : List Event} (request : HostRequest)
      (ends : settle state (fun _ => [.completed request]) (fun _ => id)
        (run (completeExternalHostRequest request) state.core) = (events, after)) :
      Step first state events after
  | release {state : System} (handle : Nat) (lease : HostLease)
      (live : state.leases handle = some lease) :
      Step first state []
        { state with
          core := { state.core with
            runtime := releaseExternalHostLease cfg lease state.core.runtime }
          leases := update state.leases handle none }
  | cancel {state : System} : Step first state [] { state with cancelled := true }

/-! ## The book -/

/-- What is to be seen of the requests: the posts, how many were returned, the count of
completed ones, and the active one with whether its value was moved. -/
structure Book where
  posted : List MoveRequest
  returned : Nat
  seen : Nat
  active : Option (HostRequest × Bool)
deriving DecidableEq, Repr

/-- The book before the first request. -/
def Book.start (first : Nat) : Book := ⟨[], 0, first, none⟩

/-- The request that poll has to return next. -/
def Book.next (book : Book) : Option HostRequest :=
  (book.posted[book.returned]?).bind fun request =>
    (hostRequestKind request.op).map fun kind => announce (succ32 book.seen) kind request

/-- The kinds whose value is moved to the host, and to the device. -/
def Kind.isReceived (kind : Kind) : Bool := kind = .writeThrough

def Kind.isSupplied (kind : Kind) : Bool := kind = .promoteToDevice ∨ kind = .serveGet

/-- Enter an event, or refuse it. -/
def Book.enter (book : Book) : Event → Option Book
  | .posted request => some { book with posted := book.posted ++ [request] }
  | .threw => some book
  | .returned request =>
    if book.active = none ∧ book.next = some request then
      some { book with returned := book.returned + 1, active := some (request, false) }
    else none
  | .received request =>
    if book.active = some (request, false) ∧ request.kind.isReceived then
      some { book with active := some (request, true) }
    else none
  | .supplied request =>
    if book.active = some (request, false) ∧ request.kind.isSupplied then
      some { book with active := some (request, true) }
    else none
  | .completed request =>
    if book.active = some (request, true) ∨
        (book.active = some (request, false) ∧ request.kind = .removeBacking) then
      some { book with seen := request.sequence, active := none }
    else none

/-! ## The machine and the book -/

variable {cfg} {first : Nat} {state after : System} {events : List Event} {book : Book}

/-- The extents that the leases of the manager hold. -/
def leasedExtents (leases : Nat → Option HostLease) (handle : Nat) : Option Extent :=
  (leases handle).map HostLease.extent

/-- A lease is on the extent of a value in the pool and for a slot of the directory. -/
structure Leased (cfg : RuntimeConfig) (lease : HostLease) : Prop where
  slot : lease.slot < cfg.maxKeys
  units : lease.poolUnits = chunkCountFor lease.valueLen
  reads : lease.readOffset = cfg.poolReadOff + lease.poolUnit * maxChunkValueBytes

/-- The active request of the book is that of the runtime. -/
def Tracks (cfg : RuntimeConfig) (first : Nat) (state : System) (book : Book) : Prop :=
  match book.active with
  | none =>
    state.core.request = none ∧ (first + book.returned) % 2 ^ 32 = state.core.seen ∧
      book.returned ≤ state.posted.length ∧ state.posted.length ≤ book.returned + 1
  | some (request, moved) =>
    (∃ active, state.core.request = some active ∧ matchesActive request active ∧
      Accepted cfg active ∧ (moved = true ↔ active.phase = .transferComplete)) ∧
      request.sequence = succ32 state.core.seen ∧
      (first + book.returned) % 2 ^ 32 = succ32 state.core.seen ∧
      state.posted.length = book.returned

/-- The book describes the machine, and the pool accounts for the leases. -/
structure Related (cfg : RuntimeConfig) (first : Nat) (state : System) (book : Book) : Prop where
  posted : book.posted = state.posted
  seen : book.seen = state.core.seen
  word : state.core.seen < 2 ^ 32
  tracks : Tracks cfg first state book
  accounts : Accounts cfg.poolUnitsTotal state.core.runtime.poolFree (leasedExtents state.leases)
  leases : ∀ handle lease, state.leases handle = some lease → Leased cfg lease

/-- Only one argument matches the active request. -/
theorem matchesActive_unique {request other : HostRequest} {active : RequestState}
    (fits : matchesActive request active) (also : matchesActive other active) :
    other = request := by
  obtain ⟨sequence, slot, len, start, kind⟩ := fits
  obtain ⟨sequence', slot', len', start', kind'⟩ := also
  have sameKind : other.kind = request.kind := Option.some.inj (kind'.symm.trans kind)
  cases request
  cases other
  simp_all

/-- What was accepted of the active request is so for its value. -/
theorem Related.accepted (related : Related cfg first state book) :
    ∀ active, state.core.request = some active → Accepted cfg active := by
  intro active found
  have tracks := related.tracks
  unfold Tracks at tracks
  cases there : book.active with
  | none =>
    rw [there] at tracks
    rw [tracks.1] at found
    exact nomatch found
  | some entry =>
    rw [there] at tracks
    obtain ⟨⟨active', found', -, accepted, -⟩, -⟩ := tracks
    rw [found'] at found
    exact Option.some.inj found ▸ accepted

/-- A call for the pending active request is for that of the book, which is not moved. -/
theorem Related.begins (related : Related cfg first state book) {request : HostRequest}
    {phase : Phase} {after : Core} (moves : Moves phase request state.core after) :
    book.active = some (request, false) := by
  obtain ⟨active, found, fits, pending, -⟩ := moves
  have tracks := related.tracks
  unfold Tracks at tracks
  cases there : book.active with
  | none =>
    rw [there] at tracks
    rw [tracks.1] at found
    exact nomatch found
  | some entry =>
    rw [there] at tracks
    obtain ⟨⟨active', found', fits', -, moved⟩, -⟩ := tracks
    obtain rfl := Option.some.inj (found.symm.trans found')
    have same := matchesActive_unique fits' fits
    have unmoved : entry.2 = false := by
      cases flag : entry.2 with
      | false => rfl
      | true =>
        rw [pending] at moved
        exact nomatch moved.mp flag
    rw [same, ← unmoved]

/-- The active request in a later phase is still tracked. -/
theorem Related.moved (related : Related cfg first state book) {request : HostRequest}
    {phase : Phase} {core : Core} (moves : Moves phase request state.core core)
    {leases : Nat → Option HostLease} {cancelled : Bool}
    (accounts : Accounts cfg.poolUnitsTotal core.runtime.poolFree (leasedExtents leases))
    (leased : ∀ handle lease, leases handle = some lease → Leased cfg lease) :
    Related cfg first ⟨core, cancelled, state.posted, leases⟩
      { book with active := some (request, decide (phase = .transferComplete)) } := by
  have there := related.begins moves
  obtain ⟨active, found, fits, pending, now, seen⟩ := moves
  have accepted := related.accepted active found
  have tracks := related.tracks
  unfold Tracks at tracks
  rw [there] at tracks
  obtain ⟨-, sequence, numbered, all⟩ := tracks
  constructor
  · exact related.posted
  · exact related.seen.trans seen.symm
  · exact seen ▸ related.word
  · refine ⟨⟨_, now, fits, ⟨accepted.slot, accepted.key, accepted.range⟩, ?_⟩, ?_, ?_, all⟩
    · exact decide_eq_true_iff
    · exact sequence.trans (congrArg succ32 seen.symm)
    · exact numbered.trans (congrArg succ32 seen.symm)
  · exact accounts
  · exact leased

/-! ## One step -/

/-- What a call leaves, given what its ends meet. -/
theorem settle_cases {α : Type} {program : Worker Core α} {returns : α → Core → Prop}
    {breaks : Core → Prop} (meets : Meets program state.core returns breaks)
    {shows : α → List Event} {keep : α → System → System}
    (ends : settle state shows keep (run program state.core) = (events, after)) :
    (∃ value core, returns value core ∧ events = shows value ∧
        after = keep value { state with core := core }) ∨
      ∃ core cancelled, breaks core ∧ events = [.threw] ∧
        after = { state with core := core, cancelled := cancelled } := by
  cases ended : run program state.core with
  | finished value core =>
    rw [ended] at ends
    obtain ⟨rfl, rfl⟩ := Prod.mk.inj ends
    exact Or.inl ⟨value, core, meets.returned ended, rfl, rfl⟩
  | stopped core =>
    rw [ended] at ends
    obtain ⟨rfl, rfl⟩ := Prod.mk.inj ends
    exact Or.inr ⟨core, true, meets.halted ended, rfl, rfl⟩
  | failed core =>
    rw [ended] at ends
    obtain ⟨rfl, rfl⟩ := Prod.mk.inj ends
    exact Or.inr ⟨core, state.cancelled, meets.broke ended, rfl, rfl⟩

/-- Cancelling concerns waits only. -/
theorem Related.cancel (related : Related cfg first state book) (cancelled : Bool) :
    Related cfg first { state with cancelled := cancelled } book :=
  ⟨related.posted, related.seen, related.word, related.tracks, related.accounts, related.leases⟩

/-- An exception is entered as nothing. -/
theorem Related.threw (related : Related cfg first state book) {core : Core} (cancelled : Bool)
    (left : core = state.core ∨ ∃ request, Moves .transferInProgress request state.core core ∧
      Accounts cfg.poolUnitsTotal core.runtime.poolFree (leasedExtents state.leases)) :
    ∃ next, accept Book.enter book [.threw] = some next ∧
      Related cfg first { state with core := core, cancelled := cancelled } next := by
  refine ⟨book, rfl, ?_⟩
  obtain rfl | ⟨request, moves, accounts⟩ := left
  · exact related.cancel cancelled
  · have still := @Related.moved _ _ _ _ related _ _ _ moves _ cancelled accounts related.leases
    have there : some (request, decide (Phase.transferInProgress = .transferComplete)) =
        book.active := (related.begins moves).symm
    rw [there] at still
    exact still

/-- A post is made when the request before it is counted. -/
theorem Related.post (related : Related cfg first state book) (request : MoveRequest)
    (reusable : state.core.seen = state.count first) :
    Related cfg first { state with posted := state.posted ++ [request] }
      { book with posted := book.posted ++ [request] } := by
  refine ⟨by rw [related.posted], related.seen, related.word, ?_, related.accounts,
    related.leases⟩
  have tracks := related.tracks
  unfold Tracks at tracks ⊢
  unfold System.count at reusable
  cases there : book.active with
  | none =>
    rw [there] at tracks
    obtain ⟨idle, counted, less, more⟩ := tracks
    have all : state.posted.length = book.returned := by omega
    refine ⟨idle, counted, ?_, ?_⟩
    · rw [List.length_append, all]
      exact Nat.le_add_right ..
    · rw [List.length_append, all]
      exact Nat.le_refl _
  | some entry =>
    rw [there] at tracks
    obtain ⟨-, -, numbered, all⟩ := tracks
    rw [all, numbered, succ32] at reusable
    omega

/-- What poll does: nothing, or the next request becomes the active one. -/
theorem meets_poll (ready cancelled running : Bool) (posted : Nat) (slot : MoveRequest)
    (core : Core) :
    Meets (pollCall cfg ready cancelled running posted slot) core
      (fun value after => (value = none ∧ after = core) ∨
        ∃ kind, core.request = none ∧ posted ≠ core.seen ∧ posted = succ32 core.seen ∧
          hostRequestKind slot.op = some kind ∧ WellFormed cfg slot kind ∧
          value = some (announce posted kind slot) ∧
          after = { core with request := some (decode posted slot) })
      (fun after => after = core) := by
  unfold pollCall
  rw [meets_bind, meets_fatalUnless]
  refine ⟨fun _ => ?_, fun _ => rfl⟩
  rw [meets_bind, meets_current, meets_bind, meets_fatalUnless]
  refine ⟨fun idle => ?_, fun _ => rfl⟩
  rw [meets_ite]
  refine ⟨fun _ => Or.inl ⟨rfl, rfl⟩, fun _ => ?_⟩
  unfold pollExternalHostRequest
  rw [meets_bind, meets_current, meets_bind, meets_fatalUnless]
  refine ⟨fun _ => ?_, fun _ => rfl⟩
  rw [meets_ite]
  refine ⟨fun _ => Or.inl ⟨rfl, rfl⟩, fun fresh => ?_⟩
  rw [meets_bind, meets_fatalUnless]
  refine ⟨fun counted => ?_, fun _ => rfl⟩
  cases supported : hostRequestKind slot.op with
  | none => rfl
  | some kind =>
    dsimp only
    rw [meets_bind, meets_fatalUnless]
    refine ⟨fun formed => ?_, fun _ => rfl⟩
    exact Or.inr ⟨kind, idle, fresh, counted, rfl, formed, rfl, rfl⟩

/-- A heap that holds a value of the greatest length holds any value at its start. -/
theorem range_of_normal {requested : Nat}
    (heap : cfg.valueHeapBytes = normalizeValueHeapBytes requested cfg.maxValueBytes)
    {totalLen : Nat} (bounded : totalLen ≤ cfg.maxValueBytes) :
    chunkCountFor totalLen * maxChunkValueBytes ≤ cfg.valueHeapBytes := by
  obtain ⟨whole, enough⟩ := normalizeValueHeapBytes_spec requested cfg.maxValueBytes
  have fewer := chunkCountFor_mono bounded
  have block : chunkCountFor cfg.maxValueBytes ≤ buddyBlockUnitsFor cfg.maxValueBytes :=
    (roundsTo_spec _).1
  rw [heap, ← Nat.div_mul_cancel whole]
  exact Nat.mul_le_mul_right _ (fewer.trans (block.trans enough))

/-- The checks of poll accept requests that lie inside. -/
theorem accepted_of_wellFormed {requested : Nat}
    (heap : cfg.valueHeapBytes = normalizeValueHeapBytes requested cfg.maxValueBytes)
    {slot : MoveRequest} {kind : Kind} (supported : hostRequestKind slot.op = some kind)
    (formed : WellFormed cfg slot kind) (posted : Nat) : Accepted cfg (decode posted slot) := by
  obtain ⟨inRange, short, rest⟩ := formed
  refine ⟨inRange, ?_, ?_⟩
  · have taken := List.length_take_le slot.keyLen slot.keyArea
    have fits := cfg.keyFits
    change 16 + _ ≤ 16 + maxPutKeyBytes
    exact Nat.add_le_add_left (taken.trans (short.trans fits)) 16
  · intro valued
    have other : kind ≠ .removeBacking := by
      rintro rfl
      exact valued supported
    rw [if_neg other] at rest
    obtain ⟨⟨-, bounded⟩, -, ⟨-, start⟩ | ⟨aligned, range⟩⟩ := rest
    · change slot.valueByteOff % _ = 0 ∧ slot.valueByteOff + _ ≤ _
      rw [start, Nat.zero_add]
      exact ⟨Nat.zero_mod _, range_of_normal heap bounded⟩
    · exact ⟨aligned, range⟩

/-- What complete does. -/
theorem meets_complete (request : HostRequest) (core : Core) :
    Meets (completeExternalHostRequest request) core
      (fun _ after => ∃ active, core.request = some active ∧ matchesActive request active ∧
        ((request.kind = .removeBacking ∧ active.phase = .pending) ∨
          active.phase = .transferComplete) ∧
        after = { core with
          runtime := emit (.moveProcessed request.sequence) core.runtime
          seen := request.sequence
          request := none })
      (fun after => after = core) := by
  unfold completeExternalHostRequest
  rw [meets_bind, meets_validate]
  refine ⟨fun active found fits => ?_, fun _ => rfl⟩
  rw [meets_bind, meets_fatalUnless]
  refine ⟨fun finishing => ?_, fun _ => rfl⟩
  rw [meets_bind, External.core, meets_within, meets_change, meets_change]
  exact ⟨active, found, fits, finishing, rfl⟩

/-- Releasing a lease gives its extent back. -/
theorem poolFree_release {handle : Nat} {lease : HostLease} {leases : Nat → Option HostLease}
    {runtime : Runtime}
    (accounts : Accounts cfg.poolUnitsTotal runtime.poolFree (leasedExtents leases))
    (live : leases handle = some lease) (leased : Leased cfg lease) :
    (releaseExternalHostLease cfg lease runtime).poolFree =
      Pool.poolRelease lease.extent runtime.poolFree := by
  have holds : leasedExtents leases handle = some lease.extent := by
    rw [leasedExtents, live, Option.map_some]
  have checked := accounts.checked holds
  have invalidates : ∃ middle, middle.poolFree = runtime.poolFree ∧
      run (invalidateMetaIfGeneration cfg lease.slot lease.generation) runtime =
        .finished () middle := by
    unfold invalidateMetaIfGeneration
    split
    · exact ⟨runtime, rfl, rfl⟩
    · rw [run_fatalUnless_bind leased.slot]
      exact ⟨storeMeta _ _ runtime, rfl, rfl⟩
  obtain ⟨middle, same, ends⟩ := invalidates
  rw [← same] at checked ⊢
  have releases : run (HostTransfer.poolRelease cfg lease.poolUnit lease.poolUnits) middle =
      .finished () { middle with poolFree := Pool.poolRelease lease.extent middle.poolFree } :=
    run_poolRelease checked
  unfold releaseExternalHostLease
  dsimp only
  rw [run_bind_finished ends, releases]

theorem leasedExtents_update (leases : Nat → Option HostLease) (handle : Nat)
    (lease : Option HostLease) :
    leasedExtents (update leases handle lease) =
      update (leasedExtents leases) handle (lease.map HostLease.extent) := by
  funext other
  by_cases same : other = handle
  · subst same
    simp [leasedExtents]
  · simp [leasedExtents, same]

/-- A returned request is the next one of the book. -/
theorem Related.returns (related : Related cfg first state book) {slot : MoveRequest} {kind : Kind}
    (idle : state.core.request = none) (posted : state.count first = succ32 state.core.seen)
    (fresh : state.count first ≠ state.core.seen) (latest : state.posted.getLast? = some slot)
    (supported : hostRequestKind slot.op = some kind)
    (accepted : Accepted cfg (decode (state.count first) slot)) :
    ∃ next, book.enter (.returned (announce (state.count first) kind slot)) = some next ∧
      Related cfg first
        { state with core := { state.core with request := some (decode (state.count first) slot) } }
        next := by
  have tracks := related.tracks
  unfold Tracks at tracks
  cases there : book.active with
  | some entry =>
    rw [there] at tracks
    obtain ⟨⟨active, found, -⟩, -⟩ := tracks
    rw [idle] at found
    exact nomatch found
  | none =>
    rw [there] at tracks
    obtain ⟨-, counted, less, more⟩ := tracks
    have all : state.posted.length = book.returned + 1 := by
      unfold System.count at fresh
      obtain same | one : state.posted.length = book.returned ∨
        state.posted.length = book.returned + 1 := by omega
      · rw [same] at fresh
        exact absurd counted fresh
      · exact one
    have next : book.next = some (announce (state.count first) kind slot) := by
      have last : book.posted[book.returned]? = some slot := by
        rw [related.posted, ← latest, List.getLast?_eq_getElem?, all, Nat.add_sub_cancel]
      rw [Book.next, last, Option.bind_some, supported, related.seen, ← posted]
      rfl
    refine ⟨_, if_pos ⟨there, next⟩, ?_⟩
    refine ⟨related.posted, related.seen, related.word, ?_, related.accounts, related.leases⟩
    refine ⟨⟨_, rfl, ⟨rfl, rfl, rfl, rfl, supported⟩, accepted, ?_⟩, posted, ?_, all⟩
    · exact iff_of_false Bool.false_ne_true nofun
    · rw [← posted, System.count, all]

/-- A completed request is the active one of the book, moved or without a value. -/
theorem Related.completes (related : Related cfg first state book) {request : HostRequest}
    {active : RequestState} (found : state.core.request = some active)
    (fits : matchesActive request active)
    (finishing : (request.kind = .removeBacking ∧ active.phase = .pending) ∨
      active.phase = .transferComplete) :
    ∃ next, accept Book.enter book [.completed request] = some next ∧
      Related cfg first
        { state with core := { state.core with
            runtime := emit (.moveProcessed request.sequence) state.core.runtime
            seen := request.sequence
            request := none } } next := by
  have tracks := related.tracks
  unfold Tracks at tracks
  cases there : book.active with
  | none =>
    rw [there] at tracks
    rw [tracks.1] at found
    exact nomatch found
  | some entry =>
    obtain ⟨tracked, moved⟩ := entry
    rw [there] at tracks
    obtain ⟨⟨active', found', fits', -, phase⟩, sequence, numbered, all⟩ := tracks
    obtain rfl := Option.some.inj (found.symm.trans found')
    obtain rfl := matchesActive_unique fits' fits
    have done : book.active = some (request, true) ∨
        (book.active = some (request, false) ∧ request.kind = .removeBacking) := by
      obtain ⟨kind, pending⟩ | complete := finishing
      · cases moved with
        | true => exact Or.inl there
        | false => exact Or.inr ⟨there, kind⟩
      · exact Or.inl (by rw [there, phase.mpr complete])
    refine ⟨_, by rw [accept, Book.enter, if_pos done]; rfl, ?_⟩
    refine ⟨related.posted, rfl, ?_, ⟨rfl, ?_, ?_, ?_⟩, related.accounts, related.leases⟩
    · change request.sequence < 2 ^ 32
      rw [sequence]
      exact Nat.mod_lt _ (by decide)
    · exact numbered.trans sequence.symm
    · exact all.ge
    · exact all.le.trans (Nat.le_succ _)

/-- The book enters what a step shows.

Proof: a call that throws leaves the active request where it was or in progress for ever; a
call that returns moves it or counts it, and both need the request of the book. -/
theorem Related.step {requested : Nat} (addressable : cfg.Addressable)
    (heap : cfg.valueHeapBytes = normalizeValueHeapBytes requested cfg.maxValueBytes)
    (related : Related cfg first state book) (step : Step cfg first state events after) :
    ∃ next, accept Book.enter book events = some next ∧ Related cfg first after next := by
  cases step with
  | post request reusable => exact ⟨_, rfl, related.post request reusable⟩
  | poll ready running slot snapshot ends =>
    obtain ⟨value, core, left, rfl, rfl⟩ | ⟨core, cancelled, left, rfl, rfl⟩ :=
      settle_cases (meets_poll _ _ _ _ _ _) ends
    · obtain ⟨rfl, rfl⟩ | ⟨kind, idle, fresh, counted, supported, formed, rfl, rfl⟩ := left
      · exact ⟨book, rfl, related⟩
      · obtain ⟨next, enters, still⟩ := related.returns idle counted fresh (snapshot fresh)
          supported (accepted_of_wellFormed heap supported formed _)
        exact ⟨next, by rw [Option.map_some, Option.toList_some, accept, enters]; rfl, still⟩
    · exact related.threw cancelled (Or.inl left)
  | receive device request preferMappedLease handle fresh ends =>
    have vacant : leasedExtents state.leases handle = none := by
      rw [leasedExtents, fresh, Option.map_none]
    have inRange := fun active found => (related.accepted active found).slot
    obtain ⟨value, core, ⟨offset, began, lease⟩, rfl, rfl⟩ | ⟨core, cancelled, left, rfl, rfl⟩ :=
      settle_cases (meets_receive inRange related.accounts vacant preferMappedLease) ends
    · have there := related.begins began.moves
      have received : request.kind.isReceived := by
        simp [Kind.isReceived, began.kind]
      refine ⟨_, by rw [accept, Book.enter, if_pos ⟨there, received⟩]; rfl, ?_⟩
      apply related.moved began.moves
      · rw [leasedExtents_update]
        exact began.accounts
      · intro other found live
        by_cases same : other = handle
        · subst same
          rw [update_self] at live
          have made := lease found live
          obtain ⟨active, present, fits, -⟩ := began.moves
          refine ⟨?_, ?_, made.reads.trans made.place⟩
          · rw [made.slot, fits.2.1]
            exact inRange active present
          · rw [made.units, made.len]
        · rw [update_of_ne same] at live
          exact related.leases other found live
    · apply related.threw cancelled
      obtain same | ⟨offset, began⟩ := left
      · exact Or.inl same
      · exact Or.inr ⟨request, began.moves, began.accounts⟩
  | supply device request source heapBytes ends =>
    obtain ⟨value, core, supplied, rfl, rfl⟩ | ⟨core, cancelled, left, rfl, rfl⟩ :=
      settle_cases (meets_supply addressable related.accepted _ heapBytes) ends
    · have there := related.begins supplied.moves
      have kind : request.kind.isSupplied := by
        simpa [Kind.isSupplied] using supplied.kind
      refine ⟨_, by rw [accept, Book.enter, if_pos ⟨there, kind⟩]; rfl, ?_⟩
      apply related.moved supplied.moves
      · rw [supplied.reaches.pool]
        exact related.accounts
      · exact related.leases
    · apply related.threw cancelled
      obtain same | supplied := left
      · exact Or.inl same
      · refine Or.inr ⟨request, supplied.moves, ?_⟩
        rw [supplied.reaches.pool]
        exact related.accounts
  | complete request ends =>
    obtain ⟨value, core, ⟨active, found, fits, finishing, rfl⟩, rfl, rfl⟩ |
      ⟨core, cancelled, left, rfl, rfl⟩ := settle_cases (meets_complete request state.core) ends
    · exact related.completes found fits finishing
    · exact related.threw cancelled (Or.inl left)
  | release handle lease live =>
    refine ⟨book, rfl, related.posted, related.seen, related.word, related.tracks, ?_, ?_⟩
    · rw [poolFree_release related.accounts live (related.leases handle lease live),
        leasedExtents_update]
      apply related.accounts.release
      rw [leasedExtents, live, Option.map_some]
    · intro other found (there : update state.leases handle none other = some found)
      by_cases same : other = handle
      · subst same
        rw [update_self] at there
        cases there
      · rw [update_of_ne same] at there
        exact related.leases other found there
  | cancel => exact ⟨book, rfl, related.cancel true⟩

/-! ## Traces of the book -/

/-- The posts of a trace. -/
def postedOf : List Event → List MoveRequest :=
  List.filterMap fun event => match event with
    | .posted request => some request
    | _ => none

/-- The returned requests of a trace. -/
def returnedOf : List Event → List HostRequest :=
  List.filterMap fun event => match event with
    | .returned request => some request
    | _ => none

/-- The requests are returned in the order of the posts, each once, under the count of its
post. -/
def InOrder (first : Nat) (trace : List Event) : Prop :=
  ∀ index request, (returnedOf trace)[index]? = some request →
    ∃ slot kind, (postedOf trace)[index]? = some slot ∧ hostRequestKind slot.op = some kind ∧
      request = announce ((first + index + 1) % 2 ^ 32) kind slot

/-- What a trace that the book accepts has shown. -/
structure Shown (first : Nat) (trace : List Event) (book : Book) : Prop where
  posted : book.posted = postedOf trace
  returned : book.returned = (returnedOf trace).length
  counted : (first + book.returned) % 2 ^ 32 =
    if book.active = none then book.seen else succ32 book.seen
  numbered : ∀ entry, book.active = some entry → entry.1.sequence = succ32 book.seen
  ordered : InOrder first trace

/-- An event that is neither a post nor a return. -/
theorem Shown.other {trace : List Event} {before after : Book} (shown : Shown first trace before)
    {event : Event} (unposted : postedOf [event] = []) (unreturned : returnedOf [event] = [])
    (posted : after.posted = before.posted) (returned : after.returned = before.returned)
    (counted : (first + after.returned) % 2 ^ 32 =
      if after.active = none then after.seen else succ32 after.seen)
    (numbered : ∀ entry, after.active = some entry → entry.1.sequence = succ32 after.seen) :
    Shown first (trace ++ [event]) after := by
  have posts : postedOf (trace ++ [event]) = postedOf trace := by
    rw [postedOf, List.filterMap_append]
    exact (congrArg (_ ++ ·) unposted).trans (List.append_nil _)
  have returns : returnedOf (trace ++ [event]) = returnedOf trace := by
    rw [returnedOf, List.filterMap_append]
    exact (congrArg (_ ++ ·) unreturned).trans (List.append_nil _)
  refine ⟨by rw [posts, posted, shown.posted], by rw [returns, returned, shown.returned], counted,
    numbered, ?_⟩
  unfold InOrder
  rw [posts, returns]
  exact shown.ordered

/-- The value of the active request is moved. -/
theorem Shown.move {trace : List Event} {before : Book} (shown : Shown first trace before)
    {request : HostRequest} (pending : before.active = some (request, false)) {event : Event}
    (unposted : postedOf [event] = []) (unreturned : returnedOf [event] = []) :
    Shown first (trace ++ [event]) { before with active := some (request, true) } := by
  have counted := shown.counted
  rw [if_neg (by simp [pending])] at counted
  refine shown.other unposted unreturned rfl rfl counted ?_
  intro entry present
  obtain rfl := Option.some.inj present
  exact shown.numbered (request, false) pending

/-- What is entered keeps what was shown. -/
theorem Shown.enter {trace : List Event} {before after : Book} (shown : Shown first trace before)
    {event : Event} (enters : before.enter event = some after) :
    Shown first (trace ++ [event]) after := by
  cases event with
  | posted request =>
    obtain rfl := Option.some.inj enters
    have posts : postedOf (trace ++ [.posted request]) = postedOf trace ++ [request] :=
      List.filterMap_append
    have returns : returnedOf (trace ++ [.posted request]) = returnedOf trace := by
      rw [returnedOf, List.filterMap_append]
      exact List.append_nil _
    refine ⟨by rw [posts, shown.posted], by rw [returns]; exact shown.returned, shown.counted,
      shown.numbered, ?_⟩
    intro index other there
    rw [returns] at there
    obtain ⟨slot, kind, found, rest⟩ := shown.ordered index other there
    refine ⟨slot, kind, ?_, rest⟩
    rw [posts, List.getElem?_append_left (List.getElem?_eq_some_iff.mp found).1]
    exact found
  | returned request =>
    rw [Book.enter] at enters
    split at enters
    · next next =>
      obtain ⟨idle, isNext⟩ := next
      obtain rfl := Option.some.inj enters
      have counted := shown.counted
      rw [if_pos idle] at counted
      obtain ⟨slot, found, taken⟩ := Option.bind_eq_some_iff.mp isNext
      obtain ⟨kind, supported, rfl⟩ := Option.map_eq_some_iff.mp taken
      have posts : postedOf (trace ++ [.returned (announce (succ32 before.seen) kind slot)]) =
          postedOf trace := by
        rw [postedOf, List.filterMap_append]
        exact List.append_nil _
      have returns : returnedOf (trace ++ [.returned (announce (succ32 before.seen) kind slot)]) =
          returnedOf trace ++ [announce (succ32 before.seen) kind slot] := List.filterMap_append
      have number : (first + before.returned + 1) % 2 ^ 32 = succ32 before.seen := by
        rw [succ32, ← counted, Nat.mod_add_mod]
      refine ⟨shown.posted.trans posts.symm, ?_, ?_, ?_, ?_⟩
      · rw [returns, List.length_append, ← shown.returned]
        rfl
      · exact number
      · intro entry present
        obtain rfl := Option.some.inj present
        rfl
      · intro index other there
        rw [returns, List.getElem?_append] at there
        rw [posts]
        split at there
        · exact shown.ordered index other there
        · next past =>
          rw [List.getElem?_singleton] at there
          split at there
          · next last =>
            obtain rfl := Option.some.inj there
            have here : index = before.returned := by
              rw [shown.returned]
              omega
            rw [here, number, ← shown.posted]
            exact ⟨slot, kind, found, supported, rfl⟩
          · cases there
    · cases enters
  | received request =>
    rw [Book.enter] at enters
    split at enters
    · next pending =>
      obtain rfl := Option.some.inj enters
      exact shown.move pending.1 rfl rfl
    · cases enters
  | supplied request =>
    rw [Book.enter] at enters
    split at enters
    · next pending =>
      obtain rfl := Option.some.inj enters
      exact shown.move pending.1 rfl rfl
    · cases enters
  | completed request =>
    rw [Book.enter] at enters
    split at enters
    · next done =>
      obtain rfl := Option.some.inj enters
      have active : ∃ moved, before.active = some (request, moved) := by
        obtain moved | ⟨unmoved, -⟩ := done
        · exact ⟨_, moved⟩
        · exact ⟨_, unmoved⟩
      obtain ⟨moved, there⟩ := active
      have counted := shown.counted
      rw [if_neg (by simp [there]), ← shown.numbered _ there] at counted
      exact shown.other rfl rfl rfl rfl counted fun _ impossible => by cases impossible
    · cases enters
  | threw =>
    obtain rfl := Option.some.inj enters
    exact shown.other rfl rfl rfl rfl shown.counted shown.numbered

/-- A trace that the book accepts is in order. -/
theorem shown_of_accept (word : first < 2 ^ 32) {trace : List Event} {last : Book}
    (accepted : accept Book.enter (Book.start first) trace = some last) :
    Shown first trace last := by
  induction trace using List.reverseRecOn generalizing last with
  | nil =>
    obtain rfl := Option.some.inj accepted
    refine ⟨rfl, rfl, Nat.mod_eq_of_lt word, nofun, ?_⟩
    intro index request impossible
    exact nomatch impossible
  | append_singleton front event inductionHypothesis =>
    rw [accept_append] at accepted
    obtain ⟨middle, earlier, enters⟩ := Option.bind_eq_some_iff.mp accepted
    rw [accept] at enters
    obtain ⟨next, entered, same⟩ := Option.bind_eq_some_iff.mp enters
    obtain rfl := Option.some.inj same
    exact (inductionHypothesis earlier).enter entered

/-! ## Every run -/

/-- What holds of every call from a state, whatever its argument and the device. -/
structure Guarded (cfg : RuntimeConfig) (state : System) : Prop where
  accepted : ∀ active, state.core.request = some active → Accepted cfg active
  leased : ∀ handle lease, state.leases handle = some lease → Leased cfg lease
  apart : Accounts cfg.poolUnitsTotal state.core.runtime.poolFree (leasedExtents state.leases)
  single : state.core.request ≠ none → ∀ ready cancelled running posted slot,
    run (pollCall cfg ready cancelled running posted slot) state.core = .failed state.core
  receiveRefused : ∀ device request preferMappedLease,
    Unfit (· = .writeThrough) request state.core →
      run (receiveExternalValue cfg device request preferMappedLease) state.core =
        .failed state.core
  supplyRefused : ∀ device request lease heapBytes,
    Unfit (fun kind => kind = .promoteToDevice ∨ kind = .serveGet) request state.core →
      run (supplyExternalValue cfg device request lease heapBytes) state.core =
        .failed state.core
  completeRefused : ∀ request,
    (∀ active, state.core.request = some active → matchesActive request active →
      ¬ ((request.kind = .removeBacking ∧ active.phase = .pending) ∨
        active.phase = .transferComplete)) →
      run (completeExternalHostRequest request) state.core = .failed state.core
  receives : ∀ device request preferMappedLease handle, state.leases handle = none →
    Meets (receiveExternalValue cfg device request preferMappedLease) state.core
      (fun value after => ∃ offset, Began cfg device request .transferComplete
        (update (leasedExtents state.leases) handle (value.lease.map HostLease.extent)) offset
          state.core after ∧
        ∀ lease, value.lease = some lease → LeaseFor cfg request offset lease)
      (fun after => after = state.core ∨ ∃ offset, Began cfg device request
        .transferInProgress (leasedExtents state.leases) offset state.core after)
  reads : ∀ (device other : Device) request preferMappedLease, cfg.stageNocOk = false →
    SameValue cfg request (device.banks state.core.runtime.effects)
      (other.banks state.core.runtime.effects) →
    run (receiveExternalValue cfg device request preferMappedLease) state.core =
      run (receiveExternalValue cfg other request preferMappedLease) state.core
  supplies : ∀ device request (source : Option Nat) heapBytes,
    let lease := source.bind state.leases
    Meets (supplyExternalValue cfg device request lease heapBytes) state.core
      (fun _ after => Supplying cfg request lease heapBytes .transferComplete state.core after)
      (fun after => after = state.core ∨
        Supplying cfg request lease heapBytes .transferInProgress state.core after)

/-- The book describes a state whose calls are guarded. -/
theorem Related.guarded (addressable : cfg.Addressable) (related : Related cfg first state book) :
    Guarded cfg state where
  accepted := related.accepted
  leased := related.leases
  apart := related.accounts
  single := by
    intro busy ready cancelled running posted slot
    unfold pollCall
    by_cases up : ready = true
    · rw [run_fatalUnless_bind up, run_current_bind]
      exact run_fatalUnless_broken busy _
    · exact run_fatalUnless_broken up _
  receiveRefused := fun _ _ preferMappedLease unfit => receive_refused unfit preferMappedLease
  supplyRefused := fun _ _ lease heapBytes unfit => supply_refused unfit lease heapBytes
  completeRefused := by
    intro request unfinished
    unfold completeExternalHostRequest
    by_cases matched : ∃ active, state.core.request = some active ∧ matchesActive request active
    · obtain ⟨active, found, fits⟩ := matched
      rw [run_bind_finished (run_validate_active found fits)]
      exact run_fatalUnless_broken (unfinished active found fits) _
    · have mismatched : Mismatched request state.core :=
        fun active found fits => matched ⟨active, found, fits⟩
      exact run_bind_failed (run_validate_mismatched mismatched) _
  receives := by
    intro device request preferMappedLease handle fresh
    have vacant : leasedExtents state.leases handle = none := by
      rw [leasedExtents, fresh, Option.map_none]
    exact meets_receive (fun active found => (related.accepted active found).slot)
      related.accounts vacant preferMappedLease
  reads := by
    intro device other request preferMappedLease unmapped same
    by_cases unfit : Unfit (· = .writeThrough) request state.core
    · rw [receive_refused unfit, receive_refused unfit]
    · unfold Unfit at unfit
      push Not at unfit
      obtain ⟨active, found, fits, kind, -⟩ := unfit
      have inside : InHeap cfg request :=
        (related.accepted active found).inHeap fits (by simp [kind])
      exact receive_reads_own unmapped addressable inside same preferMappedLease
  supplies := fun _ _ _ heapBytes => meets_supply addressable related.accepted _ heapBytes

/-- Poll returns a new request that is well formed. -/
theorem run_pollCall {core : Core} {posted : Nat} {slot : MoveRequest} {kind : Kind}
    (idle : core.request = none) (counted : posted = succ32 core.seen) (word : core.seen < 2 ^ 32)
    (supported : hostRequestKind slot.op = some kind) (formed : WellFormed cfg slot kind) :
    run (pollCall cfg true false true posted slot) core =
      .finished (some (announce posted kind slot))
        { core with request := some (decode posted slot) } := by
  have fresh : posted ≠ core.seen := by
    rw [counted, succ32]
    intro same
    exact absurd word (by omega)
  rw [pollCall, run_fatalUnless_bind rfl, run_current_bind, run_fatalUnless_bind idle,
    if_neg (by decide), pollExternalHostRequest, run_current_bind, run_fatalUnless_bind idle,
    if_neg fresh, run_fatalUnless_bind counted, supported]
  dsimp only
  rw [run_fatalUnless_bind formed, run_change_bind]
  rfl

/-- Poll returns the next request of the book, if it is well formed. -/
theorem Related.offers (related : Related cfg first state book) (idle : book.active = none)
    {slot : MoveRequest} {kind : Kind} (pending : book.posted[book.returned]? = some slot)
    (supported : hostRequestKind slot.op = some kind) (formed : WellFormed cfg slot kind) :
    ∃ core, run (pollCall cfg true false true (state.count first) slot) state.core =
      .finished book.next core := by
  have tracks := related.tracks
  unfold Tracks at tracks
  rw [idle] at tracks
  obtain ⟨none, counted, -, more⟩ := tracks
  have less := (List.getElem?_eq_some_iff.mp pending).1
  rw [related.posted] at less
  have all : state.posted.length = book.returned + 1 := by omega
  have posted : state.count first = succ32 state.core.seen := by
    rw [System.count, all, succ32, ← counted, Nat.mod_add_mod]
    rfl
  have next : book.next = some (announce (state.count first) kind slot) := by
    rw [Book.next, pending, Option.bind_some, supported, related.seen, ← posted]
    rfl
  rw [next]
  exact ⟨_, run_pollCall none posted related.word supported formed⟩

/-- A runtime before its first request is described by the empty book. -/
theorem Related.start (cfg : RuntimeConfig) (word : first < 2 ^ 32) (window : ByteMemory) :
    Related cfg first (System.start cfg first window) (Book.start first) where
  posted := rfl
  seen := rfl
  word := word
  tracks := ⟨rfl, Nat.mod_eq_of_lt word, Nat.le_refl _, Nat.zero_le _⟩
  accounts := Accounts.initial cfg.poolUnitsTotal
  leases := nofun

/-- In every run of the calls, with any arguments, answers of the device and cancelling, the
requests are returned as they were posted, each once, one is active at a time, and a request is
counted after its value was moved once in the direction of its kind. Whatever does not fit the
active request throws and changes nothing. What poll has accepted lies inside, and a transfer
touches what belongs to its value.

Proof: the book simulates the machine; a state that it describes guards its calls. -/
theorem external_requests {requested : Nat} (addressable : cfg.Addressable)
    (heap : cfg.valueHeapBytes = normalizeValueHeapBytes requested cfg.maxValueBytes)
    (word : first < 2 ^ 32) {window : ByteMemory} {trace : List Event}
    (run : Run (Step cfg first) (System.start cfg first window) trace state) :
    InOrder first trace ∧ Guarded cfg state ∧
      ∃ book, accept Book.enter (Book.start first) trace = some book ∧
        book.posted = postedOf trace ∧ book.returned = (returnedOf trace).length ∧
        book.seen = state.core.seen ∧ (book.active = none ↔ state.core.request = none) ∧
        ∀ slot kind, book.active = none → book.posted[book.returned]? = some slot →
          hostRequestKind slot.op = some kind → WellFormed cfg slot kind →
          ∃ core, Worker.run (pollCall cfg true false true (state.count first) slot) state.core =
            .finished book.next core := by
  obtain ⟨book, accepted, related⟩ := run.simulates Book.enter (Related cfg first)
    (Related.start cfg word window)
    fun _ _ _ _ related step => related.step addressable heap step
  have shown := shown_of_accept word accepted
  refine ⟨shown.ordered, related.guarded addressable, book, accepted, shown.posted, shown.returned,
    related.seen, ?_, fun slot kind idle => related.offers idle⟩
  have tracks := related.tracks
  unfold Tracks at tracks
  cases there : book.active with
  | none =>
    rw [there] at tracks
    simp [tracks.1]
  | some entry =>
    rw [there] at tracks
    obtain ⟨⟨active, found, -⟩, -⟩ := tracks
    simp [found]

/-- What is not mapped has no bounds. -/
theorem oneUnit_unmapped (mapped : false = true) : 0 < 0 := by
  cases mapped

/-- A heap of one unit in one bank, and no mapped window. -/
def oneUnit : RuntimeConfig where
  maxKeys := 2
  maxKeyLen := 16
  maxValueBytes := 100
  valueHeapBytes := 4288
  stageNocOk := false
  poolHost := false
  poolReadOff := 0
  poolUnitsTotal := 0
  numBanks := 1
  alignedPage := 4288
  base := 0
  keyFits := by decide
  banked := Nat.one_pos
  paged := Nat.le_refl maxChunkValueBytes
  poolMapped := fun mapped => mapped
  poolPast := oneUnit_unmapped

/-- The request to copy a value of three bytes from the start of the heap. -/
def threeBytes : MoveRequest := ⟨moveOpWriteThrough, 1, 0, 3, 0, []⟩

/-- The count of posts wraps: the request is returned under the number zero. -/
theorem external_requests_wrapped :
    ∃ trace state, Run (Step oneUnit (2 ^ 32 - 1))
        (System.start oneUnit (2 ^ 32 - 1) fun _ => 0) trace state ∧
      returnedOf trace = [⟨0, .writeThrough, 1, 3, 0⟩] ∧ InOrder (2 ^ 32 - 1) trace := by
  have addressable : oneUnit.Addressable := by
    unfold RuntimeConfig.Addressable RuntimeConfig.heapUnits
    decide
  have heap : oneUnit.valueHeapBytes = normalizeValueHeapBytes 0 oneUnit.maxValueBytes := by
    decide
  let fresh := System.start oneUnit (2 ^ 32 - 1) fun _ => 0
  let posted : System := { fresh with posted := [threeBytes] }
  let polled : System :=
    { posted with core := { posted.core with request := some (decode 0 threeBytes) } }
  have posts : Step oneUnit (2 ^ 32 - 1) fresh [.posted threeBytes] posted :=
    .post threeBytes rfl
  have formed : WellFormed oneUnit threeBytes .writeThrough := by
    unfold WellFormed rangeInHeap
    decide
  have idle : posted.core.request = none := rfl
  have zero : posted.count (2 ^ 32 - 1) = 0 := by decide
  have counted : 0 = succ32 posted.core.seen := by decide
  have word : posted.core.seen < 2 ^ 32 := by decide
  have returns : Worker.run (pollCall oneUnit true false true 0 threeBytes) posted.core =
      .finished (some ⟨0, .writeThrough, 1, 3, 0⟩) polled.core :=
    run_pollCall idle counted word rfl formed
  have polls : Step oneUnit (2 ^ 32 - 1) posted [.returned ⟨0, .writeThrough, 1, 3, 0⟩] polled := by
    apply Step.poll true true threeBytes fun _ => rfl
    rw [zero]
    exact congrArg (settle posted _ fun _ => id) returns
  have run := (Run.start.next posts).next polls
  exact ⟨_, _, run, rfl, (external_requests addressable heap (by decide) run).1⟩

end KvCache.HostTransfer.External
