import KvCache.Foundation.KeyRegistry
import KvCache.Lifecycle.Client
import Mathlib.Tactic.SplitIfs

/-!
# What a client may still touch is kept

The statement that a client is at says what it owns. While it asks for a session, the flag
is set exactly when the outcome of ESTABLISH is unknown; an established client owns its
operations, its mesh and its buffers until it is closed or quarantined; a quarantined one
has moved them to lists that are never drained, and a closed one owns nothing.
-/

namespace KvCache.ClientLifecycle

open Run Function

variable {impl next : Impl} {event : Event}

/-! ## What may still act -/

/-- An ESTABLISH was launched, and neither was a session agreed on nor was it the only
one and rejected. -/
def EstablishMayAct (impl : Impl) : Prop :=
  0 < impl.establishAttemptsStarted ∧ impl.agreed = false ∧
    ¬ (impl.establishAttemptsStarted = 1 ∧ impl.rejected = true)

/-- Some launched ESTABLISH or request may still act. -/
def MayAct (impl : Impl) : Prop := EstablishMayAct impl ∨ impl.outstanding = true

/-- The reasons to keep the resources: something may act, or a DETACH failed. -/
def Retains (impl : Impl) : Prop := MayAct impl ∨ impl.detachFailed = true

/-! ## What a client owns -/

/-- The mesh and the three buffers. -/
def Resources.Whole (resources : Resources) : Prop :=
  resources.submeshOwner = true ∧ resources.establishTxBuf = true ∧
    resources.establishResponseBuf = true ∧ resources.establishSemBuf = true

/-- No request was left without an outcome. -/
def Quiet (impl : Impl) : Prop := impl.outstanding = false ∧ impl.detachFailed = false

/-- Nothing was quarantined. -/
def Unpublished (impl : Impl) : Prop :=
  impl.operationsPublished = false ∧ impl.holderPublished = false ∧
    impl.quarantineHolder = .none

/-- A workload that may still run is the one in the resources. -/
def RunsIn (resources : Resources) (impl : Impl) : Prop :=
  impl.running = none ∨ impl.running = resources.establishWorkload

/-- A constructor is at work that has not launched ESTABLISH. -/
def Early (impl : Impl) (registered operations : Bool) : Prop :=
  impl.lifecycle = .constructing ∧ impl.registered = registered ∧
    impl.establishAttemptsStarted = 0 ∧ impl.establishMayHaveStarted = false ∧
    impl.running = none ∧ impl.rejected = false ∧ impl.agreed = false ∧ Quiet impl ∧
    Unpublished impl ∧ impl.operationsState = .constructing ∧ impl.operations = operations ∧
    impl.operationsAlive = operations

/-- A constructor has all that it needs to ask for a session. -/
def Asking (impl : Impl) : Prop :=
  impl.lifecycle = .constructing ∧ impl.registered = true ∧ impl.agreed = false ∧ Quiet impl ∧
    Unpublished impl ∧ impl.operationsState = .constructing ∧ impl.operations = true ∧
    impl.operationsAlive = true ∧ impl.resources.Whole ∧
    (impl.establishMayHaveStarted = true ↔ EstablishMayAct impl) ∧
    RunsIn impl.resources impl ∧
    (impl.establishAttemptsStarted = 0 ∨ impl.rejected = true → impl.running = none)

/-- No attempt is under way and none was rejected. -/
def Between (impl : Impl) : Prop := Asking impl ∧ impl.running = none ∧ impl.rejected = false

/-- A constructor failed without a launch that may still act. -/
def Failed (impl : Impl) (registered : Bool) : Prop :=
  impl.lifecycle = .constructing ∧ impl.registered = registered ∧ impl.agreed = false ∧
    Quiet impl ∧ Unpublished impl ∧ impl.operationsState = .constructing ∧
    impl.operationsAlive = impl.operations ∧ ¬ EstablishMayAct impl ∧ impl.running = none

/-- The session is agreed on and the client owns what it needs. -/
def Live (impl : Impl) : Prop :=
  impl.lifecycle = .established ∧ impl.registered = true ∧ impl.agreed = true ∧
    impl.operations = true ∧ impl.operationsAlive = true ∧ impl.resources.Whole ∧
    impl.running = none ∧ impl.holderPublished = false ∧ impl.quarantineHolder = .none

/-- No request is on its way. -/
def Open (impl : Impl) : Prop :=
  Live impl ∧ Quiet impl ∧ Unpublished impl ∧ impl.operationsState = .established

/-- A request is on its way. -/
def Waits (impl : Impl) : Prop :=
  Live impl ∧ impl.outstanding = true ∧ impl.detachFailed = false ∧ Unpublished impl ∧
    impl.operationsState = .established

/-- The operations are quarantined and the client is not yet. -/
def Lagging (impl : Impl) : Prop :=
  Live impl ∧ impl.operationsState = .quarantined ∧ impl.operationsPublished = true ∧
    (impl.outstanding = true ∨ impl.detachFailed = true)

/-- The session was detached. -/
def Detached (impl : Impl) : Prop :=
  Live impl ∧ Quiet impl ∧ Unpublished impl ∧ impl.operationsState = .closed

/-- A client is being quarantined. -/
def Shelving (impl : Impl) : Prop :=
  impl.lifecycle = .quarantined ∧ impl.registered = true ∧ impl.operations = true ∧
    impl.operationsAlive = true ∧ impl.resources.Whole ∧ RunsIn impl.resources impl ∧
    impl.holderPublished = false ∧ impl.quarantineHolder = .none ∧ Retains impl ∧
    ((impl.operationsState = .quarantined ∧ impl.operationsPublished = true) ∨
      (impl.operationsState = .constructing ∧ impl.operationsPublished = false))

/-- A client is quarantined. -/
def Kept (impl : Impl) : Prop :=
  impl.lifecycle = .quarantined ∧ impl.registered = true ∧ impl.operations = false ∧
    impl.operationsAlive = true ∧ impl.resources = .none ∧ impl.quarantineHolder.Whole ∧
    RunsIn impl.quarantineHolder impl ∧ impl.holderPublished = true ∧ Retains impl ∧
    impl.operationsState = .quarantined ∧ impl.operationsPublished = true

/-- A client gives up what it owns, its mesh last. -/
def Parting (impl : Impl) (registered : Bool) : Prop :=
  impl.lifecycle = .established ∧ impl.registered = registered ∧ impl.agreed = true ∧
    impl.operations = false ∧ impl.operationsAlive = false ∧ impl.running = none ∧ Quiet impl ∧
    Unpublished impl

/-- A client owns nothing any more. -/
def Closed (impl : Impl) : Prop :=
  impl.lifecycle = .closed ∧ impl.registered = false ∧ impl.agreed = true ∧
    impl.operations = false ∧ impl.operationsAlive = false ∧ impl.resources = .none ∧
    impl.running = none ∧ Quiet impl ∧ Unpublished impl

/-- The quarantine was begun by the constructor. -/
def Leaver.Allowed (leaver : Leaver) (impl : Impl) : Prop :=
  leaver = .construction → impl.agreed = false ∧ Quiet impl

/-- What a client owns at a statement. -/
def Owns (impl : Impl) : Prop :=
  match impl.point with
  | .unborn | .initializing | .registering =>
    Early impl false false ∧ impl.inserts = 0 ∧
      (impl.point = .registering → impl.resources.submeshOwner = true)
  | .configuring | .creatingOperations =>
    Early impl true false ∧ impl.resources.submeshOwner = true
  | .reservingTx => Early impl true true ∧ impl.resources.submeshOwner = true
  | .reservingResponse =>
    Early impl true true ∧ impl.resources.submeshOwner = true ∧
      impl.resources.establishTxBuf = true
  | .reservingSem =>
    Early impl true true ∧ impl.resources.submeshOwner = true ∧
      impl.resources.establishTxBuf = true ∧ impl.resources.establishResponseBuf = true
  | .aligning => Early impl true true ∧ impl.resources.Whole
  | .sending | .launching => Between impl
  | .adding | .enqueuing =>
    Between impl ∧ impl.resources.establishWorkload = some impl.establishAttemptsStarted
  | .polling => Asking impl ∧ impl.rejected = false ∧ 0 < impl.establishAttemptsStarted
  | .readingStatus | .applying | .configuringSession =>
    Between impl ∧ 0 < impl.establishAttemptsStarted
  | .establishing => Live { impl with lifecycle := .established } ∧ impl.lifecycle = .constructing ∧
      Quiet impl ∧ Unpublished impl ∧ impl.operationsState = .established
  | .catching => Early impl true impl.operations ∨ Asking impl
  | .abandoning => Failed impl true
  | .unwinding => Failed impl false ∨ (Kept impl ∧ Leaver.construction.Allowed impl)
  | .idle | .closing _ => Open impl ∨ Kept impl ∨ Closed impl
  | .working _ => Open impl
  | .awaiting _ => Waits impl
  | .syncing caller threw =>
    Lagging impl ∨ Open impl ∨ (Detached impl ∧ caller ≠ .operation ∧ threw = false)
  | .quarantining leaver => Shelving impl ∧ leaver.Allowed impl
  | .publishingOperations _ (.quarantining leaver) =>
    Shelving impl ∧ impl.operationsState = .quarantined ∧ leaver.Allowed impl
  | .publishingOperations _ (.syncing _ _) => Lagging impl
  | .publishingHolder _ leaver => Kept impl ∧ leaver.Allowed impl
  | .releasing _ => Open impl ∨ Detached impl
  | .unregistering _ => Parting impl true
  | .finishing _ => Parting impl false
  | .gone =>
    if impl.destroyed then Kept impl ∨ Closed impl
    else (Failed impl false ∧ impl.operations = false ∧ impl.resources = .none) ∨
      (Kept impl ∧ Leaver.construction.Allowed impl)

/-- The history of a client: its key is released once, after it was inserted, which it was
if it agreed on a session, and a destroyed client is gone. -/
structure History (impl : Impl) : Prop where
  counted : impl.inserts = impl.releases + impl.registered.toNat
  once : impl.inserts ≤ 1
  agreed : impl.agreed = true → impl.inserts = 1
  destroyed : impl.destroyed = true → impl.point = .gone

/-- The invariant of one client. -/
structure Fits (impl : Impl) : Prop where
  owns : Owns impl
  history : History impl

/-! ## Statements -/

theorem prepares_fits (fits : Fits impl) (taken : prepares event impl = some next) : Fits next := by
  obtain ⟨owns, counted, once, agreed, destroyed⟩ := fits
  unfold prepares at taken
  split at taken <;> simp only [Owns, *] at owns <;>
    grind [Fits, History, Owns, Early, Failed, Between, Asking, Quiet, Unpublished, RunsIn,
      EstablishMayAct, Resources.Whole]

theorem sends_fits (fits : Fits impl) (taken : sends event impl = some next) : Fits next := by
  obtain ⟨owns, counted, once, agreed, destroyed⟩ := fits
  unfold sends at taken
  split at taken <;> simp only [Owns, *] at owns <;>
    grind [Fits, History, Owns, Between, Asking, Quiet, Unpublished, RunsIn, EstablishMayAct,
      Resources.Whole]

theorem destroyMembers_alive (impl : Impl) :
    (destroyMembers impl).operationsAlive =
      if impl.operations ∧ impl.operationsState ≠ .quarantined then false
      else impl.operationsAlive := rfl

theorem applies_fits {peer : Peer} (fits : Fits impl) (taken : applies peer event impl = some next) :
    Fits next := by
  obtain ⟨owns, counted, once, agreed, destroyed⟩ := fits
  unfold applies at taken
  split at taken <;> simp only [Owns, *] at owns <;>
    grind [Fits, History, Owns, Between, Asking, Quiet, Unpublished, RunsIn, EstablishMayAct,
      Resources.Whole, Live, Open, Shelving, Retains, MayAct, Failed, Early, Leaver.Allowed, Kept,
      destroyMembers, resetOperations]

theorem leaveClose_fits {closer : Closer} (owns : Open impl ∨ Kept impl ∨ Closed impl)
    (settled : closer = .destructor → Kept impl ∨ Closed impl) (history : History impl)
    (alive : impl.point ≠ .gone) : Fits (leaveClose closer impl) := by
  obtain ⟨counted, once, agreed, destroyed⟩ := history
  have undestroyed : impl.destroyed = false := by grind
  cases closer with
  | user => exact ⟨owns, counted, once, agreed, fun gone => by grind [leaveClose]⟩
  | destructor =>
    refine ⟨?_, counted, once, agreed, fun _ => rfl⟩
    have settled := settled rfl
    grind [leaveClose, Owns, destroyMembers, resetOperations, Kept, Closed, Quiet, Unpublished,
      RunsIn, Retains, MayAct, EstablishMayAct]

theorem leaveCall_fits {caller : Caller} {threw : Bool}
    (owns : Open impl ∨ Kept impl ∨ (Detached impl ∧ caller ≠ .operation ∧ threw = false))
    (history : History impl) (alive : impl.point ≠ .gone) : Fits (leaveCall caller threw impl) := by
  cases caller with
  | operation =>
    obtain ⟨counted, once, agreed, destroyed⟩ := history
    grind [leaveCall, Fits, Owns, History, Open, Kept, Live, Quiet, Unpublished, RunsIn, Retains,
      MayAct, EstablishMayAct]
  | close closer =>
    unfold leaveCall
    dsimp only
    split
    · refine leaveClose_fits ?_ ?_ history alive <;> grind [Open, Live, Detached]
    · obtain ⟨counted, once, agreed, destroyed⟩ := history
      grind [Fits, Owns, History, Open, Kept, Live, Quiet, Unpublished, Detached]

theorem closes_fits (fits : Fits impl) (taken : closes event impl = some next) : Fits next := by
  obtain ⟨owns, history⟩ := fits
  unfold closes at taken
  split at taken
  · next closer entered =>
    simp only [Owns, entered] at owns
    have alive : impl.point ≠ .gone := by simp [entered]
    split at taken <;> obtain rfl := Option.some.inj taken
    · exact leaveClose_fits owns (by grind [Open, Live]) history alive
    · exact leaveClose_fits owns (by grind [Open, Live]) history alive
    · exact leaveCall_fits (by grind [Closed]) history alive
    all_goals
      obtain ⟨counted, once, agreed, destroyed⟩ := history
      grind [Fits, Owns, History, Open, Kept, Closed, Live, Quiet, Unpublished]
  · exact nomatch taken

theorem works_fits (fits : Fits impl) (taken : works event impl = some next) : Fits next := by
  obtain ⟨owns, counted, once, agreed, destroyed⟩ := fits
  unfold works at taken
  split at taken <;> simp only [Owns, *] at owns <;>
    grind [Fits, History, Owns, Open, Waits, Detached, Live, Quiet, Unpublished]

theorem settles_fits (fits : Fits impl) (taken : settles event impl = some next) : Fits next := by
  obtain ⟨owns, history⟩ := fits
  unfold settles at taken
  split at taken
  · next caller threw point =>
    simp only [Owns, point] at owns
    obtain rfl := Option.some.inj taken
    have alive : impl.point ≠ .gone := by simp [point]
    split
    · obtain ⟨counted, once, agreed, destroyed⟩ := history
      grind [Fits, Owns, History, Lagging, Open, Detached, Shelving, Live, Retains, MayAct, RunsIn,
        Leaver.Allowed, EstablishMayAct]
    · exact leaveCall_fits (by grind [Lagging, Live]) history alive
  · next closer point =>
    simp only [Owns, point] at owns
    obtain ⟨counted, once, agreed, destroyed⟩ := history
    grind [Fits, Owns, History, Open, Detached, Live, Quiet, Unpublished, Parting, resetOperations]
  · next closer point =>
    simp only [Owns, point] at owns
    obtain rfl := Option.some.inj taken
    have closed : Closed { impl with resources := .none, lifecycle := .closed } := by
      grind [Parting, Closed, Quiet, Unpublished]
    exact leaveClose_fits (Or.inr (Or.inr closed)) (fun _ => Or.inr closed)
      ⟨history.counted, history.once, history.agreed, history.destroyed⟩ (by simp [point])
  · exact nomatch taken

/-! ## Statements that concern one client only -/

/-- The head that a push of the operations has read. -/
def Point.operationsHead : Point → Option (Option Nat)
  | .publishingOperations head _ => some head
  | _ => none

/-- The head that a push of the holder has read. -/
def Point.holderHead : Point → Option (Option Nat)
  | .publishingHolder head _ => some head
  | _ => none

/-- Quarantined, or closed. -/
def LifecycleState.Settled (lifecycle : LifecycleState) : Prop :=
  lifecycle = .quarantined ∨ lifecycle = .closed

/-- A settled client stays settled, and a published holder keeps what is in it. -/
def Stays (impl next : Impl) : Prop :=
  (impl.lifecycle.Settled → next.lifecycle = impl.lifecycle) ∧
    (impl.holderPublished = true →
      next.holderPublished = true ∧ next.quarantineHolder = impl.quarantineHolder)

/-- The list of the holders does not notice a step of one client. -/
structure SameHolder (impl next : Impl) : Prop where
  published : next.holderPublished = impl.holderPublished
  head : next.point.holderHead = impl.point.holderHead

/-- The list of the operations does not notice a step of one client. -/
structure SameOperations (impl next : Impl) : Prop where
  published : next.operationsPublished = impl.operationsPublished
  head : next.point.operationsHead = impl.point.operationsHead

/-- A step of one client that the registry and the lists do not notice. -/
structure Private (impl next : Impl) : Prop where
  fits : Fits next
  registered : next.registered = impl.registered
  holder : SameHolder impl next
  operations : SameOperations impl next
  stays : Stays impl next

theorem prepares_private (fits : Fits impl) (taken : prepares event impl = some next) :
    Private impl next := by
  have after := prepares_fits fits taken
  unfold prepares at taken
  split at taken <;> grind [Private, SameHolder, SameOperations, Stays, Point.operationsHead, Point.holderHead]

theorem sends_private (fits : Fits impl) (taken : sends event impl = some next) :
    Private impl next := by
  have after := sends_fits fits taken
  unfold sends at taken
  split at taken <;> grind [Private, SameHolder, SameOperations, Stays, Point.operationsHead, Point.holderHead]

theorem applies_private {peer : Peer} (fits : Fits impl)
    (taken : applies peer event impl = some next) : Private impl next := by
  have after := applies_fits fits taken
  have owns := fits.owns
  unfold applies at taken
  split at taken <;> simp only [Owns, *] at owns <;>
    grind [Private, SameHolder, SameOperations, Stays, Point.operationsHead, Point.holderHead, destroyMembers, resetOperations,
      LifecycleState.Settled, Early, Asking]

@[simp] theorem leaveClose_kept (closer : Closer) (impl : Impl) :
    (leaveClose closer impl).registered = impl.registered ∧
      (leaveClose closer impl).operationsPublished = impl.operationsPublished ∧
      (leaveClose closer impl).holderPublished = impl.holderPublished ∧
      (leaveClose closer impl).quarantineHolder = impl.quarantineHolder ∧
      (leaveClose closer impl).lifecycle = impl.lifecycle ∧
      (leaveClose closer impl).point.operationsHead = none ∧
      (leaveClose closer impl).point.holderHead = none := by
  cases closer <;> exact ⟨rfl, rfl, rfl, rfl, rfl, rfl, rfl⟩

@[simp] theorem leaveCall_kept (caller : Caller) (threw : Bool) (impl : Impl) :
    (leaveCall caller threw impl).registered = impl.registered ∧
      (leaveCall caller threw impl).operationsPublished = impl.operationsPublished ∧
      (leaveCall caller threw impl).holderPublished = impl.holderPublished ∧
      (leaveCall caller threw impl).quarantineHolder = impl.quarantineHolder ∧
      (leaveCall caller threw impl).lifecycle = impl.lifecycle ∧
      (leaveCall caller threw impl).point.operationsHead = none ∧
      (leaveCall caller threw impl).point.holderHead = none := by
  unfold leaveCall
  split
  · exact ⟨rfl, rfl, rfl, rfl, rfl, rfl, rfl⟩
  · split
    · exact leaveClose_kept _ _
    · split <;> exact ⟨rfl, rfl, rfl, rfl, rfl, rfl, rfl⟩

theorem closes_private (fits : Fits impl) (taken : closes event impl = some next) :
    Private impl next := by
  have after := closes_fits fits taken
  unfold closes at taken
  split at taken
  · split at taken <;>
      grind [Private, SameHolder, SameOperations, Stays, Point.operationsHead, Point.holderHead, leaveClose_kept, leaveCall_kept]
  · exact nomatch taken

theorem works_private (fits : Fits impl) (taken : works event impl = some next) :
    Private impl next := by
  have after := works_fits fits taken
  unfold works at taken
  split at taken <;> grind [Private, SameHolder, SameOperations, Stays, Point.operationsHead, Point.holderHead]

theorem settles_private (fits : Fits impl) (taken : settles event impl = some next) :
    Private impl next := by
  have after := settles_fits fits taken
  have owns := fits.owns
  unfold settles at taken
  split at taken <;> simp only [Owns, *] at owns <;>
    grind [Private, SameHolder, SameOperations, Stays, Point.operationsHead, Point.holderHead, leaveClose_kept, leaveCall_kept,
      resetOperations, LifecycleState.Settled, Parting, Live, Lagging, Open, Detached]

/-! ## All clients -/

/-- The clients own what they may touch, the registry is right, and the two lists hold
what was published. -/
structure Safe (key : Nat → ClientRegistryKey) (state : State) : Prop where
  fits : ∀ id, Fits (state.clients id)
  registry : Exclusive key (fun id => (state.clients id).registered = true) state.activeClients
  quarantine : state.quarantine.Pushed (fun id => (state.clients id).holderPublished = true)
    fun id => (state.clients id).point.holderHead
  operationsQuarantine : state.operationsQuarantine.Pushed
    (fun id => (state.clients id).operationsPublished = true)
    fun id => (state.clients id).point.operationsHead

/-- Every client stays settled, and every published holder is kept. -/
def Keeps (state after : State) : Prop := ∀ id, Stays (state.clients id) (after.clients id)

variable {key : Nat → ClientRegistryKey} {peer : Nat → Peer} {state after : State} {id : Nat}

theorem Stays.refl (impl : Impl) : Stays impl impl := ⟨fun _ => rfl, fun published => ⟨published, rfl⟩⟩

theorem onClient_keeps (stays : Stays (state.clients id) next) :
    ∀ other, Stays (state.clients other) (update state.clients id next other) :=
  (forall_update_iff state.clients fun other => Stays (state.clients other)).mpr
    ⟨stays, fun _ _ => .refl _⟩

theorem onClient_fits (fits : ∀ id, Fits (state.clients id)) (mine : Fits next) :
    ∀ other, Fits (update state.clients id next other) :=
  (forall_update_iff state.clients fun _ => Fits).mpr ⟨mine, fun other _ => fits other⟩

/-- What one client keeps, a state with that client changed keeps for all. -/
theorem onClient_same {α : Type} (read : Impl → α) (same : read next = read (state.clients id)) :
    ∀ other, read (update state.clients id next other) = read (state.clients other) :=
  (forall_update_iff state.clients fun other impl => read impl = read (state.clients other)).mpr
    ⟨same, fun _ _ => rfl⟩

/-- The list of the holders, when it does not notice the step of a client. -/
theorem Safe.keepsHolders (safe : Safe key state) (same : SameHolder (state.clients id) next) :
    state.quarantine.Pushed (fun other => (update state.clients id next other).holderPublished = true)
      fun other => (update state.clients id next other).point.holderHead :=
  safe.quarantine.congr
    (fun other => iff_of_eq (congrArg (· = true) (onClient_same (·.holderPublished) same.published other)))
    (onClient_same (·.point.holderHead) same.head)

/-- The list of the operations, when it does not notice the step of a client. -/
theorem Safe.keepsOperations (safe : Safe key state)
    (same : SameOperations (state.clients id) next) :
    state.operationsQuarantine.Pushed
      (fun other => (update state.clients id next other).operationsPublished = true)
      fun other => (update state.clients id next other).point.operationsHead :=
  safe.operationsQuarantine.congr
    (fun other =>
      iff_of_eq (congrArg (· = true) (onClient_same (·.operationsPublished) same.published other)))
    (onClient_same (·.point.operationsHead) same.head)

/-- The registry, when it does not notice the step of a client. -/
theorem Safe.keepsRegistry (safe : Safe key state)
    (same : next.registered = (state.clients id).registered) :
    Exclusive key (fun other => (update state.clients id next other).registered = true)
      state.activeClients :=
  safe.registry.congr fun other =>
    iff_of_eq (congrArg (· = true) (onClient_same (·.registered) same other))

/-- A step that the registry and the lists do not notice. -/
theorem Safe.onClient (safe : Safe key state) (alone : Private (state.clients id) next) :
    Safe key (onClient id state next) ∧ Keeps state (onClient id state next) :=
  ⟨⟨onClient_fits safe.fits alone.fits, safe.keepsRegistry alone.registered,
    safe.keepsHolders alone.holder, safe.keepsOperations alone.operations⟩,
    onClient_keeps alone.stays⟩

/-- The constructor inserts its key, or throws because it is taken. -/
theorem Safe.register (safe : Safe key state) (point : (state.clients id).point = .registering) :
    Safe key (register key id state) ∧ Keeps state (register key id state) := by
  obtain ⟨owns, counted, once, agreed, destroyed⟩ := safe.fits id
  simp only [Owns, point] at owns
  have unlisted : ∀ registered inserts target, target = .unwinding ∨ target = .configuring →
      let next : Impl := { state.clients id with
        registered := registered, inserts := inserts, point := target }
      SameHolder (state.clients id) next ∧ SameOperations (state.clients id) next ∧
        Stays (state.clients id) next := by
    grind [SameHolder, SameOperations, Point.operationsHead, Point.holderHead, Stays]
  dsimp only [ClientLifecycle.register]
  split
  · obtain ⟨holder, operations, stays⟩ :=
      unlisted (state.clients id).registered (state.clients id).inserts .unwinding (Or.inl rfl)
    refine safe.onClient ⟨?_, rfl, holder, operations, stays⟩
    grind [Fits, Owns, History, Early, Failed, EstablishMayAct, Unpublished, Quiet]
  · next vacant =>
    obtain ⟨holder, operations, stays⟩ :=
      unlisted true ((state.clients id).inserts + 1) .configuring (Or.inr rfl)
    refine ⟨⟨onClient_fits safe.fits ?_, safe.registry.insert vacant ?_ fun other apart => ?_,
      safe.keepsHolders holder, safe.keepsOperations operations⟩, onClient_keeps stays⟩
    · grind [Fits, Owns, History, Early, Quiet, Unpublished]
    · simp [ClientLifecycle.onClient]
    · simp [ClientLifecycle.onClient, apart]

/-- A client gives its key up, which nobody else holds. -/
theorem Safe.unregister (safe : Safe key state) {target : Point}
    (holds : (state.clients id).registered = true)
    (fits : Fits { state.clients id with
      registered := false, releases := (state.clients id).releases + 1, point := target })
    (operationsHead : target.operationsHead = (state.clients id).point.operationsHead)
    (holderHead : target.holderHead = (state.clients id).point.holderHead) :
    Safe key (unregister key id target state) ∧ Keeps state (unregister key id target state) := by
  refine ⟨⟨onClient_fits safe.fits fits, safe.registry.erase holds ?_ fun other apart => ?_,
    safe.keepsHolders ⟨rfl, holderHead⟩, safe.keepsOperations ⟨rfl, operationsHead⟩⟩,
    onClient_keeps ⟨fun _ => rfl, fun published => ⟨published, rfl⟩⟩⟩
  · simp [ClientLifecycle.unregister, ClientLifecycle.onClient]
  · simp [ClientLifecycle.unregister, ClientLifecycle.onClient, apart]

/-! ## The lists -/

/-- A push of the operations begins. -/
theorem Safe.loadsOperations (safe : Safe key state)
    (fresh : (state.clients id).operationsPublished = false) (fits : Fits next)
    (registered : next.registered = (state.clients id).registered)
    (holder : SameHolder (state.clients id) next) (stays : Stays (state.clients id) next)
    (published : next.operationsPublished = true)
    (head : next.point.operationsHead = some state.operationsQuarantine.head) :
    let after := { ClientLifecycle.onClient id state next with
      operationsQuarantine := state.operationsQuarantine.load id }
    Safe key after ∧ Keeps state after := by
  refine ⟨⟨onClient_fits safe.fits fits, safe.keepsRegistry registered, safe.keepsHolders holder,
    safe.operationsQuarantine.load (by simp [fresh]) ?_ ?_ ?_ ?_⟩, onClient_keeps stays⟩
  · simpa [ClientLifecycle.onClient] using published
  · intro other apart
    simp [ClientLifecycle.onClient, apart]
  · simpa [ClientLifecycle.onClient] using head
  · intro other apart
    simp [ClientLifecycle.onClient, apart]

/-- A push of the holder begins. -/
theorem Safe.loadsHolder (safe : Safe key state)
    (fresh : (state.clients id).holderPublished = false) (fits : Fits next)
    (registered : next.registered = (state.clients id).registered)
    (operations : SameOperations (state.clients id) next) (stays : Stays (state.clients id) next)
    (published : next.holderPublished = true)
    (head : next.point.holderHead = some state.quarantine.head) :
    let after := { ClientLifecycle.onClient id state next with
      quarantine := state.quarantine.load id }
    Safe key after ∧ Keeps state after := by
  refine ⟨⟨onClient_fits safe.fits fits, safe.keepsRegistry registered,
    safe.quarantine.load (by simp [fresh]) ?_ ?_ ?_ ?_, safe.keepsOperations operations⟩,
    onClient_keeps stays⟩
  · simpa [ClientLifecycle.onClient] using published
  · intro other apart
    simp [ClientLifecycle.onClient, apart]
  · simpa [ClientLifecycle.onClient] using head
  · intro other apart
    simp [ClientLifecycle.onClient, apart]

/-- The head of the operations is exchanged, or read again. -/
theorem Safe.exchangesOperations (safe : Safe key state) {head : Option Nat} {spurious : Bool}
    (reads : (state.clients id).point.operationsHead = some head) (fits : Fits next)
    (registered : next.registered = (state.clients id).registered)
    (holder : SameHolder (state.clients id) next) (stays : Stays (state.clients id) next)
    (published : next.operationsPublished = (state.clients id).operationsPublished)
    (read : next.point.operationsHead =
      if state.operationsQuarantine.head = head ∧ ¬ spurious then none
      else some state.operationsQuarantine.head) :
    let after := { ClientLifecycle.onClient id state next with
      operationsQuarantine := state.operationsQuarantine.attempt id head spurious }
    Safe key after ∧ Keeps state after := by
  have tried : (state.operationsQuarantine.attempt id head spurious).Pushed
      (fun other => (state.clients other).operationsPublished = true)
      fun other => (update state.clients id next other).point.operationsHead := by
    refine safe.operationsQuarantine.attempt reads spurious ?_ fun other apart => ?_
    · simpa using read
    · simp [apart]
  refine ⟨⟨onClient_fits safe.fits fits, safe.keepsRegistry registered, safe.keepsHolders holder,
    tried.congr (fun other => iff_of_eq (congrArg (· = true) ?_)) fun other => rfl⟩,
    onClient_keeps stays⟩
  exact onClient_same (·.operationsPublished) published other

/-- The head of the holders is exchanged, or read again. -/
theorem Safe.exchangesHolder (safe : Safe key state) {head : Option Nat} {spurious : Bool}
    (reads : (state.clients id).point.holderHead = some head) (fits : Fits next)
    (registered : next.registered = (state.clients id).registered)
    (operations : SameOperations (state.clients id) next) (stays : Stays (state.clients id) next)
    (published : next.holderPublished = (state.clients id).holderPublished)
    (read : next.point.holderHead =
      if state.quarantine.head = head ∧ ¬ spurious then none else some state.quarantine.head) :
    let after := { ClientLifecycle.onClient id state next with
      quarantine := state.quarantine.attempt id head spurious }
    Safe key after ∧ Keeps state after := by
  have tried : (state.quarantine.attempt id head spurious).Pushed
      (fun other => (state.clients other).holderPublished = true)
      fun other => (update state.clients id next other).point.holderHead := by
    refine safe.quarantine.attempt reads spurious ?_ fun other apart => ?_
    · simpa using read
    · simp [apart]
  refine ⟨⟨onClient_fits safe.fits fits, safe.keepsRegistry registered,
    tried.congr (fun other => iff_of_eq (congrArg (· = true) ?_)) fun other => rfl,
    safe.keepsOperations operations⟩, onClient_keeps stays⟩
  exact onClient_same (·.holderPublished) published other

theorem leaveQuarantine_fits {leaver : Leaver} (kept : Kept impl) (allowed : leaver.Allowed impl)
    (history : History impl) (alive : impl.point ≠ .gone) : Fits (leaveQuarantine leaver impl) := by
  cases leaver with
  | construction =>
    obtain ⟨counted, once, agreed, destroyed⟩ := history
    grind [leaveQuarantine, Fits, Owns, History, Kept, RunsIn, Retains, MayAct, EstablishMayAct,
      Leaver.Allowed, Quiet]
  | call caller threw => exact leaveCall_fits (Or.inr (Or.inl kept)) history alive

theorem leaveQuarantine_kept (leaver : Leaver) (impl : Impl) :
    (leaveQuarantine leaver impl).registered = impl.registered ∧
      (leaveQuarantine leaver impl).operationsPublished = impl.operationsPublished ∧
      (leaveQuarantine leaver impl).holderPublished = impl.holderPublished ∧
      (leaveQuarantine leaver impl).quarantineHolder = impl.quarantineHolder ∧
      (leaveQuarantine leaver impl).lifecycle = impl.lifecycle ∧
      (leaveQuarantine leaver impl).point.operationsHead = none ∧
      (leaveQuarantine leaver impl).point.holderHead = none := by
  cases leaver with
  | construction => exact ⟨rfl, rfl, rfl, rfl, rfl, rfl, rfl⟩
  | call caller threw => exact leaveCall_kept ..

@[simp] theorem resume_heads (resume : Resume) :
    resume.point.operationsHead = none ∧ resume.point.holderHead = none := by
  cases resume <;> exact ⟨rfl, rfl⟩

/-- The operations are quarantined by a request or by the constructor. -/
theorem Safe.publishOperations (safe : Safe key state) {resume : Resume} (failed : Bool)
    (fresh : (state.clients id).operationsPublished = false)
    (quiet : (state.clients id).point.holderHead = none)
    (fits : Fits { state.clients id with
      detachFailed := failed, operationsState := .quarantined, operationsPublished := true
      point := .publishingOperations state.operationsQuarantine.head resume }) :
    let after := publishOperations id resume { state.clients id with detachFailed := failed } state
    Safe key after ∧ Keeps state after := by
  dsimp only [ClientLifecycle.publishOperations]
  rw [if_neg (by simp [fresh])]
  exact safe.loadsOperations fresh fits rfl ⟨rfl, quiet.symm⟩
    ⟨fun _ => rfl, fun published => ⟨published, rfl⟩⟩ rfl rfl

/-- Quarantining keeps what it moves. -/
theorem Safe.quarantines (safe : Safe key state) (taken : quarantines id event state = some after) :
    Safe key after ∧ Keeps state after := by
  obtain ⟨owns, history⟩ := safe.fits id
  have ⟨counted, once, agreed, destroyed⟩ := history
  unfold ClientLifecycle.quarantines at taken
  dsimp only at taken
  split at taken
  · next leaver point =>
    simp only [Owns, point] at owns
    obtain ⟨shelving, allowed⟩ := owns
    obtain rfl := Option.some.inj taken
    split
    · next unpublished =>
      refine safe.publishOperations (state.clients id).detachFailed ?_ ?_ ?_
      · grind [Shelving]
      · simp [point, Point.holderHead]
      · grind [Fits, Owns, History, Shelving, RunsIn, Retains, MayAct, EstablishMayAct,
          Leaver.Allowed, Quiet]
    · next published =>
      refine safe.loadsHolder ?_ ?_ rfl ?_ ?_ rfl rfl
      · grind [Shelving]
      · grind [Fits, Owns, History, Shelving, Kept, RunsIn, Retains, MayAct, EstablishMayAct,
          Leaver.Allowed, Quiet, resetOperations]
      · exact ⟨rfl, by simp [point, Point.operationsHead]⟩
      · grind [Stays, Shelving, resetOperations]
  · next activity point =>
    simp only [Owns, point] at owns
    obtain rfl := Option.some.inj taken
    refine safe.publishOperations _ ?_ ?_ ?_
    · grind [Waits, Unpublished]
    · simp [point, Point.holderHead]
    · cases activity <;>
        grind [Fits, Owns, History, Waits, Lagging, Live, Unpublished, Activity.failed,
          Activity.isDetach]
  · next closer point =>
    simp only [Owns, point] at owns
    obtain rfl := Option.some.inj taken
    refine safe.publishOperations _ ?_ ?_ ?_
    · grind [Open, Unpublished]
    · simp [point, Point.holderHead]
    · grind [Fits, Owns, History, Open, Lagging, Live, Unpublished]
  · next head resume spurious point =>
    simp only [Owns, point] at owns
    obtain rfl := Option.some.inj taken
    refine safe.exchangesOperations (by simp [point, Point.operationsHead]) ?_ rfl ?_ ?_ rfl ?_
    · cases resume <;> split <;>
        grind [Fits, Owns, History, Lagging, Live, Shelving, RunsIn, Retains, MayAct,
          EstablishMayAct, Leaver.Allowed, Quiet, Resume.point]
    · have quiet : (state.clients id).point.holderHead = none := by simp [point, Point.holderHead]
      refine ⟨rfl, Eq.trans ?_ quiet.symm⟩
      dsimp only
      split_ifs
      · exact (resume_heads resume).2
      · rfl
    · exact ⟨fun _ => rfl, fun published => ⟨published, rfl⟩⟩
    · dsimp only
      split_ifs
      · exact (resume_heads resume).1
      · rfl
  · next head leaver spurious point =>
    simp only [Owns, point] at owns
    obtain ⟨kept, allowed⟩ := owns
    obtain rfl := Option.some.inj taken
    have left := leaveQuarantine_kept leaver (state.clients id)
    refine safe.exchangesHolder (by simp [point, Point.holderHead]) ?_ ?_ ?_ ?_ ?_ ?_
    · split
      · exact leaveQuarantine_fits kept allowed history (by simp [point])
      · grind [Fits, Owns, History, Kept, RunsIn, Retains, MayAct, EstablishMayAct, Leaver.Allowed,
          Quiet]
    · split
      · exact left.1
      · rfl
    · have quiet : (state.clients id).point.operationsHead = none := by
        simp [point, Point.operationsHead]
      constructor
      · split_ifs
        · exact left.2.1
        · rfl
      · refine Eq.trans ?_ quiet.symm
        split_ifs
        · exact left.2.2.2.2.2.1
        · rfl
    · split_ifs
      · exact ⟨fun _ => left.2.2.2.2.1, fun published => ⟨left.2.2.1.trans published, left.2.2.2.1⟩⟩
      · exact ⟨fun _ => rfl, fun published => ⟨published, rfl⟩⟩
    · split
      · exact left.2.2.1
      · rfl
    · split_ifs
      · exact left.2.2.2.2.2.2
      · rfl
  · exact nomatch taken

/-! ## Steps -/

theorem Safe.advance (safe : Safe key state) (taken : advance key peer id event state = some after) :
    Safe key after ∧ Keeps state after := by
  have fits := safe.fits id
  obtain ⟨owns, counted, once, agreed, destroyed⟩ := safe.fits id
  unfold ClientLifecycle.advance at taken
  dsimp only at taken
  split at taken
  · next point =>
    obtain rfl := Option.some.inj taken
    exact safe.register point
  · next point =>
    simp only [Owns, point] at owns
    obtain rfl := Option.some.inj taken
    refine safe.unregister owns.2.1 ?_ ?_ ?_
    · grind [Fits, Owns, History, Failed, Quiet, Unpublished, EstablishMayAct]
    · simp [point, Point.operationsHead]
    · simp [point, Point.holderHead]
  · next closer point =>
    simp only [Owns, point] at owns
    obtain rfl := Option.some.inj taken
    refine safe.unregister owns.2.1 ?_ ?_ ?_
    · grind [Fits, Owns, History, Parting, Quiet, Unpublished]
    · simp [point, Point.operationsHead]
    · simp [point, Point.holderHead]
  · rcases Option.or_eq_some_iff.mp taken with quarantined | ⟨-, rest⟩
    · exact safe.quarantines quarantined
    · obtain ⟨next, stepped, rfl⟩ := Option.map_eq_some_iff.mp rest
      simp only [Option.or_eq_some_iff] at stepped
      obtain prepared | ⟨-, sent | ⟨-, applied | ⟨-, closed | ⟨-, worked | ⟨-, settled⟩⟩⟩⟩⟩ := stepped
      · exact safe.onClient (prepares_private fits prepared)
      · exact safe.onClient (sends_private fits sent)
      · exact safe.onClient (applies_private fits applied)
      · exact safe.onClient (closes_private fits closed)
      · exact safe.onClient (works_private fits worked)
      · exact safe.onClient (settles_private fits settled)

/-- A call begins, or a constructor. -/
theorem call_private (fits : Fits impl) (quiet : impl.point = .unborn ∨ impl.point = .idle)
    (owns : Owns next)
    (moved : ∃ target, next = { impl with point := target } ∧ target ≠ .gone ∧
      target.operationsHead = none ∧ target.holderHead = none) : Private impl next := by
  obtain ⟨target, rfl, alive, operations, holder⟩ := moved
  obtain ⟨-, counted, once, agreed, destroyed⟩ := fits
  have undestroyed : impl.destroyed = false := by grind
  refine ⟨⟨owns, counted, once, agreed, by simp [undestroyed]⟩, rfl, ⟨rfl, holder.trans ?_⟩,
    ⟨rfl, operations.trans ?_⟩, fun _ => rfl, fun published => ⟨published, rfl⟩⟩
  · rcases quiet with point | point <;> simp [point, Point.holderHead]
  · rcases quiet with point | point <;> simp [point, Point.operationsHead]

/-- Every step keeps the clients, the registry and the lists in order. -/
theorem Safe.step {action : Action} (safe : Safe key state)
    (taken : step key peer state action = some after) : Safe key after ∧ Keeps state after := by
  cases action with
  | construct id =>
    simp only [ClientLifecycle.step, Option.ite_none_right_eq_some, Option.some.injEq] at taken
    obtain ⟨point, rfl⟩ := taken
    have owns := (safe.fits id).owns
    refine safe.onClient (call_private (safe.fits id) (Or.inl point) ?_
      ⟨.initializing, rfl, by simp, rfl, rfl⟩)
    simp only [Owns, point] at owns
    exact ⟨owns.1, owns.2.1, by simp⟩
  | callOperation id =>
    simp only [ClientLifecycle.step, Option.ite_none_right_eq_some, Option.some.injEq] at taken
    obtain ⟨point, rfl⟩ := taken
    have owns := (safe.fits id).owns
    simp only [Owns, point] at owns
    refine safe.onClient ?_
    unfold callOperation
    split
    · refine call_private (safe.fits id) (Or.inr point) ?_ ⟨.working .operation, rfl, by simp, rfl, rfl⟩
      grind [Owns, Open, Kept, Closed, Live, Quiet, Unpublished]
    · exact call_private (safe.fits id) (Or.inr point) (safe.fits id).owns
        ⟨.idle, point ▸ rfl, by simp, rfl, rfl⟩
  | callClose id | destroy id =>
    simp only [ClientLifecycle.step, Option.ite_none_right_eq_some, Option.some.injEq] at taken
    obtain ⟨point, rfl⟩ := taken
    have owns := (safe.fits id).owns
    simp only [Owns, point] at owns
    exact safe.onClient (call_private (safe.fits id) (Or.inr point) owns
      ⟨.closing _, rfl, by simp, rfl, rfl⟩)
  | advance id event => exact safe.advance taken

theorem start_safe (key : Nat → ClientRegistryKey) : Safe key start where
  fits id := by
    refine ⟨⟨?_, rfl, by simp [start, Impl.unborn]⟩, rfl, Nat.zero_le 1, nofun, nofun⟩
    exact ⟨rfl, rfl, rfl, rfl, rfl, rfl, rfl, ⟨rfl, rfl⟩, ⟨rfl, rfl, rfl⟩, rfl, rfl, rfl⟩
  registry := ⟨nofun, nofun⟩
  quarantine := PointerStack.pushed_empty.congr (by simp [start, Impl.unborn]) fun _ => rfl
  operationsQuarantine := PointerStack.pushed_empty.congr (by simp [start, Impl.unborn]) fun _ => rfl

/-! ## The guarantee -/

/-- A node on the chain of a list. -/
def Listed (list : PointerStack Nat) (id : Nat) : Prop :=
  ∃ chain, PointerStack.Chain list.next list.head chain ∧ id ∈ chain

/-- Nobody is at work in the client: it is between two calls, or gone. -/
def AtRest (impl : Impl) : Prop := impl.point = .idle ∨ impl.point = .gone

/-- What holds of a client in every state reached. -/
structure ClientSafe (key : Nat → ClientRegistryKey) (state : State) (id : Nat) : Prop where
  /-- A registered client has its key in the registry, nobody else has, -/
  held : (state.clients id).registered = true → state.activeClients (key id) = true ∧
    ∀ other, (state.clients other).registered = true → key other = key id → other = id
  /-- and the key is inserted once at most and released once at most after that. -/
  once : (state.clients id).inserts ≤ 1 ∧
    (state.clients id).inserts =
      (state.clients id).releases + (state.clients id).registered.toNat
  /-- What may still act, or a DETACH that failed, keeps the key, the operations, the mesh,
  the buffers and the workload: the client has them or its holder has. -/
  retained : Retains (state.clients id) → (state.clients id).registered = true ∧
    (state.clients id).operationsAlive = true ∧
    (((state.clients id).resources.Whole ∧ RunsIn (state.clients id).resources (state.clients id)) ∨
      ((state.clients id).quarantineHolder.Whole ∧
        RunsIn (state.clients id).quarantineHolder (state.clients id)))
  /-- At rest, such a client is quarantined, and holder and operations are on the lists. -/
  listed : Retains (state.clients id) → AtRest (state.clients id) →
    (state.clients id).lifecycle = .quarantined ∧ (state.clients id).quarantineHolder.Whole ∧
      RunsIn (state.clients id).quarantineHolder (state.clients id) ∧
      Listed state.quarantine id ∧ Listed state.operationsQuarantine id
  /-- A closed client has released its key. -/
  closed : (state.clients id).lifecycle = .closed → (state.clients id).releases = 1
  /-- A closed client, and a gone one without a reason to keep anything, has released its
  key and owns nothing; nor does its holder. -/
  released : (state.clients id).lifecycle = .closed ∨
    ((state.clients id).point = .gone ∧ ¬ Retains (state.clients id)) →
      (state.clients id).releases = (state.clients id).inserts ∧
        (state.clients id).operationsAlive = false ∧ (state.clients id).resources = .none ∧
        (state.clients id).quarantineHolder = .none
  /-- A constructor that failed after it inserted its key has released it if and only if it
  launched nothing, or one ESTABLISH that was rejected. -/
  failed : (state.clients id).point = .gone → (state.clients id).destroyed = false →
    (state.clients id).inserts = 1 →
      ((state.clients id).releases = 1 ↔ (state.clients id).establishAttemptsStarted = 0 ∨
        ((state.clients id).establishAttemptsStarted = 1 ∧ (state.clients id).rejected = true))

theorem Safe.client (safe : Safe key state) (id : Nat) : ClientSafe key state id := by
  have ⟨owns, counted, once, agreed, destroyed⟩ := safe.fits id
  have listed : Retains (state.clients id) → AtRest (state.clients id) → Kept (state.clients id) := by
    intro retains rest
    unfold Owns at owns
    rcases rest with point | point <;> simp only [point] at owns <;>
      grind [Open, Closed, Live, Failed, Retains, MayAct, EstablishMayAct, Quiet]
  refine ⟨fun registered => ⟨safe.registry.held id registered, fun other holds same =>
      safe.registry.unique holds registered same⟩, ⟨once, counted⟩, fun retains => ?_,
    fun retains rest => ?_, fun closed => ?_, fun dead => ?_, fun gone undestroyed inserted => ?_⟩
  · unfold Owns at owns
    generalize state.clients id = impl at *
    grind [Early, Asking, Between, Failed, Live, Open, Waits, Lagging, Detached, Shelving, Kept,
      Parting, Closed, Retains, MayAct, EstablishMayAct, Quiet, Unpublished, RunsIn]
  · have kept := listed retains rest
    refine ⟨kept.1, kept.2.2.2.2.2.1, kept.2.2.2.2.2.2.1, ?_, ?_⟩
    · refine safe.quarantine.on_chain kept.2.2.2.2.2.2.2.1 ?_
      rcases rest with point | point <;> simp [point, Point.holderHead]
    · refine safe.operationsQuarantine.on_chain kept.2.2.2.2.2.2.2.2.2.2 ?_
      rcases rest with point | point <;> simp [point, Point.operationsHead]
  · unfold Owns at owns
    generalize state.clients id = impl at *
    grind [Early, Asking, Between, Failed, Live, Open, Waits, Lagging, Detached, Shelving, Kept,
      Parting, Closed]
  · unfold Owns at owns
    generalize state.clients id = impl at *
    grind [Early, Asking, Between, Failed, Live, Open, Waits, Lagging, Detached, Shelving, Kept,
      Parting, Closed, Unpublished]
  · simp only [Owns, gone, undestroyed] at owns
    generalize state.clients id = impl at *
    grind [Failed, Kept, Retains, MayAct, EstablishMayAct, Quiet, Leaver.Allowed]

/-- The life cycle of a client under unknown outcomes: what holds of every client in every
state that a run reaches, and that quarantined and closed clients stay so, the former with
all that is in their holders.

Proof: the statement that a client is at says what it owns. Every statement keeps this,
and no step of one client changes another. The lists are only pushed to, so what was
published is on them once its push is over. -/
theorem client_lifecycle {trace : List Empty} (run : Run (Takes (move key peer)) start trace state) :
    (∀ id, ClientSafe key state id) ∧
      ∀ action after, step key peer state action = some after → Keeps state after := by
  have safe := run.invariant (Safe key) (start_safe key) <| by
    rintro before events after safe ⟨action, taken⟩
    obtain ⟨next, stepped, same⟩ := Option.map_eq_some_iff.mp taken
    obtain ⟨rfl, -⟩ := Prod.mk.inj same
    exact (safe.step stepped).1
  exact ⟨safe.client, fun action after stepped => (safe.step stepped).2⟩

/-- A client that expects nothing in particular. -/
def plainPeer : Peer := ⟨7, 0, 3, none, 16, 18, 18, 8⟩

/-- The statements of a constructor up to the launch of its first ESTABLISH. -/
def launches (id : Nat) : List Action :=
  .construct id :: List.replicate 12 (.advance id .proceeds)

/-- Two attempts time out, and the deadline passes: the constructor quarantines. -/
theorem client_lifecycle_timeout : ∃ trace state,
    Run (Takes (move (fun id => (id, 0)) fun _ => plainPeer)) start trace state ∧
      (state.clients 0).establishAttemptsStarted = 2 ∧ (state.clients 0).point = .gone ∧
      (state.clients 0).lifecycle = .quarantined ∧ ClientSafe (fun id => (id, 0)) state 0 := by
  have begin : Run (Takes (move (fun id => (id, 0)) fun _ => plainPeer)) start [] start := .start
  have executed : Run.execute (move (fun id => (id, 0)) fun _ => plainPeer) start
      (launches 0 ++ [.advance 0 .proceeds, .advance 0 (.reads 2), .advance 0 .proceeds,
        .advance 0 .proceeds, .advance 0 .proceeds, .advance 0 .proceeds, .advance 0 .proceeds,
        .advance 0 (.reads 2), .advance 0 .throws, .advance 0 .proceeds, .advance 0 .proceeds,
        .advance 0 (.exchanges true), .advance 0 (.exchanges false), .advance 0 .proceeds,
        .advance 0 (.exchanges false), .advance 0 .proceeds]) = some (_, _) := rfl
  have run := begin.execute executed
  exact ⟨_, _, run, rfl, rfl, rfl, (client_lifecycle run).1 0⟩

/-- A DETACH that fails before it is submitted quarantines the client although nothing may
still act: after the destructor the key is held for good. -/
theorem detach_failure_retains : ∃ trace state,
    Run (Takes (move (fun id => (id, 0)) fun _ => plainPeer)) start trace state ∧
      (state.clients 0).destroyed = true ∧ ¬ MayAct (state.clients 0) ∧
      (state.clients 0).registered = true ∧ (state.clients 0).releases = 0 := by
  have begin : Run (Takes (move (fun id => (id, 0)) fun _ => plainPeer)) start [] start := .start
  have executed : Run.execute (move (fun id => (id, 0)) fun _ => plainPeer) start
      (launches 0 ++ [.advance 0 .proceeds, .advance 0 (.reads 1),
        .advance 0 (.responds ⟨bootstrapMagic, 4, 0, 0x3F, 7, 0, 35, ⟨0, 0, 0, 18, 18, 8⟩⟩ true),
        .advance 0 .proceeds, .advance 0 .proceeds, .callClose 0, .advance 0 .proceeds,
        .advance 0 .submits, .advance 0 .proceeds, .advance 0 .throws, .advance 0 (.exchanges false),
        .advance 0 .proceeds, .advance 0 .proceeds, .advance 0 (.exchanges false), .destroy 0,
        .advance 0 .proceeds]) = some (_, _) := rfl
  have run := begin.execute executed
  refine ⟨_, _, run, rfl, ?_, rfl, rfl⟩
  rintro (⟨-, agreed, -⟩ | waits)
  · exact nomatch agreed
  · exact nomatch waits

end KvCache.ClientLifecycle
