import KvCache.Foundation.KeyRegistry
import KvCache.Lifecycle.Server

/-!
# A server is closed or quarantined, once

What a server owns follows from the statement it is at. From the registration on, it
has its key; between the launch and the teardown it has the runtime and a worker that
was not joined; after a teardown it has none of them. The teardown joins the worker
before the runtime goes, and only a close that terminated the device program gets as
far as the closed state.
-/

namespace KvCache.ServerLifecycle

open Run Function

variable {key : Nat → ServerRegistryKey} {impl next : Impl} {state after : State}

/-! ## What a server owns -/

/-- The worker was started and is not joined. -/
def Worker.Live (worker : Worker) : Prop :=
  worker ≠ .absent ∧ worker ≠ .gated ∧ worker ≠ .joined

/-- There is no thread. -/
def Worker.Gone (worker : Worker) : Prop := worker = .absent ∨ worker = .joined

/-- Ready, or closing. -/
def LifecycleState.Unsettled (lifecycle : LifecycleState) : Prop :=
  lifecycle = .ready ∨ lifecycle = .closing

/-- Closed, or quarantined. -/
def LifecycleState.Settled (lifecycle : LifecycleState) : Prop :=
  lifecycle = .closed ∨ lifecycle = .quarantined

/-- The server works, or closing may be tried again. -/
def Open (impl : Impl) : Prop :=
  impl.lifecycle.Unsettled ∧ impl.registered = true ∧ impl.runtime = true ∧ impl.worker.Live

/-- The server owns nothing any more. -/
def Shut (impl : Impl) : Prop :=
  impl.lifecycle.Settled ∧ impl.registered = false ∧ impl.runtime = false ∧ impl.worker = .joined

/-- A constructor is at work, with what it made so far. -/
def Building (impl : Impl) (registered runtime : Bool) (worker : Worker) : Prop :=
  impl.lifecycle = .constructing ∧ impl.registered = registered ∧ impl.runtime = runtime ∧
    impl.worker = worker

/-- A constructor failed. -/
def Failed (impl : Impl) (registered : Bool) : Prop :=
  impl.lifecycle = .constructing ∧ impl.registered = registered ∧ impl.worker.Gone

/-- A teardown has joined the worker and still has the key. -/
def Joined (impl : Impl) (runtime : Bool) : Prop :=
  impl.registered = true ∧ impl.runtime = runtime ∧ impl.worker = .joined

/-- A teardown into the closed state has terminated the device program. -/
def Teardown.Allowed (teardown : Teardown) (impl : Impl) : Prop :=
  teardown.target = .closed → impl.terminated = true

/-- What a server owns at a statement. -/
def Owns (impl : Impl) : Prop :=
  match impl.point with
  | .unborn | .registering => Building impl false false .absent ∧ impl.inserts = 0
  | .configuring | .creating => Building impl true false .absent
  | .spawning => Building impl true true .absent
  | .launching | .cancelling | .starting => Building impl true true .gated
  | .abandoning => Failed impl true
  | .unwinding => Failed impl false
  | .gone => impl.registered = false ∧ impl.runtime = false ∧ impl.worker.Gone ∧
      (if impl.destroyed then Shut impl else impl.lifecycle = .constructing)
  | .idle | .entered _ | .quarantineEntered _ => Open impl ∨ Shut impl
  | .checkingBeforeDrain _ | .draining _ | .drainFailed _ | .checkingAfterDrain _
  | .terminating _ => Open impl ∧ impl.lifecycle = .closing
  | .stopping teardown | .joining teardown => Open impl ∧ teardown.Allowed impl
  | .resetting teardown =>
    Joined impl true ∧ impl.lifecycle.Unsettled ∧ teardown.Allowed impl
  | .settling teardown => Joined impl false ∧ impl.lifecycle.Unsettled ∧ teardown.Allowed impl
  | .unregistering teardown =>
    Joined impl false ∧ impl.lifecycle = teardown.target ∧ teardown.Allowed impl

/-- The history of a server: its key is released once, after it was inserted, a closed
server was terminated, and a destroyed one is gone. -/
structure History (impl : Impl) : Prop where
  counted : impl.inserts = impl.releases + impl.registered.toNat
  once : impl.inserts ≤ 1
  closed : impl.lifecycle = .closed → impl.terminated = true
  destroyed : impl.destroyed = true → impl.point = .gone

/-- The invariant of one server. -/
structure Fits (impl : Impl) : Prop where
  owns : Owns impl
  history : History impl

/-! ## Statements -/

theorem leaveClose_fits {closer : Closer} {threw : Bool} (owns : Open impl ∨ Shut impl)
    (shut : threw = false → Shut impl) (history : History impl) (alive : impl.point ≠ .gone) :
    Fits (leaveClose closer threw impl) := by
  obtain ⟨counted, once, closed, destroyed⟩ := history
  have undestroyed : impl.destroyed = true → False := fun gone => alive (destroyed gone)
  unfold leaveClose
  split
  · exact ⟨owns, counted, once, closed, fun gone => (undestroyed gone).elim⟩
  · obtain ⟨settled, unregistered, -, joined⟩ := shut rfl
    exact ⟨⟨unregistered, rfl, Or.inr joined, settled, unregistered, rfl, joined⟩,
      counted, once, closed, fun _ => rfl⟩
  · exact ⟨owns, counted, once, closed, fun gone => (undestroyed gone).elim⟩
  · exact ⟨owns, counted, once, closed, fun gone => (undestroyed gone).elim⟩

theorem leaveQuarantine_fits {quarantiner : Quarantiner} (shut : Shut impl)
    (history : History impl) (alive : impl.point ≠ .gone) :
    Fits (leaveQuarantine quarantiner impl) := by
  cases quarantiner with
  | closer closer => exact leaveClose_fits (Or.inr shut) nofun history alive
  | destructor =>
    obtain ⟨settled, unregistered, -, joined⟩ := shut
    exact ⟨⟨unregistered, rfl, Or.inr joined, settled, unregistered, rfl, joined⟩,
      history.counted, history.once, history.closed, fun _ => rfl⟩

theorem constructs_fits {succeeds : Bool} (fits : Fits impl)
    (taken : constructs succeeds impl = some next) : Fits next := by
  obtain ⟨owns, counted, once, closed, destroyed⟩ := fits
  unfold constructs at taken
  split at taken <;> simp only [Owns, *] at owns <;>
    grind [Fits, History, Owns, Building, Failed, Open, Worker.Live, Worker.Gone,
      LifecycleState.Unsettled]

theorem closes_fits {succeeds : Bool} (fits : Fits impl)
    (taken : closes succeeds impl = some next) : Fits next := by
  obtain ⟨owns, history⟩ := fits
  have counts := history
  obtain ⟨counted, once, closed, destroyed⟩ := counts
  unfold closes at taken
  split at taken
  · next closer entered =>
    simp only [Owns, entered] at owns
    have alive : impl.point ≠ .gone := by simp [entered]
    split at taken
    · next lifecycle =>
      obtain rfl := Option.some.inj taken
      have shut : Shut impl := by
        grind [Open, LifecycleState.Unsettled]
      exact leaveClose_fits owns (fun _ => shut) history alive
    · next lifecycle =>
      obtain rfl := Option.some.inj taken
      have shut : Shut impl := by
        grind [Open, LifecycleState.Unsettled]
      exact leaveClose_fits owns (fun _ => shut) history alive
    · next lifecycle =>
      obtain rfl := Option.some.inj taken
      exact leaveClose_fits owns nofun history alive
    · grind [Fits, History, Owns, Open, Shut, LifecycleState.Unsettled, LifecycleState.Settled]
    · grind [Fits, History, Owns, Open, Shut, LifecycleState.Unsettled, LifecycleState.Settled]
  · next closer checking =>
    simp only [Owns, checking] at owns
    grind [Fits, History, Owns, Open]
  · next closer draining =>
    simp only [Owns, draining] at owns
    grind [Fits, History, Owns, Open]
  · next closer drainFailed =>
    simp only [Owns, drainFailed] at owns
    obtain rfl := Option.some.inj taken
    apply leaveClose_fits
    · grind [Open, LifecycleState.Unsettled]
    · exact nofun
    · grind [History]
    · simp [drainFailed]
  · next closer checking =>
    simp only [Owns, checking] at owns
    grind [Fits, History, Owns, Open]
  · next closer terminating =>
    simp only [Owns, terminating] at owns
    split at taken
    · obtain rfl := Option.some.inj taken
      exact ⟨⟨owns.1, fun _ => rfl⟩, counted, once, fun _ => rfl, by grind⟩
    · obtain rfl := Option.some.inj taken
      exact leaveClose_fits (Or.inl owns.1) nofun history (by simp [terminating])
  · exact nomatch taken

theorem tearsDown_fits (fits : Fits impl) (taken : tearsDown impl = some next) : Fits next := by
  obtain ⟨owns, history⟩ := fits
  have counts := history
  obtain ⟨counted, once, closed, destroyed⟩ := counts
  unfold tearsDown at taken
  split at taken
  · next quarantiner entered =>
    simp only [Owns, entered] at owns
    split at taken
    · next settled =>
      obtain rfl := Option.some.inj taken
      have shut : Shut impl := by
        grind [Open, LifecycleState.Unsettled]
      exact leaveQuarantine_fits shut history (by simp [entered])
    · obtain rfl := Option.some.inj taken
      have opened : Open impl := by
        grind [Shut, LifecycleState.Settled]
      exact ⟨⟨opened, nofun⟩, counted, once, closed, by grind⟩
  · next teardown stopping =>
    simp only [Owns, stopping] at owns
    grind [Fits, History, Owns, Open, Teardown.Allowed]
  · next teardown joining =>
    simp only [Owns, joining] at owns
    have live := owns.1.2.2.2
    split at taken
    · next absent => exact absurd absent live.1
    · next joined => exact absurd joined live.2.2
    · obtain rfl := Option.some.inj taken
      obtain ⟨⟨unsettled, registered, runtime, -⟩, allowed⟩ := owns
      exact ⟨⟨⟨registered, runtime, rfl⟩, unsettled, allowed⟩, counted, once, closed, by grind⟩
    · exact nomatch taken
  · next teardown resetting =>
    simp only [Owns, resetting] at owns
    grind [Fits, History, Owns, Joined, Teardown.Allowed]
  · next teardown settling =>
    simp only [Owns, settling] at owns
    obtain ⟨joined, -, allowed⟩ := owns
    obtain rfl := Option.some.inj taken
    exact ⟨⟨joined, rfl, allowed⟩, counted, once, allowed, by grind⟩
  · exact nomatch taken

/-- The registered server that a teardown ends in. -/
theorem leaveTeardown_fits {teardown : Teardown} (shut : Shut impl) (history : History impl)
    (alive : impl.point ≠ .gone) : Fits (leaveTeardown teardown impl) := by
  cases teardown with
  | close closer => exact leaveClose_fits (Or.inr shut) (fun _ => shut) history alive
  | quarantine quarantiner => exact leaveQuarantine_fits shut history alive

theorem workerStep_fits {event : WorkerEvent} (fits : Fits impl)
    (taken : workerStep event impl = some next) : Fits next := by
  obtain ⟨owns, counted, once, closed, destroyed⟩ := fits
  have live : impl.worker = .running ∨ impl.worker = .failing ∨ impl.worker = .recording := by
    unfold workerStep at taken
    split at taken <;> simp_all
  have changed : ∃ worker failed, worker.Live ∧
      next = { impl with worker := worker, workerFailed := failed } := by
    unfold workerStep at taken
    split at taken
    · split at taken
      · exact ⟨_, _, by simp [Worker.Live], (Option.some.inj taken).symm⟩
      · exact nomatch taken
    · exact ⟨_, _, by simp [Worker.Live], (Option.some.inj taken).symm⟩
    · refine ⟨_, _, ?_, (Option.some.inj taken).symm⟩
      split <;> simp [Worker.Live]
    · exact ⟨_, _, by simp [Worker.Live], (Option.some.inj taken).symm⟩
    · exact nomatch taken
  obtain ⟨worker, failed, lives, rfl⟩ := changed
  refine ⟨?_, counted, once, closed, destroyed⟩
  unfold Owns at owns ⊢
  dsimp only
  split <;> grind [Building, Failed, Open, Shut, Joined, Worker.Gone, Worker.Live, Teardown.Allowed]

theorem enter_fits {index : Nat} (fits : Fits impl) (taken : enter index impl = some next) :
    Fits next := by
  obtain ⟨owns, counted, once, closed, destroyed⟩ := fits
  unfold enter at taken
  split at taken
  · next idle =>
    obtain ⟨call, found, rfl⟩ := Option.map_eq_some_iff.mp taken
    simp only [Owns, idle] at owns
    have alive : impl.destroyed = true → False := fun gone => by
      simpa [idle] using destroyed gone
    cases call with
    | close closer => exact ⟨owns, counted, once, closed, fun gone => (alive gone).elim⟩
    | quarantine quarantiner => exact ⟨owns, counted, once, closed, fun gone => (alive gone).elim⟩
  · exact nomatch taken

/-! ## What stays as it is -/

@[simp] theorem leaveClose_registered (closer : Closer) (threw : Bool) (impl : Impl) :
    (leaveClose closer threw impl).registered = impl.registered := by
  unfold leaveClose
  split <;> rfl

@[simp] theorem leaveClose_lifecycle (closer : Closer) (threw : Bool) (impl : Impl) :
    (leaveClose closer threw impl).lifecycle = impl.lifecycle := by
  unfold leaveClose
  split <;> rfl

@[simp] theorem leaveQuarantine_registered (quarantiner : Quarantiner) (impl : Impl) :
    (leaveQuarantine quarantiner impl).registered = impl.registered := by
  cases quarantiner with
  | closer closer => exact leaveClose_registered closer true impl
  | destructor => rfl

@[simp] theorem leaveQuarantine_lifecycle (quarantiner : Quarantiner) (impl : Impl) :
    (leaveQuarantine quarantiner impl).lifecycle = impl.lifecycle := by
  cases quarantiner with
  | closer closer => exact leaveClose_lifecycle closer true impl
  | destructor => rfl

@[simp] theorem leaveTeardown_registered (teardown : Teardown) (impl : Impl) :
    (leaveTeardown teardown impl).registered = impl.registered := by
  cases teardown with
  | close closer => exact leaveClose_registered closer false impl
  | quarantine quarantiner => exact leaveQuarantine_registered quarantiner impl

@[simp] theorem leaveTeardown_lifecycle (teardown : Teardown) (impl : Impl) :
    (leaveTeardown teardown impl).lifecycle = impl.lifecycle := by
  cases teardown with
  | close closer => exact leaveClose_lifecycle closer false impl
  | quarantine quarantiner => exact leaveQuarantine_lifecycle quarantiner impl

/-- A step that concerns one server alone: it fits, keeps its key, and stays closed or
quarantined. -/
structure Private (impl next : Impl) : Prop where
  fits : Fits next
  registered : next.registered = impl.registered
  settled : impl.lifecycle.Settled → next.lifecycle = impl.lifecycle

theorem constructs_private {succeeds : Bool} (fits : Fits impl)
    (taken : constructs succeeds impl = some next) : Private impl next := by
  refine ⟨constructs_fits fits taken, ?_, ?_⟩
  · unfold constructs at taken
    split at taken <;> grind
  · obtain ⟨owns, -⟩ := fits
    intro settled
    unfold constructs at taken
    split at taken <;> simp only [Owns, *] at owns <;>
      grind [Building, LifecycleState.Settled]

theorem closes_private {succeeds : Bool} (fits : Fits impl)
    (taken : closes succeeds impl = some next) : Private impl next := by
  refine ⟨closes_fits fits taken, ?_, ?_⟩
  · unfold closes at taken
    split at taken <;> grind [leaveClose_registered]
  · obtain ⟨owns, -⟩ := fits
    intro settled
    unfold closes at taken
    split at taken <;> simp only [Owns, *] at owns <;>
      grind [leaveClose_lifecycle, LifecycleState.Settled]

theorem tearsDown_private (fits : Fits impl) (taken : tearsDown impl = some next) :
    Private impl next := by
  refine ⟨tearsDown_fits fits taken, ?_, ?_⟩
  · unfold tearsDown at taken
    split at taken <;> grind [leaveQuarantine_registered]
  · obtain ⟨owns, -⟩ := fits
    intro settled
    unfold tearsDown at taken
    split at taken <;> simp only [Owns, *] at owns <;>
      grind [leaveQuarantine_lifecycle, LifecycleState.Settled, LifecycleState.Unsettled]

theorem workerStep_private {event : WorkerEvent} (fits : Fits impl)
    (taken : workerStep event impl = some next) : Private impl next := by
  refine ⟨workerStep_fits fits taken, ?_, fun _ => ?_⟩ <;>
    unfold workerStep at taken <;> grind

theorem enter_private {index : Nat} (fits : Fits impl) (taken : enter index impl = some next) :
    Private impl next := by
  refine ⟨enter_fits fits taken, ?_, fun _ => ?_⟩ <;>
    unfold enter at taken <;> grind

/-- A longer queue for the mutex. -/
theorem queue_private (fits : Fits impl) (waiting : List Waiting) (destroying : Bool) :
    Private impl { impl with waiting := waiting, destroying := destroying } :=
  ⟨⟨fits.owns, fits.history.counted, fits.history.once, fits.history.closed,
    fits.history.destroyed⟩, rfl, fun _ => rfl⟩

/-! ## All servers -/

/-- Every server fits, and the registry holds the keys of the registered ones, no two of
which share a key. -/
structure Registered (key : Nat → ServerRegistryKey) (state : State) : Prop where
  fits : ∀ id, Fits (state.servers id)
  held : ∀ id, (state.servers id).registered = true → state.activeServers (key id) = true
  owned : ∀ place, state.activeServers place = true →
    ∃! id, (state.servers id).registered = true ∧ key id = place

/-- A server that is closed or quarantined stays so. -/
def Terminal (state after : State) : Prop :=
  ∀ id, (state.servers id).lifecycle.Settled →
    (after.servers id).lifecycle = (state.servers id).lifecycle

theorem onServer_same (id : Nat) (state : State) (impl : Impl) :
    (onServer id state impl).servers id = impl := update_self ..

theorem onServer_other {id other : Nat} (state : State) (impl : Impl) (different : other ≠ id) :
    (onServer id state impl).servers other = state.servers other := update_of_ne different ..

/-- A step of one server. -/
theorem Registered.onServer (registered : Registered key state) {id : Nat}
    (alone : Private (state.servers id) next) :
    Registered key (onServer id state next) ∧ Terminal state (onServer id state next) := by
  have same : ∀ other, ((ServerLifecycle.onServer id state next).servers other).registered =
      (state.servers other).registered := by
    intro other
    by_cases here : other = id
    · rw [here, onServer_same]
      exact alone.registered
    · rw [onServer_other state next here]
  refine ⟨⟨fun other => ?_, fun other => ?_, fun place active => ?_⟩, fun other settled => ?_⟩
  · by_cases here : other = id
    · rw [here, onServer_same]
      exact alone.fits
    · rw [onServer_other state next here]
      exact registered.fits other
  · rw [same]
    exact registered.held other
  · simp only [same]
    exact registered.owned place active
  · by_cases here : other = id
    · subst here
      rw [onServer_same]
      exact alone.settled settled
    · rw [onServer_other state next here]

/-- The registry is one of exclusive keys. -/
theorem Registered.exclusive (registered : Registered key state) :
    Exclusive key (fun id => (state.servers id).registered = true) state.activeServers :=
  ⟨registered.held, registered.owned⟩

/-- The constructor inserts its key, or throws because it is taken. -/
theorem Registered.register (registered : Registered key state) {id : Nat}
    (registering : (state.servers id).point = .registering) :
    Registered key (register key id state) ∧ Terminal state (register key id state) := by
  have fits := registered.fits id
  obtain ⟨owns, counted, once, closed, destroyed⟩ := fits
  simp only [Owns, registering] at owns
  obtain ⟨⟨lifecycle, unregistered, runtime, worker⟩, inserts⟩ := owns
  have undestroyed : (state.servers id).destroyed = false := by
    by_contra gone
    simpa [registering] using destroyed (by simpa using gone)
  dsimp only [ServerLifecycle.register]
  split
  · refine registered.onServer ?_
    refine ⟨⟨⟨unregistered, runtime, Or.inl worker, ?_⟩, counted, once, closed, fun _ => rfl⟩, rfl,
      fun _ => rfl⟩
    simpa [undestroyed] using lifecycle
  · next vacant =>
    have exclusive : Exclusive key (fun other => ((update state.servers id
        { state.servers id with
          registered := true, inserts := (state.servers id).inserts + 1
          point := .configuring }) other).registered = true) (update state.activeServers (key id) true) :=
      registered.exclusive.insert vacant (by simp) (by simp +contextual)
    refine ⟨⟨fun other => ?_, exclusive.held, exclusive.owned⟩, fun other settled => ?_⟩
    · by_cases here : other = id
      · subst here
        simp only [update_self]
        have zero : (state.servers other).releases = 0 := by
          simp only [unregistered, inserts] at counted
          simpa using counted.symm
        exact ⟨⟨lifecycle, rfl, runtime, worker⟩, by simp [inserts, zero], by simp [inserts], closed,
          fun gone => absurd (undestroyed.symm.trans gone) nofun⟩
      · simp only [update_of_ne here]
        exact registered.fits other
    · by_cases here : other = id
      · subst here
        simp
      · simp only [update_of_ne here]

/-- A registered server releases its key, which nobody else holds. -/
theorem Registered.unregister (registered : Registered key state) {id : Nat} {next : Impl → Impl}
    (holds : (state.servers id).registered = true)
    (fits : Fits (next { state.servers id with
      registered := false, releases := (state.servers id).releases + 1 }))
    (released : (next { state.servers id with
      registered := false, releases := (state.servers id).releases + 1 }).registered = false)
    (lifecycle : (next { state.servers id with
      registered := false, releases := (state.servers id).releases + 1 }).lifecycle =
        (state.servers id).lifecycle) :
    Registered key (unregisterServer key id next state) ∧
      Terminal state (unregisterServer key id next state) := by
  dsimp only [unregisterServer]
  rw [if_pos holds]
  have exclusive : Exclusive key (fun other => ((update state.servers id
      (next { state.servers id with
        registered := false, releases := (state.servers id).releases + 1 })) other).registered = true)
      (update state.activeServers (key id) false) :=
    registered.exclusive.erase holds (by simp [released]) (by simp +contextual)
  refine ⟨⟨fun other => ?_, exclusive.held, exclusive.owned⟩, fun other settled => ?_⟩
  · by_cases here : other = id
    · simp only [here, update_self]
      exact fits
    · simp only [update_of_ne here]
      exact registered.fits other
  · by_cases here : other = id
    · simp only [here, update_self]
      exact lifecycle
    · simp only [update_of_ne here]

/-- The registry and the servers after one statement. -/
theorem advance_registered (registered : Registered key state) {id : Nat} {succeeds : Bool}
    (taken : advance key id succeeds state = some after) :
    Registered key after ∧ Terminal state after := by
  have fits := registered.fits id
  have owns := fits.owns
  have history := fits.history
  obtain ⟨counted, once, closed, destroyed⟩ := history
  unfold advance at taken
  dsimp only at taken
  split at taken
  · next registering =>
    obtain rfl := Option.some.inj taken
    exact registered.register registering
  · next abandoning =>
    simp only [Owns, abandoning] at owns
    obtain ⟨lifecycle, holds, gone⟩ := owns
    obtain rfl := Option.some.inj taken
    have alive : (state.servers id).destroyed = true → False := fun gone => by
      simpa [abandoning] using destroyed gone
    refine registered.unregister holds ⟨⟨lifecycle, rfl, gone⟩, ?_, once, closed, ?_⟩ rfl rfl
    · simpa [holds] using counted
    · exact fun gone => (alive gone).elim
  · next teardown unregistering =>
    simp only [Owns, unregistering] at owns
    obtain ⟨⟨holds, runtime, joined⟩, lifecycle, allowed⟩ := owns
    obtain rfl := Option.some.inj taken
    have settled : (state.servers id).lifecycle.Settled := by
      rw [lifecycle]
      cases teardown with
      | close closer => exact Or.inl rfl
      | quarantine quarantiner => exact Or.inr rfl
    have history : History { state.servers id with
        registered := false, releases := (state.servers id).releases + 1 } :=
      ⟨by simpa [holds] using counted, once, closed, destroyed⟩
    refine registered.unregister holds ?_ (by simp) (by simp)
    exact leaveTeardown_fits ⟨settled, rfl, runtime, joined⟩ history (by simp [unregistering])
  · obtain ⟨next, stepped, rfl⟩ := Option.map_eq_some_iff.mp taken
    rcases Option.or_eq_some_iff.mp stepped with constructed | ⟨-, rest⟩
    · exact registered.onServer (constructs_private fits constructed)
    · rcases Option.or_eq_some_iff.mp rest with closed | ⟨-, torn⟩
      · exact registered.onServer (closes_private fits closed)
      · exact registered.onServer (tearsDown_private fits torn)

/-- Every step keeps the registry and the servers in order. -/
theorem step_registered {action : Action} (registered : Registered key state)
    (taken : step key state action = some after) : Registered key after ∧ Terminal state after := by
  cases action with
  | construct id =>
    have fits := registered.fits id
    obtain ⟨owns, history⟩ := fits
    simp only [step] at taken
    split at taken
    · next unborn =>
      obtain rfl := Option.some.inj taken
      simp only [Owns, unborn] at owns
      have alive : (state.servers id).destroyed = true → False := fun gone => by
        simpa [unborn] using history.destroyed gone
      exact registered.onServer ⟨⟨owns, history.counted, history.once, history.closed,
        fun gone => (alive gone).elim⟩, rfl, fun _ => rfl⟩
    · exact nomatch taken
  | callClose id =>
    simp only [step] at taken
    split at taken
    · obtain rfl := Option.some.inj taken
      exact registered.onServer (queue_private (registered.fits id) _ _)
    · exact nomatch taken
  | destroy id =>
    simp only [step] at taken
    split at taken
    · obtain rfl := Option.some.inj taken
      exact registered.onServer (queue_private (registered.fits id) _ _)
    · exact nomatch taken
  | enter id index =>
    obtain ⟨next, entered, rfl⟩ := Option.map_eq_some_iff.mp taken
    exact registered.onServer (enter_private (registered.fits id) entered)
  | advance id succeeds => exact advance_registered registered taken
  | work id event =>
    obtain ⟨next, worked, rfl⟩ := Option.map_eq_some_iff.mp taken
    exact registered.onServer (workerStep_private (registered.fits id) worked)

theorem start_registered (key : Nat → ServerRegistryKey) : Registered key start := by
  refine ⟨fun id => ⟨⟨⟨rfl, rfl, rfl, rfl⟩, rfl⟩, rfl, ?_, nofun, nofun⟩, nofun, nofun⟩
  exact Nat.zero_le 1

/-! ## The guarantee -/

/-- What holds in every state reached. -/
structure LifecycleSafe (key : Nat → ServerRegistryKey) (state : State) : Prop where
  /-- A registered server has its key in the registry, -/
  held : ∀ id, (state.servers id).registered = true → state.activeServers (key id) = true
  /-- and a key in the registry belongs to one server. -/
  owned : ∀ place, state.activeServers place = true →
    ∃! id, (state.servers id).registered = true ∧ key id = place
  /-- A key is inserted once at most, and released once at most after that; the server is
  registered in between. -/
  once : ∀ id, (state.servers id).inserts ≤ 1 ∧
    (state.servers id).inserts =
      (state.servers id).releases + (state.servers id).registered.toNat
  /-- A server that is ready or closing has its key. -/
  kept : ∀ id, (state.servers id).lifecycle.Unsettled → (state.servers id).registered = true
  /-- A dead server has not: one whose constructor threw, one that was destroyed, and one
  that is closed or quarantined with nobody at work in it. -/
  released : ∀ id, (state.servers id).point = .gone ∨
    ((state.servers id).point = .idle ∧ (state.servers id).lifecycle.Settled) →
      (state.servers id).registered = false
  /-- A closed server was terminated and its worker joined. -/
  closed : ∀ id, (state.servers id).lifecycle = .closed →
    (state.servers id).terminated = true ∧ (state.servers id).worker = .joined
  /-- Without a runtime there is no worker thread. -/
  joined : ∀ id, (state.servers id).runtime = false → (state.servers id).worker.Gone
  /-- A destroyed server is closed or quarantined and its worker joined. -/
  destroyed : ∀ id, (state.servers id).destroyed = true →
    (state.servers id).lifecycle.Settled ∧ (state.servers id).worker = .joined

/-- After a failed drain without a failed worker the server is ready again, with all that
it had, and the mutex is free for another close. -/
def Retries (key : Nat → ServerRegistryKey) (state : State) : Prop :=
  ∀ id closer succeeds after, (state.servers id).point = .drainFailed closer →
    (state.servers id).workerFailed = false →
    step key state (.advance id succeeds) = some after →
      (after.servers id).lifecycle = .ready ∧ (after.servers id).point = .idle ∧ Open (after.servers id)

/-- The life cycle of a server: what holds in every state that a run reaches, that a
closed or quarantined server stays so in every step from there, and that a failed drain
can be retried.

Proof: the statement that a server is at determines what it owns. This is kept by each
statement, by each step of the worker and by each call that waits, and no step of one
server changes another. -/
theorem server_lifecycle {trace : List Empty}
    (run : Run (Takes (move key)) start trace state) :
    LifecycleSafe key state ∧ Retries key state ∧
      ∀ action after, step key state action = some after → Terminal state after := by
  have registered := run.invariant (Registered key) (start_registered key) <| by
    rintro before events after registered ⟨action, taken⟩
    obtain ⟨next, stepped, same⟩ := Option.map_eq_some_iff.mp taken
    obtain ⟨rfl, -⟩ := Prod.mk.inj same
    exact (step_registered registered stepped).1
  refine ⟨?_, ?_, fun action after stepped => (step_registered registered stepped).2⟩
  · refine ⟨registered.held, registered.owned,
      fun id => ⟨(registered.fits id).history.once, (registered.fits id).history.counted⟩,
      fun id unsettled => ?_, fun id dead => ?_, fun id closed => ?_, fun id runtime => ?_,
      fun id destroyed => ?_⟩ <;>
      obtain ⟨owns, history⟩ := registered.fits id
    all_goals
      unfold Owns at owns
      generalize state.servers id = impl at *
    · grind [Building, Failed, Open, Shut, Joined, LifecycleState.Unsettled, LifecycleState.Settled,
        Teardown.target]
    · grind [Open, Shut, LifecycleState.Unsettled, LifecycleState.Settled]
    · refine ⟨history.closed closed, ?_⟩
      grind [Building, Failed, Open, Shut, Joined, LifecycleState.Unsettled, LifecycleState.Settled]
    · grind [Building, Failed, Open, Shut, Joined, Worker.Gone]
    · have gone := history.destroyed destroyed
      grind [Shut]
  · intro id closer succeeds after failed works stepped
    obtain ⟨owns, -⟩ := registered.fits id
    simp only [Owns, failed] at owns
    have opened : Open { state.servers id with lifecycle := .ready } := ⟨Or.inl rfl, owns.1.2⟩
    have passes : constructs succeeds (state.servers id) = none := by simp [constructs, failed]
    simp only [step, advance, failed, passes, closes, works, Option.none_or, Option.some_or,
      Option.map_some, Option.some.injEq] at stepped
    subst stepped
    rw [onServer_same]
    unfold leaveClose
    rcases closer with _ | (_ | _) <;> exact ⟨rfl, rfl, opened⟩

/-- A drain fails, a user's close with it; the destructor cannot terminate the device
program in either try and quarantines. -/
theorem server_lifecycle_quarantined : ∃ trace state,
    Run (Takes (move fun id => (id, 0))) start trace state ∧
      (state.servers 0).destroyed = true ∧ (state.servers 0).lifecycle = .quarantined ∧
      LifecycleSafe (fun id => (id, 0)) state := by
  have begin : Run (Takes (move fun id => (id, 0))) start [] start := .start
  have executed : Run.execute (move fun id => (id, 0)) start
      [.construct 0, .advance 0 true, .advance 0 true, .advance 0 true, .advance 0 true,
        .advance 0 true, .advance 0 true, .callClose 0, .enter 0 0, .advance 0 true,
        .advance 0 true, .advance 0 false, .advance 0 true, .destroy 0, .enter 0 0,
        .advance 0 true, .advance 0 true, .advance 0 true, .advance 0 true, .advance 0 false,
        .enter 0 0, .advance 0 true, .advance 0 true, .advance 0 false, .enter 0 0,
        .advance 0 true, .advance 0 true, .work 0 .stops, .advance 0 true, .advance 0 true,
        .advance 0 true, .advance 0 true] = some (_, _) := rfl
  have run := begin.execute executed
  exact ⟨_, _, run, rfl, rfl, (server_lifecycle run).1⟩

end KvCache.ServerLifecycle
