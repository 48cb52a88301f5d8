import KvCache.Lifecycle.SharedProgram

/-!
# The calls on a core

Between two calls more holds than within one: the states of a core, of its device runtime
and of its resources agree, and a program that runs was launched unless all its shards
were quarantined. Each call is composed of the changes whose effect is known, and leaves
the other cores as they were, or quarantined.
-/

namespace KvCache.RuntimeCore

open Run Function

/-! ## What holds between two calls -/

/-- The device runtime stands where its core does, unless the core was quarantined. -/
def Core.DeviceFits (core : Core) : Prop :=
  core.lifecycle = .quarantined ∨
    match core.device with
    | .prepared => core.lifecycle = .constructing ∧ core.running = false ∧
        core.terminateReturned = false ∧ core.quarantineSafeToRelease = false
    | .running => core.lifecycle = .ready
    | .closing => core.lifecycle = .closing
    | .terminated => core.lifecycle = .closing ∧ core.terminateReturned = true
    | .quarantined => False

/-- What holds of a core between two calls. -/
structure Core.Steady (services : Nat → Service) (core : Core) : Prop where
  joined : core.place .submesh = .members → core.joined = core.service
  launched : core.place .submesh = .members → ∀ service, core.joined = some service →
    (services service).running = true → (services service).launched = true
  internal : core.config.mode = .internal → core.place .submesh ≠ .absent →
    core.lifecycle = .constructing → core.destroyed = true
  device : core.config.mode = .external → core.place .submesh ≠ .absent →
    core.destroyed = false → core.DeviceFits

/-- The invariant of the calls. -/
structure Holds (state : State) : Prop where
  safe : Safe state
  steady : ∀ id, (state.cores id).Steady state.services

/-- Another core after a call: as it was, but for what it had retired. -/
structure Core.Kept (core other : Core) : Prop where
  config : other.config = core.config
  lifecycle : other.lifecycle = core.lifecycle
  device : other.device = core.device
  destroyed : other.destroyed = core.destroyed
  joined : other.joined = core.joined
  service : other.service = core.service
  returned : other.terminateReturned = core.terminateReturned
  running : other.running = core.running
  safe : other.quarantineSafeToRelease = core.quarantineSafeToRelease
  alive : other.place .submesh = .members → core.place .submesh = .members
  present : other.place .submesh ≠ .absent → core.place .submesh ≠ .absent

theorem Core.Kept.refl (core : Core) : core.Kept core :=
  ⟨rfl, rfl, rfl, rfl, rfl, rfl, rfl, rfl, rfl, id, id⟩

/-- Another core after a call: as it was, or quarantined. -/
def Core.Stays (core other : Core) : Prop :=
  core.Kept other ∨ (other.lifecycle = .quarantined ∧ other.place .submesh ≠ .members)

/-- A service that runs after a call was launched, or ran before and is launched if it
was. -/
def ServicesKeep (services others : Nat → Service) : Prop :=
  ∀ service, (others service).running = true → (others service).launched = true ∨
    ((services service).running = true ∧
      ((services service).launched = true → (others service).launched = true))

theorem ServicesKeep.refl (services : Nat → Service) : ServicesKeep services services :=
  fun _ running => Or.inr ⟨running, id⟩

/-- A core that is kept stays steady, if its service does not run without being launched. -/
theorem Core.Steady.kept {core other : Core} {services others : Nat → Service}
    (steady : core.Steady services) (kept : core.Kept other)
    (keep : ∀ service, core.joined = some service → (others service).running = true →
      (others service).launched = true ∨ ((services service).running = true ∧
        ((services service).launched = true → (others service).launched = true))) :
    other.Steady others := by
  constructor
  · intro alive
    rw [kept.joined, kept.service]
    exact steady.joined (kept.alive alive)
  · intro alive service join running
    rw [kept.joined] at join
    rcases keep service join running with launched | ⟨before, implied⟩
    · exact launched
    · exact implied (steady.launched (kept.alive alive) service join before)
  · rw [kept.config, kept.lifecycle, kept.destroyed]
    exact fun mode present => steady.internal mode (kept.present present)
  · rw [kept.config, kept.destroyed]
    intro mode present undestroyed
    have fits := steady.device mode (kept.present present) undestroyed
    unfold Core.DeviceFits at *
    rwa [kept.lifecycle, kept.device, kept.running, kept.returned, kept.safe]

/-- A quarantined core is steady. -/
theorem Core.steady_quarantined {core : Core} (services : Nat → Service)
    (quarantined : core.lifecycle = .quarantined) (dead : core.place .submesh ≠ .members) :
    core.Steady services :=
  ⟨fun alive => absurd alive dead, fun alive => absurd alive dead,
    fun _ _ constructing => (nomatch quarantined.symm.trans constructing),
    fun _ _ _ => Or.inl quarantined⟩

theorem Core.Steady.stays {core other : Core} {services others : Nat → Service}
    (steady : core.Steady services) (stays : core.Stays other)
    (keep : ServicesKeep services others) : other.Steady others := by
  rcases stays with kept | ⟨quarantined, dead⟩
  · exact steady.kept kept fun service _ => keep service
  · exact Core.steady_quarantined others quarantined dead

/-- A core that nobody is to use is steady. -/
theorem Core.steady_dead {core : Core} {services : Nat → Service}
    (destroyed : core.destroyed = true) (dead : core.place .submesh ≠ .members) :
    core.Steady services :=
  ⟨fun alive => absurd alive dead, fun alive => absurd alive dead, fun _ _ _ => destroyed,
    fun _ _ undestroyed => (nomatch destroyed.symm.trans undestroyed)⟩

/-! ## Termination -/

/-- What a termination leaves of the state. -/
structure Ends (state after : State) (id : Nat) : Prop where
  born : after.born = state.born
  others : ∀ other, other ≠ id → (state.cores other).Kept (after.cores other)
  config : (after.cores id).config = (state.cores id).config
  lifecycle : (after.cores id).lifecycle = (state.cores id).lifecycle
  device : (after.cores id).device = (state.cores id).device
  destroyed : (after.cores id).destroyed = (state.cores id).destroyed
  joined : (after.cores id).joined = (state.cores id).joined
  service : (after.cores id).service = (state.cores id).service
  alive : (after.cores id).place .submesh = (state.cores id).place .submesh
  services : ServicesKeep state.services after.services

theorem Ends.refl (state : State) (id : Nat) : Ends state state id :=
  ⟨rfl, fun _ _ => .refl _, rfl, rfl, rfl, rfl, rfl, rfl, rfl, .refl _⟩

/-- A change of the core that terminates keeps what a termination leaves. -/
theorem Ends.onCore {state after : State} {id : Nat} (ends : Ends state after id)
    (change : Core → Core) (config : ∀ core, (change core).config = core.config)
    (lifecycle : ∀ core, (change core).lifecycle = core.lifecycle)
    (device : ∀ core, (change core).device = core.device)
    (destroyed : ∀ core, (change core).destroyed = core.destroyed)
    (joined : ∀ core, (change core).joined = core.joined)
    (service : ∀ core, (change core).service = core.service)
    (alive : ∀ core, (change core).place .submesh = core.place .submesh) :
    Ends state (after.onCore id change) id := by
  have own : (after.onCore id change).cores id = change (after.cores id) := update_self ..
  refine ⟨ends.born, fun other apart => ?_, ?_, ?_, ?_, ?_, ?_, ?_, ?_, ends.services⟩
  · have same : (after.onCore id change).cores other = after.cores other := update_of_ne apart ..
    rw [same]
    exact ends.others other apart
  all_goals rw [own]
  · exact (config _).trans ends.config
  · exact (lifecycle _).trans ends.lifecycle
  · exact (device _).trans ends.device
  · exact (destroyed _).trans ends.destroyed
  · exact (joined _).trans ends.joined
  · exact (service _).trans ends.service
  · exact (alive _).trans ends.alive

/-- What has ended once a termination has returned. -/
def Ended (after : State) (id : Nat) : Prop :=
  (after.cores id).terminateReturned = true ∧ (after.cores id).running = false ∧
    (after.cores id).place .workload ≠ .members

theorem Core.Fits.not_running {core : Core} {services : Nat → Service} (fits : core.Fits services)
    (joined : core.joined ≠ none) : core.running = false := by
  cases running : core.running with
  | false => rfl
  | true => exact absurd (fits.runs running).2.2.2.2 joined

theorem Safe.before {state : State} (safe : Safe state) {id : Nat}
    (alive : (state.cores id).place .submesh = .members) : id < state.born := by
  by_contra beyond
  rw [safe.unborn id (Nat.not_lt.mp beyond)] at alive
  exact nomatch alive

/-- A signal to a shard changes nothing else of it. -/
theorem signalShard_keeps (state : State) (id service : Nat) :
    Ends state (signalShard state id service) id ∧
      ((signalShard state id service).cores id).running = (state.cores id).running ∧
      ((signalShard state id service).cores id).terminationSignalled = true ∧
      ((signalShard state id service).cores id).place = (state.cores id).place := by
  unfold signalShard
  split
  · rename_i signalled
    exact ⟨.refl state id, rfl, signalled, rfl⟩
  · have ends := (Ends.refl state id).onCore
      (fun core => { core with terminationSignalled := true }) (fun _ => rfl) (fun _ => rfl)
      (fun _ => rfl) (fun _ => rfl) (fun _ => rfl) (fun _ => rfl) fun _ => rfl
    have own : (update state.cores id { state.cores id with terminationSignalled := true }) id =
      { state.cores id with terminationSignalled := true } := update_self ..
    refine ⟨{ ends with services := fun other running => ?_ }, ?_, ?_, ?_⟩
    · by_cases at_ : other = service
      · subst at_
        simp only [State.onService, State.onCore, update_self] at running ⊢
        exact Or.inr ⟨running, fun launched => launched⟩
      · simp only [State.onService, State.onCore, update_of_ne at_] at running ⊢
        exact Or.inr ⟨running, fun launched => launched⟩
    all_goals
      simp only [State.onService, State.onCore, own]

/-- Waiting for the program changes of the cores only what they had retired. -/
theorem Ends.finish {state after : State} {id : Nat} (ends : Ends state after id) (service : Nat)
    (alive : (after.cores id).place .submesh = .members) :
    Ends state (finishService after service) id := by
  refine ⟨ends.born, fun other apart => ?_, ends.config, ends.lifecycle, ends.device,
    ends.destroyed, ends.joined, ends.service, ?_, fun other running => ?_⟩
  · have kept := ends.others other apart
    have place : ((finishService after service).cores other).place .submesh =
        if (after.cores other).place .submesh = .retired service then .freed
        else (after.cores other).place .submesh := rfl
    refine ⟨kept.config, kept.lifecycle, kept.device, kept.destroyed, kept.joined, kept.service,
      kept.returned, kept.running, kept.safe, fun members => kept.alive ?_,
      fun present => kept.present ?_⟩
    · grind
    · grind
  · rw [← ends.alive]
    have place : ((finishService after service).cores id).place .submesh =
        if (after.cores id).place .submesh = .retired service then .freed
        else (after.cores id).place .submesh := rfl
    rw [place, alive, if_neg nofun]
  · by_cases at_ : other = service
    · subst at_
      simp [finishService, State.onService] at running
    · simp only [finishService, State.onService, update_of_ne at_] at running ⊢
      exact ends.services other running

/-- Spoiling a service that does not run changes no core. -/
theorem Ends.spend (state : State) (id service : Nat) (change : Service → Service)
    (idle : (change (state.services service)).running = false) :
    Ends state (state.onService service change) id := by
  refine { Ends.refl state id with services := fun other running => ?_ }
  by_cases at_ : other = service
  · subst at_
    simp only [State.onService, update_self] at running
    exact nomatch idle.symm.trans running
  · simp only [State.onService, update_of_ne at_] at running ⊢
    exact Or.inr ⟨running, fun launched => launched⟩

/-- Terminating a shard keeps the invariant, and what has returned has ended.

Proof: before the launch the service is spoilt. After it the shard is signalled. If all
shards are, the program is waited for; otherwise one of them is not signalled and has not
returned. -/
theorem Safe.terminateShard {state : State} (safe : Safe state) {id service : Nat}
    (alive : (state.cores id).place .submesh = .members)
    (joined : (state.cores id).joined = some service)
    (launched : (state.services service).running = true →
      (state.services service).launched = true) (outcome : Termination) :
    Safe (terminateShard state id service outcome).1 ∧
      Ends state (terminateShard state id service outcome).1 id ∧
      ((terminateShard state id service outcome).2 = false →
        Ended (terminateShard state id service outcome).1 id) := by
  have before := safe.before alive
  have fits := safe.cores id
  have idle : (state.cores id).running = false :=
    fits.not_running (by rw [joined]; exact fun impossible => by cases impossible)
  have unloaded : (state.cores id).place .workload = .absent :=
    fits.unshared (by rw [joined]; exact fun impossible => by cases impossible)
  unfold RuntimeCore.terminateShard
  split
  · exact ⟨safe, .refl state id, fun impossible => by cases impossible⟩
  split
  · rename_i unlaunched
    have notLaunched : (state.services service).launched = false := by simpa using unlaunched
    have notRunning : (state.services service).running = false := by
      cases running : (state.services service).running with
      | false => rfl
      | true => cases notLaunched.symm.trans (launched running)
    have spent : Service.phase { state.services service with
        preparationFailed := true
        servers := (state.services service).servers.erase id } = .spent :=
      Service.phase_spent.mpr ⟨notRunning, Or.inl rfl⟩
    have spoilt := safe.spend service (fun shared =>
      { shared with preparationFailed := true, servers := shared.servers.erase id }) spent
      notLaunched rfl rfl
    have left := spoilt.returns before idle fun other join => Or.inl (by
      obtain rfl : other = service := Option.some.inj (join.symm.trans joined)
      simp only [State.onService, update_self]
      exact spent)
    have ends := (Ends.spend state id service (fun shared =>
      { shared with preparationFailed := true, servers := shared.servers.erase id })
      notRunning).onCore returned (fun _ => rfl) (fun _ => rfl) (fun _ => rfl) (fun _ => rfl)
      (fun _ => rfl) (fun _ => rfl) fun _ => rfl
    refine ⟨left, ends, fun _ => ⟨?_, ?_, ?_⟩⟩
    all_goals simp only [State.onCore, State.onService, update_self, returned]
    · exact idle
    · rw [unloaded]
      exact fun impossible => by cases impossible
  split
  · exact ⟨safe, .refl state id, fun impossible => by cases impossible⟩
  rename_i isLaunched _
  have running : (state.services service).phase = .running := by
    have kept := safe.services service
    cases phase : (state.services service).phase with
    | running => rfl
    | gathering => exact absurd (kept.gathers phase).1 (by simpa using isLaunched)
    | spent => exact absurd (kept.spent phase) (by simpa using isLaunched)
  have signalled := safe.signal joined running
  obtain ⟨ends, sameRunning, marked, samePlace⟩ := signalShard_keeps state id service
  have aliveNow : ((signalShard state id service).cores id).place .submesh = .members := by
    rw [samePlace, alive]
  have joinedNow : ((signalShard state id service).cores id).joined = some service := by
    rw [ends.joined, joined]
  have idleNow : ((signalShard state id service).cores id).running = false := by
    rw [sameRunning, idle]
  have runningNow : ((signalShard state id service).services service).phase = .running := by
    apply Service.phase_running.mpr
    have before := Service.phase_running.mp running
    unfold signalShard
    split
    · exact before
    · simp only [State.onService, State.onCore, update_self]
      exact before
  have beforeNow : id < (signalShard state id service).born := by
    rw [ends.born]
    exact before
  generalize signalShard state id service = signal at *
  simp only
  split
  · exact ⟨signalled, ends, fun impossible => by cases impossible⟩
  obtain ⟨prepared, workload, failed, lists, complete, count, -⟩ :=
    (signalled.services service).runs runningNow
  have finished := signalled.finish runningNow
  have spent : ((finishService signal service).services service).phase = .spent := by
    simp only [finishService, State.onService, update_self]
    exact Service.phase_spent.mpr ⟨rfl, Or.inr ⟨prepared, rfl⟩⟩
  have idleLast : ((finishService signal service).cores id).running = false := idleNow
  have last : ∀ other, ((finishService signal service).cores id).joined = some other →
      ((finishService signal service).services other).phase = .spent := by
    intro other join
    obtain rfl : other = service := Option.some.inj (join.symm.trans joinedNow)
    exact spent
  split
  · split
    · exact ⟨signalled, ends, fun impossible => by cases impossible⟩
    split
    · refine ⟨finished.injects beforeNow idleLast last, ?_, fun impossible => by cases impossible⟩
      exact (ends.finish service aliveNow).onCore injectFailure (fun _ => rfl) (fun _ => rfl)
        (fun _ => rfl) (fun _ => rfl) (fun _ => rfl) (fun _ => rfl) fun _ => rfl
    · refine ⟨finished.returns beforeNow idleLast fun other join => Or.inl (last other join), ?_,
        fun _ => ⟨?_, ?_, ?_⟩⟩
      · exact (ends.finish service aliveNow).onCore returned (fun _ => rfl) (fun _ => rfl)
          (fun _ => rfl) (fun _ => rfl) (fun _ => rfl) (fun _ => rfl) fun _ => rfl
      all_goals simp only [State.onCore, update_self, returned]
      · exact idleLast
      · have place : ((finishService signal service).cores id).place .workload =
            if (signal.cores id).place .workload = .retired service then .freed
            else (signal.cores id).place .workload := rfl
        rw [place, samePlace, unloaded]
        exact fun impossible => by cases impossible
  · rename_i unfinished
    have waits : ∃ shard ∈ (signal.services service).servers, shard ≠ id ∧
        (signal.cores shard).terminateReturned = false := by
      have fewer : ((signal.services service).servers.filter
          fun shard => (signal.cores shard).terminationSignalled).length ≠
            (signal.services service).servers.length := by
        rw [← count, complete]
        exact fun all => unfinished ⟨all, workload⟩
      obtain ⟨shard, inside, unmarked⟩ : ∃ shard ∈ (signal.services service).servers,
          (signal.cores shard).terminationSignalled = false := by
        by_contra all
        push Not at all
        apply fewer
        rw [List.filter_eq_self.mpr]
        intro shard inside
        simpa using all shard inside
      refine ⟨shard, inside, fun same => ?_, ?_⟩
      · rw [same, marked] at unmarked
        cases unmarked
      · have joins := (signalled.cores shard).joins service ((lists.2 shard).mp inside) runningNow
        cases back : (signal.cores shard).terminateReturned with
        | false => rfl
        | true => cases unmarked.symm.trans (joins.2.2.1 back)
    refine ⟨signalled.returns beforeNow idleNow fun other join => Or.inr ?_, ?_, fun _ => ⟨?_, ?_, ?_⟩⟩
    · obtain rfl : other = service := Option.some.inj (join.symm.trans joinedNow)
      exact ⟨runningNow, marked, waits⟩
    · exact ends.onCore returned (fun _ => rfl) (fun _ => rfl) (fun _ => rfl) (fun _ => rfl)
        (fun _ => rfl) (fun _ => rfl) fun _ => rfl
    all_goals simp only [State.onCore, update_self, returned]
    · exact idleNow
    · rw [samePlace, unloaded]
      exact fun impossible => by cases impossible

/-- Terminating the program of a core keeps the invariant, and what has returned has
ended. -/
theorem Safe.terminateServerKernel {state : State} (safe : Safe state) {id : Nat}
    (alive : (state.cores id).place .submesh = .members)
    (joined : (state.cores id).joined = (state.cores id).service)
    (launched : ∀ service, (state.cores id).joined = some service →
      (state.services service).running = true → (state.services service).launched = true)
    (outcome : Termination) :
    Safe (terminateServerKernel state id outcome).1 ∧
      Ends state (terminateServerKernel state id outcome).1 id ∧
      ((terminateServerKernel state id outcome).2 = false →
        Ended (terminateServerKernel state id outcome).1 id) := by
  have before := safe.before alive
  have fits := safe.cores id
  unfold RuntimeCore.terminateServerKernel
  split
  · rename_i service served
    have join := joined.trans served
    exact safe.terminateShard alive join (launched service join) outcome
  rename_i unserved
  have unjoined : (state.cores id).joined = none := joined.trans unserved
  have alone : ∀ {service : Nat} {claim : Prop}, (state.cores id).joined = some service → claim :=
    fun join => (by cases unjoined.symm.trans join)
  split
  · rename_i unloaded
    have idle : (state.cores id).running = false := by
      cases running : (state.cores id).running with
      | false => rfl
      | true => exact absurd ((fits.loaded running).trans alive) unloaded
    refine ⟨safe.returns before idle fun _ join => alone join, ?_, fun _ => ⟨?_, ?_, ?_⟩⟩
    · exact (Ends.refl state id).onCore returned (fun _ => rfl) (fun _ => rfl) (fun _ => rfl)
        (fun _ => rfl) (fun _ => rfl) (fun _ => rfl) fun _ => rfl
    all_goals simp only [State.onCore, update_self, returned]
    · exact idle
    · exact unloaded
  split
  · exact ⟨safe, .refl state id, fun impossible => by cases impossible⟩
  have stopped : Core.Fits state.services { state.cores id with running := false } :=
    { fits with
      uniform := fun resource => (fits.uniform resource).imp_right <| Or.imp_right fun freed =>
        ⟨freed.1, freed.2.1, rfl, unjoined⟩
      loaded := fun impossible => by cases impossible
      runs := fun impossible => by cases impossible }
  have stop := safe.onCore before (fun core => { core with running := false }) ⟨rfl, rfl, rfl, rfl⟩
    stopped rfl rfl rfl
  split
  · have injected := stop.injects before (by simp only [State.onCore, update_self])
      fun service join => by
        simp only [State.onCore, update_self] at join
        exact alone join
    rw [onCore_onCore] at injected
    refine ⟨injected, ?_, fun impossible => by cases impossible⟩
    exact (Ends.refl state id).onCore (fun core => { injectFailure core with running := false })
      (fun _ => rfl) (fun _ => rfl) (fun _ => rfl) (fun _ => rfl) (fun _ => rfl) (fun _ => rfl)
      fun _ => rfl
  · have place : ∀ core : Core, (core.move [.workload] .freed).place .submesh =
        core.place .submesh := by
      intro core
      rw [place_move]
      exact if_neg fun both => by simp at both
    have unloads : Safe (state.onCore id fun core =>
        { core.move [.workload] .freed with running := false }) := by
      apply safe.replace before
        { (state.cores id).move [.workload] .freed with running := false } state.activeSlots
        state.failedTeardown ⟨rfl, rfl, rfl, rfl⟩
      · exact { stopped with
          uniform := fun resource => by
            simp only [place, place_move]
            change _ ∨ _ ∨ _ ∧ _ ∧ True ∧ (state.cores id).joined = none
            have uniform := fits.uniform resource
            grind
          used := fun used resource apart uses => by
            simp only [place_move] at used ⊢
            have kept := fits.used (by grind) resource apart uses
            grind
          unshared := fun join => absurd unjoined join
          loaded := fun impossible => by cases impossible
          living := fun members => fits.living (place _ ▸ members)
          held := fun node => fits.held (place _ ▸ node)
          resting := fun away apart => fits.resting (place _ ▸ away) (place _ ▸ apart)
          settled := fun away apart => fits.settled (place _ ▸ away) (place _ ▸ apart)
          retired := fun service retired => fits.retired service (place _ ▸ retired)
          runs := fun impossible => by cases impossible
          joins := fun service join => alone join }
      · rw [place]
        exact safe.born id before
      · exact fun _ refers => refers
      · unfold Core.claims
        rw [place]
        exact fun claims => claims
      · refine Or.inr (Or.inr (Or.inr (Or.inl ?_)))
        simp only [place_move]
        exact if_neg fun both => by simp at both
      · intro other claims
        apply safe.slots other
        unfold Core.claims at *
        by_cases at_ : other = id
        · subst at_
          rwa [update_self, place] at claims
        · rwa [update_of_ne at_] at claims
      · obtain ⟨contents, represents, nodes⟩ := safe.listed
        refine ⟨contents, represents, fun other => (nodes other).trans ?_⟩
        by_cases at_ : other = id
        · subst at_
          rw [update_self, place]
        · rw [update_of_ne at_]
    have left := unloads.returns before (by simp only [State.onCore, update_self])
      fun service join => by
        simp only [State.onCore, update_self] at join
        exact alone join
    rw [onCore_onCore] at left
    refine ⟨left, ?_, fun _ => ⟨?_, ?_, ?_⟩⟩
    · exact (Ends.refl state id).onCore
        (fun core => { returned (core.move [.workload] .freed) with running := false })
        (fun _ => rfl) (fun _ => rfl) (fun _ => rfl) (fun _ => rfl) (fun _ => rfl) (fun _ => rfl)
        place
    all_goals simp only [State.onCore, update_self, returned, place_move]
    grind

/-! ## Calls that end a core -/

/-- A change of the states of a core that leaves it alive or not as it was keeps the
invariant. -/
theorem Safe.relabel {state : State} (safe : Safe state) {id : Nat} (before : id < state.born)
    (lifecycle : LifecycleState) (device : ServerDeviceRuntimeState)
    (living : (state.cores id).place .submesh = .members →
      lifecycle ≠ .quarantined ∧ lifecycle ≠ .closed)
    (settled : (state.cores id).place .submesh ≠ .members → (state.cores id).destroyed = true ∨
      lifecycle = .quarantined ∨ lifecycle = .closed) :
    Safe (state.onCore id fun core => { core with lifecycle := lifecycle, device := device }) := by
  have fits := safe.cores id
  apply safe.onCore before _ ⟨rfl, rfl, rfl, rfl⟩
  · exact { fits with
      living := fun alive => by
        obtain ⟨unsettled, rest⟩ := fits.living alive
        have open_ := living alive
        refine ⟨?_, rest⟩
        rintro (destroyed | quarantined | closed)
        · exact unsettled (Or.inl destroyed)
        · exact open_.1 quarantined
        · exact open_.2 closed
      settled := fun dead _ => settled dead }
  · rfl
  · rfl
  · rfl

/-- A call on one core keeps the invariant if it leaves the others, and if its own core is
steady. -/
theorem Holds.call {state after : State} (holds : Holds state) (id : Nat) (safe : Safe after)
    (others : ∀ other, other ≠ id → (state.cores other).Stays (after.cores other))
    (services : ServicesKeep state.services after.services)
    (own : (after.cores id).Steady after.services) : Holds after := by
  refine ⟨safe, fun other => ?_⟩
  by_cases at_ : other = id
  · subst at_
    exact own
  · exact (holds.steady other).stays (others other at_) services

/-- A termination leaves the core steady, if its device runtime fits. -/
theorem Ends.steady {state after : State} {id : Nat} (ends : Ends state after id)
    (steady : (state.cores id).Steady state.services)
    (device : (after.cores id).config.mode = .external → (after.cores id).DeviceFits) :
    (after.cores id).Steady after.services := by
  constructor
  · intro alive
    rw [ends.joined, ends.service]
    exact steady.joined (ends.alive ▸ alive)
  · intro alive service join running
    rw [ends.joined] at join
    rcases ends.services service running with launched | ⟨before, implied⟩
    · exact launched
    · exact implied (steady.launched (ends.alive ▸ alive) service join before)
  · rw [ends.config, ends.lifecycle, ends.destroyed, ends.alive]
    exact steady.internal
  · exact fun mode _ _ => device mode

/-- A core that is there and that nobody has settled is alive. -/
theorem Safe.alive {state : State} (safe : Safe state) {id : Nat} (exists_ : Exists state id)
    (open_ : (state.cores id).lifecycle ≠ .quarantined) (unclosed :
      (state.cores id).lifecycle ≠ .closed) : (state.cores id).place .submesh = .members := by
  by_contra dead
  rcases (safe.cores id).settled dead (safe.born id exists_.1) with destroyed | quarantined | closed
  · exact nomatch exists_.2.symm.trans destroyed
  · exact open_ quarantined
  · exact unclosed closed

theorem Safe.open_of_alive {state : State} (safe : Safe state) {id : Nat}
    (alive : (state.cores id).place .submesh = .members) :
    (state.cores id).destroyed = false ∧ (state.cores id).lifecycle ≠ .quarantined ∧
      (state.cores id).lifecycle ≠ .closed := by
  have unsettled := ((safe.cores id).living alive).1
  unfold Core.settled at unsettled
  grind

/-- A call that relabels a core. -/
theorem Holds.relabel {state : State} (holds : Holds state) (id : Nat) (before : id < state.born)
    (lifecycle : LifecycleState) (device : ServerDeviceRuntimeState)
    (living : (state.cores id).place .submesh = .members →
      lifecycle ≠ .quarantined ∧ lifecycle ≠ .closed)
    (settled : (state.cores id).place .submesh ≠ .members → (state.cores id).destroyed = true ∨
      lifecycle = .quarantined ∨ lifecycle = .closed)
    (constructed : lifecycle ≠ .constructing)
    (fits : (state.cores id).config.mode = .external → Core.DeviceFits
      { state.cores id with lifecycle := lifecycle, device := device }) :
    Holds (state.onCore id fun core => { core with lifecycle := lifecycle, device := device }) := by
  have steady := holds.steady id
  have own : (state.onCore id fun core => { core with lifecycle := lifecycle, device := device }).cores
      id = { state.cores id with lifecycle := lifecycle, device := device } := update_self ..
  refine holds.call id (holds.safe.relabel before lifecycle device living settled) ?_ (.refl _) ?_
  · intro other apart
    have same : (state.onCore id fun core =>
        { core with lifecycle := lifecycle, device := device }).cores other = state.cores other :=
      update_of_ne apart ..
    rw [same]
    exact Or.inl (.refl _)
  · rw [own]
    exact ⟨steady.joined, steady.launched, fun _ _ constructing => absurd constructing constructed,
      fun mode _ _ => fits mode⟩

/-- The device runtime terminates its core. -/
theorem Holds.terminate {state : State} (holds : Holds state) {id : Nat}
    (exists_ : Exists state id) (mode : (state.cores id).config.mode = .external)
    (outcome : Termination) : Holds (terminate state id outcome) := by
  have fits := (holds.steady id).device mode (holds.safe.born id exists_.1) exists_.2
  unfold Core.DeviceFits at fits
  unfold RuntimeCore.terminate
  simp only
  split
  · exact holds
  split
  · exact holds
  rename_i unended active
  have device : (state.cores id).device = .running ∨ (state.cores id).device = .closing := by
    tauto
  split
  · rename_i settled
    have quarantined : (state.cores id).lifecycle = .quarantined := by
      rcases device with device | device <;> rw [device] at fits <;> grind
    rw [onCore_onCore]
    have relabelled := holds.relabel id exists_.1 .quarantined .terminated ?_ ?_ nofun ?_
    · unfold State.onCore at relabelled ⊢
      rwa [← quarantined] at relabelled
    · intro alive
      exact absurd quarantined (holds.safe.open_of_alive alive).2.1
    · exact fun _ => Or.inr (Or.inl rfl)
    · exact fun _ => Or.inl rfl
  rename_i unsettled
  rw [not_or] at unsettled
  have alive := holds.safe.alive exists_ unsettled.2 unsettled.1
  have lifecycle : (state.cores id).lifecycle = .ready ∨ (state.cores id).lifecycle = .closing := by
    rcases device with device | device <;> rw [device] at fits <;> grind
  split
  · rename_i other
    exact absurd lifecycle (by tauto)
  rw [onCore_onCore]
  have entered := holds.relabel id exists_.1 .closing .closing
    (fun _ => ⟨nofun, nofun⟩) (fun dead => absurd alive dead) nofun fun _ => Or.inr rfl
  have own : (state.onCore id fun core => { core with lifecycle := .closing, device := .closing
      }).cores id = { state.cores id with lifecycle := .closing, device := .closing } :=
    update_self ..
  generalize (state.onCore id fun core => { core with lifecycle := .closing, device := .closing }) =
    closing at *
  have aliveNow : (closing.cores id).place .submesh = .members := by
    rw [own]
    exact alive
  have steady := entered.steady id
  obtain ⟨safe, ends, ended⟩ := entered.safe.terminateServerKernel aliveNow (steady.joined aliveNow)
    (steady.launched aliveNow) outcome
  generalize terminateServerKernel closing id outcome = result at *
  obtain ⟨after, threw⟩ := result
  have lifecycleAfter : (after.cores id).lifecycle = .closing := by
    rw [ends.lifecycle, own]
  have deviceAfter : (after.cores id).device = .closing := by
    rw [ends.device, own]
  have kept : Holds after := by
    refine entered.call id safe (fun other apart => Or.inl (ends.others other apart)) ends.services
      (ends.steady steady fun _ => ?_)
    unfold Core.DeviceFits
    rw [deviceAfter]
    exact Or.inr lifecycleAfter
  cases threw with
  | true => exact kept
  | false =>
    have returned := (ended rfl).1
    have beforeNow : id < after.born := safe.before (ends.alive.trans aliveNow)
    have last := kept.relabel id beforeNow .closing .terminated
      (fun _ => ⟨nofun, nofun⟩) (fun dead => absurd (ends.alive.trans aliveNow) dead) nofun
      fun _ => Or.inr ⟨rfl, returned⟩
    unfold State.onCore at last ⊢
    rwa [← lifecycleAfter] at last

/-! ## Close and destruction -/

theorem releaseTarget_ne (state : State) (id : Nat) : releaseTarget state id ≠ .members ∧
    releaseTarget state id ≠ .node := by
  unfold releaseTarget
  grind

/-- A release leaves the core closed and not alive, and nothing else changed. -/
theorem releaseFields_core (state : State) (id : Nat) {fields : List Resource}
    (covered : ∀ resource ∈ preservedFields, resource ∈ fields) :
    (releaseFields state id fields).born = state.born ∧
      (releaseFields state id fields).services = state.services ∧
      (∀ other, other ≠ id → (releaseFields state id fields).cores other = state.cores other) ∧
      ((releaseFields state id fields).cores id).lifecycle = .closed ∧
      ((releaseFields state id fields).cores id).config = (state.cores id).config ∧
      ((releaseFields state id fields).cores id).destroyed = (state.cores id).destroyed ∧
      ((releaseFields state id fields).cores id).place .submesh ≠ .members := by
  rw [releaseFields_eq state id fields covered]
  refine ⟨rfl, rfl, fun other apart => update_of_ne apart .., ?_, ?_, ?_, ?_⟩
  all_goals simp only [update_self]
  · rfl
  · rfl
  · rfl
  · simp only [Core.released, place_move]
    have target := releaseTarget_ne state id
    have listed : Resource.submesh ∈ preservedFields := by decide
    grind

/-- A core that is not alive and whose constructor has ended is steady, if no device runtime
wraps it. -/
theorem Core.steady_internal {core : Core} (services : Nat → Service)
    (mode : core.config.mode = .internal) (dead : core.place .submesh ≠ .members)
    (constructed : core.lifecycle ≠ .constructing) : core.Steady services :=
  ⟨fun alive => absurd alive dead, fun alive => absurd alive dead,
    fun _ _ constructing => absurd constructing constructed,
    fun external => (nomatch mode.symm.trans external)⟩

/-- An internal core closes. If nothing was thrown it is not alive any more. -/
theorem Holds.close {state : State} (holds : Holds state) {id : Nat} (exists_ : Exists state id)
    (mode : (state.cores id).config.mode = .internal) (outcome : Closing) :
    Holds (close state id outcome).1 ∧ Exists (close state id outcome).1 id ∧
      ((close state id outcome).1.cores id).config.mode = .internal ∧
      ((close state id outcome).2 = false →
        ((close state id outcome).1.cores id).place .submesh ≠ .members) := by
  unfold RuntimeCore.close
  simp only
  split
  · rename_i settled
    refine ⟨holds, exists_, mode, fun _ alive => ?_⟩
    have unsettled := (holds.safe.open_of_alive alive).2
    tauto
  rename_i unsettled
  rw [not_or] at unsettled
  split
  · exact ⟨holds, exists_, mode, nofun⟩
  split
  · exact ⟨holds, exists_, mode, nofun⟩
  have alive := holds.safe.alive exists_ unsettled.1 unsettled.2
  have entered := holds.relabel id exists_.1 .closing (state.cores id).device
    (fun _ => ⟨nofun, nofun⟩) (fun dead => absurd alive dead) nofun
    fun external => (nomatch mode.symm.trans external)
  have same : (state.onCore id fun core => { core with lifecycle := .closing }) =
      state.onCore id fun core =>
        { core with lifecycle := .closing, device := (state.cores id).device } := rfl
  rw [same]
  have own : (state.onCore id fun core =>
      { core with lifecycle := .closing, device := (state.cores id).device }).cores id =
        { state.cores id with lifecycle := .closing } := update_self ..
  have bornSame : (state.onCore id fun core =>
      { core with lifecycle := .closing, device := (state.cores id).device }).born =
        state.born := rfl
  generalize (state.onCore id fun core =>
    { core with lifecycle := .closing, device := (state.cores id).device }) = closing at *
  have aliveNow : (closing.cores id).place .submesh = .members := by
    rw [own]
    exact alive
  have modeNow : (closing.cores id).config.mode = .internal := by
    rw [own]
    exact mode
  have steady := entered.steady id
  obtain ⟨safe, ends, ended⟩ := entered.safe.terminateServerKernel aliveNow (steady.joined aliveNow)
    (steady.launched aliveNow) outcome.termination
  generalize terminateServerKernel closing id outcome.termination = result at *
  obtain ⟨after, threw⟩ := result
  have modeAfter : (after.cores id).config.mode = .internal := by
    rw [ends.config]
    exact modeNow
  have kept : Holds after :=
    entered.call id safe (fun other apart => Or.inl (ends.others other apart)) ends.services
      (ends.steady steady fun external => (nomatch modeAfter.symm.trans external))
  have destroyed : (after.cores id).destroyed = false := by
    rw [ends.destroyed, own]
    exact exists_.2
  have before : id < after.born := by
    rw [ends.born, bornSame]
    exact exists_.1
  cases threw with
  | true => exact ⟨kept, ⟨before, destroyed⟩, modeAfter, nofun⟩
  | false =>
    obtain ⟨returned, idle, unloaded⟩ := ended rfl
    have aliveAfter : (after.cores id).place .submesh = .members := ends.alive.trans aliveNow
    have covered : ∀ resource ∈ preservedFields, resource ∈ closedFields := by decide
    have released := kept.safe.release aliveAfter before ((kept.steady id).joined aliveAfter) covered
      (fun loaded => absurd loaded unloaded) idle fun _ _ _ => returned
    obtain ⟨born, services, others, lifecycle, config, undestroyed, dead⟩ :=
      releaseFields_core after id covered
    simp only [Bool.false_eq_true, if_false]
    refine ⟨kept.call id released (fun other apart => ?_) ?_ ?_, ⟨?_, ?_⟩, ?_, fun _ => dead⟩
    · rw [others other apart]
      exact Or.inl (.refl _)
    · rw [services]
      exact .refl _
    · apply Core.steady_internal _ _ dead
      · rw [lifecycle]
        exact nofun
      · rw [config]
        exact modeAfter
    · rw [born]
      exact before
    · exact undestroyed.trans destroyed
    · rw [config]
      exact modeAfter

/-- A destructor of a core that is not alive. -/
theorem Holds.destruct {state : State} (holds : Holds state) {id : Nat} (before : id < state.born)
    (dead : (state.cores id).place .submesh ≠ .members) : Holds (destructMembers state id) := by
  refine holds.call id (holds.safe.destruct before dead) (fun other apart => ?_) (.refl _) ?_
  · have same : (destructMembers state id).cores other = state.cores other := update_of_ne apart ..
    rw [same]
    exact Or.inl (.refl _)
  · have own : (destructMembers state id).cores id =
        { (state.cores id).move quarantinedFields .freed with service := none, destroyed := true } :=
      update_self ..
    rw [own]
    apply Core.steady_dead rfl
    simp [mem_quarantinedFields, dead]

/-- Quarantining changes one core, which is then not alive. -/
theorem quarantineFailedTeardown_core (state : State) (id : Nat) :
    (quarantineFailedTeardown state id).born = state.born ∧
      (quarantineFailedTeardown state id).services = state.services ∧
      (∀ other, other ≠ id →
        (quarantineFailedTeardown state id).cores other = state.cores other) ∧
      ((quarantineFailedTeardown state id).cores id).config = (state.cores id).config ∧
      ((quarantineFailedTeardown state id).cores id).lifecycle = (state.cores id).lifecycle ∧
      ((quarantineFailedTeardown state id).cores id).place .submesh ≠ .members := by
  unfold quarantineFailedTeardown
  split
  · refine ⟨rfl, rfl, fun other apart => update_of_ne apart .., ?_, ?_, ?_⟩
    all_goals simp only [State.onCore, update_self]
    · rfl
    · rfl
    · simp only [place_move]
      have listed := mem_quarantinedFields .submesh
      grind
  · rename_i dead
    refine ⟨rfl, rfl, fun _ _ => rfl, rfl, rfl, ?_⟩
    rwa [Core.alive_iff] at dead

/-- The destructor of an internal core. -/
theorem Holds.destroyInternal {state : State} (holds : Holds state) {id : Nat}
    (exists_ : Exists state id) (mode : (state.cores id).config.mode = .internal)
    (first second : Closing) : Holds (destroyInternal state id first second) := by
  obtain ⟨holdsOnce, existsOnce, modeOnce, deadOnce⟩ := holds.close exists_ mode first
  unfold RuntimeCore.destroyInternal
  generalize RuntimeCore.close state id first = once at *
  obtain ⟨once, threwOnce⟩ := once
  simp only at *
  split
  · rename_i ended
    apply holdsOnce.destruct existsOnce.1
    rcases ended with returned | closed
    · exact deadOnce (by simpa using returned)
    · exact fun alive => (holdsOnce.safe.open_of_alive alive).2.2 closed
  obtain ⟨holdsTwice, existsTwice, modeTwice, deadTwice⟩ := holdsOnce.close existsOnce modeOnce second
  generalize RuntimeCore.close once id second = twice at *
  obtain ⟨twice, threwTwice⟩ := twice
  simp only at *
  split
  · rename_i ended
    apply holdsTwice.destruct existsTwice.1
    rcases ended with returned | closed
    · exact deadTwice (by simpa using returned)
    · exact fun alive => (holdsTwice.safe.open_of_alive alive).2.2 closed
  obtain ⟨born, services, others, config, lifecycle, dead⟩ :=
    quarantineFailedTeardown_core twice id
  refine holdsTwice.call id (holdsTwice.safe.quarantineDestruct existsTwice.1)
    (fun other apart => ?_) ?_ ?_
  · have same : (destructMembers (quarantineFailedTeardown twice id) id).cores other =
        twice.cores other := (update_of_ne apart ..).trans (others other apart)
    rw [same]
    exact Or.inl (.refl _)
  · have same : (destructMembers (quarantineFailedTeardown twice id) id).services =
        twice.services := services
    rw [same]
    exact .refl _
  · have own : (destructMembers (quarantineFailedTeardown twice id) id).cores id =
        { ((quarantineFailedTeardown twice id).cores id).move quarantinedFields .freed with
          service := none, destroyed := true } := update_self ..
    rw [own]
    apply Core.steady_dead rfl
    simp [mem_quarantinedFields, dead]

/-- A destructor ends a call that left its core not alive. -/
theorem Holds.destructs {state after : State} (holds : Holds state) {id : Nat} (safe : Safe after)
    (before : id < after.born) (dead : (after.cores id).place .submesh ≠ .members)
    (others : ∀ other, other ≠ id → after.cores other = state.cores other)
    (services : after.services = state.services) : Holds (destructMembers after id) := by
  refine holds.call id (safe.destruct before dead) (fun other apart => ?_) ?_ ?_
  · have same : (destructMembers after id).cores other = state.cores other :=
      (update_of_ne apart ..).trans (others other apart)
    rw [same]
    exact Or.inl (.refl _)
  · have same : (destructMembers after id).services = state.services := services
    rw [same]
    exact .refl _
  · have own : (destructMembers after id).cores id =
        { (after.cores id).move quarantinedFields .freed with service := none, destroyed := true } :=
      update_self ..
    rw [own]
    apply Core.steady_dead rfl
    simp [mem_quarantinedFields, dead]

/-- A quarantined core is not alive, and the others are as they were. -/
theorem quarantine_core (state : State) (id : Nat) :
    (quarantine state id).born = state.born ∧ (quarantine state id).services = state.services ∧
      (∀ other, other ≠ id → (quarantine state id).cores other = state.cores other) ∧
      ((quarantine state id).cores id).lifecycle = .quarantined ∧
      ((quarantine state id).cores id).place .submesh ≠ .members := by
  obtain ⟨born, services, others, config, lifecycle, dead⟩ := quarantineFailedTeardown_core
    (state.onCore id fun core => { core with lifecycle := .quarantined }) id
  refine ⟨born, services, fun other apart => ?_, ?_, dead⟩
  · exact (others other apart).trans (update_of_ne apart ..)
  · exact lifecycle.trans (by simp only [State.onCore, update_self])

/-- The device runtime of a quarantined core is quarantined with it. -/
theorem Safe.quarantineDevice {state : State} (safe : Safe state) {id : Nat}
    (before : id < state.born)
    (steady : ∀ other, other ≠ id → (state.cores other).Steady state.services) :
    Holds ((RuntimeCore.quarantine state id).onCore id fun core =>
      { core with device := .quarantined }) := by
  obtain ⟨born, services, others, lifecycle, dead⟩ := quarantine_core state id
  have holds : Holds (RuntimeCore.quarantine state id) := by
    refine ⟨safe.quarantine before, fun other => ?_⟩
    rw [services]
    by_cases at_ : other = id
    · subst at_
      exact Core.steady_quarantined _ lifecycle dead
    · rw [others other at_]
      exact steady other at_
  have quarantined := holds.relabel id (born ▸ before) .quarantined .quarantined
    (fun alive => absurd alive dead) (fun _ => Or.inr (Or.inl rfl)) nofun fun _ => Or.inl rfl
  unfold State.onCore at quarantined ⊢
  rwa [← lifecycle] at quarantined

/-- The destructor of a device runtime. A runtime that was never launched is not destroyed
while its shared program is. -/
theorem Holds.destroyExternal {state : State} (holds : Holds state) {id : Nat}
    (exists_ : Exists state id) (mode : (state.cores id).config.mode = .external) (leased : Bool)
    (unlaunched : (state.cores id).device = .prepared → ∀ service,
      (state.cores id).service = some service → (state.services service).launched = false) :
    Holds (destroyExternal state id leased) := by
  have fits := (holds.steady id).device mode (holds.safe.born id exists_.1) exists_.2
  have quarantined : Holds (destructMembers ((RuntimeCore.quarantine state id).onCore id
      fun core => { core with device := .quarantined }) id) := by
    obtain ⟨born, services, others, lifecycle, dead⟩ := quarantine_core state id
    apply (holds.safe.quarantineDevice exists_.1 fun other _ => holds.steady other).destruct
    · change id < (RuntimeCore.quarantine state id).born
      rw [born]
      exact exists_.1
    · simpa only [State.onCore, update_self] using dead
  have releases : (state.cores id).device = .prepared ∨ (state.cores id).device = .terminated →
      Holds (destructMembers (if (releaseExternal state id leased).2 then
        (RuntimeCore.quarantine state id).onCore id fun core => { core with device := .quarantined }
        else (releaseExternal state id leased).1) id) := by
    intro device
    unfold releaseExternal
    simp only
    split
    · exact quarantined
    rename_i lifecycle
    split
    · rename_i closed
      exact holds.destruct exists_.1 fun alive => (holds.safe.open_of_alive alive).2.2 closed
    rename_i unclosed
    split
    · exact quarantined
    have unquarantined : (state.cores id).lifecycle ≠ .quarantined := by
      intro held
      rw [held] at lifecycle
      exact lifecycle ⟨(fun impossible => by cases impossible),
        (fun impossible => by cases impossible), fun impossible => by cases impossible⟩
    have alive := holds.safe.alive exists_ unquarantined unclosed
    have coreFits := holds.safe.cores id
    have stands := fits.resolve_left unquarantined
    have ended : (state.cores id).running = false := by
      rcases device with prepared | terminated
      · rw [prepared] at stands
        exact stands.2.1
      · rw [terminated] at stands
        cases running : (state.cores id).running with
        | false => rfl
        | true => cases stands.2.symm.trans (coreFits.runs running).2.2.1
    have covered : ∀ resource ∈ preservedFields, resource ∈ releasedFields := by decide
    have released := holds.safe.release alive exists_.1 ((holds.steady id).joined alive) covered
      (fun _ => by decide) ended fun service join phase => by
        rcases device with prepared | terminated
        · have launched := (holds.steady id).launched alive service join
            (Service.phase_running.mp phase)
          have served := ((holds.steady id).joined alive).symm.trans join
          cases (unlaunched prepared service served).symm.trans launched
        · rw [terminated] at stands
          exact stands.2
    obtain ⟨born, services, others, -, -, -, dead⟩ := releaseFields_core state id covered
    exact holds.destructs released (born ▸ exists_.1) dead others services
  unfold RuntimeCore.destroyExternal
  cases device : (state.cores id).device with
  | prepared => exact releases (Or.inl device)
  | terminated => exact releases (Or.inr device)
  | running => exact quarantined
  | closing => exact quarantined
  | quarantined =>
    have lifecycle : (state.cores id).lifecycle = .quarantined := by
      unfold Core.DeviceFits at fits
      rw [device] at fits
      exact fits.resolve_right fun impossible => impossible
    exact holds.destruct exists_.1 fun alive => (holds.safe.open_of_alive alive).2.1 lifecycle

end KvCache.RuntimeCore
