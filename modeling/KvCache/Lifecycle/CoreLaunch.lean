import KvCache.Lifecycle.CoreSteps

/-!
# Construction and launch

A constructor claims a slot, reserves, prepares a program and, for an internal core,
launches it. Where it throws before the launch its core is gone without a trace but in the
service that it joined; where the launch may have started everything is quarantined.

A program of several shards is submitted for all of them at once. If the outcome is
unknown, all of them are quarantined at once.
-/

namespace KvCache.RuntimeCore

open Run Function

/-- All shards that the shared program lists hold their resources. -/
def Whole (state : State) (service : Nat) : Prop :=
  ∀ shard ∈ (state.services service).servers, (state.cores shard).alive = true

instance (state : State) (service : Nat) : Decidable (Whole state service) :=
  inferInstanceAs (Decidable (∀ shard ∈ _, _))

/-- The next launch submits the shared program. -/
def Launchable (shared : Service) : Prop :=
  shared.prepared = true ∧ shared.preparationFailed = false ∧ shared.launched = false ∧
    shared.workload = true

instance (shared : Service) : Decidable (Launchable shared) :=
  inferInstanceAs (Decidable (_ ∧ _ ∧ _ ∧ _))

/-! ## Launch -/

/-- Marking a core of a launch changes nothing else. -/
theorem markLaunch_core (state : State) (service id : Nat) :
    (state.cores id).Kept ((markLaunch state service).cores id) ∧
      ((markLaunch state service).cores id).place = (state.cores id).place ∧
      ((markLaunch state service).cores id).terminationSignalled =
        (state.cores id).terminationSignalled ∧
      ((markLaunch state service).cores id).nodeService = (state.cores id).nodeService := by
  unfold markLaunch State.onService
  simp only
  split
  · exact ⟨⟨rfl, rfl, rfl, rfl, rfl, rfl, rfl, rfl, rfl, fun alive => alive,
      fun present => present⟩, rfl, rfl, rfl⟩
  · exact ⟨.refl _, rfl, rfl, rfl⟩

/-- The submission starts a program that has gathered its shards.

Proof: none of them has been signalled and all hold their resources. -/
theorem Safe.markLaunch {state : State} (safe : Safe state) {service : Nat}
    (launchable : Launchable (state.services service))
    (gathering : (state.services service).phase = .gathering)
    (complete : (state.services service).servers.length = (state.services service).shardCount)
    (whole : Whole state service) {id : Nat} (joined : (state.cores id).joined = some service) :
    Safe (markLaunch state service) := by
  obtain ⟨launched, count, nodup, lists⟩ := (safe.services service).gathers gathering
  have phase : Service.phase { state.services service with running := true } = .running :=
    Service.phase_running.mpr rfl
  have cores := markLaunch_core state service
  apply safe.onShared (RuntimeCore.markLaunch state service).cores
  · intro other
    obtain ⟨kept, place, -, nodeService⟩ := cores other
    refine ⟨kept.config, kept.service, nodeService, Or.inl (by rw [place]), Or.inr (by rw [place]),
      fun unborn => ?_⟩
    have unlisted : other ∉ (state.services service).servers := fun inside => by
      have join := (lists other).mp inside
      rw [unborn] at join
      exact nomatch join
    rw [← unborn]
    exact if_neg unlisted
  · intro other
    by_cases listed : other ∈ (state.services service).servers
    · have join := (lists other).mp listed
      have fits := safe.cores other
      have gathers := fits.gathers service join gathering
      have marked : (RuntimeCore.markLaunch state service).cores other =
          { state.cores other with launchMayHaveStarted := true } := if_pos listed
      have started : Core.Fits state.services
          { state.cores other with launchMayHaveStarted := true } :=
        { fits with
          runs := fun run => ⟨rfl, (fits.runs run).2⟩
          joins := fun another joins running => ⟨rfl, (fits.joins another joins running).2⟩ }
      rw [marked]
      apply started.onService
      · rfl
      · rfl
      · exact fun _ gathers => (nomatch phase.symm.trans gathers)
      · intro _ _
        refine ⟨rfl, gathers.2.2, fun returned => ?_, Or.inl (Or.inl ?_)⟩
        · exact nomatch gathers.2.1.symm.trans returned
        · exact Core.alive_iff.mp (whole other listed)
    · have unmarked : (RuntimeCore.markLaunch state service).cores other = state.cores other :=
        if_neg listed
      rw [unmarked]
      apply (safe.cores other).onService
      · rfl
      · rfl
      · exact fun _ gathers => (nomatch phase.symm.trans gathers)
      · exact fun join => absurd ((lists other).mpr join) listed
  · rfl
  · refine ⟨fun gathers => (nomatch phase.symm.trans gathers), fun _ => ?_,
      fun spent => (nomatch phase.symm.trans spent)⟩
    refine ⟨launchable.1, launchable.2.2.2, launchable.2.1, ⟨nodup, fun shard => ?_⟩, complete, ?_,
      id, (lists id).mpr joined, ?_⟩
    · rw [(cores shard).1.joined]
      exact lists shard
    · have none_ : (state.services service).servers.filter (fun shard =>
          ((RuntimeCore.markLaunch state service).cores shard).terminationSignalled) = [] := by
        rw [List.filter_eq_nil_iff]
        intro shard inside
        rw [(cores shard).2.2.1]
        have gathers := (safe.cores shard).gathers service ((lists shard).mp inside) gathering
        simp [gathers.1]
      have counted := congrArg List.length none_
      exact count.trans counted.symm
    · rw [(cores id).1.returned]
      exact ((safe.cores id).gathers service joined gathering).2.1
  · intro other _
    exact (safe.services other).congr (fun shard => (cores shard).1.joined)
      (fun shard => (cores shard).2.2.1) fun shard => (cores shard).1.returned
  · intro other another join
    rw [(cores other).1.joined] at join
    exact safe.created other another (Or.inl join)

/-- Recording the launch of a program that runs. -/
theorem Safe.setLaunched {state : State} (safe : Safe state) {service : Nat}
    (running : (state.services service).phase = .running) :
    Safe (state.onService service fun shared => { shared with launched := true }) := by
  have phase : Service.phase { state.services service with launched := true } = .running :=
    Service.phase_running.mpr (Service.phase_running.mp running)
  apply safe.onShared state.cores
  · exact fun id => .refl _
  · intro id
    apply (safe.cores id).onService
    · rfl
    · rfl
    · exact fun _ gathers => (nomatch phase.symm.trans gathers)
    · exact fun join _ => (safe.cores id).joins service join running
  · rfl
  · exact ⟨fun gathers => (nomatch phase.symm.trans gathers),
      fun _ => (safe.services service).runs running,
      fun spent => (nomatch phase.symm.trans spent)⟩
  · exact fun other _ => safe.services other
  · exact fun id other join => safe.created id other (Or.inl join)

/-- Quarantining a list of cores: each of them is not alive afterwards, and the others are
as they were. -/
theorem Safe.quarantineShards {state : State} (safe : Safe state) {shards : List Nat}
    (before : ∀ shard ∈ shards, shard < state.born) :
    Safe (quarantineShards state shards) ∧
      (quarantineShards state shards).born = state.born ∧
      (quarantineShards state shards).services = state.services ∧
      ∀ id, (id ∈ shards → ((quarantineShards state shards).cores id).lifecycle = .quarantined ∧
          ((quarantineShards state shards).cores id).place .submesh ≠ .members) ∧
        (id ∉ shards → (quarantineShards state shards).cores id = state.cores id) := by
  induction shards generalizing state with
  | nil => exact ⟨safe, rfl, rfl, fun id => ⟨nofun, fun _ => rfl⟩⟩
  | cons shard rest inductionHypothesis =>
    obtain ⟨born, services, others, lifecycle, dead⟩ := quarantine_core state shard
    obtain ⟨safeRest, bornRest, servicesRest, coresRest⟩ := inductionHypothesis
      (safe.quarantine (before shard (List.mem_cons_self ..)))
      fun other inside => born ▸ before other (List.mem_cons_of_mem _ inside)
    refine ⟨safeRest, bornRest.trans born, servicesRest.trans services, fun id => ⟨?_, ?_⟩⟩
    · intro inside
      by_cases later : id ∈ rest
      · exact (coresRest id).1 later
      · obtain rfl : id = shard := by simpa [later] using inside
        have same := (coresRest id).2 later
        exact ⟨same ▸ lifecycle, same ▸ dead⟩
    · intro outside
      rw [List.mem_cons, not_or] at outside
      exact ((coresRest id).2 outside.2).trans (others id outside.1)

/-- What a launch does to the core that calls it: nothing, it starts its program or that of
its service, or the core is quarantined with all the others. The flag says whether the
launch threw. -/
inductive LaunchOutcome (state after : State) (id : Nat) : Bool → Prop where
  | nothing {threw : Bool} (same : after = state) : LaunchOutcome state after id threw
  | started {threw : Bool} {running : Bool} (core : after.cores id = { state.cores id with
        launchMayHaveStarted := true, running := running })
      (launched : ∀ service, (state.cores id).joined = some service →
        (after.services service).running = true → (after.services service).launched = true) :
      LaunchOutcome state after id threw
  | quarantined (lifecycle : (after.cores id).lifecycle = .quarantined)
      (dead : (after.cores id).place .submesh ≠ .members)
      (started : (after.cores id).launchMayHaveStarted = true) : LaunchOutcome state after id true

/-- Quarantining keeps the mark of the launch. -/
theorem quarantineShards_started (state : State) (shards : List Nat) (id : Nat) :
    ((quarantineShards state shards).cores id).launchMayHaveStarted =
      (state.cores id).launchMayHaveStarted := by
  induction shards generalizing state with
  | nil => rfl
  | cons shard rest inductionHypothesis =>
    refine (inductionHypothesis (quarantine state shard)).trans ?_
    by_cases at_ : id = shard
    · subst at_
      unfold quarantine quarantineFailedTeardown
      split <;> simp only [State.onCore, update_self]
      rfl
    · rw [(quarantine_core state shard).2.2.1 id at_]

/-- A failed submission quarantines every shard of the program. -/
theorem Safe.quarantineLaunch {state : State} (safe : Safe state) (service id : Nat)
    (listed : ∀ shard, shard ∈ (state.services service).servers ↔
      (state.cores shard).joined = some service)
    (joined : (state.cores id).joined = some service) (before : Nat → Core)
    (services : Nat → Service) (kept : ∀ other, (before other).Kept (state.cores other))
    (steady : ∀ other, other ≠ id → (before other).Steady services)
    (same : ∀ other, other ≠ service → state.services other = services other)
    (started : (state.cores id).launchMayHaveStarted = true) :
    Safe (RuntimeCore.quarantineShards state (state.services service).servers) ∧
      (RuntimeCore.quarantineShards state (state.services service).servers).born = state.born ∧
      (∀ other, other ≠ id → ((RuntimeCore.quarantineShards state (state.services service).servers).cores
        other).Steady (RuntimeCore.quarantineShards state (state.services service).servers).services) ∧
      ((RuntimeCore.quarantineShards state (state.services service).servers).cores id).lifecycle =
        .quarantined ∧
      ((RuntimeCore.quarantineShards state (state.services service).servers).cores id).place .submesh ≠
        .members ∧
      ((RuntimeCore.quarantineShards state (state.services service).servers).cores id).launchMayHaveStarted =
        true := by
  have born : ∀ shard ∈ (state.services service).servers, shard < state.born := by
    intro shard inside
    by_contra beyond
    have join := (listed shard).mp inside
    rw [safe.unborn shard (Nat.not_lt.mp beyond)] at join
    exact nomatch join
  obtain ⟨safeAfter, bornAfter, servicesAfter, coresAfter⟩ := safe.quarantineShards born
  obtain ⟨lifecycle, dead⟩ := (coresAfter id).1 ((listed id).mpr joined)
  refine ⟨safeAfter, bornAfter, fun other apart => ?_, lifecycle, dead, ?_⟩
  · by_cases inside : other ∈ (state.services service).servers
    · obtain ⟨lifecycleOther, deadOther⟩ := (coresAfter other).1 inside
      exact Core.steady_quarantined _ lifecycleOther deadOther
    · rw [(coresAfter other).2 inside, servicesAfter]
      apply (steady other apart).kept (kept other)
      intro another join running
      have elsewhere : another ≠ service := fun equal => by
        rw [← (kept other).joined, equal] at join
        exact inside ((listed other).mpr join)
      rw [same another elsewhere] at running ⊢
      exact Or.inr ⟨running, fun launched => launched⟩
  · rw [quarantineShards_started]
    exact started

/-- Launching keeps the invariant, and the other cores are steady.

Proof: a program that is submitted has gathered its shards, because a core that is alive
and whose service runs finds it launched. -/
theorem Safe.launchServerKernel {state : State} (safe : Safe state) {id : Nat}
    (alive : (state.cores id).place .submesh = .members)
    (joined : (state.cores id).joined = (state.cores id).service)
    (launched : ∀ service, (state.cores id).joined = some service →
      (state.services service).running = true → (state.services service).launched = true)
    (returned : (state.cores id).terminateReturned = false)
    (unsafe_ : (state.cores id).quarantineSafeToRelease = false)
    (whole : ∀ service, (state.cores id).service = some service →
      Launchable (state.services service) → Whole state service)
    (steady : ∀ other, other ≠ id → (state.cores other).Steady state.services)
    (enqueueFails : Bool) :
    Safe (launchServerKernel state id enqueueFails).1 ∧
      (launchServerKernel state id enqueueFails).1.born = state.born ∧
      (∀ other, other ≠ id → ((launchServerKernel state id enqueueFails).1.cores other).Steady
        (launchServerKernel state id enqueueFails).1.services) ∧
      LaunchOutcome state (launchServerKernel state id enqueueFails).1 id
        (launchServerKernel state id enqueueFails).2 := by
  have nothing : ∀ threw, Safe state ∧ state.born = state.born ∧
      (∀ other, other ≠ id → (state.cores other).Steady state.services) ∧
      LaunchOutcome state state id threw := fun _ => ⟨safe, rfl, steady, .nothing rfl⟩
  have before := safe.before alive
  have fits := safe.cores id
  unfold RuntimeCore.launchServerKernel
  split
  · rename_i service served
    have join := joined.trans served
    simp only
    split
    · exact nothing _
    split
    · exact nothing _
    split
    · exact nothing _
    split
    · exact nothing _
    rename_i prepared counted unlaunched workload
    rw [not_or] at counted
    have launchable : Launchable (state.services service) := by
      unfold Launchable
      grind
    have gathering : (state.services service).phase = .gathering := by
      cases phase : (state.services service).phase with
      | gathering => rfl
      | running =>
        have done := launched service join (Service.phase_running.mp phase)
        cases launchable.2.2.1.symm.trans done
      | spent =>
        have gone := (Service.phase_spent.mp phase).2
        unfold Launchable at launchable
        grind
    have complete : (state.services service).servers.length =
        (state.services service).shardCount := by
      by_contra differs
      exact counted.2 differs
    have marked := safe.markLaunch launchable gathering complete (whole service served launchable)
      join
    have cores := markLaunch_core state service
    have lists := ((safe.services service).gathers gathering).2.2.2
    have own : (RuntimeCore.markLaunch state service).cores id =
        { state.cores id with launchMayHaveStarted := true } := if_pos ((lists id).mpr join)
    have servers : ((RuntimeCore.markLaunch state service).services service).servers =
        (state.services service).servers := by
      simp only [RuntimeCore.markLaunch, State.onService, update_self]
    have elsewhere : ∀ other, other ≠ service →
        (RuntimeCore.markLaunch state service).services other = state.services other := fun other apart =>
      update_of_ne apart ..
    have runs : ((RuntimeCore.markLaunch state service).services service).phase = .running := by
      apply Service.phase_running.mpr
      simp only [RuntimeCore.markLaunch, State.onService, update_self]
    have listed : ∀ shard, shard ∈ (state.services service).servers ↔
        ((RuntimeCore.markLaunch state service).cores shard).joined = some service := by
      intro shard
      rw [(cores shard).1.joined]
      exact lists shard
    split
    · have all := marked.quarantineLaunch service id ?_ ?_ state.cores
        state.services (fun other => (cores other).1) steady elsewhere ?_
      · rw [servers] at all
        exact ⟨all.1, all.2.1, all.2.2.1, .quarantined all.2.2.2.1 all.2.2.2.2.1 all.2.2.2.2.2⟩
      · rw [servers]
        exact listed
      · rw [(cores id).1.joined]
        exact join
      · rw [own]
    have launchedNow := marked.setLaunched runs
    have flag : ((RuntimeCore.markLaunch state service).onService service fun shared =>
        { shared with launched := true }).services service =
          { (RuntimeCore.markLaunch state service).services service with launched := true } := update_self ..
    have elsewhereNow : ∀ other, other ≠ service →
        ((RuntimeCore.markLaunch state service).onService service fun shared =>
          { shared with launched := true }).services other = state.services other := by
      intro other apart
      exact (update_of_ne apart ..).trans (elsewhere other apart)
    split
    · have all := launchedNow.quarantineLaunch service id ?_ ?_ state.cores
        state.services (fun other => (cores other).1) steady elsewhereNow ?_
      · rw [flag, servers] at all
        exact ⟨all.1, all.2.1, all.2.2.1, .quarantined all.2.2.2.1 all.2.2.2.2.1 all.2.2.2.2.2⟩
      · rw [flag, servers]
        exact listed
      · exact (cores id).1.joined.trans join
      · exact congrArg Core.launchMayHaveStarted own
    · refine ⟨launchedNow, rfl, fun other apart => ?_, .started own fun another joins _ => ?_⟩
      · apply (steady other apart).kept (cores other).1
        intro another _ running
        by_cases at_ : another = service
        · subst at_
          rw [flag]
          exact Or.inl rfl
        · rw [elsewhereNow another at_] at running ⊢
          exact Or.inr ⟨running, fun launched => launched⟩
      · obtain rfl : another = service := Option.some.inj (joins.symm.trans join)
        rw [flag]
  · rename_i unserved
    have unjoined : (state.cores id).joined = none := joined.trans unserved
    split
    · exact nothing _
    rename_i loaded
    have member : (state.cores id).place .workload = .members := by
      by_contra away
      exact loaded away
    have running : Core.Fits state.services
        { state.cores id with launchMayHaveStarted := true, running := true } :=
      { fits with
        uniform := fun resource => by
          rcases fits.uniform resource with absent | same | ⟨at_, freed, -, -⟩
          · exact Or.inl absent
          · exact Or.inr (Or.inl same)
          · rw [at_, member] at freed
            cases freed
        loaded := fun _ => member.trans alive.symm
        runs := fun _ => ⟨rfl, unsafe_, returned, Or.inl alive, unjoined⟩
        joins := fun service join => (by cases unjoined.symm.trans join) }
    refine ⟨safe.onCore before
      (fun core => { core with launchMayHaveStarted := true, running := true })
      ⟨rfl, rfl, rfl, rfl⟩ running rfl rfl rfl, rfl, fun other apart => ?_, .started (update_self ..) fun service join => ?_⟩
    · have same : (state.onCore id fun core => { core with
          launchMayHaveStarted := true, running := true }).cores other = state.cores other :=
        update_of_ne apart ..
      rw [same]
      exact steady other apart
    · cases unjoined.symm.trans join

/-- The device runtime launches its core. -/
theorem Holds.launch {state : State} (holds : Holds state) {id : Nat} (exists_ : Exists state id)
    (mode : (state.cores id).config.mode = .external)
    (whole : ∀ service, (state.cores id).service = some service →
      Launchable (state.services service) → Whole state service) (enqueueFails : Bool) :
    Holds (launch state id enqueueFails) := by
  have steady := holds.steady id
  have fits := steady.device mode (holds.safe.born id exists_.1) exists_.2
  unfold RuntimeCore.launch
  split
  · exact holds
  rename_i device
  rw [not_not] at device
  split
  · split
    · rename_i quarantined
      have relabelled := holds.relabel id exists_.1 .quarantined .quarantined
        (fun alive => absurd quarantined (holds.safe.open_of_alive alive).2.1)
        (fun _ => Or.inr (Or.inl rfl)) (fun impossible => by cases impossible) fun _ => Or.inl rfl
      unfold State.onCore at relabelled ⊢
      rwa [← quarantined] at relabelled
    · exact holds
  rename_i constructing
  rw [not_not] at constructing
  have alive := holds.safe.alive exists_ (by rw [constructing]; exact fun impossible => by cases impossible)
    (by rw [constructing]; exact fun impossible => by cases impossible)
  have stands := fits.resolve_left (by rw [constructing]; exact fun impossible => by cases impossible)
  rw [device] at stands
  obtain ⟨-, idle, returned, unsafe_⟩ := stands
  obtain ⟨safe, born, others, outcome⟩ := holds.safe.launchServerKernel alive (steady.joined alive)
    (steady.launched alive) returned unsafe_ whole (fun other _ => holds.steady other) enqueueFails
  generalize launchServerKernel state id enqueueFails = result at *
  obtain ⟨after, threw⟩ := result
  have beforeAfter : id < after.born := by
    simp only at born
    rw [born]
    exact exists_.1
  simp only
  cases threw with
  | true =>
    simp only [if_true]
    split
    · exact safe.quarantineDevice beforeAfter others
    · rename_i unstarted
      cases outcome with
      | nothing same =>
        simp only at same
        subst same
        exact holds
      | started core => exact absurd (congrArg Core.launchMayHaveStarted core) unstarted
      | quarantined _ _ started => exact absurd started unstarted
  | false =>
    simp only [Bool.false_eq_true, if_false]
    have ready : (after.cores id).place .submesh = .members →
        (after.cores id).joined = (after.cores id).service →
        (∀ service, (after.cores id).joined = some service →
          (after.services service).running = true → (after.services service).launched = true) →
        (after.cores id).config.mode = .external →
        Holds (after.onCore id fun core =>
          { core with lifecycle := .ready, device := .running }) := by
      intro aliveAfter joined launched modeAfter
      refine ⟨safe.relabel beforeAfter .ready .running (fun _ =>
          ⟨(fun impossible => by cases impossible), fun impossible => by cases impossible⟩)
        fun dead => absurd aliveAfter dead, fun other => ?_⟩
      by_cases at_ : other = id
      · subst at_
        simp only [State.onCore, update_self]
        exact ⟨fun _ => joined, fun _ => launched, fun _ _ impossible => (by cases impossible),
          fun _ _ _ => Or.inr rfl⟩
      · simp only [State.onCore, update_of_ne at_]
        exact others other at_
    cases outcome with
    | nothing same =>
      simp only at same
      subst same
      exact ready alive (steady.joined alive) (steady.launched alive) mode
    | started core launched =>
      simp only at core launched
      apply ready <;> rw [core]
      · exact alive
      · exact steady.joined alive
      · exact launched
      · exact mode

end KvCache.RuntimeCore
