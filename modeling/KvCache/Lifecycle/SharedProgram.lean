import KvCache.Lifecycle.CoreOwnership

/-!
# The shared program

What happens to the service of an endpoint: a shard is appended, the program is launched,
a shard is signalled, the program is waited for, and a service is spoilt because one of
its shards is gone or could not be prepared.
-/

namespace KvCache.RuntimeCore

open Run Function

/-- A core after a step that moves nothing but what was retired. -/
structure SameOwner (core other : Core) : Prop where
  config : other.config = core.config
  service : other.service = core.service
  nodeService : other.nodeService = core.nodeService
  submesh : other.place .submesh = core.place .submesh ∨
    ∃ service, core.place .submesh = .retired service ∧ other.place .submesh = .freed
  serverL1 : other.place .serverL1 = .freed ∨ other.place .serverL1 = core.place .serverL1
  unborn : core = .unborn → other = .unborn

theorem SameOwner.refl (core : Core) : SameOwner core core :=
  ⟨rfl, rfl, rfl, Or.inl rfl, Or.inr rfl, id⟩

theorem SameOwner.claims {core other : Core} (same : SameOwner core other)
    (claims : other.claims) : core.claims := by
  unfold Core.claims at *
  rcases same.submesh with kept | ⟨service, retired, freed⟩ <;> grind

/-- A change of one service and of what its shards know keeps the invariant, if the cores
and the services still fit. -/
theorem Safe.onShared {state : State} (safe : Safe state) {service : Nat} {shared : Service}
    (cores : Nat → Core) (same : ∀ id, SameOwner (state.cores id) (cores id))
    (fits : ∀ id, (cores id).Fits (update state.services service shared))
    (submesh : shared.submesh = (state.services service).submesh)
    (own : shared.Fits cores service)
    (others : ∀ other, other ≠ service → (state.services other).Fits cores other)
    (joined : ∀ id other, (cores id).joined = some other → other < state.created) :
    Safe { state with cores := cores, services := update state.services service shared } := by
  have referenced : ∀ other, Referenced { state with
      cores := cores, services := update state.services service shared } other →
      Referenced state other := fun other =>
    referenced_of_kept state _ rfl fun id refers => by
      rwa [(same id).service, (same id).nodeService] at refers
  have submeshes : ∀ other, (update state.services service shared other).submesh =
      (state.services other).submesh := by
    intro other
    by_cases at_ : other = service
    · subst at_
      rw [update_self, submesh]
    · rw [update_of_ne at_]
  constructor
  · exact fun id beyond => (same id).unborn (safe.unborn id beyond)
  · intro id before
    rcases (same id).submesh with kept | ⟨_, -, freed⟩
    · exact kept ▸ safe.born id before
    · exact freed ▸ nofun
  · exact fits
  · intro other
    by_cases at_ : other = service
    · subst at_
      simpa only [update_self] using own
    · simpa only [update_of_ne at_] using others other at_
  · intro id other held
    rcases held with held | held
    · exact joined id other held
    · rw [(same id).service, (same id).nodeService] at held
      exact safe.created id other (Or.inr held)
  · intro id claims
    rw [(same id).config]
    exact safe.slots id ((same id).claims claims)
  · intro id other claims claimsToo slot
    rw [(same id).config, (same other).config] at slot
    exact safe.apart id other ((same id).claims claims) ((same other).claims claimsToo) slot
  · intro other held
    simp only [submeshes]
    exact safe.registered other (referenced other held)
  · intro place other found
    simp only [submeshes]
    exact safe.registry place other found
  · intro id owned
    simp only [(same id).config]
    apply safe.carveOut id
    have owned := Place.Owned.mono owned referenced
    rcases (same id).serverL1 with freed | kept
    · rw [freed] at owned
      exact owned.elim
    · rwa [kept] at owned
  · obtain ⟨contents, represents, nodes⟩ := safe.listed
    refine ⟨contents, represents, fun id => (nodes id).trans ?_⟩
    rcases (same id).submesh with kept | ⟨_, retired, freed⟩
    · rw [kept]
    · simp [retired, freed]

/-- A core fits with a changed service, if it fits the phase that the service is in now. -/
theorem Core.Fits.onService {core : Core} {services : Nat → Service} (fits : core.Fits services)
    {service : Nat} {shared : Service}
    (submesh : shared.submesh = (services service).submesh)
    (shardCount : shared.shardCount = (services service).shardCount)
    (gathers : core.joined = some service → shared.phase = .gathering →
      core.terminationSignalled = false ∧ core.terminateReturned = false ∧
        core.quarantineSafeToRelease = false)
    (joins : core.joined = some service → shared.phase = .running →
      core.launchMayHaveStarted = true ∧ core.quarantineSafeToRelease = false ∧
        (core.terminateReturned = true → core.terminationSignalled = true) ∧
        (core.claims ∨
          (core.place .submesh = .retired service ∧ core.terminateReturned = true))) :
    core.Fits (update services service shared) :=
  { fits with
    shares := fun other join => by
      by_cases at_ : other = service
      · subst at_
        rw [update_self, submesh, shardCount]
        exact fits.shares other join
      · rw [update_of_ne at_]
        exact fits.shares other join
    gathers := fun other join phase => by
      by_cases at_ : other = service
      · subst at_
        exact gathers join (by rwa [update_self] at phase)
      · exact fits.gathers other join (by rwa [update_of_ne at_] at phase)
    joins := fun other join phase => by
      by_cases at_ : other = service
      · subst at_
        exact joins join (by rwa [update_self] at phase)
      · exact fits.joins other join (by rwa [update_of_ne at_] at phase) }

/-- A spent service asks for nothing but that it is not launched. -/
theorem Service.Fits.spent_only {cores : Nat → Core} {id : Nat} {service : Service}
    (spent : service.phase = .spent) (launched : service.launched = false) :
    service.Fits cores id :=
  ⟨fun phase => (nomatch spent.symm.trans phase), fun phase => (nomatch spent.symm.trans phase),
    fun _ => launched⟩

/-- Spoiling a service keeps the invariant. -/
theorem Safe.spend {state : State} (safe : Safe state) (service : Nat) (change : Service → Service)
    (spent : (change (state.services service)).phase = .spent)
    (launched : (change (state.services service)).launched = false)
    (submesh : (change (state.services service)).submesh = (state.services service).submesh)
    (shardCount : (change (state.services service)).shardCount =
      (state.services service).shardCount) : Safe (state.onService service change) := by
  apply safe.onShared state.cores
  · exact fun id => .refl _
  · intro id
    exact (safe.cores id).onService submesh shardCount
      (fun _ phase => (nomatch spent.symm.trans phase))
      fun _ phase => (nomatch spent.symm.trans phase)
  · exact submesh
  · exact .spent_only spent launched
  · exact fun other _ => safe.services other
  · exact fun id other join => safe.created id other (Or.inl join)

/-! ## Termination -/

/-- Freeing what a core left to a service that does not run. -/
theorem Core.Fits.dropRetired {core : Core} {services : Nat → Service} (fits : core.Fits services)
    {service : Nat} (idle : (services service).phase ≠ .running) :
    (core.dropRetired service).Fits services := by
  have place : ∀ resource, (core.dropRetired service).place resource =
      if core.place resource = .retired service then .freed else core.place resource := fun _ => rfl
  constructor
  · intro resource
    have uniform := fits.uniform resource
    rw [place, place]
    change _ ∨ _ ∨ _ ∧ _ ∧ core.running = false ∧ core.joined = none
    grind
  · rw [place, place]
    intro used resource apart uses
    have kept := fits.used (by grind [Core.dropRetired]) resource apart uses
    rw [place]
    grind
  · intro join
    have absent := fits.unshared join
    rw [place, absent]
    exact if_neg nofun
  · intro run
    have loaded := fits.loaded run
    rw [place, place, loaded]
  · intro members
    apply fits.living
    grind
  · intro node
    apply fits.held
    grind
  · intro away apart
    apply fits.resting <;> grind
  · intro away present
    apply fits.settled <;> grind
  · intro other retired
    apply fits.retired
    grind
  · exact fits.safe
  · intro run
    have runs := fits.runs run
    refine ⟨runs.1, runs.2.1, runs.2.2.1, ?_, runs.2.2.2.2⟩
    have claims := runs.2.2.2.1
    unfold Core.claims at *
    grind
  · exact fits.shares
  · exact fits.gathers
  · intro other join phase
    have joins := fits.joins other join phase
    refine ⟨joins.1, joins.2.1, joins.2.2.1, ?_⟩
    have kept := joins.2.2.2
    have apart : other ≠ service := fun same => idle (same ▸ phase)
    have returned : (core.dropRetired service).terminateReturned = core.terminateReturned := rfl
    unfold Core.claims at *
    grind

/-- Once the program has ended, what was retired is freed and nobody addresses it. -/
theorem Safe.finish {state : State} (safe : Safe state) {service : Nat}
    (running : (state.services service).phase = .running) : Safe (finishService state service) := by
  obtain ⟨prepared, -⟩ := (safe.services service).runs running
  have spent : Service.phase { state.services service with
      workload := false, launched := false, running := false } = .spent :=
    Service.phase_spent.mpr ⟨rfl, Or.inr ⟨prepared, rfl⟩⟩
  apply safe.onShared fun id => (state.cores id).dropRetired service
  · intro id
    have place : ∀ resource, ((state.cores id).dropRetired service).place resource =
        if (state.cores id).place resource = .retired service then .freed
        else (state.cores id).place resource := fun _ => rfl
    refine ⟨rfl, rfl, rfl, ?_, ?_, fun unborn => ?_⟩
    · grind
    · grind
    · rw [unborn]
      rfl
  · intro id
    apply ((safe.cores id).onService _ _ _ _).dropRetired
    · rw [update_self, spent]
      exact nofun
    · rfl
    · rfl
    · exact fun _ phase => (nomatch spent.symm.trans phase)
    · exact fun _ phase => (nomatch spent.symm.trans phase)
  · rfl
  · exact .spent_only spent rfl
  · intro other _
    exact (safe.services other).congr (fun _ => rfl) (fun _ => rfl) fun _ => rfl
  · exact fun id other join => safe.created id other (Or.inl join)

/-- Marking one listed element more makes one marked element more. -/
theorem length_filter_mark {shards : List Nat} (nodup : shards.Nodup) {id : Nat}
    (listed : id ∈ shards) (marked others : Nat → Bool) (unmarked : marked id = false)
    (now : others id = true) (kept : ∀ other, other ≠ id → others other = marked other) :
    (shards.filter others).length = (shards.filter marked).length + 1 := by
  have split := List.perm_cons_erase listed
  have apart : id ∉ shards.erase id := fun inside => (nodup.mem_erase_iff.mp inside).1 rfl
  have rest : (shards.erase id).filter others = (shards.erase id).filter marked := by
    apply List.filter_congr
    intro other inside
    exact kept other fun same => apart (same ▸ inside)
  calc (shards.filter others).length
      = ((id :: shards.erase id).filter others).length := (split.filter others).length_eq
    _ = ((shards.erase id).filter marked).length + 1 := by
        rw [List.filter_cons_of_pos now, List.length_cons, rest]
    _ = ((id :: shards.erase id).filter marked).length + 1 := by
        rw [List.filter_cons_of_neg (by simp [unmarked])]
    _ = (shards.filter marked).length + 1 := by rw [(split.filter marked).length_eq]

/-- Signalling a shard of a running program keeps the invariant. -/
theorem Safe.signal {state : State} (safe : Safe state) {id service : Nat}
    (joined : (state.cores id).joined = some service)
    (running : (state.services service).phase = .running) :
    Safe (signalShard state id service) := by
  unfold signalShard
  split
  · exact safe
  · rename_i unsignalled
    have unmarked : (state.cores id).terminationSignalled = false := by simpa using unsignalled
    obtain ⟨prepared, workload, failed, lists, complete, count, shard, listed, pending⟩ :=
      (safe.services service).runs running
    have phase : Service.phase { state.services service with
        terminatedServers := (state.services service).terminatedServers + 1 } = .running :=
      Service.phase_running.mpr (Service.phase_running.mp running)
    have joins : ∀ other, (update state.cores id { state.cores id with
        terminationSignalled := true } other).joined = (state.cores other).joined := by
      intro other
      by_cases at_ : other = id
      · subst at_
        rw [update_self]
      · rw [update_of_ne at_]
    have returns : ∀ other, (update state.cores id { state.cores id with
        terminationSignalled := true } other).terminateReturned =
          (state.cores other).terminateReturned := by
      intro other
      by_cases at_ : other = id
      · subst at_
        rw [update_self]
      · rw [update_of_ne at_]
    apply safe.onShared (update state.cores id { state.cores id with terminationSignalled := true })
    · intro other
      by_cases at_ : other = id
      · subst at_
        rw [update_self]
        refine ⟨rfl, rfl, rfl, Or.inl rfl, Or.inr rfl, fun unborn => ?_⟩
        rw [unborn] at joined
        exact nomatch joined
      · rw [update_of_ne at_]
        exact .refl _
    · intro other
      by_cases at_ : other = id
      · subst at_
        have fits := safe.cores other
        have runs := fits.joins service joined running
        have marked : Core.Fits state.services
            { state.cores other with terminationSignalled := true } :=
          { fits with
            gathers := fun another join gathering => by
              obtain rfl : another = service := Option.some.inj (join.symm.trans joined)
              exact nomatch gathering.symm.trans running
            joins := fun another join going => by
              have kept := fits.joins another join going
              exact ⟨kept.1, kept.2.1, fun _ => rfl, kept.2.2.2⟩ }
        rw [update_self]
        apply marked.onService
        · rfl
        · rfl
        · exact fun _ gathering => (nomatch phase.symm.trans gathering)
        · exact fun _ _ => marked.joins service joined running
      · rw [update_of_ne at_]
        apply (safe.cores other).onService
        · rfl
        · rfl
        · exact fun _ gathering => (nomatch phase.symm.trans gathering)
        · exact fun join _ => (safe.cores other).joins service join running
    · rfl
    · constructor
      · exact fun gathering => (nomatch phase.symm.trans gathering)
      · intro _
        refine ⟨prepared, workload, failed, ⟨lists.1, fun other => ?_⟩, complete, ?_, shard, listed,
          ?_⟩
        · rw [joins]
          exact lists.2 other
        · have own : id ∈ (state.services service).servers := (lists.2 id).mpr joined
          have counted := length_filter_mark lists.1 own
            (fun shard => (state.cores shard).terminationSignalled)
            (fun shard => (update state.cores id { state.cores id with
              terminationSignalled := true } shard).terminationSignalled) unmarked (by simp)
            fun other apart => by rw [update_of_ne apart]
          exact (congrArg (· + 1) count).trans counted.symm
        · rw [returns]
          exact pending
      · exact fun spent => (nomatch phase.symm.trans spent)
    · intro other apart
      have fits := safe.services other
      have lists : ∀ shared : Service, shared.Lists (update state.cores id
          { state.cores id with terminationSignalled := true }) other ↔
            shared.Lists state.cores other := by
        intro shared
        simp only [Service.Lists, joins]
      refine ⟨by simpa only [lists] using fits.gathers, fun going => ?_, fits.spent⟩
      obtain ⟨prepared, workload, failed, listsOther, complete, count, rest⟩ := fits.runs going
      refine ⟨prepared, workload, failed, (lists _).mpr listsOther, complete, ?_, ?_⟩
      · rw [count]
        congr 1
        apply List.filter_congr
        intro shard inside
        have elsewhere : shard ≠ id := fun same => by
          have join := (listsOther.2 shard).mp inside
          rw [same, joined] at join
          exact apart (Option.some.inj join).symm
        rw [update_of_ne elsewhere]
      · simpa only [returns] using rest
    · intro other another join
      rw [joins] at join
      exact safe.created other another (Or.inl join)

/-- A termination may return where the program has ended, where the shared program cannot
run again, or where the shard is signalled and another one has still to return. -/
theorem Safe.returns {state : State} (safe : Safe state) {id : Nat} (before : id < state.born)
    (ended : (state.cores id).running = false)
    (last : ∀ service, (state.cores id).joined = some service →
      (state.services service).phase = .spent ∨
        ((state.services service).phase = .running ∧
          (state.cores id).terminationSignalled = true ∧
          ∃ shard ∈ (state.services service).servers, shard ≠ id ∧
            (state.cores shard).terminateReturned = false)) :
    Safe (state.onCore id returned) := by
  have fits := safe.cores id
  have whole := @Safe.onShared state safe 0 (state.services 0)
    (update state.cores id (returned (state.cores id)))
  rw [update_eq_self] at whole
  have joins : ∀ other, (update state.cores id (returned (state.cores id)) other).joined =
      (state.cores other).joined := by
    intro other
    by_cases at_ : other = id
    · subst at_
      rw [update_self]
      rfl
    · rw [update_of_ne at_]
  have signals : ∀ other, (update state.cores id (returned (state.cores id))
      other).terminationSignalled = (state.cores other).terminationSignalled := by
    intro other
    by_cases at_ : other = id
    · subst at_
      rw [update_self]
      rfl
    · rw [update_of_ne at_]
  have served : ∀ service, (state.services service).Fits
      (update state.cores id (returned (state.cores id))) service := by
    intro service
    have kept := safe.services service
    have lists : (state.services service).Lists (update state.cores id
        (returned (state.cores id))) service ↔ (state.services service).Lists state.cores service := by
      simp only [Service.Lists, joins]
    refine ⟨by simpa only [lists] using kept.gathers, fun running => ?_, kept.spent⟩
    obtain ⟨prepared, workload, failed, listed, complete, count, shard, inside, pending⟩ :=
      kept.runs running
    refine ⟨prepared, workload, failed, lists.mpr listed, complete, by simpa only [signals] using count,
      ?_⟩
    by_cases at_ : shard = id
    · subst at_
      rcases last service ((listed.2 shard).mp inside) with spent | ⟨-, -, other, listedOther, apart, waits⟩
      · cases spent.symm.trans running
      · refine ⟨other, listedOther, ?_⟩
        rw [update_of_ne apart]
        exact waits
    · refine ⟨shard, inside, ?_⟩
      rw [update_of_ne at_]
      exact pending
  apply whole
  · intro other
    by_cases at_ : other = id
    · subst at_
      rw [update_self]
      refine ⟨rfl, rfl, rfl, Or.inl rfl, Or.inr rfl, fun unborn => ?_⟩
      have present := safe.born other before
      rw [unborn] at present
      exact absurd rfl present
    · rw [update_of_ne at_]
      exact .refl _
  · intro other
    by_cases at_ : other = id
    · subst at_
      rw [update_self]
      exact { fits with
        runs := fun run => absurd (ended ▸ run) fun impossible => by cases impossible
        gathers := fun service join gathering => by
          rcases last service join with spent | ⟨running, -⟩
          · cases spent.symm.trans gathering
          · cases running.symm.trans gathering
        joins := fun service join running => by
          have kept := fits.joins service join running
          rcases last service join with spent | ⟨-, signalled, -⟩
          · cases spent.symm.trans running
          · refine ⟨kept.1, kept.2.1, fun _ => signalled, ?_⟩
            exact kept.2.2.2.imp_right fun rests => ⟨rests.1, rfl⟩ }
    · rw [update_of_ne at_]
      exact safe.cores other
  · rfl
  · exact served 0
  · exact fun other _ => served other
  · intro other service join
    rw [joins] at join
    exact safe.created other service (Or.inl join)

/-- A test may inject a failure once the program has ended. -/
theorem Safe.injects {state : State} (safe : Safe state) {id : Nat} (before : id < state.born)
    (ended : (state.cores id).running = false)
    (last : ∀ service, (state.cores id).joined = some service →
      (state.services service).phase = .spent) :
    Safe (state.onCore id injectFailure) := by
  have fits := safe.cores id
  apply safe.onCore before injectFailure ⟨rfl, rfl, rfl, rfl⟩
  · exact { fits with
      safe := fun _ => rfl
      runs := fun run => absurd (ended ▸ run) nofun
      gathers := fun service join gathering =>
        (nomatch (last service join).symm.trans gathering)
      joins := fun service join running => (nomatch (last service join).symm.trans running) }
  · rfl
  · rfl
  · rfl

end KvCache.RuntimeCore
