import KvCache.Lifecycle.CoreLaunch

/-!
# Construction

A constructor works on a core of its own. Until it launches, what it changes besides is
the registry of slots, the layout of the carve-out, and the service that its shard joins.
-/

namespace KvCache.RuntimeCore

open Run Function

/-- A core whose constructor is at work and has launched nothing. -/
def Core.building (config : Config) (place : Resource → Place) (service joined : Option Nat) : Core :=
  { Core.fresh config with place := place, service := service, joined := joined }

/-- What a core has reserved. -/
def reservedPlace (config : Config) (resource : Resource) : Place :=
  if resource ≠ .submesh ∧ resource ≠ .workload ∧ config.uses resource then .members
  else (Core.fresh config).place resource

/-! ## The steps of a constructor -/

theorem fresh_fits (services : Nat → Service) (config : Config) :
    (Core.fresh config).Fits services := by
  constructor
  case uniform =>
    intro resource
    by_cases at_ : resource = .submesh
    · exact Or.inr (Or.inl (by rw [at_]))
    · exact Or.inl (if_neg at_)
  case living => simp [Core.fresh, Core.settled]
  all_goals simp [Core.fresh]

/-- Claiming a slot that is free. -/
theorem Safe.claimSlot {state : State} (safe : Safe state) (config : Config)
    (vacant : state.activeSlots config.slot = false) : Safe (claim state config) := by
  have fresh : ∀ id, (claim state config).cores id =
      if id = state.born then Core.fresh config else state.cores id := fun id => update_apply ..
  have unborn := safe.unborn state.born (Nat.le_refl _)
  have joins : ∀ id, ((claim state config).cores id).joined = (state.cores id).joined := by
    intro id
    rw [fresh]
    split
    · rename_i at_
      rw [at_, unborn]
      rfl
    · rfl
  have serves : ∀ id, ((claim state config).cores id).service = (state.cores id).service ∧
      ((claim state config).cores id).nodeService = (state.cores id).nodeService := by
    intro id
    rw [fresh]
    split
    · rename_i at_
      rw [at_, unborn]
      exact ⟨rfl, rfl⟩
    · exact ⟨rfl, rfl⟩
  have referenced : ∀ service, Referenced (claim state config) service →
      Referenced state service := by
    rintro service ⟨id, before, refers⟩
    rw [(serves id).1, (serves id).2] at refers
    by_cases at_ : id = state.born
    · rw [at_, unborn] at refers
      simp [Core.unborn, Core.fresh] at refers
    · exact ⟨id, Nat.lt_of_le_of_ne (Nat.lt_succ_iff.mp before) at_, refers⟩
  have claims : ∀ id, id ≠ state.born → ((claim state config).cores id).claims →
      (state.cores id).claims ∧ (state.cores id).config.slot ≠ config.slot := by
    intro id apart held
    rw [fresh, if_neg apart] at held
    refine ⟨held, fun same => ?_⟩
    have active := safe.slots id held
    rw [same, vacant] at active
    cases active
  constructor
  · intro id beyond
    have apart : id ≠ state.born := Nat.ne_of_gt (Nat.lt_of_succ_le beyond)
    rw [fresh, if_neg apart]
    exact safe.unborn id (Nat.le_of_succ_le beyond)
  · intro id before
    rw [fresh]
    split
    · exact fun impossible => by cases impossible
    · rename_i apart
      exact safe.born id (Nat.lt_of_le_of_ne (Nat.lt_succ_iff.mp before) apart)
  · intro id
    rw [fresh]
    split
    · exact fresh_fits _ config
    · exact safe.cores id
  · intro service
    apply (safe.services service).congr joins
    · intro id
      rw [fresh]
      split
      · rename_i at_
        rw [at_, unborn]
        rfl
      · rfl
    · intro id
      rw [fresh]
      split
      · rename_i at_
        rw [at_, unborn]
        rfl
      · rfl
  · intro id service
    rw [joins, (serves id).1, (serves id).2]
    exact safe.created id service
  · intro id held
    by_cases at_ : id = state.born
    · rw [fresh, if_pos at_]
      exact update_self ..
    · rw [fresh, if_neg at_]
      obtain ⟨heldBefore, apart⟩ := claims id at_ held
      exact (update_of_ne apart ..).trans (safe.slots id heldBefore)
  · intro id other held heldToo same
    by_cases at_ : id = state.born <;> by_cases atToo : other = state.born
    · rw [at_, atToo]
    · have apart := (claims other atToo heldToo).2
      rw [fresh, fresh, if_pos at_, if_neg atToo] at same
      exact absurd same.symm apart
    · have apart := (claims id at_ held).2
      rw [fresh, fresh, if_neg at_, if_pos atToo] at same
      exact absurd same apart
    · have heldBefore := (claims id at_ held).1
      have heldTooBefore := (claims other atToo heldToo).1
      rw [fresh, fresh, if_neg at_, if_neg atToo] at same
      exact safe.apart id other heldBefore heldTooBefore same
  · exact fun service held => safe.registered service (referenced service held)
  · exact safe.registry
  · intro id owned
    by_cases at_ : id = state.born
    · unfold Owned at owned
      rw [fresh, if_pos at_] at owned
      exact owned.elim
    · unfold Owned at owned
      rw [fresh, if_neg at_] at owned ⊢
      exact safe.carveOut id (owned.mono referenced)
  · obtain ⟨contents, represents, nodes⟩ := safe.listed
    refine ⟨contents, represents, fun id => (nodes id).trans ?_⟩
    rw [fresh]
    split
    · rename_i at_
      rw [at_, unborn]
      simp [Core.unborn, Core.fresh]
    · rfl

/-- Reserving the buffers of a core that has none yet. The layout of the carve-out agrees
with that of all who own one. -/
theorem Safe.reserveBuffers {state : State} (safe : Safe state) {id : Nat} {config : Config}
    (core : state.cores id = Core.fresh config) (before : id < state.born)
    (layout : ∀ other, (state.cores other).config.submesh = config.submesh →
      Owned state other .serverL1 → state.sharedServerL1 config.submesh = config.workerGroups) :
    Safe (reserve state id) := by
  have agreed : Safe { state with
      sharedServerL1 := update state.sharedServerL1 config.submesh config.workerGroups } :=
    { safe with
      carveOut := fun other owned => by
        have kept := safe.carveOut other owned
        by_cases same : (state.cores other).config.submesh = config.submesh
        · rw [same] at kept ⊢
          exact (update_self ..).trans ((layout other same owned).symm.trans kept)
        · exact (update_of_ne same ..).trans kept }
  have fits := fresh_fits state.services config
  have reserved : reserve state id = { state with
      cores := update state.cores id { Core.fresh config with place := reservedPlace config }
      sharedServerL1 := update state.sharedServerL1 config.submesh config.workerGroups } := by
    simp only [reserve, State.onCore, core]
    rfl
  have submesh : (Core.fresh config).place .submesh = .members := rfl
  rw [reserved]
  refine agreed.replace before _ state.activeSlots state.failedTeardown ?_ ?_ ?_ ?_ ?_ ?_ ?_ ?_
  · rw [core]
    exact ⟨rfl, rfl, rfl, rfl⟩
  · exact { fits with
      uniform := fun resource => by
        have uniform := fits.uniform resource
        simp only [reservedPlace]
        grind
      used := fun _ resource apart uses => by
        have uses' : config.uses resource = true := uses
        have listed : reservedPlace config resource = .members := by
          unfold reservedPlace
          grind
        exact fun gone => (by cases listed.symm.trans gone)
      unshared := fun join => absurd rfl join
      loaded := fun impossible => by cases impossible }
  · exact fun impossible => by cases impossible
  · intro service refers
    rcases refers with impossible | impossible <;> cases impossible
  · intro _
    rw [core]
    exact Or.inl rfl
  · exact Or.inr (Or.inr (Or.inr (Or.inr (update_self ..))))
  · intro other claims
    apply safe.slots other
    by_cases at_ : other = id
    · rw [at_, core]
      exact Or.inl rfl
    · rwa [update_of_ne at_] at claims
  · obtain ⟨contents, represents, nodes⟩ := safe.listed
    refine ⟨contents, represents, fun other => (nodes other).trans ?_⟩
    by_cases at_ : other = id
    · subst at_
      rw [update_self, core]
      rfl
    · rw [update_of_ne at_]

/-- A core that is not launched takes a reference to the service of its submesh. -/
theorem Safe.refer {state : State} (safe : Safe state) {id service : Nat} {config : Config}
    {place : Resource → Place} (core : state.cores id = Core.building config place none none)
    (alive : place .submesh = .members) (found : state.muxRegistry config.submesh = some service)
    (known : Referenced state service ∨ ∀ other, (state.cores other).joined ≠ some service) :
    Safe (state.onCore id fun core => { core with service := some service }) := by
  have before := safe.before (by rw [core]; exact alive)
  have fits := safe.cores id
  have registry := safe.registry config.submesh service found
  have cores : ∀ other, (state.onCore id fun core => { core with service := some service }).cores
      other = if other = id then { state.cores id with service := some service }
        else state.cores other := fun other => update_apply ..
  have same : ∀ {α : Type} (field : Core → α),
      (∀ core : Core, field { core with service := some service } = field core) →
      ∀ other, field ((state.onCore id fun core => { core with service := some service }).cores
        other) = field (state.cores other) := by
    intro α field kept other
    rw [cores]
    split
    · rename_i at_
      rw [at_]
      exact kept _
    · rfl
  have config' := same Core.config fun _ => rfl
  have place' := same Core.place fun _ => rfl
  have joined := same Core.joined fun _ => rfl
  have referenced : ∀ other, Referenced (state.onCore id fun core =>
      { core with service := some service }) other → other = service ∨ Referenced state other := by
    rintro other ⟨held, beforeHeld, refers⟩
    rw [cores] at refers
    split at refers
    · rcases refers with refers | refers
      · exact Or.inl (Option.some.inj refers).symm
      · exact Or.inr ⟨id, before, Or.inr refers⟩
    · exact Or.inr ⟨held, beforeHeld, refers⟩
  refine ⟨fun other beyond => ?_, fun other within => ?_, fun other => ?_, fun other => ?_, ?_, ?_, ?_,
    ?_, safe.registry, ?_, ?_⟩
  · have apart : other ≠ id := fun equal => absurd before (Nat.not_lt.mpr (equal ▸ beyond))
    rw [cores, if_neg apart]
    exact safe.unborn other beyond
  · rw [place']
    exact safe.born other within
  · rw [cores]
    split
    · exact { fits with
        living := fun members => by
          have living := fits.living members
          refine ⟨living.1, living.2.1, Or.inl ?_⟩
          rw [core]
          rfl
        held := fun node => by
          rw [core] at node
          exact nomatch alive.symm.trans node
        resting := fun away => by
          rw [core] at away
          exact absurd alive away }
    · exact safe.cores other
  · exact (safe.services other).congr joined (same Core.terminationSignalled fun _ => rfl)
      (same Core.terminateReturned fun _ => rfl)
  · intro other another held
    rw [joined, cores] at held
    rcases held with held | held | held
    · exact safe.created other another (Or.inl held)
    · split at held
      · obtain rfl := Option.some.inj held
        exact registry.2
      · exact safe.created other another (Or.inr (Or.inl held))
    · split at held
      · exact safe.created id another (Or.inr (Or.inr held))
      · exact safe.created other another (Or.inr (Or.inr held))
  · intro other claims
    unfold Core.claims at claims
    rw [place'] at claims
    rw [config']
    exact safe.slots other claims
  · intro other another claims claimsToo slot
    unfold Core.claims at claims claimsToo
    rw [place'] at claims claimsToo
    rw [config', config'] at slot
    exact safe.apart other another claims claimsToo slot
  · intro other held
    rcases referenced other held with rfl | before
    · have mux : state.muxRegistry (state.services other).submesh = some other := by
        rw [registry.1]
        exact found
      exact mux
    · exact safe.registered other before
  · intro other owned
    rw [config']
    apply safe.carveOut other
    unfold Owned at owned ⊢
    rw [place'] at owned
    cases placed : (state.cores other).place .serverL1 with
    | absent => rw [placed] at owned; exact owned
    | freed => rw [placed] at owned; exact owned
    | members => trivial
    | node => trivial
    | retired another =>
      rw [placed] at owned
      rcases referenced another owned with rfl | before
      · rcases known with known | unknown
        · exact known
        · have uniform := (safe.cores other).uniform .serverL1
          rw [placed] at uniform
          have submesh : (state.cores other).place .submesh = .retired another := by
            grind
          exact absurd ((safe.cores other).retired another submesh) (unknown other)
      · exact before
  · simp only [place']
    exact safe.listed

/-- Making a service for a submesh whose former service nobody refers to. -/
theorem Safe.makeService {state : State} (safe : Safe state) (config : Config)
    (unreferenced : ∀ service, state.muxRegistry config.submesh = some service →
      ¬ Referenced state service) :
    Safe { state with
      services := update state.services state.created (.fresh config.submesh config.shards)
      created := state.created + 1
      muxRegistry := update state.muxRegistry config.submesh (some state.created) } := by
  have unknown : ∀ id, (state.cores id).joined ≠ some state.created := fun id join =>
    absurd (safe.created id state.created (Or.inl join)) (Nat.lt_irrefl _)
  have elsewhere : ∀ service, Referenced state service → service ≠ state.created := by
    rintro service ⟨id, -, refers⟩ rfl
    exact absurd (safe.created id state.created (Or.inr refers)) (Nat.lt_irrefl _)
  refine ⟨safe.unborn, safe.born, fun id => ?_, fun service => ?_, ?_, safe.slots, safe.apart, ?_,
    ?_, safe.carveOut, safe.listed⟩
  · have fits := safe.cores id
    have same : ∀ service, (state.cores id).joined = some service →
        update state.services state.created (.fresh config.submesh config.shards) service =
          state.services service := fun service join =>
      update_of_ne (fun equal : service = state.created => unknown id (equal ▸ join)) ..
    exact { fits with
      shares := fun service join => by
        simpa only [same service join] using fits.shares service join
      gathers := fun service join => by
        simpa only [same service join] using fits.gathers service join
      joins := fun service join => by
        simpa only [same service join] using fits.joins service join }
  · by_cases at_ : service = state.created
    · subst at_
      simp only [update_self]
      refine ⟨fun _ => ⟨rfl, rfl, .nil, fun shard => ⟨nofun, fun join => ?_⟩⟩, nofun, nofun⟩
      exact absurd join (unknown shard)
    · simp only [update_of_ne at_]
      exact safe.services service
  · exact fun id service held => Nat.lt_succ_of_lt (safe.created id service held)
  · intro service referenced
    have registered := safe.registered service referenced
    have apart : (state.services service).submesh ≠ config.submesh := fun same =>
      unreferenced service (same ▸ registered) referenced
    simp only [update_of_ne (elsewhere service referenced)]
    exact (update_of_ne apart ..).trans registered
  · intro submesh service found
    by_cases at_ : submesh = config.submesh
    · subst at_
      simp only [update_self, Option.some.injEq] at found
      subst found
      simp only [update_self]
      exact ⟨rfl, Nat.lt_succ_self _⟩
    · simp only [update_of_ne at_] at found
      obtain ⟨same, before⟩ := safe.registry submesh service found
      refine ⟨?_, Nat.lt_succ_of_lt before⟩
      simp only [update_of_ne (Nat.ne_of_lt before)]
      exact same

/-- Appending a shard to a program that gathers. -/
theorem Safe.append {state : State} (safe : Safe state) {id service : Nat} {config : Config}
    {place : Resource → Place}
    (core : state.cores id = Core.building config place (some service) none)
    (alive : place .submesh = .members) (shares : config.sharesProgram = true)
    (unloaded : place .workload = .absent) (reserved : place .serverL1 ≠ .absent)
    (submesh : (state.services service).submesh = config.submesh)
    (shardCount : (state.services service).shardCount = config.shards)
    (gathering : (state.services service).phase = .gathering) :
    Safe ((state.onCore id fun core => { core with joined := some service }).onService service
      fun shared => { shared with servers := shared.servers ++ [id] }) := by
  have before := safe.before (by rw [core]; exact alive)
  have fits := safe.cores id
  obtain ⟨launched, count, nodup, lists⟩ := (safe.services service).gathers gathering
  have phase : Service.phase { state.services service with
      servers := (state.services service).servers ++ [id] } = .gathering :=
    Service.phase_gathering.mpr (Service.phase_gathering.mp gathering)
  have outside : id ∉ (state.services service).servers := fun inside => by
    have join := (lists id).mp inside
    rw [core] at join
    exact nomatch join
  have own : update state.cores id { state.cores id with joined := some service } id =
      Core.building config place (some service) (some service) := by
    rw [update_self, core]
    rfl
  have others : ∀ other, other ≠ id →
      update state.cores id { state.cores id with joined := some service } other =
        state.cores other := fun other apart => update_of_ne apart ..
  apply safe.onShared (update state.cores id { state.cores id with joined := some service })
  · intro other
    by_cases at_ : other = id
    · subst at_
      rw [own, core]
      refine ⟨rfl, rfl, rfl, Or.inl rfl, Or.inr rfl, fun unborn => ?_⟩
      have absent := congrFun (congrArg Core.place unborn) .submesh
      exact nomatch alive.symm.trans absent
    · rw [others other at_]
      exact .refl _
  · intro other
    by_cases at_ : other = id
    · subst at_
      rw [core] at fits
      rw [own]
      have joined : Core.Fits (update state.services service { state.services service with
          servers := (state.services service).servers ++ [other] })
          (Core.building config place (some service) none) := by
        apply fits.onService
        · rfl
        · rfl
        · exact nofun
        · exact nofun
      exact { joined with
        uniform := fun resource => by
          rcases joined.uniform resource with absent | same | ⟨at_, freed, -, -⟩
          · exact Or.inl absent
          · exact Or.inr (Or.inl same)
          · rw [at_] at freed
            exact nomatch unloaded.symm.trans freed
        used := fun _ => joined.used (Or.inl reserved)
        unshared := fun _ => unloaded
        living := fun members => by
          have living := joined.living members
          exact ⟨living.1, living.2.1, Or.inr rfl⟩
        held := fun node => (nomatch alive.symm.trans node)
        retired := fun another retired => (nomatch alive.symm.trans retired)
        runs := nofun
        shares := fun another join => by
          obtain rfl : service = another := Option.some.inj join
          rw [update_self]
          exact ⟨shares, submesh.symm, shardCount.symm⟩
        gathers := fun _ _ _ => ⟨rfl, rfl, rfl⟩
        joins := fun another join running => by
          obtain rfl : service = another := Option.some.inj join
          rw [update_self] at running
          exact nomatch phase.symm.trans running }
    · rw [others other at_]
      apply (safe.cores other).onService
      · rfl
      · rfl
      · exact fun join _ => (safe.cores other).gathers service join gathering
      · exact fun _ running => (nomatch phase.symm.trans running)
  · rfl
  · refine ⟨fun _ => ⟨launched, count, ?_, fun shard => ?_⟩,
      fun running => (nomatch phase.symm.trans running),
      fun spent => (nomatch phase.symm.trans spent)⟩
    · have extended : ((state.services service).servers ++ [id]).Nodup := by
        simpa [List.nodup_append, nodup] using fun shard inside (same : shard = id) =>
          outside (same ▸ inside)
      exact extended
    · have member : shard ∈ (state.services service).servers ++ [id] ↔
          shard ∈ (state.services service).servers ∨ shard = id := by
        simp
      refine member.trans ?_
      by_cases at_ : shard = id
      · subst at_
        rw [own]
        exact ⟨fun _ => rfl, fun _ => Or.inr rfl⟩
      · rw [others shard at_, ← lists shard]
        exact or_iff_left at_
  · intro other apart
    have joins : ∀ shard, (update state.cores id { state.cores id with joined := some service }
        shard).joined = some other ↔ (state.cores shard).joined = some other := by
      intro shard
      by_cases at_ : shard = id
      · subst at_
        rw [own, core]
        exact ⟨fun join => absurd (Option.some.inj join).symm apart, nofun⟩
      · rw [others shard at_]
    have lists : ∀ shared : Service, shared.Lists (update state.cores id
        { state.cores id with joined := some service }) other ↔ shared.Lists state.cores other := by
      intro shared
      simp only [Service.Lists, joins]
    have signals : ∀ shard, (update state.cores id { state.cores id with joined := some service }
        shard).terminationSignalled = (state.cores shard).terminationSignalled := by
      intro shard
      by_cases at_ : shard = id
      · subst at_
        rw [own, core]
        rfl
      · rw [others shard at_]
    have returns : ∀ shard, (update state.cores id { state.cores id with joined := some service }
        shard).terminateReturned = (state.cores shard).terminateReturned := by
      intro shard
      by_cases at_ : shard = id
      · subst at_
        rw [own, core]
        rfl
      · rw [others shard at_]
    have served := safe.services other
    exact ⟨by simpa only [lists] using served.gathers,
      by simpa only [lists, signals, returns] using served.runs, served.spent⟩
  · intro other another join
    by_cases at_ : other = id
    · subst at_
      rw [own] at join
      obtain rfl : service = another := Option.some.inj join
      exact safe.created other service (Or.inr (Or.inl (by rw [core]; rfl)))
    · rw [others other at_] at join
      exact safe.created other another (Or.inl join)

/-- The last shard compiles the program. -/
theorem Safe.compile {state : State} (safe : Safe state) {service : Nat}
    (gathering : (state.services service).phase = .gathering) :
    Safe (state.onService service fun shared =>
      { shared with workload := true, prepared := true }) := by
  have phase : Service.phase { state.services service with workload := true, prepared := true } =
      .gathering := by
    have before := Service.phase_gathering.mp gathering
    exact Service.phase_gathering.mpr ⟨before.1, before.2.1, fun _ => rfl⟩
  apply safe.onShared state.cores
  · exact fun id => .refl _
  · intro id
    apply (safe.cores id).onService
    · rfl
    · rfl
    · exact fun join _ => (safe.cores id).gathers service join gathering
    · exact fun _ running => (nomatch phase.symm.trans running)
  · rfl
  · exact ⟨fun _ => (safe.services service).gathers gathering,
      fun running => (nomatch phase.symm.trans running),
      fun spent => (nomatch phase.symm.trans spent)⟩
  · exact fun other _ => safe.services other
  · exact fun id other join => safe.created id other (Or.inl join)

/-! ## The constructor throws -/

/-- What is left of a core whose constructor threw. -/
theorem unwind_core (state : State) (id : Nat) :
    (unwind state id).born = state.born ∧ (unwind state id).services = state.services ∧
      (∀ other, other ≠ id → (unwind state id).cores other = state.cores other) ∧
      ((unwind state id).cores id).destroyed = true ∧
      ((unwind state id).cores id).place .submesh ≠ .members := by
  have destructs : ∀ state : State, (destructMembers state id).born = state.born ∧
      (destructMembers state id).services = state.services ∧
      (∀ other, other ≠ id → (destructMembers state id).cores other = state.cores other) ∧
      ((destructMembers state id).cores id).destroyed = true ∧
      ((destructMembers state id).cores id).place .submesh ≠ .members := by
    intro state
    refine ⟨rfl, rfl, fun other apart => update_of_ne apart .., ?_, ?_⟩
    all_goals simp only [destructMembers, State.onCore, update_self]
    rw [place_move]
    have listed := mem_quarantinedFields .submesh
    grind
  unfold unwind
  simp only
  split
  · obtain ⟨born, services, others, -, -⟩ := quarantine_core state id
    obtain ⟨bornLast, servicesLast, othersLast, rest⟩ := destructs (quarantine state id)
    exact ⟨bornLast.trans born, servicesLast.trans services,
      fun other apart => (othersLast other apart).trans (others other apart), rest⟩
  · exact destructs (eraseSlot state (state.cores id).config.slot)

/-- A core that is alive and that launched nothing is freed with its slot. -/
theorem Safe.unwind {state : State} (safe : Safe state) {id : Nat} (before : id < state.born)
    (alive : (state.cores id).launchMayHaveStarted = false →
      (state.cores id).place .submesh = .members) : Safe (RuntimeCore.unwind state id) := by
  unfold RuntimeCore.unwind
  simp only
  split
  · obtain ⟨born, -, -, -, dead⟩ := quarantine_core state id
    exact (safe.quarantine before).destruct (born ▸ before) dead
  rename_i started
  have unstarted : (state.cores id).launchMayHaveStarted = false := by simpa using started
  have members := alive unstarted
  have fits := safe.cores id
  have idle : (state.cores id).running = false := by
    cases running : (state.cores id).running with
    | false => rfl
    | true => exact absurd (fits.runs running).1 started
  have place : ∀ resource, ((state.cores id).move quarantinedFields .freed).place resource =
      if (state.cores id).place resource = .members then .freed
      else (state.cores id).place resource := by
    intro resource
    simp only [place_move, mem_quarantinedFields, true_and]
  have freed : ((state.cores id).move quarantinedFields .freed).place .submesh = .freed := by
    rw [place, if_pos members]
  refine safe.replace before
    { (state.cores id).move quarantinedFields .freed with service := none, destroyed := true }
    (update state.activeSlots (state.cores id).config.slot false) state.failedTeardown
    ⟨rfl, rfl, rfl, rfl⟩ ?_ ?_ ?_ ?_ ?_ ?_ ?_
  · exact { fits with
      uniform := fun resource => by
        have uniform := fits.uniform resource
        simp only [freed]
        change (Core.move _ _ _).place resource = _ ∨ (Core.move _ _ _).place resource = _ ∨
          _ ∧ (Core.move _ _ _).place resource = _ ∧ (state.cores id).running = false ∧
            (state.cores id).joined = none
        rw [place]
        grind
      used := fun used resource apart uses => by
        change _ ≠ _ ∨ _ ≠ _ ∨ (state.cores id).joined ≠ none at used
        simp only [place] at used ⊢
        have kept := fits.used (by grind) resource apart uses
        grind
      unshared := fun join => by
        have absent := fits.unshared join
        simp only [place, absent]
        exact if_neg nofun
      loaded := fun run => absurd (idle ▸ run) nofun
      living := fun again => (nomatch freed.symm.trans again)
      held := fun again => (nomatch freed.symm.trans again)
      resting := fun _ _ => ⟨rfl, (fits.living members).2.1⟩
      settled := fun _ _ => Or.inl rfl
      retired := fun service again => (nomatch freed.symm.trans again)
      runs := fun run => absurd (idle ▸ run) nofun
      joins := fun service join running => absurd (fits.joins service join running).1 started }
  · simp only [freed]
    exact nofun
  · intro service refers
    rcases refers with refers | refers
    · exact nomatch refers
    · exact Or.inr refers
  · exact fun _ => Or.inl members
  · have uniform := fits.uniform .serverL1
    simp only [place]
    grind
  · intro other claims
    by_cases at_ : other = id
    · subst at_
      rw [update_self] at claims
      unfold Core.claims at claims
      simp only [freed] at claims
      exact absurd claims (by simp)
    · rw [update_of_ne at_] at claims
      rw [update_of_ne]
      · exact safe.slots other claims
      · exact fun slot => at_ (safe.apart other id claims (Or.inl members) slot)
  · obtain ⟨contents, represents, nodes⟩ := safe.listed
    refine ⟨contents, represents, fun other => (nodes other).trans ?_⟩
    by_cases at_ : other = id
    · subst at_
      simp only [update_self, freed, members]
      simp
    · rw [update_of_ne at_]

/-- A constructor that throws leaves the others steady. -/
theorem Safe.unwinds {state : State} (safe : Safe state) {id : Nat} (before : id < state.born)
    (alive : (state.cores id).launchMayHaveStarted = false →
      (state.cores id).place .submesh = .members)
    (steady : ∀ other, other ≠ id → (state.cores other).Steady state.services) :
    Holds (RuntimeCore.unwind state id) := by
  obtain ⟨-, services, others, destroyed, dead⟩ := unwind_core state id
  refine ⟨safe.unwind before alive, fun other => ?_⟩
  rw [services]
  by_cases at_ : other = id
  · subst at_
    exact Core.steady_dead destroyed dead
  · rw [others other at_]
    exact steady other at_

/-! ## The constructor -/

/-- A state in which a constructor is at work on a core of its own. -/
structure Building (state mid : State) (config : Config) (place : Resource → Place)
    (service joined : Option Nat) : Prop where
  safe : Safe mid
  born : mid.born = state.born + 1
  core : mid.cores state.born = Core.building config place service joined
  alive : place .submesh = .members
  others : ∀ other, other ≠ state.born → mid.cores other = state.cores other
  services : ServicesKeep state.services mid.services

theorem Building.before {state mid : State} {config : Config} {place : Resource → Place}
    {service joined : Option Nat} (building : Building state mid config place service joined) :
    state.born < mid.born := by
  rw [building.born]
  exact Nat.lt_succ_self _

theorem Building.steady {state mid : State} {config : Config} {place : Resource → Place}
    {service joined : Option Nat} (building : Building state mid config place service joined)
    (holds : Holds state) (other : Nat) (apart : other ≠ state.born) :
    (mid.cores other).Steady mid.services := by
  rw [building.others other apart]
  exact (holds.steady other).stays (Or.inl (.refl _)) building.services

/-- A constructor that throws before the launch. -/
theorem Building.unwinds {state mid : State} {config : Config} {place : Resource → Place}
    {service joined : Option Nat} (building : Building state mid config place service joined)
    (holds : Holds state) : Holds (unwind mid state.born) := by
  apply building.safe.unwinds building.before
  · intro _
    rw [building.core]
    exact building.alive
  · exact building.steady holds

/-- Claiming the slot and reserving the buffers. -/
theorem Safe.reserves {state : State} (safe : Safe state) (config : Config)
    (vacant : state.activeSlots config.slot = false) :
    Building state (claim state config) config (Core.fresh config).place none none ∧
      (¬ LayoutDiffers state config →
        Building state (reserve (claim state config) state.born) config (reservedPlace config)
          none none) := by
  have claimed : Building state (claim state config) config (Core.fresh config).place none none :=
    ⟨safe.claimSlot config vacant, rfl, update_self .., rfl, fun other apart => update_of_ne apart ..,
      .refl _⟩
  refine ⟨claimed, fun agrees => ?_⟩
  have fresh : (claim state config).cores state.born = Core.fresh config := update_self ..
  have unborn := safe.unborn state.born (Nat.le_refl _)
  have referenced : ∀ service, Referenced (claim state config) service →
      Referenced state service := by
    rintro service ⟨id, before, refers⟩
    by_cases at_ : id = state.born
    · rw [at_, fresh] at refers
      simp [Core.fresh] at refers
    · rw [claimed.others id at_] at refers
      exact ⟨id, Nat.lt_of_le_of_ne (Nat.lt_succ_iff.mp before) at_, refers⟩
  refine ⟨claimed.safe.reserveBuffers fresh claimed.before fun other same owned => ?_, rfl, ?_, ?_,
    fun other apart => ?_, .refl _⟩
  · by_contra differs
    apply agrees
    have elsewhere : other ≠ state.born := by
      rintro rfl
      unfold Owned at owned
      rw [fresh] at owned
      exact owned.elim
    unfold Owned at owned
    rw [claimed.others other elsewhere] at same owned
    have within : other < state.born := by
      by_contra beyond
      rw [safe.unborn other (Nat.not_lt.mp beyond)] at owned
      exact owned.elim
    exact ⟨differs, other, within, same, owned.mono referenced⟩
  · simp only [reserve, State.onCore, fresh, update_self]
    rfl
  · rfl
  · simp only [reserve, State.onCore, update_of_ne apart]
    exact claimed.others other apart

/-- The shared program that a shard of a submesh would complete. -/
def Completes (state : State) (config : Config) (service : Nat) : Prop :=
  state.muxRegistry config.submesh = some service ∧ Referenced state service ∧
    (state.services service).servers.length + 1 = (state.services service).shardCount

instance (state : State) (config : Config) (service : Nat) :
    Decidable (Completes state config service) :=
  inferInstanceAs (Decidable (_ ∧ _ ∧ _))

/-- What the preparation of a program leaves. -/
structure Prepared (state after : State) (config : Config) (threw : Bool) : Prop where
  builds : ∃ place service joined, Building state after config place service joined ∧
    (threw = false → joined = service ∧
      ∀ shared, service = some shared → (after.services shared).running = false ∧
        (Launchable (after.services shared) →
          (∀ shared, Completes state config shared → Whole state shared) → Whole after shared))

/-- A preparation that threw. -/
theorem Building.threw {state mid : State} {config : Config} {place : Resource → Place}
    {service joined : Option Nat} (building : Building state mid config place service joined) :
    Prepared state mid config true :=
  ⟨place, service, joined, building, nofun⟩

/-- Spoiling a service while a constructor is at work. -/
theorem Building.spend {state mid : State} {config : Config} {place : Resource → Place}
    {referred joined : Option Nat} (building : Building state mid config place referred joined)
    (service : Nat) (change : Service → Service)
    (spent : (change (mid.services service)).phase = .spent)
    (launched : (change (mid.services service)).launched = false)
    (submesh : (change (mid.services service)).submesh = (mid.services service).submesh)
    (shardCount : (change (mid.services service)).shardCount = (mid.services service).shardCount) :
    Building state (mid.onService service change) config place referred joined := by
  refine { building with
    safe := building.safe.spend service change spent launched submesh shardCount
    services := fun other running => ?_ }
  by_cases at_ : other = service
  · subst at_
    simp only [State.onService, update_self] at running
    cases (Service.phase_spent.mp spent).1.symm.trans running
  · simp only [State.onService, update_of_ne at_] at running ⊢
    exact building.services other running

/-- Appending a shard to the shared program. -/
theorem Building.appendShard {state mid : State} {config : Config} {service : Nat}
    (building : Building state mid config (reservedPlace config) (some service) none)
    (shares : config.sharesProgram = true)
    (submesh : (mid.services service).submesh = config.submesh)
    (existing : (mid.services service).servers ≠ [] →
      state.muxRegistry config.submesh = some service ∧ Referenced state service ∧
        state.services service = mid.services service) (failure : Option Failure) :
    Prepared state (appendShard mid state.born service failure).1 config
      (appendShard mid state.born service failure).2 := by
  unfold RuntimeCore.appendShard
  simp only
  split
  · exact building.threw
  rename_i accepts
  rw [building.core] at accepts
  have open_ : (mid.services service).shardCount = config.shards ∧
      (mid.services service).preparationFailed = false ∧
      (mid.services service).prepared = false ∧ (mid.services service).launched = false := by
    change ¬(_ ≠ config.shards ∨ _) at accepts
    grind
  obtain ⟨shardCount, unfailed, unprepared, unlaunched⟩ := open_
  have gathering : (mid.services service).phase = .gathering := by
    cases phase : (mid.services service).phase with
    | gathering => rfl
    | running =>
      have prepared := ((building.safe.services service).runs phase).1
      exact nomatch unprepared.symm.trans prepared
    | spent =>
      rcases (Service.phase_spent.mp phase).2 with failed | prepared
      · exact nomatch unfailed.symm.trans failed
      · exact nomatch unprepared.symm.trans prepared.1
  have idle := (Service.phase_gathering.mp gathering).1
  split
  · exact (building.spend service failPreparation (Service.phase_spent.mpr ⟨idle, Or.inl rfl⟩)
      unlaunched rfl rfl).threw
  have reserved : reservedPlace config .workload = .absent := if_neg fun all => all.2.1 rfl
  have carved : reservedPlace config .serverL1 ≠ .absent := by
    unfold reservedPlace Config.uses
    simp
  have safe := building.safe.append building.core building.alive shares reserved carved submesh
    shardCount gathering
  have joined : Building state ((mid.onCore state.born fun core =>
      { core with joined := some service }).onService service fun shared =>
        { shared with servers := shared.servers ++ [state.born] }) config (reservedPlace config)
      (some service) (some service) := by
    refine ⟨safe, building.born, ?_, building.alive, fun other apart => ?_, fun other running => ?_⟩
    · simp only [State.onService, State.onCore, update_self, building.core]
      rfl
    · simp only [State.onService, State.onCore, update_of_ne apart]
      exact building.others other apart
    · by_cases at_ : other = service
      · subst at_
        simp only [State.onService, State.onCore, update_self] at running
        exact nomatch idle.symm.trans running
      · simp only [State.onService, State.onCore, update_of_ne at_] at running ⊢
        exact building.services other running
  have services : ((mid.onCore state.born fun core =>
      { core with joined := some service }).onService service fun shared =>
        { shared with servers := shared.servers ++ [state.born] }).services service =
      { mid.services service with servers := (mid.services service).servers ++ [state.born] } := by
    simp only [State.onService, State.onCore, update_self]
  have cores : ∀ other, other ≠ state.born → ((mid.onCore state.born fun core =>
      { core with joined := some service }).onService service fun shared =>
        { shared with servers := shared.servers ++ [state.born] }).cores other =
      state.cores other := joined.others
  generalize (mid.onCore state.born fun core =>
      { core with joined := some service }).onService service (fun shared =>
        { shared with servers := shared.servers ++ [state.born] }) = appended at *
  have gathers : (appended.services service).phase = .gathering := by
    rw [services]
    exact Service.phase_gathering.mpr (Service.phase_gathering.mp gathering)
  have idleNow := (Service.phase_gathering.mp gathers).1
  have launchedNow : (appended.services service).launched = false := by
    rw [services]
    exact unlaunched
  split
  · refine ⟨_, _, _, joined, fun _ => ⟨rfl, fun shared same => ?_⟩⟩
    obtain rfl := Option.some.inj same
    refine ⟨idleNow, fun launchable => ?_⟩
    rw [services] at launchable
    exact nomatch unprepared.symm.trans launchable.1
  split
  · exact (joined.spend service failPreparation (Service.phase_spent.mpr ⟨idleNow, Or.inl rfl⟩)
      launchedNow rfl rfl).threw
  rename_i incomplete mismatched
  split
  · exact (joined.spend service
      (fun shared => { shared with
        preparationFailed := true, servers := shared.servers.erase state.born })
      (Service.phase_spent.mpr ⟨idleNow, Or.inl rfl⟩) launchedNow rfl rfl).threw
  · have compiled := joined.safe.compile gathers
    refine ⟨_, _, _, { joined with
      safe := compiled
      services := fun other running => ?_ }, fun _ => ⟨rfl, fun shared same => ?_⟩⟩
    · by_cases at_ : other = service
      · subst at_
        simp only [State.onService, update_self] at running
        exact nomatch idleNow.symm.trans running
      · simp only [State.onService, update_of_ne at_] at running ⊢
        exact joined.services other running
    · obtain rfl := Option.some.inj same
      have now : (appended.onService service fun shared =>
          { shared with workload := true, prepared := true }).services service =
          { appended.services service with workload := true, prepared := true } := update_self ..
      rw [now]
      refine ⟨idleNow, fun _ whole shard inside => ?_⟩
      rw [now, services, List.mem_append, List.mem_singleton] at inside
      change (appended.cores shard).alive = true
      rw [Core.alive_iff]
      rcases inside with before | rfl
      · obtain ⟨registered, referenced, kept⟩ := existing (List.ne_nil_of_mem before)
        have completes : Completes state config service := by
          refine ⟨registered, referenced, ?_⟩
          rw [kept]
          omega
        have alive := whole service completes shard (kept ▸ before)
        by_cases at_ : shard = state.born
        · rw [at_, joined.core]
          exact joined.alive
        · rw [cores shard at_]
          exact Core.alive_iff.mp alive
      · rw [joined.core]
        exact joined.alive

/-- Taking a reference to a service while a constructor is at work. -/
theorem Building.refer {state mid : State} {config : Config} {place : Resource → Place}
    {service : Nat} (building : Building state mid config place none none)
    (found : mid.muxRegistry config.submesh = some service)
    (known : Referenced mid service ∨ ∀ other, (mid.cores other).joined ≠ some service) :
    Building state (mid.onCore state.born fun core => { core with service := some service }) config
      place (some service) none := by
  refine ⟨building.safe.refer building.core building.alive found known, building.born, ?_,
    building.alive, fun other apart => ?_, building.services⟩
  · simp only [State.onCore, update_self, building.core]
    rfl
  · simp only [State.onCore, update_of_ne apart]
    exact building.others other apart

/-- What a constructor refers to before it joins is what was referred to. -/
theorem Building.referenced {state mid : State} {config : Config} {place : Resource → Place}
    (building : Building state mid config place none none) {service : Nat}
    (held : Referenced mid service) : Referenced state service := by
  obtain ⟨id, before, refers⟩ := held
  by_cases at_ : id = state.born
  · rw [at_, building.core] at refers
    simp [Core.building, Core.fresh] at refers
  · rw [building.others id at_] at refers
    rw [building.born] at before
    exact ⟨id, Nat.lt_of_le_of_ne (Nat.lt_succ_iff.mp before) at_, refers⟩

/-- Preparing the program of a core that has reserved its buffers. -/
theorem Building.prepareServerKernel {state mid : State} {config : Config}
    (building : Building state mid config (reservedPlace config) none none)
    (services : mid.services = state.services) (registry : mid.muxRegistry = state.muxRegistry)
    (failure : Option Failure) :
    Prepared state (RuntimeCore.prepareServerKernel mid state.born failure).1 config
      (RuntimeCore.prepareServerKernel mid state.born failure).2 := by
  have config' : (mid.cores state.born).config = config := by
    rw [building.core]
    rfl
  unfold RuntimeCore.prepareServerKernel
  simp only [config']
  split
  · rename_i shares
    have made : (∀ service, mid.muxRegistry config.submesh = some service →
        ¬ Referenced mid service) → lockService.makeService mid config failure = none ∨
        ∃ next service, lockService.makeService mid config failure = some (next, service) ∧
          Building state (next.onCore state.born fun core => { core with service := some service })
            config (reservedPlace config) (some service) none ∧
          (next.services service).submesh = config.submesh ∧
          (next.services service).servers = [] := by
      intro unreferenced
      unfold lockService.makeService
      split
      · exact Or.inl rfl
      refine Or.inr ⟨_, _, rfl, ?_, ?_, ?_⟩
      · have safe := building.safe.makeService config unreferenced
        have next : Building state { mid with
            services := update mid.services mid.created (.fresh config.submesh config.shards)
            created := mid.created + 1
            muxRegistry := update mid.muxRegistry config.submesh (some mid.created) } config
            (reservedPlace config) none none := by
          refine ⟨safe, building.born, building.core, building.alive, building.others,
            fun other running => ?_⟩
          by_cases at_ : other = mid.created
          · subst at_
            simp only [update_self] at running
            exact nomatch running
          · simp only [update_of_ne at_] at running ⊢
            exact building.services other running
        apply next.refer (update_self ..)
        exact Or.inr fun other join =>
          absurd (building.safe.created other mid.created (Or.inl join)) (Nat.lt_irrefl _)
      · simp only [update_self]
        rfl
      · simp only [update_self]
        rfl
    have appends : ∀ (next : State) (service : Nat),
        Building state (next.onCore state.born fun core => { core with service := some service })
          config (reservedPlace config) (some service) none →
        (next.services service).submesh = config.submesh →
        ((next.services service).servers ≠ [] →
          state.muxRegistry config.submesh = some service ∧ Referenced state service ∧
            state.services service = next.services service) →
        Prepared state (RuntimeCore.appendShard (next.onCore state.born fun core =>
            { core with service := some service }) state.born service failure).1 config
          (RuntimeCore.appendShard (next.onCore state.born fun core =>
            { core with service := some service }) state.born service failure).2 :=
      fun next service referring submesh existing =>
        referring.appendShard shares submesh existing failure
    unfold lockService
    cases found : mid.muxRegistry config.submesh with
    | none =>
      simp only
      rcases made (by rw [found]; exact nofun) with failed | ⟨next, service, making, builds, submesh, empty⟩
      · rw [failed]
        exact building.threw
      · rw [making]
        exact appends next service builds submesh fun some_ => absurd empty some_
    | some service =>
      simp only
      by_cases referenced : Referenced mid service
      · rw [if_pos referenced]
        apply appends mid service (building.refer found (Or.inl referenced))
        · exact (building.safe.registry config.submesh service found).1
        · exact fun _ => ⟨registry ▸ found, building.referenced referenced,
            congrFun services.symm service⟩
      · rw [if_neg referenced]
        have former : ∀ other, mid.muxRegistry config.submesh = some other →
            ¬ Referenced mid other := by
          intro other same
          obtain rfl : service = other := Option.some.inj (found.symm.trans same)
          exact referenced
        rcases made former with failed | ⟨next, service, making, builds, submesh, empty⟩
        · rw [failed]
          exact building.threw
        · rw [making]
          exact appends next service builds submesh fun some_ => absurd empty some_
  split
  · exact building.threw
  have before := building.before
  have fits := building.safe.cores state.born
  rw [building.core] at fits
  have loadedSubmesh : update (reservedPlace config) .workload .members .submesh = .members :=
    (update_of_ne (by decide) ..).trans building.alive
  have carved : reservedPlace config .serverL1 ≠ .absent := by
    unfold reservedPlace Config.uses
    simp
  have kept : update (reservedPlace config) .workload .members .serverL1 =
      reservedPlace config .serverL1 := update_of_ne (by decide) ..
  have loaded : Core.Fits mid.services (Core.building config
      (update (reservedPlace config) .workload .members) none none) :=
    { fits with
      uniform := fun resource => by
        simp only [Core.building, loadedSubmesh]
        by_cases at_ : resource = .workload
        · subst at_
          rw [update_self]
          exact Or.inr (Or.inl rfl)
        · rw [update_of_ne at_]
          have uniform := fits.uniform resource
          have submesh := building.alive
          exact uniform.imp_right fun same =>
            Or.inl ((same.resolve_right fun all => at_ all.1).trans submesh)
      used := fun _ resource apart uses => by
        have reserved := fits.used (Or.inl carved) resource apart uses
        simpa only [Core.building, update_of_ne apart] using reserved
      unshared := fun join => absurd rfl join
      loaded := nofun
      living := fun _ => fits.living building.alive
      held := fun node => (nomatch loadedSubmesh.symm.trans node)
      resting := fun away => absurd loadedSubmesh away
      settled := fun away => absurd loadedSubmesh away
      retired := fun service retired => (nomatch loadedSubmesh.symm.trans retired)
      runs := nofun
      joins := nofun }
  have own : (fun core : Core => { core with place := update core.place .workload .members })
      (mid.cores state.born) =
        Core.building config (update (reservedPlace config) .workload .members) none none := by
    rw [building.core]
    rfl
  refine ⟨⟨update (reservedPlace config) .workload .members, none, none, ?_,
    fun _ => ⟨rfl, nofun⟩⟩⟩
  refine ⟨?_, building.born, (update_self ..).trans own, loadedSubmesh,
    fun other apart => (update_of_ne apart ..).trans (building.others other apart),
    building.services⟩
  have replaced := building.safe.replace before (Core.building config
    (update (reservedPlace config) .workload .members) none none) mid.activeSlots
    mid.failedTeardown ?_ loaded ?_ ?_ ?_ ?_ ?_ ?_
  · rw [← own] at replaced
    exact replaced
  · rw [building.core]
    exact ⟨rfl, rfl, rfl, rfl⟩
  · exact fun absent => (nomatch loadedSubmesh.symm.trans absent)
  · exact nofun
  · intro _
    rw [building.core]
    exact Or.inl building.alive
  · refine Or.inr (Or.inr (Or.inr (Or.inl ?_)))
    rw [building.core]
    exact kept
  · intro other claims
    apply building.safe.slots other
    by_cases at_ : other = state.born
    · rw [at_, building.core]
      exact Or.inl building.alive
    · rwa [update_of_ne at_] at claims
  · obtain ⟨contents, represents, nodes⟩ := building.safe.listed
    refine ⟨contents, represents, fun other => (nodes other).trans ?_⟩
    by_cases at_ : other = state.born
    · subst at_
      rw [update_self, building.core]
      simp only [Core.building, loadedSubmesh, building.alive]
    · rw [update_of_ne at_]

/-- The constructor keeps the invariant, if the program that it may submit is whole.

Proof: where it throws, nothing but its own core was changed, or the launch quarantined
that core and every other shard of the program. -/
theorem Holds.construct {state : State} (holds : Holds state) (config : Config)
    (failure : Option Failure)
    (whole : config.mode = .internal → ∀ service, Completes state config service →
      Whole state service) : Holds (construct state config failure) := by
  unfold RuntimeCore.construct
  split
  · exact holds
  rename_i accepted
  have vacant : state.activeSlots config.slot = false := by
    rw [not_or] at accepted
    simpa using accepted.2
  obtain ⟨claimed, reserves⟩ := holds.safe.reserves config vacant
  simp only
  split
  · exact claimed.unwinds holds
  rename_i kept
  rw [not_or] at kept
  have reserved := reserves kept.2
  obtain ⟨place, service, joined, building, ready⟩ :=
    (reserved.prepareServerKernel rfl rfl failure).builds
  generalize prepareServerKernel (reserve (claim state config) state.born) state.born failure =
    result at *
  obtain ⟨prepared, threw⟩ := result
  simp only at *
  cases threw with
  | true => exact building.unwinds holds
  | false =>
    simp only [Bool.false_eq_true, if_false]
    obtain ⟨same, ready⟩ := ready rfl
    subst same
    have own := building.core
    have alive : (prepared.cores state.born).place .submesh = .members := by
      rw [own]
      exact building.alive
    have idle : ∀ shared, joined = some shared → (prepared.services shared).running = true →
        (prepared.services shared).launched = true := fun shared join running =>
      (by cases (ready shared join).1.symm.trans running)
    split
    · rename_i external
      refine ⟨building.safe, fun other => ?_⟩
      by_cases at_ : other = state.born
      · subst at_
        rw [own]
        refine ⟨fun _ => rfl, fun _ => idle, fun internal => ?_, fun _ _ _ => ?_⟩
        · cases external.symm.trans internal
        · exact Or.inr ⟨rfl, rfl, rfl, rfl⟩
      · exact building.steady holds other at_
    rename_i internal
    have mode : config.mode = .internal := by
      cases held : config.mode with
      | internal => rfl
      | external => exact absurd held internal
    split
    · exact building.unwinds holds
    obtain ⟨safe, born, others, outcome⟩ := building.safe.launchServerKernel alive
      (by rw [own]; rfl) (by rw [own]; exact idle) (by rw [own]; rfl) (by rw [own]; rfl)
      (by
        rw [own]
        exact fun shared join launchable => (ready shared join).2 launchable (whole mode))
      (building.steady holds) (decide (failure = some .enqueue))
    generalize launchServerKernel prepared state.born (decide (failure = some .enqueue)) =
      result at *
    obtain ⟨launched, threw⟩ := result
    simp only at *
    have before : state.born < launched.born := by
      rw [born]
      exact building.before
    cases threw with
    | true =>
      apply safe.unwinds before _ others
      intro unstarted
      cases outcome with
      | nothing kept =>
        rw [kept]
        exact alive
      | started core =>
        rw [core] at unstarted
        cases unstarted
      | quarantined _ _ started => cases started.symm.trans unstarted
    | false =>
      simp only [Bool.false_eq_true, if_false]
      have facts : (launched.cores state.born).place .submesh = .members ∧
          (launched.cores state.born).joined = (launched.cores state.born).service ∧
          (launched.cores state.born).config = config ∧
          ∀ shared, (launched.cores state.born).joined = some shared →
            (launched.services shared).running = true →
              (launched.services shared).launched = true := by
        cases outcome with
        | nothing kept =>
          rw [kept, own]
          exact ⟨building.alive, rfl, rfl, idle⟩
        | started core runs =>
          rw [own] at core runs
          rw [core]
          exact ⟨building.alive, rfl, rfl, runs⟩
      obtain ⟨aliveNow, joins, config', runs⟩ := facts
      refine ⟨safe.relabel before .ready _ (fun _ =>
          ⟨(fun impossible => by cases impossible), fun impossible => by cases impossible⟩)
        fun dead => absurd aliveNow dead, fun other => ?_⟩
      by_cases at_ : other = state.born
      · subst at_
        simp only [State.onCore, update_self]
        refine ⟨fun _ => joins, fun _ => runs, fun _ _ impossible => (by cases impossible),
          fun external => ?_⟩
        simp only [config', mode] at external
        cases external
      · simp only [State.onCore, update_of_ne at_]
        exact others other at_

end KvCache.RuntimeCore
