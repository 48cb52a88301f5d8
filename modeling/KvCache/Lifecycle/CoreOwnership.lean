import KvCache.Lifecycle.RuntimeCore

/-!
# What each step keeps

All resources of a core are in one place, which tells what the core may still do. The
shared program of an endpoint is gathering its shards, running, or spent, and never goes
back. While it gathers, nothing has been signalled; while it runs, each of its shards has
its resources in the core, in the node, or with the service, and some shard has not
returned from its termination, so that the service is referenced; once it is spent it can
never run again.

There is one lemma for the replacement of one core and one for each change of a service.
-/

namespace KvCache.RuntimeCore

open Run Function

/-! ## Phases of a shared program -/

inductive Phase where
  | gathering
  | running
  | spent
deriving DecidableEq, Repr

/-- A program that failed to be prepared, or whose workload is gone, cannot run again. -/
def Service.phase (service : Service) : Phase :=
  if service.running then .running
  else if service.preparationFailed ∨ (service.prepared ∧ service.workload = false) then .spent
  else .gathering

theorem Service.phase_running {service : Service} :
    service.phase = .running ↔ service.running = true := by
  unfold Service.phase
  grind

theorem Service.phase_gathering {service : Service} :
    service.phase = .gathering ↔ service.running = false ∧ service.preparationFailed = false ∧
      (service.prepared = true → service.workload = true) := by
  unfold Service.phase
  grind

theorem Service.phase_spent {service : Service} :
    service.phase = .spent ↔ service.running = false ∧ (service.preparationFailed = true ∨
      (service.prepared = true ∧ service.workload = false)) := by
  unfold Service.phase
  grind

/-! ## The invariant -/

/-- The slot of the core is claimed. -/
def Core.claims (core : Core) : Prop :=
  core.place .submesh = .members ∨ core.place .submesh = .node

/-- Nobody is to use the core any more. -/
def Core.settled (core : Core) : Prop :=
  core.destroyed = true ∨ core.lifecycle = .quarantined ∨ core.lifecycle = .closed

theorem Core.alive_iff {core : Core} : core.alive = true ↔ core.place .submesh = .members := by
  simp [Core.alive]

/-- What holds of one core, given the services. -/
structure Core.Fits (services : Nat → Service) (core : Core) : Prop where
  /-- All resources are in one place, but for the workload of a program that has ended. -/
  uniform : ∀ resource, core.place resource = .absent ∨
    core.place resource = core.place .submesh ∨
    (resource = .workload ∧ core.place resource = .freed ∧ core.running = false ∧
      core.joined = none)
  used : core.place .serverL1 ≠ .absent ∨ core.place .workload ≠ .absent ∨ core.joined ≠ none →
    ∀ resource, resource ≠ .workload → core.config.uses resource = true →
      core.place resource ≠ .absent
  unshared : core.joined ≠ none → core.place .workload = .absent
  loaded : core.running = true → core.place .workload = core.place .submesh
  living : core.place .submesh = .members → ¬ core.settled ∧ core.nodeService = none ∧
    (core.joined = none ∨ core.joined = core.service)
  held : core.place .submesh = .node → core.service = none ∧
    (core.joined = none ∨ core.joined = core.nodeService)
  resting : core.place .submesh ≠ .members → core.place .submesh ≠ .node →
    core.service = none ∧ core.nodeService = none
  settled : core.place .submesh ≠ .members → core.place .submesh ≠ .absent → core.settled
  retired : ∀ service, core.place .submesh = .retired service → core.joined = some service
  safe : core.nodeSafeToRelease = true → core.quarantineSafeToRelease = true
  runs : core.running = true → core.launchMayHaveStarted = true ∧
    core.quarantineSafeToRelease = false ∧ core.terminateReturned = false ∧ core.claims ∧
    core.joined = none
  shares : ∀ service, core.joined = some service → core.config.sharesProgram = true ∧
    core.config.submesh = (services service).submesh ∧
    core.config.shards = (services service).shardCount
  gathers : ∀ service, core.joined = some service → (services service).phase = .gathering →
    core.terminationSignalled = false ∧ core.terminateReturned = false ∧
      core.quarantineSafeToRelease = false
  joins : ∀ service, core.joined = some service → (services service).phase = .running →
    core.launchMayHaveStarted = true ∧ core.quarantineSafeToRelease = false ∧
      (core.terminateReturned = true → core.terminationSignalled = true) ∧
      (core.claims ∨
        (core.place .submesh = .retired service ∧ core.terminateReturned = true))

/-- The listed shards are those whose kernels the program contains. -/
def Service.Lists (cores : Nat → Core) (id : Nat) (service : Service) : Prop :=
  service.servers.Nodup ∧ ∀ shard, shard ∈ service.servers ↔ (cores shard).joined = some id

/-- What holds of one service, given the cores. -/
structure Service.Fits (cores : Nat → Core) (id : Nat) (service : Service) : Prop where
  gathers : service.phase = .gathering → service.launched = false ∧
    service.terminatedServers = 0 ∧ service.Lists cores id
  runs : service.phase = .running → service.prepared = true ∧ service.workload = true ∧
    service.preparationFailed = false ∧ service.Lists cores id ∧
    service.servers.length = service.shardCount ∧
    service.terminatedServers =
      (service.servers.filter fun shard => (cores shard).terminationSignalled).length ∧
    ∃ shard ∈ service.servers, (cores shard).terminateReturned = false
  spent : service.phase = .spent → service.launched = false

/-- What holds in every state, also within a step. -/
structure Safe (state : State) : Prop where
  unborn : ∀ id, state.born ≤ id → state.cores id = .unborn
  born : ∀ id, id < state.born → (state.cores id).place .submesh ≠ .absent
  cores : ∀ id, (state.cores id).Fits state.services
  services : ∀ service, (state.services service).Fits state.cores service
  created : ∀ id service, (state.cores id).joined = some service ∨
    (state.cores id).service = some service ∨ (state.cores id).nodeService = some service →
    service < state.created
  slots : ∀ id, (state.cores id).claims → state.activeSlots (state.cores id).config.slot = true
  apart : ∀ id other, (state.cores id).claims → (state.cores other).claims →
    (state.cores id).config.slot = (state.cores other).config.slot → id = other
  registered : ∀ service, Referenced state service →
    state.muxRegistry (state.services service).submesh = some service
  registry : ∀ submesh service, state.muxRegistry submesh = some service →
    (state.services service).submesh = submesh ∧ service < state.created
  carveOut : ∀ id, Owned state id .serverL1 →
    state.sharedServerL1 (state.cores id).config.submesh = (state.cores id).config.workerGroups
  listed : ∃ contents, state.failedTeardown.Represents contents ∧
    ∀ id, id ∈ contents ↔ (state.cores id).place .submesh = .node

theorem unborn_fits (services : Nat → Service) : Core.unborn.Fits services := by
  constructor <;> simp [Core.unborn, Core.fresh]

theorem start_safe : Safe start where
  unborn _ _ := rfl
  born _ before := absurd before (Nat.not_lt_zero _)
  cores _ := unborn_fits _
  services service := by
    constructor
    · intro _
      exact ⟨rfl, rfl, .nil, fun shard => by simp [start, Service.fresh, Core.unborn, Core.fresh]⟩
    · intro running
      exact nomatch running
    · intro _
      rfl
  created _ _ := by simp [start, Core.unborn, Core.fresh]
  slots _ claims := by rcases claims with claims | claims <;> exact nomatch claims
  apart _ _ claims := by rcases claims with claims | claims <;> exact nomatch claims
  registered _ referenced := absurd referenced.choose_spec.1 (Nat.not_lt_zero _)
  registry _ _ := nofun
  carveOut _ owned := nomatch owned
  listed := ⟨[], PointerStack.represents_empty, fun _ => by simp [start, Core.unborn, Core.fresh]⟩

/-! ## The replacement of one core -/

/-- The new core reads the same for its service. -/
structure SameShard (core replaced : Core) : Prop where
  config : replaced.config = core.config
  joined : replaced.joined = core.joined
  signalled : replaced.terminationSignalled = core.terminationSignalled
  returned : replaced.terminateReturned = core.terminateReturned

/-- A service reads of its shards only which they are, and which are signalled and have
returned. -/
theorem Service.Fits.congr {cores others : Nat → Core} {id : Nat} {service : Service}
    (fits : service.Fits cores id)
    (joined : ∀ shard, (others shard).joined = (cores shard).joined)
    (signalled : ∀ shard, (others shard).terminationSignalled = (cores shard).terminationSignalled)
    (returned : ∀ shard, (others shard).terminateReturned = (cores shard).terminateReturned) :
    service.Fits others id := by
  have lists : service.Lists others id ↔ service.Lists cores id := by
    simp only [Service.Lists, joined]
  constructor
  · simpa only [lists] using fits.gathers
  · simpa only [lists, signalled, returned] using fits.runs
  · exact fits.spent

/-- Where the cores refer to no more, fewer services are referenced. -/
theorem referenced_of_kept (state after : State) {service : Nat} (born : after.born = state.born)
    (kept : ∀ id, (after.cores id).service = some service ∨
      (after.cores id).nodeService = some service →
      (state.cores id).service = some service ∨ (state.cores id).nodeService = some service)
    (referenced : Referenced after service) : Referenced state service := by
  obtain ⟨id, before, refers⟩ := referenced
  exact ⟨id, born ▸ before, kept id refers⟩

/-- What is owned stays so where more services are referenced. -/
theorem Place.Owned.mono {state after : State} {place : Place} (owned : place.Owned after)
    (referenced : ∀ service, Referenced after service → Referenced state service) :
    place.Owned state := by
  cases place with
  | retired service => exact referenced service owned
  | absent | members | node | freed => exact owned

/-- Replacing one core keeps the invariant, if the core fits and refers to no more.

Proof: the services read the same of the core, and what is said of references, of claims
and of owned carve-outs is said of fewer. -/
theorem Safe.replace {state : State} (safe : Safe state) {id : Nat} (before : id < state.born)
    (core : Core) (slots : RegistryKey → Bool) (list : PointerStack Nat)
    (same : SameShard (state.cores id) core) (fits : core.Fits state.services)
    (present : core.place .submesh ≠ .absent)
    (refers : ∀ service, core.service = some service ∨ core.nodeService = some service →
      (state.cores id).service = some service ∨ (state.cores id).nodeService = some service)
    (claims : core.claims → (state.cores id).claims)
    (carves : core.place .serverL1 = .freed ∨ (state.cores id).place .serverL1 = .members ∨
      (state.cores id).place .serverL1 = .node ∨
      core.place .serverL1 = (state.cores id).place .serverL1 ∨
      state.sharedServerL1 core.config.submesh = core.config.workerGroups)
    (active : ∀ other, (update state.cores id core other).claims →
      slots (state.cores other).config.slot = true)
    (listed : ∃ contents, list.Represents contents ∧
      ∀ other, other ∈ contents ↔ (update state.cores id core other).place .submesh = .node) :
    Safe { state with
      cores := update state.cores id core, activeSlots := slots, failedTeardown := list } := by
  have reads : ∀ {α : Type} (field : Core → α), field core = field (state.cores id) →
      ∀ other, field (update state.cores id core other) = field (state.cores other) := by
    intro α field equal other
    by_cases at_ : other = id
    · subst at_
      rw [update_self, equal]
    · rw [update_of_ne at_]
  have config := reads Core.config same.config
  have claimsBefore : ∀ other, (update state.cores id core other).claims →
      (state.cores other).claims := by
    intro other held
    by_cases at_ : other = id
    · subst at_
      exact claims (by rwa [update_self] at held)
    · rwa [update_of_ne at_] at held
  have refersBefore : ∀ service other,
      (update state.cores id core other).service = some service ∨
        (update state.cores id core other).nodeService = some service →
      (state.cores other).service = some service ∨
        (state.cores other).nodeService = some service := by
    intro service other held
    by_cases at_ : other = id
    · subst at_
      exact refers service (by rwa [update_self] at held)
    · rwa [update_of_ne at_] at held
  have shrinks : ∀ service, Referenced { state with
      cores := update state.cores id core, activeSlots := slots, failedTeardown := list }
      service → Referenced state service :=
    fun service => referenced_of_kept state _ rfl (refersBefore service)
  constructor
  · intro other beyond
    have apart : other ≠ id := fun equal =>
      absurd before (Nat.not_lt.mpr (equal ▸ beyond))
    exact (update_of_ne apart ..).trans (safe.unborn other beyond)
  · intro other within
    by_cases at_ : other = id
    · subst at_
      simpa only [update_self] using present
    · simpa only [update_of_ne at_] using safe.born other within
  · intro other
    by_cases at_ : other = id
    · subst at_
      simpa only [update_self] using fits
    · simpa only [update_of_ne at_] using safe.cores other
  · intro service
    exact (safe.services service).congr (reads Core.joined same.joined)
      (reads Core.terminationSignalled same.signalled) (reads Core.terminateReturned same.returned)
  · intro other service held
    rcases held with held | held
    · exact safe.created other service (Or.inl ((reads Core.joined same.joined other).symm.trans held))
    · exact safe.created other service (Or.inr (refersBefore service other held))
  · intro other held
    simp only [config]
    exact active other held
  · intro other another held heldToo slot
    simp only [config] at slot
    exact safe.apart other another (claimsBefore other held) (claimsBefore another heldToo) slot
  · intro service referenced
    exact safe.registered service (shrinks service referenced)
  · exact safe.registry
  · intro other owned
    simp only [config]
    by_cases at_ : other = id
    · subst at_
      have ownedCore : (core.place .serverL1).Owned state :=
        Place.Owned.mono (by simpa only [Owned, update_self] using owned) shrinks
      rw [← same.config]
      rcases carves with freed | members | node | kept | agrees
      · rw [freed] at ownedCore
        exact ownedCore.elim
      · rw [same.config]
        exact safe.carveOut other (by rw [Owned, members]; trivial)
      · rw [same.config]
        exact safe.carveOut other (by rw [Owned, node]; trivial)
      · rw [same.config]
        exact safe.carveOut other (by rwa [Owned, ← kept])
      · exact agrees
    · apply safe.carveOut other
      exact Place.Owned.mono (by simpa only [Owned, update_of_ne at_] using owned) shrinks
  · exact listed

/-- Replacing one core by one with the same resources keeps the invariant. -/
theorem Safe.onCore {state : State} (safe : Safe state) {id : Nat} (before : id < state.born)
    (change : Core → Core) (same : SameShard (state.cores id) (change (state.cores id)))
    (fits : (change (state.cores id)).Fits state.services)
    (place : (change (state.cores id)).place = (state.cores id).place)
    (service : (change (state.cores id)).service = (state.cores id).service)
    (nodeService : (change (state.cores id)).nodeService = (state.cores id).nodeService) :
    Safe (state.onCore id change) := by
  have kept : ∀ other, (update state.cores id (change (state.cores id)) other).place =
      (state.cores other).place := by
    intro other
    by_cases at_ : other = id
    · subst at_
      rw [update_self, place]
    · rw [update_of_ne at_]
  apply safe.replace before _ state.activeSlots state.failedTeardown same fits
  · rw [place]
    exact safe.born id before
  · intro other held
    rwa [service, nodeService] at held
  · simp only [Core.claims, place]
    exact fun held => held
  · exact Or.inr (Or.inr (Or.inr (Or.inl (by rw [place]))))
  · intro other held
    apply safe.slots other
    unfold Core.claims at held ⊢
    rwa [kept] at held
  · simp only [kept]
    exact safe.listed

/-! ## Quarantine and destruction -/

theorem mem_quarantinedFields (resource : Resource) : resource ∈ quarantinedFields := by
  cases resource <;> decide

@[simp] theorem place_move (core : Core) (fields : List Resource) (target : Place)
    (resource : Resource) : (core.move fields target).place resource =
      if resource ∈ fields ∧ core.place resource = .members then target
      else core.place resource := rfl

/-- A core that is alive, with everything it had in its node. -/
structure Shelved (core shelved : Core) : Prop where
  same : SameShard core shelved
  place : shelved.place = (core.move quarantinedFields .node).place
  service : shelved.service = none
  nodeService : shelved.nodeService = core.service
  settled : shelved.settled
  safe : shelved.nodeSafeToRelease = core.quarantineSafeToRelease
  safeToo : shelved.quarantineSafeToRelease = core.quarantineSafeToRelease
  running : shelved.running = core.running
  started : shelved.launchMayHaveStarted = core.launchMayHaveStarted

theorem Shelved.fits {core shelved : Core} {services : Nat → Service} (move : Shelved core shelved)
    (alive : core.place .submesh = .members) (fits : core.Fits services) :
    shelved.Fits services := by
  obtain ⟨⟨config, joined, signalled, returned⟩, place, service, nodeService, settled, safe, safeToo,
    running, started⟩ := move
  obtain ⟨live, noNode, joins⟩ := fits.living alive
  have node : shelved.place .submesh = .node := by
    rw [place]
    simp [mem_quarantinedFields, alive]
  constructor
  · intro resource
    rw [node, place, place_move, running, joined]
    have uniform := fits.uniform resource
    rw [alive] at uniform
    grind [mem_quarantinedFields]
  · rw [joined, config, place]
    intro used resource apart uses
    have kept := fits.used (by grind [place_move]) resource apart uses
    grind [place_move]
  · rw [joined, place]
    intro join
    have absent := fits.unshared join
    grind [place_move]
  · rw [running, place]
    intro run
    have loaded := fits.loaded run
    simp only [place_move, mem_quarantinedFields, true_and, loaded]
  · simp [node]
  · intro _
    rw [joined, nodeService]
    exact ⟨service, joins⟩
  · intro _ away
    exact absurd node away
  · intro _ _
    exact settled
  · simp [node]
  · rw [safe, safeToo]
    exact fun held => held
  · rw [running, started, safeToo, returned, joined]
    intro run
    have runs := fits.runs run
    exact ⟨runs.1, runs.2.1, runs.2.2.1, Or.inr node, runs.2.2.2.2⟩
  · rw [joined, config]
    exact fits.shares
  · rw [joined, signalled, returned, safeToo]
    exact fits.gathers
  · rw [joined, started, safeToo, returned, signalled]
    intro shared join phase
    have joins := fits.joins shared join phase
    exact ⟨joins.1, joins.2.1, joins.2.2.1, Or.inl (Or.inr node)⟩

/-- Shelving a core that is alive keeps the invariant. Its node is being pushed. -/
theorem Safe.shelve {state : State} (safe : Safe state) {id : Nat} (shelved : Core)
    (move : Shelved (state.cores id) shelved) (alive : (state.cores id).place .submesh = .members) :
    Safe { state with
      cores := update state.cores id shelved
      failedTeardown := state.failedTeardown.load id } := by
  have before : id < state.born := by
    by_contra beyond
    have unborn := safe.unborn id (Nat.not_lt.mp beyond)
    rw [unborn] at alive
    exact nomatch alive
  have node : shelved.place .submesh = .node := by
    rw [move.place]
    simp [mem_quarantinedFields, alive]
  apply safe.replace before shelved state.activeSlots (state.failedTeardown.load id) move.same
    (move.fits alive (safe.cores id))
  · rw [node]
    exact nofun
  · intro service refers
    rw [move.service, move.nodeService] at refers
    exact Or.inl (refers.resolve_left nofun)
  · intro _
    exact Or.inl alive
  · rw [move.place, place_move]
    grind
  · intro other held
    by_cases at_ : other = id
    · subst at_
      exact safe.slots other (Or.inl alive)
    · rw [update_of_ne at_] at held
      exact safe.slots other held
  · obtain ⟨contents, represents, nodes⟩ := safe.listed
    have fresh : id ∉ contents := fun inside => by
      have placed := (nodes id).mp inside
      rw [alive] at placed
      exact nomatch placed
    refine ⟨id :: contents, represents.load fresh, fun other => ?_⟩
    by_cases at_ : other = id
    · subst at_
      simp [node]
    · simp [at_, nodes other]

theorem onCore_onCore (state : State) (id : Nat) (first second : Core → Core) :
    (state.onCore id first).onCore id second = state.onCore id fun core => second (first core) := by
  simp [State.onCore]

/-- A core whose lifecycle says that nobody is to use it may be said so again. -/
theorem Core.Fits.quarantined {core : Core} {services : Nat → Service} (fits : core.Fits services)
    (dead : core.place .submesh ≠ .members) :
    Core.Fits services { core with lifecycle := .quarantined } :=
  { fits with
    living := fun alive => absurd alive dead
    settled := fun _ _ => Or.inr (Or.inl rfl) }

theorem Safe.quarantine {state : State} (safe : Safe state) {id : Nat} (before : id < state.born) :
    Safe (quarantine state id) := by
  by_cases alive : (state.cores id).place .submesh = .members
  · have same : (state.onCore id fun core => { core with lifecycle := .quarantined }).cores id =
        { state.cores id with lifecycle := .quarantined } := update_self ..
    have shelved := safe.shelve
      { (state.cores id).move quarantinedFields .node with
        lifecycle := .quarantined
        service := none
        nodeService := (state.cores id).service
        nodeSafeToRelease := (state.cores id).quarantineSafeToRelease }
      ⟨⟨rfl, rfl, rfl, rfl⟩, rfl, rfl, rfl, Or.inr (Or.inl rfl), rfl, rfl, rfl, rfl⟩ alive
    simp only [RuntimeCore.quarantine, quarantineFailedTeardown, same, Core.alive, alive,
      decide_true, if_true, onCore_onCore]
    exact shelved
  · have kept := safe.onCore before (fun core => { core with lifecycle := .quarantined })
      ⟨rfl, rfl, rfl, rfl⟩ ((safe.cores id).quarantined alive) rfl rfl rfl
    have dead : ((state.onCore id fun core => { core with lifecycle := .quarantined }).cores
        id).alive = false := by
      simp [State.onCore, Core.alive, alive]
    simp only [RuntimeCore.quarantine, quarantineFailedTeardown, dead]
    exact kept

/-- A core that is not alive has no members. -/
theorem Core.Fits.members_only {core : Core} {services : Nat → Service} (fits : core.Fits services)
    (dead : core.place .submesh ≠ .members) (resource : Resource) :
    core.place resource ≠ .members := by
  intro member
  rcases fits.uniform resource with absent | same | ⟨-, freed, -, -⟩
  · rw [member] at absent
    exact nomatch absent
  · exact dead (same ▸ member)
  · rw [member] at freed
    exact nomatch freed

/-- The destructor of a core that is not alive destroys nothing. -/
theorem Safe.destruct {state : State} (safe : Safe state) {id : Nat} (before : id < state.born)
    (dead : (state.cores id).place .submesh ≠ .members) : Safe (destructMembers state id) := by
  have fits := safe.cores id
  have place : ((state.cores id).move quarantinedFields .freed).place = (state.cores id).place := by
    funext resource
    rw [place_move, if_neg]
    exact fun both => fits.members_only dead resource both.2
  have service : (state.cores id).service = none := by
    by_cases node : (state.cores id).place .submesh = .node
    · exact (fits.held node).1
    · exact (fits.resting dead node).1
  have same : destructMembers state id =
      state.onCore id fun core => { core with destroyed := true } := by
    unfold destructMembers State.onCore
    congr 2
    rw [Core.mk.injEq]
    exact ⟨rfl, rfl, rfl, place, service.symm, rfl, rfl, rfl, rfl, rfl, rfl, rfl, rfl, rfl, rfl⟩
  rw [same]
  exact safe.onCore before _ ⟨rfl, rfl, rfl, rfl⟩
    { fits with
      living := fun alive => absurd alive dead
      settled := fun _ _ => Or.inl rfl } rfl rfl rfl

/-- The destructor quarantines and destroys. -/
theorem Safe.quarantineDestruct {state : State} (safe : Safe state) {id : Nat}
    (before : id < state.born) :
    Safe (destructMembers (quarantineFailedTeardown state id) id) := by
  by_cases alive : (state.cores id).place .submesh = .members
  · have shelved := safe.shelve
      { ((state.cores id).move quarantinedFields .node).move quarantinedFields .freed with
        service := none
        nodeService := (state.cores id).service
        nodeSafeToRelease := (state.cores id).quarantineSafeToRelease
        destroyed := true }
      ⟨⟨rfl, rfl, rfl, rfl⟩, ?_, rfl, rfl, Or.inl rfl, rfl, rfl, rfl, rfl⟩ alive
    · simp only [quarantineFailedTeardown, Core.alive, alive, decide_true, if_true,
        destructMembers]
      have twice : ∀ (list : PointerStack Nat) (first second : Core → Core),
          State.onCore { state.onCore id first with failedTeardown := list } id second =
            { state.onCore id fun core => second (first core) with failedTeardown := list } := by
        intro list first second
        simp [State.onCore]
      rw [twice]
      exact shelved
    · funext resource
      simp only [place_move]
      grind
  · have same : quarantineFailedTeardown state id = state := by
      simp [quarantineFailedTeardown, Core.alive, alive]
    rw [same]
    exact safe.destruct before alive

/-! ## Release -/

/-- Where a core leaves what its program addresses. -/
def releaseTarget (state : State) (id : Nat) : Place :=
  match (state.cores id).service with
  | none => .freed
  | some service => if (state.services service).workload then .retired service else .freed

/-- The members of a core after its release. -/
def Core.released (core : Core) (fields : List Resource) (target : Place) : Core :=
  { (core.move preservedFields target).move fields .freed with
    service := none
    lifecycle := .closed }

/-- A release leaves everything at one place, and the slot free. -/
theorem releaseFields_eq (state : State) (id : Nat) (fields : List Resource)
    (covered : ∀ resource ∈ preservedFields, resource ∈ fields) :
    releaseFields state id fields = { state with
      cores := update state.cores id
        ((state.cores id).released fields (releaseTarget state id))
      activeSlots := update state.activeSlots (state.cores id).config.slot false } := by
  unfold releaseFields preserveStaticIntermeshKernelResources releaseTarget eraseSlot
  cases service : (state.cores id).service with
  | none =>
    have twice : ((state.cores id).move preservedFields .freed).move fields .freed =
        (state.cores id).move fields .freed := by
      unfold Core.move
      congr 1
      funext resource
      grind
    simp [State.onCore, Core.released, twice]
  | some shared => simp [State.onCore, Core.released]

theorem released_place {core : Core} (fields : List Resource) (target : Place)
    (away : target ≠ .members)
    (covered : core.place .workload = .members → .workload ∈ fields ∧ target = .freed)
    (resource : Resource) : (core.released fields target).place resource =
      if core.place resource = .members then target else core.place resource := by
  simp only [Core.released, place_move]
  have listed : resource ∈ preservedFields ∨ resource = .workload := by
    cases resource <;> decide
  rcases listed with listed | rfl
  · grind
  · have apart : Resource.workload ∉ preservedFields := by decide
    grind

/-- Releasing a core keeps the invariant where its program has ended or the shared program
keeps what it addresses. -/
theorem Safe.release {state : State} (safe : Safe state) {id : Nat} {fields : List Resource}
    (alive : (state.cores id).place .submesh = .members) (before : id < state.born)
    (joined : (state.cores id).joined = (state.cores id).service)
    (covered : ∀ resource ∈ preservedFields, resource ∈ fields)
    (workload : (state.cores id).place .workload = .members → .workload ∈ fields)
    (ended : (state.cores id).running = false)
    (returned : ∀ service, (state.cores id).joined = some service →
      (state.services service).phase = .running → (state.cores id).terminateReturned = true) :
    Safe (releaseFields state id fields) := by
  have fits := safe.cores id
  have target : releaseTarget state id ≠ .members ∧ releaseTarget state id ≠ .node ∧
      releaseTarget state id ≠ .absent := by
    unfold releaseTarget
    grind
  have own : (state.cores id).place .workload = .members →
      .workload ∈ fields ∧ releaseTarget state id = .freed := by
    intro member
    refine ⟨workload member, ?_⟩
    cases service : (state.cores id).service with
    | none => simp [releaseTarget, service]
    | some shared =>
      have absent := fits.unshared (by rw [joined, service]; exact nofun)
      rw [member] at absent
      exact nomatch absent
  have place := released_place fields (releaseTarget state id) target.1 own
  have submesh : ((state.cores id).released fields (releaseTarget state id)).place .submesh =
      releaseTarget state id := by
    rw [place, if_pos alive]
  rw [releaseFields_eq state id fields covered]
  apply safe.replace before ((state.cores id).released fields (releaseTarget state id)) _
    state.failedTeardown ⟨rfl, rfl, rfl, rfl⟩
  · constructor
    · intro resource
      have uniform := fits.uniform resource
      rw [submesh, place]
      change _ ∨ _ ∨ _ ∧ _ ∧ (state.cores id).running = false ∧ (state.cores id).joined = none
      grind
    · rw [place, place]
      change _ ∨ _ ∨ (state.cores id).joined ≠ none → _
      intro used resource apart uses
      rw [place]
      have kept := fits.used (by grind) resource apart uses
      grind
    · intro join
      rw [place]
      have absent := fits.unshared join
      grind
    · exact fun run => absurd (ended ▸ run) nofun
    · exact fun member => absurd (submesh ▸ member) target.1
    · exact fun node => absurd (submesh ▸ node) target.2.1
    · exact fun _ _ => ⟨rfl, (fits.living alive).2.1⟩
    · exact fun _ _ => Or.inr (Or.inr rfl)
    · intro service retired
      rw [submesh] at retired
      unfold releaseTarget at retired
      change (state.cores id).joined = _
      grind
    · exact fits.safe
    · exact fun run => absurd (ended ▸ run) nofun
    · exact fits.shares
    · exact fits.gathers
    · intro service join phase
      obtain ⟨started, unsafe_, signalled, -⟩ := fits.joins service join phase
      refine ⟨started, unsafe_, signalled, Or.inr ⟨?_, returned service join phase⟩⟩
      have running := ((safe.services service).runs phase).2.1
      have served : (state.cores id).service = some service := joined ▸ join
      rw [submesh]
      simp [releaseTarget, served, running]
  · rw [submesh]
    exact target.2.2
  · intro service refers
    rcases refers with refers | refers
    · exact nomatch refers
    · exact Or.inr refers
  · intro _
    exact Or.inl alive
  · have uniform := fits.uniform .serverL1
    rw [place]
    grind
  · intro other claims
    by_cases at_ : other = id
    · subst at_
      rw [update_self] at claims
      rcases claims with member | node
      · exact absurd (submesh ▸ member) target.1
      · exact absurd (submesh ▸ node) target.2.1
    · rw [update_of_ne at_] at claims
      rw [update_of_ne]
      · exact safe.slots other claims
      · exact fun slot => at_ (safe.apart other id claims (Or.inl alive) slot)
  · obtain ⟨contents, represents, nodes⟩ := safe.listed
    refine ⟨contents, represents, fun other => ?_⟩
    by_cases at_ : other = id
    · subst at_
      rw [update_self, nodes, submesh, alive]
      exact ⟨nofun, fun node => absurd node target.2.1⟩
    · rw [update_of_ne at_, nodes]

/-- A drain that takes a node deletes it if it is safe and pushes it again otherwise. -/
theorem Safe.releaseNode {state : State} (safe : Safe state) {id : Nat}
    (standing : some id ∈ state.failedTeardown.draining) :
    Safe (RuntimeCore.releaseNode state id) ∧ (state.cores id).place .submesh = .node := by
  obtain ⟨contents, represents, nodes⟩ := safe.listed
  obtain ⟨others, split, taken⟩ := represents.take standing
  have held : id ∈ contents := split.symm.subset (List.mem_cons_self ..)
  have node := (nodes id).mp held
  have apart := List.nodup_cons.mp (split.nodup represents.nodup)
  have before : id < state.born := by
    by_contra beyond
    rw [safe.unborn id (Nat.not_lt.mp beyond)] at node
    exact nomatch node
  refine ⟨?_, node⟩
  have fits := safe.cores id
  by_cases released : (state.cores id).nodeSafeToRelease = true
  · have harmless := fits.safe released
    have ended : (state.cores id).running = false := by
      cases running : (state.cores id).running with
      | false => rfl
      | true => exact nomatch (fits.runs running).2.1.symm.trans harmless
    have deleted : RuntimeCore.releaseNode state id = { state with
        cores := update state.cores id { state.cores id with
          place := fun resource =>
            if (state.cores id).place resource = .node then .freed
            else (state.cores id).place resource
          nodeService := none }
        activeSlots := update state.activeSlots (state.cores id).config.slot false
        failedTeardown := state.failedTeardown.take id } := by
      simp [RuntimeCore.releaseNode, released, eraseSlot, State.onCore]
    rw [deleted]
    refine safe.replace before _ _ _ ⟨rfl, rfl, rfl, rfl⟩ ?_ ?_ ?_ ?_ ?_ ?_ ?_
    · constructor
      · intro resource
        have uniform := fits.uniform resource
        simp only
        grind
      · intro used resource apart uses
        simp only at used ⊢
        have kept := fits.used (by grind) resource apart uses
        grind
      · intro join
        have absent := fits.unshared join
        simp only
        grind
      · exact fun run => absurd (ended ▸ run) nofun
      · simp [node]
      · simp [node]
      · exact fun _ _ => ⟨(fits.held node).1, rfl⟩
      · intro _ _
        exact fits.settled (by simp [node]) (by simp [node])
      · simp [node]
      · exact fits.safe
      · exact fun run => absurd (ended ▸ run) nofun
      · exact fits.shares
      · exact fits.gathers
      · intro service join phase
        exact nomatch (fits.joins service join phase).2.1.symm.trans harmless
    · simp [node]
    · intro service refers
      rcases refers with refers | refers
      · exact Or.inl refers
      · exact nomatch refers
    · exact fun _ => Or.inr node
    · have uniform := fits.uniform .serverL1
      simp only
      grind
    · intro other claims
      by_cases at_ : other = id
      · subst at_
        simp [Core.claims, node] at claims
      · rw [update_of_ne at_] at claims
        rw [update_of_ne]
        · exact safe.slots other claims
        · exact fun slot => at_ (safe.apart other id claims (Or.inr node) slot)
    · refine ⟨others, taken, fun other => ?_⟩
      have listed := nodes other
      have shifted : other ∈ contents ↔ other = id ∨ other ∈ others := by
        rw [split.mem_iff, List.mem_cons]
      by_cases at_ : other = id
      · subst at_
        simp [node, apart.1]
      · rw [update_of_ne at_]
        grind
  · have again : RuntimeCore.releaseNode state id =
        { state with failedTeardown := (state.failedTeardown.take id).load id } := by
      simp [RuntimeCore.releaseNode, released]
    rw [again]
    exact { safe with
      listed := ⟨contents, (taken.load apart.1).perm split.symm, nodes⟩ }

end KvCache.RuntimeCore
