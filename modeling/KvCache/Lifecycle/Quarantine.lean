import KvCache.Lifecycle.CoreConstruction

/-!
# Quarantine keeps what a live device program can touch

While the program of a core may be running, every resource that it addresses is owned, and
no other runtime can be constructed on its endpoint. A node of the quarantine list is
deleted only by the release for tests, and only once the program has been seen to end; the
list itself neither loses nor duplicates a node.

Two things are left out of the guarantee. A shard that joined a shared program and goes
away without being terminated stays listed in its service; so the runs considered submit no
program with a shard that is gone, and destroy no runtime that was never launched while
its shared program is.
-/

namespace KvCache.RuntimeCore

open Run Function

/-! ## Nodes stay -/

/-- Every node of the one state is a node of the other. -/
def NodesStay (state after : State) : Prop :=
  ∀ id, (state.cores id).place .submesh = .node → (after.cores id).place .submesh = .node

theorem NodesStay.refl (state : State) : NodesStay state state := fun _ node => node

theorem NodesStay.trans {state middle after : State} (first : NodesStay state middle)
    (second : NodesStay middle after) : NodesStay state after :=
  fun id node => second id (first id node)

/-- A step that replaces one core, which stays a node if it was one. -/
theorem NodesStay.onCore {state after next : State} (stays : NodesStay state after) (id : Nat)
    {core : Core} (same : next.cores = update after.cores id core)
    (kept : (after.cores id).place .submesh = .node → core.place .submesh = .node) :
    NodesStay state next := by
  intro other node
  rw [same]
  by_cases at_ : other = id
  · subst at_
    rw [update_self]
    exact kept (stays other node)
  · rw [update_of_ne at_]
    exact stays other node

theorem move_node (fields : List Resource) (target : Place) (core : Core)
    (node : core.place .submesh = .node) : (core.move fields target).place .submesh = .node := by
  rw [place_move, node]
  exact if_neg fun both => nomatch both.2

theorem NodesStay.quarantineFailedTeardown {state after : State} (stays : NodesStay state after)
    (id : Nat) : NodesStay state (quarantineFailedTeardown after id) := by
  unfold RuntimeCore.quarantineFailedTeardown
  split
  · exact stays.onCore id rfl (move_node _ _ _)
  · exact stays

theorem NodesStay.quarantine {state after : State} (stays : NodesStay state after) (id : Nat) :
    NodesStay state (quarantine after id) := by
  have labelled : NodesStay state
      (after.onCore id fun core => { core with lifecycle := .quarantined }) :=
    stays.onCore id rfl fun node => node
  exact labelled.quarantineFailedTeardown id

theorem NodesStay.quarantineShards {state after : State} (stays : NodesStay state after)
    (shards : List Nat) : NodesStay state (quarantineShards after shards) := by
  induction shards generalizing after with
  | nil => exact stays
  | cons shard rest inductionHypothesis => exact inductionHypothesis (stays.quarantine shard)

theorem NodesStay.destruct {state after : State} (stays : NodesStay state after) (id : Nat) :
    NodesStay state (destructMembers after id) :=
  stays.onCore id rfl (move_node _ _ _)

theorem NodesStay.unwind {state after : State} (stays : NodesStay state after) (id : Nat) :
    NodesStay state (unwind after id) := by
  unfold RuntimeCore.unwind
  simp only
  split
  · exact (stays.quarantine id).destruct id
  · exact NodesStay.destruct stays id

theorem NodesStay.markLaunch {state after : State} (stays : NodesStay state after)
    (service : Nat) : NodesStay state (markLaunch after service) := by
  intro id node
  rw [(markLaunch_core after service id).2.1]
  exact stays id node

theorem NodesStay.launchServerKernel {state after : State} (stays : NodesStay state after)
    (id : Nat) (enqueueFails : Bool) :
    NodesStay state (launchServerKernel after id enqueueFails).1 := by
  unfold RuntimeCore.launchServerKernel
  split
  · rename_i service _
    simp only
    split
    · exact stays
    split
    · exact stays
    split
    · exact stays
    split
    · exact stays
    split
    · exact (stays.markLaunch service).quarantineShards _
    split
    · have marked : NodesStay state ((RuntimeCore.markLaunch after service).onService service
          fun shared => { shared with launched := true }) := stays.markLaunch service
      exact marked.quarantineShards _
    · exact stays.markLaunch service
  · split
    · exact stays
    · exact stays.onCore id rfl fun node => node

theorem NodesStay.launch {state : State} (id : Nat) (enqueueFails : Bool) :
    NodesStay state (launch state id enqueueFails) := by
  have stays := NodesStay.refl state
  unfold RuntimeCore.launch
  split
  · exact stays
  split
  · split
    · exact stays.onCore id rfl fun node => node
    · exact stays
  have launched := stays.launchServerKernel id enqueueFails
  simp only
  split
  · split
    · exact (launched.quarantine id).onCore id rfl fun node => node
    · exact launched
  · exact launched.onCore id rfl fun node => node

theorem NodesStay.finish {state after : State} (stays : NodesStay state after) (service : Nat) :
    NodesStay state (finishService after service) := by
  intro id node
  have placed := stays id node
  have place : ((finishService after service).cores id).place .submesh =
      if (after.cores id).place .submesh = .retired service then .freed
      else (after.cores id).place .submesh := rfl
  rw [place, placed]
  exact if_neg nofun

theorem NodesStay.terminateServerKernel {state after : State} (stays : NodesStay state after)
    (id : Nat) (outcome : Termination) :
    NodesStay state (terminateServerKernel after id outcome).1 := by
  unfold RuntimeCore.terminateServerKernel
  split
  · rename_i service _
    have signalled : NodesStay state (signalShard after id service) := by
      unfold signalShard
      split
      · exact stays
      · exact stays.onCore id rfl fun node => node
    unfold terminateShard
    split
    · exact stays
    split
    · exact stays.onCore id rfl fun node => node
    split
    · exact stays
    simp only
    split
    · exact signalled
    split
    · split
      · exact signalled
      split
      · exact (signalled.finish service).onCore id rfl fun node => node
      · exact (signalled.finish service).onCore id rfl fun node => node
    · exact signalled.onCore id rfl fun node => node
  · split
    · exact stays.onCore id rfl fun node => node
    split
    · exact stays
    split
    · exact stays.onCore id rfl fun node => node
    · exact stays.onCore id rfl (move_node [.workload] .freed (after.cores id))

theorem NodesStay.terminate {state : State} (id : Nat) (outcome : Termination) :
    NodesStay state (terminate state id outcome) := by
  have stays := NodesStay.refl state
  unfold RuntimeCore.terminate
  simp only
  split
  · exact stays
  split
  · exact stays
  have entered : NodesStay state (state.onCore id fun core => { core with device := .closing }) :=
    stays.onCore id rfl fun node => node
  split
  · exact entered.onCore id rfl fun node => node
  split
  · exact entered
  have closing : NodesStay state ((state.onCore id fun core => { core with device := .closing }
      ).onCore id fun core => { core with lifecycle := .closing }) :=
    entered.onCore id rfl fun node => node
  have ended := closing.terminateServerKernel id outcome
  split
  · exact ended
  · exact ended.onCore id rfl fun node => node

theorem NodesStay.releaseFields {state after : State} (stays : NodesStay state after) (id : Nat)
    (fields : List Resource) : NodesStay state (releaseFields after id fields) := by
  have preserved : NodesStay state (preserveStaticIntermeshKernelResources after id) := by
    unfold preserveStaticIntermeshKernelResources
    split
    · exact stays
    · exact stays.onCore id rfl (move_node _ _ _)
  exact preserved.onCore id rfl (move_node _ _ _)

theorem NodesStay.close {state after : State} (stays : NodesStay state after) (id : Nat)
    (outcome : Closing) : NodesStay state (close after id outcome).1 := by
  unfold RuntimeCore.close
  simp only
  split
  · exact stays
  split
  · exact stays
  split
  · exact stays
  have closing : NodesStay state (after.onCore id fun core => { core with lifecycle := .closing }) :=
    stays.onCore id rfl fun node => node
  have ended := closing.terminateServerKernel id outcome.termination
  split
  · exact ended
  · exact ended.releaseFields id _

theorem NodesStay.destroyInternal {state : State} (id : Nat) (first second : Closing) :
    NodesStay state (destroyInternal state id first second) := by
  have once := (NodesStay.refl state).close id first
  have twice := once.close id second
  unfold RuntimeCore.destroyInternal
  simp only
  apply NodesStay.destruct
  split
  · exact once
  split
  · exact twice
  · exact twice.quarantineFailedTeardown id

theorem NodesStay.destroyExternal {state : State} (id : Nat) (leased : Bool) :
    NodesStay state (destroyExternal state id leased) := by
  have stays := NodesStay.refl state
  have quarantined : NodesStay state ((RuntimeCore.quarantine state id).onCore id fun core =>
      { core with device := .quarantined }) :=
    (stays.quarantine id).onCore id rfl fun node => node
  have released : NodesStay state (releaseExternal state id leased).1 := by
    unfold releaseExternal
    simp only
    split
    · exact stays
    split
    · exact stays
    split
    · exact stays
    · exact stays.releaseFields id _
  unfold RuntimeCore.destroyExternal
  apply NodesStay.destruct
  split
  · simp only
    split
    · exact quarantined
    · exact released
  · simp only
    split
    · exact quarantined
    · exact released
  · exact quarantined
  · exact quarantined
  · exact stays

theorem NodesStay.prepareServerKernel {state after : State} (stays : NodesStay state after)
    (id : Nat) (failure : Option Failure) :
    NodesStay state (prepareServerKernel after id failure).1 := by
  have appends : ∀ (next : State) (service : Nat), NodesStay state next →
      NodesStay state (appendShard next id service failure).1 := by
    intro next service staysNext
    unfold appendShard
    simp only
    split
    · exact staysNext
    split
    · exact staysNext
    split
    · exact staysNext.onCore id rfl fun node => node
    split
    · exact staysNext.onCore id rfl fun node => node
    split
    · exact staysNext.onCore id rfl fun node => node
    · exact staysNext.onCore id rfl fun node => node
  have locks : ∀ {found : State × Nat}, lockService after (after.cores id).config failure =
      some found → found.1.cores = after.cores := by
    intro found locked
    unfold lockService lockService.makeService at locked
    grind
  unfold RuntimeCore.prepareServerKernel
  simp only
  split
  · split
    · exact stays
    · rename_i next service locked
      have found : NodesStay state next := by
        intro other node
        rw [locks locked]
        exact stays other node
      apply appends
      exact found.onCore id rfl fun node => node
  · split
    · exact stays
    · apply stays.onCore id rfl
      intro node
      have apart : Resource.submesh ≠ .workload := by decide
      simpa only [update_of_ne apart] using node

/-- A constructor deletes no node; nobody has the number of its core yet. -/
theorem NodesStay.construct {state : State} (safe : Safe state) (config : Config)
    (failure : Option Failure) : NodesStay state (construct state config failure) := by
  have claimed : NodesStay state (claim state config) := by
    intro id node
    have apart : id ≠ state.born := by
      rintro rfl
      rw [safe.unborn state.born (Nat.le_refl _)] at node
      exact nomatch node
    exact (congrArg (fun core => Core.place core .submesh) (update_of_ne apart ..)).trans node
  have reserved : NodesStay state (reserve (claim state config) state.born) := by
    apply claimed.onCore state.born rfl
    intro node
    simpa using node
  have prepared := reserved.prepareServerKernel state.born failure
  unfold RuntimeCore.construct
  simp only
  split
  · exact .refl state
  split
  · exact claimed.unwind _
  split
  · exact prepared.unwind _
  split
  · exact prepared
  split
  · exact prepared.unwind _
  have launched := prepared.launchServerKernel state.born (decide (failure = some .enqueue))
  split
  · exact launched.unwind _
  · exact launched.onCore state.born rfl fun node => node

/-! ## Steps and runs -/

/-- The steps considered: no program is submitted with a shard that is gone, and no runtime
that was never launched is destroyed while its shared program is. -/
def Proper (state : State) : Action → Prop
  | .construct config _ => config.mode = .internal → ∀ service, Completes state config service →
      Whole state service
  | .launch id _ => ∀ service, (state.cores id).service = some service →
      Launchable (state.services service) → Whole state service
  | .destroy id _ _ _ => (state.cores id).config.mode = .external →
      (state.cores id).device = .prepared → ∀ service,
        (state.cores id).service = some service → (state.services service).launched = false
  | _ => True

/-- A change of the list alone. -/
theorem Holds.relist {state : State} (holds : Holds state) (list : PointerStack Nat)
    (kept : ∀ contents, state.failedTeardown.Represents contents → list.Represents contents) :
    Holds { state with failedTeardown := list } := by
  obtain ⟨contents, represents, nodes⟩ := holds.safe.listed
  exact ⟨{ holds.safe with listed := ⟨contents, kept contents represents, nodes⟩ }, holds.steady⟩

/-- The release for tests keeps the invariant. -/
theorem Holds.releaseNode {state : State} (holds : Holds state) {id : Nat}
    (standing : some id ∈ state.failedTeardown.draining) : Holds (releaseNode state id) := by
  obtain ⟨safe, node⟩ := holds.safe.releaseNode standing
  have services : (RuntimeCore.releaseNode state id).services = state.services := by
    unfold RuntimeCore.releaseNode
    split <;> rfl
  refine ⟨safe, fun other => ?_⟩
  rw [services]
  apply (holds.steady other).stays (Or.inl _) (.refl _)
  unfold RuntimeCore.releaseNode
  simp only
  split
  · by_cases at_ : other = id
    · subst at_
      simp only [eraseSlot, State.onCore, update_self]
      refine ⟨rfl, rfl, rfl, rfl, rfl, rfl, rfl, rfl, rfl, fun members => ?_, fun _ => ?_⟩
      · simp [node] at members
      · rw [node]
        exact fun impossible => by cases impossible
    · simp only [eraseSlot, State.onCore, update_of_ne at_]
      exact .refl _
  · exact .refl _

/-- Every proper step keeps the invariant. -/
theorem Holds.step {state after : State} {action : Action} (holds : Holds state)
    (proper : Proper state action) (taken : step state action = some after) : Holds after := by
  cases action with
  | construct config failure =>
    obtain rfl := Option.some.inj taken
    exact holds.construct config failure proper
  | launch id enqueueFails =>
    simp only [RuntimeCore.step] at taken
    split at taken
    · rename_i called
      obtain rfl := Option.some.inj taken
      exact holds.launch called.1 called.2 proper enqueueFails
    · exact nomatch taken
  | terminate id outcome =>
    simp only [RuntimeCore.step] at taken
    split at taken
    · rename_i called
      obtain rfl := Option.some.inj taken
      exact holds.terminate called.1 called.2 outcome
    · exact nomatch taken
  | close id outcome =>
    simp only [RuntimeCore.step] at taken
    split at taken
    · rename_i called
      obtain rfl := Option.some.inj taken
      exact (holds.close called.1 called.2 outcome).1
    · exact nomatch taken
  | destroy id leased first second =>
    simp only [RuntimeCore.step] at taken
    split at taken
    · rename_i called
      obtain rfl := Option.some.inj taken
      split
      · rename_i external
        exact holds.destroyExternal called external leased (proper external)
      · rename_i internal
        have mode : (state.cores id).config.mode = .internal := by
          cases held : (state.cores id).config.mode with
          | internal => rfl
          | external => exact absurd held internal
        exact holds.destroyInternal called mode first second
    · exact nomatch taken
  | push id expected spurious =>
    simp only [RuntimeCore.step] at taken
    split at taken
    · rename_i pushing
      obtain rfl := Option.some.inj taken
      exact holds.relist _ fun contents held => held.attempt pushing spurious
    · exact nomatch taken
  | drain =>
    obtain rfl := Option.some.inj taken
    exact holds.relist _ fun contents held => held.exchange
  | releaseNode id =>
    simp only [RuntimeCore.step] at taken
    split at taken
    · rename_i standing
      obtain rfl := Option.some.inj taken
      exact holds.releaseNode standing
    · exact nomatch taken

/-! ## The guarantee -/

/-- The device program of the core may be running: it was submitted and has not been seen to
end. -/
def MayRun (state : State) (id : Nat) : Prop :=
  (state.cores id).running = true ∨ ∃ service, (state.cores id).joined = some service ∧
    (state.services service).running = true

/-- No construction with these arguments makes a core that is alive. -/
def Refuses (state : State) (config : Config) : Prop :=
  ∀ failure id, ((construct state config failure).cores id).alive = true →
    (state.cores id).alive = true

/-- A shard whose termination has returned while its shared program may still be running,
and that has left its resources to the service. -/
def Retired (state : State) (id : Nat) : Prop :=
  ∃ service, (state.cores id).joined = some service ∧
    (state.services service).running = true ∧ (state.cores id).terminateReturned = true ∧
    (state.cores id).place .submesh = .retired service

/-- What holds in every state reached. -/
structure Keeps (state : State) : Prop where
  /-- What a program that may be running addresses is owned, -/
  owned : ∀ id, MayRun state id → ∀ resource, (state.cores id).config.uses resource = true →
    Owned state id resource
  /-- its shared service exists, -/
  fabric : ∀ id, MayRun state id → ∀ service, (state.cores id).joined = some service →
    Referenced state service
  /-- its slot is claimed unless it is a shard that was retired, -/
  claimed : ∀ id, MayRun state id → state.activeSlots (state.cores id).config.slot = true ∨
    Retired state id
  /-- and no other runtime is constructed on it. -/
  exclusive : ∀ id, MayRun state id → ∀ config, config.slot = (state.cores id).config.slot →
    Refuses state config
  /-- The list holds exactly the quarantined nodes, each once, and their slots are
  claimed. -/
  listed : ∃ contents, state.failedTeardown.Represents contents ∧
    ∀ id, id ∈ contents ↔ (state.cores id).place .submesh = .node
  quarantined : ∀ id, (state.cores id).place .submesh = .node →
    state.activeSlots (state.cores id).config.slot = true

/-- A node is deleted only by the release for tests, once it is safe because the program has
been seen to end. -/
def Deletes (state after : State) (action : Action) : Prop :=
  ∀ id, (state.cores id).place .submesh = .node → (after.cores id).place .submesh = .node ∨
    (action = .releaseNode id ∧ (state.cores id).nodeSafeToRelease = true ∧ ¬ MayRun state id)

/-- A service whose program may be running is referenced by a shard that has not returned. -/
theorem Holds.referenced {state : State} (holds : Holds state) {service : Nat}
    (running : (state.services service).running = true) : Referenced state service := by
  have phase := Service.phase_running.mpr running
  obtain ⟨-, -, -, lists, -, -, shard, inside, pending⟩ :=
    (holds.safe.services service).runs phase
  have join := (lists.2 shard).mp inside
  have fits := holds.safe.cores shard
  have before : shard < state.born := by
    by_contra beyond
    rw [holds.safe.unborn shard (Nat.not_lt.mp beyond)] at join
    exact nomatch join
  refine ⟨shard, before, ?_⟩
  rcases (fits.joins service join phase).2.2.2 with claims | ⟨-, returned⟩
  · rcases claims with members | node
    · exact Or.inl ((holds.steady shard).joined members ▸ join)
    · rcases (fits.held node).2 with unjoined | held
      · exact nomatch unjoined.symm.trans join
      · exact Or.inr (held ▸ join)
  · exact nomatch pending.symm.trans returned

/-- Where a core is whose program may be running. -/
theorem Holds.mayRun {state : State} (holds : Holds state) {id : Nat} (running : MayRun state id) :
    (state.cores id).claims ∨ Retired state id := by
  have fits := holds.safe.cores id
  rcases running with own | ⟨service, join, shared⟩
  · exact Or.inl (fits.runs own).2.2.2.1
  · exact (fits.joins service join (Service.phase_running.mpr shared)).2.2.2.imp_right
      fun left => ⟨service, join, shared, left.2, left.1⟩

/-- What a program that may be running addresses is owned. -/
theorem Holds.owned {state : State} (holds : Holds state) {id : Nat} (running : MayRun state id)
    (resource : Resource) (uses : (state.cores id).config.uses resource = true) :
    Owned state id resource := by
  have fits := holds.safe.cores id
  have submesh : ((state.cores id).place .submesh).Owned state := by
    rcases holds.mayRun running with (members | node) | ⟨service, -, shared, -, retired⟩
    · rw [members]
      trivial
    · rw [node]
      trivial
    · rw [retired]
      exact holds.referenced shared
  have present : (state.cores id).place .submesh ≠ .absent := fun absent => by
    rw [absent] at submesh
    exact submesh
  have same : (state.cores id).place resource = (state.cores id).place .submesh := by
    rcases running with own | ⟨service, join, shared⟩
    · have loaded := fits.loaded own
      by_cases at_ : resource = .workload
      · rw [at_, loaded]
      · have reserved := fits.used (Or.inr (Or.inl (loaded ▸ present))) resource at_ uses
        rcases fits.uniform resource with absent | same | ⟨workload, -⟩
        · exact absurd absent reserved
        · exact same
        · exact absurd workload at_
    · have shares := (fits.shares service join).1
      have apart : resource ≠ .workload := by
        rintro rfl
        simp [Config.uses, shares] at uses
      have joined : (state.cores id).joined ≠ none := by
        rw [join]
        exact nofun
      have reserved := fits.used (Or.inr (Or.inr joined)) resource apart uses
      rcases fits.uniform resource with absent | same | ⟨workload, -⟩
      · exact absurd absent reserved
      · exact same
      · exact absurd workload apart
  unfold Owned
  rwa [same]

/-- A constructor that throws before it launches makes no core that is alive. -/
theorem refuses_unwind {state mid : State}
    (others : ∀ other, other ≠ state.born → mid.cores other = state.cores other) (id : Nat)
    (alive : ((unwind mid state.born).cores id).alive = true) : (state.cores id).alive = true := by
  obtain ⟨-, -, same, -, dead⟩ := unwind_core mid state.born
  by_cases at_ : id = state.born
  · subst at_
    exact absurd (Core.alive_iff.mp alive) dead
  · rwa [same id at_, others id at_] at alive

/-- No other runtime is constructed on a slot whose program may be running.

Proof: the slot is claimed, or the carve-out of a retired shard is still owned. Then a
core with another layout is refused, and a shard of the same layout finds the service
prepared. -/
theorem Holds.exclusive {state : State} (holds : Holds state) {id : Nat}
    (running : MayRun state id) (config : Config)
    (slot : config.slot = (state.cores id).config.slot) : Refuses state config := by
  have fits := holds.safe.cores id
  intro failure other alive
  unfold RuntimeCore.construct at alive
  split at alive
  · exact alive
  rename_i accepted
  rw [not_or] at accepted
  rcases holds.mayRun running with claims | ⟨service, join, shared, returned, retired⟩
  · exact absurd (slot ▸ holds.safe.slots id claims) accepted.2
  have vacant : state.activeSlots config.slot = false := by simpa using accepted.2
  obtain ⟨claimed, reserves⟩ := holds.safe.reserves config vacant
  simp only at alive
  split at alive
  · exact refuses_unwind claimed.others other alive
  rename_i agrees
  rw [not_or] at agrees
  have reserved := reserves agrees.2
  have submesh : config.submesh = (state.cores id).config.submesh := congrArg Prod.fst slot
  obtain ⟨shares, mesh, shards⟩ := fits.shares service join
  have referenced := holds.referenced shared
  have before : id < state.born := by
    by_contra beyond
    rw [holds.safe.unborn id (Nat.not_lt.mp beyond)] at join
    exact nomatch join
  have carved : Owned state id .serverL1 := holds.owned running .serverL1 rfl
  have layout : config.workerGroups = (state.cores id).config.workerGroups := by
    by_contra differs
    apply agrees.2
    refine ⟨fun same => differs ?_, id, before, submesh.symm, carved⟩
    rw [← same, submesh]
    exact holds.safe.carveOut id carved
  have sharesToo : config.sharesProgram = true := by
    unfold Config.sharesProgram Config.workerGroups at *
    grind
  have prepared := ((holds.safe.services service).runs (Service.phase_running.mpr shared)).1
  have found : state.muxRegistry config.submesh = some service := by
    rw [submesh, mesh]
    exact holds.safe.registered service referenced
  have referencedNow : Referenced (reserve (claim state config) state.born) service := by
    obtain ⟨holder, within, refers⟩ := referenced
    refine ⟨holder, Nat.lt_succ_of_lt within, ?_⟩
    rwa [reserved.others holder (Nat.ne_of_lt within)]
  have kept : ((reserve (claim state config) state.born).cores state.born).config = config := by
    rw [reserved.core]
    rfl
  have locked : lockService (reserve (claim state config) state.born) config failure =
      some (reserve (claim state config) state.born, service) := by
    unfold lockService
    have same : (reserve (claim state config) state.born).muxRegistry config.submesh =
        some service := found
    rw [same]
    exact if_pos referencedNow
  have refused : prepareServerKernel (reserve (claim state config) state.born) state.born failure =
      ((reserve (claim state config) state.born).onCore state.born fun core =>
        { core with service := some service }, true) := by
    unfold prepareServerKernel
    simp only [kept, sharesToo, if_true, locked]
    unfold appendShard
    exact if_pos (Or.inr (Or.inr (Or.inl prepared)))
  rw [refused] at alive
  apply refuses_unwind _ other alive
  intro another apart
  simp only [State.onCore, update_of_ne apart]
  exact reserved.others another apart

theorem Holds.keeps {state : State} (holds : Holds state) : Keeps state where
  owned _ running := holds.owned running
  fabric _ running service join := by
    rcases running with own | ⟨shared, joined, runs⟩
    · have unjoined := ((holds.safe.cores _).runs own).2.2.2.2
      exact nomatch unjoined.symm.trans join
    · obtain rfl : shared = service := Option.some.inj (joined.symm.trans join)
      exact holds.referenced runs
  claimed id running := (holds.mayRun running).imp_left (holds.safe.slots id)
  exclusive _ running := holds.exclusive running
  listed := holds.safe.listed
  quarantined id node := holds.safe.slots id (Or.inr node)

/-- A node that is safe is that of a program that has been seen to end. -/
theorem Safe.ended {state : State} (safe : Safe state) {id : Nat}
    (released : (state.cores id).nodeSafeToRelease = true) : ¬ MayRun state id := by
  have fits := safe.cores id
  have harmless := fits.safe released
  rintro (own | ⟨service, join, shared⟩)
  · exact nomatch (fits.runs own).2.1.symm.trans harmless
  · have joins := fits.joins service join (Service.phase_running.mpr shared)
    exact nomatch joins.2.1.symm.trans harmless

/-- A step deletes a node only if it is the release for tests of a safe one. -/
theorem Holds.deletes {state after : State} {action : Action} (holds : Holds state)
    (taken : RuntimeCore.step state action = some after) : Deletes state after action := by
  intro id node
  cases action with
  | construct config failure =>
    obtain rfl := Option.some.inj taken
    exact Or.inl (NodesStay.construct holds.safe config failure id node)
  | launch other enqueueFails =>
    simp only [RuntimeCore.step] at taken
    split at taken
    · obtain rfl := Option.some.inj taken
      exact Or.inl (NodesStay.launch other enqueueFails id node)
    · exact nomatch taken
  | terminate other outcome =>
    simp only [RuntimeCore.step] at taken
    split at taken
    · obtain rfl := Option.some.inj taken
      exact Or.inl (NodesStay.terminate other outcome id node)
    · exact nomatch taken
  | close other outcome =>
    simp only [RuntimeCore.step] at taken
    split at taken
    · obtain rfl := Option.some.inj taken
      exact Or.inl ((NodesStay.refl state).close other outcome id node)
    · exact nomatch taken
  | destroy other leased first second =>
    simp only [RuntimeCore.step] at taken
    split at taken
    · obtain rfl := Option.some.inj taken
      split
      · exact Or.inl (NodesStay.destroyExternal other leased id node)
      · exact Or.inl (NodesStay.destroyInternal other first second id node)
    · exact nomatch taken
  | push other expected spurious =>
    simp only [RuntimeCore.step] at taken
    split at taken
    · obtain rfl := Option.some.inj taken
      exact Or.inl node
    · exact nomatch taken
  | drain =>
    obtain rfl := Option.some.inj taken
    exact Or.inl node
  | releaseNode other =>
    simp only [RuntimeCore.step] at taken
    split at taken
    · obtain rfl := Option.some.inj taken
      by_cases released : (state.cores other).nodeSafeToRelease = true
      · by_cases at_ : id = other
        · subst at_
          exact Or.inr ⟨rfl, released, holds.safe.ended released⟩
        · refine Or.inl ?_
          simp only [RuntimeCore.releaseNode, released, if_true, eraseSlot, State.onCore,
            update_of_ne at_]
          exact node
      · refine Or.inl ?_
        simp only [RuntimeCore.releaseNode, released, Bool.false_eq_true, if_false]
        exact node
    · exact nomatch taken

/-- Quarantine keeps what a live device program can touch: what holds in every state that
proper calls reach, and which nodes a step deletes.

Proof: the invariant of the calls is kept by each of them. A shared program that runs has
a shard that has not returned from its termination; it keeps the service, and with it what
the retired shards have left there. -/
theorem quarantine_keeps {state : State} {trace : List Empty}
    (run : Run (TakesWhere move Proper) start trace state) :
    Keeps state ∧ ∀ action after, step state action = some after → Deletes state after action := by
  have holds := run.invariant Holds
    ⟨start_safe, fun id => ⟨nofun, nofun, fun _ present => absurd rfl present,
      fun _ present => absurd rfl present⟩⟩ <| by
    rintro before events after holds ⟨action, proper, taken⟩
    obtain ⟨next, stepped, same⟩ := Option.map_eq_some_iff.mp taken
    obtain ⟨rfl, -⟩ := Prod.mk.inj same
    exact holds.step proper stepped
  exact ⟨holds.keeps, fun action after taken => holds.deletes taken⟩

/-- A core of its own, and a shard of two. -/
def alone : Config := ⟨.internal, 0, 0, false, 1, true, true, 0, false⟩

def shard (workerGroup : Nat) : Config :=
  ⟨.external, 0, workerGroup, true, 2, true, true, 0, false⟩

/-- Waiting for the program fails in both tries of the destructor. -/
theorem quarantine_keeps_unknown : ∃ trace state,
    Run (TakesWhere move Proper) start trace state ∧ MayRun state 0 ∧
      (state.cores 0).destroyed = true ∧ (state.cores 0).place .dramValue = .node ∧
      Keeps state := by
  have run : Run (TakesWhere move Proper) start _ _ :=
    .next (.next (.next .start
      ⟨.construct alone none, fun _ _ completes => (nomatch completes.1), rfl⟩)
      ⟨.destroy 0 false ⟨false, false, false, .finishFails⟩ ⟨false, false, false, .finishFails⟩,
        fun external => (nomatch external), rfl⟩)
      ⟨.push 0 none false, trivial, rfl⟩
  exact ⟨_, _, run, Or.inl rfl, rfl, rfl, (quarantine_keeps run).1⟩

/-- The first of two shards is terminated and destroyed while their program runs: nothing
of it is left in the core or in a node, and its slot is free. -/
theorem retired_shard_frees_slot : ∃ trace state, Run (Takes move) start trace state ∧
    MayRun state 0 ∧ state.activeSlots (state.cores 0).config.slot = false ∧
      (state.cores 0).place .dramValue = .retired 0 := by
  have begin : Run (Takes move) start [] start := .start
  have executed : Run.execute move start
      [.construct (shard 0) none, .construct (shard 1) none, .launch 0 false, .launch 1 false,
        .terminate 0 .succeeds,
        .destroy 0 false ⟨false, false, false, .succeeds⟩ ⟨false, false, false, .succeeds⟩] =
      some (_, _) := rfl
  have run := begin.execute executed
  exact ⟨_, _, run, Or.inr ⟨0, rfl, rfl⟩, rfl, rfl⟩

end KvCache.RuntimeCore
