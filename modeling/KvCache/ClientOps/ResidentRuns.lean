import KvCache.ClientOps.Resident

/-!
# Runs of a process with resident programs

A client's own program is always one that was built for its session. The resident
workload of a parallel GET has one program for each client it was built for, and where an
address still holds that client, the program is of the client's session. Both are kept by
every call, by creation, which begins a new life at its address, and by destruction.

Hence every GET that a parallel GET sends is the one that a scalar GET of the client would
send, in every run in which a resident workload is used again only for the lives it was
built for. Without this condition it is not: the pointers of the list may point to other
clients than they did.
-/

namespace KvCache.ClientOps

open Function
open Fallible
open ClientLifecycle (ClientOperationsState LifecycleState)

/-! ## The programs of scalar GETs -/

/-- Every client's own program was built for its session. -/
def Scalars (platform : Platform) (programs : Programs) : Prop :=
  ∀ address workload, (programs.getProg address).workload = some workload →
    ∃ program, OfSession platform (programs.session address) program ∧ workload = [program]

/-- Sessions and resident workloads are as given, and the clients' own programs are of
their sessions. -/
structure Steady (platform : Platform) (before programs : Programs) : Prop where
  session : programs.session = before.session
  parallelGetProg : programs.parallelGetProg = before.parallelGetProg
  scalars : Scalars platform programs

theorem Steady.enqueue {platform : Platform} {before programs : Programs}
    (steady : Steady platform before programs) (queue : List QueueEvent) :
    Steady platform before { programs with queue := queue } :=
  ⟨steady.session, steady.parallelGetProg, steady.scalars⟩

/-- An assertion on programs survives a transaction around a call that keeps it. -/
theorem withRequest_keeps {α : Type} (Holds : Programs → Prop) {body : Call α}
    (inside : Meets (fun world => Holds world.programs) body
      (fun _ world => Holds world.programs) (fun world => Holds world.programs))
    (address slots : Nat) (buffer : Option Nat) :
    Meets (fun world => Holds world.programs) (withRequest address slots buffer body)
      (fun _ world => Holds world.programs) (fun world => Holds world.programs) := by
  apply Meets.bind (fun _ world => Holds world.programs)
  · apply Meets.modify
    intro world holds
    rw [programs_beginRequest]
    exact holds
  · intro _
    apply Meets.enclosed inside
    · intro _ world holds
      rw [programs_failRequest]
      exact holds
    · intro world holds
      rw [programs_failRequest]
      exact holds

/-- Enqueueing a request keeps what does not depend on the queue. -/
theorem enqueueRequest_keeps (Holds : Programs → Prop) (address : Nat)
    (events : List QueueEvent) (outcome : Option Failure)
    (enqueued : ∀ programs, Holds programs →
      Holds { programs with queue := programs.queue ++ events }) :
    Meets (fun world => Holds world.programs) (enqueueRequest address events outcome)
      (fun _ world => Holds world.programs) (fun world => Holds world.programs) := by
  have consumed : ∀ world : World, Holds world.programs →
      Holds (world.setClient address
        { world.clients address with testFault := .none }).programs := by
    intro world holds
    rw [programs_consume]
    exact holds
  apply Meets.bind (fun _ world => Holds world.programs)
    (throwAtFault_meets address _ _ consumed)
  intro _
  apply Meets.bind (fun _ world => Holds world.programs)
  · apply Meets.modify
    exact fun _ holds => holds
  intro _
  apply Meets.bind (fun _ world => Holds world.programs)
  · apply Meets.modify
    exact fun world holds => enqueued world.programs holds
  intro _
  apply Meets.bind _ (attempt_meets outcome)
  intro _
  exact throwAtFault_meets address _ _ consumed

theorem commitBarrier_keeps (Holds : Programs → Prop) (address : Nat) (answers : GetAnswers)
    (enqueued : ∀ programs queue, Holds programs → Holds { programs with queue := queue }) :
    Meets (fun world => Holds world.programs) (commitBarrier address answers)
      (fun _ world => Holds world.programs) (fun world => Holds world.programs) := by
  apply withRequest_keeps Holds
  apply Meets.bind _ (attempt_meets _)
  intro _
  apply Meets.bind _ (enqueueRequest_keeps Holds address [] _ fun programs => enqueued programs _)
  intro _
  apply Meets.modify
  intro world holds
  rw [programs_complete]
  exact holds

/-- The program that a scalar launch prepares is the one that would be built now. -/
theorem prepareGetProg_effect {platform : Platform} {world : World}
    (scalars : Scalars platform world.programs) (address : Nat) (fields : GetFields) :
    Meets (· = world) (prepareGetProg platform address fields)
      (fun _ after => ∃ connection compiled,
        serverConnectionRtArgs platform (world.clients address).session = .ok connection ∧
        after = setGetProg address ⟨some [((world.clients address).session.clientCoord,
          buildGetArgs (world.clients address).session fields connection)], compiled⟩ world)
      (· = world) := by
  apply Meets.bind (fun seen after => seen = world ∧ after = world)
    (Meets.look fun _ same => ⟨same, same⟩)
  intro seen
  by_cases same : seen = world
  case neg =>
    intro state impossible
    exact absurd impossible.1 same
  subst same
  dsimp only
  cases resident : (seen.clients address).getProg.workload with
  | none =>
    apply Meets.bind (fun _ after => after = seen)
      (Meets.check (fun _ holds _ => holds.2) fun _ holds _ => holds.2)
    intro _
    apply Meets.bind (fun connection after =>
        serverConnectionRtArgs platform (seen.clients address).session = .ok connection ∧
          after = seen)
      (Meets.ofExcept (fun _ connected _ holds => ⟨connected, holds⟩) fun _ holds => holds)
    intro connection
    apply Meets.modify
    rintro state ⟨connected, rfl⟩
    exact ⟨connection, _, connected, rfl⟩
  | some workload =>
    obtain ⟨program, ⟨fields', connection, connected, rfl⟩, rfl⟩ :=
      scalars address workload resident
    change serverConnectionRtArgs platform (seen.clients address).session = _ at connected
    have distinct : (([] ++ ((seen.clients address).session.clientCoord,
        buildGetArgs (seen.clients address).session fields' connection) :: [] :
          MeshWorkload).map Prod.fst).Nodup := List.nodup_singleton _
    have reads := at_middle distinct
    have writes := setArgs_middle distinct (buildGetArgs (seen.clients address).session fields
      connection)
    rw [List.nil_append] at reads
    apply Meets.bind (fun rta after => rta = buildGetArgs (seen.clients address).session fields'
        connection ∧ after = seen)
    · apply Meets.ofExcept
      · intro rta found state holds
        exact ⟨Except.ok.inj (found.symm.trans reads), holds.2⟩
      · exact fun _ holds => holds.2
    intro rta
    apply Meets.modify
    rintro state ⟨rfl, rfl⟩
    refine ⟨connection, (state.clients address).getProg.compiled, connected, ?_⟩
    rw [overrideGetArgs_build]
    exact congrArg (fun workload => setGetProg address
      ⟨some workload, (state.clients address).getProg.compiled⟩ state) writes

/-- The one program of a scalar launch with the given connection. -/
def scalarWorkload (session : ClientSession) (fields : GetFields) (connection : List Nat) :
    MeshWorkload :=
  [(session.clientCoord, buildGetArgs session fields connection)]

/-- While a scalar GET is launched: what is enqueued is the prepared program. -/
structure Launching (platform : Platform) (before : Programs) (address : Nat)
    (workload : MeshWorkload) (programs : Programs) : Prop where
  steady : Steady platform before programs
  prepared : (programs.getProg address).workload = some workload
  sent : ∀ other, .gets other ∈ programs.queue → .gets other ∈ before.queue ∨ other = workload

/-- A scalar launch prepares and enqueues the program that would be built now, and keeps
all programs of their sessions. -/
theorem launchGetClient_effect {platform : Platform} {world : World}
    (scalars : Scalars platform world.programs) (address : Nat) (fields : GetFields)
    (answers : GetAnswers) :
    let Launched : World → Prop := fun after => Steady platform world.programs after.programs ∧
      ∀ workload, .gets workload ∈ after.queue → .gets workload ∈ world.queue ∨
        ∃ connection,
          serverConnectionRtArgs platform (world.clients address).session = .ok connection ∧
            workload = scalarWorkload (world.clients address).session fields connection
    Meets (· = world) (launchGetClient platform address fields answers) (fun _ => Launched)
      Launched := by
  intro Launched
  have idle : Launched world := ⟨⟨rfl, rfl, scalars⟩, fun _ earlier => .inl earlier⟩
  rintro world rfl
  rcases (prepareGetProg_effect scalars address fields).outcome rfl with
    ⟨failure, after, failed, rfl⟩ | ⟨_, after, prepared, connection, compiled, connected, effect⟩
  · rw [launchGetClient, bind_error failed]
    exact idle
  rw [launchGetClient, bind_ok prepared]
  let Holds : Programs → Prop := Launching platform world.programs address
    (scalarWorkload (world.clients address).session fields connection)
  have launched : ∀ after : World, Holds after.programs → Launched after := by
    intro after holds
    refine ⟨holds.steady, fun workload enqueued => ?_⟩
    rcases holds.sent workload enqueued with earlier | now
    · exact .inl earlier
    · exact .inr ⟨connection, connected, now⟩
  have written : ∀ (base : World) (mark : Bool),
      Steady platform world.programs base.programs →
      (∀ other, .gets other ∈ base.queue → .gets other ∈ world.queue ∨
        other = scalarWorkload (world.clients address).session fields connection) →
      Holds (setGetProg address ⟨some (scalarWorkload (world.clients address).session fields
        connection), mark⟩ base).programs := by
    intro base mark steady sent
    rw [programs_setGetProg]
    refine ⟨⟨steady.session, steady.parallelGetProg, ?_⟩, ?_, sent⟩
    · intro other workload resident
      change (update base.programs.getProg address _ other).workload = some workload at resident
      by_cases same : other = address
      · subst same
        rw [update_self] at resident
        refine ⟨_, ⟨fields, connection, ?_, ?_⟩, (Option.some.inj resident).symm⟩
        · change serverConnectionRtArgs platform (base.programs.session other) = _
          rw [steady.session]
          exact connected
        · change _ = ((base.programs.session other).clientCoord, _)
          rw [steady.session]
          rfl
      · rw [update_of_ne same] at resident
        exact steady.scalars other workload resident
    · change (update base.programs.getProg address _ address).workload = _
      rw [update_self]
  have first : Holds after.programs := by
    rw [effect]
    exact written world compiled ⟨rfl, rfl, scalars⟩ fun _ earlier => .inl earlier
  have compiles : Meets (fun world => Holds world.programs) (compileGetProg address answers.compile)
      (fun _ world => Holds world.programs) (fun world => Holds world.programs) := by
    apply Meets.bind (fun (seen world : World) => Holds world.programs ∧ seen = world)
      (Meets.look fun _ holds => ⟨holds, rfl⟩)
    intro seen
    dsimp only
    split
    · exact Meets.pure fun _ holds => holds.1
    · apply Meets.bind (fun _ (world : World) => Holds world.programs ∧ seen = world)
      · exact Meets.weaken (attempt_meets _) (fun _ holds => holds) (fun _ _ holds => holds)
          fun _ (holds : Holds _ ∧ _) => holds.1
      · intro _
        apply Meets.modify
        rintro base ⟨holds, rfl⟩
        have resident : (seen.clients address).getProg.workload = _ := holds.prepared
        rw [resident]
        exact written seen true holds.steady holds.sent
  have submits : Meets (fun world => Holds world.programs) (do
      let world ← look
      enqueueRequest address [.gets ((world.clients address).getProg.workload.getD [])]
        answers.enqueue) (fun _ world => Holds world.programs)
      (fun world => Holds world.programs) := by
    intro base holds
    have resident : (base.clients address).getProg.workload = _ := holds.prepared
    have enqueues := enqueueRequest_keeps Holds address
      [.gets ((base.clients address).getProg.workload.getD [])] answers.enqueue
    apply enqueues _ base holds
    intro programs kept
    refine ⟨kept.steady.enqueue _, kept.prepared, fun other enqueued => ?_⟩
    rcases List.mem_append.mp enqueued with earlier | now
    · exact kept.sent other earlier
    · rw [resident, Option.getD_some, List.mem_singleton] at now
      exact .inr (QueueEvent.gets.inj now)
  have rest := (Meets.bind _ compiles fun _ => submits) after first
  exact Promised.of_state (launched _ rest.state)

/-- A scalar GET keeps all programs of their sessions. -/
theorem get_steady {platform : Platform} {before : Programs} (address : Nat) (key : List UInt8)
    (tensor : Tensor) (answers : GetAnswers) :
    Meets (fun world => Steady platform before world.programs)
      (get platform address key tensor answers)
      (fun _ world => Steady platform before world.programs)
      (fun world => Steady platform before world.programs) := by
  let Holds : World → Prop := fun world => Steady platform before world.programs
  have keeps : ∀ {α : Type} (outcome : Except Failure α),
      Meets Holds (ofExcept outcome) (fun _ => Holds) Holds := fun outcome =>
    Meets.ofExcept (fun _ _ _ holds => holds) fun _ holds => holds
  have checks : ∀ (condition : Prop) [Decidable condition] (failure : Failure),
      Meets Holds (check condition failure) (fun _ => Holds) Holds := fun condition _ failure =>
    Meets.check (fun _ holds _ => holds) fun _ holds _ => holds
  have launches : ∀ fields, Meets Holds (launchGetClient platform address fields answers)
      (fun _ => Holds) Holds := by
    intro fields world steady
    have effect := launchGetClient_effect steady.scalars address fields answers world rfl
    have onward : ∀ after : World, Steady platform world.programs after.programs →
        Holds after := fun after kept =>
      ⟨kept.session.trans steady.session, kept.parallelGetProg.trans steady.parallelGetProg,
        kept.scalars⟩
    exact Promised.of_state (onward _ effect.state.1)
  apply Meets.bind (fun _ => Holds)
  · apply Meets.bind (fun _ => Holds) (Meets.look fun _ holds => holds)
    intro _
    exact checks _ _
  intro _
  apply Meets.bind (fun _ => Holds) (Meets.look fun _ holds => holds)
  intro seen
  dsimp only
  apply Meets.bind _ (keeps _)
  intro _
  apply Meets.bind _ (keeps _)
  intro _
  apply Meets.bind _ (keeps _)
  intro geometry
  apply Meets.bind _ (commitBarrier_keeps (Steady platform before) address answers
    fun _ queue holds => holds.enqueue queue)
  intro _
  apply withRequest_keeps (Steady platform before)
  apply Meets.bind (fun _ => Holds) (Meets.look fun _ holds => holds)
  intro _
  apply Meets.bind _ (launches _)
  intro _
  apply Meets.bind _ (keeps _)
  intro _
  apply Meets.bind _ (checks _ _)
  intro _
  apply Meets.bind (fun _ => Holds)
  · apply Meets.modify
    intro world holds
    change Steady platform before _
    rw [programs_complete]
    exact holds
  intro _
  apply Meets.bind _ (checks _ _)
  intro _
  exact Meets.pure fun _ holds => holds

theorem close_steady {platform : Platform} {before : Programs} (address : Nat)
    (answers : GetAnswers) (detachSubmitted detached : Bool) :
    Meets (fun world => Steady platform before world.programs)
      (close address answers detachSubmitted detached)
      (fun _ world => Steady platform before world.programs)
      (fun world => Steady platform before world.programs) := by
  let Holds : World → Prop := fun world => Steady platform before world.programs
  apply Meets.bind (fun _ => Holds) (Meets.look fun _ holds => holds)
  intro seen
  split
  · exact Meets.pure fun _ holds => holds
  · apply Meets.bind (fun _ => Holds)
    · apply Meets.bind (fun _ => Holds) (Meets.look fun _ holds => holds)
      intro _
      exact Meets.check (fun _ holds _ => holds) fun _ holds _ => holds
    intro _
    apply Meets.bind _ (commitBarrier_keeps (Steady platform before) address answers
      fun _ queue holds => holds.enqueue queue)
    intro _
    apply Meets.bind (fun _ => Holds)
    · apply Meets.modify
      intro world holds
      change Steady platform before _
      rw [programs_sendDetach]
      exact holds
    intro _
    apply Meets.modify
    intro world holds
    rw [programs_markClosed]
    exact holds

/-! ## Every reachable process -/

/-- The program was built for a life of its address, and if that life goes on, for the
session of the client there. -/
def BuiltFor (platform : Platform) (session : Nat → ClientSession) (births : Nat → Nat)
    (place : Nat × Nat) (program : Nat × List Nat) : Prop :=
  place.2 ≤ births place.1 ∧
    (place.2 = births place.1 → OfSession platform (session place.1) program)

/-- The resident workloads have one program for each life they were built for. -/
def Residents (platform : Platform) (programs : Programs) (births : Nat → Nat)
    (builtFor : Nat → List Nat) : Prop :=
  ∀ owner workload, (programs.parallelGetProg owner).workload = some workload →
    (programs.parallelGetProg owner).operations.length = (builtFor owner).length ∧
      (workload.map Prod.fst).Nodup ∧
      List.Forall₂ (BuiltFor platform programs.session births)
        ((programs.parallelGetProg owner).operations.zip (builtFor owner)) workload

structure Sound (platform : Platform) (process : Process) : Prop where
  scalars : Scalars platform process.world.programs
  residents : Residents platform process.world.programs process.births process.builtFor

theorem builtFor_births {platform : Platform} {session : Nat → ClientSession} {births : Nat → Nat}
    {operations : List Nat} {workload : MeshWorkload} :
    List.Forall₂ (BuiltFor platform session births) (operations.zip (operations.map births))
        workload ↔
      List.Forall₂ (fun address program => OfSession platform (session address) program)
        operations workload := by
  have pairs : operations.zip (operations.map births) =
      operations.map fun address => (address, births address) := by
    induction operations with
    | nil => rfl
    | cons address rest inductionHypothesis =>
      rw [List.map_cons, List.zip_cons_cons, List.map_cons, inductionHypothesis]
  rw [pairs, List.forall₂_map_left_iff]
  constructor
  · exact fun built => built.imp fun _ _ each => each.2 rfl
  · exact fun built => built.imp fun _ _ each => ⟨Nat.le_refl _, fun _ => each⟩

/-- What a call finds resident for the lives it was built for is complete. -/
theorem Sound.found {platform : Platform} {process : Process} (sound : Sound platform process)
    {owner : Nat} {operations : List Nat}
    (sameLives : process.builtFor owner = operations.map process.births)
    (resident : ¬ buildsWorkload process.enter owner operations) :
    Complete platform process.enter.programs owner operations := by
  rw [buildsWorkload, not_or, not_not] at resident
  obtain ⟨present, listed⟩ := resident
  obtain ⟨workload, isWorkload⟩ := Option.ne_none_iff_exists'.mp present
  obtain ⟨-, distinct, built⟩ := sound.residents owner workload isWorkload
  refine ⟨listed, workload, isWorkload, distinct, ?_⟩
  have operationsOf : (process.world.programs.parallelGetProg owner).operations = operations :=
    listed
  rw [operationsOf, sameLives] at built
  exact builtFor_births.mp built

/-- Calls that leave sessions and resident workloads alone keep the process sound. -/
theorem Sound.steady {platform : Platform} {process : Process} (sound : Sound platform process)
    {after : World} (steady : Steady platform process.world.programs after.programs) :
    Sound platform { process with world := after } := by
  refine ⟨steady.scalars, ?_⟩
  intro owner workload resident
  change (after.programs.parallelGetProg owner).workload = some workload at resident
  change (after.programs.parallelGetProg owner).operations.length = _ ∧ _ ∧
    List.Forall₂ (BuiltFor platform after.programs.session process.births)
      ((after.programs.parallelGetProg owner).operations.zip _) workload
  rw [steady.parallelGetProg] at resident ⊢
  rw [steady.session]
  exact sound.residents owner workload resident

theorem Sound.enter {platform : Platform} {process : Process} (sound : Sound platform process) :
    Steady platform process.world.programs process.enter.programs := ⟨rfl, rfl, sound.scalars⟩

/-- A new client has no programs, and the programs built for its address are of earlier
lives. -/
theorem Sound.create {platform : Platform} {process : Process} (sound : Sound platform process)
    (address : Nat) (session : ClientSession) (testFault : ClientOperationsTestFault)
    (alive : Nat → Bool) :
    Sound platform { process with
      world := process.world.setClient address (.established session testFault)
      alive := alive
      births := update process.births address (process.births address + 1) } := by
  let created := ClientOperations.established session testFault
  have sessions : (process.world.setClient address created).programs.session =
      update process.world.programs.session address session :=
    field_setClient (·.session) process.world address created
  have gets : (process.world.setClient address created).programs.getProg =
      update process.world.programs.getProg address ⟨none, false⟩ :=
    field_setClient (·.getProg) process.world address created
  have parallels : (process.world.setClient address created).programs.parallelGetProg =
      update process.world.programs.parallelGetProg address ⟨none, [], false⟩ :=
    field_setClient (·.parallelGetProg) process.world address created
  constructor
  · intro other workload resident
    change ((process.world.setClient address created).programs.getProg other).workload = _
      at resident
    change ∃ program, OfSession platform
      ((process.world.setClient address created).programs.session other) program ∧ _
    rw [gets] at resident
    rw [sessions]
    by_cases same : other = address
    · rw [same, update_self] at resident
      cases resident
    · rw [update_of_ne same] at resident ⊢
      exact sound.scalars other workload resident
  · intro owner workload resident
    change ((process.world.setClient address created).programs.parallelGetProg owner).workload = _
      at resident
    change ((process.world.setClient address created).programs.parallelGetProg
        owner).operations.length = _ ∧ _ ∧
      List.Forall₂ (BuiltFor platform
        (process.world.setClient address created).programs.session
        (update process.births address (process.births address + 1)))
        (((process.world.setClient address created).programs.parallelGetProg
          owner).operations.zip _) workload
    rw [parallels] at resident ⊢
    rw [sessions]
    by_cases same : owner = address
    · rw [same, update_self] at resident
      cases resident
    · rw [update_of_ne same] at resident ⊢
      obtain ⟨counted, distinct, built⟩ := sound.residents owner workload resident
      refine ⟨counted, distinct, built.imp ?_⟩
      rintro ⟨place, birth⟩ program ⟨known, current⟩
      change birth ≤ process.births place at known
      by_cases reborn : place = address
      · subst reborn
        rw [BuiltFor, update_self]
        refine ⟨by omega, fun now => ?_⟩
        change birth = _ at now
        omega
      · rw [BuiltFor, update_of_ne reborn, update_of_ne reborn]
        exact ⟨known, current⟩

theorem remember_other {process : Process} {operations : List Nat} {after : World} {other : Nat}
    (differs : other ≠ operations.headD 0) :
    process.remember operations after other = process.builtFor other := by
  unfold Process.remember
  split
  · exact update_of_ne differs _ _
  · rfl

/-- A resident program that the call left alone keeps the lives it is remembered for. -/
theorem remember_kept {process : Process} {operations : List Nat} {after : World}
    (same : (after.clients (operations.headD 0)).parallelGetProg =
      (process.enter.clients (operations.headD 0)).parallelGetProg) :
    process.remember operations after = process.builtFor := by
  rw [Process.remember, if_neg]
  rintro ⟨builds, found⟩
  apply found
  rw [buildsWorkload] at builds ⊢
  rw [same]
  exact builds

/-- A complete resident program is remembered for the lives of now. -/
theorem remember_complete {platform : Platform} {process : Process} {operations : List Nat}
    {after : World} (complete : Complete platform after.programs (operations.headD 0) operations)
    (sameLives : ¬ buildsWorkload process.enter (operations.headD 0) operations →
      process.builtFor (operations.headD 0) = operations.map process.births) :
    process.remember operations after (operations.headD 0) = operations.map process.births := by
  obtain ⟨listed, workload, isWorkload, -⟩ := complete
  rw [Process.remember]
  by_cases builds : buildsWorkload process.enter (operations.headD 0) operations
  · have present : ¬ buildsWorkload after (operations.headD 0) operations := by
      rw [buildsWorkload, not_or, not_not]
      refine ⟨fun none => ?_, listed⟩
      exact absurd (isWorkload.symm.trans none) (by simp)
    rw [if_pos ⟨builds, present⟩, update_self]
  · rw [if_neg fun both => builds both.1]
    exact sameLives builds

/-- A parallel GET that uses a resident workload for the lives it was built for keeps the
process sound. -/
theorem Sound.getParallel {platform : Platform} {process : Process}
    (sound : Sound platform process) {operations : List Nat}
    {entries : List (Nat × Nat × List UInt8)} {tensor : Tensor} {after : World}
    (called : Called platform tensor process.enter (operations.headD 0) operations entries
      after.programs)
    (sameLives : ¬ buildsWorkload process.enter (operations.headD 0) operations →
      process.builtFor (operations.headD 0) = operations.map process.births) :
    Sound platform
      { process with world := after, builtFor := process.remember operations after } := by
  constructor
  · intro address workload resident
    change (after.programs.getProg address).workload = some workload at resident
    change ∃ program, OfSession platform (after.programs.session address) program ∧ _
    rw [called.framed.getProg] at resident
    rw [called.framed.session]
    exact sound.scalars address workload resident
  · intro other workload resident
    change (after.programs.parallelGetProg other).workload = some workload at resident
    change (after.programs.parallelGetProg other).operations.length =
        (process.remember operations after other).length ∧ _ ∧
      List.Forall₂ (BuiltFor platform after.programs.session process.births)
        ((after.programs.parallelGetProg other).operations.zip
          (process.remember operations after other)) workload
    rw [called.framed.session]
    by_cases isOwner : other = operations.headD 0
    · subst isOwner
      rcases called.resident with same | gone | complete
      · rw [remember_kept same, same]
        rw [same] at resident
        exact sound.residents _ workload resident
      · rw [gone] at resident
        cases resident
      · rw [remember_complete complete sameLives]
        obtain ⟨listed, built, isBuilt, distinct, ofSession⟩ := complete
        rw [isBuilt] at resident
        obtain rfl := Option.some.inj resident
        rw [listed]
        refine ⟨(List.length_map _).symm, distinct, builtFor_births.mpr ?_⟩
        rw [called.framed.session] at ofSession
        exact ofSession
    · rw [remember_other isOwner, called.framed.others other isOwner]
      rw [called.framed.others other isOwner] at resident
      exact sound.residents other workload resident

/-! ## The result -/

/-- The program has this client's current words: every argument is computed from the
client's members, the request of this call, the key and the tensor, and a scalar launch
with the same request enqueues the same program. -/
def CurrentProgram (platform : Platform) (found : World) (tensor : Tensor)
    (request : Nat × List UInt8) (program : Nat × List Nat) : Prop :=
  let client := found.clients request.1
  ∃ geometry connection,
    outputGeometry tensor client.session.maxGetChunks "get_parallel" = .ok geometry ∧
    serverConnectionRtArgs platform client.session = .ok connection ∧
    program = (client.session.clientCoord, buildGetArgs client.session
      (getFields (client.newRequest 1) request.2 tensor geometry) connection) ∧
    ∀ answers workload, .gets workload ∈ (launchGetClient platform request.1
        (getFields (client.newRequest 1) request.2 tensor geometry) answers found).2.queue →
      workload = [program]

/-- The workload has the current program of each listed client. -/
def Current (platform : Platform) (sent : SentGets) : Prop :=
  List.Forall₂ (CurrentProgram platform sent.found sent.tensor) (sent.operations.zip sent.keys)
    sent.workload

theorem entries_pairs (operations : List Nat) (keys : List (List UInt8)) (first : Nat) :
    (((operations.zipIdx first).zip keys).map fun ((address, i), key) => (i, address, key)).map
        (·.2) = operations.zip keys := by
  induction operations generalizing keys first with
  | nil => rfl
  | cons address rest inductionHypothesis =>
    cases keys with
    | nil => rfl
    | cons key others =>
      rw [List.zipIdx_cons, List.zip_cons_cons, List.map_cons, List.map_cons,
        inductionHypothesis others (first + 1), List.zip_cons_cons]

/-- Exact programs are current. -/
theorem current_of_exact {platform : Platform} {found : World} {operations : List Nat}
    {keys : List (List UInt8)} {tensor : Tensor} {workload : MeshWorkload}
    (scalars : Scalars platform found.programs) (queue : found.queue = [])
    (exactly : AllExact platform tensor found
      ((operations.zipIdx.zip keys).map fun ((address, i), key) => (i, address, key)) workload) :
    Current platform ⟨found, operations, keys, tensor, workload⟩ := by
  change List.Forall₂ (CurrentProgram platform found tensor) (operations.zip keys) workload
  rw [← entries_pairs operations keys 0, List.forall₂_map_left_iff]
  apply exactly.imp
  rintro ⟨i, address, key⟩ program ⟨geometry, connection, output, layout, connected, same⟩
  refine ⟨geometry, connection, output, connected, same, ?_⟩
  intro answers launched enqueued
  have effect := launchGetClient_effect scalars address (getFields
    ((found.clients address).newRequest 1) key tensor geometry) answers found rfl
  rcases effect.state.2 launched enqueued with earlier | ⟨used, isUsed, isLaunched⟩
  · rw [queue] at earlier
    exact absurd earlier List.not_mem_nil
  · obtain rfl : used = connection := Except.ok.inj (isUsed.symm.trans connected)
    rw [isLaunched, same]
    rfl

/-- One step of a sound process. -/
theorem Sound.step {platform : Platform} {process after : Process} {action : ProcessAction}
    {sent : List SentGets} (sound : Sound platform process) (same : SameLives process action)
    (stepped : processStep platform process action = some (after, sent)) :
    Sound platform after ∧ ∀ gets ∈ sent, Current platform gets := by
  cases action with
  | create address config descriptor clientToken testFault =>
    rw [processStep] at stepped
    split at stepped
    · obtain ⟨rfl, rfl⟩ := Prod.mk.inj (Option.some.inj stepped)
      exact ⟨sound.create address _ testFault _, fun _ none => absurd none List.not_mem_nil⟩
    · cases stepped
  | get address key tensor answers =>
    rw [processStep] at stepped
    split at stepped
    · obtain ⟨rfl, rfl⟩ := Prod.mk.inj (Option.some.inj stepped)
      have kept := (get_steady address key tensor answers process.enter sound.enter).state
      exact ⟨sound.steady kept, fun _ none => absurd none List.not_mem_nil⟩
    · cases stepped
  | getParallel operations keys tensor answers =>
    rw [processStep] at stepped
    split at stepped
    case isFalse => cases stepped
    next admitted =>
    obtain ⟨rfl, rfl⟩ := Prod.mk.inj (Option.some.inj stepped)
    have called : Called platform tensor process.enter (operations.headD 0) operations
        ((operations.zipIdx.zip keys).map fun ((address, i), key) => (i, address, key))
        (ClientOps.getParallel platform operations keys tensor answers
          process.enter).2.programs :=
      getParallel_called answers rfl admitted.2 fun resident =>
        sound.found (same resident) resident
    refine ⟨sound.getParallel called same, ?_⟩
    intro gets isSent
    obtain ⟨event, enqueued, isEvent⟩ := List.mem_filterMap.mp isSent
    cases event with
    | statusesRead buffers => cases isEvent
    | gets workload =>
      obtain rfl := Option.some.inj isEvent
      exact current_of_exact sound.scalars rfl (called.sent workload enqueued)
  | request address slots tensorBuffer submitted completed =>
    rw [processStep] at stepped
    split at stepped
    · obtain ⟨rfl, rfl⟩ := Prod.mk.inj (Option.some.inj stepped)
      refine ⟨sound.steady ?_, fun _ none => absurd none List.not_mem_nil⟩
      rw [programs_runRequest]
      exact sound.enter
    · cases stepped
  | close address answers detachSubmitted detached =>
    rw [processStep] at stepped
    split at stepped
    · obtain ⟨rfl, rfl⟩ := Prod.mk.inj (Option.some.inj stepped)
      have kept := (close_steady address answers detachSubmitted detached process.enter
        sound.enter).state
      exact ⟨sound.steady kept, fun _ none => absurd none List.not_mem_nil⟩
    · cases stepped
  | destroy address =>
    rw [processStep] at stepped
    split at stepped
    · obtain ⟨rfl, rfl⟩ := Prod.mk.inj (Option.some.inj stepped)
      exact ⟨⟨sound.scalars, sound.residents⟩, fun _ none => absurd none List.not_mem_nil⟩
    · cases stepped

theorem Sound.initial (platform : Platform) (blank : ClientSession)
    (requests : Nat → RequestTransaction) :
    Sound platform (Process.initial blank requests) := by
  constructor
  · intro address workload resident
    cases resident
  · intro owner workload resident
    cases resident

/-- In every run in which a resident workload is used again only for the lives it was
built for, every workload of a parallel GET has the current program of each listed
client.

Proof: by the step lemma, along the run. -/
theorem resident_gets_are_current {platform : Platform} {blank : ClientSession}
    {requests : Nat → RequestTransaction} {sent : List SentGets} {process : Process}
    (run : Run.Run (Run.TakesWhere (processStep platform) SameLives)
      (Process.initial blank requests) sent process) :
    ∀ gets ∈ sent, Current platform gets := by
  suffices both : Sound platform process ∧ ∀ gets ∈ sent, Current platform gets from both.2
  induction run with
  | start => exact ⟨Sound.initial platform blank requests, fun _ none => absurd none List.not_mem_nil⟩
  | next _ step inductionHypothesis =>
    obtain ⟨action, same, stepped⟩ := step
    obtain ⟨sound, current⟩ := inductionHypothesis
    obtain ⟨after, now⟩ := sound.step same stepped
    refine ⟨after, fun gets isSent => ?_⟩
    rcases List.mem_append.mp isSent with earlier | isNow
    · exact current gets earlier
    · exact now gets isNow

/-! ## A client at the address of another -/

/-- The session token stands behind the arguments of the base. -/
def rtaClientToken : Nat := 14

theorem buildGetArgs_token (session : ClientSession) (fields : GetFields)
    (connection : List Nat) :
    (buildGetArgs session fields connection)[rtaClientToken]? = some session.clientToken := rfl

/-- A current workload carries the session tokens of the clients as they are. -/
theorem Current.tokens {platform : Platform} {sent : SentGets} (current : Current platform sent) :
    sent.workload.map (fun program => program.2[rtaClientToken]?) =
      (sent.operations.zip sent.keys).map fun request =>
        some (sent.found.clients request.1).session.clientToken := by
  unfold Current at current
  generalize sent.workload = workload at current
  generalize sent.operations.zip sent.keys = listed at current
  induction current with
  | nil => rfl
  | cons each _ inductionHypothesis =>
    obtain ⟨geometry, connection, -, -, rfl, -⟩ := each
    rw [List.map_cons, List.map_cons, inductionHypothesis, buildGetArgs_token]

def sampleConfig (chip : Nat) : ClientOperationsConfig where
  clientMesh := 1
  clientCoord := chip
  clientL1Base := 0x40000
  statusBufBase := 0x50000
  routeWordToServer := 3
  fabricLinkIdx := 0
  staticIntermeshLane := 0
  staticIntermeshGalaxyToT3k := false

def sampleCreate (address chip generation : Nat) : ProcessAction :=
  .create address (sampleConfig chip) sampleDescriptor
    (Session.makeClientToken chip generation) .none

/-- Both values are found. -/
def sampleGets : ProcessAction :=
  .getParallel [11, 12] [[1], [2]] sampleTensor (answering [1, 1])

def sampleInitial : Process :=
  Process.initial (sampleClient 0 0).session fun _ => sampleRequest

/-- Two clients, a parallel GET on them, and a third client at the chip and the address of
the second, which was closed and destroyed. -/
def reusedAddress : List ProcessAction :=
  [sampleCreate 11 0 5, sampleCreate 12 1 5, sampleGets,
    .close 12 ⟨none, none, none, none, .ok []⟩ true true, .destroy 12, sampleCreate 12 1 6,
    sampleGets]

/-- Two parallel GETs on the same two clients. -/
def sameClients : List ProcessAction :=
  [sampleCreate 11 0 5, sampleCreate 12 1 5, sampleGets, sampleGets]

/-- The tokens that each workload of a run carries, and those of its clients. -/
def tokensSent (actions : List ProcessAction) :
    Option (List (List (Option Nat) × List (Option Nat))) :=
  (Run.execute (processStep samplePlatform) sampleInitial actions).map fun (_, sent) =>
    sent.map fun gets => (gets.workload.map fun program => program.2[rtaClientToken]?,
      (gets.operations.zip gets.keys).map fun request =>
        some (gets.found.clients request.1).session.clientToken)

/-- The second parallel GET sends the token of the session that is gone. -/
theorem reused_address_is_stale :
    ¬ ∀ (platform : Platform) (blank : ClientSession) (requests : Nat → RequestTransaction)
        (sent : List SentGets) (process : Process),
      Run.Run (Run.Takes (processStep platform)) (Process.initial blank requests) sent process →
        ∀ gets ∈ sent, Current platform gets := by
  intro claim
  have tokens : tokensSent reusedAddress =
      some [([some 160, some 161], [some 160, some 161]),
        ([some 160, some 161], [some 160, some 193])] := by
    decide +kernel
  cases executed : Run.execute (processStep samplePlatform) sampleInitial reusedAddress with
  | none =>
    rw [tokensSent, executed] at tokens
    cases tokens
  | some last =>
    obtain ⟨process, sent⟩ := last
    have current := claim samplePlatform _ _ _ process (Run.Run.execute .start executed)
    rw [tokensSent, executed] at tokens
    have stale : ([some 160, some 161], [some 160, some 193]) ∈
        sent.map fun gets => (gets.workload.map fun program => program.2[rtaClientToken]?,
          (gets.operations.zip gets.keys).map fun request =>
            some (gets.found.clients request.1).session.clientToken) := by
      rw [show sent.map _ = _ from Option.some.inj tokens]
      exact List.mem_cons_of_mem _ List.mem_cons_self
    obtain ⟨gets, isSent, both⟩ := List.mem_map.mp stale
    have equal := (current gets isSent).tokens
    rw [(Prod.mk.inj both).1, (Prod.mk.inj both).2] at equal
    exact absurd equal (by decide)

/-- A run whose second parallel GET uses the resident workload for the clients that it was
built for. -/
theorem same_clients_are_current :
    ∃ process sent, sent.length = 2 ∧
      Run.Run (Run.TakesWhere (processStep samplePlatform) SameLives) sampleInitial sent process ∧
        ∀ gets ∈ sent, Current samplePlatform gets := by
  have sends : ((Run.execute (Run.guarded (processStep samplePlatform) SameLives) sampleInitial
      sameClients).map fun last => last.2.length) = some 2 := by
    decide +kernel
  cases executed : Run.execute (Run.guarded (processStep samplePlatform) SameLives) sampleInitial
      sameClients with
  | none =>
    rw [executed] at sends
    cases sends
  | some last =>
    obtain ⟨process, sent⟩ := last
    rw [executed] at sends
    have run := (Run.Run.execute .start executed).mono fun _ _ _ => Run.guarded_takes
    exact ⟨process, sent, Option.some.inj sends, run, resident_gets_are_current run⟩

end KvCache.ClientOps
