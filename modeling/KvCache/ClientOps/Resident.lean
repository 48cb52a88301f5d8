import KvCache.ClientOps.Completion
import KvCache.ClientOps.Process

/-!
# Resident programs of parallel GETs

A resident program is found again by the list of pointers it was built for, and a request
overwrites only the words that differ from one request of a client to the next. The rest
was written when the program was built: the operation, the addresses of the client's and
the server's buffers, the route, the session token, the status address and the words of
the connection. If the listed addresses still hold the clients of the build, these words
are current and every program is the one that a scalar GET would send. If one of them was
destroyed and its address given to another client at the same coordinate, they are those
of the client that is gone.
-/

namespace KvCache.ClientOps

open Function
open Fallible
open ClientLifecycle (ClientOperationsState LifecycleState)

/-! ## Overwriting the words of a request -/

theorem keyWords_length (key : List UInt8) : (keyWords key).length = 32 := by
  have folded : ∀ (bytes : List (UInt8 × Nat)) (words : List Nat),
      (bytes.foldl (fun words entry =>
        words.modify (entry.2 >>> 2) (· ||| (entry.1.toNat <<< ((entry.2 &&& 3) * 8)))) words).length
        = words.length := by
    intro bytes
    induction bytes with
    | nil => exact fun _ => rfl
    | cons first rest inductionHypothesis =>
      intro words
      rw [List.foldl_cons, inductionHypothesis]
      exact List.length_modify ..
  exact folded _ _

/-- Writing a segment word by word replaces it. -/
theorem overwrite_segment (front old back new : List Nat) (same : old.length = new.length) :
    (List.range new.length).foldl
        (fun words word => words.set (front.length + word) (new.getD word 0))
        (front ++ old ++ back) = front ++ new ++ back := by
  suffices general : ∀ count ≤ new.length,
      (List.range count).foldl
          (fun words word => words.set (front.length + word) (new.getD word 0))
          (front ++ old ++ back) = front ++ (new.take count ++ old.drop count) ++ back by
    have whole := general new.length (Nat.le_refl _)
    rw [whole, List.take_length, List.drop_of_length_le (Nat.le_of_eq same), List.append_nil]
  intro count
  induction count with
  | zero => intro _; rfl
  | succ count inductionHypothesis =>
    intro within
    rw [List.range_succ, List.foldl_append, inductionHypothesis (Nat.le_of_succ_le within)]
    have inNew : count < new.length := within
    have inOld : count < old.length := same ▸ within
    have read : new.getD count 0 = new[count] := by simp [inNew]
    rw [List.foldl_cons, List.foldl_nil, List.append_assoc, List.set_append_right _ _ (by omega),
      Nat.add_sub_cancel_left, List.append_assoc, List.set_append_right _ _ (by simp),
      List.length_take_of_le (Nat.le_of_lt inNew), Nat.sub_self, List.drop_eq_getElem_cons inOld,
      List.cons_append, List.set_cons_zero, List.take_succ_eq_append_getElem inNew, read]
    simp only [List.append_assoc, List.cons_append, List.nil_append]

/-- Overwriting the words of a program that was built for the same session gives the program
that would be built now. -/
theorem overrideGetArgs_build (session : ClientSession) (old new : GetFields)
    (connection : List Nat) :
    overrideGetArgs (buildGetArgs session old connection) session new =
      buildGetArgs session new connection := by
  have segment := overwrite_segment
    ((new.rtArgs session).toVec session.clientToken ++ [new.seq, new.key.length])
    (keyWords old.key) ([session.statusBufBase, 0] ++ connection) (keyWords new.key)
    ((keyWords_length _).trans (keyWords_length _).symm)
  rw [keyWords_length] at segment
  have built : ∀ fields, buildGetArgs session fields connection =
      (fields.rtArgs session).toVec session.clientToken ++ [fields.seq, fields.key.length] ++
        keyWords fields.key ++ ([session.statusBufBase, 0] ++ connection) :=
    fun fields => List.append_assoc ..
  rw [built, built, ← segment]
  rfl

/-! ## Programs of a workload -/

theorem at_middle {front back : MeshWorkload} {chip : Nat} {args : List Nat}
    (distinct : ((front ++ (chip, args) :: back).map Prod.fst).Nodup) :
    MeshWorkload.at (front ++ (chip, args) :: back) chip = .ok args := by
  induction front with
  | nil => simp [MeshWorkload.at]
  | cons program rest inductionHypothesis =>
    rw [List.cons_append, List.map_cons, List.nodup_cons] at distinct
    have differ : chip ≠ program.1 := by
      rintro rfl
      apply distinct.1
      simp
    have behind := inductionHypothesis distinct.2
    rw [MeshWorkload.at, List.cons_append, List.lookup_cons, beq_false_of_ne differ]
    exact behind

theorem setArgs_absent {workload : MeshWorkload} {chip : Nat} {args : List Nat}
    (absent : chip ∉ workload.map Prod.fst) : workload.setArgs chip args = workload := by
  have same : workload.map (fun program =>
      if program.1 = chip then (chip, args) else program) = workload.map id := by
    apply List.map_congr_left
    intro program listed
    rw [if_neg]
    · rfl
    · rintro rfl
      exact absent (List.mem_map_of_mem listed)
  rw [MeshWorkload.setArgs, same, List.map_id]

theorem setArgs_middle {front back : MeshWorkload} {chip : Nat} {old : List Nat}
    (distinct : ((front ++ (chip, old) :: back).map Prod.fst).Nodup) (new : List Nat) :
    MeshWorkload.setArgs (front ++ (chip, old) :: back) chip new =
      front ++ (chip, new) :: back := by
  rw [List.map_append, List.map_cons, List.nodup_append] at distinct
  obtain ⟨-, behind, apart⟩ := distinct
  rw [List.nodup_cons] at behind
  have inFront : MeshWorkload.setArgs front chip new = front := by
    apply setArgs_absent
    intro listed
    exact apart chip listed chip List.mem_cons_self rfl
  have inBack : MeshWorkload.setArgs back chip new = back := setArgs_absent behind.1
  rw [MeshWorkload.setArgs, List.map_append, List.map_cons, if_pos rfl]
  exact congrArg₂ (· ++ (chip, new) :: ·) inFront inBack

theorem addProgram_ok {workload after : MeshWorkload} {chip : Nat} {args : List Nat}
    (added : workload.addProgram chip args = .ok after) :
    after = workload ++ [(chip, args)] ∧ chip ∉ workload.map Prod.fst := by
  rw [MeshWorkload.addProgram] at added
  split at added
  · cases added
  · next absent =>
    cases added
    refine ⟨rfl, fun listed => absent ?_⟩
    obtain ⟨program, isProgram, rfl⟩ := List.mem_map.mp listed
    rw [List.lookup_isSome_iff]
    exact ⟨program, isProgram, beq_self_eq_true _⟩

/-- The program was built for a client of this session. -/
def OfSession (platform : Platform) (session : ClientSession) (program : Nat × List Nat) : Prop :=
  ∃ fields connection, serverConnectionRtArgs platform session = .ok connection ∧
    program = (session.clientCoord, buildGetArgs session fields connection)

/-- The program has the words of a GET of this client, of its next request and nobody
else. -/
def Exact (platform : Platform) (tensor : Tensor) (client : ClientOperations) (key : List UInt8)
    (program : Nat × List Nat) : Prop :=
  ∃ geometry connection,
    outputGeometry tensor client.session.maxGetChunks "get_parallel" = .ok geometry ∧
      sameDramLayout platform client.session ∧
      serverConnectionRtArgs platform client.session = .ok connection ∧
      program = (client.session.clientCoord, buildGetArgs client.session
        (getFields (client.newRequest 1) key tensor geometry) connection)

theorem Exact.ofSession {platform : Platform} {tensor : Tensor} {client : ClientOperations}
    {key : List UInt8} {program : Nat × List Nat}
    (exactly : Exact platform tensor client key program) :
    OfSession platform client.session program := by
  obtain ⟨geometry, connection, -, -, connected, same⟩ := exactly
  exact ⟨_, connection, connected, same⟩

/-- A resident workload has one program for each listed client, built for its session. -/
def Complete (platform : Platform) (programs : Programs) (owner : Nat) (operations : List Nat) :
    Prop :=
  (programs.parallelGetProg owner).operations = operations ∧
    ∃ workload, (programs.parallelGetProg owner).workload = some workload ∧
      (workload.map Prod.fst).Nodup ∧
      List.Forall₂ (fun address program => OfSession platform (programs.session address) program)
        operations workload

/-! ## One call -/

section Call

variable (platform : Platform) (tensor : Tensor) (start : World) (owner : Nat) (build : Bool)
  (operations : List Nat) (entries : List (Nat × Nat × List UInt8))

/-- The programs of the other clients and the clients' own are as at the start. -/
structure Framed (programs : Programs) : Prop where
  session : programs.session = start.programs.session
  getProg : programs.getProg = start.programs.getProg
  others : ∀ other, other ≠ owner →
    programs.parallelGetProg other = start.programs.parallelGetProg other

/-- The programs are those of this call's requests. -/
def AllExact (listed : List (Nat × Nat × List UInt8)) (workload : MeshWorkload) : Prop :=
  List.Forall₂ (fun entry program =>
    Exact platform tensor (start.clients entry.2.1) entry.2.2 program) listed workload

/-- The programs were built for the sessions of these clients. -/
def AllOfSession (listed : List (Nat × Nat × List UInt8)) (workload : MeshWorkload) : Prop :=
  List.Forall₂ (fun entry program =>
    OfSession platform (start.clients entry.2.1).session program) listed workload

/-- In the preparing loop: the programs of the clients behind are exact, those of the
clients ahead are not there yet or of an earlier request. -/
structure Filling (behind ahead : List (Nat × Nat × List UInt8)) (programs : Programs) :
    Prop where
  framed : Framed start owner programs
  listed : (programs.parallelGetProg owner).operations = operations
  guard : programs.buildGuard = if build then some owner else none
  queue : programs.queue = []
  workload : ∃ front back, (programs.parallelGetProg owner).workload = some (front ++ back) ∧
    ((front ++ back).map Prod.fst).Nodup ∧ AllExact platform tensor start behind front ∧
    if build then back = [] else AllOfSession platform start ahead back

/-- Where a call is left: the resident program is guarded and will be dropped, or it is
complete; what was enqueued is exact. -/
structure Left (programs : Programs) : Prop where
  framed : Framed start owner programs
  resident : programs.buildGuard = some owner ∨
    programs.buildGuard = none ∧ Complete platform programs owner operations
  sent : ∀ workload, .gets workload ∈ programs.queue →
    AllExact platform tensor start entries workload

variable {platform tensor start owner build operations entries}

theorem AllExact.allOfSession {listed : List (Nat × Nat × List UInt8)} {workload : MeshWorkload}
    (exactly : AllExact platform tensor start listed workload) :
    AllOfSession platform start listed workload :=
  List.Forall₂.imp (fun _ _ => Exact.ofSession) exactly

theorem complete_of {programs : Programs} {workload : MeshWorkload}
    (addresses : entries.map (·.2.1) = operations) (framed : Framed start owner programs)
    (listed : (programs.parallelGetProg owner).operations = operations)
    (resident : (programs.parallelGetProg owner).workload = some workload)
    (distinct : (workload.map Prod.fst).Nodup)
    (built : AllOfSession platform start entries workload) :
    Complete platform programs owner operations := by
  refine ⟨listed, workload, resident, distinct, ?_⟩
  rw [← addresses, List.forall₂_map_left_iff, framed.session]
  exact built

/-- The preparing loop can be left at any time. -/
theorem Filling.left {behind ahead : List (Nat × Nat × List UInt8)} {programs : Programs}
    (addresses : entries.map (·.2.1) = operations) (whole : behind ++ ahead = entries)
    (filling : Filling platform tensor start owner build operations behind ahead programs) :
    Left platform tensor start owner operations entries programs := by
  refine ⟨filling.framed, ?_, ?_⟩
  · obtain ⟨front, back, resident, distinct, exactly, rest⟩ := filling.workload
    cases build with
    | true => exact .inl filling.guard
    | false =>
      refine .inr ⟨filling.guard, complete_of addresses filling.framed filling.listed resident
        distinct ?_⟩
      rw [← whole]
      exact List.rel_append exactly.allOfSession rest
  · intro workload enqueued
    rw [filling.queue] at enqueued
    exact absurd enqueued List.not_mem_nil

/-- Filling in one program moves its client from the ones ahead to the ones behind. -/
theorem Filling.fill {behind ahead : List (Nat × Nat × List UInt8)} {world : World}
    {i address : Nat} {key : List UInt8} {geometry : Nat × Nat × Nat} {workload : MeshWorkload}
    (filling : Filling platform tensor start owner build operations behind
      ((i, address, key) :: ahead) world.programs)
    (request : world.requests address = (start.clients address).newRequest 1)
    (output : outputGeometry tensor (start.clients address).session.maxGetChunks "get_parallel" =
      .ok geometry)
    (layout : sameDramLayout platform (start.clients address).session)
    (filled : fillWorkload platform build (start.clients address).session
      (getFields (world.requests address) key tensor geometry)
      ((world.clients owner).parallelGetProg.workload.getD []) = .ok workload) :
    Filling platform tensor start owner build operations (behind ++ [(i, address, key)]) ahead
      (setParallelGetProg owner
        { (world.clients owner).parallelGetProg with workload := some workload } world).programs := by
  obtain ⟨front, back, resident, distinct, exactly, rest⟩ := filling.workload
  have held : (world.clients owner).parallelGetProg.workload = some (front ++ back) := resident
  rw [held, Option.getD_some, request] at filled
  rw [programs_setParallelGetProg]
  refine ⟨⟨filling.framed.session, filling.framed.getProg, fun other differs => ?_⟩, ?_,
    filling.guard, filling.queue, ?_⟩
  · change update world.programs.parallelGetProg owner _ other = _
    rw [update_of_ne differs]
    exact filling.framed.others other differs
  · change (update world.programs.parallelGetProg owner _ owner).operations = _
    rw [update_self]
    exact filling.listed
  · change ∃ front back, (update world.programs.parallelGetProg owner _ owner).workload = _ ∧ _
    rw [update_self]
    cases build with
    | true =>
      obtain rfl : back = [] := rest
      rw [List.append_nil] at filled distinct
      cases connected : serverConnectionRtArgs platform (start.clients address).session with
      | error failure =>
        simp only [fillWorkload, connected, if_true] at filled
        cases filled
      | ok connection =>
        simp only [fillWorkload, connected, if_true] at filled
        obtain ⟨rfl, absent⟩ := addProgram_ok filled
        refine ⟨_, [], congrArg some (List.append_nil _).symm, ?_, ?_, rfl⟩
        · rw [List.append_nil, List.map_append, List.nodup_append]
          refine ⟨distinct, List.nodup_singleton _, ?_⟩
          intro chip isFront other isNew same
          rw [List.map_singleton, List.mem_singleton] at isNew
          rw [same, isNew] at isFront
          exact absent isFront
        · exact List.rel_append exactly
            (.cons ⟨geometry, connection, output, layout, connected, rfl⟩ .nil)
    | false =>
      obtain ⟨program, others, ⟨fields, connection, connected, rfl⟩, behindRest, rfl⟩ :=
        List.forall₂_cons_left_iff.mp rest
      have overwritten : workload = front ++ ((start.clients address).session.clientCoord,
          buildGetArgs (start.clients address).session
            (getFields ((start.clients address).newRequest 1) key tensor geometry) connection) ::
          others := by
        simp only [fillWorkload, if_false, Bool.false_eq_true, at_middle distinct] at filled
        change Except.ok _ = Except.ok workload at filled
        rw [setArgs_middle distinct, overrideGetArgs_build] at filled
        exact (Except.ok.inj filled).symm
      rw [List.map_append, List.map_cons] at distinct
      refine ⟨_, others, congrArg some (overwritten.trans (List.append_cons ..)), ?_, ?_,
        behindRest⟩
      · rw [← List.append_cons, List.map_append, List.map_cons]
        exact distinct
      · exact List.rel_append exactly
          (.cons ⟨geometry, connection, output, layout, connected, rfl⟩ .nil)

/-- The call begins with nothing built, or with what it finds resident. -/
theorem Filling.begin (queue : start.queue = []) (addresses : entries.map (·.2.1) = operations)
    (found : ¬ buildsWorkload start owner operations →
      Complete platform start.programs owner operations) :
    Filling platform tensor start owner (decide (buildsWorkload start owner operations))
      operations [] entries (openResident owner operations start).programs := by
  by_cases builds : buildsWorkload start owner operations
  · rw [openResident, if_pos builds, decide_eq_true builds]
    have opened : ({ setParallelGetProg owner ⟨some [], operations, false⟩ start with
        buildGuard := some owner } : World).programs =
        { (setParallelGetProg owner ⟨some [], operations, false⟩ start).programs with
          buildGuard := some owner } := rfl
    rw [opened, programs_setParallelGetProg]
    refine ⟨⟨rfl, rfl, fun other differs => update_of_ne differs _ _⟩, ?_, rfl, queue, [], [], ?_,
      List.nodup_nil, .nil, rfl⟩
    · change (update start.programs.parallelGetProg owner _ owner).operations = _
      rw [update_self]
    · change (update start.programs.parallelGetProg owner _ owner).workload = _
      rw [update_self]
      rfl
  · rw [openResident, if_neg builds, decide_eq_false builds]
    obtain ⟨listed, workload, resident, distinct, built⟩ := found builds
    refine ⟨⟨rfl, rfl, fun _ _ => rfl⟩, listed, rfl, queue, [], workload, resident, distinct, .nil,
      ?_⟩
    rw [← addresses, List.forall₂_map_left_iff] at built
    exact built

/-- The transactions of the clients ahead will be made on the clients as the call found
them. -/
def Untouched (start : World) (ahead : List (Nat × Nat × List UInt8)) (world : World) : Prop :=
  ∀ entry ∈ ahead,
    (world.clients entry.2.1).newRequest 1 = (start.clients entry.2.1).newRequest 1

theorem newRequest_setParallelGetProg (program : ResidentParallelGetProgram) (world : World)
    (other slots : Nat) :
    ((setParallelGetProg owner program world).clients other).newRequest slots =
      (world.clients other).newRequest slots := by
  rw [setParallelGetProg, setClient_clients]
  by_cases isOwner : other = owner
  · rw [if_pos isOwner, isOwner]
    rfl
  · rw [if_neg isOwner]

theorem untouched_openResident (ahead : List (Nat × Nat × List UInt8)) :
    Untouched start ahead (openResident owner operations start) := by
  intro entry _
  by_cases builds : buildsWorkload start owner operations
  · rw [openResident, if_pos builds]
    exact newRequest_setParallelGetProg ..
  · rw [openResident, if_neg builds]

/-- The preparing loop runs its body with all programs exact, and is left as a call is.

Proof: induction on the clients ahead. Their addresses are distinct, so that beginning one
transaction leaves the others untouched. -/
theorem withGets_programs {α : Type} {body : Call α} (sharedMesh : Nat)
    (addresses : entries.map (·.2.1) = operations) (distinct : operations.Nodup)
    (inside : Meets
      (fun world => Filling platform tensor start owner build operations entries []
        world.programs) body
      (fun _ world => Left platform tensor start owner operations entries world.programs)
      (fun world => Left platform tensor start owner operations entries world.programs))
    (ahead : List (Nat × Nat × List UInt8)) (behind : List (Nat × Nat × List UInt8))
    (whole : behind ++ ahead = entries) :
    Meets
      (fun world => Filling platform tensor start owner build operations behind ahead
        world.programs ∧ Untouched start ahead world)
      (withGets platform sharedMesh owner build tensor body ahead)
      (fun _ world => Left platform tensor start owner operations entries world.programs)
      (fun world => Left platform tensor start owner operations entries world.programs) := by
  induction ahead generalizing behind with
  | nil =>
    rw [List.append_nil] at whole
    subst whole
    exact Meets.weaken inside (fun _ holds => holds.1) (fun _ _ holds => holds) fun _ holds => holds
  | cons entry rest inductionHypothesis =>
    obtain ⟨i, address, key⟩ := entry
    have apart : ∀ other ∈ rest, other.2.1 ≠ address := by
      intro other listed same
      rw [← addresses, ← whole, List.map_append, List.map_cons] at distinct
      have behindOnly := (List.nodup_append.mp distinct).2.1
      rw [List.nodup_cons] at behindOnly
      exact behindOnly.1 (same ▸ List.mem_map_of_mem (f := (·.2.1)) listed)
    intro world holds
    obtain ⟨filling, untouched⟩ := holds
    have admission := admitGet_meets sharedMesh i address key tensor world
    rw [withGets]
    rcases admission.outcome rfl with ⟨failure, after, failed, rfl⟩ | ⟨geometry, after, passed,
      rfl, -, output⟩
    · rw [bind_error failed]
      exact filling.left addresses whole
    rw [bind_ok passed]
    have sessions : ∀ other, (after.clients other).session = (start.clients other).session :=
      congrFun filling.framed.session
    rw [sessions] at output
    let begun := beginRequest address 1 (some tensor.buffer) after
    have begunPrograms : begun.programs = after.programs := programs_beginRequest ..
    have begunSession : (begun.clients address).session = (start.clients address).session :=
      (congrFun (congrArg Programs.session begunPrograms) address).trans (sessions address)
    have begunRequest : begun.requests address = (start.clients address).newRequest 1 := by
      change (World.setRequest _ _ _).requests address = _
      rw [setRequest_requests, if_pos rfl]
      exact untouched (i, address, key) List.mem_cons_self
    have begunUntouched : Untouched start rest begun := by
      intro other listed
      change ((World.setClient _ _ _).clients other.2.1).newRequest 1 = _
      rw [setClient_clients, if_neg (apart other listed)]
      exact untouched other (List.mem_cons_of_mem _ listed)
    have fills : Meets (· = begun) (fillProgram platform owner build i address key tensor geometry)
        (fun _ world => Filling platform tensor start owner build operations
          (behind ++ [(i, address, key)]) rest world.programs ∧ Untouched start rest world)
        (fun world => Left platform tensor start owner operations entries world.programs) := by
      apply Meets.weaken (fillProgram_meets platform owner build i address key tensor geometry
        begun) (fun _ same => same)
      · rintro _ filled ⟨layout, workload, fits, rfl⟩
        rw [begunSession] at layout fits
        refine ⟨Filling.fill (begunPrograms ▸ filling) begunRequest output layout fits, ?_⟩
        intro other listed
        rw [newRequest_setParallelGetProg]
        exact begunUntouched other listed
      · rintro world rfl
        rw [begunPrograms]
        exact filling.left addresses whole
    have within := Meets.bind _ fills fun _ => inductionHypothesis (behind ++ [(i, address, key)])
      (by rw [List.append_assoc]; exact whole)
    have entered : Meets (· = after)
        (withRequest address 1 (some tensor.buffer) (do
          fillProgram platform owner build i address key tensor geometry
          withGets platform sharedMesh owner build tensor body rest))
        (fun _ world => Left platform tensor start owner operations entries world.programs)
        (fun world => Left platform tensor start owner operations entries world.programs) := by
      apply Meets.bind (fun _ world => world = begun)
        (Meets.modify fun _ same =>
          congrArg (beginRequest address 1 (some tensor.buffer)) same)
      intro _
      apply Meets.enclosed within
      · intro _ world left
        rw [programs_failRequest]
        exact left
      · intro world left
        rw [programs_failRequest]
        exact left
    exact entered after rfl

variable (platform tensor start owner operations entries) in
/-- The workload is complete and exact, and the guard is released. -/
structure Ready (programs : Programs) : Prop where
  framed : Framed start owner programs
  listed : (programs.parallelGetProg owner).operations = operations
  released : programs.buildGuard = none
  workload : ∃ workload, (programs.parallelGetProg owner).workload = some workload ∧
    (workload.map Prod.fst).Nodup ∧ AllExact platform tensor start entries workload
  sent : ∀ workload, .gets workload ∈ programs.queue →
    AllExact platform tensor start entries workload

theorem Ready.left {programs : Programs} (addresses : entries.map (·.2.1) = operations)
    (ready : Ready platform tensor start owner operations entries programs) :
    Left platform tensor start owner operations entries programs := by
  obtain ⟨workload, resident, distinct, exactly⟩ := ready.workload
  exact ⟨ready.framed, .inr ⟨ready.released, complete_of addresses ready.framed ready.listed
    resident distinct exactly.allOfSession⟩, ready.sent⟩

/-- Compiling changes the mark of the resident program alone. -/
theorem compilePrograms_effect (answers : ParallelAnswers) (world : World) :
    Meets (· = world) (compilePrograms owner operations answers)
      (fun _ after => after = world ∨ after = setParallelGetProg owner
        { (world.clients owner).parallelGetProg with compiled := true } world)
      (· = world) := by
  apply Meets.bind (fun seen after => seen = world ∧ after = world)
    (Meets.look fun _ same => ⟨same, same⟩)
  intro seen
  by_cases same : seen = world
  case neg =>
    intro state impossible
    exact absurd impossible.1 same
  subst same
  dsimp only
  split
  · exact Meets.pure fun _ holds => .inl holds.2
  · apply Meets.bind (fun _ after => after = seen)
    · apply Meets.weaken (Meets.forEach (fun _ _ after => after = seen) _ ?_)
        (fun _ holds => holds.2) (fun _ _ holds => holds) fun _ (holds : _ = seen) => holds
      intro _ element _ _
      apply Meets.bind (fun _ after => after = seen)
        (Meets.ofExcept (fun _ _ _ holds => holds) fun _ holds => holds)
      intro _
      exact attempt_meets _
    · intro _
      apply Meets.modify
      rintro state rfl
      exact .inr rfl

theorem compileResident_programs (answers : ParallelAnswers)
    (addresses : entries.map (·.2.1) = operations) :
    Meets
      (fun world => Filling platform tensor start owner build operations entries []
        world.programs)
      (compileResident owner operations answers)
      (fun _ world => Ready platform tensor start owner operations entries world.programs)
      (fun world => Left platform tensor start owner operations entries world.programs) := by
  have compiles : Meets
      (fun world => Filling platform tensor start owner build operations entries []
        world.programs)
      (compilePrograms owner operations answers)
      (fun _ world => Filling platform tensor start owner build operations entries []
        world.programs)
      (fun world => Left platform tensor start owner operations entries world.programs) := by
    intro world filling
    rcases (compilePrograms_effect answers world).outcome rfl with
      ⟨failure, after, failed, rfl⟩ | ⟨_, after, done, rfl | rfl⟩
    · rw [failed]
      exact filling.left addresses (List.append_nil entries)
    · rw [done]
      exact filling
    · rw [done]
      change Filling platform tensor start owner build operations entries [] _
      rw [programs_setParallelGetProg]
      refine ⟨⟨filling.framed.session, filling.framed.getProg, fun other differs => ?_⟩, ?_,
        filling.guard, filling.queue, ?_⟩
      · change update world.programs.parallelGetProg owner _ other = _
        rw [update_of_ne differs]
        exact filling.framed.others other differs
      · change (update world.programs.parallelGetProg owner _ owner).operations = _
        rw [update_self]
        exact filling.listed
      · change ∃ front back, (update world.programs.parallelGetProg owner _ owner).workload = _ ∧ _
        rw [update_self]
        exact filling.workload
  apply Meets.bind _ compiles
  intro _
  apply Meets.modify
  intro world filling
  obtain ⟨front, back, resident, distinct, exactly, rest⟩ := filling.workload
  have nothingAhead : back = [] := by
    cases build with
    | true => exact rest
    | false => exact List.forall₂_nil_left_iff.mp rest
  subst nothingAhead
  rw [List.append_nil] at resident distinct
  refine ⟨⟨filling.framed.session, filling.framed.getProg, filling.framed.others⟩, filling.listed, rfl, ⟨front, resident, distinct, exactly⟩, ?_⟩
  intro workload enqueued
  change _ ∈ world.programs.queue at enqueued
  rw [filling.queue] at enqueued
  exact absurd enqueued List.not_mem_nil

/-- Submission enqueues the complete workload. -/
theorem submitGets_programs (answers : ParallelAnswers)
    (addresses : entries.map (·.2.1) = operations) :
    Meets
      (fun world => Ready platform tensor start owner operations entries world.programs)
      (submitGets owner operations answers)
      (fun _ world => Ready platform tensor start owner operations entries world.programs)
      (fun world => Left platform tensor start owner operations entries world.programs) := by
  let Holds : World → Prop := fun world =>
    Ready platform tensor start owner operations entries world.programs
  have leaves : ∀ world, Holds world →
      Left platform tensor start owner operations entries world.programs :=
    fun _ ready => ready.left addresses
  have consumed : ∀ (address : Nat) (world : World), Holds world →
      Holds (world.setClient address { world.clients address with testFault := .none }) := by
    intro address world ready
    change Ready platform tensor start owner operations entries _
    rw [programs_consume]
    exact ready
  have throws : ∀ (fault : ClientOperationsTestFault) (message : String),
      Meets Holds (forEach (fun client => do
        if ← consumeTestFault client fault then fail (.thrown message)) operations)
        (fun _ => Holds)
        (fun world => Left platform tensor start owner operations entries world.programs) := by
    intro fault message
    exact Meets.weaken (Meets.forEach (fun _ _ => Holds) operations
      fun _ client _ _ => throwAtFault_meets client _ _ (consumed client))
      (fun _ holds => holds) (fun _ _ holds => holds) leaves
  apply Meets.bind _ (throws _ _)
  intro _
  apply Meets.bind (fun _ => Holds)
  · apply Meets.weaken (Meets.forEach (fun _ _ => Holds) operations ?_)
      (fun _ holds => holds) (fun _ _ holds => holds) leaves
    intro _ address _ _
    exact Meets.modify fun _ holds => holds
  intro _
  apply Meets.bind (fun _ => Holds)
  · apply Meets.modify
    intro world ready
    refine ⟨⟨ready.framed.session, ready.framed.getProg, ready.framed.others⟩, ready.listed,
      ready.released, ready.workload, ?_⟩
    intro workload enqueued
    rcases List.mem_append.mp enqueued with earlier | now
    · exact ready.sent workload earlier
    · obtain ⟨resident, found, -, exactly⟩ := ready.workload
      change (world.clients owner).parallelGetProg.workload = some resident at found
      rw [found, Option.getD_some, List.mem_singleton] at now
      rw [QueueEvent.gets.inj now]
      exact exactly
  intro _
  apply Meets.bind (fun _ => Holds)
  · exact Meets.weaken (attempt_meets _) (fun _ holds => holds) (fun _ _ holds => holds) leaves
  intro _
  exact throws _ _

/-- From the complete workload to the end of the call. -/
theorem callBody_programs (answers : ParallelAnswers) (outputCapacity : Nat)
    (addresses : entries.map (·.2.1) = operations) :
    Meets
      (fun world => Filling platform tensor start owner build operations entries []
        world.programs)
      (do
        let buffers ← runResident owner operations answers
        examineStatuses outputCapacity (operations.zip buffers))
      (fun _ world => Left platform tensor start owner operations entries world.programs)
      (fun world => Left platform tensor start owner operations entries world.programs) := by
  let Holds : World → Prop := fun world =>
    Ready platform tensor start owner operations entries world.programs
  have runs : Meets
      (fun world => Filling platform tensor start owner build operations entries []
        world.programs) (runResident owner operations answers) (fun _ => Holds)
      (fun world => Left platform tensor start owner operations entries world.programs) := by
    apply Meets.bind _ (compileResident_programs answers addresses)
    intro _
    apply Meets.bind _ (submitGets_programs answers addresses)
    intro _
    apply Meets.bind (fun _ => Holds)
      (Meets.ofExcept (fun _ _ _ holds => holds) fun _ ready => ready.left addresses)
    intro buffers
    apply Meets.bind (fun _ => Holds)
    · apply Meets.modify
      intro world ready
      refine ⟨⟨ready.framed.session, ready.framed.getProg, ready.framed.others⟩, ready.listed,
        ready.released, ready.workload, ?_⟩
      intro workload enqueued
      rcases List.mem_append.mp enqueued with earlier | read
      · exact ready.sent workload earlier
      · exact absurd (List.mem_singleton.mp read) (by simp)
    · intro _
      exact Meets.pure fun _ holds => holds
  apply Meets.bind _ runs
  intro buffers world ready
  have kept := examineStatuses_keeps World.programs programs_complete outputCapacity
    (operations.zip buffers) world
  have left : Left platform tensor start owner operations entries
      (examineStatuses outputCapacity (operations.zip buffers) world).2.programs := by
    rw [kept]
    exact Ready.left addresses ready
  exact Promised.of_state left

variable (platform tensor start owner operations entries) in
/-- What a call leaves: the resident program of the first client as it was, gone, or
complete; what was enqueued is exact. -/
structure Called (programs : Programs) : Prop where
  framed : Framed start owner programs
  resident : programs.parallelGetProg owner = start.programs.parallelGetProg owner ∨
    (programs.parallelGetProg owner).workload = none ∨
    Complete platform programs owner operations
  sent : ∀ workload, .gets workload ∈ programs.queue →
    AllExact platform tensor start entries workload

/-- A call that changes nothing. -/
theorem Called.idle (queue : start.queue = []) :
    Called platform tensor start owner operations entries start.programs := by
  refine ⟨⟨rfl, rfl, fun _ _ => rfl⟩, .inl rfl, ?_⟩
  intro workload enqueued
  change _ ∈ start.queue at enqueued
  rw [queue] at enqueued
  exact absurd enqueued List.not_mem_nil

/-- The guard drops what it still holds. -/
theorem Left.drop {world : World}
    (left : Left platform tensor start owner operations entries world.programs) :
    Called platform tensor start owner operations entries (dropBuildGuard world).programs := by
  rcases left.resident with held | ⟨released, complete⟩
  · have guard : world.buildGuard = some owner := held
    have dropped : (dropBuildGuard world).programs =
        { world.programs with
          parallelGetProg := update world.programs.parallelGetProg owner ⟨none, [], false⟩
          buildGuard := none } := by
      rw [dropBuildGuard, guard]
      have reset := programs_setParallelGetProg owner ⟨none, [], false⟩ world
      exact congrArg (fun programs : Programs => { programs with buildGuard := none }) reset
    rw [dropped]
    refine ⟨⟨left.framed.session, left.framed.getProg, fun other differs => ?_⟩, .inr (.inl ?_),
      left.sent⟩
    · change update world.programs.parallelGetProg owner _ other = _
      rw [update_of_ne differs]
      exact left.framed.others other differs
    · change (update world.programs.parallelGetProg owner _ owner).workload = none
      rw [update_self]
  · rw [dropBuildGuard_released released]
    exact ⟨left.framed, .inr (.inr complete), left.sent⟩

end Call

/-- A parallel GET on distinct clients enqueues exact programs only, provided that a
resident workload that it finds was built for the sessions of these clients. -/
theorem getParallel_called {platform : Platform} {start : World} {operations : List Nat}
    {keys : List (List UInt8)} {tensor : Tensor} (answers : ParallelAnswers)
    (queue : start.queue = []) (distinct : operations.Nodup)
    (found : ¬ buildsWorkload start (operations.headD 0) operations →
      Complete platform start.programs (operations.headD 0) operations) :
    Called platform tensor start (operations.headD 0) operations
      ((operations.zipIdx.zip keys).map fun ((address, i), key) => (i, address, key))
      (getParallel platform operations keys tensor answers start).2.programs := by
  have sameWorld : (getParallel platform operations keys tensor answers start).2 =
      (getParallelWith (examineStatuses tensor.packedBufferSizeBytes) platform operations keys
        tensor answers start).2 := by
    rw [getParallel]
    cases outcome : getParallelWith (examineStatuses tensor.packedBufferSizeBytes) platform
        operations keys tensor answers start with
    | mk result after =>
      cases result with
      | error failure => rw [bind_error outcome]
      | ok hits =>
        rw [bind_ok outcome]
        rfl
  rw [sameWorld, getParallelWith]
  by_cases some : operations ≠ []
  case neg =>
    rw [check_bind_not some]
    exact Called.idle queue
  by_cases paired : operations.length = keys.length
  case neg =>
    rw [check_bind_of some, check_bind_not paired]
    exact Called.idle queue
  by_cases points : operations.headD 0 ≠ 0
  case neg =>
    rw [check_bind_of some, check_bind_of paired]
    dsimp only
    rw [check_bind_not points]
    exact Called.idle queue
  rw [check_bind_of some, check_bind_of paired]
  dsimp only
  rw [check_bind_of points]
  let owner := operations.headD 0
  let entries := (operations.zipIdx.zip keys).map fun ((address, i), key) => (i, address, key)
  have addresses : entries.map (·.2.1) = operations := entries_addresses paired
  have within : Promised
      (fun _ world => Left platform tensor start owner operations entries world.programs)
      (fun world => Left platform tensor start owner operations entries world.programs)
      (withGets platform (start.clients owner).session.clientSubmesh owner
        (decide (buildsWorkload start owner operations)) tensor (do
          let buffers ← runResident owner operations answers
          examineStatuses tensor.packedBufferSizeBytes (operations.zip buffers)) entries
        (openResident owner operations start)) :=
    withGets_programs (start.clients owner).session.clientSubmesh addresses distinct
      (callBody_programs answers tensor.packedBufferSizeBytes addresses) entries [] rfl
      (openResident owner operations start)
      ⟨Filling.begin queue addresses found, untouched_openResident _⟩
  change Called platform tensor start owner operations entries
    (dropBuildGuard (withGets platform (start.clients owner).session.clientSubmesh owner
      (decide (buildsWorkload start owner operations)) tensor (do
        let buffers ← runResident owner operations answers
        examineStatuses tensor.packedBufferSizeBytes (operations.zip buffers)) entries
      (openResident owner operations start)).2).programs
  exact Left.drop within.state

end KvCache.ClientOps
