import KvCache.Host.WorkerMatch

/-!
# Write-through under both host workers

Both workers drop the old value, reserve the same destination, acknowledge it and wait for
the push. Whether the wait ends or is cut short, the states match again. Without a mapped
window both read the same passes of the same units.
-/

namespace KvCache.HostTransfer

open Layout Pool PoolMachine Function Worker

variable {cfg : RuntimeConfig} {device : Device}

/-! ## The active request -/

/-- The active request once its transfer is in some phase. -/
def activeIn (phase : External.Phase) (posted : Nat) (request : MoveRequest) :
    External.RequestState :=
  { External.decode posted request with phase := phase }

/-- The announced request passes the comparison with the active one. -/
theorem run_validate {core : External.Core} {phase : External.Phase} {posted : Nat}
    {request : MoveRequest} {kind : External.Kind}
    (active : core.request = some (activeIn phase posted request))
    (supported : External.hostRequestKind request.op = some kind) :
    run (External.validateExternalRequest (External.announce posted kind request)) core =
      .finished (activeIn phase posted request) core := by
  have fits : External.matchesActive (External.announce posted kind request)
      (activeIn phase posted request) := ⟨rfl, rfl, rfl, rfl, supported⟩
  simp only [External.validateExternalRequest, run_current_bind, active]
  rw [run_fatalUnless_bind fits, run_pure]

/-- The external runtime in a phase of the active request. -/
def inPhase (core : External.Core) (phase : External.Phase) (posted : Nat)
    (request : MoveRequest) : External.Core :=
  { core with request := some (activeIn phase posted request) }

theorem run_setPhase {core : External.Core} {former phase : External.Phase} {posted : Nat}
    {request : MoveRequest} (active : core.request = some (activeIn former posted request)) :
    run (External.setPhase phase) core = .finished () (inPhase core phase posted request) := by
  simp only [External.setPhase, run_change, active, inPhase]
  rfl

/-- Receiving begins once the checks of the call are passed. -/
theorem receive_begins {core : External.Core} {posted : Nat} {request : MoveRequest}
    (active : core.request = some (activeIn .pending posted request))
    (supported : External.hostRequestKind request.op = some .writeThrough) :
    let announced := External.announce posted .writeThrough request
    run (External.receiveExternalValue cfg device announced true) core =
      run (if cfg.stageNocOk then External.receiveMapped cfg device announced true
        else External.receiveRead cfg device announced true)
        (inPhase core .transferInProgress posted request) := by
  intro announced
  simp only [External.receiveExternalValue]
  rw [run_bind_finished (run_validate active supported)]
  rw [run_fatalUnless_bind (by rfl), run_fatalUnless_bind (by rfl),
    run_bind_finished (run_setPhase active)]

/-! ## Outcomes -/

/-- Both programs return in matched states, or both were stopped in matched states. -/
inductive Both (finished stopped : Internal.State → External.State → Prop) :
    Outcome Internal.State Unit → Outcome External.State Unit → Prop where
  | finished {internal : Internal.State} {external : External.State}
      (reached : finished internal external) : Both finished stopped (.finished () internal)
        (.finished () external)
  | stopped {internal : Internal.State} {external : External.State}
      (reached : stopped internal external) : Both finished stopped (.stopped internal)
        (.stopped external)

theorem Both.imp {finished stopped others halted : Internal.State → External.State → Prop}
    {first : Outcome Internal.State Unit} {second : Outcome External.State Unit}
    (both : Both finished stopped first second)
    (finishes : ∀ internal external, finished internal external → others internal external)
    (stops : ∀ internal external, stopped internal external → halted internal external) :
    Both others halted first second := by
  cases both with
  | finished reached => exact .finished (finishes _ _ reached)
  | stopped reached => exact .stopped (stops _ _ reached)

/-- Some wait for the device does not end before the worker is told to stop. -/
def Device.Silent (device : Device) : Prop :=
  ∃ effects count, device.evictDone effects count = false ∨
    device.promoteDone effects count = false

/-- The states after a transfer that made some writes. -/
structure Transferred (cfg : RuntimeConfig) (phase : External.Phase) (posted : Nat)
    (request : MoveRequest) (fresh : List Effect) (before internal : Internal.State)
    (external : External.State) : Prop where
  same : Matches cfg internal external
  effects : internal.runtime.effects = before.runtime.effects ++ fresh
  seen : internal.seen = before.seen
  active : external.runtime.request = some (activeIn phase posted request)


/-! ## Reserving a destination -/

/-- The runtime after a destination was reserved and its record published. -/
def reserved (cfg : RuntimeConfig) (slot totalLen unit : Nat) (remaining : List Extent)
    (runtime : Runtime) : Runtime :=
  let generation := nextPoolGeneration (runtime.poolMetaGenerations slot)
  setMeta slot
    ⟨generation, cfg.poolReadOff + unit * maxChunkValueBytes, totalLen, generation⟩
    { runtime with
      poolFree := remaining
      poolMetaGenerations := update runtime.poolMetaGenerations slot generation }

/-- The runtime after a destination was acknowledged and the device pushed. -/
def acknowledged (device : Device) (readOff generation count : Nat) (runtime : Runtime) : Runtime :=
  let posted := emit (.evictAckSem count) (emit (.evictAck readOff generation) runtime)
  { posted with window := device.push posted.effects posted.window }

/-- What a reservation finds: the staging window, or an extent of the pool with its record. -/
inductive Reserved (cfg : RuntimeConfig) (slot totalLen : Nat) (runtime : Runtime) :
    Option Nat → Nat → Nat → Runtime → Prop where
  | window : Reserved cfg slot totalLen runtime none 0 0 runtime
  | extent {unit : Nat} {remaining : List Extent}
      (found : Pool.poolAlloc (chunkCountFor totalLen) runtime.poolFree = some (unit, remaining))
      (pooled : cfg.poolHost = true) (units : 0 < chunkCountFor totalLen) :
      Reserved cfg slot totalLen runtime (some unit) (cfg.poolReadOff + unit * maxChunkValueBytes)
        (nextPoolGeneration (runtime.poolMetaGenerations slot))
        (reserved cfg slot totalLen unit remaining runtime)

/-- The internal worker, up to the wait for a push. -/
theorem internal_writeThrough {internal before : Internal.State} {request : MoveRequest}
    {destination : Internal.DevicePushDestination} (staged : cfg.stageNocOk = true)
    (reserves : run (Internal.reserveDevicePushDestination cfg request.slot request.totalLen)
      internal = .finished destination before) :
    run (Internal.writeThrough cfg device request) internal =
      run (awaitOr (fun state => device.evictDone state.runtime.effects state.evictIssued)
          (Internal.releaseDestination cfg request.slot request.totalLen destination) >>= fun _ =>
        Internal.publishDevicePushedValue request.slot request.totalLen destination)
      { before with
        runtime := acknowledged device destination.readOff destination.generation
          (succ32 before.evictIssued) before.runtime
        evictIssued := succ32 before.evictIssued } := by
  simp only [Internal.writeThrough, staged, if_true]
  rw [run_bind_finished reserves]
  rfl

/-- Both workers reserve the same destination. -/
theorem reserve_same (device : Device) {slot totalLen : Nat} (inRange : slot < cfg.maxKeys)
    (runtime : Runtime) :
    ∃ poolUnit readOff generation after,
      Reserved cfg slot totalLen runtime poolUnit readOff generation after ∧
      (∀ internal dropped : Internal.State,
        run (Internal.dropHostValue cfg slot) internal = .finished () dropped →
        dropped.runtime = runtime →
        run (Internal.reserveDevicePushDestination cfg slot totalLen) internal =
          .finished ⟨poolUnit, readOff, generation⟩ { dropped with runtime := after }) ∧
      ∀ (core : External.Core) (request : External.HostRequest), request.slot = slot →
        request.valueLen = totalLen → core.runtime = runtime →
        run (External.receiveMapped cfg device request true) core =
          run (awaitOr (fun state => device.evictDone state.runtime.effects state.evictIssued)
              (External.releaseReservedPool cfg slot (chunkCountFor totalLen) poolUnit) >>= fun _ =>
            External.receivePushed request poolUnit readOff generation)
          { core with
            runtime := acknowledged device readOff generation (succ32 core.evictIssued) after
            evictIssued := succ32 core.evictIssued } := by
  rcases run_poolAlloc cfg (chunkCountFor totalLen) runtime with
    full | ⟨unit, remaining, found, pooled, units, allocates⟩
  · refine ⟨none, 0, 0, runtime, .window, ?_, ?_⟩
    · rintro internal dropped drops rfl
      simp only [Internal.reserveDevicePushDestination]
      rw [run_bind_finished drops]
      simp only [Internal.core]
      rw [run_within_bind full]
      rfl
    · rintro core request rfl rfl rfl
      simp only [External.receiveMapped, if_true, External.core]
      rw [run_within_bind full]
      rfl
  · refine ⟨some unit, _, _, _, .extent found pooled units, ?_, ?_⟩
    · rintro internal dropped drops rfl
      simp only [Internal.reserveDevicePushDestination]
      rw [run_bind_finished drops]
      simp only [Internal.core]
      rw [run_within_bind allocates]
      rw [run_within_bind (run_publishMeta inRange _)]
      rfl
    · rintro core request rfl rfl rfl
      simp only [External.receiveMapped, if_true, External.core]
      rw [run_within_bind allocates]
      rw [run_within_bind (run_publishMeta inRange _)]
      rfl

theorem nextPoolGeneration_ne_zero (generation : Nat) : nextPoolGeneration generation ≠ 0 := by
  unfold nextPoolGeneration
  split
  · exact Nat.one_ne_zero
  · assumption

/-- The host value that keeps a pushed value. -/
def pushedValue (totalLen : Nat) (poolUnit : Option Nat) (generation : Nat) (runtime : Runtime) :
    Internal.HostValue :=
  match poolUnit with
  | some unit => ⟨[], totalLen, unit, chunkCountFor totalLen, generation⟩
  | none => ⟨runtime.window.read 0 totalLen, totalLen, 0, 0, generation⟩

/-- What the external runtime receives of a push. -/
def pushedReceived (slot totalLen : Nat) (poolUnit : Option Nat) (readOff generation : Nat)
    (runtime : Runtime) : External.ReceivedValue :=
  match poolUnit with
  | some unit =>
    ⟨some ⟨slot, unit, chunkCountFor totalLen, readOff, generation, totalLen⟩, []⟩
  | none => ⟨none, runtime.window.read 0 totalLen⟩

/-- A slot without a value has none on the other side and no record. -/
theorem Matches.vacant {internal : Internal.State} {external : External.State}
    (same : Matches cfg internal external) {slot : Nat} (gone : internal.hostValues slot = none) :
    external.hostValues slot = none ∧ internal.runtime.poolMeta slot = noRecord := by
  have backs := same.values slot
  rw [gone] at backs
  cases other : external.hostValues slot with
  | none =>
    rw [other] at backs
    exact ⟨rfl, backs⟩
  | some _ =>
    rw [other] at backs
    exact backs.elim

/-- Bytes on the host heap back a slot alike on both sides. -/
theorem Matches.keep_heap {dropped : Internal.State} {latter : External.State}
    (same : Matches cfg dropped latter) {slot totalLen : Nat} {runtime : Runtime}
    {bytes : List UInt8} (sized : bytes.length = totalLen) (positive : 0 < totalLen)
    (gone : dropped.hostValues slot = none)
    (sameMeta : runtime.poolMeta = dropped.runtime.poolMeta)
    (sameFree : runtime.poolFree = dropped.runtime.poolFree) :
    Matches cfg
      { dropped with
        runtime := runtime
        hostValues := update dropped.hostValues slot (some ⟨bytes, totalLen, 0, 0, 0⟩) }
      { runtime := { latter.runtime with runtime := runtime }
        hostValues := update latter.hostValues slot (some ⟨totalLen, none, bytes⟩) } := by
  apply same.put slot runtime
  · intro another _
    rw [sameMeta]
  · rw [sameMeta]
    exact ⟨rfl, positive, rfl, rfl, sized, (same.vacant gone).2⟩
  · rw [sameFree]
    simpa [Internal.HostValue.extent] using same.accounts.lose slot

/-- A pushed value backs the slot alike on both sides. -/
theorem Reserved.keeps {dropped : Internal.State} {latter : External.State}
    (same : Matches cfg dropped latter) {slot totalLen : Nat} {poolUnit : Option Nat}
    {readOff generation : Nat} {after runtime : Runtime}
    (reservation : Reserved cfg slot totalLen dropped.runtime poolUnit readOff generation after)
    (positive : 0 < totalLen) (gone : dropped.hostValues slot = none)
    (sameMeta : runtime.poolMeta = after.poolMeta) (sameFree : runtime.poolFree = after.poolFree) :
    let received := pushedReceived slot totalLen poolUnit readOff generation runtime
    Matches cfg
      { dropped with
        runtime := runtime
        hostValues := update dropped.hostValues slot
          (some (pushedValue totalLen poolUnit generation runtime)) }
      { runtime := { latter.runtime with runtime := runtime }
        hostValues := update latter.hostValues slot
          (some ⟨totalLen, received.lease, received.bytes⟩) } := by
  intro received
  cases reservation with
  | window => exact same.keep_heap ByteMemory.length_read positive gone sameMeta sameFree
  | @extent unit remaining found pooled units =>
    apply same.put slot runtime
    · intro another apart
      rw [sameMeta]
      exact update_of_ne apart _ _
    · rw [sameMeta]
      refine ⟨rfl, positive, pooled, units, rfl, nextPoolGeneration_ne_zero _, ?_⟩
      exact update_self ..
    · rw [sameFree]
      have extent : (some (pushedValue totalLen (some unit)
          (nextPoolGeneration (dropped.runtime.poolMetaGenerations slot)) runtime)).bind
          Internal.HostValue.extent = some ⟨unit, chunkCountFor totalLen⟩ := by
        simp [pushedValue, Internal.HostValue.extent, Nat.pos_iff_ne_zero.mp units]
      rw [extent]
      exact same.accounts.allocate units found

/-- A reserved destination is given back alike on both sides. -/
theorem Reserved.returns {dropped : Internal.State} {latter : External.State}
    (same : Matches cfg dropped latter) {slot totalLen : Nat} {poolUnit : Option Nat}
    {readOff generation : Nat} {after runtime : Runtime} (inRange : slot < cfg.maxKeys)
    (reservation : Reserved cfg slot totalLen dropped.runtime poolUnit readOff generation after)
    (gone : dropped.hostValues slot = none)
    (sameMeta : runtime.poolMeta = after.poolMeta) (sameFree : runtime.poolFree = after.poolFree) :
    ∃ back : Runtime,
      (∀ state : Internal.State, state.runtime = runtime →
        run (Internal.releaseDestination cfg slot totalLen ⟨poolUnit, readOff, generation⟩) state =
          .finished () { state with runtime := back }) ∧
      (∀ core : External.Core, core.runtime = runtime →
        run (External.releaseReservedPool cfg slot (chunkCountFor totalLen) poolUnit) core =
          .finished () { core with runtime := back }) ∧
      back.effects = runtime.effects ∧
      Matches cfg { dropped with runtime := back }
        { latter with runtime := { latter.runtime with runtime := back } } := by
  have vacant : Internal.held dropped.hostValues slot = none := by
    simp [Internal.held, gone]
  obtain ⟨absent, record⟩ := same.vacant gone
  -- Both sides are left without a value for the slot, as they were.
  have left : ∀ back : Runtime,
      (∀ another, another ≠ slot → back.poolMeta another = dropped.runtime.poolMeta another) →
      back.poolMeta slot = noRecord →
      Accounts cfg.poolUnitsTotal back.poolFree (Internal.held dropped.hostValues) →
      Matches cfg { dropped with runtime := back }
        { latter with runtime := { latter.runtime with runtime := back } } := by
    intro back elsewhere cleared accounts
    have put := same.put slot back none none elsewhere cleared (by
      rw [Option.bind_none, update_same vacant]
      exact accounts)
    rw [update_same gone, update_same absent] at put
    exact put
  cases reservation with
  | window =>
    refine ⟨runtime, ?_, ?_, rfl, ?_⟩
    · rintro state rfl
      rfl
    · rintro core rfl
      rfl
    · apply left
      · intro another _
        rw [sameMeta]
      · rw [sameMeta]
        exact record
      · rw [sameFree]
        exact same.accounts
  | @extent unit remaining found pooled units =>
    have taken : Accounts cfg.poolUnitsTotal remaining
        (update (Internal.held dropped.hostValues) slot (some ⟨unit, chunkCountFor totalLen⟩)) :=
      same.accounts.allocate units found
    have checked := taken.checked (update_self slot _ _)
    have given := taken.release (update_self slot _ _)
    rw [update_idem, update_same vacant] at given
    have free : runtime.poolFree = remaining := sameFree
    let back : Runtime :=
      { setMeta slot noRecord runtime with
        poolFree := Pool.poolRelease ⟨unit, chunkCountFor totalLen⟩ remaining }
    have releases : run (poolRelease cfg unit (chunkCountFor totalLen))
        (setMeta slot noRecord runtime) = .finished () back := by
      rw [← free] at checked
      have plain : run (poolRelease cfg unit (chunkCountFor totalLen))
          (setMeta slot noRecord runtime) = .finished ()
            { setMeta slot noRecord runtime with
              poolFree := Pool.poolRelease ⟨unit, chunkCountFor totalLen⟩ runtime.poolFree } :=
        run_poolRelease checked
      rw [plain, free]
    refine ⟨back, ?_, ?_, rfl, ?_⟩
    · rintro state rfl
      simp only [Internal.releaseDestination, Internal.core]
      rw [run_within_bind (run_invalidateMeta inRange _)]
      exact run_within releases
    · rintro core rfl
      simp only [External.releaseReservedPool, External.core]
      rw [run_within_bind (run_invalidateMeta inRange _)]
      exact run_within releases
    · apply left
      · intro another apart
        have unchanged : back.poolMeta another = runtime.poolMeta another := update_of_ne apart _ _
        rw [unchanged, sameMeta]
        exact update_of_ne apart _ _
      · exact update_self ..
      · exact given

/-! ## Write-through -/

/-- The manager keeps what the runtime received for a slot that has no value. -/
theorem transfer_receives {external latter : External.State} {core : External.Core} {posted : Nat}
    {request : MoveRequest} {received : External.ReceivedValue}
    (erased : External.eraseHostValue cfg request.slot external = latter)
    (absent : latter.hostValues request.slot = none)
    (receives : run (External.receiveExternalValue cfg device
      (External.announce posted .writeThrough request) true) latter.runtime =
        .finished received core)
    (shape : received.lease.isSome = true ↔ received.bytes = []) :
    run (External.transferValue cfg device (External.announce posted .writeThrough request))
      external = .finished ()
        { runtime := core
          hostValues := update latter.hostValues request.slot
            (some ⟨request.totalLen, received.lease, received.bytes⟩) } := by
  have unchanged : External.eraseHostValue cfg request.slot
      { runtime := core, hostValues := latter.hostValues } =
        { runtime := core, hostValues := latter.hostValues } := by
    simp only [External.eraseHostValue, absent, Option.bind_none, update_same absent]
  have kind : (External.announce posted .writeThrough request).kind = .writeThrough := rfl
  simp only [External.transferValue, kind, run_change_bind, External.call]
  have slot : (External.announce posted .writeThrough request).slot = request.slot := rfl
  rw [slot, erased, run_within_bind receives, run_fatalUnless_bind shape]
  simp only [run_change_bind, run_change, unchanged]
  rfl

/-- A receive that is stopped stops the manager. -/
theorem transfer_stops {external latter : External.State} {core : External.Core} {posted : Nat}
    {request : MoveRequest}
    (erased : External.eraseHostValue cfg request.slot external = latter)
    (stops : run (External.receiveExternalValue cfg device
      (External.announce posted .writeThrough request) true) latter.runtime = .stopped core) :
    run (External.transferValue cfg device (External.announce posted .writeThrough request))
      external = .stopped { latter with runtime := core } := by
  have kind : (External.announce posted .writeThrough request).kind = .writeThrough := rfl
  have slot : (External.announce posted .writeThrough request).slot = request.slot := rfl
  simp only [External.transferValue, kind, run_change_bind, External.call]
  rw [slot, erased]
  apply run_bind_stopped
  exact run_within_stopped stops

/-- A write-through with a mapped window leaves the same writes and the same backing, also if
it is stopped while it waits. -/
theorem writeThrough_mapped {internal : Internal.State} {external : External.State}
    (same : Matches cfg internal external) {posted : Nat} {request : MoveRequest}
    (staged : cfg.stageNocOk = true) (inRange : request.slot < cfg.maxKeys)
    (positive : 0 < request.totalLen)
    (active : external.runtime.request = some (activeIn .pending posted request))
    (supported : External.hostRequestKind request.op = some .writeThrough) :
    ∃ readOff generation,
      Both
        (Transferred cfg .transferComplete posted request
          [.evictAck readOff generation, .evictAckSem (succ32 internal.evictIssued)] internal)
        (fun after latter => device.Silent ∧ Transferred cfg .transferInProgress posted request
          [.evictAck readOff generation, .evictAckSem (succ32 internal.evictIssued)] internal
          after latter)
        (run (Internal.writeThrough cfg device request) internal)
        (run (External.transferValue cfg device
          (External.announce posted .writeThrough request)) external) := by
  obtain ⟨dropped, drops, sameDropped, kept⟩ := drop_matches same inRange
  generalize erased : External.eraseHostValue cfg request.slot external = latter at *
  have activeDropped : latter.runtime.request = some (activeIn .pending posted request) :=
    kept.request.trans active
  have begins := @receive_begins cfg device latter.runtime posted request activeDropped supported
  simp only [staged, if_true] at begins
  obtain ⟨poolUnit, readOff, generation, after, reservation, internally, externally⟩ :=
    @reserve_same cfg device request.slot request.totalLen inRange dropped.runtime
  refine ⟨readOff, generation, ?_⟩
  rw [internal_writeThrough staged (internally internal dropped drops rfl)]
  have receives := externally (inPhase latter.runtime .transferInProgress posted request)
    (External.announce posted .writeThrough request) rfl rfl sameDropped.runtime.symm
  have sameCount : (inPhase latter.runtime .transferInProgress posted request).evictIssued =
      dropped.evictIssued := sameDropped.evictIssued.symm
  rw [receives, sameCount, run_awaitOr_bind] at begins
  rw [run_awaitOr_bind]
  dsimp only at begins ⊢
  generalize pushed : acknowledged device readOff generation (succ32 dropped.evictIssued) after =
    runtime at *
  have sameMeta : runtime.poolMeta = after.poolMeta := by rw [← pushed]; rfl
  have sameFree : runtime.poolFree = after.poolFree := by rw [← pushed]; rfl
  have effects : runtime.effects = internal.runtime.effects ++
      [.evictAck readOff generation, .evictAckSem (succ32 internal.evictIssued)] := by
    have unchanged : after.effects = dropped.runtime.effects := by
      cases reservation <;> rfl
    rw [← pushed, ← kept.effects, ← unchanged, ← kept.evictIssued]
    simp [acknowledged, emit]
  have absent := (sameDropped.vacant kept.gone).1
  cases answered : device.evictDone runtime.effects (succ32 dropped.evictIssued) with
  | true =>
    rw [answered, if_pos rfl] at begins
    rw [if_pos rfl]
    have received : run (External.receivePushed (External.announce posted .writeThrough request)
        poolUnit readOff generation)
        { inPhase latter.runtime .transferInProgress posted request with
          runtime := runtime
          evictIssued := succ32 dropped.evictIssued } =
      .finished (pushedReceived request.slot request.totalLen poolUnit readOff generation runtime)
        (inPhase { latter.runtime with
          runtime := runtime
          evictIssued := succ32 dropped.evictIssued } .transferComplete posted request) := by
      cases poolUnit <;> rfl
    rw [received] at begins
    have shape : (pushedReceived request.slot request.totalLen poolUnit readOff generation
        runtime).lease.isSome = true ↔
        (pushedReceived request.slot request.totalLen poolUnit readOff generation
          runtime).bytes = [] := by
      cases poolUnit with
      | some unit => simp [pushedReceived]
      | none =>
        have filled : runtime.window.read 0 request.totalLen ≠ [] := by
          apply List.ne_nil_of_length_pos
          rw [ByteMemory.length_read]
          exact positive
        simp [pushedReceived, filled]
    rw [transfer_receives erased absent begins shape]
    have keeps := reservation.keeps sameDropped positive kept.gone sameMeta sameFree
    have published : run (Internal.publishDevicePushedValue request.slot request.totalLen
        ⟨poolUnit, readOff, generation⟩)
        { dropped with runtime := runtime, evictIssued := succ32 dropped.evictIssued } =
      .finished ()
        { dropped with
          runtime := runtime
          evictIssued := succ32 dropped.evictIssued
          hostValues := update dropped.hostValues request.slot
            (some (pushedValue request.totalLen poolUnit generation runtime)) } := by
      cases poolUnit <;> rfl
    rw [published]
    apply Both.finished
    exact {
      same := ⟨keeps.runtime, keeps.seen, keeps.commitIssued, rfl, keeps.values, keeps.accounts⟩
      effects := effects
      seen := kept.seen
      active := rfl }
  | false =>
    rw [answered] at begins
    rw [if_neg (by simp)] at begins ⊢
    obtain ⟨back, internalReturns, externalReturns, sameEffects, matched⟩ :=
      reservation.returns sameDropped inRange kept.gone sameMeta sameFree
    rw [externalReturns _ rfl] at begins
    rw [internalReturns _ rfl, transfer_stops erased begins]
    apply Both.stopped
    refine ⟨⟨_, _, Or.inl answered⟩, ?_⟩
    exact {
      same := ⟨matched.runtime, matched.seen, matched.commitIssued, rfl, matched.values,
        matched.accounts⟩
      effects := sameEffects.trans effects
      seen := kept.seen
      active := rfl }

/-- Without a mapped window both workers read the same value from the heap. -/
theorem writeThrough_read {internal : Internal.State} {external : External.State}
    (same : Matches cfg internal external) {posted : Nat} {request : MoveRequest}
    (unstaged : cfg.stageNocOk = false) (inRange : request.slot < cfg.maxKeys)
    (positive : 0 < request.totalLen)
    (active : external.runtime.request = some (activeIn .pending posted request))
    (supported : External.hostRequestKind request.op = some .writeThrough) :
    Both (Transferred cfg .transferComplete posted request [] internal) (fun _ _ => False)
      (run (Internal.writeThrough cfg device request) internal)
      (run (External.transferValue cfg device
        (External.announce posted .writeThrough request)) external) := by
  obtain ⟨dropped, drops, sameDropped, kept⟩ := drop_matches same inRange
  generalize erased : External.eraseHostValue cfg request.slot external = latter at *
  have activeDropped : latter.runtime.request = some (activeIn .pending posted request) :=
    kept.request.trans active
  have begins := @receive_begins cfg device latter.runtime posted request activeDropped supported
  simp only [unstaged, Bool.false_eq_true, if_false] at begins
  have unpooled : cfg.poolHost ≠ true := fun pooled => by
    have mapped := cfg.poolMapped pooled
    rw [unstaged] at mapped
    exact nomatch mapped
  have full : run (poolAlloc cfg (chunkCountFor request.totalLen)) dropped.runtime =
      .finished none dropped.runtime := by
    rcases run_poolAlloc cfg (chunkCountFor request.totalLen) dropped.runtime with
      full | ⟨_, _, _, pooled, _⟩
    · exact full
    · exact absurd pooled unpooled
  obtain ⟨bytes, isBytes⟩ : ∃ bytes, (readValueUnitsInto cfg (device.banks dropped.runtime.effects)
      request.valueByteOff request.totalLen fun _ => 0).read 0 request.totalLen = bytes := ⟨_, rfl⟩
  have sized : bytes.length = request.totalLen := by rw [← isBytes, ByteMemory.length_read]
  have internally : run (Internal.writeThrough cfg device request) internal = .finished ()
      { dropped with
        hostValues := update dropped.hostValues request.slot
          (some ⟨bytes, request.totalLen, 0, 0, 0⟩) } := by
    simp only [Internal.writeThrough, unstaged, Bool.false_eq_true, if_false]
    rw [Internal.stageValueDeviceToHost, run_bind_finished drops]
    dsimp only
    rw [run_current_bind, Internal.core, run_within_bind full]
    dsimp only
    rw [isBytes]
    rfl
  have received : run (External.receiveRead cfg device
      (External.announce posted .writeThrough request) true)
      (inPhase latter.runtime .transferInProgress posted request) =
        .finished ⟨none, bytes⟩ (inPhase latter.runtime .transferComplete posted request) := by
    have fullExternal : run (poolAlloc cfg (chunkCountFor request.totalLen))
        latter.runtime.runtime = .finished none latter.runtime.runtime := by
      rw [← sameDropped.runtime]
      exact full
    have allocates : run (External.core (poolAlloc cfg (chunkCountFor request.totalLen)))
        (inPhase latter.runtime .transferInProgress posted request) =
          .finished none (inPhase latter.runtime .transferInProgress posted request) :=
      run_within fullExternal
    rw [External.receiveRead, if_pos rfl, External.announce]
    dsimp only
    rw [run_bind_finished allocates]
    have effects : (inPhase latter.runtime .transferInProgress posted request).runtime.effects =
        dropped.runtime.effects := by
      rw [sameDropped.runtime]
      rfl
    rw [run_current_bind, effects]
    dsimp only
    rw [isBytes]
    rfl
  have filled : bytes ≠ [] := by
    apply List.ne_nil_of_length_pos
    rw [sized]
    exact positive
  have absent := (sameDropped.vacant kept.gone).1
  rw [received] at begins
  rw [internally, transfer_receives erased absent begins (by simp [filled])]
  apply Both.finished
  have keeps := sameDropped.keep_heap sized positive kept.gone rfl rfl
  exact {
    same := ⟨sameDropped.runtime, keeps.seen, keeps.commitIssued, keeps.evictIssued, keeps.values,
      keeps.accounts⟩
    effects := by simp [kept.effects]
    seen := kept.seen
    active := rfl }

end KvCache.HostTransfer
