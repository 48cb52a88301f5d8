import KvCache.Host.WorkerWriteThrough

/-!
# Promotion and host serve under both host workers

The writes that answer a promote or a host serve are a function of the request and of the host
value. Each worker makes exactly these before it waits for the device.
-/

namespace KvCache.HostTransfer

open Layout Pool PoolMachine Function Worker

variable {cfg : RuntimeConfig} {device : Device}

/-! ## Promotion and host serve -/

theorem effects_emitAll (effects : List Effect) (runtime : Runtime) :
    (emitAll effects runtime).effects = runtime.effects ++ effects := by
  induction effects generalizing runtime with
  | nil => simp [emitAll]
  | cons effect rest inductionHypothesis =>
    have step : emitAll (effect :: rest) runtime = emitAll rest (emit effect runtime) := rfl
    rw [step, inductionHypothesis]
    simp [emit]

theorem emitAll_append (first second : List Effect) (runtime : Runtime) :
    emitAll (first ++ second) runtime = emitAll second (emitAll first runtime) :=
  List.foldl_append

theorem poolMeta_emitAll (effects : List Effect) (runtime : Runtime) :
    (emitAll effects runtime).poolMeta = runtime.poolMeta := by
  induction effects generalizing runtime with
  | nil => rfl
  | cons effect rest inductionHypothesis => exact inductionHypothesis (emit effect runtime)

theorem poolFree_emitAll (effects : List Effect) (runtime : Runtime) :
    (emitAll effects runtime).poolFree = runtime.poolFree := by
  induction effects generalizing runtime with
  | nil => rfl
  | cons effect rest inductionHypothesis => exact inductionHypothesis (emit effect runtime)

/-- Where the device reads a host value: in the pool, or zero for the staging window. -/
def readOffOf (cfg : RuntimeConfig) (value : Internal.HostValue) : Nat :=
  if value.poolUnits = 0 then 0 else cfg.poolReadOff + value.poolUnit * maxChunkValueBytes

theorem readOffOf_heap {value : Internal.HostValue} (heap : value.poolUnits = 0) :
    readOffOf cfg value = 0 := by
  rw [readOffOf, if_pos heap]

/-- The commit request for a host value. -/
def commitOf (cfg : RuntimeConfig) (request : MoveRequest) (value : Internal.HostValue) :
    CommitRequest :=
  ⟨request.slot, request.valueByteOff, request.totalLen, request.keyLen,
    request.keyArea.take request.keyLen, readOffOf cfg value⟩

/-- The writes that stage a value before its commit request. -/
def admissionEffects (cfg : RuntimeConfig) (request : MoveRequest) (value : Internal.HostValue) :
    List Effect :=
  if 0 < value.poolUnits then []
  else if cfg.stageNocOk then [.stage 0 value.heap]
  else
    (bankWrites cfg (External.fillPage cfg) value.heap request.valueByteOff request.totalLen).map
      .heapWrite

/-- The writes that stage a value after its commit request. -/
def streamEffects (request : MoveRequest) (value : Internal.HostValue) : List Effect :=
  if 0 < value.poolUnits then [.stageProgress (chunkCountFor request.totalLen)]
  else stageStream value.heap request.totalLen

/-- The writes that answer a promote or a host serve. -/
def supplyEffects (cfg : RuntimeConfig) (request : MoveRequest) (value : Internal.HostValue)
    (issued : Nat) : List Effect :=
  if request.op = moveOpHostServe ∧ cfg.stageNocOk = true then
    [.stageProgress 0, .commitReq (commitOf cfg request value), .commitReqSem issued] ++
      streamEffects request value
  else
    admissionEffects cfg request value ++
      [.commitReq (commitOf cfg request value), .commitReqSem issued]

/-- What a host value must be for a request to be served from it. -/
structure Serves (cfg : RuntimeConfig) (request : MoveRequest) (value : Internal.HostValue) :
    Prop where
  len : value.len = request.totalLen
  positive : 0 < request.totalLen
  fits : request.totalLen ≤ cfg.stageBytes
  sized : value.poolUnits = 0 → value.heap.length = request.totalLen
  staged : 0 < value.poolUnits → cfg.stageNocOk = true
  past : 0 < value.poolUnits → readOffOf cfg value ≠ 0
  key : request.keyLen ≤ maxPutKeyBytes

/-- The two ways to fill a page agree on a unit. -/
theorem fillPage_same (offset : Nat) (unit : List UInt8) (scratch : ByteMemory)
    (short : unit.length ≤ maxChunkValueBytes) :
    Internal.fillPage cfg offset unit scratch = External.fillPage cfg offset unit scratch := by
  unfold Internal.fillPage External.fillPage
  dsimp only
  split
  · rfl
  · next full =>
    have filled := cfg.paged
    rw [ByteMemory.clear_empty (by omega)]

/-- The bytes of a value on the host heap. -/
theorem hostValueBytes_heap {request : MoveRequest} {value : Internal.HostValue}
    (serves : Serves cfg request value) (heap : value.poolUnits = 0) (runtime : Runtime) :
    Internal.hostValueBytes cfg runtime value request.totalLen = value.heap := by
  have sized := serves.sized heap
  simp only [Internal.hostValueBytes, heap, Nat.lt_irrefl, if_false]
  rw [← sized, List.take_length]

theorem internal_stream (state : Internal.State) {request : MoveRequest}
    {value : Internal.HostValue} (stored : state.hostValues request.slot = some value)
    (serves : Serves cfg request value) :
    run (Internal.stageHostValueForStream cfg request.slot request.totalLen (readOffOf cfg value))
      state = .finished ()
        { state with runtime := emitAll (streamEffects request value) state.runtime } := by
  have residency : readOffOf cfg value ≠ 0 ↔ 0 < value.poolUnits := by
    constructor
    · intro offset
      by_contra none
      exact offset (readOffOf_heap (Nat.eq_zero_of_not_pos none))
    · exact serves.past
  rw [Internal.stageHostValueForStream, run_current_bind, stored]
  dsimp only
  rw [run_fatalUnless_bind serves.len, run_fatalUnless_bind residency]
  by_cases pooled : 0 < value.poolUnits
  · rw [if_pos (residency.mpr pooled), streamEffects, if_pos pooled]
    rfl
  · rw [if_neg (fun offset => pooled (residency.mp offset)), streamEffects, if_neg pooled,
      run_fatalUnless_bind serves.fits, serves.len,
      hostValueBytes_heap serves (Nat.eq_zero_of_not_pos pooled)]
    rfl

theorem internal_admission (state : Internal.State) {request : MoveRequest}
    {value : Internal.HostValue} (stored : state.hostValues request.slot = some value)
    (serves : Serves cfg request value) :
    run (Internal.stageValueHostToDevice cfg request.slot request.valueByteOff request.totalLen
      (readOffOf cfg value)) state = .finished ()
        { state with runtime := emitAll (admissionEffects cfg request value) state.runtime } := by
  rw [Internal.stageValueHostToDevice, run_current_bind, stored]
  dsimp only
  by_cases pooled : 0 < value.poolUnits
  · rw [if_pos (serves.staged pooled), if_pos (serves.past pooled), admissionEffects,
      if_pos pooled]
    rfl
  · have heap : value.poolUnits = 0 := Nat.eq_zero_of_not_pos pooled
    have bytes := hostValueBytes_heap serves heap state.runtime
    have window : readOffOf cfg value = 0 := readOffOf_heap heap
    rw [admissionEffects, if_neg pooled]
    by_cases staged : cfg.stageNocOk = true
    · rw [if_pos staged, if_pos staged, window, if_neg (by simp), run_fatalUnless_bind serves.len,
        run_fatalUnless_bind serves.fits, bytes]
      exact run_within_change _ _
    · rw [if_neg staged, if_neg staged, serves.len, bytes, run_fatalUnless_bind (serves.sized heap),
        bankWrites_congr cfg fillPage_same]
      exact run_within_change _ _

theorem run_postCommitReq (request : CommitRequest) (state : Internal.State) :
    run (Internal.postCommitReq request) state = .finished ()
      { state with
        runtime := emitAll [.commitReq request, .commitReqSem state.commitIssued] state.runtime } :=
  rfl

/-- The internal worker, up to the wait for the device. -/
theorem internal_moveToDevice {internal : Internal.State} {request : MoveRequest}
    {value : Internal.HostValue} (stored : internal.hostValues request.slot = some value)
    (serves : Serves cfg request value) :
    run (Internal.moveToDevice cfg device request) internal =
      run (await fun state => device.promoteDone state.runtime.effects state.commitIssued)
        { internal with
          runtime := emitAll (supplyEffects cfg request value (succ32 internal.commitIssued))
            internal.runtime
          commitIssued := succ32 internal.commitIssued } := by
  have readOff : Internal.promoteReadOff cfg request.slot internal = readOffOf cfg value := by
    simp only [Internal.promoteReadOff, stored, readOffOf]
  have commit : (⟨request.slot, request.valueByteOff, request.totalLen, request.keyLen,
      request.keyArea.take (min request.keyLen maxPutKeyBytes), readOffOf cfg value⟩ :
        CommitRequest) = commitOf cfg request value := by
    rw [Nat.min_eq_left serves.key, commitOf]
  simp only [Internal.moveToDevice, run_current_bind, readOff, commit, run_change_bind]
  by_cases fused : request.op = moveOpHostServe ∧ cfg.stageNocOk = true
  · rw [if_pos fused, supplyEffects, if_pos fused, emitAll_append, Internal.core,
      run_within_change_bind, run_bind_finished (run_postCommitReq _ _),
      run_bind_finished (internal_stream _ (by exact stored) serves)]
    rfl
  · rw [if_neg fused, supplyEffects, if_neg fused, emitAll_append,
      run_bind_finished (internal_admission _ (by exact stored) serves),
      run_bind_finished (run_postCommitReq _ _)]

/-- The kind tells the operation. -/
theorem op_of_kind {op : Nat} {kind : External.Kind}
    (supported : External.hostRequestKind op = some kind) :
    (op = moveOpWriteThrough ↔ kind = .writeThrough) ∧
      (op = moveOpRemoveBacking ↔ kind = .removeBacking) ∧
      (op = moveOpDevicePromote ↔ kind = .promoteToDevice) ∧
      (op = moveOpHostServe ↔ kind = .serveGet) := by
  grind [External.hostRequestKind, moveOpWriteThrough, moveOpRemoveBacking, moveOpDevicePromote,
    moveOpHostServe]

/-- The lease that backs a value, if it lies in the pool. -/
def sourceLease (cfg : RuntimeConfig) (slot : Nat) (value : Internal.HostValue) :
    Option External.HostLease :=
  if 0 < value.poolUnits then some (leaseOf cfg slot value) else none

/-- The bytes that back a value on the host heap. -/
def sourceBytes (value : Internal.HostValue) : List UInt8 :=
  if 0 < value.poolUnits then [] else value.heap

theorem run_postCommitRequest (request : CommitRequest) (core : External.Core) :
    run (External.postCommitRequest request) core = .finished ()
      { core with
        runtime := emitAll [.commitReq request, .commitReqSem core.commitIssued] core.runtime } :=
  rfl

theorem external_stream (core : External.Core) {posted : Nat} {kind : External.Kind}
    {request : MoveRequest} {value : Internal.HostValue} (serves : Serves cfg request value) :
    run (External.stageForStream cfg (External.announce posted kind request)
      (sourceLease cfg request.slot value) (sourceBytes value)) core = .finished ()
        { core with runtime := emitAll (streamEffects request value) core.runtime } := by
  by_cases pooled : 0 < value.poolUnits
  · rw [sourceLease, if_pos pooled, streamEffects, if_pos pooled]
    rfl
  · rw [sourceLease, if_neg pooled, sourceBytes, if_neg pooled, streamEffects, if_neg pooled,
      External.stageForStream]
    rw [run_fatalUnless_bind (by exact serves.fits)]
    rfl

theorem external_admission (core : External.Core) {posted : Nat} {kind : External.Kind}
    {request : MoveRequest} {value : Internal.HostValue} (serves : Serves cfg request value) :
    run (External.stageForPromotion cfg (External.announce posted kind request)
      (sourceLease cfg request.slot value) (sourceBytes value)) core = .finished ()
        { core with runtime := emitAll (admissionEffects cfg request value) core.runtime } := by
  by_cases pooled : 0 < value.poolUnits
  · rw [sourceLease, if_pos pooled, admissionEffects, if_pos pooled, External.stageForPromotion,
      if_pos (serves.staged pooled)]
    rfl
  · have sized := serves.sized (Nat.eq_zero_of_not_pos pooled)
    rw [sourceLease, if_neg pooled, sourceBytes, if_neg pooled, admissionEffects, if_neg pooled,
      External.stageForPromotion]
    by_cases staged : cfg.stageNocOk = true
    · rw [if_pos staged, if_pos staged]
      rw [run_fatalUnless_bind (by exact serves.fits)]
      have whole : value.heap.take request.totalLen = value.heap := by
        rw [← sized, List.take_length]
      simp only [External.announce, whole]
      exact run_within_change _ _
    · rw [if_neg staged, if_neg staged, run_fatalUnless_bind rfl]
      exact run_within_change _ _

/-- The external runtime, up to the wait for the device. -/
theorem external_supply {core : External.Core} {posted : Nat} {kind : External.Kind}
    {request : MoveRequest} {value : Internal.HostValue}
    (active : core.request = some (activeIn .pending posted request))
    (supported : External.hostRequestKind request.op = some kind)
    (direction : kind = .promoteToDevice ∨ kind = .serveGet) (serves : Serves cfg request value) :
    run (External.supplyExternalValue cfg device (External.announce posted kind request)
      (sourceLease cfg request.slot value) (sourceBytes value)) core =
      run (await (fun state => device.promoteDone state.runtime.effects state.commitIssued) >>=
          fun _ => External.setPhase .transferComplete)
        { inPhase core .transferInProgress posted request with
          runtime := emitAll (supplyEffects cfg request value (succ32 core.commitIssued))
            core.runtime
          commitIssued := succ32 core.commitIssued } := by
  have fits : External.sourceFits (External.announce posted kind request)
      (sourceLease cfg request.slot value) (sourceBytes value) := by
    by_cases pooled : 0 < value.poolUnits
    · rw [sourceLease, if_pos pooled, sourceBytes, if_pos pooled]
      exact ⟨rfl, serves.len⟩
    · have sized := serves.sized (Nat.eq_zero_of_not_pos pooled)
      rw [sourceLease, if_neg pooled, sourceBytes, if_neg pooled]
      refine ⟨List.ne_nil_of_length_pos ?_, sized⟩
      rw [sized]
      exact serves.positive
  have commit : (⟨request.slot, request.valueByteOff, request.totalLen, request.keyLen,
      request.keyArea.take request.keyLen,
      ((sourceLease cfg request.slot value).map External.HostLease.readOffset).getD 0⟩ :
        CommitRequest) = commitOf cfg request value := by
    have offset : ((sourceLease cfg request.slot value).map
        External.HostLease.readOffset).getD 0 = readOffOf cfg value := by
      by_cases pooled : 0 < value.poolUnits
      · rw [sourceLease, if_pos pooled, readOffOf, if_neg (Nat.pos_iff_ne_zero.mp pooled)]
        rfl
      · rw [sourceLease, if_neg pooled, readOffOf, if_pos (Nat.eq_zero_of_not_pos pooled)]
        rfl
    rw [offset, commitOf]
  have serving : ((External.announce posted kind request).kind = .serveGet ∧
      cfg.stageNocOk = true) ↔ (request.op = moveOpHostServe ∧ cfg.stageNocOk = true) :=
    and_congr_left' (op_of_kind supported).2.2.2.symm
  rw [External.supplyExternalValue, run_bind_finished (run_validate active supported),
    run_fatalUnless_bind (by exact direction), run_fatalUnless_bind (by rfl),
    run_fatalUnless_bind fits, run_bind_finished (run_setPhase active)]
  dsimp only
  rw [run_change_bind]
  have commitHere : (⟨(External.announce posted kind request).slot,
      (External.announce posted kind request).deviceValueOffset,
      (External.announce posted kind request).valueLen,
      (activeIn .pending posted request).keyLen, (activeIn .pending posted request).key,
      ((sourceLease cfg request.slot value).map External.HostLease.readOffset).getD 0⟩ :
        CommitRequest) = commitOf cfg request value := commit
  rw [commitHere]
  by_cases fused : request.op = moveOpHostServe ∧ cfg.stageNocOk = true
  · rw [if_pos (serving.mpr fused), supplyEffects, if_pos fused, emitAll_append, External.core,
      run_within_change_bind, run_bind_finished (run_postCommitRequest _ _),
      run_bind_finished (external_stream _ serves)]
    rfl
  · rw [if_neg (fun both => fused (serving.mp both)), supplyEffects, if_neg fused, emitAll_append,
      run_bind_finished (external_admission _ serves),
      run_bind_finished (run_postCommitRequest _ _)]
    rfl

/-- A backed value of the right length can be served. -/
theorem serves_of_backs {request : MoveRequest} {kind : External.Kind} {record : PoolMeta}
    {value : Internal.HostValue} {mirror : External.HostValue}
    (formed : External.WellFormed cfg request kind)
    (direction : kind = .promoteToDevice ∨ kind = .serveGet)
    (backs : Backs cfg request.slot record (some value) (some mirror))
    (len : value.len = request.totalLen) :
    Serves cfg request value ∧ mirror.len = request.totalLen ∧
      mirror.lease = sourceLease cfg request.slot value ∧
      (if mirror.lease = none then mirror.bytes else []) = sourceBytes value := by
  obtain ⟨-, key, shape⟩ := formed
  have notRemoval : kind ≠ .removeBacking := by
    rintro rfl
    simp at direction
  rw [if_neg notRemoval] at shape
  obtain ⟨⟨positive, bounded⟩, -, -⟩ := shape
  have fits : request.totalLen ≤ cfg.stageBytes :=
    bounded.trans (le_chunkCountFor_mul cfg.maxValueBytes)
  obtain ⟨sameLen, -, source⟩ := backs
  cases leased : mirror.lease with
  | none =>
    rw [leased] at source
    obtain ⟨heap, bytes, sized, -⟩ := source
    refine ⟨?_, sameLen.symm.trans len, ?_, ?_⟩
    · exact {
        len := len
        positive := positive
        fits := fits
        sized := fun _ => by rw [bytes, sized, ← sameLen, len]
        staged := fun pooled => absurd heap (Nat.pos_iff_ne_zero.mp pooled)
        past := fun pooled => absurd heap (Nat.pos_iff_ne_zero.mp pooled)
        key := key.trans cfg.keyFits }
    · simp [sourceLease, heap]
    · simp [sourceBytes, heap, bytes]
  | some lease =>
    rw [leased] at source
    obtain ⟨pooled, units, isLease, -, -⟩ := source
    have nonzero := Nat.pos_iff_ne_zero.mp units
    refine ⟨?_, sameLen.symm.trans len, ?_, ?_⟩
    · exact {
        len := len
        positive := positive
        fits := fits
        sized := fun heap => absurd heap nonzero
        staged := fun _ => cfg.poolMapped pooled
        past := fun _ => by
          have past := cfg.poolPast pooled
          rw [readOffOf, if_neg nonzero]
          omega
        key := key.trans cfg.keyFits }
    · rw [sourceLease, if_pos units, isLease]
    · simp [sourceBytes, units]

/-- Writes that leave the pool alone keep the states matched. -/
theorem Matches.emit {internal : Internal.State} {external : External.State}
    (same : Matches cfg internal external) (effects : List Effect) (issued : Nat)
    (request : Option External.RequestState) :
    Matches cfg
      { internal with
        runtime := emitAll effects internal.runtime
        commitIssued := issued }
      { external with
        runtime := { external.runtime with
          runtime := emitAll effects external.runtime.runtime
          request := request
          commitIssued := issued } } where
  runtime := by rw [same.runtime]
  seen := same.seen
  commitIssued := rfl
  evictIssued := same.evictIssued
  values := by
    intro slot
    have record := congrFun (poolMeta_emitAll effects internal.runtime) slot
    simpa only [record] using same.values slot
  accounts := by
    rw [poolFree_emitAll]
    exact same.accounts

/-- A promote or a serve of a backed value leaves the same writes. -/
theorem supply_agrees {internal : Internal.State} {external : External.State}
    (same : Matches cfg internal external) {posted : Nat} {kind : External.Kind}
    {request : MoveRequest} {value : Internal.HostValue}
    (active : external.runtime.request = some (activeIn .pending posted request))
    (supported : External.hostRequestKind request.op = some kind)
    (direction : kind = .promoteToDevice ∨ kind = .serveGet)
    (formed : External.WellFormed cfg request kind)
    (stored : internal.hostValues request.slot = some value) (len : value.len = request.totalLen) :
    Both
      (Transferred cfg .transferComplete posted request
        (supplyEffects cfg request value (succ32 internal.commitIssued)) internal)
      (fun after latter => device.Silent ∧ Transferred cfg .transferInProgress posted request
        (supplyEffects cfg request value (succ32 internal.commitIssued)) internal after latter)
      (run (Internal.moveToDevice cfg device request) internal)
      (run (External.transferValue cfg device (External.announce posted kind request)) external) := by
  have backs := same.values request.slot
  rw [stored] at backs
  cases other : external.hostValues request.slot with
  | none => simp [other, Backs] at backs
  | some mirror =>
    rw [other] at backs
    obtain ⟨serves, mirrorLen, lease, bytes⟩ := serves_of_backs formed direction backs len
    have supplies := @external_supply cfg device external.runtime posted kind request value active
      supported direction serves
    have transfers : run (External.transferValue cfg device (External.announce posted kind request))
        external = run (External.call (External.supplyExternalValue cfg device
          (External.announce posted kind request) (sourceLease cfg request.slot value)
          (sourceBytes value))) external := by
      have slot : (External.announce posted kind request).slot = request.slot := rfl
      rcases direction with rfl | rfl <;>
      · rw [External.transferValue]
        simp only [External.announce, run_current_bind, other]
        refine (run_fatalUnless_bind mirrorLen _ _).trans ?_
        rw [bytes, lease]
    rw [internal_moveToDevice stored serves, transfers]
    rw [← same.commitIssued, ← same.runtime] at supplies
    generalize effects : supplyEffects cfg request value (succ32 internal.commitIssued) = writes at *
    have emitted := same.emit writes (succ32 internal.commitIssued)
    rw [← same.runtime] at emitted
    cases answered : device.promoteDone (emitAll writes internal.runtime).effects
      (succ32 internal.commitIssued) with
    | true =>
      have internally : run (await fun state : Internal.State =>
          device.promoteDone state.runtime.effects state.commitIssued)
          { internal with
            runtime := emitAll writes internal.runtime
            commitIssued := succ32 internal.commitIssued } = .finished ()
          { internal with
            runtime := emitAll writes internal.runtime
            commitIssued := succ32 internal.commitIssued } := by
        rw [await, run_awaitOr, if_pos answered]
      have externally : run (External.supplyExternalValue cfg device
          (External.announce posted kind request) (sourceLease cfg request.slot value)
          (sourceBytes value)) external.runtime = .finished ()
            { external.runtime with
              runtime := emitAll writes internal.runtime
              request := some (activeIn .transferComplete posted request)
              commitIssued := succ32 internal.commitIssued } := by
        rw [supplies, await, run_awaitOr_bind, if_pos answered]
        rfl
      rw [internally, External.call, run_within externally]
      apply Both.finished
      exact {
        same := emitted _
        effects := effects_emitAll writes internal.runtime
        seen := rfl
        active := rfl }
    | false =>
      have internally : run (await fun state : Internal.State =>
          device.promoteDone state.runtime.effects state.commitIssued)
          { internal with
            runtime := emitAll writes internal.runtime
            commitIssued := succ32 internal.commitIssued } = .stopped
          { internal with
            runtime := emitAll writes internal.runtime
            commitIssued := succ32 internal.commitIssued } := by
        rw [await, run_awaitOr, if_neg (by simp [answered])]
        rfl
      have externally : run (External.supplyExternalValue cfg device
          (External.announce posted kind request) (sourceLease cfg request.slot value)
          (sourceBytes value)) external.runtime = .stopped
            { external.runtime with
              runtime := emitAll writes internal.runtime
              request := some (activeIn .transferInProgress posted request)
              commitIssued := succ32 internal.commitIssued } := by
        rw [supplies, await, run_awaitOr_bind, if_neg (by simp [answered])]
        rfl
      rw [internally, External.call, run_within_stopped externally]
      apply Both.stopped
      refine ⟨⟨_, _, Or.inr answered⟩, ?_⟩
      exact {
        same := emitted _
        effects := effects_emitAll writes internal.runtime
        seen := rfl
        active := rfl }

/-- A drop of the backing leaves no writes. -/
theorem remove_agrees {internal : Internal.State} {external : External.State}
    (same : Matches cfg internal external) {posted : Nat} {request : MoveRequest}
    (inRange : request.slot < cfg.maxKeys)
    (active : external.runtime.request = some (activeIn .pending posted request)) :
    Both (Transferred cfg .pending posted request [] internal) (fun _ _ => False)
      (run (Internal.dropHostValue cfg request.slot) internal)
      (run (External.transferValue cfg device (External.announce posted .removeBacking request))
        external) := by
  obtain ⟨dropped, drops, sameDropped, kept⟩ := drop_matches same inRange
  have erases : run (External.transferValue cfg device
      (External.announce posted .removeBacking request)) external =
        .finished () (External.eraseHostValue cfg request.slot external) := rfl
  rw [drops, erases]
  apply Both.finished
  exact {
    same := sameDropped
    effects := by simp [kept.effects]
    seen := kept.seen
    active := kept.request.trans active }

end KvCache.HostTransfer
