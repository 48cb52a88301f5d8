import KvCache.Host.WorkerSupply

/-!
# The two host workers agree

From states with the same backing for every slot, both workers answer a well-formed request by
the same writes in the same order, and are again left with the same backing.
-/

namespace KvCache.HostTransfer

open Layout Pool PoolMachine Function Worker

variable {cfg : RuntimeConfig} {device : Device}

/-! ## What the device is told -/

theorem progressOf_stageBlocks (source : List UInt8) (totalLen numChunks : Nat) :
    ∀ blocks base, base ≤ numChunks → numChunks ≤ base + stageBlockChunks * blocks →
      stageBlockChunks * blocks < numChunks - base + stageBlockChunks →
      (base :: progressOf (stageBlocks source totalLen numChunks blocks base)).Pairwise (· ≤ ·) ∧
        (base :: progressOf (stageBlocks source totalLen numChunks blocks base)).getLast? =
          some numChunks := by
  intro blocks
  induction blocks with
  | zero =>
    intro base below reach _
    have done : base = numChunks := by omega
    subst done
    simp [stageBlocks, progressOf]
  | succ blocks inductionHypothesis =>
    intro base below reach tight
    have unfolded : progressOf (stageBlocks source totalLen numChunks (blocks + 1) base) =
        (base + min stageBlockChunks (numChunks - base)) ::
          progressOf (stageBlocks source totalLen numChunks blocks (base + stageBlockChunks)) := rfl
    rw [unfolded]
    simp only [stageBlockChunks] at *
    by_cases whole : 64 ≤ numChunks - base
    · obtain ⟨sorted, last⟩ := inductionHypothesis (base + 64) (by omega) (by omega) (by omega)
      rw [Nat.min_eq_left whole]
      constructor
      · apply List.Pairwise.cons ?_ sorted
        intro later member
        have after : base + 64 ≤ later := by
          rcases List.mem_cons.mp member with rfl | further
          · exact Nat.le_refl _
          · exact (List.pairwise_cons.mp sorted).1 later further
        omega
      · rw [List.getLast?_cons_cons]
        exact last
    · have final : blocks = 0 := by omega
      subst final
      have reached : base + min 64 (numChunks - base) = numChunks := by omega
      rw [reached]
      simp [stageBlocks, progressOf, below]

/-- The writes that answer a request, besides the count of processed requests. -/
structure Answers (cfg : RuntimeConfig) (request : MoveRequest) (before : Internal.State)
    (fresh : List Effect) : Prop where
  uncounted : ∀ count, Effect.moveProcessed count ∉ fresh
  commits : ∀ commit, .commitReq commit ∈ fresh →
    ∃ value, before.hostValues request.slot = some value ∧ commit = commitOf cfg request value
  progress :
    if request.op = moveOpHostServe ∧ cfg.stageNocOk = true then
      ∃ commit issued rest,
        fresh = .stageProgress 0 :: .commitReq commit :: .commitReqSem issued :: rest ∧
          (0 :: progressOf rest).Pairwise (· ≤ ·) ∧
          (0 :: progressOf rest).getLast? = some (chunkCountFor request.totalLen)
    else progressOf fresh = []

theorem mem_stageBlocks {source : List UInt8} {totalLen numChunks : Nat} {effect : Effect} :
    ∀ {blocks base}, effect ∈ stageBlocks source totalLen numChunks blocks base →
      (∃ offset bytes, effect = .stage offset bytes) ∨ ∃ chunks, effect = .stageProgress chunks := by
  intro blocks
  induction blocks with
  | zero => simp [stageBlocks]
  | succ blocks inductionHypothesis =>
    intro base member
    simp only [stageBlocks, List.mem_cons] at member
    rcases member with rfl | rfl | later
    · exact Or.inl ⟨_, _, rfl⟩
    · exact Or.inr ⟨_, rfl⟩
    · exact inductionHypothesis later

theorem mem_streamEffects {request : MoveRequest} {value : Internal.HostValue} {effect : Effect}
    (member : effect ∈ streamEffects request value) :
    (∃ offset bytes, effect = .stage offset bytes) ∨ ∃ chunks, effect = .stageProgress chunks := by
  unfold streamEffects at member
  split at member
  · simp only [List.mem_singleton] at member
    exact Or.inr ⟨_, member⟩
  · exact mem_stageBlocks member

theorem mem_admissionEffects {request : MoveRequest} {value : Internal.HostValue} {effect : Effect}
    (member : effect ∈ admissionEffects cfg request value) :
    (∃ offset bytes, effect = .stage offset bytes) ∨ ∃ write, effect = .heapWrite write := by
  unfold admissionEffects at member
  split at member
  · exact nomatch member
  · split at member
    · simp only [List.mem_singleton] at member
      exact Or.inl ⟨_, _, member⟩
    · obtain ⟨write, -, rfl⟩ := List.mem_map.mp member
      exact Or.inr ⟨write, rfl⟩

/-- The progress of a stream does not decrease and ends at the chunks of the value. -/
theorem progressOf_streamEffects (request : MoveRequest) (value : Internal.HostValue) :
    (0 :: progressOf (streamEffects request value)).Pairwise (· ≤ ·) ∧
      (0 :: progressOf (streamEffects request value)).getLast? =
        some (chunkCountFor request.totalLen) := by
  unfold streamEffects
  split
  · simp [progressOf]
  · apply progressOf_stageBlocks
    · exact Nat.zero_le _
    · simp only [stageBlockChunks]
      omega
    · simp only [stageBlockChunks]
      omega

theorem answers_supply {request : MoveRequest} {before : Internal.State}
    {value : Internal.HostValue} (stored : before.hostValues request.slot = some value)
    (issued : Nat) : Answers cfg request before (supplyEffects cfg request value issued) := by
  unfold supplyEffects
  split
  · next fused =>
    constructor
    · intro count member
      simp only [List.cons_append, List.nil_append, List.mem_cons, reduceCtorEq, false_or] at member
      rcases mem_streamEffects member with ⟨_, _, impossible⟩ | ⟨_, impossible⟩ <;>
        cases impossible
    · intro commit member
      simp only [List.cons_append, List.nil_append, List.mem_cons, reduceCtorEq, false_or,
        Effect.commitReq.injEq] at member
      rcases member with rfl | member
      · exact ⟨value, stored, rfl⟩
      · rcases mem_streamEffects member with ⟨_, _, impossible⟩ | ⟨_, impossible⟩ <;>
          cases impossible
    · rw [if_pos fused]
      exact ⟨_, _, _, rfl, progressOf_streamEffects request value⟩
  · next plain =>
    constructor
    · intro count member
      simp only [List.mem_append, List.mem_cons, reduceCtorEq, List.not_mem_nil, or_false] at member
      rcases mem_admissionEffects member with ⟨_, _, impossible⟩ | ⟨_, impossible⟩ <;>
        cases impossible
    · intro commit member
      simp only [List.mem_append, List.mem_cons, reduceCtorEq, List.not_mem_nil, or_false,
        Effect.commitReq.injEq] at member
      rcases member with member | rfl
      · rcases mem_admissionEffects member with ⟨_, _, impossible⟩ | ⟨_, impossible⟩ <;>
          cases impossible
      · exact ⟨value, stored, rfl⟩
    · rw [if_neg plain]
      apply List.filterMap_eq_nil_iff.mpr
      intro effect member
      simp only [List.mem_append, List.mem_cons, List.not_mem_nil, or_false] at member
      rcases member with member | rfl | rfl
      · rcases mem_admissionEffects member with ⟨_, _, rfl⟩ | ⟨_, rfl⟩ <;> rfl
      · rfl
      · rfl

/-! ## One request -/

/-- The bytes that back a slot under the internal worker. -/
def Internal.backing (cfg : RuntimeConfig) (state : Internal.State) (slot : Nat) :
    Option (List UInt8) :=
  (state.hostValues slot).map fun value =>
    Internal.hostValueBytes cfg state.runtime value value.len

/-- The bytes that back a slot under the external worker. -/
def External.backing (state : External.State) (slot : Nat) : Option (List UInt8) :=
  (state.hostValues slot).map fun value =>
    match value.lease with
    | some lease => state.runtime.runtime.window.read lease.readOffset lease.valueLen
    | none => value.bytes

/-- Matched states back every slot with the same bytes. -/
theorem Matches.backing {internal : Internal.State} {external : External.State}
    (same : Matches cfg internal external) (slot : Nat) :
    Internal.backing cfg internal slot = External.backing external slot := by
  have backs := same.values slot
  unfold Internal.backing External.backing
  cases stored : internal.hostValues slot with
  | none => rw [(same.vacant stored).1]; rfl
  | some value =>
    cases other : external.hostValues slot with
    | none => simp [stored, other, Backs] at backs
    | some mirror =>
      rw [stored, other] at backs
      obtain ⟨sameLen, -, source⟩ := backs
      simp only [Option.map_some, Internal.hostValueBytes]
      cases leased : mirror.lease with
      | none =>
        rw [leased] at source
        obtain ⟨heap, bytes, sized, -⟩ := source
        rw [if_neg (by omega), bytes, sameLen, ← sized, List.take_length]
      | some lease =>
        rw [leased] at source
        obtain ⟨-, units, isLease, -, -⟩ := source
        rw [if_pos units, same.runtime, isLease]
        rfl

/-- Both workers have handled a request: the states agree again, the writes are the same and
answer the request, and the request is counted once. -/
structure Answered (cfg : RuntimeConfig) (posted : Nat) (request : MoveRequest)
    (before internal : Internal.State) (external : External.State) : Prop where
  agrees : Agrees cfg internal external
  seen : internal.seen = posted
  effects : ∃ fresh, Answers cfg request before fresh ∧
    internal.runtime.effects = before.runtime.effects ++ fresh ++ [.moveProcessed posted] ∧
    external.runtime.runtime.effects = before.runtime.effects ++ fresh ++ [.moveProcessed posted]
  backing : ∀ slot, Internal.backing cfg internal slot = External.backing external slot

/-- Both workers were stopped while they waited for the device: the states match, the writes are
the same, and the request is not counted. -/
structure Interrupted (cfg : RuntimeConfig) (request : MoveRequest)
    (before internal : Internal.State) (external : External.State) : Prop where
  same : Matches cfg internal external
  seen : internal.seen = before.seen
  effects : ∃ fresh, Answers cfg request before fresh ∧
    internal.runtime.effects = before.runtime.effects ++ fresh ∧
    external.runtime.runtime.effects = before.runtime.effects ++ fresh

/-- Both workers count a request whose transfer is made. -/
theorem completes {phase : External.Phase} {posted : Nat} {request : MoveRequest}
    {kind : External.Kind} {fresh : List Effect} {before internal : Internal.State}
    {external : External.State}
    (transferred : Transferred cfg phase posted request fresh before internal external)
    (posting : posted = succ32 before.seen)
    (supported : External.hostRequestKind request.op = some kind)
    (finishing : (kind = .removeBacking ∧ phase = .pending) ∨ phase = .transferComplete)
    (answers : Answers cfg request before fresh) :
    ∃ counted complete,
      run Internal.publishProcessed internal = .finished () counted ∧
      run (External.call (External.completeExternalHostRequest
        (External.announce posted kind request))) external = .finished () complete ∧
      Answered cfg posted request before counted complete := by
  have same := transferred.same
  have counts : succ32 internal.seen = posted := by rw [transferred.seen, posting]
  have written : (emitAll [.moveProcessed posted] internal.runtime).effects =
      before.runtime.effects ++ fresh ++ [.moveProcessed posted] := by
    rw [effects_emitAll, transferred.effects]
  have externally : run (External.completeExternalHostRequest
      (External.announce posted kind request)) external.runtime = .finished ()
        { external.runtime with
          runtime := emitAll [.moveProcessed posted] external.runtime.runtime
          seen := posted
          request := none } := by
    rw [External.completeExternalHostRequest,
      run_bind_finished (run_validate transferred.active supported),
      run_fatalUnless_bind (by exact finishing)]
    rfl
  have emitted := same.emit [.moveProcessed posted] internal.commitIssued none
  have internally : run Internal.publishProcessed internal = .finished ()
      { internal with
        runtime := emitAll [.moveProcessed posted] internal.runtime
        seen := posted } := by
    have plain : run Internal.publishProcessed internal = .finished ()
        { internal with
          runtime := emitAll [.moveProcessed (succ32 internal.seen)] internal.runtime
          seen := succ32 internal.seen } := rfl
    rw [plain, counts]
  have matched : Matches cfg
      { internal with
        runtime := emitAll [.moveProcessed posted] internal.runtime
        seen := posted }
      { external with
        runtime := { external.runtime with
          runtime := emitAll [.moveProcessed posted] external.runtime.runtime
          seen := posted
          request := none } } :=
    ⟨emitted.runtime, rfl, same.commitIssued, emitted.evictIssued, emitted.values, emitted.accounts⟩
  refine ⟨_, _, internally, run_within externally, ?_⟩
  exact {
    agrees := ⟨matched, rfl⟩
    seen := rfl
    effects := ⟨fresh, answers, written, by rw [← same.runtime]; exact written⟩
    backing := matched.backing }

/-- The host backing that a promote or a serve asks for is there, with the length asked for. -/
def Backed (request : MoveRequest) (kind : External.Kind) (state : Internal.State) : Prop :=
  kind = .promoteToDevice ∨ kind = .serveGet →
    ∃ value, state.hostValues request.slot = some value ∧ value.len = request.totalLen

/-- Both workers make the same transfer for a request. -/
theorem transfer_agrees {internal : Internal.State} {external : External.State}
    (same : Matches cfg internal external) {posted : Nat} {request : MoveRequest}
    {kind : External.Kind}
    (active : external.runtime.request = some (activeIn .pending posted request))
    (supported : External.hostRequestKind request.op = some kind)
    (formed : External.WellFormed cfg request kind) (backed : Backed request kind internal) :
    Both
      (fun after latter => ∃ phase fresh,
        ((kind = .removeBacking ∧ phase = .pending) ∨ phase = .transferComplete) ∧
        Answers cfg request internal fresh ∧
        Transferred cfg phase posted request fresh internal after latter)
      (fun after latter => device.Silent ∧ Interrupted cfg request internal after latter)
      (run (Internal.handleRequest cfg device request) internal)
      (run (External.transferValue cfg device (External.announce posted kind request)) external) := by
  obtain ⟨isWrite, isRemove, isPromote, isServe⟩ := op_of_kind supported
  have inRange := formed.1
  -- A stopped transfer has made its writes and counts nothing.
  have interrupted : ∀ fresh after latter, Answers cfg request internal fresh →
      device.Silent ∧ Transferred cfg .transferInProgress posted request fresh internal after latter →
      device.Silent ∧ Interrupted cfg request internal after latter := by
    intro fresh after latter answers ⟨silent, transferred⟩
    refine ⟨silent, transferred.same, transferred.seen, fresh, answers, transferred.effects, ?_⟩
    rw [← transferred.same.runtime]
    exact transferred.effects
  cases kind with
  | writeThrough =>
    have op : request.op = moveOpWriteThrough := isWrite.mpr rfl
    have unfused : ¬ (request.op = moveOpHostServe ∧ cfg.stageNocOk = true) := by
      rw [isServe]
      simp
    have positive : 0 < request.totalLen := formed.2.2.1.1
    rw [Internal.handleRequest, if_pos op]
    by_cases staged : cfg.stageNocOk = true
    · obtain ⟨readOff, generation, both⟩ :=
        @writeThrough_mapped cfg device _ _ same _ _ staged inRange positive active supported
      have answers : Answers cfg request internal
          [.evictAck readOff generation, .evictAckSem (succ32 internal.evictIssued)] := by
        constructor
        · simp
        · simp
        · rw [if_neg unfused]
          rfl
      apply both.imp
      · intro after latter transferred
        exact ⟨_, _, Or.inr rfl, answers, transferred⟩
      · exact fun after latter => interrupted _ after latter answers
    · have unstaged : cfg.stageNocOk = false := by simpa using staged
      have both := @writeThrough_read cfg device _ _ same _ _ unstaged inRange positive active
        supported
      have answers : Answers cfg request internal [] := by
        constructor
        · simp
        · simp
        · rw [if_neg unfused]
          rfl
      apply both.imp
      · intro after latter transferred
        exact ⟨_, _, Or.inr rfl, answers, transferred⟩
      · exact fun _ _ impossible => impossible.elim
  | removeBacking =>
    have op : request.op = moveOpRemoveBacking := isRemove.mpr rfl
    have unfused : ¬ (request.op = moveOpHostServe ∧ cfg.stageNocOk = true) := by
      rw [isServe]
      simp
    rw [Internal.handleRequest, if_neg (by rw [isWrite]; simp), if_pos op]
    have answers : Answers cfg request internal [] := by
      constructor
      · simp
      · simp
      · rw [if_neg unfused]
        rfl
    apply (remove_agrees same inRange active).imp
    · intro after latter transferred
      exact ⟨_, _, Or.inl ⟨rfl, rfl⟩, answers, transferred⟩
    · exact fun _ _ impossible => impossible.elim
  | promoteToDevice =>
    obtain ⟨value, stored, len⟩ := backed (Or.inl rfl)
    rw [Internal.handleRequest, if_neg (by rw [isWrite]; simp), if_neg (by rw [isRemove]; simp),
      if_pos (by rw [isPromote]; simp)]
    apply (supply_agrees same active supported (Or.inl rfl) formed stored len).imp
    · intro after latter transferred
      exact ⟨_, _, Or.inr rfl, answers_supply stored _, transferred⟩
    · exact fun after latter => interrupted _ after latter (answers_supply stored _)
  | serveGet =>
    obtain ⟨value, stored, len⟩ := backed (Or.inr rfl)
    rw [Internal.handleRequest, if_neg (by rw [isWrite]; simp), if_neg (by rw [isRemove]; simp),
      if_pos (by rw [isServe]; simp)]
    apply (supply_agrees same active supported (Or.inr rfl) formed stored len).imp
    · intro after latter transferred
      exact ⟨_, _, Or.inr rfl, answers_supply stored _, transferred⟩
    · exact fun after latter => interrupted _ after latter (answers_supply stored _)

/-- From states with the same backing, the two host workers answer every well-formed request
whose backing is there by the same writes and are left with the same backing; the request is
counted once. They are stopped together, with the same writes, if the wait for the device does
not end.

Proof: poll makes the decoded request the active one. The transfers agree by the kind of the
request, and each side then counts it. -/
theorem host_workers_agree {internal : Internal.State} {external : External.State}
    (agrees : Agrees cfg internal external) {posted : Nat} {request : MoveRequest}
    {kind : External.Kind} (posting : posted = succ32 internal.seen)
    (supported : External.hostRequestKind request.op = some kind)
    (formed : External.WellFormed cfg request kind) (backed : Backed request kind internal) :
    Both (Answered cfg posted request internal)
      (fun after latter => device.Silent ∧ Interrupted cfg request internal after latter)
      (run (Internal.tieringWorkerLoop cfg device posted request) internal)
      (run (External.tieringWorkerLoop cfg device posted request) external) := by
  have unseen : posted ≠ internal.seen := by
    rw [posting, succ32]
    omega
  have sameSeen := agrees.seen
  let polled : External.State :=
    { external with
      runtime := { external.runtime with request := some (activeIn .pending posted request) } }
  have polls : run (External.pollExternalHostRequest cfg posted request) external.runtime =
      .finished (some (External.announce posted kind request)) polled.runtime := by
    rw [External.pollExternalHostRequest, run_current_bind, run_fatalUnless_bind agrees.idle,
      if_neg (by rw [← sameSeen]; exact unseen),
      run_fatalUnless_bind (by rw [← sameSeen]; exact posting)]
    simp only [supported]
    rw [run_fatalUnless_bind formed]
    rfl
  have matched : Matches cfg internal polled :=
    ⟨agrees.runtime, agrees.seen, agrees.commitIssued, agrees.evictIssued, agrees.values,
      agrees.accounts⟩
  have both := @transfer_agrees cfg device internal polled matched posted request kind rfl supported
    formed backed
  have internally : run (Internal.tieringWorkerLoop cfg device posted request) internal =
      run (Internal.handleRequest cfg device request >>= fun _ => Internal.publishProcessed)
        internal := by
    rw [Internal.tieringWorkerLoop, run_current_bind, if_neg unseen]
  have externally : run (External.tieringWorkerLoop cfg device posted request) external =
      run (External.transferValue cfg device (External.announce posted kind request) >>= fun _ =>
        External.call (External.completeExternalHostRequest (External.announce posted kind request)))
        polled := by
    rw [External.tieringWorkerLoop, External.call, run_within_bind polls]
    rfl
  rw [internally, externally]
  generalize inner : run (Internal.handleRequest cfg device request) internal = first at both
  generalize outer : run (External.transferValue cfg device (External.announce posted kind request))
    polled = second at both
  cases both with
  | @finished after latter reached =>
    obtain ⟨phase, fresh, finishing, answers, transferred⟩ := reached
    obtain ⟨counted, complete, counts, closes, answered⟩ :=
      completes transferred posting supported finishing answers
    rw [run_bind_finished inner, run_bind_finished outer, counts, closes]
    exact .finished answered
  | @stopped after latter reached =>
    rw [run_bind_stopped inner, run_bind_stopped outer]
    exact .stopped reached

/-! ## Runs -/

/-- A runtime whose pool is free, with counters at some value. -/
def startRuntime (cfg : RuntimeConfig) : Runtime where
  poolFree := if cfg.poolUnitsTotal = 0 then [] else [⟨0, cfg.poolUnitsTotal⟩]
  poolMeta := fun _ => noRecord
  poolMetaGenerations := fun _ => 0
  window := fun _ => 0
  effects := []

/-- The internal worker without host values. -/
def Internal.start (cfg : RuntimeConfig) (initialCounter : Nat) : Internal.State where
  runtime := startRuntime cfg
  hostValues := fun _ => none
  seen := initialCounter
  commitIssued := initialCounter
  evictIssued := initialCounter

/-- The manager without host values. -/
def External.start (cfg : RuntimeConfig) (initialCounter : Nat) : External.State where
  runtime := ⟨startRuntime cfg, none, initialCounter, initialCounter, initialCounter⟩
  hostValues := fun _ => none

theorem start_agrees (cfg : RuntimeConfig) (initialCounter : Nat) :
    Agrees cfg (Internal.start cfg initialCounter) (External.start cfg initialCounter) where
  runtime := rfl
  seen := rfl
  commitIssued := rfl
  evictIssued := rfl
  values := fun _ => rfl
  accounts := Accounts.initial cfg.poolUnitsTotal
  idle := rfl

/-- Both workers handle one request, which is well-formed, next in order and backed. -/
def Handles (cfg : RuntimeConfig) (device : Device) (before : Internal.State × External.State)
    (_ : List Empty) (after : Internal.State × External.State) : Prop :=
  ∃ posted request kind, posted = succ32 before.1.seen ∧
    External.hostRequestKind request.op = some kind ∧ External.WellFormed cfg request kind ∧
    Backed request kind before.1 ∧
    run (Internal.tieringWorkerLoop cfg device posted request) before.1 = .finished () after.1 ∧
    run (External.tieringWorkerLoop cfg device posted request) before.2 = .finished () after.2

/-- Over every sequence of such requests the two workers keep the same backing and make the same
writes. -/
theorem runs_agree {initialCounter : Nat} {trace : List Empty}
    {states : Internal.State × External.State}
    (run : Run.Run (Handles cfg device)
      (Internal.start cfg initialCounter, External.start cfg initialCounter) trace states) :
    Agrees cfg states.1 states.2 := by
  apply run.invariant (fun states => Agrees cfg states.1 states.2)
  · exact start_agrees cfg initialCounter
  · rintro before events after agrees
      ⟨posted, request, kind, posting, supported, formed, backed, internally, externally⟩
    have both := @host_workers_agree cfg device _ _ agrees _ _ _ posting supported formed backed
    rw [internally, externally] at both
    cases both with
    | finished answered => exact answered.agrees

/-! ## Examples -/

/-- One slot, one unit of pool, and values of one chunk. -/
def smallServer : RuntimeConfig where
  maxKeys := 1
  maxKeyLen := 128
  maxValueBytes := 4288
  valueHeapBytes := 4288
  stageNocOk := true
  poolHost := true
  poolReadOff := 8192
  poolUnitsTotal := 1
  numBanks := 1
  alignedPage := 4288
  base := 0
  keyFits := by decide
  banked := Nat.one_pos
  paged := Nat.le_refl maxChunkValueBytes
  poolMapped := by decide
  poolPast := by decide

/-- A device that pushes nothing and always answers. -/
def quickDevice : Device where
  push := fun _ window => window
  evictDone := fun _ _ => true
  promoteDone := fun _ _ => true
  banks := fun _ _ _ _ => 0

/-- The first write-through of both workers. -/
theorem host_workers_agree_writeThrough :
    Both (Answered smallServer 1 ⟨1, 0, 0, 1, 0, []⟩ (Internal.start smallServer 0))
      (fun after latter => quickDevice.Silent ∧
        Interrupted smallServer ⟨1, 0, 0, 1, 0, []⟩ (Internal.start smallServer 0) after latter)
      (run (Internal.tieringWorkerLoop smallServer quickDevice 1 ⟨1, 0, 0, 1, 0, []⟩)
        (Internal.start smallServer 0))
      (run (External.tieringWorkerLoop smallServer quickDevice 1 ⟨1, 0, 0, 1, 0, []⟩)
        (External.start smallServer 0)) :=
  @host_workers_agree smallServer quickDevice _ _ (start_agrees smallServer 0) 1
    ⟨1, 0, 0, 1, 0, []⟩ .writeThrough rfl rfl (by decide) (by simp [Backed])

/-- A serve of a slot without backing: the internal worker posts a commit request before its
check fails, the external one writes nothing. -/
theorem unbacked_serve_differs :
    Agrees smallServer (Internal.start smallServer 0) (External.start smallServer 0) ∧
      External.WellFormed smallServer ⟨4, 0, 0, 1, 0, []⟩ .serveGet ∧
      (∃ after, run (Internal.tieringWorkerLoop smallServer quickDevice 1 ⟨4, 0, 0, 1, 0, []⟩)
        (Internal.start smallServer 0) = .failed after ∧
          after.runtime.effects =
            [.stageProgress 0, .commitReq ⟨0, 0, 1, 0, [], 0⟩, .commitReqSem 1]) ∧
      ∃ after, run (External.tieringWorkerLoop smallServer quickDevice 1 ⟨4, 0, 0, 1, 0, []⟩)
        (External.start smallServer 0) = .failed after ∧ after.runtime.runtime.effects = [] := by
  refine ⟨start_agrees smallServer 0, by decide, ⟨_, rfl, rfl⟩, ⟨_, rfl, rfl⟩⟩

end KvCache.HostTransfer
