import KvCache.Foundation.WorkerRules
import KvCache.Host.StableRead
import KvCache.Host.WorkerAgreement

/-!
# What a call of the external worker touches

A receive and a supply check their argument first; a call that fails a check leaves
everything as it was. A transfer that has begun writes for its own value only: words of the
channel, bytes of the staging window, pages of the units of the value. The pool changes by
one extent, which a lease keeps or the failed receive gives back, and only the record of
the slot of the request is stored to.

What the device pushes is its own; the runtime tells it where the value goes.
-/

namespace KvCache.HostTransfer.External

open Layout Pool PoolMachine Function Worker

variable {cfg : RuntimeConfig} {device : Device} {core : Core} {request : HostRequest}

/-! ## What belongs to a request -/

/-- The bytes of a transfer to a bank lie in pages of the units of the value. -/
def OwnPages (cfg : RuntimeConfig) (request : HostRequest) (transfer : BankWrite) : Prop :=
  ∀ position < transfer.bytes.length, ∃ unit < chunkCountFor request.valueLen,
    let own := request.deviceValueOffset / maxChunkValueBytes + unit
    own % cfg.numBanks = transfer.bank ∧
      cfg.pageAddress own ≤ transfer.pageAddress + position ∧
      transfer.pageAddress + position < cfg.pageAddress own + cfg.alignedPage

/-- Bytes before the offset of the lease in a slot of the commit channel. -/
def commitReqHeaderBytes : Nat := 16

/-- Where the offset of the lease stands in a slot of the commit channel. -/
def commitReqStageReadOffByteOffset : Nat := commitReqHeaderBytes + maxPutKeyBytes

/-- A key ends before the word that follows it in the slot of the commit channel. -/
def KeyFits (key : List UInt8) : Prop :=
  commitReqHeaderBytes + key.length ≤ commitReqStageReadOffByteOffset

/-- A write for a request stays within what belongs to its value. The offset is the one that
the device is told for the value: an extent of the pool, or zero for the staging window. -/
def Touches (cfg : RuntimeConfig) (request : HostRequest) (offset : Nat) : Effect → Prop
  | .evictAck readOff _ => readOff = offset
  | .evictAckSem _ => True
  | .stageProgress chunks => chunks ≤ chunkCountFor request.valueLen
  | .commitReq commit =>
    commit.slot = request.slot ∧ commit.newOff = request.deviceValueOffset ∧
      commit.totalLen = request.valueLen ∧ commit.stageReadOff = offset ∧ KeyFits commit.key
  | .commitReqSem _ => True
  | .stage position bytes => position + bytes.length ≤ cfg.stageBytes
  | .heapWrite transfer => OwnPages cfg request transfer
  | .moveProcessed _ => False

/-- What a transfer for a request leaves of the runtime. -/
structure Reaches (cfg : RuntimeConfig) (request : HostRequest) (offset : Nat)
    (before after : Runtime) : Prop where
  effects : ∃ fresh, after.effects = before.effects ++ fresh ∧
    ∀ effect ∈ fresh, Touches cfg request offset effect
  records : ∀ slot, slot ≠ request.slot → after.poolMeta slot = before.poolMeta slot

/-- A receive does not write to the window; the device may have pushed. -/
structure Receives (cfg : RuntimeConfig) (device : Device) (request : HostRequest) (offset : Nat)
    (before after : Runtime) : Prop extends Reaches cfg request offset before after where
  window : after.window = before.window ∨
    ∃ effects, after.window = device.push effects before.window

/-- A supply writes to the staging window and leaves the pool and the records. -/
structure Supplies (cfg : RuntimeConfig) (request : HostRequest) (offset : Nat)
    (before after : Runtime) : Prop extends Reaches cfg request offset before after where
  window : ∀ position ≥ cfg.stageBytes, after.window position = before.window position
  pool : after.poolFree = before.poolFree
  unrecorded : after.poolMeta = before.poolMeta

/-! ## Phases of the active request -/

/-- The active request matches the argument of a call and went from pending to a phase. -/
def Moves (phase : Phase) (request : HostRequest) (before after : Core) : Prop :=
  ∃ active, before.request = some active ∧ matchesActive request active ∧
    active.phase = .pending ∧ after.request = some { active with phase := phase } ∧
    after.seen = before.seen

/-- A comparison with the active request changes nothing. -/
theorem meets_validate {returns : RequestState → Core → Prop} {breaks : Core → Prop} :
    Meets (validateExternalRequest request) core returns breaks ↔
      (∀ active, core.request = some active → matchesActive request active →
        returns active core) ∧
      ((∀ active, core.request = some active → ¬ matchesActive request active) →
        breaks core) := by
  unfold validateExternalRequest
  rw [meets_bind, meets_current]
  cases found : core.request with
  | none => simp
  | some active => simp

/-- No request is active that the call is for. -/
def Mismatched (request : HostRequest) (core : Core) : Prop :=
  ∀ active, core.request = some active → ¬ matchesActive request active

/-- A call for another request fails and changes nothing. -/
theorem run_validate_mismatched (mismatched : Mismatched request core) :
    run (validateExternalRequest request) core = .failed core := by
  unfold validateExternalRequest
  rw [run_current_bind]
  cases found : core.request with
  | none => rfl
  | some active => exact run_fatalUnless_broken (mismatched active found) _

/-- The active request passes the comparison. -/
theorem run_validate_active {active : RequestState} (found : core.request = some active)
    (fits : matchesActive request active) :
    run (validateExternalRequest request) core = .finished active core := by
  unfold validateExternalRequest
  rw [run_current_bind, found]
  exact run_fatalUnless_bind fits _ _

/-! ## Receiving -/

/-- The extent that a lease holds. -/
def HostLease.extent (lease : HostLease) : Extent := ⟨lease.poolUnit, lease.poolUnits⟩

/-- A lease on an extent for the value of a request, at an offset. -/
structure LeaseFor (cfg : RuntimeConfig) (request : HostRequest) (offset : Nat)
    (lease : HostLease) : Prop where
  slot : lease.slot = request.slot
  len : lease.valueLen = request.valueLen
  units : lease.poolUnits = chunkCountFor request.valueLen
  reads : lease.readOffset = offset
  place : offset = cfg.poolReadOff + lease.poolUnit * maxChunkValueBytes

variable {held : Nat → Option Extent} {handle : Nat}

/-- A receive has landed: a lease holds the extent, or nothing was reserved. -/
structure Landed (cfg : RuntimeConfig) (device : Device) (request : HostRequest)
    (held : Nat → Option Extent) (handle : Nat) (before : Core) (value : ReceivedValue)
    (after : Core) : Prop where
  phase : after.request = before.request.map ({ · with phase := .transferComplete })
  seen : after.seen = before.seen
  reaches : ∃ offset, Receives cfg device request offset before.runtime after.runtime ∧
    ∀ lease, value.lease = some lease → LeaseFor cfg request offset lease
  accounts : Accounts cfg.poolUnitsTotal after.runtime.poolFree
    (update held handle (value.lease.map HostLease.extent))

/-- A receive was given up: what it had reserved is given back. -/
structure Abandoned (cfg : RuntimeConfig) (device : Device) (request : HostRequest)
    (held : Nat → Option Extent) (before after : Core) : Prop where
  phase : after.request = before.request
  seen : after.seen = before.seen
  reaches : ∃ offset, Receives cfg device request offset before.runtime after.runtime
  accounts : Accounts cfg.poolUnitsTotal after.runtime.poolFree held

/-- What a receive does to the pool and to the record of its slot. -/
inductive Takes (cfg : RuntimeConfig) (request : HostRequest) (before : Runtime) :
    Option Nat → Nat → Nat → Runtime → Prop where
  | window : Takes cfg request before none 0 0 before
  | extent {unit generation : Nat} {remaining : List Extent} {after : Runtime}
      (found : Pool.poolAlloc (chunkCountFor request.valueLen) before.poolFree =
        some (unit, remaining))
      (units : 0 < chunkCountFor request.valueLen) (free : after.poolFree = remaining)
      (records : ∀ slot, slot ≠ request.slot → after.poolMeta slot = before.poolMeta slot)
      (effects : after.effects = before.effects) (window : after.window = before.window) :
      Takes cfg request before (some unit) (cfg.poolReadOff + unit * maxChunkValueBytes)
        generation after

/-- A mapped receive, up to the wait: a destination is taken and announced. -/
theorem receiveMapped_begins (device : Device) (inRange : request.slot < cfg.maxKeys)
    (preferMappedLease : Bool) (core : Core) :
    ∃ poolUnit offset generation taken, Takes cfg request core.runtime poolUnit offset generation
        taken ∧
      run (receiveMapped cfg device request preferMappedLease) core =
        run (awaitOr (fun state => device.evictDone state.runtime.effects state.evictIssued)
            (releaseReservedPool cfg request.slot (chunkCountFor request.valueLen) poolUnit) >>=
          fun _ => receivePushed request poolUnit offset generation)
        { core with
          runtime := acknowledged device offset generation (succ32 core.evictIssued) taken
          evictIssued := succ32 core.evictIssued } := by
  cases preferMappedLease with
  | false => exact ⟨none, 0, 0, _, .window, rfl⟩
  | true =>
    obtain full | ⟨unit, remaining, found, pooled, positive, allocates⟩ :=
      run_poolAlloc cfg (chunkCountFor request.valueLen) core.runtime
    · refine ⟨none, 0, 0, _, .window, ?_⟩
      simp only [receiveMapped, if_true, External.core]
      rw [run_within_bind full]
      rfl
    · let generation := nextPoolGeneration (core.runtime.poolMetaGenerations request.slot)
      let offset := cfg.poolReadOff + unit * maxChunkValueBytes
      let taken : Runtime :=
        setMeta request.slot ⟨generation, offset, request.valueLen, generation⟩
          { core.runtime with
            poolFree := remaining
            poolMetaGenerations :=
              update core.runtime.poolMetaGenerations request.slot generation }
      refine ⟨some unit, offset, generation, taken, .extent found positive rfl ?_ rfl rfl, ?_⟩
      · intro slot apart
        exact update_of_ne apart _ _
      · simp only [receiveMapped, if_true, External.core]
        rw [run_within_bind allocates, run_within_bind (run_publishMeta inRange _)]
        rfl

/-- The device was told where the value goes; that is all that was written. -/
theorem Takes.receives {before taken : Runtime} {poolUnit : Option Nat} {offset generation : Nat}
    (takes : Takes cfg request before poolUnit offset generation taken) (count : Nat)
    {after : Runtime}
    (effects : after.effects = (acknowledged device offset generation count taken).effects)
    (window : after.window = (acknowledged device offset generation count taken).window)
    (records : ∀ slot, slot ≠ request.slot → after.poolMeta slot = taken.poolMeta slot) :
    Receives cfg device request offset before after := by
  have same : taken.effects = before.effects ∧ taken.window = before.window ∧
      ∀ slot, slot ≠ request.slot → taken.poolMeta slot = before.poolMeta slot := by
    cases takes with
    | window => exact ⟨rfl, rfl, fun _ _ => rfl⟩
    | extent found units free records effects window => exact ⟨effects, window, records⟩
  obtain ⟨sameEffects, sameWindow, sameRecords⟩ := same
  constructor
  · constructor
    · refine ⟨[.evictAck offset generation, .evictAckSem count], ?_, ?_⟩
      · rw [effects, ← sameEffects]
        simp [acknowledged, emit]
      · simp [Touches]
    · exact fun slot apart => (records slot apart).trans (sameRecords slot apart)
  · refine Or.inr ⟨(acknowledged device offset generation count taken).effects, ?_⟩
    rw [window, ← sameWindow]
    rfl

/-- What a reservation takes from the pool is accounted for. -/
theorem Takes.accounts {before taken : Runtime} {poolUnit : Option Nat} {offset generation : Nat}
    (takes : Takes cfg request before poolUnit offset generation taken)
    (accounts : Accounts cfg.poolUnitsTotal before.poolFree held) (vacant : held handle = none) :
    Accounts cfg.poolUnitsTotal taken.poolFree (update held handle
      (poolUnit.map fun unit => ⟨unit, chunkCountFor request.valueLen⟩)) := by
  cases takes with
  | window =>
    rw [Option.map_none, update_same vacant]
    exact accounts
  | extent found units free records effects window =>
    rw [free]
    exact accounts.allocate units found

/-- A mapped receive lands in the extent it reserved or in the window, or gives the extent
back. -/
theorem meets_receiveMapped (inRange : request.slot < cfg.maxKeys)
    (accounts : Accounts cfg.poolUnitsTotal core.runtime.poolFree held)
    (vacant : held handle = none) (preferMappedLease : Bool) :
    Meets (receiveMapped cfg device request preferMappedLease) core
      (Landed cfg device request held handle core) (Abandoned cfg device request held core) := by
  obtain ⟨poolUnit, offset, generation, taken, takes, begins⟩ :=
    receiveMapped_begins device inRange preferMappedLease core
  have reserved := takes.accounts accounts vacant
  have receives : Receives cfg device request offset core.runtime
      (acknowledged device offset generation (succ32 core.evictIssued) taken) :=
    takes.receives (succ32 core.evictIssued) rfl rfl fun _ _ => rfl
  rw [meets_as begins, meets_bind, meets_awaitOr]
  constructor
  · intro _
    cases takes with
    | window =>
      refine ⟨rfl, rfl, ⟨0, receives, ?_⟩, reserved⟩
      intro lease impossible
      cases impossible
    | extent found units free records effects window =>
      refine ⟨rfl, rfl, ⟨_, receives, ?_⟩, reserved⟩
      intro lease leased
      cases leased
      exact ⟨rfl, rfl, rfl, rfl, rfl⟩
  · intro _
    cases poolUnit with
    | none =>
      rw [Option.map_none, update_same vacant] at reserved
      exact ⟨rfl, rfl, ⟨_, receives⟩, reserved⟩
    | some unit =>
      have holds : update held handle (some ⟨unit, chunkCountFor request.valueLen⟩) handle =
          some ⟨unit, chunkCountFor request.valueLen⟩ := update_self ..
      have given := reserved.release holds
      rw [update_idem, update_same vacant] at given
      have checked := reserved.checked holds
      let cleared := setMeta request.slot noRecord
        (acknowledged device offset generation (succ32 core.evictIssued) taken)
      have releases : run (HostTransfer.poolRelease cfg unit (chunkCountFor request.valueLen))
          cleared = .finished () { cleared with
            poolFree := Pool.poolRelease ⟨unit, chunkCountFor request.valueLen⟩ taken.poolFree } :=
        run_poolRelease checked
      simp only [releaseReservedPool, External.core, meets_bind, meets_within]
      rw [meets_finished (run_invalidateMeta inRange _), meets_finished releases]
      refine ⟨rfl, rfl, ⟨_, takes.receives (succ32 core.evictIssued) rfl rfl ?_⟩, given⟩
      intro slot apart
      exact update_of_ne apart _ _


/-- Without a mapped window there is no pool; a receive reads the heap. -/
theorem run_receiveRead (unmapped : cfg.stageNocOk = false) (preferMappedLease : Bool) :
    run (receiveRead cfg device request preferMappedLease) core =
      run (setPhase .transferComplete >>= fun _ => pure ⟨none,
        (readValueUnitsInto cfg (device.banks core.runtime.effects) request.deviceValueOffset
          request.valueLen fun _ => 0).read 0 request.valueLen⟩) core := by
  have unpooled : cfg.poolHost ≠ true := fun pooled => by
    have mapped := cfg.poolMapped pooled
    rw [unmapped] at mapped
    exact nomatch mapped
  have full : run (HostTransfer.poolAlloc cfg (chunkCountFor request.valueLen)) core.runtime =
      .finished none core.runtime := by
    obtain full | ⟨_, _, _, pooled, _⟩ :=
      run_poolAlloc cfg (chunkCountFor request.valueLen) core.runtime
    · exact full
    · exact absurd pooled unpooled
  cases preferMappedLease with
  | false => rw [receiveRead, if_neg (by decide), run_pure_bind, run_current_bind]
  | true =>
    have allocates : run (External.core
        (HostTransfer.poolAlloc cfg (chunkCountFor request.valueLen))) core =
          .finished none core := run_within full
    rw [receiveRead, if_pos rfl]
    dsimp only
    rw [run_bind_finished allocates, run_current_bind]

/-- It writes nothing. -/
theorem meets_receiveRead (unmapped : cfg.stageNocOk = false)
    (accounts : Accounts cfg.poolUnitsTotal core.runtime.poolFree held)
    (vacant : held handle = none) (preferMappedLease : Bool) :
    Meets (receiveRead cfg device request preferMappedLease) core
      (Landed cfg device request held handle core) (Abandoned cfg device request held core) := by
  rw [meets_as (run_receiveRead unmapped preferMappedLease)]
  -- The image that the passes leave is never looked into.
  generalize (readValueUnitsInto cfg (device.banks core.runtime.effects) request.deviceValueOffset
    request.valueLen fun _ => 0).read 0 request.valueLen = bytes
  have nothing : Receives cfg device request 0 core.runtime core.runtime :=
    ⟨⟨⟨[], by simp, by simp⟩, fun _ _ => rfl⟩, Or.inl rfl⟩
  refine ⟨rfl, rfl, ⟨0, nothing, ?_⟩, ?_⟩
  · intro lease impossible
    cases impossible
  · rw [Option.map_none, update_same vacant]
    exact accounts

/-! ## What is read -/

/-- The units of a value lie in the heap. -/
def InHeap (cfg : RuntimeConfig) (request : HostRequest) : Prop :=
  request.deviceValueOffset / maxChunkValueBytes + chunkCountFor request.valueLen ≤ cfg.heapUnits

/-- Two devices hold the same in the pages of the units of a value, in every pass. -/
def SameValue (cfg : RuntimeConfig) (request : HostRequest) (images others : Nat → Banks) : Prop :=
  ∀ unit < chunkCountFor request.valueLen, ∀ position < cfg.alignedPage, ∀ pass,
    let own := request.deviceValueOffset / maxChunkValueBytes + unit
    images pass (own % cfg.numBanks) (cfg.pageAddress own + position) =
      others pass (own % cfg.numBanks) (cfg.pageAddress own + position)

/-- A pass looks at the pages of the value only. -/
theorem SameValue.passImage_eq {images others : Nat → Banks}
    (same : SameValue cfg request images others) (addressable : cfg.Addressable)
    (inside : InHeap cfg request) (pass : Nat) :
    passImage cfg images (request.deviceValueOffset / maxChunkValueBytes)
        (chunkCountFor request.valueLen) pass =
      passImage cfg others (request.deviceValueOffset / maxChunkValueBytes)
        (chunkCountFor request.valueLen) pass := by
  apply List.map_congr_left
  intro position member
  have bounded := List.mem_range.mp member
  have short := Nat.mod_lt position maxChunkValueBytes_pos
  have paged := cfg.paged
  have unit : position / maxChunkValueBytes < chunkCountFor request.valueLen :=
    Nat.div_lt_of_lt_mul (by rwa [Nat.mul_comm])
  have address := stretchAddress_eq addressable (lt_of_lt_of_le
    (Nat.add_lt_add_left unit (request.deviceValueOffset / maxChunkValueBytes)) inside)
  rw [Nat.zero_add, ← Nat.div_add_mod' position maxChunkValueBytes,
    readAll_apply _ _ _ _ _ _ short, readAll_apply _ _ _ _ _ _ short, if_pos unit, if_pos unit,
    passAddress_eq unit, address]
  exact same _ unit _ (by omega) pass

/-- The loop over the passes sees the images of the passes only.

Proof: by induction on the mismatches left; the candidates of both loops are the same image. -/
theorem stabilise_congr {images others : Nat → Banks} {baseUnit units totalLen : Nat}
    (enough : totalLen ≤ units * maxChunkValueBytes)
    (same : ∀ pass, passImage cfg images baseUnit units pass =
      passImage cfg others baseUnit units pass) (mismatches : Nat) :
    ∀ (pass : Nat) (scratch scratch' candidate candidate' other other' : ByteMemory),
      candidate.read 0 (units * maxChunkValueBytes) =
        candidate'.read 0 (units * maxChunkValueBytes) →
      (stabilise cfg images baseUnit units totalLen mismatches pass scratch candidate
          other).read 0 (units * maxChunkValueBytes) =
        (stabilise cfg others baseUnit units totalLen mismatches pass scratch' candidate'
          other').read 0 (units * maxChunkValueBytes) := by
  induction mismatches with
  | zero => exact fun _ _ _ _ _ _ _ alike => alike
  | succ mismatches inductionHypothesis =>
    intro pass scratch scratch' candidate candidate' other other' alike
    have next := (readAll_image pass scratch other).trans
      ((same pass).trans (readAll_image pass scratch' other').symm)
    unfold stabilise
    generalize readAll cfg (images pass) baseUnit units scratch other = read at next ⊢
    generalize readAll cfg (others pass) baseUnit units scratch' other' = read' at next ⊢
    have values : candidate.read 0 totalLen = read.2.read 0 totalLen ↔
        candidate'.read 0 totalLen = read'.2.read 0 totalLen := by
      rw [← take_read _ enough, ← take_read read.2 enough, ← take_read candidate' enough,
        ← take_read read'.2 enough, alike, next]
    dsimp only
    by_cases agree : candidate.read 0 totalLen = read.2.read 0 totalLen
    · rw [if_pos agree, if_pos (values.mp agree)]
      exact alike
    · rw [if_neg agree, if_neg fun agrees => agree (values.mpr agrees)]
      apply inductionHypothesis
      rw [read_write_block, read_write_block, next]

/-- A read of a value depends on its own pages only. -/
theorem SameValue.read_eq {images others : Nat → Banks}
    (same : SameValue cfg request images others) (addressable : cfg.Addressable)
    (inside : InHeap cfg request) (into : ByteMemory) :
    (readValueUnitsInto cfg images request.deviceValueOffset request.valueLen into).read 0
        request.valueLen =
      (readValueUnitsInto cfg others request.deviceValueOffset request.valueLen into).read 0
        request.valueLen := by
  have images_eq := same.passImage_eq addressable inside
  have enough := le_chunkCountFor_mul request.valueLen
  let first := fun images : Nat → Banks => readAll cfg (images 0)
    (request.deviceValueOffset / maxChunkValueBytes) (chunkCountFor request.valueLen)
    (fun _ => 0) into
  have start := (readAll_image 0 (fun _ => 0) into).trans
    ((images_eq 0).trans (readAll_image 0 (fun _ => 0) into).symm)
  have whole := stabilise_congr enough images_eq valueReadMaxMismatches 1 (first images).1
    (first others).1 (first images).2 (first others).2 (fun _ => 0) (fun _ => 0) start
  rw [← take_read _ enough, ← take_read _ enough]
  unfold readValueUnitsInto
  exact congrArg (List.take request.valueLen) whole

/-! ## A receive as a whole -/

/-- No transfer of the active request can begin by a call with the argument: it is for another
request, of another kind, or the transfer has begun before. -/
def Unfit (kinds : Kind → Prop) (request : HostRequest) (core : Core) : Prop :=
  ∀ active, core.request = some active → matchesActive request active → kinds request.kind →
    active.phase ≠ .pending

/-- The checks before a transfer fail and change nothing. -/
theorem run_unfit {kinds : Kind → Prop} [DecidablePred kinds] {α : Type}
    (unfit : Unfit kinds request core) (next : RequestState → Worker Core α) :
    run (do
      let active ← validateExternalRequest request
      fatalUnless (kinds request.kind)
      fatalUnless (active.phase = .pending)
      next active) core = .failed core := by
  by_cases matched : ∃ active, core.request = some active ∧ matchesActive request active
  · obtain ⟨active, found, fits⟩ := matched
    rw [run_bind_finished (run_validate_active found fits)]
    by_cases kind : kinds request.kind
    · rw [run_fatalUnless_bind kind]
      exact run_fatalUnless_broken (unfit active found fits kind) _
    · exact run_fatalUnless_broken kind _
  · have mismatched : Mismatched request core :=
      fun active found fits => matched ⟨active, found, fits⟩
    exact run_bind_failed (run_validate_mismatched mismatched) _

/-- A receive that cannot begin fails and changes nothing. -/
theorem receive_refused (unfit : Unfit (· = .writeThrough) request core)
    (preferMappedLease : Bool) :
    run (receiveExternalValue cfg device request preferMappedLease) core = .failed core :=
  run_unfit unfit _

/-- A receive that can begin goes on with the transfer. -/
theorem receive_goes_on {active : RequestState} (found : core.request = some active)
    (fits : matchesActive request active) (kind : request.kind = .writeThrough)
    (pending : active.phase = .pending) (preferMappedLease : Bool) :
    run (receiveExternalValue cfg device request preferMappedLease) core =
      run (if cfg.stageNocOk then receiveMapped cfg device request preferMappedLease
          else receiveRead cfg device request preferMappedLease)
        { core with request := core.request.map ({ · with phase := .transferInProgress }) } := by
  unfold receiveExternalValue
  rw [run_bind_finished (run_validate_active found fits), run_fatalUnless_bind kind,
    run_fatalUnless_bind pending, setPhase, run_change_bind]

/-- Without a mapped window a receive depends on the pages of its value only. -/
theorem receive_reads_own {other : Device} (unmapped : cfg.stageNocOk = false)
    (addressable : cfg.Addressable) (inside : InHeap cfg request)
    (same : SameValue cfg request (device.banks core.runtime.effects)
      (other.banks core.runtime.effects)) (preferMappedLease : Bool) :
    run (receiveExternalValue cfg device request preferMappedLease) core =
      run (receiveExternalValue cfg other request preferMappedLease) core := by
  by_cases unfit : Unfit (· = .writeThrough) request core
  · rw [receive_refused unfit, receive_refused unfit]
  · unfold Unfit at unfit
    push Not at unfit
    obtain ⟨active, found, fits, kind, pending⟩ := unfit
    rw [receive_goes_on found fits kind pending, receive_goes_on found fits kind pending,
      if_neg (by simp [unmapped]), if_neg (by simp [unmapped]),
      run_receiveRead unmapped, run_receiveRead unmapped, same.read_eq addressable inside]

/-- A receive that began: how far the request is, what was touched and what the pool
accounts for. -/
structure Began (cfg : RuntimeConfig) (device : Device) (request : HostRequest)
    (phase : Phase) (held : Nat → Option Extent) (offset : Nat) (before after : Core) : Prop where
  kind : request.kind = .writeThrough
  moves : Moves phase request before after
  reaches : Receives cfg device request offset before.runtime after.runtime
  accounts : Accounts cfg.poolUnitsTotal after.runtime.poolFree held

/-- A receive is refused and changes nothing, or it begins and lands or is given up. -/
theorem meets_receive
    (inRange : ∀ active, core.request = some active → active.slot < cfg.maxKeys)
    (accounts : Accounts cfg.poolUnitsTotal core.runtime.poolFree held)
    (vacant : held handle = none) (preferMappedLease : Bool) :
    Meets (receiveExternalValue cfg device request preferMappedLease) core
      (fun value after => ∃ offset, Began cfg device request .transferComplete
        (update held handle (value.lease.map HostLease.extent)) offset core after ∧
          ∀ lease, value.lease = some lease → LeaseFor cfg request offset lease)
      (fun after => after = core ∨ ∃ offset,
        Began cfg device request .transferInProgress held offset core after) := by
  by_cases unfit : Unfit (· = .writeThrough) request core
  · rw [Meets, receive_refused unfit]
    exact Or.inl rfl
  unfold Unfit at unfit
  push Not at unfit
  obtain ⟨active, found, fits, kind, pending⟩ := unfit
  rw [meets_as (receive_goes_on found fits kind pending preferMappedLease)]
  have slot : request.slot < cfg.maxKeys := fits.2.1 ▸ inRange active found
  let begun : Core :=
    { core with request := core.request.map ({ · with phase := .transferInProgress }) }
  have same : Accounts cfg.poolUnitsTotal begun.runtime.poolFree held := accounts
  have lands : ∀ value after, Landed cfg device request held handle begun value after →
      ∃ offset, Began cfg device request .transferComplete
        (update held handle (value.lease.map HostLease.extent)) offset core after ∧
          ∀ lease, value.lease = some lease → LeaseFor cfg request offset lease := by
    intro value after landed
    obtain ⟨offset, receives, leased⟩ := landed.reaches
    refine ⟨offset, ⟨kind, ⟨active, found, fits, pending, ?_, landed.seen⟩, receives,
      landed.accounts⟩, leased⟩
    rw [landed.phase]
    simp [begun, found]
  have abandons : ∀ after, Abandoned cfg device request held begun after → after = core ∨
      ∃ offset, Began cfg device request .transferInProgress held offset core after := by
    intro after abandoned
    obtain ⟨offset, receives⟩ := abandoned.reaches
    refine Or.inr ⟨offset, kind, ⟨active, found, fits, pending, ?_, abandoned.seen⟩, receives,
      abandoned.accounts⟩
    rw [abandoned.phase]
    simp [begun, found]
  rw [meets_ite]
  constructor
  · intro _
    have meets : Meets (receiveMapped cfg device request preferMappedLease) begun
        (Landed cfg device request held handle begun) (Abandoned cfg device request held begun) :=
      meets_receiveMapped slot same vacant preferMappedLease
    exact meets.imp lands abandons
  · intro unmapped
    have meets : Meets (receiveRead cfg device request preferMappedLease) begun
        (Landed cfg device request held handle begun) (Abandoned cfg device request held begun) :=
      meets_receiveRead (by simpa using unmapped) same vacant preferMappedLease
    exact meets.imp lands abandons

end KvCache.HostTransfer.External
