import KvCache.Host.ExternalReach

/-!
# What a supply touches

A supply stages the value, posts a commit request for it and waits. The staging window is
filled up to the length of the value, and the pages written are those of the units of the
value; the pool and its records are read by the device only.
-/

namespace KvCache.HostTransfer.External

open Layout Pool PoolMachine Function Worker

variable {cfg : RuntimeConfig} {device : Device} {core : Core} {request : HostRequest}
  {offset : Nat} {before after : Runtime}

/-! ## Writes -/

/-- The bytes of a stage effect. -/
theorem emit_window (effect : Effect) (touches : Touches cfg request offset effect)
    (runtime : Runtime) {position : Nat} (past : cfg.stageBytes ≤ position) :
    (emit effect runtime).window position = runtime.window position := by
  cases effect with
  | stage start bytes =>
    have short : start + bytes.length ≤ cfg.stageBytes := touches
    exact ByteMemory.write_behind (by omega)
  | _ => rfl

/-- One more write that stays within the value. -/
theorem Supplies.emit (supplies : Supplies cfg request offset before after) {effect : Effect}
    (touches : Touches cfg request offset effect) :
    Supplies cfg request offset before (HostTransfer.emit effect after) := by
  obtain ⟨fresh, effects, touch⟩ := supplies.effects
  refine ⟨⟨⟨fresh ++ [effect], ?_, ?_⟩, supplies.records⟩, ?_, supplies.pool,
    supplies.unrecorded⟩
  · simp [HostTransfer.emit, effects]
  · intro other member
    obtain earlier | last := List.mem_append.mp member
    · exact touch other earlier
    · exact List.mem_singleton.mp last ▸ touches
  · exact fun position past =>
      (emit_window effect touches after past).trans (supplies.window position past)

/-- More writes that stay within the value. -/
theorem Supplies.emitAll (supplies : Supplies cfg request offset before after)
    {effects : List Effect} (touches : ∀ effect ∈ effects, Touches cfg request offset effect) :
    Supplies cfg request offset before (HostTransfer.emitAll effects after) := by
  induction effects generalizing after with
  | nil => exact supplies
  | cons effect rest inductionHypothesis =>
    obtain ⟨first, others⟩ := List.forall_mem_cons.mp touches
    exact inductionHypothesis (supplies.emit first) others

/-! ## Streams and transfers -/

/-- The blocks of a stream end with the value, and count its chunks. -/
theorem stageBlocks_touches {source : List UInt8} {totalLen : Nat}
    (fits : totalLen ≤ cfg.stageBytes) (length : request.valueLen = totalLen) :
    ∀ blocks base, base + stageBlockChunks * blocks < chunkCountFor totalLen + stageBlockChunks →
      ∀ effect ∈ stageBlocks source totalLen (chunkCountFor totalLen) blocks base,
        Touches cfg request offset effect := by
  intro blocks
  induction blocks with
  | zero => exact fun _ _ _ impossible => absurd impossible List.not_mem_nil
  | succ blocks inductionHypothesis =>
    intro base bounded effect member
    simp only [stageBlockChunks] at bounded inductionHypothesis
    have inside : base < chunkCountFor totalLen := by omega
    have started : base * maxChunkValueBytes ≤ totalLen := by
      unfold chunkCountFor maxChunkValueBytes at *
      split at inside <;> omega
    simp only [stageBlocks, List.mem_cons] at member
    obtain rfl | rfl | later := member
    · have short := List.length_take_le (min (min stageBlockChunks (chunkCountFor totalLen - base) *
        maxChunkValueBytes) (totalLen - base * maxChunkValueBytes))
          (source.drop (base * maxChunkValueBytes))
      change base * maxChunkValueBytes + _ ≤ cfg.stageBytes
      omega
    · change base + min stageBlockChunks (chunkCountFor totalLen - base) ≤
        chunkCountFor request.valueLen
      rw [length]
      omega
    · exact inductionHypothesis (base + 64) (by omega) effect later

/-- A stream stays within the staging window. -/
theorem stageStream_touches (source : List UInt8) (fits : request.valueLen ≤ cfg.stageBytes) :
    ∀ effect ∈ stageStream source request.valueLen, Touches cfg request offset effect := by
  apply stageBlocks_touches fits rfl
  simp only [stageBlockChunks]
  omega

/-- The transfers of a value are to its own pages. -/
theorem bankWrites_own (addressable : cfg.Addressable) (inside : InHeap cfg request)
    (bytes : List UInt8) :
    ∀ transfer ∈ bankWrites cfg (fillPage cfg) bytes request.deviceValueOffset request.valueLen,
      OwnPages cfg request transfer := by
  intro transfer member position bounded
  rw [bankWrites_eq external_fills, List.mem_filterMap] at member
  obtain ⟨bank, listed, found⟩ := member
  have banked : bank < cfg.numBanks := List.mem_range.mp listed
  unfold RuntimeConfig.bankWrite at found
  dsimp only at found
  split at found
  · exact nomatch found
  · next some =>
    obtain rfl := Option.some.inj found
    simp only [List.length_map, List.length_range] at bounded
    have page : 0 < cfg.alignedPage := maxChunkValueBytes_pos.trans_le cfg.paged
    have row : position / cfg.alignedPage < cfg.pageCount (chunkCountFor request.valueLen)
        (cfg.firstUnit (request.deviceValueOffset / maxChunkValueBytes) bank) :=
      Nat.div_lt_of_lt_mul (by rwa [Nat.mul_comm])
    have low : cfg.firstUnit (request.deviceValueOffset / maxChunkValueBytes) bank <
        cfg.numBanks := Interleaved.first_lt cfg.banked
    have unit := (Interleaved.round_lt_count cfg.banked (Nat.not_le.mp some) _).mp row
    refine ⟨_, unit, Interleaved.bank_of_round banked _, ?_⟩
    have address := stretchAddress_eq addressable
      (lt_of_lt_of_le (Nat.add_lt_add_left unit (request.deviceValueOffset / maxChunkValueBytes))
        inside)
    rw [RuntimeConfig.stretchAddress, Nat.add_mul_mod_self_right, Nat.mod_eq_of_lt low,
      Nat.add_mul_div_right _ _ cfg.banked, Nat.div_eq_of_lt low, Nat.zero_add] at address
    have split := Nat.div_add_mod' position cfg.alignedPage
    have rest := Nat.mod_lt position page
    dsimp only
    omega

/-! ## Accepted requests -/

/-- What poll has checked of the active request: the slot is one of the directory, the key fits
the slot of the commit channel, and a value has a range of whole units inside the heap. -/
structure Accepted (cfg : RuntimeConfig) (active : RequestState) : Prop where
  slot : active.slot < cfg.maxKeys
  key : KeyFits active.key
  range : hostRequestKind active.op ≠ some .removeBacking →
    active.valueByteOff % maxChunkValueBytes = 0 ∧
      active.valueByteOff + chunkCountFor active.totalLen * maxChunkValueBytes ≤
        cfg.valueHeapBytes

/-- The range of a value that a call is for. -/
theorem Accepted.inHeap {active : RequestState} (accepted : Accepted cfg active)
    (fits : matchesActive request active) (valued : request.kind ≠ .removeBacking) :
    InHeap cfg request := by
  have other : hostRequestKind active.op ≠ some .removeBacking := by
    rw [fits.2.2.2.2]
    exact fun same => valued (Option.some.inj same)
  obtain ⟨aligned, range⟩ := accepted.range other
  rw [InHeap, fits.2.2.1, fits.2.2.2.1, RuntimeConfig.heapUnits,
    Nat.le_div_iff_mul_le maxChunkValueBytes_pos, Nat.add_mul]
  have whole := Nat.div_mul_cancel (Nat.dvd_of_mod_eq_zero aligned)
  rwa [whole]

/-! ## Programs -/

/-- What a supply keeps while it is under way. -/
structure Underway (cfg : RuntimeConfig) (request : HostRequest) (offset : Nat)
    (start after : Core) : Prop where
  phase : after.request = start.request
  seen : after.seen = start.seen
  reaches : Supplies cfg request offset start.runtime after.runtime

variable {start : Core}

theorem keeps_emit {effect : Effect} (touches : Touches cfg request offset effect) :
    Keeps (Underway cfg request offset start) (External.core (change (emit effect))) :=
  fun _ underway => ⟨underway.phase, underway.seen, underway.reaches.emit touches⟩

theorem keeps_emitAll {effects : List Effect}
    (touches : ∀ effect ∈ effects, Touches cfg request offset effect) :
    Keeps (Underway cfg request offset start) (External.core (change (emitAll effects))) :=
  fun _ underway => ⟨underway.phase, underway.seen, underway.reaches.emitAll touches⟩

/-- The commit request and its count. -/
theorem keeps_postCommitRequest {commit : CommitRequest}
    (touches : Touches cfg request offset (.commitReq commit)) :
    Keeps (Underway cfg request offset start) (postCommitRequest commit) := by
  apply Keeps.bind (keeps_emit touches)
  intro _
  apply Keeps.current
  intro state underway
  have counted : Touches cfg request offset (.commitReqSem state.commitIssued) := trivial
  exact keeps_emit counted state underway

/-- Staging before the commit request. -/
theorem keeps_stageForPromotion (addressable : cfg.Addressable) (inside : InHeap cfg request)
    (lease : Option HostLease) (heapBytes : List UInt8) :
    Keeps (Underway cfg request offset start)
      (stageForPromotion cfg request lease heapBytes) := by
  unfold stageForPromotion
  split
  · cases lease with
    | some lease => exact Keeps.pure ()
    | none =>
      apply Keeps.fatalUnless
      intro fits
      apply keeps_emit
      have short := List.length_take_le request.valueLen heapBytes
      change 0 + _ ≤ cfg.stageBytes
      omega
  · apply Keeps.fatalUnless
    intro _
    apply keeps_emitAll
    intro effect member
    obtain ⟨transfer, listed, rfl⟩ := List.mem_map.mp member
    exact bankWrites_own addressable inside heapBytes transfer listed

/-- Staging after the commit request. -/
theorem keeps_stageForStream (lease : Option HostLease) (heapBytes : List UInt8) :
    Keeps (Underway cfg request offset start) (stageForStream cfg request lease heapBytes) := by
  cases lease with
  | some lease => exact keeps_emit (Nat.le_refl _)
  | none =>
    apply Keeps.fatalUnless
    intro fits
    exact keeps_emitAll (stageStream_touches heapBytes fits)

/-- A supply that cannot begin fails and changes nothing. -/
theorem supply_refused
    (unfit : Unfit (fun kind => kind = .promoteToDevice ∨ kind = .serveGet) request core)
    (lease : Option HostLease) (heapBytes : List UInt8) :
    run (supplyExternalValue cfg device request lease heapBytes) core = .failed core :=
  run_unfit unfit _

/-- The offset that the device is told for the source of a supply. -/
def sourceOffset (lease : Option HostLease) : Nat := (lease.map HostLease.readOffset).getD 0

/-- A supply that began: how far the request is and what was touched. -/
structure Supplying (cfg : RuntimeConfig) (request : HostRequest) (lease : Option HostLease)
    (heapBytes : List UInt8) (phase : Phase) (before after : Core) : Prop where
  kind : request.kind = .promoteToDevice ∨ request.kind = .serveGet
  source : sourceFits request lease heapBytes
  moves : Moves phase request before after
  reaches : Supplies cfg request (sourceOffset lease) before.runtime after.runtime

/-- A supply is refused and changes nothing, or it begins and is made or given up. -/
theorem meets_supply (addressable : cfg.Addressable)
    (accepted : ∀ active, core.request = some active → Accepted cfg active)
    (lease : Option HostLease) (heapBytes : List UInt8) :
    Meets (supplyExternalValue cfg device request lease heapBytes) core
      (fun _ after =>
        Supplying cfg request lease heapBytes .transferComplete core after)
      (fun after => after = core ∨
        Supplying cfg request lease heapBytes .transferInProgress core after) := by
  unfold supplyExternalValue
  rw [meets_bind, meets_validate]
  refine ⟨fun active found fits => ?_, fun _ => Or.inl rfl⟩
  rw [meets_bind, meets_fatalUnless]
  refine ⟨fun kind => ?_, fun _ => Or.inl rfl⟩
  rw [meets_bind, meets_fatalUnless]
  refine ⟨fun pending => ?_, fun _ => Or.inl rfl⟩
  rw [meets_bind, meets_fatalUnless]
  refine ⟨fun source => ?_, fun _ => Or.inl rfl⟩
  rw [meets_bind, setPhase, meets_change]
  have inside : InHeap cfg request := by
    apply (accepted active found).inHeap fits
    obtain promotes | serves := kind
    · simp [promotes]
    · simp [serves]
  let begun : Core :=
    { core with request := core.request.map ({ · with phase := .transferInProgress }) }
  have phase : begun.request = some { active with phase := .transferInProgress } := by
    simp [begun, found]
  -- Given up, the transfer is in progress for ever; made, it is complete.
  have givenUp : ∀ after, Underway cfg request (sourceOffset lease) begun after →
      Supplying cfg request lease heapBytes .transferInProgress core after := by
    intro after underway
    exact ⟨kind, source,
      ⟨active, found, fits, pending, underway.phase.trans phase, underway.seen⟩, underway.reaches⟩
  have made : ∀ after, Underway cfg request (sourceOffset lease) begun after →
      Supplying cfg request lease heapBytes .transferComplete core
        { after with request := after.request.map ({ · with phase := .transferComplete }) } := by
    intro after underway
    refine ⟨kind, source, ⟨active, found, fits, pending, ?_, underway.seen⟩, underway.reaches⟩
    rw [underway.phase, phase]
    rfl
  let commit : CommitRequest :=
    ⟨request.slot, request.deviceValueOffset, request.valueLen, active.keyLen, active.key,
      sourceOffset lease⟩
  have posts : Keeps (Underway cfg request (sourceOffset lease) begun)
      (postCommitRequest commit) :=
    keeps_postCommitRequest ⟨rfl, rfl, rfl, rfl, (accepted active found).key⟩
  have breaking : ∀ after, Underway cfg request (sourceOffset lease) begun after →
      after = core ∨ Supplying cfg request lease heapBytes .transferInProgress core after :=
    fun after underway => Or.inr (givenUp after underway)
  -- Both ways to stage and post end in the same wait.
  have waits : ∀ state, Underway cfg request (sourceOffset lease) begun state →
      Meets (await (fun state => device.promoteDone state.runtime.effects state.commitIssued) >>=
          fun _ => setPhase .transferComplete) state
        (fun _ after => Supplying cfg request lease heapBytes .transferComplete core after)
        (fun after => after = core ∨
          Supplying cfg request lease heapBytes .transferInProgress core after) := by
    intro state underway
    rw [meets_bind, meets_await]
    exact ⟨fun _ => made state underway, fun _ => breaking state underway⟩
  have unmoved : Underway cfg request (sourceOffset lease) begun
      { begun with commitIssued := succ32 begun.commitIssued } :=
    ⟨rfl, rfl, ⟨⟨⟨[], by simp, by simp⟩, fun _ _ => rfl⟩, fun _ _ => rfl, rfl, rfl⟩⟩
  dsimp only
  rw [meets_bind, meets_change, meets_ite]
  constructor
  · intro _
    apply Keeps.first (keeps_emit (Nat.zero_le _)) breaking ?_ unmoved
    intro _ state underway
    apply Keeps.first posts breaking ?_ underway
    intro _ state underway
    apply Keeps.first (keeps_stageForStream lease heapBytes) breaking ?_ underway
    exact fun _ => waits
  · intro _
    apply Keeps.first (keeps_stageForPromotion addressable inside lease heapBytes) breaking ?_
      unmoved
    intro _ state underway
    apply Keeps.first posts breaking ?_ underway
    exact fun _ => waits

end KvCache.HostTransfer.External
