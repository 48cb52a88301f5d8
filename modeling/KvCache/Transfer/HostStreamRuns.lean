import KvCache.Transfer.HostStreamSafe

/-!
# Runs of the streamed host serve

Each situation of a request fixes how the counters of the channel relate, so that the
worker does not take a request twice, the reader does not see an announcement of an
earlier request, and the worker does not finish before the reader is done. Every step
leads from one situation to another, whatever the other side did in between.
-/

namespace KvCache.HostStream

open Layout HostTransfer Function Stretches
open HostTransfer.Internal (HostValue)
open GetStream (getValueCbReadBatch)

variable {cfg : RuntimeConfig} {state after : State}

/-- The reader has asked for a value that the host streams. -/
structure Asked (cfg : RuntimeConfig) (state : State) : Prop where
  mapped : cfg.stageNocOk = true
  serving : state.request.op = moveOpHostServe
  short : state.request.totalLen < 2 ^ 32

/-- The worker serves the request of the channel. -/
structure InService (cfg : RuntimeConfig) (state : State) : Prop where
  asked : Asked cfg state
  sized : Sized state
  channel : state.moveSem = succ32 state.moveProcessed

theorem Asked.carry (asked : Asked cfg state) (request : after.request = state.request) :
    Asked cfg after :=
  ⟨asked.mapped, by rw [request]; exact asked.serving, by rw [request]; exact asked.short⟩

/-- What neither side changes while a request is served. -/
theorem InService.carry (service : InService cfg state) (request : after.request = state.request)
    (served : after.served = state.served) (posted : after.moveSem = state.moveSem)
    (processed : after.moveProcessed = state.moveProcessed) : InService cfg after where
  asked := service.asked.carry request
  sized := {
    served := by rw [served, request]; exact service.sized.served
    positive := by rw [request]; exact service.sized.positive
    short := by rw [request]; exact service.sized.short }
  channel := by rw [posted, processed]; exact service.channel

/-- The situations of a request, from nothing asked to both sides being done, or with the
reader gone. -/
inductive Situation (cfg : RuntimeConfig) (state : State) : Prop where
  | quiet (host : state.host = .idle ∨ state.host = .stopped)
      (brisc : (state.brisc = .idle ∧ (state.host = .idle → state.moveSem = state.moveProcessed)) ∨
        (state.brisc = .called ∧ state.moveSem = succ32 state.moveProcessed ∧ Asked cfg state))
      (issued : state.commitIssued = state.commitSeen) (sem : state.commitSem = state.commitSeen)
      (completion : state.completion = state.commitSeen)
  | announcing {remaining : List Effect} (host : state.host = .writing remaining)
      (brisc : state.brisc = .called) (announcing : Announcing state remaining)
      (service : InService cfg state) (issued : state.commitIssued = succ32 state.commitSeen)
      (sem : state.commitSem = state.commitSeen) (completion : state.completion = state.commitSeen)
  | announced (host : state.host ≠ .idle) (brisc : state.brisc = .called)
      (supplying : Supplying state state.host.pending) (service : InService cfg state)
      (issued : state.commitIssued = succ32 state.commitSeen)
      (sem : state.commitSem = state.commitIssued) (completion : state.completion = state.commitSeen)
      (offset : state.commitReadOff = state.servedOff)
  | streaming (host : state.host ≠ .idle) (supplying : Supplying state state.host.pending)
      (service : InService cfg state) (issued : state.commitIssued = state.commitSeen)
      (sem : state.commitSem = state.commitSeen) (seen : state.commitSeen = succ32 state.completion)
      (offset : state.stageReadOff = state.servedOff)
      (cached : ∀ chunks, state.cached = some chunks → Covered state chunks)
      (reads : Reads state state.brisc)
  | completed (host : state.host ≠ .idle) (brisc : state.brisc = .idle)
      (supplying : Supplying state state.host.pending) (service : InService cfg state)
      (issued : state.commitIssued = state.commitSeen) (sem : state.commitSem = state.commitSeen)
      (completion : state.completion = state.commitSeen)
  | gone (brisc : state.brisc = .aborted ∨ state.brisc = .terminated) (asked : Asked cfg state)
      (host : ∀ remaining, state.host = .writing remaining →
        Announcing state remaining ∨ Supplying state remaining)

theorem succ32_ne (count : Nat) : succ32 count ≠ count := by
  unfold succ32
  omega

theorem pending_nextPhase (remaining : List Effect) : (nextPhase remaining).pending = remaining := by
  cases remaining <;> rfl

theorem nextPhase_ne_idle (remaining : List Effect) : nextPhase remaining ≠ .idle := by
  cases remaining <;> simp [nextPhase]

/-- A reader that streams is neither idle nor waiting for the announcement, nor gone. -/
theorem Reads.phase {phase : BriscPhase} (reads : Reads state phase) :
    phase ≠ .idle ∧ phase ≠ .called ∧ phase ≠ .aborted ∧ phase ≠ .terminated := by
  cases reads <;> simp

/-- The channel before its first request is quiet. -/
theorem initial_situation (mapping : ByteMemory) : Situation cfg (initial mapping) :=
  .quiet (Or.inl rfl) (Or.inl ⟨rfl, fun _ => rfl⟩) rfl rfl rfl

/-! ## Steps of the worker -/

theorem take_situation {value : HostValue} (situation : Situation cfg state)
    (idle : state.host = .idle) (posted : state.moveSem ≠ state.moveProcessed)
    (serves : Serves cfg state.request value) : Situation cfg (takeRequest cfg state value) := by
  cases situation with
  | quiet host brisc issued sem completion =>
    rcases brisc with ⟨-, none⟩ | ⟨brisc, channel, asked⟩
    · exact absurd (none idle) posted
    · obtain ⟨length, announcing⟩ := take_announces asked.mapped asked.serving serves
      refine .announcing rfl brisc announcing ⟨asked.carry rfl,
        ⟨length, serves.positive, asked.short⟩, channel⟩ ?_ sem completion
      change succ32 state.commitIssued = succ32 state.commitSeen
      rw [issued]
  | announcing host => exact absurd (idle.symm.trans host) (by simp)
  | announced host => exact absurd idle host
  | streaming host => exact absurd idle host
  | completed host => exact absurd idle host
  | gone brisc asked host =>
    refine .gone brisc (asked.carry rfl) ?_
    intro remaining writing
    obtain rfl := HostPhase.writing.inj writing
    exact Or.inl (take_announces asked.mapped asked.serving serves).2

/-- A write of the worker leads from one situation to another; the count it publishes is
covered. -/
theorem write_situation {effect : Effect} {remaining : List Effect}
    (situation : Situation cfg state) (writing : state.host = .writing (effect :: remaining)) :
    Situation cfg { (writeEffect state effect).1 with host := nextPhase remaining } ∧
      ∀ chunks ∈ (writeEffect state effect).2, Covered (writeEffect state effect).1 chunks := by
  have pending : state.host.pending = effect :: remaining := by rw [writing]; rfl
  have next : (nextPhase remaining).pending = remaining := pending_nextPhase remaining
  cases situation with
  | quiet host => rcases host with host | host <;> exact absurd (writing.symm.trans host) (by simp)
  | announcing host brisc announcing service issued sem completion =>
    obtain rfl := HostPhase.writing.inj (writing.symm.trans host)
    obtain ⟨published, ⟨progress, readOff, written, further⟩ | ⟨written, offset, supplying⟩⟩ :=
      write_announcing announcing
    · refine ⟨?_, published⟩
      rw [written] at further ⊢
      cases remaining with
      | nil =>
        obtain ⟨_, _, _, _, _, _, _, forms⟩ := further
        simp at forms
      | cons head tail =>
        exact .announcing rfl brisc further (service.carry rfl rfl rfl rfl) issued sem completion
    · refine ⟨?_, published⟩
      rw [written] at supplying ⊢
      refine .announced (nextPhase_ne_idle remaining) brisc ?_ (service.carry rfl rfl rfl rfl) issued rfl completion offset
      change Supplying _ (nextPhase remaining).pending
      rw [next]
      exact supplying
  | announced host brisc supplying service issued sem completion offset =>
    rw [pending] at supplying
    obtain ⟨further, keeps, published, mapping, progress, written⟩ := write_supplying supplying
    refine ⟨?_, published⟩
    rw [written] at further ⊢
    refine .announced (nextPhase_ne_idle remaining) brisc ?_ (service.carry rfl rfl rfl rfl) issued sem completion offset
    change Supplying _ (nextPhase remaining).pending
    rw [next]
    exact further
  | streaming host supplying service issued sem seen offset cached reads =>
    rw [pending] at supplying
    obtain ⟨further, keeps, published, mapping, progress, written⟩ := write_supplying supplying
    refine ⟨?_, published⟩
    rw [written] at further keeps ⊢
    refine .streaming (nextPhase_ne_idle remaining) ?_ (service.carry rfl rfl rfl rfl) issued sem seen offset ?_ ?_
    · change Supplying _ (nextPhase remaining).pending
      rw [next]
      exact further
    · intro chunks found
      exact keeps chunks (cached chunks found)
    · exact reads.keep keeps rfl rfl rfl
  | completed host brisc supplying service issued sem completion =>
    rw [pending] at supplying
    obtain ⟨further, keeps, published, mapping, progress, written⟩ := write_supplying supplying
    refine ⟨?_, published⟩
    rw [written] at further ⊢
    refine .completed (nextPhase_ne_idle remaining) brisc ?_ (service.carry rfl rfl rfl rfl) issued sem completion
    change Supplying _ (nextPhase remaining).pending
    rw [next]
    exact further
  | gone brisc asked host =>
    rcases host _ writing with announcing | supplying
    · obtain ⟨published, ⟨progress, readOff, written, further⟩ | ⟨written, offset, supplying⟩⟩ :=
        write_announcing announcing
      · refine ⟨?_, published⟩
        rw [written] at further ⊢
        refine .gone brisc (asked.carry rfl) ?_
        intro rest still
        have left : remaining = rest := by rw [← next]; exact congrArg HostPhase.pending still
        exact Or.inl (left ▸ further)
      · refine ⟨?_, published⟩
        rw [written] at supplying ⊢
        refine .gone brisc (asked.carry rfl) ?_
        intro rest still
        have left : remaining = rest := by rw [← next]; exact congrArg HostPhase.pending still
        exact Or.inr (left ▸ supplying)
    · obtain ⟨further, keeps, published, mapping, progress, written⟩ := write_supplying supplying
      refine ⟨?_, published⟩
      rw [written] at further ⊢
      refine .gone brisc (asked.carry rfl) ?_
      intro rest still
      have left : remaining = rest := by rw [← next]; exact congrArg HostPhase.pending still
      exact Or.inr (left ▸ further)

/-- A copied byte that is seen early leaves the situation as it is. -/
theorem visible_situation {offset index : Nat} {bytes : List UInt8} {byte : UInt8}
    {rest : List Effect} (situation : Situation cfg state)
    (writing : state.host = .writing (.stage offset bytes :: rest))
    (found : bytes[index]? = some byte) :
    Situation cfg { state with mapping := update state.mapping (offset + index) byte } := by
  have pending : state.host.pending = .stage offset bytes :: rest := by rw [writing]; rfl
  cases situation with
  | quiet host => rcases host with host | host <;> exact absurd (writing.symm.trans host) (by simp)
  | announcing host brisc announcing =>
    obtain rfl := HostPhase.writing.inj (writing.symm.trans host)
    obtain ⟨_, _, _, _, _, _, _, forms⟩ := announcing
    simp at forms
  | announced host brisc supplying service issued sem completion offset =>
    rw [pending] at supplying
    obtain ⟨_, further⟩ := visible_supplying supplying found
    rw [← pending] at further
    exact .announced host brisc further (service.carry rfl rfl rfl rfl) issued sem completion offset
  | streaming host supplying service issued sem seen offset cached reads =>
    rw [pending] at supplying
    obtain ⟨keeps, further⟩ := visible_supplying supplying found
    rw [← pending] at further
    exact .streaming host further (service.carry rfl rfl rfl rfl) issued sem seen offset
      (fun chunks loaded => keeps chunks (cached chunks loaded)) (reads.keep keeps rfl rfl rfl)
  | completed host brisc supplying service issued sem completion =>
    rw [pending] at supplying
    obtain ⟨_, further⟩ := visible_supplying supplying found
    rw [← pending] at further
    exact .completed host brisc further (service.carry rfl rfl rfl rfl) issued sem completion
  | gone brisc asked host =>
    refine .gone brisc (asked.carry rfl) ?_
    intro remaining still
    obtain rfl : Effect.stage offset bytes :: rest = remaining :=
      HostPhase.writing.inj (writing.symm.trans still)
    rcases host _ writing with announcing | supplying
    · obtain ⟨_, _, _, _, _, _, _, forms⟩ := announcing
      simp at forms
    · exact Or.inr (visible_supplying supplying found).2

/-- The worker finishes a request only when the reader is done with it. -/
theorem finish_situation (situation : Situation cfg state) (awaiting : state.host = .awaiting)
    (done : state.completion = state.commitIssued) :
    Situation cfg { state with moveProcessed := succ32 state.moveProcessed, host := .idle } := by
  cases situation with
  | quiet host =>
    rcases host with host | host <;> exact absurd (awaiting.symm.trans host) (by simp)
  | announcing host => exact absurd (awaiting.symm.trans host) (by simp)
  | announced host brisc supplying service issued sem completion =>
    rw [done, issued] at completion
    exact absurd completion (succ32_ne _)
  | streaming host supplying service issued sem seen =>
    rw [done, issued] at seen
    exact absurd seen.symm (succ32_ne _)
  | completed host brisc supplying service issued sem completion =>
    exact .quiet (Or.inl rfl) (Or.inl ⟨brisc, fun _ => service.channel⟩) issued sem completion
  | gone brisc asked host =>
    exact .gone brisc (asked.carry rfl) fun remaining impossible => by simp at impossible

/-- A worker that is told to stop leaves what it has published. -/
theorem stop_situation (situation : Situation cfg state)
    (stopping : state.host = .idle ∨ state.host = .awaiting) :
    Situation cfg { state with host := .stopped } := by
  have pending : state.host.pending = [] := by
    rcases stopping with idle | awaiting
    · rw [idle]; rfl
    · rw [awaiting]; rfl
  cases situation with
  | quiet host brisc issued sem completion =>
    refine .quiet (Or.inr rfl) ?_ issued sem completion
    rcases brisc with ⟨idle, -⟩ | ⟨called, channel, asked⟩
    · exact Or.inl ⟨idle, fun impossible => by simp at impossible⟩
    · exact Or.inr ⟨called, channel, asked.carry rfl⟩
  | announcing host =>
    rcases stopping with other | other <;> exact absurd (other.symm.trans host) (by simp)
  | announced host brisc supplying service issued sem completion offset =>
    rw [pending] at supplying
    exact .announced (by simp) brisc supplying (service.carry rfl rfl rfl rfl) issued sem completion
      offset
  | streaming host supplying service issued sem seen offset cached reads =>
    rw [pending] at supplying
    exact .streaming (by simp) supplying (service.carry rfl rfl rfl rfl) issued sem seen offset
      cached (reads.keep (fun _ known => known) rfl rfl rfl)
  | completed host brisc supplying service issued sem completion =>
    rw [pending] at supplying
    exact .completed (by simp) brisc supplying (service.carry rfl rfl rfl rfl) issued sem completion
  | gone brisc asked host =>
    exact .gone brisc (asked.carry rfl) fun remaining impossible => by simp at impossible

/-! ## Steps of the reader -/

theorem post_situation {request : MoveRequest} (situation : Situation cfg state)
    (idle : state.brisc = .idle) (free : state.moveSem = state.moveProcessed)
    (mapped : cfg.stageNocOk = true) (serving : request.op = moveOpHostServe)
    (short : request.totalLen < 2 ^ 32) :
    Situation cfg { state with
      request, moveSem := succ32 state.moveSem, batches := [], brisc := .called } := by
  have busy : InService cfg state → False := by
    intro service
    exact succ32_ne _ (service.channel.symm.trans free)
  cases situation with
  | quiet host brisc issued sem completion =>
    exact .quiet host (Or.inr ⟨rfl, congrArg succ32 free, mapped, serving, short⟩) issued sem
      completion
  | announcing host brisc => exact absurd (idle.symm.trans brisc) (by simp)
  | announced host brisc => exact absurd (idle.symm.trans brisc) (by simp)
  | streaming host supplying service => exact (busy service).elim
  | completed host brisc supplying service => exact (busy service).elim
  | gone brisc =>
    rcases brisc with other | other <;> exact absurd (idle.symm.trans other) (by simp)

/-- The reader sees an announcement of its own request only, and forgets what it has cached
before. -/
theorem observe_situation (situation : Situation cfg state) (called : state.brisc = .called)
    (fresh : state.commitSem ≠ state.commitSeen) (pushed : state.batches = []) :
    Situation cfg { state with
      commitSeen := state.commitSem
      cached := none
      stageReadOff := state.commitReadOff
      brisc := .gated 0 } := by
  cases situation with
  | quiet host brisc issued sem => exact absurd sem fresh
  | announcing host brisc announcing service issued sem => exact absurd sem fresh
  | announced host brisc supplying service issued sem completion offset =>
    refine .streaming host supplying (service.carry rfl rfl rfl rfl) sem.symm rfl ?_ offset
      (fun chunks impossible => by simp at impossible) (.gated ⟨?_, ?_⟩)
    · change state.commitSem = succ32 state.completion
      rw [sem, issued, completion]
    · exact chunkCountFor_pos service.sized.positive
    · change state.batches.flatten = _
      rw [pushed, Nat.zero_mul, List.take_zero]
      rfl
  | streaming host supplying service issued sem seen offset cached reads =>
    exact absurd called reads.phase.2.1
  | completed host brisc => exact absurd (called.symm.trans brisc) (by simp)
  | gone brisc =>
    rcases brisc with other | other <;> exact absurd (called.symm.trans other) (by simp)

/-- What the data cache may hold: nothing, or what the word holds now. -/
theorem cache_situation {cached : Option Nat} (situation : Situation cfg state)
    (loaded : ∀ chunks, cached = some chunks → chunks = state.stageProgress) :
    Situation cfg { state with cached } := by
  cases situation with
  | quiet host brisc issued sem completion =>
    refine .quiet host ?_ issued sem completion
    rcases brisc with idle | ⟨called, channel, asked⟩
    · exact Or.inl idle
    · exact Or.inr ⟨called, channel, asked.carry rfl⟩
  | announcing host brisc announcing service issued sem completion =>
    exact .announcing host brisc announcing (service.carry rfl rfl rfl rfl) issued sem completion
  | announced host brisc supplying service issued sem completion offset =>
    exact .announced host brisc supplying (service.carry rfl rfl rfl rfl) issued sem completion
      offset
  | streaming host supplying service issued sem seen offset _ reads =>
    refine .streaming host supplying (service.carry rfl rfl rfl rfl) issued sem seen offset ?_
      (reads.keep (fun _ known => known) rfl rfl rfl)
    intro chunks found
    obtain ⟨ready, covered, below, -, -⟩ := supplying
    exact covered.mono ((loaded chunks found).le.trans below)
  | completed host brisc supplying service issued sem completion =>
    exact .completed host brisc supplying (service.carry rfl rfl rfl rfl) issued sem completion
  | gone brisc asked host => exact .gone brisc (asked.carry rfl) host

/-- A reader in a batch or before one streams. -/
theorem streams (situation : Situation cfg state)
    (phase : (∃ base, state.brisc = .gated base) ∨ (∃ base arrived, state.brisc = .reading base arrived) ∨
      state.brisc = .drained) :
    state.host ≠ .idle ∧ Supplying state state.host.pending ∧ InService cfg state ∧
      state.commitIssued = state.commitSeen ∧ state.commitSem = state.commitSeen ∧
      state.commitSeen = succ32 state.completion ∧ state.stageReadOff = state.servedOff ∧
      (∀ chunks, state.cached = some chunks → Covered state chunks) ∧ Reads state state.brisc := by
  cases situation with
  | streaming host supplying service issued sem seen offset cached reads =>
    exact ⟨host, supplying, service, issued, sem, seen, offset, cached, reads⟩
  | quiet host brisc =>
    rcases brisc with ⟨other, -⟩ | ⟨other, -⟩ <;> simp [other] at phase
  | announcing host other => simp [other] at phase
  | announced host other => simp [other] at phase
  | completed host other => simp [other] at phase
  | gone brisc => rcases brisc with other | other <;> simp [other] at phase

/-- A look at the progress word that suffices was covered. -/
theorem poll_situation {base : Nat} (situation : Situation cfg state)
    (gated : state.brisc = .gated base) : Situation cfg (pollProgress state base) := by
  obtain ⟨host, supplying, service, issued, sem, seen, offset, cached, reads⟩ :=
    streams situation (Or.inl ⟨base, gated⟩)
  rw [gated] at reads
  unfold pollProgress
  dsimp only
  split
  · exact cache_situation situation fun chunks impossible => by simp at impossible
  · next enough =>
    have covered : Covered state (state.cached.getD state.stageProgress) := by
      cases loaded : state.cached with
      | none =>
        obtain ⟨ready, known, below, -, -⟩ := supplying
        exact known.mono below
      | some chunks => exact cached chunks loaded
    cases reads with
    | gated begun =>
      refine .streaming host supplying (service.carry rfl rfl rfl rfl) issued sem seen offset ?_ ?_
      · intro chunks found
        obtain rfl := Option.some.inj found
        exact covered
      · exact .reading ⟨begun.more, begun.pushed⟩ (covered.mono (Nat.le_of_not_lt enough))
          fun _ _ impossible => by simp at impossible

theorem arrive_situation {base index : Nat} {arrived : Nat → Option UInt8}
    (situation : Situation cfg state) (reading : state.brisc = .reading base arrived)
    (fetched : index < readBytes state base) :
    Situation cfg { state with
      brisc := .reading base
        (update arrived index (some (state.mapping (readAddress state base index)))) } := by
  obtain ⟨host, supplying, service, issued, sem, seen, offset, cached, reads⟩ :=
    streams situation (Or.inr (Or.inl ⟨base, arrived, reading⟩))
  rw [reading] at reads
  cases reads with
  | reading begun covered right =>
    refine .streaming host supplying (service.carry rfl rfl rfl rfl) issued sem seen offset cached
      (.reading ⟨begun.more, begun.pushed⟩ covered ?_)
    intro other byte found inside
    by_cases same : other = index
    · subst same
      rw [Function.update_self] at found
      obtain rfl := Option.some.inj found
      have belongs := byte_read service.sized offset begun.more covered fetched inside
      exact belongs
    · rw [Function.update_of_ne same] at found
      exact right other byte found inside

theorem barrier_situation {base : Nat} {arrived : Nat → Option UInt8}
    (situation : Situation cfg state) (reading : state.brisc = .reading base arrived) :
    Situation cfg (endRead state base arrived) := by
  obtain ⟨host, supplying, service, issued, sem, seen, offset, cached, reads⟩ :=
    streams situation (Or.inr (Or.inl ⟨base, arrived, reading⟩))
  rw [reading] at reads
  cases reads with
  | reading begun covered right =>
    exact .streaming host supplying (service.carry rfl rfl rfl rfl) issued sem seen offset cached
      (endRead_reads service.sized offset begun covered right)

/-- A terminated reader leaves the worker to itself. -/
theorem leave_situation {phase : BriscPhase} (situation : Situation cfg state)
    (leaving : state.brisc = .called ∨ ∃ base, state.brisc = .gated base)
    (left : phase = .aborted ∨ phase = .terminated) :
    Situation cfg { state with brisc := phase } := by
  have supplied : ∀ {remaining}, Supplying state state.host.pending →
      state.host = .writing remaining → Announcing state remaining ∨ Supplying state remaining := by
    intro remaining supplying writing
    have pending : state.host.pending = remaining := congrArg HostPhase.pending writing
    exact Or.inr (pending ▸ supplying)
  cases situation with
  | quiet host brisc =>
    rcases brisc with ⟨other, -⟩ | ⟨-, -, asked⟩
    · simp [other] at leaving
    · refine .gone left (asked.carry rfl) ?_
      intro remaining writing
      rcases host with other | other <;> exact absurd (writing.symm.trans other) (by simp)
  | announcing host brisc announcing service =>
    refine .gone left (service.asked.carry rfl) ?_
    intro remaining writing
    obtain rfl := HostPhase.writing.inj (host.symm.trans writing)
    exact Or.inl announcing
  | announced host brisc supplying service =>
    exact .gone left (service.asked.carry rfl) fun _ => supplied supplying
  | streaming host supplying service =>
    exact .gone left (service.asked.carry rfl) fun _ => supplied supplying
  | completed host brisc => simp [brisc] at leaving
  | gone brisc => rcases brisc with other | other <;> simp [other] at leaving

theorem complete_situation (situation : Situation cfg state) (drained : state.brisc = .drained) :
    Situation cfg { state with completion := state.commitSeen, brisc := .idle } := by
  obtain ⟨host, supplying, service, issued, sem, -, -, -, -⟩ :=
    streams situation (Or.inr (Or.inr drained))
  exact .completed host rfl supplying (service.carry rfl rfl rfl rfl) issued sem rfl

theorem aborted_situation (situation : Situation cfg state) (aborted : state.brisc = .aborted) :
    Situation cfg { state with completion := state.commitSeen, brisc := .terminated } := by
  cases situation with
  | gone brisc asked host => exact .gone (Or.inr rfl) (asked.carry rfl) host
  | quiet host brisc =>
    rcases brisc with ⟨other, -⟩ | ⟨other, -⟩ <;> simp [other] at aborted
  | announcing host other => simp [other] at aborted
  | announced host other => simp [other] at aborted
  | completed host other => simp [other] at aborted
  | streaming host supplying service issued sem seen offset cached reads =>
    exact absurd aborted reads.phase.2.2.1

/-- Other operations of the channel leave it quiet. -/
theorem other_situation (host : state.host = .idle)
    (brisc : state.brisc = .idle) (free : state.moveSem = state.moveProcessed)
    (mapping : ByteMemory) (count : Nat) :
    Situation cfg { state with
      mapping
      commitIssued := count
      commitSem := count
      commitSeen := count
      completion := count } :=
  .quiet (Or.inl host) (Or.inl ⟨brisc, fun _ => free⟩) rfl rfl rfl

/-! ## Runs -/

/-- What every step keeps: the situation, and no batches before the announcement. -/
structure Invariant (cfg : RuntimeConfig) (state : State) : Prop where
  situation : Situation cfg state
  fresh : state.brisc = .called → state.batches = []

theorem step_invariant {action : Action} {events : List Nat} (holds : Invariant cfg state)
    (stepped : step cfg state action = some (after, events)) :
    Invariant cfg after ∧ ∀ chunks ∈ events, Covered after chunks := by
  obtain ⟨situation, fresh⟩ := holds
  cases action with
  | post request =>
    simp only [step] at stepped
    split at stepped
    · next idle =>
      split at stepped
      · next guard =>
        obtain ⟨rfl, rfl⟩ := Prod.mk.inj (Option.some.inj stepped)
        exact ⟨⟨post_situation situation idle guard.1 guard.2.1 guard.2.2.1 guard.2.2.2.2,
          fun _ => rfl⟩, by simp⟩
      · cases stepped
    · cases stepped
  | take value =>
    simp only [step] at stepped
    split at stepped
    · next idle =>
      split at stepped
      · next guard =>
        obtain ⟨rfl, rfl⟩ := Prod.mk.inj (Option.some.inj stepped)
        exact ⟨⟨take_situation situation idle guard.1 guard.2, fresh⟩, by simp⟩
      · cases stepped
    · cases stepped
  | visible index =>
    simp only [step] at stepped
    split at stepped
    · next writing =>
      obtain ⟨byte, found, same⟩ := Option.map_eq_some_iff.mp stepped
      obtain ⟨rfl, rfl⟩ := Prod.mk.inj same
      exact ⟨⟨visible_situation situation writing found, fresh⟩, by simp⟩
    · cases stepped
  | write =>
    simp only [step] at stepped
    split at stepped
    · next effect remaining writing =>
      obtain ⟨rfl, rfl⟩ := Prod.mk.inj (Option.some.inj stepped)
      obtain ⟨next, published⟩ := write_situation situation writing
      refine ⟨⟨next, ?_⟩, published⟩
      cases effect <;> exact fresh
    · cases stepped
  | observeCommit =>
    simp only [step] at stepped
    split at stepped
    · next called =>
      split at stepped
      · next guard =>
        obtain ⟨rfl, rfl⟩ := Prod.mk.inj (Option.some.inj stepped)
        exact ⟨⟨observe_situation situation called guard (fresh called),
          fun impossible => by simp at impossible⟩, by simp⟩
      · cases stepped
    · cases stepped
  | prefetch =>
    simp only [step] at stepped
    split at stepped
    · obtain ⟨rfl, rfl⟩ := Prod.mk.inj (Option.some.inj stepped)
      refine ⟨⟨cache_situation situation ?_, fresh⟩, by simp⟩
      intro chunks loaded
      exact (Option.some.inj loaded).symm
    · cases stepped
  | invalidate =>
    obtain ⟨rfl, rfl⟩ := Prod.mk.inj (Option.some.inj stepped)
    exact ⟨⟨cache_situation situation fun chunks impossible => by simp at impossible, fresh⟩,
      by simp⟩
  | poll =>
    simp only [step] at stepped
    split at stepped
    · next base gated =>
      obtain ⟨rfl, rfl⟩ := Prod.mk.inj (Option.some.inj stepped)
      refine ⟨⟨poll_situation situation gated, ?_⟩, by simp⟩
      intro called
      unfold pollProgress at called
      dsimp only at called
      split at called
      · exact absurd (gated.symm.trans called) (by simp)
      · simp at called
    · cases stepped
  | arrive index =>
    simp only [step] at stepped
    split at stepped
    · next base arrived reading =>
      split at stepped
      · next guard =>
        obtain ⟨rfl, rfl⟩ := Prod.mk.inj (Option.some.inj stepped)
        exact ⟨⟨arrive_situation situation reading guard.1,
          fun impossible => by simp at impossible⟩, by simp⟩
      · cases stepped
    · cases stepped
  | barrier =>
    simp only [step] at stepped
    split at stepped
    · next base arrived reading =>
      obtain ⟨rfl, rfl⟩ := Prod.mk.inj (Option.some.inj stepped)
      refine ⟨⟨barrier_situation situation reading, ?_⟩, by simp⟩
      intro called
      simp only [endRead] at called
      split at called <;> cases called
    · cases stepped
  | giveUp =>
    simp only [step] at stepped
    split at stepped
    · next called =>
      obtain ⟨rfl, rfl⟩ := Prod.mk.inj (Option.some.inj stepped)
      exact ⟨⟨leave_situation situation (Or.inl called) (Or.inr rfl),
        fun impossible => by simp at impossible⟩, by simp⟩
    · next base gated =>
      obtain ⟨rfl, rfl⟩ := Prod.mk.inj (Option.some.inj stepped)
      exact ⟨⟨leave_situation situation (Or.inr ⟨base, gated⟩) (Or.inl rfl),
        fun impossible => by simp at impossible⟩, by simp⟩
    · cases stepped
  | complete =>
    simp only [step] at stepped
    split at stepped
    · next drained =>
      obtain ⟨rfl, rfl⟩ := Prod.mk.inj (Option.some.inj stepped)
      exact ⟨⟨complete_situation situation drained, fun impossible => by simp at impossible⟩,
        by simp⟩
    · next aborted =>
      obtain ⟨rfl, rfl⟩ := Prod.mk.inj (Option.some.inj stepped)
      exact ⟨⟨aborted_situation situation aborted, fun impossible => by simp at impossible⟩,
        by simp⟩
    · cases stepped
  | finish =>
    simp only [step] at stepped
    split at stepped
    · next awaiting =>
      split at stepped
      · next guard =>
        obtain ⟨rfl, rfl⟩ := Prod.mk.inj (Option.some.inj stepped)
        exact ⟨⟨finish_situation situation awaiting guard, fresh⟩, by simp⟩
      · cases stepped
    · cases stepped
  | stop =>
    simp only [step] at stepped
    split at stepped
    · next idle =>
      obtain ⟨rfl, rfl⟩ := Prod.mk.inj (Option.some.inj stepped)
      exact ⟨⟨stop_situation situation (Or.inl idle), fresh⟩, by simp⟩
    · next awaiting =>
      obtain ⟨rfl, rfl⟩ := Prod.mk.inj (Option.some.inj stepped)
      exact ⟨⟨stop_situation situation (Or.inr awaiting), fresh⟩, by simp⟩
    · cases stepped
  | otherMove mapping count =>
    simp only [step] at stepped
    split at stepped
    · next host brisc =>
      split at stepped
      · next guard =>
        obtain ⟨rfl, rfl⟩ := Prod.mk.inj (Option.some.inj stepped)
        exact ⟨⟨other_situation host brisc guard mapping count, fresh⟩, by simp⟩
      · cases stepped
    · cases stepped

/-- The invariant holds wherever a run of the channel ends. -/
theorem run_invariant {mapping : ByteMemory} {trace : List Nat}
    (run : Run.Run (Run.Takes (step cfg)) (initial mapping) trace state) : Invariant cfg state := by
  apply run.invariant (Invariant cfg)
  · exact ⟨initial_situation mapping, fun impossible => by simp [initial] at impossible⟩
  · rintro before events next holds ⟨action, stepped⟩
    exact (step_invariant holds stepped).1

/-- A streamed host value is never read ahead of its staging.

For every run of the channel, with requests and values of any length and any interleaving
of both sides. A count that the worker publishes is covered: the bytes of so many chunks
of the value are where the reader looks for them. A batch that is read is covered by
copies for this request, the bytes of the value that have arrived are right, and the read
goes past the value by the alignment only. The last count that the worker publishes is the
number of chunks, so that a batch the reader waits for is announced. After the last batch,
the batches are the value and the rest of one unit of alignment.

Proof: the situations are an invariant; counts are covered when they are published and
stay covered, since the worker only puts bytes of the value where they belong. -/
theorem stream_reads_staged {mapping : ByteMemory} {trace : List Nat}
    (run : Run.Run (Run.Takes (step cfg)) (initial mapping) trace state) :
    (∀ after events, Run.Takes (step cfg) state events after →
        ∀ chunks ∈ events, Covered after chunks) ∧
    (∀ base arrived, state.brisc = .reading base arrived →
        Covered state (base + thisBatch state.numChunks base) ∧
        (∀ index < readBytes state base,
          base * maxChunkValueBytes + index < state.served.length →
          state.served[base * maxChunkValueBytes + index]? =
            some (state.mapping (readAddress state base index))) ∧
        Arrived state base arrived ∧
        base * maxChunkValueBytes + readBytes state base ≤ roundUp 32 state.served.length) ∧
    (∀ base, state.brisc = .gated base →
        base + thisBatch state.numChunks base ≤ state.numChunks ∧
        (state.stageProgress :: progressOf state.host.pending).getLast? = some state.numChunks) ∧
    (state.brisc = .drained →
        state.batches.flatten.take state.served.length = state.served ∧
        state.batches.flatten.length = roundUp 32 state.served.length) := by
  have holds := run_invariant run
  refine ⟨?_, ?_, ?_, ?_⟩
  · rintro after events ⟨action, stepped⟩
    exact (step_invariant holds stepped).2
  · intro base arrived reading
    obtain ⟨-, -, service, -, -, -, offset, -, reads⟩ :=
      streams holds.situation (Or.inr (Or.inl ⟨base, arrived, reading⟩))
    rw [reading] at reads
    cases reads with
    | reading begun covered right =>
      refine ⟨covered, ?_, right, ?_⟩
      · intro index fetched inside
        exact byte_read service.sized offset begun.more covered fetched inside
      · have aligned : 32 ∣ base * maxChunkValueBytes := Dvd.dvd.mul_left (by decide) base
        rw [readBytes, ← roundUp_add (by decide) aligned]
        apply roundUp_le (by decide) (dvd_roundUp 32 _)
        apply le_trans _ (le_roundUp (by decide) _)
        rw [service.sized.served]
        rcases batchBytes_eq service.sized.short begun.more with
          ⟨-, -, size, room⟩ | ⟨-, -, size, room⟩
        · rw [State.numChunks, size]
          rw [Nat.add_mul] at room
          omega
        · rw [State.numChunks, size]
          omega
  · intro base gated
    obtain ⟨-, ⟨ready, -, -, -, last⟩, -, -, -, -, -, -, reads⟩ :=
      streams holds.situation (Or.inl ⟨base, gated⟩)
    rw [gated] at reads
    cases reads with
    | gated begun =>
      refine ⟨?_, last⟩
      have more := begun.more
      unfold thisBatch
      split <;> omega
  · intro drained
    obtain ⟨-, -, -, -, -, -, -, -, reads⟩ :=
      streams holds.situation (Or.inr (Or.inr drained))
    rw [drained] at reads
    cases reads with
    | drained value rounded => exact ⟨value, rounded⟩

/-- A GET of a value of one byte, streamed over memory that held other bytes. -/
def oneByteStream : List Action :=
  [.post ⟨moveOpHostServe, 0, 0, 1, 0, []⟩, .take ⟨[5], 1, 0, 0, 0⟩, .write, .write, .write,
    .write, .write, .observeCommit, .poll, .barrier]

/-- Where the stream of one byte ends. -/
theorem one_byte_streamed : ∃ state trace,
    Run.Run (Run.Takes (step smallServer)) (initial fun _ => 7) trace state ∧
      state.brisc = .drained ∧ state.served = [5] ∧
      state.batches = [5 :: List.replicate 31 7] := by
  have ends : ((Run.execute (step smallServer) (initial fun _ => 7) oneByteStream).map fun last =>
      (last.1.brisc matches .drained, last.1.served, last.1.batches)) =
        some (true, [5], [5 :: List.replicate 31 7]) := by
    decide +kernel
  cases executed : Run.execute (step smallServer) (initial fun _ => 7) oneByteStream with
  | none =>
    rw [executed] at ends
    cases ends
  | some last =>
    obtain ⟨state, trace⟩ := last
    rw [executed] at ends
    simp only [Option.map_some, Option.some.injEq, Prod.mk.injEq] at ends
    obtain ⟨drained, served, batches⟩ := ends
    refine ⟨state, trace, Run.Run.execute .start executed, ?_, served, batches⟩
    split at drained
    · assumption
    · cases drained

/-- The streamed byte is the value of its request. -/
theorem one_byte_is_streamed : ∃ state trace,
    Run.Run (Run.Takes (step smallServer)) (initial fun _ => 7) trace state ∧
      state.batches.flatten.take state.served.length = state.served := by
  obtain ⟨state, trace, run, drained, -, -⟩ := one_byte_streamed
  exact ⟨state, trace, run, ((stream_reads_staged run).2.2.2 drained).1⟩

/-- The reads go past what was staged: the batches of a value of one byte hold bytes that
the memory held before. -/
theorem reads_past_the_value :
    ¬ ∀ (cfg : RuntimeConfig) (mapping : ByteMemory) (trace : List Nat) (state : State),
      Run.Run (Run.Takes (step cfg)) (initial mapping) trace state → state.brisc = .drained →
        state.batches.flatten = state.served := by
  intro claim
  obtain ⟨state, trace, run, drained, served, batches⟩ := one_byte_streamed
  have exact' := claim smallServer _ trace state run drained
  rw [served, batches] at exact'
  exact absurd exact' (by decide)

end KvCache.HostStream
