import KvCache.Host.WorkerAgreement
import KvCache.Transfer.GetPlacement
import KvCache.Transfer.HostStream

/-!
# A streamed host value is never read ahead of its staging

What is left of the worker's writes is honest: every copy lays the next chunks of the value
where they belong, and every count that follows is covered by the copies before it. Both
sides keep an invariant with one case for each situation of a request. While a request is
streamed, every count that the reader can see is covered, the last count to come is the
number of chunks, and the batches pushed so far are the beginning of the value.
-/

namespace KvCache.HostStream

open Layout HostTransfer Function Stretches
open HostTransfer.Internal (HostValue)
open GetStream (getValueCbReadBatch subWord)
open ClientOps (toWord)

variable {cfg : RuntimeConfig} {state after : State}

/-! ## Honest writes -/

/-- Writes that keep what they publish, given how many chunks are in place before them. -/
def Honest (served : List UInt8) (servedOff : Nat) : Nat → List Effect → Prop
  | _, [] => True
  | ready, .stage offset bytes :: rest =>
    ∃ count, offset = servedOff + ready * maxChunkValueBytes ∧
      bytes = (served.drop (ready * maxChunkValueBytes)).take (count * maxChunkValueBytes) ∧
      Honest served servedOff (ready + count) rest
  | ready, .stageProgress chunks :: rest => chunks ≤ ready ∧ Honest served servedOff ready rest
  | _, _ :: _ => False

/-- The blocks of a staged stream are honest. -/
theorem honest_stageBlocks {served : List UInt8} {numChunks : Nat} :
    ∀ blocks base, base + stageBlockChunks * blocks < numChunks + stageBlockChunks →
      Honest served 0 base (stageBlocks served served.length numChunks blocks base) := by
  intro blocks
  induction blocks with
  | zero =>
    intro base _
    trivial
  | succ blocks inductionHypothesis =>
    intro base tight
    refine ⟨min stageBlockChunks (numChunks - base), (Nat.zero_add _).symm, ?_, le_rfl, ?_⟩
    · have length : (served.drop (base * maxChunkValueBytes)).length =
          served.length - base * maxChunkValueBytes := List.length_drop
      rw [Nat.min_comm, ← length, List.take_eq_take_iff]
      omega
    · cases blocks with
      | zero => trivial
      | succ blocks =>
        have whole : min stageBlockChunks (numChunks - base) = stageBlockChunks := by
          rw [Nat.mul_succ, Nat.mul_succ] at tight
          omega
        rw [whole]
        apply inductionHypothesis
        rw [Nat.mul_succ] at tight
        omega

/-- Everything that is in place stays in place when bytes of the value are put where they
belong. -/
theorem Covered.improve {chunks : Nat} (covered : Covered state chunks)
    (served : after.served = state.served) (servedOff : after.servedOff = state.servedOff)
    (improves : ∀ position, after.mapping (state.servedOff + position) =
        state.mapping (state.servedOff + position) ∨
      state.served[position]? = some (after.mapping (state.servedOff + position))) :
    Covered after chunks := by
  intro position inside
  rw [served] at inside ⊢
  rw [servedOff]
  rcases improves position with same | better
  · rw [same]
    exact covered position inside
  · exact better

theorem Covered.mono {fewer more : Nat} (covered : Covered state more) (less : fewer ≤ more) :
    Covered state fewer := by
  intro position inside
  apply covered position
  have spans := Nat.mul_le_mul_right maxChunkValueBytes less
  omega

/-- A byte of an honest copy belongs to the value. -/
theorem copied_byte {served : List UInt8} {start count index : Nat} {byte : UInt8}
    (copied : ((served.drop start).take count)[index]? = some byte) :
    index < count ∧ served[start + index]? = some byte := by
  rw [List.getElem?_take] at copied
  split at copied
  · next inside =>
    rw [List.getElem?_drop] at copied
    exact ⟨inside, copied⟩
  · cases copied

/-- What an honest copy leaves at a byte of the value. -/
theorem copy_improves {ready count : Nat} (position : Nat) :
    let written := state.mapping.write (state.servedOff + ready * maxChunkValueBytes)
      ((state.served.drop (ready * maxChunkValueBytes)).take (count * maxChunkValueBytes))
    written (state.servedOff + position) = state.mapping (state.servedOff + position) ∨
      state.served[position]? = some (written (state.servedOff + position)) := by
  dsimp only
  unfold ByteMemory.write
  split
  · next after =>
    cases found : ((state.served.drop (ready * maxChunkValueBytes)).take
        (count * maxChunkValueBytes))[state.servedOff + position -
          (state.servedOff + ready * maxChunkValueBytes)]? with
    | none => exact Or.inl rfl
    | some byte =>
      obtain ⟨_, belongs⟩ := copied_byte found
      have place : ready * maxChunkValueBytes + (state.servedOff + position -
          (state.servedOff + ready * maxChunkValueBytes)) = position := by omega
      rw [place] at belongs
      exact Or.inr belongs
  · exact Or.inl rfl

/-- An honest copy brings its chunks into place. -/
theorem copy_covers {ready count : Nat} (covered : Covered state ready)
    (served : after.served = state.served) (servedOff : after.servedOff = state.servedOff)
    (written : after.mapping = state.mapping.write
      (state.servedOff + ready * maxChunkValueBytes)
      ((state.served.drop (ready * maxChunkValueBytes)).take (count * maxChunkValueBytes))) :
    Covered after (ready + count) := by
  intro position inside
  rw [served] at inside ⊢
  rw [servedOff]
  rcases Nat.lt_or_ge position (ready * maxChunkValueBytes) with before | here
  · have kept : Covered after ready := by
      apply covered.improve served servedOff
      intro position
      rw [written]
      exact copy_improves position
    have known := kept position (by rw [served]; omega)
    rwa [served, servedOff] at known
  · rw [Nat.add_mul] at inside
    have short : position - ready * maxChunkValueBytes < count * maxChunkValueBytes := by omega
    have length : position < state.served.length := by omega
    have index : state.servedOff + position - (state.servedOff + ready * maxChunkValueBytes) =
        position - ready * maxChunkValueBytes := by omega
    have place : ready * maxChunkValueBytes + (position - ready * maxChunkValueBytes) =
        position := by omega
    have copied : ((state.served.drop (ready * maxChunkValueBytes)).take
        (count * maxChunkValueBytes))[position - ready * maxChunkValueBytes]? =
          state.served[position]? := by
      rw [List.getElem?_take, if_pos short, List.getElem?_drop, place]
    rw [written, ByteMemory.write, if_pos (by omega), index, copied,
      List.getElem?_eq_getElem length]
    rfl

/-! ## The worker -/

/-- What holds of the writes that are left once the progress word is cleared. -/
def Supplying (state : State) (remaining : List Effect) : Prop :=
  ∃ ready, Covered state ready ∧ state.stageProgress ≤ ready ∧
    Honest state.served state.servedOff ready remaining ∧
    (state.stageProgress :: progressOf remaining).getLast? = some state.numChunks

/-- What holds of them while the value is still to be announced. -/
def Announcing (state : State) (remaining : List Effect) : Prop :=
  ∃ ready stream commit, Covered state ready ∧
    Honest state.served state.servedOff ready stream ∧
    (0 :: progressOf stream).getLast? = some state.numChunks ∧
    commit.stageReadOff = state.servedOff ∧
    (remaining = .stageProgress 0 :: .commitReq commit :: .commitReqSem state.commitIssued ::
        stream ∨
      (remaining = .commitReq commit :: .commitReqSem state.commitIssued :: stream ∧
        state.stageProgress = 0) ∨
      (remaining = .commitReqSem state.commitIssued :: stream ∧ state.stageProgress = 0 ∧
        state.commitReadOff = state.servedOff))

/-- The value in service is the one of the request. -/
structure Sized (state : State) : Prop where
  served : state.served.length = state.request.totalLen
  positive : 0 < state.request.totalLen
  short : state.request.totalLen < 2 ^ 32

/-- The writes of a worker that has taken a streamed request announce an honest stream. -/
theorem take_announces {value : HostValue} (mapped : cfg.stageNocOk = true)
    (serving : state.request.op = moveOpHostServe)
    (serves : Serves cfg state.request value) :
    let taken := takeRequest cfg state value
    taken.served.length = state.request.totalLen ∧
      Announcing taken (supplyEffects cfg state.request value (succ32 state.commitIssued)) := by
  have length : (valueBytes cfg state.mapping value).length = state.request.totalLen := by
    unfold valueBytes
    split
    · rw [ByteMemory.length_read]
      exact serves.len
    · next heap => exact serves.sized (Nat.eq_zero_of_not_pos heap)
  obtain ⟨-, last⟩ := progressOf_streamEffects state.request value
  constructor
  · exact length
  · by_cases pooled : 0 < value.poolUnits
    · refine ⟨chunkCountFor state.request.totalLen, streamEffects state.request value,
        commitOf cfg state.request value, ?_, ?_, last, rfl, Or.inl ?_⟩
      · intro position inside
        have within : position < value.len := by
          rw [serves.len]
          exact lt_of_lt_of_le inside ((Nat.min_le_left _ _).trans length.le)
        simp [takeRequest, valueBytes, pooled, ByteMemory.read, within]
      · rw [streamEffects, if_pos pooled]
        exact ⟨le_rfl, trivial⟩
      · rw [supplyEffects, if_pos ⟨serving, mapped⟩]
        rfl
    · refine ⟨0, streamEffects state.request value, commitOf cfg state.request value, ?_, ?_, last,
        rfl, Or.inl ?_⟩
      · intro position inside
        rw [Nat.zero_mul, Nat.min_zero] at inside
        exact absurd inside (Nat.not_lt_zero _)
      · have heap := serves.sized (Nat.eq_zero_of_not_pos pooled)
        have source : valueBytes cfg state.mapping value = value.heap := if_neg pooled
        have here : readOffOf cfg value = 0 := readOffOf_heap (Nat.eq_zero_of_not_pos pooled)
        have positive := chunkCountFor_pos serves.positive
        rw [streamEffects, if_neg pooled, stageStream, ← heap]
        simp only [takeRequest, source, here]
        apply honest_stageBlocks
        simp only [stageBlockChunks]
        omega
      · rw [supplyEffects, if_pos ⟨serving, mapped⟩]
        rfl

/-- A write of the stream keeps the promise, and what it publishes is covered. -/
theorem write_supplying {effect : Effect} {rest : List Effect}
    (supplying : Supplying state (effect :: rest)) :
    Supplying (writeEffect state effect).1 rest ∧
      (∀ chunks, Covered state chunks → Covered (writeEffect state effect).1 chunks) ∧
      (∀ chunks ∈ (writeEffect state effect).2, Covered (writeEffect state effect).1 chunks) ∧
      ∃ mapping stageProgress,
        (writeEffect state effect).1 = { state with mapping, stageProgress } := by
  obtain ⟨ready, covered, below, honest, last⟩ := supplying
  cases effect with
  | stage offset bytes =>
    obtain ⟨count, rfl, rfl, further⟩ := honest
    have keeps : ∀ chunks, Covered state chunks →
        Covered (writeEffect state (.stage (state.servedOff + ready * maxChunkValueBytes)
          ((state.served.drop (ready * maxChunkValueBytes)).take
            (count * maxChunkValueBytes)))).1 chunks := by
      intro chunks known
      exact known.improve rfl rfl copy_improves
    refine ⟨⟨ready + count, ?_, ?_, further, last⟩, keeps, by simp [writeEffect], _, _, rfl⟩
    · exact copy_covers covered rfl rfl rfl
    · exact below.trans (Nat.le_add_right _ _)
  | stageProgress chunks =>
    obtain ⟨fits, further⟩ := honest
    refine ⟨⟨ready, covered, fits, further, last⟩, fun _ known => known, ?_, _, _, rfl⟩
    intro published listed
    obtain rfl : published = chunks := List.mem_singleton.mp listed
    exact covered.mono fits
  | evictAck readOff generation => exact honest.elim
  | evictAckSem count => exact honest.elim
  | commitReq request => exact honest.elim
  | commitReqSem count => exact honest.elim
  | heapWrite write => exact honest.elim
  | moveProcessed count => exact honest.elim

/-- A write of the announcement goes on with it or, with its last word, starts the stream. -/
theorem write_announcing {effect : Effect} {rest : List Effect}
    (announcing : Announcing state (effect :: rest)) :
    (∀ chunks ∈ (writeEffect state effect).2, Covered (writeEffect state effect).1 chunks) ∧
      ((∃ stageProgress commitReadOff, (writeEffect state effect).1 =
            { state with stageProgress, commitReadOff } ∧
          Announcing (writeEffect state effect).1 rest) ∨
        ((writeEffect state effect).1 = { state with commitSem := state.commitIssued } ∧
          state.commitReadOff = state.servedOff ∧
          Supplying (writeEffect state effect).1 rest)) := by
  obtain ⟨ready, stream, commit, covered, honest, last, offset, forms⟩ := announcing
  rcases forms with form | ⟨form, cleared⟩ | ⟨form, cleared, known⟩
  · obtain ⟨rfl, rfl⟩ := List.cons.inj form
    constructor
    · intro published listed
      obtain rfl : published = 0 := List.mem_singleton.mp listed
      exact covered.mono (Nat.zero_le _)
    · exact Or.inl ⟨_, _, rfl, ready, stream, commit, covered, honest, last, offset,
        Or.inr (Or.inl ⟨rfl, rfl⟩)⟩
  · obtain ⟨rfl, rfl⟩ := List.cons.inj form
    constructor
    · simp [writeEffect]
    · exact Or.inl ⟨_, _, rfl, ready, stream, commit, covered, honest, last, offset,
        Or.inr (Or.inr ⟨rfl, cleared, offset⟩)⟩
  · obtain ⟨rfl, rfl⟩ := List.cons.inj form
    constructor
    · simp [writeEffect]
    · refine Or.inr ⟨rfl, known, ready, covered, ?_, honest, ?_⟩
      · exact cleared.le.trans (Nat.zero_le _)
      · simp only [writeEffect, cleared]
        exact last

/-- A byte of a copy that becomes visible early keeps the promise. -/
theorem visible_supplying {offset index : Nat} {bytes : List UInt8} {byte : UInt8}
    {rest : List Effect} (supplying : Supplying state (.stage offset bytes :: rest))
    (found : bytes[index]? = some byte) :
    (∀ chunks, Covered state chunks →
        Covered { state with mapping := update state.mapping (offset + index) byte } chunks) ∧
      Supplying { state with mapping := update state.mapping (offset + index) byte }
        (.stage offset bytes :: rest) := by
  obtain ⟨ready, covered, below, ⟨count, rfl, rfl, further⟩, last⟩ := supplying
  have keeps : ∀ chunks, Covered state chunks → Covered { state with
      mapping := update state.mapping (state.servedOff + ready * maxChunkValueBytes + index)
        byte } chunks := by
    intro chunks known
    apply known.improve
    · rfl
    · rfl
    · intro position
      by_cases here : state.servedOff + position =
          state.servedOff + ready * maxChunkValueBytes + index
      · obtain ⟨_, belongs⟩ := copied_byte found
        have place : position = ready * maxChunkValueBytes + index := by omega
        right
        dsimp only
        rw [here, Function.update_self, place]
        exact belongs
      · left
        exact Function.update_of_ne here _ _
  exact ⟨keeps, ready, keeps ready covered, below, ⟨count, rfl, rfl, further⟩, last⟩

/-! ## The reader -/

/-- What the words of a batch are: a batch that another one follows is full, the last one
ends with the value. -/
theorem batchBytes_eq {total base : Nat} (short : total < 2 ^ 32)
    (more : base < chunkCountFor total) :
    (base + getValueCbReadBatch < chunkCountFor total ∧
        thisBatch (chunkCountFor total) base = getValueCbReadBatch ∧
        batchBytes total (chunkCountFor total) base = getValueCbReadBatch * maxChunkValueBytes ∧
        (base + getValueCbReadBatch) * maxChunkValueBytes < total) ∨
      (chunkCountFor total ≤ base + getValueCbReadBatch ∧
        base + thisBatch (chunkCountFor total) base = chunkCountFor total ∧
        batchBytes total (chunkCountFor total) base = total - base * maxChunkValueBytes ∧
        base * maxChunkValueBytes < total) := by
  have begins := GetStream.chunk_begins more
  have holds := le_chunkCountFor_mul total
  have baseWord : toWord (base * maxChunkValueBytes) = base * maxChunkValueBytes :=
    Nat.mod_eq_of_lt (begins.trans short)
  have left : subWord total (base * maxChunkValueBytes) = total - base * maxChunkValueBytes := by
    rw [subWord]
    omega
  have few : thisBatch (chunkCountFor total) base ≤ getValueCbReadBatch := by
    unfold thisBatch
    split <;> omega
  have spanWord : toWord (thisBatch (chunkCountFor total) base * maxChunkValueBytes) =
      thisBatch (chunkCountFor total) base * maxChunkValueBytes := by
    apply Nat.mod_eq_of_lt
    simp only [maxChunkValueBytes, getValueCbReadBatch] at few ⊢
    omega
  simp only [batchBytes, baseWord, spanWord, left]
  rcases Nat.lt_or_ge (base + getValueCbReadBatch) (chunkCountFor total) with inner | last
  · left
    have full : thisBatch (chunkCountFor total) base = getValueCbReadBatch := by
      rw [thisBatch, if_neg (by omega)]
    have following := GetStream.chunk_begins inner
    have room : getValueCbReadBatch * maxChunkValueBytes < total - base * maxChunkValueBytes := by
      rw [Nat.add_mul] at following
      omega
    exact ⟨inner, full, by rw [full, if_pos room], following⟩
  · right
    have rest : base + thisBatch (chunkCountFor total) base = chunkCountFor total := by
      unfold thisBatch
      split <;> omega
    have covers : total - base * maxChunkValueBytes ≤
        thisBatch (chunkCountFor total) base * maxChunkValueBytes := by
      rw [← rest, Nat.add_mul] at holds
      omega
    exact ⟨last, rest, by rw [if_neg (Nat.not_lt.mpr covers)], begins⟩

/-- The batches before a base are the beginning of the value. -/
structure Begun (state : State) (base : Nat) : Prop where
  more : base < state.numChunks
  pushed : state.batches.flatten = state.served.take (base * maxChunkValueBytes)

/-- Bytes of the value that have arrived are right. -/
def Arrived (state : State) (base : Nat) (arrived : Nat → Option UInt8) : Prop :=
  ∀ index byte, arrived index = some byte →
    base * maxChunkValueBytes + index < state.served.length →
    state.served[base * maxChunkValueBytes + index]? = some byte

/-- What holds of the reader while it streams. -/
inductive Reads (state : State) : BriscPhase → Prop where
  | gated {base : Nat} (begun : Begun state base) : Reads state (.gated base)
  | reading {base : Nat} {arrived : Nat → Option UInt8} (begun : Begun state base)
      (covered : Covered state (base + thisBatch state.numChunks base))
      (right : Arrived state base arrived) : Reads state (.reading base arrived)
  | drained (value : state.batches.flatten.take state.served.length = state.served)
      (rounded : state.batches.flatten.length = roundUp 32 state.served.length) :
      Reads state .drained

/-- Copies of the worker do not disturb the reader. -/
theorem Reads.keep {phase : BriscPhase} (reads : Reads state phase)
    (keeps : ∀ chunks, Covered state chunks → Covered after chunks)
    (batches : after.batches = state.batches) (served : after.served = state.served)
    (request : after.request = state.request) : Reads after phase := by
  have chunks : after.numChunks = state.numChunks := by rw [State.numChunks, request]; rfl
  cases reads with
  | gated begun =>
    exact .gated ⟨chunks ▸ begun.more, by rw [batches, served]; exact begun.pushed⟩
  | reading begun covered right =>
    refine .reading ⟨chunks ▸ begun.more, by rw [batches, served]; exact begun.pushed⟩ ?_ ?_
    · rw [chunks]
      exact keeps _ covered
    · intro index byte found inside
      rw [served] at inside ⊢
      exact right index byte found inside
  | drained value rounded =>
    exact .drained (by rw [batches, served]; exact value) (by rw [batches, served]; exact rounded)

/-- A byte of the value that a covered read fetches is right. -/
theorem byte_read {base index : Nat} (sized : Sized state)
    (offset : state.stageReadOff = state.servedOff) (more : base < state.numChunks)
    (covered : Covered state (base + thisBatch state.numChunks base))
    (fetched : index < readBytes state base)
    (inside : base * maxChunkValueBytes + index < state.served.length) :
    state.served[base * maxChunkValueBytes + index]? =
      some (state.mapping (readAddress state base index)) := by
  have address : readAddress state base index =
      state.servedOff + (base * maxChunkValueBytes + index) := by
    rw [readAddress, offset, Nat.add_assoc]
  rw [address]
  apply covered
  apply Nat.lt_min.mpr
  refine ⟨inside, ?_⟩
  rcases batchBytes_eq sized.short more with ⟨-, full, bytes, -⟩ | ⟨-, rest, -, -⟩
  · have whole : readBytes state base = getValueCbReadBatch * maxChunkValueBytes := by
      rw [readBytes, State.numChunks, bytes]
      exact roundUp_of_dvd (by decide) (by decide)
    rw [whole] at fetched
    rw [State.numChunks, full, Nat.add_mul]
    omega
  · rw [State.numChunks, rest]
    apply inside.trans_le
    rw [sized.served]
    exact le_chunkCountFor_mul _

/-- A batch goes on the batches before it, or completes the value. -/
theorem endRead_reads {base : Nat} {arrived : Nat → Option UInt8} (sized : Sized state)
    (offset : state.stageReadOff = state.servedOff) (begun : Begun state base)
    (covered : Covered state (base + thisBatch state.numChunks base))
    (right : Arrived state base arrived) :
    Reads (endRead state base arrived) (endRead state base arrived).brisc := by
  have bytes : ∀ index < readBytes state base,
      base * maxChunkValueBytes + index < state.served.length →
      ((List.range (readBytes state base)).map fun index =>
        (arrived index).getD (state.mapping (readAddress state base index)))[index]? =
          state.served[base * maxChunkValueBytes + index]? := by
    intro index fetched inside
    rw [List.getElem?_map, List.getElem?_range fetched]
    cases found : arrived index with
    | none => simp [found, byte_read sized offset begun.more covered fetched inside]
    | some byte => simp [found, right index byte found inside]
  have atBase : base * maxChunkValueBytes < state.served.length := by
    rw [sized.served]
    exact GetStream.chunk_begins begun.more
  have length : (state.served.take (base * maxChunkValueBytes)).length =
      base * maxChunkValueBytes := by
    rw [List.length_take, Nat.min_eq_left atBase.le]
  have aligned : 32 ∣ base * maxChunkValueBytes := Dvd.dvd.mul_left (by decide) base
  rcases batchBytes_eq sized.short begun.more with ⟨inner, -, size, room⟩ | ⟨last, -, size, -⟩
  · have whole : readBytes state base = getValueCbReadBatch * maxChunkValueBytes := by
      rw [readBytes, State.numChunks, size]
      exact roundUp_of_dvd (by decide) (by decide)
    have phase : (endRead state base arrived).brisc = .gated (base + getValueCbReadBatch) :=
      if_pos inner
    rw [phase]
    refine .gated ⟨inner, ?_⟩
    have slice : (List.range (readBytes state base)).map (fun index =>
        (arrived index).getD (state.mapping (readAddress state base index))) =
          (state.served.drop (base * maxChunkValueBytes)).take
            (getValueCbReadBatch * maxChunkValueBytes) := by
      apply List.ext_getElem?
      intro index
      rw [List.getElem?_take, List.getElem?_drop]
      by_cases fetched : index < readBytes state base
      · rw [if_pos (whole ▸ fetched)]
        apply bytes index fetched
        rw [sized.served]
        rw [whole] at fetched
        rw [Nat.add_mul] at room
        omega
      · rw [if_neg (whole ▸ fetched)]
        simp [Nat.le_of_not_lt fetched]
    rw [endRead, List.flatten_append, begun.pushed, List.flatten_singleton, slice, Nat.add_mul,
      List.take_add]
  · have phase : (endRead state base arrived).brisc = .drained := if_neg (Nat.not_lt.mpr last)
    have rounded : readBytes state base =
        roundUp 32 (state.served.length - base * maxChunkValueBytes) := by
      rw [readBytes, State.numChunks, size, sized.served]
    have tail : ((List.range (readBytes state base)).map (fun index =>
        (arrived index).getD (state.mapping (readAddress state base index)))).take
          (state.served.length - base * maxChunkValueBytes) =
            state.served.drop (base * maxChunkValueBytes) := by
      have enough := le_roundUp (by decide : 0 < 32) (state.served.length - base * maxChunkValueBytes)
      apply List.ext_getElem?
      intro index
      rw [List.getElem?_take, List.getElem?_drop]
      split
      · next inside =>
        exact bytes index (by omega) (by omega)
      · next outside =>
        exact (List.getElem?_eq_none (by omega)).symm
    rw [phase]
    refine .drained ?_ ?_
    · change (endRead state base arrived).batches.flatten.take state.served.length = state.served
      rw [endRead, List.flatten_append, begun.pushed, List.flatten_singleton, List.take_append,
        length, tail, List.take_of_length_le (by omega)]
      exact List.take_append_drop _ _
    · change (endRead state base arrived).batches.flatten.length = roundUp 32 state.served.length
      have split : state.served.length =
          base * maxChunkValueBytes + (state.served.length - base * maxChunkValueBytes) := by omega
      rw [endRead, List.flatten_append, begun.pushed, List.flatten_singleton, List.length_append,
        length, List.length_map, List.length_range, rounded, ← roundUp_add (by decide) aligned,
        ← split]

end KvCache.HostStream
