import KvCache.Transfer.Push

/-!
# A push copies its chunks

What a push does to the memory when copies take no time, and that its copies are apart
from those that may be under way. The batches of a range follow one another; the two halves
of the scratch buffer alternate, and the barriers of a batch cover the reads of its own half
and the writes from the other one.
-/

namespace KvCache.WriteThrough

open Layout Stretches Transfers

variable {memory : Place → UInt8}

theorem heap_injective : Function.Injective Place.heap := fun _ _ => Place.heap.inj

theorem scratch_injective : Function.Injective Place.scratch := fun _ _ => Place.scratch.inj

theorem host_injective : Function.Injective Place.host := fun _ _ => Place.host.inj

/-! ## Reads -/

/-- The reads of a batch, with the length of each. -/
def reads (unit scratch : Nat) (bytes : Nat → Nat) (count : Nat) : List (Command Kind Place) :=
  (List.range count).map fun k =>
    readUnit (unit + k) (scratch + k * maxChunkValueBytes) (bytes k)

theorem reads_succ (unit scratch : Nat) (bytes : Nat → Nat) (count : Nat) :
    reads unit scratch bytes (count + 1) = reads unit scratch bytes count ++
      [readUnit (unit + count) (scratch + count * maxChunkValueBytes) (bytes count)] := by
  simp [reads, List.range_succ]

/-- Reads leave everything but the scratch buffer. -/
theorem perform_reads_other (unit scratch : Nat) (bytes : Nat → Nat) (count : Nat) {place : Place}
    (outside : ∀ address, place ≠ .scratch address) :
    perform (reads unit scratch bytes count) memory place = memory place := by
  induction count with
  | zero => rfl
  | succ count inductionHypothesis =>
    rw [reads_succ, perform_append]
    change carryAll _ (block _ _ _ _ _) place = _
    rw [carryAll_block_other _ fun offset _ same => outside _ same.symm]
    exact inductionHypothesis

/-- What the reads of a batch bring to the scratch buffer. -/
theorem perform_reads (unit scratch : Nat) (bytes : Nat → Nat) {count : Nat}
    (fits : ∀ k < count, bytes k ≤ maxChunkValueBytes) {k offset : Nat} (listed : k < count)
    (inside : offset < bytes k) :
    perform (reads unit scratch bytes count) memory
        (.scratch (scratch + k * maxChunkValueBytes + offset)) =
      memory (.heap ((unit + k) * maxChunkValueBytes + offset)) := by
  induction count with
  | zero => omega
  | succ count inductionHypothesis =>
    rw [reads_succ, perform_append]
    change carryAll _ (block _ _ _ _ _) _ = _
    obtain rfl | earlier := Nat.eq_or_lt_of_le (Nat.le_of_lt_succ listed)
    · rw [carryAll_block scratch_injective (by simp) _ inside]
      exact perform_reads_other unit scratch bytes k (by simp)
    · have short := fits k listed
      have below : (k + 1) * maxChunkValueBytes ≤ count * maxChunkValueBytes :=
        Nat.mul_le_mul_right _ earlier
      rw [Nat.succ_mul] at below
      rw [carryAll_block_other]
      · exact inductionHypothesis (fun k less => fits k (by omega)) earlier
      · intro other _ same
        have places := scratch_injective same
        omega

/-! ## Bursts -/

variable {maxBurst : Nat}

/-- Bursts leave everything but the host range. -/
theorem perform_bursts_other {fuel src dst bytes : Nat} {place : Place}
    (outside : ∀ offset < bytes, place ≠ .host (dst + offset)) :
    perform (writeBursts maxBurst fuel src dst bytes) memory place = memory place := by
  induction fuel generalizing src dst bytes memory with
  | zero => rfl
  | succ fuel inductionHypothesis =>
    unfold writeBursts
    split
    · rfl
    · next some =>
      simp only [perform]
      generalize burst_eq : (if maxBurst < bytes then maxBurst else bytes) = burst
      have short : burst ≤ bytes := by
        rw [← burst_eq]
        split <;> omega
      rw [inductionHypothesis, carryAll_block_other]
      · intro offset less same
        exact outside offset (by omega) same.symm
      · intro offset less same
        rw [Nat.add_assoc] at same
        exact outside (burst + offset) (by omega) same

/-- What the bursts bring to the host. -/
theorem perform_bursts (positive : 0 < maxBurst) {fuel src dst bytes offset : Nat}
    (enough : bytes ≤ fuel) (inside : offset < bytes) :
    perform (writeBursts maxBurst fuel src dst bytes) memory (.host (dst + offset)) =
      memory (.scratch (src + offset)) := by
  induction fuel generalizing src dst bytes memory offset with
  | zero => omega
  | succ fuel inductionHypothesis =>
    unfold writeBursts
    rw [if_neg (by omega)]
    simp only [perform]
    generalize burst_eq : (if maxBurst < bytes then maxBurst else bytes) = burst
    have bounds : 0 < burst ∧ burst ≤ bytes := by
      rw [← burst_eq]
      split <;> omega
    by_cases first : offset < burst
    · rw [perform_bursts_other]
      · exact carryAll_block host_injective (by simp) _ first
      · intro other _ same
        have places := host_injective same
        omega
    · obtain ⟨rest, rfl⟩ := Nat.exists_eq_add_of_le (Nat.le_of_not_lt first)
      rw [← Nat.add_assoc, ← Nat.add_assoc, inductionHypothesis (by omega) (by omega),
        carryAll_block_other]
      intro other _ same
      cases same

/-! ## Lengths -/

theorem unit_whole : 32 ∣ maxChunkValueBytes := ⟨134, rfl⟩

namespace Push

variable {push : Push}

/-- The bytes of host memory that are written with the chunks before an end. -/
def reach (push : Push) (chunk : Nat) : Nat :=
  min (chunk * maxChunkValueBytes) (roundUp 32 push.totalLen)

/-- A chunk of the value begins inside the value. -/
theorem begins_inside {chunk : Nat} (listed : chunk < push.numChunks) :
    chunk * maxChunkValueBytes < push.totalLen := by
  unfold numChunks chunkCountFor maxChunkValueBytes at *
  split at listed <;> omega

/-- All chunks reach the rounded end of the value. -/
theorem reach_numChunks : push.reach push.numChunks = roundUp 32 push.totalLen := by
  apply Nat.min_eq_right
  exact roundUp_le (by decide) (unit_whole.mul_left _) (le_chunkCountFor_mul push.totalLen)

/-- The bytes of a batch end where the next one begins, or at the rounded end. -/
theorem reach_batch {base : Nat} (count : Nat) (listed : base < push.numChunks) :
    base * maxChunkValueBytes + roundUp 32 (min (count * maxChunkValueBytes)
      (push.totalLen - base * maxChunkValueBytes)) = push.reach (base + count) := by
  have inside := begins_inside listed
  have whole : 32 ∣ base * maxChunkValueBytes := unit_whole.mul_left base
  have rounded := le_roundUp (show 0 < 32 by decide) push.totalLen
  rw [← roundUp_add (by decide) whole, reach, Nat.add_mul]
  obtain cut | short := Nat.le_total (count * maxChunkValueBytes)
    (push.totalLen - base * maxChunkValueBytes)
  · have aligned : 32 ∣ base * maxChunkValueBytes + count * maxChunkValueBytes :=
      Nat.dvd_add whole (unit_whole.mul_left count)
    rw [Nat.min_eq_left cut, roundUp_of_dvd (by decide) aligned]
    omega
  · have ends : base * maxChunkValueBytes + (push.totalLen - base * maxChunkValueBytes) =
        push.totalLen := by omega
    have bound := roundUp_le (show 0 < 32 by decide)
      (Nat.dvd_add whole (unit_whole.mul_left count))
      (show push.totalLen ≤ base * maxChunkValueBytes + count * maxChunkValueBytes by omega)
    rw [Nat.min_eq_right short, ends]
    omega

/-- A byte below the reach is among those read with its chunk. -/
theorem reads_reach {chunk offset : Nat} (listed : chunk < push.numChunks)
    (inside : offset < maxChunkValueBytes)
    (reached : chunk * maxChunkValueBytes + offset < roundUp 32 push.totalLen) :
    offset < roundUp 32 (push.chunkBytes chunk) := by
  have begins := begins_inside listed
  have whole : 32 ∣ chunk * maxChunkValueBytes := unit_whole.mul_left chunk
  have split : roundUp 32 push.totalLen = chunk * maxChunkValueBytes +
      roundUp 32 (push.totalLen - chunk * maxChunkValueBytes) := by
    rw [← roundUp_add (by decide) whole]
    congr 1
    omega
  unfold chunkBytes
  obtain last | full := Nat.le_total (push.totalLen - chunk * maxChunkValueBytes)
    maxChunkValueBytes
  · rw [Nat.min_eq_left last]
    omega
  · rw [Nat.min_eq_right full, roundUp_of_dvd (by decide) unit_whole]
    exact inside

/-- The bytes read with a chunk do not exceed a unit. -/
theorem reads_le (chunk : Nat) : roundUp 32 (push.chunkBytes chunk) ≤ maxChunkValueBytes :=
  roundUp_le (by decide) unit_whole (Nat.min_le_right _ _)

/-! ## Batches -/

/-- The reads of a batch in the form of the loop. -/
theorem batch_eq (push : Push) (base endChunk batchIndex : Nat) :
    push.batch base endChunk batchIndex =
      reads (push.baseUnit + base) (push.scratch + batchIndex % 2 * halfBytes)
          (fun k => roundUp 32 (push.chunkBytes (base + k)))
          (min (endChunk - base) movePushBatch) ++
        (.barrier .read :: (if batchIndex = 0 then [] else [.barrier .write]) ++
          writeBursts push.maxBurst
            (roundUp 32 (min (min (endChunk - base) movePushBatch * maxChunkValueBytes)
              (push.totalLen - base * maxChunkValueBytes)))
            (push.scratch + batchIndex % 2 * halfBytes)
            (push.hostDst + base * maxChunkValueBytes)
            (roundUp 32 (min (min (endChunk - base) movePushBatch * maxChunkValueBytes)
              (push.totalLen - base * maxChunkValueBytes)))) := by
  simp only [batch, reads, List.append_assoc]

/-- Barriers do nothing when copies take no time. -/
theorem perform_barriers (batchIndex : Nat) (rest : List (Command Kind Place)) :
    perform (.barrier .read :: (if batchIndex = 0 then [] else [.barrier .write]) ++ rest) memory =
      perform rest memory := by
  by_cases first : batchIndex = 0 <;> simp [first, perform]

/-- A batch leaves the heap. -/
theorem perform_batch_heap (base endChunk batchIndex address : Nat) :
    perform (push.batch base endChunk batchIndex) memory (.heap address) =
      memory (.heap address) := by
  rw [batch_eq, perform_append, perform_barriers, perform_bursts_other (by simp),
    perform_reads_other _ _ _ _ (by simp)]

/-- A batch leaves the host outside its own range. -/
theorem perform_batch_other {base endChunk batchIndex address : Nat}
    (listed : base < push.numChunks)
    (outside : address < push.hostDst + base * maxChunkValueBytes ∨
      push.hostDst + push.reach (base + min (endChunk - base) movePushBatch) ≤ address) :
    perform (push.batch base endChunk batchIndex) memory (.host address) =
      memory (.host address) := by
  have ends := reach_batch (min (endChunk - base) movePushBatch) listed
  rw [batch_eq, perform_append, perform_barriers, perform_bursts_other,
    perform_reads_other _ _ _ _ (by simp)]
  intro offset less same
  have places := host_injective same
  omega

/-- What a batch brings to the host. -/
theorem perform_batch {base endChunk batchIndex position : Nat} (positive : 0 < push.maxBurst)
    (some : base < endChunk) (listed : endChunk ≤ push.numChunks)
    (after : base * maxChunkValueBytes ≤ position)
    (before : position < push.reach (base + min (endChunk - base) movePushBatch)) :
    perform (push.batch base endChunk batchIndex) memory (.host (push.hostDst + position)) =
      memory (.heap (push.baseUnit * maxChunkValueBytes + position)) := by
  obtain ⟨offset, rfl⟩ := Nat.exists_eq_add_of_le after
  have ends := reach_batch (min (endChunk - base) movePushBatch) (Nat.lt_of_lt_of_le some listed)
  have rounded : base * maxChunkValueBytes + offset < roundUp 32 push.totalLen :=
    Nat.lt_of_lt_of_le before (Nat.min_le_right _ _)
  have batched : base * maxChunkValueBytes + offset <
      (base + min (endChunk - base) movePushBatch) * maxChunkValueBytes :=
    Nat.lt_of_lt_of_le before (Nat.min_le_left _ _)
  rw [Nat.add_mul] at batched
  -- The byte belongs to a chunk of the batch.
  have chunk : offset / maxChunkValueBytes < min (endChunk - base) movePushBatch :=
    Nat.div_lt_of_lt_mul (by rw [Nat.mul_comm]; omega)
  have rest := Nat.mod_lt offset maxChunkValueBytes_pos
  have split := Nat.div_add_mod' offset maxChunkValueBytes
  have read : offset % maxChunkValueBytes <
      roundUp 32 (push.chunkBytes (base + offset / maxChunkValueBytes)) := by
    apply reads_reach (by omega) rest
    rw [Nat.add_mul]
    omega
  have brought : perform (reads (push.baseUnit + base)
      (push.scratch + batchIndex % 2 * halfBytes)
      (fun k => roundUp 32 (push.chunkBytes (base + k)))
      (min (endChunk - base) movePushBatch)) memory _ = memory _ :=
    perform_reads _ _ _ (fun k _ => reads_le (base + k)) chunk read
  rw [batch_eq, perform_append, perform_barriers, ← Nat.add_assoc,
    perform_bursts positive le_rfl (by omega)]
  have source : push.scratch + batchIndex % 2 * halfBytes +
      offset / maxChunkValueBytes * maxChunkValueBytes + offset % maxChunkValueBytes =
        push.scratch + batchIndex % 2 * halfBytes + offset := by omega
  have origin : (push.baseUnit + base + offset / maxChunkValueBytes) * maxChunkValueBytes +
      offset % maxChunkValueBytes =
        push.baseUnit * maxChunkValueBytes + base * maxChunkValueBytes + offset := by
    rw [Nat.add_mul, Nat.add_mul]
    omega
  rw [source, origin] at brought
  rw [brought, Nat.add_assoc]

/-! ## Ranges -/

theorem reach_le (push : Push) (chunk : Nat) : push.reach chunk ≤ chunk * maxChunkValueBytes :=
  Nat.min_le_left _ _

theorem reach_of_lt {chunk : Nat} (listed : chunk < push.numChunks) :
    push.reach chunk = chunk * maxChunkValueBytes := by
  apply Nat.min_eq_left
  exact (begins_inside listed).le.trans (le_roundUp (by decide) push.totalLen)

/-- A range leaves the heap. -/
theorem perform_range_heap (fuel base endChunk batchIndex address : Nat) :
    perform (push.chunkRange fuel base endChunk batchIndex) memory (.heap address) =
      memory (.heap address) := by
  induction fuel generalizing base batchIndex memory with
  | zero => rfl
  | succ fuel inductionHypothesis =>
    unfold chunkRange
    split
    · rw [perform_append, inductionHypothesis, perform_batch_heap]
    · rfl

/-- A range leaves the host outside its own bytes. -/
theorem perform_range_other {fuel base endChunk batchIndex address : Nat}
    (listed : endChunk ≤ push.numChunks)
    (outside : address < push.hostDst + base * maxChunkValueBytes ∨
      push.hostDst + push.reach endChunk ≤ address) :
    perform (push.chunkRange fuel base endChunk batchIndex) memory (.host address) =
      memory (.host address) := by
  induction fuel generalizing base batchIndex memory with
  | zero => rfl
  | succ fuel inductionHypothesis =>
    unfold chunkRange
    split
    · next some =>
      have monotone : push.reach (base + min (endChunk - base) movePushBatch) ≤
          push.reach endChunk := by
        have fewer : base + min (endChunk - base) movePushBatch ≤ endChunk := by omega
        exact min_le_min_right _ (Nat.mul_le_mul_right _ fewer)
      rw [perform_append, inductionHypothesis, perform_batch_other (by omega)]
      · omega
      · rw [Nat.add_mul]
        omega
    · rfl

/-- What a range brings to the host.

Proof: the first batch brings the bytes below the next one, which the following batches
leave; those bring the rest from the heap, which the first batch leaves. -/
theorem perform_range {fuel base endChunk batchIndex position : Nat} (positive : 0 < push.maxBurst)
    (enough : endChunk - base ≤ fuel) (listed : endChunk ≤ push.numChunks)
    (after : base * maxChunkValueBytes ≤ position) (before : position < push.reach endChunk) :
    perform (push.chunkRange fuel base endChunk batchIndex) memory
        (.host (push.hostDst + position)) =
      memory (.heap (push.baseUnit * maxChunkValueBytes + position)) := by
  induction fuel generalizing base batchIndex memory with
  | zero =>
    have bound := push.reach_le endChunk
    have ends : endChunk * maxChunkValueBytes ≤ base * maxChunkValueBytes :=
      Nat.mul_le_mul_right _ (by omega)
    omega
  | succ fuel inductionHypothesis =>
    have eight : movePushBatch = 8 := rfl
    unfold chunkRange
    split
    · next some =>
      rw [perform_append]
      by_cases last : endChunk ≤ base + movePushBatch
      · have whole : base + min (endChunk - base) movePushBatch = endChunk := by
          omega
        have done : push.chunkRange fuel (base + movePushBatch) endChunk (batchIndex + 1) = [] := by
          cases fuel with
          | zero => rfl
          | succ fuel => rw [chunkRange, if_neg (by omega)]
        rw [done]
        exact perform_batch positive some listed after (whole.symm ▸ before)
      · have full : min (endChunk - base) movePushBatch = movePushBatch := by omega
        have next := reach_of_lt (show base + movePushBatch < push.numChunks by omega)
        by_cases here : position < (base + movePushBatch) * maxChunkValueBytes
        · rw [perform_range_other listed (.inl (by omega))]
          exact perform_batch positive some listed after (by rw [full, next]; exact here)
        · rw [inductionHypothesis (by omega) (by omega), perform_batch_heap]
    · next none =>
      have bound := push.reach_le endChunk
      have ends : endChunk * maxChunkValueBytes ≤ base * maxChunkValueBytes :=
        Nat.mul_le_mul_right _ (by omega)
      omega

/-! ## What may be under way -/

/-- A copy under way writes to the host from one half of the scratch buffer. -/
def FromHalf (push : Push) (parity bound : Nat) (copy : Kind × Move Place) : Prop :=
  copy.1 = .write ∧ ∃ source target, copy.2 = ⟨.scratch source, .host target⟩ ∧
    push.scratch + parity * halfBytes ≤ source ∧
    source < push.scratch + parity * halfBytes + halfBytes ∧ target < bound

/-- A copy under way reads from the heap into a range of the scratch buffer. -/
def IntoScratch (start stop : Nat) (copy : Kind × Move Place) : Prop :=
  copy.1 = .read ∧ ∃ source target, copy.2 = ⟨.heap source, .scratch target⟩ ∧
    start ≤ target ∧ target < stop

/-- What may be under way while a batch is read: writes of the batch before it, from the other
half, and reads into the own half below a bound. -/
def Reading (push : Push) (batchIndex bound stop : Nat) (copy : Kind × Move Place) : Prop :=
  push.FromHalf ((batchIndex + 1) % 2) bound copy ∨
    IntoScratch (push.scratch + batchIndex % 2 * halfBytes) stop copy

/-- The halves of the scratch buffer do not overlap. -/
theorem halves_apart (batchIndex : Nat) {first second : Nat}
    (one : push.scratch + (batchIndex + 1) % 2 * halfBytes ≤ first ∧
      first < push.scratch + (batchIndex + 1) % 2 * halfBytes + halfBytes)
    (other : push.scratch + batchIndex % 2 * halfBytes ≤ second ∧
      second < push.scratch + batchIndex % 2 * halfBytes + halfBytes) : first ≠ second := by
  obtain even | odd := Nat.mod_two_eq_zero_or_one batchIndex
  · have next : (batchIndex + 1) % 2 = 1 := by omega
    rw [even] at other
    rw [next] at one
    omega
  · have next : (batchIndex + 1) % 2 = 0 := by omega
    rw [odd] at other
    rw [next] at one
    omega

/-- Reads launch nothing but reads. -/
theorem reads_launch {unit scratch count : Nat} {bytes : Nat → Nat}
    {inFlight : List (Kind × Move Place)} {copy : Kind × Move Place}
    (member : copy ∈ launchAll inFlight (reads unit scratch bytes count)) :
    copy ∈ inFlight ∨ copy.1 = .read := by
  induction count with
  | zero => exact .inl member
  | succ count inductionHypothesis =>
    rw [reads_succ, launchAll_append] at member
    obtain before | new := List.mem_append.mp member
    · exact inductionHypothesis before
    · obtain ⟨move, _, rfl⟩ := List.mem_map.mp new
      exact .inr rfl

/-- The reads of a batch are apart from what may be under way. -/
theorem reads_safe (unit : Nat) (bytes : Nat → Nat) {batchIndex bound count : Nat}
    (fits : ∀ k < count, bytes k ≤ maxChunkValueBytes) (few : count ≤ movePushBatch)
    {inFlight : List (Kind × Move Place)}
    (under : ∀ copy ∈ inFlight, push.FromHalf ((batchIndex + 1) % 2) bound copy) :
    Safe inFlight (reads unit (push.scratch + batchIndex % 2 * halfBytes) bytes count) ∧
      ∀ copy ∈ launchAll inFlight
        (reads unit (push.scratch + batchIndex % 2 * halfBytes) bytes count),
        push.Reading batchIndex bound (push.scratch + batchIndex % 2 * halfBytes +
          count * maxChunkValueBytes) copy := by
  induction count with
  | zero =>
    constructor
    · trivial
    · exact fun copy member => .inl (under copy member)
  | succ count inductionHypothesis =>
    obtain ⟨safe, known⟩ := inductionHypothesis (fun k less => fits k (by omega)) (by omega)
    have short := fits count (Nat.lt_succ_self count)
    have room : (count + 1) * maxChunkValueBytes ≤ halfBytes := Nat.mul_le_mul_right _ few
    rw [Nat.succ_mul] at room
    rw [reads_succ, safe_append, launchAll_append]
    refine ⟨⟨safe, ⟨?_, block_apart scratch_injective (by simp)⟩, trivial⟩, ?_⟩
    · intro move member copy listed
      obtain ⟨offset, inside, rfl⟩ := mem_block.mp member
      obtain ⟨_, source, target, same, low, high, _⟩ | ⟨_, source, target, same, _, high⟩ :=
        known copy listed
      · rw [same]
        refine ⟨by simp, by simp, ?_⟩
        intro clash
        have places := scratch_injective clash
        exact halves_apart batchIndex ⟨low, high⟩ ⟨by omega, by omega⟩ places.symm
      · rw [same]
        refine ⟨fun clash => ?_, by simp, by simp⟩
        have places := scratch_injective clash
        omega
    · intro copy member
      rw [Nat.succ_mul]
      obtain before | new := List.mem_append.mp member
      · obtain writing | ⟨kind, source, target, same, low, high⟩ := known copy before
        · exact .inl writing
        · exact .inr ⟨kind, source, target, same, low, by omega⟩
      · obtain ⟨move, listed, rfl⟩ := List.mem_map.mp new
        obtain ⟨offset, inside, rfl⟩ := mem_block.mp listed
        exact .inr ⟨rfl, _, _, rfl, by omega, by omega⟩

/-- Bursts from one half to a host range above what is under way are apart from it. -/
theorem bursts_safe (fuel dst : Nat) {parity src bytes : Nat} {inFlight : List (Kind × Move Place)}
    (low : push.scratch + parity * halfBytes ≤ src)
    (high : src + bytes ≤ push.scratch + parity * halfBytes + halfBytes)
    (under : ∀ copy ∈ inFlight, push.FromHalf parity dst copy) :
    Safe inFlight (writeBursts push.maxBurst fuel src dst bytes) ∧
      ∀ copy ∈ launchAll inFlight (writeBursts push.maxBurst fuel src dst bytes),
        push.FromHalf parity (dst + bytes) copy := by
  induction fuel generalizing src dst bytes inFlight with
  | zero =>
    constructor
    · trivial
    · intro copy member
      obtain ⟨kind, source, target, same, first, last, below⟩ := under copy member
      exact ⟨kind, source, target, same, first, last, by omega⟩
  | succ fuel inductionHypothesis =>
    unfold writeBursts
    split
    · constructor
      · trivial
      · intro copy member
        obtain ⟨kind, source, target, same, first, last, below⟩ := under copy member
        exact ⟨kind, source, target, same, first, last, by omega⟩
    · simp only
      generalize burst_eq : (if push.maxBurst < bytes then push.maxBurst else bytes) = burst
      have short : burst ≤ bytes := by
        rw [← burst_eq]
        split <;> omega
      have launched : ∀ copy ∈ (Command.issue Kind.write
          (block .scratch .host src dst burst)).launch inFlight,
          push.FromHalf parity (dst + burst) copy := by
        intro copy member
        obtain before | new := List.mem_append.mp member
        · obtain ⟨kind, source, target, same, first, last, below⟩ := under copy before
          exact ⟨kind, source, target, same, first, last, by omega⟩
        · obtain ⟨move, listed, rfl⟩ := List.mem_map.mp new
          obtain ⟨offset, inside, rfl⟩ := mem_block.mp listed
          exact ⟨rfl, _, _, rfl, by omega, by omega, by omega⟩
      have inside : src + burst + (bytes - burst) ≤
          push.scratch + parity * halfBytes + halfBytes := by omega
      obtain ⟨safe, known⟩ := inductionHypothesis (dst + burst) (by omega) inside launched
      refine ⟨⟨⟨?_, block_apart host_injective (by simp)⟩, safe⟩, ?_⟩
      · intro move member copy listed
        obtain ⟨offset, inside, rfl⟩ := mem_block.mp member
        obtain ⟨_, source, target, same, _, _, below⟩ := under copy listed
        rw [same]
        refine ⟨fun clash => ?_, by simp, by simp⟩
        have places := host_injective clash
        omega
      · intro copy member
        have ends : dst + burst + (bytes - burst) = dst + bytes := by omega
        exact ends ▸ known copy member

/-- The barriers of a batch leave nothing of the batch before it. -/
theorem barriers_clear {batchIndex bound stop : Nat} {inFlight : List (Kind × Move Place)}
    (reading : ∀ copy ∈ inFlight, push.Reading batchIndex bound stop copy)
    (first : batchIndex = 0 → ∀ copy ∈ inFlight, copy.1 = .read) :
    launchAll inFlight (.barrier .read :: if batchIndex = 0 then [] else [.barrier .write]) = [] := by
  apply List.eq_nil_iff_forall_not_mem.mpr
  intro copy member
  by_cases start : batchIndex = 0
  · rw [if_pos start] at member
    obtain ⟨listed, left⟩ := List.mem_filter.mp member
    simp [first start copy listed] at left
  · rw [if_neg start] at member
    obtain ⟨listed, left⟩ := List.mem_filter.mp member
    obtain ⟨listed, unread⟩ := List.mem_filter.mp listed
    obtain ⟨kind, _⟩ | ⟨kind, _⟩ := reading copy listed
    · simp [kind] at left
    · simp [kind] at unread

/-- A batch is safe after the batch before it, and leaves its own writes under way. -/
theorem batch_safe {base endChunk batchIndex : Nat} (listed : base < push.numChunks)
    {bound : Nat} {inFlight : List (Kind × Move Place)}
    (under : ∀ copy ∈ inFlight, push.FromHalf ((batchIndex + 1) % 2) bound copy)
    (first : batchIndex = 0 → inFlight = []) :
    Safe inFlight (push.batch base endChunk batchIndex) ∧
      ∀ copy ∈ launchAll inFlight (push.batch base endChunk batchIndex),
        push.FromHalf (batchIndex % 2)
          (push.hostDst + push.reach (base + min (endChunk - base) movePushBatch)) copy := by
  have few : min (endChunk - base) movePushBatch ≤ movePushBatch := Nat.min_le_right _ _
  have ends := reach_batch (min (endChunk - base) movePushBatch) listed
  have room : roundUp 32 (min (min (endChunk - base) movePushBatch * maxChunkValueBytes)
      (push.totalLen - base * maxChunkValueBytes)) ≤ halfBytes :=
    roundUp_le (by decide) (unit_whole.mul_left _)
      ((Nat.min_le_left _ _).trans (Nat.mul_le_mul_right _ few))
  have wide : push.scratch + batchIndex % 2 * halfBytes + roundUp 32 (min
      (min (endChunk - base) movePushBatch * maxChunkValueBytes)
      (push.totalLen - base * maxChunkValueBytes)) ≤
        push.scratch + batchIndex % 2 * halfBytes + halfBytes := by omega
  obtain ⟨read, reading⟩ := reads_safe (push.baseUnit + base)
    (fun k => roundUp 32 (push.chunkBytes (base + k))) (fun k _ => reads_le (base + k)) few under
  obtain ⟨written, writing⟩ := bursts_safe (roundUp 32 (min
    (min (endChunk - base) movePushBatch * maxChunkValueBytes)
    (push.totalLen - base * maxChunkValueBytes))) (push.hostDst + base * maxChunkValueBytes)
    le_rfl wide (List.forall_mem_nil _)
  have cleared := barriers_clear reading fun start copy member => by
    obtain old | read := reads_launch member
    · rw [first start] at old
      cases old
    · exact read
  rw [batch_eq, safe_append, safe_append, launchAll_append, launchAll_append, cleared]
  refine ⟨⟨read, ?_, written⟩, ?_⟩
  · by_cases start : batchIndex = 0 <;> simp [start, Safe]
  · rw [Nat.add_assoc, ends] at writing
    exact writing

/-- A range is safe after a batch, and leaves only writes under way.

Proof: the halves alternate with the batch index, so the writes of one batch come from the
half that the next batch does not read into. -/
theorem range_safe {fuel base endChunk batchIndex : Nat} (listed : endChunk ≤ push.numChunks)
    {bound : Nat} {inFlight : List (Kind × Move Place)}
    (under : ∀ copy ∈ inFlight, push.FromHalf ((batchIndex + 1) % 2) bound copy)
    (first : batchIndex = 0 → inFlight = []) :
    Safe inFlight (push.chunkRange fuel base endChunk batchIndex) ∧
      ∀ copy ∈ launchAll inFlight (push.chunkRange fuel base endChunk batchIndex),
        copy.1 = .write := by
  induction fuel generalizing base batchIndex bound inFlight with
  | zero =>
    constructor
    · trivial
    · exact fun copy member => (under copy member).1
  | succ fuel inductionHypothesis =>
    unfold chunkRange
    split
    · next some =>
      have inside : base < push.numChunks := by omega
      obtain ⟨safe, known⟩ : Safe inFlight (push.batch base endChunk batchIndex) ∧ _ :=
        batch_safe inside under first
      have again : (batchIndex + 1 + 1) % 2 = batchIndex % 2 := by omega
      have next : Safe _ (push.chunkRange fuel (base + movePushBatch) endChunk (batchIndex + 1)) ∧
          _ := inductionHypothesis (again.symm ▸ known) (by simp)
      rw [safe_append, launchAll_append]
      exact ⟨⟨safe, next.1⟩, next.2⟩
    · constructor
      · trivial
      · exact fun copy member => (under copy member).1

/-- A range that starts with nothing under way and ends with the barrier for writes is safe
and leaves nothing under way. -/
theorem fenced_safe {fuel base endChunk : Nat} (listed : endChunk ≤ push.numChunks) :
    Safe [] (push.chunkRange fuel base endChunk 0 ++ [.barrier .write]) ∧
      launchAll [] (push.chunkRange fuel base endChunk 0 ++ [.barrier .write]) = [] := by
  obtain ⟨safe, known⟩ : Safe [] (push.chunkRange fuel base endChunk 0) ∧ _ :=
    range_safe listed (List.forall_mem_nil (push.FromHalf _ 0)) fun _ => rfl
  rw [safe_append, launchAll_append]
  refine ⟨⟨safe, trivial⟩, ?_⟩
  apply List.eq_nil_iff_forall_not_mem.mpr
  intro copy member
  obtain ⟨listed, left⟩ := List.mem_filter.mp member
  simp [known copy listed] at left

/-! ## Groups -/

/-- A range without chunks. -/
theorem chunkRange_none {fuel base endChunk : Nat} (none : endChunk ≤ base) (batchIndex : Nat) :
    push.chunkRange fuel base endChunk batchIndex = [] := by
  cases fuel with
  | zero => rfl
  | succ fuel =>
    unfold chunkRange
    exact if_neg (Nat.not_lt.mpr none)

theorem batchIndexAfter_none {fuel base endChunk : Nat} (none : endChunk ≤ base)
    (batchIndex : Nat) : batchIndexAfter fuel base endChunk batchIndex = batchIndex := by
  cases fuel with
  | zero => rfl
  | succ fuel =>
    unfold batchIndexAfter
    exact if_neg (Nat.not_lt.mpr none)

/-- A range with chunks begins with a batch. -/
theorem chunkRange_some {base endChunk : Nat} (some : base < endChunk) (fuel batchIndex : Nat) :
    push.chunkRange (fuel + 1) base endChunk batchIndex =
      push.batch base endChunk batchIndex ++
        push.chunkRange fuel (base + movePushBatch) endChunk (batchIndex + 1) := by
  rw [chunkRange, if_pos some]

theorem batchIndexAfter_some {base endChunk : Nat} (some : base < endChunk)
    (fuel batchIndex : Nat) : batchIndexAfter (fuel + 1) base endChunk batchIndex =
      batchIndexAfter fuel (base + movePushBatch) endChunk (batchIndex + 1) := by
  rw [batchIndexAfter, if_pos some]

/-- More rounds than the range has batches change nothing. -/
theorem chunkRange_fuel {fuel more base endChunk batchIndex : Nat} (enough : endChunk - base ≤ fuel)
    (larger : fuel ≤ more) :
    push.chunkRange more base endChunk batchIndex =
      push.chunkRange fuel base endChunk batchIndex := by
  induction fuel generalizing more base batchIndex with
  | zero =>
    have none : endChunk ≤ base := by omega
    rw [chunkRange_none none, chunkRange_none none]
  | succ fuel inductionHypothesis =>
    obtain ⟨rest, rfl⟩ := Nat.exists_eq_add_of_le larger
    have shift : fuel + 1 + rest = fuel + rest + 1 := by omega
    have eight : movePushBatch = 8 := rfl
    by_cases some : base < endChunk
    · rw [shift, chunkRange_some some, chunkRange_some some,
        inductionHypothesis (by omega) (by omega)]
    · rw [chunkRange_none (Nat.not_lt.mp some), chunkRange_none (Nat.not_lt.mp some)]

theorem batchIndexAfter_fuel {fuel more base endChunk batchIndex : Nat}
    (enough : endChunk - base ≤ fuel) (larger : fuel ≤ more) :
    batchIndexAfter more base endChunk batchIndex =
      batchIndexAfter fuel base endChunk batchIndex := by
  induction fuel generalizing more base batchIndex with
  | zero =>
    have none : endChunk ≤ base := by omega
    rw [batchIndexAfter_none none, batchIndexAfter_none none]
  | succ fuel inductionHypothesis =>
    obtain ⟨rest, rfl⟩ := Nat.exists_eq_add_of_le larger
    have shift : fuel + 1 + rest = fuel + rest + 1 := by omega
    have eight : movePushBatch = 8 := rfl
    by_cases some : base < endChunk
    · rw [shift, batchIndexAfter_some some, batchIndexAfter_some some,
        inductionHypothesis (by omega) (by omega)]
    · rw [batchIndexAfter_none (Nat.not_lt.mp some), batchIndexAfter_none (Nat.not_lt.mp some)]

/-- A range whose first part is whole batches is the two parts after one another. -/
theorem chunkRange_split {fuel base middle endChunk batchIndex batches : Nat}
    (whole : middle = base + batches * movePushBatch) (ordered : middle ≤ endChunk)
    (enough : endChunk - base ≤ fuel) :
    push.chunkRange fuel base endChunk batchIndex =
      push.chunkRange fuel base middle batchIndex ++
        push.chunkRange fuel middle endChunk (batchIndexAfter fuel base middle batchIndex) := by
  have eight : movePushBatch = 8 := rfl
  induction batches generalizing fuel base batchIndex with
  | zero =>
    obtain rfl : middle = base := by omega
    rw [chunkRange_none le_rfl, batchIndexAfter_none le_rfl]
    rfl
  | succ batches inductionHypothesis =>
    have beyond : middle = base + movePushBatch + batches * movePushBatch := by
      rw [whole, Nat.succ_mul]
      omega
    have later : base + movePushBatch ≤ middle := by omega
    obtain ⟨fuel, rfl⟩ : ∃ less, fuel = less + 1 := Nat.exists_eq_succ_of_ne_zero (by omega)
    have first : push.batch base endChunk batchIndex = push.batch base middle batchIndex := by
      have far : min (endChunk - base) movePushBatch = movePushBatch := by omega
      have near : min (middle - base) movePushBatch = movePushBatch := by omega
      simp only [batch, far, near]
    rw [chunkRange_some (by omega), chunkRange_some (by omega), batchIndexAfter_some (by omega),
      first, inductionHypothesis beyond (by omega), List.append_assoc,
      chunkRange_fuel (by omega) (Nat.le_succ fuel)]

end Push

@[simp]
theorem commands_append (first second : List Stmt) :
    commands (first ++ second) = commands first ++ commands second := by
  induction first with
  | nil => rfl
  | cons stmt rest inductionHypothesis => cases stmt <;> simp [commands, inductionHypothesis]

@[simp]
theorem commands_run (program : List (Command Kind Place)) :
    commands (program.map .run) = program := by
  induction program with
  | nil => rfl
  | cons command rest inductionHypothesis => simp [commands, inductionHypothesis]

@[simp]
theorem gates_append (first second : List Stmt) :
    gates (first ++ second) = gates first + gates second := by
  induction first with
  | nil => simp [gates]
  | cons stmt rest inductionHypothesis =>
    cases stmt with
    | gate =>
      simp only [List.cons_append, gates, inductionHypothesis]
      omega
    | run command => simp only [List.cons_append, gates, inductionHypothesis]

@[simp]
theorem gates_run (program : List (Command Kind Place)) : gates (program.map .run) = 0 := by
  induction program with
  | nil => rfl
  | cons command rest inductionHypothesis => simpa [gates] using inductionHypothesis

namespace Push

variable {push : Push}

/-- A streamed prefix without groups. -/
theorem prefixGroups_none {fuel start : Nat} (none : push.tailBegin ≤ start) (batchIndex : Nat) :
    push.prefixGroups fuel start batchIndex = [] := by
  cases fuel with
  | zero => rfl
  | succ fuel =>
    unfold prefixGroups
    exact if_neg (Nat.not_lt.mpr none)

/-- The groups of a streamed prefix are those of one range, with a gate before each. -/
theorem prefixGroups_spec {fuel start batchIndex groups : Nat}
    (whole : push.tailBegin = start + groups * putStreamProgressChunks)
    (enough : push.tailBegin - start ≤ fuel) :
    commands (push.prefixGroups fuel start batchIndex) =
        push.chunkRange fuel start push.tailBegin batchIndex ∧
      gates (push.prefixGroups fuel start batchIndex) = groups := by
  have group : putStreamProgressChunks = 256 := rfl
  induction groups generalizing fuel start batchIndex with
  | zero =>
    have none : push.tailBegin ≤ start := by omega
    rw [prefixGroups_none none, chunkRange_none none]
    exact ⟨rfl, rfl⟩
  | succ groups inductionHypothesis =>
    have beyond : push.tailBegin =
        start + putStreamProgressChunks + groups * putStreamProgressChunks := by
      rw [whole, Nat.succ_mul]
      omega
    have later : start + putStreamProgressChunks ≤ push.tailBegin := by omega
    obtain ⟨fuel, rfl⟩ : ∃ less, fuel = less + 1 := Nat.exists_eq_succ_of_ne_zero (by omega)
    have stop : start + putStreamProgressChunks - start = putStreamProgressChunks := by omega
    have batches : start + putStreamProgressChunks = start + 32 * movePushBatch := by
      have eight : movePushBatch = 8 := rfl
      omega
    have unfolded : push.prefixGroups (fuel + 1) start batchIndex =
        .gate :: (push.chunkRange putStreamProgressChunks start (start + putStreamProgressChunks)
            batchIndex).map .run ++
          push.prefixGroups fuel (start + putStreamProgressChunks)
            (batchIndexAfter putStreamProgressChunks start (start + putStreamProgressChunks)
              batchIndex) := by
      rw [prefixGroups, if_pos (by omega)]
      simp only [stop]
    obtain ⟨copied, counted⟩ := @inductionHypothesis fuel (start + putStreamProgressChunks)
      (batchIndexAfter putStreamProgressChunks start (start + putStreamProgressChunks) batchIndex)
      beyond (by omega)
    have ahead : push.chunkRange (fuel + 1) start (start + putStreamProgressChunks) batchIndex =
        push.chunkRange putStreamProgressChunks start (start + putStreamProgressChunks)
          batchIndex := chunkRange_fuel (by omega) (by omega)
    have index : batchIndexAfter (fuel + 1) start (start + putStreamProgressChunks) batchIndex =
        batchIndexAfter putStreamProgressChunks start (start + putStreamProgressChunks)
          batchIndex := batchIndexAfter_fuel (by omega) (by omega)
    constructor
    · rw [unfolded, List.cons_append, commands, commands_append, commands_run, copied,
        chunkRange_split batches later enough, ahead, index]
      congr 1
      exact (chunkRange_fuel (by omega) (Nat.le_succ fuel)).symm
    · rw [unfolded, List.cons_append, gates, gates_append, gates_run, counted]
      omega

end Push

end KvCache.WriteThrough
