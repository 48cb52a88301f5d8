import KvCache.Transfer.GetStream
import Mathlib.Data.List.Nodup

/-!
# Placement of the value of a GET

The writes of a GET set the bytes of the output in the order of the value, byte after
byte, up to the next multiple of the fabric unit. The chunks tile the value, the cuts at
the pages tile every chunk, and every cut begins on the alignment of the pages; so the
rounding of a write is visible at the end of the value only, and there it stays inside the
page of the last byte. The cursor that serves pages of one chunk runs through the same
addresses.
-/

namespace KvCache.GetStream

open Layout Stretches
open ClientOps (toWord)

/-! ## Words -/

variable {totalValueLen index base : Nat}

/-- Chunks that exist begin before the end of the value. -/
theorem chunk_begins (exists' : index < chunkCountFor totalValueLen) :
    index * maxChunkValueBytes < totalValueLen := by
  unfold chunkCountFor maxChunkValueBytes at *
  split at exists' <;> omega

/-- Neither the position of a chunk nor what remains of the value wraps around. -/
theorem chunkLen_eq (short : totalValueLen < 2 ^ 32)
    (exists' : index < chunkCountFor totalValueLen) :
    toWord (index * maxChunkValueBytes) = index * maxChunkValueBytes ∧
      chunkLen totalValueLen index =
        min maxChunkValueBytes (totalValueLen - index * maxChunkValueBytes) := by
  have begins := chunk_begins exists'
  have word : toWord (index * maxChunkValueBytes) = index * maxChunkValueBytes :=
    Nat.mod_eq_of_lt (begins.trans short)
  constructor
  · exact word
  · have remaining : subWord totalValueLen (index * maxChunkValueBytes) =
        totalValueLen - index * maxChunkValueBytes := by
      rw [subWord]
      omega
    simp only [chunkLen, word, remaining]
    split <;> omega

/-! ## Slots of the circular buffer -/

/-- What the slot of a chunk holds once its batch is published: the chunk, rounded up to
the alignment of the banks. -/
def Staged (source : ValueSource) (totalValueLen base : Nat) (slots : ByteMemory) : Prop :=
  ∀ k < getValueCbReadBatch, base + k < chunkCountFor totalValueLen →
    ∀ offset < roundUp 32 (chunkLen totalValueLen (base + k)),
      slots (k * maxChunkValueBytes + offset) =
        source.byteAt ((base + k) * maxChunkValueBytes + offset)

theorem roundUp_chunkLen_le (short : totalValueLen < 2 ^ 32)
    (exists' : index < chunkCountFor totalValueLen) :
    roundUp 32 (chunkLen totalValueLen index) ≤ maxChunkValueBytes := by
  apply roundUp_le (by decide) (by decide)
  rw [(chunkLen_eq short exists').2]
  exact Nat.min_le_left _ _

/-- Reads of a batch fill one slot after the other. -/
theorem readBatch_staged {heap : Nat → ByteMemory} {baseUnit thisBatch k offset : Nat}
    (slots : ByteMemory) (short : totalValueLen < 2 ^ 32)
    (exists' : ∀ k < thisBatch, base + k < chunkCountFor totalValueLen) (chosen : k < thisBatch)
    (inside : offset < roundUp 32 (chunkLen totalValueLen (base + k))) :
    readBatch heap baseUnit totalValueLen base thisBatch slots
        (k * maxChunkValueBytes + offset) = heap (baseUnit + base + k) offset := by
  induction thisBatch with
  | zero => exact absurd chosen (Nat.not_lt_zero _)
  | succ count inductionHypothesis =>
    have fits := inside.trans_le (roundUp_chunkLen_le short (exists' k chosen))
    have step : readBatch heap baseUnit totalValueLen base (count + 1) slots =
        (readBatch heap baseUnit totalValueLen base count slots).write
          (count * maxChunkValueBytes) ((heap (baseUnit + base + count)).read 0
            (roundUp 32 (chunkLen totalValueLen (base + count)))) := by
      simp only [readBatch, List.range_succ, List.foldl_append, List.foldl_cons, List.foldl_nil]
    rw [step, ByteMemory.write_read_apply]
    rcases Nat.lt_succ_iff_lt_or_eq.mp chosen with before | rfl
    · have earlier : (k + 1) * maxChunkValueBytes ≤ count * maxChunkValueBytes :=
        Nat.mul_le_mul_right _ before
      rw [Nat.add_mul] at earlier
      rw [if_neg (by omega)]
      exact inductionHypothesis (fun k below => exists' k (below.trans (Nat.lt_succ_self _))) before
    · rw [if_pos (by omega)]
      congr 1
      omega

/-- A transfer from the window fills the slots with consecutive chunks. -/
theorem readHostBatch_staged {window : ByteMemory} {thisBatch k offset : Nat}
    (slots : ByteMemory) (short : totalValueLen < 2 ^ 32) (few : thisBatch ≤ getValueCbReadBatch)
    (exists' : base + k < chunkCountFor totalValueLen) (chosen : k < thisBatch)
    (inside : offset < roundUp 32 (chunkLen totalValueLen (base + k))) :
    readHostBatch window totalValueLen base thisBatch slots
        (k * maxChunkValueBytes + offset) =
      window ((base + k) * maxChunkValueBytes + offset) := by
  have begins := chunk_begins exists'
  have baseWord : toWord (base * maxChunkValueBytes) = base * maxChunkValueBytes := by
    apply Nat.mod_eq_of_lt
    rw [Nat.add_mul] at begins
    omega
  have spanWord : toWord (thisBatch * maxChunkValueBytes) = thisBatch * maxChunkValueBytes := by
    apply Nat.mod_eq_of_lt
    simp only [maxChunkValueBytes, getValueCbReadBatch] at few ⊢
    omega
  have left : subWord totalValueLen (base * maxChunkValueBytes) =
      totalValueLen - base * maxChunkValueBytes := by
    rw [Nat.add_mul] at begins
    rw [subWord]
    omega
  simp only [readHostBatch, baseWord, spanWord, left]
  have position : base * maxChunkValueBytes + (k * maxChunkValueBytes + offset - 0) =
      (base + k) * maxChunkValueBytes + offset := by
    rw [Nat.add_mul]
    omega
  rw [ByteMemory.write_read_apply, if_pos]
  · rw [position]
  · have slot : (k + 1) * maxChunkValueBytes ≤ thisBatch * maxChunkValueBytes :=
      Nat.mul_le_mul_right _ chosen
    rw [(chunkLen_eq short exists').2] at inside
    have aligned : 32 ∣ k * maxChunkValueBytes := Dvd.dvd.mul_left (by decide) k
    have covered : roundUp 32 (k * maxChunkValueBytes +
        min maxChunkValueBytes (totalValueLen - (base + k) * maxChunkValueBytes)) ≤
          roundUp 32 (if thisBatch * maxChunkValueBytes < totalValueLen - base * maxChunkValueBytes
            then thisBatch * maxChunkValueBytes else totalValueLen - base * maxChunkValueBytes) := by
      apply roundUp_le (by decide) (dvd_roundUp 32 _)
      apply le_trans _ (le_roundUp (by decide) _)
      rw [Nat.add_mul] at slot begins ⊢
      split <;> omega
    rw [roundUp_add (by decide) aligned] at covered
    constructor
    · exact Nat.zero_le _
    · rw [Nat.zero_add]
      exact (Nat.add_lt_add_left inside _).trans_le covered

/-- A published batch holds its chunks, whatever the slots held before. -/
theorem publishBatch_staged (source : ValueSource) (slots : ByteMemory)
    (short : totalValueLen < 2 ^ 32) :
    Staged source totalValueLen base
      (publishBatch source totalValueLen (chunkCountFor totalValueLen) base slots) := by
  intro k inBatch exists' offset inside
  have fits := inside.trans_le (roundUp_chunkLen_le short exists')
  have chosen : k < (if chunkCountFor totalValueLen - base < getValueCbReadBatch
      then chunkCountFor totalValueLen - base else getValueCbReadBatch) := by
    split <;> omega
  cases source with
  | device heap baseUnit =>
    have present : ∀ k < (if chunkCountFor totalValueLen - base < getValueCbReadBatch
        then chunkCountFor totalValueLen - base else getValueCbReadBatch),
        base + k < chunkCountFor totalValueLen := by
      intro k below
      split at below <;> omega
    have quotient : ((base + k) * maxChunkValueBytes + offset) / maxChunkValueBytes = base + k := by
      rw [Nat.mul_comm, Nat.mul_add_div maxChunkValueBytes_pos, Nat.div_eq_of_lt fits, Nat.add_zero]
    have rest : ((base + k) * maxChunkValueBytes + offset) % maxChunkValueBytes = offset := by
      rw [Nat.mul_comm, Nat.mul_add_mod, Nat.mod_eq_of_lt fits]
    rw [ValueSource.byteAt, quotient, rest, ← Nat.add_assoc]
    exact readBatch_staged slots short present chosen inside
  | host window =>
    apply readHostBatch_staged slots short _ exists' chosen inside
    split <;> omega

/-! ## Writes of a chunk -/

variable {pageSize capacity : Nat} {out : ClientOutput pageSize capacity} {source : ValueSource}
  {slots : ByteMemory}

/-- The write that a stretch of the value calls for. -/
def writeOf (out : ClientOutput pageSize capacity) (source : ValueSource) (stretch : Stretch) :
    DramWrite where
  nocAddr := clientDramPageNocAddr out (stretch.start / pageSize) (stretch.start % pageSize)
  data := (stretch.padded 16).positions.map source.byteAt

/-- The parts of a chunk, one for each page that it meets. -/
def chunkStretches (pageSize totalValueLen index : Nat) : List Stretch :=
  cutAtPages pageSize (chunkLen totalValueLen index) (index * maxChunkValueBytes)
    (chunkLen totalValueLen index)

/-- The splitting loop sends the cuts of the rest of the chunk. -/
theorem splitWrites_eq {srcL1 streamPos chunkValueLen fuel copied : Nat}
    (fits : streamPos + chunkValueLen < 2 ^ 32) :
    splitWrites out slots srcL1 streamPos chunkValueLen fuel copied =
      (cutAtPages pageSize fuel (streamPos + copied) (chunkValueLen - copied)).map
        fun stretch => ⟨clientDramPageNocAddr out (stretch.start / pageSize)
            (stretch.start % pageSize),
          slots.read (srcL1 + (stretch.start - streamPos)) (roundUp 16 stretch.length)⟩ := by
  induction fuel generalizing copied with
  | zero => rfl
  | succ fuel inductionHypothesis =>
    unfold splitWrites cutAtPages
    by_cases more : copied < chunkValueLen
    · have remains : chunkValueLen - copied ≠ 0 := by omega
      have absolute : toWord (streamPos + copied) = streamPos + copied :=
        Nat.mod_eq_of_lt (by omega)
      have shorter : ∀ first second : Nat,
          (if first < second then first else second) = min first second := by
        intro first second
        split <;> omega
      have offset : streamPos + copied - streamPos = copied := by omega
      rw [if_pos more, if_neg remains]
      simp only [absolute, shorter, List.map_cons, offset, inductionHypothesis,
        Nat.add_assoc, Nat.sub_sub]
    · have ends : chunkValueLen - copied = 0 := by omega
      rw [if_neg more, if_pos ends, List.map_nil]

/-- The parts of a chunk tile it. -/
theorem chunkStretches_tiles (paged : 0 < pageSize) (totalValueLen index : Nat) :
    Tiles (index * maxChunkValueBytes) (chunkStretches pageSize totalValueLen index)
      (index * maxChunkValueBytes + chunkLen totalValueLen index) :=
  cutAtPages_tiles paged le_rfl

/-- The parts of a chunk begin on the alignment of the pages. -/
theorem chunkStretches_aligned (paged : 0 < pageSize) (aligned : 32 ∣ pageSize)
    {stretch : Stretch} (member : stretch ∈ chunkStretches pageSize totalValueLen index) :
    32 ∣ stretch.start :=
  cutAtPages_aligned paged aligned (Dvd.dvd.mul_left (by decide) index) member

/-- Bytes of a staged chunk, read from its slot, are those of the value.

Proof: a part of the chunk begins on the alignment and ends inside the chunk, so that its
rounded length stays inside what was staged for the chunk. -/
theorem staged_read {k : Nat} (staged : Staged source totalValueLen base slots)
    (paged : 0 < pageSize) (aligned : 32 ∣ pageSize) (inBatch : k < getValueCbReadBatch)
    (exists' : base + k < chunkCountFor totalValueLen) {stretch : Stretch}
    (member : stretch ∈ chunkStretches pageSize totalValueLen (base + k)) :
    slots.read (k * maxChunkValueBytes + (stretch.start - (base + k) * maxChunkValueBytes))
        (roundUp 16 stretch.length) =
      (stretch.padded 16).positions.map source.byteAt := by
  obtain ⟨after, before⟩ := (chunkStretches_tiles paged totalValueLen (base + k)).bounds member
  have begins : 32 ∣ stretch.start - (base + k) * maxChunkValueBytes :=
    Nat.dvd_sub (chunkStretches_aligned paged aligned member) (Dvd.dvd.mul_left (by decide) _)
  have inside : stretch.start - (base + k) * maxChunkValueBytes + roundUp 16 stretch.length ≤
      roundUp 32 (chunkLen totalValueLen (base + k)) := by
    rw [← roundUp_add (by decide) (Dvd.dvd.trans (by decide) begins)]
    apply roundUp_le (by decide) (Dvd.dvd.trans (by decide) (dvd_roundUp 32 _))
    exact le_trans (by omega) (le_roundUp (by decide) _)
  rw [ByteMemory.read, Stretch.positions, List.range'_eq_map_range, List.map_map]
  apply List.map_congr_left
  intro offset listed
  have short : offset < roundUp 16 stretch.length := List.mem_range.mp listed
  have position : (base + k) * maxChunkValueBytes +
      (stretch.start - (base + k) * maxChunkValueBytes + offset) = stretch.start + offset := by
    omega
  rw [Nat.add_assoc, staged k inBatch exists' _ (by omega), position]
  rfl

/-! ## The cursor -/

/-- Where the cursor stands before the chunk of a given number. -/
def cursorAt (out : ClientOutput pageSize capacity) (index : Nat) : AddrCursor :=
  ⟨index % out.numBanks, index / out.numBanks * out.rowStride⟩

/-- A cursor in use stands before the next chunk. -/
def Tracks (out : ClientOutput pageSize capacity) (fastAddr : Bool) (cursor : AddrCursor)
    (index : Nat) : Prop :=
  fastAddr = true → cursor = cursorAt out index

/-- Advancing the cursor goes to the bank and the row of the next page. -/
theorem cursorAt_advance (index : Nat) :
    (cursorAt out index).advance out = cursorAt out (index + 1) := by
  have banked := out.banked
  have stride : addrRowStride out = out.rowStride := by
    simp [addrRowStride, clientDramPageNocAddr, Nat.div_self banked]
  have split := Nat.div_add_mod index out.numBanks
  have inside := Nat.mod_lt index banked
  unfold AddrCursor.advance cursorAt
  by_cases last : index % out.numBanks + 1 = out.numBanks
  · have next : index + 1 = out.numBanks * (index / out.numBanks + 1) := by
      rw [Nat.mul_add]
      omega
    rw [if_pos last, stride, next, Nat.mul_mod_right, Nat.mul_div_cancel_left _ banked,
      Nat.add_mul, Nat.one_mul]
  · have next : index + 1 = out.numBanks * (index / out.numBanks) + (index % out.numBanks + 1) := by
      omega
    have inRow : index % out.numBanks + 1 < out.numBanks := by omega
    have row : (index + 1) / out.numBanks = index / out.numBanks := by
      rw [next, Nat.mul_add_div banked, Nat.div_eq_of_lt inRow, Nat.add_zero]
    have bank : (index + 1) % out.numBanks = index % out.numBanks + 1 := by
      rw [next, Nat.mul_add_mod, Nat.mod_eq_of_lt inRow]
    rw [if_neg last, row, bank]

/-- A chunk is sent as the writes of its parts, and a cursor in use goes on to the next
chunk. The cursor is in use for pages of one chunk, where each chunk has one part.

Proof: the chunk of a given number is the page of that number, so the cursor's bank and
row are those of the page and its offset is zero. -/
theorem sendChunk_eq {fastAddr : Bool} {cursor : AddrCursor} {k : Nat}
    (chunked : fastAddr = true → pageSize = maxChunkValueBytes)
    (paged : 0 < pageSize) (aligned : 32 ∣ pageSize) (short : totalValueLen < 2 ^ 32)
    (staged : Staged source totalValueLen base slots) (inBatch : k < getValueCbReadBatch)
    (exists' : base + k < chunkCountFor totalValueLen)
    (tracks : Tracks out fastAddr cursor (base + k)) :
    let sent := sendChunkToDram out fastAddr cursor slots (k * maxChunkValueBytes) (base + k)
      (chunkLen totalValueLen (base + k))
    Tracks out fastAddr sent.1 (base + k + 1) ∧
      sent.2 = (chunkStretches pageSize totalValueLen (base + k)).map (writeOf out source) := by
  have begins := chunk_begins exists'
  obtain ⟨word, length⟩ := chunkLen_eq short exists'
  have positive := maxChunkValueBytes_pos
  cases fastAddr with
  | true =>
    obtain rfl : pageSize = maxChunkValueBytes := chunked rfl
    obtain rfl : cursor = cursorAt out (base + k) := tracks rfl
    have single : chunkStretches maxChunkValueBytes totalValueLen (base + k) =
        [⟨(base + k) * maxChunkValueBytes, chunkLen totalValueLen (base + k)⟩] := by
      apply cutAtPages_single (Nat.mul_mod_left _ _)
      · rw [length]
        exact Nat.pos_iff_ne_zero.mp (Nat.lt_min.mpr ⟨positive, Nat.sub_pos_of_lt begins⟩)
      · rw [length]
        exact Nat.min_le_left _ _
    constructor
    · intro _
      exact cursorAt_advance (base + k)
    · have listed : ⟨(base + k) * maxChunkValueBytes, chunkLen totalValueLen (base + k)⟩ ∈
          chunkStretches maxChunkValueBytes totalValueLen (base + k) := by
        rw [single]
        exact List.mem_singleton_self _
      have part := staged_read staged paged aligned inBatch exists' listed
      have page : (base + k) * maxChunkValueBytes / maxChunkValueBytes = base + k :=
        Nat.mul_div_cancel _ positive
      have bank : (base + k) % out.numBanks % out.numBanks = (base + k) % out.numBanks :=
        Nat.mod_mod _ _
      have row : (base + k) % out.numBanks / out.numBanks = 0 :=
        Nat.div_eq_of_lt (Nat.mod_lt _ out.banked)
      rw [Nat.sub_self, Nat.add_zero] at part
      rw [single]
      simp only [sendChunkToDram, if_true, List.map_cons, List.map_nil, fastWrite, writeOf,
        cursorAt, clientDramPageNocAddr, page, Nat.mul_mod_left, bank, row, part]
      simp
  | false =>
    constructor
    · intro impossible
      exact absurd impossible Bool.false_ne_true
    · simp only [sendChunkToDram, Bool.false_eq_true, if_false, word]
      rw [splitWrites_eq (by omega), Nat.add_zero, Nat.sub_zero]
      apply List.map_congr_left
      intro stretch member
      rw [writeOf, staged_read staged paged aligned inBatch exists' member]

/-! ## Batches -/

/-- The writes of chunks of the value. -/
def chunkWrites (out : ClientOutput pageSize capacity) (source : ValueSource)
    (totalValueLen : Nat) (indices : List Nat) : List DramWrite :=
  indices.flatMap fun index =>
    (chunkStretches pageSize totalValueLen index).map (writeOf out source)

/-- The chunks that exist among the next slots. -/
def existing (totalValueLen base count : Nat) : List Nat :=
  (List.range' base count).filter fun index => decide (index < chunkCountFor totalValueLen)

theorem existing_add (totalValueLen base first second : Nat) :
    existing totalValueLen base (first + second) =
      existing totalValueLen base first ++ existing totalValueLen (base + first) second := by
  rw [existing, ← List.range'_append_1, List.filter_append]
  rfl

/-- Enough slots take all chunks of the value. -/
theorem existing_all {count : Nat} (enough : chunkCountFor totalValueLen ≤ count) :
    existing totalValueLen 0 count = List.range (chunkCountFor totalValueLen) := by
  obtain ⟨padding, rfl⟩ := Nat.exists_eq_add_of_le enough
  have kept : existing totalValueLen 0 (chunkCountFor totalValueLen) =
      List.range (chunkCountFor totalValueLen) := by
    rw [existing, ← List.range_eq_range', List.filter_eq_self]
    intro index listed
    exact decide_eq_true (List.mem_range.mp listed)
  have dropped : existing totalValueLen (0 + chunkCountFor totalValueLen) padding = [] := by
    rw [existing, List.filter_eq_nil_iff]
    intro index listed
    have after := (List.mem_range'_1.mp listed).1
    simpa using after
  rw [existing_add, kept, dropped, List.append_nil]

/-- A batch is sent as its chunks that exist, in order. -/
theorem sendBatch_eq {fastAddr : Bool} {cursor : AddrCursor} {count k : Nat}
    (chunked : fastAddr = true → pageSize = maxChunkValueBytes)
    (paged : 0 < pageSize) (aligned : 32 ∣ pageSize) (short : totalValueLen < 2 ^ 32)
    (staged : Staged source totalValueLen base slots) (inBatch : k + count ≤ getValueCbReadBatch)
    (tracks : Tracks out fastAddr cursor (min (base + k) (chunkCountFor totalValueLen))) :
    let sent := sendBatch out fastAddr totalValueLen (chunkCountFor totalValueLen) base slots
      count k cursor
    Tracks out fastAddr sent.1 (min (base + k + count) (chunkCountFor totalValueLen)) ∧
      sent.2 = chunkWrites out source totalValueLen (existing totalValueLen (base + k) count) := by
  induction count generalizing k cursor with
  | zero => exact ⟨tracks, rfl⟩
  | succ count inductionHypothesis =>
    have split := existing_add totalValueLen (base + k) 1 count
    have assoc : base + (k + 1) + count = base + k + (count + 1) := by omega
    rw [Nat.add_comm 1 count] at split
    by_cases exists' : base + k < chunkCountFor totalValueLen
    · rw [Nat.min_eq_left exists'.le] at tracks
      obtain ⟨goesOn, writes⟩ := sendChunk_eq chunked paged aligned short staged (by omega)
        exists' tracks
      have position : min (base + (k + 1)) (chunkCountFor totalValueLen) = base + k + 1 := by omega
      rw [← position] at goesOn
      obtain ⟨ends, rest⟩ := inductionHypothesis (by omega) goesOn
      rw [assoc] at ends
      have first : existing totalValueLen (base + k) 1 = [base + k] := by
        simp [existing, exists']
      unfold sendBatch
      simp only [if_pos exists']
      constructor
      · exact ends
      · rw [writes, rest, split, first]
        simp only [chunkWrites, List.flatMap_append, List.flatMap_cons, List.flatMap_nil,
          List.append_nil, Nat.add_assoc]
    · have next : Tracks out fastAddr cursor
          (min (base + (k + 1)) (chunkCountFor totalValueLen)) := by
        rw [Nat.min_eq_right (by omega)] at tracks ⊢
        exact tracks
      obtain ⟨ends, rest⟩ := inductionHypothesis (by omega) next
      rw [assoc] at ends
      have first : existing totalValueLen (base + k) 1 = [] := by
        simp [existing, exists']
      unfold sendBatch
      simp only [if_neg exists']
      constructor
      · exact ends
      · rw [rest, split, first]
        simp only [List.nil_append, Nat.add_assoc]

/-- A stream sends a prefix of the chunks that exist, and all of them if it completes. -/
theorem drainBatches_eq {fastAddr : Bool} {cursor : AddrCursor} {batches : Nat}
    {received : Nat → Option ByteMemory} {admitted : Nat → Bool}
    (chunked : fastAddr = true → pageSize = maxChunkValueBytes)
    (paged : 0 < pageSize) (aligned : 32 ∣ pageSize) (short : totalValueLen < 2 ^ 32)
    (staged : ∀ base slots, received base = some slots → Staged source totalValueLen base slots)
    (tracks : Tracks out fastAddr cursor (min base (chunkCountFor totalValueLen))) :
    let drained := drainBatches out fastAddr totalValueLen (chunkCountFor totalValueLen) received
      admitted batches base cursor
    let whole := chunkWrites out source totalValueLen
      (existing totalValueLen base (batches * getValueCbReadBatch))
    drained.1 <+: whole ∧ (drained.2 = true → drained.1 = whole) := by
  induction batches generalizing base cursor with
  | zero =>
    rw [Nat.zero_mul]
    exact ⟨List.prefix_rfl, fun _ => rfl⟩
  | succ batches inductionHypothesis =>
    have split := existing_add totalValueLen base getValueCbReadBatch
      (batches * getValueCbReadBatch)
    rw [Nat.add_comm getValueCbReadBatch, ← Nat.succ_mul] at split
    have parts : chunkWrites out source totalValueLen
        (existing totalValueLen base ((batches + 1) * getValueCbReadBatch)) =
          chunkWrites out source totalValueLen (existing totalValueLen base getValueCbReadBatch) ++
          chunkWrites out source totalValueLen (existing totalValueLen (base + getValueCbReadBatch)
            (batches * getValueCbReadBatch)) := by
      rw [split, chunkWrites, List.flatMap_append]
      rfl
    dsimp only
    rw [parts]
    unfold drainBatches
    cases arrival : received base with
    | none => exact ⟨List.nil_prefix, fun impossible => absurd impossible Bool.false_ne_true⟩
    | some slots =>
      obtain ⟨goesOn, writes⟩ := sendBatch_eq (k := 0) chunked paged aligned short
        (staged base slots arrival) (Nat.zero_add _).le tracks
      rw [Nat.add_zero] at goesOn writes
      dsimp only
      by_cases admission : admitted base = true
      · obtain ⟨ahead, complete⟩ := inductionHypothesis goesOn
        rw [if_pos admission, writes]
        constructor
        · exact (List.prefix_append_right_inj _).mpr ahead
        · intro done
          exact congrArg _ (complete done)
      · rw [if_neg admission, writes]
        constructor
        · exact List.prefix_append _ _
        · intro impossible
          exact absurd impossible Bool.false_ne_true

/-- For pages of one chunk, both ways of addressing send the same writes. -/
theorem drainBatches_agree {cursor idle : AddrCursor} {batches : Nat}
    {received : Nat → Option ByteMemory} {admitted : Nat → Bool}
    (chunked : pageSize = maxChunkValueBytes) (short : totalValueLen < 2 ^ 32)
    (staged : ∀ base slots, received base = some slots → Staged source totalValueLen base slots)
    (tracks : Tracks out true cursor (min base (chunkCountFor totalValueLen))) :
    drainBatches out true totalValueLen (chunkCountFor totalValueLen) received admitted batches
        base cursor =
      drainBatches out false totalValueLen (chunkCountFor totalValueLen) received admitted batches
        base idle := by
  have paged : 0 < pageSize := chunked ▸ maxChunkValueBytes_pos
  have aligned : 32 ∣ pageSize := by
    rw [chunked]
    decide
  induction batches generalizing base cursor idle with
  | zero => rfl
  | succ batches inductionHypothesis =>
    unfold drainBatches
    cases arrival : received base with
    | none => rfl
    | some slots =>
      have unused : Tracks out false idle (min base (chunkCountFor totalValueLen)) := by
        intro impossible
        exact absurd impossible Bool.false_ne_true
      obtain ⟨goesOn, writes⟩ := sendBatch_eq (k := 0) (fun _ => chunked) paged aligned short
        (staged base slots arrival) (Nat.zero_add _).le tracks
      obtain ⟨_, splitWrites⟩ := sendBatch_eq (k := 0) (fun _ => chunked) paged aligned short
        (staged base slots arrival) (Nat.zero_add _).le unused
      rw [Nat.add_zero] at goesOn writes splitWrites
      dsimp only
      rw [writes, splitWrites, inductionHypothesis goesOn]

/-! ## Bytes of the output -/

/-- Different bytes of the pages of an output have different addresses.

Proof: rows of different banks do not meet, and in one bank the position determines the
row and the offset in it. -/
theorem noc_addr_injective {page other offset offset' : Nat} (known : page < out.rows * out.numBanks)
    (known' : other < out.rows * out.numBanks) (inside : offset < pageSize)
    (inside' : offset' < pageSize)
    (same : clientDramPageNocAddr out page offset = clientDramPageNocAddr out other offset') :
    page = other ∧ offset = offset' := by
  have banked := out.banked
  have wide := out.rowHolds
  have local' : ∀ page offset, page < out.rows * out.numBanks → offset < pageSize →
      page / out.numBanks * out.rowStride + offset < out.rows * out.rowStride := by
    intro page offset known inside
    have row : page / out.numBanks < out.rows := (Nat.div_lt_iff_lt_mul banked).mpr known
    have fits := Nat.mul_le_mul_right out.rowStride row
    rw [Nat.succ_mul] at fits
    omega
  unfold clientDramPageNocAddr at same
  rw [Nat.add_assoc, Nat.add_assoc] at same
  have bank := out.apart _ _ _ _ (Nat.mod_lt page banked) (Nat.mod_lt other banked)
    (local' page offset known inside) (local' other offset' known' inside') same
  rw [bank] at same
  have position := Nat.add_left_cancel same
  have row : page / out.numBanks = other / out.numBanks := by
    have quotient := congrArg (· / out.rowStride) position
    simpa only [Nat.mul_comm _ out.rowStride, Nat.mul_add_div (by omega : 0 < out.rowStride),
      Nat.div_eq_of_lt (inside.trans_le wide), Nat.div_eq_of_lt (inside'.trans_le wide),
      Nat.add_zero] using quotient
  constructor
  · rw [← Nat.div_add_mod page out.numBanks, ← Nat.div_add_mod other out.numBanks, row, bank]
  · rw [row] at position
    exact Nat.add_left_cancel position

/-- Where a byte of the value belongs, and the byte. -/
def place (out : ClientOutput pageSize capacity) (source : ValueSource) (position : Nat) :
    Nat × UInt8 :=
  (clientDramPageNocAddr out (position / pageSize) (position % pageSize), source.byteAt position)

/-- The write of a part of a page sets the bytes of its positions, in order. -/
theorem writeOf_touches {stretch : Stretch} (paged : 0 < pageSize)
    (inside : stretch.start % pageSize + roundUp 16 stretch.length ≤ pageSize) :
    (writeOf out source stretch).touches =
      (stretch.padded 16).positions.map (place out source) := by
  rw [DramWrite.touches, writeOf, Stretch.positions, List.range'_eq_map_range, List.map_map,
    List.map_map]
  apply List.ext_getElem
  · simp
  · intro offset shorter shorter'
    have short : offset < roundUp 16 stretch.length := by
      simpa [Stretch.padded] using shorter'
    have split := Nat.div_add_mod stretch.start pageSize
    have position : stretch.start + offset =
        pageSize * (stretch.start / pageSize) + (stretch.start % pageSize + offset) := by omega
    have inPage : stretch.start % pageSize + offset < pageSize :=
      (Nat.add_lt_add_left short _).trans_le inside
    have page : (stretch.start + offset) / pageSize = stretch.start / pageSize := by
      rw [position, Nat.mul_add_div paged, Nat.div_eq_of_lt inPage, Nat.add_zero]
    have rest : (stretch.start + offset) % pageSize = stretch.start % pageSize + offset := by
      rw [position, Nat.mul_add_mod, Nat.mod_eq_of_lt inPage]
    simp [place, page, rest, Stretch.padded, clientDramPageNocAddr, Nat.add_assoc]

/-- The parts of the first chunks tile the value as far as they go. -/
theorem value_tiles (paged : 0 < pageSize) (short : totalValueLen < 2 ^ 32) {count : Nat}
    (exist : count ≤ chunkCountFor totalValueLen) :
    Tiles 0 ((List.range count).flatMap (chunkStretches pageSize totalValueLen))
      (min (count * maxChunkValueBytes) totalValueLen) := by
  induction count with
  | zero => simp [Tiles]
  | succ count inductionHypothesis =>
    have begins := chunk_begins exist
    have before := inductionHypothesis (Nat.le_of_succ_le exist)
    have after := chunkStretches_tiles paged totalValueLen count
    rw [(chunkLen_eq short exist).2] at after
    rw [Nat.min_eq_left begins.le] at before
    have stop : count * maxChunkValueBytes +
        min maxChunkValueBytes (totalValueLen - count * maxChunkValueBytes) =
          min ((count + 1) * maxChunkValueBytes) totalValueLen := by
      rw [Nat.succ_mul]
      omega
    rw [stop] at after
    rw [List.range_succ, List.flatMap_append, List.flatMap_singleton]
    exact before.append after

/-- The writes of all chunks set the bytes of the value in order, up to the next multiple
of the fabric unit. -/
theorem chunkWrites_touches (paged : 0 < pageSize) (aligned : 32 ∣ pageSize)
    (short : totalValueLen < 2 ^ 32) :
    (chunkWrites out source totalValueLen
        (List.range (chunkCountFor totalValueLen))).flatMap DramWrite.touches =
      (List.range (roundUp 16 totalValueLen)).map (place out source) := by
  have holds := le_chunkCountFor_mul totalValueLen
  have tiles : Tiles 0 ((List.range (chunkCountFor totalValueLen)).flatMap
      (chunkStretches pageSize totalValueLen)) totalValueLen := by
    have covered := value_tiles paged short le_rfl
    rwa [Nat.min_eq_right holds] at covered
  have starts : ∀ stretch ∈ (List.range (chunkCountFor totalValueLen)).flatMap
      (chunkStretches pageSize totalValueLen), 32 ∣ stretch.start ∧
        stretch.start % pageSize + stretch.length ≤ pageSize := by
    intro stretch member
    obtain ⟨index, _, part⟩ := List.mem_flatMap.mp member
    exact ⟨chunkStretches_aligned paged aligned part, cutAtPages_inside paged part⟩
  have positions := (tiles.padded (by decide : 0 < 16) (Nat.dvd_zero 16)
    fun stretch member => Dvd.dvd.trans (by decide) (starts stretch member).1).positions_eq
  rw [Nat.sub_zero, ← List.range_eq_range'] at positions
  rw [← positions, chunkWrites, ← List.map_flatMap, List.flatMap_map, List.flatMap_map,
    List.map_flatMap]
  apply List.flatMap_congr
  intro stretch member
  obtain ⟨begins, inside⟩ := starts stretch member
  apply writeOf_touches paged
  have offset : 16 ∣ stretch.start % pageSize :=
    (Nat.dvd_mod_iff (Dvd.dvd.trans (by decide) aligned)).mpr (Dvd.dvd.trans (by decide) begins)
  rw [← roundUp_add (by decide) offset]
  exact roundUp_le (by decide) (Dvd.dvd.trans (by decide) aligned) inside

/-! ## The stream -/

/-- Every batch that the network processor takes holds its chunks. -/
theorem received_staged (serving : Serving) (stored : 0 < serving.totalValueLen)
    (short : serving.totalValueLen < 2 ^ 32) {base : Nat} {slots : ByteMemory}
    (arrival : serving.received capacity base = some slots) :
    Staged serving.source serving.totalValueLen base slots := by
  unfold Serving.received at arrival
  split at arrival
  · have chunks : (serving.answer capacity).numChunks = chunkCountFor serving.totalValueLen := by
      simp [Serving.answer, lookupResponse, stored]
    rw [chunks] at arrival
    exact Option.some.inj arrival ▸ publishBatch_staged serving.source (serving.before base) short
  · exact absurd arrival (Option.some_ne_none _).symm

/-- The stream of a value that fits the output sends a prefix of its chunks, and all of
them if it completes, whichever way pages are addressed. -/
theorem streamWith_eq {fastAddr : Bool} (serving : Serving)
    (chunked : fastAddr = true → pageSize = maxChunkValueBytes)
    (paged : 0 < pageSize) (aligned : 32 ∣ pageSize) (short : serving.totalValueLen < 2 ^ 32)
    (fits : serving.totalValueLen ≤ capacity) :
    let run := streamWith out fastAddr (serving.answer capacity) (serving.received capacity)
      serving.admitted
    let whole := chunkWrites out serving.source serving.totalValueLen
      (List.range (chunkCountFor serving.totalValueLen))
    run.1 <+: whole ∧ (run.2 = true → run.1 = whole) := by
  have tooShort : ¬ capacity < serving.totalValueLen := Nat.not_lt.mpr fits
  rcases Nat.eq_zero_or_pos serving.totalValueLen with empty | stored
  · have nothing : chunkCountFor serving.totalValueLen = 0 := by rw [empty]; rfl
    have unsent : streamWith out fastAddr (serving.answer capacity) (serving.received capacity)
        serving.admitted = ([], true) := by
      simp [streamWith, Serving.answer, lookupResponse, empty]
    rw [unsent, nothing]
    exact ⟨List.prefix_rfl, fun _ => rfl⟩
  · have sent : streamWith out fastAddr (serving.answer capacity) (serving.received capacity)
        serving.admitted = drainBatches out fastAddr serving.totalValueLen
          (chunkCountFor serving.totalValueLen) (serving.received capacity) serving.admitted
          ((chunkCountFor serving.totalValueLen + getValueCbReadBatch - 1) / getValueCbReadBatch)
          0 ⟨0, 0⟩ := by
      simp [streamWith, Serving.answer, lookupResponse, tooShort, stored, getStatusFound,
        getStatusOutputTooSmall]
    have tracks : Tracks out fastAddr ⟨0, 0⟩
        (min 0 (chunkCountFor serving.totalValueLen)) := by
      intro _
      simp [cursorAt]
    have enough : chunkCountFor serving.totalValueLen ≤
        (chunkCountFor serving.totalValueLen + getValueCbReadBatch - 1) / getValueCbReadBatch *
          getValueCbReadBatch := le_roundUp (by decide : 0 < getValueCbReadBatch) _
    rw [sent, ← existing_all enough]
    exact drainBatches_eq chunked paged aligned short
      (fun _ _ arrival => received_staged serving stored short arrival) tracks

/-- What rounding adds to a value stays in the page of its last byte. -/
theorem padding_page (paged : 0 < pageSize) (aligned : 32 ∣ pageSize) {padding : Nat} (after : totalValueLen ≤ padding)
    (before : padding < roundUp 16 totalValueLen) :
    padding / pageSize = (totalValueLen - 1) / pageSize := by
  have stored : 0 < totalValueLen := by
    apply Nat.pos_of_ne_zero
    rintro rfl
    exact absurd before (Nat.not_lt_zero _)
  have last := Nat.lt_div_mul_add paged (a := totalValueLen - 1)
  have rounded : roundUp 16 totalValueLen ≤ ((totalValueLen - 1) / pageSize + 1) * pageSize := by
    apply roundUp_le (by decide) (Dvd.dvd.mul_left (Dvd.dvd.trans (by decide) aligned) _)
    rw [Nat.succ_mul]
    omega
  have first := Nat.div_mul_le_self (totalValueLen - 1) pageSize
  exact Nat.div_eq_of_lt_le (by omega) (before.trans_le rounded)

/-- Different positions of a value that fits belong at different addresses.

Proof: all positions up to the rounded end lie on pages of the output. -/
theorem place_injective (paged : 0 < pageSize) (aligned : 32 ∣ pageSize)
    (fits : totalValueLen ≤ capacity) {position other : Nat}
    (inside : position < roundUp 16 totalValueLen) (inside' : other < roundUp 16 totalValueLen)
    (same : (place out source position).1 = (place out source other).1) : position = other := by
  have known : ∀ position < roundUp 16 totalValueLen,
      position / pageSize < out.rows * out.numBanks := by
    intro position inside
    have holds := fits.trans out.holds
    rcases Nat.lt_or_ge position totalValueLen with value | padding
    · exact (Nat.div_lt_iff_lt_mul paged).mpr (value.trans_le holds)
    · have stored : 0 < totalValueLen := by
        apply Nat.pos_of_ne_zero
        rintro rfl
        exact absurd inside (Nat.not_lt_zero _)
      rw [padding_page paged aligned padding inside]
      exact (Nat.div_lt_iff_lt_mul paged).mpr (by omega)
  obtain ⟨page, offset⟩ := noc_addr_injective (known _ inside) (known _ inside')
    (Nat.mod_lt _ paged) (Nat.mod_lt _ paged) same
  rw [← Nat.div_add_mod position pageSize, ← Nat.div_add_mod other pageSize, page, offset]

/-- At the place of a byte of the value, the byte is written once. -/
theorem written_once (paged : 0 < pageSize) (aligned : 32 ∣ pageSize)
    (fits : totalValueLen ≤ capacity) {position : Nat} (value : position < totalValueLen) :
    ((List.range (roundUp 16 totalValueLen)).map (place out source)).filter
        (fun touch => touch.1 = (place out source position).1) = [place out source position] := by
  have rounded := value.trans_le (le_roundUp (by decide : 0 < 16) totalValueLen)
  have only : (List.range (roundUp 16 totalValueLen)).filter
      ((fun touch => decide (touch.1 = (place out source position).1)) ∘ place out source) =
        (List.range (roundUp 16 totalValueLen)).filter (fun other => decide (other = position)) := by
    apply List.filter_congr
    intro other listed
    apply decide_eq_decide.mpr
    constructor
    · exact place_injective paged aligned fits (List.mem_range.mp listed) rounded
    · intro same
      rw [same]
  rw [List.filter_map, only, List.filter_eq,
    List.count_eq_one_of_mem List.nodup_range (List.mem_range.mpr rounded)]
  rfl

/-- What the checks of the client say about an output. -/
theorem checked_output {tensor : ClientOps.Tensor} {clientSubmesh maxGetChunks numChunks : Nat}
    {op : String} (valid : ClientOps.validateTensorLayout tensor clientSubmesh op = .ok ())
    (geometry : ClientOps.outputGeometry tensor maxGetChunks op =
      .ok (capacity, pageSize, numChunks)) :
    0 < pageSize ∧ 32 ∣ pageSize ∧ capacity < 2 ^ 32 := by
  have aligned : tensor.pageSizeBytes % 32 = 0 := by
    by_contra unaligned
    unfold ClientOps.validateTensorLayout at valid
    simp only [if_pos unaligned] at valid
    repeat' split at valid
    all_goals cases valid
  unfold ClientOps.outputGeometry at geometry
  simp only at geometry
  split at geometry
  · cases geometry
  split at geometry
  · cases geometry
  · next bounded =>
    split at geometry
    · cases geometry
    · next paged =>
      split at geometry
      · cases geometry
      · cases geometry
        have limit : ClientOps.maxChunkAlignedValueBytes < 2 ^ 32 := by decide
        refine ⟨Nat.pos_of_ne_zero paged, ?_, by omega⟩
        rw [toWord]
        omega

/-- A GET puts every byte of a stored value at its page and offset of the output, once.

For every tensor that passes the checks of the client, every value and every way its
stream is fed: a value longer than the output is not sent at all. Of a value that fits,
the bytes are set in the order of the value, each at its place, up to the next multiple of
the fabric unit; a stream that is given up set a prefix of them, and a completed one all.
What is written at the place of a byte of the value is that byte, once. The bytes set
after the value are in the page of its last byte, at places of no byte of the value. For
pages of one chunk the cursor yields the writes that the splitting yields.

Proof: both ways of addressing send the parts of the chunks, which tile the value and
begin on the alignment of the pages; rounding therefore changes the last part only. -/
theorem get_stream_places_value {tensor : ClientOps.Tensor} {clientSubmesh maxGetChunks : Nat}
    {numChunks : Nat} {op : String}
    (valid : ClientOps.validateTensorLayout tensor clientSubmesh op = .ok ())
    (geometry : ClientOps.outputGeometry tensor maxGetChunks op =
      .ok (capacity, pageSize, numChunks))
    (out : ClientOutput pageSize capacity) (serving : Serving) :
    let run := serveGet out serving
    let touched := run.1.flatMap DramWrite.touches
    let bytes := (List.range (roundUp 16 serving.totalValueLen)).map (place out serving.source)
    (capacity < serving.totalValueLen → run.1 = []) ∧
    (serving.totalValueLen ≤ capacity →
      touched <+: bytes ∧
      (run.2 = true → touched = bytes ∧
        ∀ position < serving.totalValueLen,
          touched.filter (fun touch => touch.1 = clientDramPageNocAddr out (position / pageSize)
              (position % pageSize)) = [place out serving.source position]) ∧
      ∀ padding, serving.totalValueLen ≤ padding →
        padding < roundUp 16 serving.totalValueLen →
        padding / pageSize = (serving.totalValueLen - 1) / pageSize ∧
        ∀ position < serving.totalValueLen,
          (place out serving.source padding).1 ≠ (place out serving.source position).1) ∧
    (pageSize = maxChunkValueBytes → run = serveGetSplit out serving) := by
  obtain ⟨paged, aligned, bounded⟩ := checked_output valid geometry
  dsimp only
  refine ⟨?_, ?_, ?_⟩
  · intro longer
    simp [serveGet, handleGetStream, streamWith, Serving.answer, lookupResponse, longer,
      getStatusFound, getStatusOutputTooSmall]
  · intro fits
    have short : serving.totalValueLen < 2 ^ 32 := fits.trans_lt bounded
    have chunked : decide (pageSize = maxChunkValueBytes) = true → pageSize = maxChunkValueBytes :=
      of_decide_eq_true
    obtain ⟨ahead, complete⟩ : (serveGet out serving).1 <+: _ ∧ _ :=
      streamWith_eq serving chunked paged aligned short fits
    have bytes : (chunkWrites out serving.source serving.totalValueLen
        (List.range (chunkCountFor serving.totalValueLen))).flatMap DramWrite.touches =
          (List.range (roundUp 16 serving.totalValueLen)).map (place out serving.source) :=
      chunkWrites_touches paged aligned short
    refine ⟨?_, ?_, ?_⟩
    · rw [← bytes]
      obtain ⟨unsent, parts⟩ := ahead
      exact ⟨unsent.flatMap DramWrite.touches, by rw [← parts, List.flatMap_append]⟩
    · intro done
      have touched : (serveGet out serving).1.flatMap DramWrite.touches = _ :=
        (congrArg _ (complete done)).trans bytes
      constructor
      · exact touched
      · intro position value
        rw [touched]
        exact written_once paged aligned fits value
    · intro padding after before
      constructor
      · exact padding_page paged aligned after before
      · intro position value same
        have rounded := value.trans_le (le_roundUp (by decide : 0 < 16) serving.totalValueLen)
        have equal := place_injective paged aligned fits before rounded same
        omega
  · intro chunked
    have fast : decide (pageSize = maxChunkValueBytes) = true := decide_eq_true chunked
    unfold serveGet handleGetStream serveGetSplit streamWith
    rw [fast]
    by_cases sends : (serving.answer capacity).found &&& getStatusFound ≠ 0 ∧
        (serving.answer capacity).found &&& getStatusOutputTooSmall = 0 ∧
          0 < (serving.answer capacity).totalValueLen
    · have stored : 0 < serving.totalValueLen := sends.2.2
      have fits : serving.totalValueLen ≤ capacity := by
        by_contra longer
        have flagged := sends.2.1
        simp [Serving.answer, lookupResponse, Nat.lt_of_not_le longer, getStatusFound,
          getStatusOutputTooSmall] at flagged
      have chunks : (serving.answer capacity).numChunks = chunkCountFor serving.totalValueLen := by
        simp [Serving.answer, lookupResponse, stored]
      have short : serving.totalValueLen < 2 ^ 32 := fits.trans_lt bounded
      simp only [if_pos sends]
      rw [chunks]
      apply drainBatches_agree chunked short
      · intro base slots arrival
        exact received_staged serving stored short arrival
      · intro _
        simp [cursorAt]
    · simp only [if_neg sends]

/-- An output of two pages of 64 bytes, one in each of two banks. -/
def twoPages : ClientOutput 64 128 where
  numBanks := 2
  bankNoc bank := bank * 2 ^ 36
  rowStride := 64
  rows := 1
  banked := Nat.two_pos
  holds := by decide
  rowHolds := by decide
  apart := by
    intro bank other position position' _ _ inside inside' same
    omega

/-- A value of 70 bytes in the window, whose bytes are their positions. -/
def seventyBytes : Serving where
  source := .host fun position => position.toUInt8
  totalValueLen := 70
  before _ _ := 0
  arrives _ := true
  admitted _ := true

/-- A tensor whose pages are those of the output. -/
def twoPageTensor : ClientOps.Tensor where
  onDevice := true
  isAllocated := true
  device := 0
  bufferType := ClientOps.bufferTypeDram
  memoryLayout := ClientOps.memoryLayoutInterleaved
  rank := 2
  pageSizeBytes := 64
  packedBufferSizeBytes := 128
  bufferAddress := 4096
  buffer := 1

/-- The value reaches into the second page; its last byte is there once. -/
theorem seventy_bytes_are_placed :
    (serveGet twoPages seventyBytes).2 = true ∧
      ((serveGet twoPages seventyBytes).1.flatMap DramWrite.touches).filter
        (fun touch => touch.1 = 2 ^ 36 + 5) = [(2 ^ 36 + 5, 69)] := by
  have completed : (serveGet twoPages seventyBytes).2 = true := by decide
  have valid : ClientOps.validateTensorLayout twoPageTensor 0 "get" = .ok () := by decide
  have geometry : ClientOps.outputGeometry twoPageTensor 1 "get" = .ok (128, 64, 1) := by decide
  have placed := get_stream_places_value valid geometry twoPages seventyBytes
  exact ⟨completed, ((placed.2.1 (by decide)).2.1 completed).2 69 (by decide)⟩

end KvCache.GetStream
