import KvCache.Lmcache.RawWire

/-!
# When a reader's estimate is enough

In the process that stored a chunk the reader always has room: it remembers the largest value
stored. Another process has only its estimate, which takes the configured number of heads and
two bytes for each of their numbers. Where a chip repeats heads of another, or where the chunk
is shorter than the blocks that hold it, the stored value can be larger, and is then refused.
-/

namespace KvCache.Lmcache.RawWire

open WordBytes EqualBlocks

/-! ## Geometry -/

/-- The bytes of a buffer: keys and values of the blocks of some slots, on all chips. -/
def bufferBytes (k0 : Handle) (tpSize numSlots : Nat) : Nat :=
  2 * ((numSlots + k0.block - 1) / k0.block *
    (k0.headsPerDev * (k0.block / 32) * (k0.headDim / 32) * 1088 * tpSize))

/-- The tokens of a chunk, as configured. -/
def Spec.chunk (spec : Spec) : Nat :=
  if spec.chunkSize.getD 0 ≠ 0 then spec.chunkSize.getD 0 else spec.blockSize.getD 0

/-- The whole geometry is configured. -/
def Spec.Configured (spec : Spec) : Prop :=
  spec.numLayers.getD 0 ≠ 0 ∧ spec.chunk ≠ 0 ∧ spec.numKvHeads.getD 0 ≠ 0 ∧
    spec.headSize.getD 0 ≠ 0

/-- The words of the header are positive. -/
def Words (numLayers size : Nat) : Prop :=
  numLayers < 0x80000000 ∧ (numLayers = 0 ∨ size < 0x80000000)

/-- Header and buffers of a chunk fit into the pages for the configured geometry. -/
def Room (spec : Spec) (numLayers size : Nat) : Prop :=
  4 * (2 + numLayers) + numLayers * size ≤
    (4 * (2 + spec.numLayers.getD 0) + spec.numLayers.getD 0 *
      (2 * spec.chunk * spec.numKvHeads.getD 0 * spec.headSize.getD 0 * 2) + 32767) / 32768 * 32768

theorem maybeBuild_eq_some {deployment : Deployment} {codec : Codec}
    (built : maybeBuild deployment = some codec) : ∃ k0, deployment.k0 = some k0 ∧
      codec.tpSize = deployment.tpSize ∧ codec.blockSize = k0.block ∧ 0 < codec.blockSize ∧
      codec.shardBlockBytes = k0.headsPerDev * (k0.block / 32) * (k0.headDim / 32) * 1088 := by
  rw [maybeBuild] at built
  split at built
  · cases built
  split at built
  · cases built
  split at built
  · cases built
  split at built
  · cases built
  · next named =>
    split at built
    · cases built
    split at built
    · cases built
    · next k0 handle =>
      split at built
      · cases built
      split at built
      · cases built
      · next same =>
        split at built
        · cases built
        · cases built
          rw [not_or] at named
          rw [not_not] at same
          exact ⟨k0, handle, rfl, same.symm, Nat.pos_of_ne_zero named.1, rfl⟩

/-- A gather's buffers. -/
theorem gatherChunk_eq_ok {codec : Codec} {found : Nat → Nat → UInt8} {numLayers : Nat}
    {slots : List Int} {bufs : List (Nat × Bytes)}
    (gathered : codec.gatherChunk found numLayers slots = .ok bufs) : ∃ parts : List Bytes,
      bufs = parts.mapIdx Prod.mk ∧ parts.length = numLayers ∧
      ∀ part ∈ parts, part.length = 2 * codec.alloc slots.length := by
  rw [Codec.gatherChunk] at gathered
  cases checked : codec.chunkSlots slots with
  | error error =>
    rw [checked] at gathered
    cases gathered
  | ok kept =>
    have same : kept = slots := by
      unfold Codec.chunkSlots at checked
      split at checked
      · cases checked
      · split at checked
        · cases checked
        · split at checked
          · cases checked
          · exact (Except.ok.inj checked).symm
    rw [checked] at gathered
    cases gathered
    subst same
    refine ⟨(List.range numLayers).map fun layer =>
      (List.range (2 * codec.alloc kept.length)).map (found layer), ?_, by simp, ?_⟩
    · refine List.ext_getElem (by simp) fun layer _ _ => by simp
    · intro part member
      obtain ⟨layer, _, rfl⟩ := List.mem_map.mp member
      simp

/-! ## Storing -/

section Store

variable (rawWireKey : String → String)

/-- A client that has stored nothing. -/
def Spec.fresh (spec : Spec) : Client := ⟨spec, 0⟩

/-- The header of buffers. -/
def headerOf (parts : List Bytes) : Bytes :=
  ([rawWireMagic, parts.length] ++ parts.map List.length).flatMap wordBytes

theorem headerOf_length (parts : List Bytes) : (headerOf parts).length = 8 + 4 * parts.length := by
  rw [headerOf, words_length, List.length_append, List.length_map]
  simp only [List.length_cons, List.length_nil]
  omega

/-- What is stored for buffers. -/
def valueOf (parts : List Bytes) : Bytes := headerOf parts ++ parts.flatten

/-- Every word of the header is positive. -/
def Positive (parts : List Bytes) : Prop :=
  parts.length < 0x80000000 ∧ ∀ part ∈ parts, part.length < 0x80000000

theorem sorted_mapIdx (parts : List Bytes) :
    (parts.mapIdx Prod.mk).insertionSort (fun one other => one.1 ≤ other.1) =
      parts.mapIdx Prod.mk := by
  refine List.Pairwise.insertionSort_eq (List.pairwise_iff_getElem.mpr ?_)
  intro first second _ _ ordered
  simp only [List.getElem_mapIdx]
  exact Nat.le_of_lt ordered

theorem int32_eq_ok {parts : List Bytes} (positive : Positive parts) :
    int32 ([rawWireMagic, parts.length] ++ parts.map List.length) = .ok (headerOf parts) := by
  refine if_pos fun word member => ?_
  rcases List.mem_append.mp member with front | size
  · simp only [List.mem_cons, List.not_mem_nil, or_false] at front
    rcases front with rfl | rfl
    · decide
    · exact positive.1
  · obtain ⟨part, inside, rfl⟩ := List.mem_map.mp size
    exact positive.2 part inside

theorem int32_refuses {parts : List Bytes} (negative : ¬ Positive parts) :
    int32 ([rawWireMagic, parts.length] ++ parts.map List.length) = .error .wordOverflow := by
  refine if_neg fun small => negative ⟨?_, fun part inside => ?_⟩
  · exact small _ (List.mem_append_left _ (.tail _ List.mem_cons_self))
  · exact small _ (List.mem_append_right _ (List.mem_map_of_mem inside))

theorem map_snd_mapIdx (parts : List Bytes) : (parts.mapIdx Prod.mk).map (·.2) = parts := by
  exact List.ext_getElem (by simp) fun _ _ _ => by simp

theorem putChunkRawWire_eq (client : Client) (wire : Wire) (key : String) {parts : List Bytes}
    (positive : Positive parts) : ∃ stored, stored.spec = client.spec ∧
      8 < stored.rawWireSeenMax ∧ (valueOf parts).length ≤ stored.rawWireSeenMax ∧
      putChunkRawWire rawWireKey client wire key (parts.mapIdx Prod.mk) =
        .ok (stored, wire.put (rawWireKey key) (valueOf parts)) := by
  refine ⟨⟨client.spec, max client.rawWireSeenMax (valueOf parts ++ List.replicate
    (padding page (valueOf parts).length) 0).length⟩, rfl, ?_, ?_, ?_⟩
  · refine Nat.lt_of_lt_of_le ?_ (Nat.le_max_right _ _)
    have header : 8 ≤ (valueOf parts).length := by
      rw [valueOf, List.length_append, headerOf_length]
      omega
    rw [List.length_append, List.length_replicate, padding, page]
    omega
  · rw [List.length_append]
    exact Nat.le_trans (Nat.le_add_right _ _) (Nat.le_max_right _ _)
  · rw [putChunkRawWire, sorted_mapIdx, map_snd_mapIdx, int32_eq_ok positive]
    change Except.ok _ = _
    rw [← valueOf, List.take_left]

theorem putChunkRawWire_refuses (client : Client) (wire : Wire) (key : String) {parts : List Bytes}
    (negative : ¬ Positive parts) :
    putChunkRawWire rawWireKey client wire key (parts.mapIdx Prod.mk) = .error .wordOverflow := by
  rw [putChunkRawWire, sorted_mapIdx, map_snd_mapIdx, int32_refuses negative]
  rfl

/-! ## Reading -/

theorem get_put {wire : Wire} {key : String} {value out : Bytes}
    (room : value.length ≤ out.length) :
    (wire.put key value).get key out = .ok (some (overwrite value out)) := by
  rw [Wire.get, Wire.put, if_pos rfl]
  exact if_neg (Nat.not_lt.mpr room)

theorem get_put_exceeds {wire : Wire} {key : String} {value out : Bytes}
    (exceeds : out.length < value.length) :
    (wire.put key value).get key out = .error .valueTooLarge := by
  rw [Wire.get, Wire.put, if_pos rfl]
  exact if_pos exceeds

/-- The buffers behind a header come back, whatever follows. -/
theorem parse_valueOf {parts : List Bytes} (positive : Positive parts) (rest : Bytes) :
    readWord (valueOf parts ++ rest) = rawWireMagic ∧
      readWord ((valueOf parts ++ rest).drop 4) = parts.length ∧
      readWords parts.length ((valueOf parts ++ rest).drop 8) = parts.map List.length ∧
      slices (valueOf parts ++ rest) (8 + 4 * parts.length) (parts.map List.length) = parts := by
  have spelled : valueOf parts ++ rest = wordBytes rawWireMagic ++ (wordBytes parts.length ++
      ((parts.map List.length).flatMap wordBytes ++ (parts.flatten ++ rest))) := by
    simp [valueOf, headerOf]
  have count : parts.length < 0x100000000 := Nat.lt_trans positive.1 (by decide)
  have sizes : ∀ size ∈ parts.map List.length, size < 0x100000000 := by
    intro size member
    obtain ⟨part, inside, rfl⟩ := List.mem_map.mp member
    exact Nat.lt_trans (positive.2 part inside) (by decide)
  refine ⟨?_, ?_, ?_, ?_⟩
  · rw [spelled, readWord_wordBytes (by decide)]
  · rw [spelled, List.drop_left' (wordBytes_length _), readWord_wordBytes count]
  · rw [spelled, ← List.append_assoc (wordBytes _), List.drop_left' (by simp)]
    have read := readWords_words sizes (parts.flatten ++ rest)
    rwa [List.length_map] at read
  · rw [valueOf, List.append_assoc, ← headerOf_length]
    exact slices_flatten (headerOf parts) rest parts

/-- A reader with room reads the buffers back. -/
theorem getChunkRawWire_stored {reader : Client} (wire : Wire) (key : String) {parts : List Bytes}
    (positive : Positive parts) (some_ : 8 < reader.rawWireUpperBoundBytes)
    (room : (valueOf parts).length ≤ reader.allocation) :
    getChunkRawWire rawWireKey reader (wire.put (rawWireKey key) (valueOf parts)) key =
      .ok (some (parts.mapIdx Prod.mk)) := by
  have output : (valueOf parts).length ≤ (List.replicate reader.allocation (0 : UInt8)).length := by
    rwa [List.length_replicate]
  obtain ⟨magic, count, sizes, buffers⟩ := parse_valueOf positive
    ((List.replicate reader.allocation (0 : UInt8)).drop (valueOf parts).length)
  rw [← overwrite] at magic count sizes buffers
  rw [getChunkRawWire, if_neg (Nat.not_le.mpr some_), get_put output]
  simp only [bind, Except.bind, magic, count, sizes, buffers]
  rfl

/-- A reader without room is refused. -/
theorem getChunkRawWire_exceeds {reader : Client} (wire : Wire) (key : String) {value : Bytes}
    (some_ : 8 < reader.rawWireUpperBoundBytes) (exceeds : reader.allocation < value.length) :
    getChunkRawWire rawWireKey reader (wire.put (rawWireKey key) value) key =
      .error .valueTooLarge := by
  have output : (List.replicate reader.allocation (0 : UInt8)).length < value.length := by
    rwa [List.length_replicate]
  rw [getChunkRawWire, if_neg (Nat.not_le.mpr some_), get_put_exceeds output]
  rfl

/-- A value with another magic number is refused. -/
theorem getChunkRawWire_foreign {reader : Client} (wire : Wire) (key : String) {value : Bytes}
    (some_ : 8 < reader.rawWireUpperBoundBytes)
    (foreign : ∀ rest, readWord (value ++ rest) ≠ rawWireMagic) :
    ∃ error, getChunkRawWire rawWireKey reader (wire.put (rawWireKey key) value) key =
      .error error := by
  by_cases room : value.length ≤ reader.allocation
  · have output : value.length ≤ (List.replicate reader.allocation (0 : UInt8)).length := by
      rwa [List.length_replicate]
    refine ⟨.badMagic, ?_⟩
    rw [getChunkRawWire, if_neg (Nat.not_le.mpr some_), get_put output]
    exact if_pos (foreign _)
  · exact ⟨_, getChunkRawWire_exceeds rawWireKey wire key some_ (Nat.not_le.mp room)⟩

/-- A reader without an estimate finds nothing. -/
theorem getChunkRawWire_blind {reader : Client} (wire : Wire) (key : String)
    (blind : reader.rawWireUpperBoundBytes ≤ 8) :
    getChunkRawWire rawWireKey reader wire key = .ok none :=
  if_pos blind

/-! ## The estimate -/

theorem valueOf_length {parts : List Bytes} {size : Nat}
    (equal : ∀ part ∈ parts, part.length = size) :
    (valueOf parts).length = 4 * (2 + parts.length) + parts.length * size := by
  rw [valueOf, List.length_append, headerOf_length, flatten_length equal]
  omega

theorem bound_of_seen (client : Client) :
    client.rawWireSeenMax ≤ client.rawWireUpperBoundBytes := by
  have larger := Nat.le_max_left client.rawWireSeenMax client.spec.estimate
  rw [Client.rawWireUpperBoundBytes]
  omega

/-- A reader that has stored nothing has its estimate in whole pages. -/
theorem fresh_of_configured {spec : Spec} (configured : spec.Configured) :
    8 < spec.fresh.rawWireUpperBoundBytes ∧ spec.fresh.allocation =
      (4 * (2 + spec.numLayers.getD 0) + spec.numLayers.getD 0 *
        (2 * spec.chunk * spec.numKvHeads.getD 0 * spec.headSize.getD 0 * 2) + 32767) /
          32768 * 32768 := by
  have estimate : spec.estimate = 4 * (2 + spec.numLayers.getD 0) + spec.numLayers.getD 0 *
      (2 * spec.chunk * spec.numKvHeads.getD 0 * spec.headSize.getD 0 * 2) := if_pos configured
  have words : spec.numLayers.getD 0 *
      (2 * spec.chunk * spec.numKvHeads.getD 0 * spec.headSize.getD 0 * 2) =
      4 * (spec.numLayers.getD 0 * (spec.chunk * spec.numKvHeads.getD 0 * spec.headSize.getD 0)) := by
    ring
  have layers := Nat.pos_of_ne_zero configured.1
  have bound : spec.fresh.rawWireUpperBoundBytes = spec.estimate := by
    change (max 0 spec.estimate + 3) / 4 * 4 = spec.estimate
    rw [Nat.zero_max, estimate, words]
    omega
  rw [Client.allocation, bound, ← estimate, padding, page]
  constructor <;> omega

theorem fresh_of_unconfigured {spec : Spec} (unconfigured : ¬ spec.Configured) :
    spec.fresh.rawWireUpperBoundBytes ≤ 8 := by
  have estimate : spec.estimate = 0 := if_neg unconfigured
  change (max 0 spec.estimate + 3) / 4 * 4 ≤ 8
  rw [estimate]
  decide

/-- The header of the device path begins with its own magic number. -/
theorem device_foreign {codec : Codec} {layers : Nat} {slots : List Int} {words : List Nat}
    {size : Nat} (planned : codec.deviceChunkPlan layers slots = .ok (words, size))
    (payload rest : Bytes) : readWord (words.flatMap wordBytes ++ payload ++ rest) ≠ rawWireMagic := by
  rw [Codec.deviceChunkPlan] at planned
  cases checked : codec.chunkSlots slots with
  | error error =>
    rw [checked] at planned
    cases planned
  | ok kept =>
    rw [checked] at planned
    simp only [bind, Except.bind] at planned
    split at planned
    · cases planned
    · cases planned
      rw [Codec.headerWords, List.append_assoc, List.append_assoc, List.cons_append, List.flatMap_cons,
        List.append_assoc, readWord_wordBytes (by decide)]
      decide

/-! ## Reading back -/

/-- The promise about a chunk: it is stored, and its own process as well as one that has stored
nothing reads it back, has room for it, and refuses what the device path stores in its place. -/
def Kept (client : Client) (wire : Wire) (key : String) (bufs : List (Nat × Bytes)) : Prop :=
  ∃ stored after, putChunkRawWire rawWireKey client wire key bufs = .ok (stored, after) ∧
    ∀ reader, reader = stored ∨ reader = client.spec.fresh →
      getChunkRawWire rawWireKey reader after key = .ok (some bufs) ∧
      (∀ value, after (rawWireKey key) = some value → value.length ≤ reader.allocation) ∧
      ∀ (codec : Codec) layers slots words size payload,
        codec.deviceChunkPlan layers slots = .ok (words, size) → ∃ error,
          getChunkRawWire rawWireKey reader
            (after.put (rawWireKey key) (words.flatMap wordBytes ++ payload)) key = .error error

/-- What a reader with a bound does with the stored buffers. -/
theorem reader_keeps {reader : Client} (wire : Wire) (key : String) {parts : List Bytes}
    (positive : Positive parts) (some_ : 8 < reader.rawWireUpperBoundBytes)
    (room : (valueOf parts).length ≤ reader.allocation) :
    getChunkRawWire rawWireKey reader (wire.put (rawWireKey key) (valueOf parts)) key =
        .ok (some (parts.mapIdx Prod.mk)) ∧
      (∀ value, wire.put (rawWireKey key) (valueOf parts) (rawWireKey key) = some value →
        value.length ≤ reader.allocation) ∧
      ∀ (codec : Codec) layers slots words size payload,
        codec.deviceChunkPlan layers slots = .ok (words, size) → ∃ error,
          getChunkRawWire rawWireKey reader ((wire.put (rawWireKey key) (valueOf parts)).put
            (rawWireKey key) (words.flatMap wordBytes ++ payload)) key = .error error := by
  refine ⟨getChunkRawWire_stored rawWireKey wire key positive some_ room, ?_, ?_⟩
  · intro value there
    rw [Wire.put, if_pos rfl] at there
    cases there
    exact room
  · intro codec layers slots words size payload planned
    exact getChunkRawWire_foreign rawWireKey _ key some_ (device_foreign planned payload)

theorem positive_iff {parts : List Bytes} {size : Nat} (equal : ∀ part ∈ parts, part.length = size) :
    Positive parts ↔ Words parts.length size := by
  refine and_congr_right fun _ => ?_
  rcases Nat.eq_zero_or_pos parts.length with none | some_
  · rw [List.length_eq_zero_iff] at none
    subst none
    simp
  · obtain ⟨part, inside⟩ := List.exists_mem_of_length_pos some_
    constructor
    · intro small
      exact Or.inr (equal part inside ▸ small part inside)
    · rintro (none | small) other member
      · omega
      · rwa [equal other member]

/-- A chunk is kept where its words are positive and the estimate has room. -/
theorem kept_iff (client : Client) (wire : Wire) (key : String) {parts : List Bytes} {size : Nat}
    (equal : ∀ part ∈ parts, part.length = size) :
    Kept rawWireKey client wire key (parts.mapIdx Prod.mk) ↔
      Words parts.length size ∧ client.spec.Configured ∧ Room client.spec parts.length size := by
  have positive := positive_iff equal
  constructor
  · rintro ⟨stored, after, put, readers⟩
    by_cases words : Positive parts
    · obtain ⟨_, _, _, _, done⟩ := putChunkRawWire_eq rawWireKey client wire key words
      cases put.symm.trans done
      obtain ⟨read, room, -⟩ := readers _ (Or.inr rfl)
      by_cases configured : client.spec.Configured
      · have fits := room (valueOf parts) (if_pos rfl)
        rw [(fresh_of_configured configured).2, valueOf_length equal] at fits
        exact ⟨positive.mp words, configured, fits⟩
      · rw [getChunkRawWire_blind rawWireKey _ key (fresh_of_unconfigured configured)] at read
        cases read
    · rw [putChunkRawWire_refuses rawWireKey client wire key words] at put
      cases put
  · rintro ⟨words, configured, fits⟩
    have words := positive.mpr words
    obtain ⟨stored, same, some_, seen, done⟩ := putChunkRawWire_eq rawWireKey client wire key words
    refine ⟨stored, _, done, fun reader which => ?_⟩
    rcases which with rfl | rfl
    · have bound := bound_of_seen reader
      exact reader_keeps rawWireKey wire key words (Nat.lt_of_lt_of_le some_ bound)
        (Nat.le_trans seen (Nat.le_trans bound (Nat.le_add_right _ _)))
    · obtain ⟨bound, allocated⟩ := fresh_of_configured configured
      refine reader_keeps rawWireKey wire key words bound ?_
      rw [allocated, valueOf_length equal]
      exact fits

/-- Where no head is repeated, the geometry is the configured one and a chunk is a number of
whole blocks, the estimate has room: a tile takes 1088 bytes where 2048 are expected. -/
theorem room_of_unrepeated {spec : Spec} {k0 : Handle} {tpSize numSlots : Nat}
    (heads : k0.headsPerDev * tpSize = spec.numKvHeads.getD 0)
    (head : k0.headDim = spec.headSize.getD 0) (positive : 0 < k0.block)
    (whole : k0.block ∣ spec.chunk) (short : numSlots ≤ spec.chunk) :
    Room spec (spec.numLayers.getD 0) (bufferBytes k0 tpSize numSlots) := by
  have blocks : (numSlots + k0.block - 1) / k0.block * k0.block ≤ spec.chunk := by
    obtain ⟨count, exact_⟩ := whole
    have few : (numSlots + k0.block - 1) / k0.block ≤ count := by
      rw [← Nat.lt_succ_iff, Nat.div_lt_iff_lt_mul positive, Nat.succ_mul, Nat.mul_comm count,
        ← exact_]
      omega
    rw [exact_, Nat.mul_comm k0.block]
    exact Nat.mul_le_mul_right _ few
  have tiles : k0.block / 32 * (k0.headDim / 32) * 1024 ≤ k0.block * k0.headDim := by
    have rows := Nat.div_mul_le_self k0.block 32
    have columns := Nat.div_mul_le_self k0.headDim 32
    calc k0.block / 32 * (k0.headDim / 32) * 1024
        = k0.block / 32 * 32 * (k0.headDim / 32 * 32) := by ring
      _ ≤ k0.block * k0.headDim := Nat.mul_le_mul rows columns
  have buffer : bufferBytes k0 tpSize numSlots ≤
      2 * spec.chunk * spec.numKvHeads.getD 0 * spec.headSize.getD 0 * 2 := by
    rw [← heads, ← head, bufferBytes]
    calc 2 * ((numSlots + k0.block - 1) / k0.block *
          (k0.headsPerDev * (k0.block / 32) * (k0.headDim / 32) * 1088 * tpSize))
        ≤ 4 * ((numSlots + k0.block - 1) / k0.block * (k0.headsPerDev * tpSize *
          (k0.block / 32 * (k0.headDim / 32) * 1024))) := by
          rw [show (4 : Nat) = 2 * 2 from rfl, Nat.mul_assoc 2 2]
          refine Nat.mul_le_mul_left 2 ?_
          rw [Nat.mul_left_comm 2]
          refine Nat.mul_le_mul_left _ ?_
          calc k0.headsPerDev * (k0.block / 32) * (k0.headDim / 32) * 1088 * tpSize
              = k0.headsPerDev * tpSize * (k0.block / 32 * (k0.headDim / 32)) * 1088 := by ring
            _ ≤ k0.headsPerDev * tpSize * (k0.block / 32 * (k0.headDim / 32)) * 2048 :=
              Nat.mul_le_mul_left _ (by decide)
            _ = 2 * (k0.headsPerDev * tpSize * (k0.block / 32 * (k0.headDim / 32) * 1024)) := by
              ring
      _ ≤ 4 * ((numSlots + k0.block - 1) / k0.block * (k0.headsPerDev * tpSize *
          (k0.block * k0.headDim))) := by gcongr
      _ = 4 * ((numSlots + k0.block - 1) / k0.block * k0.block) *
          (k0.headsPerDev * tpSize) * k0.headDim := by ring
      _ ≤ 4 * spec.chunk * (k0.headsPerDev * tpSize) * k0.headDim := by gcongr
      _ = 2 * spec.chunk * (k0.headsPerDev * tpSize) * k0.headDim * 2 := by ring
  have total := Nat.mul_le_mul_left (spec.numLayers.getD 0) buffer
  rw [Room]
  omega

/-- The bytes of a buffer are those of the cache's blocks. -/
theorem gathered_parts {deployment : Deployment} {codec : Codec}
    (built : maybeBuild deployment = some codec) {k0 : Handle} (handle : deployment.k0 = some k0)
    {found : Nat → Nat → UInt8} {numLayers : Nat} {slots : List Int} {bufs : List (Nat × Bytes)}
    (gathered : codec.gatherChunk found numLayers slots = .ok bufs) : ∃ parts : List Bytes,
      bufs = parts.mapIdx Prod.mk ∧ parts.length = numLayers ∧
      ∀ part ∈ parts, part.length = bufferBytes k0 deployment.tpSize slots.length := by
  obtain ⟨found, same, size, block, _, shard⟩ := maybeBuild_eq_some built
  obtain rfl : found = k0 := Option.some.inj (same.symm.trans handle)
  obtain ⟨parts, spelled, count, equal⟩ := gatherChunk_eq_ok gathered
  refine ⟨parts, spelled, count, fun part member => ?_⟩
  rw [equal part member, Codec.alloc, Codec.nBlocks, Codec.blockBytes, size, block, shard,
    bufferBytes]

end Store

/-! ## Two deployments -/

/-- A cache on some chips, with one head on each. -/
def deploymentOf (chips block headDim : Nat) : Deployment where
  enabled := true
  operations := true
  tpSize := chips
  dpSize := 1
  tpAxis := 1
  dpAxis := 0
  blockSize := some block
  blocksPerDp := some 16
  k0 := some ⟨true, true, 1, block, headDim⟩

def codecOf (chips block headDim : Nat) : Codec where
  tpSize := chips
  dpSize := 1
  blockSize := block
  blocksPerDp := 16
  shardBlockBytes := 1 * (block / 32) * (headDim / 32) * 1088

/-- The slots of a first chunk are in order. -/
theorem gatherChunk_first (codec : Codec) (found : Nat → Nat → UInt8) (numLayers count : Nat) :
    ∃ bufs, codec.gatherChunk found numLayers ((List.range (count + 1)).map Int.ofNat) =
      .ok bufs := by
  have ordered : codec.chunkSlots ((List.range (count + 1)).map Int.ofNat) =
      .ok ((List.range (count + 1)).map Int.ofNat) := by
    rw [List.range_succ_eq_map, List.map_cons, Codec.chunkSlots]
    rw [if_neg (by simp), if_neg]
    rw [not_not]
    refine List.ext_getElem (by simp) fun index _ _ => ?_
    cases index <;> simp
  rw [Codec.gatherChunk, ordered]
  exact ⟨_, rfl⟩

end KvCache.Lmcache.RawWire
