import KvCache.Protocol.Layout

/-!
# Size arithmetic in words

The size functions of the protocol headers in words of 32 bits, with every operation that can
wrap reduced, and the parsers of the two sizes that an operator chooses. A loop that doubles
a word is given its rounds and has no result when they run out: past half the range the word
becomes zero and the loop never ends.

The parsers keep values below the largest power of two of chunks that a word can hold. For
what they accept every word is the number it stands for.
-/

namespace KvCache.Layout.Word

/-- What a 32-bit word keeps of a number. -/
def u32 (number : Nat) : Nat := number % 2 ^ 32

theorem u32_of_lt {number : Nat} (fits : number < 2 ^ 32) : u32 number = number :=
  Nat.mod_eq_of_lt fits

/-! ## Functions of the headers -/

/-- Chunks of a length. The division keeps the sum from wrapping. -/
def chunkCountFor (bytes : Nat) : Nat :=
  if bytes = 0 then 0 else u32 (1 + (bytes - 1) / maxChunkValueBytes)

def chunkAlignedValueBytes (bytes : Nat) : Nat := u32 (chunkCountFor bytes * maxChunkValueBytes)

/-- `while (power <= value / 2) power <<= 1`. -/
def floorPowerLoop (value : Nat) : Nat → Nat → Option Nat
  | 0, _ => none
  | rounds + 1, power =>
    if power ≤ value / 2 then floorPowerLoop value rounds (u32 (2 * power)) else some power

/-- `while (power < value) power <<= 1`. -/
def ceilPowerLoop (value : Nat) : Nat → Nat → Option Nat
  | 0, _ => none
  | rounds + 1, power =>
    if power < value then ceilPowerLoop value rounds (u32 (2 * power)) else some power

def floorPowerOfTwo (rounds value : Nat) : Option Nat := floorPowerLoop value rounds 1

def ceilPowerOfTwo (rounds value : Nat) : Option Nat := ceilPowerLoop value rounds 1

/-- `while (units > 1) units >>= 1, ++order`. -/
def halvings : Nat → Nat → Nat → Option Nat
  | 0, _, _ => none
  | rounds + 1, units, order =>
    if 1 < units then halvings rounds (units / 2) (u32 (order + 1)) else some order

def buddyOrderForValueBytes (rounds bytes : Nat) : Option Nat :=
  (ceilPowerOfTwo rounds (chunkCountFor bytes)).bind fun units => halvings rounds units 0

def buddyBlockUnitsFor (rounds bytes : Nat) : Option Nat :=
  ceilPowerOfTwo rounds (chunkCountFor bytes)

/-- The order of the kernel: `while (block_units < units) block_units <<= 1, ++order`. -/
def orderLoop (units : Nat) : Nat → Nat → Nat → Option Nat
  | 0, _, _ => none
  | rounds + 1, blockUnits, order =>
    if blockUnits < units then orderLoop units rounds (u32 (2 * blockUnits)) (u32 (order + 1))
    else some order

def buddyOrderForUnits (rounds units : Nat) : Option Nat := orderLoop units rounds 1 0

/-- `U << order`. -/
def blockBytes (order : Nat) : Nat := u32 (maxChunkValueBytes * 2 ^ order)

/-- `unit * U`. -/
def unitByteOffset (unit : Nat) : Nat := u32 (unit * maxChunkValueBytes)

def normalizeValueHeapBytes (rounds requestedBytes maxValueBytes : Nat) : Option Nat :=
  (buddyBlockUnitsFor rounds maxValueBytes).map fun units =>
    let roundedRequest := u32 (requestedBytes / maxChunkValueBytes * maxChunkValueBytes)
    let minimum := u32 (units * maxChunkValueBytes)
    if roundedRequest < minimum then minimum else roundedRequest

/-! ## Configuration -/

/-- Largest value whose aligned size is a word. -/
def maxChunkAlignedValueBytes : Nat := (2 ^ 32 - 1) / maxChunkValueBytes * maxChunkValueBytes

/-- The largest power of two of chunks that a word can hold, a constant of the headers. -/
def maxBuddyBlockUnits : Nat := 524288

/-- The constant is what its loop computes. -/
theorem floorPowerOfTwo_maxBuddyBlockUnits :
    floorPowerOfTwo 32 ((2 ^ 32 - 1) / maxChunkValueBytes) = some maxBuddyBlockUnits := by
  decide

def maxBuddyValueBytes : Nat := u32 (maxBuddyBlockUnits * maxChunkValueBytes)

def maxMultiChunkValueBytesDefault : Nat := 64 * 2 ^ 20

def valueHeapBytesDefault : Nat := 1434541824

/-- The value cap from its setting. -/
def parseMaxValueBytes (setting : Option Nat) : Option Nat :=
  let bytes := setting.getD maxMultiChunkValueBytesDefault
  if bytes = 0 then none
  else
    let bytes := if maxBuddyValueBytes < bytes then maxBuddyValueBytes else bytes
    let bytes := if bytes < maxChunkValueBytes then maxChunkValueBytes else bytes
    some (u32 bytes)

/-- The heap size from its setting. -/
def parseValueHeapBytes (rounds : Nat) (setting : Option Nat) (maxValueBytes : Nat) : Option Nat :=
  let bytes := setting.getD valueHeapBytesDefault
  if bytes = 0 then none
  else
    let bytes := if maxChunkAlignedValueBytes < bytes then maxChunkAlignedValueBytes else bytes
    normalizeValueHeapBytes rounds (u32 bytes) maxValueBytes

def maxKeysDefault : Nat := 1024

/-- Largest catalog. -/
def maxKeysHardCap : Nat := 65536

/-- The number of directory entries from its setting. -/
def parseMaxKeys (setting : Option Nat) : Option Nat :=
  match setting with
  | none => some maxKeysDefault
  | some keys =>
    if keys = 0 then none
    else if maxKeysHardCap < keys then some maxKeysHardCap
    else some (u32 keys)

/-! ## Staging area -/

/-- Bytes of the completion line of the host, and of the one of a GET. -/
def promoteHostCompletionBytes : Nat := 64

def getHostCompletionBytes : Nat := promoteHostCompletionBytes

/-- Bytes of the two descriptors of GET ingress. -/
def getIngressHostBytes : Nat := 448

/-- Bytes of the pool metadata of a slot. -/
def hostPoolMetaBytes : Nat := 32

/-- Offsets of the staging and control region. The last two are sums of 64 bits. -/
structure StageOffsets where
  stageBytes : Nat
  stageCompletion : Nat
  getCompletion : Nat
  getIngress : Nat
  poolMeta : Nat
  stageAndControl : Nat
deriving DecidableEq, Repr

/-- The offsets that `reserve_stage_buffer` computes. -/
def stageOffsets (maxValueBytes maxKeys : Nat) : StageOffsets :=
  let stageBytes := chunkAlignedValueBytes maxValueBytes
  let getCompletion := u32 (stageBytes + promoteHostCompletionBytes)
  let getIngress := u32 (getCompletion + getHostCompletionBytes)
  let poolMeta := getIngress + getIngressHostBytes
  { stageBytes := stageBytes
    stageCompletion := stageBytes
    getCompletion := getCompletion
    getIngress := getIngress
    poolMeta := poolMeta
    stageAndControl := poolMeta + maxKeys * hostPoolMetaBytes }

/-! ## Loops -/

variable {value order rounds : Nat}

/-- A doubled power below half the range. -/
theorem u32_double {power : Nat} (small : power < 31) : u32 (2 * 2 ^ power) = 2 ^ (power + 1) := by
  have doubled : 2 * 2 ^ power = 2 ^ (power + 1) := by ring
  rw [doubled]
  exact u32_of_lt (Nat.pow_lt_pow_right (by decide) (by omega))

/-- The loop ends at the first power that reaches the value, if the word can hold it.

Proof: by induction on the powers left. -/
theorem ceilPowerLoop_eq (small : order < 32) (reaches : value ≤ 2 ^ order)
    (least : ∀ lower < order, 2 ^ lower < value) {power left : Nat} (ends : power + left = order)
    (enough : left < rounds) : ceilPowerLoop value rounds (2 ^ power) = some (2 ^ order) := by
  induction left generalizing power rounds with
  | zero =>
    obtain ⟨rounds, rfl⟩ : ∃ less, rounds = less + 1 := Nat.exists_eq_succ_of_ne_zero (by omega)
    obtain rfl : power = order := by omega
    exact if_neg (Nat.not_lt.mpr reaches)
  | succ left inductionHypothesis =>
    obtain ⟨rounds, rfl⟩ : ∃ less, rounds = less + 1 := Nat.exists_eq_succ_of_ne_zero (by omega)
    unfold ceilPowerLoop
    rw [if_pos (least power (by omega)), u32_double (by omega)]
    exact inductionHypothesis (by omega) (by omega)

/-- The kernel's loop counts the same doublings. -/
theorem orderLoop_eq (small : order < 32) (reaches : value ≤ 2 ^ order)
    (least : ∀ lower < order, 2 ^ lower < value) {power left : Nat} (ends : power + left = order)
    (enough : left < rounds) : orderLoop value rounds (2 ^ power) power = some order := by
  induction left generalizing power rounds with
  | zero =>
    obtain ⟨rounds, rfl⟩ : ∃ less, rounds = less + 1 := Nat.exists_eq_succ_of_ne_zero (by omega)
    obtain rfl : power = order := by omega
    exact if_neg (Nat.not_lt.mpr reaches)
  | succ left inductionHypothesis =>
    obtain ⟨rounds, rfl⟩ : ∃ less, rounds = less + 1 := Nat.exists_eq_succ_of_ne_zero (by omega)
    have counted : u32 (power + 1) = power + 1 := u32_of_lt (by omega)
    unfold orderLoop
    rw [if_pos (least power (by omega)), u32_double (by omega), counted]
    exact inductionHypothesis (by omega) (by omega)

/-- Halving a power of two counts its exponent. -/
theorem halvings_eq {start : Nat} (small : start + order < 2 ^ 32) (enough : order < rounds) :
    halvings rounds (2 ^ order) start = some (start + order) := by
  induction order generalizing rounds start with
  | zero =>
    obtain ⟨rounds, rfl⟩ : ∃ less, rounds = less + 1 := Nat.exists_eq_succ_of_ne_zero (by omega)
    rfl
  | succ order inductionHypothesis =>
    obtain ⟨rounds, rfl⟩ : ∃ less, rounds = less + 1 := Nat.exists_eq_succ_of_ne_zero (by omega)
    have halved : 2 ^ (order + 1) / 2 = 2 ^ order := by rw [Nat.pow_succ]; omega
    have more : 1 < 2 ^ (order + 1) := Nat.one_lt_two_pow (by omega)
    have counted : u32 (start + 1) = start + 1 := u32_of_lt (by omega)
    unfold halvings
    rw [if_pos more, halved, counted, inductionHypothesis (by omega) (by omega)]
    congr 1
    omega

/-- Below the least power that reaches a value, every power is less. -/
theorem roundsTo_least (value : Nat) : ∀ lower < roundsTo value, 2 ^ lower < value := by
  intro lower less
  by_contra reached
  have bound := (roundsTo_spec value).2 lower (Nat.le_of_not_lt reached)
  omega

/-- A value of at most half the range is rounded up. -/
theorem ceilPowerOfTwo_eq (small : value ≤ 2 ^ 31) (enough : 32 ≤ rounds) :
    ceilPowerOfTwo rounds value = some (Layout.ceilPowerOfTwo value) := by
  have bounded : roundsTo value ≤ 31 := (roundsTo_spec value).2 31 small
  exact ceilPowerLoop_eq (by omega) (roundsTo_spec value).1 (roundsTo_least value)
    (Nat.zero_add _) (by omega)

/-- Past half the range the loop never ends: the word becomes zero and stays below. -/
theorem ceilPowerOfTwo_none (large : 2 ^ 31 < value) : ceilPowerOfTwo rounds value = none := by
  have zero : ∀ rounds, ceilPowerLoop value rounds 0 = none := by
    intro rounds
    induction rounds with
    | zero => rfl
    | succ rounds inductionHypothesis =>
      unfold ceilPowerLoop
      rw [if_pos (by omega)]
      exact inductionHypothesis
  have powers : ∀ left power rounds, power + left = 31 →
      ceilPowerLoop value rounds (2 ^ power) = none := by
    intro left
    induction left with
    | zero =>
      intro power rounds last
      obtain rfl : power = 31 := by omega
      cases rounds with
      | zero => rfl
      | succ rounds =>
        unfold ceilPowerLoop
        rw [if_pos large]
        exact zero rounds
    | succ left inductionHypothesis =>
      intro power rounds before
      cases rounds with
      | zero => rfl
      | succ rounds =>
        have less : 2 ^ power < value :=
          (Nat.pow_lt_pow_right (by decide) (show power < 31 by omega)).trans large
        unfold ceilPowerLoop
        rw [if_pos less, u32_double (by omega)]
        exact inductionHypothesis _ _ (by omega)
  exact powers 31 0 rounds rfl

/-! ## Accepted sizes -/

theorem maxBuddyValueBytes_eq : maxBuddyValueBytes = 2 ^ 19 * maxChunkValueBytes := by decide

/-- An accepted value cap is between one chunk and the largest block. -/
theorem parseMaxValueBytes_bounds {setting : Option Nat} {maxValueBytes : Nat}
    (accepted : parseMaxValueBytes setting = some maxValueBytes) :
    maxChunkValueBytes ≤ maxValueBytes ∧ maxValueBytes ≤ 2 ^ 19 * maxChunkValueBytes := by
  unfold parseMaxValueBytes at accepted
  dsimp only at accepted
  split at accepted
  · cases accepted
  · have cap := maxBuddyValueBytes_eq
    have chunk : maxChunkValueBytes = 4288 := rfl
    have word : ∀ number, number ≤ 2 ^ 19 * maxChunkValueBytes → u32 number = number :=
      fun number below => u32_of_lt (by omega)
    rw [← Option.some.inj accepted]
    split <;> split <;> rw [word _ (by omega)] <;> omega

theorem parseMaxKeys_le {setting : Option Nat} {maxKeys : Nat}
    (accepted : parseMaxKeys setting = some maxKeys) : maxKeys ≤ maxKeysHardCap := by
  unfold parseMaxKeys at accepted
  split at accepted
  · rw [← Option.some.inj accepted]
    decide
  · split at accepted
    · cases accepted
    · split at accepted
      · exact (Option.some.inj accepted).ge
      · next below =>
        rw [← Option.some.inj accepted, u32, Nat.mod_eq_of_lt]
        · omega
        · have cap : maxKeysHardCap = 65536 := rfl
          omega

/-- As many chunks as a word can hold the bytes of. -/
theorem units_fit {units : Nat} (few : units ≤ 1001624) :
    units * maxChunkValueBytes ≤ maxChunkAlignedValueBytes ∧
      units * maxChunkValueBytes < 2 ^ 32 := by
  have whole : maxChunkAlignedValueBytes = 4294963712 := by decide
  unfold maxChunkValueBytes
  omega

/-- Chunk counts and aligned sizes of what a word can hold. -/
theorem chunkCountFor_eq {bytes : Nat} (fits : bytes ≤ maxChunkAlignedValueBytes) :
    chunkCountFor bytes = Layout.chunkCountFor bytes ∧
      chunkAlignedValueBytes bytes = Layout.chunkCountFor bytes * maxChunkValueBytes ∧
      Layout.chunkCountFor bytes ≤ 1001624 := by
  have whole : maxChunkAlignedValueBytes = 4294963712 := by decide
  have few : Layout.chunkCountFor bytes ≤ 1001624 := by
    unfold Layout.chunkCountFor maxChunkValueBytes
    split <;> omega
  have count : chunkCountFor bytes = Layout.chunkCountFor bytes := by
    unfold chunkCountFor
    unfold Layout.chunkCountFor at *
    split
    · rfl
    · next some =>
      rw [if_neg some] at few
      exact u32_of_lt (by omega)
  refine ⟨count, ?_, few⟩
  rw [chunkAlignedValueBytes, count]
  exact u32_of_lt (units_fit few).2

/-- A length below the largest block needs at most its chunks. -/
theorem chunkCountFor_le {bytes : Nat} (below : bytes ≤ 2 ^ 19 * maxChunkValueBytes) :
    Layout.chunkCountFor bytes ≤ 2 ^ 19 := by
  unfold Layout.chunkCountFor maxChunkValueBytes at *
  split <;> omega

/-- For a value of at most the largest block the loops end, and give its block. -/
theorem block_eq {bytes : Nat} (below : bytes ≤ 2 ^ 19 * maxChunkValueBytes)
    (enough : 32 ≤ rounds) :
    buddyBlockUnitsFor rounds bytes = some (Layout.buddyBlockUnitsFor bytes) ∧
      buddyOrderForValueBytes rounds bytes = some (Layout.buddyOrderForValueBytes bytes) ∧
      buddyOrderForUnits rounds (chunkCountFor bytes) =
        some (Layout.buddyOrderForValueBytes bytes) ∧
      Layout.buddyOrderForValueBytes bytes ≤ 19 ∧
      Layout.buddyBlockUnitsFor bytes = 2 ^ Layout.buddyOrderForValueBytes bytes := by
  have few := chunkCountFor_le below
  have order : Layout.buddyOrderForValueBytes bytes ≤ 19 := buddyOrderForUnits_le few
  have fits : bytes ≤ maxChunkAlignedValueBytes :=
    below.trans (by decide : 2 ^ 19 * maxChunkValueBytes ≤ maxChunkAlignedValueBytes)
  have count := (chunkCountFor_eq fits).1
  have power : ceilPowerOfTwo rounds (Layout.chunkCountFor bytes) =
      some (2 ^ Layout.buddyOrderForValueBytes bytes) := ceilPowerOfTwo_eq (by omega) enough
  have word : Layout.buddyOrderForValueBytes bytes < 32 := by omega
  have ends : Layout.buddyOrderForValueBytes bytes < rounds := by omega
  have kernel : orderLoop (Layout.chunkCountFor bytes) rounds (2 ^ 0) 0 =
      some (Layout.buddyOrderForValueBytes bytes) :=
    orderLoop_eq word (roundsTo_spec _).1 (roundsTo_least _) (Nat.zero_add _) ends
  have halved := @halvings_eq (Layout.buddyOrderForValueBytes bytes) rounds 0 (by omega) (by omega)
  rw [Nat.zero_add] at halved
  refine ⟨?_, ?_, ?_, order, rfl⟩
  · rw [buddyBlockUnitsFor, count]
    exact power
  · rw [buddyOrderForValueBytes, count, power]
    exact halved
  · rw [buddyOrderForUnits, count]
    exact kernel

/-- The heap that an accepted configuration gets. -/
theorem parseValueHeapBytes_eq {setting : Option Nat} {maxValueBytes : Nat}
    (some : setting ≠ some 0) (below : maxValueBytes ≤ 2 ^ 19 * maxChunkValueBytes)
    (enough : 32 ≤ rounds) :
    let requested := min (setting.getD valueHeapBytesDefault) maxChunkAlignedValueBytes
    parseValueHeapBytes rounds setting maxValueBytes =
        .some (Layout.normalizeValueHeapBytes requested maxValueBytes) ∧
      Layout.normalizeValueHeapBytes requested maxValueBytes ≤ maxChunkAlignedValueBytes := by
  intro requested
  have whole : maxChunkAlignedValueBytes = 4294963712 := by decide
  have positive : setting.getD valueHeapBytesDefault ≠ 0 := by
    cases setting with
    | none => decide
    | some bytes => exact fun zero => some (congrArg _ zero)
  obtain ⟨units, -, -, order, power⟩ := block_eq below enough
  have block : Layout.buddyBlockUnitsFor maxValueBytes ≤ 1001624 := by
    rw [power]
    exact (Nat.pow_le_pow_right (by decide) order).trans (by decide)
  have clamp : (if maxChunkAlignedValueBytes < setting.getD valueHeapBytesDefault then
      maxChunkAlignedValueBytes else setting.getD valueHeapBytesDefault) = requested := by
    split <;> omega
  have bounded : requested ≤ maxChunkAlignedValueBytes := Nat.min_le_right _ _
  have share := Nat.div_mul_le_self requested maxChunkValueBytes
  have minimum : u32 (Layout.buddyBlockUnitsFor maxValueBytes * maxChunkValueBytes) =
      Layout.buddyBlockUnitsFor maxValueBytes * maxChunkValueBytes :=
    u32_of_lt (units_fit block).2
  have rounded : u32 (requested / maxChunkValueBytes * maxChunkValueBytes) =
      requested / maxChunkValueBytes * maxChunkValueBytes := u32_of_lt (by omega)
  have word : u32 requested = requested := u32_of_lt (by omega)
  constructor
  · unfold parseValueHeapBytes
    dsimp only
    rw [if_neg positive, clamp, word, normalizeValueHeapBytes, units, Option.map_some]
    dsimp only
    rw [minimum, rounded]
    rfl
  · have room := (units_fit block).1
    unfold Layout.normalizeValueHeapBytes
    dsimp only
    split <;> omega

/-- The offsets of an accepted configuration are the sums of their parts. -/
theorem stageOffsets_eq {maxValueBytes maxKeys : Nat}
    (below : maxValueBytes ≤ 2 ^ 19 * maxChunkValueBytes) :
    let stage := Layout.chunkCountFor maxValueBytes * maxChunkValueBytes
    stage ≤ 2 ^ 19 * maxChunkValueBytes ∧
    stageOffsets maxValueBytes maxKeys =
      { stageBytes := stage, stageCompletion := stage, getCompletion := stage + 64
        getIngress := stage + 128, poolMeta := stage + 576
        stageAndControl := stage + 576 + maxKeys * 32 } := by
  intro stage
  have few := chunkCountFor_le below
  have fits : maxValueBytes ≤ maxChunkAlignedValueBytes := below.trans (by decide)
  have aligned : chunkAlignedValueBytes maxValueBytes = stage := (chunkCountFor_eq fits).2.1
  have bound : stage ≤ 2 ^ 19 * maxChunkValueBytes := Nat.mul_le_mul_right _ few
  have chunk : 2 ^ 19 * maxChunkValueBytes = 2248146944 := by decide
  have first : u32 (stage + 64) = stage + 64 := u32_of_lt (by omega)
  have second : u32 (stage + 64 + 64) = stage + 128 := u32_of_lt (by omega)
  refine ⟨bound, ?_⟩
  simp only [stageOffsets, aligned, promoteHostCompletionBytes, getHostCompletionBytes,
    getIngressHostBytes, hostPoolMetaBytes, first, second]

/-- The arithmetic of sizes is exact for every configuration that is accepted: no word
wraps, every loop ends within 32 rounds, the kernel and the headers agree on the order of a
value, and the heap has room for the block of the longest value.

Proof: the parsers keep every value below 2^19 chunks, so a rounded power and a block are
below the range, and the heap below the largest whole number of chunks of a word. -/
theorem sizes_exact {valueSetting heapSetting keySetting : Option Nat}
    {maxValueBytes maxKeys : Nat} (value : parseMaxValueBytes valueSetting = some maxValueBytes)
    (heap : heapSetting ≠ some 0) (keys : parseMaxKeys keySetting = some maxKeys)
    (enough : 32 ≤ rounds) :
    ∃ valueHeapBytes, parseValueHeapBytes rounds heapSetting maxValueBytes = some valueHeapBytes ∧
      valueHeapBytes = Layout.normalizeValueHeapBytes
        (min (heapSetting.getD valueHeapBytesDefault) maxChunkAlignedValueBytes) maxValueBytes ∧
      valueHeapBytes < 2 ^ 32 ∧
      (∀ bytes ≤ maxChunkAlignedValueBytes,
        chunkCountFor bytes = Layout.chunkCountFor bytes ∧
        chunkAlignedValueBytes bytes = Layout.chunkCountFor bytes * maxChunkValueBytes ∧
        chunkAlignedValueBytes bytes < 2 ^ 32) ∧
      (∀ bytes ≤ maxValueBytes,
        ceilPowerOfTwo rounds (chunkCountFor bytes) =
          some (Layout.ceilPowerOfTwo (Layout.chunkCountFor bytes)) ∧
        buddyOrderForValueBytes rounds bytes = some (Layout.buddyOrderForValueBytes bytes) ∧
        buddyOrderForUnits rounds (chunkCountFor bytes) = buddyOrderForValueBytes rounds bytes) ∧
      (∀ order ≤ floorLog2 (valueHeapBytes / maxChunkValueBytes),
        blockBytes order = maxChunkValueBytes * 2 ^ order ∧ blockBytes order < 2 ^ 32) ∧
      (∀ unit ≤ valueHeapBytes / maxChunkValueBytes,
        unitByteOffset unit = unit * maxChunkValueBytes ∧ unitByteOffset unit < 2 ^ 32) ∧
      (let stage := Layout.chunkCountFor maxValueBytes * maxChunkValueBytes
       stageOffsets maxValueBytes maxKeys =
          { stageBytes := stage, stageCompletion := stage, getCompletion := stage + 64
            getIngress := stage + 128, poolMeta := stage + 576
            stageAndControl := stage + 576 + maxKeys * 32 } ∧
        stage + 576 + maxKeys * 32 < 2 ^ 32) ∧
      maxValueBytes ≤ blockBytes (Layout.buddyOrderForValueBytes maxValueBytes) ∧
      Layout.buddyOrderForValueBytes maxValueBytes ≤
        floorLog2 (valueHeapBytes / maxChunkValueBytes) ∧
      blockBytes (Layout.buddyOrderForValueBytes maxValueBytes) ≤ valueHeapBytes := by
  obtain ⟨lower, below⟩ := parseMaxValueBytes_bounds value
  obtain ⟨parsed, bounded⟩ := parseValueHeapBytes_eq heap below enough
  refine ⟨_, parsed, rfl, ?_⟩
  generalize heap_eq : Layout.normalizeValueHeapBytes
    (min (heapSetting.getD valueHeapBytesDefault) maxChunkAlignedValueBytes) maxValueBytes =
      valueHeapBytes at *
  have whole : maxChunkAlignedValueBytes = 4294963712 := by decide
  have units : valueHeapBytes / maxChunkValueBytes ≤ 1001624 := by
    unfold maxChunkValueBytes
    omega
  have held : Layout.buddyBlockUnitsFor maxValueBytes ≤ valueHeapBytes / maxChunkValueBytes :=
    heap_eq ▸ (normalizeValueHeapBytes_spec _ maxValueBytes).2
  obtain ⟨-, -, -, order, power⟩ := block_eq below enough
  -- A block of an order that the heap has is below the whole heap.
  have blocks : ∀ order ≤ floorLog2 (valueHeapBytes / maxChunkValueBytes),
      blockBytes order = maxChunkValueBytes * 2 ^ order ∧
        maxChunkValueBytes * 2 ^ order ≤ valueHeapBytes := by
    intro order less
    have some : valueHeapBytes / maxChunkValueBytes ≠ 0 := by
      have positive : 0 < Layout.buddyBlockUnitsFor maxValueBytes := by
        rw [power]
        exact Nat.two_pow_pos _
      omega
    have fits : 2 ^ order ≤ valueHeapBytes / maxChunkValueBytes :=
      (Nat.pow_le_pow_right (by decide) less).trans (Nat.log2_self_le some)
    have room := (Nat.mul_le_mul_left maxChunkValueBytes fits).trans
      (Nat.mul_div_le valueHeapBytes maxChunkValueBytes)
    exact ⟨u32_of_lt (by omega), room⟩
  have largest : Layout.buddyOrderForValueBytes maxValueBytes ≤
      floorLog2 (valueHeapBytes / maxChunkValueBytes) := by
    rw [power] at held
    have some : valueHeapBytes / maxChunkValueBytes ≠ 0 := by
      have positive := Nat.two_pow_pos (Layout.buddyOrderForValueBytes maxValueBytes)
      omega
    exact (Nat.le_log2 some).mpr held
  obtain ⟨plain, room⟩ := blocks _ largest
  refine ⟨by omega, ?_, ?_, ?_, ?_, ?_, ?_, largest, plain ▸ room⟩
  · intro bytes fits
    obtain ⟨count, aligned, few⟩ := chunkCountFor_eq fits
    exact ⟨count, aligned, aligned ▸ (units_fit few).2⟩
  · intro bytes less
    obtain ⟨block, byHeader, byKernel, -, -⟩ := block_eq (less.trans below) enough
    exact ⟨block, byHeader, byKernel.trans byHeader.symm⟩
  · intro order less
    obtain ⟨plain, room⟩ := blocks order less
    exact ⟨plain, by omega⟩
  · intro unit less
    have fits := (units_fit (less.trans units)).2
    exact ⟨u32_of_lt fits, by rw [unitByteOffset, u32_of_lt fits]; exact fits⟩
  · obtain ⟨bound, offsets⟩ := @stageOffsets_eq maxValueBytes maxKeys below
    have chunk : 2 ^ 19 * maxChunkValueBytes = 2248146944 := by decide
    have cap : maxKeysHardCap = 65536 := rfl
    have few := parseMaxKeys_le keys
    exact ⟨offsets, by omega⟩
  · rw [plain, Nat.mul_comm]
    exact (le_chunkCountFor_mul maxValueBytes).trans
      (Nat.mul_le_mul_right _ (units_le_block (Layout.chunkCountFor maxValueBytes)))

/-- The configuration without settings. -/
theorem sizes_exact_default : parseMaxValueBytes none = some 67108864 ∧
    parseMaxKeys none = some 1024 ∧
    ∃ valueHeapBytes, parseValueHeapBytes 32 none 67108864 = some valueHeapBytes ∧
      valueHeapBytes < 2 ^ 32 := by
  have value : parseMaxValueBytes none = some 67108864 := by decide
  have keys : parseMaxKeys none = some 1024 := by decide
  obtain ⟨valueHeapBytes, parsed, -, below, -⟩ :=
    sizes_exact value (by decide : none ≠ some 0) keys (Nat.le_refl 32)
  exact ⟨value, keys, valueHeapBytes, parsed, below⟩

end KvCache.Layout.Word
