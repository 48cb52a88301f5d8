import KvCache.Host.BankPlacement

/-!
# Reading until two passes agree

A candidate image and the next pass are compared on the bytes of the value. On a mismatch
the candidate is replaced by the whole of the newer pass; after the last mismatch allowed
that pass is the result. The candidate is therefore one pass at all times, never a mixture.

The device may answer every pass differently. Two buffers are used again and again, and a
pass writes every byte of the image, so nothing of an older pass shows through.
-/

namespace KvCache.HostTransfer

open Layout Interleaved

variable {cfg : RuntimeConfig} {images : Nat → Banks} {baseUnit units totalLen : Nat}

/-! ## Images -/

/-- The image that a pass brings. -/
def passImage (cfg : RuntimeConfig) (images : Nat → Banks) (baseUnit units pass : Nat) :
    List UInt8 :=
  (readAll cfg (images pass) baseUnit units (fun _ => 0) fun _ => 0).2.read 0
    (units * maxChunkValueBytes)

/-- A pass writes its whole image, whatever the buffers held. -/
theorem readAll_image (pass : Nat) (scratch into : ByteMemory) :
    (readAll cfg (images pass) baseUnit units scratch into).2.read 0
      (units * maxChunkValueBytes) = passImage cfg images baseUnit units pass := by
  apply List.map_congr_left
  intro position member
  have inside := List.mem_range.mp member
  have short := Nat.mod_lt position maxChunkValueBytes_pos
  have unit : position / maxChunkValueBytes < units :=
    Nat.div_lt_of_lt_mul (by rwa [Nat.mul_comm])
  rw [Nat.zero_add, ← Nat.div_add_mod' position maxChunkValueBytes,
    readAll_apply _ _ _ _ _ _ short, readAll_apply _ _ _ _ _ _ short, if_pos unit, if_pos unit]

/-- A pass leaves what lies behind the units of the value. -/
theorem readAll_behind (banks : Banks) (scratch into : ByteMemory) {position : Nat}
    (behind : units * maxChunkValueBytes ≤ position) :
    (readAll cfg banks baseUnit units scratch into).2 position = into position := by
  have short := Nat.mod_lt position maxChunkValueBytes_pos
  have unit : units ≤ position / maxChunkValueBytes := by
    rwa [Nat.le_div_iff_mul_le maxChunkValueBytes_pos]
  rw [← Nat.div_add_mod' position maxChunkValueBytes, readAll_apply _ _ _ _ _ _ short,
    if_neg (Nat.not_lt.mpr unit)]

/-- The first bytes of a block are a shorter block. -/
theorem take_read (memory : ByteMemory) {fewer more : Nat} (less : fewer ≤ more) :
    (memory.read 0 more).take fewer = memory.read 0 fewer := by
  simp [ByteMemory.read, ← List.map_take, List.take_range, Nat.min_eq_left less]

/-- The first bytes of a copied block. -/
theorem read_write_block (memory other : ByteMemory) (size : Nat) :
    (memory.write 0 (other.read 0 size)).read 0 size = other.read 0 size := by
  apply List.map_congr_left
  intro position member
  have inside := List.mem_range.mp member
  rw [ByteMemory.write_read_apply, if_pos (by omega)]
  simp

/-! ## The loop -/

/-- The number of the pass after the last one that the loop makes. -/
def stabilisePasses (cfg : RuntimeConfig) (images : Nat → Banks) (baseUnit units totalLen : Nat) :
    Nat → Nat → ByteMemory → ByteMemory → ByteMemory → Nat
  | 0, pass, _, _, _ => pass
  | mismatches + 1, pass, scratch, candidate, other =>
    let (scratch, other) := readAll cfg (images pass) baseUnit units scratch other
    if candidate.read 0 totalLen = other.read 0 totalLen then pass + 1
    else
      stabilisePasses cfg images baseUnit units totalLen mismatches (pass + 1) scratch
        (candidate.write 0 (other.read 0 (units * maxChunkValueBytes))) other

/-- The passes of a read of a value. -/
def valueReadPasses (cfg : RuntimeConfig) (images : Nat → Banks) (valueByteOff totalLen : Nat)
    (into : ByteMemory) : Nat :=
  let baseUnit := valueByteOff / maxChunkValueBytes
  let units := chunkCountFor totalLen
  let (scratch, candidate) := readAll cfg (images 0) baseUnit units (fun _ => 0) into
  stabilisePasses cfg images baseUnit units totalLen valueReadMaxMismatches 1 scratch candidate
    fun _ => 0

/-- How the loop ends when it goes on from a pass, with the image it leaves: two passes agree
on the value, or every pass differs from the one before. -/
inductive Ends (image : Nat → List UInt8) (totalLen mismatches pass last : Nat)
    (result : List UInt8) : Prop where
  | agreed (some : pass < last) (few : last ≤ pass + mismatches)
      (differ : ∀ later, pass ≤ later → later + 1 < last →
        (image (later - 1)).take totalLen ≠ (image later).take totalLen)
      (agree : (image (last - 2)).take totalLen = (image (last - 1)).take totalLen)
      (kept : result = image (last - 2))
  | exhausted (all : last = pass + mismatches)
      (differ : ∀ later, pass ≤ later → later < last →
        (image (later - 1)).take totalLen ≠ (image later).take totalLen)
      (kept : result = image (last - 1))

/-- One more pass that differs. -/
theorem Ends.before {image : Nat → List UInt8} {mismatches pass last : Nat} {result : List UInt8}
    (ends : Ends image totalLen mismatches (pass + 1) last result)
    (mismatch : (image (pass - 1)).take totalLen ≠ (image pass).take totalLen) :
    Ends image totalLen (mismatches + 1) pass last result := by
  cases ends with
  | agreed some few differ agree kept =>
    refine .agreed (Nat.lt_of_succ_lt some) (by omega) ?_ agree kept
    intro later after before
    obtain rfl | beyond := Nat.eq_or_lt_of_le after
    · exact mismatch
    · exact differ later beyond before
  | exhausted all differ kept =>
    refine .exhausted (by omega) ?_ kept
    intro later after before
    obtain rfl | beyond := Nat.eq_or_lt_of_le after
    · exact mismatch
    · exact differ later beyond before

/-- The loop ends with one of the passes in the candidate buffer.

Proof: by induction on the mismatches left. The candidate buffer holds the pass before the
one that is made next. -/
theorem stabilise_spec (enough : totalLen ≤ units * maxChunkValueBytes) (mismatches : Nat)
    (pass : Nat) (scratch candidate other : ByteMemory)
    (holds : candidate.read 0 (units * maxChunkValueBytes) =
      passImage cfg images baseUnit units (pass - 1)) :
    Ends (passImage cfg images baseUnit units) totalLen mismatches pass
        (stabilisePasses cfg images baseUnit units totalLen mismatches pass scratch candidate other)
        ((stabilise cfg images baseUnit units totalLen mismatches pass scratch candidate
          other).read 0 (units * maxChunkValueBytes)) ∧
      ∀ position ≥ units * maxChunkValueBytes,
        stabilise cfg images baseUnit units totalLen mismatches pass scratch candidate other
          position = candidate position := by
  induction mismatches generalizing pass scratch candidate other with
  | zero =>
    refine ⟨.exhausted rfl ?_ holds, fun _ _ => rfl⟩
    intro later after before
    exact absurd before (Nat.not_lt.mpr after)
  | succ mismatches inductionHypothesis =>
    have next : (readAll cfg (images pass) baseUnit units scratch other).2.read 0
        (units * maxChunkValueBytes) = passImage cfg images baseUnit units pass :=
      readAll_image pass scratch other
    unfold stabilise stabilisePasses
    generalize readAll cfg (images pass) baseUnit units scratch other = read at next ⊢
    have values : candidate.read 0 totalLen = read.2.read 0 totalLen ↔
        (passImage cfg images baseUnit units (pass - 1)).take totalLen =
          (passImage cfg images baseUnit units pass).take totalLen := by
      rw [← next, ← holds, take_read _ enough, take_read _ enough]
    dsimp only
    by_cases agree : candidate.read 0 totalLen = read.2.read 0 totalLen
    · rw [if_pos agree, if_pos agree]
      refine ⟨.agreed (Nat.lt_succ_self pass) (by omega) ?_ (values.mp agree) holds, fun _ _ => rfl⟩
      intro later after before
      omega
    · rw [if_neg agree, if_neg agree, next]
      have copied : (candidate.write 0 (passImage cfg images baseUnit units pass)).read 0
          (units * maxChunkValueBytes) = passImage cfg images baseUnit units pass := by
        rw [← next]
        exact read_write_block candidate read.2 _
      obtain ⟨ends, behind⟩ := inductionHypothesis (pass + 1) read.1 _ read.2 copied
      refine ⟨ends.before fun same => agree (values.mpr same), ?_⟩
      intro position after
      rw [behind position after, ← next, ByteMemory.write_read_apply, if_neg (by omega)]

/-- A read of a value is a read of one of the passes it makes, and it makes at most 102: two
that agree on the value, or as many as there are.

Proof: every mismatch costs one pass, and 101 are allowed after the first. -/
theorem read_stable (cfg : RuntimeConfig) (images : Nat → Banks) (valueByteOff totalLen : Nat)
    (into : ByteMemory) :
    let units := chunkCountFor totalLen
    let image := passImage cfg images (valueByteOff / maxChunkValueBytes) units
    let passes := valueReadPasses cfg images valueByteOff totalLen into
    let result := readValueUnitsInto cfg images valueByteOff totalLen into
    passes ≤ 102 ∧
      (((image (passes - 2)).take totalLen = (image (passes - 1)).take totalLen ∧
          2 ≤ passes ∧ result.read 0 totalLen = (image (passes - 2)).take totalLen ∧
          result.read 0 totalLen = (image (passes - 1)).take totalLen) ∨
        ((∀ pass < 101, (image pass).take totalLen ≠ (image (pass + 1)).take totalLen) ∧
          passes = 102 ∧ result.read 0 (units * maxChunkValueBytes) = image (passes - 1))) ∧
      (∃ pass < passes, result.read 0 totalLen = (image pass).take totalLen) ∧
      ∀ position ≥ units * maxChunkValueBytes, result position = into position := by
  intro units image passes result
  have enough : totalLen ≤ units * maxChunkValueBytes := le_chunkCountFor_mul totalLen
  let first := readAll cfg (images 0) (valueByteOff / maxChunkValueBytes) units (fun _ => 0) into
  have holds : first.2.read 0 (units * maxChunkValueBytes) = image 0 := readAll_image 0 _ into
  obtain ⟨ends, behind⟩ := stabilise_spec enough valueReadMaxMismatches 1 first.1 first.2
    (fun _ => 0) holds
  have made : passes = stabilisePasses cfg images (valueByteOff / maxChunkValueBytes) units totalLen
      valueReadMaxMismatches 1 first.1 first.2 (fun _ => 0) := rfl
  have returned : result = stabilise cfg images (valueByteOff / maxChunkValueBytes) units totalLen
      valueReadMaxMismatches 1 first.1 first.2 (fun _ => 0) := by
    simp only [result, readValueUnitsInto]
    rfl
  rw [← made, ← returned] at ends
  rw [← returned] at behind
  have bound : valueReadMaxMismatches = 101 := rfl
  have unchanged : ∀ position ≥ units * maxChunkValueBytes, result position = into position := by
    intro position after
    exact (behind position after).trans (readAll_behind _ _ _ after)
  have value : ∀ pass, result.read 0 (units * maxChunkValueBytes) = image pass →
      result.read 0 totalLen = (image pass).take totalLen := by
    intro pass kept
    rw [← take_read result enough, kept]
  cases ends with
  | agreed some few differ agree kept =>
    have older := value _ kept
    exact ⟨by omega, .inl ⟨agree, some, older, older.trans agree⟩,
      ⟨passes - 2, by omega, older⟩, unchanged⟩
  | exhausted all differ kept =>
    refine ⟨by omega, .inr ⟨fun pass less => ?_, by omega, kept⟩,
      ⟨passes - 1, by omega, value _ kept⟩, unchanged⟩
    exact differ (pass + 1) (Nat.le_add_left ..) (by omega)

/-! ## Round trips -/

/-- The bytes of a value in the pages of its units. -/
theorem pageByte_value {bytes : List UInt8} (length : bytes.length = totalLen) {unit offset : Nat}
    (inside : unit * maxChunkValueBytes + offset < totalLen) (short : offset < maxChunkValueBytes) :
    pageByte bytes totalLen unit offset = bytes[unit * maxChunkValueBytes + offset] := by
  unfold pageByte unitBytes
  rw [List.getElem?_take_of_lt (by omega), List.getElem?_drop, List.getElem?_eq_getElem]
  rfl

/-- Where a pass finds a unit is where it was written. -/
theorem passAddress_eq {unit : Nat} (inside : unit < units) :
    cfg.passAddress baseUnit units unit = cfg.stretchAddress baseUnit unit := by
  unfold RuntimeConfig.passAddress RuntimeConfig.stretchAddress
  split
  · rfl
  · next short =>
    have row : unit < cfg.numBanks := by omega
    rw [Nat.mod_eq_of_lt row, Nat.div_eq_of_lt row, Nat.zero_mul, Nat.add_zero]

/-- A pass over a value that was written brings the value. -/
theorem readAll_written {fill : Nat → List UInt8 → ByteMemory → ByteMemory}
    (fills : Fills cfg fill) {bytes : List UInt8} {valueByteOff : Nat}
    (length : bytes.length = totalLen) (banks : Banks) (scratch into : ByteMemory) :
    (readAll cfg (applyWrites banks (bankWrites cfg fill bytes valueByteOff totalLen))
      (valueByteOff / maxChunkValueBytes) (chunkCountFor totalLen) scratch into).2.read 0 totalLen =
        bytes := by
  apply List.ext_getElem
  · rw [ByteMemory.length_read, length]
  · intro position less _
    rw [ByteMemory.length_read] at less
    have enough := le_chunkCountFor_mul totalLen
    have short := Nat.mod_lt position maxChunkValueBytes_pos
    have split := Nat.div_add_mod' position maxChunkValueBytes
    have unit : position / maxChunkValueBytes < chunkCountFor totalLen :=
      Nat.div_lt_of_lt_mul (by rw [Nat.mul_comm]; omega)
    have paged := cfg.paged
    simp only [ByteMemory.read, List.getElem_map, List.getElem_range, Nat.zero_add]
    have brought : (readAll cfg (applyWrites banks (bankWrites cfg fill bytes valueByteOff totalLen))
        (valueByteOff / maxChunkValueBytes) (chunkCountFor totalLen) scratch into).2
        (position / maxChunkValueBytes * maxChunkValueBytes + position % maxChunkValueBytes) = _ :=
      readAll_apply _ _ _ _ _ _ short
    rw [if_pos unit, passAddress_eq unit, written_page fills bytes valueByteOff totalLen banks unit
      (by omega), pageByte_value length (by omega) short] at brought
    simpa only [split] using brought

/-- A value that was written is read back, however the scratch buffers were left. -/
theorem read_written {fill : Nat → List UInt8 → ByteMemory → ByteMemory}
    (fills : Fills cfg fill) {bytes : List UInt8} {valueByteOff : Nat}
    (length : bytes.length = totalLen) (banks : Banks) (into : ByteMemory) :
    (readValueUnitsInto cfg
      (fun _ => applyWrites banks (bankWrites cfg fill bytes valueByteOff totalLen))
      valueByteOff totalLen into).read 0 totalLen = bytes := by
  obtain ⟨-, -, ⟨pass, -, kept⟩, -⟩ := read_stable cfg
    (fun _ => applyWrites banks (bankWrites cfg fill bytes valueByteOff totalLen)) valueByteOff
    totalLen into
  rw [kept, passImage, take_read _ (le_chunkCountFor_mul totalLen)]
  exact readAll_written fills length banks _ _

/-- The device can answer the passes with any images. -/
theorem passImage_any (cfg : RuntimeConfig) (baseUnit units : Nat) (pictures : Nat → List UInt8)
    (sized : ∀ pass, (pictures pass).length = units * maxChunkValueBytes) :
    ∃ images : Nat → Banks, ∀ pass, passImage cfg images baseUnit units pass = pictures pass := by
  have whole : chunkCountFor (units * maxChunkValueBytes) = units := by
    unfold chunkCountFor maxChunkValueBytes
    split <;> omega
  have origin : baseUnit * maxChunkValueBytes / maxChunkValueBytes = baseUnit :=
    Nat.mul_div_cancel _ maxChunkValueBytes_pos
  refine ⟨fun pass => applyWrites (fun _ _ => 0) (bankWrites cfg (External.fillPage cfg)
    (pictures pass) (baseUnit * maxChunkValueBytes) (units * maxChunkValueBytes)), ?_⟩
  intro pass
  have fills : Fills cfg (External.fillPage cfg) := external_fills
  have written := @readAll_written cfg _ _ fills _ (baseUnit * maxChunkValueBytes) (sized pass)
    (fun _ _ => 0) (fun _ => 0) fun _ => 0
  rw [whole, origin] at written
  exact written

/-- Pages of the scratch buffer for one bank. -/
def RuntimeConfig.maxPagesPerBank (cfg : RuntimeConfig) (units : Nat) : Nat :=
  (units + cfg.numBanks - 1) / cfg.numBanks

/-- Gathering the units of a bank leaves the scratch buffer behind its pages. -/
theorem gatherLoop_behind {fill : Nat → List UInt8 → ByteMemory → ByteMemory}
    (fills : Fills cfg fill) (bytes : List UInt8) {start position : Nat} (some : start < units)
    (scratch : ByteMemory) (behind : cfg.maxPagesPerBank units * cfg.alignedPage ≤ position) :
    (gatherLoop cfg fill bytes totalLen units units start 0 scratch).2 position =
      scratch position := by
  have few : cfg.pageCount units start * cfg.alignedPage ≤
      cfg.maxPagesPerBank units * cfg.alignedPage :=
    Nat.mul_le_mul_right _ (count_le cfg.banked some)
  rw [gatherLoop_eq bytes totalLen some]
  dsimp only
  rw [gatherPages_apply fills, if_neg (by omega)]

/-- Transfers bank by bank are the identity on values. The two ways to read agree; what
either worker writes is read back; only the pages of the units of the value change; and a
bank never needs more pages than the scratch buffer has.

Proof: the units of a value are those of the stretches of its banks, each once, and a
stretch takes consecutive rows of its bank. -/
theorem bank_transfers (addressable : cfg.Addressable) {valueByteOff : Nat}
    (inside : valueByteOff / maxChunkValueBytes + chunkCountFor totalLen ≤ cfg.heapUnits)
    {bytes : List UInt8} (length : bytes.length = totalLen) :
    let baseUnit := valueByteOff / maxChunkValueBytes
    let units := chunkCountFor totalLen
    (∀ banks scratch into, (readBanks cfg banks baseUnit units scratch into).2 =
      readUnits cfg banks baseUnit units into) ∧
    ∀ fill ∈ [Internal.fillPage cfg, External.fillPage cfg],
      (∀ banks into, (readValueUnitsInto cfg
        (fun _ => applyWrites banks (loopWrites cfg fill bytes valueByteOff totalLen))
        valueByteOff totalLen into).read 0 totalLen = bytes) ∧
      (∀ banks, ∀ bank < cfg.numBanks, ∀ address,
        (∀ unit < units, (baseUnit + unit) % cfg.numBanks = bank →
          address < cfg.pageAddress (baseUnit + unit) ∨
            cfg.pageAddress (baseUnit + unit) + cfg.alignedPage ≤ address) →
        applyWrites banks (loopWrites cfg fill bytes valueByteOff totalLen) bank address =
          banks bank address) ∧
      ∀ bank < cfg.numBanks, cfg.firstUnit baseUnit bank < units →
        let pages := cfg.pageCount units (cfg.firstUnit baseUnit bank)
        pages ≤ cfg.maxPagesPerBank units ∧
        (∀ page < pages, page * cfg.alignedPage + maxChunkValueBytes ≤
          cfg.maxPagesPerBank units * cfg.alignedPage) ∧
        ∀ scratch,
          (gatherLoop cfg fill bytes totalLen units units (cfg.firstUnit baseUnit bank) 0
            scratch).1 = pages ∧
          ∀ position ≥ cfg.maxPagesPerBank units * cfg.alignedPage,
            (gatherLoop cfg fill bytes totalLen units units (cfg.firstUnit baseUnit bank) 0
              scratch).2 position = scratch position := by
  intro baseUnit units
  refine ⟨fun banks scratch into => readBanks_eq addressable inside banks scratch into, ?_⟩
  intro fill listed
  have fills : Fills cfg fill := by
    simp only [List.mem_cons, List.not_mem_nil, or_false] at listed
    obtain rfl | rfl := listed
    · exact internal_fills
    · exact external_fills
  rw [loopWrites_eq]
  refine ⟨fun banks into => read_written fills length banks into, ?_, ?_⟩
  · intro banks bank bounded address outside
    apply written_other fills bytes valueByteOff totalLen banks bounded
    intro unit less lies
    rw [stretchAddress_eq addressable (by omega)]
    exact outside unit less lies
  · intro bank bounded some pages
    have few : pages ≤ cfg.maxPagesPerBank units := count_le cfg.banked some
    have paged := cfg.paged
    refine ⟨few, ?_, ?_⟩
    · intro page less
      have rows := Nat.mul_le_mul_right cfg.alignedPage ((Nat.succ_le_of_lt less).trans few)
      rw [Nat.succ_mul] at rows
      omega
    · intro scratch
      exact ⟨congrArg Prod.fst (gatherLoop_eq bytes totalLen some scratch),
        fun position behind => gatherLoop_behind fills bytes some scratch behind⟩

theorem threeBanks_some : 0 < 3 := by decide

/-- A heap of seven units over three banks with pages of 4320 bytes. -/
def threeBanks : RuntimeConfig where
  maxKeys := 1
  maxKeyLen := 1
  maxValueBytes := 5 * maxChunkValueBytes
  valueHeapBytes := 7 * maxChunkValueBytes
  stageNocOk := false
  poolHost := false
  poolReadOff := 0
  poolUnitsTotal := 0
  numBanks := 3
  alignedPage := 4320
  base := 64
  keyFits := by decide
  banked := threeBanks_some
  paged := by decide
  poolMapped := by decide
  poolPast := by decide

/-- A value of four whole units and one byte, written from the third unit of the heap on. -/
theorem bank_transfers_three : threeBanks.Addressable ∧
    ∀ banks into, (readValueUnitsInto threeBanks
      (fun _ => applyWrites banks (loopWrites threeBanks (External.fillPage threeBanks)
        (List.replicate (4 * maxChunkValueBytes + 1) 7) (2 * maxChunkValueBytes)
        (4 * maxChunkValueBytes + 1)))
      (2 * maxChunkValueBytes) (4 * maxChunkValueBytes + 1) into).read 0
        (4 * maxChunkValueBytes + 1) = List.replicate (4 * maxChunkValueBytes + 1) 7 := by
  have addressable : threeBanks.Addressable := by
    unfold RuntimeConfig.Addressable
    decide
  obtain ⟨-, transfers⟩ := @bank_transfers threeBanks (4 * maxChunkValueBytes + 1) addressable
    (2 * maxChunkValueBytes) (by decide) (List.replicate (4 * maxChunkValueBytes + 1) 7)
    (List.length_replicate ..)
  exact ⟨addressable, (transfers _ (by simp)).1⟩

end KvCache.HostTransfer
