import KvCache.Foundation.Interleaved
import KvCache.Host.WorkerSupply

/-!
# Values over the banks

A pass reads a value unit by unit or bank by bank; a transfer of a bank is scattered to
every unit of the value that lies in it. Writing gathers the units of a bank into
consecutive pages. The first unit of a bank, the number of its pages and the address of the
first one are computed apart in each of the three loops.

Every unit of the value gets its page once. The two ways to read agree, and a value that is
written is read back, as long as the heap lies in the address space of the banks.
-/

namespace KvCache.HostTransfer

open Layout Interleaved

variable {cfg : RuntimeConfig}

/-! ## Addresses -/

/-- Units of the heap. -/
def RuntimeConfig.heapUnits (cfg : RuntimeConfig) : Nat := cfg.valueHeapBytes / maxChunkValueBytes

/-- The pages of the heap lie in the 32-bit address space of a bank. -/
def RuntimeConfig.Addressable (cfg : RuntimeConfig) : Prop :=
  cfg.base + (cfg.heapUnits + cfg.numBanks - 1) / cfg.numBanks * cfg.alignedPage ≤ 2 ^ 32

/-- The first unit of a value in a bank, as in the run of its units. -/
theorem firstUnit_eq (baseUnit bank : Nat) :
    cfg.firstUnit baseUnit bank = first cfg.numBanks baseUnit bank := rfl

theorem pageCount_eq (units start : Nat) :
    cfg.pageCount units start = count cfg.numBanks units start := rfl

/-- The row of a unit of the heap is a row of the banks. -/
theorem row_lt {unit : Nat} (inside : unit < cfg.heapUnits) :
    unit / cfg.numBanks + 1 ≤ (cfg.heapUnits + cfg.numBanks - 1) / cfg.numBanks := by
  have split := Nat.div_mul_le_self unit cfg.numBanks
  have some := cfg.banked
  rw [Nat.le_div_iff_mul_le some, Nat.add_mul, Nat.one_mul]
  omega

/-- The page of a unit of the heap ends in the address space. -/
theorem page_fits (addressable : cfg.Addressable) {unit : Nat} (inside : unit < cfg.heapUnits) :
    cfg.base + unit / cfg.numBanks * cfg.alignedPage + cfg.alignedPage ≤ 2 ^ 32 := by
  have rows := Nat.mul_le_mul_right cfg.alignedPage (row_lt inside)
  rw [Nat.add_mul, Nat.one_mul] at rows
  unfold RuntimeConfig.Addressable at addressable
  omega

/-- The address of the page of a unit of the heap does not wrap. -/
theorem pageAddress_eq (addressable : cfg.Addressable) {unit : Nat}
    (inside : unit < cfg.heapUnits) :
    cfg.pageAddress unit = cfg.base + unit / cfg.numBanks * cfg.alignedPage := by
  have fits := page_fits addressable inside
  have page : 0 < cfg.alignedPage := maxChunkValueBytes_pos.trans_le cfg.paged
  exact Nat.mod_eq_of_lt (by omega)

/-- The address of a unit of a value, counted from the page of the first unit in its bank. -/
def RuntimeConfig.stretchAddress (cfg : RuntimeConfig) (baseUnit unit : Nat) : Nat :=
  cfg.pageAddress (baseUnit + unit % cfg.numBanks) + unit / cfg.numBanks * cfg.alignedPage

/-- The pages of a bank follow one another: a unit lies in the transfer of its bank where it
lies by itself. -/
theorem stretchAddress_eq (addressable : cfg.Addressable) {baseUnit unit : Nat}
    (inside : baseUnit + unit < cfg.heapUnits) :
    cfg.stretchAddress baseUnit unit = cfg.pageAddress (baseUnit + unit) := by
  have least : baseUnit + unit % cfg.numBanks < cfg.heapUnits := by
    have := Nat.mod_le unit cfg.numBanks
    omega
  have row : (baseUnit + (unit % cfg.numBanks + unit / cfg.numBanks * cfg.numBanks)) /
      cfg.numBanks = (baseUnit + unit % cfg.numBanks) / cfg.numBanks + unit / cfg.numBanks :=
    row_of_round cfg.banked _ _
  rw [Nat.mod_add_div'] at row
  rw [RuntimeConfig.stretchAddress, pageAddress_eq addressable least,
    pageAddress_eq addressable inside, row, Nat.add_mul, Nat.add_assoc]

/-! ## Reading -/

/-- A byte lies in a unit at an offset in one way. -/
theorem in_unit {unit other offset : Nat} (inside : offset < maxChunkValueBytes) :
    (other * maxChunkValueBytes ≤ unit * maxChunkValueBytes + offset ∧
      unit * maxChunkValueBytes + offset < other * maxChunkValueBytes + maxChunkValueBytes) ↔
        unit = other := by
  unfold maxChunkValueBytes at *
  omega

/-- Copying a unit from a memory. -/
theorem write_unit (into source : ByteMemory) (other origin unit : Nat) {offset : Nat}
    (inside : offset < maxChunkValueBytes) :
    into.write (other * maxChunkValueBytes) (source.read origin maxChunkValueBytes)
        (unit * maxChunkValueBytes + offset) =
      if unit = other then source (origin + offset)
      else into (unit * maxChunkValueBytes + offset) := by
  rw [ByteMemory.write_read_apply]
  by_cases same : unit = other
  · rw [if_pos same, if_pos ((in_unit inside).mpr same), same, Nat.add_sub_cancel_left]
  · rw [if_neg same, if_neg fun range => same ((in_unit inside).mp range)]

/-- Unit by unit, every byte comes from the page of its unit. -/
theorem readUnits_apply (banks : Banks) (baseUnit units : Nat) (into : ByteMemory)
    (unit : Nat) {offset : Nat} (inside : offset < maxChunkValueBytes) :
    readUnits cfg banks baseUnit units into (unit * maxChunkValueBytes + offset) =
      if unit < units then
        banks ((baseUnit + unit) % cfg.numBanks) (cfg.pageAddress (baseUnit + unit) + offset)
      else into (unit * maxChunkValueBytes + offset) := by
  induction units with
  | zero => rfl
  | succ units inductionHypothesis =>
    unfold readUnits at *
    rw [List.range_succ, List.foldl_append, List.foldl_cons, List.foldl_nil,
      write_unit _ _ _ _ _ inside]
    by_cases last : unit = units
    · rw [if_pos last, if_pos (by omega), last]
    · rw [if_neg last, inductionHypothesis]
      congr 1
      exact propext ⟨fun less => by omega, fun less => by omega⟩

/-- Scattering fills the units of the stretch that starts at one of the first units. -/
theorem scatterPages_apply {start : Nat} (first : start < cfg.numBanks) (pages : Nat)
    (scratch into : ByteMemory) (unit : Nat) {offset : Nat} (inside : offset < maxChunkValueBytes) :
    scatterPages cfg start pages scratch into (unit * maxChunkValueBytes + offset) =
      if unit % cfg.numBanks = start ∧ unit / cfg.numBanks < pages then
        scratch (unit / cfg.numBanks * cfg.alignedPage + offset)
      else into (unit * maxChunkValueBytes + offset) := by
  induction pages with
  | zero => simp [scatterPages]
  | succ pages inductionHypothesis =>
    unfold scatterPages at *
    rw [List.range_succ, List.foldl_append, List.foldl_cons, List.foldl_nil,
      write_unit _ _ _ _ _ inside]
    have split := Nat.mod_add_div' unit cfg.numBanks
    by_cases last : unit = start + pages * cfg.numBanks
    · have remainder : unit % cfg.numBanks = start := by
        rw [last, Nat.add_mul_mod_self_right, Nat.mod_eq_of_lt first]
      have quotient : unit / cfg.numBanks = pages := by
        rw [last, Nat.add_mul_div_right _ _ cfg.banked, Nat.div_eq_of_lt first, Nat.zero_add]
      rw [if_pos last, if_pos ⟨remainder, by omega⟩, quotient]
    · rw [if_neg last, inductionHypothesis]
      congr 1
      apply propext
      constructor
      · exact fun ⟨remainder, earlier⟩ => ⟨remainder, Nat.lt_succ_of_lt earlier⟩
      · rintro ⟨remainder, earlier⟩
        refine ⟨remainder, Nat.lt_of_le_of_ne (Nat.le_of_lt_succ earlier) fun same => last ?_⟩
        rw [← same, ← remainder, split]

/-- The transfer of one bank brings the units of that bank. -/
theorem scatterPages_bank (banks : Banks) (baseUnit units : Nat) {bank : Nat}
    (inside : bank < cfg.numBanks) (some : cfg.firstUnit baseUnit bank < units)
    (scratch into : ByteMemory) (unit : Nat) {offset : Nat} (short : offset < maxChunkValueBytes) :
    let start := cfg.firstUnit baseUnit bank
    let pages := cfg.pageCount units start
    scatterPages cfg start pages (scratch.write 0 ((banks bank).read
        (cfg.pageAddress (baseUnit + start)) (pages * cfg.alignedPage))) into
        (unit * maxChunkValueBytes + offset) =
      if unit < units ∧ (baseUnit + unit) % cfg.numBanks = bank then
        banks bank (cfg.stretchAddress baseUnit unit + offset)
      else into (unit * maxChunkValueBytes + offset) := by
  intro start pages
  have low : start < cfg.numBanks := first_lt cfg.banked
  have split := Nat.mod_add_div' unit cfg.numBanks
  have same : unit % cfg.numBanks = start ↔ (baseUnit + unit) % cfg.numBanks = bank := by
    constructor
    · intro remainder
      rw [← split, remainder]
      exact bank_of_round inside _
    · intro lies
      rw [← first_of_unit cfg.banked, lies]
      rfl
  have listed : unit % cfg.numBanks = start →
      (unit / cfg.numBanks < pages ↔ unit < units) := by
    intro remainder
    have counted : unit / cfg.numBanks < pages ↔ start + unit / cfg.numBanks * cfg.numBanks < units :=
      round_lt_count cfg.banked some _
    rw [counted, ← remainder, split]
  rw [scatterPages_apply low _ _ _ _ short]
  by_cases lies : unit % cfg.numBanks = start ∧ unit / cfg.numBanks < pages
  · have page : unit / cfg.numBanks * cfg.alignedPage + offset < pages * cfg.alignedPage := by
      have rows := Nat.mul_le_mul_right cfg.alignedPage (Nat.succ_le_of_lt lies.2)
      have paged := cfg.paged
      rw [Nat.succ_mul] at rows
      omega
    rw [if_pos lies, if_pos ⟨(listed lies.1).mp lies.2, same.mp lies.1⟩,
      ByteMemory.write_read_apply, if_pos ⟨Nat.zero_le _, by omega⟩,
      RuntimeConfig.stretchAddress, lies.1]
    congr 1
    omega
  · rw [if_neg lies, if_neg]
    rintro ⟨less, bank⟩
    exact lies ⟨same.mpr bank, (listed (same.mpr bank)).mpr less⟩

/-- Bank by bank, every byte comes from the stretch of its bank. -/
theorem readBanks_apply (banks : Banks) (baseUnit units : Nat) (scratch into : ByteMemory)
    (unit : Nat) {offset : Nat} (inside : offset < maxChunkValueBytes) :
    (readBanks cfg banks baseUnit units scratch into).2 (unit * maxChunkValueBytes + offset) =
      if unit < units then
        banks ((baseUnit + unit) % cfg.numBanks) (cfg.stretchAddress baseUnit unit + offset)
      else into (unit * maxChunkValueBytes + offset) := by
  -- The banks visited so far have brought their units.
  have visited : ∀ bound ≤ cfg.numBanks,
      ((List.range bound).foldl (fun state bank =>
        let first := cfg.firstUnit baseUnit bank
        if units ≤ first then state
        else
          let pages := cfg.pageCount units first
          let scratch := state.1.write 0
            ((banks bank).read (cfg.pageAddress (baseUnit + first)) (pages * cfg.alignedPage))
          (scratch, scatterPages cfg first pages scratch state.2)) (scratch, into)).2
          (unit * maxChunkValueBytes + offset) =
        if unit < units ∧ (baseUnit + unit) % cfg.numBanks < bound then
          banks ((baseUnit + unit) % cfg.numBanks) (cfg.stretchAddress baseUnit unit + offset)
        else into (unit * maxChunkValueBytes + offset) := by
    intro bound
    induction bound with
    | zero => simp
    | succ bound inductionHypothesis =>
      intro bounded
      have earlier := inductionHypothesis (Nat.le_of_succ_le bounded)
      rw [List.range_succ, List.foldl_append, List.foldl_cons, List.foldl_nil]
      generalize (List.range bound).foldl _ (scratch, into) = state at earlier ⊢
      dsimp only
      split
      · next none =>
        rw [earlier]
        congr 1
        apply propext
        constructor
        · rintro ⟨less, before⟩
          exact ⟨less, Nat.lt_succ_of_lt before⟩
        · rintro ⟨less, before⟩
          refine ⟨less, Nat.lt_of_le_of_ne (Nat.le_of_lt_succ before) fun last => ?_⟩
          -- A unit in the bank that is left out would begin its stretch.
          have start : cfg.firstUnit baseUnit bound = unit % cfg.numBanks := by
            rw [← last]
            exact first_of_unit cfg.banked unit
          have := Nat.mod_le unit cfg.numBanks
          omega
      · next some =>
        refine (scatterPages_bank banks baseUnit units bounded (Nat.not_le.mp some) state.1 state.2
          unit inside).trans ?_
        by_cases here : unit < units ∧ (baseUnit + unit) % cfg.numBanks = bound
        · rw [if_pos here, if_pos ⟨here.1, by omega⟩, here.2]
        · rw [if_neg here, earlier]
          congr 1
          apply propext
          constructor
          · rintro ⟨less, before⟩
            exact ⟨less, Nat.lt_succ_of_lt before⟩
          · rintro ⟨less, before⟩
            exact ⟨less, Nat.lt_of_le_of_ne (Nat.le_of_lt_succ before)
              fun last => here ⟨less, last⟩⟩
  have all := visited cfg.numBanks le_rfl
  have lies := Nat.mod_lt (baseUnit + unit) cfg.banked
  simp only [lies, and_true] at all
  exact all

/-- Where a pass finds a unit of a value. -/
def RuntimeConfig.passAddress (cfg : RuntimeConfig) (baseUnit units unit : Nat) : Nat :=
  if cfg.numBanks < units then cfg.stretchAddress baseUnit unit
  else cfg.pageAddress (baseUnit + unit)

/-- A pass brings every unit of the value and leaves the bytes after them. -/
theorem readAll_apply (banks : Banks) (baseUnit units : Nat) (scratch into : ByteMemory)
    (unit : Nat) {offset : Nat} (inside : offset < maxChunkValueBytes) :
    (readAll cfg banks baseUnit units scratch into).2 (unit * maxChunkValueBytes + offset) =
      if unit < units then
        banks ((baseUnit + unit) % cfg.numBanks) (cfg.passAddress baseUnit units unit + offset)
      else into (unit * maxChunkValueBytes + offset) := by
  unfold readAll RuntimeConfig.passAddress
  split
  · exact readBanks_apply banks baseUnit units scratch into unit inside
  · exact readUnits_apply banks baseUnit units into unit inside

/-- The two ways to read a value of the heap leave the same image. -/
theorem readBanks_eq (addressable : cfg.Addressable) {baseUnit units : Nat}
    (inside : baseUnit + units ≤ cfg.heapUnits) (banks : Banks) (scratch into : ByteMemory) :
    (readBanks cfg banks baseUnit units scratch into).2 =
      readUnits cfg banks baseUnit units into := by
  funext position
  have split := Nat.div_add_mod' position maxChunkValueBytes
  have short := Nat.mod_lt position maxChunkValueBytes_pos
  rw [← split, readBanks_apply _ _ _ _ _ _ short, readUnits_apply _ _ _ _ _ short]
  split
  · rw [stretchAddress_eq addressable (by omega)]
  · rfl

/-! ## Gathering -/

/-- The bytes of a unit of a value. -/
def unitBytes (bytes : List UInt8) (totalLen unit : Nat) : List UInt8 :=
  (bytes.drop (unit * maxChunkValueBytes)).take
    (min maxChunkValueBytes (totalLen - unit * maxChunkValueBytes))

theorem length_unitBytes_le (bytes : List UInt8) (totalLen unit : Nat) :
    (unitBytes bytes totalLen unit).length ≤ maxChunkValueBytes :=
  (List.length_take_le _ _).trans (Nat.min_le_left _ _)

/-- What the page of a unit holds: the unit and zeros. -/
def pageByte (bytes : List UInt8) (totalLen unit offset : Nat) : UInt8 :=
  ((unitBytes bytes totalLen unit)[offset]?).getD 0

/-- A way to fill a page with a unit and zeros. -/
def Fills (cfg : RuntimeConfig) (fill : Nat → List UInt8 → ByteMemory → ByteMemory) : Prop :=
  ∀ offset unit scratch position, unit.length ≤ maxChunkValueBytes →
    fill offset unit scratch position =
      if offset ≤ position ∧ position < offset + cfg.alignedPage then
        (unit[position - offset]?).getD 0
      else scratch position

/-- The manager of the host clears the rest of the page. -/
theorem external_fills : Fills cfg (External.fillPage cfg) := by
  intro offset unit scratch position short
  have paged := cfg.paged
  simp only [External.fillPage, ByteMemory.clear, ByteMemory.write]
  by_cases page : offset ≤ position ∧ position < offset + cfg.alignedPage
  · rw [if_pos page]
    by_cases rest : offset + unit.length ≤ position
    · rw [if_pos ⟨rest, page.2⟩, List.getElem?_eq_none (by omega)]
      rfl
    · have inside : position - offset < unit.length := by omega
      rw [if_neg fun range => rest range.1, if_pos page.1, List.getElem?_eq_getElem inside]
      rfl
  · rw [if_neg page, if_neg fun range => page ⟨by omega, range.2⟩]
    split
    · rw [List.getElem?_eq_none (by omega)]
      rfl
    · rfl

/-- So does the internal worker where a rest is left. -/
theorem internal_fills : Fills cfg (Internal.fillPage cfg) := by
  intro offset unit scratch position short
  rw [fillPage_same offset unit scratch short]
  exact external_fills offset unit scratch position short

variable {fill : Nat → List UInt8 → ByteMemory → ByteMemory}

theorem gatherPages_succ (bytes : List UInt8) (totalLen start pages : Nat)
    (scratch : ByteMemory) :
    gatherPages cfg fill bytes totalLen start (pages + 1) scratch =
      fill (pages * cfg.alignedPage) (unitBytes bytes totalLen (start + pages * cfg.numBanks))
        (gatherPages cfg fill bytes totalLen start pages scratch) := by
  unfold gatherPages
  rw [List.range_succ, List.foldl_append]
  rfl

/-- The pages of a bank hold the units of its stretch. -/
theorem gatherPages_apply (fills : Fills cfg fill) (bytes : List UInt8)
    (totalLen start pages : Nat) (scratch : ByteMemory) (position : Nat) :
    gatherPages cfg fill bytes totalLen start pages scratch position =
      if position < pages * cfg.alignedPage then
        pageByte bytes totalLen (start + position / cfg.alignedPage * cfg.numBanks)
          (position % cfg.alignedPage)
      else scratch position := by
  have page : 0 < cfg.alignedPage := maxChunkValueBytes_pos.trans_le cfg.paged
  induction pages with
  | zero => simp [gatherPages]
  | succ pages inductionHypothesis =>
    rw [gatherPages_succ, fills _ _ _ _ (length_unitBytes_le bytes totalLen _),
      inductionHypothesis, Nat.succ_mul]
    by_cases last : pages * cfg.alignedPage ≤ position ∧
        position < pages * cfg.alignedPage + cfg.alignedPage
    · obtain ⟨offset, rfl⟩ := Nat.exists_eq_add_of_le last.1
      have short : offset < cfg.alignedPage := by omega
      have quotient : (pages * cfg.alignedPage + offset) / cfg.alignedPage = pages := by
        rw [Nat.add_comm, Nat.add_mul_div_right _ _ page, Nat.div_eq_of_lt short, Nat.zero_add]
      have remainder : (pages * cfg.alignedPage + offset) % cfg.alignedPage = offset := by
        rw [Nat.add_comm, Nat.add_mul_mod_self_right, Nat.mod_eq_of_lt short]
      rw [if_pos last, if_pos last.2, quotient, remainder, Nat.add_sub_cancel_left]
      rfl
    · rw [if_neg last]
      by_cases earlier : position < pages * cfg.alignedPage
      · rw [if_pos earlier, if_pos (by omega)]
      · rw [if_neg earlier, if_neg (by omega)]

/-- The loop that gathers the units of a bank. It counts the pages it fills. -/
def gatherLoop (cfg : RuntimeConfig) (fill : Nat → List UInt8 → ByteMemory → ByteMemory)
    (bytes : List UInt8) (totalLen units : Nat) : Nat → Nat → Nat → ByteMemory → Nat × ByteMemory
  | 0, _, pages, scratch => (pages, scratch)
  | fuel + 1, unit, pages, scratch =>
    if unit < units then
      gatherLoop cfg fill bytes totalLen units fuel (unit + cfg.numBanks) (pages + 1)
        (fill (pages * cfg.alignedPage) (unitBytes bytes totalLen unit) scratch)
    else (pages, scratch)

/-- The loop fills as many pages as the bank has units of the value. -/
theorem gatherLoop_eq (bytes : List UInt8) (totalLen : Nat) {units start : Nat}
    (some : start < units) (scratch : ByteMemory) :
    gatherLoop cfg fill bytes totalLen units units start 0 scratch =
      (cfg.pageCount units start,
        gatherPages cfg fill bytes totalLen start (cfg.pageCount units start) scratch) := by
  -- From every page on, the rounds left fill the pages left.
  have rounds : ∀ fuel page, page ≤ cfg.pageCount units start →
      units ≤ start + page * cfg.numBanks + fuel →
      gatherLoop cfg fill bytes totalLen units fuel (start + page * cfg.numBanks) page
          (gatherPages cfg fill bytes totalLen start page scratch) =
        (cfg.pageCount units start,
          gatherPages cfg fill bytes totalLen start (cfg.pageCount units start) scratch) := by
    intro fuel
    induction fuel with
    | zero =>
      intro page bounded ends
      have counted : page < cfg.pageCount units start ↔ _ := round_lt_count cfg.banked some page
      obtain rfl : page = cfg.pageCount units start := by omega
      rfl
    | succ fuel inductionHypothesis =>
      intro page bounded enough
      have counted : page < cfg.pageCount units start ↔ _ := round_lt_count cfg.banked some page
      have banked := cfg.banked
      unfold gatherLoop
      split
      · next less =>
        have next := inductionHypothesis (page + 1) (counted.mpr less)
          (by rw [Nat.succ_mul]; omega)
        rw [Nat.succ_mul, ← Nat.add_assoc] at next
        rw [gatherPages_succ] at next
        exact next
      · next past =>
        obtain rfl : page = cfg.pageCount units start := by omega
        rfl
  have all := rounds units 0 (Nat.zero_le _) (by omega)
  rw [Nat.zero_mul, Nat.add_zero] at all
  exact all

/-- The transfers that write a value, with the pages that the loop counts. -/
def loopWrites (cfg : RuntimeConfig) (fill : Nat → List UInt8 → ByteMemory → ByteMemory)
    (bytes : List UInt8) (valueByteOff totalLen : Nat) : List BankWrite :=
  let baseUnit := valueByteOff / maxChunkValueBytes
  let units := chunkCountFor totalLen
  ((List.range cfg.numBanks).foldl (fun (scratch, writes) bank =>
    let first := cfg.firstUnit baseUnit bank
    if units ≤ first then (scratch, writes)
    else
      let (pages, scratch) := gatherLoop cfg fill bytes totalLen units units first 0 scratch
      (scratch, writes ++ [⟨bank, cfg.pageAddress (baseUnit + first),
        scratch.read 0 (pages * cfg.alignedPage)⟩]))
    ((fun _ => 0 : ByteMemory), ([] : List BankWrite))).2

/-- Counting the pages and computing their number lead to the same transfers. -/
theorem loopWrites_eq (bytes : List UInt8) (valueByteOff totalLen : Nat) :
    loopWrites cfg fill bytes valueByteOff totalLen =
      bankWrites cfg fill bytes valueByteOff totalLen := by
  unfold loopWrites bankWrites
  dsimp only
  congr 1
  apply List.foldl_ext
  rintro ⟨scratch, writes⟩ bank _
  dsimp only
  split
  · rfl
  · next some => rw [gatherLoop_eq bytes totalLen (Nat.not_le.mp some)]

/-! ## Writing -/

/-- The transfer of a bank, if it holds a unit of the value. -/
def RuntimeConfig.bankWrite (cfg : RuntimeConfig) (bytes : List UInt8)
    (baseUnit totalLen bank : Nat) : Option BankWrite :=
  let first := cfg.firstUnit baseUnit bank
  if chunkCountFor totalLen ≤ first then none
  else
    let pages := cfg.pageCount (chunkCountFor totalLen) first
    some ⟨bank, cfg.pageAddress (baseUnit + first),
      (List.range (pages * cfg.alignedPage)).map fun position =>
        pageByte bytes totalLen (first + position / cfg.alignedPage * cfg.numBanks)
          (position % cfg.alignedPage)⟩

/-- A transfer does not depend on what the scratch buffer held before. -/
theorem gathered_read (fills : Fills cfg fill) (bytes : List UInt8) (totalLen start pages : Nat)
    (scratch : ByteMemory) :
    (gatherPages cfg fill bytes totalLen start pages scratch).read 0 (pages * cfg.alignedPage) =
      (List.range (pages * cfg.alignedPage)).map fun position =>
        pageByte bytes totalLen (start + position / cfg.alignedPage * cfg.numBanks)
          (position % cfg.alignedPage) := by
  apply List.map_congr_left
  intro position member
  rw [Nat.zero_add, gatherPages_apply fills, if_pos (List.mem_range.mp member)]

/-- The transfers of a value, bank after bank. -/
theorem bankWrites_eq (fills : Fills cfg fill) (bytes : List UInt8)
    (valueByteOff totalLen : Nat) :
    bankWrites cfg fill bytes valueByteOff totalLen = (List.range cfg.numBanks).filterMap
      (cfg.bankWrite bytes (valueByteOff / maxChunkValueBytes) totalLen) := by
  unfold bankWrites
  dsimp only
  generalize List.range cfg.numBanks = visited
  induction visited using List.reverseRecOn with
  | nil => rfl
  | append_singleton earlier bank inductionHypothesis =>
    rw [List.foldl_append, List.foldl_cons, List.foldl_nil, List.filterMap_append,
      ← inductionHypothesis]
    generalize List.foldl _ _ earlier = state
    split
    · next none => simp [RuntimeConfig.bankWrite, none]
    · next some => simp [RuntimeConfig.bankWrite, some, gathered_read fills]

/-- A transfer reaches its bank. -/
def BankWrite.apply (banks : Banks) (transfer : BankWrite) : Banks :=
  Function.update banks transfer.bank
    ((banks transfer.bank).write transfer.pageAddress transfer.bytes)

/-- Transfers one after the other. -/
def applyWrites (banks : Banks) (transfers : List BankWrite) : Banks :=
  transfers.foldl BankWrite.apply banks

/-- A bank that no transfer is for stays as it was. -/
theorem applyWrites_none (transfers : Nat → Option BankWrite)
    (own : ∀ bank transfer, transfers bank = some transfer → transfer.bank = bank)
    (banks : Banks) {bound bank : Nat} (none : bank < bound → transfers bank = none) :
    applyWrites banks ((List.range bound).filterMap transfers) bank = banks bank := by
  induction bound with
  | zero => rfl
  | succ bound inductionHypothesis =>
    have earlier := inductionHypothesis fun less => none (Nat.lt_succ_of_lt less)
    rw [List.range_succ, List.filterMap_append, applyWrites, List.foldl_append]
    cases found : transfers bound with
    | none =>
      rw [List.filterMap_cons_none found]
      exact earlier
    | some transfer =>
      have different : bank ≠ transfer.bank := by
        intro same
        have here : bank = bound := same.trans (own bound transfer found)
        rw [← here, none (by omega)] at found
        cases found
      rw [List.filterMap_cons_some found]
      exact (Function.update_of_ne different _ _).trans earlier

/-- A bank holds what the transfer to it wrote. -/
theorem applyWrites_some (transfers : Nat → Option BankWrite)
    (own : ∀ bank transfer, transfers bank = some transfer → transfer.bank = bank)
    (banks : Banks) {bound bank : Nat} (inside : bank < bound) {transfer : BankWrite}
    (found : transfers bank = some transfer) :
    applyWrites banks ((List.range bound).filterMap transfers) bank =
      (banks bank).write transfer.pageAddress transfer.bytes := by
  induction bound with
  | zero => exact absurd inside (Nat.not_lt_zero bank)
  | succ bound inductionHypothesis =>
    rw [List.range_succ, List.filterMap_append, applyWrites, List.foldl_append]
    obtain earlier | rfl := Nat.lt_succ_iff_lt_or_eq.mp inside
    · cases last : transfers bound with
      | none =>
        rw [List.filterMap_cons_none last]
        exact inductionHypothesis earlier
      | some other =>
        have different : bank ≠ other.bank := by
          rw [own bound other last]
          omega
        rw [List.filterMap_cons_some last]
        exact (Function.update_of_ne different _ _).trans (inductionHypothesis earlier)
    · have before : applyWrites banks ((List.range bank).filterMap transfers) bank = banks bank :=
        applyWrites_none transfers own banks fun less => absurd less (Nat.lt_irrefl _)
      rw [List.filterMap_cons_some found]
      change BankWrite.apply (applyWrites banks _) transfer bank = _
      rw [BankWrite.apply, own bank transfer found, Function.update_self, before]

theorem bankWrite_own (bytes : List UInt8) (baseUnit totalLen : Nat) (bank : Nat)
    (transfer : BankWrite) (found : cfg.bankWrite bytes baseUnit totalLen bank = some transfer) :
    transfer.bank = bank := by
  unfold RuntimeConfig.bankWrite at found
  dsimp only at found
  split at found
  · cases found
  · exact (Option.some.inj found) ▸ rfl

/-- Bytes written to a memory. -/
theorem write_apply (memory : ByteMemory) (address size position : Nat) (byte : Nat → UInt8) :
    memory.write address ((List.range size).map byte) position =
      if address ≤ position ∧ position < address + size then byte (position - address)
      else memory position := by
  have read : (List.range size).map byte = ByteMemory.read byte 0 size := by
    simp [ByteMemory.read]
  rw [read, ByteMemory.write_read_apply]
  simp

/-- What a bank holds after a value was written. -/
theorem written_apply (fills : Fills cfg fill) (bytes : List UInt8)
    (valueByteOff totalLen : Nat) (banks : Banks) {bank : Nat} (inside : bank < cfg.numBanks)
    (address : Nat) :
    let baseUnit := valueByteOff / maxChunkValueBytes
    let start := cfg.firstUnit baseUnit bank
    let first := cfg.pageAddress (baseUnit + start)
    let pages := cfg.pageCount (chunkCountFor totalLen) start
    applyWrites banks (bankWrites cfg fill bytes valueByteOff totalLen) bank address =
      if start < chunkCountFor totalLen ∧ first ≤ address ∧
          address < first + pages * cfg.alignedPage then
        pageByte bytes totalLen (start + (address - first) / cfg.alignedPage * cfg.numBanks)
          ((address - first) % cfg.alignedPage)
      else banks bank address := by
  intro baseUnit start first pages
  rw [bankWrites_eq fills]
  by_cases none : chunkCountFor totalLen ≤ start
  · rw [applyWrites_none _ (bankWrite_own bytes baseUnit totalLen) _
      fun _ => if_pos none, if_neg fun range => absurd range.1 (Nat.not_lt.mpr none)]
  · have found : cfg.bankWrite bytes baseUnit totalLen bank = some ⟨bank, first,
        (List.range (pages * cfg.alignedPage)).map fun position =>
          pageByte bytes totalLen (start + position / cfg.alignedPage * cfg.numBanks)
            (position % cfg.alignedPage)⟩ := if_neg none
    rw [applyWrites_some _ (bankWrite_own bytes baseUnit totalLen) _ inside found, write_apply]
    simp only [Nat.not_le.mp none, true_and]

/-- A unit that is written lies in its page, with zeros behind it. -/
theorem written_page (fills : Fills cfg fill) (bytes : List UInt8)
    (valueByteOff totalLen : Nat) (banks : Banks) {unit offset : Nat}
    (inside : unit < chunkCountFor totalLen) (short : offset < cfg.alignedPage) :
    applyWrites banks (bankWrites cfg fill bytes valueByteOff totalLen)
        ((valueByteOff / maxChunkValueBytes + unit) % cfg.numBanks)
        (cfg.stretchAddress (valueByteOff / maxChunkValueBytes) unit + offset) =
      pageByte bytes totalLen unit offset := by
  have page : 0 < cfg.alignedPage := maxChunkValueBytes_pos.trans_le cfg.paged
  obtain ⟨listed, counted, split⟩ := unit_in_stretch cfg.banked inside
  have start : cfg.firstUnit (valueByteOff / maxChunkValueBytes)
      ((valueByteOff / maxChunkValueBytes + unit) % cfg.numBanks) = unit % cfg.numBanks :=
    first_of_unit cfg.banked unit
  have rows := Nat.mul_le_mul_right cfg.alignedPage (Nat.succ_le_of_lt counted)
  rw [Nat.succ_mul] at rows
  rw [written_apply fills bytes valueByteOff totalLen banks (Nat.mod_lt _ cfg.banked), start,
    RuntimeConfig.stretchAddress, if_pos ⟨listed, by omega, by rw [pageCount_eq]; omega⟩]
  have distance : cfg.pageAddress (valueByteOff / maxChunkValueBytes + unit % cfg.numBanks) +
      unit / cfg.numBanks * cfg.alignedPage + offset -
        cfg.pageAddress (valueByteOff / maxChunkValueBytes + unit % cfg.numBanks) =
      offset + unit / cfg.numBanks * cfg.alignedPage := by omega
  rw [distance, Nat.add_mul_div_right _ _ page, Nat.div_eq_of_lt short, Nat.zero_add, split,
    Nat.add_mul_mod_self_right, Nat.mod_eq_of_lt short]

/-- An address outside the pages of the units of the value keeps its byte. -/
theorem written_other (fills : Fills cfg fill) (bytes : List UInt8)
    (valueByteOff totalLen : Nat) (banks : Banks) {bank address : Nat}
    (inside : bank < cfg.numBanks)
    (outside : ∀ unit < chunkCountFor totalLen,
      (valueByteOff / maxChunkValueBytes + unit) % cfg.numBanks = bank →
        address < cfg.stretchAddress (valueByteOff / maxChunkValueBytes) unit ∨
          cfg.stretchAddress (valueByteOff / maxChunkValueBytes) unit + cfg.alignedPage ≤ address) :
    applyWrites banks (bankWrites cfg fill bytes valueByteOff totalLen) bank address =
      banks bank address := by
  have page : 0 < cfg.alignedPage := maxChunkValueBytes_pos.trans_le cfg.paged
  rw [written_apply fills bytes valueByteOff totalLen banks inside]
  apply if_neg
  rintro ⟨listed, after, before⟩
  obtain ⟨distance, rfl⟩ := Nat.exists_eq_add_of_le after
  -- The row that the address lies in belongs to a unit of the value.
  have row : distance / cfg.alignedPage < cfg.pageCount (chunkCountFor totalLen)
      (cfg.firstUnit (valueByteOff / maxChunkValueBytes) bank) :=
    Nat.div_lt_of_lt_mul (by rw [Nat.mul_comm]; omega)
  have low : cfg.firstUnit (valueByteOff / maxChunkValueBytes) bank < cfg.numBanks :=
    first_lt cfg.banked
  have unit := (round_lt_count cfg.banked listed _).mp row
  obtain before | behind := outside _ unit (bank_of_round inside _)
  all_goals
    rw [RuntimeConfig.stretchAddress, Nat.add_mul_mod_self_right, Nat.mod_eq_of_lt low,
      Nat.add_mul_div_right _ _ cfg.banked, Nat.div_eq_of_lt low, Nat.zero_add] at *
    have split := Nat.div_add_mod' distance cfg.alignedPage
    have rest := Nat.mod_lt distance page
    omega

end KvCache.HostTransfer
