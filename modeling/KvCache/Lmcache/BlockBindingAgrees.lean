import KvCache.Foundation.Raising
import KvCache.Lmcache.BlockBindingPlanned

/-!
# Lowering and the planners

Lowering is meant to accept a transfer where the planner it is handed to answers, so that a bad
transfer is an error of its request. It does where blocks are dealt out over ranks or every memory
object is written from its first row. It does not know that a transfer without ranges is refused,
nor what the planner of dealt-out blocks asks of a transfer whose blocks are not dealt out.
-/

namespace KvCache.Lmcache.BlockBinding

open Raising Guarded Descriptor RawPlanners

/-! ## Groups of positions -/

section Groups

variable {transfer : Transfer} {shape : CyclicShape}

variable (shape) in
/-- A position is in its group. -/
theorem mem_groupPositions (positive : 0 < transfer.blockSize) (degree : 0 < shape.degree)
    {position : Int} (natural : 0 ≤ position) (below : position < transfer.numSlots) :
    let group := position / transfer.blockSize / shape.degree
    (0 ≤ group * transfer.blockSize * shape.degree ∧
      group * transfer.blockSize * shape.degree ≤ position) ∧
      position ∈ groupPositions transfer shape group := by
  intro group
  have nested : group = position / (transfer.blockSize * shape.degree) :=
    Int.ediv_ediv_of_nonneg (Int.le_of_lt positive)
  have tokens := Int.mul_pos positive degree
  have quotient := Int.ediv_nonneg natural (Int.le_of_lt tokens)
  have low := Int.mul_nonneg quotient (Int.le_of_lt tokens)
  have rest := Int.emod_add_mul_ediv position (transfer.blockSize * shape.degree)
  have least := Int.emod_nonneg position (Int.ne_of_gt tokens)
  have most := Int.emod_lt_of_pos position tokens
  rw [← nested] at low rest
  rw [Int.mul_comm (transfer.blockSize * shape.degree) group, ← Int.mul_assoc] at rest
  rw [← Int.mul_assoc] at low
  refine ⟨⟨low, by omega⟩, ?_⟩
  rw [groupPositions, List.mem_map]
  exact ⟨(position - group * transfer.blockSize * shape.degree).toNat,
    List.mem_range.mpr (by omega), by omega⟩

/-- The positions of a group that have slots. -/
def seenPositions (transfer : Transfer) (shape : CyclicShape) (group : Int) : List Int :=
  (groupPositions transfer shape group).filter fun position => decide (0 ≤ transfer.slot position)

/-- The block of a group with slots is that of its slots, or the one that they count from. -/
theorem canonical_seen {group first : Int} {rest : List Int}
    (covered : 0 ≤ group * transfer.blockSize * shape.degree)
    (seen : seenPositions transfer shape group = first :: rest) (fallbackSlot : Int) :
    canonicalPhysicalBlock transfer shape group fallbackSlot =
      if ∀ position ∈ first :: rest, transfer.blockAt position = transfer.blockAt first then
        some (transfer.blockAt first)
      else if ∀ position ∈ first :: rest, transfer.blockAt position -
          position % (transfer.blockSize * shape.degree) / transfer.blockSize =
            transfer.blockAt first -
              first % (transfer.blockSize * shape.degree) / transfer.blockSize then
        some (transfer.blockAt first -
          first % (transfer.blockSize * shape.degree) / transfer.blockSize)
      else none := by
  have some_ : groupPositions transfer shape group ≠ [] := by
    intro none_
    rw [seenPositions, none_] at seen
    cases seen
  have nonempty : ¬ (group * transfer.blockSize * shape.degree < 0 ∨
      min (group * transfer.blockSize * shape.degree + transfer.blockSize * shape.degree)
        transfer.numSlots ≤ group * transfer.blockSize * shape.degree) := by
    refine not_or.mpr ⟨Int.not_lt.mpr covered, fun empty => some_ ?_⟩
    rw [groupPositions, Int.toNat_of_nonpos (by omega)]
    rfl
  have observed : (groupPositions transfer shape group).filter
      (fun position => decide (0 ≤ transfer.slot position)) = first :: rest := seen
  rw [canonicalPhysicalBlock, if_neg nonempty, foldl_observe_none, observed]
  simp only [decide_eq_true_iff]
  rfl

/-- The block of a group with slots does not depend on the slot that is asked for. -/
theorem canonical_fallback {group position : Int}
    (covered : 0 ≤ group * transfer.blockSize * shape.degree)
    (inside : position ∈ groupPositions transfer shape group) (real : 0 ≤ transfer.slot position)
    (one other : Int) :
    canonicalPhysicalBlock transfer shape group one =
      canonicalPhysicalBlock transfer shape group other := by
  have kept : position ∈ seenPositions transfer shape group :=
    List.mem_filter.mpr ⟨inside, decide_eq_true real⟩
  obtain ⟨first, rest, seen⟩ := List.exists_cons_of_ne_nil (List.ne_nil_of_mem kept)
  rw [canonical_seen covered seen, canonical_seen covered seen]

/-- A block that is not dealt out is its own group, and its slots agree on it. -/
theorem canonical_alone (positive : 0 < transfer.blockSize) (alone : shape.degree = 1)
    {position : Int} (natural : 0 ≤ position) (below : position < transfer.numSlots)
    (aligned : position % transfer.blockSize = 0) (real : 0 ≤ transfer.slot position)
    (fallbackSlot block : Int) :
    canonicalPhysicalBlock transfer shape (position / transfer.blockSize / shape.degree)
      fallbackSlot = some block ↔
      transfer.blockAt position = block ∧ ∀ other, position ≤ other →
        other < position + transfer.blockSize → other < transfer.numSlots →
          0 ≤ transfer.slot other → transfer.blockAt other = transfer.blockAt position := by
  have begun : position / transfer.blockSize / shape.degree * transfer.blockSize * shape.degree =
      position := by
    rw [alone, Int.ediv_one, Int.mul_one, Int.ediv_mul_cancel (Int.dvd_of_emod_eq_zero aligned)]
  have member {other : Int} : other ∈ seenPositions transfer shape
      (position / transfer.blockSize / shape.degree) ↔
        (position ≤ other ∧ other < position + transfer.blockSize ∧ other < transfer.numSlots) ∧
          0 ≤ transfer.slot other := by
    rw [seenPositions, List.mem_filter, decide_eq_true_iff, groupPositions, begun, alone,
      Int.mul_one, List.mem_map]
    refine and_congr_left fun _ => ⟨?_, fun inside => ?_⟩
    · rintro ⟨index, short, rfl⟩
      rw [List.mem_range] at short
      omega
    · exact ⟨(other - position).toNat, List.mem_range.mpr (by omega), by omega⟩
  have base (other : Int) :
      other % (transfer.blockSize * shape.degree) / transfer.blockSize = 0 := by
    rw [alone, Int.mul_one]
    exact Int.ediv_eq_zero_of_lt (Int.emod_nonneg _ (Int.ne_of_gt positive))
      (Int.emod_lt_of_pos _ positive)
  have own := member.mpr ⟨⟨Int.le_refl position, by omega, below⟩, real⟩
  obtain ⟨first, rest, seen⟩ := List.exists_cons_of_ne_nil (List.ne_nil_of_mem own)
  rw [canonical_seen (by rw [begun]; exact natural) seen]
  simp only [base, Int.sub_zero]
  rw [← seen]
  by_cases agree : ∀ other ∈ seenPositions transfer shape
      (position / transfer.blockSize / shape.degree), transfer.blockAt other = transfer.blockAt first
  · rw [if_pos agree, Option.some.injEq, ← agree position own]
    refine (and_iff_left fun other later short known natural => ?_).symm
    rw [agree other (member.mpr ⟨⟨later, short, known⟩, natural⟩), agree position own]
  · rw [if_neg agree, if_neg agree]
    refine ⟨nofun, fun ⟨_, same⟩ => (agree fun other inside => ?_).elim⟩
    have each {other : Int} (inside : other ∈ seenPositions transfer shape
        (position / transfer.blockSize / shape.degree)) :
        transfer.blockAt other = transfer.blockAt position := by
      obtain ⟨⟨later, short, known⟩, natural⟩ := member.mp inside
      exact same other later short known natural
    have begins : first ∈ seenPositions transfer shape
        (position / transfer.blockSize / shape.degree) := by
      rw [seen]
      exact List.mem_cons_self
    rw [each inside, each begins]

/-! ## What lowering accepts -/

theorem checkGroup_eq_ok {group : Int × Int} :
    checkGroup transfer.blockSize transfer.slotMapping shape.degree shape.blocksPerRank group =
      .ok () ↔
      ∃ block, canonicalPhysicalBlock transfer shape group.1 group.2 = some block ∧ 0 < block ∧
        block < shape.blocksPerRank := by
  have same := resolve_toOption transfer shape group.1 group.2
  rw [checkGroup, ← same]
  cases resolvePhysicalBlock transfer.blockSize transfer.slotMapping shape.degree group.1
      group.2 with
  | error error => exact ⟨nofun, fun ⟨_, found, _⟩ => nomatch found⟩
  | ok block =>
    change (if block ≤ 0 then _ else if shape.blocksPerRank ≤ block then _ else _) = _ ↔ _
    constructor
    · intro passed
      split at passed
      · cases passed
      · next low =>
        split at passed
        · cases passed
        · next high => exact ⟨block, rfl, Int.not_le.mp low, Int.not_le.mp high⟩
    · rintro ⟨_, found, low, high⟩
      cases found
      rw [if_neg (Int.not_le.mpr low), if_neg (Int.not_le.mpr high)]

theorem checkCapacity_eq_ok {backend : String} {capacity : Int} {range : BoundRange} :
    checkCapacity transfer.blockSize transfer.slotMapping backend capacity range = .ok () ↔
      WithinCapacity transfer capacity range := by
  have some_ : (∃ position ∈ arangeStep range.start range.stop transfer.blockSize,
      capacity ≤ slotAt transfer.slotMapping position / transfer.blockSize) ↔
      ∃ index < blockCount (range.stop - range.start) transfer.blockSize,
        capacity ≤ transfer.blockAt (range.start + index * transfer.blockSize) := by
    simp only [mem_arangeStep]
    constructor
    · rintro ⟨_, ⟨index, below, rfl⟩, large⟩
      exact ⟨index, below, large⟩
    · rintro ⟨index, below, large⟩
      exact ⟨_, ⟨index, below, rfl⟩, large⟩
  rw [checkCapacity, WithinCapacity]
  constructor
  · intro passed index below
    split at passed
    · cases passed
    · next small =>
      rw [some_] at small
      exact Int.not_le.mp fun large => small ⟨index, below, large⟩
  · intro small
    rw [if_neg]
    rw [some_]
    rintro ⟨index, below, large⟩
    exact Int.not_le.mpr (small index below) large

variable (shape) in
/-- The groups that lowering checks are those of the blocks of the ranges. -/
theorem groups_eq_ok (positive : 0 < transfer.blockSize) (degree : 0 < shape.degree)
    {ranges : List BoundRange} (lowered : ∀ range ∈ ranges, RangeLowered transfer range) :
    (relevantGroups transfer.blockSize transfer.slotMapping shape.degree ranges).forM
      (checkGroup transfer.blockSize transfer.slotMapping shape.degree shape.blocksPerRank) =
        .ok () ↔ ∀ range ∈ ranges, Resolved transfer shape range := by
  obtain ⟨taken, -, listed⟩ := foldl_setdefault
    (fun position => position / transfer.blockSize / shape.degree) transfer.slot
    (blockPositions transfer ranges) []
  rw [forM_eq_ok, relevantGroups_eq]
  -- the slots of a block are in its group, so its slot decides nothing
  have agrees {range : BoundRange} (inside : range ∈ ranges) {index : Nat}
      (below : index < blockCount (range.stop - range.start) transfer.blockSize)
      (one other : Int) :
      canonicalPhysicalBlock transfer shape ((range.start + index * transfer.blockSize) /
        transfer.blockSize / shape.degree) one =
      canonicalPhysicalBlock transfer shape ((range.start + index * transfer.blockSize) /
        transfer.blockSize / shape.degree) other := by
    obtain ⟨start, -, covered, -, -, blocks⟩ := lowered range inside
    have begun := (lt_blockCount positive).mp below
    have low := Int.mul_nonneg (Int.natCast_nonneg index) (Int.le_of_lt positive)
    obtain ⟨⟨natural, -⟩, group⟩ := mem_groupPositions shape positive degree
      (show 0 ≤ range.start + index * transfer.blockSize by omega) (by omega)
    exact canonical_fallback natural group (blocks index below).natural one other
  have position {range : BoundRange} (inside : range ∈ ranges) {index : Nat}
      (below : index < blockCount (range.stop - range.start) transfer.blockSize) :
      range.start + index * transfer.blockSize ∈ blockPositions transfer ranges :=
    List.mem_flatMap.mpr ⟨range, inside, mem_arangeStep.mpr ⟨index, below, rfl⟩⟩
  constructor
  · intro every range inside index below
    obtain ⟨slot, entry⟩ := listed _ (position inside below)
    obtain ⟨block, found, range_⟩ := checkGroup_eq_ok.mp (every _ entry)
    refine ⟨block, ?_, range_⟩
    rw [← start_add_div positive, agrees inside below _ slot]
    exact found
  · rintro resolved entry member
    obtain none_ | ⟨_, there, rfl⟩ := taken entry member
    · cases none_
    · obtain ⟨range, inside, step⟩ := List.mem_flatMap.mp there
      obtain ⟨index, below, rfl⟩ := mem_arangeStep.mp step
      obtain ⟨block, found, range_⟩ := resolved range inside index below
      refine checkGroup_eq_ok.mpr ⟨block, ?_, range_⟩
      rw [start_add_div positive]
      exact found

end Groups

section Lowered

variable {call : NativeCall} {descriptor : LocalTransfer} {starts ends sources slots : List Int}

/-- Lowering accepts a transfer. -/
def Accepts (descriptor : LocalTransfer) (direction : TransferDirection)
    (starts ends sources slots : List Int) : Prop :=
  ∃ binding, lowerBlockBinding descriptor direction starts ends slots (some sources) = .ok binding

/-- What lowering asks of a transfer. -/
structure Lowerable (descriptor : LocalTransfer) (transfer : Transfer)
    (starts ends sources : List Int) : Prop where
  paired : starts.length = ends.length
  ranges : ∀ range ∈ boundRanges starts ends sources, RangeLowered transfer range
  blocks : ∀ range ∈ boundRanges starts ends sources,
    if descriptor.cpSize = 1 then
      WithinCapacity transfer (descriptor.numBlocks *
        descriptor.profile.plan.blockDistribution.dataParallelSize) range
    else Resolved transfer (descriptor.shape sources) range

theorem accepts_iff (valid : call.Valid descriptor starts ends sources)
    (natural : ∀ slot ∈ slots, -1 ≤ slot) (direction : TransferDirection) :
    Accepts descriptor direction starts ends sources slots ↔
      Lowerable descriptor (call.transfer descriptor.profile.blockSize starts ends slots) starts
        ends sources := by
  have positive := blockSize_pos descriptor
  have sourced := valid.sourced
  generalize described : call.transfer descriptor.profile.blockSize starts ends slots = transfer
  have size : descriptor.profile.blockSize = transfer.blockSize := by rw [← described]; rfl
  have mapping : slots = transfer.slotMapping := by rw [← described]; rfl
  have capacity (lowered : ∀ range ∈ boundRanges starts ends sources,
      RangeLowered transfer range) :
      validateBackendCapacity slots descriptor (boundRanges starts ends sources) = .ok () ↔
        ∀ range ∈ boundRanges starts ends sources,
          if descriptor.cpSize = 1 then
            WithinCapacity transfer (descriptor.numBlocks *
              descriptor.profile.plan.blockDistribution.dataParallelSize) range
          else Resolved transfer (descriptor.shape sources) range := by
    rw [validateBackendCapacity, size, mapping]
    by_cases alone : descriptor.cpSize = 1
    · have alone_ : descriptor.profile.plan.blockDistribution.contextParallelSize = 1 := alone
      simp only [alone_, if_true, alone, forM_eq_ok]
      exact forall₂_congr fun range _ => checkCapacity_eq_ok
    · have alone_ : ¬ descriptor.profile.plan.blockDistribution.contextParallelSize = 1 := alone
      simp only [alone_, if_false, alone]
      exact groups_eq_ok (descriptor.shape sources) (size ▸ positive)
        (cpSize_pos descriptor) lowered
  have ranges : (boundRanges starts ends sources).forM
      (checkRange descriptor.profile.blockSize slots) = .ok () ↔
        ∀ range ∈ boundRanges starts ends sources, RangeLowered transfer range := by
    rw [forM_eq_ok, size, mapping]
    exact forall₂_congr fun range _ => checkRange_eq_ok (size ▸ positive)
  rw [Accepts]
  constructor
  · rintro ⟨binding, lowered⟩
    rw [lowerBlockBinding, Option.getD_some] at lowered
    split at lowered
    · cases lowered
    · next lengths =>
      split at lowered
      · cases lowered
      · obtain ⟨_, first, rest⟩ := bind_eq_ok.mp lowered
        obtain ⟨_, second, _⟩ := bind_eq_ok.mp rest
        have each := ranges.mp first
        exact ⟨(not_not.mp lengths).1, each, (capacity each).mp second⟩
  · rintro ⟨paired, each, blocks⟩
    refine ⟨⟨direction, starts, ends, sources, slots⟩, ?_⟩
    rw [lowerBlockBinding, Option.getD_some, if_neg (not_not.mpr ⟨paired, by omega⟩), if_neg]
    · exact bind_eq_ok.mpr ⟨(), ranges.mpr each,
        bind_eq_ok.mpr ⟨(), (capacity each).mpr blocks, rfl⟩⟩
    · rintro ⟨slot, listed, low⟩
      have least := natural slot listed
      omega

/-! ## Agreement -/

/-- A block that a planner of dealt-out blocks takes where blocks are not dealt out: the null block
is left out, and all slots of its positions are in it. -/
structure OwnBlock (transfer : Transfer) (numBlocks position : Int) : Prop where
  real : 0 < transfer.blockAt position
  known : transfer.blockAt position < numBlocks
  whole : ∀ other, position ≤ other → other < position + transfer.blockSize →
    other < transfer.numSlots → 0 ≤ transfer.slot other →
      transfer.blockAt other = transfer.blockAt position

theorem resolved_alone_iff {transfer : Transfer} (shape : CyclicShape)
    (positive : 0 < transfer.blockSize) (alone : shape.degree = 1) {range : BoundRange}
    (lowered : RangeLowered transfer range) :
    Resolved transfer shape range ↔
      ∀ index < blockCount (range.stop - range.start) transfer.blockSize,
        OwnBlock transfer shape.blocksPerRank (range.start + index * transfer.blockSize) := by
  obtain ⟨start, -, covered, aligned, -, blocks⟩ := lowered
  refine forall₂_congr fun index below => ?_
  have begun := (lt_blockCount positive).mp below
  have low := Int.mul_nonneg (Int.natCast_nonneg index) (Int.le_of_lt positive)
  have multiple : (range.start + index * transfer.blockSize) % transfer.blockSize = 0 := by
    rw [Int.add_mul_emod_self_right, aligned]
  have agree := canonical_alone positive alone
    (show 0 ≤ range.start + index * transfer.blockSize by omega) (by omega) multiple
    (blocks index below).natural
  rw [← start_add_div positive]
  constructor
  · rintro ⟨block, found, least, most⟩
    obtain ⟨rfl, whole⟩ := (agree _ block).mp found
    exact ⟨least, most, whole⟩
  · rintro ⟨least, most, whole⟩
    exact ⟨_, (agree _ _).mpr ⟨rfl, whole⟩, least, most⟩

/-- What the planners ask of a transfer that is accepted. -/
structure Plannable (call : NativeCall) (descriptor : LocalTransfer) (transfer : Transfer)
    (starts ends sources : List Int) : Prop where
  nonempty : starts ≠ []
  members : ¬ descriptor.ByRows sources → call.memberWidths.length = 2
  blocks : ¬ descriptor.ByRows sources → descriptor.cpSize = 1 →
    ∀ range ∈ boundRanges starts ends sources,
      ∀ index < blockCount (range.stop - range.start) transfer.blockSize,
        OwnBlock transfer descriptor.numBlocks (range.start + index * transfer.blockSize)

/-- Lowering and the planner agree on a transfer, and on the blocks of its groups. -/
structure Agrees (call : NativeCall) (descriptor : LocalTransfer) (direction : TransferDirection)
    (starts ends sources slots : List Int) : Prop where
  accepted : Accepts descriptor direction starts ends sources slots →
    (call.runs descriptor starts ends sources slots).isSome
  planned : (∀ start ∈ starts, start % descriptor.profile.blockSize = 0) →
    (∀ source ∈ sources, source % descriptor.profile.blockSize = 0) →
      (call.runs descriptor starts ends sources slots).isSome →
        Accepts descriptor direction starts ends sources slots
  resolved : 1 < descriptor.cpSize → ∀ group fallbackSlot,
    (resolvePhysicalBlock descriptor.profile.blockSize slots descriptor.cpSize group
      fallbackSlot).toOption = canonicalPhysicalBlock
        (call.transfer descriptor.profile.blockSize starts ends slots) (descriptor.shape sources)
        group fallbackSlot

theorem boundRanges_start (paired : starts.length = ends.length)
    (sourced : sources.length = starts.length) :
    (boundRanges starts ends sources).map BoundRange.start = starts := by
  rw [boundRanges, List.map_map]
  refine List.map_fst_zip ?_
  rw [List.length_zip]
  omega

/-- The planner that a transfer is handed to answers where the transfer is as lowering asks and
the planner takes it. -/
theorem runs_isSome_iff (valid : call.Valid descriptor starts ends sources)
    (aligned : ∀ start ∈ starts, start % descriptor.profile.blockSize = 0) :
    (call.runs descriptor starts ends sources slots).isSome ↔
      Lowerable descriptor (call.transfer descriptor.profile.blockSize starts ends slots) starts
        ends sources ∧
      Plannable call descriptor (call.transfer descriptor.profile.blockSize starts ends slots)
        starts ends sources := by
  have positive := blockSize_pos descriptor
  have paired_of (given : (call.transfer descriptor.profile.blockSize starts ends
      slots).ChunksGiven) : starts.length = ends.length := given.2.1.trans given.2.2.symm
  rw [NativeCall.runs]
  by_cases byRows : descriptor.ByRows sources
  · rw [if_pos byRows]
    constructor
    · intro planned
      obtain ⟨runs, built⟩ := Option.isSome_iff_exists.mp planned
      have paired := paired_of (buildRegionRawMeshRuns_eq_some built).1.given
      obtain ⟨nonempty, ranges⟩ :=
        (regionRuns_isSome_iff valid paired byRows.2 aligned).mp planned
      refine ⟨⟨paired, fun range listed => (ranges range listed).1, fun range listed => ?_⟩,
        ⟨nonempty, fun other => absurd byRows other, fun other => absurd byRows other⟩⟩
      rw [if_pos byRows.1]
      exact (ranges range listed).2
    · rintro ⟨⟨paired, ranges, blocks⟩, nonempty, -, -⟩
      refine (regionRuns_isSome_iff valid paired byRows.2 aligned).mpr
        ⟨nonempty, fun range listed => ⟨ranges range listed, ?_⟩⟩
      have capacity := blocks range listed
      rw [if_pos byRows.1] at capacity
      exact capacity
  · rw [if_neg byRows]
    constructor
    · intro planned
      obtain ⟨runs, built⟩ := Option.isSome_iff_exists.mp planned
      have paired := paired_of (buildDsaBlockCyclic_eq_some built).1.given
      obtain ⟨two, nonempty, ranges⟩ := (cyclicRuns_isSome_iff valid paired).mp planned
      have own (alone : descriptor.cpSize = 1) {range : BoundRange}
          (listed : range ∈ boundRanges starts ends sources) :=
        (resolved_alone_iff (descriptor.shape sources) positive alone
          (ranges range listed).1).mp (ranges range listed).2
      refine ⟨⟨paired, fun range listed => (ranges range listed).1, fun range listed => ?_⟩,
        ⟨nonempty, fun _ => two, fun _ alone range listed => own alone listed⟩⟩
      split
      · next alone =>
        intro index below
        have known := (own alone listed index below).known
        have groups := descriptor.profile.plan.blockDistribution.positive.1
        have some_ := descriptor.positive
        calc _ < descriptor.numBlocks * 1 := by rw [Int.mul_one]; exact known
          _ ≤ _ := Int.mul_le_mul_of_nonneg_left groups (Int.le_of_lt some_)
      · exact (ranges range listed).2
    · rintro ⟨⟨paired, ranges, blocks⟩, nonempty, members, own⟩
      refine (cyclicRuns_isSome_iff valid paired).mpr ⟨members byRows, nonempty,
        fun range listed => ⟨ranges range listed, ?_⟩⟩
      by_cases alone : descriptor.cpSize = 1
      · exact (resolved_alone_iff (descriptor.shape sources) positive alone
          (ranges range listed)).mpr (own byRows alone range listed)
      · have resolved := blocks range listed
        rw [if_neg alone] at resolved
        exact resolved

/-- Lowering agrees with the planner that a transfer is handed to exactly where a transfer that
it accepts has a range and is one that the planner takes: the planner of dealt-out blocks takes
two members, and where the blocks are not dealt out it takes blocks of the first rank other than
the null block, whose slots behind the range are in them too. -/
theorem lowering_agrees_iff (valid : call.Valid descriptor starts ends sources)
    (natural : ∀ slot ∈ slots, -1 ≤ slot) (direction : TransferDirection) :
    Agrees call descriptor direction starts ends sources slots ↔
      (Lowerable descriptor (call.transfer descriptor.profile.blockSize starts ends slots) starts
        ends sources →
      Plannable call descriptor (call.transfer descriptor.profile.blockSize starts ends slots)
        starts ends sources) := by
  have accepts := accepts_iff valid natural direction
  have beginnings (lowered : Lowerable descriptor
      (call.transfer descriptor.profile.blockSize starts ends slots) starts ends sources) :
      ∀ start ∈ starts, start % descriptor.profile.blockSize = 0 := by
    rw [← boundRanges_start lowered.paired valid.sourced, List.forall_mem_map]
    exact fun range listed => (lowered.ranges range listed).aligned
  constructor
  · rintro ⟨accepted, -, -⟩ lowered
    exact ((runs_isSome_iff valid (beginnings lowered)).mp (accepted (accepts.mpr lowered))).2
  · intro plannable
    refine ⟨fun accepted => ?_, fun aligned _ planned => ?_, fun _ group fallbackSlot => ?_⟩
    · have lowered := accepts.mp accepted
      exact (runs_isSome_iff valid (beginnings lowered)).mpr ⟨lowered, plannable lowered⟩
    · exact accepts.mpr ((runs_isSome_iff valid aligned).mp planned).1
    · exact resolve_toOption
        (call.transfer descriptor.profile.blockSize starts ends slots) (descriptor.shape sources) group fallbackSlot

end Lowered

/-! ## Samples -/

/-- Two members in blocks of two tokens, on two ranks with two blocks each. -/
def twoRanksLocal : LocalTransfer where
  profile :=
    { blockSize := 2
      memoryObjMembers := [⟨"kv", [1], .uint8, 2, 1, by simp⟩, ⟨"index", [1], .uint8, 2, 1, by simp⟩]
      plan := ⟨.regionRaw, .pagedBlock, ⟨2, 1, 1, by decide⟩, 1,
        [⟨.replicated, none, none, TensorDistribution.no_axis⟩,
          ⟨.replicated, none, none, TensorDistribution.no_axis⟩],
        ⟨by decide, List.cons_ne_nil _ _⟩⟩
      policy := ⟨2, 2, .exact_, by decide⟩
      valid := ⟨by simp, by simp, rfl, by simp, by simp, rfl, by simp, by simp, fun _ => rfl⟩ }
  numBlocks := 2
  positive := by decide

/-- One memory object of two blocks. -/
def oneObject : NativeCall where
  memobjSlots := [0]
  memberWidths := [1, 1]
  regionBases := [0, 4]
  objectRows := 4
  tpSize := 1
  rank := 0
  groupAxis := 0
  shardAxis := 1

/-- The second block of the memory object is written. -/
theorem oneObject_valid : oneObject.Valid twoRanksLocal [0] [2] [2] where
  objects := rfl
  sourced := rfl
  rows := by decide
  members := by decide
  bases := rfl
  widths := by decide
  mesh := by decide
  chips := by decide
  host := by decide

/-- A block of the second rank is accepted, and the planner refuses it. -/
theorem lowering_accepts_refused :
    oneObject.Valid twoRanksLocal [0] [2] [2] ∧ (∀ slot ∈ ([4, 5] : List Int), -1 ≤ slot) ∧
      ¬ Agrees oneObject twoRanksLocal .h2d [0] [2] [2] [4, 5] := by
  refine ⟨oneObject_valid, by decide, fun agrees => ?_⟩
  have refused : ¬ (oneObject.runs twoRanksLocal [0] [2] [2] [4, 5]).isSome := by decide
  exact refused (agrees.accepted ⟨⟨.h2d, [0], [2], [2], [4, 5]⟩, rfl⟩)

/-- A block of the first rank is accepted and planned. -/
theorem lowering_agrees_iff_sample :
    Agrees oneObject twoRanksLocal .h2d [0] [2] [2] [2, 3] ↔
      (Lowerable twoRanksLocal (oneObject.transfer 2 [0] [2] [2, 3]) [0] [2] [2] →
        Plannable oneObject twoRanksLocal (oneObject.transfer 2 [0] [2] [2, 3]) [0] [2] [2]) :=
  lowering_agrees_iff oneObject_valid (by decide) .h2d

end KvCache.Lmcache.BlockBinding
