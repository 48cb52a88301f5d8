import KvCache.Lmcache.BlockBinding
import KvCache.Lmcache.RawCyclic

/-!
# What lowering accepts

A range is accepted where its slots are in order within each of its blocks, which is what the
planners check block by block. The block that lowering finds for a group is the one that the
planner of dealt-out blocks finds, or neither finds one.
-/

namespace KvCache.Lmcache.BlockBinding

open Raising Descriptor RawPlanners

/-! ## Ranges -/

theorem mem_arange {start stop position : Int} :
    position ∈ arange start stop ↔ start ≤ position ∧ position < stop := by
  rw [arange, List.mem_map]
  constructor
  · rintro ⟨index, below, rfl⟩
    rw [List.mem_range] at below
    omega
  · rintro ⟨low, high⟩
    exact ⟨(position - start).toNat, List.mem_range.mpr (by omega), by omega⟩

theorem arangeStep_eq (start stop step : Int) :
    arangeStep start stop step =
      (List.range (blockCount (stop - start) step)).map fun index : Nat => start + index * step :=
  rfl

theorem mem_arangeStep {start stop step position : Int} :
    position ∈ arangeStep start stop step ↔
      ∃ index < blockCount (stop - start) step, start + index * step = position := by
  rw [arangeStep_eq]
  simp only [List.mem_map, List.mem_range]

section Ranges

variable {transfer : Transfer}

/-- The slots of a block of a range are in order. -/
structure BlockInOrder (transfer : Transfer) (start stop : Int) (index : Nat) : Prop where
  natural : 0 ≤ transfer.slot (start + index * transfer.blockSize)
  aligned : transfer.slot (start + index * transfer.blockSize) % transfer.blockSize = 0
  sequential : transfer.Sequential (start + index * transfer.blockSize)
    (transfer.slot (start + index * transfer.blockSize))
    (min (stop - start - index * transfer.blockSize) transfer.blockSize)

/-- What the checks of a range say. -/
structure RangeLowered (transfer : Transfer) (range : BoundRange) : Prop where
  start : 0 ≤ range.start
  nonempty : range.start < range.stop
  covered : range.stop ≤ transfer.numSlots
  aligned : range.start % transfer.blockSize = 0
  source : 0 ≤ range.sourceStart ∧ range.sourceStart % transfer.blockSize = 0
  blocks : ∀ index < blockCount (range.stop - range.start) transfer.blockSize,
    BlockInOrder transfer range.start range.stop index

theorem slotAt_eq (position : Int) : slotAt transfer.slotMapping position = transfer.slot position :=
  rfl

/-- A position in an aligned range is a number of blocks and a rest behind the start. -/
theorem position_parts (positive : 0 < transfer.blockSize) {start position : Int}
    (aligned : start % transfer.blockSize = 0) (later : start ≤ position) :
    ∃ index intra : Nat, position = start + index * transfer.blockSize + intra ∧
      (intra : Int) < transfer.blockSize ∧ position % transfer.blockSize = intra ∧
      position / transfer.blockSize = start / transfer.blockSize + index := by
  have natural : 0 ≤ (position - start) / transfer.blockSize :=
    Int.ediv_nonneg (by omega) (Int.le_of_lt positive)
  obtain ⟨index, quotient⟩ := Int.eq_ofNat_of_zero_le natural
  obtain ⟨intra, rest⟩ := Int.eq_ofNat_of_zero_le
    (Int.emod_nonneg (position - start) (Int.ne_of_gt positive))
  have short := Int.emod_lt_of_pos (position - start) positive
  have split := Int.emod_add_mul_ediv (position - start) transfer.blockSize
  obtain ⟨count, whole⟩ := Int.dvd_of_emod_eq_zero aligned
  rw [rest] at short
  rw [quotient, rest, Int.mul_comm] at split
  have sum : position = intra + transfer.blockSize * (count + index) := by
    rw [Int.mul_add, ← whole, Int.mul_comm transfer.blockSize]
    omega
  refine ⟨index, intra, by omega, short, ?_, ?_⟩
  · rw [sum, Int.add_mul_emod_self_left,
      Int.emod_eq_of_lt (Int.natCast_nonneg intra) short]
  · rw [sum, Int.add_mul_ediv_left _ _ (Int.ne_of_gt positive),
      Int.ediv_eq_zero_of_lt (Int.natCast_nonneg intra) short, Int.zero_add, whole,
      Int.mul_ediv_cancel_left _ (Int.ne_of_gt positive)]

/-- The slots of blocks in order. -/
theorem slot_in_order (positive : 0 < transfer.blockSize) {start stop : Int}
    (blocks : ∀ index < blockCount (stop - start) transfer.blockSize,
      BlockInOrder transfer start stop index) {index intra : Nat}
    (short : (intra : Int) < transfer.blockSize)
    (inside : start + index * transfer.blockSize + intra < stop) :
    0 ≤ transfer.slot (start + index * transfer.blockSize + intra) ∧
      transfer.slot (start + index * transfer.blockSize + intra) =
        transfer.slot (start + index * transfer.blockSize) + intra ∧
      transfer.slot (start + index * transfer.blockSize + intra) % transfer.blockSize = intra := by
  obtain ⟨natural, aligned, sequential⟩ := blocks index ((lt_blockCount positive).mpr (by omega))
  have there := sequential intra (by omega)
  obtain ⟨block, whole⟩ := Int.dvd_of_emod_eq_zero aligned
  refine ⟨by omega, there, ?_⟩
  rw [there, whole, Int.add_comm, Int.add_mul_emod_self_left,
    Int.emod_eq_of_lt (Int.natCast_nonneg intra) short]

/-- A range passes its checks exactly where it is covered, aligned and in order. -/
theorem checkRange_eq_ok (positive : 0 < transfer.blockSize) {range : BoundRange} :
    checkRange transfer.blockSize transfer.slotMapping range = .ok () ↔
      RangeLowered transfer range := by
  constructor
  · intro passed
    rw [checkRange] at passed
    split at passed
    · cases passed
    · next covered =>
      split at passed
      · cases passed
      · next aligned =>
        split at passed
        · cases passed
        · next source =>
          split at passed
          · cases passed
          · next natural =>
            split at passed
            · cases passed
            · next inner =>
              split at passed
              · cases passed
              · next follows =>
                simp only [not_exists, not_and, not_not, not_or, Int.not_lt, Int.not_le, mem_arange,
                  slotAt_eq] at covered aligned source natural inner follows
                refine ⟨covered.1, covered.2.1, covered.2.2, aligned, source, fun index below => ?_⟩
                have begun := (lt_blockCount positive).mp below
                have low := Int.mul_nonneg (Int.natCast_nonneg index) (Int.le_of_lt positive)
                have here : range.start ≤ range.start + index * transfer.blockSize ∧
                    range.start + index * transfer.blockSize < range.stop := by omega
                have multiple : (range.start + index * transfer.blockSize) % transfer.blockSize =
                    0 := by rw [Int.add_mul_emod_self_right, aligned]
                refine ⟨natural _ here, (inner _ here).trans multiple, fun intra short => ?_⟩
                -- each slot follows the one before it in its block
                induction intra with
                | zero => rw [Nat.cast_zero, Int.add_zero, Int.add_zero]
                | succ intra inductionHypothesis =>
                  have before := inductionHypothesis (by omega)
                  have division (rest : Nat) (less : (rest : Int) < transfer.blockSize) :
                      (range.start + index * transfer.blockSize + rest) / transfer.blockSize =
                        (range.start + index * transfer.blockSize) / transfer.blockSize := by
                    obtain ⟨block, whole⟩ := Int.dvd_of_emod_eq_zero multiple
                    rw [whole, Int.add_comm, Int.add_mul_ediv_left _ _ (Int.ne_of_gt positive),
                      Int.ediv_eq_zero_of_lt (Int.natCast_nonneg rest) less, Int.zero_add,
                      Int.mul_ediv_cancel_left _ (Int.ne_of_gt positive)]
                  have unbroken := follows (range.start + index * transfer.blockSize + intra)
                    (by omega)
                  have cast : ((intra + 1 : Nat) : Int) = (intra : Int) + 1 := rfl
                  rw [Breaks, Int.add_assoc (range.start + index * transfer.blockSize), ← cast,
                    division (intra + 1) (by omega), division intra (by omega), not_and, not_not]
                    at unbroken
                  have next := unbroken rfl
                  rw [slotAt_eq, slotAt_eq, before] at next
                  rw [next]
                  omega
  · rintro ⟨start, nonempty, covered, aligned, source, blocks⟩
    have part {position : Int} (inside : range.start ≤ position ∧ position < range.stop) :=
      position_parts positive aligned inside.1
    rw [checkRange, if_neg (by rw [numel]; rw [Transfer.numSlots] at covered; omega),
      if_neg (not_not.mpr aligned),
      if_neg (by omega), if_neg, if_neg, if_neg]
    · rintro ⟨position, member, broken⟩
      rw [mem_arange] at member
      have inside : range.start ≤ position ∧ position < range.stop := by omega
      have insideNext : range.start ≤ position + 1 ∧ position + 1 < range.stop := by omega
      obtain ⟨index, intra, place, short, -, quotient⟩ := part inside
      obtain ⟨index', intra', place', short', -, quotient'⟩ := part insideNext
      obtain ⟨same, different⟩ := broken
      have sameIndex : index' = index := by omega
      subst sameIndex
      have nextIntra : (intra' : Int) = intra + 1 := by omega
      obtain ⟨-, here, -⟩ := slot_in_order positive blocks short (place ▸ inside.2)
      obtain ⟨-, there, -⟩ := slot_in_order positive blocks short' (place' ▸ insideNext.2)
      rw [← place] at here
      rw [← place'] at there
      refine different ?_
      rw [slotAt_eq, slotAt_eq, here, there, nextIntra]
      omega
    · rintro ⟨position, member, broken⟩
      rw [mem_arange] at member
      obtain ⟨index, intra, place, short, rest, -⟩ := part member
      obtain ⟨-, -, inner⟩ := slot_in_order positive blocks short (place ▸ member.2)
      rw [← place] at inner
      exact broken (inner.trans rest.symm)
    · rintro ⟨position, member, negative⟩
      rw [mem_arange] at member
      obtain ⟨index, intra, place, short, -, -⟩ := part member
      obtain ⟨natural, -, -⟩ := slot_in_order positive blocks short (place ▸ member.2)
      rw [← place] at natural
      exact absurd negative (Int.not_lt.mpr natural)

end Ranges

/-! ## Groups -/

section Groups

variable {α : Type}

/-- Entries are taken from the items, and every item has one under its key. -/
theorem foldl_setdefault (key value : α → Int) (items : List α) (groups : List (Int × Int)) :
    (∀ entry ∈ items.foldl (fun groups item => setdefault groups (key item) (value item)) groups,
      entry ∈ groups ∨ ∃ item ∈ items, entry = (key item, value item)) ∧
    (∀ entry ∈ groups, entry ∈
      items.foldl (fun groups item => setdefault groups (key item) (value item)) groups) ∧
    ∀ item ∈ items, ∃ slot, (key item, slot) ∈
      items.foldl (fun groups item => setdefault groups (key item) (value item)) groups := by
  induction items generalizing groups with
  | nil => exact ⟨fun _ member => .inl member, fun _ member => member, fun _ member => nomatch member⟩
  | cons first items inductionHypothesis =>
    obtain ⟨taken, kept, listed⟩ :=
      inductionHypothesis (setdefault groups (key first) (value first))
    have step : (∀ entry ∈ setdefault groups (key first) (value first), entry ∈ groups ∨
        entry = (key first, value first)) ∧
        (∀ entry ∈ groups, entry ∈ setdefault groups (key first) (value first)) ∧
        ∃ slot, (key first, slot) ∈ setdefault groups (key first) (value first) := by
      rw [setdefault]
      split
      · next present =>
        obtain ⟨entry, member, same⟩ := List.any_eq_true.mp present
        refine ⟨fun _ member => .inl member, fun _ member => member, entry.2, ?_⟩
        rw [← eq_of_beq same]
        exact member
      · refine ⟨fun entry member => ?_, fun entry member => List.mem_append_left _ member,
          value first, List.mem_append_right _ List.mem_cons_self⟩
        obtain old | new := List.mem_append.mp member
        · exact .inl old
        · exact .inr (List.mem_singleton.mp new)
    rw [List.foldl_cons]
    refine ⟨fun entry member => ?_, fun entry member => kept entry (step.2.1 entry member),
      fun item member => ?_⟩
    · obtain before | ⟨item, later, same⟩ := taken entry member
      · obtain old | rfl := step.1 entry before
        · exact .inl old
        · exact .inr ⟨first, List.mem_cons_self, rfl⟩
      · exact .inr ⟨item, List.mem_cons_of_mem _ later, same⟩
    · obtain rfl | later := List.mem_cons.mp member
      · obtain ⟨slot, added⟩ := step.2.2
        exact ⟨slot, kept _ added⟩
      · exact listed item later

variable {transfer : Transfer} {cpSize : Int} {ranges : List BoundRange}

/-- The first positions of the blocks of some ranges. -/
def blockPositions (transfer : Transfer) (ranges : List BoundRange) : List Int :=
  ranges.flatMap fun range => arangeStep range.start range.stop transfer.blockSize

theorem relevantGroups_eq :
    relevantGroups transfer.blockSize transfer.slotMapping cpSize ranges =
      (blockPositions transfer ranges).foldl (fun groups position =>
        setdefault groups (position / transfer.blockSize / cpSize) (transfer.slot position)) [] := by
  rw [relevantGroups, blockPositions, List.foldl_flatMap]
  rfl

/-- What the slots seen say. -/
theorem foldl_observe_some (shape : CyclicShape) (positions : List Int) (seen : Observed) :
    positions.foldl (observe transfer shape) (some seen) = some { seen with
      allBlocksSame := seen.allBlocksSame && decide (∀ position ∈ positions,
        0 ≤ transfer.slot position → transfer.slot position / transfer.blockSize =
          seen.firstBlock)
      allBasesSame := seen.allBasesSame && decide (∀ position ∈ positions,
        0 ≤ transfer.slot position → transfer.slot position / transfer.blockSize -
          position % (transfer.blockSize * shape.degree) / transfer.blockSize =
            seen.firstBase) } := by
  induction positions generalizing seen with
  | nil => simp
  | cons first positions inductionHypothesis =>
    rw [List.foldl_cons]
    by_cases natural : 0 ≤ transfer.slot first
    · have step : observe transfer shape (some seen) first = some { seen with
          allBlocksSame := seen.allBlocksSame && decide
            (transfer.slot first / transfer.blockSize = seen.firstBlock)
          allBasesSame := seen.allBasesSame && decide
            (transfer.slot first / transfer.blockSize -
              first % (transfer.blockSize * shape.degree) / transfer.blockSize =
                seen.firstBase) } := if_neg (Int.not_lt.mpr natural)
      rw [step, inductionHypothesis]
      simp only [List.forall_mem_cons, natural, forall_true_left, Bool.and_assoc,
        Bool.decide_and]
    · have step : observe transfer shape (some seen) first = some seen :=
        if_pos (Int.not_le.mp natural)
      rw [step, inductionHypothesis]
      simp only [List.forall_mem_cons, natural, false_implies, true_and]

/-- Padding in front is not seen. -/
theorem foldl_observe_none (shape : CyclicShape) (positions : List Int) :
    positions.foldl (observe transfer shape) none =
      match positions.filter fun position => decide (0 ≤ transfer.slot position) with
      | [] => none
      | first :: rest => some
        { firstBlock := transfer.slot first / transfer.blockSize
          firstBase := transfer.slot first / transfer.blockSize -
            first % (transfer.blockSize * shape.degree) / transfer.blockSize
          allBlocksSame := decide (∀ position ∈ first :: rest,
            transfer.slot position / transfer.blockSize =
              transfer.slot first / transfer.blockSize)
          allBasesSame := decide (∀ position ∈ first :: rest,
            transfer.slot position / transfer.blockSize -
              position % (transfer.blockSize * shape.degree) / transfer.blockSize =
                transfer.slot first / transfer.blockSize -
                  first % (transfer.blockSize * shape.degree) / transfer.blockSize) } := by
  induction positions with
  | nil => rfl
  | cons first positions inductionHypothesis =>
    rw [List.foldl_cons]
    by_cases natural : 0 ≤ transfer.slot first
    · have step : observe transfer shape none first = some
          ⟨transfer.slot first / transfer.blockSize, transfer.slot first / transfer.blockSize -
            first % (transfer.blockSize * shape.degree) / transfer.blockSize, true, true⟩ :=
        if_neg (Int.not_lt.mpr natural)
      have kept : (first :: positions).filter (fun position => decide (0 ≤ transfer.slot position)) =
          first :: positions.filter fun position => decide (0 ≤ transfer.slot position) :=
        List.filter_cons_of_pos (by simpa using natural)
      rw [step, foldl_observe_some, kept]
      simp only [List.forall_mem_cons, true_and, Bool.true_and, List.mem_filter, decide_eq_true_iff,
        and_imp]
    · have step : observe transfer shape none first = none := if_pos (Int.not_le.mp natural)
      rw [step, inductionHypothesis, List.filter_cons_of_neg (by simpa using natural)]

/-- A choice of two values, or an error. -/
theorem toOption_choice {p q : Prop} [Decidable p] [Decidable q] {p' q' : Bool}
    (same : p' = true ↔ p) (same' : q' = true ↔ q) (first second : Int) (error : String) :
    (if p then Except.ok first else if q then Except.ok second else Except.error error).toOption =
      if p' then some first else if q' then some second else none := by
  by_cases one : p
  · rw [if_pos one, if_pos (same.mpr one)]
    rfl
  · rw [if_neg one, if_neg (mt same.mp one)]
    by_cases two : q
    · rw [if_pos two, if_pos (same'.mpr two)]
      rfl
    · rw [if_neg two, if_neg (mt same'.mp two)]
      rfl

variable (transfer) in
/-- Lowering and the planner find the same block for every group, or neither finds one. -/
theorem resolve_toOption (shape : CyclicShape) (localVirtualBlock fallbackSlot : Int) :
    (resolvePhysicalBlock transfer.blockSize transfer.slotMapping shape.degree localVirtualBlock
      fallbackSlot).toOption =
        canonicalPhysicalBlock transfer shape localVirtualBlock fallbackSlot := by
  have product : localVirtualBlock * (transfer.blockSize * shape.degree) =
      localVirtualBlock * transfer.blockSize * shape.degree := (Int.mul_assoc _ _ _).symm
  have count : numel transfer.slotMapping = transfer.numSlots := rfl
  rw [resolvePhysicalBlock, canonicalPhysicalBlock, observedPositions, product, count]
  by_cases covered : 0 ≤ localVirtualBlock * transfer.blockSize * shape.degree ∧
      localVirtualBlock * transfer.blockSize * shape.degree <
        min (localVirtualBlock * transfer.blockSize * shape.degree +
          transfer.blockSize * shape.degree) transfer.numSlots
  · have inside : ¬ (localVirtualBlock * transfer.blockSize * shape.degree < 0 ∨
        min (localVirtualBlock * transfer.blockSize * shape.degree +
          transfer.blockSize * shape.degree) transfer.numSlots ≤
            localVirtualBlock * transfer.blockSize * shape.degree) :=
      not_or.mpr ⟨Int.not_lt.mpr covered.1, Int.not_le.mpr covered.2⟩
    have positions : (arange (localVirtualBlock * transfer.blockSize * shape.degree)
        (min (localVirtualBlock * transfer.blockSize * shape.degree +
          transfer.blockSize * shape.degree) transfer.numSlots)).filter
            (fun position => decide (0 ≤ slotAt transfer.slotMapping position)) =
        (groupPositions transfer shape localVirtualBlock).filter
          fun position => decide (0 ≤ transfer.slot position) := rfl
    rw [if_pos covered, positions, if_neg inside, foldl_observe_none]
    cases (groupPositions transfer shape localVirtualBlock).filter
        fun position => decide (0 ≤ transfer.slot position) with
    | nil => rfl
    | cons first rest =>
      refine toOption_choice ?_ ?_ _ _ _
      · exact decide_eq_true_iff
      · exact decide_eq_true_iff
  · have outside : localVirtualBlock * transfer.blockSize * shape.degree < 0 ∨
        min (localVirtualBlock * transfer.blockSize * shape.degree +
          transfer.blockSize * shape.degree) transfer.numSlots ≤
            localVirtualBlock * transfer.blockSize * shape.degree := by
      rw [not_and_or, Int.not_le, Int.not_lt] at covered
      exact covered
    rw [if_neg covered, if_pos outside]
    rfl

end Groups

end KvCache.Lmcache.BlockBinding
