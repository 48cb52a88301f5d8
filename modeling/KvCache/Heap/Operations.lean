import KvCache.Heap.Ownership

/-!
# Allocation, freeing and cold start keep the heap invariant

Each operation is a loop over the list operations, and each round of the loop is
one step of the ownership calculus: a split, an absorption, or a final release.
Allocation fails exactly when no aligned region of the needed order is free of
owned blocks, because a free region without a large enough free block would
contain two free siblings.
-/

namespace KvCache.Buddy

open AlignedBlock Function Layout

universe u
variable {ι : Type u}
variable {total : Nat} {contents : Nat → HeapBlock} {heap : Heap} {lists : Nat → List Nat}
variable {owned : ι → Option Block}

@[simp] theorem splitDown_maxOrder (unit needOrder order : Nat) (heap : Heap) :
    (splitDown unit needOrder order heap).maxOrder = heap.maxOrder := by
  induction order generalizing heap with
  | zero => rfl
  | succ order inductionHypothesis =>
    unfold splitDown
    split
    · rw [inductionHypothesis, buddyPushFree_maxOrder]
    · rfl

/-- The search stops at the first order with a free block, or past the maximum. -/
theorem searchOrder_spec (heap : Heap) (fuel order : Nat)
    (enough : heap.maxOrder + 1 ≤ order + fuel) :
    order ≤ searchOrder heap fuel order ∧
    (searchOrder heap fuel order ≤ heap.maxOrder →
      heap.freeHead (searchOrder heap fuel order) ≠ none) ∧
    (∀ size, order ≤ size → size < searchOrder heap fuel order → heap.freeHead size = none) := by
  induction fuel generalizing order with
  | zero =>
    simp only [searchOrder]
    exact ⟨Nat.le_refl _, fun below => by omega, fun size lower upper => by omega⟩
  | succ fuel inductionHypothesis =>
    unfold searchOrder
    split
    · next empty =>
      obtain ⟨lower, found, skipped⟩ := inductionHypothesis (order + 1) (by omega)
      refine ⟨by omega, found, fun size atLeast before => ?_⟩
      rcases Nat.lt_or_ge order size with above | below
      · exact skipped size above before
      · rw [Nat.le_antisymm below atLeast]
        exact empty.2
    · next stops =>
      refine ⟨Nat.le_refl _, fun below none => stops ⟨below, none⟩, fun size lower upper => ?_⟩
      omega

namespace HeapInv

variable [DecidableEq ι]

/-- Splitting keeps the invariant and leaves the owner with the needed order. -/
theorem splitDown (inv : HeapInv total contents heap lists owned) {owner : ι}
    {unit order needOrder : Nat} (owns : owned owner = some ⟨unit, order⟩)
    (ordered : needOrder ≤ order) :
    ∃ lists', HeapInv total contents (Buddy.splitDown unit needOrder order heap) lists'
      (update owned owner (some ⟨unit, needOrder⟩)) := by
  induction order generalizing heap lists owned with
  | zero =>
    obtain rfl : needOrder = 0 := Nat.le_zero.mp ordered
    exact ⟨lists, by rw [← owns, update_eq_self]; exact inv⟩
  | succ order inductionHypothesis =>
    unfold Buddy.splitDown
    split
    · obtain ⟨lists', after⟩ := inductionHypothesis (inv.split owns) (by simp) (by omega)
      exact ⟨lists', by simpa using after⟩
    · obtain rfl : needOrder = order + 1 := by omega
      exact ⟨lists, by rw [← owns, update_eq_self]; exact inv⟩

omit [DecidableEq ι] in
/-- A record that reads as a free block of the sibling's order is not stale: the
sibling starts a current block, since its unit cannot lie inside one. -/
theorem sibling_listed (inv : HeapInv total contents heap lists owned) {owner : ι} {block : Block}
    (owns : owned owner = some block) (inRange : block.buddy.unit < total) :
    ((heap.metadata block.buddy.unit).state = .free ∧
      (heap.metadata block.buddy.unit).order = block.order) ↔
      block.buddy.unit ∈ lists block.order := by
  constructor
  · rintro ⟨state, order⟩
    obtain ⟨other, piece, start, _⟩ := inv.tiles.sibling_piece (Or.inr ⟨owner, owns⟩) inRange
    rcases piece with listed | ⟨holder, held⟩
    · rw [start] at listed
      rw [← order, (inv.free.marked other.order _ listed).2]
      exact listed
    · exact absurd (start ▸ state) (inv.ownedMarked holder other held)
  · exact inv.free.marked block.order _

/-- Coalescing ends with the owner's block grown to one without a free sibling. -/
theorem coalesce (inv : HeapInv total contents heap lists owned) (fuel : Nat) {owner : ι}
    {block : Block} (owns : owned owner = some block)
    (enough : heap.maxOrder ≤ block.order + fuel) :
    ∃ merged heap' lists',
      Buddy.coalesce total fuel block.unit block.order heap = (heap', merged.unit, merged.order) ∧
      HeapInv total contents heap' lists' (update owned owner (some merged)) ∧
      (merged.order < heap'.maxOrder → merged.buddy.unit ∉ lists' merged.order) := by
  induction fuel generalizing heap lists owned block with
  | zero =>
    refine ⟨block, heap, lists, rfl, ?_, fun below => by omega⟩
    rw [← owns, update_eq_self]
    exact inv
  | succ fuel inductionHypothesis =>
    have stop : (block.order < heap.maxOrder → block.buddy.unit ∉ lists block.order) →
        ∃ merged heap' lists',
          (heap, block.unit, block.order) = (heap', merged.unit, merged.order) ∧
          HeapInv total contents heap' lists' (update owned owner (some merged)) ∧
          (merged.order < heap'.maxOrder → merged.buddy.unit ∉ lists' merged.order) := by
      intro alone
      exact ⟨block, heap, lists, rfl, by rw [← owns, update_eq_self]; exact inv, alone⟩
    have buddyUnit : block.unit ^^^ 2 ^ block.order = block.buddy.unit := rfl
    unfold Buddy.coalesce
    simp only [buddyUnit]
    by_cases below : block.order < heap.maxOrder
    · rw [if_pos below]
      by_cases outside : total ≤ block.buddy.unit
      · rw [if_pos outside]
        refine stop fun _ listed => ?_
        have inside := inv.tiles.inside block.buddy (Or.inl listed)
        have proper := block.buddy.finish_gt
        omega
      · rw [if_neg outside]
        have current := inv.sibling_listed owns (Nat.lt_of_not_le outside)
        by_cases reads : (heap.metadata block.buddy.unit).state ≠ .free ∨
            (heap.metadata block.buddy.unit).order ≠ block.order
        · rw [if_pos reads]
          refine stop fun _ listed => ?_
          obtain ⟨state, order⟩ := current.mpr listed
          rcases reads with notFree | notOrder
          · exact notFree state
          · exact notOrder order
        · rw [if_neg reads]
          have listed := current.mp (by
            simpa only [not_or, ne_eq, Decidable.not_not] using reads)
          have start : (if block.buddy.unit < block.unit then block.buddy.unit else block.unit)
              = block.parent.unit := by
            unfold Block.parent
            simp only
            split <;> omega
          rw [start]
          obtain ⟨merged, heap', lists', result, after, alone⟩ :=
            inductionHypothesis (inv.absorb owns listed) (update_self owner (some block.parent) owned)
              (by rw [buddyRemoveFree_maxOrder, Block.parent_order]; omega)
          exact ⟨merged, heap', lists', result, by simpa using after, alone⟩
    · rw [if_neg below]
      exact stop fun less => absurd less below

/-- Freeing an owned block keeps the invariant. -/
theorem buddyFree (inv : HeapInv total contents heap lists owned) (owner : ι) {block : Block}
    (owns : owned owner = some block) :
    ∃ lists', HeapInv total contents (Buddy.buddyFree block.unit block.order total heap) lists'
      (update owned owner none) := by
  obtain ⟨merged, heap', lists', result, after, alone⟩ :=
    inv.coalesce (heap.maxOrder - block.order) owns (by omega)
  refine ⟨update lists' merged.order (merged.unit :: lists' merged.order), ?_⟩
  have released := after.release (update_self ..) alone
  simpa only [Buddy.buddyFree, result, update_idem] using released

/-- A successful allocation gives the owner an aligned block of the needed order
and marks it. -/
theorem buddyAllocate_some (inv : HeapInv total contents heap lists owned) (owner : ι)
    {units : Nat} {state : BlockState} {heap' : Heap} {unit order : Nat}
    (idle : owned owner = none) (taken : state ≠ .free)
    (allocated : buddyAllocate units state heap = some (heap', unit, order)) :
    order = buddyOrderForUnits units ∧ ∃ lists', HeapInv total contents heap' lists'
      (update owned owner (some ⟨unit, order⟩)) := by
  unfold buddyAllocate at allocated
  simp only at allocated
  split at allocated
  · exact nomatch allocated
  · obtain ⟨lower, _, _⟩ := searchOrder_spec heap
      (heap.maxOrder + 1 - buddyOrderForUnits units) (buddyOrderForUnits units) (by omega)
    split at allocated
    · exact nomatch allocated
    · next start head =>
      obtain ⟨rfl, rfl, rfl⟩ : _ ∧ _ ∧ _ := by
        simpa only [Option.some.injEq, Prod.mk.injEq] using allocated
      rw [inv.free.heads] at head
      have removed := inv.take (List.mem_of_head? head) idle
      obtain ⟨lists', split⟩ := removed.splitDown (update_self ..) lower
      rw [update_idem] at split
      exact ⟨rfl, lists', split.mark _ (update_self ..) _ taken⟩

omit [DecidableEq ι] in
/-- A failed allocation means that every region of the needed order meets an
owned block. -/
theorem buddyAllocate_none (inv : HeapInv total contents heap lists owned) {units : Nat}
    {state : BlockState} (refused : buddyAllocate units state heap = none) (region : Block)
    (sized : region.order = buddyOrderForUnits units) (aligned : region.Aligned)
    (inside : region.finish ≤ total) :
    ∃ owner block, owned owner = some block ∧ ¬ block.Apart region := by
  by_contra clear
  obtain ⟨_, found, skipped⟩ := searchOrder_spec heap
    (heap.maxOrder + 1 - buddyOrderForUnits units) (buddyOrderForUnits units) (by omega)
  have fits : region.order ≤ heap.maxOrder := by
    have small : 2 ^ region.order ≤ total := (Nat.le_add_left _ _).trans inside
    have positive := Nat.two_pow_pos region.order
    rw [inv.maxOrder]
    exact (Nat.le_log2 (by omega)).mpr small
  obtain ⟨block, piece, listed, within⟩ := inv.tiles.fits
    (fun block => block.unit ∈ lists block.order) aligned inside fits
    (by
      rintro block (listed | ⟨owner, owns⟩) meet
      · exact listed
      · exact absurd ⟨owner, block, owns, meet⟩ clear)
    (fun block below listed sibling => inv.coalesced block.order below block.unit listed sibling)
  have large : region.order ≤ block.order := by
    by_contra smaller
    have sizes : 2 ^ block.order < 2 ^ region.order :=
      Nat.pow_lt_pow_right (by decide) (Nat.lt_of_not_le smaller)
    obtain ⟨low, high⟩ := within
    unfold Block.finish Block.size at high
    omega
  have nonempty : heap.freeHead block.order ≠ none := by
    rw [inv.free.heads]
    intro empty
    rw [List.head?_eq_none_iff.mp empty] at listed
    exact List.not_mem_nil listed
  have bounded := inv.order_le piece
  have reached : searchOrder heap (heap.maxOrder + 1 - buddyOrderForUnits units)
      (buddyOrderForUnits units) ≤ block.order := by
    by_contra beyond
    exact nonempty (skipped block.order (sized ▸ large) (Nat.lt_of_not_le beyond))
  unfold buddyAllocate at refused
  simp only at refused
  rw [if_neg (by omega)] at refused
  split at refused
  · next head => exact found (by omega) head
  · exact nomatch refused

end HeapInv

/-! ## Cold start -/

/-- At a multiple of the size the alignment loop changes nothing. -/
theorem alignOrder_eq {firstUnit order : Nat} (aligned : 2 ^ order ∣ firstUnit) :
    alignOrder firstUnit order = order := by
  cases order with
  | zero => rfl
  | succ order =>
    unfold alignOrder
    rw [Nat.and_two_pow_sub_one_eq_mod, Nat.mod_eq_zero_of_dvd aligned]
    simp

/-- The state of the seeding loop: the units below `first` are tiled by free
blocks of distinct orders, each larger than what remains. -/
structure Seeding (contents : Nat → HeapBlock) (heap : Heap) (lists : Nat → List Nat)
    (first remaining : Nat) : Prop where
  free : FreeLists heap lists
  tiles : Tiles first (fun block => block.unit ∈ lists block.order)
  stale : ∀ unit, (heap.metadata unit).state = .free →
    unit ∈ lists (heap.metadata unit).order ∨ heap.metadata unit = contents unit
  larger : ∀ order, lists order ≠ [] → remaining < 2 ^ order
  single : ∀ order, ∀ left ∈ lists order, ∀ right ∈ lists order, left = right
  aligned : ∀ order, 2 ^ order ≤ remaining → 2 ^ order ∣ first

/-- One seed block. -/
theorem Seeding.step {first remaining : Nat}
    (seeding : Seeding contents heap lists first remaining) (positive : remaining ≠ 0) :
    alignOrder first (floorLog2 remaining) = floorLog2 remaining ∧
    2 ^ floorLog2 remaining ≤ remaining ∧
    Seeding contents (buddyPushFree first (floorLog2 remaining) heap)
      (update lists (floorLog2 remaining) (first :: lists (floorLog2 remaining)))
      (first + 2 ^ floorLog2 remaining) (remaining - 2 ^ floorLog2 remaining) := by
  have fits : 2 ^ floorLog2 remaining ≤ remaining := Nat.log2_self_le positive
  have tight : remaining < 2 ^ (floorLog2 remaining + 1) := Nat.lt_log2_self
  have start := seeding.aligned _ fits
  generalize floorLog2 remaining = order at *
  have size := Nat.two_pow_pos order
  have newOrder : lists order = [] := by
    by_contra nonempty
    have less := seeding.larger order nonempty
    omega
  have below : ∀ block : Block, block.unit ∈ lists block.order → block.unit < first := by
    intro block listed
    exact Nat.lt_of_lt_of_le block.finish_gt (seeding.tiles.inside block listed)
  have fresh : ∀ size, first ∉ lists size := fun size listed =>
    Nat.lt_irrefl _ (below ⟨first, size⟩ listed)
  have frame := fun other => seeding.free.push_frame order other fresh
  have unlisted : heap.freeHead order ≠ some first := by
    rw [seeding.free.heads, newOrder]
    exact fun impossible => nomatch impossible
  have doubled : 2 ^ (order + 1) = 2 * 2 ^ order := by ring
  refine ⟨alignOrder_eq start, fits, seeding.free.push fresh, ⟨?_, ?_, ?_, ?_⟩, ?_, ?_, ?_, ?_⟩
  · intro block piece
    rcases mem_pushed.mp piece with listed | ⟨orders, starts⟩
    · exact seeding.tiles.aligned block listed
    · rw [Block.Aligned, Block.size, orders, starts]
      exact start
  · intro block piece
    rcases mem_pushed.mp piece with listed | ⟨orders, starts⟩
    · exact (seeding.tiles.inside block listed).trans (Nat.le_add_right _ _)
    · rw [Block.finish, Block.size, orders, starts]
  · intro left right leftPiece rightPiece different
    rcases mem_pushed.mp leftPiece with leftListed | ⟨leftOrder, leftStart⟩ <;>
      rcases mem_pushed.mp rightPiece with rightListed | ⟨rightOrder, rightStart⟩
    · exact seeding.tiles.apart left right leftListed rightListed different
    · exact Or.inl ((seeding.tiles.inside left leftListed).trans rightStart.ge)
    · exact Or.inr ((seeding.tiles.inside right rightListed).trans leftStart.ge)
    · refine absurd ?_ different
      cases left
      cases right
      simp_all
  · intro unit inside
    by_cases before : unit < first
    · obtain ⟨block, listed, contains⟩ := seeding.tiles.cover unit before
      exact ⟨block, mem_pushed.mpr (Or.inl listed), contains⟩
    · exact ⟨⟨first, order⟩, mem_pushed.mpr (Or.inr ⟨rfl, rfl⟩), Nat.le_of_not_lt before, inside⟩
  · intro other marked
    rw [mem_pushed]
    by_cases atFirst : other = first
    · subst atFirst
      rw [buddyPushFree_metadata unlisted, if_pos rfl]
      exact Or.inl (Or.inr ⟨rfl, rfl⟩)
    · obtain ⟨state, sizes, record⟩ := frame _ atFirst
      rw [state] at marked
      rw [sizes]
      by_cases onList : ∃ size, other ∈ lists size
      · obtain ⟨size, member⟩ := onList
        rw [(seeding.free.marked size other member).2]
        exact Or.inl (Or.inl member)
      · have off : ∀ size, other ∉ lists size := fun size member => onList ⟨size, member⟩
        rw [record off]
        exact Or.inr ((seeding.stale other marked).resolve_left (off _))
  · intro size nonempty
    by_cases same : size = order
    · subst same
      omega
    · rw [update_of_ne same] at nonempty
      exact (Nat.sub_le _ _).trans_lt (seeding.larger size nonempty)
  · intro size left leftMember right rightMember
    rw [mem_pushed] at leftMember rightMember
    rcases leftMember with leftListed | ⟨leftOrder, rfl⟩ <;>
      rcases rightMember with rightListed | ⟨rightOrder, rfl⟩
    · exact seeding.single size left leftListed right rightListed
    · rw [rightOrder, newOrder] at leftListed
      exact absurd leftListed List.not_mem_nil
    · rw [leftOrder, newOrder] at rightListed
      exact absurd rightListed List.not_mem_nil
    · rfl
  · intro size small
    have less : size < order := by
      by_contra atLeast
      have grown : 2 ^ order ≤ 2 ^ size :=
        Nat.pow_le_pow_right (by decide) (Nat.le_of_not_lt atLeast)
      omega
    exact Nat.dvd_add (seeding.aligned size (small.trans (Nat.sub_le _ _)))
      (Nat.pow_dvd_pow 2 less.le)

/-- The loop seeds everything that remains. -/
theorem Seeding.run {first remaining fuel : Nat}
    (seeding : Seeding contents heap lists first remaining) (enough : remaining ≤ fuel) :
    ∃ lists', Seeding contents (seedFrom fuel first remaining heap) lists' (first + remaining) 0 ∧
      (seedFrom fuel first remaining heap).maxOrder = heap.maxOrder := by
  induction fuel generalizing first remaining heap lists with
  | zero =>
    obtain rfl : remaining = 0 := Nat.le_zero.mp enough
    exact ⟨lists, seeding, rfl⟩
  | succ fuel inductionHypothesis =>
    unfold seedFrom
    split
    · next none =>
      subst none
      exact ⟨lists, seeding, rfl⟩
    · next positive =>
      obtain ⟨aligned, fits, stepped⟩ := seeding.step positive
      have size := Nat.two_pow_pos (floorLog2 remaining)
      obtain ⟨lists', final, orders⟩ := inductionHypothesis stepped (by omega)
      simp only [aligned]
      refine ⟨lists', ?_, orders.trans buddyPushFree_maxOrder⟩
      have total : first + 2 ^ floorLog2 remaining + (remaining - 2 ^ floorLog2 remaining)
          = first + remaining := by omega
      exact total ▸ final

/-- Cold start establishes the invariant with no owner, for every heap size and
whatever DRAM held before. -/
theorem seedHeap_inv (contents : Nat → HeapBlock) (total : Nat) :
    ∃ lists, HeapInv total contents (seedHeap contents total) lists
      (fun _ : ι => (none : Option Block)) := by
  have start : Seeding contents ⟨contents, fun _ => none, floorLog2 total⟩ (fun _ => []) 0 total := by
    refine ⟨⟨fun _ => trivial, fun _ => rfl, fun _ => List.nodup_nil, ?_⟩, ⟨?_, ?_, ?_, ?_⟩,
      ?_, ?_, ?_, ?_⟩
    · exact fun _ _ member => absurd member List.not_mem_nil
    · exact fun _ member => absurd member List.not_mem_nil
    · exact fun _ member => absurd member List.not_mem_nil
    · exact fun _ _ member => absurd member List.not_mem_nil
    · exact fun _ below => absurd below (Nat.not_lt_zero _)
    · exact fun _ _ => Or.inr rfl
    · exact fun _ nonempty => absurd rfl nonempty
    · exact fun _ _ member => absurd member List.not_mem_nil
    · exact fun _ _ => Nat.dvd_zero _
  obtain ⟨lists, seeded, orders⟩ := start.run (Nat.le_refl total)
  refine ⟨lists, seeded.free, orders, ?_, ?_, ?_, ?_, seeded.stale, ?_⟩
  · refine Tiles.congr (Nat.zero_add total ▸ seeded.tiles) fun block => ?_
    simp
  · exact fun _ _ owns => nomatch owns
  · exact fun _ _ _ owns => nomatch owns
  · exact fun _ _ owns => nomatch owns
  · intro size _ unit listed sibling
    have same := seeded.single size unit listed _ sibling
    have power : 2 ^ size = 0 := by
      calc 2 ^ size = unit ^^^ (unit ^^^ 2 ^ size) := (Nat.xor_xor_cancel_left _ _).symm
        _ = 0 := by rw [← same, Nat.xor_self]
    exact absurd power (Nat.two_pow_pos size).ne'

end KvCache.Buddy
