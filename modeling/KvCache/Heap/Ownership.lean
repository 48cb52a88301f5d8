import KvCache.Heap.FreeList

/-!
# Ownership of heap blocks

The heap invariant relates the metadata to a family of free lists and to an
assignment of blocks to owners. Free blocks and owned blocks tile the heap, no
two free siblings exist below the maximal order, and no owned block starts at a
unit marked free. The type of owners is a parameter: the invariant does not say
who they are, only that distinct owners hold distinct blocks.

A unit may read as free although it starts no block, when DRAM held such a record
before cold start and nothing was written there since. The clause `stale` admits
exactly these words. Freeing never trusts one of them: a sibling below the end of
the heap always starts a current block, whose record is current.

A block that an operation is working on belongs to its future or former owner
throughout, so every step of a split or a merge preserves the invariant.
-/

namespace KvCache.Buddy

open AlignedBlock Function Layout

universe u
variable {ι : Type u}

/-- Free lists and owned blocks tile the heap, over the DRAM contents that cold
start found. -/
structure HeapInv (total : Nat) (contents : Nat → HeapBlock) (heap : Heap)
    (lists : Nat → List Nat) (owned : ι → Option Block) : Prop where
  free : FreeLists heap lists
  maxOrder : heap.maxOrder = floorLog2 total
  tiles : Tiles total (fun block => block.unit ∈ lists block.order ∨
    ∃ owner, owned owner = some block)
  exclusive : ∀ owner block, owned owner = some block → block.unit ∉ lists block.order
  distinct : ∀ left right block, owned left = some block → owned right = some block → left = right
  ownedMarked : ∀ owner block, owned owner = some block →
    (heap.metadata block.unit).state ≠ .free
  stale : ∀ unit, (heap.metadata unit).state = .free →
    unit ∈ lists (heap.metadata unit).order ∨ heap.metadata unit = contents unit
  coalesced : ∀ size < heap.maxOrder, ∀ unit ∈ lists size, unit ^^^ 2 ^ size ∉ lists size

section Lists

variable {heap : Heap} {lists : Nat → List Nat}

theorem mem_pushed {unit order other size : Nat} :
    other ∈ update lists order (unit :: lists order) size ↔
      other ∈ lists size ∨ (size = order ∧ other = unit) := by
  by_cases same : size = order
  · subst same
    simp [or_comm]
  · simp [same]

theorem mem_removed (free : FreeLists heap lists) {unit order other size : Nat} :
    other ∈ update lists order ((lists order).erase unit) size ↔
      other ∈ lists size ∧ ¬ (size = order ∧ other = unit) := by
  by_cases same : size = order
  · subst same
    rw [update_self, (free.distinct size).mem_erase_iff]
    simp [and_comm]
  · simp [same]

end Lists

section Owners

variable [DecidableEq ι] {owned : ι → Option Block} {owner holder : ι} {block other : Block}

theorem owns_assigned : update owned owner (some block) holder = some other ↔
    (holder = owner ∧ other = block) ∨ (holder ≠ owner ∧ owned holder = some other) := by
  by_cases same : holder = owner
  · subst same
    simp [eq_comm]
  · simp [same]

theorem owns_released : update owned owner none holder = some other ↔
    holder ≠ owner ∧ owned holder = some other := by
  by_cases same : holder = owner
  · subst same
    simp
  · simp [same]

end Owners

namespace HeapInv

variable {total : Nat} {contents : Nat → HeapBlock} {heap : Heap} {lists : Nat → List Nat}
variable {owned : ι → Option Block}

/-- An owned block starts at no listed unit. -/
theorem unlisted (inv : HeapInv total contents heap lists owned) {owner : ι} {block : Block}
    (owns : owned owner = some block) (size : Nat) : block.unit ∉ lists size := by
  intro listed
  have same : (⟨block.unit, size⟩ : Block) = block :=
    inv.tiles.eq_of_unit (Or.inl listed) (Or.inr ⟨owner, owns⟩) rfl
  have sizes : size = block.order := congrArg Block.order same
  exact inv.exclusive owner block owns (sizes ▸ listed)

/-- Blocks of distinct owners are apart. -/
theorem owned_apart (inv : HeapInv total contents heap lists owned) {left right : ι}
    {leftBlock rightBlock : Block} (leftOwns : owned left = some leftBlock)
    (rightOwns : owned right = some rightBlock) (different : left ≠ right) :
    leftBlock.Apart rightBlock := by
  refine inv.tiles.apart _ _ (Or.inr ⟨left, leftOwns⟩) (Or.inr ⟨right, rightOwns⟩) ?_
  rintro rfl
  exact different (inv.distinct left right _ leftOwns rightOwns)

/-- No block exceeds the maximal order. -/
theorem order_le (inv : HeapInv total contents heap lists owned) {block : Block}
    (piece : block.unit ∈ lists block.order ∨ ∃ owner, owned owner = some block) :
    block.order ≤ heap.maxOrder := by
  have inside := inv.tiles.inside block piece
  have fits : 2 ^ block.order ≤ total := (Nat.le_add_left _ _).trans inside
  have positive := Nat.two_pow_pos block.order
  rw [inv.maxOrder]
  exact (Nat.le_log2 (by omega)).mpr fits

/-- What a push does to the clauses about records: the pushed unit is listed and
all other units read as before. -/
theorem pushed_records (inv : HeapInv total contents heap lists owned) {unit : Nat} (order : Nat)
    (fresh : ∀ size, unit ∉ lists size) :
    (∀ other, other ≠ unit →
      ((buddyPushFree unit order heap).metadata other).state = (heap.metadata other).state) ∧
    (∀ other, ((buddyPushFree unit order heap).metadata other).state = .free →
      other ∈ update lists order (unit :: lists order)
        ((buddyPushFree unit order heap).metadata other).order ∨
      (buddyPushFree unit order heap).metadata other = contents other) := by
  have frame := fun other => inv.free.push_frame order other fresh
  have unlisted : heap.freeHead order ≠ some unit := by
    rw [inv.free.heads]
    exact fun head => fresh order (List.mem_of_head? head)
  refine ⟨fun other different => (frame _ different).1, fun other marked => ?_⟩
  rw [mem_pushed]
  by_cases atUnit : other = unit
  · subst atUnit
    rw [buddyPushFree_metadata unlisted, if_pos rfl]
    exact Or.inl (Or.inr ⟨rfl, rfl⟩)
  · obtain ⟨state, sizes, record⟩ := frame _ atUnit
    rw [state] at marked
    rw [sizes]
    by_cases onList : ∃ size, other ∈ lists size
    · obtain ⟨size, member⟩ := onList
      rw [(inv.free.marked size other member).2]
      exact Or.inl (Or.inl member)
    · have off : ∀ size, other ∉ lists size := fun size member => onList ⟨size, member⟩
      rw [record off]
      exact Or.inr ((inv.stale other marked).resolve_left (off _))

variable [DecidableEq ι]

/-- The owner takes a free block. -/
theorem take (inv : HeapInv total contents heap lists owned) {owner : ι} {unit order : Nat}
    (listed : unit ∈ lists order) (idle : owned owner = none) :
    HeapInv total contents (buddyRemoveFree unit order heap)
      (update lists order ((lists order).erase unit))
      (update owned owner (some ⟨unit, order⟩)) := by
  have frame := fun other => inv.free.remove_frame other listed
  have away : ∀ holder block, owned holder = some block → block.unit ≠ unit := by
    rintro holder block owns rfl
    exact inv.unlisted owns order listed
  refine ⟨inv.free.remove listed, ?_, ?_, ?_, ?_, ?_, ?_, ?_⟩
  · rw [buddyRemoveFree_maxOrder, inv.maxOrder]
  · refine inv.tiles.congr fun block => ?_
    simp only [mem_removed inv.free, owns_assigned]
    constructor
    · rintro (⟨member, _⟩ | ⟨holder, ⟨rfl, rfl⟩ | ⟨_, owns⟩⟩)
      · exact Or.inl member
      · exact Or.inl listed
      · exact Or.inr ⟨holder, owns⟩
    · rintro (member | ⟨holder, owns⟩)
      · by_cases taken : block.order = order ∧ block.unit = unit
        · obtain ⟨rfl, rfl⟩ := taken
          exact Or.inr ⟨owner, Or.inl ⟨rfl, rfl⟩⟩
        · exact Or.inl ⟨member, taken⟩
      · refine Or.inr ⟨holder, Or.inr ⟨?_, owns⟩⟩
        rintro rfl
        simp [idle] at owns
  · intro holder block owns
    rw [mem_removed inv.free]
    rcases owns_assigned.mp owns with ⟨rfl, rfl⟩ | ⟨_, held⟩
    · exact fun ⟨_, kept⟩ => kept ⟨rfl, rfl⟩
    · exact fun ⟨member, _⟩ => inv.exclusive holder block held member
  · intro left right block leftOwns rightOwns
    rcases owns_assigned.mp leftOwns with ⟨rfl, rfl⟩ | ⟨_, leftHeld⟩ <;>
      rcases owns_assigned.mp rightOwns with ⟨rfl, same⟩ | ⟨_, rightHeld⟩
    · rfl
    · exact absurd rfl (away right _ rightHeld)
    · exact absurd (congrArg Block.unit same) (away left _ leftHeld)
    · exact inv.distinct left right block leftHeld rightHeld
  · intro holder block owns
    rcases owns_assigned.mp owns with ⟨rfl, rfl⟩ | ⟨_, held⟩
    · rw [buddyRemoveFree_metadata, if_pos rfl]
      exact fun impossible => nomatch impossible
    · rw [(frame _ (away holder block held)).1]
      exact inv.ownedMarked holder block held
  · intro other marked
    by_cases atUnit : other = unit
    · subst atUnit
      rw [buddyRemoveFree_metadata, if_pos rfl] at marked
      exact nomatch marked
    · obtain ⟨state, sizes, record⟩ := frame _ atUnit
      rw [state] at marked
      rw [mem_removed inv.free, sizes]
      by_cases onList : ∃ size, other ∈ lists size
      · obtain ⟨size, member⟩ := onList
        rw [(inv.free.marked size other member).2]
        exact Or.inl ⟨member, fun same => atUnit same.2⟩
      · have off : ∀ size, other ∉ lists size := fun size member => onList ⟨size, member⟩
        rw [record off]
        exact Or.inr ((inv.stale other marked).resolve_left (off _))
  · intro size below other member
    rw [buddyRemoveFree_maxOrder] at below
    rw [mem_removed inv.free] at member ⊢
    rintro ⟨sibling, _⟩
    exact inv.coalesced size below other member.1 sibling

/-- Freeing the upper half of an owned block. -/
theorem split (inv : HeapInv total contents heap lists owned) {owner : ι} {unit order : Nat}
    (owns : owned owner = some ⟨unit, order + 1⟩) :
    HeapInv total contents (buddyPushFree (unit + 2 ^ order) order heap)
      (update lists order ((unit + 2 ^ order) :: lists order))
      (update owned owner (some ⟨unit, order⟩)) := by
  have whole := inv.tiles.aligned _ (Or.inr ⟨owner, owns⟩)
  obtain ⟨lower, upper, _⟩ := Block.halves whole
  have positive := Nat.two_pow_pos order
  have contained : (Block.mk unit (order + 1)).Mem (unit + 2 ^ order) := by
    unfold Block.Mem Block.finish Block.size
    simp only [Nat.pow_succ]
    omega
  have upperStart : unit ^^^ 2 ^ order = unit + 2 ^ order := congrArg Block.unit upper
  have lowerStart : (unit + 2 ^ order) ^^^ 2 ^ order = unit := by
    rw [← upperStart, Nat.xor_xor_cancel_right]
  have inner : ∀ block : Block,
      (block.unit ∈ lists block.order ∨ ∃ holder, owned holder = some block) →
      block.unit ≠ unit + 2 ^ order := by
    intro block piece same
    have equal := inv.tiles.eq_of_mem piece (Or.inr ⟨owner, owns⟩)
      (same ▸ block.mem_unit) contained
    have starts : block.unit = unit := congrArg Block.unit equal
    omega
  have fresh : ∀ size, unit + 2 ^ order ∉ lists size := fun size member =>
    inner ⟨_, size⟩ (Or.inl member) rfl
  obtain ⟨states, stale⟩ := inv.pushed_records order fresh
  refine ⟨inv.free.push fresh, ?_, ?_, ?_, ?_, ?_, stale, ?_⟩
  · rw [buddyPushFree_maxOrder, inv.maxOrder]
  · refine (inv.tiles.split (Or.inr ⟨owner, owns⟩)).congr fun block => ?_
    simp only [mem_pushed, owns_assigned]
    constructor
    · rintro ((member | ⟨sizes, starts⟩) | ⟨holder, ⟨rfl, rfl⟩ | ⟨different, held⟩⟩)
      · refine Or.inl ⟨Or.inl member, ?_⟩
        rintro rfl
        exact inv.exclusive owner _ owns member
      · right; right
        cases block
        simp_all
      · exact Or.inr (Or.inl rfl)
      · refine Or.inl ⟨Or.inr ⟨holder, held⟩, ?_⟩
        rintro rfl
        exact different (inv.distinct holder owner _ held owns)
    · rintro (⟨member | ⟨holder, held⟩, other⟩ | rfl | rfl)
      · exact Or.inl (Or.inl member)
      · refine Or.inr ⟨holder, Or.inr ⟨?_, held⟩⟩
        rintro rfl
        exact other (Option.some.inj (held.symm.trans owns))
      · exact Or.inr ⟨owner, Or.inl ⟨rfl, rfl⟩⟩
      · exact Or.inl (Or.inr ⟨rfl, rfl⟩)
  · intro holder block held
    rw [mem_pushed]
    rcases owns_assigned.mp held with ⟨rfl, rfl⟩ | ⟨_, before⟩
    · rintro (member | ⟨_, starts⟩)
      · exact inv.unlisted owns order member
      · simp only at starts
        omega
    · rintro (member | ⟨_, starts⟩)
      · exact inv.exclusive holder block before member
      · exact inner block (Or.inr ⟨holder, before⟩) starts
  · intro left right block leftOwns rightOwns
    rcases owns_assigned.mp leftOwns with ⟨rfl, rfl⟩ | ⟨_, leftHeld⟩ <;>
      rcases owns_assigned.mp rightOwns with ⟨rfl, same⟩ | ⟨_, rightHeld⟩
    · rfl
    · have equal : (⟨unit, order⟩ : Block) = _ :=
        inv.tiles.eq_of_unit (Or.inr ⟨right, rightHeld⟩) (Or.inr ⟨left, owns⟩) rfl
      simp at equal
    · have start : block.unit = unit := congrArg Block.unit same
      have equal := inv.tiles.eq_of_unit (Or.inr ⟨left, leftHeld⟩) (Or.inr ⟨right, owns⟩) start
      simp [equal] at same
    · exact inv.distinct left right block leftHeld rightHeld
  · intro holder block held
    rcases owns_assigned.mp held with ⟨rfl, rfl⟩ | ⟨_, before⟩
    · rw [states unit (by omega)]
      exact inv.ownedMarked holder _ owns
    · rw [states _ (inner block (Or.inr ⟨holder, before⟩))]
      exact inv.ownedMarked holder block before
  · intro size below other member
    rw [buddyPushFree_maxOrder] at below
    rw [mem_pushed] at member ⊢
    rintro (sibling | ⟨rfl, starts⟩)
    · rcases member with listed | ⟨rfl, rfl⟩
      · exact inv.coalesced size below other listed sibling
      · rw [lowerStart] at sibling
        exact inv.unlisted owns size sibling
    · rcases member with listed | ⟨_, rfl⟩
      · have lowerListed : other = unit := by
          rw [← lowerStart, ← starts, Nat.xor_xor_cancel_right]
        exact inv.unlisted owns size (lowerListed ▸ listed)
      · omega

/-- An owner absorbs the free sibling of its block. -/
theorem absorb (inv : HeapInv total contents heap lists owned) {owner : ι} {block : Block}
    (owns : owned owner = some block) (listed : block.buddy.unit ∈ lists block.order) :
    HeapInv total contents (buddyRemoveFree block.buddy.unit block.order heap)
      (update lists block.order ((lists block.order).erase block.buddy.unit))
      (update owned owner (some block.parent)) := by
  have aligned := inv.tiles.aligned _ (Or.inr ⟨owner, owns⟩)
  obtain ⟨_, _, _, within, buddyWithin, _⟩ := Block.buddy_spec aligned
  have frame := fun other => inv.free.remove_frame other listed
  have away : ∀ holder other, owned holder = some other → other.unit ≠ block.buddy.unit := by
    intro holder other held same
    exact inv.unlisted held block.order (same ▸ listed)
  have merged := inv.tiles.merge (Or.inr ⟨owner, owns⟩) (Or.inl listed)
  have parentElsewhere : ∀ holder, holder ≠ owner → owned holder ≠ some block.parent := by
    intro holder different held
    have same : block = block.parent := inv.tiles.eq_of_within (Or.inr ⟨owner, owns⟩)
      (Or.inr ⟨holder, held⟩) within
    have orders : block.order = block.order + 1 := congrArg Block.order same
    omega
  refine ⟨inv.free.remove listed, ?_, ?_, ?_, ?_, ?_, ?_, ?_⟩
  · rw [buddyRemoveFree_maxOrder, inv.maxOrder]
  · refine merged.congr fun other => ?_
    simp only [mem_removed inv.free, owns_assigned]
    constructor
    · rintro (⟨member, kept⟩ | ⟨holder, ⟨rfl, rfl⟩ | ⟨different, held⟩⟩)
      · refine Or.inl ⟨Or.inl member, ?_, ?_⟩
        · rintro rfl
          exact inv.exclusive owner _ owns member
        · rintro rfl
          exact kept ⟨rfl, rfl⟩
      · exact Or.inr rfl
      · refine Or.inl ⟨Or.inr ⟨holder, held⟩, ?_, ?_⟩
        · rintro rfl
          exact different (inv.distinct holder owner _ held owns)
        · rintro rfl
          exact away holder _ held rfl
    · rintro (⟨member | ⟨holder, held⟩, notBlock, notBuddy⟩ | rfl)
      · refine Or.inl ⟨member, fun same => notBuddy ?_⟩
        obtain ⟨orders, starts⟩ := same
        cases other
        simp_all [Block.buddy]
      · refine Or.inr ⟨holder, Or.inr ⟨?_, held⟩⟩
        rintro rfl
        exact notBlock (Option.some.inj (held.symm.trans owns))
      · exact Or.inr ⟨owner, Or.inl ⟨rfl, rfl⟩⟩
  · intro holder other held
    rw [mem_removed inv.free]
    rintro ⟨member, _⟩
    rcases owns_assigned.mp held with ⟨rfl, rfl⟩ | ⟨_, before⟩
    · have same : block = block.parent := inv.tiles.eq_of_within (Or.inr ⟨holder, owns⟩)
        (Or.inl member) within
      have orders : block.order = block.order + 1 := congrArg Block.order same
      omega
    · exact inv.exclusive holder other before member
  · intro left right other leftOwns rightOwns
    rcases owns_assigned.mp leftOwns with ⟨rfl, rfl⟩ | ⟨leftElse, leftHeld⟩ <;>
      rcases owns_assigned.mp rightOwns with ⟨rfl, same⟩ | ⟨rightElse, rightHeld⟩
    · rfl
    · exact absurd rightHeld (parentElsewhere right rightElse)
    · exact absurd (same ▸ leftHeld) (parentElsewhere left leftElse)
    · exact inv.distinct left right other leftHeld rightHeld
  · intro holder other held
    rcases owns_assigned.mp held with ⟨rfl, rfl⟩ | ⟨_, before⟩
    · have start : block.parent.unit = block.unit ∨ block.parent.unit = block.buddy.unit := by
        unfold Block.parent
        simp only
        omega
      by_cases atBuddy : block.parent.unit = block.buddy.unit
      · rw [buddyRemoveFree_metadata, if_pos atBuddy]
        exact fun impossible => by cases impossible
      · rw [start.resolve_right atBuddy, (frame _ (away holder block owns)).1]
        exact inv.ownedMarked holder block owns
    · rw [(frame _ (away holder other before)).1]
      exact inv.ownedMarked holder other before
  · intro other marked
    by_cases atUnit : other = block.buddy.unit
    · subst atUnit
      rw [buddyRemoveFree_metadata, if_pos rfl] at marked
      cases marked
    · obtain ⟨state, sizes, record⟩ := frame _ atUnit
      rw [state] at marked
      rw [mem_removed inv.free, sizes]
      by_cases onList : ∃ size, other ∈ lists size
      · obtain ⟨size, member⟩ := onList
        rw [(inv.free.marked size other member).2]
        exact Or.inl ⟨member, fun same => atUnit same.2⟩
      · have off : ∀ size, other ∉ lists size := fun size member => onList ⟨size, member⟩
        rw [record off]
        exact Or.inr ((inv.stale other marked).resolve_left (off _))
  · intro size below other member
    rw [buddyRemoveFree_maxOrder] at below
    rw [mem_removed inv.free] at member ⊢
    rintro ⟨sibling, _⟩
    exact inv.coalesced size below other member.1 sibling

/-- An owned block without a free sibling goes back to the free lists. -/
theorem release (inv : HeapInv total contents heap lists owned) {owner : ι} {block : Block}
    (owns : owned owner = some block)
    (alone : block.order < heap.maxOrder → block.buddy.unit ∉ lists block.order) :
    HeapInv total contents (buddyPushFree block.unit block.order heap)
      (update lists block.order (block.unit :: lists block.order))
      (update owned owner none) := by
  have fresh := inv.unlisted owns
  obtain ⟨states, stale⟩ := inv.pushed_records block.order fresh
  have away : ∀ holder other, holder ≠ owner → owned holder = some other →
      other.unit ≠ block.unit := by
    intro holder other different held same
    have equal := inv.tiles.eq_of_unit (Or.inr ⟨holder, held⟩) (Or.inr ⟨owner, owns⟩) same
    exact different (inv.distinct holder owner block (equal ▸ held) owns)
  refine ⟨inv.free.push fresh, ?_, ?_, ?_, ?_, ?_, stale, ?_⟩
  · rw [buddyPushFree_maxOrder, inv.maxOrder]
  · refine inv.tiles.congr fun other => ?_
    simp only [mem_pushed, owns_released]
    constructor
    · rintro ((member | ⟨orders, starts⟩) | ⟨holder, _, held⟩)
      · exact Or.inl member
      · refine Or.inr ⟨owner, ?_⟩
        cases other
        cases block
        simp_all
      · exact Or.inr ⟨holder, held⟩
    · rintro (member | ⟨holder, held⟩)
      · exact Or.inl (Or.inl member)
      · by_cases same : holder = owner
        · subst same
          obtain rfl := Option.some.inj (held.symm.trans owns)
          exact Or.inl (Or.inr ⟨rfl, rfl⟩)
        · exact Or.inr ⟨holder, same, held⟩
  · intro holder other held
    obtain ⟨different, before⟩ := owns_released.mp held
    rw [mem_pushed]
    rintro (member | ⟨_, starts⟩)
    · exact inv.exclusive holder other before member
    · exact away holder other different before starts
  · intro left right other leftOwns rightOwns
    exact inv.distinct left right other (owns_released.mp leftOwns).2 (owns_released.mp rightOwns).2
  · intro holder other held
    obtain ⟨different, before⟩ := owns_released.mp held
    rw [states _ (away holder other different before)]
    exact inv.ownedMarked holder other before
  · intro size below other member
    rw [buddyPushFree_maxOrder] at below
    rw [mem_pushed] at member ⊢
    have selfSibling : ∀ unit : Nat, unit ^^^ 2 ^ size ≠ unit := by
      intro unit same
      have power : 2 ^ size = 0 := by
        calc 2 ^ size = unit ^^^ (unit ^^^ 2 ^ size) := (Nat.xor_xor_cancel_left _ _).symm
          _ = 0 := by rw [same, Nat.xor_self]
      exact absurd power (Nat.two_pow_pos size).ne'
    rintro (sibling | ⟨rfl, starts⟩)
    · rcases member with listed | ⟨rfl, rfl⟩
      · exact inv.coalesced size below other listed sibling
      · exact alone below sibling
    · rcases member with listed | ⟨_, rfl⟩
      · refine alone below ?_
        have back : block.buddy.unit = other := by
          unfold Block.buddy
          simp only
          rw [← starts, Nat.xor_xor_cancel_right]
        exact back ▸ listed
      · exact selfSibling _ starts

omit [DecidableEq ι] in
/-- The record of an owned block may change to any state but free. -/
theorem mark (inv : HeapInv total contents heap lists owned) (owner : ι) {block : Block}
    (owns : owned owner = some block) (record : HeapBlock) (taken : record.state ≠ .free) :
    HeapInv total contents (writeHeapBlock block.unit record heap) lists owned := by
  refine ⟨inv.free.write record (inv.unlisted owns), inv.maxOrder, inv.tiles, inv.exclusive,
    inv.distinct, ?_, ?_, inv.coalesced⟩
  · intro holder other held
    by_cases same : other.unit = block.unit
    · rw [writeHeapBlock_metadata, same, update_self]
      exact taken
    · rw [writeHeapBlock_metadata, update_of_ne same]
      exact inv.ownedMarked holder other held
  · intro other marked
    by_cases same : other = block.unit
    · rw [writeHeapBlock_metadata, same, update_self] at marked
      exact absurd marked taken
    · rw [writeHeapBlock_metadata, update_of_ne same] at marked ⊢
      exact inv.stale other marked

/-- A block changes hands. -/
theorem transfer (inv : HeapInv total contents heap lists owned) (source target : ι)
    {block : Block} (owns : owned source = some block) (idle : owned target = none) :
    HeapInv total contents heap lists
      (update (update owned source none) target (some block)) := by
  have different : source ≠ target := by
    rintro rfl
    simp [idle] at owns
  have back : ∀ holder other,
      update (update owned source none) target (some block) holder = some other →
      ∃ former, owned former = some other ∧ (holder = target ∧ former = source ∨
        holder ≠ target ∧ former = holder) := by
    intro holder other held
    rcases owns_assigned.mp held with ⟨rfl, rfl⟩ | ⟨elsewhere, before⟩
    · exact ⟨source, owns, Or.inl ⟨rfl, rfl⟩⟩
    · exact ⟨holder, (owns_released.mp before).2, Or.inr ⟨elsewhere, rfl⟩⟩
  refine ⟨inv.free, inv.maxOrder, ?_, ?_, ?_, ?_, inv.stale, inv.coalesced⟩
  · refine inv.tiles.congr fun other => ?_
    constructor
    · rintro (member | ⟨holder, held⟩)
      · exact Or.inl member
      · obtain ⟨former, before, _⟩ := back holder other held
        exact Or.inr ⟨former, before⟩
    · rintro (member | ⟨holder, held⟩)
      · exact Or.inl member
      · by_cases moved : holder = source
        · subst moved
          obtain rfl := Option.some.inj (held.symm.trans owns)
          exact Or.inr ⟨target, by simp⟩
        · refine Or.inr ⟨holder, ?_⟩
          have elsewhere : holder ≠ target := by
            rintro rfl
            simp [idle] at held
          rw [update_of_ne elsewhere, update_of_ne moved, held]
  · intro holder other held
    obtain ⟨former, before, _⟩ := back holder other held
    exact inv.exclusive former other before
  · intro left right other leftOwns rightOwns
    obtain ⟨leftFormer, leftHeld, leftCase⟩ := back left other leftOwns
    obtain ⟨rightFormer, rightHeld, rightCase⟩ := back right other rightOwns
    have same := inv.distinct leftFormer rightFormer other leftHeld rightHeld
    rcases leftCase with ⟨rfl, rfl⟩ | ⟨leftElse, rfl⟩ <;>
      rcases rightCase with ⟨rfl, rfl⟩ | ⟨rightElse, rfl⟩
    · rfl
    · subst same
      rw [update_of_ne rightElse, update_self] at rightOwns
      exact nomatch rightOwns
    · subst same
      rw [update_of_ne leftElse, update_self] at leftOwns
      exact nomatch leftOwns
    · exact same
  · intro holder other held
    obtain ⟨former, before, _⟩ := back holder other held
    exact inv.ownedMarked former other before

end HeapInv

end KvCache.Buddy
