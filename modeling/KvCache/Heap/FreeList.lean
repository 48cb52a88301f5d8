import KvCache.Heap.Buddy

/-!
# The free lists of the buddy allocator

A family of lists, one for each order, represents the intrusive free lists when
the links of the metadata spell them and every listed unit is marked free with
the order of its list. The two list operations change the family by one push and
one removal; every other unit keeps its state and order words, and a unit on no
list keeps its whole record.
-/

namespace KvCache.Buddy

open AlignedBlock LinkedChain Function

/-- The metadata and the heads spell the lists. -/
structure FreeLists (heap : Heap) (lists : Nat → List Nat) : Prop where
  chained : ∀ order, Chained id (fun unit => (heap.metadata unit).next)
    (fun unit => (heap.metadata unit).prev) none (lists order) none
  heads : ∀ order, heap.freeHead order = (lists order).head?
  distinct : ∀ order, (lists order).Nodup
  marked : ∀ order, ∀ unit ∈ lists order,
    (heap.metadata unit).state = .free ∧ (heap.metadata unit).order = order

namespace FreeLists

variable {heap : Heap} {lists : Nat → List Nat}

/-- A unit is on at most one list. -/
theorem order_eq (free : FreeLists heap lists) {unit first second : Nat}
    (inFirst : unit ∈ lists first) (inSecond : unit ∈ lists second) : first = second :=
  (free.marked first unit inFirst).2.symm.trans (free.marked second unit inSecond).2

/-- Links of a listed unit name units of the same list. -/
theorem links_mem (free : FreeLists heap lists) {unit order other : Nat}
    (listed : unit ∈ lists order)
    (linked : (heap.metadata unit).next = some other ∨ (heap.metadata unit).prev = some other) :
    other ∈ lists order := by
  obtain ⟨front, back, split⟩ := List.append_of_mem listed
  have chain := free.chained order
  rw [split] at chain ⊢
  obtain ⟨entered, left⟩ := chained_links chain
  simp only [id_eq, Option.or_none] at entered left
  rcases linked with forward | backward
  · have head : back.head? = some other := left.symm.trans forward
    simp [List.mem_of_head? head]
  · have last : front.getLast? = some other := entered.symm.trans backward
    simp [List.mem_of_getLast? last]

/-- Records off the lists, other than the pushed one, survive a push. -/
theorem push_frame (free : FreeLists heap lists) {unit : Nat} (order other : Nat)
    (fresh : ∀ size, unit ∉ lists size) (different : other ≠ unit) :
    ((buddyPushFree unit order heap).metadata other).state = (heap.metadata other).state ∧
    ((buddyPushFree unit order heap).metadata other).order = (heap.metadata other).order ∧
    ((∀ size, other ∉ lists size) →
      (buddyPushFree unit order heap).metadata other = heap.metadata other) := by
  have unlisted : heap.freeHead order ≠ some unit := by
    rw [free.heads]
    exact fun head => fresh order (List.mem_of_head? head)
  rw [buddyPushFree_metadata unlisted, if_neg different]
  split
  · next head =>
    refine ⟨rfl, rfl, fun off => absurd ?_ (off order)⟩
    rw [free.heads] at head
    exact List.mem_of_head? head
  · exact ⟨rfl, rfl, fun _ => rfl⟩

/-- A push puts the unit in front of the list of its order. -/
theorem push (free : FreeLists heap lists) {unit order : Nat}
    (fresh : ∀ size, unit ∉ lists size) :
    FreeLists (buddyPushFree unit order heap) (update lists order (unit :: lists order)) := by
  have unlisted : heap.freeHead order ≠ some unit := by
    rw [free.heads]
    exact fun head => fresh order (List.mem_of_head? head)
  have record := buddyPushFree_metadata unlisted
  have apart : ∀ size, ∀ other ∈ lists size, other ≠ unit := by
    rintro size other member rfl
    exact fresh size member
  refine ⟨?_, ?_, ?_, ?_⟩
  · intro size
    by_cases same : size = order
    · subst same
      rw [update_self]
      refine chained_push (free.chained size) (free.distinct size) ?_ ?_ ?_ ?_
      · simp only [record, if_pos]
        rfl
      · simp only [record, if_pos, Option.or_none, free.heads]
        rfl
      · intro other member
        simp only [record, if_neg (apart size other member)]
        split <;> rfl
      · intro other member
        simp only [record, if_neg (apart size other member), free.heads]
        split <;> rfl
    · rw [update_of_ne same]
      have untouched : ∀ other ∈ lists size,
          (buddyPushFree unit order heap).metadata other = heap.metadata other := by
        intro other member
        rw [record, if_neg (apart size other member), if_neg]
        rw [free.heads]
        exact fun head => same (free.order_eq member (List.mem_of_head? head))
      exact chained_congr (free.chained size)
        (fun other member => congrArg HeapBlock.next (untouched other member))
        (fun other member => congrArg HeapBlock.prev (untouched other member))
  · intro size
    rw [buddyPushFree_freeHead]
    by_cases same : size = order
    · subst same
      simp
    · rw [update_of_ne same, update_of_ne same, free.heads]
  · intro size
    by_cases same : size = order
    · subst same
      rw [update_self]
      exact List.nodup_cons.mpr ⟨fresh size, free.distinct size⟩
    · rw [update_of_ne same]
      exact free.distinct size
  · intro size other member
    by_cases atUnit : other = unit
    · subst atUnit
      by_cases same : size = order
      · subst same
        simp [record]
      · rw [update_of_ne same] at member
        exact absurd member (fresh size)
    · obtain ⟨state, marking, _⟩ := free.push_frame order other fresh atUnit
      rw [state, marking]
      by_cases same : size = order
      · subst same
        rw [update_self, List.mem_cons] at member
        exact free.marked size other (member.resolve_left atUnit)
      · rw [update_of_ne same] at member
        exact free.marked size other member

/-- Records off the lists survive an unlink, and listed ones keep their state
and order words. -/
theorem remove_frame (free : FreeLists heap lists) {unit order : Nat} (other : Nat)
    (listed : unit ∈ lists order) (different : other ≠ unit) :
    ((buddyRemoveFree unit order heap).metadata other).state = (heap.metadata other).state ∧
    ((buddyRemoveFree unit order heap).metadata other).order = (heap.metadata other).order ∧
    ((∀ size, other ∉ lists size) →
      (buddyRemoveFree unit order heap).metadata other = heap.metadata other) := by
  rw [buddyRemoveFree_metadata, if_neg different]
  refine ⟨rfl, rfl, fun off => ?_⟩
  have notNext : (heap.metadata unit).next ≠ some other := fun linked =>
    off order (free.links_mem listed (Or.inl linked))
  have notPrev : (heap.metadata unit).prev ≠ some other := fun linked =>
    off order (free.links_mem listed (Or.inr linked))
  rw [if_neg notNext, if_neg notPrev]

/-- An unlink takes the unit out of its list. -/
theorem remove (free : FreeLists heap lists) {unit order : Nat} (listed : unit ∈ lists order) :
    FreeLists (buddyRemoveFree unit order heap)
      (update lists order ((lists order).erase unit)) := by
  obtain ⟨front, back, split⟩ := List.append_of_mem listed
  have distinct := free.distinct order
  have chain := free.chained order
  rw [split] at distinct chain
  have notFront : unit ∉ front := by
    intro member
    exact (List.nodup_append.mp distinct).2.2 unit member unit (by simp) rfl
  have notBack : unit ∉ back :=
    (List.nodup_cons.mp (List.nodup_append.mp distinct).2.1).1
  have erased : (lists order).erase unit = front ++ back := by
    rw [split, List.erase_append_right _ notFront, List.erase_cons_head]
  obtain ⟨entered, left⟩ := chained_links chain
  simp only [id_eq, Option.or_none] at entered left
  have record := @buddyRemoveFree_metadata heap unit order
  have apart : ∀ other ∈ front ++ back, other ≠ unit := by
    rintro other member rfl
    rcases List.mem_append.mp member with inFront | inBack
    · exact notFront inFront
    · exact notBack inBack
  refine ⟨?_, ?_, ?_, ?_⟩
  · intro size
    by_cases same : size = order
    · subst same
      rw [update_self, erased]
      refine chained_remove chain distinct ?_ ?_
      · intro other member
        simp only [record, if_neg (apart other member), entered]
      · intro other member
        simp only [record, if_neg (apart other member), left]
    · rw [update_of_ne same]
      have untouched : ∀ other ∈ lists size,
          (buddyRemoveFree unit order heap).metadata other = heap.metadata other := by
        intro other member
        have different : other ≠ unit := by
          rintro rfl
          exact same (free.order_eq member listed)
        have elsewhere : other ∉ lists order := fun also => same (free.order_eq member also)
        rw [record, if_neg different]
        have notNext : (heap.metadata unit).next ≠ some other := fun linked =>
          elsewhere (free.links_mem listed (Or.inl linked))
        have notPrev : (heap.metadata unit).prev ≠ some other := fun linked =>
          elsewhere (free.links_mem listed (Or.inr linked))
        rw [if_neg notNext, if_neg notPrev]
      exact chained_congr (free.chained size)
        (fun other member => congrArg HeapBlock.next (untouched other member))
        (fun other member => congrArg HeapBlock.prev (untouched other member))
  · intro size
    rw [buddyRemoveFree_freeHead, entered]
    by_cases same : size = order
    · subst same
      rw [update_self, erased]
      cases front with
      | nil => simp [left]
      | cons first rest =>
        rw [if_neg (by simp [List.getLast?_cons]), free.heads, split]
        rfl
    · rw [update_of_ne same]
      split
      · rw [update_of_ne same, free.heads]
      · rw [free.heads]
  · intro size
    by_cases same : size = order
    · subst same
      rw [update_self]
      exact (free.distinct size).erase unit
    · rw [update_of_ne same]
      exact free.distinct size
  · intro size other member
    have original : other ∈ lists size ∧ other ≠ unit := by
      by_cases same : size = order
      · subst same
        rw [update_self, erased] at member
        refine ⟨?_, apart other member⟩
        rw [split]
        rcases List.mem_append.mp member with inFront | inBack
        · simp [inFront]
        · simp [inBack]
      · rw [update_of_ne same] at member
        refine ⟨member, ?_⟩
        rintro rfl
        exact same (free.order_eq member listed)
    obtain ⟨state, marking, _⟩ := free.remove_frame _ listed original.2
    rw [state, marking]
    exact free.marked size other original.1

/-- Rewriting the record of an unlisted unit leaves the lists alone. -/
theorem write (free : FreeLists heap lists) {unit : Nat} (block : HeapBlock)
    (fresh : ∀ size, unit ∉ lists size) : FreeLists (writeHeapBlock unit block heap) lists := by
  have untouched : ∀ size, ∀ other ∈ lists size,
      (writeHeapBlock unit block heap).metadata other = heap.metadata other := by
    intro size other member
    refine update_of_ne ?_ _ _
    rintro rfl
    exact fresh size member
  refine ⟨?_, free.heads, free.distinct, ?_⟩
  · intro size
    exact chained_congr (free.chained size)
      (fun other member => congrArg HeapBlock.next (untouched size other member))
      (fun other member => congrArg HeapBlock.prev (untouched size other member))
  · intro size other member
    rw [untouched size other member]
    exact free.marked size other member

end FreeLists

end KvCache.Buddy
