import KvCache.Directory.Residency
import Mathlib.Data.List.Induction

/-!
# The two lists keep their shapes

Each operation on the node array changes the residency list or the list of
recycled slots by one slot and leaves the other list alone. The frame condition
between them is that a slot is on at most one of the two, so a link word of one
list is never read as a word of the other.

The inferred membership test is exact for every slot that is not recycled. A
recycled slot carries the marker in its backward word and therefore also tests as
linked.
-/

namespace KvCache.Residency

open LinkedChain Function

variable {maxKeys : Nat} {catalog : Catalog} {resident recycled : List Nat}

namespace CatalogInv

/-- The links of a resident slot. -/
theorem links (inv : CatalogInv maxKeys catalog resident recycled) {front back : List Nat}
    {slot : Nat} (split : resident = front ++ slot :: back) :
    (catalog.node slot).prev = linkTo front.getLast? ∧
      (catalog.node slot).next = linkTo back.head? := by
  have chain := inv.chained
  rw [split] at chain
  have links := chained_links chain
  simpa only [Option.or_none] using links

/-- Removal takes the slot out of the residency list. -/
theorem remove (inv : CatalogInv maxKeys catalog resident recycled) {slot : Nat}
    (member : slot ∈ resident) :
    CatalogInv maxKeys (residencyLruRemove slot catalog) (resident.erase slot) recycled ∧
      (residencyLruRemove slot catalog).node slot = ⟨.none, .none⟩ ∧
      (residencyLruRemove slot catalog).nextUnusedSlot = catalog.nextUnusedSlot := by
  obtain ⟨front, back, split⟩ := List.append_of_mem member
  have distinct := inv.distinct
  rw [split] at distinct
  have notFront : slot ∉ front := fun inFront =>
    (List.nodup_append.mp distinct).2.2 slot inFront slot (by simp) rfl
  have notBack : slot ∉ back := (List.nodup_cons.mp (List.nodup_append.mp distinct).2.1).1
  have erased : resident.erase slot = front ++ back := by
    rw [split, List.erase_append_right _ notFront, List.erase_cons_head]
  obtain ⟨prev, next⟩ := inv.links split
  have record := residencyLruRemove_node prev next
  obtain ⟨headWord, tailWord, countWord, freeWord, usedWord⟩ := residencyLruRemove_words prev next
  have neighbours : ∀ other, back.head? = some other ∨ front.getLast? = some other →
      other ∈ resident := by
    rintro other (head | last)
    · simp [split, List.mem_of_head? head]
    · simp [split, List.mem_of_getLast? last]
  have apart : ∀ other ∈ front ++ back, other ≠ slot := by
    rintro other inside rfl
    rcases List.mem_append.mp inside with inFront | inBack
    · exact notFront inFront
    · exact notBack inBack
  have outside : ∀ other, other ∉ resident →
      (residencyLruRemove slot catalog).node other = catalog.node other := by
    intro other absent
    have different : other ≠ slot := by
      rintro rfl
      exact absent member
    rw [record, if_neg different, if_neg fun head => absent (neighbours other (Or.inl head)),
      if_neg fun last => absent (neighbours other (Or.inr last))]
  refine ⟨⟨?_, ?_, ?_, ?_, ?_, ?_, ?_, inv.recycledDistinct, ?_, ?_, ?_, ?_, ?_⟩, ?_, usedWord⟩
  · rw [erased]
    have chain := inv.chained
    rw [split] at chain
    refine chained_remove chain distinct ?_ ?_
    · intro other inside
      simp only [record, if_neg (apart other inside), next]
    · intro other inside
      simp only [record, if_neg (apart other inside), prev]
  · rw [headWord, erased, inv.head, split]
    cases front with
    | nil => simp
    | cons first rest => simp [List.getLast?_cons]
  · rw [tailWord, erased, inv.tail, split]
    cases back using List.reverseRecOn with
    | nil => simp
    | append_singleton rest last _ =>
      have ending : (slot :: (rest ++ [last])).getLast? = some last := by
        rw [← List.cons_append, List.getLast?_concat]
      rw [if_neg (by simp), List.getLast?_append, List.getLast?_append, ending,
        List.getLast?_concat]
  · rw [countWord, inv.count, List.length_erase_of_mem member]
  · exact inv.distinct.erase slot
  · exact threaded_congr inv.threaded fun other queued =>
      outside other fun also => inv.separate other also queued
  · rw [freeWord, inv.freeHead]
  · exact fun other inside => inv.separate other (List.mem_of_mem_erase inside)
  · intro other notResident notRecycled
    by_cases same : other = slot
    · rw [record, if_pos same]
    · have absent : other ∉ resident := fun inside =>
        notResident ((List.mem_erase_of_ne same).mpr inside)
      rw [outside other absent]
      exact inv.bare other absent notRecycled
  · intro other inside
    rw [usedWord]
    exact inv.residentUsed other (List.mem_of_mem_erase inside)
  · intro other inside
    rw [usedWord]
    exact inv.recycledUsed other inside
  · rw [usedWord]
    exact inv.used
  · rw [record, if_pos rfl]

/-- Insertion puts a slot that is on neither list in front of the residency
list. -/
theorem insertMru (inv : CatalogInv maxKeys catalog resident recycled) {slot : Nat}
    (notResident : slot ∉ resident) (notRecycled : slot ∉ recycled)
    (used : slot < catalog.nextUnusedSlot) :
    CatalogInv maxKeys (residencyLruInsertMru slot catalog) (slot :: resident) recycled ∧
      (residencyLruInsertMru slot catalog).nextUnusedSlot = catalog.nextUnusedSlot := by
  have fresh : resident.head? ≠ some slot := fun head => notResident (List.mem_of_head? head)
  have record := residencyLruInsertMru_node inv.head fresh
  obtain ⟨headWord, tailWord, countWord, freeWord, usedWord⟩ :=
    residencyLruInsertMru_words slot inv.head
  have apart : ∀ other ∈ resident, other ≠ slot := by
    rintro other inside rfl
    exact notResident inside
  have outside : ∀ other, other ∉ resident → other ≠ slot →
      (residencyLruInsertMru slot catalog).node other = catalog.node other := by
    intro other absent different
    rw [record, if_neg different, if_neg fun head => absent (List.mem_of_head? head)]
  refine ⟨⟨?_, ?_, ?_, ?_, ?_, ?_, ?_, inv.recycledDistinct, ?_, ?_, ?_, ?_, ?_⟩, usedWord⟩
  · refine chained_push inv.chained inv.distinct ?_ ?_ ?_ ?_
    · simp only [record, if_pos]
      rfl
    · simp only [record, if_pos, Option.or_none]
    · intro other inside
      simp only [record, if_neg (apart other inside)]
      split <;> rfl
    · intro other inside
      simp only [record, if_neg (apart other inside)]
      split <;> rfl
  · rw [headWord]
    rfl
  · rw [tailWord, inv.tail]
    cases resident with
    | nil => rfl
    | cons first rest => simp [List.getLast?_cons]
  · rw [countWord, inv.count, List.length_cons]
  · exact List.nodup_cons.mpr ⟨notResident, inv.distinct⟩
  · refine threaded_congr inv.threaded fun other queued => outside other ?_ ?_
    · exact fun also => inv.separate other also queued
    · rintro rfl
      exact notRecycled queued
  · rw [freeWord, inv.freeHead]
  · intro other inside
    rcases List.mem_cons.mp inside with rfl | rest
    · exact notRecycled
    · exact inv.separate other rest
  · intro other absent notQueued
    obtain ⟨different, notInside⟩ := not_or.mp (fun either => absent (List.mem_cons.mpr either))
    rw [outside other notInside different]
    exact inv.bare other notInside notQueued
  · intro other inside
    rw [usedWord]
    rcases List.mem_cons.mp inside with rfl | rest
    · exact used
    · exact inv.residentUsed other rest
  · intro other inside
    rw [usedWord]
    exact inv.recycledUsed other inside
  · rw [usedWord]
    exact inv.used

/-- A touch moves a resident slot to the front. -/
theorem touch (inv : CatalogInv maxKeys catalog resident recycled) {slot : Nat}
    (member : slot ∈ resident) :
    CatalogInv maxKeys (residencyLruTouch slot catalog) (slot :: resident.erase slot) recycled ∧
      (residencyLruTouch slot catalog).nextUnusedSlot = catalog.nextUnusedSlot := by
  unfold residencyLruTouch
  split
  · next atHead =>
    rw [inv.head, linkTo_eq_slot] at atHead
    obtain ⟨rest, rfl⟩ : ∃ rest, resident = slot :: rest := by
      cases resident with
      | nil => exact nomatch atHead
      | cons first rest =>
        obtain rfl : first = slot := Option.some.inj atHead
        exact ⟨rest, rfl⟩
    rw [List.erase_cons_head]
    exact ⟨inv, rfl⟩
  · obtain ⟨removed, _, usedSame⟩ := inv.remove member
    obtain ⟨inserted, usedAfter⟩ := removed.insertMru (inv.distinct.not_mem_erase)
      (inv.separate slot member) (usedSame ▸ inv.residentUsed slot member)
    exact ⟨inserted, usedAfter.trans usedSame⟩

/-- A claim takes the first recycled slot, or the next unused one when none is
recycled. -/
theorem claim (inv : CatalogInv maxKeys catalog resident recycled) {slot : Nat}
    {after : Catalog} (claimed : catalogClaimFreeSlot maxKeys catalog = some (slot, after)) :
    (∃ rest, recycled = slot :: rest ∧ CatalogInv maxKeys after resident rest ∧
      after.nextUnusedSlot = catalog.nextUnusedSlot) ∨
    (recycled = [] ∧ slot = catalog.nextUnusedSlot ∧ CatalogInv maxKeys after resident [] ∧
      after.nextUnusedSlot = catalog.nextUnusedSlot + 1) := by
  cases recycled with
  | nil =>
    right
    have noHead : catalog.freeSlotHead = .none := inv.freeHead
    simp only [catalogClaimFreeSlot, noHead] at claimed
    split at claimed
    · exact nomatch claimed
    · next more =>
      obtain ⟨rfl, rfl⟩ : _ ∧ _ := by simpa only [Option.some.injEq, Prod.mk.injEq] using claimed
      have room := inv.used
      refine ⟨rfl, rfl, ?_, rfl⟩
      exact { inv with
        freeHead := rfl
        residentUsed := fun other inside => Nat.lt_succ_of_lt (inv.residentUsed other inside)
        recycledUsed := fun _ inside => absurd inside List.not_mem_nil
        used := by
          show catalog.nextUnusedSlot + 1 ≤ maxKeys
          omega }
  | cons first rest =>
    left
    have head : catalog.freeSlotHead = .slot first := inv.freeHead
    simp only [catalogClaimFreeSlot, head, Option.some.injEq, Prod.mk.injEq] at claimed
    obtain ⟨rfl, rfl⟩ := claimed
    obtain ⟨queued, threadedRest⟩ := inv.threaded
    obtain ⟨notRest, restDistinct⟩ := List.nodup_cons.mp inv.recycledDistinct
    have notResident : first ∉ resident := fun inside => inv.separate first inside (by simp)
    have outside : ∀ other, other ≠ first →
        (writeNode first ⟨.none, .none⟩
          { catalog with freeSlotHead := (catalog.node first).next }).node other
          = catalog.node other :=
      fun other different => update_of_ne different _ _
    refine ⟨rest, rfl, ⟨?_, inv.head, inv.tail, inv.count, inv.distinct, ?_, ?_, restDistinct, ?_,
      ?_, inv.residentUsed, ?_, inv.used⟩, rfl⟩
    · have apart : ∀ other ∈ resident, other ≠ first := by
        rintro other inside rfl
        exact notResident inside
      exact chained_congr inv.chained
        (fun other inside => congrArg LruNode.next (outside other (apart other inside)))
        (fun other inside => congrArg LruNode.prev (outside other (apart other inside)))
    · refine threaded_congr threadedRest fun other inside => outside other ?_
      rintro rfl
      exact notRest inside
    · exact congrArg LruNode.next queued
    · exact fun other inside inRest => inv.separate other inside (by simp [inRest])
    · intro other absent notQueued
      by_cases same : other = first
      · subst same
        exact update_self ..
      · rw [outside other same]
        exact inv.bare other absent (by simp [same, notQueued])
    · exact fun other inside => inv.recycledUsed other (by simp [inside])

/-- Claiming fails exactly when every slot is in use. -/
theorem claim_none (inv : CatalogInv maxKeys catalog resident recycled)
    (refused : catalogClaimFreeSlot maxKeys catalog = Option.none) :
    recycled = [] ∧ catalog.nextUnusedSlot = maxKeys := by
  cases recycled with
  | nil =>
    have noHead : catalog.freeSlotHead = .none := inv.freeHead
    simp only [catalogClaimFreeSlot, noHead] at refused
    split at refused
    · next full => exact ⟨rfl, full⟩
    · exact nomatch refused
  | cons first rest =>
    have head : catalog.freeSlotHead = .slot first := inv.freeHead
    simp [catalogClaimFreeSlot, head] at refused

/-- A release queues a slot that is on neither list. -/
theorem release (inv : CatalogInv maxKeys catalog resident recycled) {slot : Nat}
    (notResident : slot ∉ resident) (notRecycled : slot ∉ recycled)
    (used : slot < catalog.nextUnusedSlot) :
    CatalogInv maxKeys (catalogReleaseFreeSlot slot catalog) resident (slot :: recycled) := by
  have outside : ∀ other, other ≠ slot →
      (catalogReleaseFreeSlot slot catalog).node other = catalog.node other :=
    fun other different => update_of_ne different _ _
  have apart : ∀ other ∈ resident, other ≠ slot := by
    rintro other inside rfl
    exact notResident inside
  refine ⟨?_, inv.head, inv.tail, inv.count, inv.distinct, ⟨?_, ?_⟩, rfl, ?_, ?_, ?_,
    inv.residentUsed, ?_, inv.used⟩
  · exact chained_congr inv.chained
      (fun other inside => congrArg LruNode.next (outside other (apart other inside)))
      (fun other inside => congrArg LruNode.prev (outside other (apart other inside)))
  · rw [← inv.freeHead]
    exact update_self ..
  · refine threaded_congr inv.threaded fun other inside => outside other ?_
    rintro rfl
    exact notRecycled inside
  · exact List.nodup_cons.mpr ⟨notRecycled, inv.recycledDistinct⟩
  · intro other inside queued
    rcases List.mem_cons.mp queued with rfl | rest
    · exact notResident inside
    · exact inv.separate other inside rest
  · intro other absent notQueued
    obtain ⟨different, notRest⟩ := not_or.mp (fun either => notQueued (List.mem_cons.mpr either))
    rw [outside other different]
    exact inv.bare other absent notRest
  · intro other inside
    rcases List.mem_cons.mp inside with rfl | rest
    · exact used
    · exact inv.recycledUsed other rest

/-- Off the list of recycled slots the inferred membership is exact. -/
theorem isLinked_iff (inv : CatalogInv maxKeys catalog resident recycled) {slot : Nat}
    (notRecycled : slot ∉ recycled) :
    residencyLruIsLinked slot catalog = true ↔ slot ∈ resident := by
  unfold residencyLruIsLinked
  rw [decide_eq_true_eq]
  constructor
  · intro linked
    by_contra absent
    have bare := inv.bare slot absent notRecycled
    rcases linked with head | prev | next
    · rw [inv.head, linkTo_eq_slot] at head
      exact absent (List.mem_of_head? head)
    · exact prev (by rw [bare])
    · exact next (by rw [bare])
  · intro member
    obtain ⟨front, back, split⟩ := List.append_of_mem member
    obtain ⟨prev, _⟩ := inv.links split
    cases front using List.reverseRecOn with
    | nil =>
      left
      rw [inv.head, split]
      rfl
    | append_singleton rest last _ =>
      right; left
      rw [prev]
      simp [linkTo]

/-- A recycled slot carries the marker, so it tests as linked too. -/
theorem isLinked_recycled (inv : CatalogInv maxKeys catalog resident recycled) {slot : Nat}
    (queued : slot ∈ recycled) : residencyLruIsLinked slot catalog = true := by
  have marked : (catalog.node slot).prev = .freeQueued := by
    have threaded := inv.threaded
    clear inv
    induction recycled with
    | nil => exact absurd queued List.not_mem_nil
    | cons first rest inductionHypothesis =>
      rcases List.mem_cons.mp queued with rfl | inside
      · exact congrArg LruNode.prev threaded.1
      · exact inductionHypothesis inside threaded.2
  simp [residencyLruIsLinked, marked]

/-- The walk from a cut of the residency list towards its head. -/
theorem findOldestFrom_eq (inv : CatalogInv maxKeys catalog resident recycled)
    (evictable : Nat → Bool) (front back : List Nat) (split : resident = front ++ back) :
    findOldestFrom evictable catalog front.length (linkTo front.getLast?) =
      front.reverse.find? evictable := by
  induction front using List.reverseRecOn generalizing back with
  | nil => rfl
  | append_singleton rest last inductionHypothesis =>
    have cut : resident = rest ++ last :: back := by simpa using split
    have before := inductionHypothesis (last :: back) cut
    rw [← (inv.links cut).1] at before
    have length : (rest ++ [last]).length = rest.length + 1 := by simp
    have final : (rest ++ [last]).getLast? = some last := by simp
    rw [length, final, linkTo, findOldestFrom, before]
    simp only [List.reverse_append, List.reverse_singleton, List.singleton_append,
      List.find?_cons]
    cases evictable last <;> rfl

/-- The victim is the least recently used evictable slot. -/
theorem findOldest_eq (inv : CatalogInv maxKeys catalog resident recycled)
    (evictable : Nat → Bool) :
    findOldestDeviceVictim evictable catalog = resident.reverse.find? evictable := by
  rw [findOldestDeviceVictim, inv.count, inv.tail]
  exact inv.findOldestFrom_eq evictable resident [] (by simp)

end CatalogInv

end KvCache.Residency
