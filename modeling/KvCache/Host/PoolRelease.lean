import KvCache.Host.PoolPartition

/-!
# Releasing an extent with its checks

The release of an extent refuses an extent that is out of range or overlaps a free
one. The right neighbour is looked at, and taken out of the free map when it touches,
before the left neighbour is checked; what the free map holds when a check throws is
part of the outcome.

An extent that a holder holds meets every check, and the outcome is the plain
release. An extent that meets none of the free ones is released in full. Any other is
refused, and the free map stays as it was, unless the right neighbour touches and the left
one overlaps: then the right neighbour is lost.
-/

namespace KvCache.Pool

/-- What a release leaves: the free extents, after it returned or threw. -/
inductive Released where
  | returned (free : List Extent)
  | thrown (free : List Extent)
deriving DecidableEq, Repr

/-- The end of a release: check the left neighbour, then merge with it or insert the
extent. -/
def releaseLeft (extent : Extent) (before after : List Extent) : Released :=
  match before.getLast? with
  | none => .returned (extent :: after)
  | some prev =>
    if extent.unit < prev.finish then .thrown (before ++ after)
    else if prev.finish = extent.unit then
      .returned (before.dropLast ++ ⟨prev.unit, prev.units + extent.units⟩ :: after)
    else .returned (before ++ extent :: after)

/-- Return an extent to a pool of the given units. -/
def poolReleaseChecked (total : Nat) (extent : Extent) (free : List Extent) : Released :=
  if extent.units = 0 then .returned free
  else if total < extent.finish then .thrown free
  else
    let before := free.takeWhile fun other => other.unit < extent.unit
    match free.dropWhile fun other => other.unit < extent.unit with
    | [] => releaseLeft extent before []
    | next :: rest =>
      if next.unit < extent.finish then .thrown free
      else if next.unit = extent.finish then
        releaseLeft ⟨extent.unit, extent.units + next.units⟩ before rest
      else releaseLeft extent before (next :: rest)

/-- A left neighbour that ends before the extent leaves a merge or an insertion. -/
theorem releaseLeft_eq {extent : Extent} {before after : List Extent}
    (apart : ∀ prev ∈ before, prev.finish ≤ extent.unit) :
    releaseLeft extent before after =
      .returned (match before.getLast? with
        | none => extent :: after
        | some prev =>
          if prev.finish = extent.unit then
            before.dropLast ++ ⟨prev.unit, prev.units + extent.units⟩ :: after
          else before ++ extent :: after) := by
  unfold releaseLeft
  cases last : before.getLast? with
  | none => rfl
  | some prev =>
    have ends := apart prev (List.mem_of_getLast? last)
    simp only [Nat.not_lt.mpr ends, if_false]
    split <;> rfl

/-- An extent that touches the next one is joined with it. -/
theorem joinNext_touching {extent next : Extent} {rest : List Extent}
    (touching : next.unit = extent.finish) :
    joinNext extent (next :: rest) = ⟨extent.unit, extent.units + next.units⟩ :: rest :=
  if_pos touching

/-- An extent that ends before the next one is put in front of it. -/
theorem joinNext_apart {extent next : Extent} {rest : List Extent}
    (apart : next.unit ≠ extent.finish) :
    joinNext extent (next :: rest) = extent :: next :: rest :=
  if_neg apart

/-- The release of an extent that is in range and covers no free unit is the plain
release. -/
theorem poolReleaseChecked_eq {total : Nat} {extent : Extent} {free : List Extent}
    (ordered : Ordered free) (positive : 0 < extent.units) (inRange : extent.finish ≤ total)
    (outside : ∀ unit, extent.Mem unit → ¬ Covers free unit) :
    poolReleaseChecked total extent free = .returned (poolRelease extent free) := by
  obtain ⟨split, beforePast, afterPast⟩ := split_around ordered positive outside
  unfold poolReleaseChecked poolRelease
  rw [if_neg (Nat.pos_iff_ne_zero.mp positive), if_neg (Nat.not_lt.mpr inRange)]
  dsimp only
  generalize free.takeWhile (fun other => other.unit < extent.unit) = before at *
  generalize free.dropWhile (fun other => other.unit < extent.unit) = after at *
  cases after with
  | nil =>
    rw [releaseLeft_eq beforePast]
    cases before.getLast? <;> simp [joinNext]
  | cons next rest =>
    have past : extent.finish ≤ next.unit := afterPast next (by simp)
    simp only [Nat.not_lt.mpr past, if_false]
    by_cases touching : next.unit = extent.finish
    · rw [if_pos touching, releaseLeft_eq (by simpa using beforePast)]
      cases before.getLast? with
      | none => rw [joinNext_touching touching]
      | some prev =>
        dsimp only
        by_cases merging : prev.finish = extent.unit
        · have reaches : next.unit = (⟨prev.unit, prev.units + extent.units⟩ : Extent).finish := by
            simp only [Extent.finish] at merging touching ⊢
            omega
          rw [if_pos merging, if_pos merging, joinNext_touching reaches, Nat.add_assoc]
        · rw [if_neg merging, if_neg merging, joinNext_touching touching]
    · rw [if_neg touching, releaseLeft_eq beforePast]
      cases before.getLast? with
      | none => rw [joinNext_apart touching]
      | some prev =>
        dsimp only
        by_cases merging : prev.finish = extent.unit
        · have short : next.unit ≠ (⟨prev.unit, prev.units + extent.units⟩ : Extent).finish := by
            simp only [Extent.finish] at merging touching ⊢
            omega
          rw [if_pos merging, if_pos merging, joinNext_apart short]
        · rw [if_neg merging, if_neg merging, joinNext_apart touching]

/-- What a holder holds can be released. -/
theorem Accounts.checked {ι : Type} {total : Nat} {free : List Extent} {held : ι → Option Extent}
    (accounts : Accounts total free held) {holder : ι} {extent : Extent}
    (holds : held holder = some extent) :
    poolReleaseChecked total extent free = .returned (poolRelease extent free) :=
  poolReleaseChecked_eq accounts.ordered (accounts.heldPositive holder extent holds)
    (accounts.heldInRange holder extent holds) fun unit => accounts.notFree holder extent unit holds

/-! ## Refused releases -/

/-- The check of the range in words of 32 bits is that of the numbers: a sum that wraps is
below the first unit. -/
theorem range_check {total unit units : Nat} (word : total < 2 ^ 32) (start : unit < 2 ^ 32)
    (length : units < 2 ^ 32) :
    ((unit + units) % 2 ^ 32 ≤ total ∧ unit ≤ (unit + units) % 2 ^ 32) ↔
      (⟨unit, units⟩ : Extent).finish ≤ total := by
  simp only [Extent.finish]
  omega

/-- The free map of a pool of the given units: extents in order that never touch. -/
structure FreeMap (total : Nat) (free : List Extent) : Prop where
  positive : ∀ extent ∈ free, 0 < extent.units
  separated : Separated free
  inRange : ∀ extent ∈ free, extent.finish ≤ total

theorem FreeMap.ordered {total : Nat} {free : List Extent} (map : FreeMap total free) :
    Ordered free :=
  map.separated.ordered map.positive

/-- The release returned with exactly the extent inserted, or threw with the free map as it
was. In a free map no two extents touch, so an inserted extent is merged. -/
def Atomic (total : Nat) (extent : Extent) (free : List Extent) : Released → Prop
  | .returned after => FreeMap total after ∧ (∀ unit, extent.Mem unit → ¬ Covers free unit) ∧
      ∀ unit, Covers after unit ↔ extent.Mem unit ∨ Covers free unit
  | .thrown after => after = free

/-- The extent passes the checks of its range and of the right neighbour, which it touches,
and overlaps the left one. -/
structure MergesFirst (total : Nat) (extent : Extent) (free : List Extent) : Prop where
  nonempty : 0 < extent.units
  inRange : extent.finish ≤ total
  rightClear : ∀ next ∈ free, extent.unit ≤ next.unit → extent.finish ≤ next.unit
  rightTouches : ∃ next ∈ free, next.unit = extent.finish
  leftOverlaps : ∃ prev ∈ free, prev.unit < extent.unit ∧ extent.unit < prev.finish

/-- The last of several extents reaches as far as any of them. -/
theorem Ordered.last_reaches {before : List Extent} (ordered : Ordered before) {other : Extent}
    (member : other ∈ before) : ∃ prev, before.getLast? = some prev ∧ other.finish ≤ prev.finish := by
  cases before using List.reverseRecOn with
  | nil => cases member
  | append_singleton front prev _ =>
    refine ⟨prev, List.getLast?_concat, ?_⟩
    obtain earlier | last := List.mem_append.mp member
    · have past := (List.pairwise_append.mp ordered.apart).2.2 other earlier prev (by simp)
      simp only [Extent.finish] at past ⊢
      omega
    · rw [List.mem_singleton.mp last]

/-- A left neighbour that ends past the start of the extent makes the release throw. -/
theorem releaseLeft_thrown {extent : Extent} {before after : List Extent}
    (ordered : Ordered before) (overlap : ∃ prev ∈ before, extent.unit < prev.finish) :
    releaseLeft extent before after = .thrown (before ++ after) := by
  obtain ⟨other, member, meets⟩ := overlap
  obtain ⟨prev, last, reaches⟩ := ordered.last_reaches member
  unfold releaseLeft
  rw [last]
  exact if_pos (Nat.lt_of_lt_of_le meets reaches)

/-- An extent that overlaps a free one is refused, and the free map stays as it was unless
the right neighbour was merged first. -/
theorem poolReleaseChecked_thrown {total : Nat} {extent : Extent} {free : List Extent}
    (map : FreeMap total free) (nonempty : 0 < extent.units)
    (overlap : ∃ unit, extent.Mem unit ∧ Covers free unit) (plain : ¬ MergesFirst total extent free) :
    poolReleaseChecked total extent free = .thrown free := by
  obtain ⟨split, earlier, later⟩ := split_at_unit map.ordered extent.unit
  unfold poolReleaseChecked
  rw [if_neg (Nat.pos_iff_ne_zero.mp nonempty)]
  split
  · rfl
  · next inRange =>
    dsimp only
    generalize free.takeWhile (fun other => other.unit < extent.unit) = before at *
    generalize free.dropWhile (fun other => other.unit < extent.unit) = after at *
    have front : Ordered before := by
      have sub : before.Sublist free := split ▸ List.sublist_append_left before after
      exact ⟨fun other member => map.positive other (sub.subset member),
        map.ordered.apart.sublist sub⟩
    obtain ⟨unit, inside, other, member, covers⟩ := overlap
    -- An overlap with no extent past the start is one with the left neighbour.
    have left : (∀ next ∈ after, extent.finish ≤ next.unit) →
        ∃ prev ∈ before, extent.unit < prev.finish := by
      intro clear
      rw [← split] at member
      obtain before | after := List.mem_append.mp member
      · exact ⟨other, before, Nat.lt_of_le_of_lt inside.1 covers.2⟩
      · have := clear other after
        have := inside.2
        have := covers.1
        omega
    cases after with
    | nil =>
      rw [releaseLeft_thrown front (left (List.forall_mem_nil _)), split]
    | cons next rest =>
      dsimp only
      split
      · rfl
      · next apart =>
        have suffix : (next :: rest).Sublist free :=
          split ▸ List.sublist_append_right before (next :: rest)
        have clear : ∀ past ∈ next :: rest, extent.finish ≤ past.unit := by
          intro past listed
          obtain rfl | behind := List.mem_cons.mp listed
          · exact Nat.not_lt.mp apart
          · have first := (List.pairwise_cons.mp (map.ordered.apart.sublist suffix)).1 past behind
            simp only [Extent.finish] at first ⊢
            simp only [Extent.finish] at apart
            omega
        obtain ⟨prev, listed, overlaps⟩ := left clear
        split
        · next touching =>
          refine absurd ⟨nonempty, Nat.not_lt.mp inRange, ?_, ⟨next, suffix.subset (by simp),
            touching⟩, ⟨prev, split ▸ List.mem_append_left _ listed, earlier prev listed,
            overlaps⟩⟩ plain
          intro past listed starts
          rw [← split] at listed
          obtain before | after := List.mem_append.mp listed
          · have := earlier past before
            omega
          · exact clear past after
        · rw [releaseLeft_thrown front ⟨prev, listed, overlaps⟩, split]

/-- When the right neighbour is merged first, it is missing from what the exception
leaves. -/
theorem poolReleaseChecked_loses {total : Nat} {extent : Extent} {free : List Extent}
    (map : FreeMap total free) (merges : MergesFirst total extent free) :
    ∃ before next rest, free = before ++ next :: rest ∧
      poolReleaseChecked total extent free = .thrown (before ++ rest) := by
  obtain ⟨split, earlier, later⟩ := split_at_unit map.ordered extent.unit
  unfold poolReleaseChecked
  rw [if_neg (Nat.pos_iff_ne_zero.mp merges.nonempty), if_neg (Nat.not_lt.mpr merges.inRange)]
  dsimp only
  generalize free.takeWhile (fun other => other.unit < extent.unit) = before at *
  generalize free.dropWhile (fun other => other.unit < extent.unit) = after at *
  subst split
  obtain ⟨beforeApart, afterApart, between⟩ := List.pairwise_append.mp map.ordered.apart
  have front : Ordered before :=
    ⟨fun other member => map.positive other (List.mem_append_left _ member), beforeApart⟩
  have beyond : extent.unit ≤ extent.finish := Nat.le_add_right ..
  obtain ⟨next, listed, touches⟩ := merges.rightTouches
  have behind : next ∈ after := by
    obtain left | right := List.mem_append.mp listed
    · have := earlier next left
      omega
    · exact right
  obtain ⟨prev, member, starts, overlaps⟩ := merges.leftOverlaps
  have ahead : prev ∈ before := by
    obtain left | right := List.mem_append.mp member
    · exact left
    · have := later prev right
      omega
  cases after with
  | nil => cases behind
  | cons first rest =>
    have clear := merges.rightClear first (by simp) (later first (by simp))
    -- An extent before the one that touches would end by its start.
    have touching : first.unit = extent.finish := by
      obtain rfl | past := List.mem_cons.mp behind
      · exact touches
      · have ends := (List.pairwise_cons.mp afterApart).1 next past
        have positive := map.positive first (by simp)
        simp only [Extent.finish] at ends touches clear ⊢
        omega
    refine ⟨before, first, rest, rfl, ?_⟩
    dsimp only
    rw [if_neg (Nat.not_lt.mpr clear), if_pos touching, releaseLeft_thrown front]
    exact ⟨prev, ahead, overlaps⟩

/-- The plain release of an extent that covers no free unit leaves a free map. -/
theorem poolRelease_freeMap {total : Nat} {extent : Extent} {free : List Extent}
    (map : FreeMap total free) (nonempty : 0 < extent.units) (inRange : extent.finish ≤ total)
    (outside : ∀ unit, extent.Mem unit → ¬ Covers free unit) :
    FreeMap total (poolRelease extent free) := by
  obtain ⟨ordered, covered⟩ := poolRelease_spec map.ordered nonempty outside
  refine ⟨ordered.positive, poolRelease_separated map.positive map.separated nonempty outside, ?_⟩
  intro other member
  -- The last unit of an extent is covered, so it was free or belongs to the extent released.
  have positive := ordered.positive other member
  have last : Covers (poolRelease extent free) (other.finish - 1) := by
    refine ⟨other, member, ?_, ?_⟩ <;> simp only [Extent.finish] at * <;> omega
  obtain inside | ⟨former, listed, -, below⟩ := (covered _).mp last
  · have := inside.2
    omega
  · have := map.inRange former listed
    omega

/-- A release is atomic exactly if it does not merge the right neighbour before the overlap
with the left one is found.

Proof: an extent that covers no free unit passes every check. One that does is thrown back
before anything changes, or after the right neighbour was erased. -/
theorem release_atomic {total : Nat} {extent : Extent} {free : List Extent}
    (map : FreeMap total free) :
    Atomic total extent free (poolReleaseChecked total extent free) ↔
      ¬ MergesFirst total extent free := by
  constructor
  · intro atomic merges
    obtain ⟨before, next, rest, same, thrown⟩ := poolReleaseChecked_loses map merges
    rw [thrown] at atomic
    have lengths : (before ++ rest).length = free.length := congrArg List.length atomic
    rw [same] at lengths
    simp at lengths
  · intro plain
    obtain empty | nonempty := Nat.eq_zero_or_pos extent.units
    · have returned : poolReleaseChecked total extent free = .returned free := if_pos empty
      have none : ∀ unit, ¬ extent.Mem unit := by
        intro unit inside
        simp only [Extent.Mem, Extent.finish] at inside
        omega
      rw [returned]
      exact ⟨map, fun unit inside => absurd inside (none unit), fun unit => by simp [none unit]⟩
    · by_cases overlap : ∃ unit, extent.Mem unit ∧ Covers free unit
      · rw [poolReleaseChecked_thrown map nonempty overlap plain]
        rfl
      · have outside : ∀ unit, extent.Mem unit → ¬ Covers free unit :=
          fun unit inside covers => overlap ⟨unit, inside, covers⟩
        by_cases inRange : extent.finish ≤ total
        · rw [poolReleaseChecked_eq map.ordered nonempty inRange outside]
          exact ⟨poolRelease_freeMap map nonempty inRange outside, outside,
            (poolRelease_spec map.ordered nonempty outside).2⟩
        · have thrown : poolReleaseChecked total extent free = .thrown free := by
            unfold poolReleaseChecked
            rw [if_neg (Nat.pos_iff_ne_zero.mp nonempty), if_pos (Nat.not_le.mp inRange)]
          rw [thrown]
          rfl

/-- The free map of the two statements below. -/
theorem freeMap_two : FreeMap 8 [⟨0, 5⟩, ⟨6, 2⟩] := by
  constructor
  · decide
  · unfold Separated
    decide
  · decide

/-- Between two free extents a unit in use is released and the free map is one extent. -/
theorem release_atomic_between : FreeMap 8 [⟨0, 5⟩, ⟨6, 2⟩] ∧
    ¬ MergesFirst 8 ⟨5, 1⟩ [⟨0, 5⟩, ⟨6, 2⟩] ∧
    Atomic 8 ⟨5, 1⟩ [⟨0, 5⟩, ⟨6, 2⟩] (poolReleaseChecked 8 ⟨5, 1⟩ [⟨0, 5⟩, ⟨6, 2⟩]) := by
  have plain : ¬ MergesFirst 8 ⟨5, 1⟩ [⟨0, 5⟩, ⟨6, 2⟩] := by
    intro merges
    have overlaps := merges.leftOverlaps
    simp [Extent.finish] at overlaps
  exact ⟨freeMap_two, plain, (release_atomic freeMap_two).mpr plain⟩

/-- The release of units 4 and 5 while unit 4 is free loses the free units 6 and 7. -/
theorem refused_release_loses : FreeMap 8 [⟨0, 5⟩, ⟨6, 2⟩] ∧
    poolReleaseChecked 8 ⟨4, 2⟩ [⟨0, 5⟩, ⟨6, 2⟩] = .thrown [⟨0, 5⟩] ∧
    ¬ Atomic 8 ⟨4, 2⟩ [⟨0, 5⟩, ⟨6, 2⟩] (poolReleaseChecked 8 ⟨4, 2⟩ [⟨0, 5⟩, ⟨6, 2⟩]) := by
  have thrown : poolReleaseChecked 8 ⟨4, 2⟩ [⟨0, 5⟩, ⟨6, 2⟩] = .thrown [⟨0, 5⟩] := by decide
  refine ⟨freeMap_two, thrown, ?_⟩
  rw [thrown]
  simp [Atomic]

end KvCache.Pool
