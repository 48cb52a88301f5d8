import Mathlib

/-!
# The host-value pool

The mapped window past the staging area is a pool of units. Free extents are kept
in the order of their starts; allocation takes the first that is long enough, and
release puts an extent back and merges it with its neighbours. A value is never
split, since the device reads it as one span.

Extents in use are not recorded by the pool. What the operations do is stated in
terms of the units that some free extent covers: allocation removes exactly the
units it returns, release adds exactly the units it is given.
-/

namespace KvCache.Pool

/-- A run of units. -/
structure Extent where
  unit : Nat
  units : Nat
deriving DecidableEq, Repr

namespace Extent

/-- One past the last unit. -/
def finish (extent : Extent) : Nat := extent.unit + extent.units

/-- The run contains the unit. -/
def Mem (extent : Extent) (unit : Nat) : Prop := extent.unit ≤ unit ∧ unit < extent.finish

end Extent

/-- First fit over the free extents: the start of the extent and what remains
free. -/
def poolAlloc (units : Nat) : List Extent → Option (Nat × List Extent)
  | [] => none
  | extent :: rest =>
    if extent.units < units then
      (poolAlloc units rest).map fun (unit, remaining) => (unit, extent :: remaining)
    else if extent.units - units = 0 then some (extent.unit, rest)
    else some (extent.unit, ⟨extent.unit + units, extent.units - units⟩ :: rest)

/-- Put an extent in front of the free extents that start after it, merged with the
first of them if they touch. -/
def joinNext (extent : Extent) : List Extent → List Extent
  | [] => [extent]
  | next :: rest =>
    if next.unit = extent.finish then ⟨extent.unit, extent.units + next.units⟩ :: rest
    else extent :: next :: rest

/-- Return an extent, merging it with an adjacent free extent on either side. -/
def poolRelease (extent : Extent) (free : List Extent) : List Extent :=
  let before := free.takeWhile fun other => other.unit < extent.unit
  let after := free.dropWhile fun other => other.unit < extent.unit
  match before.getLast? with
  | none => joinNext extent after
  | some prev =>
    if prev.finish = extent.unit then
      before.dropLast ++ joinNext ⟨prev.unit, prev.units + extent.units⟩ after
    else before ++ joinNext extent after

/-- The generation after the given one; zero is skipped. -/
def nextPoolGeneration (generation : Nat) : Nat :=
  if (generation + 1) % 2 ^ 32 = 0 then 1 else (generation + 1) % 2 ^ 32

/-! ## Covered units -/

/-- Some free extent contains the unit. -/
def Covers (free : List Extent) (unit : Nat) : Prop := ∃ extent ∈ free, extent.Mem unit

/-- Non-empty extents in the order of their starts, each past the one before. -/
structure Ordered (free : List Extent) : Prop where
  positive : ∀ extent ∈ free, 0 < extent.units
  apart : free.Pairwise fun left right => left.finish ≤ right.unit

theorem covers_cons {extent : Extent} {rest : List Extent} {unit : Nat} :
    Covers (extent :: rest) unit ↔ extent.Mem unit ∨ Covers rest unit := by
  simp [Covers]

theorem covers_append {front back : List Extent} {unit : Nat} :
    Covers (front ++ back) unit ↔ Covers front unit ∨ Covers back unit := by
  simp [Covers, or_and_right, exists_or]

theorem Ordered.cons {extent : Extent} {rest : List Extent} (positive : 0 < extent.units)
    (before : ∀ other ∈ rest, extent.finish ≤ other.unit) (ordered : Ordered rest) :
    Ordered (extent :: rest) := by
  refine ⟨fun other member => ?_, List.pairwise_cons.mpr ⟨before, ordered.apart⟩⟩
  rcases List.mem_cons.mp member with rfl | inside
  · exact positive
  · exact ordered.positive other inside

theorem Ordered.tail {extent : Extent} {rest : List Extent} (ordered : Ordered (extent :: rest)) :
    Ordered rest :=
  ⟨fun other member => ordered.positive other (List.mem_cons_of_mem _ member),
    (List.pairwise_cons.mp ordered.apart).2⟩

/-- The extents after the first start past its end. -/
theorem Ordered.past {extent : Extent} {rest : List Extent} (ordered : Ordered (extent :: rest))
    {unit : Nat} (covered : Covers rest unit) : extent.finish ≤ unit := by
  obtain ⟨other, member, lower, _⟩ := covered
  exact Nat.le_trans ((List.pairwise_cons.mp ordered.apart).1 other member) lower

/-- Allocation returns covered units and stops covering exactly these. -/
theorem poolAlloc_spec {units unit : Nat} {free remaining : List Extent} (ordered : Ordered free)
    (allocated : poolAlloc units free = some (unit, remaining)) :
    Ordered remaining ∧ (∀ other ∈ remaining, ∃ former ∈ free, former.unit ≤ other.unit) ∧
      ∀ other, (Covers remaining other ↔ Covers free other ∧
        ¬ (⟨unit, units⟩ : Extent).Mem other) ∧
        ((⟨unit, units⟩ : Extent).Mem other → Covers free other) := by
  induction free generalizing remaining with
  | nil => exact nomatch allocated
  | cons extent rest inductionHypothesis =>
    have positive := ordered.positive extent (by simp)
    unfold poolAlloc at allocated
    split at allocated
    · obtain ⟨⟨unit', remaining'⟩, found, same⟩ := Option.map_eq_some_iff.mp allocated
      obtain ⟨rfl, rfl⟩ := Prod.mk.inj same
      obtain ⟨ordered', origin, covered⟩ := inductionHypothesis ordered.tail found
      refine ⟨ordered'.cons positive fun other member => ?_, fun other member => ?_, fun other => ?_⟩
      · obtain ⟨former, inRest, lower⟩ := origin other member
        exact Nat.le_trans ((List.pairwise_cons.mp ordered.apart).1 former inRest) lower
      · rcases List.mem_cons.mp member with rfl | inside
        · exact ⟨other, by simp, Nat.le_refl _⟩
        · obtain ⟨former, inRest, lower⟩ := origin other inside
          exact ⟨former, by simp [inRest], lower⟩
      · obtain ⟨exactly, taken⟩ := covered other
        rw [covers_cons, covers_cons, exactly]
        refine ⟨⟨?_, ?_⟩, fun member => Or.inr (taken member)⟩
        · rintro (here | ⟨inRest, outside⟩)
          · refine ⟨Or.inl here, fun member => ?_⟩
            have later := ordered.past (taken member)
            have := here.2
            omega
          · exact ⟨Or.inr inRest, outside⟩
        · rintro ⟨here | inRest, outside⟩
          · exact Or.inl here
          · exact Or.inr ⟨inRest, outside⟩
    · split at allocated
      · obtain ⟨rfl, rfl⟩ := Prod.mk.inj (Option.some.inj allocated)
        refine ⟨ordered.tail, fun other member => ⟨other, by simp [member], Nat.le_refl _⟩,
          fun other => ?_⟩
        rw [covers_cons]
        have later := @Ordered.past _ _ ordered other
        simp only [Extent.Mem, Extent.finish] at later ⊢
        refine ⟨⟨fun inRest => ⟨Or.inr inRest, ?_⟩, ?_⟩, fun member => Or.inl ?_⟩
        · have := later inRest
          omega
        · rintro ⟨here | inRest, outside⟩
          · omega
          · exact inRest
        · omega
      · obtain ⟨rfl, rfl⟩ := Prod.mk.inj (Option.some.inj allocated)
        refine ⟨ordered.tail.cons (by simp only; omega) fun other member => ?_,
          fun other member => ?_, fun other => ?_⟩
        · have := (List.pairwise_cons.mp ordered.apart).1 other member
          simp only [Extent.finish] at this ⊢
          omega
        · rcases List.mem_cons.mp member with rfl | inside
          · exact ⟨extent, by simp, by simp⟩
          · exact ⟨other, by simp [inside], Nat.le_refl _⟩
        · rw [covers_cons, covers_cons]
          have later := @Ordered.past _ _ ordered other
          simp only [Extent.Mem, Extent.finish] at later ⊢
          refine ⟨⟨?_, ?_⟩, fun member => Or.inl ?_⟩
          · rintro (here | inRest)
            · exact ⟨Or.inl (by omega), by omega⟩
            · have := later inRest
              exact ⟨Or.inr inRest, by omega⟩
          · rintro ⟨here | inRest, outside⟩
            · exact Or.inl (by omega)
            · exact Or.inr inRest
          · omega

/-- Joining an extent to extents that start past it. -/
theorem joinNext_spec {extent : Extent} {after : List Extent} (ordered : Ordered after)
    (positive : 0 < extent.units) (past : ∀ other ∈ after, extent.finish ≤ other.unit) :
    Ordered (joinNext extent after) ∧ (∀ other ∈ joinNext extent after, extent.unit ≤ other.unit) ∧
      ∀ unit, Covers (joinNext extent after) unit ↔ extent.Mem unit ∨ Covers after unit := by
  cases after with
  | nil =>
    refine ⟨ordered.cons positive past, ?_, fun unit => covers_cons⟩
    simp [joinNext]
  | cons next rest =>
    have first := past next (by simp)
    have nextPositive := ordered.positive next (by simp)
    simp only [joinNext]
    split
    · next touching =>
      refine ⟨ordered.tail.cons (by simp only; omega) fun other member => ?_, ?_, fun unit => ?_⟩
      · have := (List.pairwise_cons.mp ordered.apart).1 other member
        simp only [Extent.finish] at *
        omega
      · intro other member
        rcases List.mem_cons.mp member with rfl | inside
        · exact Nat.le_refl _
        · have := (List.pairwise_cons.mp ordered.apart).1 other inside
          simp only [Extent.finish] at *
          omega
      · simp only [covers_cons, Extent.Mem, Extent.finish] at *
        constructor
        · rintro (here | inRest)
          · by_cases before : unit < extent.unit + extent.units
            · exact Or.inl (by omega)
            · exact Or.inr (Or.inl (by omega))
          · exact Or.inr (Or.inr inRest)
        · rintro (here | here | inRest)
          · exact Or.inl (by omega)
          · exact Or.inl (by omega)
          · exact Or.inr inRest
    · refine ⟨ordered.cons positive past, ?_, fun unit => covers_cons⟩
      intro other member
      rcases List.mem_cons.mp member with rfl | inside
      · exact Nat.le_refl _
      · have := past other inside
        simp only [Extent.finish] at this
        omega

/-- Extents that end before others start. -/
theorem Ordered.append {front back : List Extent} (first : Ordered front) (second : Ordered back)
    (between : ∀ left ∈ front, ∀ right ∈ back, left.finish ≤ right.unit) :
    Ordered (front ++ back) := by
  refine ⟨fun other member => ?_, List.pairwise_append.mpr ⟨first.apart, second.apart, between⟩⟩
  rcases List.mem_append.mp member with inFront | inBack
  · exact first.positive other inFront
  · exact second.positive other inBack

/-- The free extents are those that start before a unit and those that start from it on. -/
theorem split_at_unit {free : List Extent} (ordered : Ordered free) (unit : Nat) :
    let before := free.takeWhile fun other => other.unit < unit
    let after := free.dropWhile fun other => other.unit < unit
    before ++ after = free ∧ (∀ other ∈ before, other.unit < unit) ∧
      ∀ other ∈ after, unit ≤ other.unit := by
  intro before after
  have split : before ++ after = free := List.takeWhile_append_dropWhile
  have earlier : ∀ other ∈ before, other.unit < unit := fun other member => by
    simpa using List.mem_takeWhile_imp member
  refine ⟨split, earlier, ?_⟩
  intro other member
  cases rest : after with
  | nil => rw [rest] at member; exact absurd member List.not_mem_nil
  | cons next tail =>
    have notEarlier : ¬ next.unit < unit := by
      have nonempty : after ≠ [] := by rw [rest]; simp
      have failed := List.head_dropWhile_not (fun other : Extent => other.unit < unit) nonempty
      have first : after.head nonempty = next := by simp [rest]
      rw [first] at failed
      simpa using failed
    have sub : Ordered (next :: tail) := by
      have suffix : (next :: tail).Sublist free := rest ▸ List.dropWhile_sublist _
      exact ⟨fun other inside => ordered.positive other (suffix.subset inside),
        ordered.apart.sublist suffix⟩
    rw [rest] at member
    rcases List.mem_cons.mp member with rfl | inside
    · omega
    · have := (List.pairwise_cons.mp sub.apart).1 other inside
      simp only [Extent.finish] at this
      omega

/-- The free extents around one that covers none of their units: those before it end
by its start, those after it start past its end. -/
theorem split_around {extent : Extent} {free : List Extent} (ordered : Ordered free)
    (positive : 0 < extent.units) (outside : ∀ unit, extent.Mem unit → ¬ Covers free unit) :
    let before := free.takeWhile fun other => other.unit < extent.unit
    let after := free.dropWhile fun other => other.unit < extent.unit
    before ++ after = free ∧ (∀ other ∈ before, other.finish ≤ extent.unit) ∧
      ∀ other ∈ after, extent.finish ≤ other.unit := by
  intro before after
  obtain ⟨split, earlier, later⟩ := split_at_unit ordered extent.unit
  refine ⟨split, fun other member => ?_, fun other member => ?_⟩
  · by_contra overlap
    have := earlier other member
    refine outside extent.unit ⟨Nat.le_refl _, ?_⟩
      ⟨other, split ▸ List.mem_append_left after member, by omega, by omega⟩
    simp only [Extent.finish]
    omega
  · by_contra overlap
    have := ordered.positive other (split ▸ List.mem_append_right before member)
    refine outside other.unit ⟨later other member, by omega⟩
      ⟨other, split ▸ List.mem_append_right before member, Nat.le_refl _, ?_⟩
    simp only [Extent.finish]
    omega

/-- Release covers exactly the units of the extent in addition. -/
theorem poolRelease_spec {extent : Extent} {free : List Extent} (ordered : Ordered free)
    (positive : 0 < extent.units) (outside : ∀ unit, extent.Mem unit → ¬ Covers free unit) :
    Ordered (poolRelease extent free) ∧
      ∀ unit, Covers (poolRelease extent free) unit ↔ extent.Mem unit ∨ Covers free unit := by
  obtain ⟨split, beforePast, afterPast⟩ := split_around ordered positive outside
  unfold poolRelease
  dsimp only at *
  generalize free.takeWhile (fun other => other.unit < extent.unit) = before at *
  generalize free.dropWhile (fun other => other.unit < extent.unit) = after at *
  subst split
  obtain ⟨beforeApart, afterApart, between⟩ := List.pairwise_append.mp ordered.apart
  have beforeOrdered : Ordered before :=
    ⟨fun other member => ordered.positive other (by simp [member]), beforeApart⟩
  have afterOrdered : Ordered after :=
    ⟨fun other member => ordered.positive other (by simp [member]), afterApart⟩
  have plain := joinNext_spec afterOrdered positive afterPast
  cases before using List.reverseRecOn with
  | nil =>
    simp only [List.getLast?_nil]
    exact ⟨plain.1, plain.2.2⟩
  | append_singleton front prev _ =>
    have prevPositive := beforeOrdered.positive prev (by simp)
    have prevPast := beforePast prev (by simp)
    have frontOrdered : Ordered front :=
      ⟨fun other member => beforeOrdered.positive other (by simp [member]),
        (List.pairwise_append.mp beforeApart).1⟩
    rw [List.getLast?_concat]
    dsimp only
    split
    · next touching =>
      have grown : 0 < (⟨prev.unit, prev.units + extent.units⟩ : Extent).units := by
        simp only
        omega
      obtain ⟨joined, starts, covered⟩ := joinNext_spec afterOrdered grown fun other member => by
        have := afterPast other member
        simp only [Extent.finish] at *
        omega
      rw [List.dropLast_concat]
      refine ⟨frontOrdered.append joined fun left leftMember right rightMember => ?_, fun unit => ?_⟩
      · exact Nat.le_trans ((List.pairwise_append.mp beforeApart).2.2 left leftMember prev (by simp))
          (starts right rightMember)
      · rw [covers_append, covered, covers_append, covers_append]
        have single : Covers [prev] unit ↔ prev.Mem unit := by simp [Covers]
        rw [single]
        have merged : (⟨prev.unit, prev.units + extent.units⟩ : Extent).Mem unit ↔
            prev.Mem unit ∨ extent.Mem unit := by
          simp only [Extent.Mem, Extent.finish] at *
          omega
        rw [merged]
        tauto
    · refine ⟨beforeOrdered.append plain.1 fun left leftMember right rightMember => ?_,
        fun unit => ?_⟩
      · exact Nat.le_trans (beforePast left leftMember) (plain.2.1 right rightMember)
      · simp only [covers_append, plain.2.2]
        tauto

/-! ## Extents that never touch -/

/-- Between two free extents lies a unit that is not free. -/
def Separated (free : List Extent) : Prop :=
  free.Pairwise fun left right => left.finish < right.unit

theorem Separated.ordered {free : List Extent} (separated : Separated free)
    (positive : ∀ extent ∈ free, 0 < extent.units) : Ordered free :=
  ⟨positive, separated.imp fun less => Nat.le_of_lt less⟩

/-- Allocation leaves no extents that touch. -/
theorem poolAlloc_separated {units unit : Nat} {free remaining : List Extent}
    (positive : ∀ extent ∈ free, 0 < extent.units) (separated : Separated free)
    (allocated : poolAlloc units free = some (unit, remaining)) : Separated remaining := by
  induction free generalizing remaining with
  | nil => exact nomatch allocated
  | cons extent rest inductionHypothesis =>
    obtain ⟨past, apart⟩ := List.pairwise_cons.mp separated
    have restPositive : ∀ other ∈ rest, 0 < other.units := fun other member =>
      positive other (by simp [member])
    unfold poolAlloc at allocated
    split at allocated
    · obtain ⟨⟨unit', remaining'⟩, found, same⟩ := Option.map_eq_some_iff.mp allocated
      obtain ⟨rfl, rfl⟩ := Prod.mk.inj same
      refine List.pairwise_cons.mpr ⟨fun other member => ?_,
        inductionHypothesis restPositive apart found⟩
      obtain ⟨-, origin, -⟩ := poolAlloc_spec (Separated.ordered apart restPositive) found
      obtain ⟨former, inRest, lower⟩ := origin other member
      exact Nat.lt_of_lt_of_le (past former inRest) lower
    · next large =>
      split at allocated
      · obtain ⟨rfl, rfl⟩ := Prod.mk.inj (Option.some.inj allocated)
        exact apart
      · obtain ⟨rfl, rfl⟩ := Prod.mk.inj (Option.some.inj allocated)
        refine List.pairwise_cons.mpr ⟨fun other member => ?_, apart⟩
        have := past other member
        simp only [Extent.finish] at this ⊢
        omega

/-- Joining leaves no extents that touch. -/
theorem joinNext_separated {extent : Extent} {after : List Extent} (separated : Separated after)
    (positive : ∀ other ∈ after, 0 < other.units) (past : ∀ other ∈ after, extent.finish ≤ other.unit) :
    Separated (joinNext extent after) := by
  cases after with
  | nil => exact List.pairwise_singleton _ _
  | cons next rest =>
    obtain ⟨nextPast, apart⟩ := List.pairwise_cons.mp separated
    have nextPositive := positive next (by simp)
    have first := past next (by simp)
    simp only [joinNext]
    split
    · next touching =>
      refine List.pairwise_cons.mpr ⟨fun other member => ?_, apart⟩
      have := nextPast other member
      simp only [Extent.finish] at *
      omega
    · next between =>
      refine List.pairwise_cons.mpr ⟨fun other member => ?_, separated⟩
      rcases List.mem_cons.mp member with rfl | inside
      · omega
      · have := nextPast other inside
        simp only [Extent.finish] at *
        omega

/-- Release leaves no extents that touch. -/
theorem poolRelease_separated {extent : Extent} {free : List Extent}
    (freePositive : ∀ other ∈ free, 0 < other.units) (separated : Separated free)
    (positive : 0 < extent.units) (outside : ∀ unit, extent.Mem unit → ¬ Covers free unit) :
    Separated (poolRelease extent free) := by
  obtain ⟨split, beforePast, afterPast⟩ :=
    split_around (separated.ordered freePositive) positive outside
  unfold poolRelease
  dsimp only at *
  generalize free.takeWhile (fun other => other.unit < extent.unit) = before at *
  generalize free.dropWhile (fun other => other.unit < extent.unit) = after at *
  subst split
  obtain ⟨beforeApart, afterApart, between⟩ := List.pairwise_append.mp separated
  have afterPositive : ∀ other ∈ after, 0 < other.units := fun other member =>
    freePositive other (by simp [member])
  have afterOrdered : Ordered after := Separated.ordered afterApart afterPositive
  cases before using List.reverseRecOn with
  | nil =>
    simp only [List.getLast?_nil]
    exact joinNext_separated afterApart afterPositive afterPast
  | append_singleton front prev _ =>
    have prevPast := beforePast prev (by simp)
    obtain ⟨frontApart, -, frontPast⟩ := List.pairwise_append.mp beforeApart
    rw [List.getLast?_concat]
    dsimp only
    split
    · next touching =>
      have grown : 0 < (⟨prev.unit, prev.units + extent.units⟩ : Extent).units := by
        simp only
        omega
      have grownPast : ∀ other ∈ after,
          (⟨prev.unit, prev.units + extent.units⟩ : Extent).finish ≤ other.unit := by
        intro other member
        have := afterPast other member
        simp only [Extent.finish] at *
        omega
      obtain ⟨-, starts, -⟩ := joinNext_spec afterOrdered grown grownPast
      rw [List.dropLast_concat]
      refine List.pairwise_append.mpr
        ⟨frontApart, joinNext_separated afterApart afterPositive grownPast, ?_⟩
      intro left leftMember right rightMember
      exact Nat.lt_of_lt_of_le (frontPast left leftMember prev (by simp)) (starts right rightMember)
    · next gap =>
      obtain ⟨-, starts, -⟩ := joinNext_spec afterOrdered positive afterPast
      refine List.pairwise_append.mpr
        ⟨beforeApart, joinNext_separated afterApart afterPositive afterPast, ?_⟩
      intro left leftMember right rightMember
      have reach := starts right rightMember
      rcases List.mem_append.mp leftMember with inFront | isPrev
      · have := frontPast left inFront prev (by simp)
        simp only [Extent.finish] at *
        omega
      · rw [List.mem_singleton] at isPrev
        rw [isPrev]
        omega

end KvCache.Pool
