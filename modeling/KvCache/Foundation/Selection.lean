import Mathlib

/-!
# Scans for the largest eligible item

A scan visits a list of items and keeps the first one of largest weight among those that are
eligible. What it keeps does not depend on how the visit is cut into batches.
-/

namespace KvCache.Selection

universe u v
variable {ι : Type u} {κ : Type v} [LinearOrder κ]

/-- Keep the better of the best item so far and the next one. -/
def consider (eligible : ι → Bool) (weight : ι → κ) (best : Option (ι × κ)) (item : ι) :
    Option (ι × κ) :=
  if eligible item then
    match best with
    | none => some (item, weight item)
    | some (kept, bound) => if bound < weight item then some (item, weight item) else some (kept, bound)
  else best

variable {eligible : ι → Bool} {weight : ι → κ}

/-- What is kept after the items visited so far. -/
def Keeps (eligible : ι → Bool) (weight : ι → κ) (visited : List ι) : Option (ι × κ) → Prop
  | none => ∀ item ∈ visited, eligible item = false
  | some (kept, bound) => kept ∈ visited ∧ eligible kept = true ∧ bound = weight kept ∧
      ∀ item ∈ visited, eligible item = true → weight item ≤ bound

/-- One more item. -/
theorem Keeps.next {visited : List ι} {best : Option (ι × κ)} (keeps : Keeps eligible weight visited best)
    (item : ι) : Keeps eligible weight (visited ++ [item]) (consider eligible weight best item) := by
  unfold consider
  by_cases good : eligible item = true
  · rw [if_pos good]
    cases best with
    | none =>
      refine ⟨by simp, good, rfl, fun other inside holds => ?_⟩
      rcases List.mem_append.mp inside with before | here
      · exact absurd holds (by simp [keeps other before])
      · rw [List.mem_singleton.mp here]
    | some pair =>
      obtain ⟨kept, bound⟩ := pair
      obtain ⟨inside, holds, rfl, largest⟩ := keeps
      dsimp only
      split
      · next more =>
        refine ⟨by simp, good, rfl, fun other member allowed => ?_⟩
        rcases List.mem_append.mp member with before | here
        · exact (largest other before allowed).trans more.le
        · rw [List.mem_singleton.mp here]
      · next notMore =>
        refine ⟨List.mem_append_left _ inside, holds, rfl, fun other member allowed => ?_⟩
        rcases List.mem_append.mp member with before | here
        · exact largest other before allowed
        · rw [List.mem_singleton.mp here]
          exact not_lt.mp notMore
  · rw [if_neg good]
    have skipped : eligible item = false := by simpa using good
    cases best with
    | none =>
      intro other member
      rcases List.mem_append.mp member with before | here
      · exact keeps other before
      · rw [List.mem_singleton.mp here]
        exact skipped
    | some pair =>
      obtain ⟨kept, bound⟩ := pair
      obtain ⟨inside, holds, same, largest⟩ := keeps
      refine ⟨List.mem_append_left _ inside, holds, same, fun other member allowed => ?_⟩
      rcases List.mem_append.mp member with before | here
      · exact largest other before allowed
      · rw [List.mem_singleton.mp here, skipped] at allowed
        exact nomatch allowed

/-- A whole scan. -/
theorem Keeps.fold {visited : List ι} {best : Option (ι × κ)}
    (keeps : Keeps eligible weight visited best) (items : List ι) :
    Keeps eligible weight (visited ++ items) (items.foldl (consider eligible weight) best) := by
  induction items generalizing visited best with
  | nil => simpa using keeps
  | cons item rest inductionHypothesis =>
    have later := inductionHypothesis (keeps.next item)
    rwa [List.append_assoc, List.singleton_append] at later

/-- A scan from the start keeps an eligible item of largest weight, or finds that there is none. -/
theorem scan_keeps (items : List ι) :
    Keeps eligible weight items (items.foldl (consider eligible weight) none) := by
  have start : Keeps eligible weight [] (none : Option (ι × κ)) := fun _ member =>
    absurd member List.not_mem_nil
  simpa using start.fold items

/-! ## Batches -/

section Batches

variable {β : Type v} (visit : β → Nat → β) (batch limit : Nat)

/-- Visit the numbers from a base to a limit in batches, the last of which may be partial. -/
def inBatches [NeZero batch] (base : Nat) (state : β) : β :=
  if base < limit then
    inBatches (base + batch)
      ((List.range (min (limit - base) batch)).foldl (fun state k => visit state (base + k)) state)
  else state
termination_by limit - base
decreasing_by
  have progress : batch ≠ 0 := NeZero.ne batch
  omega

/-- Batches visit what a plain loop visits. -/
theorem inBatches_eq [NeZero batch] (base : Nat) (state : β) :
    inBatches visit batch limit base state =
      (List.range' base (limit - base)).foldl visit state := by
  induction base, state using inBatches.induct visit batch limit with
  | case1 base state below inductionHypothesis =>
    rw [inBatches, if_pos below, inductionHypothesis]
    have cut : limit - base = min (limit - base) batch + (limit - (base + batch)) := by omega
    have batched : (List.range (min (limit - base) batch)).foldl (fun state k => visit state (base + k))
        state = (List.range' base (min (limit - base) batch)).foldl visit state := by
      rw [List.range'_eq_map_range, List.foldl_map]
    rw [batched]
    conv_rhs => rw [cut, ← List.range'_append_1, List.foldl_append]
    rcases Nat.lt_or_ge (base + batch) limit with more | last
    · rw [Nat.min_eq_right (by omega)]
    · rw [Nat.sub_eq_zero_of_le last]
      rfl
  | case2 base state done =>
    rw [inBatches, if_neg done, Nat.sub_eq_zero_of_le (Nat.not_lt.mp done)]
    rfl

end Batches

end KvCache.Selection
