import Mathlib.Data.Nat.Notation

/-!
# Binary search for the last index

A condition on indices holds up to some index and no further. The search narrows an interval
whose lower end meets the condition, rounding its middle up, and ends at the last index that
meets it.
-/

namespace KvCache.BinarySearch

/-- The index at which the search ends. -/
def lastTrue (meets : Nat → Bool) (low high : Nat) : Nat :=
  if low < high then
    let middle := (low + high + 1) / 2
    if meets middle then lastTrue meets middle high else lastTrue meets low (middle - 1)
  else low
termination_by high - low
decreasing_by all_goals omega

/-- The search ends at the last index of the interval that meets the condition. -/
theorem lastTrue_spec {meets : Nat → Bool} {low high : Nat} (ordered : low ≤ high)
    (first : meets low = true)
    (downward : ∀ less index, low ≤ less → less ≤ index → index ≤ high → meets index = true →
      meets less = true) :
    low ≤ lastTrue meets low high ∧ lastTrue meets low high ≤ high ∧
      meets (lastTrue meets low high) = true ∧
      ∀ index, lastTrue meets low high < index → index ≤ high → meets index = false := by
  fun_induction lastTrue meets low high with
  | case1 low high narrow middle met inductionHypothesis =>
    obtain ⟨above, below, last, beyond⟩ := inductionHypothesis (by omega) met
      fun less index from_ => downward less index (by omega)
    exact ⟨by omega, below, last, beyond⟩
  | case2 low high narrow middle unmet inductionHypothesis =>
    obtain ⟨above, below, last, beyond⟩ := inductionHypothesis (by omega) first
      fun less index from_ order inside => downward less index from_ order (by omega)
    refine ⟨above, by omega, last, fun index later inside => ?_⟩
    by_cases short : index ≤ middle - 1
    · exact beyond index later short
    · have past : meets index ≠ true := fun met =>
        unmet (downward middle index (by omega) (by omega) inside met)
      exact Bool.not_eq_true _ ▸ past
  | case3 low high closed =>
    exact ⟨Nat.le_refl low, ordered, first, fun index later inside => by omega⟩

/-- The search finds the only index with the condition on one side and not on the other. -/
theorem lastTrue_eq {meets : Nat → Bool} {high index : Nat} (inside : index ≤ high)
    (before : ∀ less ≤ index, meets less = true)
    (beyond : ∀ more, index < more → more ≤ high → meets more = false) :
    lastTrue meets 0 high = index := by
  have downward : ∀ less more, 0 ≤ less → less ≤ more → more ≤ high → meets more = true →
      meets less = true := by
    intro less more _ order limit met
    by_cases later : index < more
    · rw [beyond more later limit] at met
      cases met
    · exact before less (by omega)
  obtain ⟨-, bounded, last, past⟩ :=
    lastTrue_spec (Nat.zero_le high) (before 0 (Nat.zero_le index)) downward
  rcases Nat.lt_trichotomy (lastTrue meets 0 high) index with less | same | more
  · have refused := past index less inside
    rw [before index (Nat.le_refl index)] at refused
    cases refused
  · exact same
  · rw [beyond _ more bounded] at last
    cases last

end KvCache.BinarySearch
