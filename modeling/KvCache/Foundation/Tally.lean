import Mathlib

/-!
# Weights of the members of a list

A list of parties, each with a weight. Replacing one party changes the total by the
difference of the two weights, so a total follows every step of one party; with weights
zero and one it counts the parties that have a property.
-/

namespace KvCache.Tally

universe u
variable {α : Type u}

/-- The sum of the weights. -/
def total (weight : α → Nat) (parties : List α) : Nat := (parties.map weight).sum

@[simp]
theorem total_nil (weight : α → Nat) : total weight [] = 0 := rfl

@[simp]
theorem total_cons (weight : α → Nat) (party : α) (parties : List α) :
    total weight (party :: parties) = weight party + total weight parties := by
  simp [total]

@[simp]
theorem total_append (weight : α → Nat) (front back : List α) :
    total weight (front ++ back) = total weight front + total weight back := by
  simp [total]

/-- One party is replaced. -/
theorem total_set (weight : α → Nat) {parties : List α} {index : Nat} {old : α}
    (found : parties[index]? = some old) (new : α) :
    total weight (parties.set index new) + weight old = total weight parties + weight new := by
  induction parties generalizing index with
  | nil => simp at found
  | cons party rest inductionHypothesis =>
    cases index with
    | zero =>
      have same : party = old := by simpa using found
      simp only [List.set_cons_zero, total_cons, same]
      omega
    | succ index =>
      have there : rest[index]? = some old := by simpa using found
      have tail := inductionHypothesis there
      simp only [List.set_cons_succ, total_cons]
      omega

/-- A change of the parties that keeps every weight keeps the total. -/
theorem total_map {weight : α → Nat} {change : α → α}
    (kept : ∀ party, weight (change party) = weight party) (parties : List α) :
    total weight (parties.map change) = total weight parties := by
  induction parties with
  | nil => rfl
  | cons party rest inductionHypothesis => simp [kept, inductionHypothesis]

/-- A party is part of the total. -/
theorem weight_le_total (weight : α → Nat) {parties : List α} {index : Nat} {party : α}
    (found : parties[index]? = some party) : weight party ≤ total weight parties := by
  induction parties generalizing index with
  | nil => simp at found
  | cons first rest inductionHypothesis =>
    cases index with
    | zero =>
      have same : first = party := by simpa using found
      simp [same]
    | succ index =>
      have there : rest[index]? = some party := by simpa using found
      have tail := inductionHypothesis there
      simp only [total_cons]
      omega

/-- Two different parties are both part of the total. -/
theorem weights_le_total (weight : α → Nat) {parties : List α} {one other : Nat} {party rival : α}
    (found : parties[one]? = some party) (also : parties[other]? = some rival)
    (different : one ≠ other) : weight party + weight rival ≤ total weight parties := by
  induction parties generalizing one other with
  | nil => simp at found
  | cons first rest inductionHypothesis =>
    cases one with
    | zero =>
      cases other with
      | zero => exact absurd rfl different
      | succ other =>
        have same : first = party := by simpa using found
        have there : rest[other]? = some rival := by simpa using also
        have tail := weight_le_total weight there
        simp only [total_cons, same]
        omega
    | succ one =>
      cases other with
      | zero =>
        have same : first = rival := by simpa using also
        have there : rest[one]? = some party := by simpa using found
        have tail := weight_le_total weight there
        simp only [total_cons, same]
        omega
      | succ other =>
        have here : rest[one]? = some party := by simpa using found
        have there : rest[other]? = some rival := by simpa using also
        have tail := inductionHypothesis here there (by omega)
        simp only [total_cons]
        omega

/-- A positive total has a party of positive weight. -/
theorem weight_of_total {weight : α → Nat} {parties : List α} (positive : 0 < total weight parties) :
    ∃ (index : Nat) (party : α), parties[index]? = some party ∧ 0 < weight party := by
  induction parties with
  | nil => simp at positive
  | cons first rest inductionHypothesis =>
    by_cases weighs : 0 < weight first
    · exact ⟨0, first, rfl, weighs⟩
    · have later : 0 < total weight rest := by
        simp only [total_cons] at positive
        omega
      obtain ⟨index, party, found, weighty⟩ := inductionHypothesis later
      exact ⟨index + 1, party, by simpa using found, weighty⟩

end KvCache.Tally
