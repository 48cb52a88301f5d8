/-!
# Traversals that may fail

A traversal of a list in `Option` succeeds exactly when it succeeds at every element.
-/

namespace KvCache.Traverse

universe u v
variable {α : Type u} {β : Type v}

/-- A traversal none of whose elements fails is a map. -/
theorem mapM_defined (f : α → Option β) (g : α → β) (elements : List α)
    (defined : ∀ element ∈ elements, f element = some (g element)) :
    elements.mapM f = some (elements.map g) := by
  induction elements with
  | nil => rfl
  | cons element rest inductionHypothesis =>
    have first := defined element List.mem_cons_self
    have later := inductionHypothesis fun other member => defined other (.tail _ member)
    simp [List.mapM_cons, first, later]

/-- Where a traversal succeeds, so does every element. -/
theorem mapM_member {f : α → Option β} {elements : List α} {results : List β}
    (succeeded : elements.mapM f = some results) {element : α} (member : element ∈ elements) :
    ∃ result, f element = some result := by
  induction elements generalizing results with
  | nil => cases member
  | cons first rest inductionHypothesis =>
    simp only [List.mapM_cons, Option.bind_eq_bind, Option.bind_eq_some_iff, Option.pure_def] at succeeded
    obtain ⟨head, here, tail, later, -⟩ := succeeded
    rcases List.mem_cons.mp member with rfl | inside
    · exact ⟨head, here⟩
    · exact inductionHypothesis later inside

/-- Every result is that of an element. -/
theorem mapM_made {f : α → Option β} {elements : List α} {results : List β}
    (succeeded : elements.mapM f = some results) {result : β} (member : result ∈ results) :
    ∃ element ∈ elements, f element = some result := by
  induction elements generalizing results with
  | nil =>
    cases succeeded
    cases member
  | cons first rest inductionHypothesis =>
    simp only [List.mapM_cons, Option.bind_eq_bind, Option.bind_eq_some_iff, Option.pure_def,
      Option.some.injEq] at succeeded
    obtain ⟨head, here, tail, later, rfl⟩ := succeeded
    rcases List.mem_cons.mp member with rfl | inside
    · exact ⟨first, List.mem_cons_self, here⟩
    · obtain ⟨element, listed, there⟩ := inductionHypothesis later inside
      exact ⟨element, List.mem_cons_of_mem _ listed, there⟩

/-- Functions that agree on the elements traverse them alike. -/
theorem mapM_congr {f g : α → Option β} {elements : List α}
    (same : ∀ element ∈ elements, f element = g element) : elements.mapM f = elements.mapM g := by
  induction elements with
  | nil => rfl
  | cons element rest inductionHypothesis =>
    rw [List.mapM_cons, List.mapM_cons, same element List.mem_cons_self,
      inductionHypothesis fun other member => same other (.tail _ member)]

end KvCache.Traverse
