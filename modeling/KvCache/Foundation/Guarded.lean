import Mathlib.Data.List.Forall2

/-!
# Loops that give up

A loop in `Option` gives up where one of its steps does. A loop whose steps only look at the
item, not at what was done before, goes through if every item passes, and then it does what the
loop without the checks does. A step that first makes something of its item and then uses it can
be cut in two loops.
-/

namespace KvCache.Guarded

universe u
variable {α β σ : Type u}

/-- A guarded loop over a list, item by item. -/
theorem mapM_guarded (met : α → Prop) [DecidablePred met] (change : α → β) (items : List α) :
    (items.mapM fun item => if met item then some (change item) else none) =
      if ∀ item ∈ items, met item then some (items.map change) else none := by
  induction items with
  | nil => rfl
  | cons item items inductionHypothesis =>
    rw [List.mapM_cons, inductionHypothesis]
    by_cases first : met item
    · by_cases rest : ∀ item ∈ items, met item
      · rw [if_pos first, if_pos rest, if_pos (List.forall_mem_cons.mpr ⟨first, rest⟩)]
        rfl
      · rw [if_pos first, if_neg rest, if_neg fun all => rest (List.forall_mem_cons.mp all).2]
        rfl
    · rw [if_neg first, if_neg fun all => first (List.forall_mem_cons.mp all).1]
      rfl

/-- A guarded loop with a state. -/
theorem foldlM_guarded (met : α → Prop) [DecidablePred met] (step : σ → α → σ) (items : List α)
    (state : σ) :
    (items.foldlM (fun state item => if met item then some (step state item) else none) state) =
      if ∀ item ∈ items, met item then some (items.foldl step state) else none := by
  induction items generalizing state with
  | nil => rfl
  | cons item items inductionHypothesis =>
    rw [List.foldlM_cons]
    by_cases first : met item
    · rw [if_pos first, Option.bind_eq_bind, Option.bind_some, inductionHypothesis]
      by_cases rest : ∀ item ∈ items, met item
      · rw [if_pos rest, if_pos (List.forall_mem_cons.mpr ⟨first, rest⟩)]
        rfl
      · rw [if_neg rest, if_neg fun all => rest (List.forall_mem_cons.mp all).2]
    · rw [if_neg first, if_neg fun all => first (List.forall_mem_cons.mp all).1]
      rfl

/-- What the steps make can be made first. -/
theorem foldlM_made (make : α → Option β) (use : σ → β → Option σ) (items : List α) (state : σ) :
    items.foldlM (fun state item => (make item).bind (use state)) state =
      (items.mapM make).bind fun made => made.foldlM use state := by
  induction items generalizing state with
  | nil => rfl
  | cons item items inductionHypothesis =>
    rw [List.foldlM_cons, List.mapM_cons]
    cases make item with
    | none => rfl
    | some value =>
      simp only [Option.bind_eq_bind, Option.bind_some]
      cases used : use state value with
      | some after =>
        rw [Option.bind_some, inductionHypothesis]
        cases items.mapM make with
        | none => rfl
        | some made => simp [used]
      | none =>
        cases items.mapM make with
        | none => rfl
        | some made => simp [used]

/-- Loops one behind the other are one loop. -/
theorem foldlM_flatten (use : σ → β → Option σ) (lists : List (List β)) (state : σ) :
    lists.foldlM (fun state list => list.foldlM use state) state =
      lists.flatten.foldlM use state := by
  induction lists generalizing state with
  | nil => rfl
  | cons list lists inductionHypothesis =>
    rw [List.foldlM_cons, List.flatten_cons, List.foldlM_append]
    simp only [inductionHypothesis]

/-- A loop goes through where each of its steps does. -/
theorem mapM_eq_some {make : α → Option β} {items : List α} {made : List β} :
    items.mapM make = some made ↔
      List.Forall₂ (fun item value => make item = some value) items made := by
  induction items generalizing made with
  | nil =>
    constructor
    · intro empty
      cases empty
      exact .nil
    · intro empty
      cases empty
      rfl
  | cons item items inductionHypothesis =>
    rw [List.mapM_cons, List.forall₂_cons_left_iff]
    constructor
    · intro all
      obtain ⟨value, first, rest⟩ := Option.bind_eq_some_iff.mp all
      obtain ⟨values, later, same⟩ := Option.bind_eq_some_iff.mp rest
      cases same
      exact ⟨value, values, first, inductionHypothesis.mp later, rfl⟩
    · rintro ⟨value, values, first, later, rfl⟩
      rw [first, inductionHypothesis.mpr later]
      rfl

/-- What a loop makes, as far as each item decides it. -/
theorem mapM_eq_map {γ : Type u} {make : α → Option β} {view : β → γ} {change : α → γ}
    {items : List α} {made : List β}
    (only : ∀ item ∈ items, ∀ value, make item = some value → view value = change item)
    (all : items.mapM make = some made) : made.map view = items.map change := by
  have each := mapM_eq_some.mp all
  clear all
  induction each with
  | nil => rfl
  | cons first _ inductionHypothesis =>
    rw [List.map_cons, List.map_cons, only _ List.mem_cons_self _ first,
      inductionHypothesis fun item member => only item (List.mem_cons_of_mem _ member)]

theorem mapM_isSome {make : α → Option β} {items : List α} :
    (items.mapM make).isSome ↔ ∀ item ∈ items, (make item).isSome := by
  induction items with
  | nil => simp
  | cons item items inductionHypothesis =>
    rw [List.mapM_cons, List.forall_mem_cons, ← inductionHypothesis]
    cases make item with
    | none => simp
    | some value =>
      cases items.mapM make with
      | none => simp
      | some values => simp

end KvCache.Guarded
